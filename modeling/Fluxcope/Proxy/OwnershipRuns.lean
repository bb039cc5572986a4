import Fluxcope.Settings.PreviewSpec
import Fluxcope.Proxy.Ownership
/-!
# Handles over whole runs

In every order of steps no handle is lost, so no step waits for one that is gone, no
permit stays away, and the shutdown reaches every pump.
-/

namespace Fluxcope.Proxy

open Fluxcope.Library Fluxcope.Library.Utf8 Fluxcope.Capture Fluxcope.Mapping Fluxcope.Settings

namespace ProxySystem

variable {env : Environment} {globs : Globset} {authorities : Authorities}
  {s t : ProxySystem env globs} {label : ProxyLabel env globs} {action : Option CaptureAction}

/-! ## Runs -/

/-- What the captures keep, they keep in the proxy. -/
theorem Books.captures {I : CaptureSystem → Prop} (h : Books s t action)
    (hstep : ∀ before action after, I before → before.step action = some after → I after)
    (hbefore : I s.captures) : I t.captures := by
  have hperform := h.perform
  cases action with
  | none =>
    have heq : s.captures = t.captures := Option.some.inj hperform
    rw [← heq]
    exact hbefore
  | some action => exact hstep _ _ _ hbefore hperform

variable {policy : CapturePolicy} {retention : CaptureRetentionPolicy}
  {requests : RequestPolicy globs} {labels : List (ProxyLabel env globs)}

theorem run_owned (hrun : run (step authorities) (new policy retention requests) labels = some s) :
    s.Owned ∧ CaptureSystem.Admitted policy.maxConcurrentExchanges s.captures.held.1
      s.captures.held.2 := by
  refine run_invariant (I := fun s : ProxySystem env globs => s.Owned ∧
    CaptureSystem.Admitted policy.maxConcurrentExchanges s.captures.held.1 s.captures.held.2)
    ?_ ⟨owned_new policy retention requests, ?_⟩ hrun
  · rintro s label t ⟨howned, hadmitted⟩ hstep
    obtain ⟨action, hchange⟩ := step_change hstep
    exact ⟨howned.change hchange.books, hchange.books.captures
      (I := fun captures => CaptureSystem.Admitted policy.maxConcurrentExchanges captures.held.1
        captures.held.2) (fun _ _ _ h hstep => h.step (CaptureSystem.held_step hstep)) hadmitted⟩
  · exact ⟨fun _ _ hmem => absurd hmem List.not_mem_nil, rfl⟩

/-- No call of a handler waits for a handle. -/
theorem Owned.handler_enabled (h : s.Owned) {k : Nat} {handler : LogHandler env globs}
    {event : HandlerEvent env} {move : HandlerMove env globs} (hget : s.handlers[k]? = some handler)
    (hmove : handler.step authorities s.policy s.recording event = some move) :
    ∃ t, s.step authorities (.handler k event) = some t := by
  obtain ⟨captures, hperform⟩ := perform_enabled s.captures
    ((LogHandler.step_moves hmove).ofViewer) fun i hused => by
      have hholds := (LogHandler.step_moves hmove).used hused
      rw [h.handles]
      exact (hholds.trans_le (le_total hget _)).trans_le (Nat.le_add_right _ _)
  refine ⟨_, Option.bind_eq_some_iff.2 ⟨handler, hget, Option.bind_eq_some_iff.2
    ⟨move, hmove, Option.bind_eq_some_iff.2 ⟨captures, hperform, rfl⟩⟩⟩⟩

variable (authorities) in
/-- No step of a pump waits for a handle. -/
theorem Owned.pump_step (h : s.Owned) {p : Nat} {pump next : BodyPump} {event : PumpEvent}
    {action : Option CaptureAction} (hget : s.pumps[p]? = some pump)
    (hmove : pump.step s.interrupted event = some (next, action)) :
    ∃ captures, s.step authorities (.pump p event) =
      some { s with captures, pumps := s.pumps.set p next } := by
  obtain ⟨captures, hperform⟩ := perform_enabled s.captures
    (BodyPump.step_ofViewer hmove) fun i hused => by
      have hholds := (BodyPump.step_used hmove hused).2
      rw [h.handles]
      exact (hholds.trans_le (le_total hget _)).trans_le (Nat.le_add_left _ _)
  exact ⟨captures, Option.bind_eq_some_iff.2 ⟨pump, hget, Option.bind_eq_some_iff.2
    ⟨(next, action), hmove, Option.bind_eq_some_iff.2 ⟨captures, hperform, rfl⟩⟩⟩⟩

/-- Nobody has a capture any more. -/
structure Quiet (s : ProxySystem env globs) : Prop where
  handlers : ∀ handler ∈ s.handlers, handler.current = none ∧ handler.phase.handle = none
  pumps : ∀ pump ∈ s.pumps, pump.isGone = true

theorem Quiet.holders (h : s.Quiet) (i : CaptureSequence) : s.holders i = 0 := by
  have hhandlers : total (LogHandler.holds i) s.handlers = 0 := by
    refine Nat.eq_zero_of_not_pos fun hpos => ?_
    obtain ⟨k, handler, hget, hholds⟩ := exists_of_total_pos hpos
    obtain ⟨hcurrent, hcall⟩ := h.handlers handler (List.mem_of_getElem? hget)
    simp [LogHandler.holds, hcurrent, hcall] at hholds
  have hpumps : total (BodyPump.holds i) s.pumps = 0 := by
    refine Nat.eq_zero_of_not_pos fun hpos => ?_
    obtain ⟨p, pump, hget, hholds⟩ := exists_of_total_pos hpos
    simp [BodyPump.holds, h.pumps pump (List.mem_of_getElem? hget)] at hholds
  rw [ProxySystem.holders, hhandlers, hpumps]

/-- In every order of steps, the handles of each capture are those that handlers and
pumps hold, each side of a capture belongs to one of them at most, none of them is ever
refused a step for want of a handle, and when all of them are done, every permit is free. -/
theorem handles_accounted
    (hrun : run (step authorities) (new policy retention requests) labels = some s) :
    (∀ i, handles s.captures i = s.holders i) ∧ (∀ i side, s.claims i side ≤ 1) ∧
      (∀ k handler event move, s.handlers[k]? = some handler →
        handler.step authorities s.policy s.recording event = some move →
        ∃ t, s.step authorities (.handler k event) = some t) ∧
      (∀ p pump event moved, s.pumps[p]? = some pump → pump.step s.interrupted event = some moved →
        ∃ t, s.step authorities (.pump p event) = some t) ∧
      (s.Quiet → s.captures.permits = policy.maxConcurrentExchanges) := by
  obtain ⟨howned, hadmitted⟩ := run_owned hrun
  refine ⟨howned.handles, howned.claims,
    fun k handler event move hget hmove => howned.handler_enabled hget hmove,
    fun p pump event moved hget hmove => ?_, fun hquiet => ?_⟩
  · obtain ⟨captures, hstep⟩ := howned.pump_step authorities hget hmove
    exact ⟨_, hstep⟩
  · have hnone : (s.captures.held.2.countP fun hold => hold.2.permit) = 0 := by
      refine List.countP_eq_zero.2 fun hold hmem hpermit => ?_
      obtain ⟨handles', lifecycle⟩ := hold
      obtain ⟨hpos, -⟩ := (hadmitted.exact _ _ hmem).1 hpermit
      obtain ⟨i, hget⟩ := List.getElem?_of_mem hmem
      have hzero := howned.handles i
      rw [hquiet.holders, handles_eq, handlesAt, hget] at hzero
      exact absurd hzero hpos.ne'
    have hconserved := hadmitted.conserved
    rw [hnone] at hconserved
    exact hconserved

/-- A request whose body is captured, and its response, of which a frame is under way. -/
def sampleRequest : List (ProxyLabel sampleEnvironment sampleGlobset) :=
  [.handler 0 (.request { method := [71], uri := "http://a/".toList, headers := [] }),
    .handler 0 .evaluate, .handler 0 (.start 0 0), .handler 0 .spawn, .handler 0 .keep,
    .pump 0 (.frame (.data [1, 2])), .pump 0 (.send 1), .pump 0 .append, .pump 0 (.sourceEnded 2),
    .pump 0 .leave, .handler 0 (.respond { status := 200, headers := [] } 3), .handler 0 .tee,
    .pump 1 (.frame (.data [3])), .interrupt]

def samplePolicy : RequestPolicy sampleGlobset :=
  { mapping := {}, prefilter := { enabled := true, matcher := .includeAll } }

theorem handles_accounted_sample :
    ∃ s, run (step sampleAuthorities) (new {} {} samplePolicy) sampleRequest = some s ∧
      handles s.captures 0 = s.holders 0 := by
  obtain ⟨s, hrun⟩ := Option.isSome_iff_exists.1
    (show (run (step sampleAuthorities) (new {} {} samplePolicy) sampleRequest).isSome = true by
      decide +kernel)
  exact ⟨s, hrun, (handles_accounted hrun).1 0⟩

/-! ## The shutdown -/

/-- The steps of a task that the shutdown reaches wherever it stands. -/
def stopping (pump : BodyPump) : List PumpEvent :=
  match pump.phase with
  | .reading | .sending _ => [.shutdown 0, .leave]
  | .noting _ => [.append, .shutdown 0, .leave]
  | .leaving _ => [.leave]
  | .gone _ => []

variable (authorities) in
theorem Owned.pump_owned (h : s.Owned) {p : Nat} {pump next : BodyPump} {event : PumpEvent}
    {action : Option CaptureAction} (hget : s.pumps[p]? = some pump)
    (hmove : pump.step s.interrupted event = some (next, action)) :
    ∃ t, s.step authorities (.pump p event) = some t ∧ t.Owned ∧ t.interrupted = s.interrupted ∧
      t.pumps = s.pumps.set p next := by
  obtain ⟨captures, hstep⟩ := h.pump_step authorities hget hmove
  obtain ⟨action, hchange⟩ := step_change hstep
  exact ⟨_, hstep, h.change hchange.books, rfl, rfl⟩

theorem get_set {α : Type*} {list : List α} {i : Nat} {a : α} (hget : list[i]? = some a) (b : α) :
    (list.set i b)[i]? = some b := by
  rw [getElem?_set_of_some hget, if_pos rfl]

theorem set_of_get {α : Type*} {list : List α} {i : Nat} {a : α} (hget : list[i]? = some a) :
    list.set i a = list := by
  obtain ⟨hi, rfl⟩ := List.getElem?_eq_some_iff.1 hget
  exact List.set_getElem_self hi

variable (authorities) in
/-- A pump that leaves is gone. -/
theorem run_leave (h : s.Owned) {p : Nat} {pump : BodyPump} (hget : s.pumps[p]? = some pump)
    {reason : PumpEnd} (hphase : pump.phase = .leaving reason) :
    ∃ t next, run (step authorities) s [.pump p .leave] = some t ∧ t.Owned ∧
      t.interrupted = s.interrupted ∧ t.pumps = s.pumps.set p next ∧ next.isGone = true := by
  have hmove : pump.step s.interrupted .leave = some
      ({ pump with
        phase := .gone reason
        channel := pump.channel.map fun channel => channel.finish reason.error },
        some (.dropHandle pump.sequence)) := by
    simp [BodyPump.step, hphase]
  obtain ⟨t, hstep, howned, hinterrupted, hpumps⟩ :=
    h.pump_owned authorities hget hmove
  exact ⟨t, _, run_cons_eq_some.2 ⟨t, hstep, rfl⟩, howned, hinterrupted, hpumps, rfl⟩

variable (authorities) in
theorem run_shutdown (h : s.Owned) (hinterrupted : s.interrupted = true) {p : Nat}
    {pump : BodyPump} (hget : s.pumps[p]? = some pump)
    (hphase : pump.phase = .reading ∨ ∃ frame, pump.phase = .sending frame) :
    ∃ t next, run (step authorities) s [.pump p (.shutdown 0), .pump p .leave] = some t ∧ t.Owned ∧
      t.interrupted = s.interrupted ∧ t.pumps = s.pumps.set p next ∧ next.isGone = true := by
  have hmove : pump.step s.interrupted (.shutdown 0) = some (pump.finish .shutdown 0) := by
    rcases hphase with hphase | ⟨frame, hphase⟩ <;>
      simp [BodyPump.step, hinterrupted, hphase]
  obtain ⟨u, hstep, howned, hkept, hpumps⟩ := h.pump_owned authorities hget hmove
  have hat := get_set hget (pump.finish .shutdown 0).1
  obtain ⟨t, next, hrun, hlast⟩ := run_leave authorities howned (hpumps ▸ hat)
    (show BodyPump.phase _ = .leaving .shutdown from rfl)
  refine ⟨t, next, run_cons_eq_some.2 ⟨u, hstep, hrun⟩, hlast.1, hlast.2.1.trans hkept, ?_,
    hlast.2.2.2⟩
  rw [hlast.2.2.1, hpumps, List.set_set]

variable (authorities) in
theorem run_stopping (h : s.Owned) (hinterrupted : s.interrupted = true) {p : Nat}
    {pump : BodyPump} (hget : s.pumps[p]? = some pump) :
    ∃ t next, run (step authorities) s ((stopping pump).map (.pump p)) = some t ∧ t.Owned ∧
      t.interrupted = s.interrupted ∧ t.pumps = s.pumps.set p next ∧ next.isGone = true := by
  unfold stopping
  cases hphase : pump.phase with
  | reading => exact run_shutdown authorities h hinterrupted hget (.inl hphase)
  | sending frame => exact run_shutdown authorities h hinterrupted hget (.inr ⟨frame, hphase⟩)
  | noting bytes =>
    have hmove : pump.step s.interrupted .append =
        some ({ pump with phase := .reading, shown := pump.shown ++ bytes },
          some (.append pump.sequence pump.side bytes)) := by
      simp [BodyPump.step, hphase]
    obtain ⟨u, hstep, howned, hkept, hpumps⟩ :=
      h.pump_owned authorities hget hmove
    have hat := get_set hget { pump with phase := .reading, shown := pump.shown ++ bytes }
    obtain ⟨t, next, hrun, hlast⟩ := run_shutdown authorities howned
      (hkept.trans hinterrupted) (hpumps ▸ hat) (.inl rfl)
    refine ⟨t, next, run_cons_eq_some.2 ⟨u, hstep, hrun⟩, hlast.1, hlast.2.1.trans hkept, ?_,
      hlast.2.2.2⟩
    rw [hlast.2.2.1, hpumps, List.set_set]
  | leaving reason => exact run_leave authorities h hget hphase
  | gone reason =>
    refine ⟨s, pump, rfl, h, rfl, ?_, by simp [BodyPump.isGone, hphase]⟩
    exact (set_of_get hget).symm

/-- A task takes these steps without its source and its reader. -/
def ownStep : PumpEvent → Bool
  | .shutdown _ | .append | .leave => true
  | _ => false

theorem stopping_own (pump : BodyPump) :
    (stopping pump).length ≤ 3 ∧ ∀ event ∈ stopping pump, ownStep event = true := by
  unfold stopping
  cases pump.phase <;> simp [ownStep]

/-- The steps among these that are those of the pump. -/
def stopsOf (p : Nat) (stops : List (Nat × PumpEvent)) : List PumpEvent :=
  (stops.filter fun stop => stop.1 = p).map Prod.snd

theorem stopsOf_append (p : Nat) (stops more : List (Nat × PumpEvent)) :
    stopsOf p (stops ++ more) = stopsOf p stops ++ stopsOf p more := by
  rw [stopsOf, List.filter_append, List.map_append]
  rfl

theorem stopsOf_eq_nil {p : Nat} {stops : List (Nat × PumpEvent)}
    (h : ∀ stop ∈ stops, stop.1 ≠ p) : stopsOf p stops = [] := by
  rw [stopsOf, List.map_eq_nil_iff, List.filter_eq_nil_iff]
  intro stop hstop heq
  exact h stop hstop (of_decide_eq_true heq)

theorem stopsOf_length_le (p : Nat) (stops : List (Nat × PumpEvent)) :
    (stopsOf p stops).length ≤ stops.length := by
  rw [stopsOf, List.length_map]
  exact List.length_filter_le _ _

variable (authorities) in
/-- The first pumps are stopped, one after the other. -/
theorem run_stoppingFirst (h : s.Owned) (hinterrupted : s.interrupted = true) (count : Nat) :
    ∃ stops : List (Nat × PumpEvent),
      (∀ stop ∈ stops, stop.1 < count ∧ ownStep stop.2 = true) ∧
      (∀ p, (stopsOf p stops).length ≤ 3) ∧
      ∃ t, run (step authorities) s (stops.map fun stop => .pump stop.1 stop.2) = some t ∧
        t.Owned ∧ t.interrupted = true ∧ t.pumps.length = s.pumps.length ∧
        ∀ p, p < count → ∀ pump, t.pumps[p]? = some pump → pump.isGone = true := by
  induction count with
  | zero =>
    exact ⟨[], by simp, fun p => Nat.zero_le 3, s, rfl, h, hinterrupted, rfl,
      fun p hp => absurd hp (Nat.not_lt_zero p)⟩
  | succ count ih =>
    obtain ⟨stops, hown, hthree, u, hrun, howned, hstill, hpumps, hgone⟩ := ih
    have hown' (stop) (hstop : stop ∈ stops) : stop.1 < count + 1 ∧ ownStep stop.2 = true :=
      ⟨(hown stop hstop).1.trans (Nat.lt_succ_self count), (hown stop hstop).2⟩
    cases hget : u.pumps[count]? with
    | none =>
      refine ⟨stops, hown', hthree, u, hrun, howned, hstill, hpumps, fun p hp pump hpump => ?_⟩
      rcases Nat.lt_succ_iff_lt_or_eq.1 hp with hp | rfl
      · exact hgone p hp pump hpump
      · rw [hget] at hpump
        cases hpump
    | some pump =>
      obtain ⟨t, next, hlast, howned', hkept, hset, hnext⟩ :=
        run_stopping authorities howned hstill hget
      obtain ⟨hshort, hownLast⟩ := stopping_own pump
      refine ⟨stops ++ (stopping pump).map fun event => (count, event), ?_, ?_, t, ?_, howned',
        hkept.trans hstill, ?_, ?_⟩
      · intro stop hstop
        rcases List.mem_append.1 hstop with hstop | hstop
        · exact hown' stop hstop
        · obtain ⟨event, hevent, rfl⟩ := List.mem_map.1 hstop
          exact ⟨Nat.lt_succ_self count, hownLast event hevent⟩
      · -- The steps of this pump are new, and those of the others are as they were.
        intro p
        rw [stopsOf_append, List.length_append]
        by_cases hp : p = count
        · have hnone : stopsOf p stops = [] :=
            stopsOf_eq_nil fun stop hstop => hp ▸ (hown stop hstop).1.ne
          have hle := stopsOf_length_le p ((stopping pump).map fun event => (count, event))
          rw [List.length_map] at hle
          rw [hnone, List.length_nil, Nat.zero_add]
          exact hle.trans hshort
        · have hnone : stopsOf p ((stopping pump).map fun event => (count, event)) = [] := by
            refine stopsOf_eq_nil fun stop hstop => ?_
            obtain ⟨event, -, rfl⟩ := List.mem_map.1 hstop
            exact Ne.symm hp
          rw [hnone, List.length_nil, Nat.add_zero]
          exact hthree p
      · rw [List.map_append, List.map_map]
        exact run_append_eq_some.2 ⟨u, hrun, hlast⟩
      · rw [hset, List.length_set, hpumps]
      · intro p hp pump' hpump'
        rw [hset, getElem?_set_of_some hget] at hpump'
        split at hpump'
        · obtain rfl := Option.some.inj hpump'
          exact hnext
        · rename_i hne
          exact hgone p (by omega) pump' hpump'

/-- Once the proxy shuts down, whatever has happened before, all pumps can return by
steps of their own, three each at most: none waits for its source or its reader. -/
theorem shutdown_stops_pumps
    (hrun : run (step authorities) (new policy retention requests) labels = some s)
    (hinterrupted : s.interrupted = true) :
    ∃ stops : List (Nat × PumpEvent),
      (∀ stop ∈ stops, stop.1 < s.pumps.length ∧ ownStep stop.2 = true) ∧
      (∀ p, (stopsOf p stops).length ≤ 3) ∧
      ∃ t, run (step authorities) s (stops.map fun stop => .pump stop.1 stop.2) = some t ∧
        ∀ pump ∈ t.pumps, pump.isGone = true := by
  obtain ⟨stops, hown, hthree, t, hstops, -, -, hpumps, hgone⟩ := run_stoppingFirst
    authorities (run_owned hrun).1 hinterrupted s.pumps.length
  refine ⟨stops, hown, hthree, t, hstops, fun pump hmem => ?_⟩
  obtain ⟨p, hp, rfl⟩ := List.mem_iff_getElem.1 hmem
  exact hgone p (hpumps ▸ hp) _ (List.getElem?_eq_getElem hp)

theorem shutdown_stops_pumps_sample :
    ∃ s : ProxySystem sampleEnvironment sampleGlobset, ∃ stops : List (Nat × PumpEvent), ∃ t,
      run (step sampleAuthorities) (new {} {} samplePolicy) sampleRequest = some s ∧
      run (step sampleAuthorities) s (stops.map fun stop => .pump stop.1 stop.2) = some t ∧
      ∀ pump ∈ t.pumps, pump.isGone = true := by
  obtain ⟨s, hrun⟩ := Option.isSome_iff_exists.1
    (show (run (step sampleAuthorities) (new {} {} samplePolicy) sampleRequest).isSome = true by
      decide +kernel)
  have hinterrupted : (run (step sampleAuthorities) (new {} {} samplePolicy) sampleRequest).map
      (fun s => s.interrupted) = some true := by decide +kernel
  rw [hrun] at hinterrupted
  obtain ⟨stops, -, -, t, hstops, hgone⟩ :=
    shutdown_stops_pumps hrun (Option.some.inj hinterrupted)
  exact ⟨s, stops, t, hrun, hstops, hgone⟩

end ProxySystem

end Fluxcope.Proxy
