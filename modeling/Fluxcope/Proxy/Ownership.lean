import Fluxcope.Library.Run
import Fluxcope.Proxy.HandlerSpec
/-!
# Every handle is somewhere

Every step keeps the books: the handles of a capture are those that handlers and pumps
hold, and a side of a capture has one owner.
-/

namespace Fluxcope.Proxy

open Fluxcope.Library Fluxcope.Library.Utf8 Fluxcope.Capture Fluxcope.Mapping Fluxcope.Settings

/-! ## The moves of a pump -/

namespace BodyPump

variable {pump next : BodyPump} {interrupted : Bool} {action : Option CaptureAction}

/-- A pump stays with its side, and gives its handle back when it is gone. -/
structure Books (pump next : BodyPump) (action : Option CaptureAction) : Prop where
  starts : starts action = false
  cloned : cloned action = none
  sequence : next.sequence = pump.sequence
  side : next.side = pump.side
  holds : ∀ i, next.holds i + one (dropped action) i = pump.holds i
  writes : ∀ i side, next.writes i side + one (finished side action) i ≤ pump.writes i side

theorem Books.claims (h : Books pump next action) (i : CaptureSequence) (side : BodySide) :
    next.claims i side = pump.claims i side := by
  unfold BodyPump.claims
  rw [h.sequence, h.side]

/-- Where the pump does not end, nothing is owed. -/
theorem books_of_same (hstarts : Proxy.starts action = false) (hcloned : Proxy.cloned action = none)
    (hsequence : next.sequence = pump.sequence) (hside : next.side = pump.side)
    (hgone : next.isGone = pump.isGone) (hreason : next.reason = pump.reason)
    (hdropped : dropped action = none) (hfinished : ∀ side, finished side action = none) :
    Books pump next action := by
  refine ⟨hstarts, hcloned, hsequence, hside, fun i => ?_, fun i side => ?_⟩
  · simp [BodyPump.holds, hsequence, hgone, hdropped]
  · simp [BodyPump.writes, hsequence, hside, hreason, hfinished]

theorem isGone_of_reason (h : pump.reason = none) : pump.isGone = false := by
  unfold reason at h
  unfold isGone
  cases hphase : pump.phase <;> simp_all

theorem handOver_books (pump : BodyPump) (frame : Frame) (hreason : pump.reason = none)
    {taken : List Frame} {channel : Option (Channel Frame BodyError)} :
    Books pump ({ pump with taken, channel }.handOver frame) none := by
  have hgone := isGone_of_reason hreason
  refine books_of_same rfl rfl rfl rfl ?_ ?_ rfl fun _ => rfl
  · rw [hgone]
    cases frame <;> rfl
  · rw [hreason]
    cases frame <;> rfl

theorem step_books {event : PumpEvent}
    (h : pump.step interrupted event = some (next, action)) : Books pump next action := by
  cases step_moves h with
  | take frame hphase hreader =>
    refine books_of_same rfl rfl rfl rfl ?_ ?_ rfl fun _ => rfl <;>
      simp [isGone, reason, hphase]
  | drain frame hphase hreader =>
    exact handOver_books pump frame (by simp [reason, hphase])
  | send frame channel channel' hphase hchannel hsend =>
    exact handOver_books pump frame (by simp [reason, hphase])
  | finish reason instant hends hshutdown hrejected =>
    have hreason : pump.reason = none := by
      rcases hends with hphase | ⟨-, frame, hphase⟩ <;> simp [BodyPump.reason, hphase]
    have hgone := isGone_of_reason hreason
    refine ⟨rfl, rfl, rfl, rfl, fun i => ?_, fun i side => ?_⟩
    · have hstill : isGone { pump with phase := .leaving reason } = false := rfl
      simp [BodyPump.holds, hstill, hgone, dropped]
    · have hended : BodyPump.reason { pump with phase := .leaving reason } = some reason := rfl
      simp only [BodyPump.writes, hended, hreason, finished, one]
      by_cases hside : pump.side = side <;> simp [hside]
  | append bytes hphase =>
    refine books_of_same rfl rfl rfl rfl ?_ ?_ rfl fun _ => rfl <;>
      simp [isGone, reason, hphase]
  | leave reason hphase =>
    refine ⟨rfl, rfl, rfl, rfl, fun i => ?_, fun i side => ?_⟩
    · simp [BodyPump.holds, isGone, hphase, dropped, one]
    · simp [BodyPump.writes, BodyPump.reason, finished]
  | receive channel channel' frame hunseen hchannel hreceive =>
    exact books_of_same rfl rfl rfl rfl rfl rfl rfl fun _ => rfl
  | see channel channel' result error hunseen hchannel hreceive hvalues herror =>
    exact books_of_same rfl rfl rfl rfl rfl rfl rfl fun _ => rfl
  | dropReader channel hchannel =>
    exact books_of_same rfl rfl rfl rfl rfl rfl rfl fun _ => rfl

theorem step_used {event : PumpEvent}
    (h : pump.step interrupted event = some (next, action)) {i : CaptureSequence}
    (hused : used action = some i) : pump.sequence = i ∧ 0 < pump.holds i := by
  have hholds : pump.isGone = false → pump.sequence = i →
      pump.sequence = i ∧ 0 < pump.holds i := by
    intro hgone hsequence
    refine ⟨hsequence, ?_⟩
    rw [BodyPump.holds, if_pos ⟨hsequence, hgone⟩]
    exact Nat.one_pos
  cases step_moves h with
  | take frame hphase hreader => cases hused
  | drain frame hphase hreader => cases hused
  | send frame channel channel' hphase hchannel hsend => cases hused
  | finish reason instant hends hshutdown hrejected =>
    refine hholds ?_ (Option.some.inj hused)
    rcases hends with hphase | ⟨-, frame, hphase⟩ <;> simp [isGone, hphase]
  | append bytes hphase => exact hholds (by simp [isGone, hphase]) (Option.some.inj hused)
  | leave reason hphase => exact hholds (by simp [isGone, hphase]) (Option.some.inj hused)
  | receive channel channel' frame hunseen hchannel hreceive => cases hused
  | see channel channel' result error hunseen hchannel hreceive hvalues herror => cases hused
  | dropReader channel hchannel => cases hused

theorem step_ofViewer {event : PumpEvent} (h : pump.step interrupted event = some (next, action))
    (a : CaptureAction) (ha : action = some a) : ofViewer a = false := by
  cases step_moves h with
  | finish reason instant hends hshutdown hrejected =>
    cases ha
    rfl
  | append bytes hphase =>
    cases ha
    rfl
  | leave reason hphase =>
    cases ha
    rfl
  | take frame hphase hreader => cases ha
  | drain frame hphase hreader => cases ha
  | send frame channel channel' hphase hchannel hsend => cases ha
  | receive channel channel' frame hunseen hchannel hreceive => cases ha
  | see channel channel' result error hunseen hchannel hreceive hvalues herror => cases ha
  | dropReader channel hchannel => cases ha

end BodyPump

/-! ## The captures -/

variable {env : Environment} {globs : Globset}

/-- How many handles there are, whether the capture exists or not. -/
def handles (captures : CaptureSystem) (i : CaptureSequence) : Nat :=
  (captures.cells[i]?).elim 0 CaptureCell.handles

def handlesAt (holds : List (Nat × ExchangeLifecycle)) (i : CaptureSequence) : Nat :=
  (holds[i]?).elim 0 Prod.fst

theorem handles_eq (captures : CaptureSystem) (i : CaptureSequence) :
    handles captures i = handlesAt captures.held.2 i := by
  unfold handles handlesAt CaptureSystem.held
  rw [List.getElem?_map]
  cases captures.cells[i]? <;> rfl

theorem handlesAt_of_ge {holds : List (Nat × ExchangeLifecycle)} {i : CaptureSequence}
    (h : holds.length ≤ i) : handlesAt holds i = 0 := by
  unfold handlesAt
  rw [List.getElem?_eq_none h]
  rfl

theorem handlesAt_set {holds : List (Nat × ExchangeLifecycle)} {j : CaptureSequence}
    {handles : Nat} {lifecycle : ExchangeLifecycle} (hget : holds[j]? = some (handles, lifecycle))
    (hold : Nat × ExchangeLifecycle) (i : CaptureSequence) :
    handlesAt (holds.set j hold) i = if j = i then hold.1 else handlesAt holds i := by
  unfold handlesAt
  rw [getElem?_set_of_some hget]
  split <;> rfl

theorem handles_of_ge {captures : CaptureSystem} {i : CaptureSequence}
    (h : captures.cells.length ≤ i) : handles captures i = 0 := by
  unfold handles
  rw [List.getElem?_eq_none h]
  rfl

/-- What a step does to the number of handles of each capture, the new one aside. -/
structure HandlesMove (before after : List (Nat × ExchangeLifecycle)) (action : CaptureAction) :
    Prop where
  old : ∀ i, i < before.length → handlesAt after i + one (dropped (some action)) i =
    handlesAt before i + one (cloned (some action)) i
  known : ∀ i, dropped (some action) = some i ∨ cloned (some action) = some i →
    i < before.length
  new : handlesAt after before.length ≤ 1
  length : after.length = before.length ∨
    (starts (some action) = true ∧ after.length = before.length + 1)

theorem lt_of_get {α : Type*} {list : List α} {i : Nat} {a : α} (h : list[i]? = some a) :
    i < list.length :=
  (List.getElem?_eq_some_iff.1 h).1

theorem handlesMove_push {holds : List (Nat × ExchangeLifecycle)} {action : CaptureAction}
    {handles : Nat} {lifecycle : ExchangeLifecycle} (hstarts : starts (some action) = true)
    (hhandles : handles ≤ 1) : HandlesMove holds (holds ++ [(handles, lifecycle)]) action := by
  have hnone : cloned (some action) = none ∧ dropped (some action) = none := by
    cases action <;> first | exact ⟨rfl, rfl⟩ | cases hstarts
  refine ⟨fun i hi => ?_, fun i h => ?_, ?_, .inr ⟨hstarts, List.length_append⟩⟩
  · rw [hnone.1, hnone.2, handlesAt, List.getElem?_append_left hi]
    rfl
  · rw [hnone.1, hnone.2] at h
    rcases h with h | h <;> cases h
  · rw [handlesAt, List.getElem?_concat_length]
    exact hhandles

theorem handlesMove_of_holds {permits : Nat} {holds : List (Nat × ExchangeLifecycle)}
    {action : CaptureAction} {next : Nat × List (Nat × ExchangeLifecycle)}
    (h : CaptureSystem.Holds permits holds action next) : HandlesMove holds next.2 action := by
  have hset : ∀ {j handles : Nat} {lifecycle : ExchangeLifecycle}
      (hold : Nat × ExchangeLifecycle), holds[j]? = some (handles, lifecycle) →
      (∀ i, dropped (some action) = some i ∨ cloned (some action) = some i → i = j) →
      hold.1 + one (dropped (some action)) j = handles + one (cloned (some action)) j →
      HandlesMove holds (holds.set j hold) action := by
    intro j handles lifecycle hold hget hknown hcount
    have hj := lt_of_get hget
    have hbefore : handlesAt holds j = handles := by
      rw [handlesAt, hget]
      rfl
    refine ⟨fun i _ => ?_, fun i h => hknown i h ▸ hj, ?_, .inl (List.length_set ..)⟩
    · rw [handlesAt_set hget]
      split
      · rename_i hji
        subst hji
        rw [hbefore, hcount]
      · rename_i hji
        have hother : one (dropped (some action)) i = 0 ∧ one (cloned (some action)) i = 0 :=
          ⟨Nat.eq_zero_of_not_pos fun hpos => hji (hknown i (.inl (one_pos.1 hpos))).symm,
            Nat.eq_zero_of_not_pos fun hpos => hji (hknown i (.inr (one_pos.1 hpos))).symm⟩
        rw [hother.1, hother.2]
    · rw [handlesAt_of_ge (by rw [List.length_set])]
      exact Nat.zero_le 1
  cases h with
  | same action hkept =>
    have hnone : cloned (some action) = none ∧ dropped (some action) = none := by
      cases action <;> first | exact ⟨rfl, rfl⟩ | cases hkept
    refine ⟨fun i _ => by rw [hnone.1, hnone.2], fun i h => ?_, ?_, .inl rfl⟩
    · rw [hnone.1, hnone.2] at h
      rcases h with h | h <;> cases h
    · rw [handlesAt_of_ge (Nat.le_refl _)]
      exact Nat.zero_le 1
  | start input startedAt startedMono hpermits => exact handlesMove_push rfl (Nat.le_refl 1)
  | crowded input startedAt startedMono => exact handlesMove_push rfl (Nat.zero_le 1)
  | clone i handles lifecycle hget hhandles =>
    refine hset _ hget (fun j h => ?_) (by simp [dropped, cloned, one])
    rcases h with h | h <;> cases h
    rfl
  | drop i handles lifecycle hget hhandles =>
    refine hset _ hget (fun j h => ?_) ?_
    · rcases h with h | h <;> cases h
      rfl
    · unfold CaptureSystem.dropOne
      split
      · rename_i hlast
        simp only [Bool.and_eq_true, decide_eq_true_eq] at hlast
        simp [dropped, cloned, one, hlast.1]
      · simp only [dropped, cloned, one]
        simp
        omega
  | finish i side terminal instant handles lifecycle hget hhandles =>
    refine hset _ hget (fun j h => ?_) rfl
    rcases h with h | h <;> cases h

theorem length_held (captures : CaptureSystem) :
    captures.held.2.length = captures.cells.length :=
  List.length_map _

theorem startedHandle_eq {before after : CaptureSystem} {i : Nat} :
    ProxySystem.startedHandle before after = some i ↔
      i = before.cells.length ∧ 0 < handles after i := by
  unfold ProxySystem.startedHandle handles
  cases hcell : after.cells[before.cells.length]? with
  | none =>
    refine ⟨fun h => (by cases h), ?_⟩
    rintro ⟨rfl, hpos⟩
    rw [hcell] at hpos
    cases hpos
  | some cell =>
    rw [Option.bind_some]
    constructor
    · intro h
      obtain ⟨hpos, h⟩ := Option.ite_none_right_eq_some.1 h
      cases h
      refine ⟨rfl, ?_⟩
      rw [hcell]
      exact hpos
    · rintro ⟨rfl, hpos⟩
      rw [hcell] at hpos
      exact if_pos hpos

/-- The handles of all captures, with the one that `try_start` returned. -/
theorem handles_step {before after : CaptureSystem} {action : CaptureAction}
    (h : before.step action = some after) (i : Nat) :
    handles after i + one (dropped (some action)) i = handles before i +
      one (cloned (some action)) i + one (ProxySystem.startedHandle before after) i := by
  have hmove := handlesMove_of_holds (CaptureSystem.held_step h)
  have hbefore := length_held before
  by_cases hi : i < before.cells.length
  · have hnot : one (ProxySystem.startedHandle before after) i = 0 := by
      refine Nat.eq_zero_of_not_pos fun hpos => ?_
      have heq := (startedHandle_eq.1 (one_pos.1 hpos)).1
      omega
    rw [handles_eq, handles_eq, hmove.old i (hbefore ▸ hi), hnot]
    rfl
  · have hother : one (dropped (some action)) i = 0 ∧ one (cloned (some action)) i = 0 :=
      ⟨Nat.eq_zero_of_not_pos fun hpos =>
          hi (hbefore ▸ hmove.known i (.inl (one_pos.1 hpos))),
        Nat.eq_zero_of_not_pos fun hpos =>
          hi (hbefore ▸ hmove.known i (.inr (one_pos.1 hpos)))⟩
    have hzero : handles before i = 0 := by
      rw [handles_eq, handlesAt_of_ge (by omega)]
    rw [hother.1, hother.2, hzero, Nat.add_zero, Nat.zero_add]
    by_cases hpos : 0 < handles after i
    · have hlength : i = before.cells.length := by
        by_contra hne
        rw [handles_eq, handlesAt_of_ge (by rcases hmove.length with h | ⟨-, h⟩ <;> omega)] at hpos
        cases hpos
      rw [startedHandle_eq.2 ⟨hlength, hpos⟩]
      have hnew := hmove.new
      rw [hbefore, ← hlength, ← handles_eq] at hnew
      simp only [one]
      simp
      omega
    · have hnot : one (ProxySystem.startedHandle before after) i = 0 := by
        refine Nat.eq_zero_of_not_pos fun hone => hpos ?_
        exact (startedHandle_eq.1 (one_pos.1 hone)).2
      rw [hnot]
      omega

theorem length_step {before after : CaptureSystem} {action : CaptureAction}
    (h : before.step action = some after) : before.cells.length ≤ after.cells.length := by
  have hmove := handlesMove_of_holds (CaptureSystem.held_step h)
  rw [← length_held before, ← length_held after]
  rcases hmove.length with h | ⟨-, h⟩ <;> omega

/-- Only `try_start` returns a handle. -/
theorem startedHandle_none {before after : CaptureSystem} {action : CaptureAction}
    (h : before.step action = some after) (hstarts : starts (some action) = false) :
    ProxySystem.startedHandle before after = none := by
  by_contra hsome
  obtain ⟨i, hi⟩ := Option.ne_none_iff_exists'.1 hsome
  obtain ⟨rfl, hpos⟩ := startedHandle_eq.1 hi
  have hmove := handlesMove_of_holds (CaptureSystem.held_step h)
  rcases hmove.length with hlength | ⟨hstarts', -⟩
  · rw [handles_eq, handlesAt_of_ge (by rw [hlength, length_held])] at hpos
    cases hpos
  · rw [hstarts] at hstarts'
    cases hstarts'

/-- A handle operation is possible as long as there is a handle. -/
theorem perform_enabled (captures : CaptureSystem) {action : Option CaptureAction}
    (hviewer : ∀ a, action = some a → ofViewer a = false)
    (hused : ∀ i, used action = some i → 0 < handles captures i) :
    ∃ after, ProxySystem.perform captures action = some after := by
  have hact : ∀ {a : CaptureAction} {i : CaptureSequence} {f : CaptureCell → CaptureSystem},
      0 < handles captures i → (captures.act a = captures.cells[i]?.bind fun cell =>
        if 0 < cell.handles then some (f cell) else none) →
      ∃ after, captures.step a = some after := by
    intro a i f hpos heq
    unfold handles at hpos
    cases hcell : captures.cells[i]? with
    | none =>
      rw [hcell] at hpos
      cases hpos
    | some cell =>
      rw [hcell] at hpos
      have hpos : 0 < cell.handles := hpos
      refine ⟨(f cell).reap, ?_⟩
      unfold CaptureSystem.step
      rw [heq, hcell, Option.bind_some, if_pos hpos]
      rfl
  cases action with
  | none => exact ⟨captures, rfl⟩
  | some action =>
    have hviewer := hviewer action rfl
    have hpos := fun i h => hused i h
    cases action with
    | tryStart input startedAt startedMono => exact ⟨_, rfl⟩
    | cloneHandle i => exact hact (hpos i rfl) rfl
    | dropHandle i => exact hact (hpos i rfl) rfl
    | setResponse i input instant => exact hact (hpos i rfl) rfl
    | append i side bytes => exact hact (hpos i rfl) rfl
    | finish i side terminal instant => exact hact (hpos i rfl) rfl
    | _ => cases hviewer

/-! ## The system -/

namespace ProxySystem

variable {authorities : Authorities} {s t : ProxySystem env globs} {label : ProxyLabel env globs}
  {action : Option CaptureAction}

/-- The handles that handlers and pumps hold. -/
def holders (s : ProxySystem env globs) (i : CaptureSequence) : Nat :=
  total (LogHandler.holds i) s.handlers + total (BodyPump.holds i) s.pumps

def claims (s : ProxySystem env globs) (i : CaptureSequence) (side : BodySide) : Nat :=
  total (LogHandler.claims i side) s.handlers + total (BodyPump.claims i side) s.pumps

def writers (s : ProxySystem env globs) (i : CaptureSequence) (side : BodySide) : Nat :=
  total (LogHandler.writes i side) s.handlers + total (BodyPump.writes i side) s.pumps

/-- All that a step can do, and what it does to the captures. -/
inductive Change (authorities : Authorities) (s : ProxySystem env globs) :
    Option CaptureAction → ProxySystem env globs → Prop
  | clone : Change authorities s none { s with handlers := s.handlers ++ [{}] }
  | handler (h : Nat) (handler : LogHandler env globs) (event : HandlerEvent env)
      (move : HandlerMove env globs) (captures : CaptureSystem)
      (hget : s.handlers[h]? = some handler)
      (hmove : handler.step authorities s.policy s.recording event = some move)
      (hperform : perform s.captures move.action = some captures) :
      Change authorities s move.action { s with
        captures
        handlers := s.handlers.set h (move.next (startedHandle s.captures captures))
        pumps := s.pumps ++ move.pump.toList
        arrived := s.arrived ++ arriving s.policy event
        forwarded := s.forwarded ++ move.forwarded.toList }
  | pump (p : Nat) (pump next : BodyPump) (event : PumpEvent) (action : Option CaptureAction)
      (captures : CaptureSystem) (hget : s.pumps[p]? = some pump)
      (hmove : pump.step s.interrupted event = some (next, action))
      (hperform : perform s.captures action = some captures) :
      Change authorities s action { s with captures, pumps := s.pumps.set p next }
  | view (action : CaptureAction) (captures : CaptureSystem) (hviewer : ofViewer action = true)
      (hstep : s.captures.step action = some captures) :
      Change authorities s (some action) { s with captures }
  | interrupt : Change authorities s none { s with interrupted := true }
  | setRecording (enabled : Bool) : Change authorities s none { s with recording := enabled }
  | replacePolicy (policy : RequestPolicy globs) :
      Change authorities s none { s with policy, installed := s.installed ++ [policy] }

/-- What a step does to the captures. -/
def performed (authorities : Authorities) (s : ProxySystem env globs) :
    ProxyLabel env globs → Option CaptureAction
  | .handler h event =>
    s.handlers[h]?.bind fun handler =>
      (handler.step authorities s.policy s.recording event).bind fun move => move.action
  | .pump p event => s.pumps[p]?.bind fun pump => (pump.step s.interrupted event).bind Prod.snd
  | .view action => some action
  | .clone | .interrupt | .setRecording _ | .replacePolicy _ => none

theorem step_performed (h : s.step authorities label = some t) :
    Change authorities s (s.performed authorities label) t := by
  cases label with
  | clone =>
    cases h
    exact .clone
  | handler k event =>
    obtain ⟨handler, hget, h⟩ := Option.bind_eq_some_iff.1 h
    obtain ⟨move, hmove, h⟩ := Option.bind_eq_some_iff.1 h
    obtain ⟨captures, hperform, h⟩ := Option.bind_eq_some_iff.1 h
    cases h
    rw [performed, hget, Option.bind_some, hmove, Option.bind_some]
    exact .handler k handler event move captures hget hmove hperform
  | pump p event =>
    obtain ⟨pump, hget, h⟩ := Option.bind_eq_some_iff.1 h
    obtain ⟨⟨next, action⟩, hmove, h⟩ := Option.bind_eq_some_iff.1 h
    obtain ⟨captures, hperform, h⟩ := Option.bind_eq_some_iff.1 h
    cases h
    rw [performed, hget, Option.bind_some, hmove, Option.bind_some]
    exact .pump p pump next event action captures hget hmove hperform
  | view action =>
    obtain ⟨hviewer, h⟩ := Option.ite_none_right_eq_some.1 h
    obtain ⟨captures, hstep, rfl⟩ := Option.map_eq_some_iff.1 h
    exact .view action captures hviewer hstep
  | interrupt =>
    cases h
    exact .interrupt
  | setRecording enabled =>
    cases h
    exact .setRecording enabled
  | replacePolicy policy =>
    cases h
    exact .replacePolicy policy

theorem step_change (h : s.step authorities label = some t) :
    ∃ action, Change authorities s action t := ⟨_, step_performed h⟩

/-- The counts before and after a step. -/
structure Books (s t : ProxySystem env globs) (action : Option CaptureAction) : Prop where
  perform : perform s.captures action = some t.captures
  holds : ∀ i, t.holders i + one (dropped action) i = s.holders i + one (cloned action) i +
    one (startedHandle s.captures t.captures) i
  claims : ∀ i side,
    t.claims i side ≤ s.claims i side + one (startedHandle s.captures t.captures) i
  writers : ∀ i side, t.writers i side + one (finished side action) i ≤
    s.writers i side + one (startedHandle s.captures t.captures) i

theorem startedHandle_same (captures : CaptureSystem) : startedHandle captures captures = none := by
  by_contra hsome
  obtain ⟨i, hi⟩ := Option.ne_none_iff_exists'.1 hsome
  obtain ⟨rfl, hpos⟩ := startedHandle_eq.1 hi
  unfold handles at hpos
  rw [List.getElem?_eq_none (Nat.le_refl _)] at hpos
  cases hpos

theorem startedHandle_perform {captures after : CaptureSystem}
    (hperform : ProxySystem.perform captures action = some after)
    (hstarts : starts action = false) : startedHandle captures after = none := by
  cases action with
  | none =>
    cases hperform
    exact startedHandle_same captures
  | some action => exact startedHandle_none hperform hstarts

theorem Change.books (h : Change authorities s action t) : Books s t action := by
  -- Whatever leaves the handlers and the pumps alone has no handles to do with.
  have hquiet : ∀ {u : ProxySystem env globs} {action : Option CaptureAction},
      ProxySystem.perform s.captures action = some u.captures → u.handlers = s.handlers →
      u.pumps = s.pumps → starts action = false → cloned action = none → dropped action = none →
      (∀ side, finished side action = none) → Books s u action := by
    intro u action hperform hhandlers hpumps hstarts hcloned hdropped hfinished
    refine ⟨hperform, fun i => ?_, fun i side => ?_, fun i side => ?_⟩ <;>
      simp [holders, ProxySystem.claims, ProxySystem.writers, hhandlers, hpumps, hcloned, hdropped,
        hfinished, startedHandle_perform hperform hstarts]
  cases h with
  | clone =>
    refine ⟨rfl, fun i => ?_, fun i side => ?_, fun i side => ?_⟩
    · simp [holders, startedHandle_same, LogHandler.holds, HandlerPhase.handle, cloned, dropped]
    · cases side <;> simp [ProxySystem.claims, startedHandle_same, LogHandler.claims,
        LogHandler.holds, HandlerPhase.handle, HandlerPhase.unspawned]
    · cases side <;> simp [ProxySystem.writers, startedHandle_same, LogHandler.writes,
        HandlerPhase.handle, HandlerPhase.unspawned, HandlerPhase.unanswered, finished]
  | handler k handler event move captures hget hmove hperform =>
    have hbooks := (LogHandler.step_moves hmove).books (startedHandle s.captures captures)
      (startedHandle_perform hperform)
    refine ⟨hperform, fun i => ?_, fun i side => ?_, fun i side => ?_⟩
    · have hmine := hbooks.holds i
      have hall := total_set hget (LogHandler.holds i)
        (move.next (startedHandle s.captures captures))
      simp only [holders, total_append]
      omega
    · have hmine := hbooks.claims i side
      have hall := total_set hget (LogHandler.claims i side)
        (move.next (startedHandle s.captures captures))
      simp only [ProxySystem.claims, total_append]
      omega
    · have hmine := hbooks.writes i side
      have hall := total_set hget (LogHandler.writes i side)
        (move.next (startedHandle s.captures captures))
      simp only [ProxySystem.writers, total_append]
      omega
  | pump p pump next event action captures hget hmove hperform =>
    have hbooks := BodyPump.step_books hmove
    have hnone := startedHandle_perform hperform hbooks.starts
    refine ⟨hperform, fun i => ?_, fun i side => ?_, fun i side => ?_⟩
    · have hmine := hbooks.holds i
      have hall := total_set hget (BodyPump.holds i) next
      simp only [holders, hnone, hbooks.cloned, one_none]
      omega
    · have hmine := hbooks.claims i side
      have hall := total_set hget (BodyPump.claims i side) next
      simp only [ProxySystem.claims, hnone, one_none]
      omega
    · have hmine := hbooks.writes i side
      have hall := total_set hget (BodyPump.writes i side) next
      simp only [ProxySystem.writers, hnone, one_none]
      omega
  | view action captures hviewer hstep =>
    have hnone : starts (some action) = false ∧ cloned (some action) = none ∧
        dropped (some action) = none ∧ ∀ side, finished side (some action) = none := by
      cases action <;> first | exact ⟨rfl, rfl, rfl, fun _ => rfl⟩ | cases hviewer
    exact hquiet hstep rfl rfl hnone.1 hnone.2.1 hnone.2.2.1 hnone.2.2.2
  | interrupt => exact hquiet rfl rfl rfl rfl rfl rfl fun _ => rfl
  | setRecording enabled => exact hquiet rfl rfl rfl rfl rfl rfl fun _ => rfl
  | replacePolicy policy => exact hquiet rfl rfl rfl rfl rfl rfl fun _ => rfl

/-- Every handle is held somewhere, and a side of a capture has one owner at most. -/
structure Owned (s : ProxySystem env globs) : Prop where
  handles : ∀ i, handles s.captures i = s.holders i
  claims : ∀ i side, s.claims i side ≤ 1
  fresh : ∀ i side, s.captures.cells.length ≤ i → s.claims i side = 0

theorem owned_new (policy : CapturePolicy) (retention : CaptureRetentionPolicy)
    (requests : RequestPolicy globs) :
    (new policy retention requests : ProxySystem env globs).Owned := by
  have hclaims : ∀ i side,
      (new policy retention requests : ProxySystem env globs).claims i side = 0 := by
    intro i side
    cases side <;> rfl
  exact ⟨fun i => handles_of_ge (Nat.zero_le i),
    fun i side => (hclaims i side).le.trans (Nat.zero_le 1), fun i side _ => hclaims i side⟩

theorem Books.handles (h : Books s t action) (i : CaptureSequence) :
    handles t.captures i + one (dropped action) i = handles s.captures i +
      one (cloned action) i + one (startedHandle s.captures t.captures) i := by
  have hperform := h.perform
  cases action with
  | none =>
    have heq : s.captures = t.captures := Option.some.inj hperform
    rw [← heq, startedHandle_same]
    rfl
  | some action => exact handles_step hperform i

theorem Books.length (h : Books s t action) :
    s.captures.cells.length ≤ t.captures.cells.length := by
  have hperform := h.perform
  cases action with
  | none => exact (congrArg (fun captures => captures.cells.length) (Option.some.inj hperform)).le
  | some action => exact length_step hperform

theorem one_le (capture : Option CaptureSequence) (i : CaptureSequence) : one capture i ≤ 1 := by
  unfold one
  split <;> simp

/-- A capture that is started is there afterwards. -/
theorem started_lt {before after : CaptureSystem} {i : Nat} (hi : after.cells.length ≤ i) :
    one (startedHandle before after) i = 0 := by
  refine Nat.eq_zero_of_not_pos fun hstarted => ?_
  have hpos := (startedHandle_eq.1 (one_pos.1 hstarted)).2
  rw [handles_of_ge hi] at hpos
  cases hpos

theorem Owned.change (h : s.Owned) (hbooks : Books s t action) : t.Owned := by
  refine ⟨fun i => ?_, fun i side => ?_, fun i side hi => ?_⟩
  · have hhandles := hbooks.handles i
    have hholds := hbooks.holds i
    have hbefore := h.handles i
    omega
  · have hclaims := hbooks.claims i side
    by_cases hstarted : 0 < one (startedHandle s.captures t.captures) i
    · obtain ⟨rfl, -⟩ := startedHandle_eq.1 (one_pos.1 hstarted)
      have hfresh := h.fresh _ side (Nat.le_refl _)
      have hle := one_le (startedHandle s.captures t.captures) s.captures.cells.length
      omega
    · have hbefore := h.claims i side
      omega
  · have hclaims := hbooks.claims i side
    have hfresh := h.fresh i side (hbooks.length.trans hi)
    have hnot : one (startedHandle s.captures t.captures) i = 0 := started_lt hi
    omega

end ProxySystem

end Fluxcope.Proxy
