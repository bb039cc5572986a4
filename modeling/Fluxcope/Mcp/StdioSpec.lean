import Fluxcope.Mcp.StdioPermits
/-!
# No request without a permit, and no permit given back twice
-/

namespace Fluxcope.Mcp

open Fluxcope.Library Semaphore

variable {ι β : Type}

namespace StdioSession

variable {session next : StdioSession ι β} {limit : Nat}

/-! ## When a permit comes back -/

/-- Where the permit of a dispatched request is, told from what has happened to the request. -/
def PermitFate (session : StdioSession ι β) (request : Dispatched ι) : Prop :=
  match request.response with
  | .sent index => ∃ write, session.writes[index]? = some write ∧
      ((write.permit = some request.permit ∧
        (request.permit ∈ session.tracker.admission.released ↔ write.finished = true)) ∨
      (write.permit = none ∧ request.permit ∈ session.tracker.admission.released))
  | .unsent | .suppressed =>
    request.permit ∈ session.tracker.admission.released ↔
      (request.cancelled = true ∧ request.handlerDone = true) ∨ session.closed = true

theorem Permits.permits_nodup (h : Permits limit session) :
    (session.dispatched.map Dispatched.permit ++ session.phase.permits).Nodup := by
  rw [h.acquired]
  exact List.nodup_range

theorem Permits.unique (h : Permits limit session) {request other : Dispatched ι}
    (hrequest : request ∈ session.dispatched) (hother : other ∈ session.dispatched)
    (hpermit : request.permit = other.permit) : request = other :=
  List.inj_on_of_nodup_map h.permits_nodup.of_append_left hrequest hother hpermit

/-- Whether the response of the request is being written with the permit of the request. -/
def Writes (session : StdioSession ι β) (request : Dispatched ι) : Prop :=
  ∃ index, request.response = .sent index ∧
    session.writes[index]? = some ⟨some request.permit, false⟩

theorem Permits.mem_permits (h : Permits limit session) {request : Dispatched ι}
    (hrequest : request ∈ session.dispatched) :
    request.permit ∈ session.tracker.permits ↔
      session.closed = false ∧ request.waiting = true := by
  unfold ResponseTracker.permits
  rw [h.pending]
  cases session.closed with
  | true => simp
  | false =>
    simp only [Bool.false_eq_true, if_false, List.mem_map, true_and]
    constructor
    · rintro ⟨pair, hpair, hpermit⟩
      obtain ⟨other, hother, hwaiting, rfl⟩ := mem_tracked.1 hpair
      rw [h.unique hrequest hother hpermit.symm]
      exact hwaiting
    · intro hwaiting
      exact ⟨_, mem_tracked.2 ⟨request, hrequest, hwaiting, rfl⟩, rfl⟩

theorem Permits.mem_writing (h : Permits limit session) {request : Dispatched ι}
    (hrequest : request ∈ session.dispatched) :
    request.permit ∈ writing session.writes ↔ session.Writes request := by
  constructor
  · intro hmem
    obtain ⟨write, hwrite, hheld⟩ := List.mem_filterMap.1 hmem
    split at hheld
    case isTrue => cases hheld
    case isFalse hfinished =>
        obtain ⟨index, hindex⟩ := List.mem_iff_getElem?.1 hwrite
        obtain ⟨other, hother, hanswer⟩ :=
          List.mem_map.1 (h.linked.wrote index write request.permit hindex hheld)
        cases hanswer' : other.response <;> rw [hanswer'] at hanswer <;> injection hanswer with
          hpermit hresponse <;> cases hresponse
        obtain rfl := h.unique hother hrequest hpermit
        refine ⟨_, hanswer', ?_⟩
        rw [hindex, ← hheld, ← Bool.eq_false_iff.2 hfinished]
  · rintro ⟨index, -, hwrite⟩
    exact List.mem_filterMap.2 ⟨_, List.mem_of_getElem? hwrite, rfl⟩

/-- The permit of a request is back once the tracker and the writes are done with it. -/
theorem Permits.released_iff (h : Permits limit session) {request : Dispatched ι}
    (hrequest : request ∈ session.dispatched) :
    request.permit ∈ session.tracker.admission.released ↔
      ¬ (session.closed = false ∧ request.waiting = true) ∧ ¬ session.Writes request := by
  rw [← h.mem_permits hrequest, ← h.mem_writing hrequest]
  have hdispatched : request.permit ∈ session.dispatched.map Dispatched.permit :=
    List.mem_map_of_mem hrequest
  constructor
  · intro hreleased
    have hheld := h.accounts.not_released.mt (not_not_intro hreleased)
    simp only [List.mem_append, not_or] at hheld
    exact ⟨hheld.1, hheld.2.1⟩
  · rintro ⟨htracked, hwriting⟩
    have hacquired : request.permit < session.tracker.admission.acquired := by
      rw [← List.mem_range, ← h.acquired]
      exact List.mem_append_left _ hdispatched
    refine (h.accounts.released_or_held hacquired).resolve_right ?_
    simp only [List.mem_append, not_or]
    exact ⟨htracked, hwriting, fun hphase =>
      (List.nodup_append.1 h.permits_nodup).2.2 _ hdispatched _ hphase rfl⟩

theorem Permits.fate (h : Permits limit session) {request : Dispatched ι}
    (hrequest : request ∈ session.dispatched) : session.PermitFate request := by
  have hreleased := h.released_iff hrequest
  unfold Writes at hreleased
  unfold PermitFate
  cases hresponse : request.response with
  | sent index =>
    have hwaiting : request.waiting = false := by simp [Dispatched.waiting, hresponse]
    obtain ⟨write, hwrite, hpermit⟩ := h.linked.sent request.permit index
      (List.mem_map.2 ⟨request, hrequest, by rw [hresponse]⟩)
    refine ⟨write, hwrite, ?_⟩
    rw [hreleased]
    obtain ⟨permit, finished⟩ := write
    rcases hpermit with rfl | rfl
    · exact .inr ⟨rfl, by simp [hwaiting], by simp [hresponse, hwrite]⟩
    · exact .inl ⟨rfl, by simp [hwaiting, hresponse, hwrite]⟩
  | unsent => simp [hreleased, hresponse, Dispatched.waiting, or_comm, Decidable.imp_iff_not_or]
  | suppressed => simp [hreleased, hresponse, Dispatched.waiting, or_comm, Decidable.imp_iff_not_or]

/-! ## Runs -/

/-- What holds of the transport between two steps. -/
structure Admitted (limit : Nat) (session : StdioSession ι β) : Prop where
  /-- Tracked requests and the responses being written under a permit stay within the limit. -/
  bounded : session.tracker.pending.length + (writing session.writes).length ≤ limit
  /-- Every permit is free, of a tracked request, of a write or in the hands of `receive`. -/
  total : session.tracker.admission.available + session.tracker.pending.length +
    (writing session.writes).length + session.phase.permits.length = limit
  /-- No permit is given back twice. -/
  once : session.tracker.admission.released.Nodup
  fate : ∀ request ∈ session.dispatched, session.PermitFate request
  /-- A request that is neither answered nor both cancelled and handled keeps its permit. -/
  kept : session.closed = false → ∀ request ∈ session.dispatched, request.waiting = true →
    (request.id, ⟨request.permit, request.cancelled, request.handlerDone⟩) ∈
      session.tracker.pending
  messages : session.arrived.Perm (session.delivered ++ session.withheld ++ session.inbox)
  withheld : session.ended = false → ∀ message ∈ session.withheld,
    ∃ id body note, message = .request id body ∧ .cancelled (some id) note ∈ session.delivered

structure Sound (limit : Nat) (session : StdioSession ι β) : Prop where
  receiving : session.Receiving
  permits : Permits limit session
  messages : session.arrived.Perm (session.delivered ++ session.withheld ++ session.inbox)
  withheld : session.ended = false → ∀ message ∈ session.withheld,
    ∃ id body note, message = .request id body ∧ .cancelled (some id) note ∈ session.delivered

theorem sound_init (limit : Nat) : Sound limit (init limit : StdioSession ι β) where
  receiving := .of_idle rfl nofun nofun
  permits := permits_init limit
  messages := .refl _
  withheld := fun _ => nofun

theorem Sound.admitted (h : Sound limit session) : Admitted limit session := by
  have haccounts := h.permits.accounts
  have htotal := haccounts.total
  have hlength : session.tracker.permits.length = session.tracker.pending.length :=
    List.length_map _
  simp only [List.length_append, hlength] at htotal
  refine ⟨by omega, by omega, haccounts.nodup.of_append_left, fun _ => h.permits.fate, ?_,
    h.messages, h.withheld⟩
  intro hopen request hrequest hwaiting
  rw [h.permits.pending, hopen]
  exact mem_tracked.2 ⟨request, hrequest, hwaiting, rfl⟩

section Step

variable [DecidableEq ι]

/-- What every step does. -/
structure AdmittedStep (session next : StdioSession ι β) (event : StdioEvent ι β) : Prop where
  moves : ∃ new out lost, Moves session next new out lost
  /-- A request goes to the service together with a permit. -/
  admitted : ∀ id body, next.delivered = session.delivered ++ [.request id body] →
    ∃ permit, (id, ⟨permit, false, false⟩) ∈ next.tracker.pending ∧
      permit ∉ next.tracker.admission.released
  /-- A response is written under the permit of its request if that is still tracked. -/
  answered : ∀ index item, event = .send index item →
    ∃ request, session.dispatched[index]? = some request ∧
      next.writes = session.writes ++ [⟨if session.closed = false ∧ request.waiting = true then
        some request.permit else none, false⟩]

theorem ended_mono {event : StdioEvent ι β} (hreceiving : session.Receiving)
    (h : session.step event = some next) (hended : next.ended = false) :
    session.ended = false := by
  have hopen := hreceiving.not_ended
  cases event with
  | arrive message =>
    obtain ⟨-, h⟩ := Option.ite_none_right_eq_some.1 h
    cases h
    exact hended
  | disconnect =>
    cases h
    exact hended
  | poll => exact (Option.ite_none_right_eq_some.1 h).1.2
  | read => exact hopen (by rw [(read_cases h).1]; nofun)
  | check => exact hopen (by rw [(check_cases h).1]; nofun)
  | tryAcquire =>
    refine hopen ?_
    rcases (acquire_cases (.inl h)).1 with hphase | hphase <;> rw [hphase] <;> nofun
  | acquire =>
    refine hopen ?_
    rcases (acquire_cases (.inr h)).1 with hphase | hphase <;> rw [hphase] <;> nofun
  | track =>
    obtain ⟨permit, id, body, hphase, -⟩ := track_cases h
    exact hopen (by rw [hphase]; nofun)
  | overtake => exact hopen (by rw [(overtake_request hreceiving h).1]; nofun)
  | dropReceive =>
    change session.dropReceive = _ at h
    unfold dropReceive at h
    split at h <;> cases h
    · exact hended
    · exact hended
  | close =>
    obtain ⟨-, h⟩ := Option.ite_none_right_eq_some.1 h
    cases h
    cases hended
  | _ =>
    obtain ⟨tracker, dispatched, writes, rfl⟩ := sdk_step (by trivial) h
    exact hended

/-- Only `track` hands a request to the service. -/
theorem eq_track_of_delivered {event : StdioEvent ι β} (hreceiving : session.Receiving)
    (h : session.step event = some next) {id : ι} {body : β}
    (hdelivered : next.delivered = session.delivered ++ [.request id body]) : event = .track := by
  have hsilent : next.delivered ≠ session.delivered := by
    rw [hdelivered]
    simp
  have hother : ∀ message : Incoming ι β, message.requestId = none →
      next.delivered ≠ session.delivered ++ [message] := by
    intro message hnone heq
    have hmessage := List.append_cancel_left (hdelivered.symm.trans heq)
    cases hmessage
    cases hnone
  cases event with
  | arrive message =>
    obtain ⟨-, h⟩ := Option.ite_none_right_eq_some.1 h
    cases h
    exact absurd rfl hsilent
  | disconnect =>
    cases h
    exact absurd rfl hsilent
  | poll =>
    obtain ⟨-, h⟩ := Option.ite_none_right_eq_some.1 h
    cases h
    exact absurd rfl hsilent
  | read =>
    obtain ⟨-, ⟨message, queue, -, rfl⟩ | rfl⟩ := read_cases h
    · exact absurd rfl hsilent
    · exact absurd rfl hsilent
  | check =>
    obtain ⟨-, message, -, ⟨-, rfl⟩ | ⟨hnone, rfl⟩⟩ := check_cases h
    · exact absurd rfl hsilent
    · obtain ⟨tracker, dispatched, hmark⟩ := markCancelled_eq session message
      rw [hmark] at hother
      exact absurd rfl (hother message hnone)
  | tryAcquire =>
    obtain ⟨-, rfl | ⟨permit, admission, -, rfl⟩⟩ := acquire_cases (.inl h)
    · exact absurd rfl hsilent
    · exact absurd rfl hsilent
  | acquire =>
    obtain ⟨-, rfl | ⟨permit, admission, -, rfl⟩⟩ := acquire_cases (.inr h)
    · exact absurd rfl hsilent
    · exact absurd rfl hsilent
  | track => rfl
  | overtake =>
    obtain ⟨-, _, _, -, ⟨-, rfl⟩ | ⟨_, _, _, -, rfl⟩ | ⟨note, queue, -, rfl⟩ |
      ⟨message, queue, -, hnone, rfl⟩⟩ := overtake_request hreceiving h
    · exact absurd rfl hsilent
    · exact absurd rfl hsilent
    · exact absurd rfl (hother _ rfl)
    · obtain ⟨tracker, dispatched, hmark⟩ := markCancelled_eq { session with queue } message
      rw [hmark] at hother
      exact absurd rfl (hother message hnone)
  | dropReceive =>
    change session.dropReceive = _ at h
    unfold dropReceive at h
    split at h <;> cases h
    · exact absurd rfl hsilent
    · exact absurd rfl hsilent
  | close =>
    obtain ⟨-, h⟩ := Option.ite_none_right_eq_some.1 h
    cases h
    exact absurd rfl hsilent
  | _ =>
    obtain ⟨tracker, dispatched, writes, rfl⟩ := sdk_step (by trivial) h
    exact absurd rfl hsilent

theorem Moves.messages {new out lost : List (Incoming ι β)}
    (hmoves : Moves session next new out lost)
    (h : session.arrived.Perm (session.delivered ++ session.withheld ++ session.inbox)) :
    next.arrived.Perm (next.delivered ++ next.withheld ++ next.inbox) := by
  rw [hmoves.arrived, hmoves.delivered, hmoves.withheld]
  refine (h.append_right new).trans ?_
  rw [List.append_assoc (session.delivered ++ session.withheld)]
  refine (hmoves.conserved.append_left _).trans ?_
  simp only [List.append_assoc]
  exact (List.perm_append_comm_assoc _ _ _).append_left _

theorem sound_step {event : StdioEvent ι β} (h : Sound limit session)
    (hnext : session.step event = some next) : Sound limit next := by
  obtain ⟨⟨new, out, lost, hmoves⟩, hreceiving⟩ := step_moves h.receiving hnext
  refine ⟨hreceiving, step_permits h.permits h.receiving hnext, hmoves.messages h.messages, ?_⟩
  intro hopen message hmessage
  rw [hmoves.withheld] at hmessage
  rw [hmoves.delivered]
  rcases List.mem_append.1 hmessage with hmessage | hmessage
  · obtain ⟨id, body, note, rfl, hnote⟩ := h.withheld (ended_mono h.receiving hnext hopen) message hmessage
    exact ⟨id, body, note, rfl, List.mem_append_left _ hnote⟩
  · rcases hmoves.lost with hended | rfl | ⟨id, body, note, -, rfl, rfl⟩
    · rw [hopen] at hended
      cases hended
    · cases hmessage
    · exact ⟨id, body, note, List.mem_singleton.1 hmessage,
        List.mem_append_right _ (List.mem_singleton.2 rfl)⟩

theorem Sound.admittedStep {event : StdioEvent ι β} (h : Sound limit session)
    (hnext : session.step event = some next) : AdmittedStep session next event := by
  refine ⟨(step_moves h.receiving hnext).1, ?_, ?_⟩
  · intro id body hdelivered
    obtain rfl := eq_track_of_delivered h.receiving hnext hdelivered
    obtain ⟨permit, other, otherBody, -, -, rfl, hpending, hpermits⟩ :=
      h.permits.track h.receiving hnext
    have hsame := List.append_cancel_left hdelivered
    cases hsame
    refine ⟨permit, hpending, hpermits.accounts.not_released (List.mem_append_left _ ?_)⟩
    exact List.mem_map.2 ⟨_, hpending, rfl⟩
  · rintro index item rfl
    obtain ⟨request, hrequest, hnext⟩ := Option.bind_eq_some_iff.1 hnext
    obtain ⟨⟨hunsent, -⟩, hnext⟩ := Option.ite_none_right_eq_some.1 hnext
    cases hnext
    refine ⟨request, hrequest, ?_⟩
    have hover : request.concluded = false := by simp [Dispatched.concluded, hunsent]
    have htaken : (session.tracker.takeForResponse request.id).1 =
        if session.closed = false ∧ request.waiting = true then some request.permit else none := by
      unfold ResponseTracker.takeForResponse
      dsimp only
      rw [h.permits.pending]
      cases session.closed with
      | true => rfl
      | false =>
        rw [if_neg Bool.false_ne_true,
          lookup_tracked h.permits.outstanding_nodup (List.mem_of_getElem? hrequest) hover]
        unfold Dispatched.toEntry
        cases request.waiting <;> rfl
    rw [← htaken]
    rfl

theorem requests_admitted {events : List (StdioEvent ι β)}
    (hrun : run step (init limit) events = some session) :
    Admitted limit session ∧
      ∀ event next, session.step event = some next → AdmittedStep session next event := by
  have hsound : Sound limit session :=
    run_invariant (fun _ _ _ h hstep => sound_step h hstep) (sound_init limit) hrun
  exact ⟨hsound.admitted, fun _ _ hnext => hsound.admittedStep hnext⟩

end Step

/-- The events by which a message arrives and a free transport takes it in. -/
def taking (message : Incoming Nat Unit) : List (StdioEvent Nat Unit) :=
  [.arrive message, .poll, .read, .check]

def admitting (id : Nat) : List (StdioEvent Nat Unit) :=
  taking (.request id ()) ++ [.tryAcquire, .track]

/-- The second request is cancelled in the buffer, the first one is answered. -/
def sampleRun : List (StdioEvent Nat Unit) :=
  admitting 1 ++ taking (.request 2 ()) ++
    [.tryAcquire, .dropReceive, .poll, .check, .tryAcquire,
      .arrive (.cancelled (some 2) ()), .overtake, .handlerDone 0, .send 0 (.response 1 ()), .sent 0]

theorem requests_admitted_sample :
    ∃ session : StdioSession Nat Unit, run step (init 1) sampleRun = some session ∧
      Admitted 1 session ∧
        ∀ event next, session.step event = some next → AdmittedStep session next event := by
  obtain ⟨session, hrun⟩ := Option.isSome_iff_exists.1
    (show (run step (init 1) sampleRun).isSome = true by decide +kernel)
  exact ⟨session, hrun, requests_admitted hrun⟩

/-- The dispatched requests whose responses are being written. -/
def responding (session : StdioSession ι β) : List (Dispatched ι) :=
  session.dispatched.filter fun request =>
    match request.response with
    | .sent index => session.writes[index]?.any fun write => !write.finished
    | .unsent | .suppressed => false

/-- A request that is both cancelled and handled makes room for another one, and its response
is sent all the same. -/
theorem cancelled_response_exceeds_limit :
    ∃ session : StdioSession Nat Unit,
      run step (init 1) (admitting 1 ++ taking (.cancelled (some 1) ()) ++ [.handlerDone 0] ++
        admitting 2 ++ [.send 0 (.response 1 ())]) = some session ∧
      ¬ session.tracker.pending.length + session.responding.length ≤ 1 := by
  have hover : (run step (init 1) (admitting 1 ++ taking (.cancelled (some 1) ()) ++
      [.handlerDone 0] ++ admitting 2 ++ [.send 0 (.response 1 ())])).map
        (fun session => session.tracker.pending.length + session.responding.length) = some 2 := by
    decide +kernel
  obtain ⟨session, hrun, htwo⟩ := Option.map_eq_some_iff.1 hover
  exact ⟨session, hrun, by omega⟩

end StdioSession

end Fluxcope.Mcp
