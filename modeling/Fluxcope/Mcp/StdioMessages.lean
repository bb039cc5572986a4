import Fluxcope.Mcp.StdioTracker
/-!
# What becomes of the messages

A message that has arrived is delivered once, unless it is a request that a
cancellation overtakes in the buffer or the session ends.
-/

namespace Fluxcope.Mcp

open Fluxcope.Library Semaphore

variable {ι β : Type}

/-! ## Messages -/

namespace StdioSession

variable {session next : StdioSession ι β}

/-- Taking a permit, by `try_acquire_owned` or in the `select!`. -/
theorem acquire_cases
    (h : session.tryAcquire = some next ∨ session.acquire = some next) :
    (session.phase = .admitting ∨ session.phase = .waiting) ∧
      (next = { session with phase := .waiting } ∨
      ∃ permit admission, session.tracker.admission.tryAcquire = some (permit, admission) ∧
        next = { session with
          tracker := { session.tracker with admission }, phase := .tracking permit }) := by
  rcases h with h | h
  · unfold tryAcquire at h
    split at h
    case isFalse => cases h
    case isTrue hphase =>
        refine ⟨.inl hphase, ?_⟩
        cases hacquire : session.tracker.admission.tryAcquire with
        | none =>
          rw [hacquire] at h
          cases h
          exact .inl rfl
        | some pair =>
          rw [hacquire] at h
          cases h
          exact .inr ⟨pair.1, pair.2, rfl, rfl⟩
  · unfold acquire at h
    split at h
    case isFalse => cases h
    case isTrue hphase =>
        obtain ⟨⟨permit, admission⟩, hacquire, rfl⟩ := Option.map_eq_some_iff.1 h
        exact ⟨.inr hphase, .inr ⟨permit, admission, hacquire, rfl⟩⟩

theorem read_cases (h : session.read = some next) :
    session.phase = .reading ∧
      ((∃ message queue, session.queue = message :: queue ∧
        next = { session with queue, buffered := some message, phase := .received }) ∨
      next = session.endSession []) := by
  unfold read at h
  split at h
  case isFalse => cases h
  case isTrue hphase =>
      refine ⟨hphase, ?_⟩
      split at h
      case h_1 message queue hqueue =>
          cases h
          exact .inl ⟨message, queue, hqueue, rfl⟩
      case h_2 =>
          split at h <;> cases h
          exact .inr rfl

/-- What the buffer holds where `receive` stands. -/
def BufferFits (session : StdioSession ι β) : Prop :=
  match session.phase with
  | .idle => ∀ message ∈ session.buffered, message.requestId.isSome = true
  | .reading => session.buffered = none
  | .received => session.buffered.isSome = true
  | .admitting | .tracking _ | .waiting =>
    ∃ id body, session.buffered = some (.request id body)

structure Receiving (session : StdioSession ι β) : Prop where
  fits : session.BufferFits
  closed : session.closed = true → session.ended = true
  ended : session.ended = true → session.phase = .idle

theorem Receiving.buffered_of_phase (h : session.Receiving)
    (hphase : session.phase = .admitting ∨ session.phase = .waiting) :
    ∃ id body, session.buffered = some (.request id body) := by
  have hfits := h.fits
  unfold BufferFits at hfits
  rcases hphase with hphase | hphase <;> rw [hphase] at hfits <;> exact hfits

/-- No `receive` is running. -/
theorem Receiving.of_idle (hphase : next.phase = .idle)
    (hbuffered : ∀ message ∈ next.buffered, message.requestId.isSome = true)
    (hclosed : next.closed = true → next.ended = true) : next.Receiving where
  fits := by
    unfold BufferFits
    rw [hphase]
    exact hbuffered
  closed := hclosed
  ended := fun _ => hphase

theorem Receiving.of_open (hended : next.ended = false) (hfits : next.BufferFits)
    (hclosed : next.closed = true → next.ended = true) : next.Receiving where
  fits := hfits
  closed := hclosed
  ended := fun h => by rw [hended] at h; cases h

theorem Receiving.not_ended (h : session.Receiving) (hphase : session.phase ≠ .idle) :
    session.ended = false := by
  by_contra hended
  exact hphase (h.ended (Bool.not_eq_false _ ▸ hended))

section Moves

variable [DecidableEq ι]

/-- What one step does to the messages: `new` arrives, `out` is delivered, `lost` is withheld. -/
structure Moves (session next : StdioSession ι β) (new out lost : List (Incoming ι β)) :
    Prop where
  arrived : next.arrived = session.arrived ++ new
  delivered : next.delivered = session.delivered ++ out
  withheld : next.withheld = session.withheld ++ lost
  conserved : (session.inbox ++ new).Perm (out ++ lost ++ next.inbox)
  fresh : ∀ message ∈ new, session.fresh message = true
  lost : next.ended = true ∨ lost = [] ∨
    ∃ id body note, session.buffered = some (.request id body) ∧ lost = [.request id body] ∧
      out = [.cancelled (some id) note]

/-- Only the tracker and the SDK are told. -/
theorem markCancelled_eq (session : StdioSession ι β) (message : Incoming ι β) :
    ∃ tracker dispatched,
      session.markCancelled message = { session with tracker, dispatched } := by
  unfold markCancelled
  cases cancellationRequestId message with
  | none => exact ⟨_, _, rfl⟩
  | some id => exact ⟨_, _, rfl⟩

theorem Moves.silent (harrived : next.arrived = session.arrived)
    (hdelivered : next.delivered = session.delivered)
    (hwithheld : next.withheld = session.withheld) (hinbox : next.inbox = session.inbox) :
    Moves session next [] [] [] where
  arrived := by rw [harrived, List.append_nil]
  delivered := by rw [hdelivered, List.append_nil]
  withheld := by rw [hwithheld, List.append_nil]
  conserved := by rw [hinbox, List.append_nil]; rfl
  fresh := by simp
  lost := .inr (.inl rfl)

/-- How `inner.receive` can win the `select!` while a request is buffered. -/
theorem overtake_request (hreceiving : session.Receiving) (h : session.overtake = some next) :
    session.phase = .waiting ∧ ∃ id body, session.buffered = some (.request id body) ∧
      ((session.queue = [] ∧ next = session.endSession [.request id body]) ∨
      (∃ other otherBody queue, session.queue = .request other otherBody :: queue ∧
        next = { session with queue }.endSession
          [.request id body, Incoming.request other otherBody]) ∨
      (∃ note queue, session.queue = .cancelled (some id) note :: queue ∧
        next = { { session with queue }.markCancelled (.cancelled (some id) note) with
          buffered := none
          withheld := session.withheld ++ [Incoming.request id body] }.deliver
            (.cancelled (some id) note)) ∨
      ∃ message queue, session.queue = message :: queue ∧ message.requestId = none ∧
        next = StdioSession.deliver
          (markCancelled { session with queue } message) message) := by
  unfold overtake at h
  split at h
  case isFalse => cases h
  case isTrue hphase =>
      obtain ⟨id, body, hbuffered⟩ := hreceiving.buffered_of_phase (.inr hphase)
      refine ⟨hphase, id, body, hbuffered, ?_⟩
      rw [hbuffered] at h ⊢
      split at h
      case h_1 hqueue =>
          split at h
          · cases h
            exact .inl ⟨hqueue, rfl⟩
          · cases h
      case h_2 other otherBody queue hqueue =>
          cases h
          exact .inr (.inl ⟨other, otherBody, queue, hqueue, rfl⟩)
      case h_3 message queue hrequest hqueue =>
          have hnone : message.requestId = none := by
            cases message with
            | request other otherBody => exact absurd rfl (hrequest other otherBody)
            | cancelled requestId note => rfl
            | other note => rfl
          right; right
          cases message with
          | request other otherBody => cases hnone
          | other note =>
            cases h
            exact .inr ⟨.other note, queue, hqueue, rfl, rfl⟩
          | cancelled requestId note =>
            cases requestId with
            | none =>
              cases h
              exact .inr ⟨.cancelled none note, queue, hqueue, rfl, rfl⟩
            | some cancelledId =>
              simp only [Option.bind_some, Incoming.requestId, cancellationRequestId] at h
              split at h
              case isTrue hsame =>
                  subst hsame
                  cases h
                  exact .inl ⟨note, queue, hqueue, rfl⟩
              case isFalse =>
                  cases h
                  exact .inr ⟨.cancelled (some cancelledId) note, queue, hqueue, rfl, rfl⟩

/-- What `receive` does with the message it has just read. -/
theorem check_cases (h : session.check = some next) :
    session.phase = .received ∧ ∃ message, session.buffered = some message ∧
      ((message.requestId.isSome = true ∧ next = { session with phase := .admitting }) ∨
      (message.requestId = none ∧
        next = { session.markCancelled message with buffered := none }.deliver message)) := by
  unfold check at h
  split at h
  case isFalse => cases h
  case isTrue hphase =>
      obtain ⟨message, hmessage, rfl⟩ := Option.map_eq_some_iff.1 h
      refine ⟨hphase, message, hmessage, ?_⟩
      cases message with
      | request id body => exact .inl ⟨rfl, rfl⟩
      | cancelled requestId note => exact .inr ⟨rfl, rfl⟩
      | other note => exact .inr ⟨rfl, rfl⟩

theorem track_cases (h : session.track = some next) :
    ∃ permit id body, session.phase = .tracking permit ∧
      session.buffered = some (.request id body) ∧
      ((∃ tracker, session.tracker.track id permit = (true, tracker) ∧
        next = { session with
          tracker
          buffered := none
          dispatched := session.dispatched ++ [({ id, permit } : Dispatched ι)]
        }.deliver (.request id body)) ∨
      ∃ tracker, session.tracker.track id permit = (false, tracker) ∧
        next = { session with tracker }.endSession [.request id body]) := by
  unfold track at h
  split at h
  case h_2 => cases h
  case h_1 permit id body hphase hbuffered =>
      refine ⟨permit, id, body, hphase, hbuffered, ?_⟩
      split at h
      case h_1 tracker htrack =>
          cases h
          exact .inl ⟨tracker, htrack, rfl⟩
      case h_2 tracker htrack =>
          cases h
          exact .inr ⟨tracker, htrack, rfl⟩

/-- The steps of the SDK leave the messages alone. -/
theorem sdk_step {event : StdioEvent ι β}
    (hevent : match event with
      | .handlerDone _ | .send _ _ | .sendOther _ | .sent _ | .suppress _ => True
      | _ => False)
    (h : session.step event = some next) :
    ∃ tracker dispatched writes, next = { session with tracker, dispatched, writes } := by
  cases event with
  | handlerDone index =>
    obtain ⟨request, -, h⟩ := Option.bind_eq_some_iff.1 h
    split at h <;> cases h
    exact ⟨_, _, _, rfl⟩
  | send index item =>
    obtain ⟨request, -, h⟩ := Option.bind_eq_some_iff.1 h
    split at h <;> cases h
    exact ⟨_, _, _, rfl⟩
  | sendOther item =>
    change session.sendOther item = _ at h
    unfold sendOther at h
    split at h <;> cases h
    exact ⟨_, _, _, rfl⟩
  | sent index =>
    obtain ⟨write, -, h⟩ := Option.bind_eq_some_iff.1 h
    split at h <;> cases h
    exact ⟨_, _, _, rfl⟩
  | suppress index =>
    obtain ⟨request, -, h⟩ := Option.bind_eq_some_iff.1 h
    split at h <;> cases h
    exact ⟨_, _, _, rfl⟩
  | _ => exact hevent.elim

theorem acquire_moves (hreceiving : session.Receiving)
    (h : session.tryAcquire = some next ∨ session.acquire = some next) :
    (∃ new out lost, Moves session next new out lost) ∧ next.Receiving := by
  obtain ⟨hphase, hnext⟩ := acquire_cases h
  have hbuffered := hreceiving.buffered_of_phase hphase
  have hended : session.ended = false := by
    refine hreceiving.not_ended fun hidle => ?_
    rw [hidle] at hphase
    rcases hphase with h | h <;> cases h
  rcases hnext with rfl | ⟨permit, admission, hacquire, rfl⟩
  · exact ⟨⟨[], [], [], .silent rfl rfl rfl rfl⟩, .of_open hended hbuffered hreceiving.closed⟩
  · exact ⟨⟨[], [], [], .silent rfl rfl rfl rfl⟩, .of_open hended hbuffered hreceiving.closed⟩

theorem step_moves {event : StdioEvent ι β} (hreceiving : session.Receiving)
    (h : session.step event = some next) :
    (∃ new out lost, Moves session next new out lost) ∧ next.Receiving := by
  have hfits := hreceiving.fits
  have hclosed := hreceiving.closed
  have hopen := hreceiving.not_ended
  unfold BufferFits at hfits
  cases event with
  | arrive message =>
    obtain ⟨⟨-, hfresh⟩, h⟩ := Option.ite_none_right_eq_some.1 h
    cases h
    refine ⟨⟨[message], [], [], ?_⟩, ⟨hreceiving.fits, hclosed, hreceiving.ended⟩⟩
    refine ⟨rfl, (List.append_nil _).symm, (List.append_nil _).symm, ?_, ?_, .inr (.inl rfl)⟩
    · unfold inbox
      rw [List.append_assoc]
      rfl
    · rintro other hother
      rw [List.mem_singleton.1 hother]
      exact hfresh
  | disconnect =>
    cases h
    exact ⟨⟨[], [], [], .silent rfl rfl rfl rfl⟩,
      ⟨hreceiving.fits, hclosed, hreceiving.ended⟩⟩
  | poll =>
    obtain ⟨⟨hphase, hended⟩, h⟩ := Option.ite_none_right_eq_some.1 h
    cases h
    refine ⟨⟨[], [], [], .silent rfl rfl rfl rfl⟩, .of_open hended ?_ hclosed⟩
    unfold BufferFits
    cases hbuffered : session.buffered <;> simp
  | read =>
    obtain ⟨hphase, ⟨message, queue, hqueue, rfl⟩ | rfl⟩ := read_cases h
    · rw [hphase] at hfits
      refine ⟨⟨[], [], [], .silent rfl rfl rfl ?_⟩,
        .of_open (hopen (by rw [hphase]; exact fun h => by cases h)) rfl hclosed⟩
      unfold inbox
      rw [hfits, hqueue]
      rfl
    · rw [hphase] at hfits
      refine ⟨⟨[], [], [], .silent rfl rfl (List.append_nil _) ?_⟩,
        .of_idle rfl (fun _ h => by cases h) fun _ => rfl⟩
      unfold inbox endSession
      rw [hfits]
  | check =>
    obtain ⟨hphase, message, hbuffered, ⟨hrequest, rfl⟩ | ⟨hnone, rfl⟩⟩ := check_cases h
    · refine ⟨⟨[], [], [], .silent rfl rfl rfl rfl⟩,
        .of_open (hopen (by rw [hphase]; exact fun h => by cases h)) ?_ hclosed⟩
      obtain ⟨id, hid⟩ := Option.isSome_iff_exists.1 hrequest
      cases message with
      | request id body => exact ⟨id, body, hbuffered⟩
      | cancelled requestId note => cases hid
      | other note => cases hid
    · obtain ⟨tracker, dispatched, hmark⟩ := markCancelled_eq session message
      rw [hmark]
      refine ⟨⟨[], [message], [], ?_⟩, .of_idle rfl (fun _ h => by cases h) hclosed⟩
      refine ⟨(List.append_nil _).symm, rfl, (List.append_nil _).symm, ?_, List.forall_mem_nil _,
        .inr (.inl rfl)⟩
      unfold inbox
      rw [hbuffered]
      simp [deliver]
  | tryAcquire => exact acquire_moves hreceiving (.inl h)
  | acquire => exact acquire_moves hreceiving (.inr h)
  | track =>
    obtain ⟨permit, id, body, hphase, hbuffered, hnext⟩ := track_cases h
    rcases hnext with ⟨tracker, htrack, rfl⟩ | ⟨tracker, htrack, rfl⟩
    · refine ⟨⟨[], [.request id body], [], ?_⟩, .of_idle rfl (fun _ h => by cases h) hclosed⟩
      refine ⟨(List.append_nil _).symm, rfl, (List.append_nil _).symm, ?_, List.forall_mem_nil _,
        .inr (.inl rfl)⟩
      unfold inbox
      rw [hbuffered]
      simp [deliver]
    · refine ⟨⟨[], [], [.request id body], ?_⟩, .of_idle rfl (fun _ h => by cases h) fun _ => rfl⟩
      refine ⟨(List.append_nil _).symm, (List.append_nil _).symm, rfl, ?_,
        List.forall_mem_nil _, .inl rfl⟩
      unfold inbox
      rw [hbuffered]
      simp [endSession]
  | overtake =>
    obtain ⟨-, id, body, hbuffered, ⟨hqueue, rfl⟩ | ⟨other, otherBody, queue, hqueue, rfl⟩ |
      ⟨note, queue, hqueue, rfl⟩ | ⟨message, queue, hqueue, hnone, rfl⟩⟩ :=
      overtake_request hreceiving h
    · refine ⟨⟨[], [], [.request id body], ?_⟩, .of_idle rfl (fun _ h => by cases h) fun _ => rfl⟩
      refine ⟨(List.append_nil _).symm, (List.append_nil _).symm, rfl, ?_,
        List.forall_mem_nil _, .inl rfl⟩
      unfold inbox
      rw [hbuffered]
      simp [endSession]
    · refine ⟨⟨[], [], [.request id body, .request other otherBody], ?_⟩,
        .of_idle rfl (fun _ h => by cases h) fun _ => rfl⟩
      refine ⟨(List.append_nil _).symm, (List.append_nil _).symm, rfl, ?_,
        List.forall_mem_nil _, .inl rfl⟩
      unfold inbox
      rw [hbuffered, hqueue]
      simp [endSession]
    · obtain ⟨tracker, dispatched, hmark⟩ :=
        markCancelled_eq { session with queue } (.cancelled (some id) note)
      rw [hmark]
      refine ⟨⟨[], [.cancelled (some id) note], [.request id body], ?_⟩,
        .of_idle rfl (fun _ h => by cases h) hclosed⟩
      refine ⟨(List.append_nil _).symm, rfl, rfl, ?_, List.forall_mem_nil _,
        .inr (.inr ⟨id, body, note, hbuffered, rfl, rfl⟩)⟩
      unfold inbox
      rw [hbuffered, hqueue]
      simp [deliver, List.Perm.swap]
    · obtain ⟨tracker, dispatched, hmark⟩ := markCancelled_eq { session with queue } message
      rw [hmark]
      refine ⟨⟨[], [message], [], ?_⟩, .of_idle rfl ?_ hclosed⟩
      · refine ⟨(List.append_nil _).symm, rfl, (List.append_nil _).symm, ?_, List.forall_mem_nil _,
          .inr (.inl rfl)⟩
        unfold inbox
        rw [hqueue]
        simp [deliver]
      · intro buffered hmem
        change buffered ∈ session.buffered at hmem
        rw [hbuffered] at hmem
        cases hmem
        rfl
  | dropReceive =>
    change session.dropReceive = _ at h
    unfold dropReceive at h
    split at h
    case h_1 hphase =>
        cases h
        rw [hphase] at hfits
        refine ⟨⟨[], [], [], .silent rfl rfl rfl rfl⟩, .of_idle rfl ?_ hclosed⟩
        intro buffered hmem
        rw [show session.buffered = none from hfits] at hmem
        cases hmem
    case h_2 hphase =>
        cases h
        obtain ⟨id, body, hbuffered⟩ := hreceiving.buffered_of_phase (.inr hphase)
        refine ⟨⟨[], [], [], .silent rfl rfl rfl rfl⟩, .of_idle rfl ?_ hclosed⟩
        intro buffered hmem
        rw [show session.buffered = _ from hbuffered] at hmem
        cases hmem
        rfl
    all_goals cases h
  | close =>
    obtain ⟨hphase, h⟩ := Option.ite_none_right_eq_some.1 h
    cases h
    rw [hphase] at hfits
    exact ⟨⟨[], [], [], .silent rfl rfl rfl rfl⟩, .of_idle hphase hfits fun _ => rfl⟩
  | _ =>
    obtain ⟨tracker, dispatched, writes, rfl⟩ := sdk_step (by trivial) h
    exact ⟨⟨[], [], [], .silent rfl rfl rfl rfl⟩,
      ⟨hreceiving.fits, hclosed, hreceiving.ended⟩⟩

end Moves

end StdioSession

end Fluxcope.Mcp
