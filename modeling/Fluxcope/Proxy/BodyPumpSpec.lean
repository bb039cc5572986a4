import Fluxcope.Library.Run
import Fluxcope.Proxy.BodyPump
/-!
# What a pump moves

In whatever order the source, the task, its reader and the shutdown move, the frames
pass in order, none twice and none left out, and the capture is shown what passed.
-/

namespace Fluxcope.Proxy

open Fluxcope.Library Fluxcope.Library.Utf8 Fluxcope.Capture

theorem frameData_append (frames more : List Frame) :
    frameData (frames ++ more) = frameData frames ++ frameData more := by
  simp [frameData]

namespace BodyPump

variable {pump next : BodyPump} {interrupted : Bool} {event : PumpEvent}
  {action : Option CaptureAction}

/-! ## What a step does -/

/-- The bytes that are handed over and not shown yet. -/
def pending (pump : BodyPump) : Bytes :=
  match pump.phase with
  | .noting bytes => bytes
  | _ => []

/-- The frame that is taken and not handed over yet. -/
def held (pump : BodyPump) : List Frame :=
  match pump.phase with
  | .sending frame => [frame]
  | _ => []

/-- Why the task has returned, or is about to. -/
def reason (pump : BodyPump) : Option PumpEnd :=
  match pump.phase with
  | .leaving reason | .gone reason => some reason
  | _ => none

/-- The task has dropped its capture and its sender. -/
def isGone (pump : BodyPump) : Bool :=
  match pump.phase with
  | .gone _ => true
  | _ => false

/-- All that a step can do. -/
inductive Moves (pump : BodyPump) (interrupted : Bool) : BodyPump → Option CaptureAction → Prop
  | take (frame : Frame) (hphase : pump.phase = .reading) (hreader : pump.channel.isSome = true) :
      Moves pump interrupted
        { pump with taken := pump.taken ++ [frame], phase := .sending frame } none
  | drain (frame : Frame) (hphase : pump.phase = .reading) (hreader : pump.channel = none) :
      Moves pump interrupted ({ pump with taken := pump.taken ++ [frame] }.handOver frame) none
  | send (frame : Frame) (channel next : Channel Frame BodyError)
      (hphase : pump.phase = .sending frame) (hchannel : pump.channel = some channel)
      (hsend : channel.send frame = some (true, next)) :
      Moves pump interrupted ({ pump with channel := some next }.handOver frame) none
  | finish (reason : PumpEnd) (instant : Nat) (hends : pump.phase = .reading ∨
        ((reason = .shutdown ∨ reason = .rejected) ∧ ∃ frame, pump.phase = .sending frame))
      (hshutdown : reason = .shutdown → interrupted = true)
      (hrejected : reason = .rejected → ∃ frame channel, pump.phase = .sending frame ∧
        pump.channel = some channel ∧ channel.receiving = false) :
      Moves pump interrupted { pump with phase := .leaving reason }
        (some (.finish pump.sequence pump.side (pump.terminal reason) instant))
  | append (bytes : Bytes) (hphase : pump.phase = .noting bytes) :
      Moves pump interrupted { pump with phase := .reading, shown := pump.shown ++ bytes }
        (some (.append pump.sequence pump.side bytes))
  | leave (reason : PumpEnd) (hphase : pump.phase = .leaving reason) :
      Moves pump interrupted
        { pump with
          phase := .gone reason
          channel := pump.channel.map fun channel => channel.finish reason.error }
        (some (.dropHandle pump.sequence))
  | receive (channel next : Channel Frame BodyError) (frame : Frame) (hunseen : pump.seen = none)
      (hchannel : pump.channel = some channel)
      (hreceive : channel.receive = some (.value frame, next)) :
      Moves pump interrupted
        { pump with channel := some next, received := pump.received ++ [frame] } none
  | see (channel next : Channel Frame BodyError) (result : Received Frame BodyError)
      (error : Option BodyError) (hunseen : pump.seen = none)
      (hchannel : pump.channel = some channel) (hreceive : channel.receive = some (result, next))
      (hvalues : result.values = []) (herror : channel.error = error) :
      Moves pump interrupted { pump with channel := some next, seen := some error } none
  | dropReader (channel : Channel Frame BodyError) (hchannel : pump.channel = some channel) :
      Moves pump interrupted { pump with channel := some channel.dropReceiver } none

theorem receive_moves (h : pump.receive = some next) : Moves pump interrupted next none := by
  unfold receive at h
  split at h
  · cases h
  rename_i hseen
  have hunseen : pump.seen = none := by simpa using hseen
  obtain ⟨⟨result, channel'⟩, hreceive, rfl⟩ := Option.map_eq_some_iff.1 h
  obtain ⟨channel, hchannel, hreceive⟩ := Option.bind_eq_some_iff.1 hreceive
  obtain ⟨-, hcase⟩ := Channel.receive_cases hreceive
  rcases hcase with ⟨frame, rest, -, rfl, -⟩ | ⟨-, -, ⟨error, herror, rfl, -⟩ | ⟨herror, rfl, -⟩⟩
  · exact .receive channel channel' frame hunseen hchannel hreceive
  · exact .see channel channel' _ _ hunseen hchannel hreceive rfl herror
  · exact .see channel channel' _ _ hunseen hchannel hreceive rfl herror

theorem step_moves (h : pump.step interrupted event = some (next, action)) :
    Moves pump interrupted next action := by
  cases event with
  | frame frame =>
    obtain ⟨hphase, h⟩ := Option.ite_none_right_eq_some.1 h
    dsimp only at h
    split at h
    · rename_i hreader
      cases h
      exact .take frame hphase hreader
    · rename_i hreader
      cases h
      exact .drain frame hphase (by simpa using hreader)
  | sourceFailed error instant =>
    obtain ⟨hphase, h⟩ := Option.ite_none_right_eq_some.1 h
    cases h
    exact .finish _ instant (.inl hphase) (fun h => by cases h) (fun h => by cases h)
  | sourceEnded instant =>
    obtain ⟨hphase, h⟩ := Option.ite_none_right_eq_some.1 h
    cases h
    exact .finish _ instant (.inl hphase) (fun h => by cases h) (fun h => by cases h)
  | shutdown instant =>
    simp only [step] at h
    split at h
    · cases h
    rename_i hinterrupted
    simp only [Bool.not_eq_true, Bool.not_eq_false'] at hinterrupted
    split at h
    · rename_i hphase
      cases h
      exact .finish _ instant (.inl hphase) (fun _ => hinterrupted) (fun h => by cases h)
    · rename_i frame hphase
      cases h
      exact .finish _ instant (.inr ⟨.inl rfl, frame, hphase⟩) (fun _ => hinterrupted)
        (fun h => by cases h)
    · cases h
  | send instant =>
    simp only [step] at h
    split at h
    · rename_i frame hphase
      obtain ⟨⟨accepted, channel'⟩, hsend, heq⟩ := Option.map_eq_some_iff.1 h
      obtain ⟨channel, hchannel, hsend⟩ := Option.bind_eq_some_iff.1 hsend
      cases accepted with
      | true =>
        cases heq
        exact .send frame channel channel' hphase hchannel hsend
      | false =>
        cases heq
        have hreader := (Channel.send_refused hsend).1
        exact .finish _ instant (.inr ⟨.inr rfl, frame, hphase⟩) (fun h => by cases h)
          fun _ => ⟨frame, channel, hphase, hchannel, hreader⟩
    · cases h
  | append =>
    simp only [step] at h
    split at h
    · rename_i bytes hphase
      cases h
      exact .append bytes hphase
    · cases h
  | leave =>
    simp only [step] at h
    split at h
    · rename_i reason hphase
      cases h
      exact .leave reason hphase
    · cases h
  | receive =>
    obtain ⟨_, hreceive, heq⟩ := Option.map_eq_some_iff.1 h
    cases heq
    exact receive_moves hreceive
  | dropReader =>
    obtain ⟨channel, hchannel, heq⟩ := Option.map_eq_some_iff.1 h
    cases heq
    exact .dropReader channel hchannel

/-! ## What holds between the steps -/

/-- The books of a pump: what it took, handed over and showed, what its reader got,
and how it all ended. -/
structure Faithful (pump : BodyPump) : Prop where
  carries : ∀ channel, pump.channel = some channel → channel.Carries pump.handed pump.received
  room : ∀ channel, pump.channel = some channel → channel.capacity = 1
  drained : pump.channel = none → pump.received = [] ∧ pump.seen = none ∧ pump.held = []
  taken : pump.reason = none → pump.taken = pump.handed ++ pump.held
  left : ∀ reason, pump.reason = some reason → pump.taken = pump.handed ∨
    ((reason = .shutdown ∨ reason = .rejected) ∧ ∃ frame, pump.taken = pump.handed ++ [frame])
  shown : frameData pump.handed = pump.shown ++ pump.pending
  sending : ∀ channel, pump.channel = some channel → channel.sending = !pump.isGone
  error : ∀ channel reason, pump.channel = some channel → channel.receiving = true →
    pump.phase = .gone reason → pump.seen = none → channel.error = reason.error
  rejected : ∀ channel, pump.channel = some channel → pump.reason = some .rejected →
    channel.receiving = false
  saw : ∀ error, pump.seen = some error → pump.received = pump.handed ∧
    ∃ reason, pump.phase = .gone reason ∧ reason ≠ .rejected ∧ reason.error = error

theorem faithful_teeBody (sequence : CaptureSequence) (side : BodySide) :
    (teeBody sequence side).Faithful where
  carries := by
    rintro _ ⟨⟩
    exact Channel.carries_new 1
  room := by
    rintro _ ⟨⟩
    rfl
  drained := fun h => by cases h
  taken := fun _ => rfl
  left := fun _ h => by cases h
  shown := rfl
  sending := by
    rintro _ ⟨⟩
    rfl
  error := fun _ _ _ _ h => by cases h
  rejected := fun _ _ h => by cases h
  saw := fun _ h => by cases h

theorem faithful_drainBody (sequence : CaptureSequence) : (drainBody sequence).Faithful where
  carries := fun _ h => by cases h
  room := fun _ h => by cases h
  drained := fun _ => ⟨rfl, rfl, rfl⟩
  taken := fun _ => rfl
  left := fun _ h => by cases h
  shown := rfl
  sending := fun _ h => by cases h
  error := fun _ _ h => by cases h
  rejected := fun _ h => by cases h
  saw := fun _ h => by cases h

theorem reason_of_phase {reason : PumpEnd}
    (h : pump.phase = .leaving reason ∨ pump.phase = .gone reason) :
    pump.reason = some reason := by
  unfold BodyPump.reason
  rcases h with h | h <;> rw [h]

/-- As long as the task runs, the reader has not seen the end. -/
theorem Faithful.not_seen (h : pump.Faithful) (hgone : pump.isGone = false)
    (error : Option BodyError) : pump.seen ≠ some error := by
  intro hseen
  obtain ⟨-, reason, hphase, -⟩ := h.saw error hseen
  simp [isGone, hphase] at hgone

theorem Faithful.unseen (h : pump.Faithful) (hgone : pump.isGone = false) : pump.seen = none :=
  Option.eq_none_iff_forall_ne_some.2 (h.not_seen hgone)

@[simp] theorem held_handOver (pump : BodyPump) (frame : Frame) :
    (pump.handOver frame).held = [] := by
  cases frame <;> rfl

@[simp] theorem reason_handOver (pump : BodyPump) (frame : Frame) :
    (pump.handOver frame).reason = none := by
  cases frame <;> rfl

@[simp] theorem isGone_handOver (pump : BodyPump) (frame : Frame) :
    (pump.handOver frame).isGone = false := by
  cases frame <;> rfl

theorem pending_handOver (pump : BodyPump) (frame : Frame) :
    (pump.handOver frame).pending = frameData [frame] := by
  cases frame <;> simp [pending, BodyPump.handOver, Frame.dataRef, frameData]

theorem phase_of_isGone (h : pump.isGone = true) : ∃ reason, pump.phase = .gone reason := by
  unfold isGone at h
  split at h
  · rename_i reason hphase
    exact ⟨reason, hphase⟩
  · cases h

theorem isGone_of_phase {reason : PumpEnd} (h : pump.phase = .gone reason) : pump.isGone = true := by
  simp [isGone, h]

/-- Handing a frame over, through the channel or without one. -/
theorem Faithful.handOver {frame : Frame} {channel : Option (Channel Frame BodyError)}
    {taken : List Frame} (h : pump.Faithful) (hpending : pump.pending = [])
    (htaken : taken = pump.handed ++ [frame]) (hgone : pump.isGone = false)
    (hcarries : ∀ c, channel = some c → c.Carries (pump.handed ++ [frame]) pump.received)
    (hroom : ∀ c, channel = some c → c.capacity = 1)
    (hdrained : channel = none → pump.received = [])
    (hsending : ∀ c, channel = some c → c.sending = true) :
    ({ pump with taken, channel }.handOver frame).Faithful where
  carries := hcarries
  room := hroom
  drained hnone := ⟨hdrained hnone, h.unseen hgone, held_handOver _ _⟩
  taken _ := by
    rw [held_handOver, List.append_nil]
    exact htaken
  left reason hreason := by
    rw [reason_handOver] at hreason
    cases hreason
  shown := by
    have hshown := h.shown
    rw [hpending, List.append_nil] at hshown
    rw [pending_handOver]
    exact (frameData_append _ _).trans (congrArg (· ++ frameData [frame]) hshown)
  sending c hc := by
    rw [isGone_handOver]
    exact hsending c hc
  error c reason _ _ hphase := by
    have hgone := isGone_of_phase hphase
    rw [isGone_handOver] at hgone
    cases hgone
  rejected c _ hreason := by
    rw [reason_handOver] at hreason
    cases hreason
  saw error hseen := absurd hseen (h.not_seen hgone error)

/-- Every step keeps the books. -/
theorem Faithful.step (h : pump.Faithful) (hmoves : Moves pump interrupted next action) :
    next.Faithful := by
  cases hmoves with
  | take frame hphase hreader =>
    have hgone : pump.isGone = false := by simp [isGone, hphase]
    have htaken := h.taken (by simp [reason, hphase])
    have hshown := h.shown
    simp only [held, pending, hphase, List.append_nil] at htaken hshown
    exact {
      carries := h.carries
      room := h.room
      drained := fun hnone => by simp [show pump.channel = none from hnone] at hreader
      taken := fun _ => congrArg (· ++ [frame]) htaken
      left := fun _ hreason => by cases hreason
      shown := hshown.trans (List.append_nil _).symm
      sending := fun c hc => (h.sending c hc).trans (by rw [hgone]; rfl)
      error := fun _ _ _ _ hphase => by cases hphase
      rejected := fun _ _ hreason => by cases hreason
      saw := fun error hseen => absurd hseen (h.not_seen hgone error) }
  | drain frame hphase hreader =>
    have hgone : pump.isGone = false := by simp [isGone, hphase]
    have htaken := h.taken (by simp [reason, hphase])
    simp only [held, hphase, List.append_nil] at htaken
    refine h.handOver (by simp [pending, hphase]) (by rw [htaken]) hgone (fun c hc => ?_)
      (fun c hc => ?_) (fun hnone => (h.drained hnone).1) fun c hc => ?_
    · rw [hreader] at hc
      cases hc
    · rw [hreader] at hc
      cases hc
    · rw [hreader] at hc
      cases hc
  | send frame channel channel' hphase hchannel hsend =>
    have hgone : pump.isGone = false := by simp [isGone, hphase]
    have htaken := h.taken (by simp [reason, hphase])
    simp only [held, hphase] at htaken
    refine h.handOver (by simp [pending, hphase]) htaken hgone (fun c hc => ?_)
      (fun c hc => ?_) (fun hnone => by cases hnone) fun c hc => ?_
    · obtain rfl := Option.some.inj hc
      exact (h.carries channel hchannel).send hsend
    · obtain rfl := Option.some.inj hc
      obtain ⟨-, -, rfl⟩ := Channel.send_accepted hsend
      exact h.room channel hchannel
    · obtain rfl := Option.some.inj hc
      obtain ⟨-, -, rfl⟩ := Channel.send_accepted hsend
      exact (h.sending channel hchannel).trans (by rw [hgone]; rfl)
  | finish reason instant hends hshutdown hrejected =>
    have hgone : pump.isGone = false := by
      rcases hends with hphase | ⟨-, frame, hphase⟩ <;> simp [isGone, hphase]
    have hnone : pump.reason = none := by
      rcases hends with hphase | ⟨-, frame, hphase⟩ <;> simp [BodyPump.reason, hphase]
    have hpending : pump.pending = [] := by
      rcases hends with hphase | ⟨-, frame, hphase⟩ <;> simp [pending, hphase]
    have htaken := h.taken hnone
    have hshown := h.shown
    rw [hpending] at hshown
    exact {
      carries := h.carries
      room := h.room
      drained := fun hdrained => ⟨(h.drained hdrained).1, (h.drained hdrained).2.1, rfl⟩
      taken := fun hreason => by cases hreason
      left := by
        rintro _ ⟨⟩
        rcases hends with hphase | ⟨hreason, frame, hphase⟩
        · simp only [held, hphase, List.append_nil] at htaken
          exact .inl htaken
        · simp only [held, hphase] at htaken
          exact .inr ⟨hreason, frame, htaken⟩
      shown := hshown
      sending := fun c hc => (h.sending c hc).trans (by rw [hgone]; rfl)
      error := fun _ _ _ _ hphase => by cases hphase
      rejected := by
        rintro c hc ⟨⟩
        obtain ⟨frame, channel, -, hchannel, hreader⟩ := hrejected rfl
        obtain rfl := Option.some.inj (hchannel.symm.trans hc)
        exact hreader
      saw := fun error hseen => absurd hseen (h.not_seen hgone error) }
  | append bytes hphase =>
    have hgone : pump.isGone = false := by simp [isGone, hphase]
    have htaken := h.taken (by simp [reason, hphase])
    have hshown := h.shown
    simp only [held, pending, hphase] at htaken hshown
    exact {
      carries := h.carries
      room := h.room
      drained := fun hdrained => ⟨(h.drained hdrained).1, (h.drained hdrained).2.1, rfl⟩
      taken := fun _ => htaken
      left := fun _ hreason => by cases hreason
      shown := hshown.trans (List.append_nil _).symm
      sending := fun c hc => (h.sending c hc).trans (by rw [hgone]; rfl)
      error := fun _ _ _ _ hphase => by cases hphase
      rejected := fun _ _ hreason => by cases hreason
      saw := fun error hseen => absurd hseen (h.not_seen hgone error) }
  | leave reason hphase =>
    have hgone : pump.isGone = false := by simp [isGone, hphase]
    have hreason : pump.reason = some reason := reason_of_phase (.inl hphase)
    have hshown := h.shown
    simp only [pending, hphase] at hshown
    exact {
      carries := by
        intro c hc
        obtain ⟨channel, hchannel, rfl⟩ := Option.map_eq_some_iff.1 hc
        exact (h.carries channel hchannel).finish reason.error
      room := by
        intro c hc
        obtain ⟨channel, hchannel, rfl⟩ := Option.map_eq_some_iff.1 hc
        exact h.room channel hchannel
      drained := fun hdrained => by
        have hnone : pump.channel = none := Option.map_eq_none_iff.1 hdrained
        exact ⟨(h.drained hnone).1, (h.drained hnone).2.1, rfl⟩
      taken := fun hreason => by cases hreason
      left := by
        rintro _ ⟨⟩
        exact h.left reason hreason
      shown := hshown
      sending := by
        intro c hc
        obtain ⟨channel, hchannel, rfl⟩ := Option.map_eq_some_iff.1 hc
        rfl
      error := by
        rintro c _ hc - ⟨⟩ -
        obtain ⟨channel, hchannel, rfl⟩ := Option.map_eq_some_iff.1 hc
        rfl
      rejected := by
        rintro c hc ⟨⟩
        obtain ⟨channel, hchannel, rfl⟩ := Option.map_eq_some_iff.1 hc
        exact h.rejected channel hchannel hreason
      saw := fun error hseen => absurd hseen (h.not_seen hgone error) }
  | receive channel channel' frame hunseen hchannel hreceive =>
    have hcarries := (h.carries channel hchannel).receive hreceive
    obtain ⟨-, hcase⟩ := Channel.receive_cases hreceive
    rcases hcase with ⟨_, rest, -, -, rfl⟩ | ⟨-, -, ⟨_, -, hfailed, -⟩ | ⟨-, hended, -⟩⟩
    · exact {
        carries := by
          rintro _ ⟨⟩
          exact hcarries
        room := by
          rintro _ ⟨⟩
          exact h.room channel hchannel
        drained := fun hnone => by cases hnone
        taken := h.taken
        left := h.left
        shown := h.shown
        sending := by
          rintro _ ⟨⟩
          exact h.sending channel hchannel
        error := by
          rintro _ reason ⟨⟩ hreceiving hphase -
          exact h.error channel reason hchannel hreceiving hphase hunseen
        rejected := by
          rintro _ ⟨⟩ hreason
          exact h.rejected channel hchannel hreason
        saw := fun error hseen => by
          rw [show pump.seen = some error from hseen] at hunseen
          cases hunseen }
    · cases hfailed
    · cases hended
  | see channel channel' result error hunseen hchannel hreceive hvalues herror =>
    have hcarries := (h.carries channel hchannel).receive hreceive
    rw [hvalues, List.append_nil] at hcarries
    obtain ⟨hreceiving, hcase⟩ := Channel.receive_cases hreceive
    have hempty : channel.buffered = [] ∧ channel.sending = false ∧
        channel'.capacity = channel.capacity ∧ channel'.sending = false := by
      rcases hcase with ⟨_, _, -, rfl, -⟩ | ⟨hbuffered, hsending, ⟨_, -, -, rfl⟩ | ⟨-, -, rfl⟩⟩
      · cases hvalues
      · exact ⟨hbuffered, hsending, rfl, hsending⟩
      · exact ⟨hbuffered, hsending, rfl, hsending⟩
    obtain ⟨hbuffered, hsending, hcapacity, hclosed⟩ := hempty
    have hgone : pump.isGone = true := by
      have hsender := h.sending channel hchannel
      rw [hsending] at hsender
      simpa using hsender
    obtain ⟨reason, hphase⟩ := phase_of_isGone hgone
    have hwhole := (h.carries channel hchannel).whole hreceiving
    rw [hbuffered, List.append_nil] at hwhole
    have hnot : reason ≠ .rejected := by
      rintro rfl
      have hreader := h.rejected channel hchannel (reason_of_phase (.inr hphase))
      rw [hreceiving] at hreader
      cases hreader
    have hreason := h.error channel reason hchannel hreceiving hphase hunseen
    exact {
      carries := by
        rintro _ ⟨⟩
        exact hcarries
      room := by
        rintro _ ⟨⟩
        exact hcapacity.trans (h.room channel hchannel)
      drained := fun hnone => by cases hnone
      taken := h.taken
      left := h.left
      shown := h.shown
      sending := by
        rintro _ ⟨⟩
        change channel'.sending = !pump.isGone
        rw [hclosed, hgone]
        rfl
      error := fun _ _ _ _ _ hseen => by cases hseen
      rejected := by
        rintro _ ⟨⟩ hrejected
        change pump.reason = some .rejected at hrejected
        rw [reason_of_phase (.inr hphase)] at hrejected
        exact absurd (Option.some.inj hrejected) hnot
      saw := by
        rintro _ ⟨⟩
        exact ⟨hwhole.symm, reason, hphase, hnot, hreason.symm.trans herror⟩ }
  | dropReader channel hchannel =>
    exact {
      carries := by
        rintro _ ⟨⟩
        exact (h.carries channel hchannel).dropReceiver
      room := by
        rintro _ ⟨⟩
        exact h.room channel hchannel
      drained := fun hnone => by cases hnone
      taken := h.taken
      left := h.left
      shown := h.shown
      sending := by
        rintro _ ⟨⟩
        exact h.sending channel hchannel
      error := by
        rintro _ _ ⟨⟩ hreceiving
        cases hreceiving
      rejected := by
        rintro _ ⟨⟩ -
        rfl
      saw := h.saw }

theorem Faithful.handed_begins (h : pump.Faithful) : pump.handed <+: pump.taken := by
  cases hreason : pump.reason with
  | none =>
    rw [h.taken hreason]
    exact List.prefix_append _ _
  | some reason =>
    rcases h.left reason hreason with htaken | ⟨-, frame, htaken⟩
    · rw [htaken]
    · rw [htaken]
      exact List.prefix_append _ _

theorem Faithful.received_begins (h : pump.Faithful) : pump.received <+: pump.handed := by
  cases hchannel : pump.channel with
  | none =>
    rw [(h.drained hchannel).1]
    exact List.nil_prefix
  | some channel => exact (h.carries channel hchannel).received_begins

/-- A reader that does not read holds the source back. -/
theorem Faithful.taken_le (h : pump.Faithful) {channel : Channel Frame BodyError}
    (hchannel : pump.channel = some channel) (hreader : channel.receiving = true) :
    pump.taken.length ≤ pump.received.length + 2 := by
  have hcarries := h.carries channel hchannel
  have hbuffered := hcarries.within
  rw [h.room channel hchannel] at hbuffered
  have hhanded : pump.handed.length = pump.received.length + channel.buffered.length := by
    rw [hcarries.whole hreader, List.length_append]
  cases hreason : pump.reason with
  | none =>
    have hheld : pump.held.length ≤ 1 := by
      unfold held
      split <;> simp
    have htaken := congrArg List.length (h.taken hreason)
    rw [List.length_append] at htaken
    omega
  | some reason =>
    rcases h.left reason hreason with htaken | ⟨-, frame, htaken⟩
    · rw [htaken]
      omega
    · rw [htaken, List.length_append, List.length_singleton]
      omega

end BodyPump

/-! ## A pump on its own -/

/-- A pump, the shutdown of the proxy, and the calls the pump has made. -/
structure PumpRun where
  pump : BodyPump
  interrupted : Bool := false
  calls : List CaptureAction := []

inductive PumpLabel
  | pump (event : PumpEvent)
  | interrupt

namespace PumpRun

open BodyPump

def step (s : PumpRun) : PumpLabel → Option PumpRun
  | .pump event =>
    (s.pump.step s.interrupted event).map fun (pump, action) =>
      { s with pump, calls := s.calls ++ action.toList }
  | .interrupt => some { s with interrupted := true }

/-- The calls at the end of the task. -/
def closing (pump : BodyPump) (instant : Nat) : List CaptureAction :=
  match pump.phase with
  | .reading | .sending _ | .noting _ => []
  | .leaving reason => [.finish pump.sequence pump.side (pump.terminal reason) instant]
  | .gone reason =>
    [.finish pump.sequence pump.side (pump.terminal reason) instant, .dropHandle pump.sequence]

/-- The fragment that is handed over and not shown yet. -/
def due (pump : BodyPump) : List Bytes :=
  match pump.phase with
  | .noting bytes => [bytes]
  | _ => []

/-- The capture is called with the data that passed, frame by frame, and then told the end, once. -/
def Called (pump : BodyPump) (calls : List CaptureAction) : Prop :=
  ∃ fragments instant, fragments ++ due pump = pump.handed.filterMap Frame.dataRef ∧
    calls = (fragments.map fun bytes => .append pump.sequence pump.side bytes) ++
      closing pump instant

theorem terminal_congr {pump next : BodyPump}
    (hchannel : next.channel.isSome = pump.channel.isSome) (reason : PumpEnd) :
    next.terminal reason = pump.terminal reason := by
  cases reason with
  | failed error => simp only [terminal, failurePrefix, hchannel]
  | complete | shutdown | rejected => rfl

/-- What the reader does changes nothing about the calls. -/
theorem Called.reader {pump : BodyPump} {calls : List CaptureAction} (h : Called pump calls)
    {channel channel' : Channel Frame BodyError} {received : List Frame}
    {seen : Option (Option BodyError)} (hchannel : pump.channel = some channel) :
    Called { pump with channel := some channel', received, seen } calls := by
  obtain ⟨fragments, instant, hfragments, rfl⟩ := h
  refine ⟨fragments, instant, hfragments, ?_⟩
  have hterminal : ∀ reason,
      BodyPump.terminal { pump with channel := some channel', received, seen } reason =
        pump.terminal reason := terminal_congr (by rw [hchannel]; rfl)
  unfold closing
  simp only [hterminal]

theorem due_handOver (pump : BodyPump) (frame : Frame) :
    due (pump.handOver frame) = [frame].filterMap Frame.dataRef := by
  cases frame <;> rfl

theorem closing_handOver (pump : BodyPump) (frame : Frame) (instant : Nat) :
    closing (pump.handOver frame) instant = [] := by
  cases frame <;> rfl

theorem Called.handOver {pump : BodyPump} {calls : List CaptureAction} (h : Called pump calls)
    (hdue : due pump = []) (hclosing : ∀ instant, closing pump instant = []) (frame : Frame)
    {taken : List Frame} {channel : Option (Channel Frame BodyError)} :
    Called ({ pump with taken, channel }.handOver frame) calls := by
  obtain ⟨fragments, instant, hfragments, rfl⟩ := h
  refine ⟨fragments, instant, ?_, ?_⟩
  · rw [hdue, List.append_nil] at hfragments
    rw [due_handOver, hfragments]
    exact (List.filterMap_append ..).symm
  · rw [hclosing, closing_handOver]
    rfl

theorem Called.step {pump next : BodyPump} {interrupted : Bool} {action : Option CaptureAction}
    {calls : List CaptureAction} (h : Called pump calls)
    (hmoves : Moves pump interrupted next action) : Called next (calls ++ action.toList) := by
  cases hmoves with
  | take frame hphase hreader =>
    obtain ⟨fragments, instant, hfragments, rfl⟩ := h
    refine ⟨fragments, instant, ?_, ?_⟩
    · simpa [due, hphase] using hfragments
    · simp [closing, hphase]
  | drain frame hphase hreader =>
    rw [Option.toList_none, List.append_nil]
    exact h.handOver (by simp [due, hphase]) (by simp [closing, hphase]) frame
  | send frame channel channel' hphase hchannel hsend =>
    rw [Option.toList_none, List.append_nil]
    exact h.handOver (by simp [due, hphase]) (by simp [closing, hphase]) frame
  | finish reason instant hends hshutdown hrejected =>
    obtain ⟨fragments, _, hfragments, rfl⟩ := h
    refine ⟨fragments, instant, ?_, ?_⟩
    · rcases hends with hphase | ⟨-, frame, hphase⟩ <;> simpa [due, hphase] using hfragments
    · have hterminal : BodyPump.terminal { pump with phase := .leaving reason } reason =
          pump.terminal reason := terminal_congr rfl reason
      rcases hends with hphase | ⟨-, frame, hphase⟩ <;> simp [closing, hphase, hterminal]
  | append bytes hphase =>
    obtain ⟨fragments, instant, hfragments, rfl⟩ := h
    refine ⟨fragments ++ [bytes], instant, ?_, ?_⟩
    · simpa [due, hphase] using hfragments
    · simp [closing, hphase]
  | leave reason hphase =>
    obtain ⟨fragments, instant, hfragments, rfl⟩ := h
    refine ⟨fragments, instant, ?_, ?_⟩
    · simpa [due, hphase] using hfragments
    · have hterminal : BodyPump.terminal
          { pump with
            phase := .gone reason
            channel := pump.channel.map fun channel => channel.finish reason.error } reason =
            pump.terminal reason := terminal_congr Option.isSome_map reason
      simp [closing, hphase, hterminal]
  | receive channel channel' frame hunseen hchannel hreceive =>
    rw [Option.toList_none, List.append_nil]
    exact h.reader hchannel
  | see channel channel' result error hunseen hchannel hreceive hvalues herror =>
    rw [Option.toList_none, List.append_nil]
    exact h.reader hchannel
  | dropReader channel hchannel =>
    rw [Option.toList_none, List.append_nil]
    exact h.reader hchannel

/-- The pumps as `tee_body` and `drain_body` start them. -/
inductive Starts : BodyPump → Prop
  | tee (sequence : CaptureSequence) (side : BodySide) : Starts (teeBody sequence side)
  | drain (sequence : CaptureSequence) : Starts (drainBody sequence)

theorem Starts.faithful {pump : BodyPump} (h : Starts pump) : pump.Faithful := by
  cases h with
  | tee sequence side => exact faithful_teeBody sequence side
  | drain sequence => exact faithful_drainBody sequence

theorem Starts.called {pump : BodyPump} (h : Starts pump) : Called pump [] := by
  cases h <;> exact ⟨[], 0, rfl, rfl⟩

theorem run_faithful {pump : BodyPump} (hstart : Starts pump) {labels : List PumpLabel} {s : PumpRun}
    (hrun : run step { pump } labels = some s) : s.pump.Faithful ∧ Called s.pump s.calls := by
  refine run_invariant (I := fun s : PumpRun => s.pump.Faithful ∧ Called s.pump s.calls)
    ?_ ⟨hstart.faithful, hstart.called⟩ hrun
  rintro s label t ⟨hfaithful, hcalled⟩ hstep
  cases label with
  | pump event =>
    obtain ⟨⟨next, action⟩, hnext, rfl⟩ := Option.map_eq_some_iff.1 hstep
    have hmoves := step_moves hnext
    exact ⟨hfaithful.step hmoves, hcalled.step hmoves⟩
  | interrupt =>
    cases hstep
    exact ⟨hfaithful, hcalled⟩

/-- In every order of steps: what the reader got is the beginning of what was handed
over, which is what was taken from the source up to one frame; a reader that is there
is at most two frames behind; the capture is shown the data that passed, in order, and
its end once; and a reader that sees the end of the body has got all that was handed
over, which is the whole body unless it sees the error the task ended with. -/
theorem pump_moves_frames {pump : BodyPump} (hstart : Starts pump) {labels : List PumpLabel}
    {s : PumpRun} (hrun : run step { pump } labels = some s) :
    s.pump.received <+: s.pump.handed ∧ s.pump.handed <+: s.pump.taken ∧
      (∀ channel, s.pump.channel = some channel → channel.receiving = true →
        s.pump.taken.length ≤ s.pump.received.length + 2) ∧
      Called s.pump s.calls ∧
      ∀ error, s.pump.seen = some error → s.pump.received = s.pump.handed ∧
        ∃ reason, s.pump.phase = .gone reason ∧ reason.error = error ∧
          (error = none → reason = .complete ∧ s.pump.received = s.pump.taken) := by
  obtain ⟨hfaithful, hcalled⟩ := run_faithful hstart hrun
  refine ⟨hfaithful.received_begins, hfaithful.handed_begins,
    fun channel hchannel hreader => hfaithful.taken_le hchannel hreader, hcalled, ?_⟩
  intro error hseen
  obtain ⟨hreceived, reason, hphase, hrejected, herror⟩ := hfaithful.saw error hseen
  refine ⟨hreceived, reason, hphase, herror, ?_⟩
  rintro rfl
  have hcomplete : reason = .complete := by
    cases reason with
    | complete => rfl
    | failed error => cases herror
    | shutdown => cases herror
    | rejected => exact absurd rfl hrejected
  refine ⟨hcomplete, ?_⟩
  rcases hfaithful.left reason (reason_of_phase (.inr hphase)) with htaken | ⟨hcut, -⟩
  · rw [hreceived, htaken]
  · rw [hcomplete] at hcut
    rcases hcut with h | h <;> cases h

/-- A frame of data and the trailers of a response, with a reader that takes its time. -/
def sampleLabels : List PumpLabel :=
  [.pump (.frame (.data [1, 2])), .pump (.send 1), .pump .append, .pump (.frame (.trailers [])),
    .pump .receive, .pump (.send 2), .pump (.sourceEnded 3), .interrupt, .pump .leave,
    .pump .receive, .pump .receive]

theorem pump_moves_frames_sample :
    ∃ s, run step { pump := teeBody 0 .response } sampleLabels = some s ∧
      s.pump.seen = some none ∧ s.pump.received = s.pump.taken := by
  obtain ⟨s, hrun⟩ := Option.isSome_iff_exists.1
    (show (run step { pump := teeBody 0 .response } sampleLabels).isSome = true by decide +kernel)
  have hseen : (run step { pump := teeBody 0 .response } sampleLabels).map (fun s => s.pump.seen) =
      some (some none) := by decide +kernel
  rw [hrun] at hseen
  have hseen : s.pump.seen = some none := Option.some.inj hseen
  obtain ⟨-, -, -, -, hend⟩ := pump_moves_frames (.tee 0 .response) hrun
  obtain ⟨-, reason, -, -, hwhole⟩ := hend none hseen
  exact ⟨s, hrun, hseen, (hwhole rfl).2⟩

end PumpRun

end Fluxcope.Proxy
