import Mathlib.Data.List.Infix
/-!
# A bounded channel that can be aborted

One sender hands over values as long as there is room and the receiver exists;
it ends by closing or by aborting with an error.  The receiver takes the values
in order, then the error, then the end.  Sending, receiving and the end of a side are
atomic: each happens at one point of a run.
-/

namespace Fluxcope.Library

/-- `error` is there until it is received; `sending` and `receiving` tell
whether the two ends exist. -/
structure Channel (α ε : Type*) where
  capacity : Nat
  buffered : List α := []
  error : Option ε := none
  sending : Bool := true
  receiving : Bool := true

/-- What the receiver gets. -/
inductive Received (α ε : Type*)
  | value (value : α)
  | failed (error : ε)
  | ended

/-- The values among what the receiver got. -/
def Received.values {α ε : Type*} : Received α ε → List α
  | .value first => [first]
  | .failed _ | .ended => []

namespace Channel

variable {α ε : Type*}

/-- `none` as long as a sender waits for room; the value is refused when the
receiver is gone. -/
def send (channel : Channel α ε) (value : α) : Option (Bool × Channel α ε) :=
  if !channel.receiving then some (false, channel)
  else if channel.buffered.length < channel.capacity then
    some (true, { channel with buffered := channel.buffered ++ [value] })
  else none

/-- The sender goes, and may leave an error. -/
def finish (channel : Channel α ε) (error : Option ε) : Channel α ε :=
  { channel with error, sending := false }

/-- `none` as long as the receiver waits. -/
def receive (channel : Channel α ε) : Option (Received α ε × Channel α ε) :=
  if !channel.receiving then none
  else
    match channel.buffered with
    | value :: rest => some (.value value, { channel with buffered := rest })
    | [] =>
      if channel.sending then none
      else
        match channel.error with
        | some error => some (.failed error, { channel with error := none })
        | none => some (.ended, channel)

def dropReceiver (channel : Channel α ε) : Channel α ε :=
  { channel with buffered := [], error := none, receiving := false }

/-! ## What a channel carries -/

/-- The values sent so far are the values received so far and the buffered ones,
as long as the receiver exists. -/
structure Carries (channel : Channel α ε) (sent received : List α) : Prop where
  within : channel.buffered.length ≤ channel.capacity
  whole : channel.receiving = true → sent = received ++ channel.buffered
  received_begins : received <+: sent

variable {channel next : Channel α ε} {sent received : List α}

theorem carries_new (capacity : Nat) : Carries ({ capacity } : Channel α ε) [] [] :=
  ⟨Nat.zero_le capacity, fun _ => rfl, List.prefix_refl []⟩

theorem send_accepted {value : α} (h : channel.send value = some (true, next)) :
    channel.receiving = true ∧ channel.buffered.length < channel.capacity ∧
      next = { channel with buffered := channel.buffered ++ [value] } := by
  unfold send at h
  split at h
  · cases h
  · rename_i hreceiving
    split at h
    · rename_i hroom
      cases h
      exact ⟨by simpa using hreceiving, hroom, rfl⟩
    · cases h

theorem send_refused {value : α} (h : channel.send value = some (false, next)) :
    channel.receiving = false ∧ next = channel := by
  unfold send at h
  split at h
  · rename_i hreceiving
    cases h
    exact ⟨by simpa using hreceiving, rfl⟩
  · split at h <;> cases h

/-- What the receiver may see, and when. -/
theorem receive_cases {result : Received α ε} (h : channel.receive = some (result, next)) :
    channel.receiving = true ∧
      ((∃ value rest, channel.buffered = value :: rest ∧ result = .value value ∧
          next = { channel with buffered := rest }) ∨
        channel.buffered = [] ∧ channel.sending = false ∧
          ((∃ error, channel.error = some error ∧ result = .failed error ∧
              next = { channel with error := none }) ∨
            channel.error = none ∧ result = .ended ∧ next = channel)) := by
  unfold receive at h
  split at h
  · cases h
  · rename_i hreceiving
    refine ⟨by simpa using hreceiving, ?_⟩
    split at h
    · rename_i value rest hbuffered
      cases h
      exact .inl ⟨value, rest, hbuffered, rfl, rfl⟩
    · rename_i hbuffered
      refine .inr ⟨hbuffered, ?_⟩
      split at h
      · cases h
      · rename_i hsending
        refine ⟨by simpa using hsending, ?_⟩
        split at h
        · rename_i error herror
          cases h
          exact .inl ⟨error, herror, rfl, rfl⟩
        · rename_i herror
          cases h
          exact .inr ⟨herror, rfl, rfl⟩

theorem Carries.send (h : channel.Carries sent received) {value : α}
    (hsend : channel.send value = some (true, next)) :
    next.Carries (sent ++ [value]) received := by
  obtain ⟨hreceiving, hroom, rfl⟩ := send_accepted hsend
  refine ⟨?_, fun _ => ?_, h.received_begins.trans (List.prefix_append sent [value])⟩
  · simp only [List.length_append, List.length_cons, List.length_nil]
    omega
  · rw [h.whole hreceiving, List.append_assoc]

theorem Carries.finish (h : channel.Carries sent received) (error : Option ε) :
    (channel.finish error).Carries sent received :=
  ⟨h.within, h.whole, h.received_begins⟩

theorem Carries.dropReceiver (h : channel.Carries sent received) :
    channel.dropReceiver.Carries sent received :=
  ⟨Nat.zero_le _, fun hreceiving => Bool.noConfusion hreceiving, h.received_begins⟩

theorem Carries.receive (h : channel.Carries sent received) {result : Received α ε}
    (hreceive : channel.receive = some (result, next)) :
    next.Carries sent (received ++ result.values) := by
  obtain ⟨hreceiving, hcase⟩ := receive_cases hreceive
  have hwhole := h.whole hreceiving
  have hwithin := h.within
  rcases hcase with ⟨value, rest, hbuffered, rfl, rfl⟩ | ⟨-, -, ⟨error, -, rfl, rfl⟩ | ⟨-, rfl, rfl⟩⟩
  · rw [hbuffered] at hwhole hwithin
    rw [List.length_cons] at hwithin
    refine ⟨Nat.le_of_succ_le hwithin, fun _ => ?_, ?_⟩
    · rw [hwhole, Received.values, List.append_assoc, List.singleton_append]
    · rw [hwhole, Received.values]
      exact (List.prefix_append_right_inj received).2 ⟨rest, rfl⟩
  · rw [Received.values, List.append_nil]
    exact ⟨h.within, h.whole, h.received_begins⟩
  · rw [Received.values, List.append_nil]
    exact h

end Channel

end Fluxcope.Library
