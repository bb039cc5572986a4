import Fluxcope.Capture.Change
import Fluxcope.Library.Run
/-!
# Runs of the change feed

Publishers and any number of subscribers take turns; the lock of the feed makes
each publication and each read one step.
-/

namespace Fluxcope.Capture

open Fluxcope.Library

/-- A subscriber with the epoch at which it came and the results of its reads. -/
structure FeedSubscriber where
  subscription : CaptureChangeSubscription
  start : Nat
  results : List (Except CaptureChangeError CaptureChange) := []
  deriving DecidableEq

structure FeedSystem where
  feed : CaptureChangeFeed := {}
  published : List CaptureChange := []
  subscribers : List FeedSubscriber := []
  deriving DecidableEq

inductive FeedAction
  | subscribe
  | publish (sequence : CaptureSequence) (revision : Nat) (kind : CaptureChangeKind)
  | tryRecv (subscriber : Nat)
  | recv (subscriber : Nat)
  deriving DecidableEq

/-- The subscriber after a read; `none` when there is nothing to read. -/
def FeedSubscriber.read (feed : CaptureChangeFeed) (subscriber : FeedSubscriber) :
    Option FeedSubscriber :=
  match feed.tryRead subscriber.subscription with
  | .error error => some { subscriber with results := subscriber.results ++ [.error error] }
  | .ok (some change, subscription) =>
    some { subscriber with subscription, results := subscriber.results ++ [.ok change] }
  | .ok (none, _) => none

namespace FeedSystem

def step (w : FeedSystem) : FeedAction → Option FeedSystem
  | .subscribe =>
    some { w with
      subscribers := w.subscribers ++ [{ subscription := w.feed.subscribe, start := w.feed.epoch }] }
  | .publish sequence revision kind =>
    some { w with
      feed := w.feed.publish sequence revision kind
      published := w.published ++ [{ epoch := w.feed.epoch + 1, sequence, revision, kind }] }
  | .tryRecv i =>
    w.subscribers[i]?.map fun subscriber =>
      { w with subscribers := w.subscribers.set i ((subscriber.read w.feed).getD subscriber) }
  -- `recv` waits for the next publication while there is nothing to read.
  | .recv i =>
    (w.subscribers[i]?.bind fun subscriber => subscriber.read w.feed).map fun subscriber =>
      { w with subscribers := w.subscribers.set i subscriber }

end FeedSystem

/-! ## What a subscriber has received -/

/-- The epoch was published, and is no longer in the ring. -/
def CaptureChangeFeed.Dropped (feed : CaptureChangeFeed) (epoch : Nat) : Prop :=
  epoch ≤ feed.epoch ∧ ∀ change ∈ feed.retained, change.epoch ≠ epoch

/-- The first `count` changes after the subscription in their order, and then gaps only. -/
structure FeedSubscriber.Received (published : List CaptureChange) (subscriber : FeedSubscriber)
    (count : Nat) : Prop where
  next : subscriber.subscription.nextEpoch = subscriber.start + count + 1
  within : subscriber.start + count ≤ published.length
  results : ∃ gaps, subscriber.results =
      ((published.drop subscriber.start).take count).map .ok ++ gaps ∧
    (∀ gap ∈ gaps, ∃ oldest, gap = .error (.gap (subscriber.start + count + 1) oldest)) ∧
    (gaps ≠ [] → subscriber.start + count < published.length - retainedChanges)

/-- The state of a run. -/
structure FeedSystem.Inv (w : FeedSystem) : Prop where
  represents : CaptureChangeFeed.Represents w.feed w.published
  received : ∀ (i : Nat) (subscriber : FeedSubscriber), w.subscribers[i]? = some subscriber →
    ∃ count, subscriber.Received w.published count

theorem FeedSubscriber.Received.publish {published : List CaptureChange}
    {subscriber : FeedSubscriber} {count : Nat} (h : subscriber.Received published count)
    (change : CaptureChange) : subscriber.Received (published ++ [change]) count := by
  obtain ⟨gaps, hresults, hgaps, hdropped⟩ := h.results
  have hwithin := h.within
  refine ⟨h.next, ?_, gaps, ?_, hgaps, fun hsome => ?_⟩
  · rw [List.length_append]
    omega
  · have hstart : subscriber.start ≤ published.length := by omega
    have hcount : count ≤ (published.drop subscriber.start).length := by
      rw [List.length_drop]
      omega
    rw [List.drop_append_of_le_length hstart, List.take_append_of_le_length hcount]
    exact hresults
  · have hlt := hdropped hsome
    rw [List.length_append]
    omega

/-- A read continues the changes, or adds a gap after the last of them. -/
theorem FeedSubscriber.Received.read {feed : CaptureChangeFeed} {published : List CaptureChange}
    (hfeed : CaptureChangeFeed.Represents feed published) {subscriber subscriber' : FeedSubscriber}
    {count : Nat} (h : subscriber.Received published count)
    (hread : subscriber.read feed = some subscriber') :
    ∃ count', subscriber'.Received published count' := by
  obtain ⟨gaps, hresults, hgaps, hdropped⟩ := h.results
  have hspec := @CaptureChangeFeed.tryRead_spec _ _ hfeed subscriber.subscription
    (by rw [h.next]; omega)
  rw [h.next] at hspec
  unfold FeedSubscriber.read at hread
  by_cases hall : published.length < subscriber.start + count + 1
  · rw [hspec, if_pos hall] at hread
    cases hread
  rw [if_neg hall] at hspec
  by_cases hgap : subscriber.start + count + 1 ≤ published.length - retainedChanges
  · -- The ring has dropped the change: one more gap.
    rw [hspec, if_pos hgap] at hread
    obtain rfl := Option.some.inj hread
    refine ⟨count, h.next, h.within, gaps ++ [.error (.gap (subscriber.start + count + 1)
      (published.length - retainedChanges + 1))], ?_, fun gap hmem => ?_, fun _ => hgap⟩
    · show subscriber.results ++ _ = _
      rw [hresults, List.append_assoc]
    · rcases List.mem_append.1 hmem with hmem | hmem
      · exact hgaps gap hmem
      · exact ⟨_, List.mem_singleton.1 hmem⟩
  · -- The ring still has the change, so that there was no gap before.
    have hnone : gaps = [] := by
      by_contra hsome
      have hlt := hdropped hsome
      omega
    have hin : subscriber.start + count < published.length := by omega
    rw [hspec, if_neg hgap, Nat.add_sub_cancel, List.getElem?_eq_getElem hin] at hread
    obtain rfl := Option.some.inj hread
    refine ⟨count + 1, ?_, ?_, [], ?_, fun gap hmem => absurd hmem List.not_mem_nil,
      fun hsome => absurd rfl hsome⟩
    · show subscriber.start + count + 1 + 1 = subscriber.start + (count + 1) + 1
      omega
    · show subscriber.start + (count + 1) ≤ published.length
      omega
    · have hnext : (published.drop subscriber.start)[count]? =
          some published[subscriber.start + count] := by
        rw [List.getElem?_drop, List.getElem?_eq_getElem hin]
      show subscriber.results ++ _ = _
      rw [hresults, hnone, List.append_nil, List.append_nil, List.take_add_one, hnext,
        List.map_append]
      rfl

theorem FeedSystem.Inv.set {w : FeedSystem} (h : w.Inv) {i : Nat} {subscriber : FeedSubscriber}
    (hreceived : ∃ count, subscriber.Received w.published count) :
    FeedSystem.Inv { w with subscribers := w.subscribers.set i subscriber } := by
  refine ⟨h.represents, fun j other hother => ?_⟩
  rcases List.mem_or_eq_of_mem_set (List.mem_of_getElem? hother) with hmem | rfl
  · obtain ⟨k, hk⟩ := List.mem_iff_getElem?.1 hmem
    exact h.received k other hk
  · exact hreceived

theorem FeedSystem.Inv.step {w w' : FeedSystem} {action : FeedAction} (h : w.Inv)
    (hstep : w.step action = some w') : w'.Inv := by
  cases action with
  | subscribe =>
    obtain rfl := Option.some.inj hstep
    refine ⟨h.represents, fun i subscriber hget => ?_⟩
    rcases List.mem_append.1 (List.mem_of_getElem? hget) with hmem | hmem
    · obtain ⟨k, hk⟩ := List.mem_iff_getElem?.1 hmem
      exact h.received k subscriber hk
    · obtain rfl := List.mem_singleton.1 hmem
      refine ⟨0, rfl, ?_, [], rfl, fun gap hmem => absurd hmem List.not_mem_nil,
        fun hsome => absurd rfl hsome⟩
      show w.feed.epoch + 0 ≤ w.published.length
      rw [h.represents.epoch]
      exact Nat.le_refl _
  | publish sequence revision kind =>
    obtain rfl := Option.some.inj hstep
    refine ⟨h.represents.publish sequence revision kind, fun i subscriber hget => ?_⟩
    obtain ⟨count, hreceived⟩ := h.received i subscriber hget
    exact ⟨count, hreceived.publish _⟩
  | tryRecv i =>
    obtain ⟨subscriber, hget, rfl⟩ := Option.map_eq_some_iff.1 hstep
    obtain ⟨count, hreceived⟩ := h.received i subscriber hget
    apply h.set
    cases hread : subscriber.read w.feed with
    | none => exact ⟨count, hreceived⟩
    | some subscriber' => exact hreceived.read h.represents hread
  | recv i =>
    obtain ⟨subscriber', hread, rfl⟩ := Option.map_eq_some_iff.1 hstep
    obtain ⟨subscriber, hget, hread⟩ := Option.bind_eq_some_iff.1 hread
    obtain ⟨count, hreceived⟩ := h.received i subscriber hget
    exact h.set (hreceived.read h.represents hread)

theorem FeedSystem.Inv.run {w : FeedSystem} {actions : List FeedAction}
    (hrun : Library.run FeedSystem.step {} actions = some w) : w.Inv :=
  run_invariant (fun _ _ _ h hstep => h.step hstep)
    ⟨CaptureChangeFeed.represents_new, fun _ _ hget => by cases hget⟩ hrun

/-! ## The ring and the next read -/

theorem CaptureChangeFeed.Represents.retained_epochs {feed : CaptureChangeFeed}
    {history : List CaptureChange} (h : Represents feed history) :
    feed.retained.map (·.epoch) =
      List.range' (feed.epoch + 1 - feed.retained.length) feed.retained.length := by
  apply List.ext_getElem?
  intro i
  rw [List.getElem?_map, h.retained, getElem?_window, length_window, h.epoch]
  by_cases hi : i < min retainedChanges history.length
  · have hin : history.length - retainedChanges + i < history.length := by omega
    have hnumber := h.numbered _ _ (List.getElem?_eq_getElem hin)
    rw [List.getElem?_eq_getElem hin, Option.map_some, hnumber, List.getElem?_range' hi]
    congr 1
    omega
  · have hout : history.length ≤ history.length - retainedChanges + i := by omega
    rw [List.getElem?_eq_none hout, Option.map_none, List.getElem?_eq_none]
    rw [List.length_range']
    omega

theorem CaptureChangeFeed.Represents.published_epochs {feed : CaptureChangeFeed}
    {history : List CaptureChange} (h : Represents feed history) :
    history.map (·.epoch) = List.range' 1 feed.epoch := by
  apply List.ext_getElem?
  intro i
  rw [List.getElem?_map, h.epoch]
  by_cases hi : i < history.length
  · have hnumber := h.numbered _ _ (List.getElem?_eq_getElem hi)
    rw [List.getElem?_eq_getElem hi, Option.map_some, hnumber, List.getElem?_range' hi]
    congr 1
    omega
  · rw [List.getElem?_eq_none (by omega), Option.map_none, List.getElem?_eq_none]
    rw [List.length_range']
    omega

/-- The ring has dropped what lies further back than its length. -/
theorem CaptureChangeFeed.Represents.dropped_iff {feed : CaptureChangeFeed}
    {history : List CaptureChange} (h : Represents feed history) {epoch : Nat} (hpos : 0 < epoch) :
    feed.Dropped epoch ↔ epoch ≤ history.length - retainedChanges := by
  unfold CaptureChangeFeed.Dropped
  rw [h.epoch]
  constructor
  · rintro ⟨hle, hnot⟩
    by_contra hkept
    have hin : epoch - 1 < history.length := by omega
    have hget := List.getElem?_eq_getElem hin
    refine hnot history[epoch - 1] ?_ ?_
    · have hoffset : history.length - retainedChanges +
          (epoch - 1 - (history.length - retainedChanges)) = epoch - 1 := by omega
      rw [h.retained]
      refine List.mem_of_getElem? (i := epoch - 1 - (history.length - retainedChanges)) ?_
      rw [getElem?_window, hoffset]
      exact hget
    · rw [h.numbered _ _ hget]
      omega
  · intro hle
    refine ⟨by omega, fun change hchange heq => ?_⟩
    rw [h.retained] at hchange
    obtain ⟨i, hi⟩ := List.mem_iff_getElem?.1 hchange
    rw [getElem?_window] at hi
    have hnumber := h.numbered _ _ hi
    omega

/-- What the subscriber gets next: a gap if the ring has dropped the change, the change
itself if it was published, and nothing when all have been received. -/
structure FeedSystem.Next (w : FeedSystem) (subscriber : FeedSubscriber) (count : Nat) : Prop where
  gap_iff : (∃ expected oldest, w.feed.tryRead subscriber.subscription =
    .error (.gap expected oldest)) ↔ w.feed.Dropped (subscriber.start + count + 1)
  change : ¬ w.feed.Dropped (subscriber.start + count + 1) →
    subscriber.start + count < w.feed.epoch → ∃ change,
      w.published[subscriber.start + count]? = some change ∧
      change.epoch = subscriber.start + count + 1 ∧
      w.feed.tryRead subscriber.subscription =
        .ok (some change, { nextEpoch := subscriber.start + count + 2 })
  done : subscriber.start + count = w.feed.epoch →
    w.feed.tryRead subscriber.subscription = .ok (none, subscriber.subscription)

theorem FeedSubscriber.Received.nextRead {w : FeedSystem} (hw : w.Inv) {subscriber : FeedSubscriber}
    {count : Nat} (h : subscriber.Received w.published count) : w.Next subscriber count := by
  have hspec := @CaptureChangeFeed.tryRead_spec _ _ hw.represents
    subscriber.subscription (by rw [h.next]; omega)
  have hdropped := hw.represents.dropped_iff (Nat.succ_pos (subscriber.start + count))
  have hepoch := hw.represents.epoch
  rw [h.next] at hspec
  refine ⟨?_, fun hkept hlt => ?_, fun hall => ?_⟩
  · rw [hdropped, hspec]
    constructor
    · rintro ⟨expected, oldest, hread⟩
      by_contra hkept
      rw [if_neg hkept] at hread
      split at hread <;> cases hread
    · intro hle
      rw [if_neg (by omega), if_pos hle]
      exact ⟨_, _, rfl⟩
  · rw [hdropped] at hkept
    have hin : subscriber.start + count < w.published.length := by omega
    have hget := List.getElem?_eq_getElem hin
    refine ⟨_, hget, hw.represents.numbered _ _ hget, ?_⟩
    rw [hspec, if_neg (by omega), if_neg hkept, Nat.add_sub_cancel, hget]
  · rw [hspec, if_pos (by omega)]

/-- The feed after any run: changes are numbered, the ring holds the epochs up to the latest
one without a hole, and every subscriber has received the changes after its subscription in
order, up to a gap that it gets exactly when the change it needs was dropped. -/
theorem feed_delivery {actions : List FeedAction} {w : FeedSystem}
    (hrun : run FeedSystem.step {} actions = some w) :
    w.feed.retained.map (·.epoch) =
        List.range' (w.feed.epoch + 1 - w.feed.retained.length) w.feed.retained.length ∧
      w.feed.retained.length = min retainedChanges w.feed.epoch ∧
      w.published.map (·.epoch) = List.range' 1 w.feed.epoch ∧
      ∀ (i : Nat) (subscriber : FeedSubscriber), w.subscribers[i]? = some subscriber →
        ∃ count, subscriber.Received w.published count ∧ w.Next subscriber count := by
  have hw := FeedSystem.Inv.run hrun
  refine ⟨hw.represents.retained_epochs, ?_, hw.represents.published_epochs,
    fun i subscriber hget => ?_⟩
  · rw [hw.represents.retained, length_window, hw.represents.epoch]
  · obtain ⟨count, hreceived⟩ := hw.received i subscriber hget
    exact ⟨count, hreceived, hreceived.nextRead hw⟩

theorem feed_delivery_sample :
    ∃ w, run FeedSystem.step {} [.publish 0 1 .admitted, .subscribe, .publish 0 2 .recordUpdated,
        .recv 0, .tryRecv 0] = some w ∧
      w.feed.retained.map (·.epoch) =
        List.range' (w.feed.epoch + 1 - w.feed.retained.length) w.feed.retained.length := by
  obtain ⟨w, hrun⟩ := Option.isSome_iff_exists.1 (show (run FeedSystem.step {}
    [.publish 0 1 .admitted, .subscribe, .publish 0 2 .recordUpdated, .recv 0, .tryRecv 0]).isSome =
      true by decide)
  exact ⟨w, hrun, (feed_delivery hrun).1⟩

end Fluxcope.Capture
