import Fluxcope.Library.Window
/-!
# The capture change feed

Every change gets the next epoch; a ring keeps the last 4096 of them for the
subscribers, who read them one at a time.
-/

namespace Fluxcope.Capture

open Fluxcope.Library

def retainedChanges : Nat := 4096

/-- Sequence number of a capture; the publisher hands them out from 0. -/
abbrev CaptureSequence := Nat

inductive CaptureChangeKind
  | admitted
  | recordUpdated
  | retentionEviction
  | explicitDelete
  | clear
  deriving DecidableEq, Repr

/-- The kinds that end the membership of a capture in the store. -/
def CaptureChangeKind.isRemoval : CaptureChangeKind → Bool
  | .retentionEviction | .explicitDelete | .clear => true
  | .admitted | .recordUpdated => false

structure CaptureChange where
  epoch : Nat
  sequence : CaptureSequence
  revision : Nat
  kind : CaptureChangeKind
  deriving DecidableEq, Repr

inductive CaptureChangeError
  | gap (expectedEpoch oldestAvailableEpoch : Nat)
  deriving DecidableEq, Repr

structure CaptureChangeFeed where
  epoch : Nat := 0
  retained : List CaptureChange := []
  deriving DecidableEq, Repr

structure CaptureChangeSubscription where
  nextEpoch : Nat
  deriving DecidableEq, Repr

namespace CaptureChangeFeed

def subscribe (feed : CaptureChangeFeed) : CaptureChangeSubscription :=
  { nextEpoch := feed.epoch + 1 }

def publish (feed : CaptureChangeFeed) (sequence : CaptureSequence) (revision : Nat)
    (kind : CaptureChangeKind) : CaptureChangeFeed :=
  let epoch := feed.epoch + 1
  let change : CaptureChange := { epoch, sequence, revision, kind }
  let retained :=
    if feed.retained.length = retainedChanges then feed.retained.tail else feed.retained
  { epoch, retained := retained ++ [change] }

/-- `try_read`: the change the subscription needs next, if it was published. -/
def tryRead (feed : CaptureChangeFeed) (subscription : CaptureChangeSubscription) :
    Except CaptureChangeError (Option CaptureChange × CaptureChangeSubscription) :=
  match feed.retained.head? with
  | none => .ok (none, subscription)
  | some oldest =>
    if subscription.nextEpoch < oldest.epoch then
      .error (.gap subscription.nextEpoch oldest.epoch)
    else if subscription.nextEpoch > feed.epoch then .ok (none, subscription)
    else
      match feed.retained[subscription.nextEpoch - oldest.epoch]? with
      | none => .ok (none, subscription)
      | some change => .ok (some change, { nextEpoch := change.epoch + 1 })

/-! ## The feed as the tail of a history -/

/-- The epochs of a history count its changes. -/
def Numbered (history : List CaptureChange) : Prop :=
  ∀ i change, history[i]? = some change → change.epoch = i + 1

/-- The feed after the changes of `history` have been published. -/
structure Represents (feed : CaptureChangeFeed) (history : List CaptureChange) : Prop where
  epoch : feed.epoch = history.length
  retained : feed.retained = window retainedChanges history
  numbered : Numbered history

theorem represents_new : Represents {} [] := ⟨rfl, rfl, by simp [Numbered]⟩

theorem retainedChanges_pos : 0 < retainedChanges := by decide

theorem Represents.publish {feed : CaptureChangeFeed} {history : List CaptureChange}
    (h : Represents feed history) (sequence : CaptureSequence) (revision : Nat)
    (kind : CaptureChangeKind) :
    Represents (feed.publish sequence revision kind)
      (history ++ [{ epoch := feed.epoch + 1, sequence, revision, kind }]) where
  epoch := by simp [CaptureChangeFeed.publish, h.epoch]
  retained := by
    unfold CaptureChangeFeed.publish
    rw [h.retained]
    exact window_snoc retainedChanges_pos history _
  numbered := by
    intro i change hget
    rw [List.getElem?_append] at hget
    split at hget
    · exact h.numbered i change hget
    · obtain ⟨hlt, rfl⟩ := List.getElem?_eq_some_iff.1 hget
      simp only [List.length_singleton] at hlt
      simp only [List.getElem_singleton, h.epoch]
      omega

/-- What a read returns when the ring holds the last `ring` changes. -/
theorem tryRead_of_window {feed : CaptureChangeFeed} {history : List CaptureChange}
    {ring : Nat} (hring : 0 < ring) (hepoch : feed.epoch = history.length)
    (hretained : feed.retained = window ring history) (hnumbered : Numbered history)
    {subscription : CaptureChangeSubscription} (hnext : 0 < subscription.nextEpoch) :
    feed.tryRead subscription =
      if history.length < subscription.nextEpoch then .ok (none, subscription)
      else if subscription.nextEpoch ≤ history.length - ring then
        .error (.gap subscription.nextEpoch (history.length - ring + 1))
      else
        .ok (history[subscription.nextEpoch - 1]?,
          { nextEpoch := subscription.nextEpoch + 1 }) := by
  unfold tryRead
  cases hhead : feed.retained.head? with
  | none =>
    have hempty : history = [] := by
      rw [List.head?_eq_none_iff, hretained] at hhead
      exact (window_eq_nil_iff hring).1 hhead
    simp [hempty, hnext]
  | some oldest =>
    have hget : history[history.length - ring]? = some oldest := by
      rw [hretained, List.head?_eq_getElem?, getElem?_window] at hhead
      simpa using hhead
    have holdest := hnumbered _ _ hget
    obtain ⟨hlt, -⟩ := List.getElem?_eq_some_iff.1 hget
    simp only [holdest, hepoch, gt_iff_lt]
    by_cases hnew : history.length < subscription.nextEpoch
    · rw [if_neg (by omega), if_pos hnew, if_pos hnew]
    simp only [if_neg hnew]
    by_cases hgap : subscription.nextEpoch ≤ history.length - ring
    · rw [if_pos (by omega), if_pos hgap]
    · have hoffset : history.length - ring +
          (subscription.nextEpoch - (history.length - ring + 1)) =
            subscription.nextEpoch - 1 := by omega
      rw [if_neg (by omega), if_neg hgap, hretained, getElem?_window, hoffset]
      have hin : subscription.nextEpoch - 1 < history.length := by omega
      have hnumber := hnumbered _ _ (List.getElem?_eq_getElem hin)
      rw [List.getElem?_eq_getElem hin]
      simp only [hnumber]
      rw [show subscription.nextEpoch - 1 + 1 + 1 = subscription.nextEpoch + 1 by omega]

/-- A read: the next change of the history, nothing when all have been read, or
a gap when the ring has dropped the next one. -/
theorem tryRead_spec {feed : CaptureChangeFeed} {history : List CaptureChange}
    (h : Represents feed history) {subscription : CaptureChangeSubscription}
    (hnext : 0 < subscription.nextEpoch) :
    feed.tryRead subscription =
      if history.length < subscription.nextEpoch then .ok (none, subscription)
      else if subscription.nextEpoch ≤ history.length - retainedChanges then
        .error (.gap subscription.nextEpoch (history.length - retainedChanges + 1))
      else
        .ok (history[subscription.nextEpoch - 1]?,
          { nextEpoch := subscription.nextEpoch + 1 }) :=
  tryRead_of_window retainedChanges_pos h.epoch h.retained h.numbered hnext

end CaptureChangeFeed

end Fluxcope.Capture
