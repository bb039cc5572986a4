import Mathlib.Data.List.Basic
/-!
# Rotated slots

Slot `0` is written to; a rotation moves each slot up by one, and the last one is lost.
A rotation that stops half way leaves an empty slot where it stopped.
-/

namespace Fluxcope.Library.Rotation

variable {α : Type*} {gap last : Nat} {slots after : Nat → Option (List α)}

/-- What the slots hold up to `last`, from the last one, which is the oldest, to the first. -/
def stacked (slots : Nat → Option (List α)) : Nat → List α
  | 0 => (slots 0).getD []
  | last + 1 => (slots (last + 1)).getD [] ++ stacked slots last

/-- An empty slot holds as much as one that is not there. -/
theorem stacked_congr (h : ∀ i, i ≤ last → (after i).getD [] = (slots i).getD []) :
    stacked after last = stacked slots last := by
  induction last with
  | zero => exact h 0 (Nat.le_refl 0)
  | succ last ih =>
    rw [stacked, stacked, h (last + 1) (Nat.le_refl _), ih fun i hi => h i (by omega)]

/-- More at the end of the first slot is more at the end. -/
theorem stacked_append {more : List α} (hfirst : (after 0).getD [] = (slots 0).getD [] ++ more)
    (h : ∀ i, 0 < i → after i = slots i) (last : Nat) :
    stacked after last = stacked slots last ++ more := by
  induction last with
  | zero => exact hfirst
  | succ last ih =>
    rw [stacked, stacked, h (last + 1) (Nat.succ_pos last), ih, List.append_assoc]

/-- The slots from `gap` up to `last` have moved up by one. -/
structure Shifted (gap last : Nat) (slots after : Nat → Option (List α)) : Prop where
  gap_le : gap ≤ last
  below : ∀ i, i < gap → after i = slots i
  vacated : after gap = none
  moved : ∀ i, gap ≤ i → i < last → after (i + 1) = slots i
  above : ∀ i, last < i → after i = slots i

/-- Only what the last slot held is lost, and the rest is in the same order. -/
theorem Shifted.stacked (h : Shifted gap last slots after) :
    stacked slots last = (slots last).getD [] ++ stacked after last := by
  have hpart : ∀ n, gap ≤ n → n ≤ last →
      Rotation.stacked slots n = (slots n).getD [] ++ Rotation.stacked after n := by
    intro n
    induction n with
    | zero =>
      intro hgap _
      obtain rfl : gap = 0 := Nat.le_zero.1 hgap
      rw [Rotation.stacked, Rotation.stacked, h.vacated, Option.getD_none, List.append_nil]
    | succ n ih =>
      intro hgap hlast
      rw [Rotation.stacked, Rotation.stacked]
      rcases Nat.lt_or_eq_of_le hgap with hlt | rfl
      · rw [h.moved n (by omega) (by omega), ih (by omega) (by omega)]
      · have hsame : Rotation.stacked after n = Rotation.stacked slots n :=
          stacked_congr fun i hi => by rw [h.below i (by omega)]
        rw [h.vacated, Option.getD_none, List.nil_append, hsame]
  exact hpart last h.gap_le (Nat.le_refl last)

/-- Nothing is made up. -/
theorem Shifted.exists_before (h : Shifted gap last slots after) {i : Nat} {content : List α}
    (hi : after i = some content) : ∃ j, j ≤ i ∧ slots j = some content := by
  by_cases hbelow : i < gap
  · exact ⟨i, Nat.le_refl i, (h.below i hbelow).symm.trans hi⟩
  · by_cases habove : last < i
    · exact ⟨i, Nat.le_refl i, (h.above i habove).symm.trans hi⟩
    · rcases Nat.eq_or_lt_of_le (Nat.le_of_not_lt hbelow) with rfl | hgap
      · rw [h.vacated] at hi
        cases hi
      · obtain ⟨j, rfl⟩ : ∃ j, i = j + 1 := ⟨i - 1, by omega⟩
        exact ⟨j, Nat.le_succ j, (h.moved j (by omega) (by omega)).symm.trans hi⟩

/-- The last slot is emptied first. -/
theorem shifted_last (hlast : after last = none) (h : ∀ i, i ≠ last → after i = slots i) :
    Shifted last last slots after where
  gap_le := Nat.le_refl last
  below i hi := h i (Nat.ne_of_lt hi)
  vacated := hlast
  moved _ hgap hi := absurd hi (Nat.not_lt.2 hgap)
  above i hi := h i (Nat.ne_of_gt hi)

/-- The slot in front of the gap is moved into it. -/
theorem Shifted.next {next : Nat → Option (List α)} (h : Shifted (gap + 1) last slots after)
    (hmoved : next (gap + 1) = after gap) (hvacated : next gap = none)
    (hrest : ∀ i, i ≠ gap → i ≠ gap + 1 → next i = after i) : Shifted gap last slots next where
  gap_le := Nat.le_of_succ_le h.gap_le
  below i hi := (hrest i (by omega) (by omega)).trans (h.below i (by omega))
  vacated := hvacated
  moved i hgap hi := by
    rcases Nat.eq_or_lt_of_le hgap with rfl | hlt
    · rw [hmoved, h.below gap (Nat.lt_succ_self gap)]
    · rw [hrest (i + 1) (by omega) (by omega), h.moved i hlt hi]
  above i hi := (hrest i (by have := h.gap_le; omega) (by have := h.gap_le; omega)).trans
    (h.above i hi)

end Fluxcope.Library.Rotation
