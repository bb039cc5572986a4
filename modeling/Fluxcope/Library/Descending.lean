import Mathlib.Data.List.Basic
/-!
# Resuming a scan of a descending list

A list with strictly descending keys is shown in portions.  The next portion
starts at an inclusive bound: the key of the first element not shown, or the
number before the key of the last element shown.
-/

namespace Fluxcope.Library

variable {α : Type*} {key : α → Nat}

/-- The elements with keys up to the bound. -/
def upTo (key : α → Nat) (bound : Nat) (xs : List α) : List α :=
  xs.filter fun x => key x ≤ bound

def Descending (key : α → Nat) (xs : List α) : Prop :=
  xs.Pairwise fun x y => key y < key x

theorem Descending.append_left {xs ys : List α} (h : Descending key (xs ++ ys)) :
    Descending key xs :=
  (List.pairwise_append.1 h).1

theorem Descending.upTo {xs : List α} (h : Descending key xs) (bound : Nat) :
    Descending key (upTo key bound xs) :=
  h.filter _

theorem mem_upTo {xs : List α} {bound : Nat} {x : α} :
    x ∈ upTo key bound xs ↔ x ∈ xs ∧ key x ≤ bound := by
  simp [upTo]

theorem upTo_upTo {low high : Nat} (h : low ≤ high) (xs : List α) :
    upTo key low (upTo key high xs) = upTo key low xs := by
  unfold upTo
  rw [List.filter_filter]
  apply List.filter_congr
  intro x _
  have hboth : (key x ≤ low ∧ key x ≤ high) ↔ key x ≤ low := by omega
  rw [← Bool.decide_and]
  simp only [hboth]

theorem upTo_of_forall_le {xs : List α} {bound : Nat} (h : ∀ x ∈ xs, key x ≤ bound) :
    upTo key bound xs = xs := by
  apply List.filter_eq_self.2
  intro x hx
  exact decide_eq_true (h x hx)

theorem upTo_append_of_lt {xs ys : List α} {bound : Nat} (hxs : ∀ x ∈ xs, bound < key x) :
    upTo key bound (xs ++ ys) = upTo key bound ys := by
  unfold upTo
  rw [List.filter_append, List.filter_eq_nil_iff.2, List.nil_append]
  intro x hx
  have hlt := hxs x hx
  simp only [decide_eq_true_eq]
  omega

/-- The bound separates what was shown from what is left. -/
theorem upTo_append {xs ys : List α} {bound : Nat} (hxs : ∀ x ∈ xs, bound < key x)
    (hys : ∀ y ∈ ys, key y ≤ bound) : upTo key bound (xs ++ ys) = ys := by
  rw [upTo_append_of_lt hxs, upTo_of_forall_le hys]

/-- Resuming at the first element that was not shown. -/
theorem Descending.upTo_head {xs ys : List α} {y : α} (h : Descending key (xs ++ y :: ys)) :
    Library.upTo key (key y) (xs ++ y :: ys) = y :: ys := by
  obtain ⟨-, hright, hcross⟩ := List.pairwise_append.1 h
  apply upTo_append
  · intro x hx
    exact hcross x hx y List.mem_cons_self
  · intro z hz
    rcases List.mem_cons.1 hz with rfl | hz
    · exact Nat.le_refl _
    · exact Nat.le_of_lt (List.rel_of_pairwise_cons hright hz)

/-- Resuming before the last element that was shown. -/
theorem Descending.upTo_before {xs ys : List α} {x : α} {bound : Nat}
    (h : Descending key (xs ++ ys)) (hlast : xs.getLast? = some x)
    (hkey : key x = bound + 1) : Library.upTo key bound (xs ++ ys) = ys := by
  obtain ⟨hleft, -, hcross⟩ := List.pairwise_append.1 h
  obtain ⟨init, rfl⟩ := List.getLast?_eq_some_iff.1 hlast
  apply upTo_append
  · intro z hz
    rcases List.mem_append.1 hz with hz | hz
    · have hlt := (List.pairwise_append.1 hleft).2.2 z hz x List.mem_cons_self
      omega
    · obtain rfl := List.mem_singleton.1 hz
      omega
  · intro y hy
    have hlt := hcross x (List.mem_append_right _ List.mem_cons_self) y hy
    omega

/-- Nothing is left below the key zero. -/
theorem Descending.eq_nil_of_key_zero {xs ys : List α} {x : α}
    (h : Descending key (xs ++ ys)) (hx : x ∈ xs) (hkey : key x = 0) : ys = [] := by
  cases ys with
  | nil => rfl
  | cons y ys =>
    have hlt := (List.pairwise_append.1 h).2.2 x hx y List.mem_cons_self
    omega

end Fluxcope.Library
