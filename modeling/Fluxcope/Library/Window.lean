import Mathlib.Data.List.Basic
/-!
# The last elements of a growing history

A bounded buffer that drops its front when it is full always holds the last
elements of everything ever pushed.
-/

namespace Fluxcope.Library

variable {α : Type*}

/-- The last `n` elements of `history`, or all of them. -/
def window (n : Nat) (history : List α) : List α := history.drop (history.length - n)

@[simp] theorem length_window (n : Nat) (history : List α) :
    (window n history).length = min n history.length := by
  rw [window, List.length_drop]
  omega

theorem getElem?_window (n : Nat) (history : List α) (i : Nat) :
    (window n history)[i]? = history[history.length - n + i]? := by
  rw [window, List.getElem?_drop]

@[simp] theorem window_nil (n : Nat) : window n ([] : List α) = [] := by
  simp [window]

theorem window_eq_nil_iff {n : Nat} (hn : 0 < n) {history : List α} :
    window n history = [] ↔ history = [] := by
  rw [← List.length_eq_zero_iff, length_window, ← List.length_eq_zero_iff]
  omega

theorem mem_of_mem_window {n : Nat} {history : List α} {x : α}
    (h : x ∈ window n history) : x ∈ history :=
  List.mem_of_mem_drop h

/-- Pushing at the back, after dropping the front of a full buffer. -/
theorem window_snoc {n : Nat} (hn : 0 < n) (history : List α) (x : α) :
    (if (window n history).length = n then (window n history).tail
      else window n history) ++ [x] = window n (history ++ [x]) := by
  rw [length_window]
  unfold window
  rw [List.length_append, List.length_singleton]
  by_cases hfull : n ≤ history.length
  · rw [if_pos (by omega), List.tail_drop,
      show history.length + 1 - n = history.length - n + 1 by omega,
      List.drop_append_of_le_length (by omega)]
  · rw [if_neg (by omega), show history.length - n = 0 by omega,
      show history.length + 1 - n = 0 by omega, List.drop_zero, List.drop_zero]

theorem window_eq_self {n : Nat} {history : List α} (h : history.length ≤ n) :
    window n history = history := by
  rw [window, Nat.sub_eq_zero_of_le h, List.drop_zero]

theorem window_cons_of_le {n : Nat} {history : List α} (h : n ≤ history.length) (x : α) :
    window n (x :: history) = window n history := by
  unfold window
  rw [List.length_cons, Nat.succ_sub h, List.drop_succ_cons]

/-- Of a history whose first elements are the ones to drop, the last elements that stay
are the ones that stay of the last elements. -/
theorem filter_window {p : α → Bool} {history : List α}
    (hmono : history.Pairwise fun x y => p x = true → p y = true) (n : Nat) :
    (window n history).filter p = window n (history.filter p) := by
  induction history with
  | nil => simp
  | cons x history ih =>
    obtain ⟨hx, hrest⟩ := List.pairwise_cons.1 hmono
    by_cases hp : p x = true
    · have hall : ∀ y ∈ x :: history, p y = true := by
        intro y hy
        rcases List.mem_cons.1 hy with rfl | hy
        · exact hp
        · exact hx y hy hp
      rw [List.filter_eq_self.2 hall,
        List.filter_eq_self.2 fun y hy => hall y (mem_of_mem_window hy)]
    · rw [List.filter_cons_of_neg hp]
      by_cases hle : n ≤ history.length
      · rw [window_cons_of_le hle, ih hrest]
      · have hlength : (history.filter p).length ≤ history.length := List.length_filter_le p history
        rw [window_eq_self (by rw [List.length_cons]; omega), List.filter_cons_of_neg hp,
          window_eq_self (by omega)]

end Fluxcope.Library
