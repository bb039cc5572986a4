import Mathlib.Order.Lattice
import Mathlib.Algebra.Order.Ring.Nat
/-!
# 64-bit machine words as natural numbers

Sizes and counters are natural numbers.  Where the source asks for saturation
the operations below saturate at the largest 64-bit value; `saturating_sub` is
the truncated subtraction of `Nat`.
-/

namespace Fluxcope.Library

/-- The largest value of an unsigned 64-bit word. -/
def wordMax : Nat := 2 ^ 64 - 1

def satAdd (a b : Nat) : Nat := min (a + b) wordMax

def satMul (a b : Nat) : Nat := min (a * b) wordMax

/-- Subtraction of an atomic counter: it wraps when `b` exceeds the counter. -/
def wrapSub (a b : Nat) : Nat := if b ≤ a then a - b else a + (wordMax + 1) - b

theorem wrapSub_eq {a b : Nat} (h : b ≤ a) : wrapSub a b = a - b := if_pos h

theorem satAdd_eq {a b : Nat} (h : a + b ≤ wordMax) : satAdd a b = a + b :=
  min_eq_left h

theorem satMul_eq {a b : Nat} (h : a * b ≤ wordMax) : satMul a b = a * b :=
  min_eq_left h

theorem satAdd_le (a b : Nat) : satAdd a b ≤ a + b := min_le_left _ _

theorem satMul_le (a b : Nat) : satMul a b ≤ a * b := min_le_left _ _

theorem satAdd_le_wordMax (a b : Nat) : satAdd a b ≤ wordMax := min_le_right _ _

theorem le_satAdd_left {a b : Nat} (h : a ≤ wordMax) : a ≤ satAdd a b :=
  le_min (Nat.le_add_right a b) h

theorem satAdd_assoc (a b c : Nat) : satAdd (satAdd a b) c = satAdd a (satAdd b c) := by
  unfold satAdd
  omega

/-- Adding in two steps is adding the sum. -/
theorem satAdd_satAdd (a b c : Nat) : satAdd (satAdd a b) c = satAdd a (b + c) := by
  unfold satAdd
  omega

theorem satAdd_le_iff {a b c : Nat} (h : c < wordMax) : satAdd a b ≤ c ↔ a + b ≤ c := by
  unfold satAdd
  omega

end Fluxcope.Library
