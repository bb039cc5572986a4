import Mathlib.Algebra.BigOperators.Group.List.Lemmas
import Mathlib.Algebra.Order.Ring.Nat
/-!
# The longest prefix within a budget

Each part of a list has a cost.  A prefix within the budget is the longest when every
other prefix within the budget is a prefix of it.
-/

namespace Fluxcope.Library

variable {α : Type} {cost : α → Nat} {budget : Nat}

structure IsLongestPrefix (cost : α → Nat) (budget : Nat) (kept all : List α) : Prop where
  isPrefix : kept <+: all
  cost_le : (kept.map cost).sum ≤ budget
  longest : ∀ other, other <+: all → (other.map cost).sum ≤ budget → other <+: kept

theorem sum_map_le_of_isPrefix {short long : List α} (h : short <+: long) :
    (short.map cost).sum ≤ (long.map cost).sum := by
  obtain ⟨rest, rfl⟩ := h
  rw [List.map_append, List.sum_append]
  exact Nat.le_add_right _ _

namespace IsLongestPrefix

/-- What is within the budget is its own longest prefix. -/
theorem self {all : List α} (h : (all.map cost).sum ≤ budget) :
    IsLongestPrefix cost budget all all :=
  ⟨List.prefix_rfl, h, fun _ hother _ => hother⟩

/-- Behind a part that goes over the budget nothing is gained. -/
theorem append {kept done rest : List α} {part : α} (h : IsLongestPrefix cost budget kept done)
    (hover : budget < ((done ++ [part]).map cost).sum) :
    IsLongestPrefix cost budget kept (done ++ part :: rest) where
  isPrefix := h.isPrefix.trans (List.prefix_append done (part :: rest))
  cost_le := h.cost_le
  longest other hother hcost := by
    by_cases hlength : other.length ≤ done.length
    · exact h.longest other
        (List.prefix_of_prefix_length_le hother (List.prefix_append done _) hlength) hcost
    · have hpart : done ++ [part] <+: done ++ part :: rest := ⟨rest, by simp⟩
      have hbeyond : done ++ [part] <+: other :=
        List.prefix_of_prefix_length_le hpart hother (by
          rw [List.length_append, List.length_singleton]
          omega)
      have hle := @sum_map_le_of_isPrefix _ cost _ _ hbeyond
      omega

end IsLongestPrefix

end Fluxcope.Library
