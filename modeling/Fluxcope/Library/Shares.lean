import Mathlib.Algebra.BigOperators.Group.List.Basic
import Mathlib.Algebra.Order.BigOperators.Group.List
import Mathlib.Algebra.Order.Ring.Nat
/-!
# Shares

What the members of a list hold of something, added up.  A change of one member
changes the total by as much.
-/

namespace Fluxcope.Library

variable {α : Type*} {f g : α → Nat} {members : List α} {i j : Nat} {a b : α}

def total (f : α → Nat) (members : List α) : Nat := (members.map f).sum

@[simp] theorem total_nil (f : α → Nat) : total f [] = 0 := rfl

@[simp] theorem total_cons (f : α → Nat) (a : α) (members : List α) :
    total f (a :: members) = f a + total f members := by
  simp [total]

@[simp] theorem total_append (f : α → Nat) (members more : List α) :
    total f (members ++ more) = total f members + total f more := by
  simp [total]

theorem total_set (hget : members[i]? = some a) (f : α → Nat) (b : α) :
    total f (members.set i b) + f a = total f members + f b := by
  induction members generalizing i with
  | nil => cases hget
  | cons c rest ih =>
    cases i with
    | zero =>
      obtain rfl : c = a := Option.some.inj hget
      rw [List.set_cons_zero, total_cons, total_cons]
      omega
    | succ i =>
      rw [List.set_cons_succ, total_cons, total_cons]
      have hrest := ih hget
      omega

theorem total_eraseIdx (hget : members[i]? = some a) (f : α → Nat) :
    total f (members.eraseIdx i) + f a = total f members := by
  induction members generalizing i with
  | nil => cases hget
  | cons c rest ih =>
    cases i with
    | zero =>
      obtain rfl : c = a := Option.some.inj hget
      rw [List.eraseIdx_cons_zero, total_cons]
      omega
    | succ i =>
      rw [List.eraseIdx_cons_succ, total_cons, total_cons]
      have hrest := ih hget
      omega

theorem total_map {β : Type*} (f : α → Nat) (g : β → α) (members : List β) :
    total f (members.map g) = total (fun b => f (g b)) members := by
  rw [total, total, List.map_map]
  rfl

theorem le_total (hget : members[i]? = some a) (f : α → Nat) : f a ≤ total f members :=
  List.single_le_sum (fun _ _ => Nat.zero_le _) _
    (List.mem_map_of_mem (List.mem_of_getElem? hget))

theorem exists_of_total_pos (h : 0 < total f members) :
    ∃ (i : Nat) (a : α), members[i]? = some a ∧ 0 < f a := by
  induction members with
  | nil => cases h
  | cons b rest ih =>
    rw [total_cons] at h
    by_cases hb : 0 < f b
    · exact ⟨0, b, rfl, hb⟩
    · obtain ⟨i, a, hget, hpos⟩ := ih (by omega)
      exact ⟨i + 1, a, hget, hpos⟩

/-- Two members hold no more than all. -/
theorem add_le_total (hi : members[i]? = some a) (hj : members[j]? = some b) (hne : i ≠ j)
    (f : α → Nat) : f a + f b ≤ total f members := by
  induction members generalizing i j with
  | nil => cases hi
  | cons c rest ih =>
    rw [total_cons]
    cases i with
    | zero =>
      cases j with
      | zero => exact absurd rfl hne
      | succ j =>
        obtain rfl : c = a := Option.some.inj hi
        exact Nat.add_le_add_left (le_total (List.getElem?_cons_succ ▸ hj) f) (f c)
    | succ i =>
      cases j with
      | zero =>
        obtain rfl : c = b := Option.some.inj hj
        rw [Nat.add_comm]
        exact Nat.add_le_add_left (le_total (List.getElem?_cons_succ ▸ hi) f) (f c)
      | succ j =>
        have hrest := ih (List.getElem?_cons_succ ▸ hi) (List.getElem?_cons_succ ▸ hj)
          fun h => hne (congrArg Nat.succ h)
        exact hrest.trans (Nat.le_add_left _ _)

theorem total_le_total (h : ∀ a ∈ members, f a ≤ g a) : total f members ≤ total g members := by
  induction members with
  | nil => exact Nat.le_refl 0
  | cons a rest ih =>
    rw [total_cons, total_cons]
    exact Nat.add_le_add (h a List.mem_cons_self) (ih fun b hb => h b (List.mem_cons_of_mem a hb))

end Fluxcope.Library
