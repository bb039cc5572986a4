import Mathlib.Data.List.Basic
/-!
# Lists with one element modified
-/

namespace Fluxcope.Library

variable {α β : Type*} {l : List α} {index : Nat} {f : α → α}

theorem mem_modify {b : α} (h : b ∈ l.modify index f) :
    b ∈ l ∨ ∃ a, l[index]? = some a ∧ b = f a := by
  obtain ⟨j, hj⟩ := List.mem_iff_getElem?.1 h
  by_cases hindex : index = j
  · subst hindex
    rw [List.getElem?_modify_eq] at hj
    obtain ⟨a, ha, rfl⟩ := Option.map_eq_some_iff.1 hj
    exact .inr ⟨a, ha, rfl⟩
  · rw [List.getElem?_modify_ne f l hindex] at hj
    exact .inl (List.mem_of_getElem? hj)

theorem modify_of_fixed (h : ∀ a, l[index]? = some a → f a = a) : l.modify index f = l := by
  apply List.ext_getElem?
  intro j
  by_cases hindex : index = j
  · subst hindex
    rw [List.getElem?_modify_eq]
    cases hget : l[index]? with
    | none => rfl
    | some a => exact congrArg some (h a hget)
  · exact List.getElem?_modify_ne f l hindex

theorem map_modify_of_kept (l : List α) (index : Nat) {g : α → β} (h : ∀ a, g (f a) = g a) :
    (l.modify index f).map g = l.map g := by
  apply List.ext_getElem?
  intro j
  rw [List.getElem?_map, List.getElem?_map]
  by_cases hindex : index = j
  · subst hindex
    rw [List.getElem?_modify_eq, Option.map_eq_map, Option.map_map]
    exact congrArg (fun k => l[index]?.map k) (funext h)
  · rw [List.getElem?_modify_ne f l hindex]

theorem map_modify_of_const (l : List α) (index : Nat) {g : α → β} {b : β}
    (h : ∀ a, g (f a) = b) : (l.modify index f).map g = (l.map g).set index b := by
  apply List.ext_getElem?
  intro j
  rw [List.getElem?_map]
  by_cases hindex : index = j
  · subst hindex
    rw [List.getElem?_modify_eq, Option.map_eq_map, Option.map_map, List.getElem?_set_self',
      List.getElem?_map, Option.map_eq_map, Option.map_map]
    exact congrArg (fun k => l[index]?.map k) (funext h)
  · rw [List.getElem?_modify_ne f l hindex, List.getElem?_set_ne hindex, List.getElem?_map]

theorem map_modify_of_getElem? (g : α → β) {a : α} (ha : l[index]? = some a) :
    (l.modify index f).map g = (l.map g).set index (g (f a)) := by
  apply List.ext_getElem?
  intro j
  rw [List.getElem?_map]
  by_cases hindex : index = j
  · subst hindex
    rw [List.getElem?_modify_eq, ha, List.getElem?_set_self', List.getElem?_map, ha]
    rfl
  · rw [List.getElem?_modify_ne f l hindex, List.getElem?_set_ne hindex, List.getElem?_map]

end Fluxcope.Library
