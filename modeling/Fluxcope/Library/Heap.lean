import Mathlib.Algebra.BigOperators.Group.List.Basic
import Mathlib.Algebra.Order.BigOperators.Group.List
import Mathlib.Algebra.Order.Ring.Nat
import Mathlib.Data.List.Perm.Subperm
import Mathlib.Data.Option.Basic
/-!
# Heaps as lists

A heap is the list of its cells; an address is an index.  Cells are updated in
place.  Two heaps are related pointwise when they have the same addresses and
related cells at each of them.
-/

namespace Fluxcope.Library

variable {α β : Type*} {R S : α → α → Prop} {h h' h'' : List α}

def Pointwise (R : α → α → Prop) (h h' : List α) : Prop :=
  ∀ i : Nat, Option.Rel R h[i]? h'[i]?

theorem Pointwise.refl (hR : ∀ x, R x x) (h : List α) : Pointwise R h h := by
  intro i
  cases h[i]? with
  | none => exact .none
  | some x => exact .some (hR x)

theorem Pointwise.trans (hR : ∀ x y z, R x y → R y z → R x z) (hleft : Pointwise R h h')
    (hright : Pointwise R h' h'') : Pointwise R h h'' := by
  intro i
  have hl := hleft i
  have hr := hright i
  revert hl hr
  cases h[i]? <;> cases h'[i]? <;> cases h''[i]? <;> intro hl hr <;> cases hl <;> cases hr
  · exact .none
  · rename_i hxy hyz
    exact .some (hR _ _ _ hxy hyz)

theorem Pointwise.imp (hRS : ∀ x y, R x y → S x y) (hrel : Pointwise R h h') :
    Pointwise S h h' := by
  intro i
  have hi := hrel i
  revert hi
  cases h[i]? <;> cases h'[i]? <;> intro hi <;> cases hi
  · exact .none
  · rename_i hxy
    exact .some (hRS _ _ hxy)

theorem Pointwise.get (hrel : Pointwise R h h') {i : Nat} {x : α} (hx : h[i]? = some x) :
    ∃ y, h'[i]? = some y ∧ R x y := by
  have hi := hrel i
  rw [hx] at hi
  revert hi
  cases h'[i]? <;> intro hi <;> cases hi
  rename_i y hxy
  exact ⟨y, rfl, hxy⟩

theorem Pointwise.get_right (hrel : Pointwise R h h') {i : Nat} {y : α}
    (hy : h'[i]? = some y) : ∃ x, h[i]? = some x ∧ R x y := by
  have hi := hrel i
  rw [hy] at hi
  revert hi
  cases h[i]? <;> intro hi <;> cases hi
  rename_i x hxy
  exact ⟨x, rfl, hxy⟩

theorem Pointwise.length_eq (hrel : Pointwise R h h') : h'.length = h.length := by
  refine le_antisymm (not_lt.1 fun hlt => ?_) (not_lt.1 fun hlt => ?_)
  · obtain ⟨x, hx, -⟩ := hrel.get_right (List.getElem?_eq_getElem hlt)
    rw [List.getElem?_eq_none le_rfl] at hx
    cases hx
  · obtain ⟨y, hy, -⟩ := hrel.get (List.getElem?_eq_getElem hlt)
    rw [List.getElem?_eq_none le_rfl] at hy
    cases hy

theorem Pointwise.map_eq {f : α → β} (hf : ∀ x y, R x y → f x = f y)
    (hrel : Pointwise R h h') : h.map f = h'.map f := by
  refine List.ext_getElem? fun i => ?_
  have hi := hrel i
  rw [List.getElem?_map, List.getElem?_map]
  revert hi
  cases h[i]? <;> cases h'[i]? <;> intro hi <;> cases hi
  · rfl
  · rename_i hxy
    simp [hf _ _ hxy]

theorem pointwise_modify {f : α → α} (hR : ∀ x, R x x) {i : Nat}
    (hf : ∀ x, h[i]? = some x → R x (f x)) : Pointwise R h (h.modify i f) := by
  intro j
  rw [List.getElem?_modify]
  by_cases hij : i = j
  · subst hij
    cases hx : h[i]? with
    | none => exact .none
    | some x => simpa using Option.Rel.some (hf x hx)
  · cases h[j]? with
    | none => exact .none
    | some x => simpa [hij] using Option.Rel.some (hR x)

theorem pointwise_set (hR : ∀ x, R x x) {i : Nat} {x y : α} (hx : h[i]? = some x)
    (hxy : R x y) : Pointwise R h (h.set i y) := by
  intro j
  obtain ⟨hi, -⟩ := List.getElem?_eq_some_iff.1 hx
  by_cases hij : i = j
  · subst hij
    rw [hx, List.getElem?_set_self hi]
    exact .some hxy
  · rw [List.getElem?_set_ne hij]
    cases h[j]? with
    | none => exact .none
    | some x => exact .some (hR x)

theorem getElem?_set_of_some {i j : Nat} {x y : α} (hx : h[i]? = some x) :
    (h.set i y)[j]? = if i = j then some y else h[j]? := by
  obtain ⟨hi, -⟩ := List.getElem?_eq_some_iff.1 hx
  split
  · rename_i hij
    rw [← hij, List.getElem?_set_self hi]
  · rename_i hij
    exact List.getElem?_set_ne hij

theorem getElem?_snoc {i : Nat} {x y : α} (hy : (h ++ [x])[i]? = some y) :
    h[i]? = some y ∨ i = h.length ∧ y = x := by
  rw [List.getElem?_append] at hy
  split at hy
  · exact .inl hy
  · obtain ⟨hlt, rfl⟩ := List.getElem?_eq_some_iff.1 hy
    rw [List.length_singleton] at hlt
    exact .inr ⟨by omega, by simp⟩

theorem map_modify_of_some (f : α → α) (g : α → β) {i : Nat} {x : α} (hx : h[i]? = some x) :
    (h.modify i f).map g = (h.map g).set i (g (f x)) := by
  refine List.ext_getElem? fun j => ?_
  rw [List.getElem?_map, List.getElem?_modify, List.getElem?_set, List.getElem?_map]
  by_cases hij : i = j
  · subst hij
    obtain ⟨hi, rfl⟩ := List.getElem?_eq_some_iff.1 hx
    simp [hi]
  · simp [hij]

theorem sum_map_set (f : α → Nat) {i : Nat} {x : α} (hx : h[i]? = some x) (y : α) :
    ((h.set i y).map f).sum + f x = (h.map f).sum + f y := by
  induction h generalizing i with
  | nil => simp at hx
  | cons z h ih =>
    cases i with
    | zero =>
      obtain rfl : z = x := by simpa using hx
      simp only [List.set_cons_zero, List.map_cons, List.sum_cons]
      omega
    | succ i =>
      have hrest := ih (i := i) (by simpa using hx)
      simp only [List.set_cons_succ, List.map_cons, List.sum_cons]
      omega

/-- Distinct addresses together hold at most what all cells hold. -/
theorem sum_addresses_le (f : α → Nat) {addresses : List Nat} (hnodup : addresses.Nodup)
    (hbound : ∀ i ∈ addresses, i < h.length) :
    (addresses.map fun i => (h[i]?.map f).getD 0).sum ≤ (h.map f).sum := by
  have hall : (List.range h.length).map (fun i => (h[i]?.map f).getD 0) = h.map f := by
    refine List.ext_getElem (by simp) fun i hi _ => ?_
    have hlt : i < h.length := by simpa using hi
    simp [List.getElem?_eq_getElem hlt]
  rw [← hall]
  obtain ⟨sorted, hperm, hsublist⟩ : List.Subperm addresses (List.range h.length) :=
    hnodup.subperm fun i hi => List.mem_range.2 (hbound i hi)
  rw [← (hperm.map fun i => (h[i]?.map f).getD 0).sum_eq]
  exact (hsublist.map _).sum_le_sum fun _ _ => Nat.zero_le _

end Fluxcope.Library
