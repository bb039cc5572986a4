import Mathlib.Data.List.Basic
/-!
# Reading a sequence page by page

A page starts at an offset and names the offset of the next one.  The searches
look for the place of a cut near a given place.
-/

namespace Fluxcope.Library

/-! ## Slices and places of cuts -/

/-- The elements from `start` on and before `stop`; `none` out of range. -/
def slice? {α : Type*} (l : List α) (start stop : Nat) : Option (List α) :=
  if start ≤ stop ∧ stop ≤ l.length then some ((l.drop start).take (stop - start)) else none

theorem slice?_eq {α : Type*} {l : List α} {start stop : Nat} (hle : start ≤ stop)
    (hstop : stop ≤ l.length) : slice? l start stop = some ((l.drop start).take (stop - start)) :=
  if_pos ⟨hle, hstop⟩

/-- Steps back from `stop` to a place that satisfies `p`, and at most to `start`. -/
def lowerTo (p : Nat → Bool) (start : Nat) : Nat → Nat
  | 0 => 0
  | stop + 1 => if start < stop + 1 ∧ p (stop + 1) = false then lowerTo p start stop else stop + 1

/-- A good place behind `start` is not passed. -/
theorem lowerTo_spec {p : Nat → Bool} {start good stop : Nat} (hstart : start ≤ good)
    (hgood : p good = true) (hle : good ≤ stop) :
    good ≤ lowerTo p start stop ∧ lowerTo p start stop ≤ stop ∧
      p (lowerTo p start stop) = true := by
  induction stop with
  | zero =>
    obtain rfl : good = 0 := Nat.le_zero.1 hle
    exact ⟨Nat.le_refl _, Nat.le_refl _, hgood⟩
  | succ stop ih =>
    rw [lowerTo]
    by_cases hat : good = stop + 1
    · rw [if_neg (by rw [← hat, hgood]; simp)]
      rw [hat] at hgood
      exact ⟨hle, Nat.le_refl _, hgood⟩
    · split
      · obtain ⟨hge, hle', hp⟩ := ih (by omega)
        exact ⟨hge, by omega, hp⟩
      · rename_i hstop
        have hp : p (stop + 1) = true := by
          by_contra hnot
          exact hstop ⟨by omega, by simpa using hnot⟩
        exact ⟨hle, Nat.le_refl _, hp⟩

theorem find_reverse_range' {p : Nat → Bool} {first count place : Nat} (hfirst : first ≤ place)
    (hlt : place < first + count) (hplace : p place = true)
    (hnone : ∀ j, place < j → j < first + count → p j = false) :
    (List.range' first count).reverse.find? p = some place := by
  induction count with
  | zero => omega
  | succ count ih =>
    rw [List.range'_1_concat, List.reverse_append, List.reverse_singleton, List.singleton_append,
      List.find?_cons]
    by_cases hat : place = first + count
    · rw [← hat, hplace]
    · rw [hnone (first + count) (by omega) (by omega)]
      exact ih (by omega) fun j hj hj' => hnone j hj (by omega)

/-! ## Walks -/

section Walk

variable {ε π α : Type*} (page : Nat → Option (Except ε π)) (next : π → Option Nat)

/-- The pages that a reader gets who follows the offsets. -/
inductive PageWalk : Nat → List π → Prop
  | last {offset : Nat} {p : π} (hpage : page offset = some (.ok p)) (hnext : next p = none) :
      PageWalk offset [p]
  | turn {offset stop : Nat} {p : π} {pages : List π} (hpage : page offset = some (.ok p))
      (hnext : next p = some stop) (hrest : PageWalk stop pages) : PageWalk offset (p :: pages)

variable {page next}

/-- A page of the sequence: a piece that starts at the offset, and the place behind it
unless it is the end. -/
structure PageOf (content : π → List α) (next : π → Option Nat) (l : List α) (offset stop : Nat)
    (p : π) : Prop where
  start_le : offset ≤ stop
  stop_le : stop ≤ l.length
  content : content p = (l.drop offset).take (stop - offset)
  next : next p = if stop < l.length then some stop else none
  progress : stop < l.length → offset < stop

variable (page next) in
/-- Every place has a page that starts there and ends at a place.  It has at most `length`
elements, or it ends at the very next place. -/
def Paged (content : π → List α) (l : List α) (length : Nat) (Place : Nat → Prop)
    (Q : π → Prop) : Prop :=
  ∀ offset ≤ l.length, Place offset → ∃ p stop, page offset = some (.ok p) ∧
    PageOf content next l offset stop p ∧ Q p ∧ Place stop ∧
    (stop ≤ offset + length ∨ ∀ place, offset < place → place < stop → ¬ Place place)

/-- Following the offsets gives the sequence and comes to its end. -/
theorem pageWalk_complete {content : π → List α} {l : List α} {length : Nat} {Place : Nat → Prop}
    {Q : π → Prop} (hpaged : Paged page next content l length Place Q)
    {offset : Nat} (hplace : Place offset) (hle : offset ≤ l.length) :
    ∃ pages, PageWalk page next offset pages ∧ (pages.map content).flatten = l.drop offset ∧
      (∀ p ∈ pages, Q p) ∧ ∀ p ∈ pages.dropLast, content p ≠ [] := by
  generalize hleft : l.length - offset = left
  induction left using Nat.strongRecOn generalizing offset with
  | ind left ih =>
    obtain ⟨p, stop, hp, hof, hq, hstop, -⟩ := hpaged offset hle hplace
    by_cases hend : stop < l.length
    · have hprogress := hof.progress hend
      obtain ⟨pages, hwalk, hflatten, hall, hnonempty⟩ :=
        ih (l.length - stop) (by omega) hstop (Nat.le_of_lt hend) rfl
      have hpages : pages ≠ [] := by
        rintro rfl
        cases hwalk
      refine ⟨p :: pages, .turn hp (by rw [hof.next, if_pos hend]) hwalk, ?_, ?_, ?_⟩
      · have hdrop : l.drop stop = (l.drop offset).drop (stop - offset) := by
          rw [List.drop_drop, Nat.add_sub_of_le hof.start_le]
        rw [List.map_cons, List.flatten_cons, hflatten, hof.content, hdrop,
          List.take_append_drop]
      · intro p' hp'
        rcases List.mem_cons.1 hp' with rfl | hp'
        · exact hq
        · exact hall p' hp'
      · intro p' hp'
        rw [List.dropLast_cons_of_ne_nil hpages] at hp'
        rcases List.mem_cons.1 hp' with rfl | hp'
        · rw [hof.content]
          intro hnil
          have hlength := congrArg List.length hnil
          rw [List.length_take, List.length_drop, List.length_nil] at hlength
          omega
        · exact hnonempty p' hp'
    · have hlast : stop = l.length := Nat.le_antisymm hof.stop_le (Nat.le_of_not_lt hend)
      refine ⟨[p], .last hp (by rw [hof.next, if_neg hend]), ?_, ?_, by simp⟩
      · rw [List.map_singleton, List.flatten_singleton, hof.content, hlast]
        exact List.take_of_length_le (Nat.le_of_eq List.length_drop)
      · intro p' hp'
        rw [List.mem_singleton.1 hp']
        exact hq

end Walk

end Fluxcope.Library
