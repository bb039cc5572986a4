import Mathlib.Data.List.Infix
import Mathlib.Data.List.Range
/-!
# Occurrences and rings

The places where a pattern occurs in a text that grows at its end, and a ring that
holds the last elements of what it was given.
-/

namespace Fluxcope.Library

variable {α : Type*}

/-! ## Occurrences -/

theorem prefix_drop_last {pattern text : List α} {i : Nat}
    (hlength : i + pattern.length = text.length) :
    pattern <+: text.drop i ↔ pattern <:+ text := by
  have hdrop : (text.drop i).length = pattern.length := by
    rw [List.length_drop]
    omega
  constructor
  · intro h
    rw [h.eq_of_length hdrop.symm]
    exact List.drop_suffix i text
  · intro h
    rw [(List.suffix_of_suffix_length_le h (List.drop_suffix i text) (by omega)).eq_of_length
      hdrop.symm]

section Occurrences

variable [DecidableEq α]

/-- Where the pattern begins in the text, in order; occurrences may overlap. -/
def occurrences (pattern text : List α) : List Nat :=
  (List.range (text.length + 1 - pattern.length)).filter fun i => pattern <+: text.drop i

theorem mem_occurrences {pattern text : List α} {i : Nat} :
    i ∈ occurrences pattern text ↔
      i + pattern.length ≤ text.length ∧ pattern <+: text.drop i := by
  unfold occurrences
  rw [List.mem_filter, List.mem_range, decide_eq_true_eq]
  constructor
  · rintro ⟨hlt, hbegins⟩
    exact ⟨by omega, hbegins⟩
  · rintro ⟨hle, hbegins⟩
    exact ⟨by omega, hbegins⟩

/-- A further element ends at most one occurrence. -/
theorem occurrences_concat {pattern text : List α} (hpattern : pattern ≠ []) (c : α) :
    occurrences pattern (text ++ [c]) = occurrences pattern text ++
      if pattern <:+ text ++ [c] then [text.length + 1 - pattern.length] else [] := by
  have hpos : 0 < pattern.length := List.length_pos_iff.2 hpattern
  unfold occurrences
  rw [List.length_append, List.length_singleton]
  by_cases hfit : pattern.length ≤ text.length + 1
  · have hcount : text.length + 1 + 1 - pattern.length =
        text.length + 1 - pattern.length + 1 := by omega
    rw [hcount, List.range_succ, List.filter_append, List.filter_singleton]
    congr 1
    · refine List.filter_congr fun i hi => ?_
      rw [List.mem_range] at hi
      have hle : i ≤ text.length := by omega
      rw [List.drop_append_of_le_length hle, decide_eq_decide]
      constructor
      · intro h
        exact List.prefix_of_prefix_length_le h (List.prefix_append _ _)
          (by rw [List.length_drop]; omega)
      · intro h
        exact h.trans (List.prefix_append _ _)
    · have hlast := (@prefix_drop_last _ pattern (text ++ [c]) (text.length + 1 - pattern.length))
        (by rw [List.length_append, List.length_singleton]; omega)
      by_cases hends : pattern <:+ text ++ [c]
      · rw [if_pos hends, decide_eq_true (hlast.2 hends)]
        rfl
      · rw [if_neg hends, decide_eq_false fun h => hends (hlast.1 h)]
        rfl
  · have hnone : ¬ pattern <:+ text ++ [c] := by
      intro h
      have hlength := h.length_le
      rw [List.length_append, List.length_singleton] at hlength
      exact hfit hlength
    rw [if_neg hnone, Nat.sub_eq_zero_of_le (by omega), Nat.sub_eq_zero_of_le (by omega)]
    rfl

/-- The occurrences from a place on are those in what follows it. -/
theorem occurrences_drop {pattern text : List α} {start : Nat} (hstart : start ≤ text.length) :
    (occurrences pattern text).filter (fun i => start ≤ i) =
      (occurrences pattern (text.drop start)).map (start + ·) := by
  unfold occurrences
  rw [List.filter_filter, List.length_drop]
  by_cases hfew : text.length + 1 - pattern.length < start
  · have hnone : text.length - start + 1 - pattern.length = 0 := by omega
    rw [hnone, List.range_zero, List.filter_nil, List.map_nil]
    refine List.filter_eq_nil_iff.2 fun i hi => ?_
    have hlt := List.mem_range.1 hi
    simp only [Bool.and_eq_true, decide_eq_true_eq]
    omega
  · have hcount : text.length + 1 - pattern.length =
        start + (text.length - start + 1 - pattern.length) := by omega
    rw [hcount, List.range_add, List.filter_append]
    have hbefore : (List.range start).filter
        (fun i => decide (start ≤ i) && decide (pattern <+: text.drop i)) = [] := by
      refine List.filter_eq_nil_iff.2 fun i hi => ?_
      have hlt := List.mem_range.1 hi
      simp only [Bool.and_eq_true, decide_eq_true_eq]
      omega
    rw [hbefore, List.nil_append, List.filter_map]
    refine congrArg (List.map (start + ·)) (List.filter_congr fun i _ => ?_)
    simp [List.drop_drop]

theorem occurrences_sorted (pattern text : List α) : (occurrences pattern text).Pairwise (· < ·) :=
  List.pairwise_lt_range.filter _

/-- Where the pattern begins first. -/
def findFirst (pattern text : List α) : Option Nat := (occurrences pattern text).head?

end Occurrences

/-! ## Rings -/

/-- The ring holds the last elements of the history, and `next` is the place of the
next one. -/
structure Ring.Holds (ring : List α) (next : Nat) (history : List α) : Prop where
  next_eq : next = history.length % ring.length
  last : ∀ j, j < history.length → history.length ≤ j + ring.length →
    ring[j % ring.length]? = history[j]?

theorem Ring.Holds.start {ring : List α} : Ring.Holds ring 0 [] :=
  ⟨(Nat.zero_mod _).symm, fun j hj => absurd hj (Nat.not_lt_zero j)⟩

/-- Setting the place of the next element forgets the oldest one. -/
theorem Ring.Holds.push {ring history : List α} {next : Nat} (h : Ring.Holds ring next history)
    (hpos : 0 < ring.length) (a : α) :
    Ring.Holds (ring.set next a) ((next + 1) % (ring.set next a).length) (history ++ [a]) := by
  have hnext := h.next_eq
  have hlt : next < ring.length := by
    rw [hnext]
    exact Nat.mod_lt _ hpos
  rw [List.length_set]
  constructor
  · rw [hnext, List.length_append, List.length_singleton, List.length_set, Nat.mod_add_mod]
  · intro j hj hrecent
    rw [List.length_append, List.length_singleton] at hj hrecent
    rw [List.length_set] at hrecent ⊢
    by_cases hlast : j = history.length
    · subst hlast
      rw [← hnext, List.getElem?_set_self hlt, List.getElem?_append_right (Nat.le_refl _),
        Nat.sub_self]
      rfl
    · have hplace : next ≠ j % ring.length := by
        intro heq
        rw [hnext] at heq
        have hdiv : (history.length - j) % ring.length = 0 :=
          Nat.sub_mod_eq_zero_of_mod_eq heq
        have hsmall : history.length - j < ring.length := by omega
        rw [Nat.mod_eq_of_lt hsmall] at hdiv
        omega
      rw [List.getElem?_set_ne hplace, h.last j (by omega) (by omega),
        List.getElem?_append_left (by omega)]

/-- In a full ring the place of the next element is the place of the oldest one. -/
theorem Ring.Holds.oldest {ring history : List α} {next : Nat} (h : Ring.Holds ring next history)
    (hpos : 0 < ring.length) (hfull : ring.length ≤ history.length) :
    ring[next]? = history[history.length - ring.length]? := by
  have hold := h.last (history.length - ring.length) (by omega) (by omega)
  rwa [← Nat.mod_eq_sub_mod hfull, ← h.next_eq] at hold

end Fluxcope.Library
