import Mathlib.Data.List.Infix
/-!
# Searching with a failure table

A pattern is searched in a text that is seen once, unit by unit.  The state is
the length of the longest prefix of the pattern that ends what was seen, and the
failure table says which prefix is left when the next unit does not continue it.
-/

namespace Fluxcope.Library.Kmp

variable {α : Type*}

/-- `k` is the longest of the prefixes shorter than `n` that end `text`. -/
structure LongestBelow (pattern : List α) (n : Nat) (text : List α) (k : Nat) : Prop where
  lt : k < n
  suffix : pattern.take k <:+ text
  longest : ∀ j < n, pattern.take j <:+ text → j ≤ k

/-- Entry `i` is the longest border of the prefix of length `i + 1`. -/
def IsTable (pattern : List α) (table : List Nat) : Prop :=
  ∀ i k, table[i]? = some k → LongestBelow pattern (i + 1) (pattern.take (i + 1)) k

/-! ## Prefixes that end a text -/

theorem take_succ_of_getElem? {pattern : List α} {i : Nat} {c : α} (h : pattern[i]? = some c) :
    pattern.take (i + 1) = pattern.take i ++ [c] := by
  rw [List.take_add_one, h, Option.toList_some]

theorem append_singleton_suffix_iff {left right : List α} {c d : α} :
    left ++ [c] <:+ right ++ [d] ↔ c = d ∧ left <:+ right := by
  rw [← List.reverse_prefix, List.reverse_append, List.reverse_append, List.reverse_singleton,
    List.reverse_singleton, List.singleton_append, List.singleton_append, List.cons_prefix_cons,
    List.reverse_prefix]

theorem take_succ_suffix_iff {pattern text : List α} {i : Nat} {c : α} (hi : i < pattern.length) :
    pattern.take (i + 1) <:+ text ++ [c] ↔ pattern[i]? = some c ∧ pattern.take i <:+ text := by
  rw [take_succ_of_getElem? (List.getElem?_eq_getElem hi), append_singleton_suffix_iff,
    List.getElem?_eq_getElem hi, Option.some.injEq]

theorem take_suffix_take {pattern text : List α} {i k : Nat} (hik : i ≤ k)
    (hi : pattern.take i <:+ text) (hk : pattern.take k <:+ text) :
    pattern.take i <:+ pattern.take k :=
  List.suffix_of_suffix_length_le hi hk (by simp only [List.length_take]; omega)

theorem LongestBelow.start {pattern : List α} {n : Nat} (hn : 0 < n) (hlen : n ≤ pattern.length) :
    LongestBelow pattern n [] 0 := by
  refine ⟨hn, List.nil_suffix, fun j hj hsuffix => ?_⟩
  have hlength := hsuffix.length_le
  simp only [List.length_take, List.length_nil] at hlength
  omega

/-! ## One unit -/

variable [DecidableEq α]

/-- The shorter prefixes in turn, until one is continued by `c`.  Each is shorter,
so the length of the first one is fuel enough. -/
def fallBack (pattern : List α) (failure : List Nat) (c : α) : Nat → Nat → Nat
  | 0, matched => matched
  | fuel + 1, matched =>
    if 0 < matched ∧ pattern[matched]? ≠ some c then
      fallBack pattern failure c fuel (failure[matched - 1]?.getD 0)
    else matched

def advance (pattern : List α) (failure : List Nat) (c : α) (matched : Nat) : Nat :=
  let matched := fallBack pattern failure c matched matched
  if pattern[matched]? = some c then matched + 1 else matched

/-- What the fallback stops at: the longest border that `c` continues. -/
structure Continued (pattern : List α) (c : α) (matched r : Nat) : Prop where
  le : r ≤ matched
  suffix : pattern.take r <:+ pattern.take matched
  continued : r = 0 ∨ pattern[r]? = some c
  longest : ∀ i ≤ matched, pattern.take i <:+ pattern.take matched → pattern[i]? = some c → i ≤ r

theorem fallBack_continued {pattern : List α} {failure : List Nat} {c : α} {fuel matched : Nat}
    (htable : IsTable pattern failure) (hmatched : matched ≤ failure.length)
    (hfuel : matched ≤ fuel) :
    Continued pattern c matched (fallBack pattern failure c fuel matched) := by
  induction fuel generalizing matched with
  | zero =>
    rw [fallBack]
    exact ⟨Nat.le_refl _, List.suffix_rfl, .inl (by omega), fun i hi _ _ => hi⟩
  | succ fuel ih =>
    rw [fallBack]
    split
    case isTrue hback =>
        obtain ⟨hpos, hmismatch⟩ := hback
        have hentry := List.getElem?_eq_getElem (show matched - 1 < failure.length by omega)
        generalize failure[matched - 1] = k at hentry
        have hborder := htable _ _ hentry
        rw [Nat.sub_add_cancel hpos] at hborder
        rw [hentry, Option.getD_some]
        have hk := hborder.lt
        have hrest := @ih k (by omega) (by omega)
        refine ⟨by have := hrest.le; omega, hrest.suffix.trans hborder.suffix, hrest.continued, ?_⟩
        intro i hi hsuffix hnext
        have hne : i ≠ matched := by
          rintro rfl
          exact hmismatch hnext
        have hik := hborder.longest i (by omega) hsuffix
        exact hrest.longest i hik (take_suffix_take hik hsuffix hborder.suffix) hnext
    case isFalse hstop =>
        refine ⟨Nat.le_refl _, List.suffix_rfl, ?_, fun i hi _ _ => hi⟩
        by_cases hpos : 0 < matched
        · exact .inr (Classical.not_not.1 fun hne => hstop ⟨hpos, hne⟩)
        · exact .inl (by omega)

/-- One unit of the text, for the prefixes up to the length `n`. -/
theorem advance_longest {pattern : List α} {failure : List Nat} {n k : Nat} {text : List α}
    (htable : IsTable pattern failure) (hk : k ≤ failure.length) (hn : n ≤ pattern.length)
    (h : LongestBelow pattern n text k) (c : α) :
    LongestBelow pattern (n + 1) (text ++ [c]) (advance pattern failure c k) := by
  have hfound := @fallBack_continued α _ pattern failure c k k htable hk (Nat.le_refl _)
  unfold advance
  generalize fallBack pattern failure c k k = r at hfound
  have hlt := h.lt
  have hle := hfound.le
  have hr : pattern.take r <:+ text := hfound.suffix.trans h.suffix
  -- A longer prefix that ends the text with `c` is a border of the old one, continued by `c`.
  have hbound : ∀ i, i < n → pattern.take (i + 1) <:+ text ++ [c] →
      pattern[i]? = some c ∧ i ≤ r := by
    intro i hi hsuffix
    obtain ⟨hnext, hends⟩ := (take_succ_suffix_iff (by omega)).1 hsuffix
    have hik := h.longest i hi hends
    exact ⟨hnext, hfound.longest i hik (take_suffix_take hik hends h.suffix) hnext⟩
  dsimp only
  split
  case isTrue hnext =>
      refine ⟨by omega, ?_, ?_⟩
      · exact (take_succ_suffix_iff (by omega)).2 ⟨hnext, hr⟩
      · intro j hj hsuffix
        cases j with
        | zero => omega
        | succ i =>
          have hi := (hbound i (by omega) hsuffix).2
          omega
  case isFalse hnext =>
      have hzero : r = 0 := hfound.continued.resolve_right hnext
      refine ⟨by omega, ?_, ?_⟩
      · rw [hzero, List.take_zero]
        exact List.nil_suffix
      · intro j hj hsuffix
        cases j with
        | zero => omega
        | succ i =>
          obtain ⟨hc, hi⟩ := hbound i (by omega) hsuffix
          obtain rfl : i = r := by omega
          exact absurd hc hnext

/-! ## The failure table -/

/-- The entries so far, and the prefix that ends what they are about. -/
def failureLoop (pattern : List α) : List α → Nat → List Nat → List Nat
  | [], _, failure => failure
  | c :: rest, matched, failure =>
    let matched := advance pattern failure c matched
    failureLoop pattern rest matched (failure ++ [matched])

def failureTable : List α → List Nat
  | [] => []
  | c :: rest => failureLoop (c :: rest) rest 0 [0]

theorem failureLoop_isTable {pattern rest : List α} {matched : Nat} {failure : List Nat}
    (htable : IsTable pattern failure) (hrest : pattern.drop failure.length = rest)
    (h : LongestBelow pattern failure.length (pattern.take failure.length) matched) :
    IsTable pattern (failureLoop pattern rest matched failure) ∧
      (failureLoop pattern rest matched failure).length = failure.length + rest.length := by
  induction rest generalizing matched failure with
  | nil => exact ⟨htable, by rw [failureLoop, List.length_nil, Nat.add_zero]⟩
  | cons c rest ih =>
    have hnext : pattern[failure.length]? = some c := by
      have hhead := congrArg List.head? hrest
      rwa [List.head?_drop, List.head?_cons] at hhead
    have hlt := (List.getElem?_eq_some_iff.1 hnext).1
    have hadvance := advance_longest htable (Nat.le_of_lt h.lt) (Nat.le_of_lt hlt) h c
    rw [← take_succ_of_getElem? hnext] at hadvance
    have hlength : (failure ++ [advance pattern failure c matched]).length = failure.length + 1 := by
      rw [List.length_append, List.length_singleton]
    have htotal : failure.length + (c :: rest).length =
        (failure ++ [advance pattern failure c matched]).length + rest.length := by
      rw [hlength, List.length_cons]
      omega
    rw [failureLoop, htotal]
    refine ih ?_ ?_ (by rw [hlength]; exact hadvance)
    · intro i k hi
      rcases Nat.lt_trichotomy i failure.length with hold | rfl | hbeyond
      · exact htable i k (by rwa [List.getElem?_append_left hold] at hi)
      · rw [List.getElem?_append_right (Nat.le_refl _), Nat.sub_self] at hi
        rw [← Option.some.inj hi]
        exact hadvance
      · rw [List.getElem?_eq_none (by omega)] at hi
        cases hi
    · rw [hlength, ← List.drop_drop, hrest, List.drop_one, List.tail_cons]

theorem failureTable_isTable (pattern : List α) :
    IsTable pattern (failureTable pattern) ∧ (failureTable pattern).length = pattern.length := by
  cases pattern with
  | nil => exact ⟨fun i k hi => (by cases hi), rfl⟩
  | cons c rest =>
    have hfirst : LongestBelow (c :: rest) 1 ((c :: rest).take 1) 0 :=
      ⟨Nat.one_pos, List.nil_suffix, fun j hj _ => by omega⟩
    have hloop := @failureLoop_isTable α _ (c :: rest) rest 0 [0]
      (fun i k hi => by
        cases i with
        | zero => cases hi; exact hfirst
        | succ i => cases hi)
      rfl hfirst
    refine ⟨hloop.1, hloop.2.trans ?_⟩
    rw [List.length_singleton, List.length_cons, Nat.add_comm]

/-! ## Whole matches -/

section Matches

variable {pattern text : List α} {k : Nat}

/-- The state after a unit is the whole pattern when it ends there. -/
theorem advance_eq_length_iff (h : LongestBelow pattern pattern.length text k) (c : α) :
    advance pattern (failureTable pattern) c k = pattern.length ↔ pattern <:+ text ++ [c] := by
  obtain ⟨htable, hlength⟩ := failureTable_isTable pattern
  have hk := h.lt
  have hnext := advance_longest htable (by omega) (Nat.le_refl _) h c
  constructor
  · intro hfull
    have hsuffix := hnext.suffix
    rwa [hfull, List.take_length] at hsuffix
  · intro hends
    have hge := hnext.longest pattern.length (Nat.lt_succ_self _) (by rwa [List.take_length])
    have hlt := hnext.lt
    omega

theorem advance_of_ne (h : LongestBelow pattern pattern.length text k) {c : α}
    (hne : advance pattern (failureTable pattern) c k ≠ pattern.length) :
    LongestBelow pattern pattern.length (text ++ [c])
      (advance pattern (failureTable pattern) c k) := by
  obtain ⟨htable, hlength⟩ := failureTable_isTable pattern
  have hk := h.lt
  have hnext := advance_longest htable (by omega) (Nat.le_refl _) h c
  have hlt := hnext.lt
  exact ⟨by omega, hnext.suffix, fun j hj => hnext.longest j (by omega)⟩

/-- After a whole match its longest border is left. -/
theorem advance_after_match (h : LongestBelow pattern pattern.length text k) {c : α}
    (hfull : advance pattern (failureTable pattern) c k = pattern.length) :
    LongestBelow pattern pattern.length (text ++ [c])
      ((failureTable pattern)[pattern.length - 1]?.getD 0) := by
  obtain ⟨htable, hlength⟩ := failureTable_isTable pattern
  have hk := h.lt
  have hentry := List.getElem?_eq_getElem
    (show pattern.length - 1 < (failureTable pattern).length by omega)
  have hborder := htable _ _ hentry
  rw [Nat.sub_add_cancel (by omega), List.take_length] at hborder
  rw [hentry, Option.getD_some]
  have hends := (advance_eq_length_iff h c).1 hfull
  refine ⟨hborder.lt, hborder.suffix.trans hends, fun j hj hsuffix => hborder.longest j hj ?_⟩
  exact List.suffix_of_suffix_length_le hsuffix hends (by rw [List.length_take]; omega)

end Matches

end Fluxcope.Library.Kmp
