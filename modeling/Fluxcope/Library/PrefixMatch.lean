import Mathlib.Data.List.Forall2
/-!
# Matching from the front

How far a list matches a list of tests from its front, element by element.
-/

namespace Fluxcope.Library

variable {α β : Type*}

/-- The number of leading elements that match. -/
def matchedPrefix (test : α → β → Bool) : List α → List β → Nat
  | a :: as, b :: bs => if test a b then matchedPrefix test as bs + 1 else 0
  | _, _ => 0

/-- All elements match, and none is missing. -/
def MatchesAll (test : α → β → Bool) (as : List α) (bs : List β) : Prop :=
  List.Forall₂ (fun a b => test a b = true) as bs

instance (test : α → β → Bool) (as : List α) (bs : List β) : Decidable (MatchesAll test as bs) :=
  inferInstanceAs (Decidable (List.Forall₂ _ as bs))

variable {test : α → β → Bool}

@[simp] theorem matchedPrefix_nil (as : List α) : matchedPrefix test as [] = 0 := by
  cases as <;> rfl

theorem matchedPrefix_le_length (as : List α) (bs : List β) :
    matchedPrefix test as bs ≤ bs.length := by
  induction as generalizing bs with
  | nil => exact Nat.zero_le _
  | cons a as ih =>
    cases bs with
    | nil => exact Nat.le_refl 0
    | cons b bs =>
      rw [matchedPrefix]
      split
      · exact Nat.succ_le_succ (ih bs)
      · exact Nat.zero_le _

/-- A further element counts if all before it matched. -/
theorem matchedPrefix_concat (as : List α) (bs : List β) (b : β) :
    matchedPrefix test as (bs ++ [b]) =
      if matchedPrefix test as bs = bs.length ∧ as[bs.length]?.any (fun a => test a b) = true then
        bs.length + 1
      else matchedPrefix test as bs := by
  induction as generalizing bs with
  | nil =>
    rw [if_neg (by simp)]
    cases bs <;> rfl
  | cons a as ih =>
    cases bs with
    | nil =>
      cases htest : test a b <;> simp [matchedPrefix, htest]
    | cons c bs =>
      rw [List.cons_append, matchedPrefix, matchedPrefix, ih bs, List.length_cons,
        List.getElem?_cons_succ]
      by_cases hc : test a c = true
      · simp only [if_pos hc, Nat.add_right_cancel_iff]
        split <;> rfl
      · rw [if_neg hc, if_neg hc, if_neg]
        exact fun h => absurd h.1 (Nat.succ_ne_zero _).symm

/-- What follows an element that does not match has no part in the prefix. -/
theorem matchedPrefix_append_of_ne {as : List α} {bs : List β}
    (h : matchedPrefix test as bs ≠ bs.length) (more : List β) :
    matchedPrefix test as (bs ++ more) = matchedPrefix test as bs := by
  induction as generalizing bs with
  | nil => cases bs <;> cases more <;> rfl
  | cons a as ih =>
    cases bs with
    | nil => exact absurd (matchedPrefix_nil (a :: as)) h
    | cons b bs =>
      rw [List.cons_append, matchedPrefix, matchedPrefix]
      by_cases hb : test a b = true
      · rw [matchedPrefix, if_pos hb, List.length_cons] at h
        rw [if_pos hb, if_pos hb, ih fun heq => h (congrArg Nat.succ heq)]
      · rw [if_neg hb, if_neg hb]

theorem matchesAll_iff {as : List α} {bs : List β} :
    MatchesAll test as bs ↔ bs.length = as.length ∧ matchedPrefix test as bs = as.length := by
  unfold MatchesAll
  induction as generalizing bs with
  | nil => cases bs <;> simp [matchedPrefix]
  | cons a as ih =>
    cases bs with
    | nil => simp
    | cons b bs =>
      rw [List.forall₂_cons, ih, matchedPrefix, List.length_cons, List.length_cons,
        Nat.add_right_cancel_iff]
      by_cases hb : test a b = true
      · rw [if_pos hb, Nat.add_right_cancel_iff]
        exact and_iff_right hb
      · rw [if_neg hb]
        exact ⟨fun h => absurd h.1 hb, fun h => absurd h.2 (Nat.succ_ne_zero _).symm⟩

/-- Nothing longer matches once an element did not, or the tests are used up. -/
theorem not_matchesAll_append {as : List α} {bs more : List β} (hmore : more ≠ [])
    (h : ¬ (matchedPrefix test as bs = bs.length ∧ bs.length < as.length)) :
    ¬ MatchesAll test as (bs ++ more) := by
  intro hmatches
  obtain ⟨hlength, hbegins⟩ := matchesAll_iff.1 hmatches
  have hpos := List.length_pos_iff.2 hmore
  rw [List.length_append] at hlength
  by_cases hfull : matchedPrefix test as bs = bs.length
  · exact h ⟨hfull, by omega⟩
  · rw [matchedPrefix_append_of_ne hfull] at hbegins
    have hle := (@matchedPrefix_le_length _ _ test) as bs
    omega

end Fluxcope.Library
