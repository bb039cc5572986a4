import Mathlib.Data.List.Flatten
import Mathlib.Data.List.Induction
import Mathlib.Data.List.Infix
import Mathlib.Order.MinMax
/-!
# Ranges of places

Half-open ranges that are joined where they touch, the places where the pieces of a
text begin, and the point at which a list stops to have a property.
-/

namespace Fluxcope.Library

variable {α : Type*}

/-- The places from `start` on, before `stop`. -/
structure Span where
  start : Nat
  stop : Nat
  deriving DecidableEq, Repr

namespace Span

def Contains (span : Span) (place : Nat) : Prop := span.start ≤ place ∧ place < span.stop

/-! ## Joining -/

/-- A span that begins in the last one or right behind it becomes a part of it. -/
def join (spans : List Span) (span : Span) : List Span :=
  match spans.getLast? with
  | none => spans ++ [span]
  | some previous =>
    if span.start ≤ previous.stop then
      spans.dropLast ++ [{ previous with stop := max previous.stop span.stop }]
    else spans ++ [span]

/-- The spans cover the given ones, and no two of them touch. -/
structure Joined (spans given : List Span) : Prop where
  apart : spans.Pairwise fun left right => left.stop < right.start
  proper : ∀ span ∈ spans, span.start < span.stop
  covers : ∀ place, (∃ span ∈ spans, span.Contains place) ↔ ∃ span ∈ given, span.Contains place
  starts : ∀ span ∈ spans, ∃ other ∈ given, span.start = other.start
  stops : ∀ span ∈ spans, ∃ other ∈ given, span.stop = other.stop

theorem joined_nil : Joined [] [] :=
  ⟨.nil, by simp, by simp, by simp, by simp⟩

theorem Joined.concat {spans given : List Span} (h : Joined spans given) {span : Span}
    (hspan : span.start < span.stop) (hapart : ∀ other ∈ spans, other.stop < span.start) :
    Joined (spans ++ [span]) (given ++ [span]) where
  apart := by
    refine List.pairwise_append.2 ⟨h.apart, List.pairwise_singleton _ _, ?_⟩
    intro other hother last hlast
    rw [List.mem_singleton.1 hlast]
    exact hapart other hother
  proper := by
    intro other hother
    rcases List.mem_append.1 hother with hother | hother
    · exact h.proper other hother
    · rwa [List.mem_singleton.1 hother]
  covers := by
    intro place
    have hcovers := h.covers place
    simp only [List.mem_append, List.mem_singleton, or_and_right, exists_or, exists_eq_left]
      at hcovers ⊢
    rw [hcovers]
  starts := by
    intro other hother
    rcases List.mem_append.1 hother with hother | hother
    · obtain ⟨from', hfrom, heq⟩ := h.starts other hother
      exact ⟨from', List.mem_append_left _ hfrom, heq⟩
    · exact ⟨span, List.mem_append_right _ List.mem_cons_self, by rw [List.mem_singleton.1 hother]⟩
  stops := by
    intro other hother
    rcases List.mem_append.1 hother with hother | hother
    · obtain ⟨from', hfrom, heq⟩ := h.stops other hother
      exact ⟨from', List.mem_append_left _ hfrom, heq⟩
    · exact ⟨span, List.mem_append_right _ List.mem_cons_self, by rw [List.mem_singleton.1 hother]⟩

/-- The last span grows by one that begins not before it and touches it. -/
theorem Joined.grow {spans given : List Span} {previous span : Span}
    (h : Joined (spans ++ [previous]) given) (hstart : previous.start ≤ span.start)
    (htouch : span.start ≤ previous.stop) :
    Joined (spans ++ [{ previous with stop := max previous.stop span.stop }])
      (given ++ [span]) where
  apart := by
    have hapart := List.pairwise_append.1 h.apart
    refine List.pairwise_append.2 ⟨hapart.1, List.pairwise_singleton _ _, ?_⟩
    intro other hother last hlast
    rw [List.mem_singleton.1 hlast]
    exact hapart.2.2 other hother previous List.mem_cons_self
  proper := by
    intro other hother
    rcases List.mem_append.1 hother with hother | hother
    · exact h.proper other (List.mem_append_left _ hother)
    · have hprevious := h.proper previous (List.mem_append_right _ List.mem_cons_self)
      rw [List.mem_singleton.1 hother]
      exact hprevious.trans_le (le_max_left _ _)
  covers := by
    intro place
    have hcovers := h.covers place
    have hgrown : Contains { previous with stop := max previous.stop span.stop } place ↔
        previous.Contains place ∨ span.Contains place := by
      unfold Contains
      dsimp only
      omega
    simp only [List.mem_append, List.mem_singleton, or_and_right, exists_or, exists_eq_left,
      hgrown] at hcovers ⊢
    rw [← hcovers, or_assoc]
  starts := by
    intro other hother
    have hold : ∀ old ∈ spans ++ [previous], ∃ o ∈ given ++ [span], old.start = o.start := by
      intro old hmem
      obtain ⟨o, ho, heq⟩ := h.starts old hmem
      exact ⟨o, List.mem_append_left _ ho, heq⟩
    rcases List.mem_append.1 hother with hother | hother
    · exact hold other (List.mem_append_left _ hother)
    · rw [List.mem_singleton.1 hother]
      exact hold previous (List.mem_append_right _ List.mem_cons_self)
  stops := by
    intro other hother
    have hold : ∀ old ∈ spans ++ [previous], ∃ o ∈ given ++ [span], old.stop = o.stop := by
      intro old hmem
      obtain ⟨o, ho, heq⟩ := h.stops old hmem
      exact ⟨o, List.mem_append_left _ ho, heq⟩
    rcases List.mem_append.1 hother with hother | hother
    · exact hold other (List.mem_append_left _ hother)
    · rw [List.mem_singleton.1 hother]
      rcases max_choice previous.stop span.stop with hmax | hmax
      · obtain ⟨o, ho, heq⟩ := hold previous (List.mem_append_right _ List.mem_cons_self)
        exact ⟨o, ho, hmax.trans heq⟩
      · exact ⟨span, List.mem_append_right _ List.mem_cons_self, hmax⟩

theorem Joined.join {spans given : List Span} (h : Joined spans given) {span : Span}
    (hspan : span.start < span.stop) (hlater : ∀ other ∈ given, other.start ≤ span.start) :
    Joined (join spans span) (given ++ [span]) := by
  rcases List.eq_nil_or_concat' spans with rfl | ⟨before, previous, rfl⟩
  · exact h.concat hspan fun other hother => (by cases hother)
  · unfold Span.join
    rw [List.getLast?_concat]
    dsimp only
    have hmem : previous ∈ before ++ [previous] := List.mem_append_right _ List.mem_cons_self
    split
    case isTrue htouch =>
      obtain ⟨other, hother, heq⟩ := h.starts previous hmem
      rw [List.dropLast_concat]
      exact h.grow (heq ▸ hlater other hother) htouch
    case isFalse htouch =>
      refine h.concat hspan fun other hother => ?_
      rcases List.mem_append.1 hother with hother | hother
      · have hbefore := (List.pairwise_append.1 h.apart).2.2 other hother previous
          List.mem_cons_self
        have hprevious := h.proper previous hmem
        omega
      · rw [List.mem_singleton.1 hother]
        omega

theorem Joined.eq_nil_iff {spans given : List Span} (h : Joined spans given)
    (hproper : ∀ span ∈ given, span.start < span.stop) : spans = [] ↔ given = [] := by
  constructor
  · rintro rfl
    refine List.eq_nil_iff_forall_not_mem.2 fun span hspan => ?_
    obtain ⟨other, hother, -⟩ :=
      (h.covers span.start).2 ⟨span, hspan, Nat.le_refl _, hproper span hspan⟩
    cases hother
  · rintro rfl
    refine List.eq_nil_iff_forall_not_mem.2 fun span hspan => ?_
    obtain ⟨other, hother, -⟩ := h.starts span hspan
    cases hother

/-- Spans that come in the order of their starts are joined one after the other. -/
theorem joined_foldl {given : List Span} (hproper : ∀ span ∈ given, span.start < span.stop)
    (hsorted : given.Pairwise fun left right => left.start ≤ right.start) :
    Joined (given.foldl join []) given := by
  induction given using List.reverseRecOn with
  | nil => exact joined_nil
  | append_singleton before span ih =>
    obtain ⟨hbefore, -, hlater⟩ := List.pairwise_append.1 hsorted
    rw [List.foldl_append]
    refine (ih (fun s hs => hproper s (List.mem_append_left _ hs)) hbefore).join
      (hproper span (List.mem_append_right _ List.mem_cons_self)) fun other hother => ?_
    exact hlater other hother span List.mem_cons_self

end Span

/-! ## Pieces -/

/-- Where the piece `k` begins in the text that the pieces make. -/
def offset (pieces : List (List α)) (k : Nat) : Nat := (pieces.take k).flatten.length

@[simp] theorem offset_zero (pieces : List (List α)) : offset pieces 0 = 0 := rfl

@[simp] theorem offset_cons (piece : List α) (pieces : List (List α)) (k : Nat) :
    offset (piece :: pieces) (k + 1) = piece.length + offset pieces k := by
  unfold offset
  rw [List.take_succ_cons, List.flatten_cons, List.length_append]

theorem offset_length (pieces : List (List α)) :
    offset pieces pieces.length = pieces.flatten.length := by
  unfold offset
  rw [List.take_length]

theorem offset_mono (pieces : List (List α)) {j k : Nat} (h : j ≤ k) :
    offset pieces j ≤ offset pieces k := by
  obtain ⟨rest, hrest⟩ : pieces.take j <+: pieces.take k := List.take_prefix_take_left h
  unfold offset
  rw [← hrest, List.flatten_append, List.length_append]
  exact Nat.le_add_right _ _

theorem offset_lt {pieces : List (List α)} (hne : ∀ piece ∈ pieces, piece ≠ []) {k : Nat}
    (hk : k < pieces.length) : offset pieces k < offset pieces (k + 1) := by
  unfold offset
  rw [List.take_succ_eq_append_getElem hk, List.flatten_append, List.length_append]
  have hpos := List.length_pos_iff.2 (hne _ (List.getElem_mem hk))
  simpa using hpos

/-- A place from the piece `first` on, before the piece `last`, lies in one between them. -/
theorem exists_piece (pieces : List (List α)) {first last place : Nat} (h : first ≤ last) :
    offset pieces first ≤ place ∧ place < offset pieces last ↔
      ∃ k, first ≤ k ∧ k < last ∧ offset pieces k ≤ place ∧ place < offset pieces (k + 1) := by
  constructor
  · rintro ⟨hge, hlt⟩
    induction last, h using Nat.le_induction with
    | base => omega
    | succ last hle ih =>
      by_cases hbefore : place < offset pieces last
      · obtain ⟨k, hfirst, hlast, hin⟩ := ih hbefore
        exact ⟨k, hfirst, hlast.trans (Nat.lt_succ_self _), hin⟩
      · exact ⟨last, hle, Nat.lt_succ_self _, Nat.le_of_not_lt hbefore, hlt⟩
  · rintro ⟨k, hfirst, hlast, hge, hlt⟩
    exact ⟨(offset_mono pieces hfirst).trans hge, hlt.trans_le (offset_mono pieces hlast)⟩

/-! ## Partition points -/

/-- How many elements have the property before the first that does not. -/
def partitionPoint (p : α → Bool) (xs : List α) : Nat := (xs.takeWhile p).length

/-- Where an element has the property only if those before it do, the point parts them. -/
theorem lt_partitionPoint {p : α → Bool} {xs : List α}
    (h : xs.Pairwise fun left right => p right = true → p left = true) {k : Nat} :
    k < partitionPoint p xs ↔ ∃ x, xs[k]? = some x ∧ p x = true := by
  unfold partitionPoint
  induction xs generalizing k with
  | nil => simp
  | cons x xs ih =>
    obtain ⟨hx, hxs⟩ := List.pairwise_cons.1 h
    cases hp : p x with
    | true =>
      rw [List.takeWhile_cons_of_pos hp, List.length_cons]
      cases k with
      | zero => simp [hp]
      | succ k =>
        rw [Nat.add_lt_add_iff_right, ih hxs, List.getElem?_cons_succ]
    | false =>
      rw [List.takeWhile_cons_of_neg (by simp [hp])]
      refine iff_of_false (Nat.not_lt_zero k) ?_
      rintro ⟨y, hy, hpy⟩
      cases k with
      | zero =>
        cases hy
        rw [hp] at hpy
        cases hpy
      | succ k =>
        rw [hx y (List.mem_of_getElem? hy) hpy] at hp
        cases hp

end Fluxcope.Library
