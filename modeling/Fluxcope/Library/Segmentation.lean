import Fluxcope.Library.Text
import Mathlib.Order.Bounds.Defs
/-!
# Segmentation of texts

A segmentation cuts texts into pieces.  The pieces may depend on what stands around
them, but a text that is cut at a boundary keeps its boundaries on both sides.
-/

namespace Fluxcope.Library

/-- The pieces are the text, and none is empty. -/
structure CutsTexts (pieces : Text → List Text) : Prop where
  flatten : ∀ text, (pieces text).flatten = text
  nonempty : ∀ text, ∀ piece ∈ pieces text, piece ≠ []

structure Segmentation (pieces : Text → List Text) : Prop extends CutsTexts pieces where
  cut : ∀ text before after, pieces text = before ++ after →
    pieces before.flatten = before ∧ pieces after.flatten = after

/-- The pieces with the byte offsets where they begin. -/
def indicesFrom (start : Nat) : List Text → List (Nat × Text)
  | [] => []
  | piece :: pieces => (start, piece) :: indicesFrom (start + Text.utf8Len piece) pieces

/-- A byte offset between two pieces, or at an end of the text. -/
def IsPieceBoundary (pieces : Text → List Text) (text : Text) (offset : Nat) : Prop :=
  ∃ before after, pieces text = before ++ after ∧ offset = Text.utf8Len before.flatten

theorem indicesFrom_append (start : Nat) (before after : List Text) :
    indicesFrom start (before ++ after) =
      indicesFrom start before ++ indicesFrom (start + Text.utf8Len before.flatten) after := by
  induction before generalizing start with
  | nil => rfl
  | cons piece before ih =>
    rw [List.cons_append, indicesFrom, ih, List.flatten_cons, Text.utf8Len_append, Nat.add_assoc,
      indicesFrom, List.cons_append]

/-- The offset of a piece has the pieces before it. -/
theorem exists_of_mem_indicesFrom {start offset : Nat} {pieces : List Text} {piece : Text}
    (h : (offset, piece) ∈ indicesFrom start pieces) :
    ∃ before after, pieces = before ++ piece :: after ∧
      offset = start + Text.utf8Len before.flatten := by
  induction pieces generalizing start with
  | nil => cases h
  | cons first pieces ih =>
    rcases List.mem_cons.1 h with heq | h
    · cases heq
      exact ⟨[], pieces, rfl, rfl⟩
    · obtain ⟨before, after, hpieces, hoffset⟩ := ih h
      refine ⟨first :: before, after, ?_, ?_⟩
      · rw [hpieces, List.cons_append]
      · rw [hoffset, List.flatten_cons, Text.utf8Len_append, Nat.add_assoc]

theorem getLast?_indicesFrom (start : Nat) (pieces : List Text) (piece : Text) :
    (indicesFrom start (pieces ++ [piece])).getLast? =
      some (start + Text.utf8Len pieces.flatten, piece) := by
  rw [indicesFrom_append]
  exact List.getLast?_concat

/-- Pieces begin one after the other. -/
theorem pairwise_indicesFrom (start : Nat) (pieces : List Text) :
    ((indicesFrom start pieces).map Prod.fst).Pairwise (· ≤ ·) := by
  induction pieces generalizing start with
  | nil => exact .nil
  | cons piece pieces ih =>
    refine List.pairwise_cons.2 ⟨fun offset hmem => ?_, ih _⟩
    obtain ⟨⟨offset, later⟩, hindex, rfl⟩ := List.mem_map.1 hmem
    obtain ⟨before, -, -, hoffset⟩ := exists_of_mem_indicesFrom hindex
    exact hoffset.ge.trans' (by omega)

/-- In a sorted list whatever does not lie beyond the offset is taken. -/
theorem mem_takeWhile_of_le {starts : List Nat} {start offset : Nat}
    (hsorted : starts.Pairwise (· ≤ ·)) (hmem : start ∈ starts) (hle : start ≤ offset) :
    start ∈ starts.takeWhile (· ≤ offset) := by
  induction starts with
  | nil => cases hmem
  | cons first starts ih =>
    obtain ⟨hfirst, hsorted⟩ := List.pairwise_cons.1 hsorted
    rcases List.mem_cons.1 hmem with rfl | hmem
    · rw [List.takeWhile_cons, decide_eq_true hle, if_pos rfl]
      exact List.mem_cons_self
    · rw [List.takeWhile_cons, decide_eq_true ((hfirst start hmem).trans hle), if_pos rfl]
      exact List.mem_cons_of_mem first (ih hsorted hmem)

namespace IsPieceBoundary

variable {pieces : Text → List Text} {text : Text} {offset : Nat}

theorem zero : IsPieceBoundary pieces text 0 := ⟨[], pieces text, rfl, rfl⟩

theorem length (h : Segmentation pieces) : IsPieceBoundary pieces text (Text.utf8Len text) :=
  ⟨pieces text, [], (List.append_nil _).symm, by rw [h.flatten]⟩

theorem of_mem_indices {piece : Text} (h : (offset, piece) ∈ indicesFrom 0 (pieces text)) :
    IsPieceBoundary pieces text offset := by
  obtain ⟨before, after, hpieces, hoffset⟩ := exists_of_mem_indicesFrom h
  exact ⟨before, piece :: after, hpieces, by rw [hoffset, Nat.zero_add]⟩

/-- A boundary is the end of the text, or a piece begins there. -/
theorem eq_length_or_mem (hpieces : Segmentation pieces) (h : IsPieceBoundary pieces text offset) :
    offset = Text.utf8Len text ∨ offset ∈ (indicesFrom 0 (pieces text)).map Prod.fst := by
  obtain ⟨before, after, hsplit, hoffset⟩ := h
  cases after with
  | nil =>
    rw [List.append_nil] at hsplit
    exact .inl (by rw [hoffset, ← hsplit, hpieces.flatten])
  | cons piece after =>
    refine .inr (List.mem_map.2 ⟨(offset, piece), ?_, rfl⟩)
    rw [hsplit, indicesFrom_append, hoffset, Nat.zero_add]
    exact List.mem_append_right _ List.mem_cons_self

theorem le_length (hpieces : Segmentation pieces) (h : IsPieceBoundary pieces text offset) :
    offset ≤ Text.utf8Len text := by
  obtain ⟨before, after, hsplit, hoffset⟩ := h
  rw [hoffset, ← hpieces.flatten text, hsplit, List.flatten_append, Text.utf8Len_append]
  exact Nat.le_add_right _ _

/-- Slicing at a boundary succeeds, and both parts have the pieces of the text. -/
theorem exists_parts (hpieces : Segmentation pieces) (h : IsPieceBoundary pieces text offset) :
    ∃ before after, pieces text = before ++ after ∧ text = before.flatten ++ after.flatten ∧
      offset = Text.utf8Len before.flatten ∧ pieces before.flatten = before ∧
      pieces after.flatten = after := by
  obtain ⟨before, after, hsplit, hoffset⟩ := h
  obtain ⟨hbefore, hafter⟩ := hpieces.cut text before after hsplit
  refine ⟨before, after, hsplit, ?_, hoffset, hbefore, hafter⟩
  rw [← List.flatten_append, ← hsplit, hpieces.flatten]

end IsPieceBoundary

/-! ## The boundaries next to an offset -/

def LandsBefore (pieces : Text → List Text) (text : Text) (offset cursor : Nat) : Prop :=
  IsGreatest {boundary | IsPieceBoundary pieces text boundary ∧ boundary ≤ offset} cursor

def LandsBehind (pieces : Text → List Text) (text : Text) (offset cursor : Nat) : Prop :=
  IsLeast {boundary | IsPieceBoundary pieces text boundary ∧ offset ≤ boundary} cursor

section Lands

variable {pieces : Text → List Text} {text : Text}

/-- The first piece that begins at the offset or later, or else the end of the text. -/
theorem landsBehind_find? (hpieces : Segmentation pieces) {offset : Nat}
    (hoffset : offset ≤ Text.utf8Len text) :
    LandsBehind pieces text offset
      ((((indicesFrom 0 (pieces text)).map Prod.fst).find? fun start => offset ≤ start).getD
        (Text.utf8Len text)) := by
  cases hfind : ((indicesFrom 0 (pieces text)).map Prod.fst).find? fun start => offset ≤ start with
  | none =>
    refine ⟨⟨.length hpieces, hoffset⟩, fun boundary ⟨hboundary, hle⟩ => ?_⟩
    rcases hboundary.eq_length_or_mem hpieces with heq | hmem
    · exact heq ▸ Nat.le_refl _
    · exact absurd (decide_eq_true hle) (List.find?_eq_none.1 hfind boundary hmem)
  | some start =>
    obtain ⟨hle, before, after, hstarts, hbefore⟩ := List.find?_eq_some_iff_append.1 hfind
    have hstart : start ∈ (indicesFrom 0 (pieces text)).map Prod.fst :=
      List.mem_of_find?_eq_some hfind
    have hsorted := pairwise_indicesFrom 0 (pieces text)
    rw [hstarts] at hsorted
    obtain ⟨⟨start, piece⟩, hmem, rfl⟩ := List.mem_map.1 hstart
    refine ⟨⟨.of_mem_indices hmem, of_decide_eq_true hle⟩, fun boundary ⟨hboundary, hafter⟩ => ?_⟩
    rcases hboundary.eq_length_or_mem hpieces with rfl | hother
    · exact (IsPieceBoundary.of_mem_indices hmem).le_length hpieces
    rw [hstarts] at hother
    rcases List.mem_append.1 hother with hearlier | hlater
    · have hnot := hbefore boundary hearlier
      rw [decide_eq_true hafter] at hnot
      cases hnot
    rcases List.mem_cons.1 hlater with rfl | hlater
    · exact Nat.le_refl _
    · exact (List.pairwise_cons.1 (List.pairwise_append.1 hsorted).2.1).1 boundary hlater

/-- The last piece that begins at the offset or before it. -/
theorem landsBefore_takeWhile (hpieces : Segmentation pieces) {offset : Nat}
    (hoffset : offset < Text.utf8Len text) :
    LandsBefore pieces text offset
      ((((indicesFrom 0 (pieces text)).map Prod.fst).takeWhile (· ≤ offset)).getLast?.getD 0) := by
  have hsorted := pairwise_indicesFrom 0 (pieces text)
  have htaken (boundary : Nat) (hboundary : IsPieceBoundary pieces text boundary)
      (hle : boundary ≤ offset) : boundary ∈
        ((indicesFrom 0 (pieces text)).map Prod.fst).takeWhile (· ≤ offset) := by
    rcases hboundary.eq_length_or_mem hpieces with rfl | hmem
    · omega
    · exact mem_takeWhile_of_le hsorted hmem hle
  cases hlast : (((indicesFrom 0 (pieces text)).map Prod.fst).takeWhile (· ≤ offset)).getLast? with
  | none =>
    refine ⟨⟨.zero, Nat.zero_le _⟩, fun boundary ⟨hboundary, hle⟩ => ?_⟩
    have hmem := htaken boundary hboundary hle
    rw [List.getLast?_eq_none_iff.1 hlast] at hmem
    cases hmem
  | some start =>
    have hmem := List.mem_of_getLast? hlast
    obtain ⟨⟨start, piece⟩, hindex, rfl⟩ := List.mem_map.1 ((List.takeWhile_prefix _).subset hmem)
    have hle := List.mem_takeWhile_imp hmem
    refine ⟨⟨.of_mem_indices hindex, of_decide_eq_true hle⟩,
      fun boundary ⟨hboundary, hle⟩ => ?_⟩
    have hbefore := htaken boundary hboundary hle
    have htake := hsorted.sublist (List.takeWhile_prefix (· ≤ offset)).sublist
    obtain ⟨before, heq⟩ := List.getLast?_eq_some_iff.1 hlast
    rw [heq] at hbefore htake
    rcases List.mem_append.1 hbefore with hbefore | hbefore
    · exact (List.pairwise_append.1 htake).2.2 boundary hbefore _ List.mem_cons_self
    · exact (List.mem_singleton.1 hbefore).le

end Lands

/-! ## Pieces of one character -/

/-- Every character is a piece. -/
def singletons (text : Text) : List Text := text.map fun c => [c]

theorem flatten_singletons (text : Text) : (singletons text).flatten = text := by
  induction text with
  | nil => rfl
  | cons c text ih =>
    rw [singletons, List.map_cons, List.flatten_cons]
    exact congrArg (c :: ·) ih

theorem segmentation_singletons : Segmentation singletons where
  flatten := flatten_singletons
  nonempty text piece hpiece := by
    obtain ⟨c, -, rfl⟩ := List.mem_map.1 hpiece
    exact List.cons_ne_nil c []
  cut text before after h := by
    obtain ⟨front, back, -, rfl, rfl⟩ := List.map_eq_append_iff.1 h
    exact ⟨congrArg singletons (flatten_singletons front),
      congrArg singletons (flatten_singletons back)⟩

end Fluxcope.Library
