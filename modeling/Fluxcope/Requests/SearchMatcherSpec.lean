import Fluxcope.Requests.SearchMatcher
import Fluxcope.Requests.RequestTreeSpec
/-!
# What the matcher highlights

The ranges of a label cover the graphemes that take part in an occurrence of the folded
query, and a search finds the nodes whose label has one.
-/

namespace Fluxcope.Requests

open Fluxcope.Library Fluxcope.Library.Utf8 Fluxcope.Capture

/-- What the matcher relies on about case folding: a character folds to characters, and
to at least one. -/
structure FoldsCharacters (caseFold : Bytes → List Bytes) : Prop where
  chars : ∀ c, IsChar c → ∀ d ∈ caseFold c, IsChar d
  nonempty : ∀ c, IsChar c → caseFold c ≠ []

/-- What it relies on about graphemes: they are the parts of a text. -/
structure SplitsText (graphemes : Bytes → List Bytes) : Prop where
  flatten : ∀ text, Valid text → (graphemes text).flatten = text
  valid : ∀ text, Valid text → ∀ grapheme ∈ graphemes text, Valid grapheme
  nonempty : ∀ text, Valid text → ∀ grapheme ∈ graphemes text, grapheme ≠ []

section Statement

variable (caseFold : Bytes → List Bytes) (graphemes : Bytes → List Bytes)

/-- Where the grapheme `k` of a label begins. -/
def graphemeStart (label : Bytes) (k : Nat) : Nat := offset (graphemes label) k

/-- Where the case folding of the grapheme `k` begins in that of the label. -/
def foldedStart (label : Bytes) (k : Nat) : Nat :=
  offset ((graphemes label).map (foldText caseFold)) k

/-- The folding of the grapheme and the occurrence at `i` have a byte in common. -/
def Contributes (label query : Bytes) (i k : Nat) : Prop :=
  k < (graphemes label).length ∧ ∃ place,
    (i ≤ place ∧ place < i + (foldText caseFold query).length) ∧
    foldedStart caseFold graphemes label k ≤ place ∧
    place < foldedStart caseFold graphemes label (k + 1)

/-- The places where the folded query begins in the folded label; they may overlap. -/
def labelOccurrences (label query : Bytes) : List Nat :=
  occurrences (foldText caseFold query) (foldText caseFold label)

structure Highlights (label query : Bytes) (ranges : List Span) : Prop where
  apart : ranges.Pairwise fun left right => left.stop < right.start
  proper : ∀ range ∈ ranges, range.start < range.stop
  starts : ∀ range ∈ ranges, ∃ k < (graphemes label).length,
    range.start = graphemeStart graphemes label k
  stops : ∀ range ∈ ranges, ∃ k < (graphemes label).length,
    range.stop = graphemeStart graphemes label (k + 1)
  covers : ∀ place, (∃ range ∈ ranges, range.Contains place) ↔
    ∃ i ∈ labelOccurrences caseFold label query,
      ∃ k, Contributes caseFold graphemes label query i k ∧
        graphemeStart graphemes label k ≤ place ∧ place < graphemeStart graphemes label (k + 1)

/-- The matches are the nodes whose label has an occurrence, in their order. -/
structure FindsNodes (model : RequestTreeModel) (query : Bytes) (results : List LabelMatch) :
    Prop where
  increasing : results.Pairwise fun left right => left.logicalPosition < right.logicalPosition
  once : (results.map fun labelMatch => labelMatch.path).Nodup
  found : ∀ path, (∃ labelMatch ∈ results, labelMatch.path = path) ↔
    ∃ id, model.find path = some id ∧
      labelOccurrences caseFold (model.node id).label query ≠ []
  shown : ∀ labelMatch ∈ results, ∃ id, model.find labelMatch.path = some id ∧
    labelMatch.label = (model.node id).label ∧
    model.logicalPosition labelMatch.path = some labelMatch.logicalPosition ∧
    Highlights caseFold graphemes (model.node id).label query labelMatch.ranges

end Statement

/-! ## The folded label -/

section Fold

variable {caseFold : Bytes → List Bytes} {graphemes : Bytes → List Bytes}

theorem foldText_valid (hfold : FoldsCharacters caseFold) {text : Bytes} (h : Valid text) :
    Valid (foldText caseFold text) := by
  refine ⟨(chars text).flatMap caseFold, fun d hd => ?_, rfl⟩
  obtain ⟨c, hc, hd⟩ := List.mem_flatMap.1 hd
  exact hfold.chars c (h.chars.1 c hc) d hd

theorem foldText_ne_nil (hfold : FoldsCharacters caseFold) {text : Bytes} (h : Valid text)
    (hne : text ≠ []) : foldText caseFold text ≠ [] := by
  obtain ⟨hcs, hflatten⟩ := h.chars
  unfold foldText
  cases hchars : chars text with
  | nil =>
    rw [hchars] at hflatten
    exact absurd hflatten.symm hne
  | cons c cs =>
    have hc : IsChar c := hcs c (by rw [hchars]; exact List.mem_cons_self)
    cases hfolded : caseFold c with
    | nil => exact absurd hfolded (hfold.nonempty c hc)
    | cons d ds =>
      have hpos := (hfold.chars c hc d (by rw [hfolded]; exact List.mem_cons_self)).length_pos
      rw [List.flatMap_cons, hfolded, List.cons_append, List.flatten_cons]
      exact fun h => absurd (congrArg List.length (List.append_eq_nil_iff.1 h).1) (by
        rw [List.length_nil]
        omega)

theorem foldText_flatten {pieces : List Bytes} (h : ∀ piece ∈ pieces, Valid piece) :
    foldText caseFold pieces.flatten = (pieces.map (foldText caseFold)).flatten := by
  induction pieces with
  | nil => rfl
  | cons piece pieces ih =>
    have hrest := fun p hp => h p (List.mem_cons_of_mem piece hp)
    have happend : foldText caseFold (piece ++ pieces.flatten) =
        foldText caseFold piece ++ foldText caseFold pieces.flatten := by
      unfold foldText
      rw [(h piece List.mem_cons_self).chars_append (Valid.flatten hrest), List.flatMap_append,
        List.flatten_append]
    rw [List.flatten_cons, happend, ih hrest, List.map_cons, List.flatten_cons]

/-- The units of the graphemes that are left. -/
def unitsFrom (caseFold : Bytes → List Bytes) : Nat → Nat → List Bytes → List FoldedUnit
  | _, _, [] => []
  | folded, original, grapheme :: rest =>
    { folded := ⟨folded, folded + (foldText caseFold grapheme).length⟩
      original := ⟨original, original + grapheme.length⟩ } ::
      unitsFrom caseFold (folded + (foldText caseFold grapheme).length)
        (original + grapheme.length) rest

theorem length_unitsFrom (folded original : Nat) (pieces : List Bytes) :
    (unitsFrom caseFold folded original pieces).length = pieces.length := by
  induction pieces generalizing folded original with
  | nil => rfl
  | cons piece pieces ih => rw [unitsFrom, List.length_cons, ih, List.length_cons]

theorem getElem?_unitsFrom {folded original : Nat} {pieces : List Bytes} {k : Nat}
    (hk : k < pieces.length) : (unitsFrom caseFold folded original pieces)[k]? =
      some
        { folded :=
            ⟨folded + offset (pieces.map (foldText caseFold)) k,
              folded + offset (pieces.map (foldText caseFold)) (k + 1)⟩
          original := ⟨original + offset pieces k, original + offset pieces (k + 1)⟩ } := by
  induction pieces generalizing folded original k with
  | nil => exact absurd hk (Nat.not_lt_zero k)
  | cons piece pieces ih =>
    cases k with
    | zero => simp [unitsFrom]
    | succ k =>
      rw [unitsFrom, List.getElem?_cons_succ, ih (Nat.lt_of_succ_lt_succ hk)]
      simp [Nat.add_assoc]

variable {cancelled : Nat → Bool}

theorem checkRound_computes (round : Nat) :
    Checked.Computes cancelled .cancelled (checkRound cancelled round) (.ok ()) := by
  unfold checkRound
  split
  · exact .check
  · exact .pure ()

theorem foldGraphemes_computes (index originalStart : Nat) (pieces : List Bytes)
    (label : FoldedLabel) :
    Checked.Computes cancelled .cancelled
      (foldGraphemes cancelled caseFold index originalStart pieces label)
      (.ok
        { folded := label.folded ++ (pieces.map (foldText caseFold)).flatten
          units := label.units ++
            unitsFrom caseFold label.folded.length originalStart pieces }) := by
  induction pieces generalizing index originalStart label with
  | nil =>
    rw [foldGraphemes, List.map_nil, List.flatten_nil, unitsFrom, List.append_nil,
      List.append_nil]
    exact .pure _
  | cons piece pieces ih =>
    rw [foldGraphemes]
    refine (checkRound_computes index).bind ?_
    have hrest := ih (index + 1) (originalStart + piece.length)
      { folded := label.folded ++ foldText caseFold piece
        units := label.units ++
          [{ folded := ⟨label.folded.length, (label.folded ++ foldText caseFold piece).length⟩
             original := ⟨originalStart, originalStart + piece.length⟩ }] }
    simpa [unitsFrom] using hrest

end Fold

/-! ## The graphemes of an occurrence -/

section Range

variable {caseFold : Bytes → List Bytes} {pieces : List Bytes}

/-- The units of all graphemes. -/
def unitsOf (caseFold : Bytes → List Bytes) (pieces : List Bytes) : List FoldedUnit :=
  unitsFrom caseFold 0 0 pieces

theorem getElem?_unitsOf {k : Nat} {unit : FoldedUnit} :
    (unitsOf caseFold pieces)[k]? = some unit ↔
      k < pieces.length ∧ unit =
        { folded :=
            ⟨offset (pieces.map (foldText caseFold)) k,
              offset (pieces.map (foldText caseFold)) (k + 1)⟩
          original := ⟨offset pieces k, offset pieces (k + 1)⟩ } := by
  unfold unitsOf
  by_cases hk : k < pieces.length
  · rw [getElem?_unitsFrom hk, and_iff_right hk, Option.some.injEq, eq_comm]
    simp
  · have hnone : (unitsFrom caseFold 0 0 pieces)[k]? = none :=
      List.getElem?_eq_none (by rw [length_unitsFrom]; exact Nat.le_of_not_lt hk)
    rw [hnone]
    exact ⟨fun h => (by cases h), fun h => absurd h.1 hk⟩

/-- The graphemes before which the foldings end too early, and those whose foldings begin
early enough. -/
structure Parts (caseFold : Bytes → List Bytes) (pieces : List Bytes)
    (i stop first afterLast : Nat) : Prop where
  first : ∀ k, k < first ↔
    k < pieces.length ∧ offset (pieces.map (foldText caseFold)) (k + 1) ≤ i
  afterLast : ∀ k, k < afterLast ↔
    k < pieces.length ∧ offset (pieces.map (foldText caseFold)) k < stop

theorem unitsOf_sorted : (unitsOf caseFold pieces).Pairwise fun left right =>
    left.folded.start ≤ right.folded.start ∧ left.folded.stop ≤ right.folded.stop := by
  rw [List.pairwise_iff_getElem]
  intro j k hj hk hlt
  obtain ⟨-, hleft⟩ := getElem?_unitsOf.1 (List.getElem?_eq_getElem hj)
  obtain ⟨-, hright⟩ := getElem?_unitsOf.1 (List.getElem?_eq_getElem hk)
  rw [hleft, hright]
  exact ⟨offset_mono _ hlt.le, offset_mono _ (Nat.add_le_add_right hlt.le 1)⟩

theorem parts_unitsOf (i stop : Nat) : Parts caseFold pieces i stop
    (partitionPoint (fun unit => unit.folded.stop ≤ i) (unitsOf caseFold pieces))
    (partitionPoint (fun unit => unit.folded.start < stop) (unitsOf caseFold pieces)) where
  first := by
    intro k
    rw [lt_partitionPoint (unitsOf_sorted.imp fun hle => by
      rw [decide_eq_true_eq, decide_eq_true_eq]
      exact hle.2.trans)]
    constructor
    · rintro ⟨unit, hunit, hstop⟩
      obtain ⟨hk, rfl⟩ := getElem?_unitsOf.1 hunit
      exact ⟨hk, of_decide_eq_true hstop⟩
    · rintro ⟨hk, hle⟩
      exact ⟨_, getElem?_unitsOf.2 ⟨hk, rfl⟩, decide_eq_true hle⟩
  afterLast := by
    intro k
    rw [lt_partitionPoint (unitsOf_sorted.imp fun hle => by
      rw [decide_eq_true_eq, decide_eq_true_eq]
      exact hle.1.trans_lt)]
    constructor
    · rintro ⟨unit, hunit, hstart⟩
      obtain ⟨hk, rfl⟩ := getElem?_unitsOf.1 hunit
      exact ⟨hk, of_decide_eq_true hstart⟩
    · rintro ⟨hk, hlt⟩
      exact ⟨_, getElem?_unitsOf.2 ⟨hk, rfl⟩, decide_eq_true hlt⟩

/-- An occurrence in the folded label has a first and a last grapheme. -/
theorem Parts.bounds {i stop first afterLast : Nat}
    (h : Parts caseFold pieces i stop first afterLast) (hlt : i < stop)
    (hstop : stop ≤ (pieces.map (foldText caseFold)).flatten.length) :
    first < afterLast ∧ afterLast ≤ pieces.length := by
  have htotal := offset_length (pieces.map (foldText caseFold))
  rw [List.length_map] at htotal
  have hafterLast : afterLast ≤ pieces.length := by
    by_contra hover
    exact (Nat.lt_irrefl _) ((h.afterLast pieces.length).1 (Nat.lt_of_not_le hover)).1
  refine ⟨?_, hafterLast⟩
  have hpos : 0 < pieces.length := by
    by_contra hzero
    obtain rfl := List.length_eq_zero_iff.1 (Nat.eq_zero_of_not_pos hzero)
    simp at hstop
    omega
  have hfirst : first < pieces.length := by
    by_contra hover
    have hlast := ((h.first (pieces.length - 1)).1 (by omega)).2
    rw [Nat.sub_add_cancel hpos] at hlast
    omega
  rw [h.afterLast]
  refine ⟨hfirst, ?_⟩
  cases first with
  | zero =>
    rw [offset_zero]
    omega
  | succ k => exact ((h.first k).1 (Nat.lt_succ_self k)).2.trans_lt hlt

theorem originalRangeForFolded_eq {i stop : Nat} (hlt : i < stop)
    (hstop : stop ≤ (pieces.map (foldText caseFold)).flatten.length) :
    ∃ first afterLast, Parts caseFold pieces i stop first afterLast ∧
      first < afterLast ∧ afterLast ≤ pieces.length ∧
      originalRangeForFolded (unitsOf caseFold pieces) ⟨i, stop⟩ =
        some ⟨offset pieces first, offset pieces afterLast⟩ := by
  have hparts := @parts_unitsOf caseFold pieces i stop
  unfold originalRangeForFolded
  dsimp only
  generalize partitionPoint (fun unit => decide (unit.folded.stop ≤ i))
    (unitsOf caseFold pieces) = first at hparts ⊢
  generalize partitionPoint (fun unit => decide (unit.folded.start < stop))
    (unitsOf caseFold pieces) = afterLast at hparts ⊢
  obtain ⟨hfirst, hlength⟩ := hparts.bounds hlt hstop
  have hunits : (unitsOf caseFold pieces).length = pieces.length := length_unitsFrom 0 0 pieces
  refine ⟨first, afterLast, hparts, hfirst, hlength, ?_⟩
  have hwithin : ¬ (decide (first ≥ (unitsOf caseFold pieces).length) ||
      decide (first > afterLast - 1)) = true := by
    rw [hunits, Bool.or_eq_true, decide_eq_true_eq, decide_eq_true_eq]
    omega
  rw [if_neg (by omega), if_neg hwithin]
  rw [getElem?_unitsOf.2 ⟨show first < pieces.length by omega, rfl⟩,
    getElem?_unitsOf.2 ⟨show afterLast - 1 < pieces.length by omega, rfl⟩,
    Nat.sub_add_cancel (by omega : 1 ≤ afterLast)]
  rfl

end Range

/-! ## The loop over the occurrences -/

section Loop

variable {cancelled : Nat → Bool} {text query : Bytes}

/-- A query occurs at boundaries only. -/
theorem isBoundary_of_mem_occurrences (hquery : Valid query) (hne : query ≠ []) {i : Nat}
    (hi : i ∈ occurrences query text) : IsBoundary text i := by
  obtain ⟨c, rest, rfl, hc, -⟩ := hquery.firstChar hne
  obtain ⟨first, tail, rfl, hfirst, -⟩ := hc.shape
  obtain ⟨-, more, hmore⟩ := mem_occurrences.1 hi
  have hget := congrArg List.head? hmore
  rw [List.cons_append, List.cons_append, List.head?_cons, List.head?_drop] at hget
  exact .inr ⟨first, hget.symm, hfirst⟩

theorem sliceFrom_computes (htext : Valid text) {start : Nat} (hle : start ≤ text.length)
    (hstart : IsBoundary text start) :
    Checked.Computes cancelled .cancelled (sliceFrom text start) (.ok (text.drop start)) := by
  unfold sliceFrom
  rw [if_pos (by simp [hle, (isCharBoundary_iff htext).2 hstart])]
  exact .pure _

/-- The character at a boundary in front of the end. -/
structure CharAt (text : Bytes) (start step : Nat) : Prop where
  step_eq : ((chars (text.drop start)).head?.map List.length).getD 1 = step
  pos : 0 < step
  le : start + step ≤ text.length
  boundary : IsBoundary text (start + step)
  between : ∀ i, start < i → i < start + step → ¬ IsBoundary text i

theorem exists_charAt (htext : Valid text) {start : Nat} (hlt : start < text.length)
    (hstart : IsBoundary text start) : ∃ step, CharAt text start step := by
  obtain ⟨-, hdrop⟩ := htext.cut hstart
  have hne : text.drop start ≠ [] := List.drop_eq_nil_iff.not.2 (Nat.not_le_of_lt hlt)
  obtain ⟨c, rest, hsplit, hc, hrest⟩ := hdrop.firstChar hne
  have hchars : (chars (text.drop start)).head? = some c := by
    have hc' : Valid c := ⟨[c], by simpa using hc, by simp⟩
    have hone : chars c = [c] := by
      have hflatten := @chars_flatten [c] (by simpa using hc)
      simpa using hflatten
    rw [hsplit, hc'.chars_append hrest, hone]
    rfl
  have hlength := congrArg List.length hsplit
  rw [List.length_drop, List.length_append] at hlength
  have htextEq : text = text.take start ++ (c ++ rest) := by
    rw [← hsplit, List.take_append_drop]
  have htake : (text.take start).length = start := List.length_take_of_le hlt.le
  refine ⟨c.length, by rw [hchars]; rfl, hc.length_pos, by omega, ?_, fun i hi hi' hboundary => ?_⟩
  · rw [htextEq, ← List.append_assoc, isBoundary_append_iff (by simp [htake]), List.length_append,
      htake, Nat.sub_self]
    exact hrest.isBoundary_zero
  · rw [htextEq, isBoundary_append_iff (by omega), htake] at hboundary
    exact hc.not_isBoundary (by omega) (by omega) hboundary

/-- What is left of the occurrences behind one of them. -/
theorem occurrences_behind (hquery : Valid query) (hne : query ≠ []) {start step m : Nat}
    {rest : List Nat} (hfrom : (occurrences query text).filter (fun i => start ≤ i) = m :: rest)
    (hchar : CharAt text m step) :
    (occurrences query text).filter (fun i => m + step ≤ i) = rest := by
  have hmem : ∀ i ∈ m :: rest, i ∈ occurrences query text ∧ start ≤ i := by
    intro i hi
    rw [← hfrom, List.mem_filter, decide_eq_true_eq] at hi
    exact hi
  have hsorted : (m :: rest).Pairwise (· < ·) := by
    rw [← hfrom]
    exact (occurrences_sorted query text).filter _
  have hpos := hchar.pos
  have htwice : (occurrences query text).filter (fun i => m + step ≤ i) =
      ((occurrences query text).filter (fun i => start ≤ i)).filter (fun i => m + step ≤ i) := by
    rw [List.filter_filter]
    refine List.filter_congr fun i _ => ?_
    have hm := (hmem m List.mem_cons_self).2
    rw [Bool.eq_iff_iff, Bool.and_eq_true, decide_eq_true_eq, decide_eq_true_eq]
    omega
  rw [htwice, hfrom, List.filter_cons_of_neg (by rw [decide_eq_true_eq]; omega)]
  refine List.filter_eq_self.2 fun i hi => ?_
  have hlt := (List.pairwise_cons.1 hsorted).1 i hi
  have hboundary := isBoundary_of_mem_occurrences hquery hne
    (hmem i (List.mem_cons_of_mem m hi)).1
  rw [decide_eq_true_eq]
  by_contra hover
  exact hchar.between i hlt (by omega) hboundary

variable {units : List FoldedUnit} {spanAt : Nat → Span}

/-- Every occurrence from `searchStart` on is joined to the ranges. -/
theorem occurrenceLoop_computes (htext : Valid text) (hquery : Valid query) (hne : query ≠ [])
    (hspan : ∀ i ∈ occurrences query text,
      originalRangeForFolded units ⟨i, i + query.length⟩ = some (spanAt i))
    {rounds searchStart : Nat} (hrounds : text.length < rounds + searchStart)
    (hle : searchStart ≤ text.length) (hstart : IsBoundary text searchStart)
    (occurrenceCount : Nat) (ranges : List Span) :
    Checked.Computes cancelled .cancelled
      (occurrenceLoop cancelled { folded := text, units } query rounds searchStart occurrenceCount
        ranges)
      (.ok ((((occurrences query text).filter fun i => searchStart ≤ i).map spanAt).foldl
        Span.join ranges)) := by
  induction rounds generalizing searchStart occurrenceCount ranges with
  | zero => omega
  | succ rounds ih =>
    rw [occurrenceLoop, if_pos hle]
    refine (checkRound_computes occurrenceCount).bind
      ((sliceFrom_computes htext hle hstart).bind ?_)
    have hfrom := @occurrences_drop _ _ query _ _ hle
    unfold findFirst
    cases hoccurrences : occurrences query (text.drop searchStart) with
    | nil =>
      rw [hoccurrences, List.map_nil] at hfrom
      rw [hfrom]
      exact .pure _
    | cons relativeStart later =>
      rw [hoccurrences, List.map_cons] at hfrom
      have hmem : searchStart + relativeStart ∈ occurrences query text := by
        have hin : searchStart + relativeStart ∈
            (occurrences query text).filter fun i => searchStart ≤ i := by
          rw [hfrom]
          exact List.mem_cons_self
        exact (List.mem_filter.1 hin).1
      have hboundary := isBoundary_of_mem_occurrences hquery hne hmem
      have hfits := (mem_occurrences.1 hmem).1
      have hpos := List.length_pos_iff.2 hne
      have hlt : searchStart + relativeStart < text.length := by omega
      obtain ⟨step, hchar⟩ := exists_charAt htext hlt hboundary
      have hstep := hchar.pos
      rw [hfrom, List.map_cons, List.foldl_cons,
        ← occurrences_behind hquery hne hfrom hchar]
      dsimp only [List.head?_cons]
      rw [hspan _ hmem]
      refine (sliceFrom_computes htext hlt.le hboundary).bind ?_
      rw [hchar.step_eq]
      exact ih (by omega) hchar.le hchar.boundary _ _

end Loop

/-! ## The ranges of a label -/

section Ranges

variable {cancelled : Nat → Bool} {caseFold : Bytes → List Bytes} {graphemes : Bytes → List Bytes}
  {label query : Bytes}

/-- The range that an occurrence is mapped to. -/
def rangeOf (caseFold : Bytes → List Bytes) (pieces : List Bytes) (length i : Nat) : Span :=
  (originalRangeForFolded (unitsOf caseFold pieces) ⟨i, i + length⟩).getD ⟨0, 0⟩

/-- The range of an occurrence goes from its first grapheme to its last one. -/
structure RangeOf (caseFold : Bytes → List Bytes) (pieces : List Bytes) (length i : Nat)
    (first afterLast : Nat) : Prop where
  parts : Parts caseFold pieces i (i + length) first afterLast
  lt : first < afterLast
  le : afterLast ≤ pieces.length
  found : originalRangeForFolded (unitsOf caseFold pieces) ⟨i, i + length⟩ =
    some (rangeOf caseFold pieces length i)
  range : rangeOf caseFold pieces length i = ⟨offset pieces first, offset pieces afterLast⟩

theorem exists_rangeOf {pieces : List Bytes} (hne : query ≠ []) {i : Nat}
    (hi : i ∈ occurrences query (pieces.map (foldText caseFold)).flatten) :
    ∃ first afterLast, RangeOf caseFold pieces query.length i first afterLast := by
  have hpos := List.length_pos_iff.2 hne
  obtain ⟨first, afterLast, hparts, hlt, hle, heq⟩ :=
    originalRangeForFolded_eq (by omega : i < i + query.length) (mem_occurrences.1 hi).1
  have hrange : rangeOf caseFold pieces query.length i =
      ⟨offset pieces first, offset pieces afterLast⟩ := by
    unfold rangeOf
    rw [heq]
    rfl
  exact ⟨first, afterLast, hparts, hlt, hle, heq.trans (congrArg some hrange.symm), hrange⟩

/-- Later occurrences have no earlier range. -/
theorem RangeOf.start_le {pieces : List Bytes} {length i j first afterLast first' afterLast' : Nat}
    (hi : RangeOf caseFold pieces length i first afterLast)
    (hj : RangeOf caseFold pieces length j first' afterLast') (hij : i ≤ j) :
    (rangeOf caseFold pieces length i).start ≤ (rangeOf caseFold pieces length j).start := by
  rw [hi.range, hj.range]
  refine offset_mono pieces ?_
  by_contra hover
  obtain ⟨hk, hstop⟩ := (hi.parts.first first').1 (Nat.lt_of_not_le hover)
  exact Nat.lt_irrefl _ ((hj.parts.first first').2 ⟨hk, hstop.trans hij⟩)

theorem contributes_iff (hquery : foldText caseFold query ≠ [])
    (hpieces : ∀ piece ∈ (graphemes label).map (foldText caseFold), piece ≠ []) {i k : Nat} :
    Contributes caseFold graphemes label query i k ↔ k < (graphemes label).length ∧
      foldedStart caseFold graphemes label k < i + (foldText caseFold query).length ∧
      i < foldedStart caseFold graphemes label (k + 1) := by
  refine and_congr_right fun hk => ?_
  have hpos := List.length_pos_iff.2 hquery
  have hproper : foldedStart caseFold graphemes label k <
      foldedStart caseFold graphemes label (k + 1) :=
    offset_lt hpieces (by rwa [List.length_map])
  constructor
  · rintro ⟨place, hin, hpiece⟩
    omega
  · rintro ⟨hbegins, hends⟩
    exact ⟨max i (foldedStart caseFold graphemes label k), by omega, by omega⟩

theorem highlights_of_joined (hquery : foldText caseFold query ≠ [])
    (hpieces : ∀ piece ∈ (graphemes label).map (foldText caseFold), piece ≠ [])
    (hfolded : foldText caseFold label = ((graphemes label).map (foldText caseFold)).flatten)
    {ranges : List Span}
    (h : Span.Joined ranges ((labelOccurrences caseFold label query).map
      (rangeOf caseFold (graphemes label) (foldText caseFold query).length))) :
    Highlights caseFold graphemes label query ranges := by
  have hrange : ∀ i ∈ labelOccurrences caseFold label query, ∃ first afterLast,
      RangeOf caseFold (graphemes label) (foldText caseFold query).length i first afterLast := by
    intro i hi
    unfold labelOccurrences at hi
    rw [hfolded] at hi
    exact exists_rangeOf hquery hi
  refine ⟨h.apart, h.proper, fun range hmem => ?_, fun range hmem => ?_, fun place => ?_⟩
  · obtain ⟨given, hgiven, heq⟩ := h.starts range hmem
    obtain ⟨i, hi, rfl⟩ := List.mem_map.1 hgiven
    obtain ⟨first, afterLast, hparts⟩ := hrange i hi
    exact ⟨first, hparts.lt.trans_le hparts.le, by rw [heq, hparts.range]; rfl⟩
  · obtain ⟨given, hgiven, heq⟩ := h.stops range hmem
    obtain ⟨i, hi, rfl⟩ := List.mem_map.1 hgiven
    obtain ⟨first, afterLast, hparts⟩ := hrange i hi
    have hlt := hparts.lt
    have hle := hparts.le
    refine ⟨afterLast - 1, by omega, ?_⟩
    rw [heq, hparts.range, Nat.sub_add_cancel (by omega)]
    rfl
  · rw [h.covers place]
    have hcovered : ∀ i ∈ labelOccurrences caseFold label query,
        ((rangeOf caseFold (graphemes label) (foldText caseFold query).length i).Contains place ↔
          ∃ k, Contributes caseFold graphemes label query i k ∧
            graphemeStart graphemes label k ≤ place ∧
            place < graphemeStart graphemes label (k + 1)) := by
      intro i hi
      obtain ⟨first, afterLast, hparts⟩ := hrange i hi
      rw [hparts.range]
      refine (exists_piece (graphemes label) hparts.lt.le).trans (exists_congr fun k => ?_)
      rw [contributes_iff hquery hpieces]
      have hfirst := hparts.parts.first k
      have hafterLast := hparts.parts.afterLast k
      have hle := hparts.le
      unfold foldedStart graphemeStart
      constructor
      · rintro ⟨hge, hlt, hin⟩
        obtain ⟨hk, hbegins⟩ := hafterLast.1 hlt
        refine ⟨⟨hk, hbegins, ?_⟩, hin⟩
        by_contra hearly
        have := hfirst.2 ⟨hk, Nat.le_of_not_lt hearly⟩
        omega
      · rintro ⟨⟨hk, hbegins, hends⟩, hin⟩
        refine ⟨?_, hafterLast.2 ⟨hk, hbegins⟩, hin⟩
        by_contra hearly
        have hstop := (hfirst.1 (Nat.lt_of_not_le hearly)).2
        omega
    constructor
    · rintro ⟨span, hspan, hcontains⟩
      obtain ⟨i, hi, rfl⟩ := List.mem_map.1 hspan
      exact ⟨i, hi, (hcovered i hi).1 hcontains⟩
    · rintro ⟨i, hi, hk⟩
      exact ⟨_, List.mem_map_of_mem hi, (hcovered i hi).2 hk⟩

/-- The ranges of a label, joined. -/
def labelRanges (caseFold : Bytes → List Bytes) (graphemes : Bytes → List Bytes)
    (label query : Bytes) : List Span :=
  ((labelOccurrences caseFold label query).map
    (rangeOf caseFold (graphemes label) (foldText caseFold query).length)).foldl Span.join []

theorem matchingOriginalRanges_computes (hfold : FoldsCharacters caseFold)
    (hsplit : SplitsText graphemes) (hlabel : Valid label) (hquery : Valid query)
    (hne : query ≠ []) :
    Checked.Computes cancelled .cancelled
      (matchingOriginalRanges cancelled caseFold graphemes label (foldText caseFold query))
      (.ok (labelRanges caseFold graphemes label query)) ∧
    Highlights caseFold graphemes label query (labelRanges caseFold graphemes label query) ∧
    (labelRanges caseFold graphemes label query = [] ↔
      labelOccurrences caseFold label query = []) := by
  have hfolded : foldText caseFold label =
      ((graphemes label).map (foldText caseFold)).flatten := by
    rw [← foldText_flatten (hsplit.valid label hlabel), hsplit.flatten label hlabel]
  have hqueryValid := foldText_valid hfold hquery
  have hqueryNe := foldText_ne_nil hfold hquery hne
  have hlabelValid := foldText_valid hfold hlabel
  have hrange : ∀ i ∈ labelOccurrences caseFold label query, ∃ first afterLast,
      RangeOf caseFold (graphemes label) (foldText caseFold query).length i first afterLast := by
    intro i hi
    unfold labelOccurrences at hi
    rw [hfolded] at hi
    exact exists_rangeOf hqueryNe hi
  have hloop := @occurrenceLoop_computes cancelled (foldText caseFold label)
    (foldText caseFold query) (unitsOf caseFold (graphemes label))
    (rangeOf caseFold (graphemes label) (foldText caseFold query).length) hlabelValid hqueryValid
    hqueryNe (fun i hi => by
      obtain ⟨first, afterLast, hparts⟩ := hrange i hi
      exact hparts.found)
    ((foldText caseFold label).length + 1) 0 (by omega) (Nat.zero_le _)
    hlabelValid.isBoundary_zero 0 []
  have hall : (occurrences (foldText caseFold query) (foldText caseFold label)).filter
      (fun i => 0 ≤ i) = labelOccurrences caseFold label query :=
    List.filter_eq_self.2 fun i _ => decide_eq_true (Nat.zero_le i)
  rw [hall] at hloop
  have hproper : ∀ span ∈ (labelOccurrences caseFold label query).map
      (rangeOf caseFold (graphemes label) (foldText caseFold query).length),
      span.start < span.stop := by
    intro span hspan
    obtain ⟨i, hi, rfl⟩ := List.mem_map.1 hspan
    obtain ⟨first, afterLast, hparts⟩ := hrange i hi
    rw [hparts.range]
    exact (offset_lt (hsplit.nonempty label hlabel) (hparts.lt.trans_le hparts.le)).trans_le
      (offset_mono _ hparts.lt)
  have hjoined := Span.joined_foldl hproper
    (List.pairwise_map.2 ((occurrences_sorted _ _).imp_of_mem fun hi hj hlt => by
      obtain ⟨first, afterLast, hparts⟩ := hrange _ hi
      obtain ⟨first', afterLast', hparts'⟩ := hrange _ hj
      exact hparts.start_le hparts' hlt.le))
  have hpieces : ∀ piece ∈ (graphemes label).map (foldText caseFold), piece ≠ [] := by
    intro piece hpiece
    obtain ⟨grapheme, hgrapheme, rfl⟩ := List.mem_map.1 hpiece
    exact foldText_ne_nil hfold (hsplit.valid label hlabel grapheme hgrapheme)
      (hsplit.nonempty label hlabel grapheme hgrapheme)
  refine ⟨?_, highlights_of_joined hqueryNe hpieces hfolded hjoined,
    (hjoined.eq_nil_iff hproper).trans List.map_eq_nil_iff⟩
  unfold matchingOriginalRanges
  refine (foldGraphemes_computes 0 0 (graphemes label) {}).bind ?_
  rw [List.nil_append, List.nil_append, ← hfolded]
  exact hloop

end Ranges

/-! ## The nodes of a tree -/

section Tree

namespace RequestTreeModel

variable {model : RequestTreeModel} {path : Nat → List Bytes} {σ : Type}

/-- The nodes are visited in pre-order, each with its path. -/
theorem visitNodes_computes {cancelled : Nat → Bool}
    {visitor : σ → Nat → Bytes → List Bytes → Search σ} {next : σ → RequestNodeId → σ}
    (h : model.arena.Named path)
    (hvisit : ∀ state id, id < model.nodes.length →
      Checked.Computes cancelled .cancelled
        (visitor state (model.logicalPositions[id]?.getD 0) (model.node id).label (path id))
        (.ok (next state id)))
    (depth : Nat) (parent : Option RequestNodeId) (state : σ) :
    Checked.Computes cancelled .cancelled
      (model.visitNodes visitor (depth + 1) (model.arena.children parent)
        (Arena.pathOf path parent) state)
      (.ok ((model.arena.preorder depth parent).foldl next state)) := by
  induction depth generalizing parent state with
  | zero =>
    rw [visitNodes, Arena.preorder, List.foldl_flatMap]
    refine .foldlM (fun state id hid => ?_) state
    have hpath : Arena.pathOf path parent ++ [(model.node id).identifier] = path id :=
      (h.path_child hid).symm
    dsimp only
    rw [hpath]
    exact (hvisit state id (h.lt_of_mem hid)).bind (.pure _)
  | succ depth ih =>
    rw [visitNodes, Arena.preorder, List.foldl_flatMap]
    refine .foldlM (fun state id hid => ?_) state
    have hpath : Arena.pathOf path parent ++ [(model.node id).identifier] = path id :=
      (h.path_child hid).symm
    dsimp only
    rw [hpath, Arena.subtree_eq, List.foldl_cons]
    exact (hvisit state id (h.lt_of_mem hid)).bind (ih (some id) (next state id))

theorem visitLogicalNodes_computes {cancelled : Nat → Bool}
    {visitor : σ → Nat → Bytes → List Bytes → Search σ} {next : σ → RequestNodeId → σ}
    (h : model.arena.Named path)
    (hvisit : ∀ state id, id < model.nodes.length →
      Checked.Computes cancelled .cancelled
        (visitor state (model.logicalPositions[id]?.getD 0) (model.node id).label (path id))
        (.ok (next state id)))
    (state : σ) :
    Checked.Computes cancelled .cancelled (model.visitLogicalNodes visitor state)
      (.ok (model.preorder.foldl next state)) := by
  unfold visitLogicalNodes preorder
  cases hlength : model.nodes.length with
  | zero =>
    have hroots : model.arena.children none = [] :=
      List.eq_nil_iff_forall_not_mem.2 fun id hid => by
        have hlt : id < model.nodes.length := h.lt_of_mem hid
        rw [hlength] at hlt
        exact Nat.not_lt_zero _ hlt
    rw [visitNodes, Arena.preorder, hroots]
    exact .pure state
  | succ size => exact visitNodes_computes h hvisit size none state

end RequestTreeModel

/-! ## A search of the tree -/

section Search

variable {cancelled : Nat → Bool} {caseFold : Bytes → List Bytes} {graphemes : Bytes → List Bytes}
  {model : RequestTreeModel} {path : Nat → List Bytes} {query : Bytes}

/-- The match of a node whose label has an occurrence. -/
def nodeMatch (caseFold : Bytes → List Bytes) (graphemes : Bytes → List Bytes)
    (model : RequestTreeModel) (path : Nat → List Bytes) (query : Bytes) (id : RequestNodeId) :
    Option LabelMatch :=
  if labelOccurrences caseFold (model.node id).label query = [] then none
  else
    some
      { path := path id
        logicalPosition := model.logicalPositions[id]?.getD 0
        label := (model.node id).label
        ranges := labelRanges caseFold graphemes (model.node id).label query }

theorem runSearch_computes (hfold : FoldsCharacters caseFold) (hsplit : SplitsText graphemes)
    (hquery : Valid query) (hne : query ≠ []) (h : model.arena.Named path)
    (hlabels : ∀ node ∈ model.nodes, Valid node.label) (key : SearchRequestKey) :
    Checked.Computes cancelled .cancelled
      (runSearch cancelled caseFold graphemes { key, query, tree := model })
      (.ok (model.preorder.filterMap (nodeMatch caseFold graphemes model path query))) := by
  have hvisit : ∀ (found : List LabelMatch) (id : RequestNodeId), id < model.nodes.length →
      Checked.Computes cancelled .cancelled
        (matchNode cancelled caseFold graphemes (foldText caseFold query) found
          (model.logicalPositions[id]?.getD 0) (model.node id).label (path id))
        (.ok (found ++ (nodeMatch caseFold graphemes model path query id).toList)) := by
    intro found id hid
    have hlabel : Valid (model.node id).label := by
      unfold RequestTreeModel.node
      rw [List.getElem?_eq_getElem hid]
      exact hlabels _ (List.getElem_mem hid)
    obtain ⟨hranges, -, hempty⟩ :=
      @matchingOriginalRanges_computes cancelled _ _ _ _ hfold hsplit hlabel hquery hne
    unfold matchNode nodeMatch
    refine Checked.Computes.check.bind (hranges.bind ?_)
    by_cases hnone : labelOccurrences caseFold (model.node id).label query = []
    · rw [if_pos (by rw [hempty.2 hnone]; rfl), if_pos hnone, Option.toList_none, List.append_nil]
      exact .pure found
    · rw [if_neg (by rw [List.isEmpty_iff]; exact fun h => hnone (hempty.1 h)), if_neg hnone]
      exact .pure _
  have hcollect : ∀ (ids : List RequestNodeId) (found : List LabelMatch),
      ids.foldl (fun found id => found ++ (nodeMatch caseFold graphemes model path query id).toList)
        found = found ++ ids.filterMap (nodeMatch caseFold graphemes model path query) := by
    intro ids
    induction ids with
    | nil => exact fun found => (List.append_nil found).symm
    | cons id ids ih =>
      intro found
      rw [List.foldl_cons, ih, List.filterMap_cons, List.append_assoc]
      cases nodeMatch caseFold graphemes model path query id <;> rfl
  have hvisited := RequestTreeModel.visitLogicalNodes_computes h hvisit []
  rw [hcollect, List.nil_append] at hvisited
  unfold runSearch
  refine Checked.Computes.check.bind ?_
  dsimp only
  rw [if_neg (by rw [List.isEmpty_iff]; exact foldText_ne_nil hfold hquery hne)]
  exact hvisited.bind (Checked.Computes.check.bind (.pure _))

theorem pairwise_idxOf {ids : List RequestNodeId} (h : ids.Nodup) :
    ids.Pairwise fun left right => ids.idxOf left < ids.idxOf right := by
  rw [List.pairwise_iff_getElem]
  intro i j hi hj hlt
  rwa [h.idxOf_getElem, h.idxOf_getElem]

theorem findsNodes (hfold : FoldsCharacters caseFold) (hsplit : SplitsText graphemes)
    (hquery : Valid query) (hne : query ≠ []) (h : model.arena.Named path)
    (hlabels : ∀ node ∈ model.nodes, Valid node.label)
    (hcomplete : ∀ id, id ∈ model.preorder ↔ id < model.nodes.length)
    (hplaced : ∀ id < model.nodes.length,
      model.logicalPositions[id]? = some (model.preorder.idxOf id) ∧
      model.logicalPosition (path id) = some (model.preorder.idxOf id)) :
    FindsNodes caseFold graphemes model query
      (model.preorder.filterMap (nodeMatch caseFold graphemes model path query)) := by
  have hmatch : ∀ id labelMatch,
      nodeMatch caseFold graphemes model path query id = some labelMatch →
        labelMatch.path = path id ∧ labelMatch.label = (model.node id).label ∧
        labelMatch.logicalPosition = model.logicalPositions[id]?.getD 0 ∧
        labelMatch.ranges = labelRanges caseFold graphemes (model.node id).label query ∧
        labelOccurrences caseFold (model.node id).label query ≠ [] := by
    intro id labelMatch heq
    unfold nodeMatch at heq
    split at heq
    case isTrue => cases heq
    case isFalse hsome =>
      cases heq
      exact ⟨rfl, rfl, rfl, rfl, hsome⟩
  have hnodup : model.preorder.Nodup := h.nodup_preorder _ none
  constructor
  · refine List.pairwise_filterMap.2 ((pairwise_idxOf hnodup).imp_of_mem ?_)
    intro id other hid hother hlt labelMatch heq labelMatch' heq'
    rw [(hmatch id labelMatch heq).2.2.1, (hmatch other labelMatch' heq').2.2.1,
      (hplaced id ((hcomplete id).1 hid)).1, (hplaced other ((hcomplete other).1 hother)).1]
    exact hlt
  · refine List.pairwise_map.2 (List.pairwise_filterMap.2 (hnodup.imp_of_mem ?_))
    intro id other hid hother hdiffer labelMatch heq labelMatch' heq' hpath
    rw [(hmatch id labelMatch heq).1, (hmatch other labelMatch' heq').1] at hpath
    exact hdiffer (h.path_inj id other ((hcomplete id).1 hid) ((hcomplete other).1 hother) hpath)
  · intro start
    constructor
    · rintro ⟨labelMatch, hmem, rfl⟩
      obtain ⟨id, hid, heq⟩ := List.mem_filterMap.1 hmem
      obtain ⟨hpath, -, -, -, hsome⟩ := hmatch id labelMatch heq
      exact ⟨id, (RequestTreeModel.find_eq_some h).2 ⟨(hcomplete id).1 hid, hpath.symm⟩, hsome⟩
    · rintro ⟨id, hfind, hsome⟩
      obtain ⟨hid, hpath⟩ := (RequestTreeModel.find_eq_some h).1 hfind
      refine ⟨_, List.mem_filterMap.2 ⟨id, (hcomplete id).2 hid, if_neg hsome⟩, hpath⟩
  · intro labelMatch hmem
    obtain ⟨id, hmem, heq⟩ := List.mem_filterMap.1 hmem
    obtain ⟨hpath, hlabel, hposition, hranges, -⟩ := hmatch id labelMatch heq
    have hid := (hcomplete id).1 hmem
    refine ⟨id, (RequestTreeModel.find_eq_some h).2 ⟨hid, hpath.symm⟩, hlabel, ?_, ?_⟩
    · rw [hpath, hposition, (hplaced id hid).1, (hplaced id hid).2]
      rfl
    · have hvalid : Valid (model.node id).label := by
        unfold RequestTreeModel.node
        rw [List.getElem?_eq_getElem hid]
        exact hlabels _ (List.getElem_mem hid)
      rw [hranges]
      exact (@matchingOriginalRanges_computes (fun _ => false) _ _ _ _ hfold hsplit hvalid hquery
        hne).2.1

end Search

end Tree

/-! ## The search -/

/-- A query that is not empty is highlighted exactly, in every label and every tree; the
empty query has no matches. -/
theorem request_search_exact {cancelled : Nat → Bool} {caseFold : Bytes → List Bytes}
    {graphemes : Bytes → List Bytes} (hfold : FoldsCharacters caseFold)
    (hsplit : SplitsText graphemes) :
    (∀ label query, Valid label → Valid query → query ≠ [] → ∃ ranges,
      Checked.Computes cancelled .cancelled
        (matchingOriginalRanges cancelled caseFold graphemes label (foldText caseFold query))
        (.ok ranges) ∧ Highlights caseFold graphemes label query ranges) ∧
    ∀ (parse : Bytes → Option Url) (requests : List CaptureSummary) (model : RequestTreeModel)
      (key : SearchRequestKey) (query : Bytes),
      (requests.map CaptureSummary.sequence).Nodup →
      RequestTreeModel.fromRequests parse requests = some model →
      (∀ node ∈ model.nodes, Valid node.label) → Valid query → ∃ results,
        Checked.Computes cancelled .cancelled
          (runSearch cancelled caseFold graphemes { key, query, tree := model }) (.ok results) ∧
        (query ≠ [] → FindsNodes caseFold graphemes model query results) ∧
        (query = [] → results = []) := by
  refine ⟨fun label query hlabel hquery hne => ?_, ?_⟩
  · obtain ⟨hcomputes, hhighlights, -⟩ :=
      @matchingOriginalRanges_computes cancelled _ _ _ _ hfold hsplit hlabel hquery hne
    exact ⟨_, hcomputes, hhighlights⟩
  · intro parse requests model key query hnodup hmodel hlabels hquery
    by_cases hne : query = []
    · subst hne
      refine ⟨[], ?_, fun h => absurd rfl h, fun _ => rfl⟩
      unfold runSearch
      exact Checked.Computes.check.bind (.pure _)
    · have hentries : ((RequestTreeModel.entriesOf parse requests).map
          RequestTreeEntry.requestSequence).Nodup := by
        unfold RequestTreeModel.entriesOf
        rw [List.map_map]
        exact hnodup
      have hconsistent := (RequestTreeModel.fromRequests_consistent parse hnodup).1 model hmodel
      obtain ⟨base, path, rfl, hlimit, hbase⟩ := RequestTreeModel.exists_built hentries hmodel
      have h := (RequestTreeModel.built_rebuildSearchIndex hbase).named
      refine ⟨_, runSearch_computes hfold hsplit hquery hne h hlabels key, fun _ => ?_,
        fun hempty => absurd hempty hne⟩
      refine findsNodes hfold hsplit hquery hne h hlabels hconsistent.complete fun id hid => ?_
      refine ⟨RequestTreeModel.logicalPositions_rebuildSearchIndex hbase
        (hlimit.trans (by decide)) hid, ?_⟩
      exact hconsistent.positions (path id) id
        ((RequestTreeModel.find_eq_some h).2 ⟨hid, rfl⟩)

/-- A folding of the letter S and of the sharp s. -/
def sharpFold (c : Bytes) : List Bytes :=
  if c = [0xC3, 0x9F] then [ofAscii "s", ofAscii "s"]
  else if c = ofAscii "S" then [ofAscii "s"]
  else [c]

theorem sharpFold_foldsCharacters : FoldsCharacters sharpFold := by
  have hletter : IsChar (ofAscii "s") := by
    have hvalid : Valid (ofAscii "s") := fromUtf8_eq_none_iff.1 (by decide)
    exact hvalid.chars.1 _ (by decide)
  constructor
  · intro c hc d hd
    unfold sharpFold at hd
    split at hd
    · have heq : d = ofAscii "s" := by simpa using hd
      rwa [heq]
    · split at hd
      · rwa [List.mem_singleton.1 hd]
      · rwa [List.mem_singleton.1 hd]
  · intro c _
    unfold sharpFold
    split
    · exact List.cons_ne_nil _ _
    · split <;> exact List.cons_ne_nil _ _

/-- Texts without combining characters have their characters as graphemes. -/
theorem chars_splitsText : SplitsText chars where
  flatten := fun _ h => h.chars.2
  valid := fun _ h c hc => ⟨[c], by simpa using h.chars.1 c hc, by simp⟩
  nonempty := fun _ h c hc => List.length_pos_iff.1 (h.chars.1 c hc).length_pos

theorem request_search_exact_sample :
    (∃ ranges,
      Checked.Computes (fun _ => false) .cancelled
        (matchingOriginalRanges (fun _ => false) sharpFold chars [0x61, 0xC3, 0x9F, 0x62]
          (foldText sharpFold (ofAscii "S"))) (.ok ranges) ∧
      Highlights sharpFold chars [0x61, 0xC3, 0x9F, 0x62] (ofAscii "S") ranges) ∧
    ∃ model results,
      RequestTreeModel.fromRequests RequestTreeModel.sampleParse
        RequestTreeModel.sampleSummaries = some model ∧
      Checked.Computes (fun _ => false) .cancelled
        (runSearch (fun _ => false) sharpFold chars
          { key := { generation := 0, treeRevision := 0 }, query := ofAscii "list", tree := model })
        (.ok results) ∧
      FindsNodes sharpFold chars model (ofAscii "list") results := by
  obtain ⟨hranges, hsearch⟩ := @request_search_exact (fun _ => false) _ _ sharpFold_foldsCharacters
    chars_splitsText
  refine ⟨hranges [0x61, 0xC3, 0x9F, 0x62] (ofAscii "S") (fromUtf8_eq_none_iff.1 (by decide))
    (fromUtf8_eq_none_iff.1 (by decide)) (by decide), ?_⟩
  have hlabels : ∀ model, RequestTreeModel.fromRequests RequestTreeModel.sampleParse
      RequestTreeModel.sampleSummaries = some model → ∀ node ∈ model.nodes, Valid node.label := by
    have hall : (RequestTreeModel.fromRequests RequestTreeModel.sampleParse
        RequestTreeModel.sampleSummaries).all (fun model =>
          model.nodes.all fun node => fromUtf8 node.label = none) = true := by decide +kernel
    intro model hmodel node hnode
    rw [hmodel] at hall
    exact fromUtf8_eq_none_iff.1 (of_decide_eq_true (List.all_eq_true.1 hall node hnode))
  obtain ⟨results, hcomputes, hfinds, -⟩ := hsearch RequestTreeModel.sampleParse
    RequestTreeModel.sampleSummaries _ { generation := 0, treeRevision := 0 } (ofAscii "list")
    (by decide) rfl (hlabels _ rfl) (fromUtf8_eq_none_iff.1 (by decide))
  exact ⟨_, results, rfl, hcomputes, hfinds (by decide)⟩

/-- The empty query lies in every label, but the search has no match for it; and looked for
all the same it would highlight a character that folds to two. -/
theorem emptyQuery_not_exact :
    (matchingOriginalRanges (fun _ => false) sharpFold chars [0xC3, 0x9F]
      (foldText sharpFold [])).outcome 0 = .ok [⟨0, 2⟩] ∧
    ¬ Highlights sharpFold chars [0xC3, 0x9F] [] [⟨0, 2⟩] ∧
    ∃ model, RequestTreeModel.fromRequests RequestTreeModel.sampleParse
        RequestTreeModel.sampleSummaries = some model ∧
      (runSearch (fun _ => false) sharpFold chars
        { key := { generation := 0, treeRevision := 0 }, query := [], tree := model }).outcome 0 =
          .ok [] ∧
      ¬ FindsNodes sharpFold chars model [] [] := by
  refine ⟨by decide +kernel, fun h => ?_, _, rfl, rfl, fun h => ?_⟩
  · obtain ⟨i, -, k, ⟨-, place, hplace, -⟩, -⟩ :=
      (h.covers 0).1 ⟨⟨0, 2⟩, List.mem_cons_self, by decide, by decide⟩
    have hempty : (foldText sharpFold []).length = 0 := rfl
    omega
  · obtain ⟨labelMatch, hmem, -⟩ := (h.found [originIdentifier (ofAscii "https://a")]).2
      ⟨0, by decide +kernel, by decide +kernel⟩
    cases hmem

end Fluxcope.Requests
