import Fluxcope.Control.BodySearch
import Fluxcope.Library.Occurrences
/-!
# What a search reports

The matches are the occurrences of the folded query in the folded text, each mapped
back to the characters it lies in, and every slice is taken at characters.
-/

namespace Fluxcope.Control

open Fluxcope.Library Fluxcope.Library.Utf8

/-- What the search relies on about case folding: a character folds to one to three
characters, and one of a single byte to one. -/
structure CaseFolding (caseFold : Bytes → List Bytes) : Prop where
  pos : ∀ c, IsChar c → 1 ≤ (caseFold c).length
  le : ∀ c, IsChar c → (caseFold c).length ≤ 3
  single : ∀ c, IsChar c → c.length = 1 → (caseFold c).length = 1

/-- A folded character and the place of the character it comes from. -/
abbrev FoldedUnit := Bytes × OriginalBoundary

def unitsFrom (caseFold : Bytes → List Bytes) : Nat → List Bytes → List FoldedUnit
  | _, [] => []
  | start, c :: cs =>
    (caseFold c).map (fun value => (value, { start, stop := start + c.length })) ++
      unitsFrom caseFold (start + c.length) cs

/-- The folded text with the places of its units. -/
def foldedUnits (caseFold : Bytes → List Bytes) (text : Bytes) : List FoldedUnit :=
  unitsFrom caseFold 0 (chars text)

/-- Where the occurrences of the query lie in the text: from the start of the character
of the first unit to the end of the character of the last. -/
def matchSpans (query : List Bytes) (units : List FoldedUnit) : List (Nat × Nat) :=
  (occurrences query (units.map Prod.fst)).map fun i =>
    ((units[i]?.map fun unit => unit.2.start).getD 0,
      (units[i + query.length - 1]?.map fun unit => unit.2.stop).getD 0)

def between (text : Bytes) (start stop : Nat) : Bytes := (text.drop start).take (stop - start)

/-- What is reported of a match. -/
structure ReportsMatch (settings : BodySearchSettings) (span : Nat × Nat)
    (found : BodySearchMatch) : Prop where
  range : found.originalRange = { offset := span.1, length := span.2 - span.1 }
  matched : found.matched = between settings.text span.1 span.2
  before : ∃ first, first ≤ span.1 ∧ span.1 - first ≤ settings.contextBytes ∧
    IsBoundary settings.text first ∧ found.contextBefore = between settings.text first span.1
  after : ∃ last, span.2 ≤ last ∧ last ≤ settings.text.length ∧
    last - span.2 ≤ settings.contextBytes ∧ IsBoundary settings.text last ∧
    found.contextAfter = between settings.text span.2 last
  window : ∃ first last, first ≤ span.1 ∧ span.2 ≤ last ∧ last ≤ settings.text.length ∧
    last - first ≤ maxBodyPageLength ∧ IsBoundary settings.text first ∧
    IsBoundary settings.text last ∧
    found.resourceUri = uriWithRange settings.decodedUri first (last - first)

/-! ## Cuts -/

section Cuts

variable {text : Bytes}

theorem alignedStartFrom_spec (hvalid : Valid text) {fuel offset good : Nat}
    (hfuel : good ≤ offset + fuel) (hle : offset ≤ good) (hgood : IsBoundary text good)
    (hlength : good ≤ text.length) :
    offset ≤ alignedStartFrom text fuel offset ∧ alignedStartFrom text fuel offset ≤ good ∧
      IsBoundary text (alignedStartFrom text fuel offset) := by
  induction fuel generalizing offset with
  | zero =>
    obtain rfl : offset = good := by omega
    exact ⟨Nat.le_refl _, Nat.le_refl _, hgood⟩
  | succ fuel ih =>
    rw [alignedStartFrom]
    by_cases hboundary : isCharBoundary text offset = true
    · rw [if_neg (by simp [hboundary])]
      exact ⟨Nat.le_refl _, hle, (isCharBoundary_iff hvalid).1 hboundary⟩
    · have hne : offset ≠ good := by
        rintro rfl
        exact hboundary ((isCharBoundary_iff hvalid).2 hgood)
      have hlt : offset < text.length := by omega
      rw [if_pos (by simpa [hlt] using hboundary)]
      obtain ⟨hge, hwithin, hat⟩ := @ih (offset + 1) (by omega) (by omega)
      exact ⟨by omega, hwithin, hat⟩

theorem alignedStart_spec (hvalid : Valid text) {offset good : Nat} (hle : offset ≤ good)
    (hgood : IsBoundary text good) (hlength : good ≤ text.length) :
    offset ≤ alignedStart text offset ∧ alignedStart text offset ≤ good ∧
      IsBoundary text (alignedStart text offset) :=
  alignedStartFrom_spec hvalid (by omega) hle hgood hlength

theorem alignedEnd_spec (hvalid : Valid text) {offset good : Nat} (hle : good ≤ offset)
    (hgood : IsBoundary text good) :
    good ≤ alignedEnd text offset ∧ alignedEnd text offset ≤ offset ∧
      IsBoundary text (alignedEnd text offset) := by
  obtain ⟨hge, hwithin, hat⟩ := lowerTo_spec (p := isCharBoundary text) (Nat.zero_le good)
    ((isCharBoundary_iff hvalid).2 hgood) hle
  exact ⟨hge, hwithin, (isCharBoundary_iff hvalid).1 hat⟩

/-- Where a match lies. -/
structure IsSpan (text : Bytes) (page start stop : Nat) : Prop where
  lt : start < stop
  le : stop ≤ text.length
  startBoundary : IsBoundary text start
  stopBoundary : IsBoundary text stop
  short : stop - start ≤ page

/-- The end of a window is a boundary behind a good place, and not beyond the limit. -/
theorem windowEnd_spec (hvalid : Valid text) (hsize : text.length ≤ wordMax)
    {start length good : Nat} (hle : good ≤ start + length) (hgood : IsBoundary text good)
    (hlength : good ≤ text.length) :
    good ≤ alignedEnd text (min (satAdd start length) text.length) ∧
      alignedEnd text (min (satAdd start length) text.length) ≤ start + length ∧
      alignedEnd text (min (satAdd start length) text.length) ≤ text.length ∧
      IsBoundary text (alignedEnd text (min (satAdd start length) text.length)) := by
  have hsaturated : good ≤ satAdd start length := le_min hle (hlength.trans hsize)
  obtain ⟨hge, hwithin, hat⟩ := alignedEnd_spec hvalid (le_min hsaturated hlength) hgood
  exact ⟨hge, hwithin.trans ((min_le_left _ _).trans (satAdd_le _ _)),
    hwithin.trans (min_le_right _ _), hat⟩

theorem sub_le_of_le_add {a b c : Nat} (h : a ≤ b + c) : a - b ≤ c := by
  omega

theorem sub_le_comm {a b c : Nat} (h : a - b ≤ c) : a - c ≤ b := by
  omega

/-- A window covers a match that is not longer than a page. -/
structure Covers (text : Bytes) (page start stop : Nat) (window : Nat × Nat) : Prop where
  first : window.1 ≤ start
  last : stop ≤ window.2
  within : window.2 ≤ text.length
  size : window.2 - window.1 ≤ page
  firstBoundary : IsBoundary text window.1
  lastBoundary : IsBoundary text window.2

theorem coveringWindow_covers (hvalid : Valid text) (hsize : text.length ≤ wordMax)
    {margin page start stop : Nat} (h : IsSpan text page start stop) :
    Covers text page start stop (coveringWindow margin page text start stop) := by
  have hstartLe : start ≤ text.length := (Nat.le_of_lt h.lt).trans h.le
  obtain ⟨-, hfirst, hfirstBoundary⟩ := alignedStart_spec hvalid
    (Nat.sub_le start margin) h.startBoundary hstartLe
  obtain ⟨hlast, -, hlastLe, hlastBoundary⟩ := windowEnd_spec hvalid hsize
    (Nat.le_add_right stop margin) h.stopBoundary h.le
  unfold coveringWindow
  dsimp only
  generalize alignedStart text (start - margin) = first at *
  generalize alignedEnd text (min (satAdd stop margin) text.length) = last at *
  split
  · rename_i hpage
    exact ⟨hfirst, hlast, hlastLe, hpage, hfirstBoundary, hlastBoundary⟩
  · have hlate : max first (stop - page) ≤ start := max_le hfirst (sub_le_comm h.short)
    obtain ⟨hge, hwindow, hwindowBoundary⟩ :=
      alignedStart_spec hvalid hlate h.startBoundary hstartLe
    generalize alignedStart text (max first (stop - page)) = windowStart at *
    have hcovered : stop ≤ windowStart + page :=
      Nat.le_add_of_sub_le ((le_max_right first (stop - page)).trans hge)
    obtain ⟨hend, hendLe, hendLength, hendBoundary⟩ :=
      windowEnd_spec hvalid hsize hcovered h.stopBoundary h.le
    exact ⟨hwindow, hend, hendLength, sub_le_of_le_add hendLe, hwindowBoundary, hendBoundary⟩

variable {cancelled : Nat → Bool}

theorem sliceText_computes (hvalid : Valid text) {start stop : Nat} (hle : start ≤ stop)
    (hlength : stop ≤ text.length) (hstart : IsBoundary text start) (hstop : IsBoundary text stop) :
    Checked.Computes cancelled bodySearchCancelled (sliceText text start stop)
      (.ok (between text start stop)) := by
  unfold sliceText
  rw [if_pos (by simp [hle, hlength, (isCharBoundary_iff hvalid).2 hstart,
    (isCharBoundary_iff hvalid).2 hstop])]
  exact .pure _

theorem searchMatch_computes {settings : BodySearchSettings} (hvalid : Valid settings.text)
    (hsize : settings.text.length ≤ wordMax) {start stop : Nat}
    (h : IsSpan settings.text maxBodyPageLength start stop) : ∃ found,
      Checked.Computes cancelled bodySearchCancelled
        (searchMatch settings.text settings.contextBytes settings.decodedUri start stop)
        (.ok found) ∧ ReportsMatch settings (start, stop) found := by
  have hstartLe : start ≤ settings.text.length := (Nat.le_of_lt h.lt).trans h.le
  have hcovers : Covers settings.text maxBodyPageLength start stop
      (boundedCoveringWindow settings.text start stop) := coveringWindow_covers hvalid hsize h
  obtain ⟨hbefore, hbeforeLe, hbeforeBoundary⟩ := alignedStart_spec hvalid
    (Nat.sub_le start settings.contextBytes) h.startBoundary hstartLe
  obtain ⟨hafter, hafterLe, hafterLength, hafterBoundary⟩ := windowEnd_spec hvalid hsize
    (Nat.le_add_right stop settings.contextBytes) h.stopBoundary h.le
  unfold searchMatch
  dsimp only
  refine ⟨_, (sliceText_computes hvalid (Nat.le_of_lt h.lt) h.le h.startBoundary
      h.stopBoundary).bind
    ((sliceText_computes hvalid hbeforeLe hstartLe hbeforeBoundary h.startBoundary).bind
      ((sliceText_computes hvalid hafter hafterLength h.stopBoundary hafterBoundary).bind
        (.pure _))), ?_⟩
  exact
    { range := rfl
      matched := rfl
      before := ⟨_, hbeforeLe, sub_le_comm hbefore,
        hbeforeBoundary, rfl⟩
      after := ⟨_, hafter, hafterLength, sub_le_of_le_add hafterLe, hafterBoundary, rfl⟩
      window := ⟨_, _, hcovers.first, hcovers.last, hcovers.within, hcovers.size,
        hcovers.firstBoundary, hcovers.lastBoundary, rfl⟩ }

end Cuts

/-! ## The units of a text -/

section Units

variable {text : Bytes} {caseFold : Bytes → List Bytes}

/-- The units come from the characters in order, and no character is left out. -/
structure FromChars (text : Bytes) (units : List FoldedUnit) : Prop where
  each : ∀ unit ∈ units, IsBoundary text unit.2.start ∧ IsBoundary text unit.2.stop ∧
    unit.2.start < unit.2.stop ∧ unit.2.stop ≤ unit.2.start + 4 ∧ unit.2.stop ≤ text.length
  next : units.IsChain fun left right =>
    right.2 = left.2 ∨ right.2.start = left.2.stop

theorem unitsFrom_head (hfold : CaseFolding caseFold) {start : Nat} {cs : List Bytes}
    (hcs : ∀ c ∈ cs, IsChar c) {unit : FoldedUnit}
    (h : (unitsFrom caseFold start cs).head? = some unit) : unit.2.start = start := by
  cases cs with
  | nil => cases h
  | cons c cs =>
    have hpos := hfold.pos c (hcs c List.mem_cons_self)
    rw [unitsFrom] at h
    cases hfolded : caseFold c with
    | nil =>
      rw [hfolded] at hpos
      simp at hpos
    | cons value rest =>
      rw [hfolded, List.map_cons, List.cons_append, List.head?_cons] at h
      cases h
      rfl

theorem unitsFrom_fromChars (hfold : CaseFolding caseFold) {before : Bytes} {cs : List Bytes}
    (hcs : ∀ c ∈ cs, IsChar c) (htext : text = before ++ cs.flatten) :
    FromChars text (unitsFrom caseFold before.length cs) := by
  induction cs generalizing before with
  | nil => exact ⟨fun unit hunit => (by cases hunit), .nil⟩
  | cons c cs ih =>
    have hc := hcs c List.mem_cons_self
    have hrest : ∀ d ∈ cs, IsChar d := fun d hd => hcs d (List.mem_cons_of_mem c hd)
    have htail := @ih (before ++ c) hrest
      (by rw [htext, List.flatten_cons, List.append_assoc])
    rw [List.length_append] at htail
    have hstart : IsBoundary text before.length := by
      rw [htext, isBoundary_append_iff (Nat.le_refl _), Nat.sub_self, List.flatten_cons]
      exact hc.isBoundary_zero cs.flatten
    have hstop : IsBoundary text (before.length + c.length) := by
      rw [htext, List.flatten_cons, ← List.append_assoc, ← List.length_append,
        isBoundary_append_iff (Nat.le_refl _), Nat.sub_self]
      exact Valid.isBoundary_zero ⟨cs, hrest, rfl⟩
    have hlength : before.length + c.length ≤ text.length := by
      rw [htext, List.flatten_cons, List.length_append, List.length_append]
      omega
    have hwidth := hc.length_le
    have hpos := hc.length_pos
    rw [unitsFrom]
    constructor
    · intro unit hunit
      rcases List.mem_append.1 hunit with hunit | hunit
      · obtain ⟨value, -, rfl⟩ := List.mem_map.1 hunit
        exact ⟨hstart, hstop, by dsimp only; omega, by dsimp only; omega, hlength⟩
      · exact htail.each unit hunit
    · refine List.isChain_append.2 ⟨?_, htail.next, ?_⟩
      · exact (List.pairwise_map.2 (List.pairwise_of_forall
          fun _ _ => .inl rfl)).isChain
      · intro left hleft right hright
        obtain ⟨value, -, rfl⟩ := List.mem_map.1 (List.mem_of_getLast? hleft)
        exact .inr (unitsFrom_head hfold hrest hright)

theorem foldedUnits_fromChars (hfold : CaseFolding caseFold) (hvalid : Valid text) :
    FromChars text (foldedUnits caseFold text) := by
  obtain ⟨hcs, hflatten⟩ := hvalid.chars
  exact @unitsFrom_fromChars _ _ hfold [] _ hcs (by rw [hflatten, List.nil_append])

/-- Units that follow each other lie in characters that do. -/
theorem FromChars.range {units : List FoldedUnit} (h : FromChars text units) {i count : Nat}
    {first last : FoldedUnit} (hfirst : units[i]? = some first)
    (hlast : units[i + count]? = some last) :
    first.2.start ≤ last.2.start ∧ last.2.stop ≤ first.2.start + 4 * (count + 1) := by
  induction count generalizing last with
  | zero =>
    obtain rfl := Option.some.inj (hfirst.symm.trans hlast)
    obtain ⟨-, -, -, hwidth, -⟩ := h.each _ (List.mem_of_getElem? hfirst)
    exact ⟨Nat.le_refl _, by omega⟩
  | succ count ih =>
    have hlt := (List.getElem?_eq_some_iff.1 hlast).1
    have hprevious := List.getElem?_eq_getElem (show i + count < units.length by omega)
    generalize units[i + count] = previous at hprevious
    obtain ⟨hstart, hstop⟩ := ih hprevious
    have hnext : last.2 = previous.2 ∨ last.2.start = previous.2.stop := by
      have hchain := List.isChain_iff_getElem.1 h.next (i + count) (by omega)
      obtain ⟨hprev, rfl⟩ := List.getElem?_eq_some_iff.1 hprevious
      obtain ⟨hl, rfl⟩ := List.getElem?_eq_some_iff.1 hlast
      exact hchain
    obtain ⟨-, -, hpos, hwidth, -⟩ := h.each _ (List.mem_of_getElem? hprevious)
    obtain ⟨-, -, hpos', hwidth', -⟩ := h.each _ (List.mem_of_getElem? hlast)
    rcases hnext with heq | hadjacent
    · rw [heq]
      exact ⟨hstart, by omega⟩
    · exact ⟨by omega, by omega⟩

theorem FromChars.left {units more : List FoldedUnit} (h : FromChars text (units ++ more)) :
    FromChars text units :=
  ⟨fun unit hunit => h.each unit (List.mem_append_left more hunit),
    (List.isChain_append.1 h.next).1⟩

end Units

/-! ## The folded query -/

section Query

variable {caseFold : Bytes → List Bytes}

/-- A query folds to at most two units for each of its bytes. -/
theorem length_fold_le (hfold : CaseFolding caseFold) {query : Bytes} (hvalid : Valid query) :
    ((chars query).flatMap caseFold).length ≤ 2 * query.length := by
  obtain ⟨hcs, hflatten⟩ := hvalid.chars
  have hall : ∀ cs : List Bytes, (∀ c ∈ cs, IsChar c) →
      (cs.flatMap caseFold).length ≤ 2 * cs.flatten.length := by
    intro cs hcs
    induction cs with
    | nil => exact Nat.le_refl 0
    | cons c cs ih =>
      have hc := hcs c List.mem_cons_self
      have hrest := ih fun d hd => hcs d (List.mem_cons_of_mem c hd)
      have hpos := hc.length_pos
      have hle := hfold.le c hc
      have hone := hfold.single c hc
      rw [List.flatMap_cons, List.flatten_cons, List.length_append, List.length_append]
      by_cases hsingle : c.length = 1
      · have := hone hsingle
        omega
      · omega
  have h := hall _ hcs
  rwa [hflatten] at h

theorem fold_ne_nil (hfold : CaseFolding caseFold) {query : Bytes} (hvalid : Valid query)
    (hne : query ≠ []) : (chars query).flatMap caseFold ≠ [] := by
  obtain ⟨hcs, hflatten⟩ := hvalid.chars
  cases hchars : chars query with
  | nil =>
    rw [hchars] at hflatten
    exact absurd hflatten.symm hne
  | cons c cs =>
    rw [hchars] at hcs
    have hpos := hfold.pos c (hcs c List.mem_cons_self)
    intro hnil
    rw [List.flatMap_cons] at hnil
    rw [(List.append_eq_nil_iff.1 hnil).1] at hpos
    exact absurd hpos (by decide)

end Query

/-! ## The spans -/

section Spans

variable {text : Bytes} {query : List Bytes}

theorem matchSpans_nil (hquery : query ≠ []) : matchSpans query [] = [] := by
  have hpos : 0 < query.length := List.length_pos_iff.2 hquery
  unfold matchSpans occurrences
  rw [List.map_nil, List.length_nil, Nat.sub_eq_zero_of_le (by omega)]
  rfl

/-- A further unit ends at most one span. -/
theorem matchSpans_concat (hquery : query ≠ []) (seen : List FoldedUnit) (unit : FoldedUnit) :
    matchSpans query (seen ++ [unit]) = matchSpans query seen ++
      if query <:+ seen.map Prod.fst ++ [unit.1] then
        [((((seen ++ [unit])[seen.length + 1 - query.length]?).map fun u => u.2.start).getD 0,
          unit.2.stop)]
      else [] := by
  have hpos : 0 < query.length := List.length_pos_iff.2 hquery
  unfold matchSpans
  rw [List.map_append, List.map_singleton, occurrences_concat hquery, List.map_append,
    List.length_map]
  congr 1
  · refine List.map_congr_left fun i hi => ?_
    have hfit := (mem_occurrences.1 hi).1
    rw [List.length_map] at hfit
    rw [List.getElem?_append_left (by omega), List.getElem?_append_left (by omega)]
  · split
    case isTrue hends =>
        have hlength := hends.length_le
        rw [List.length_append, List.length_map, List.length_singleton] at hlength
        rw [List.map_singleton, Nat.sub_add_cancel hlength, Nat.add_sub_cancel,
          List.getElem?_concat_length]
        rfl
    case isFalse => rfl

theorem isSpan_of_mem {units : List FoldedUnit} (h : FromChars text units) (hquery : query ≠ [])
    {page : Nat} (hpage : 4 * query.length ≤ page) {span : Nat × Nat}
    (hspan : span ∈ matchSpans query units) : IsSpan text page span.1 span.2 := by
  have hpos : 0 < query.length := List.length_pos_iff.2 hquery
  obtain ⟨i, hi, rfl⟩ := List.mem_map.1 hspan
  have hfit := (mem_occurrences.1 hi).1
  rw [List.length_map] at hfit
  have hfirst := List.getElem?_eq_getElem (show i < units.length by omega)
  have hlast := List.getElem?_eq_getElem (show i + (query.length - 1) < units.length by omega)
  generalize units[i] = first at hfirst
  generalize units[i + (query.length - 1)] = last at hlast
  obtain ⟨hstart, -, -, -, -⟩ := h.each first (List.mem_of_getElem? hfirst)
  obtain ⟨-, hstop, hlt, -, hle⟩ := h.each last (List.mem_of_getElem? hlast)
  obtain ⟨horder, hwidth⟩ := h.range hfirst hlast
  rw [Nat.sub_add_cancel hpos] at hwidth
  rw [Nat.add_sub_assoc hpos, hfirst, hlast]
  exact ⟨Nat.lt_of_le_of_lt horder hlt, hle, hstart, hstop,
    (sub_le_of_le_add hwidth).trans hpage⟩

end Spans

/-! ## The matcher -/

/-- The matcher has seen these units. -/
structure MatcherInv (query : List Bytes) (seen : List FoldedUnit) (matcher : FoldedMatcher) :
    Prop where
  query_eq : matcher.query = query
  failure_eq : matcher.failure = Kmp.failureTable query
  size : matcher.boundaries.length = query.length
  ring : Ring.Holds matcher.boundaries matcher.nextBoundary (seen.map Prod.snd)
  longest : Kmp.LongestBelow query query.length (seen.map Prod.fst) matcher.matched

section Matcher

variable {cancelled : Nat → Bool} {query : List Bytes}

theorem checkWhen_computes (condition : Bool) :
    Checked.Computes cancelled bodySearchCancelled (checkWhen cancelled condition) (.ok ()) := by
  unfold checkWhen
  split
  · exact .check
  · exact .pure _

theorem tableChecks_computes (indexes : List Nat) :
    Checked.Computes cancelled bodySearchCancelled (tableChecks cancelled indexes) (.ok ()) := by
  induction indexes with
  | nil => exact .pure _
  | cons index rest ih => exact (checkWhen_computes _).bind ih

theorem new_computes (hquery : query ≠ []) : ∃ matcher,
    Checked.Computes cancelled bodySearchCancelled (FoldedMatcher.new cancelled query)
      (.ok matcher) ∧ MatcherInv query [] matcher := by
  unfold FoldedMatcher.new
  rw [if_neg (by rwa [List.isEmpty_iff])]
  refine ⟨_, (tableChecks_computes _).bind (.pure _), ?_⟩
  exact
    { query_eq := rfl
      failure_eq := rfl
      size := List.length_replicate
      ring := .start
      longest := .start (List.length_pos_iff.2 hquery) (Nat.le_refl _) }

/-- The matcher finds the span that the unit ends. -/
theorem push_computes (hquery : query ≠ []) {seen : List FoldedUnit} {matcher : FoldedMatcher}
    (h : MatcherInv query seen matcher) (value : Bytes) (boundary : OriginalBoundary) :
    ∃ found matcher',
      Checked.Computes cancelled bodySearchCancelled (matcher.push cancelled value boundary)
        (.ok (found, matcher')) ∧
      MatcherInv query (seen ++ [(value, boundary)]) matcher' ∧
      matchSpans query (seen ++ [(value, boundary)]) =
        matchSpans query seen ++ found.toList := by
  have hpos : 0 < query.length := List.length_pos_iff.2 hquery
  have hsize : (matcher.boundaries.set matcher.nextBoundary boundary).length = query.length :=
    List.length_set.trans h.size
  have hhistory : seen.map Prod.snd ++ [boundary] = (seen ++ [(value, boundary)]).map Prod.snd := by
    rw [List.map_append, List.map_singleton]
  have hring := h.ring.push (by rw [h.size]; exact hpos) boundary
  have hends := Kmp.advance_eq_length_iff h.longest value
  have hspans := matchSpans_concat hquery seen (value, boundary)
  unfold FoldedMatcher.push
  rw [h.query_eq, h.failure_eq]
  dsimp only
  by_cases hfull : Kmp.advance query (Kmp.failureTable query) value matcher.matched = query.length
  · have hfits := (hends.1 hfull).length_le
    rw [List.length_append, List.length_map, List.length_singleton] at hfits
    have holdest := hring.oldest (by rw [hsize]; exact hpos)
      (by rw [hsize, List.length_append, List.length_map]; exact hfits)
    rw [hsize, hhistory, List.getElem?_map, List.length_map, List.length_append,
      List.length_singleton] at holdest
    obtain ⟨first, hfirst⟩ : ∃ first,
        (seen ++ [(value, boundary)])[seen.length + 1 - query.length]? = some first :=
      ⟨_, List.getElem?_eq_getElem (by rw [List.length_append, List.length_singleton]; omega)⟩
    rw [hfirst, Option.map_some] at holdest
    rw [if_pos (hends.1 hfull), hfirst] at hspans
    rw [if_neg (Classical.not_not.2 hfull), hsize, holdest]
    refine ⟨_, _, (checkWhen_computes _).bind (.pure _), ?_, hspans⟩
    exact
      { query_eq := rfl
        failure_eq := rfl
        size := hsize
        ring := by
          rw [← hhistory]
          rwa [hsize] at hring
        longest := by
          rw [List.map_append, List.map_singleton, hfull]
          exact Kmp.advance_after_match h.longest hfull }
  · rw [if_neg fun hsuffix => hfull (hends.2 hsuffix)] at hspans
    rw [if_pos hfull]
    refine ⟨_, _, (checkWhen_computes _).bind (.pure _), ?_, hspans⟩
    exact
      { query_eq := rfl
        failure_eq := rfl
        size := hsize
        ring := by
          rw [← hhistory]
          exact hring
        longest := by
          rw [List.map_append, List.map_singleton]
          exact Kmp.advance_of_ne h.longest hfull }

end Matcher

/-! ## The whole search -/

/-- Every span of these units has been counted, and the first ones are reported. -/
structure BodySearchInv (settings : BodySearchSettings) (query : List Bytes)
    (seen : List FoldedUnit) (state : BodySearchState) : Prop where
  matcher : MatcherInv query seen state.matcher
  total : state.totalMatches = (matchSpans query seen).length
  found : List.Forall₂ (ReportsMatch settings) ((matchSpans query seen).take settings.limit)
    state.foundMatches

section Search

variable {cancelled : Nat → Bool} {caseFold : Bytes → List Bytes} {query : List Bytes}
  {settings : BodySearchSettings}

theorem noteMatch_computes (hvalid : Valid settings.text) (hsize : settings.text.length ≤ wordMax)
    {seen : List FoldedUnit} {state : BodySearchState} (h : BodySearchInv settings query seen state)
    {unit : FoldedUnit} {matcher : FoldedMatcher} {span : Nat × Nat}
    (hmatcher : MatcherInv query (seen ++ [unit]) matcher)
    (hspans : matchSpans query (seen ++ [unit]) = matchSpans query seen ++ [span])
    (hspan : IsSpan settings.text maxBodyPageLength span.1 span.2) : ∃ state',
      Checked.Computes cancelled bodySearchCancelled
        (noteMatch settings state matcher span.1 span.2) (.ok state') ∧
      BodySearchInv settings query (seen ++ [unit]) state' := by
  have hfound := h.found.length_eq
  rw [List.length_take] at hfound
  have htotal : state.totalMatches + 1 = (matchSpans query (seen ++ [unit])).length := by
    rw [hspans, List.length_append, List.length_singleton, h.total]
  unfold noteMatch
  by_cases hlimit : state.foundMatches.length ≥ settings.limit
  · rw [if_pos hlimit]
    have hkept : settings.limit ≤ (matchSpans query seen).length := by omega
    refine ⟨_, .pure _, hmatcher, htotal, ?_⟩
    rw [hspans, List.take_append_of_le_length hkept]
    exact h.found
  · rw [if_neg hlimit]
    obtain ⟨found, hcomputes, hreports⟩ := @searchMatch_computes cancelled settings hvalid hsize
      span.1 span.2 hspan
    have hroom : (matchSpans query seen ++ [span]).length ≤ settings.limit := by
      rw [List.length_append, List.length_singleton]
      omega
    have hshort : (matchSpans query seen).length ≤ settings.limit := by
      rw [List.length_append] at hroom
      omega
    refine ⟨_, hcomputes.bind (.pure _), hmatcher, htotal, ?_⟩
    have hold := h.found
    rw [List.take_of_length_le hshort] at hold
    rw [hspans, List.take_of_length_le hroom]
    exact List.rel_append hold (.cons hreports .nil)

/-- The settings and the query of a search. -/
structure Searchable (settings : BodySearchSettings) (query : List Bytes) : Prop where
  valid : Valid settings.text
  size : settings.text.length ≤ wordMax
  query_ne : query ≠ []
  query_le : 4 * query.length ≤ maxBodyPageLength

theorem pushUnits_computes (hsearch : Searchable settings query) {boundary : OriginalBoundary}
    {values : List Bytes} {seen : List FoldedUnit} {state : BodySearchState}
    (hunits : FromChars settings.text (seen ++ values.map fun value => (value, boundary)))
    (h : BodySearchInv settings query seen state) : ∃ state',
      Checked.Computes cancelled bodySearchCancelled
        (pushUnits cancelled settings boundary values state) (.ok state') ∧
      BodySearchInv settings query (seen ++ values.map fun value => (value, boundary)) state' := by
  induction values generalizing seen state with
  | nil =>
    rw [List.map_nil, List.append_nil]
    exact ⟨state, .pure _, h⟩
  | cons value rest ih =>
    rw [List.map_cons, List.append_cons] at hunits ⊢
    obtain ⟨found, matcher, hpush, hmatcher, hspans⟩ :=
      @push_computes cancelled query hsearch.query_ne seen state.matcher h.matcher value boundary
    rw [pushUnits]
    cases found with
    | none =>
      rw [Option.toList_none, List.append_nil] at hspans
      obtain ⟨state', hrest, hinv⟩ := @ih _ { state with matcher } hunits
        ⟨hmatcher, by rw [hspans]; exact h.total, by rw [hspans]; exact h.found⟩
      exact ⟨state', hpush.bind hrest, hinv⟩
    | some span =>
      rw [Option.toList_some] at hspans
      have hspan : span ∈ matchSpans query (seen ++ [(value, boundary)]) := by
        rw [hspans]
        exact List.mem_append_right _ (List.mem_singleton.2 rfl)
      obtain ⟨noted, hnote, hinv⟩ := @noteMatch_computes cancelled query settings hsearch.valid
        hsearch.size seen state h (value, boundary) matcher span hmatcher hspans
        (isSpan_of_mem hunits.left hsearch.query_ne hsearch.query_le hspan)
      obtain ⟨state', hrest, hinv'⟩ := ih hunits hinv
      exact ⟨state', hpush.bind (hnote.bind hrest), hinv'⟩

theorem searchChars_computes (hsearch : Searchable settings query) {cs : List Bytes}
    {start scanned : Nat} {seen : List FoldedUnit} {state : BodySearchState}
    (hunits : FromChars settings.text (seen ++ unitsFrom caseFold start cs))
    (h : BodySearchInv settings query seen state) : ∃ state',
      Checked.Computes cancelled bodySearchCancelled
        (searchChars cancelled caseFold settings (charIndicesFrom start cs) scanned state)
        (.ok state') ∧
      BodySearchInv settings query (seen ++ unitsFrom caseFold start cs) state' := by
  induction cs generalizing start scanned seen state with
  | nil =>
    rw [unitsFrom, List.append_nil]
    exact ⟨state, .pure _, h⟩
  | cons c cs ih =>
    rw [unitsFrom, ← List.append_assoc] at hunits ⊢
    obtain ⟨pushed, hpush, hinv⟩ := @pushUnits_computes cancelled query settings hsearch _ _ _ _
      hunits.left h
    obtain ⟨state', hrest, hinv'⟩ := ih hunits hinv
    exact ⟨state', hpush.bind ((checkWhen_computes _).bind hrest), hinv'⟩

theorem foldQuery_computes (cs : List Bytes) (scanned : Nat) (folded : List Bytes) :
    Checked.Computes cancelled bodySearchCancelled (foldQuery cancelled caseFold cs scanned folded)
      (.ok (folded ++ cs.flatMap caseFold)) := by
  induction cs generalizing scanned folded with
  | nil =>
    rw [List.flatMap_nil, List.append_nil]
    exact .pure _
  | cons c cs ih =>
    rw [List.flatMap_cons, ← List.append_assoc]
    exact (checkWhen_computes _).bind (ih _ _)

theorem accepted_query {query : Bytes} {limit contextBytes : Nat}
    (h : searchArgumentError query limit contextBytes = none) :
    query ≠ [] ∧ query.length ≤ maxBodySearchQueryBytes := by
  unfold searchArgumentError at h
  split at h
  case isTrue => cases h
  case isFalse hempty =>
      split at h
      case isTrue => cases h
      case isFalse hlong =>
          rw [List.isEmpty_iff] at hempty
          exact ⟨hempty, Nat.le_of_not_lt hlong⟩

/-- A page holds every match of an accepted query: a unit comes from at most four bytes. -/
theorem match_fits_page {query : Bytes} (hquery : query.length ≤ maxBodySearchQueryBytes)
    {units : Nat} (hunits : units ≤ 2 * query.length) : 4 * units ≤ maxBodyPageLength := by
  have hpage : maxBodyPageLength = 8 * maxBodySearchQueryBytes := by decide
  rw [hpage]
  omega

variable {decoded : Bytes} {limit contextBytes : Nat}

theorem searchCaptureBody_computes (hfold : CaseFolding caseFold) {query : Bytes}
    (hdecoded : Valid decoded) (hsize : decoded.length ≤ wordMax) (hquery : Valid query)
    (haccepted : searchArgumentError query limit contextBytes = none) (decodedUri rawUri : String) :
    ∃ state,
      Checked.Computes cancelled bodySearchCancelled
        (searchCaptureBody cancelled caseFold decoded query limit contextBytes decodedUri rawUri)
        (.ok
          { totalMatches := state.totalMatches
            omittedMatches := state.totalMatches - state.foundMatches.length
            foundMatches := state.foundMatches }) ∧
      BodySearchInv { text := decoded, limit, contextBytes, decodedUri }
        ((chars query).flatMap caseFold) (foldedUnits caseFold decoded) state := by
  obtain ⟨hne, hlength⟩ := accepted_query haccepted
  have hfolded := fold_ne_nil hfold hquery hne
  have hsearch : Searchable { text := decoded, limit, contextBytes, decodedUri }
      ((chars query).flatMap caseFold) :=
    ⟨hdecoded, hsize, hfolded, match_fits_page hlength (length_fold_le hfold hquery)⟩
  have hunits := foldedUnits_fromChars hfold hdecoded
  obtain ⟨matcher, hnew, hmatcher⟩ := @new_computes cancelled _ hfolded
  obtain ⟨state, hchars, hinv⟩ := @searchChars_computes cancelled caseFold _ _ hsearch
    (chars decoded) 0 0 [] { matcher } hunits
    ⟨hmatcher, by rw [matchSpans_nil hfolded]; rfl, by
      rw [matchSpans_nil hfolded, List.take_nil]
      exact .nil⟩
  refine ⟨state, ?_, hinv⟩
  unfold searchCaptureBody
  rw [haccepted, fromUtf8_eq_none_iff.2 hdecoded]
  refine Checked.Computes.check.bind ((foldQuery_computes _ _ _).bind
    (Checked.Computes.check.bind ?_))
  rw [List.nil_append, if_neg (by rwa [List.isEmpty_iff])]
  exact hnew.bind (hchars.bind (Checked.Computes.check.bind (.pure _)))

/-- A search refuses arguments out of range and a body that is no text, and otherwise
counts all occurrences of the folded query and reports the first ones. -/
theorem body_search (hfold : CaseFolding caseFold) {query : Bytes} (hquery : Valid query)
    (hsize : decoded.length ≤ wordMax) (limit contextBytes : Nat) (decodedUri rawUri : String) :
    (∀ error, searchArgumentError query limit contextBytes = some error →
      Checked.Computes cancelled bodySearchCancelled
        (searchCaptureBody cancelled caseFold decoded query limit contextBytes decodedUri rawUri)
        (.error (.error error))) ∧
    (searchArgumentError query limit contextBytes = none → ¬ Valid decoded →
      Checked.Computes cancelled bodySearchCancelled
        (searchCaptureBody cancelled caseFold decoded query limit contextBytes decodedUri rawUri)
        (.error (.notTextual bodyNotTextual rawUri))) ∧
    (searchArgumentError query limit contextBytes = none → Valid decoded →
      ∃ result : BodyTextSearch,
        Checked.Computes cancelled bodySearchCancelled
          (searchCaptureBody cancelled caseFold decoded query limit contextBytes decodedUri rawUri)
          (.ok result) ∧
        result.totalMatches = (matchSpans ((chars query).flatMap caseFold)
          (foldedUnits caseFold decoded)).length ∧
        result.omittedMatches = result.totalMatches - limit ∧
        List.Forall₂ (ReportsMatch { text := decoded, limit, contextBytes, decodedUri })
          ((matchSpans ((chars query).flatMap caseFold) (foldedUnits caseFold decoded)).take limit)
          result.foundMatches) := by
  refine ⟨fun error herror => ?_, fun haccepted hinvalid => ?_, fun haccepted hvalid => ?_⟩
  · unfold searchCaptureBody
    rw [herror]
    exact .throw _
  · have hmalformed : (fromUtf8 decoded).isSome = true := by
      rw [Option.isSome_iff_ne_none]
      exact fun hnone => hinvalid (fromUtf8_eq_none_iff.1 hnone)
    unfold searchCaptureBody
    rw [haccepted]
    dsimp only
    rw [if_pos hmalformed]
    exact .throw _
  · obtain ⟨state, hcomputes, hinv⟩ := @searchCaptureBody_computes cancelled caseFold decoded limit
      contextBytes hfold query hvalid hsize hquery haccepted decodedUri rawUri
    refine ⟨_, hcomputes, hinv.total, ?_, hinv.found⟩
    have hfound := hinv.found.length_eq
    rw [List.length_take, ← hinv.total] at hfound
    dsimp only at hfound ⊢
    omega

end Search

/-! ## An instance -/

/-- The sharp s and the ASCII letters. -/
def sampleCaseFold (c : Bytes) : List Bytes :=
  if c = [0xC3, 0x9F] then [ofAscii "s", ofAscii "s"]
  else
    match c with
    | [b] => [[if 0x41 ≤ b ∧ b ≤ 0x5A then b + 0x20 else b]]
    | c => [c]

theorem sampleCaseFold_caseFolding : CaseFolding sampleCaseFold := by
  constructor
  · intro c _
    unfold sampleCaseFold
    split
    · exact Nat.le_add_left 1 1
    · split <;> exact Nat.le_refl 1
  · intro c _
    unfold sampleCaseFold
    split
    · exact Nat.le_add_left 2 1
    · split <;> exact Nat.le_add_left 1 2
  · intro c _ hlength
    unfold sampleCaseFold
    split
    case isTrue hsharp =>
        rw [hsharp] at hlength
        cases hlength
    case isFalse => split <;> rfl

/-- Both matches lie in one character. -/
theorem body_search_sample : ∃ result : BodyTextSearch,
    (searchCaptureBody (fun _ => false) sampleCaseFold [0x61, 0xC3, 0x9F] (ofAscii "S") 1 8
      "decoded" "raw").outcome 0 = .ok result ∧
    result.totalMatches = 2 ∧ result.omittedMatches = 1 ∧
    result.foundMatches.map (fun found => found.originalRange) = [{ offset := 1, length := 2 }] := by
  have hsearch := @body_search (fun _ => false) sampleCaseFold [0x61, 0xC3, 0x9F]
    sampleCaseFold_caseFolding (ofAscii "S") (fromUtf8_eq_none_iff.1 (by decide)) (by decide) 1 8
    "decoded" "raw"
  obtain ⟨result, hcomputes, htotal, homitted, hfound⟩ :=
    hsearch.2.2 (by decide) (fromUtf8_eq_none_iff.1 (by decide))
  have hspans : matchSpans ((chars (ofAscii "S")).flatMap sampleCaseFold)
      (foldedUnits sampleCaseFold [0x61, 0xC3, 0x9F]) = [(1, 3), (1, 3)] := by decide +kernel
  rw [hspans] at htotal hfound
  refine ⟨result, hcomputes.uncancelled (fun _ => rfl) 0, htotal, by rw [homitted, htotal]; rfl, ?_⟩
  generalize result.foundMatches = found at hfound
  cases hfound with
  | cons hfirst hrest =>
    cases hrest
    exact congrArg (fun range => [range]) hfirst.range

end Fluxcope.Control
