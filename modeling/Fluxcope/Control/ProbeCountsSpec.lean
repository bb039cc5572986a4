import Fluxcope.Control.FindExtractSpec
import Fluxcope.Control.ProbeAnswerSpec
/-!
# The counts of a probe

Over the whole document the probe counts the values that its pattern names, segment by
segment.  It counts the same wherever else it descends.
-/

namespace Fluxcope.Control

open Fluxcope.Library Fluxcope.Library.Utf8

/-! ## What a pattern names -/

/-- Two escapes are those of pointers, and `~2` is a star that stands for itself. -/
inductive Unescapes : Text → Text → Prop
  | nil : Unescapes [] []
  | tilde {raw segment : Text} (h : Unescapes raw segment) :
      Unescapes ('~' :: '0' :: raw) ('~' :: segment)
  | slash {raw segment : Text} (h : Unescapes raw segment) :
      Unescapes ('~' :: '1' :: raw) ('/' :: segment)
  | star {raw segment : Text} (h : Unescapes raw segment) :
      Unescapes ('~' :: '2' :: raw) ('*' :: segment)
  | plain {c : Char} {raw segment : Text} (hc : c ≠ '~') (h : Unescapes raw segment) :
      Unescapes (c :: raw) (c :: segment)

theorem map_cons_eq_ok {c : Char} {decoded : Except ControlError Text} {segment : Text} :
    decoded.map (c :: ·) = .ok segment ↔ ∃ rest, decoded = .ok rest ∧ segment = c :: rest := by
  cases decoded with
  | error error => simp [Except.map]
  | ok rest => simp [Except.map, eq_comm]

theorem unescapes_of_decodeSegment {raw segment : Text} (h : decodeSegment true raw = .ok segment) :
    Unescapes raw segment := by
  fun_induction decodeSegment true raw generalizing segment with
  | case1 =>
    cases h
    exact .nil
  | case2 raw ih =>
    obtain ⟨rest, hrest, rfl⟩ := map_cons_eq_ok.1 h
    exact .tilde (ih hrest)
  | case3 raw ih =>
    obtain ⟨rest, hrest, rfl⟩ := map_cons_eq_ok.1 h
    exact .slash (ih hrest)
  | case4 c raw _ _ htwo ih =>
    obtain ⟨rest, hrest, rfl⟩ := map_cons_eq_ok.1 h
    obtain rfl : c = '2' := by simpa using htwo
    exact .star (ih hrest)
  | case5 => cases h
  | case6 => cases h
  | case7 c raw _ _ htilde hlast ih =>
    obtain ⟨rest, hrest, rfl⟩ := map_cons_eq_ok.1 h
    refine .plain ?_ (ih hrest)
    rintro rfl
    cases raw with
    | nil => exact hlast rfl rfl
    | cons d raw => exact htilde d raw rfl rfl

theorem decodeSegment_of_unescapes {raw segment : Text} (h : Unescapes raw segment) :
    decodeSegment true raw = .ok segment := by
  induction h with
  | nil => rfl
  | tilde _ ih =>
    rw [decodeSegment, ih]
    rfl
  | slash _ ih =>
    rw [decodeSegment, ih]
    rfl
  | star _ ih =>
    rw [decodeSegment.eq_def]
    simp [ih, Except.map]
  | @plain c raw segment hc _ ih =>
    rw [decodeSegment.eq_def]
    split <;> simp_all [Except.map]

/-- A star names every segment, and another text the segment it unescapes to. -/
def Names (pattern : Text) (segments : List Text) : Prop :=
  List.Forall₂ (fun raw segment => raw = ['*'] ∨ Unescapes raw segment)
    (pointerRawSegments pattern) segments

theorem patternMatches_iff_names (raw : Text) (segments : List Text) :
    PatternMatches raw segments ↔ Names raw segments := by
  have hsegment : SegmentMatches = fun raw segment => raw = ['*'] ∨ Unescapes raw segment := by
    funext raw segment
    exact propext (or_congr_right ⟨unescapes_of_decodeSegment, decodeSegment_of_unescapes⟩)
  unfold PatternMatches Names
  rw [hsegment]

instance (pattern : Text) (segments : List Text) : Decidable (Names pattern segments) :=
  decidable_of_iff _ (patternMatches_iff_names pattern segments)

/-- The values of a document that a pattern names, in the order of the text. -/
def namedValues (document : JsonDocument) (pattern : Text) : List (List Text × Json) :=
  (document.root.located []).filter fun entry => Names pattern entry.1

theorem found_eq_namedValues {raw : Text} {pattern : JsonPointerPattern}
    (hpattern : JsonPointerPattern.parse raw = .ok pattern) (document : JsonDocument) :
    pattern.found (document.root.located []) = namedValues document raw := by
  unfold JsonPointerPattern.found namedValues
  refine List.filter_congr fun entry _ => ?_
  rw [decide_eq_decide]
  exact (parse_matches hpattern entry.1).trans (patternMatches_iff_names raw entry.1)

/-! ## The revision -/

namespace PatternProbe

/-- The walk leaves the revision to its caller. -/
def NoRevision (probe : PatternProbe) : Prop := probe.result.captureRevision = 0

variable {probe : PatternProbe}

theorem NoRevision.recordChildShape (h : probe.NoRevision) (view : WalkPath) (kind : JsonType) :
    (probe.recordChildShape view kind).NoRevision := by
  unfold PatternProbe.recordChildShape
  dsimp only
  repeat' split
  all_goals exact h

theorem NoRevision.considerMiss (h : probe.NoRevision) (view : WalkPath) (kind : JsonType) :
    (probe.considerMiss view kind).NoRevision := by
  have hnoted : (probe.notePrefix view).NoRevision := by
    unfold PatternProbe.notePrefix
    split <;> exact h
  unfold PatternProbe.considerMiss PatternProbe.offerHint
  dsimp only
  repeat' split
  all_goals exact hnoted

theorem NoRevision.recordExample (h : probe.NoRevision) (view : WalkPath) :
    (probe.recordExample view).NoRevision := by
  unfold PatternProbe.recordExample
  split <;> exact h

theorem NoRevision.terminal (h : probe.NoRevision) (pattern : JsonPointerPattern)
    (view : WalkPath) (kind : JsonType) : (probe.terminal pattern view kind).NoRevision := by
  have hnoted := (h.recordChildShape view kind).considerMiss view kind
  unfold PatternProbe.terminal
  dsimp only
  split
  · exact hnoted
  · refine NoRevision.recordExample ?_ view
    exact hnoted

theorem NoRevision.startObjectSummary (h : probe.NoRevision) (pattern : JsonPointerPattern)
    (view : WalkPath) : (probe.startObjectSummary pattern view).NoRevision := by
  unfold PatternProbe.startObjectSummary
  repeat' split
  all_goals exact h

theorem keeps_noRevision (pattern : JsonPointerPattern) :
    Keeps (observer pattern) PatternProbe.NoRevision where
  valueStart _ _ h := h
  valueEnd _ h := h
  scalar _ view kind _ _ h := h.terminal pattern view kind
  objectStart _ view h := (h.terminal pattern view .object).startObjectSummary pattern view
  objectEnd probe _ children h := by
    show (probe.objectEnd children).NoRevision
    unfold PatternProbe.objectEnd
    dsimp only
    split <;> exact h
  arrayStart _ view h := h.terminal pattern view .array
  arrayEnd probe view length h := by
    show (probe.arrayEnd pattern view length).NoRevision
    unfold PatternProbe.arrayEnd
    split <;> exact h
  objectKey _ _ _ h := h

end PatternProbe

/-! ## The answer -/

theorem validateJsonInput_small {input : Bytes} (h : validateJsonInput input = .ok ()) :
    input.length < 10 ^ 8 := by
  unfold validateJsonInput at h
  split at h
  case isTrue => cases h
  case isFalse hsize =>
      have hmax : maxJsonInputBytes < 10 ^ 8 := by decide
      omega

section Document

variable {parser : JsonEventParser} {input : Bytes} {document : JsonDocument} {raw : Text}
  {pattern : JsonPointerPattern}

theorem located_small (hparses : Parses parser input document)
    (hvalid : validateJsonInput input = .ok ()) : (document.root.located []).length < 10 ^ 8 := by
  refine Nat.lt_of_le_of_lt ?_ (validateJsonInput_small hvalid)
  rw [hparses.text]
  exact document.length_located_le

theorem found_small (hparses : Parses parser input document)
    (hvalid : validateJsonInput input = .ok ()) :
    (pattern.found (document.root.located [])).length < 10 ^ 8 :=
  Nat.lt_of_le_of_lt (List.length_filter_le ..) (located_small hparses hvalid)

theorem lengths_small (hparses : Parses parser input document)
    (hvalid : validateJsonInput input = .ok ()) :
    ∀ length ∈ (pattern.found (document.root.located [])).filterMap arrayLength,
      length < 10 ^ 8 := by
  intro length hlength
  obtain ⟨⟨segments, value⟩, hfound, hvalue⟩ := List.mem_filterMap.1 hlength
  unfold arrayLength at hvalue
  split at hvalue
  case h_1 elements close heq =>
      cases hvalue
      have hentry := (List.mem_filter.1 hfound).1
      exact Nat.lt_of_le_of_lt (Json.array_length_le heq document.root hentry)
        (located_small hparses hvalid)
  case h_2 => cases hvalue

/-- The walk visits the document if it is within the limits, and fails otherwise. -/
theorem walkJson_visits {σ : Type} {observer : JsonWalkObserver σ}
    (hparses : Parses parser input document) {start stop : σ}
    (h : walkJson observer parser input start = .ok stop) :
    validateJsonInput input = .ok () ∧ jsonLimit [] 0 document.root = none ∧
      stop = visitJson observer [] rootState document.root start := by
  rw [walkJson_eq hparses] at h
  cases hvalid : validateJsonInput input with
  | error error =>
    rw [hvalid] at h
    cases h
  | ok _ =>
    rw [hvalid] at h
    cases hlimit : jsonLimit [] 0 document.root with
    | some error =>
      rw [hlimit] at h
      cases h
    | none =>
      rw [hlimit] at h
      cases h
      exact ⟨rfl, rfl, rfl⟩

/-- Within the limits there is an answer, and it counts what the pattern finds. -/
theorem probeJson_found (hparses : Parses parser input document)
    (hvalid : validateJsonInput input = .ok ()) (hlimit : jsonLimit [] 0 document.root = none) :
    ∃ answer, probeJson parser input pattern = .ok answer ∧
      Relation.ReflTransGen ProbeJsonPointerPatternResult.Drops
        (probeAnswer input (walked pattern document.root)) answer ∧
      answer.Counts (pattern.found (document.root.located [])) ∧
      answer.serializedBytes ≤ maxJsonResultBytes := by
  have hcounts := probeAnswer_counts input (visited_counts (@walked_visited pattern document.root))
  have hsmall := validateJsonInput_small hvalid
  have hinspected : (probeAnswer input (walked pattern document.root)).inspectedBytes < 10 ^ 8 := by
    unfold probeAnswer
    dsimp only
    split <;> split <;> exact hsmall
  have hwalked : (walked pattern document.root).NoRevision :=
    visitJson_keeps (PatternProbe.keeps_noRevision pattern)
      (show PatternProbe.NoRevision {} from rfl) document.root
  have hrevision : (probeAnswer input (walked pattern document.root)).captureRevision < 10 ^ 8 := by
    have hzero : (probeAnswer input (walked pattern document.root)).captureRevision = 0 := by
      unfold probeAnswer
      dsimp only
      split <;> split <;> exact hwalked
    rw [hzero]
    decide
  obtain ⟨answer, hanswer⟩ := ProbeJsonPointerPatternResult.enforce_total
    (found_small hparses hvalid) (lengths_small hparses hvalid) hcounts hrevision hinspected
    (Nat.le_refl _)
  obtain ⟨hdrops, hfits⟩ := ProbeJsonPointerPatternResult.enforce_drops hanswer
  refine ⟨answer, ?_, hdrops, ProbeJsonPointerPatternResult.counts_of_drops hdrops hcounts, hfits⟩
  unfold probeJson
  rw [walkJson_eq hparses, hvalid, hlimit]
  exact hanswer

/-- An answer is about a document within the limits. -/
theorem probeJson_limits (hparses : Parses parser input document)
    {answer : ProbeJsonPointerPatternResult}
    (h : probeJson parser input pattern = .ok answer) :
    validateJsonInput input = .ok () ∧ jsonLimit [] 0 document.root = none := by
  cases hwalk : walkJson (PatternProbe.observer pattern) parser input {} with
  | error error =>
    unfold probeJson at h
    rw [hwalk] at h
    cases h
  | ok probe =>
    obtain ⟨hvalid, hlimit, -⟩ := walkJson_visits hparses hwalk
    exact ⟨hvalid, hlimit⟩

/-- An answer counts the values that the pattern names, within the limits there is one, and a
walk that descends further counts the same. -/
theorem probe_counts_named (hparses : Parses parser input document)
    (hpattern : JsonPointerPattern.parse raw = .ok pattern) :
    (∀ answer, probeJson parser input pattern = .ok answer →
      answer.Counts (namedValues document raw)) ∧
    (validateJsonInput input = .ok () → jsonLimit [] 0 document.root = none →
      ∃ answer, probeJson parser input pattern = .ok answer) ∧
    ∀ descend, PatternProbe.Descends pattern descend → ∀ probe,
      walkJson (PatternProbe.descending pattern descend) parser input {} = .ok probe →
      probe.result.Counts (namedValues document raw) := by
  rw [← found_eq_namedValues hpattern document]
  refine ⟨fun answer hanswer => ?_, fun hvalid hlimit => ?_, fun descend hdescend probe hprobe => ?_⟩
  · obtain ⟨hvalid, hlimit⟩ := probeJson_limits hparses hanswer
    obtain ⟨other, hother, -, hcounts, -⟩ := probeJson_found hparses hvalid hlimit
    obtain rfl := Except.ok.inj (hanswer.symm.trans hother)
    exact hcounts
  · obtain ⟨answer, hanswer, -⟩ := probeJson_found hparses hvalid hlimit
    exact ⟨answer, hanswer⟩
  · obtain ⟨-, -, rfl⟩ := walkJson_visits hparses hprobe
    exact visited_counts (PatternProbe.visited_root hdescend document.root)

end Document

/-- `/a/*/b~1~0`, with a star that every segment matches -/
def nestedPattern : Text := ['/', 'a', '/', '*', '/', 'b', '~', '1', '~', '0']

theorem probe_counts_named_nested :
    (∀ answer, probeJson nestedParser nestedDocument.text
        { raw := nestedPattern
          segments := [.exact ['a'], .wildcard, .exact ['b', '~', '1', '~', '0']] } = .ok answer →
      answer.Counts (namedValues nestedDocument nestedPattern)) ∧
    ∃ answer, probeJson nestedParser nestedDocument.text
        { raw := nestedPattern
          segments := [.exact ['a'], .wildcard, .exact ['b', '~', '1', '~', '0']] } = .ok answer := by
  obtain ⟨hcounts, hanswer, -⟩ := @probe_counts_named nestedParser nestedDocument.text
    nestedDocument nestedPattern
    { raw := nestedPattern
      segments := [.exact ['a'], .wildcard, .exact ['b', '~', '1', '~', '0']] }
    ⟨rfl, rfl⟩ (by decide +kernel)
  exact ⟨hcounts, hanswer (by decide +kernel) (by decide +kernel)⟩

end Fluxcope.Control
