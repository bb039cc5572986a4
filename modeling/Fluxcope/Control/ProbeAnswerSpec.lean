import Mathlib.Logic.Relation
import Mathlib.Order.MinMax
import Fluxcope.Control.ProbeJsonSpec
/-!
# What the answer of a probe says

The answer counts the matches of the whole document, whatever had to be dropped from it
to make it fit.
-/

namespace Fluxcope.Control

open Fluxcope.Library Fluxcope.Library.Utf8

/-! ## Counts -/

def JsonTypeCounts.count (counts : JsonTypeCounts) : JsonType → Nat
  | .object => counts.object
  | .array => counts.array
  | .string => counts.string
  | .number => counts.number
  | .boolean => counts.boolean
  | .null => counts.null

theorem JsonTypeCounts.count_increment (counts : JsonTypeCounts) (kind kind' : JsonType) :
    (counts.increment kind').count kind = counts.count kind + if kind' = kind then 1 else 0 := by
  cases kind <;> cases kind' <;> rfl

def arrayLength (entry : List Text × Json) : Option Nat :=
  match entry.2 with
  | .array elements _ => some elements.length
  | _ => none

/-- The least and the greatest of the lengths, if there are any. -/
def IsLengthRange (lengths : List Nat) : Option JsonArrayLengthRange → Prop
  | none => lengths = []
  | some range => range.minimum ∈ lengths ∧ range.maximum ∈ lengths ∧
      ∀ length ∈ lengths, range.minimum ≤ length ∧ length ≤ range.maximum

theorem IsLengthRange.extend {lengths : List Nat} {range : Option JsonArrayLengthRange}
    (h : IsLengthRange lengths range) (length : Nat) :
    IsLengthRange (lengths ++ [length]) (some (.extend range length)) := by
  have hnew : length ∈ lengths ++ [length] := List.mem_append_right _ (List.mem_singleton_self _)
  cases range with
  | none =>
    rw [show lengths = [] from h]
    exact ⟨List.mem_singleton_self _, List.mem_singleton_self _, fun other hother =>
      ⟨Nat.le_of_eq (List.mem_singleton.1 hother).symm, Nat.le_of_eq (List.mem_singleton.1 hother)⟩⟩
  | some range =>
    obtain ⟨hmin, hmax, hall⟩ := h
    refine ⟨?_, ?_, fun other hother => ?_⟩
    · show min range.minimum length ∈ lengths ++ [length]
      rcases min_choice range.minimum length with heq | heq <;> rw [heq]
      · exact List.mem_append_left _ hmin
      · exact hnew
    · show max range.maximum length ∈ lengths ++ [length]
      rcases max_choice range.maximum length with heq | heq <;> rw [heq]
      · exact List.mem_append_left _ hmax
      · exact hnew
    · rcases List.mem_append.1 hother with hold | hlast
      · obtain ⟨hle, hge⟩ := hall other hold
        exact ⟨(min_le_left _ _).trans hle, hge.trans (le_max_left _ _)⟩
      · rw [List.mem_singleton.1 hlast]
        exact ⟨min_le_right _ _, le_max_right _ _⟩

theorem ScalarKind.type_ne_object (kind : ScalarKind) : kind.type ≠ .object := by
  cases kind <;> decide

/-- A tally of all these values. -/
structure Tally.Counts (tally : Tally) (entries : List (List Text × Json)) : Prop where
  matchCount : tally.matchCount = entries.length
  typeCounts : ∀ kind, tally.typeCounts.count kind =
    entries.countP fun entry => entry.2.type = kind
  arrayLengthRange : IsLengthRange (entries.filterMap arrayLength) tally.arrayLengthRange
  examples : tally.examples = entries.length
  summaries : tally.summaries = entries.countP fun entry => entry.2.type = .object

theorem Tally.Counts.add {tally : Tally} {entries : List (List Text × Json)}
    (h : tally.Counts entries) (entry : List Text × Json) :
    (tally.add entry.2).Counts (entries ++ [entry]) := by
  obtain ⟨segments, value⟩ := entry
  have hlength : (entries ++ [(segments, value)]).length = entries.length + 1 := by
    rw [List.length_append, List.length_singleton]
  have htypes : ∀ kind, (tally.typeCounts.increment value.type).count kind =
      (entries ++ [(segments, value)]).countP fun entry => entry.2.type = kind := by
    intro kind
    rw [JsonTypeCounts.count_increment, h.typeCounts, List.countP_append, List.countP_singleton]
    simp only [decide_eq_true_eq]
  have hobjects := @List.countP_append _
    (fun entry : List Text × Json => entry.2.type = .object) entries [(segments, value)]
  rw [List.countP_singleton, ← h.summaries] at hobjects
  cases value with
  | scalar token =>
    refine ⟨?_, htypes, ?_, ?_, ?_⟩
    · rw [hlength, ← h.matchCount]
      rfl
    · rw [List.filterMap_append]
      exact (List.append_nil _).symm ▸ h.arrayLengthRange
    · rw [hlength, ← h.examples]
      rfl
    · have hscalar : (segments, Json.scalar token).2.type ≠ .object :=
        ScalarKind.type_ne_object token.kind
      rw [hobjects, if_neg fun h => hscalar (of_decide_eq_true h)]
      rfl
  | array elements close =>
    refine ⟨?_, htypes, ?_, ?_, ?_⟩
    · rw [hlength, ← h.matchCount]
      rfl
    · rw [List.filterMap_append]
      exact h.arrayLengthRange.extend elements.length
    · rw [hlength, ← h.examples]
      rfl
    · rw [hobjects]
      rfl
  | object members close =>
    refine ⟨?_, htypes, ?_, ?_, ?_⟩
    · rw [hlength, ← h.matchCount]
      rfl
    · rw [List.filterMap_append]
      exact (List.append_nil _).symm ▸ h.arrayLengthRange
    · rw [hlength, ← h.examples]
      rfl
    · rw [hobjects]
      rfl

theorem Tally.Counts.addAll {tally : Tally} {before entries : List (List Text × Json)}
    (h : tally.Counts before) : (tally.addAll entries).Counts (before ++ entries) := by
  induction entries generalizing tally before with
  | nil =>
    rw [List.append_nil]
    exact h
  | cons entry entries ih =>
    rw [List.append_cons, Tally.addAll_cons]
    exact ih (h.add entry)

/-! ## The answer -/

namespace ProbeJsonPointerPatternResult

/-- The answer counts these values, whatever it shows of them. -/
structure Counts (found : List (List Text × Json)) (result : ProbeJsonPointerPatternResult) :
    Prop where
  matchCount : result.matchCount = found.length
  typeCounts : ∀ kind, result.typeCounts.count kind =
    found.countP fun entry => entry.2.type = kind
  arrayLengthRange : IsLengthRange (found.filterMap arrayLength) result.arrayLengthRange
  examples : result.examples.length + result.omittedExamples = found.length
  summaries : result.objectKeySummaries.length + result.omittedObjectSummaries =
    found.countP fun entry => entry.2.type = .object
  keys : ∀ summary ∈ result.objectKeySummaries, ∃ entry ∈ found, Summarizes summary entry

/-- The fields that dropping leaves as they are. -/
structure SameMetadata (result smaller : ProbeJsonPointerPatternResult) : Prop where
  status : smaller.status = result.status
  captureRevision : smaller.captureRevision = result.captureRevision
  matchCount : smaller.matchCount = result.matchCount
  typeCounts : smaller.typeCounts = result.typeCounts
  arrayLengthRange : smaller.arrayLengthRange = result.arrayLengthRange
  inspectedBytes : smaller.inspectedBytes = result.inspectedBytes
  sourceTruncated : smaller.sourceTruncated = result.sourceTruncated

/-- What is dropped first: an example, the last key of the last summary, the summary, the
last hint, and at last the collection of hints. -/
inductive Drops (result : ProbeJsonPointerPatternResult) : ProbeJsonPointerPatternResult → Prop
  | lastExample {examples : List JsonPointer} {last : JsonPointer}
      (hexamples : result.examples = examples ++ [last]) :
      Drops result { result with
        examples
        omittedExamples := result.omittedExamples + 1
        truncated := true }
  | lastKey {summaries : List JsonObjectKeySummary} {summary : JsonObjectKeySummary}
      {keys : List JsonNextSegmentHint} {last : JsonNextSegmentHint}
      (hsummaries : result.objectKeySummaries = summaries ++ [summary])
      (hkeys : summary.keys = keys ++ [last]) :
      Drops result { result with
        objectKeySummaries :=
          summaries ++ [{ summary with keys, omittedKeys := summary.omittedKeys + 1 }]
        truncated := true }
  | lastSummary {summaries : List JsonObjectKeySummary} {summary : JsonObjectKeySummary}
      (hsummaries : result.objectKeySummaries = summaries ++ [summary])
      (hkeys : summary.keys = []) :
      Drops result { result with
        objectKeySummaries := summaries
        omittedObjectSummaries := result.omittedObjectSummaries + 1
        truncated := true }
  | lastHint {hint : JsonPointerMissHint} {next : List JsonNextSegmentHint}
      {last : JsonNextSegmentHint} (hhint : result.missHint = some hint)
      (hnext : hint.nextSegments = next ++ [last]) :
      Drops result { result with
        missHint := some { hint with
          nextSegments := next
          omittedNextSegments := hint.omittedNextSegments + 1 }
        truncated := true }
  | hints {hint : JsonPointerMissHint} (hhint : result.missHint = some hint)
      (hnext : hint.nextSegments = []) :
      Drops result { result with missHint := none, truncated := true }

theorem exists_concat {α : Type} {l : List α} (h : l ≠ []) : ∃ init last, l = init ++ [last] :=
  ⟨l.dropLast, l.getLast h, (List.dropLast_append_getLast h).symm⟩

theorem dropOne_drops {result smaller : ProbeJsonPointerPatternResult}
    (h : result.dropOne = some smaller) : Drops result smaller := by
  unfold dropOne at h
  split at h
  case isTrue hne =>
      obtain ⟨examples, last, heq⟩ := exists_concat hne
      rw [heq, List.dropLast_concat] at h
      cases h
      exact .lastExample heq
  case isFalse =>
      split at h
      case h_1 summary hlast =>
          obtain ⟨summaries, heq⟩ := List.getLast?_eq_some_iff.1 hlast
          split at h
          case isTrue hne =>
              obtain ⟨keys, key, hkeys⟩ := exists_concat hne
              rw [heq, hkeys, List.dropLast_concat, List.dropLast_concat] at h
              cases h
              exact .lastKey heq hkeys
          case isFalse hnil =>
              rw [heq, List.dropLast_concat] at h
              cases h
              exact .lastSummary heq (Classical.not_not.1 hnil)
      case h_2 =>
          split at h
          case h_1 => cases h
          case h_2 hint hhint =>
              split at h
              case isTrue hne =>
                  obtain ⟨next, last, hnext⟩ := exists_concat hne
                  rw [hnext, List.dropLast_concat] at h
                  cases h
                  exact .lastHint hhint hnext
              case isFalse hnil =>
                  cases h
                  exact .hints hhint (Classical.not_not.1 hnil)

theorem dropOne_eq_none {result : ProbeJsonPointerPatternResult} (h : result.dropOne = none) :
    result.examples = [] ∧ result.objectKeySummaries = [] ∧ result.missHint = none := by
  unfold dropOne at h
  split at h
  case isTrue => cases h
  case isFalse hexamples =>
      split at h
      case h_1 summary hlast => split at h <;> cases h
      case h_2 hlast =>
          split at h
          case h_1 hhint =>
              exact ⟨Classical.not_not.1 hexamples, List.getLast?_eq_none_iff.1 hlast, hhint⟩
          case h_2 hint hhint => split at h <;> cases h

theorem Drops.metadata {result smaller : ProbeJsonPointerPatternResult} (h : Drops result smaller) :
    SameMetadata result smaller := by
  cases h <;> exact ⟨rfl, rfl, rfl, rfl, rfl, rfl, rfl⟩

/-- Dropping takes one thing at a time. -/
theorem Drops.droppable {result smaller : ProbeJsonPointerPatternResult} (h : Drops result smaller) :
    smaller.droppable + 1 = result.droppable := by
  unfold ProbeJsonPointerPatternResult.droppable
  cases h with
  | lastExample hexamples =>
    rw [hexamples, List.length_append, List.length_singleton]
    dsimp only
    omega
  | lastKey hsummaries hkeys =>
    rw [hsummaries]
    simp only [List.map_append, List.map_singleton, List.sum_append, List.sum_singleton, hkeys,
      List.length_append, List.length_singleton]
    omega
  | lastSummary hsummaries hkeys =>
    rw [hsummaries]
    simp only [List.map_append, List.map_singleton, List.sum_append, List.sum_singleton, hkeys,
      List.length_nil]
    omega
  | lastHint hhint hnext =>
    rw [hhint]
    simp only [Option.elim_some, hnext, List.length_append, List.length_singleton]
    omega
  | hints hhint hnext =>
    rw [hhint]
    simp only [Option.elim_some, Option.elim_none, hnext, List.length_nil]
    omega

theorem Drops.counts {found : List (List Text × Json)}
    {result smaller : ProbeJsonPointerPatternResult} (h : Drops result smaller)
    (hcounts : Counts found result) : Counts found smaller := by
  have hexamples := hcounts.examples
  have hsummaries := hcounts.summaries
  have hkeys := hcounts.keys
  cases h with
  | lastExample heq =>
    rw [heq, List.length_append, List.length_singleton] at hexamples
    refine ⟨hcounts.matchCount, hcounts.typeCounts, hcounts.arrayLengthRange, ?_, hsummaries, hkeys⟩
    dsimp only
    omega
  | lastKey heq hlast =>
    rw [heq] at hsummaries hkeys
    refine ⟨hcounts.matchCount, hcounts.typeCounts, hcounts.arrayLengthRange, hexamples, ?_, ?_⟩
    · rw [← hsummaries, List.length_append, List.length_append]
      rfl
    · intro summary hsummary
      rcases List.mem_append.1 hsummary with hold | hnew
      · exact hkeys summary (List.mem_append_left _ hold)
      · obtain ⟨entry, hentry, members, close, hvalue, hpointer, hchildren, hcount⟩ :=
          hkeys _ (List.mem_append_right _ (List.mem_singleton_self _))
        rw [List.mem_singleton.1 hnew]
        refine ⟨entry, hentry, members, close, hvalue, hpointer, hchildren, ?_⟩
        rw [← hcount]
        unfold JsonObjectKeySummary.keyCount
        rw [hlast, List.length_append, List.length_singleton]
        dsimp only
        omega
  | lastSummary heq hlast =>
    rw [heq] at hsummaries hkeys
    rw [List.length_append, List.length_singleton] at hsummaries
    refine ⟨hcounts.matchCount, hcounts.typeCounts, hcounts.arrayLengthRange, hexamples, ?_, ?_⟩
    · dsimp only
      omega
    · exact fun summary hsummary => hkeys summary (List.mem_append_left _ hsummary)
  | lastHint hhint hnext =>
    exact ⟨hcounts.matchCount, hcounts.typeCounts, hcounts.arrayLengthRange, hexamples,
      hsummaries, hkeys⟩
  | hints hhint hnext =>
    exact ⟨hcounts.matchCount, hcounts.typeCounts, hcounts.arrayLengthRange, hexamples,
      hsummaries, hkeys⟩

/-! ### The size -/

/-- Eight digits are enough for every number. -/
structure SmallNumbers (result : ProbeJsonPointerPatternResult) : Prop where
  captureRevision : result.captureRevision < 10 ^ 8
  matchCount : result.matchCount < 10 ^ 8
  typeCounts : ∀ kind, result.typeCounts.count kind < 10 ^ 8
  omittedExamples : result.omittedExamples < 10 ^ 8
  omittedObjectSummaries : result.omittedObjectSummaries < 10 ^ 8
  arrayLengthRange : ∀ range, result.arrayLengthRange = some range →
    range.minimum < 10 ^ 8 ∧ range.maximum < 10 ^ 8
  inspectedBytes : result.inspectedBytes < 10 ^ 8

theorem number_le {n : Nat} (h : n < 10 ^ 8) : Text.utf8Len (JsonWriter.number n) ≤ 8 :=
  JsonWriter.utf8Len_number_le (by decide) h

theorem boolean_le (b : Bool) : Text.utf8Len (JsonWriter.boolean b) ≤ 8 := by
  cases b <;> decide

theorem typeCounts_le {counts : JsonTypeCounts} (h : ∀ kind, counts.count kind < 10 ^ 8) :
    Text.utf8Len counts.toJson ≤ 122 := by
  have hobject := @JsonWriter.utf8Len_object_le
    [("object".toList, JsonWriter.number counts.object),
      ("array".toList, JsonWriter.number counts.array),
      ("string".toList, JsonWriter.number counts.string),
      ("number".toList, JsonWriter.number counts.number),
      ("boolean".toList, JsonWriter.number counts.boolean),
      ("null".toList, JsonWriter.number counts.null)] 10 8
    (by simp only [List.map_cons, List.map_nil]; decide)
    (by
      simp only [List.map_cons, List.map_nil, List.forall_mem_cons]
      exact ⟨number_le (h .object), number_le (h .array), number_le (h .string),
        number_le (h .number), number_le (h .boolean), number_le (h .null),
        fun value hvalue => by cases hvalue⟩)
  exact hobject

theorem range_le {range : Option JsonArrayLengthRange}
    (h : ∀ r, range = some r → r.minimum < 10 ^ 8 ∧ r.maximum < 10 ^ 8) :
    Text.utf8Len (JsonWriter.option JsonArrayLengthRange.toJson range) ≤ 122 := by
  cases range with
  | none => decide
  | some r =>
    obtain ⟨hmin, hmax⟩ := h r rfl
    have hobject := @JsonWriter.utf8Len_object_le
      [("minimum".toList, JsonWriter.number r.minimum),
        ("maximum".toList, JsonWriter.number r.maximum)] 9 8
      (by simp only [List.map_cons, List.map_nil]; decide)
      (by
        simp only [List.map_cons, List.map_nil, List.forall_mem_cons]
        exact ⟨number_le hmin, number_le hmax, fun value hvalue => by cases hvalue⟩)
    exact hobject.trans (show 2 * (9 + 8 + 2) + 2 ≤ 122 by decide)

/-- What cannot be dropped fits. -/
theorem serializedBytes_stripped {result : ProbeJsonPointerPatternResult}
    (hsmall : SmallNumbers result) (hexamples : result.examples = [])
    (hsummaries : result.objectKeySummaries = []) (hhint : result.missHint = none) :
    result.serializedBytes ≤ maxJsonResultBytes := by
  have hshort : ∀ {n}, n ≤ 8 → n ≤ 122 := fun h => h.trans (by decide)
  unfold serializedBytes toJson
  rw [hexamples, hsummaries, hhint]
  refine (@JsonWriter.utf8Len_object_le _ 26 122 ?_ ?_).trans ?_
  · simp only [List.map_cons, List.map_nil]
    decide
  · simp only [List.map_cons, List.map_nil, List.forall_mem_cons]
    refine ⟨?_, hshort (number_le hsmall.captureRevision), hshort (number_le hsmall.matchCount),
      typeCounts_le hsmall.typeCounts, by decide, hshort (number_le hsmall.omittedExamples),
      by decide, hshort (number_le hsmall.omittedObjectSummaries),
      range_le hsmall.arrayLengthRange, by decide, hshort (number_le hsmall.inspectedBytes),
      hshort (boolean_le _), hshort (boolean_le _), fun value hvalue => by cases hvalue⟩
    cases result.status <;> decide
  · simp only [List.length_cons, List.length_nil]
    decide

theorem Counts.small {found : List (List Text × Json)} {result : ProbeJsonPointerPatternResult}
    (h : Counts found result) (hrevision : result.captureRevision < 10 ^ 8)
    (hinspected : result.inspectedBytes < 10 ^ 8) (hfound : found.length < 10 ^ 8)
    (hlengths : ∀ length ∈ found.filterMap arrayLength, length < 10 ^ 8) : SmallNumbers result := by
  have hexamples := h.examples
  have hsummaries := h.summaries
  have hobjects := List.countP_le_length (p := fun entry : List Text × Json =>
    entry.2.type = .object) (l := found)
  refine ⟨hrevision, ?_, fun kind => ?_, ?_, ?_, fun range hrange => ?_, hinspected⟩
  · rw [h.matchCount]
    exact hfound
  · rw [h.typeCounts]
    exact Nat.lt_of_le_of_lt List.countP_le_length hfound
  · omega
  · omega
  · have hcounted := h.arrayLengthRange
    rw [hrange] at hcounted
    exact ⟨hlengths _ hcounted.1, hlengths _ hcounted.2.1⟩

/-- An answer that fits, after as many things were dropped as necessary. -/
theorem enforce_drops {left : Nat} {result answer : ProbeJsonPointerPatternResult}
    (h : enforceProbeResultSize left result = .ok answer) :
    Relation.ReflTransGen Drops result answer ∧ answer.serializedBytes ≤ maxJsonResultBytes := by
  induction left generalizing result with
  | zero =>
    rw [enforceProbeResultSize] at h
    split at h
    case isTrue => cases h
    case isFalse hfits =>
        cases h
        exact ⟨.refl, Nat.le_of_not_lt hfits⟩
  | succ left ih =>
    rw [enforceProbeResultSize] at h
    split at h
    case isTrue =>
        cases hdrop : result.dropOne with
        | none =>
          rw [hdrop] at h
          cases h
        | some smaller =>
          rw [hdrop] at h
          obtain ⟨hdrops, hfits⟩ := ih h
          exact ⟨.head (dropOne_drops hdrop) hdrops, hfits⟩
    case isFalse hfits =>
        cases h
        exact ⟨.refl, Nat.le_of_not_lt hfits⟩

/-- There is always something left to drop from an answer that does not fit. -/
theorem enforce_total {found : List (List Text × Json)} (hfound : found.length < 10 ^ 8)
    (hlengths : ∀ length ∈ found.filterMap arrayLength, length < 10 ^ 8) {left : Nat}
    {result : ProbeJsonPointerPatternResult} (hcounts : Counts found result)
    (hrevision : result.captureRevision < 10 ^ 8) (hinspected : result.inspectedBytes < 10 ^ 8)
    (hleft : result.droppable ≤ left) : ∃ answer, enforceProbeResultSize left result = .ok answer := by
  have hsmall := hcounts.small hrevision hinspected hfound hlengths
  have hstripped : result.dropOne = none → ¬ result.serializedBytes > maxJsonResultBytes := by
    intro hnone
    obtain ⟨hexamples, hsummaries, hhint⟩ := dropOne_eq_none hnone
    exact Nat.not_lt.2 (serializedBytes_stripped hsmall hexamples hsummaries hhint)
  induction left generalizing result with
  | zero =>
    have hnone : result.dropOne = none := by
      cases hdrop : result.dropOne with
      | none => rfl
      | some smaller =>
        have hless := (dropOne_drops hdrop).droppable
        omega
    rw [enforceProbeResultSize, if_neg (hstripped hnone)]
    exact ⟨result, rfl⟩
  | succ left ih =>
    rw [enforceProbeResultSize]
    split
    case isTrue hlarge =>
        cases hdrop : result.dropOne with
        | none => exact absurd hlarge (hstripped hdrop)
        | some smaller =>
          have hdrops := dropOne_drops hdrop
          have hless := hdrops.droppable
          have hsame := hdrops.metadata
          have hcounts' := hdrops.counts hcounts
          have hrevision' : smaller.captureRevision < 10 ^ 8 := by
            rw [hsame.captureRevision]
            exact hrevision
          have hinspected' : smaller.inspectedBytes < 10 ^ 8 := by
            rw [hsame.inspectedBytes]
            exact hinspected
          have hsmall' := hcounts'.small hrevision' hinspected' hfound hlengths
          refine ih hcounts' hrevision' hinspected' (by omega) hsmall' fun hnone => ?_
          obtain ⟨hexamples, hsummaries, hhint⟩ := dropOne_eq_none hnone
          exact Nat.not_lt.2 (serializedBytes_stripped hsmall' hexamples hsummaries hhint)
    case isFalse => exact ⟨result, rfl⟩

theorem counts_of_drops {found : List (List Text × Json)}
    {result answer : ProbeJsonPointerPatternResult} (h : Relation.ReflTransGen Drops result answer)
    (hcounts : Counts found result) : Counts found answer := by
  induction h with
  | refl => exact hcounts
  | tail _ hdrop ih => exact hdrop.counts ih

end ProbeJsonPointerPatternResult

/-! ## The probe of a document -/

section Probe

variable {pattern : JsonPointerPattern}

/-- The probe at the end of the walk over a document. -/
def walked (pattern : JsonPointerPattern) (root : Json) : PatternProbe :=
  visitJson (PatternProbe.observer pattern) [] rootState root {}

theorem walked_visited (root : Json) :
    PatternProbe.Visited pattern 0 1 (root.located []) {} (walked pattern root) :=
  @PatternProbe.visited_root pattern (PatternProbe.shouldDescend pattern) (fun _ h => h) root

theorem Tally.counts_start : (PatternProbe.tally {}).Counts [] :=
  ⟨rfl, fun kind => by cases kind <;> rfl, rfl, rfl, rfl⟩

theorem visited_counts {root : Json} {probe : PatternProbe}
    (h : PatternProbe.Visited pattern 0 1 (root.located []) {} probe) :
    probe.result.Counts (pattern.found (root.located [])) := by
  have hcounts : probe.tally.Counts (pattern.found (root.located [])) := by
    rw [h.tally]
    exact Tally.counts_start.addAll
  refine ⟨hcounts.matchCount, hcounts.typeCounts, hcounts.arrayLengthRange, hcounts.examples,
    hcounts.summaries, fun summary hsummary => ?_⟩
  obtain ⟨i, hi⟩ := List.mem_iff_getElem?.1 hsummary
  exact h.summaries.new i summary (Nat.zero_le i) hi

theorem probeAnswer_counts {found : List (List Text × Json)} {probe : PatternProbe} (input : Bytes)
    (h : probe.result.Counts found) : (probeAnswer input probe).Counts found := by
  unfold probeAnswer
  dsimp only
  split <;> split <;>
    exact ⟨h.matchCount, h.typeCounts, h.arrayLengthRange, h.examples, h.summaries, h.keys⟩

end Probe

end Fluxcope.Control
