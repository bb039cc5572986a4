import Fluxcope.Control.ExtractJson
import Fluxcope.Control.FindJson
/-!
# Probing with a pattern

The probe counts the values whose pointer has the shape of a pattern.  It does not
descend where no value can match, and keeps examples, keys and hints as long as the
budget for the answer lasts.
-/

namespace Fluxcope.Control

open Fluxcope.Library Fluxcope.Library.Utf8

def maxJsonPatternBytes : Nat := 4 * 1024
def pointerExampleWireOverhead : Nat := 64
def nextHintWireOverhead : Nat := 128
def objectSummaryWireOverhead : Nat := 256

/-! ## Patterns -/

/-- The exact segments are escaped. -/
inductive PatternSegment
  | wildcard
  | exact (expected : Text)
  deriving DecidableEq, Repr

structure JsonPointerPattern where
  raw : Text
  segments : List PatternSegment
  deriving DecidableEq, Repr

/-- One turn of the loop over the segments of a pattern. -/
def PatternSegment.parse (segment : Text) : Except ControlError PatternSegment :=
  if segment = ['*', '*'] then
    .error (invalidJsonArgument "recursive JSON pointer wildcards are not supported"
      (some "pattern"))
  else if segment = ['*'] then .ok .wildcard
  else (decodeSegment true segment).map fun decoded => .exact (escapePointerSegment decoded)

def patternSegmentMatches (expected : PatternSegment) (actual : Text) : Bool :=
  match expected with
  | .wildcard => true
  | .exact expected => expected = actual

namespace JsonPointerPattern

def parse (raw : Text) : Except ControlError JsonPointerPattern :=
  if Text.utf8Len raw > maxJsonPatternBytes then
    .error (invalidJsonArgument "JSON pointer pattern exceeds the maximum length" (some "pattern")
      [("maximum_bytes", maxJsonPatternBytes), ("received_bytes", Text.utf8Len raw)])
  else
    match validatePointerText raw true with
    | .error error => .error error
    | .ok () =>
      ((pointerRawSegments raw).mapM PatternSegment.parse).map fun segments => { raw, segments }

def len (pattern : JsonPointerPattern) : Nat := pattern.segments.length

def segmentMatches (pattern : JsonPointerPattern) (index : Nat) (actual : Text) : Bool :=
  pattern.segments[index]?.any fun expected => patternSegmentMatches expected actual

end JsonPointerPattern

/-! ## The answer -/

structure JsonTypeCounts where
  object : Nat := 0
  array : Nat := 0
  string : Nat := 0
  number : Nat := 0
  boolean : Nat := 0
  null : Nat := 0
  deriving DecidableEq, Repr

def JsonTypeCounts.increment (counts : JsonTypeCounts) : JsonType → JsonTypeCounts
  | .object => { counts with object := counts.object + 1 }
  | .array => { counts with array := counts.array + 1 }
  | .string => { counts with string := counts.string + 1 }
  | .number => { counts with number := counts.number + 1 }
  | .boolean => { counts with boolean := counts.boolean + 1 }
  | .null => { counts with null := counts.null + 1 }

structure JsonObjectKeySummary where
  pointer : JsonPointer
  childCount : Nat
  keys : List JsonNextSegmentHint
  omittedKeys : Nat
  deriving DecidableEq, Repr

structure JsonArrayLengthRange where
  minimum : Nat
  maximum : Nat
  deriving DecidableEq, Repr

structure JsonPointerMissHint where
  longestMatchedPrefix : JsonPointer
  nextSegments : List JsonNextSegmentHint := []
  omittedNextSegments : Nat := 0
  deriving DecidableEq, Repr

structure ProbeJsonPointerPatternResult where
  status : JsonInspectionStatus := .noMatch
  captureRevision : Nat := 0
  matchCount : Nat := 0
  typeCounts : JsonTypeCounts := {}
  examples : List JsonPointer := []
  omittedExamples : Nat := 0
  objectKeySummaries : List JsonObjectKeySummary := []
  omittedObjectSummaries : Nat := 0
  arrayLengthRange : Option JsonArrayLengthRange := none
  missHint : Option JsonPointerMissHint := some { longestMatchedPrefix := { asStr := [] } }
  inspectedBytes : Nat := 0
  sourceTruncated : Bool := false
  truncated : Bool := false
  deriving DecidableEq, Repr

/-- The budget used with one thing more in a collection, if both have room for it. -/
def reserveWithin (count limit used : Nat) (value : Text) (structuralBytes : Nat) : Option Nat :=
  if count < limit then reserveString used value structuralBytes else none

/-- The text of a segment.  The segments of the walker's paths always decode. -/
def decodedSegment (rawSegment : Text) : Text :=
  match decodeSegment false rawSegment with
  | .ok decoded => decoded
  | .error _ => rawSegment

def JsonObjectKeySummary.offerKey (summary : JsonObjectKeySummary) (used : Nat)
    (hint : JsonNextSegmentHint) : Option (Nat × JsonObjectKeySummary) :=
  (reserveWithin summary.keys.length maxJsonHints used hint.segment nextHintWireOverhead).map
    fun used => (used, { summary with keys := summary.keys ++ [hint] })

def JsonArrayLengthRange.extend (range : Option JsonArrayLengthRange) (length : Nat) :
    JsonArrayLengthRange :=
  match range with
  | none => { minimum := length, maximum := length }
  | some range => { minimum := min range.minimum length, maximum := max range.maximum length }

/-! ## The probe -/

structure ObjectSummaryState where
  depth : Nat
  resultIndex : Option Nat
  deriving DecidableEq, Repr

/-- The innermost value comes first in the stacks. -/
structure PatternProbe where
  result : ProbeJsonPointerPatternResult := {}
  budgetUsed : Nat := 0
  prefixStack : List Nat := []
  depthStack : List Nat := []
  longestPrefixSegments : Nat := 0
  longestPrefixWireBytes : Nat := jsonStringWireBytes []
  objectSummaryStack : List ObjectSummaryState := []
  deriving DecidableEq, Repr

namespace PatternProbe

def currentPrefix (probe : PatternProbe) : Nat := probe.prefixStack.head?.getD 0

def isMatch (pattern : JsonPointerPattern) (probe : PatternProbe) (path : WalkPath) : Bool :=
  path.depth = pattern.len && probe.currentPrefix = pattern.len

def recordChildShape (probe : PatternProbe) (path : WalkPath) (kind : JsonType) : PatternProbe :=
  match probe.objectSummaryStack.head? with
  | none => probe
  | some parent =>
    if parent.depth + 1 ≠ path.depth then probe
    else
      match parent.resultIndex, path.segment with
      | some index, some rawSegment =>
        let hint : JsonNextSegmentHint :=
          { segment := decodedSegment rawSegment, valueType := kind }
        match probe.result.objectKeySummaries[index]? with
        -- The index of a summary on the stack is in range.
        | none => probe
        | some summary =>
          match summary.offerKey probe.budgetUsed hint with
          | some (budgetUsed, summary) =>
            { probe with
              budgetUsed
              result := { probe.result with
                objectKeySummaries := probe.result.objectKeySummaries.set index summary } }
          | none =>
            { probe with
              result := { probe.result with
                objectKeySummaries := probe.result.objectKeySummaries.set index
                  { summary with omittedKeys := summary.omittedKeys + 1 }
                truncated := true } }
      | _, _ => probe

/-- The hint for a longer prefix takes the place of the one before. -/
def notePrefix (probe : PatternProbe) (path : WalkPath) : PatternProbe :=
  if probe.currentPrefix > probe.longestPrefixSegments then
    { probe with
      longestPrefixSegments := probe.currentPrefix
      longestPrefixWireBytes := jsonStringWireBytes path.raw
      result := { probe.result with
        missHint := some { longestMatchedPrefix := { asStr := path.raw } } } }
  else probe

def offerHint (probe : PatternProbe) (hint : JsonPointerMissHint) (next : JsonNextSegmentHint) :
    PatternProbe :=
  if hint.nextSegments.any fun candidate =>
      candidate.segment = next.segment && candidate.valueType = next.valueType then
    { probe with result := { probe.result with missHint := some hint } }
  else
    match reserveWithin hint.nextSegments.length maxJsonHints probe.budgetUsed next.segment
        nextHintWireOverhead with
    | some budgetUsed =>
      { probe with
        budgetUsed
        result := { probe.result with
          missHint := some { hint with nextSegments := hint.nextSegments ++ [next] } } }
    | none =>
      { probe with
        result := { probe.result with
          missHint := some { hint with omittedNextSegments := hint.omittedNextSegments + 1 }
          truncated := true } }

def considerMiss (probe : PatternProbe) (path : WalkPath) (kind : JsonType) : PatternProbe :=
  let matching := probe.currentPrefix
  let probe := probe.notePrefix path
  if matching ≠ probe.longestPrefixSegments || path.depth ≠ matching + 1 then probe
  else
    match path.segment with
    | none => probe
    | some rawSegment =>
      probe.offerHint (probe.result.missHint.getD { longestMatchedPrefix := { asStr := [] } })
        { segment := decodedSegment rawSegment, valueType := kind }

def recordExample (probe : PatternProbe) (path : WalkPath) : PatternProbe :=
  match reserveWithin probe.result.examples.length maxJsonExamples probe.budgetUsed path.raw
      pointerExampleWireOverhead with
  | some budgetUsed =>
    { probe with
      budgetUsed
      result := { probe.result with
        examples := probe.result.examples ++ [{ asStr := path.raw }] } }
  | none =>
    { probe with
      result := { probe.result with
        omittedExamples := probe.result.omittedExamples + 1
        truncated := true } }

def terminal (pattern : JsonPointerPattern) (probe : PatternProbe) (path : WalkPath)
    (kind : JsonType) : PatternProbe :=
  let probe := (probe.recordChildShape path kind).considerMiss path kind
  if !probe.isMatch pattern path then probe
  else
    recordExample
      { probe with
        result := { probe.result with
          matchCount := probe.result.matchCount + 1
          typeCounts := probe.result.typeCounts.increment kind } } path

def startObjectSummary (pattern : JsonPointerPattern) (probe : PatternProbe) (path : WalkPath) :
    PatternProbe :=
  if !probe.isMatch pattern path then
    { probe with
      objectSummaryStack :=
        { depth := path.depth, resultIndex := none } :: probe.objectSummaryStack }
  else
    match reserveWithin probe.result.objectKeySummaries.length maxJsonExamples probe.budgetUsed
        path.raw objectSummaryWireOverhead with
    | none =>
      { probe with
        objectSummaryStack :=
          { depth := path.depth, resultIndex := none } :: probe.objectSummaryStack
        result := { probe.result with
          omittedObjectSummaries := probe.result.omittedObjectSummaries + 1
          truncated := true } }
    | some budgetUsed =>
      { probe with
        budgetUsed
        objectSummaryStack :=
          { depth := path.depth
            resultIndex := some probe.result.objectKeySummaries.length } ::
            probe.objectSummaryStack
        result := { probe.result with
          objectKeySummaries := probe.result.objectKeySummaries ++
            [{ pointer := { asStr := path.raw }, childCount := 0, keys := [], omittedKeys := 0 }] } }

def valueStart (pattern : JsonPointerPattern) (probe : PatternProbe) (path : WalkPath) :
    PatternProbe :=
  let parentPrefix := probe.currentPrefix
  let current :=
    if path.depth = 0 then 0
    else if parentPrefix = path.depth - 1 &&
        path.segment.any fun segment => pattern.segmentMatches parentPrefix segment then
      parentPrefix + 1
    else parentPrefix
  { probe with
    prefixStack := current :: probe.prefixStack
    depthStack := path.depth :: probe.depthStack }

def valueEnd (probe : PatternProbe) : PatternProbe :=
  { probe with prefixStack := probe.prefixStack.tail, depthStack := probe.depthStack.tail }

def objectEnd (probe : PatternProbe) (childCount : Nat) : PatternProbe :=
  let popped := { probe with objectSummaryStack := probe.objectSummaryStack.tail }
  match probe.objectSummaryStack.head?.bind ObjectSummaryState.resultIndex with
  | none => popped
  | some index =>
    { popped with
      result := { probe.result with
        objectKeySummaries :=
          probe.result.objectKeySummaries.modify index fun summary =>
            { summary with childCount } } }

def arrayEnd (pattern : JsonPointerPattern) (probe : PatternProbe) (path : WalkPath)
    (length : Nat) : PatternProbe :=
  if !probe.isMatch pattern path then probe
  else
    { probe with
      result := { probe.result with
        arrayLengthRange := some (JsonArrayLengthRange.extend probe.result.arrayLengthRange length) } }

def shouldDescend (pattern : JsonPointerPattern) (probe : PatternProbe) : Bool :=
  let depth := probe.depthStack.head?.getD 0
  (probe.currentPrefix = depth && depth < pattern.len) ||
    probe.objectSummaryStack.head?.any fun state =>
      state.depth = depth && state.resultIndex.isSome

def observer (pattern : JsonPointerPattern) : JsonWalkObserver PatternProbe where
  valueStart := valueStart pattern
  valueEnd := valueEnd
  scalar probe path kind _ _ := probe.terminal pattern path kind
  objectStart probe path := (probe.terminal pattern path .object).startObjectSummary pattern path
  objectEnd probe _ childCount := probe.objectEnd childCount
  arrayStart probe path := probe.terminal pattern path .array
  arrayEnd := arrayEnd pattern
  shouldDescend := shouldDescend pattern

end PatternProbe

/-! ## The size of the answer -/

def JsonNextSegmentHint.toJson (hint : JsonNextSegmentHint) : Text :=
  JsonWriter.object
    [("segment".toList, JsonWriter.string hint.segment),
      ("value_type".toList, JsonWriter.string (jsonTypeName hint.valueType))]

def JsonTypeCounts.toJson (counts : JsonTypeCounts) : Text :=
  JsonWriter.object
    [("object".toList, JsonWriter.number counts.object),
      ("array".toList, JsonWriter.number counts.array),
      ("string".toList, JsonWriter.number counts.string),
      ("number".toList, JsonWriter.number counts.number),
      ("boolean".toList, JsonWriter.number counts.boolean),
      ("null".toList, JsonWriter.number counts.null)]

def JsonObjectKeySummary.toJson (summary : JsonObjectKeySummary) : Text :=
  JsonWriter.object
    [("pointer".toList, JsonWriter.string summary.pointer.asStr),
      ("child_count".toList, JsonWriter.number summary.childCount),
      ("keys".toList, JsonWriter.array (summary.keys.map JsonNextSegmentHint.toJson)),
      ("omitted_keys".toList, JsonWriter.number summary.omittedKeys)]

def JsonArrayLengthRange.toJson (range : JsonArrayLengthRange) : Text :=
  JsonWriter.object
    [("minimum".toList, JsonWriter.number range.minimum),
      ("maximum".toList, JsonWriter.number range.maximum)]

def JsonPointerMissHint.toJson (hint : JsonPointerMissHint) : Text :=
  JsonWriter.object
    [("longest_matched_prefix".toList, JsonWriter.string hint.longestMatchedPrefix.asStr),
      ("next_segments".toList, JsonWriter.array (hint.nextSegments.map JsonNextSegmentHint.toJson)),
      ("omitted_next_segments".toList, JsonWriter.number hint.omittedNextSegments)]

def JsonInspectionStatus.toJson : JsonInspectionStatus → Text
  | .matched => JsonWriter.string "matched".toList
  | .noMatch => JsonWriter.string "no_match".toList

namespace ProbeJsonPointerPatternResult

def toJson (result : ProbeJsonPointerPatternResult) : Text :=
  JsonWriter.object
    [("status".toList, result.status.toJson),
      ("capture_revision".toList, JsonWriter.number result.captureRevision),
      ("match_count".toList, JsonWriter.number result.matchCount),
      ("type_counts".toList, result.typeCounts.toJson),
      ("examples".toList,
        JsonWriter.array (result.examples.map fun pointer => JsonWriter.string pointer.asStr)),
      ("omitted_examples".toList, JsonWriter.number result.omittedExamples),
      ("object_key_summaries".toList,
        JsonWriter.array (result.objectKeySummaries.map JsonObjectKeySummary.toJson)),
      ("omitted_object_summaries".toList, JsonWriter.number result.omittedObjectSummaries),
      ("array_length_range".toList,
        JsonWriter.option JsonArrayLengthRange.toJson result.arrayLengthRange),
      ("miss_hint".toList, JsonWriter.option JsonPointerMissHint.toJson result.missHint),
      ("inspected_bytes".toList, JsonWriter.number result.inspectedBytes),
      ("source_truncated".toList, JsonWriter.boolean result.sourceTruncated),
      ("truncated".toList, JsonWriter.boolean result.truncated)]

/-- `serialized_result_bytes` -/
def serializedBytes (result : ProbeJsonPointerPatternResult) : Nat := Text.utf8Len result.toJson

/-- One turn of the loop of `enforce_probe_result_size`: what is dropped first, if anything
is left. -/
def dropOne (result : ProbeJsonPointerPatternResult) : Option ProbeJsonPointerPatternResult :=
  if result.examples ≠ [] then
    some { result with
      examples := result.examples.dropLast
      omittedExamples := result.omittedExamples + 1
      truncated := true }
  else
    match result.objectKeySummaries.getLast? with
    | some summary =>
      if summary.keys ≠ [] then
        some { result with
          objectKeySummaries := result.objectKeySummaries.dropLast ++
            [{ summary with
               keys := summary.keys.dropLast
               omittedKeys := summary.omittedKeys + 1 }]
          truncated := true }
      else
        some { result with
          objectKeySummaries := result.objectKeySummaries.dropLast
          omittedObjectSummaries := result.omittedObjectSummaries + 1
          truncated := true }
    | none =>
      match result.missHint with
      | none => none
      | some hint =>
        if hint.nextSegments ≠ [] then
          some { result with
            missHint := some { hint with
              nextSegments := hint.nextSegments.dropLast
              omittedNextSegments := hint.omittedNextSegments + 1 }
            truncated := true }
        else some { result with missHint := none, truncated := true }

/-- How many things can be dropped. -/
def droppable (result : ProbeJsonPointerPatternResult) : Nat :=
  result.examples.length +
    ((result.objectKeySummaries.map fun summary => summary.keys.length + 1).sum +
      (result.missHint.elim 0 fun hint => hint.nextSegments.length + 1))

end ProbeJsonPointerPatternResult

def probeMetadataLimit : ControlError :=
  .internal "bounded JSON pattern result metadata exceeds its wire limit"

/-- The loop of `enforce_probe_result_size`, with the number of things left to drop. -/
def enforceProbeResultSize :
    Nat → ProbeJsonPointerPatternResult → Except ControlError ProbeJsonPointerPatternResult
  | 0, result =>
    if result.serializedBytes > maxJsonResultBytes then .error probeMetadataLimit else .ok result
  | left + 1, result =>
    if result.serializedBytes > maxJsonResultBytes then
      match result.dropOne with
      | none => .error probeMetadataLimit
      | some smaller => enforceProbeResultSize left smaller
    else .ok result

/-- The answer before its size is enforced. -/
def probeAnswer (input : Bytes) (probe : PatternProbe) : ProbeJsonPointerPatternResult :=
  let result := { probe.result with inspectedBytes := input.length }
  let matched := result.matchCount ≠ 0
  let result := if matched then { result with status := .matched, missHint := none } else result
  let longestPrefixWireBytes := if matched then 0 else probe.longestPrefixWireBytes
  let chargedWireBytes := probe.budgetUsed + longestPrefixWireBytes
  if chargedWireBytes > maxJsonResultBytes then { result with truncated := true } else result

def probeJson (parser : JsonEventParser) (input : Bytes) (pattern : JsonPointerPattern) :
    Except ControlError ProbeJsonPointerPatternResult :=
  match walkJson (PatternProbe.observer pattern) parser input {} with
  | .error error => .error error
  | .ok observer =>
    let result := probeAnswer input observer
    enforceProbeResultSize result.droppable result

end Fluxcope.Control
