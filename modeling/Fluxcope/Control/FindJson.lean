import Fluxcope.Control.JsonWalk
import Fluxcope.Library.JsonWriter
/-!
# Finding fields

The finder records the pointer and the shape of every value whose key matches, as
long as the limit and the budget for the answer last.
-/

namespace Fluxcope.Control

open Fluxcope.Library Fluxcope.Library.Utf8

inductive FieldMatchMode
  | exact
  | unicodeCasefoldExact
  deriving DecidableEq, Repr

inductive JsonInspectionStatus
  | matched
  | noMatch
  deriving DecidableEq, Repr

structure JsonFieldMatch where
  pointer : JsonPointer
  valueType : JsonType
  objectChildCount : Option Nat
  arrayLength : Option Nat
  scalarEncodedBytes : Option Nat
  deriving DecidableEq, Repr

structure FindJsonPointersResult where
  status : JsonInspectionStatus
  captureRevision : Nat
  fieldMatches : List JsonFieldMatch
  totalMatches : Nat
  omittedMatches : Nat
  inspectedBytes : Nat
  sourceTruncated : Bool
  truncated : Bool
  deriving DecidableEq, Repr

def fieldMatchWireOverhead : Nat := 256

/-! ## The budget -/

def jsonStringWireBytes (value : Text) : Nat :=
  2 + (value.map fun character =>
    if character = '"' || character = '\\' || character.toNat = 0x08 || character.toNat = 0x0C ||
        character = '\n' || character = '\r' || character = '\t' then 2
    else if character.toNat ≤ 0x1F then 6
    else character.utf8Size).sum

/-- `WireBudget::reserve_string`: the budget used with the string, if it fits. -/
def reserveString (used : Nat) (value : Text) (structuralBytes : Nat) : Option Nat :=
  let next := used + (jsonStringWireBytes value + structuralBytes)
  if next > retainedResultWireBudget then none else some next

/-! ## The finder -/

structure FieldFinder where
  nextValueMatches : Bool := false
  matchedContainers : List Bool := []
  fieldMatches : List JsonFieldMatch := []
  totalMatches : Nat := 0
  budgetUsed : Nat := 0
  outputOmitted : Bool := false
  deriving DecidableEq, Repr

namespace FieldFinder

/-- `consume_pending_match` leaves no match pending. -/
def consumed (finder : FieldFinder) : FieldFinder := { finder with nextValueMatches := false }

def record (limit : Nat) (finder : FieldFinder) (path : WalkPath) (valueType : JsonType)
    (objectChildCount arrayLength scalarEncodedBytes : Option Nat) : FieldFinder :=
  let finder := { finder with totalMatches := finder.totalMatches + 1 }
  if finder.fieldMatches.length ≥ limit then { finder with outputOmitted := true }
  else
    match reserveString finder.budgetUsed path.raw fieldMatchWireOverhead with
    | none => { finder with outputOmitted := true }
    | some budgetUsed =>
      { finder with
        budgetUsed
        fieldMatches := finder.fieldMatches ++
          [{ pointer := { asStr := path.raw }
             valueType, objectChildCount, arrayLength, scalarEncodedBytes }] }

def containerStart (finder : FieldFinder) : FieldFinder :=
  { finder.consumed with matchedContainers := finder.nextValueMatches :: finder.matchedContainers }

/-- The finder after a container, and whether its key had matched. -/
def containerEnd (finder : FieldFinder) : Bool × FieldFinder :=
  (finder.matchedContainers.head?.getD false,
    { finder with matchedContainers := finder.matchedContainers.tail })

/-- The case folding of Unicode is a function of the `unicode_casefold` crate. -/
def keyMatches (caseFold : Text → Text) (name : Text) (mode : FieldMatchMode) (key : Text) : Bool :=
  match mode with
  | .exact => key = name
  | .unicodeCasefoldExact => caseFold key = caseFold name

def observer (caseFold : Text → Text) (name : Text) (mode : FieldMatchMode) (limit : Nat) :
    JsonWalkObserver FieldFinder where
  -- The walker computes the length of the token for every match.
  scalar finder path kind encodedBytes _ :=
    if finder.nextValueMatches then finder.consumed.record limit path kind none none encodedBytes
    else finder
  objectStart finder _ := finder.containerStart
  objectEnd finder path childCount :=
    let (matched, finder) := finder.containerEnd
    if matched then finder.record limit path .object (some childCount) none none else finder
  arrayStart finder _ := finder.containerStart
  arrayEnd finder path length :=
    let (matched, finder) := finder.containerEnd
    if matched then finder.record limit path .array none (some length) none else finder
  objectKey finder _ key := { finder with nextValueMatches := keyMatches caseFold name mode key }
  wantsScalarEncodedBytes finder := finder.nextValueMatches
  shouldDescend _ := true

end FieldFinder

/-! ## The answer -/

def jsonTypeName : JsonType → Text
  | .object => "object".toList
  | .array => "array".toList
  | .string => "string".toList
  | .number => "number".toList
  | .boolean => "boolean".toList
  | .null => "null".toList

def JsonFieldMatch.toJson (found : JsonFieldMatch) : Text :=
  JsonWriter.object
    [("pointer".toList, JsonWriter.string found.pointer.asStr),
      ("value_type".toList, JsonWriter.string (jsonTypeName found.valueType)),
      ("object_child_count".toList, JsonWriter.option JsonWriter.number found.objectChildCount),
      ("array_length".toList, JsonWriter.option JsonWriter.number found.arrayLength),
      ("scalar_encoded_bytes".toList, JsonWriter.option JsonWriter.number found.scalarEncodedBytes)]

def FindJsonPointersResult.toJson (result : FindJsonPointersResult) : Text :=
  JsonWriter.object
    [("status".toList, JsonWriter.string
        (match result.status with
          | .matched => "matched".toList
          | .noMatch => "no_match".toList)),
      ("capture_revision".toList, JsonWriter.number result.captureRevision),
      ("matches".toList, JsonWriter.array (result.fieldMatches.map JsonFieldMatch.toJson)),
      ("total_matches".toList, JsonWriter.number result.totalMatches),
      ("omitted_matches".toList, JsonWriter.number result.omittedMatches),
      ("inspected_bytes".toList, JsonWriter.number result.inspectedBytes),
      ("source_truncated".toList, JsonWriter.boolean result.sourceTruncated),
      ("truncated".toList, JsonWriter.boolean result.truncated)]

/-- `serialized_result_bytes` -/
def FindJsonPointersResult.serializedBytes (result : FindJsonPointersResult) : Nat :=
  Text.utf8Len result.toJson

/-- The loop of `enforce_find_result_size`, with the matches left to drop. -/
def enforceFindResultSize : Nat → FindJsonPointersResult → Except ControlError FindJsonPointersResult
  | 0, result =>
    if result.serializedBytes > maxJsonResultBytes then
      .error (.internal "bounded JSON field result metadata exceeds its wire limit")
    else .ok result
  | left + 1, result =>
    if result.serializedBytes > maxJsonResultBytes then
      enforceFindResultSize left
        { result with
          fieldMatches := result.fieldMatches.dropLast
          omittedMatches := result.omittedMatches + 1
          truncated := true }
    else .ok result

def validateResultLimit (limit : Nat) : Except ControlError Unit :=
  if 1 ≤ limit && limit ≤ maxJsonExamples then .ok ()
  else
    .error (invalidJsonArgument "JSON result limit is out of range" (some "limit")
      [("minimum", 1), ("maximum", maxJsonExamples), ("received", limit)])

def findJsonPointers (parser : JsonEventParser) (caseFold : Text → Text) (input : Bytes)
    (fieldName : Text) (mode : FieldMatchMode) (limit : Nat) :
    Except ControlError FindJsonPointersResult :=
  if Text.utf8Len fieldName > maxJsonFieldNameBytes then
    .error (invalidJsonArgument "JSON field name exceeds the maximum length" none
      [("maximum_bytes", maxJsonFieldNameBytes)])
  else
    match validateResultLimit limit with
    | .error error => .error error
    | .ok () =>
      match walkJson (FieldFinder.observer caseFold fieldName mode limit) parser input {} with
      | .error error => .error error
      | .ok observer =>
        let omittedMatches := observer.totalMatches - observer.fieldMatches.length
        enforceFindResultSize observer.fieldMatches.length
          { status := if observer.totalMatches = 0 then .noMatch else .matched
            captureRevision := 0
            fieldMatches := observer.fieldMatches
            totalMatches := observer.totalMatches
            omittedMatches
            inspectedBytes := input.length
            sourceTruncated := false
            truncated := observer.outputOmitted || omittedMatches ≠ 0 }

end Fluxcope.Control
