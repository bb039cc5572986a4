import Fluxcope.Control.BodyPages
import Fluxcope.Library.Cancellation
import Fluxcope.Library.Kmp
import Fluxcope.Library.Machine
/-!
# Searching a body

`search_capture_body` looks for the case folding of a query in that of a text, unit
by unit, and maps each match back to the text.  The case folding of a character
belongs to another package and is a parameter.
-/

namespace Fluxcope.Control

open Fluxcope.Library Fluxcope.Library.Utf8 Fluxcope.Capture

def defaultBodyPageLength : Nat := 8 * 1024

def maxBodySearchLimit : Nat := 50

def maxBodySearchContextBytes : Nat := 1024

def maxBodySearchQueryBytes : Nat := 8 * 1024

structure OriginalBoundary where
  start : Nat := 0
  stop : Nat := 0
  deriving DecidableEq, Repr

structure BodySearchMatch where
  originalRange : BodyRange
  matched : Bytes
  contextBefore : Bytes
  contextAfter : Bytes
  resourceUri : String
  deriving DecidableEq, Repr

structure BodyTextSearch where
  totalMatches : Nat
  omittedMatches : Nat
  foundMatches : List BodySearchMatch
  deriving DecidableEq, Repr

/-- Why a search has no answer.  A slice out of range, or one that cuts a character,
would be a panic. -/
inductive BodySearchStop
  | error (error : ControlError)
  | notTextual (error : ControlError) (rawContentUri : String)
  | panicked
  deriving DecidableEq, Repr

abbrev BodySearch (α : Type) := Checked BodySearchStop α

def bodySearchCancelled : BodySearchStop := .error (.cancelled "body search cancelled")

def emptyFoldedQuery : BodySearchStop :=
  .error
    { code := .invalidArgument
      message := "body search query must not fold to an empty string"
      retryable := false
      field := some "query" }

/-- `&text[start..stop]` -/
def sliceText (text : Bytes) (start stop : Nat) : BodySearch Bytes :=
  if start ≤ stop && stop ≤ text.length && isCharBoundary text start &&
      isCharBoundary text stop then
    pure ((text.drop start).take (stop - start))
  else throw .panicked

/-! ## The matcher -/

structure FoldedMatcher where
  query : List Bytes
  failure : List Nat
  boundaries : List OriginalBoundary
  nextBoundary : Nat
  matched : Nat
  unitsSinceCancellation : Nat
  deriving DecidableEq, Repr

section Matcher

variable (cancelled : Nat → Bool)

def checkBodySearch : BodySearch Unit := Checked.check cancelled bodySearchCancelled

def checkWhen (condition : Bool) : BodySearch Unit :=
  if condition then checkBodySearch cancelled else pure ()

/-- The checks between the entries of the failure table, at the indexes left. -/
def tableChecks : List Nat → BodySearch Unit
  | [] => pure ()
  | index :: rest => do
      checkWhen cancelled (index % (8 * 1024) = 0)
      tableChecks rest

namespace FoldedMatcher

def new (query : List Bytes) : BodySearch FoldedMatcher :=
  if query.isEmpty then throw emptyFoldedQuery
  else do
    tableChecks cancelled (List.range' 1 (query.length - 1))
    pure
      { query
        failure := Kmp.failureTable query
        boundaries := List.replicate query.length {}
        nextBoundary := 0
        matched := 0
        unitsSinceCancellation := 0 }

def push (matcher : FoldedMatcher) (value : Bytes) (boundary : OriginalBoundary) :
    BodySearch (Option (Nat × Nat) × FoldedMatcher) := do
  let due := matcher.unitsSinceCancellation + 1 ≥ 8 * 1024
  checkWhen cancelled due
  let unitsSinceCancellation := if due then 0 else matcher.unitsSinceCancellation + 1
  let boundaries := matcher.boundaries.set matcher.nextBoundary boundary
  let nextBoundary := (matcher.nextBoundary + 1) % boundaries.length
  let matched := Kmp.advance matcher.query matcher.failure value matcher.matched
  if matched ≠ matcher.query.length then
    pure (none, { matcher with boundaries, nextBoundary, matched, unitsSinceCancellation })
  else
    match boundaries[nextBoundary]? with
    | none => throw .panicked
    | some first =>
      pure (some (first.start, boundary.stop),
        { matcher with
          boundaries, nextBoundary, unitsSinceCancellation
          matched := matcher.failure[matched - 1]?.getD 0 })

end FoldedMatcher

end Matcher

/-! ## Windows -/

/-- The steps of `aligned_start`, with those that are left. -/
def alignedStartFrom (text : Bytes) : Nat → Nat → Nat
  | 0, offset => offset
  | fuel + 1, offset =>
    if offset < text.length && !isCharBoundary text offset then
      alignedStartFrom text fuel (offset + 1)
    else offset

def alignedStart (text : Bytes) (offset : Nat) : Nat :=
  alignedStartFrom text (text.length - offset) offset

/-- A window with `margin` bytes on both sides of a match, and with `page` bytes at most. -/
def coveringWindow (margin page : Nat) (text : Bytes) (matchStart matchEnd : Nat) : Nat × Nat :=
  let desiredStart := alignedStart text (matchStart - margin)
  let desiredEnd := alignedEnd text (min (satAdd matchEnd margin) text.length)
  if desiredEnd - desiredStart ≤ page then (desiredStart, desiredEnd)
  else
    let latestStart := matchEnd - page
    let windowStart := alignedStart text (max desiredStart latestStart)
    let windowEnd := alignedEnd text (min (satAdd windowStart page) text.length)
    (windowStart, windowEnd)

def boundedCoveringWindow (text : Bytes) (matchStart matchEnd : Nat) : Nat × Nat :=
  coveringWindow (defaultBodyPageLength / 2) maxBodyPageLength text matchStart matchEnd

/-! ## The search -/

/-- The characters of a text with their places. -/
def charIndicesFrom : Nat → List Bytes → List (Nat × Bytes)
  | _, [] => []
  | start, c :: cs => (start, c) :: charIndicesFrom (start + c.length) cs

def charIndices (text : Bytes) : List (Nat × Bytes) := charIndicesFrom 0 (chars text)

structure BodySearchState where
  matcher : FoldedMatcher
  totalMatches : Nat := 0
  foundMatches : List BodySearchMatch := []
  deriving DecidableEq, Repr

section Search

variable (cancelled : Nat → Bool) (caseFold : Bytes → List Bytes)

/-- What is reported of a match. -/
def searchMatch (text : Bytes) (contextBytes : Nat) (decodedUri : String)
    (originalStart originalEnd : Nat) : BodySearch BodySearchMatch := do
  let contextStart := alignedStart text (originalStart - contextBytes)
  let contextEnd := alignedEnd text (min (satAdd originalEnd contextBytes) text.length)
  let window := boundedCoveringWindow text originalStart originalEnd
  let matched ← sliceText text originalStart originalEnd
  let contextBefore ← sliceText text contextStart originalStart
  let contextAfter ← sliceText text originalEnd contextEnd
  pure
    { originalRange := { offset := originalStart, length := originalEnd - originalStart }
      matched
      contextBefore
      contextAfter
      resourceUri := uriWithRange decodedUri window.1 (window.2 - window.1) }

/-- A text is searched with these settings. -/
structure BodySearchSettings where
  text : Bytes
  limit : Nat
  contextBytes : Nat
  decodedUri : String

def noteMatch (settings : BodySearchSettings) (state : BodySearchState) (matcher : FoldedMatcher)
    (originalStart originalEnd : Nat) : BodySearch BodySearchState :=
  if state.foundMatches.length ≥ settings.limit then
    pure { state with matcher, totalMatches := state.totalMatches + 1 }
  else do
    let found ← searchMatch settings.text settings.contextBytes settings.decodedUri originalStart
      originalEnd
    pure
      { matcher
        totalMatches := state.totalMatches + 1
        foundMatches := state.foundMatches ++ [found] }

/-- The units of a character. -/
def pushUnits (settings : BodySearchSettings) (boundary : OriginalBoundary) :
    List Bytes → BodySearchState → BodySearch BodySearchState
  | [], state => pure state
  | value :: rest, state => do
      let (found, matcher) ← state.matcher.push cancelled value boundary
      match found with
      | none => pushUnits settings boundary rest { state with matcher }
      | some (originalStart, originalEnd) => do
          let state ← noteMatch settings state matcher originalStart originalEnd
          pushUnits settings boundary rest state

/-- The loop over the characters, with the bytes scanned since the last check. -/
def searchChars (settings : BodySearchSettings) :
    List (Nat × Bytes) → Nat → BodySearchState → BodySearch BodySearchState
  | [], _, state => pure state
  | (start, original) :: rest, scanned, state => do
      let scanned := scanned + original.length
      let state ← pushUnits cancelled settings { start, stop := start + original.length }
        (caseFold original) state
      let due := scanned ≥ 32 * 1024
      checkWhen cancelled due
      searchChars settings rest (if due then 0 else scanned) state

/-- The loop over the characters of the query. -/
def foldQuery : List Bytes → Nat → List Bytes → BodySearch (List Bytes)
  | [], _, folded => pure folded
  | original :: rest, scanned, folded => do
      let scanned := scanned + original.length
      let due := scanned ≥ 32 * 1024
      checkWhen cancelled due
      foldQuery rest (if due then 0 else scanned) (folded ++ caseFold original)

/-- The checks of the arguments. -/
def searchArgumentError (query : Bytes) (limit contextBytes : Nat) : Option ControlError :=
  if query.isEmpty then
    some
      { code := .invalidArgument
        message := "body search query must not be empty"
        retryable := false
        field := some "query" }
  else if query.length > maxBodySearchQueryBytes then
    some
      { code := .invalidArgument
        message := "body search query exceeds the byte limit"
        retryable := false
        field := some "query"
        details :=
          [("maximum_bytes", maxBodySearchQueryBytes), ("received_bytes", query.length)] }
  else if !(1 ≤ limit && limit ≤ maxBodySearchLimit) then
    some
      { code := .invalidArgument
        message := "body search match limit is out of range"
        retryable := false
        field := some "limit"
        details := [("minimum", 1), ("maximum", maxBodySearchLimit), ("received", limit)] }
  else if contextBytes > maxBodySearchContextBytes then
    some
      { code := .invalidArgument
        message := "body search context is out of range"
        retryable := false
        field := some "context_bytes"
        details :=
          [("minimum", 0), ("maximum", maxBodySearchContextBytes), ("received", contextBytes)] }
  else none

def bodyNotTextual : ControlError :=
  { code := .bodyNotTextual
    message := "decoded capture body is not textual UTF-8"
    retryable := false }

def searchCaptureBody (decoded query : Bytes) (limit contextBytes : Nat)
    (decodedUri rawUri : String) : BodySearch BodyTextSearch :=
  match searchArgumentError query limit contextBytes with
  | some error => throw (.error error)
  | none =>
    if (fromUtf8 decoded).isSome then throw (.notTextual bodyNotTextual rawUri)
    else do
      checkBodySearch cancelled
      let foldedQuery ← foldQuery cancelled caseFold (chars query) 0 []
      checkBodySearch cancelled
      if foldedQuery.isEmpty then throw emptyFoldedQuery
      else do
        let matcher ← FoldedMatcher.new cancelled foldedQuery
        let state ← searchChars cancelled caseFold
          { text := decoded, limit, contextBytes, decodedUri } (charIndices decoded) 0 { matcher }
        checkBodySearch cancelled
        pure
          { totalMatches := state.totalMatches
            omittedMatches := state.totalMatches - state.foundMatches.length
            foundMatches := state.foundMatches }

end Search

end Fluxcope.Control
