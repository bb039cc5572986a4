import Fluxcope.Capture.DecodedBytes
import Fluxcope.Capture.Record
import Fluxcope.Control.Error
/-!
# Pages of captured bodies

A page of a body starts at an offset and has at most the requested length.  A
page of a text is cut at characters, and has one character at least.
-/

namespace Fluxcope.Control

open Fluxcope.Library Fluxcope.Library.Utf8 Fluxcope.Capture

def maxBodyPageLength : Nat := 64 * 1024

inductive BodyRepresentation
  | raw
  | decoded
  deriving DecidableEq, Repr

structure BodyContentRequest where
  captureId : CaptureSequence
  captureRevision : Nat
  side : BodySide
  representation : BodyRepresentation
  offset : Nat
  length : Nat
  deriving DecidableEq, Repr

def BodyContentRequest.validate (request : BodyContentRequest) : Except ControlError Unit :=
  if request.length = 0 then
    .error
      { code := .invalidArgument
        message := "body page length must be at least one byte"
        retryable := false
        field := some "length"
        details := [("minimum", 1), ("received", 0)] }
  else if request.length > maxBodyPageLength then
    .error
      { code := .invalidArgument
        message := "body page length exceeds the maximum"
        retryable := false
        field := some "length"
        details := [("maximum", maxBodyPageLength), ("received", request.length)] }
  else .ok ()

structure BodyRange where
  offset : Nat
  length : Nat
  deriving DecidableEq, Repr

structure BodyPageSource where
  stream : BodyStreamState
  observedBytes : Nat
  retainedBytes : Nat
  truncated : Bool
  truncationReason : Option BodyPreviewLimit
  decodedEncodingChain : List Bytes
  decodedOutputLimited : Bool
  deriving DecidableEq, Repr

structure BodyPage where
  content : Bytes
  mediaType : Option Bytes
  requestedRange : BodyRange
  actualRange : BodyRange
  totalBytes : Nat
  nextOffset : Option Nat
  source : BodyPageSource
  deriving DecidableEq, Repr

/-- The bytes of `content-type`. -/
def contentTypeName : Bytes :=
  [0x63, 0x6F, 0x6E, 0x74, 0x65, 0x6E, 0x74, 0x2D, 0x74, 0x79, 0x70, 0x65]

def mediaType (headers : HeaderFields) : Option Bytes :=
  ((headers.find? fun field => eqIgnoreAsciiCase field.1 contentTypeName).map fun field =>
    trim field.2).filter fun value => !value.isEmpty

def bodyPage (content : Bytes) (request : BodyContentRequest) (status : BodyStatus)
    (headers : HeaderFields) (start totalBytes : Nat) (decodedEncodingChain : List Bytes)
    (decodedOutputLimited : Bool) : BodyPage :=
  let actualLength := content.length
  let stop := satAdd start actualLength
  { content
    mediaType := mediaType headers
    requestedRange := { offset := request.offset, length := request.length }
    actualRange := { offset := start, length := actualLength }
    totalBytes
    nextOffset := if stop < totalBytes then some stop else none
    source :=
      { stream := status.stream
        observedBytes := status.observedBytes
        retainedBytes := status.retainedBytes
        truncated := status.previewLimit.isSome
        truncationReason := status.previewLimit
        decodedEncodingChain
        decodedOutputLimited } }

/-! ## Raw bodies -/

/-- The loop over the chunks, from the place of the first one; `none` if a slice is out of range. -/
def rawContent (start stop : Nat) : Nat → List Bytes → Option Bytes
  | _, [] => some []
  | chunkStart, chunk :: chunks => do
      let chunkEnd := satAdd chunkStart chunk.length
      let piece ←
        if chunkEnd > start && chunkStart < stop then
          slice? chunk (start - chunkStart) (min (stop - chunkStart) chunk.length)
        else some []
      if chunkEnd ≥ stop then some piece
      else (rawContent start stop chunkEnd chunks).map fun rest => piece ++ rest

/-- A slice out of range would be a panic, and is `none`. -/
def pageRawBody (preview : CapturedBodyPreview) (request : BodyContentRequest)
    (status : BodyStatus) (headers : HeaderFields) : Option (Except ControlError BodyPage) :=
  match request.validate with
  | .error error => some (.error error)
  | .ok () =>
    let totalBytes := preview.len
    let start := min request.offset totalBytes
    let stop := min (satAdd start request.length) totalBytes
    (rawContent start stop 0 preview.chunks).map fun content =>
      .ok (bodyPage content request status headers start totalBytes [] false)

/-! ## Decoded bodies -/

def isUtf8Boundary (bytes : Bytes) (index : Nat) : Bool :=
  index = bytes.length || bytes[index]?.any startsChar

/-- The first place from `first` to `last` that satisfies `p`. -/
def findBetween (p : Nat → Bool) (first last : Nat) : Option Nat :=
  (List.range' first (last + 1 - first)).find? p

/-- The last place from `first` on and before `stop` that satisfies `p`. -/
def findLastBefore (p : Nat → Bool) (first stop : Nat) : Option Nat :=
  (List.range' first (stop - first)).reverse.find? p

def decodedOffsetError (bytes : Bytes) (start totalBytes offset : Nat) : ControlError :=
  let nearestStart := (findLastBefore (isUtf8Boundary bytes) (start - 3) start).getD 0
  let nearestEnd :=
    (findBetween (isUtf8Boundary bytes) (satAdd start 1) (min (satAdd start 3) totalBytes)).getD
      totalBytes
  { code := .invalidArgument
    message := "decoded text offset is not a UTF-8 character boundary"
    retryable := false
    details := [("offset", offset), ("nearest_start", nearestStart), ("nearest_end", nearestEnd)] }

/-- Where the page of a text ends. -/
def textPageEnd (bytes : Bytes) (start requestedEnd totalBytes : Nat) : Nat :=
  let stop := lowerTo (isUtf8Boundary bytes) start requestedEnd
  if stop = start && stop < totalBytes then
    (findBetween (isUtf8Boundary bytes) (start + 1) totalBytes).getD totalBytes
  else stop

def pageDecodedBody (decoded : DecodedBytes) (request : BodyContentRequest)
    (status : BodyStatus) (headers : HeaderFields) : Option (Except ControlError BodyPage) :=
  match request.validate with
  | .error error => some (.error error)
  | .ok () =>
    let totalBytes := decoded.bytes.length
    let start := min request.offset totalBytes
    let requestedEnd := min (satAdd start request.length) totalBytes
    if decoded.isUtf8 && !isUtf8Boundary decoded.bytes start then
      some (.error (decodedOffsetError decoded.bytes start totalBytes request.offset))
    else
      let stop :=
        if decoded.isUtf8 then textPageEnd decoded.bytes start requestedEnd totalBytes
        else requestedEnd
      (slice? decoded.bytes start stop).map fun content =>
        .ok (bodyPage content request status headers start totalBytes decoded.encodingChain
          decoded.outputLimited)

/-! ## Selected representations -/

structure SelectedPageWindow where
  content : Bytes
  requestedRange : BodyRange
  actualRange : BodyRange
  totalBytes : Nat
  nextOffset : Option Nat
  nextUri : Option String
  deriving DecidableEq, Repr

def alignedEnd (text : Bytes) (offset : Nat) : Nat := lowerTo (isCharBoundary text) 0 offset

def invalidUtf8Offset (text : Bytes) (offset : Nat) : ControlError :=
  let nearestFloor := (findLastBefore (isCharBoundary text) 0 offset).getD 0
  let nearestCeiling :=
    (findBetween (isCharBoundary text) (offset + 1) text.length).getD text.length
  { code := .invalidArgument
    message := "selection page offset is not a UTF-8 boundary"
    retryable := false
    field := some "offset"
    details :=
      [("received", offset), ("nearest_floor", nearestFloor), ("nearest_ceiling", nearestCeiling)] }

def uriWithRange (base : String) (offset length : Nat) : String :=
  let separator := if base.contains '?' then "&" else "?"
  s!"{base}{separator}offset={offset}&length={length}"

def pageSelectedRepresentation (selected : Bytes) (offset length : Nat) (selectionUri : String) :
    Option (Except ControlError SelectedPageWindow) :=
  if length = 0 || length > maxBodyPageLength then
    some (.error
      { code := .invalidArgument
        message := "selection page length is out of range"
        retryable := false
        field := some "length"
        details := [("minimum", 1), ("maximum", maxBodyPageLength), ("received", length)] })
  else if (fromUtf8 selected).isSome then
    some (.error (.internal "selected representation was not valid UTF-8"))
  else if offset > selected.length then
    some (.error
      { code := .invalidArgument
        message := "selection page offset exceeds the selected representation"
        retryable := false
        field := some "offset"
        details := [("maximum", selected.length), ("received", offset)] })
  else if !isCharBoundary selected offset then some (.error (invalidUtf8Offset selected offset))
  else
    let requestedEnd := min (satAdd offset length) selected.length
    let aligned := alignedEnd selected requestedEnd
    let stop :=
      if aligned = offset && aligned < selected.length then
        (findBetween (isCharBoundary selected) (offset + 1) selected.length).getD selected.length
      else aligned
    (slice? selected offset stop).map fun content =>
      let nextOffset := if stop < selected.length then some stop else none
      .ok
        { content
          requestedRange := { offset, length }
          actualRange := { offset, length := stop - offset }
          totalBytes := selected.length
          nextOffset
          nextUri := nextOffset.map fun next => uriWithRange selectionUri next length }

end Fluxcope.Control
