import Fluxcope.Control.Error
import Fluxcope.Capture.Record
import Mathlib.Data.List.Sort
/-!
# Rows and pages of a capture search

One page of a search: the captures at or before a cursor, newest first, until
the row limit or the byte budget of the page is reached.  The compiled query
and the length of a serialized row are parameters.
-/

namespace Fluxcope.Control

open Fluxcope.Library Fluxcope.Library.Utf8 Fluxcope.Capture

def captureSearchBatchSize : Nat := 32

def defaultCapturePageLimit : Nat := 20

def maxCapturePageLimit : Nat := 100

def captureSearchPageJsonBudget : Nat := 7 * 1024 * 1024

inductive MappingPath
  | unmapped
  | remoteOnly
  | localOnly
  | remoteThenLocal
  deriving DecidableEq, Repr

inductive CaptureLifecycle
  | live
  | complete
  | failed
  | cancelled
  deriving DecidableEq, Repr

/-- The cursor names the newest capture the next page may show. -/
structure CaptureSearchCursor where
  nextOlderSequence : CaptureSequence
  deriving DecidableEq, Repr

/-! ## Rows -/

structure CaptureBodyDescriptor where
  stream : BodyStreamState
  observedBytes : Nat
  retainedBytes : Nat
  truncated : Bool
  truncation : Option BodyPreviewLimit
  error : Option Bytes
  deriving DecidableEq, Repr

def CaptureBodyDescriptor.ofStatus (status : BodyStatus) : CaptureBodyDescriptor :=
  { stream := status.stream
    observedBytes := status.observedBytes
    retainedBytes := status.retainedBytes
    truncated := status.previewLimit.isSome
    truncation := status.previewLimit
    error := status.error }

/-- `started_at` stays an instant; its RFC 3339 text belongs to the serialization. -/
structure CaptureTimingDescriptor where
  startedAt : Nat
  timeToResponseMs : Option Nat
  totalDurationMs : Option Nat
  deriving DecidableEq, Repr

/-- Durations are counted in nanoseconds. -/
def millis (v : Option Nat) : Option Nat := v.map fun x => min (x / 1000000) wordMax

def CaptureTimingDescriptor.ofTiming (timing : CaptureTiming) : CaptureTimingDescriptor :=
  { startedAt := timing.startedAt
    timeToResponseMs := millis timing.timeToResponse
    totalDurationMs := millis timing.totalDuration }

def classifyMapping (s : CaptureSnapshot) : MappingPath :=
  match s.request.originalUri != s.request.effectiveUri, s.request.localPath.isSome with
  | false, false => .unmapped
  | true, false => .remoteOnly
  | false, true => .localOnly
  | true, true => .remoteThenLocal

def classifyLifecycle (s : CaptureSnapshot) : CaptureLifecycle :=
  let a := s.requestBody.status.stream
  let b := s.responseBody.status.stream
  if a = .failed ∨ b = .failed then .failed
  else if a = .cancelled ∨ b = .cancelled then .cancelled
  else if a = .complete ∧ b = .complete then .complete
  else .live

structure CompactCapture where
  captureSequence : CaptureSequence
  captureRevision : Nat
  method : Bytes
  originalUrl : Bytes
  effectiveUrl : Bytes
  mappingPath : MappingPath
  status : Option Nat
  lifecycle : CaptureLifecycle
  timing : CaptureTimingDescriptor
  requestBody : CaptureBodyDescriptor
  responseBody : CaptureBodyDescriptor
  metadataTruncation : MetadataTruncation
  deriving DecidableEq, Repr

def CompactCapture.fromSnapshot (s : CaptureSnapshot) : CompactCapture :=
  { captureSequence := s.sequence
    captureRevision := s.revision
    method := s.request.method
    originalUrl := s.request.originalUri
    effectiveUrl := s.request.effectiveUri
    mappingPath := classifyMapping s
    status := s.response.map (·.status)
    lifecycle := classifyLifecycle s
    timing := .ofTiming s.timing
    requestBody := .ofStatus s.requestBody.status
    responseBody := .ofStatus s.responseBody.status
    metadataTruncation := s.metadataTruncation }

/-! ## Pages -/

/-- The compiled query and the JSON length of a row. -/
structure CaptureSearch where
  isMatch : CaptureSnapshot → Bool
  serializedLen : CompactCapture → Nat

structure CaptureSearchPage where
  captures : List CompactCapture
  nextCursor : Option CaptureSearchCursor
  serializedBytes : Nat
  deriving DecidableEq, Repr

def resourceLimit (message : String) (maxBytes : Nat) : ControlError :=
  { code := .resourceLimit, message, retryable := false, details := [("max_bytes", maxBytes)] }

def rowTooLarge (maxSingleRowBytes : Nat) : ControlError :=
  resourceLimit "one capture search result exceeds the response byte budget" maxSingleRowBytes

def normalizeCapturePageLimit (limit : Option Nat) : Except ControlError Nat :=
  let n := limit.getD defaultCapturePageLimit
  if 1 ≤ n ∧ n ≤ maxCapturePageLimit then .ok n
  else .error (.invalidArgument
    s!"capture page limit must be between 1 and {maxCapturePageLimit}")

def cursorBefore (s : CaptureSequence) : Option CaptureSearchCursor :=
  match s with
  | 0 => none
  | older + 1 => some ⟨older⟩

/-- The variables of the loop of `match_capture_page_with_budget`. -/
structure PageState where
  captures : List CompactCapture := []
  serializedBytes : Nat := 0
  lastScanned : Option CaptureSequence := none
  older : Bool := false
  byteResumeCursor : Option CaptureSearchCursor := none

def pageLoop (search : CaptureSearch) (limit maxSingleRowBytes remainingPageBytes : Nat) :
    PageState → List CaptureSnapshot → Except ControlError PageState
  | state, [] => .ok state
  | state, snapshot :: ordered =>
    if state.captures.length = limit then .ok { state with older := true }
    else
      let state := { state with lastScanned := some snapshot.sequence }
      if search.isMatch snapshot then
        let compact := CompactCapture.fromSnapshot snapshot
        let rowBytes := search.serializedLen compact
        if rowBytes > maxSingleRowBytes then .error (rowTooLarge maxSingleRowBytes)
        else if satAdd state.serializedBytes rowBytes > remainingPageBytes then
          .ok { state with byteResumeCursor := some ⟨snapshot.sequence⟩ }
        else
          pageLoop search limit maxSingleRowBytes remainingPageBytes
            { state with
              serializedBytes := state.serializedBytes + rowBytes
              captures := state.captures ++ [compact] } ordered
      else pageLoop search limit maxSingleRowBytes remainingPageBytes state ordered

def PageState.nextCursor (state : PageState) (limit : Nat) : Option CaptureSearchCursor :=
  state.byteResumeCursor.or
    (if state.captures.length = limit ∧ state.older then state.lastScanned.bind cursorBefore
      else none)

def matchCapturePageWithBudget (search : CaptureSearch) (snapshots : List CaptureSnapshot)
    (cursor : Option CaptureSearchCursor) (limit maxSingleRowBytes remainingPageBytes : Nat) :
    Except ControlError CaptureSearchPage := do
  let limit ← normalizeCapturePageLimit (some limit)
  let ordered := (snapshots.filter fun snapshot =>
    match cursor with
    | none => true
    | some cursor => snapshot.sequence ≤ cursor.nextOlderSequence).insertionSort
      fun a b => b.sequence ≤ a.sequence
  let state ← pageLoop search limit maxSingleRowBytes remainingPageBytes {} ordered
  return {
    captures := state.captures
    nextCursor := state.nextCursor limit
    serializedBytes := state.serializedBytes }

end Fluxcope.Control

/-!
## The search loop and the walk along its cursors

`search_captures` asks the event loop for batches of at most 32 retained
captures and matches each batch until the page is full.  Every request sees the
store as it is then, so the loop takes one view of the store for each request.
-/

namespace Fluxcope.Control

open Fluxcope.Library Fluxcope.Capture

/-- The snapshots of the retained captures in the order of the `BTreeMap`. -/
structure CaptureView where
  captures : List CaptureSnapshot
  ascending : captures.Pairwise fun a b => a.sequence < b.sequence
  sequence_le : ∀ s ∈ captures, s.sequence ≤ wordMax

structure CaptureSearchBatch where
  snapshots : List CaptureSnapshot
  nextCursor : Option CaptureSearchCursor

namespace CaptureView

def nextAtOrBefore (view : CaptureView) (sequence : CaptureSequence) :
    Option CaptureSnapshot :=
  (view.captures.filter fun s => s.sequence ≤ sequence).getLast?

/-- The `while` of the batch request, with the number of rows it may still take. -/
def batchRows (view : CaptureView) : Nat → CaptureSequence → List CaptureSnapshot
  | 0, _ => []
  | rows + 1, cursor =>
    match view.nextAtOrBefore cursor with
    | none => []
    | some record =>
      record ::
        match record.sequence with
        | 0 => []
        | older + 1 => view.batchRows rows older

def getCaptureSearchBatch (view : CaptureView) (cursor : Option CaptureSearchCursor)
    (maxRows : Nat) : CaptureSearchBatch :=
  let maxRows := min maxRows captureSearchBatchSize
  let snapshots := view.batchRows maxRows
    ((cursor.map (·.nextOlderSequence)).getD wordMax)
  { snapshots
    nextCursor := snapshots.getLast?.bind fun snapshot =>
      (cursorBefore snapshot.sequence).bind fun cursor =>
        (view.nextAtOrBefore cursor.nextOlderSequence).map fun _ => cursor }

end CaptureView

/-! ## The loop of one page -/

/-- The rows and the next cursor that one call of `search_captures` returns. -/
structure SearchReply where
  captures : List CompactCapture
  nextCursor : Option CaptureSearchCursor
  deriving DecidableEq, Repr

/-- The variables of the loop of `search_captures`. -/
structure SearchState where
  captures : List CompactCapture := []
  serializedBytes : Nat := 0
  cursor : Option CaptureSearchCursor

/-- How one turn of the loop ends. -/
inductive SearchTurn
  | done (reply : SearchReply)
  | next (state : SearchState)

/-- One turn of the loop: a batch request and the page matched from the batch. -/
def searchTurn (search : CaptureSearch) (limit : Nat) (view : CaptureView)
    (state : SearchState) : Except ControlError SearchTurn :=
  let batch := view.getCaptureSearchBatch state.cursor captureSearchBatchSize
  if batch.snapshots.isEmpty then .ok (.done ⟨state.captures, none⟩)
  else
    match matchCapturePageWithBudget search batch.snapshots none
        (limit - state.captures.length) captureSearchPageJsonBudget
        (captureSearchPageJsonBudget - state.serializedBytes) with
    | .error error => .error error
    | .ok page =>
      let captures := state.captures ++ page.captures
      let serializedBytes := state.serializedBytes + page.serializedBytes
      if captures.length = limit then
        .ok (.done ⟨captures, page.nextCursor.or batch.nextCursor⟩)
      else if page.nextCursor.isSome then .ok (.done ⟨captures, page.nextCursor⟩)
      else
        match batch.nextCursor with
        | none => .ok (.done ⟨captures, none⟩)
        | some cursor => .ok (.next { captures, serializedBytes, cursor := some cursor })

/-- The reply comes with the views that no request has seen yet; there is none
if the views run out before the loop ends. -/
def searchLoop (search : CaptureSearch) (limit : Nat) :
    List CaptureView → SearchState →
      Option (Except ControlError SearchReply × List CaptureView)
  | views, state =>
    if state.serializedBytes = captureSearchPageJsonBudget then
      some (.ok ⟨state.captures, state.cursor⟩, views)
    else
      match views with
      | [] => none
      | view :: views =>
        match searchTurn search limit view state with
        | .error error => some (.error error, views)
        | .ok (.done reply) => some (.ok reply, views)
        | .ok (.next state) => searchLoop search limit views state

def searchCaptures (search : CaptureSearch) (cursor : Option CaptureSearchCursor)
    (limit : Option Nat) (views : List CaptureView) :
    Option (Except ControlError SearchReply × List CaptureView) :=
  match normalizeCapturePageLimit limit with
  | .error error => some (.error error, views)
  | .ok limit => searchLoop search limit views { cursor }

/-! ## The walk of a client -/

/-- The pages a client gets by following `next_cursor`, at most `fuel` of them,
and the error that ended the walk, if one did. -/
def walk (search : CaptureSearch) (limit : Option Nat) :
    Nat → Option CaptureSearchCursor → List CaptureView →
      Option (List SearchReply × Option ControlError)
  | 0, _, _ => none
  | fuel + 1, cursor, views =>
    match searchCaptures search cursor limit views with
    | none => none
    | some (.error error, _) => some ([], some error)
    | some (.ok page, views) =>
      match page.nextCursor with
      | none => some ([page], none)
      | some cursor =>
        (walk search limit fuel (some cursor) views).map fun (pages, error) =>
          (page :: pages, error)

end Fluxcope.Control
