import Fluxcope.Capture.Body
import Fluxcope.Capture.Change
import Fluxcope.Capture.Metadata
/-!
# Capture records

A record is the visible state of one exchange.  Its operations also touch the
lease of the record, the shared budget and the change feed; a `RecordScope`
holds the four together.  Instants and dates are natural numbers.
-/

namespace Fluxcope.Capture

open Fluxcope.Library Fluxcope.Library.Utf8

/-- `CaptureRecord` with the `RecordState` behind its lock. -/
structure CaptureRecord where
  sequence : CaptureSequence
  request : RequestMetadata
  startedAt : Nat
  startedMono : Nat
  response : Option ResponseMetadata
  responseStarted : Bool
  responseAt : Option Nat
  requestTerminalAt : Option Nat
  responseTerminalAt : Option Nat
  requestBody : BodyCapture
  responseBody : BodyCapture
  metadataTruncation : MetadataTruncation
  captureDisabled : Bool
  feedBound : Bool
  revision : Nat
  retainedBytes : Nat
  deriving DecidableEq, Repr

structure CaptureTiming where
  startedAt : Nat
  timeToResponse : Option Nat
  totalDuration : Option Nat
  deriving DecidableEq, Repr

inductive CaptureSnapshotMode
  | metadataOnly
  | withBodyPreviews
  deriving DecidableEq, Repr

structure BodySnapshot where
  status : BodyStatus
  preview : CapturedBodyPreview
  deriving DecidableEq, Repr

structure CaptureSnapshot where
  sequence : CaptureSequence
  revision : Nat
  request : RequestMetadata
  response : Option ResponseMetadata
  requestBody : BodySnapshot
  responseBody : BodySnapshot
  metadataTruncation : MetadataTruncation
  timing : CaptureTiming
  deriving DecidableEq, Repr

structure AppendResult where
  changed : Bool := false
  perBodyLimited : Bool := false
  memoryLimited : Bool := false
  deriving DecidableEq, Repr

inductive BodyTerminal
  | complete
  | failed (error : Bytes)
  | cancelled
  deriving DecidableEq, Repr

namespace CaptureRecord

def new (sequence : CaptureSequence) (request : RequestMetadata)
    (metadataTruncation : MetadataTruncation) (retainedBytes startedAt startedMono : Nat) :
    CaptureRecord :=
  { sequence, request, startedAt, startedMono, metadataTruncation, retainedBytes
    response := none
    responseStarted := false
    responseAt := none
    requestTerminalAt := none
    responseTerminalAt := none
    requestBody := {}
    responseBody := {}
    captureDisabled := false
    feedBound := false
    revision := 0 }

def body (record : CaptureRecord) : BodySide → BodyCapture
  | .request => record.requestBody
  | .response => record.responseBody

def terminalAt (record : CaptureRecord) : BodySide → Option Nat
  | .request => record.requestTerminalAt
  | .response => record.responseTerminalAt

def setBody (record : CaptureRecord) (side : BodySide) (body : BodyCapture) :
    CaptureRecord :=
  { record with
    requestBody := match side with | .request => body | .response => record.requestBody
    responseBody := match side with | .request => record.responseBody | .response => body }

def setTerminalAt (record : CaptureRecord) (side : BodySide) (instant : Nat) :
    CaptureRecord :=
  { record with
    requestTerminalAt :=
      match side with | .request => some instant | .response => record.requestTerminalAt
    responseTerminalAt :=
      match side with | .request => record.responseTerminalAt | .response => some instant }

/-- The fields a response head sets. -/
def respond (record : CaptureRecord) (response : Option ResponseMetadata)
    (responseHeadersTruncated : Bool) (instant : Nat) : CaptureRecord :=
  { record with
    responseStarted := true
    responseAt := some instant
    response
    metadataTruncation :=
      { record.metadataTruncation with
        responseHeaders :=
          record.metadataTruncation.responseHeaders || responseHeadersTruncated }
    responseBody :=
      { record.responseBody with
        status := { record.responseBody.status with stream := .streaming } } }

def snapshotBody (body : BodyCapture) : CaptureSnapshotMode → BodySnapshot
  | .metadataOnly => { status := body.status, preview := .empty }
  | .withBodyPreviews => { status := body.status, preview := body.preview }

def timing (record : CaptureRecord) : CaptureTiming :=
  { startedAt := record.startedAt
    timeToResponse := record.responseAt.map (· - record.startedMono)
    totalDuration :=
      match record.requestTerminalAt, record.responseTerminalAt with
      | some request, some response => some (max request response - record.startedMono)
      | _, _ => none }

def snapshot (record : CaptureRecord) (mode : CaptureSnapshotMode) : CaptureSnapshot :=
  { sequence := record.sequence
    revision := record.revision
    request := record.request
    response := record.response
    requestBody := snapshotBody record.requestBody mode
    responseBody := snapshotBody record.responseBody mode
    metadataTruncation := record.metadataTruncation
    timing := record.timing }

def bodyPreview (record : CaptureRecord) (side : BodySide) : CapturedBodyPreview :=
  (record.body side).preview

end CaptureRecord

/-- A record with everything its operations read and write. -/
structure RecordScope where
  record : CaptureRecord
  lease : CaptureBudgetLease
  budget : CaptureMemoryBudget
  feed : CaptureChangeFeed

namespace RecordScope

def reserveMetadata (scope : RecordScope) (requested : Nat) : Nat × RecordScope :=
  let (reserved, lease, budget) := scope.lease.reserveUpTo scope.budget requested
  (reserved, { scope with lease, budget })

def releaseMetadata (scope : RecordScope) (released : Nat) : RecordScope :=
  let (lease, budget) := scope.lease.release scope.budget released
  { scope with lease, budget }

/-- The change of `kind` that a record publishes about itself. -/
def publish (scope : RecordScope) (kind : CaptureChangeKind) : CaptureChangeFeed :=
  scope.feed.publish scope.record.sequence scope.record.revision kind

def bindChangeFeed (scope : RecordScope) : RecordScope :=
  if scope.record.feedBound then scope
  else
    { scope with
      feed := scope.publish .admitted
      record := { scope.record with feedBound := true } }

def removeFromStore (scope : RecordScope) (kind : CaptureChangeKind) : RecordScope :=
  let record := { scope.record with captureDisabled := true }
  if record.feedBound then
    { scope with feed := scope.publish kind, record := { record with feedBound := false } }
  else { scope with record }

/-- How every mutator ends: the next revision, told to the feed if it is bound. -/
def bumpRevision (scope : RecordScope) : RecordScope :=
  let scope := { scope with record := { scope.record with revision := scope.record.revision + 1 } }
  if scope.record.feedBound then { scope with feed := scope.publish .recordUpdated } else scope

def setResponseAt (scope : RecordScope) (response : Option ResponseMetadata)
    (responseHeadersTruncated : Bool) (reservedBytes instant : Nat) : Bool × RecordScope :=
  let record := scope.record
  if record.captureDisabled || record.responseStarted then (false, scope)
  else
    let record :=
      { record.respond response responseHeadersTruncated instant with
        retainedBytes := record.retainedBytes + reservedBytes }
    (true, { scope with record }.bumpRevision)

/-- The reserved prefix of `append_body` is stored and counted. -/
def retainPrefix (body : BodyCapture) (bytes : Bytes) (retained : Nat) : BodyCapture :=
  if retained > 0 then
    let appended := body.append (bytes.take retained)
    { appended with
      status :=
        { appended.status with
          retainedBytes := satAdd appended.status.retainedBytes retained } }
  else body

/-- The limit that cut the bytes short is noted; the second result is the limit
if it is hit for the first time. -/
def noteLimit (body : BodyCapture) (length requested retained : Nat) :
    BodyCapture × Option BodyPreviewLimit :=
  let existingLimit := body.status.previewLimit
  let limit := existingLimit.or
    (if retained < requested then some .totalMemoryLimit
    else if requested < length then some .perBodyLimit
    else none)
  let newlyLimited := if existingLimit.isNone then limit else none
  match limit with
  | some limit =>
    ({ body with status := { body.status with previewLimit := some limit } }, newlyLimited)
  | none => (body, newlyLimited)

def appendBody (scope : RecordScope) (side : BodySide) (bytes : Bytes) (perBodyLimit : Nat) :
    AppendResult × RecordScope :=
  let body := scope.record.body side
  if body.status.stream.isTerminal || bytes.isEmpty then ({}, scope)
  else
    let body :=
      { body with
        status :=
          { body.status with
            stream := .streaming
            observedBytes := satAdd body.status.observedBytes bytes.length } }
    if scope.record.captureDisabled then
      ({}, { scope with record := scope.record.setBody side body })
    else
      let perBodyRemaining := perBodyLimit - body.status.retainedBytes
      let requested :=
        if body.status.previewLimit.isSome then 0 else min bytes.length perBodyRemaining
      let ((retained, charged), lease, budget) :=
        scope.lease.reserveBodyPrefix scope.budget requested body.trailing.length
      let (body, newlyLimited) :=
        noteLimit (retainPrefix body bytes retained) bytes.length requested retained
      let record :=
        { scope.record.setBody side body with
          retainedBytes := scope.record.retainedBytes + if retained > 0 then charged else 0 }
      ({ changed := true
         perBodyLimited := newlyLimited == some .perBodyLimit
         memoryLimited := newlyLimited == some .totalMemoryLimit },
        { scope with record, lease, budget }.bumpRevision)

/-- The `match` on the terminal event, on the status of the side. -/
def terminate (status : BodyStatus) : BodyTerminal → BodyStatus
  | .complete => { status with stream := .complete }
  | .failed error => { status with stream := .failed, error := some error }
  | .cancelled => { status with stream := .cancelled }

def finishBodyAt (scope : RecordScope) (side : BodySide) (terminal : BodyTerminal)
    (instant : Nat) : Bool × RecordScope :=
  let body := scope.record.body side
  if body.status.stream.isTerminal then (false, scope)
  else
    let body := { body with status := terminate body.status terminal }.seal
    let record := (scope.record.setBody side body).setTerminalAt side instant
    (true, { scope with record }.bumpRevision)

end RecordScope

/-! ## The operations of a handle whose record is alive -/

/-- The limit of a side. -/
def CapturePolicy.previewBytes (policy : CapturePolicy) : BodySide → Nat
  | .request => policy.requestPreviewBytes
  | .response => policy.responsePreviewBytes

namespace CaptureHandle

def setResponseAt (scope : RecordScope) (policy : CapturePolicy)
    (input : ResponseCaptureInput) (instant : Nat) : RecordScope :=
  let measured := measureHeaders input.headers policy.headerBytesPerSide
  let requested := satAdd 64 measured.retainedBytes
  let (reserved, scope) := scope.reserveMetadata requested
  let budgetTruncated := decide (reserved < requested)
  let (response, responseTruncated, reserved, scope) :=
    if reserved < 64 then (none, true, 0, scope.releaseMetadata reserved)
    else
      let headerLimit := min (reserved - 64) policy.headerBytesPerSide
      let (response, truncated) := responseMetadata input headerLimit
      let actual := responseMetadataBytes response
      if actual < reserved then
        (some response, truncated, actual, scope.releaseMetadata (reserved - actual))
      else (some response, truncated, reserved, scope)
  let (accepted, scope) := scope.setResponseAt response
    (measured.truncated || budgetTruncated || responseTruncated) reserved instant
  if accepted then scope else scope.releaseMetadata reserved

def append (scope : RecordScope) (policy : CapturePolicy) (side : BodySide) (bytes : Bytes) :
    RecordScope :=
  (scope.appendBody side bytes (policy.previewBytes side)).2

/-- `complete_at`, `fail_at` and `cancel_at` differ in the terminal event only. -/
def finish (scope : RecordScope) (side : BodySide) (terminal : BodyTerminal)
    (instant : Nat) : RecordScope :=
  (scope.finishBodyAt side terminal instant).2

end CaptureHandle

end Fluxcope.Capture
