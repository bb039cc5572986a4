import Fluxcope.Control.BodyPages
import Fluxcope.Control.DecodedBodyCache
import Fluxcope.Control.WaitForCapture
/-!
# Reads of captured bodies

A read asks the event loop for the metadata of the body, plans with the cache,
waits for its turn, asks and plans again, and takes the body from the cache or
decodes a snapshot.  Reads run next to each other, and the captures change between
any two of their steps.
-/

namespace Fluxcope.Control

open Fluxcope.Library Fluxcope.Library.Utf8 Fluxcope.Capture

/-- `decode_content_bytes` with the default policy, when it is not cancelled. -/
abbrev ContentDecoder := CapturedBodyPreview → HeaderFields → Except ControlError DecodedBytes

/-! ## Requests to the event loop -/

structure CaptureBodyMetadataReply where
  scope : InstanceScope
  captureId : CaptureSequence
  captureRevision : Nat
  side : BodySide
  status : BodyStatus
  headers : HeaderFields
  retainedBytes : Nat

structure CaptureBodySnapshotReply extends CaptureBodyMetadataReply where
  preview : CapturedBodyPreview

def bodySnapshotParts (snapshot : CaptureSnapshot) : BodySide → BodySnapshot × HeaderFields
  | .request => (snapshot.requestBody, snapshot.request.headers)
  | .response => (snapshot.responseBody, (snapshot.response.map (·.headers)).getD [])

def notRetained (captureId : CaptureSequence) : ControlError :=
  { code := .captureNotFound
    message := "capture is not retained"
    retryable := false
    details := [("capture_id", captureId)] }

def revisionConflict (captureId : CaptureSequence) (expectedRevision currentRevision : Nat) :
    ControlError :=
  { code := .captureRevisionConflict
    message := "capture revision changed"
    retryable := false
    details := [("capture_id", captureId), ("expected_revision", expectedRevision),
      ("current_revision", currentRevision)] }

def retainedCapture (captures : CaptureSystem) (captureId : CaptureSequence) :
    Except ControlError CaptureRecord :=
  match captures.captureRecord captureId with
  | none => .error (notRetained captureId)
  | some record => .ok record

def metadataReply (scope : InstanceScope) (captureId : CaptureSequence) (side : BodySide)
    (record : CaptureRecord) : CaptureBodyMetadataReply :=
  let snapshot := record.snapshot .metadataOnly
  let (body, headers) := bodySnapshotParts snapshot side
  { scope, captureId, side, headers
    captureRevision := snapshot.revision
    status := body.status
    retainedBytes := body.status.retainedBytes }

def snapshotReply (scope : InstanceScope) (captureId : CaptureSequence) (side : BodySide)
    (record : CaptureRecord) : CaptureBodySnapshotReply :=
  let snapshot := record.snapshot .withBodyPreviews
  let (body, headers) := bodySnapshotParts snapshot side
  { scope, captureId, side, headers
    captureRevision := snapshot.revision
    status := body.status
    retainedBytes := body.status.retainedBytes
    preview := body.preview }

def validateCaptureRevision (captureId : CaptureSequence)
    (expectedRevision currentRevision : Nat) : Except ControlError Unit :=
  if expectedRevision ≠ currentRevision then
    .error (revisionConflict captureId expectedRevision currentRevision)
  else .ok ()

def validateBodyRevision (request : BodyContentRequest) (currentRevision : Nat) :
    Except ControlError Unit :=
  if currentRevision = request.captureRevision then .ok ()
  else .error (revisionConflict request.captureId request.captureRevision currentRevision)

def validateBodyMetadata (request : BodyContentRequest) (reply : CaptureBodyMetadataReply) :
    Except ControlError Unit :=
  if reply.captureId ≠ request.captureId || reply.side ≠ request.side then
    .error (.internal "runtime returned mismatched capture body metadata")
  else validateBodyRevision request reply.captureRevision

def validateBodySnapshot (request : BodyContentRequest) (reply : CaptureBodySnapshotReply) :
    Except ControlError Unit :=
  if reply.captureId ≠ request.captureId || reply.side ≠ request.side then
    .error (.internal "runtime returned mismatched capture body snapshot")
  else if reply.retainedBytes ≠ reply.preview.len then
    .error (.internal "runtime returned inconsistent capture body snapshot bytes")
  else validateBodyRevision request reply.captureRevision

/-- `metadata` and its validation; the record is not in the source. -/
def requestMetadata (scope : InstanceScope) (captures : CaptureSystem)
    (request : BodyContentRequest) :
    Except ControlError (CaptureBodyMetadataReply × CaptureRecord) := do
  let record ← retainedCapture captures request.captureId
  let reply := metadataReply scope request.captureId request.side record
  validateBodyMetadata request reply
  pure (reply, record)

/-- `snapshot` and its validation. -/
def requestSnapshot (scope : InstanceScope) (captures : CaptureSystem)
    (request : BodyContentRequest) :
    Except ControlError (CaptureBodySnapshotReply × CaptureRecord) := do
  let record ← retainedCapture captures request.captureId
  validateCaptureRevision request.captureId request.captureRevision record.revision
  let reply := snapshotReply scope request.captureId request.side record
  validateBodySnapshot request reply
  pure (reply, record)

/-! ## Admission -/

def shouldCacheDecodedBody (status : BodyStatus) : Bool := status.stream.isTerminal

structure BodyAdmissionPlan where
  key : BodyCacheKey
  chargeBytes : Nat
  cached : Option DecodedBytes

def BodyAdmissionPlan.requiresReadmission (plan current : BodyAdmissionPlan) : Bool :=
  plan.key ≠ current.key || plan.chargeBytes ≠ current.chargeBytes ||
    plan.cached.isSome ≠ current.cached.isSome

/-- The plan, and the cache after the lookup. -/
def admissionPlan (cache : DecodedBodyCache) (request : BodyContentRequest)
    (metadata : CaptureBodyMetadataReply) : BodyAdmissionPlan × DecodedBodyCache :=
  let key : BodyCacheKey :=
    { scope := metadata.scope
      captureId := request.captureId
      captureRevision := request.captureRevision
      side := request.side }
  let (cached, cache) :=
    if request.representation = .decoded && shouldCacheDecodedBody metadata.status then
      cache.getDecoded key
    else (none, cache)
  let chargeBytes := (cached.map (·.bytes.length)).getD metadata.retainedBytes
  ({ key, chargeBytes, cached }, cache)

/-! ## One read -/

/-- A decoded body with the metadata it is shown with. -/
structure ServedBody where
  decoded : DecodedBytes
  status : BodyStatus
  headers : HeaderFields

def ServedBody.page (served : ServedBody) (request : BodyContentRequest) :
    Option (Except ControlError BodyPage) :=
  pageDecodedBody served.decoded request served.status served.headers

/-- A read ends with a page of the body it serves; an inspection hands it to its work.
`observed` is not in the source: the record the metadata are from. -/
inductive BodyReadOutcome
  | failed (error : ControlError)
  | raw (page : Option (Except ControlError BodyPage))
  | served (fromCache : Bool) (served : ServedBody) (observed : CaptureRecord)

inductive BodyReadPhase
  | entering
  | planning (previous : Option BodyAdmissionPlan) (metadata : CaptureBodyMetadataReply)
      (observed : CaptureRecord)
  | queued (plan : BodyAdmissionPlan)
  | uncached (plan : BodyAdmissionPlan)
  | requesting (plan : BodyAdmissionPlan) (snapshotEpoch : Nat)
  | received (plan : BodyAdmissionPlan) (snapshotEpoch : Nat) (reply : CaptureBodySnapshotReply)
      (observed : CaptureRecord)
  | decoding (plan : BodyAdmissionPlan) (cacheEpoch : Option Nat)
      (reply : CaptureBodySnapshotReply) (observed : CaptureRecord)
  | inserting (plan : BodyAdmissionPlan) (cacheEpoch : Nat) (served : ServedBody)
      (observed : CaptureRecord)
  | done (outcome : BodyReadOutcome)

structure BodyRead where
  request : BodyContentRequest
  phase : BodyReadPhase := .entering

namespace BodyRead

def fail (read : BodyRead) (error : ControlError) : BodyRead :=
  { read with phase := .done (.failed error) }

/-- The metadata are asked for; `previous` is the plan they may change. -/
def askMetadata (read : BodyRead) (scope : InstanceScope) (captures : CaptureSystem)
    (previous : Option BodyAdmissionPlan) : BodyRead :=
  match requestMetadata scope captures read.request with
  | .error error => read.fail error
  | .ok (metadata, observed) => { read with phase := .planning previous metadata observed }

/-- With the first plan the read queues, and also when the plan has changed. -/
def planned (read : BodyRead) (previous : Option BodyAdmissionPlan) (plan : BodyAdmissionPlan)
    (metadata : CaptureBodyMetadataReply) (observed : CaptureRecord) : BodyRead :=
  if previous.all fun previous => previous.requiresReadmission plan then
    { read with phase := .queued plan }
  else
    match plan.cached with
    | some decoded =>
      { read with
        phase := .done (.served true
          { decoded, status := metadata.status, headers := metadata.headers } observed) }
    | none => { read with phase := .uncached plan }

def askSnapshot (read : BodyRead) (scope : InstanceScope) (captures : CaptureSystem)
    (plan : BodyAdmissionPlan) (snapshotEpoch : Nat) : BodyRead :=
  match requestSnapshot scope captures read.request with
  | .error error => read.fail error
  | .ok (reply, observed) => { read with phase := .received plan snapshotEpoch reply observed }

/-- The epoch is compared with the one before the snapshot; a raw body is paged at once. -/
def checkEpoch (read : BodyRead) (epoch : Nat) (plan : BodyAdmissionPlan) (snapshotEpoch : Nat)
    (reply : CaptureBodySnapshotReply) (observed : CaptureRecord) : BodyRead :=
  let cacheEpoch := if epoch = snapshotEpoch then some snapshotEpoch else none
  match read.request.representation with
  | .raw =>
    { read with
      phase := .done (.raw (pageRawBody reply.preview read.request reply.status reply.headers)) }
  | .decoded => { read with phase := .decoding plan cacheEpoch reply observed }

def decode (decoder : ContentDecoder) (read : BodyRead) (plan : BodyAdmissionPlan)
    (cacheEpoch : Option Nat) (reply : CaptureBodySnapshotReply) (observed : CaptureRecord) :
    BodyRead :=
  match decoder reply.preview reply.headers with
  | .error error => read.fail error
  | .ok decoded =>
    let served : ServedBody := { decoded, status := reply.status, headers := reply.headers }
    match shouldCacheDecodedBody reply.status, cacheEpoch with
    | true, some cacheEpoch =>
      { read with phase := .inserting plan cacheEpoch served observed }
    | _, _ => { read with phase := .done (.served false served observed) }

/-- One step of a read with the captures and the cache it finds. -/
def step (decoder : ContentDecoder) (scope : InstanceScope) (captures : CaptureSystem)
    (cache : DecodedBodyCache) (read : BodyRead) : Option (BodyRead × DecodedBodyCache) :=
  match read.phase with
  | .entering =>
    match read.request.validate with
    | .error error => some (read.fail error, cache)
    | .ok () => some (read.askMetadata scope captures none, cache)
  | .planning previous metadata observed =>
    let (plan, cache) := admissionPlan cache read.request metadata
    some (read.planned previous plan metadata observed, cache)
  | .queued plan => some (read.askMetadata scope captures (some plan), cache)
  | .uncached plan =>
    some ({ read with phase := .requesting plan captures.feed.epoch }, cache)
  | .requesting plan snapshotEpoch =>
    some (read.askSnapshot scope captures plan snapshotEpoch, cache)
  | .received plan snapshotEpoch reply observed =>
    some (read.checkEpoch captures.feed.epoch plan snapshotEpoch reply observed, cache)
  | .decoding plan cacheEpoch reply observed =>
    some (read.decode decoder plan cacheEpoch reply observed, cache)
  | .inserting plan cacheEpoch served observed =>
    -- `run_if_epoch`
    some ({ read with phase := .done (.served false served observed) },
      if captures.feed.epoch = cacheEpoch then cache.insertDecoded plan.key served.decoded
      else cache)
  | .done _ => none

end BodyRead

/-! ## The system -/

/-- `collected` holds the changes of the drain under way, and `drained` the finished drains
that the cache has not seen yet. -/
structure BodyReadSystem where
  captures : CaptureSystem
  cache : DecodedBodyCache
  changes : CaptureChangeSubscription
  collected : List CaptureChange := []
  drained : List (Except CaptureChangeError (List CaptureChange)) := []
  reads : List BodyRead := []

inductive BodyReadAction
  | capture (action : CaptureAction)
  | storeNext
  | start (request : BodyContentRequest)
  | read (index : Nat)
  | abandon (index : Nat) (error : ControlError)
  | receive
  | apply (index : Nat)

namespace BodyReadSystem

def new (policy : CapturePolicy) (retention : CaptureRetentionPolicy) : BodyReadSystem :=
  let captures := CaptureSystem.new policy retention
  { captures
    cache := .new maxTerminalDecodedCacheBytes
    changes := captures.feed.subscribe }

/-- One turn of the loop of `apply_pending_changes`. -/
def receive (s : BodyReadSystem) : BodyReadSystem :=
  match s.captures.feed.tryRead s.changes with
  | .ok (some change, changes) => { s with changes, collected := s.collected ++ [change] }
  | .ok (none, changes) =>
    { s with changes, collected := [], drained := s.drained ++ [.ok s.collected] }
  | .error error =>
    { s with
      changes := s.captures.feed.subscribe
      collected := []
      drained := s.drained ++ [.error error] }

def applyDrained (cache : DecodedBodyCache) :
    Except CaptureChangeError (List CaptureChange) → DecodedBodyCache
  | .error error => cache.applyFeedError error
  | .ok changes => if changes.isEmpty then cache else cache.applyChanges changes

/-- Admission, cancellation and deadlines can end a read at any time. -/
def step (decoder : ContentDecoder) (scope : InstanceScope) (s : BodyReadSystem) :
    BodyReadAction → Option BodyReadSystem
  | .capture action =>
    if CaptureSystem.isOrderly action then
      (s.captures.step action).map fun captures => { s with captures }
    else none
  | .storeNext => s.captures.storeNext.map fun captures => { s with captures }
  | .start request => some { s with reads := s.reads ++ [{ request }] }
  | .read index =>
    s.reads[index]?.bind fun read =>
      (read.step decoder scope s.captures s.cache).map fun (read, cache) =>
        { s with reads := s.reads.set index read, cache }
  | .abandon index error =>
    s.reads[index]?.bind fun read =>
      match read.phase with
      | .done _ => none
      | _ => some { s with reads := s.reads.set index (read.fail error) }
  | .receive => some s.receive
  | .apply index =>
    s.drained[index]?.map fun drained =>
      { s with
        cache := applyDrained s.cache drained
        drained := s.drained.eraseIdx index }

end BodyReadSystem

end Fluxcope.Control
