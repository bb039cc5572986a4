import Fluxcope.Library.Machine
import Fluxcope.Library.Assoc
import Fluxcope.Settings.App
/-!
# The audit of an instance

Completed reads are counted per minute, client and operation; completed mutations are
kept one by one.  Only the last two windows of reads and the last minute of mutations
are retained.
-/

namespace Fluxcope.Control

open Fluxcope.Library Fluxcope.Settings

def auditWindowSeconds : Nat := 60
def maxReadAuditKeys : Nat := 256
def maxMutationAuditRecords : Nat := 512

/-! ## Calls -/

inductive ControlOperationKind
  | describeInstance
  | getStatus
  | setRecordingEnabled
  | searchCaptures
  | getCapture
  | waitForCapture
  | readCaptureBody
  | searchCaptureBody
  | extractCaptureBody
  | readSelectedBody
  | findJsonPointers
  | probeJsonPointerPattern
  | getMappingSettings
  | validateMappingSettings
  | explainMapping
  | previewMappingMutation
  | mutateMapping
  deriving DecidableEq, Repr

def ControlOperationKind.asStr : ControlOperationKind → Text
  | .describeInstance => "describe_instance".toList
  | .getStatus => "get_status".toList
  | .setRecordingEnabled => "set_recording_enabled".toList
  | .searchCaptures => "search_captures".toList
  | .getCapture => "get_capture".toList
  | .waitForCapture => "wait_for_capture".toList
  | .readCaptureBody => "read_capture_body".toList
  | .searchCaptureBody => "search_capture_body".toList
  | .extractCaptureBody => "extract_capture_body".toList
  | .readSelectedBody => "read_selected_body".toList
  | .findJsonPointers => "find_json_pointers".toList
  | .probeJsonPointerPattern => "probe_json_pointer_pattern".toList
  | .getMappingSettings => "get_mapping_settings".toList
  | .validateMappingSettings => "validate_mapping_settings".toList
  | .explainMapping => "explain_mapping".toList
  | .previewMappingMutation => "preview_mapping_mutation".toList
  | .mutateMapping => "mutate_mapping".toList

inductive MutationAuditOperationKind
  | setRecordingEnabled
  | createPreset
  | renamePreset
  | deletePreset
  | setActivePreset
  | setMappingGate
  | createMappingRule
  | updateMappingRule
  | deleteMappingRule
  | moveMappingRule
  | setMappingRuleEnabled
  deriving DecidableEq, Repr

structure DeclaredClient where
  name : Text
  version : Text
  deriving DecidableEq, Repr

structure BoundedAuditTarget where
  target : MappingObjectRef
  truncated : Bool
  deriving DecidableEq, Repr

structure ControlMutationAudit where
  operation : MutationAuditOperationKind
  priorSettingsRevision : Option Nat
  target : Option BoundedAuditTarget
  deriving DecidableEq, Repr

inductive ControlCallOutcome
  | success (settingsRevision : Option Nat) (affected : Option BoundedAuditTarget)
  | error (code : ControlErrorCode) (retryable : Bool)
  deriving DecidableEq, Repr

/-- Durations are in nanoseconds. -/
structure ControlCallAudit where
  client : DeclaredClient
  operation : ControlOperationKind
  mutation : Option ControlMutationAudit
  outcome : ControlCallOutcome
  duration : Nat
  responseBytes : Nat
  responseDeliveryFailed : Bool
  completedUnixSeconds : Nat
  deriving DecidableEq, Repr

/-! ## What is stored -/

structure ReadLatencyBuckets where
  under10Ms : Nat := 0
  under100Ms : Nat := 0
  under1Second : Nat := 0
  under10Seconds : Nat := 0
  atLeast10Seconds : Nat := 0
  deriving DecidableEq, Repr

def ReadLatencyBuckets.record (buckets : ReadLatencyBuckets) (duration : Nat) :
    ReadLatencyBuckets :=
  if duration < 10000000 then { buckets with under10Ms := satAdd buckets.under10Ms 1 }
  else if duration < 100000000 then { buckets with under100Ms := satAdd buckets.under100Ms 1 }
  else if duration < 1000000000 then { buckets with under1Second := satAdd buckets.under1Second 1 }
  else if duration < 10000000000 then
    { buckets with under10Seconds := satAdd buckets.under10Seconds 1 }
  else { buckets with atLeast10Seconds := satAdd buckets.atLeast10Seconds 1 }

/-- `StoredReadAuditBucket`, and `ReadAuditBucket` with the same fields. -/
structure ReadAuditBucket where
  windowStartedUnixSeconds : Nat
  proxyEndpoint : Text
  runId : Text
  clientName : Text
  clientVersion : Text
  operation : Option ControlOperationKind
  overflow : Bool
  calls : Nat := 0
  failures : Nat := 0
  cancellations : Nat := 0
  bytesReturned : Nat := 0
  latency : ReadLatencyBuckets := {}
  deriving DecidableEq, Repr

structure MutationAuditRecord where
  completedUnixSeconds : Nat
  proxyEndpoint : Text
  runId : Text
  configMode : Option Text
  persistence : Option Text
  clientName : Text
  clientVersion : Text
  operation : MutationAuditOperationKind
  target : Option MappingObjectRef
  targetTruncated : Bool
  success : Bool
  priorSettingsRevision : Option Nat
  resultingSettingsRevision : Option Nat
  resultCode : Option ControlErrorCode
  retryable : Bool
  durationMicros : Nat
  deriving DecidableEq, Repr

structure InstanceAuditSnapshot where
  reads : List ReadAuditBucket
  mutations : List MutationAuditRecord
  responseDeliveryFailures : Nat
  deriving DecidableEq, Repr

structure ReadKey where
  window : Nat
  clientName : Text
  clientVersion : Text
  operation : ControlOperationKind
  deriving DecidableEq, Repr

structure KnownInstance where
  endpoint : Text
  runId : Text
  configMode : Option Text
  persistence : Option Text
  deriving DecidableEq, Repr

/-- The maps are lists of pairs; the order of their entries has no meaning. -/
structure AuditState where
  reads : List (ReadKey × ReadAuditBucket) := []
  overflow : List (Nat × ReadAuditBucket) := []
  minimumWindow : Option Nat := none
  mutations : List MutationAuditRecord := []
  responseDeliveryFailures : Nat := 0
  known : KnownInstance
  deriving DecidableEq, Repr

/-! ## Windows -/

def windowStart (unixSeconds : Nat) : Nat := unixSeconds / auditWindowSeconds * auditWindowSeconds

def minimumWindow (unixSeconds : Nat) : Nat := windowStart unixSeconds - auditWindowSeconds

def pruneReadWindows (state : AuditState) (minimumWindow : Nat) : AuditState :=
  if state.minimumWindow = some minimumWindow then state
  else
    { state with
      reads := state.reads.filter fun entry => entry.1.window ≥ minimumWindow
      overflow := state.overflow.filter fun entry => entry.1 ≥ minimumWindow
      minimumWindow := some minimumWindow }

def pruneMutationHistory (state : AuditState) (minimumUnixSeconds : Nat) : AuditState :=
  { state with
    mutations := state.mutations.filter fun record =>
      record.completedUnixSeconds ≥ minimumUnixSeconds }

/-! ## Reads -/

def newReadBucket (known : KnownInstance) (call : ControlCallAudit) (window : Nat)
    (overflow : Bool) : ReadAuditBucket :=
  { windowStartedUnixSeconds := window
    proxyEndpoint := known.endpoint
    runId := known.runId
    clientName := if overflow then "__overflow__".toList else call.client.name
    clientVersion := if overflow then [] else call.client.version
    operation := if overflow then none else some call.operation
    overflow }

def updateReadBucket (bucket : ReadAuditBucket) (call : ControlCallAudit) : ReadAuditBucket :=
  { bucket with
    calls := satAdd bucket.calls 1
    bytesReturned := satAdd bucket.bytesReturned (min call.responseBytes wordMax)
    failures :=
      match call.outcome with
      | .error _ _ => satAdd bucket.failures 1
      | .success _ _ => bucket.failures
    cancellations :=
      match call.outcome with
      | .error .cancelled _ => satAdd bucket.cancellations 1
      | _ => bucket.cancellations
    latency := bucket.latency.record call.duration }

def readKey (call : ControlCallAudit) : ReadKey :=
  { window := windowStart call.completedUnixSeconds
    clientName := call.client.name
    clientVersion := call.client.version
    operation := call.operation }

def recordRead (state : AuditState) (call : ControlCallAudit) : AuditState :=
  let window := windowStart call.completedUnixSeconds
  let key := readKey call
  match state.reads.lookup key with
  | some _ =>
    { state with
      reads := Assoc.modify state.reads key fun bucket => updateReadBucket bucket call }
  | none =>
    if state.reads.length < maxReadAuditKeys then
      let bucket := updateReadBucket (newReadBucket state.known call window false) call
      { state with reads := (key, bucket) :: state.reads }
    else
      match state.overflow.lookup window with
      | some _ =>
        { state with
          overflow := Assoc.modify state.overflow window fun bucket =>
            updateReadBucket bucket call }
      | none =>
        let bucket := updateReadBucket (newReadBucket state.known call window true) call
        { state with overflow := (window, bucket) :: state.overflow }

/-! ## Mutations -/

def mutationRecord (known : KnownInstance) (call : ControlCallAudit)
    (mutation : ControlMutationAudit) : MutationAuditRecord :=
  let affected :=
    match call.outcome with
    | .success _ affected => affected
    | .error _ _ => none
  let target := affected.or mutation.target
  { completedUnixSeconds := call.completedUnixSeconds
    proxyEndpoint := known.endpoint
    runId := known.runId
    configMode := known.configMode
    persistence := known.persistence
    clientName := call.client.name
    clientVersion := call.client.version
    operation := mutation.operation
    priorSettingsRevision := mutation.priorSettingsRevision
    resultingSettingsRevision :=
      match call.outcome with
      | .success settingsRevision _ => settingsRevision
      | .error _ _ => none
    target := target.map BoundedAuditTarget.target
    targetTruncated := (target.map BoundedAuditTarget.truncated).getD false
    resultCode :=
      match call.outcome with
      | .success _ _ => none
      | .error code _ => some code
    success :=
      match call.outcome with
      | .success _ _ => true
      | .error _ _ => false
    retryable :=
      match call.outcome with
      | .success _ _ => false
      | .error _ retryable => retryable
    durationMicros := min (call.duration / 1000) wordMax }

def recordMutation (state : AuditState) (call : ControlCallAudit)
    (mutation : ControlMutationAudit) : AuditState :=
  let record := mutationRecord state.known call mutation
  { state with
    mutations :=
      (if state.mutations.length = maxMutationAuditRecords then state.mutations.tail
        else state.mutations) ++ [record] }

/-! ## The audit -/

namespace InstanceAudit

def configModeString : ConfigMode → Text
  | .defaultOwned => "default_owned".toList
  | .readOnlyFile => "read_only_file".toList
  | .temporary => "temporary".toList

def persistenceString : PersistenceMode → Text
  | .persistent => "persistent".toList
  | .ephemeral => "ephemeral".toList

def new (endpoint runId : Text) (configMode : ConfigMode) (persistence : PersistenceMode) :
    AuditState :=
  { known :=
      { endpoint
        runId
        configMode := some (configModeString configMode)
        persistence := some (persistenceString persistence) } }

def record (state : AuditState) (call : ControlCallAudit) : AuditState :=
  let state :=
    if call.responseDeliveryFailed then
      { state with responseDeliveryFailures := satAdd state.responseDeliveryFailures 1 }
    else state
  let state := pruneReadWindows state (minimumWindow call.completedUnixSeconds)
  match call.mutation with
  | some mutation =>
    recordMutation
      (pruneMutationHistory state (call.completedUnixSeconds - auditWindowSeconds)) call mutation
  | none => recordRead state call

def operationName (operation : Option ControlOperationKind) : Text :=
  match operation with
  | some operation => operation.asStr
  | none => []

/-- The order of the buckets in a snapshot. -/
def bucketLe (left right : ReadAuditBucket) : Bool :=
  ((compare left.windowStartedUnixSeconds right.windowStartedUnixSeconds).then
    ((compare left.clientName right.clientName).then
      (compare (operationName left.operation) (operationName right.operation)))).isLE

/-- The state left behind, and the snapshot. -/
def snapshot (state : AuditState) (nowUnixSeconds : Nat) : AuditState × InstanceAuditSnapshot :=
  let state := pruneReadWindows state (minimumWindow nowUnixSeconds)
  let state := pruneMutationHistory state (nowUnixSeconds - auditWindowSeconds)
  (state,
    { reads :=
        (state.reads.map Prod.snd ++ state.overflow.map Prod.snd).mergeSort bucketLe
      mutations := state.mutations
      responseDeliveryFailures := state.responseDeliveryFailures })

end InstanceAudit

end Fluxcope.Control
