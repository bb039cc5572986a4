import Fluxcope.Library.Assoc
import Fluxcope.Library.Utf8Text
import Fluxcope.Capture.System
/-!
# The decode service

The display asks for the text of a body; the service hands the requests to workers, and
passes on the result of the one that is still desired.  A step is one critical section of
a caller or of the service.  There is always a client that may ask: the end of the loop after
the last one is dropped is not part of the model.
-/

namespace Fluxcope.Capture

open Fluxcope.Library Fluxcope.Library.Utf8

structure DecodePolicy where
  queueCapacity : Nat := 8
  maxActive : Nat := 2
  maxQueuedInputBytes : Nat := 32 * 1024 * 1024

inductive DecodeDisplayMode
  | request
  | response
  | mapLocal
  deriving DecidableEq, Repr

structure DecodeKey where
  sequence : CaptureSequence
  side : BodySide
  revision : Nat
  mode : DecodeDisplayMode
  deriving DecidableEq, Repr

/-- `cancellation` names the flag that the job shares with the active cancellations. -/
structure DecodeJob where
  key : DecodeKey
  input : List Bytes
  headers : HeaderFields
  cancellation : Nat

def DecodeJob.inputBytes (job : DecodeJob) : Nat := job.input.flatten.length

structure DecodeResult where
  key : DecodeKey
  text : Bytes
  limited : Bool
  error : Option Bytes
  deriving DecidableEq, Repr

structure DecodeMetrics where
  rejected : Nat := 0
  superseded : Nat := 0
  outputLimited : Nat := 0
  failed : Nat := 0

/-- The result is counted before it is sent. -/
def DecodeMetrics.count (metrics : DecodeMetrics) (result : DecodeResult) : DecodeMetrics :=
  { metrics with
    outputLimited := metrics.outputLimited + if result.limited then 1 else 0
    failed := metrics.failed + if result.error.isSome then 1 else 0 }

/-! ## Workers -/

/-- How a worker ends: it decodes the input, it sees its flag, it is not admitted, or it
panics. -/
inductive WorkerEnd
  | decoded
  | cancelled (text : Bytes) (limited : Bool) (error : Bytes)
  | notAdmitted (error : Bytes)
  | panicked (error : Bytes)

/-- The text of a body that is decoded undisturbed, whether it is limited, and its error. -/
abbrev Decoder := DecodeKey → List Bytes → HeaderFields → Bytes × Bool × Option Bytes

def WorkerEnd.result (decode : Decoder) (job : DecodeJob) : WorkerEnd → DecodeResult
  | .decoded =>
    let (text, limited, error) := decode job.key job.input job.headers
    { key := job.key, text, limited, error }
  | .cancelled text limited error => { key := job.key, text, limited, error := some error }
  | .notAdmitted error =>
    { key := job.key, text := ofAscii "(Body decode was not admitted)", limited := false
      error := some error }
  | .panicked error =>
    { key := job.key, text := ofAscii "(Body decode worker failed)", limited := false
      error := some error }

/-! ## Callers -/

/-- Where a call of `request` stands.  In `joining` and `joined` it has found its key
pending and holds the lock of the pending keys. -/
inductive CallPhase
  | checking
  | joining
  | joined
  | wanting
  | superseding
  | reserving
  | admitting
  | sending
  | returning
  | rejecting
  | forgetting
  | answered (accepted : Bool)
  deriving DecidableEq, Repr

structure DecodeCall where
  key : DecodeKey
  input : List Bytes
  headers : HeaderFields
  phase : CallPhase := .checking

def DecodeCall.inputBytes (call : DecodeCall) : Nat := call.input.flatten.length

def CallPhase.locks : CallPhase → Bool
  | .joining | .joined => true
  | _ => false

/-! ## The service -/

/-- Where the loop of the service stands. -/
inductive ServicePhase
  | waiting
  | received (job : DecodeJob)
  | checking (job : DecodeJob)
  | dropping (job : DecodeJob)
  | registering (job : DecodeJob)
  | starting (job : DecodeJob)
  | completed (job : DecodeJob) (result : DecodeResult)
  | unregistering (job : DecodeJob) (result : DecodeResult)
  | judging (job : DecodeJob) (result : DecodeResult)
  | delivering (job : DecodeJob) (result : DecodeResult)
  | cancelling
  | draining
  | stopped

/-- `cancellations` are the flags.  The last four are the history: the jobs whose
result was sent, those that were not desired any more, those whose result was not sent
because the service ended, and those that were not even looked at. -/
structure DecodeSystem where
  policy : DecodePolicy
  pending : List DecodeKey
  desired : Option DecodeKey
  activeCancellations : List (DecodeKey × Nat)
  cancellations : List Bool
  queuedInputBytes : Nat
  calls : List DecodeCall
  jobs : List DecodeJob
  active : List (DecodeJob × Option DecodeResult)
  service : ServicePhase
  results : List DecodeResult
  resultsOpen : Bool
  shutdown : Bool
  metrics : DecodeMetrics
  delivered : List (DecodeJob × DecodeResult)
  superseded : List DecodeJob
  unsent : List DecodeJob
  discarded : List DecodeJob

/-- `advance` is the next step of a call, `admits` the answer of the body work;
`proceed` is the next step of the service where it has no choice. -/
inductive DecodeEvent
  | request (key : DecodeKey) (input : List Bytes) (headers : HeaderFields)
  | advance (call : Nat) (admits : Bool)
  | receive
  | join (worker : Nat)
  | proceed
  | leave
  | finish (worker : Nat) (outcome : WorkerEnd)
  | takeResult
  | closeResults
  | cancel

namespace DecodeSystem

def new (policy : DecodePolicy) : DecodeSystem where
  policy :=
    { policy with
      queueCapacity := max policy.queueCapacity 1
      maxActive := max policy.maxActive 1 }
  pending := []
  desired := none
  activeCancellations := []
  cancellations := []
  queuedInputBytes := 0
  calls := []
  jobs := []
  active := []
  service := .waiting
  results := []
  resultsOpen := true
  shutdown := false
  metrics := {}
  delivered := []
  superseded := []
  unsent := []
  discarded := []

/-- A call holds the lock of the pending keys. -/
def locked (s : DecodeSystem) : Bool := s.calls.any fun call => call.phase.locks

def isCancelled (s : DecodeSystem) (job : DecodeJob) : Bool :=
  s.cancellations[job.cancellation]?.getD false

/-- The flags when those of the active jobs with such keys are set. -/
def cancelActive (s : DecodeSystem) (which : DecodeKey → Bool) : List Bool :=
  (s.activeCancellations.filter fun entry => which entry.1).foldl
    (fun flags entry => flags.set entry.2 true) s.cancellations

/-- The flags when a call sets those of the jobs with other keys. -/
def cancelOthers (s : DecodeSystem) (key : DecodeKey) : List Bool :=
  s.cancelActive fun active => active ≠ key

def setCall (s : DecodeSystem) (i : Nat) (call : DecodeCall) (phase : CallPhase) :
    Option DecodeSystem :=
  some { s with calls := s.calls.set i { call with phase } }

/-- The next step of a call. -/
def advance (s : DecodeSystem) (i : Nat) (call : DecodeCall) (admits : Bool) :
    Option DecodeSystem :=
  match call.phase with
  | .checking =>
    if s.locked then none
    else if call.key ∈ s.pending then s.setCall i call .joining
    else { s with pending := call.key :: s.pending }.setCall i call .wanting
  | .joining => { s with desired := some call.key }.setCall i call .joined
  | .joined => { s with cancellations := s.cancelOthers call.key }.setCall i call (.answered true)
  | .wanting => { s with desired := some call.key }.setCall i call .superseding
  | .superseding => { s with cancellations := s.cancelOthers call.key }.setCall i call .reserving
  | .reserving =>
    if s.queuedInputBytes + call.inputBytes ≤ s.policy.maxQueuedInputBytes then
      { s with queuedInputBytes := s.queuedInputBytes + call.inputBytes }.setCall i call .admitting
    else s.setCall i call .rejecting
  | .admitting => s.setCall i call (if admits then .sending else .returning)
  | .sending =>
    match s.service with
    | .stopped => s.setCall i call .returning
    | _ =>
      if s.jobs.length < s.policy.queueCapacity then
        let job : DecodeJob :=
          { key := call.key
            input := call.input
            headers := call.headers
            cancellation := s.cancellations.length }
        { s with
          jobs := s.jobs ++ [job]
          cancellations := s.cancellations ++ [false] }.setCall i call (.answered true)
      else s.setCall i call .returning
  | .returning =>
    { s with queuedInputBytes := s.queuedInputBytes - call.inputBytes }.setCall i call .rejecting
  | .rejecting =>
    if s.locked then none
    else { s with pending := s.pending.erase call.key }.setCall i call .forgetting
  | .forgetting =>
    { s with
      activeCancellations := Assoc.erase s.activeCancellations call.key
      metrics := { s.metrics with
        rejected := s.metrics.rejected + 1 } }.setCall i call (.answered false)
  | .answered _ => none

/-- The next step of the service. -/
def proceed (s : DecodeSystem) : Option DecodeSystem :=
  match s.service with
  | .waiting | .stopped => none
  | .received job =>
    some { s with
      queuedInputBytes := s.queuedInputBytes - job.inputBytes
      service := .checking job }
  | .checking job =>
    if s.desired = some job.key then some { s with service := .registering job }
    else some { s with service := .dropping job }
  | .dropping job =>
    if s.locked then none
    else
      some { s with
        pending := s.pending.erase job.key
        metrics := { s.metrics with superseded := s.metrics.superseded + 1 }
        superseded := s.superseded ++ [job]
        service := .waiting }
  | .registering job =>
    some { s with
      activeCancellations := Assoc.insert s.activeCancellations job.key job.cancellation
      service := .starting job }
  | .starting job =>
    let s :=
      if s.desired = some job.key then s
      else { s with cancellations := s.cancellations.set job.cancellation true }
    some { s with active := s.active ++ [(job, none)], service := .waiting }
  | .completed job result =>
    if s.locked then none
    else
      some { s with
        pending := s.pending.erase result.key
        service := .unregistering job result }
  | .unregistering job result =>
    some { s with
      activeCancellations := Assoc.erase s.activeCancellations result.key
      service := .judging job result }
  | .judging job result =>
    if s.desired = some result.key then
      some { s with
        metrics := s.metrics.count result
        service := .delivering job result }
    else
      some { s with
        metrics := { s.metrics with superseded := s.metrics.superseded + 1 }
        superseded := s.superseded ++ [job]
        service := .waiting }
  | .delivering job result =>
    if !s.resultsOpen then
      some { s with unsent := s.unsent ++ [job], service := .cancelling }
    else if s.results.length < s.policy.queueCapacity then
      some { s with
        results := s.results ++ [result]
        delivered := s.delivered ++ [(job, result)]
        service := .waiting }
    else none
  | .cancelling =>
    some { s with cancellations := s.cancelActive fun _ => true, service := .draining }
  | .draining => if s.active.isEmpty then some { s with service := .stopped } else none

/-- The shutdown ends the loop where it waits. -/
def leave (s : DecodeSystem) : Option DecodeSystem :=
  if s.shutdown then
    match s.service with
    | .waiting => some { s with service := .cancelling }
    | .delivering job _ =>
      some { s with unsent := s.unsent ++ [job], service := .cancelling }
    | _ => none
  else none

/-- A worker sees its flag only when it is set. -/
def mayEnd (s : DecodeSystem) (job : DecodeJob) : WorkerEnd → Bool
  | .cancelled _ _ _ => s.isCancelled job
  | .decoded | .notAdmitted _ | .panicked _ => true

/-- `none`: the party that would move has to wait, or is not there. -/
def step (decode : Decoder) (s : DecodeSystem) : DecodeEvent → Option DecodeSystem
  | .request key input headers => some { s with calls := s.calls ++ [{ key, input, headers }] }
  | .advance i admits => s.calls[i]?.bind fun call => s.advance i call admits
  | .receive =>
    match s.service, s.jobs with
    | .waiting, job :: jobs =>
      if s.active.length < s.policy.maxActive then
        some { s with jobs, service := .received job }
      else none
    | _, _ => none
  | .join i =>
    match s.service, s.active[i]? with
    | .waiting, some (job, some result) =>
      some { s with active := s.active.eraseIdx i, service := .completed job result }
    | .draining, some (job, some _) =>
      some { s with active := s.active.eraseIdx i, discarded := s.discarded ++ [job] }
    | _, _ => none
  | .proceed => s.proceed
  | .leave => s.leave
  | .finish i outcome =>
    match s.active[i]? with
    | some (job, none) =>
      if s.mayEnd job outcome then
        some { s with active := s.active.set i (job, some (outcome.result decode job)) }
      else none
    | _ => none
  | .takeResult =>
    match s.results with
    | _ :: results => some { s with results }
    | [] => none
  | .closeResults => some { s with resultsOpen := false, results := [] }
  | .cancel => some { s with shutdown := true }

end DecodeSystem

end Fluxcope.Capture
