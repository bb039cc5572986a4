import Fluxcope.Control.Error
import Fluxcope.Library.Heap
import Fluxcope.Library.Machine
import Fluxcope.Library.Run
/-!
# Admission of body work

A caller queues its job, waits for one of two permits, and works.  The queue is
charged for a job from its admission until the permit is taken or the job is
given up.  Every access to the shared state is a step of its own.
-/

namespace Fluxcope.Capture

open Fluxcope.Library Fluxcope.Control

def activeBodyWorkLimit : Nat := 2

def queuedBodyWorkLimit : Nat := 8

def queuedBodyInputLimitBytes : Nat := 32 * 1024 * 1024

/-- The queue, the counters and the permits left in the semaphore. -/
structure BodyWorkAdmission where
  permits : Nat := activeBodyWorkLimit
  jobs : Nat := 0
  bytes : Nat := 0
  active : Nat := 0
  rejected : Nat := 0
  deriving DecidableEq, Repr

structure QueuedBodyWorkLease where
  inputBytes : Nat
  charged : Bool
  deriving DecidableEq, Repr

def queueFullError : ControlError :=
  { code := .resourceLimit
    message := "body work queue is full"
    retryable := true
    details := [("maximum_queued_jobs", queuedBodyWorkLimit)] }

def queueBytesError (inputBytes queuedBytes : Nat) : ControlError :=
  { code := .resourceLimit
    message := "queued body input exceeds the memory budget"
    retryable := true
    details :=
      [("requested_input_bytes", inputBytes), ("queued_input_bytes", queuedBytes),
        ("maximum_queued_input_bytes", queuedBodyInputLimitBytes)] }

def cancelledError : ControlError := .cancelled "body work was cancelled"

def deadlineError : ControlError := .deadlineExceeded "body work deadline elapsed"

namespace BodyWorkAdmission

def reject (admission : BodyWorkAdmission) (error : ControlError) :
    BodyWorkAdmission × Except ControlError QueuedBodyWorkLease :=
  ({ admission with rejected := (admission.rejected + 1) % (wordMax + 1) }, .error error)

def tryQueue (admission : BodyWorkAdmission) (inputBytes : Nat) :
    BodyWorkAdmission × Except ControlError QueuedBodyWorkLease :=
  if admission.jobs ≥ queuedBodyWorkLimit then admission.reject queueFullError
  -- `checked_add`
  else if admission.bytes + inputBytes > wordMax then
    admission.reject (queueBytesError inputBytes admission.bytes)
  else if admission.bytes + inputBytes > queuedBodyInputLimitBytes then
    admission.reject (queueBytesError inputBytes admission.bytes)
  else
    ({ admission with jobs := admission.jobs + 1, bytes := admission.bytes + inputBytes },
      .ok { inputBytes, charged := true })

/-- `try_admit_mcp_until`; the TUI comes without a deadline and cannot be cancelled here. -/
def tryAdmit (admission : BodyWorkAdmission) (inputBytes : Nat) (cancelled expired : Bool) :
    BodyWorkAdmission × Except ControlError QueuedBodyWorkLease :=
  if cancelled then (admission, .error cancelledError)
  else if expired then (admission, .error deadlineError)
  else admission.tryQueue inputBytes

def releaseQueued (admission : BodyWorkAdmission) (inputBytes : Nat) : BodyWorkAdmission :=
  { admission with jobs := admission.jobs - 1, bytes := admission.bytes - inputBytes }

end BodyWorkAdmission

namespace QueuedBodyWorkLease

def releaseCharge (lease : QueuedBodyWorkLease) (admission : BodyWorkAdmission) :
    QueuedBodyWorkLease × BodyWorkAdmission :=
  if lease.charged then
    ({ lease with charged := false }, admission.releaseQueued lease.inputBytes)
  else (lease, admission)

/-- `drop` -/
def drop (lease : QueuedBodyWorkLease) (admission : BodyWorkAdmission) : BodyWorkAdmission :=
  (lease.releaseCharge admission).2

end QueuedBodyWorkLease

/-! ## The callers -/

/-- Where a caller is.  From `permitted` to `handing` it runs the end of `acquire_active`;
`leaving` and `retrying` are inside `drop` of the active lease and behind it. -/
inductive BodyWorkPhase
  | queued (lease : QueuedBodyWorkLease)
  | waiting (lease : QueuedBodyWorkLease)
  | permitted (lease : QueuedBodyWorkLease)
  | counted (lease : QueuedBodyWorkLease)
  | handing (lease : QueuedBodyWorkLease)
  | active
  | leaving (retry : Option Nat)
  | retrying (inputBytes : Nat)
  | done
  deriving DecidableEq, Repr

/-- A caller, with the number of its last charge. -/
structure BodyWorkCaller where
  phase : BodyWorkPhase
  ticket : Nat
  deriving DecidableEq, Repr

/-- All callers, the charges handed out so far and those released, one by one. -/
structure BodyWorkSystem where
  admission : BodyWorkAdmission := {}
  callers : List BodyWorkCaller := []
  issued : Nat := 0
  released : List Nat := []
  deriving DecidableEq, Repr

inductive BodyWorkAction
  | submit (inputBytes : Nat) (cancelled expired : Bool)
  | acquire (i : Nat)
  | permit (i : Nat)
  /-- Cancellation, an elapsed deadline, or a caller that drops the lease or the future. -/
  | abandon (i : Nat)
  | count (i : Nat)
  | release (i : Nat)
  | hand (i : Nat)
  | leave (i : Nat) (retry : Option Nat)
  | free (i : Nat)
  | resubmit (i : Nat) (cancelled expired : Bool)
  deriving DecidableEq, Repr

namespace BodyWorkSystem

/-- The caller goes on to the phase, with the admission as given. -/
def set (w : BodyWorkSystem) (i : Nat) (caller : BodyWorkCaller) (phase : BodyWorkPhase)
    (admission : BodyWorkAdmission) : BodyWorkSystem :=
  { w with admission, callers := w.callers.set i { caller with phase } }

/-- The release of a charge goes into the list. -/
def recordRelease (w : BodyWorkSystem) (caller : BodyWorkCaller) (lease : QueuedBodyWorkLease) :
    BodyWorkSystem :=
  { w with released := if lease.charged then caller.ticket :: w.released else w.released }

def submit (w : BodyWorkSystem) (inputBytes : Nat) (cancelled expired : Bool) : BodyWorkSystem :=
  match w.admission.tryAdmit inputBytes cancelled expired with
  | (admission, .error _) => { w with admission }
  | (admission, .ok lease) =>
    { w with
      admission
      callers := w.callers ++ [{ phase := .queued lease, ticket := w.issued }]
      issued := w.issued + 1 }

def resubmit (w : BodyWorkSystem) (i : Nat) (caller : BodyWorkCaller) (inputBytes : Nat)
    (cancelled expired : Bool) : BodyWorkSystem :=
  match w.admission.tryAdmit inputBytes cancelled expired with
  | (admission, .error _) => w.set i caller .done admission
  | (admission, .ok lease) =>
    { w.set i { caller with ticket := w.issued } (.queued lease) admission with
      issued := w.issued + 1 }

/-- A move of one caller. -/
def move (w : BodyWorkSystem) (i : Nat) (caller : BodyWorkCaller) :
    BodyWorkAction → BodyWorkPhase → Option BodyWorkSystem
  | .acquire _, .queued lease => some (w.set i caller (.waiting lease) w.admission)
  | .permit _, .waiting lease =>
    if w.admission.permits = 0 then none
    else some (w.set i caller (.permitted lease)
      { w.admission with permits := w.admission.permits - 1 })
  | .abandon _, .queued lease | .abandon _, .waiting lease =>
    some ((w.set i caller .done (lease.drop w.admission)).recordRelease caller lease)
  | .count _, .permitted lease =>
    some (w.set i caller (.counted lease)
      { w.admission with active := (w.admission.active + 1) % (wordMax + 1) })
  | .release _, .counted lease =>
    let (lease', admission) := lease.releaseCharge w.admission
    some ((w.set i caller (.handing lease') admission).recordRelease caller lease)
  | .hand _, .handing lease =>
    some ((w.set i caller .active (lease.drop w.admission)).recordRelease caller lease)
  | .leave _ retry, .active =>
    some (w.set i caller (.leaving retry)
      { w.admission with active := wrapSub w.admission.active 1 })
  | .free _, .leaving retry =>
    some (w.set i caller (match retry with | some inputBytes => .retrying inputBytes | none => .done)
      { w.admission with permits := w.admission.permits + 1 })
  | .resubmit _ cancelled expired, .retrying inputBytes =>
    some (w.resubmit i caller inputBytes cancelled expired)
  | _, _ => none

def step (w : BodyWorkSystem) (action : BodyWorkAction) : Option BodyWorkSystem :=
  match action with
  | .submit inputBytes cancelled expired => some (w.submit inputBytes cancelled expired)
  | .acquire i | .permit i | .abandon i | .count i | .release i | .hand i | .leave i _ | .free i
  | .resubmit i _ _ => w.callers[i]?.bind fun caller => w.move i caller action caller.phase

end BodyWorkSystem

end Fluxcope.Capture
