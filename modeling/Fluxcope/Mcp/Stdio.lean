import Fluxcope.Library.Assoc
import Fluxcope.Library.Run
import Fluxcope.Library.Semaphore
/-!
# Admission of requests on standard input and output

A request holds a permit from its dispatch until its response is written.  While
no permit is free the transport keeps one request in a buffer and reads on, so
that cancellations get through.
-/

namespace Fluxcope.Mcp

open Fluxcope.Library

variable {ι β : Type} [DecidableEq ι]

/-! ## Messages -/

/-- What a client sends: requests, cancelled notifications, and anything else. -/
inductive Incoming (ι β : Type) where
  | request (id : ι) (body : β)
  | cancelled (requestId : Option ι) (body : β)
  | other (body : β)
  deriving DecidableEq, Repr

inductive Outgoing (ι β : Type) where
  | response (id : ι) (body : β)
  | error (id : Option ι) (body : β)
  | other (body : β)

def cancellationRequestId : Incoming ι β → Option ι
  | .cancelled requestId _ => requestId
  | .request _ _ | .other _ => none

def Incoming.requestId : Incoming ι β → Option ι
  | .request id _ => some id
  | .cancelled _ _ | .other _ => none

def Outgoing.responseId : Outgoing ι β → Option ι
  | .response id _ => some id
  | .error id _ => id
  | .other _ => none

/-! ## The tracker -/

structure TrackedRequest where
  permit : Permit
  cancelled : Bool
  handlerDone : Bool
  deriving DecidableEq, Repr

structure ResponseTracker (ι : Type) where
  admission : Semaphore
  pending : List (ι × TrackedRequest)
  deriving DecidableEq, Repr

namespace ResponseTracker

def new (limit : Nat) : ResponseTracker ι := { admission := .new limit, pending := [] }

/-- A permit that is not stored is dropped, and so given back. -/
def track (tracker : ResponseTracker ι) (requestId : ι) (permit : Permit) :
    Bool × ResponseTracker ι :=
  if (tracker.pending.lookup requestId).isSome then
    (false, { tracker with admission := tracker.admission.release permit })
  else
    (true,
      { tracker with
        pending := tracker.pending ++
          [(requestId, { permit, cancelled := false, handlerDone := false })] })

/-- Updates a tracked request, and removes it if it is then `concluded`. -/
def mark (update : TrackedRequest → TrackedRequest) (concluded : TrackedRequest → Bool)
    (tracker : ResponseTracker ι) (requestId : ι) : ResponseTracker ι :=
  match tracker.pending.lookup requestId with
  | none => tracker
  | some tracked =>
    if concluded (update tracked) then
      { admission := tracker.admission.release tracked.permit
        pending := Assoc.erase tracker.pending requestId }
    else { tracker with pending := Assoc.modify tracker.pending requestId update }

def markCancelled : ResponseTracker ι → ι → ResponseTracker ι :=
  mark (fun tracked => { tracked with cancelled := true }) fun tracked => tracked.handlerDone

def markHandlerDone : ResponseTracker ι → ι → ResponseTracker ι :=
  mark (fun tracked => { tracked with handlerDone := true }) fun tracked => tracked.cancelled

def takeForResponse (tracker : ResponseTracker ι) (requestId : ι) :
    Option Permit × ResponseTracker ι :=
  ((tracker.pending.lookup requestId).map TrackedRequest.permit,
    { tracker with pending := Assoc.erase tracker.pending requestId })

def clear (tracker : ResponseTracker ι) : ResponseTracker ι :=
  { admission := tracker.admission.releaseAll
      (tracker.pending.map fun entry => entry.2.permit)
    pending := [] }

end ResponseTracker

/-! ## The SDK's view of a request -/

/-- Whether the SDK has answered: by which write, or that it never will. -/
inductive Response
  | unsent
  | sent (write : Nat)
  | suppressed
  deriving DecidableEq, Repr

structure Dispatched (ι : Type) where
  id : ι
  permit : Permit
  cancelled : Bool := false
  handlerDone : Bool := false
  response : Response := .unsent
  suppressed_cancelled : response = .suppressed → cancelled = true := by nofun

namespace Dispatched

def cancel (request : Dispatched ι) : Dispatched ι :=
  { request with cancelled := true, suppressed_cancelled := fun _ => rfl }

def finish (request : Dispatched ι) : Dispatched ι := { request with handlerDone := true }

def answer (write : Nat) (request : Dispatched ι) : Dispatched ι :=
  { request with response := .sent write, suppressed_cancelled := nofun }

/-- Only cancelled requests may go without a response. -/
def suppress (request : Dispatched ι) : Dispatched ι :=
  if hcancelled : request.cancelled then
    { request with response := .suppressed, suppressed_cancelled := fun _ => hcancelled }
  else request

/-- Nothing more happens under the id of the request. -/
def concluded (request : Dispatched ι) : Bool :=
  request.handlerDone && decide (request.response ≠ .unsent)

end Dispatched

/-! ## The transport -/

/-- Where the current `receive` stands; it can be dropped when it is `reading` or `waiting`. -/
inductive ReceivePhase
  | idle
  | reading
  | received
  | admitting
  | tracking (permit : Permit)
  | waiting
  deriving DecidableEq, Repr

structure Write where
  permit : Option Permit
  finished : Bool := false
  deriving DecidableEq, Repr

/-- The transport, the messages still in the inner transport and what the SDK did. -/
structure StdioSession (ι β : Type) where
  queue : List (Incoming ι β) := []
  disconnected : Bool := false
  tracker : ResponseTracker ι
  buffered : Option (Incoming ι β) := none
  phase : ReceivePhase := .idle
  /-- `receive` has returned `None`, or the transport was closed. -/
  ended : Bool := false
  closed : Bool := false
  dispatched : List (Dispatched ι) := []
  writes : List Write := []
  arrived : List (Incoming ι β) := []
  delivered : List (Incoming ι β) := []
  withheld : List (Incoming ι β) := []

inductive StdioEvent (ι β : Type)
  | arrive (message : Incoming ι β)
  | disconnect
  | poll
  | read
  | check
  | tryAcquire
  | acquire
  | track
  | overtake
  | dropReceive
  | handlerDone (request : Nat)
  | send (request : Nat) (item : Outgoing ι β)
  | sendOther (item : Outgoing ι β)
  | sent (write : Nat)
  | suppress (request : Nat)
  | close

namespace StdioSession

def init (limit : Nat) : StdioSession ι β := { tracker := .new limit }

/-- The messages that have arrived and still wait for the service. -/
def inbox (session : StdioSession ι β) : List (Incoming ι β) :=
  session.buffered.toList ++ session.queue

/-- A client does not use the id of a request that is not over. -/
def fresh (session : StdioSession ι β) : Incoming ι β → Bool
  | .request id _ =>
    session.inbox.all (fun message => message.requestId ≠ some id) &&
      session.dispatched.all fun request => request.id ≠ id || request.concluded
  | .cancelled _ _ | .other _ => true

/-- The message in hand goes to the service, and `receive` returns. -/
def deliver (session : StdioSession ι β) (message : Incoming ι β) : StdioSession ι β :=
  { session with phase := .idle, delivered := session.delivered ++ [message] }

/-- `receive` returns `None`; the messages in hand are lost. -/
def endSession (session : StdioSession ι β) (messages : List (Incoming ι β)) :
    StdioSession ι β :=
  { session with
    buffered := none
    phase := .idle
    ended := true
    withheld := session.withheld ++ messages }

/-- The tracker and the SDK learn of a cancellation. -/
def markCancelled (session : StdioSession ι β) (message : Incoming ι β) : StdioSession ι β :=
  match cancellationRequestId message with
  | none => session
  | some id =>
    { session with
      tracker := session.tracker.markCancelled id
      dispatched := session.dispatched.map fun request =>
        if request.id = id then request.cancel else request }

/-! ### Steps of `receive` -/

def poll (session : StdioSession ι β) : Option (StdioSession ι β) :=
  if session.phase = .idle ∧ session.ended = false then
    some
      { session with
        phase := if session.buffered.isNone then .reading else .received }
  else none

def read (session : StdioSession ι β) : Option (StdioSession ι β) :=
  if session.phase = .reading then
    match session.queue with
    | message :: queue =>
      some { session with queue, buffered := some message, phase := .received }
    | [] => if session.disconnected then some (session.endSession []) else none
  else none

def check (session : StdioSession ι β) : Option (StdioSession ι β) :=
  if session.phase = .received then
    session.buffered.map fun message =>
      match message with
      | .request _ _ => { session.markCancelled message with phase := .admitting }
      | .cancelled _ _ | .other _ =>
        { session.markCancelled message with buffered := none }.deliver message
  else none

def tryAcquire (session : StdioSession ι β) : Option (StdioSession ι β) :=
  if session.phase = .admitting then
    some
      (match session.tracker.admission.tryAcquire with
      | some (permit, admission) =>
        { session with
          tracker := { session.tracker with admission }
          phase := .tracking permit }
      | none => { session with phase := .waiting })
  else none

/-- `acquire_owned` wins the `select!`. -/
def acquire (session : StdioSession ι β) : Option (StdioSession ι β) :=
  if session.phase = .waiting then
    session.tracker.admission.tryAcquire.map fun (permit, admission) =>
      { session with tracker := { session.tracker with admission }, phase := .tracking permit }
  else none

def track (session : StdioSession ι β) : Option (StdioSession ι β) :=
  match session.phase, session.buffered with
  | .tracking permit, some (.request id body) =>
    match session.tracker.track id permit with
    | (true, tracker) =>
      some
        ({ session with
          tracker
          buffered := none
          dispatched := session.dispatched ++ [({ id, permit } : Dispatched ι)]
        }.deliver (.request id body))
    | (false, tracker) =>
      some ({ session with tracker }.endSession [.request id body])
  | _, _ => none

/-- `inner.receive` wins the `select!`. -/
def overtake (session : StdioSession ι β) : Option (StdioSession ι β) :=
  if session.phase = .waiting then
    match session.queue with
    | [] =>
      if session.disconnected then some (session.endSession session.buffered.toList) else none
    | .request id body :: queue =>
      some ({ session with queue }.endSession (session.buffered.toList ++ [Incoming.request id body]))
    | message :: queue =>
      let marked := { session with queue }.markCancelled message
      match session.buffered.bind Incoming.requestId, cancellationRequestId message with
      | some requestId, some cancelledId =>
        if cancelledId = requestId then
          some
            ({ marked with
              buffered := none
              withheld := session.withheld ++ session.buffered.toList }.deliver message)
        else some (marked.deliver message)
      | _, _ => some (marked.deliver message)
  else none

/-- The future is dropped at an await point; the buffer stays. -/
def dropReceive (session : StdioSession ι β) : Option (StdioSession ι β) :=
  match session.phase with
  | .reading | .waiting => some { session with phase := .idle }
  | .idle | .received | .admitting | .tracking _ => none

/-! ### Steps of the SDK -/

def handlerDone (session : StdioSession ι β) (index : Nat) : Option (StdioSession ι β) :=
  session.dispatched[index]?.bind fun request =>
    if request.handlerDone then none
    else some
      { session with
        tracker := session.tracker.markHandlerDone request.id
        dispatched := session.dispatched.modify index .finish }

def send (session : StdioSession ι β) (index : Nat) (item : Outgoing ι β) :
    Option (StdioSession ι β) :=
  session.dispatched[index]?.bind fun request =>
    if request.response = .unsent ∧ item.responseId = some request.id then
      let (permit, tracker) := session.tracker.takeForResponse request.id
      some
        { session with
          tracker
          dispatched := session.dispatched.modify index (.answer session.writes.length)
          writes := session.writes ++ [{ permit }] }
    else none

def sendOther (session : StdioSession ι β) (item : Outgoing ι β) : Option (StdioSession ι β) :=
  if item.responseId = none then
    some { session with writes := session.writes ++ [{ permit := none }] }
  else none

/-- The write has ended, or its future was dropped. -/
def sent (session : StdioSession ι β) (index : Nat) : Option (StdioSession ι β) :=
  session.writes[index]?.bind fun write =>
    if write.finished then none
    else some
      { session with
        tracker :=
          { session.tracker with
            admission := session.tracker.admission.releaseAll write.permit.toList }
        writes := session.writes.modify index fun write => { write with finished := true } }

def suppress (session : StdioSession ι β) (index : Nat) : Option (StdioSession ι β) :=
  session.dispatched[index]?.bind fun request =>
    if request.response = .unsent ∧ request.cancelled then
      some { session with dispatched := session.dispatched.modify index .suppress }
    else none

def close (session : StdioSession ι β) : Option (StdioSession ι β) :=
  if session.phase = .idle then
    some { session with tracker := session.tracker.clear, ended := true, closed := true }
  else none

def step (session : StdioSession ι β) : StdioEvent ι β → Option (StdioSession ι β)
  | .arrive message =>
    if session.disconnected = false ∧ session.fresh message then
      some
        { session with
          queue := session.queue ++ [message]
          arrived := session.arrived ++ [message] }
    else none
  | .disconnect => some { session with disconnected := true }
  | .poll => session.poll
  | .read => session.read
  | .check => session.check
  | .tryAcquire => session.tryAcquire
  | .acquire => session.acquire
  | .track => session.track
  | .overtake => session.overtake
  | .dropReceive => session.dropReceive
  | .handlerDone index => session.handlerDone index
  | .send index item => session.send index item
  | .sendOther item => session.sendOther item
  | .sent index => session.sent index
  | .suppress index => session.suppress index
  | .close => session.close

end StdioSession

end Fluxcope.Mcp
