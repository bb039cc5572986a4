import Fluxcope.Requests.RequestTree
/-!
# The search service

A background task runs the latest request.  Requests and outcomes go through watch
channels, which keep only the last value that was sent.
-/

namespace Fluxcope.Requests

open Fluxcope.Library Fluxcope.Library.Utf8

structure SearchRequestKey where
  generation : Nat
  treeRevision : Nat
  deriving DecidableEq, Repr

structure SearchMatch where
  path : List Bytes
  logicalPosition : Nat
  deriving DecidableEq, Repr

abbrev SearchResults := List SearchMatch

structure SearchRequest where
  key : SearchRequestKey
  query : Bytes
  tree : RequestTreeModel
  deriving DecidableEq, Repr

inductive SearchJobOutcome
  | completed (key : SearchRequestKey) (results : SearchResults)
  | cancelled (key : SearchRequestKey)
  | failed (key : SearchRequestKey) (message : Bytes)
  deriving DecidableEq, Repr

def SearchJobOutcome.key : SearchJobOutcome → SearchRequestKey
  | completed key _ | cancelled key | failed key _ => key

/-- A watch channel with one receiver, which has seen the value unless it is `changed`. -/
structure Watch (α : Type) where
  value : α
  changed : Bool := false
  deriving DecidableEq, Repr

namespace Watch

variable {α : Type}

def sendReplace (_ : Watch α) (value : α) : Watch α := { value, changed := true }

/-- The channel after `borrow_and_update`. -/
def update (watch : Watch α) : Watch α := { watch with changed := false }

end Watch

structure SearchWorker where
  request : SearchRequest
  cancelled : Bool := false
  deriving DecidableEq, Repr

/-- Where the loops of the service stand. -/
inductive SearchPhase
  /-- At the head of the outer loop, or waiting there for a change. -/
  | idle (pending : Option SearchRequest)
  /-- A change has been seen but the new request has not been read yet. -/
  | updating (worker : Option SearchWorker)
  | running (worker : SearchWorker) (pending : Option SearchRequest)
  deriving DecidableEq, Repr

structure RequestSearchService where
  requests : Watch (Option SearchRequest) := { value := none }
  results : Watch (Option SearchJobOutcome) := { value := none }
  phase : SearchPhase := .idle none
  deriving DecidableEq, Repr

/-- How the blocking worker ends; a panic is a failure. -/
inductive WorkerEnd
  | completed
  | cancelled
  | failed (message : Bytes)

inductive SearchServiceAction
  | proceed
  | changed
  | joined (ending : WorkerEnd)

namespace RequestSearchService

def submit (service : RequestSearchService) (request : SearchRequest) : RequestSearchService :=
  { service with requests := service.requests.sendReplace (some request) }

def cancel (service : RequestSearchService) : RequestSearchService :=
  { service with requests := service.requests.sendReplace none }

def startPhase : Option SearchRequest → SearchPhase
  | some request => .running { request } none
  | none => .idle none

/-- What the service does by itself: it reads the latest request, and starts it. -/
def proceed (service : RequestSearchService) : Option RequestSearchService :=
  match service.phase with
  | .idle none => none
  | .idle (some request) =>
    let pending := if service.requests.changed then service.requests.value else some request
    some { service with requests := service.requests.update, phase := startPhase pending }
  | .updating none =>
    some
      { service with
        requests := service.requests.update
        phase := startPhase service.requests.value }
  | .updating (some worker) =>
    some
      { service with
        requests := service.requests.update
        phase := .running worker service.requests.value }
  | .running _ _ => none

/-- `requests.changed()` in the outer or the inner `select!`. -/
def changed (service : RequestSearchService) : Option RequestSearchService :=
  if service.requests.changed then
    let seen := { service with requests := service.requests.update,
                               results := service.results.sendReplace none }
    match service.phase with
    | .idle none => some { seen with phase := .updating none }
    | .running worker _ =>
      some { seen with phase := .updating (some { worker with cancelled := true }) }
    | .idle (some _) | .updating _ => none
  else none

/-- `run_search` gives up only when it finds its flag set; `search` is the matcher. -/
def outcomeOf (search : Bytes → RequestTreeModel → SearchResults) (worker : SearchWorker) :
    WorkerEnd → Option SearchJobOutcome
  | .completed =>
    some (.completed worker.request.key (search worker.request.query worker.request.tree))
  | .cancelled => if worker.cancelled then some (.cancelled worker.request.key) else none
  | .failed message => some (.failed worker.request.key message)

def joined (search : Bytes → RequestTreeModel → SearchResults) (service : RequestSearchService)
    (ending : WorkerEnd) : Option RequestSearchService :=
  match service.phase with
  | .running worker pending => do
      let outcome ← outcomeOf search worker ending
      some
        { service with
          results := service.results.sendReplace (some outcome)
          phase := .idle pending }
  | .idle _ | .updating _ => none

def act (search : Bytes → RequestTreeModel → SearchResults) (service : RequestSearchService) :
    SearchServiceAction → Option RequestSearchService
  | .proceed => service.proceed
  | .changed => service.changed
  | .joined ending => service.joined search ending

end RequestSearchService

end Fluxcope.Requests
