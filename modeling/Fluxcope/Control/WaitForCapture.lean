import Fluxcope.Control.CaptureQuery
import Fluxcope.Capture.StoreHistory
/-!
# Waiting for a capture

One waiter next to the capture system.  It subscribes to the change feed, scans
the retained captures in batches, newest first, and then consumes the feed.  The
captures may change between any two of its steps, also within a batch.
-/

namespace Fluxcope.Capture.CaptureSystem

/-- `capture_record`: the record of a retained capture. -/
def captureRecord (s : CaptureSystem) (i : CaptureSequence) : Option CaptureRecord :=
  if i ∈ s.store.captures then s.cells[i]?.map (·.record) else none

/-- `capture_at_or_before`; no bound stands for the largest sequence number. -/
def captureAtOrBefore (s : CaptureSystem) (bound : Option CaptureSequence) :
    Option CaptureRecord :=
  (s.store.captures.filter fun i => bound.all fun b => i ≤ b).getLast?.bind s.captureRecord

end Fluxcope.Capture.CaptureSystem

namespace Fluxcope.Control

open Fluxcope.Library Fluxcope.Library.Utf8 Fluxcope.Capture

inductive CaptureMilestone
  | requestSeen
  | responseStarted
  | exchangeTerminal
  deriving DecidableEq, Repr

def CaptureMilestone.isSatisfiedBy : CaptureMilestone → CaptureSnapshot → Bool
  | .requestSeen, _ => true
  | .responseStarted, snapshot => snapshot.timing.timeToResponse.isSome
  | .exchangeTerminal, snapshot =>
    snapshot.requestBody.status.stream.isTerminal &&
      snapshot.responseBody.status.stream.isTerminal

/-- The compiled query and the milestone of a request. -/
structure CaptureWait where
  isMatch : CaptureSnapshot → Bool
  milestone : CaptureMilestone

inductive WaitSnapshotInspection
  | matched
  | pending
  | ignore
  deriving DecidableEq, Repr

structure WaitSequenceState where
  revision : Nat
  pending : Bool
  deriving DecidableEq, Repr

/-- The `HashMap` of the waiter. -/
abbrev WaitSequences := CaptureSequence → Option WaitSequenceState

def WaitSequences.set (sequences : WaitSequences) (i : CaptureSequence)
    (state : Option WaitSequenceState) : WaitSequences :=
  fun j => if j = i then state else sequences j

inductive WaitOutcome
  | matched (capture : CompactCapture)
  | unmatched
  | failed (error : ControlError)

/-- Where the waiter is.  While it collects a batch, `cursor` is where the next
row is looked up. -/
inductive WaitPhase
  | idle
  | collecting (cursor : Option CaptureSequence) (rows : List CaptureSnapshot)
  | consuming
  | materializing (change : CaptureChange)
  | done (outcome : WaitOutcome)

/-- `inspected` is not in the source: all snapshots that were inspected without a match. -/
structure Waiter where
  phase : WaitPhase := .idle
  changes : CaptureChangeSubscription := { nextEpoch := 0 }
  sequences : WaitSequences := fun _ => none
  inspected : List CaptureSnapshot := []

/-! ## Inspection -/

namespace CaptureWait

/-- Both the query and the milestone. -/
def satisfied (wait : CaptureWait) (snapshot : CaptureSnapshot) : Bool :=
  wait.isMatch snapshot && wait.milestone.isSatisfiedBy snapshot

def inspectWaitSnapshot (wait : CaptureWait) (snapshot : CaptureSnapshot) :
    WaitSnapshotInspection :=
  if !wait.isMatch snapshot then .ignore
  else if wait.milestone.isSatisfiedBy snapshot then .matched
  else if CaptureMilestone.exchangeTerminal.isSatisfiedBy snapshot then .ignore
  else .pending

/-- The state kept of a snapshot that is no match. -/
def sequenceState (wait : CaptureWait) (snapshot : CaptureSnapshot) : WaitSequenceState :=
  { revision := snapshot.revision
    pending := wait.inspectWaitSnapshot snapshot = .pending }

def inspectWaitBatch (wait : CaptureWait) :
    List CaptureSnapshot → WaitSequences → Option CompactCapture × WaitSequences
  | [], states => (none, states)
  | snapshot :: snapshots, states =>
    match wait.inspectWaitSnapshot snapshot with
    | .matched => (some (CompactCapture.fromSnapshot snapshot), states)
    | .pending | .ignore =>
      wait.inspectWaitBatch snapshots
        (states.set snapshot.sequence (some (wait.sequenceState snapshot)))

end CaptureWait

/-! ## Errors -/

def captureChangeLost (change : CaptureChange) (message : String) : ControlError :=
  { code := .captureNotFound, message, retryable := true
    details := [("capture_id", change.sequence), ("capture_revision", change.revision)] }

def removedWhileWaiting (change : CaptureChange) : ControlError :=
  captureChangeLost change "matching capture was removed while waiting"

def notMaterialized (change : CaptureChange) : ControlError :=
  captureChangeLost change "changed capture could not be materialized"

def feedGap : CaptureChangeError → ControlError
  | .gap expectedEpoch oldestAvailableEpoch =>
    { code := .serviceUnavailable
      message := "capture change feed history was exceeded"
      retryable := true
      details := [("expected_epoch", expectedEpoch),
        ("oldest_available_epoch", oldestAvailableEpoch)] }

def waitCancelled : ControlError :=
  { code := .cancelled, message := "capture wait cancelled", retryable := true }

/-! ## The waiter -/

namespace Waiter

def finish (w : Waiter) (outcome : WaitOutcome) : Waiter := { w with phase := .done outcome }

/-- The end of a batch: the rows are inspected, and the next batch starts if an
older capture is retained. -/
def finishBatch (wait : CaptureWait) (s : CaptureSystem) (w : Waiter)
    (rows : List CaptureSnapshot) : Waiter :=
  let nextCursor := rows.getLast?.bind fun snapshot =>
    (cursorBefore snapshot.sequence).bind fun cursor =>
      (s.captureAtOrBefore (some cursor.nextOlderSequence)).map fun _ => cursor
  if rows.isEmpty then { w with phase := .consuming }
  else
    match wait.inspectWaitBatch rows w.sequences with
    | (some capture, _) => w.finish (.matched capture)
    | (none, sequences) =>
      { w with
        sequences
        inspected := w.inspected ++ rows
        phase :=
          match nextCursor with
          | none => .consuming
          | some cursor => .collecting (some cursor.nextOlderSequence) [] }

/-- One turn of the batch request. -/
def collect (wait : CaptureWait) (s : CaptureSystem) (w : Waiter)
    (cursor : Option CaptureSequence) (rows : List CaptureSnapshot) : Waiter :=
  if rows.length < captureSearchBatchSize then
    match s.captureAtOrBefore cursor with
    | none => w.finishBatch wait s rows
    | some record =>
      let rows := rows ++ [record.snapshot .metadataOnly]
      match record.sequence with
      | 0 => w.finishBatch wait s rows
      | older + 1 => { w with phase := .collecting (some older) rows }
  else w.finishBatch wait s rows

def handleChange (w : Waiter) (change : CaptureChange) : Waiter :=
  match change.kind with
  | .retentionEviction | .explicitDelete | .clear =>
    if (w.sequences change.sequence).any (·.pending) then
      w.finish (.failed (removedWhileWaiting change))
    else { w with sequences := w.sequences.set change.sequence none }
  | .admitted | .recordUpdated =>
    if (w.sequences change.sequence).any fun state => change.revision ≤ state.revision then w
    else { w with phase := .materializing change }

def materialize (wait : CaptureWait) (s : CaptureSystem) (w : Waiter)
    (change : CaptureChange) : Waiter :=
  match s.captureRecord change.sequence with
  | none => w.finish (.failed (notMaterialized change))
  | some record =>
    let snapshot := record.snapshot .metadataOnly
    match wait.inspectWaitSnapshot snapshot with
    | .matched => w.finish (.matched (CompactCapture.fromSnapshot snapshot))
    | .pending | .ignore =>
      { w with
        sequences := w.sequences.set change.sequence (some (wait.sequenceState snapshot))
        inspected := w.inspected ++ [snapshot]
        phase := .consuming }

def step (wait : CaptureWait) (s : CaptureSystem) (w : Waiter) : Option Waiter :=
  match w.phase with
  | .idle => some { w with changes := s.feed.subscribe, phase := .collecting none [] }
  | .collecting cursor rows => some (w.collect wait s cursor rows)
  | .consuming =>
    match s.feed.tryRead w.changes with
    | .error error => some (w.finish (.failed (feedGap error)))
    | .ok (none, _) => none
    | .ok (some change, changes) => some ({ w with changes }.handleChange change)
  | .materializing change => some (w.materialize wait s change)
  | .done _ => none

/-- It has subscribed and not answered yet. -/
def isActive (w : Waiter) : Bool :=
  match w.phase with
  | .idle | .done _ => false
  | .collecting _ _ | .consuming | .materializing _ => true

end Waiter

/-! ## The system -/

/-- `origin` is not in the source: the captures when the waiter subscribed. -/
structure WaitSystem where
  captures : CaptureSystem
  waiter : Waiter
  origin : CaptureSystem

inductive WaitAction
  | capture (action : CaptureAction)
  | storeNext
  | waiter
  | deadline
  | cancel

namespace WaitSystem

def new (policy : CapturePolicy) (retention : CaptureRetentionPolicy) : WaitSystem :=
  { captures := .new policy retention, waiter := {}, origin := .new policy retention }

/-- A waiter that has not subscribed does it now. -/
def subscribedAt (w : WaitSystem) : CaptureSystem :=
  match w.waiter.phase with
  | .idle => w.captures
  | .collecting _ _ | .consuming | .materializing _ | .done _ => w.origin

/-- The event loop stores each capture once, when it takes it from the channel. -/
def step (wait : CaptureWait) (w : WaitSystem) : WaitAction → Option WaitSystem
  | .capture action =>
    if CaptureSystem.isOrderly action then
      (w.captures.step action).map fun captures => { w with captures }
    else none
  | .storeNext => w.captures.storeNext.map fun captures => { w with captures }
  | .waiter =>
    (w.waiter.step wait w.captures).map fun waiter =>
      { w with waiter, origin := w.subscribedAt }
  | .deadline =>
    if w.waiter.isActive then some { w with waiter := w.waiter.finish .unmatched } else none
  | .cancel =>
    if w.waiter.isActive then
      some { w with waiter := w.waiter.finish (.failed waitCancelled) }
    else none

end WaitSystem

end Fluxcope.Control
