import Fluxcope.Library.Run
import Fluxcope.Capture.RecordSpec
/-!
# Publisher, channel, store and handles

All captures of one publisher with everything that refers to them.  A capture
is a cell of the heap; its index is its sequence number.  A cell counts the
references to its record that neither the channel nor the store holds, the
snapshots that keep its lease, and its handles, which hold the record weakly.
Every action is one operation of the source; at its end the leases that
nothing refers to any more are dropped.
-/

namespace Fluxcope.Capture

open Fluxcope.Library Fluxcope.Library.Utf8

/-- `ExchangeLifecycle`: the terminal bits and the admission permit. -/
structure ExchangeLifecycle where
  requestTerminal : Bool := false
  responseTerminal : Bool := false
  permit : Bool

def ExchangeLifecycle.setTerminal (lifecycle : ExchangeLifecycle) :
    BodySide → ExchangeLifecycle
  | .request => { lifecycle with requestTerminal := true }
  | .response => { lifecycle with responseTerminal := true }

/-- The charges are not in the source: they add up what the appends of each
side made the lease grow by. -/
structure CaptureCell where
  record : CaptureRecord
  lease : CaptureBudgetLease
  leaseLive : Bool := true
  records : Nat := 0
  snapshots : Nat := 0
  handles : Nat
  lifecycle : ExchangeLifecycle
  requestCharged : Nat := 0
  responseCharged : Nat := 0

structure CaptureRetentionPolicy where
  maxRecords : Nat := 10000
  maxBytes : Nat := 256 * 1024 * 1024

/-- `CaptureStore`: the sequence numbers of the stored captures in ascending order. -/
structure CaptureStore where
  captures : List CaptureSequence := []
  retainedBytes : Nat := 0
  revision : Nat := 0

/-- `receiver` tells whether the receiving end of the channel still exists. -/
structure CaptureSystem where
  policy : CapturePolicy
  retention : CaptureRetentionPolicy
  cells : List CaptureCell
  queue : List CaptureSequence
  receiver : Bool
  permits : Nat
  budget : CaptureMemoryBudget
  feed : CaptureChangeFeed
  store : CaptureStore

inductive CaptureAction
  | tryStart (input : RequestCaptureInput) (startedAt startedMono : Nat)
  | receive
  | dropReceiver
  | cloneRecord (i : CaptureSequence)
  | dropRecord (i : CaptureSequence)
  | takeSnapshot (i : CaptureSequence)
  | cloneSnapshot (i : CaptureSequence)
  | dropSnapshot (i : CaptureSequence)
  | cloneHandle (i : CaptureSequence)
  | dropHandle (i : CaptureSequence)
  | setResponse (i : CaptureSequence) (input : ResponseCaptureInput) (instant : Nat)
  | append (i : CaptureSequence) (side : BodySide) (bytes : Bytes)
  | finish (i : CaptureSequence) (side : BodySide) (terminal : BodyTerminal) (instant : Nat)
  | insert (i : CaptureSequence)
  | removeSequences (sequences : List CaptureSequence)
  | clear
  | evictOldest
  | dropStore

namespace CaptureCell

def charged (cell : CaptureCell) : BodySide → Nat
  | .request => cell.requestCharged
  | .response => cell.responseCharged

def addCharge (cell : CaptureCell) (side : BodySide) (bytes : Nat) : CaptureCell :=
  { cell with
    requestCharged :=
      match side with | .request => cell.requestCharged + bytes | .response => cell.requestCharged
    responseCharged :=
      match side with
      | .request => cell.responseCharged
      | .response => cell.responseCharged + bytes }

end CaptureCell

/-- Insertion into a `BTreeMap` or a `BTreeSet`, as far as the keys go. -/
def insertSequence (i : CaptureSequence) : List CaptureSequence → List CaptureSequence
  | [] => [i]
  | j :: rest =>
    if i < j then i :: j :: rest else if i = j then j :: rest else j :: insertSequence i rest

namespace CaptureSystem

def new (policy : CapturePolicy) (retention : CaptureRetentionPolicy) : CaptureSystem :=
  { policy, retention
    cells := []
    queue := []
    receiver := true
    permits := policy.maxConcurrentExchanges
    budget := .new policy.totalRetainedBytes policy.totalRetainedBytes_le
    feed := {}
    store := {} }

/-! ## References -/

/-- The strong references to the record: outside, in the channel, in the store. -/
def strong (s : CaptureSystem) (i : CaptureSequence) (cell : CaptureCell) : Nat :=
  cell.records + s.queue.count i + s.store.captures.count i

/-- Whatever keeps the lease. -/
def references (s : CaptureSystem) (i : CaptureSequence) (cell : CaptureCell) : Nat :=
  s.strong i cell + cell.snapshots

def modifyCell (s : CaptureSystem) (i : CaptureSequence) (f : CaptureCell → CaptureCell) :
    CaptureSystem :=
  { s with cells := s.cells.modify i f }

/-- The lease of cell `i` is dropped if nothing refers to it. -/
def reapCell (s : CaptureSystem) (i : CaptureSequence) : CaptureSystem :=
  match s.cells[i]? with
  | none => s
  | some cell =>
    if cell.leaseLive && s.references i cell == 0 then
      { s with
        cells := s.cells.set i { cell with leaseLive := false }
        budget := cell.lease.drop s.budget }
    else s

def reap (s : CaptureSystem) : CaptureSystem :=
  (List.range s.cells.length).foldl reapCell s

/-! ## Operations on one record -/

def scope (s : CaptureSystem) (cell : CaptureCell) : RecordScope :=
  { record := cell.record, lease := cell.lease, budget := s.budget, feed := s.feed }

def putScope (s : CaptureSystem) (i : CaptureSequence) (cell : CaptureCell)
    (scope : RecordScope) : CaptureSystem :=
  { s with
    cells := s.cells.set i { cell with record := scope.record, lease := scope.lease }
    budget := scope.budget
    feed := scope.feed }

def onRecord (s : CaptureSystem) (i : CaptureSequence) (f : RecordScope → RecordScope) :
    CaptureSystem :=
  match s.cells[i]? with
  | none => s
  | some cell => s.putScope i cell (f (s.scope cell))

def recordBytes (s : CaptureSystem) (i : CaptureSequence) : Nat :=
  match s.cells[i]? with
  | none => 0
  | some cell => cell.record.retainedBytes

/-! ## The publisher -/

def tryStart (s : CaptureSystem) (input : RequestCaptureInput)
    (startedAt startedMono : Nat) : CaptureSystem :=
  if s.permits = 0 then s
  else
    let (metadataBytes, truncation) := measureRequestMetadata input s.policy
    match CaptureBudgetLease.tryNew s.budget metadataBytes with
    | none => s
    | some (lease, budget) =>
      let request := requestMetadata input s.policy
      let sequence := s.cells.length
      let record :=
        CaptureRecord.new sequence request truncation metadataBytes startedAt startedMono
      if s.receiver && s.queue.length < s.policy.queueCapacity then
        { s with
          permits := s.permits - 1
          budget
          cells := s.cells ++ [{ record, lease, handles := 1, lifecycle := { permit := true } }]
          queue := s.queue ++ [sequence] }
      else
        { s with
          budget
          cells :=
            s.cells ++ [{ record, lease, handles := 0, lifecycle := { permit := false } }] }

/-- `mark_terminal`: the permit is given back when both sides have ended. -/
def markTerminal (s : CaptureSystem) (i : CaptureSequence) (side : BodySide) : CaptureSystem :=
  match s.cells[i]? with
  | none => s
  | some cell =>
    let lifecycle := cell.lifecycle.setTerminal side
    if lifecycle.requestTerminal && lifecycle.responseTerminal && lifecycle.permit then
      { s.modifyCell i ({ · with lifecycle := { lifecycle with permit := false } }) with
        permits := s.permits + 1 }
    else s.modifyCell i ({ · with lifecycle })

/-- A handle can upgrade its weak reference while the record has a strong one. -/
def alive (s : CaptureSystem) (i : CaptureSequence) : Bool :=
  match s.cells[i]? with
  | none => false
  | some cell => 0 < s.strong i cell

def setResponse (s : CaptureSystem) (i : CaptureSequence) (input : ResponseCaptureInput)
    (instant : Nat) : CaptureSystem :=
  if s.alive i then
    s.onRecord i fun scope => CaptureHandle.setResponseAt scope s.policy input instant
  else s

def append (s : CaptureSystem) (i : CaptureSequence) (side : BodySide) (bytes : Bytes) :
    CaptureSystem :=
  if s.alive i then
    match s.cells[i]? with
    | none => s
    | some cell =>
      let scope := CaptureHandle.append (s.scope cell) s.policy side bytes
      s.putScope i (cell.addCharge side (scope.lease.reserved - cell.lease.reserved)) scope
  else s

def finish (s : CaptureSystem) (i : CaptureSequence) (side : BodySide)
    (terminal : BodyTerminal) (instant : Nat) : CaptureSystem :=
  let s :=
    if s.alive i then
      s.onRecord i fun scope => CaptureHandle.finish scope side terminal instant
    else s
  s.markTerminal i side

def dropHandle (s : CaptureSystem) (i : CaptureSequence) (cell : CaptureCell) : CaptureSystem :=
  if cell.handles = 1 && cell.lifecycle.permit then
    { s.modifyCell i ({ · with handles := 0, lifecycle := { cell.lifecycle with permit := false } })
      with permits := s.permits + 1 }
  else s.modifyCell i ({ · with handles := cell.handles - 1 })

/-! ## The store -/

/-- `wrapping_add(1)` on the revision of the store. -/
def nextStoreRevision (revision : Nat) : Nat := (revision + 1) % (wordMax + 1)

def removeRecord (s : CaptureSystem) (i : CaptureSequence) (kind : CaptureChangeKind) :
    CaptureSystem :=
  s.onRecord i fun scope => scope.removeFromStore kind

/-- The record `i`, taken out of the map, is told and no longer counted. -/
def forget (s : CaptureSystem) (i : CaptureSequence) (kind : CaptureChangeKind) :
    CaptureSystem :=
  let s := s.removeRecord i kind
  { s with store := { s.store with retainedBytes := s.store.retainedBytes - s.recordBytes i } }

def evictOldest (s : CaptureSystem) : Option CaptureSequence × CaptureSystem :=
  match s.store.captures with
  | [] => (none, s)
  | i :: rest =>
    let s := { s with store := { s.store with captures := rest } }.forget i .retentionEviction
    (some i,
      { s with store := { s.store with revision := nextStoreRevision s.store.revision } })

/-- The loop of `enforce_cached_retention`; every round evicts one capture. -/
def enforceLoop : Nat → CaptureSystem → Bool → Bool × CaptureSystem
  | 0, s, evicted => (evicted, s)
  | fuel + 1, s, evicted =>
    if s.store.captures.length > s.retention.maxRecords ||
        s.store.retainedBytes > s.retention.maxBytes then
      match s.evictOldest with
      | (none, _) => (evicted, s)
      | (some _, s) => enforceLoop fuel s true
    else (evicted, s)

def enforceCachedRetention (s : CaptureSystem) : Bool × CaptureSystem :=
  enforceLoop (s.store.captures.length + 1) s false

def insert (s : CaptureSystem) (i : CaptureSequence) : Bool × CaptureSystem :=
  let captureBytes := s.recordBytes i
  let replaced := i ∈ s.store.captures
  let s := s.modifyCell i fun cell => { cell with records := cell.records - 1 }
  let s :=
    { s with store := { s.store with captures := insertSequence i s.store.captures } }
  let s := if replaced then s.forget i .explicitDelete else s
  let s :=
    { s with
      store :=
        { s.store with
          retainedBytes := satAdd s.store.retainedBytes captureBytes
          revision := nextStoreRevision s.store.revision } }
  let s := s.onRecord i RecordScope.bindChangeFeed
  s.enforceCachedRetention

def removeEach : List CaptureSequence → CaptureSystem → Nat → Nat × CaptureSystem
  | [], s, removed => (removed, s)
  | i :: rest, s, removed =>
    if i ∈ s.store.captures then
      removeEach rest
        ({ s with store := { s.store with captures := s.store.captures.erase i } }.forget i
          .explicitDelete)
        (removed + 1)
    else removeEach rest s removed

/-- The new revision after `removed` captures were taken out. -/
def afterRemoval (removed : Nat) (s : CaptureSystem) : CaptureSystem :=
  if removed > 0 then
    { s with store := { s.store with revision := nextStoreRevision s.store.revision } }
  else s

def removeSequences (s : CaptureSystem) (sequences : List CaptureSequence) :
    Nat × CaptureSystem :=
  let unique := sequences.foldl (fun unique i => insertSequence i unique) []
  let (removed, s) := removeEach unique s 0
  (removed, afterRemoval removed s)

def clear (s : CaptureSystem) : Nat × CaptureSystem :=
  let removed := s.store.captures.length
  let s := s.store.captures.foldl (fun s i => s.removeRecord i .clear) s
  let s := { s with store := { s.store with captures := [], retainedBytes := 0 } }
  (removed, afterRemoval removed s)

/-! ## Steps -/

/-- What an action does before unreferenced leases are dropped; `none` when its
caller does not hold the reference or the handle it needs. -/
def act (s : CaptureSystem) : CaptureAction → Option CaptureSystem
  | .tryStart input startedAt startedMono => some (s.tryStart input startedAt startedMono)
  | .receive =>
    match s.queue with
    | [] => none
    | i :: rest =>
      some ({ s with queue := rest }.modifyCell i
        fun cell => { cell with records := cell.records + 1 })
  | .dropReceiver => some { s with receiver := false, queue := [] }
  | .cloneRecord i =>
    if s.alive i then
      some (s.modifyCell i fun cell => { cell with records := cell.records + 1 })
    else none
  | .dropRecord i => do
      let cell ← s.cells[i]?
      if 0 < cell.records then
        some (s.modifyCell i fun cell => { cell with records := cell.records - 1 })
      else none
  | .takeSnapshot i =>
    if s.alive i then
      some (s.modifyCell i fun cell => { cell with snapshots := cell.snapshots + 1 })
    else none
  | .cloneSnapshot i => do
      let cell ← s.cells[i]?
      if 0 < cell.snapshots then
        some (s.modifyCell i fun cell => { cell with snapshots := cell.snapshots + 1 })
      else none
  | .dropSnapshot i => do
      let cell ← s.cells[i]?
      if 0 < cell.snapshots then
        some (s.modifyCell i fun cell => { cell with snapshots := cell.snapshots - 1 })
      else none
  | .cloneHandle i => do
      let cell ← s.cells[i]?
      if 0 < cell.handles then
        some (s.modifyCell i fun cell => { cell with handles := cell.handles + 1 })
      else none
  | .dropHandle i => do
      let cell ← s.cells[i]?
      if 0 < cell.handles then some (s.dropHandle i cell) else none
  | .setResponse i input instant => do
      let cell ← s.cells[i]?
      if 0 < cell.handles then some (s.setResponse i input instant) else none
  | .append i side bytes => do
      let cell ← s.cells[i]?
      if 0 < cell.handles then some (s.append i side bytes) else none
  | .finish i side terminal instant => do
      let cell ← s.cells[i]?
      if 0 < cell.handles then some (s.finish i side terminal instant) else none
  | .insert i => do
      let cell ← s.cells[i]?
      if 0 < cell.records then some (s.insert i).2 else none
  | .removeSequences sequences => some (s.removeSequences sequences).2
  | .clear => some s.clear.2
  | .evictOldest => some s.evictOldest.2
  | .dropStore => some { s with store := {} }

def step (s : CaptureSystem) (action : CaptureAction) : Option CaptureSystem :=
  (s.act action).map reap

/-- A capture that is started, filled, stored, answered and completed. -/
def sampleExchange : List CaptureAction :=
  [.tryStart
      { method := [71], originalUri := [97], effectiveUri := [97], localPath := none
        headers := [] } 0 0,
    .append 0 .request [1, 2, 3], .receive, .insert 0,
    .setResponse 0 { status := 200, headers := [] } 1, .append 0 .response [4],
    .finish 0 .request .complete 2, .finish 0 .response .complete 3]

end CaptureSystem

end Fluxcope.Capture
