import Fluxcope.Requests.RequestList
import Fluxcope.Requests.SearchService
/-!
# Search in the request list

The modes of the search, what the keys do to them, and the event loop that hands the
dispatch intent to the service and its outcomes back.
-/

namespace Fluxcope.Requests

open Fluxcope.Library Fluxcope.Library.Utf8 Fluxcope.Capture

inductive ActiveSearchProgress
  | pending
  | ready (results : SearchResults)
  | refreshing (results : SearchResults)
  | failed (results : Option SearchResults)
  deriving DecidableEq, Repr

structure ActiveSearch where
  query : Bytes
  key : SearchRequestKey
  progress : ActiveSearchProgress
  selectFirstWhenReady : Bool
  deriving DecidableEq, Repr

def ActiveSearch.results (active : ActiveSearch) : Option SearchResults :=
  match active.progress with
  | .pending | .failed none => none
  | .ready results | .refreshing results | .failed (some results) => some results

structure EditingRollback where
  selectedPath : List Bytes
  scrollOffset : Nat
  priorCommitted : Option ActiveSearch
  deriving DecidableEq, Repr

/-- `transientOpenings` maps a path to whether it was opened by auto-expansion. -/
structure EditingSearch where
  input : Bytes := []
  active : Option ActiveSearch := none
  rollback : EditingRollback
  transientOpenings : List (List Bytes × Bool) := []
  queryLimitReached : Bool := false
  deriving DecidableEq, Repr

inductive RequestSearchMode
  | idle
  | editing (editing : EditingSearch)
  | committed (active : ActiveSearch)
  deriving DecidableEq, Repr

inductive DispatchIntent
  | run (key : SearchRequestKey) (query : Bytes)
  | cancel
  deriving DecidableEq, Repr

inductive TransientOpeningReason
  | matchReveal
  | autoExpand
  deriving DecidableEq

structure EditingRestore where
  selectedPath : List Bytes
  scrollOffset : Nat
  pathsToClose : List (List Bytes)

inductive OutcomeApplication
  | ignored
  | applied (selectFirst : Bool)

structure RequestListSearch where
  mode : RequestSearchMode := .idle
  nextGeneration : Nat := 0
  dispatch : Option DispatchIntent := none
  deriving DecidableEq, Repr

/-- `wrapping_add(1)` on the generation. -/
def nextSearchGeneration (generation : Nat) : Nat := (generation + 1) % (wordMax + 1)

/-! ## Modes -/

namespace RequestListSearch

def isEditing (search : RequestListSearch) : Bool :=
  match search.mode with
  | .editing _ => true
  | .idle | .committed _ => false

def isCommitted (search : RequestListSearch) : Bool :=
  match search.mode with
  | .committed _ => true
  | .idle | .editing _ => false

def isActive (search : RequestListSearch) : Bool :=
  match search.mode with
  | .idle => false
  | .editing _ | .committed _ => true

/-- Editing starts from `priorCommitted`. -/
def startEditing (search : RequestListSearch) (selectedPath : List Bytes) (scrollOffset : Nat)
    (priorCommitted : Option ActiveSearch) : RequestListSearch :=
  { mode := .editing { rollback := { selectedPath, scrollOffset, priorCommitted } }
    nextGeneration := nextSearchGeneration search.nextGeneration
    dispatch := some .cancel }

def beginEditing (search : RequestListSearch) (selectedPath : List Bytes) (scrollOffset : Nat) :
    RequestListSearch :=
  match search.mode with
  | .committed committed => search.startEditing selectedPath scrollOffset (some committed)
  | .idle => search.startEditing selectedPath scrollOffset none
  | .editing _ => search

def modifyEditing (search : RequestListSearch) (f : EditingSearch → EditingSearch) :
    RequestListSearch :=
  match search.mode with
  | .editing editing => { search with mode := .editing (f editing) }
  | .idle | .committed _ => search

def markLimitReached (search : RequestListSearch) : RequestListSearch :=
  search.modifyEditing fun editing => { editing with queryLimitReached := true }

def activateEditedQuery (search : RequestListSearch) (treeRevision : Nat) : RequestListSearch :=
  match search.mode with
  | .idle | .committed _ => search
  | .editing editing =>
    let generation := nextSearchGeneration search.nextGeneration
    if editing.input = [] then
      { mode := .editing { editing with queryLimitReached := false, active := none }
        nextGeneration := generation
        dispatch := some .cancel }
    else
      let active : ActiveSearch :=
        { query := editing.input
          key := { generation, treeRevision }
          progress := .pending
          selectFirstWhenReady := true }
      { mode := .editing { editing with queryLimitReached := false, active := some active }
        nextGeneration := generation
        dispatch := some (.run active.key active.query) }

def active (search : RequestListSearch) : Option ActiveSearch :=
  match search.mode with
  | .idle => none
  | .editing editing => editing.active
  | .committed active => some active

/-- What is done through `active_mut`. -/
def setActive (search : RequestListSearch) (active : ActiveSearch) : RequestListSearch :=
  match search.mode with
  | .idle => search
  | .editing editing => { search with mode := .editing { editing with active := some active } }
  | .committed _ => { search with mode := .committed active }

def refreshProgress : ActiveSearchProgress → ActiveSearchProgress
  | .ready results | .refreshing results | .failed (some results) => .refreshing results
  | .pending | .failed none => .pending

def refreshForTree (search : RequestListSearch) (treeRevision : Nat) : RequestListSearch :=
  match search.active with
  | none => search
  | some active =>
    if active.key.treeRevision = treeRevision then search
    else
      let active :=
        { active with
          key := { active.key with treeRevision }
          progress := refreshProgress active.progress
          selectFirstWhenReady := false }
      { search.setActive active with dispatch := some (.run active.key active.query) }

def takeDispatchIntent (search : RequestListSearch) : Option DispatchIntent × RequestListSearch :=
  (search.dispatch, { search with dispatch := none })

def applyOutcome (search : RequestListSearch) (outcome : SearchJobOutcome) :
    OutcomeApplication × RequestListSearch :=
  match search.active with
  | none => (.ignored, search)
  | some active =>
    if active.key ≠ outcome.key then (.ignored, search)
    else
      match outcome with
      | .completed _ results =>
        (.applied active.selectFirstWhenReady,
          search.setActive
            { active with progress := .ready results, selectFirstWhenReady := false })
      | .cancelled _ => (.applied false, search)
      | .failed _ _ =>
        (.applied false,
          search.setActive
            { active with progress := .failed active.results, selectFirstWhenReady := false })

def commitEditing (search : RequestListSearch) : RequestListSearch :=
  match search.mode with
  | .idle | .committed _ => search
  | .editing editing =>
    match editing.active with
    | none => search
    | some active => { search with mode := .committed active }

def cancelEditing (search : RequestListSearch) : Option (EditingRestore × RequestListSearch) :=
  match search.mode with
  | .idle | .committed _ => none
  | .editing editing =>
    let restore : EditingRestore :=
      { selectedPath := editing.rollback.selectedPath
        scrollOffset := editing.rollback.scrollOffset
        pathsToClose := editing.transientOpenings.map Prod.fst }
    let mode :=
      match editing.rollback.priorCommitted with
      | none => .idle
      | some active => .committed active
    some (restore, { search with mode, dispatch := some .cancel })

def clearCommitted (search : RequestListSearch) : Bool × RequestListSearch :=
  if search.isCommitted then (true, { search with mode := .idle, dispatch := some .cancel })
  else (false, search)

def rollbackSelectionAndOffset (search : RequestListSearch) : Option (List Bytes × Nat) :=
  match search.mode with
  | .editing editing => some (editing.rollback.selectedPath, editing.rollback.scrollOffset)
  | .idle | .committed _ => none

def clearMatchRevealReasons (search : RequestListSearch) : List (List Bytes) × RequestListSearch :=
  match search.mode with
  | .idle | .committed _ => ([], search)
  | .editing editing =>
    ((editing.transientOpenings.filter fun opening => !opening.2).map Prod.fst,
      search.modifyEditing fun editing =>
        { editing with
          transientOpenings := editing.transientOpenings.filter fun opening => opening.2 })

def noteTransientOpening (search : RequestListSearch) (path : List Bytes)
    (reason : TransientOpeningReason) (newlyOpened : Bool) : RequestListSearch :=
  search.modifyEditing fun editing =>
    match editing.transientOpenings.lookup path with
    | none =>
      if newlyOpened then
        { editing with
          transientOpenings := (path, reason = .autoExpand) :: editing.transientOpenings }
      else editing
    | some _ =>
      if reason = .autoExpand then
        { editing with
          transientOpenings := Assoc.modify editing.transientOpenings path fun _ => true }
      else editing

def results (search : RequestListSearch) : Option SearchResults :=
  search.active.bind ActiveSearch.results

end RequestListSearch

/-! ## The list with its search -/

/-- The parts of `App` that the search works on; of the captures only their revision and
the tree that `from_requests` makes of them. -/
structure SearchApp (σ : Type) where
  capturesTree : RequestTreeModel := {}
  capturesRevision : Nat := 0
  requestTree : RequestTreeModel := {}
  requestTreeRevision : Nat := 0
  state : σ
  scrollOffset : Nat := 0
  search : RequestListSearch := {}

/-- What editing the input led to. -/
inductive InputEdit
  | unchanged
  | limitReached
  | changed (text : Bytes)

inductive SearchEditKey
  | esc
  | enter
  | input (edit : InputEdit)

def maxStaleMatchProbes : Nat := 64

namespace SearchApp

variable {σ : Type} (widget : TreeWidget σ)

def ensureRequestTreeModel (app : SearchApp σ) : SearchApp σ :=
  if app.capturesRevision = app.requestTreeRevision then app
  else
    { app with
      requestTree := app.capturesTree
      requestTreeRevision := app.capturesRevision
      search := app.search.refreshForTree app.capturesRevision }

def closePaths (app : SearchApp σ) (paths : List (List Bytes)) : SearchApp σ :=
  { app with state := paths.foldl widget.close app.state }

def beginRequestSearch (app : SearchApp σ) : SearchApp σ :=
  if app.search.isEditing then app
  else
    { app with search := app.search.beginEditing (widget.selected app.state) app.scrollOffset }

def restoreRequestSearchSelection (app : SearchApp σ) (selected : List Bytes) : SearchApp σ :=
  let app := app.ensureRequestTreeModel
  if selected = [] || app.requestTree.contains selected then
    { app with state := widget.select app.state selected }
  else if !app.requestTree.contains (widget.selected app.state) then
    { app with state := widget.select app.state [] }
  else app

/-- Scrolling down stops at the last row that was drawn. -/
def restoreScrollOffset (app : SearchApp σ) (offset : Nat) : SearchApp σ :=
  let current := app.scrollOffset
  { app with
    scrollOffset :=
      if current < offset then
        min (current + (offset - current)) ((widget.rows app.state).length - 1)
      else current - (current - offset) }

/-- The longest paths are closed first. -/
def deepestFirst (paths : List (List Bytes)) : List (List Bytes) :=
  (paths.mergeSort fun path other => path.length ≤ other.length).reverse

def restoreRequestSearchEditingBaseline (app : SearchApp σ) : SearchApp σ :=
  let (pathsToClose, search) := app.search.clearMatchRevealReasons
  let app := { app with search }.closePaths widget (deepestFirst pathsToClose)
  match app.search.rollbackSelectionAndOffset with
  | none => app
  | some (selected, scrollOffset) =>
    (app.restoreRequestSearchSelection widget selected).restoreScrollOffset widget scrollOffset

/-- An edit has changed the input already. -/
def applyRequestSearchInputEdit (app : SearchApp σ) (edit : InputEdit) : SearchApp σ :=
  match edit with
  | .unchanged => app
  | .limitReached => { app with search := app.search.markLimitReached }
  | .changed input =>
    let search := app.search.modifyEditing fun editing => { editing with input }
    let app := { app with search }.restoreRequestSearchEditingBaseline widget
    let app := app.ensureRequestTreeModel
    { app with search := app.search.activateEditedQuery app.requestTreeRevision }

def cancelRequestSearchEditing (app : SearchApp σ) : SearchApp σ :=
  match app.search.cancelEditing with
  | none => app
  | some (restore, search) =>
    let app := { app with search }.closePaths widget (deepestFirst restore.pathsToClose)
    let app := app.restoreRequestSearchSelection widget restore.selectedPath
    let app := (app.restoreScrollOffset widget restore.scrollOffset).ensureRequestTreeModel
    { app with search := app.search.refreshForTree app.requestTreeRevision }

def handleRequestSearchEditKey (app : SearchApp σ) (key : SearchEditKey) : SearchApp σ :=
  match app.search.mode with
  | .idle | .committed _ => app
  | .editing editing =>
    match key with
    | .esc => app.cancelRequestSearchEditing widget
    | .enter =>
      if editing.input = [] then app.cancelRequestSearchEditing widget
      else { app with search := app.search.commitEditing }
    | .input edit => app.applyRequestSearchInputEdit widget edit

def clearCommittedRequestSearch (app : SearchApp σ) : Bool × SearchApp σ :=
  let (cleared, search) := app.search.clearCommitted
  (cleared, { app with search })

def takeRequestSearchDispatch (app : SearchApp σ) : Option DispatchIntent × SearchApp σ :=
  let app :=
    if app.search.isActive && app.capturesRevision ≠ app.requestTreeRevision then
      app.ensureRequestTreeModel
    else app
  let (intent, search) := app.search.takeDispatchIntent
  (intent, { app with search })

/-- A path is opened, and noted if it was closed. -/
def openNoting (app : SearchApp σ) (path : List Bytes) (reason : TransientOpeningReason) :
    SearchApp σ :=
  let newlyOpened := decide (path ≠ [] ∧ path ∉ widget.opened app.state)
  { app with
    state := widget.openPath app.state path
    search := app.search.noteTransientOpening path reason newlyOpened }

def noteAutoExpandOpening (app : SearchApp σ) (path : List Bytes) : SearchApp σ :=
  app.openNoting widget path .autoExpand

def revealRequestSearchMatch (app : SearchApp σ) (path : List Bytes) (editingReveal : Bool) :
    SearchApp σ :=
  let ancestors := (List.range (path.length - 1)).map fun length => path.take (length + 1)
  let app :=
    if editingReveal then
      let (pathsToClose, search) := app.search.clearMatchRevealReasons
      let app := { app with search }.closePaths widget pathsToClose.reverse
      ancestors.foldl (fun app ancestor => app.openNoting widget ancestor .matchReveal) app
    else { app with state := ancestors.foldl widget.openPath app.state }
  { app with state := widget.select app.state path }

def applyRequestSearchOutcome (app : SearchApp σ) (outcome : SearchJobOutcome) : SearchApp σ :=
  match app.search.applyOutcome outcome with
  | (.ignored, _) => app
  | (.applied selectFirst, search) =>
    let app := { app with search }
    if selectFirst then
      let found := (search.results.getD []).find? fun searchMatch =>
        app.requestTree.contains searchMatch.path
      match found with
      | none => app
      | some firstMatch => app.revealRequestSearchMatch widget firstMatch.path true
    else app

/-- `partition_point` on the positions of the matches. -/
def startIndex (results : SearchResults) (forward : Bool) : Option Nat → Nat
  | some position =>
    if forward then
      (results.takeWhile fun searchMatch => searchMatch.logicalPosition ≤ position).length
    else
      match (results.takeWhile fun searchMatch =>
        searchMatch.logicalPosition < position).length with
      | 0 => results.length - 1
      | before + 1 => before
  | none => if forward then 0 else results.length - 1

def navigateRequestSearch (app : SearchApp σ) (forward : Bool) : SearchApp σ :=
  if !app.search.isCommitted then app
  else
    let app := app.ensureRequestTreeModel
    let results := app.search.results.getD []
    if app.requestTree.isEmpty || results.isEmpty then app
    else
      let position := app.requestTree.logicalPosition (widget.selected app.state)
      let start := startIndex results forward position
      let candidates := (List.range (min results.length maxStaleMatchProbes)).filterMap fun step =>
        results[if forward then (start + step) % results.length
          else (start + results.length - step) % results.length]?
      match candidates.find? fun candidate => app.requestTree.contains candidate.path with
      | none => app
      | some candidate => app.revealRequestSearchMatch widget candidate.path false

end SearchApp

/-! ## The event loop and the service -/

structure SearchSystem (σ : Type) where
  app : SearchApp σ
  service : RequestSearchService := {}

/-- `setCaptures` and `setState` stand for what the rest of the program does to the captures
and to the widget. -/
inductive SearchEvent (σ : Type)
  | beginRequestSearch
  | editKey (key : SearchEditKey)
  | clearCommittedRequestSearch
  | navigateRequestSearch (forward : Bool)
  | setCaptures (tree : RequestTreeModel)
  | setState (state : σ) (scrollOffset : Nat)
  | noteAutoExpandOpening (path : List Bytes)
  | ensureRequestTreeModel
  | dispatchPendingRequestSearch
  | applyResults
  | service (action : SearchServiceAction)

namespace SearchSystem

variable {σ : Type} (widget : TreeWidget σ) (search : Bytes → RequestTreeModel → SearchResults)

def new : SearchSystem σ := { app := { state := widget.default } }

def dispatchPendingRequestSearch (s : SearchSystem σ) : SearchSystem σ :=
  match s.app.takeRequestSearchDispatch with
  | (some (.run key query), app) =>
    { app, service := s.service.submit { key, query, tree := app.requestTree } }
  | (some .cancel, app) => { app, service := s.service.cancel }
  | (none, app) => { s with app }

/-- The event loop is woken by a change of the results only. -/
def applyResults (s : SearchSystem σ) : Option (SearchSystem σ) :=
  if s.service.results.changed then
    let service := { s.service with results := s.service.results.update }
    match s.service.results.value with
    | none => some { s with service }
    | some outcome => some { app := s.app.applyRequestSearchOutcome widget outcome, service }
  else none

def onApp (s : SearchSystem σ) (app : SearchApp σ) : Option (SearchSystem σ) := some { s with app }

def step (s : SearchSystem σ) : SearchEvent σ → Option (SearchSystem σ)
  | .beginRequestSearch => s.onApp (s.app.beginRequestSearch widget)
  | .editKey key => s.onApp (s.app.handleRequestSearchEditKey widget key)
  | .clearCommittedRequestSearch => s.onApp s.app.clearCommittedRequestSearch.2
  | .navigateRequestSearch forward => s.onApp (s.app.navigateRequestSearch widget forward)
  | .setCaptures capturesTree =>
    s.onApp
      { s.app with
        capturesTree
        capturesRevision := CaptureSystem.nextStoreRevision s.app.capturesRevision }
  | .setState state scrollOffset => s.onApp { s.app with state, scrollOffset }
  | .noteAutoExpandOpening path => s.onApp (s.app.noteAutoExpandOpening widget path)
  | .ensureRequestTreeModel => s.onApp s.app.ensureRequestTreeModel
  | .dispatchPendingRequestSearch => some s.dispatchPendingRequestSearch
  | .applyResults => s.applyResults widget
  | .service action => (s.service.act search action).map fun service => { s with service }

end SearchSystem

end Fluxcope.Requests
