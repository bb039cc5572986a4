import Fluxcope.Requests.RequestTree
import Fluxcope.Capture.System
/-!
# The request list

The store of the captures, the tree that is built from it on demand, and the state of the
tree widget, which keeps the opened and the selected paths by itself.  The widget is not
part of the repository; the list goes through the interface below.
-/

namespace Fluxcope.Requests

open Fluxcope.Library Fluxcope.Library.Utf8 Fluxcope.Capture

/-! ## The widget -/

/-- `TreeState`; `rows` are the rows that were drawn last. -/
structure TreeWidget (σ : Type) where
  default : σ
  opened : σ → List (List Bytes)
  selected : σ → List Bytes
  rows : σ → List (List Bytes)
  select : σ → List Bytes → σ
  openPath : σ → List Bytes → σ
  close : σ → List Bytes → σ
  toggle : σ → List Bytes → σ
  closeAll : σ → σ
  keyDown : σ → σ
  keyUp : σ → σ
  keyLeft : σ → σ
  clickAt : σ → Nat × Nat → σ
  render : σ → (List (List Bytes) → List (List Bytes)) → σ

/-- What the widget documents. -/
structure TreeWidget.Lawful {σ : Type} (widget : TreeWidget σ) : Prop where
  opened_default : widget.opened widget.default = []
  selected_default : widget.selected widget.default = []
  opened_select : ∀ s path, widget.opened (widget.select s path) = widget.opened s
  selected_select : ∀ s path, widget.selected (widget.select s path) = path
  mem_opened_open : ∀ s path other, other ∈ widget.opened (widget.openPath s path) ↔
    other ∈ widget.opened s ∨ path ≠ [] ∧ other = path
  selected_open : ∀ s path, widget.selected (widget.openPath s path) = widget.selected s
  mem_opened_close : ∀ s path other, other ∈ widget.opened (widget.close s path) ↔
    other ∈ widget.opened s ∧ other ≠ path
  selected_close : ∀ s path, widget.selected (widget.close s path) = widget.selected s
  toggle : ∀ s path, widget.toggle s path =
    if path ∈ widget.opened s then widget.close s path else widget.openPath s path
  opened_closeAll : ∀ s, widget.opened (widget.closeAll s) = []
  selected_closeAll : ∀ s, widget.selected (widget.closeAll s) = widget.selected s
  opened_keyDown : ∀ s, widget.opened (widget.keyDown s) = widget.opened s
  selected_keyDown : ∀ s, widget.selected (widget.keyDown s) = [] ∨
    widget.selected (widget.keyDown s) ∈ widget.rows s
  opened_keyUp : ∀ s, widget.opened (widget.keyUp s) = widget.opened s
  selected_keyUp : ∀ s, widget.selected (widget.keyUp s) = [] ∨
    widget.selected (widget.keyUp s) ∈ widget.rows s
  keyLeft : ∀ s, widget.keyLeft s =
    if widget.selected s ∈ widget.opened s then widget.close s (widget.selected s)
    else widget.select s (widget.selected s).dropLast
  clickAt : ∀ s position, widget.clickAt s position = s ∨ ∃ row ∈ widget.rows s,
    widget.clickAt s position =
      if row = widget.selected s then widget.toggle s row else widget.select s row
  opened_render : ∀ s flatten, widget.opened (widget.render s flatten) = widget.opened s
  selected_render : ∀ s flatten, widget.selected (widget.render s flatten) = widget.selected s
  rows_render : ∀ s flatten, widget.rows (widget.render s flatten) = flatten (widget.opened s)

/-! ## The selection after a delete -/

structure DeleteSelectionContext where
  deletedPath : List Bytes
  treeBeforeDelete : RequestTreeModel
  treeAfterDelete : RequestTreeModel
  visiblePaths : List (List Bytes)

namespace DeleteSelectionContext

def firstRemovedPrefix (context : DeleteSelectionContext) : Option (List Bytes) :=
  ((List.range context.deletedPath.length).map fun length =>
    context.deletedPath.take (length + 1)).find? fun removed =>
      context.treeBeforeDelete.contains removed && !context.treeAfterDelete.contains removed

def deepestVisibleDescendant (context : DeleteSelectionContext) (path : List Bytes) :
    Option (List Bytes) :=
  context.visiblePaths.reverse.find? fun visiblePath => path.isPrefixOf visiblePath

/-- The row near the deleted ones, if there is one. -/
def neighborRow (context : DeleteSelectionContext) : Option (List Bytes) := do
  let deletedStartPath ← context.firstRemovedPrefix
  let (previousSibling, nextSibling) := context.treeBeforeDelete.neighboringPaths deletedStartPath
  let previous :=
    (previousSibling.filter fun path => context.treeAfterDelete.contains path).bind fun path =>
      context.deepestVisibleDescendant path
  let next :=
    (nextSibling.filter fun path => context.treeAfterDelete.contains path).filter fun path =>
      path ∈ context.visiblePaths
  previous.or next

def selectedPath (context : DeleteSelectionContext) : List Bytes :=
  (context.neighborRow.or context.visiblePaths.head?).getD []

end DeleteSelectionContext

/-! ## The list -/

/-- The parts of `App` behind the request list; of the search only whether it is active. -/
structure RequestListApp (σ : Type) where
  captures : CaptureSystem
  state : σ
  autoExpand : Bool
  searchActive : Bool
  requestTree : RequestTreeModel
  requestTreeRevision : Nat

/-- `captures()`: the summaries of the stored captures in the order of the store. -/
def summaries (captures : CaptureSystem) : List CaptureSummary :=
  captures.store.captures.filterMap fun i =>
    captures.cells[i]?.map fun cell =>
      { sequence := cell.record.sequence, request := cell.record.request }

namespace RequestListApp

variable {σ : Type} (parse : Bytes → Option Url) (widget : TreeWidget σ)

def new (policy : CapturePolicy) (retention : CaptureRetentionPolicy) (autoExpand : Bool) :
    RequestListApp σ :=
  { captures := .new policy retention
    state := widget.default
    autoExpand
    searchActive := false
    requestTree := {}
    requestTreeRevision := 0 }

def ensureRequestTreeModel (app : RequestListApp σ) : Option (RequestListApp σ) :=
  if app.captures.store.revision = app.requestTreeRevision then some app
  else do
    let requestTree ← RequestTreeModel.fromRequests parse (summaries app.captures)
    some { app with requestTree, requestTreeRevision := app.captures.store.revision }

def repairRequestListAfterRetentionEviction (app : RequestListApp σ) :
    Option (RequestListApp σ) := do
  let app ← app.ensureRequestTreeModel parse
  let tree := app.requestTree
  let opened := (widget.opened app.state).filter fun path => tree.contains path
  let visible := tree.visiblePaths opened
  let selected := widget.selected app.state
  some
    (if tree.contains selected then app
    else { app with state := widget.select app.state (visible.head?.getD []) })

/-- The last steps of `add_capture`. -/
def showEntry (app : RequestListApp σ) (entry : RequestTreeEntry) (wasEmpty : Bool) :
    RequestListApp σ :=
  let state :=
    if app.autoExpand then entry.branchPaths.foldl widget.openPath app.state else app.state
  let state :=
    if wasEmpty && !app.searchActive then
      if app.autoExpand then widget.select state entry.requestPath
      else widget.select state [originIdentifier entry.origin]
    else state
  { app with state }

/-- The caller holds the record. -/
def addCapture (app : RequestListApp σ) (i : CaptureSequence) : Option (RequestListApp σ) := do
  let cell ← app.captures.cells[i]?
  if cell.records = 0 then none
  else
    let wasEmpty := app.captures.store.captures.isEmpty
    let treeEntry := RequestTreeEntry.ofSummary parse
      { sequence := cell.record.sequence, request := cell.record.request }
    let (evicted, captures) := app.captures.insert i
    let app := { app with captures := captures.reap }
    let app ←
      if evicted then app.repairRequestListAfterRetentionEviction parse widget else some app
    some (app.showEntry widget treeEntry wasEmpty)

def evictOldestCapture (app : RequestListApp σ) : Option (RequestListApp σ) :=
  match app.captures.evictOldest with
  | (none, _) => some app
  | (some _, captures) =>
    { app with captures := captures.reap }.repairRequestListAfterRetentionEviction parse widget

def rebuildRequestListStateAfterDelete (app : RequestListApp σ) (deletedPath : List Bytes)
    (treeBeforeDelete : RequestTreeModel) : Option (RequestListApp σ) := do
  let app ← app.ensureRequestTreeModel parse
  let treeAfterDelete := app.requestTree
  let openedPathsBeforeDelete := widget.opened app.state
  let preservedOpenedPaths := openedPathsBeforeDelete.filter fun path =>
    treeAfterDelete.contains path
  let visiblePaths := treeAfterDelete.visiblePaths preservedOpenedPaths
  let pathToSelect := DeleteSelectionContext.selectedPath
    { deletedPath, treeBeforeDelete, treeAfterDelete, visiblePaths }
  let state := openedPathsBeforeDelete.foldl
    (fun state openedPath =>
      if treeAfterDelete.contains openedPath then state else widget.close state openedPath)
    app.state
  some { app with state := widget.select state pathToSelect }

/-- The number of the removed requests, and the list. -/
def deleteSelectedRequests (app : RequestListApp σ) : Option (Nat × RequestListApp σ) :=
  let selectedPath := widget.selected app.state
  if selectedPath = [] then some (0, app)
  else do
    let app ← app.ensureRequestTreeModel parse
    let treeBeforeDelete := app.requestTree
    let sequences := treeBeforeDelete.sequencesUnder selectedPath
    let (removedCount, captures) := app.captures.removeSequences sequences
    let app := { app with captures := captures.reap }
    let app ←
      if removedCount > 0 then
        app.rebuildRequestListStateAfterDelete parse widget selectedPath treeBeforeDelete
      else some app
    some (removedCount, app)

def clearRequests (app : RequestListApp σ) : RequestListApp σ :=
  { app with captures := app.captures.clear.2.reap, state := widget.default }

/-! ## Moving, opening and closing -/

def selectedRequestSubtreePath (app : RequestListApp σ) : Option (List Bytes) :=
  let selectedPath := widget.selected app.state
  if selectedPath = [] || (selectedRequestSequence selectedPath).isSome then none
  else some selectedPath

def toggleSelectedRequestSubtree (app : RequestListApp σ) : RequestListApp σ :=
  match app.selectedRequestSubtreePath widget with
  | none => app
  | some selectedPath => { app with state := widget.toggle app.state selectedPath }

def openSelectedRequestSubtree (app : RequestListApp σ) : RequestListApp σ :=
  match app.selectedRequestSubtreePath widget with
  | none => app
  | some selectedPath => { app with state := widget.openPath app.state selectedPath }

def openMatchingRequestTreeBranchPaths (app : RequestListApp σ)
    (shouldOpen : List Bytes → Bool) : Option (RequestListApp σ) := do
  let app ← app.ensureRequestTreeModel parse
  let state := (app.requestTree.branchPaths.filter shouldOpen).foldl widget.openPath app.state
  some { app with state }

def expandSelectedRequestSubtree (app : RequestListApp σ) : Option (RequestListApp σ) :=
  match app.selectedRequestSubtreePath widget with
  | none => some app
  | some selectedPath =>
    app.openMatchingRequestTreeBranchPaths parse widget fun path => selectedPath.isPrefixOf path

def expandAllRequestSubtrees (app : RequestListApp σ) : Option (RequestListApp σ) :=
  app.openMatchingRequestTreeBranchPaths parse widget fun _ => true

def collapseAllRequestSubtrees (app : RequestListApp σ) : RequestListApp σ :=
  let state := widget.closeAll app.state
  match (widget.selected app.state).head? with
  | none => { app with state }
  | some origin => { app with state := widget.select state [origin] }

def collapseSelectedRequestSubtreeChildren (app : RequestListApp σ) : RequestListApp σ :=
  match app.selectedRequestSubtreePath widget with
  | none => app
  | some selectedPath =>
    let childOpenedPaths := (widget.opened app.state).filter fun path =>
      path.length > selectedPath.length && selectedPath.isPrefixOf path
    let state := childOpenedPaths.foldl widget.close app.state
    { app with state := widget.openPath state selectedPath }

/-- Drawing builds the tree anew if it has to. -/
def draw (app : RequestListApp σ) : Option (RequestListApp σ) := do
  let app ← app.ensureRequestTreeModel parse
  some { app with state := widget.render app.state app.requestTree.visiblePaths }

end RequestListApp

/-! ## Steps -/

inductive RequestListEvent
  | capture (action : CaptureAction)
  | addCapture (i : CaptureSequence)
  | evictOldestCapture
  | deleteSelectedRequests
  | clearRequests
  | next
  | previous
  | keyLeft
  | clickAt (position : Nat × Nat)
  | toggleSelectedRequestSubtree
  | openSelectedRequestSubtree
  | expandSelectedRequestSubtree
  | expandAllRequestSubtrees
  | collapseAllRequestSubtrees
  | collapseSelectedRequestSubtreeChildren
  | draw
  | setAutoExpand (autoExpand : Bool)
  | setSearchActive (searchActive : Bool)

/-- The actions on captures that the request list performs. -/
def ofStore : CaptureAction → Bool
  | .insert _ | .removeSequences _ | .clear | .evictOldest | .dropStore => true
  | _ => false

namespace RequestListApp

variable {σ : Type} (parse : Bytes → Option Url) (widget : TreeWidget σ)

def step (app : RequestListApp σ) : RequestListEvent → Option (RequestListApp σ)
  | .capture action =>
    if ofStore action then none
    else (app.captures.step action).map fun captures => { app with captures }
  | .addCapture i => app.addCapture parse widget i
  | .evictOldestCapture => app.evictOldestCapture parse widget
  | .deleteSelectedRequests => (app.deleteSelectedRequests parse widget).map Prod.snd
  | .clearRequests => some (app.clearRequests widget)
  | .next => some { app with state := widget.keyDown app.state }
  | .previous => some { app with state := widget.keyUp app.state }
  | .keyLeft => some { app with state := widget.keyLeft app.state }
  | .clickAt position => some { app with state := widget.clickAt app.state position }
  | .toggleSelectedRequestSubtree => some (app.toggleSelectedRequestSubtree widget)
  | .openSelectedRequestSubtree => some (app.openSelectedRequestSubtree widget)
  | .expandSelectedRequestSubtree => app.expandSelectedRequestSubtree parse widget
  | .expandAllRequestSubtrees => app.expandAllRequestSubtrees parse widget
  | .collapseAllRequestSubtrees => some (app.collapseAllRequestSubtrees widget)
  | .collapseSelectedRequestSubtreeChildren =>
    some (app.collapseSelectedRequestSubtreeChildren widget)
  | .draw => app.draw parse widget
  | .setAutoExpand autoExpand => some { app with autoExpand }
  | .setSearchActive searchActive => some { app with searchActive }

end RequestListApp

end Fluxcope.Requests
