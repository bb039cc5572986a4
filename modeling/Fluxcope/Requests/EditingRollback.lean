import Fluxcope.Requests.RequestListSearch
import Fluxcope.Requests.RequestListSpec
import Fluxcope.Library.Run
/-!
# Cancelling an edit of the search

While a query is edited, matches and new captures open paths.  The search keeps the paths
that were closed before, and closes them again when the edit is cancelled.
-/

namespace Fluxcope.Requests

open Fluxcope.Library Fluxcope.Library.Utf8 Fluxcope.Capture

/-- The rows change when the widget is drawn only. -/
structure TreeWidget.KeepsRows {σ : Type} (widget : TreeWidget σ) : Prop where
  select : ∀ s path, widget.rows (widget.select s path) = widget.rows s
  openPath : ∀ s path, widget.rows (widget.openPath s path) = widget.rows s
  close : ∀ s path, widget.rows (widget.close s path) = widget.rows s

/-- What happens between the beginning of an edit and its end.  A key and a paste both
edit the input; the tree of a new capture is that of all captures. -/
inductive EditingEvent
  | input (edit : InputEdit)
  | outcome (outcome : SearchJobOutcome)
  | addCapture (tree : RequestTreeModel) (entry : RequestTreeEntry) (autoExpand wasEmpty : Bool)
  | ensureRequestTreeModel
  | takeRequestSearchDispatch
  | draw (rows : List (List Bytes)) (scrollOffset : Nat)

namespace SearchApp

variable {σ : Type} (widget : TreeWidget σ)

/-- `add_capture`, when the store evicts nothing. -/
def addCapture (app : SearchApp σ) (tree : RequestTreeModel) (entry : RequestTreeEntry)
    (autoExpand wasEmpty : Bool) : SearchApp σ :=
  let app :=
    { app with
      capturesTree := tree
      capturesRevision := CaptureSystem.nextStoreRevision app.capturesRevision }
  let app :=
    if autoExpand then
      entry.branchPaths.foldl (fun app branch => app.noteAutoExpandOpening widget branch) app
    else app
  if wasEmpty && !app.search.isActive then
    { app with
      state := widget.select app.state
        (if autoExpand then entry.requestPath else [originIdentifier entry.origin]) }
  else app

/-- Drawing scrolls the selection into view. -/
def draw (app : SearchApp σ) (rows : List (List Bytes)) (scrollOffset : Nat) : SearchApp σ :=
  let app := app.ensureRequestTreeModel
  { app with state := widget.render app.state fun _ => rows, scrollOffset }

def editingStep (app : SearchApp σ) : EditingEvent → Option (SearchApp σ)
  | .input edit => some (app.handleRequestSearchEditKey widget (.input edit))
  | .outcome outcome => some (app.applyRequestSearchOutcome widget outcome)
  | .addCapture tree entry autoExpand wasEmpty =>
    some (app.addCapture widget tree entry autoExpand wasEmpty)
  | .ensureRequestTreeModel => some app.ensureRequestTreeModel
  | .takeRequestSearchDispatch => some app.takeRequestSearchDispatch.2
  | .draw rows scrollOffset => some (app.draw widget rows scrollOffset)

/-- A new capture takes no path away, and the rows that are drawn reach down to the scroll
offset at the beginning. -/
def Undisturbed (scrollOffset : Nat) (app : SearchApp σ) : EditingEvent → Prop
  | .addCapture tree _ _ _ =>
    ∀ path, app.capturesTree.contains path = true → tree.contains path = true
  | .draw rows _ => scrollOffset ≤ rows.length - 1
  | .input _ | .outcome _ | .ensureRequestTreeModel | .takeRequestSearchDispatch => True

end SearchApp

/-- The same mode with the same query and the same results. -/
def SameMode : RequestSearchMode → RequestSearchMode → Prop
  | .idle, .idle => True
  | .committed active, .committed other =>
    active.query = other.query ∧ active.results = other.results
  | _, _ => False

/-- What an edit that is cancelled leaves behind. -/
structure RolledBack {σ : Type} (widget : TreeWidget σ) (before after : SearchApp σ) : Prop where
  opened : ∀ path, path ∈ widget.opened after.state ↔ path ∈ widget.opened before.state
  selected : widget.selected after.state = widget.selected before.state
  scrollOffset : after.scrollOffset = before.scrollOffset
  mode : SameMode before.search.mode after.search.mode

/-! ## The mode -/

namespace RequestListSearch

variable {search : RequestListSearch} {rollback : EditingRollback}
  {openings : List (List Bytes × Bool)}

/-- A query is edited, and the edit can be rolled back. -/
def EditedWith (search : RequestListSearch) (rollback : EditingRollback)
    (openings : List (List Bytes × Bool)) : Prop :=
  ∃ editing, search.mode = .editing editing ∧ editing.rollback = rollback ∧
    editing.transientOpenings = openings

theorem editedWith_beginEditing (h : search.isEditing = false) (selectedPath : List Bytes)
    (scrollOffset : Nat) :
    (search.beginEditing selectedPath scrollOffset).EditedWith
      { selectedPath, scrollOffset, priorCommitted := search.active } [] := by
  obtain ⟨mode, nextGeneration, dispatch⟩ := search
  cases mode with
  | idle => exact ⟨_, rfl, rfl, rfl⟩
  | committed active => exact ⟨_, rfl, rfl, rfl⟩
  | editing editing => cases h

theorem EditedWith.modifyEditing (h : search.EditedWith rollback openings)
    {f : EditingSearch → EditingSearch}
    (hrollback : ∀ editing, (f editing).rollback = editing.rollback)
    (hopenings : ∀ editing, (f editing).transientOpenings = editing.transientOpenings) :
    (search.modifyEditing f).EditedWith rollback openings := by
  obtain ⟨editing, hmode, rfl, rfl⟩ := h
  unfold RequestListSearch.modifyEditing
  rw [hmode]
  exact ⟨f editing, rfl, hrollback editing, hopenings editing⟩

theorem EditedWith.setActive (h : search.EditedWith rollback openings) (active : ActiveSearch) :
    (search.setActive active).EditedWith rollback openings := by
  obtain ⟨editing, hmode, rfl, rfl⟩ := h
  unfold RequestListSearch.setActive
  rw [hmode]
  exact ⟨_, rfl, rfl, rfl⟩

theorem EditedWith.activateEditedQuery (h : search.EditedWith rollback openings)
    (treeRevision : Nat) :
    (search.activateEditedQuery treeRevision).EditedWith rollback openings := by
  obtain ⟨editing, hmode, rfl, rfl⟩ := h
  unfold RequestListSearch.activateEditedQuery
  rw [hmode]
  dsimp only
  split
  · exact ⟨_, rfl, rfl, rfl⟩
  · exact ⟨_, rfl, rfl, rfl⟩

theorem EditedWith.refreshForTree (h : search.EditedWith rollback openings) (treeRevision : Nat) :
    (search.refreshForTree treeRevision).EditedWith rollback openings := by
  unfold RequestListSearch.refreshForTree
  cases search.active with
  | none => exact h
  | some active =>
    dsimp only
    split
    · exact h
    · obtain ⟨editing, hmode, hrollback, hopenings⟩ := h.setActive
        { active with
          key := { active.key with treeRevision }
          progress := refreshProgress active.progress
          selectFirstWhenReady := false }
      exact ⟨editing, hmode, hrollback, hopenings⟩

theorem EditedWith.applyOutcome (h : search.EditedWith rollback openings)
    (outcome : SearchJobOutcome) :
    (search.applyOutcome outcome).2.EditedWith rollback openings := by
  unfold RequestListSearch.applyOutcome
  cases search.active with
  | none => exact h
  | some active =>
    dsimp only
    split
    · exact h
    · cases outcome with
      | completed key results => exact h.setActive _
      | cancelled key => exact h
      | failed key message => exact h.setActive _

theorem EditedWith.clearMatchRevealReasons (h : search.EditedWith rollback openings) :
    search.clearMatchRevealReasons.1 = (openings.filter fun opening => !opening.2).map Prod.fst ∧
      search.clearMatchRevealReasons.2.EditedWith rollback
        (openings.filter fun opening => opening.2) := by
  obtain ⟨editing, hmode, rfl, rfl⟩ := h
  unfold RequestListSearch.clearMatchRevealReasons RequestListSearch.modifyEditing
  rw [hmode]
  exact ⟨rfl, _, rfl, rfl, rfl⟩

/-- The openings after a path is opened. -/
def noted (openings : List (List Bytes × Bool)) (path : List Bytes)
    (reason : TransientOpeningReason) (newlyOpened : Bool) : List (List Bytes × Bool) :=
  match openings.lookup path with
  | none => if newlyOpened then (path, reason = .autoExpand) :: openings else openings
  | some _ =>
    if reason = .autoExpand then Assoc.modify openings path fun _ => true else openings

theorem EditedWith.noteTransientOpening (h : search.EditedWith rollback openings)
    (path : List Bytes) (reason : TransientOpeningReason) (newlyOpened : Bool) :
    (search.noteTransientOpening path reason newlyOpened).EditedWith rollback
      (noted openings path reason newlyOpened) := by
  obtain ⟨editing, hmode, rfl, rfl⟩ := h
  unfold RequestListSearch.noteTransientOpening RequestListSearch.modifyEditing noted
  rw [hmode]
  dsimp only
  cases editing.transientOpenings.lookup path with
  | none =>
    dsimp only
    split
    · exact ⟨_, rfl, rfl, rfl⟩
    · exact ⟨_, rfl, rfl, rfl⟩
  | some autoExpand =>
    dsimp only
    split
    · exact ⟨_, rfl, rfl, rfl⟩
    · exact ⟨_, rfl, rfl, rfl⟩

theorem keys_noted (openings : List (List Bytes × Bool)) (path : List Bytes)
    (reason : TransientOpeningReason) (newlyOpened : Bool) :
    (noted openings path reason newlyOpened).map Prod.fst =
      if openings.lookup path = none ∧ newlyOpened = true then path :: openings.map Prod.fst
      else openings.map Prod.fst := by
  unfold noted
  cases hlookup : openings.lookup path with
  | none => cases newlyOpened <;> simp
  | some autoExpand =>
    have hthere : ¬ (some autoExpand = none ∧ newlyOpened = true) := fun h => by cases h.1
    rw [if_neg hthere]
    dsimp only
    split
    · exact Assoc.map_fst_modify _
    · rfl

theorem EditedWith.cancelEditing (h : search.EditedWith rollback openings) :
    ∃ search', search.cancelEditing =
        some ({ selectedPath := rollback.selectedPath, scrollOffset := rollback.scrollOffset,
                pathsToClose := openings.map Prod.fst }, search') ∧
      search'.mode = match rollback.priorCommitted with
        | none => .idle
        | some active => .committed active := by
  obtain ⟨editing, hmode, rfl, rfl⟩ := h
  unfold RequestListSearch.cancelEditing
  rw [hmode]
  exact ⟨_, rfl, rfl⟩

theorem results_refreshProgress (active : ActiveSearch) (key : SearchRequestKey) :
    ActiveSearch.results
        { active with
          key, progress := refreshProgress active.progress, selectFirstWhenReady := false } =
      active.results := by
  obtain ⟨query, oldKey, progress, select⟩ := active
  cases progress with
  | pending => rfl
  | ready results => rfl
  | refreshing results => rfl
  | failed results => cases results <;> rfl

theorem sameMode_refreshForTree {mode : RequestSearchMode} (h : SameMode mode search.mode)
    (treeRevision : Nat) : SameMode mode (search.refreshForTree treeRevision).mode := by
  obtain ⟨current, nextGeneration, dispatch⟩ := search
  unfold RequestListSearch.refreshForTree RequestListSearch.active
  cases current with
  | idle => exact h
  | editing editing => cases mode <;> cases h
  | committed active =>
    dsimp only
    split
    · exact h
    · cases mode with
      | idle => cases h
      | editing editing => cases h
      | committed before =>
        obtain ⟨hquery, hresults⟩ := h
        exact ⟨hquery, hresults.trans (results_refreshProgress active _).symm⟩

end RequestListSearch

/-! ## The widget -/

section Widget

variable {σ : Type} {widget : TreeWidget σ}

theorem mem_opened_foldl_close (hw : widget.Lawful) (paths : List (List Bytes)) (s : σ)
    (path : List Bytes) :
    path ∈ widget.opened (paths.foldl widget.close s) ↔ path ∈ widget.opened s ∧ path ∉ paths := by
  induction paths generalizing s with
  | nil => simp
  | cons closed paths ih =>
    rw [List.foldl_cons, ih, hw.mem_opened_close, List.mem_cons, not_or, and_assoc]

theorem rows_foldl_close (hr : widget.KeepsRows) (paths : List (List Bytes)) (s : σ) :
    widget.rows (paths.foldl widget.close s) = widget.rows s := by
  induction paths generalizing s with
  | nil => rfl
  | cons closed paths ih => rw [List.foldl_cons, ih, hr.close]

theorem SearchApp.mem_deepestFirst {paths : List (List Bytes)} {path : List Bytes} :
    path ∈ SearchApp.deepestFirst paths ↔ path ∈ paths := by
  unfold SearchApp.deepestFirst
  rw [List.mem_reverse, List.mem_mergeSort]

end Widget

/-! ## The invariant -/

namespace SearchApp

section Session

variable {σ : Type} {widget : TreeWidget σ} {before app : SearchApp σ}
  {openings : List (List Bytes × Bool)}

/-- The selection at the beginning is empty or in the tree. -/
def SelectionIn (widget : TreeWidget σ) (before : SearchApp σ) (tree : RequestTreeModel) : Prop :=
  widget.selected before.state = [] ∨ tree.contains (widget.selected before.state) = true

def rollbackOf (widget : TreeWidget σ) (before : SearchApp σ) : EditingRollback :=
  { selectedPath := widget.selected before.state
    scrollOffset := before.scrollOffset
    priorCommitted := before.search.active }

/-- The paths that are opened are those of the beginning and the noted ones, and none of
them twice. -/
structure Reverts (widget : TreeWidget σ) (before : SearchApp σ)
    (openings : List (List Bytes × Bool)) (app : SearchApp σ) : Prop where
  edited : app.search.EditedWith (rollbackOf widget before) openings
  nodup : (openings.map Prod.fst).Nodup
  opened : ∀ path, path ∈ widget.opened app.state ↔
    path ∈ widget.opened before.state ∨ path ∈ openings.map Prod.fst
  new : ∀ path ∈ openings.map Prod.fst, path ∉ widget.opened before.state
  shown : SelectionIn widget before app.requestTree
  kept : SelectionIn widget before app.capturesTree
  scrolled : app.scrollOffset = before.scrollOffset ∨
    before.scrollOffset ≤ (widget.rows app.state).length - 1

theorem Reverts.withSearch (h : Reverts widget before openings app) {search : RequestListSearch}
    (hsearch : search.EditedWith (rollbackOf widget before) openings) :
    Reverts widget before openings { app with search } :=
  ⟨hsearch, h.nodup, h.opened, h.new, h.shown, h.kept, h.scrolled⟩

theorem Reverts.ensure (h : Reverts widget before openings app) :
    Reverts widget before openings app.ensureRequestTreeModel := by
  unfold ensureRequestTreeModel
  split
  · exact h
  · exact ⟨h.edited.refreshForTree _, h.nodup, h.opened, h.new, h.kept, h.kept, h.scrolled⟩

theorem Reverts.select (hw : widget.Lawful) (hr : widget.KeepsRows)
    (h : Reverts widget before openings app) (path : List Bytes) :
    Reverts widget before openings { app with state := widget.select app.state path } where
  edited := h.edited
  nodup := h.nodup
  opened := fun p => by
    rw [hw.opened_select]
    exact h.opened p
  new := h.new
  shown := h.shown
  kept := h.kept
  scrolled := by
    rw [hr.select]
    exact h.scrolled

/-- A path that was closed is opened and noted, and one that was open stays as it is. -/
theorem Reverts.openNoting (hw : widget.Lawful) (hr : widget.KeepsRows)
    (h : Reverts widget before openings app) (path : List Bytes) (reason : TransientOpeningReason) :
    ∃ openings', Reverts widget before openings' (app.openNoting widget path reason) := by
  have hlookup : openings.lookup path = none ↔ path ∉ openings.map Prod.fst := by
    rw [List.lookup_eq_none_iff]
    constructor
    · intro hall hmem
      obtain ⟨opening, hopening, rfl⟩ := List.mem_map.1 hmem
      simpa using hall opening hopening
    · intro hnot opening hopening
      rw [bne_iff_ne]
      rintro rfl
      exact hnot (List.mem_map_of_mem hopening)
  have hopened : ∀ p, p ∈ widget.opened (widget.openPath app.state path) ↔
      p ∈ widget.opened before.state ∨ p ∈ openings.map Prod.fst ∨ path ≠ [] ∧ p = path := by
    intro p
    rw [hw.mem_opened_open, h.opened, or_assoc]
  have hkeys := RequestListSearch.keys_noted openings path reason
    (decide (path ≠ [] ∧ path ∉ widget.opened app.state))
  have hedited := h.edited.noteTransientOpening path reason
    (decide (path ≠ [] ∧ path ∉ widget.opened app.state))
  have hscrolled : app.scrollOffset = before.scrollOffset ∨
      before.scrollOffset ≤ (widget.rows (widget.openPath app.state path)).length - 1 := by
    rw [hr.openPath]
    exact h.scrolled
  refine ⟨RequestListSearch.noted openings path reason
    (decide (path ≠ [] ∧ path ∉ widget.opened app.state)), ?_⟩
  by_cases hnew : path ≠ [] ∧ path ∉ widget.opened app.state
  · have hclosed := fun hmem => hnew.2 ((h.opened path).2 hmem)
    rw [if_pos ⟨hlookup.2 fun hmem => hclosed (.inr hmem), decide_eq_true hnew⟩] at hkeys
    refine ⟨hedited, ?_, fun p => ?_, fun p hp => ?_, h.shown, h.kept, hscrolled⟩
    · rw [hkeys]
      exact List.nodup_cons.2 ⟨fun hmem => hclosed (.inr hmem), h.nodup⟩
    · rw [hkeys, List.mem_cons]
      refine (hopened p).trans (or_congr_right ?_)
      rw [or_comm, and_iff_right hnew.1]
    · rw [hkeys] at hp
      rcases List.mem_cons.1 hp with rfl | hp
      · exact fun hmem => hclosed (.inl hmem)
      · exact h.new p hp
  · rw [if_neg fun hadded => hnew (of_decide_eq_true hadded.2)] at hkeys
    refine ⟨hedited, ?_, fun p => ?_, fun p hp => ?_, h.shown, h.kept, hscrolled⟩
    · rw [hkeys]
      exact h.nodup
    · rw [hkeys]
      refine (hopened p).trans ⟨?_, fun hmem => hmem.imp_right .inl⟩
      rintro (hmem | hmem | ⟨hne, rfl⟩)
      · exact .inl hmem
      · exact .inr hmem
      · refine (h.opened p).1 ?_
        by_contra hmem
        exact hnew ⟨hne, hmem⟩
    · rw [hkeys] at hp
      exact h.new p hp

theorem Reverts.foldl_openNoting (hw : widget.Lawful) (hr : widget.KeepsRows)
    (h : Reverts widget before openings app) (paths : List (List Bytes))
    (reason : TransientOpeningReason) :
    ∃ openings', Reverts widget before openings'
      (paths.foldl (fun app path => app.openNoting widget path reason) app) := by
  induction paths generalizing app openings with
  | nil => exact ⟨openings, h⟩
  | cons path paths ih =>
    obtain ⟨openings', h'⟩ := h.openNoting hw hr path reason
    exact ih h'

/-- The paths that were opened for a match are closed, and the others stay open. -/
theorem Reverts.clear (hw : widget.Lawful) (hr : widget.KeepsRows)
    (h : Reverts widget before openings app) {paths : List (List Bytes)}
    (hpaths : ∀ path, path ∈ paths ↔ path ∈ app.search.clearMatchRevealReasons.1) :
    Reverts widget before (openings.filter fun opening => opening.2)
      (({ app with search := app.search.clearMatchRevealReasons.2 } : SearchApp σ).closePaths
        widget paths) := by
  obtain ⟨hcleared, hedited⟩ := h.edited.clearMatchRevealReasons
  have hkept : ∀ path, path ∈ (openings.filter fun opening => opening.2).map Prod.fst ↔
      path ∈ openings.map Prod.fst ∧ path ∉ paths := by
    intro path
    rw [hpaths, hcleared]
    constructor
    · intro hmem
      obtain ⟨opening, hopening, rfl⟩ := List.mem_map.1 hmem
      obtain ⟨hin, htrue⟩ := List.mem_filter.1 hopening
      refine ⟨List.mem_map_of_mem hin, fun hmatch => ?_⟩
      obtain ⟨other, hother, heq⟩ := List.mem_map.1 hmatch
      obtain ⟨hin', hfalse⟩ := List.mem_filter.1 hother
      rw [List.inj_on_of_nodup_map h.nodup hin' hin heq, htrue] at hfalse
      cases hfalse
    · rintro ⟨hmem, hnot⟩
      obtain ⟨opening, hopening, rfl⟩ := List.mem_map.1 hmem
      refine List.mem_map_of_mem (List.mem_filter.2 ⟨hopening, ?_⟩)
      by_contra hfalse
      exact hnot (List.mem_map_of_mem (List.mem_filter.2 ⟨hopening, by simpa using hfalse⟩))
  refine ⟨hedited, ?_, fun path => ?_, fun path hpath => ?_, h.shown, h.kept, ?_⟩
  · exact h.nodup.sublist (List.filter_sublist.map _)
  · refine (mem_opened_foldl_close hw paths app.state path).trans ?_
    rw [h.opened, hkept]
    constructor
    · rintro ⟨hmem | hmem, hnot⟩
      · exact .inl hmem
      · exact .inr ⟨hmem, hnot⟩
    · rintro (hmem | hmem)
      · refine ⟨.inl hmem, fun hclosed => ?_⟩
        rw [hpaths, hcleared] at hclosed
        obtain ⟨opening, hopening, rfl⟩ := List.mem_map.1 hclosed
        exact h.new _ (List.mem_map_of_mem (List.mem_filter.1 hopening).1) hmem
      · exact ⟨.inr hmem.1, hmem.2⟩
  · exact h.new path ((hkept path).1 hpath).1
  · refine h.scrolled.imp_right fun hle => ?_
    exact hle.trans_eq (congrArg (fun rows : List (List Bytes) => rows.length - 1)
      (rows_foldl_close hr paths app.state).symm)

theorem ensure_state (app : SearchApp σ) :
    app.ensureRequestTreeModel.state = app.state ∧
      app.ensureRequestTreeModel.scrollOffset = app.scrollOffset := by
  unfold ensureRequestTreeModel
  split <;> exact ⟨rfl, rfl⟩

/-- A selection that is in the tree is restored. -/
theorem restoreSelection_eq (hshown : SelectionIn widget before app.requestTree)
    (hkept : SelectionIn widget before app.capturesTree) :
    app.restoreRequestSearchSelection widget (widget.selected before.state) =
      { app.ensureRequestTreeModel with
        state := widget.select app.state (widget.selected before.state) } := by
  have hin : SelectionIn widget before app.ensureRequestTreeModel.requestTree := by
    unfold ensureRequestTreeModel
    split
    · exact hshown
    · exact hkept
  unfold restoreRequestSearchSelection
  dsimp only
  rw [if_pos (by rw [Bool.or_eq_true, decide_eq_true_eq]; exact hin), (ensure_state app).1]

theorem Reverts.restoreSelection (hw : widget.Lawful) (hr : widget.KeepsRows)
    (h : Reverts widget before openings app) :
    Reverts widget before openings
      (app.restoreRequestSearchSelection widget (widget.selected before.state)) := by
  rw [restoreSelection_eq h.shown h.kept, ← (ensure_state app).1]
  exact h.ensure.select hw hr _

/-- The scroll offset is back where it was. -/
theorem restoreScrollOffset_eq {app : SearchApp σ} {offset : Nat}
    (h : app.scrollOffset = offset ∨ offset ≤ (widget.rows app.state).length - 1) :
    (app.restoreScrollOffset widget offset).scrollOffset = offset := by
  unfold restoreScrollOffset
  dsimp only
  split
  · omega
  · omega

theorem Reverts.restoreScroll (h : Reverts widget before openings app) :
    Reverts widget before openings (app.restoreScrollOffset widget before.scrollOffset) :=
  ⟨h.edited, h.nodup, h.opened, h.new, h.shown, h.kept, .inl (restoreScrollOffset_eq h.scrolled)⟩

theorem Reverts.baseline (hw : widget.Lawful) (hr : widget.KeepsRows)
    (h : Reverts widget before openings app) :
    ∃ openings', Reverts widget before openings'
      (app.restoreRequestSearchEditingBaseline widget) := by
  have hcleared := h.clear hw hr fun path =>
    @mem_deepestFirst app.search.clearMatchRevealReasons.1 path
  have hrollback : app.search.clearMatchRevealReasons.2.rollbackSelectionAndOffset =
      some (widget.selected before.state, before.scrollOffset) := by
    obtain ⟨-, editing, hmode, hrollback, -⟩ := h.edited.clearMatchRevealReasons
    unfold RequestListSearch.rollbackSelectionAndOffset
    rw [hmode]
    dsimp only
    rw [hrollback]
    rfl
  refine ⟨openings.filter fun opening => opening.2, ?_⟩
  unfold restoreRequestSearchEditingBaseline
  dsimp only [closePaths] at hcleared ⊢
  rw [hrollback]
  exact (hcleared.restoreSelection hw hr).restoreScroll

theorem Reverts.reveal (hw : widget.Lawful) (hr : widget.KeepsRows)
    (h : Reverts widget before openings app) (path : List Bytes) :
    ∃ openings', Reverts widget before openings'
      (app.revealRequestSearchMatch widget path true) := by
  have hcleared := h.clear hw hr fun path =>
    @List.mem_reverse _ path app.search.clearMatchRevealReasons.1
  obtain ⟨openings', hopened⟩ := hcleared.foldl_openNoting hw hr
    ((List.range (path.length - 1)).map fun length => path.take (length + 1)) .matchReveal
  exact ⟨openings', hopened.select hw hr path⟩

/-! ## Steps -/

theorem Reverts.input (hw : widget.Lawful) (hr : widget.KeepsRows)
    (h : Reverts widget before openings app) (edit : InputEdit) :
    ∃ openings', Reverts widget before openings'
      (app.handleRequestSearchEditKey widget (.input edit)) := by
  have hkey : app.handleRequestSearchEditKey widget (.input edit) =
      app.applyRequestSearchInputEdit widget edit := by
    obtain ⟨editing, hmode, -⟩ := h.edited
    unfold handleRequestSearchEditKey
    rw [hmode]
  rw [hkey]
  cases edit with
  | unchanged => exact ⟨openings, h⟩
  | limitReached =>
    exact ⟨openings, h.withSearch (h.edited.modifyEditing (fun _ => rfl) fun _ => rfl)⟩
  | changed input =>
    have hedited := @RequestListSearch.EditedWith.modifyEditing _ _ _ h.edited
      (fun editing => { editing with input }) (fun _ => rfl) fun _ => rfl
    obtain ⟨openings', hbaseline⟩ := (h.withSearch hedited).baseline hw hr
    exact ⟨openings', hbaseline.ensure.withSearch (hbaseline.ensure.edited.activateEditedQuery _)⟩

theorem Reverts.outcome (hw : widget.Lawful) (hr : widget.KeepsRows)
    (h : Reverts widget before openings app) (outcome : SearchJobOutcome) :
    ∃ openings', Reverts widget before openings'
      (app.applyRequestSearchOutcome widget outcome) := by
  have hedited := h.edited.applyOutcome outcome
  unfold applyRequestSearchOutcome
  generalize app.search.applyOutcome outcome = applied at hedited ⊢
  obtain ⟨application, search⟩ := applied
  cases application with
  | ignored => exact ⟨openings, h⟩
  | applied selectFirst =>
    have happlied := h.withSearch hedited
    dsimp only
    split
    · split
      · exact ⟨openings, happlied⟩
      · exact happlied.reveal hw hr _
    · exact ⟨openings, happlied⟩

theorem Reverts.addCapture (hw : widget.Lawful) (hr : widget.KeepsRows)
    (h : Reverts widget before openings app) {tree : RequestTreeModel}
    (htree : ∀ path, app.capturesTree.contains path = true → tree.contains path = true)
    (entry : RequestTreeEntry) (autoExpand wasEmpty : Bool) :
    ∃ openings', Reverts widget before openings'
      (app.addCapture widget tree entry autoExpand wasEmpty) := by
  have hstored : Reverts widget before openings
      { app with
        capturesTree := tree
        capturesRevision := CaptureSystem.nextStoreRevision app.capturesRevision } :=
    ⟨h.edited, h.nodup, h.opened, h.new, h.shown, h.kept.imp_right (htree _), h.scrolled⟩
  have hexpanded : ∃ openings', Reverts widget before openings'
      (if autoExpand = true then
        entry.branchPaths.foldl (fun app branch => app.noteAutoExpandOpening widget branch)
          { app with
            capturesTree := tree
            capturesRevision := CaptureSystem.nextStoreRevision app.capturesRevision }
      else
        { app with
          capturesTree := tree
          capturesRevision := CaptureSystem.nextStoreRevision app.capturesRevision }) := by
    split
    · exact hstored.foldl_openNoting hw hr entry.branchPaths .autoExpand
    · exact ⟨openings, hstored⟩
  obtain ⟨openings', h'⟩ := hexpanded
  refine ⟨openings', ?_⟩
  unfold SearchApp.addCapture
  dsimp only
  generalize (if autoExpand = true then _ else _ : SearchApp σ) = expanded at h' ⊢
  -- The search is active, so the new capture is not selected.
  have hactive : expanded.search.isActive = true := by
    obtain ⟨editing, hmode, -⟩ := h'.edited
    unfold RequestListSearch.isActive
    rw [hmode]
  rw [hactive, Bool.not_true, Bool.and_false]
  exact h'

theorem Reverts.step (hw : widget.Lawful) (hr : widget.KeepsRows)
    (h : Reverts widget before openings app) {event : EditingEvent} {next : SearchApp σ}
    (hevent : app.Undisturbed before.scrollOffset event)
    (hstep : app.editingStep widget event = some next) :
    ∃ openings', Reverts widget before openings' next := by
  cases event with
  | input edit =>
    cases hstep
    exact h.input hw hr edit
  | outcome outcome =>
    cases hstep
    exact h.outcome hw hr outcome
  | addCapture tree entry autoExpand wasEmpty =>
    cases hstep
    exact h.addCapture hw hr hevent entry autoExpand wasEmpty
  | ensureRequestTreeModel =>
    cases hstep
    exact ⟨openings, h.ensure⟩
  | takeRequestSearchDispatch =>
    cases hstep
    have htaken : ∀ app' : SearchApp σ, Reverts widget before openings app' →
        Reverts widget before openings
          { app' with search := app'.search.takeDispatchIntent.2 } := by
      intro app' h'
      obtain ⟨editing, hmode, hrest⟩ := h'.edited
      exact h'.withSearch ⟨editing, hmode, hrest⟩
    refine ⟨openings, ?_⟩
    unfold SearchApp.takeRequestSearchDispatch
    dsimp only
    split
    · exact htaken _ h.ensure
    · exact htaken _ h
  | draw rows scrollOffset =>
    cases hstep
    have hensured := h.ensure
    refine ⟨openings, hensured.edited, h.nodup, fun path => ?_, h.new, hensured.shown,
      hensured.kept, .inr ?_⟩
    · unfold SearchApp.draw
      dsimp only
      rw [hw.opened_render]
      exact hensured.opened path
    · unfold SearchApp.draw
      dsimp only
      rw [hw.rows_render]
      exact hevent

theorem reverts_begin (hidle : before.search.isEditing = false)
    (hshown : SelectionIn widget before before.requestTree)
    (hkept : SelectionIn widget before before.capturesTree) :
    Reverts widget before [] (before.beginRequestSearch widget) := by
  unfold beginRequestSearch
  rw [if_neg (by rw [hidle]; exact Bool.false_ne_true)]
  exact
    { edited := RequestListSearch.editedWith_beginEditing hidle _ _
      nodup := List.nodup_nil
      opened := fun path => by simp
      new := fun path hpath => by cases hpath
      shown := hshown
      kept := hkept
      scrolled := .inl rfl }

/-! ## The end of an edit -/

theorem sameMode_prior {search : RequestListSearch} (h : search.isEditing = false) :
    SameMode search.mode
      (match search.active with
        | none => .idle
        | some active => .committed active) := by
  obtain ⟨mode, nextGeneration, dispatch⟩ := search
  cases mode with
  | idle => trivial
  | committed active => exact ⟨rfl, rfl⟩
  | editing editing => cases h

theorem sameMode_ensure {mode : RequestSearchMode} {app : SearchApp σ}
    (h : SameMode mode app.search.mode) : SameMode mode app.ensureRequestTreeModel.search.mode := by
  unfold ensureRequestTreeModel
  split
  · exact h
  · exact RequestListSearch.sameMode_refreshForTree h _

theorem Reverts.cancel (hw : widget.Lawful) (hr : widget.KeepsRows)
    (hidle : before.search.isEditing = false) (h : Reverts widget before openings app) :
    RolledBack widget before (app.handleRequestSearchEditKey widget .esc) := by
  obtain ⟨search, hcancel, hmode⟩ := h.edited.cancelEditing
  have hkey : app.handleRequestSearchEditKey widget .esc =
      app.cancelRequestSearchEditing widget := by
    obtain ⟨editing, hediting, -⟩ := h.edited
    unfold handleRequestSearchEditKey
    rw [hediting]
  rw [hkey]
  unfold cancelRequestSearchEditing
  rw [hcancel]
  dsimp only [rollbackOf] at hmode ⊢
  -- The paths that were opened meanwhile are closed.
  have hclosed : ∀ path, path ∈ widget.opened (({ app with search } : SearchApp σ).closePaths widget
      (deepestFirst (openings.map Prod.fst))).state ↔ path ∈ widget.opened before.state := by
    intro path
    refine (mem_opened_foldl_close hw _ app.state path).trans ?_
    rw [mem_deepestFirst, h.opened]
    constructor
    · rintro ⟨hmem | hmem, hnot⟩
      · exact hmem
      · exact absurd hmem hnot
    · exact fun hmem => ⟨.inl hmem, fun hnoted => h.new path hnoted hmem⟩
  have hrows : widget.rows (({ app with search } : SearchApp σ).closePaths widget
      (deepestFirst (openings.map Prod.fst))).state = widget.rows app.state :=
    rows_foldl_close hr _ app.state
  have hmodes : SameMode before.search.mode (({ app with search } : SearchApp σ).closePaths widget
      (deepestFirst (openings.map Prod.fst))).search.mode := by
    change SameMode before.search.mode search.mode
    rw [hmode]
    exact sameMode_prior hidle
  have hscrolled : (({ app with search } : SearchApp σ).closePaths widget
      (deepestFirst (openings.map Prod.fst))).scrollOffset = app.scrollOffset := rfl
  have hshown : SelectionIn widget before (({ app with search } : SearchApp σ).closePaths widget
      (deepestFirst (openings.map Prod.fst))).requestTree := h.shown
  have hkept : SelectionIn widget before (({ app with search } : SearchApp σ).closePaths widget
      (deepestFirst (openings.map Prod.fst))).capturesTree := h.kept
  generalize ({ app with search } : SearchApp σ).closePaths widget
    (deepestFirst (openings.map Prod.fst)) = closed at *
  rw [restoreSelection_eq hshown hkept]
  constructor
  · intro path
    dsimp only
    rw [(ensure_state _).1]
    unfold restoreScrollOffset
    dsimp only
    rw [hw.opened_select]
    exact hclosed path
  · dsimp only
    rw [(ensure_state _).1]
    unfold restoreScrollOffset
    dsimp only
    rw [hw.selected_select]
  · dsimp only
    rw [(ensure_state _).2]
    refine restoreScrollOffset_eq ?_
    dsimp only
    rw [(ensure_state _).2, hr.select, hrows, hscrolled]
    exact h.scrolled
  · refine RequestListSearch.sameMode_refreshForTree (sameMode_ensure ?_) _
    exact sameMode_ensure hmodes

/-- Whatever is done between the beginning of an edit and Esc, the edit leaves nothing behind,
if the selection was empty or in the tree. -/
theorem editing_rolled_back (hw : widget.Lawful) (hr : widget.KeepsRows)
    (hidle : before.search.isEditing = false)
    (hshown : SelectionIn widget before before.requestTree)
    (hkept : SelectionIn widget before before.capturesTree) {events : List EditingEvent}
    (hevents : Along (editingStep widget) (Undisturbed before.scrollOffset)
      (before.beginRequestSearch widget) events)
    (hrun : run (editingStep widget) (before.beginRequestSearch widget) events = some app) :
    RolledBack widget before (app.handleRequestSearchEditKey widget .esc) := by
  have hstep : ∀ (s : SearchApp σ) (event : EditingEvent) (t : SearchApp σ),
      (∃ openings, Reverts widget before openings s) → s.Undisturbed before.scrollOffset event →
      s.editingStep widget event = some t → ∃ openings, Reverts widget before openings t := by
    rintro s event t ⟨openings, h⟩ hevent hstep
    exact h.step hw hr hevent hstep
  obtain ⟨openings, h⟩ := run_invariant_along hstep ⟨[], reverts_begin hidle hshown hkept⟩ hevents
    hrun
  exact h.cancel hw hr hidle

end Session

/-! ## Samples -/

open RequestListApp (ListState listWidget listWidget_lawful)

theorem listWidget_keepsRows : listWidget.KeepsRows where
  select := fun _ _ => rfl
  openPath := fun s path => by
    unfold listWidget ListState.openPath
    dsimp only
    split <;> rfl
  close := fun _ _ => rfl

def sampleTree : RequestTreeModel :=
  (RequestTreeModel.fromRequests RequestTreeModel.sampleParse
    RequestTreeModel.sampleSummaries).getD {}

/-- The origin is selected, and nothing is opened. -/
def sampleBefore : SearchApp ListState :=
  { capturesTree := sampleTree
    capturesRevision := 1
    requestTree := sampleTree
    requestTreeRevision := 1
    state := { selected := [originIdentifier (ofAscii "https://a")] } }

/-- A capture opens its branches, and the first match of a query is revealed. -/
def sampleEditing : List EditingEvent :=
  [.addCapture sampleTree
      (RequestTreeEntry.ofSummary RequestTreeModel.sampleParse
        (RequestTreeModel.sampleSummary 8 "/api")) true false,
    .input (.changed (ofAscii "list")), .takeRequestSearchDispatch,
    .outcome (.completed { generation := 2, treeRevision := 2 }
      [{ path := [originIdentifier (ofAscii "https://a"), segmentIdentifier (ofAscii "api"),
          requestIdentifier 7], logicalPosition := 2 }])]

theorem editing_rolled_back_sample : ∃ app,
    run (editingStep listWidget) (sampleBefore.beginRequestSearch listWidget) sampleEditing =
      some app ∧
    RolledBack listWidget sampleBefore (app.handleRequestSearchEditKey listWidget .esc) := by
  obtain ⟨app, hrun⟩ : ∃ app, run (editingStep listWidget)
      (sampleBefore.beginRequestSearch listWidget) sampleEditing = some app := ⟨_, rfl⟩
  have hselection : SelectionIn listWidget sampleBefore sampleTree := .inr (by decide +kernel)
  have hevents : Along (editingStep listWidget) (Undisturbed sampleBefore.scrollOffset)
      (sampleBefore.beginRequestSearch listWidget) sampleEditing :=
    ⟨fun _ h => h, fun _ _ => ⟨trivial, fun _ _ => ⟨trivial, fun _ _ => ⟨trivial,
      fun _ _ => trivial⟩⟩⟩⟩
  exact ⟨app, hrun, editing_rolled_back listWidget_lawful listWidget_keepsRows rfl hselection
    hselection hevents hrun⟩

/-- A selection that is not in the tree is not restored. -/
theorem lost_selection_not_restored :
    ¬ RolledBack listWidget ({ state := { selected := [ofAscii "gone"] } } : SearchApp ListState)
      ((({ state := { selected := [ofAscii "gone"] } } : SearchApp ListState).beginRequestSearch
        listWidget).handleRequestSearchEditKey listWidget .esc) := by
  intro h
  have hselected := h.selected
  revert hselected
  decide +kernel

end SearchApp

end Fluxcope.Requests
