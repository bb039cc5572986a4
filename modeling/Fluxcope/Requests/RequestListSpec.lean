import Fluxcope.Requests.SummariesSpec
import Fluxcope.Requests.RequestTreeRows
/-!
# Paths of the request list

The widget keeps paths of its own.  They stay in the tree as long as every step that takes
captures out of the store, or puts paths into the widget, spares them.
-/

namespace Fluxcope.Requests

open Fluxcope.Library Fluxcope.Library.Utf8 Fluxcope.Capture

/-! ## Paths of stored captures -/

section Paths

variable (parse : Bytes → Option Url)

/-- The path starts the path of a stored capture. -/
def InStore (captures : CaptureSystem) (path : List Bytes) : Prop :=
  path ≠ [] ∧ ∃ entry ∈ RequestTreeModel.entriesOf parse (summaries captures),
    path <+: entry.requestPath

instance decidableInStore (captures : CaptureSystem) (path : List Bytes) :
    Decidable (InStore parse captures path) := inferInstanceAs (Decidable (_ ∧ _))

variable {parse}

theorem contains_iff {captures : CaptureSystem} {tree : RequestTreeModel}
    (h : Numbered captures) (htree : RequestTreeModel.fromRequests parse (summaries captures) = some tree)
    (path : List Bytes) : tree.contains path = true ↔ InStore parse captures path :=
  (RequestTreeModel.fromRequests_shows (nodup_summaries h) htree).contains path

theorem InStore.mono {captures captures' : CaptureSystem} {path : List Bytes}
    (h : InStore parse captures path)
    (hsub : ∀ summary ∈ summaries captures, summary ∈ summaries captures') :
    InStore parse captures' path := by
  obtain ⟨hne, entry, hentry, hbegins⟩ := h
  obtain ⟨summary, hsummary, rfl⟩ := List.mem_map.1 hentry
  exact ⟨hne, _, List.mem_map_of_mem (hsub summary hsummary), hbegins⟩

theorem InStore.of_prefix {captures : CaptureSystem} {path start : List Bytes}
    (h : InStore parse captures path) (hstart : start <+: path) :
    start = [] ∨ InStore parse captures start := by
  obtain ⟨-, entry, hentry, hbegins⟩ := h
  by_cases hne : start = []
  · exact .inl hne
  · exact .inr ⟨hne, entry, hentry, hstart.trans hbegins⟩

theorem summaries_reap (captures : CaptureSystem) : summaries captures.reap = summaries captures := by
  have hreaped := CaptureSystem.reaped_reap captures
  rw [summaries_eq, summaries_eq, hreaped.store]
  exact List.filterMap_congr fun i _ => summaryAt_of_sameRecord hreaped.sameRecord i

theorem inStore_reap {captures : CaptureSystem} {path : List Bytes} :
    InStore parse captures.reap path ↔ InStore parse captures path := by
  unfold InStore
  rw [summaries_reap]

end Paths

/-! ## Paths of the widget -/

section Widget

variable {σ : Type} (parse : Bytes → Option Url) (widget : TreeWidget σ)

/-- The selected path and the opened ones are paths of stored captures. -/
structure Valid (captures : CaptureSystem) (state : σ) : Prop where
  selected : widget.selected state = [] ∨ InStore parse captures (widget.selected state)
  opened : ∀ path ∈ widget.opened state, InStore parse captures path

variable {parse widget} {captures : CaptureSystem} {state : σ}

theorem Valid.mono {captures' : CaptureSystem} (h : Valid parse widget captures state)
    (hsub : ∀ summary ∈ summaries captures, summary ∈ summaries captures') :
    Valid parse widget captures' state :=
  ⟨h.selected.imp_right fun h => h.mono hsub, fun path hpath => (h.opened path hpath).mono hsub⟩

theorem valid_select (hw : widget.Lawful)
    (hopened : ∀ path ∈ widget.opened state, InStore parse captures path)
    {path : List Bytes} (hpath : path = [] ∨ InStore parse captures path) :
    Valid parse widget captures (widget.select state path) where
  selected := by rwa [hw.selected_select]
  opened := by rwa [hw.opened_select]

theorem Valid.openPath (hw : widget.Lawful) (h : Valid parse widget captures state)
    {path : List Bytes} (hpath : path = [] ∨ InStore parse captures path) :
    Valid parse widget captures (widget.openPath state path) where
  selected := by rw [hw.selected_open]; exact h.selected
  opened other hother := by
    rcases (hw.mem_opened_open state path other).1 hother with hother | ⟨hne, rfl⟩
    · exact h.opened other hother
    · exact hpath.resolve_left hne

theorem Valid.close (hw : widget.Lawful) (h : Valid parse widget captures state)
    (path : List Bytes) : Valid parse widget captures (widget.close state path) where
  selected := by rw [hw.selected_close]; exact h.selected
  opened other hother := h.opened other ((hw.mem_opened_close state path other).1 hother).1

theorem Valid.toggle (hw : widget.Lawful) (h : Valid parse widget captures state)
    {path : List Bytes} (hpath : path = [] ∨ InStore parse captures path) :
    Valid parse widget captures (widget.toggle state path) := by
  rw [hw.toggle]
  split
  · exact h.close hw path
  · exact h.openPath hw hpath

theorem Valid.foldl_open (hw : widget.Lawful) {paths : List (List Bytes)}
    (h : Valid parse widget captures state) (hpaths : ∀ path ∈ paths, InStore parse captures path) :
    Valid parse widget captures (paths.foldl widget.openPath state) := by
  induction paths generalizing state with
  | nil => exact h
  | cons path paths ih =>
    exact ih (h.openPath hw (.inr (hpaths path List.mem_cons_self)))
      fun other hother => hpaths other (List.mem_cons_of_mem path hother)

theorem Valid.foldl_close (hw : widget.Lawful) (paths : List (List Bytes))
    (h : Valid parse widget captures state) :
    Valid parse widget captures (paths.foldl widget.close state) := by
  induction paths generalizing state with
  | nil => exact h
  | cons path paths ih => exact ih (h.close hw path)

theorem valid_default (hw : widget.Lawful) (captures : CaptureSystem) :
    Valid parse widget captures widget.default where
  selected := .inl hw.selected_default
  opened path hpath := by
    rw [hw.opened_default] at hpath
    cases hpath

/-- Closing what is not in a tree leaves what is. -/
theorem foldl_close_unless (hw : widget.Lawful) (keep : List Bytes → Bool)
    (paths : List (List Bytes)) (state : σ) :
    let closed := paths.foldl
      (fun state path => if keep path then state else widget.close state path) state
    widget.selected closed = widget.selected state ∧ ∀ path, path ∈ widget.opened closed ↔
      path ∈ widget.opened state ∧ (path ∈ paths → keep path = true) := by
  induction paths generalizing state with
  | nil => simp
  | cons first paths ih =>
    rw [List.foldl_cons]
    split
    case isTrue hkeep =>
      obtain ⟨hselected, hopened⟩ := ih state
      refine ⟨hselected, fun path => (hopened path).trans (and_congr_right fun _ => ?_)⟩
      rw [List.mem_cons]
      constructor
      · rintro hrest (rfl | hpath)
        · exact hkeep
        · exact hrest hpath
      · exact fun hall hpath => hall (.inr hpath)
    case isFalse hkeep =>
      obtain ⟨hselected, hopened⟩ := ih (widget.close state first)
      refine ⟨hselected.trans (hw.selected_close state first), fun path => ?_⟩
      rw [hopened path, hw.mem_opened_close, List.mem_cons, and_assoc]
      refine and_congr_right fun _ => ⟨?_, fun hall => ⟨?_, fun hpath => hall (.inr hpath)⟩⟩
      · rintro ⟨hne, hrest⟩ (rfl | hpath)
        · exact absurd rfl hne
        · exact hrest hpath
      · rintro rfl
        exact hkeep (hall (.inl rfl))

end Widget

/-! ## The selection after a delete -/

namespace DeleteSelectionContext

theorem mem_visiblePaths_of_neighborRow {context : DeleteSelectionContext} {path : List Bytes}
    (h : context.neighborRow = some path) : path ∈ context.visiblePaths := by
  obtain ⟨start, -, h⟩ := Option.bind_eq_some_iff.1 h
  rcases Option.or_eq_some_iff.1 h with hprevious | ⟨-, hnext⟩
  · obtain ⟨sibling, -, hfind⟩ := Option.bind_eq_some_iff.1 hprevious
    exact List.mem_reverse.1 (List.mem_of_find?_eq_some hfind)
  · exact of_decide_eq_true (Option.filter_eq_some_iff.1 hnext).2

/-- The selected path is a row, unless there are none. -/
theorem selectedPath_cases (context : DeleteSelectionContext) :
    context.selectedPath ∈ context.visiblePaths ∨
      context.selectedPath = [] ∧ context.visiblePaths = [] := by
  unfold selectedPath
  cases hneighbor : context.neighborRow with
  | some path => exact .inl (mem_visiblePaths_of_neighborRow hneighbor)
  | none =>
    rw [Option.none_or]
    cases context.visiblePaths with
    | nil => exact .inr ⟨rfl, rfl⟩
    | cons path paths => exact .inl List.mem_cons_self

end DeleteSelectionContext

/-! ## The list -/

namespace RequestListApp

section List

variable {σ : Type} (parse : Bytes → Option Url) (widget : TreeWidget σ)

/-- The tree is that of the stored captures. -/
def Shown (app : RequestListApp σ) : Prop :=
  RequestTreeModel.fromRequests parse (summaries app.captures) = some app.requestTree

/-- The tree is up to date when its revision says so. -/
structure Tidy (app : RequestListApp σ) : Prop where
  numbered : Numbered app.captures
  current : app.captures.store.revision = app.requestTreeRevision → app.Shown parse

/-- The revision of a store that has changed is not that of the tree. -/
def Renewed (app : RequestListApp σ) (store : CaptureStore) : Prop :=
  store.revision = app.requestTreeRevision →
    store.captures = app.captures.store.captures ∧ store.revision = app.captures.store.revision

instance decidableRenewed (app : RequestListApp σ) (store : CaptureStore) :
    Decidable (app.Renewed store) := inferInstanceAs (Decidable (_ → _))

/-- The paths that the arrival of a capture opens and selects. -/
def shownPaths (app : RequestListApp σ) (entry : RequestTreeEntry) : List (List Bytes) :=
  (if app.autoExpand then entry.branchPaths else []) ++
    if app.captures.store.captures.isEmpty && !app.searchActive then
      [if app.autoExpand then entry.requestPath else [originIdentifier entry.origin]]
    else []

/-- The opened paths survive the captures that a step takes out of the store, a capture that
arrives is not evicted under the paths it shows, and the rows that a move selects from are
not older than the store. -/
def Sparing (app : RequestListApp σ) : RequestListEvent → Prop
  | .addCapture i =>
    let captures := (app.captures.insert i).2
    app.Renewed captures.store ∧
      (∀ path ∈ widget.opened app.state, InStore parse captures path) ∧
      ∀ cell ∈ app.captures.cells[i]?,
        ∀ path ∈ app.shownPaths (RequestTreeEntry.ofSummary parse (summaryOf cell.record)),
          InStore parse captures path
  | .evictOldestCapture =>
    let captures := app.captures.evictOldest.2
    app.Renewed captures.store ∧ ∀ path ∈ widget.opened app.state, InStore parse captures path
  | .clearRequests => app.Renewed app.captures.clear.2.store
  | .next | .previous | .clickAt _ => ∀ row ∈ widget.rows app.state, InStore parse app.captures row
  | _ => True

variable {parse widget} {app : RequestListApp σ}

theorem ensureRequestTreeModel_spec (h : app.Tidy parse) {app' : RequestListApp σ}
    (hensure : app.ensureRequestTreeModel parse = some app') :
    ∃ requestTree, app' =
        { app with requestTree, requestTreeRevision := app.captures.store.revision } ∧
      app'.Shown parse := by
  unfold ensureRequestTreeModel at hensure
  split at hensure
  case isTrue hrevision =>
    obtain rfl := Option.some.inj hensure
    refine ⟨app.requestTree, ?_, h.current hrevision⟩
    rw [hrevision]
  case isFalse hrevision =>
    obtain ⟨tree, htree, hensure⟩ := Option.bind_eq_some_iff.1 hensure
    obtain rfl := Option.some.inj hensure
    exact ⟨tree, rfl, htree⟩

theorem Shown.contains (h : app.Shown parse) (hnumbered : Numbered app.captures)
    (path : List Bytes) : app.requestTree.contains path = true ↔ InStore parse app.captures path :=
  contains_iff hnumbered h path

theorem Shown.visible (h : app.Shown parse) (hnumbered : Numbered app.captures)
    {opened : List (List Bytes)} {row : List Bytes}
    (hrow : row ∈ app.requestTree.visiblePaths opened) : InStore parse app.captures row :=
  (h.contains hnumbered row).1
    ((RequestTreeModel.fromRequests_shows (nodup_summaries hnumbered) h).visible opened row hrow)

theorem Shown.branches (h : app.Shown parse) (hnumbered : Numbered app.captures)
    {row : List Bytes} (hrow : row ∈ app.requestTree.branchPaths) :
    InStore parse app.captures row :=
  (h.contains hnumbered row).1
    ((RequestTreeModel.fromRequests_shows (nodup_summaries hnumbered) h).branches row hrow)

/-- The repair after an eviction finds a selection, and leaves the opened paths alone. -/
theorem repair_spec (hw : widget.Lawful) (h : app.Tidy parse) {app' : RequestListApp σ}
    (hopened : ∀ path ∈ widget.opened app.state, InStore parse app.captures path)
    (hrepair : app.repairRequestListAfterRetentionEviction parse widget = some app') :
    ∃ requestTree state, app' =
        { app with requestTree, requestTreeRevision := app.captures.store.revision, state } ∧
      app'.Shown parse ∧ Valid parse widget app.captures state := by
  obtain ⟨ensured, hensure, hrepair⟩ := Option.bind_eq_some_iff.1 hrepair
  obtain ⟨tree, rfl, hshown⟩ := ensureRequestTreeModel_spec h hensure
  obtain rfl := Option.some.inj hrepair
  dsimp only
  split
  case isTrue hcontains =>
    exact ⟨tree, app.state, rfl, hshown, .inr ((hshown.contains h.numbered _).1 hcontains), hopened⟩
  case isFalse hcontains =>
    refine ⟨tree, _, rfl, hshown, ?_⟩
    refine valid_select hw hopened ?_
    cases hrows : tree.visiblePaths ((widget.opened app.state).filter fun path =>
      tree.contains path) with
    | nil => exact .inl rfl
    | cons row rows => exact .inr (hshown.visible h.numbered (hrows ▸ List.mem_cons_self))

/-- A list whose store has only been looked at. -/
theorem Tidy.ensured (h : app.Tidy parse) {app' : RequestListApp σ}
    (hcaptures : app'.captures = app.captures) (hshown : app'.Shown parse) : app'.Tidy parse where
  numbered := by rw [hcaptures]; exact h.numbered
  current _ := hshown

/-- What `add_capture` puts into the widget. -/
theorem valid_showEntry (hw : widget.Lawful) (entry : RequestTreeEntry) (wasEmpty : Bool)
    {captures : CaptureSystem} (h : Valid parse widget captures app.state)
    (hbranches : app.autoExpand = true → ∀ path ∈ entry.branchPaths, InStore parse captures path)
    (hselected : (wasEmpty && !app.searchActive) = true → InStore parse captures
      (if app.autoExpand then entry.requestPath else [originIdentifier entry.origin])) :
    Valid parse widget captures (app.showEntry widget entry wasEmpty).state := by
  unfold showEntry
  dsimp only
  cases hexpand : app.autoExpand with
  | true =>
    rw [hexpand] at hselected
    have hopened := h.foldl_open hw (hbranches hexpand)
    split
    case isTrue hfirst => exact valid_select hw hopened.opened (.inr (hselected hfirst))
    case isFalse hfirst => exact hopened
  | false =>
    rw [hexpand] at hselected
    split
    case isTrue hfirst => exact valid_select hw h.opened (.inr (hselected hfirst))
    case isFalse hfirst => exact h

/-! ## Steps -/

variable (parse widget) in
/-- The invariant of the list. -/
structure Inv (app : RequestListApp σ) : Prop extends Tidy parse app where
  paths : Valid parse widget app.captures app.state

theorem tidy_of_renewed (h : app.Tidy parse) {captures : CaptureSystem}
    (hnumbered : Numbered captures)
    (hsummaries : summaries captures = captures.store.captures.filterMap (summaryAt app.captures))
    (hrenewed : app.Renewed captures.store) : ({ app with captures } : RequestListApp σ).Tidy parse where
  numbered := hnumbered
  current hrevision := by
    obtain ⟨hcaptures, hsame⟩ := hrenewed hrevision
    unfold Shown
    dsimp only at hrevision ⊢
    rw [hsummaries, hcaptures, ← summaries_eq]
    exact h.current (hsame.symm.trans hrevision)

theorem step_addCapture (hw : widget.Lawful) (h : app.Inv parse widget) {i : CaptureSequence}
    (hsparing : app.Sparing parse widget (.addCapture i)) {app' : RequestListApp σ}
    (hadd : app.addCapture parse widget i = some app') : app'.Inv parse widget := by
  obtain ⟨cell, hcell, hadd⟩ := Option.bind_eq_some_iff.1 hadd
  split at hadd
  case isTrue => cases hadd
  case isFalse hrecords =>
    obtain ⟨added, hadded, rfl⟩ : ∃ added,
        (if (app.captures.insert i).1 = true then
          ({ app with captures := (app.captures.insert i).2.reap } : RequestListApp σ)
            |>.repairRequestListAfterRetentionEviction parse widget
        else some { app with captures := (app.captures.insert i).2.reap }) = some added ∧
        app' = added.showEntry widget (RequestTreeEntry.ofSummary parse (summaryOf cell.record))
          app.captures.store.captures.isEmpty := by
      dsimp only at hadd
      split at hadd
      case isTrue hevicted =>
        obtain ⟨added, hadded, hadd⟩ := Option.bind_eq_some_iff.1 hadd
        exact ⟨added, by rw [if_pos hevicted]; exact hadded, (Option.some.inj hadd).symm⟩
      case isFalse hevicted => exact ⟨_, by rw [if_neg hevicted], (Option.some.inj hadd).symm⟩
    have hstep : app.captures.step (.insert i) = some (app.captures.insert i).2.reap := by
      refine Option.map_eq_some_iff.2 ⟨_, Option.bind_eq_some_iff.2 ⟨cell, hcell, ?_⟩, rfl⟩
      exact if_pos (Nat.pos_of_ne_zero hrecords)
    obtain ⟨hrenewed, hopened, hshown⟩ := hsparing
    obtain ⟨hnumbered, hsummaries, hkept⟩ := insert_step h.numbered hstep
    have hstore : (app.captures.insert i).2.reap.store = (app.captures.insert i).2.store :=
      (CaptureSystem.reaped_reap _).store
    have htidy := tidy_of_renewed h.toTidy hnumbered hsummaries (by rw [hstore]; exact hrenewed)
    have hopened' : ∀ path ∈ widget.opened app.state,
        InStore parse (app.captures.insert i).2.reap path :=
      fun path hpath => inStore_reap.2 (hopened path hpath)
    have hadded' : added.Tidy parse ∧ added.captures = (app.captures.insert i).2.reap ∧
        added.autoExpand = app.autoExpand ∧ added.searchActive = app.searchActive ∧
        Valid parse widget (app.captures.insert i).2.reap added.state := by
      split at hadded
      case isTrue hevicted =>
        obtain ⟨tree, state, rfl, htree, hvalid⟩ := repair_spec hw htidy hopened' hadded
        exact ⟨htidy.ensured rfl htree, rfl, rfl, rfl, hvalid⟩
      case isFalse hevicted =>
        obtain rfl := Option.some.inj hadded
        exact ⟨htidy, rfl, rfl, rfl, h.paths.mono (hkept (Bool.eq_false_of_not_eq_true hevicted))⟩
    obtain ⟨htidy', hcaptures, hexpand, hactive, hvalid⟩ := hadded'
    have hpaths : ∀ path ∈ app.shownPaths (RequestTreeEntry.ofSummary parse (summaryOf cell.record)),
        InStore parse (app.captures.insert i).2.reap path :=
      fun path hpath => inStore_reap.2 (hshown cell hcell path hpath)
    refine ⟨⟨htidy'.numbered, htidy'.current⟩, ?_⟩
    change Valid parse widget added.captures _
    rw [hcaptures]
    refine valid_showEntry hw _ _ hvalid (fun hexpanded path hpath => hpaths path ?_)
      fun hfirst => hpaths _ ?_
    · unfold shownPaths
      rw [hexpand] at hexpanded
      rw [if_pos hexpanded]
      exact List.mem_append_left _ hpath
    · unfold shownPaths
      rw [hactive] at hfirst
      rw [if_pos hfirst, hexpand]
      exact List.mem_append_right _ (List.mem_singleton_self _)

theorem step_evictOldestCapture (hw : widget.Lawful) (h : app.Inv parse widget)
    (hsparing : app.Sparing parse widget .evictOldestCapture) {app' : RequestListApp σ}
    (hevict : app.evictOldestCapture parse widget = some app') : app'.Inv parse widget := by
  have hstep : app.captures.step .evictOldest = some app.captures.evictOldest.2.reap := rfl
  obtain ⟨hrenewed, hopened⟩ := hsparing
  have hstore : app.captures.evictOldest.2.reap.store = app.captures.evictOldest.2.store :=
    (CaptureSystem.reaped_reap _).store
  obtain ⟨hnumbered, hsummaries⟩ := removal_step h.numbered hstep
    (by rw [hstore, CaptureSystem.evictOldest_captures]; exact List.tail_sublist _)
  have htidy := tidy_of_renewed h.toTidy hnumbered hsummaries (by rw [hstore]; exact hrenewed)
  unfold evictOldestCapture at hevict
  revert hevict hopened htidy
  rcases app.captures.evictOldest with ⟨_ | i, captures⟩
  · intro hevict _ _
    obtain rfl := Option.some.inj hevict
    exact h
  · intro hevict hopened htidy
    obtain ⟨tree, state, rfl, htree, hvalid⟩ := repair_spec hw htidy
      (fun path hpath => inStore_reap.2 (hopened path hpath)) hevict
    exact ⟨htidy.ensured rfl htree, hvalid⟩

theorem step_clearRequests (hw : widget.Lawful) (h : app.Inv parse widget)
    (hsparing : app.Sparing parse widget .clearRequests) :
    (app.clearRequests widget).Inv parse widget := by
  have hstep : app.captures.step .clear = some app.captures.clear.2.reap := rfl
  have hstore : app.captures.clear.2.reap.store = app.captures.clear.2.store :=
    (CaptureSystem.reaped_reap _).store
  obtain ⟨hnumbered, hsummaries⟩ := removal_step h.numbered hstep
    (by rw [hstore, (CaptureSystem.clear_exact app.captures).2]; exact List.nil_sublist _)
  have htidy := tidy_of_renewed h.toTidy hnumbered hsummaries (by rw [hstore]; exact hsparing)
  exact ⟨⟨htidy.numbered, htidy.current⟩, valid_default hw _⟩

variable (parse widget) in
/-- The selection is a row of the tree, unless the tree has none. -/
structure Reselected (app : RequestListApp σ) : Prop where
  shown : app.Shown parse
  selected : widget.selected app.state ∈ app.requestTree.visiblePaths (widget.opened app.state) ∨
    widget.selected app.state = [] ∧
      app.requestTree.visiblePaths (widget.opened app.state) = []

theorem rebuild_spec (hw : widget.Lawful) (h : app.Tidy parse) {deletedPath : List Bytes}
    {treeBeforeDelete : RequestTreeModel} {app' : RequestListApp σ}
    (hrebuild : app.rebuildRequestListStateAfterDelete parse widget deletedPath treeBeforeDelete =
      some app') : app'.Inv parse widget ∧ app'.Reselected parse widget := by
  obtain ⟨ensured, hensure, hrebuild⟩ := Option.bind_eq_some_iff.1 hrebuild
  obtain ⟨tree, rfl, hshown⟩ := ensureRequestTreeModel_spec h hensure
  obtain rfl := Option.some.inj hrebuild
  dsimp only
  obtain ⟨hselected, hopened⟩ := foldl_close_unless hw (fun path => tree.contains path)
    (widget.opened app.state) app.state
  generalize (widget.opened app.state).foldl (fun state path =>
    if tree.contains path = true then state else widget.close state path) app.state = closed at *
  have hrows : tree.visiblePaths (widget.opened closed) =
      tree.visiblePaths ((widget.opened app.state).filter fun path => tree.contains path) := by
    refine tree.visiblePaths_congr fun path => (hopened path).trans ?_
    rw [List.mem_filter]
    exact and_congr_right fun hpath => ⟨fun hkeep => hkeep hpath, fun hkeep _ => hkeep⟩
  have hkept : ∀ path ∈ widget.opened closed, InStore parse app.captures path := by
    intro path hpath
    obtain ⟨hpath, hkeep⟩ := (hopened path).1 hpath
    exact (hshown.contains h.numbered path).1 (hkeep hpath)
  rw [← hrows]
  generalize hcontext : DeleteSelectionContext.selectedPath
    { deletedPath, treeBeforeDelete, treeAfterDelete := tree
      visiblePaths := tree.visiblePaths (widget.opened closed) } = selected
  have hcases := DeleteSelectionContext.selectedPath_cases
    { deletedPath, treeBeforeDelete, treeAfterDelete := tree
      visiblePaths := tree.visiblePaths (widget.opened closed) }
  rw [hcontext] at hcases
  refine ⟨⟨⟨h.numbered, fun _ => hshown⟩, valid_select hw hkept ?_⟩, ⟨hshown, ?_⟩⟩
  · rcases hcases with hrow | ⟨hempty, -⟩
    · exact .inr (hshown.visible h.numbered hrow)
    · exact .inl hempty
  · dsimp only
    rw [hw.opened_select, hw.selected_select]
    exact hcases

theorem sequences_stored (h : app.Shown parse) (hnumbered : Numbered app.captures)
    {path : List Bytes} (hpath : InStore parse app.captures path) :
    ∃ i ∈ app.requestTree.sequencesUnder path, i ∈ app.captures.store.captures := by
  have hconsistent := (RequestTreeModel.fromRequests_consistent parse
    (nodup_summaries hnumbered)).1 app.requestTree h
  obtain ⟨hne, entry, hentry, hbegins⟩ := hpath
  refine ⟨entry.requestSequence, ?_, ?_⟩
  · refine (hconsistent.sequences path hne).mem_iff.2 (List.mem_map_of_mem ?_)
    exact List.mem_filter.2 ⟨hentry, decide_eq_true hbegins⟩
  · obtain ⟨summary, hsummary, rfl⟩ := List.mem_map.1 hentry
    rw [← sequences_summaries hnumbered]
    exact List.mem_map_of_mem hsummary

/-- A delete removes something and selects a row. -/
theorem step_deleteSelectedRequests (hw : widget.Lawful) (h : app.Inv parse widget)
    {removed : Nat} {app' : RequestListApp σ}
    (hdelete : app.deleteSelectedRequests parse widget = some (removed, app')) :
    app'.Inv parse widget ∧
      (widget.selected app.state ≠ [] → 0 < removed ∧ app'.Reselected parse widget) := by
  unfold deleteSelectedRequests at hdelete
  dsimp only at hdelete
  split at hdelete
  case isTrue hnone =>
    obtain ⟨-, rfl⟩ := Prod.mk.inj (Option.some.inj hdelete)
    exact ⟨h, fun hne => absurd hnone hne⟩
  case isFalse hne =>
    obtain ⟨ensured, hensure, hdelete⟩ := Option.bind_eq_some_iff.1 hdelete
    obtain ⟨tree, rfl, hshown⟩ := ensureRequestTreeModel_spec h.toTidy hensure
    dsimp only at hdelete
    have hstep : app.captures.step
        (.removeSequences (tree.sequencesUnder (widget.selected app.state))) =
          some (app.captures.removeSequences
            (tree.sequencesUnder (widget.selected app.state))).2.reap := rfl
    have hstored := sequences_stored hshown h.numbered (h.paths.selected.resolve_left hne)
    obtain ⟨i, hi, hstored⟩ := hstored
    rcases removeSequences_cases app.captures
      (tree.sequencesUnder (widget.selected app.state)) with ⟨-, hnone⟩ | ⟨hpos, hsub, hrevision⟩
    · exact absurd hstored (hnone i hi)
    · rw [if_pos hpos] at hdelete
      obtain ⟨rebuilt, hrebuild, hdelete⟩ := Option.bind_eq_some_iff.1 hdelete
      obtain ⟨rfl, rfl⟩ := Prod.mk.inj (Option.some.inj hdelete)
      have hstore := (CaptureSystem.reaped_reap (app.captures.removeSequences
        (tree.sequencesUnder (widget.selected app.state))).2).store
      obtain ⟨hnumbered, -⟩ := removal_step h.numbered hstep (by rw [hstore]; exact hsub)
      obtain ⟨hinv, hreselected⟩ := rebuild_spec hw ⟨hnumbered, fun hsame => by
        dsimp only at hsame
        rw [hstore, hrevision] at hsame
        exact absurd hsame nextStoreRevision_ne⟩ hrebuild
      exact ⟨hinv, fun _ => ⟨hpos, hreselected⟩⟩

theorem valid_of_row {captures : CaptureSystem} {state state' : σ}
    (h : Valid parse widget captures state)
    (hrows : ∀ row ∈ widget.rows state, InStore parse captures row)
    (hopened : widget.opened state' = widget.opened state)
    (hselected : widget.selected state' = [] ∨ widget.selected state' ∈ widget.rows state) :
    Valid parse widget captures state' where
  selected := hselected.imp_right (hrows _)
  opened := by rw [hopened]; exact h.opened

theorem selectedRequestSubtreePath_eq_some {path : List Bytes}
    (h : app.selectedRequestSubtreePath widget = some path) : path = widget.selected app.state := by
  unfold selectedRequestSubtreePath at h
  dsimp only at h
  split at h
  · cases h
  · exact (Option.some.inj h).symm

theorem step_openMatching (hw : widget.Lawful) (h : app.Inv parse widget)
    {shouldOpen : List Bytes → Bool} {app' : RequestListApp σ}
    (hopen : app.openMatchingRequestTreeBranchPaths parse widget shouldOpen = some app') :
    app'.Inv parse widget := by
  obtain ⟨ensured, hensure, hopen⟩ := Option.bind_eq_some_iff.1 hopen
  obtain ⟨tree, rfl, hshown⟩ := ensureRequestTreeModel_spec h.toTidy hensure
  obtain rfl := Option.some.inj hopen
  refine ⟨h.toTidy.ensured rfl hshown, h.paths.foldl_open hw fun path hpath => ?_⟩
  exact hshown.branches h.numbered (List.mem_filter.1 hpath).1

theorem step_collapseAll (hw : widget.Lawful) (h : app.Inv parse widget) :
    (app.collapseAllRequestSubtrees widget).Inv parse widget := by
  have hopened : ∀ path ∈ widget.opened (widget.closeAll app.state),
      InStore parse app.captures path := by
    rw [hw.opened_closeAll]
    exact fun path hpath => absurd hpath List.not_mem_nil
  unfold collapseAllRequestSubtrees
  cases hhead : (widget.selected app.state).head? with
  | none =>
    refine ⟨⟨h.numbered, h.current⟩, ?_, hopened⟩
    rw [hw.selected_closeAll]
    exact h.paths.selected
  | some origin =>
    refine ⟨⟨h.numbered, h.current⟩, valid_select hw hopened ?_⟩
    obtain ⟨rest, hrest⟩ := List.head?_eq_some_iff.1 hhead
    have hstored := h.paths.selected.resolve_left (by rw [hrest]; exact List.cons_ne_nil _ _)
    exact hstored.of_prefix (by rw [hrest]; exact ⟨rest, rfl⟩)

theorem Inv.state (h : app.Inv parse widget) {state : σ}
    (hvalid : Valid parse widget app.captures state) :
    ({ app with state } : RequestListApp σ).Inv parse widget :=
  ⟨⟨h.numbered, h.current⟩, hvalid⟩

theorem step_inv (hw : widget.Lawful) (h : app.Inv parse widget) {event : RequestListEvent}
    (hsparing : app.Sparing parse widget event) {app' : RequestListApp σ}
    (hstep : app.step parse widget event = some app') : app'.Inv parse widget := by
  cases event with
  | capture action =>
    unfold step at hstep
    dsimp only at hstep
    split at hstep
    case isTrue => cases hstep
    case isFalse hstore =>
      obtain ⟨captures, hcaptures, rfl⟩ := Option.map_eq_some_iff.1 hstep
      obtain ⟨hnumbered, hsame, hsummaries⟩ :=
        unstored_step h.numbered (Bool.eq_false_of_not_eq_true hstore) hcaptures
      refine ⟨⟨hnumbered, fun hrevision => ?_⟩, h.paths.mono fun summary hmem => ?_⟩
      · dsimp only at hrevision
        unfold Shown
        dsimp only
        rw [hsummaries]
        exact h.current (by rw [← hrevision, hsame])
      · rw [hsummaries]
        exact hmem
  | addCapture i => exact step_addCapture hw h hsparing hstep
  | evictOldestCapture => exact step_evictOldestCapture hw h hsparing hstep
  | deleteSelectedRequests =>
    obtain ⟨⟨removed, app''⟩, hdelete, rfl⟩ := Option.map_eq_some_iff.1 hstep
    exact (step_deleteSelectedRequests hw h hdelete).1
  | clearRequests =>
    obtain rfl := Option.some.inj hstep
    exact step_clearRequests hw h hsparing
  | next =>
    obtain rfl := Option.some.inj hstep
    exact h.state (valid_of_row h.paths hsparing (hw.opened_keyDown _) (hw.selected_keyDown _))
  | previous =>
    obtain rfl := Option.some.inj hstep
    exact h.state (valid_of_row h.paths hsparing (hw.opened_keyUp _) (hw.selected_keyUp _))
  | keyLeft =>
    obtain rfl := Option.some.inj hstep
    refine h.state ?_
    rw [hw.keyLeft]
    split
    · exact h.paths.close hw _
    · refine valid_select hw h.paths.opened ?_
      rcases h.paths.selected with hnone | hstored
      · exact .inl (by rw [hnone]; rfl)
      · exact hstored.of_prefix (List.dropLast_prefix _)
  | clickAt position =>
    obtain rfl := Option.some.inj hstep
    refine h.state ?_
    rcases hw.clickAt app.state position with hsame | ⟨row, hrow, hclick⟩
    · rw [hsame]
      exact h.paths
    · rw [hclick]
      have hstored := hsparing row hrow
      split
      · exact h.paths.toggle hw (.inr hstored)
      · exact valid_select hw h.paths.opened (.inr hstored)
  | toggleSelectedRequestSubtree =>
    obtain rfl := Option.some.inj hstep
    unfold toggleSelectedRequestSubtree
    cases hpath : app.selectedRequestSubtreePath widget with
    | none => exact h
    | some path =>
      rw [selectedRequestSubtreePath_eq_some hpath]
      exact h.state (h.paths.toggle hw h.paths.selected)
  | openSelectedRequestSubtree =>
    obtain rfl := Option.some.inj hstep
    unfold openSelectedRequestSubtree
    cases hpath : app.selectedRequestSubtreePath widget with
    | none => exact h
    | some path =>
      rw [selectedRequestSubtreePath_eq_some hpath]
      exact h.state (h.paths.openPath hw h.paths.selected)
  | expandSelectedRequestSubtree =>
    unfold step expandSelectedRequestSubtree at hstep
    cases hpath : app.selectedRequestSubtreePath widget with
    | none =>
      rw [hpath] at hstep
      obtain rfl := Option.some.inj hstep
      exact h
    | some path =>
      rw [hpath] at hstep
      exact step_openMatching hw h hstep
  | expandAllRequestSubtrees => exact step_openMatching hw h hstep
  | collapseAllRequestSubtrees =>
    obtain rfl := Option.some.inj hstep
    exact step_collapseAll hw h
  | collapseSelectedRequestSubtreeChildren =>
    obtain rfl := Option.some.inj hstep
    unfold collapseSelectedRequestSubtreeChildren
    cases hpath : app.selectedRequestSubtreePath widget with
    | none => exact h
    | some path =>
      rw [selectedRequestSubtreePath_eq_some hpath]
      exact h.state ((h.paths.foldl_close hw _).openPath hw h.paths.selected)
  | draw =>
    obtain ⟨ensured, hensure, hdraw⟩ := Option.bind_eq_some_iff.1 hstep
    obtain ⟨tree, rfl, hshown⟩ := ensureRequestTreeModel_spec h.toTidy hensure
    obtain rfl := Option.some.inj hdraw
    refine ⟨h.toTidy.ensured rfl hshown, ?_, ?_⟩
    · dsimp only
      rw [hw.selected_render]
      exact h.paths.selected
    · dsimp only
      rw [hw.opened_render]
      exact h.paths.opened
  | setAutoExpand autoExpand | setSearchActive searchActive =>
    obtain rfl := Option.some.inj hstep
    exact ⟨⟨h.numbered, h.current⟩, h.paths⟩

theorem inv_new (hw : widget.Lawful) (policy : CapturePolicy) (retention : CaptureRetentionPolicy)
    (autoExpand : Bool) : (new widget policy retention autoExpand).Inv parse widget :=
  ⟨⟨numbered_new policy retention, fun _ => rfl⟩, valid_default hw _⟩

variable (widget) in
/-- The paths that the widget keeps are in the tree. -/
structure PathsInTree (app : RequestListApp σ) (tree : RequestTreeModel) : Prop where
  selected : widget.selected app.state = [] ∨ tree.contains (widget.selected app.state) = true
  opened : ∀ path ∈ widget.opened app.state, tree.contains path = true

/-- In a run that spares the paths of the widget they are in the tree of the stored captures
throughout, and a delete selects a row of the new tree. -/
theorem paths_in_tree (hw : widget.Lawful) {policy : CapturePolicy}
    {retention : CaptureRetentionPolicy} {autoExpand : Bool} {events : List RequestListEvent}
    (hsparing : Along (step parse widget) (Sparing parse widget)
      (new widget policy retention autoExpand) events)
    (hrun : run (step parse widget) (new widget policy retention autoExpand) events = some app) :
    (∀ tree, RequestTreeModel.fromRequests parse (summaries app.captures) = some tree →
      app.PathsInTree widget tree) ∧
    ∀ removed app', app.deleteSelectedRequests parse widget = some (removed, app') →
      widget.selected app.state ≠ [] → 0 < removed ∧ app'.Reselected parse widget := by
  have h : app.Inv parse widget :=
    run_invariant_along (fun s event t hs hspare hstep => step_inv hw hs hspare hstep)
      (inv_new hw policy retention autoExpand) hsparing hrun
  refine ⟨fun tree htree => ⟨?_, fun path hpath => ?_⟩, fun removed app' hdelete hne => ?_⟩
  · exact h.paths.selected.imp_right (contains_iff h.numbered htree _).2
  · exact (contains_iff h.numbered htree path).2 (h.paths.opened path hpath)
  · exact (step_deleteSelectedRequests hw h hdelete).2 hne

end List

/-! ## A widget that keeps lists -/

structure ListState where
  opened : List (List Bytes) := []
  selected : List Bytes := []
  rows : List (List Bytes) := []
  deriving DecidableEq, Repr

namespace ListState

def openPath (s : ListState) (path : List Bytes) : ListState :=
  if path = [] then s else { s with opened := path :: s.opened }

def close (s : ListState) (path : List Bytes) : ListState :=
  { s with opened := s.opened.filter (· ≠ path) }

def toggle (s : ListState) (path : List Bytes) : ListState :=
  if path ∈ s.opened then s.close path else s.openPath path

/-- The row at `index`, if there is one. -/
def selectRow (s : ListState) (index : Nat) : ListState :=
  { s with selected := s.rows[index]?.getD [] }

def keyDown (s : ListState) : ListState :=
  let current := s.rows.idxOf s.selected
  s.selectRow (if current < s.rows.length then min (current + 1) (s.rows.length - 1) else 0)

def keyUp (s : ListState) : ListState :=
  let current := s.rows.idxOf s.selected
  s.selectRow (if current < s.rows.length then current - 1 else s.rows.length - 1)

def keyLeft (s : ListState) : ListState :=
  if s.selected ∈ s.opened then s.close s.selected
  else { s with selected := s.selected.dropLast }

def clickAt (s : ListState) (position : Nat × Nat) : ListState :=
  match s.rows[position.2]? with
  | none => s
  | some row => if row = s.selected then s.toggle row else { s with selected := row }

theorem selectRow_cases (s : ListState) (index : Nat) :
    (s.selectRow index).selected = [] ∨ (s.selectRow index).selected ∈ s.rows := by
  unfold selectRow
  cases hrow : s.rows[index]? with
  | none => exact .inl rfl
  | some row => exact .inr (List.mem_of_getElem? hrow)

end ListState

def listWidget : TreeWidget ListState where
  default := {}
  opened := ListState.opened
  selected := ListState.selected
  rows := ListState.rows
  select := fun s path => { s with selected := path }
  openPath := ListState.openPath
  close := ListState.close
  toggle := ListState.toggle
  closeAll := fun s => { s with opened := [] }
  keyDown := ListState.keyDown
  keyUp := ListState.keyUp
  keyLeft := ListState.keyLeft
  clickAt := ListState.clickAt
  render := fun s flatten => { s with rows := flatten s.opened }

theorem listWidget_lawful : listWidget.Lawful where
  opened_default := rfl
  selected_default := rfl
  opened_select := fun _ _ => rfl
  selected_select := fun _ _ => rfl
  mem_opened_open := fun s path other => by
    unfold listWidget ListState.openPath
    dsimp only
    split
    case isTrue hempty => simp [hempty]
    case isFalse hne => simp [hne, or_comm]
  selected_open := fun s path => by
    unfold listWidget ListState.openPath
    dsimp only
    split <;> rfl
  mem_opened_close := fun s path other => by
    unfold listWidget ListState.close
    simp
  selected_close := fun _ _ => rfl
  toggle := fun _ _ => rfl
  opened_closeAll := fun _ => rfl
  selected_closeAll := fun _ => rfl
  opened_keyDown := fun _ => rfl
  selected_keyDown := fun s => s.selectRow_cases _
  opened_keyUp := fun _ => rfl
  selected_keyUp := fun s => s.selectRow_cases _
  keyLeft := fun _ => rfl
  clickAt := fun s position => by
    unfold listWidget ListState.clickAt
    dsimp only
    cases hrow : s.rows[position.2]? with
    | none => exact .inl rfl
    | some row => exact .inr ⟨row, List.mem_of_getElem? hrow, rfl⟩
  opened_render := fun _ _ => rfl
  selected_render := fun _ _ => rfl
  rows_render := fun _ _ => rfl

/-! ## Samples -/

def sampleInput (host uri : String) : RequestCaptureInput :=
  { method := ofAscii "GET"
    originalUri := ofAscii uri
    effectiveUri := ofAscii uri
    localPath := none
    headers := [(ofAscii "Host", ofAscii host)] }

/-- A request that is captured and handed to the list. -/
def sampleArrival (i : CaptureSequence) (host uri : String) : List RequestListEvent :=
  [.capture (.tryStart (sampleInput host uri) 0 0), .capture .receive, .addCapture i]

def sampleBrowsing : List RequestListEvent :=
  sampleArrival 0 "a" "/api/list" ++ sampleArrival 1 "b" "/" ++ [.draw, .next, .next]

instance decidableSparing (app : RequestListApp ListState) (event : RequestListEvent) :
    Decidable (app.Sparing RequestTreeModel.sampleParse listWidget event) := by
  cases event <;> unfold Sparing <;> infer_instance

theorem paths_in_tree_sample :
    ∃ app : RequestListApp ListState,
      run (step RequestTreeModel.sampleParse listWidget) (new listWidget {} {} true)
        sampleBrowsing = some app ∧
      (∀ tree, RequestTreeModel.fromRequests RequestTreeModel.sampleParse
          (summaries app.captures) = some tree → app.PathsInTree listWidget tree) ∧
      ∀ removed app', app.deleteSelectedRequests RequestTreeModel.sampleParse listWidget =
          some (removed, app') → app.state.selected ≠ [] →
        0 < removed ∧ app'.Reselected RequestTreeModel.sampleParse listWidget := by
  obtain ⟨app, hrun⟩ := Option.isSome_iff_exists.1
    (show (run (step RequestTreeModel.sampleParse listWidget) (new listWidget {} {} true)
      sampleBrowsing).isSome = true by decide +kernel)
  exact ⟨app, hrun, paths_in_tree listWidget_lawful (by decide +kernel) hrun⟩

/-- The origin of the first request is gone when the second one arrives, and is still opened. -/
theorem evicted_origin_opened :
    ∃ (app : RequestListApp ListState) (tree : RequestTreeModel),
      run (step RequestTreeModel.sampleParse listWidget)
        (new listWidget {} { maxRecords := 1 } true)
        (sampleArrival 0 "a" "/" ++ sampleArrival 1 "b" "/") = some app ∧
      RequestTreeModel.fromRequests RequestTreeModel.sampleParse (summaries app.captures) =
        some tree ∧
      ¬ app.PathsInTree listWidget tree := by
  have hlost : ((run (step RequestTreeModel.sampleParse listWidget)
      (new listWidget {} { maxRecords := 1 } true)
      (sampleArrival 0 "a" "/" ++ sampleArrival 1 "b" "/")).bind fun app =>
        (RequestTreeModel.fromRequests RequestTreeModel.sampleParse (summaries app.captures)).map
          fun tree => decide ([originIdentifier (ofAscii "https://a")] ∈ app.state.opened) &&
            !tree.contains [originIdentifier (ofAscii "https://a")]) = some true := by
    decide +kernel
  obtain ⟨app, hrun, hlost⟩ := Option.bind_eq_some_iff.1 hlost
  obtain ⟨tree, htree, hlost⟩ := Option.map_eq_some_iff.1 hlost
  obtain ⟨hopened, hout⟩ := (Bool.and_eq_true_iff).1 hlost
  refine ⟨app, tree, hrun, htree, fun h => ?_⟩
  rw [h.opened _ (of_decide_eq_true hopened)] at hout
  cases hout

end RequestListApp

end Fluxcope.Requests
