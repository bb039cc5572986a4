import Fluxcope.Requests.RequestListSearch
/-!
# What the search keeps of its requests

Of the modes of the search only the active search, the one put aside while a query is
edited, and the dispatch intent matter to the service.
-/

namespace Fluxcope.Requests

open Fluxcope.Library Fluxcope.Library.Utf8 Fluxcope.Capture

def ActiveSearch.waiting (active : ActiveSearch) : Bool :=
  match active.progress with
  | .pending | .refreshing _ => true
  | .ready _ | .failed _ => false

/-- The committed search that cancelling the editing restores. -/
def RequestListSearch.prior (search : RequestListSearch) : Option ActiveSearch :=
  match search.mode with
  | .idle | .committed _ => none
  | .editing editing => editing.rollback.priorCommitted

/-- The text of the query while it is edited. -/
def RequestListSearch.input (search : RequestListSearch) : Option Bytes :=
  match search.mode with
  | .idle | .committed _ => none
  | .editing editing => some editing.input

/-! ## The core -/

structure SearchCore where
  active : Option ActiveSearch
  prior : Option ActiveSearch
  dispatch : Option DispatchIntent
  capturesTree : RequestTreeModel
  capturesRevision : Nat
  requestTree : RequestTreeModel
  requestTreeRevision : Nat

/-- A search that is run again on another tree. -/
def ActiveSearch.refreshed (active : ActiveSearch) (treeRevision : Nat) : ActiveSearch :=
  { active with
    key := { active.key with treeRevision }
    progress := RequestListSearch.refreshProgress active.progress
    selectFirstWhenReady := false }

namespace SearchCore

def refresh (core : SearchCore) (treeRevision : Nat) : SearchCore :=
  match core.active with
  | none => core
  | some active =>
    if active.key.treeRevision = treeRevision then core
    else
      { core with
        active := some (active.refreshed treeRevision)
        dispatch := some (.run (active.refreshed treeRevision).key active.query) }

def ensure (core : SearchCore) : SearchCore :=
  if core.capturesRevision = core.requestTreeRevision then core
  else
    ({ core with
      requestTree := core.capturesTree
      requestTreeRevision := core.capturesRevision } : SearchCore).refresh core.capturesRevision

/-- The editing is given up for the search that was put aside. -/
def restore (core : SearchCore) : SearchCore :=
  let core :=
    ({ core with active := core.prior, prior := none, dispatch := some .cancel } : SearchCore).ensure
  core.refresh core.requestTreeRevision

/-- A query is activated, or its text is gone. -/
def activate (core : SearchCore) (generation : Nat) (query : Bytes) : SearchCore :=
  if query = [] then { core with active := none, dispatch := some .cancel }
  else
    let key : SearchRequestKey := { generation, treeRevision := core.requestTreeRevision }
    { core with
      active := some { query, key, progress := .pending, selectFirstWhenReady := true }
      dispatch := some (.run key query) }

/-- The outcome is ignored, or the progress of the active search is its result. -/
def apply (core : SearchCore) (outcome : SearchJobOutcome) : SearchCore :=
  match core.active with
  | none => core
  | some active =>
    if active.key ≠ outcome.key then core
    else
      match outcome with
      | .completed _ results =>
        { core with
          active := some { active with progress := .ready results, selectFirstWhenReady := false } }
      | .cancelled _ => core
      | .failed _ _ =>
        { core with
          active := some
            { active with progress := .failed active.results, selectFirstWhenReady := false } }

end SearchCore

namespace SearchApp

variable {σ : Type} {widget : TreeWidget σ}

def core (app : SearchApp σ) : SearchCore :=
  { active := app.search.active
    prior := app.search.prior
    dispatch := app.search.dispatch
    capturesTree := app.capturesTree
    capturesRevision := app.capturesRevision
    requestTree := app.requestTree
    requestTreeRevision := app.requestTreeRevision }

/-! ## Operations that only open, close and select -/

/-- Two searches that differ in the openings and the limit mark only. -/
structure SameSearch (search search' : RequestListSearch) : Prop where
  active : search'.active = search.active
  prior : search'.prior = search.prior
  dispatch : search'.dispatch = search.dispatch
  generation : search'.nextGeneration = search.nextGeneration
  input : search'.input = search.input

theorem SameSearch.refl (search : RequestListSearch) : SameSearch search search :=
  ⟨rfl, rfl, rfl, rfl, rfl⟩

theorem SameSearch.trans {search search' search'' : RequestListSearch}
    (h : SameSearch search search') (h' : SameSearch search' search'') :
    SameSearch search search'' :=
  ⟨h'.active.trans h.active, h'.prior.trans h.prior, h'.dispatch.trans h.dispatch,
    h'.generation.trans h.generation, h'.input.trans h.input⟩

theorem sameSearch_modifyEditing (search : RequestListSearch) {f : EditingSearch → EditingSearch}
    (hactive : ∀ editing, (f editing).active = editing.active)
    (hrollback : ∀ editing, (f editing).rollback = editing.rollback)
    (hinput : ∀ editing, (f editing).input = editing.input) :
    SameSearch search (search.modifyEditing f) := by
  unfold RequestListSearch.modifyEditing
  split
  case h_1 editing hmode =>
    refine ⟨?_, ?_, rfl, rfl, ?_⟩
    · unfold RequestListSearch.active
      rw [hmode]
      exact hactive editing
    · unfold RequestListSearch.prior
      rw [hmode]
      exact congrArg EditingRollback.priorCommitted (hrollback editing)
    · unfold RequestListSearch.input
      rw [hmode]
      exact congrArg some (hinput editing)
  case h_2 => exact .refl search
  case h_3 => exact .refl search

theorem sameSearch_noteTransientOpening (search : RequestListSearch) (path : List Bytes)
    (reason : TransientOpeningReason) (newlyOpened : Bool) :
    SameSearch search (search.noteTransientOpening path reason newlyOpened) := by
  refine sameSearch_modifyEditing search (fun editing => ?_) (fun editing => ?_) fun editing => ?_
  · split <;> split <;> rfl
  · split <;> split <;> rfl
  · split <;> split <;> rfl

theorem sameSearch_clearMatchRevealReasons (search : RequestListSearch) :
    SameSearch search search.clearMatchRevealReasons.2 := by
  unfold RequestListSearch.clearMatchRevealReasons
  split
  · exact .refl search
  · exact .refl search
  · exact sameSearch_modifyEditing search (fun _ => rfl) (fun _ => rfl) fun _ => rfl

/-- Two states of the list between which neither the search nor the trees change. -/
structure SameCore (app app' : SearchApp σ) : Prop where
  search : SameSearch app.search app'.search
  capturesTree : app'.capturesTree = app.capturesTree
  capturesRevision : app'.capturesRevision = app.capturesRevision
  requestTree : app'.requestTree = app.requestTree
  requestTreeRevision : app'.requestTreeRevision = app.requestTreeRevision

theorem SameCore.refl (app : SearchApp σ) : SameCore app app :=
  ⟨.refl _, rfl, rfl, rfl, rfl⟩

theorem SameCore.trans {app app' app'' : SearchApp σ} (h : SameCore app app')
    (h' : SameCore app' app'') : SameCore app app'' :=
  ⟨h.search.trans h'.search, h'.capturesTree.trans h.capturesTree,
    h'.capturesRevision.trans h.capturesRevision, h'.requestTree.trans h.requestTree,
    h'.requestTreeRevision.trans h.requestTreeRevision⟩

theorem SameCore.core_eq {app app' : SearchApp σ} (h : SameCore app app') :
    app'.core = app.core := by
  unfold SearchApp.core
  rw [h.search.active, h.search.prior, h.search.dispatch, h.capturesTree, h.capturesRevision,
    h.requestTree, h.requestTreeRevision]

theorem sameCore_search (app : SearchApp σ) {search : RequestListSearch}
    (h : SameSearch app.search search) : SameCore app { app with search } :=
  ⟨h, rfl, rfl, rfl, rfl⟩

theorem sameCore_state (app : SearchApp σ) (state : σ) : SameCore app { app with state } :=
  ⟨.refl _, rfl, rfl, rfl, rfl⟩

theorem sameCore_openNoting (app : SearchApp σ) (path : List Bytes)
    (reason : TransientOpeningReason) : SameCore app (app.openNoting widget path reason) :=
  ⟨sameSearch_noteTransientOpening app.search path reason _, rfl, rfl, rfl, rfl⟩

theorem sameCore_foldl_openNoting (paths : List (List Bytes)) (reason : TransientOpeningReason)
    (app : SearchApp σ) :
    SameCore app (paths.foldl (fun app path => app.openNoting widget path reason) app) := by
  induction paths generalizing app with
  | nil => exact .refl app
  | cons path paths ih => exact (sameCore_openNoting app path reason).trans (ih _)

theorem sameCore_reveal (app : SearchApp σ) (path : List Bytes) (editingReveal : Bool) :
    SameCore app (app.revealRequestSearchMatch widget path editingReveal) := by
  unfold revealRequestSearchMatch
  dsimp only
  refine SameCore.trans ?_ (sameCore_state _ _)
  split
  · refine SameCore.trans ?_ (sameCore_foldl_openNoting _ _ _)
    exact (sameCore_search app (sameSearch_clearMatchRevealReasons app.search)).trans
      (sameCore_state _ _)
  · exact sameCore_state _ _

/-! ## The trees -/

theorem active_setActive {search : RequestListSearch} {active : ActiveSearch}
    (h : search.active = some active) (active' : ActiveSearch) :
    (search.setActive active').active = some active' ∧
      (search.setActive active').prior = search.prior ∧
      (search.setActive active').input = search.input := by
  obtain ⟨mode, nextGeneration, dispatch⟩ := search
  cases mode with
  | idle => cases h
  | editing editing => exact ⟨rfl, rfl, rfl⟩
  | committed committed => exact ⟨rfl, rfl, rfl⟩

theorem setActive_rest (search : RequestListSearch) (active : ActiveSearch) :
    (search.setActive active).dispatch = search.dispatch ∧
      (search.setActive active).nextGeneration = search.nextGeneration := by
  unfold RequestListSearch.setActive
  split <;> exact ⟨rfl, rfl⟩

theorem core_refreshForTree (app : SearchApp σ) (treeRevision : Nat) :
    ({ app with search := app.search.refreshForTree treeRevision } : SearchApp σ).core =
      app.core.refresh treeRevision := by
  unfold RequestListSearch.refreshForTree SearchCore.refresh
  cases hactive : app.search.active with
  | none =>
    have hcore : app.core.active = none := hactive
    rw [hcore]
  | some active =>
    have hcore : app.core.active = some active := hactive
    rw [hcore]
    dsimp only
    split
    · rfl
    · obtain ⟨hnew, hprior, -⟩ := active_setActive hactive (active.refreshed treeRevision)
      unfold SearchApp.core
      dsimp only
      exact congrArg₂ (fun active prior => (⟨active, prior, _, _, _, _, _⟩ : SearchCore)) hnew
        hprior

theorem rest_refreshForTree (search : RequestListSearch) (treeRevision : Nat) :
    (search.refreshForTree treeRevision).input = search.input ∧
      (search.refreshForTree treeRevision).nextGeneration = search.nextGeneration := by
  unfold RequestListSearch.refreshForTree
  cases hactive : search.active with
  | none => exact ⟨rfl, rfl⟩
  | some active =>
    dsimp only
    split
    · exact ⟨rfl, rfl⟩
    · exact ⟨(active_setActive hactive _).2.2, (setActive_rest search _).2⟩

theorem core_ensure (app : SearchApp σ) : app.ensureRequestTreeModel.core = app.core.ensure := by
  unfold ensureRequestTreeModel SearchCore.ensure
  change (if app.capturesRevision = app.requestTreeRevision then app else _).core =
    if app.capturesRevision = app.requestTreeRevision then app.core else _
  split
  · rfl
  · exact core_refreshForTree
      { app with requestTree := app.capturesTree, requestTreeRevision := app.capturesRevision }
      app.capturesRevision

theorem rest_ensure (app : SearchApp σ) :
    app.ensureRequestTreeModel.search.input = app.search.input ∧
      app.ensureRequestTreeModel.search.nextGeneration = app.search.nextGeneration := by
  unfold ensureRequestTreeModel
  split
  · exact ⟨rfl, rfl⟩
  · exact rest_refreshForTree app.search app.capturesRevision

end SearchApp

namespace SearchCore

theorem refresh_trees (core : SearchCore) (treeRevision : Nat) :
    (core.refresh treeRevision).capturesRevision = core.capturesRevision ∧
      (core.refresh treeRevision).requestTreeRevision = core.requestTreeRevision ∧
      (core.refresh treeRevision).requestTree = core.requestTree ∧
      (core.refresh treeRevision).prior = core.prior := by
  unfold refresh
  split
  · exact ⟨rfl, rfl, rfl, rfl⟩
  · split <;> exact ⟨rfl, rfl, rfl, rfl⟩

theorem ensure_current (core : SearchCore) :
    core.ensure.capturesRevision = core.ensure.requestTreeRevision := by
  unfold ensure
  split
  case isTrue h => exact h
  case isFalse h =>
    obtain ⟨hcaptures, htree, -, -⟩ := ({ core with
      requestTree := core.capturesTree
      requestTreeRevision := core.capturesRevision } : SearchCore).refresh_trees
        core.capturesRevision
    rw [hcaptures, htree]

theorem ensure_ensure (core : SearchCore) : core.ensure.ensure = core.ensure := by
  have h := core.ensure_current
  generalize core.ensure = ensured at h ⊢
  unfold ensure
  rw [if_pos h]

end SearchCore

namespace SearchApp

variable {σ : Type} {widget : TreeWidget σ}

theorem core_restoreSelection (app : SearchApp σ) (selected : List Bytes) :
    SameCore app.ensureRequestTreeModel (app.restoreRequestSearchSelection widget selected) := by
  unfold restoreRequestSearchSelection
  dsimp only
  split
  · exact sameCore_state _ _
  split
  · exact sameCore_state _ _
  · exact .refl _

theorem sameCore_restoreScrollOffset (app : SearchApp σ) (offset : Nat) :
    SameCore app (app.restoreScrollOffset widget offset) := ⟨.refl _, rfl, rfl, rfl, rfl⟩

theorem SameCore.ensure {app app' : SearchApp σ} (h : SameCore app app') :
    app'.ensureRequestTreeModel.core = app.core.ensure := by
  rw [core_ensure, h.core_eq]

/-! ## The keys -/

theorem cancelEditing_spec {search : RequestListSearch} (hinput : search.input.isSome) :
    ∃ restore search', search.cancelEditing = some (restore, search') ∧
      search'.active = search.prior ∧ search'.prior = none ∧ search'.dispatch = some .cancel := by
  obtain ⟨mode, nextGeneration, dispatch⟩ := search
  cases mode with
  | idle => cases hinput
  | committed active => cases hinput
  | editing editing =>
    refine ⟨_, _, rfl, ?_, ?_, rfl⟩
    · unfold RequestListSearch.active RequestListSearch.prior
      dsimp only
      cases editing.rollback.priorCommitted <;> rfl
    · unfold RequestListSearch.prior
      dsimp only
      cases editing.rollback.priorCommitted <;> rfl

theorem core_cancelEditing (app : SearchApp σ) (hinput : app.search.input.isSome) :
    (app.cancelRequestSearchEditing widget).core = app.core.restore := by
  obtain ⟨restore, search, hcancel, hactive, hprior, hdispatch⟩ := cancelEditing_spec hinput
  unfold cancelRequestSearchEditing
  rw [hcancel]
  dsimp only
  rw [core_refreshForTree]
  have hcore : ({ app with search } : SearchApp σ).core =
      { app.core with active := app.core.prior, prior := none, dispatch := some .cancel } := by
    unfold SearchApp.core
    dsimp only
    rw [hactive, hprior, hdispatch]
  have hrestored := ((@core_restoreSelection _ widget)
    ({ app with search }.closePaths widget (deepestFirst restore.pathsToClose))
      restore.selectedPath).trans ((@sameCore_restoreScrollOffset _ widget) _ restore.scrollOffset)
  have hclosed : (({ app with search } : SearchApp σ).closePaths widget
      (deepestFirst restore.pathsToClose)).core =
        { app.core with active := app.core.prior, prior := none, dispatch := some .cancel } :=
    hcore
  have hensured := hrestored.ensure.trans (by rw [core_ensure, SearchCore.ensure_ensure, hclosed])
  unfold SearchCore.restore
  dsimp only
  rw [← hensured]
  rfl

theorem core_commitEditing (app : SearchApp σ) :
    (({ app with search := app.search.commitEditing } : SearchApp σ).core = app.core) ∨
      ({ app with search := app.search.commitEditing } : SearchApp σ).core =
        { app.core with prior := none } := by
  obtain ⟨tree, revision, requestTree, requestTreeRevision, state, scrollOffset, search⟩ := app
  obtain ⟨mode, nextGeneration, dispatch⟩ := search
  cases mode with
  | idle => exact .inl rfl
  | committed active => exact .inl rfl
  | editing editing =>
    cases hactive : editing.active with
    | none =>
      refine .inl ?_
      unfold RequestListSearch.commitEditing
      dsimp only
      rw [hactive]
    | some active =>
      refine .inr ?_
      unfold RequestListSearch.commitEditing
      dsimp only
      rw [hactive]
      unfold SearchApp.core RequestListSearch.active RequestListSearch.prior
      dsimp only
      rw [hactive]

theorem core_activate {app : SearchApp σ} {input : Bytes} (hinput : app.search.input = some input) :
    ({ app with search := app.search.activateEditedQuery app.requestTreeRevision } :
      SearchApp σ).core =
        app.core.activate (nextSearchGeneration app.search.nextGeneration) input := by
  obtain ⟨tree, revision, requestTree, requestTreeRevision, state, scrollOffset, search⟩ := app
  obtain ⟨mode, nextGeneration, dispatch⟩ := search
  cases mode with
  | idle => cases hinput
  | committed active => cases hinput
  | editing editing =>
    obtain rfl : editing.input = input := Option.some.inj hinput
    unfold RequestListSearch.activateEditedQuery SearchCore.activate
    dsimp only
    split <;> rfl

/-- What a restored baseline and a new tree leave of the list. -/
structure Ensured (app app' : SearchApp σ) : Prop where
  core : app'.core = app.core.ensure
  input : app'.search.input = app.search.input
  generation : app'.search.nextGeneration = app.search.nextGeneration

theorem ensured_ensure (app : SearchApp σ) : Ensured app app.ensureRequestTreeModel :=
  ⟨core_ensure app, (rest_ensure app).1, (rest_ensure app).2⟩

theorem Ensured.after {app app' app'' : SearchApp σ} (h : SameCore app app')
    (h' : Ensured app' app'') : Ensured app app'' :=
  ⟨h'.core.trans (by rw [h.core_eq]), h'.input.trans h.search.input,
    h'.generation.trans h.search.generation⟩

theorem Ensured.before {app app' app'' : SearchApp σ} (h : Ensured app app')
    (h' : SameCore app' app'') : Ensured app app'' :=
  ⟨h'.core_eq.trans h.core, h'.search.input.trans h.input,
    h'.search.generation.trans h.generation⟩

theorem Ensured.trans {app app' app'' : SearchApp σ} (h : Ensured app app')
    (h' : Ensured app' app'') : Ensured app app'' :=
  ⟨h'.core.trans (by rw [h.core, SearchCore.ensure_ensure]), h'.input.trans h.input,
    h'.generation.trans h.generation⟩

theorem exists_rollback {search : RequestListSearch} (hinput : search.input.isSome) :
    ∃ rollback, search.rollbackSelectionAndOffset = some rollback := by
  obtain ⟨mode, nextGeneration, dispatch⟩ := search
  cases mode with
  | idle => cases hinput
  | committed active => cases hinput
  | editing editing => exact ⟨_, rfl⟩

theorem ensured_baseline (app : SearchApp σ) (hinput : app.search.input.isSome) :
    Ensured app (app.restoreRequestSearchEditingBaseline widget) := by
  unfold restoreRequestSearchEditingBaseline
  have hsame := sameSearch_clearMatchRevealReasons app.search
  generalize app.search.clearMatchRevealReasons = reasons at hsame ⊢
  obtain ⟨pathsToClose, search⟩ := reasons
  dsimp only at hsame ⊢
  have hcleared : SameCore app
      (({ app with search } : SearchApp σ).closePaths widget (deepestFirst pathsToClose)) :=
    (sameCore_search app hsame).trans (sameCore_state _ _)
  obtain ⟨⟨selected, scrollOffset⟩, hrollback⟩ :=
    (@exists_rollback ((({ app with search } : SearchApp σ).closePaths widget
      (deepestFirst pathsToClose)).search)) (by rw [hcleared.search.input]; exact hinput)
  rw [hrollback]
  exact .after hcleared ((ensured_ensure _).before
    ((core_restoreSelection _ selected).trans (sameCore_restoreScrollOffset _ scrollOffset)))

theorem core_setInput (app : SearchApp σ) (hinput : app.search.input.isSome) (input : Bytes) :
    let app' : SearchApp σ :=
      { app with search := app.search.modifyEditing fun editing => { editing with input } }
    app'.core = app.core ∧ app'.search.input = some input ∧
      app'.search.nextGeneration = app.search.nextGeneration := by
  obtain ⟨tree, revision, requestTree, requestTreeRevision, state, scrollOffset, search⟩ := app
  obtain ⟨mode, nextGeneration, dispatch⟩ := search
  cases mode with
  | idle => cases hinput
  | committed active => cases hinput
  | editing editing => exact ⟨rfl, rfl, rfl⟩

theorem core_inputEdit (app : SearchApp σ) (hinput : app.search.input.isSome) (edit : InputEdit) :
    (app.applyRequestSearchInputEdit widget edit).core =
      match edit with
      | .unchanged | .limitReached => app.core
      | .changed input =>
        app.core.ensure.activate (nextSearchGeneration app.search.nextGeneration) input := by
  cases edit with
  | unchanged => rfl
  | limitReached =>
    have hsame : SameSearch app.search app.search.markLimitReached :=
      sameSearch_modifyEditing app.search (fun _ => rfl) (fun _ => rfl) fun _ => rfl
    exact (sameCore_search app hsame).core_eq
  | changed input =>
    obtain ⟨hcore, htext, hgeneration⟩ := core_setInput app hinput input
    unfold applyRequestSearchInputEdit
    dsimp only
    generalize ({ app with search := app.search.modifyEditing fun editing =>
      { editing with input } } : SearchApp σ) = edited at hcore htext hgeneration
    have hensured := ((@ensured_baseline _ widget) edited (by rw [htext]; rfl)).trans
      (ensured_ensure _)
    rw [core_activate (hensured.input.trans htext), hensured.core, hensured.generation, hcore,
      hgeneration]

/-! ## Steps of the list -/

/-- The keys that give up the editing. -/
def cancelsEditing (app : SearchApp σ) (key : SearchEditKey) : Bool :=
  match key with
  | .esc => app.search.input.isSome
  | .enter => app.search.input = some []
  | .input _ => false

/-- What a step of the list does to the core. -/
inductive CoreStep (app : SearchApp σ) : SearchEvent σ → SearchCore → Prop
  | same (event : SearchEvent σ) : CoreStep app event app.core
  | ensure (event : SearchEvent σ) : CoreStep app event app.core.ensure
  | begin (event : SearchEvent σ) :
      CoreStep app event
        { app.core with active := none, prior := app.core.active, dispatch := some .cancel }
  | commit (event : SearchEvent σ) : CoreStep app event { app.core with prior := none }
  | restore (key : SearchEditKey) (hcancels : app.cancelsEditing key = true) :
      CoreStep app (.editKey key) app.core.restore
  | activate (input : Bytes) :
      CoreStep app (.editKey (.input (.changed input)))
        (app.core.ensure.activate (nextSearchGeneration app.search.nextGeneration) input)
  | clear (event : SearchEvent σ) :
      CoreStep app event { app.core with active := none, prior := none, dispatch := some .cancel }
  | captures (tree : RequestTreeModel) :
      CoreStep app (.setCaptures tree)
        { app.core with
          capturesTree := tree
          capturesRevision := CaptureSystem.nextStoreRevision app.capturesRevision }

theorem coreStep_begin (app : SearchApp σ) (event : SearchEvent σ) :
    CoreStep app event (app.beginRequestSearch widget).core := by
  obtain ⟨tree, revision, requestTree, requestTreeRevision, state, scrollOffset, search⟩ := app
  obtain ⟨mode, nextGeneration, dispatch⟩ := search
  cases mode with
  | idle => exact .begin event
  | committed active => exact .begin event
  | editing editing => exact .same event

theorem coreStep_editKey (app : SearchApp σ) (key : SearchEditKey) :
    CoreStep app (.editKey key) (app.handleRequestSearchEditKey widget key).core := by
  unfold handleRequestSearchEditKey
  cases hmode : app.search.mode with
  | idle => exact .same _
  | committed active => exact .same _
  | editing editing =>
    have hinput : app.search.input = some editing.input := by
      unfold RequestListSearch.input
      rw [hmode]
    have hsome : app.search.input.isSome := by rw [hinput]; rfl
    cases key with
    | esc =>
      dsimp only
      rw [core_cancelEditing app hsome]
      exact .restore .esc hsome
    | enter =>
      dsimp only
      split
      case isTrue hempty =>
        rw [core_cancelEditing app hsome]
        refine .restore .enter (decide_eq_true ?_)
        rw [hinput, hempty]
      case isFalse hne =>
        rcases core_commitEditing app with hsame | hcommitted
        · rw [hsame]
          exact .same _
        · rw [hcommitted]
          exact .commit _
    | input edit =>
      dsimp only
      rw [core_inputEdit app hsome]
      cases edit with
      | unchanged => exact .same _
      | limitReached => exact .same _
      | changed input => exact .activate input

theorem coreStep_clear (app : SearchApp σ) (event : SearchEvent σ) :
    CoreStep app event app.clearCommittedRequestSearch.2.core := by
  obtain ⟨tree, revision, requestTree, requestTreeRevision, state, scrollOffset, search⟩ := app
  obtain ⟨mode, nextGeneration, dispatch⟩ := search
  cases mode with
  | idle => exact .same event
  | committed active => exact .clear event
  | editing editing => exact .same event

theorem coreStep_navigate (app : SearchApp σ) (forward : Bool) (event : SearchEvent σ) :
    CoreStep app event (app.navigateRequestSearch widget forward).core := by
  have hensure : CoreStep app event app.ensureRequestTreeModel.core := by
    rw [core_ensure]
    exact .ensure event
  unfold navigateRequestSearch
  dsimp only
  split
  · exact .same event
  split
  · exact hensure
  split
  · exact hensure
  · rw [(sameCore_reveal _ _ false).core_eq]
    exact hensure

/-- The step lemma of the list; the event loop and the service come on top of it. -/
theorem coreStep_of_step {search : Bytes → RequestTreeModel → SearchResults}
    {s t : SearchSystem σ} {event : SearchEvent σ} (hstep : s.step widget search event = some t) :
    CoreStep s.app event t.app.core ∧ t.service = s.service ∨
      (event = .dispatchPendingRequestSearch ∧ t = s.dispatchPendingRequestSearch) ∨
      (event = .applyResults ∧ s.applyResults widget = some t) ∨
      ∃ action, event = .service action ∧ t.app = s.app ∧
        s.service.act search action = some t.service := by
  cases event with
  | beginRequestSearch =>
    obtain rfl := Option.some.inj hstep
    exact .inl ⟨coreStep_begin s.app _, rfl⟩
  | editKey key =>
    obtain rfl := Option.some.inj hstep
    exact .inl ⟨coreStep_editKey s.app key, rfl⟩
  | clearCommittedRequestSearch =>
    obtain rfl := Option.some.inj hstep
    exact .inl ⟨coreStep_clear s.app _, rfl⟩
  | navigateRequestSearch forward =>
    obtain rfl := Option.some.inj hstep
    exact .inl ⟨coreStep_navigate s.app forward _, rfl⟩
  | setCaptures tree =>
    obtain rfl := Option.some.inj hstep
    exact .inl ⟨.captures tree, rfl⟩
  | setState state scrollOffset =>
    obtain rfl := Option.some.inj hstep
    exact .inl ⟨.same _, rfl⟩
  | noteAutoExpandOpening path =>
    obtain rfl := Option.some.inj hstep
    refine .inl ⟨?_, rfl⟩
    change CoreStep s.app _ (s.app.openNoting widget path .autoExpand).core
    rw [(sameCore_openNoting s.app path .autoExpand).core_eq]
    exact .same _
  | ensureRequestTreeModel =>
    obtain rfl := Option.some.inj hstep
    refine .inl ⟨?_, rfl⟩
    change CoreStep s.app _ s.app.ensureRequestTreeModel.core
    rw [core_ensure]
    exact .ensure _
  | dispatchPendingRequestSearch =>
    obtain rfl := Option.some.inj hstep
    exact .inr (.inl ⟨rfl, rfl⟩)
  | applyResults => exact .inr (.inr (.inl ⟨rfl, hstep⟩))
  | service action =>
    obtain ⟨service, hservice, rfl⟩ := Option.map_eq_some_iff.1 hstep
    exact .inr (.inr (.inr ⟨action, rfl, rfl, hservice⟩))

/-! ## Steps of the event loop -/

/-- Taking the intent may bring the tree up to date first. -/
theorem takeRequestSearchDispatch_core (app : SearchApp σ) :
    ∃ base : SearchCore, (base = app.core ∨ base = app.core.ensure) ∧
      app.takeRequestSearchDispatch.1 = base.dispatch ∧
      app.takeRequestSearchDispatch.2.core = { base with dispatch := none } := by
  unfold takeRequestSearchDispatch
  split
  · exact ⟨app.ensureRequestTreeModel.core, .inr (core_ensure app), rfl, rfl⟩
  · exact ⟨app.core, .inl rfl, rfl, rfl⟩

theorem core_applyOutcome (app : SearchApp σ) (outcome : SearchJobOutcome) :
    ({ app with search := (app.search.applyOutcome outcome).2 } : SearchApp σ).core =
      app.core.apply outcome := by
  obtain ⟨tree, revision, requestTree, requestTreeRevision, state, scrollOffset, search⟩ := app
  unfold RequestListSearch.applyOutcome SearchCore.apply
  cases hactive : search.active with
  | none =>
    unfold SearchApp.core
    dsimp only
    rw [hactive]
  | some active =>
    have hset : ∀ active' : ActiveSearch,
        (⟨tree, revision, requestTree, requestTreeRevision, state, scrollOffset,
          search.setActive active'⟩ : SearchApp σ).core =
        { (⟨tree, revision, requestTree, requestTreeRevision, state, scrollOffset, search⟩ :
            SearchApp σ).core with active := some active' } := by
      intro active'
      obtain ⟨hnew, hprior, -⟩ := active_setActive hactive active'
      unfold SearchApp.core
      dsimp only
      rw [hnew, hprior, (setActive_rest search active').1]
    have hcore : (⟨tree, revision, requestTree, requestTreeRevision, state, scrollOffset, search⟩ :
        SearchApp σ).core.active = some active := hactive
    rw [hcore]
    dsimp only
    split
    · rfl
    · cases outcome with
      | completed key results => exact hset _
      | cancelled key => rfl
      | failed key message => exact hset _

theorem core_applyRequestSearchOutcome (app : SearchApp σ) (outcome : SearchJobOutcome) :
    (app.applyRequestSearchOutcome widget outcome).core = app.core.apply outcome := by
  have happlied := core_applyOutcome app outcome
  unfold applyRequestSearchOutcome
  cases happly : app.search.applyOutcome outcome with
  | mk application search =>
    rw [happly] at happlied
    cases application with
    | ignored =>
      dsimp only
      rw [← happlied]
      unfold RequestListSearch.applyOutcome at happly
      split at happly
      · rw [← (Prod.mk.inj happly).2]
      split at happly
      · rw [← (Prod.mk.inj happly).2]
      · split at happly <;> cases (Prod.mk.inj happly).1
    | applied selectFirst =>
      dsimp only
      split
      · split
        · exact happlied
        · rw [(sameCore_reveal _ _ true).core_eq]
          exact happlied
      · exact happlied

end SearchApp

end Fluxcope.Requests
