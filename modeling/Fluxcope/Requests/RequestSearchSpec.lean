import Fluxcope.Requests.SearchProgress
import Fluxcope.Requests.RequestListSpec
/-!
# Searches are answered

A search that waits is about to be handed to the service, or the service works on it, or its
outcome is on the way; and what a search shows was found with its query in the current tree.
-/

namespace Fluxcope.Requests

open Fluxcope.Library Fluxcope.Library.Utf8 Fluxcope.Capture
open RequestListApp (ListState listWidget)

/-! ## Requests in the service -/

def SearchJobOutcome.settles : SearchJobOutcome → Bool
  | .completed _ _ | .failed _ _ => true
  | .cancelled _ => false

namespace RequestSearchService

/-- The latest request is the next one to run, or runs and is not cancelled. -/
def WorksOn (service : RequestSearchService) (request : SearchRequest) : Prop :=
  match service.phase with
  | .idle none => False
  | .idle (some pending) => pending = request
  | .updating _ => True
  | .running worker none => worker = { request }
  | .running _ (some pending) => pending = request

/-- A request with the key is the latest one; the service has not seen it yet or works on it. -/
def Live (service : RequestSearchService) (key : SearchRequestKey) : Prop :=
  ∃ request, service.requests.value = some request ∧ request.key = key ∧
    (service.requests.changed = true ∨ service.WorksOn request)

/-- An outcome for the key waits to be applied. -/
def Answered (service : RequestSearchService) (key : SearchRequestKey) : Prop :=
  service.results.changed = true ∧ ∃ outcome, service.results.value = some outcome ∧
    outcome.key = key ∧ outcome.settles = true

/-- An answered request stays so because nothing else is asked of the service. -/
def Held (service : RequestSearchService) (key : SearchRequestKey) : Prop :=
  ∃ request, service.requests.value = some request ∧ request.key = key ∧
    (service.requests.changed = true ∨ service.WorksOn request ∨
      service.phase = .idle none ∧ service.Answered key)

theorem Held.cases {service : RequestSearchService} {key : SearchRequestKey}
    (h : service.Held key) : service.Live key ∨ service.Answered key := by
  obtain ⟨request, hvalue, hkey, hchanged | hworks | ⟨-, hanswered⟩⟩ := h
  · exact .inl ⟨request, hvalue, hkey, .inl hchanged⟩
  · exact .inl ⟨request, hvalue, hkey, .inr hworks⟩
  · exact .inr hanswered

theorem held_submit (service : RequestSearchService) (request : SearchRequest) :
    (service.submit request).Held request.key := ⟨request, rfl, rfl, .inl rfl⟩

theorem Held.proceed {service service' : RequestSearchService} {key : SearchRequestKey}
    (h : service.Held key) (hact : service.proceed = some service') : service'.Held key := by
  obtain ⟨request, hvalue, hkey, hcases⟩ := h
  obtain ⟨requests, results, phase⟩ := service
  dsimp only at hvalue hcases
  unfold RequestSearchService.proceed at hact
  cases phase with
  | idle pending =>
    cases pending with
    | none => cases hact
    | some pending =>
      obtain rfl := Option.some.inj hact
      have hnext : (if requests.changed = true then requests.value else some pending) =
          some request := by
        rcases hcases with hchanged | hworks | ⟨hidle, -⟩
        · rw [if_pos hchanged, hvalue]
        · obtain rfl : pending = request := hworks
          rw [hvalue, ite_self]
        · cases hidle
      refine ⟨request, hvalue, hkey, .inr (.inl ?_)⟩
      unfold WorksOn
      dsimp only
      rw [hnext]
      rfl
  | updating worker =>
    cases worker with
    | none =>
      obtain rfl := Option.some.inj hact
      refine ⟨request, hvalue, hkey, .inr (.inl ?_)⟩
      unfold WorksOn
      dsimp only
      rw [hvalue]
      rfl
    | some worker =>
      obtain rfl := Option.some.inj hact
      refine ⟨request, hvalue, hkey, .inr (.inl ?_)⟩
      unfold WorksOn
      dsimp only
      rw [hvalue]
  | running worker pending => cases hact

theorem Held.changed {service service' : RequestSearchService} {key : SearchRequestKey}
    (h : service.Held key) (hact : service.changed = some service') : service'.Held key := by
  obtain ⟨request, hvalue, hkey, -⟩ := h
  obtain ⟨requests, results, phase⟩ := service
  unfold RequestSearchService.changed at hact
  split at hact
  case isFalse => cases hact
  case isTrue =>
    cases phase with
    | idle pending =>
      cases pending with
      | none =>
        obtain rfl := Option.some.inj hact
        exact ⟨request, hvalue, hkey, .inr (.inl trivial)⟩
      | some pending => cases hact
    | updating worker => cases hact
    | running worker pending =>
      obtain rfl := Option.some.inj hact
      exact ⟨request, hvalue, hkey, .inr (.inl trivial)⟩

theorem outcomeOf_key {search : Bytes → RequestTreeModel → SearchResults} {worker : SearchWorker}
    {ending : WorkerEnd} {outcome : SearchJobOutcome}
    (h : outcomeOf search worker ending = some outcome) :
    outcome.key = worker.request.key ∧ (worker.cancelled = false → outcome.settles = true) := by
  unfold outcomeOf at h
  cases ending with
  | completed =>
    obtain rfl := Option.some.inj h
    exact ⟨rfl, fun _ => rfl⟩
  | cancelled =>
    dsimp only at h
    split at h
    case isTrue hcancelled =>
      obtain rfl := Option.some.inj h
      refine ⟨rfl, fun hfalse => ?_⟩
      rw [hfalse] at hcancelled
      cases hcancelled
    case isFalse => cases h
  | failed message =>
    obtain rfl := Option.some.inj h
    exact ⟨rfl, fun _ => rfl⟩

theorem Held.joined {search : Bytes → RequestTreeModel → SearchResults}
    {service service' : RequestSearchService} {key : SearchRequestKey} {ending : WorkerEnd}
    (h : service.Held key) (hact : service.joined search ending = some service') :
    service'.Held key := by
  obtain ⟨request, hvalue, hkey, hcases⟩ := h
  obtain ⟨requests, results, phase⟩ := service
  dsimp only at hvalue hcases
  unfold RequestSearchService.joined at hact
  cases phase with
  | idle pending => cases hact
  | updating worker => cases hact
  | running worker pending =>
    obtain ⟨outcome, houtcome, hact⟩ := Option.bind_eq_some_iff.1 hact
    obtain rfl := Option.some.inj hact
    rcases hcases with hchanged | hworks | ⟨hidle, -⟩
    · exact ⟨request, hvalue, hkey, .inl hchanged⟩
    · cases pending with
      | none =>
        obtain rfl : worker = { request } := hworks
        obtain ⟨hsame, hsettles⟩ := outcomeOf_key houtcome
        exact ⟨request, hvalue, hkey,
          .inr (.inr ⟨rfl, rfl, outcome, rfl, hsame.trans hkey, hsettles rfl⟩)⟩
      | some pending => exact ⟨request, hvalue, hkey, .inr (.inl hworks)⟩
    · cases hidle

/-- The service answers what it holds, whatever it does. -/
theorem Held.act {search : Bytes → RequestTreeModel → SearchResults}
    {service service' : RequestSearchService} {key : SearchRequestKey}
    {action : SearchServiceAction} (h : service.Held key)
    (hact : service.act search action = some service') : service'.Held key := by
  cases action with
  | proceed => exact h.proceed hact
  | changed => exact h.changed hact
  | joined ending => exact h.joined hact

end RequestSearchService

/-! ## No search waits in vain -/

/-- The intent carries the request of the active search, or the service holds it already. -/
def Fed (core : SearchCore) (service : RequestSearchService) : Prop :=
  ∀ active, core.active = some active → active.waiting = true →
    core.dispatch = some (.run active.key active.query) ∨
      core.dispatch = none ∧ service.Held active.key

theorem fed_of_none {core : SearchCore} {service : RequestSearchService}
    (h : core.active = none) : Fed core service := by
  intro active hactive
  rw [h] at hactive
  cases hactive

theorem Fed.refresh {core : SearchCore} {service : RequestSearchService} (h : Fed core service)
    (treeRevision : Nat) : Fed (core.refresh treeRevision) service := by
  unfold SearchCore.refresh
  split
  · exact h
  split
  · exact h
  · intro active hactive _
    obtain rfl := Option.some.inj hactive
    exact .inl rfl

theorem Fed.ensure {core : SearchCore} {service : RequestSearchService} (h : Fed core service) :
    Fed core.ensure service := by
  unfold SearchCore.ensure
  split
  · exact h
  · exact (@Fed.refresh { core with
      requestTree := core.capturesTree
      requestTreeRevision := core.capturesRevision }) h core.capturesRevision

theorem fed_activate (core : SearchCore) (service : RequestSearchService) (generation : Nat)
    (query : Bytes) : Fed (core.activate generation query) service := by
  unfold SearchCore.activate
  split
  · exact fed_of_none rfl
  · intro active hactive _
    obtain rfl := Option.some.inj hactive
    exact .inl rfl

theorem fed_refresh_of_ne {core : SearchCore} {service : RequestSearchService} {treeRevision : Nat}
    (h : ∀ active, core.active = some active → active.key.treeRevision ≠ treeRevision) :
    Fed (core.refresh treeRevision) service := by
  unfold SearchCore.refresh
  split
  case h_1 hnone => exact fed_of_none hnone
  case h_2 active hactive =>
    rw [if_neg (h active hactive)]
    intro active' hactive' _
    obtain rfl := Option.some.inj hactive'
    exact .inl rfl

/-- A search put aside while it waits is run again only on another tree. -/
theorem fed_restore {core : SearchCore} {service : RequestSearchService}
    (h : ∀ prior, core.prior = some prior → prior.waiting = true →
      prior.key.treeRevision ≠ core.capturesRevision) : Fed core.restore service := by
  unfold SearchCore.restore
  dsimp only
  by_cases hwaiting : ∃ prior, core.prior = some prior ∧ prior.waiting = true
  · obtain ⟨prior, hprior, hwaiting⟩ := hwaiting
    have hne := h prior hprior hwaiting
    rw [hprior]
    unfold SearchCore.ensure
    dsimp only
    split
    case isTrue hcurrent =>
      refine fed_refresh_of_ne fun active hactive => ?_
      obtain rfl := Option.some.inj hactive
      rw [← hcurrent]
      exact hne
    case isFalse =>
      refine Fed.refresh (fed_refresh_of_ne fun active hactive => ?_) _
      obtain rfl := Option.some.inj hactive
      exact hne
  · refine Fed.refresh (Fed.ensure fun active hactive hwaits => ?_) _
    exact absurd ⟨active, hactive, hwaits⟩ hwaiting

theorem Fed.apply {core : SearchCore} {service : RequestSearchService} (h : Fed core service)
    {outcome : SearchJobOutcome} (hvalue : service.results.value = some outcome) :
    Fed (core.apply outcome) { service with results := service.results.update } := by
  -- What the service has answered is settled by this very outcome.
  have hkept : ∀ active, core.active = some active → active.waiting = true →
      (active.key = outcome.key → outcome.settles = false) →
        core.dispatch = some (.run active.key active.query) ∨ core.dispatch = none ∧
          ({ service with results := service.results.update } : RequestSearchService).Held
            active.key := by
    intro active hactive hwaiting hsettles
    refine (h active hactive hwaiting).imp_right fun ⟨hnone, request, hrequest, hkey, hcases⟩ =>
      ⟨hnone, request, hrequest, hkey, hcases.imp_right (Or.imp_right ?_)⟩
    rintro ⟨-, -, other, hother, hsame, hsettled⟩
    obtain rfl := Option.some.inj (hvalue.symm.trans hother)
    rw [hsettles hsame.symm] at hsettled
    cases hsettled
  unfold SearchCore.apply
  cases hactive : core.active with
  | none => exact fed_of_none hactive
  | some active =>
    dsimp only
    split
    case isTrue hne =>
      intro other hother hwaiting
      obtain rfl := Option.some.inj (hactive.symm.trans hother)
      exact hkept active hactive hwaiting fun heq => absurd heq hne
    case isFalse hkey =>
      cases outcome with
      | completed key results =>
        intro other hother hwaiting
        obtain rfl := Option.some.inj hother
        cases hwaiting
      | cancelled key =>
        intro other hother hwaiting
        exact hkept other hother hwaiting fun _ => rfl
      | failed key message =>
        intro other hother hwaiting
        obtain rfl := Option.some.inj hother
        cases hwaiting

section System

variable {σ : Type} {widget : TreeWidget σ} {search : Bytes → RequestTreeModel → SearchResults}

/-- No key restores a search that waits for the tree that is there. -/
def SearchSystem.Keeps (s : SearchSystem σ) : SearchEvent σ → Prop
  | .editKey key => s.app.cancelsEditing key = true →
      ∀ prior ∈ s.app.search.prior, prior.waiting = true →
        prior.key.treeRevision ≠ s.app.capturesRevision
  | _ => True

theorem fed_coreStep {app : SearchApp σ} {service : RequestSearchService} {event : SearchEvent σ}
    {core : SearchCore} (h : Fed app.core service)
    (hkeeps : (⟨app, service⟩ : SearchSystem σ).Keeps event)
    (hstep : app.CoreStep event core) : Fed core service := by
  cases hstep with
  | same => exact h
  | ensure => exact h.ensure
  | «begin» => exact fed_of_none rfl
  | commit => exact h
  | restore key hcancels => exact fed_restore (hkeeps hcancels)
  | activate input => exact fed_activate _ service _ input
  | clear => exact fed_of_none rfl
  | captures tree => exact h

theorem fed_dispatch {s : SearchSystem σ} (h : Fed s.app.core s.service) :
    Fed s.dispatchPendingRequestSearch.app.core s.dispatchPendingRequestSearch.service := by
  obtain ⟨base, hbase, hintent, hcore⟩ := s.app.takeRequestSearchDispatch_core
  have hfed : Fed base s.service := by
    rcases hbase with rfl | rfl
    · exact h
    · exact h.ensure
  unfold SearchSystem.dispatchPendingRequestSearch
  generalize s.app.takeRequestSearchDispatch = taken at hintent hcore ⊢
  obtain ⟨intent, app⟩ := taken
  dsimp only at hintent hcore
  cases intent with
  | none =>
    dsimp only
    rw [hcore]
    intro active hactive hwaiting
    refine .inr ⟨rfl, ?_⟩
    rcases hfed active hactive hwaiting with hrun | ⟨-, hheld⟩
    · rw [← hintent] at hrun
      cases hrun
    · exact hheld
  | some intent =>
    cases intent with
    | run key query =>
      dsimp only
      rw [hcore]
      intro active hactive hwaiting
      refine .inr ⟨rfl, ?_⟩
      rcases hfed active hactive hwaiting with hrun | ⟨hnone, -⟩
      · rw [← hintent] at hrun
        obtain ⟨rfl, rfl⟩ := DispatchIntent.run.inj (Option.some.inj hrun)
        exact RequestSearchService.held_submit s.service _
      · rw [← hintent] at hnone
        cases hnone
    | cancel =>
      dsimp only
      rw [hcore]
      intro active hactive hwaiting
      rcases hfed active hactive hwaiting with hrun | ⟨hnone, -⟩
      · rw [← hintent] at hrun
        cases hrun
      · rw [← hintent] at hnone
        cases hnone

theorem fed_step {s t : SearchSystem σ} {event : SearchEvent σ} (h : Fed s.app.core s.service)
    (hkeeps : s.Keeps event) (hstep : s.step widget search event = some t) :
    Fed t.app.core t.service := by
  rcases SearchApp.coreStep_of_step hstep with ⟨hcore, hservice⟩ | ⟨-, rfl⟩ | ⟨-, happly⟩ |
    ⟨action, -, happ, hact⟩
  · rw [hservice]
    exact fed_coreStep h hkeeps hcore
  · exact fed_dispatch h
  · unfold SearchSystem.applyResults at happly
    split at happly
    case isFalse => cases happly
    case isTrue =>
      dsimp only at happly
      split at happly
      case h_1 hnone =>
        obtain rfl := Option.some.inj happly
        intro active hactive hwaiting
        refine (h active hactive hwaiting).imp_right fun ⟨hdispatch, request, hrequest, hkey, hcases⟩ =>
          ⟨hdispatch, request, hrequest, hkey, hcases.imp_right (Or.imp_right ?_)⟩
        rintro ⟨-, -, outcome, houtcome, -⟩
        rw [hnone] at houtcome
        cases houtcome
      case h_2 outcome houtcome =>
        obtain rfl := Option.some.inj happly
        dsimp only
        rw [SearchApp.core_applyRequestSearchOutcome]
        exact h.apply houtcome
  · rw [happ]
    intro active hactive hwaiting
    exact (h active hactive hwaiting).imp_right fun ⟨hnone, hheld⟩ => ⟨hnone, hheld.act hact⟩

end System

/-! ## Results belong to the query and the tree -/

def SearchPhase.inFlight : SearchPhase → List SearchRequest
  | .idle pending => pending.toList
  | .updating worker => (worker.map SearchWorker.request).toList
  | .running worker pending => worker.request :: pending.toList

namespace RequestSearchService

def inFlight (service : RequestSearchService) : List SearchRequest :=
  service.requests.value.toList ++ service.phase.inFlight

/-- The keys that the service may still answer with. -/
def keys (service : RequestSearchService) : List SearchRequestKey :=
  service.inFlight.map SearchRequest.key ++ (service.results.value.map SearchJobOutcome.key).toList

/-- Where the results of a completed outcome come from. -/
def FoundBy (search : Bytes → RequestTreeModel → SearchResults) (request : SearchRequest)
    (outcome : SearchJobOutcome) : Prop :=
  outcome.key = request.key ∧ ∀ key results, outcome = .completed key results →
    results = search request.query request.tree

theorem outcomeOf_foundBy {search : Bytes → RequestTreeModel → SearchResults}
    {worker : SearchWorker} {ending : WorkerEnd} {outcome : SearchJobOutcome}
    (h : outcomeOf search worker ending = some outcome) : FoundBy search worker.request outcome := by
  refine ⟨(outcomeOf_key h).1, ?_⟩
  rintro key results rfl
  unfold outcomeOf at h
  cases ending with
  | completed => exact ((SearchJobOutcome.completed.inj (Option.some.inj h)).2).symm
  | cancelled =>
    dsimp only at h
    split at h <;> cases h
  | failed message => cases h

theorem inFlight_startPhase (pending : Option SearchRequest) :
    (startPhase pending).inFlight = pending.toList := by
  cases pending <;> rfl

/-- The service makes up no requests, and its outcomes are those of its workers. -/
theorem act_inFlight {search : Bytes → RequestTreeModel → SearchResults}
    {service service' : RequestSearchService} {action : SearchServiceAction}
    (hact : service.act search action = some service') :
    (∀ request ∈ service'.inFlight, request ∈ service.inFlight) ∧
      ∀ outcome, service'.results.value = some outcome → service.results.value = some outcome ∨
        ∃ request ∈ service.inFlight, FoundBy search request outcome := by
  obtain ⟨requests, results, phase⟩ := service
  cases action with
  | proceed =>
    change proceed _ = _ at hact
    unfold proceed at hact
    cases phase with
    | idle pending =>
      cases pending with
      | none => cases hact
      | some pending =>
        obtain rfl := Option.some.inj hact
        refine ⟨fun request hrequest => ?_, fun outcome houtcome => .inl houtcome⟩
        unfold inFlight at hrequest ⊢
        dsimp only at hrequest
        rw [inFlight_startPhase] at hrequest
        rcases List.mem_append.1 hrequest with hvalue | hnext
        · exact List.mem_append_left _ hvalue
        · split at hnext
          · exact List.mem_append_left _ hnext
          · exact List.mem_append_right _ hnext
    | updating worker =>
      cases worker with
      | none =>
        obtain rfl := Option.some.inj hact
        refine ⟨fun request hrequest => ?_, fun outcome houtcome => .inl houtcome⟩
        unfold inFlight at hrequest ⊢
        dsimp only at hrequest
        rw [inFlight_startPhase] at hrequest
        rcases List.mem_append.1 hrequest with hvalue | hvalue
        · exact List.mem_append_left _ hvalue
        · exact List.mem_append_left _ hvalue
      | some worker =>
        obtain rfl := Option.some.inj hact
        refine ⟨fun request hrequest => ?_, fun outcome houtcome => .inl houtcome⟩
        rcases List.mem_append.1 hrequest with hvalue | hphase
        · exact List.mem_append_left _ hvalue
        · rcases List.mem_cons.1 hphase with rfl | hvalue
          · exact List.mem_append_right _ (List.mem_singleton_self _)
          · exact List.mem_append_left _ hvalue
    | running worker pending => cases hact
  | changed =>
    change changed _ = _ at hact
    unfold changed at hact
    split at hact
    case isFalse => cases hact
    case isTrue =>
      cases phase with
      | idle pending =>
        cases pending with
        | none =>
          obtain rfl := Option.some.inj hact
          exact ⟨fun request hrequest => hrequest, fun outcome houtcome => (by cases houtcome)⟩
        | some pending => cases hact
      | updating worker => cases hact
      | running worker pending =>
        obtain rfl := Option.some.inj hact
        refine ⟨fun request hrequest => ?_, fun outcome houtcome => (by cases houtcome)⟩
        rcases List.mem_append.1 hrequest with hvalue | hphase
        · exact List.mem_append_left _ hvalue
        · obtain rfl := List.mem_singleton.1 hphase
          exact List.mem_append_right _ List.mem_cons_self
  | joined ending =>
    change joined search _ ending = _ at hact
    unfold joined at hact
    cases phase with
    | idle pending => cases hact
    | updating worker => cases hact
    | running worker pending =>
      obtain ⟨outcome, houtcome, hact⟩ := Option.bind_eq_some_iff.1 hact
      obtain rfl := Option.some.inj hact
      refine ⟨fun request hrequest => ?_, fun other hother => .inr ⟨worker.request, ?_, ?_⟩⟩
      · rcases List.mem_append.1 hrequest with hvalue | hpending
        · exact List.mem_append_left _ hvalue
        · exact List.mem_append_right _ (List.mem_cons_of_mem _ hpending)
      · exact List.mem_append_right _ List.mem_cons_self
      · obtain rfl := Option.some.inj hother
        exact outcomeOf_foundBy houtcome

end RequestSearchService

namespace SearchCore

/-- The active search and the one that is put aside. -/
def searches (core : SearchCore) : List ActiveSearch := core.active.toList ++ core.prior.toList

/-- The generation tells the query and the revision tells the tree. -/
structure Fits (core : SearchCore) (key : SearchRequestKey) (query : Bytes)
    (tree : RequestTreeModel) : Prop where
  tree : key.treeRevision = core.requestTreeRevision → tree = core.requestTree
  query : ∀ kept ∈ core.searches, kept.key.generation = key.generation → kept.query = query

/-- What the keys stand for. -/
structure Keyed (search : Bytes → RequestTreeModel → SearchResults) (core : SearchCore)
    (service : RequestSearchService) : Prop where
  fresh : core.capturesRevision ≠ core.requestTreeRevision →
    (∀ key ∈ service.keys, key.treeRevision ≠ core.capturesRevision) ∧
      ∀ kept ∈ core.searches, kept.key.treeRevision ≠ core.capturesRevision
  requests : ∀ request ∈ service.inFlight, core.Fits request.key request.query request.tree
  outcome : ∀ key results, service.results.value = some (.completed key results) →
    ∃ query tree, results = search query tree ∧ core.Fits key query tree
  same : ∀ kept ∈ core.searches, ∀ other ∈ core.searches,
    kept.key.generation = other.key.generation → kept.query = other.query
  ready : ∀ kept ∈ core.searches, ∀ results, kept.progress = .ready results →
    kept.key.treeRevision = core.requestTreeRevision → results = search kept.query core.requestTree

/-- The active search is one of the tree, and the intent is one of the active search. -/
structure Current (core : SearchCore) : Prop where
  revision : ∀ active, core.active = some active →
    active.key.treeRevision = core.requestTreeRevision
  intent : ∀ key query, core.dispatch = some (.run key query) →
    ∃ active, core.active = some active ∧ active.key = key ∧ active.query = query

variable {search : Bytes → RequestTreeModel → SearchResults} {core core' : SearchCore}
  {service : RequestSearchService}

/-- A search that keeps its query, on its tree or on the one that is there. -/
def Traced (core : SearchCore) (kept : ActiveSearch) : Prop :=
  ∃ old ∈ core.searches, old.key.generation = kept.key.generation ∧ old.query = kept.query ∧
    (kept.key.treeRevision = old.key.treeRevision ∨
      kept.key.treeRevision = core.requestTreeRevision)

theorem Fits.change {key : SearchRequestKey} {query : Bytes} {tree : RequestTreeModel}
    (h : core.Fits key query tree) (htree : core'.requestTree = core.requestTree)
    (hrevision : core'.requestTreeRevision = core.requestTreeRevision)
    (hsub : ∀ kept ∈ core'.searches, core.Traced kept) : core'.Fits key query tree where
  tree hcurrent := by
    rw [htree]
    exact h.tree (by rw [← hrevision]; exact hcurrent)
  query kept hkept hgeneration := by
    obtain ⟨old, hold, hsame, hquery, -⟩ := hsub kept hkept
    rw [← hquery]
    exact h.query old hold (hsame.trans hgeneration)

/-- The searches change, and those that are ready show what they should. -/
theorem Keyed.change (h : core.Keyed search service)
    (htree : core'.requestTree = core.requestTree)
    (hrevision : core'.requestTreeRevision = core.requestTreeRevision)
    (hcaptures : core'.capturesRevision = core.capturesRevision)
    (hsub : ∀ kept ∈ core'.searches, core.Traced kept)
    (hready : ∀ kept ∈ core'.searches, ∀ results, kept.progress = .ready results →
      kept.key.treeRevision = core.requestTreeRevision →
        results = search kept.query core.requestTree) : core'.Keyed search service where
  fresh hstale := by
    rw [hcaptures, hrevision] at hstale
    rw [hcaptures]
    refine ⟨(h.fresh hstale).1, fun kept hkept => ?_⟩
    obtain ⟨old, hold, -, -, hsame | hcurrent⟩ := hsub kept hkept
    · rw [hsame]
      exact (h.fresh hstale).2 old hold
    · rw [hcurrent]
      exact hstale.symm
  requests request hrequest := (h.requests request hrequest).change htree hrevision hsub
  outcome key results houtcome := by
    obtain ⟨query, tree, hfound, hfits⟩ := h.outcome key results houtcome
    exact ⟨query, tree, hfound, hfits.change htree hrevision hsub⟩
  same kept hkept other hother hgeneration := by
    obtain ⟨old, hold, hsame, hquery, -⟩ := hsub kept hkept
    obtain ⟨old', hold', hsame', hquery', -⟩ := hsub other hother
    rw [← hquery, ← hquery']
    exact h.same old hold old' hold' (by rw [hsame, hsame', hgeneration])
  ready kept hkept results hprogress hcurrent := by
    rw [hrevision] at hcurrent
    rw [htree]
    exact hready kept hkept results hprogress hcurrent

/-- A search that keeps its query, and is ready only if it was. -/
def Derived (core : SearchCore) (kept : ActiveSearch) : Prop :=
  kept ∈ core.searches ∨ core.Traced kept ∧ ∀ results, kept.progress ≠ .ready results

theorem traced_self {kept : ActiveSearch} (h : kept ∈ core.searches) : core.Traced kept :=
  ⟨kept, h, rfl, rfl, .inl rfl⟩

theorem Keyed.derive (h : core.Keyed search service)
    (htree : core'.requestTree = core.requestTree)
    (hrevision : core'.requestTreeRevision = core.requestTreeRevision)
    (hcaptures : core'.capturesRevision = core.capturesRevision)
    (hsub : ∀ kept ∈ core'.searches, core.Derived kept) : core'.Keyed search service := by
  refine h.change htree hrevision hcaptures (fun kept hkept => ?_)
    fun kept hkept results hprogress hcurrent => ?_
  · rcases hsub kept hkept with hkept | ⟨htraced, -⟩
    · exact traced_self hkept
    · exact htraced
  · rcases hsub kept hkept with hkept | ⟨-, hnever⟩
    · exact h.ready kept hkept results hprogress hcurrent
    · exact absurd hprogress (hnever results)

theorem refreshProgress_ne_ready (progress : ActiveSearchProgress) (results : SearchResults) :
    RequestListSearch.refreshProgress progress ≠ .ready results := by
  cases progress with
  | failed kept => cases kept <;> exact fun h => (by cases h)
  | _ => exact fun h => (by cases h)

theorem derived_refreshed {kept : ActiveSearch} (h : kept ∈ core.searches) :
    core.Derived (kept.refreshed core.requestTreeRevision) :=
  .inr ⟨⟨kept, h, rfl, rfl, .inr rfl⟩, refreshProgress_ne_ready kept.progress⟩

theorem mem_searches {kept : ActiveSearch} :
    kept ∈ core.searches ↔ core.active = some kept ∨ core.prior = some kept := by
  unfold searches
  rw [List.mem_append, Option.mem_toList, Option.mem_toList]

theorem Keyed.refresh (h : core.Keyed search service) :
    (core.refresh core.requestTreeRevision).Keyed search service := by
  unfold SearchCore.refresh
  split
  · exact h
  case h_2 active hactive =>
    split
    · exact h
    · refine h.derive rfl rfl rfl fun kept hkept => ?_
      rcases mem_searches.1 hkept with hkept | hkept
      · obtain rfl := Option.some.inj hkept
        exact derived_refreshed (mem_searches.2 (.inl hactive))
      · exact .inl (mem_searches.2 (.inr hkept))

theorem Keyed.ensure (h : core.Keyed search service) : core.ensure.Keyed search service := by
  unfold SearchCore.ensure
  split
  case isTrue => exact h
  case isFalse hstale =>
    obtain ⟨hkeys, hsearches⟩ := h.fresh hstale
    -- Nothing in the service is for the new tree yet.
    have hrebuilt : ({ core with
        requestTree := core.capturesTree
        requestTreeRevision := core.capturesRevision } : SearchCore).Keyed search service := by
      refine ⟨fun hnew => absurd rfl hnew, fun request hrequest => ⟨fun hcurrent => ?_, ?_⟩,
        fun key results houtcome => ?_, h.same, fun kept hkept _ _ hcurrent => ?_⟩
      · exact absurd hcurrent (hkeys _ (List.mem_append_left _ (List.mem_map_of_mem hrequest)))
      · exact (h.requests request hrequest).query
      · obtain ⟨query, tree, hfound, hfits⟩ := h.outcome key results houtcome
        refine ⟨query, tree, hfound, fun hcurrent => ?_, hfits.query⟩
        refine absurd hcurrent (hkeys key (List.mem_append_right _ ?_))
        rw [houtcome]
        exact List.mem_singleton_self _
      · exact absurd hcurrent (hsearches kept hkept)
    exact hrebuilt.refresh

theorem refresh_current (h : ∀ key query, core.dispatch = some (.run key query) →
      ∃ active, core.active = some active ∧ active.key = key ∧ active.query = query) :
    (core.refresh core.requestTreeRevision).Current := by
  unfold SearchCore.refresh
  split
  case h_1 hnone =>
    refine ⟨fun active hactive => ?_, h⟩
    rw [hnone] at hactive
    cases hactive
  case h_2 active hactive =>
    split
    case isTrue hsame =>
      refine ⟨fun other hother => ?_, h⟩
      obtain rfl := Option.some.inj (hactive.symm.trans hother)
      exact hsame
    case isFalse =>
      refine ⟨fun other hother => ?_, fun key query hintent => ?_⟩
      · obtain rfl := Option.some.inj hother
        rfl
      · obtain ⟨rfl, rfl⟩ := DispatchIntent.run.inj (Option.some.inj hintent)
        exact ⟨_, rfl, rfl, rfl⟩

theorem Current.ensure (h : core.Current) : core.ensure.Current := by
  unfold SearchCore.ensure
  split
  · exact h
  · exact (@refresh_current { core with
      requestTree := core.capturesTree
      requestTreeRevision := core.capturesRevision }) h.intent

theorem Keyed.restore (h : core.Keyed search service) :
    core.restore.Keyed search service ∧ core.restore.Current := by
  unfold SearchCore.restore
  dsimp only
  have hrestored : ({ core with active := core.prior, prior := none, dispatch := some .cancel } :
      SearchCore).Keyed search service := by
    refine h.derive rfl rfl rfl fun kept hkept => ?_
    rcases mem_searches.1 hkept with hkept | hkept
    · exact .inl (mem_searches.2 (.inr hkept))
    · cases hkept
  refine ⟨hrestored.ensure.refresh, refresh_current fun key query hintent => ?_⟩
  unfold SearchCore.ensure at hintent ⊢
  split at hintent
  · cases hintent
  case isFalse hstale =>
    rw [if_neg hstale]
    unfold SearchCore.refresh at hintent ⊢
    dsimp only at hintent ⊢
    cases hprior : core.prior with
    | none =>
      rw [hprior] at hintent
      cases hintent
    | some prior =>
      rw [hprior] at hintent
      dsimp only at hintent ⊢
      split at hintent
      case isTrue => cases hintent
      case isFalse hne =>
        rw [if_neg hne]
        obtain ⟨rfl, rfl⟩ := DispatchIntent.run.inj (Option.some.inj hintent)
        exact ⟨_, rfl, rfl, rfl⟩

/-- A query that is activated has a generation of its own. -/
theorem Keyed.activate (h : core.Keyed search service)
    (hcurrent : core.capturesRevision = core.requestTreeRevision) {generation : Nat}
    (hservice : ∀ key ∈ service.keys, key.generation ≠ generation)
    (hsearches : ∀ kept ∈ core.searches, kept.key.generation ≠ generation) (query : Bytes) :
    (core.activate generation query).Keyed search service ∧
      (core.activate generation query).Current := by
  unfold SearchCore.activate
  split
  case isTrue =>
    refine ⟨h.derive rfl rfl rfl fun kept hkept => ?_, fun _ hactive => (by cases hactive),
      fun _ _ hintent => (by cases hintent)⟩
    rcases mem_searches.1 hkept with hkept | hkept
    · cases hkept
    · exact .inl (mem_searches.2 (.inr hkept))
  case isFalse hne =>
    dsimp only
    have hcases : ∀ kept ∈ ({ core with
          active := some { query, key := ⟨generation, core.requestTreeRevision⟩
                           progress := .pending, selectFirstWhenReady := true }
          dispatch := some (.run ⟨generation, core.requestTreeRevision⟩ query) } :
          SearchCore).searches,
        kept.key.generation = generation ∧ kept.query = query ∧ kept.progress = .pending ∨
          kept ∈ core.searches := by
      intro kept hkept
      rcases mem_searches.1 hkept with hkept | hkept
      · obtain rfl := Option.some.inj hkept
        exact .inl ⟨rfl, rfl, rfl⟩
      · exact .inr (mem_searches.2 (.inr hkept))
    have hquery : ∀ {key : SearchRequestKey} {asked : Bytes}, key ∈ service.keys →
        (∀ kept ∈ core.searches, kept.key.generation = key.generation → kept.query = asked) →
        ∀ kept ∈ ({ core with
          active := some { query, key := ⟨generation, core.requestTreeRevision⟩
                           progress := .pending, selectFirstWhenReady := true }
          dispatch := some (.run ⟨generation, core.requestTreeRevision⟩ query) } :
          SearchCore).searches, kept.key.generation = key.generation → kept.query = asked := by
      intro key asked hkey hold kept hkept hgeneration
      rcases hcases kept hkept with ⟨hnew, -, -⟩ | hkept
      · exact absurd (hgeneration.symm.trans hnew) (hservice key hkey)
      · exact hold kept hkept hgeneration
    refine ⟨⟨fun hstale => absurd hcurrent hstale, fun request hrequest => ?_,
      fun key results houtcome => ?_, fun kept hkept other hother hgeneration => ?_,
      fun kept hkept results hready hrevision => ?_⟩, fun active hactive => ?_,
      fun key asked hintent => ?_⟩
    · have hfits := h.requests request hrequest
      exact ⟨hfits.tree,
        hquery (List.mem_append_left _ (List.mem_map_of_mem hrequest)) hfits.query⟩
    · obtain ⟨asked, tree, hfound, hfits⟩ := h.outcome key results houtcome
      refine ⟨asked, tree, hfound, hfits.tree, hquery (List.mem_append_right _ ?_) hfits.query⟩
      rw [houtcome]
      exact List.mem_singleton_self _
    · rcases hcases kept hkept with ⟨hnew, hsame, -⟩ | hkept
      · rcases hcases other hother with ⟨-, hsame', -⟩ | hother
        · rw [hsame, hsame']
        · exact absurd (hgeneration.symm.trans hnew) (hsearches other hother)
      · rcases hcases other hother with ⟨hnew, -, -⟩ | hother
        · exact absurd (hgeneration.trans hnew) (hsearches kept hkept)
        · exact h.same kept hkept other hother hgeneration
    · rcases hcases kept hkept with ⟨-, -, hpending⟩ | hkept
      · rw [hpending] at hready
        cases hready
      · exact h.ready kept hkept results hready hrevision
    · obtain rfl := Option.some.inj hactive
      rfl
    · obtain ⟨rfl, rfl⟩ := DispatchIntent.run.inj (Option.some.inj hintent)
      exact ⟨_, rfl, rfl, rfl⟩

theorem Keyed.act {service' : RequestSearchService} {action : SearchServiceAction}
    (h : core.Keyed search service) (hact : service.act search action = some service') :
    core.Keyed search service' := by
  obtain ⟨hflight, houtcomes⟩ := RequestSearchService.act_inFlight hact
  have hkeys : ∀ key ∈ service'.keys, key ∈ service.keys := by
    intro key hkey
    rcases List.mem_append.1 hkey with hkey | hkey
    · obtain ⟨request, hrequest, rfl⟩ := List.mem_map.1 hkey
      exact List.mem_append_left _ (List.mem_map_of_mem (hflight request hrequest))
    · obtain ⟨outcome, houtcome, rfl⟩ := Option.map_eq_some_iff.1 (Option.mem_toList.1 hkey)
      rcases houtcomes outcome houtcome with hold | ⟨request, hrequest, hfound⟩
      · refine List.mem_append_right _ (Option.mem_toList.2 ?_)
        rw [hold]
        rfl
      · rw [hfound.1]
        exact List.mem_append_left _ (List.mem_map_of_mem hrequest)
  refine ⟨fun hstale => ⟨fun key hkey => (h.fresh hstale).1 key (hkeys key hkey),
    (h.fresh hstale).2⟩, fun request hrequest => h.requests request (hflight request hrequest),
    fun key results houtcome => ?_, h.same, h.ready⟩
  rcases houtcomes _ houtcome with hold | ⟨request, hrequest, hkey, hresults⟩
  · exact h.outcome key results hold
  · refine ⟨request.query, request.tree, hresults key results rfl, ?_⟩
    have hsame : key = request.key := hkey
    rw [hsame]
    exact h.requests request hrequest

/-- A request of the active search, or none, takes the place of the latest one. -/
theorem Keyed.submit (h : core.Keyed search service) (latest : Option SearchRequest)
    (hlatest : ∀ request, latest = some request →
      (∃ kept ∈ core.searches, kept.key = request.key) ∧
        core.Fits request.key request.query request.tree) :
    core.Keyed search { service with requests := service.requests.sendReplace latest } := by
  have hflight : ∀ request ∈ ({ service with requests := service.requests.sendReplace latest } :
      RequestSearchService).inFlight, latest = some request ∨ request ∈ service.inFlight := by
    intro request hrequest
    rcases List.mem_append.1 hrequest with hvalue | hphase
    · exact .inl (Option.mem_toList.1 hvalue)
    · exact .inr (List.mem_append_right _ hphase)
  refine ⟨fun hstale => ⟨fun key hkey => ?_, (h.fresh hstale).2⟩, fun request hrequest => ?_,
    h.outcome, h.same, h.ready⟩
  · rcases List.mem_append.1 hkey with hkey | hkey
    · obtain ⟨request, hrequest, rfl⟩ := List.mem_map.1 hkey
      rcases hflight request hrequest with hnew | hold
      · obtain ⟨⟨kept, hkept, hsame⟩, -⟩ := hlatest request hnew
        rw [← hsame]
        exact (h.fresh hstale).2 kept hkept
      · exact (h.fresh hstale).1 _ (List.mem_append_left _ (List.mem_map_of_mem hold))
    · exact (h.fresh hstale).1 key (List.mem_append_right _ hkey)
  · rcases hflight request hrequest with hnew | hold
    · exact (hlatest request hnew).2
    · exact h.requests request hold

theorem Current.apply (h : core.Current) (outcome : SearchJobOutcome) :
    (core.apply outcome).Current := by
  unfold SearchCore.apply
  cases hactive : core.active with
  | none => exact h
  | some active =>
    have hset : ∀ active' : ActiveSearch, active'.key = active.key → active'.query = active.query →
        ({ core with active := some active' } : SearchCore).Current := by
      intro active' hkey hquery
      refine ⟨fun other hother => ?_, fun key query hintent => ?_⟩
      · obtain rfl := Option.some.inj hother
        rw [hkey]
        exact h.revision active hactive
      · obtain ⟨other, hother, rfl, rfl⟩ := h.intent key query hintent
        obtain rfl := Option.some.inj (hactive.symm.trans hother)
        exact ⟨active', rfl, hkey, hquery⟩
    dsimp only
    split
    · exact h
    · cases outcome with
      | completed key results => exact hset _ rfl rfl
      | cancelled key => exact h
      | failed key message => exact hset _ rfl rfl

/-- Bringing the tree up to date does not touch the generations. -/
theorem generation_ensure {kept : ActiveSearch} (h : kept ∈ core.ensure.searches) :
    ∃ old ∈ core.searches, old.key.generation = kept.key.generation := by
  have hrefresh : ∀ (base : SearchCore) (treeRevision : Nat),
      kept ∈ (base.refresh treeRevision).searches →
        ∃ old ∈ base.searches, old.key.generation = kept.key.generation := by
    intro base treeRevision hkept
    unfold SearchCore.refresh at hkept
    split at hkept
    · exact ⟨kept, hkept, rfl⟩
    case h_2 active hactive =>
      split at hkept
      · exact ⟨kept, hkept, rfl⟩
      · rcases mem_searches.1 hkept with hkept | hkept
        · obtain rfl := Option.some.inj hkept
          exact ⟨active, mem_searches.2 (.inl hactive), rfl⟩
        · exact ⟨kept, mem_searches.2 (.inr hkept), rfl⟩
  unfold SearchCore.ensure at h
  split at h
  · exact ⟨kept, h, rfl⟩
  · exact hrefresh { core with
      requestTree := core.capturesTree
      requestTreeRevision := core.capturesRevision } _ h

/-- The results of an outcome for the current key are those of the query and the tree. -/
theorem Keyed.apply (h : core.Keyed search service) (hcurrent : core.Current)
    {outcome : SearchJobOutcome} (hvalue : service.results.value = some outcome) :
    (core.apply outcome).Keyed search service := by
  unfold SearchCore.apply
  cases hactive : core.active with
  | none => exact h
  | some active =>
    have hmem : active ∈ core.searches := mem_searches.2 (.inl hactive)
    dsimp only
    split
    case isTrue => exact h
    case isFalse hne =>
      have hkey : active.key = outcome.key := not_not.1 hne
      cases outcome with
      | cancelled key => exact h
      | failed key message =>
        refine h.derive rfl rfl rfl fun kept hkept => ?_
        rcases mem_searches.1 hkept with hkept | hkept
        · obtain rfl := Option.some.inj hkept
          exact .inr ⟨⟨active, hmem, rfl, rfl, .inl rfl⟩, fun _ hready => (by cases hready)⟩
        · exact .inl (mem_searches.2 (.inr hkept))
      | completed key results =>
        obtain ⟨query, tree, hfound, hfits⟩ := h.outcome key results hvalue
        refine h.change rfl rfl rfl (fun kept hkept => ?_)
          fun kept hkept found hready hrevision => ?_
        · rcases mem_searches.1 hkept with hkept | hkept
          · obtain rfl := Option.some.inj hkept
            exact ⟨active, hmem, rfl, rfl, .inl rfl⟩
          · exact traced_self (mem_searches.2 (.inr hkept))
        · rcases mem_searches.1 hkept with hkept | hkept
          · obtain rfl := Option.some.inj hkept
            obtain rfl : results = found := ActiveSearchProgress.ready.inj hready
            have hsame : key = active.key := hkey.symm
            have hquery : active.query = query := hfits.query active hmem (by rw [hsame])
            have htree : tree = core.requestTree :=
              hfits.tree (by rw [hsame]; exact hcurrent.revision active hactive)
            rw [hfound, htree, ← hquery]
          · exact h.ready kept (mem_searches.2 (.inr hkept)) found hready hrevision

end SearchCore

section System

variable {σ : Type} {widget : TreeWidget σ} {search : Bytes → RequestTreeModel → SearchResults}

/-- The keys of the searches, of their requests and of their outcomes. -/
def SearchSystem.keysInUse (s : SearchSystem σ) : List SearchRequestKey :=
  s.service.keys ++ s.app.core.searches.map ActiveSearch.key

/-- Neither counter comes round to a value in use. -/
def SearchSystem.Unwrapped (s : SearchSystem σ) : SearchEvent σ → Prop
  | .editKey (.input (.changed _)) => ∀ key ∈ s.keysInUse,
      key.generation ≠ nextSearchGeneration s.app.search.nextGeneration
  | .setCaptures _ => ∀ key ∈ s.keysInUse,
      key.treeRevision ≠ CaptureSystem.nextStoreRevision s.app.capturesRevision
  | _ => True

theorem keyed_coreStep {app : SearchApp σ} {service : RequestSearchService}
    {event : SearchEvent σ} {core : SearchCore} (h : app.core.Keyed search service)
    (hcurrent : app.core.Current)
    (hunwrapped : (⟨app, service⟩ : SearchSystem σ).Unwrapped event)
    (hstep : app.CoreStep event core) : core.Keyed search service ∧ core.Current := by
  cases hstep with
  | same => exact ⟨h, hcurrent⟩
  | ensure => exact ⟨h.ensure, hcurrent.ensure⟩
  | «begin» =>
    refine ⟨h.derive rfl rfl rfl fun kept hkept => ?_, fun _ hactive => (by cases hactive),
      fun _ _ hintent => (by cases hintent)⟩
    rcases SearchCore.mem_searches.1 hkept with hkept | hkept
    · cases hkept
    · exact .inl (SearchCore.mem_searches.2 (.inl hkept))
  | commit =>
    refine ⟨h.derive rfl rfl rfl fun kept hkept => ?_, hcurrent.revision, hcurrent.intent⟩
    rcases SearchCore.mem_searches.1 hkept with hkept | hkept
    · exact .inl (SearchCore.mem_searches.2 (.inl hkept))
    · cases hkept
  | restore key hcancels => exact h.restore
  | activate input =>
    refine h.ensure.activate app.core.ensure_current
      (fun key hkey => hunwrapped key (List.mem_append_left _ hkey)) (fun kept hkept => ?_) input
    obtain ⟨old, hold, hsame⟩ := SearchCore.generation_ensure hkept
    rw [← hsame]
    exact hunwrapped old.key (List.mem_append_right _ (List.mem_map_of_mem hold))
  | clear =>
    refine ⟨h.derive rfl rfl rfl fun kept hkept => ?_, fun _ hactive => (by cases hactive),
      fun _ _ hintent => (by cases hintent)⟩
    rcases SearchCore.mem_searches.1 hkept with hkept | hkept
    · cases hkept
    · cases hkept
  | captures tree =>
    refine ⟨⟨fun _ => ⟨fun key hkey => hunwrapped key (List.mem_append_left _ hkey),
      fun kept hkept => hunwrapped _ (List.mem_append_right _ (List.mem_map_of_mem hkept))⟩,
      fun request hrequest => ?_, fun key results houtcome => ?_, h.same, h.ready⟩,
      hcurrent.revision, hcurrent.intent⟩
    · exact ⟨(h.requests request hrequest).tree, (h.requests request hrequest).query⟩
    · obtain ⟨query, found, hfound, hfits⟩ := h.outcome key results houtcome
      exact ⟨query, found, hfound, hfits.tree, hfits.query⟩

theorem keyed_dispatch {s : SearchSystem σ} (h : s.app.core.Keyed search s.service)
    (hcurrent : s.app.core.Current) :
    s.dispatchPendingRequestSearch.app.core.Keyed search s.dispatchPendingRequestSearch.service ∧
      s.dispatchPendingRequestSearch.app.core.Current := by
  obtain ⟨base, hbase, hintent, hcore⟩ := s.app.takeRequestSearchDispatch_core
  have hkeyed : base.Keyed search s.service ∧ base.Current := by
    rcases hbase with rfl | rfl
    · exact ⟨h, hcurrent⟩
    · exact ⟨h.ensure, hcurrent.ensure⟩
  obtain ⟨hkeyed, hcurrent⟩ := hkeyed
  have htaken : ({ base with dispatch := none } : SearchCore).Current :=
    ⟨hcurrent.revision, fun _ _ hintent => (by cases hintent)⟩
  unfold SearchSystem.dispatchPendingRequestSearch
  generalize s.app.takeRequestSearchDispatch = taken at hintent hcore ⊢
  obtain ⟨intent, app⟩ := taken
  dsimp only at hintent hcore
  have hsame : ({ base with dispatch := none } : SearchCore).Keyed search s.service :=
    hkeyed.derive rfl rfl rfl fun kept hkept => .inl hkept
  cases intent with
  | none =>
    dsimp only
    rw [hcore]
    exact ⟨hsame, htaken⟩
  | some intent =>
    cases intent with
    | cancel =>
      dsimp only
      rw [hcore]
      exact ⟨hsame.submit none fun _ h => (by cases h), htaken⟩
    | run key query =>
      dsimp only
      rw [hcore]
      refine ⟨hsame.submit (some { key, query, tree := app.requestTree })
        fun request hrequest => ?_, htaken⟩
      obtain rfl := Option.some.inj hrequest
      obtain ⟨active, hactive, rfl, rfl⟩ := hcurrent.intent key query hintent.symm
      have hmem : active ∈ base.searches := SearchCore.mem_searches.2 (.inl hactive)
      have htree : app.requestTree = base.requestTree := congrArg SearchCore.requestTree hcore
      refine ⟨⟨active, hmem, rfl⟩, fun _ => htree, fun kept hkept hgeneration => ?_⟩
      exact hkeyed.same kept hkept active hmem hgeneration

theorem keyed_step {s t : SearchSystem σ} {event : SearchEvent σ}
    (h : s.app.core.Keyed search s.service) (hcurrent : s.app.core.Current)
    (hunwrapped : s.Unwrapped event) (hstep : s.step widget search event = some t) :
    t.app.core.Keyed search t.service ∧ t.app.core.Current := by
  rcases SearchApp.coreStep_of_step hstep with ⟨hcore, hservice⟩ | ⟨-, rfl⟩ | ⟨-, happly⟩ |
    ⟨action, -, happ, hact⟩
  · rw [hservice]
    exact keyed_coreStep h hcurrent hunwrapped hcore
  · exact keyed_dispatch h hcurrent
  · unfold SearchSystem.applyResults at happly
    split at happly
    case isFalse => cases happly
    case isTrue =>
      dsimp only at happly
      split at happly
      case h_1 hnone =>
        obtain rfl := Option.some.inj happly
        exact ⟨⟨h.fresh, h.requests, h.outcome, h.same, h.ready⟩, hcurrent⟩
      case h_2 outcome houtcome =>
        obtain rfl := Option.some.inj happly
        dsimp only
        rw [SearchApp.core_applyRequestSearchOutcome]
        have happlied := h.apply hcurrent houtcome
        exact ⟨⟨happlied.fresh, happlied.requests, happlied.outcome, happlied.same, happlied.ready⟩,
          hcurrent.apply outcome⟩
  · rw [happ]
    exact ⟨h.act hact, hcurrent⟩

/-! ## Runs -/

/-- A search that waits is about to be asked for, worked on, or answered. -/
def SearchSystem.Unstuck (s : SearchSystem σ) : Prop :=
  ∀ active, s.app.search.active = some active → active.waiting = true →
    s.app.search.dispatch = some (.run active.key active.query) ∨
      s.service.Live active.key ∨ s.service.Answered active.key

/-- What is shown as ready was found with the query in the tree that is there. -/
def SearchSystem.Truthful (search : Bytes → RequestTreeModel → SearchResults)
    (s : SearchSystem σ) : Prop :=
  ∀ active results, s.app.search.active = some active → active.progress = .ready results →
    active.key.treeRevision = s.app.requestTreeRevision ∧
      results = search active.query s.app.requestTree

/-- An outcome for another key is ignored. -/
theorem applyOutcome_of_ne {requests : RequestListSearch} {outcome : SearchJobOutcome}
    (h : ∀ active, requests.active = some active → active.key ≠ outcome.key) :
    requests.applyOutcome outcome = (.ignored, requests) := by
  unfold RequestListSearch.applyOutcome
  cases hactive : requests.active with
  | none => rfl
  | some active => exact if_pos (h active hactive)

theorem keyed_new {σ : Type} (widget : TreeWidget σ)
    (search : Bytes → RequestTreeModel → SearchResults) :
    (SearchSystem.new widget).app.core.Keyed search (SearchSystem.new widget).service ∧
      (SearchSystem.new widget).app.core.Current where
  left :=
    { fresh := fun hstale => absurd rfl hstale
      requests := fun _ h => absurd h List.not_mem_nil
      outcome := fun _ _ h => by cases h
      same := fun _ h => absurd h List.not_mem_nil
      ready := fun _ h => absurd h List.not_mem_nil }
  right := ⟨fun _ h => (by cases h), fun _ _ h => (by cases h)⟩

/-- No search is stuck unless a key restores one that waits for the tree that is there; and
results are those of the query and the tree until a counter wraps around. -/
theorem search_unstuck {events : List (SearchEvent σ)} {s : SearchSystem σ}
    (hrun : run (SearchSystem.step widget search) (SearchSystem.new widget) events = some s) :
    (Along (SearchSystem.step widget search) SearchSystem.Keeps (SearchSystem.new widget) events →
      s.Unstuck) ∧
    (Along (SearchSystem.step widget search) SearchSystem.Unwrapped (SearchSystem.new widget)
      events → s.Truthful search) ∧
    ∀ outcome, (∀ active, s.app.search.active = some active → active.key ≠ outcome.key) →
      s.app.search.applyOutcome outcome = (.ignored, s.app.search) := by
  refine ⟨fun hkeeps active hactive hwaiting => ?_, fun hunwrapped active results hactive hready => ?_,
    fun outcome hne => applyOutcome_of_ne hne⟩
  · have hfed : Fed s.app.core s.service :=
      run_invariant_along (I := fun s : SearchSystem σ => Fed s.app.core s.service)
        (fun s event t h hkeep hstep => fed_step h hkeep hstep) (fed_of_none rfl) hkeeps hrun
    exact (hfed active hactive hwaiting).imp_right fun hheld => hheld.2.cases
  · have hkeyed : s.app.core.Keyed search s.service ∧ s.app.core.Current :=
      run_invariant_along
        (I := fun s : SearchSystem σ => s.app.core.Keyed search s.service ∧ s.app.core.Current)
        (fun s event t h hunwrap hstep => keyed_step h.1 h.2 hunwrap hstep)
        (keyed_new widget search) hunwrapped hrun
    obtain ⟨hkeyed, hcurrent⟩ := hkeyed
    have hrevision : active.key.treeRevision = s.app.requestTreeRevision :=
      hcurrent.revision active hactive
    exact ⟨hrevision, hkeyed.ready active (SearchCore.mem_searches.2 (.inl hactive)) results hready
      hrevision⟩

end System

/-! ## Samples -/

/-- A matcher that finds the query in the identifiers of the rows. -/
def sampleSearch (query : Bytes) (tree : RequestTreeModel) : SearchResults :=
  ((tree.visiblePaths []).filter fun path => path.any fun identifier => query.isSuffixOf identifier).map
    fun path => { path, logicalPosition := 0 }

/-- A query of one letter is typed, handed to the service and committed. -/
def sampleQuery : List (SearchEvent ListState) :=
  [.beginRequestSearch, .editKey (.input (.changed (ofAscii "a"))), .dispatchPendingRequestSearch,
    .editKey .enter]

/-- The service answers the query, and the list shows it. -/
def sampleAnswer : List (SearchEvent ListState) :=
  [.service .changed, .service .proceed, .service (.joined .completed), .applyResults]

instance decidableKeeps (s : SearchSystem ListState) (event : SearchEvent ListState) :
    Decidable (s.Keeps event) := by
  cases event <;> unfold SearchSystem.Keeps <;> infer_instance

instance decidableUnwrapped (s : SearchSystem ListState) (event : SearchEvent ListState) :
    Decidable (s.Unwrapped event) := by
  cases event with
  | editKey key =>
    cases key with
    | input edit => cases edit <;> unfold SearchSystem.Unwrapped <;> infer_instance
    | _ => unfold SearchSystem.Unwrapped; infer_instance
  | _ => unfold SearchSystem.Unwrapped; infer_instance

theorem search_unstuck_sample :
    ∃ s : SearchSystem ListState,
      run (SearchSystem.step listWidget sampleSearch) (SearchSystem.new listWidget)
        (sampleQuery ++ sampleAnswer) = some s ∧
      s.Unstuck ∧ s.Truthful sampleSearch ∧
      ∀ outcome, (∀ active, s.app.search.active = some active → active.key ≠ outcome.key) →
        s.app.search.applyOutcome outcome = (.ignored, s.app.search) := by
  obtain ⟨s, hrun⟩ := Option.isSome_iff_exists.1
    (show (run (SearchSystem.step listWidget sampleSearch) (SearchSystem.new listWidget)
      (sampleQuery ++ sampleAnswer)).isSome = true by decide +kernel)
  obtain ⟨hunstuck, htruthful, hignored⟩ := search_unstuck hrun
  exact ⟨s, hrun, hunstuck (by decide +kernel), htruthful (by decide +kernel), hignored⟩

/-- The committed search waits when the slash key is pressed, and Escape brings it back after
its request has been cancelled; nothing is left that could answer it. -/
theorem escape_leaves_search_stuck :
    ∃ (s : SearchSystem ListState) (active : ActiveSearch),
      run (SearchSystem.step listWidget sampleSearch) (SearchSystem.new listWidget)
        (sampleQuery ++ [.beginRequestSearch, .dispatchPendingRequestSearch, .editKey .esc,
          .dispatchPendingRequestSearch]) = some s ∧
      s.app.search.active = some active ∧ active.progress = .pending ∧
      s.app.search.dispatch = none ∧ s.service.requests.value = none ∧
      s.service.results.value = none ∧ ¬ s.Unstuck := by
  have hstuck : ((run (SearchSystem.step listWidget sampleSearch) (SearchSystem.new listWidget)
      (sampleQuery ++ [.beginRequestSearch, .dispatchPendingRequestSearch, .editKey .esc,
        .dispatchPendingRequestSearch])).bind fun s => s.app.search.active.map fun active =>
          decide (active.progress = .pending ∧ s.app.search.dispatch = none ∧
            s.service.requests.value = none ∧ s.service.results.value = none)) = some true := by
    decide +kernel
  obtain ⟨s, hrun, hstuck⟩ := Option.bind_eq_some_iff.1 hstuck
  obtain ⟨active, hactive, hstuck⟩ := Option.map_eq_some_iff.1 hstuck
  obtain ⟨hprogress, hdispatch, hrequests, hresults⟩ := of_decide_eq_true hstuck
  refine ⟨s, active, hrun, hactive, hprogress, hdispatch, hrequests, hresults, fun hunstuck => ?_⟩
  have hwaiting : active.waiting = true := by
    unfold ActiveSearch.waiting
    rw [hprogress]
  rcases hunstuck active hactive hwaiting with hrun | ⟨request, hvalue, -⟩ | ⟨-, outcome, hvalue, -⟩
  · rw [hdispatch] at hrun
    cases hrun
  · rw [hrequests] at hvalue
    cases hvalue
  · rw [hresults] at hvalue
    cases hvalue

end Fluxcope.Requests
