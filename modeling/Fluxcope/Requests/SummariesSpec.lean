import Fluxcope.Requests.RequestList
import Fluxcope.Capture.StoreRuns
/-!
# Summaries of the stored captures

The sequence number and the request of a capture never change.  So the list of the
summaries changes only when captures enter or leave the store.
-/

namespace Fluxcope.Requests

open Fluxcope.Library Fluxcope.Library.Utf8 Fluxcope.Capture CaptureSystem

def summaryOf (record : CaptureRecord) : CaptureSummary :=
  { sequence := record.sequence, request := record.request }

def summaryAt (s : CaptureSystem) (i : CaptureSequence) : Option CaptureSummary :=
  s.cells[i]?.map fun cell => summaryOf cell.record

theorem summaryAt_of_get {s : CaptureSystem} {i : CaptureSequence} {cell : CaptureCell}
    (h : s.cells[i]? = some cell) : summaryAt s i = some (summaryOf cell.record) := by
  unfold summaryAt
  rw [h, Option.map_some]

theorem summaries_eq (s : CaptureSystem) :
    summaries s = s.store.captures.filterMap (summaryAt s) := rfl

/-! ## Operations on records -/

theorem summaryOf_sameContent {r r' : CaptureRecord} (h : r.SameContent r') :
    summaryOf r' = summaryOf r := by
  rw [h.eq]
  rfl

theorem summaryOf_bumpRevision (scope : RecordScope) :
    summaryOf scope.bumpRevision.record = summaryOf scope.record := by
  unfold RecordScope.bumpRevision
  dsimp only
  split <;> rfl

theorem summaryOf_setResponse (scope : RecordScope) (response : Option ResponseMetadata)
    (truncated : Bool) (reserved instant : Nat) :
    summaryOf (scope.setResponseAt response truncated reserved instant).2.record =
      summaryOf scope.record := by
  unfold RecordScope.setResponseAt
  dsimp only
  split
  · rfl
  · exact summaryOf_bumpRevision _

theorem summaryOf_setResponseAt (scope : RecordScope) (policy : CapturePolicy)
    (input : ResponseCaptureInput) (instant : Nat) :
    summaryOf (CaptureHandle.setResponseAt scope policy input instant).record =
      summaryOf scope.record := by
  have hkeep : ∀ (scope' : RecordScope) (response : Option ResponseMetadata) (truncated : Bool)
      (reserved : Nat), scope'.record = scope.record →
      summaryOf (if (scope'.setResponseAt response truncated reserved instant).1 then
        (scope'.setResponseAt response truncated reserved instant).2
      else (scope'.setResponseAt response truncated reserved instant).2.releaseMetadata
        reserved).record = summaryOf scope.record := by
    intro scope' response truncated reserved hrecord
    have hsame := summaryOf_setResponse scope' response truncated reserved instant
    rw [hrecord] at hsame
    split
    · exact hsame
    · exact hsame
  unfold CaptureHandle.setResponseAt
  dsimp only
  split
  · exact hkeep _ _ _ _ rfl
  · split
    · exact hkeep _ _ _ _ rfl
    · exact hkeep _ _ _ _ rfl

theorem summaryOf_append (scope : RecordScope) (side : BodySide) (bytes : Bytes) (limit : Nat) :
    summaryOf (scope.appendBody side bytes limit).2.record = summaryOf scope.record := by
  unfold RecordScope.appendBody
  dsimp only
  split
  · rfl
  split
  · rfl
  · exact summaryOf_bumpRevision _

theorem summaryOf_finish (scope : RecordScope) (side : BodySide) (terminal : BodyTerminal)
    (instant : Nat) :
    summaryOf (scope.finishBodyAt side terminal instant).2.record = summaryOf scope.record := by
  unfold RecordScope.finishBodyAt
  dsimp only
  split
  · rfl
  · exact summaryOf_bumpRevision _

theorem summaryOf_handleOp {s : CaptureSystem} {action : CaptureAction} {i : CaptureSequence}
    {f : RecordScope → RecordScope} (hop : s.handleOp action = some (i, f)) (scope : RecordScope) :
    summaryOf (f scope).record = summaryOf scope.record := by
  cases action with
  | setResponse j input instant =>
    obtain ⟨-, rfl⟩ := Prod.mk.inj (Option.some.inj hop)
    exact summaryOf_setResponseAt scope s.policy input instant
  | append j side bytes =>
    obtain ⟨-, rfl⟩ := Prod.mk.inj (Option.some.inj hop)
    exact summaryOf_append scope side bytes _
  | finish j side terminal instant =>
    obtain ⟨-, rfl⟩ := Prod.mk.inj (Option.some.inj hop)
    exact summaryOf_finish scope side terminal instant
  | _ => cases hop

/-! ## Steps -/

theorem summaryAt_of_sameRecord {s u : CaptureSystem} (h : Pointwise SameRecord s.cells u.cells)
    (i : CaptureSequence) : summaryAt u i = summaryAt s i := by
  unfold summaryAt
  cases hu : u.cells[i]? with
  | none =>
    cases hs : s.cells[i]? with
    | none => rfl
    | some cell =>
      obtain ⟨cell', hcell', -⟩ := h.get hs
      rw [hu] at hcell'
      cases hcell'
  | some cell' =>
    obtain ⟨cell, hcell, hsame⟩ := h.get_right hu
    rw [hcell]
    exact congrArg some (summaryOf_sameContent hsame)

/-- No summary of a capture that is there changes. -/
theorem summaryAt_step {s t : CaptureSystem} {action : CaptureAction}
    (h : s.step action = some t) {i : CaptureSequence} {summary : CaptureSummary}
    (hi : summaryAt s i = some summary) : summaryAt t i = some summary := by
  obtain ⟨cell, hcell, rfl⟩ := Option.map_eq_some_iff.1 hi
  obtain ⟨cell', hcell', hcases⟩ := step_record h hcell
  unfold summaryAt
  rw [hcell']
  refine congrArg some ?_
  rcases hcases with ⟨hsame, -⟩ | ⟨f, hop, -, hsame, -⟩
  · exact summaryOf_sameContent hsame
  · exact (summaryOf_sameContent hsame).trans (summaryOf_handleOp hop _)

def startsCapture : CaptureAction → Bool
  | .tryStart .. => true
  | _ => false

/-- Captures are started by `try_start` only. -/
theorem length_act {s u : CaptureSystem} {action : CaptureAction}
    (hact : s.act action = some u) (hnew : startsCapture action = false) :
    u.cells.length = s.cells.length := by
  cases action with
  | tryStart input startedAt startedMono => cases hnew
  | receive =>
    simp only [act] at hact
    split at hact
    · cases hact
    · obtain rfl := Option.some.inj hact
      exact List.length_modify ..
  | dropReceiver =>
    obtain rfl := Option.some.inj hact
    rfl
  | cloneRecord i | takeSnapshot i =>
    simp only [act] at hact
    split at hact
    · obtain rfl := Option.some.inj hact
      exact List.length_modify ..
    · cases hact
  | dropRecord i | cloneSnapshot i | dropSnapshot i | cloneHandle i =>
    obtain ⟨cell, -, hact⟩ := Option.bind_eq_some_iff.1 hact
    split at hact
    · obtain rfl := Option.some.inj hact
      exact List.length_modify ..
    · cases hact
  | dropHandle i =>
    obtain ⟨cell, -, hact⟩ := Option.bind_eq_some_iff.1 hact
    split at hact
    · obtain rfl := Option.some.inj hact
      exact (storeMove_dropHandle s i cell).cells.length_eq
    · cases hact
  | setResponse i input instant | append i side bytes | finish i side terminal instant =>
    rcases act_cases hact with hnone | ⟨j, cell, f, hop⟩
    · obtain ⟨-, -, hcells⟩ := hnone.dead _ _ rfl
      exact hcells.length_eq
    · exact hop.cells.length_eq.trans List.length_set
  | insert i =>
    obtain ⟨_, -, hact⟩ := Option.bind_eq_some_iff.1 hact
    split at hact
    · obtain rfl := Option.some.inj hact
      exact ((quiet_placed s i).trans (storeMove_insert s i).quiet).cells.length_eq
    · cases hact
  | removeSequences sequences =>
    obtain rfl := Option.some.inj hact
    exact (storeMove_removeSequences s sequences).cells.length_eq
  | clear =>
    obtain rfl := Option.some.inj hact
    exact (storeMove_clear s).cells.length_eq
  | evictOldest =>
    obtain rfl := Option.some.inj hact
    exact (storeMove_evictOldest s).cells.length_eq
  | dropStore =>
    obtain rfl := Option.some.inj hact
    rfl

/-! ## Captures with their numbers -/

/-- What the list needs to know about its captures. -/
structure Numbered (s : CaptureSystem) : Prop extends StoreSorted s where
  sequence : ∀ i summary, summaryAt s i = some summary → summary.sequence = i

theorem numbered_new (policy : CapturePolicy) (retention : CaptureRetentionPolicy) :
    Numbered (.new policy retention) where
  sorted := .nil
  bound := fun _ h => absurd h List.not_mem_nil
  sequence := fun i summary h => by cases h

theorem sequence_started {s : CaptureSystem} (hs : Numbered s) (input : RequestCaptureInput)
    (startedAt startedMono : Nat) (i : CaptureSequence) (summary : CaptureSummary)
    (h : summaryAt (s.tryStart input startedAt startedMono) i = some summary) :
    summary.sequence = i := by
  have hold : ∀ {cells : List CaptureCell}, cells = s.cells →
      (cells[i]?.map fun cell => summaryOf cell.record) = some summary → summary.sequence = i := by
    rintro _ rfl h
    exact hs.sequence i summary h
  have hnew : ∀ {cell : CaptureCell}, cell.record.sequence = s.cells.length →
      ((s.cells ++ [cell])[i]?.map fun cell => summaryOf cell.record) = some summary →
        summary.sequence = i := by
    intro cell hsequence h
    obtain ⟨c, hc, rfl⟩ := Option.map_eq_some_iff.1 h
    rcases getElem?_snoc hc with hc | ⟨rfl, rfl⟩
    · exact hs.sequence i _ (summaryAt_of_get hc)
    · exact hsequence
  unfold summaryAt tryStart at h
  split at h
  · exact hold rfl h
  dsimp only at h
  split at h
  · exact hold rfl h
  split at h
  · exact hnew rfl h
  · exact hnew rfl h

/-- Old captures keep their summaries and a new one is numbered when it is started. -/
theorem sequence_step {s t : CaptureSystem} {action : CaptureAction} (hs : Numbered s)
    (h : s.step action = some t) (i : CaptureSequence) (summary : CaptureSummary)
    (hi : summaryAt t i = some summary) : summary.sequence = i := by
  cases hold : summaryAt s i with
  | some old =>
    obtain rfl := Option.some.inj ((summaryAt_step h hold).symm.trans hi)
    exact hs.sequence i old hold
  | none =>
    obtain ⟨u, hact, rfl⟩ := Option.map_eq_some_iff.1 h
    rw [summaryAt_of_sameRecord (reaped_reap u).sameRecord i] at hi
    cases hnew : startsCapture action with
    | false =>
      obtain ⟨cell, hcell, -⟩ := Option.map_eq_some_iff.1 hi
      have hlt := (List.getElem?_eq_some_iff.1 hcell).1
      rw [length_act hact hnew] at hlt
      unfold summaryAt at hold
      rw [List.getElem?_eq_getElem hlt] at hold
      cases hold
    | true =>
      cases action with
      | tryStart input startedAt startedMono =>
        obtain rfl := Option.some.inj hact
        exact sequence_started hs input startedAt startedMono i summary hi
      | _ => cases hnew

theorem exists_summaryAt {s : CaptureSystem} {i : CaptureSequence} (hi : i < s.cells.length) :
    ∃ summary, summaryAt s i = some summary :=
  ⟨_, summaryAt_of_get (List.getElem?_eq_getElem hi)⟩

/-- A step that leaves the stored captures among those that are there. -/
theorem numbered_step {s t : CaptureSystem} {action : CaptureAction} (hs : Numbered s)
    (h : s.step action = some t) (hsorted : t.store.captures.Pairwise (· < ·))
    (hbound : ∀ i ∈ t.store.captures, i < s.cells.length) :
    Numbered t ∧ summaries t = t.store.captures.filterMap (summaryAt s) := by
  have hsame : ∀ i ∈ t.store.captures, summaryAt t i = summaryAt s i := by
    intro i hi
    obtain ⟨summary, hsummary⟩ := exists_summaryAt (hbound i hi)
    rw [hsummary, summaryAt_step h hsummary]
  refine ⟨⟨⟨hsorted, fun i hi => ?_⟩, sequence_step hs h⟩, ?_⟩
  · obtain ⟨summary, hsummary⟩ := exists_summaryAt (hbound i hi)
    obtain ⟨cell, hcell, -⟩ := Option.map_eq_some_iff.1 (summaryAt_step h hsummary)
    exact (List.getElem?_eq_some_iff.1 hcell).1
  · rw [summaries_eq]
    exact List.filterMap_congr hsame

/-- An action that the list does not perform itself. -/
theorem unstored_step {s t : CaptureSystem} {action : CaptureAction} (hs : Numbered s)
    (hstore : ofStore action = false) (h : s.step action = some t) :
    Numbered t ∧ t.store = s.store ∧ summaries t = summaries s := by
  obtain ⟨u, hact, rfl⟩ := Option.map_eq_some_iff.1 h
  have hsame : u.reap.store = s.store := by
    rw [(reaped_reap u).store]
    rcases store_cases hact with hsame | hmove
    · exact hsame
    · cases hmove with
      | insert i cell get records => cases hstore
      | removeSequences sequences => cases hstore
      | clear => cases hstore
      | evictOldest => cases hstore
      | dropStore => cases hstore
  obtain ⟨hnumbered, hsummaries⟩ := numbered_step hs h (by rw [hsame]; exact hs.sorted)
    (by rw [hsame]; exact hs.bound)
  rw [hsame] at hsummaries
  exact ⟨hnumbered, hsame, hsummaries⟩

/-- The sequence numbers of the summaries are those in the store. -/
theorem sequences_summaries {s : CaptureSystem} (hs : Numbered s) :
    (summaries s).map CaptureSummary.sequence = s.store.captures := by
  have hmap : ∀ captures : List CaptureSequence, (∀ i ∈ captures, i < s.cells.length) →
      (captures.filterMap (summaryAt s)).map CaptureSummary.sequence = captures := by
    intro captures hbound
    induction captures with
    | nil => rfl
    | cons i captures ih =>
      obtain ⟨summary, hsummary⟩ := exists_summaryAt (hbound i List.mem_cons_self)
      rw [List.filterMap_cons_some hsummary, List.map_cons, hs.sequence i summary hsummary,
        ih fun j hj => hbound j (List.mem_cons_of_mem i hj)]
  exact hmap s.store.captures hs.bound

theorem nodup_summaries {s : CaptureSystem} (hs : Numbered s) :
    ((summaries s).map CaptureSummary.sequence).Nodup := by
  rw [sequences_summaries hs]
  exact hs.sorted.imp fun hlt => Nat.ne_of_lt hlt

/-! ## Store operations -/

theorem nextStoreRevision_ne {revision : Nat} : nextStoreRevision revision ≠ revision := by
  unfold nextStoreRevision wordMax
  omega

theorem enforceLoop_true (fuel : Nat) (s : CaptureSystem) : (enforceLoop fuel s true).1 = true := by
  induction fuel generalizing s with
  | zero => rfl
  | succ fuel ih =>
    unfold enforceLoop
    split
    · rcases s.evictOldest with ⟨_ | i, u⟩
      · rfl
      · exact ih u
    · rfl

/-- The eviction loop drops captures from the front, or nothing. -/
theorem enforceLoop_captures (fuel : Nat) (s : CaptureSystem) (evicted : Bool) :
    (enforceLoop fuel s evicted).2.store.captures.Sublist s.store.captures ∧
      ((enforceLoop fuel s evicted).1 = false →
        (enforceLoop fuel s evicted).2.store.captures = s.store.captures) := by
  induction fuel generalizing s evicted with
  | zero => exact ⟨List.Sublist.refl _, fun _ => rfl⟩
  | succ fuel ih =>
    unfold enforceLoop
    split
    · have hcaptures := evictOldest_captures s
      rcases hevict : s.evictOldest with ⟨_ | i, u⟩
      · exact ⟨List.Sublist.refl _, fun _ => rfl⟩
      · rw [hevict] at hcaptures
        obtain ⟨hsub, -⟩ := ih u true
        refine ⟨hsub.trans ?_, fun hfalse => ?_⟩
        · rw [hcaptures]
          exact List.tail_sublist _
        · rw [enforceLoop_true] at hfalse
          cases hfalse
    · exact ⟨List.Sublist.refl _, fun _ => rfl⟩

theorem insert_captures (s : CaptureSystem) (i : CaptureSequence) :
    (s.insert i).2.store.captures.Sublist (insertSequence i s.store.captures) ∧
      ((s.insert i).1 = false →
        (s.insert i).2.store.captures = insertSequence i s.store.captures) := by
  rw [← admitted_captures s i]
  exact enforceLoop_captures _ (s.admitted i) false

theorem removeEach_captures (sequences : List CaptureSequence) (s : CaptureSystem)
    (removed : Nat) :
    removed ≤ (removeEach sequences s removed).1 ∧
      (removeEach sequences s removed).2.store.captures.Sublist s.store.captures ∧
      (removeEach sequences s removed).2.store.revision = s.store.revision ∧
      ((removeEach sequences s removed).1 = removed →
        (∀ i ∈ sequences, i ∉ s.store.captures) ∧ removeEach sequences s removed = (removed, s)) := by
  induction sequences generalizing s removed with
  | nil => exact ⟨le_rfl, List.Sublist.refl _, rfl, fun _ => ⟨fun _ h => absurd h List.not_mem_nil, rfl⟩⟩
  | cons i rest ih =>
    unfold removeEach
    split
    · obtain ⟨hle, hsub, hrevision, -⟩ := ih (({ s with store :=
        { s.store with captures := s.store.captures.erase i } } : CaptureSystem).forget i
          .explicitDelete) (removed + 1)
      rw [forget_captures] at hsub
      refine ⟨by omega, hsub.trans List.erase_sublist, hrevision.trans ?_, fun heq => by omega⟩
      unfold forget removeRecord
      simp only [onRecord_store]
    · rename_i hout
      obtain ⟨hle, hsub, hrevision, hnone⟩ := ih s removed
      refine ⟨hle, hsub, hrevision, fun heq => ?_⟩
      obtain ⟨hrest, hsame⟩ := hnone heq
      refine ⟨fun j hj => ?_, hsame⟩
      rcases List.mem_cons.1 hj with rfl | hj
      · exact hout
      · exact hrest j hj

theorem mem_foldl_insertSequence {sequences unique : List CaptureSequence} {i : CaptureSequence} :
    i ∈ sequences.foldl (fun unique i => insertSequence i unique) unique ↔
      i ∈ sequences ∨ i ∈ unique := by
  induction sequences generalizing unique with
  | nil => simp
  | cons j rest ih =>
    rw [List.foldl_cons, ih, mem_insertSequence, List.mem_cons]
    tauto

/-- A removal that finds a capture makes a new revision; one that finds none changes nothing. -/
theorem removeSequences_cases (s : CaptureSystem) (sequences : List CaptureSequence) :
    (s.removeSequences sequences = (0, s) ∧ ∀ i ∈ sequences, i ∉ s.store.captures) ∨
      0 < (s.removeSequences sequences).1 ∧
        (s.removeSequences sequences).2.store.captures.Sublist s.store.captures ∧
        (s.removeSequences sequences).2.store.revision = nextStoreRevision s.store.revision := by
  unfold removeSequences
  dsimp only
  obtain ⟨-, hsub, hrevision, hnone⟩ :=
    removeEach_captures (sequences.foldl (fun unique i => insertSequence i unique) []) s 0
  rcases Nat.eq_zero_or_pos
    (removeEach (sequences.foldl (fun unique i => insertSequence i unique) []) s 0).1 with
    hzero | hpos
  · obtain ⟨hout, hsame⟩ := hnone hzero
    rw [hsame]
    exact .inl ⟨rfl, fun i hi => hout i (mem_foldl_insertSequence.2 (.inl hi))⟩
  · refine .inr ⟨hpos, ?_, ?_⟩
    · unfold afterRemoval
      rw [if_pos hpos]
      exact hsub
    · unfold afterRemoval
      rw [if_pos hpos]
      dsimp only
      rw [hrevision]

/-- A step that only takes captures out of the store. -/
theorem removal_step {s t : CaptureSystem} {action : CaptureAction} (hs : Numbered s)
    (h : s.step action = some t) (hsub : t.store.captures.Sublist s.store.captures) :
    Numbered t ∧ summaries t = t.store.captures.filterMap (summaryAt s) :=
  numbered_step hs h (hs.sorted.sublist hsub) fun i hi => hs.bound i (hsub.subset hi)

theorem insert_step {s t : CaptureSystem} {i : CaptureSequence} (hs : Numbered s)
    (h : s.step (.insert i) = some t) :
    Numbered t ∧ summaries t = t.store.captures.filterMap (summaryAt s) ∧
      ((s.insert i).1 = false → ∀ summary ∈ summaries s, summary ∈ summaries t) := by
  obtain ⟨u, hact, rfl⟩ := Option.map_eq_some_iff.1 h
  obtain ⟨cell, hcell, hact⟩ := Option.bind_eq_some_iff.1 hact
  split at hact
  case isFalse => cases hact
  case isTrue hrecords =>
    obtain rfl := Option.some.inj hact
    obtain ⟨hsub, hkept⟩ := insert_captures s i
    have hstore : (s.insert i).2.reap.store = (s.insert i).2.store := (reaped_reap _).store
    obtain ⟨hnumbered, hsummaries⟩ := numbered_step hs h
      (by rw [hstore]; exact (pairwise_insertSequence hs.sorted).sublist hsub)
      fun j hj => by
        rw [hstore] at hj
        rcases mem_insertSequence.1 (hsub.subset hj) with rfl | hj
        · exact (List.getElem?_eq_some_iff.1 hcell).1
        · exact hs.bound j hj
    refine ⟨hnumbered, hsummaries, fun hfalse summary hsummary => ?_⟩
    rw [hsummaries, hstore, hkept hfalse]
    obtain ⟨j, hj, hsummary⟩ := List.mem_filterMap.1 hsummary
    exact List.mem_filterMap.2 ⟨j, mem_insertSequence.2 (.inr hj), hsummary⟩

end Fluxcope.Requests
