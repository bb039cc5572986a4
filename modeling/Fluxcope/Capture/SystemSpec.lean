import Fluxcope.Library.Heap
import Fluxcope.Capture.System
/-!
# What the actions of the capture system do

Only the three operations of a handle touch the visible part of a record, its
lease and the budget.  Everything else moves references and tells records that
they are in the store, or no longer in it.
-/

namespace Fluxcope.Capture

open Fluxcope.Library Fluxcope.Library.Utf8

/-- Two states of a record that differ at most in whether the record is bound to
the feed and whether it has left the store, which it never takes back. -/
structure CaptureRecord.SameContent (r r' : CaptureRecord) : Prop where
  eq : r' = { r with captureDisabled := r'.captureDisabled, feedBound := r'.feedBound }
  disabled : r.captureDisabled = true → r'.captureDisabled = true

namespace CaptureRecord.SameContent

theorem refl (r : CaptureRecord) : SameContent r r := ⟨rfl, id⟩

theorem trans {r r' r'' : CaptureRecord} (h : SameContent r r') (h' : SameContent r' r'') :
    SameContent r r'' := by
  refine ⟨?_, h'.disabled ∘ h.disabled⟩
  rw [h'.eq, h.eq]

theorem body {r r' : CaptureRecord} (h : SameContent r r') (side : BodySide) :
    r'.body side = r.body side := by
  rw [h.eq]
  cases side <;> rfl

theorem terminalAt {r r' : CaptureRecord} (h : SameContent r r') (side : BodySide) :
    r'.terminalAt side = r.terminalAt side := by
  rw [h.eq]
  cases side <;> rfl

theorem retainedBytes {r r' : CaptureRecord} (h : SameContent r r') :
    r'.retainedBytes = r.retainedBytes := by
  rw [h.eq]

theorem revision {r r' : CaptureRecord} (h : SameContent r r') :
    r'.revision = r.revision := by
  rw [h.eq]

theorem snapshot {r r' : CaptureRecord} (h : SameContent r r') (mode : CaptureSnapshotMode) :
    r'.snapshot mode = r.snapshot mode := by
  rw [h.eq]
  rfl

end CaptureRecord.SameContent

/-- Two states of a cell whose lease is untouched as well. -/
structure CaptureCell.Same (c c' : CaptureCell) : Prop where
  lease : c'.lease = c.lease
  leaseLive : c'.leaseLive = c.leaseLive
  requestCharged : c'.requestCharged = c.requestCharged
  responseCharged : c'.responseCharged = c.responseCharged
  content : c.record.SameContent c'.record

theorem CaptureCell.Same.refl (c : CaptureCell) : c.Same c :=
  ⟨rfl, rfl, rfl, rfl, .refl _⟩

theorem CaptureCell.Same.trans {c c' c'' : CaptureCell} (h : c.Same c') (h' : c'.Same c'') :
    c.Same c'' :=
  ⟨h'.lease.trans h.lease, h'.leaseLive.trans h.leaseLive,
    h'.requestCharged.trans h.requestCharged, h'.responseCharged.trans h.responseCharged,
    h.content.trans h'.content⟩

/-- The same lease and as many references. -/
structure CaptureCell.SameRefs (c c' : CaptureCell) : Prop extends CaptureCell.Same c c' where
  records : c'.records = c.records
  snapshots : c'.snapshots = c.snapshots

theorem CaptureCell.SameRefs.refl (c : CaptureCell) : c.SameRefs c := ⟨.refl c, rfl, rfl⟩

theorem CaptureCell.SameRefs.trans {c c' c'' : CaptureCell} (h : c.SameRefs c')
    (h' : c'.SameRefs c'') : c.SameRefs c'' :=
  ⟨h.toSame.trans h'.toSame, h'.records.trans h.records, h'.snapshots.trans h.snapshots⟩

/-- The record operations that only concern the membership in the store. -/
structure RecordScope.MembershipOnly (f : RecordScope → RecordScope) : Prop where
  lease : ∀ scope : RecordScope, (f scope).lease = scope.lease
  budget : ∀ scope : RecordScope, (f scope).budget = scope.budget
  content : ∀ scope : RecordScope, scope.record.SameContent (f scope).record

theorem RecordScope.membershipOnly_bind : MembershipOnly bindChangeFeed where
  lease scope := by unfold bindChangeFeed; split <;> rfl
  budget scope := by unfold bindChangeFeed; split <;> rfl
  content scope := by unfold bindChangeFeed; split <;> exact ⟨rfl, id⟩

theorem RecordScope.membershipOnly_remove (kind : CaptureChangeKind) :
    MembershipOnly fun scope => scope.removeFromStore kind where
  lease scope := by unfold removeFromStore; dsimp only; split <;> rfl
  budget scope := by unfold removeFromStore; dsimp only; split <;> rfl
  content scope := by
    unfold removeFromStore
    dsimp only
    split <;> exact ⟨rfl, fun _ => rfl⟩

namespace CaptureSystem

@[simp] theorem modifyCell_cells (s : CaptureSystem) (i : CaptureSequence)
    (f : CaptureCell → CaptureCell) : (s.modifyCell i f).cells = s.cells.modify i f := rfl

theorem onRecord_of_some {s : CaptureSystem} {i : CaptureSequence} {cell : CaptureCell}
    (h : s.cells[i]? = some cell) (f : RecordScope → RecordScope) :
    s.onRecord i f = s.putScope i cell (f (s.scope cell)) := by
  unfold onRecord
  rw [h]

theorem references_pos {s : CaptureSystem} {i : CaptureSequence} {cell : CaptureCell} :
    0 < s.references i cell ↔
      0 < cell.records ∨ i ∈ s.queue ∨ i ∈ s.store.captures ∨ 0 < cell.snapshots := by
  rw [← List.count_pos_iff (l := s.queue), ← List.count_pos_iff (l := s.store.captures)]
  unfold references strong
  omega

theorem alive_iff {s : CaptureSystem} {i : CaptureSequence} :
    s.alive i = true ↔ ∃ cell, s.cells[i]? = some cell ∧ 0 < s.strong i cell := by
  unfold alive
  cases s.cells[i]? with
  | none => simp
  | some cell => simp

theorem strong_le_references (s : CaptureSystem) (i : CaptureSequence) (cell : CaptureCell) :
    s.strong i cell ≤ s.references i cell := Nat.le_add_right _ _

/-! ## Quiet actions -/

/-- No lease and no visible content moves. -/
structure Quiet (s u : CaptureSystem) : Prop where
  cells : Pointwise CaptureCell.Same s.cells u.cells
  budget : u.budget = s.budget
  policy : u.policy = s.policy
  retention : u.retention = s.retention

/-- What the store does: no reference moves but those the store drops. -/
structure StoreMove (s u : CaptureSystem) : Prop where
  cells : Pointwise CaptureCell.SameRefs s.cells u.cells
  budget : u.budget = s.budget
  policy : u.policy = s.policy
  retention : u.retention = s.retention
  queue : u.queue = s.queue
  captures : ∀ i ∈ u.store.captures, i ∈ s.store.captures

theorem Quiet.refl (s : CaptureSystem) : Quiet s s := ⟨.refl .refl _, rfl, rfl, rfl⟩

theorem Quiet.trans {s u v : CaptureSystem} (h : Quiet s u) (h' : Quiet u v) : Quiet s v :=
  ⟨h.cells.trans (fun _ _ _ => .trans) h'.cells, h'.budget.trans h.budget,
    h'.policy.trans h.policy, h'.retention.trans h.retention⟩

theorem StoreMove.refl (s : CaptureSystem) : StoreMove s s :=
  ⟨.refl .refl _, rfl, rfl, rfl, rfl, fun _ h => h⟩

theorem StoreMove.trans {s u v : CaptureSystem} (h : StoreMove s u) (h' : StoreMove u v) :
    StoreMove s v :=
  ⟨h.cells.trans (fun _ _ _ => .trans) h'.cells, h'.budget.trans h.budget,
    h'.policy.trans h.policy, h'.retention.trans h.retention, h'.queue.trans h.queue,
    fun i hi => h.captures i (h'.captures i hi)⟩

theorem StoreMove.quiet {s u : CaptureSystem} (h : StoreMove s u) : Quiet s u :=
  ⟨h.cells.imp fun _ _ hsame => hsame.toSame, h.budget, h.policy, h.retention⟩

theorem quiet_modifyCell (s : CaptureSystem) (i : CaptureSequence)
    {f : CaptureCell → CaptureCell} (hf : ∀ cell : CaptureCell, cell.Same (f cell)) :
    Quiet s (s.modifyCell i f) :=
  ⟨pointwise_modify .refl fun cell _ => hf cell, rfl, rfl, rfl⟩

theorem storeMove_onRecord (s : CaptureSystem) (i : CaptureSequence)
    {f : RecordScope → RecordScope} (hf : RecordScope.MembershipOnly f) :
    StoreMove s (s.onRecord i f) := by
  cases hcell : s.cells[i]? with
  | none =>
    unfold onRecord
    rw [hcell]
    exact .refl s
  | some cell =>
    rw [onRecord_of_some hcell]
    refine ⟨pointwise_set .refl hcell ?_, hf.budget _, rfl, rfl, rfl, fun _ h => h⟩
    exact ⟨⟨hf.lease _, rfl, rfl, rfl, hf.content (s.scope cell)⟩, rfl, rfl⟩

/-- Changes of the counters of the store, and of its map as long as it shrinks. -/
theorem storeMove_store (s : CaptureSystem) {store : CaptureStore}
    (h : ∀ i ∈ store.captures, i ∈ s.store.captures) : StoreMove s { s with store } :=
  ⟨.refl .refl _, rfl, rfl, rfl, rfl, h⟩

@[simp] theorem onRecord_store (s : CaptureSystem) (i : CaptureSequence)
    (f : RecordScope → RecordScope) : (s.onRecord i f).store = s.store := by
  unfold onRecord
  split <;> rfl

theorem storeMove_forget (s : CaptureSystem) (i : CaptureSequence) (kind : CaptureChangeKind) :
    StoreMove s (s.forget i kind) :=
  (storeMove_onRecord s i (RecordScope.membershipOnly_remove kind)).trans
    (storeMove_store _ fun _ h => h)

theorem storeMove_evictOldest (s : CaptureSystem) : StoreMove s s.evictOldest.2 := by
  unfold evictOldest
  split
  · exact .refl s
  · rename_i i rest hcaptures
    refine ((@storeMove_store s { s.store with captures := rest } ?_).trans
      (storeMove_forget _ i .retentionEviction)).trans (storeMove_store _ fun _ h => h)
    intro j hj
    rw [hcaptures]
    exact List.mem_cons_of_mem i hj

theorem storeMove_enforceLoop (fuel : Nat) (s : CaptureSystem) (evicted : Bool) :
    StoreMove s (enforceLoop fuel s evicted).2 := by
  induction fuel generalizing s evicted with
  | zero => exact .refl s
  | succ fuel ih =>
    unfold enforceLoop
    split
    · have hevict := storeMove_evictOldest s
      rcases hs : s.evictOldest with ⟨_ | i, u⟩
      · exact .refl s
      · rw [hs] at hevict
        exact hevict.trans (ih u true)
    · exact .refl s

theorem storeMove_removeEach (sequences : List CaptureSequence) (s : CaptureSystem)
    (removed : Nat) : StoreMove s (removeEach sequences s removed).2 := by
  induction sequences generalizing s removed with
  | nil => exact .refl s
  | cons i rest ih =>
    unfold removeEach
    split
    · refine StoreMove.trans ?_ (ih _ _)
      exact (storeMove_store s fun j hj => List.mem_of_mem_erase hj).trans
        (storeMove_forget _ i .explicitDelete)
    · exact ih s removed

theorem storeMove_afterRemoval (removed : Nat) (s : CaptureSystem) :
    StoreMove s (afterRemoval removed s) := by
  unfold afterRemoval
  split
  · exact storeMove_store s fun _ h => h
  · exact .refl s

theorem storeMove_removeSequences (s : CaptureSystem) (sequences : List CaptureSequence) :
    StoreMove s (s.removeSequences sequences).2 := by
  unfold removeSequences
  exact (storeMove_removeEach _ s 0).trans (storeMove_afterRemoval _ _)

theorem storeMove_clear (s : CaptureSystem) : StoreMove s s.clear.2 := by
  have hremove : ∀ (captures : List CaptureSequence) (u : CaptureSystem),
      StoreMove u (captures.foldl (fun u i => u.removeRecord i .clear) u) := by
    intro captures
    induction captures with
    | nil => exact StoreMove.refl
    | cons i rest ih =>
      exact fun u => (storeMove_onRecord u i
        (RecordScope.membershipOnly_remove .clear)).trans (ih _)
  unfold clear
  exact ((hremove s.store.captures s).trans (storeMove_store _ (by simp))).trans
    (storeMove_afterRemoval _ _)

theorem mem_insertSequence {i j : CaptureSequence} {captures : List CaptureSequence} :
    j ∈ insertSequence i captures ↔ j = i ∨ j ∈ captures := by
  induction captures with
  | nil => simp [insertSequence]
  | cons k rest ih =>
    unfold insertSequence
    split
    · simp
    split
    · rename_i hik
      simp [hik]
    · simp only [List.mem_cons, ih]
      tauto

/-- The caller's reference moves into the store; the rest is up to the store. -/
def placed (s : CaptureSystem) (i : CaptureSequence) : CaptureSystem :=
  { s.modifyCell i fun cell => { cell with records := cell.records - 1 } with
    store := { s.store with captures := insertSequence i s.store.captures } }

theorem storeMove_insert (s : CaptureSystem) (i : CaptureSequence) :
    StoreMove (s.placed i) (s.insert i).2 := by
  unfold insert enforceCachedRetention
  refine StoreMove.trans ?_ (storeMove_enforceLoop _ _ _)
  refine StoreMove.trans ?_ (storeMove_onRecord _ i RecordScope.membershipOnly_bind)
  refine StoreMove.trans ?_ (storeMove_store _ fun _ h => h)
  split
  · exact storeMove_forget _ i .explicitDelete
  · exact .refl _

theorem quiet_placed (s : CaptureSystem) (i : CaptureSequence) : Quiet s (s.placed i) :=
  ⟨pointwise_modify .refl fun _ _ => ⟨rfl, rfl, rfl, rfl, .refl _⟩, rfl, rfl, rfl⟩

/-- Permits and terminal bits are no references. -/
theorem storeMove_lifecycle (s : CaptureSystem) (i permits : Nat) {f : CaptureCell → CaptureCell}
    (hf : ∀ cell : CaptureCell, cell.SameRefs (f cell)) :
    StoreMove s { s.modifyCell i f with permits } :=
  ⟨pointwise_modify .refl fun cell _ => hf cell, rfl, rfl, rfl, rfl, fun _ h => h⟩

theorem storeMove_markTerminal (s : CaptureSystem) (i : CaptureSequence) (side : BodySide) :
    StoreMove s (s.markTerminal i side) := by
  unfold markTerminal
  split
  · exact .refl s
  dsimp only
  split <;> exact storeMove_lifecycle s i _ fun _ => ⟨⟨rfl, rfl, rfl, rfl, .refl _⟩, rfl, rfl⟩

theorem storeMove_dropHandle (s : CaptureSystem) (i : CaptureSequence) (cell : CaptureCell) :
    StoreMove s (s.dropHandle i cell) := by
  unfold dropHandle
  split <;> exact storeMove_lifecycle s i _ fun _ => ⟨⟨rfl, rfl, rfl, rfl, .refl _⟩, rfl, rfl⟩

end CaptureSystem

end Fluxcope.Capture
