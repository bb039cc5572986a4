import Fluxcope.Capture.BudgetRuns
/-!
# The byte counter of the store

The store adds what a record counts when it is inserted and subtracts what it
counts when it leaves.  The counter is exact as long as no record grows while
it is stored.
-/

namespace Fluxcope.Capture

open Fluxcope.Library Fluxcope.Library.Utf8

/-! ## Sorted sequences -/

theorem pairwise_insertSequence {i : CaptureSequence} {captures : List CaptureSequence}
    (h : captures.Pairwise (· < ·)) : (insertSequence i captures).Pairwise (· < ·) := by
  induction captures with
  | nil => simp [insertSequence]
  | cons j rest ih =>
    obtain ⟨hj, hrest⟩ := List.pairwise_cons.1 h
    unfold insertSequence
    split
    · rename_i hij
      refine List.pairwise_cons.2 ⟨fun k hk => ?_, h⟩
      rcases List.mem_cons.1 hk with rfl | hk
      · exact hij
      · exact hij.trans (hj k hk)
    split
    · exact h
    · rename_i hlt heq
      refine List.pairwise_cons.2 ⟨fun k hk => ?_, ih hrest⟩
      rcases CaptureSystem.mem_insertSequence.1 hk with rfl | hk
      · exact Nat.lt_of_le_of_ne (Nat.le_of_not_lt hlt) (Ne.symm heq)
      · exact hj k hk

theorem insertSequence_of_mem {i : CaptureSequence} {captures : List CaptureSequence}
    (h : captures.Pairwise (· < ·)) (hi : i ∈ captures) : insertSequence i captures = captures := by
  induction captures with
  | nil => simp at hi
  | cons j rest ih =>
    obtain ⟨hj, hrest⟩ := List.pairwise_cons.1 h
    unfold insertSequence
    rcases List.mem_cons.1 hi with rfl | hi
    · rw [if_neg (Nat.lt_irrefl i), if_pos rfl]
    · have hlt : j < i := hj i hi
      rw [if_neg (Nat.not_lt.2 hlt.le), if_neg hlt.ne', ih hrest hi]

theorem sum_insertSequence {i : CaptureSequence} {captures : List CaptureSequence}
    (hi : i ∉ captures) (f : CaptureSequence → Nat) :
    ((insertSequence i captures).map f).sum = f i + (captures.map f).sum := by
  induction captures with
  | nil => simp [insertSequence]
  | cons j rest ih =>
    obtain ⟨hij, hrest⟩ := not_or.1 (mt List.mem_cons.2 hi)
    unfold insertSequence
    rw [if_neg hij]
    split
    · simp
    · rw [List.map_cons, List.sum_cons, ih hrest, List.map_cons, List.sum_cons]
      omega

namespace CaptureSystem

/-! ## The invariant -/

/-- What the stored records count now. -/
def storeTotal (s : CaptureSystem) : Nat := (s.store.captures.map s.recordBytes).sum

/-- The store holds captures that exist, each once, in ascending order. -/
structure StoreSorted (s : CaptureSystem) : Prop where
  sorted : s.store.captures.Pairwise (· < ·)
  bound : ∀ i ∈ s.store.captures, i < s.cells.length

/-- The counter of the store is exact. -/
def CounterExact (s : CaptureSystem) : Prop := s.store.retainedBytes = s.storeTotal

theorem recordBytes_of_sameRecord {s u : CaptureSystem}
    (h : Pointwise SameRecord s.cells u.cells) (i : CaptureSequence) :
    u.recordBytes i = s.recordBytes i := by
  unfold recordBytes
  have hi := h i
  revert hi
  cases s.cells[i]? <;> cases u.cells[i]? <;> intro hi <;> cases hi
  · rfl
  · rename_i hsame
    exact hsame.retainedBytes

/-- What the stored captures count is reserved, and so is what one more counts. -/
theorem sum_recordBytes_le {s : CaptureSystem} (h : Conserved s)
    {captures : List CaptureSequence} (hnodup : captures.Nodup)
    (hlive : ∀ i ∈ captures, ∃ cell, s.cells[i]? = some cell ∧ 0 < s.references i cell) :
    (captures.map s.recordBytes).sum ≤ wordMax := by
  have hbytes : captures.map s.recordBytes =
      captures.map fun i => (s.cells[i]?.map CaptureCell.liveBytes).getD 0 := by
    refine List.map_congr_left fun i hi => ?_
    obtain ⟨cell, hcell, hreferences⟩ := hlive i hi
    unfold recordBytes CaptureCell.liveBytes
    rw [hcell]
    simp only [Option.map_some, Option.getD_some, h.live i cell hcell hreferences, if_true]
    exact (h.accounted i cell hcell).retained
  have hle := sum_addresses_le (h := s.cells) CaptureCell.liveBytes hnodup fun i hi => by
    obtain ⟨cell, hcell, -⟩ := hlive i hi
    exact (List.getElem?_eq_some_iff.1 hcell).1
  have hbounded := h.bounded
  have hlimit := s.budget.limit_le
  unfold CaptureMemoryBudget.Bounded at hbounded
  rw [hbytes]
  exact hle.trans ((h.used.symm.le.trans hbounded).trans hlimit)

/-! ## Taking records out -/

@[simp] theorem forget_captures (s : CaptureSystem) (i : CaptureSequence)
    (kind : CaptureChangeKind) : (s.forget i kind).store.captures = s.store.captures := by
  simp [forget, removeRecord]

theorem forget_retainedBytes (s : CaptureSystem) (i : CaptureSequence)
    (kind : CaptureChangeKind) :
    (s.forget i kind).store.retainedBytes = s.store.retainedBytes - s.recordBytes i := by
  have hsame := recordBytes_of_sameRecord
    (storeMove_onRecord s i (RecordScope.membershipOnly_remove kind)).sameRecord i
  simp only [forget, removeRecord, onRecord_store]
  rw [hsame]

theorem storeTotal_of_move {s u : CaptureSystem} (h : StoreMove s u) :
    u.storeTotal = (u.store.captures.map s.recordBytes).sum := by
  unfold storeTotal
  rw [List.map_congr_left fun i _ => recordBytes_of_sameRecord h.sameRecord i]

theorem StoreMove.sorted {s u : CaptureSystem} (h : StoreMove s u) (hs : StoreSorted s)
    (hsub : u.store.captures.Sublist s.store.captures) : StoreSorted u where
  sorted := hs.sorted.sublist hsub
  bound i hi := by
    have hlt := hs.bound i (hsub.subset hi)
    have hi := h.cells i
    by_contra hge
    rw [List.getElem?_eq_getElem hlt, List.getElem?_eq_none (Nat.le_of_not_lt hge)] at hi
    cases hi

/-- The captures that remain and the counter, after capture `i` was taken out. -/
theorem exact_of_removed {s u : CaptureSystem} {i : CaptureSequence}
    (hmove : StoreMove s u) (h : CounterExact s)
    (hsum : s.recordBytes i + (u.store.captures.map s.recordBytes).sum = s.storeTotal)
    (hcounter : u.store.retainedBytes = s.store.retainedBytes - s.recordBytes i) :
    CounterExact u := by
  unfold CounterExact at h ⊢
  rw [storeTotal_of_move hmove, hcounter, h]
  omega

theorem evictOldest_captures (s : CaptureSystem) :
    s.evictOldest.2.store.captures = s.store.captures.tail := by
  unfold evictOldest
  split
  · rename_i hempty
    rw [hempty]
    rfl
  · rename_i i rest hcaptures
    simp [hcaptures]

theorem evictOldest_exact {s : CaptureSystem} (h : CounterExact s) :
    CounterExact s.evictOldest.2 := by
  cases hcaptures : s.store.captures with
  | nil =>
    unfold evictOldest
    rw [hcaptures]
    exact h
  | cons i rest =>
    refine exact_of_removed (i := i) (storeMove_evictOldest s) h ?_ ?_
    · rw [evictOldest_captures, storeTotal, hcaptures]
      rfl
    · unfold evictOldest
      rw [hcaptures]
      exact forget_retainedBytes _ i .retentionEviction

theorem evictOldest_fst_eq_none {s : CaptureSystem} (h : s.evictOldest.1 = none) :
    s.store.captures = [] := by
  unfold evictOldest at h
  split at h
  · assumption
  · cases h

/-- The loop evicts from the front until the limits hold or nothing is left. -/
theorem enforceLoop_spec {fuel : Nat} {s : CaptureSystem} (h : CounterExact s)
    (hfuel : s.store.captures.length < fuel) (evicted : Bool) :
    CounterExact (enforceLoop fuel s evicted).2 ∧
      (enforceLoop fuel s evicted).2.store.captures.Sublist s.store.captures ∧
      ((enforceLoop fuel s evicted).2.store.captures = [] ∨
        (enforceLoop fuel s evicted).2.store.captures.length ≤ s.retention.maxRecords ∧
          (enforceLoop fuel s evicted).2.store.retainedBytes ≤ s.retention.maxBytes) := by
  induction fuel generalizing s evicted with
  | zero => omega
  | succ fuel ih =>
    unfold enforceLoop
    split
    · have hexact := evictOldest_exact h
      have hcaptures := evictOldest_captures s
      have hretention := (storeMove_evictOldest s).retention
      rcases hevict : s.evictOldest with ⟨_ | i, u⟩
      · have hempty := evictOldest_fst_eq_none (congrArg Prod.fst hevict)
        exact ⟨h, List.Sublist.refl _, .inl hempty⟩
      · rw [hevict] at hexact hcaptures hretention
        have hshorter : u.store.captures.length < fuel := by
          cases hold : s.store.captures with
          | nil => simp [evictOldest, hold] at hevict
          | cons j rest =>
            rw [hold, List.length_cons] at hfuel
            rw [hcaptures, hold, List.tail_cons]
            omega
        obtain ⟨hloop, hsub, hlimits⟩ := ih hexact hshorter true
        rw [hretention] at hlimits
        refine ⟨hloop, hsub.trans ?_, hlimits⟩
        rw [hcaptures]
        exact List.tail_sublist _
    · rename_i hwithin
      simp only [Bool.or_eq_true, decide_eq_true_eq, not_or, not_lt] at hwithin
      exact ⟨h, List.Sublist.refl _, .inr hwithin⟩

theorem removeEach_spec (sequences : List CaptureSequence) {s : CaptureSystem}
    (h : CounterExact s) (removed : Nat) :
    CounterExact (removeEach sequences s removed).2 ∧
      (removeEach sequences s removed).2.store.captures.Sublist s.store.captures := by
  induction sequences generalizing s removed with
  | nil => exact ⟨h, List.Sublist.refl _⟩
  | cons i rest ih =>
    unfold removeEach
    split
    · rename_i hi
      have hmove := (@storeMove_store s { s.store with
        captures := s.store.captures.erase i } fun j hj => List.mem_of_mem_erase hj).trans
        (storeMove_forget _ i .explicitDelete)
      have hexact := exact_of_removed (i := i) hmove h
        (by rw [forget_captures]; exact List.sum_map_erase s.recordBytes hi)
        (forget_retainedBytes _ i .explicitDelete)
      obtain ⟨hrest, hsub⟩ := ih hexact (removed + 1)
      refine ⟨hrest, hsub.trans ?_⟩
      rw [forget_captures]
      exact List.erase_sublist
    · exact ih h removed

theorem afterRemoval_exact {s : CaptureSystem} (h : CounterExact s) (removed : Nat) :
    CounterExact (afterRemoval removed s) ∧
      (afterRemoval removed s).store.captures = s.store.captures := by
  unfold afterRemoval
  split
  · exact ⟨h, rfl⟩
  · exact ⟨h, rfl⟩

theorem removeSequences_exact {s : CaptureSystem} (h : CounterExact s)
    (sequences : List CaptureSequence) :
    CounterExact (s.removeSequences sequences).2 ∧
      (s.removeSequences sequences).2.store.captures.Sublist s.store.captures := by
  unfold removeSequences
  obtain ⟨hexact, hsub⟩ :=
    removeEach_spec (sequences.foldl (fun unique i => insertSequence i unique) []) h 0
  obtain ⟨hfinal, hsame⟩ := afterRemoval_exact hexact
    (removeEach (sequences.foldl (fun unique i => insertSequence i unique) []) s 0).1
  exact ⟨hfinal, hsame ▸ hsub⟩

theorem clear_exact (s : CaptureSystem) :
    CounterExact s.clear.2 ∧ s.clear.2.store.captures = [] := by
  unfold clear
  obtain ⟨hexact, hsame⟩ := afterRemoval_exact (s := { s.store.captures.foldl
    (fun s i => s.removeRecord i .clear) s with
      store := { (s.store.captures.foldl (fun s i => s.removeRecord i .clear) s).store with
        captures := [], retainedBytes := 0 } }) (by rfl) s.store.captures.length
  exact ⟨hexact, hsame⟩

/-! ## Insertion -/

/-- The state in which an insertion starts to enforce the limits. -/
def admitted (s : CaptureSystem) (i : CaptureSequence) : CaptureSystem :=
  let placed := if i ∈ s.store.captures then (s.placed i).forget i .explicitDelete else s.placed i
  { placed with
    store :=
      { placed.store with
        retainedBytes := satAdd placed.store.retainedBytes (s.recordBytes i)
        revision := nextStoreRevision placed.store.revision } }.onRecord i
    RecordScope.bindChangeFeed

theorem insert_eq (s : CaptureSystem) (i : CaptureSequence) :
    s.insert i = (s.admitted i).enforceCachedRetention := rfl

theorem storeMove_admitted (s : CaptureSystem) (i : CaptureSequence) :
    StoreMove (s.placed i) (s.admitted i) := by
  unfold admitted
  refine StoreMove.trans ?_ (storeMove_onRecord _ i RecordScope.membershipOnly_bind)
  refine StoreMove.trans ?_ (storeMove_store _ fun _ h => h)
  split
  · exact storeMove_forget _ i .explicitDelete
  · exact .refl _

theorem sameRecord_admitted (s : CaptureSystem) (i : CaptureSequence) :
    Pointwise SameRecord s.cells (s.admitted i).cells :=
  sameRecord_trans (quiet_placed s i).sameRecord (storeMove_admitted s i).sameRecord

theorem admitted_captures (s : CaptureSystem) (i : CaptureSequence) :
    (s.admitted i).store.captures = insertSequence i s.store.captures := by
  unfold admitted
  simp only [onRecord_store]
  split
  · rw [forget_captures]
    rfl
  · rfl

theorem admitted_retainedBytes (s : CaptureSystem) (i : CaptureSequence) :
    (s.admitted i).store.retainedBytes =
      satAdd (if i ∈ s.store.captures then s.store.retainedBytes - s.recordBytes i
        else s.store.retainedBytes) (s.recordBytes i) := by
  unfold admitted
  simp only [onRecord_store]
  split
  · rw [forget_retainedBytes, recordBytes_of_sameRecord (quiet_placed s i).sameRecord]
    rfl
  · rfl

theorem stored_live {s : CaptureSystem} (hs : StoreSorted s) {i : CaptureSequence}
    (hi : i ∈ s.store.captures) :
    ∃ cell, s.cells[i]? = some cell ∧ 0 < s.references i cell :=
  ⟨_, List.getElem?_eq_getElem (hs.bound i hi), references_pos.2 (.inr (.inr (.inl hi)))⟩

/-- The new total does not overflow, since all of it is reserved. -/
theorem admitted_exact {s : CaptureSystem} (hconserved : Conserved s) (hs : StoreSorted s)
    (h : CounterExact s) {i : CaptureSequence} {cell : CaptureCell}
    (hcell : s.cells[i]? = some cell) (hrecords : 0 < cell.records) :
    CounterExact (s.admitted i) := by
  have htotal : (s.admitted i).storeTotal =
      ((insertSequence i s.store.captures).map s.recordBytes).sum := by
    unfold storeTotal
    rw [admitted_captures, List.map_congr_left fun j _ =>
      recordBytes_of_sameRecord (sameRecord_admitted s i) j]
  unfold CounterExact at h ⊢
  rw [htotal, admitted_retainedBytes, h]
  have hnodup : s.store.captures.Nodup := hs.sorted.imp fun hlt => Nat.ne_of_lt hlt
  have hcard := sum_recordBytes_le hconserved hnodup fun j hj => stored_live hs hj
  by_cases hi : i ∈ s.store.captures
  · rw [if_pos hi, insertSequence_of_mem hs.sorted hi]
    have hle : s.recordBytes i ≤ s.storeTotal :=
      List.single_le_sum (fun _ _ => Nat.zero_le _) _ (List.mem_map_of_mem hi)
    unfold storeTotal at hle ⊢
    rw [satAdd_eq (by omega)]
    omega
  · rw [if_neg hi, sum_insertSequence hi]
    have hmore := @sum_recordBytes_le _ hconserved (i :: s.store.captures)
      (List.nodup_cons.2 ⟨hi, hnodup⟩) fun j hj => by
        rcases List.mem_cons.1 hj with rfl | hj
        · exact ⟨cell, hcell, references_pos.2 (.inl hrecords)⟩
        · exact stored_live hs hj
    rw [List.map_cons, List.sum_cons] at hmore
    unfold storeTotal
    rw [satAdd_eq (by omega), Nat.add_comm]

theorem admitted_sorted {s : CaptureSystem} (hs : StoreSorted s) {i : CaptureSequence}
    {cell : CaptureCell} (hcell : s.cells[i]? = some cell) : StoreSorted (s.admitted i) where
  sorted := by
    rw [admitted_captures]
    exact pairwise_insertSequence hs.sorted
  bound j hj := by
    rw [admitted_captures, mem_insertSequence] at hj
    have hold : ∃ c, s.cells[j]? = some c := by
      rcases hj with rfl | hj
      · exact ⟨cell, hcell⟩
      · exact ⟨_, List.getElem?_eq_getElem (hs.bound j hj)⟩
    obtain ⟨c, hc⟩ := hold
    obtain ⟨c', hc', -⟩ := (sameRecord_admitted s i).get hc
    exact (List.getElem?_eq_some_iff.1 hc').1

/-- An insertion leaves an exact counter and a store within its limits. -/
theorem insert_spec {s : CaptureSystem} (hconserved : Conserved s) (hs : StoreSorted s)
    (h : CounterExact s) {i : CaptureSequence} {cell : CaptureCell}
    (hcell : s.cells[i]? = some cell) (hrecords : 0 < cell.records) :
    StoreSorted (s.insert i).2 ∧ CounterExact (s.insert i).2 ∧
      ((s.insert i).2.store.captures = [] ∨
        (s.insert i).2.store.captures.length ≤ s.retention.maxRecords ∧
          (s.insert i).2.store.retainedBytes ≤ s.retention.maxBytes) := by
  rw [insert_eq]
  unfold enforceCachedRetention
  obtain ⟨hexact, hsub, hlimits⟩ := enforceLoop_spec
    (admitted_exact hconserved hs h hcell hrecords) (Nat.lt_succ_self _) false
  have hretention : (s.admitted i).retention = s.retention :=
    (storeMove_admitted s i).retention
  rw [hretention] at hlimits
  exact ⟨(storeMove_enforceLoop _ _ _).sorted (admitted_sorted hs hcell) hsub, hexact, hlimits⟩

end CaptureSystem

end Fluxcope.Capture
