import Fluxcope.Capture.Conservation
/-!
# The actions keep the capture budget balanced

References never come from nothing, so a live record still holds its lease, and
what an operation reserves is charged to that lease.
-/

namespace Fluxcope.Capture

open Fluxcope.Library Fluxcope.Library.Utf8

namespace CaptureSystem

theorem refsKept_modifyCell {s : CaptureSystem} {i : CaptureSequence}
    {f : CaptureCell → CaptureCell}
    (h : ∀ cell, s.cells[i]? = some cell →
      0 < s.references i cell ∨ (f cell).records ≤ cell.records ∧
        (f cell).snapshots ≤ cell.snapshots) :
    RefsKept s (s.modifyCell i f) := by
  intro j c c' hc hc' hpos
  rw [references_pos] at hpos ⊢
  rw [modifyCell_cells, List.getElem?_modify, hc] at hc'
  by_cases hij : i = j
  · subst hij
    obtain rfl : f c = c' := by simpa using hc'
    rcases h c hc with hrefs | ⟨hrecords, hsnapshots⟩
    · exact references_pos.1 hrefs
    · rcases hpos with hpos | hpos | hpos | hpos
      · exact .inl (by omega)
      · exact .inr (.inl hpos)
      · exact .inr (.inr (.inl hpos))
      · exact .inr (.inr (.inr (by omega)))
  · obtain rfl : c = c' := by simpa [hij] using hc'
    exact hpos

theorem StoreMove.refsKept {s u : CaptureSystem} (h : StoreMove s u) : RefsKept s u := by
  intro i c c' hc hc' hpos
  obtain ⟨_, hget, hsame⟩ := h.cells.get hc
  obtain rfl := Option.some.inj (hget.symm.trans hc')
  rw [references_pos, hsame.records, hsame.snapshots, h.queue] at hpos
  rw [references_pos]
  rcases hpos with hpos | hpos | hpos | hpos
  · exact .inl hpos
  · exact .inr (.inl hpos)
  · exact .inr (.inr (.inl (h.captures i hpos)))
  · exact .inr (.inr (.inr hpos))

theorem refsKept_placed {s : CaptureSystem} {i : CaptureSequence} {cell : CaptureCell}
    (hcell : s.cells[i]? = some cell) (hrecords : 0 < cell.records) :
    RefsKept s (s.placed i) := by
  intro j c c' hc hc' hpos
  rw [references_pos]
  by_cases hij : j = i
  · subst hij
    obtain rfl := Option.some.inj (hcell.symm.trans hc)
    exact .inl hrecords
  · rw [references_pos] at hpos
    obtain rfl : c = c' := by
      have hget : (s.cells.modify i fun cell => { cell with records := cell.records - 1 })[j]? =
          some c' := hc'
      rw [List.getElem?_modify, hc] at hget
      simpa [Ne.symm hij] using hget
    rcases hpos with hpos | hpos | hpos | hpos
    · exact .inl hpos
    · exact .inr (.inl hpos)
    · exact .inr (.inr (.inl ((mem_insertSequence.1 hpos).resolve_left hij)))
    · exact .inr (.inr (.inr hpos))

/-- An operation on a live record: the lease and the counter grow alike. -/
theorem Balanced.putScope {s : CaptureSystem} (h : Balanced s) {i : CaptureSequence}
    {cell cell' : CaptureCell} {scope : RecordScope} {bytes : Nat} {extra : BodySide → Nat}
    (hcell : s.cells[i]? = some cell) (hlive : cell.leaseLive = true)
    (hgrown : (s.scope cell).Grown scope bytes extra)
    (hcharged : ∀ side, cell'.charged side = cell.charged side + extra side)
    (hleaseLive : cell'.leaseLive = cell.leaseLive) : Balanced (s.putScope i cell' scope) where
  accounted j c hc := by
    rw [CaptureSystem.putScope, getElem?_set_of_some hcell] at hc
    split at hc
    · obtain rfl := Option.some.inj hc
      have hok := h.accounted i cell hcell
      refine ⟨?_, ?_, hgrown.chunked, fun side => ?_, ?_⟩
      · simp only [hgrown.lease]
        exact hok.exact
      · simp only [hgrown.retained, hgrown.lease]
        exact congrArg (· + bytes) hok.retained
      · have hside : cell'.charged side = bodyCharge (scope.record.body side) := by
          rw [hcharged, hok.charged, hgrown.body side]
          rfl
        cases side <;> exact hside
      · have hpaid := hok.paid
        have hextra := hgrown.extra_le
        have hsum : cell'.charged .request + cell'.charged .response ≤
            scope.lease.reserved := by
          rw [hcharged, hcharged, hgrown.lease]
          simp only [CaptureSystem.scope]
          omega
        exact hsum
    · exact h.accounted j c hc
  used := by
    have hsum := sum_map_set CaptureCell.liveBytes hcell
      { cell' with record := scope.record, lease := scope.lease }
    have hold : cell.liveBytes = cell.lease.reserved := if_pos hlive
    have hnew : ({ cell' with record := scope.record, lease := scope.lease } :
        CaptureCell).liveBytes = cell.lease.reserved + bytes := by
      unfold CaptureCell.liveBytes
      rw [if_pos (hleaseLive.trans hlive), hgrown.lease]
      rfl
    rw [hold, hnew, ← h.used] at hsum
    simp only [CaptureSystem.putScope, hgrown.budget, CaptureSystem.scope]
    omega
  bounded := by
    have hbounded := h.bounded
    have havailable := hgrown.available
    unfold RecordScope.available at havailable
    unfold CaptureMemoryBudget.Bounded at hbounded ⊢
    simp only [CaptureSystem.putScope, hgrown.budget, CaptureSystem.scope] at havailable ⊢
    omega
  exact := by
    simp only [CaptureSystem.putScope, hgrown.budget]
    exact h.exact
  limit := by
    simp only [CaptureSystem.putScope, hgrown.budget]
    exact h.limit
  live j c hc hpos := by
    rw [CaptureSystem.putScope, getElem?_set_of_some hcell] at hc
    split at hc
    · obtain rfl := Option.some.inj hc
      exact hleaseLive.trans hlive
    · refine h.live j c hc ?_
      rw [references_pos] at hpos ⊢
      exact hpos

/-- A new capture joins with a lease on what has just been reserved for it. -/
theorem Balanced.addCell {s : CaptureSystem} (h : Balanced s) {cell : CaptureCell}
    (hok : cell.Accounted) (hlive : cell.leaseLive = true)
    (hfits : s.budget.used + cell.lease.reserved ≤ s.budget.limit) {permits : Nat}
    {queue : List CaptureSequence} (hqueue : ∀ i ∈ queue, i ∈ s.queue ∨ i = s.cells.length) :
    Balanced
      { s with
        permits, queue
        cells := s.cells ++ [cell]
        budget := { s.budget with used := s.budget.used + cell.lease.reserved } } where
  accounted i c hc := by
    rcases getElem?_snoc hc with hc | ⟨-, rfl⟩
    · exact h.accounted i c hc
    · exact hok
  used := by simp [h.used, CaptureCell.liveBytes, hlive]
  bounded := hfits
  exact := h.exact
  limit := h.limit
  live i c hc hpos := by
    rcases getElem?_snoc hc with hc | ⟨-, rfl⟩
    · refine h.live i c hc ?_
      obtain ⟨hi, -⟩ := List.getElem?_eq_some_iff.1 hc
      rw [references_pos] at hpos ⊢
      rcases hpos with hpos | hpos | hpos | hpos
      · exact .inl hpos
      · exact .inr (.inl ((hqueue i hpos).resolve_right (Nat.ne_of_lt hi)))
      · exact .inr (.inr (.inl hpos))
      · exact .inr (.inr (.inr hpos))
    · exact hlive

theorem accounted_start (sequence : CaptureSequence) (request : RequestMetadata)
    (truncation : MetadataTruncation) (bytes startedAt startedMono handles : Nat)
    (lifecycle : ExchangeLifecycle) :
    CaptureCell.Accounted
      { record := .new sequence request truncation bytes startedAt startedMono
        lease := { reserved := bytes, underflowed := false }
        handles, lifecycle } where
  exact := rfl
  retained := rfl
  chunked side := by cases side <;> exact BodyCapture.chunked_new
  charged side := by cases side <;> rfl
  paid := Nat.zero_le _

theorem Balanced.tryStart {s : CaptureSystem} (h : Balanced s) (input : RequestCaptureInput)
    (startedAt startedMono : Nat) : Balanced (s.tryStart input startedAt startedMono) := by
  unfold CaptureSystem.tryStart
  split
  · exact h
  rcases measureRequestMetadata input s.policy with ⟨metadataBytes, truncation⟩
  dsimp only
  unfold CaptureBudgetLease.tryNew
  rcases s.budget.reserveExact_cases metadataBytes with hfull | ⟨hfits, hreserved⟩
  · rw [hfull]
    exact h
  · rw [hreserved]
    dsimp only
    have hbounded := h.bounded
    unfold CaptureMemoryBudget.Bounded at hbounded
    have hroom : s.budget.used + metadataBytes ≤ s.budget.limit := by omega
    split
    · exact h.addCell (accounted_start ..) rfl hroom fun i hi => by simpa using hi
    · exact h.addCell (accounted_start ..) rfl hroom fun i hi => .inl hi

/-- A live record's cell holds its lease. -/
theorem Balanced.leaseLive_of_alive {s : CaptureSystem} (h : Balanced s)
    {i : CaptureSequence} {cell : CaptureCell} (hcell : s.cells[i]? = some cell)
    (halive : s.alive i = true) : cell.leaseLive = true := by
  obtain ⟨_, hget, hstrong⟩ := alive_iff.1 halive
  obtain rfl := Option.some.inj (hget.symm.trans hcell)
  exact h.live i _ hcell (hstrong.trans_le (strong_le_references s i _))

theorem Balanced.modifyCell {s : CaptureSystem} (h : Balanced s) {i : CaptureSequence}
    {f : CaptureCell → CaptureCell} (hsame : ∀ cell : CaptureCell, cell.Same (f cell))
    (hrefs : ∀ cell, s.cells[i]? = some cell →
      0 < s.references i cell ∨ (f cell).records ≤ cell.records ∧
        (f cell).snapshots ≤ cell.snapshots) : Balanced (s.modifyCell i f) :=
  h.quiet (quiet_modifyCell s i hsame) (refsKept_modifyCell hrefs)

theorem Balanced.storeMove {s u : CaptureSystem} (h : Balanced s) (hmove : StoreMove s u) :
    Balanced u :=
  h.quiet hmove.quiet hmove.refsKept

theorem Balanced.setResponse {s : CaptureSystem} (h : Balanced s) (i : CaptureSequence)
    (input : ResponseCaptureInput) (instant : Nat) :
    Balanced (s.setResponse i input instant) := by
  unfold CaptureSystem.setResponse
  split
  · rename_i halive
    obtain ⟨cell, hcell, -⟩ := alive_iff.1 halive
    have hlive := h.leaseLive_of_alive hcell halive
    obtain ⟨bytes, hgrown⟩ :=
      RecordScope.grown_setResponse (h.sound hcell hlive) s.policy input instant
    rw [onRecord_of_some hcell]
    exact h.putScope hcell hlive hgrown (fun _ => rfl) rfl
  · exact h

theorem charged_addCharge (cell : CaptureCell) (side other : BodySide) (bytes : Nat) :
    (cell.addCharge side bytes).charged other =
      cell.charged other + if other = side then bytes else 0 := by
  cases side <;> cases other <;> rfl

theorem Balanced.append {s : CaptureSystem} (h : Balanced s) (i : CaptureSequence)
    (side : BodySide) (bytes : Bytes) : Balanced (s.append i side bytes) := by
  unfold CaptureSystem.append
  split
  · rename_i halive
    obtain ⟨cell, hcell, -⟩ := alive_iff.1 halive
    have hlive := h.leaseLive_of_alive hcell halive
    obtain ⟨charged, hgrown⟩ := RecordScope.grown_append (h.sound hcell hlive) side bytes
      (s.policy.previewBytes side)
    have hadded : (CaptureHandle.append (s.scope cell) s.policy side bytes).lease.reserved -
        cell.lease.reserved = charged := by
      have hlease := congrArg CaptureBudgetLease.reserved hgrown.lease
      change (CaptureHandle.append (s.scope cell) s.policy side bytes).lease.reserved =
        cell.lease.reserved + charged at hlease
      omega
    rw [hcell]
    dsimp only
    rw [hadded]
    exact h.putScope hcell hlive hgrown (charged_addCharge cell side · charged) rfl
  · exact h

theorem Balanced.finish {s : CaptureSystem} (h : Balanced s) (i : CaptureSequence)
    (side : BodySide) (terminal : BodyTerminal) (instant : Nat) :
    Balanced (s.finish i side terminal instant) := by
  unfold CaptureSystem.finish
  refine Balanced.storeMove ?_ (storeMove_markTerminal _ i side)
  split
  · rename_i halive
    obtain ⟨cell, hcell, -⟩ := alive_iff.1 halive
    have hlive := h.leaseLive_of_alive hcell halive
    rw [onRecord_of_some hcell]
    exact h.putScope hcell hlive
      (RecordScope.grown_finish (h.sound hcell hlive) side terminal instant) (fun _ => rfl) rfl
  · exact h

theorem Balanced.receive {s : CaptureSystem} (h : Balanced s) {i : CaptureSequence}
    {rest : List CaptureSequence} (hqueue : s.queue = i :: rest) :
    Balanced ({ s with queue := rest }.modifyCell i
      fun cell => { cell with records := cell.records + 1 }) := by
  refine h.quiet ⟨pointwise_modify .refl fun _ _ => ⟨rfl, rfl, rfl, rfl, .refl _⟩, rfl, rfl,
    rfl⟩ fun j c c' hc hc' hpos => ?_
  rw [references_pos, hqueue]
  by_cases hij : i = j
  · exact .inr (.inl (by simp [hij]))
  · obtain rfl : c = c' := by
      have hget : (s.cells.modify i fun cell => { cell with records := cell.records + 1 })[j]? =
          some c' := hc'
      rw [List.getElem?_modify, hc] at hget
      simpa [hij] using hget
    rw [references_pos] at hpos
    rcases hpos with hpos | hpos | hpos | hpos
    · exact .inl hpos
    · exact .inr (.inl (List.mem_cons_of_mem i hpos))
    · exact .inr (.inr (.inl hpos))
    · exact .inr (.inr (.inr hpos))

theorem Balanced.dropReceiver {s : CaptureSystem} (h : Balanced s) :
    Balanced { s with receiver := false, queue := [] } := by
  refine h.quiet ⟨.refl .refl _, rfl, rfl, rfl⟩ fun i c c' hc hc' hpos => ?_
  obtain rfl := Option.some.inj (hc.symm.trans hc')
  rw [references_pos] at hpos ⊢
  rcases hpos with hpos | hpos | hpos | hpos
  · exact .inl hpos
  · simp at hpos
  · exact .inr (.inr (.inl hpos))
  · exact .inr (.inr (.inr hpos))

theorem Balanced.act {s u : CaptureSystem} {action : CaptureAction} (h : Balanced s)
    (hact : s.act action = some u) : Balanced u := by
  cases action with
  | tryStart input startedAt startedMono =>
    obtain rfl := Option.some.inj hact
    exact h.tryStart input startedAt startedMono
  | receive =>
    simp only [CaptureSystem.act] at hact
    split at hact
    · cases hact
    · rename_i i rest hqueue
      obtain rfl := Option.some.inj hact
      exact h.receive hqueue
  | dropReceiver =>
    obtain rfl := Option.some.inj hact
    exact h.dropReceiver
  | cloneRecord i | takeSnapshot i =>
    simp only [CaptureSystem.act] at hact
    split at hact
    · rename_i halive
      obtain rfl := Option.some.inj hact
      refine h.modifyCell (fun _ => ⟨rfl, rfl, rfl, rfl, .refl _⟩) fun cell hcell => .inl ?_
      obtain ⟨_, hget, hstrong⟩ := alive_iff.1 halive
      obtain rfl := Option.some.inj (hget.symm.trans hcell)
      exact hstrong.trans_le (strong_le_references s i _)
    · cases hact
  | dropRecord i | dropSnapshot i =>
    obtain ⟨cell, -, hact⟩ := Option.bind_eq_some_iff.1 hact
    split at hact
    · obtain rfl := Option.some.inj hact
      exact h.modifyCell (fun _ => ⟨rfl, rfl, rfl, rfl, .refl _⟩)
        fun cell _ => .inr ⟨by simp, by simp⟩
    · cases hact
  | cloneSnapshot i =>
    obtain ⟨cell, hcell, hact⟩ := Option.bind_eq_some_iff.1 hact
    split at hact
    · rename_i hsnapshots
      obtain rfl := Option.some.inj hact
      refine h.modifyCell (fun _ => ⟨rfl, rfl, rfl, rfl, .refl _⟩) fun c hc => .inl ?_
      obtain rfl := Option.some.inj (hcell.symm.trans hc)
      exact references_pos.2 (.inr (.inr (.inr hsnapshots)))
    · cases hact
  | cloneHandle i =>
    obtain ⟨cell, hcell, hact⟩ := Option.bind_eq_some_iff.1 hact
    split at hact
    · obtain rfl := Option.some.inj hact
      exact h.modifyCell (fun _ => ⟨rfl, rfl, rfl, rfl, .refl _⟩)
        fun _ _ => .inr ⟨le_rfl, le_rfl⟩
    · cases hact
  | dropHandle i =>
    obtain ⟨cell, hcell, hact⟩ := Option.bind_eq_some_iff.1 hact
    split at hact
    · obtain rfl := Option.some.inj hact
      exact h.storeMove (storeMove_dropHandle s i cell)
    · cases hact
  | setResponse i input instant =>
    obtain ⟨_, -, hact⟩ := Option.bind_eq_some_iff.1 hact
    split at hact
    · obtain rfl := Option.some.inj hact
      exact h.setResponse i input instant
    · cases hact
  | append i side bytes =>
    obtain ⟨_, -, hact⟩ := Option.bind_eq_some_iff.1 hact
    split at hact
    · obtain rfl := Option.some.inj hact
      exact h.append i side bytes
    · cases hact
  | finish i side terminal instant =>
    obtain ⟨_, -, hact⟩ := Option.bind_eq_some_iff.1 hact
    split at hact
    · obtain rfl := Option.some.inj hact
      exact h.finish i side terminal instant
    · cases hact
  | insert i =>
    obtain ⟨cell, hcell, hact⟩ := Option.bind_eq_some_iff.1 hact
    split at hact
    · rename_i hrecords
      obtain rfl := Option.some.inj hact
      exact (h.quiet (quiet_placed s i) (refsKept_placed hcell hrecords)).storeMove
        (storeMove_insert s i)
    · cases hact
  | removeSequences sequences =>
    obtain rfl := Option.some.inj hact
    exact h.storeMove (storeMove_removeSequences s sequences)
  | clear =>
    obtain rfl := Option.some.inj hact
    exact h.storeMove (storeMove_clear s)
  | evictOldest =>
    obtain rfl := Option.some.inj hact
    exact h.storeMove (storeMove_evictOldest s)
  | dropStore =>
    obtain rfl := Option.some.inj hact
    exact h.storeMove (storeMove_store s (by simp))

end CaptureSystem

end Fluxcope.Capture
