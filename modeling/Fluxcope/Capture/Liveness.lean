import Fluxcope.Capture.Terminal
/-!
# Records that are gone, and handles

A record that nothing refers to does not come back.  Handles and admission permits
move with four actions; the store and the operations on records leave them alone.
-/

namespace Fluxcope.Capture

open Fluxcope.Library Fluxcope.Library.Utf8

namespace CaptureSystem

variable {s t u : CaptureSystem} {i : CaptureSequence}

/-! ## Records that are gone -/

theorem alive_iff_referred : s.alive i = true ↔ ∃ cell, s.cells[i]? = some cell ∧
    (0 < cell.records ∨ i ∈ s.queue ∨ i ∈ s.store.captures) := by
  rw [alive_iff]
  refine exists_congr fun cell => and_congr_right fun _ => ?_
  rw [← List.count_pos_iff (l := s.queue), ← List.count_pos_iff (l := s.store.captures)]
  unfold strong
  omega

/-- Where no reference is new, a live record was live before. -/
theorem alive_of_referred (h : u.alive i = true)
    (hcells : ∀ cell', u.cells[i]? = some cell' → ∃ cell, s.cells[i]? = some cell ∧
      (0 < cell'.records → 0 < cell.records ∨ s.alive i = true))
    (hqueue : i ∈ u.queue → i ∈ s.queue)
    (hstore : i ∈ u.store.captures → i ∈ s.store.captures ∨ s.alive i = true) :
    s.alive i = true := by
  obtain ⟨cell', hget, hreferred⟩ := alive_iff_referred.1 h
  obtain ⟨cell, hcell, hrecords⟩ := hcells cell' hget
  rcases hreferred with hpos | hmem | hmem
  · rcases hrecords hpos with hpos | halive
    · exact alive_iff_referred.2 ⟨cell, hcell, .inl hpos⟩
    · exact halive
  · exact alive_iff_referred.2 ⟨cell, hcell, .inr (.inl (hqueue hmem))⟩
  · rcases hstore hmem with hmem | halive
    · exact alive_iff_referred.2 ⟨cell, hcell, .inr (.inr hmem)⟩
    · exact halive

theorem StoreMove.alive (h : StoreMove s u) (halive : u.alive i = true) : s.alive i = true := by
  refine alive_of_referred halive (fun cell' hcell' => ?_) (fun hmem => h.queue ▸ hmem)
    fun hmem => .inl (h.captures i hmem)
  obtain ⟨cell, hcell, hsame⟩ := h.cells.get_right hcell'
  exact ⟨cell, hcell, fun hpos => .inl (hsame.records ▸ hpos)⟩

theorem alive_modifyCell {s' : CaptureSystem} {j : CaptureSequence} {f : CaptureCell → CaptureCell}
    (h : (s'.modifyCell j f).alive i = true) (hcells : s'.cells = s.cells)
    (hqueue : ∀ k ∈ s'.queue, k ∈ s.queue) (hstore : s'.store = s.store)
    (hf : ∀ cell : CaptureCell, s.cells[j]? = some cell → 0 < (f cell).records →
      0 < cell.records ∨ s.alive j = true) : s.alive i = true := by
  refine alive_of_referred h (fun cell' hcell' => ?_) (hqueue i) fun hmem => .inl (hstore ▸ hmem)
  rw [modifyCell_cells, List.getElem?_modify, hcells] at hcell'
  obtain ⟨cell, hcell, rfl⟩ := Option.map_eq_some_iff.1 hcell'
  refine ⟨cell, hcell, fun hpos => ?_⟩
  split at hpos
  · rename_i hij
    subst hij
    exact hf cell hcell hpos
  · exact .inl hpos

/-- The same where the cell gains no record. -/
theorem alive_modifyCell_same {j : CaptureSequence} {f : CaptureCell → CaptureCell}
    (h : (s.modifyCell j f).alive i = true)
    (hf : ∀ cell : CaptureCell, (f cell).records ≤ cell.records) : s.alive i = true :=
  alive_modifyCell h rfl (fun _ hmem => hmem) rfl
    fun cell _ hpos => .inl (hpos.trans_le (hf cell))

theorem alive_putScope {j : CaptureSequence} {cell : CaptureCell} {scope : RecordScope}
    (hcell : s.cells[j]? = some cell) (h : (s.putScope j cell scope).alive i = true) :
    s.alive i = true := by
  refine alive_of_referred h (fun cell' hcell' => ?_) (fun hmem => hmem) fun hmem => .inl hmem
  rw [putScope, getElem?_set_of_some hcell] at hcell'
  split at hcell'
  · rename_i hij
    subst hij
    obtain rfl := Option.some.inj hcell'
    exact ⟨cell, hcell, .inl⟩
  · exact ⟨cell', hcell', .inl⟩

theorem alive_onRecord {j : CaptureSequence} {f : RecordScope → RecordScope}
    (h : (s.onRecord j f).alive i = true) : s.alive i = true := by
  unfold onRecord at h
  split at h
  · exact h
  · rename_i cell hcell
    exact alive_putScope hcell h

theorem alive_tryStart {input : RequestCaptureInput} {startedAt startedMono : Nat}
    (hold : i < s.cells.length) (h : (s.tryStart input startedAt startedMono).alive i = true) :
    s.alive i = true := by
  unfold tryStart at h
  split at h
  · exact h
  dsimp only at h
  split at h
  · exact h
  have hcells : ∀ {cells : List CaptureCell} {cell' : CaptureCell},
      (s.cells ++ cells)[i]? = some cell' → ∃ cell, s.cells[i]? = some cell ∧
        (0 < cell'.records → 0 < cell.records ∨ s.alive i = true) := by
    intro cells cell' hcell'
    rw [List.getElem?_append_left hold] at hcell'
    exact ⟨cell', hcell', .inl⟩
  split at h
  · refine alive_of_referred h (fun _ => hcells) (fun hmem => ?_) .inl
    rcases List.mem_append.1 hmem with hmem | hmem
    · exact hmem
    · exact absurd (List.mem_singleton.1 hmem) hold.ne
  · exact alive_of_referred h (fun _ => hcells) id .inl

theorem alive_handle {j : CaptureSequence} {f : RecordScope → RecordScope}
    (h : (if s.alive j then s.onRecord j f else s).alive i = true) : s.alive i = true := by
  split at h
  · exact alive_onRecord h
  · exact h

theorem alive_append {j : CaptureSequence} {side : BodySide} {bytes : Bytes}
    (h : (s.append j side bytes).alive i = true) : s.alive i = true := by
  unfold append at h
  split at h
  · split at h
    · exact h
    · rename_i cell hcell
      refine alive_of_referred h (fun cell' hcell' => ?_) (fun hmem => hmem) fun hmem => .inl hmem
      dsimp only [putScope] at hcell'
      rw [getElem?_set_of_some hcell] at hcell'
      split at hcell'
      · rename_i hij
        subst hij
        obtain rfl := Option.some.inj hcell'
        exact ⟨cell, hcell, .inl⟩
      · exact ⟨cell', hcell', .inl⟩
  · exact h

theorem alive_placed {j : CaptureSequence} {cell : CaptureCell} (hcell : s.cells[j]? = some cell)
    (hrecords : 0 < cell.records) (h : (s.placed j).alive i = true) : s.alive i = true := by
  have halive : s.alive j = true := alive_iff_referred.2 ⟨cell, hcell, .inl hrecords⟩
  refine alive_of_referred h (fun cell' hcell' => ?_) (fun hmem => hmem) fun hmem => ?_
  · dsimp only [placed, modifyCell] at hcell'
    rw [List.getElem?_modify] at hcell'
    obtain ⟨old, hold, rfl⟩ := Option.map_eq_some_iff.1 hcell'
    refine ⟨old, hold, fun hpos => .inl ?_⟩
    split at hpos
    · exact hpos.trans_le (Nat.sub_le _ _)
    · exact hpos
  · rcases mem_insertSequence.1 hmem with rfl | hmem
    · exact .inr halive
    · exact .inl hmem

/-- No action brings a record back. -/
theorem alive_of_act {action : CaptureAction} (hold : i < s.cells.length)
    (hact : s.act action = some u) (h : u.alive i = true) : s.alive i = true := by
  cases action with
  | tryStart input startedAt startedMono =>
    cases hact
    exact alive_tryStart hold h
  | receive =>
    simp only [act] at hact
    split at hact
    · cases hact
    · rename_i j rest hqueue
      cases hact
      have halive : ∀ cell, s.cells[j]? = some cell → s.alive j = true := fun cell hcell =>
        alive_iff_referred.2 ⟨cell, hcell, .inr (.inl (hqueue ▸ List.mem_cons_self))⟩
      refine alive_modifyCell h rfl (fun k hk => ?_) rfl
        fun cell hcell _ => .inr (halive cell hcell)
      rw [hqueue]
      exact List.mem_cons_of_mem j hk
  | dropReceiver =>
    cases hact
    exact alive_of_referred h (fun cell hcell => ⟨cell, hcell, .inl⟩)
      (fun hmem => absurd hmem List.not_mem_nil) .inl
  | cloneRecord j =>
    obtain ⟨halive, hact⟩ := Option.ite_none_right_eq_some.1 hact
    cases hact
    exact alive_modifyCell h rfl (fun _ hmem => hmem) rfl fun _ _ _ => .inr halive
  | takeSnapshot j =>
    obtain ⟨-, hact⟩ := Option.ite_none_right_eq_some.1 hact
    cases hact
    exact alive_modifyCell_same h fun _ => Nat.le_refl _
  | dropRecord j =>
    obtain ⟨cell, -, hact⟩ := Option.bind_eq_some_iff.1 hact
    obtain ⟨-, hact⟩ := Option.ite_none_right_eq_some.1 hact
    cases hact
    exact alive_modifyCell_same h fun _ => Nat.sub_le _ _
  | cloneSnapshot j | dropSnapshot j | cloneHandle j =>
    obtain ⟨cell, -, hact⟩ := Option.bind_eq_some_iff.1 hact
    obtain ⟨-, hact⟩ := Option.ite_none_right_eq_some.1 hact
    cases hact
    exact alive_modifyCell_same h fun _ => Nat.le_refl _
  | dropHandle j =>
    obtain ⟨cell, -, hact⟩ := Option.bind_eq_some_iff.1 hact
    obtain ⟨-, hact⟩ := Option.ite_none_right_eq_some.1 hact
    cases hact
    exact (storeMove_dropHandle s j cell).alive h
  | setResponse j input instant =>
    obtain ⟨cell, -, hact⟩ := Option.bind_eq_some_iff.1 hact
    obtain ⟨-, hact⟩ := Option.ite_none_right_eq_some.1 hact
    cases hact
    exact alive_handle h
  | append j side bytes =>
    obtain ⟨cell, -, hact⟩ := Option.bind_eq_some_iff.1 hact
    obtain ⟨-, hact⟩ := Option.ite_none_right_eq_some.1 hact
    cases hact
    exact alive_append h
  | finish j side terminal instant =>
    obtain ⟨cell, -, hact⟩ := Option.bind_eq_some_iff.1 hact
    obtain ⟨-, hact⟩ := Option.ite_none_right_eq_some.1 hact
    cases hact
    exact alive_handle ((storeMove_markTerminal _ j side).alive h)
  | insert j =>
    obtain ⟨cell, hcell, hact⟩ := Option.bind_eq_some_iff.1 hact
    obtain ⟨hrecords, hact⟩ := Option.ite_none_right_eq_some.1 hact
    cases hact
    exact alive_placed hcell hrecords ((storeMove_insert s j).alive h)
  | removeSequences sequences =>
    cases hact
    exact (storeMove_removeSequences s sequences).alive h
  | clear =>
    cases hact
    exact (storeMove_clear s).alive h
  | evictOldest =>
    cases hact
    exact (storeMove_evictOldest s).alive h
  | dropStore =>
    cases hact
    exact (storeMove_store s fun _ hmem => absurd hmem List.not_mem_nil).alive h

theorem Reaped.alive (h : Reaped u t) (halive : t.alive i = true) : u.alive i = true := by
  refine alive_of_referred halive (fun cell' hcell' => ?_) (fun hmem => h.queue ▸ hmem)
    fun hmem => .inl (h.store ▸ hmem)
  obtain ⟨cell, hcell, heq, -⟩ := h.cells.get_right hcell'
  exact ⟨cell, hcell, fun hpos => .inl (by rw [heq] at hpos; exact hpos)⟩

theorem alive_of_step {action : CaptureAction} (hold : i < s.cells.length)
    (hstep : s.step action = some t) (h : t.alive i = true) : s.alive i = true := by
  obtain ⟨u, hact, rfl⟩ := Option.map_eq_some_iff.1 hstep
  exact alive_of_act hold hact ((reaped_reap u).alive h)

end CaptureSystem

end Fluxcope.Capture
