import Fluxcope.Capture.SystemSpec
/-!
# What a step does to a record

A step either performs one operation of a handle on one live record, or leaves
the content of all records as it is.
-/

namespace Fluxcope.Capture

open Fluxcope.Library Fluxcope.Library.Utf8

namespace CaptureSystem

/-! ## Dropping leases -/

/-- Only leases were dropped. -/
structure Reaped (s t : CaptureSystem) : Prop where
  cells : Pointwise
    (fun c c' => c' = { c with leaseLive := c'.leaseLive } ∧ (c'.leaseLive → c.leaseLive))
    s.cells t.cells
  policy : t.policy = s.policy
  retention : t.retention = s.retention
  queue : t.queue = s.queue
  feed : t.feed = s.feed
  store : t.store = s.store

theorem Reaped.refl (s : CaptureSystem) : Reaped s s :=
  ⟨.refl (fun _ => ⟨rfl, id⟩) _, rfl, rfl, rfl, rfl, rfl⟩

theorem Reaped.trans {s t u : CaptureSystem} (h : Reaped s t) (h' : Reaped t u) :
    Reaped s u := by
  refine ⟨h.cells.trans ?_ h'.cells, h'.policy.trans h.policy, h'.retention.trans h.retention,
    h'.queue.trans h.queue, h'.feed.trans h.feed, h'.store.trans h.store⟩
  rintro c c' c'' ⟨heq, hlive⟩ ⟨heq', hlive'⟩
  exact ⟨by rw [heq', heq], hlive ∘ hlive'⟩

theorem reaped_reapCell (s : CaptureSystem) (i : CaptureSequence) : Reaped s (s.reapCell i) := by
  unfold reapCell
  split
  · exact .refl s
  · rename_i cell hcell
    split
    · exact ⟨pointwise_set (fun _ => ⟨rfl, id⟩) hcell ⟨rfl, by simp⟩, rfl, rfl, rfl, rfl, rfl⟩
    · exact .refl s

theorem reaped_foldl (indices : List CaptureSequence) (s : CaptureSystem) :
    Reaped s (indices.foldl reapCell s) := by
  induction indices generalizing s with
  | nil => exact .refl s
  | cons i rest ih => exact (reaped_reapCell s i).trans (ih _)

theorem reaped_reap (s : CaptureSystem) : Reaped s s.reap := reaped_foldl _ s

theorem Reaped.references {s t : CaptureSystem} (h : Reaped s t) {i : CaptureSequence}
    {c c' : CaptureCell} (hc : s.cells[i]? = some c) (hc' : t.cells[i]? = some c') :
    t.references i c' = s.references i c := by
  obtain ⟨_, hget, heq, -⟩ := h.cells.get hc
  obtain rfl := Option.some.inj (hget.symm.trans hc')
  rw [heq]
  simp only [CaptureSystem.references, strong, h.queue, h.store]

/-! ## What one step does to one record -/

/-- The operation an action performs through a handle, and the record it is about. -/
def handleOp (s : CaptureSystem) :
    CaptureAction → Option (CaptureSequence × (RecordScope → RecordScope))
  | .setResponse i input instant =>
    some (i, fun scope => CaptureHandle.setResponseAt scope s.policy input instant)
  | .append i side bytes =>
    some (i, fun scope => CaptureHandle.append scope s.policy side bytes)
  | .finish i side terminal instant =>
    some (i, fun scope => CaptureHandle.finish scope side terminal instant)
  | _ => none

def SameRecord (c c' : CaptureCell) : Prop := c.record.SameContent c'.record

/-- The record is the same, with what it knows about the store. -/
def SameState (c c' : CaptureCell) : Prop := c'.record = c.record

theorem SameState.refl (c : CaptureCell) : SameState c c := rfl

theorem sameState_refl (cells : List CaptureCell) : Pointwise SameState cells cells :=
  .refl SameState.refl cells

theorem sameState_trans {h h' h'' : List CaptureCell} (hleft : Pointwise SameState h h')
    (hright : Pointwise SameState h' h'') : Pointwise SameState h h'' :=
  hleft.trans (fun _ _ _ hc hc' => hc'.trans hc) hright

theorem sameRecord_of_sameState {h h' : List CaptureCell} (hcells : Pointwise SameState h h') :
    Pointwise SameRecord h h' := by
  refine hcells.imp fun c c' hc => ?_
  unfold SameRecord
  rw [hc]
  exact .refl _

theorem sameState_modify (s : CaptureSystem) (i : CaptureSequence)
    {f : CaptureCell → CaptureCell} (hf : ∀ cell : CaptureCell, (f cell).record = cell.record) :
    Pointwise SameState s.cells (s.modifyCell i f).cells :=
  pointwise_modify SameState.refl fun cell _ => hf cell

theorem Quiet.sameRecord {s u : CaptureSystem} (h : Quiet s u) :
    Pointwise SameRecord s.cells u.cells :=
  h.cells.imp fun _ _ hsame => hsame.content

theorem StoreMove.sameRecord {s u : CaptureSystem} (h : StoreMove s u) :
    Pointwise SameRecord s.cells u.cells :=
  h.quiet.sameRecord

theorem Reaped.sameState {s t : CaptureSystem} (h : Reaped s t) :
    Pointwise SameState s.cells t.cells := by
  refine h.cells.imp ?_
  rintro c c' ⟨heq, -⟩
  unfold SameState
  rw [heq]

theorem Reaped.sameRecord {s t : CaptureSystem} (h : Reaped s t) :
    Pointwise SameRecord s.cells t.cells :=
  sameRecord_of_sameState h.sameState

theorem sameRecord_trans {h h' h'' : List CaptureCell} (hleft : Pointwise SameRecord h h')
    (hright : Pointwise SameRecord h' h'') : Pointwise SameRecord h h'' :=
  hleft.trans (fun _ _ _ => .trans) hright

@[simp] theorem markTerminal_store (s : CaptureSystem) (i : CaptureSequence) (side : BodySide) :
    (s.markTerminal i side).store = s.store := by
  unfold markTerminal
  split
  · rfl
  · dsimp only
    split <;> rfl

/-- A cell whose record has just been made. -/
def Fresh (cell : CaptureCell) : Prop :=
  ∃ sequence request truncation bytes startedAt startedMono,
    cell.record = .new sequence request truncation bytes startedAt startedMono

/-- The first alternative of `act_cases`: records are only started, moved and told
about the store. -/
structure NoOperation (s u : CaptureSystem) (action : CaptureAction) : Prop where
  cells : ∃ new, (∀ cell ∈ new, Fresh cell) ∧ Pointwise SameRecord (s.cells ++ new) u.cells
  dead : ∀ i f, s.handleOp action = some (i, f) →
    s.alive i = false ∧ u.feed = s.feed ∧ Pointwise SameState s.cells u.cells
  policy : u.policy = s.policy
  retention : u.retention = s.retention

/-- The second one: a handle whose record is alive performs its operation. -/
structure Operation (s u : CaptureSystem) (action : CaptureAction) (i : CaptureSequence)
    (cell : CaptureCell) (f : RecordScope → RecordScope) : Prop where
  op : s.handleOp action = some (i, f)
  get : s.cells[i]? = some cell
  alive : s.alive i = true
  cells : Pointwise SameState (s.putScope i cell (f (s.scope cell))).cells u.cells
  feed : u.feed = (f (s.scope cell)).feed
  policy : u.policy = s.policy
  retention : u.retention = s.retention

theorem noNewCells {s u : CaptureSystem} (h : Quiet s u) :
    ∃ new, (∀ cell ∈ new, Fresh cell) ∧ Pointwise SameRecord (s.cells ++ new) u.cells :=
  ⟨[], by simp, by rw [List.append_nil]; exact h.sameRecord⟩

theorem noOperation_of_quiet {s u : CaptureSystem} {action : CaptureAction} (h : Quiet s u)
    (hop : s.handleOp action = none) : NoOperation s u action :=
  ⟨noNewCells h, by simp [hop], h.policy, h.retention⟩

@[simp] theorem markTerminal_feed (s : CaptureSystem) (i : CaptureSequence) (side : BodySide) :
    (s.markTerminal i side).feed = s.feed := by
  unfold markTerminal
  split
  · rfl
  · dsimp only
    split <;> rfl

theorem sameState_markTerminal (s : CaptureSystem) (i : CaptureSequence) (side : BodySide) :
    Pointwise SameState s.cells (s.markTerminal i side).cells := by
  unfold markTerminal
  split
  · exact sameState_refl _
  · dsimp only
    split <;> exact sameState_modify s i fun _ => rfl

theorem quiet_of_modify {s : CaptureSystem} {i : CaptureSequence}
    {f : CaptureCell → CaptureCell} (action : CaptureAction) (hop : s.handleOp action = none)
    (hf : ∀ cell : CaptureCell, cell.Same (f cell)) : NoOperation s (s.modifyCell i f) action :=
  noOperation_of_quiet (quiet_modifyCell s i hf) hop

theorem act_tryStart (s : CaptureSystem) (input : RequestCaptureInput)
    (startedAt startedMono : Nat) :
    NoOperation s (s.tryStart input startedAt startedMono)
      (.tryStart input startedAt startedMono) := by
  have hnone : ∀ {u : CaptureSystem}, u = s →
      NoOperation s u (.tryStart input startedAt startedMono) := by
    rintro _ rfl
    exact noOperation_of_quiet (.refl _) rfl
  unfold tryStart
  split
  · exact hnone rfl
  dsimp only
  split
  · exact hnone rfl
  split <;>
    exact ⟨⟨[_], List.forall_mem_singleton.2 ⟨_, _, _, _, _, _, rfl⟩, .refl (fun _ => .refl _) _⟩,
      by simp [handleOp], rfl, rfl⟩

/-- A handle operation, when its record is gone and when it is there. -/
theorem act_handle {s : CaptureSystem} {action : CaptureAction} {i : CaptureSequence}
    {f : RecordScope → RecordScope} {u : CaptureSystem}
    (hop : s.handleOp action = some (i, f))
    (hdead : s.alive i = false →
      Quiet s u ∧ u.feed = s.feed ∧ Pointwise SameState s.cells u.cells)
    (hlive : ∀ cell, s.cells[i]? = some cell → s.alive i = true →
      Pointwise SameState (s.putScope i cell (f (s.scope cell))).cells u.cells ∧
        u.feed = (f (s.scope cell)).feed ∧ u.policy = s.policy ∧ u.retention = s.retention) :
    NoOperation s u action ∨ ∃ i cell f, Operation s u action i cell f := by
  cases halive : s.alive i with
  | false =>
    obtain ⟨hquiet, hsame⟩ := hdead halive
    refine .inl ⟨noNewCells hquiet, fun j g hg => ?_, hquiet.policy, hquiet.retention⟩
    obtain ⟨rfl, -⟩ := Prod.mk.inj (Option.some.inj (hop.symm.trans hg))
    exact ⟨halive, hsame⟩
  | true =>
    obtain ⟨cell, hcell, -⟩ := alive_iff.1 halive
    obtain ⟨hcells, hfeed, hpolicy, hretention⟩ := hlive cell hcell halive
    exact .inr ⟨i, cell, f, hop, hcell, halive, hcells, hfeed, hpolicy, hretention⟩

theorem act_cases {s u : CaptureSystem} {action : CaptureAction} (h : s.act action = some u) :
    NoOperation s u action ∨ ∃ i cell f, Operation s u action i cell f := by
  cases action with
  | tryStart input startedAt startedMono =>
    obtain rfl := Option.some.inj h
    exact .inl (act_tryStart s input startedAt startedMono)
  | receive =>
    simp only [act] at h
    split at h
    · cases h
    · obtain rfl := Option.some.inj h
      refine .inl (noOperation_of_quiet ?_ rfl)
      exact ⟨pointwise_modify .refl fun _ _ => ⟨rfl, rfl, rfl, rfl, .refl _⟩, rfl, rfl, rfl⟩
  | dropReceiver =>
    obtain rfl := Option.some.inj h
    exact .inl (noOperation_of_quiet ⟨.refl .refl _, rfl, rfl, rfl⟩ rfl)
  | cloneRecord i | takeSnapshot i =>
    simp only [act] at h
    split at h
    · obtain rfl := Option.some.inj h
      exact .inl (quiet_of_modify _ rfl fun _ => ⟨rfl, rfl, rfl, rfl, .refl _⟩)
    · cases h
  | dropRecord i | cloneSnapshot i | dropSnapshot i | cloneHandle i =>
    obtain ⟨cell, -, h⟩ := Option.bind_eq_some_iff.1 h
    split at h
    · obtain rfl := Option.some.inj h
      exact .inl (quiet_of_modify _ rfl fun _ => ⟨rfl, rfl, rfl, rfl, .refl _⟩)
    · cases h
  | dropHandle i =>
    obtain ⟨cell, -, h⟩ := Option.bind_eq_some_iff.1 h
    split at h
    · obtain rfl := Option.some.inj h
      exact .inl (noOperation_of_quiet (storeMove_dropHandle s i cell).quiet rfl)
    · cases h
  | setResponse i input instant =>
    obtain ⟨_, -, h⟩ := Option.bind_eq_some_iff.1 h
    split at h
    · obtain rfl := Option.some.inj h
      refine act_handle rfl (fun hdead => ?_) fun cell hcell halive => ?_
      · simp [setResponse, hdead, Quiet.refl, sameState_refl]
      · simp only [setResponse, halive, if_true, onRecord_of_some hcell]
        exact ⟨sameState_refl _, rfl, rfl, rfl⟩
    · cases h
  | append i side bytes =>
    obtain ⟨_, -, h⟩ := Option.bind_eq_some_iff.1 h
    split at h
    · obtain rfl := Option.some.inj h
      refine act_handle rfl (fun hdead => ?_) fun cell hcell halive => ?_
      · simp [append, hdead, Quiet.refl, sameState_refl]
      · simp only [append, halive, if_true, hcell]
        refine ⟨fun j => ?_, rfl, rfl, rfl⟩
        simp only [putScope, getElem?_set_of_some hcell]
        split
        · exact .some rfl
        · exact sameState_refl _ j
    · cases h
  | finish i side terminal instant =>
    obtain ⟨_, -, h⟩ := Option.bind_eq_some_iff.1 h
    split at h
    · obtain rfl := Option.some.inj h
      refine act_handle rfl (fun hdead => ?_) fun cell hcell halive => ?_
      · simp only [finish, hdead]
        exact ⟨(storeMove_markTerminal s i side).quiet, markTerminal_feed s i side,
          sameState_markTerminal s i side⟩
      · simp only [finish, halive, if_true, onRecord_of_some hcell]
        have hmark := storeMove_markTerminal (s.putScope i cell
          (CaptureHandle.finish (s.scope cell) side terminal instant)) i side
        exact ⟨sameState_markTerminal _ i side, markTerminal_feed _ i side, hmark.policy,
          hmark.retention⟩
    · cases h
  | insert i =>
    obtain ⟨_, -, h⟩ := Option.bind_eq_some_iff.1 h
    split at h
    · obtain rfl := Option.some.inj h
      exact .inl (noOperation_of_quiet
        ((quiet_placed s i).trans (storeMove_insert s i).quiet) rfl)
    · cases h
  | removeSequences sequences =>
    obtain rfl := Option.some.inj h
    exact .inl (noOperation_of_quiet (storeMove_removeSequences s sequences).quiet rfl)
  | clear =>
    obtain rfl := Option.some.inj h
    exact .inl (noOperation_of_quiet (storeMove_clear s).quiet rfl)
  | evictOldest =>
    obtain rfl := Option.some.inj h
    exact .inl (noOperation_of_quiet (storeMove_evictOldest s).quiet rfl)
  | dropStore =>
    obtain rfl := Option.some.inj h
    exact .inl (noOperation_of_quiet ⟨.refl .refl _, rfl, rfl, rfl⟩ rfl)

theorem store_of_handle {s u : CaptureSystem} {action : CaptureAction}
    (hop : (s.handleOp action).isSome) (h : s.act action = some u) : u.store = s.store := by
  cases action with
  | setResponse i input instant =>
    obtain ⟨_, -, h⟩ := Option.bind_eq_some_iff.1 h
    split at h
    · obtain rfl := Option.some.inj h
      unfold setResponse
      split
      · exact onRecord_store _ _ _
      · rfl
    · cases h
  | append i side bytes =>
    obtain ⟨_, -, h⟩ := Option.bind_eq_some_iff.1 h
    split at h
    · obtain rfl := Option.some.inj h
      unfold append
      split
      · split <;> rfl
      · rfl
    · cases h
  | finish i side terminal instant =>
    obtain ⟨_, -, h⟩ := Option.bind_eq_some_iff.1 h
    split at h
    · obtain rfl := Option.some.inj h
      unfold finish
      rw [markTerminal_store]
      split
      · exact onRecord_store _ _ _
      · rfl
    · cases h
  | _ => simp [handleOp] at hop

theorem policy_step {s t : CaptureSystem} {action : CaptureAction} (h : s.step action = some t) :
    t.policy = s.policy ∧ t.retention = s.retention := by
  obtain ⟨u, hact, rfl⟩ := Option.map_eq_some_iff.1 h
  have hreap := reaped_reap u
  rw [hreap.policy, hreap.retention]
  rcases act_cases hact with hnone | ⟨i, cell, f, hop⟩
  · exact ⟨hnone.policy, hnone.retention⟩
  · exact ⟨hop.policy, hop.retention⟩

/-- The record of one capture across a step. -/
theorem step_record {s t : CaptureSystem} {action : CaptureAction} (h : s.step action = some t)
    {i : CaptureSequence} {c : CaptureCell} (hc : s.cells[i]? = some c) :
    ∃ c', t.cells[i]? = some c' ∧
      (c.record.SameContent c'.record ∧
          (∀ f, s.handleOp action = some (i, f) → s.alive i = false ∧ t.feed = s.feed) ∨
        ∃ f, s.handleOp action = some (i, f) ∧ s.alive i = true ∧
          (f (s.scope c)).record.SameContent c'.record ∧ t.feed = (f (s.scope c)).feed) := by
  obtain ⟨u, hact, rfl⟩ := Option.map_eq_some_iff.1 h
  have hreap := reaped_reap u
  rcases act_cases hact with hnone | ⟨j, cell, f, hop⟩
  · obtain ⟨new, -, hnew⟩ := hnone.cells
    have hold : (s.cells ++ new)[i]? = some c := by
      obtain ⟨hi, -⟩ := List.getElem?_eq_some_iff.1 hc
      rw [List.getElem?_append_left hi, hc]
    obtain ⟨c', hc', hsame⟩ := (sameRecord_trans hnew hreap.sameRecord).get hold
    refine ⟨c', hc', .inl ⟨hsame, fun f hf => ?_⟩⟩
    obtain ⟨hdead, hfeed, -⟩ := hnone.dead i f hf
    exact ⟨hdead, hreap.feed.trans hfeed⟩
  · have hcells := sameRecord_trans (sameRecord_of_sameState hop.cells) hreap.sameRecord
    have hput := getElem?_set_of_some (j := i) (y := { cell with
      record := (f (s.scope cell)).record, lease := (f (s.scope cell)).lease }) hop.get
    by_cases hij : j = i
    · subst hij
      obtain rfl := Option.some.inj (hop.get.symm.trans hc)
      rw [if_pos rfl] at hput
      obtain ⟨c', hc', hsame⟩ := hcells.get hput
      exact ⟨c', hc', .inr ⟨f, hop.op, hop.alive, hsame, hreap.feed.trans hop.feed⟩⟩
    · rw [if_neg hij, hc] at hput
      obtain ⟨c', hc', hsame⟩ := hcells.get hput
      refine ⟨c', hc', .inl ⟨hsame, fun g hg => ?_⟩⟩
      rw [hop.op] at hg
      exact absurd (congrArg Prod.fst (Option.some.inj hg)) hij

/-- A capture after a step is an old one or has just been started. -/
theorem step_old_or_fresh {s t : CaptureSystem} {action : CaptureAction}
    (h : s.step action = some t) {i : CaptureSequence} {c' : CaptureCell}
    (hc' : t.cells[i]? = some c') :
    (∃ c, s.cells[i]? = some c) ∨ ∃ c, Fresh c ∧ SameRecord c c' := by
  obtain ⟨u, hact, rfl⟩ := Option.map_eq_some_iff.1 h
  have hreap := reaped_reap u
  rcases act_cases hact with hnone | ⟨j, cell, f, hop⟩
  · obtain ⟨new, hfresh, hnew⟩ := hnone.cells
    obtain ⟨c, hc, hsame⟩ := (sameRecord_trans hnew hreap.sameRecord).get_right hc'
    rw [List.getElem?_append] at hc
    split at hc
    · exact .inl ⟨c, hc⟩
    · exact .inr ⟨c, hfresh c (List.mem_of_getElem? hc), hsame⟩
  · obtain ⟨c, hc, -⟩ := (sameRecord_trans (sameRecord_of_sameState hop.cells) hreap.sameRecord).get_right hc'
    rw [putScope, getElem?_set_of_some hop.get] at hc
    split at hc
    · rename_i hij
      exact .inl ⟨cell, hij ▸ hop.get⟩
    · exact .inl ⟨c, hc⟩

/-- A property of records that operations on live records and the store keep, and
that new records have, holds of all records after a step. -/
theorem step_forall {s t : CaptureSystem} {action : CaptureAction} {P : CaptureRecord → Prop}
    (h : s.step action = some t)
    (hsame : ∀ r r' : CaptureRecord, r.SameContent r' → P r → P r')
    (hnew : ∀ cell, Fresh cell → P cell.record)
    (hop : ∀ i cell f, s.handleOp action = some (i, f) → s.cells[i]? = some cell →
      s.alive i = true → P cell.record → P (f (s.scope cell)).record)
    (hall : ∀ (i : Nat) (cell : CaptureCell), s.cells[i]? = some cell → P cell.record) :
    ∀ (i : Nat) (cell : CaptureCell), t.cells[i]? = some cell → P cell.record := by
  intro i c' hc'
  rcases step_old_or_fresh h hc' with ⟨c, hc⟩ | ⟨c, hfresh, hcell⟩
  · obtain ⟨_, hget, hcase⟩ := step_record h hc
    obtain rfl := Option.some.inj (hget.symm.trans hc')
    rcases hcase with ⟨hcontent, -⟩ | ⟨f, hf, halive, hcontent, -⟩
    · exact hsame _ _ hcontent (hall i c hc)
    · exact hsame _ _ hcontent (hop i c f hf hc halive (hall i c hc))
  · exact hsame _ _ hcell (hnew c hfresh)

end CaptureSystem

end Fluxcope.Capture
