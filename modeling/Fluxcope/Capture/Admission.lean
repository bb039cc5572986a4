import Fluxcope.Capture.Liveness
/-!
# Admission permits

An exchange holds a permit from its start until both of its sides have ended or its
last handle is dropped.  The store and the operations on records leave permits alone.
-/

namespace Fluxcope.Capture

open Fluxcope.Library Fluxcope.Library.Utf8

/-- The handles and the lifecycle of a cell. -/
def CaptureCell.hold (cell : CaptureCell) : Nat × ExchangeLifecycle :=
  (cell.handles, cell.lifecycle)

def SameHold (c c' : CaptureCell) : Prop := c.hold = c'.hold

theorem SameHold.refl (c : CaptureCell) : SameHold c c := rfl

/-- Both sides have ended. -/
def ExchangeLifecycle.bothEnded (lifecycle : ExchangeLifecycle) : Bool :=
  lifecycle.requestTerminal && lifecycle.responseTerminal

@[simp] theorem permit_setTerminal (lifecycle : ExchangeLifecycle) (side : BodySide) :
    (lifecycle.setTerminal side).permit = lifecycle.permit := by
  cases side <;> rfl

theorem setTerminal_bothEnded (lifecycle : ExchangeLifecycle) (side : BodySide)
    (h : lifecycle.bothEnded = true) : (lifecycle.setTerminal side).bothEnded = true := by
  unfold ExchangeLifecycle.bothEnded at h ⊢
  cases side <;> simp_all [ExchangeLifecycle.setTerminal]

/-- The actions that change the handles or the lifecycle of a cell that is there. -/
def CaptureAction.movesHandles : CaptureAction → Bool
  | .cloneHandle _ | .dropHandle _ | .finish _ _ _ _ => true
  | _ => false

namespace CaptureSystem

variable {s t u : CaptureSystem} {i : CaptureSequence}

/-! ## What the store leaves alone -/

/-- The free permits, and what holds the others. -/
def held (s : CaptureSystem) : Nat × List (Nat × ExchangeLifecycle) :=
  (s.permits, s.cells.map CaptureCell.hold)

theorem held_of_pointwise (hpermits : u.permits = s.permits)
    (hcells : Pointwise SameHold s.cells u.cells) : u.held = s.held :=
  congrArg₂ Prod.mk hpermits (Pointwise.map_eq (fun _ _ h => h) hcells).symm

theorem held_modifyCell (s : CaptureSystem) (i : CaptureSequence) {f : CaptureCell → CaptureCell}
    (hf : ∀ cell : CaptureCell, SameHold cell (f cell)) : (s.modifyCell i f).held = s.held :=
  held_of_pointwise rfl (pointwise_modify .refl fun cell _ => hf cell)

theorem held_putScope {cell : CaptureCell} (hcell : s.cells[i]? = some cell)
    (scope : RecordScope) : (s.putScope i cell scope).held = s.held :=
  held_of_pointwise rfl (pointwise_set .refl hcell rfl)

@[simp] theorem held_onRecord (s : CaptureSystem) (i : CaptureSequence)
    (f : RecordScope → RecordScope) : (s.onRecord i f).held = s.held := by
  unfold onRecord
  split
  · rfl
  · rename_i cell hcell
    exact held_putScope hcell _

@[simp] theorem held_store (s : CaptureSystem) (store : CaptureStore) :
    held { s with store } = s.held := rfl

@[simp] theorem held_forget (s : CaptureSystem) (i : CaptureSequence) (kind : CaptureChangeKind) :
    (s.forget i kind).held = s.held :=
  held_onRecord s i _

@[simp] theorem held_evictOldest (s : CaptureSystem) : s.evictOldest.2.held = s.held := by
  unfold evictOldest
  split
  · rfl
  · exact held_forget _ _ _

@[simp] theorem held_enforceLoop (fuel : Nat) (s : CaptureSystem) (evicted : Bool) :
    (enforceLoop fuel s evicted).2.held = s.held := by
  induction fuel generalizing s evicted with
  | zero => rfl
  | succ fuel ih =>
    unfold enforceLoop
    split
    · have hevict := held_evictOldest s
      rcases hs : s.evictOldest with ⟨_ | i, u⟩
      · rfl
      · rw [hs] at hevict
        exact (ih u true).trans hevict
    · rfl

@[simp] theorem held_removeEach (sequences : List CaptureSequence) (s : CaptureSystem)
    (removed : Nat) : (removeEach sequences s removed).2.held = s.held := by
  induction sequences generalizing s removed with
  | nil => rfl
  | cons i rest ih =>
    unfold removeEach
    split
    · rw [ih, held_forget, held_store]
    · exact ih s removed

@[simp] theorem held_afterRemoval (removed : Nat) (s : CaptureSystem) :
    (afterRemoval removed s).held = s.held := by
  unfold afterRemoval
  split <;> rfl

theorem held_clear (s : CaptureSystem) : s.clear.2.held = s.held := by
  have hremove : ∀ (captures : List CaptureSequence) (u : CaptureSystem),
      (captures.foldl (fun u i => u.removeRecord i .clear) u).held = u.held := by
    intro captures
    induction captures with
    | nil => exact fun _ => rfl
    | cons i rest ih => exact fun u => (ih _).trans (held_onRecord u i _)
  unfold clear
  rw [held_afterRemoval, held_store, hremove]

theorem held_insert (s : CaptureSystem) (i : CaptureSequence) : (s.insert i).2.held = s.held := by
  have hplaced : ∀ store : CaptureStore,
      held { s.modifyCell i fun cell => { cell with records := cell.records - 1 } with store } =
        s.held := fun store => held_modifyCell s i fun _ => rfl
  unfold insert enforceCachedRetention
  rw [held_enforceLoop, held_onRecord, held_store]
  split
  · rw [held_forget, hplaced]
  · exact hplaced _

theorem held_reaped (h : Reaped s t) (hpermits : t.permits = s.permits) : t.held = s.held := by
  refine held_of_pointwise hpermits (h.cells.imp ?_)
  rintro c c' ⟨heq, -⟩
  unfold SameHold
  rw [heq]
  rfl

theorem permits_reap (s : CaptureSystem) : s.reap.permits = s.permits := by
  unfold reap
  generalize List.range s.cells.length = indices
  induction indices generalizing s with
  | nil => rfl
  | cons i rest ih =>
    refine (ih _).trans ?_
    unfold reapCell
    split
    · rfl
    · split <;> rfl

theorem held_reap (s : CaptureSystem) : s.reap.held = s.held :=
  held_reaped (reaped_reap s) (permits_reap s)

/-! ## What a step does to the permits -/

/-- The lifecycle after a side has ended, and the permits that are free then. -/
def endSide (permits : Nat) (lifecycle : ExchangeLifecycle) (side : BodySide) :
    Nat × ExchangeLifecycle :=
  let ended := lifecycle.setTerminal side
  if ended.requestTerminal && ended.responseTerminal && ended.permit then
    (permits + 1, { ended with permit := false })
  else (permits, ended)

/-- The same after a handle was dropped, which was not the last one unless `handles` is one. -/
def dropOne (permits handles : Nat) (lifecycle : ExchangeLifecycle) :
    Nat × Nat × ExchangeLifecycle :=
  if handles = 1 && lifecycle.permit then (permits + 1, 0, { lifecycle with permit := false })
  else (permits, handles - 1, lifecycle)

/-- All that a step can do to the permits. -/
inductive Holds (permits : Nat) (holds : List (Nat × ExchangeLifecycle)) :
    CaptureAction → Nat × List (Nat × ExchangeLifecycle) → Prop
  | same (action : CaptureAction) (hkept : action.movesHandles = false) :
      Holds permits holds action (permits, holds)
  | start (input : RequestCaptureInput) (startedAt startedMono : Nat) (hpermits : 0 < permits) :
      Holds permits holds (.tryStart input startedAt startedMono)
        (permits - 1, holds ++ [(1, { permit := true })])
  | crowded (input : RequestCaptureInput) (startedAt startedMono : Nat) :
      Holds permits holds (.tryStart input startedAt startedMono)
        (permits, holds ++ [(0, { permit := false })])
  | clone (i : CaptureSequence) (handles : Nat) (lifecycle : ExchangeLifecycle)
      (hget : holds[i]? = some (handles, lifecycle)) (hhandles : 0 < handles) :
      Holds permits holds (.cloneHandle i) (permits, holds.set i (handles + 1, lifecycle))
  | drop (i : CaptureSequence) (handles : Nat) (lifecycle : ExchangeLifecycle)
      (hget : holds[i]? = some (handles, lifecycle)) (hhandles : 0 < handles) :
      Holds permits holds (.dropHandle i)
        ((dropOne permits handles lifecycle).1,
          holds.set i (dropOne permits handles lifecycle).2)
  | finish (i : CaptureSequence) (side : BodySide) (terminal : BodyTerminal) (instant : Nat)
      (handles : Nat) (lifecycle : ExchangeLifecycle)
      (hget : holds[i]? = some (handles, lifecycle)) (hhandles : 0 < handles) :
      Holds permits holds (.finish i side terminal instant)
        ((endSide permits lifecycle side).1,
          holds.set i (handles, (endSide permits lifecycle side).2))

theorem get_held {cell : CaptureCell} (hcell : s.cells[i]? = some cell) :
    s.held.2[i]? = some (cell.handles, cell.lifecycle) := by
  change (s.cells.map CaptureCell.hold)[i]? = _
  rw [List.getElem?_map, hcell]
  rfl

theorem held_tryStart (input : RequestCaptureInput) (startedAt startedMono : Nat) :
    Holds s.permits s.held.2 (.tryStart input startedAt startedMono)
      (s.tryStart input startedAt startedMono).held := by
  have hsame : Holds s.permits s.held.2 (.tryStart input startedAt startedMono) s.held :=
    .same _ rfl
  unfold tryStart
  split
  · exact hsame
  rename_i hpermits
  dsimp only
  split
  · exact hsame
  have hnew : ∀ cell : CaptureCell,
      (s.cells ++ [cell]).map CaptureCell.hold = s.held.2 ++ [cell.hold] := fun cell =>
    List.map_append
  split
  · change Holds _ _ _ (s.permits - 1, (s.cells ++ [_]).map CaptureCell.hold)
    rw [hnew]
    exact .start input startedAt startedMono (Nat.pos_of_ne_zero hpermits)
  · change Holds _ _ _ (s.permits, (s.cells ++ [_]).map CaptureCell.hold)
    rw [hnew]
    exact .crowded input startedAt startedMono

theorem held_markTerminal {cell : CaptureCell} (hcell : s.cells[i]? = some cell) (side : BodySide) :
    (s.markTerminal i side).held = ((endSide s.permits cell.lifecycle side).1,
      s.held.2.set i (cell.handles, (endSide s.permits cell.lifecycle side).2)) := by
  unfold markTerminal endSide
  rw [hcell]
  dsimp only
  split
  · exact congrArg (Prod.mk (s.permits + 1)) (map_modify_of_some _ CaptureCell.hold hcell)
  · exact congrArg (Prod.mk s.permits) (map_modify_of_some _ CaptureCell.hold hcell)

theorem held_dropHandle {cell : CaptureCell} (hcell : s.cells[i]? = some cell) :
    (s.dropHandle i cell).held = ((dropOne s.permits cell.handles cell.lifecycle).1,
      s.held.2.set i (dropOne s.permits cell.handles cell.lifecycle).2) := by
  unfold dropHandle dropOne
  split
  · exact congrArg (Prod.mk (s.permits + 1)) (map_modify_of_some _ CaptureCell.hold hcell)
  · exact congrArg (Prod.mk s.permits) (map_modify_of_some _ CaptureCell.hold hcell)

theorem held_cloneHandle {cell : CaptureCell} (hcell : s.cells[i]? = some cell) :
    (s.modifyCell i fun cell => { cell with handles := cell.handles + 1 }).held =
      (s.permits, s.held.2.set i (cell.handles + 1, cell.lifecycle)) :=
  congrArg (Prod.mk s.permits) (map_modify_of_some _ CaptureCell.hold hcell)

theorem held_append (s : CaptureSystem) (i : CaptureSequence) (side : BodySide) (bytes : Bytes) :
    (s.append i side bytes).held = s.held := by
  unfold append
  split
  · split
    · rfl
    · rename_i cell hcell
      exact held_of_pointwise rfl (pointwise_set .refl hcell rfl)
  · rfl

theorem held_alive (s : CaptureSystem) (i : CaptureSequence) (f : RecordScope → RecordScope) :
    (if s.alive i then s.onRecord i f else s).held = s.held := by
  split
  · exact held_onRecord s i f
  · rfl

theorem get_of_held {handle : Nat × ExchangeLifecycle} (hget : s.held.2[i]? = some handle) :
    ∃ cell, s.cells[i]? = some cell ∧ cell.hold = handle :=
  Option.map_eq_some_iff.1 (List.getElem?_map.symm.trans hget)

theorem held_finish {cell : CaptureCell} (hcell : s.cells[i]? = some cell) (hheld : u.held = s.held)
    (side : BodySide) :
    (u.markTerminal i side).held = ((endSide s.permits cell.lifecycle side).1,
      s.held.2.set i (cell.handles, (endSide s.permits cell.lifecycle side).2)) := by
  have hget := get_held hcell
  rw [← hheld] at hget
  obtain ⟨cell', hcell', hhold⟩ := get_of_held hget
  obtain ⟨hhandles, hlifecycle⟩ := Prod.mk.inj hhold
  have hpermits : u.permits = s.permits := congrArg Prod.fst hheld
  rw [held_markTerminal hcell', hhandles, hlifecycle, hpermits, hheld]

theorem held_act {action : CaptureAction} (hact : s.act action = some u) :
    Holds s.permits s.held.2 action u.held := by
  have hsame : action.movesHandles = false → u.held = s.held →
      Holds s.permits s.held.2 action u.held := by
    intro hkept hheld
    rw [hheld]
    exact .same action hkept
  cases action with
  | tryStart input startedAt startedMono =>
    cases hact
    exact held_tryStart input startedAt startedMono
  | cloneHandle i =>
    obtain ⟨cell, hcell, hact⟩ := Option.bind_eq_some_iff.1 hact
    obtain ⟨hhandles, hact⟩ := Option.ite_none_right_eq_some.1 hact
    cases hact
    rw [held_cloneHandle hcell]
    exact .clone i _ _ (get_held hcell) hhandles
  | dropHandle i =>
    obtain ⟨cell, hcell, hact⟩ := Option.bind_eq_some_iff.1 hact
    obtain ⟨hhandles, hact⟩ := Option.ite_none_right_eq_some.1 hact
    cases hact
    rw [held_dropHandle hcell]
    exact .drop i _ _ (get_held hcell) hhandles
  | finish i side terminal instant =>
    obtain ⟨cell, hcell, hact⟩ := Option.bind_eq_some_iff.1 hact
    obtain ⟨hhandles, hact⟩ := Option.ite_none_right_eq_some.1 hact
    cases hact
    have hheld := held_alive s i fun scope => CaptureHandle.finish scope side terminal instant
    unfold finish
    rw [held_finish hcell hheld]
    exact .finish i side terminal instant _ _ (get_held hcell) hhandles
  | receive =>
    simp only [act] at hact
    split at hact
    · cases hact
    · rename_i j rest hqueue
      cases hact
      exact hsame rfl (held_modifyCell _ j fun _ => rfl)
  | dropReceiver =>
    cases hact
    exact hsame rfl rfl
  | cloneRecord j | takeSnapshot j =>
    obtain ⟨-, hact⟩ := Option.ite_none_right_eq_some.1 hact
    cases hact
    exact hsame rfl (held_modifyCell s j fun _ => rfl)
  | dropRecord j | cloneSnapshot j | dropSnapshot j =>
    obtain ⟨cell, -, hact⟩ := Option.bind_eq_some_iff.1 hact
    obtain ⟨-, hact⟩ := Option.ite_none_right_eq_some.1 hact
    cases hact
    exact hsame rfl (held_modifyCell s j fun _ => rfl)
  | setResponse j input instant =>
    obtain ⟨cell, -, hact⟩ := Option.bind_eq_some_iff.1 hact
    obtain ⟨-, hact⟩ := Option.ite_none_right_eq_some.1 hact
    cases hact
    exact hsame rfl (held_alive s j _)
  | append j side bytes =>
    obtain ⟨cell, -, hact⟩ := Option.bind_eq_some_iff.1 hact
    obtain ⟨-, hact⟩ := Option.ite_none_right_eq_some.1 hact
    cases hact
    exact hsame rfl (held_append s j side bytes)
  | insert j =>
    obtain ⟨cell, -, hact⟩ := Option.bind_eq_some_iff.1 hact
    obtain ⟨-, hact⟩ := Option.ite_none_right_eq_some.1 hact
    cases hact
    exact hsame rfl (held_insert s j)
  | removeSequences sequences =>
    cases hact
    exact hsame rfl ((held_afterRemoval _ _).trans (held_removeEach _ s 0))
  | clear =>
    cases hact
    exact hsame rfl (held_clear s)
  | evictOldest =>
    cases hact
    exact hsame rfl (held_evictOldest s)
  | dropStore =>
    cases hact
    exact hsame rfl rfl

theorem held_step {action : CaptureAction} (hstep : s.step action = some t) :
    Holds s.permits s.held.2 action t.held := by
  obtain ⟨u, hact, rfl⟩ := Option.map_eq_some_iff.1 hstep
  rw [held_reap]
  exact held_act hact

/-! ## Who holds a permit -/

/-- The cells that hold a permit have a handle and a side that has not ended, and with
the free permits they make up the limit. -/
structure Admitted (limit : Nat) (permits : Nat) (holds : List (Nat × ExchangeLifecycle)) :
    Prop where
  exact : ∀ handles lifecycle, (handles, lifecycle) ∈ holds →
    (lifecycle.permit = true ↔ 0 < handles ∧ lifecycle.bothEnded = false)
  conserved : permits + (holds.countP fun hold => hold.2.permit) = limit

theorem countP_set_of_some {α : Type*} {p : α → Bool} {list : List α} {i : Nat} {old : α}
    (hget : list[i]? = some old) (new : α) :
    (list.set i new).countP p + (if p old then 1 else 0) =
      list.countP p + (if p new then 1 else 0) := by
  obtain ⟨hi, hold⟩ := List.getElem?_eq_some_iff.1 hget
  have hpos : p old = true → 0 < list.countP p := fun hp =>
    List.countP_pos_iff.2 ⟨old, List.mem_of_getElem? hget, hp⟩
  rw [List.countP_set hi, hold]
  split
  · rename_i hp
    have hcount := hpos hp
    omega
  · omega

variable {limit permits : Nat} {holds : List (Nat × ExchangeLifecycle)}

/-- One cell changes, and the permits with it. -/
theorem Admitted.set (h : Admitted limit permits holds) {handles handles' permits' : Nat}
    {lifecycle lifecycle' : ExchangeLifecycle} (hget : holds[i]? = some (handles, lifecycle))
    (hexact : lifecycle'.permit = true ↔ 0 < handles' ∧ lifecycle'.bothEnded = false)
    (hpermits : permits' + (if lifecycle'.permit then 1 else 0) =
      permits + (if lifecycle.permit then 1 else 0)) :
    Admitted limit permits' (holds.set i (handles', lifecycle')) := by
  refine ⟨fun _ _ hmem => ?_, ?_⟩
  · rcases List.mem_or_eq_of_mem_set hmem with hmem | heq
    · exact h.exact _ _ hmem
    · obtain ⟨rfl, rfl⟩ := Prod.mk.inj heq
      exact hexact
  · have hcount := countP_set_of_some (p := fun hold : Nat × ExchangeLifecycle => hold.2.permit)
      hget (handles', lifecycle')
    have hconserved := h.conserved
    dsimp only at hcount
    omega

theorem Admitted.push (h : Admitted limit permits holds) {handles permits' : Nat}
    {lifecycle : ExchangeLifecycle}
    (hexact : lifecycle.permit = true ↔ 0 < handles ∧ lifecycle.bothEnded = false)
    (hpermits : permits' + (if lifecycle.permit then 1 else 0) = permits) :
    Admitted limit permits' (holds ++ [(handles, lifecycle)]) := by
  refine ⟨fun _ _ hmem => ?_, ?_⟩
  · rcases List.mem_append.1 hmem with hmem | hmem
    · exact h.exact _ _ hmem
    · obtain ⟨rfl, rfl⟩ := Prod.mk.inj (List.mem_singleton.1 hmem)
      exact hexact
  · have hconserved := h.conserved
    rw [List.countP_append, List.countP_singleton]
    dsimp only
    omega

theorem Admitted.step (h : Admitted limit permits holds) {action : CaptureAction}
    {next : Nat × List (Nat × ExchangeLifecycle)} (hholds : Holds permits holds action next) :
    Admitted limit next.1 next.2 := by
  cases hholds with
  | same _ hkept => exact h
  | start input startedAt startedMono hpermits =>
    exact h.push (by decide) (Nat.sub_add_cancel hpermits)
  | crowded input startedAt startedMono => exact h.push (by decide) rfl
  | clone i handles lifecycle hget hhandles =>
    have hexact := h.exact _ _ (List.mem_of_getElem? hget)
    refine h.set hget ?_ rfl
    rw [hexact]
    simp [hhandles]
  | drop i handles lifecycle hget hhandles =>
    have hexact := h.exact _ _ (List.mem_of_getElem? hget)
    unfold dropOne
    split
    · rename_i hlast
      have hpermit : lifecycle.permit = true := (Bool.and_eq_true_iff.1 hlast).2
      exact h.set hget (by simp) (by simp [hpermit])
    · rename_i hlast
      refine h.set hget ?_ rfl
      cases hpermit : lifecycle.permit with
      | true =>
        have hmore : handles ≠ 1 := by simpa [hpermit] using hlast
        have hopen := (hexact.1 hpermit).2
        exact iff_of_true rfl ⟨by omega, hopen⟩
      | false =>
        refine iff_of_false (by simp) fun hopen => ?_
        rw [hexact.2 ⟨hhandles, hopen.2⟩] at hpermit
        cases hpermit
  | finish i side terminal instant handles lifecycle hget hhandles =>
    have hexact := h.exact _ _ (List.mem_of_getElem? hget)
    have hside := setTerminal_bothEnded lifecycle side
    unfold endSide
    dsimp only
    split
    · rename_i hended
      obtain ⟨hended, hpermit⟩ := Bool.and_eq_true_iff.1 hended
      rw [permit_setTerminal] at hpermit
      refine h.set hget ?_ (by simp [hpermit])
      exact iff_of_false (by simp) fun hopen => absurd hopen.2 (by
        simpa [ExchangeLifecycle.bothEnded] using hended)
    · rename_i hended
      refine h.set hget ?_ (by rw [permit_setTerminal])
      rw [permit_setTerminal]
      cases hpermit : lifecycle.permit with
      | true =>
        rw [permit_setTerminal, hpermit, Bool.and_true] at hended
        exact iff_of_true rfl ⟨hhandles, Bool.eq_false_iff.2 hended⟩
      | false =>
        refine iff_of_false (by simp) fun hopen => ?_
        have hbefore : lifecycle.bothEnded = false := by
          by_contra hboth
          rw [hside (by simpa using hboth)] at hopen
          cases hopen.2
        rw [hexact.2 ⟨hhandles, hbefore⟩] at hpermit
        cases hpermit

theorem admitted_run {policy : CapturePolicy} {retention : CaptureRetentionPolicy}
    {actions : List CaptureAction} (hrun : run step (new policy retention) actions = some s) :
    Admitted policy.maxConcurrentExchanges s.held.1 s.held.2 := by
  refine run_invariant (I := fun s : CaptureSystem =>
    Admitted policy.maxConcurrentExchanges s.held.1 s.held.2)
    (fun s action t h hstep => h.step (held_step hstep)) ?_ hrun
  exact ⟨fun _ _ hmem => absurd hmem List.not_mem_nil, rfl⟩

/-- In every run: the free permits and the exchanges that hold one make up the limit;
an exchange holds its permit as long as a handle of it is left and one of its sides
has not ended; so when no exchange is under way, all permits are back. -/
theorem permits_conserved {policy : CapturePolicy} {retention : CaptureRetentionPolicy}
    {actions : List CaptureAction} (hrun : run step (new policy retention) actions = some s) :
    s.permits + (s.cells.countP fun cell => cell.lifecycle.permit) =
        policy.maxConcurrentExchanges ∧
      (∀ (i : Nat) (cell : CaptureCell), s.cells[i]? = some cell →
        (cell.lifecycle.permit = true ↔
          0 < cell.handles ∧ cell.lifecycle.bothEnded = false)) ∧
      ((∀ (i : Nat) (cell : CaptureCell), s.cells[i]? = some cell →
          cell.handles = 0 ∨ cell.lifecycle.bothEnded = true) →
        s.permits = policy.maxConcurrentExchanges) := by
  have h := admitted_run hrun
  have hexact : ∀ cell ∈ s.cells,
      (cell.lifecycle.permit = true ↔ 0 < cell.handles ∧ cell.lifecycle.bothEnded = false) :=
    fun cell hmem => h.exact _ _ (List.mem_map_of_mem hmem)
  have hcount : s.held.2.countP (fun hold => hold.2.permit) =
      s.cells.countP fun cell => cell.lifecycle.permit := List.countP_map
  have hconserved := h.conserved
  rw [hcount] at hconserved
  refine ⟨hconserved, fun i cell hcell => hexact cell (List.mem_of_getElem? hcell),
    fun hidle => ?_⟩
  have hnone : (s.cells.countP fun cell => cell.lifecycle.permit) = 0 := by
    refine List.countP_eq_zero.2 fun cell hmem hpermit => ?_
    obtain ⟨hhandles, hopen⟩ := (hexact cell hmem).1 hpermit
    obtain ⟨i, hcell⟩ := List.getElem?_of_mem hmem
    rcases hidle i cell hcell with hzero | hended
    · omega
    · rw [hopen] at hended
      cases hended
  rw [← hconserved, hnone]
  rfl

theorem permits_conserved_sample :
    ∃ s, run step (new {} {}) sampleExchange = some s ∧
      s.permits + (s.cells.countP fun cell => cell.lifecycle.permit) =
        ({} : CapturePolicy).maxConcurrentExchanges := by
  obtain ⟨s, hrun⟩ := Option.isSome_iff_exists.1
    (show (run step (new {} {}) sampleExchange).isSome = true by decide)
  exact ⟨s, hrun, (permits_conserved hrun).1⟩

end CaptureSystem

end Fluxcope.Capture
