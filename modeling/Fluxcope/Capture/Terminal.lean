import Fluxcope.Capture.BudgetRuns
/-!
# Ended sides stay ended

A side of an exchange ends once.  Appends and terminal events check for it; a
response head does not, and sets the response side to streaming again if the
side has ended before the head came.
-/

namespace Fluxcope.Capture

open Fluxcope.Library Fluxcope.Library.Utf8

/-- Nothing a viewer sees of the side moves. -/
structure CaptureRecord.SideFrozen (side : BodySide) (r r' : CaptureRecord) : Prop where
  body : r'.body side = r.body side
  terminalAt : r'.terminalAt side = r.terminalAt side

theorem CaptureRecord.SideFrozen.refl (side : BodySide) (r : CaptureRecord) :
    SideFrozen side r r := ⟨rfl, rfl⟩

theorem CaptureRecord.SideFrozen.trans {side : BodySide} {r r' r'' : CaptureRecord}
    (h : SideFrozen side r r') (h' : SideFrozen side r' r'') : SideFrozen side r r'' :=
  ⟨h'.body.trans h.body, h'.terminalAt.trans h.terminalAt⟩

theorem CaptureRecord.SameContent.frozen {r r' : CaptureRecord} (h : r.SameContent r')
    (side : BodySide) : r.SideFrozen side r' :=
  ⟨h.body side, h.terminalAt side⟩

/-- The stream of a side has ended. -/
def CaptureRecord.sideEnded (record : CaptureRecord) (side : BodySide) : Bool :=
  (record.body side).status.stream.isTerminal

/-- A response head would still be accepted, though the response side has ended. -/
def CaptureRecord.reopenable (record : CaptureRecord) : Bool :=
  record.acceptsResponse && record.sideEnded .response

/-- Both bodies show what they retain. -/
def CaptureRecord.BodiesFaithful (record : CaptureRecord) : Prop :=
  ∀ side, (record.body side).Faithful

namespace RecordScope

/-! ## `set_response` -/

theorem frozen_setResponse {scope : RecordScope} (h : scope.Sound) (policy : CapturePolicy)
    (input : ResponseCaptureInput) (instant : Nat) {side : BodySide}
    (hended : scope.record.sideEnded side = true) (hclosed : scope.record.reopenable = false) :
    scope.record.SideFrozen side
      (CaptureHandle.setResponseAt scope policy input instant).record := by
  obtain ⟨response, truncated, charged, -, -, heq⟩ := setResponse_spec h policy input instant
  rw [heq]
  split
  · rename_i haccepts
    cases side with
    | request => exact ⟨by simp [charge]; rfl, by simp [charge]; rfl⟩
    | response => simp [CaptureRecord.reopenable, haccepts, hended] at hclosed
  · exact .refl side _

theorem faithful_setResponse {scope : RecordScope} (h : scope.Sound) (policy : CapturePolicy)
    (input : ResponseCaptureInput) (instant : Nat) (hclosed : scope.record.reopenable = false)
    (hfaithful : scope.record.BodiesFaithful) :
    (CaptureHandle.setResponseAt scope policy input instant).record.BodiesFaithful := by
  obtain ⟨response, truncated, charged, -, -, heq⟩ := setResponse_spec h policy input instant
  rw [heq]
  split
  · rename_i haccepts
    intro side
    rw [body_bumpRevision, body_charge]
    cases side with
    | request => exact hfaithful .request
    | response =>
      have hbody := hfaithful .response
      have hopen : scope.record.sideEnded .response = false := by
        simpa [CaptureRecord.reopenable, haccepts] using hclosed
      exact ⟨⟨hbody.trailing_lt, hbody.chunk_length⟩, hbody.retained,
        fun _ => hbody.open_unsealed hopen, hbody.sealed_empty⟩
  · exact hfaithful

/-! ## `append` -/

theorem frozen_append {scope : RecordScope} (h : scope.Sound) {side : BodySide}
    (target : BodySide) (bytes : Bytes) (perBodyLimit : Nat)
    (hended : scope.record.sideEnded side = true) :
    scope.record.SideFrozen side (scope.appendBody target bytes perBodyLimit).2.record := by
  obtain ⟨previewLimit, heq⟩ := append_spec h target bytes perBodyLimit
  rw [heq]
  split
  · exact .refl side _
  rename_i hactive
  have hother : side ≠ target := by
    rintro rfl
    unfold CaptureRecord.sideEnded at hended
    simp [ignoresAppend, hended] at hactive
  split
  · exact ⟨CaptureRecord.body_setBody_other _ hother _, CaptureRecord.terminalAt_setBody _ _ _ _⟩
  · refine ⟨?_, ?_⟩
    · rw [body_bumpRevision, body_charge]
      exact CaptureRecord.body_setBody_other _ hother _
    · rw [terminalAt_bumpRevision, terminalAt_charge]
      exact CaptureRecord.terminalAt_setBody _ _ _ _

theorem faithful_observe {body : BodyCapture} (h : body.Faithful) (bytes : Bytes)
    (hopen : body.status.stream.isTerminal = false) : (observe body bytes).Faithful :=
  ⟨⟨h.trailing_lt, h.chunk_length⟩, h.retained, fun _ => h.open_unsealed hopen, h.sealed_empty⟩

theorem faithful_keep {body : BodyCapture} (h : body.Faithful) {bytes : Bytes} {retained : Nat}
    (hle : retained ≤ bytes.length) (previewLimit : Option BodyPreviewLimit)
    (hopen : body.status.stream.isTerminal = false) :
    (keep body bytes retained previewLimit).Faithful := by
  have happended := appended_keep h.toChunked bytes retained previewLimit
  refine @BodyCapture.Faithful.appended _ _ _ h hopen happended
    (keep body bytes retained previewLimit).status ?_
  rw [List.length_take, Nat.min_eq_left hle]
  rfl

theorem faithful_append {scope : RecordScope} (h : scope.Sound) (side : BodySide)
    (bytes : Bytes) (perBodyLimit : Nat) (hfaithful : scope.record.BodiesFaithful) :
    (scope.appendBody side bytes perBodyLimit).2.record.BodiesFaithful := by
  obtain ⟨previewLimit, heq⟩ := append_spec h side bytes perBodyLimit
  obtain ⟨hle, -, -⟩ := appendCharge_spec h side bytes perBodyLimit
  rw [heq]
  split
  · exact hfaithful
  rename_i hactive
  have hopen : (scope.record.body side).status.stream.isTerminal = false := by
    cases hterminal : (scope.record.body side).status.stream.isTerminal with
    | false => rfl
    | true => simp [ignoresAppend, hterminal] at hactive
  split
  · exact CaptureRecord.forall_body_setBody (faithful_observe (hfaithful side) bytes hopen)
      fun other _ => hfaithful other
  · intro other
    rw [body_bumpRevision, body_charge]
    exact CaptureRecord.forall_body_setBody (faithful_keep (hfaithful side) hle previewLimit hopen)
      (fun other _ => hfaithful other) other

/-! ## `complete`, `fail` and `cancel` -/

theorem frozen_finish (scope : RecordScope) {side : BodySide} (target : BodySide)
    (terminal : BodyTerminal) (instant : Nat) (hended : scope.record.sideEnded side = true) :
    scope.record.SideFrozen side (CaptureHandle.finish scope target terminal instant).record := by
  rw [finish_spec]
  split
  · exact .refl side _
  · rename_i hactive
    have hother : side ≠ target := by
      rintro rfl
      exact hactive hended
    refine ⟨?_, ?_⟩
    · rw [body_bumpRevision, CaptureRecord.body_setTerminalAt]
      exact CaptureRecord.body_setBody_other _ hother _
    · rw [terminalAt_bumpRevision, CaptureRecord.terminalAt_setTerminalAt_other _ hother]
      exact CaptureRecord.terminalAt_setBody _ _ _ _

theorem faithful_finish (scope : RecordScope) (side : BodySide) (terminal : BodyTerminal)
    (instant : Nat) (hfaithful : scope.record.BodiesFaithful) :
    (CaptureHandle.finish scope side terminal instant).record.BodiesFaithful := by
  rw [finish_spec]
  split
  · exact hfaithful
  · rename_i hactive
    intro other
    rw [body_bumpRevision, CaptureRecord.body_setTerminalAt]
    refine CaptureRecord.forall_body_setBody ?_ (fun other _ => hfaithful other) other
    refine (hfaithful side).finish (by simpa using hactive) _ ?_ ?_
    · cases terminal <;> rfl
    · cases terminal <;> rfl

end RecordScope

/-! ## Runs -/

namespace CaptureSystem

/-- The action is a response head that sets an ended side to streaming again. -/
def reopens (s : CaptureSystem) : CaptureAction → Bool
  | .setResponse i _ _ =>
    match s.cells[i]? with
    | none => false
    | some cell => s.alive i && cell.record.reopenable
  | _ => false

/-- The handle operations that keep ended sides as they are, unless they reopen one. -/
theorem handleOp_frozen {s : CaptureSystem} {action : CaptureAction} {i : CaptureSequence}
    {f : RecordScope → RecordScope} {cell : CaptureCell}
    (hop : s.handleOp action = some (i, f)) (hcell : s.cells[i]? = some cell)
    (halive : s.alive i = true) (hsound : (s.scope cell).Sound)
    (hclosed : s.reopens action = false) :
    (∀ side, cell.record.sideEnded side = true →
        cell.record.SideFrozen side (f (s.scope cell)).record) ∧
      (cell.record.BodiesFaithful → (f (s.scope cell)).record.BodiesFaithful) := by
  cases action with
  | setResponse j input instant =>
    obtain ⟨rfl, rfl⟩ := Prod.mk.inj (Option.some.inj hop)
    have hnot : cell.record.reopenable = false := by
      simpa [reopens, hcell, halive] using hclosed
    exact ⟨fun side hended =>
      RecordScope.frozen_setResponse hsound s.policy input instant hended hnot,
      RecordScope.faithful_setResponse hsound s.policy input instant hnot⟩
  | append j side bytes =>
    obtain ⟨rfl, rfl⟩ := Prod.mk.inj (Option.some.inj hop)
    exact ⟨fun other hended => RecordScope.frozen_append hsound side bytes _ hended,
      RecordScope.faithful_append hsound side bytes _⟩
  | finish j side terminal instant =>
    obtain ⟨rfl, rfl⟩ := Prod.mk.inj (Option.some.inj hop)
    exact ⟨fun other hended =>
      RecordScope.frozen_finish (s.scope cell) side terminal instant hended,
      RecordScope.faithful_finish (s.scope cell) side terminal instant⟩
  | _ => simp [handleOp] at hop

theorem step_frozen {s t : CaptureSystem} {action : CaptureAction} (h : Conserved s)
    (hclosed : s.reopens action = false) (hstep : s.step action = some t)
    {i : CaptureSequence} {c : CaptureCell} (hc : s.cells[i]? = some c) :
    ∃ c', t.cells[i]? = some c' ∧
      ∀ side, c.record.sideEnded side = true → c.record.SideFrozen side c'.record := by
  obtain ⟨c', hc', ⟨hsame, -⟩ | ⟨f, hop, halive, hsame, -⟩⟩ := step_record hstep hc
  · exact ⟨c', hc', fun side _ => hsame.frozen side⟩
  · have hsound := h.toBalanced.sound hc (h.toBalanced.leaseLive_of_alive hc halive)
    refine ⟨c', hc', fun side hended => ?_⟩
    exact ((handleOp_frozen hop hc halive hsound hclosed).1 side hended).trans (hsame.frozen side)

/-- All bodies of all captures show what they retain. -/
def AllFaithful (s : CaptureSystem) : Prop :=
  ∀ (i : Nat) (cell : CaptureCell), s.cells[i]? = some cell → cell.record.BodiesFaithful

theorem faithful_of_sameContent {r r' : CaptureRecord} (hsame : r.SameContent r')
    (h : r.BodiesFaithful) : r'.BodiesFaithful := by
  intro side
  rw [hsame.body]
  exact h side

theorem step_faithful {s t : CaptureSystem} {action : CaptureAction} (h : Conserved s)
    (hclosed : s.reopens action = false) (hfaithful : AllFaithful s)
    (hstep : s.step action = some t) : AllFaithful t := by
  refine step_forall hstep (fun r r' => faithful_of_sameContent) ?_ ?_ hfaithful
  · rintro cell ⟨_, _, _, _, _, _, hrecord⟩ (_ | _) <;> rw [hrecord] <;>
      exact BodyCapture.faithful_new
  · intro i cell f hop hcell halive
    have hsound := h.toBalanced.sound hcell (h.toBalanced.leaseLive_of_alive hcell halive)
    exact (handleOp_frozen hop hcell halive hsound hclosed).2

/-- From `s` to `t` nothing moves on a side that has ended in `s`. -/
def EndedSidesFrozen (s t : CaptureSystem) : Prop :=
  ∀ (i : Nat) (c : CaptureCell), s.cells[i]? = some c → ∃ c', t.cells[i]? = some c' ∧
    ∀ side, c.record.sideEnded side = true → c.record.SideFrozen side c'.record

theorem run_frozen {s t : CaptureSystem} {actions : List CaptureAction} (h : Conserved s)
    (hclosed : Along step (fun s action => s.reopens action = false) s actions)
    (hrun : run step s actions = some t) : EndedSidesFrozen s t := by
  have hfinal := run_invariant_along (I := fun u => Conserved u ∧ EndedSidesFrozen s u)
    (Q := fun s action => s.reopens action = false) ?_ ⟨h, fun i c hc => ⟨c, hc, fun _ _ => .refl _ _⟩⟩
    hclosed hrun
  · exact hfinal.2
  · rintro u action v ⟨hu, hfrozen⟩ hnot hstep
    refine ⟨hu.step hstep, fun i c hc => ?_⟩
    obtain ⟨c', hc', hleft⟩ := hfrozen i c hc
    obtain ⟨c'', hc'', hright⟩ := step_frozen hu hnot hstep hc'
    refine ⟨c'', hc'', fun side hended => (hleft side hended).trans (hright side ?_)⟩
    unfold CaptureRecord.sideEnded at hended ⊢
    rw [(hleft side hended).body]
    exact hended

theorem run_faithful {s t : CaptureSystem} {actions : List CaptureAction} (h : Conserved s)
    (hfaithful : AllFaithful s)
    (hclosed : Along step (fun s action => s.reopens action = false) s actions)
    (hrun : run step s actions = some t) : AllFaithful t := by
  have hfinal := run_invariant_along (I := fun u => Conserved u ∧ AllFaithful u)
    (fun u action v hu hnot hstep => ⟨hu.1.step hstep, step_faithful hu.1 hnot hu.2 hstep⟩)
    ⟨h, hfaithful⟩ hclosed hrun
  exact hfinal.2

/-! ## The law and its exact condition -/

/-- What a viewer sees of a side. -/
structure SideKept (side : BodySide) (r r' : CaptureRecord) : Prop where
  stream : (r'.body side).status.stream = (r.body side).status.stream
  terminalAt : r'.terminalAt side = r.terminalAt side
  observed : (r'.body side).status.observedBytes = (r.body side).status.observedBytes
  retained : (r'.body side).status.retainedBytes = (r.body side).status.retainedBytes
  preview : r'.bodyPreview side = r.bodyPreview side

def EndedSidesKept (s t : CaptureSystem) : Prop :=
  ∀ (i : Nat) (c : CaptureCell), s.cells[i]? = some c → ∃ c', t.cells[i]? = some c' ∧
    ∀ side, c.record.sideEnded side = true → SideKept side c.record c'.record

def PreviewLengthsExact (s : CaptureSystem) : Prop :=
  ∀ (i : Nat) (c : CaptureCell), s.cells[i]? = some c → ∀ side,
    (c.record.bodyPreview side).len = (c.record.bodyPreview side).flatten.length

theorem sideKept_of_frozen {side : BodySide} {r r' : CaptureRecord}
    (h : r.SideFrozen side r') : SideKept side r r' := by
  refine ⟨?_, h.terminalAt, ?_, ?_, ?_⟩ <;> try unfold CaptureRecord.bodyPreview
  all_goals rw [h.body]

theorem previewLengthsExact_of_faithful {s : CaptureSystem} (h : AllFaithful s) :
    PreviewLengthsExact s := fun i c hc side => (h i c hc side).retained

theorem setResponse_of_reopens {s : CaptureSystem} {i : CaptureSequence}
    {input : ResponseCaptureInput} {instant : Nat}
    (h : s.reopens (.setResponse i input instant) = true) :
    ∃ cell, s.cells[i]? = some cell ∧ s.alive i = true ∧ cell.record.reopenable = true := by
  simp only [reopens] at h
  cases hcell : s.cells[i]? with
  | none => simp [hcell] at h
  | some cell => exact ⟨cell, rfl, by simpa [hcell] using h⟩

/-- A response head that reopens a side leaves it streaming. -/
theorem streaming_of_reopens {s t : CaptureSystem} {action : CaptureAction} (h : Conserved s)
    (hreopens : s.reopens action = true) (hstep : s.step action = some t) :
    ¬ EndedSidesKept s t := by
  intro hkept
  cases action with
  | setResponse i input instant =>
    obtain ⟨c, hc, halive, hreopenable⟩ := setResponse_of_reopens hreopens
    obtain ⟨haccepts, hended⟩ := Bool.and_eq_true_iff.1 hreopenable
    obtain ⟨c', hc', hside⟩ := hkept i c hc
    have hstream := (hside .response hended).stream
    have hsound := h.toBalanced.sound hc (h.toBalanced.leaseLive_of_alive hc halive)
    obtain ⟨response, truncated, charged, -, -, heq⟩ :=
      RecordScope.setResponse_spec hsound s.policy input instant
    rw [if_pos (show (s.scope c).record.acceptsResponse = true from haccepts)] at heq
    have hstreaming : (c'.record.body .response).status.stream = .streaming := by
      obtain ⟨_, hget, hcase⟩ := step_record hstep hc
      obtain rfl := Option.some.inj (hget.symm.trans hc')
      rcases hcase with ⟨-, hdead⟩ | ⟨f, hop, -, hsame, -⟩
      · rw [(hdead _ rfl).1] at halive
        cases halive
      · obtain ⟨-, rfl⟩ := Prod.mk.inj (Option.some.inj hop)
        rw [hsame.body]
        dsimp only
        rw [heq, RecordScope.body_bumpRevision, RecordScope.body_charge]
        rfl
    unfold CaptureRecord.sideEnded at hended
    rw [← hstream, hstreaming] at hended
    cases hended
  | _ => simp [reopens] at hreopens

/-- In a run, sides that have ended stay as they are, and previews are as long as
they say, exactly when no response head comes after the end of its side. -/
theorem ended_sides_kept_iff {policy : CapturePolicy} {retention : CaptureRetentionPolicy}
    {actions : List CaptureAction} {t : CaptureSystem}
    (hrun : run step (new policy retention) actions = some t) :
    (∀ before between after s u, actions = before ++ (between ++ after) →
        run step (new policy retention) before = some s → run step s between = some u →
        EndedSidesKept s u ∧ PreviewLengthsExact u) ↔
      Along step (fun s action => s.reopens action = false) (new policy retention) actions := by
  constructor
  · intro hkept
    refine along_iff.2 fun before action after s hactions hbefore => ?_
    by_contra hreopens
    rw [hactions, run_append, hbefore] at hrun
    obtain ⟨u, hstep, -⟩ := run_cons_eq_some.1 hrun
    have hsu := (hkept before [action] after s u hactions hbefore
      (run_cons_eq_some.2 ⟨u, hstep, rfl⟩)).1
    exact streaming_of_reopens (conserved_run hbefore) (by simpa using hreopens) hstep hsu
  · rintro hclosed before between after s u rfl hbefore hbetween
    have hs := hclosed.append_left
    have hu := (hclosed.append_right hbefore).append_left
    have hconserved := conserved_run hbefore
    have hfaithful := run_faithful (conserved_new policy retention) (by simp [AllFaithful, new])
      hs hbefore
    refine ⟨fun i c hc => ?_,
      previewLengthsExact_of_faithful (run_faithful hconserved hfaithful hu hbetween)⟩
    obtain ⟨c', hc', hside⟩ := run_frozen hconserved hu hbetween i c hc
    exact ⟨c', hc', fun side hended => sideKept_of_frozen (hside side hended)⟩

theorem ended_sides_kept_iff_sample :
    ∃ t, run step (new {} {}) sampleExchange = some t ∧
      ((∀ before between after s u, sampleExchange = before ++ (between ++ after) →
          run step (new {} {}) before = some s → run step s between = some u →
          EndedSidesKept s u ∧ PreviewLengthsExact u) ↔
        Along step (fun s action => s.reopens action = false) (new {} {}) sampleExchange) := by
  obtain ⟨t, hrun⟩ := Option.isSome_iff_exists.1
    (show (run step (new {} {}) sampleExchange).isSome = true by decide)
  exact ⟨t, hrun, ended_sides_kept_iff hrun⟩

/-- The response side is cancelled before its head comes. -/
def sampleCancelled : List CaptureAction :=
  [.tryStart
      { method := [71], originalUri := [97], effectiveUri := [97], localPath := none
        headers := [] } 0 0,
    .append 0 .response [1], .finish 0 .response .cancelled 1]

/-- Then the head arrives after all, with a body. -/
def sampleReopened : List CaptureAction :=
  [.setResponse 0 { status := 200, headers := [] } 2, .append 0 .response [2, 3],
    .finish 0 .response .complete 3]

theorem cancelled_side_reopened :
    ∃ s u, run step (new {} {}) sampleCancelled = some s ∧
      run step s sampleReopened = some u ∧ ¬ EndedSidesKept s u ∧ ¬ PreviewLengthsExact u := by
  obtain ⟨s, hs⟩ := Option.isSome_iff_exists.1
    (show (run step (new {} {}) sampleCancelled).isSome = true by decide)
  obtain ⟨u, hu⟩ := Option.isSome_iff_exists.1
    (show ((run step (new {} {}) sampleCancelled).bind fun s =>
      run step s sampleReopened).isSome = true by decide)
  have hbefore : ((run step (new {} {}) sampleCancelled).bind fun s =>
      s.cells[0]?.map fun c => c.record.responseBody.status.stream) = some .cancelled := by decide
  have hafter : (((run step (new {} {}) sampleCancelled).bind fun s =>
      run step s sampleReopened).bind fun u => u.cells[0]?.map fun c =>
        (c.record.responseBody.status.stream, c.record.responseBody.preview.len,
          c.record.responseBody.preview.flatten.length)) = some (.complete, 3, 2) := by decide
  rw [hu, Option.bind_some, Option.map_eq_some_iff] at hafter
  rw [hs, Option.bind_some] at hu
  rw [hs, Option.bind_some, Option.map_eq_some_iff] at hbefore
  obtain ⟨c, hc, hstream⟩ := hbefore
  obtain ⟨c', hc', hstate⟩ := hafter
  obtain ⟨hstream', hlengths⟩ := Prod.mk.inj hstate
  obtain ⟨hlen, hflatten⟩ := Prod.mk.inj hlengths
  refine ⟨s, u, hs, hu, fun hkept => ?_, fun hexact => ?_⟩
  · obtain ⟨_, hget, hside⟩ := hkept 0 c hc
    obtain rfl := Option.some.inj (hget.symm.trans hc')
    have hended : c.record.sideEnded .response = true := by
      simp [CaptureRecord.sideEnded, CaptureRecord.body, hstream, BodyStreamState.isTerminal]
    have hsame := (hside .response hended).stream
    simp [CaptureRecord.body, hstream, hstream'] at hsame
  · have hlength := hexact 0 c' hc' .response
    simp [CaptureRecord.bodyPreview, CaptureRecord.body, hlen, hflatten] at hlength

end CaptureSystem

end Fluxcope.Capture
