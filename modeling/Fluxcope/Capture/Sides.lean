import Fluxcope.Capture.Terminal
/-!
# Open sides and request heads

A side that is open stays open until it is told its end; then it has the status of
that end.  The head of a request is as it was when the capture was started.
-/

namespace Fluxcope.Capture

open Fluxcope.Library Fluxcope.Library.Utf8

namespace RecordScope

variable {scope : RecordScope} {side target : BodySide}

theorem open_setResponse (h : scope.Sound) (policy : CapturePolicy) (input : ResponseCaptureInput)
    (instant : Nat) (hopen : scope.record.sideEnded side = false) :
    (CaptureHandle.setResponseAt scope policy input instant).record.sideEnded side = false := by
  obtain ⟨response, truncated, charged, -, -, heq⟩ := setResponse_spec h policy input instant
  rw [heq]
  split
  · unfold CaptureRecord.sideEnded
    rw [body_bumpRevision, body_charge]
    cases side with
    | request => exact hopen
    | response => rfl
  · exact hopen

theorem open_append (h : scope.Sound) (bytes : Bytes) (perBodyLimit : Nat)
    (hopen : scope.record.sideEnded side = false) :
    (scope.appendBody target bytes perBodyLimit).2.record.sideEnded side = false := by
  rw [append_eq h]
  unfold CaptureRecord.sideEnded
  split
  · exact hopen
  split
  · by_cases htarget : side = target
    · rw [htarget, CaptureRecord.body_setBody_same]
      rfl
    · rw [CaptureRecord.body_setBody_other _ htarget]
      exact hopen
  · rw [body_bumpRevision, body_charge]
    by_cases htarget : side = target
    · rw [htarget, CaptureRecord.body_setBody_same]
      rfl
    · rw [CaptureRecord.body_setBody_other _ htarget]
      exact hopen

theorem body_finish_other (terminal : BodyTerminal) (instant : Nat) (htarget : side ≠ target) :
    (CaptureHandle.finish scope target terminal instant).record.body side =
      scope.record.body side := by
  rw [finish_spec]
  split
  · rfl
  · rw [body_bumpRevision, CaptureRecord.body_setTerminalAt,
      CaptureRecord.body_setBody_other _ htarget]

theorem body_finish_same (terminal : BodyTerminal) (instant : Nat)
    (hopen : scope.record.sideEnded side = false) :
    (CaptureHandle.finish scope side terminal instant).record.body side =
      ended (scope.record.body side) terminal := by
  rw [finish_spec, if_neg (by rw [show BodyStreamState.isTerminal _ = false from hopen]; simp),
    body_bumpRevision, CaptureRecord.body_setTerminalAt, CaptureRecord.body_setBody_same]

end RecordScope

namespace CaptureSystem

variable {s t : CaptureSystem} {i : CaptureSequence} {side : BodySide} {action : CaptureAction}

/-- What a step does to a side that is open. -/
theorem step_side (h : Conserved s) (hstep : s.step action = some t) {c : CaptureCell}
    (hc : s.cells[i]? = some c) (hopen : c.record.sideEnded side = false) :
    ∃ c', t.cells[i]? = some c' ∧
      (c'.record.sideEnded side = false ∨
        ∃ terminal instant, action = .finish i side terminal instant ∧ s.alive i = true ∧
          (c'.record.body side).status =
            RecordScope.terminate (c.record.body side).status terminal) := by
  obtain ⟨c', hc', hcase⟩ := step_record hstep hc
  refine ⟨c', hc', ?_⟩
  rcases hcase with ⟨hsame, -⟩ | ⟨f, hop, halive, hsame, -⟩
  · refine .inl ?_
    unfold CaptureRecord.sideEnded at hopen ⊢
    rw [hsame.body]
    exact hopen
  have hsound := h.toBalanced.sound hc (h.toBalanced.leaseLive_of_alive hc halive)
  have hstill : (f (s.scope c)).record.sideEnded side = false →
      c'.record.sideEnded side = false := by
    intro hstill
    unfold CaptureRecord.sideEnded at hstill ⊢
    rw [hsame.body]
    exact hstill
  cases action with
  | setResponse j input instant =>
    obtain ⟨rfl, rfl⟩ := Prod.mk.inj (Option.some.inj hop)
    exact .inl (hstill (RecordScope.open_setResponse hsound s.policy input instant hopen))
  | append j target bytes =>
    obtain ⟨rfl, rfl⟩ := Prod.mk.inj (Option.some.inj hop)
    exact .inl (hstill (RecordScope.open_append hsound bytes _ hopen))
  | finish j target terminal instant =>
    obtain ⟨rfl, rfl⟩ := Prod.mk.inj (Option.some.inj hop)
    by_cases htarget : side = target
    · subst htarget
      refine .inr ⟨terminal, instant, rfl, halive, ?_⟩
      rw [hsame.body, RecordScope.body_finish_same terminal instant hopen, RecordScope.ended,
        BodyCapture.seal_status]
      rfl
    · refine .inl (hstill ?_)
      unfold CaptureRecord.sideEnded
      rw [RecordScope.body_finish_other terminal instant htarget]
      exact hopen
  | _ => simp [handleOp] at hop

/-- A record that is there and hears of the end of a side has it ended, now or before. -/
theorem step_finish (h : Conserved s) {terminal : BodyTerminal} {instant : Nat}
    (hstep : s.step (.finish i side terminal instant) = some t) (halive : s.alive i = true)
    {c : CaptureCell} (hc : s.cells[i]? = some c) :
    ∃ c', t.cells[i]? = some c' ∧ c'.record.sideEnded side = true := by
  by_cases hended : c.record.sideEnded side = true
  · obtain ⟨c', hc', hfrozen⟩ := step_frozen h rfl hstep hc
    refine ⟨c', hc', ?_⟩
    unfold CaptureRecord.sideEnded at hended ⊢
    rw [(hfrozen side hended).body]
    exact hended
  obtain ⟨c', hc', hcase⟩ := step_record hstep hc
  refine ⟨c', hc', ?_⟩
  rcases hcase with ⟨-, hdead⟩ | ⟨f, hop, -, hsame, -⟩
  · rw [(hdead _ rfl).1] at halive
    cases halive
  · obtain ⟨-, rfl⟩ := Prod.mk.inj (Option.some.inj hop)
    have hbody := (@RecordScope.body_finish_same (s.scope c)) terminal instant
      (Bool.eq_false_of_not_eq_true hended)
    unfold CaptureRecord.sideEnded
    rw [hsame.body, hbody, RecordScope.ended, BodyCapture.seal_status]
    cases terminal <;> rfl

/-! ## The head of the request -/

variable {c : CaptureCell}

/-- The operations of a handle keep the head of the request. -/
theorem handleOp_request {f : RecordScope → RecordScope} {scope : RecordScope}
    (hop : s.handleOp action = some (i, f)) (hsound : scope.Sound) :
    (f scope).record.request = scope.record.request := by
  cases action with
  | setResponse j input instant =>
    obtain ⟨rfl, rfl⟩ := Prod.mk.inj (Option.some.inj hop)
    obtain ⟨response, truncated, charged, -, -, heq⟩ :=
      RecordScope.setResponse_spec hsound s.policy input instant
    dsimp only
    rw [heq]
    split
    · rw [RecordScope.bumpRevision_record]
      rfl
    · rfl
  | append j target bytes =>
    obtain ⟨rfl, rfl⟩ := Prod.mk.inj (Option.some.inj hop)
    dsimp only [CaptureHandle.append]
    rw [RecordScope.append_eq hsound]
    split
    · rfl
    split
    · cases target <;> rfl
    · rw [RecordScope.bumpRevision_record]
      cases target <;> rfl
  | finish j target terminal instant =>
    obtain ⟨rfl, rfl⟩ := Prod.mk.inj (Option.some.inj hop)
    dsimp only
    rw [RecordScope.finish_spec]
    split
    · rfl
    · rw [RecordScope.bumpRevision_record]
      cases target <;> rfl
  | _ => simp [handleOp] at hop

theorem request_of_sameContent {r r' : CaptureRecord} (h : r.SameContent r') :
    r'.request = r.request := by
  rw [h.eq]

theorem step_request (h : s.Conserved) (hstep : s.step action = some t)
    (hc : s.cells[i]? = some c) :
    ∃ c', t.cells[i]? = some c' ∧ c'.record.request = c.record.request := by
  obtain ⟨c', hc', ⟨hsame, -⟩ | ⟨f, hop, halive, hsame, -⟩⟩ := step_record hstep hc
  · exact ⟨c', hc', request_of_sameContent hsame⟩
  · have hsound := h.toBalanced.sound hc (h.toBalanced.leaseLive_of_alive hc halive)
    exact ⟨c', hc', (request_of_sameContent hsame).trans (handleOp_request hop hsound)⟩

/-- A capture that is started has the head it was started with. -/
theorem request_tryStart {input : RequestCaptureInput} {startedAt startedMono : Nat}
    (hstep : s.step (.tryStart input startedAt startedMono) = some t)
    (hnone : s.cells[i]? = none) (hc : t.cells[i]? = some c) :
    c.record.request = requestMetadata input s.policy := by
  obtain ⟨u, hact, rfl⟩ := Option.map_eq_some_iff.1 hstep
  cases hact
  obtain ⟨c', hc', heq, -⟩ := (reaped_reap _).cells.get_right hc
  rw [heq]
  change c'.record.request = _
  unfold tryStart at hc'
  split at hc'
  · rw [hnone] at hc'
    cases hc'
  dsimp only at hc'
  split at hc'
  · rw [hnone] at hc'
    cases hc'
  split at hc' <;>
  · rw [List.getElem?_append_right (List.getElem?_eq_none_iff.1 hnone)] at hc'
    rw [List.mem_singleton.1 (List.mem_of_getElem? hc')]
    rfl

end CaptureSystem

end Fluxcope.Capture
