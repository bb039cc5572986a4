import Fluxcope.Capture.StepSpec
/-!
# Conservation of the capture budget

The counter of the shared budget is what the live leases have reserved, in all
runs of the capture system.  The invariant also says how a lease is made up:
what the record counts, and for each body its bytes and its chunk nodes.
-/

namespace Fluxcope.Capture

open Fluxcope.Library Fluxcope.Library.Utf8

/-- The cost of a body: its bytes, and a node for each sealed chunk. -/
def bodyCharge (body : BodyCapture) : Nat :=
  body.status.retainedBytes + bodyChunkNodeOverhead * body.canonicalTail.length

/-! ## What one operation adds -/

/-- An operation reserved `bytes` more, of which each body took its `extra`. -/
structure RecordScope.Grown (before after : RecordScope) (bytes : Nat)
    (extra : BodySide → Nat) : Prop where
  lease : after.lease = { before.lease with reserved := before.lease.reserved + bytes }
  budget : after.budget = { before.budget with used := before.budget.used + bytes }
  available : bytes ≤ before.available
  retained : after.record.retainedBytes = before.record.retainedBytes + bytes
  chunked : ∀ side, (after.record.body side).Chunked
  body : ∀ side, bodyCharge (after.record.body side) =
    bodyCharge (before.record.body side) + extra side
  extra_le : extra .request + extra .response ≤ bytes

namespace RecordScope

theorem Grown.refl {scope : RecordScope} (h : scope.Sound) : Grown scope scope 0 fun _ => 0 :=
  ⟨rfl, rfl, Nat.zero_le _, rfl, h.chunked, fun _ => rfl, Nat.zero_le _⟩

/-- The shape every effective operation has. -/
theorem grown_of_charge {scope : RecordScope} {record : CaptureRecord} {bytes : Nat}
    {extra : BodySide → Nat} (havailable : bytes ≤ scope.available)
    (hretained : record.retainedBytes = scope.record.retainedBytes)
    (hchunked : ∀ side, (record.body side).Chunked)
    (hbody : ∀ side, bodyCharge (record.body side) =
      bodyCharge (scope.record.body side) + extra side)
    (hextra : extra .request + extra .response ≤ bytes) :
    Grown scope ({ scope with record }.charge bytes).bumpRevision bytes extra where
  lease := by rw [bumpRevision_lease]; rfl
  budget := by rw [bumpRevision_budget]; rfl
  available := havailable
  retained := by rw [bumpRevision_record]; simp only [charge, lend, hretained]
  chunked side := by rw [body_bumpRevision, body_charge]; exact hchunked side
  body side := by rw [body_bumpRevision, body_charge]; exact hbody side
  extra_le := hextra

theorem grown_setResponse {scope : RecordScope} (h : scope.Sound) (policy : CapturePolicy)
    (input : ResponseCaptureInput) (instant : Nat) :
    ∃ bytes, Grown scope (CaptureHandle.setResponseAt scope policy input instant) bytes
      fun _ => 0 := by
  obtain ⟨response, truncated, charged, -, ⟨-, havailable⟩, heq⟩ :=
    setResponse_spec h policy input instant
  rw [heq]
  split
  · refine ⟨charged, grown_of_charge havailable rfl ?_ ?_ (Nat.zero_le _)⟩
    · rintro (_ | _)
      · exact h.chunked .request
      · exact ⟨(h.chunked .response).trailing_lt, (h.chunked .response).chunk_length⟩
    · rintro (_ | _) <;> rfl
  · exact ⟨0, .refl h⟩

theorem bodyCharge_keep {body : BodyCapture} (h : body.Chunked) {bytes : Bytes}
    {charge : Nat × Nat} (hle : charge.1 ≤ bytes.length)
    (hcost : charge.2 = charge.1 + bodyChunkNodeOverhead *
      ((body.trailing.length + charge.1) / bodyChunkBytes))
    (previewLimit : Option BodyPreviewLimit) :
    bodyCharge (keep body bytes charge.1 previewLimit) = bodyCharge body + charge.2 := by
  have hchunks := (appended_keep h bytes charge.1 previewLimit).chunks
  rw [List.length_take, Nat.min_eq_left hle] at hchunks
  unfold bodyCharge
  change body.status.retainedBytes + charge.1 + bodyChunkNodeOverhead *
    (keep body bytes charge.1 previewLimit).canonicalTail.length = _
  rw [show (keep body bytes charge.1 previewLimit).canonicalTail.length =
    body.canonicalTail.length + (body.trailing.length + charge.1) / bodyChunkBytes from hchunks,
    hcost, Nat.mul_add]
  omega

theorem grown_append {scope : RecordScope} (h : scope.Sound) (side : BodySide)
    (bytes : Bytes) (perBodyLimit : Nat) :
    ∃ charged, Grown scope (scope.appendBody side bytes perBodyLimit).2 charged
      fun other => if other = side then charged else 0 := by
  obtain ⟨previewLimit, heq⟩ := append_spec h side bytes perBodyLimit
  obtain ⟨hle, havailable, hcost⟩ := appendCharge_spec h side bytes perBodyLimit
  have hkept := appended_keep (h.chunked side) bytes
    (scope.appendCharge side bytes perBodyLimit).1 previewLimit
  have hobserved : (observe (scope.record.body side) bytes).Chunked :=
    ⟨(h.chunked side).trailing_lt, (h.chunked side).chunk_length⟩
  rw [heq]
  split
  · exact ⟨0, by simpa using Grown.refl h⟩
  split
  · refine ⟨0, rfl, rfl, Nat.zero_le _, rfl, ?_, ?_, by simp⟩
    · exact CaptureRecord.forall_body_setBody hobserved fun other _ => h.chunked other
    · refine CaptureRecord.forall_body_setBody (P := fun other body =>
        bodyCharge body = bodyCharge (scope.record.body other) + if other = side then 0 else 0)
        ?_ fun other _ => by simp
      simp [bodyCharge, observe]
  · refine ⟨_, grown_of_charge havailable rfl ?_ ?_ ?_⟩
    · exact CaptureRecord.forall_body_setBody
        ⟨hkept.chunked.trailing_lt, hkept.chunked.chunk_length⟩ fun other _ => h.chunked other
    · refine CaptureRecord.forall_body_setBody (P := fun other body =>
        bodyCharge body = bodyCharge (scope.record.body other) + if other = side then _ else 0)
        ?_ fun other hother => by rw [if_neg hother, Nat.add_zero]
      rw [if_pos rfl]
      exact bodyCharge_keep (h.chunked side) hle hcost previewLimit
    · cases side <;> simp

theorem bodyCharge_ended (body : BodyCapture) (terminal : BodyTerminal) :
    bodyCharge (ended body terminal) = bodyCharge body := by
  unfold bodyCharge ended
  rw [BodyCapture.seal_status, BodyCapture.seal_canonicalTail]
  cases terminal <;> rfl

theorem chunked_ended {body : BodyCapture} (h : body.Chunked) (terminal : BodyTerminal) :
    (ended body terminal).Chunked :=
  BodyCapture.Chunked.seal ⟨h.trailing_lt, h.chunk_length⟩

theorem grown_finish {scope : RecordScope} (h : scope.Sound) (side : BodySide)
    (terminal : BodyTerminal) (instant : Nat) :
    Grown scope (CaptureHandle.finish scope side terminal instant) 0 fun _ => 0 := by
  rw [finish_spec]
  split
  · exact .refl h
  · rw [← charge_zero { scope with record := _ }]
    refine @grown_of_charge _ _ _ (fun _ => 0) (Nat.zero_le _) rfl (fun other => ?_)
      (fun other => ?_) le_rfl
    · rw [CaptureRecord.body_setTerminalAt]
      exact CaptureRecord.forall_body_setBody (chunked_ended (h.chunked side) terminal)
        (fun other _ => h.chunked other) other
    · rw [CaptureRecord.body_setTerminalAt]
      exact CaptureRecord.forall_body_setBody (P := fun other body =>
        bodyCharge body = bodyCharge (scope.record.body other) + 0)
        (bodyCharge_ended _ terminal) (fun _ _ => rfl) other

end RecordScope

/-! ## The invariant -/

/-- How the lease of a capture is made up. -/
structure CaptureCell.Accounted (cell : CaptureCell) : Prop where
  exact : cell.lease.underflowed = false
  retained : cell.record.retainedBytes = cell.lease.reserved
  chunked : ∀ side, (cell.record.body side).Chunked
  charged : ∀ side, cell.charged side = bodyCharge (cell.record.body side)
  paid : cell.charged .request + cell.charged .response ≤ cell.lease.reserved

/-- What a capture has of the budget. -/
def CaptureCell.liveBytes (cell : CaptureCell) : Nat :=
  if cell.leaseLive then cell.lease.reserved else 0

namespace CaptureSystem

/-- The invariant inside an action. -/
structure Balanced (s : CaptureSystem) : Prop where
  accounted : ∀ (i : Nat) (cell : CaptureCell), s.cells[i]? = some cell → cell.Accounted
  used : s.budget.used = (s.cells.map CaptureCell.liveBytes).sum
  bounded : s.budget.Bounded
  exact : s.budget.underflowed = false
  limit : s.budget.limit = s.policy.totalRetainedBytes
  live : ∀ (i : Nat) (cell : CaptureCell), s.cells[i]? = some cell → 0 < s.references i cell → cell.leaseLive

/-- The invariant between two actions: a lease lives as long as it is referred to. -/
structure Conserved (s : CaptureSystem) : Prop extends Balanced s where
  dropped : ∀ (i : Nat) (cell : CaptureCell), s.cells[i]? = some cell → cell.leaseLive → 0 < s.references i cell

theorem conserved_new (policy : CapturePolicy) (retention : CaptureRetentionPolicy) :
    Conserved (new policy retention) where
  accounted := by simp [new]
  used := rfl
  bounded := Nat.zero_le _
  exact := rfl
  limit := rfl
  live := by simp [new]
  dropped := by simp [new]

theorem liveBytes_le_used {s : CaptureSystem} (h : Balanced s) {i : CaptureSequence}
    {cell : CaptureCell} (hcell : s.cells[i]? = some cell) :
    cell.liveBytes ≤ s.budget.used := by
  rw [h.used]
  exact List.single_le_sum (fun _ _ => Nat.zero_le _) _
    (List.mem_map_of_mem (List.mem_of_getElem? hcell))

/-- The scope of a live record is one the operations are specified for. -/
theorem Balanced.sound {s : CaptureSystem} (h : Balanced s) {i : CaptureSequence}
    {cell : CaptureCell} (hcell : s.cells[i]? = some cell) (hlive : cell.leaseLive = true) :
    (s.scope cell).Sound := by
  have hcellOk := h.accounted i cell hcell
  have hpaid := hcellOk.paid
  have hle := liveBytes_le_used h hcell
  unfold CaptureCell.liveBytes at hle
  rw [if_pos hlive] at hle
  refine ⟨h.bounded, hle, fun side => ?_, hcellOk.chunked⟩
  have hcharged := hcellOk.charged side
  unfold bodyCharge at hcharged
  cases side <;> simp only [scope] <;> omega

/-- References never come from nothing. -/
def RefsKept (s u : CaptureSystem) : Prop :=
  ∀ (i : Nat) (c c' : CaptureCell), s.cells[i]? = some c → u.cells[i]? = some c' →
    0 < u.references i c' → 0 < s.references i c

theorem Balanced.quiet {s u : CaptureSystem} (h : Balanced s) (hquiet : Quiet s u)
    (hrefs : RefsKept s u) : Balanced u where
  accounted i c' hc' := by
    obtain ⟨c, hc, hsame⟩ := hquiet.cells.get_right hc'
    have hok := h.accounted i c hc
    have hcharged : ∀ side, c'.charged side = c.charged side := by
      rintro (_ | _)
      · exact hsame.requestCharged
      · exact hsame.responseCharged
    refine ⟨?_, ?_, fun side => ?_, fun side => ?_, ?_⟩
    · rw [hsame.lease, hok.exact]
    · rw [hsame.lease, hsame.content.retainedBytes, hok.retained]
    · rw [hsame.content.body]
      exact hok.chunked side
    · rw [hsame.content.body, hcharged, hok.charged]
    · rw [hcharged, hcharged, hsame.lease]
      exact hok.paid
  used := by
    rw [hquiet.budget, h.used]
    refine congrArg List.sum (hquiet.cells.map_eq fun c c' hsame => ?_)
    unfold CaptureCell.liveBytes
    rw [hsame.lease, hsame.leaseLive]
  bounded := by
    rw [hquiet.budget]
    exact h.bounded
  exact := by rw [hquiet.budget, h.exact]
  limit := by rw [hquiet.budget, hquiet.policy, h.limit]
  live i c' hc' hpos := by
    obtain ⟨c, hc, hsame⟩ := hquiet.cells.get_right hc'
    rw [hsame.leaseLive]
    exact h.live i c hc (hrefs i c c' hc hc' hpos)

end CaptureSystem

end Fluxcope.Capture
