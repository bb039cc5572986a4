import Fluxcope.Capture.Record
/-!
# What the record operations do

One theorem for each operation of a handle: either it leaves everything as it
is, or it charges an amount to the record, its lease and the budget alike,
changes the record and ends in the next revision.
-/

namespace Fluxcope.Capture

open Fluxcope.Library Fluxcope.Library.Utf8

theorem BodyCapture.Appended.withStatus {body result : BodyCapture} {bytes : Bytes}
    {status : BodyStatus} (h : Appended { body with status } bytes result) :
    Appended body bytes { result with status := body.status } where
  status := rfl
  sealedTrailing := h.sealedTrailing
  chunked := ⟨h.chunked.trailing_lt, h.chunked.chunk_length⟩
  content := h.content
  chunks := h.chunks

namespace CaptureRecord

@[simp] theorem body_setBody_same (record : CaptureRecord) (side : BodySide)
    (body : BodyCapture) : (record.setBody side body).body side = body := by
  cases side <;> rfl

theorem body_setBody_other (record : CaptureRecord) {side other : BodySide}
    (h : other ≠ side) (body : BodyCapture) :
    (record.setBody side body).body other = record.body other := by
  cases side <;> cases other <;> first | rfl | exact absurd rfl h

/-- What holds of the new body and of the other one holds of both. -/
theorem forall_body_setBody {P : BodySide → BodyCapture → Prop} {record : CaptureRecord}
    {side : BodySide} {body : BodyCapture} (hside : P side body)
    (hother : ∀ other, other ≠ side → P other (record.body other)) (other : BodySide) :
    P other ((record.setBody side body).body other) := by
  by_cases h : other = side
  · subst h
    rw [body_setBody_same]
    exact hside
  · rw [body_setBody_other _ h]
    exact hother other h

@[simp] theorem body_setTerminalAt (record : CaptureRecord) (side other : BodySide)
    (instant : Nat) : (record.setTerminalAt side instant).body other = record.body other := by
  cases side <;> cases other <;> rfl

@[simp] theorem terminalAt_setBody (record : CaptureRecord) (side other : BodySide)
    (body : BodyCapture) : (record.setBody side body).terminalAt other = record.terminalAt other := by
  cases side <;> cases other <;> rfl

theorem terminalAt_setTerminalAt_other (record : CaptureRecord) {side other : BodySide}
    (h : other ≠ side) (instant : Nat) :
    (record.setTerminalAt side instant).terminalAt other = record.terminalAt other := by
  cases side <;> cases other <;> first | rfl | exact absurd rfl h

/-- Neither removed from the store nor answered yet. -/
def acceptsResponse (record : CaptureRecord) : Bool :=
  !(record.captureDisabled || record.responseStarted)

end CaptureRecord

namespace RecordScope

/-- The lease holds part of what the budget has given out, the budget is within
its limit, and the bodies are cut in chunks and paid for. -/
structure Sound (scope : RecordScope) : Prop where
  bounded : scope.budget.Bounded
  reserved_le : scope.lease.reserved ≤ scope.budget.used
  retained_le : ∀ side, (scope.record.body side).status.retainedBytes ≤ scope.lease.reserved
  chunked : ∀ side, (scope.record.body side).Chunked

/-- What the budget can still give out. -/
def available (scope : RecordScope) : Nat := scope.budget.limit - scope.budget.used

/-- `bytes` more are reserved, by the lease and in the budget. -/
def lend (scope : RecordScope) (bytes : Nat) : RecordScope :=
  { scope with
    lease := { scope.lease with reserved := scope.lease.reserved + bytes }
    budget := { scope.budget with used := scope.budget.used + bytes } }

/-- `bytes` more are reserved and counted by the record. -/
def charge (scope : RecordScope) (bytes : Nat) : RecordScope :=
  { scope.lend bytes with
    record := { scope.record with retainedBytes := scope.record.retainedBytes + bytes } }

@[simp] theorem lend_zero (scope : RecordScope) : scope.lend 0 = scope := rfl

@[simp] theorem charge_zero (scope : RecordScope) : scope.charge 0 = scope := rfl

@[simp] theorem bumpRevision_lease (scope : RecordScope) :
    scope.bumpRevision.lease = scope.lease := by
  unfold bumpRevision
  dsimp only
  split <;> rfl

@[simp] theorem bumpRevision_budget (scope : RecordScope) :
    scope.bumpRevision.budget = scope.budget := by
  unfold bumpRevision
  dsimp only
  split <;> rfl

@[simp] theorem bumpRevision_record (scope : RecordScope) :
    scope.bumpRevision.record =
      { scope.record with revision := scope.record.revision + 1 } := by
  unfold bumpRevision
  dsimp only
  split <;> rfl

@[simp] theorem body_bumpRevision (scope : RecordScope) (side : BodySide) :
    scope.bumpRevision.record.body side = scope.record.body side := by
  rw [bumpRevision_record]
  cases side <;> rfl

@[simp] theorem terminalAt_bumpRevision (scope : RecordScope) (side : BodySide) :
    scope.bumpRevision.record.terminalAt side = scope.record.terminalAt side := by
  rw [bumpRevision_record]
  cases side <;> rfl

@[simp] theorem body_charge (scope : RecordScope) (bytes : Nat) (side : BodySide) :
    (scope.charge bytes).record.body side = scope.record.body side := by
  cases side <;> rfl

@[simp] theorem terminalAt_charge (scope : RecordScope) (bytes : Nat) (side : BodySide) :
    (scope.charge bytes).record.terminalAt side = scope.record.terminalAt side := by
  cases side <;> rfl

theorem bumpRevision_feed (scope : RecordScope) :
    scope.bumpRevision.feed =
      if scope.record.feedBound then
        scope.feed.publish scope.record.sequence (scope.record.revision + 1) .recordUpdated
      else scope.feed := by
  unfold bumpRevision
  dsimp only
  split <;> rfl

theorem reserveMetadata_eq {scope : RecordScope} (h : scope.Sound) (requested : Nat) :
    scope.reserveMetadata requested =
      (min requested scope.available, scope.lend (min requested scope.available)) := by
  unfold reserveMetadata CaptureBudgetLease.reserveUpTo
  rw [CaptureMemoryBudget.reserveUpTo_eq h.bounded]
  rfl

theorem releaseMetadata_lend {scope : RecordScope} {lent released : Nat}
    (h : scope.Sound) (hle : released ≤ lent) :
    (scope.lend lent).releaseMetadata released = scope.lend (lent - released) := by
  have hreserved := h.reserved_le
  unfold releaseMetadata
  rw [CaptureBudgetLease.release_eq (by simp only [lend]; omega) (by simp only [lend]; omega)]
  simp only [lend, Nat.add_sub_assoc hle]

/-! ## `set_response` -/

theorem setResponseAt_lend (scope : RecordScope) (lent : Nat)
    (response : Option ResponseMetadata) (truncated : Bool) (instant : Nat) :
    (scope.lend lent).setResponseAt response truncated lent instant =
      if scope.record.acceptsResponse then
        (true, ({ scope with record := scope.record.respond response truncated instant }.charge
          lent).bumpRevision)
      else (false, scope.lend lent) := by
  unfold setResponseAt CaptureRecord.acceptsResponse
  dsimp only [lend]
  cases scope.record.captureDisabled || scope.record.responseStarted <;> rfl

/-- A handle's `set_response`: ignored, or the record responds and is charged for
what is kept of the head and for no more, also where less was free than was asked for.
Nothing is kept exactly when 64 bytes are not free. -/
theorem setResponse_spec {scope : RecordScope} (h : scope.Sound) (policy : CapturePolicy)
    (input : ResponseCaptureInput) (instant : Nat) :
    ∃ response truncated charged,
      (charged = 0 ↔ scope.available < 64) ∧
      (charged = (response.map responseMetadataBytes).getD 0 ∧ charged ≤ scope.available) ∧
      CaptureHandle.setResponseAt scope policy input instant =
        if scope.record.acceptsResponse then
          ({ scope with record := scope.record.respond response truncated instant }.charge
            charged).bumpRevision
        else scope := by
  unfold CaptureHandle.setResponseAt
  dsimp only
  rw [reserveMetadata_eq h]
  set requested := satAdd 64 (measureHeaders input.headers policy.headerBytesPerSide).retainedBytes
    with hrequested
  have hfixed : 64 ≤ requested := le_satAdd_left (by decide)
  set reserved := min requested scope.available with hreserved
  dsimp only
  by_cases hsmall : reserved < 64
  · -- the fixed part does not fit: everything is given back, no head is kept
    rw [if_pos hsmall]
    refine ⟨none, true, 0, by omega, ⟨rfl, Nat.zero_le _⟩, ?_⟩
    simp only [releaseMetadata_lend h le_rfl, Nat.sub_self, setResponseAt_lend, Bool.or_true]
    cases scope.record.acceptsResponse
    · rfl
    · rfl
  · rw [if_neg hsmall]
    have hactual := @responseMetadataBytes_le input reserved
      (min (reserved - 64) policy.headerBytesPerSide) (by omega) (by omega)
    rcases hmetadata : responseMetadata input (min (reserved - 64) policy.headerBytesPerSide)
      with ⟨response, truncated⟩
    rw [hmetadata] at hactual
    have hpos := responseMetadataBytes_pos response
    dsimp only at hactual ⊢
    set actual := responseMetadataBytes response
    refine ⟨some response, (measureHeaders input.headers policy.headerBytesPerSide).truncated ||
      decide (reserved < requested) || truncated, actual, by omega, ⟨rfl, by omega⟩, ?_⟩
    by_cases hless : actual < reserved
    · rw [if_pos hless]
      dsimp only
      rw [releaseMetadata_lend h (by omega), show reserved - (reserved - actual) = actual by omega,
        setResponseAt_lend]
      cases scope.record.acceptsResponse
      · exact (releaseMetadata_lend h le_rfl).trans (by simp)
      · rfl
    · rw [if_neg hless]
      dsimp only
      have hexact : actual = reserved := by omega
      rw [hexact, setResponseAt_lend]
      cases scope.record.acceptsResponse
      · exact (releaseMetadata_lend h le_rfl).trans (by simp)
      · rfl

/-! ## `append` -/

/-- The body before the bytes are stored: they have been seen. -/
def observe (body : BodyCapture) (bytes : Bytes) : BodyCapture :=
  { body with
    status :=
      { body.status with
        stream := .streaming
        observedBytes := satAdd body.status.observedBytes bytes.length } }

/-- How many of the bytes are kept and what they cost. -/
def appendCharge (scope : RecordScope) (side : BodySide) (bytes : Bytes)
    (perBodyLimit : Nat) : Nat × Nat :=
  let body := scope.record.body side
  let requested :=
    if body.status.previewLimit.isSome then 0
    else min bytes.length (perBodyLimit - body.status.retainedBytes)
  bodyPrefixCharge requested body.trailing.length scope.available

/-- The side takes no more bytes, or there are none. -/
def ignoresAppend (scope : RecordScope) (side : BodySide) (bytes : Bytes) : Bool :=
  (scope.record.body side).status.stream.isTerminal || bytes.isEmpty

/-- The body after the bytes have been seen and the first `retained` of them stored. -/
def keep (body : BodyCapture) (bytes : Bytes) (retained : Nat)
    (previewLimit : Option BodyPreviewLimit) : BodyCapture :=
  { (observe body bytes).append (bytes.take retained) with
    status :=
      { (observe body bytes).status with
        retainedBytes := body.status.retainedBytes + retained
        previewLimit } }

theorem appended_keep {body : BodyCapture} (h : body.Chunked) (bytes : Bytes)
    (retained : Nat) (previewLimit : Option BodyPreviewLimit) :
    BodyCapture.Appended body (bytes.take retained)
      { keep body bytes retained previewLimit with status := body.status } :=
  (@BodyCapture.append_spec (observe body bytes) ⟨h.trailing_lt, h.chunk_length⟩
    (bytes.take retained)).withStatus

theorem appendCharge_spec {scope : RecordScope} (h : scope.Sound) (side : BodySide)
    (bytes : Bytes) (perBodyLimit : Nat) :
    (scope.appendCharge side bytes perBodyLimit).1 ≤ bytes.length ∧
      (scope.appendCharge side bytes perBodyLimit).2 ≤ scope.available ∧
      (scope.appendCharge side bytes perBodyLimit).2 =
        (scope.appendCharge side bytes perBodyLimit).1 + bodyChunkNodeOverhead *
          (((scope.record.body side).trailing.length +
            (scope.appendCharge side bytes perBodyLimit).1) / bodyChunkBytes) := by
  have hlimit := scope.budget.limit_le
  have hspec := @bodyPrefixCharge_spec
    (if (scope.record.body side).status.previewLimit.isSome then 0
    else min bytes.length (perBodyLimit - (scope.record.body side).status.retainedBytes)) _ _
    (h.chunked side).trailing_lt (show scope.available ≤ wordMax by unfold available; omega)
  refine ⟨hspec.1.trans ?_, hspec.2.1, hspec.2.2⟩
  split
  · exact Nat.zero_le _
  · exact Nat.min_le_left _ _

theorem retainPrefix_observe {body : BodyCapture} {bytes : Bytes} {retained : Nat}
    (h : body.Chunked) (hbound : body.status.retainedBytes + retained ≤ wordMax) :
    retainPrefix (observe body bytes) bytes retained =
      keep body bytes retained body.status.previewLimit := by
  have hstatus : ((observe body bytes).append (bytes.take retained)).status =
      (observe body bytes).status :=
    (@BodyCapture.append_spec (observe body bytes)
      ⟨h.trailing_lt, h.chunk_length⟩ _).status
  have hsum : satAdd (observe body bytes).status.retainedBytes retained =
      body.status.retainedBytes + retained := satAdd_eq hbound
  unfold retainPrefix keep
  by_cases hzero : retained = 0
  · subst hzero
    rfl
  · simp only [if_pos (Nat.pos_of_ne_zero hzero), hstatus, hsum]
    rfl

theorem reserveBodyPrefix_eq {scope : RecordScope} (h : scope.Sound) (side : BodySide)
    (requested : Nat) :
    scope.lease.reserveBodyPrefix scope.budget requested
        (scope.record.body side).trailing.length =
      (bodyPrefixCharge requested (scope.record.body side).trailing.length scope.available,
        (scope.lend (bodyPrefixCharge requested (scope.record.body side).trailing.length
          scope.available).2).lease,
        (scope.lend (bodyPrefixCharge requested (scope.record.body side).trailing.length
          scope.available).2).budget) := by
  unfold CaptureBudgetLease.reserveBodyPrefix
  rw [CaptureMemoryBudget.reserveBodyPrefix_eq h.bounded _ (h.chunked side).trailing_lt]
  rfl

/-- How many of the bytes may be kept as far as the limits of the side go. -/
def requestedBytes (body : BodyCapture) (bytes : Bytes) (perBodyLimit : Nat) : Nat :=
  if body.status.previewLimit.isSome then 0
  else min bytes.length (perBodyLimit - body.status.retainedBytes)

/-- The limit of the side once `retained` of the bytes are kept. -/
def limitAfter (body : BodyCapture) (bytes : Bytes) (perBodyLimit retained : Nat) :
    Option BodyPreviewLimit :=
  body.status.previewLimit.or
    (if retained < requestedBytes body bytes perBodyLimit then some .totalMemoryLimit
    else if requestedBytes body bytes perBodyLimit < bytes.length then some .perBodyLimit
    else none)

theorem noteLimit_keep (body : BodyCapture) (bytes : Bytes) (perBodyLimit retained : Nat) :
    (noteLimit (keep body bytes retained body.status.previewLimit) bytes.length
      (requestedBytes body bytes perBodyLimit) retained).1 =
      keep body bytes retained (limitAfter body bytes perBodyLimit retained) := by
  have hlimit : (keep body bytes retained body.status.previewLimit).status.previewLimit =
      body.status.previewLimit := rfl
  unfold noteLimit limitAfter
  dsimp only
  rw [hlimit]
  generalize hnew : body.status.previewLimit.or
      (if retained < requestedBytes body bytes perBodyLimit then
        some BodyPreviewLimit.totalMemoryLimit
      else if requestedBytes body bytes perBodyLimit < bytes.length then some .perBodyLimit
      else none) = limit
  cases limit with
  | none => rw [(Option.or_eq_none_iff.1 hnew).1]
  | some limit => rfl

/-- The body after an append that is not ignored, with `available` bytes in the budget. -/
def appended (body : BodyCapture) (bytes : Bytes) (perBodyLimit available : Nat) : BodyCapture :=
  let retained := (bodyPrefixCharge (requestedBytes body bytes perBodyLimit)
    body.trailing.length available).1
  keep body bytes retained (limitAfter body bytes perBodyLimit retained)

/-- An append: ignored, or only counted once the record has left the store, or
kept as far as the limits and the budget go. -/
theorem append_eq {scope : RecordScope} (h : scope.Sound) (side : BodySide)
    (bytes : Bytes) (perBodyLimit : Nat) :
    (scope.appendBody side bytes perBodyLimit).2 =
      if scope.ignoresAppend side bytes then scope
      else if scope.record.captureDisabled then
        { scope with
          record := scope.record.setBody side (observe (scope.record.body side) bytes) }
      else
        ({ scope with
          record := scope.record.setBody side (appended (scope.record.body side) bytes
            perBodyLimit scope.available) }.charge
          (scope.appendCharge side bytes perBodyLimit).2).bumpRevision := by
  have hcharge := appendCharge_spec h side bytes perBodyLimit
  have hbound : (scope.record.body side).status.retainedBytes +
      (scope.appendCharge side bytes perBodyLimit).1 ≤ wordMax := by
    have hlimit := scope.budget.limit_le
    have hretained := h.retained_le side
    have hreserved := h.reserved_le
    have hbounded := h.bounded
    unfold CaptureMemoryBudget.Bounded at hbounded
    unfold available at hcharge
    omega
  have hnoted := noteLimit_keep (scope.record.body side) bytes perBodyLimit
    (scope.appendCharge side bytes perBodyLimit).1
  rw [← retainPrefix_observe (h.chunked side) hbound] at hnoted
  have hpaid : (if (scope.appendCharge side bytes perBodyLimit).1 > 0 then
      (scope.appendCharge side bytes perBodyLimit).2 else 0) =
        (scope.appendCharge side bytes perBodyLimit).2 := by
    split
    · rfl
    · rename_i hnone
      have hzero : (scope.appendCharge side bytes perBodyLimit).1 = 0 := by omega
      rw [hcharge.2.2, hzero, Nat.add_zero, Nat.div_eq_of_lt (h.chunked side).trailing_lt]
      rfl
  unfold ignoresAppend appendBody
  by_cases hignored :
      ((scope.record.body side).status.stream.isTerminal || bytes.isEmpty) = true
  · simp only [if_pos hignored]
  by_cases hdisabled : scope.record.captureDisabled = true
  · simp only [if_neg hignored, if_pos hdisabled]
    rfl
  simp only [if_neg hignored, if_neg hdisabled]
  rw [reserveBodyPrefix_eq h side]
  unfold appendCharge at hpaid hnoted ⊢
  unfold appended
  unfold requestedBytes at hnoted ⊢
  dsimp only at hpaid hnoted ⊢
  rw [hpaid, ← hnoted]
  rfl

theorem append_spec {scope : RecordScope} (h : scope.Sound) (side : BodySide)
    (bytes : Bytes) (perBodyLimit : Nat) :
    ∃ previewLimit, (scope.appendBody side bytes perBodyLimit).2 =
      if scope.ignoresAppend side bytes then scope
      else if scope.record.captureDisabled then
        { scope with
          record := scope.record.setBody side (observe (scope.record.body side) bytes) }
      else
        ({ scope with
          record := scope.record.setBody side (keep (scope.record.body side) bytes
            (scope.appendCharge side bytes perBodyLimit).1 previewLimit) }.charge
          (scope.appendCharge side bytes perBodyLimit).2).bumpRevision :=
  ⟨_, append_eq h side bytes perBodyLimit⟩

/-! ## `complete`, `fail` and `cancel` -/

/-- The body of a side that ends. -/
def ended (body : BodyCapture) (terminal : BodyTerminal) : BodyCapture :=
  { body with status := terminate body.status terminal }.seal

theorem finish_spec (scope : RecordScope) (side : BodySide) (terminal : BodyTerminal)
    (instant : Nat) :
    CaptureHandle.finish scope side terminal instant =
      if (scope.record.body side).status.stream.isTerminal then scope
      else
        { scope with
          record := (scope.record.setBody side
            (ended (scope.record.body side) terminal)).setTerminalAt side instant }.bumpRevision := by
  unfold CaptureHandle.finish finishBodyAt
  dsimp only
  split <;> rfl

end RecordScope

end Fluxcope.Capture
