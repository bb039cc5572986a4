import Fluxcope.Capture.Metadata
import Fluxcope.Library.Utf8Lossy
import Mathlib.Order.Bounds.Basic
/-!
# Metadata is measured as it is stored

The measuring traversals and the capturing ones keep the same fields, cut the same texts and
count the same bytes, so what is reserved is what the stored head takes up.
-/

namespace Fluxcope.Capture

open Fluxcope.Library Fluxcope.Library.Utf8

def requestMetadataBytes (request : RequestMetadata) : Nat :=
  satAdd (satAdd (satAdd (satAdd 256 request.originalUri.length) request.effectiveUri.length)
    ((request.localPath.map List.length).getD 0)) (headersBytes request.headers)

/-! ## Texts -/

/-- Decoding stops at the first error with a replacement, or goes on behind it. -/
theorem fromUtf8Lossy_of_error {bytes : Bytes} {error : Utf8Error}
    (h : fromUtf8 bytes = some error) :
    error.validUpTo ≤ bytes.length ∧
    match error.errorLen with
    | none => (fromUtf8Lossy bytes).length = error.validUpTo + replacement.length
    | some errorLen =>
      ((bytes.drop error.validUpTo).drop errorLen).length < bytes.length ∧
      (fromUtf8Lossy bytes).length = error.validUpTo + replacement.length +
        (fromUtf8Lossy ((bytes.drop error.validUpTo).drop errorLen)).length := by
  obtain ⟨text, rest, rfl, hvalid, hlength, hfront⟩ := fromUtf8_error h
  rw [hlength, List.drop_left, fromUtf8Lossy_valid_append hvalid]
  refine ⟨by rw [List.length_append]; omega, ?_⟩
  cases herror : error.errorLen with
  | none =>
    rw [herror] at hfront
    dsimp only
    rw [fromUtf8Lossy_cut hfront, List.length_append]
  | some errorLen =>
    rw [herror] at hfront
    obtain ⟨-, hpos, hle⟩ := front_malformed_append hfront []
    have hlossy := fromUtf8Lossy_malformed hfront []
    rw [List.append_nil, List.append_nil] at hlossy
    dsimp only
    rw [hlossy, List.length_append, List.length_append, List.length_append, List.length_drop]
    omega

theorem lossyUtf8LenLoop_eq {fuel length : Nat} {bytes : Bytes} (hfuel : bytes.length < fuel) :
    lossyUtf8LenLoop fuel length bytes = satAdd length (fromUtf8Lossy bytes).length := by
  induction fuel generalizing length bytes with
  | zero => exact absurd hfuel (Nat.not_lt_zero _)
  | succ fuel ih =>
    rw [lossyUtf8LenLoop]
    cases herror : fromUtf8 bytes with
    | none => rw [fromUtf8Lossy_of_valid (fromUtf8_eq_none_iff.1 herror)]
    | some error =>
      have hlossy := (fromUtf8Lossy_of_error herror).2
      dsimp only
      cases hlen : error.errorLen with
      | none =>
        rw [hlen] at hlossy
        dsimp only at hlossy ⊢
        rw [hlossy, satAdd_satAdd]
      | some errorLen =>
        rw [hlen] at hlossy
        dsimp only at hlossy ⊢
        rw [ih (by omega), hlossy.2, satAdd_satAdd, satAdd_satAdd, Nat.add_assoc]

theorem lossyUtf8Len_eq (bytes : Bytes) :
    lossyUtf8Len bytes = satAdd 0 (fromUtf8Lossy bytes).length :=
  lossyUtf8LenLoop_eq (Nat.lt_succ_self _)

theorem boundaryAtOrBelow_greatest (value : Bytes) (stop : Nat) :
    IsGreatest {n | n ≤ stop ∧ isCharBoundary value n = true} (boundaryAtOrBelow value stop) := by
  induction stop with
  | zero => exact ⟨⟨Nat.le_refl 0, rfl⟩, fun n hn => hn.1⟩
  | succ stop ih =>
    rw [boundaryAtOrBelow]
    split
    · rename_i hboundary
      exact ⟨⟨Nat.le_refl _, hboundary⟩, fun n hn => hn.1⟩
    · rename_i hinside
      refine ⟨⟨Nat.le_succ_of_le ih.1.1, ih.1.2⟩, fun n hn => ih.2 ⟨?_, hn.2⟩⟩
      refine Nat.le_of_lt_succ (Nat.lt_of_le_of_ne hn.1 ?_)
      rintro rfl
      exact hinside hn.2

/-- A cut text is as long as the limit allows for a cut between characters. -/
theorem truncatedUtf8Len_greatest (value : Bytes) (limit : Nat) :
    IsGreatest {n | n ≤ limit ∧ n ≤ value.length ∧ isCharBoundary value n = true}
      (truncatedUtf8Len value limit).1 := by
  unfold truncatedUtf8Len
  split
  · rename_i hfits
    refine ⟨⟨hfits, Nat.le_refl _, ?_⟩, fun n hn => hn.2.1⟩
    unfold isCharBoundary
    rw [beq_self_eq_true, Bool.or_true, Bool.true_or]
  · obtain ⟨⟨hle, hboundary⟩, hgreatest⟩ :=
      boundaryAtOrBelow_greatest value (min limit value.length)
    exact ⟨⟨hle.trans (Nat.min_le_left _ _), hle.trans (Nat.min_le_right _ _), hboundary⟩,
      fun n hn => hgreatest ⟨Nat.le_min.2 ⟨hn.1, hn.2.1⟩, hn.2.2⟩⟩

theorem truncateUtf8_length (value : Bytes) (limit : Nat) :
    (truncateUtf8 value limit).1.length = (truncatedUtf8Len value limit).1 :=
  List.length_take_of_le (truncatedUtf8Len_greatest value limit).1.2.1

/-! ## Headers -/

/-- The loop that measures, after the fields that the loop that captures has seen. -/
def measureField (limit : Nat) (measured : HeaderMeasurement) (field : Bytes × Bytes) :
    HeaderMeasurement :=
  let fieldBytes := satAdd field.1.length (lossyUtf8Len field.2)
  if satAdd measured.retainedBytes fieldBytes > limit then { measured with truncated := true }
  else { measured with retainedBytes := satAdd measured.retainedBytes fieldBytes }

theorem fieldBytes_eq (field : Bytes × Bytes) :
    satAdd field.1.length (lossyUtf8Len field.2) =
      satAdd field.1.length (fromUtf8Lossy field.2).length := by
  rw [lossyUtf8Len_eq]
  unfold satAdd
  omega

/-- The two loops go side by side. -/
theorem measureField_captureField (limit : Nat) (state : HeaderCapture) (field : Bytes × Bytes) :
    measureField limit ⟨state.retained, state.truncated⟩ field =
      ⟨(captureField limit state field).retained, (captureField limit state field).truncated⟩ := by
  unfold measureField captureField
  dsimp only
  rw [fieldBytes_eq]
  split <;> rfl

theorem measureLoop_captureLoop (limit : Nat) (headers : HeaderFields) (state : HeaderCapture) :
    headers.foldl (measureField limit) ⟨state.retained, state.truncated⟩ =
      ⟨(headers.foldl (captureField limit) state).retained,
        (headers.foldl (captureField limit) state).truncated⟩ := by
  induction headers generalizing state with
  | nil => rfl
  | cons field headers ih =>
    rw [List.foldl_cons, List.foldl_cons, measureField_captureField, ih]

theorem measureHeaders_eq (headers : HeaderFields) (limit : Nat) :
    measureHeaders headers limit =
      ⟨headersBytes (captureHeaders headers limit).1, (captureHeaders headers limit).2⟩ := by
  have hloop := measureLoop_captureLoop limit headers ⟨[], 0, false⟩
  have hcounted := captureHeaders_counted headers limit
  exact hloop.trans (by rw [hcounted.retained_eq]; rfl)

theorem captureField_retained_le {limit : Nat} {state : HeaderCapture}
    (h : state.retained ≤ wordMax) (field : Bytes × Bytes) :
    state.retained ≤ (captureField limit state field).retained ∧
      (captureField limit state field).retained ≤ wordMax := by
  unfold captureField
  dsimp only
  split
  · exact ⟨Nat.le_refl _, h⟩
  · exact ⟨le_satAdd_left h, satAdd_le_wordMax _ _⟩

theorem captureLoop_retained_le {limit : Nat} (headers : HeaderFields) {state : HeaderCapture}
    (h : state.retained ≤ wordMax) :
    state.retained ≤ (headers.foldl (captureField limit) state).retained := by
  induction headers generalizing state with
  | nil => exact Nat.le_refl _
  | cons field headers ih =>
    obtain ⟨hle, hword⟩ := captureField_retained_le h field
    exact hle.trans (ih hword)

/-- A lower limit that leaves room for what is kept keeps the same. -/
theorem captureLoop_lower {limit lower : Nat} (hlower : lower ≤ limit) (headers : HeaderFields)
    {state : HeaderCapture} (h : state.retained ≤ wordMax)
    (hroom : (headers.foldl (captureField limit) state).retained ≤ lower) :
    headers.foldl (captureField lower) state = headers.foldl (captureField limit) state := by
  induction headers generalizing state with
  | nil => rfl
  | cons field headers ih =>
    rw [List.foldl_cons] at hroom
    have hsame : captureField lower state field = captureField limit state field := by
      have hkept := (@captureLoop_retained_le limit headers _
        (captureField_retained_le h field).2).trans hroom
      unfold captureField at hkept ⊢
      dsimp only at hkept ⊢
      by_cases hover :
          satAdd state.retained (satAdd field.1.length (fromUtf8Lossy field.2).length) > limit
      · rw [if_pos hover, if_pos (Nat.lt_of_le_of_lt hlower hover)]
      · rw [if_neg hover] at hkept
        rw [if_neg hover, if_neg (Nat.not_lt.2 hkept)]
    rw [List.foldl_cons, List.foldl_cons, hsame]
    exact ih (captureField_retained_le h field).2 hroom

theorem captureHeaders_lower {limit lower : Nat} (hlower : lower ≤ limit) {headers : HeaderFields}
    (hroom : (measureHeaders headers limit).retainedBytes ≤ lower) :
    captureHeaders headers lower = captureHeaders headers limit := by
  have hcounted := captureHeaders_counted headers limit
  rw [measureHeaders_eq] at hroom
  have hloop := @captureLoop_lower _ _ hlower headers ⟨[], 0, false⟩ (Nat.zero_le wordMax)
    (hcounted.retained_eq ▸ hroom)
  unfold captureHeaders
  rw [hloop]

/-! ## Heads -/

theorem measureRequestMetadata_bytes (input : RequestCaptureInput) (policy : CapturePolicy) :
    (measureRequestMetadata input policy).1 =
      requestMetadataBytes (requestMetadata input policy) := by
  unfold measureRequestMetadata requestMetadataBytes requestMetadata
  dsimp only
  rw [truncateUtf8_length, truncateUtf8_length, measureHeaders_eq]
  cases input.localPath with
  | none => rfl
  | some path =>
    dsimp only [Option.map_some, Option.getD_some]
    rw [truncateUtf8_length]

theorem measureRequestMetadata_truncation (input : RequestCaptureInput) (policy : CapturePolicy) :
    (measureRequestMetadata input policy).2 =
      { requestTarget :=
          (truncateUtf8 input.originalUri policy.requestTargetBytes).2 ||
          (truncateUtf8 input.effectiveUri policy.requestTargetBytes).2 ||
          (input.localPath.map (truncateUtf8 · policy.requestTargetBytes)).any (·.2)
        requestHeaders := (captureHeaders input.headers policy.headerBytesPerSide).2
        responseHeaders := false } := by
  unfold measureRequestMetadata
  dsimp only
  rw [measureHeaders_eq]
  cases input.localPath <;> rfl

/-- With all of what was measured reserved, the response takes up just that. -/
theorem responseMetadata_reserved {input : ResponseCaptureInput} {limit reserved : Nat}
    (h : 64 + (measureHeaders input.headers limit).retainedBytes ≤ reserved) :
    responseMetadata input (min (reserved - 64) limit) = responseMetadata input limit := by
  have hlimit : (measureHeaders input.headers limit).retainedBytes ≤ limit := by
    rw [measureHeaders_eq]
    exact headersBytes_captureHeaders_le input.headers limit
  unfold responseMetadata
  rw [captureHeaders_lower (Nat.min_le_right _ _) (by omega)]

/-- A text is cut behind as many of its characters as fit.  The metadata of a request takes up
what was measured, which is what is reserved for it; and that of a response takes up what was
measured when that much was reserved, and never more than what was reserved. -/
theorem metadata_measured_as_stored (policy : CapturePolicy) :
    (∀ (value : Bytes) (limit : Nat),
      IsGreatest {n | n ≤ limit ∧ n ≤ value.length ∧ isCharBoundary value n = true}
        (truncateUtf8 value limit).1.length) ∧
    (∀ input : RequestCaptureInput,
      (measureRequestMetadata input policy).1 =
        requestMetadataBytes (requestMetadata input policy) ∧
      (measureRequestMetadata input policy).2 =
        { requestTarget :=
            (truncateUtf8 input.originalUri policy.requestTargetBytes).2 ||
            (truncateUtf8 input.effectiveUri policy.requestTargetBytes).2 ||
            (input.localPath.map (truncateUtf8 · policy.requestTargetBytes)).any (·.2)
          requestHeaders := (captureHeaders input.headers policy.headerBytesPerSide).2
          responseHeaders := false }) ∧
    (∀ (input : ResponseCaptureInput) (reserved : Nat),
      let measured := measureHeaders input.headers policy.headerBytesPerSide
      let headerLimit := min (reserved - 64) policy.headerBytesPerSide
      (64 + measured.retainedBytes ≤ reserved →
        responseMetadataBytes (responseMetadata input headerLimit).1 =
          satAdd 64 measured.retainedBytes ∧
        (responseMetadata input headerLimit).2 = measured.truncated) ∧
      (64 ≤ reserved →
        responseMetadataBytes (responseMetadata input headerLimit).1 ≤ reserved)) := by
  refine ⟨fun value limit => truncateUtf8_length value limit ▸ truncatedUtf8Len_greatest value limit,
    fun input => ⟨measureRequestMetadata_bytes input policy,
    measureRequestMetadata_truncation input policy⟩, fun input reserved => ?_⟩
  dsimp only
  constructor
  · intro h
    rw [responseMetadata_reserved h, measureHeaders_eq]
    exact ⟨rfl, rfl⟩
  · intro h
    exact responseMetadataBytes_le h (Nat.min_le_left _ _)

/-- A value with a byte that is no UTF-8 is three bytes longer when it is stored. -/
theorem metadata_measured_as_stored_sample :
    responseMetadataBytes (responseMetadata ⟨200, [(ofAscii "server", [0x61, 0xFF])]⟩ 10).1 =
      74 := by
  have hmeasured := ((metadata_measured_as_stored { headerBytesPerSide := 10 }).2.2
    ⟨200, [(ofAscii "server", [0x61, 0xFF])]⟩ 74).1 (by decide +kernel)
  exact hmeasured.1.trans (by decide +kernel)

end Fluxcope.Capture
