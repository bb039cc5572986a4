import Fluxcope.Capture.DecodedBytes
/-!
# Decoding a body to a text

A decoded body is displayed as a text without another validation of its bytes.
The decoder or the formatter has asked for it before, piece by piece, and the
conversion happens to texts only, wherever the pieces end and wherever the job
is cancelled.
-/

namespace Fluxcope.Capture

open Fluxcope.Library Fluxcope.Library.Utf8

/-- What `format_body` goes on to format.  `text` is what it has converted with
`from_utf8_unchecked`. -/
inductive DisplayedBody
  | noBody
  | binary (bytes : Bytes)
  | text (text : Bytes)
  deriving DecidableEq, Repr

/-- `format_body` as far as the conversion, with the checks of its validation
numbered from 1. -/
def displayedBody (bytes : Bytes) (knownUtf8 : Option Bool) (cancelled : Nat → Bool) :
    Except DecodeContentError DisplayedBody := do
  checkContentCancelled cancelled 0
  if bytes.isEmpty then
    return .noBody
  let utf8Valid ← match knownUtf8 with
    | some valid => pure valid
    | none => validateUtf8Cancellable (fun check => cancelled (check + 1)) bytes
  if !utf8Valid then
    return .binary bytes
  return .text bytes

/-- `decode_job_cancellable` as far as the conversion: what the decoder returned,
and the bytes of the body as it was captured, for want of a decoded one. -/
def decodedJobText (decoded : Except DecodeContentError DecodedBytes) (captured : Bytes)
    (cancelled : Nat → Bool) : Except DecodeContentError DisplayedBody :=
  match decoded with
  | .ok decoded => displayedBody decoded.bytes (some decoded.isUtf8) cancelled
  | .error _ => displayedBody captured none cancelled

/-! ## What is converted -/

/-- Whatever the size of the pieces, and even with a cancellation at some check. -/
theorem wellFormed_of_accepted {checkBytes : Nat} {cancelled : Nat → Bool} {bytes : Bytes}
    (h : validatePieces checkBytes cancelled bytes bytes.length 0 0 = .ok true) :
    WellFormed bytes := by
  have hvalid := valid_of_validatePieces (by omega) h
  rw [List.drop_zero] at hvalid
  exact wellFormed_iff.2 hvalid

theorem accepted_iff_wellFormed {checkBytes : Nat} {cancelled : Nat → Bool} {bytes : Bytes}
    (hcheck : 4 ≤ checkBytes) (hcancelled : ∀ n, cancelled n = false) :
    validatePieces checkBytes cancelled bytes bytes.length 0 0 = .ok true ↔ WellFormed bytes := by
  constructor
  · exact wellFormed_of_accepted
  · intro h
    have hvalid := wellFormed_iff.1 h
    exact validatePieces_of_valid hvalid hcheck hcancelled hvalid.isBoundary_zero

/-- Only a cancellation keeps the loop from an answer. -/
theorem validatePieces_answers {checkBytes : Nat} {cancelled : Nat → Bool} {bytes : Bytes}
    (hcancelled : ∀ n, cancelled n = false) (fuel check start : Nat) :
    ∃ accepted, validatePieces checkBytes cancelled bytes fuel check start = .ok accepted := by
  have hgo : ∀ n, checkContentCancelled cancelled n = .ok () := fun n => if_neg (by simp [hcancelled])
  induction fuel generalizing check start with
  | zero => exact ⟨true, by rw [validatePieces, hgo]; rfl⟩
  | succ fuel ih =>
    rw [validatePieces, hgo]
    show ∃ accepted, (if start < bytes.length then _ else _) = Except.ok accepted
    split
    case isFalse => exact ⟨true, rfl⟩
    case isTrue =>
        split
        case isTrue => exact ⟨false, rfl⟩
        case isFalse => exact ih _ _

/-- A text to display is what was asked about, and the answer was that it is one. -/
theorem displayedBody_text {bytes text : Bytes} {knownUtf8 : Option Bool} {cancelled : Nat → Bool}
    (h : displayedBody bytes knownUtf8 cancelled = .ok (.text text)) :
    text = bytes ∧ (knownUtf8 = some true ∨ knownUtf8 = none ∧
      validateUtf8Cancellable (fun check => cancelled (check + 1)) bytes = .ok true) := by
  unfold displayedBody checkContentCancelled at h
  by_cases hcancelled : cancelled 0 = true
  · rw [if_pos hcancelled] at h
    cases h
  rw [if_neg hcancelled] at h
  by_cases hempty : bytes.isEmpty = true
  · simp [hempty, bind, Except.bind, pure, Except.pure] at h
  cases knownUtf8 with
  | some valid =>
    cases valid <;> simp [hempty, bind, Except.bind, pure, Except.pure] at h
    exact ⟨h.symm, .inl rfl⟩
  | none =>
    cases hvalid : validateUtf8Cancellable (fun check => cancelled (check + 1)) bytes with
    | error error => simp [hempty, hvalid, bind, Except.bind] at h
    | ok valid =>
      cases valid <;> simp [hempty, hvalid, bind, Except.bind, pure, Except.pure] at h
      exact ⟨h.symm, .inr ⟨rfl, rfl⟩⟩

theorem decodedJobText_wellFormed {decoded : Except DecodeContentError DecodedBytes}
    {captured text : Bytes} {cancelled : Nat → Bool}
    (h : decodedJobText decoded captured cancelled = .ok (.text text)) : WellFormed text := by
  cases decoded with
  | ok decoded =>
    replace h : displayedBody decoded.bytes (some decoded.isUtf8) cancelled = .ok (.text text) := h
    obtain ⟨rfl, hknown | ⟨hnone, -⟩⟩ := displayedBody_text h
    · exact wellFormed_iff.2 (decoded.isUtf8_iff.1 (Option.some.inj hknown))
    · cases hnone
  | error error =>
    replace h : displayedBody captured none cancelled = .ok (.text text) := h
    obtain ⟨rfl, hknown | ⟨-, haccepted⟩⟩ := displayedBody_text h
    · cases hknown
    · exact wellFormed_of_accepted haccepted

/-- The validator answers whether the bytes are well-formed, for the pieces of the
code and for all others that have room for a character.  What it accepts is
well-formed in any case, and so is what is converted without another check. -/
theorem validateUtf8Cancellable_exact (bytes : Bytes) :
    (∀ cancelled, (∀ n, cancelled n = false) →
      ∃ accepted, validateUtf8Cancellable cancelled bytes = .ok accepted ∧
        (accepted = true ↔ WellFormed bytes)) ∧
    (∀ checkBytes cancelled, 4 ≤ checkBytes → (∀ n, cancelled n = false) →
      ∃ accepted, validatePieces checkBytes cancelled bytes bytes.length 0 0 = .ok accepted ∧
        (accepted = true ↔ WellFormed bytes)) ∧
    (∀ checkBytes cancelled,
      validatePieces checkBytes cancelled bytes bytes.length 0 0 = .ok true → WellFormed bytes) ∧
    (∀ decoded cancelled text,
      decodedJobText decoded bytes cancelled = .ok (.text text) → WellFormed text) := by
  have hexact : ∀ checkBytes cancelled, 4 ≤ checkBytes → (∀ n, cancelled n = false) →
      ∃ accepted, validatePieces checkBytes cancelled bytes bytes.length 0 0 = .ok accepted ∧
        (accepted = true ↔ WellFormed bytes) := by
    intro checkBytes cancelled hcheck hcancelled
    obtain ⟨accepted, haccepted⟩ := @validatePieces_answers checkBytes cancelled bytes hcancelled
      bytes.length 0 0
    refine ⟨accepted, haccepted, ?_⟩
    rw [← accepted_iff_wellFormed hcheck hcancelled, haccepted, Except.ok.injEq]
  exact ⟨fun cancelled => hexact _ cancelled (by decide), hexact,
    fun _ _ => wellFormed_of_accepted, fun _ _ _ => decodedJobText_wellFormed⟩

/-- A character cut by the end of a piece, and one cut by the end of the body. -/
theorem validateUtf8Cancellable_straddling :
    WellFormed [0x61, 0xE2, 0x82, 0xAC, 0xF0, 0x9F, 0x98, 0x80] ∧
      validatePieces 4 (fun _ => false) [0x61, 0xE2, 0x82, 0xAC, 0xF0, 0x9F, 0x98] 7 0 0 =
        .ok false := by
  have hexact := (validateUtf8Cancellable_exact
    [0x61, 0xE2, 0x82, 0xAC, 0xF0, 0x9F, 0x98, 0x80]).2.2.1 4 (fun _ => false)
  exact ⟨hexact (by decide +kernel), by decide +kernel⟩

end Fluxcope.Capture
