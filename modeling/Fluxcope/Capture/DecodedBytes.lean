import Fluxcope.Library.Pages
import Fluxcope.Library.Utf8Chars
/-!
# Decoded bodies

The bytes of a decoded body come with the answer to whether they are a text.
The decoder asks it piece by piece, so that it can be cancelled in between.
-/

namespace Fluxcope.Capture

open Fluxcope.Library Fluxcope.Library.Utf8

def decodeCancellationCheckBytes : Nat := 32 * 1024

/-- `byte & 0b1100_0000 != 0b1000_0000` -/
def startsChar (byte : UInt8) : Bool := byte &&& 0xC0 ≠ 0x80

/-- The `for _ in 0..3` of `validate_utf8_cancellable`, with the rounds left. -/
def pieceEnd (bytes : Bytes) (start : Nat) : Nat → Nat → Nat
  | 0, stop => stop
  | rounds + 1, stop =>
    if stop = start || bytes[stop]?.any startsChar then stop
    else pieceEnd bytes start rounds (stop - 1)

/-- The loop of `validate_utf8_cancellable`, when it is not cancelled. -/
def validateUtf8Loop (bytes : Bytes) : Nat → Nat → Bool
  | 0, _ => true
  | fuel + 1, start =>
    if start < bytes.length then
      let stop := min (start + decodeCancellationCheckBytes) bytes.length
      let stop := if stop < bytes.length then pieceEnd bytes start 3 stop else stop
      if stop = start || (fromUtf8 ((bytes.drop start).take (stop - start))).isSome then false
      else validateUtf8Loop bytes fuel stop
    else true

/-- Every round takes a byte at least, so the length is fuel enough. -/
def validateUtf8 (bytes : Bytes) : Bool := validateUtf8Loop bytes bytes.length 0

inductive DecodeContentError
  | cancelled
  | unsupported (encoding reason : Bytes)
  | tooManyLayers (layers maximumLayers : Nat)
  | outputLimit (maximumOutputBytes : Nat)
  deriving DecidableEq, Repr

/-- `check_content_cancelled`, at the check of that number. -/
def checkContentCancelled (cancelled : Nat → Bool) (check : Nat) : Except DecodeContentError Unit :=
  if cancelled check then .error .cancelled else .ok ()

/-- Where the piece of `checkBytes` bytes that begins at `start` is cut. -/
def pieceStop (checkBytes : Nat) (bytes : Bytes) (start : Nat) : Nat :=
  let stop := min (start + checkBytes) bytes.length
  if stop < bytes.length then pieceEnd bytes start 3 stop else stop

/-- The loop of `validate_utf8_cancellable` for pieces of `checkBytes` bytes. -/
def validatePieces (checkBytes : Nat) (cancelled : Nat → Bool) (bytes : Bytes) :
    Nat → Nat → Nat → Except DecodeContentError Bool
  | 0, check, _ => do
      checkContentCancelled cancelled check
      pure true
  | fuel + 1, check, start => do
      checkContentCancelled cancelled check
      if start < bytes.length then
        let stop := pieceStop checkBytes bytes start
        if stop = start || (fromUtf8 ((bytes.drop start).take (stop - start))).isSome then pure false
        else validatePieces checkBytes cancelled bytes fuel (check + 1) stop
      else pure true

def validateUtf8Cancellable (cancelled : Nat → Bool) (bytes : Bytes) :
    Except DecodeContentError Bool :=
  validatePieces decodeCancellationCheckBytes cancelled bytes bytes.length 0 0

/-! ## Validation by pieces -/

theorem startsChar_eq (byte : UInt8) : startsChar byte = !isContinuation byte := by
  have hall : ∀ n : Fin 256, startsChar (UInt8.ofNat n) = !isContinuation (UInt8.ofNat n) := by
    decide +kernel
  have hbyte := hall ⟨byte.toNat, byte.toNat_lt⟩
  rwa [UInt8.ofNat_toNat] at hbyte

theorem startsChar_iff {bytes : Bytes} {i : Nat} (hi : i < bytes.length) :
    bytes[i]?.any startsChar = true ↔ IsBoundary bytes i := by
  unfold IsBoundary
  rw [List.getElem?_eq_getElem hi, Option.any_some, startsChar_eq]
  constructor
  · intro h
    exact .inr ⟨_, rfl, by simpa using h⟩
  · rintro (hend | ⟨b, hb, hfirst⟩)
    · exact absurd hend (Nat.ne_of_lt hi)
    · rw [Option.some.inj hb, hfirst]
      rfl

theorem pieceEnd_bounds (bytes : Bytes) (start rounds stop : Nat) (h : start ≤ stop) :
    start ≤ pieceEnd bytes start rounds stop ∧ pieceEnd bytes start rounds stop ≤ stop := by
  induction rounds generalizing stop with
  | zero => exact ⟨h, Nat.le_refl _⟩
  | succ rounds ih =>
    rw [pieceEnd]
    split
    · exact ⟨h, Nat.le_refl _⟩
    · rename_i hstep
      have hne : stop ≠ start := fun heq => hstep (by simp [heq])
      obtain ⟨hge, hle⟩ := ih (stop - 1) (by omega)
      exact ⟨hge, by omega⟩

/-- A boundary within reach is found. -/
theorem pieceEnd_isBoundary {bytes : Bytes} {start rounds stop low : Nat} (hstart : start < low)
    (hlow : IsBoundary bytes low) (hle : low ≤ stop) (hreach : stop ≤ low + rounds)
    (hstop : stop < bytes.length) :
    low ≤ pieceEnd bytes start rounds stop ∧ IsBoundary bytes (pieceEnd bytes start rounds stop) := by
  induction rounds generalizing stop with
  | zero =>
    obtain rfl : stop = low := by omega
    exact ⟨Nat.le_refl _, hlow⟩
  | succ rounds ih =>
    rw [pieceEnd]
    by_cases hat : IsBoundary bytes stop
    · rw [if_pos (by simp [(startsChar_iff hstop).2 hat])]
      exact ⟨hle, hat⟩
    · have hne : stop ≠ low := by
        rintro rfl
        exact hat hlow
      have hnot : bytes[stop]?.any startsChar = false := by
        rw [← Bool.not_eq_true, startsChar_iff hstop]
        exact hat
      rw [if_neg (by simp only [hnot]; simp; omega)]
      exact ih (by omega) (by omega) (by omega)

theorem pieceStop_bounds {checkBytes : Nat} {bytes : Bytes} {start : Nat}
    (hstart : start ≤ bytes.length) :
    start ≤ pieceStop checkBytes bytes start ∧ pieceStop checkBytes bytes start ≤ bytes.length := by
  have hmin : start ≤ min (start + checkBytes) bytes.length := by omega
  unfold pieceStop
  dsimp only
  split
  · obtain ⟨hge, hle⟩ := pieceEnd_bounds bytes start 3 _ hmin
    exact ⟨hge, by omega⟩
  · exact ⟨hmin, Nat.min_le_right _ _⟩

/-- A character has at most four bytes, so that a piece of four ends after one. -/
theorem pieceStop_isBoundary {checkBytes : Nat} {bytes : Bytes} (hvalid : Valid bytes)
    (hcheck : 4 ≤ checkBytes) {start : Nat} (hlt : start < bytes.length) :
    start < pieceStop checkBytes bytes start ∧
      IsBoundary bytes (pieceStop checkBytes bytes start) := by
  unfold pieceStop
  dsimp only
  split
  case isTrue hwithin =>
      obtain ⟨low, high, hlow, hhigh, hspan, -, hlowBoundary, -⟩ := hvalid.enclosing hwithin
      obtain ⟨hge, hfound⟩ := @pieceEnd_isBoundary bytes start 3 _ _ (by omega) hlowBoundary hlow
        (by omega) hwithin
      exact ⟨by omega, hfound⟩
  case isFalse hend =>
      have hlast : min (start + checkBytes) bytes.length = bytes.length := by omega
      rw [hlast]
      exact ⟨hlt, isBoundary_length bytes⟩

/-- Whatever the pieces are, those accepted make up a text. -/
theorem valid_of_validatePieces {checkBytes : Nat} {cancelled : Nat → Bool} {bytes : Bytes}
    {fuel check start : Nat} (hfuel : bytes.length ≤ start + fuel)
    (h : validatePieces checkBytes cancelled bytes fuel check start = .ok true) :
    Valid (bytes.drop start) := by
  have hnil : Valid [] := ⟨[], by simp, rfl⟩
  induction fuel generalizing check start with
  | zero =>
    rw [List.drop_of_length_le (by omega)]
    exact hnil
  | succ fuel ih =>
    rw [validatePieces, checkContentCancelled] at h
    split at h
    case isTrue => cases h
    replace h : (if start < bytes.length then _ else _) = Except.ok true := h
    split at h
    case isFalse hge =>
        rw [List.drop_of_length_le (by omega)]
        exact hnil
    case isTrue hlt =>
        have hstop := @pieceStop_bounds checkBytes bytes start (by omega)
        generalize pieceStop checkBytes bytes start = stop at h hstop
        split at h
        case isTrue => cases h
        case isFalse hpiece =>
            obtain ⟨hne, hvalid⟩ : stop ≠ start ∧
                fromUtf8 ((bytes.drop start).take (stop - start)) = none := by
              simpa using hpiece
            have hrest := ih (by omega) h
            have hdrop : bytes.drop stop = (bytes.drop start).drop (stop - start) := by
              rw [List.drop_drop, Nat.add_sub_of_le hstop.1]
            rw [← List.take_append_drop (stop - start) (bytes.drop start), ← hdrop]
            exact (fromUtf8_eq_none_iff.1 hvalid).append hrest

theorem validatePieces_of_valid {checkBytes : Nat} {cancelled : Nat → Bool} {bytes : Bytes}
    (hvalid : Valid bytes) (hcheck : 4 ≤ checkBytes) (hcancelled : ∀ n, cancelled n = false)
    {fuel check start : Nat} (hstart : IsBoundary bytes start) :
    validatePieces checkBytes cancelled bytes fuel check start = .ok true := by
  have hgo : ∀ n, checkContentCancelled cancelled n = .ok () := fun n => if_neg (by simp [hcancelled])
  induction fuel generalizing check start with
  | zero => rw [validatePieces, hgo]; rfl
  | succ fuel ih =>
    rw [validatePieces, hgo]
    show (if start < bytes.length then _ else _) = Except.ok true
    split
    case isFalse => rfl
    case isTrue hlt =>
        obtain ⟨hgt, hboundary⟩ := pieceStop_isBoundary hvalid hcheck hlt
        have hpiece := hvalid.slice hstart hboundary (Nat.le_of_lt hgt) (Nat.le_of_lt hlt)
        rw [fromUtf8_eq_none_iff.2 hpiece, if_neg (by simp; omega)]
        exact ih hboundary

theorem validateUtf8Loop_succ (bytes : Bytes) (fuel start : Nat) :
    validateUtf8Loop bytes (fuel + 1) start =
      if start < bytes.length then
        if pieceStop decodeCancellationCheckBytes bytes start = start ||
            (fromUtf8 ((bytes.drop start).take
              (pieceStop decodeCancellationCheckBytes bytes start - start))).isSome then false
        else validateUtf8Loop bytes fuel (pieceStop decodeCancellationCheckBytes bytes start)
      else true := rfl

/-- A loop that is not cancelled is the one without checks. -/
theorem validatePieces_eq_loop {cancelled : Nat → Bool} {bytes : Bytes}
    (hcancelled : ∀ n, cancelled n = false) (fuel check start : Nat) :
    validatePieces decodeCancellationCheckBytes cancelled bytes fuel check start =
      .ok (validateUtf8Loop bytes fuel start) := by
  have hgo : ∀ n, checkContentCancelled cancelled n = .ok () := fun n => if_neg (by simp [hcancelled])
  induction fuel generalizing check start with
  | zero => rw [validatePieces, hgo]; rfl
  | succ fuel ih =>
    rw [validatePieces, hgo, validateUtf8Loop_succ]
    show (if start < bytes.length then _ else _) = _
    split
    case isFalse => rfl
    case isTrue =>
        split
        case isTrue => rfl
        case isFalse => exact ih _ _

theorem validateUtf8_eq (bytes : Bytes) : validateUtf8 bytes = (fromUtf8 bytes).isNone := by
  have hloop := @validatePieces_eq_loop (fun _ => false) bytes (fun _ => rfl) bytes.length 0 0
  rw [Bool.eq_iff_iff, Option.isNone_iff_eq_none, fromUtf8_eq_none_iff]
  constructor
  · intro h
    have hvalid := valid_of_validatePieces (by omega) (hloop.trans (congrArg Except.ok h))
    rwa [List.drop_zero] at hvalid
  · intro h
    have haccepted := @validatePieces_of_valid decodeCancellationCheckBytes (fun _ => false) bytes h
      (by decide) (fun _ => rfl) bytes.length 0 0 h.isBoundary_zero
    exact Except.ok.inj (hloop.symm.trans haccepted)

/-- What is answered before a cancellation is answered without one. -/
theorem validatePieces_answer {checkBytes : Nat} {cancelled : Nat → Bool} {bytes : Bytes}
    {fuel check start : Nat} {accepted : Bool}
    (h : validatePieces checkBytes cancelled bytes fuel check start = .ok accepted) :
    validatePieces checkBytes (fun _ => false) bytes fuel check start = .ok accepted := by
  induction fuel generalizing check start with
  | zero =>
    rw [validatePieces, checkContentCancelled] at h
    split at h
    case isTrue => cases h
    case isFalse => exact h
  | succ fuel ih =>
    rw [validatePieces, checkContentCancelled] at h
    split at h
    case isTrue => cases h
    replace h : (if start < bytes.length then _ else _) = Except.ok accepted := h
    show (if start < bytes.length then _ else _) = Except.ok accepted
    split at h
    case isFalse hge => rwa [if_neg hge]
    case isTrue hlt =>
        rw [if_pos hlt]
        split at h
        case isTrue hpiece => rwa [if_pos hpiece]
        case isFalse hpiece =>
            rw [if_neg hpiece]
            exact ih h

theorem validateUtf8Cancellable_eq {cancelled : Nat → Bool} {bytes : Bytes} {accepted : Bool}
    (h : validateUtf8Cancellable cancelled bytes = .ok accepted) :
    accepted = validateUtf8 bytes :=
  Except.ok.inj ((validatePieces_answer h).symm.trans (validatePieces_eq_loop (fun _ => rfl) _ _ _))

/-! ## The result of a decoder -/

structure DecodedBytes where
  bytes : Bytes
  encodingChain : List Bytes := []
  outputLimited : Bool := false
  utf8Valid : Bool
  utf8Valid_eq : utf8Valid = validateUtf8 bytes
  deriving DecidableEq

namespace DecodedBytes

/-- `with_utf8_validity`, as the decoder calls it. -/
def withUtf8Validity (bytes : Bytes) (encodingChain : List Bytes) (outputLimited : Bool) :
    DecodedBytes :=
  { bytes, encodingChain, outputLimited, utf8Valid := validateUtf8 bytes, utf8Valid_eq := rfl }

def isUtf8 (decoded : DecodedBytes) : Bool := decoded.utf8Valid

/-- The end of `decode_content_bytes`. -/
def finish (cancelled : Nat → Bool) (bytes : Bytes) (encodingChain : List Bytes)
    (outputLimited : Bool) : Except DecodeContentError DecodedBytes :=
  match h : validateUtf8Cancellable cancelled bytes with
  | .error error => .error error
  | .ok utf8Valid =>
    .ok { bytes, encodingChain, outputLimited, utf8Valid,
          utf8Valid_eq := validateUtf8Cancellable_eq h }

theorem isUtf8_iff (decoded : DecodedBytes) : decoded.isUtf8 = true ↔ Valid decoded.bytes := by
  unfold isUtf8
  rw [decoded.utf8Valid_eq, validateUtf8_eq, Option.isNone_iff_eq_none, fromUtf8_eq_none_iff]

end DecodedBytes

end Fluxcope.Capture
