import Fluxcope.Library.Machine
import Fluxcope.Library.Utf8
/-!
# Captured metadata

What a capture keeps of a request head and of a response head: targets cut at a
character boundary, and the header fields that fit the limit of their side.
Texts are lists of UTF-8 bytes; a header value may be any byte string.
-/

namespace Fluxcope.Capture

open Fluxcope.Library Fluxcope.Library.Utf8

/-- `CapturePolicy`.  The total is a `usize`. -/
structure CapturePolicy where
  maxConcurrentExchanges : Nat := 256
  queueCapacity : Nat := 256
  requestTargetBytes : Nat := 16 * 1024
  headerBytesPerSide : Nat := 256 * 1024
  requestPreviewBytes : Nat := 2 * 1024 * 1024
  responsePreviewBytes : Nat := 8 * 1024 * 1024
  totalRetainedBytes : Nat := 256 * 1024 * 1024
  retainedRecords : Nat := 10000
  totalRetainedBytes_le : totalRetainedBytes ≤ wordMax := by decide

/-- The fields of a `HeaderMap` in its iteration order: a name and a value. -/
abbrev HeaderFields := List (Bytes × Bytes)

structure RequestCaptureInput where
  method : Bytes
  originalUri : Bytes
  effectiveUri : Bytes
  localPath : Option Bytes
  headers : HeaderFields

structure ResponseCaptureInput where
  status : Nat
  headers : HeaderFields

structure RequestMetadata where
  method : Bytes
  originalUri : Bytes
  effectiveUri : Bytes
  localPath : Option Bytes
  headers : HeaderFields
  deriving DecidableEq, Repr

structure ResponseMetadata where
  status : Nat
  headers : HeaderFields
  deriving DecidableEq, Repr

structure MetadataTruncation where
  requestTarget : Bool := false
  requestHeaders : Bool := false
  responseHeaders : Bool := false
  deriving DecidableEq, Repr

structure HeaderMeasurement where
  retainedBytes : Nat
  truncated : Bool
  deriving DecidableEq, Repr

/-! ## Lengths -/

/-- The loop of `lossy_utf8_len`, with the number of rounds it may still take. -/
def lossyUtf8LenLoop : Nat → Nat → Bytes → Nat
  | 0, length, _ => length
  | fuel + 1, length, bytes =>
    match fromUtf8 bytes with
    | none => satAdd length bytes.length
    | some error =>
      let length := satAdd (satAdd length error.validUpTo) replacement.length
      let invalid := bytes.drop error.validUpTo
      match error.errorLen with
      | none => length
      | some errorLen => lossyUtf8LenLoop fuel length (invalid.drop errorLen)

def lossyUtf8Len (bytes : Bytes) : Nat := lossyUtf8LenLoop (bytes.length + 1) 0 bytes

/-- The `while` of `truncated_utf8_len`: down to the next boundary. -/
def boundaryAtOrBelow (value : Bytes) : Nat → Nat
  | 0 => 0
  | boundary + 1 =>
    if isCharBoundary value (boundary + 1) then boundary + 1
    else boundaryAtOrBelow value boundary

def truncatedUtf8Len (value : Bytes) (limit : Nat) : Nat × Bool :=
  if value.length ≤ limit then (value.length, false)
  else (boundaryAtOrBelow value (min limit value.length), true)

def truncateUtf8 (value : Bytes) (limit : Nat) : Bytes × Bool :=
  let (boundary, truncated) := truncatedUtf8Len value limit
  (value.take boundary, truncated)

/-! ## Headers -/

def measureHeaders (headers : HeaderFields) (limit : Nat) : HeaderMeasurement :=
  headers.foldl
    (fun measured field =>
      let fieldBytes := satAdd field.1.length (lossyUtf8Len field.2)
      if satAdd measured.retainedBytes fieldBytes > limit then
        { measured with truncated := true }
      else { measured with retainedBytes := satAdd measured.retainedBytes fieldBytes })
    { retainedBytes := 0, truncated := false }

/-- The three variables of the loop of `capture_headers`. -/
structure HeaderCapture where
  captured : HeaderFields
  retained : Nat
  truncated : Bool

def captureField (limit : Nat) (state : HeaderCapture) (field : Bytes × Bytes) :
    HeaderCapture :=
  let value := fromUtf8Lossy field.2
  let fieldBytes := satAdd field.1.length value.length
  if satAdd state.retained fieldBytes > limit then { state with truncated := true }
  else
    { state with
      retained := satAdd state.retained fieldBytes
      captured := state.captured ++ [(field.1, value)] }

def captureHeaders (headers : HeaderFields) (limit : Nat) : HeaderFields × Bool :=
  let final := headers.foldl (captureField limit)
    { captured := [], retained := 0, truncated := false }
  (final.captured, final.truncated)

def headersBytes (headers : HeaderFields) : Nat :=
  headers.foldl (fun total field => satAdd (satAdd total field.1.length) field.2.length) 0

/-! ## Request and response heads -/

def requestMetadata (input : RequestCaptureInput) (policy : CapturePolicy) :
    RequestMetadata :=
  { method := input.method
    originalUri := (truncateUtf8 input.originalUri policy.requestTargetBytes).1
    effectiveUri := (truncateUtf8 input.effectiveUri policy.requestTargetBytes).1
    localPath := input.localPath.map fun path => (truncateUtf8 path policy.requestTargetBytes).1
    headers := (captureHeaders input.headers policy.headerBytesPerSide).1 }

def responseMetadata (input : ResponseCaptureInput) (headerLimit : Nat) :
    ResponseMetadata × Bool :=
  let (headers, truncated) := captureHeaders input.headers headerLimit
  ({ status := input.status, headers }, truncated)

def measureRequestMetadata (input : RequestCaptureInput) (policy : CapturePolicy) :
    Nat × MetadataTruncation :=
  let (originalBytes, originalTruncated) :=
    truncatedUtf8Len input.originalUri policy.requestTargetBytes
  let (effectiveBytes, effectiveTruncated) :=
    truncatedUtf8Len input.effectiveUri policy.requestTargetBytes
  let (localBytes, localTruncated) :=
    match input.localPath with
    | none => (0, false)
    | some path => truncatedUtf8Len path policy.requestTargetBytes
  let headers := measureHeaders input.headers policy.headerBytesPerSide
  (satAdd (satAdd (satAdd (satAdd 256 originalBytes) effectiveBytes) localBytes)
      headers.retainedBytes,
    { requestTarget := originalTruncated || effectiveTruncated || localTruncated
      requestHeaders := headers.truncated
      responseHeaders := false })

def responseMetadataBytes (response : ResponseMetadata) : Nat :=
  satAdd 64 (headersBytes response.headers)

/-! ## Captured headers stay within their limit -/

theorem headersBytes_snoc (headers : HeaderFields) (name value : Bytes) :
    headersBytes (headers ++ [(name, value)]) =
      satAdd (headersBytes headers) (satAdd name.length value.length) := by
  unfold headersBytes
  rw [List.foldl_append]
  exact satAdd_assoc _ _ _

/-- The loop counts the bytes of the fields it has taken, and stays within the limit. -/
structure HeaderCapture.Counted (limit : Nat) (state : HeaderCapture) : Prop where
  retained_eq : state.retained = headersBytes state.captured
  retained_le : state.retained ≤ limit

theorem HeaderCapture.Counted.captureField {limit : Nat} {state : HeaderCapture}
    (h : state.Counted limit) (field : Bytes × Bytes) :
    (captureField limit state field).Counted limit := by
  unfold Capture.captureField
  dsimp only
  split
  · exact ⟨h.retained_eq, h.retained_le⟩
  · rename_i hfits
    refine ⟨?_, Nat.le_of_not_lt hfits⟩
    rw [headersBytes_snoc, h.retained_eq]

theorem HeaderCapture.Counted.foldl {limit : Nat} (fields : HeaderFields) {state : HeaderCapture}
    (h : state.Counted limit) : (fields.foldl (Capture.captureField limit) state).Counted limit := by
  induction fields generalizing state with
  | nil => exact h
  | cons field fields ih => exact ih (h.captureField field)

theorem captureHeaders_counted (headers : HeaderFields) (limit : Nat) :
    (headers.foldl (captureField limit) ⟨[], 0, false⟩).Counted limit :=
  HeaderCapture.Counted.foldl headers ⟨rfl, Nat.zero_le _⟩

theorem headersBytes_captureHeaders_le (headers : HeaderFields) (limit : Nat) :
    headersBytes (captureHeaders headers limit).1 ≤ limit := by
  have hfinal := captureHeaders_counted headers limit
  exact hfinal.retained_eq ▸ hfinal.retained_le

/-- The response fits what was reserved for it, when that covers the fixed part. -/
theorem responseMetadataBytes_le {input : ResponseCaptureInput} {reserved headerLimit : Nat}
    (hreserved : 64 ≤ reserved) (hlimit : headerLimit ≤ reserved - 64) :
    responseMetadataBytes (responseMetadata input headerLimit).1 ≤ reserved := by
  have hheaders := headersBytes_captureHeaders_le input.headers headerLimit
  have hsum := satAdd_le 64 (headersBytes (captureHeaders input.headers headerLimit).1)
  change satAdd 64 (headersBytes (captureHeaders input.headers headerLimit).1) ≤ reserved
  omega

theorem responseMetadataBytes_pos (response : ResponseMetadata) :
    0 < responseMetadataBytes response := by
  unfold responseMetadataBytes satAdd wordMax
  omega

end Fluxcope.Capture
