import Fluxcope.Library.Utf8
import Fluxcope.Capture.Budget
/-!
# Captured bodies

The retained prefix of one side of an exchange: a chain of sealed 64 KiB chunks
and a trailing block that is still filled, or sealed when the side ended.
-/

namespace Fluxcope.Capture

open Fluxcope.Library Fluxcope.Library.Utf8

inductive BodySide
  | request
  | response
  deriving DecidableEq, Repr

inductive BodyStreamState
  | pending
  | streaming
  | complete
  | failed
  | cancelled
  deriving DecidableEq, Repr

def BodyStreamState.isTerminal : BodyStreamState → Bool
  | .complete | .failed | .cancelled => true
  | .pending | .streaming => false

inductive BodyPreviewLimit
  | perBodyLimit
  | totalMemoryLimit
  deriving DecidableEq, Repr

/-- `observedBytes` is a saturating `u64`. -/
structure BodyStatus where
  stream : BodyStreamState := .pending
  observedBytes : Nat := 0
  retainedBytes : Nat := 0
  previewLimit : Option BodyPreviewLimit := none
  error : Option Bytes := none
  deriving DecidableEq, Repr

/-- `canonicalTail` lists the sealed chunks from the newest one, as the links of
the nodes do; the count of a node is the number of chunks up to it. -/
structure BodyCapture where
  status : BodyStatus := {}
  canonicalTail : List Bytes := []
  trailing : Bytes := []
  sealedTrailing : Option Bytes := none
  deriving DecidableEq, Repr

structure CapturedBodyPreview where
  canonicalTail : List Bytes
  trailing : Bytes
  len : Nat
  deriving DecidableEq, Repr

namespace CapturedBodyPreview

def empty : CapturedBodyPreview := { canonicalTail := [], trailing := [], len := 0 }

def chunks (preview : CapturedBodyPreview) : List Bytes :=
  preview.canonicalTail.reverse ++
    if preview.trailing.isEmpty then [] else [preview.trailing]

def flatten (preview : CapturedBodyPreview) : Bytes := preview.chunks.flatten

theorem flatten_eq (preview : CapturedBodyPreview) :
    preview.flatten = preview.canonicalTail.reverse.flatten ++ preview.trailing := by
  unfold flatten chunks
  cases h : preview.trailing <;> simp

end CapturedBodyPreview

namespace BodyCapture

/-- The loop of `append`: fill the trailing block, seal it when it is full. -/
def appendLoop : Nat → BodyCapture → Bytes → BodyCapture
  | 0, body, _ => body
  | fuel + 1, body, remaining =>
    if remaining.isEmpty then body
    else
      let available := bodyChunkBytes - body.trailing.length
      let take := min available remaining.length
      let trailing := body.trailing ++ remaining.take take
      let remaining := remaining.drop take
      if trailing.length = bodyChunkBytes then
        appendLoop fuel
          { body with
            canonicalTail := trailing :: body.canonicalTail
            trailing := [] } remaining
      else appendLoop fuel { body with trailing } remaining

/-- Each round takes a byte at least, so the length is fuel enough. -/
def append (body : BodyCapture) (bytes : Bytes) : BodyCapture :=
  appendLoop bytes.length body bytes

def «seal» (body : BodyCapture) : BodyCapture :=
  if body.trailing.isEmpty then body
  else { body with sealedTrailing := some body.trailing, trailing := [] }

def preview (body : BodyCapture) : CapturedBodyPreview :=
  { canonicalTail := body.canonicalTail
    trailing := body.sealedTrailing.getD body.trailing
    len := body.status.retainedBytes }

/-! ## The trailing block and the sealed chunks -/

/-- The bytes the body holds in its chunks and in the block still filled. -/
def content (body : BodyCapture) : Bytes :=
  body.canonicalTail.reverse.flatten ++ body.trailing

/-- The trailing block is never full between two operations, and all sealed
chunks are. -/
structure Chunked (body : BodyCapture) : Prop where
  trailing_lt : body.trailing.length < bodyChunkBytes
  chunk_length : ∀ chunk ∈ body.canonicalTail, chunk.length = bodyChunkBytes

theorem chunked_new : Chunked {} := ⟨bodyChunkBytes_pos, by simp⟩

/-- What appending does: everything is kept in order, and the number of chunks
grows by the number of times the trailing block is filled. -/
structure Appended (body : BodyCapture) (bytes : Bytes) (result : BodyCapture) : Prop where
  status : result.status = body.status
  sealedTrailing : result.sealedTrailing = body.sealedTrailing
  chunked : result.Chunked
  content : result.content = body.content ++ bytes
  chunks : result.canonicalTail.length =
    body.canonicalTail.length + (body.trailing.length + bytes.length) / bodyChunkBytes

theorem appended_nil {body : BodyCapture} (h : body.Chunked) : Appended body [] body where
  status := rfl
  sealedTrailing := rfl
  chunked := h
  content := by simp
  chunks := by simp [Nat.div_eq_of_lt h.trailing_lt]

theorem appendLoop_spec {fuel : Nat} {body : BodyCapture} {bytes : Bytes}
    (h : body.Chunked) (hfuel : bytes.length ≤ fuel) :
    Appended body bytes (appendLoop fuel body bytes) := by
  induction fuel generalizing body bytes with
  | zero =>
    obtain rfl : bytes = [] := List.eq_nil_of_length_eq_zero (by omega)
    exact appended_nil h
  | succ fuel ih =>
    unfold appendLoop
    by_cases hempty : bytes = []
    · subst hempty
      exact appended_nil h
    rw [if_neg (by simpa using hempty)]
    dsimp only
    have htrailing := h.trailing_lt
    have hbytes : 0 < bytes.length := List.length_pos_iff.2 hempty
    have hsplit := List.take_append_drop
      (min (bodyChunkBytes - body.trailing.length) bytes.length) bytes
    set take := min (bodyChunkBytes - body.trailing.length) bytes.length with htake
    have hdrop : (bytes.drop take).length = bytes.length - take := List.length_drop
    have hlength : (body.trailing ++ bytes.take take).length =
        body.trailing.length + take := by
      simp [htake]
    split
    · -- the block is full: it becomes the newest chunk
      rename_i hfull
      have hnext := @ih { body with
          canonicalTail := (body.trailing ++ bytes.take take) :: body.canonicalTail
          trailing := [] } (bytes.drop take)
        ⟨bodyChunkBytes_pos, List.forall_mem_cons.2 ⟨hfull, h.chunk_length⟩⟩ (by omega)
      refine ⟨hnext.status, hnext.sealedTrailing, hnext.chunked, ?_, ?_⟩
      · rw [hnext.content]
        simp [BodyCapture.content, hsplit]
      · have hpos := bodyChunkBytes_pos
        have hsum : body.trailing.length + bytes.length =
            (bytes.length - take) + bodyChunkBytes := by omega
        rw [hnext.chunks, hdrop, hsum, Nat.add_div_right _ hpos]
        simp only [List.length_cons, List.length_nil, Nat.zero_add]
        omega
    · rename_i hfull
      have hnext := @ih { body with trailing := body.trailing ++ bytes.take take }
        (bytes.drop take) ⟨by simp only; omega, h.chunk_length⟩ (by omega)
      refine ⟨hnext.status, hnext.sealedTrailing, hnext.chunked, ?_, ?_⟩
      · rw [hnext.content]
        simp [BodyCapture.content, hsplit]
      · rw [hnext.chunks, hdrop, hlength]
        congr 2
        omega

theorem append_spec {body : BodyCapture} (h : body.Chunked) (bytes : Bytes) :
    Appended body bytes (body.append bytes) :=
  appendLoop_spec h le_rfl

theorem Chunked.seal {body : BodyCapture} (h : body.Chunked) : body.seal.Chunked := by
  unfold BodyCapture.seal
  split
  · exact h
  · exact ⟨bodyChunkBytes_pos, h.chunk_length⟩

@[simp] theorem seal_status (body : BodyCapture) : body.seal.status = body.status := by
  unfold BodyCapture.seal
  split <;> rfl

@[simp] theorem seal_canonicalTail (body : BodyCapture) :
    body.seal.canonicalTail = body.canonicalTail := by
  unfold BodyCapture.seal
  split <;> rfl

/-! ## Bodies whose preview shows what they retain -/

/-- The retained count is the length of the stored bytes, and the trailing block
is sealed only when the side has ended. -/
structure Faithful (body : BodyCapture) : Prop extends Chunked body where
  retained : body.status.retainedBytes = body.preview.flatten.length
  open_unsealed : body.status.stream.isTerminal = false → body.sealedTrailing = none
  sealed_empty : body.sealedTrailing.isSome → body.trailing = []

theorem faithful_new : Faithful {} where
  toChunked := chunked_new
  retained := rfl
  open_unsealed _ := rfl
  sealed_empty := by simp

theorem flatten_preview_of_unsealed {body : BodyCapture} (h : body.sealedTrailing = none) :
    body.preview.flatten = body.content := by
  simp [CapturedBodyPreview.flatten_eq, preview, content, h]

theorem flatten_preview_seal {body : BodyCapture} (h : body.sealedTrailing = none) :
    body.seal.preview.flatten = body.preview.flatten := by
  unfold BodyCapture.seal
  split
  · rfl
  · simp [CapturedBodyPreview.flatten_eq, preview, h]

theorem Faithful.appended {body result : BodyCapture} {bytes : Bytes} (h : body.Faithful)
    (hopen : body.status.stream.isTerminal = false) (hspec : Appended body bytes result)
    {status : BodyStatus}
    (hretained : status.retainedBytes = body.status.retainedBytes + bytes.length) :
    ({ result with status } : BodyCapture).Faithful := by
  have hunsealed := h.open_unsealed hopen
  have hsealed : result.sealedTrailing = none := by rw [hspec.sealedTrailing, hunsealed]
  refine ⟨⟨hspec.chunked.trailing_lt, hspec.chunked.chunk_length⟩, ?_, fun _ => hsealed,
    by simp [hsealed]⟩
  have hcontent : ({ result with status } : BodyCapture).preview.flatten = result.content :=
    flatten_preview_of_unsealed hsealed
  rw [hcontent, hspec.content, List.length_append, hretained, h.retained,
    flatten_preview_of_unsealed hunsealed]

/-- Ending an open side: the block is sealed and the status becomes terminal. -/
theorem Faithful.finish {body : BodyCapture} (h : body.Faithful)
    (hopen : body.status.stream.isTerminal = false) (status : BodyStatus)
    (hstream : status.stream.isTerminal = true)
    (hretained : status.retainedBytes = body.status.retainedBytes) :
    ({ body with status } : BodyCapture).seal.Faithful := by
  have hsealed := h.open_unsealed hopen
  have hchunked : ({ body with status } : BodyCapture).Chunked :=
    ⟨h.trailing_lt, h.chunk_length⟩
  refine ⟨hchunked.seal, ?_, by simp [hstream], ?_⟩
  · have hflatten : ({ body with status } : BodyCapture).seal.preview.flatten =
        body.preview.flatten := flatten_preview_seal hsealed
    rw [hflatten, seal_status]
    exact hretained.trans h.retained
  · unfold BodyCapture.seal
    split <;> simp [hsealed]

end BodyCapture

end Fluxcope.Capture
