import Fluxcope.Capture.DecodedBytes
import Fluxcope.Capture.Metadata
import Fluxcope.Library.Cancellation
import Fluxcope.Library.Utf8Text
/-!
# Decoding the content of a body

A body is decoded layer by layer, in the reverse of the order its headers name.  Each layer
is read from its decoder piece by piece, up to a limit.
-/

namespace Fluxcope.Capture

open Fluxcope.Library Fluxcope.Library.Utf8

def maxContentEncodingLayers : Nat := 8

/-- `str::to_ascii_lowercase` -/
def toAsciiLowercase (text : Bytes) : Bytes :=
  text.map fun b => if 0x41 ≤ b && b ≤ 0x5A then b + 0x20 else b

def contentEncodings (headers : HeaderFields) : List Bytes :=
  (((headers.filter fun (name, _) => eqIgnoreAsciiCase name (ofAscii "content-encoding")).flatMap
    fun (_, value) => value.splitOn 0x2C).map fun encoding => toAsciiLowercase (trim encoding)).filter
      fun encoding => encoding ≠ [] && encoding ≠ ofAscii "identity"

def normalizedEncoding (encoding : Bytes) : Bytes :=
  if encoding = ofAscii "x-gzip" then ofAscii "gzip" else encoding

def unsupportedEncoding (encoding : Bytes) (reason : String) : DecodeContentError :=
  .unsupported (normalizedEncoding encoding) (ofAscii reason)

/-! ## The decoders -/

/-- What a decoder yields from its input: what its reads give, and whether the read behind
them fails or finds the end. -/
structure Stream where
  pieces : List Bytes
  fails : Bool
  pieces_ne : ∀ piece ∈ pieces, piece ≠ []

/-- The decoders of `flate2`, `brotli` and `zstd`; that of `zstd` may not even begin. -/
structure Codecs where
  gzip : Bytes → Stream
  zlib : Bytes → Stream
  deflate : Bytes → Stream
  brotli : Bytes → Stream
  zstd : Bytes → Option Stream

structure ContentDecodedStage where
  bytes : Bytes
  limited : Bool
  deriving DecidableEq, Repr

section Decode

variable (cancelled : Nat → Bool) (codecs : Codecs) (maxOutputBytes : Nat)

/-- `check_content_cancelled` -/
def contentCheck : Checked DecodeContentError Unit := Checked.check cancelled .cancelled

/-- The loop of `read_content_limited`; `none` is an error of the reader. -/
def readContentLoop (fails : Bool) :
    List Bytes → Bytes → Checked DecodeContentError (Option ContentDecodedStage)
  | [], bytes => do
      contentCheck cancelled
      contentCheck cancelled
      pure (if fails then none else some { bytes, limited := false })
  | piece :: pieces, bytes => do
      contentCheck cancelled
      contentCheck cancelled
      let remaining := maxOutputBytes - bytes.length
      let retained := min piece.length remaining
      let bytes := bytes ++ piece.take retained
      if piece.length > remaining then pure (some { bytes, limited := true })
      else readContentLoop fails pieces bytes

def readContentLimited (reader : Stream) :
    Checked DecodeContentError (Option ContentDecodedStage) :=
  readContentLoop cancelled maxOutputBytes reader.fails reader.pieces []

def decodeContentDeflate (input : Bytes) :
    Checked DecodeContentError (Option ContentDecodedStage) := do
  match ← readContentLimited cancelled maxOutputBytes (codecs.zlib input) with
  | some stage => pure (some stage)
  | none => readContentLimited cancelled maxOutputBytes (codecs.deflate input)

/-- The body of the loop over the layers, up to its error. -/
def decodeLayer (encoding current : Bytes) : Checked DecodeContentError ContentDecodedStage := do
  let decoded ←
    if encoding = ofAscii "gzip" ∨ encoding = ofAscii "x-gzip" then
      readContentLimited cancelled maxOutputBytes (codecs.gzip current)
    else if encoding = ofAscii "deflate" then
      decodeContentDeflate cancelled codecs maxOutputBytes current
    else if encoding = ofAscii "br" then
      readContentLimited cancelled maxOutputBytes (codecs.brotli current)
    else if encoding = ofAscii "zstd" then
      match codecs.zstd current with
      | some decoder => readContentLimited cancelled maxOutputBytes decoder
      | none => pure none
    else throw (unsupportedEncoding encoding "unsupported")
  match decoded with
  | some stage => pure stage
  | none => throw (unsupportedEncoding encoding "malformed")

/-- The loop over the layers that are left. -/
def decodeLayers : List Bytes → Bytes → Checked DecodeContentError ContentDecodedStage
  | [], current => pure { bytes := current, limited := false }
  | encoding :: rest, current => do
      contentCheck cancelled
      let decoded ← decodeLayer cancelled codecs maxOutputBytes encoding current
      if decoded.limited && rest ≠ [] then throw (.outputLimit maxOutputBytes)
      else if decoded.limited then pure decoded
      else decodeLayers rest decoded.bytes

/-- The parts of a chunk, with what is left of it at most. -/
def flattenParts : Nat → Bytes → Bytes → Checked DecodeContentError Bytes
  | 0, _, bytes => pure bytes
  | fuel + 1, chunk, bytes =>
    if chunk = [] then pure bytes
    else do
      contentCheck cancelled
      flattenParts fuel (chunk.drop decodeCancellationCheckBytes)
        (bytes ++ chunk.take decodeCancellationCheckBytes)

def flattenChunks : List Bytes → Bytes → Checked DecodeContentError Bytes
  | [], bytes => do
      contentCheck cancelled
      pure bytes
  | chunk :: chunks, bytes => do
      let bytes ← flattenParts cancelled chunk.length chunk bytes
      flattenChunks chunks bytes

def flattenContentInput (chunks : List Bytes) : Checked DecodeContentError Bytes :=
  flattenChunks cancelled chunks []

def decodeContentBytes (chunks : List Bytes) (headers : HeaderFields) :
    Checked DecodeContentError DecodedBytes := do
  contentCheck cancelled
  let encodings := contentEncodings headers
  if encodings.length > maxContentEncodingLayers then
    throw (.tooManyLayers encodings.length maxContentEncodingLayers)
  let current ← flattenContentInput cancelled chunks
  let decoded ← decodeLayers cancelled codecs maxOutputBytes encodings.reverse current
  let decoded :=
    if encodings = [] ∧ decoded.bytes.length > maxOutputBytes then
      { bytes := decoded.bytes.take maxOutputBytes, limited := true }
    else decoded
  fun check => (DecodedBytes.finish (fun k => cancelled (check + k)) decoded.bytes
    (encodings.map normalizedEncoding) decoded.limited).map (·, check)

end Decode

end Fluxcope.Capture
