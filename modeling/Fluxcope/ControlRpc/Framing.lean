import Fluxcope.Control.Error
import Fluxcope.Library.ByteReader
import Fluxcope.Library.Machine
import Fluxcope.Library.Utf8
/-!
# Frames of the private RPC

A frame is a payload of JSON behind its length in four bytes.  The writer of a frame grows
its buffer by doubling, up to a cap; a large payload is parsed from a reader that can be
cancelled, a small one from memory.
-/

namespace Fluxcope.ControlRpc

open Fluxcope.Library Fluxcope.Library.Utf8 Fluxcope.Control

def cancellableJsonReaderThresholdBytes : Nat := 64 * 1024

def frameTooLarge (maxBytes : Nat) : ControlError :=
  { code := .rpcFrameTooLarge
    message := "private RPC frame exceeds its byte limit"
    retryable := false
    details := [("max_bytes", maxBytes)] }

/-- What serializing a value writes, piece by piece; the text of a value is not empty. -/
structure Serialized where
  chunks : List Bytes
  chunks_ne : chunks.flatten ≠ []

def Serialized.payload (value : Serialized) : Bytes := value.chunks.flatten

/-! ## The frame writer -/

/-- A growable buffer. -/
structure Vec where
  bytes : Bytes
  capacity : Nat
  deriving DecidableEq, Repr

/-- `try_reserve_exact` -/
def Vec.reserveExact (v : Vec) (additional : Nat) : Vec :=
  if v.bytes.length + additional ≤ v.capacity then v
  else { v with capacity := v.bytes.length + additional }

def Vec.extend (v : Vec) (bytes : Bytes) : Vec := { v with bytes := v.bytes ++ bytes }

structure CappedFrameWriter where
  buffer : Vec
  maxPayloadBytes : Nat
  overflowed : Bool := false
  deriving DecidableEq, Repr

/-- The loop of `reserve_for`; `none` if it has not ended in so many rounds. -/
def growTarget (required maximum : Nat) : Nat → Nat → Option (Except Unit Nat)
  | 0, _ => none
  | fuel + 1, target =>
    if target < required then
      let target := min (satMul target 2) maximum
      if target < required ∧ target = maximum then some (.error ())
      else growTarget required maximum fuel target
    else some (.ok target)

namespace CappedFrameWriter

def new (maxPayloadBytes : Nat) : CappedFrameWriter :=
  { buffer := (Vec.reserveExact ⟨[], 0⟩ 4).extend [0, 0, 0, 0], maxPayloadBytes }

/-- 64 rounds double a target that is not zero beyond every `usize`. -/
def reserveFor (writer : CappedFrameWriter) (additional : Nat) :
    Option (Except Unit CappedFrameWriter) :=
  let required := writer.buffer.bytes.length + additional
  if required > wordMax then some (.error ())
  else if required ≤ writer.buffer.capacity then some (.ok writer)
  else
    let maximum := writer.maxPayloadBytes + 4
    if maximum > wordMax then some (.error ())
    else
      (growTarget required maximum 64 (max writer.buffer.capacity 4)).map fun grown =>
        grown.map fun target =>
          { writer with
            buffer := writer.buffer.reserveExact (target - writer.buffer.bytes.length) }

/-- `write`: the writer is kept for its flag when there is an error. -/
def write (writer : CappedFrameWriter) (chunk : Bytes) :
    Option (Except CappedFrameWriter CappedFrameWriter) :=
  let payloadLength := writer.buffer.bytes.length - 4
  let nextPayloadLength := payloadLength + chunk.length
  if nextPayloadLength > wordMax then some (.error { writer with overflowed := true })
  else if nextPayloadLength > writer.maxPayloadBytes then
    some (.error { writer with overflowed := true })
  else
    (writer.reserveFor chunk.length).map fun reserved =>
      match reserved with
      | .error () => .error writer
      | .ok writer => .ok { writer with buffer := writer.buffer.extend chunk }

/-- `serde_json::to_writer`: every chunk is written by `write_all`, until one fails. -/
def writeAll (writer : CappedFrameWriter) :
    List Bytes → Option (Except CappedFrameWriter CappedFrameWriter)
  | [] => some (.ok writer)
  | chunk :: chunks =>
    if chunk = [] then writer.writeAll chunks
    else
      (writer.write chunk).bind fun written =>
        match written with
        | .error writer => some (.error writer)
        | .ok writer => writer.writeAll chunks

end CappedFrameWriter

/-- `u32::to_be_bytes` -/
def toBeBytes (n : Nat) : Bytes :=
  [UInt8.ofNat (n / 2 ^ 24), UInt8.ofNat (n / 2 ^ 16), UInt8.ofNat (n / 2 ^ 8), UInt8.ofNat n]

/-- `u32::from_be_bytes` -/
def fromBeBytes (bytes : Bytes) : Nat := bytes.foldl (fun n b => n * 2 ^ 8 + b.toNat) 0

def CappedFrameWriter.finish (writer : CappedFrameWriter) : Except ControlError Vec :=
  let payloadLength := writer.buffer.bytes.length - 4
  if payloadLength < 2 ^ 32 then
    .ok { writer.buffer with
          bytes := toBeBytes payloadLength ++ writer.buffer.bytes.drop 4 }
  else .error (frameTooLarge writer.maxPayloadBytes)

/-- The part of `encode_json_frame` behind the serialization. -/
def finishEncoding (maxPayloadBytes : Nat) :
    Except CappedFrameWriter CappedFrameWriter → Except ControlError Vec
  | .error writer =>
    if writer.overflowed then .error (frameTooLarge maxPayloadBytes)
    else .error (.invalidArgument "private RPC frame limit exceeded")
  | .ok writer =>
    if writer.overflowed then .error (frameTooLarge maxPayloadBytes) else writer.finish

def encodeJsonFrame (value : Serialized) (maxPayloadBytes : Nat) :
    Option (Except ControlError Vec) :=
  ((CappedFrameWriter.new maxPayloadBytes).writeAll value.chunks).map
    (finishEncoding maxPayloadBytes)

/-! ## The counting writer -/

structure CappedCountingWriter where
  payloadBytes : Nat
  maxPayloadBytes : Nat
  overflowed : Bool
  deriving DecidableEq, Repr

namespace CappedCountingWriter

def write (writer : CappedCountingWriter) (chunk : Bytes) :
    Except CappedCountingWriter CappedCountingWriter :=
  let nextPayloadBytes := writer.payloadBytes + chunk.length
  if nextPayloadBytes > wordMax then .error { writer with overflowed := true }
  else if nextPayloadBytes > writer.maxPayloadBytes then
    .error { writer with overflowed := true }
  else .ok { writer with payloadBytes := nextPayloadBytes }

def writeAll (writer : CappedCountingWriter) :
    List Bytes → Except CappedCountingWriter CappedCountingWriter
  | [] => .ok writer
  | chunk :: chunks =>
    if chunk = [] then writer.writeAll chunks
    else
      match writer.write chunk with
      | .error writer => .error writer
      | .ok writer => writer.writeAll chunks

end CappedCountingWriter

def ensureJsonPayloadWithinLimit (value : Serialized) (maxPayloadBytes : Nat) :
    Except ControlError Unit :=
  let writer : CappedCountingWriter :=
    { payloadBytes := 0, maxPayloadBytes, overflowed := false }
  match writer.writeAll value.chunks with
  | .error writer =>
    if writer.overflowed then .error (frameTooLarge maxPayloadBytes)
    else .error (.invalidArgument "private RPC frame limit exceeded")
  | .ok writer => if writer.overflowed then .error (frameTooLarge maxPayloadBytes) else .ok ()

/-! ## The frame reader -/

/-- `read_exact`, with what the stream has left. -/
def readExact (stream : Bytes) (size : Nat) : Option (Bytes × Bytes) :=
  if size ≤ stream.length then some (stream.take size, stream.drop size) else none

def readFramePayload (stream : Bytes) (maxBytes : Nat) : Except ControlError (Bytes × Bytes) :=
  match readExact stream 4 with
  | none => .error (.invalidArgument "private RPC frame prefix is truncated")
  | some (lengthBytes, stream) =>
    let declared := fromBeBytes lengthBytes
    if declared > maxBytes then .error (frameTooLarge maxBytes)
    else
      match readExact stream declared with
      | none => .error (.invalidArgument "private RPC frame payload is truncated")
      | some (payload, stream) => .ok (payload, stream)

/-! ## The parsers -/

/-- `T::deserialize` as `serde_json` drives it: a program that reads bytes, with the texts of
its errors. -/
structure Deserialize (T : Type) where
  State : Type
  start : State
  program : State → Request State String T

/-- `Deserializer::end`: white space and nothing else. -/
inductive EndState
  | parseWhitespace
  | ended
  | trailing

def isJsonWhitespace (b : UInt8) : Bool := b = 0x20 || b = 0x0A || b = 0x09 || b = 0x0D

/-- A blank is looked at first and then taken, which does not change where the program is. -/
def endProgram : EndState × Bool → Request (EndState × Bool) String Unit
  | (.parseWhitespace, false) =>
    .peek fun b =>
      match b with
      | none => (.ended, false)
      | some b => if isJsonWhitespace b then (.parseWhitespace, true) else (.trailing, false)
  | (.parseWhitespace, true) => .next fun _ => (.parseWhitespace, false)
  | (.ended, _) => .done ()
  | (.trailing, _) => .fail "trailing characters"

/-- A deserializer over a source: the value, then the end. -/
def deserializeToEnd {ρ T : Type} (source : ByteSource ρ String) (deserialize : Deserialize T)
    (fuel : Nat) (r : ρ) : Option (Except String T) :=
  (runOn source deserialize.program fuel deserialize.start r).bind fun (value, r) =>
    match value with
    | .error error => some (.error error)
    | .ok value =>
      (runOn source endProgram fuel (.parseWhitespace, false) r).map fun (completed, _) =>
        completed.map fun () => value

def strictFromSlice {T : Type} (deserialize : Deserialize T) (fuel : Nat) (payload : Bytes) :
    Option (Except ControlError T) :=
  (deserializeToEnd sliceSource deserialize fuel payload).map fun result =>
    result.mapError .invalidArgument

/-- `serde_json`'s reader of bytes over a buffered `CancellationReader`: a byte that was
looked at, the buffer, the rest of the payload, and how often the flag was asked. -/
structure CancellationReader where
  peeked : Option UInt8 := none
  buffer : Bytes := []
  inner : Bytes
  polls : Nat
  deriving DecidableEq, Repr

namespace CancellationReader

variable (cancelled : Nat → Bool)

def bufferBytes : Nat := 32 * 1024

/-- A byte of the buffer, which is filled when it is empty. -/
def readByte (reader : CancellationReader) : Except String (Option UInt8 × CancellationReader) :=
  match reader.buffer with
  | b :: buffer => .ok (some b, { reader with buffer })
  | [] =>
    if cancelled reader.polls then .error "private RPC response parsing cancelled"
    else
      match reader.inner.take bufferBytes with
      | [] => .ok (none, { reader with polls := reader.polls + 1 })
      | b :: buffer =>
        .ok (some b,
          { reader with
            buffer
            inner := reader.inner.drop bufferBytes
            polls := reader.polls + 1 })

def next (reader : CancellationReader) : Except String (Option UInt8 × CancellationReader) :=
  match reader.peeked with
  | some b => .ok (some b, { reader with peeked := none })
  | none => reader.readByte cancelled

def peek (reader : CancellationReader) : Except String (Option UInt8 × CancellationReader) :=
  match reader.peeked with
  | some b => .ok (some b, reader)
  | none => do
      let (b, reader) ← reader.readByte cancelled
      pure (b, { reader with peeked := b })

def source : ByteSource CancellationReader String where
  peek := peek cancelled
  next := next cancelled

end CancellationReader

def responseParsingCancelled : ControlError :=
  .cancelled "private RPC response parsing cancelled"

/-- The path of a small payload; the flag is asked again behind it. -/
def parseFromSlice {T : Type} (deserialize : Deserialize T) (cancelled : Nat → Bool) (fuel : Nat)
    (payload : Bytes) : Option (Except ControlError T) :=
  (strictFromSlice deserialize fuel payload).map fun result =>
    if cancelled 1 then .error responseParsingCancelled else result

/-- The path of a large payload; the flag is asked by every read, behind the value and behind
the end. -/
def parseFromReader {T : Type} (deserialize : Deserialize T) (cancelled : Nat → Bool) (fuel : Nat)
    (payload : Bytes) : Option (Except ControlError T) :=
  let source := CancellationReader.source cancelled
  (runOn source deserialize.program fuel deserialize.start { inner := payload, polls := 1 }).bind
    fun (value, reader) =>
      if cancelled reader.polls then some (.error responseParsingCancelled)
      else
        match value with
        | .error error => some (.error (.invalidArgument error))
        | .ok value =>
          (runOn source endProgram fuel (.parseWhitespace, false)
              { reader with polls := reader.polls + 1 }).map fun (completed, reader) =>
            if cancelled reader.polls then .error responseParsingCancelled
            else (completed.mapError .invalidArgument).map fun () => value

def parseJsonPayloadCancellable {T : Type} (deserialize : Deserialize T) (cancelled : Nat → Bool)
    (fuel : Nat) (payload : Bytes) : Option (Except ControlError T) :=
  if cancelled 0 then some (.error responseParsingCancelled)
  else if payload.length ≤ cancellableJsonReaderThresholdBytes then
    parseFromSlice deserialize cancelled fuel payload
  else parseFromReader deserialize cancelled fuel payload

end Fluxcope.ControlRpc
