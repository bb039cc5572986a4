import Fluxcope.Library.Lines
import Fluxcope.Library.Machine
import Fluxcope.Library.Run
import Fluxcope.Library.Utf8
/-!
# Bounded lines on standard input and output

The reader counts the bytes of the line it is in across polls, and stops at a line that is
too long.  The writer checks a whole buffer before the sink sees any of it, and counts what
the sink has taken.
-/

namespace Fluxcope.Mcp

open Fluxcope.Library Fluxcope.Library.Utf8

def newline : UInt8 := 0x0A

/-! ## The reader -/

/-- What a read of the underlying stream comes to; `ready 0` is its end. -/
inductive SourceRead
  | pending
  | failed
  | ready (size : Nat)
  deriving DecidableEq, Repr

/-- `tokio::io::BufReader` over what the stream still holds. -/
structure BufReader where
  buffer : Bytes := []
  source : Bytes
  deriving DecidableEq, Repr

inductive FillBuf
  | pending
  | failed
  | ready
  deriving DecidableEq, Repr

/-- `poll_fill_buf`: the stream is read only when the buffer is empty. -/
def BufReader.pollFillBuf (inner : BufReader) (read : SourceRead) : FillBuf × BufReader :=
  if inner.buffer ≠ [] then (.ready, inner)
  else
    match read with
    | .pending => (.pending, inner)
    | .failed => (.failed, inner)
    | .ready size =>
      (.ready, { buffer := inner.source.take size, source := inner.source.drop size })

def BufReader.consume (inner : BufReader) (amount : Nat) : BufReader :=
  { inner with buffer := inner.buffer.drop amount }

structure BoundedLineReader where
  inner : BufReader
  lineBytes : Nat := 0
  maxLineBytes : Nat
  deriving DecidableEq, Repr

inductive PollRead
  | pending
  | failed
  /-- "MCP stdio request line exceeds the fixed byte limit" -/
  | lineTooLong
  /-- The bytes that were put into the output; none at the end of the stream. -/
  | ready (output : Bytes)
  deriving DecidableEq, Repr

namespace BoundedLineReader

def new (source : Bytes) (maxLineBytes : Nat) : BoundedLineReader :=
  { inner := { source }, maxLineBytes }

/-- The part of `poll_read` after the buffer has been filled. -/
def takeSegment (reader : BoundedLineReader) (remaining : Nat) : PollRead × BoundedLineReader :=
  let available := reader.inner.buffer
  if available = [] then (.ready [], reader)
  else
    let newlineAt := available.findIdx? (· = newline)
    let contentBytes := newlineAt.getD available.length
    if satAdd reader.lineBytes contentBytes > reader.maxLineBytes then (.lineTooLong, reader)
    else
      let segmentBytes := (newlineAt.map (· + 1)).getD available.length
      let copied := min segmentBytes remaining
      (.ready (available.take copied),
        { reader with
          inner := reader.inner.consume copied
          lineBytes :=
            if newlineAt.any (copied > ·) then 0 else satAdd reader.lineBytes copied })

/-- `poll_read`; `remaining` is the room in the output buffer. -/
def pollRead (reader : BoundedLineReader) (read : SourceRead) (remaining : Nat) :
    PollRead × BoundedLineReader :=
  if remaining = 0 then (.ready [], reader)
  else
    match reader.inner.pollFillBuf read with
    | (.pending, inner) => (.pending, { reader with inner })
    | (.failed, inner) => (.failed, { reader with inner })
    | (.ready, inner) => { reader with inner }.takeSegment remaining

end BoundedLineReader

/-- A reader, and what its polls have come to so far. -/
structure ReadSystem where
  reader : BoundedLineReader
  delivered : Bytes := []
  lineTooLong : Bool := false
  ended : Bool := false
  deriving DecidableEq, Repr

structure ReadEvent where
  read : SourceRead
  remaining : Nat

/-- A stream gives at least one byte unless it is at its end. -/
def SourceRead.Possible (read : SourceRead) (source : Bytes) : Prop :=
  match read with
  | .pending | .failed => True
  | .ready size => size ≤ source.length ∧ (size = 0 → source = [])

instance (read : SourceRead) (source : Bytes) : Decidable (read.Possible source) := by
  unfold SourceRead.Possible
  split <;> infer_instance

namespace ReadSystem

def new (source : Bytes) (maxLineBytes : Nat) : ReadSystem :=
  { reader := .new source maxLineBytes }

def step (s : ReadSystem) (event : ReadEvent) : Option ReadSystem :=
  if event.read.Possible s.reader.inner.source then
    match s.reader.pollRead event.read event.remaining with
    | (.pending, reader) | (.failed, reader) => some { s with reader }
    | (.lineTooLong, reader) => some { s with reader, lineTooLong := true }
    | (.ready output, reader) =>
      some
        { s with
          reader
          delivered := s.delivered ++ output
          ended := s.ended || (event.remaining ≠ 0 && output = []) }
  else none

end ReadSystem

/-! ## The writer -/

structure BoundedLineWriter where
  lineBytes : Nat := 0
  maxLineBytes : Nat
  deriving DecidableEq, Repr

namespace BoundedLineWriter

/-- The loop of `validate`: no error, if it gets to the end. -/
def validateLoop (maxLineBytes : Nat) : Nat → List Bytes → Bool
  | _, [] => true
  | lineBytes, segment :: segments =>
    let terminated : Bool := segment.getLast? = some newline
    let contentBytes := segment.length - terminated.toNat
    let lineBytes := satAdd lineBytes contentBytes
    if lineBytes > maxLineBytes then false
    else validateLoop maxLineBytes (if terminated then 0 else lineBytes) segments

def validate (writer : BoundedLineWriter) (bytes : Bytes) : Bool :=
  validateLoop writer.maxLineBytes writer.lineBytes (splitInclusive newline bytes)

def account (writer : BoundedLineWriter) (bytes : Bytes) : BoundedLineWriter :=
  { writer with
    lineBytes := (splitInclusive newline bytes).foldl
      (fun lineBytes segment =>
        if segment.getLast? = some newline then 0 else satAdd lineBytes segment.length)
      writer.lineBytes }

end BoundedLineWriter

/-- What a write to the sink comes to. -/
inductive SinkWrite
  | pending
  | failed
  | ready (written : Nat)
  deriving DecidableEq, Repr

inductive PollWrite
  | pending
  | failed
  /-- "MCP stdio response line exceeds the fixed byte limit" -/
  | lineTooLong
  | ready (written : Nat)
  deriving DecidableEq, Repr

/-- The sink is not written to when the buffer does not pass. -/
def BoundedLineWriter.pollWrite (writer : BoundedLineWriter) (bytes : Bytes)
    (sink : SinkWrite) : PollWrite × BoundedLineWriter :=
  if writer.validate bytes then
    match sink with
    | .ready written => (.ready written, writer.account (bytes.take written))
    | .pending => (.pending, writer)
    | .failed => (.failed, writer)
  else (.lineTooLong, writer)

/-- A writer, what its sink has taken, and the parts of the buffers that the writes
reported as written. -/
structure WriteSystem where
  writer : BoundedLineWriter
  sink : Bytes := []
  accepted : List Bytes := []
  deriving DecidableEq, Repr

structure WriteEvent where
  bytes : Bytes
  sink : SinkWrite

/-- A sink takes no more than it is given. -/
def SinkWrite.Possible (sink : SinkWrite) (bytes : Bytes) : Prop :=
  match sink with
  | .pending | .failed => True
  | .ready written => written ≤ bytes.length

instance (sink : SinkWrite) (bytes : Bytes) : Decidable (sink.Possible bytes) := by
  unfold SinkWrite.Possible
  split <;> infer_instance

namespace WriteSystem

def new (maxLineBytes : Nat) : WriteSystem := { writer := { maxLineBytes } }

/-- What reaches the sink: its part of the buffer, if the buffer was handed to it. -/
def taken (writer : BoundedLineWriter) (event : WriteEvent) : Bytes :=
  match event.sink with
  | .ready written => if writer.validate event.bytes then event.bytes.take written else []
  | .pending | .failed => []

def step (s : WriteSystem) (event : WriteEvent) : Option WriteSystem :=
  if event.sink.Possible event.bytes then
    let (result, writer) := s.writer.pollWrite event.bytes event.sink
    some
      { writer
        sink := s.sink ++ taken s.writer event
        accepted :=
          match result with
          | .ready written => s.accepted ++ [event.bytes.take written]
          | .pending | .failed | .lineTooLong => s.accepted }
  else none

end WriteSystem

end Fluxcope.Mcp
