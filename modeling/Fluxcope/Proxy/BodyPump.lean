import Fluxcope.Library.Channel
import Fluxcope.Library.Utf8Chars
import Fluxcope.Capture.System
/-!
# Body pumps

A pump is a task that takes the frames of a body from their source, hands them to
the reader of the body, and shows the capture what it handed over.  The pump that
drains the body of a request answered from a file has no reader.
-/

namespace Fluxcope.Proxy

open Fluxcope.Library Fluxcope.Library.Utf8 Fluxcope.Capture

inductive Frame
  | data (bytes : Bytes)
  | trailers (fields : List (Bytes × Bytes))
  deriving DecidableEq, Repr

def Frame.dataRef : Frame → Option Bytes
  | .data bytes => some bytes
  | .trailers _ => none

/-- The data of frames in one piece. -/
def frameData (frames : List Frame) : Bytes := (frames.filterMap Frame.dataRef).flatten

/-- What the reader of a body may fail with: the proxy shuts down, or the source failed. -/
inductive BodyError
  | interrupted
  | source (error : Bytes)
  deriving DecidableEq, Repr

/-- Why the task of a pump returns. -/
inductive PumpEnd
  | complete
  | failed (error : Bytes)
  | shutdown
  | rejected
  deriving DecidableEq, Repr

/-- What `sender.abort` leaves for the reader. -/
def PumpEnd.error : PumpEnd → Option BodyError
  | .complete | .rejected => none
  | .failed error => some (.source error)
  | .shutdown => some .interrupted

/-- Where the task stands: at `source.frame()`, at `sender.send(frame)`, before the
append, before it drops what it holds, or nowhere any more. -/
inductive PumpPhase
  | reading
  | sending (frame : Frame)
  | noting (bytes : Bytes)
  | leaving (reason : PumpEnd)
  | gone (reason : PumpEnd)
  deriving DecidableEq, Repr

/-- `channel` is `none` for a pump that drains.  The rest from `taken` on is not in the
source: the frames taken from the source of the body, those handed over, what the
capture was shown, and what the reader got, with the end it saw. -/
structure BodyPump where
  sequence : CaptureSequence
  side : BodySide
  channel : Option (Channel Frame BodyError)
  phase : PumpPhase := .reading
  taken : List Frame := []
  handed : List Frame := []
  shown : Bytes := []
  received : List Frame := []
  seen : Option (Option BodyError) := none

/-- `frame`, `sourceFailed` and `sourceEnded` are the answers of `source.frame()`;
`send` is the end of the wait for the channel. -/
inductive PumpEvent
  | frame (frame : Frame)
  | sourceFailed (error : Bytes) (instant : Nat)
  | sourceEnded (instant : Nat)
  | shutdown (instant : Nat)
  | send (instant : Nat)
  | append
  | leave
  | receive
  | dropReader

/-- `tee_body` -/
def teeBody (sequence : CaptureSequence) (side : BodySide) : BodyPump :=
  { sequence, side, channel := some { capacity := 1 } }

/-- `drain_body` -/
def drainBody (sequence : CaptureSequence) : BodyPump :=
  { sequence, side := .request, channel := none }

namespace BodyPump

def failurePrefix (pump : BodyPump) : Bytes :=
  if pump.channel.isSome then encode "source body failed: ".toList
  else encode "request drain failed: ".toList

/-- What the capture is told at the end. -/
def terminal (pump : BodyPump) : PumpEnd → BodyTerminal
  | .complete => .complete
  | .failed error => .failed (pump.failurePrefix ++ error)
  | .shutdown | .rejected => .cancelled

/-- The capture learns of the end before the reader does. -/
def finish (pump : BodyPump) (reason : PumpEnd) (instant : Nat) :
    BodyPump × Option CaptureAction :=
  ({ pump with phase := .leaving reason },
    some (.finish pump.sequence pump.side (pump.terminal reason) instant))

/-- The frame is handed over; the capture is shown its data next. -/
def handOver (pump : BodyPump) (frame : Frame) : BodyPump :=
  { pump with
    handed := pump.handed ++ [frame]
    phase :=
      match frame.dataRef with
      | some bytes => .noting bytes
      | none => .reading }

/-- The reader polls the body, unless it has seen the end. -/
def receive (pump : BodyPump) : Option BodyPump :=
  if pump.seen.isSome then none
  else
    (pump.channel.bind Channel.receive).map fun (result, channel) =>
      let pump := { pump with channel := some channel }
      match result with
      | .value frame => { pump with received := pump.received ++ [frame] }
      | .failed error => { pump with seen := some (some error) }
      | .ended => { pump with seen := some none }

/-- One step of the task, or of the reader, and what it does to the capture.
`none` is for a step that is not possible; `interrupted` tells whether the proxy
shuts down. -/
def step (pump : BodyPump) (interrupted : Bool) :
    PumpEvent → Option (BodyPump × Option CaptureAction)
  | .frame frame =>
    if pump.phase = .reading then
      let pump := { pump with taken := pump.taken ++ [frame] }
      if pump.channel.isSome then some ({ pump with phase := .sending frame }, none)
      else some (pump.handOver frame, none)
    else none
  | .sourceFailed error instant =>
    if pump.phase = .reading then some (pump.finish (.failed error) instant) else none
  | .sourceEnded instant =>
    if pump.phase = .reading then some (pump.finish .complete instant) else none
  | .shutdown instant =>
    if !interrupted then none
    else
      match pump.phase with
      | .reading | .sending _ => some (pump.finish .shutdown instant)
      | _ => none
  | .send instant =>
    match pump.phase with
    | .sending frame =>
      (pump.channel.bind fun channel => channel.send frame).map fun (accepted, channel) =>
        if accepted then ({ pump with channel := some channel }.handOver frame, none)
        else pump.finish .rejected instant
    | _ => none
  | .append =>
    match pump.phase with
    | .noting bytes =>
      some ({ pump with phase := .reading, shown := pump.shown ++ bytes },
        some (.append pump.sequence pump.side bytes))
    | _ => none
  | .leave =>
    match pump.phase with
    | .leaving reason =>
      some ({ pump with
        phase := .gone reason
        channel := pump.channel.map fun channel => channel.finish reason.error },
        some (.dropHandle pump.sequence))
    | _ => none
  | .receive => pump.receive.map fun pump => (pump, none)
  | .dropReader =>
    pump.channel.map fun channel => ({ pump with channel := some channel.dropReceiver }, none)

end BodyPump

end Fluxcope.Proxy
