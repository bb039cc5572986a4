import Fluxcope.Control.Error
import Fluxcope.Library.JsonPointer
import Fluxcope.Library.Utf8Text
/-!
# The JSON walker

The walker follows the events of the parser, keeps the pointer of the value at hand
and tells an observer what it meets.  It leaves a subtree to itself when the observer
does not descend, but keeps following its events.
-/

namespace Fluxcope.Control

open Fluxcope.Library Fluxcope.Library.Utf8

def maxJsonInputBytes : Nat := 16 * 1024 * 1024
def maxJsonDepth : Nat := 512
def maxJsonExamples : Nat := 20
def maxJsonHints : Nat := 20
def maxJsonResultBytes : Nat := 64 * 1024
def maxJsonPointerBytes : Nat := 32 * 1024
def maxJsonFieldNameBytes : Nat := 4 * 1024
def retainedResultWireBudget : Nat := 48 * 1024

/-! ## Errors -/

def malformedJson (message : String) : ControlError :=
  { code := .malformedJson, message, retryable := false }

def invalidJsonArgument (message : String) (field : Option String := none)
    (details : List (String × Nat) := []) : ControlError :=
  { code := .invalidArgument, message, retryable := false, field, details }

def pointerPathLimit : ControlError :=
  { code := .resourceLimit
    message := "capture JSON pointer exceeds the traversal path limit"
    retryable := false
    details := [("maximum_pointer_bytes", maxJsonPointerBytes)] }

def depthLimit : ControlError :=
  { code := .jsonDepthLimit
    message := "capture JSON nesting exceeds the traversal limit"
    retryable := false
    details := [("maximum_depth", maxJsonDepth)] }

structure TextPosition where
  line : Nat
  column : Nat
  offset : Nat
  deriving DecidableEq, Repr

structure JsonSyntaxError where
  start : TextPosition
  stop : TextPosition
  deriving DecidableEq, Repr

/-- Where the error is, without its text. -/
def safeJsonSyntaxError (error : JsonSyntaxError) : ControlError :=
  { code := .malformedJson
    message := "capture body contains malformed JSON"
    retryable := false
    details :=
      [("start.line", error.start.line), ("start.column", error.start.column),
        ("start.offset", error.start.offset), ("end.line", error.stop.line),
        ("end.column", error.stop.column), ("end.offset", error.stop.offset)] }

/-! ## Pointers -/

structure JsonPointer where
  asStr : Text
  deriving DecidableEq, Repr

/-- The parts of a pointer between its slashes. -/
def pointerRawSegments (pointer : Text) : List Text :=
  match pointer with
  | '/' :: remainder => remainder.splitOn '/'
  | _ => []

def decodeSegment (allowLiteralStar : Bool) : Text → Except ControlError Text
  | [] => .ok []
  | '~' :: '0' :: raw => (decodeSegment allowLiteralStar raw).map ('~' :: ·)
  | '~' :: '1' :: raw => (decodeSegment allowLiteralStar raw).map ('/' :: ·)
  | '~' :: c :: raw =>
    if c = '2' && allowLiteralStar then (decodeSegment allowLiteralStar raw).map ('*' :: ·)
    else .error (invalidJsonArgument "JSON pointer contains an invalid escape")
  | ['~'] => .error (invalidJsonArgument "JSON pointer contains an invalid escape")
  | c :: raw => (decodeSegment allowLiteralStar raw).map (c :: ·)

def validatePointerText (raw : Text) (pattern : Bool) : Except ControlError Unit :=
  if Text.utf8Len raw > maxJsonPointerBytes then
    .error (invalidJsonArgument "JSON pointer exceeds the maximum length" none
      [("maximum_bytes", maxJsonPointerBytes)])
  else if raw ≠ [] && raw.head? ≠ some '/' then
    .error (invalidJsonArgument "JSON pointer must be empty or start with '/'")
  else (pointerRawSegments raw).forM fun segment => (decodeSegment pattern segment).map fun _ => ()

def JsonPointer.parse (raw : Text) : Except ControlError JsonPointer :=
  (validatePointerText raw false).map fun _ => { asStr := raw }

/-! ## Observers -/

structure WalkPath where
  raw : Text
  segment : Option Text
  depth : Nat
  deriving DecidableEq, Repr

/-- What the walker tells an observer with state `σ`, and asks it. -/
structure JsonWalkObserver (σ : Type) where
  valueStart : σ → WalkPath → σ := fun s _ => s
  valueEnd : σ → σ := id
  scalar : σ → WalkPath → JsonType → Option Nat → Option Bytes → σ
  objectStart : σ → WalkPath → σ
  objectEnd : σ → WalkPath → Nat → σ
  arrayStart : σ → WalkPath → σ
  arrayEnd : σ → WalkPath → Nat → σ
  objectKey : σ → WalkPath → Text → σ := fun s _ _ => s
  wantsScalarEncodedBytes : σ → Bool := fun _ => false
  wantsScalarToken : σ → Bool := fun _ => false
  shouldDescend : σ → Bool

/-! ## The state of the walk -/

/-- Places in the path count its characters. -/
structure ValuePathState where
  restorePathLen : Nat
  segmentStart : Option Nat
  depth : Nat
  deriving DecidableEq, Repr

inductive ContainerKind
  | object (childCount : Nat) (pendingValue : Option ValuePathState)
  | array (length : Nat)
  deriving DecidableEq, Repr

structure ContainerFrame where
  kind : ContainerKind
  value : ValuePathState
  observed : Bool
  descend : Bool
  deriving DecidableEq, Repr

/-- The innermost frame comes first. -/
structure WalkState (σ : Type) where
  observer : σ
  path : Text := []
  frames : List ContainerFrame := []
  rootSeen : Bool := false

def walkPath (path : Text) (value : ValuePathState) : WalkPath :=
  { raw := path, segment := value.segmentStart.map fun start => path.drop start, depth := value.depth }

def checkDepth (depth : Nat) : Except ControlError Unit :=
  if depth ≤ maxJsonDepth then .ok () else .error depthLimit

/-- One turn of the loop over the characters of a segment. -/
def appendPointerChar (path : Text) (character : Char) : Except ControlError Text :=
  let encoded := escapePointerChar character
  if Text.utf8Len path + Text.utf8Len encoded > maxJsonPointerBytes then .error pointerPathLimit
  else .ok (path ++ encoded)

/-- The longer path, and where the segment begins. -/
def appendPointerSegment (path segment : Text) : Except ControlError (Text × Nat) :=
  if Text.utf8Len path = maxJsonPointerBytes then .error pointerPathLimit
  else
    let path := path ++ ['/']
    (segment.foldlM appendPointerChar path).map fun longer => (longer, path.length)

/-- `source_token_start` -/
def sourceTokenStart (input : Bytes) (offset stop : Nat) : Nat :=
  offset + (((input.drop offset).take (stop - offset)).takeWhile isSeparator).length

section Walk

variable {σ : Type}

/-- Whether the values in the innermost container are shown to the observer. -/
def WalkState.descends (state : WalkState σ) : Bool :=
  match state.frames with
  | [] => true
  | frame :: _ => frame.descend

/-- The place of the next value. -/
def prepareValuePath (state : WalkState σ) : Except ControlError (ValuePathState × WalkState σ) :=
  match state.frames with
  | [] =>
    if state.rootSeen then
      .error (malformedJson "JSON document contains more than one root value")
    else
      .ok ({ restorePathLen := state.path.length, segmentStart := none, depth := 0 },
        { state with rootSeen := true })
  | parent :: frames =>
    match parent.kind with
    | .object _ none => .error (malformedJson "JSON object value has no key")
    | .object childCount (some value) =>
      .ok (value, { state with
        frames := { parent with kind := .object childCount none } :: frames })
    | .array length =>
      (appendPointerSegment state.path (indexSegment length)).map fun (path, segmentStart) =>
        ({ restorePathLen := state.path.length
           segmentStart := some segmentStart
           depth := parent.value.depth + 1 },
          { state with
            path
            frames := { parent with kind := .array (length + 1) } :: frames })

variable (observer : JsonWalkObserver σ)

def objectKeyEvent (state : WalkState σ) (key : Text) : Except ControlError (WalkState σ) :=
  match state.frames with
  | [] => .error (malformedJson "JSON object key appears outside an object")
  | frame :: frames =>
    match frame.kind with
    | .array _ => .error (malformedJson "JSON object key appears inside an array")
    | .object _ (some _) => .error (malformedJson "JSON object key has no preceding value")
    | .object childCount none =>
      (appendPointerSegment state.path key).map fun (path, segmentStart) =>
        let value : ValuePathState :=
          { restorePathLen := state.path.length
            segmentStart := some segmentStart
            depth := frame.value.depth + 1 }
        { state with
          path
          frames := { frame with kind := .object (childCount + 1) (some value) } :: frames
          observer :=
            if frame.descend then observer.objectKey state.observer (walkPath path value) key
            else state.observer }

/-- `StartObject` and `StartArray`, with the call that reports the one or the other. -/
def startContainer (report : σ → WalkPath → σ) (kind : ContainerKind) (state : WalkState σ) :
    Except ControlError (WalkState σ) := do
  let (value, state) ← prepareValuePath state
  checkDepth (state.frames.length + 1)
  let observed := state.descends
  let view := walkPath state.path value
  let shown := if observed then report (observer.valueStart state.observer view) view else state.observer
  .ok { state with
    observer := shown
    frames :=
      { kind, value, observed, descend := observed && observer.shouldDescend shown } :: state.frames }

def startObject (state : WalkState σ) : Except ControlError (WalkState σ) :=
  startContainer observer observer.objectStart (.object 0 none) state

def startArray (state : WalkState σ) : Except ControlError (WalkState σ) :=
  startContainer observer observer.arrayStart (.array 0) state

def endObject (state : WalkState σ) : Except ControlError (WalkState σ) :=
  match state.frames with
  | [] => .error (malformedJson "JSON object end has no matching start")
  | frame :: frames =>
    match frame.kind with
    | .array _ => .error (malformedJson "JSON object end closes an array")
    | .object _ (some _) => .error (malformedJson "JSON object key has no value")
    | .object childCount none =>
      .ok { state with
        frames
        path := state.path.take frame.value.restorePathLen
        observer :=
          if frame.observed then
            observer.valueEnd
              (observer.objectEnd state.observer (walkPath state.path frame.value) childCount)
          else state.observer }

def endArray (state : WalkState σ) : Except ControlError (WalkState σ) :=
  match state.frames with
  | [] => .error (malformedJson "JSON array end has no matching start")
  | frame :: frames =>
    match frame.kind with
    | .object _ _ => .error (malformedJson "JSON array end closes an object")
    | .array length =>
      .ok { state with
        frames
        path := state.path.take frame.value.restorePathLen
        observer :=
          if frame.observed then
            observer.valueEnd
              (observer.arrayEnd state.observer (walkPath state.path frame.value) length)
          else state.observer }

/-- The bytes from `eventCallStart` to `eventEnd` are those consumed for the event. -/
def scalarEvent (input : Bytes) (eventCallStart eventEnd : Nat) (kind : JsonType)
    (state : WalkState σ) : Except ControlError (WalkState σ) := do
  let (value, state) ← prepareValuePath state
  let view := walkPath state.path value
  let tokenStart := sourceTokenStart input eventCallStart eventEnd
  let shown :=
    if state.descends then
      let started := observer.valueStart state.observer view
      let encodedBytes :=
        if observer.wantsScalarEncodedBytes started then some (eventEnd - tokenStart) else none
      let encodedToken :=
        if observer.wantsScalarToken started then
          some ((input.drop tokenStart).take (eventEnd - tokenStart))
        else none
      observer.valueEnd (observer.scalar started view kind encodedBytes encodedToken)
    else state.observer
  .ok { state with observer := shown, path := state.path.take value.restorePathLen }

def walkEvent (input : Bytes) (eventCallStart eventEnd : Nat) (state : WalkState σ) :
    JsonEvent → Except ControlError (WalkState σ)
  | .objectKey key => objectKeyEvent observer state key
  | .startObject => startObject observer state
  | .startArray => startArray observer state
  | .endObject => endObject observer state
  | .endArray => endArray observer state
  | .string => scalarEvent observer input eventCallStart eventEnd .string state
  | .number => scalarEvent observer input eventCallStart eventEnd .number state
  | .boolean => scalarEvent observer input eventCallStart eventEnd .boolean state
  | .null => scalarEvent observer input eventCallStart eventEnd .null state
  | .eof => .ok state

/-! ## The walk -/

/-- The result of one call of `parse_next` on the rest of the input. -/
structure ParserResult where
  consumedBytes : Nat
  event : Option (Except JsonSyntaxError JsonEvent)
  deriving Repr

/-- The results of the successive calls of the parser on an input. -/
abbrev JsonEventParser := Bytes → List ParserResult

/-- The loop of `walk_json`.  The parser always has a next result before the end. -/
def walkEvents (input : Bytes) (inputOffset : Nat) (state : WalkState σ) :
    List ParserResult → Except ControlError σ
  | [] => .error (.internal "JSON parser made no progress without an event")
  | parsed :: results =>
    let eventCallStart := inputOffset
    let inputOffset := inputOffset + parsed.consumedBytes
    match parsed.event with
    | none =>
      if parsed.consumedBytes = 0 then
        .error (.internal "JSON parser made no progress without an event")
      else walkEvents input inputOffset state results
    | some (.error error) => .error (safeJsonSyntaxError error)
    | some (.ok .eof) =>
      if state.frames ≠ [] || !state.rootSeen then
        .error (malformedJson "JSON document is incomplete")
      else .ok state.observer
    | some (.ok event) =>
      match walkEvent observer input eventCallStart inputOffset state event with
      | .error error => .error error
      | .ok state => walkEvents input inputOffset state results

def validateJsonInput (input : Bytes) : Except ControlError Unit :=
  if input.length > maxJsonInputBytes then
    .error
      { code := .jsonSizeLimit
        message := "capture JSON body exceeds the decoded input limit"
        retryable := false
        details := [("maximum_bytes", maxJsonInputBytes), ("received_bytes", input.length)] }
  else
    match fromUtf8 input with
    | some _ =>
      .error
        { code := .undecodableBody
          message := "capture body is not UTF-8 JSON text"
          retryable := false }
    | none => .ok ()

def walkJson (parser : JsonEventParser) (input : Bytes) (start : σ) : Except ControlError σ :=
  match validateJsonInput input with
  | .error error => .error error
  | .ok () => walkEvents observer input 0 { observer := start } (parser input)

end Walk

end Fluxcope.Control
