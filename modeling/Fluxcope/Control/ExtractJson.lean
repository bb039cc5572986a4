import Fluxcope.Control.JsonWalk
import Fluxcope.Library.JsonWriter
/-!
# Extracting a selection

The selector writes down the first value with the wanted pointer.  On the way it notes
how far the pointer can be followed, for the answer when there is no such value.
-/

namespace Fluxcope.Control

open Fluxcope.Library Fluxcope.Library.Utf8

structure JsonNextSegmentHint where
  segment : Text
  valueType : JsonType
  deriving DecidableEq, Repr

structure JsonSelection where
  bytes : Bytes
  deriving DecidableEq, Repr

structure JsonSelectionMiss where
  longestValidPrefix : JsonPointer
  next : List JsonNextSegmentHint
  omittedNext : Nat
  deriving DecidableEq, Repr

inductive SelectedContainer
  | object (first : Bool)
  | array (first : Bool)
  deriving DecidableEq, Repr

/-- The innermost selected container comes first. -/
structure JsonSelector where
  output : Bytes := []
  containers : List SelectedContainer := []
  capturing : Bool := false
  selected : Bool := false
  error : Option ControlError := none
  longestPrefix : JsonPointer := { asStr := [] }
  longestDepth : Nat := 0
  next : List JsonNextSegmentHint := []
  omittedNext : Nat := 0
  deriving DecidableEq, Repr

/-- What stands before the last slash. -/
def parentPointer (path : Text) : Text :=
  ((path.reverse.dropWhile fun c => c ≠ '/').drop 1).reverse

def selectionSizeLimit : ControlError :=
  { code := .jsonSizeLimit
    message := "selected JSON representation exceeds the size limit"
    retryable := false
    details := [("maximum_bytes", maxJsonInputBytes)] }

namespace JsonSelector

/-- One turn of the loop over the chunks of what is appended. -/
def appendChunk (selector : JsonSelector) (chunk : Bytes) : JsonSelector :=
  if selector.error.isSome then selector
  else if selector.output.length + chunk.length > maxJsonInputBytes then
    { selector with error := some selectionSizeLimit }
  else { selector with output := selector.output ++ chunk }

def appendLoop : Nat → Bytes → JsonSelector → JsonSelector
  | 0, _, selector => selector
  | fuel + 1, bytes, selector =>
    if bytes = [] then selector
    else appendLoop fuel (bytes.drop (32 * 1024)) (selector.appendChunk (bytes.take (32 * 1024)))

/-- Every chunk has a byte at least, so the length is fuel enough. -/
def append (selector : JsonSelector) (bytes : Bytes) : JsonSelector :=
  appendLoop bytes.length bytes selector

def beginValue (target : JsonPointer) (selector : JsonSelector) (path : WalkPath) : JsonSelector :=
  if !selector.capturing && !selector.selected && path.raw = target.asStr then
    { selector with capturing := true, selected := true }
  else if selector.capturing then
    match selector.containers with
    | .array first :: containers =>
      { selector with containers := .array false :: containers }.append
        (if first then [] else [0x2C])
    | _ => selector
  else selector

def noteValue (target : JsonPointer) (selector : JsonSelector) (path : WalkPath) (kind : JsonType) :
    JsonSelector :=
  let isPrefix := path.raw = [] || target.asStr = path.raw ||
    (path.raw.isPrefixOf target.asStr &&
      (target.asStr.drop path.raw.length).head? = some '/')
  if isPrefix && path.depth ≥ selector.longestDepth then
    if path.depth > selector.longestDepth || selector.longestPrefix.asStr ≠ path.raw then
      { selector with
        longestPrefix := { asStr := path.raw }
        longestDepth := path.depth
        next := []
        omittedNext := 0 }
    else selector
  else if path.depth ≠ selector.longestDepth + 1 ||
      parentPointer path.raw ≠ selector.longestPrefix.asStr then selector
  else
    match path.segment with
    | none => selector
    | some segment =>
      if selector.next.length ≥ maxJsonHints then
        { selector with omittedNext := selector.omittedNext + 1 }
      else
        let segment :=
          match decodeSegment false segment with
          | .ok decoded => decoded
          | .error _ => segment
        { selector with next := selector.next ++ [{ segment, valueType := kind }] }

def finishValue (selector : JsonSelector) : JsonSelector :=
  if selector.capturing && selector.containers = [] then { selector with capturing := false }
  else selector

def scalar (target : JsonPointer) (selector : JsonSelector) (path : WalkPath) (kind : JsonType)
    (encodedToken : Option Bytes) : JsonSelector :=
  let selector := selector.noteValue target path kind
  if selector.capturing then
    match encodedToken with
    | some token => selector.append token
    | none =>
      { selector with
        error := some (.internal "JSON extraction did not receive a scalar token") }
  else selector

def objectStart (target : JsonPointer) (selector : JsonSelector) (path : WalkPath) : JsonSelector :=
  let selector := selector.noteValue target path .object
  if selector.capturing then
    let selector := selector.append [0x7B]
    { selector with containers := .object true :: selector.containers }
  else selector

def objectEnd (selector : JsonSelector) : JsonSelector :=
  match selector.capturing, selector.containers with
  | true, .object _ :: _ =>
    let selector := selector.append [0x7D]
    { selector with containers := selector.containers.tail }
  | _, _ => selector

def arrayStart (target : JsonPointer) (selector : JsonSelector) (path : WalkPath) : JsonSelector :=
  let selector := selector.noteValue target path .array
  if selector.capturing then
    let selector := selector.append [0x5B]
    { selector with containers := .array true :: selector.containers }
  else selector

def arrayEnd (selector : JsonSelector) : JsonSelector :=
  match selector.capturing, selector.containers with
  | true, .array _ :: _ =>
    let selector := selector.append [0x5D]
    { selector with containers := selector.containers.tail }
  | _, _ => selector

def objectKey (selector : JsonSelector) (key : Text) : JsonSelector :=
  match selector.capturing, selector.containers with
  | true, .object first :: containers =>
    let selector := { selector with containers := .object false :: containers }
    ((selector.append (if first then [] else [0x2C])).append
      (encodeText (JsonWriter.string key))).append [0x3A]
  | _, _ => selector

def observer (target : JsonPointer) : JsonWalkObserver JsonSelector where
  valueStart := beginValue target
  valueEnd := finishValue
  scalar selector path kind _ encodedToken := selector.scalar target path kind encodedToken
  objectStart := objectStart target
  objectEnd selector _ _ := selector.objectEnd
  arrayStart := arrayStart target
  arrayEnd selector _ _ := selector.arrayEnd
  objectKey selector _ key := selector.objectKey key
  wantsScalarToken _ := true
  shouldDescend selector := selector.error.isNone

end JsonSelector

def extractJsonSelection (parser : JsonEventParser) (input : Bytes) (pointer : JsonPointer) :
    Except ControlError (Except JsonSelectionMiss JsonSelection) :=
  match walkJson (JsonSelector.observer pointer) parser input {} with
  | .error error => .error error
  | .ok selector =>
    match selector.error with
    | some error => .error error
    | none =>
      if selector.selected then .ok (.ok { bytes := selector.output })
      else
        .ok (.error
          { longestValidPrefix := selector.longestPrefix
            next := selector.next
            omittedNext := selector.omittedNext })

end Fluxcope.Control
