import Fluxcope.Library.Machine
import Fluxcope.Library.Segmentation
/-!
# Text input

A text with a cursor, which is a byte offset into the text, and possibly a limit on the
bytes of the text.  The cut of a text into graphemes belongs to another package and is a
parameter.  Slicing inside a character panics; an operation that panics is `none`.
-/

namespace Fluxcope.TextInput

open Fluxcope.Library

inductive InputEditOutcome
  | changed
  | unchanged
  | limitReached
  deriving DecidableEq, Repr

structure TextInputState where
  text : Text := []
  cursor : Nat := 0
  maxBytes : Option Nat := none
  deriving DecidableEq, Repr

/-- `char::is_control` -/
def isControl (c : Char) : Bool := c.toNat < 0x20 || (0x7F ≤ c.toNat && c.toNat < 0xA0)

inductive KeyCode
  | char (character : Char)
  | backspace
  | delete
  | left
  | right
  | home
  | endKey
  | other
  deriving DecidableEq, Repr

structure KeyModifiers where
  shift : Bool := false
  control : Bool := false
  alt : Bool := false
  super : Bool := false
  hyper : Bool := false
  «meta» : Bool := false
  deriving DecidableEq, Repr

def KeyModifiers.isEmpty (modifiers : KeyModifiers) : Bool := modifiers = {}

structure KeyEvent where
  code : KeyCode
  modifiers : KeyModifiers := {}
  deriving DecidableEq, Repr

namespace TextInputState

def new (text : Text) : TextInputState := { text, cursor := Text.utf8Len text }

def withMaxBytes (maxBytes : Nat) : TextInputState := { maxBytes := some maxBytes }

def clear (state : TextInputState) : TextInputState := { state with text := [], cursor := 0 }

def exceedsLimit (state : TextInputState) (bytes : Nat) : Bool :=
  match state.maxBytes with
  | none => false
  | some limit => bytes > limit - Text.utf8Len state.text

def moveHome (state : TextInputState) : TextInputState × Bool :=
  ({ state with cursor := 0 }, state.cursor ≠ 0)

def moveEnd (state : TextInputState) : TextInputState × Bool :=
  ({ state with cursor := Text.utf8Len state.text }, state.cursor ≠ Text.utf8Len state.text)

/-- The bytes that there is still room for. -/
def remaining (state : TextInputState) : Nat :=
  match state.maxBytes with
  | none => wordMax
  | some limit => limit - Text.utf8Len state.text

section Graphemes

variable (graphemes : Text → List Text)

/-- `grapheme_indices` -/
def graphemeIndices (text : Text) : List (Nat × Text) := indicesFrom 0 (graphemes text)

/-- The grapheme boundary at or before the offset, or the end of the text. -/
def setCursor (state : TextInputState) (cursor : Nat) : TextInputState × Bool :=
  let cursor :=
    if cursor ≥ Text.utf8Len state.text then Text.utf8Len state.text
    else
      ((((graphemeIndices graphemes state.text).map Prod.fst).takeWhile (· ≤ cursor)).getLast?).getD 0
  ({ state with cursor }, state.cursor ≠ cursor)

def snapCursorForward (state : TextInputState) : TextInputState :=
  if state.cursor = Text.utf8Len state.text then state
  else
    let starts := (graphemeIndices graphemes state.text).map Prod.fst
    { state with
      cursor := (starts.find? fun start => state.cursor ≤ start).getD (Text.utf8Len state.text) }

def insertText (state : TextInputState) (inserted : Text) : Option TextInputState :=
  (Text.insertAt state.text state.cursor inserted).map fun text =>
    snapCursorForward graphemes
      { state with text, cursor := state.cursor + Text.utf8Len inserted }

def insertChar (state : TextInputState) (character : Char) :
    Option (TextInputState × InputEditOutcome) :=
  if isControl character then some (state, .unchanged)
  else if state.exceedsLimit character.utf8Size then some (state, .limitReached)
  else (insertText graphemes state [character]).map fun state => (state, .changed)

/-- The loop over the pasted characters: their bytes, if there is room for them. -/
def pastedBytes (remaining : Nat) (bytes : Nat) : Text → Option Nat
  | [] => some bytes
  | character :: rest =>
    let bytes := bytes + character.utf8Size
    if bytes > remaining then none else pastedBytes remaining bytes rest

def paste (state : TextInputState) (pasted : Text) : Option (TextInputState × InputEditOutcome) :=
  match pastedBytes state.remaining 0 (pasted.filter fun c => !isControl c) with
  | none => some (state, .limitReached)
  | some bytes =>
    if bytes = 0 then some (state, .unchanged)
    else
      let inserted :=
        if bytes = Text.utf8Len pasted then pasted else pasted.filter fun c => !isControl c
      (insertText graphemes state inserted).map fun state => (state, .changed)

def moveLeft (state : TextInputState) : Option (TextInputState × Bool) :=
  (Text.splitAtByte state.text state.cursor).map fun (before, _) =>
    match (graphemeIndices graphemes before).getLast? with
    | none => (state, false)
    | some (start, _) => ({ state with cursor := start }, true)

def moveRight (state : TextInputState) : Option (TextInputState × Bool) :=
  (Text.splitAtByte state.text state.cursor).map fun (_, after) =>
    match (graphemes after).head? with
    | none => (state, false)
    | some grapheme => ({ state with cursor := state.cursor + Text.utf8Len grapheme }, true)

def backspace (state : TextInputState) : Option (TextInputState × InputEditOutcome) := do
  let (before, _) ← Text.splitAtByte state.text state.cursor
  match (graphemeIndices graphemes before).getLast? with
  | none => some (state, .unchanged)
  | some (start, _) =>
    let text ← Text.drain state.text start state.cursor
    some (snapCursorForward graphemes { state with text, cursor := start }, .changed)

def delete (state : TextInputState) : Option (TextInputState × InputEditOutcome) := do
  let (_, after) ← Text.splitAtByte state.text state.cursor
  match (graphemes after).head? with
  | none => some (state, .unchanged)
  | some grapheme =>
    let text ← Text.drain state.text state.cursor (state.cursor + Text.utf8Len grapheme)
    some (snapCursorForward graphemes { state with text }, .changed)

def handleKey (state : TextInputState) (key : KeyEvent) :
    Option (TextInputState × InputEditOutcome) :=
  let moved (result : TextInputState × Bool) : TextInputState × InputEditOutcome :=
    (result.1, .unchanged)
  match key.code with
  | .char character =>
    if key.modifiers.isEmpty || key.modifiers = { shift := true } then
      insertChar graphemes state character
    else some (state, .unchanged)
  | .backspace =>
    if key.modifiers.isEmpty then backspace graphemes state else some (state, .unchanged)
  | .delete =>
    if key.modifiers.isEmpty then delete graphemes state else some (state, .unchanged)
  | .left =>
    if key.modifiers.isEmpty then (moveLeft graphemes state).map moved
    else some (state, .unchanged)
  | .right =>
    if key.modifiers.isEmpty then (moveRight graphemes state).map moved
    else some (state, .unchanged)
  | .home =>
    if key.modifiers.isEmpty then some (moved state.moveHome) else some (state, .unchanged)
  | .endKey =>
    if key.modifiers.isEmpty then some (moved state.moveEnd) else some (state, .unchanged)
  | .other => some (state, .unchanged)

end Graphemes

end TextInputState

/-! ## Operations -/

inductive Operation
  | clear
  | setCursor (cursor : Nat)
  | insertChar (character : Char)
  | paste (pasted : Text)
  | moveLeft
  | moveRight
  | moveHome
  | moveEnd
  | backspace
  | delete
  | handleKey (key : KeyEvent)
  deriving DecidableEq, Repr

inductive Answer
  | none
  | moved (changed : Bool)
  | outcome (outcome : InputEditOutcome)
  deriving DecidableEq, Repr

/-- One operation, with what it answers. -/
def Operation.apply (graphemes : Text → List Text) (state : TextInputState) :
    Operation → Option (TextInputState × Answer)
  | .clear => some (state.clear, .none)
  | .setCursor cursor => some ((state.setCursor graphemes cursor).map id .moved)
  | .insertChar character => (state.insertChar graphemes character).map (Prod.map id .outcome)
  | .paste pasted => (state.paste graphemes pasted).map (Prod.map id .outcome)
  | .moveLeft => (state.moveLeft graphemes).map (Prod.map id .moved)
  | .moveRight => (state.moveRight graphemes).map (Prod.map id .moved)
  | .moveHome => some (state.moveHome.map id .moved)
  | .moveEnd => some (state.moveEnd.map id .moved)
  | .backspace => (state.backspace graphemes).map (Prod.map id .outcome)
  | .delete => (state.delete graphemes).map (Prod.map id .outcome)
  | .handleKey key => (state.handleKey graphemes key).map (Prod.map id .outcome)

def Operation.next (graphemes : Text → List Text) (state : TextInputState)
    (operation : Operation) : Option TextInputState :=
  (operation.apply graphemes state).map Prod.fst

end Fluxcope.TextInput
