import Fluxcope.Library.Machine
import Fluxcope.Library.Segmentation
/-!
# Terminal text

Text is measured in terminal cells.  The cut into graphemes and the width of a grapheme
belong to other packages and are parameters.  Slicing inside a character panics; what
panics is `none`.
-/

namespace Fluxcope.Ui

open Fluxcope.Library

/-- `BODY_TEXT_TAB_WIDTH` -/
def bodyTextTabWidth : Nat := 4

def tab : Text := ['\t']

def ellipsis : Text := ['…']

structure FittedText where
  text : Text
  cellWidth : Nat
  deriving DecidableEq, Repr

/-- The state of the loop of `fitted_text`. -/
structure Fitting where
  valueWidth : Nat := 0
  prefixInputEnd : Nat := 0
  prefixOutputEnd : Nat := 0
  prefixWidth : Nat := 0
  output : Option Text := none
  deriving DecidableEq, Repr

/-- The loop goes on, or the text is fitted. -/
inductive Fit
  | next (state : Fitting)
  | fitted (text : FittedText)
  deriving DecidableEq, Repr

/-- The state of the loop of `hard_wrap_text`. -/
structure Wrapping where
  lines : List Text := []
  current : Text := []
  currentWidth : Nat := 0
  deriving DecidableEq, Repr

section Width

-- `strWidth` is `UnicodeWidthStr::width`
variable (strWidth : Text → Nat)

def terminalGraphemeWidth (grapheme : Text) : Nat :=
  if grapheme = tab then bodyTextTabWidth else strWidth grapheme

/-- The text is clipped behind its prefix. -/
def clip (clipped : Text) (prefixWidth : Nat) : FittedText :=
  { text := clipped ++ ellipsis
    cellWidth := satAdd prefixWidth (terminalGraphemeWidth strWidth ellipsis) }

/-- The loop over the cells of a tab, with the expanded text so far. -/
def fitTab (width maxPrefixWidth : Nat) : Nat → Text → Fitting → Option Fit
  | 0, expanded, state => some (.next { state with output := some expanded })
  | cells + 1, expanded, state =>
    if state.valueWidth ≥ width then
      (Text.truncate expanded state.prefixOutputEnd).map fun kept =>
        .fitted (clip strWidth kept state.prefixWidth)
    else
      let expanded := expanded ++ [' ']
      let valueWidth := satAdd state.valueWidth 1
      let state := { state with valueWidth }
      fitTab width maxPrefixWidth cells expanded
        (if valueWidth ≤ maxPrefixWidth then
          { state with prefixOutputEnd := Text.utf8Len expanded, prefixWidth := valueWidth }
        else state)

/-- The expanded text so far, which the first tab begins with what stands before it. -/
def startExpanding (value : Text) (start : Nat) (state : Fitting) : Option (Text × Fitting) :=
  match state.output with
  | some expanded => some (expanded, state)
  | none =>
    (Text.splitAtByte value start).map fun (expanded, _) =>
      (expanded, { state with prefixOutputEnd := state.prefixInputEnd })

/-- The prefix in the output, or in the input while there is no output. -/
def clippedPrefix (value : Text) (state : Fitting) : Option Text :=
  match state.output with
  | some expanded => Text.truncate expanded state.prefixOutputEnd
  | none => (Text.splitAtByte value state.prefixInputEnd).map Prod.fst

/-- One turn of the loop over the graphemes. -/
def fitGrapheme (value : Text) (width tabWidth maxPrefixWidth start : Nat) (grapheme : Text)
    (state : Fitting) : Option Fit :=
  if grapheme = tab then
    (startExpanding value start state).bind fun (expanded, state) =>
      fitTab strWidth width maxPrefixWidth tabWidth expanded state
  else
    let nextWidth := satAdd state.valueWidth (terminalGraphemeWidth strWidth grapheme)
    if nextWidth > width then
      (clippedPrefix value state).map fun clipped =>
        .fitted (clip strWidth clipped state.prefixWidth)
    else
      let output := state.output.map (· ++ grapheme)
      let state := { state with valueWidth := nextWidth, output }
      some (.next (if nextWidth ≤ maxPrefixWidth then
        { state with
          prefixInputEnd := start + Text.utf8Len grapheme
          prefixOutputEnd := (output.map Text.utf8Len).getD state.prefixOutputEnd
          prefixWidth := nextWidth }
      else state))

/-- The loop over the graphemes with their offsets. -/
def fitGraphemes (value : Text) (width tabWidth maxPrefixWidth : Nat) :
    List (Nat × Text) → Fitting → Option FittedText
  | [], state => some { text := state.output.getD value, cellWidth := state.valueWidth }
  | (start, grapheme) :: rest, state =>
    match fitGrapheme strWidth value width tabWidth maxPrefixWidth start grapheme state with
    | none => none
    | some (.fitted text) => some text
    | some (.next state) => fitGraphemes value width tabWidth maxPrefixWidth rest state

variable (graphemes : Text → List Text)

def fittedText (value : Text) (width tabWidth : Nat) : Option FittedText :=
  if width = 0 then some { text := [], cellWidth := 0 }
  else
    fitGraphemes strWidth value width tabWidth
      (width - terminalGraphemeWidth strWidth ellipsis) (indicesFrom 0 (graphemes value)) {}

def fitTextToWidth (value : Text) (width tabWidth : Nat) : Option Text :=
  (fittedText strWidth graphemes value width tabWidth).map fun fitted =>
    fitted.text ++ List.replicate (width - fitted.cellWidth) ' '

def pushLine (state : Wrapping) : Wrapping :=
  { lines := state.lines ++ [state.current], current := [], currentWidth := 0 }

/-- The grapheme is put behind the line, which is pushed when it is full. -/
def appendGrapheme (maxWidth : Nat) (state : Wrapping) (grapheme : Text) : Wrapping :=
  let state :=
    { state with
      current := state.current ++ grapheme
      currentWidth := satAdd state.currentWidth (terminalGraphemeWidth strWidth grapheme) }
  if state.currentWidth ≥ maxWidth then pushLine state else state

/-- One turn of the loop of `hard_wrap_text`. -/
def wrapGrapheme (maxWidth : Nat) (state : Wrapping) (grapheme : Text) : Wrapping :=
  let width := terminalGraphemeWidth strWidth grapheme
  appendGrapheme strWidth maxWidth
    (if state.currentWidth > 0 ∧ satAdd state.currentWidth width > maxWidth then pushLine state
    else state) grapheme

def hardWrapText (text : Text) (maxWidth : Nat) : List Text :=
  if maxWidth = 0 then [text]
  else
    let state := (graphemes text).foldl (wrapGrapheme strWidth maxWidth) {}
    if state.current = [] then state.lines else state.lines ++ [state.current]

end Width

end Fluxcope.Ui
