import Fluxcope.Library.Cancellation
import Fluxcope.Library.Occurrences
import Fluxcope.Library.Spans
import Fluxcope.Library.Utf8Text
import Fluxcope.Requests.SearchService
/-!
# The request search matcher

`run_search` looks for the case folding of the query in that of each label of the tree and
maps the occurrences back to the graphemes of the label.  Case folding of a character and
the cut of a text into graphemes belong to other packages and are parameters.
-/

namespace Fluxcope.Requests

open Fluxcope.Library Fluxcope.Library.Utf8

/-- A slice that cuts a character would be a panic. -/
inductive SearchStop
  | cancelled
  | panicked
  deriving DecidableEq, Repr

abbrev Search (α : Type) := Checked SearchStop α

/-- A match with what is shown of it. -/
structure LabelMatch extends SearchMatch where
  label : Bytes
  ranges : List Span
  deriving DecidableEq, Repr

structure FoldedUnit where
  folded : Span
  original : Span
  deriving DecidableEq, Repr

structure FoldedLabel where
  folded : Bytes := []
  units : List FoldedUnit := []
  deriving DecidableEq, Repr

/-- `&text[start..]` -/
def sliceFrom (text : Bytes) (start : Nat) : Search Bytes :=
  if start ≤ text.length && isCharBoundary text start then pure (text.drop start)
  else throw .panicked

/-- Both points are found by binary search. -/
def originalRangeForFolded (units : List FoldedUnit) (foldedRange : Span) : Option Span :=
  let first := partitionPoint (fun unit => unit.folded.stop ≤ foldedRange.start) units
  let afterLast := partitionPoint (fun unit => unit.folded.start < foldedRange.stop) units
  if afterLast = 0 then none
  else
    let last := afterLast - 1
    if first ≥ units.length || first > last then none
    else do
      let firstUnit ← units[first]?
      let lastUnit ← units[last]?
      some { start := firstUnit.original.start, stop := lastUnit.original.stop }

section Matcher

variable (cancelled : Nat → Bool) (caseFold : Bytes → List Bytes)
  (graphemes : Bytes → List Bytes)

def checkSearch : Search Unit := Checked.check cancelled .cancelled

/-- The check that is made every 64 rounds of a loop. -/
def checkRound (round : Nat) : Search Unit :=
  if round % 64 = 0 then checkSearch cancelled else pure ()

/-- The case folding of a text, character by character. -/
def foldText (text : Bytes) : Bytes := ((chars text).flatMap caseFold).flatten

/-- The loop over the graphemes, with the number of the next one and its place. -/
def foldGraphemes : Nat → Nat → List Bytes → FoldedLabel → Search FoldedLabel
  | _, _, [], label => pure label
  | index, originalStart, grapheme :: rest, label => do
      checkRound cancelled index
      let foldedStart := label.folded.length
      let folded := label.folded ++ foldText caseFold grapheme
      let unit : FoldedUnit :=
        { folded := { start := foldedStart, stop := folded.length }
          original := { start := originalStart, stop := originalStart + grapheme.length } }
      foldGraphemes (index + 1) (originalStart + grapheme.length) rest
        { folded, units := label.units ++ [unit] }

/-- The loop over the occurrences, with the rounds that are left.  The sums that saturate
in the source are places of the folded label. -/
def occurrenceLoop (label : FoldedLabel) (foldedQuery : Bytes) :
    Nat → Nat → Nat → List Span → Search (List Span)
  | 0, _, _, ranges => pure ranges
  | rounds + 1, searchStart, occurrenceCount, ranges =>
    if searchStart ≤ label.folded.length then do
      checkRound cancelled occurrenceCount
      let rest ← sliceFrom label.folded searchStart
      match findFirst foldedQuery rest with
      | none => pure ranges
      | some relativeStart => do
          let matchStart := searchStart + relativeStart
          let matchEnd := matchStart + foldedQuery.length
          let ranges :=
            match originalRangeForFolded label.units ⟨matchStart, matchEnd⟩ with
            | none => ranges
            | some original => Span.join ranges original
          let behind ← sliceFrom label.folded matchStart
          let step := ((chars behind).head?.map List.length).getD 1
          occurrenceLoop label foldedQuery rounds (matchStart + step) (occurrenceCount + 1) ranges
    else pure ranges

def matchingOriginalRanges (label foldedQuery : Bytes) : Search (List Span) := do
  let folded ← foldGraphemes cancelled caseFold 0 0 (graphemes label) {}
  occurrenceLoop cancelled folded foldedQuery (folded.folded.length + 1) 0 0 []

end Matcher

/-! ## Visiting the tree -/

namespace RequestTreeModel

variable {σ : Type}

/-- The visitor gets the position, the label and the path of each node; the recursion goes
one level down each time. -/
def visitNodes (model : RequestTreeModel) (visitor : σ → Nat → Bytes → List Bytes → Search σ) :
    Nat → List RequestNodeId → List Bytes → σ → Search σ
  | 0, _, _, state => pure state
  | depth + 1, ids, path, state =>
    ids.foldlM
      (fun state id => do
        let node := model.node id
        let path := path ++ [node.identifier]
        let state ← visitor state (model.logicalPositions[id]?.getD 0) node.label path
        model.visitNodes visitor depth node.children path state)
      state

def visitLogicalNodes (model : RequestTreeModel)
    (visitor : σ → Nat → Bytes → List Bytes → Search σ) (state : σ) : Search σ :=
  model.visitNodes visitor model.nodes.length model.roots [] state

end RequestTreeModel

section Run

variable (cancelled : Nat → Bool) (caseFold : Bytes → List Bytes)
  (graphemes : Bytes → List Bytes)

/-- What `run_search` does at a node. -/
def matchNode (foldedQuery : Bytes) (found : List LabelMatch) (logicalPosition : Nat)
    (label : Bytes) (path : List Bytes) : Search (List LabelMatch) := do
  checkSearch cancelled
  let ranges ← matchingOriginalRanges cancelled caseFold graphemes label foldedQuery
  if ranges.isEmpty then pure found
  else pure (found ++ [{ path := path, logicalPosition, label, ranges }])

/-- The matches of a request that is not cancelled. -/
def runSearch (request : SearchRequest) : Search (List LabelMatch) := do
  checkSearch cancelled
  let foldedQuery := foldText caseFold request.query
  if foldedQuery.isEmpty then pure []
  else do
    let found ← request.tree.visitLogicalNodes
      (matchNode cancelled caseFold graphemes foldedQuery) []
    checkSearch cancelled
    pure found

end Run

end Fluxcope.Requests
