import Fluxcope.Library.LongestPrefix
import Fluxcope.Ui.TerminalText
/-!
# Fitting and wrapping

A text is a row of graphemes, and as wide as these together.  Fitting keeps the tab-expanded
text if there is room for it, or else its longest prefix that leaves a cell for the ellipsis.
Wrapping cuts the row into lines.
-/

namespace Fluxcope.Ui

open Fluxcope.Library

section Width

variable (strWidth : Text → Nat)

/-- The width of a row of graphemes. -/
def cells (pieces : List Text) : Nat := (pieces.map (terminalGraphemeWidth strWidth)).sum

def expandTab (tabWidth : Nat) (grapheme : Text) : List Text :=
  if grapheme = tab then List.replicate tabWidth [' '] else [grapheme]

/-- The tab-expanded text: a space for each cell of a tab. -/
def expanded (graphemes : Text → List Text) (value : Text) (tabWidth : Nat) : List Text :=
  (graphemes value).flatMap (expandTab tabWidth)

/-- What is shown of the row `all` in `width` cells. -/
inductive Shown (width : Nat) (all : List Text) : List Text → Prop
  | whole (hfits : cells strWidth all ≤ width) : Shown width all all
  | clipped {kept : List Text} (hover : width < cells strWidth all)
      (hkept : IsLongestPrefix (terminalGraphemeWidth strWidth) (width - 1) kept all) :
      Shown width all (kept ++ [ellipsis])

/-- The line is not too wide, or it is wide for one of its graphemes; if there is room for
anything, the others in such a line take no cell. -/
def WithinWidth (maxWidth : Nat) (line : List Text) : Prop :=
  cells strWidth line ≤ maxWidth ∨
    ∃ grapheme ∈ line, maxWidth < terminalGraphemeWidth strWidth grapheme ∧
      (maxWidth ≠ 0 → ∃ front, line = front ++ [grapheme] ∧ cells strWidth front = 0)

/-- Widths are counted in words: the limit or the width of the row is below the largest. -/
def Counts (limit : Nat) (row : List Text) : Prop := limit < wordMax ∨ cells strWidth row ≤ wordMax

variable {strWidth}

@[simp] theorem cells_nil : cells strWidth [] = 0 := rfl

@[simp] theorem cells_cons (piece : Text) (pieces : List Text) :
    cells strWidth (piece :: pieces) =
      terminalGraphemeWidth strWidth piece + cells strWidth pieces := rfl

@[simp] theorem cells_append (pieces more : List Text) :
    cells strWidth (pieces ++ more) = cells strWidth pieces + cells strWidth more := by
  rw [cells, List.map_append, List.sum_append]
  rfl

theorem terminalGraphemeWidth_ellipsis (hellipsis : strWidth ellipsis = 1) :
    terminalGraphemeWidth strWidth ellipsis = 1 := by
  rw [terminalGraphemeWidth, if_neg (by decide), hellipsis]

theorem terminalGraphemeWidth_space (hspace : strWidth [' '] = 1) :
    terminalGraphemeWidth strWidth [' '] = 1 := by
  rw [terminalGraphemeWidth, if_neg (by decide), hspace]

theorem cells_spaces (hspace : strWidth [' '] = 1) (n : Nat) :
    cells strWidth (List.replicate n [' ']) = n := by
  rw [cells, List.map_replicate, terminalGraphemeWidth_space hspace, List.sum_replicate]
  exact Nat.mul_one n

/-! ## One cell more -/

variable {width : Nat} {done kept rest all : List Text} {state : Fitting}

/-- The widths of the loop when it has read the row `done`. -/
structure Measured (strWidth : Text → Nat) (width : Nat) (done kept : List Text)
    (state : Fitting) : Prop where
  valueWidth_eq : state.valueWidth = cells strWidth done
  cells_le : cells strWidth done ≤ width
  longest : IsLongestPrefix (terminalGraphemeWidth strWidth) (width - 1) kept done
  prefixWidth_eq : state.prefixWidth = cells strWidth kept

/-- Counting a piece saturates only where it goes over the width. -/
theorem satAdd_cells {piece : Text} (hcounts : Counts strWidth width (done ++ piece :: rest)) :
    let sum := cells strWidth (done ++ [piece])
    (width < satAdd (cells strWidth done) (terminalGraphemeWidth strWidth piece) ↔ width < sum) ∧
      (sum ≤ width →
        satAdd (cells strWidth done) (terminalGraphemeWidth strWidth piece) = sum) := by
  intro sum
  have hsum : sum = cells strWidth done + terminalGraphemeWidth strWidth piece := by
    simp [sum]
  unfold Counts at hcounts
  rw [cells_append, cells_cons] at hcounts
  unfold satAdd
  omega

/-- A piece for which there is room beside the ellipsis lengthens the prefix. -/
theorem Measured.extend {piece : Text} (hroom : cells strWidth (done ++ [piece]) ≤ width - 1)
    {state' : Fitting} (hvalue : state'.valueWidth = cells strWidth (done ++ [piece]))
    (hcounted : state'.prefixWidth = cells strWidth (done ++ [piece])) :
    Measured strWidth width (done ++ [piece]) (done ++ [piece]) state' :=
  ⟨hvalue, hroom.trans (Nat.sub_le width 1), .self hroom, hcounted⟩

/-- A piece in the last cell leaves the prefix as it is. -/
theorem Measured.pass (h : Measured strWidth width done kept state) {piece : Text}
    (hfits : cells strWidth (done ++ [piece]) ≤ width)
    (hroom : ¬ cells strWidth (done ++ [piece]) ≤ width - 1) {state' : Fitting}
    (hvalue : state'.valueWidth = cells strWidth (done ++ [piece]))
    (hcounted : state'.prefixWidth = state.prefixWidth) :
    Measured strWidth width (done ++ [piece]) kept state' :=
  ⟨hvalue, hfits, h.longest.append (Nat.lt_of_not_le hroom), hcounted.trans h.prefixWidth_eq⟩

/-- A piece for which there is no room clips the row behind the prefix. -/
theorem Measured.clip (h : Measured strWidth width done kept state)
    (hellipsis : strWidth ellipsis = 1) {piece : Text}
    (hcounts : Counts strWidth width (done ++ piece :: rest))
    (hover : width < cells strWidth (done ++ [piece])) :
    Shown strWidth width (done ++ piece :: rest) (kept ++ [ellipsis]) ∧
      clip strWidth kept.flatten state.prefixWidth =
        { text := (kept ++ [ellipsis]).flatten
          cellWidth := cells strWidth (kept ++ [ellipsis]) } := by
  have hall : cells strWidth (done ++ [piece]) ≤ cells strWidth (done ++ piece :: rest) := by
    simp only [cells_append, cells_cons, cells_nil]
    omega
  have hbudget : width - 1 < ((done ++ [piece]).map (terminalGraphemeWidth strWidth)).sum :=
    Nat.lt_of_le_of_lt (Nat.sub_le width 1) hover
  refine ⟨.clipped (hover.trans_le hall) (h.longest.append hbudget), ?_⟩
  have hkept : cells strWidth kept ≤ width - 1 := h.longest.cost_le
  have hword : cells strWidth kept + 1 ≤ wordMax := by
    unfold Counts at hcounts
    omega
  rw [Fluxcope.Ui.clip, terminalGraphemeWidth_ellipsis hellipsis, h.prefixWidth_eq, satAdd_eq hword]
  simp [terminalGraphemeWidth_ellipsis hellipsis]

/-! ## Fitting -/

/-- The text that is fitted shows the row. -/
def Fitted (strWidth : Text → Nat) (width : Nat) (all : List Text) (fitted : FittedText) : Prop :=
  ∃ pieces, Shown strWidth width all pieces ∧ fitted.text = pieces.flatten ∧
    fitted.cellWidth = cells strWidth pieces

/-- The loop over a tab goes on behind its cells, or clips the row in one of them. -/
theorem fitTab_spec (hspace : strWidth [' '] = 1) (hellipsis : strWidth ellipsis = 1) (n : Nat)
    (h : Measured strWidth width done kept state)
    (hend : state.prefixOutputEnd = Text.utf8Len kept.flatten)
    (hcounts : Counts strWidth width (done ++ (List.replicate n [' '] ++ rest))) :
    (∃ fitted, fitTab strWidth width (width - 1) n done.flatten state = some (.fitted fitted) ∧
      Fitted strWidth width (done ++ (List.replicate n [' '] ++ rest)) fitted) ∨
    ∃ state' kept', fitTab strWidth width (width - 1) n done.flatten state = some (.next state') ∧
      state'.output = some (done ++ List.replicate n [' ']).flatten ∧
      Measured strWidth width (done ++ List.replicate n [' ']) kept' state' ∧
      state'.prefixOutputEnd = Text.utf8Len kept'.flatten := by
  induction n generalizing done kept state with
  | zero =>
    rw [List.replicate_zero, List.append_nil]
    exact .inr ⟨_, kept, rfl, rfl, ⟨h.valueWidth_eq, h.cells_le, h.longest, h.prefixWidth_eq⟩, hend⟩
  | succ n ih =>
    rw [List.replicate_succ, List.cons_append] at hcounts ⊢
    have hcell : cells strWidth (done ++ [[' ']]) = cells strWidth done + 1 := by
      rw [cells_append, cells_cons, terminalGraphemeWidth_space hspace, cells_nil]
    obtain ⟨hover, hexact⟩ := satAdd_cells hcounts
    rw [terminalGraphemeWidth_space hspace, hcell] at hover hexact
    unfold fitTab
    by_cases hfull : state.valueWidth ≥ width
    · rw [if_pos hfull]
      obtain ⟨more, hmore⟩ := h.longest.isPrefix
      have htruncate : Text.truncate done.flatten state.prefixOutputEnd = some kept.flatten := by
        rw [hend, ← hmore, List.flatten_append, Text.truncate_append]
      have hbeyond : width < cells strWidth (done ++ [[' ']]) := by
        rw [hcell, ← h.valueWidth_eq]
        exact Nat.lt_succ_of_le hfull
      obtain ⟨hshown, hclip⟩ := h.clip hellipsis hcounts hbeyond
      rw [htruncate, Option.map_some, hclip]
      exact .inl ⟨_, rfl, _, hshown, rfl, rfl⟩
    · rw [if_neg hfull]
      rw [h.valueWidth_eq] at hfull
      have hvalue : satAdd state.valueWidth 1 = cells strWidth (done ++ [[' ']]) := by
        rw [h.valueWidth_eq, hcell]
        exact hexact (by omega)
      have hflatten : done.flatten ++ [' '] = (done ++ [[' ']]).flatten := by
        rw [List.flatten_append, List.flatten_singleton]
      have happend (more : List Text) : done ++ ([' '] :: more) = done ++ [[' ']] ++ more := by
        rw [List.append_assoc, List.singleton_append]
      rw [happend] at hcounts
      dsimp only
      rw [hvalue, hflatten, happend (List.replicate n [' '] ++ rest),
        happend (List.replicate n [' '])]
      by_cases hroom : cells strWidth (done ++ [[' ']]) ≤ width - 1
      · rw [if_pos hroom]
        exact ih (.extend hroom rfl rfl) rfl hcounts
      · rw [if_neg hroom]
        exact ih (h.pass (by omega) hroom rfl rfl) hend hcounts

/-- Where the loop stands in the input: the row read so far, and the places that the prefix of
it has in the input, or in the output once there is one. -/
structure Reads (strWidth : Text → Nat) (width tabWidth : Nat) (before : List Text)
    (state : Fitting) (kept : List Text) : Prop where
  measured : Measured strWidth width (before.flatMap (expandTab tabWidth)) kept state
  placed : match state.output with
    | none => before.flatMap (expandTab tabWidth) = before ∧
        state.prefixInputEnd = Text.utf8Len kept.flatten
    | some expanded => expanded = (before.flatMap (expandTab tabWidth)).flatten ∧
        state.prefixOutputEnd = Text.utf8Len kept.flatten

variable {graphemes : Text → List Text} {tabWidth : Nat} {value grapheme : Text}
  {before after : List Text}

/-- At a tab the output has what was read, and the prefix has its place there. -/
theorem Reads.startExpanding (h : Reads strWidth width tabWidth before state kept)
    (hvalue : value = (before ++ after).flatten) :
    ∃ started, startExpanding value (Text.utf8Len before.flatten) state =
        some ((before.flatMap (expandTab tabWidth)).flatten, started) ∧
      Measured strWidth width (before.flatMap (expandTab tabWidth)) kept started ∧
      started.prefixOutputEnd = Text.utf8Len kept.flatten := by
  obtain ⟨hmeasured, hplaced⟩ := h
  unfold Fluxcope.Ui.startExpanding
  cases houtput : state.output with
  | some expanded =>
    rw [houtput] at hplaced
    obtain ⟨hexpanded, hend⟩ := hplaced
    exact ⟨state, by rw [hexpanded], hmeasured, hend⟩
  | none =>
    rw [houtput] at hplaced
    obtain ⟨hbefore, hend⟩ := hplaced
    have hsplit : Text.splitAtByte value (Text.utf8Len before.flatten) =
        some (before.flatten, after.flatten) := by
      rw [hvalue, List.flatten_append, Text.splitAtByte_append]
    refine ⟨{ state with prefixOutputEnd := state.prefixInputEnd }, ?_,
      ⟨hmeasured.valueWidth_eq, hmeasured.cells_le, hmeasured.longest,
        hmeasured.prefixWidth_eq⟩, hend⟩
    dsimp only
    rw [hsplit, Option.map_some, hbefore, houtput]

theorem Reads.clippedPrefix_eq (h : Reads strWidth width tabWidth before state kept)
    (hvalue : value = (before ++ after).flatten) :
    clippedPrefix value state = some kept.flatten := by
  obtain ⟨hmeasured, hplaced⟩ := h
  obtain ⟨more, hmore⟩ := hmeasured.longest.isPrefix
  unfold clippedPrefix
  cases houtput : state.output with
  | some expanded =>
    rw [houtput] at hplaced
    obtain ⟨hexpanded, hend⟩ := hplaced
    dsimp only
    rw [hexpanded, hend, ← hmore, List.flatten_append, Text.truncate_append]
  | none =>
    rw [houtput] at hplaced
    obtain ⟨hbefore, hend⟩ := hplaced
    rw [hbefore] at hmore
    dsimp only
    rw [hvalue, hend, ← hmore, List.append_assoc, List.flatten_append,
      Text.splitAtByte_append, Option.map_some]

/-- A grapheme that is not a tab is read as it is; it is in the prefix if that is `kept'`. -/
theorem Reads.snoc (h : Reads strWidth width tabWidth before state kept) (htab : grapheme ≠ tab)
    {kept' : List Text} {state' : Fitting}
    (hmeasured : Measured strWidth width (before.flatMap (expandTab tabWidth) ++ [grapheme]) kept'
      state')
    (houtput : state'.output = state.output.map (· ++ grapheme))
    (hplaces : (kept' = kept ∧ state'.prefixInputEnd = state.prefixInputEnd ∧
        state'.prefixOutputEnd = state.prefixOutputEnd) ∨
      (kept' = before.flatMap (expandTab tabWidth) ++ [grapheme] ∧
        state'.prefixInputEnd = Text.utf8Len before.flatten + Text.utf8Len grapheme ∧
        state'.prefixOutputEnd =
          (state'.output.map Text.utf8Len).getD state.prefixOutputEnd)) :
    Reads strWidth width tabWidth (before ++ [grapheme]) state' kept' := by
  have hsnoc : (before ++ [grapheme]).flatMap (expandTab tabWidth) =
      before.flatMap (expandTab tabWidth) ++ [grapheme] := by
    rw [List.flatMap_append, List.flatMap_singleton, expandTab, if_neg htab]
  have hplaced := h.placed
  refine ⟨hsnoc ▸ hmeasured, ?_⟩
  rw [hsnoc]
  cases hstate : state.output with
  | some expanded =>
    rw [hstate] at hplaced houtput
    obtain ⟨hexpanded, hend⟩ := hplaced
    have hflatten : expanded ++ grapheme =
        (before.flatMap (expandTab tabWidth) ++ [grapheme]).flatten := by
      rw [hexpanded, List.flatten_append, List.flatten_singleton]
    rw [houtput, Option.map_some]
    refine ⟨hflatten, ?_⟩
    rcases hplaces with ⟨rfl, -, hout⟩ | ⟨rfl, -, hout⟩
    · rw [hout, hend]
    · rw [hout, houtput, ← hflatten]
      rfl
  | none =>
    rw [hstate] at hplaced houtput
    obtain ⟨hbefore, hend⟩ := hplaced
    rw [houtput, Option.map_none]
    refine ⟨by rw [hbefore], ?_⟩
    rcases hplaces with ⟨rfl, hin, -⟩ | ⟨rfl, hin, -⟩
    · rw [hin, hend]
    · rw [hin, hbefore, List.flatten_append, Text.utf8Len_append, List.flatten_singleton]

/-- One turn goes on with the next grapheme, or clips the row in it. -/
theorem fitGrapheme_spec (hspace : strWidth [' '] = 1) (hellipsis : strWidth ellipsis = 1)
    (hvalue : value = (before ++ grapheme :: after).flatten)
    (h : Reads strWidth width tabWidth before state kept)
    (hcounts : Counts strWidth width
      ((before ++ grapheme :: after).flatMap (expandTab tabWidth))) :
    (∃ fitted, fitGrapheme strWidth value width tabWidth (width - 1)
        (Text.utf8Len before.flatten) grapheme state = some (.fitted fitted) ∧
      Fitted strWidth width ((before ++ grapheme :: after).flatMap (expandTab tabWidth)) fitted) ∨
    ∃ state' kept', fitGrapheme strWidth value width tabWidth (width - 1)
        (Text.utf8Len before.flatten) grapheme state = some (.next state') ∧
      Reads strWidth width tabWidth (before ++ [grapheme]) state' kept' := by
  have hmeasured := h.measured
  rw [List.flatMap_append, List.flatMap_cons] at hcounts ⊢
  unfold fitGrapheme
  by_cases htab : grapheme = tab
  · have hexpand : expandTab tabWidth grapheme = List.replicate tabWidth [' '] := if_pos htab
    rw [hexpand] at hcounts ⊢
    obtain ⟨started, hstart, hstarted, hend⟩ := h.startExpanding hvalue
    rw [if_pos htab, hstart, Option.bind_some]
    dsimp only
    rcases fitTab_spec hspace hellipsis tabWidth hstarted hend hcounts with
      ⟨fitted, hfitted, hshown⟩ | ⟨state', kept', hnext, houtput, hmeasured', hend'⟩
    · exact .inl ⟨fitted, hfitted, hshown⟩
    · have hsnoc : (before ++ [grapheme]).flatMap (expandTab tabWidth) =
          before.flatMap (expandTab tabWidth) ++ List.replicate tabWidth [' '] := by
        rw [List.flatMap_append, List.flatMap_singleton, hexpand]
      refine .inr ⟨state', kept', hnext, ⟨hsnoc ▸ hmeasured', ?_⟩⟩
      rw [houtput, hsnoc]
      exact ⟨rfl, hend'⟩
  · have hexpand : expandTab tabWidth grapheme = [grapheme] := if_neg htab
    rw [hexpand, List.singleton_append] at hcounts ⊢
    obtain ⟨hover, hexact⟩ := satAdd_cells hcounts
    rw [← hmeasured.valueWidth_eq] at hover hexact
    rw [if_neg htab]
    dsimp only
    by_cases hbeyond : width < satAdd state.valueWidth (terminalGraphemeWidth strWidth grapheme)
    · obtain ⟨hshown, hclip⟩ := hmeasured.clip hellipsis hcounts (hover.1 hbeyond)
      rw [if_pos hbeyond, h.clippedPrefix_eq hvalue, Option.map_some, hclip]
      exact .inl ⟨_, rfl, _, hshown, rfl, rfl⟩
    · have hfits : cells strWidth (before.flatMap (expandTab tabWidth) ++ [grapheme]) ≤ width :=
        Nat.le_of_not_lt fun hlt => hbeyond (hover.2 hlt)
      rw [if_neg hbeyond, hexact hfits]
      refine .inr ?_
      by_cases hroom : cells strWidth (before.flatMap (expandTab tabWidth) ++ [grapheme]) ≤ width - 1
      · rw [if_pos hroom]
        exact ⟨_, _, rfl, h.snoc htab (.extend hroom rfl rfl) rfl (.inr ⟨rfl, rfl, rfl⟩)⟩
      · rw [if_neg hroom]
        exact ⟨_, kept, rfl, h.snoc htab (hmeasured.pass hfits hroom rfl rfl) rfl
          (.inl ⟨rfl, rfl, rfl⟩)⟩

/-- The loop over the graphemes that are left shows the row. -/
theorem fitGraphemes_spec (hspace : strWidth [' '] = 1) (hellipsis : strWidth ellipsis = 1)
    (hvalue : value = (before ++ after).flatten)
    (h : Reads strWidth width tabWidth before state kept)
    (hcounts : Counts strWidth width ((before ++ after).flatMap (expandTab tabWidth))) :
    ∃ fitted, fitGraphemes strWidth value width tabWidth (width - 1)
        (indicesFrom (Text.utf8Len before.flatten) after) state = some fitted ∧
      Fitted strWidth width ((before ++ after).flatMap (expandTab tabWidth)) fitted := by
  induction after generalizing before state kept with
  | nil =>
    obtain ⟨hmeasured, hplaced⟩ := h
    rw [List.append_nil] at hvalue ⊢
    refine ⟨_, rfl, _, .whole hmeasured.cells_le, ?_, hmeasured.valueWidth_eq⟩
    cases houtput : state.output with
    | some expanded =>
      rw [houtput] at hplaced
      exact hplaced.1
    | none =>
      rw [houtput] at hplaced
      rw [Option.getD_none, hplaced.1, hvalue]
  | cons grapheme after ih =>
    rw [indicesFrom, fitGraphemes]
    rcases fitGrapheme_spec hspace hellipsis hvalue h hcounts with
      ⟨fitted, hfitted, hshown⟩ | ⟨state', kept', hnext, hreads⟩
    · rw [hfitted]
      exact ⟨fitted, rfl, hshown⟩
    · have happend : before ++ grapheme :: after = before ++ [grapheme] ++ after := by
        rw [List.append_assoc, List.singleton_append]
      have hoffset : Text.utf8Len before.flatten + Text.utf8Len grapheme =
          Text.utf8Len (before ++ [grapheme]).flatten := by
        rw [List.flatten_append, Text.utf8Len_append, List.flatten_singleton]
      rw [happend] at hvalue hcounts ⊢
      rw [hnext, hoffset]
      exact ih hvalue hreads hcounts

theorem reads_start (width tabWidth : Nat) : Reads strWidth width tabWidth [] {} [] where
  measured := ⟨rfl, Nat.zero_le _, .self (Nat.zero_le _), rfl⟩
  placed := ⟨rfl, rfl⟩

theorem fittedText_spec (hgraphemes : CutsTexts graphemes) (hspace : strWidth [' '] = 1)
    (hellipsis : strWidth ellipsis = 1) (hwidth : width ≠ 0)
    (hcounts : Counts strWidth width (expanded graphemes value tabWidth)) :
    ∃ fitted, fittedText strWidth graphemes value width tabWidth = some fitted ∧
      Fitted strWidth width (expanded graphemes value tabWidth) fitted := by
  rw [fittedText, if_neg hwidth, terminalGraphemeWidth_ellipsis hellipsis]
  exact @fitGraphemes_spec strWidth width [] {} tabWidth value [] (graphemes value) hspace
    hellipsis (hgraphemes.flatten value).symm (reads_start width tabWidth) hcounts

/-! ## Wrapping -/

/-- The lines that are pushed, and the one at hand, which is not full. -/
structure Wraps (strWidth : Text → Nat) (maxWidth : Nat) (done : List (List Text))
    (line : List Text) (state : Wrapping) : Prop where
  lines_eq : state.lines = done.map List.flatten
  current_eq : state.current = line.flatten
  width_eq : state.currentWidth = cells strWidth line
  width_lt : cells strWidth line < maxWidth
  within : ∀ pushed ∈ done, WithinWidth strWidth maxWidth pushed

variable {maxWidth : Nat} {pushed : List (List Text)} {line : List Text} {wrapping : Wrapping}

theorem Wraps.push (h : Wraps strWidth maxWidth pushed line wrapping) (hmax : 0 < maxWidth) :
    Wraps strWidth maxWidth (pushed ++ [line]) [] (pushLine wrapping) where
  lines_eq := by rw [pushLine, h.lines_eq, h.current_eq, List.map_append, List.map_singleton]
  current_eq := rfl
  width_eq := rfl
  width_lt := hmax
  within other hother := by
    rcases List.mem_append.1 hother with hother | hother
    · exact h.within other hother
    · rw [List.mem_singleton.1 hother]
      exact .inl h.width_lt.le

/-- A grapheme for which there is room, or that begins a line, keeps the lines. -/
theorem Wraps.appendGrapheme (h : Wraps strWidth maxWidth pushed line wrapping)
    (hroom : cells strWidth line = 0 ∨ cells strWidth (line ++ [grapheme]) ≤ maxWidth)
    (hcounts : Counts strWidth maxWidth (line ++ [grapheme])) :
    ∃ pushed' line', pushed'.flatten ++ line' = pushed.flatten ++ (line ++ [grapheme]) ∧
      Wraps strWidth maxWidth pushed' line' (appendGrapheme strWidth maxWidth wrapping grapheme) := by
  have hmax : 0 < maxWidth := Nat.zero_lt_of_lt h.width_lt
  have hsum : cells strWidth (line ++ [grapheme]) =
      cells strWidth line + terminalGraphemeWidth strWidth grapheme := by
    simp
  have hcurrent : wrapping.current ++ grapheme = (line ++ [grapheme]).flatten := by
    rw [h.current_eq, List.flatten_append, List.flatten_singleton]
  unfold Counts at hcounts
  unfold Fluxcope.Ui.appendGrapheme
  dsimp only
  rw [h.width_eq, hcurrent]
  by_cases hfull : cells strWidth (line ++ [grapheme]) ≥ maxWidth
  · have hpush : satAdd (cells strWidth line) (terminalGraphemeWidth strWidth grapheme) ≥
        maxWidth := by
      unfold satAdd
      omega
    rw [if_pos hpush]
    refine ⟨pushed ++ [line ++ [grapheme]], [], by simp, ?_, rfl, rfl, hmax, fun other hother => ?_⟩
    · rw [pushLine, h.lines_eq, List.map_append, List.map_singleton]
    · rcases List.mem_append.1 hother with hother | hother
      · exact h.within other hother
      · rw [List.mem_singleton.1 hother]
        by_cases hwithin : cells strWidth (line ++ [grapheme]) ≤ maxWidth
        · exact .inl hwithin
        · have hzero : cells strWidth line = 0 := hroom.resolve_right hwithin
          refine .inr ⟨grapheme, by simp, by omega, fun _ => ⟨line, rfl, hzero⟩⟩
  · have hexact : satAdd (cells strWidth line) (terminalGraphemeWidth strWidth grapheme) =
        cells strWidth (line ++ [grapheme]) := by
      unfold satAdd
      omega
    rw [hexact, if_neg hfull]
    exact ⟨pushed, line ++ [grapheme], rfl, h.lines_eq, rfl, rfl, Nat.lt_of_not_le hfull, h.within⟩

theorem Counts.mono {limit : Nat} {row part : List Text} (h : Counts strWidth limit row)
    (hle : cells strWidth part ≤ cells strWidth row) : Counts strWidth limit part :=
  h.imp_right hle.trans

theorem Wraps.wrapGrapheme (h : Wraps strWidth maxWidth pushed line wrapping)
    (hcounts : Counts strWidth maxWidth (line ++ [grapheme])) :
    ∃ pushed' line', pushed'.flatten ++ line' = pushed.flatten ++ (line ++ [grapheme]) ∧
      Wraps strWidth maxWidth pushed' line' (wrapGrapheme strWidth maxWidth wrapping grapheme) := by
  unfold Fluxcope.Ui.wrapGrapheme
  dsimp only
  split
  case isTrue hbreak =>
    have hempty : Counts strWidth maxWidth ([] ++ [grapheme]) := hcounts.mono (by simp)
    obtain ⟨pushed', line', hrow, hwraps⟩ :=
      (h.push (Nat.zero_lt_of_lt h.width_lt)).appendGrapheme (.inl rfl) hempty
    exact ⟨pushed', line', by rw [hrow]; simp, hwraps⟩
  case isFalse hbreak =>
    refine h.appendGrapheme ?_ hcounts
    rw [h.width_eq] at hbreak
    have hsum : cells strWidth (line ++ [grapheme]) =
        cells strWidth line + terminalGraphemeWidth strWidth grapheme := by
      simp
    unfold Counts at hcounts
    unfold satAdd at hbreak
    omega

theorem Wraps.foldl (h : Wraps strWidth maxWidth pushed line wrapping) (pieces : List Text)
    (hcounts : Counts strWidth maxWidth (pushed.flatten ++ line ++ pieces)) :
    ∃ pushed' line', pushed'.flatten ++ line' = pushed.flatten ++ line ++ pieces ∧
      Wraps strWidth maxWidth pushed' line'
        (pieces.foldl (Fluxcope.Ui.wrapGrapheme strWidth maxWidth) wrapping) := by
  induction pieces generalizing pushed line wrapping with
  | nil => exact ⟨pushed, line, (List.append_nil _).symm, h⟩
  | cons grapheme pieces ih =>
    have hnext : Counts strWidth maxWidth (line ++ [grapheme]) := hcounts.mono (by
      simp only [cells_append, cells_cons, cells_nil]
      omega)
    obtain ⟨pushed', line', hrow, hwraps⟩ := h.wrapGrapheme hnext
    have hall : pushed'.flatten ++ line' ++ pieces =
        pushed.flatten ++ line ++ grapheme :: pieces := by
      rw [hrow]
      simp
    rw [← hall] at hcounts ⊢
    rw [List.foldl_cons]
    exact ih hwraps hcounts

theorem hardWrapText_spec (hgraphemes : CutsTexts graphemes)
    (hcounts : Counts strWidth maxWidth (graphemes value)) :
    ∃ lines : List (List Text),
      hardWrapText strWidth graphemes value maxWidth = lines.map List.flatten ∧
      lines.flatten = graphemes value ∧ ∀ line ∈ lines, WithinWidth strWidth maxWidth line := by
  unfold hardWrapText
  by_cases hmax : maxWidth = 0
  · refine ⟨[graphemes value], ?_, by simp, fun line hline => ?_⟩
    · rw [if_pos hmax, List.map_singleton, hgraphemes.flatten]
    rw [List.mem_singleton.1 hline]
    by_cases hzero : ∀ grapheme ∈ graphemes value, terminalGraphemeWidth strWidth grapheme = 0
    · refine .inl (Nat.le_of_eq ?_)
      rw [hmax, cells, List.sum_eq_zero_iff_forall_eq_nat]
      intro width hwidth
      obtain ⟨grapheme, hmem, rfl⟩ := List.mem_map.1 hwidth
      exact hzero grapheme hmem
    · push Not at hzero
      obtain ⟨grapheme, hmem, hwide⟩ := hzero
      exact .inr ⟨grapheme, hmem, by omega, fun hpos => absurd hmax hpos⟩
  · rw [if_neg hmax]
    have hstart : Wraps strWidth maxWidth [] [] {} :=
      ⟨rfl, rfl, rfl, Nat.pos_of_ne_zero hmax, fun _ hline => by cases hline⟩
    obtain ⟨pushed, line, hrow, hwraps⟩ := hstart.foldl (graphemes value) hcounts
    rw [List.flatten_nil, List.nil_append, List.nil_append] at hrow
    dsimp only
    rw [hwraps.lines_eq, hwraps.current_eq]
    split
    case isTrue hempty =>
      have hnil : line = [] := by
        cases line with
        | nil => rfl
        | cons piece line =>
          have hpiece : piece ≠ [] := hgraphemes.nonempty value piece (by rw [← hrow]; simp)
          exact absurd (List.append_eq_nil_iff.1 hempty).1 hpiece
      rw [hnil, List.append_nil] at hrow
      exact ⟨pushed, rfl, hrow, hwraps.within⟩
    case isFalse =>
      refine ⟨pushed ++ [line], by simp, by rw [← hrow]; simp, fun other hother => ?_⟩
      rcases List.mem_append.1 hother with hother | hother
      · exact hwraps.within other hother
      · rw [List.mem_singleton.1 hother]
        exact .inl hwraps.width_lt.le

/-! ## Terminal text -/

/-- The text shown in `width` cells: nothing without a cell, and else what is shown of the row;
with spaces behind it it fills the cells. -/
theorem fittedText_fills (hgraphemes : CutsTexts graphemes) (hspace : strWidth [' '] = 1)
    (hellipsis : strWidth ellipsis = 1)
    (hcounts : Counts strWidth width (expanded graphemes value tabWidth)) :
    ∃ fitted pieces, fittedText strWidth graphemes value width tabWidth = some fitted ∧
      fitted.text = pieces.flatten ∧ fitted.cellWidth = cells strWidth pieces ∧
      (if width = 0 then pieces = []
      else Shown strWidth width (expanded graphemes value tabWidth) pieces) ∧
      fitTextToWidth strWidth graphemes value width tabWidth =
        some (pieces ++ List.replicate (width - cells strWidth pieces) [' ']).flatten ∧
      cells strWidth pieces ≤ width ∧
      cells strWidth (pieces ++ List.replicate (width - cells strWidth pieces) [' ']) = width := by
  have hpadded (fitted : FittedText) (pieces : List Text)
      (hfitted : fittedText strWidth graphemes value width tabWidth = some fitted)
      (htext : fitted.text = pieces.flatten) (hcells : fitted.cellWidth = cells strWidth pieces) :
      fitTextToWidth strWidth graphemes value width tabWidth =
        some (pieces ++ List.replicate (width - cells strWidth pieces) [' ']).flatten := by
    rw [fitTextToWidth, hfitted, Option.map_some, htext, hcells, List.flatten_append,
      List.flatten_replicate_singleton]
  have hfills (pieces : List Text) (hle : cells strWidth pieces ≤ width) :
      cells strWidth (pieces ++ List.replicate (width - cells strWidth pieces) [' ']) = width := by
    rw [cells_append, cells_spaces hspace, Nat.add_sub_cancel' hle]
  by_cases hwidth : width = 0
  · have hfitted : fittedText strWidth graphemes value width tabWidth =
        some { text := [], cellWidth := 0 } := if_pos hwidth
    exact ⟨_, [], hfitted, rfl, rfl, by rw [if_pos hwidth], hpadded _ _ hfitted rfl rfl,
      Nat.zero_le width, hfills [] (Nat.zero_le width)⟩
  · obtain ⟨fitted, hfitted, pieces, hshown, htext, hcells⟩ :=
      fittedText_spec hgraphemes hspace hellipsis hwidth hcounts
    have hle : cells strWidth pieces ≤ width := by
      cases hshown with
      | whole hfits => exact hfits
      | clipped hover hkept =>
        have hkept := hkept.cost_le
        rw [cells_append, cells_cons, terminalGraphemeWidth_ellipsis hellipsis, cells_nil]
        unfold cells
        omega
    exact ⟨fitted, pieces, hfitted, htext, hcells, by rwa [if_neg hwidth],
      hpadded _ _ hfitted htext hcells, hle, hfills pieces hle⟩

/-- Fitting and wrapping, for any text and any widths. -/
theorem terminalText_fits (hgraphemes : CutsTexts graphemes) (hspace : strWidth [' '] = 1)
    (hellipsis : strWidth ellipsis = 1) (value : Text) (width tabWidth maxWidth : Nat)
    (hcounts : Counts strWidth width (expanded graphemes value tabWidth))
    (hwraps : Counts strWidth maxWidth (graphemes value)) :
    (∃ fitted pieces, fittedText strWidth graphemes value width tabWidth = some fitted ∧
      fitted.text = pieces.flatten ∧ fitted.cellWidth = cells strWidth pieces ∧
      (if width = 0 then pieces = []
      else Shown strWidth width (expanded graphemes value tabWidth) pieces) ∧
      fitTextToWidth strWidth graphemes value width tabWidth =
        some (pieces ++ List.replicate (width - cells strWidth pieces) [' ']).flatten ∧
      cells strWidth pieces ≤ width ∧
      cells strWidth (pieces ++ List.replicate (width - cells strWidth pieces) [' ']) = width) ∧
    (hardWrapText strWidth graphemes value maxWidth).flatten = value ∧
    ∃ lines : List (List Text),
      hardWrapText strWidth graphemes value maxWidth = lines.map List.flatten ∧
      lines.flatten = graphemes value ∧ ∀ line ∈ lines, WithinWidth strWidth maxWidth line := by
  obtain ⟨lines, hlines, hrow, hwithin⟩ := hardWrapText_spec hgraphemes hwraps
  refine ⟨fittedText_fills hgraphemes hspace hellipsis hcounts, ?_, lines, hlines, hrow, hwithin⟩
  rw [hlines, ← List.flatten_flatten, hrow, hgraphemes.flatten]

end Width

/-- Wide characters take two cells. -/
def sampleWidth (text : Text) : Nat := (text.map fun c => if c = '界' then 2 else 1).sum

theorem terminalText_fits_sample :
    (∃ fitted pieces, fittedText sampleWidth singletons ['界', '\t', 'a'] 3 2 = some fitted ∧
      fitted.text = pieces.flatten ∧ fitted.cellWidth = cells sampleWidth pieces ∧
      (if 3 = 0 then pieces = []
      else Shown sampleWidth 3 (expanded singletons ['界', '\t', 'a'] 2) pieces) ∧
      fitTextToWidth sampleWidth singletons ['界', '\t', 'a'] 3 2 =
        some (pieces ++ List.replicate (3 - cells sampleWidth pieces) [' ']).flatten ∧
      cells sampleWidth pieces ≤ 3 ∧
      cells sampleWidth (pieces ++ List.replicate (3 - cells sampleWidth pieces) [' ']) = 3) ∧
    (hardWrapText sampleWidth singletons ['界', '\t', 'a'] 1).flatten = ['界', '\t', 'a'] ∧
    ∃ lines : List (List Text),
      hardWrapText sampleWidth singletons ['界', '\t', 'a'] 1 = lines.map List.flatten ∧
      lines.flatten = singletons ['界', '\t', 'a'] ∧
      ∀ line ∈ lines, WithinWidth sampleWidth 1 line :=
  terminalText_fits segmentation_singletons.toCutsTexts rfl rfl ['界', '\t', 'a'] 3 2 1
    (.inl (by decide)) (.inl (by decide))

/-- Without a cell the text is neither shown as a whole nor clipped to an ellipsis. -/
theorem fittedText_without_cell :
    ¬ ∀ value width tabWidth, ∃ fitted pieces,
      fittedText sampleWidth singletons value width tabWidth = some fitted ∧
        fitted.text = pieces.flatten ∧
        Shown sampleWidth width (expanded singletons value tabWidth) pieces := by
  intro h
  obtain ⟨fitted, pieces, hfitted, htext, hshown⟩ := h ['a'] 0 1
  have hempty : pieces.flatten = [] := by
    rw [← htext]
    cases hfitted
    rfl
  cases hshown with
  | whole hfits => exact absurd hfits (by decide)
  | clipped hover hkept =>
    rw [List.flatten_append] at hempty
    exact absurd (List.append_eq_nil_iff.1 hempty).2 (by decide)

end Fluxcope.Ui
