import Fluxcope.Library.Run
import Fluxcope.TextInput.State
/-!
# Text input stays well formed

Whatever is typed, pasted, deleted or moved over, the cursor stands between two graphemes
of the text, and the text keeps its limit.  Graphemes may join where an edit brings their
parts together; the cursor then moves behind the joined one.
-/

namespace Fluxcope.TextInput

open Fluxcope.Library

/-- The cursor is at a boundary, and the text keeps the limit. -/
structure WellFormed (graphemes : Text → List Text) (state : TextInputState) : Prop where
  boundary : IsPieceBoundary graphemes state.text state.cursor
  length_le : ∀ limit, state.maxBytes = some limit → Text.utf8Len state.text ≤ limit

/-- The states that inputs begin with. -/
inductive Starts : TextInputState → Prop
  | default : Starts {}
  | new (text : Text) : Starts (.new text)
  | withMaxBytes (maxBytes : Nat) : Starts (.withMaxBytes maxBytes)

/-! ## Edits -/

/-- The text is new, and the cursor stands at the offset or behind the grapheme around it. -/
def Becomes (graphemes : Text → List Text) (state : TextInputState) (text : Text) (offset : Nat)
    (state' : TextInputState) : Prop :=
  ∃ cursor, state' = { state with text, cursor } ∧ LandsBehind graphemes text offset cursor

def Inserts (graphemes : Text → List Text) (state : TextInputState) (inserted : Text)
    (state' : TextInputState) : Prop :=
  (∀ c ∈ inserted, isControl c = false) ∧
    ∃ before after, state.text = before ++ after ∧ state.cursor = Text.utf8Len before ∧
      Becomes graphemes state (before ++ inserted ++ after)
        (Text.utf8Len (before ++ inserted)) state'

/-- The grapheme that ends at the cursor is gone, and nothing else. -/
def RemovesBefore (graphemes : Text → List Text) (state state' : TextInputState) : Prop :=
  ∃ before grapheme after, graphemes state.text = before ++ grapheme :: after ∧
    state.cursor = Text.utf8Len (before.flatten ++ grapheme) ∧
    Becomes graphemes state (before.flatten ++ after.flatten) (Text.utf8Len before.flatten) state'

/-- The grapheme that begins at the cursor is gone, and nothing else. -/
def RemovesAfter (graphemes : Text → List Text) (state state' : TextInputState) : Prop :=
  ∃ before grapheme after, graphemes state.text = before ++ grapheme :: after ∧
    state.cursor = Text.utf8Len before.flatten ∧
    Becomes graphemes state (before.flatten ++ after.flatten) (Text.utf8Len before.flatten) state'

/-- The text would go over the limit, or over what a string can hold where there is none. -/
def Exceeds (state : TextInputState) (inserted : Text) : Prop :=
  match state.maxBytes with
  | none => wordMax < Text.utf8Len inserted
  | some limit => limit < Text.utf8Len state.text + Text.utf8Len inserted

/-- The characters that are typed or pasted, without the controls, get into the text.  Only
where there are none, or no room for them, the input stays as it was. -/
def InsertEffect (graphemes : Text → List Text) (state : TextInputState) (typed : Text)
    (state' : TextInputState) : InputEditOutcome → Prop
  | .changed =>
    (typed.filter fun c => !isControl c) ≠ [] ∧
      Inserts graphemes state (typed.filter fun c => !isControl c) state'
  | .unchanged => state' = state ∧ ∀ c ∈ typed, isControl c = true
  | .limitReached => state' = state ∧ Exceeds state (typed.filter fun c => !isControl c)

/-- One grapheme goes, unless the cursor is where there is none to remove. -/
def RemoveEffect (removes : TextInputState → TextInputState → Prop) (none : Nat)
    (state state' : TextInputState) : InputEditOutcome → Prop
  | .changed => removes state state'
  | .unchanged => state' = state ∧ state.cursor = none
  | .limitReached => False

def BackspaceEffect (graphemes : Text → List Text) (state state' : TextInputState) :
    InputEditOutcome → Prop :=
  RemoveEffect (RemovesBefore graphemes) 0 state state'

def DeleteEffect (graphemes : Text → List Text) (state state' : TextInputState) :
    InputEditOutcome → Prop :=
  RemoveEffect (RemovesAfter graphemes) (Text.utf8Len state.text) state state'

/-- The cursor goes over the grapheme before it, if there is one. -/
def StepsLeft (graphemes : Text → List Text) (state state' : TextInputState) : Bool → Prop
  | false => state' = state ∧ state.cursor = 0
  | true => ∃ before grapheme after, graphemes state.text = before ++ grapheme :: after ∧
      state.cursor = Text.utf8Len (before.flatten ++ grapheme) ∧
      state' = { state with cursor := Text.utf8Len before.flatten }

/-- The cursor goes over the grapheme behind it, if there is one. -/
def StepsRight (graphemes : Text → List Text) (state state' : TextInputState) : Bool → Prop
  | false => state' = state ∧ state.cursor = Text.utf8Len state.text
  | true => ∃ before grapheme after, graphemes state.text = before ++ grapheme :: after ∧
      state.cursor = Text.utf8Len before.flatten ∧
      state' = { state with cursor := Text.utf8Len (before.flatten ++ grapheme) }

/-- A key without modifiers, or a character with shift. -/
def KeyEvent.Plain (key : KeyEvent) : Prop :=
  key.modifiers = {} ∨ ∃ character, key.code = .char character ∧ key.modifiers = { shift := true }

/-- What a key does when no modifier stands against it. -/
def PlainKeyEffect (graphemes : Text → List Text) (state state' : TextInputState)
    (outcome : InputEditOutcome) : KeyCode → Prop
  | .char character => InsertEffect graphemes state [character] state' outcome
  | .backspace => BackspaceEffect graphemes state state' outcome
  | .delete => DeleteEffect graphemes state state' outcome
  | .left => outcome = .unchanged ∧ ∃ changed, StepsLeft graphemes state state' changed
  | .right => outcome = .unchanged ∧ ∃ changed, StepsRight graphemes state state' changed
  | .home => outcome = .unchanged ∧ state' = { state with cursor := 0 }
  | .endKey => outcome = .unchanged ∧ state' = { state with cursor := Text.utf8Len state.text }
  | .other => outcome = .unchanged ∧ state' = state

structure KeyEffect (graphemes : Text → List Text) (state state' : TextInputState)
    (key : KeyEvent) (outcome : InputEditOutcome) : Prop where
  plain : key.Plain → PlainKeyEffect graphemes state state' outcome key.code
  modified : ¬key.Plain → outcome = .unchanged ∧ state' = state

/-- The input afterwards is what the operation and its answer say. -/
def Effect (graphemes : Text → List Text) (state state' : TextInputState) :
    Operation → Answer → Prop
  | .clear, .none => state' = { state with text := [], cursor := 0 }
  | .setCursor offset, .moved changed =>
    (∃ cursor, state' = { state with cursor } ∧ LandsBefore graphemes state.text offset cursor) ∧
      (changed ↔ state'.cursor ≠ state.cursor)
  | .insertChar character, .outcome outcome =>
    InsertEffect graphemes state [character] state' outcome
  | .paste pasted, .outcome outcome => InsertEffect graphemes state pasted state' outcome
  | .moveLeft, .moved changed => StepsLeft graphemes state state' changed
  | .moveRight, .moved changed => StepsRight graphemes state state' changed
  | .moveHome, .moved changed =>
    state' = { state with cursor := 0 } ∧ (changed ↔ state'.cursor ≠ state.cursor)
  | .moveEnd, .moved changed =>
    state' = { state with cursor := Text.utf8Len state.text } ∧
      (changed ↔ state'.cursor ≠ state.cursor)
  | .backspace, .outcome outcome => BackspaceEffect graphemes state state' outcome
  | .delete, .outcome outcome => DeleteEffect graphemes state state' outcome
  | .handleKey key, .outcome outcome => KeyEffect graphemes state state' key outcome
  | _, _ => False

/-! ## The cursor -/

section Graphemes

variable {graphemes : Text → List Text} {state : TextInputState}

/-- Snapping moves the cursor, if there is a need, to the next boundary. -/
theorem snapCursorForward_becomes (hgraphemes : Segmentation graphemes) (state : TextInputState)
    {text : Text} {offset : Nat} (hoffset : offset ≤ Text.utf8Len text) :
    Becomes graphemes state text offset
      (TextInputState.snapCursorForward graphemes { state with text, cursor := offset }) := by
  unfold TextInputState.snapCursorForward
  split
  case isTrue hend =>
    dsimp only at hend
    exact ⟨offset, rfl, ⟨hend ▸ .length hgraphemes, Nat.le_refl offset⟩, fun _ h => h.2⟩
  case isFalse => exact ⟨_, rfl, landsBehind_find? hgraphemes hoffset⟩

theorem Becomes.wellFormed {text : Text} {offset : Nat} {state' : TextInputState}
    (h : Becomes graphemes state text offset state')
    (hlength : ∀ limit, state.maxBytes = some limit → Text.utf8Len text ≤ limit) :
    WellFormed graphemes state' := by
  obtain ⟨cursor, rfl, hlands⟩ := h
  exact ⟨hlands.1.1, hlength⟩

theorem WellFormed.withCursor (h : WellFormed graphemes state) {cursor : Nat}
    (hcursor : IsPieceBoundary graphemes state.text cursor) :
    WellFormed graphemes { state with cursor } :=
  ⟨hcursor, h.length_le⟩

theorem Starts.wellFormed (hgraphemes : Segmentation graphemes) (h : Starts state) :
    WellFormed graphemes state := by
  cases h with
  | default => exact ⟨.zero, fun limit hlimit => by cases hlimit⟩
  | new text => exact ⟨.length hgraphemes, fun limit hlimit => by cases hlimit⟩
  | withMaxBytes maxBytes => exact ⟨.zero, fun limit hlimit => Nat.zero_le limit⟩

/-! ## Insertion -/

variable (hgraphemes : Segmentation graphemes) (h : WellFormed graphemes state)

include hgraphemes h

theorem insertText_spec {inserted : Text} (hcontrol : ∀ c ∈ inserted, isControl c = false)
    (hroom : ∀ limit, state.maxBytes = some limit →
      Text.utf8Len state.text + Text.utf8Len inserted ≤ limit) :
    ∃ state', state.insertText graphemes inserted = some state' ∧ WellFormed graphemes state' ∧
      Inserts graphemes state inserted state' := by
  obtain ⟨before, after, -, htext, hcursor, -, -⟩ := h.boundary.exists_parts hgraphemes
  have hinsert : state.insertText graphemes inserted =
      some (TextInputState.snapCursorForward graphemes
        { text := before.flatten ++ inserted ++ after.flatten
          cursor := state.cursor + Text.utf8Len inserted
          maxBytes := state.maxBytes }) := by
    rw [TextInputState.insertText, htext, hcursor, Text.insertAt_append, Option.map_some]
  have hwithin : state.cursor + Text.utf8Len inserted ≤
      Text.utf8Len (before.flatten ++ inserted ++ after.flatten) := by
    rw [hcursor, Text.utf8Len_append, Text.utf8Len_append]
    exact Nat.le_add_right _ _
  have hbecomes := snapCursorForward_becomes hgraphemes state hwithin
  refine ⟨_, hinsert, hbecomes.wellFormed fun limit hlimit => ?_, hcontrol, before.flatten,
    after.flatten, htext, hcursor, ?_⟩
  · have hfits := hroom limit hlimit
    rw [htext, Text.utf8Len_append] at hfits
    rw [Text.utf8Len_append, Text.utf8Len_append]
    omega
  · rw [Text.utf8Len_append, ← hcursor]
    exact hbecomes

theorem insertChar_spec (character : Char) :
    ∃ state' outcome, state.insertChar graphemes character = some (state', outcome) ∧
      WellFormed graphemes state' ∧
      InsertEffect graphemes state [character] state' outcome := by
  unfold TextInputState.insertChar
  by_cases hcontrol : isControl character = true
  · rw [if_pos hcontrol]
    refine ⟨state, .unchanged, rfl, h, rfl, fun c hc => ?_⟩
    rw [List.mem_singleton.1 hc]
    exact hcontrol
  rw [if_neg hcontrol]
  have hkept : ([character].filter fun c => !isControl c) = [character] := by
    rw [List.filter_cons, if_pos (by rw [Bool.eq_false_of_not_eq_true hcontrol]; rfl),
      List.filter_nil]
  by_cases hlimit : state.exceedsLimit character.utf8Size = true
  · rw [if_pos hlimit]
    refine ⟨state, .limitReached, rfl, h, rfl, ?_⟩
    rw [hkept]
    unfold TextInputState.exceedsLimit at hlimit
    unfold Exceeds
    rw [Text.utf8Len_cons, Text.utf8Len_nil]
    cases hmax : state.maxBytes with
    | none =>
      rw [hmax] at hlimit
      cases hlimit
    | some limit =>
      rw [hmax] at hlimit
      have hover := of_decide_eq_true hlimit
      have hlength := h.length_le limit hmax
      dsimp only
      omega
  rw [if_neg hlimit]
  have hroom (limit : Nat) (hmax : state.maxBytes = some limit) :
      Text.utf8Len state.text + Text.utf8Len [character] ≤ limit := by
    have hlength := h.length_le limit hmax
    simp only [TextInputState.exceedsLimit, hmax, decide_eq_true_eq] at hlimit
    rw [Text.utf8Len_cons, Text.utf8Len_nil]
    omega
  obtain ⟨state', hinsert, hwell, hinserts⟩ := insertText_spec hgraphemes h (by
    intro c hc
    rw [List.mem_singleton.1 hc]
    exact Bool.eq_false_of_not_eq_true hcontrol) hroom
  refine ⟨state', .changed, by rw [hinsert, Option.map_some], hwell, ?_⟩
  rw [InsertEffect, hkept]
  exact ⟨List.cons_ne_nil _ _, hinserts⟩

omit hgraphemes h

theorem pastedBytes_eq {remaining bytes : Nat} (hbytes : bytes ≤ remaining) (pasted : Text) :
    TextInputState.pastedBytes remaining bytes pasted =
      if bytes + Text.utf8Len pasted ≤ remaining then some (bytes + Text.utf8Len pasted)
      else none := by
  induction pasted generalizing bytes with
  | nil =>
    rw [Text.utf8Len_nil, Nat.add_zero, if_pos hbytes]
    rfl
  | cons c pasted ih =>
    rw [TextInputState.pastedBytes, Text.utf8Len_cons, ← Nat.add_assoc]
    split
    · rw [if_neg (by omega)]
    · exact ih (by omega)

theorem utf8Len_eq_zero {text : Text} (h : Text.utf8Len text = 0) : text = [] := by
  cases text with
  | nil => rfl
  | cons c text =>
    have hsize := c.utf8Size_pos
    rw [Text.utf8Len_cons] at h
    omega

/-- A filter that keeps the length in bytes keeps every character. -/
theorem filter_eq_self_of_utf8Len {p : Char → Bool} {text : Text}
    (h : Text.utf8Len (text.filter p) = Text.utf8Len text) : text.filter p = text := by
  have hlength (text : Text) : Text.utf8Len (text.filter p) ≤ Text.utf8Len text := by
    induction text with
    | nil => exact Nat.le_refl _
    | cons c text ih =>
      rw [List.filter_cons]
      split
      · rw [Text.utf8Len_cons, Text.utf8Len_cons]
        omega
      · rw [Text.utf8Len_cons]
        omega
  induction text with
  | nil => rfl
  | cons c text ih =>
    have hsize := c.utf8Size_pos
    have hrest := hlength text
    rw [List.filter_cons] at h ⊢
    split
    case isTrue hc =>
      rw [if_pos hc, Text.utf8Len_cons, Text.utf8Len_cons] at h
      rw [ih (by omega)]
    case isFalse hc =>
      rw [if_neg hc, Text.utf8Len_cons] at h
      omega

include hgraphemes h

theorem paste_spec (pasted : Text) :
    ∃ state' outcome, state.paste graphemes pasted = some (state', outcome) ∧
      WellFormed graphemes state' ∧
      InsertEffect graphemes state pasted state' outcome := by
  unfold TextInputState.paste
  rw [pastedBytes_eq (Nat.zero_le _), Nat.zero_add]
  by_cases hfits : Text.utf8Len (pasted.filter fun c => !isControl c) ≤ state.remaining
  case neg =>
    rw [if_neg hfits]
    refine ⟨state, .limitReached, rfl, h, rfl, ?_⟩
    unfold TextInputState.remaining at hfits
    unfold Exceeds
    split
    case h_1 hmax =>
      rw [hmax] at hfits
      exact Nat.lt_of_not_le hfits
    case h_2 limit hmax =>
      rw [hmax] at hfits
      dsimp only at hfits
      omega
  rw [if_pos hfits]
  dsimp only
  by_cases hzero : Text.utf8Len (pasted.filter fun c => !isControl c) = 0
  · rw [if_pos hzero]
    refine ⟨state, .unchanged, rfl, h, rfl, fun c hc => ?_⟩
    have hnone := List.filter_eq_nil_iff.1 (utf8Len_eq_zero hzero) c hc
    rwa [Bool.not_eq_true, Bool.not_eq_false'] at hnone
  rw [if_neg hzero]
  -- without controls the pasted text itself is inserted, which is the same
  have hinserted : (if Text.utf8Len (pasted.filter fun c => !isControl c) = Text.utf8Len pasted
      then pasted else pasted.filter fun c => !isControl c) =
        pasted.filter fun c => !isControl c := by
    split
    · exact (filter_eq_self_of_utf8Len ‹_›).symm
    · rfl
  have hcontrol : ∀ c ∈ pasted.filter fun c => !isControl c, isControl c = false := by
    intro c hc
    have hkept := (List.mem_filter.1 hc).2
    rwa [Bool.not_eq_true'] at hkept
  have hroom (limit : Nat) (hmax : state.maxBytes = some limit) : Text.utf8Len state.text +
      Text.utf8Len (pasted.filter fun c => !isControl c) ≤ limit := by
    have hlength := h.length_le limit hmax
    simp only [TextInputState.remaining, hmax] at hfits
    omega
  rw [hinserted]
  obtain ⟨state', hinsert, hwell, hinserts⟩ := insertText_spec hgraphemes h hcontrol hroom
  refine ⟨state', .changed, by rw [hinsert, Option.map_some], hwell, fun hnil => ?_, hinserts⟩
  rw [hnil, Text.utf8Len_nil] at hzero
  exact hzero rfl

/-! ## Moves -/

omit h in
theorem setCursor_spec (state : TextInputState) (offset : Nat) :
    ∃ cursor, (state.setCursor graphemes offset).1 = { state with cursor } ∧
      LandsBefore graphemes state.text offset cursor := by
  unfold TextInputState.setCursor
  split
  case isTrue hend =>
    exact ⟨_, rfl, ⟨.length hgraphemes, hend⟩, fun _ h => h.1.le_length hgraphemes⟩
  case isFalse hend => exact ⟨_, rfl, landsBefore_takeWhile hgraphemes (not_le.1 hend)⟩

theorem wellFormed_setCursor (offset : Nat) :
    WellFormed graphemes (state.setCursor graphemes offset).1 := by
  obtain ⟨cursor, hmoved, hlands⟩ := setCursor_spec hgraphemes state offset
  rw [hmoved]
  exact h.withCursor hlands.1.1

theorem moveLeft_spec :
    ∃ state' changed, state.moveLeft graphemes = some (state', changed) ∧
      WellFormed graphemes state' ∧ StepsLeft graphemes state state' changed := by
  obtain ⟨before, after, hparts, htext, hcursor, hbefore, -⟩ := h.boundary.exists_parts hgraphemes
  have hsplit := Text.splitAtByte_append before.flatten after.flatten
  rw [← htext, ← hcursor] at hsplit
  rw [TextInputState.moveLeft, hsplit, Option.map_some]
  dsimp only
  rw [TextInputState.graphemeIndices, hbefore]
  rcases List.eq_nil_or_concat before with rfl | ⟨earlier, grapheme, rfl⟩
  · exact ⟨state, false, rfl, h, rfl, hcursor⟩
  · rw [List.concat_eq_append, getLast?_indicesFrom, Nat.zero_add]
    rw [List.concat_eq_append, List.append_assoc, List.singleton_append] at hparts
    refine ⟨_, true, rfl, h.withCursor ⟨earlier, grapheme :: after, hparts, rfl⟩, earlier,
      grapheme, after, hparts, ?_, rfl⟩
    rw [hcursor, List.concat_eq_append, List.flatten_append, List.flatten_singleton]

theorem moveRight_spec :
    ∃ state' changed, state.moveRight graphemes = some (state', changed) ∧
      WellFormed graphemes state' ∧ StepsRight graphemes state state' changed := by
  obtain ⟨before, after, hparts, htext, hcursor, -, hafter⟩ := h.boundary.exists_parts hgraphemes
  have hsplit := Text.splitAtByte_append before.flatten after.flatten
  rw [← htext, ← hcursor] at hsplit
  rw [TextInputState.moveRight, hsplit, Option.map_some]
  dsimp only
  rw [hafter]
  cases after with
  | nil =>
    rw [List.flatten_nil, List.append_nil] at htext
    exact ⟨state, false, rfl, h, rfl, by rw [hcursor, htext]⟩
  | cons grapheme later =>
    have hstop : state.cursor + Text.utf8Len grapheme =
        Text.utf8Len (before.flatten ++ grapheme) := by
      rw [hcursor, Text.utf8Len_append]
    refine ⟨_, true, rfl, h.withCursor ⟨before ++ [grapheme], later, ?_, ?_⟩, before, grapheme,
      later, hparts, hcursor, by rw [hstop]⟩
    · rw [hparts, List.append_assoc, List.singleton_append]
    · rw [hstop, List.flatten_append, List.flatten_singleton]

/-! ## Deletion -/

/-- A part of the text is cut out, and the cursor stood or is put where it began. -/
theorem snapCursorForward_cut {before cut after : Text} {cursor : Nat}
    (htext : state.text = before ++ cut ++ after) (hcursor : cursor = Text.utf8Len before) :
    WellFormed graphemes
        (TextInputState.snapCursorForward graphemes { state with text := before ++ after, cursor }) ∧
      Becomes graphemes state (before ++ after) (Text.utf8Len before)
        (TextInputState.snapCursorForward graphemes
          { state with text := before ++ after, cursor }) := by
  subst hcursor
  have hwithin : Text.utf8Len before ≤ Text.utf8Len (before ++ after) := by
    rw [Text.utf8Len_append]
    exact Nat.le_add_right _ _
  have hbecomes := snapCursorForward_becomes hgraphemes state hwithin
  refine ⟨hbecomes.wellFormed fun limit hlimit => ?_, hbecomes⟩
  have hlength := h.length_le limit hlimit
  rw [htext, Text.utf8Len_append, Text.utf8Len_append] at hlength
  rw [Text.utf8Len_append]
  omega

theorem backspace_spec :
    ∃ state' outcome, state.backspace graphemes = some (state', outcome) ∧
      WellFormed graphemes state' ∧
      BackspaceEffect graphemes state state' outcome := by
  obtain ⟨before, after, hparts, htext, hcursor, hbefore, -⟩ := h.boundary.exists_parts hgraphemes
  have hsplit := Text.splitAtByte_append before.flatten after.flatten
  rw [← htext, ← hcursor] at hsplit
  rw [TextInputState.backspace, hsplit]
  simp only [bind, Option.bind, TextInputState.graphemeIndices, hbefore]
  rcases List.eq_nil_or_concat before with rfl | ⟨earlier, grapheme, rfl⟩
  · exact ⟨state, .unchanged, rfl, h, rfl, hcursor⟩
  rw [List.concat_eq_append] at *
  have hflatten : (earlier ++ [grapheme]).flatten = earlier.flatten ++ grapheme := by
    rw [List.flatten_append, List.flatten_singleton]
  rw [hflatten] at htext hcursor
  have hdrain : Text.drain state.text (Text.utf8Len earlier.flatten) state.cursor =
      some (earlier.flatten ++ after.flatten) := by
    rw [htext, hcursor, Text.drain_append]
  rw [getLast?_indicesFrom, Nat.zero_add]
  dsimp only
  rw [hdrain]
  obtain ⟨hwell, hbecomes⟩ := snapCursorForward_cut hgraphemes h htext rfl
  refine ⟨_, .changed, rfl, hwell, earlier, grapheme, after, ?_, hcursor, hbecomes⟩
  rw [hparts, List.append_assoc, List.singleton_append]

theorem delete_spec :
    ∃ state' outcome, state.delete graphemes = some (state', outcome) ∧
      WellFormed graphemes state' ∧
      DeleteEffect graphemes state state' outcome := by
  obtain ⟨before, after, hparts, htext, hcursor, -, hafter⟩ := h.boundary.exists_parts hgraphemes
  have hsplit := Text.splitAtByte_append before.flatten after.flatten
  rw [← htext, ← hcursor] at hsplit
  rw [TextInputState.delete, hsplit]
  simp only [bind, Option.bind, hafter]
  cases after with
  | nil =>
    rw [List.flatten_nil, List.append_nil] at htext
    exact ⟨state, .unchanged, rfl, h, rfl, by rw [hcursor, htext]⟩
  | cons grapheme later =>
    rw [List.flatten_cons, ← List.append_assoc] at htext
    have hstop : state.cursor + Text.utf8Len grapheme =
        Text.utf8Len (before.flatten ++ grapheme) := by
      rw [hcursor, Text.utf8Len_append]
    have hdrain : Text.drain state.text state.cursor (state.cursor + Text.utf8Len grapheme) =
        some (before.flatten ++ later.flatten) := by
      rw [hstop, htext, hcursor, Text.drain_append]
    rw [List.head?_cons]
    dsimp only
    rw [hdrain]
    obtain ⟨hwell, hbecomes⟩ := snapCursorForward_cut hgraphemes h htext hcursor
    exact ⟨_, .changed, rfl, hwell, before, grapheme, later, hparts, hcursor, hbecomes⟩

/-! ## Runs -/

omit hgraphemes h in
/-- A plain key, which is not a character, has no modifier. -/
theorem KeyEvent.plain_iff {code : KeyCode} {modifiers : KeyModifiers}
    (hcode : ∀ character, code ≠ .char character) :
    KeyEvent.Plain ⟨code, modifiers⟩ ↔ modifiers.isEmpty = true := by
  unfold KeyEvent.Plain KeyModifiers.isEmpty
  rw [decide_eq_true_eq]
  constructor
  · rintro (hmodifiers | ⟨character, hchar, -⟩)
    · exact hmodifiers
    · exact absurd hchar (hcode character)
  · exact Or.inl

omit hgraphemes h in
theorem KeyEvent.plain_char_iff {character : Char} {modifiers : KeyModifiers} :
    KeyEvent.Plain ⟨.char character, modifiers⟩ ↔
      (modifiers.isEmpty || modifiers = { shift := true }) = true := by
  unfold KeyEvent.Plain KeyModifiers.isEmpty
  rw [Bool.or_eq_true, decide_eq_true_eq, decide_eq_true_eq]
  constructor
  · rintro (hmodifiers | ⟨-, -, hmodifiers⟩)
    · exact .inl hmodifiers
    · exact .inr hmodifiers
  · rintro (hmodifiers | hmodifiers)
    · exact .inl hmodifiers
    · exact .inr ⟨character, rfl, hmodifiers⟩

omit hgraphemes in
/-- A key does what its operation does when it is plain, and nothing otherwise. -/
theorem handleKey_of_plain {key : KeyEvent} {plain : Bool} (hplain : key.Plain ↔ plain = true)
    {edit : Option (TextInputState × InputEditOutcome)}
    (hedit : ∃ state' outcome, edit = some (state', outcome) ∧ WellFormed graphemes state' ∧
      PlainKeyEffect graphemes state state' outcome key.code) :
    ∃ state' outcome, (if plain = true then edit else some (state, .unchanged)) =
        some (state', outcome) ∧
      WellFormed graphemes state' ∧ KeyEffect graphemes state state' key outcome := by
  by_cases hmodifiers : plain = true
  · rw [if_pos hmodifiers]
    obtain ⟨state', outcome, happly, hwell, heffect⟩ := hedit
    exact ⟨state', outcome, happly, hwell, fun _ => heffect,
      fun hnot => absurd (hplain.2 hmodifiers) hnot⟩
  · rw [if_neg hmodifiers]
    exact ⟨state, .unchanged, rfl, h, fun hplain' => absurd (hplain.1 hplain') hmodifiers,
      fun _ => ⟨rfl, rfl⟩⟩

theorem handleKey_spec (key : KeyEvent) :
    ∃ state' outcome, state.handleKey graphemes key = some (state', outcome) ∧
      WellFormed graphemes state' ∧ KeyEffect graphemes state state' key outcome := by
  obtain ⟨code, modifiers⟩ := key
  unfold TextInputState.handleKey
  cases code with
  | char character =>
    exact handleKey_of_plain h KeyEvent.plain_char_iff (insertChar_spec hgraphemes h character)
  | backspace =>
    exact handleKey_of_plain h (KeyEvent.plain_iff (by simp)) (backspace_spec hgraphemes h)
  | delete => exact handleKey_of_plain h (KeyEvent.plain_iff (by simp)) (delete_spec hgraphemes h)
  | left =>
    obtain ⟨state', changed, happly, hwell, hmoves⟩ := moveLeft_spec hgraphemes h
    exact handleKey_of_plain h (KeyEvent.plain_iff (by simp))
      ⟨state', .unchanged, by rw [happly, Option.map_some], hwell, rfl, changed, hmoves⟩
  | right =>
    obtain ⟨state', changed, happly, hwell, hmoves⟩ := moveRight_spec hgraphemes h
    exact handleKey_of_plain h (KeyEvent.plain_iff (by simp))
      ⟨state', .unchanged, by rw [happly, Option.map_some], hwell, rfl, changed, hmoves⟩
  | home =>
    exact handleKey_of_plain h (KeyEvent.plain_iff (by simp))
      ⟨_, .unchanged, rfl, h.withCursor .zero, rfl, rfl⟩
  | endKey =>
    exact handleKey_of_plain h (KeyEvent.plain_iff (by simp))
      ⟨_, .unchanged, rfl, h.withCursor (.length hgraphemes), rfl, rfl⟩
  | other => exact ⟨state, .unchanged, rfl, h, fun _ => ⟨rfl, rfl⟩, fun _ => ⟨rfl, rfl⟩⟩

/-- No operation panics, and each keeps the input well formed. -/
theorem apply_spec (operation : Operation) :
    ∃ state' answer, operation.apply graphemes state = some (state', answer) ∧
      WellFormed graphemes state' ∧ Effect graphemes state state' operation answer := by
  cases operation with
  | clear => exact ⟨_, _, rfl, ⟨.zero, fun limit _ => Nat.zero_le limit⟩, rfl⟩
  | setCursor cursor =>
    exact ⟨_, _, rfl, wellFormed_setCursor hgraphemes h cursor,
      setCursor_spec hgraphemes state cursor, by
        rw [decide_eq_true_eq]
        exact ne_comm⟩
  | insertChar character =>
    obtain ⟨state', outcome, happly, hwell, heffect⟩ := insertChar_spec hgraphemes h character
    exact ⟨state', .outcome outcome, by rw [Operation.apply, happly]; rfl, hwell, heffect⟩
  | paste pasted =>
    obtain ⟨state', outcome, happly, hwell, heffect⟩ := paste_spec hgraphemes h pasted
    exact ⟨state', .outcome outcome, by rw [Operation.apply, happly]; rfl, hwell, heffect⟩
  | moveLeft =>
    obtain ⟨state', changed, happly, hwell, hmoves⟩ := moveLeft_spec hgraphemes h
    exact ⟨state', .moved changed, by rw [Operation.apply, happly]; rfl, hwell, hmoves⟩
  | moveRight =>
    obtain ⟨state', changed, happly, hwell, hmoves⟩ := moveRight_spec hgraphemes h
    exact ⟨state', .moved changed, by rw [Operation.apply, happly]; rfl, hwell, hmoves⟩
  | moveHome =>
    exact ⟨_, _, rfl, h.withCursor .zero, rfl, by
      rw [decide_eq_true_eq]
      exact ne_comm⟩
  | moveEnd =>
    exact ⟨_, _, rfl, h.withCursor (.length hgraphemes), rfl, by
      rw [decide_eq_true_eq]
      exact ne_comm⟩
  | backspace =>
    obtain ⟨state', outcome, happly, hwell, heffect⟩ := backspace_spec hgraphemes h
    exact ⟨state', .outcome outcome, by rw [Operation.apply, happly]; rfl, hwell, heffect⟩
  | delete =>
    obtain ⟨state', outcome, happly, hwell, heffect⟩ := delete_spec hgraphemes h
    exact ⟨state', .outcome outcome, by rw [Operation.apply, happly]; rfl, hwell, heffect⟩
  | handleKey key =>
    obtain ⟨state', outcome, happly, hwell, heffect⟩ := handleKey_spec hgraphemes h key
    exact ⟨state', .outcome outcome, by rw [Operation.apply, happly]; rfl, hwell, heffect⟩

theorem run_spec (operations : List Operation) :
    ∃ state', run (Operation.next graphemes) state operations = some state' ∧
      WellFormed graphemes state' := by
  induction operations generalizing state with
  | nil => exact ⟨state, rfl, h⟩
  | cons operation operations ih =>
    obtain ⟨next, answer, happly, hwell, -⟩ := apply_spec hgraphemes h operation
    obtain ⟨last, hrun, hlast⟩ := ih hwell
    refine ⟨last, ?_, hlast⟩
    rw [run_cons, Operation.next, happly, Option.map_some, Option.bind_some]
    exact hrun

omit h

/-- After any operations the input is well formed, and the next operation does not panic, keeps
it well formed and changes the text as it answers. -/
theorem operations_wellFormed (hstart : Starts state) (operations : List Operation) :
    ∃ reached, run (Operation.next graphemes) state operations = some reached ∧
      WellFormed graphemes reached ∧
      ∀ operation : Operation, ∃ state' answer,
        operation.apply graphemes reached = some (state', answer) ∧ WellFormed graphemes state' ∧
          Effect graphemes reached state' operation answer := by
  obtain ⟨reached, hrun, hwell⟩ := run_spec hgraphemes (hstart.wellFormed hgraphemes) operations
  exact ⟨reached, hrun, hwell, apply_spec hgraphemes hwell⟩

end Graphemes

theorem operations_wellFormed_sample :
    ∃ reached, run (Operation.next singletons) (.withMaxBytes 3)
        [.paste ['a', '\n', 'b'], .moveLeft, .insertChar 'c', .backspace] = some reached ∧
      WellFormed singletons reached ∧
      ∀ operation : Operation, ∃ state' answer,
        operation.apply singletons reached = some (state', answer) ∧
          WellFormed singletons state' ∧ Effect singletons reached state' operation answer :=
  operations_wellFormed segmentation_singletons (.withMaxBytes 3) _

end Fluxcope.TextInput
