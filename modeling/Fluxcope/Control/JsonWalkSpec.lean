import Fluxcope.Control.JsonWalk
/-!
# The walk over a document

The frames of the walker hold what a recursion over the document would: the walk over
a value is its visit, unless a limit is passed on the way.
-/

namespace Fluxcope.Control

open Fluxcope.Library Fluxcope.Library.Utf8

/-! ## The parser's view of a document -/

def Chunk.result (chunk : Chunk) : ParserResult :=
  { consumedBytes := chunk.bytes.length, event := some (.ok chunk.event) }

/-- The input is the text of the document, and the parser reports its events. -/
structure Parses (parser : JsonEventParser) (input : Bytes) (document : JsonDocument) : Prop where
  text : input = document.text
  events : parser input = document.chunks.map Chunk.result

/-! ## Appending to the path -/

theorem foldlM_appendPointerChar {path : Text} (hpath : Text.utf8Len path ≤ maxJsonPointerBytes)
    (segment : Text) :
    segment.foldlM appendPointerChar path =
      if Text.utf8Len (path ++ escapePointerSegment segment) ≤ maxJsonPointerBytes then
        .ok (path ++ escapePointerSegment segment)
      else .error pointerPathLimit := by
  induction segment generalizing path with
  | nil =>
    have hnil : escapePointerSegment [] = [] := rfl
    rw [hnil, List.append_nil, if_pos hpath]
    rfl
  | cons c segment ih =>
    rw [List.foldlM_cons, escapePointerSegment_cons, ← List.append_assoc]
    have hlonger := Text.utf8Len_append (path ++ escapePointerChar c) (escapePointerSegment segment)
    have hchar := Text.utf8Len_append path (escapePointerChar c)
    by_cases hfits : Text.utf8Len (path ++ escapePointerChar c) ≤ maxJsonPointerBytes
    · have hstep : appendPointerChar path c = .ok (path ++ escapePointerChar c) :=
        if_neg (by omega)
      rw [hstep]
      exact ih hfits
    · have hstep : appendPointerChar path c = .error pointerPathLimit := if_pos (by omega)
      rw [hstep, if_neg (by omega)]
      rfl

/-- A segment is appended as a whole, or not at all. -/
theorem appendPointerSegment_eq {path : Text} (hpath : Text.utf8Len path ≤ maxJsonPointerBytes)
    (segment : Text) :
    appendPointerSegment path segment =
      if Text.utf8Len (childPointer path segment) ≤ maxJsonPointerBytes then
        .ok (childPointer path segment, path.length + 1)
      else .error pointerPathLimit := by
  have hchild : childPointer path segment = path ++ ['/'] ++ escapePointerSegment segment := by
    simp [childPointer]
  have hslash : Text.utf8Len (path ++ ['/']) = Text.utf8Len path + 1 := Text.utf8Len_append path ['/']
  have hlonger := Text.utf8Len_append (path ++ ['/']) (escapePointerSegment segment)
  unfold appendPointerSegment
  rw [hchild]
  by_cases hfull : Text.utf8Len path = maxJsonPointerBytes
  · rw [if_pos hfull, if_neg (by omega)]
  · rw [if_neg hfull]
    dsimp only
    rw [foldlM_appendPointerChar (by omega)]
    split
    · simp [Except.map]
    · rfl

/-! ## Visits -/

/-- The state of the path for a child of the value at `path`. -/
def childState (path : Text) (depth : Nat) : ValuePathState :=
  { restorePathLen := path.length, segmentStart := some (path.length + 1), depth := depth + 1 }

section Visit

variable {σ : Type} (observer : JsonWalkObserver σ)

mutual

/-- What an observer meets of a value it is shown. -/
def visitJson (path : Text) (place : ValuePathState) : Json → σ → σ
  | .scalar token, s =>
    let view := walkPath path place
    let started := observer.valueStart s view
    observer.valueEnd (observer.scalar started view token.kind.type
      (if observer.wantsScalarEncodedBytes started then some token.bytes.length else none)
      (if observer.wantsScalarToken started then some token.bytes else none))
  | .array elements _, s =>
    let view := walkPath path place
    let started := observer.arrayStart (observer.valueStart s view) view
    let inside :=
      if observer.shouldDescend started then visitElements path place.depth 0 elements started
      else started
    observer.valueEnd (observer.arrayEnd inside view elements.length)
  | .object members _, s =>
    let view := walkPath path place
    let started := observer.objectStart (observer.valueStart s view) view
    let inside :=
      if observer.shouldDescend started then visitMembers path place.depth members started
      else started
    observer.valueEnd (observer.objectEnd inside view members.keys.length)

def visitElements (path : Text) (depth index : Nat) : Elements → σ → σ
  | .nil, s => s
  | .cons _ value rest, s =>
    let child := childPointer path (indexSegment index)
    visitElements path depth (index + 1) rest (visitJson child (childState path depth) value s)

def visitMembers (path : Text) (depth : Nat) : Members → σ → σ
  | .nil, s => s
  | .cons _ key _ value rest, s =>
    let child := childPointer path key.text
    let view := walkPath child (childState path depth)
    visitMembers path depth rest
      (visitJson child (childState path depth) value (observer.objectKey s view key.text))

end

/-! ## Rules of visits -/

/-- What no report of the walk to an observer breaks. -/
structure Keeps (holds : σ → Prop) : Prop where
  valueStart : ∀ s view, holds s → holds (observer.valueStart s view)
  valueEnd : ∀ s, holds s → holds (observer.valueEnd s)
  scalar : ∀ s view kind encodedBytes token, holds s →
    holds (observer.scalar s view kind encodedBytes token)
  objectStart : ∀ s view, holds s → holds (observer.objectStart s view)
  objectEnd : ∀ s view children, holds s → holds (observer.objectEnd s view children)
  arrayStart : ∀ s view, holds s → holds (observer.arrayStart s view)
  arrayEnd : ∀ s view length, holds s → holds (observer.arrayEnd s view length)
  objectKey : ∀ s view key, holds s → holds (observer.objectKey s view key)

variable {observer} {holds : σ → Prop}

mutual

theorem visitJson_keeps (h : Keeps observer holds) {path : Text} {place : ValuePathState}
    {s : σ} (hs : holds s) : ∀ value : Json, holds (visitJson observer path place value s)
  | .scalar _ => h.valueEnd _ (h.scalar _ _ _ _ _ (h.valueStart _ _ hs))
  | .array elements _ => by
      have hstarted := h.arrayStart _ (walkPath path place) (h.valueStart _ (walkPath path place) hs)
      rw [visitJson]
      refine h.valueEnd _ (h.arrayEnd _ _ _ ?_)
      split
      · exact visitElements_keeps h hstarted elements
      · exact hstarted
  | .object members _ => by
      have hstarted := h.objectStart _ (walkPath path place) (h.valueStart _ (walkPath path place) hs)
      rw [visitJson]
      refine h.valueEnd _ (h.objectEnd _ _ _ ?_)
      split
      · exact visitMembers_keeps h hstarted members
      · exact hstarted

theorem visitElements_keeps (h : Keeps observer holds) {path : Text} {depth index : Nat}
    {s : σ} (hs : holds s) : ∀ elements : Elements,
      holds (visitElements observer path depth index elements s)
  | .nil => hs
  | .cons _ value rest => visitElements_keeps h (visitJson_keeps h hs value) rest

theorem visitMembers_keeps (h : Keeps observer holds) {path : Text} {depth : Nat}
    {s : σ} (hs : holds s) : ∀ members : Members,
      holds (visitMembers observer path depth members s)
  | .nil => hs
  | .cons _ _ _ value rest =>
    visitMembers_keeps h (visitJson_keeps h (h.objectKey _ _ _ hs) value) rest

end

/-- A function takes what one observer does with a report to what the other does. -/
structure Maps {τ : Type} (other : JsonWalkObserver τ) (observer : JsonWalkObserver σ) (f : τ → σ) :
    Prop where
  valueStart : ∀ t view, f (other.valueStart t view) = observer.valueStart (f t) view
  valueEnd : ∀ t, f (other.valueEnd t) = observer.valueEnd (f t)
  scalar : ∀ t view kind encodedBytes token, f (other.scalar t view kind encodedBytes token) =
    observer.scalar (f t) view kind encodedBytes token
  objectStart : ∀ t view, f (other.objectStart t view) = observer.objectStart (f t) view
  objectEnd : ∀ t view children,
    f (other.objectEnd t view children) = observer.objectEnd (f t) view children
  arrayStart : ∀ t view, f (other.arrayStart t view) = observer.arrayStart (f t) view
  arrayEnd : ∀ t view length, f (other.arrayEnd t view length) = observer.arrayEnd (f t) view length
  objectKey : ∀ t view key, f (other.objectKey t view key) = observer.objectKey (f t) view key
  wantsScalarEncodedBytes : ∀ t,
    other.wantsScalarEncodedBytes t = observer.wantsScalarEncodedBytes (f t)
  wantsScalarToken : ∀ t, other.wantsScalarToken t = observer.wantsScalarToken (f t)
  shouldDescend : ∀ t, other.shouldDescend t = observer.shouldDescend (f t)

variable {τ : Type} {other : JsonWalkObserver τ} {f : τ → σ}

mutual

theorem visitJson_maps (h : Maps other observer f) (path : Text) (place : ValuePathState) (t : τ) :
    ∀ value : Json, f (visitJson other path place value t) =
      visitJson observer path place value (f t)
  | .scalar token => by
      rw [visitJson, visitJson]
      simp only [h.valueEnd, h.scalar, h.valueStart, h.wantsScalarEncodedBytes, h.wantsScalarToken]
  | .array elements _ => by
      rw [visitJson, visitJson]
      simp only [h.valueEnd, h.arrayEnd, apply_ite f, visitElements_maps h, h.arrayStart,
        h.valueStart, h.shouldDescend]
  | .object members _ => by
      rw [visitJson, visitJson]
      simp only [h.valueEnd, h.objectEnd, apply_ite f, visitMembers_maps h, h.objectStart,
        h.valueStart, h.shouldDescend]

theorem visitElements_maps (h : Maps other observer f) (path : Text) (depth index : Nat) (t : τ) :
    ∀ elements : Elements, f (visitElements other path depth index elements t) =
      visitElements observer path depth index elements (f t)
  | .nil => rfl
  | .cons _ value rest => by
      rw [visitElements, visitElements, visitElements_maps h, visitJson_maps h]

theorem visitMembers_maps (h : Maps other observer f) (path : Text) (depth : Nat) (t : τ) :
    ∀ members : Members, f (visitMembers other path depth members t) =
      visitMembers observer path depth members (f t)
  | .nil => rfl
  | .cons _ key _ value rest => by
      rw [visitMembers, visitMembers, visitMembers_maps h, visitJson_maps h, h.objectKey]

end

end Visit

/-! ## Limits -/

mutual

/-- The limit that the walk over a value meets first. -/
def jsonLimit (path : Text) (depth : Nat) : Json → Option ControlError
  | .scalar _ => none
  | .array elements _ =>
    if depth + 1 ≤ maxJsonDepth then elementsLimit path depth 0 elements else some depthLimit
  | .object members _ =>
    if depth + 1 ≤ maxJsonDepth then membersLimit path depth members else some depthLimit

def elementsLimit (path : Text) (depth index : Nat) : Elements → Option ControlError
  | .nil => none
  | .cons _ value rest =>
    let child := childPointer path (indexSegment index)
    if Text.utf8Len child ≤ maxJsonPointerBytes then
      (jsonLimit child (depth + 1) value).or (elementsLimit path depth (index + 1) rest)
    else some pointerPathLimit

def membersLimit (path : Text) (depth : Nat) : Members → Option ControlError
  | .nil => none
  | .cons _ key _ value rest =>
    let child := childPointer path key.text
    if Text.utf8Len child ≤ maxJsonPointerBytes then
      (jsonLimit child (depth + 1) value).or (membersLimit path depth rest)
    else some pointerPathLimit

end

/-! ## The walk over a value -/

section Walk

variable {σ : Type} (observer : JsonWalkObserver σ)

theorem sourceTokenStart_eq {input lead token more : Bytes} {offset : Nat}
    (hinput : input.drop offset = lead ++ (token ++ more))
    (htoken : (lead ++ (token ++ [])).takeWhile isSeparator = lead) :
    sourceTokenStart input offset (offset + (lead ++ token).length) = offset + lead.length := by
  have hconsumed : (input.drop offset).take (lead ++ token).length = lead ++ token := by
    rw [hinput, ← List.append_assoc]
    exact List.take_left
  unfold sourceTokenStart
  rw [Nat.add_sub_cancel_left, hconsumed]
  rw [List.append_nil] at htoken
  rw [htoken]

theorem token_eq {input lead token more : Bytes} {offset : Nat}
    (hinput : input.drop offset = lead ++ (token ++ more)) :
    (input.drop (offset + lead.length)).take token.length = token := by
  rw [← List.drop_drop, hinput, List.drop_left, List.take_left]

/-- The walk after a value that was not too deep. -/
def afterValue (state : WalkState σ) (place : ValuePathState) (value : Json) : WalkState σ :=
  { state with
    observer :=
      if state.descends then visitJson observer state.path place value state.observer
      else state.observer
    path := state.path.take place.restorePathLen }

variable {observer}

theorem walkEvents_cons {input : Bytes} {offset : Nat} {state : WalkState σ} {chunk : Chunk}
    (hevent : chunk.event ≠ .eof) (rest : List ParserResult) :
    walkEvents observer input offset state (Chunk.result chunk :: rest) =
      match walkEvent observer input offset (offset + chunk.bytes.length) state chunk.event with
      | .error error => .error error
      | .ok state => walkEvents observer input (offset + chunk.bytes.length) state rest := by
  obtain ⟨lead, token, event⟩ := chunk
  cases event with
  | eof => exact absurd rfl hevent
  | _ => rfl

theorem walkEvents_ok {input : Bytes} {offset : Nat} {state state' : WalkState σ} {chunk : Chunk}
    (hevent : chunk.event ≠ .eof) (rest : List ParserResult)
    (h : walkEvent observer input offset (offset + chunk.bytes.length) state chunk.event = .ok state') :
    walkEvents observer input offset state (Chunk.result chunk :: rest) =
      walkEvents observer input (offset + chunk.bytes.length) state' rest := by
  rw [walkEvents_cons hevent, h]

theorem walkEvents_error {input : Bytes} {offset : Nat} {state : WalkState σ} {chunk : Chunk}
    {error : ControlError} (hevent : chunk.event ≠ .eof) (rest : List ParserResult)
    (h : walkEvent observer input offset (offset + chunk.bytes.length) state chunk.event =
      .error error) :
    walkEvents observer input offset state (Chunk.result chunk :: rest) = .error error := by
  rw [walkEvents_cons hevent, h]

theorem ScalarKind.event_ne_eof (kind : ScalarKind) : kind.event ≠ .eof := by
  cases kind <;> exact fun h => by cases h

theorem walkEvent_scalar (input : Bytes) (start stop : Nat) (state : WalkState σ)
    (kind : ScalarKind) :
    walkEvent observer input start stop state kind.event =
      scalarEvent observer input start stop kind.type state := by
  cases kind <;> rfl

theorem scalarEvent_eq {input lead more : Bytes} {token : ScalarToken} {offset : Nat}
    {state state' : WalkState σ} {place : ValuePathState}
    (hlead : ∀ b ∈ lead, isSeparator b = true)
    (hprepare : prepareValuePath state = .ok (place, state'))
    (hinput : input.drop offset = lead ++ (token.bytes ++ more)) :
    scalarEvent observer input offset (offset + (lead ++ token.bytes).length) token.kind.type state =
      .ok (afterValue observer state' place (.scalar token)) := by
  have hstart := sourceTokenStart_eq hinput (token.takeWhile_separators hlead [])
  have hlength : offset + (lead ++ token.bytes).length - (offset + lead.length) =
      token.bytes.length := by
    rw [List.length_append]
    omega
  simp only [scalarEvent, hprepare, bind, Except.bind, hstart, hlength, token_eq hinput]
  rfl

/-- Where the walk stands after a value, unless a limit was passed. -/
def afterLimit (limit : Option ControlError) (next : Except ControlError σ) : Except ControlError σ :=
  match limit with
  | some error => .error error
  | none => next

theorem walk_error {input : Bytes} {offset : Nat} {state : WalkState σ} {error : ControlError}
    (hprepare : prepareValuePath state = .error error) (value : Json) (lead : Bytes)
    (rest : List ParserResult) :
    walkEvents observer input offset state ((value.chunks lead).map Chunk.result ++ rest) =
      .error error := by
  cases value with
  | scalar token =>
    apply walkEvents_error (ScalarKind.event_ne_eof token.kind)
    dsimp only
    rw [walkEvent_scalar]
    unfold scalarEvent
    rw [hprepare]
    rfl
  | array elements close =>
    apply walkEvents_error (fun h => by cases h)
    show startContainer _ _ _ _ = _
    unfold startContainer
    rw [hprepare]
    rfl
  | object members close =>
    apply walkEvents_error (fun h => by cases h)
    show startContainer _ _ _ _ = _
    unfold startContainer
    rw [hprepare]
    rfl

theorem startContainer_eq {report : σ → WalkPath → σ} {kind : ContainerKind}
    {state state' : WalkState σ} {place : ValuePathState}
    (hprepare : prepareValuePath state = .ok (place, state'))
    (hdepth : state'.frames.length = place.depth) :
    startContainer observer report kind state =
      if place.depth + 1 ≤ maxJsonDepth then
        let shown :=
          if state'.descends then
            report (observer.valueStart state'.observer (walkPath state'.path place))
              (walkPath state'.path place)
          else state'.observer
        .ok { state' with
          observer := shown
          frames :=
            { kind, value := place, observed := state'.descends
              descend := state'.descends && observer.shouldDescend shown } :: state'.frames }
      else .error depthLimit := by
  unfold startContainer checkDepth
  rw [hprepare, ← hdepth]
  show (if _ then Except.ok () else Except.error _).bind _ = _
  split <;> rfl

mutual

theorem walk_value {input : Bytes} {offset : Nat} {state state' : WalkState σ}
    {place : ValuePathState} {lead more : Bytes} (rest : List ParserResult) :
    ∀ value : Json, (∀ b ∈ lead, isSeparator b = true) →
      prepareValuePath state = .ok (place, state') →
      Text.utf8Len state'.path ≤ maxJsonPointerBytes → state'.frames.length = place.depth →
      input.drop offset = textOf (value.chunks lead) ++ more →
      walkEvents observer input offset state ((value.chunks lead).map Chunk.result ++ rest) =
        afterLimit (jsonLimit state'.path place.depth value)
          (walkEvents observer input (offset + (textOf (value.chunks lead)).length)
            (afterValue observer state' place value) rest)
  | .scalar token, hlead, hprepare, hpath, hdepth, hinput => by
      have hinput' : input.drop offset = lead ++ (token.bytes ++ more) := by
        rw [hinput, Json.chunks, textOf_cons, textOf_nil, List.append_nil, Chunk.bytes,
          List.append_assoc]
      have hevent : walkEvent observer input offset (offset + (lead ++ token.bytes).length) state
          token.kind.event = .ok (afterValue observer state' place (.scalar token)) := by
        rw [walkEvent_scalar]
        exact scalarEvent_eq hlead hprepare hinput'
      rw [Json.chunks, textOf_cons, textOf_nil, List.append_nil]
      exact walkEvents_ok (ScalarKind.event_ne_eof token.kind) rest hevent
  | .array elements close, hlead, hprepare, hpath, hdepth, hinput => by
      let start : Chunk := ⟨lead, [0x5B], .startArray⟩
      let stop : Chunk := ⟨close.bytes, [0x5D], .endArray⟩
      have hstart : walkEvent observer input offset (offset + start.bytes.length) state
          start.event = _ := startContainer_eq hprepare hdepth
      have htext : textOf ((Json.array elements close).chunks lead) =
          start.bytes ++ (textOf (elements.chunks true) ++ stop.bytes) := by
        rw [Json.chunks, textOf_cons, textOf_append, textOf_cons, textOf_nil, List.append_nil]
      have hresults : ((Json.array elements close).chunks lead).map Chunk.result ++ rest =
          Chunk.result start ::
            ((elements.chunks true).map Chunk.result ++ Chunk.result stop :: rest) := by
        simp [Json.chunks, start, stop]
      have hinside : input.drop (offset + start.bytes.length) =
          textOf (elements.chunks true) ++ (stop.bytes ++ more) := by
        rw [← List.drop_drop, hinput, htext, List.append_assoc, List.drop_left, List.append_assoc]
      rw [hresults, htext, jsonLimit]
      by_cases hdeep : place.depth + 1 ≤ maxJsonDepth
      · rw [if_pos hdeep] at hstart ⊢
        rw [walkEvents_ok (fun h => by cases h) _ hstart]
        refine Eq.trans (walk_elements (Chunk.result stop :: rest) elements true 0 _ _ hpath hdepth
          hinside) ?_
        congr 1
        refine Eq.trans (walkEvents_ok (fun h => by cases h) rest rfl) ?_
        refine congrArg₂ (fun offset state => walkEvents observer input offset state rest) ?_ ?_
        · simp only [List.length_append, Nat.add_assoc, stop]
        · unfold afterValue
          rw [visitJson]
          cases hdescends : state'.descends <;> simp
      · rw [if_neg hdeep] at hstart ⊢
        exact walkEvents_error (fun h => by cases h) _ hstart
  | .object members close, hlead, hprepare, hpath, hdepth, hinput => by
      let start : Chunk := ⟨lead, [0x7B], .startObject⟩
      let stop : Chunk := ⟨close.bytes, [0x7D], .endObject⟩
      have hstart : walkEvent observer input offset (offset + start.bytes.length) state
          start.event = _ := startContainer_eq hprepare hdepth
      have htext : textOf ((Json.object members close).chunks lead) =
          start.bytes ++ (textOf (members.chunks true) ++ stop.bytes) := by
        rw [Json.chunks, textOf_cons, textOf_append, textOf_cons, textOf_nil, List.append_nil]
      have hresults : ((Json.object members close).chunks lead).map Chunk.result ++ rest =
          Chunk.result start ::
            ((members.chunks true).map Chunk.result ++ Chunk.result stop :: rest) := by
        simp [Json.chunks, start, stop]
      have hinside : input.drop (offset + start.bytes.length) =
          textOf (members.chunks true) ++ (stop.bytes ++ more) := by
        rw [← List.drop_drop, hinput, htext, List.append_assoc, List.drop_left, List.append_assoc]
      rw [hresults, htext, jsonLimit]
      by_cases hdeep : place.depth + 1 ≤ maxJsonDepth
      · rw [if_pos hdeep] at hstart ⊢
        rw [walkEvents_ok (fun h => by cases h) _ hstart]
        refine Eq.trans (walk_members (Chunk.result stop :: rest) members true 0 _ _ hpath hdepth
          hinside) ?_
        congr 1
        refine Eq.trans (walkEvents_ok (fun h => by cases h) rest rfl) ?_
        refine congrArg₂ (fun offset state => walkEvents observer input offset state rest) ?_ ?_
        · simp only [List.length_append, Nat.add_assoc, stop]
        · unfold afterValue
          rw [visitJson]
          cases hdescends : state'.descends <;> simp
      · rw [if_neg hdeep] at hstart ⊢
        exact walkEvents_error (fun h => by cases h) _ hstart

theorem walk_elements {input : Bytes} {path : Text} {value : ValuePathState}
    {observed descend rootSeen : Bool} {frames : List ContainerFrame} {more : Bytes}
    (rest : List ParserResult) :
    ∀ (elements : Elements) (first : Bool) (index offset : Nat) (s : σ),
      Text.utf8Len path ≤ maxJsonPointerBytes → frames.length = value.depth →
      input.drop offset = textOf (elements.chunks first) ++ more →
      walkEvents observer input offset
          { observer := s, path, rootSeen
            frames := { kind := .array index, value, observed, descend } :: frames }
          ((elements.chunks first).map Chunk.result ++ rest) =
        afterLimit (elementsLimit path value.depth index elements)
          (walkEvents observer input (offset + (textOf (elements.chunks first)).length)
            { observer :=
                if descend then visitElements observer path value.depth index elements s else s
              path, rootSeen
              frames := { kind := .array (index + elements.length), value, observed, descend } ::
                frames } rest)
  | .nil, first, index, offset, s, hpath, hdepth, hinput => by
      simp [Elements.chunks, elementsLimit, afterLimit, visitElements, Elements.length]
  | .cons gap element others, first, index, offset, s, hpath, hdepth, hinput => by
      have htext : textOf ((Elements.cons gap element others).chunks first) =
          textOf (element.chunks (gap.separator first)) ++ textOf (others.chunks false) := by
        rw [Elements.chunks, textOf_append]
      have hresults : ((Elements.cons gap element others).chunks first).map Chunk.result ++ rest =
          (element.chunks (gap.separator first)).map Chunk.result ++
            ((others.chunks false).map Chunk.result ++ rest) := by
        rw [Elements.chunks, List.map_append, List.append_assoc]
      have happend := appendPointerSegment_eq hpath (indexSegment index)
      rw [hresults, htext, elementsLimit]
      by_cases hfits : Text.utf8Len (childPointer path (indexSegment index)) ≤ maxJsonPointerBytes
      · rw [if_pos hfits] at happend ⊢
        have hprepare : prepareValuePath (σ := σ)
            { observer := s, path, rootSeen
              frames := { kind := .array index, value, observed, descend } :: frames } =
            .ok (childState path value.depth,
              { observer := s, path := childPointer path (indexSegment index), rootSeen
                frames := { kind := .array (index + 1), value, observed, descend } :: frames }) := by
          simp only [prepareValuePath, happend]
          rfl
        have hrest : input.drop (offset + (textOf (element.chunks (gap.separator first))).length) =
            textOf (others.chunks false) ++ more := by
          rw [← List.drop_drop, hinput, htext, List.append_assoc, List.drop_left]
        refine Eq.trans (walk_value _ element (gap.separators first) hprepare hfits
          (congrArg Nat.succ hdepth) (by rw [hinput, htext, List.append_assoc])) ?_
        have hplace : (childState path value.depth).depth = value.depth + 1 := rfl
        have hafter : afterValue observer
            { observer := s, path := childPointer path (indexSegment index), rootSeen
              frames := { kind := .array (index + 1), value, observed, descend } :: frames }
            (childState path value.depth) element =
            { observer :=
                if descend then
                  visitJson observer (childPointer path (indexSegment index))
                    (childState path value.depth) element s
                else s
              path, rootSeen
              frames := { kind := .array (index + 1), value, observed, descend } :: frames } := by
          cases descend <;> simp [afterValue, WalkState.descends, childPointer, childState]
        rw [hafter, hplace]
        cases jsonLimit (childPointer path (indexSegment index)) (value.depth + 1) element with
        | some error => rfl
        | none =>
          refine Eq.trans (walk_elements rest others false (index + 1) _ _ hpath hdepth hrest) ?_
          rw [Option.none_or]
          congr 1
          refine congrArg₂ (fun offset state => walkEvents observer input offset state rest) ?_ ?_
          · rw [List.length_append, Nat.add_assoc]
          · rw [Elements.length, visitElements, Nat.add_assoc, Nat.add_comm 1]
            cases descend <;> rfl
      · rw [if_neg hfits] at happend ⊢
        refine walk_error ?_ element _ _
        simp only [prepareValuePath, happend]
        rfl

theorem walk_members {input : Bytes} {path : Text} {value : ValuePathState}
    {observed descend rootSeen : Bool} {frames : List ContainerFrame} {more : Bytes}
    (rest : List ParserResult) :
    ∀ (members : Members) (first : Bool) (count offset : Nat) (s : σ),
      Text.utf8Len path ≤ maxJsonPointerBytes → frames.length = value.depth →
      input.drop offset = textOf (members.chunks first) ++ more →
      walkEvents observer input offset
          { observer := s, path, rootSeen
            frames := { kind := .object count none, value, observed, descend } :: frames }
          ((members.chunks first).map Chunk.result ++ rest) =
        afterLimit (membersLimit path value.depth members)
          (walkEvents observer input (offset + (textOf (members.chunks first)).length)
            { observer :=
                if descend then visitMembers observer path value.depth members s else s
              path, rootSeen
              frames := { kind := .object (count + members.keys.length) none, value, observed, descend } ::
                frames } rest)
  | .nil, first, count, offset, s, hpath, hdepth, hinput => by
      simp [Members.chunks, membersLimit, afterLimit, visitMembers, Members.keys]
  | .cons gap key colon member others, first, count, offset, s, hpath, hdepth, hinput => by
      let chunk : Chunk := ⟨gap.separator first, key.bytes, .objectKey key.text⟩
      have htext : textOf ((Members.cons gap key colon member others).chunks first) =
          chunk.bytes ++ (textOf (member.chunks colon.colon) ++ textOf (others.chunks false)) := by
        rw [Members.chunks, textOf_cons, textOf_append]
      have hresults :
          ((Members.cons gap key colon member others).chunks first).map Chunk.result ++ rest =
            Chunk.result chunk :: ((member.chunks colon.colon).map Chunk.result ++
              ((others.chunks false).map Chunk.result ++ rest)) := by
        rw [Members.chunks, List.map_cons, List.map_append, List.cons_append, List.append_assoc]
      have happend := appendPointerSegment_eq hpath key.text
      rw [hresults, htext, membersLimit]
      by_cases hfits : Text.utf8Len (childPointer path key.text) ≤ maxJsonPointerBytes
      · rw [if_pos hfits] at happend ⊢
        let place := childState path value.depth
        let keyed := if descend then
          observer.objectKey s (walkPath (childPointer path key.text) place) key.text else s
        have hkey : walkEvent observer input offset (offset + chunk.bytes.length)
            { observer := s, path, rootSeen
              frames := { kind := .object count none, value, observed, descend } :: frames }
            chunk.event =
            .ok
              { observer := keyed, path := childPointer path key.text, rootSeen
                frames :=
                  { kind := .object (count + 1) (some place), value, observed, descend } :: frames } := by
          simp only [chunk, walkEvent, objectKeyEvent, happend]
          rfl
        have hvalue : input.drop (offset + chunk.bytes.length) =
            textOf (member.chunks colon.colon) ++ (textOf (others.chunks false) ++ more) := by
          rw [← List.drop_drop, hinput, htext, List.append_assoc, List.drop_left, List.append_assoc]
        have hrest : input.drop (offset + chunk.bytes.length +
            (textOf (member.chunks colon.colon)).length) = textOf (others.chunks false) ++ more := by
          rw [← List.drop_drop, hvalue, List.drop_left]
        rw [walkEvents_ok (fun h => by cases h) _ hkey]
        refine Eq.trans (walk_value _ member colon.colon_separators rfl hfits
          (congrArg Nat.succ hdepth) hvalue) ?_
        have hafter : afterValue observer
            { observer := keyed, path := childPointer path key.text, rootSeen
              frames := { kind := .object (count + 1) none, value, observed, descend } :: frames }
            place member =
            { observer :=
                if descend then visitJson observer (childPointer path key.text) place member keyed
                else s
              path, rootSeen
              frames := { kind := .object (count + 1) none, value, observed, descend } :: frames } := by
          cases descend <;> simp [afterValue, WalkState.descends, childPointer, childState, place, keyed]
        have hplace : place.depth = value.depth + 1 := rfl
        rw [hafter, hplace]
        cases jsonLimit (childPointer path key.text) (value.depth + 1) member with
        | some error => rfl
        | none =>
          refine Eq.trans (walk_members rest others false (count + 1) _ _ hpath hdepth hrest) ?_
          rw [Option.none_or]
          congr 1
          refine congrArg₂ (fun offset state => walkEvents observer input offset state rest) ?_ ?_
          · rw [List.length_append, List.length_append, Nat.add_assoc, Nat.add_assoc]
          · rw [Members.keys, List.length_cons, visitMembers, Nat.add_assoc, Nat.add_comm 1]
            cases descend <;> rfl
      · rw [if_neg hfits] at happend ⊢
        refine walkEvents_error (fun h => by cases h) _ ?_
        simp only [chunk, walkEvent, objectKeyEvent, happend]
        rfl

end

/-! ## The walk over a document -/

def rootState : ValuePathState := { restorePathLen := 0, segmentStart := none, depth := 0 }

theorem walkJson_eq {parser : JsonEventParser} {input : Bytes} {document : JsonDocument}
    (hparses : Parses parser input document) (start : σ) :
    walkJson observer parser input start =
      match validateJsonInput input with
      | .error error => .error error
      | .ok () =>
        afterLimit (jsonLimit [] 0 document.root)
          (.ok (visitJson observer [] rootState document.root start)) := by
  unfold walkJson
  cases validateJsonInput input with
  | error error => rfl
  | ok _ =>
    dsimp only
    have hinput : input.drop 0 =
        textOf (document.root.chunks document.before.bytes) ++ document.after.bytes := by
      rw [hparses.text, List.drop_zero, JsonDocument.text, JsonDocument.chunks, textOf_append,
        textOf_cons, textOf_nil, List.append_nil, Chunk.bytes, List.append_nil]
    rw [hparses.events, JsonDocument.chunks, List.map_append]
    have hprepare : prepareValuePath { observer := start } =
        .ok (rootState, { observer := start, rootSeen := true }) := rfl
    exact walk_value _ document.root document.before.separators hprepare (Nat.zero_le _) rfl hinput

end Walk

end Fluxcope.Control
