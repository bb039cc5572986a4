import Fluxcope.Control.ExtractJson
import Fluxcope.Control.JsonWalkSpec
/-!
# What is extracted

The selector writes the compact text of the first value with the wanted pointer, and
nothing else.  Its notes for a miss have no part in that.
-/

namespace Fluxcope.Control

open Fluxcope.Library Fluxcope.Library.Utf8

/-! ## Compact texts -/

theorem textOf_chunks (lead : Bytes) (value : Json) :
    textOf (value.chunks lead) = lead ++ value.text := by
  unfold Json.text
  cases value <;> simp [Json.chunks, Chunk.bytes]

namespace JsonSelector

/-! ## Appending -/

theorem appendLoop_eq {fuel : Nat} {bytes : Bytes} {selector : JsonSelector}
    (hfuel : bytes.length ≤ fuel) (herror : selector.error = none)
    (hsize : selector.output.length + bytes.length ≤ maxJsonInputBytes) :
    appendLoop fuel bytes selector = { selector with output := selector.output ++ bytes } := by
  induction fuel generalizing bytes selector with
  | zero =>
    obtain rfl := List.length_eq_zero_iff.1 (Nat.le_zero.1 hfuel)
    simp [appendLoop]
  | succ fuel ih =>
    unfold appendLoop
    by_cases hnil : bytes = []
    · rw [if_pos hnil, hnil, List.append_nil]
    · have hsplit : bytes.take (32 * 1024) ++ bytes.drop (32 * 1024) = bytes :=
        List.take_append_drop ..
      have hlength := congrArg List.length hsplit
      rw [List.length_append] at hlength
      have hpos : 0 < (bytes.take (32 * 1024)).length := by
        have hbytes := List.length_pos_of_ne_nil hnil
        rw [List.length_take]
        omega
      have hchunk : selector.appendChunk (bytes.take (32 * 1024)) =
          { selector with output := selector.output ++ bytes.take (32 * 1024) } := by
        unfold appendChunk
        rw [herror, Option.isSome_none, if_neg Bool.false_ne_true, if_neg (by omega)]
      rw [if_neg hnil, hchunk]
      refine Eq.trans (ih (by omega) herror ?_) ?_
      · rw [List.length_append]
        omega
      · dsimp only
        rw [List.append_assoc, hsplit]

theorem append_eq (bytes : Bytes) {selector : JsonSelector} (herror : selector.error = none)
    (hsize : selector.output.length + bytes.length ≤ maxJsonInputBytes) :
    selector.append bytes = { selector with output := selector.output ++ bytes } :=
  appendLoop_eq le_rfl herror hsize

/-! ## Notes -/

/-- The selectors differ in their notes at most. -/
structure SameSelection (s t : JsonSelector) : Prop where
  output : t.output = s.output
  containers : t.containers = s.containers
  capturing : t.capturing = s.capturing
  selected : t.selected = s.selected
  error : t.error = s.error

theorem SameSelection.refl (s : JsonSelector) : SameSelection s s := ⟨rfl, rfl, rfl, rfl, rfl⟩

theorem sameSelection_noteValue (target : JsonPointer) (s : JsonSelector) (path : WalkPath)
    (kind : JsonType) : SameSelection s (s.noteValue target path kind) := by
  unfold noteValue
  dsimp only
  split
  · split
    · exact ⟨rfl, rfl, rfl, rfl, rfl⟩
    · exact .refl s
  · split
    · exact .refl s
    · split
      · exact .refl s
      · split <;> exact ⟨rfl, rfl, rfl, rfl, rfl⟩

/-! ## Writing while capturing -/

/-- A capturing selector has written some bytes more. -/
structure Wrote (s t : JsonSelector) (containers : List SelectedContainer) (bytes : Bytes) :
    Prop where
  output : t.output = s.output ++ bytes
  containers : t.containers = containers
  capturing : t.capturing = true
  selected : t.selected = s.selected
  error : t.error = none

theorem Wrote.trans {s t u : JsonSelector} {containers containers' : List SelectedContainer}
    {bytes more : Bytes} (h : Wrote s t containers bytes) (h' : Wrote t u containers' more) :
    Wrote s u containers' (bytes ++ more) :=
  ⟨by rw [h'.output, h.output, List.append_assoc], h'.containers, h'.capturing,
    h'.selected.trans h.selected, h'.error⟩

theorem wrote_append {s : JsonSelector} (bytes : Bytes) (hcapturing : s.capturing = true)
    (herror : s.error = none) (hsize : s.output.length + bytes.length ≤ maxJsonInputBytes) :
    Wrote s (s.append bytes) s.containers bytes := by
  rw [append_eq bytes herror hsize]
  exact ⟨rfl, rfl, hcapturing, rfl, herror⟩

theorem wrote_beginArray (target : JsonPointer) {s : JsonSelector} {path : WalkPath} {first : Bool}
    {containers : List SelectedContainer} (hcapturing : s.capturing = true) (herror : s.error = none)
    (hcontainers : s.containers = .array first :: containers)
    (hsize : s.output.length + (({} : Gap).separator first).length ≤ maxJsonInputBytes) :
    Wrote s (s.beginValue target path) (.array false :: containers) (({} : Gap).separator first) := by
  have hbegin : s.beginValue target path =
      { s with containers := .array false :: containers }.append (({} : Gap).separator first) := by
    cases s
    obtain rfl := hcapturing
    obtain rfl := hcontainers
    cases first <;> rfl
  rw [hbegin, append_eq _ (by exact herror) (by exact hsize)]
  exact ⟨rfl, rfl, hcapturing, rfl, herror⟩

theorem beginValue_object (target : JsonPointer) {s : JsonSelector} {path : WalkPath} {first : Bool}
    {containers : List SelectedContainer} (hcapturing : s.capturing = true)
    (hcontainers : s.containers = .object first :: containers) : s.beginValue target path = s := by
  unfold beginValue
  rw [hcapturing, hcontainers]
  rfl

theorem finishValue_inside {s : JsonSelector} (hcontainers : s.containers ≠ []) :
    s.finishValue = s := by
  unfold finishValue
  rw [if_neg]
  simp [hcontainers]

theorem wrote_objectKey {s : JsonSelector} {first : Bool} {containers : List SelectedContainer}
    {key : KeyToken} (hcapturing : s.capturing = true) (herror : s.error = none)
    (hcontainers : s.containers = .object first :: containers)
    (hsize : s.output.length + (({} : Gap).separator first ++
      (key.compact.bytes ++ [0x3A])).length ≤ maxJsonInputBytes) :
    Wrote s (s.objectKey key.text) (.object false :: containers)
      (({} : Gap).separator first ++ (key.compact.bytes ++ [0x3A])) := by
  rw [List.length_append, List.length_append] at hsize
  let opened : JsonSelector := { s with containers := .object false :: containers }
  have hkey : s.objectKey key.text = ((opened.append (({} : Gap).separator first)).append
      key.compact.bytes).append [0x3A] := by
    cases s
    obtain rfl := hcapturing
    obtain rfl := hcontainers
    cases first <;> rfl
  have hsep : Wrote s (opened.append (({} : Gap).separator first)) (.object false :: containers)
      (({} : Gap).separator first) := by
    rw [append_eq _ (by exact herror) (by show s.output.length + _ ≤ _; omega)]
    exact ⟨rfl, rfl, hcapturing, rfl, herror⟩
  have hbytes := wrote_append key.compact.bytes hsep.capturing hsep.error (by
    rw [hsep.output, List.length_append]
    omega)
  have hcolon := wrote_append [0x3A] hbytes.capturing hbytes.error (by
    rw [hbytes.output, hsep.output, List.length_append, List.length_append]
    omega)
  rw [hbytes.containers, hsep.containers] at hcolon
  rw [hsep.containers] at hbytes
  rw [hkey]
  exact hsep.trans (hbytes.trans hcolon)

/-! ### A value -/

/-- A visit without its first and its last step. -/
def body (target : JsonPointer) (path : Text) (place : ValuePathState) :
    Json → JsonSelector → JsonSelector
  | .scalar token, s => s.scalar target (walkPath path place) token.kind.type (some token.bytes)
  | .array elements _, s =>
    let started := s.arrayStart target (walkPath path place)
    (if started.error.isNone then
      visitElements (observer target) path place.depth 0 elements started
    else started).arrayEnd
  | .object members _, s =>
    let started := s.objectStart target (walkPath path place)
    (if started.error.isNone then
      visitMembers (observer target) path place.depth members started
    else started).objectEnd

theorem visitJson_eq (target : JsonPointer) (path : Text) (place : ValuePathState) (value : Json)
    (s : JsonSelector) :
    visitJson (observer target) path place value s =
      (body target path place value (s.beginValue target (walkPath path place))).finishValue := by
  cases value <;> rfl

theorem wrote_start {s : JsonSelector} (target : JsonPointer) (path : WalkPath) (kind : JsonType)
    (container : SelectedContainer) (bracket : Bytes) (hcapturing : s.capturing = true)
    (herror : s.error = none)
    (hsize : s.output.length + bracket.length ≤ maxJsonInputBytes) :
    let noted := s.noteValue target path kind
    Wrote s { noted.append bracket with containers := container :: (noted.append bracket).containers }
      (container :: s.containers) bracket := by
  have hsame := sameSelection_noteValue target s path kind
  intro noted
  have happend := wrote_append (s := noted) bracket (hsame.capturing.trans hcapturing)
    (hsame.error.trans herror) (by rw [hsame.output]; exact hsize)
  refine ⟨happend.output.trans (by rw [hsame.output]), ?_, happend.capturing,
    happend.selected.trans hsame.selected, happend.error⟩
  rw [happend.containers, hsame.containers]

theorem wrote_arrayStart {s : JsonSelector} (target : JsonPointer) (path : WalkPath)
    (hcapturing : s.capturing = true) (herror : s.error = none)
    (hsize : s.output.length + 1 ≤ maxJsonInputBytes) :
    Wrote s (s.arrayStart target path) (.array true :: s.containers) [0x5B] := by
  have hstart := wrote_start target path .array (.array true) [0x5B] hcapturing herror hsize
  unfold arrayStart
  dsimp only
  rw [(sameSelection_noteValue target s path .array).capturing, hcapturing, if_pos rfl]
  exact hstart

theorem wrote_objectStart {s : JsonSelector} (target : JsonPointer) (path : WalkPath)
    (hcapturing : s.capturing = true) (herror : s.error = none)
    (hsize : s.output.length + 1 ≤ maxJsonInputBytes) :
    Wrote s (s.objectStart target path) (.object true :: s.containers) [0x7B] := by
  have hstart := wrote_start target path .object (.object true) [0x7B] hcapturing herror hsize
  unfold objectStart
  dsimp only
  rw [(sameSelection_noteValue target s path .object).capturing, hcapturing, if_pos rfl]
  exact hstart

theorem wrote_arrayEnd {s : JsonSelector} {first : Bool} {containers : List SelectedContainer}
    (hcapturing : s.capturing = true) (herror : s.error = none)
    (hcontainers : s.containers = .array first :: containers)
    (hsize : s.output.length + 1 ≤ maxJsonInputBytes) :
    Wrote s s.arrayEnd containers [0x5D] := by
  unfold arrayEnd
  rw [hcapturing, hcontainers]
  dsimp only
  rw [append_eq [0x5D] herror hsize, hcontainers]
  exact ⟨rfl, rfl, hcapturing, rfl, herror⟩

theorem wrote_objectEnd {s : JsonSelector} {first : Bool} {containers : List SelectedContainer}
    (hcapturing : s.capturing = true) (herror : s.error = none)
    (hcontainers : s.containers = .object first :: containers)
    (hsize : s.output.length + 1 ≤ maxJsonInputBytes) :
    Wrote s s.objectEnd containers [0x7D] := by
  unfold objectEnd
  rw [hcapturing, hcontainers]
  dsimp only
  rw [append_eq [0x7D] herror hsize, hcontainers]
  exact ⟨rfl, rfl, hcapturing, rfl, herror⟩

theorem text_compact_array (elements : Elements) (close : Blank) :
    (Json.array elements close).compact.text =
      [0x5B] ++ (textOf (elements.compact.chunks true) ++ [0x5D]) := by
  simp [Json.compact, Json.text, Json.chunks, Chunk.bytes]

theorem text_compact_object (members : Members) (close : Blank) :
    (Json.object members close).compact.text =
      [0x7B] ++ (textOf (members.compact.chunks true) ++ [0x7D]) := by
  simp [Json.compact, Json.text, Json.chunks, Chunk.bytes]

mutual

/-- A capturing selector writes the compact text of what it visits. -/
theorem wrote_body (target : JsonPointer) {path : Text} {place : ValuePathState} :
    ∀ (value : Json) {s : JsonSelector}, s.capturing = true → s.error = none →
      s.output.length + value.compact.text.length ≤ maxJsonInputBytes →
      Wrote s (body target path place value s) s.containers value.compact.text
  | .scalar token, s, hcapturing, herror, hsize => by
      have htext : (Json.scalar token).compact.text = token.bytes := by
        simp [Json.compact, Json.text, Json.chunks, Chunk.bytes]
      rw [htext] at hsize ⊢
      have hsame := sameSelection_noteValue target s (walkPath path place) token.kind.type
      have happend := wrote_append token.bytes (hsame.capturing.trans hcapturing)
        (hsame.error.trans herror) (by rw [hsame.output]; exact hsize)
      unfold body scalar
      dsimp only
      rw [hsame.capturing, hcapturing, if_pos rfl]
      exact ⟨happend.output.trans (by rw [hsame.output]), happend.containers.trans hsame.containers,
        happend.capturing, happend.selected.trans hsame.selected, happend.error⟩
  | .array elements close, s, hcapturing, herror, hsize => by
      rw [text_compact_array] at hsize ⊢
      rw [List.length_append, List.length_append] at hsize
      have hstart := wrote_arrayStart target (walkPath path place) hcapturing herror (by
        simp only [List.length_singleton] at hsize
        omega)
      unfold body
      dsimp only
      rw [hstart.error]
      obtain ⟨first, hinside⟩ := @wrote_elements target path place.depth 0 elements
        _ _ _ hstart.capturing hstart.error hstart.containers (by
          rw [hstart.output, List.length_append]
          omega)
      have hend := wrote_arrayEnd hinside.capturing hinside.error hinside.containers (by
        rw [hinside.output, hstart.output, List.length_append, List.length_append]
        simp only [List.length_singleton] at hsize ⊢
        omega)
      exact hstart.trans (hinside.trans hend)
  | .object members close, s, hcapturing, herror, hsize => by
      rw [text_compact_object] at hsize ⊢
      rw [List.length_append, List.length_append] at hsize
      have hstart := wrote_objectStart target (walkPath path place) hcapturing herror (by
        simp only [List.length_singleton] at hsize
        omega)
      unfold body
      dsimp only
      rw [hstart.error]
      obtain ⟨first, hinside⟩ := @wrote_members target path place.depth members _ _ _
        hstart.capturing hstart.error hstart.containers (by
          rw [hstart.output, List.length_append]
          omega)
      have hend := wrote_objectEnd hinside.capturing hinside.error hinside.containers (by
        rw [hinside.output, hstart.output, List.length_append, List.length_append]
        simp only [List.length_singleton] at hsize ⊢
        omega)
      exact hstart.trans (hinside.trans hend)

theorem wrote_elements (target : JsonPointer) {path : Text} {depth index : Nat} :
    ∀ (elements : Elements) {s : JsonSelector} {first : Bool} {containers : List SelectedContainer},
      s.capturing = true → s.error = none → s.containers = .array first :: containers →
      s.output.length + (textOf (elements.compact.chunks first)).length ≤ maxJsonInputBytes →
      ∃ first', Wrote s (visitElements (observer target) path depth index elements s)
        (.array first' :: containers) (textOf (elements.compact.chunks first))
  | .nil, s, first, containers, hcapturing, herror, hcontainers, hsize => by
      refine ⟨first, ?_⟩
      simp only [visitElements, Elements.compact, Elements.chunks, textOf_nil]
      exact ⟨(List.append_nil _).symm, hcontainers, hcapturing, rfl, herror⟩
  | .cons gap value rest, s, first, containers, hcapturing, herror, hcontainers, hsize => by
      have htext : textOf ((Elements.cons gap value rest).compact.chunks first) =
          ({} : Gap).separator first ++
            (value.compact.text ++ textOf (rest.compact.chunks false)) := by
        rw [Elements.compact, Elements.chunks, textOf_append, textOf_chunks, List.append_assoc]
      rw [htext] at hsize ⊢
      rw [List.length_append, List.length_append] at hsize
      let child := childPointer path (indexSegment index)
      have hbegin := @wrote_beginArray target s (walkPath child (childState path depth)) first containers
        hcapturing herror hcontainers (by omega)
      have hbody := @wrote_body target child (childState path depth) value _
        hbegin.capturing hbegin.error (by
          rw [hbegin.output, List.length_append]
          omega)
      rw [hbegin.containers] at hbody
      have hvalue : visitJson (observer target) child (childState path depth) value s =
          body target child (childState path depth) value
            (s.beginValue target (walkPath child (childState path depth))) := by
        rw [visitJson_eq]
        apply finishValue_inside
        rw [hbody.containers]
        exact List.cons_ne_nil _ _
      have hwrote := hbegin.trans hbody
      rw [← hvalue] at hwrote
      obtain ⟨first', hrest⟩ := @wrote_elements target path depth (index + 1) rest _ _ _
        hwrote.capturing hwrote.error hwrote.containers (by
          rw [hwrote.output, List.length_append, List.length_append]
          omega)
      refine ⟨first', ?_⟩
      have hall := hwrote.trans hrest
      rw [List.append_assoc] at hall
      exact hall

theorem wrote_members (target : JsonPointer) {path : Text} {depth : Nat} :
    ∀ (members : Members) {s : JsonSelector} {first : Bool} {containers : List SelectedContainer},
      s.capturing = true → s.error = none → s.containers = .object first :: containers →
      s.output.length + (textOf (members.compact.chunks first)).length ≤ maxJsonInputBytes →
      ∃ first', Wrote s (visitMembers (observer target) path depth members s)
        (.object first' :: containers) (textOf (members.compact.chunks first))
  | .nil, s, first, containers, hcapturing, herror, hcontainers, hsize => by
      refine ⟨first, ?_⟩
      simp only [visitMembers, Members.compact, Members.chunks, textOf_nil]
      exact ⟨(List.append_nil _).symm, hcontainers, hcapturing, rfl, herror⟩
  | .cons gap key colon value rest, s, first, containers, hcapturing, herror, hcontainers, hsize => by
      have htext : textOf ((Members.cons gap key colon value rest).compact.chunks first) =
          (({} : Gap).separator first ++ (key.compact.bytes ++ [0x3A])) ++
            (value.compact.text ++ textOf (rest.compact.chunks false)) := by
        rw [Members.compact, Members.chunks, textOf_cons, textOf_append, textOf_chunks, Chunk.bytes]
        simp [Gap.colon]
      rw [htext] at hsize ⊢
      rw [List.length_append, @List.length_append _ value.compact.text] at hsize
      let child := childPointer path key.text
      have hkey := @wrote_objectKey s first containers key hcapturing herror hcontainers (by omega)
      have hbegin := @beginValue_object target _ (walkPath child (childState path depth)) _ _
        hkey.capturing hkey.containers
      have hbody := @wrote_body target child (childState path depth) value _
        hkey.capturing hkey.error (by
          rw [hkey.output, List.length_append]
          omega)
      rw [hkey.containers] at hbody
      have hvalue : visitJson (observer target) child (childState path depth) value
          (s.objectKey key.text) =
          body target child (childState path depth) value (s.objectKey key.text) := by
        rw [visitJson_eq, hbegin]
        apply finishValue_inside
        rw [hbody.containers]
        exact List.cons_ne_nil _ _
      have hwrote := hkey.trans hbody
      rw [← hvalue] at hwrote
      obtain ⟨first', hrest⟩ := @wrote_members target path depth rest _ _ _
        hwrote.capturing hwrote.error hwrote.containers (by
          rw [hwrote.output, List.length_append, List.length_append]
          omega)
      refine ⟨first', ?_⟩
      have hall := hwrote.trans hrest
      rw [List.append_assoc _ value.compact.text] at hall
      exact hall

end

/-! ## Selecting -/

/-- The selector is not inside the selection. -/
structure Idle (s : JsonSelector) : Prop where
  capturing : s.capturing = false
  containers : s.containers = []
  error : s.error = none

/-- The value that a selector picks out of some values. -/
def pick (target : JsonPointer) (selected : Bool) (values : List (Text × Json)) : Option Json :=
  if selected then none else firstAt target.asStr values

/-- The selector has picked the value, if there is one, and is idle again. -/
structure Picked (s t : JsonSelector) (found : Option Json) : Prop where
  idle : Idle t
  output : t.output = s.output ++ found.elim [] fun value => value.compact.text
  selected : t.selected = (s.selected || found.isSome)

/-- There is room for the value. -/
def Fits (s : JsonSelector) (found : Option Json) : Prop :=
  ∀ value, found = some value →
    s.output.length + value.compact.text.length ≤ maxJsonInputBytes

theorem Picked.refl {s : JsonSelector} (h : Idle s) : Picked s s none :=
  ⟨h, (List.append_nil _).symm, (Bool.or_false _).symm⟩

theorem Idle.congr {s t : JsonSelector} (h : Idle s) (hsame : SameSelection s t) : Idle t :=
  ⟨hsame.capturing.trans h.capturing, hsame.containers.trans h.containers,
    hsame.error.trans h.error⟩

theorem Picked.of_same {s t u : JsonSelector} {found : Option Json} (hsame : SameSelection s t)
    (h : Picked t u found) : Picked s u found :=
  ⟨h.idle, by rw [h.output, hsame.output], by rw [h.selected, hsame.selected]⟩

theorem pick_append {target : JsonPointer} {selected : Bool} {values more : List (Text × Json)} :
    pick target selected (values ++ more) =
      (pick target selected values).or
        (pick target (selected || (pick target selected values).isSome) more) := by
  unfold pick
  cases selected with
  | true => rfl
  | false =>
    simp only [Bool.false_eq_true, if_false, Bool.false_or, firstAt_append]
    cases firstAt target.asStr values <;> rfl

/-- Picking from two lists of values, one after the other. -/
theorem Picked.append {target : JsonPointer} {s t : JsonSelector} {values more : List (Text × Json)}
    (h : Picked s t (pick target s.selected values))
    (hfits : Fits s (pick target s.selected (values ++ more))) :
    Fits t (pick target t.selected more) ∧ ∀ u, Picked t u (pick target t.selected more) →
      Picked s u (pick target s.selected (values ++ more)) := by
  have hselected := h.selected
  rw [pick_append, ← hselected] at hfits ⊢
  have houtput := h.output
  cases hpick : pick target s.selected values with
  | none =>
    rw [hpick] at hselected houtput hfits
    rw [Option.none_or] at hfits ⊢
    simp only [Option.elim_none, List.append_nil] at houtput
    simp only [Option.isSome_none, Bool.or_false] at hselected
    refine ⟨fun value hvalue => ?_, fun u hu => ⟨hu.idle, ?_, ?_⟩⟩
    · rw [houtput]
      exact hfits value hvalue
    · rw [hu.output, houtput]
    · rw [hu.selected, hselected]
  | some value =>
    rw [hpick] at hselected houtput
    have hnone : pick target t.selected more = none := by
      unfold pick
      rw [hselected]
      simp
    rw [hnone, Option.some_or]
    refine ⟨(fun value hvalue => by cases hvalue), fun u hu => ⟨hu.idle, ?_, ?_⟩⟩
    · rw [hu.output, houtput]
      simp
    · rw [hu.selected, hselected]
      simp

/-- The selected value is captured from its first step to its last. -/
theorem picked_target {target : JsonPointer} {path : Text} {place : ValuePathState} {value : Json}
    {s : JsonSelector} (hidle : Idle s) (hselected : s.selected = false) (hpath : path = target.asStr)
    (hsize : s.output.length + value.compact.text.length ≤ maxJsonInputBytes) :
    Picked s (visitJson (observer target) path place value s) (some value) := by
  have hbegin : s.beginValue target (walkPath path place) =
      { s with capturing := true, selected := true } := by
    unfold beginValue
    rw [hidle.capturing, hselected, if_pos]
    exact decide_eq_true hpath
  rw [visitJson_eq, hbegin]
  have hbody := @wrote_body target path place value { s with capturing := true, selected := true }
    rfl hidle.error hsize
  have hcontainers := hbody.containers.trans hidle.containers
  unfold finishValue
  rw [hbody.capturing, hcontainers, if_pos (by decide)]
  refine ⟨⟨rfl, rfl, hbody.error⟩, hbody.output, ?_⟩
  rw [Option.isSome_some, Bool.or_true]
  exact hbody.selected

theorem beginValue_idle {target : JsonPointer} {path : WalkPath} {s : JsonSelector} (hidle : Idle s)
    (hother : s.selected = true ∨ path.raw ≠ target.asStr) : s.beginValue target path = s := by
  unfold beginValue
  rw [hidle.capturing, if_neg, if_neg Bool.false_ne_true]
  rcases hother with hselected | hpath
  · simp [hselected]
  · simp [hpath]

theorem finishValue_idle {s : JsonSelector} (hidle : Idle s) : s.finishValue = s := by
  unfold finishValue
  rw [hidle.capturing]
  rfl

theorem pick_nil (target : JsonPointer) (selected : Bool) : pick target selected [] = none := by
  unfold pick
  cases selected <;> rfl

/-- A value is either the one that is wanted, or passed through. -/
theorem picked_of_body {target : JsonPointer} {path : Text} {place : ValuePathState} {value : Json}
    {s : JsonSelector} (hidle : Idle s) (hfits : Fits s (pick target s.selected (value.values path)))
    (hbody : Fits s (pick target s.selected (value.inside path)) →
      Picked s (body target path place value s) (pick target s.selected (value.inside path))) :
    Picked s (visitJson (observer target) path place value s)
      (pick target s.selected (value.values path)) := by
  rw [Json.values_eq] at hfits ⊢
  by_cases hwanted : s.selected = false ∧ path = target.asStr
  · obtain ⟨hselected, hpath⟩ := hwanted
    have hpick : pick target s.selected ((path, value) :: value.inside path) = some value := by
      unfold pick
      rw [hselected, if_neg Bool.false_ne_true, hpath, firstAt_cons_self]
    rw [hpick] at hfits ⊢
    exact picked_target hidle hselected hpath (hfits value rfl)
  · have hother : s.selected = true ∨ path ≠ target.asStr := by
      rw [not_and_or, Bool.not_eq_false] at hwanted
      exact hwanted
    have hpick : pick target s.selected ((path, value) :: value.inside path) =
        pick target s.selected (value.inside path) := by
      unfold pick
      rcases hother with hselected | hpath
      · rw [hselected, if_pos rfl, if_pos rfl]
      · rw [firstAt_cons_of_ne hpath]
    rw [hpick] at hfits ⊢
    have hpicked := hbody hfits
    rw [visitJson_eq, beginValue_idle hidle hother, finishValue_idle hpicked.idle]
    exact hpicked

mutual

/-- An idle selector picks the first value with the wanted pointer. -/
theorem picked_json (target : JsonPointer) {path : Text} {place : ValuePathState} :
    ∀ (value : Json) {s : JsonSelector}, Idle s →
      Fits s (pick target s.selected (value.values path)) →
      Picked s (visitJson (observer target) path place value s)
        (pick target s.selected (value.values path))
  | .scalar token, s, hidle, hfits => picked_of_body hidle hfits fun _ => by
      have hsame := sameSelection_noteValue target s (walkPath path place) token.kind.type
      have hbody : body target path place (.scalar token) s =
          s.noteValue target (walkPath path place) token.kind.type := by
        unfold body scalar
        dsimp only
        rw [hsame.capturing, hidle.capturing]
        rfl
      rw [hbody, Json.inside, pick_nil]
      exact .of_same hsame (.refl (hidle.congr hsame))
  | .array elements close, s, hidle, hfits => picked_of_body hidle hfits fun hroom => by
      have hsame := sameSelection_noteValue target s (walkPath path place) .array
      have hstart : s.arrayStart target (walkPath path place) =
          s.noteValue target (walkPath path place) .array := by
        unfold arrayStart
        dsimp only
        rw [hsame.capturing, hidle.capturing]
        rfl
      have hnoted := hidle.congr hsame
      rw [Json.inside] at hroom ⊢
      rw [← hsame.selected] at hroom ⊢
      have hinside := @picked_elements target path place.depth 0 elements _ hnoted fun found hfound => by
        rw [hsame.output]
        exact hroom found hfound
      refine .of_same hsame ?_
      unfold body
      dsimp only
      rw [hstart, hnoted.error, Option.isNone_none, if_pos rfl]
      unfold arrayEnd
      rw [hinside.idle.capturing]
      exact hinside
  | .object members close, s, hidle, hfits => picked_of_body hidle hfits fun hroom => by
      have hsame := sameSelection_noteValue target s (walkPath path place) .object
      have hstart : s.objectStart target (walkPath path place) =
          s.noteValue target (walkPath path place) .object := by
        unfold objectStart
        dsimp only
        rw [hsame.capturing, hidle.capturing]
        rfl
      have hnoted := hidle.congr hsame
      rw [Json.inside] at hroom ⊢
      rw [← hsame.selected] at hroom ⊢
      have hinside := @picked_members target path place.depth members _ hnoted fun found hfound => by
        rw [hsame.output]
        exact hroom found hfound
      refine .of_same hsame ?_
      unfold body
      dsimp only
      rw [hstart, hnoted.error, Option.isNone_none, if_pos rfl]
      unfold objectEnd
      rw [hinside.idle.capturing]
      exact hinside

theorem picked_elements (target : JsonPointer) {path : Text} {depth index : Nat} :
    ∀ (elements : Elements) {s : JsonSelector}, Idle s →
      Fits s (pick target s.selected (elements.values path index)) →
      Picked s (visitElements (observer target) path depth index elements s)
        (pick target s.selected (elements.values path index))
  | .nil, s, hidle, hfits => by
      rw [Elements.values, visitElements, pick_nil]
      exact .refl hidle
  | .cons gap value rest, s, hidle, hfits => by
      rw [Elements.values] at hfits ⊢
      have hvalue := @picked_json target (childPointer path (indexSegment index))
        (childState path depth) value s hidle fun found hfound => hfits found (by
          rw [pick_append, hfound, Option.some_or])
      obtain ⟨hroom, hall⟩ := hvalue.append hfits
      exact hall _ (picked_elements target rest hvalue.idle hroom)

theorem picked_members (target : JsonPointer) {path : Text} {depth : Nat} :
    ∀ (members : Members) {s : JsonSelector}, Idle s →
      Fits s (pick target s.selected (members.values path)) →
      Picked s (visitMembers (observer target) path depth members s)
        (pick target s.selected (members.values path))
  | .nil, s, hidle, hfits => by
      rw [Members.values, visitMembers, pick_nil]
      exact .refl hidle
  | .cons gap key colon value rest, s, hidle, hfits => by
      rw [Members.values] at hfits ⊢
      have hkey : s.objectKey key.text = s := by
        unfold objectKey
        rw [hidle.capturing]
      have hvalue := @picked_json target (childPointer path key.text) (childState path depth) value s
        hidle fun found hfound => hfits found (by rw [pick_append, hfound, Option.some_or])
      have hvisit : visitMembers (observer target) path depth (.cons gap key colon value rest) s =
          visitMembers (observer target) path depth rest
            (visitJson (observer target) (childPointer path key.text) (childState path depth) value
              s) := by
        rw [visitMembers]
        exact congrArg (fun s => visitMembers (observer target) path depth rest
          (visitJson (observer target) _ _ value s)) hkey
      obtain ⟨hroom, hall⟩ := hvalue.append hfits
      rw [hvisit]
      exact hall _ (picked_members target rest hvalue.idle hroom)

end

end JsonSelector

/-- The selection is the compact text of the first value with the wanted pointer. -/
theorem extractJsonSelection_eq {parser : JsonEventParser} {input : Bytes} {document : JsonDocument}
    {pointer : JsonPointer} {value : Json} (hparses : Parses parser input document)
    (hvalid : validateJsonInput input = .ok ()) (hlimit : jsonLimit [] 0 document.root = none)
    (hfirst : firstAt pointer.asStr (document.root.values []) = some value)
    (hsize : value.compact.text.length ≤ maxJsonInputBytes) :
    extractJsonSelection parser input pointer = .ok (.ok { bytes := value.compact.text }) := by
  have hpick : JsonSelector.pick pointer false (document.root.values []) = some value := by
    unfold JsonSelector.pick
    rw [if_neg Bool.false_ne_true, hfirst]
  have hpicked := @JsonSelector.picked_json pointer [] rootState document.root {}
    ⟨rfl, rfl, rfl⟩ (by
      intro found hfound
      rw [hpick] at hfound
      obtain rfl := Option.some.inj hfound
      rw [List.length_nil, Nat.zero_add]
      exact hsize)
  rw [hpick] at hpicked
  unfold extractJsonSelection
  rw [walkJson_eq hparses, hvalid, hlimit]
  dsimp only [afterLimit]
  rw [hpicked.idle.error, hpicked.selected, hpicked.output]
  rfl

end Fluxcope.Control
