import Fluxcope.Control.ExtractJsonSpec
import Fluxcope.Control.FindJson
/-!
# Finding and extracting

A match describes the value at its pointer, the pointer names no other value, and the
extractor accepts the pointer and writes this value.
-/

namespace Fluxcope.Control

open Fluxcope.Library Fluxcope.Library.Utf8

/-! ## Pointers of values -/

theorem decodeSegment_char (c : Char) (rest : Text) :
    decodeSegment false (escapePointerChar c ++ rest) =
      (decodeSegment false rest).map (c :: ·) := by
  unfold escapePointerChar
  by_cases htilde : c = '~'
  · rw [if_pos htilde, htilde, List.cons_append, List.cons_append, List.nil_append, decodeSegment]
  · rw [if_neg htilde]
    by_cases hslash : c = '/'
    · rw [if_pos hslash, hslash, List.cons_append, List.cons_append, List.nil_append, decodeSegment]
    · rw [if_neg hslash, List.cons_append, List.nil_append]
      rw [decodeSegment]
      all_goals intros; simp_all

/-- An escaped segment decodes to itself. -/
theorem decodeSegment_escape (segment : Text) :
    decodeSegment false (escapePointerSegment segment) = .ok segment := by
  induction segment with
  | nil => rfl
  | cons c segment ih =>
    rw [escapePointerSegment_cons, decodeSegment_char, ih]
    rfl

theorem forM_decodeSegment (segments : List Text) :
    ((segments.map escapePointerSegment).forM fun segment =>
      (decodeSegment false segment).map fun _ => ()) = .ok () := by
  induction segments with
  | nil => rfl
  | cons segment segments ih =>
    rw [List.map_cons]
    refine Eq.trans List.forM_cons ?_
    rw [decodeSegment_escape]
    exact ih

/-- A pointer that the walker can have built. -/
def Admitted (pointer : Text) : Prop :=
  Text.utf8Len pointer ≤ maxJsonPointerBytes ∧ ∃ segments, pointer = pointerOf segments

theorem admitted_nil : Admitted [] := ⟨Nat.zero_le _, [], rfl⟩

theorem Admitted.child {pointer segment : Text} (h : Admitted pointer)
    (hlength : Text.utf8Len (childPointer pointer segment) ≤ maxJsonPointerBytes) :
    Admitted (childPointer pointer segment) := by
  obtain ⟨-, segments, rfl⟩ := h
  exact ⟨hlength, segments ++ [segment], childPointer_pointerOf segments segment⟩

theorem Admitted.parse {pointer : Text} (h : Admitted pointer) :
    JsonPointer.parse pointer = .ok { asStr := pointer } := by
  obtain ⟨hlength, segments, rfl⟩ := h
  have hvalid : validatePointerText (pointerOf segments) false = .ok () := by
    unfold validatePointerText
    rw [if_neg (Nat.not_lt.2 hlength)]
    cases segments with
    | nil => rfl
    | cons segment segments =>
      have hcons : pointerOf (segment :: segments) =
          '/' :: (escapePointerSegment segment ++ pointerOf segments) := rfl
      have hraw : pointerRawSegments (pointerOf (segment :: segments)) =
          (segment :: segments).map escapePointerSegment := by
        rw [hcons, List.map_cons]
        exact splitOn_pointerOf segment segments
      rw [hraw, hcons, if_neg (by simp)]
      exact forM_decodeSegment (segment :: segments)
  unfold JsonPointer.parse
  rw [hvalid]
  rfl

mutual

/-- Within the limits the pointer of every value is admitted. -/
theorem admitted_json {target : Text} {found : Json} {path : Text} {depth : Nat} :
    ∀ value : Json, Admitted path → jsonLimit path depth value = none →
      (target, found) ∈ value.values path → Admitted target
  | .scalar token, hpath, _, h => by
      obtain ⟨rfl, -⟩ := Prod.mk.inj (List.mem_singleton.1 h)
      exact hpath
  | .array elements close, hpath, hlimit, h => by
      rw [jsonLimit] at hlimit
      split at hlimit
      · rcases List.mem_cons.1 h with h | h
        · obtain ⟨rfl, -⟩ := Prod.mk.inj h
          exact hpath
        · exact admitted_elements elements hpath hlimit h
      · cases hlimit
  | .object members close, hpath, hlimit, h => by
      rw [jsonLimit] at hlimit
      split at hlimit
      · rcases List.mem_cons.1 h with h | h
        · obtain ⟨rfl, -⟩ := Prod.mk.inj h
          exact hpath
        · exact admitted_members members hpath hlimit h
      · cases hlimit

theorem admitted_elements {target : Text} {found : Json} {path : Text} {depth index : Nat} :
    ∀ elements : Elements, Admitted path → elementsLimit path depth index elements = none →
      (target, found) ∈ elements.values path index → Admitted target
  | .nil, _, _, h => by cases h
  | .cons _ value rest, hpath, hlimit, h => by
      rw [elementsLimit] at hlimit
      split at hlimit
      case isTrue hlength =>
        obtain ⟨hvalue, hrest⟩ := Option.or_eq_none_iff.1 hlimit
        rcases List.mem_append.1 h with h | h
        · exact admitted_json value (hpath.child hlength) hvalue h
        · exact admitted_elements rest hpath hrest h
      case isFalse => cases hlimit

theorem admitted_members {target : Text} {found : Json} {path : Text} {depth : Nat} :
    ∀ members : Members, Admitted path → membersLimit path depth members = none →
      (target, found) ∈ members.values path → Admitted target
  | .nil, _, _, h => by cases h
  | .cons _ key _ value rest, hpath, hlimit, h => by
      rw [membersLimit] at hlimit
      split at hlimit
      case isTrue hlength =>
        obtain ⟨hvalue, hrest⟩ := Option.or_eq_none_iff.1 hlimit
        rcases List.mem_append.1 h with h | h
        · exact admitted_json value (hpath.child hlength) hvalue h
        · exact admitted_members rest hpath hrest h
      case isFalse => cases hlimit

end

/-! ## What is found -/

/-- The match for a value. -/
def describe (pointer : Text) : Json → JsonFieldMatch
  | .scalar token =>
    { pointer := { asStr := pointer }
      valueType := token.kind.type
      objectChildCount := none
      arrayLength := none
      scalarEncodedBytes := some token.bytes.length }
  | .array elements _ =>
    { pointer := { asStr := pointer }
      valueType := .array
      objectChildCount := none
      arrayLength := some elements.length
      scalarEncodedBytes := none }
  | .object members _ =>
    { pointer := { asStr := pointer }
      valueType := .object
      objectChildCount := some members.keys.length
      arrayLength := none
      scalarEncodedBytes := none }

/-- Writing a value down anew keeps its type, its token and the number of its children. -/
theorem describe_compact (pointer : Text) (value : Json) :
    describe pointer value.compact = describe pointer value := by
  cases value with
  | scalar token => rfl
  | array elements close =>
    rw [Json.compact, describe, describe, elements.length_compact]
  | object members close =>
    rw [Json.compact, describe, describe, members.keys_compact]

theorem scalarEncodedBytes_describe {pointer : Text} {value : Json} {n : Nat}
    (h : (describe pointer value).scalarEncodedBytes = some n) : value.compact.text.length = n := by
  cases value with
  | scalar token =>
    rw [describe, Option.some.injEq] at h
    rw [← h]
    simp [Json.compact, Json.text, Json.chunks, Chunk.bytes]
  | array elements close => cases h
  | object members close => cases h

/-- The matches that were added are all among the descriptions of some values. -/
def Describes (values : List (Text × Json)) (s t : FieldFinder) : Prop :=
  ∀ found ∈ t.fieldMatches,
    found ∈ s.fieldMatches ∨ ∃ entry ∈ values, found = describe entry.1 entry.2

theorem Describes.of_eq {values : List (Text × Json)} {s t : FieldFinder}
    (h : t.fieldMatches = s.fieldMatches) : Describes values s t := by
  intro found hfound
  rw [h] at hfound
  exact .inl hfound

theorem Describes.mono {values more : List (Text × Json)} {s t : FieldFinder}
    (h : Describes values s t) (hsub : values ⊆ more) : Describes more s t := by
  intro found hfound
  rcases h found hfound with hold | ⟨entry, hentry, heq⟩
  · exact .inl hold
  · exact .inr ⟨entry, hsub hentry, heq⟩

theorem Describes.trans {values more : List (Text × Json)} {s t u : FieldFinder}
    (h : Describes values s t) (h' : Describes more t u) : Describes (values ++ more) s u := by
  intro found hfound
  rcases h' found hfound with hold | ⟨entry, hentry, rfl⟩
  · rcases h found hold with hold | ⟨entry, hentry, rfl⟩
    · exact .inl hold
    · exact .inr ⟨entry, List.mem_append_left more hentry, rfl⟩
  · exact .inr ⟨entry, List.mem_append_right values hentry, rfl⟩

namespace FieldFinder

theorem describes_record {limit : Nat} {s : FieldFinder} {path : WalkPath} {value : Json}
    {kind : JsonType} {childCount arrayLength encodedBytes : Option Nat}
    (hdescribe : describe path.raw value =
      { pointer := { asStr := path.raw }, valueType := kind, objectChildCount := childCount,
        arrayLength, scalarEncodedBytes := encodedBytes }) :
    Describes [(path.raw, value)] s (s.record limit path kind childCount arrayLength encodedBytes) := by
  intro found hfound
  unfold record at hfound
  dsimp only at hfound
  split at hfound
  · exact .inl hfound
  · split at hfound
    · exact .inl hfound
    · rcases List.mem_append.1 hfound with hold | hnew
      · exact .inl hold
      · refine .inr ⟨_, List.mem_singleton_self _, ?_⟩
        rw [hdescribe]
        exact List.mem_singleton.1 hnew

/-- A container is recorded at its end, if its key had matched. -/
theorem describes_end {limit : Nat} {s : FieldFinder} {path : WalkPath} {value : Json}
    {kind : JsonType} {childCount arrayLength : Option Nat}
    (hdescribe : describe path.raw value =
      { pointer := { asStr := path.raw }, valueType := kind, objectChildCount := childCount,
        arrayLength, scalarEncodedBytes := none }) :
    Describes [(path.raw, value)] s
      (if s.containerEnd.1 then s.containerEnd.2.record limit path kind childCount arrayLength none
        else s.containerEnd.2) := by
  split
  · exact describes_record (s := s.containerEnd.2) hdescribe
  · exact .of_eq rfl

variable {caseFold : Text → Text} {name : Text} {mode : FieldMatchMode} {limit : Nat}

mutual

theorem describes_json {path : Text} {place : ValuePathState} : ∀ (value : Json) (s : FieldFinder),
    Describes (value.values path) s
      (visitJson (observer caseFold name mode limit) path place value s)
  | .scalar token, s => by
      rw [visitJson]
      cases hmatches : s.nextValueMatches with
      | false =>
        refine .of_eq ?_
        simp [observer, hmatches]
      | true =>
        have hrecord := @describes_record limit s.consumed (walkPath path place) (.scalar token) _ _ _
          _ rfl
        simpa [observer, hmatches, walkPath, Json.values] using (show Describes _ s _ from hrecord)
  | .array elements close, s => by
      rw [visitJson, Json.values]
      have hinside := @describes_elements path place.depth 0 elements s.containerStart
      have hend := @describes_end limit
        (visitElements (observer caseFold name mode limit) path place.depth 0 elements s.containerStart)
        (walkPath path place) (.array elements close) _ _ _ rfl
      have hstart : Describes [] s s.containerStart := .of_eq rfl
      exact ((hstart.trans hinside).trans hend).mono (by simp [walkPath])
  | .object members close, s => by
      rw [visitJson, Json.values]
      have hinside := @describes_members path place.depth members s.containerStart
      have hend := @describes_end limit
        (visitMembers (observer caseFold name mode limit) path place.depth members s.containerStart)
        (walkPath path place) (.object members close) _ _ _ rfl
      have hstart : Describes [] s s.containerStart := .of_eq rfl
      exact ((hstart.trans hinside).trans hend).mono (by simp [walkPath])

theorem describes_elements {path : Text} {depth index : Nat} :
    ∀ (elements : Elements) (s : FieldFinder),
      Describes (elements.values path index) s
        (visitElements (observer caseFold name mode limit) path depth index elements s)
  | .nil, s => .of_eq rfl
  | .cons _ value rest, s => by
      rw [Elements.values, visitElements]
      exact (describes_json value s).trans (describes_elements rest _)

theorem describes_members {path : Text} {depth : Nat} : ∀ (members : Members) (s : FieldFinder),
    Describes (members.values path) s
      (visitMembers (observer caseFold name mode limit) path depth members s)
  | .nil, s => .of_eq rfl
  | .cons _ key _ value rest, s => by
      rw [Members.values, visitMembers]
      refine Describes.trans ?_ (describes_members rest _)
      exact describes_json value { s with nextValueMatches := keyMatches caseFold name mode key.text }

end

end FieldFinder

/-! ## The answer -/

/-- Matches are only dropped to make the answer fit. -/
theorem enforceFindResultSize_subset {left : Nat} {result answer : FindJsonPointersResult}
    (h : enforceFindResultSize left result = .ok answer) :
    answer.fieldMatches ⊆ result.fieldMatches := by
  induction left generalizing result with
  | zero =>
    rw [enforceFindResultSize] at h
    split at h
    · cases h
    · cases h
      exact fun _ hfound => hfound
  | succ left ih =>
    rw [enforceFindResultSize] at h
    split at h
    · exact fun found hfound => (List.dropLast_subset _) (ih h hfound)
    · cases h
      exact fun _ hfound => hfound

/-- What an answer of the finder says about the input. -/
theorem findJsonPointers_ok {parser : JsonEventParser} {caseFold : Text → Text} {input : Bytes}
    {fieldName : Text} {mode : FieldMatchMode} {limit : Nat} {document : JsonDocument}
    {result : FindJsonPointersResult} (hparses : Parses parser input document)
    (hfind : findJsonPointers parser caseFold input fieldName mode limit = .ok result) :
    validateJsonInput input = .ok () ∧ jsonLimit [] 0 document.root = none ∧
      ∀ found ∈ result.fieldMatches,
        ∃ entry ∈ document.root.values [], found = describe entry.1 entry.2 := by
  unfold findJsonPointers at hfind
  rw [walkJson_eq hparses] at hfind
  split at hfind
  · cases hfind
  · split at hfind
    · cases hfind
    · cases hvalid : validateJsonInput input with
      | error error =>
        rw [hvalid] at hfind
        cases hfind
      | ok _ =>
        cases hlimit : jsonLimit [] 0 document.root with
        | some error =>
          rw [hvalid, hlimit] at hfind
          cases hfind
        | none =>
          rw [hvalid, hlimit] at hfind
          refine ⟨rfl, rfl, fun found hfound => ?_⟩
          have hdescribes := @FieldFinder.describes_json caseFold fieldName mode limit [] rootState
            document.root {} found (enforceFindResultSize_subset hfind hfound)
          rcases hdescribes with hold | hnew
          · cases hold
          · exact hnew

/-- A match leads the extractor to the value that it describes, and to no other. -/
theorem find_extract_agree {parser : JsonEventParser} {caseFold : Text → Text} {input : Bytes}
    {fieldName : Text} {mode : FieldMatchMode} {limit : Nat} {document : JsonDocument}
    {result : FindJsonPointersResult} {found : JsonFieldMatch}
    (hparses : Parses parser input document) (hdistinct : document.root.DistinctKeys)
    (hfind : findJsonPointers parser caseFold input fieldName mode limit = .ok result)
    (hfound : found ∈ result.fieldMatches) :
    JsonPointer.parse found.pointer.asStr = .ok found.pointer ∧
      ∃ value,
        (∀ other, (found.pointer.asStr, other) ∈ document.root.values [] ↔ other = value) ∧
        found = describe found.pointer.asStr value ∧
        found = describe found.pointer.asStr value.compact ∧
        (∀ n, found.scalarEncodedBytes = some n → value.compact.text.length = n) ∧
        (value.compact.text.length ≤ maxJsonInputBytes →
          extractJsonSelection parser input found.pointer =
            .ok (.ok { bytes := value.compact.text })) := by
  obtain ⟨hvalid, hlimit, hdescribes⟩ := findJsonPointers_ok hparses hfind
  obtain ⟨⟨path, value⟩, hmem, heq⟩ := hdescribes found hfound
  have hpointer : found.pointer = { asStr := path } := by
    rw [heq]
    cases value <;> rfl
  have hunique : ∀ other, (path, other) ∈ document.root.values [] → other = value :=
    fun other hother => Json.values_unique document.root hdistinct hother hmem
  rw [hpointer]
  refine ⟨(admitted_json document.root admitted_nil hlimit hmem).parse, value, ?_, heq, ?_, ?_, ?_⟩
  · exact fun other => ⟨hunique other, fun h => by rw [h]; exact hmem⟩
  · rw [describe_compact]
    exact heq
  · intro n hn
    rw [heq] at hn
    exact scalarEncodedBytes_describe hn
  · intro hsize
    obtain ⟨first, hfirst⟩ := exists_firstAt hmem
    obtain rfl := hunique first (mem_of_firstAt hfirst)
    exact extractJsonSelection_eq hparses hvalid hlimit hfirst hsize

/-- `{"a":[1,{"b\/~": "x"}]}` -/
def nestedDocument : JsonDocument :=
  let inner : Members :=
    .cons {} { text := ['b', '/', '~'], bytes := [0x22, 0x62, 0x5C, 0x2F, 0x7E, 0x22] }
      { after := { bytes := [0x20] } } (.scalar { kind := .string, bytes := [0x22, 0x78, 0x22] }) .nil
  let elements : Elements :=
    .cons {} (.scalar { kind := .number, bytes := [0x31] }) (.cons {} (.object inner {}) .nil)
  { root := .object
      (.cons {} { text := ['a'], bytes := [0x22, 0x61, 0x22] } {} (.array elements {}) .nil) {} }

def nestedParser : JsonEventParser := fun _ => nestedDocument.chunks.map Chunk.result

def nestedMatch : JsonFieldMatch :=
  { pointer := { asStr := ['/', 'a', '/', '1', '/', 'b', '~', '1', '~', '0'] }
    valueType := .string
    objectChildCount := none
    arrayLength := none
    scalarEncodedBytes := some 3 }

theorem nested_distinctKeys : nestedDocument.root.DistinctKeys := by
  simp [nestedDocument, Json.DistinctKeys, Elements.DistinctKeys, Members.DistinctKeys, Members.keys]

theorem find_extract_agree_nested :
    JsonPointer.parse nestedMatch.pointer.asStr = .ok nestedMatch.pointer ∧
      ∃ value,
        (∀ other, (nestedMatch.pointer.asStr, other) ∈ nestedDocument.root.values [] ↔
          other = value) ∧
        nestedMatch = describe nestedMatch.pointer.asStr value ∧
        nestedMatch = describe nestedMatch.pointer.asStr value.compact ∧
        (∀ n, nestedMatch.scalarEncodedBytes = some n → value.compact.text.length = n) ∧
        (value.compact.text.length ≤ maxJsonInputBytes →
          extractJsonSelection nestedParser nestedDocument.text nestedMatch.pointer =
            .ok (.ok { bytes := value.compact.text })) :=
  @find_extract_agree nestedParser id nestedDocument.text ['b', '/', '~'] .exact 5 nestedDocument
    { status := .matched
      captureRevision := 0
      fieldMatches := [nestedMatch]
      totalMatches := 1
      omittedMatches := 0
      inspectedBytes := 23
      sourceTruncated := false
      truncated := false }
    nestedMatch ⟨rfl, rfl⟩ nested_distinctKeys (by decide +kernel) (List.mem_singleton_self _)

end Fluxcope.Control
