import Fluxcope.Library.JsonPointer
/-!
# Values with the segments of their pointers

The keys and indices on the way to a value, before they are escaped and joined.
-/

namespace Fluxcope.Library

open Utf8

mutual

/-- All values of a document with their segments, each container before its children. -/
def Json.located (segments : List Text) : Json → List (List Text × Json)
  | .scalar token => [(segments, .scalar token)]
  | .array elements close => (segments, .array elements close) :: elements.located segments 0
  | .object members close => (segments, .object members close) :: members.located segments

def Elements.located (segments : List Text) (index : Nat) : Elements → List (List Text × Json)
  | .nil => []
  | .cons _ value rest =>
    value.located (segments ++ [indexSegment index]) ++ rest.located segments (index + 1)

def Members.located (segments : List Text) : Members → List (List Text × Json)
  | .nil => []
  | .cons _ key _ value rest =>
    value.located (segments ++ [key.text]) ++ rest.located segments

end

/-! ## Where the values are -/

mutual

theorem Json.segments_of_mem {segments : List Text} {entry : List Text × Json} :
    ∀ value : Json, entry ∈ value.located segments → ∃ more, entry.1 = segments ++ more
  | .scalar token, h => by
      rw [List.mem_singleton.1 h]
      exact ⟨[], (List.append_nil segments).symm⟩
  | .array elements close, h => by
      rcases List.mem_cons.1 h with rfl | h
      · exact ⟨[], (List.append_nil segments).symm⟩
      · obtain ⟨more, -, heq⟩ := elements.segments_of_mem h
        exact ⟨more, heq⟩
  | .object members close, h => by
      rcases List.mem_cons.1 h with rfl | h
      · exact ⟨[], (List.append_nil segments).symm⟩
      · obtain ⟨more, -, heq⟩ := members.segments_of_mem h
        exact ⟨more, heq⟩

theorem Elements.segments_of_mem {segments : List Text} {index : Nat}
    {entry : List Text × Json} : ∀ elements : Elements, entry ∈ elements.located segments index →
      ∃ more, more ≠ [] ∧ entry.1 = segments ++ more
  | .nil, h => by cases h
  | .cons _ value rest, h => by
      rcases List.mem_append.1 h with h | h
      · obtain ⟨more, heq⟩ := value.segments_of_mem h
        exact ⟨indexSegment index :: more, List.cons_ne_nil _ _, by
          rw [heq, List.append_assoc, List.singleton_append]⟩
      · exact rest.segments_of_mem h

theorem Members.segments_of_mem {segments : List Text} {entry : List Text × Json} :
    ∀ members : Members, entry ∈ members.located segments →
      ∃ more, more ≠ [] ∧ entry.1 = segments ++ more
  | .nil, h => by cases h
  | .cons _ key _ value rest, h => by
      rcases List.mem_append.1 h with h | h
      · obtain ⟨more, heq⟩ := value.segments_of_mem h
        exact ⟨key.text :: more, List.cons_ne_nil _ _, by
          rw [heq, List.append_assoc, List.singleton_append]⟩
      · exact rest.segments_of_mem h

end

/-! ## How many values there are -/

theorem ScalarToken.length_pos (token : ScalarToken) : 1 ≤ token.bytes.length := by
  obtain ⟨kind, _ | ⟨b, bytes⟩, hopened⟩ := token
  · cases hopened
  · exact Nat.le_add_left 1 bytes.length

mutual

/-- Every value has a byte of its own. -/
theorem Json.length_located_le (segments : List Text) (lead : Bytes) : ∀ value : Json,
    (value.located segments).length ≤ (textOf (value.chunks lead)).length
  | .scalar token => by
      have hpos := token.length_pos
      rw [Json.located, Json.chunks, textOf_cons, textOf_nil, List.append_nil, Chunk.bytes,
        List.length_append, List.length_singleton]
      exact Nat.le_add_left_of_le hpos
  | .array elements close => by
      have hinside := elements.length_located_le segments 0 true
      rw [Json.located, Json.chunks, textOf_cons, textOf_append, List.length_cons,
        List.length_append, List.length_append, Chunk.bytes, List.length_append,
        List.length_singleton]
      omega
  | .object members close => by
      have hinside := members.length_located_le segments true
      rw [Json.located, Json.chunks, textOf_cons, textOf_append, List.length_cons,
        List.length_append, List.length_append, Chunk.bytes, List.length_append,
        List.length_singleton]
      omega

theorem Elements.length_located_le (segments : List Text) (index : Nat) (first : Bool) :
    ∀ elements : Elements,
      (elements.located segments index).length ≤ (textOf (elements.chunks first)).length
  | .nil => Nat.le_refl 0
  | .cons gap value rest => by
      have hvalue := value.length_located_le (segments ++ [indexSegment index])
        (gap.separator first)
      have hrest := rest.length_located_le segments (index + 1) false
      rw [Elements.located, Elements.chunks, textOf_append, List.length_append,
        List.length_append]
      omega

theorem Members.length_located_le (segments : List Text) (first : Bool) : ∀ members : Members,
    (members.located segments).length ≤ (textOf (members.chunks first)).length
  | .nil => Nat.le_refl 0
  | .cons gap key colon value rest => by
      have hvalue := value.length_located_le (segments ++ [key.text]) colon.colon
      have hrest := rest.length_located_le segments false
      rw [Members.located, Members.chunks, textOf_cons, textOf_append, List.length_append,
        List.length_append, List.length_append]
      omega

end

theorem Elements.length_le_located (segments : List Text) (index : Nat) : ∀ elements : Elements,
    elements.length ≤ (elements.located segments index).length
  | .nil => Nat.le_refl 0
  | .cons _ value rest => by
      have hrest := rest.length_le_located segments (index + 1)
      have hvalue : 1 ≤ (value.located (segments ++ [indexSegment index])).length := by
        cases value <;> exact Nat.le_add_left 1 _
      rw [Elements.length, Elements.located, List.length_append]
      omega

mutual

/-- An array is not longer than the document has values. -/
theorem Json.array_length_le {segments : List Text} {entry : List Text × Json}
    {elements : Elements} {close : Blank} (hentry : entry.2 = .array elements close) :
    ∀ value : Json, entry ∈ value.located segments →
      elements.length ≤ (value.located segments).length
  | .scalar token, h => by
      rw [List.mem_singleton.1 h] at hentry
      cases hentry
  | .array others close', h => by
      rcases List.mem_cons.1 h with rfl | h
      · cases hentry
        exact Nat.le_succ_of_le (elements.length_le_located segments 0)
      · exact Nat.le_succ_of_le (Elements.array_length_le hentry others h)
  | .object members close', h => by
      rcases List.mem_cons.1 h with rfl | h
      · cases hentry
      · exact Nat.le_succ_of_le (members.array_length_le hentry h)

theorem Elements.array_length_le {segments : List Text} {index : Nat}
    {entry : List Text × Json} {elements : Elements} {close : Blank}
    (hentry : entry.2 = .array elements close) :
    ∀ others : Elements, entry ∈ others.located segments index →
      elements.length ≤ (others.located segments index).length
  | .nil, h => by cases h
  | .cons _ value rest, h => by
      rw [Elements.located, List.length_append]
      rcases List.mem_append.1 h with h | h
      · exact Nat.le_add_right_of_le (value.array_length_le hentry h)
      · exact Nat.le_add_left_of_le (Elements.array_length_le hentry rest h)

theorem Members.array_length_le {segments : List Text} {entry : List Text × Json}
    {elements : Elements} {close : Blank} (hentry : entry.2 = .array elements close) :
    ∀ members : Members, entry ∈ members.located segments →
      elements.length ≤ (members.located segments).length
  | .nil, h => by cases h
  | .cons _ key _ value rest, h => by
      rw [Members.located, List.length_append]
      rcases List.mem_append.1 h with h | h
      · exact Nat.le_add_right_of_le (value.array_length_le hentry h)
      · exact Nat.le_add_left_of_le (Members.array_length_le hentry rest h)

end

theorem JsonDocument.length_located_le (document : JsonDocument) :
    (document.root.located []).length ≤ document.text.length := by
  have hroot := document.root.length_located_le [] document.before.bytes
  rw [JsonDocument.text, JsonDocument.chunks, textOf_append, List.length_append]
  omega

/-! ## The keys of a document -/

mutual

/-- The keys of all objects, in the order of the text. -/
def Json.memberKeys : Json → List Text
  | .scalar _ => []
  | .array elements _ => elements.memberKeys
  | .object members _ => members.memberKeys

def Elements.memberKeys : Elements → List Text
  | .nil => []
  | .cons _ value rest => value.memberKeys ++ rest.memberKeys

def Members.memberKeys : Members → List Text
  | .nil => []
  | .cons _ key _ value rest => key.text :: (value.memberKeys ++ rest.memberKeys)

end

mutual

/-- Every key has a value, and the root has none. -/
theorem Json.length_memberKeys_lt (segments : List Text) : ∀ value : Json,
    value.memberKeys.length < (value.located segments).length
  | .scalar _ => Nat.one_pos
  | .array elements _ => Nat.lt_succ_of_le (elements.length_memberKeys_le segments 0)
  | .object members _ => Nat.lt_succ_of_le (members.length_memberKeys_le segments)

theorem Elements.length_memberKeys_le (segments : List Text) (index : Nat) : ∀ elements : Elements,
    elements.memberKeys.length ≤ (elements.located segments index).length
  | .nil => Nat.le_refl 0
  | .cons _ value rest => by
      have hvalue := value.length_memberKeys_lt (segments ++ [indexSegment index])
      have hrest := rest.length_memberKeys_le segments (index + 1)
      rw [Elements.memberKeys, Elements.located, List.length_append, List.length_append]
      omega

theorem Members.length_memberKeys_le (segments : List Text) : ∀ members : Members,
    members.memberKeys.length ≤ (members.located segments).length
  | .nil => Nat.le_refl 0
  | .cons _ key _ value rest => by
      have hvalue := value.length_memberKeys_lt (segments ++ [key.text])
      have hrest := rest.length_memberKeys_le segments
      rw [Members.memberKeys, Members.located, List.length_cons, List.length_append,
        List.length_append]
      omega

end

end Fluxcope.Library
