import Fluxcope.Library.Text
import Fluxcope.Library.Utf8
/-!
# JSON documents and their events

A document is a syntax tree that keeps all bytes of its text: the tokens as they are
spelled, and the blanks between them.  An event parser reports one event for each
token that is not punctuation; its `Chunk` is what the parser consumes for it.
-/

namespace Fluxcope.Library

open Utf8

/-! ## Tokens and blanks -/

def isBlank (b : UInt8) : Bool := b = 0x20 || b = 0x0A || b = 0x0D || b = 0x09

theorem blank_nil : ∀ b ∈ ([] : Bytes), isBlank b = true := List.forall_mem_nil _

theorem blank_space : ∀ b ∈ ([0x20] : Bytes), isBlank b = true := List.forall_mem_singleton.2 rfl

/-- White space between tokens. -/
structure Blank where
  bytes : Bytes := []
  blank : ∀ b ∈ bytes, isBlank b = true := by first | exact blank_nil | exact blank_space

/-- The blanks before and after a comma or a colon. -/
structure Gap where
  before : Blank := {}
  after : Blank := {}

inductive JsonType
  | object
  | array
  | string
  | number
  | boolean
  | null
  deriving DecidableEq, Repr

inductive ScalarKind
  | string
  | number
  | boolean
  | null
  deriving DecidableEq, Repr

def ScalarKind.type : ScalarKind → JsonType
  | .string => .string
  | .number => .number
  | .boolean => .boolean
  | .null => .null

/-- The bytes a token of this kind begins with. -/
def ScalarKind.opens : ScalarKind → UInt8 → Bool
  | .string, b => b = 0x22
  | .number, b => b = 0x2D || (0x30 ≤ b && b ≤ 0x39)
  | .boolean, b => b = 0x74 || b = 0x66
  | .null, b => b = 0x6E

/-- A scalar as it is spelled. -/
structure ScalarToken where
  kind : ScalarKind
  bytes : Bytes
  opened : bytes.head?.any kind.opens = true := by exact Eq.refl true

/-- A key as it is spelled, and what it stands for. -/
structure KeyToken where
  text : Text
  bytes : Bytes

/-! ## Documents -/

mutual

inductive Json
  | scalar (token : ScalarToken)
  | array (elements : Elements) (close : Blank)
  | object (members : Members) (close : Blank)

inductive Elements
  | nil
  | cons (gap : Gap) (value : Json) (rest : Elements)

inductive Members
  | nil
  | cons (gap : Gap) (key : KeyToken) (colon : Gap) (value : Json) (rest : Members)

end

structure JsonDocument where
  before : Blank := {}
  root : Json
  after : Blank := {}

def Elements.length : Elements → Nat
  | .nil => 0
  | .cons _ _ rest => rest.length + 1

def Members.keys : Members → List Text
  | .nil => []
  | .cons _ key _ _ rest => key.text :: rest.keys

def Json.type : Json → JsonType
  | .scalar token => token.kind.type
  | .array _ _ => .array
  | .object _ _ => .object

mutual

/-- No object has a key twice. -/
def Json.DistinctKeys : Json → Prop
  | .scalar _ => True
  | .array elements _ => elements.DistinctKeys
  | .object members _ => members.keys.Nodup ∧ members.DistinctKeys

def Elements.DistinctKeys : Elements → Prop
  | .nil => True
  | .cons _ value rest => value.DistinctKeys ∧ rest.DistinctKeys

def Members.DistinctKeys : Members → Prop
  | .nil => True
  | .cons _ _ _ value rest => value.DistinctKeys ∧ rest.DistinctKeys

end

/-! ## Events -/

inductive JsonEvent
  | string
  | number
  | boolean
  | null
  | startArray
  | endArray
  | startObject
  | endObject
  | objectKey (key : Text)
  | eof
  deriving DecidableEq, Repr

def ScalarKind.event : ScalarKind → JsonEvent
  | .string => .string
  | .number => .number
  | .boolean => .boolean
  | .null => .null

/-- The bytes consumed for an event: the token, and what stands between it and the
token before. -/
structure Chunk where
  lead : Bytes
  token : Bytes
  event : JsonEvent

def Chunk.bytes (chunk : Chunk) : Bytes := chunk.lead ++ chunk.token

/-- The bytes between two elements, or between the opening bracket and the first one. -/
def Gap.separator (gap : Gap) (first : Bool) : Bytes :=
  if first then gap.after.bytes else gap.before.bytes ++ 0x2C :: gap.after.bytes

def Gap.colon (gap : Gap) : Bytes := gap.before.bytes ++ 0x3A :: gap.after.bytes

mutual

def Json.chunks (lead : Bytes) : Json → List Chunk
  | .scalar token => [⟨lead, token.bytes, token.kind.event⟩]
  | .array elements close =>
    ⟨lead, [0x5B], .startArray⟩ :: (elements.chunks true ++ [⟨close.bytes, [0x5D], .endArray⟩])
  | .object members close =>
    ⟨lead, [0x7B], .startObject⟩ :: (members.chunks true ++ [⟨close.bytes, [0x7D], .endObject⟩])

def Elements.chunks (first : Bool) : Elements → List Chunk
  | .nil => []
  | .cons gap value rest => value.chunks (gap.separator first) ++ rest.chunks false

def Members.chunks (first : Bool) : Members → List Chunk
  | .nil => []
  | .cons gap key colon value rest =>
    ⟨gap.separator first, key.bytes, .objectKey key.text⟩ ::
      (value.chunks colon.colon ++ rest.chunks false)

end

def JsonDocument.chunks (document : JsonDocument) : List Chunk :=
  document.root.chunks document.before.bytes ++ [⟨document.after.bytes, [], .eof⟩]

def textOf (chunks : List Chunk) : Bytes := chunks.flatMap Chunk.bytes

def Json.text (value : Json) : Bytes := textOf (value.chunks [])

def JsonDocument.text (document : JsonDocument) : Bytes := textOf document.chunks

@[simp] theorem textOf_nil : textOf [] = [] := rfl

@[simp] theorem textOf_cons (chunk : Chunk) (chunks : List Chunk) :
    textOf (chunk :: chunks) = chunk.bytes ++ textOf chunks := List.flatMap_cons

@[simp] theorem textOf_append (chunks more : List Chunk) :
    textOf (chunks ++ more) = textOf chunks ++ textOf more := List.flatMap_append

/-! ## Separators -/

/-- What may stand between two tokens. -/
def isSeparator (b : UInt8) : Bool :=
  b = 0x20 || b = 0x0A || b = 0x0D || b = 0x09 || b = 0x3A || b = 0x2C

theorem isSeparator_of_isBlank {b : UInt8} (h : isBlank b = true) : isSeparator b = true := by
  unfold isBlank at h
  unfold isSeparator
  rw [h]
  rfl

theorem Blank.separators (blank : Blank) : ∀ b ∈ blank.bytes, isSeparator b = true :=
  fun b hb => isSeparator_of_isBlank (blank.blank b hb)

theorem Gap.separators (gap : Gap) (first : Bool) :
    ∀ b ∈ gap.separator first, isSeparator b = true := by
  intro b hb
  unfold separator at hb
  cases first with
  | true => exact gap.after.separators b hb
  | false =>
    rcases List.mem_append.1 hb with hb | hb
    · exact gap.before.separators b hb
    · rcases List.mem_cons.1 hb with rfl | hb
      · rfl
      · exact gap.after.separators b hb

theorem Gap.colon_separators (gap : Gap) : ∀ b ∈ gap.colon, isSeparator b = true := by
  intro b hb
  rcases List.mem_append.1 hb with hb | hb
  · exact gap.before.separators b hb
  · rcases List.mem_cons.1 hb with rfl | hb
    · rfl
    · exact gap.after.separators b hb

theorem ScalarKind.not_isSeparator {kind : ScalarKind} {b : UInt8} (h : kind.opens b = true) :
    isSeparator b = false := by
  have hnone : ∀ separator ∈ [(0x20 : UInt8), 0x0A, 0x0D, 0x09, 0x3A, 0x2C],
      kind.opens separator = false := by
    simp only [List.forall_mem_cons]
    cases kind <;> exact ⟨rfl, rfl, rfl, rfl, rfl, rfl, fun _ h => (by cases h)⟩
  by_contra hseparator
  rw [Bool.not_eq_false] at hseparator
  have hmem : b ∈ [(0x20 : UInt8), 0x0A, 0x0D, 0x09, 0x3A, 0x2C] := by
    simpa [isSeparator, or_assoc] using hseparator
  rw [hnone b hmem] at h
  cases h

/-- The token of a chunk begins where its separators end. -/
theorem ScalarToken.takeWhile_separators (token : ScalarToken) {lead : Bytes}
    (hlead : ∀ b ∈ lead, isSeparator b = true) (rest : Bytes) :
    (lead ++ (token.bytes ++ rest)).takeWhile isSeparator = lead := by
  obtain ⟨kind, _ | ⟨b, bytes⟩, hopened⟩ := token
  · cases hopened
  · rw [List.takeWhile_append_of_pos hlead, List.cons_append, List.takeWhile_cons_of_neg,
      List.append_nil]
    rw [kind.not_isSeparator hopened]
    exact Bool.false_ne_true

end Fluxcope.Library
