import Fluxcope.Library.JsonPointer
/-!
# Compact JSON texts

What `serde_json::to_string` is documented to write: the members in their order and no white
space.  In a string the quotation mark, the reverse solidus and the controls below U+0020 are
escaped, by a letter if there is one and else by four digits in lower case; all other
characters stand as they are.
-/

namespace Fluxcope.Library

open Utf8

/-- The bytes of a text. -/
def encodeText (s : Text) : Bytes := s.flatMap String.utf8EncodeChar

namespace JsonWriter

def hexDigit (n : Nat) : Char := if n < 10 then Char.ofNat (48 + n) else Char.ofNat (87 + n)

def escapeChar (c : Char) : Text :=
  if c = '"' then ['\\', '"']
  else if c = '\\' then ['\\', '\\']
  else if c.toNat = 0x08 then ['\\', 'b']
  else if c.toNat = 0x0C then ['\\', 'f']
  else if c = '\n' then ['\\', 'n']
  else if c = '\r' then ['\\', 'r']
  else if c = '\t' then ['\\', 't']
  else if c.toNat < 0x20 then
    ['\\', 'u', '0', '0', hexDigit (c.toNat / 16), hexDigit (c.toNat % 16)]
  else [c]

def string (s : Text) : Text := '"' :: (s.flatMap escapeChar ++ ['"'])

def number (n : Nat) : Text := Nat.toDigits 10 n

def boolean (b : Bool) : Text := if b then "true".toList else "false".toList

def option {α : Type} (write : α → Text) : Option α → Text
  | none => "null".toList
  | some value => write value

def array (values : List Text) : Text := '[' :: (List.intercalate [','] values ++ [']'])

def object (fields : List (Text × Text)) : Text :=
  '\x7b' :: (List.intercalate [','] (fields.map fun (name, value) => string name ++ ':' :: value) ++
    ['\x7d'])

/-! ### Lengths -/

theorem utf8Len_intercalate_le (texts : List Text) :
    Text.utf8Len (List.intercalate [','] texts) ≤ (texts.map Text.utf8Len).sum + texts.length := by
  induction texts with
  | nil => exact Nat.le_refl 0
  | cons text texts ih =>
    cases texts with
    | nil =>
      rw [List.intercalate_singleton, List.map_singleton, List.sum_singleton]
      exact Nat.le_add_right _ _
    | cons next texts =>
      have hcomma : Text.utf8Len [','] = 1 := rfl
      rw [List.intercalate_cons_cons, Text.utf8Len_append, Text.utf8Len_append, hcomma,
        List.map_cons, List.sum_cons, List.length_cons]
      omega

def member (field : Text × Text) : Text := string field.1 ++ ':' :: field.2

theorem object_eq (fields : List (Text × Text)) :
    object fields = ['\x7b'] ++ (List.intercalate [','] (fields.map member) ++ ['\x7d']) := rfl

/-- An object with so many fields, whose names and values are not longer than that. -/
theorem utf8Len_object_le {fields : List (Text × Text)} {nameBytes valueBytes : Nat}
    (hnames : ∀ name ∈ fields.map Prod.fst, Text.utf8Len (string name) ≤ nameBytes)
    (hvalues : ∀ value ∈ fields.map Prod.snd, Text.utf8Len value ≤ valueBytes) :
    Text.utf8Len (object fields) ≤ fields.length * (nameBytes + valueBytes + 2) + 2 := by
  have hmembers : ((fields.map member).map Text.utf8Len).sum ≤
      fields.length * (nameBytes + valueBytes + 1) := by
    induction fields with
    | nil => exact Nat.zero_le _
    | cons field fields ih =>
      have hname := hnames field.1 List.mem_cons_self
      have hvalue := hvalues field.2 List.mem_cons_self
      have hrest := ih (fun name h => hnames name (List.mem_cons_of_mem _ h))
        fun value h => hvalues value (List.mem_cons_of_mem _ h)
      have hcolon : Text.utf8Len (':' :: field.2) = 1 + Text.utf8Len field.2 :=
        Text.utf8Len_append [':'] field.2
      rw [List.map_cons, List.map_cons, List.sum_cons, List.length_cons, Nat.succ_mul, member,
        Text.utf8Len_append, hcolon]
      omega
  have hinside := utf8Len_intercalate_le (fields.map member)
  have hopen : Text.utf8Len ['\x7b'] = 1 := rfl
  have hclose : Text.utf8Len ['\x7d'] = 1 := rfl
  have hmarks : fields.length * (nameBytes + valueBytes + 2) =
      fields.length * (nameBytes + valueBytes + 1) + fields.length := Nat.mul_succ _ _
  rw [List.length_map] at hinside
  rw [object_eq, Text.utf8Len_append, Text.utf8Len_append, hopen, hclose]
  omega

theorem utf8Len_digits {s : Text} (h : ∀ c ∈ s, c.isDigit = true) :
    Text.utf8Len s = s.length := by
  induction s with
  | nil => rfl
  | cons c s ih =>
    have hsize : c.utf8Size = 1 := by
      have hdigit := Char.isDigit_iff_toNat.1 (h c List.mem_cons_self)
      rw [Char.utf8Size_eq_one_iff, UInt32.le_iff_toNat_le]
      exact hdigit.2.trans (by decide)
    have hrest := ih fun d hd => h d (List.mem_cons_of_mem c hd)
    have hcons : Text.utf8Len (c :: s) = Text.utf8Len [c] + Text.utf8Len s :=
      Text.utf8Len_append [c] s
    rw [hcons, hrest, List.length_cons]
    simp [Text.utf8Len, hsize, Nat.add_comm]

theorem utf8Len_number_le {n k : Nat} (hk : 0 < k) (h : n < 10 ^ k) :
    Text.utf8Len (number n) ≤ k := by
  rw [number, utf8Len_digits fun c => Nat.isDigit_of_mem_toDigits (by decide) (by decide)]
  exact (Nat.length_toDigits_le_iff (by decide) hk).2 h

end JsonWriter

/-! ## Compact documents -/

/-- A key as a serializer spells it. -/
def KeyToken.compact (key : KeyToken) : KeyToken :=
  { key with bytes := encodeText (JsonWriter.string key.text) }

mutual

/-- The document without blanks, its keys spelled anew. -/
def Json.compact : Json → Json
  | .scalar token => .scalar token
  | .array elements _ => .array elements.compact {}
  | .object members _ => .object members.compact {}

def Elements.compact : Elements → Elements
  | .nil => .nil
  | .cons _ value rest => .cons {} value.compact rest.compact

def Members.compact : Members → Members
  | .nil => .nil
  | .cons _ key _ value rest => .cons {} key.compact {} value.compact rest.compact

end

theorem Elements.length_compact (elements : Elements) :
    elements.compact.length = elements.length := by
  induction elements using Elements.length.induct with
  | case1 => rfl
  | case2 gap value rest ih => exact congrArg Nat.succ ih

theorem Members.keys_compact (members : Members) : members.compact.keys = members.keys := by
  induction members using Members.keys.induct with
  | case1 => rfl
  | case2 gap key colon value rest ih => exact congrArg (key.text :: ·) ih

end Fluxcope.Library

/-!
## JSON strings as bytes

A serializer escapes the bytes of a text one by one: all bytes of a character
beyond ASCII are written as they are.
-/

namespace Fluxcope.Library.JsonString

open Utf8

/-- The digits `0` to `9` and `a` to `f`. -/
def hexDigit (n : UInt8) : UInt8 := if n < 10 then 0x30 + n else 0x57 + n

/-- What is written for a byte that may not stand in a string. -/
def escape (b : UInt8) : Option Bytes :=
  if b = 0x22 then some [0x5C, 0x22]
  else if b = 0x5C then some [0x5C, 0x5C]
  else if b = 0x08 then some [0x5C, 0x62]
  else if b = 0x0C then some [0x5C, 0x66]
  else if b = 0x0A then some [0x5C, 0x6E]
  else if b = 0x0D then some [0x5C, 0x72]
  else if b = 0x09 then some [0x5C, 0x74]
  else if b < 0x20 then some [0x5C, 0x75, 0x30, 0x30, hexDigit (b / 16), hexDigit (b % 16)]
  else none

def escaped (b : UInt8) : Bytes := (escape b).getD [b]

def string (text : Bytes) : Bytes := 0x22 :: (text.flatMap escaped ++ [0x22])

def array (values : List Bytes) : Bytes :=
  0x5B :: (List.intercalate [0x2C] (values.map string) ++ [0x5D])

/-! ## Escaping by bytes and by characters -/

theorem escaped_of_ge {b : UInt8} (h : 0x80 ≤ b.toNat) : escaped b = [b] := by
  have hne : ∀ n : UInt8, n.toNat < 0x80 → b ≠ n := by
    rintro n hn rfl
    omega
  unfold escaped escape
  rw [if_neg (hne _ (by decide)), if_neg (hne _ (by decide)), if_neg (hne _ (by decide)),
    if_neg (hne _ (by decide)), if_neg (hne _ (by decide)), if_neg (hne _ (by decide)),
    if_neg (hne _ (by decide)), if_neg]
  · rfl
  · rw [UInt8.lt_iff_toNat_lt]
    have hblank : (0x20 : UInt8).toNat = 32 := rfl
    omega

theorem le_of_mem_utf8EncodeChar {c : Char} (h : 0x80 ≤ c.toNat) {b : UInt8}
    (hb : b ∈ String.utf8EncodeChar c) : 0x80 ≤ b.toNat := by
  have hval : c.val.toNat = c.toNat := rfl
  unfold String.utf8EncodeChar at hb
  dsimp only at hb
  rw [if_neg (by omega)] at hb
  split at hb
  · rcases List.mem_cons.1 hb with rfl | hb
    · rw [UInt8.toNat_ofNat']
      omega
    · rw [List.mem_singleton.1 hb, UInt8.toNat_ofNat']
      omega
  split at hb
  · rcases List.mem_cons.1 hb with rfl | hb
    · rw [UInt8.toNat_ofNat']
      omega
    rcases List.mem_cons.1 hb with rfl | hb
    · rw [UInt8.toNat_ofNat']
      omega
    · rw [List.mem_singleton.1 hb, UInt8.toNat_ofNat']
      omega
  · rcases List.mem_cons.1 hb with rfl | hb
    · rw [UInt8.toNat_ofNat']
      omega
    rcases List.mem_cons.1 hb with rfl | hb
    · rw [UInt8.toNat_ofNat']
      omega
    rcases List.mem_cons.1 hb with rfl | hb
    · rw [UInt8.toNat_ofNat']
      omega
    · rw [List.mem_singleton.1 hb, UInt8.toNat_ofNat']
      omega

theorem escaped_ascii : ∀ n : Fin 128,
    encodeText (JsonWriter.escapeChar (Char.ofNat n.val)) =
      (String.utf8EncodeChar (Char.ofNat n.val)).flatMap escaped := by
  decide +kernel

theorem escaped_char (c : Char) :
    encodeText (JsonWriter.escapeChar c) = (String.utf8EncodeChar c).flatMap escaped := by
  by_cases hascii : c.toNat < 128
  · have h := escaped_ascii ⟨c.toNat, hascii⟩
    rwa [Char.ofNat_toNat] at h
  · have hself : (String.utf8EncodeChar c).flatMap escaped = String.utf8EncodeChar c := by
      have hall : ∀ b ∈ String.utf8EncodeChar c, escaped b = [b] := fun b hb =>
        escaped_of_ge (le_of_mem_utf8EncodeChar (Nat.le_of_not_lt hascii) hb)
      rw [List.flatMap_congr hall]
      exact List.flatMap_singleton' _
    have hne : ∀ d : Char, d.toNat < 128 → c ≠ d := by
      rintro d hd rfl
      exact hascii hd
    rw [hself, JsonWriter.escapeChar, if_neg (hne _ (by decide)), if_neg (hne _ (by decide)),
      if_neg (by omega), if_neg (by omega), if_neg (hne _ (by decide)), if_neg (hne _ (by decide)),
      if_neg (hne _ (by decide)), if_neg (by omega)]
    simp [encodeText]

/-- Escaping the bytes of a text is escaping its characters. -/
theorem string_encodeText (s : Text) : string (encodeText s) = encodeText (JsonWriter.string s) := by
  have hchars : ∀ s : Text, (encodeText s).flatMap escaped =
      encodeText (s.flatMap JsonWriter.escapeChar) := by
    intro s
    induction s with
    | nil => rfl
    | cons c s ih =>
      simp only [encodeText, List.flatMap_cons, List.flatMap_append] at ih ⊢
      rw [ih, ← escaped_char]
      rfl
  rw [string, hchars, JsonWriter.string]
  simp only [encodeText, List.flatMap_cons, List.flatMap_append, List.flatMap_nil]
  rfl

theorem array_encodeText (texts : List Text) :
    array (texts.map encodeText) = encodeText (JsonWriter.array (texts.map JsonWriter.string)) := by
  have hitems : ∀ texts : List Text, List.intercalate [0x2C] ((texts.map encodeText).map string) =
      encodeText (List.intercalate [','] (texts.map JsonWriter.string)) := by
    intro texts
    induction texts with
    | nil => rfl
    | cons s texts ih =>
      cases texts with
      | nil => simp [string_encodeText]
      | cons next texts =>
        simp only [List.map_cons, List.intercalate_cons_cons] at ih ⊢
        rw [ih, string_encodeText]
        simp only [encodeText, List.flatMap_append, List.flatMap_cons, List.flatMap_nil]
        rfl
  rw [array, hitems, JsonWriter.array]
  simp only [encodeText, List.flatMap_cons, List.flatMap_append, List.flatMap_nil]
  rfl

end Fluxcope.Library.JsonString
