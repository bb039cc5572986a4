import Mathlib.Data.List.TakeWhile
import Fluxcope.Library.Utf8Lossy
/-!
# Forms

The parser for `application/x-www-form-urlencoded` and its serializer, as the URL standard
defines them and the crate `form_urlencoded` implements them.  A body is a sequence of pieces
between ampersands, a piece a name and a value around its first equals sign, and
both are decoded by replacing plus signs, resolving percent escapes and decoding
the bytes lossily.
-/

namespace Fluxcope.Library.FormUrlencoded

open Utf8

def ampersand : UInt8 := 0x26

def equalsSign : UInt8 := 0x3D

def percentSign : UInt8 := 0x25

def plusSign : UInt8 := 0x2B

/-! ## Components -/

/-- The value of a hexadecimal digit. -/
def hexDigitValue (byte : UInt8) : Option UInt8 :=
  if 0x30 ≤ byte && byte ≤ 0x39 then some (byte - 0x30)
  else if 0x61 ≤ byte && byte ≤ 0x66 then some (byte - 0x61 + 10)
  else if 0x41 ≤ byte && byte ≤ 0x46 then some (byte - 0x41 + 10)
  else none

def plusToSpace (byte : UInt8) : UInt8 := if byte = plusSign then 0x20 else byte

/-- Percent escapes are resolved where two digits follow the sign. -/
def percentDecode : Bytes → Bytes
  | [] => []
  | [byte] => [byte]
  | [byte, next] => [byte, next]
  | byte :: high :: low :: rest =>
    if byte = percentSign then
      match hexDigitValue high, hexDigitValue low with
      | some h, some l => (h <<< 4 ||| l) :: percentDecode rest
      | _, _ => byte :: percentDecode (high :: low :: rest)
    else byte :: percentDecode (high :: low :: rest)

/-- The bytes a component stands for. -/
def componentBytes (component : Bytes) : Bytes := percentDecode (component.map plusToSpace)

/-- The text a component stands for. -/
def decodeComponent (component : Bytes) : Bytes := fromUtf8Lossy (componentBytes component)

/-! ## Pairs -/

def pieceName (piece : Bytes) : Bytes := piece.takeWhile (· ≠ equalsSign)

def pieceValue (piece : Bytes) : Bytes := (piece.dropWhile (· ≠ equalsSign)).drop 1

/-- The pairs of a form in order; empty pieces are no pairs. -/
def parse (input : Bytes) : List (Bytes × Bytes) :=
  ((input.splitOn ampersand).filter (· ≠ [])).map fun piece =>
    (decodeComponent (pieceName piece), decodeComponent (pieceValue piece))


/-! ## Writing -/

/-- The bytes that the serializer keeps. -/
def byteSerializedUnchanged (byte : UInt8) : Bool :=
  byte = 0x2A || byte = 0x2D || byte = 0x2E || (0x30 ≤ byte && byte ≤ 0x39) ||
    (0x41 ≤ byte && byte ≤ 0x5A) || byte = 0x5F || (0x61 ≤ byte && byte ≤ 0x7A)

def upperHexDigit (value : UInt8) : UInt8 := if value < 10 then 0x30 + value else 0x41 + (value - 10)

def serializeByte (byte : UInt8) : Bytes :=
  if byteSerializedUnchanged byte then [byte]
  else if byte = 0x20 then [plusSign]
  else [percentSign, upperHexDigit (byte >>> 4), upperHexDigit (byte &&& 0x0F)]

def serializeComponent (text : Bytes) : Bytes := text.flatMap serializeByte

def serializePair (pair : Bytes × Bytes) : Bytes :=
  serializeComponent pair.1 ++ equalsSign :: serializeComponent pair.2

/-- Pairs that are appended one after the other. -/
def serialize (pairs : List (Bytes × Bytes)) : Bytes :=
  [ampersand].intercalate (pairs.map serializePair)

/-! ## Reading a component byte by byte -/

theorem hexDigitValue_plusToSpace (byte : UInt8) :
    hexDigitValue (plusToSpace byte) = hexDigitValue byte := by
  unfold plusToSpace
  split
  · rename_i hplus
    rw [hplus]
    decide
  · rfl

@[simp] theorem componentBytes_nil : componentBytes [] = [] := rfl

theorem percentDecode_cons {byte : UInt8} (h : byte ≠ percentSign) (rest : Bytes) :
    percentDecode (byte :: rest) = byte :: percentDecode rest := by
  match rest with
  | [] => rfl
  | [_] => rfl
  | _ :: _ :: _ => rw [percentDecode, if_neg h]

/-- A plus sign is a blank. -/
theorem componentBytes_plus (rest : Bytes) :
    componentBytes (plusSign :: rest) = 0x20 :: componentBytes rest := by
  unfold componentBytes
  rw [List.map_cons, plusToSpace, if_pos rfl]
  exact percentDecode_cons (by decide) _

/-- Other bytes stand for themselves. -/
theorem componentBytes_other {byte : UInt8} (hplus : byte ≠ plusSign) (hpercent : byte ≠ percentSign)
    (rest : Bytes) : componentBytes (byte :: rest) = byte :: componentBytes rest := by
  unfold componentBytes
  rw [List.map_cons, plusToSpace, if_neg hplus]
  exact percentDecode_cons hpercent _

theorem componentBytes_escape {high low h l : UInt8} (hhigh : hexDigitValue high = some h)
    (hlow : hexDigitValue low = some l) (rest : Bytes) :
    componentBytes (percentSign :: high :: low :: rest) = (h <<< 4 ||| l) :: componentBytes rest := by
  unfold componentBytes
  rw [List.map_cons, List.map_cons, List.map_cons, plusToSpace, if_neg (by decide), percentDecode,
    if_pos rfl, hexDigitValue_plusToSpace, hexDigitValue_plusToSpace, hhigh, hlow]

/-- A percent sign without two digits behind it stands for itself. -/
theorem componentBytes_percent {rest : Bytes}
    (h : ∀ high low tail, rest = high :: low :: tail →
      hexDigitValue high = none ∨ hexDigitValue low = none) :
    componentBytes (percentSign :: rest) = percentSign :: componentBytes rest := by
  have hpercent : plusToSpace percentSign = percentSign := by decide
  match rest with
  | [] => rfl
  | [next] => rfl
  | high :: low :: tail =>
    unfold componentBytes
    rw [List.map_cons, hpercent, List.map_cons, List.map_cons, percentDecode, if_pos rfl,
      hexDigitValue_plusToSpace, hexDigitValue_plusToSpace]
    rcases h high low tail rfl with hnone | hnone
    · rw [hnone]
    · rw [hnone]
      cases hexDigitValue high <;> rfl

/-! ## Reading what was written -/

/-- The bytes that stand in a serialized component. -/
def isComponentByte (byte : UInt8) : Bool :=
  byteSerializedUnchanged byte || byte = plusSign || byte = percentSign

theorem hexDigitValue_upperHexDigit {value : UInt8} (h : value.toNat < 16) :
    hexDigitValue (upperHexDigit value) = some value := by
  have hall : ∀ n < 16, hexDigitValue (upperHexDigit (UInt8.ofNat n)) = some (UInt8.ofNat n) := by
    decide +kernel
  have hvalue := hall value.toNat h
  rwa [UInt8.ofNat_toNat] at hvalue

theorem byteSerializedUnchanged_upperHexDigit {value : UInt8} (h : value.toNat < 16) :
    byteSerializedUnchanged (upperHexDigit value) = true := by
  have hall : ∀ n < 16, byteSerializedUnchanged (upperHexDigit (UInt8.ofNat n)) = true := by
    decide +kernel
  have hvalue := hall value.toNat h
  rwa [UInt8.ofNat_toNat] at hvalue

theorem high_lt (byte : UInt8) : (byte >>> 4).toNat < 16 := by
  have hbyte := byte.toNat_lt
  rw [UInt8.toNat_shiftRight, Nat.shiftRight_eq_div_pow]
  exact Nat.div_lt_of_lt_mul hbyte

theorem low_lt (byte : UInt8) : (byte &&& 0x0F).toNat < 16 := by
  rw [UInt8.toNat_and]
  exact Nat.lt_of_le_of_lt Nat.and_le_right (by decide)

/-- A byte is made of its two digits. -/
theorem joined_digits (byte : UInt8) : (byte >>> 4) <<< 4 ||| (byte &&& 0x0F) = byte := by
  have hall : ∀ n < 256, (UInt8.ofNat n >>> 4) <<< 4 ||| (UInt8.ofNat n &&& 0x0F) =
      UInt8.ofNat n := by decide +kernel
  have hbyte := hall byte.toNat byte.toNat_lt
  rwa [UInt8.ofNat_toNat] at hbyte

theorem serializeByte_componentBytes (byte : UInt8) (rest : Bytes) :
    componentBytes (serializeByte byte ++ rest) = byte :: componentBytes rest := by
  unfold serializeByte
  split
  case isTrue hkept =>
    refine componentBytes_other ?_ ?_ rest
    all_goals
      rintro rfl
      revert hkept
      decide
  case isFalse =>
    split
    case isTrue hblank =>
      rw [hblank]
      exact componentBytes_plus rest
    case isFalse =>
      have hescape := componentBytes_escape (hexDigitValue_upperHexDigit (high_lt byte))
        (hexDigitValue_upperHexDigit (low_lt byte)) rest
      rw [joined_digits] at hescape
      exact hescape

theorem componentBytes_serializeComponent (text : Bytes) :
    componentBytes (serializeComponent text) = text := by
  induction text with
  | nil => rfl
  | cons byte text ih =>
    rw [serializeComponent, List.flatMap_cons, serializeByte_componentBytes]
    exact congrArg (byte :: ·) ih

theorem decodeComponent_serializeComponent {text : Bytes} (h : Valid text) :
    decodeComponent (serializeComponent text) = text := by
  rw [decodeComponent, componentBytes_serializeComponent, fromUtf8Lossy_of_valid h]

theorem isComponentByte_of_mem {text : Bytes} {byte : UInt8} (h : byte ∈ serializeComponent text) :
    isComponentByte byte = true := by
  obtain ⟨source, -, hbyte⟩ := List.mem_flatMap.1 h
  have hkept : ∀ b, byteSerializedUnchanged b = true → isComponentByte b = true := by
    intro b hb
    rw [isComponentByte, hb]
    rfl
  unfold serializeByte at hbyte
  split at hbyte
  case isTrue hsource => exact hkept _ (List.mem_singleton.1 hbyte ▸ hsource)
  case isFalse =>
    split at hbyte
    case isTrue => exact List.mem_singleton.1 hbyte ▸ (by decide)
    case isFalse =>
      rcases List.mem_cons.1 hbyte with rfl | hbyte
      · decide
      rcases List.mem_cons.1 hbyte with rfl | hbyte
      · exact hkept _ (byteSerializedUnchanged_upperHexDigit (high_lt source))
      · rw [List.mem_singleton.1 hbyte]
        exact hkept _ (byteSerializedUnchanged_upperHexDigit (low_lt source))

theorem ampersand_notMem_serializeComponent (text : Bytes) :
    ampersand ∉ serializeComponent text := by
  intro h
  exact absurd (isComponentByte_of_mem h) (by decide)

theorem equalsSign_notMem_serializeComponent (text : Bytes) :
    equalsSign ∉ serializeComponent text := by
  intro h
  exact absurd (isComponentByte_of_mem h) (by decide)

theorem serializeComponent_eq_nil_iff {text : Bytes} : serializeComponent text = [] ↔ text = [] := by
  constructor
  · intro h
    rw [← componentBytes_serializeComponent text, h]
    rfl
  · rintro rfl
    rfl

/-! ## Pieces -/

/-- A piece without an equals sign is a name without a value. -/
theorem piece_of_no_equals {piece : Bytes} (h : equalsSign ∉ piece) :
    pieceName piece = piece ∧ pieceValue piece = [] := by
  have hall : ∀ b ∈ piece, (decide (b ≠ equalsSign)) = true := by
    intro b hb
    exact decide_eq_true fun heq => h (heq ▸ hb)
  refine ⟨List.takeWhile_eq_self_iff.2 hall, ?_⟩
  rw [pieceValue, List.dropWhile_eq_nil_iff.2 hall]
  rfl

theorem piece_of_equals {name value : Bytes} (h : equalsSign ∉ name) :
    pieceName (name ++ equalsSign :: value) = name ∧
      pieceValue (name ++ equalsSign :: value) = value := by
  have hall : ∀ b ∈ name, (decide (b ≠ equalsSign)) = true := by
    intro b hb
    exact decide_eq_true fun heq => h (heq ▸ hb)
  constructor
  · rw [pieceName, List.takeWhile_append_of_pos hall]
    simp
  · rw [pieceValue, List.dropWhile_append_of_pos hall]
    simp

theorem parse_cons_of_ne {piece : Bytes} {rest : Bytes} (h : ampersand ∉ piece)
    (hne : piece ≠ []) :
    parse (piece ++ ampersand :: rest) =
      (decodeComponent (pieceName piece), decodeComponent (pieceValue piece)) :: parse rest := by
  unfold parse
  rw [List.splitOn_append_cons_self_of_not_mem h, List.filter_cons_of_pos (by simpa using hne),
    List.map_cons]

theorem parse_last {piece : Bytes} (h : ampersand ∉ piece) (hne : piece ≠ []) :
    parse piece = [(decodeComponent (pieceName piece), decodeComponent (pieceValue piece))] := by
  unfold parse
  rw [List.splitOn_eq_singleton h, List.filter_cons_of_pos (by simpa using hne)]
  rfl

theorem parse_ampersand (rest : Bytes) : parse (ampersand :: rest) = parse rest := by
  unfold parse
  have hsplit := @List.splitOn_append_cons_self_of_not_mem _ [] _ _ ampersand
    List.not_mem_nil rest
  rw [List.nil_append] at hsplit
  rw [hsplit, List.filter_cons_of_neg (by simp)]

@[simp] theorem parse_nil : parse [] = [] := by
  unfold parse
  rw [List.splitOn_nil]
  rfl

end Fluxcope.Library.FormUrlencoded
