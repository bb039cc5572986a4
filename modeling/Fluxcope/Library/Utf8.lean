import Mathlib.Algebra.Order.Ring.Nat
import Mathlib.Data.List.Basic
/-!
# UTF-8 validation and lossy decoding

Texts are the lists of their UTF-8 bytes.  `front` classifies the first
character of a byte string the way the standard validation loop does; the
position and the length of an error follow from it, and so does the lossy
decoding, which replaces every maximal malformed piece by U+FFFD.
-/

namespace Fluxcope.Library.Utf8

/-- A text, or any byte string that is yet to be validated. -/
abbrev Bytes := List UInt8

instance : LawfulBEq Bytes := inferInstance

instance : LawfulBEq (List Bytes) := inferInstance

/-- What the front of a byte string holds.  `malformed none` is a character cut
off by the end of the input, `malformed (some n)` a malformed piece of `n` bytes. -/
inductive Front
  | done
  | scalar (width : Nat)
  | malformed (errorLen : Option Nat)
  deriving DecidableEq, Repr

def isContinuation (b : UInt8) : Bool := 0x80 ≤ b && b ≤ 0xBF

/-- The bytes that may follow the first byte of a character of three or four bytes. -/
def secondByteOk (first second : UInt8) : Bool :=
  if first = 0xE0 then 0xA0 ≤ second && second ≤ 0xBF
  else if first = 0xED then 0x80 ≤ second && second ≤ 0x9F
  else if first = 0xF0 then 0x90 ≤ second && second ≤ 0xBF
  else if first = 0xF4 then 0x80 ≤ second && second ≤ 0x8F
  else isContinuation second

/-- The number of bytes announced by a first byte, 0 if none may start with it. -/
def charWidth (first : UInt8) : Nat :=
  if first < 0x80 then 1
  else if 0xC2 ≤ first && first ≤ 0xDF then 2
  else if 0xE0 ≤ first && first ≤ 0xEF then 3
  else if 0xF0 ≤ first && first ≤ 0xF4 then 4
  else 0

def front : Bytes → Front
  | [] => .done
  | first :: rest =>
    match charWidth first, rest with
    | 1, _ => .scalar 1
    | 2, [] => .malformed none
    | 2, second :: _ =>
      if isContinuation second then .scalar 2 else .malformed (some 1)
    | 3, [] => .malformed none
    | 3, second :: rest =>
      if !secondByteOk first second then .malformed (some 1)
      else match rest with
        | [] => .malformed none
        | third :: _ =>
          if isContinuation third then .scalar 3 else .malformed (some 2)
    | 4, [] => .malformed none
    | 4, second :: rest =>
      if !secondByteOk first second then .malformed (some 1)
      else match rest with
        | [] => .malformed none
        | third :: rest =>
          if !isContinuation third then .malformed (some 2)
          else match rest with
            | [] => .malformed none
            | fourth :: _ =>
              if isContinuation fourth then .scalar 4 else .malformed (some 3)
    | _, _ => .malformed (some 1)

/-- Where and how validation stops. -/
structure Utf8Error where
  validUpTo : Nat
  errorLen : Option Nat
  deriving DecidableEq, Repr

def validate : Nat → Bytes → Nat → Option Utf8Error
  | 0, _, _ => none
  | fuel + 1, bytes, position =>
    match front bytes with
    | .done => none
    | .scalar width => validate fuel (bytes.drop width) (position + width)
    | .malformed errorLen => some ⟨position, errorLen⟩

/-- `std::str::from_utf8`: no error, or the first one.  Every character has a
byte at least, so the length is fuel enough. -/
def fromUtf8 (bytes : Bytes) : Option Utf8Error := validate bytes.length bytes 0

/-- U+FFFD. -/
def replacement : Bytes := [0xEF, 0xBF, 0xBD]

def lossy : Nat → Bytes → Bytes
  | 0, _ => []
  | fuel + 1, bytes =>
    match front bytes with
    | .done => []
    | .scalar width => bytes.take width ++ lossy fuel (bytes.drop width)
    | .malformed (some n) => replacement ++ lossy fuel (bytes.drop n)
    | .malformed none => replacement

/-- `String::from_utf8_lossy`. -/
def fromUtf8Lossy (bytes : Bytes) : Bytes := lossy bytes.length bytes

/-- `str::is_char_boundary`. -/
def isCharBoundary (text : Bytes) (index : Nat) : Bool :=
  index == 0 || index == text.length ||
    match text[index]? with
    | some b => !isContinuation b
    | none => false

example : fromUtf8Lossy [0x61, 0xE2, 0x82, 0xFF, 0x62] =
    [0x61, 0xEF, 0xBF, 0xBD, 0xEF, 0xBF, 0xBD, 0x62] := by decide

end Fluxcope.Library.Utf8
