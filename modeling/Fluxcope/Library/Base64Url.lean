import Fluxcope.Library.Digits
/-!
# Base64 for URLs

The engine `URL_SAFE_NO_PAD` of the crate `base64`: the URL-safe alphabet, no padding.  As
documented, decoding refuses padding and a text with bits behind the last byte.
-/

namespace Fluxcope.Library.Base64Url

open Utf8

/-- The symbol of a value below 64. -/
def symbol (value : Nat) : UInt8 :=
  if value < 26 then UInt8.ofNat (0x41 + value)
  else if value < 52 then UInt8.ofNat (0x61 + (value - 26))
  else if value < 62 then UInt8.ofNat (0x30 + (value - 52))
  else if value = 62 then 0x2D
  else 0x5F

def symbolValue (byte : UInt8) : Option Nat :=
  let n := byte.toNat
  if 0x41 ≤ n ∧ n ≤ 0x5A then some (n - 0x41)
  else if 0x61 ≤ n ∧ n ≤ 0x7A then some (n - 0x61 + 26)
  else if 0x30 ≤ n ∧ n ≤ 0x39 then some (n - 0x30 + 52)
  else if n = 0x2D then some 62
  else if n = 0x5F then some 63
  else none

def encode : Bytes → Bytes
  | [] => []
  | [a] => [symbol (a.toNat / 4), symbol (a.toNat % 4 * 16)]
  | [a, b] =>
    let n := a.toNat * 0x100 + b.toNat
    [symbol (n / 0x400), symbol (n / 0x10 % 64), symbol (n % 0x10 * 4)]
  | a :: b :: c :: rest =>
    let n := a.toNat * 0x10000 + b.toNat * 0x100 + c.toNat
    symbol (n / 0x40000) :: symbol (n / 0x1000 % 64) :: symbol (n / 0x40 % 64) ::
      symbol (n % 64) :: encode rest

def decode : Bytes → Option Bytes
  | [] => some []
  | [_] => none
  | [a, b] => do
      let n := (← symbolValue a) * 64 + (← symbolValue b)
      if n % 16 = 0 then some [UInt8.ofNat (n / 16)] else none
  | [a, b, c] => do
      let n := (← symbolValue a) * 0x1000 + (← symbolValue b) * 64 + (← symbolValue c)
      if n % 4 = 0 then some [UInt8.ofNat (n / 0x400), UInt8.ofNat (n / 4 % 0x100)] else none
  | a :: b :: c :: d :: rest => do
      let n := (← symbolValue a) * 0x40000 + (← symbolValue b) * 0x1000 +
        (← symbolValue c) * 64 + (← symbolValue d)
      let bytes ← decode rest
      some (UInt8.ofNat (n / 0x10000) :: UInt8.ofNat (n / 0x100 % 0x100) ::
        UInt8.ofNat (n % 0x100) :: bytes)

/-! ## Reading what was written -/

theorem symbolValue_symbol {value : Nat} (h : value < 64) :
    symbolValue (symbol value) = some value := by
  have hall : ∀ value < 64, symbolValue (symbol value) = some value := by decide +kernel
  exact hall value h

theorem ofNat_eq {byte : UInt8} {n : Nat} (h : n = byte.toNat) : UInt8.ofNat n = byte := by
  rw [h, UInt8.ofNat_toNat]

theorem decode_encode (bytes : Bytes) : decode (encode bytes) = some bytes := by
  induction bytes using encode.induct with
  | case1 => rfl
  | case2 a =>
    have ha := a.toNat_lt
    rw [encode, decode, symbolValue_symbol (by omega), symbolValue_symbol (by omega)]
    simp only [Option.bind_eq_bind, Option.bind_some]
    rw [if_pos (by omega), @ofNat_eq a _ (by omega)]
  | case3 a b =>
    have ha := a.toNat_lt
    have hb := b.toNat_lt
    rw [encode, decode, symbolValue_symbol (by omega), symbolValue_symbol (by omega),
      symbolValue_symbol (by omega)]
    simp only [Option.bind_eq_bind, Option.bind_some]
    rw [if_pos (by omega), @ofNat_eq a _ (by omega), @ofNat_eq b _ (by omega)]
  | case4 a b c rest ih =>
    have ha := a.toNat_lt
    have hb := b.toNat_lt
    have hc := c.toNat_lt
    rw [encode, decode, symbolValue_symbol (by omega), symbolValue_symbol (by omega),
      symbolValue_symbol (by omega), symbolValue_symbol (by omega), ih]
    simp only [Option.bind_eq_bind, Option.bind_some]
    rw [@ofNat_eq a _ (by omega), @ofNat_eq b _ (by omega), @ofNat_eq c _ (by omega)]

/-- Letters, digits, the hyphen and the low line. -/
def isSymbol (byte : UInt8) : Bool :=
  (0x30 ≤ byte && byte ≤ 0x39) || (0x41 ≤ byte && byte ≤ 0x5A) || (0x61 ≤ byte && byte ≤ 0x7A) ||
    byte = 0x2D || byte = 0x5F

theorem isSymbol_symbol {value : Nat} (h : value < 64) : isSymbol (symbol value) = true := by
  have hall : ∀ value < 64, isSymbol (symbol value) = true := by decide +kernel
  exact hall value h

theorem isSymbol_of_mem_encode (bytes : Bytes) : ∀ byte ∈ encode bytes, isSymbol byte = true := by
  have hcons : ∀ (value : Nat) (rest : Bytes), value < 64 →
      (∀ byte ∈ rest, isSymbol byte = true) → ∀ byte ∈ symbol value :: rest, isSymbol byte = true := by
    intro value rest hvalue hrest byte hbyte
    rcases List.mem_cons.1 hbyte with rfl | hbyte
    · exact isSymbol_symbol hvalue
    · exact hrest byte hbyte
  have hnil : ∀ byte ∈ ([] : Bytes), isSymbol byte = true := fun _ h => nomatch h
  induction bytes using encode.induct with
  | case1 => exact hnil
  | case2 a =>
    have ha := a.toNat_lt
    exact hcons _ _ (by omega) (hcons _ _ (by omega) hnil)
  | case3 a b =>
    have ha := a.toNat_lt
    have hb := b.toNat_lt
    exact hcons _ _ (by omega) (hcons _ _ (by omega) (hcons _ _ (by omega) hnil))
  | case4 a b c rest ih =>
    have ha := a.toNat_lt
    have hb := b.toNat_lt
    have hc := c.toNat_lt
    exact hcons _ _ (by omega) (hcons _ _ (by omega) (hcons _ _ (by omega)
      (hcons _ _ (by omega) ih)))

/-- Three bytes are four symbols. -/
theorem length_encode (bytes : Bytes) : (encode bytes).length = (4 * bytes.length + 2) / 3 := by
  induction bytes using encode.induct with
  | case1 => rfl
  | case2 a =>
    rw [encode]
    simp only [List.length_cons, List.length_nil]
  | case3 a b =>
    rw [encode]
    simp only [List.length_cons, List.length_nil]
  | case4 a b c rest ih =>
    rw [encode]
    simp only [List.length_cons]
    omega

end Fluxcope.Library.Base64Url
