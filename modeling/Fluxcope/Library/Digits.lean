import Fluxcope.Library.Utf8Text
/-!
# Digits

The digits of a number in a base up to sixteen are what is read back as this
number, and a decimal text without leading zeros is the text of its number.
-/

namespace Fluxcope.Library.Utf8

/-! ## Writing and reading -/

def digitByte (value : Nat) : UInt8 := UInt8.ofNat value.digitChar.toNat

/-- The lower-case digits of a number. -/
def digits (base n : Nat) : Bytes := (Nat.toDigits base n).map fun c => UInt8.ofNat c.toNat

def hexadecimal (n : Nat) : Bytes := digits 16 n

/-- `char::to_digit` -/
def toDigit (radix : Nat) (byte : UInt8) : Option Nat :=
  let n := byte.toNat
  let value :=
    if 0x30 ≤ n ∧ n ≤ 0x39 then some (n - 0x30)
    else if 0x41 ≤ n ∧ n ≤ 0x5A then some (n - 0x41 + 10)
    else if 0x61 ≤ n ∧ n ≤ 0x7A then some (n - 0x61 + 10)
    else none
  value.filter (· < radix)

def isAsciiDigit (byte : UInt8) : Bool := 0x30 ≤ byte && byte ≤ 0x39

/-- The number with these decimal digits. -/
def decimalValue (text : Bytes) : Nat := text.foldl (fun n byte => n * 10 + (byte.toNat - 0x30)) 0

/-! ## Single digits -/

theorem toNat_digitByte {value : Nat} (h : value < 16) :
    (digitByte value).toNat = if value < 10 then 0x30 + value else 0x57 + value := by
  have hall : ∀ value < 16, (digitByte value).toNat =
      if value < 10 then 0x30 + value else 0x57 + value := by decide +kernel
  exact hall value h

theorem toDigit_digitByte {radix value : Nat} (hradix : radix ≤ 16) (h : value < radix) :
    toDigit radix (digitByte value) = some value := by
  have hvalue := toNat_digitByte (Nat.lt_of_lt_of_le h hradix)
  unfold toDigit
  dsimp only
  by_cases hten : value < 10
  · rw [if_pos hten] at hvalue
    rw [hvalue, if_pos (by omega), Nat.add_sub_cancel_left]
    simp [h]
  · rw [if_neg hten] at hvalue
    rw [hvalue, if_neg (by omega), if_neg (by omega), if_pos (by omega)]
    have hback : 0x57 + value - 0x61 + 10 = value := by omega
    rw [hback]
    simp [h]

theorem toDigit_mono {radix radix' : Nat} (h : radix ≤ radix') {byte : UInt8}
    (hnone : toDigit radix' byte = none) : toDigit radix byte = none := by
  unfold toDigit at *
  dsimp only at *
  rw [Option.filter_eq_none_iff] at *
  intro value hvalue hlt
  exact hnone value hvalue (decide_eq_true (Nat.lt_of_lt_of_le (of_decide_eq_true hlt) h))

theorem isAsciiDigit_iff {byte : UInt8} :
    isAsciiDigit byte = true ↔ 0x30 ≤ byte.toNat ∧ byte.toNat ≤ 0x39 := by
  simp [isAsciiDigit, UInt8.le_iff_toNat_le]

theorem digitByte_of_isAsciiDigit {byte : UInt8} (h : isAsciiDigit byte = true) :
    digitByte (byte.toNat - 0x30) = byte := by
  have hrange := isAsciiDigit_iff.1 h
  refine UInt8.toNat_inj.1 ?_
  rw [toNat_digitByte (by omega), if_pos (by omega)]
  omega

/-! ## The digits of a number -/

theorem digits_of_lt {base n : Nat} (h : n < base) : digits base n = [digitByte n] := by
  rw [digits, Nat.toDigits_of_lt_base h]
  rfl

theorem digits_of_le {base n : Nat} (hbase : 1 < base) (h : base ≤ n) :
    digits base n = digits base (n / base) ++ [digitByte (n % base)] := by
  rw [digits, Nat.toDigits_of_base_le hbase h, List.map_append]
  rfl

/-- What holds of the texts with one digit and is kept by another one behind holds of all digits. -/
theorem digits_induction {base : Nat} (hbase : 1 < base) {motive : Nat → Bytes → Prop}
    (first : ∀ n < base, motive n [digitByte n])
    (next : ∀ n digit text, 0 < n → digit < base → motive n text →
      motive (n * base + digit) (text ++ [digitByte digit])) (n : Nat) :
    motive n (digits base n) := by
  induction n using Nat.strong_induction_on with
  | _ n ih =>
    by_cases hlt : n < base
    · rw [digits_of_lt hlt]
      exact first n hlt
    · have hle := Nat.le_of_not_lt hlt
      have hpos : 0 < n / base := Nat.div_pos hle (by omega)
      have hmod : n % base < base := Nat.mod_lt n (by omega)
      have hn : n / base * base + n % base = n := Nat.div_add_mod' n base
      have hstep := next (n / base) (n % base) (digits base (n / base)) hpos hmod
        (ih (n / base) (Nat.div_lt_self (by omega) hbase))
      rw [hn] at hstep
      rw [digits_of_le hbase hle]
      exact hstep

theorem digits_ne_nil {base n : Nat} : digits base n ≠ [] := by
  rw [digits, Ne, List.map_eq_nil_iff]
  exact Nat.toDigits_ne_nil

theorem length_digits_le_iff {base n k : Nat} (hbase : 1 < base) (hk : 0 < k) :
    (digits base n).length ≤ k ↔ n < base ^ k := by
  rw [digits, List.length_map]
  exact Nat.length_toDigits_le_iff hbase hk

theorem mem_digits {base : Nat} (hbase : 1 < base) (n : Nat) :
    ∀ byte ∈ digits base n, ∃ value < base, byte = digitByte value := by
  refine digits_induction hbase (motive := fun _ text =>
    ∀ byte ∈ text, ∃ value < base, byte = digitByte value) ?_ ?_ n
  · intro n hn byte hbyte
    exact ⟨n, hn, List.mem_singleton.1 hbyte⟩
  · intro n digit text _ hdigit ih byte hbyte
    rcases List.mem_append.1 hbyte with hbyte | hbyte
    · exact ih byte hbyte
    · exact ⟨digit, hdigit, List.mem_singleton.1 hbyte⟩

/-- Only zero begins with a zero. -/
theorem head?_digits {base n : Nat} (hbase : 1 < base) (hsmall : base ≤ 16)
    (h : (digits base n).head? = some 0x30) : n = 0 := by
  have hboth := digits_induction hbase (motive := fun n text =>
    text ≠ [] ∧ (text.head? = some 0x30 → n = 0)) ?_ ?_ n
  · exact hboth.2 h
  · intro n hn
    refine ⟨by simp, fun hhead => ?_⟩
    have hvalue := congrArg UInt8.toNat (Option.some.inj hhead)
    rw [toNat_digitByte (by omega)] at hvalue
    split at hvalue
    all_goals simp at hvalue
    all_goals omega
  · intro n digit text hpos _ ih
    refine ⟨by simp, fun hhead => ?_⟩
    rw [List.head?_append_of_ne_nil _ ih.1] at hhead
    exact absurd (ih.2 hhead) (Nat.ne_of_gt hpos)

/-! ## Decimal texts -/

theorem decimal_eq_digits (n : Nat) : decimal n = digits 10 n := rfl

theorem decimalValue_concat (text : Bytes) (byte : UInt8) :
    decimalValue (text ++ [byte]) = decimalValue text * 10 + (byte.toNat - 0x30) := by
  rw [decimalValue, List.foldl_append]
  rfl

theorem decimalValue_decimal (n : Nat) : decimalValue (decimal n) = n := by
  refine digits_induction (by decide) (motive := fun n text => decimalValue text = n) ?_ ?_ n
  · intro n hn
    have hbyte := toNat_digitByte (show n < 16 by omega)
    rw [if_pos hn] at hbyte
    show 0 * 10 + ((digitByte n).toNat - 0x30) = n
    omega
  · intro n digit text _ hdigit ih
    have hbyte := toNat_digitByte (show digit < 16 by omega)
    rw [if_pos hdigit] at hbyte
    rw [decimalValue_concat, ih, hbyte, Nat.add_sub_cancel_left]

/-- Decimal digits without a zero in front, or a single one. -/
structure CanonicalDecimal (text : Bytes) : Prop where
  ne_nil : text ≠ []
  all_digits : ∀ byte ∈ text, isAsciiDigit byte = true
  no_zero : text.length > 1 → text.head? ≠ some 0x30

theorem canonicalDecimal_decimal (n : Nat) : CanonicalDecimal (decimal n) where
  ne_nil := digits_ne_nil
  all_digits := by
    intro byte hbyte
    obtain ⟨value, hvalue, rfl⟩ := mem_digits (by decide) n byte hbyte
    rw [isAsciiDigit_iff, toNat_digitByte (by omega), if_pos hvalue]
    omega
  no_zero := by
    intro hlength hhead
    rw [head?_digits (by decide) (by decide) hhead] at hlength
    exact absurd hlength (by decide)

theorem CanonicalDecimal.decimal_decimalValue {text : Bytes} (h : CanonicalDecimal text) :
    decimal (decimalValue text) = text := by
  induction text using List.reverseRecOn with
  | nil => exact absurd rfl h.ne_nil
  | append_singleton text byte ih =>
    have hbyte := h.all_digits byte (by simp)
    have hrange := isAsciiDigit_iff.1 hbyte
    rw [decimalValue_concat]
    cases text with
    | nil =>
      have hlt : byte.toNat - 0x30 < 10 := by omega
      show digits 10 (0 * 10 + (byte.toNat - 0x30)) = [byte]
      rw [Nat.zero_mul, Nat.zero_add, digits_of_lt hlt, digitByte_of_isAsciiDigit hbyte]
    | cons first text =>
      have hfirst : first ≠ 0x30 := fun heq => h.no_zero (by simp) (by rw [heq]; rfl)
      have hread := ih
        { ne_nil := by simp
          all_digits := fun b hb => h.all_digits b (List.mem_append_left _ hb)
          no_zero := fun _ hhead => hfirst (Option.some.inj hhead) }
      have hpos : 0 < decimalValue (first :: text) := by
        refine Nat.pos_of_ne_zero fun hzero => hfirst ?_
        rw [hzero] at hread
        exact (List.cons.inj hread).1.symm
      have hlt : byte.toNat - 0x30 < 10 := by omega
      rw [decimal_eq_digits, digits_of_le (by decide) (by omega), Nat.mul_add_mod',
        Nat.mod_eq_of_lt hlt, digitByte_of_isAsciiDigit hbyte, Nat.mul_comm, Nat.mul_add_div (by decide),
        Nat.div_eq_of_lt hlt, Nat.add_zero, ← decimal_eq_digits, hread]

end Fluxcope.Library.Utf8
