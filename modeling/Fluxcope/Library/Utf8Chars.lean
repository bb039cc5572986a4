import Fluxcope.Library.Utf8Text
import Mathlib.Data.List.Forall2
import Fluxcope.Library.Text
/-!
# Well-formed byte sequences and their characters

The rows of the Unicode table of well-formed UTF-8 byte sequences, and the proof
that validation accepts exactly the sequences it describes.
-/

namespace Fluxcope.Library.Utf8

/-- Each row gives the ranges of the bytes of a character. -/
def wellFormedRows : List (List (UInt8 × UInt8)) :=
  [[(0x00, 0x7F)],
    [(0xC2, 0xDF), (0x80, 0xBF)],
    [(0xE0, 0xE0), (0xA0, 0xBF), (0x80, 0xBF)],
    [(0xE1, 0xEC), (0x80, 0xBF), (0x80, 0xBF)],
    [(0xED, 0xED), (0x80, 0x9F), (0x80, 0xBF)],
    [(0xEE, 0xEF), (0x80, 0xBF), (0x80, 0xBF)],
    [(0xF0, 0xF0), (0x90, 0xBF), (0x80, 0xBF), (0x80, 0xBF)],
    [(0xF1, 0xF3), (0x80, 0xBF), (0x80, 0xBF), (0x80, 0xBF)],
    [(0xF4, 0xF4), (0x80, 0x8F), (0x80, 0xBF), (0x80, 0xBF)]]

def InRange (b : UInt8) (range : UInt8 × UInt8) : Prop := range.1 ≤ b ∧ b ≤ range.2

/-- The bytes of one character. -/
def WellFormedChar (c : Bytes) : Prop := ∃ row ∈ wellFormedRows, List.Forall₂ InRange c row

/-- A byte string made of the bytes of characters. -/
def WellFormed (bytes : Bytes) : Prop :=
  ∃ cs : List Bytes, (∀ c ∈ cs, WellFormedChar c) ∧ cs.flatten = bytes

theorem isChar_of_front {c : Bytes} (h : front c = .scalar c.length) : IsChar c := by
  obtain ⟨d, rest, hc, hlength, hd⟩ := front_eq_scalar h
  have hrest : rest = [] := by
    rw [hc, List.length_append] at hlength
    exact List.eq_nil_of_length_eq_zero (by omega)
  rw [hc, hrest, List.append_nil]
  exact hd

theorem inRange_iff {b low high : UInt8} :
    InRange b (low, high) ↔ low.toNat ≤ b.toNat ∧ b.toNat ≤ high.toNat := by
  unfold InRange
  rw [UInt8.le_iff_toNat_le, UInt8.le_iff_toNat_le]

theorem isContinuation_iff {b : UInt8} :
    isContinuation b = true ↔ 0x80 ≤ b.toNat ∧ b.toNat ≤ 0xBF := by
  simp [isContinuation, UInt8.le_iff_toNat_le]

theorem secondByteOk_iff {first second : UInt8} :
    secondByteOk first second = true ↔
      (first.toNat = 0xE0 ∧ 0xA0 ≤ second.toNat ∧ second.toNat ≤ 0xBF) ∨
      (first.toNat = 0xED ∧ 0x80 ≤ second.toNat ∧ second.toNat ≤ 0x9F) ∨
      (first.toNat = 0xF0 ∧ 0x90 ≤ second.toNat ∧ second.toNat ≤ 0xBF) ∨
      (first.toNat = 0xF4 ∧ 0x80 ≤ second.toNat ∧ second.toNat ≤ 0x8F) ∨
      (first.toNat ≠ 0xE0 ∧ first.toNat ≠ 0xED ∧ first.toNat ≠ 0xF0 ∧ first.toNat ≠ 0xF4 ∧
        0x80 ≤ second.toNat ∧ second.toNat ≤ 0xBF) := by
  have hfirst : ∀ b : UInt8, first = b ↔ first.toNat = b.toNat := fun b => UInt8.toNat_inj.symm
  unfold secondByteOk
  simp only [hfirst]
  split
  case isTrue h => simp [UInt8.le_iff_toNat_le] at h ⊢; omega
  split
  case isTrue h => simp [UInt8.le_iff_toNat_le] at h ⊢; omega
  split
  case isTrue h => simp [UInt8.le_iff_toNat_le] at h ⊢; omega
  split
  case isTrue h => simp [UInt8.le_iff_toNat_le] at h ⊢; omega
  case isFalse h₁ h₂ h₃ h₄ =>
      rw [isContinuation_iff]
      simp at h₁ h₂ h₃ h₄ ⊢
      omega

theorem charWidth_eq (first : UInt8) :
    charWidth first =
      if first.toNat < 0x80 then 1
      else if 0xC2 ≤ first.toNat ∧ first.toNat ≤ 0xDF then 2
      else if 0xE0 ≤ first.toNat ∧ first.toNat ≤ 0xEF then 3
      else if 0xF0 ≤ first.toNat ∧ first.toNat ≤ 0xF4 then 4
      else 0 := by
  simp [charWidth, UInt8.lt_iff_toNat_lt, UInt8.le_iff_toNat_le]

theorem charWidth_cases (first : UInt8) :
    charWidth first = 0 ∨ charWidth first = 1 ∨ charWidth first = 2 ∨ charWidth first = 3 ∨
      charWidth first = 4 := by
  rw [charWidth_eq]
  grind

/-! ## Characters by their number of bytes -/

theorem front_one {a : UInt8} : front [a] = .scalar 1 ↔ charWidth a = 1 := by
  rcases charWidth_cases a with h | h | h | h | h <;> simp [front, h]

theorem front_two {a b : UInt8} :
    front [a, b] = .scalar 2 ↔ charWidth a = 2 ∧ isContinuation b = true := by
  rcases charWidth_cases a with h | h | h | h | h <;> simp [front, h] <;> grind

theorem front_three {a b c : UInt8} :
    front [a, b, c] = .scalar 3 ↔
      charWidth a = 3 ∧ secondByteOk a b = true ∧ isContinuation c = true := by
  rcases charWidth_cases a with h | h | h | h | h <;> simp [front, h] <;> grind

theorem front_four {a b c d : UInt8} :
    front [a, b, c, d] = .scalar 4 ↔
      charWidth a = 4 ∧ secondByteOk a b = true ∧ isContinuation c = true ∧
        isContinuation d = true := by
  rcases charWidth_cases a with h | h | h | h | h <;> simp [front, h] <;> grind

theorem wellFormedChar_one {a : UInt8} : WellFormedChar [a] ↔ front [a] = .scalar 1 := by
  rw [front_one]
  simp only [WellFormedChar, wellFormedRows, List.mem_cons, List.not_mem_nil, or_false,
    exists_eq_or_imp, exists_eq_left, List.forall₂_cons, List.forall₂_nil_left_iff, inRange_iff,
    charWidth_eq]
  simp
  grind

theorem wellFormedChar_two {a b : UInt8} : WellFormedChar [a, b] ↔ front [a, b] = .scalar 2 := by
  rw [front_two]
  simp only [WellFormedChar, wellFormedRows, List.mem_cons, List.not_mem_nil, or_false,
    exists_eq_or_imp, exists_eq_left, List.forall₂_cons, List.forall₂_nil_left_iff,
    List.forall₂_nil_right_iff, inRange_iff, charWidth_eq, isContinuation_iff]
  simp
  grind

theorem wellFormedChar_three {a b c : UInt8} :
    WellFormedChar [a, b, c] ↔ front [a, b, c] = .scalar 3 := by
  rw [front_three]
  simp only [WellFormedChar, wellFormedRows, List.mem_cons, List.not_mem_nil, or_false,
    exists_eq_or_imp, exists_eq_left, List.forall₂_cons, List.forall₂_nil_left_iff,
    List.forall₂_nil_right_iff, inRange_iff, charWidth_eq, isContinuation_iff, secondByteOk_iff]
  simp
  grind

theorem wellFormedChar_four {a b c d : UInt8} :
    WellFormedChar [a, b, c, d] ↔ front [a, b, c, d] = .scalar 4 := by
  rw [front_four]
  simp only [WellFormedChar, wellFormedRows, List.mem_cons, List.not_mem_nil, or_false,
    exists_eq_or_imp, exists_eq_left, List.forall₂_cons, List.forall₂_nil_right_iff, inRange_iff,
    charWidth_eq, isContinuation_iff, secondByteOk_iff]
  simp
  grind

/-- The rows describe what validation recognizes as a character. -/
theorem wellFormedChar_iff {c : Bytes} : WellFormedChar c ↔ front c = .scalar c.length := by
  rcases c with _ | ⟨a, _ | ⟨b, _ | ⟨c, _ | ⟨d, _ | ⟨e, rest⟩⟩⟩⟩⟩
  · simp [WellFormedChar, wellFormedRows, front]
  · exact wellFormedChar_one
  · exact wellFormedChar_two
  · exact wellFormedChar_three
  · exact wellFormedChar_four
  · constructor
    · intro h
      simp [WellFormedChar, wellFormedRows] at h
    · intro h
      have hlength := (isChar_of_front h).length_le
      simp only [List.length_cons] at hlength
      omega

theorem wellFormedChar_iff_isChar {c : Bytes} : WellFormedChar c ↔ IsChar c := by
  rw [wellFormedChar_iff]
  constructor
  · exact isChar_of_front
  · intro h
    have hfront := h.recognized []
    rwa [List.append_nil] at hfront

theorem wellFormed_iff {bytes : Bytes} : WellFormed bytes ↔ Valid bytes := by
  constructor
  · rintro ⟨cs, hcs, rfl⟩
    exact ⟨cs, fun c hc => wellFormedChar_iff_isChar.1 (hcs c hc), rfl⟩
  · rintro ⟨cs, hcs, rfl⟩
    exact ⟨cs, fun c hc => wellFormedChar_iff_isChar.2 (hcs c hc), rfl⟩

/-!
## Characters and their bytes

A valid byte string is the encoding of its characters, and no other list of
characters has this encoding.
-/

/-- The bytes of a text. -/
def encode (text : Text) : Bytes := text.flatMap String.utf8EncodeChar

/-- The character with these bytes. -/
def charOf : Bytes → Char
  | [a] => Char.ofNat a.toNat
  | [a, b] => Char.ofNat (a.toNat % 0x20 * 0x40 + b.toNat % 0x40)
  | [a, b, c] =>
    Char.ofNat (a.toNat % 0x10 * 0x1000 + b.toNat % 0x40 * 0x40 + c.toNat % 0x40)
  | [a, b, c, d] =>
    Char.ofNat (a.toNat % 0x08 * 0x40000 + b.toNat % 0x40 * 0x1000 + c.toNat % 0x40 * 0x40 +
      d.toNat % 0x40)
  | _ => default

/-- The characters of valid bytes. -/
def decode (bytes : Bytes) : Text := (chars bytes).map charOf

/-! ## The ranges of the bytes -/

/-- The bytes of a character lie in these ranges. -/
inductive CharBytes : Bytes → Prop
  | one {a : UInt8} (ha : a.toNat < 0x80) : CharBytes [a]
  | two {a b : UInt8} (ha : 0xC2 ≤ a.toNat ∧ a.toNat ≤ 0xDF)
      (hb : 0x80 ≤ b.toNat ∧ b.toNat ≤ 0xBF) : CharBytes [a, b]
  | three {a b c : UInt8} (ha : 0xE0 ≤ a.toNat ∧ a.toNat ≤ 0xEF)
      (hb : 0x80 ≤ b.toNat ∧ b.toNat ≤ 0xBF)
      (hlow : a.toNat = 0xE0 → 0xA0 ≤ b.toNat) (hhigh : a.toNat = 0xED → b.toNat ≤ 0x9F)
      (hc : 0x80 ≤ c.toNat ∧ c.toNat ≤ 0xBF) : CharBytes [a, b, c]
  | four {a b c d : UInt8} (ha : 0xF0 ≤ a.toNat ∧ a.toNat ≤ 0xF4)
      (hb : 0x80 ≤ b.toNat ∧ b.toNat ≤ 0xBF)
      (hlow : a.toNat = 0xF0 → 0x90 ≤ b.toNat) (hhigh : a.toNat = 0xF4 → b.toNat ≤ 0x8F)
      (hc : 0x80 ≤ c.toNat ∧ c.toNat ≤ 0xBF) (hd : 0x80 ≤ d.toNat ∧ d.toNat ≤ 0xBF) :
      CharBytes [a, b, c, d]

theorem CharBytes.isChar {c : Bytes} (h : CharBytes c) : IsChar c := by
  refine isChar_of_front ?_
  cases h with
  | one ha =>
    rw [List.length_singleton, front_one, charWidth_eq, if_pos ha]
  | @two a b ha hb =>
    refine front_two.2 ⟨?_, isContinuation_iff.2 hb⟩
    rw [charWidth_eq, if_neg (by omega), if_pos ha]
  | @three a b c ha hb hlow hhigh hc =>
    refine front_three.2 ⟨?_, secondByteOk_iff.2 (by omega), isContinuation_iff.2 hc⟩
    rw [charWidth_eq, if_neg (by omega), if_neg (by omega), if_pos ha]
  | @four a b c d ha hb hlow hhigh hc hd =>
    refine front_four.2 ⟨?_, secondByteOk_iff.2 (by omega), isContinuation_iff.2 hc,
      isContinuation_iff.2 hd⟩
    rw [charWidth_eq, if_neg (by omega), if_neg (by omega), if_neg (by omega), if_pos ha]

theorem IsChar.charBytes {c : Bytes} (h : IsChar c) : CharBytes c := by
  have hfront := h.recognized []
  have hpos := h.length_pos
  have hle := h.length_le
  rw [List.append_nil] at hfront
  -- The first byte announces the length, and the ranges follow from it.
  match c, hfront with
  | [a], hfront =>
    have hwidth := front_one.1 hfront
    rw [charWidth_eq] at hwidth
    exact .one (by grind)
  | [a, b], hfront =>
    obtain ⟨hwidth, hb⟩ := front_two.1 hfront
    rw [charWidth_eq] at hwidth
    exact .two (by grind) (isContinuation_iff.1 hb)
  | [a, b, c], hfront =>
    obtain ⟨hwidth, hb, hc⟩ := front_three.1 hfront
    rw [charWidth_eq] at hwidth
    have hb := secondByteOk_iff.1 hb
    exact .three (by grind) (by omega) (by omega) (by omega) (isContinuation_iff.1 hc)
  | [a, b, c, d], hfront =>
    obtain ⟨hwidth, hb, hc, hd⟩ := front_four.1 hfront
    rw [charWidth_eq] at hwidth
    have hb := secondByteOk_iff.1 hb
    exact .four (by grind) (by omega) (by omega) (by omega) (isContinuation_iff.1 hc)
      (isContinuation_iff.1 hd)
  | [], _ => exact absurd hpos (Nat.lt_irrefl 0)
  | _ :: _ :: _ :: _ :: _ :: _, _ =>
    simp only [List.length_cons] at hle
    omega

/-! ## Both directions -/

theorem toNat_ofNat_lt {n : Nat} (h : n < 256) : (UInt8.ofNat n).toNat = n :=
  UInt8.toNat_ofNat_of_lt' h

theorem val_ofNat {n : Nat} (h : n.isValidChar) : (Char.ofNat n).val.toNat = n := by
  rw [Char.ofNat, dif_pos h]
  rfl

theorem charBytes_utf8EncodeChar (c : Char) : CharBytes (String.utf8EncodeChar c) := by
  have hvalid : c.val.toNat < 0xD800 ∨ 0xDFFF < c.val.toNat ∧ c.val.toNat < 0x110000 := c.valid
  unfold String.utf8EncodeChar
  dsimp only
  generalize c.val.toNat = v at hvalid ⊢
  split
  · exact .one (by rw [toNat_ofNat_lt (by omega)]; omega)
  split
  · refine .two ?_ ?_
    all_goals simp (disch := omega) only [toNat_ofNat_lt]; omega
  split
  · refine .three ?_ ?_ ?_ ?_ ?_
    all_goals simp (disch := omega) only [toNat_ofNat_lt]; omega
  · refine .four ?_ ?_ ?_ ?_ ?_ ?_
    all_goals simp (disch := omega) only [toNat_ofNat_lt]; omega

theorem charOf_utf8EncodeChar (c : Char) : charOf (String.utf8EncodeChar c) = c := by
  have hvalid : c.val.toNat < 0xD800 ∨ 0xDFFF < c.val.toNat ∧ c.val.toNat < 0x110000 := c.valid
  have hc : Char.ofNat c.val.toNat = c := Char.ofNat_toNat c
  unfold String.utf8EncodeChar
  dsimp only
  generalize c.val.toNat = v at hvalid hc
  rw [← hc]
  split
  · rw [charOf, toNat_ofNat_lt (by omega)]
  split
  · rw [charOf]
    simp (disch := omega) only [toNat_ofNat_lt]
    exact congrArg Char.ofNat (by omega)
  split
  · rw [charOf]
    simp (disch := omega) only [toNat_ofNat_lt]
    exact congrArg Char.ofNat (by omega)
  · rw [charOf]
    simp (disch := omega) only [toNat_ofNat_lt]
    exact congrArg Char.ofNat (by omega)

theorem CharBytes.utf8EncodeChar_charOf {c : Bytes} (h : CharBytes c) :
    String.utf8EncodeChar (charOf c) = c := by
  have hbyte : ∀ (b : UInt8) (n : Nat), n = b.toNat → UInt8.ofNat n = b := by
    intro b n h
    rw [h, UInt8.ofNat_toNat]
  unfold String.utf8EncodeChar
  cases h with
  | @one a ha =>
    rw [charOf, val_ofNat (.inl (by omega)), if_pos (by omega), hbyte a _ rfl]
  | @two a b ha hb =>
    rw [charOf, val_ofNat (.inl (by omega)), if_neg (by omega), if_pos (by omega),
      hbyte a _ (by omega), hbyte b _ (by omega)]
  | @three a b c ha hb hlow hhigh hc =>
    rw [charOf, val_ofNat (by unfold Nat.isValidChar; omega), if_neg (by omega),
      if_neg (by omega), if_pos (by omega), hbyte a _ (by omega), hbyte b _ (by omega),
      hbyte c _ (by omega)]
  | @four a b c d ha hb hlow hhigh hc hd =>
    rw [charOf, val_ofNat (by unfold Nat.isValidChar; omega), if_neg (by omega),
      if_neg (by omega), if_neg (by omega), hbyte a _ (by omega), hbyte b _ (by omega),
      hbyte c _ (by omega), hbyte d _ (by omega)]

theorem encode_eq_flatten (text : Text) :
    encode text = (text.map String.utf8EncodeChar).flatten := List.flatMap_def ..

theorem isChar_of_mem_encode {text : Text} :
    ∀ c ∈ text.map String.utf8EncodeChar, IsChar c := by
  intro c hc
  obtain ⟨d, -, rfl⟩ := List.mem_map.1 hc
  exact (charBytes_utf8EncodeChar d).isChar

theorem valid_encode (text : Text) : Valid (encode text) :=
  ⟨text.map String.utf8EncodeChar, isChar_of_mem_encode, (encode_eq_flatten text).symm⟩

theorem decode_encode (text : Text) : decode (encode text) = text := by
  rw [decode, encode_eq_flatten, chars_flatten isChar_of_mem_encode, List.map_map]
  exact (List.map_congr_left fun c _ => charOf_utf8EncodeChar c).trans (List.map_id text)

theorem encode_decode {bytes : Bytes} (h : Valid bytes) : encode (decode bytes) = bytes := by
  obtain ⟨hchars, hflatten⟩ := h.chars
  rw [decode, encode_eq_flatten, List.map_map]
  refine (congrArg List.flatten ?_).trans hflatten
  exact (List.map_congr_left fun c hc => (hchars c hc).charBytes.utf8EncodeChar_charOf).trans
    (List.map_id _)

end Fluxcope.Library.Utf8
