import Mathlib.Data.List.DropRight
import Fluxcope.Library.Utf8
/-!
# Valid texts and their boundaries

A byte string is valid when it is a sequence of characters.  A boundary is the
end of the text or the place of a byte that does not continue a character.
-/

namespace Fluxcope.Library.Utf8

/-! ## Characters -/

/-- A first byte with its continuation bytes, recognized whatever follows. -/
structure IsChar (c : Bytes) : Prop where
  recognized : ∀ rest, front (c ++ rest) = .scalar c.length
  shape : ∃ first tail, c = first :: tail ∧ isContinuation first = false ∧
    (∀ b ∈ tail, isContinuation b = true) ∧ tail.length ≤ 3

theorem IsChar.length_pos {c : Bytes} (h : IsChar c) : 0 < c.length := by
  obtain ⟨first, tail, rfl, -⟩ := h.shape
  exact Nat.succ_pos _

theorem IsChar.length_le {c : Bytes} (h : IsChar c) : c.length ≤ 4 := by
  obtain ⟨first, tail, rfl, -, -, hlength⟩ := h.shape
  exact Nat.succ_le_succ hlength

theorem isContinuation_of_secondByteOk {first second : UInt8}
    (h : secondByteOk first second = true) : isContinuation second = true := by
  have hrange : ∀ low high : UInt8, 0x80 ≤ low → high ≤ 0xBF →
      (decide (low ≤ second) && decide (second ≤ high)) = true → isContinuation second = true := by
    intro low high hlow hhigh hboth
    obtain ⟨hge, hle⟩ := (Bool.and_eq_true _ _).mp hboth
    exact (Bool.and_eq_true _ _).mpr
      ⟨decide_eq_true (UInt8.le_trans hlow (of_decide_eq_true hge)),
        decide_eq_true (UInt8.le_trans (of_decide_eq_true hle) hhigh)⟩
  unfold secondByteOk at h
  split at h
  · exact hrange _ _ (by decide) (by decide) h
  split at h
  · exact hrange _ _ (by decide) (by decide) h
  split at h
  · exact hrange _ _ (by decide) (by decide) h
  split at h
  · exact hrange _ _ (by decide) (by decide) h
  · exact h

theorem not_isContinuation_of_charWidth {first : UInt8} (h : charWidth first ≠ 0) :
    isContinuation first = false := by
  by_contra hcontinuation
  obtain ⟨hge, hle⟩ := (Bool.and_eq_true _ _).mp (Bool.not_eq_false _ ▸ hcontinuation)
  have hge := UInt8.le_iff_toNat_le.1 (of_decide_eq_true hge)
  have hle := UInt8.le_iff_toNat_le.1 (of_decide_eq_true hle)
  refine h ?_
  unfold charWidth
  simp only [UInt8.lt_iff_toNat_lt, UInt8.le_iff_toNat_le, UInt8.toNat_ofNat, Bool.and_eq_true,
    decide_eq_true_eq] at hge hle ⊢
  rw [if_neg (by omega), if_neg (by omega), if_neg (by omega), if_neg (by omega)]

/-- The front of a byte string is a character when it is recognized as one. -/
theorem front_eq_scalar {bytes : Bytes} {width : Nat} (h : front bytes = .scalar width) :
    ∃ c rest, bytes = c ++ rest ∧ c.length = width ∧ IsChar c := by
  cases bytes with
  | nil => cases h
  | cons first rest =>
    have hfirst : ∀ n, charWidth first = n → n ≠ 0 → isContinuation first = false := by
      intro n hn hpos
      exact not_isContinuation_of_charWidth (hn ▸ hpos)
    unfold front at h
    dsimp only at h
    split at h
    case h_1 hwidth =>
      cases h
      refine ⟨[first], _, rfl, rfl, fun more => ?_, first, [], rfl, hfirst 1 hwidth (by decide),
        by simp, by simp⟩
      simp [front, hwidth]
    case h_2 => cases h
    case h_3 second more hwidth =>
      split at h
      · rename_i hsecond
        cases h
        refine ⟨[first, second], more, rfl, rfl, fun more => ?_, first, [second], rfl,
          hfirst 2 hwidth (by decide), by simpa using hsecond, by simp⟩
        simp [front, hwidth, hsecond]
      · cases h
    case h_4 => cases h
    case h_5 second more hwidth =>
      split at h
      · cases h
      rename_i hsecond
      rw [Bool.not_eq_true, Bool.not_eq_false'] at hsecond
      split at h
      · cases h
      · rename_i third more
        split at h
        · rename_i hthird
          cases h
          refine ⟨[first, second, third], more, rfl, rfl, fun more => ?_, first, [second, third],
            rfl, hfirst 3 hwidth (by decide), ?_, by simp⟩
          · simp [front, hwidth, hsecond, hthird]
          · simpa using ⟨isContinuation_of_secondByteOk hsecond, hthird⟩
        · cases h
    case h_6 => cases h
    case h_7 second more hwidth =>
      split at h
      · cases h
      rename_i hsecond
      rw [Bool.not_eq_true, Bool.not_eq_false'] at hsecond
      split at h
      · cases h
      · rename_i third more
        split at h
        · cases h
        rename_i hthird
        rw [Bool.not_eq_true, Bool.not_eq_false'] at hthird
        split at h
        · cases h
        · rename_i fourth more
          split at h
          · rename_i hfourth
            cases h
            refine ⟨[first, second, third, fourth], more, rfl, rfl, fun more => ?_, first,
              [second, third, fourth], rfl, hfirst 4 hwidth (by decide), ?_, by simp⟩
            · simp [front, hwidth, hsecond, hthird, hfourth]
            · simpa using ⟨isContinuation_of_secondByteOk hsecond, hthird, hfourth⟩
          · cases h
    case h_8 => cases h

/-! ## Valid texts -/

/-- The byte string is a sequence of characters. -/
def Valid (bytes : Bytes) : Prop := ∃ cs : List Bytes, (∀ c ∈ cs, IsChar c) ∧ cs.flatten = bytes

theorem validate_flatten {cs : List Bytes} (hcs : ∀ c ∈ cs, IsChar c) {fuel position : Nat}
    (hfuel : cs.flatten.length ≤ fuel) : validate fuel cs.flatten position = none := by
  induction cs generalizing fuel position with
  | nil => cases fuel <;> rfl
  | cons c cs ih =>
    have hc := hcs c List.mem_cons_self
    have hpos := hc.length_pos
    rw [List.flatten_cons, List.length_append] at hfuel
    cases fuel with
    | zero => omega
    | succ fuel =>
      rw [List.flatten_cons, validate, hc.recognized cs.flatten]
      show validate fuel ((c ++ cs.flatten).drop c.length) _ = none
      rw [List.drop_left]
      exact ih (fun d hd => hcs d (List.mem_cons_of_mem c hd)) (by omega)

theorem exists_chars {fuel : Nat} {bytes : Bytes} {position : Nat} (hfuel : bytes.length ≤ fuel)
    (h : validate fuel bytes position = none) : Valid bytes := by
  induction fuel generalizing bytes position with
  | zero =>
    have hempty : bytes = [] := List.length_eq_zero_iff.1 (Nat.le_zero.1 hfuel)
    exact ⟨[], by simp, by rw [hempty]; rfl⟩
  | succ fuel ih =>
    rw [validate] at h
    cases hfront : front bytes with
    | done =>
      cases bytes with
      | nil => exact ⟨[], by simp, rfl⟩
      | cons first rest =>
        unfold front at hfront
        dsimp only at hfront
        repeat' split at hfront
        all_goals cases hfront
    | malformed errorLen =>
      rw [hfront] at h
      cases h
    | scalar width =>
      obtain ⟨c, rest, rfl, rfl, hc⟩ := front_eq_scalar hfront
      rw [hfront] at h
      have hrest : validate fuel ((c ++ rest).drop c.length) _ = none := h
      have hpos := hc.length_pos
      rw [List.drop_left] at hrest
      rw [List.length_append] at hfuel
      obtain ⟨cs, hcs, rfl⟩ := ih (by omega) hrest
      refine ⟨c :: cs, fun d hd => ?_, rfl⟩
      rcases List.mem_cons.1 hd with rfl | hd
      · exact hc
      · exact hcs d hd

theorem fromUtf8_eq_none_iff {bytes : Bytes} : fromUtf8 bytes = none ↔ Valid bytes := by
  constructor
  · exact exists_chars (Nat.le_refl _)
  · rintro ⟨cs, hcs, rfl⟩
    exact validate_flatten hcs (Nat.le_refl _)

theorem Valid.append {left right : Bytes} (hleft : Valid left) (hright : Valid right) :
    Valid (left ++ right) := by
  obtain ⟨cs, hcs, rfl⟩ := hleft
  obtain ⟨ds, hds, rfl⟩ := hright
  refine ⟨cs ++ ds, fun c hc => ?_, List.flatten_append⟩
  rcases List.mem_append.1 hc with hc | hc
  · exact hcs c hc
  · exact hds c hc

/-- Two texts that begin the same begin with the same character. -/
theorem firstChar_length {c d rest more : Bytes} (hc : IsChar c) (hd : IsChar d)
    (h : d ++ rest <+: c ++ more) : d.length = c.length := by
  obtain ⟨tail, htail⟩ := h
  have hfront := hd.recognized (rest ++ tail)
  rw [← List.append_assoc, htail, hc.recognized more] at hfront
  exact (Front.scalar.inj hfront).symm

theorem Valid.flatten {texts : List Bytes} (h : ∀ text ∈ texts, Valid text) :
    Valid texts.flatten := by
  induction texts with
  | nil => exact ⟨[], by simp, rfl⟩
  | cons text texts ih =>
    exact (h text List.mem_cons_self).append (ih fun t ht => h t (List.mem_cons_of_mem text ht))

theorem Valid.firstChar {text : Bytes} (h : Valid text) (hne : text ≠ []) :
    ∃ c rest, text = c ++ rest ∧ IsChar c ∧ Valid rest := by
  obtain ⟨cs, hcs, rfl⟩ := h
  cases cs with
  | nil => exact absurd rfl hne
  | cons c cs =>
    exact ⟨c, cs.flatten, rfl, hcs c List.mem_cons_self,
      cs, fun d hd => hcs d (List.mem_cons_of_mem c hd), rfl⟩

/-! ## Boundaries -/

/-- The end of the text, or the place of a byte that starts a character. -/
def IsBoundary (text : Bytes) (i : Nat) : Prop :=
  i = text.length ∨ ∃ b, text[i]? = some b ∧ isContinuation b = false

theorem isBoundary_length (text : Bytes) : IsBoundary text text.length := .inl rfl

/-- Behind a prefix, boundaries are counted from its end. -/
theorem isBoundary_append_iff {before after : Bytes} {i : Nat} (hi : before.length ≤ i) :
    IsBoundary (before ++ after) i ↔ IsBoundary after (i - before.length) := by
  unfold IsBoundary
  rw [List.getElem?_append_right hi, List.length_append]
  have hend : i = before.length + after.length ↔ i - before.length = after.length := by omega
  rw [hend]

theorem IsChar.not_isBoundary {c rest : Bytes} (h : IsChar c) {i : Nat} (hpos : 0 < i)
    (hlt : i < c.length) : ¬ IsBoundary (c ++ rest) i := by
  obtain ⟨first, tail, rfl, -, htail, -⟩ := h.shape
  rintro (hend | ⟨b, hget, hb⟩)
  · rw [List.length_append] at hend
    omega
  · rw [List.getElem?_append_left hlt] at hget
    obtain ⟨j, rfl⟩ := Nat.exists_eq_succ_of_ne_zero (Nat.ne_of_gt hpos)
    rw [List.getElem?_cons_succ] at hget
    rw [htail b (List.mem_of_getElem? hget)] at hb
    cases hb

theorem IsChar.isBoundary_zero {c : Bytes} (h : IsChar c) (rest : Bytes) :
    IsBoundary (c ++ rest) 0 := by
  obtain ⟨first, tail, rfl, hfirst, -⟩ := h.shape
  exact .inr ⟨first, rfl, hfirst⟩

theorem Valid.isBoundary_zero {text : Bytes} (h : Valid text) : IsBoundary text 0 := by
  obtain ⟨cs, hcs, rfl⟩ := h
  cases cs with
  | nil => exact .inl rfl
  | cons c cs => exact (hcs c List.mem_cons_self).isBoundary_zero cs.flatten

/-- A boundary cuts a text into two texts. -/
theorem Valid.cut {text : Bytes} (h : Valid text) {i : Nat} (hi : IsBoundary text i) :
    Valid (text.take i) ∧ Valid (text.drop i) := by
  obtain ⟨cs, hcs, rfl⟩ := h
  induction cs generalizing i with
  | nil =>
    have hnil : Valid [] := ⟨[], by simp, rfl⟩
    rw [List.flatten_nil, List.take_nil, List.drop_nil]
    exact ⟨hnil, hnil⟩
  | cons c cs ih =>
    have hc := hcs c List.mem_cons_self
    have hrest := fun d hd => hcs d (List.mem_cons_of_mem c hd)
    rw [List.flatten_cons] at hi ⊢
    by_cases hzero : i = 0
    · subst hzero
      exact ⟨⟨[], by simp, rfl⟩, c :: cs, hcs, rfl⟩
    · have hle : c.length ≤ i := by
        by_contra hlt
        exact hc.not_isBoundary (Nat.pos_of_ne_zero hzero) (Nat.lt_of_not_le hlt) hi
      obtain ⟨htake, hdrop⟩ := ih hrest ((isBoundary_append_iff hle).1 hi)
      rw [List.take_append, List.drop_append, List.take_of_length_le hle,
        List.drop_of_length_le hle, List.nil_append]
      exact ⟨Valid.append ⟨[c], by simpa using hc, by simp⟩ htake, hdrop⟩

theorem IsBoundary.drop {text : Bytes} {i j : Nat} (hj : IsBoundary text j) (hij : i ≤ j)
    (hi : i ≤ text.length) : IsBoundary (text.drop i) (j - i) := by
  rw [← List.take_append_drop i text] at hj
  have hlength : (text.take i).length = i := List.length_take_of_le hi
  have hcut := (isBoundary_append_iff (by omega)).1 hj
  rwa [hlength] at hcut

/-- What lies between two boundaries is a text. -/
theorem Valid.slice {text : Bytes} (h : Valid text) {i j : Nat} (hi : IsBoundary text i)
    (hj : IsBoundary text j) (hij : i ≤ j) (hle : i ≤ text.length) :
    Valid ((text.drop i).take (j - i)) :=
  ((h.cut hi).2.cut (hj.drop hij hle)).1

/-- Every place of a text lies between two boundaries that are at most four bytes apart. -/
theorem Valid.enclosing {text : Bytes} (h : Valid text) {i : Nat} (hi : i < text.length) :
    ∃ low high, low ≤ i ∧ i < high ∧ high ≤ low + 4 ∧ high ≤ text.length ∧ IsBoundary text low ∧
      IsBoundary text high ∧ ∀ j, low < j → j < high → ¬ IsBoundary text j := by
  obtain ⟨cs, hcs, rfl⟩ := h
  induction cs generalizing i with
  | nil => exact absurd hi (Nat.not_lt_zero i)
  | cons c cs ih =>
    have hc := hcs c List.mem_cons_self
    have hrest := fun d hd => hcs d (List.mem_cons_of_mem c hd)
    have hwidth := hc.length_le
    rw [List.flatten_cons] at hi ⊢
    rw [List.length_append] at hi ⊢
    by_cases hin : i < c.length
    · refine ⟨0, c.length, Nat.zero_le i, hin, by omega, by omega, hc.isBoundary_zero _, ?_,
        fun j hpos hlt => hc.not_isBoundary hpos hlt⟩
      rw [isBoundary_append_iff (Nat.le_refl _), Nat.sub_self]
      exact Valid.isBoundary_zero ⟨cs, hrest, rfl⟩
    · obtain ⟨low, high, hlow, hhigh, hspan, hend, hlowBoundary, hhighBoundary, hbetween⟩ :=
        ih (i := i - c.length) hrest (by omega)
      refine ⟨c.length + low, c.length + high, by omega, by omega, by omega, by omega, ?_, ?_,
        fun j hj hj' => ?_⟩
      · rw [isBoundary_append_iff (by omega), Nat.add_sub_cancel_left]
        exact hlowBoundary
      · rw [isBoundary_append_iff (by omega), Nat.add_sub_cancel_left]
        exact hhighBoundary
      · rw [isBoundary_append_iff (by omega)]
        exact hbetween _ (by omega) (by omega)

theorem isCharBoundary_iff {text : Bytes} (h : Valid text) {i : Nat} :
    isCharBoundary text i = true ↔ IsBoundary text i := by
  unfold isCharBoundary
  by_cases hzero : i = 0
  · subst hzero
    simpa using h.isBoundary_zero
  unfold IsBoundary
  cases hget : text[i]? with
  | none => simp [hzero]
  | some b => simp [hzero]

/-! ## Trimming -/

/-- The characters of a text, with the bytes that may still be read. -/
def splitChars : Nat → Bytes → List Bytes
  | 0, _ => []
  | fuel + 1, bytes =>
    match front bytes with
    | .scalar width => bytes.take width :: splitChars fuel (bytes.drop width)
    | .done | .malformed _ => []

/-- The characters with the property `White_Space`. -/
def isWhitespaceChar : Bytes → Bool
  | [b] => (9 ≤ b && b ≤ 13) || b = 0x20
  | [0xC2, b] => b = 0x85 || b = 0xA0
  | [0xE1, 0x9A, 0x80] => true
  | [0xE2, 0x80, b] => (0x80 ≤ b && b ≤ 0x8A) || b = 0xA8 || b = 0xA9 || b = 0xAF
  | [0xE2, 0x81, 0x9F] => true
  | [0xE3, 0x80, 0x80] => true
  | _ => false

/-- `str::trim` -/
def trim (text : Bytes) : Bytes :=
  (((splitChars text.length text).dropWhile isWhitespaceChar).rdropWhile isWhitespaceChar).flatten

/-- `str::eq_ignore_ascii_case` -/
def eqIgnoreAsciiCase (left right : Bytes) : Bool :=
  let lower (b : UInt8) : UInt8 := if 0x41 ≤ b && b ≤ 0x5A then b + 0x20 else b
  left.map lower = right.map lower

/-! ## The characters of a text -/

theorem splitChars_flatten {cs : List Bytes} (hcs : ∀ c ∈ cs, IsChar c) {fuel : Nat}
    (hfuel : cs.flatten.length ≤ fuel) : splitChars fuel cs.flatten = cs := by
  induction cs generalizing fuel with
  | nil => cases fuel <;> rfl
  | cons c cs ih =>
    have hc := hcs c List.mem_cons_self
    have hpos := hc.length_pos
    rw [List.flatten_cons, List.length_append] at hfuel
    cases fuel with
    | zero => omega
    | succ fuel =>
      rw [List.flatten_cons, splitChars, hc.recognized cs.flatten]
      dsimp only
      rw [List.take_left, List.drop_left,
        ih (fun d hd => hcs d (List.mem_cons_of_mem c hd)) (by omega)]

/-- `str::chars` -/
def chars (text : Bytes) : List Bytes := splitChars text.length text

theorem chars_flatten {cs : List Bytes} (hcs : ∀ c ∈ cs, IsChar c) : chars cs.flatten = cs :=
  splitChars_flatten hcs (Nat.le_refl _)

theorem Valid.chars {text : Bytes} (h : Valid text) :
    (∀ c ∈ chars text, IsChar c) ∧ (Utf8.chars text).flatten = text := by
  obtain ⟨cs, hcs, rfl⟩ := h
  rw [chars_flatten hcs]
  exact ⟨hcs, rfl⟩

theorem Valid.chars_append {left right : Bytes} (hleft : Valid left) (hright : Valid right) :
    Utf8.chars (left ++ right) = Utf8.chars left ++ Utf8.chars right := by
  obtain ⟨cs, hcs, rfl⟩ := hleft
  obtain ⟨ds, hds, rfl⟩ := hright
  rw [chars_flatten hcs, chars_flatten hds, ← List.flatten_append]
  refine chars_flatten fun c hc => ?_
  rcases List.mem_append.1 hc with hc | hc
  · exact hcs c hc
  · exact hds c hc
/-! ## ASCII -/

def ofAscii (text : String) : Bytes := text.toList.map fun c => UInt8.ofNat c.toNat

/-- A number in decimal digits. -/
def decimal (n : Nat) : Bytes := (Nat.toDigits 10 n).map fun c => UInt8.ofNat c.toNat

theorem decimal_inj {n m : Nat} (h : decimal n = decimal m) : n = m := by
  have hback : ∀ k, (decimal k).map (fun b => Char.ofNat b.toNat) = Nat.toDigits 10 k := by
    intro k
    unfold decimal
    rw [List.map_map]
    refine (List.map_congr_left fun c hc => ?_).trans (List.map_id _)
    have hdigit := Nat.isDigit_of_mem_toDigits (by decide) (by decide) hc
    have hrange : c.toNat < 256 := by
      simp only [Char.isDigit, Bool.and_eq_true, decide_eq_true_eq, UInt32.le_iff_toNat_le] at hdigit
      exact hdigit.2.trans_lt (by decide)
    simp only [Function.comp_apply, id_eq]
    rw [UInt8.toNat_ofNat_of_lt' hrange]
    exact Char.ofNat_toNat c
  have hdigits := congrArg (List.map fun b : UInt8 => Char.ofNat b.toNat) h
  rw [hback, hback] at hdigits
  have hvalue := congrArg (fun digits => Nat.ofDigitChars 10 digits 0) hdigits
  simpa only [Nat.ofDigitChars_ten_toDigits] using hvalue

end Fluxcope.Library.Utf8
