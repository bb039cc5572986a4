import Fluxcope.Library.Utf8Text
/-!
# Lossy decoding piece by piece

The lossy decoding of a byte string follows from what validation reports about it:
a text in front stays, and a malformed piece becomes a replacement character.  So
it can be done while the bytes arrive, keeping back the start of a character.
-/

namespace Fluxcope.Library.Utf8

/-! ## Malformed pieces -/

/-- A malformed piece is recognized whatever follows. -/
theorem front_malformed_append {bytes : Bytes} {n : Nat} (h : front bytes = .malformed (some n))
    (future : Bytes) :
    front (bytes ++ future) = .malformed (some n) ∧ 0 < n ∧ n ≤ bytes.length := by
  cases bytes with
  | nil => cases h
  | cons first rest =>
    unfold front at h
    dsimp only at h
    split at h
    case h_1 => cases h
    case h_2 => cases h
    case h_3 second more hwidth =>
      split at h
      · cases h
      · rename_i hsecond
        cases h
        exact ⟨by simp [front, hwidth, hsecond], by simp⟩
    case h_4 => cases h
    case h_5 second more hwidth =>
      split at h
      · rename_i hsecond
        cases h
        exact ⟨by simp_all [front], by simp⟩
      rename_i hsecond
      split at h
      · cases h
      · split at h
        · cases h
        · rename_i third more hthird
          cases h
          exact ⟨by simp_all [front], by simp⟩
    case h_6 => cases h
    case h_7 second more hwidth =>
      split at h
      · rename_i hsecond
        cases h
        exact ⟨by simp_all [front], by simp⟩
      rename_i hsecond
      split at h
      · cases h
      · split at h
        · rename_i third more hthird
          cases h
          exact ⟨by simp_all [front], by simp⟩
        · split at h
          · cases h
          · split at h
            · cases h
            · cases h
              exact ⟨by simp_all [front], by simp⟩
    case h_8 tail _ _ h1 h2 h3 h4 h5 h6 h7 =>
      cases h
      refine ⟨?_, by simp⟩
      have hwidth : ∀ w, w = 1 ∨ w = 2 ∨ w = 3 ∨ w = 4 → charWidth first ≠ w := by
        rintro w (rfl | rfl | rfl | rfl) hw
        · exact h1 hw
        · cases tail with
          | nil => exact h2 hw rfl
          | cons second more => exact h3 second more hw rfl
        · cases tail with
          | nil => exact h4 hw rfl
          | cons second more => exact h5 second more hw rfl
        · cases tail with
          | nil => exact h6 hw rfl
          | cons second more => exact h7 second more hw rfl
      unfold front
      dsimp only [List.cons_append]
      split
      case h_1 hw => exact absurd hw (hwidth 1 (by simp))
      case h_2 hw _ => exact absurd hw (hwidth 2 (by simp))
      case h_3 hw _ => exact absurd hw (hwidth 2 (by simp))
      case h_4 hw _ => exact absurd hw (hwidth 3 (by simp))
      case h_5 hw _ => exact absurd hw (hwidth 3 (by simp))
      case h_6 hw _ => exact absurd hw (hwidth 4 (by simp))
      case h_7 hw _ => exact absurd hw (hwidth 4 (by simp))
      case h_8 => rfl

/-! ## The lossy decoding -/

theorem lossy_fuel {fuel : Nat} {bytes : Bytes} (h : bytes.length ≤ fuel) :
    lossy fuel bytes = fromUtf8Lossy bytes := by
  have hstep : ∀ n fuel' fuel (bytes : Bytes), bytes.length ≤ n → bytes.length ≤ fuel →
      bytes.length ≤ fuel' → lossy fuel bytes = lossy fuel' bytes := by
    intro n
    induction n with
    | zero =>
      intro fuel' fuel bytes hn _ _
      obtain rfl := List.length_eq_zero_iff.1 (Nat.le_zero.1 hn)
      cases fuel <;> cases fuel' <;> rfl
    | succ n ih =>
      intro fuel' fuel bytes hn hfuel hfuel'
      cases hbytes : bytes with
      | nil => cases fuel <;> cases fuel' <;> rfl
      | cons first rest =>
        rw [← hbytes]
        have hpos : 0 < bytes.length := by rw [hbytes]; exact Nat.succ_pos _
        obtain ⟨fuel, rfl⟩ := Nat.exists_eq_succ_of_ne_zero (by omega : fuel ≠ 0)
        obtain ⟨fuel', rfl⟩ := Nat.exists_eq_succ_of_ne_zero (by omega : fuel' ≠ 0)
        rw [lossy, lossy]
        cases hfront : front bytes with
        | done => rfl
        | scalar width =>
          obtain ⟨c, tail, rfl, rfl, hc⟩ := front_eq_scalar hfront
          have hwidth := hc.length_pos
          rw [List.length_append] at hn hfuel hfuel'
          dsimp only
          rw [List.drop_left, ih fuel' fuel tail (by omega) (by omega) (by omega)]
        | malformed errorLen =>
          cases errorLen with
          | none => rfl
          | some k =>
            obtain ⟨-, hk, hle⟩ := front_malformed_append hfront []
            dsimp only
            rw [ih fuel' fuel (bytes.drop k) (by rw [List.length_drop]; omega)
              (by rw [List.length_drop]; omega) (by rw [List.length_drop]; omega)]
  exact hstep _ _ _ _ (Nat.le_refl _) h (Nat.le_refl _)

@[simp] theorem fromUtf8Lossy_nil : fromUtf8Lossy [] = [] := rfl

theorem fromUtf8Lossy_char {c : Bytes} (h : IsChar c) (rest : Bytes) :
    fromUtf8Lossy (c ++ rest) = c ++ fromUtf8Lossy rest := by
  have hpos := h.length_pos
  rw [← lossy_fuel (Nat.le_succ (c ++ rest).length), lossy, h.recognized rest]
  dsimp only
  rw [List.take_left, List.drop_left, lossy_fuel (by rw [List.length_append]; omega)]

/-- A text in front stays as it is. -/
theorem fromUtf8Lossy_valid_append {text : Bytes} (h : Valid text) (rest : Bytes) :
    fromUtf8Lossy (text ++ rest) = text ++ fromUtf8Lossy rest := by
  obtain ⟨cs, hcs, rfl⟩ := h
  induction cs with
  | nil => rfl
  | cons c cs ih =>
    rw [List.flatten_cons, List.append_assoc, List.append_assoc,
      fromUtf8Lossy_char (hcs c List.mem_cons_self),
      ih fun d hd => hcs d (List.mem_cons_of_mem c hd)]

theorem fromUtf8Lossy_of_valid {text : Bytes} (h : Valid text) : fromUtf8Lossy text = text := by
  have happend := fromUtf8Lossy_valid_append h []
  rwa [fromUtf8Lossy_nil, List.append_nil] at happend

theorem fromUtf8Lossy_malformed {bytes : Bytes} {n : Nat}
    (h : front bytes = .malformed (some n)) (future : Bytes) :
    fromUtf8Lossy (bytes ++ future) = replacement ++ fromUtf8Lossy (bytes.drop n ++ future) := by
  obtain ⟨hfront, hpos, hle⟩ := front_malformed_append h future
  rw [← lossy_fuel (Nat.le_succ (bytes ++ future).length), lossy, hfront]
  dsimp only
  rw [List.drop_append_of_le_length hle, lossy_fuel]
  rw [List.length_append, List.length_append, List.length_drop]
  omega

/-- The start of a character at the end of the input. -/
theorem fromUtf8Lossy_cut {bytes : Bytes} (h : front bytes = .malformed none) :
    fromUtf8Lossy bytes = replacement := by
  rw [← lossy_fuel (Nat.le_succ bytes.length), lossy, h]

/-! ## What validation reports -/

theorem validate_error {fuel position : Nat} {bytes : Bytes} {error : Utf8Error}
    (h : validate fuel bytes position = some error) :
    ∃ text rest, bytes = text ++ rest ∧ Valid text ∧ error.validUpTo = position + text.length ∧
      front rest = .malformed error.errorLen := by
  induction fuel generalizing bytes position with
  | zero => cases h
  | succ fuel ih =>
    rw [validate] at h
    cases hfront : front bytes with
    | done =>
      rw [hfront] at h
      cases h
    | malformed errorLen =>
      rw [hfront] at h
      cases h
      exact ⟨[], bytes, rfl, ⟨[], by simp, rfl⟩, rfl, hfront⟩
    | scalar width =>
      obtain ⟨c, rest, rfl, rfl, hc⟩ := front_eq_scalar hfront
      rw [hfront] at h
      dsimp only at h
      rw [List.drop_left] at h
      obtain ⟨text, tail, rfl, htext, hvalid, htail⟩ := ih h
      refine ⟨c ++ text, tail, (List.append_assoc _ _ _).symm,
        Valid.append ⟨[c], by simpa using hc, by simp⟩ htext, ?_, htail⟩
      rw [hvalid, List.length_append, Nat.add_assoc]

/-- The first error stands behind a text. -/
theorem fromUtf8_error {bytes : Bytes} {error : Utf8Error} (h : fromUtf8 bytes = some error) :
    ∃ text rest, bytes = text ++ rest ∧ Valid text ∧ error.validUpTo = text.length ∧
      front rest = .malformed error.errorLen := by
  obtain ⟨text, rest, hbytes, htext, hvalid, hrest⟩ := validate_error h
  exact ⟨text, rest, hbytes, htext, by rw [hvalid, Nat.zero_add], hrest⟩

theorem isChar_replacement : IsChar replacement := by
  refine ⟨fun rest => rfl, 0xEF, [0xBF, 0xBD], rfl, by decide, by simp [isContinuation],
    by decide⟩

theorem valid_replacement : Valid replacement :=
  ⟨[replacement], by simpa using isChar_replacement, by simp⟩

theorem valid_nil : Valid [] := ⟨[], by simp, rfl⟩

/-- The lossy decoding is a text. -/
theorem valid_fromUtf8Lossy (bytes : Bytes) : Valid (fromUtf8Lossy bytes) := by
  induction hlength : bytes.length using Nat.strong_induction_on generalizing bytes with
  | _ n ih =>
    cases herror : fromUtf8 bytes with
    | none =>
      have hvalid := fromUtf8_eq_none_iff.1 herror
      rwa [fromUtf8Lossy_of_valid hvalid]
    | some error =>
      obtain ⟨text, rest, rfl, htext, -, hrest⟩ := fromUtf8_error herror
      rw [fromUtf8Lossy_valid_append htext]
      refine htext.append ?_
      cases hlen : error.errorLen with
      | none =>
        rw [hlen] at hrest
        rw [fromUtf8Lossy_cut hrest]
        exact valid_replacement
      | some k =>
        rw [hlen] at hrest
        obtain ⟨-, hpos, hle⟩ := front_malformed_append hrest []
        have hstep := fromUtf8Lossy_malformed hrest []
        rw [List.append_nil, List.append_nil] at hstep
        rw [hstep]
        rw [List.length_append] at hlength
        exact valid_replacement.append
          (ih (rest.drop k).length (by rw [List.length_drop]; omega) _ rfl)

end Fluxcope.Library.Utf8
