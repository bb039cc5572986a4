import Mathlib.Algebra.Order.Ring.Nat
import Mathlib.Data.List.DropRight
/-!
# Text

Strings are lists of characters.  Trimming removes the white space of Unicode
at both ends.
-/

namespace Fluxcope.Library

abbrev Text := List Char

instance : LawfulBEq Text := inferInstance

namespace Text

/-- The characters with the property `White_Space`. -/
def isWhitespace (c : Char) : Bool :=
  let n := c.toNat
  (9 ≤ n && n ≤ 13) || n = 0x20 || n = 0x85 || n = 0xA0 || n = 0x1680 ||
    (0x2000 ≤ n && n ≤ 0x200A) || n = 0x2028 || n = 0x2029 || n = 0x202F || n = 0x205F ||
    n = 0x3000

def trim (s : Text) : Text := (s.dropWhile isWhitespace).rdropWhile isWhitespace

def toAsciiLowercase (s : Text) : Text := s.map Char.toLower

/-- The length in bytes. -/
def utf8Len (s : Text) : Nat := (s.map fun c => c.utf8Size).sum

theorem utf8Len_append (s t : Text) : utf8Len (s ++ t) = utf8Len s + utf8Len t := by
  simp [utf8Len]

/-- What stands before and after the first occurrence of `pattern`. -/
def splitOnce (pattern : Text) : Text → Option (Text × Text)
  | [] => if pattern = [] then some ([], []) else none
  | c :: s =>
    if pattern.isPrefixOf (c :: s) then some ([], (c :: s).drop pattern.length)
    else (splitOnce pattern s).map fun (before, after) => (c :: before, after)

/-! ## Trimming -/

theorem trim_trim (s : Text) : trim (trim s) = trim s := by
  have hfront : (trim s).dropWhile isWhitespace = trim s := by
    rw [List.dropWhile_eq_self_iff]
    intro hpos
    obtain ⟨rest, hrest⟩ := List.rdropWhile_prefix isWhitespace (l := s.dropWhile isWhitespace)
    have hpos' : 0 < (s.dropWhile isWhitespace).length := by
      rw [← hrest, List.length_append]
      exact Nat.add_pos_left hpos rest.length
    have hfirst : (s.dropWhile isWhitespace)[0] = (trim s)[0] := by
      rw [← @List.getElem_append_left _ _ _ rest hpos]
      exact List.getElem_of_eq hrest.symm hpos'
    rw [← hfirst]
    exact List.dropWhile_get_zero_not isWhitespace s hpos'
  rw [trim, hfront]
  exact List.rdropWhile_idempotent isWhitespace (s.dropWhile isWhitespace)

end Text

end Fluxcope.Library

/-!
## Text at byte offsets

Offsets into a text count bytes.  An offset inside a character is not a place of the
text: slicing there is an error, which is `none` here.
-/

namespace Fluxcope.Library.Text

/-- The parts of the text before and after the offset. -/
def splitAtByte : Text → Nat → Option (Text × Text)
  | text, 0 => some ([], text)
  | [], _ + 1 => none
  | c :: text, offset + 1 =>
    if c.utf8Size ≤ offset + 1 then
      (splitAtByte text (offset + 1 - c.utf8Size)).map fun (before, after) => (c :: before, after)
    else none

/-- `String::insert_str` -/
def insertAt (text : Text) (offset : Nat) (inserted : Text) : Option Text :=
  (splitAtByte text offset).map fun (before, after) => before ++ inserted ++ after

/-- `String::drain` -/
def drain (text : Text) (start stop : Nat) : Option Text := do
  let (before, rest) ← splitAtByte text start
  if start ≤ stop then
    let (_, after) ← splitAtByte rest (stop - start)
    return before ++ after
  else none

/-- `String::truncate`, which leaves shorter texts alone. -/
def truncate (text : Text) (length : Nat) : Option Text :=
  if length ≤ utf8Len text then (splitAtByte text length).map Prod.fst else some text

@[simp] theorem utf8Len_nil : utf8Len [] = 0 := rfl

@[simp] theorem utf8Len_cons (c : Char) (text : Text) :
    utf8Len (c :: text) = c.utf8Size + utf8Len text := rfl

theorem splitAtByte_append (before after : Text) :
    splitAtByte (before ++ after) (utf8Len before) = some (before, after) := by
  induction before with
  | nil => rw [List.nil_append, utf8Len_nil, splitAtByte]
  | cons c before ih =>
    have hpos := c.utf8Size_pos
    obtain ⟨offset, hoffset⟩ : ∃ offset, utf8Len (c :: before) = offset + 1 :=
      Nat.exists_eq_succ_of_ne_zero (by rw [utf8Len_cons]; omega)
    have hrest : offset + 1 - c.utf8Size = utf8Len before := by
      rw [← hoffset, utf8Len_cons, Nat.add_sub_cancel_left]
    have hfits : c.utf8Size ≤ offset + 1 := by
      rw [← hoffset, utf8Len_cons]
      exact Nat.le_add_right _ _
    rw [hoffset, List.cons_append, splitAtByte, if_pos hfits, hrest, ih, Option.map_some]

theorem insertAt_append (before after inserted : Text) :
    insertAt (before ++ after) (utf8Len before) inserted = some (before ++ inserted ++ after) := by
  rw [insertAt, splitAtByte_append, Option.map_some]

theorem drain_append (before removed after : Text) :
    drain (before ++ removed ++ after) (utf8Len before) (utf8Len (before ++ removed)) =
      some (before ++ after) := by
  have hlength : utf8Len (before ++ removed) - utf8Len before = utf8Len removed := by
    rw [utf8Len_append, Nat.add_sub_cancel_left]
  have hle : utf8Len before ≤ utf8Len (before ++ removed) := by
    rw [utf8Len_append]
    exact Nat.le_add_right _ _
  rw [drain, List.append_assoc, splitAtByte_append]
  simp only [bind, Option.bind, if_pos hle, hlength, splitAtByte_append]
  rfl

theorem truncate_append (kept more : Text) : truncate (kept ++ more) (utf8Len kept) = some kept := by
  rw [truncate, if_pos (by rw [utf8Len_append]; exact Nat.le_add_right _ _), splitAtByte_append,
    Option.map_some]

end Fluxcope.Library.Text
