import Fluxcope.Library.Machine
import Fluxcope.Library.Text
/-!
# Derived serialization to JSON values

A struct is written as an object, possibly without the fields that have their defaults.
It is read back field by field; a reader that denies unknown fields leaves none over.
Readers give `none` for what they reject.
-/

namespace Fluxcope.Library

inductive JsonValue
  | null
  | bool (value : Bool)
  | number (value : Int)
  | string (value : Text)
  | array (values : List JsonValue)
  | object (fields : List (String × JsonValue))

namespace JsonValue

abbrev Fields := List (String × JsonValue)

/-! ## Writing -/

/-- `skip_serializing_if` -/
def fieldUnless (skip : Bool) (name : String) (value : JsonValue) : Fields :=
  if skip then [] else [(name, value)]

section Types

variable {α : Type}

def writeOption (write : α → JsonValue) : Option α → JsonValue
  | none => .null
  | some value => write value

def writeList (write : α → JsonValue) (values : List α) : JsonValue := .array (values.map write)

/-! ## Reading -/

def readString : JsonValue → Option Text
  | .string value => some value
  | _ => none

def readBool : JsonValue → Option Bool
  | .bool value => some value
  | _ => none

/-- `u64` and `usize` -/
def readWord : JsonValue → Option Nat
  | .number value => if 0 ≤ value ∧ value ≤ wordMax then some value.toNat else none
  | _ => none

def readOption (read : JsonValue → Option α) : JsonValue → Option (Option α)
  | .null => some none
  | value => (read value).map some

def readList (read : JsonValue → Option α) : JsonValue → Option (List α)
  | .array values => values.mapM read
  | _ => none

/-- Readers of fields, with the fields that no reader has taken. -/
abbrev FieldReader (α : Type) := StateT Fields Option α

/-- The value of a field, which is taken out. -/
def takeField (name : String) (fields : Fields) : Option JsonValue × Fields :=
  (fields.lookup name, fields.eraseP fun entry => entry.1 == name)

/-- A field that must be there. -/
def field (name : String) (read : JsonValue → Option α) : FieldReader α := fun fields =>
  match takeField name fields with
  | (none, _) => none
  | (some value, rest) => (read value).map fun x => (x, rest)

/-- `#[serde(default)]` -/
def fieldOr (default : α) (name : String) (read : JsonValue → Option α) : FieldReader α :=
  fun fields =>
    match takeField name fields with
    | (none, rest) => some (default, rest)
    | (some value, rest) => (read value).map fun x => (x, rest)

/-- An optional field may be missing, or null. -/
def fieldOption (name : String) (read : JsonValue → Option α) : FieldReader (Option α) :=
  fieldOr none name (readOption read)

/-- `#[serde(deny_unknown_fields)]` -/
def readAll (reader : FieldReader α) (fields : Fields) : Option α :=
  match reader fields with
  | some (value, []) => some value
  | _ => none

def readStruct (reader : FieldReader α) : JsonValue → Option α
  | .object fields => readAll reader fields
  | _ => none

/-- An internally tagged enumeration: the variant that the tag names reads the other fields. -/
def readTagged (tag : String) (variant : Text → Option (FieldReader α)) : JsonValue → Option α
  | .object fields =>
    match takeField tag fields with
    | (some (.string name), rest) => (variant name).bind fun reader => readAll reader rest
    | _ => none
  | _ => none

/-! ## Reading what was written -/

theorem readString_string (value : Text) : readString (.string value) = some value := rfl

theorem readBool_bool (value : Bool) : readBool (.bool value) = some value := rfl

theorem readWord_number {value : Nat} (h : value ≤ wordMax) :
    readWord (.number value) = some value := by
  have hbounds : 0 ≤ (value : Int) ∧ (value : Int) ≤ wordMax := ⟨Int.natCast_nonneg _, by omega⟩
  rw [readWord, if_pos hbounds, Int.toNat_natCast]

variable {β : Type}

theorem readOption_write {read : JsonValue → Option β} {write : α → JsonValue} {f : α → β}
    {value : Option α} (hread : ∀ x, value = some x → read (write x) = some (f x))
    (hnull : ∀ x, write x ≠ .null) :
    readOption read (writeOption write value) = some (value.map f) := by
  cases value with
  | none => rfl
  | some x =>
    have hx := hread x rfl
    have hne := hnull x
    rw [writeOption]
    cases hwrite : write x with
    | null => exact absurd hwrite hne
    | _ =>
      rw [hwrite] at hx
      rw [readOption, hx, Option.map_some, Option.map_some]
      exact fun h => by cases h

theorem readList_write {read : JsonValue → Option β} {write : α → JsonValue} {f : α → β}
    {values : List α} (hread : ∀ x ∈ values, read (write x) = some (f x)) :
    readList read (writeList write values) = some (values.map f) := by
  rw [writeList, readList]
  induction values with
  | nil => rfl
  | cons x values ih =>
    have hrest := ih fun y hy => hread y (List.mem_cons_of_mem x hy)
    rw [List.map_cons, List.mapM_cons, hread x List.mem_cons_self, hrest]
    rfl

theorem takeField_cons (name : String) (value : JsonValue) (rest : Fields) :
    takeField name ((name, value) :: rest) = (some value, rest) := by
  simp [takeField]

theorem takeField_absent {name : String} {fields : Fields} (h : name ∉ fields.map Prod.fst) :
    takeField name fields = (none, fields) := by
  have hlookup : fields.lookup name = none := by
    rw [List.lookup_eq_none_iff]
    intro entry hentry
    rw [bne_iff_ne]
    exact fun heq => h (heq ▸ List.mem_map_of_mem hentry)
  have herase : fields.eraseP (fun entry => entry.1 == name) = fields :=
    List.eraseP_of_forall_not fun entry hentry heq =>
      h (eq_of_beq heq ▸ List.mem_map_of_mem hentry)
  rw [takeField, hlookup, herase]

theorem field_cons {name : String} {read : JsonValue → Option α} {value : JsonValue} {x : α}
    (hread : read value = some x) (rest : Fields) :
    field name read ((name, value) :: rest) = some (x, rest) := by
  rw [field, takeField_cons]
  dsimp only
  rw [hread, Option.map_some]

theorem fieldOr_cons {name : String} {read : JsonValue → Option α} {default x : α}
    {value : JsonValue} (hread : read value = some x) (rest : Fields) :
    fieldOr default name read ((name, value) :: rest) = some (x, rest) := by
  rw [fieldOr, takeField_cons]
  dsimp only
  rw [hread, Option.map_some]

/-- A field that is left out at its default reads as the default. -/
theorem fieldOr_fieldUnless {name : String} {read : JsonValue → Option α} {default x : α}
    {skip : Bool} {value : JsonValue} {rest : Fields} (hskip : skip = true → x = default)
    (hread : read value = some x) (habsent : name ∉ rest.map Prod.fst) :
    fieldOr default name read (fieldUnless skip name value ++ rest) = some (x, rest) := by
  cases skip with
  | true =>
    rw [fieldUnless, if_pos rfl, List.nil_append, fieldOr, takeField_absent habsent]
    dsimp only
    rw [hskip rfl]
  | false => exact fieldOr_cons hread rest

theorem fieldOr_fieldUnless_nil {name : String} {read : JsonValue → Option α} {default x : α}
    {skip : Bool} {value : JsonValue} (hskip : skip = true → x = default)
    (hread : read value = some x) :
    fieldOr default name read (fieldUnless skip name value) = some (x, []) := by
  have h := @fieldOr_fieldUnless _ name read default x skip value [] hskip hread
    (List.not_mem_nil)
  rwa [List.append_nil] at h

theorem absent_fieldUnless {name other : String} (h : name ≠ other) (skip : Bool)
    (value : JsonValue) : name ∉ (fieldUnless skip other value).map Prod.fst := by
  cases skip with
  | true => exact List.not_mem_nil
  | false => exact fun hmem => h (List.mem_singleton.1 hmem)

theorem absent_append {name : String} {fields rest : Fields} (h : name ∉ fields.map Prod.fst)
    (h' : name ∉ rest.map Prod.fst) : name ∉ (fields ++ rest).map Prod.fst := by
  rw [List.map_append, List.mem_append]
  exact fun hmem => hmem.elim h h'

/-- The next reader works on the fields that are left. -/
theorem bind_reader {reader : FieldReader α} {next : α → FieldReader β} {fields rest : Fields}
    {x : α} {result : Option (β × Fields)} (h : reader fields = some (x, rest))
    (hnext : next x rest = result) : (reader >>= next) fields = result := by
  change (reader fields).bind (fun (x, rest) => next x rest) = result
  rw [h, Option.bind_some]
  exact hnext

theorem readAll_eq {reader : FieldReader α} {fields : Fields} {x : α}
    (h : reader fields = some (x, [])) : readAll reader fields = some x := by
  rw [readAll, h]

theorem readTagged_cons {tag : String} {variant : Text → Option (FieldReader α)} {name : Text}
    {reader : FieldReader α} {fields : Fields} {x : α} (hvariant : variant name = some reader)
    (h : reader fields = some (x, [])) :
    readTagged tag variant (.object ((tag, .string name) :: fields)) = some x := by
  rw [readTagged, takeField_cons]
  dsimp only
  rw [hvariant, Option.bind_some, readAll_eq h]

end Types

end JsonValue

end Fluxcope.Library
