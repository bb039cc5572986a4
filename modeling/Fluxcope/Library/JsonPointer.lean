import Mathlib.Data.List.Nodup
import Fluxcope.Library.JsonText
/-!
# JSON pointers

A pointer names a value by the keys and indices on the way to it.  In a document
without duplicate keys every value has a pointer of its own.
-/

namespace Fluxcope.Library

/-! ## Segments -/

def escapePointerChar (c : Char) : Text :=
  if c = '~' then ['~', '0'] else if c = '/' then ['~', '1'] else [c]

def escapePointerSegment (segment : Text) : Text := segment.flatMap escapePointerChar

/-- The pointer of a child. -/
def childPointer (pointer segment : Text) : Text := pointer ++ '/' :: escapePointerSegment segment

def indexSegment (index : Nat) : Text := Nat.toDigits 10 index

@[simp] theorem escapePointerSegment_cons (c : Char) (segment : Text) :
    escapePointerSegment (c :: segment) = escapePointerChar c ++ escapePointerSegment segment :=
  List.flatMap_cons

/-- The front of an escaped text tells its first character. -/
theorem escapePointerChar_append {c c' : Char} {rest rest' : Text}
    (h : escapePointerChar c ++ rest = escapePointerChar c' ++ rest') : c = c' ∧ rest = rest' := by
  unfold escapePointerChar at h
  by_cases htilde : c = '~' <;> by_cases htilde' : c' = '~' <;>
    by_cases hslash : c = '/' <;> by_cases hslash' : c' = '/' <;>
    simp_all [eq_comm (b := c')]

theorem slash_notMem_escapePointerSegment (segment : Text) : '/' ∉ escapePointerSegment segment := by
  intro h
  obtain ⟨c, -, hc⟩ := List.mem_flatMap.1 h
  unfold escapePointerChar at hc
  split at hc
  · revert hc
    decide
  · split at hc
    · revert hc
      decide
    · rename_i hslash
      exact hslash (List.mem_singleton.1 hc).symm

theorem escapePointerSegment_injective {segment segment' : Text}
    (h : escapePointerSegment segment = escapePointerSegment segment') : segment = segment' := by
  induction segment generalizing segment' with
  | nil =>
    cases segment' with
    | nil => rfl
    | cons c segment' =>
      rw [escapePointerSegment_cons] at h
      unfold escapePointerChar at h
      split at h
      · cases h
      · split at h <;> cases h
  | cons c segment ih =>
    cases segment' with
    | nil =>
      rw [escapePointerSegment_cons] at h
      unfold escapePointerChar at h
      split at h
      · cases h
      · split at h <;> cases h
    | cons c' segment' =>
      rw [escapePointerSegment_cons, escapePointerSegment_cons] at h
      obtain ⟨hchar, hrest⟩ := escapePointerChar_append h
      rw [hchar, ih hrest]

/-- The pointer with these segments. -/
def pointerOf (segments : List Text) : Text :=
  segments.flatMap fun segment => '/' :: escapePointerSegment segment

theorem childPointer_pointerOf (segments : List Text) (segment : Text) :
    childPointer (pointerOf segments) segment = pointerOf (segments ++ [segment]) := by
  unfold childPointer pointerOf
  rw [List.flatMap_append, List.flatMap_singleton]

/-- The slashes tell the escaped segments apart. -/
theorem splitOn_pointerOf (segment : Text) (segments : List Text) :
    (escapePointerSegment segment ++ pointerOf segments).splitOn '/' =
      escapePointerSegment segment :: segments.map escapePointerSegment := by
  induction segments generalizing segment with
  | nil =>
    rw [pointerOf, List.flatMap_nil, List.append_nil]
    exact List.splitOn_eq_singleton (slash_notMem_escapePointerSegment segment)
  | cons next segments ih =>
    have hnext : pointerOf (next :: segments) =
        '/' :: (escapePointerSegment next ++ pointerOf segments) := rfl
    rw [hnext, List.map_cons, List.splitOn_append_cons_self_of_not_mem
      (slash_notMem_escapePointerSegment segment), ih]

/-! ## Below a pointer -/

/-- The pointer of the value or of one inside it. -/
def Below (pointer target : Text) : Prop :=
  ∃ rest, target = pointer ++ rest ∧ ∀ c ∈ rest.head?, c = '/'

theorem below_self (pointer : Text) : Below pointer pointer :=
  ⟨[], (List.append_nil pointer).symm, fun c h => by cases h⟩

theorem Below.of_child {pointer segment target : Text}
    (h : Below (childPointer pointer segment) target) : Below pointer target := by
  obtain ⟨rest, rfl, -⟩ := h
  refine ⟨'/' :: escapePointerSegment segment ++ rest, ?_, ?_⟩
  · simp [childPointer]
  · rintro _ ⟨⟩
    rfl

theorem not_below_child_self (pointer segment : Text) : ¬ Below (childPointer pointer segment) pointer := by
  rintro ⟨rest, h, -⟩
  have hlength := congrArg List.length h
  simp [childPointer] at hlength

/-- The front of a pointer up to its next slash. -/
theorem takeWhile_segment {segment rest : Text} (hrest : ∀ c ∈ rest.head?, c = '/') :
    (escapePointerSegment segment ++ rest).takeWhile (· ≠ '/') = escapePointerSegment segment := by
  have hsegment : ∀ c ∈ escapePointerSegment segment, (c ≠ '/' : Bool) = true := by
    intro c hc
    refine decide_eq_true fun h => ?_
    rw [h] at hc
    exact slash_notMem_escapePointerSegment segment hc
  rw [List.takeWhile_append_of_pos hsegment]
  cases rest with
  | nil => exact List.append_nil _
  | cons c rest =>
    rw [hrest c rfl, List.takeWhile_cons_of_neg (by decide), List.append_nil]

/-- Different children have nothing below them in common. -/
theorem Below.segment_eq {pointer segment segment' target : Text}
    (h : Below (childPointer pointer segment) target)
    (h' : Below (childPointer pointer segment') target) : segment = segment' := by
  obtain ⟨rest, htarget, hrest⟩ := h
  obtain ⟨rest', htarget', hrest'⟩ := h'
  have heq : escapePointerSegment segment ++ rest = escapePointerSegment segment' ++ rest' := by
    have h := htarget.symm.trans htarget'
    simp only [childPointer, List.append_assoc, List.cons_append] at h
    exact (List.cons.inj (List.append_cancel_left h)).2
  apply escapePointerSegment_injective
  rw [← (@takeWhile_segment segment) hrest, heq, takeWhile_segment hrest']

theorem indexSegment_injective {i j : Nat} (h : indexSegment i = indexSegment j) : i = j := by
  rw [← @Nat.ofDigitChars_ten_toDigits i, ← @Nat.ofDigitChars_ten_toDigits j]
  exact congrArg (Nat.ofDigitChars 10 · 0) h

/-! ## The values of a document -/

mutual

/-- All values of a document with their pointers, each container before its children. -/
def Json.values (pointer : Text) : Json → List (Text × Json)
  | .scalar token => [(pointer, .scalar token)]
  | .array elements close => (pointer, .array elements close) :: elements.values pointer 0
  | .object members close => (pointer, .object members close) :: members.values pointer

def Elements.values (pointer : Text) (index : Nat) : Elements → List (Text × Json)
  | .nil => []
  | .cons _ value rest =>
    value.values (childPointer pointer (indexSegment index)) ++ rest.values pointer (index + 1)

def Members.values (pointer : Text) : Members → List (Text × Json)
  | .nil => []
  | .cons _ key _ value rest => value.values (childPointer pointer key.text) ++ rest.values pointer

end

/-- The values inside a container. -/
def Json.inside (pointer : Text) : Json → List (Text × Json)
  | .scalar _ => []
  | .array elements _ => elements.values pointer 0
  | .object members _ => members.values pointer

theorem Json.values_eq (pointer : Text) (value : Json) :
    value.values pointer = (pointer, value) :: value.inside pointer := by
  cases value with
  | scalar token => rw [values, inside]
  | array elements close => rw [values, inside]
  | object members close => rw [values, inside]

/-- The first value with this pointer. -/
def firstAt (target : Text) (values : List (Text × Json)) : Option Json :=
  (values.find? fun entry => entry.1 = target).map Prod.snd

theorem firstAt_append (target : Text) (values more : List (Text × Json)) :
    firstAt target (values ++ more) = (firstAt target values).or (firstAt target more) := by
  unfold firstAt
  rw [List.find?_append]
  cases values.find? fun entry => entry.1 = target <;> rfl

theorem firstAt_cons_of_ne {target pointer : Text} (h : pointer ≠ target) (value : Json)
    (values : List (Text × Json)) : firstAt target ((pointer, value) :: values) = firstAt target values := by
  unfold firstAt
  rw [List.find?_cons_of_neg]
  simpa using h

theorem firstAt_cons_self (target : Text) (value : Json) (values : List (Text × Json)) :
    firstAt target ((target, value) :: values) = some value := by
  simp [firstAt]

theorem mem_of_firstAt {target : Text} {values : List (Text × Json)} {value : Json}
    (h : firstAt target values = some value) : (target, value) ∈ values := by
  obtain ⟨⟨pointer, found⟩, hfind, rfl⟩ := Option.map_eq_some_iff.1 h
  have hpointer : pointer = target := by simpa using List.find?_some hfind
  rw [← hpointer]
  exact List.mem_of_find?_eq_some hfind

theorem exists_firstAt {target : Text} {values : List (Text × Json)} {value : Json}
    (h : (target, value) ∈ values) : ∃ found, firstAt target values = some found := by
  have hsome : (values.find? fun entry => entry.1 = target).isSome = true :=
    List.find?_isSome.2 ⟨_, h, decide_eq_true rfl⟩
  obtain ⟨entry, hentry⟩ := Option.isSome_iff_exists.1 hsome
  exact ⟨entry.2, by rw [firstAt, hentry, Option.map_some]⟩

/-! ### Where the values are -/

mutual

theorem Json.below_of_mem_values {pointer target : Text} {found : Json} :
    ∀ value : Json, (target, found) ∈ value.values pointer → Below pointer target
  | .scalar token, h => by
      obtain ⟨rfl, -⟩ := Prod.mk.inj (List.mem_singleton.1 h)
      exact below_self target
  | .array elements close, h => by
      rcases List.mem_cons.1 h with h | h
      · obtain ⟨rfl, -⟩ := Prod.mk.inj h
        exact below_self target
      · obtain ⟨i, -, hbelow⟩ := elements.below_of_mem_values h
        exact hbelow.of_child
  | .object members close, h => by
      rcases List.mem_cons.1 h with h | h
      · obtain ⟨rfl, -⟩ := Prod.mk.inj h
        exact below_self target
      · obtain ⟨key, -, hbelow⟩ := members.below_of_mem_values h
        exact hbelow.of_child

theorem Elements.below_of_mem_values {pointer target : Text} {index : Nat} {found : Json} :
    ∀ elements : Elements, (target, found) ∈ elements.values pointer index →
      ∃ i, index ≤ i ∧ Below (childPointer pointer (indexSegment i)) target
  | .nil, h => by cases h
  | .cons _ value rest, h => by
      rcases List.mem_append.1 h with h | h
      · exact ⟨index, le_rfl, Json.below_of_mem_values value h⟩
      · obtain ⟨i, hi, hbelow⟩ := rest.below_of_mem_values h
        exact ⟨i, Nat.le_of_succ_le hi, hbelow⟩

theorem Members.below_of_mem_values {pointer target : Text} {found : Json} :
    ∀ members : Members, (target, found) ∈ members.values pointer →
      ∃ key ∈ members.keys, Below (childPointer pointer key) target
  | .nil, h => by cases h
  | .cons _ key _ value rest, h => by
      rcases List.mem_append.1 h with h | h
      · exact ⟨key.text, List.mem_cons_self, Json.below_of_mem_values value h⟩
      · obtain ⟨key', hkey', hbelow⟩ := rest.below_of_mem_values h
        exact ⟨key', List.mem_cons_of_mem _ hkey', hbelow⟩

end

mutual

/-- A pointer names at most one value. -/
theorem Json.values_unique {pointer target : Text} {found found' : Json} :
    ∀ value : Json, value.DistinctKeys → (target, found) ∈ value.values pointer →
      (target, found') ∈ value.values pointer → found = found'
  | .scalar token, _, h, h' => by
      obtain ⟨-, rfl⟩ := Prod.mk.inj (List.mem_singleton.1 h)
      obtain ⟨-, rfl⟩ := Prod.mk.inj (List.mem_singleton.1 h')
      rfl
  | .array elements close, hdistinct, h, h' => by
      rcases List.mem_cons.1 h with h | h <;> rcases List.mem_cons.1 h' with h' | h'
      · rw [(Prod.mk.inj h).2, (Prod.mk.inj h').2]
      · obtain ⟨i, -, hbelow⟩ := elements.below_of_mem_values h'
        rw [(Prod.mk.inj h).1] at hbelow
        exact absurd hbelow (not_below_child_self _ _)
      · obtain ⟨i, -, hbelow⟩ := elements.below_of_mem_values h
        rw [(Prod.mk.inj h').1] at hbelow
        exact absurd hbelow (not_below_child_self _ _)
      · exact elements.values_unique hdistinct h h'
  | .object members close, hdistinct, h, h' => by
      rcases List.mem_cons.1 h with h | h <;> rcases List.mem_cons.1 h' with h' | h'
      · rw [(Prod.mk.inj h).2, (Prod.mk.inj h').2]
      · obtain ⟨key, -, hbelow⟩ := members.below_of_mem_values h'
        rw [(Prod.mk.inj h).1] at hbelow
        exact absurd hbelow (not_below_child_self _ _)
      · obtain ⟨key, -, hbelow⟩ := members.below_of_mem_values h
        rw [(Prod.mk.inj h').1] at hbelow
        exact absurd hbelow (not_below_child_self _ _)
      · exact members.values_unique hdistinct.1 hdistinct.2 h h'

theorem Elements.values_unique {pointer target : Text} {index : Nat} {found found' : Json} :
    ∀ elements : Elements, elements.DistinctKeys → (target, found) ∈ elements.values pointer index →
      (target, found') ∈ elements.values pointer index → found = found'
  | .nil, _, h, _ => by cases h
  | .cons _ value rest, hdistinct, h, h' => by
      have hrest : ∀ {found}, (target, found) ∈ rest.values pointer (index + 1) →
          ¬ Below (childPointer pointer (indexSegment index)) target := by
        intro found hmem hbelow
        obtain ⟨i, hi, hother⟩ := rest.below_of_mem_values hmem
        have heq := indexSegment_injective (hbelow.segment_eq hother)
        omega
      rcases List.mem_append.1 h with h | h <;> rcases List.mem_append.1 h' with h' | h'
      · exact Json.values_unique value hdistinct.1 h h'
      · exact absurd (Json.below_of_mem_values value h) (hrest h')
      · exact absurd (Json.below_of_mem_values value h') (hrest h)
      · exact rest.values_unique hdistinct.2 h h'

theorem Members.values_unique {pointer target : Text} {found found' : Json} :
    ∀ members : Members, members.keys.Nodup → members.DistinctKeys →
      (target, found) ∈ members.values pointer → (target, found') ∈ members.values pointer →
        found = found'
  | .nil, _, _, h, _ => by cases h
  | .cons _ key _ value rest, hnodup, hdistinct, h, h' => by
      obtain ⟨hfresh, hnodup⟩ := List.nodup_cons.1 hnodup
      have hrest : ∀ {found}, (target, found) ∈ rest.values pointer →
          ¬ Below (childPointer pointer key.text) target := by
        intro found hmem hbelow
        obtain ⟨key', hkey', hother⟩ := rest.below_of_mem_values hmem
        rw [hbelow.segment_eq hother] at hfresh
        exact hfresh hkey'
      rcases List.mem_append.1 h with h | h <;> rcases List.mem_append.1 h' with h' | h'
      · exact Json.values_unique value hdistinct.1 h h'
      · exact absurd (Json.below_of_mem_values value h) (hrest h')
      · exact absurd (Json.below_of_mem_values value h') (hrest h)
      · exact rest.values_unique hnodup hdistinct.2 h h'

end

end Fluxcope.Library
