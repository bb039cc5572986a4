import Mathlib.Data.List.Basic
import Mathlib.Data.List.Nodup
/-!
# Maps and their entries

A map filled by inserting a list of entries holds under each key the value of
the last entry with that key.  The map is any type with a lookup and an insertion
that obey the one law below.
-/

namespace Fluxcope.Library

variable {M K V : Type*} [DecidableEq K]

/-- The value of the last entry with this key. -/
def lastOf (entries : List (K × V)) (key : K) : Option V :=
  (entries.reverse.find? fun entry => entry.1 = key).map Prod.snd

theorem lastOf_cons (entry : K × V) (entries : List (K × V)) (key : K) :
    lastOf (entry :: entries) key =
      (lastOf entries key).or (if entry.1 = key then some entry.2 else none) := by
  unfold lastOf
  rw [List.reverse_cons, List.find?_append]
  cases entries.reverse.find? fun entry => entry.1 = key with
  | some found => rfl
  | none => by_cases hkey : entry.1 = key <;> simp [hkey]

theorem lastOf_eq_some_iff {entries : List (K × V)} {key : K} {value : V} :
    lastOf entries key = some value ↔
      ∃ before after, entries = before ++ (key, value) :: after ∧
        ∀ entry ∈ after, entry.1 ≠ key := by
  unfold lastOf
  constructor
  · intro h
    obtain ⟨⟨_, _⟩, hfound, rfl⟩ := Option.map_eq_some_iff.1 h
    obtain ⟨hkey, after, before, hsplit, hafter⟩ := List.find?_eq_some_iff_append.1 hfound
    obtain rfl := of_decide_eq_true hkey
    refine ⟨before.reverse, after.reverse, ?_, fun entry hentry => ?_⟩
    · rw [← List.reverse_reverse entries, hsplit]
      simp
    · simpa using hafter entry (List.mem_reverse.1 hentry)
  · rintro ⟨before, after, rfl, hafter⟩
    rw [List.reverse_append, List.reverse_cons, List.append_assoc]
    rw [List.find?_append, List.find?_eq_none.2]
    · simp
    · intro entry hentry
      simpa using hafter entry (List.mem_reverse.1 hentry)

/-- Where the entries come in the order of a rank, the last one has the largest rank. -/
theorem lastOf_eq_some_iff_max {entries : List (K × V)} {rank : V → ℕ}
    (hsorted : entries.Pairwise fun e e' => rank e.2 < rank e'.2) {key : K} {value : V} :
    lastOf entries key = some value ↔
      (key, value) ∈ entries ∧ ∀ value', (key, value') ∈ entries → rank value' ≤ rank value := by
  rw [lastOf_eq_some_iff]
  constructor
  · rintro ⟨before, after, rfl, hafter⟩
    refine ⟨List.mem_append_right _ List.mem_cons_self, fun value' hvalue' => ?_⟩
    rcases List.mem_append.1 hvalue' with hbefore | hcons
    · exact Nat.le_of_lt ((List.pairwise_append.1 hsorted).2.2 _ hbefore _ List.mem_cons_self)
    · rcases List.mem_cons.1 hcons with heq | hmem
      · exact Nat.le_of_eq (congrArg rank (Prod.mk.inj heq).2)
      · exact absurd rfl (hafter _ hmem)
  · rintro ⟨hmem, hmax⟩
    obtain ⟨before, after, rfl⟩ := List.append_of_mem hmem
    refine ⟨before, after, rfl, ?_⟩
    rintro ⟨_, value'⟩ hentry rfl
    have hle := hmax value' (List.mem_append_right _ (List.mem_cons_of_mem _ hentry))
    have hlt := (List.pairwise_cons.1 (List.pairwise_append.1 hsorted).2.1).1 _ hentry
    exact Nat.not_lt.2 hle hlt

theorem lastOf_eq_none_iff {entries : List (K × V)} {key : K} :
    lastOf entries key = none ↔ ∀ entry ∈ entries, entry.1 ≠ key := by
  simp [lastOf, List.find?_eq_none]

/-! ## Filling a map -/

section Fill

variable {get : M → K → Option V} {insert : M → K → V → M}

/-- The law of a map: an insertion is seen under its key and nowhere else. -/
def LawfulInsert (get : M → K → Option V) (insert : M → K → V → M) : Prop :=
  ∀ map key value other,
    get (insert map key value) other = if key = other then some value else get map other

/-- A map filled entry by entry holds the last entry of each key. -/
theorem get_foldl_insert (hlaw : LawfulInsert get insert) (entries : List (K × V)) (map : M)
    (key : K) :
    get (entries.foldl (fun map entry => insert map entry.1 entry.2) map) key =
      (lastOf entries key).or (get map key) := by
  induction entries generalizing map with
  | nil => rfl
  | cons entry entries ih =>
    rw [List.foldl_cons, ih, hlaw, lastOf_cons]
    cases lastOf entries key with
    | some value => rfl
    | none => by_cases hkey : entry.1 = key <;> simp [hkey]

end Fill

end Fluxcope.Library

/-!
## Lists of pairs as maps

The pairs of a map have distinct keys.  A map without an order gets a new pair in
front; a map in the order of its keys gets it where it belongs.
-/

namespace Fluxcope.Library.Assoc

variable {K V : Type*} [DecidableEq K] {map : List (K × V)} {key : K} {value : V}

def erase (map : List (K × V)) (key : K) : List (K × V) := map.filter fun pair => pair.1 ≠ key

def insert (map : List (K × V)) (key : K) (value : V) : List (K × V) :=
  (key, value) :: erase map key

/-- The map with the value under the key changed. -/
def modify (map : List (K × V)) (key : K) (f : V → V) : List (K × V) :=
  map.map fun pair => if pair.1 = key then (pair.1, f pair.2) else pair

theorem mem_erase {pair : K × V} : pair ∈ erase map key ↔ pair ∈ map ∧ pair.1 ≠ key := by
  simp [erase]

theorem mem_of_lookup (h : map.lookup key = some value) : (key, value) ∈ map := by
  obtain ⟨before, after, rfl, -⟩ := List.lookup_eq_some_iff.1 h
  exact List.mem_append_right _ List.mem_cons_self

theorem lookup_eq_some_iff (hnodup : (map.map Prod.fst).Nodup) :
    map.lookup key = some value ↔ (key, value) ∈ map := by
  refine ⟨mem_of_lookup, fun h => ?_⟩
  obtain ⟨before, after, rfl⟩ := List.append_of_mem h
  refine List.lookup_eq_some_iff.2 ⟨before, after, rfl, fun pair hpair => ?_⟩
  rw [List.map_append, List.nodup_append] at hnodup
  have hne := hnodup.2.2 pair.1 (List.mem_map_of_mem hpair) key
    (by rw [List.map_cons]; exact List.mem_cons_self)
  simpa using Ne.symm hne

theorem lookup_erase_self : (erase map key).lookup key = none := by
  rw [List.lookup_eq_none_iff]
  intro pair hpair
  simpa using Ne.symm (mem_erase.1 hpair).2

theorem lookup_erase_of_ne {other : K} (hne : other ≠ key) :
    (erase map key).lookup other = map.lookup other := by
  induction map with
  | nil => rfl
  | cons pair map ih =>
    obtain ⟨k, v⟩ := pair
    unfold erase at ih ⊢
    rw [List.filter_cons]
    by_cases hk : k = key
    · have hother : (other == k) = false := by simpa [hk] using hne
      rw [if_neg (by simp [hk]), ih, List.lookup_cons, hother]
    · rw [if_pos (by simp [hk]), List.lookup_cons, List.lookup_cons, ih]

theorem lawfulInsert : LawfulInsert (fun (map : List (K × V)) key => map.lookup key) insert := by
  intro map key value other
  simp only [insert, List.lookup_cons]
  by_cases heq : other = key
  · subst heq
    simp
  · have hother : (other == key) = false := by simpa using heq
    rw [hother, if_neg (Ne.symm heq)]
    exact lookup_erase_of_ne heq

/-- Only the pair under the key changes. -/
theorem modify_eq (hnodup : (map.map Prod.fst).Nodup) (h : map.lookup key = some value)
    (f : V → V) :
    ∃ before after, map = before ++ (key, value) :: after ∧
      modify map key f = before ++ (key, f value) :: after := by
  obtain ⟨before, after, rfl⟩ := List.append_of_mem (mem_of_lookup h)
  refine ⟨before, after, rfl, ?_⟩
  rw [List.map_append, List.map_cons, List.nodup_append, List.nodup_cons] at hnodup
  obtain ⟨-, ⟨hafter, -⟩, hdisjoint⟩ := hnodup
  have hbefore : key ∉ before.map Prod.fst := fun h => hdisjoint key h key List.mem_cons_self rfl
  have hsame : ∀ pairs : List (K × V), key ∉ pairs.map Prod.fst → modify pairs key f = pairs := by
    intro pairs hpairs
    refine (List.map_congr_left fun pair hpair => if_neg fun h => hpairs ?_).trans (List.map_id pairs)
    rw [← h]
    exact List.mem_map_of_mem hpair
  have hsplit : modify (before ++ (key, value) :: after) key f =
      modify before key f ++ (key, f value) :: modify after key f := by
    unfold modify
    rw [List.map_append, List.map_cons, if_pos rfl]
  rw [hsplit, hsame before hbefore, hsame after hafter]

theorem map_fst_modify (f : V → V) : (modify map key f).map Prod.fst = map.map Prod.fst := by
  unfold modify
  rw [List.map_map]
  refine List.map_congr_left fun pair _ => ?_
  dsimp only [Function.comp_apply]
  split <;> rfl

theorem lookup_modify (f : V → V) (other : K) :
    (modify map key f).lookup other =
      if other = key then (map.lookup other).map f else map.lookup other := by
  induction map with
  | nil => split <;> rfl
  | cons pair map ih =>
    obtain ⟨k, v⟩ := pair
    unfold modify at ih ⊢
    rw [List.map_cons]
    by_cases hk : k = key <;> by_cases hother : other = k
    · subst hk hother
      simp
    · subst hk
      rw [if_pos rfl, List.lookup_cons, List.lookup_cons, beq_eq_false_iff_ne.2 hother]
      exact ih
    · subst hother
      rw [if_neg hk, if_neg hk, List.lookup_cons, List.lookup_cons, beq_self_eq_true]
    · rw [if_neg hk, List.lookup_cons, List.lookup_cons, beq_eq_false_iff_ne.2 hother]
      exact ih

/-- The map with the value under the key changed or removed. -/
def alter (map : List (K × V)) (key : K) (f : V → Option V) : List (K × V) :=
  map.filterMap fun pair =>
    if pair.1 = key then (f pair.2).map fun value => (pair.1, value) else some pair

theorem erase_eq_alter (map : List (K × V)) (key : K) :
    erase map key = alter map key fun _ => none := by
  unfold erase alter
  rw [← List.filterMap_eq_filter]
  refine List.filterMap_congr fun pair _ => ?_
  by_cases hkey : pair.1 = key <;> simp [hkey, Option.guard]

theorem modify_eq_alter (map : List (K × V)) (key : K) (f : V → V) :
    modify map key f = alter map key fun value => some (f value) := by
  unfold modify alter
  rw [← List.filterMap_eq_map]
  refine List.filterMap_congr fun pair _ => ?_
  by_cases hkey : pair.1 = key <;> simp [hkey]

theorem alter_of_lookup_none (f : V → Option V) (h : map.lookup key = none) :
    alter map key f = map := by
  unfold alter
  rw [List.filterMap_congr (g := some) fun pair hpair => if_neg fun hkey => ?_,
    List.filterMap_some]
  have hne := List.lookup_eq_none_iff.1 h pair hpair
  rw [hkey, bne_self_eq_false] at hne
  cases hne

theorem alter_some (map : List (K × V)) (key : K) : alter map key some = map := by
  unfold alter
  rw [List.filterMap_congr (g := some), List.filterMap_some]
  intro pair _
  split <;> rfl

/-- Only the pair under the key changes. -/
theorem alter_eq (hnodup : (map.map Prod.fst).Nodup) (h : map.lookup key = some value)
    (f : V → Option V) :
    ∃ before after, map = before ++ (key, value) :: after ∧
      alter map key f = before ++ ((f value).map fun next => (key, next)).toList ++ after := by
  obtain ⟨before, after, rfl⟩ := List.append_of_mem (mem_of_lookup h)
  refine ⟨before, after, rfl, ?_⟩
  rw [List.map_append, List.map_cons, List.nodup_append, List.nodup_cons] at hnodup
  obtain ⟨-, ⟨hafter, -⟩, hdisjoint⟩ := hnodup
  have hbefore : key ∉ before.map Prod.fst := fun h => hdisjoint key h key List.mem_cons_self rfl
  have hsame : ∀ pairs : List (K × V), key ∉ pairs.map Prod.fst → alter pairs key f = pairs :=
    fun pairs hpairs => alter_of_lookup_none f <| List.lookup_eq_none_iff.2 fun pair hpair => by
      have hne : key ≠ pair.1 := fun heq => hpairs (heq ▸ List.mem_map_of_mem hpair)
      simpa using hne
  have hsplit : alter (before ++ (key, value) :: after) key f =
      alter before key f ++
        ((f value).map fun next => (key, next)).toList ++ alter after key f := by
    unfold alter
    rw [List.filterMap_append, List.filterMap_cons, if_pos rfl, List.append_assoc]
    cases f value <;> rfl
  rw [hsplit, hsame before hbefore, hsame after hafter]

theorem alter_congr (hnodup : (map.map Prod.fst).Nodup) {f g : V → Option V}
    (h : ∀ value, map.lookup key = some value → f value = g value) :
    alter map key f = alter map key g := by
  unfold alter
  refine List.filterMap_congr fun pair hpair => ?_
  by_cases hkey : pair.1 = key
  · subst hkey
    rw [if_pos rfl, if_pos rfl, h pair.2 ((lookup_eq_some_iff hnodup).2 hpair)]
  · rw [if_neg hkey, if_neg hkey]

/-! ## Maps in the order of their keys -/

def insertSorted [LT K] [DecidableLT K] (map : List (K × V)) (key : K) (value : V) :
    List (K × V) :=
  match map with
  | [] => [(key, value)]
  | pair :: rest =>
    if key < pair.1 then (key, value) :: pair :: rest
    else if key = pair.1 then (key, value) :: rest
    else pair :: insertSorted rest key value

/-- The largest key goes to the end. -/
theorem insertSorted_of_lt {map : List (Nat × V)} {key : Nat} {value : V}
    (h : ∀ pair ∈ map, pair.1 < key) : insertSorted map key value = map ++ [(key, value)] := by
  induction map with
  | nil => rfl
  | cons pair map ih =>
    have hpair := h pair List.mem_cons_self
    rw [insertSorted, if_neg (by omega), if_neg (by omega),
      ih fun other hother => h other (List.mem_cons_of_mem _ hother)]
    rfl

end Fluxcope.Library.Assoc
