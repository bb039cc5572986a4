import Fluxcope.Library.Assoc
/-!
# A directory and the calls that change it

A directory maps names to contents.  Each call is a single step: it either fails
and changes nothing or does all it says.
-/

namespace Fluxcope.Library

inductive FileError
  | notFound
  deriving DecidableEq, Repr

/-- A directory has one entry for a name. -/
structure Directory (N C : Type) where
  entries : List (N × C)
  nodup : (entries.map Prod.fst).Nodup

namespace Directory

variable {N C : Type} [DecidableEq N] {directory : Directory N C} {name other target : N}
  {content : C}

def empty : Directory N C := ⟨[], .nil⟩

def get? (directory : Directory N C) (name : N) : Option C := directory.entries.lookup name

/-- The directory without the name. -/
def erase (directory : Directory N C) (name : N) : Directory N C where
  entries := Assoc.erase directory.entries name
  nodup := directory.nodup.sublist (List.filter_sublist.map _)

/-- The directory with the content under the name, in place of what was there. -/
def put (directory : Directory N C) (name : N) (content : C) : Directory N C where
  entries := Assoc.insert directory.entries name content
  nodup := by
    unfold Assoc.insert
    rw [List.map_cons, List.nodup_cons]
    refine ⟨fun hmem => ?_, (directory.erase name).nodup⟩
    obtain ⟨pair, hpair, hname⟩ := List.mem_map.1 hmem
    exact (Assoc.mem_erase.1 hpair).2 hname

@[simp] theorem get?_erase : (directory.erase name).get? other =
    if other = name then none else directory.get? other := by
  unfold get? erase
  split
  case isTrue heq =>
      subst heq
      exact Assoc.lookup_erase_self
  case isFalse hne => exact Assoc.lookup_erase_of_ne hne

@[simp] theorem get?_put : (directory.put name content).get? other =
    if other = name then some content else directory.get? other := by
  refine (Assoc.lawfulInsert directory.entries name content other).trans ?_
  by_cases heq : name = other
  · rw [if_pos heq, if_pos heq.symm]
  · rw [if_neg heq, if_neg (Ne.symm heq)]
    rfl

/-! ## Calls -/

def removeFile (directory : Directory N C) (name : N) : Except FileError Unit × Directory N C :=
  match directory.get? name with
  | none => (.error .notFound, directory)
  | some _ => (.ok (), directory.erase name)

def rename (directory : Directory N C) (name target : N) :
    Except FileError Unit × Directory N C :=
  match directory.get? name with
  | none => (.error .notFound, directory)
  | some content => (.ok (), (directory.erase name).put target content)

theorem get?_removeFile : (directory.removeFile name).2.get? other =
    if other = name then none else directory.get? other := by
  unfold removeFile
  cases hname : directory.get? name with
  | none =>
    dsimp only
    split
    case isTrue heq =>
        rw [heq]
        exact hname
    case isFalse => rfl
  | some content => exact get?_erase

/-- A rename to a name that is free. -/
theorem get?_rename (hfree : directory.get? target = none) :
    (directory.rename name target).2.get? other =
      if other = target then directory.get? name
      else if other = name then none
      else directory.get? other := by
  unfold rename
  cases hname : directory.get? name with
  | none =>
    dsimp only
    split
    case isTrue heq =>
        rw [heq]
        exact hfree
    case isFalse =>
        split
        case isTrue heq =>
            rw [heq]
            exact hname
        case isFalse => rfl
  | some content =>
    dsimp only
    rw [get?_put, get?_erase]

/-! ## What holds of all files -/

def All (P : C → Prop) (directory : Directory N C) : Prop :=
  ∀ name content, directory.get? name = some content → P content

variable {P Q : C → Prop}

theorem All.mono (h : directory.All P) (himp : ∀ content, P content → Q content) :
    directory.All Q := fun name content hget => himp content (h name content hget)

theorem All.put (h : directory.All P) (hcontent : P content) : (directory.put name content).All P := by
  intro other found hget
  rw [get?_put] at hget
  split at hget
  · exact Option.some.inj hget ▸ hcontent
  · exact h other found hget

theorem All.erase (h : directory.All P) : (directory.erase name).All P := by
  intro other found hget
  rw [get?_erase] at hget
  split at hget
  · cases hget
  · exact h other found hget

theorem All.removeFile (h : directory.All P) : (directory.removeFile name).2.All P := by
  unfold Directory.removeFile
  split
  · exact h
  · exact h.erase

theorem All.rename (h : directory.All P) : (directory.rename name target).2.All P := by
  unfold Directory.rename
  cases hname : directory.get? name with
  | none => exact h
  | some content => exact h.erase.put (h name content hname)

/-! ## Other contents -/

variable {D : Type} {f : C → D}

omit [DecidableEq N] in
theorem nodup_map (directory : Directory N C) (f : C → D) :
    ((directory.entries.map (Prod.map id f)).map Prod.fst).Nodup := by
  rw [List.map_map]
  exact directory.nodup

def map (f : C → D) (directory : Directory N C) : Directory N D :=
  ⟨directory.entries.map (Prod.map id f), directory.nodup_map f⟩

theorem lookup_map {A B : Type} (f : A → B) (entries : List (N × A)) :
    (entries.map (Prod.map id f)).lookup name = (entries.lookup name).map f := by
  induction entries with
  | nil => rfl
  | cons entry entries ih =>
    rw [List.map_cons, List.lookup_cons, List.lookup_cons]
    dsimp only [Prod.map, id]
    cases name == entry.1 with
    | true => rfl
    | false => exact ih

theorem get?_map : (directory.map f).get? name = (directory.get? name).map f :=
  lookup_map f directory.entries

end Directory

end Fluxcope.Library
