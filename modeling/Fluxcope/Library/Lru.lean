import Mathlib.Algebra.BigOperators.Group.List.Basic
import Mathlib.Algebra.Order.BigOperators.Group.List
import Mathlib.Algebra.Order.Ring.Nat
import Mathlib.Data.List.Induction
import Mathlib.Data.List.Nodup
/-!
# Bounded stores that forget what was used least recently

A store is the list of its entries in the order of their last use.  Each entry
has a size; the sizes together stay within a capacity.
-/

namespace Fluxcope.Library.Lru

variable {K V A : Type*}

/-- One key was used after the last use of another one. -/
def UsedLater (uses : A → K → Prop) (actions : List A) (key later : K) : Prop :=
  ∃ before action after, actions = before ++ action :: after ∧ uses action later ∧
    ∀ a ∈ action :: after, ¬ uses a key

theorem UsedLater.snoc {uses : A → K → Prop} {actions : List A} {action : A} {key later : K}
    (h : UsedLater uses actions key later) (hnot : ¬ uses action key) :
    UsedLater uses (actions ++ [action]) key later := by
  obtain ⟨before, use, after, rfl, huses, hunused⟩ := h
  refine ⟨before, use, after ++ [action], by simp, huses, fun a ha => ?_⟩
  rcases List.mem_append.1 (List.cons_append ▸ ha : a ∈ (use :: after) ++ [action]) with ha | ha
  · exact hunused a ha
  · rw [List.mem_singleton.1 ha]
    exact hnot

theorem usedLater_last {uses : A → K → Prop} (actions : List A) {action : A} {key later : K}
    (huses : uses action later) (hnot : ¬ uses action key) :
    UsedLater uses (actions ++ [action]) key later := by
  refine ⟨actions, action, [], rfl, huses, fun a ha => ?_⟩
  rw [List.mem_singleton.1 ha]
  exact hnot

theorem UsedLater.of_map {B : Type*} {f : B → A} {uses : A → K → Prop} {actions : List B}
    {key later : K} (h : UsedLater uses (actions.map f) key later) :
    UsedLater (fun b => uses (f b)) actions key later := by
  obtain ⟨before, action, after, heq, huses, hunused⟩ := h
  obtain ⟨before', rest, rfl, -, hrest⟩ := List.map_eq_append_iff.1 heq
  obtain ⟨action', after', rfl, rfl, rfl⟩ := List.map_eq_cons_iff.1 hrest
  refine ⟨before', action', after', rfl, huses, fun b hb => hunused (f b) ?_⟩
  rw [← List.map_cons]
  exact List.mem_map_of_mem hb

theorem nodup_of_usedLater {uses : A → K → Prop} {actions : List A} {entries : List (K × V)}
    (h : entries.Pairwise fun e e' => UsedLater uses actions e.1 e'.1) :
    (entries.map Prod.fst).Nodup := by
  rw [List.Nodup, List.pairwise_map]
  refine h.imp fun {e e'} hlater heq => ?_
  obtain ⟨before, action, after, -, huses, hunused⟩ := hlater
  rw [← heq] at huses
  exact hunused action List.mem_cons_self huses

/-! ## Stores -/

def total (size : V → Nat) (entries : List (K × V)) : Nat :=
  (entries.map fun entry => size entry.2).sum

theorem total_cons (size : V → Nat) (entry : K × V) (entries : List (K × V)) :
    total size (entry :: entries) = size entry.2 + total size entries := by
  rw [total, List.map_cons, List.sum_cons, total]

theorem total_append (size : V → Nat) (entries entries' : List (K × V)) :
    total size (entries ++ entries') = total size entries + total size entries' := by
  rw [total, List.map_append, List.sum_append, total, total]

theorem total_le_of_sublist (size : V → Nat) {entries entries' : List (K × V)}
    (h : entries.Sublist entries') : total size entries ≤ total size entries' :=
  (h.map _).sum_le_sum fun _ _ => Nat.zero_le _

theorem total_filter_add (size : V → Nat) (entries : List (K × V)) (isKept : K → Bool) :
    total size (entries.filter fun entry => isKept entry.1) +
      total size (entries.filter fun entry => !isKept entry.1) = total size entries := by
  rw [← total_append]
  have hperm := List.filter_append_perm (fun entry : K × V => isKept entry.1) entries
  exact (hperm.map fun entry => size entry.2).sum_eq

/-- The entries that are left when the first ones are dropped until the rest fits. -/
def shrink (size : V → Nat) (capacity : Nat) : List (K × V) → List (K × V)
  | [] => []
  | entry :: entries =>
    if capacity < total size (entry :: entries) then shrink size capacity entries
    else entry :: entries

/-- What is dropped is as little as possible. -/
theorem shrink_spec (size : V → Nat) (capacity : Nat) (entries : List (K × V)) :
    ∃ dropped, entries = dropped ++ shrink size capacity entries ∧
      total size (shrink size capacity entries) ≤ capacity ∧
      ∀ before entry after, dropped = before ++ entry :: after →
        capacity < total size (entry :: after ++ shrink size capacity entries) := by
  induction entries with
  | nil => exact ⟨[], rfl, Nat.zero_le _, fun before entry after h => by simp at h⟩
  | cons first entries ih =>
    rw [shrink]
    split
    · rename_i hlarge
      obtain ⟨dropped, heq, hfits, hleast⟩ := ih
      refine ⟨first :: dropped, congrArg (first :: ·) heq, hfits, fun before entry after h => ?_⟩
      cases before with
      | nil =>
        obtain ⟨rfl, rfl⟩ := List.cons.inj h
        rw [List.cons_append, ← heq]
        exact hlarge
      | cons _ before => exact hleast before entry after (List.cons.inj h).2
    · rename_i hfits
      exact ⟨[], rfl, Nat.not_lt.1 hfits, fun before entry after h => by simp at h⟩

theorem shrink_sublist (size : V → Nat) (capacity : Nat) (entries : List (K × V)) :
    (shrink size capacity entries).Sublist entries := by
  obtain ⟨dropped, heq, -, -⟩ := shrink_spec size capacity entries
  nth_rewrite 2 [heq]
  exact List.sublist_append_right _ _

/-- The last entry stays if it fits at all. -/
theorem mem_shrink_last {size : V → Nat} {capacity : Nat} (entries : List (K × V)) {entry : K × V}
    (hfits : size entry.2 ≤ capacity) : entry ∈ shrink size capacity (entries ++ [entry]) := by
  induction entries with
  | nil =>
    have htotal : total size [entry] = size entry.2 := by simp [total]
    rw [List.nil_append, shrink, if_neg (by omega)]
    exact List.mem_singleton_self entry
  | cons first entries ih =>
    rw [List.cons_append, shrink]
    split
    · exact ih
    · exact List.mem_cons_of_mem _ (List.mem_append_right _ (List.mem_singleton_self entry))

variable [DecidableEq K]

def without (entries : List (K × V)) (key : K) : List (K × V) :=
  entries.filter fun entry => entry.1 ≠ key

/-- The entry of the key becomes the last one. -/
def touch (entries : List (K × V)) (key : K) : List (K × V) :=
  without entries key ++ entries.filter fun entry => entry.1 = key

theorem mem_without {entries : List (K × V)} {key : K} {entry : K × V} :
    entry ∈ without entries key ↔ entry ∈ entries ∧ entry.1 ≠ key := by
  simp [without]

theorem total_without (size : V → Nat) {entries : List (K × V)}
    (hnodup : (entries.map Prod.fst).Nodup) {key : K} {value : V} (hmem : (key, value) ∈ entries) :
    total size (without entries key) + size value = total size entries := by
  obtain ⟨before, after, rfl⟩ := List.append_of_mem hmem
  rw [List.map_append, List.map_cons, List.nodup_append, List.nodup_cons] at hnodup
  obtain ⟨-, ⟨hafter, -⟩, hbefore⟩ := hnodup
  have hwithout : without (before ++ (key, value) :: after) key = before ++ after := by
    unfold without
    rw [List.filter_append, List.filter_cons_of_neg (by simp), List.filter_eq_self.2,
      List.filter_eq_self.2]
    · intro entry hentry
      refine decide_eq_true fun heq => hafter ?_
      have hmem : entry.1 ∈ after.map Prod.fst := List.mem_map_of_mem hentry
      rwa [heq] at hmem
    · intro entry hentry
      exact decide_eq_true (hbefore entry.1 (List.mem_map_of_mem hentry) key List.mem_cons_self)
  rw [hwithout, total_append, total_append, total_cons]
  dsimp only
  omega

inductive Action (K V : Type*)
  | touch (key : K)
  | put (key : K) (value : V)
  | keep (isKept : K → Bool)

def Action.Uses : Action K V → K → Prop
  | .touch used, key | .put used _, key => used = key
  | .keep _, _ => False

def step (size : V → Nat) (capacity : Nat) (entries : List (K × V)) :
    Action K V → List (K × V)
  | .touch key => touch entries key
  | .put key value =>
    if capacity < size value then without entries key
    else shrink size capacity (without entries key ++ [(key, value)])
  | .keep isKept => entries.filter fun entry => isKept entry.1

/-- The store after a list of actions. -/
def after (size : V → Nat) (capacity : Nat) (actions : List (Action K V)) : List (K × V) :=
  actions.foldl (step size capacity) []

theorem after_snoc (size : V → Nat) (capacity : Nat) (actions : List (Action K V))
    (action : Action K V) :
    after size capacity (actions ++ [action]) =
      step size capacity (after size capacity actions) action := by
  rw [after, List.foldl_concat, after]

/-- At most one entry has the key. -/
theorem length_filter_key_le {entries : List (K × V)} (hnodup : (entries.map Prod.fst).Nodup)
    (key : K) : (entries.filter fun entry => entry.1 = key).length ≤ 1 := by
  have hsub := hnodup.sublist (List.filter_sublist.map Prod.fst :
    ((entries.filter fun entry => entry.1 = key).map Prod.fst).Sublist _)
  have hall : (entries.filter fun entry => entry.1 = key).map Prod.fst =
      List.replicate (entries.filter fun entry => entry.1 = key).length key := by
    refine List.eq_replicate_iff.2 ⟨List.length_map _, fun k hk => ?_⟩
    obtain ⟨entry, hentry, rfl⟩ := List.mem_map.1 hk
    simpa using (List.mem_filter.1 hentry).2
  rw [hall, List.nodup_replicate] at hsub
  exact hsub

theorem filter_key {entries : List (K × V)} (hnodup : (entries.map Prod.fst).Nodup) {key : K}
    {value : V} (hmem : (key, value) ∈ entries) :
    (entries.filter fun entry => entry.1 = key) = [(key, value)] := by
  have hmem' : (key, value) ∈ entries.filter fun entry => entry.1 = key :=
    List.mem_filter.2 ⟨hmem, decide_eq_true rfl⟩
  have hlength := length_filter_key_le hnodup key
  match hfilter : entries.filter (fun entry => entry.1 = key) with
  | [] => simp [hfilter] at hmem'
  | [entry] =>
    rw [hfilter] at hmem'
    rw [List.mem_singleton.1 hmem', hfilter]
  | _ :: _ :: _ => simp [hfilter] at hlength

/-- A step keeps entries in their order, and what it uses comes last. -/
theorem step_split (size : V → Nat) (capacity : Nat) {entries : List (K × V)}
    (hnodup : (entries.map Prod.fst).Nodup) (action : Action K V) :
    ∃ old new, (step size capacity entries action).Sublist (old ++ new) ∧ old.Sublist entries ∧
      (∀ entry ∈ old, ¬ action.Uses entry.1) ∧ (∀ entry ∈ new, action.Uses entry.1) ∧
      new.length ≤ 1 := by
  cases action with
  | touch key =>
    refine ⟨_, _, .refl _, List.filter_sublist, fun entry hentry => ?_, fun entry hentry => ?_,
      length_filter_key_le hnodup key⟩
    · exact Ne.symm (mem_without.1 hentry).2
    · exact (of_decide_eq_true (List.mem_filter.1 hentry).2 : entry.1 = key).symm
  | put key value =>
    refine ⟨without entries key, [(key, value)], ?_, List.filter_sublist,
      fun entry hentry => Ne.symm (mem_without.1 hentry).2, fun entry hentry => ?_,
      Nat.le_refl _⟩
    · rw [step]
      split
      · exact List.sublist_append_left _ _
      · exact shrink_sublist size capacity _
    · rw [List.mem_singleton.1 hentry]
      rfl
  | keep isKept =>
    refine ⟨entries.filter fun entry => isKept entry.1, [], ?_, List.filter_sublist,
      fun _ _ => id, by simp, Nat.zero_le _⟩
    rw [List.append_nil, step]

/-- The entries are in the order of their last use. -/
theorem pairwise_after (size : V → Nat) (capacity : Nat) (actions : List (Action K V)) :
    (after size capacity actions).Pairwise fun e e' => UsedLater Action.Uses actions e.1 e'.1 := by
  induction actions using List.reverseRecOn with
  | nil => exact .nil
  | append_singleton actions action ih =>
    obtain ⟨old, new, hstep, hold, hunused, hused, hone⟩ :=
      step_split size capacity (nodup_of_usedLater ih) action
    rw [after_snoc]
    refine List.Pairwise.sublist hstep (List.pairwise_append.2 ⟨?_, ?_, fun e he e' he' => ?_⟩)
    · refine (ih.sublist hold).imp_of_mem fun {e e'} he _ hlater => ?_
      exact hlater.snoc (hunused e he)
    · match new, hone with
      | [], _ => exact .nil
      | [entry], _ => exact List.pairwise_singleton _ _
    · exact usedLater_last actions (hused e' he') (hunused e he)

theorem total_touch {size : V → Nat} {entries : List (K × V)} (key : K) :
    total size (touch entries key) = total size entries := by
  rw [touch, total_append, ← total_filter_add size entries fun k => k ≠ key]
  simp [without]

/-- A step adds no entry but the one it puts. -/
theorem mem_step {size : V → Nat} {capacity : Nat} {entries : List (K × V)} {action : Action K V}
    {entry : K × V} (h : entry ∈ step size capacity entries action) :
    entry ∈ entries ∨ ∃ key value, action = .put key value ∧ entry = (key, value) := by
  cases action with
  | touch key =>
    rcases List.mem_append.1 h with h | h
    · exact .inl (List.mem_of_mem_filter h)
    · exact .inl (List.mem_of_mem_filter h)
  | put key value =>
    rw [step] at h
    split at h
    · exact .inl (List.mem_of_mem_filter h)
    · rcases List.mem_append.1 ((shrink_sublist size capacity _).subset h) with h | h
      · exact .inl (List.mem_of_mem_filter h)
      · exact .inr ⟨key, value, rfl, List.mem_singleton.1 h⟩
  | keep isKept => exact .inl (List.mem_of_mem_filter h)

theorem total_step_le {size : V → Nat} {capacity : Nat} {entries : List (K × V)}
    (h : total size entries ≤ capacity) (action : Action K V) :
    total size (step size capacity entries action) ≤ capacity := by
  cases action with
  | touch key => exact (total_touch key).trans_le h
  | put key value =>
    rw [step]
    split
    · exact (total_le_of_sublist size List.filter_sublist).trans h
    · obtain ⟨-, -, hfits, -⟩ := shrink_spec size capacity (without entries key ++ [(key, value)])
      exact hfits
  | keep isKept => exact (total_le_of_sublist size List.filter_sublist).trans h

theorem total_after_le (size : V → Nat) (capacity : Nat) (actions : List (Action K V)) :
    total size (after size capacity actions) ≤ capacity := by
  induction actions using List.reverseRecOn with
  | nil => exact Nat.zero_le _
  | append_singleton actions action ih =>
    rw [after_snoc]
    exact total_step_le ih action

end Fluxcope.Library.Lru
