import Fluxcope.Requests.RequestTreeBuild
/-!
# Looking up paths in a request tree

The walk from the roots, the hash index and the positions all speak of the same paths.
-/

namespace Fluxcope.Requests

open Fluxcope.Library Fluxcope.Library.Utf8 Fluxcope.Capture

namespace RequestTreeModel

variable {model : RequestTreeModel} {path : Nat → List Bytes}

/-! ## The walk from the roots -/

theorem findFrom_eq_some (h : model.arena.Named path) {parent : Option RequestNodeId}
    (hparent : ∀ p, parent = some p → p < model.arena.size) {rest : List Bytes}
    {id : RequestNodeId} :
    model.findFrom (model.arena.children parent) parent rest = some id ↔
      rest = [] ∧ parent = some id ∨
        rest ≠ [] ∧ id < model.arena.size ∧ path id = Arena.pathOf path parent ++ rest := by
  induction rest generalizing parent with
  | nil => simp [findFrom]
  | cons name rest ih =>
    rw [or_iff_right (by simp), and_iff_right (List.cons_ne_nil _ _), findFrom]
    cases hfind : (model.arena.children parent).find? fun id =>
        (model.node id).identifier = name with
    | none =>
      refine iff_of_false (by simp) ?_
      rintro ⟨hid, hpath⟩
      obtain ⟨child, hchild, hstart⟩ := h.exists_of_prefix hid
        (List.concat_ne_nil name (Arena.pathOf path parent))
        (by rw [hpath]; exact ⟨rest, by simp⟩)
      obtain ⟨hfamily, hname⟩ := h.eq_of_path hchild hparent hstart
      have hnot := List.find?_eq_none.1 hfind child ((h.mem_children _ _).2 ⟨hchild, hfamily⟩)
      exact hnot (decide_eq_true hname)
    | some child =>
      have hmem := List.mem_of_find?_eq_some hfind
      have hname : (model.node child).identifier = name := by
        have htrue := List.find?_some hfind
        exact of_decide_eq_true htrue
      have hpath : path child = Arena.pathOf path parent ++ [name] := by
        rw [h.path_child hmem]
        exact congrArg (fun name => Arena.pathOf path parent ++ [name]) hname
      have hlt := h.lt_of_mem hmem
      refine (@ih (some child) (fun p hp => by cases hp; exact hlt)).trans ?_
      have hlong : Arena.pathOf path (some child) ++ rest =
          Arena.pathOf path parent ++ name :: rest := by
        rw [Arena.pathOf, hpath, List.append_assoc]
        rfl
      rw [hlong]
      by_cases hrest : rest = []
      · subst hrest
        rw [or_iff_left fun h => h.1 rfl, and_iff_right rfl, ← hpath, Option.some.injEq]
        exact ⟨fun heq => heq ▸ ⟨hlt, rfl⟩, fun ⟨hid, heq⟩ => (h.path_inj id child hid hlt heq).symm⟩
      · rw [or_iff_right fun h => hrest h.1, and_iff_right hrest]

theorem find_eq_some (h : model.arena.Named path) {start : List Bytes} {id : RequestNodeId} :
    model.find start = some id ↔ id < model.arena.size ∧ path id = start := by
  refine (@findFrom_eq_some _ _ h none (fun _ hp => by cases hp) _ _).trans ?_
  rw [or_iff_right (by simp)]
  refine ⟨fun ⟨_, hid, hpath⟩ => ⟨hid, hpath⟩, fun ⟨hid, hpath⟩ => ⟨?_, hid, hpath⟩⟩
  rw [← hpath]
  exact h.path_ne_nil hid

/-! ## The walk to the root -/

theorem nodeMatchesReversed_iff (h : model.arena.Named path) {reversed : List Bytes}
    {id : RequestNodeId} (hid : id < model.arena.size) :
    model.nodeMatchesReversed id reversed = true ↔ path id = reversed.reverse := by
  induction reversed generalizing id with
  | nil =>
    refine iff_of_false (by simp [nodeMatchesReversed]) ?_
    exact h.path_ne_nil hid
  | cons name reversed ih =>
    rw [nodeMatchesReversed, Bool.and_eq_true, decide_eq_true_eq, List.reverse_cons,
      h.path_eq id hid, List.append_eq_append_iff_of_size_eq_right (by simp),
      List.singleton_inj, and_comm, eq_comm (a := name)]
    refine and_congr_left fun _ => ?_
    have harena : model.arena.parent id = (model.node id).parent := rfl
    rw [harena]
    cases hparent : (model.node id).parent with
    | none =>
      change reversed.isEmpty = true ↔ [] = reversed.reverse
      rw [List.isEmpty_iff, eq_comm (a := []), List.reverse_eq_nil_iff]
    | some parent => exact ih ((h.parent_lt id parent hid hparent).trans hid)

theorem nodeMatchesPath_iff (h : model.arena.Named path) {start : List Bytes} {id : RequestNodeId}
    (hid : id < model.arena.size) : model.nodeMatchesPath id start = true ↔ path id = start := by
  rw [nodeMatchesPath, nodeMatchesReversed_iff h hid, List.reverse_reverse]

/-! ## The index -/

theorem extendPathHash_child (h : model.arena.Named path) {parent : Option RequestNodeId}
    {id : RequestNodeId} (hid : id ∈ model.arena.children parent) :
    extendPathHash (hashPath (Arena.pathOf path parent)) (model.node id).identifier =
      hashPath (path id) := by
  have hname : model.arena.name id = (model.node id).identifier := rfl
  unfold hashPath
  rw [h.path_child hid, hname, List.foldl_append, List.foldl_cons, List.foldl_nil]

/-- The nodes are placed in pre-order, each under the hash of its path. -/
theorem indexNodes_eq (h : model.arena.Named path) (depth : Nat) (parent : Option RequestNodeId)
    (index : SearchIndex) :
    model.indexNodes (depth + 1) (model.arena.children parent)
        (hashPath (Arena.pathOf path parent)) index =
      (model.arena.preorder depth parent).foldl
        (fun index id => index.place id (hashPath (path id))) index := by
  induction depth generalizing parent index with
  | zero =>
    unfold Arena.preorder
    rw [List.foldl_flatMap, indexNodes]
    refine List.foldl_ext _ _ _ fun index id hid => ?_
    dsimp only
    rw [extendPathHash_child h hid]
    rfl
  | succ depth ih =>
    unfold Arena.preorder
    rw [List.foldl_flatMap, indexNodes]
    refine List.foldl_ext _ _ _ fun index id hid => ?_
    dsimp only
    rw [extendPathHash_child h hid, Arena.subtree_eq, List.foldl_cons]
    exact ih (some id) (index.place id (hashPath (path id)))

namespace SearchIndex

/-- The nodes filed under a hash. -/
def idsAt (nodesByPathHash : List (UInt64 × PathHashEntry)) (hash : UInt64) : List RequestNodeId :=
  ((nodesByPathHash.lookup hash).map PathHashEntry.ids).getD []

theorem ids_push (entry : PathHashEntry) (id : RequestNodeId) :
    (entry.push id).ids = entry.ids ++ [id] := by
  cases entry <;> rfl

theorem idsAt_pushPathHash (map : List (UInt64 × PathHashEntry)) (hash other : UInt64)
    (id : RequestNodeId) :
    idsAt (pushPathHash map hash id) other =
      idsAt map other ++ if other = hash then [id] else [] := by
  unfold idsAt pushPathHash
  cases hlookup : map.lookup hash with
  | none =>
    dsimp only
    rw [List.lookup_cons]
    by_cases heq : other = hash
    · subst heq
      rw [beq_self_eq_true, hlookup, if_pos rfl]
      rfl
    · rw [beq_eq_false_iff_ne.2 heq, if_neg heq, List.append_nil]
  | some entry =>
    dsimp only
    rw [Assoc.lookup_modify]
    by_cases heq : other = hash
    · subst heq
      rw [if_pos rfl, if_pos rfl, hlookup]
      exact ids_push entry id
    · rw [if_neg heq, if_neg heq, List.append_nil]

theorem idsAt_foldl (hash : RequestNodeId → UInt64) (ids : List RequestNodeId)
    (index : SearchIndex) (other : UInt64) :
    idsAt (ids.foldl (fun index id => index.place id (hash id)) index).nodesByPathHash other =
      idsAt index.nodesByPathHash other ++ ids.filter fun id => other = hash id := by
  induction ids generalizing index with
  | nil => simp
  | cons id ids ih =>
    rw [List.foldl_cons, ih]
    change idsAt (pushPathHash index.nodesByPathHash (hash id) id) other ++ _ = _
    rw [idsAt_pushPathHash, List.filter_cons, List.append_assoc]
    by_cases heq : other = hash id <;> simp [heq]

/-- Each node is placed once, at the next position. -/
theorem positions_foldl (hash : RequestNodeId → UInt64) {ids : List RequestNodeId}
    (hnodup : ids.Nodup) {index : SearchIndex}
    (hroom : index.nextPosition + ids.length ≤ wordMax)
    (hlt : ∀ id ∈ ids, id < index.logicalPositions.length) :
    (∀ id ∈ ids, (ids.foldl (fun index id => index.place id (hash id)) index).logicalPositions[id]? =
      some (index.nextPosition + ids.idxOf id)) ∧
    ∀ id ∉ ids, (ids.foldl (fun index id => index.place id (hash id)) index).logicalPositions[id]? =
      index.logicalPositions[id]? := by
  induction ids generalizing index with
  | nil => simp
  | cons first ids ih =>
    obtain ⟨hfirst, hnodup⟩ := List.nodup_cons.1 hnodup
    rw [List.length_cons] at hroom
    have hnext : (index.place first (hash first)).nextPosition = index.nextPosition + 1 :=
      satAdd_eq (by omega)
    have hset : (index.place first (hash first)).logicalPositions =
        index.logicalPositions.set first index.nextPosition := rfl
    obtain ⟨hin, hout⟩ := @ih hnodup (index.place first (hash first))
      (by rw [hnext]; omega) (fun id hid => by
        rw [hset, List.length_set]
        exact hlt id (List.mem_cons_of_mem _ hid))
    rw [List.foldl_cons]
    refine ⟨fun id hid => ?_, fun id hid => ?_⟩
    · rcases List.mem_cons.1 hid with rfl | hid
      · rw [hout id hfirst, hset, List.getElem?_set_self (hlt id List.mem_cons_self),
          List.idxOf_cons_self, Nat.add_zero]
      · have hne : first ≠ id := fun heq => hfirst (heq ▸ hid)
        rw [hin id hid, hnext, List.idxOf_cons_ne _ hne, Nat.succ_eq_add_one,
          Nat.add_assoc, Nat.add_comm 1]
    · obtain ⟨hne, hid⟩ := not_or.1 (mt List.mem_cons.2 hid)
      rw [hout id hid, hset, List.getElem?_set_ne (Ne.symm hne)]

end SearchIndex

end RequestTreeModel

end Fluxcope.Requests
