import Mathlib.Data.List.Nodup
import Mathlib.Data.List.Infix
import Mathlib.Data.List.Flatten
/-!
# Forests in an arena

Nodes are numbered in the order in which they are made.  A node has a name, knows its
parent and lists its children; the nodes without a parent are the roots.  The path of a
node is the list of the names from its root down to it.
-/

namespace Fluxcope.Library

variable {α : Type*}

/-- The children of `none` are the roots. -/
structure Arena (α : Type*) where
  size : Nat
  name : Nat → α
  parent : Nat → Option Nat
  children : Option Nat → List Nat

namespace Arena

def pathOf (path : Nat → List α) : Option Nat → List α
  | none => []
  | some id => path id

/-- Parents and children agree, and no two nodes have the same path. -/
structure Named (arena : Arena α) (path : Nat → List α) : Prop where
  parent_lt : ∀ id parent, id < arena.size → arena.parent id = some parent → parent < id
  mem_children : ∀ parent id,
    id ∈ arena.children parent ↔ id < arena.size ∧ arena.parent id = parent
  nodup_children : ∀ parent, (arena.children parent).Nodup
  path_eq : ∀ id, id < arena.size → path id = pathOf path (arena.parent id) ++ [arena.name id]
  path_inj : ∀ id other, id < arena.size → other < arena.size → path id = path other → id = other

/-- A node, then its children's subtrees, down to a depth. -/
def subtree (arena : Arena α) : Nat → Nat → List Nat
  | 0, id => [id]
  | depth + 1, id => id :: (arena.children (some id)).flatMap (arena.subtree depth)

/-- The nodes below a parent in pre-order; those below `none` are all of them. -/
def preorder (arena : Arena α) (depth : Nat) (parent : Option Nat) : List Nat :=
  (arena.children parent).flatMap (arena.subtree depth)

variable {arena : Arena α} {path : Nat → List α}

theorem subtree_eq (arena : Arena α) (depth id : Nat) :
    arena.subtree (depth + 1) id = id :: arena.preorder depth (some id) := rfl

theorem self_mem_subtree (arena : Arena α) (depth id : Nat) : id ∈ arena.subtree depth id := by
  cases depth <;> exact List.mem_cons_self

namespace Named

theorem lt_of_mem (h : arena.Named path) {parent : Option Nat} {id : Nat}
    (hid : id ∈ arena.children parent) : id < arena.size := ((h.mem_children parent id).1 hid).1

theorem path_ne_nil (h : arena.Named path) {id : Nat} (hid : id < arena.size) : path id ≠ [] := by
  rw [h.path_eq id hid]
  exact List.concat_ne_nil _ _

theorem path_child (h : arena.Named path) {parent : Option Nat} {id : Nat}
    (hid : id ∈ arena.children parent) : path id = pathOf path parent ++ [arena.name id] := by
  obtain ⟨hlt, hparent⟩ := (h.mem_children parent id).1 hid
  rw [h.path_eq id hlt, hparent]

/-- The parent and the name of a node, from its path. -/
theorem eq_of_path (h : arena.Named path) {id : Nat} (hid : id < arena.size) {parent : Option Nat}
    (hparent : ∀ p, parent = some p → p < arena.size) {name : α}
    (hpath : path id = pathOf path parent ++ [name]) :
    arena.parent id = parent ∧ arena.name id = name := by
  rw [h.path_eq id hid] at hpath
  obtain ⟨hof, hname⟩ := List.append_inj' hpath rfl
  refine ⟨?_, List.singleton_inj.1 hname⟩
  cases hactual : arena.parent id with
  | none =>
    rw [hactual] at hof
    cases parent with
    | none => rfl
    | some p => exact absurd hof.symm (h.path_ne_nil (hparent p rfl))
  | some q =>
    have hq := (h.parent_lt id q hid hactual).trans hid
    rw [hactual] at hof
    cases parent with
    | none => exact absurd hof (h.path_ne_nil hq)
    | some p => exact congrArg some (h.path_inj q p hq (hparent p rfl) hof)

/-- What starts the path of a node is the path of a node. -/
theorem exists_of_prefix (h : arena.Named path) {id : Nat} (hid : id < arena.size) {start : List α}
    (hne : start ≠ []) (hbegins : start <+: path id) : ∃ node < arena.size, path node = start := by
  induction id using Nat.strong_induction_on with
  | _ id ih =>
    rw [h.path_eq id hid] at hbegins
    rcases List.prefix_concat_iff.1 hbegins with heq | hbegins
    · exact ⟨id, hid, (h.path_eq id hid).trans heq.symm⟩
    · cases hparent : arena.parent id with
      | none =>
        rw [hparent] at hbegins
        exact absurd (List.prefix_nil.1 hbegins) hne
      | some parent =>
        rw [hparent] at hbegins
        have hlt := h.parent_lt id parent hid hparent
        exact ih parent hlt (hlt.trans hid) hbegins

/-- Siblings are told apart by their names. -/
theorem child_inj (h : arena.Named path) {parent : Option Nat} {id other : Nat}
    (hid : id ∈ arena.children parent) (hother : other ∈ arena.children parent)
    (hname : arena.name id = arena.name other) : id = other := by
  refine h.path_inj id other (h.lt_of_mem hid) (h.lt_of_mem hother) ?_
  rw [h.path_child hid, h.path_child hother, hname]

theorem nodup_names (h : arena.Named path) (parent : Option Nat) :
    ((arena.children parent).map arena.name).Nodup :=
  (List.nodup_map_iff_inj_on (h.nodup_children parent)).2 fun _ hid _ hother hname =>
    h.child_inj hid hother hname

/-! ## Subtrees -/

theorem prefix_of_mem_subtree (h : arena.Named path) {depth id node : Nat} (hid : id < arena.size)
    (hnode : node ∈ arena.subtree depth id) : node < arena.size ∧ path id <+: path node := by
  induction depth generalizing id with
  | zero =>
    rw [List.mem_singleton.1 hnode]
    exact ⟨hid, List.prefix_rfl⟩
  | succ depth ih =>
    rcases List.mem_cons.1 hnode with rfl | hnode
    · exact ⟨hid, List.prefix_rfl⟩
    · obtain ⟨child, hchild, hnode⟩ := List.mem_flatMap.1 hnode
      obtain ⟨hlt, hbegins⟩ := ih (h.lt_of_mem hchild) hnode
      refine ⟨hlt, List.IsPrefix.trans ?_ hbegins⟩
      rw [h.path_child hchild]
      exact List.prefix_append _ _

/-- A subtree that is deep enough is closed under children. -/
theorem child_mem_subtree (h : arena.Named path) {depth id node child : Nat}
    (hdepth : arena.size ≤ depth + id + 1) (hnode : node ∈ arena.subtree depth id)
    (hchild : child ∈ arena.children (some node)) : child ∈ arena.subtree depth id := by
  have hlt : node < child := h.parent_lt child node (h.lt_of_mem hchild)
    ((h.mem_children _ _).1 hchild).2
  induction depth generalizing id with
  | zero =>
    rw [List.mem_singleton.1 hnode] at hlt
    have := h.lt_of_mem hchild
    omega
  | succ depth ih =>
    rcases List.mem_cons.1 hnode with rfl | hnode
    · exact List.mem_cons_of_mem _ (List.mem_flatMap.2 ⟨child, hchild, self_mem_subtree _ _ _⟩)
    · obtain ⟨top, htop, hnode⟩ := List.mem_flatMap.1 hnode
      have hbelow : id < top := h.parent_lt top id (h.lt_of_mem htop)
        ((h.mem_children _ _).1 htop).2
      exact List.mem_cons_of_mem _ (List.mem_flatMap.2 ⟨top, htop, ih (by omega) hnode⟩)

/-- The subtree of a node: the nodes whose paths start with its path. -/
theorem mem_subtree (h : arena.Named path) {depth id node : Nat} (hid : id < arena.size)
    (hdepth : arena.size ≤ depth + id + 1) :
    node ∈ arena.subtree depth id ↔ node < arena.size ∧ path id <+: path node := by
  refine ⟨h.prefix_of_mem_subtree hid, ?_⟩
  rintro ⟨hnode, hbegins⟩
  induction node using Nat.strong_induction_on with
  | _ node ih =>
    rw [h.path_eq node hnode] at hbegins
    rcases List.prefix_concat_iff.1 hbegins with heq | hbegins
    · rw [← h.path_eq node hnode] at heq
      rw [h.path_inj id node hid hnode heq]
      exact self_mem_subtree _ _ _
    · cases hparent : arena.parent node with
      | none =>
        rw [hparent] at hbegins
        exact absurd (List.prefix_nil.1 hbegins) (h.path_ne_nil hid)
      | some parent =>
        rw [hparent] at hbegins
        have hlt := h.parent_lt node parent hnode hparent
        exact h.child_mem_subtree hdepth (ih parent hlt (hlt.trans hnode) hbegins)
          ((h.mem_children _ _).2 ⟨hnode, hparent⟩)

theorem disjoint_subtree (h : arena.Named path) {depth : Nat} {parent : Option Nat} {id other : Nat}
    (hid : id ∈ arena.children parent) (hother : other ∈ arena.children parent)
    (hne : id ≠ other) : List.Disjoint (arena.subtree depth id) (arena.subtree depth other) := by
  intro node hnode hnode'
  have hbegins := (h.prefix_of_mem_subtree (h.lt_of_mem hid) hnode).2
  have hbegins' := (h.prefix_of_mem_subtree (h.lt_of_mem hother) hnode').2
  rw [h.path_child hid] at hbegins
  rw [h.path_child hother] at hbegins'
  have heq := List.prefix_of_prefix_length_le hbegins hbegins' (by simp)
  have hname := List.append_inj_right' (heq.eq_of_length (by simp)) rfl
  exact hne (h.child_inj hid hother (List.singleton_inj.1 hname))

theorem nodup_subtree (h : arena.Named path) (depth : Nat) {id : Nat} (hid : id < arena.size) :
    (arena.subtree depth id).Nodup := by
  induction depth generalizing id with
  | zero => exact List.nodup_singleton _
  | succ depth ih =>
    refine List.nodup_cons.2 ⟨fun hmem => ?_, List.nodup_flatMap.2 ⟨fun child hchild => ?_, ?_⟩⟩
    · obtain ⟨child, hchild, hmem⟩ := List.mem_flatMap.1 hmem
      have hbegins := (h.prefix_of_mem_subtree (h.lt_of_mem hchild) hmem).2
      rw [h.path_child hchild] at hbegins
      have hle := hbegins.length_le
      rw [List.length_append, List.length_singleton] at hle
      exact Nat.not_succ_le_self _ hle
    · exact ih (h.lt_of_mem hchild)
    · exact (h.nodup_children _).imp_of_mem fun hchild hother hne =>
        h.disjoint_subtree hchild hother hne

theorem nodup_preorder (h : arena.Named path) (depth : Nat) (parent : Option Nat) :
    (arena.preorder depth parent).Nodup :=
  List.nodup_flatMap.2
    ⟨fun _ hchild => h.nodup_subtree depth (h.lt_of_mem hchild),
      (h.nodup_children parent).imp_of_mem fun hchild hother hne =>
        h.disjoint_subtree hchild hother hne⟩

/-- Every node is below some root. -/
theorem exists_root (h : arena.Named path) {node : Nat} (hnode : node < arena.size) :
    ∃ root ∈ arena.children none, path root <+: path node := by
  induction node using Nat.strong_induction_on with
  | _ node ih =>
    cases hparent : arena.parent node with
    | none => exact ⟨node, (h.mem_children _ _).2 ⟨hnode, hparent⟩, List.prefix_rfl⟩
    | some parent =>
      have hlt := h.parent_lt node parent hnode hparent
      obtain ⟨root, hroot, hbegins⟩ := ih parent hlt (hlt.trans hnode)
      refine ⟨root, hroot, hbegins.trans ?_⟩
      rw [h.path_eq node hnode, hparent]
      exact List.prefix_append _ _

theorem mem_preorder (h : arena.Named path) {depth node : Nat}
    (hdepth : arena.size ≤ depth + 1) :
    node ∈ arena.preorder depth none ↔ node < arena.size := by
  refine ⟨fun hnode => ?_, fun hnode => ?_⟩
  · obtain ⟨root, hroot, hnode⟩ := List.mem_flatMap.1 hnode
    exact (h.prefix_of_mem_subtree (h.lt_of_mem hroot) hnode).1
  · obtain ⟨root, hroot, hbegins⟩ := h.exists_root hnode
    exact List.mem_flatMap.2 ⟨root, hroot,
      (h.mem_subtree (h.lt_of_mem hroot) (by omega)).2 ⟨hnode, hbegins⟩⟩

/-! ## Changes -/

/-- Only sizes, names and families matter. -/
theorem congr {other : Arena α} (h : arena.Named path) (hsize : other.size = arena.size)
    (hname : ∀ id < arena.size, other.name id = arena.name id)
    (hparent : ∀ id < arena.size, other.parent id = arena.parent id)
    (hchildren : ∀ parent, other.children parent = arena.children parent) :
    other.Named path where
  parent_lt := fun id parent hid heq => by
    rw [hsize] at hid
    exact h.parent_lt id parent hid (hparent id hid ▸ heq)
  mem_children := fun parent id => by
    rw [hchildren, h.mem_children, hsize]
    exact and_congr_right fun hid => by rw [hparent id hid]
  nodup_children := fun parent => by
    rw [hchildren]
    exact h.nodup_children parent
  path_eq := fun id hid => by
    rw [hsize] at hid
    rw [hparent id hid, hname id hid]
    exact h.path_eq id hid
  path_inj := fun id node hid hnode => by
    rw [hsize] at hid hnode
    exact h.path_inj id node hid hnode

/-- One more node, with a path that is new, put somewhere among its siblings. -/
theorem push {other : Arena α} (h : arena.Named path) {parent : Option Nat}
    (hparent : ∀ id, parent = some id → id < arena.size)
    (hsize : other.size = arena.size + 1)
    (hname : ∀ id < arena.size, other.name id = arena.name id)
    (hparents : ∀ id < arena.size, other.parent id = arena.parent id)
    (hnew : other.parent arena.size = parent)
    (hchildren : ∀ other' ≠ parent, other.children other' = arena.children other')
    (hinserted : (other.children parent).Perm (arena.size :: arena.children parent))
    {path' : Nat → List α} (hsame : ∀ id < arena.size, path' id = path id)
    (hpath : path' arena.size = pathOf path parent ++ [other.name arena.size])
    (hfresh : ∀ id < arena.size, path id ≠ path' arena.size) : other.Named path' where
  parent_lt := fun id p hid heq => by
    rw [hsize] at hid
    rcases Nat.lt_succ_iff_lt_or_eq.1 hid with hid | rfl
    · exact h.parent_lt id p hid (hparents id hid ▸ heq)
    · exact hparent p (hnew ▸ heq)
  mem_children := fun p id => by
    have hold : id ∈ arena.children p ↔ id < arena.size ∧ other.parent id = p := by
      rw [h.mem_children]
      exact and_congr_right fun hid => by rw [hparents id hid]
    rw [hsize, Nat.lt_succ_iff_lt_or_eq]
    by_cases hp : p = parent
    · subst hp
      rw [hinserted.mem_iff, List.mem_cons, hold]
      constructor
      · rintro (rfl | ⟨hid, hpar⟩)
        · exact ⟨.inr rfl, hnew⟩
        · exact ⟨.inl hid, hpar⟩
      · rintro ⟨hid | rfl, hpar⟩
        · exact .inr ⟨hid, hpar⟩
        · exact .inl rfl
    · rw [hchildren p hp, hold]
      constructor
      · exact fun ⟨hid, hpar⟩ => ⟨.inl hid, hpar⟩
      · rintro ⟨hid | rfl, hpar⟩
        · exact ⟨hid, hpar⟩
        · exact absurd (hpar.symm.trans hnew) hp
  nodup_children := fun p => by
    by_cases hp : p = parent
    · subst hp
      refine hinserted.nodup_iff.2 (List.nodup_cons.2 ⟨fun hmem => ?_, h.nodup_children p⟩)
      exact Nat.lt_irrefl _ (h.lt_of_mem hmem)
    · rw [hchildren p hp]
      exact h.nodup_children p
  path_eq := fun id hid => by
    rw [hsize] at hid
    have hof : ∀ p : Option Nat, (∀ q, p = some q → q < arena.size) →
        pathOf path' p = pathOf path p := by
      intro p hp
      cases p with
      | none => rfl
      | some q => exact hsame q (hp q rfl)
    rcases Nat.lt_succ_iff_lt_or_eq.1 hid with hid | rfl
    · rw [hsame id hid, hparents id hid, hname id hid, hof _ fun q hq =>
        (h.parent_lt id q hid hq).trans hid]
      exact h.path_eq id hid
    · rw [hpath, hnew, hof _ hparent]
  path_inj := fun id node hid hnode heq => by
    rw [hsize] at hid hnode
    rcases Nat.lt_succ_iff_lt_or_eq.1 hid with hid | rfl <;>
      rcases Nat.lt_succ_iff_lt_or_eq.1 hnode with hnode | rfl
    · exact h.path_inj id node hid hnode (by rwa [hsame id hid, hsame node hnode] at heq)
    · exact absurd (hsame id hid ▸ heq) (hfresh id hid)
    · exact absurd (hsame node hnode ▸ heq.symm) (hfresh node hnode)
    · rfl

end Named

end Arena

end Fluxcope.Library
