import Fluxcope.Requests.RequestTree
/-!
# The nodes of a request tree

Every node stands for a path that starts some request path, and counts the request paths
that start with it.  This stays so when a node is visited and when one is added.
-/

namespace Fluxcope.Requests

open Fluxcope.Library Fluxcope.Library.Utf8 Fluxcope.Capture

def RequestNode.isBranch (node : RequestNode) : Bool :=
  match node.kind with
  | .origin | .path => true
  | .capture _ => false

namespace RequestTreeModel

def arena (model : RequestTreeModel) : Arena Bytes where
  size := model.nodes.length
  name id := (model.node id).identifier
  parent id := (model.node id).parent
  children
    | none => model.roots
    | some id => (model.node id).children

/-! ## Nodes under changes -/

theorem node_append_of_lt {model : RequestTreeModel} {id : RequestNodeId}
    (hid : id < model.nodes.length) (node : RequestNode) :
    ({ model with nodes := model.nodes ++ [node] } : RequestTreeModel).node id = model.node id := by
  unfold RequestTreeModel.node
  dsimp only
  rw [List.getElem?_append_left hid]

theorem node_append_self (model : RequestTreeModel) (node : RequestNode) :
    ({ model with nodes := model.nodes ++ [node] } : RequestTreeModel).node model.nodes.length =
      node := by
  unfold RequestTreeModel.node
  dsimp only
  rw [List.getElem?_concat_length, Option.getD_some]

theorem node_of_length_le {model : RequestTreeModel} {id : RequestNodeId}
    (hid : model.nodes.length ≤ id) : model.node id = noNode := by
  unfold RequestTreeModel.node
  rw [List.getElem?_eq_none hid, Option.getD_none]

@[simp] theorem length_modifyNode (model : RequestTreeModel) (id : RequestNodeId)
    (f : RequestNode → RequestNode) :
    (model.modifyNode id f).nodes.length = model.nodes.length := List.length_modify ..

@[simp] theorem roots_modifyNode (model : RequestTreeModel) (id : RequestNodeId)
    (f : RequestNode → RequestNode) : (model.modifyNode id f).roots = model.roots := rfl

theorem node_modifyNode_self {model : RequestTreeModel} {id : RequestNodeId}
    (hid : id < model.nodes.length) (f : RequestNode → RequestNode) :
    (model.modifyNode id f).node id = f (model.node id) := by
  unfold RequestTreeModel.node modifyNode
  dsimp only
  rw [List.getElem?_modify, List.getElem?_eq_getElem hid]
  exact if_pos rfl

theorem node_modifyNode_of_ne {model : RequestTreeModel} {id other : RequestNodeId}
    (hne : other ≠ id) (f : RequestNode → RequestNode) :
    (model.modifyNode id f).node other = model.node other := by
  unfold RequestTreeModel.node modifyNode
  dsimp only
  rw [List.getElem?_modify]
  cases model.nodes[other]? with
  | none => rfl
  | some node => exact if_neg (Ne.symm hne)

/-- What a change of a node's family or count leaves alone. -/
structure SameNode (node other : RequestNode) : Prop where
  identifier : other.identifier = node.identifier
  kind : other.kind = node.kind
  parent : other.parent = node.parent

/-- One more node, among the children of its parent. -/
structure Linked (model : RequestTreeModel) (node : RequestNode) (model' : RequestTreeModel) :
    Prop where
  length : model'.nodes.length = model.nodes.length + 1
  new : model'.node model.nodes.length = node
  same : ∀ id < model.nodes.length, SameNode (model.node id) (model'.node id)
  leafCount : ∀ id < model.nodes.length, (model'.node id).leafCount = (model.node id).leafCount
  children : ∀ parent ≠ node.parent, model'.arena.children parent = model.arena.children parent
  inserted : (model'.arena.children node.parent).Perm
    (model.nodes.length :: model.arena.children node.parent)
  room : ∀ id < model.nodes.length, (model.node id).branchChildren ≤ (model.node id).children.length →
    (model'.node id).branchChildren ≤ (model'.node id).children.length

/-- A node pushed and entered into the list of its parent by `f`. -/
theorem linked_of_parent {model : RequestTreeModel} {node : RequestNode} {parent : RequestNodeId}
    {f : RequestNode → RequestNode} (hnode : node.parent = some parent)
    (hchildren : node.children = []) (hparent : parent < model.nodes.length)
    (hsame : ∀ other, SameNode other (f other) ∧ (f other).leafCount = other.leafCount)
    (hinserted : (f (model.node parent)).children.Perm
      (model.nodes.length :: (model.node parent).children))
    (hroom : (model.node parent).branchChildren ≤ (model.node parent).children.length →
      (f (model.node parent)).branchChildren ≤ (f (model.node parent)).children.length) :
    Linked model node
      (({ model with nodes := model.nodes ++ [node] } : RequestTreeModel).modifyNode parent f) := by
  have hlength : parent < ({ model with nodes := model.nodes ++ [node] } : RequestTreeModel).nodes.length := by
    rw [List.length_append]
    exact Nat.lt_add_right 1 hparent
  have hself := node_modifyNode_self hlength f
  rw [node_append_of_lt hparent] at hself
  have hother : ∀ id < model.nodes.length, id ≠ parent →
      (({ model with nodes := model.nodes ++ [node] } : RequestTreeModel).modifyNode parent f).node
        id = model.node id := by
    intro id hid hne
    rw [node_modifyNode_of_ne hne, node_append_of_lt hid]
  have hnew : (({ model with nodes := model.nodes ++ [node] } : RequestTreeModel).modifyNode
      parent f).node model.nodes.length = node := by
    rw [node_modifyNode_of_ne (Nat.ne_of_gt hparent), node_append_self]
  generalize hmodel : ({ model with nodes := model.nodes ++ [node] } : RequestTreeModel).modifyNode
    parent f = model' at *
  have hsize : model'.nodes.length = model.nodes.length + 1 := by
    rw [← hmodel, length_modifyNode, List.length_append, List.length_singleton]
  have hroots : model'.roots = model.roots := by rw [← hmodel]; rfl
  refine
    { length := hsize
      new := hnew
      same := fun id hid => ?_
      leafCount := fun id hid => ?_
      children := fun other hne => ?_
      inserted := ?_
      room := fun id hid hold => ?_ }
  · by_cases heq : id = parent
    · subst heq
      rw [hself]
      exact (hsame _).1
    · rw [hother id hid heq]
      exact ⟨rfl, rfl, rfl⟩
  · by_cases heq : id = parent
    · subst heq
      rw [hself]
      exact (hsame _).2
    · rw [hother id hid heq]
  · cases other with
    | none => exact hroots
    | some id =>
      change (model'.node id).children = (model.node id).children
      have hne' : id ≠ parent := fun heq => hne (by rw [heq, hnode])
      rcases Nat.lt_trichotomy id model.nodes.length with hid | rfl | hid
      · rw [hother id hid hne']
      · rw [hnew, hchildren, node_of_length_le le_rfl]
        rfl
      · rw [node_of_length_le (by omega), node_of_length_le hid.le]
  · rw [hnode]
    change (model'.node parent).children.Perm (_ :: (model.node parent).children)
    rw [hself]
    exact hinserted
  · by_cases heq : id = parent
    · subst heq
      rw [hself]
      exact hroom hold
    · rw [hother id hid heq]
      exact hold

theorem linked_root {model : RequestTreeModel} {node : RequestNode} (hnode : node.parent = none)
    (hchildren : node.children = []) :
    Linked model node
      { model with nodes := model.nodes ++ [node], roots := model.roots ++ [model.nodes.length] } := by
  have hold : ∀ id < model.nodes.length, ({ model with
      nodes := model.nodes ++ [node], roots := model.roots ++ [model.nodes.length] } :
        RequestTreeModel).node id = model.node id := fun id hid => node_append_of_lt hid node
  have hnew : ({ model with
      nodes := model.nodes ++ [node], roots := model.roots ++ [model.nodes.length] } :
        RequestTreeModel).node model.nodes.length = node := node_append_self model node
  have hsize : ({ model with
      nodes := model.nodes ++ [node], roots := model.roots ++ [model.nodes.length] } :
        RequestTreeModel).nodes.length = model.nodes.length + 1 := List.length_append
  have hroots : ({ model with
      nodes := model.nodes ++ [node], roots := model.roots ++ [model.nodes.length] } :
        RequestTreeModel).roots = model.roots ++ [model.nodes.length] := rfl
  generalize ({ model with
    nodes := model.nodes ++ [node], roots := model.roots ++ [model.nodes.length] } :
      RequestTreeModel) = model' at *
  refine
    { length := hsize
      new := hnew
      same := fun id hid => ?_
      leafCount := fun id hid => by rw [hold id hid]
      children := fun parent hne => ?_
      inserted := ?_
      room := fun id hid hroom => by rwa [hold id hid] }
  · rw [hold id hid]
    exact ⟨rfl, rfl, rfl⟩
  · cases parent with
    | none => exact absurd hnode.symm hne
    | some id =>
      change (model'.node id).children = (model.node id).children
      rcases Nat.lt_trichotomy id model.nodes.length with hid | rfl | hid
      · rw [hold id hid]
      · rw [hnew, hchildren, node_of_length_le le_rfl]
        rfl
      · rw [node_of_length_le (by omega), node_of_length_le hid.le]
  · rw [hnode]
    change model'.roots.Perm (_ :: model.roots)
    rw [hroots]
    exact List.perm_append_singleton _ _

/-! ## The invariant -/

/-- The nodes stand for the paths that start a counted path; the leaves are the captures. -/
structure Built (model : RequestTreeModel) (path : Nat → List Bytes) (counted : List (List Bytes))
    (leaves : List (CaptureSequence × List Bytes)) : Prop where
  named : model.arena.Named path
  counts : ∀ id < model.nodes.length,
    (model.node id).leafCount = counted.countP fun request => path id <+: request
  used : ∀ id < model.nodes.length, ∃ request ∈ counted, path id <+: request
  covered : ∀ request ∈ counted, ∀ start, start ≠ [] → start <+: request →
    ∃ id < model.nodes.length, path id = start
  leaf : ∀ id < model.nodes.length, ∀ sequence, (model.node id).kind = .capture sequence →
    (model.node id).identifier = requestIdentifier sequence ∧ ∀ child, child ∉ (model.node id).children
  room : ∀ id < model.nodes.length,
    (model.node id).branchChildren ≤ (model.node id).children.length
  leaves : ∀ sequence request, (sequence, request) ∈ leaves ↔
    ∃ id < model.nodes.length, (model.node id).kind = .capture sequence ∧ path id = request

theorem Built.lt_of_child {model : RequestTreeModel} {path : Nat → List Bytes}
    {counted : List (List Bytes)} {leaves : List (CaptureSequence × List Bytes)}
    (h : Built model path counted leaves) {id child : RequestNodeId}
    (hchild : child ∈ (model.node id).children) : child < model.nodes.length :=
  @Arena.Named.lt_of_mem _ _ _ h.named (some id) _ hchild

theorem Built.perm {model : RequestTreeModel} {path : Nat → List Bytes}
    {counted counted' : List (List Bytes)} {leaves leaves' : List (CaptureSequence × List Bytes)}
    (h : Built model path counted leaves) (hcounted : counted.Perm counted')
    (hleaves : leaves.Perm leaves') : Built model path counted' leaves' where
  named := h.named
  counts := fun id hid => (h.counts id hid).trans (hcounted.countP_eq _)
  used := fun id hid => by
    obtain ⟨request, hrequest, hbegins⟩ := h.used id hid
    exact ⟨request, hcounted.mem_iff.1 hrequest, hbegins⟩
  covered := fun request hrequest => h.covered request (hcounted.mem_iff.2 hrequest)
  leaf := h.leaf
  room := h.room
  leaves := fun sequence request => hleaves.mem_iff.symm.trans (h.leaves sequence request)

/-- A walk that has not started counts nothing. -/
theorem Built.begin {model : RequestTreeModel} {path : Nat → List Bytes}
    {counted : List (List Bytes)} {leaves : List (CaptureSequence × List Bytes)}
    (h : Built model path counted leaves) : Built model path ([] :: counted) leaves where
  named := h.named
  counts := fun id hid => by
    rw [List.countP_cons_of_neg, h.counts id hid]
    simpa using h.named.path_ne_nil hid
  used := fun id hid => by
    obtain ⟨request, hrequest, hbegins⟩ := h.used id hid
    exact ⟨request, List.mem_cons_of_mem _ hrequest, hbegins⟩
  covered := fun request hrequest start hne hbegins => by
    rcases List.mem_cons.1 hrequest with rfl | hrequest
    · exact absurd (List.prefix_nil.1 hbegins) hne
    · exact h.covered request hrequest start hne hbegins
  leaf := h.leaf
  room := h.room
  leaves := h.leaves

/-- Of the paths that start the longer walk, one does not start the shorter one. -/
theorem countP_walk {start walked : List Bytes} {name : Bytes} (counted : List (List Bytes)) :
    ((walked ++ [name]) :: counted).countP (fun request => start <+: request) =
      (walked :: counted).countP (fun request => start <+: request) +
        if start = walked ++ [name] then 1 else 0 := by
  rw [List.countP_cons, List.countP_cons]
  by_cases heq : start = walked ++ [name]
  · have hnot : ¬ walked ++ [name] <+: walked := by
      intro h
      have hle := h.length_le
      rw [List.length_append, List.length_singleton] at hle
      exact Nat.not_succ_le_self _ hle
    simp [heq, hnot]
  · have hiff : start <+: walked ++ [name] ↔ start <+: walked :=
      List.prefix_concat_iff.trans (or_iff_right heq)
    simp [heq, hiff]

theorem covered_walk {model : RequestTreeModel} {path : Nat → List Bytes}
    {counted : List (List Bytes)} {leaves : List (CaptureSequence × List Bytes)}
    {walked : List Bytes} {name : Bytes} (h : Built model path (walked :: counted) leaves)
    {request : List Bytes} (hrequest : request ∈ (walked ++ [name]) :: counted)
    {start : List Bytes} (hne : start ≠ []) (hbegins : start <+: request) :
    start = walked ++ [name] ∨ ∃ id < model.nodes.length, path id = start := by
  rcases List.mem_cons.1 hrequest with rfl | hrequest
  · rcases List.prefix_concat_iff.1 hbegins with heq | hbegins
    · exact .inl heq
    · exact .inr (h.covered walked List.mem_cons_self start hne hbegins)
  · exact .inr (h.covered request (List.mem_cons_of_mem _ hrequest) start hne hbegins)

theorem used_walk {model : RequestTreeModel} {path : Nat → List Bytes}
    {counted : List (List Bytes)} {leaves : List (CaptureSequence × List Bytes)}
    {walked : List Bytes} (name : Bytes) (h : Built model path (walked :: counted) leaves)
    {id : RequestNodeId} (hid : id < model.nodes.length) :
    ∃ request ∈ (walked ++ [name]) :: counted, path id <+: request := by
  obtain ⟨request, hrequest, hbegins⟩ := h.used id hid
  rcases List.mem_cons.1 hrequest with rfl | hrequest
  · exact ⟨_, List.mem_cons_self, hbegins.trans (List.prefix_append _ _)⟩
  · exact ⟨request, List.mem_cons_of_mem _ hrequest, hbegins⟩

/-- The walk goes down to a node that is there. -/
theorem Built.visit {model : RequestTreeModel} {path : Nat → List Bytes}
    {counted : List (List Bytes)} {leaves : List (CaptureSequence × List Bytes)}
    {walked : List Bytes} {name : Bytes} {id : RequestNodeId}
    (h : Built model path (walked :: counted) leaves) (hid : id < model.nodes.length)
    (hpath : path id = walked ++ [name]) :
    Built (model.modifyNode id fun node => { node with leafCount := node.leafCount + 1 }) path
      ((walked ++ [name]) :: counted) leaves := by
  have hnode : ∀ other, (model.modifyNode id fun node =>
      { node with leafCount := node.leafCount + 1 }).node other =
        { model.node other with
          leafCount := (model.node other).leafCount + if other = id then 1 else 0 } := by
    intro other
    by_cases heq : other = id
    · subst heq
      rw [node_modifyNode_self hid, if_pos rfl]
    · rw [node_modifyNode_of_ne heq, if_neg heq]
      rfl
  have hlength := length_modifyNode model id fun node =>
    { node with leafCount := node.leafCount + 1 }
  have hroots := roots_modifyNode model id fun node =>
    { node with leafCount := node.leafCount + 1 }
  generalize model.modifyNode id (fun node => { node with leafCount := node.leafCount + 1 }) =
    model' at *
  refine
    { named := h.named.congr hlength (fun other _ => ?_) (fun other _ => ?_) fun parent => ?_
      counts := fun other hother => ?_
      used := fun other hother => ?_
      covered := fun request hrequest start hne hbegins => ?_
      leaf := fun other hother sequence hkind => ?_
      room := fun other hother => ?_
      leaves := fun sequence request => ?_ }
  · change (model'.node other).identifier = (model.node other).identifier
    rw [hnode]
  · change (model'.node other).parent = (model.node other).parent
    rw [hnode]
  · cases parent with
    | none => exact hroots
    | some parent =>
      change (model'.node parent).children = (model.node parent).children
      rw [hnode]
  · rw [hlength] at hother
    rw [hnode, countP_walk, ← h.counts other hother]
    dsimp only
    have hiff : other = id ↔ path other = walked ++ [name] := by
      rw [← hpath]
      exact ⟨congrArg path, h.named.path_inj other id hother hid⟩
    simp only [hiff]
  · rw [hlength] at hother
    exact used_walk name h hother
  · rw [hlength]
    rcases covered_walk h hrequest hne hbegins with rfl | hold
    · exact ⟨id, hid, hpath⟩
    · exact hold
  · rw [hlength] at hother
    rw [hnode] at hkind ⊢
    exact h.leaf other hother sequence hkind
  · rw [hlength] at hother
    rw [hnode]
    exact h.room other hother
  · rw [h.leaves sequence request, hlength]
    simp only [hnode]

/-- The walk goes down to a new node. -/
theorem Built.push {model model' : RequestTreeModel} {path : Nat → List Bytes}
    {counted : List (List Bytes)} {leaves leaves' : List (CaptureSequence × List Bytes)}
    {node : RequestNode} (h : Built model path (Arena.pathOf path node.parent :: counted) leaves)
    (hlinked : Linked model node model') (hcount : node.leafCount = 1)
    (hchildren : node.children = []) (hbranches : node.branchChildren = 0)
    (hparent : ∀ id, node.parent = some id →
      id < model.nodes.length ∧ (model.node id).isBranch = true)
    (hfresh : ∀ id < model.nodes.length,
      path id ≠ Arena.pathOf path node.parent ++ [node.identifier])
    (hleaf : ∀ sequence, node.kind = .capture sequence →
      node.identifier = requestIdentifier sequence)
    (hleaves : ∀ sequence request, (sequence, request) ∈ leaves' ↔ (sequence, request) ∈ leaves ∨
      node.kind = .capture sequence ∧
        Arena.pathOf path node.parent ++ [node.identifier] = request) :
    Built model'
      (Function.update path model.nodes.length
        (Arena.pathOf path node.parent ++ [node.identifier]))
      ((Arena.pathOf path node.parent ++ [node.identifier]) :: counted) leaves' := by
  generalize hwalked : Arena.pathOf path node.parent = walked at *
  have hold : ∀ id < model.nodes.length,
      Function.update path model.nodes.length (walked ++ [node.identifier]) id = path id :=
    fun id hid => Function.update_of_ne (Nat.ne_of_lt hid) _ _
  have hself : Function.update path model.nodes.length (walked ++ [node.identifier])
      model.nodes.length = walked ++ [node.identifier] := Function.update_self ..
  generalize Function.update path model.nodes.length (walked ++ [node.identifier]) = path' at *
  have hcases : ∀ id < model'.nodes.length, id < model.nodes.length ∨ id = model.nodes.length := by
    intro id hid
    rw [hlinked.length] at hid
    exact Nat.lt_succ_iff_lt_or_eq.1 hid
  have hlt : model.nodes.length < model'.nodes.length := by
    rw [hlinked.length]
    exact Nat.lt_succ_self _
  refine
    { named := ?_
      counts := fun id hid => ?_
      used := fun id hid => ?_
      covered := fun request hrequest start hne hbegins => ?_
      leaf := fun id hid sequence hkind => ?_
      room := fun id hid => ?_
      leaves := fun sequence request => ?_ }
  · refine h.named.push (fun id (hid : node.parent = some id) => (hparent id hid).1) hlinked.length
      (fun id hid => (hlinked.same id hid).identifier) (fun id hid => (hlinked.same id hid).parent)
      (congrArg RequestNode.parent hlinked.new) hlinked.children hlinked.inserted hold ?_
      fun id hid => ?_
    · have hname : model'.arena.name model.nodes.length = node.identifier :=
        congrArg RequestNode.identifier hlinked.new
      rw [hwalked]
      exact hself.trans (congrArg (fun name => walked ++ [name]) hname.symm)
    · exact fun heq => hfresh id hid (heq.trans hself)
  · rw [countP_walk]
    rcases hcases id hid with hid | rfl
    · rw [hold id hid, if_neg (hfresh id hid), hlinked.leafCount id hid]
      exact h.counts id hid
    · rw [hself, if_pos rfl, hlinked.new, hcount]
      -- No counted path starts with the new one, or its node would be there.
      have hzero : (walked :: counted).countP
          (fun request => walked ++ [node.identifier] <+: request) = 0 := by
        refine List.countP_eq_zero.2 fun request hrequest hbegins => ?_
        obtain ⟨id, hid, hpath⟩ := h.covered request hrequest _ (List.concat_ne_nil _ _)
          (of_decide_eq_true hbegins)
        exact hfresh id hid hpath
      rw [hzero]
  · rcases hcases id hid with hid | rfl
    · rw [hold id hid]
      exact used_walk node.identifier h hid
    · exact ⟨_, List.mem_cons_self, hself ▸ List.prefix_rfl⟩
  · rcases covered_walk h hrequest hne hbegins with rfl | ⟨id, hid, hpath⟩
    · exact ⟨model.nodes.length, hlt, hself⟩
    · exact ⟨id, hid.trans hlt, (hold id hid).trans hpath⟩
  · rcases hcases id hid with hid | rfl
    · rw [(hlinked.same id hid).kind] at hkind
      obtain ⟨hidentifier, hnone⟩ := h.leaf id hid sequence hkind
      refine ⟨(hlinked.same id hid).identifier.trans hidentifier, ?_⟩
      have hne : some id ≠ node.parent := by
        intro heq
        have hbranch := (hparent id heq.symm).2
        unfold RequestNode.isBranch at hbranch
        rw [hkind] at hbranch
        cases hbranch
      have hsame : (model'.node id).children = (model.node id).children :=
        hlinked.children (some id) hne
      rw [hsame]
      exact hnone
    · rw [hlinked.new] at hkind ⊢
      rw [hchildren]
      exact ⟨hleaf sequence hkind, fun child => List.not_mem_nil⟩
  · rcases hcases id hid with hid | rfl
    · exact hlinked.room id hid (h.room id hid)
    · rw [hlinked.new, hbranches]
      exact Nat.zero_le _
  · rw [hleaves, h.leaves]
    constructor
    · rintro (⟨id, hid, hkind, hpath⟩ | ⟨hkind, hpath⟩)
      · exact ⟨id, hid.trans hlt, (hlinked.same id hid).kind.trans hkind,
          (hold id hid).trans hpath⟩
      · exact ⟨model.nodes.length, hlt, (congrArg _ hlinked.new).trans hkind, hself.trans hpath⟩
    · rintro ⟨id, hid, hkind, hpath⟩
      rcases hcases id hid with hid | rfl
      · exact .inl ⟨id, hid, (hlinked.same id hid).kind.symm.trans hkind,
          (hold id hid).symm.trans hpath⟩
      · exact .inr ⟨(congrArg _ hlinked.new).symm.trans hkind, hself.symm.trans hpath⟩

theorem Built.path_eq {model : RequestTreeModel} {path : Nat → List Bytes}
    {counted : List (List Bytes)} {leaves : List (CaptureSequence × List Bytes)}
    (h : Built model path counted leaves) {id : RequestNodeId} (hid : id < model.nodes.length) :
    path id = Arena.pathOf path (model.node id).parent ++ [(model.node id).identifier] :=
  h.named.path_eq id hid

end RequestTreeModel

end Fluxcope.Requests
