import Fluxcope.Requests.RequestTreeNodes
import Mathlib.Data.Finset.Card
/-!
# How a request tree is built

A capture is entered along its path: the branches that are missing are made, and the map
of the branches knows all of them.
-/

namespace Fluxcope.Requests

open Fluxcope.Library Fluxcope.Library.Utf8 Fluxcope.Capture

namespace RequestTreeBuilder

open RequestTreeModel

/-- The map knows every branch by its parent and label. -/
structure Mapped (builder : RequestTreeBuilder) : Prop where
  branch : ∀ parent label id, builder.branches.lookup (parent, label) = some id →
    id < builder.model.nodes.length ∧ (builder.model.node id).parent = parent ∧
      (builder.model.node id).identifier = branchIdentifier parent label ∧
      (builder.model.node id).isBranch = true
  known : ∀ id < builder.model.nodes.length, (builder.model.node id).isBranch = true →
    ∃ label, (builder.model.node id).identifier =
      branchIdentifier (builder.model.node id).parent label ∧
        builder.branches.lookup ((builder.model.node id).parent, label) = some id

/-- A node that may get children. -/
def IsParent (builder : RequestTreeBuilder) (parent : Option RequestNodeId) : Prop :=
  ∀ id, parent = some id →
    id < builder.model.nodes.length ∧ (builder.model.node id).isBranch = true

theorem isBranch_of_sameNode {node other : RequestNode} (h : SameNode node other) :
    other.isBranch = node.isBranch := by
  unfold RequestNode.isBranch
  rw [h.kind]

section Enter

variable {builder builder' : RequestTreeBuilder} {path : Nat → List Bytes}
  {counted : List (List Bytes)} {leaves : List (CaptureSequence × List Bytes)}
  {parent : Option RequestNodeId} {label : Bytes} {kind : RequestNodeKind} {id : RequestNodeId}

/-- A branch that the map does not know is not there. -/
theorem fresh_of_lookup_none (h : Built builder.model path counted leaves) (hmap : builder.Mapped)
    (hparent : builder.IsParent parent) (hlookup : builder.branches.lookup (parent, label) = none) :
    ∀ id < builder.model.nodes.length,
      path id ≠ Arena.pathOf path parent ++ [branchIdentifier parent label] := by
  intro id hid hpath
  obtain ⟨hfamily, hname⟩ : (builder.model.node id).parent = parent ∧
      (builder.model.node id).identifier = branchIdentifier parent label :=
    h.named.eq_of_path hid (fun p hp => (hparent p hp).1) hpath
  have hbranch : (builder.model.node id).isBranch = true := by
    unfold RequestNode.isBranch
    cases hkind : (builder.model.node id).kind with
    | origin => rfl
    | path => rfl
    | capture sequence =>
      have hrequest := (h.leaf id hid sequence hkind).1
      exact absurd (hname.symm.trans hrequest) (branchIdentifier_ne_request parent label sequence)
  obtain ⟨other, hidentifier, hother⟩ := hmap.known id hid hbranch
  rw [hfamily] at hidentifier hother
  rw [← branchIdentifier_inj (hname.symm.trans hidentifier), hlookup] at hother
  cases hother

/-- The map after a change of the nodes that keeps their families and kinds. -/
theorem Mapped.push {model' : RequestTreeModel} {node : RequestNode} (hmap : builder.Mapped)
    (hlinked : Linked builder.model node model') (hbranch : node.isBranch = true)
    (hname : node.identifier = branchIdentifier node.parent label)
    (hlookup : builder.branches.lookup (node.parent, label) = none) :
    Mapped
      { model := model'
        branches := ((node.parent, label), builder.model.nodes.length) :: builder.branches } where
  branch := by
    intro parent other id hid
    dsimp only at hid ⊢
    rw [List.lookup_cons] at hid
    have hlonger : builder.model.nodes.length < model'.nodes.length :=
      hlinked.length ▸ Nat.lt_succ_self _
    by_cases heq : (parent, other) = (node.parent, label)
    · rw [beq_iff_eq.2 heq] at hid
      obtain rfl := Option.some.inj hid
      obtain ⟨rfl, rfl⟩ := Prod.mk.inj heq
      rw [hlinked.new]
      exact ⟨hlonger, rfl, hname, hbranch⟩
    · rw [beq_eq_false_iff_ne.2 heq] at hid
      obtain ⟨hlt, hfamily, hidentifier, hkind⟩ := hmap.branch parent other id hid
      have hsame := hlinked.same id hlt
      exact ⟨hlt.trans hlonger, hsame.parent.trans hfamily, hsame.identifier.trans hidentifier,
        (isBranch_of_sameNode hsame).trans hkind⟩
  known := by
    intro id hid hkind
    dsimp only at hid hkind ⊢
    rw [hlinked.length] at hid
    rcases Nat.lt_succ_iff_lt_or_eq.1 hid with hid | rfl
    · have hsame := hlinked.same id hid
      rw [isBranch_of_sameNode hsame] at hkind
      obtain ⟨other, hidentifier, hother⟩ := hmap.known id hid hkind
      rw [hsame.parent, hsame.identifier]
      refine ⟨other, hidentifier, ?_⟩
      have hne : ((builder.model.node id).parent, other) ≠ (node.parent, label) := by
        intro heq
        rw [heq, hlookup] at hother
        cases hother
      rw [List.lookup_cons, beq_eq_false_iff_ne.2 hne]
      exact hother
    · rw [hlinked.new]
      refine ⟨label, hname, ?_⟩
      rw [List.lookup_cons, beq_self_eq_true]

/-- The map after a change that makes no branch. -/
theorem Mapped.congr {model' : RequestTreeModel} (hmap : builder.Mapped)
    (hlength : builder.model.nodes.length ≤ model'.nodes.length)
    (hsame : ∀ id < builder.model.nodes.length,
      SameNode (builder.model.node id) (model'.node id))
    (hnew : ∀ id < model'.nodes.length, builder.model.nodes.length ≤ id →
      (model'.node id).isBranch = false) :
    Mapped { builder with model := model' } where
  branch := by
    intro parent other id hid
    obtain ⟨hlt, hfamily, hidentifier, hkind⟩ := hmap.branch parent other id hid
    have hsame := hsame id hlt
    exact ⟨hlt.trans_le hlength, hsame.parent.trans hfamily, hsame.identifier.trans hidentifier,
      (isBranch_of_sameNode hsame).trans hkind⟩
  known := by
    intro id hid hkind
    dsimp only at hid hkind ⊢
    rcases Nat.lt_or_ge id builder.model.nodes.length with hlt | hge
    · have hsame := hsame id hlt
      rw [isBranch_of_sameNode hsame] at hkind
      rw [hsame.parent, hsame.identifier]
      exact hmap.known id hlt hkind
    · rw [hnew id hid hge] at hkind
      cases hkind

theorem node_visit (model : RequestTreeModel) (id other : RequestNodeId) :
    (model.modifyNode id fun node => { node with leafCount := node.leafCount + 1 }).node other =
        { model.node other with leafCount := (model.node other).leafCount + 1 } ∨
      (model.modifyNode id fun node => { node with leafCount := node.leafCount + 1 }).node other =
        model.node other := by
  by_cases heq : other = id
  · subst heq
    rcases Nat.lt_or_ge other model.nodes.length with hlt | hge
    · exact .inl (node_modifyNode_self hlt _)
    · refine .inr ?_
      rw [node_of_length_le hge, node_of_length_le (by rw [length_modifyNode]; exact hge)]
  · exact .inr (node_modifyNode_of_ne heq _)

theorem sameNode_visit (model : RequestTreeModel) (id other : RequestNodeId) :
    SameNode (model.node other)
      ((model.modifyNode id fun node => { node with leafCount := node.leafCount + 1 }).node
        other) := by
  rcases node_visit model id other with heq | heq <;> rw [heq] <;> exact ⟨rfl, rfl, rfl⟩

/-- The new branch, with its first leaf counted. -/
theorem linked_visit {model model' : RequestTreeModel} {node : RequestNode}
    (h : Linked model node model') :
    Linked model { node with leafCount := node.leafCount + 1 }
      (model'.modifyNode model.nodes.length fun node =>
        { node with leafCount := node.leafCount + 1 }) := by
  have hlt : model.nodes.length < model'.nodes.length := h.length ▸ Nat.lt_succ_self _
  have hold : ∀ id < model.nodes.length, (model'.modifyNode model.nodes.length fun node =>
      { node with leafCount := node.leafCount + 1 }).node id = model'.node id :=
    fun id hid => node_modifyNode_of_ne (Nat.ne_of_lt hid) _
  have hchildren : ∀ parent, (model'.modifyNode model.nodes.length fun node =>
      { node with leafCount := node.leafCount + 1 }).arena.children parent =
        model'.arena.children parent := by
    intro parent
    cases parent with
    | none => rfl
    | some id =>
      change ((model'.modifyNode model.nodes.length fun node =>
        { node with leafCount := node.leafCount + 1 }).node id).children = (model'.node id).children
      rcases node_visit model' model.nodes.length id with heq | heq <;> rw [heq]
  exact
    { length := (length_modifyNode ..).trans h.length
      new := by
        rw [node_modifyNode_self hlt, h.new]
      same := fun id hid => by
        rw [hold id hid]
        exact h.same id hid
      leafCount := fun id hid => by
        rw [hold id hid]
        exact h.leafCount id hid
      children := fun parent hne => (hchildren parent).trans (h.children parent hne)
      inserted := by
        rw [hchildren]
        exact h.inserted
      room := fun id hid hroom => by
        rw [hold id hid]
        exact h.room id hid hroom }

theorem linked_insertBranch {model : RequestTreeModel} {node : RequestNode}
    (hchildren : node.children = [])
    (hparent : ∀ id, node.parent = some id → id < model.nodes.length)
    (hroom : ∀ id < model.nodes.length,
      (model.node id).branchChildren ≤ (model.node id).children.length) :
    Linked model node
      (insertBranch { model with nodes := model.nodes ++ [node] } node.parent
        model.nodes.length) := by
  unfold insertBranch
  cases hnode : node.parent with
  | none => exact linked_root hnode hchildren
  | some parent =>
    have hlt := hparent parent hnode
    refine linked_of_parent hnode hchildren hlt (fun other => ⟨⟨rfl, rfl, rfl⟩, rfl⟩) ?_ ?_
    · exact List.perm_insertIdx _ _ (hroom parent hlt)
    · intro hle
      dsimp only
      rw [List.length_insertIdx_of_le_length hle]
      exact Nat.succ_le_succ hle

theorem enterBranch_cases (hresult : builder.enterBranch parent label kind = some (id, builder')) :
    (builder.branches.lookup (parent, label) = some id ∧
      builder' =
        { builder with
          model := builder.model.modifyNode id fun node =>
            { node with leafCount := node.leafCount + 1 } }) ∨
    (builder.branches.lookup (parent, label) = none ∧ id = builder.model.nodes.length ∧
      builder.model.nodes.length < nodeLimit ∧ ∃ identifier,
        (kind = .origin ∧ identifier = originIdentifier label ∨
          kind = .path ∧ identifier = segmentIdentifier label) ∧
        builder' =
          { model :=
              (insertBranch
                { builder.model with
                  nodes := builder.model.nodes ++
                    [{ identifier, label, kind, parent, children := [], branchChildren := 0
                       leafCount := 0 }] }
                parent id).modifyNode id fun node =>
                  { node with leafCount := node.leafCount + 1 }
            branches := ((parent, label), id) :: builder.branches }) := by
  unfold enterBranch branchMutOrInsert at hresult
  cases hlookup : builder.branches.lookup (parent, label) with
  | some known =>
    rw [hlookup] at hresult
    obtain ⟨rfl, rfl⟩ := Prod.mk.inj (Option.some.inj hresult)
    exact .inl ⟨rfl, rfl⟩
  | none =>
    rw [hlookup] at hresult
    refine .inr ⟨rfl, ?_⟩
    unfold pushNode at hresult
    cases kind with
    | capture sequence => cases hresult
    | origin =>
      by_cases hlimit : builder.model.nodes.length < nodeLimit
      · simp only [if_pos hlimit] at hresult
        obtain ⟨rfl, rfl⟩ := Prod.mk.inj (Option.some.inj hresult)
        exact ⟨rfl, hlimit, _, .inl ⟨rfl, rfl⟩, rfl⟩
      · simp only [if_neg hlimit] at hresult
        cases hresult
    | path =>
      by_cases hlimit : builder.model.nodes.length < nodeLimit
      · simp only [if_pos hlimit] at hresult
        obtain ⟨rfl, rfl⟩ := Prod.mk.inj (Option.some.inj hresult)
        exact ⟨rfl, hlimit, _, .inr ⟨rfl, rfl⟩, rfl⟩
      · simp only [if_neg hlimit] at hresult
        cases hresult

/-- A branch stands where its parent and label say. -/
theorem enterBranch_spec
    (h : Built builder.model path (Arena.pathOf path parent :: counted) leaves)
    (hmap : builder.Mapped) (hparent : builder.IsParent parent)
    (hkind : kind = .origin ∧ parent = none ∨ kind = .path ∧ parent ≠ none)
    (hresult : builder.enterBranch parent label kind = some (id, builder')) :
    ∃ path', Built builder'.model path'
        ((Arena.pathOf path parent ++ [branchIdentifier parent label]) :: counted) leaves ∧
      builder'.Mapped ∧ builder'.IsParent (some id) ∧
      path' id = Arena.pathOf path parent ++ [branchIdentifier parent label] := by
  rcases enterBranch_cases hresult with ⟨hlookup, rfl⟩ | ⟨hlookup, rfl, -, identifier, hidentifier, rfl⟩
  · obtain ⟨hid, hfamily, hname, hbranch⟩ := hmap.branch parent label id hlookup
    have hpath : path id = Arena.pathOf path parent ++ [branchIdentifier parent label] := by
      rw [h.path_eq hid, hfamily, hname]
    refine ⟨path, h.visit hid hpath, hmap.congr (length_modifyNode ..).ge
      (fun other _ => sameNode_visit builder.model id other) (fun other hother hge => ?_), ?_, hpath⟩
    · rw [length_modifyNode] at hother
      exact absurd hge (Nat.not_le.2 hother)
    · rintro other ⟨⟩
      refine ⟨(length_modifyNode ..).symm ▸ hid, ?_⟩
      rw [isBranch_of_sameNode (sameNode_visit builder.model id id)]
      exact hbranch
  · have hname : identifier = branchIdentifier parent label := by
      rcases hkind with ⟨rfl, rfl⟩ | ⟨rfl, hne⟩
      · rcases hidentifier with ⟨-, rfl⟩ | ⟨hpath, -⟩
        · rfl
        · cases hpath
      · rcases hidentifier with ⟨horigin, -⟩ | ⟨-, rfl⟩
        · cases horigin
        · cases parent with
          | none => exact absurd rfl hne
          | some parent => rfl
    subst hname
    have hbranch : RequestNode.isBranch
        { identifier := branchIdentifier parent label, label, kind, parent, children := []
          branchChildren := 0, leafCount := 0 + 1 } = true := by
      rcases hkind with ⟨rfl, -⟩ | ⟨rfl, -⟩ <;> rfl
    have hlinked := linked_visit ((@linked_insertBranch builder.model
      { identifier := branchIdentifier parent label, label, kind, parent, children := []
        branchChildren := 0, leafCount := 0 })
      rfl (fun id hid => (hparent id hid).1) h.room)
    have hbuilt := h.push hlinked rfl rfl rfl hparent
      (fresh_of_lookup_none h hmap hparent hlookup)
      (fun sequence hcapture => by
        rcases hkind with ⟨rfl, -⟩ | ⟨rfl, -⟩ <;> cases hcapture)
      (fun sequence request => (or_iff_left fun hnew => by
        rcases hkind with ⟨rfl, -⟩ | ⟨rfl, -⟩ <;> cases hnew.1).symm)
    refine ⟨_, hbuilt, hmap.push hlinked hbranch rfl hlookup, ?_, Function.update_self ..⟩
    rintro other ⟨⟩
    refine ⟨hlinked.length.symm ▸ Nat.lt_succ_self _, ?_⟩
    exact (congrArg RequestNode.isBranch hlinked.new).trans hbranch

end Enter

section Entries

variable {builder builder' : RequestTreeBuilder} {path : Nat → List Bytes}
  {counted : List (List Bytes)} {leaves : List (CaptureSequence × List Bytes)}

theorem enterSegments_spec {segments : List Bytes} {parent id : RequestNodeId}
    (h : Built builder.model path (path parent :: counted) leaves) (hmap : builder.Mapped)
    (hparent : builder.IsParent (some parent))
    (hresult : builder.enterSegments parent segments = some (id, builder')) :
    ∃ path', Built builder'.model path'
        ((path parent ++ segments.map segmentIdentifier) :: counted) leaves ∧
      builder'.Mapped ∧ builder'.IsParent (some id) ∧
      path' id = path parent ++ segments.map segmentIdentifier := by
  induction segments generalizing builder path parent with
  | nil =>
    obtain ⟨rfl, rfl⟩ := Prod.mk.inj (Option.some.inj hresult)
    rw [List.map_nil, List.append_nil]
    exact ⟨path, h, hmap, hparent, rfl⟩
  | cons segment segments ih =>
    unfold enterSegments at hresult
    obtain ⟨⟨child, next⟩, henter, hrest⟩ := Option.bind_eq_some_iff.1 hresult
    obtain ⟨path₁, hbuilt, hmapped, hchild, hpath⟩ := (@enterBranch_spec _ _ _ _ _ (some parent))
      h hmap hparent (.inr ⟨rfl, by simp⟩) henter
    rw [← hpath] at hbuilt
    obtain ⟨path₂, hbuilt, hmapped, hlast, hpath'⟩ := ih hbuilt hmapped hchild hrest
    have hwalked : path₁ child ++ segments.map segmentIdentifier =
        path parent ++ (segment :: segments).map segmentIdentifier := by
      rw [hpath, List.map_cons, List.append_assoc]
      rfl
    rw [hwalked] at hbuilt hpath'
    exact ⟨path₂, hbuilt, hmapped, hlast, hpath'⟩

/-- A capture that is no leaf yet has no node. -/
theorem fresh_capture {parent : RequestNodeId} {sequence : CaptureSequence}
    (h : Built builder.model path counted leaves) (hmap : builder.Mapped)
    (hparent : builder.IsParent (some parent)) (hnew : ∀ request, (sequence, request) ∉ leaves) :
    ∀ id < builder.model.nodes.length, path id ≠ path parent ++ [requestIdentifier sequence] := by
  intro id hid hpath
  obtain ⟨-, hname⟩ := h.named.eq_of_path hid
    (fun p (hp : some parent = some p) => (hparent p hp).1) hpath
  cases hkind : (builder.model.node id).kind with
  | capture other =>
    have hother := (h.leaf id hid other hkind).1
    obtain rfl := requestIdentifier_inj (hname.symm.trans hother)
    exact hnew _ ((h.leaves _ _).2 ⟨id, hid, hkind, rfl⟩)
  | origin =>
    obtain ⟨other, hother, -⟩ := hmap.known id hid (by rw [RequestNode.isBranch, hkind])
    exact branchIdentifier_ne_request _ _ _ (hother.symm.trans hname)
  | path =>
    obtain ⟨other, hother, -⟩ := hmap.known id hid (by rw [RequestNode.isBranch, hkind])
    exact branchIdentifier_ne_request _ _ _ (hother.symm.trans hname)

theorem insertCapture_spec {parent : RequestNodeId} {label : Bytes} {sequence : CaptureSequence}
    (h : Built builder.model path (path parent :: counted) leaves) (hmap : builder.Mapped)
    (hparent : builder.IsParent (some parent))
    (hnew : ∀ request, (sequence, request) ∉ leaves)
    (hresult : builder.insertCapture parent label sequence = some builder') :
    ∃ path', Built builder'.model path'
        ((path parent ++ [requestIdentifier sequence]) :: counted)
        ((sequence, path parent ++ [requestIdentifier sequence]) :: leaves) ∧
      builder'.Mapped := by
  unfold insertCapture at hresult
  obtain ⟨⟨id, model⟩, hpush, hlast⟩ := Option.bind_eq_some_iff.1 hresult
  obtain rfl := Option.some.inj hlast
  unfold pushNode at hpush
  split at hpush
  case isFalse => cases hpush
  case isTrue =>
    obtain ⟨rfl, rfl⟩ := Prod.mk.inj (Option.some.inj hpush)
    have hlt := (hparent parent rfl).1
    have hlinked := @linked_of_parent builder.model
      { identifier := requestIdentifier sequence, label, kind := .capture sequence
        parent := some parent, children := [], branchChildren := 0, leafCount := 1 } _
      (fun node => { node with children := node.children ++ [builder.model.nodes.length] })
      rfl rfl hlt (fun other => ⟨⟨rfl, rfl, rfl⟩, rfl⟩) (List.perm_append_singleton _ _)
      (fun hle => by
        rw [List.length_append]
        exact Nat.le_add_right_of_le hle)
    have hfresh := fresh_capture h hmap hparent hnew
    have hbuilt := (@Built.push _ _ _ _ _
      ((sequence, path parent ++ [requestIdentifier sequence]) :: leaves)) h hlinked rfl rfl rfl
      hparent hfresh
      (fun other hkind => by
        cases hkind
        rfl)
      (fun other request => by
        rw [List.mem_cons, or_comm, Prod.mk.injEq]
        refine or_congr_right (and_congr ⟨fun heq => by rw [heq], fun heq => ?_⟩ eq_comm)
        cases heq
        rfl)
    refine ⟨_, hbuilt, hmap.congr ?_ hlinked.same fun id hid hge => ?_⟩
    · rw [hlinked.length]
      exact Nat.le_succ _
    · rw [hlinked.length] at hid
      obtain rfl : id = builder.model.nodes.length := by omega
      rw [hlinked.new]
      rfl

theorem insertEntry_spec {entry : RequestTreeEntry} (h : Built builder.model path counted leaves)
    (hmap : builder.Mapped) (hnew : ∀ request, (entry.requestSequence, request) ∉ leaves)
    (hresult : builder.insertEntry entry = some builder') :
    ∃ path', Built builder'.model path' (entry.requestPath :: counted)
        ((entry.requestSequence, entry.requestPath) :: leaves) ∧
      builder'.Mapped := by
  unfold insertEntry at hresult
  obtain ⟨⟨root, builder₁⟩, horigin, hresult⟩ := Option.bind_eq_some_iff.1 hresult
  obtain ⟨⟨parent, builder₂⟩, hsegments, hresult⟩ := Option.bind_eq_some_iff.1 hresult
  obtain ⟨path₁, hbuilt, hmapped, hroot, hpath⟩ := (@enterBranch_spec _ _ _ _ _ none)
    h.begin hmap (fun _ hid => by cases hid) (.inl ⟨rfl, rfl⟩) horigin
  rw [← hpath] at hbuilt
  obtain ⟨path₂, hbuilt, hmapped, hparent, hpath'⟩ := enterSegments_spec hbuilt hmapped hroot hsegments
  rw [← hpath'] at hbuilt
  obtain ⟨path₃, hbuilt, hmapped⟩ := insertCapture_spec hbuilt hmapped hparent hnew hresult
  have hrequest : path₂ parent ++ [requestIdentifier entry.requestSequence] = entry.requestPath := by
    rw [hpath', hpath]
    rfl
  rw [hrequest] at hbuilt
  exact ⟨path₃, hbuilt, hmapped⟩

theorem unused_cons {entries : List RequestTreeEntry} {sequence : CaptureSequence}
    {request : List Bytes} (hsequence : sequence ∉ entries.map RequestTreeEntry.requestSequence)
    (hnew : ∀ entry ∈ entries, ∀ request, (entry.requestSequence, request) ∉ leaves) :
    ∀ entry ∈ entries, ∀ other, (entry.requestSequence, other) ∉ (sequence, request) :: leaves := by
  intro entry hentry other hmem
  rcases List.mem_cons.1 hmem with heq | hmem
  · obtain ⟨heq, -⟩ := Prod.mk.inj heq
    exact hsequence (List.mem_map.2 ⟨entry, hentry, heq⟩)
  · exact hnew entry hentry other hmem

theorem insertEntries_spec {entries : List RequestTreeEntry}
    (h : Built builder.model path counted leaves) (hmap : builder.Mapped)
    (hnodup : (entries.map RequestTreeEntry.requestSequence).Nodup)
    (hnew : ∀ entry ∈ entries, ∀ request, (entry.requestSequence, request) ∉ leaves)
    (hresult : builder.insertEntries entries = some builder') :
    ∃ path', Built builder'.model path' (entries.map RequestTreeEntry.requestPath ++ counted)
      (entries.map (fun entry => (entry.requestSequence, entry.requestPath)) ++ leaves) := by
  induction entries generalizing builder path counted leaves with
  | nil =>
    obtain rfl := Option.some.inj hresult
    exact ⟨path, h⟩
  | cons entry entries ih =>
    unfold insertEntries at hresult
    obtain ⟨next, hentry, hresult⟩ := Option.bind_eq_some_iff.1 hresult
    rw [List.map_cons, List.nodup_cons] at hnodup
    obtain ⟨path₁, hbuilt, hmapped⟩ :=
      insertEntry_spec h hmap (hnew entry List.mem_cons_self) hentry
    obtain ⟨path₂, hbuilt⟩ := ih hbuilt hmapped hnodup.2
      (unused_cons hnodup.1 fun other hother => hnew other (List.mem_cons_of_mem _ hother)) hresult
    exact ⟨path₂, hbuilt.perm List.perm_middle List.perm_middle⟩

/-! ## Room for the nodes -/

/-- The nodes of the tree of the entries: the starts of their paths, each once. -/
def treePaths (entries : List RequestTreeEntry) : Finset (List Bytes) :=
  (entries.flatMap fun entry => entry.requestPath.inits).toFinset.erase []

/-- The path starts that of one of the entries. -/
def Starts (entries : List RequestTreeEntry) (start : List Bytes) : Prop :=
  ∃ entry ∈ entries, start <+: entry.requestPath

theorem mem_treePaths {entries : List RequestTreeEntry} {start : List Bytes} :
    start ∈ treePaths entries ↔ start ≠ [] ∧ Starts entries start := by
  simp [treePaths, Starts]

variable {all : List RequestTreeEntry}

/-- The nodes are among those of the whole tree, and different. -/
theorem image_path_subset (h : Built builder.model path counted leaves)
    (hcounted : ∀ request ∈ counted, Starts all request) :
    (Finset.range builder.model.nodes.length).image path ⊆ treePaths all := by
  intro start hstart
  obtain ⟨id, hid, rfl⟩ := Finset.mem_image.1 hstart
  have hlt := Finset.mem_range.1 hid
  obtain ⟨request, hrequest, hbegins⟩ := h.used id hlt
  obtain ⟨entry, hentry, hstarts⟩ := hcounted request hrequest
  exact mem_treePaths.2 ⟨h.named.path_ne_nil hlt, entry, hentry, hbegins.trans hstarts⟩

theorem card_image_path {model : RequestTreeModel} (h : Built model path counted leaves) :
    ((Finset.range model.nodes.length).image path).card = model.nodes.length := by
  rw [Finset.card_image_of_injOn, Finset.card_range]
  exact fun id hid other hother =>
    h.named.path_inj id other (Finset.mem_range.1 hid) (Finset.mem_range.1 hother)

/-- As long as a node of the whole tree is missing, there is an index for it. -/
theorem length_lt_nodeLimit (h : Built builder.model path counted leaves)
    (hcounted : ∀ request ∈ counted, Starts all request)
    (hroom : (treePaths all).card ≤ nodeLimit) {start : List Bytes} (hne : start ≠ [])
    (hstart : Starts all start)
    (hfresh : ∀ id < builder.model.nodes.length, path id ≠ start) :
    builder.model.nodes.length < nodeLimit := by
  have hmissing : start ∉ (Finset.range builder.model.nodes.length).image path := by
    intro hmem
    obtain ⟨id, hid, hpath⟩ := Finset.mem_image.1 hmem
    exact hfresh id (Finset.mem_range.1 hid) hpath
  have hless := Finset.card_lt_card (Finset.ssubset_iff.2 ⟨start, hmissing,
    Finset.insert_subset_iff.2 ⟨mem_treePaths.2 ⟨hne, hstart⟩, image_path_subset h hcounted⟩⟩)
  rw [card_image_path h] at hless
  omega

theorem exists_enterBranch {parent : Option RequestNodeId} {label : Bytes} {kind : RequestNodeKind}
    (h : Built builder.model path (Arena.pathOf path parent :: counted) leaves)
    (hmap : builder.Mapped) (hparent : builder.IsParent parent)
    (hkind : kind = .origin ∨ kind = .path)
    (hcounted : ∀ request ∈ Arena.pathOf path parent :: counted, Starts all request)
    (hroom : (treePaths all).card ≤ nodeLimit)
    (hstart : Starts all (Arena.pathOf path parent ++ [branchIdentifier parent label])) :
    ∃ id next, builder.enterBranch parent label kind = some (id, next) := by
  unfold enterBranch branchMutOrInsert pushNode
  cases hlookup : builder.branches.lookup (parent, label) with
  | some known => exact ⟨_, _, rfl⟩
  | none =>
    have hlt := length_lt_nodeLimit h hcounted hroom (by simp) hstart
      (fresh_of_lookup_none h hmap hparent hlookup)
    rcases hkind with rfl | rfl <;> simp only [if_pos hlt] <;> exact ⟨_, _, rfl⟩

theorem exists_enterSegments {segments : List Bytes} {parent : RequestNodeId}
    (h : Built builder.model path (path parent :: counted) leaves) (hmap : builder.Mapped)
    (hparent : builder.IsParent (some parent))
    (hcounted : ∀ request ∈ counted, Starts all request)
    (hroom : (treePaths all).card ≤ nodeLimit)
    (hstart : Starts all (path parent ++ segments.map segmentIdentifier)) :
    ∃ id next, builder.enterSegments parent segments = some (id, next) := by
  induction segments generalizing builder path parent with
  | nil => exact ⟨_, _, rfl⟩
  | cons segment segments ih =>
    obtain ⟨entry, hentry, hbegins⟩ := hstart
    rw [List.map_cons, List.append_cons] at hbegins
    obtain ⟨child, next, henter⟩ := (@exists_enterBranch _ _ _ _ _ (some parent) segment .path) h
      hmap hparent (.inr rfl) (List.forall_mem_cons.2
        ⟨⟨entry, hentry, ((List.prefix_append _ _).trans (List.prefix_append _ _)).trans hbegins⟩,
          hcounted⟩) hroom ⟨entry, hentry, (List.prefix_append _ _).trans hbegins⟩
    obtain ⟨path₁, hbuilt, hmapped, hchild, hpath⟩ := (@enterBranch_spec _ _ _ _ _ (some parent))
      h hmap hparent (.inr ⟨rfl, by simp⟩) henter
    rw [← hpath] at hbuilt
    obtain ⟨id, last, hrest⟩ := ih hbuilt hmapped hchild ⟨entry, hentry, hpath ▸ hbegins⟩
    refine ⟨id, last, ?_⟩
    unfold enterSegments
    rw [henter]
    exact hrest

theorem exists_insertEntry {entry : RequestTreeEntry} (h : Built builder.model path counted leaves)
    (hmap : builder.Mapped) (hnew : ∀ request, (entry.requestSequence, request) ∉ leaves)
    (hcounted : ∀ request ∈ counted, Starts all request)
    (hroom : (treePaths all).card ≤ nodeLimit) (hentry : entry ∈ all) :
    ∃ next, builder.insertEntry entry = some next := by
  have hparentStarts : entry.parentPath <+: entry.requestPath := List.prefix_append _ _
  have hstarts : ∀ {start}, start <+: entry.requestPath → Starts all start :=
    fun hbegins => ⟨entry, hentry, hbegins⟩
  obtain ⟨root, builder₁, horigin⟩ := (@exists_enterBranch _ _ _ _ _ none entry.origin .origin)
    h.begin hmap (fun _ hid => by cases hid) (.inl rfl)
    (List.forall_mem_cons.2 ⟨hstarts List.nil_prefix, hcounted⟩) hroom
    (hstarts ((List.prefix_append [originIdentifier entry.origin] _).trans hparentStarts))
  obtain ⟨path₁, hbuilt, hmapped, hroot, hpath⟩ := (@enterBranch_spec _ _ _ _ _ none)
    h.begin hmap (fun _ hid => by cases hid) (.inl ⟨rfl, rfl⟩) horigin
  have hparentPath : path₁ root ++ (parentSegments entry.segments).map segmentIdentifier =
      entry.parentPath := by
    rw [hpath]
    rfl
  rw [← hpath] at hbuilt
  obtain ⟨parent, builder₂, hsegments⟩ := exists_enterSegments hbuilt hmapped hroot hcounted hroom
    (hparentPath.symm ▸ hstarts hparentStarts)
  obtain ⟨path₂, hbuilt, hmapped, hparent, hpath'⟩ := enterSegments_spec hbuilt hmapped hroot hsegments
  rw [hparentPath] at hbuilt hpath'
  have hlt := length_lt_nodeLimit hbuilt
    (List.forall_mem_cons.2 ⟨hstarts hparentStarts, hcounted⟩) hroom (by simp)
    (hstarts (hpath'.symm ▸ List.prefix_rfl)) (fresh_capture hbuilt hmapped hparent hnew)
  unfold insertEntry insertCapture pushNode
  simp only [horigin, hsegments, Option.bind_eq_bind, Option.bind_some, if_pos hlt]
  exact ⟨_, rfl⟩

theorem exists_insertEntries {entries : List RequestTreeEntry}
    (h : Built builder.model path counted leaves) (hmap : builder.Mapped)
    (hnodup : (entries.map RequestTreeEntry.requestSequence).Nodup)
    (hnew : ∀ entry ∈ entries, ∀ request, (entry.requestSequence, request) ∉ leaves)
    (hcounted : ∀ request ∈ counted, Starts all request)
    (hroom : (treePaths all).card ≤ nodeLimit) (hsub : entries ⊆ all) :
    ∃ next, builder.insertEntries entries = some next := by
  induction entries generalizing builder path counted leaves with
  | nil => exact ⟨_, rfl⟩
  | cons entry entries ih =>
    have hentry : entry ∈ all := hsub List.mem_cons_self
    rw [List.map_cons, List.nodup_cons] at hnodup
    obtain ⟨next, hnext⟩ := exists_insertEntry h hmap (hnew entry List.mem_cons_self) hcounted
      hroom hentry
    obtain ⟨path₁, hbuilt, hmapped⟩ :=
      insertEntry_spec h hmap (hnew entry List.mem_cons_self) hnext
    obtain ⟨last, hrest⟩ := ih hbuilt hmapped hnodup.2
      (unused_cons hnodup.1 fun other hother => hnew other (List.mem_cons_of_mem _ hother))
      (List.forall_mem_cons.2 ⟨⟨entry, hentry, List.prefix_rfl⟩, hcounted⟩)
      (List.subset_of_cons_subset hsub)
    refine ⟨last, ?_⟩
    unfold insertEntries
    rw [hnext]
    exact hrest

/-- Every node has its index. -/
theorem length_insertEntries {entries : List RequestTreeEntry}
    (hresult : builder.insertEntries entries = some builder')
    (hlimit : builder.model.nodes.length ≤ nodeLimit) :
    builder'.model.nodes.length ≤ nodeLimit := by
  induction entries generalizing builder with
  | nil =>
    obtain rfl := Option.some.inj hresult
    exact hlimit
  | cons entry entries ih =>
    unfold insertEntries at hresult
    obtain ⟨next, hentry, hresult⟩ := Option.bind_eq_some_iff.1 hresult
    unfold insertEntry at hentry
    obtain ⟨⟨root, builder₁⟩, -, hentry⟩ := Option.bind_eq_some_iff.1 hentry
    obtain ⟨⟨parent, builder₂⟩, -, hentry⟩ := Option.bind_eq_some_iff.1 hentry
    refine ih hresult ?_
    dsimp only at hentry
    unfold insertCapture pushNode at hentry
    split at hentry
    case isFalse => cases hentry
    case isTrue hroom =>
      obtain rfl := Option.some.inj hentry
      dsimp only
      rw [length_modifyNode, List.length_append, List.length_singleton]
      exact hroom

/-! ## The start -/

theorem built_nil : Built {} (fun _ => []) [] [] where
  named :=
    { parent_lt := fun _ _ hid => absurd hid (Nat.not_lt_zero _)
      mem_children := fun parent id => by
        have hnone : ({} : RequestTreeModel).arena.children parent = [] := by cases parent <;> rfl
        rw [hnone]
        exact ⟨fun hmem => absurd hmem List.not_mem_nil, fun h => absurd h.1 (Nat.not_lt_zero _)⟩
      nodup_children := fun parent => by
        have hnone : ({} : RequestTreeModel).arena.children parent = [] := by cases parent <;> rfl
        rw [hnone]
        exact List.nodup_nil
      path_eq := fun _ hid => absurd hid (Nat.not_lt_zero _)
      path_inj := fun _ _ hid => absurd hid (Nat.not_lt_zero _) }
  counts := fun _ hid => absurd hid (Nat.not_lt_zero _)
  used := fun _ hid => absurd hid (Nat.not_lt_zero _)
  covered := fun _ hrequest => absurd hrequest List.not_mem_nil
  leaf := fun _ hid => absurd hid (Nat.not_lt_zero _)
  room := fun _ hid => absurd hid (Nat.not_lt_zero _)
  leaves := fun _ _ => ⟨fun hmem => absurd hmem List.not_mem_nil,
    fun ⟨_, hid, _⟩ => absurd hid (Nat.not_lt_zero _)⟩

theorem mapped_nil : Mapped {} where
  branch := fun _ _ _ hlookup => by cases hlookup
  known := fun _ hid => absurd hid (Nat.not_lt_zero _)

end Entries

end RequestTreeBuilder

end Fluxcope.Requests
