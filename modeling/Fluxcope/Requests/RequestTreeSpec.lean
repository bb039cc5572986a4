import Fluxcope.Requests.RequestTreeIndex
import Mathlib.Data.List.Perm.Subperm
/-!
# What a request tree shows

The tree of a list of captures has a node for each path that starts the path of a
capture; the node counts and lists those captures.
-/

namespace Fluxcope.Requests

open Fluxcope.Library Fluxcope.Library.Utf8 Fluxcope.Capture

namespace RequestTreeModel

/-! ## Captures under a node -/

def sequenceOf (model : RequestTreeModel) (id : RequestNodeId) : Option CaptureSequence :=
  match (model.node id).kind with
  | .capture sequence => some sequence
  | .origin | .path => none

theorem sequenceOf_eq_some {model : RequestTreeModel} {id : RequestNodeId}
    {sequence : CaptureSequence} :
    model.sequenceOf id = some sequence ↔ (model.node id).kind = .capture sequence := by
  unfold sequenceOf
  split
  case h_1 other hkind => rw [hkind, Option.some.injEq, RequestNodeKind.capture.injEq]
  case h_2 hkind => rw [hkind]; exact ⟨fun h => (by cases h), fun h => (by cases h)⟩
  case h_3 hkind => rw [hkind]; exact ⟨fun h => (by cases h), fun h => (by cases h)⟩

section Built

variable {model : RequestTreeModel} {path : Nat → List Bytes} {counted : List (List Bytes)}
  {leaves : List (CaptureSequence × List Bytes)}

theorem collectSequences_eq (h : Built model path counted leaves) (depth : Nat)
    {id : RequestNodeId} (hid : id < model.nodes.length) :
    model.collectSequences (depth + 1) id =
      (model.arena.subtree depth id).filterMap model.sequenceOf := by
  induction depth generalizing id with
  | zero =>
    rw [collectSequences, Arena.subtree]
    unfold sequenceOf
    cases hkind : (model.node id).kind <;> simp [hkind, collectSequences]
  | succ depth ih =>
    have hrest : (model.node id).children.flatMap (fun child =>
        model.collectSequences (depth + 1) child) =
          (model.arena.preorder depth (some id)).filterMap model.sequenceOf := by
      unfold Arena.preorder
      rw [List.filterMap_flatMap]
      exact List.flatMap_congr fun child hchild => ih (h.lt_of_child hchild)
    rw [collectSequences, Arena.subtree_eq, List.filterMap_cons]
    unfold sequenceOf
    cases hkind : (model.node id).kind with
    | capture sequence =>
      have hnone := (h.leaf id hid sequence hkind).2
      have hempty : model.arena.children (some id) = [] :=
        List.eq_nil_iff_forall_not_mem.2 hnone
      unfold Arena.preorder
      rw [hempty]
      rfl
    | origin => exact hrest
    | path => exact hrest

theorem mem_collectSequences (h : Built model path counted leaves) {root : RequestNodeId}
    (hroot : root < model.nodes.length) {sequence : CaptureSequence} :
    sequence ∈ model.collectSequences model.nodes.length root ↔
      ∃ request, (sequence, request) ∈ leaves ∧ path root <+: request := by
  obtain ⟨depth, hdepth⟩ := Nat.exists_eq_succ_of_ne_zero (Nat.ne_zero_of_lt hroot)
  rw [hdepth, collectSequences_eq h depth hroot, List.mem_filterMap]
  have hdeep : model.arena.size ≤ depth + root + 1 := by
    change model.nodes.length ≤ _
    omega
  constructor
  · rintro ⟨id, hid, hsequence⟩
    obtain ⟨hlt, hbegins⟩ := (h.named.mem_subtree hroot hdeep).1 hid
    exact ⟨path id, (h.leaves _ _).2 ⟨id, hlt, sequenceOf_eq_some.1 hsequence, rfl⟩, hbegins⟩
  · rintro ⟨request, hmem, hbegins⟩
    obtain ⟨id, hlt, hkind, rfl⟩ := (h.leaves _ _).1 hmem
    exact ⟨id, (h.named.mem_subtree hroot hdeep).2 ⟨hlt, hbegins⟩, sequenceOf_eq_some.2 hkind⟩

theorem lt_of_sequenceOf {id : RequestNodeId} {sequence : CaptureSequence}
    (h : model.sequenceOf id = some sequence) : id < model.nodes.length := by
  by_contra hge
  rw [sequenceOf_eq_some, node_of_length_le (Nat.le_of_not_lt hge)] at h
  cases h

theorem nodup_collectSequences (h : Built model path counted leaves)
    (hnodup : (leaves.map Prod.fst).Nodup) {root : RequestNodeId}
    (hroot : root < model.nodes.length) :
    (model.collectSequences model.nodes.length root).Nodup := by
  obtain ⟨depth, hdepth⟩ := Nat.exists_eq_succ_of_ne_zero (Nat.ne_zero_of_lt hroot)
  rw [hdepth, collectSequences_eq h depth hroot]
  refine (h.named.nodup_subtree depth hroot).filterMap fun id other sequence hid hother => ?_
  have hlt := lt_of_sequenceOf hid
  have hlt' := lt_of_sequenceOf hother
  have hleaf := (h.leaves _ _).2 ⟨id, hlt, sequenceOf_eq_some.1 hid, rfl⟩
  have hleaf' := (h.leaves _ _).2 ⟨other, hlt', sequenceOf_eq_some.1 hother, rfl⟩
  have heq := List.inj_on_of_nodup_map hnodup hleaf hleaf' rfl
  exact h.named.path_inj id other hlt hlt' (Prod.mk.inj heq).2

/-! ## Positions -/

theorem logicalPositions_rebuildSearchIndex (h : Built model path counted leaves)
    (hroom : model.nodes.length ≤ wordMax) {id : RequestNodeId} (hid : id < model.nodes.length) :
    model.rebuildSearchIndex.logicalPositions[id]? =
      some ((model.arena.preorder (model.nodes.length - 1) none).idxOf id) := by
  have hpos : model.nodes.length = model.nodes.length - 1 + 1 :=
    (Nat.sub_add_cancel (Nat.one_le_of_lt hid)).symm
  have hindex := indexNodes_eq h.named (model.nodes.length - 1) none
    { nextPosition := 0, logicalPositions := List.replicate model.nodes.length 0
      nodesByPathHash := [] }
  rw [← hpos] at hindex
  have hmem : id ∈ model.arena.preorder (model.nodes.length - 1) none :=
    (h.named.mem_preorder hpos.le).2 hid
  have hnodup := h.named.nodup_preorder (model.nodes.length - 1) none
  have hlength : (model.arena.preorder (model.nodes.length - 1) none).length ≤ wordMax := by
    refine le_trans ?_ hroom
    have hsub : (model.arena.preorder (model.nodes.length - 1) none).Subperm
        (List.range model.nodes.length) := List.Nodup.subperm hnodup fun node hnode =>
      List.mem_range.2 ((h.named.mem_preorder hpos.le).1 hnode)
    exact hsub.length_le.trans List.length_range.le
  have hplaced := (@SearchIndex.positions_foldl (fun id => hashPath (path id)) _ hnodup
    { nextPosition := 0, logicalPositions := List.replicate model.nodes.length 0
      nodesByPathHash := [] }
    (by rw [Nat.zero_add]; exact hlength)
    (fun node hnode => by
      rw [List.length_replicate]
      exact (h.named.mem_preorder hpos.le).1 hnode)).1 id hmem
  unfold rebuildSearchIndex
  dsimp only at hplaced ⊢
  rw [Nat.zero_add] at hplaced
  exact (congrArg (fun index : SearchIndex => index.logicalPositions[id]?) hindex).trans hplaced

theorem logicalPosition_eq_some (h : Built model path counted leaves)
    (hroom : model.nodes.length ≤ wordMax) {start : List Bytes} {position : Nat} :
    model.rebuildSearchIndex.logicalPosition start = some position ↔
      ∃ id < model.nodes.length, path id = start ∧
        (model.arena.preorder (model.nodes.length - 1) none).idxOf id = position := by
  have hids : SearchIndex.idsAt model.rebuildSearchIndex.nodesByPathHash (hashPath start) =
      (model.arena.preorder (model.nodes.length - 1) none).filter fun id =>
        hashPath start = hashPath (path id) := by
    unfold rebuildSearchIndex
    cases hlength : model.nodes.length with
    | zero =>
      have hroots : model.arena.children none = [] :=
        List.eq_nil_iff_forall_not_mem.2 fun id hid => by
          have hlt : id < model.nodes.length := h.named.lt_of_mem hid
          rw [hlength] at hlt
          exact Nat.not_lt_zero _ hlt
      unfold Arena.preorder
      rw [hroots]
      rfl
    | succ size =>
      have hindex := indexNodes_eq h.named size none
        { nextPosition := 0, logicalPositions := List.replicate (size + 1) 0
          nodesByPathHash := [] }
      dsimp only
      refine (congrArg (fun index : SearchIndex =>
        SearchIndex.idsAt index.nodesByPathHash (hashPath start)) hindex).trans ?_
      exact SearchIndex.idsAt_foldl (fun id => hashPath (path id)) _ _ _
  have hlookup : model.rebuildSearchIndex.logicalPosition start =
      ((SearchIndex.idsAt model.rebuildSearchIndex.nodesByPathHash (hashPath start)).find?
        fun id => model.rebuildSearchIndex.nodeMatchesPath id start).bind fun id =>
          model.rebuildSearchIndex.logicalPositions[id]? := by
    unfold logicalPosition SearchIndex.idsAt
    cases model.rebuildSearchIndex.nodesByPathHash.lookup (hashPath start) with
    | none => rfl
    | some entry => rfl
  have hnamed : model.rebuildSearchIndex.arena.Named path := h.named
  rw [hlookup, hids, Option.bind_eq_some_iff]
  constructor
  · rintro ⟨id, hfind, hposition⟩
    have hmem := List.mem_filter.1 (List.mem_of_find?_eq_some hfind)
    have hid : id < model.nodes.length := by
      obtain ⟨root, hroot, hid⟩ := List.mem_flatMap.1 hmem.1
      exact (h.named.prefix_of_mem_subtree (h.named.lt_of_mem hroot) hid).1
    rw [logicalPositions_rebuildSearchIndex h hroom hid] at hposition
    have hmatches := List.find?_some hfind
    exact ⟨id, hid, (nodeMatchesPath_iff hnamed hid).1 hmatches, Option.some.inj hposition⟩
  · rintro ⟨id, hid, hpath, hposition⟩
    refine ⟨id, ?_, (logicalPositions_rebuildSearchIndex h hroom hid).trans (congrArg some hposition)⟩
    have hpos := Nat.sub_add_cancel (Nat.one_le_of_lt hid)
    have hmem : id ∈ (model.arena.preorder (model.nodes.length - 1) none).filter fun id =>
        hashPath start = hashPath (path id) :=
      List.mem_filter.2 ⟨(h.named.mem_preorder hpos.ge).2 hid, decide_eq_true (by rw [hpath])⟩
    -- No other node has the path, whatever else has its hash.
    refine List.find?_eq_some_iff_append.2 ⟨(nodeMatchesPath_iff hnamed hid).2 hpath, ?_⟩
    obtain ⟨before, after, hsplit, hbefore⟩ := List.eq_append_cons_of_mem hmem
    refine ⟨before, after, hsplit, fun other hother => ?_⟩
    have hother' : other < model.nodes.length := by
      have hmem' : other ∈ (model.arena.preorder (model.nodes.length - 1) none).filter fun id =>
          hashPath start = hashPath (path id) := by
        rw [hsplit]
        exact List.mem_append_left _ hother
      exact (h.named.mem_preorder hpos.ge).1 (List.mem_filter.1 hmem').1
    rw [Bool.not_eq_true', ← Bool.not_eq_true, nodeMatchesPath_iff hnamed hother', ← hpath]
    intro heq
    rw [h.named.path_inj other id hother' hid heq] at hother
    exact hbefore hother

end Built

/-! ## The tree of a list of captures -/

/-- The captures under a path, for any list of captures. -/
def entriesUnder (entries : List RequestTreeEntry) (path : List Bytes) : List RequestTreeEntry :=
  entries.filter fun entry => path <+: entry.requestPath

/-- The nodes in pre-order. -/
def preorder (model : RequestTreeModel) : List RequestNodeId :=
  model.arena.preorder (model.nodes.length - 1) none

structure Consistent (model : RequestTreeModel) (entries : List RequestTreeEntry) : Prop where
  found : ∀ path, (model.find path).isSome ↔
    path ≠ [] ∧ ∃ entry ∈ entries, path <+: entry.requestPath
  sequences : ∀ path ≠ [], (model.sequencesUnder path).Perm
    ((entriesUnder entries path).map RequestTreeEntry.requestSequence)
  leafCount : ∀ path id, model.find path = some id →
    (model.node id).leafCount = (model.sequencesUnder path).length
  contains : ∀ path, model.contains path = (model.find path).isSome
  positions : ∀ path id, model.find path = some id →
    model.logicalPosition path = some (model.preorder.idxOf id)
  complete : ∀ id, id ∈ model.preorder ↔ id < model.nodes.length
  nodup : model.preorder.Nodup
  injective : ∀ path other position, model.logicalPosition path = some position →
    model.logicalPosition other = some position → path = other
  siblings : ∀ parent, ((model.arena.children parent).map fun id => (model.node id).identifier).Nodup

/-- The nodes of the tree, and what they count. -/
theorem exists_built {entries : List RequestTreeEntry} {model : RequestTreeModel}
    (hnodup : (entries.map RequestTreeEntry.requestSequence).Nodup)
    (hmodel : fromEntries entries = some model) :
    ∃ base path, model = base.rebuildSearchIndex ∧ base.nodes.length ≤ nodeLimit ∧
      Built base path (entries.map RequestTreeEntry.requestPath)
        (entries.map fun entry => (entry.requestSequence, entry.requestPath)) := by
  obtain ⟨builder, hbuilder, rfl⟩ := Option.map_eq_some_iff.1 hmodel
  obtain ⟨path, hbuilt⟩ := RequestTreeBuilder.insertEntries_spec RequestTreeBuilder.built_nil
    RequestTreeBuilder.mapped_nil hnodup (fun _ _ _ => List.not_mem_nil) hbuilder
  rw [List.append_nil, List.append_nil] at hbuilt
  exact ⟨builder.model, path, rfl,
    RequestTreeBuilder.length_insertEntries hbuilder (Nat.zero_le _), hbuilt⟩

theorem built_rebuildSearchIndex {model : RequestTreeModel} {path : Nat → List Bytes}
    {counted : List (List Bytes)} {leaves : List (CaptureSequence × List Bytes)}
    (h : Built model path counted leaves) : Built model.rebuildSearchIndex path counted leaves :=
  ⟨h.named, h.counts, h.used, h.covered, h.leaf, h.room, h.leaves⟩

section Entries

variable {model : RequestTreeModel} {path : Nat → List Bytes} {entries : List RequestTreeEntry}

theorem isSome_find_iff (h : Built model path (entries.map RequestTreeEntry.requestPath)
      (entries.map fun entry => (entry.requestSequence, entry.requestPath))) (start : List Bytes) :
    (model.find start).isSome ↔ start ≠ [] ∧ ∃ entry ∈ entries, start <+: entry.requestPath := by
  rw [Option.isSome_iff_exists]
  constructor
  · rintro ⟨id, hid⟩
    obtain ⟨hlt, rfl⟩ := (find_eq_some h.named).1 hid
    obtain ⟨request, hrequest, hbegins⟩ := h.used id hlt
    obtain ⟨entry, hentry, rfl⟩ := List.mem_map.1 hrequest
    exact ⟨h.named.path_ne_nil hlt, entry, hentry, hbegins⟩
  · rintro ⟨hne, entry, hentry, hbegins⟩
    obtain ⟨id, hlt, hpath⟩ := h.covered _ (List.mem_map_of_mem hentry) start hne hbegins
    exact ⟨id, (find_eq_some h.named).2 ⟨hlt, hpath⟩⟩

theorem sequencesUnder_perm (h : Built model path (entries.map RequestTreeEntry.requestPath)
      (entries.map fun entry => (entry.requestSequence, entry.requestPath)))
    (hnodup : (entries.map RequestTreeEntry.requestSequence).Nodup) {start : List Bytes}
    (hne : start ≠ []) :
    (model.sequencesUnder start).Perm
      ((entriesUnder entries start).map RequestTreeEntry.requestSequence) := by
  have hkeys : ((entries.map fun entry => (entry.requestSequence, entry.requestPath)).map
      Prod.fst).Nodup := by
    rw [List.map_map]
    exact hnodup
  unfold sequencesUnder entriesUnder
  cases hfind : model.find start with
  | none =>
    have hnone : ∀ entry ∈ entries, ¬ decide (start <+: entry.requestPath) = true := by
      intro entry hentry hbegins
      have hsome := (isSome_find_iff h start).2 ⟨hne, entry, hentry, of_decide_eq_true hbegins⟩
      rw [hfind] at hsome
      cases hsome
    rw [List.filter_eq_nil_iff.2 hnone]
    exact List.Perm.nil
  | some root =>
    obtain ⟨hroot, rfl⟩ := (find_eq_some h.named).1 hfind
    have hfiltered : ((entries.filter fun entry => path root <+: entry.requestPath).map
        RequestTreeEntry.requestSequence).Nodup :=
      hnodup.sublist (List.filter_sublist.map _)
    refine (List.perm_ext_iff_of_nodup (nodup_collectSequences h hkeys hroot) hfiltered).2
      fun sequence => (mem_collectSequences h hroot).trans ?_
    constructor
    · rintro ⟨request, hleaf, hbegins⟩
      obtain ⟨entry, hentry, heq⟩ := List.mem_map.1 hleaf
      obtain ⟨rfl, rfl⟩ := Prod.mk.inj heq
      exact List.mem_map_of_mem (List.mem_filter.2 ⟨hentry, decide_eq_true hbegins⟩)
    · intro hmem
      obtain ⟨entry, hentry, rfl⟩ := List.mem_map.1 hmem
      obtain ⟨hentry, hbegins⟩ := List.mem_filter.1 hentry
      exact ⟨entry.requestPath, List.mem_map.2 ⟨entry, hentry, rfl⟩, of_decide_eq_true hbegins⟩

theorem leafCount_eq (h : Built model path (entries.map RequestTreeEntry.requestPath)
      (entries.map fun entry => (entry.requestSequence, entry.requestPath)))
    (hnodup : (entries.map RequestTreeEntry.requestSequence).Nodup) {start : List Bytes}
    {id : RequestNodeId} (hfind : model.find start = some id) :
    (model.node id).leafCount = (model.sequencesUnder start).length := by
  obtain ⟨hlt, rfl⟩ := (find_eq_some h.named).1 hfind
  rw [(sequencesUnder_perm h hnodup (h.named.path_ne_nil hlt)).length_eq, List.length_map,
    h.counts id hlt, List.countP_map, List.countP_eq_length_filter]
  rfl

end Entries

/-- Every list of captures with different sequence numbers yields a consistent tree, unless
its nodes are more than an index can tell apart.  The nodes are the starts of the paths. -/
theorem fromEntries_consistent {entries : List RequestTreeEntry}
    (hnodup : (entries.map RequestTreeEntry.requestSequence).Nodup) :
    (∀ model, fromEntries entries = some model → Consistent model entries) ∧
      ((∃ model, fromEntries entries = some model) ↔
        (RequestTreeBuilder.treePaths entries).card ≤ nodeLimit) := by
  refine ⟨fun model hmodel => ?_, fun ⟨model, hmodel⟩ => ?_, fun hroom => ?_⟩
  · obtain ⟨base, path, rfl, hlimit, hbase⟩ := exists_built hnodup hmodel
    have h := built_rebuildSearchIndex hbase
    have hsize : base.nodes.length ≤ wordMax := hlimit.trans (by decide)
    have hlogical : ∀ start position,
        base.rebuildSearchIndex.logicalPosition start = some position ↔
          ∃ id < base.nodes.length, path id = start ∧
            base.rebuildSearchIndex.preorder.idxOf id = position :=
      fun start position => logicalPosition_eq_some hbase hsize
    have hdeep : base.nodes.length ≤ base.nodes.length - 1 + 1 := by omega
    have hmem : ∀ id, id ∈ base.rebuildSearchIndex.preorder ↔ id < base.nodes.length :=
      fun id => h.named.mem_preorder hdeep
    exact
      { found := isSome_find_iff h
        sequences := fun start hne => sequencesUnder_perm h hnodup hne
        leafCount := fun start id hfind => leafCount_eq h hnodup hfind
        contains := fun start => by
          unfold RequestTreeModel.contains
          rw [Bool.eq_iff_iff, Option.isSome_iff_exists, Option.isSome_iff_exists]
          constructor
          · rintro ⟨position, hposition⟩
            obtain ⟨id, hid, hpath, -⟩ := (hlogical start position).1 hposition
            exact ⟨id, (find_eq_some h.named).2 ⟨hid, hpath⟩⟩
          · rintro ⟨id, hfind⟩
            obtain ⟨hid, hpath⟩ := (find_eq_some h.named).1 hfind
            exact ⟨_, (hlogical start _).2 ⟨id, hid, hpath, rfl⟩⟩
        positions := fun start id hfind => by
          obtain ⟨hlt, hpath⟩ := (find_eq_some h.named).1 hfind
          exact (hlogical start _).2 ⟨id, hlt, hpath, rfl⟩
        complete := hmem
        nodup := h.named.nodup_preorder _ none
        injective := fun start other position hstart hother => by
          obtain ⟨id, hid, rfl, hposition⟩ := (hlogical start position).1 hstart
          obtain ⟨id', hid', rfl, hposition'⟩ := (hlogical other position).1 hother
          rw [(List.idxOf_inj ((hmem id).2 hid)).1 (hposition.trans hposition'.symm)]
        siblings := fun parent => h.named.nodup_names parent }
  · obtain ⟨base, path, -, hlimit, h⟩ := exists_built hnodup hmodel
    have hall : RequestTreeBuilder.treePaths entries =
        (Finset.range base.nodes.length).image path := by
      ext start
      rw [RequestTreeBuilder.mem_treePaths, Finset.mem_image]
      constructor
      · rintro ⟨hne, entry, hentry, hbegins⟩
        obtain ⟨id, hid, hpath⟩ :=
          h.covered _ (List.mem_map.2 ⟨entry, hentry, rfl⟩) start hne hbegins
        exact ⟨id, Finset.mem_range.2 hid, hpath⟩
      · rintro ⟨id, hid, rfl⟩
        have hlt := Finset.mem_range.1 hid
        obtain ⟨request, hrequest, hbegins⟩ := h.used id hlt
        obtain ⟨entry, hentry, rfl⟩ := List.mem_map.1 hrequest
        exact ⟨h.named.path_ne_nil hlt, entry, hentry, hbegins⟩
    rwa [hall, RequestTreeBuilder.card_image_path h]
  · obtain ⟨builder, hbuilder⟩ := RequestTreeBuilder.exists_insertEntries
      RequestTreeBuilder.built_nil RequestTreeBuilder.mapped_nil hnodup
      (fun _ _ _ => List.not_mem_nil) (fun _ hrequest => absurd hrequest List.not_mem_nil) hroom
      (List.Subset.refl entries)
    exact ⟨_, congrArg (Option.map fun builder : RequestTreeBuilder =>
      builder.model.rebuildSearchIndex) hbuilder⟩

/-- The entries of a list of captures. -/
def entriesOf (parse : Bytes → Option Url) (requests : List CaptureSummary) :
    List RequestTreeEntry :=
  requests.map fun capture => RequestTreeEntry.ofSummary parse capture

theorem fromRequests_consistent (parse : Bytes → Option Url) {requests : List CaptureSummary}
    (hnodup : (requests.map CaptureSummary.sequence).Nodup) :
    (∀ model, fromRequests parse requests = some model →
      Consistent model (entriesOf parse requests)) ∧
    ((∃ model, fromRequests parse requests = some model) ↔
      (RequestTreeBuilder.treePaths (entriesOf parse requests)).card ≤ nodeLimit) := by
  have hentries : ((entriesOf parse requests).map RequestTreeEntry.requestSequence).Nodup := by
    unfold entriesOf
    rw [List.map_map]
    exact hnodup
  exact fromEntries_consistent hentries

/-- A parser for the URLs of the samples, which have no origin. -/
def sampleParse : Bytes → Option Url := fun _ => none

def sampleSummary (sequence : CaptureSequence) (uri : String) : CaptureSummary :=
  { sequence
    request :=
      { method := ofAscii "GET"
        originalUri := ofAscii uri
        effectiveUri := ofAscii uri
        localPath := none
        headers := [(ofAscii "Host", ofAscii "a")] } }

def sampleSummaries : List CaptureSummary :=
  [sampleSummary 7 "/api/list?page=1", sampleSummary 8 "/api", sampleSummary 9 "/api/v1/list"]

theorem fromRequests_consistent_sample :
    ∃ model, fromRequests sampleParse sampleSummaries = some model ∧
      Consistent model (entriesOf sampleParse sampleSummaries) := by
  have hnodup : (sampleSummaries.map CaptureSummary.sequence).Nodup := by decide
  obtain ⟨hconsistent, hexists⟩ := fromRequests_consistent sampleParse hnodup
  obtain ⟨model, hmodel⟩ := hexists.2 (by decide +kernel)
  exact ⟨model, hmodel, hconsistent model hmodel⟩

/-- The same capture twice makes two siblings with one identifier. -/
theorem fromRequests_repeatedCapture :
    ∃ model, fromRequests sampleParse [sampleSummary 7 "/api", sampleSummary 7 "/api"] =
        some model ∧
      ∃ parent, ¬ ((model.arena.children parent).map fun id => (model.node id).identifier).Nodup :=
  ⟨_, rfl, some 0, by decide +kernel⟩

end RequestTreeModel

end Fluxcope.Requests
