import Fluxcope.Requests.RequestTreeSpec
/-!
# Rows of a request tree

The rows and the branches of a tree are paths of its nodes, whatever is opened.
-/

namespace Fluxcope.Requests

open Fluxcope.Library Fluxcope.Library.Utf8 Fluxcope.Capture

namespace RequestTreeModel

section Built

variable {model : RequestTreeModel} {path : Nat → List Bytes} {counted : List (List Bytes)}
  {leaves : List (CaptureSequence × List Bytes)}

theorem path_of_child (h : Built model path counted leaves) {parent : Option Nat} {id : Nat}
    (hid : id ∈ model.arena.children parent) :
    id < model.nodes.length ∧ Arena.pathOf path parent ++ [(model.node id).identifier] = path id :=
  ⟨h.named.lt_of_mem hid, (h.named.path_child hid).symm⟩

theorem mem_collectVisible (h : Built model path counted leaves) {opened : List (List Bytes)}
    {depth : Nat} {parent : Option Nat} {row : List Bytes}
    (hrow : row ∈ model.collectVisible opened depth (model.arena.children parent)
      (Arena.pathOf path parent)) : ∃ id < model.nodes.length, path id = row := by
  induction depth generalizing parent with
  | zero => cases hrow
  | succ depth ih =>
    obtain ⟨id, hid, hrow⟩ := List.mem_flatMap.1 hrow
    obtain ⟨hlt, hpath⟩ := path_of_child h hid
    dsimp only at hrow
    rw [hpath] at hrow
    rcases List.mem_cons.1 hrow with rfl | hrow
    · exact ⟨id, hlt, rfl⟩
    · split at hrow
      · exact @ih (some id) hrow
      · cases hrow

theorem mem_collectBranchPaths (h : Built model path counted leaves) {depth : Nat}
    {parent : Option Nat} {row : List Bytes}
    (hrow : row ∈ model.collectBranchPaths depth (model.arena.children parent)
      (Arena.pathOf path parent)) : ∃ id < model.nodes.length, path id = row := by
  induction depth generalizing parent with
  | zero => cases hrow
  | succ depth ih =>
    obtain ⟨id, hid, hrow⟩ := List.mem_flatMap.1 hrow
    obtain ⟨hlt, hpath⟩ := path_of_child h hid
    dsimp only at hrow
    rw [hpath] at hrow
    have hbranch : row ∈ path id :: model.collectBranchPaths depth (model.node id).children
        (path id) := by
      cases hkind : (model.node id).kind with
      | capture sequence =>
        rw [hkind] at hrow
        cases hrow
      | origin =>
        rw [hkind] at hrow
        exact hrow
      | path =>
        rw [hkind] at hrow
        exact hrow
    rcases List.mem_cons.1 hbranch with rfl | hrow
    · exact ⟨id, hlt, rfl⟩
    · exact @ih (some id) hrow

end Built

theorem collectVisible_congr (model : RequestTreeModel) {opened opened' : List (List Bytes)}
    (h : ∀ path, path ∈ opened ↔ path ∈ opened') (depth : Nat) (ids : List RequestNodeId)
    (path : List Bytes) :
    model.collectVisible opened depth ids path = model.collectVisible opened' depth ids path := by
  induction depth generalizing ids path with
  | zero => rfl
  | succ depth ih =>
    refine List.flatMap_congr fun id _ => ?_
    dsimp only
    rw [ih]
    simp only [h]

/-- The rows depend only on which paths are opened. -/
theorem visiblePaths_congr (model : RequestTreeModel) {opened opened' : List (List Bytes)}
    (h : ∀ path, path ∈ opened ↔ path ∈ opened') :
    model.visiblePaths opened = model.visiblePaths opened' :=
  collectVisible_congr model h _ _ _

/-- What the list of requests reads off a tree. -/
structure Shows (model : RequestTreeModel) (entries : List RequestTreeEntry) : Prop where
  contains : ∀ path, model.contains path = true ↔
    path ≠ [] ∧ ∃ entry ∈ entries, path <+: entry.requestPath
  visible : ∀ opened, ∀ row ∈ model.visiblePaths opened, model.contains row = true
  branches : ∀ row ∈ model.branchPaths, model.contains row = true

theorem fromRequests_shows {parse : Bytes → Option Url} {requests : List CaptureSummary}
    {model : RequestTreeModel} (hnodup : (requests.map CaptureSummary.sequence).Nodup)
    (hmodel : fromRequests parse requests = some model) :
    Shows model (entriesOf parse requests) := by
  have hconsistent := (fromRequests_consistent parse hnodup).1 model hmodel
  have hentries : ((entriesOf parse requests).map RequestTreeEntry.requestSequence).Nodup := by
    unfold entriesOf
    rw [List.map_map]
    exact hnodup
  obtain ⟨base, path, rfl, -, hbase⟩ := exists_built hentries hmodel
  have h := built_rebuildSearchIndex hbase
  have hnode : ∀ {row : List Bytes}, (∃ id < base.rebuildSearchIndex.nodes.length, path id = row) →
      base.rebuildSearchIndex.contains row = true := by
    rintro row ⟨id, hid, hrow⟩
    rw [hconsistent.contains, (find_eq_some h.named).2 ⟨hid, hrow⟩, Option.isSome_some]
  refine ⟨fun start => ?_, fun opened row hrow => ?_, fun row hrow => ?_⟩
  · rw [hconsistent.contains]
    exact hconsistent.found start
  · exact hnode (@mem_collectVisible _ _ _ _ h opened _ none row hrow)
  · exact hnode (@mem_collectBranchPaths _ _ _ _ h _ none row hrow)

end RequestTreeModel

end Fluxcope.Requests
