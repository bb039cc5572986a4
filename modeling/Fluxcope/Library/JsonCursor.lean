import Fluxcope.Library.JsonLocated
/-!
# Following the events of a document

A reader of the events stands inside the containers that are open.  It knows the segments
of the value that comes next, and reports every value where the document has it.
-/

namespace Fluxcope.Library

open Utf8

/-- What was read of an open container: the key of the member at hand, or the number of
elements before the one at hand. -/
inductive CursorFrame
  | object (key : Option Text)
  | array (passed : Nat)
  deriving DecidableEq, Repr

/-- The innermost container comes first. -/
abbrev Cursor := List CursorFrame

namespace Cursor

/-- The segments of the next value, or of the one that is open. -/
def childSegments : Cursor → List Text
  | [] => []
  | .object key :: outer => childSegments outer ++ key.toList
  | .array passed :: outer => childSegments outer ++ [indexSegment passed]

/-- The segments read so far: those of the innermost container, and the key behind them. -/
def readSegments : Cursor → List Text
  | [] => []
  | .object key :: outer => childSegments outer ++ key.toList
  | .array _ :: outer => childSegments outer

/-- Behind the value. -/
def pass : Cursor → Cursor
  | [] => []
  | .object _ :: outer => .object none :: outer
  | .array passed :: outer => .array (passed + 1) :: outer

def step (cursor : Cursor) : JsonEvent → Cursor
  | .objectKey key =>
    match cursor with
    | [] => []
    | _ :: outer => .object (some key) :: outer
  | .startObject => .object none :: cursor
  | .startArray => .array 0 :: cursor
  | .endObject | .endArray => pass cursor.tail
  | .string | .number | .boolean | .null => pass cursor
  | .eof => cursor

end Cursor

/-! ## Reports -/

inductive ReportKind
  | scalar (type : JsonType)
  | objectStart
  | objectEnd
  | arrayStart
  | arrayEnd
  | objectKey (key : Text)
  deriving DecidableEq, Repr

/-- The containers that a report opens or closes. -/
def ReportKind.containers : ReportKind → Nat
  | .scalar _ | .objectKey _ => 0
  | .objectStart | .objectEnd | .arrayStart | .arrayEnd => 1

/-- What an event says about the value with these segments. -/
structure Report where
  kind : ReportKind
  segments : List Text
  deriving DecidableEq, Repr

def Cursor.report (cursor : Cursor) : JsonEvent → Option Report
  | .objectKey key => some ⟨.objectKey key, childSegments cursor.tail ++ [key]⟩
  | .startObject => some ⟨.objectStart, childSegments cursor⟩
  | .startArray => some ⟨.arrayStart, childSegments cursor⟩
  | .endObject => some ⟨.objectEnd, childSegments cursor.tail⟩
  | .endArray => some ⟨.arrayEnd, childSegments cursor.tail⟩
  | .string => some ⟨.scalar .string, childSegments cursor⟩
  | .number => some ⟨.scalar .number, childSegments cursor⟩
  | .boolean => some ⟨.scalar .boolean, childSegments cursor⟩
  | .null => some ⟨.scalar .null, childSegments cursor⟩
  | .eof => none

/-- The reports of successive events. -/
def Cursor.reports (cursor : Cursor) : List JsonEvent → List Report
  | [] => []
  | event :: events => (cursor.report event).toList ++ (cursor.step event).reports events

mutual

/-- What a document reports of a value and of those inside it. -/
def Json.reports (segments : List Text) : Json → List Report
  | .scalar token => [⟨.scalar token.kind.type, segments⟩]
  | .array elements _ =>
    ⟨.arrayStart, segments⟩ :: (elements.reports segments 0 ++ [⟨.arrayEnd, segments⟩])
  | .object members _ =>
    ⟨.objectStart, segments⟩ :: (members.reports segments ++ [⟨.objectEnd, segments⟩])

def Elements.reports (segments : List Text) (index : Nat) : Elements → List Report
  | .nil => []
  | .cons _ value rest =>
    value.reports (segments ++ [indexSegment index]) ++ rest.reports segments (index + 1)

def Members.reports (segments : List Text) : Members → List Report
  | .nil => []
  | .cons _ key _ value rest =>
    ⟨.objectKey key.text, segments ++ [key.text]⟩ ::
      (value.reports (segments ++ [key.text]) ++ rest.reports segments)

end

/-! ## The events of a document -/

theorem Cursor.report_scalar (cursor : Cursor) (kind : ScalarKind) :
    cursor.report kind.event = some ⟨.scalar kind.type, cursor.childSegments⟩ := by
  cases kind <;> rfl

theorem Cursor.step_scalar (cursor : Cursor) (kind : ScalarKind) :
    cursor.step kind.event = cursor.pass := by
  cases kind <;> rfl

mutual

theorem Cursor.reports_json (cursor : Cursor) (lead : Bytes) (rest : List JsonEvent) :
    ∀ value : Json, cursor.reports ((value.chunks lead).map Chunk.event ++ rest) =
      value.reports cursor.childSegments ++ cursor.pass.reports rest
  | .scalar token => by
      rw [Json.chunks, List.map_singleton, List.singleton_append, reports, report_scalar,
        step_scalar]
      rfl
  | .array elements close => by
      have helements := reports_elements cursor 0 true (.endArray :: rest) elements
      rw [Json.chunks, List.map_cons, List.map_append, List.cons_append, List.append_assoc, reports]
      simp only [List.map_singleton, List.singleton_append]
      change [Report.mk .arrayStart cursor.childSegments] ++ _ = _
      rw [step, helements, reports, Json.reports]
      simp only [report, step, List.tail_cons, Option.toList_some, List.cons_append,
        List.append_assoc, List.nil_append]
  | .object members close => by
      have hmembers := reports_members cursor true (.endObject :: rest) members
      rw [Json.chunks, List.map_cons, List.map_append, List.cons_append, List.append_assoc, reports]
      simp only [List.map_singleton, List.singleton_append]
      change [Report.mk .objectStart cursor.childSegments] ++ _ = _
      rw [step, hmembers, reports, Json.reports]
      simp only [report, step, List.tail_cons, Option.toList_some, List.cons_append,
        List.append_assoc, List.nil_append]

theorem Cursor.reports_elements (outer : Cursor) (index : Nat) (first : Bool)
    (rest : List JsonEvent) : ∀ elements : Elements,
    Cursor.reports (.array index :: outer) ((elements.chunks first).map Chunk.event ++ rest) =
      elements.reports (childSegments outer) index ++
        Cursor.reports (.array (index + elements.length) :: outer) rest
  | .nil => rfl
  | .cons gap value more => by
      rw [Elements.chunks, List.map_append, List.append_assoc, reports_json _ _ _ value, pass,
        reports_elements outer (index + 1) false rest more, Elements.reports, List.append_assoc,
        Elements.length, childSegments]
      have hindex : index + 1 + more.length = index + (more.length + 1) := by omega
      rw [hindex]

theorem Cursor.reports_members (outer : Cursor) (first : Bool) (rest : List JsonEvent) :
    ∀ members : Members,
    Cursor.reports (.object none :: outer) ((members.chunks first).map Chunk.event ++ rest) =
      members.reports (childSegments outer) ++ Cursor.reports (.object none :: outer) rest
  | .nil => rfl
  | .cons gap key colon value more => by
      rw [Members.chunks, List.map_cons, List.map_append, List.cons_append, List.append_assoc,
        reports]
      change [Report.mk (.objectKey key.text) _] ++ _ = _
      rw [step, reports_json _ _ _ value, pass, reports_members outer false rest more,
        Members.reports, List.singleton_append, List.cons_append, List.append_assoc]
      rfl

end

/-- Following the events of a document reports its values in their order. -/
theorem Cursor.reports_document (document : JsonDocument) :
    Cursor.reports [] (document.chunks.map Chunk.event) = document.root.reports [] := by
  rw [JsonDocument.chunks, List.map_append, reports_json]
  exact List.append_nil _

mutual

/-- Behind the events of a value the cursor has passed it. -/
theorem Cursor.foldl_json (cursor : Cursor) (lead : Bytes) : ∀ value : Json,
    ((value.chunks lead).map Chunk.event).foldl step cursor = cursor.pass
  | .scalar token => by
      rw [Json.chunks, List.map_singleton, List.foldl_cons, List.foldl_nil]
      exact step_scalar cursor token.kind
  | .array elements close => by
      rw [Json.chunks, List.map_cons, List.map_append, List.foldl_cons, List.foldl_append]
      change List.foldl step (List.foldl step (.array 0 :: cursor) _) _ = _
      rw [foldl_elements cursor 0 true elements]
      rfl
  | .object members close => by
      rw [Json.chunks, List.map_cons, List.map_append, List.foldl_cons, List.foldl_append]
      change List.foldl step (List.foldl step (.object none :: cursor) _) _ = _
      rw [foldl_members cursor true members]
      rfl

theorem Cursor.foldl_elements (outer : Cursor) (index : Nat) (first : Bool) :
    ∀ elements : Elements,
    ((elements.chunks first).map Chunk.event).foldl step (.array index :: outer) =
      .array (index + elements.length) :: outer
  | .nil => rfl
  | .cons gap value more => by
      rw [Elements.chunks, List.map_append, List.foldl_append, foldl_json _ _ value, pass,
        foldl_elements outer (index + 1) false more, Elements.length]
      have hindex : index + 1 + more.length = index + (more.length + 1) := by omega
      rw [hindex]

theorem Cursor.foldl_members (outer : Cursor) (first : Bool) : ∀ members : Members,
    ((members.chunks first).map Chunk.event).foldl step (.object none :: outer) =
      .object none :: outer
  | .nil => rfl
  | .cons gap key colon value more => by
      rw [Members.chunks, List.map_cons, List.map_append, List.foldl_cons, List.foldl_append]
      change List.foldl step (List.foldl step (.object (some key.text) :: outer) _) _ = _
      rw [foldl_json _ _ value, pass, foldl_members outer false more]

end

theorem Cursor.reports_append (cursor : Cursor) (events more : List JsonEvent) :
    cursor.reports (events ++ more) =
      cursor.reports events ++ (events.foldl step cursor).reports more := by
  induction events generalizing cursor with
  | nil => rfl
  | cons event events ih =>
    rw [List.cons_append, reports, reports, ih, List.append_assoc, List.foldl_cons]

/-! ## The values that are reported -/

/-- The value is of the kind that the report says. -/
def ReportKind.Fits : ReportKind → List Text → Json → Prop
  | .scalar type, _, value => ∃ token, value = .scalar token ∧ token.kind.type = type
  | .objectStart, _, value | .objectEnd, _, value => value.type = .object
  | .arrayStart, _, value | .arrayEnd, _, value => value.type = .array
  | .objectKey key, segments, _ => segments.getLast? = some key

/-- The report is about a value of the list. -/
def Report.About (report : Report) (values : List (List Text × Json)) : Prop :=
  ∃ entry ∈ values, report.segments = entry.1 ∧ report.kind.Fits entry.1 entry.2

theorem Report.About.mono {report : Report} {values more : List (List Text × Json)}
    (h : report.About values) (hsub : values ⊆ more) : report.About more := by
  obtain ⟨entry, hentry, hfits⟩ := h
  exact ⟨entry, hsub hentry, hfits⟩

theorem Json.self_mem_located (segments : List Text) (value : Json) :
    (segments, value) ∈ value.located segments := by
  cases value <;> exact List.mem_cons_self

mutual

theorem Json.about_of_mem {segments : List Text} {report : Report} : ∀ value : Json,
    report ∈ value.reports segments → report.About (value.located segments)
  | .scalar token, h => by
      rw [List.mem_singleton.1 h]
      exact ⟨_, List.mem_singleton_self _, rfl, token, rfl, rfl⟩
  | .array elements close, h => by
      have hself := Json.self_mem_located segments (.array elements close)
      rcases List.mem_cons.1 h with rfl | h
      · exact ⟨_, hself, rfl, rfl⟩
      rcases List.mem_append.1 h with h | h
      · exact (elements.about_of_mem h).mono (List.subset_cons_self _ _)
      · rw [List.mem_singleton.1 h]
        exact ⟨_, hself, rfl, rfl⟩
  | .object members close, h => by
      have hself := Json.self_mem_located segments (.object members close)
      rcases List.mem_cons.1 h with rfl | h
      · exact ⟨_, hself, rfl, rfl⟩
      rcases List.mem_append.1 h with h | h
      · exact (members.about_of_mem h).mono (List.subset_cons_self _ _)
      · rw [List.mem_singleton.1 h]
        exact ⟨_, hself, rfl, rfl⟩

theorem Elements.about_of_mem {segments : List Text} {index : Nat} {report : Report} :
    ∀ elements : Elements, report ∈ elements.reports segments index →
      report.About (elements.located segments index)
  | .nil, h => by cases h
  | .cons _ value rest, h => by
      rcases List.mem_append.1 h with h | h
      · exact (value.about_of_mem h).mono (List.subset_append_left _ _)
      · exact (rest.about_of_mem h).mono (List.subset_append_right _ _)

theorem Members.about_of_mem {segments : List Text} {report : Report} : ∀ members : Members,
    report ∈ members.reports segments → report.About (members.located segments)
  | .nil, h => by cases h
  | .cons _ key _ value rest, h => by
      rcases List.mem_cons.1 h with rfl | h
      · refine ⟨_, List.mem_append_left _ (Json.self_mem_located _ value), rfl, ?_⟩
        exact List.getLast?_concat
      rcases List.mem_append.1 h with h | h
      · exact (value.about_of_mem h).mono (List.subset_append_left _ _)
      · exact (rest.about_of_mem h).mono (List.subset_append_right _ _)

end

end Fluxcope.Library
