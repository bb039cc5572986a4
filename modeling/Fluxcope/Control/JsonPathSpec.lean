import Fluxcope.Control.JsonWalkSpec
import Fluxcope.Library.JsonCursor
import Fluxcope.Library.Result
import Fluxcope.Library.Run
/-!
# The path of the walk

The walker keeps one text for the path and a saved length for each container.  A cursor
that keeps the segments instead says what the text is after every event, and with which
pointer the observer is called.
-/

namespace Fluxcope.Control

open Fluxcope.Library Fluxcope.Library.Utf8 Fluxcope.Library.Cursor

/-! ## Calls of the observer -/

inductive WalkCall
  | valueStart (path : WalkPath)
  | valueEnd
  | scalar (path : WalkPath) (kind : JsonType) (encodedBytes : Option Nat)
      (encodedToken : Option Bytes)
  | objectStart (path : WalkPath)
  | objectEnd (path : WalkPath) (childCount : Nat)
  | arrayStart (path : WalkPath)
  | arrayEnd (path : WalkPath) (length : Nat)
  | objectKey (path : WalkPath) (key : Text)
  deriving DecidableEq, Repr

/-- What an observer is shown of the value with these segments. -/
def viewOf (segments : List Text) : WalkPath :=
  { raw := pointerOf segments
    segment := segments.getLast?.map escapePointerSegment
    depth := segments.length }

/-- The call belongs to what an event reports, and shows the place of the value. -/
def WalkCall.Shows (report : Report) : WalkCall → Prop
  | .valueStart path => path = viewOf report.segments
  | .valueEnd => True
  | .scalar path kind _ _ => report.kind = .scalar kind ∧ path = viewOf report.segments
  | .objectStart path => report.kind = .objectStart ∧ path = viewOf report.segments
  | .objectEnd path _ => report.kind = .objectEnd ∧ path = viewOf report.segments
  | .arrayStart path => report.kind = .arrayStart ∧ path = viewOf report.segments
  | .arrayEnd path _ => report.kind = .arrayEnd ∧ path = viewOf report.segments
  | .objectKey path key => report.kind = .objectKey key ∧ path = viewOf report.segments

section Recording

variable {σ : Type}

/-- The observer with a record of its calls. -/
def recording (observer : JsonWalkObserver σ) : JsonWalkObserver (σ × List WalkCall) where
  valueStart s path := (observer.valueStart s.1 path, s.2 ++ [.valueStart path])
  valueEnd s := (observer.valueEnd s.1, s.2 ++ [.valueEnd])
  scalar s path kind encodedBytes encodedToken :=
    (observer.scalar s.1 path kind encodedBytes encodedToken,
      s.2 ++ [.scalar path kind encodedBytes encodedToken])
  objectStart s path := (observer.objectStart s.1 path, s.2 ++ [.objectStart path])
  objectEnd s path childCount :=
    (observer.objectEnd s.1 path childCount, s.2 ++ [.objectEnd path childCount])
  arrayStart s path := (observer.arrayStart s.1 path, s.2 ++ [.arrayStart path])
  arrayEnd s path length := (observer.arrayEnd s.1 path length, s.2 ++ [.arrayEnd path length])
  objectKey s path key := (observer.objectKey s.1 path key, s.2 ++ [.objectKey path key])
  wantsScalarEncodedBytes s := observer.wantsScalarEncodedBytes s.1
  wantsScalarToken s := observer.wantsScalarToken s.1
  shouldDescend s := observer.shouldDescend s.1

theorem recording_scalar (observer : JsonWalkObserver σ) (s : σ × List WalkCall) (view : WalkPath)
    (kind : JsonType) (encodedBytes : Option Nat) (encodedToken : Option Bytes) :
    ((recording observer).valueEnd ((recording observer).scalar
      ((recording observer).valueStart s view) view kind encodedBytes encodedToken)).2 =
      s.2 ++ [.valueStart view, .scalar view kind encodedBytes encodedToken, .valueEnd] := by
  simp [recording]

end Recording

/-! ## Frames that follow a cursor -/

/-- The saved state of the path for the next value. -/
def place (cursor : Cursor) : ValuePathState :=
  let restored := (pointerOf cursor.pass.readSegments).length
  { restorePathLen := restored
    segmentStart := if cursor = [] then none else some (restored + 1)
    depth := cursor.childSegments.length }

/-- Inside the value with `segments`, a child has one segment more. -/
def childPlace (segments : List Text) : ValuePathState :=
  { restorePathLen := (pointerOf segments).length
    segmentStart := some ((pointerOf segments).length + 1)
    depth := segments.length + 1 }

theorem place_array (passed : Nat) (outer : Cursor) :
    place (.array passed :: outer) = childPlace outer.childSegments := by
  simp [place, childPlace, Cursor.pass, readSegments, childSegments]

theorem place_key (key : Text) (outer : Cursor) :
    place (.object (some key) :: outer) = childPlace outer.childSegments := by
  simp [place, childPlace, Cursor.pass, readSegments, childSegments]

/-- The frames around a value that is open. -/
inductive Opened : Cursor → List ContainerFrame → Prop
  | root : Opened [] []
  | object {outer : Cursor} {frames : List ContainerFrame} {key : Text} {childCount : Nat}
      {observed descend : Bool} (h : Opened outer frames) :
      Opened (.object (some key) :: outer)
        ({ kind := .object childCount none, value := place outer, observed, descend } :: frames)
  | array {outer : Cursor} {frames : List ContainerFrame} {passed : Nat} {observed descend : Bool}
      (h : Opened outer frames) :
      Opened (.array passed :: outer)
        ({ kind := .array (passed + 1), value := place outer, observed, descend } :: frames)

/-- The frames between two values. -/
inductive Stands : Cursor → List ContainerFrame → Prop
  | root : Stands [] []
  | object {outer : Cursor} {frames : List ContainerFrame} {childCount : Nat}
      {observed descend : Bool} (h : Opened outer frames) :
      Stands (.object none :: outer)
        ({ kind := .object childCount none, value := place outer, observed, descend } :: frames)
  | key {outer : Cursor} {frames : List ContainerFrame} {key : Text} {childCount : Nat}
      {observed descend : Bool} (h : Opened outer frames) :
      Stands (.object (some key) :: outer)
        ({ kind := .object childCount (some (place (.object (some key) :: outer)))
           value := place outer, observed, descend } :: frames)
  | array {outer : Cursor} {frames : List ContainerFrame} {passed : Nat} {observed descend : Bool}
      (h : Opened outer frames) :
      Stands (.array passed :: outer)
        ({ kind := .array passed, value := place outer, observed, descend } :: frames)

/-- The path is the pointer of what the cursor has read, within the limits. -/
structure Follows {σ : Type} (cursor : Cursor) (state : WalkState σ) : Prop where
  frames : Stands cursor state.frames
  path : state.path = pointerOf cursor.readSegments
  length_le : Text.utf8Len state.path ≤ maxJsonPointerBytes
  depth_le : state.frames.length ≤ maxJsonDepth

theorem follows_start {σ : Type} (start : σ) : Follows [] { observer := start } where
  frames := .root
  path := rfl
  length_le := Nat.zero_le _
  depth_le := Nat.zero_le _

theorem Opened.stands {cursor : Cursor} {frames : List ContainerFrame} (h : Opened cursor frames) :
    Stands cursor.pass frames := by
  cases h with
  | root => exact .root
  | object h => exact .object h
  | array h => exact .array h

theorem pointerOf_append (segments more : List Text) :
    pointerOf (segments ++ more) = pointerOf segments ++ pointerOf more := List.flatMap_append

/-- The place of an open value is its container's, and one segment more. -/
theorem Opened.childSegments_eq {cursor : Cursor} {frames : List ContainerFrame}
    (h : Opened cursor frames) (hne : cursor ≠ []) :
    ∃ segment, cursor.childSegments = cursor.pass.readSegments ++ [segment] := by
  cases h with
  | root => exact absurd rfl hne
  | @object outer _ key =>
    exact ⟨key, by
      rw [Cursor.pass, readSegments, childSegments, Option.toList_none, List.append_nil,
        Option.toList_some]⟩
  | @array outer _ passed => exact ⟨indexSegment passed, rfl⟩

/-- There is a frame for each segment. -/
theorem Opened.length_eq {cursor : Cursor} {frames : List ContainerFrame}
    (h : Opened cursor frames) : cursor.childSegments.length = frames.length := by
  induction h with
  | root => rfl
  | object h ih => rw [childSegments, List.length_append, ih]; rfl
  | array h ih => rw [childSegments, List.length_append, ih]; rfl

/-- Cutting the path at the saved length leaves what was read before the value. -/
theorem Opened.take_path {cursor : Cursor} {frames : List ContainerFrame}
    (h : Opened cursor frames) :
    (pointerOf cursor.childSegments).take (place cursor).restorePathLen =
      pointerOf cursor.pass.readSegments := by
  by_cases hne : cursor = []
  · rw [hne]
    rfl
  · obtain ⟨segment, hsegments⟩ := h.childSegments_eq hne
    rw [hsegments, pointerOf_append]
    exact List.take_left

theorem Opened.walkPath_eq {cursor : Cursor} {frames : List ContainerFrame}
    (h : Opened cursor frames) :
    walkPath (pointerOf cursor.childSegments) (place cursor) = viewOf cursor.childSegments := by
  by_cases hne : cursor = []
  · rw [hne]
    rfl
  · obtain ⟨segment, hsegments⟩ := h.childSegments_eq hne
    have hdrop : (pointerOf cursor.childSegments).drop
        ((pointerOf cursor.pass.readSegments).length + 1) = escapePointerSegment segment := by
      have hlast : pointerOf [segment] = '/' :: escapePointerSegment segment :=
        List.flatMap_singleton ..
      rw [hsegments, pointerOf_append, hlast, ← List.drop_drop, List.drop_left]
      rfl
    have hsegment : cursor.childSegments.getLast? = some segment := by
      rw [hsegments]
      exact List.getLast?_concat
    unfold walkPath viewOf place
    dsimp only
    rw [if_neg hne, hsegment, Option.map_some, hdrop, Option.map_some]

/-! ## One event -/

section Step

variable {σ : Type} {cursor : Cursor} {state state' : WalkState σ}

/-- The state when the next value has its place. -/
structure Prepared (cursor : Cursor) (state : WalkState σ) (value : ValuePathState)
    (state' : WalkState σ) : Prop where
  value_eq : value = place cursor
  opened : Opened cursor state'.frames
  path : state'.path = pointerOf cursor.childSegments
  length_le : Text.utf8Len state'.path ≤ maxJsonPointerBytes
  depth_eq : state'.frames.length = state.frames.length
  observer_eq : state'.observer = state.observer
  descends_eq : state'.descends = state.descends

theorem appendPointerSegment_ok {path longer segment : Text} {start : Nat}
    (hpath : Text.utf8Len path ≤ maxJsonPointerBytes)
    (h : appendPointerSegment path segment = .ok (longer, start)) :
    longer = childPointer path segment ∧ start = path.length + 1 ∧
      Text.utf8Len longer ≤ maxJsonPointerBytes := by
  rw [appendPointerSegment_eq hpath] at h
  split at h
  · rename_i hfits
    cases h
    exact ⟨rfl, rfl, hfits⟩
  · cases h

theorem Follows.prepare (h : Follows cursor state) {value : ValuePathState}
    (hprepare : prepareValuePath state = .ok (value, state')) :
    Prepared cursor state value state' := by
  obtain ⟨hframes, hpath, hlength, hdepth⟩ := h
  obtain ⟨observer, path, frames, rootSeen⟩ := state
  dsimp only at hframes hpath hlength hdepth
  unfold prepareValuePath at hprepare
  cases hframes with
  | root =>
    dsimp only at hprepare
    split at hprepare
    · cases hprepare
    · cases hprepare
      exact ⟨by rw [hpath]; rfl, .root, hpath, hlength, rfl, rfl, rfl⟩
  | object h => cases hprepare
  | key h =>
    cases hprepare
    exact ⟨rfl, .object h, hpath, hlength, rfl, rfl, rfl⟩
  | @array outer inner passed observed descend h =>
    obtain ⟨⟨longer, start⟩, happend, heq⟩ := map_eq_ok.1 hprepare
    obtain ⟨hlonger, hstart, hfits⟩ := appendPointerSegment_ok hlength happend
    cases heq
    have hchild : longer = pointerOf (childSegments (.array passed :: outer)) := by
      rw [hlonger, hpath, childPointer_pointerOf]
      rfl
    refine ⟨?_, .array h, hchild, hfits, rfl, rfl, rfl⟩
    rw [hstart, hpath, place_array]
    rfl

/-- The pointer of what is reported is not too long, and its containers are not too many. -/
structure WithinLimits (report : Report) : Prop where
  length_le : Text.utf8Len (pointerOf report.segments) ≤ maxJsonPointerBytes
  depth_le : report.segments.length + report.kind.containers ≤ maxJsonDepth

/-- Every call shows what the event reports, and no limit is passed there. -/
def CallsShow (cursor : Cursor) (event : JsonEvent) (calls : List WalkCall) : Prop :=
  ∀ call ∈ calls, ∃ report,
    cursor.report event = some report ∧ call.Shows report ∧ WithinLimits report

theorem callsShow_nil (cursor : Cursor) (event : JsonEvent) : CallsShow cursor event [] := by
  intro call hcall
  cases hcall

theorem callsShow_of_forall {event : JsonEvent} {report : Report} {calls : List WalkCall}
    (hreport : cursor.report event = some report) (hwithin : WithinLimits report)
    (h : ∀ call ∈ calls, call.Shows report) : CallsShow cursor event calls :=
  fun call hcall => ⟨report, hreport, h call hcall, hwithin⟩

/-- What one event does to the walk: the path follows, and the new calls show the report. -/
structure Followed (cursor : Cursor) (event : JsonEvent)
    (state state' : WalkState (σ × List WalkCall)) : Prop where
  follows : Follows (cursor.step event) state'
  calls : ∃ calls, state'.observer.2 = state.observer.2 ++ calls ∧ CallsShow cursor event calls

variable {observer : JsonWalkObserver σ} {walk walk' : WalkState (σ × List WalkCall)}

theorem objectKeyEvent_followed (h : Follows cursor walk) {key : Text}
    (hevent : objectKeyEvent (recording observer) walk key = .ok walk') :
    Followed cursor (.objectKey key) walk walk' := by
  obtain ⟨hframes, hpath, hlength, hdepth⟩ := h
  obtain ⟨shown, path, frames, rootSeen⟩ := walk
  dsimp only at hframes hpath hlength hdepth
  unfold objectKeyEvent at hevent
  cases hframes with
  | root => cases hevent
  | key h => cases hevent
  | array h => cases hevent
  | @object outer inner childCount observed descend h =>
    obtain ⟨⟨longer, start⟩, happend, heq⟩ := map_eq_ok.1 hevent
    obtain ⟨hlonger, hstart, hfits⟩ := appendPointerSegment_ok hlength happend
    have hread : readSegments (.object none :: outer) = outer.childSegments := by
      rw [readSegments, Option.toList_none, List.append_nil]
    rw [hread] at hpath
    have hplace : ({ restorePathLen := path.length, segmentStart := some start
                     depth := (place outer).depth + 1 } : ValuePathState) =
        place (.object (some key) :: outer) := by
      rw [place_key, hstart, hpath]
      rfl
    have hchild : longer = pointerOf (childSegments (.object (some key) :: outer)) := by
      rw [hlonger, hpath, childPointer_pointerOf]
      rfl
    dsimp only at heq
    rw [hplace] at heq
    subst heq
    have hview := (@Opened.object outer inner key (childCount + 1) observed descend h).walkPath_eq
    refine ⟨⟨.key h, hchild, hfits, hdepth⟩, ?_⟩
    by_cases hdescend : descend = true
    · refine ⟨[.objectKey (viewOf (childSegments (.object (some key) :: outer))) key], ?_,
        callsShow_of_forall rfl ⟨?_, ?_⟩ ?_⟩
      · dsimp only
        rw [if_pos hdescend, hchild, hview]
        rfl
      · exact hchild ▸ hfits
      · have hcount :=
          (@Opened.object outer inner key (childCount + 1) observed descend h).length_eq
        exact hcount.le.trans hdepth
      · intro call hcall
        rw [List.mem_singleton.1 hcall]
        exact ⟨rfl, rfl⟩
    · refine ⟨[], ?_, callsShow_nil _ _⟩
      dsimp only
      rw [if_neg hdescend, List.append_nil]

theorem scalarEvent_followed (h : Follows cursor walk) {input : Bytes} {start stop : Nat}
    {kind : JsonType} {event : JsonEvent}
    (hreport : cursor.report event = some ⟨.scalar kind, cursor.childSegments⟩)
    (hstep : cursor.step event = cursor.pass)
    (hevent : scalarEvent (recording observer) input start stop kind walk = .ok walk') :
    Followed cursor event walk walk' := by
  obtain ⟨⟨value, prepared⟩, hprepare, hrest⟩ := bind_eq_ok.1 hevent
  obtain ⟨hvalue, hopened, hpath, hfits, hcount, hobserver, hdescends⟩ := h.prepare hprepare
  dsimp only at hrest
  rw [hvalue, hpath, hopened.walkPath_eq] at hrest
  rw [hopened.take_path] at hrest
  cases hrest
  have hcut : Text.utf8Len (pointerOf cursor.pass.readSegments) ≤ maxJsonPointerBytes := by
    have hsplit := List.take_append_drop (place cursor).restorePathLen
      (pointerOf cursor.childSegments)
    rw [hopened.take_path] at hsplit
    rw [hpath, ← hsplit, Text.utf8Len_append] at hfits
    omega
  refine ⟨?_, ?_⟩
  · rw [hstep]
    exact ⟨hopened.stands, rfl, hcut, hcount ▸ h.depth_le⟩
  · dsimp only
    rw [hobserver]
    split
    · refine ⟨_, recording_scalar observer walk.observer _ kind _ _,
        callsShow_of_forall hreport ⟨hpath ▸ hfits, ?_⟩ fun call hcall => ?_⟩
      · exact (hopened.length_eq.trans hcount).le.trans h.depth_le
      simp only [List.mem_cons, List.not_mem_nil, or_false] at hcall
      rcases hcall with rfl | rfl | rfl
      · rfl
      · exact ⟨rfl, rfl⟩
      · trivial
    · exact ⟨[], (List.append_nil _).symm, callsShow_nil _ _⟩

theorem startContainer_followed (h : Follows cursor walk)
    {report : σ × List WalkCall → WalkPath → σ × List WalkCall} {kind : ContainerKind}
    (call : WalkPath → WalkCall) {reported : ReportKind} {event : JsonEvent}
    {frame : CursorFrame}
    (hreported : cursor.report event = some ⟨reported, cursor.childSegments⟩)
    (hstep : cursor.step event = frame :: cursor)
    (hreport : ∀ s view, (report s view).2 = s.2 ++ [call view])
    (hcall : ∀ segments, (call (viewOf segments)).Shows ⟨reported, segments⟩)
    (hone : reported.containers = 1)
    (hstands : ∀ (frames : List ContainerFrame) (observed descend : Bool), Opened cursor frames →
      Stands (frame :: cursor) ({ kind, value := place cursor, observed, descend } :: frames))
    (hread : readSegments (frame :: cursor) = cursor.childSegments)
    (hevent : startContainer (recording observer) report kind walk = .ok walk') :
    Followed cursor event walk walk' := by
  obtain ⟨⟨value, prepared⟩, hprepare, hrest⟩ := bind_eq_ok.1 hevent
  obtain ⟨hvalue, hopened, hpath, hfits, hcount, hobserver, hdescends⟩ := h.prepare hprepare
  obtain ⟨_, hdepth, hrest⟩ := bind_eq_ok.1 hrest
  have hdeep : prepared.frames.length + 1 ≤ maxJsonDepth := by
    unfold checkDepth at hdepth
    split at hdepth
    · assumption
    · cases hdepth
  dsimp only at hrest
  rw [hvalue, hpath, hopened.walkPath_eq] at hrest
  cases hrest
  refine ⟨?_, ?_⟩
  · rw [hstep]
    exact ⟨hstands _ _ _ hopened, congrArg pointerOf hread.symm, hpath ▸ hfits, hdeep⟩
  · dsimp only
    rw [hobserver]
    split
    · refine ⟨[.valueStart (viewOf cursor.childSegments), call (viewOf cursor.childSegments)], ?_,
        callsShow_of_forall hreported ⟨hpath ▸ hfits, ?_⟩ fun c hc => ?_⟩
      · rw [hreport]
        simp [recording]
      · dsimp only
        rw [hone, hopened.length_eq]
        exact hdeep
      · simp only [List.mem_cons, List.not_mem_nil, or_false] at hc
        rcases hc with rfl | rfl
        · rfl
        · exact hcall _
    · exact ⟨[], (List.append_nil _).symm, callsShow_nil _ _⟩

/-- Leaving a container: its own pointer is shown, and the one outside is restored. -/
theorem endContainer_followed {frame : CursorFrame} {outer : Cursor} {frames : List ContainerFrame}
    {event : JsonEvent} {reported : ReportKind} (call : WalkCall) (observed : Bool)
    {path : Text} {rootSeen rootSeen' : Bool} {shown shown' : σ × List WalkCall}
    {innermost : ContainerFrame}
    (hopened : Opened outer frames) (hpath : path = pointerOf outer.childSegments)
    (hfits : Text.utf8Len path ≤ maxJsonPointerBytes)
    (hdepth : (innermost :: frames).length ≤ maxJsonDepth)
    (hreported : Cursor.report (frame :: outer) event = some ⟨reported, outer.childSegments⟩)
    (hstep : Cursor.step (frame :: outer) event = outer.pass)
    (hcall : call.Shows ⟨reported, outer.childSegments⟩) (hone : reported.containers = 1)
    (hshown : shown'.2 = if observed then shown.2 ++ [call, .valueEnd] else shown.2) :
    Followed (frame :: outer) event
      { observer := shown, path, frames := innermost :: frames, rootSeen }
      { observer := shown', path := path.take (place outer).restorePathLen, frames
        rootSeen := rootSeen' } := by
  have hcut : Text.utf8Len (path.take (place outer).restorePathLen) ≤ maxJsonPointerBytes := by
    have hsplit := List.take_append_drop (place outer).restorePathLen path
    rw [← hsplit, Text.utf8Len_append] at hfits
    omega
  refine ⟨?_, ?_⟩
  · rw [hstep]
    refine ⟨hopened.stands, ?_, hcut, (Nat.le_succ _).trans hdepth⟩
    dsimp only
    rw [hpath]
    exact hopened.take_path
  · dsimp only
    rw [hshown]
    split
    · refine ⟨[call, .valueEnd], rfl,
        callsShow_of_forall hreported ⟨hpath ▸ hfits, ?_⟩ fun c hc => ?_⟩
      · dsimp only
        rw [hone, hopened.length_eq]
        exact hdepth
      simp only [List.mem_cons, List.not_mem_nil, or_false] at hc
      rcases hc with rfl | rfl
      · exact hcall
      · trivial
    · exact ⟨[], (List.append_nil _).symm, callsShow_nil _ _⟩

theorem endObject_followed (h : Follows cursor walk)
    (hevent : endObject (recording observer) walk = .ok walk') :
    Followed cursor .endObject walk walk' := by
  obtain ⟨hframes, hpath, hlength, hdepth⟩ := h
  obtain ⟨shown, path, frames, rootSeen⟩ := walk
  dsimp only at hframes hpath hlength hdepth
  unfold endObject at hevent
  cases hframes with
  | root => cases hevent
  | key h => cases hevent
  | array h => cases hevent
  | @object outer inner childCount observed descend h =>
    cases hevent
    have hread : readSegments (.object none :: outer) = outer.childSegments := by
      rw [readSegments, Option.toList_none, List.append_nil]
    rw [hread] at hpath
    have hview := h.walkPath_eq
    rw [← hpath] at hview
    refine endContainer_followed (.objectEnd (viewOf outer.childSegments) childCount) observed h
      hpath hlength hdepth rfl rfl ⟨rfl, rfl⟩ rfl ?_
    rw [hview]
    split
    · simp [recording]
    · rfl

theorem endArray_followed (h : Follows cursor walk)
    (hevent : endArray (recording observer) walk = .ok walk') :
    Followed cursor .endArray walk walk' := by
  obtain ⟨hframes, hpath, hlength, hdepth⟩ := h
  obtain ⟨shown, path, frames, rootSeen⟩ := walk
  dsimp only at hframes hpath hlength hdepth
  unfold endArray at hevent
  cases hframes with
  | root => cases hevent
  | key h => cases hevent
  | object h => cases hevent
  | @array outer inner passed observed descend h =>
    cases hevent
    have hpath : path = pointerOf outer.childSegments := hpath
    have hview := h.walkPath_eq
    rw [← hpath] at hview
    refine endContainer_followed (.arrayEnd (viewOf outer.childSegments) passed) observed h
      hpath hlength hdepth rfl rfl ⟨rfl, rfl⟩ rfl ?_
    rw [hview]
    split
    · simp [recording]
    · rfl

/-- Every event keeps the path with the cursor. -/
theorem walkEvent_followed (h : Follows cursor walk) {input : Bytes} {start stop : Nat}
    {event : JsonEvent}
    (hevent : walkEvent (recording observer) input start stop walk event = .ok walk') :
    Followed cursor event walk walk' := by
  cases event with
  | objectKey key => exact objectKeyEvent_followed h hevent
  | startObject =>
    refine startContainer_followed h .objectStart rfl rfl (fun s view => rfl)
      (fun segments => ⟨rfl, rfl⟩) rfl
      (fun frames observed descend hopened => .object hopened) ?_ hevent
    rw [readSegments, Option.toList_none, List.append_nil]
  | startArray =>
    exact startContainer_followed h .arrayStart rfl rfl (fun s view => rfl)
      (fun segments => ⟨rfl, rfl⟩) rfl
      (fun frames observed descend hopened => .array hopened) rfl hevent
  | endObject => exact endObject_followed h hevent
  | endArray => exact endArray_followed h hevent
  | string => exact scalarEvent_followed h rfl rfl hevent
  | number => exact scalarEvent_followed h rfl rfl hevent
  | boolean => exact scalarEvent_followed h rfl rfl hevent
  | null => exact scalarEvent_followed h rfl rfl hevent
  | eof =>
    cases hevent
    exact ⟨h, [], (List.append_nil _).symm, callsShow_nil _ _⟩

end Step

/-! ## The walk event by event -/

section Walk

variable {σ : Type} (observer : JsonWalkObserver σ) (input : Bytes)

/-- One turn of the loop: the offset and the state behind the event, if the walk goes on. -/
def walkStep (reached : Nat × WalkState σ) (result : ParserResult) : Option (Nat × WalkState σ) :=
  let stop := reached.1 + result.consumedBytes
  match result.event with
  | none | some (.error _) | some (.ok .eof) => none
  | some (.ok event) =>
    match walkEvent observer input reached.1 stop reached.2 event with
    | .error _ => none
    | .ok state => some (stop, state)

variable {observer input}

theorem walkStep_event {reached reached' : Nat × WalkState σ} {chunk : Chunk}
    (h : walkStep observer input reached (Chunk.result chunk) = some reached') :
    walkEvent observer input reached.1 reached'.1 reached.2 chunk.event = .ok reached'.2 := by
  unfold walkStep at h
  obtain ⟨lead, token, event⟩ := chunk
  cases event with
  | eof => cases h
  | _ =>
    dsimp only [Chunk.result] at h
    split at h
    · cases h
    · rename_i hevent
      cases h
      exact hevent

/-- The steps are those of the loop. -/
theorem walkEvents_step {reached reached' : Nat × WalkState σ} {result : ParserResult}
    (h : walkStep observer input reached result = some reached') (rest : List ParserResult) :
    walkEvents observer input reached.1 reached.2 (result :: rest) =
      walkEvents observer input reached'.1 reached'.2 rest := by
  unfold walkStep at h
  rw [walkEvents]
  cases hevent : result.event with
  | none =>
    rw [hevent] at h
    cases h
  | some event =>
    cases event with
    | error error =>
      rw [hevent] at h
      cases h
    | ok event =>
      rw [hevent] at h
      cases hstep : walkEvent observer input reached.1 (reached.1 + result.consumedBytes)
          reached.2 event with
      | error error =>
        cases event with
        | eof => cases h
        | _ =>
          dsimp only at h
          rw [hstep] at h
          cases h
      | ok state =>
        cases event with
        | eof => cases h
        | _ =>
          dsimp only at h ⊢
          rw [hstep] at h ⊢
          cases h
          rfl

theorem walkEvents_run {results : List ParserResult} {reached reached' : Nat × WalkState σ}
    (h : run (walkStep observer input) reached results = some reached') (rest : List ParserResult) :
    walkEvents observer input reached.1 reached.2 (results ++ rest) =
      walkEvents observer input reached'.1 reached'.2 rest := by
  induction results generalizing reached with
  | nil =>
    cases h
    rfl
  | cons result results ih =>
    obtain ⟨next, hnext, hrest⟩ := run_cons_eq_some.1 h
    rw [List.cons_append, walkEvents_step hnext]
    exact ih hrest

/-- After any number of events the path follows the cursor. -/
theorem run_follows {chunks : List Chunk} {cursor : Cursor}
    {reached reached' : Nat × WalkState (σ × List WalkCall)} (hfollows : Follows cursor reached.2)
    (h : run (walkStep (recording observer) input) reached (chunks.map Chunk.result) =
      some reached') :
    Follows ((chunks.map Chunk.event).foldl Cursor.step cursor) reached'.2 := by
  induction chunks generalizing cursor reached with
  | nil =>
    cases h
    exact hfollows
  | cons chunk chunks ih =>
    obtain ⟨next, hnext, hrest⟩ := run_cons_eq_some.1 h
    rw [List.map_cons, List.foldl_cons]
    exact ih (walkEvent_followed hfollows (walkStep_event hnext)).follows hrest

/-! ## The record does not disturb -/

variable (observer)

theorem recording_maps : Maps (recording observer) observer Prod.fst :=
  ⟨fun _ _ => rfl, fun _ => rfl, fun _ _ _ _ _ => rfl, fun _ _ => rfl, fun _ _ _ => rfl,
    fun _ _ => rfl, fun _ _ _ => rfl, fun _ _ _ => rfl, fun _ => rfl, fun _ => rfl, fun _ => rfl⟩

theorem visitJson_recording (path : Text) (value : ValuePathState) (s : σ × List WalkCall)
    (json : Json) : (visitJson (recording observer) path value json s).1 =
      visitJson observer path value json s.1 :=
  visitJson_maps (recording_maps observer) path value s json

end Walk

/-! ## Limits -/

/-- The pointer of the value is longer than pointers may be. -/
def TooLong (entry : List Text × Json) : Prop :=
  maxJsonPointerBytes < Text.utf8Len (pointerOf entry.1)

/-- The value is a container inside too many others. -/
def TooDeep (entry : List Text × Json) : Prop :=
  (entry.2.type = .array ∨ entry.2.type = .object) ∧ maxJsonDepth < entry.1.length + 1

/-- The limit is one that a value passes, and none is passed where there is no limit. -/
def Judges (limit : Option ControlError) (entries : List (List Text × Json)) : Prop :=
  match limit with
  | none => ∀ entry ∈ entries, ¬ TooLong entry ∧ ¬ TooDeep entry
  | some error =>
    (error = pointerPathLimit ∧ ∃ entry ∈ entries, TooLong entry) ∨
      (error = depthLimit ∧ ∃ entry ∈ entries, TooDeep entry)

theorem Judges.append {limit limit' : Option ControlError} {entries more : List (List Text × Json)}
    (h : Judges limit entries) (h' : Judges limit' more) :
    Judges (limit.or limit') (entries ++ more) := by
  cases limit with
  | some error =>
    rcases h with ⟨herror, entry, hentry, hpast⟩ | ⟨herror, entry, hentry, hpast⟩
    · exact .inl ⟨herror, entry, List.mem_append_left _ hentry, hpast⟩
    · exact .inr ⟨herror, entry, List.mem_append_left _ hentry, hpast⟩
  | none =>
    cases limit' with
    | some error =>
      rcases h' with ⟨herror, entry, hentry, hpast⟩ | ⟨herror, entry, hentry, hpast⟩
      · exact .inl ⟨herror, entry, List.mem_append_right _ hentry, hpast⟩
      · exact .inr ⟨herror, entry, List.mem_append_right _ hentry, hpast⟩
    | none =>
      intro entry hentry
      rcases List.mem_append.1 hentry with hentry | hentry
      · exact h entry hentry
      · exact h' entry hentry

/-- A container that is not too deep is judged by what it contains. -/
theorem Judges.container {limit : Option ControlError} {segments : List Text} {value : Json}
    {inside : List (List Text × Json)}
    (hfits : Text.utf8Len (pointerOf segments) ≤ maxJsonPointerBytes)
    (htype : value.type = .array ∨ value.type = .object) (h : Judges limit inside) :
    Judges (if segments.length + 1 ≤ maxJsonDepth then limit else some depthLimit)
      ((segments, value) :: inside) := by
  split
  case isFalse hdeep =>
    exact .inr ⟨rfl, (segments, value), List.mem_cons_self, htype, Nat.lt_of_not_le hdeep⟩
  case isTrue hdeep =>
    have hself : Judges none [(segments, value)] := by
      intro entry hentry
      rw [List.mem_singleton.1 hentry]
      exact ⟨Nat.not_lt.2 hfits, fun hpast => absurd hpast.2 (Nat.not_lt.2 hdeep)⟩
    exact hself.append h

mutual

theorem judges_json {segments : List Text} : ∀ value : Json,
    Text.utf8Len (pointerOf segments) ≤ maxJsonPointerBytes →
      Judges (jsonLimit (pointerOf segments) segments.length value) (value.located segments)
  | .scalar token, hfits => by
      intro entry hentry
      rw [List.mem_singleton.1 hentry]
      refine ⟨Nat.not_lt.2 hfits, fun hpast => ?_⟩
      obtain ⟨kind, bytes, opened⟩ := token
      cases kind <;> exact hpast.1.elim (fun h => by cases h) (fun h => by cases h)
  | .array elements close, hfits => by
      rw [jsonLimit]
      exact Judges.container hfits (.inl rfl) (judges_elements elements)
  | .object members close, hfits => by
      rw [jsonLimit]
      exact Judges.container hfits (.inr rfl) (judges_members members)

theorem judges_elements {segments : List Text} {index : Nat} : ∀ elements : Elements,
    Judges (elementsLimit (pointerOf segments) segments.length index elements)
      (elements.located segments index)
  | .nil => by
      intro entry hentry
      cases hentry
  | .cons _ value rest => by
      rw [elementsLimit, childPointer_pointerOf]
      split
      case isTrue hfits =>
        have hvalue := judges_json value hfits
        rw [List.length_append, List.length_singleton] at hvalue
        exact hvalue.append (judges_elements rest)
      case isFalse hlong =>
        exact .inl ⟨rfl, _, List.mem_append_left _ (Json.self_mem_located _ value),
          Nat.lt_of_not_le hlong⟩

theorem judges_members {segments : List Text} : ∀ members : Members,
    Judges (membersLimit (pointerOf segments) segments.length members) (members.located segments)
  | .nil => by
      intro entry hentry
      cases hentry
  | .cons _ key _ value rest => by
      rw [membersLimit, childPointer_pointerOf]
      split
      case isTrue hfits =>
        have hvalue := judges_json value hfits
        rw [List.length_append, List.length_singleton] at hvalue
        exact hvalue.append (judges_members rest)
      case isFalse hlong =>
        exact .inl ⟨rfl, _, List.mem_append_left _ (Json.self_mem_located _ value),
          Nat.lt_of_not_le hlong⟩

end

/-! ## The path invariant -/

/-- The document's reports are those before an event, its own, and those that follow. -/
theorem reports_split {document : JsonDocument} {before after : List Chunk} {chunk : Chunk}
    (hsplit : document.chunks = before ++ chunk :: after) :
    let cursor := (before.map Chunk.event).foldl Cursor.step []
    document.root.reports [] =
      Cursor.reports [] (before.map Chunk.event) ++ ((cursor.report chunk.event).toList ++
        (cursor.step chunk.event).reports (after.map Chunk.event)) := by
  intro cursor
  rw [← Cursor.reports_document, hsplit, List.map_append, Cursor.reports_append, List.map_cons,
    Cursor.reports]

/-- One step of the walk over a document, with what it shows the observer. -/
structure PathStep {σ : Type} (document : JsonDocument) (before : List Chunk) (event : JsonEvent)
    (walk walk' : WalkState (σ × List WalkCall)) : Prop where
  follows : Follows (((before.map Chunk.event).foldl Cursor.step []).step event) walk'
  calls : ∃ calls, walk'.observer.2 = walk.observer.2 ++ calls ∧
    ∀ call ∈ calls, ∃ report, call.Shows report ∧ WithinLimits report ∧
      report.About (document.root.located []) ∧
      ∃ later, document.root.reports [] =
        Cursor.reports [] (before.map Chunk.event) ++ report :: later

theorem pathStep {σ : Type} {observer : JsonWalkObserver σ} {input : Bytes}
    {document : JsonDocument} {before after : List Chunk} {chunk : Chunk}
    {reached reached' : Nat × WalkState (σ × List WalkCall)}
    (hsplit : document.chunks = before ++ chunk :: after)
    (hfollows : Follows ((before.map Chunk.event).foldl Cursor.step []) reached.2)
    (hstep : walkStep (recording observer) input reached (Chunk.result chunk) = some reached') :
    PathStep document before chunk.event reached.2 reached'.2 := by
  obtain ⟨hafter, calls, hcalls, hshow⟩ := walkEvent_followed hfollows (walkStep_event hstep)
  refine ⟨hafter, calls, hcalls, fun call hcall => ?_⟩
  obtain ⟨report, hreport, hshows, hwithin⟩ := hshow call hcall
  have hreports := reports_split hsplit
  dsimp only at hreports
  rw [hreport, Option.toList_some, List.singleton_append] at hreports
  have hmem : report ∈ document.root.reports [] := by
    rw [hreports]
    exact List.mem_append_right _ List.mem_cons_self
  exact ⟨report, hshows, hwithin, document.root.about_of_mem hmem, _, hreports⟩

/-- The walk stops at a limit that some value passes, and only there. -/
theorem walkJson_judges {σ : Type} (observer : JsonWalkObserver σ) {parser : JsonEventParser}
    {input : Bytes} {document : JsonDocument} (hparses : Parses parser input document) (start : σ)
    (hvalid : validateJsonInput input = .ok ()) :
    match walkJson observer parser input start with
    | .ok _ => Judges none (document.root.located [])
    | .error error => Judges (some error) (document.root.located []) := by
  have hjudges := @judges_json [] document.root (Nat.zero_le _)
  have hroot : jsonLimit (pointerOf []) ([] : List Text).length document.root =
      jsonLimit [] 0 document.root := rfl
  rw [hroot] at hjudges
  rw [walkJson_eq hparses, hvalid]
  cases hlimit : jsonLimit [] 0 document.root with
  | none =>
    rw [hlimit] at hjudges
    exact hjudges
  | some error =>
    rw [hlimit] at hjudges
    exact hjudges

/-- The path of the walk over a document, whatever the observer prunes. -/
structure PathInvariant {σ : Type} (observer : JsonWalkObserver σ) (parser : JsonEventParser)
    (input : Bytes) (document : JsonDocument) (start : σ) : Prop where
  /-- At every event the path is the pointer of what was read and not yet left, and every call
  shows the pointer and the depth of the value that the document has there. -/
  followed : ∀ before chunk after, document.chunks = before ++ chunk :: after →
    ∀ reached, run (walkStep (recording observer) input) (0, { observer := (start, []) })
        (before.map Chunk.result) = some reached →
      Follows ((before.map Chunk.event).foldl Cursor.step []) reached.2 ∧
      (validateJsonInput input = .ok () →
        walkJson (recording observer) parser input (start, []) =
          walkEvents (recording observer) input reached.1 reached.2
            ((chunk :: after).map Chunk.result)) ∧
      ∀ reached', walkStep (recording observer) input reached (Chunk.result chunk) = some reached' →
        PathStep document before chunk.event reached.2 reached'.2
  /-- Behind a value the path is that of the container it stands in. -/
  restored : ∀ (before : List Chunk) lead (value : Json) reached reached',
    run (walkStep (recording observer) input) (0, { observer := (start, []) })
        (before.map Chunk.result) = some reached →
      run (walkStep (recording observer) input) reached ((value.chunks lead).map Chunk.result) =
        some reached' →
      reached'.2.path =
        pointerOf (Cursor.pass ((before.map Chunk.event).foldl Cursor.step [])).readSegments
  /-- The record of the calls changes nothing. -/
  recorded : walkJson observer parser input start =
    (walkJson (recording observer) parser input (start, [])).map Prod.fst
  /-- A limit that a value passes ends the walk with its error, and nothing else does. -/
  limits : validateJsonInput input = .ok () →
    match walkJson observer parser input start with
    | .ok _ => ∀ entry ∈ document.root.located [], ¬ TooLong entry ∧ ¬ TooDeep entry
    | .error error =>
      (error = pointerPathLimit ∧ ∃ entry ∈ document.root.located [], TooLong entry) ∨
        (error = depthLimit ∧ ∃ entry ∈ document.root.located [], TooDeep entry)

theorem walkJson_pathInvariant {σ : Type} (observer : JsonWalkObserver σ) {parser : JsonEventParser}
    {input : Bytes} {document : JsonDocument} (hparses : Parses parser input document) (start : σ) :
    PathInvariant observer parser input document start where
  followed before chunk after hsplit reached hrun := by
    have hfollows := run_follows (follows_start (start, ([] : List WalkCall))) hrun
    refine ⟨hfollows, fun hvalid => ?_, fun reached' hstep => pathStep hsplit hfollows hstep⟩
    have hwalk := walkEvents_run hrun ((chunk :: after).map Chunk.result)
    unfold walkJson
    rw [hvalid, hparses.events, hsplit, List.map_append]
    exact hwalk
  restored before lead value reached reached' hbefore hvalue := by
    have hfollows := run_follows (follows_start (start, ([] : List WalkCall))) hbefore
    have hpath := (run_follows hfollows hvalue).path
    rw [Cursor.foldl_json] at hpath
    exact hpath
  recorded := by
    rw [walkJson_eq hparses, walkJson_eq hparses]
    cases validateJsonInput input with
    | error error => rfl
    | ok _ =>
      dsimp only
      rw [← visitJson_recording observer [] rootState (start, ([] : List WalkCall)) document.root]
      cases jsonLimit [] 0 document.root <;> rfl
  limits := walkJson_judges observer hparses start

/-- `{"a":[1,true]}` -/
def pathDocument : JsonDocument :=
  let elements : Elements :=
    .cons {} (.scalar { kind := .number, bytes := [0x31] })
      (.cons {} (.scalar { kind := .boolean, bytes := [0x74, 0x72, 0x75, 0x65] }) .nil)
  { root := .object
      (.cons {} { text := ['a'], bytes := [0x22, 0x61, 0x22] } {} (.array elements {}) .nil) {} }

/-- An observer that lists the pointers of scalars, and descends everywhere. -/
def pointerObserver : JsonWalkObserver (List Text) where
  scalar s path _ _ _ := s ++ [path.raw]
  objectStart s _ := s
  objectEnd s _ _ := s
  arrayStart s _ := s
  arrayEnd s _ _ := s
  shouldDescend _ := true

theorem walkJson_pathInvariant_sample :
    PathInvariant pointerObserver (fun _ => pathDocument.chunks.map Chunk.result) pathDocument.text
      pathDocument [] :=
  walkJson_pathInvariant pointerObserver ⟨rfl, rfl⟩ []

end Fluxcope.Control
