import Fluxcope.Control.JsonWalkSpec
import Fluxcope.Control.ProbeJson
import Fluxcope.Library.JsonLocated
import Fluxcope.Library.PrefixMatch
/-!
# What a probe counts

The walk tallies the values whose segments match the pattern one by one.  Where it
does not descend there are none, and no summary waits for keys.
-/

namespace Fluxcope.Control

open Fluxcope.Library Fluxcope.Library.Utf8

/-! ## Patterns -/

def PatternSegment.accepts (expected : PatternSegment) (segment : Text) : Bool :=
  patternSegmentMatches expected (escapePointerSegment segment)

namespace JsonPointerPattern

variable (pattern : JsonPointerPattern)

/-- Every segment is accepted, and none is missing. -/
def Matches (segments : List Text) : Prop :=
  MatchesAll PatternSegment.accepts pattern.segments segments

instance (segments : List Text) : Decidable (pattern.Matches segments) :=
  inferInstanceAs (Decidable (MatchesAll _ _ _))

/-- The number of leading segments that are accepted. -/
def prefixOf (segments : List Text) : Nat :=
  matchedPrefix PatternSegment.accepts pattern.segments segments

def found (entries : List (List Text × Json)) : List (List Text × Json) :=
  entries.filter fun entry => pattern.Matches entry.1

theorem found_cons (segments : List Text) (value : Json) (entries : List (List Text × Json)) :
    pattern.found ((segments, value) :: entries) =
      if pattern.Matches segments then (segments, value) :: pattern.found entries
      else pattern.found entries := by
  unfold found
  rw [List.filter_cons]
  simp only [decide_eq_true_eq]

/-- Nothing is found below segments that nothing longer matches. -/
theorem found_below {segments : List Text} {entries : List (List Text × Json)}
    (hbelow : ∀ entry ∈ entries, ∃ more, more ≠ [] ∧ entry.1 = segments ++ more)
    (h : ∀ more, more ≠ [] → ¬ pattern.Matches (segments ++ more)) :
    pattern.found entries = [] := by
  refine List.filter_eq_nil_iff.2 fun entry hentry hmatches => ?_
  obtain ⟨more, hmore, heq⟩ := hbelow entry hentry
  rw [heq] at hmatches
  exact h more hmore (of_decide_eq_true hmatches)

/-- Nothing matches inside of a match. -/
theorem not_matches_below {segments more : List Text} (h : pattern.Matches segments)
    (hmore : more ≠ []) : ¬ pattern.Matches (segments ++ more) := by
  refine not_matchesAll_append hmore ?_
  rintro ⟨-, hlt⟩
  exact absurd (matchesAll_iff.1 h).1 (Nat.ne_of_lt hlt)

theorem found_append (entries more : List (List Text × Json)) :
    pattern.found (entries ++ more) = pattern.found entries ++ pattern.found more :=
  List.filter_append ..

end JsonPointerPattern

/-- A raw segment of a pattern matches: a star does always, and another one what it decodes to. -/
def SegmentMatches (raw segment : Text) : Prop :=
  raw = ['*'] ∨ decodeSegment true raw = .ok segment

instance (raw segment : Text) : Decidable (SegmentMatches raw segment) :=
  inferInstanceAs (Decidable (_ ∨ _))

def PatternMatches (raw : Text) (segments : List Text) : Prop :=
  List.Forall₂ SegmentMatches (pointerRawSegments raw) segments

instance (raw : Text) (segments : List Text) : Decidable (PatternMatches raw segments) :=
  inferInstanceAs (Decidable (List.Forall₂ _ _ _))

theorem accepts_iff {raw segment : Text} {expected : PatternSegment}
    (h : PatternSegment.parse raw = .ok expected) :
    expected.accepts segment = true ↔ SegmentMatches raw segment := by
  unfold PatternSegment.parse at h
  split at h
  case isTrue => cases h
  case isFalse =>
      split at h
      case isTrue hstar =>
          cases h
          exact ⟨fun _ => .inl hstar, fun _ => rfl⟩
      case isFalse hother =>
          cases hdecode : decodeSegment true raw with
          | error error =>
            rw [hdecode] at h
            cases h
          | ok decoded =>
            rw [hdecode] at h
            cases h
            unfold PatternSegment.accepts patternSegmentMatches SegmentMatches
            rw [hdecode, Except.ok.injEq, decide_eq_true_eq, or_iff_right hother]
            exact ⟨escapePointerSegment_injective, congrArg escapePointerSegment⟩

theorem mapM_parse_matches {raws segments : List Text} {parsed : List PatternSegment}
    (h : raws.mapM PatternSegment.parse = .ok parsed) :
    MatchesAll PatternSegment.accepts parsed segments ↔
      List.Forall₂ SegmentMatches raws segments := by
  unfold MatchesAll
  induction raws generalizing parsed segments with
  | nil =>
    cases h
    cases segments <;> simp
  | cons raw raws ih =>
    rw [List.mapM_cons] at h
    cases hraw : PatternSegment.parse raw with
    | error error =>
      rw [hraw] at h
      cases h
    | ok expected =>
      cases hrest : raws.mapM PatternSegment.parse with
      | error error =>
        rw [hraw, hrest] at h
        cases h
      | ok rest =>
        rw [hraw, hrest] at h
        cases h
        cases segments with
        | nil => simp
        | cons segment segments =>
          rw [List.forall₂_cons, List.forall₂_cons, accepts_iff hraw, ih hrest]

/-- The parsed pattern matches what its raw segments match. -/
theorem parse_matches {raw : Text} {pattern : JsonPointerPattern}
    (h : JsonPointerPattern.parse raw = .ok pattern) (segments : List Text) :
    pattern.Matches segments ↔ PatternMatches raw segments := by
  unfold JsonPointerPattern.parse at h
  split at h
  case isTrue => cases h
  case isFalse =>
      cases hvalid : validatePointerText raw true with
      | error error =>
        rw [hvalid] at h
        cases h
      | ok _ =>
        rw [hvalid] at h
        dsimp only at h
        cases hparsed : (pointerRawSegments raw).mapM PatternSegment.parse with
        | error error =>
          rw [hparsed] at h
          cases h
        | ok parsed =>
          rw [hparsed] at h
          cases h
          exact mapM_parse_matches hparsed

/-! ## Tallies -/

/-- What a probe has counted, whether kept or omitted. -/
structure Tally where
  matchCount : Nat
  typeCounts : JsonTypeCounts
  arrayLengthRange : Option JsonArrayLengthRange
  examples : Nat
  summaries : Nat

namespace Tally

/-- A match as the probe first meets it. -/
def note (tally : Tally) (kind : JsonType) : Tally :=
  { tally with
    matchCount := tally.matchCount + 1
    typeCounts := tally.typeCounts.increment kind
    examples := tally.examples + 1 }

def add (tally : Tally) : Json → Tally
  | .scalar token => tally.note token.kind.type
  | .array elements _ =>
    { tally.note .array with
      arrayLengthRange := some (.extend tally.arrayLengthRange elements.length) }
  | .object _ _ => { tally.note .object with summaries := tally.summaries + 1 }

def addAll (tally : Tally) (entries : List (List Text × Json)) : Tally :=
  (entries.map Prod.snd).foldl add tally

@[simp] theorem addAll_nil (tally : Tally) : tally.addAll [] = tally := rfl

@[simp] theorem addAll_cons (tally : Tally) (entry : List Text × Json)
    (entries : List (List Text × Json)) :
    tally.addAll (entry :: entries) = (tally.add entry.2).addAll entries := rfl

theorem addAll_append (tally : Tally) (entries more : List (List Text × Json)) :
    tally.addAll (entries ++ more) = (tally.addAll entries).addAll more := by
  unfold addAll
  rw [List.map_append, List.foldl_append]

end Tally

def PatternProbe.tally (probe : PatternProbe) : Tally :=
  { matchCount := probe.result.matchCount
    typeCounts := probe.result.typeCounts
    arrayLengthRange := probe.result.arrayLengthRange
    examples := probe.result.examples.length + probe.result.omittedExamples
    summaries := probe.result.objectKeySummaries.length + probe.result.omittedObjectSummaries }

/-! ## Summaries -/

def JsonObjectKeySummary.keyCount (summary : JsonObjectKeySummary) : Nat :=
  summary.keys.length + summary.omittedKeys

/-- A summary that was offered some keys more. -/
structure Grown (n : Nat) (before after : JsonObjectKeySummary) : Prop where
  pointer : after.pointer = before.pointer
  childCount : after.childCount = before.childCount
  keyCount : after.keyCount = before.keyCount + n

/-- The summary of an object, with all its keys kept or counted. -/
def Summarizes (summary : JsonObjectKeySummary) (entry : List Text × Json) : Prop :=
  ∃ members close, entry.2 = .object members close ∧
    summary.pointer.asStr = pointerOf entry.1 ∧ summary.childCount = members.keys.length ∧
    summary.keyCount = members.keys.length

/-- The old summaries were offered keys, and the new ones are about some values. -/
structure Summarized (offered : Nat → Nat) (entries : List (List Text × Json))
    (before after : List JsonObjectKeySummary) : Prop where
  le : before.length ≤ after.length
  old : ∀ i summary, before[i]? = some summary →
    ∃ summary', after[i]? = some summary' ∧ Grown (offered i) summary summary'
  new : ∀ i summary, before.length ≤ i → after[i]? = some summary →
    ∃ entry ∈ entries, Summarizes summary entry

theorem Grown.refl (summary : JsonObjectKeySummary) : Grown 0 summary summary := ⟨rfl, rfl, rfl⟩

theorem Grown.trans {n m : Nat} {a b c : JsonObjectKeySummary} (h : Grown n a b)
    (h' : Grown m b c) : Grown (n + m) a c :=
  ⟨h'.pointer.trans h.pointer, h'.childCount.trans h.childCount, by
    rw [h'.keyCount, h.keyCount, Nat.add_assoc]⟩

theorem Summarized.of_eq {summaries summaries' : List JsonObjectKeySummary}
    (h : summaries' = summaries) (entries : List (List Text × Json)) :
    Summarized (fun _ => 0) entries summaries summaries' := by
  subst h
  refine ⟨Nat.le_refl _, fun i summary hi => ⟨summary, hi, .refl summary⟩, ?_⟩
  intro i summary hle hi
  exact absurd (List.getElem?_eq_some_iff.1 hi).1 (Nat.not_lt.2 hle)

theorem Summarized.mono {offered : Nat → Nat} {entries more : List (List Text × Json)}
    {a b : List JsonObjectKeySummary} (h : Summarized offered entries a b)
    (hsub : entries ⊆ more) : Summarized offered more a b := by
  refine ⟨h.le, h.old, fun i summary hle hi => ?_⟩
  obtain ⟨entry, hentry, hsummary⟩ := h.new i summary hle hi
  exact ⟨entry, hsub hentry, hsummary⟩

theorem Summarized.trans {offered offered' : Nat → Nat} {entries more : List (List Text × Json)}
    {a b c : List JsonObjectKeySummary} (h : Summarized offered entries a b)
    (h' : Summarized offered' more b c) (hold : ∀ i, a.length ≤ i → offered' i = 0) :
    Summarized (fun i => offered i + offered' i) (entries ++ more) a c := by
  refine ⟨h.le.trans h'.le, ?_, ?_⟩
  · intro i summary hi
    obtain ⟨middle, hmiddle, hgrown⟩ := h.old i summary hi
    obtain ⟨last, hlast, hgrown'⟩ := h'.old i middle hmiddle
    exact ⟨last, hlast, hgrown.trans hgrown'⟩
  · intro i summary hle hi
    by_cases hnew : b.length ≤ i
    · obtain ⟨entry, hentry, hsummary⟩ := h'.new i summary hnew hi
      exact ⟨entry, List.mem_append_right entries hentry, hsummary⟩
    · have hmiddle := List.getElem?_eq_getElem (show i < b.length by omega)
      generalize b[i] = middle at hmiddle
      obtain ⟨entry, hentry, members, close, hvalue, hpointer, hchildren, hkeys⟩ :=
        h.new i middle hle hmiddle
      obtain ⟨last, hlast, hgrown⟩ := h'.old i middle hmiddle
      obtain rfl := Option.some.inj (hi.symm.trans hlast)
      rw [hold i hle] at hgrown
      exact ⟨entry, List.mem_append_left more hentry, members, close, hvalue,
        by rw [hgrown.pointer, hpointer], by rw [hgrown.childCount, hchildren],
        by rw [hgrown.keyCount, hkeys, Nat.add_zero]⟩

/-- One summary is offered some keys. -/
def offers (index : Option Nat) (n i : Nat) : Nat := if index = some i then n else 0

theorem offers_add (index : Option Nat) (n m i : Nat) :
    offers index n i + offers index m i = offers index (n + m) i := by
  unfold offers
  split <;> rfl

/-! ## Steps of the probe -/

/-- A path and the segments it stands for. -/
structure ViewOf (segments : List Text) (view : WalkPath) : Prop where
  raw : view.raw = pointerOf segments
  depth : view.depth = segments.length
  segment : view.segment = segments.getLast?.map escapePointerSegment

namespace PatternProbe

/-- The summary that waits for keys of this depth. -/
def openIndex (probe : PatternProbe) (depth : Nat) : Option Nat :=
  match probe.objectSummaryStack.head? with
  | none => none
  | some state => if state.depth + 1 = depth then state.resultIndex else none

/-- The sameStacks are as they were. -/
structure SameStacks (s t : PatternProbe) : Prop where
  prefixStack : t.prefixStack = s.prefixStack
  depthStack : t.depthStack = s.depthStack
  objectSummaryStack : t.objectSummaryStack = s.objectSummaryStack

theorem SameStacks.refl (s : PatternProbe) : SameStacks s s := ⟨rfl, rfl, rfl⟩

theorem SameStacks.trans {s t u : PatternProbe} (h : SameStacks s t) (h' : SameStacks t u) :
    SameStacks s u :=
  ⟨h'.prefixStack.trans h.prefixStack, h'.depthStack.trans h.depthStack,
    h'.objectSummaryStack.trans h.objectSummaryStack⟩

theorem SameStacks.currentPrefix {s t : PatternProbe} (h : SameStacks s t) :
    t.currentPrefix = s.currentPrefix := by
  unfold PatternProbe.currentPrefix
  rw [h.prefixStack]

theorem SameStacks.openIndex {s t : PatternProbe} (h : SameStacks s t) (depth : Nat) :
    t.openIndex depth = s.openIndex depth := by
  unfold PatternProbe.openIndex
  rw [h.objectSummaryStack]

/-- A probe that has met some values more, `children` of them at the depth at hand. -/
structure Visited (pattern : JsonPointerPattern) (depth children : Nat)
    (entries : List (List Text × Json)) (s t : PatternProbe) : Prop where
  sameStacks : SameStacks s t
  tally : t.tally = s.tally.addAll (pattern.found entries)
  summaries : Summarized (offers (s.openIndex depth) children) (pattern.found entries)
    s.result.objectKeySummaries t.result.objectKeySummaries

variable {pattern : JsonPointerPattern}

theorem Visited.trans {depth n m : Nat} {entries more : List (List Text × Json)}
    {s t u : PatternProbe} (h : Visited pattern depth n entries s t)
    (h' : Visited pattern depth m more t u)
    (hindex : ∀ i, s.openIndex depth = some i → i < s.result.objectKeySummaries.length) :
    Visited pattern depth (n + m) (entries ++ more) s u := by
  have hsummaries := h'.summaries
  rw [h.sameStacks.openIndex] at hsummaries
  refine ⟨h.sameStacks.trans h'.sameStacks, ?_, ?_⟩
  · rw [h'.tally, h.tally, pattern.found_append, Tally.addAll_append]
  · have hall := h.summaries.trans hsummaries fun i hle => by
      unfold offers
      exact if_neg fun hopen => absurd (hindex i hopen) (Nat.not_lt.2 hle)
    rw [← pattern.found_append] at hall
    simpa only [offers_add] using hall

theorem isMatch_iff_shown {s : PatternProbe} {view : WalkPath} {segments : List Text}
    (hview : ViewOf segments view) (hbegins : s.currentPrefix = pattern.prefixOf segments) :
    s.isMatch pattern view = true ↔ pattern.Matches segments := by
  unfold isMatch JsonPointerPattern.Matches
  rw [matchesAll_iff, Bool.and_eq_true, decide_eq_true_eq, decide_eq_true_eq, hview.depth, hbegins]
  rfl

/-- The prefix of a child is that of its parent, with one segment more. -/
theorem valueStart_child {s : PatternProbe} {view : WalkPath} {segments : List Text}
    {segment : Text} (hview : ViewOf (segments ++ [segment]) view)
    (hbegins : s.currentPrefix = pattern.prefixOf segments) :
    (s.valueStart pattern view).currentPrefix = pattern.prefixOf (segments ++ [segment]) := by
  have hdepth := hview.depth
  have hsegment := hview.segment
  rw [List.getLast?_concat] at hsegment
  rw [List.length_append, List.length_singleton] at hdepth
  unfold JsonPointerPattern.prefixOf
  rw [matchedPrefix_concat]
  show (if view.depth = 0 then _ else _) = _
  rw [hdepth, if_neg (Nat.succ_ne_zero _), Nat.add_sub_cancel, hsegment, hbegins]
  unfold JsonPointerPattern.prefixOf
  by_cases hfull : matchedPrefix PatternSegment.accepts pattern.segments segments = segments.length
  · rw [hfull, decide_eq_true rfl, Bool.true_and]
    simp only [true_and]
    rfl
  · rw [decide_eq_false hfull, Bool.false_and, if_neg Bool.false_ne_true,
      if_neg fun h => hfull h.1]

/-! ### A value by itself -/

/-- A key that is kept or counted. -/
theorem offerKey_grown {summary summary' : JsonObjectKeySummary} {used used' : Nat}
    {hint : JsonNextSegmentHint} (h : summary.offerKey used hint = some (used', summary')) :
    Grown 1 summary summary' := by
  obtain ⟨reserved, -, heq⟩ := Option.map_eq_some_iff.1 h
  cases heq
  refine ⟨rfl, rfl, ?_⟩
  unfold JsonObjectKeySummary.keyCount
  rw [List.length_append, List.length_singleton, Nat.add_right_comm]

theorem offerKey_omittedKeys {summary summary' : JsonObjectKeySummary} {used used' : Nat}
    {hint : JsonNextSegmentHint} (h : summary.offerKey used hint = some (used', summary')) :
    summary'.omittedKeys = summary.omittedKeys := by
  obtain ⟨reserved, -, heq⟩ := Option.map_eq_some_iff.1 h
  cases heq
  rfl

theorem omittedKey_grown (summary : JsonObjectKeySummary) :
    Grown 1 summary { summary with omittedKeys := summary.omittedKeys + 1 } := ⟨rfl, rfl, rfl⟩

/-- Setting one summary to a grown one. -/
theorem summarized_set {summaries : List JsonObjectKeySummary} {index n : Nat}
    {summary summary' : JsonObjectKeySummary} (hindex : summaries[index]? = some summary)
    (hgrown : Grown n summary summary') :
    Summarized (offers (some index) n) [] summaries (summaries.set index summary') := by
  have hlt := (List.getElem?_eq_some_iff.1 hindex).1
  refine ⟨by rw [List.length_set], fun i other hi => ?_, fun i other hle hi => ?_⟩
  · by_cases heq : index = i
    · subst heq
      obtain rfl := Option.some.inj (hindex.symm.trans hi)
      refine ⟨summary', List.getElem?_set_self hlt, ?_⟩
      rw [offers, if_pos rfl]
      exact hgrown
    · refine ⟨other, by rw [List.getElem?_set_ne heq, hi], ?_⟩
      rw [offers, if_neg fun h => heq (Option.some.inj h)]
      exact .refl other
  · have hbound := (List.getElem?_eq_some_iff.1 hi).1
    rw [List.length_set] at hbound
    exact absurd hbound (Nat.not_lt.2 hle)

/-- A key goes to the summary that waits for it, if there is one. -/
theorem recordChildShape_cases {s : PatternProbe} {view : WalkPath} {segments : List Text}
    (hview : ViewOf segments view) (kind : JsonType)
    (hindex : ∀ i, s.openIndex segments.length = some i → i < s.result.objectKeySummaries.length) :
    (s.openIndex segments.length = none ∧ s.recordChildShape view kind = s) ∨
      ∃ index summary summary' budgetUsed truncated,
        s.openIndex segments.length = some index ∧
        s.result.objectKeySummaries[index]? = some summary ∧ Grown 1 summary summary' ∧
        (truncated = s.result.truncated ∧ summary'.omittedKeys = summary.omittedKeys ∨
          truncated = true ∧ 0 < summary'.omittedKeys) ∧
        s.recordChildShape view kind =
          { s with
            budgetUsed
            result := { s.result with
              objectKeySummaries := s.result.objectKeySummaries.set index summary'
              truncated } } := by
  cases hhead : s.objectSummaryStack.head? with
  | none =>
    refine .inl ⟨?_, ?_⟩
    · unfold openIndex
      rw [hhead]
    · unfold recordChildShape
      rw [hhead]
  | some parent =>
    by_cases hdepth : parent.depth + 1 = segments.length
    · have hopen : s.openIndex segments.length = parent.resultIndex := by
        unfold openIndex
        rw [hhead]
        exact if_pos hdepth
      have hsegments : segments ≠ [] := by
        rintro rfl
        cases hdepth
      have hlast : ∃ rawSegment, view.segment = some rawSegment := by
        rw [hview.segment, List.getLast?_eq_some_getLast hsegments]
        exact ⟨_, rfl⟩
      obtain ⟨rawSegment, hsegment⟩ := hlast
      cases hresult : parent.resultIndex with
      | none =>
        refine .inl ⟨hopen.trans hresult, ?_⟩
        unfold recordChildShape
        rw [hhead]
        dsimp only
        rw [hview.depth, if_neg (Classical.not_not.2 hdepth), hresult]
      | some index =>
        have hlt := hindex index (hopen.trans hresult)
        have hsummary := List.getElem?_eq_getElem hlt
        generalize s.result.objectKeySummaries[index] = summary at hsummary
        unfold recordChildShape
        rw [hhead]
        dsimp only
        rw [hview.depth, if_neg (Classical.not_not.2 hdepth), hresult, hsegment]
        dsimp only
        rw [hsummary]
        dsimp only
        split
        case h_1 used summary' hoffer =>
            exact .inr ⟨index, summary, summary', used, s.result.truncated,
              hopen.trans hresult, hsummary, offerKey_grown hoffer,
              .inl ⟨rfl, offerKey_omittedKeys hoffer⟩, rfl⟩
        case h_2 =>
            exact .inr ⟨index, summary, _, s.budgetUsed, true, hopen.trans hresult, hsummary,
              omittedKey_grown summary, .inr ⟨rfl, Nat.succ_pos _⟩, rfl⟩
    · refine .inl ⟨?_, ?_⟩
      · unfold openIndex
        rw [hhead]
        exact if_neg hdepth
      · unfold recordChildShape
        rw [hhead]
        dsimp only
        rw [hview.depth, if_pos hdepth]

/-- A value of its depth has been shown to the summary that waits for keys. -/
structure Keyed (depth : Nat) (s t : PatternProbe) : Prop where
  sameStacks : SameStacks s t
  tally : t.tally = s.tally
  summaries : Summarized (offers (s.openIndex depth) 1) [] s.result.objectKeySummaries
    t.result.objectKeySummaries

theorem recordChildShape_keyed {s : PatternProbe} {view : WalkPath} {segments : List Text}
    (hview : ViewOf segments view) (kind : JsonType)
    (hindex : ∀ i, s.openIndex segments.length = some i → i < s.result.objectKeySummaries.length) :
    Keyed segments.length s (s.recordChildShape view kind) := by
  rcases recordChildShape_cases hview kind hindex with
    ⟨hopen, hsame⟩ | ⟨index, summary, summary', used, flag, hopen, hsummary, hgrown, -, heq⟩
  · rw [hsame]
    refine ⟨.refl s, rfl, ?_⟩
    rw [hopen]
    exact .of_eq rfl []
  · rw [heq]
    refine ⟨⟨rfl, rfl, rfl⟩, ?_, ?_⟩
    · unfold tally
      dsimp only
      rw [List.length_set]
    · rw [hopen]
      exact summarized_set hsummary hgrown

/-- The miss hint, the budget and the flag are all that `consider_miss` touches. -/
structure SameCounts (s t : PatternProbe) : Prop where
  sameStacks : SameStacks s t
  tally : t.tally = s.tally
  summaries : t.result.objectKeySummaries = s.result.objectKeySummaries

theorem SameCounts.refl (s : PatternProbe) : SameCounts s s := ⟨.refl s, rfl, rfl⟩

theorem SameCounts.trans {s t u : PatternProbe} (h : SameCounts s t) (h' : SameCounts t u) :
    SameCounts s u :=
  ⟨h.sameStacks.trans h'.sameStacks, h'.tally.trans h.tally, h'.summaries.trans h.summaries⟩

theorem notePrefix_same (s : PatternProbe) (view : WalkPath) : SameCounts s (s.notePrefix view) := by
  unfold notePrefix
  split
  · exact ⟨⟨rfl, rfl, rfl⟩, rfl, rfl⟩
  · exact .refl s

theorem offerHint_same (s : PatternProbe) (hint : JsonPointerMissHint) (next : JsonNextSegmentHint) :
    SameCounts s (s.offerHint hint next) := by
  unfold offerHint
  split
  · exact ⟨⟨rfl, rfl, rfl⟩, rfl, rfl⟩
  · split <;> exact ⟨⟨rfl, rfl, rfl⟩, rfl, rfl⟩

theorem considerMiss_same (s : PatternProbe) (view : WalkPath) (kind : JsonType) :
    SameCounts s (s.considerMiss view kind) := by
  have hbegins := notePrefix_same s view
  unfold considerMiss
  dsimp only
  split
  · exact hbegins
  · split
    · exact hbegins
    · exact hbegins.trans (offerHint_same _ _ _)

theorem recordExample_stacks (s : PatternProbe) (view : WalkPath) :
    SameStacks s (s.recordExample view) := by
  unfold recordExample
  split <;> exact ⟨rfl, rfl, rfl⟩

theorem recordExample_tally (s : PatternProbe) (view : WalkPath) :
    (s.recordExample view).tally = { s.tally with examples := s.tally.examples + 1 } := by
  unfold recordExample
  split
  · unfold tally
    dsimp only
    rw [List.length_append, List.length_singleton, Nat.add_right_comm]
  · rfl

theorem recordExample_summaries (s : PatternProbe) (view : WalkPath) :
    (s.recordExample view).result.objectKeySummaries = s.result.objectKeySummaries := by
  unfold recordExample
  split <;> rfl

/-- What `terminal` does with a value that matches or does not. -/
structure Shown (pattern : JsonPointerPattern) (segments : List Text) (kind : JsonType)
    (s t : PatternProbe) : Prop where
  sameStacks : SameStacks s t
  tally : t.tally = if pattern.Matches segments then s.tally.note kind else s.tally
  summaries : Summarized (offers (s.openIndex segments.length) 1) []
    s.result.objectKeySummaries t.result.objectKeySummaries

theorem terminal_shown {s : PatternProbe} {view : WalkPath} {segments : List Text}
    (hview : ViewOf segments view) (hbegins : s.currentPrefix = pattern.prefixOf segments)
    (kind : JsonType)
    (hindex : ∀ i, s.openIndex segments.length = some i → i < s.result.objectKeySummaries.length) :
    Shown pattern segments kind s (s.terminal pattern view kind) := by
  have hchild := recordChildShape_keyed hview kind hindex
  have hmiss := considerMiss_same (s.recordChildShape view kind) view kind
  have hstacks := hchild.sameStacks.trans hmiss.sameStacks
  have htally := hmiss.tally.trans hchild.tally
  have hkeys := hchild.summaries
  rw [← hmiss.summaries] at hkeys
  unfold terminal
  dsimp only
  generalize (s.recordChildShape view kind).considerMiss view kind = noted at hstacks htally hkeys ⊢
  have hmatch := isMatch_iff_shown hview (hstacks.currentPrefix.trans hbegins)
  by_cases hmatches : pattern.Matches segments
  · rw [hmatch.2 hmatches, Bool.not_true, if_neg Bool.false_ne_true]
    refine ⟨hstacks.trans ?_, ?_, ?_⟩
    · exact ⟨(recordExample_stacks _ view).prefixStack, (recordExample_stacks _ view).depthStack,
        (recordExample_stacks _ view).objectSummaryStack⟩
    · rw [recordExample_tally, if_pos hmatches, ← htally]
      rfl
    · rw [recordExample_summaries]
      exact hkeys
  · have hfalse : noted.isMatch pattern view = false :=
      Bool.eq_false_iff.2 fun h => hmatches (hmatch.1 h)
    rw [hfalse, Bool.not_false, if_pos rfl]
    exact ⟨hstacks, by rw [htally, if_neg hmatches], hkeys⟩

/-! ### A value with what is inside -/

/-- The probe stands inside the value with these segments. -/
structure Inside (pattern : JsonPointerPattern) (segments : List Text) (s : PatternProbe) :
    Prop where
  currentPrefix : s.currentPrefix = pattern.prefixOf segments
  below : ∀ state, s.objectSummaryStack.head? = some state → state.depth ≤ segments.length
  index : ∀ i, s.openIndex (segments.length + 1) = some i → i < s.result.objectKeySummaries.length

theorem Inside.visited {segments : List Text} {s t : PatternProbe} {children : Nat}
    {entries : List (List Text × Json)} (h : Inside pattern segments s)
    (hvisited : Visited pattern (segments.length + 1) children entries s t) :
    Inside pattern segments t := by
  refine ⟨hvisited.sameStacks.currentPrefix.trans h.currentPrefix, ?_, ?_⟩
  · rw [hvisited.sameStacks.objectSummaryStack]
    exact h.below
  · intro i hi
    rw [hvisited.sameStacks.openIndex] at hi
    exact Nat.lt_of_lt_of_le (h.index i hi) hvisited.summaries.le

/-- The probe stands before a value with these segments. -/
structure Before (pattern : JsonPointerPattern) (segments : List Text) (s : PatternProbe) :
    Prop where
  below : ∀ state, s.objectSummaryStack.head? = some state → state.depth < segments.length
  index : ∀ i, s.openIndex segments.length = some i → i < s.result.objectKeySummaries.length

theorem Inside.before {segments : List Text} {s : PatternProbe} (h : Inside pattern segments s)
    (segment : Text) : Before pattern (segments ++ [segment]) s := by
  constructor <;> rw [List.length_append, List.length_singleton]
  · exact fun state hstate => Nat.lt_succ_of_le (h.below state hstate)
  · exact h.index

theorem Visited.refl {s : PatternProbe} {depth children : Nat} {entries : List (List Text × Json)}
    (hfound : pattern.found entries = []) (hopen : children = 0 ∨ s.openIndex depth = none) :
    Visited pattern depth children entries s s := by
  have hoffers : offers (s.openIndex depth) children = fun _ => 0 := by
    funext i
    unfold offers
    rcases hopen with rfl | hopen
    · exact ite_self 0
    · rw [hopen]
      rfl
  refine ⟨.refl s, by rw [hfound, Tally.addAll_nil], ?_⟩
  rw [hoffers]
  exact .of_eq rfl _

/-- Where the probe would not descend nothing matches and no summary waits. -/
theorem not_shouldDescend {s : PatternProbe} {segments : List Text}
    (hbegins : s.currentPrefix = pattern.prefixOf segments)
    (hdepth : s.depthStack.head? = some segments.length) (h : s.shouldDescend pattern = false) :
    (∀ more, more ≠ [] → ¬ pattern.Matches (segments ++ more)) ∧
      s.openIndex (segments.length + 1) = none := by
  unfold shouldDescend at h
  rw [hdepth] at h
  dsimp only [Option.getD_some] at h
  obtain ⟨hlonger, hsummary⟩ := Bool.or_eq_false_iff.1 h
  constructor
  · intro more hmore
    refine not_matchesAll_append hmore ?_
    rintro ⟨hfull, hlt⟩
    have htrue : (decide (s.currentPrefix = segments.length) &&
        decide (segments.length < pattern.len)) = true := by
      rw [Bool.and_eq_true, decide_eq_true_eq, decide_eq_true_eq]
      exact ⟨hbegins.trans hfull, hlt⟩
    rw [htrue] at hlonger
    cases hlonger
  · unfold openIndex
    cases hhead : s.objectSummaryStack.head? with
    | none => rfl
    | some state =>
      rw [hhead, Option.any_some] at hsummary
      dsimp only
      split
      case isTrue hstate =>
          rw [decide_eq_true (Nat.succ.inj hstate), Bool.true_and] at hsummary
          exact Option.isSome_eq_false_iff.1 hsummary |> Option.isNone_iff_eq_none.1
      case isFalse => rfl

/-- The summary on top of the stack once an object has been shown. -/
theorem startObjectSummary_cases {s : PatternProbe} {view : WalkPath} {segments : List Text}
    (hview : ViewOf segments view) (hbegins : s.currentPrefix = pattern.prefixOf segments) :
    ∃ state : ObjectSummaryState, state.depth = segments.length ∧
      (s.startObjectSummary pattern view).objectSummaryStack = state :: s.objectSummaryStack ∧
      (s.startObjectSummary pattern view).prefixStack = s.prefixStack ∧
      (s.startObjectSummary pattern view).depthStack = s.depthStack ∧
      (s.startObjectSummary pattern view).tally =
        (if pattern.Matches segments then { s.tally with summaries := s.tally.summaries + 1 }
          else s.tally) ∧
      (state.resultIndex = none ∧
          (s.startObjectSummary pattern view).result.objectKeySummaries =
            s.result.objectKeySummaries ∨
        pattern.Matches segments ∧
          state.resultIndex = some s.result.objectKeySummaries.length ∧
          (s.startObjectSummary pattern view).result.objectKeySummaries =
            s.result.objectKeySummaries ++
              [{ pointer := { asStr := pointerOf segments }
                 childCount := 0
                 keys := []
                 omittedKeys := 0 }]) := by
  have hmatch := isMatch_iff_shown hview hbegins
  unfold startObjectSummary
  by_cases hmatches : pattern.Matches segments
  · rw [hmatch.2 hmatches, Bool.not_true, if_neg Bool.false_ne_true, if_pos hmatches]
    split
    case h_1 =>
        exact ⟨_, hview.depth, rfl, rfl, rfl, rfl, .inl ⟨rfl, rfl⟩⟩
    case h_2 =>
        refine ⟨_, hview.depth, rfl, rfl, rfl, ?_, .inr ⟨hmatches, rfl, by rw [hview.raw]⟩⟩
        unfold tally
        dsimp only
        rw [List.length_append, List.length_singleton, Nat.add_right_comm]
  · have hfalse : s.isMatch pattern view = false :=
      Bool.eq_false_iff.2 fun h => hmatches (hmatch.1 h)
    rw [hfalse, Bool.not_false, if_pos rfl, if_neg hmatches]
    exact ⟨_, hview.depth, rfl, rfl, rfl, rfl, .inl ⟨rfl, rfl⟩⟩

/-- An object whose members have all been shown has a summary with all its keys. -/
theorem summarized_object {l after : List JsonObjectKeySummary} {segments : List Text}
    {members : Members} {entries : List (List Text × Json)} (close : Blank)
    (hinside : Summarized (offers (some l.length) members.keys.length) entries
      (l ++ [{ pointer := { asStr := pointerOf segments }
               childCount := 0
               keys := []
               omittedKeys := 0 }]) after) :
    Summarized (fun _ => 0) ((segments, .object members close) :: entries) l
      (after.modify l.length fun summary => { summary with childCount := members.keys.length }) := by
  have hle := hinside.le
  rw [List.length_append, List.length_singleton] at hle
  refine ⟨?_, ?_, ?_⟩
  · rw [List.length_modify]
    omega
  · intro i summary hi
    have hlt := (List.getElem?_eq_some_iff.1 hi).1
    obtain ⟨summary', hsummary', hgrown⟩ := hinside.old i summary
      (by rw [List.getElem?_append_left hlt, hi])
    rw [offers, if_neg fun h => Nat.ne_of_lt hlt (Option.some.inj h).symm] at hgrown
    exact ⟨summary', by rw [List.getElem?_modify_ne _ _ (by omega), hsummary'], hgrown⟩
  · intro i summary hi hsummary
    by_cases heq : l.length = i
    · subst heq
      obtain ⟨summary', hsummary', hgrown⟩ := hinside.old l.length _ List.getElem?_concat_length
      rw [List.getElem?_modify_eq, hsummary'] at hsummary
      cases hsummary
      rw [offers, if_pos rfl] at hgrown
      refine ⟨_, List.mem_cons_self, members, close, rfl, ?_, ?_, ?_⟩
      · exact congrArg JsonPointer.asStr hgrown.pointer
      · rfl
      · exact hgrown.keyCount.trans (Nat.zero_add _)
    · rw [List.getElem?_modify_ne _ _ heq] at hsummary
      obtain ⟨entry, hentry, hsummarizes⟩ := hinside.new i summary
        (by rw [List.length_append, List.length_singleton]; omega) hsummary
      exact ⟨entry, List.mem_cons_of_mem _ hentry, hsummarizes⟩

theorem Visited.leave {s t : PatternProbe} {view : WalkPath} {depth children : Nat}
    {entries : List (List Text × Json)}
    (h : Visited pattern depth children entries (s.valueStart pattern view) t) :
    Visited pattern depth children entries s t.valueEnd :=
  ⟨⟨congrArg List.tail h.sameStacks.prefixStack, congrArg List.tail h.sameStacks.depthStack,
    h.sameStacks.objectSummaryStack⟩, h.tally, h.summaries⟩

section Values

variable {segments : List Text} {view : WalkPath} {s inside : PatternProbe}

theorem visited_scalar (hview : ViewOf segments view)
    (hbegins : s.currentPrefix = pattern.prefixOf segments) (hbefore : Before pattern segments s)
    (token : ScalarToken) :
    Visited pattern segments.length 1 [(segments, .scalar token)] s
      (s.terminal pattern view token.kind.type) := by
  have hshown := terminal_shown hview hbegins token.kind.type hbefore.index
  refine ⟨hshown.sameStacks, ?_, ?_⟩
  · rw [hshown.tally, pattern.found_cons]
    split <;> rfl
  · exact (hshown.summaries.trans (.of_eq rfl _) fun i _ => rfl)

theorem arrayEnd_counts (hview : ViewOf segments view)
    (hbegins : s.currentPrefix = pattern.prefixOf segments) (length : Nat) :
    SameStacks s (s.arrayEnd pattern view length) ∧
      (s.arrayEnd pattern view length).result.objectKeySummaries = s.result.objectKeySummaries ∧
      (s.arrayEnd pattern view length).tally =
        if pattern.Matches segments then
          { s.tally with arrayLengthRange := some (.extend s.tally.arrayLengthRange length) }
        else s.tally := by
  have hmatch := isMatch_iff_shown hview hbegins
  unfold arrayEnd
  by_cases hmatches : pattern.Matches segments
  · rw [hmatch.2 hmatches, Bool.not_true, if_neg Bool.false_ne_true, if_pos hmatches]
    exact ⟨⟨rfl, rfl, rfl⟩, rfl, rfl⟩
  · have hfalse : s.isMatch pattern view = false :=
      Bool.eq_false_iff.2 fun h => hmatches (hmatch.1 h)
    rw [hfalse, Bool.not_false, if_pos rfl, if_neg hmatches]
    exact ⟨.refl s, rfl, rfl⟩

/-- Arrays keep no summary: the one of an object further out does not wait for elements. -/
theorem Before.openIndex_inside (hbefore : Before pattern segments s) :
    s.openIndex (segments.length + 1) = none := by
  unfold openIndex
  cases hhead : s.objectSummaryStack.head? with
  | none => rfl
  | some state =>
    have hlt := hbefore.below state hhead
    exact if_neg (by omega)

theorem visited_array (hview : ViewOf segments view)
    (hbegins : s.currentPrefix = pattern.prefixOf segments) (hbefore : Before pattern segments s)
    (elements : Elements) (close : Blank)
    (hinside : Visited pattern (segments.length + 1) elements.length (elements.located segments 0)
      (s.terminal pattern view .array) inside) :
    Visited pattern segments.length 1 ((Json.array elements close).located segments) s
      (inside.arrayEnd pattern view elements.length) := by
  have hshown := terminal_shown hview hbegins .array hbefore.index
  have hstacks := hshown.sameStacks.trans hinside.sameStacks
  obtain ⟨hend, hsummaries, htally⟩ :=
    arrayEnd_counts hview (hstacks.currentPrefix.trans hbegins) elements.length
  have hkeys := hinside.summaries
  rw [hshown.sameStacks.openIndex, hbefore.openIndex_inside] at hkeys
  rw [Json.located]
  refine ⟨hstacks.trans hend, ?_, ?_⟩
  · rw [htally, hinside.tally, hshown.tally, pattern.found_cons]
    by_cases hmatches : pattern.Matches segments
    · have hnone : pattern.found (elements.located segments 0) = [] :=
        pattern.found_below (fun entry => elements.segments_of_mem)
          fun more => pattern.not_matches_below hmatches
      rw [if_pos hmatches, if_pos hmatches, if_pos hmatches, hnone]
      rfl
    · rw [if_neg hmatches, if_neg hmatches, if_neg hmatches]
  · rw [hsummaries]
    have hall := hshown.summaries.trans hkeys fun i _ => rfl
    rw [List.nil_append] at hall
    exact hall.mono fun entry hentry => by
      rw [pattern.found_cons]
      split
      · exact List.mem_cons_of_mem _ hentry
      · exact hentry

theorem objectEnd_none (s : PatternProbe) {state : ObjectSummaryState}
    {stack : List ObjectSummaryState} (hstack : s.objectSummaryStack = state :: stack)
    (hresult : state.resultIndex = none) (childCount : Nat) :
    s.objectEnd childCount = { s with objectSummaryStack := stack } := by
  unfold objectEnd
  rw [hstack, List.head?_cons, Option.bind_some, hresult]
  rfl

theorem objectEnd_some (s : PatternProbe) {state : ObjectSummaryState}
    {stack : List ObjectSummaryState} {index : Nat}
    (hstack : s.objectSummaryStack = state :: stack) (hresult : state.resultIndex = some index)
    (childCount : Nat) :
    s.objectEnd childCount =
      { s with
        objectSummaryStack := stack
        result := { s.result with
          objectKeySummaries :=
            s.result.objectKeySummaries.modify index fun summary =>
              { summary with childCount } } } := by
  unfold objectEnd
  rw [hstack, List.head?_cons, Option.bind_some, hresult]
  rfl

theorem visited_object (hview : ViewOf segments view)
    (hbegins : s.currentPrefix = pattern.prefixOf segments) (hbefore : Before pattern segments s)
    (members : Members) (close : Blank)
    (hinside : Visited pattern (segments.length + 1) members.keys.length (members.located segments)
      ((s.terminal pattern view .object).startObjectSummary pattern view) inside) :
    Visited pattern segments.length 1 ((Json.object members close).located segments) s
      (inside.objectEnd members.keys.length) := by
  have hshown := terminal_shown hview hbegins .object hbefore.index
  obtain ⟨state, hdepth, hstack, hprefixes, hdepths, htally, hsummary⟩ :=
    startObjectSummary_cases hview (hshown.sameStacks.currentPrefix.trans hbegins)
  have hstacks := hinside.sameStacks
  have htop : inside.objectSummaryStack = state :: s.objectSummaryStack := by
    rw [hstacks.objectSummaryStack, hstack, hshown.sameStacks.objectSummaryStack]
  have hkeys := hinside.summaries
  have hopen : ((s.terminal pattern view .object).startObjectSummary pattern view).openIndex
      (segments.length + 1) = state.resultIndex := by
    unfold openIndex
    rw [hstack, List.head?_cons]
    exact if_pos (congrArg Nat.succ hdepth)
  have htotal : inside.tally =
      s.tally.addAll (pattern.found ((Json.object members close).located segments)) := by
    rw [hinside.tally, htally, hshown.tally, Json.located, pattern.found_cons]
    by_cases hmatches : pattern.Matches segments
    · rw [if_pos hmatches, if_pos hmatches, if_pos hmatches]
      rfl
    · rw [if_neg hmatches, if_neg hmatches, if_neg hmatches]
  rw [hopen] at hkeys
  rw [Json.located] at htotal ⊢
  rcases hsummary with ⟨hresult, hsame⟩ | ⟨hmatches, hresult, hfresh⟩
  · rw [objectEnd_none inside htop hresult]
    refine ⟨⟨?_, ?_, rfl⟩, htotal, ?_⟩
    · exact hstacks.prefixStack.trans (hprefixes.trans hshown.sameStacks.prefixStack)
    · exact hstacks.depthStack.trans (hdepths.trans hshown.sameStacks.depthStack)
    · rw [hresult, hsame] at hkeys
      have hall := hshown.summaries.trans hkeys fun i _ => rfl
      rw [List.nil_append] at hall
      exact hall.mono fun entry hentry => by
        rw [pattern.found_cons]
        split
        · exact List.mem_cons_of_mem _ hentry
        · exact hentry
  · rw [objectEnd_some inside htop hresult]
    refine ⟨⟨?_, ?_, rfl⟩, ?_, ?_⟩
    · exact hstacks.prefixStack.trans (hprefixes.trans hshown.sameStacks.prefixStack)
    · exact hstacks.depthStack.trans (hdepths.trans hshown.sameStacks.depthStack)
    · rw [← htotal]
      unfold tally
      dsimp only
      rw [List.length_modify]
    · rw [hresult, hfresh] at hkeys
      have hall := hshown.summaries.trans (summarized_object close hkeys) fun i _ => rfl
      rw [pattern.found_cons, if_pos hmatches]
      exact hall

end Values

/-! ### The walk -/

/-- The observer of the probe with another answer to whether it descends. -/
def descending (pattern : JsonPointerPattern) (descend : PatternProbe → Bool) :
    JsonWalkObserver PatternProbe :=
  { observer pattern with shouldDescend := descend }

theorem viewOf_child (segments : List Text) (segment : Text) :
    ViewOf (segments ++ [segment])
      (walkPath (childPointer (pointerOf segments) segment)
        (childState (pointerOf segments) segments.length)) := by
  refine ⟨childPointer_pointerOf segments segment, ?_, ?_⟩
  · rw [List.length_append, List.length_singleton]
    rfl
  · have hsegment : (childPointer (pointerOf segments) segment).drop
        ((pointerOf segments).length + 1) = escapePointerSegment segment := by
      unfold childPointer
      rw [List.drop_length_add_append, List.drop_succ_cons, List.drop_zero]
    rw [List.getLast?_concat]
    exact congrArg some hsegment

theorem Before.inside {segments : List Text} {view : WalkPath} {s t : PatternProbe}
    (hview : ViewOf segments view)
    (hbegins : (s.valueStart pattern view).currentPrefix = pattern.prefixOf segments)
    (hbefore : Before pattern segments s) (hstacks : SameStacks (s.valueStart pattern view) t) :
    Inside pattern segments t ∧ t.depthStack.head? = some segments.length := by
  refine ⟨⟨hstacks.currentPrefix.trans hbegins, ?_, ?_⟩, ?_⟩
  · rw [hstacks.objectSummaryStack]
    exact fun state hstate => Nat.le_of_lt (hbefore.below state hstate)
  · intro i hi
    rw [hstacks.openIndex] at hi
    have hnone : (s.valueStart pattern view).openIndex (segments.length + 1) = none :=
      hbefore.openIndex_inside
    rw [hnone] at hi
    cases hi
  · rw [hstacks.depthStack]
    exact congrArg some hview.depth

theorem Before.inside_object {segments : List Text} {view : WalkPath} {s : PatternProbe}
    (hview : ViewOf segments view)
    (hbegins : (s.valueStart pattern view).currentPrefix = pattern.prefixOf segments)
    (hbefore : Before pattern segments s) :
    let started :=
      ((s.valueStart pattern view).terminal pattern view .object).startObjectSummary pattern view
    Inside pattern segments started ∧ started.depthStack.head? = some segments.length := by
  have hshown := terminal_shown hview hbegins .object hbefore.index
  obtain ⟨state, hdepth, hstack, hprefixes, hdepths, -, hsummary⟩ :=
    startObjectSummary_cases hview (hshown.sameStacks.currentPrefix.trans hbegins)
  intro started
  refine ⟨⟨?_, ?_, ?_⟩, ?_⟩
  · have hsame : started.currentPrefix = (s.valueStart pattern view).currentPrefix := by
      unfold PatternProbe.currentPrefix
      rw [hprefixes, hshown.sameStacks.prefixStack]
    exact hsame.trans hbegins
  · intro top htop
    rw [hstack] at htop
    cases htop
    exact Nat.le_of_eq hdepth
  · intro i hi
    have hopen : started.openIndex (segments.length + 1) = state.resultIndex := by
      unfold openIndex
      rw [hstack, List.head?_cons]
      exact if_pos (congrArg Nat.succ hdepth)
    rw [hopen] at hi
    rcases hsummary with ⟨hresult, -⟩ | ⟨-, hresult, hfresh⟩
    · rw [hresult] at hi
      cases hi
    · rw [hresult] at hi
      cases hi
      rw [hfresh, List.length_append]
      exact Nat.lt_succ_self _
  · rw [hdepths, hshown.sameStacks.depthStack]
    exact congrArg some hview.depth

/-- It descends wherever the probe does. -/
def Descends (pattern : JsonPointerPattern) (descend : PatternProbe → Bool) : Prop :=
  ∀ probe : PatternProbe, probe.shouldDescend pattern = true → descend probe = true

section Walk

variable {descend : PatternProbe → Bool}

theorem visited_inside (hdescend : Descends pattern descend) {segments : List Text}
    {s t : PatternProbe} {children : Nat} {entries : List (List Text × Json)}
    (hinside : Inside pattern segments s)
    (hdepth : s.depthStack.head? = some segments.length)
    (hbelow : ∀ entry ∈ entries, ∃ more, more ≠ [] ∧ entry.1 = segments ++ more)
    (hvisited : Visited pattern (segments.length + 1) children entries s t) :
    Visited pattern (segments.length + 1) children entries s (if descend s then t else s) := by
  split
  case isTrue => exact hvisited
  case isFalse hnot =>
      have hstays : s.shouldDescend pattern = false :=
        Bool.eq_false_iff.2 fun h => hnot (hdescend s h)
      obtain ⟨hnone, hopen⟩ := not_shouldDescend hinside.currentPrefix hdepth hstays
      exact .refl (pattern.found_below hbelow hnone) (.inr hopen)

mutual

/-- The walk meets every value that matches, and each summary gets all its keys. -/
theorem visited_json (hdescend : Descends pattern descend) {segments : List Text} {path : Text}
    {place : ValuePathState} :
    ∀ (value : Json) {s : PatternProbe}, ViewOf segments (walkPath path place) →
      (s.valueStart pattern (walkPath path place)).currentPrefix = pattern.prefixOf segments →
      Before pattern segments s →
      Visited pattern segments.length 1 (value.located segments) s
        (visitJson (descending pattern descend) path place value s)
  | .scalar token, s, hview, hbegins, hbefore => by
      rw [visitJson]
      exact (visited_scalar hview hbegins ⟨hbefore.below, hbefore.index⟩ token).leave
  | .array elements close, s, hview, hbegins, hbefore => by
      have hentered : Before pattern segments (s.valueStart pattern (walkPath path place)) :=
        ⟨hbefore.below, hbefore.index⟩
      have hshown := terminal_shown hview hbegins .array hentered.index
      obtain ⟨hinside, hdepth⟩ := hbefore.inside hview hbegins hshown.sameStacks
      have helements := visited_elements hdescend elements hinside 0
      obtain rfl : path = pointerOf segments := hview.raw
      have hplace : place.depth = segments.length := hview.depth
      rw [visitJson, hplace]
      exact (visited_array hview hbegins hentered elements close
        (visited_inside hdescend hinside hdepth (fun entry => elements.segments_of_mem)
          helements)).leave
  | .object members close, s, hview, hbegins, hbefore => by
      have hentered : Before pattern segments (s.valueStart pattern (walkPath path place)) :=
        ⟨hbefore.below, hbefore.index⟩
      obtain ⟨hinside, hdepth⟩ := hbefore.inside_object hview hbegins
      have hmembers := visited_members hdescend members hinside
      obtain rfl : path = pointerOf segments := hview.raw
      have hplace : place.depth = segments.length := hview.depth
      rw [visitJson, hplace]
      exact (visited_object hview hbegins hentered members close
        (visited_inside hdescend hinside hdepth (fun entry => members.segments_of_mem)
          hmembers)).leave

theorem visited_elements (hdescend : Descends pattern descend) {segments : List Text} :
    ∀ (elements : Elements) {s : PatternProbe}, Inside pattern segments s → ∀ index,
      Visited pattern (segments.length + 1) elements.length (elements.located segments index) s
        (visitElements (descending pattern descend) (pointerOf segments) segments.length index
          elements s)
  | .nil, s, hinside, index => by
      rw [visitElements]
      exact .refl rfl (.inl rfl)
  | .cons _ value rest, s, hinside, index => by
      have hview := viewOf_child segments (indexSegment index)
      have hvalue := visited_json hdescend value hview (valueStart_child hview hinside.currentPrefix)
        (hinside.before (indexSegment index))
      rw [List.length_append, List.length_singleton] at hvalue
      rw [visitElements, Elements.located, Elements.length, Nat.add_comm rest.length]
      exact hvalue.trans (visited_elements hdescend rest (hinside.visited hvalue) (index + 1))
        hinside.index

theorem visited_members (hdescend : Descends pattern descend) {segments : List Text} :
    ∀ (members : Members) {s : PatternProbe}, Inside pattern segments s →
      Visited pattern (segments.length + 1) members.keys.length (members.located segments) s
        (visitMembers (descending pattern descend) (pointerOf segments) segments.length members s)
  | .nil, s, hinside => by
      rw [visitMembers]
      exact .refl rfl (.inl rfl)
  | .cons _ key _ value rest, s, hinside => by
      have hview := viewOf_child segments key.text
      have hvalue := visited_json hdescend value hview (valueStart_child hview hinside.currentPrefix)
        (hinside.before key.text)
      rw [List.length_append, List.length_singleton] at hvalue
      rw [visitMembers, Members.located, Members.keys, List.length_cons,
        Nat.add_comm rest.keys.length]
      exact hvalue.trans (visited_members hdescend rest (hinside.visited hvalue)) hinside.index

end

theorem visited_root (hdescend : Descends pattern descend) (root : Json) :
    Visited pattern 0 1 (root.located []) {}
      (visitJson (descending pattern descend) [] rootState root {}) := by
  refine @visited_json _ _ hdescend [] _ _ root _ ⟨rfl, rfl, rfl⟩ ?_ ⟨?_, ?_⟩
  · exact (matchedPrefix_nil pattern.segments).symm
  · exact fun state hstate => by cases hstate
  · exact fun i hi => by cases hi

end Walk

end PatternProbe

end Fluxcope.Control
