import Fluxcope.Control.FindCountsSpec
/-!
# When an answer is truncated

An answer from which something is missing says so.  A probe also says so where hints were
omitted from a collection that did not last, or where the strings it charged for are too
many, and in no other case.
-/

namespace Fluxcope.Control

open Fluxcope.Library Fluxcope.Library.Utf8

/-! ## What is omitted -/

namespace ProbeJsonPointerPatternResult

/-- Some of the examples, of the summaries or of their keys are counted only. -/
def OmitsMatches (result : ProbeJsonPointerPatternResult) : Prop :=
  result.omittedExamples ≠ 0 ∨ result.omittedObjectSummaries ≠ 0 ∨
    ∃ n ∈ result.objectKeySummaries.map JsonObjectKeySummary.omittedKeys, n ≠ 0

/-- Some of the next segments are counted only. -/
def omitsHints (result : ProbeJsonPointerPatternResult) : Bool :=
  result.missHint.any fun hint => hint.omittedNextSegments ≠ 0

/-- Something is missing from the answer: it is counted only, or nothing matched and there is
no hint why. -/
def Omits (result : ProbeJsonPointerPatternResult) : Prop :=
  result.OmitsMatches ∨ result.omitsHints = true ∨
    (result.matchCount = 0 ∧ result.missHint = none)

instance (result : ProbeJsonPointerPatternResult) : Decidable result.Omits :=
  inferInstanceAs (Decidable ((_ ∨ _ ∨ _) ∨ _ ∨ _))

variable {result smaller answer : ProbeJsonPointerPatternResult}

theorem omitsHints_iff : result.omitsHints = true ↔
    ∃ hint, result.missHint = some hint ∧ hint.omittedNextSegments ≠ 0 := by
  simp [omitsHints, Option.any_eq_true]

theorem Drops.omits (h : Drops result smaller)
    (hhint : result.missHint ≠ none → result.matchCount = 0) :
    smaller.truncated = true ∧ smaller.Omits := by
  cases h with
  | lastExample heq => exact ⟨rfl, .inl (.inl (Nat.succ_ne_zero _))⟩
  | @lastKey summaries summary keys last heq hkeys =>
    refine ⟨rfl, .inl (.inr (.inr ⟨summary.omittedKeys + 1, ?_, Nat.succ_ne_zero _⟩))⟩
    rw [List.map_append]
    exact List.mem_append_right _ (List.mem_singleton_self _)
  | lastSummary heq hkeys => exact ⟨rfl, .inl (.inr (.inl (Nat.succ_ne_zero _)))⟩
  | lastHint heq hnext =>
    exact ⟨rfl, .inr (.inl (omitsHints_iff.2 ⟨_, rfl, Nat.succ_ne_zero _⟩))⟩
  | hints heq hnext =>
    have hnone : result.matchCount = 0 := hhint (by rw [heq]; exact Option.some_ne_none _)
    exact ⟨rfl, .inr (.inr ⟨hnone, rfl⟩)⟩

theorem Drops.missHint (h : Drops result smaller) :
    smaller.missHint ≠ none → result.missHint ≠ none := by
  cases h with
  | lastHint heq _ => exact fun _ => heq ▸ Option.some_ne_none _
  | hints _ _ => exact fun hne => absurd rfl hne
  | _ => exact id

/-- Whatever was dropped, the answer says that something is missing. -/
theorem omits_of_drops (h : Relation.ReflTransGen Drops result answer)
    (hhint : result.missHint ≠ none → result.matchCount = 0) :
    answer = result ∨ (answer.truncated = true ∧ answer.Omits) := by
  have hkept : (answer.missHint ≠ none → answer.matchCount = 0) ∧
      (answer = result ∨ (answer.truncated = true ∧ answer.Omits)) := by
    induction h with
    | refl => exact ⟨hhint, .inl rfl⟩
    | tail _ hdrop ih =>
      refine ⟨fun hne => ?_, .inr (hdrop.omits ih.1)⟩
      rw [hdrop.metadata.matchCount]
      exact ih.1 (hdrop.missHint hne)
  exact hkept.2

/-! ## The flag during the walk -/

/-- The flag is set by what is omitted or by `earlier`, and by nothing else. -/
structure Explained (earlier : Prop) (result : ProbeJsonPointerPatternResult) : Prop where
  truncated : result.truncated = true ↔
    result.OmitsMatches ∨ result.omitsHints = true ∨ earlier
  missHint : result.missHint ≠ none

variable {earlier : Prop}

/-- A further thing is omitted, and flagged. -/
theorem Explained.omit (htruncated : smaller.truncated = true)
    (homits : smaller.OmitsMatches ∨ smaller.omitsHints = true) (hhint : smaller.missHint ≠ none) :
    smaller.Explained earlier :=
  ⟨iff_of_true htruncated (homits.elim .inl fun hhints => .inr (.inl hhints)), hhint⟩

/-- What is omitted stays the same. -/
theorem Explained.same (h : result.Explained earlier)
    (htruncated : smaller.truncated = result.truncated)
    (hmatches : smaller.OmitsMatches ↔ result.OmitsMatches)
    (hhint : smaller.missHint = result.missHint) : smaller.Explained earlier := by
  have hhints : smaller.omitsHints = result.omitsHints := by
    unfold omitsHints
    rw [hhint]
  refine ⟨?_, hhint ▸ h.missHint⟩
  rw [htruncated, hmatches, hhints]
  exact h.truncated

end ProbeJsonPointerPatternResult

section Lists

variable {α β : Type} {f : α → β} {l : List α} {i : Nat}

theorem map_set_of_eq {a b : α} (hi : l[i]? = some a) (h : f b = f a) :
    (l.set i b).map f = l.map f := by
  obtain ⟨hlt, rfl⟩ := List.getElem?_eq_some_iff.1 hi
  ext j
  rw [List.getElem?_map, List.getElem?_map, List.getElem?_set]
  split
  · subst j
    simp [hlt, h]
  · rfl

theorem map_modify_of_eq {g : α → α} (h : ∀ a, f (g a) = f a) :
    (l.modify i g).map f = l.map f := by
  ext j
  rw [List.getElem?_map, List.getElem?_map, List.getElem?_modify]
  split <;> simp [Function.comp_def, h]

end Lists

namespace PatternProbe

variable {probe : PatternProbe} {earlier : Prop}

theorem explained_recordChildShape (h : probe.result.Explained earlier) (view : WalkPath)
    (kind : JsonType) : (probe.recordChildShape view kind).result.Explained earlier := by
  unfold PatternProbe.recordChildShape
  split
  · exact h
  split
  · exact h
  split
  · dsimp only
    split
    · exact h
    · rename_i index rawSegment _ _ summary hindex
      split
      · rename_i budgetUsed other hoffer
        refine h.same rfl ?_ rfl
        unfold ProbeJsonPointerPatternResult.OmitsMatches
        dsimp only
        rw [map_set_of_eq hindex (offerKey_omittedKeys hoffer)]
      · refine .omit rfl (.inl (.inr (.inr ⟨summary.omittedKeys + 1, ?_, Nat.succ_ne_zero _⟩)))
          h.missHint
        have hlt := (List.getElem?_eq_some_iff.1 hindex).1
        rw [List.map_set]
        exact List.mem_set (by rw [List.length_map]; exact hlt) _
  · exact h

theorem missHint_recordChildShape (view : WalkPath) (kind : JsonType) :
    (probe.recordChildShape view kind).result.missHint = probe.result.missHint := by
  unfold PatternProbe.recordChildShape
  dsimp only
  repeat' split
  all_goals rfl

/-- A new collection of hints omits none yet. -/
theorem explained_notePrefix (h : probe.result.Explained earlier)
    (hearlier : probe.result.omitsHints = true → earlier) (view : WalkPath) :
    (probe.notePrefix view).result.Explained earlier := by
  unfold PatternProbe.notePrefix
  split
  · refine ⟨h.truncated.trans ⟨fun hold => ?_, fun hnew => ?_⟩, Option.some_ne_none _⟩
    · rcases hold with hmatches | hhints | he
      · exact .inl hmatches
      · exact .inr (.inr (hearlier hhints))
      · exact .inr (.inr he)
    · rcases hnew with hmatches | hhints | he
      · exact .inl hmatches
      · cases hhints
      · exact .inr (.inr he)
  · exact h

theorem explained_offerHint (h : probe.result.Explained earlier) {hint : JsonPointerMissHint}
    (hhint : probe.result.missHint = some hint) (next : JsonNextSegmentHint) :
    (probe.offerHint hint next).result.Explained earlier := by
  unfold PatternProbe.offerHint
  split
  · exact h.same rfl Iff.rfl hhint.symm
  · split
    · refine ⟨?_, Option.some_ne_none _⟩
      have hold := h.truncated
      unfold ProbeJsonPointerPatternResult.omitsHints at hold ⊢
      rw [hhint] at hold
      exact hold
    · exact .omit rfl (.inr (ProbeJsonPointerPatternResult.omitsHints_iff.2
        ⟨_, rfl, Nat.succ_ne_zero _⟩)) (Option.some_ne_none _)

theorem explained_considerMiss (h : probe.result.Explained earlier)
    (hearlier : probe.result.omitsHints = true → earlier) (view : WalkPath) (kind : JsonType) :
    (probe.considerMiss view kind).result.Explained earlier := by
  have hnoted := explained_notePrefix h hearlier view
  unfold PatternProbe.considerMiss
  dsimp only
  split
  · exact hnoted
  · split
    · exact hnoted
    · obtain ⟨hint, hhint⟩ := Option.ne_none_iff_exists'.1 hnoted.missHint
      rw [hhint, Option.getD_some]
      exact explained_offerHint hnoted hhint _

theorem explained_recordExample (h : probe.result.Explained earlier) (view : WalkPath) :
    (probe.recordExample view).result.Explained earlier := by
  unfold PatternProbe.recordExample
  split
  · exact h.same rfl Iff.rfl rfl
  · exact .omit rfl (.inl (.inl (Nat.succ_ne_zero _))) h.missHint

theorem explained_terminal (h : probe.result.Explained earlier)
    (hearlier : probe.result.omitsHints = true → earlier) (pattern : JsonPointerPattern)
    (view : WalkPath) (kind : JsonType) :
    (probe.terminal pattern view kind).result.Explained earlier := by
  have hhints : (probe.recordChildShape view kind).result.omitsHints = true → earlier := by
    unfold ProbeJsonPointerPatternResult.omitsHints
    rw [missHint_recordChildShape]
    exact hearlier
  have hmiss := explained_considerMiss (explained_recordChildShape h view kind) hhints view kind
  unfold PatternProbe.terminal
  dsimp only
  split
  · exact hmiss
  · refine explained_recordExample ?_ view
    exact hmiss.same rfl Iff.rfl rfl

theorem explained_startObjectSummary (h : probe.result.Explained earlier)
    (pattern : JsonPointerPattern) (view : WalkPath) :
    (probe.startObjectSummary pattern view).result.Explained earlier := by
  unfold PatternProbe.startObjectSummary
  split
  · exact h
  · split
    · exact .omit rfl (.inl (.inr (.inl (Nat.succ_ne_zero _)))) h.missHint
    · refine h.same rfl ?_ rfl
      unfold ProbeJsonPointerPatternResult.OmitsMatches
      simp

theorem explained_objectEnd (h : probe.result.Explained earlier) (children : Nat) :
    (probe.objectEnd children).result.Explained earlier := by
  unfold PatternProbe.objectEnd
  dsimp only
  split
  · exact h
  · refine h.same rfl ?_ rfl
    unfold ProbeJsonPointerPatternResult.OmitsMatches
    dsimp only
    rw [map_modify_of_eq (f := JsonObjectKeySummary.omittedKeys)
      (g := fun summary => { summary with childCount := children }) fun _ => rfl]

theorem explained_arrayEnd (h : probe.result.Explained earlier) (pattern : JsonPointerPattern)
    (view : WalkPath) (length : Nat) :
    (probe.arrayEnd pattern view length).result.Explained earlier := by
  unfold PatternProbe.arrayEnd
  split
  · exact h
  · exact h.same rfl Iff.rfl rfl

end PatternProbe

/-! ## Watching the hints -/

section Watching

variable {σ : Type}

def noted (seen : σ → Bool) (ever : Bool) (s : σ) : σ × Bool := (s, ever || seen s)

/-- An observer beside the note whether its state was ever as `seen` tells. -/
def watching (observer : JsonWalkObserver σ) (seen : σ → Bool) : JsonWalkObserver (σ × Bool) where
  valueStart s view := noted seen s.2 (observer.valueStart s.1 view)
  valueEnd s := noted seen s.2 (observer.valueEnd s.1)
  scalar s view kind encodedBytes token :=
    noted seen s.2 (observer.scalar s.1 view kind encodedBytes token)
  objectStart s view := noted seen s.2 (observer.objectStart s.1 view)
  objectEnd s view children := noted seen s.2 (observer.objectEnd s.1 view children)
  arrayStart s view := noted seen s.2 (observer.arrayStart s.1 view)
  arrayEnd s view length := noted seen s.2 (observer.arrayEnd s.1 view length)
  objectKey s view key := noted seen s.2 (observer.objectKey s.1 view key)
  wantsScalarEncodedBytes s := observer.wantsScalarEncodedBytes s.1
  wantsScalarToken s := observer.wantsScalarToken s.1
  shouldDescend s := observer.shouldDescend s.1

theorem watching_maps (observer : JsonWalkObserver σ) (seen : σ → Bool) :
    Maps (watching observer seen) observer Prod.fst :=
  ⟨fun _ _ => rfl, fun _ => rfl, fun _ _ _ _ _ => rfl, fun _ _ => rfl, fun _ _ _ => rfl,
    fun _ _ => rfl, fun _ _ _ => rfl, fun _ _ _ => rfl, fun _ => rfl, fun _ => rfl, fun _ => rfl⟩

end Watching

/-- At some point of the walk the hints at hand omitted some. -/
def everOmitsHints (pattern : JsonPointerPattern) (root : Json) : Bool :=
  (visitJson (watching (PatternProbe.observer pattern) fun probe => probe.result.omitsHints) []
    rootState root ({}, false)).2

/-- The flag is explained by the note, which knows of the hints omitted at hand. -/
def Settled (s : PatternProbe × Bool) : Prop :=
  s.1.result.Explained (s.2 = true) ∧ (s.1.result.omitsHints = true → s.2 = true)

theorem settled_noted {ever : Bool} {probe : PatternProbe}
    (h : probe.result.Explained (ever = true)) :
    Settled (noted (fun probe => probe.result.omitsHints) ever probe) := by
  have hnote : (ever || probe.result.omitsHints) = true ↔
      ever = true ∨ probe.result.omitsHints = true := Bool.or_eq_true_iff
  refine ⟨⟨h.truncated.trans ?_, h.missHint⟩, fun hhints => hnote.2 (.inr hhints)⟩
  show _ ↔ _ ∨ _ ∨ (ever || probe.result.omitsHints) = true
  rw [hnote]
  tauto

theorem keeps_settled (pattern : JsonPointerPattern) :
    Keeps (watching (PatternProbe.observer pattern) fun probe => probe.result.omitsHints)
      Settled where
  valueStart _ _ h := settled_noted h.1
  valueEnd _ h := settled_noted h.1
  scalar _ view kind _ _ h :=
    settled_noted (PatternProbe.explained_terminal h.1 h.2 pattern view kind)
  objectStart _ view h := settled_noted (PatternProbe.explained_startObjectSummary
    (PatternProbe.explained_terminal h.1 h.2 pattern view .object) pattern view)
  objectEnd _ _ children h := settled_noted (PatternProbe.explained_objectEnd h.1 children)
  arrayStart _ view h :=
    settled_noted (PatternProbe.explained_terminal h.1 h.2 pattern view .array)
  arrayEnd _ view length h :=
    settled_noted (PatternProbe.explained_arrayEnd h.1 pattern view length)
  objectKey _ _ _ h := settled_noted h.1

theorem settled_start : Settled ({}, false) := by
  refine ⟨⟨⟨fun h => (by cases h), fun h => ?_⟩, Option.some_ne_none _⟩, fun h => (by cases h)⟩
  rcases h with (h | h | ⟨n, hn, -⟩) | h | h
  · exact absurd rfl h
  · exact absurd rfl h
  · cases hn
  · cases h
  · cases h

theorem settled_walked (pattern : JsonPointerPattern) (root : Json) :
    Settled (walked pattern root, everOmitsHints pattern root) := by
  have hsettled := @visitJson_keeps _ _ _ (keeps_settled pattern) [] rootState _
    settled_start root
  have hwalked := visitJson_maps (watching_maps (PatternProbe.observer pattern)
    fun probe => probe.result.omitsHints) [] rootState ({}, false) root
  unfold walked everOmitsHints
  rw [← hwalked]
  exact hsettled

/-! ## The answer -/

/-- The bytes of the strings in the answer, as the probe charges for them. -/
def PatternProbe.chargedWireBytes (probe : PatternProbe) : Nat :=
  probe.budgetUsed + if probe.result.matchCount ≠ 0 then 0 else probe.longestPrefixWireBytes

theorem probeAnswer_eq (input : Bytes) (probe : PatternProbe) :
    probeAnswer input probe =
      { probe.result with
        inspectedBytes := input.length
        status := if probe.result.matchCount ≠ 0 then .matched else probe.result.status
        missHint := if probe.result.matchCount ≠ 0 then none else probe.result.missHint
        truncated := probe.result.truncated || decide (maxJsonResultBytes < probe.chargedWireBytes) } := by
  unfold probeAnswer PatternProbe.chargedWireBytes
  dsimp only
  by_cases hmatched : probe.result.matchCount ≠ 0
  · simp only [if_pos hmatched, gt_iff_lt, Nat.add_zero]
    split
    case isTrue hcharged => simp [hcharged]
    case isFalse hcharged => simp [hcharged]
  · simp only [if_neg hmatched, gt_iff_lt]
    split
    case isTrue hcharged => simp [hcharged]
    case isFalse hcharged => simp [hcharged]

theorem probeAnswer_missHint (input : Bytes) (probe : PatternProbe) :
    (probeAnswer input probe).missHint ≠ none → (probeAnswer input probe).matchCount = 0 := by
  rw [probeAnswer_eq]
  dsimp only
  split
  · exact fun hne => absurd rfl hne
  · exact fun _ => by omega

/-- Before it is made to fit, the answer omits what the probe omitted. -/
theorem probeAnswer_omits {input : Bytes} {probe : PatternProbe} (hhint : probe.result.missHint ≠ none) :
    (probeAnswer input probe).Omits ↔ probe.result.OmitsMatches ∨
      (probe.result.matchCount = 0 ∧ probe.result.omitsHints = true) := by
  rw [probeAnswer_eq]
  unfold ProbeJsonPointerPatternResult.Omits ProbeJsonPointerPatternResult.omitsHints
    ProbeJsonPointerPatternResult.OmitsMatches
  dsimp only
  by_cases hmatched : probe.result.matchCount = 0
  · simp [hmatched, hhint]
  · simp [hmatched]

theorem probeAnswer_truncated {input : Bytes} {probe : PatternProbe} {earlier : Prop}
    (h : probe.result.Explained earlier)
    (hearlier : probe.result.omitsHints = true → earlier) :
    (probeAnswer input probe).truncated = true ↔ (probeAnswer input probe).Omits ∨ earlier ∨
      maxJsonResultBytes < probe.chargedWireBytes := by
  have htruncated : (probeAnswer input probe).truncated =
      (probe.result.truncated || decide (maxJsonResultBytes < probe.chargedWireBytes)) := by
    rw [probeAnswer_eq]
  rw [probeAnswer_omits h.missHint, htruncated, Bool.or_eq_true, decide_eq_true_eq, h.truncated]
  tauto

/-! ## Bounded answers -/

section Document

variable {parser : JsonEventParser} {input : Bytes} {document : JsonDocument} {raw : Text}
  {pattern : JsonPointerPattern}

/-- What an answer of the probe promises. -/
structure ProbePromise (document : JsonDocument) (raw : Text) (pattern : JsonPointerPattern)
    (answer : ProbeJsonPointerPatternResult) : Prop where
  counts : answer.Counts (namedValues document raw)
  fits : answer.serializedBytes ≤ maxJsonResultBytes
  truncated : answer.truncated = true ↔ answer.Omits ∨
    everOmitsHints pattern document.root = true ∨
      maxJsonResultBytes < (walked pattern document.root).chargedWireBytes

theorem probe_promise (hparses : Parses parser input document)
    (hpattern : JsonPointerPattern.parse raw = .ok pattern)
    (hvalid : validateJsonInput input = .ok ()) (hlimit : jsonLimit [] 0 document.root = none) :
    ∃ answer, probeJson parser input pattern = .ok answer ∧
      ProbePromise document raw pattern answer := by
  obtain ⟨answer, hanswer, hdrops, hcounts, hfits⟩ := @probeJson_found _ _ _ pattern hparses
    hvalid hlimit
  rw [found_eq_namedValues hpattern document] at hcounts
  obtain ⟨hexplained, hearlier⟩ := settled_walked pattern document.root
  have htruncated := @probeAnswer_truncated input _ _ hexplained hearlier
  refine ⟨answer, hanswer, ⟨hcounts, hfits, ?_⟩⟩
  rcases ProbeJsonPointerPatternResult.omits_of_drops hdrops (probeAnswer_missHint input _) with
    rfl | ⟨hflag, homits⟩
  · exact htruncated
  · exact iff_of_true hflag (.inl homits)

/-- An answer of the finder is about an admitted question. -/
theorem findJsonPointers_admitted {caseFold : Text → Text} {fieldName : Text} {mode : FieldMatchMode}
    {limit : Nat} {answer : FindJsonPointersResult}
    (h : findJsonPointers parser caseFold input fieldName mode limit = .ok answer) :
    Text.utf8Len fieldName ≤ maxJsonFieldNameBytes ∧ validateResultLimit limit = .ok () := by
  unfold findJsonPointers at h
  split at h
  case isTrue => cases h
  case isFalse hname =>
      refine ⟨Nat.le_of_not_lt hname, ?_⟩
      cases hresults : validateResultLimit limit with
      | error error =>
        rw [hresults] at h
        cases h
      | ok _ => rfl

/-- Both answers are bounded, and count what they leave out.  Within the limits there is always
one. -/
theorem answers_bounded (hparses : Parses parser input document) :
    (∀ caseFold fieldName mode limit,
      (∀ answer, findJsonPointers parser caseFold input fieldName mode limit = .ok answer →
        answer.Honest (fieldCount caseFold fieldName mode document) ∧
          answer.serializedBytes ≤ maxJsonResultBytes) ∧
      (Text.utf8Len fieldName ≤ maxJsonFieldNameBytes → validateResultLimit limit = .ok () →
        validateJsonInput input = .ok () → jsonLimit [] 0 document.root = none →
        ∃ answer, findJsonPointers parser caseFold input fieldName mode limit = .ok answer)) ∧
    ∀ raw pattern, JsonPointerPattern.parse raw = .ok pattern →
      (∀ answer, probeJson parser input pattern = .ok answer →
        ProbePromise document raw pattern answer) ∧
      (validateJsonInput input = .ok () → jsonLimit [] 0 document.root = none →
        ∃ answer, probeJson parser input pattern = .ok answer) := by
  refine ⟨fun caseFold fieldName mode limit => ⟨fun answer hanswer => ?_,
    fun hname hresults hvalid hlimit => ?_⟩, fun raw pattern hpattern => ⟨fun answer hanswer => ?_,
    fun hvalid hlimit => ?_⟩⟩
  · obtain ⟨hname, hresults⟩ := findJsonPointers_admitted hanswer
    obtain ⟨hvalid, hlimit, -⟩ := findJsonPointers_ok hparses hanswer
    obtain ⟨other, hother, hhonest⟩ := @find_honest _ caseFold _ fieldName mode limit _ hparses hname
      hresults hvalid hlimit
    obtain rfl := Except.ok.inj (hanswer.symm.trans hother)
    exact hhonest
  · obtain ⟨answer, hanswer, -⟩ := @find_honest _ caseFold _ fieldName mode limit _ hparses hname
      hresults hvalid hlimit
    exact ⟨answer, hanswer⟩
  · obtain ⟨hvalid, hlimit⟩ := probeJson_limits hparses hanswer
    obtain ⟨other, hother, hpromise⟩ := probe_promise hparses hpattern hvalid hlimit
    obtain rfl := Except.ok.inj (hanswer.symm.trans hother)
    exact hpromise
  · obtain ⟨answer, hanswer, -⟩ := probe_promise hparses hpattern hvalid hlimit
    exact ⟨answer, hanswer⟩

end Document

theorem answers_bounded_nested :
    (∃ answer, findJsonPointers nestedParser id nestedDocument.text ['b', '/', '~'] .exact 5 =
      .ok answer ∧ answer.Honest 1 ∧ answer.serializedBytes ≤ maxJsonResultBytes) ∧
    ∃ answer, probeJson nestedParser nestedDocument.text
        { raw := nestedPattern
          segments := [.exact ['a'], .wildcard, .exact ['b', '~', '1', '~', '0']] } = .ok answer ∧
      ProbePromise nestedDocument nestedPattern
        { raw := nestedPattern
          segments := [.exact ['a'], .wildcard, .exact ['b', '~', '1', '~', '0']] } answer := by
  have hvalid : validateJsonInput nestedDocument.text = .ok () := by decide +kernel
  have hlimit : jsonLimit [] 0 nestedDocument.root = none := by decide +kernel
  obtain ⟨hfind, hprobe⟩ := @answers_bounded nestedParser nestedDocument.text nestedDocument ⟨rfl, rfl⟩
  obtain ⟨hhonest, hfound⟩ := hfind id ['b', '/', '~'] .exact 5
  obtain ⟨hpromise, hprobed⟩ := hprobe nestedPattern
    { raw := nestedPattern
      segments := [.exact ['a'], .wildcard, .exact ['b', '~', '1', '~', '0']] } (by decide +kernel)
  obtain ⟨answer, hanswer⟩ := hfound (by decide +kernel) (by decide +kernel) hvalid hlimit
  obtain ⟨answer', hanswer'⟩ := hprobed hvalid hlimit
  exact ⟨⟨answer, hanswer, hhonest answer hanswer⟩, ⟨answer', hanswer', hpromise answer' hanswer'⟩⟩

/-! ## Hints that did not last -/

/-- An object with these keys, and zeros. -/
def zeroMembers : List Char → Members
  | [] => .nil
  | c :: keys =>
    .cons {} { text := [c], bytes := [0x22, UInt8.ofNat c.toNat, 0x22] } {}
      (.scalar { kind := .number, bytes := [0x30] }) (zeroMembers keys)

/-- The member that the pattern names comes behind more members than there may be hints. -/
def crowdedDocument : JsonDocument :=
  { root := .object (zeroMembers "acdefghijklmnopqrstuvb".toList) {} }

/-- The twenty-first hint was omitted, but then a value matched, and no hints are left. -/
theorem crowded_truncated :
    ∃ answer, probeJson (fun _ => crowdedDocument.chunks.map Chunk.result) crowdedDocument.text
        { raw := ['/', 'b'], segments := [.exact ['b']] } = .ok answer ∧
      answer.truncated = true ∧ ¬ answer.Omits :=
  ⟨{ status := .matched
     matchCount := 1
     typeCounts := { number := 1 }
     examples := [{ asStr := ['/', 'b'] }]
     missHint := none
     inspectedBytes := 133
     truncated := true }, by decide +kernel, rfl, by decide⟩

end Fluxcope.Control
