import Fluxcope.Control.ProbeCountsSpec
/-!
# What a find counts

The finder counts the keys of the whole document that match, and keeps or omits each of
their values.  What was found is dropped from the answer until it fits.
-/

namespace Fluxcope.Control

open Fluxcope.Library Fluxcope.Library.Utf8

namespace FieldFinder

/-! ## Kept or omitted -/

/-- No more is kept than was found, and less where something was omitted. -/
structure Accounted (finder : FieldFinder) : Prop where
  le : finder.fieldMatches.length ≤ finder.totalMatches
  omitted : finder.outputOmitted = true → finder.fieldMatches.length < finder.totalMatches

theorem Accounted.record {finder : FieldFinder} (h : finder.Accounted) (limit : Nat)
    (path : WalkPath) (kind : JsonType) (childCount arrayLength encodedBytes : Option Nat) :
    (finder.record limit path kind childCount arrayLength encodedBytes).Accounted := by
  unfold FieldFinder.record
  dsimp only
  split
  · exact ⟨Nat.le_succ_of_le h.le, fun _ => Nat.lt_succ_of_le h.le⟩
  · split
    · exact ⟨Nat.le_succ_of_le h.le, fun _ => Nat.lt_succ_of_le h.le⟩
    · refine ⟨?_, fun homitted => ?_⟩
      · rw [List.length_append]
        exact Nat.succ_le_succ h.le
      · rw [List.length_append]
        exact Nat.succ_lt_succ (h.omitted homitted)

variable {caseFold : Text → Text} {name : Text} {mode : FieldMatchMode} {limit : Nat}

theorem Accounted.ended {finder : FieldFinder} (h : finder.Accounted) (path : WalkPath)
    (kind : JsonType) (childCount arrayLength : Option Nat) :
    (if finder.containerEnd.1 then
      finder.containerEnd.2.record limit path kind childCount arrayLength none
    else finder.containerEnd.2).Accounted := by
  have hend : finder.containerEnd.2.Accounted := ⟨h.le, h.omitted⟩
  split
  · exact hend.record limit path kind childCount arrayLength none
  · exact hend

theorem keeps_accounted : Keeps (observer caseFold name mode limit) Accounted where
  valueStart _ _ h := h
  valueEnd _ h := h
  scalar finder path kind encodedBytes _ h := by
    have hconsumed : finder.consumed.Accounted := ⟨h.le, h.omitted⟩
    simp only [observer]
    split
    · exact hconsumed.record limit path kind none none encodedBytes
    · exact h
  objectStart _ _ h := ⟨h.le, h.omitted⟩
  objectEnd _ path children h := h.ended path .object (some children) none
  arrayStart _ _ h := ⟨h.le, h.omitted⟩
  arrayEnd _ path length h := h.ended path .array none (some length)
  objectKey _ _ _ h := ⟨h.le, h.omitted⟩

/-! ## The number of matches -/

/-- So many matches were found, no one is pending, and the open containers are as before. -/
structure Counted (n : Nat) (s t : FieldFinder) : Prop where
  total : t.totalMatches = s.totalMatches + n
  pending : t.nextValueMatches = false
  containers : t.matchedContainers = s.matchedContainers

theorem Counted.trans {n m : Nat} {s t u : FieldFinder} (h : Counted n s t) (h' : Counted m t u) :
    Counted (n + m) s u :=
  ⟨by rw [h'.total, h.total, Nat.add_assoc], h'.pending, h'.containers.trans h.containers⟩

theorem counted_record {finder : FieldFinder} (hpending : finder.nextValueMatches = false)
    (path : WalkPath) (kind : JsonType) (childCount arrayLength encodedBytes : Option Nat) :
    Counted 1 finder (finder.record limit path kind childCount arrayLength encodedBytes) := by
  unfold FieldFinder.record
  dsimp only
  split
  · exact ⟨rfl, hpending, rfl⟩
  · split <;> exact ⟨rfl, hpending, rfl⟩

/-- A container counts when it ends, if its key had matched. -/
theorem counted_container {n : Nat} {s t : FieldFinder} (h : Counted n s.containerStart t)
    (path : WalkPath) (kind : JsonType) (childCount arrayLength : Option Nat) :
    Counted ((if s.nextValueMatches then 1 else 0) + n) s
      (if t.containerEnd.1 then t.containerEnd.2.record limit path kind childCount arrayLength none
        else t.containerEnd.2) := by
  have hmatched : t.containerEnd.1 = s.nextValueMatches := by
    unfold FieldFinder.containerEnd
    rw [h.containers]
    rfl
  have hpending : t.containerEnd.2.nextValueMatches = false := h.pending
  have hcontainers : t.containerEnd.2.matchedContainers = s.matchedContainers := by
    unfold FieldFinder.containerEnd
    rw [h.containers]
    rfl
  have htotal : t.containerEnd.2.totalMatches = s.totalMatches + n := h.total
  rw [hmatched]
  cases s.nextValueMatches with
  | false =>
    refine ⟨?_, hpending, hcontainers⟩
    rw [if_neg Bool.false_ne_true, if_neg Bool.false_ne_true, Nat.zero_add]
    exact htotal
  | true =>
    have hrecord := @counted_record limit _ hpending path kind childCount arrayLength none
    refine ⟨?_, hrecord.pending, hrecord.containers.trans hcontainers⟩
    refine hrecord.total.trans ?_
    rw [htotal, Nat.add_assoc, Nat.add_comm n]
    rfl

mutual

theorem counted_json {path : Text} {place : ValuePathState} : ∀ (value : Json) (s : FieldFinder),
    Counted ((if s.nextValueMatches then 1 else 0) +
        value.memberKeys.countP (keyMatches caseFold name mode)) s
      (visitJson (observer caseFold name mode limit) path place value s)
  | .scalar token, s => by
      rw [visitJson, Json.memberKeys]
      cases hmatches : s.nextValueMatches with
      | false =>
        simp only [observer, hmatches]
        exact ⟨rfl, hmatches, rfl⟩
      | true =>
        simp only [observer, hmatches, if_true]
        have hrecord := @counted_record limit s.consumed rfl (walkPath path place) token.kind.type
          none none (some token.bytes.length)
        exact ⟨hrecord.total, hrecord.pending, hrecord.containers⟩
  | .array elements close, s => by
      rw [visitJson, Json.memberKeys]
      exact counted_container (counted_elements elements s.containerStart rfl) _ _ _ _
  | .object members close, s => by
      rw [visitJson, Json.memberKeys]
      exact counted_container (counted_members members s.containerStart rfl) _ _ _ _

theorem counted_elements {path : Text} {depth index : Nat} :
    ∀ (elements : Elements) (s : FieldFinder), s.nextValueMatches = false →
      Counted (elements.memberKeys.countP (keyMatches caseFold name mode)) s
        (visitElements (observer caseFold name mode limit) path depth index elements s)
  | .nil, s, hpending => ⟨rfl, hpending, rfl⟩
  | .cons _ value rest, s, hpending => by
      have hvalue := @counted_json (childPointer path (indexSegment index)) (childState path depth)
        value s
      rw [hpending, if_neg Bool.false_ne_true, Nat.zero_add] at hvalue
      rw [Elements.memberKeys, visitElements, List.countP_append]
      exact hvalue.trans (counted_elements rest _ hvalue.pending)

theorem counted_members {path : Text} {depth : Nat} :
    ∀ (members : Members) (s : FieldFinder), s.nextValueMatches = false →
      Counted (members.memberKeys.countP (keyMatches caseFold name mode)) s
        (visitMembers (observer caseFold name mode limit) path depth members s)
  | .nil, s, hpending => ⟨rfl, hpending, rfl⟩
  | .cons _ key _ value rest, s, hpending => by
      have hvalue := @counted_json (childPointer path key.text) (childState path depth) value
        { s with nextValueMatches := keyMatches caseFold name mode key.text }
      have hrest := @counted_members path depth rest _ hvalue.pending
      have hall := hvalue.trans hrest
      rw [Members.memberKeys, visitMembers, List.countP_cons, List.countP_append]
      refine ⟨hall.total.trans ?_, hall.pending, hall.containers⟩
      dsimp only
      omega

end

end FieldFinder

/-! ## The answer -/

namespace FindJsonPointersResult

/-- Every match is kept or omitted, and the flag says whether one is omitted. -/
structure Honest (found : Nat) (result : FindJsonPointersResult) : Prop where
  total : result.totalMatches = found
  kept : result.fieldMatches.length + result.omittedMatches = found
  truncated : result.truncated = true ↔ result.omittedMatches ≠ 0

variable {found left : Nat} {result answer : FindJsonPointersResult}

theorem Honest.drop (h : result.Honest found) (hne : result.fieldMatches.length = left + 1) :
    Honest found { result with
      fieldMatches := result.fieldMatches.dropLast
      omittedMatches := result.omittedMatches + 1
      truncated := true } := by
  have hkept := h.kept
  refine ⟨h.total, ?_, iff_of_true rfl (Nat.succ_ne_zero _)⟩
  rw [List.length_dropLast]
  dsimp only
  omega

theorem enforce_honest (h : enforceFindResultSize left result = .ok answer)
    (hleft : result.fieldMatches.length = left) (hhonest : result.Honest found) :
    answer.Honest found ∧ answer.serializedBytes ≤ maxJsonResultBytes := by
  induction left generalizing result with
  | zero =>
    rw [enforceFindResultSize] at h
    split at h
    case isTrue => cases h
    case isFalse hfits =>
        cases h
        exact ⟨hhonest, Nat.le_of_not_lt hfits⟩
  | succ left ih =>
    rw [enforceFindResultSize] at h
    split at h
    case isTrue =>
        refine ih h ?_ (hhonest.drop hleft)
        rw [List.length_dropLast, hleft]
        rfl
    case isFalse hfits =>
        cases h
        exact ⟨hhonest, Nat.le_of_not_lt hfits⟩

/-- Without its matches an answer fits. -/
theorem serializedBytes_empty (hmatches : result.fieldMatches = []) (hhonest : result.Honest found)
    (hrevision : result.captureRevision < 10 ^ 8) (hinspected : result.inspectedBytes < 10 ^ 8)
    (htotal : found < 10 ^ 8) : result.serializedBytes ≤ maxJsonResultBytes := by
  have hkept := hhonest.kept
  have homitted : result.omittedMatches < 10 ^ 8 := by omega
  have hfound : result.totalMatches < 10 ^ 8 := hhonest.total.symm ▸ htotal
  have hnumber : ∀ {n}, n < 10 ^ 8 → Text.utf8Len (JsonWriter.number n) ≤ 10 := fun h =>
    (JsonWriter.utf8Len_number_le (k := 8) (by decide) h).trans (by decide)
  have hboolean : ∀ b, Text.utf8Len (JsonWriter.boolean b) ≤ 10 := by decide
  unfold FindJsonPointersResult.serializedBytes FindJsonPointersResult.toJson
  rw [hmatches]
  refine (@JsonWriter.utf8Len_object_le _ 26 10 ?_ ?_).trans ?_
  · simp only [List.map_cons, List.map_nil]
    decide
  · simp only [List.map_cons, List.map_nil, List.forall_mem_cons]
    refine ⟨?_, hnumber hrevision, by decide, hnumber hfound, hnumber homitted,
      hnumber hinspected, hboolean _, hboolean _, fun value hvalue => by cases hvalue⟩
    cases result.status <;> decide
  · simp only [List.length_cons, List.length_nil]
    decide

theorem enforce_answers (hleft : result.fieldMatches.length = left) (hhonest : result.Honest found)
    (hrevision : result.captureRevision < 10 ^ 8) (hinspected : result.inspectedBytes < 10 ^ 8)
    (htotal : found < 10 ^ 8) : ∃ answer, enforceFindResultSize left result = .ok answer := by
  induction left generalizing result with
  | zero =>
    have hfits := serializedBytes_empty (List.length_eq_zero_iff.1 hleft) hhonest hrevision
      hinspected htotal
    rw [enforceFindResultSize, if_neg (Nat.not_lt.2 hfits)]
    exact ⟨result, rfl⟩
  | succ left ih =>
    rw [enforceFindResultSize]
    split
    case isTrue =>
        refine ih ?_ (hhonest.drop hleft) hrevision hinspected
        rw [List.length_dropLast, hleft]
        rfl
    case isFalse => exact ⟨result, rfl⟩

end FindJsonPointersResult

section Find

variable {parser : JsonEventParser} {caseFold : Text → Text} {input : Bytes} {fieldName : Text}
  {mode : FieldMatchMode} {limit : Nat} {document : JsonDocument}

/-- The number of the members of a document whose key is the field. -/
def fieldCount (caseFold : Text → Text) (fieldName : Text) (mode : FieldMatchMode)
    (document : JsonDocument) : Nat :=
  document.root.memberKeys.countP (FieldFinder.keyMatches caseFold fieldName mode)

/-- An admitted find of a document within the limits has an answer, and an answer is honest. -/
theorem find_honest (hparses : Parses parser input document)
    (hname : Text.utf8Len fieldName ≤ maxJsonFieldNameBytes)
    (hresults : validateResultLimit limit = .ok ()) (hvalid : validateJsonInput input = .ok ())
    (hlimit : jsonLimit [] 0 document.root = none) :
    ∃ answer, findJsonPointers parser caseFold input fieldName mode limit = .ok answer ∧
      answer.Honest (fieldCount caseFold fieldName mode document) ∧
      answer.serializedBytes ≤ maxJsonResultBytes := by
  let finder := visitJson (FieldFinder.observer caseFold fieldName mode limit) [] rootState
    document.root {}
  have hstart : FieldFinder.Accounted {} := ⟨Nat.le_refl 0, (fun h => by cases h)⟩
  have haccounted : finder.Accounted :=
    visitJson_keeps FieldFinder.keeps_accounted hstart document.root
  have hcounted := (@FieldFinder.counted_json caseFold fieldName mode limit [] rootState
    document.root {}).total
  have htotal : finder.totalMatches = fieldCount caseFold fieldName mode document := by
    refine hcounted.trans ?_
    rw [Nat.zero_add, if_neg Bool.false_ne_true, Nat.zero_add]
    rfl
  have hsmall : fieldCount caseFold fieldName mode document < 10 ^ 8 := by
    have hkeys := document.root.length_memberKeys_lt []
    have hlocated := located_small hparses hvalid
    have hcount := List.countP_le_length (p := FieldFinder.keyMatches caseFold fieldName mode)
      (l := document.root.memberKeys)
    unfold fieldCount
    omega
  let result : FindJsonPointersResult :=
    { status := if finder.totalMatches = 0 then .noMatch else .matched
      captureRevision := 0
      fieldMatches := finder.fieldMatches
      totalMatches := finder.totalMatches
      omittedMatches := finder.totalMatches - finder.fieldMatches.length
      inspectedBytes := input.length
      sourceTruncated := false
      truncated := finder.outputOmitted || finder.totalMatches - finder.fieldMatches.length ≠ 0 }
  have hhonest : result.Honest (fieldCount caseFold fieldName mode document) := by
    have hle := haccounted.le
    refine ⟨htotal, ?_, ?_⟩
    · rw [← htotal]
      exact Nat.add_sub_cancel' hle
    · show (finder.outputOmitted || decide _) = true ↔ finder.totalMatches - _ ≠ 0
      rw [Bool.or_eq_true, decide_eq_true_eq]
      refine ⟨fun h => h.elim (fun homitted => ?_) id, .inr⟩
      have hlt := haccounted.omitted homitted
      omega
  obtain ⟨answer, hanswer⟩ := FindJsonPointersResult.enforce_answers rfl hhonest
    (show 0 < 10 ^ 8 by decide) (validateJsonInput_small hvalid) hsmall
  refine ⟨answer, ?_, FindJsonPointersResult.enforce_honest hanswer rfl hhonest⟩
  unfold findJsonPointers
  rw [if_neg (Nat.not_lt.2 hname), hresults]
  dsimp only
  rw [walkJson_eq hparses, hvalid, hlimit]
  exact hanswer

end Find

end Fluxcope.Control
