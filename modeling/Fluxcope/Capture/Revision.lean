import Fluxcope.Capture.Terminal
/-!
# Revisions identify what a viewer sees

As long as a record is in the store, or has not reached it yet, each visible
change makes the next revision and tells the feed once.
-/

namespace Fluxcope.Capture

open Fluxcope.Library Fluxcope.Library.Utf8

namespace RecordScope

/-- How an operation of a handle can end: without effect; without a new revision,
on a record that has left the store; or in the next revision. -/
inductive Outcome (before : RecordScope) : RecordScope → Prop
  | ineffective : Outcome before before
  | unnoticed (after : RecordScope) (removed : before.record.captureDisabled = true)
      (disabled : after.record.captureDisabled = true)
      (revision : after.record.revision = before.record.revision)
      (sequence : after.record.sequence = before.record.sequence)
      (feedBound : after.record.feedBound = before.record.feedBound)
      (feed : after.feed = before.feed) : Outcome before after
  | bumped (next : RecordScope)
      (disabled : next.record.captureDisabled = before.record.captureDisabled)
      (revision : next.record.revision = before.record.revision)
      (sequence : next.record.sequence = before.record.sequence)
      (feedBound : next.record.feedBound = before.record.feedBound)
      (feed : next.feed = before.feed) : Outcome before next.bumpRevision

theorem outcome_setResponse {scope : RecordScope} (h : scope.Sound) (policy : CapturePolicy)
    (input : ResponseCaptureInput) (instant : Nat) :
    Outcome scope (CaptureHandle.setResponseAt scope policy input instant) := by
  obtain ⟨response, truncated, charged, -, -, heq⟩ := setResponse_spec h policy input instant
  rw [heq]
  split
  · exact .bumped _ rfl rfl rfl rfl rfl
  · exact .ineffective

theorem outcome_append {scope : RecordScope} (h : scope.Sound) (side : BodySide)
    (bytes : Bytes) (perBodyLimit : Nat) :
    Outcome scope (scope.appendBody side bytes perBodyLimit).2 := by
  obtain ⟨previewLimit, heq⟩ := append_spec h side bytes perBodyLimit
  rw [heq]
  split
  · exact .ineffective
  split
  · rename_i hremoved
    exact .unnoticed _ hremoved hremoved rfl rfl rfl rfl
  · exact .bumped _ rfl rfl rfl rfl rfl

theorem outcome_finish (scope : RecordScope) (side : BodySide) (terminal : BodyTerminal)
    (instant : Nat) : Outcome scope (CaptureHandle.finish scope side terminal instant) := by
  rw [finish_spec]
  split
  · exact .ineffective
  · exact .bumped _ rfl rfl rfl rfl rfl

end RecordScope

/-- From `r` to `r'` the revision never falls, and if it stays, so does the snapshot,
unless the record has left the store. -/
structure CaptureRecord.RevisionLe (r r' : CaptureRecord) : Prop where
  le : r.revision ≤ r'.revision
  disabled : r.captureDisabled = true → r'.captureDisabled = true
  snapshot : r'.captureDisabled = false → r'.revision = r.revision →
    ∀ mode, r'.snapshot mode = r.snapshot mode

namespace CaptureRecord.RevisionLe

theorem refl (r : CaptureRecord) : RevisionLe r r := ⟨le_rfl, id, fun _ _ _ => rfl⟩

theorem trans {r r' r'' : CaptureRecord} (h : RevisionLe r r') (h' : RevisionLe r' r'') :
    RevisionLe r r'' := by
  refine ⟨h.le.trans h'.le, h'.disabled ∘ h.disabled, fun hstored heq mode => ?_⟩
  have hstored' : r'.captureDisabled = false := by
    by_contra hremoved
    rw [h'.disabled (by simpa using hremoved)] at hstored
    cases hstored
  have hle := h.le
  have hle' := h'.le
  exact (h'.snapshot hstored (by omega) mode).trans (h.snapshot hstored' (by omega) mode)

theorem of_sameContent {r r' : CaptureRecord} (h : r.SameContent r') : RevisionLe r r' :=
  ⟨h.revision.ge, h.disabled, fun _ _ => h.snapshot⟩

theorem of_outcome {scope scope' : RecordScope} (h : scope.Outcome scope') :
    RevisionLe scope.record scope'.record := by
  cases h with
  | ineffective => exact refl _
  | unnoticed _ removed disabled revision =>
    exact ⟨revision.ge, fun _ => disabled, fun hstored => by simp [disabled] at hstored⟩
  | bumped next disabled revision sequence feedBound feed =>
    rw [RecordScope.bumpRevision_record]
    refine ⟨?_, fun hremoved => disabled.trans hremoved, fun _ heq => ?_⟩
    · simp only
      omega
    · simp only at heq
      omega

end CaptureRecord.RevisionLe

namespace CaptureSystem

theorem handleOp_outcome {s : CaptureSystem} {action : CaptureAction} {i : CaptureSequence}
    {f : RecordScope → RecordScope} {scope : RecordScope}
    (hop : s.handleOp action = some (i, f)) (hsound : scope.Sound) :
    scope.Outcome (f scope) := by
  cases action with
  | setResponse j input instant =>
    obtain ⟨-, rfl⟩ := Prod.mk.inj (Option.some.inj hop)
    exact RecordScope.outcome_setResponse hsound s.policy input instant
  | append j side bytes =>
    obtain ⟨-, rfl⟩ := Prod.mk.inj (Option.some.inj hop)
    exact RecordScope.outcome_append hsound side bytes _
  | finish j side terminal instant =>
    obtain ⟨-, rfl⟩ := Prod.mk.inj (Option.some.inj hop)
    exact RecordScope.outcome_finish scope side terminal instant
  | _ => simp [handleOp] at hop

/-- A later revision of every capture, in the order of `RevisionLe`. -/
def RevisionsGrow (s t : CaptureSystem) : Prop :=
  ∀ (i : Nat) (c : CaptureCell), s.cells[i]? = some c →
    ∃ c', t.cells[i]? = some c' ∧ c.record.RevisionLe c'.record

theorem RevisionsGrow.refl (s : CaptureSystem) : RevisionsGrow s s :=
  fun _ c hc => ⟨c, hc, .refl _⟩

theorem RevisionsGrow.trans {s t u : CaptureSystem} (h : RevisionsGrow s t)
    (hnext : RevisionsGrow t u) : RevisionsGrow s u := by
  intro i c hc
  obtain ⟨c', hc', hle⟩ := h i c hc
  obtain ⟨c'', hc'', hle'⟩ := hnext i c' hc'
  exact ⟨c'', hc'', hle.trans hle'⟩

theorem step_revisions {s t : CaptureSystem} {action : CaptureAction} (h : Conserved s)
    (hstep : s.step action = some t) : RevisionsGrow s t := by
  intro i c hc
  obtain ⟨c', hc', ⟨hsame, -⟩ | ⟨f, hop, halive, hsame, -⟩⟩ := step_record hstep hc
  · exact ⟨c', hc', .of_sameContent hsame⟩
  · have hsound := h.toBalanced.sound hc (h.toBalanced.leaseLive_of_alive hc halive)
    have houtcome := handleOp_outcome hop hsound
    exact ⟨c', hc', (CaptureRecord.RevisionLe.of_outcome houtcome).trans (.of_sameContent hsame)⟩

theorem run_revisions {s t : CaptureSystem} {actions : List CaptureAction} (h : Conserved s)
    (hrun : run step s actions = some t) : RevisionsGrow s t := by
  have hfinal := run_invariant (I := fun u => Conserved u ∧ RevisionsGrow s u)
    (fun _ _ _ hu hstep => ⟨hu.1.step hstep, hu.2.trans (step_revisions hu.1 hstep)⟩)
    ⟨h, .refl s⟩ hrun
  exact hfinal.2

/-- No revision is greater than `bound`. -/
def RevisionsWithin (bound : Nat) (s : CaptureSystem) : Prop :=
  ∀ (i : Nat) (c : CaptureCell), s.cells[i]? = some c → c.record.revision ≤ bound

theorem step_revisionsWithin {s t : CaptureSystem} {action : CaptureAction} {bound : Nat}
    (h : Conserved s) (hs : RevisionsWithin bound s) (hstep : s.step action = some t) :
    RevisionsWithin (bound + 1) t := by
  refine step_forall hstep (fun r r' hsame hle => hsame.revision.trans_le hle) ?_ ?_
    fun i c hc => Nat.le_succ_of_le (hs i c hc)
  · rintro cell ⟨_, _, _, _, _, _, hrecord⟩
    rw [hrecord]
    exact Nat.zero_le _
  · intro i cell f hop hcell halive _
    have houtcome := handleOp_outcome hop
      (h.toBalanced.sound hcell (h.toBalanced.leaseLive_of_alive hcell halive))
    have hle : cell.record.revision ≤ bound := hs i cell hcell
    generalize f (s.scope cell) = after at houtcome
    cases houtcome with
    | ineffective => exact Nat.le_succ_of_le hle
    | unnoticed _ removed disabled revision => exact revision.trans_le (Nat.le_succ_of_le hle)
    | bumped next disabled revision sequence feedBound feed =>
      rw [RecordScope.bumpRevision_record]
      exact Nat.succ_le_succ (revision.trans_le hle)

theorem run_revisionsWithin {s t : CaptureSystem} {actions : List CaptureAction} {bound : Nat}
    (h : Conserved s) (hs : RevisionsWithin bound s) (hrun : run step s actions = some t) :
    RevisionsWithin (bound + actions.length) t := by
  induction actions generalizing s bound with
  | nil =>
    obtain rfl : s = t := by simpa using hrun
    exact hs
  | cons action actions ih =>
    obtain ⟨u, hstep, hrest⟩ := run_cons_eq_some.1 hrun
    have hwithin := ih (h.step hstep) (step_revisionsWithin h hs hstep) hrest
    rwa [Nat.add_assoc, Nat.add_comm 1] at hwithin

/-- A visible change of a record that is not removed makes the next revision and, if
the record is bound, is told to the feed once, with that revision. -/
def ChangesPublished (s t : CaptureSystem) : Prop :=
  ∀ (i : Nat) (c c' : CaptureCell), s.cells[i]? = some c → t.cells[i]? = some c' →
    c'.record.captureDisabled = false →
    (∃ mode, c'.record.snapshot mode ≠ c.record.snapshot mode) →
    c'.record.revision = c.record.revision + 1 ∧
      t.feed = if c.record.feedBound then
          s.feed.publish c.record.sequence c'.record.revision .recordUpdated
        else s.feed

theorem step_changes {s t : CaptureSystem} {action : CaptureAction} (h : Conserved s)
    (hstep : s.step action = some t) : ChangesPublished s t := by
  rintro i c c' hc hc' hstored ⟨mode, hchanged⟩
  obtain ⟨_, hget, hcase⟩ := step_record hstep hc
  obtain rfl := Option.some.inj (hget.symm.trans hc')
  rcases hcase with ⟨hsame, -⟩ | ⟨f, hop, halive, hsame, hfeed⟩
  · exact absurd (hsame.snapshot mode) hchanged
  · have hsound := h.toBalanced.sound hc (h.toBalanced.leaseLive_of_alive hc halive)
    have houtcome := handleOp_outcome hop hsound
    have hrevision := hsame.revision
    generalize f (s.scope c) = after at houtcome hsame hfeed hrevision
    cases houtcome with
    | ineffective => exact absurd (hsame.snapshot mode) hchanged
    | unnoticed _ removed disabled revision =>
      rw [hsame.disabled disabled] at hstored
      cases hstored
    | bumped next disabled revision sequence feedBound feed =>
      rw [RecordScope.bumpRevision_record] at hrevision
      rw [RecordScope.bumpRevision_feed, revision, sequence, feedBound, feed] at hfeed
      have hnext : _ = c.record.revision + 1 := hrevision.trans (congrArg (· + 1) revision)
      exact ⟨hnext, by rw [hnext]; exact hfeed⟩

end CaptureSystem

end Fluxcope.Capture
