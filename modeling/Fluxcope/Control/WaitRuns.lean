import Fluxcope.Control.WaitReads
/-!
# Runs of the waiter

The invariant of a waiter at any point of a run, and what a step keeps of what
was known before it.
-/

namespace Fluxcope.Control

open Fluxcope.Library Fluxcope.Capture

/-- Why the waiter has answered. -/
inductive Answer (wait : CaptureWait) (w : WaitSystem) (history : List CaptureChange) :
    WaitOutcome → Prop
  | matched (s : CaptureSnapshot) (hseen : Seen w.captures s)
      (hsatisfied : wait.satisfied s = true) : Answer wait w history (.matched (.fromSnapshot s))
  | gap (oldest : Nat) (hbehind : w.waiter.changes.nextEpoch < oldest)
      (hdropped : oldest + retainedChanges ≤ history.length + 1) :
      Answer wait w history (.failed (feedGap (.gap w.waiter.changes.nextEpoch oldest)))
  | removed (change : CaptureChange) (hchange : change ∈ history)
      (hkind : change.kind.isRemoval = true) (s : CaptureSnapshot)
      (hs : s ∈ w.waiter.inspected) (hsequence : s.sequence = change.sequence)
      (hpending : wait.inspectWaitSnapshot s = .pending) :
      Answer wait w history (.failed (removedWhileWaiting change))
  | lost (change : CaptureChange) (hchange : change ∈ history)
      (hkind : change.kind.isRemoval = false) (hleft : HasLeft w.captures change.sequence) :
      Answer wait w history (.failed (notMaterialized change))
  | deadline : Answer wait w history .unmatched
  | cancelled : Answer wait w history (.failed waitCancelled)

/-- All snapshots the waiter has taken. -/
def Waiter.snapshots (w : Waiter) : List CaptureSnapshot :=
  w.inspected ++ match w.phase with | .collecting _ rows => rows | _ => []

/-- The snapshot is not older than the capture was at `origin`. -/
def TakenSince (origin : CaptureSystem) (s : CaptureSnapshot) : Prop :=
  ∀ cell, origin.cells[s.sequence]? = some cell → cell.record.revision ≤ s.revision

structure Waits (wait : CaptureWait) (w : WaitSystem) (history : List CaptureChange) : Prop where
  conserved : w.captures.Conserved
  tracked : w.captures.Tracked w.captures.store.captures history
  epoch : w.waiter.changes.nextEpoch ≤ history.length + 1
  fresh : w.waiter.phase = .idle → w.waiter = {}
  grown : w.waiter.phase ≠ .idle → w.origin.RevisionsGrow w.captures
  taken : w.waiter.phase ≠ .idle → ∀ s ∈ w.waiter.snapshots, TakenSince w.origin s
  watching : w.waiter.isActive = true → Watching wait w history
  answered : ∀ outcome, w.waiter.phase = .done outcome → Answer wait w history outcome

variable {wait : CaptureWait} {w w' : WaitSystem} {history : List CaptureChange}

theorem Answer.kept {news : List CaptureChange} {captures' : CaptureSystem}
    {outcome : WaitOutcome} (h : Answer wait w history outcome)
    (hgrow : w.captures.RevisionsGrow captures')
    (hkept : w.captures.Kept w.captures.store.captures captures' captures'.store.captures news) :
    Answer wait { w with captures := captures' } (history ++ news) outcome := by
  cases h with
  | matched s hseen hsatisfied => exact .matched s (hseen.grow hgrow) hsatisfied
  | gap oldest hbehind hdropped =>
    refine .gap oldest hbehind (hdropped.trans ?_)
    rw [List.length_append]
    omega
  | removed change hchange hkind s hs hsequence hpending =>
    exact .removed change (List.mem_append_left _ hchange) hkind s hs hsequence hpending
  | lost change hchange hkind hleft =>
    exact .lost change (List.mem_append_left _ hchange) hkind (hleft.kept hkept)
  | deadline => exact .deadline
  | cancelled => exact .cancelled

/-! ## Steps of the waiter -/

inductive WaiterStep (wait : CaptureWait) (w : WaitSystem) (history : List CaptureChange) :
    Waiter → Prop
  | subscribed (hphase : w.waiter.phase = .idle) (hfresh : w.waiter = {}) :
      WaiterStep wait w history (.subscribed w.captures)
  | collected (cursor : Option CaptureSequence) (rows : List CaptureSnapshot)
      (hphase : w.waiter.phase = .collecting cursor rows) :
      WaiterStep wait w history (w.waiter.collect wait w.captures cursor rows)
  | gap (hphase : w.waiter.phase = .consuming)
      (hdropped : w.waiter.changes.nextEpoch ≤ history.length - retainedChanges) :
      WaiterStep wait w history (w.waiter.finish (.failed (feedGap
        (.gap w.waiter.changes.nextEpoch (history.length - retainedChanges + 1)))))
  | read (hphase : w.waiter.phase = .consuming) (change : CaptureChange)
      (hchange : history[w.waiter.changes.nextEpoch - 1]? = some change) (waiter : Waiter)
      (htaken : ChangeTaken wait w change waiter) : WaiterStep wait w history waiter
  | materialized (change : CaptureChange) (hphase : w.waiter.phase = .materializing change)
      (waiter : Waiter) (hmaterialized : Materialized wait w change waiter) :
      WaiterStep wait w history waiter

theorem Waits.waiterStep (h : Waits wait w history) {waiter : Waiter}
    (hstep : w.waiter.step wait w.captures = some waiter) : WaiterStep wait w history waiter := by
  cases hphase : w.waiter.phase with
  | idle =>
    have hfresh := h.fresh hphase
    unfold Waiter.step at hstep
    rw [hfresh] at hstep
    obtain rfl := Option.some.inj hstep
    exact .subscribed hphase hfresh
  | collecting cursor rows =>
    unfold Waiter.step at hstep
    simp only [hphase] at hstep
    obtain rfl := Option.some.inj hstep
    exact .collected cursor rows hphase
  | consuming =>
    have hw := h.watching (by rw [Waiter.isActive, hphase])
    cases step_consuming h.tracked.represents hw.nextEpoch hphase hstep with
    | gap hdropped => exact .gap hphase hdropped
    | change change hchange =>
      exact .read hphase change hchange _ (handleChange_spec hw.memory change)
  | materializing change =>
    unfold Waiter.step at hstep
    simp only [hphase] at hstep
    obtain rfl := Option.some.inj hstep
    exact .materialized change hphase _ (materialize_spec h.tracked change)
  | done outcome =>
    unfold Waiter.step at hstep
    simp only [hphase] at hstep
    cases hstep

/-- What the end of a batch keeps, and what it may answer. -/
theorem BatchEnd.facts {rows : List CaptureSnapshot} {waiter : Waiter}
    (hend : BatchEnd wait w.captures w.waiter rows waiter) :
    waiter.changes = w.waiter.changes ∧ waiter.phase ≠ .idle ∧
      (∀ outcome, waiter.phase = .done outcome →
        ∃ s ∈ rows, wait.satisfied s = true ∧ outcome = .matched (.fromSnapshot s)) ∧
      ∀ s ∈ waiter.snapshots, s ∈ w.waiter.inspected ++ rows := by
  cases hend with
  | empty hrows =>
    subst hrows
    exact ⟨rfl, (fun h => by cases h), (fun _ hdone => by cases hdone), fun s hs => hs⟩
  | matched t ht hsatisfied =>
    refine ⟨rfl, (fun h => by cases h), ?_, fun s hs => ?_⟩
    · rintro _ ⟨⟩
      exact ⟨t, ht, hsatisfied, rfl⟩
    · exact List.mem_append_left _ (by simpa [Waiter.snapshots, Waiter.finish] using hs)
  | unmatched sequences hrows hbatch =>
    refine ⟨rfl, ?_, fun outcome hdone => ?_, fun s hs => ?_⟩
    · simp only [nextPhase]
      split <;> exact fun h => by cases h
    · simp only [nextPhase] at hdone
      split at hdone <;> cases hdone
    · simp only [Waiter.snapshots, nextPhase] at hs
      split at hs
      · rename_i hcollecting
        split at hcollecting
        · cases hcollecting
        · cases hcollecting
          simpa using hs
      · simpa using hs

theorem Waits.collectFacts (h : Waits wait w history) {cursor : Option CaptureSequence}
    {rows : List CaptureSnapshot} (hphase : w.waiter.phase = .collecting cursor rows) :
    (w.waiter.collect wait w.captures cursor rows).changes = w.waiter.changes ∧
      (w.waiter.collect wait w.captures cursor rows).phase ≠ .idle ∧
      (∀ outcome, (w.waiter.collect wait w.captures cursor rows).phase = .done outcome →
        ∃ s, Seen w.captures s ∧ wait.satisfied s = true ∧
          outcome = .matched (.fromSnapshot s)) ∧
      ∀ s ∈ (w.waiter.collect wait w.captures cursor rows).snapshots,
        s ∈ w.waiter.snapshots ∨
          ∃ i record, w.captures.Retains i record ∧ s = record.snapshot .metadataOnly := by
  have hold : w.waiter.snapshots = w.waiter.inspected ++ rows := by
    rw [Waiter.snapshots, hphase]
  obtain ⟨hrows, -⟩ :=
    (h.watching (by rw [Waiter.isActive, hphase])).batch cursor rows hphase
  rcases collect_cases wait w.captures w.waiter cursor rows with
    ⟨heq, -⟩ | ⟨record, hrecord, hcase⟩
  · obtain ⟨hchanges, hidle, hdone, hsnapshots⟩ :=
      (finishBatch_spec wait w.captures w.waiter rows).facts
    rw [heq]
    refine ⟨hchanges, hidle, fun outcome houtcome => ?_, fun s hs => .inl ?_⟩
    · obtain ⟨s, hs, hmatch⟩ := hdone outcome houtcome
      exact ⟨s, hrows.seen s hs, hmatch⟩
    · rw [hold]
      exact hsnapshots s hs
  · have hfound := h.tracked.captureAtOrBefore_spec cursor
    rw [hrecord] at hfound
    have hrows' := hrows.snoc hfound.1
    have hnew : ∀ s ∈ w.waiter.inspected ++ (rows ++ [record.snapshot .metadataOnly]),
        s ∈ w.waiter.snapshots ∨
          ∃ i record, w.captures.Retains i record ∧ s = record.snapshot .metadataOnly := by
      intro s hs
      rw [← List.append_assoc, ← hold] at hs
      refine (List.mem_append.1 hs).imp_right fun hs => ?_
      exact ⟨_, record, hfound.1, List.mem_singleton.1 hs⟩
    rcases hcase with ⟨-, heq⟩ | ⟨older, -, heq⟩
    · obtain ⟨hchanges, hidle, hdone, hsnapshots⟩ :=
        (finishBatch_spec wait w.captures w.waiter
          (rows ++ [record.snapshot .metadataOnly])).facts
      rw [heq]
      refine ⟨hchanges, hidle, fun outcome houtcome => ?_, fun s hs => hnew s (hsnapshots s hs)⟩
      obtain ⟨s, hs, hmatch⟩ := hdone outcome houtcome
      exact ⟨s, hrows'.seen s hs, hmatch⟩
    · rw [heq]
      exact ⟨rfl, (fun h => by cases h), (fun _ hdone => by cases hdone), fun s hs => hnew s hs⟩

/-- A waiter that goes on keeps watching. -/
theorem WaiterStep.watching (h : Waits wait w history) {waiter : Waiter}
    (hstep : WaiterStep wait w history waiter) (hphase : w.waiter.phase ≠ .idle)
    (hactive : waiter.isActive = true) : Watching wait (w.withWaiter waiter) history := by
  cases hstep with
  | subscribed hidle => exact absurd hidle hphase
  | collected cursor rows hcollecting =>
    have hw := h.watching (by rw [Waiter.isActive, hcollecting])
    exact watching_collect hw h.tracked hcollecting
  | gap hconsuming hdropped => cases hactive
  | read hconsuming change hchange waiter htaken =>
    have hw := h.watching (by rw [Waiter.isActive, hconsuming])
    exact watching_change hw hconsuming hchange htaken hactive
  | materialized change hmaterializing waiter hmaterialized =>
    have hw := h.watching (by rw [Waiter.isActive, hmaterializing])
    exact watching_materialize hw hmaterializing hmaterialized hactive

theorem WaiterStep.chased (h : Waits wait w history) {waiter : Waiter}
    (hstep : WaiterStep wait w history waiter) (hphase : w.waiter.phase ≠ .idle)
    {i : CaptureSequence} {revision bound : Nat}
    (hgrown : ∀ cell, w.captures.cells[i]? = some cell → revision ≤ cell.record.revision)
    (hchased : Chased w history i revision bound) :
    Chased (w.withWaiter waiter) history i revision bound := by
  cases hstep with
  | subscribed hidle => exact absurd hidle hphase
  | collected cursor rows hcollecting =>
    have hw := h.watching (by rw [Waiter.isActive, hcollecting])
    exact chased_collect hw h.tracked hcollecting hgrown hchased
  | gap hconsuming hdropped => exact .answered _ rfl
  | read hconsuming change hchange waiter htaken =>
    have hw := h.watching (by rw [Waiter.isActive, hconsuming])
    exact chased_change hw.nextEpoch hconsuming hchange htaken hchased
  | materialized change hmaterializing waiter hmaterialized =>
    exact chased_materialize hmaterializing hgrown hmaterialized hchased

/-- What a step of the waiter takes, answers and reads. -/
theorem WaiterStep.facts (h : Waits wait w history) {waiter : Waiter}
    (hstep : WaiterStep wait w history waiter) :
    waiter.changes.nextEpoch ≤ history.length + 1 ∧ waiter.phase ≠ .idle ∧
      (∀ outcome, waiter.phase = .done outcome →
        Answer wait (w.withWaiter waiter) history outcome) ∧
      ∀ s ∈ waiter.snapshots, s ∈ w.waiter.snapshots ∨
        ∃ i record, w.captures.Retains i record ∧ s = record.snapshot .metadataOnly := by
  cases hstep with
  | subscribed hphase hfresh =>
    refine ⟨?_, (fun h => by cases h), (fun _ hdone => by cases hdone), fun s hs => ?_⟩
    · rw [← h.tracked.represents.epoch]
      exact Nat.le_refl _
    · cases hs
  | collected cursor rows hphase =>
    obtain ⟨hchanges, hidle, hdone, hsnapshots⟩ := h.collectFacts hphase
    refine ⟨by rw [hchanges]; exact h.epoch, hidle, fun outcome houtcome => ?_, hsnapshots⟩
    obtain ⟨s, hseen, hsatisfied, rfl⟩ := hdone outcome houtcome
    exact .matched s hseen hsatisfied
  | gap hphase hdropped =>
    have hnext := (h.watching (by rw [Waiter.isActive, hphase])).nextEpoch
    refine ⟨h.epoch, (fun h => by cases h), ?_, fun s hs => .inl ?_⟩
    · rintro _ ⟨⟩
      refine .gap (w := w.withWaiter _) (history.length - retainedChanges + 1) ?_ ?_
      · exact Nat.lt_succ_of_le hdropped
      · omega
    · simpa [Waiter.snapshots, Waiter.finish, hphase] using hs
  | read hphase change hchange waiter htaken =>
    have hold : w.waiter.snapshots = w.waiter.inspected := by
      rw [Waiter.snapshots, hphase, List.append_nil]
    have hnext := (h.watching (by rw [Waiter.isActive, hphase])).nextEpoch
    have hepoch : w.waiter.changes.nextEpoch + 1 ≤ history.length + 1 := by
      obtain ⟨hlt, -⟩ := List.getElem?_eq_some_iff.1 hchange
      omega
    rw [hold]
    cases htaken with
    | lost outcome hdone hchanges houtcome hkind hpending hinspected =>
      subst houtcome
      refine ⟨hchanges ▸ hepoch, by rw [hdone]; exact (fun h => by cases h), fun other hother => ?_,
        fun s hs => .inl ?_⟩
      · rw [hdone] at hother
        cases hother
        obtain ⟨s, hs, hsequence, hinspect⟩ := hpending
        exact .removed change (List.mem_of_getElem? hchange) hkind s
          (show s ∈ waiter.inspected from hinspected ▸ hs) hsequence hinspect
      · rw [← hinspected]
        simpa [Waiter.snapshots, hdone] using hs
    | removed hkind =>
      refine ⟨hepoch, fun hidle => absurd (hphase.symm.trans hidle) (fun h => by cases h),
        fun _ hdone => absurd (hphase.symm.trans hdone) (fun h => by cases h), fun s hs => .inl ?_⟩
      simpa [Waiter.snapshots, Waiter.advanced, hphase] using hs
    | known hkind t ht hsequence hrevision =>
      refine ⟨hepoch, fun hidle => absurd (hphase.symm.trans hidle) (fun h => by cases h),
        fun _ hdone => absurd (hphase.symm.trans hdone) (fun h => by cases h), fun s hs => .inl ?_⟩
      simpa [Waiter.snapshots, Waiter.advanced, hphase] using hs
    | materializing hkind =>
      refine ⟨hepoch, (fun h => by cases h), (fun _ hdone => by cases hdone), fun s hs => .inl ?_⟩
      simpa [Waiter.snapshots, Waiter.advanced] using hs
  | materialized change hphase waiter hmaterialized =>
    have hold : w.waiter.snapshots = w.waiter.inspected := by
      rw [Waiter.snapshots, hphase, List.append_nil]
    obtain ⟨hchange, hkind⟩ :=
      (h.watching (by rw [Waiter.isActive, hphase])).change change hphase
    rw [hold]
    cases hmaterialized with
    | lost hnone =>
      refine ⟨h.epoch, (fun h => by cases h), ?_, fun s hs => .inl ?_⟩
      · rintro _ ⟨⟩
        refine .lost change hchange hkind (h.tracked.known change hchange fun hretained => ?_)
        obtain ⟨record, hrecord, -⟩ := h.tracked.retains hretained
        rw [hnone] at hrecord
        cases hrecord
      · simpa [Waiter.snapshots, Waiter.finish] using hs
    | matched record hretains hsatisfied =>
      refine ⟨h.epoch, (fun h => by cases h), ?_, fun s hs => .inl ?_⟩
      · rintro _ ⟨⟩
        exact .matched _ (seen_of_retains hretains) hsatisfied
      · simpa [Waiter.snapshots, Waiter.finish] using hs
    | unmatched record hretains sequences hbatch =>
      refine ⟨h.epoch, (fun h => by cases h), (fun _ hdone => by cases hdone), fun s hs => ?_⟩
      have hs : s ∈ w.waiter.inspected ++ [record.snapshot .metadataOnly] := by
        simpa [Waiter.snapshots] using hs
      refine (List.mem_append.1 hs).imp_right fun hs => ?_
      exact ⟨_, record, hretains, List.mem_singleton.1 hs⟩

end Fluxcope.Control
