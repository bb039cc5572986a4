import Fluxcope.Control.WaitSteps
/-!
# Reading the feed

After the scan the waiter reads one change at a time.  A change that is not
newer than what the waiter knows is skipped, any other one is looked at.
-/

namespace Fluxcope.Control

open Fluxcope.Library Fluxcope.Capture

variable {wait : CaptureWait} {w : WaitSystem} {history : List CaptureChange}
  {i : CaptureSequence} {revision bound : Nat}

/-! ## Subscribing -/

/-- A waiter that has just subscribed. -/
def Waiter.subscribed (captures : CaptureSystem) : Waiter :=
  { changes := captures.feed.subscribe, phase := .collecting none [] }

theorem watching_subscribed (htracked : w.captures.Tracked w.captures.store.captures history) :
    Watching wait
      { captures := w.captures, waiter := .subscribed w.captures, origin := w.captures }
      history := by
  have hunread : (Waiter.subscribed w.captures).unread history = [] := by
    show history.drop w.captures.feed.epoch = []
    rw [htracked.represents.epoch, List.drop_length]
  refine ⟨Nat.succ_pos _, ⟨?_, ?_, ?_, ?_, ?_⟩, ?_, nofun, fun i hi cell hcell => ?_⟩
  · intro i state hstate
    cases hstate
  · intro s hs
    cases hs
  · intro s hs
    cases hs
  · intro i state hstate
    cases hstate
  · intro i s hlast
    cases hlast
  · rintro _ _ ⟨⟩
    exact ⟨rowsKnown_nil, cursorAt_nil none⟩
  · exact .ahead none [] rfl hi rfl ⟨hi, cell, hcell, rfl⟩

/-! ## Consuming -/

/-- The waiter after one more change. -/
def Waiter.advanced (w : Waiter) : Waiter :=
  { w with changes := { nextEpoch := w.changes.nextEpoch + 1 } }

/-- How a read ends: the ring has dropped the next change, or here it is. -/
inductive ReadOutcome (w : WaitSystem) (history : List CaptureChange) (wait : CaptureWait) :
    Waiter → Prop
  | gap (hdropped : w.waiter.changes.nextEpoch ≤ history.length - retainedChanges) :
      ReadOutcome w history wait (w.waiter.finish (.failed (feedGap
        (.gap w.waiter.changes.nextEpoch (history.length - retainedChanges + 1)))))
  | change (change : CaptureChange)
      (hchange : history[w.waiter.changes.nextEpoch - 1]? = some change) :
      ReadOutcome w history wait
        (w.waiter.advanced.handleChange change)

theorem step_consuming (hrepresents : CaptureChangeFeed.Represents w.captures.feed history)
    (hnext : 0 < w.waiter.changes.nextEpoch) (hphase : w.waiter.phase = .consuming)
    {waiter : Waiter} (hstep : w.waiter.step wait w.captures = some waiter) :
    ReadOutcome w history wait waiter := by
  unfold Waiter.step at hstep
  rw [hphase] at hstep
  simp only [CaptureChangeFeed.tryRead_spec hrepresents hnext] at hstep
  by_cases hread : history.length < w.waiter.changes.nextEpoch
  · rw [if_pos hread] at hstep
    cases hstep
  rw [if_neg hread] at hstep
  by_cases hdropped : w.waiter.changes.nextEpoch ≤ history.length - retainedChanges
  · rw [if_pos hdropped] at hstep
    obtain rfl := Option.some.inj hstep
    exact .gap hdropped
  rw [if_neg hdropped] at hstep
  have hin : w.waiter.changes.nextEpoch - 1 < history.length := by omega
  rw [List.getElem?_eq_getElem hin] at hstep
  have hadvanced : w.waiter.advanced =
      { phase := .consuming, changes := { nextEpoch := w.waiter.changes.nextEpoch + 1 },
        sequences := w.waiter.sequences, inspected := w.waiter.inspected } := by
    rw [Waiter.advanced, hphase]
  obtain rfl := Option.some.inj hstep
  rw [← hadvanced]
  exact .change _ (List.getElem?_eq_getElem hin)

/-- The change that is read is the first one that was not. -/
theorem unread_eq_cons {waiter : Waiter} (hnext : 0 < waiter.changes.nextEpoch)
    {change : CaptureChange} (hchange : history[waiter.changes.nextEpoch - 1]? = some change) :
    waiter.unread history = change ::
      waiter.advanced.unread history := by
  obtain ⟨hlt, rfl⟩ := List.getElem?_eq_some_iff.1 hchange
  have hdrop : waiter.changes.nextEpoch - 1 + 1 = waiter.changes.nextEpoch + 1 - 1 := by omega
  show history.drop (waiter.changes.nextEpoch - 1) = _
  rw [List.drop_eq_getElem_cons hlt, hdrop]
  rfl

/-- How the waiter takes a change. -/
inductive ChangeTaken (wait : CaptureWait) (w : WaitSystem) (change : CaptureChange) :
    Waiter → Prop
  | lost (outcome : WaitOutcome) {waiter : Waiter} (hphase : waiter.phase = .done outcome)
      (hchanges : waiter.changes.nextEpoch = w.waiter.changes.nextEpoch + 1)
      (houtcome : outcome = .failed (removedWhileWaiting change))
      (hkind : change.kind.isRemoval = true)
      (hpending : ∃ s ∈ w.waiter.inspected, s.sequence = change.sequence ∧
        wait.inspectWaitSnapshot s = .pending)
      (hinspected : waiter.inspected = w.waiter.inspected) : ChangeTaken wait w change waiter
  | removed (hkind : change.kind.isRemoval = true)
      (hidle : (w.waiter.sequences change.sequence).any (·.pending) = false) :
      ChangeTaken wait w change { w.waiter.advanced with
        sequences := w.waiter.sequences.set change.sequence none }
  | known (hkind : change.kind.isRemoval = false) (s : CaptureSnapshot)
      (hs : s ∈ w.waiter.inspected) (hsequence : s.sequence = change.sequence)
      (hrevision : change.revision ≤ s.revision) : ChangeTaken wait w change
      w.waiter.advanced
  | materializing (hkind : change.kind.isRemoval = false) : ChangeTaken wait w change
      { w.waiter.advanced with
        phase := .materializing change }

theorem handleChange_spec {unread : List CaptureChange}
    (hmemory : Memory wait w.captures unread w.waiter.sequences w.waiter.inspected)
    (change : CaptureChange) :
    ChangeTaken wait w change
      (w.waiter.advanced.handleChange change) := by
  have hremoval : change.kind.isRemoval = true → ChangeTaken wait w change
      (if (w.waiter.sequences change.sequence).any (·.pending) then
        w.waiter.advanced.finish
          (.failed (removedWhileWaiting change))
      else { w.waiter.advanced with
        sequences := w.waiter.sequences.set change.sequence none }) := by
    intro hkind
    split
    · rename_i hpending
      obtain ⟨state, hstate, hpending⟩ := (Option.any_eq_true _ _).1 hpending
      obtain ⟨s, hs, hsequence, rfl⟩ := hmemory.states _ _ hstate
      exact .lost _ rfl rfl rfl hkind ⟨s, hs, hsequence, of_decide_eq_true hpending⟩ rfl
    · rename_i hidle
      exact .removed hkind (Bool.eq_false_iff.2 hidle)
  have hupdate : change.kind.isRemoval = false → ChangeTaken wait w change
      (if (w.waiter.sequences change.sequence).any fun state => change.revision ≤ state.revision
        then w.waiter.advanced
      else { w.waiter.advanced with
        phase := .materializing change }) := by
    intro hkind
    split
    · rename_i hknown
      obtain ⟨state, hstate, hrevision⟩ := (Option.any_eq_true _ _).1 hknown
      obtain ⟨s, hs, hsequence, rfl⟩ := hmemory.states _ _ hstate
      exact .known hkind s hs hsequence (of_decide_eq_true hrevision)
    · exact .materializing hkind
  unfold Waiter.handleChange
  cases hkind : change.kind with
  | retentionEviction => exact hremoval (by rw [hkind]; rfl)
  | explicitDelete => exact hremoval (by rw [hkind]; rfl)
  | clear => exact hremoval (by rw [hkind]; rfl)
  | admitted => exact hupdate (by rw [hkind]; rfl)
  | recordUpdated => exact hupdate (by rw [hkind]; rfl)

theorem mem_unread_take {waiter : Waiter} (hnext : 0 < waiter.changes.nextEpoch)
    {change other : CaptureChange}
    (hchange : history[waiter.changes.nextEpoch - 1]? = some change)
    (hother : other ∈ waiter.unread (history.take bound)) :
    other = change ∨ other ∈
      waiter.advanced.unread
        (history.take bound) := by
  by_cases hlt : waiter.changes.nextEpoch - 1 < bound
  · have htake : (history.take bound)[waiter.changes.nextEpoch - 1]? = some change := by
      rw [List.getElem?_take_of_lt hlt]
      exact hchange
    rw [unread_eq_cons hnext htake] at hother
    exact List.mem_cons.1 hother
  · unfold Waiter.unread at hother
    rw [List.drop_eq_nil_of_le (by rw [List.length_take]; omega)] at hother
    cases hother

theorem chased_change (hnext : 0 < w.waiter.changes.nextEpoch)
    (hphase : w.waiter.phase = .consuming) {change : CaptureChange}
    (hchange : history[w.waiter.changes.nextEpoch - 1]? = some change) {waiter : Waiter}
    (htaken : ChangeTaken wait w change waiter) (h : Chased w history i revision bound) :
    Chased (w.withWaiter waiter) history i revision bound := by
  cases h with
  | inspected s hs hi hrevision =>
    cases htaken with
    | lost outcome hdone => exact .answered outcome hdone
    | removed hkind => exact .inspected s hs hi hrevision
    | known hkind => exact .inspected s hs hi hrevision
    | materializing hkind => exact .inspected s hs hi hrevision
  | unread other hother hi hrevision hkind =>
    have hcases := mem_unread_take hnext hchange hother
    cases htaken with
    | lost outcome hdone => exact .answered outcome hdone
    | removed hremoval =>
      rcases hcases with rfl | hrest
      · rw [hkind] at hremoval
        cases hremoval
      · exact .unread other hrest hi hrevision hkind
    | known _ s hs hsequence hknown =>
      rcases hcases with rfl | hrest
      · exact .inspected s hs (hsequence.trans hi) (hrevision.trans hknown)
      · exact .unread other hrest hi hrevision hkind
    | materializing _ =>
      rcases hcases with rfl | hrest
      · exact .materializing other rfl hi
      · exact .unread other hrest hi hrevision hkind
  | materializing _ hother => rw [hphase] at hother; cases hother
  | ahead cursor rows hother => rw [hphase] at hother; cases hother
  | collected cursor rows s hother => rw [hphase] at hother; cases hother
  | gone hleft hsame => exact .gone hleft hsame
  | answered outcome hother => rw [hphase] at hother; cases hother

theorem watching_change (hw : Watching wait w history) (hphase : w.waiter.phase = .consuming)
    {change : CaptureChange}
    (hchange : history[w.waiter.changes.nextEpoch - 1]? = some change) {waiter : Waiter}
    (htaken : ChangeTaken wait w change waiter) (hactive : waiter.isActive = true) :
    Watching wait (w.withWaiter waiter) history := by
  have hchased : ∀ i ∈ w.captures.store.captures, ∀ cell, w.captures.cells[i]? = some cell →
      Chased (w.withWaiter waiter) history i cell.record.revision history.length :=
    fun i hi cell hcell => chased_change hw.nextEpoch hphase hchange htaken (hw.chased i hi cell hcell)
  have hmemory := hw.memory
  rw [unread_eq_cons hw.nextEpoch hchange] at hmemory
  cases htaken with
  | lost outcome hdone => simp [Waiter.isActive, hdone] at hactive
  | removed hkind hidle =>
    exact ⟨Nat.succ_pos _, hmemory.readRemoval hidle,
      fun _ _ hother => absurd (hphase.symm.trans hother) nofun,
      fun _ hother => absurd (hphase.symm.trans hother) nofun, hchased⟩
  | known hkind s hs hsequence hrevision =>
    exact ⟨Nat.succ_pos _, hmemory.readUpdate hkind,
      fun _ _ hother => absurd (hphase.symm.trans hother) nofun,
      fun _ hother => absurd (hphase.symm.trans hother) nofun, hchased⟩
  | materializing hkind =>
    refine ⟨Nat.succ_pos _, hmemory.readUpdate hkind, nofun, ?_, hchased⟩
    rintro _ ⟨⟩
    exact ⟨List.mem_of_getElem? hchange, hkind⟩

/-! ## Materializing -/

/-- What becomes of a changed capture. -/
inductive Materialized (wait : CaptureWait) (w : WaitSystem) (change : CaptureChange) :
    Waiter → Prop
  | lost (hnone : w.captures.captureRecord change.sequence = none) :
      Materialized wait w change (w.waiter.finish (.failed (notMaterialized change)))
  | matched (record : CaptureRecord) (hretains : w.captures.Retains change.sequence record)
      (hsatisfied : wait.satisfied (record.snapshot .metadataOnly) = true) :
      Materialized wait w change
        (w.waiter.finish (.matched (.fromSnapshot (record.snapshot .metadataOnly))))
  | unmatched (record : CaptureRecord) (hretains : w.captures.Retains change.sequence record)
      (sequences : WaitSequences)
      (hbatch : wait.inspectWaitBatch [record.snapshot .metadataOnly] w.waiter.sequences =
        (none, sequences)) :
      Materialized wait w change
        { w.waiter with
          sequences
          inspected := w.waiter.inspected ++ [record.snapshot .metadataOnly]
          phase := .consuming }

theorem materialize_spec (htracked : w.captures.Tracked w.captures.store.captures history)
    (change : CaptureChange) :
    Materialized wait w change (w.waiter.materialize wait w.captures change) := by
  unfold Waiter.materialize
  cases hrecord : w.captures.captureRecord change.sequence with
  | none => exact .lost hrecord
  | some record =>
    have hretains := htracked.retains_of_captureRecord hrecord
    have hsequence : (record.snapshot .metadataOnly).sequence = change.sequence :=
      hretains.sequence
    have hbatch : wait.inspectWaitSnapshot (record.snapshot .metadataOnly) ≠ .matched →
        wait.inspectWaitBatch [record.snapshot .metadataOnly] w.waiter.sequences =
          (none, w.waiter.sequences.set change.sequence
            (some (wait.sequenceState (record.snapshot .metadataOnly)))) := by
      intro hunmatched
      rw [← hsequence]
      unfold CaptureWait.inspectWaitBatch
      cases hinspect : wait.inspectWaitSnapshot (record.snapshot .metadataOnly) with
      | matched => exact absurd hinspect hunmatched
      | pending => rfl
      | ignore => rfl
    dsimp only
    cases hinspect : wait.inspectWaitSnapshot (record.snapshot .metadataOnly) with
    | matched => exact .matched record hretains (CaptureWait.inspect_eq_matched.1 hinspect)
    | pending => exact .unmatched record hretains _ (hbatch (by simp [hinspect]))
    | ignore => exact .unmatched record hretains _ (hbatch (by simp [hinspect]))

theorem chased_materialize {change : CaptureChange}
    (hphase : w.waiter.phase = .materializing change)
    (hgrown : ∀ cell, w.captures.cells[i]? = some cell → revision ≤ cell.record.revision)
    {waiter : Waiter} (hmaterialized : Materialized wait w change waiter)
    (h : Chased w history i revision bound) :
    Chased (w.withWaiter waiter) history i revision bound := by
  cases hmaterialized with
  | lost hnone => exact .answered _ rfl
  | matched record hretains hsatisfied => exact .answered _ rfl
  | unmatched record hretains sequences hbatch =>
    cases h with
    | inspected s hs hi hrevision =>
      exact .inspected s (List.mem_append_left _ hs) hi hrevision
    | unread other hother hi hrevision hkind => exact .unread other hother hi hrevision hkind
    | materializing other hother hi =>
      rw [hphase] at hother
      cases hother
      subst hi
      obtain ⟨cell, hcell, hsame⟩ := hretains.get
      have hle := hgrown cell hcell
      rw [hsame] at hle
      exact .inspected _ (List.mem_append_right _ (List.mem_singleton_self _))
        hretains.sequence hle
    | ahead cursor rows hother => rw [hphase] at hother; cases hother
    | collected cursor rows s hother => rw [hphase] at hother; cases hother
    | gone hleft hsame => exact .gone hleft hsame
    | answered outcome hother => rw [hphase] at hother; cases hother

theorem watching_materialize (hw : Watching wait w history) {change : CaptureChange}
    (hphase : w.waiter.phase = .materializing change) {waiter : Waiter}
    (hmaterialized : Materialized wait w change waiter) (hactive : waiter.isActive = true) :
    Watching wait (w.withWaiter waiter) history := by
  have hchased : ∀ i ∈ w.captures.store.captures, ∀ cell, w.captures.cells[i]? = some cell →
      Chased (w.withWaiter waiter) history i cell.record.revision history.length := by
    intro i hi cell hcell
    refine chased_materialize hphase (fun c hc => ?_) hmaterialized (hw.chased i hi cell hcell)
    obtain rfl := Option.some.inj (hcell.symm.trans hc)
    exact Nat.le_refl _
  cases hmaterialized with
  | lost hnone => cases hactive
  | matched record hretains hsatisfied => cases hactive
  | unmatched record hretains sequences hbatch =>
    have hrow : RowsKnown w.captures (w.waiter.unread history)
        [record.snapshot .metadataOnly] :=
      rowsKnown_nil.snoc hretains
    exact ⟨hw.nextEpoch, hw.memory.batch hrow hbatch, nofun, nofun, hchased⟩

end Fluxcope.Control
