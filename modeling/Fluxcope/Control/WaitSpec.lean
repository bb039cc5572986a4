import Fluxcope.Control.WaitRuns
/-!
# What a wait misses

Once the waiter has read all changes up to some state of a run, the captures
that satisfied it in that state are either superseded by a snapshot it has
inspected, or have left the store before the scan without a change.
-/

namespace Fluxcope.Control

open Fluxcope.Library Fluxcope.Capture

variable {wait : CaptureWait} {w w' : WaitSystem} {history : List CaptureChange}

/-- What is known of a capture that was seen at some state of the run. -/
structure Target (w : WaitSystem) (history : List CaptureChange) (target : CaptureSnapshot)
    (bound : Nat) : Prop where
  started : w.waiter.phase ≠ .idle
  published : bound ≤ history.length
  seen : Seen w.captures target
  chased : Chased w history target.sequence target.revision bound
  pinned : w.waiter.isActive = true → ∀ s ∈ w.waiter.snapshots,
    s.sequence = target.sequence → s.revision = target.revision → s = target

/-! ## One step -/

/-- The invariant after a step, with the changes it has published. -/
def Next (wait : CaptureWait) (w : WaitSystem) (history : List CaptureChange) (w' : WaitSystem) :
    Prop :=
  ∃ news, Waits wait w' (history ++ news) ∧
    ∀ target bound, Target w history target bound → Target w' (history ++ news) target bound

theorem next_captures (h : Waits wait w history) {captures' : CaptureSystem}
    (hconserved : captures'.Conserved) (hgrow : w.captures.RevisionsGrow captures')
    (hfollows : w.captures.StoreFollows captures') :
    Next wait w history { w with captures := captures' } := by
  obtain ⟨news, htracked, hkept⟩ := hfollows history h.tracked
  have hlonger : history.length ≤ (history ++ news).length := by
    rw [List.length_append]
    exact Nat.le_add_right _ _
  refine ⟨news, ⟨hconserved, htracked, ?_, h.fresh, fun hphase => (h.grown hphase).trans hgrow,
      h.taken, fun hactive => ?_, fun outcome hdone => ?_⟩,
    fun target bound ht => ⟨ht.started, ht.published.trans hlonger, ht.seen.grow hgrow,
      ht.chased.kept ht.published hkept, ht.pinned⟩⟩
  · exact h.epoch.trans (Nat.succ_le_succ hlonger)
  · exact (h.watching hactive).kept h.epoch hgrow htracked hkept
  · exact (h.answered outcome hdone).kept hgrow hkept

theorem WaiterStep.active {waiter : Waiter} (hstep : WaiterStep wait w history waiter)
    (hstarted : w.waiter.phase ≠ .idle) : w.waiter.isActive = true := by
  unfold Waiter.isActive
  cases hstep with
  | subscribed hidle => exact absurd hidle hstarted
  | collected cursor rows hphase => rw [hphase]
  | gap hphase => rw [hphase]
  | read hphase => rw [hphase]
  | materialized change hphase => rw [hphase]

theorem Target.waiterStep {target : CaptureSnapshot} {bound : Nat}
    (ht : Target w history target bound) (h : Waits wait w history) {waiter : Waiter}
    (hstep : WaiterStep wait w history waiter) :
    Target (w.withWaiter waiter) history target bound := by
  obtain ⟨-, hidle, -, hsnapshots⟩ := hstep.facts h
  obtain ⟨cell, hcell, hle, hsame⟩ := ht.seen
  refine ⟨hidle, ht.published, ht.seen, ?_, fun _ s hs hsequence hrevision => ?_⟩
  · refine hstep.chased h ht.started (fun c hc => ?_) ht.chased
    obtain rfl := Option.some.inj (hcell.symm.trans hc)
    exact hle
  · rcases hsnapshots s hs with hold | ⟨i, record, hretains, rfl⟩
    · exact ht.pinned (hstep.active ht.started) s hold hsequence hrevision
    · obtain ⟨c, hc, rfl⟩ := hretains.get
      have hi : i = target.sequence := hretains.sequence.symm.trans hsequence
      rw [hi] at hc
      obtain rfl := Option.some.inj (hcell.symm.trans hc)
      exact hsame hretains.stored hrevision.symm

/-- A snapshot of a retained capture is taken now, and the capture has only grown. -/
theorem Waits.takenSince_retained (h : Waits wait w history) (hstarted : w.waiter.phase ≠ .idle)
    {i : CaptureSequence} {record : CaptureRecord} (hretains : w.captures.Retains i record) :
    TakenSince w.origin (record.snapshot .metadataOnly) := by
  intro cell hcell
  have hsequence : (record.snapshot .metadataOnly).sequence = i := hretains.sequence
  rw [hsequence] at hcell
  obtain ⟨cell', hcell', hle⟩ := h.grown hstarted i cell hcell
  obtain ⟨c, hc, rfl⟩ := hretains.get
  obtain rfl := Option.some.inj (hc.symm.trans hcell')
  exact hle.le

theorem next_waiter (h : Waits wait w history) {waiter : Waiter}
    (hstep : WaiterStep wait w history waiter) (hphase : w.waiter.phase ≠ .idle) :
    Next wait w history (w.withWaiter waiter) := by
  obtain ⟨hepoch, hidle, hanswer, hsnapshots⟩ := hstep.facts h
  refine ⟨[], ?_, fun target bound ht => ?_⟩
  · rw [List.append_nil]
    refine ⟨h.conserved, h.tracked, hepoch, fun hphase' => absurd hphase' hidle,
      fun _ => h.grown hphase, fun _ s hs => ?_, hstep.watching h hphase, hanswer⟩
    rcases hsnapshots s hs with hold | ⟨i, record, hretains, rfl⟩
    · exact h.taken hphase s hold
    · exact h.takenSince_retained hphase hretains
  · rw [List.append_nil]
    exact ht.waiterStep h hstep

theorem next_subscribed (h : Waits wait w history) (hphase : w.waiter.phase = .idle) :
    Next wait w history
      { captures := w.captures, waiter := .subscribed w.captures, origin := w.captures } := by
  obtain ⟨hepoch, -⟩ :=
    ((@WaiterStep.subscribed wait _ history) hphase (h.fresh hphase)).facts h
  refine ⟨[], ?_, fun target bound ht => absurd hphase ht.started⟩
  rw [List.append_nil]
  exact ⟨h.conserved, h.tracked, hepoch, nofun, fun _ => .refl w.captures,
    fun _ s hs => absurd hs List.not_mem_nil, fun _ => watching_subscribed h.tracked,
    fun outcome hdone => by cases hdone⟩

/-- The deadline passes, or the request is cancelled. -/
theorem next_finish (h : Waits wait w history) (hactive : w.waiter.isActive = true)
    {outcome : WaitOutcome} (hanswer : ∀ w, Answer wait w history outcome) :
    Next wait w history (w.withWaiter (w.waiter.finish outcome)) := by
  have hstarted : w.waiter.phase ≠ .idle := by
    intro hidle
    rw [Waiter.isActive, hidle] at hactive
    cases hactive
  refine ⟨[], ?_, fun target bound ht => ?_⟩
  · rw [List.append_nil]
    refine ⟨h.conserved, h.tracked, h.epoch, (fun hidle => by cases hidle),
      fun _ => h.grown hstarted, fun _ s hs => ?_, (fun hphase => by cases hphase),
      fun other hdone => ?_⟩
    · refine h.taken hstarted s (List.mem_append_left _ ?_)
      simpa [Waiter.snapshots, Waiter.finish] using hs
    · cases hdone
      exact hanswer _
  · rw [List.append_nil]
    exact ⟨(fun hidle => by cases hidle), ht.published, ht.seen, .answered outcome rfl,
      fun hactive => by cases hactive⟩

theorem subscribedAt_idle (hphase : w.waiter.phase = .idle) : w.subscribedAt = w.captures := by
  rw [WaitSystem.subscribedAt, hphase]

theorem subscribedAt_of_ne (hphase : w.waiter.phase ≠ .idle) : w.subscribedAt = w.origin := by
  unfold WaitSystem.subscribedAt
  split
  · rename_i hidle
    exact absurd hidle hphase
  all_goals rfl

theorem Waits.step (h : Waits wait w history) {action : WaitAction}
    (hstep : w.step wait action = some w') : Next wait w history w' := by
  cases action with
  | capture action =>
    simp only [WaitSystem.step] at hstep
    split at hstep
    · rename_i horderly
      obtain ⟨captures', hcaptures, rfl⟩ := Option.map_eq_some_iff.1 hstep
      exact next_captures h (h.conserved.step hcaptures)
        (CaptureSystem.step_revisions h.conserved hcaptures)
        (CaptureSystem.storeFollows_step h.conserved horderly hcaptures)
    · cases hstep
  | storeNext =>
    obtain ⟨captures', hcaptures, rfl⟩ := Option.map_eq_some_iff.1 hstep
    obtain ⟨actions, hrun⟩ := CaptureSystem.run_of_storeNext hcaptures
    exact next_captures h (run_invariant (fun _ _ _ h hstep => h.step hstep) h.conserved hrun)
      (CaptureSystem.run_revisions h.conserved hrun)
      (CaptureSystem.storeFollows_storeNext h.conserved hcaptures)
  | waiter =>
    obtain ⟨waiter, hwaiter, rfl⟩ := Option.map_eq_some_iff.1 hstep
    have hcase := h.waiterStep hwaiter
    by_cases hphase : w.waiter.phase = .idle
    · cases hcase with
      | subscribed _ hfresh =>
        rw [subscribedAt_idle hphase]
        exact next_subscribed h hphase
      | collected _ _ hother => rw [hphase] at hother; cases hother
      | gap hother => rw [hphase] at hother; cases hother
      | read hother => rw [hphase] at hother; cases hother
      | materialized _ hother => rw [hphase] at hother; cases hother
    · rw [subscribedAt_of_ne hphase]
      exact next_waiter h hcase hphase
  | deadline =>
    simp only [WaitSystem.step] at hstep
    split at hstep
    · rename_i hactive
      obtain rfl := Option.some.inj hstep
      exact next_finish h hactive fun _ => .deadline
    · cases hstep
  | cancel =>
    simp only [WaitSystem.step] at hstep
    split at hstep
    · rename_i hactive
      obtain rfl := Option.some.inj hstep
      exact next_finish h hactive fun _ => .cancelled
    · cases hstep

/-! ## Runs -/

theorem Next.trans {v : WaitSystem} (h : Next wait w history v)
    (hnext : ∀ history', Waits wait v history' → Next wait v history' w') :
    Next wait w history w' := by
  obtain ⟨news, hv, htarget⟩ := h
  obtain ⟨more, hw', htarget'⟩ := hnext _ hv
  rw [List.append_assoc] at hw' htarget'
  exact ⟨news ++ more, hw', fun target bound ht => htarget' target bound (htarget target bound ht)⟩

theorem Next.refl (h : Waits wait w history) : Next wait w history w := by
  refine ⟨[], ?_, fun target bound ht => ?_⟩
  · rw [List.append_nil]
    exact h
  · rw [List.append_nil]
    exact ht

theorem Waits.run (h : Waits wait w history) {actions : List WaitAction}
    (hrun : run (WaitSystem.step wait) w actions = some w') : Next wait w history w' :=
  run_invariant (I := Next wait w history)
    (fun _ _ _ hnext hstep => hnext.trans fun _ hv => hv.step hstep) (.refl h) hrun

/-! ## A waiter that has read on -/

/-- The waiter has read every change up to this epoch and asks for the next one. -/
def WaitsBeyond (w : WaitSystem) (epoch : Nat) : Prop :=
  w.waiter.phase = .consuming ∧ epoch < w.waiter.changes.nextEpoch

theorem WaitsBeyond.unread_nil {epoch : Nat} (h : WaitsBeyond w epoch) :
    w.waiter.unread (history.take epoch) = [] := by
  have hbeyond := h.2
  unfold Waiter.unread
  rw [List.drop_eq_nil_of_le]
  rw [List.length_take]
  omega

theorem Watching.seen (hw : Watching wait w history) :
    ∀ s ∈ w.waiter.snapshots, Seen w.captures s := by
  intro s hs
  unfold Waiter.snapshots at hs
  rcases List.mem_append.1 hs with hs | hs
  · exact hw.memory.seen s hs
  · split at hs
    · rename_i cursor rows hphase
      exact (hw.batch cursor rows hphase).1.seen s hs
    · cases hs

/-- A capture that is retained once the waiter has subscribed. -/
theorem Waits.target (h : Waits wait w history) (hstarted : w.waiter.phase ≠ .idle)
    {i : CaptureSequence} {record : CaptureRecord}
    (hretains : w.captures.Retains i record) :
    Target w history (record.snapshot .metadataOnly) history.length := by
  have hsequence : (record.snapshot .metadataOnly).sequence = i := hretains.sequence
  obtain ⟨cell, hcell, hsame⟩ := hretains.get
  refine ⟨hstarted, Nat.le_refl _, seen_of_retains hretains, ?_, fun hactive s hs habout hrevision => ?_⟩
  · rw [hsequence]
    by_cases hactive : w.waiter.isActive = true
    · exact hsame ▸ (h.watching hactive).chased i hretains.mem cell hcell
    · cases hphase : w.waiter.phase with
      | done outcome => exact .answered outcome hphase
      | idle => exact absurd hphase hstarted
      | collecting cursor rows => simp [Waiter.isActive, hphase] at hactive
      | consuming => simp [Waiter.isActive, hphase] at hactive
      | materializing change => simp [Waiter.isActive, hphase] at hactive
  · obtain ⟨c, hc, -, hthere⟩ := (h.watching hactive).seen s hs
    rw [habout, hsequence] at hc
    obtain rfl := Option.some.inj (hcell.symm.trans hc)
    rw [hsame] at hthere
    exact (hthere hretains.stored hrevision).symm

/-- With nothing left to read, every capture the waiter remembers is retained. -/
theorem Waits.remembered (h : Waits wait w history)
    (hbeyond : WaitsBeyond w w.captures.feed.epoch) {i : CaptureSequence}
    {state : WaitSequenceState} (hstate : w.waiter.sequences i = some state) :
    i ∈ w.captures.store.captures := by
  have hactive : w.waiter.isActive = true := by rw [Waiter.isActive, hbeyond.1]
  have hunread : w.waiter.unread history = [] := by
    have hnil := @WaitsBeyond.unread_nil w history _ hbeyond
    rw [h.tracked.represents.epoch, List.take_length] at hnil
    exact hnil
  rcases (h.watching hactive).memory.member i state hstate with hmem | ⟨change, hchange, -⟩
  · exact hmem
  · rw [hunread] at hchange
    cases hchange

/-- What a wait guarantees at `w` about the captures of an earlier state `u` and
about its own answer. -/
structure Guarantee (wait : CaptureWait) (u w : WaitSystem) : Prop where
  satisfied : u.waiter.phase ≠ .idle → WaitsBeyond w u.captures.feed.epoch →
    ∀ i record, u.captures.captureRecord i = some record →
      wait.satisfied (record.snapshot .metadataOnly) = true →
        (∃ s ∈ w.waiter.inspected, s.sequence = i ∧ record.revision < s.revision ∧
            wait.satisfied s = false) ∨
          HasLeft w.captures i ∧ UnchangedSince w.origin i record.revision ∧
            ∀ s ∈ w.waiter.inspected, s.sequence ≠ i
  answered : ∀ outcome, w.waiter.phase = .done outcome →
    ∃ history, CaptureChangeFeed.Represents w.captures.feed history ∧
      Answer wait w history outcome
  gap : w.waiter.phase = .consuming →
    w.waiter.changes.nextEpoch + retainedChanges ≤ w.captures.feed.epoch →
      ∃ oldest, w.waiter.step wait w.captures = some (w.waiter.finish (.failed (feedGap
        (.gap w.waiter.changes.nextEpoch oldest))))
  removed : w.waiter.phase = .consuming → ∀ change changes,
    w.captures.feed.tryRead w.waiter.changes = .ok (some change, changes) →
      change.kind.isRemoval = true → ∀ s,
        CaptureWait.lastInspected w.waiter.inspected change.sequence = some s →
          wait.inspectWaitSnapshot s = .pending →
            w.waiter.step wait w.captures =
              some ({ w.waiter with changes }.finish (.failed (removedWhileWaiting change)))
  pending : WaitsBeyond w w.captures.feed.epoch → ∀ i s,
    CaptureWait.lastInspected w.waiter.inspected i = some s →
      wait.inspectWaitSnapshot s = .pending → i ∈ w.captures.store.captures
  remembered : WaitsBeyond w w.captures.feed.epoch →
    ∀ i, w.waiter.sequences i ≠ none → i ∈ w.captures.store.captures
  waiting : w.waiter.isActive = true → w.waiter.step wait w.captures = none →
    WaitsBeyond w w.captures.feed.epoch

def sampleRequest : RequestCaptureInput :=
  { method := [71], originalUri := [97], effectiveUri := [97], localPath := none, headers := [] }

end Fluxcope.Control
