import Fluxcope.Control.WaitForCapture
/-!
# What the waiter remembers

The states of the waiter belong to snapshots it has inspected without a match.
A capture with a state is still retained, or its removal is still unread.
-/

namespace Fluxcope.Capture.CaptureSystem

open Fluxcope.Library

/-! ## Looking up captures -/

/-- A retained capture and its record. -/
structure Retains (s : CaptureSystem) (i : CaptureSequence) (record : CaptureRecord) : Prop where
  mem : i ∈ s.store.captures
  get : ∃ cell, s.cells[i]? = some cell ∧ cell.record = record
  sequence : record.sequence = i
  stored : record.captureDisabled = false

variable {s : CaptureSystem} {history : List CaptureChange}

theorem Tracked.retains (h : Tracked s s.store.captures history) {i : CaptureSequence}
    (hi : i ∈ s.store.captures) :
    ∃ record, s.captureRecord i = some record ∧ Retains s i record := by
  obtain ⟨cell, hcell, hstored, -⟩ := h.announced i hi
  refine ⟨cell.record, ?_, hi, ⟨cell, hcell, rfl⟩, h.sequence i cell hcell, hstored⟩
  rw [captureRecord, if_pos hi, hcell, Option.map_some]

theorem Tracked.retains_of_captureRecord (h : Tracked s s.store.captures history)
    {i : CaptureSequence} {record : CaptureRecord} (hrecord : s.captureRecord i = some record) :
    Retains s i record := by
  have hi : i ∈ s.store.captures := by
    by_contra hout
    rw [captureRecord, if_neg hout] at hrecord
    cases hrecord
  obtain ⟨_, hsome, hretains⟩ := h.retains hi
  obtain rfl := Option.some.inj (hrecord.symm.trans hsome)
  exact hretains

/-- The capture found is retained, within the bound, and none within the bound is newer. -/
theorem Tracked.captureAtOrBefore_spec (h : Tracked s s.store.captures history)
    (bound : Option CaptureSequence) :
    match s.captureAtOrBefore bound with
    | none => ∀ i ∈ s.store.captures, ¬ bound.all (fun b => i ≤ b) = true
    | some record => Retains s record.sequence record ∧
        bound.all (fun b => record.sequence ≤ b) = true ∧
        ∀ i ∈ s.store.captures, bound.all (fun b => i ≤ b) = true → i ≤ record.sequence := by
  unfold captureAtOrBefore
  cases hlast : (s.store.captures.filter fun i => bound.all fun b => i ≤ b).getLast? with
  | none =>
    rw [List.getLast?_eq_none_iff, List.filter_eq_nil_iff] at hlast
    exact hlast
  | some last =>
    have hmem := List.mem_of_getLast? hlast
    obtain ⟨hstored, hwithin⟩ := List.mem_filter.1 hmem
    obtain ⟨record, hrecord, hretains⟩ := h.retains hstored
    rw [Option.bind_some, hrecord]
    dsimp only
    rw [hretains.sequence]
    refine ⟨hretains, hwithin, fun i hi hbound => ?_⟩
    obtain ⟨init, hinit⟩ := List.getLast?_eq_some_iff.1 hlast
    have hi' : i ∈ s.store.captures.filter fun i => bound.all fun b => i ≤ b :=
      List.mem_filter.2 ⟨hi, hbound⟩
    have hsorted := h.sorted.filter fun i => bound.all fun b => i ≤ b
    rw [hinit] at hi' hsorted
    rcases List.mem_append.1 hi' with hi' | hi'
    · exact Nat.le_of_lt ((List.pairwise_append.1 hsorted).2.2 i hi' last List.mem_cons_self)
    · exact Nat.le_of_eq (List.mem_singleton.1 hi')

end Fluxcope.Capture.CaptureSystem

namespace Fluxcope.Control

open Fluxcope.Library Fluxcope.Capture

/-! ## Snapshots -/

/-- The snapshot was taken of this capture, now or at an older revision. -/
def Seen (captures : CaptureSystem) (s : CaptureSnapshot) : Prop :=
  ∃ cell, captures.cells[s.sequence]? = some cell ∧ s.revision ≤ cell.record.revision ∧
    (cell.record.captureDisabled = false → s.revision = cell.record.revision →
      cell.record.snapshot .metadataOnly = s)

theorem seen_of_retains {captures : CaptureSystem} {i : CaptureSequence}
    {record : CaptureRecord} (h : captures.Retains i record) :
    Seen captures (record.snapshot .metadataOnly) := by
  obtain ⟨cell, hcell, hrecord⟩ := h.get
  have hsequence : (record.snapshot .metadataOnly).sequence = i := h.sequence
  refine ⟨cell, by rw [hsequence]; exact hcell, ?_, fun _ _ => by rw [hrecord]⟩
  rw [hrecord]
  exact Nat.le_refl _

theorem Seen.grow {captures captures' : CaptureSystem} {s : CaptureSnapshot}
    (h : Seen captures s) (hgrow : captures.RevisionsGrow captures') : Seen captures' s := by
  obtain ⟨cell, hcell, hle, hsame⟩ := h
  obtain ⟨cell', hcell', hrevision⟩ := hgrow _ cell hcell
  refine ⟨cell', hcell', hle.trans hrevision.le, fun hstored heq => ?_⟩
  have hrevisionLe := hrevision.le
  have hold : cell.record.captureDisabled = false := by
    by_contra hremoved
    rw [hrevision.disabled (by simpa using hremoved)] at hstored
    cases hstored
  rw [hrevision.snapshot hstored (by omega)]
  exact hsame hold (by omega)

/-! ## Inspection -/

namespace CaptureWait

variable {wait : CaptureWait}

theorem inspect_eq_matched {s : CaptureSnapshot} :
    wait.inspectWaitSnapshot s = .matched ↔ wait.satisfied s = true := by
  unfold inspectWaitSnapshot satisfied
  cases wait.isMatch s <;> cases wait.milestone.isSatisfiedBy s <;>
    cases CaptureMilestone.exchangeTerminal.isSatisfiedBy s <;> simp

theorem unsatisfied_of_inspect {s : CaptureSnapshot}
    (h : wait.inspectWaitSnapshot s ≠ .matched) : wait.satisfied s = false := by
  simpa using mt inspect_eq_matched.2 h

/-- A batch ends with its first match, or with the states of all its rows. -/
def BatchOutcome (wait : CaptureWait) (rows : List CaptureSnapshot) (states : WaitSequences) :
    Option CompactCapture × WaitSequences → Prop
  | (some capture, _) => ∃ s ∈ rows, wait.satisfied s = true ∧ capture = .fromSnapshot s
  | (none, states') => (∀ s ∈ rows, wait.satisfied s = false) ∧
      ∀ i state, states' i = some state → states i = some state ∨
        ∃ s ∈ rows, s.sequence = i ∧ state = wait.sequenceState s

theorem inspectWaitBatch_spec (rows : List CaptureSnapshot) (states : WaitSequences) :
    wait.BatchOutcome rows states (wait.inspectWaitBatch rows states) := by
  induction rows generalizing states with
  | nil => exact ⟨by simp, fun i state hstate => .inl hstate⟩
  | cons s rows ih =>
    have hrest := ih (states.set s.sequence (some (wait.sequenceState s)))
    have hnext : wait.satisfied s = false → wait.BatchOutcome (s :: rows) states
        (wait.inspectWaitBatch rows
          (states.set s.sequence (some (wait.sequenceState s)))) := by
      intro hunsatisfied
      rcases hresult : wait.inspectWaitBatch rows
        (states.set s.sequence (some (wait.sequenceState s))) with ⟨_ | capture, states'⟩
      · rw [hresult] at hrest
        obtain ⟨hnone, hstates⟩ := hrest
        refine ⟨List.forall_mem_cons.2 ⟨hunsatisfied, hnone⟩, fun i state hstate => ?_⟩
        rcases hstates i state hstate with hold | ⟨t, ht, habout⟩
        · unfold WaitSequences.set at hold
          split at hold
          · rename_i hi
            exact .inr ⟨s, List.mem_cons_self, hi.symm, (Option.some.inj hold).symm⟩
          · exact .inl hold
        · exact .inr ⟨t, List.mem_cons_of_mem s ht, habout⟩
      · rw [hresult] at hrest
        obtain ⟨t, ht, hmatch⟩ := hrest
        exact ⟨t, List.mem_cons_of_mem s ht, hmatch⟩
    unfold inspectWaitBatch
    cases hinspect : wait.inspectWaitSnapshot s with
    | matched => exact ⟨s, List.mem_cons_self, inspect_eq_matched.1 hinspect, rfl⟩
    | pending => exact hnext (unsatisfied_of_inspect (by simp [hinspect]))
    | ignore => exact hnext (unsatisfied_of_inspect (by simp [hinspect]))

/-- The last snapshot of a capture in a list of them. -/
def lastInspected (inspected : List CaptureSnapshot) (i : CaptureSequence) :
    Option CaptureSnapshot :=
  (inspected.filter fun s => s.sequence = i).getLast?

theorem lastInspected_concat (inspected : List CaptureSnapshot) (s : CaptureSnapshot)
    (i : CaptureSequence) :
    lastInspected (inspected ++ [s]) i =
      if s.sequence = i then some s else lastInspected inspected i := by
  unfold lastInspected
  rw [List.filter_append]
  split
  · rename_i hi
    rw [List.filter_cons_of_pos (by simpa using hi), List.filter_nil, List.getLast?_concat]
  · rename_i hi
    rw [List.filter_cons_of_neg (by simpa using hi), List.filter_nil, List.append_nil]

/-- Captures whose last snapshot is pending are remembered as pending. -/
def Remembers (wait : CaptureWait) (states : WaitSequences) (inspected : List CaptureSnapshot) :
    Prop :=
  ∀ i s, lastInspected inspected i = some s → wait.inspectWaitSnapshot s = .pending →
    states i = some (wait.sequenceState s)

theorem Remembers.set {states : WaitSequences} {inspected : List CaptureSnapshot}
    (h : wait.Remembers states inspected) (s : CaptureSnapshot) :
    wait.Remembers (states.set s.sequence (some (wait.sequenceState s))) (inspected ++ [s]) := by
  intro i t hlast hpending
  rw [lastInspected_concat] at hlast
  unfold WaitSequences.set
  split at hlast
  · rename_i hi
    obtain rfl := Option.some.inj hlast
    rw [if_pos hi.symm]
  · rename_i hi
    rw [if_neg fun heq => hi heq.symm]
    exact h i t hlast hpending

/-- A batch without a match is remembered row by row. -/
theorem Remembers.batch {rows : List CaptureSnapshot} {states states' : WaitSequences}
    {inspected : List CaptureSnapshot} (h : wait.Remembers states inspected)
    (hbatch : wait.inspectWaitBatch rows states = (none, states')) :
    wait.Remembers states' (inspected ++ rows) := by
  induction rows generalizing states inspected with
  | nil =>
    cases hbatch
    rw [List.append_nil]
    exact h
  | cons s rows ih =>
    unfold inspectWaitBatch at hbatch
    rw [List.append_cons]
    cases hinspect : wait.inspectWaitSnapshot s with
    | matched => simp only [hinspect, Prod.mk.injEq, reduceCtorEq, false_and] at hbatch
    | pending =>
      simp only [hinspect] at hbatch
      exact ih (h.set s) hbatch
    | ignore =>
      simp only [hinspect] at hbatch
      exact ih (h.set s) hbatch

end CaptureWait

/-! ## The memory of the waiter -/

/-- The removal of the capture has been published and not been read. -/
def RemovalUnread (unread : List CaptureChange) (i : CaptureSequence) : Prop :=
  ∃ change ∈ unread, change.sequence = i ∧ change.kind.isRemoval = true

/-- The snapshots are those of captures that were retained when they were taken. -/
structure RowsKnown (captures : CaptureSystem) (unread : List CaptureChange)
    (rows : List CaptureSnapshot) : Prop where
  seen : ∀ s ∈ rows, Seen captures s
  member : ∀ s ∈ rows, s.sequence ∈ captures.store.captures ∨ RemovalUnread unread s.sequence

structure Memory (wait : CaptureWait) (captures : CaptureSystem) (unread : List CaptureChange)
    (sequences : WaitSequences) (inspected : List CaptureSnapshot) : Prop where
  states : ∀ i state, sequences i = some state →
    ∃ s ∈ inspected, s.sequence = i ∧ state = wait.sequenceState s
  unsatisfied : ∀ s ∈ inspected, wait.satisfied s = false
  seen : ∀ s ∈ inspected, Seen captures s
  member : ∀ i state, sequences i = some state →
    i ∈ captures.store.captures ∨ RemovalUnread unread i
  remembers : wait.Remembers sequences inspected

variable {wait : CaptureWait} {captures captures' : CaptureSystem}
  {unread news : List CaptureChange} {sequences : WaitSequences}
  {inspected rows : List CaptureSnapshot}

theorem RemovalUnread.append_left {i : CaptureSequence} (h : RemovalUnread unread i) :
    RemovalUnread (unread ++ news) i := by
  obtain ⟨change, hchange, habout⟩ := h
  exact ⟨change, List.mem_append_left _ hchange, habout⟩

/-- A capture that leaves the store is told to have left. -/
theorem member_kept (hkept : captures.Kept captures.store.captures captures'
      captures'.store.captures news) {i : CaptureSequence}
    (h : i ∈ captures.store.captures ∨ RemovalUnread unread i) :
    i ∈ captures'.store.captures ∨ RemovalUnread (unread ++ news) i := by
  rcases h with hi | hremoval
  · by_cases hi' : i ∈ captures'.store.captures
    · exact .inl hi'
    · obtain ⟨⟨change, hchange, habout⟩, -⟩ := hkept.removed i hi hi'
      exact .inr ⟨change, List.mem_append_right _ hchange, habout⟩
  · exact .inr hremoval.append_left

theorem Memory.kept (h : Memory wait captures unread sequences inspected)
    (hgrow : captures.RevisionsGrow captures')
    (hkept : captures.Kept captures.store.captures captures' captures'.store.captures news) :
    Memory wait captures' (unread ++ news) sequences inspected :=
  ⟨h.states, h.unsatisfied, fun s hs => (h.seen s hs).grow hgrow,
    fun i state hstate => member_kept hkept (h.member i state hstate), h.remembers⟩

theorem RowsKnown.kept (h : RowsKnown captures unread rows)
    (hgrow : captures.RevisionsGrow captures')
    (hkept : captures.Kept captures.store.captures captures' captures'.store.captures news) :
    RowsKnown captures' (unread ++ news) rows :=
  ⟨fun s hs => (h.seen s hs).grow hgrow, fun s hs => member_kept hkept (h.member s hs)⟩

theorem rowsKnown_nil : RowsKnown captures unread [] := ⟨by simp, by simp⟩

theorem RowsKnown.snoc (h : RowsKnown captures unread rows) {i : CaptureSequence}
    {record : CaptureRecord} (hrecord : captures.Retains i record) :
    RowsKnown captures unread (rows ++ [record.snapshot .metadataOnly]) := by
  refine ⟨fun s hs => ?_, fun s hs => ?_⟩ <;>
    rcases List.mem_append.1 hs with hs | hs
  · exact h.seen s hs
  · obtain rfl := List.mem_singleton.1 hs
    exact seen_of_retains hrecord
  · exact h.member s hs
  · obtain rfl := List.mem_singleton.1 hs
    exact .inl (show record.sequence ∈ _ by rw [hrecord.sequence]; exact hrecord.mem)

/-- The rows of a batch without a match are remembered. -/
theorem Memory.batch (h : Memory wait captures unread sequences inspected)
    (hrows : RowsKnown captures unread rows) {sequences' : WaitSequences}
    (hbatch : wait.inspectWaitBatch rows sequences = (none, sequences')) :
    Memory wait captures unread sequences' (inspected ++ rows) := by
  have hspec := wait.inspectWaitBatch_spec rows sequences
  rw [hbatch] at hspec
  obtain ⟨hnone, hstates⟩ := hspec
  refine ⟨fun i state hstate => ?_, fun s hs => ?_, fun s hs => ?_, fun i state hstate => ?_,
    h.remembers.batch hbatch⟩
  · rcases hstates i state hstate with hold | ⟨s, hs, habout⟩
    · obtain ⟨s, hs, habout⟩ := h.states i state hold
      exact ⟨s, List.mem_append_left _ hs, habout⟩
    · exact ⟨s, List.mem_append_right _ hs, habout⟩
  · rcases List.mem_append.1 hs with hs | hs
    · exact h.unsatisfied s hs
    · exact hnone s hs
  · rcases List.mem_append.1 hs with hs | hs
    · exact h.seen s hs
    · exact hrows.seen s hs
  · rcases hstates i state hstate with hold | ⟨s, hs, rfl, -⟩
    · exact h.member i state hold
    · exact hrows.member s hs

/-- A change about a capture that is not removed by it has been read. -/
theorem Memory.readUpdate {change : CaptureChange}
    (h : Memory wait captures (change :: unread) sequences inspected)
    (hkind : change.kind.isRemoval = false) :
    Memory wait captures unread sequences inspected := by
  refine ⟨h.states, h.unsatisfied, h.seen, fun i state hstate => ?_, h.remembers⟩
  refine (h.member i state hstate).imp_right ?_
  rintro ⟨other, hother, habout, hremoval⟩
  rcases List.mem_cons.1 hother with rfl | hother
  · rw [hkind] at hremoval
    cases hremoval
  · exact ⟨other, hother, habout, hremoval⟩

/-- The removal of a capture has been read, and its state is gone. -/
theorem Memory.readRemoval {change : CaptureChange}
    (h : Memory wait captures (change :: unread) sequences inspected)
    (hidle : (sequences change.sequence).any (·.pending) = false) :
    Memory wait captures unread (sequences.set change.sequence none) inspected := by
  have hold : ∀ i state, sequences.set change.sequence none i = some state →
      i ≠ change.sequence ∧ sequences i = some state := by
    intro i state hstate
    unfold WaitSequences.set at hstate
    split at hstate
    · cases hstate
    · rename_i hi
      exact ⟨hi, hstate⟩
  refine ⟨fun i state hstate => h.states i state (hold i state hstate).2, h.unsatisfied, h.seen,
    fun i state hstate => ?_, fun i s hlast hpending => ?_⟩
  · obtain ⟨hi, hstate⟩ := hold i state hstate
    refine (h.member i state hstate).imp_right ?_
    rintro ⟨other, hother, habout, hremoval⟩
    rcases List.mem_cons.1 hother with rfl | hother
    · exact absurd habout.symm hi
    · exact ⟨other, hother, habout, hremoval⟩
  · have hstate := h.remembers i s hlast hpending
    unfold WaitSequences.set
    split
    · rename_i hi
      rw [← hi, hstate, Option.any_some, CaptureWait.sequenceState, hpending] at hidle
      cases hidle
    · exact hstate

end Fluxcope.Control

/-!
## No capture escapes the waiter

A retained capture is always ahead of the scan, in a batch that is not inspected
yet, inspected at its present revision, or the subject of a change that has not
been read: whatever the waiter does not know yet it is still going to look at.
-/

namespace Fluxcope.Control

open Fluxcope.Library Fluxcope.Capture

/-- The capture was retained with this revision when the waiter subscribed. -/
def UnchangedSince (origin : CaptureSystem) (i : CaptureSequence) (revision : Nat) : Prop :=
  i ∈ origin.store.captures ∧
    ∃ cell, origin.cells[i]? = some cell ∧ cell.record.revision = revision

/-- The capture has left the store. -/
def HasLeft (captures : CaptureSystem) (i : CaptureSequence) : Prop :=
  ∃ cell, captures.cells[i]? = some cell ∧ cell.record.captureDisabled = true

def Waiter.unread (w : Waiter) (history : List CaptureChange) : List CaptureChange :=
  history.drop (w.changes.nextEpoch - 1)

/-- How the waiter gets to see capture `i` at `revision` or later, if only the
first `bound` changes of the history are read. -/
inductive Chased (w : WaitSystem) (history : List CaptureChange) (i : CaptureSequence)
    (revision bound : Nat) : Prop
  | inspected (s : CaptureSnapshot) (hs : s ∈ w.waiter.inspected) (hi : s.sequence = i)
      (hrevision : revision ≤ s.revision)
  | unread (change : CaptureChange) (hchange : change ∈ w.waiter.unread (history.take bound))
      (hi : change.sequence = i) (hrevision : revision ≤ change.revision)
      (hkind : change.kind.isRemoval = false)
  | materializing (change : CaptureChange) (hphase : w.waiter.phase = .materializing change)
      (hi : change.sequence = i)
  | ahead (cursor : Option CaptureSequence) (rows : List CaptureSnapshot)
      (hphase : w.waiter.phase = .collecting cursor rows) (hi : i ∈ w.captures.store.captures)
      (hcursor : cursor.all (fun c => i ≤ c) = true) (hsame : UnchangedSince w.origin i revision)
  | collected (cursor : Option CaptureSequence) (rows : List CaptureSnapshot)
      (s : CaptureSnapshot) (hphase : w.waiter.phase = .collecting cursor rows) (hs : s ∈ rows)
      (hi : s.sequence = i) (hrevision : revision ≤ s.revision)
  | gone (hleft : HasLeft w.captures i) (hsame : UnchangedSince w.origin i revision)
  | answered (outcome : WaitOutcome) (hphase : w.waiter.phase = .done outcome)

/-- The next row is looked up right before the last one. -/
def CursorAt (cursor : Option CaptureSequence) (rows : List CaptureSnapshot) : Prop :=
  ∀ last, rows.getLast? = some last → ∃ c : Nat, cursor = some c ∧ last.sequence = c + 1

theorem cursorAt_nil (cursor : Option CaptureSequence) : CursorAt cursor [] := by
  intro last hlast
  cases hlast

/-- The invariant of a waiter that has subscribed and not answered yet. -/
structure Watching (wait : CaptureWait) (w : WaitSystem) (history : List CaptureChange) :
    Prop where
  nextEpoch : 0 < w.waiter.changes.nextEpoch
  memory : Memory wait w.captures (w.waiter.unread history) w.waiter.sequences
    w.waiter.inspected
  batch : ∀ cursor rows, w.waiter.phase = .collecting cursor rows →
    RowsKnown w.captures (w.waiter.unread history) rows ∧ CursorAt cursor rows
  change : ∀ change, w.waiter.phase = .materializing change →
    change ∈ history ∧ change.kind.isRemoval = false
  chased : ∀ i ∈ w.captures.store.captures, ∀ cell, w.captures.cells[i]? = some cell →
    Chased w history i cell.record.revision history.length

/-! ## The captures move on -/

variable {wait : CaptureWait} {w : WaitSystem} {history news : List CaptureChange}
  {captures' : CaptureSystem} {i : CaptureSequence} {revision bound : Nat}

theorem unread_append (waiter : Waiter) (h : waiter.changes.nextEpoch ≤ history.length + 1) :
    waiter.unread (history ++ news) = waiter.unread history ++ news := by
  unfold Waiter.unread
  rw [List.drop_append_of_le_length (by omega)]

theorem HasLeft.kept (h : HasLeft w.captures i)
    (hkept : w.captures.Kept w.captures.store.captures captures' captures'.store.captures news) :
    HasLeft captures' i := by
  obtain ⟨cell, hcell, hdisabled⟩ := h
  exact hkept.disabled i cell hcell hdisabled

theorem Chased.kept (h : Chased w history i revision bound) (hbound : bound ≤ history.length)
    (hkept : w.captures.Kept w.captures.store.captures captures' captures'.store.captures news) :
    Chased { w with captures := captures' } (history ++ news) i revision bound := by
  cases h with
  | inspected s hs hi hrevision => exact .inspected s hs hi hrevision
  | unread change hchange hi hrevision hkind =>
    refine .unread change ?_ hi hrevision hkind
    rw [List.take_append_of_le_length hbound]
    exact hchange
  | materializing change hphase hi => exact .materializing change hphase hi
  | ahead cursor rows hphase hi hcursor hsame =>
    by_cases hi' : i ∈ captures'.store.captures
    · exact .ahead cursor rows hphase hi' hcursor hsame
    · exact .gone (hkept.removed i hi hi').2 hsame
  | collected cursor rows s hphase hs hi hrevision =>
    exact .collected cursor rows s hphase hs hi hrevision
  | gone hleft hsame => exact .gone (hleft.kept hkept) hsame
  | answered outcome hphase => exact .answered outcome hphase

theorem Chased.mono {bound' : Nat} (h : Chased w history i revision bound)
    (hbound : bound ≤ bound') : Chased w history i revision bound' := by
  cases h with
  | inspected s hs hi hrevision => exact .inspected s hs hi hrevision
  | unread change hchange hi hrevision hkind =>
    refine .unread change ?_ hi hrevision hkind
    exact ((List.take_prefix_take_left hbound).sublist.drop _).subset hchange
  | materializing change hphase hi => exact .materializing change hphase hi
  | ahead cursor rows hphase hi hcursor hsame => exact .ahead cursor rows hphase hi hcursor hsame
  | collected cursor rows s hphase hs hi hrevision =>
    exact .collected cursor rows s hphase hs hi hrevision
  | gone hleft hsame => exact .gone hleft hsame
  | answered outcome hphase => exact .answered outcome hphase

/-- The last change about a capture is among the news if any of them is about it. -/
theorem lastAbout_mem_news {change other : CaptureChange} (hother : other ∈ news)
    (habout : other.sequence = i) (hlast : lastAbout (history ++ news) i = some change) :
    change ∈ news ∧ change.sequence = i := by
  unfold lastAbout at hlast
  have hnonempty : news.filter (fun change => change.sequence = i) ≠ [] :=
    List.ne_nil_of_mem (List.mem_filter.2 ⟨hother, by simpa using habout⟩)
  rw [List.filter_append, List.getLast?_append_of_ne_nil _ hnonempty] at hlast
  have hmem := List.mem_filter.1 (List.mem_of_getLast? hlast)
  exact ⟨hmem.1, by simpa using hmem.2⟩

/-- What the captures do keeps the invariant, with the longer history. -/
theorem Watching.kept (h : Watching wait w history)
    (hepoch : w.waiter.changes.nextEpoch ≤ history.length + 1)
    (hgrow : w.captures.RevisionsGrow captures')
    (htracked : captures'.Tracked captures'.store.captures (history ++ news))
    (hkept : w.captures.Kept w.captures.store.captures captures' captures'.store.captures news) :
    Watching wait { w with captures := captures' } (history ++ news) := by
  have hunread : w.waiter.unread (history ++ news) = w.waiter.unread history ++ news :=
    unread_append w.waiter hepoch
  refine ⟨h.nextEpoch, ?_, fun cursor rows hphase => ?_, fun change hphase => ?_,
    fun i hi cell' hcell' => ?_⟩
  · rw [hunread]
    exact h.memory.kept hgrow hkept
  · obtain ⟨hrows, hcursor⟩ := h.batch cursor rows hphase
    rw [hunread]
    exact ⟨hrows.kept hgrow hkept, hcursor⟩
  · obtain ⟨hchange, hkind⟩ := h.change change hphase
    exact ⟨List.mem_append_left _ hchange, hkind⟩
  · by_cases hnews : ∃ change ∈ news, change.sequence = i
    · obtain ⟨other, hother, habout⟩ := hnews
      obtain ⟨c, hc, -, -, change, hlast, hrevision, hkind⟩ := htracked.announced i hi
      obtain rfl := Option.some.inj (hc.symm.trans hcell')
      obtain ⟨hmem, hsequence⟩ := lastAbout_mem_news hother habout hlast
      refine .unread change ?_ hsequence hrevision.ge hkind
      rw [List.take_length, hunread]
      exact List.mem_append_right _ hmem
    · have hnone : ∀ change ∈ news, change.sequence ≠ i := fun change hchange habout =>
        hnews ⟨change, hchange, habout⟩
      obtain ⟨hold, hcells⟩ := hkept.same i hi hnone
      obtain ⟨cell, hcell, hsnapshot⟩ := hcells cell' hcell'
      have hrevision : cell'.record.revision = cell.record.revision :=
        congrArg CaptureSnapshot.revision hsnapshot
      rw [hrevision]
      refine ((h.chased i hold cell hcell).kept (Nat.le_refl _) hkept).mono ?_
      rw [List.length_append]
      exact Nat.le_add_right _ _

end Fluxcope.Control
