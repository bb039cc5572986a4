import Fluxcope.Control.WaitMemory
/-!
# The steps of the waiter

Each step of the waiter keeps the invariant: what it passes by it has inspected,
and what it skips it knows at a revision that is at least as new.
-/

namespace Fluxcope.Control

open Fluxcope.Library Fluxcope.Capture

variable {wait : CaptureWait} {w : WaitSystem} {history : List CaptureChange}
  {i : CaptureSequence} {revision bound : Nat}

/-- The system after a step of the waiter. -/
abbrev WaitSystem.withWaiter (w : WaitSystem) (waiter : Waiter) : WaitSystem := { w with waiter }

/-! ## The end of a batch -/

/-- The phase after a batch without a match. -/
def nextPhase (captures : CaptureSystem) (rows : List CaptureSnapshot) : WaitPhase :=
  match rows.getLast?.bind fun snapshot => (cursorBefore snapshot.sequence).bind fun cursor =>
      (captures.captureAtOrBefore (some cursor.nextOlderSequence)).map fun _ => cursor with
  | none => .consuming
  | some cursor => .collecting (some cursor.nextOlderSequence) []

/-- How the end of a batch leaves the waiter. -/
inductive BatchEnd (wait : CaptureWait) (captures : CaptureSystem) (waiter : Waiter)
    (rows : List CaptureSnapshot) : Waiter → Prop
  | empty (hrows : rows = []) : BatchEnd wait captures waiter rows { waiter with phase := .consuming }
  | matched (s : CaptureSnapshot) (hs : s ∈ rows) (hsatisfied : wait.satisfied s = true) :
      BatchEnd wait captures waiter rows (waiter.finish (.matched (.fromSnapshot s)))
  | unmatched (sequences : WaitSequences) (hrows : rows ≠ [])
      (hbatch : wait.inspectWaitBatch rows waiter.sequences = (none, sequences)) :
      BatchEnd wait captures waiter rows
        { waiter with
          sequences
          inspected := waiter.inspected ++ rows
          phase := nextPhase captures rows }

theorem finishBatch_spec (wait : CaptureWait) (captures : CaptureSystem) (waiter : Waiter)
    (rows : List CaptureSnapshot) :
    BatchEnd wait captures waiter rows (waiter.finishBatch wait captures rows) := by
  unfold Waiter.finishBatch
  by_cases hrows : rows = []
  · subst hrows
    exact .empty rfl
  rw [List.isEmpty_eq_false_iff.2 hrows]
  have hspec := wait.inspectWaitBatch_spec rows waiter.sequences
  rcases hbatch : wait.inspectWaitBatch rows waiter.sequences with ⟨_ | capture, sequences⟩
  · exact .unmatched sequences hrows hbatch
  · rw [hbatch] at hspec
    obtain ⟨s, hs, hsatisfied, rfl⟩ := hspec
    exact .matched s hs hsatisfied

/-- The scan goes on if a retained capture is older than the last row. -/
theorem nextPhase_of_older (htracked : w.captures.Tracked w.captures.store.captures history)
    {rows : List CaptureSnapshot} {last : CaptureSnapshot} (hlast : rows.getLast? = some last)
    {c : Nat} (hsequence : last.sequence = c + 1) (hi : i ∈ w.captures.store.captures)
    (hle : i ≤ c) : nextPhase w.captures rows = .collecting (some c) [] := by
  have hfound := htracked.captureAtOrBefore_spec (some c)
  cases hrecord : w.captures.captureAtOrBefore (some c) with
  | none =>
    rw [hrecord] at hfound
    exact absurd (by simpa using hle) (hfound i hi)
  | some record =>
    unfold nextPhase
    rw [hlast, Option.bind_some, hsequence]
    simp only [cursorBefore, Option.bind_some, hrecord, Option.map_some]

/-- What a batch must cover for a capture not to be lost at its end. -/
inductive Covered (w : WaitSystem) (history : List CaptureChange) (i : CaptureSequence)
    (revision bound : Nat) (rows : List CaptureSnapshot) : Prop
  | inspected (s : CaptureSnapshot) (hs : s ∈ w.waiter.inspected ∨ s ∈ rows)
      (hi : s.sequence = i) (hrevision : revision ≤ s.revision)
  | unread (change : CaptureChange) (hchange : change ∈ w.waiter.unread (history.take bound))
      (hi : change.sequence = i) (hrevision : revision ≤ change.revision)
      (hkind : change.kind.isRemoval = false)
  | older (last : CaptureSnapshot) (c : Nat) (hlast : rows.getLast? = some last)
      (hsequence : last.sequence = c + 1) (hi : i ∈ w.captures.store.captures) (hle : i ≤ c)
      (hsame : UnchangedSince w.origin i revision)
  | gone (hleft : HasLeft w.captures i) (hsame : UnchangedSince w.origin i revision)

theorem Covered.chased (htracked : w.captures.Tracked w.captures.store.captures history)
    {rows : List CaptureSnapshot} (h : Covered w history i revision bound rows) :
    Chased (w.withWaiter (w.waiter.finishBatch wait w.captures rows)) history i revision bound := by
  have hend := finishBatch_spec wait w.captures w.waiter rows
  generalize w.waiter.finishBatch wait w.captures rows = waiter' at hend ⊢
  cases hend with
  | matched s hs hsatisfied => exact .answered _ rfl
  | empty hrows =>
    subst hrows
    cases h with
    | inspected s hs hi hrevision =>
      exact .inspected s (hs.resolve_right List.not_mem_nil) hi hrevision
    | unread change hchange hi hrevision hkind => exact .unread change hchange hi hrevision hkind
    | older last c hlast => cases hlast
    | gone hleft hsame => exact .gone hleft hsame
  | unmatched sequences hrows hbatch =>
    cases h with
    | inspected s hs hi hrevision => exact .inspected s (List.mem_append.2 hs) hi hrevision
    | unread change hchange hi hrevision hkind => exact .unread change hchange hi hrevision hkind
    | older last c hlast hsequence hi hle hsame =>
      have hphase := nextPhase_of_older htracked hlast hsequence hi hle
      exact .ahead (some c) [] hphase hi (by simpa using hle) hsame
    | gone hleft hsame => exact .gone hleft hsame

/-- The invariant after a batch, when the waiter goes on. -/
theorem Memory.finishBatch {rows : List CaptureSnapshot}
    (h : Memory wait w.captures (w.waiter.unread history) w.waiter.sequences w.waiter.inspected)
    (hrows : RowsKnown w.captures (w.waiter.unread history) rows) {waiter : Waiter}
    (hend : BatchEnd wait w.captures w.waiter rows waiter) :
    Memory wait w.captures (waiter.unread history) waiter.sequences waiter.inspected ∧
      waiter.changes = w.waiter.changes ∧
      (∀ cursor batch, waiter.phase = .collecting cursor batch → batch = []) ∧
      ∀ change, waiter.phase ≠ .materializing change := by
  cases hend with
  | empty hnone => exact ⟨h, rfl, nofun, nofun⟩
  | matched s hs hsatisfied => exact ⟨h, rfl, nofun, nofun⟩
  | unmatched sequences hnonempty hbatch =>
    refine ⟨h.batch hrows hbatch, rfl, fun cursor batch hphase => ?_, fun change => ?_⟩
    · simp only [nextPhase] at hphase
      split at hphase
      · cases hphase
      · cases hphase
        rfl
    · simp only [nextPhase]
      split <;> exact nofun

/-! ## Collecting -/

theorem collect_cases (wait : CaptureWait) (captures : CaptureSystem) (waiter : Waiter)
    (cursor : Option CaptureSequence) (rows : List CaptureSnapshot) :
    waiter.collect wait captures cursor rows = waiter.finishBatch wait captures rows ∧
        (captures.captureAtOrBefore cursor = none ∨ rows ≠ []) ∨
      ∃ record, captures.captureAtOrBefore cursor = some record ∧
        (record.sequence = 0 ∧ waiter.collect wait captures cursor rows =
            waiter.finishBatch wait captures (rows ++ [record.snapshot .metadataOnly]) ∨
          ∃ older, record.sequence = older + 1 ∧ waiter.collect wait captures cursor rows =
            { waiter with
              phase := .collecting (some older) (rows ++ [record.snapshot .metadataOnly]) }) := by
  unfold Waiter.collect
  by_cases hfull : rows.length < captureSearchBatchSize
  · rw [if_pos hfull]
    cases hrecord : captures.captureAtOrBefore cursor with
    | none => exact .inl ⟨rfl, .inl rfl⟩
    | some record =>
      refine .inr ⟨record, rfl, ?_⟩
      cases hsequence : record.sequence with
      | zero => exact .inl ⟨rfl, by simp only [hsequence]⟩
      | succ older => exact .inr ⟨older, rfl, by simp only [hsequence]⟩
  · rw [if_neg hfull]
    refine .inl ⟨rfl, .inr ?_⟩
    rintro rfl
    exact hfull (by decide)

/-- A capture the scan has not passed is covered by a batch that ends here. -/
theorem covered_of_chased (hw : Watching wait w history)
    (htracked : w.captures.Tracked w.captures.store.captures history)
    {cursor : Option CaptureSequence} {rows : List CaptureSnapshot}
    (hphase : w.waiter.phase = .collecting cursor rows)
    (hend : w.captures.captureAtOrBefore cursor = none ∨ rows ≠ [])
    (h : Chased w history i revision bound) : Covered w history i revision bound rows := by
  cases h with
  | inspected s hs hi hrevision => exact .inspected s (.inl hs) hi hrevision
  | unread change hchange hi hrevision hkind => exact .unread change hchange hi hrevision hkind
  | materializing change hother => rw [hphase] at hother; cases hother
  | ahead cursor' rows' hother hi hcursor hsame =>
    rw [hphase] at hother
    cases hother
    have hfound := htracked.captureAtOrBefore_spec cursor
    rcases hend with hnone | hrows
    · rw [hnone] at hfound
      exact absurd hcursor (hfound i hi)
    · obtain ⟨last, hlast⟩ : ∃ last, rows.getLast? = some last :=
        ⟨_, List.getLast?_eq_some_getLast hrows⟩
      obtain ⟨c, rfl, hsequence⟩ := (hw.batch cursor rows hphase).2 last hlast
      exact .older last c hlast hsequence hi (by simpa using hcursor) hsame
  | collected cursor' rows' s hother hs hi hrevision =>
    rw [hphase] at hother
    cases hother
    exact .inspected s (.inr hs) hi hrevision
  | gone hleft hsame => exact .gone hleft hsame
  | answered outcome hother => rw [hphase] at hother; cases hother

/-- What a row adds: the capture itself, or nothing newer than what is still ahead. -/
theorem chased_row (htracked : w.captures.Tracked w.captures.store.captures history)
    {cursor : Option CaptureSequence} {rows : List CaptureSnapshot}
    (hphase : w.waiter.phase = .collecting cursor rows) {record : CaptureRecord}
    (hrecord : w.captures.captureAtOrBefore cursor = some record)
    (hgrown : ∀ cell, w.captures.cells[i]? = some cell → revision ≤ cell.record.revision)
    (h : Chased w history i revision bound) :
    Chased (w.withWaiter { w.waiter with
        phase := .collecting (some (record.sequence - 1)) (rows ++ [record.snapshot .metadataOnly]) })
      history i revision bound ∧
    (record.sequence = 0 →
      Covered w history i revision bound (rows ++ [record.snapshot .metadataOnly])) := by
  have hfound := htracked.captureAtOrBefore_spec cursor
  rw [hrecord] at hfound
  obtain ⟨⟨-, ⟨cell, hcell, hsame⟩, -, -⟩, -, hmax⟩ := hfound
  have hrow : record.snapshot .metadataOnly ∈ rows ++ [record.snapshot .metadataOnly] :=
    List.mem_append_right _ (List.mem_singleton_self _)
  have hhere : record.sequence = i → revision ≤ (record.snapshot .metadataOnly).revision := by
    rintro rfl
    have hle := hgrown cell hcell
    rw [hsame] at hle
    exact hle
  cases h with
  | inspected s hs hi hrevision =>
    exact ⟨.inspected s hs hi hrevision, fun _ => .inspected s (.inl hs) hi hrevision⟩
  | unread change hchange hi hrevision hkind =>
    exact ⟨.unread change hchange hi hrevision hkind,
      fun _ => .unread change hchange hi hrevision hkind⟩
  | materializing change hother => rw [hphase] at hother; cases hother
  | ahead cursor' rows' hother hi hcursor hunchanged =>
    rw [hphase] at hother
    cases hother
    have hle : i ≤ record.sequence := hmax i hi hcursor
    by_cases heq : record.sequence = i
    · exact ⟨.collected _ _ _ rfl hrow heq (hhere heq),
        fun _ => .inspected _ (.inr hrow) heq (hhere heq)⟩
    · have hlt : i < record.sequence := Nat.lt_of_le_of_ne hle (Ne.symm heq)
      refine ⟨.ahead _ _ rfl hi ?_ hunchanged, fun hzero => ?_⟩
      · rw [Option.all_some, decide_eq_true_eq]
        exact Nat.le_sub_one_of_lt hlt
      · rw [hzero] at hlt
        exact absurd hlt (Nat.not_lt_zero _)
  | collected cursor' rows' s hother hs hi hrevision =>
    rw [hphase] at hother
    cases hother
    exact ⟨.collected _ _ s rfl (List.mem_append_left _ hs) hi hrevision,
      fun _ => .inspected s (.inr (List.mem_append_left _ hs)) hi hrevision⟩
  | gone hleft hunchanged => exact ⟨.gone hleft hunchanged, fun _ => .gone hleft hunchanged⟩
  | answered outcome hother => rw [hphase] at hother; cases hother

theorem chased_collect (hw : Watching wait w history)
    (htracked : w.captures.Tracked w.captures.store.captures history)
    {cursor : Option CaptureSequence} {rows : List CaptureSnapshot}
    (hphase : w.waiter.phase = .collecting cursor rows)
    (hgrown : ∀ cell, w.captures.cells[i]? = some cell → revision ≤ cell.record.revision)
    (h : Chased w history i revision bound) :
    Chased (w.withWaiter (w.waiter.collect wait w.captures cursor rows)) history i revision
      bound := by
  rcases collect_cases wait w.captures w.waiter cursor rows with
    ⟨heq, hend⟩ | ⟨record, hrecord, hcase⟩
  · rw [heq]
    exact (covered_of_chased hw htracked hphase hend h).chased htracked
  · obtain ⟨hnext, hcovered⟩ := chased_row htracked hphase hrecord hgrown h
    rcases hcase with ⟨hzero, heq⟩ | ⟨older, hsequence, heq⟩
    · rw [heq]
      exact (hcovered hzero).chased htracked
    · rw [heq]
      rw [hsequence, Nat.add_sub_cancel] at hnext
      exact hnext

theorem watching_finishBatch (hw : Watching wait w history)
    {rows : List CaptureSnapshot} (hrows : RowsKnown w.captures (w.waiter.unread history) rows)
    (hchased : ∀ i ∈ w.captures.store.captures, ∀ cell, w.captures.cells[i]? = some cell →
      Chased (w.withWaiter (w.waiter.finishBatch wait w.captures rows)) history i
        cell.record.revision history.length) :
    Watching wait (w.withWaiter (w.waiter.finishBatch wait w.captures rows)) history := by
  obtain ⟨hmemory, hchanges, hbatch, hchange⟩ :=
    hw.memory.finishBatch hrows (finishBatch_spec wait w.captures w.waiter rows)
  refine ⟨by rw [hchanges]; exact hw.nextEpoch, hmemory, fun cursor batch hphase => ?_,
    fun change hphase => absurd hphase (hchange change), hchased⟩
  obtain rfl := hbatch cursor batch hphase
  exact ⟨rowsKnown_nil, cursorAt_nil cursor⟩

theorem watching_collect (hw : Watching wait w history)
    (htracked : w.captures.Tracked w.captures.store.captures history)
    {cursor : Option CaptureSequence} {rows : List CaptureSnapshot}
    (hphase : w.waiter.phase = .collecting cursor rows) :
    Watching wait (w.withWaiter (w.waiter.collect wait w.captures cursor rows)) history := by
  have hchased : ∀ i ∈ w.captures.store.captures, ∀ cell, w.captures.cells[i]? = some cell →
      Chased (w.withWaiter (w.waiter.collect wait w.captures cursor rows)) history i
        cell.record.revision history.length := by
    intro i hi cell hcell
    refine chased_collect hw htracked hphase (fun c hc => ?_) (hw.chased i hi cell hcell)
    obtain rfl := Option.some.inj (hcell.symm.trans hc)
    exact Nat.le_refl _
  obtain ⟨hrows, -⟩ := hw.batch cursor rows hphase
  rcases collect_cases wait w.captures w.waiter cursor rows with
    ⟨heq, hend⟩ | ⟨record, hrecord, hcase⟩
  · rw [heq] at hchased ⊢
    exact watching_finishBatch hw hrows hchased
  · have hfound := htracked.captureAtOrBefore_spec cursor
    rw [hrecord] at hfound
    have hrows' := hrows.snoc hfound.1
    rcases hcase with ⟨hzero, heq⟩ | ⟨older, hsequence, heq⟩
    · rw [heq] at hchased ⊢
      exact watching_finishBatch hw hrows' hchased
    · rw [heq] at hchased ⊢
      refine ⟨hw.nextEpoch, hw.memory, ?_, nofun, hchased⟩
      rintro _ _ ⟨⟩
      refine ⟨hrows', fun last hlast => ⟨older, rfl, ?_⟩⟩
      rw [List.getLast?_concat, Option.some.injEq] at hlast
      rw [← hlast]
      exact hsequence

end Fluxcope.Control
