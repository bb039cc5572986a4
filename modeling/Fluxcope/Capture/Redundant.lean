import Fluxcope.Capture.Revision
/-!
# Operations that come too late

A second response head, an append or a terminal event after the end of a side,
and an empty append show nothing new and tell the feed nothing, unless a late
response head has reopened the side.
-/

namespace Fluxcope.Capture

open Fluxcope.Library Fluxcope.Library.Utf8

namespace CaptureSystem

/-- The step shows nothing new of capture `i` and tells the feed nothing. -/
def Untouched (s t : CaptureSystem) (i : CaptureSequence) : Prop :=
  t.feed = s.feed ∧ ∀ c, s.cells[i]? = some c → ∃ c', t.cells[i]? = some c' ∧
    c'.record.revision = c.record.revision ∧
    ∀ mode, c'.record.snapshot mode = c.record.snapshot mode

theorem untouched_of_ineffective {s t : CaptureSystem} {action : CaptureAction}
    {i : CaptureSequence} {f : RecordScope → RecordScope} (h : Conserved s)
    (hstep : s.step action = some t) (hop : s.handleOp action = some (i, f))
    {c : CaptureCell} (hc : s.cells[i]? = some c)
    (hnone : (s.scope c).Sound → f (s.scope c) = s.scope c) : Untouched s t i := by
  obtain ⟨c', hc', hcase⟩ := step_record hstep hc
  have hsame : c.record.SameContent c'.record ∧ t.feed = s.feed := by
    rcases hcase with ⟨hsame, hdead⟩ | ⟨g, hg, halive, hsame, hfeed⟩
    · exact ⟨hsame, (hdead f hop).2⟩
    · obtain ⟨-, rfl⟩ := Prod.mk.inj (Option.some.inj (hop.symm.trans hg))
      rw [hnone (h.toBalanced.sound hc (h.toBalanced.leaseLive_of_alive hc halive))]
        at hsame hfeed
      exact ⟨hsame, hfeed⟩
  refine ⟨hsame.2, fun _ hget => ?_⟩
  obtain rfl := Option.some.inj (hc.symm.trans hget)
  exact ⟨c', hc', hsame.1.revision, hsame.1.snapshot⟩

theorem handle_cell {s t : CaptureSystem} {action : CaptureAction} {i : CaptureSequence}
    {f : RecordScope → RecordScope} (hop : s.handleOp action = some (i, f))
    (hstep : s.step action = some t) : ∃ c, s.cells[i]? = some c := by
  obtain ⟨u, hact, -⟩ := Option.map_eq_some_iff.1 hstep
  cases action with
  | setResponse j input instant | append j side bytes | finish j side terminal instant =>
    obtain ⟨rfl, -⟩ := Prod.mk.inj (Option.some.inj hop)
    obtain ⟨c, hc, -⟩ := Option.bind_eq_some_iff.1 hact
    exact ⟨c, hc⟩
  | _ => simp [handleOp] at hop

theorem untouched_append {s t : CaptureSystem} {i : CaptureSequence} {side : BodySide}
    {bytes : Bytes} (h : Conserved s) (hstep : s.step (.append i side bytes) = some t)
    (hignored : bytes = [] ∨ ∀ c, s.cells[i]? = some c → c.record.sideEnded side = true) :
    Untouched s t i := by
  obtain ⟨c, hc⟩ := handle_cell rfl hstep
  refine untouched_of_ineffective h hstep rfl hc fun hsound => ?_
  obtain ⟨previewLimit, heq⟩ := RecordScope.append_spec hsound side bytes (s.policy.previewBytes side)
  refine heq.trans (if_pos ?_)
  rcases hignored with rfl | hended
  · simp [RecordScope.ignoresAppend]
  · have hside := hended c hc
    unfold CaptureRecord.sideEnded at hside
    simp [RecordScope.ignoresAppend, scope, hside]

theorem untouched_finish {s t : CaptureSystem} {i : CaptureSequence} {side : BodySide}
    {terminal : BodyTerminal} {instant : Nat} (h : Conserved s)
    (hstep : s.step (.finish i side terminal instant) = some t)
    (hended : ∀ c, s.cells[i]? = some c → c.record.sideEnded side = true) :
    Untouched s t i := by
  obtain ⟨c, hc⟩ := handle_cell rfl hstep
  refine untouched_of_ineffective h hstep rfl hc fun _ => ?_
  exact (RecordScope.finish_spec ..).trans (if_pos (hended c hc))

theorem untouched_setResponse {s t : CaptureSystem} {i : CaptureSequence}
    {input : ResponseCaptureInput} {instant : Nat} (h : Conserved s)
    (hstep : s.step (.setResponse i input instant) = some t)
    (hanswered : ∀ c, s.cells[i]? = some c → c.record.acceptsResponse = false) :
    Untouched s t i := by
  obtain ⟨c, hc⟩ := handle_cell rfl hstep
  refine untouched_of_ineffective h hstep rfl hc fun hsound => ?_
  obtain ⟨_, _, _, -, -, heq⟩ := RecordScope.setResponse_spec hsound s.policy input instant
  refine heq.trans (if_neg ?_)
  simp only [scope, hanswered c hc]
  decide

/-! ## What an event leaves behind -/

theorem ended_after_finish {s t : CaptureSystem} {i : CaptureSequence} {side : BodySide}
    {terminal : BodyTerminal} {instant : Nat}
    (hstep : s.step (.finish i side terminal instant) = some t) (halive : s.alive i = true) :
    ∃ c, t.cells[i]? = some c ∧ c.record.sideEnded side = true := by
  obtain ⟨c, hc⟩ := handle_cell rfl hstep
  obtain ⟨c', hc', ⟨-, hdead⟩ | ⟨f, hop, -, hsame, -⟩⟩ := step_record hstep hc
  · rw [(hdead _ rfl).1] at halive
    cases halive
  · obtain ⟨-, rfl⟩ := Prod.mk.inj (Option.some.inj hop)
    refine ⟨c', hc', ?_⟩
    unfold CaptureRecord.sideEnded
    rw [hsame.body]
    dsimp only
    rw [RecordScope.finish_spec]
    split
    · rename_i hended
      exact hended
    · rw [RecordScope.body_bumpRevision, CaptureRecord.body_setTerminalAt,
        CaptureRecord.body_setBody_same, RecordScope.ended, BodyCapture.seal_status]
      cases terminal <;> rfl

theorem answered_of_sameContent {r r' : CaptureRecord} (h : r.SameContent r')
    (hanswered : r.acceptsResponse = false) : r'.acceptsResponse = false := by
  have hdisabled := h.disabled
  rw [h.eq]
  unfold CaptureRecord.acceptsResponse at hanswered ⊢
  cases hr : r.captureDisabled <;> simp_all

/-- No operation makes a record accept a response head again. -/
theorem handleOp_answered {s : CaptureSystem} {action : CaptureAction} {i : CaptureSequence}
    {f : RecordScope → RecordScope} {scope : RecordScope}
    (hop : s.handleOp action = some (i, f)) (hsound : scope.Sound)
    (hanswered : scope.record.acceptsResponse = false) :
    (f scope).record.acceptsResponse = false := by
  cases action with
  | setResponse j input instant =>
    obtain ⟨-, rfl⟩ := Prod.mk.inj (Option.some.inj hop)
    obtain ⟨_, _, _, -, -, heq⟩ := RecordScope.setResponse_spec hsound s.policy input instant
    dsimp only
    rw [heq, if_neg (by simp [hanswered])]
    exact hanswered
  | append j side bytes =>
    obtain ⟨-, rfl⟩ := Prod.mk.inj (Option.some.inj hop)
    obtain ⟨_, heq⟩ := RecordScope.append_spec hsound side bytes (s.policy.previewBytes side)
    dsimp only [CaptureHandle.append]
    rw [heq]
    split
    · exact hanswered
    split
    · exact hanswered
    · rw [RecordScope.bumpRevision_record]
      exact hanswered
  | finish j side terminal instant =>
    obtain ⟨-, rfl⟩ := Prod.mk.inj (Option.some.inj hop)
    dsimp only
    rw [RecordScope.finish_spec]
    split
    · exact hanswered
    · rw [RecordScope.bumpRevision_record]
      exact hanswered
  | _ => simp [handleOp] at hop

theorem answered_after_response {s t : CaptureSystem} {i : CaptureSequence}
    {input : ResponseCaptureInput} {instant : Nat} (h : Conserved s)
    (hstep : s.step (.setResponse i input instant) = some t) (halive : s.alive i = true) :
    ∃ c, t.cells[i]? = some c ∧ c.record.acceptsResponse = false := by
  obtain ⟨c, hc⟩ := handle_cell rfl hstep
  obtain ⟨c', hc', ⟨-, hdead⟩ | ⟨f, hop, -, hsame, -⟩⟩ := step_record hstep hc
  · rw [(hdead _ rfl).1] at halive
    cases halive
  · obtain ⟨-, rfl⟩ := Prod.mk.inj (Option.some.inj hop)
    refine ⟨c', hc', answered_of_sameContent hsame ?_⟩
    have hsound := h.toBalanced.sound hc (h.toBalanced.leaseLive_of_alive hc halive)
    obtain ⟨_, _, _, -, -, heq⟩ := RecordScope.setResponse_spec hsound s.policy input instant
    dsimp only
    rw [heq]
    split
    · rw [RecordScope.bumpRevision_record]
      simp [CaptureRecord.acceptsResponse, RecordScope.charge, CaptureRecord.respond]
    · rename_i hanswered
      simpa using hanswered

theorem run_answered {s t : CaptureSystem} {actions : List CaptureAction} (h : Conserved s)
    (hrun : run step s actions = some t) {i : CaptureSequence} {c : CaptureCell}
    (hc : s.cells[i]? = some c) (hanswered : c.record.acceptsResponse = false) :
    ∃ c', t.cells[i]? = some c' ∧ c'.record.acceptsResponse = false := by
  have hfinal := run_invariant (I := fun u => Conserved u ∧
      ∃ c', u.cells[i]? = some c' ∧ c'.record.acceptsResponse = false)
    (fun u action v hu hstep => ⟨hu.1.step hstep, ?_⟩) ⟨h, c, hc, hanswered⟩ hrun
  · exact hfinal.2
  · obtain ⟨c', hc', hanswered'⟩ := hu.2
    obtain ⟨c'', hc'', ⟨hsame, -⟩ | ⟨f, hop, halive, hsame, -⟩⟩ := step_record hstep hc'
    · exact ⟨c'', hc'', answered_of_sameContent hsame hanswered'⟩
    · have hsound := hu.1.toBalanced.sound hc' (hu.1.toBalanced.leaseLive_of_alive hc' halive)
      exact ⟨c'', hc'', answered_of_sameContent hsame (handleOp_answered hop hsound hanswered')⟩

/-! ## The law -/

def RevisionIdentifies (s t : CaptureSystem) : Prop :=
  ∀ (i : Nat) (c c' : CaptureCell), s.cells[i]? = some c → t.cells[i]? = some c' →
    c'.record.captureDisabled = false → c'.record.revision = c.record.revision →
    ∀ mode, c'.record.snapshot mode = c.record.snapshot mode

/-- One of the actions of a run from `initial` is such an event, and the record of
capture `i` was alive when it came. -/
def Reached (initial : CaptureSystem) (actions : List CaptureAction) (i : CaptureSequence)
    (event : CaptureAction → Prop) : Prop :=
  ∃ before action after s, actions = before ++ action :: after ∧
    run step initial before = some s ∧ s.alive i = true ∧ event action

/-- The actions on capture `i` that come too late, or bring nothing. -/
inductive Redundant (initial : CaptureSystem) (actions : List CaptureAction)
    (i : CaptureSequence) : CaptureAction → Prop
  | secondResponse (input : ResponseCaptureInput) (instant : Nat)
      (first : Reached initial actions i
        fun action => ∃ input instant, action = .setResponse i input instant) :
      Redundant initial actions i (.setResponse i input instant)
  | lateAppend (side : BodySide) (bytes : Bytes)
      (terminal : Reached initial actions i
        fun action => ∃ terminal instant, action = .finish i side terminal instant) :
      Redundant initial actions i (.append i side bytes)
  | emptyAppend (side : BodySide) : Redundant initial actions i (.append i side [])
  | secondFinish (side : BodySide) (event : BodyTerminal) (instant : Nat)
      (first : Reached initial actions i
        fun action => ∃ terminal instant, action = .finish i side terminal instant) :
      Redundant initial actions i (.finish i side event instant)

theorem ended_of_reached {initial s : CaptureSystem} {actions : List CaptureAction}
    {i : CaptureSequence} {side : BodySide} (h : Conserved initial)
    (hclosed : Along step (fun s action => s.reopens action = false) initial actions)
    (hrun : run step initial actions = some s)
    (hreached : Reached initial actions i
      fun action => ∃ terminal instant, action = .finish i side terminal instant) :
    ∀ c, s.cells[i]? = some c → c.record.sideEnded side = true := by
  obtain ⟨before, _, after, u, rfl, hbefore, halive, terminal, instant, rfl⟩ := hreached
  intro c hc
  rw [run_append, hbefore] at hrun
  obtain ⟨v, hstep, hafter⟩ := run_cons_eq_some.1 hrun
  have hu : Conserved u := run_invariant (fun _ _ _ h hstep => h.step hstep) h hbefore
  obtain ⟨c', hc', hended⟩ := ended_after_finish hstep halive
  have hrest := (hclosed.append_right hbefore).2 v hstep
  obtain ⟨_, hget, hside⟩ := run_frozen (hu.step hstep) hrest hafter i c' hc'
  obtain rfl := Option.some.inj (hget.symm.trans hc)
  unfold CaptureRecord.sideEnded at hended ⊢
  rw [(hside side hended).body]
  exact hended

theorem answered_of_reached {initial s : CaptureSystem} {actions : List CaptureAction}
    {i : CaptureSequence} (h : Conserved initial) (hrun : run step initial actions = some s)
    (hreached : Reached initial actions i
      fun action => ∃ input instant, action = .setResponse i input instant) :
    ∀ c, s.cells[i]? = some c → c.record.acceptsResponse = false := by
  obtain ⟨before, _, after, u, rfl, hbefore, halive, input, instant, rfl⟩ := hreached
  intro c hc
  rw [run_append, hbefore] at hrun
  obtain ⟨v, hstep, hafter⟩ := run_cons_eq_some.1 hrun
  have hu : Conserved u := run_invariant (fun _ _ _ h hstep => h.step hstep) h hbefore
  obtain ⟨c', hc', hanswered⟩ := answered_after_response hu hstep halive
  obtain ⟨_, hget, hkept⟩ := run_answered (hu.step hstep) hafter hc' hanswered
  obtain rfl := Option.some.inj (hget.symm.trans hc)
  exact hkept

/-- Equal revisions mean equal snapshots, each visible change makes one revision and one
publication, and there are no more revisions than steps, in all runs; late and empty
operations change nothing in the runs in which no response head comes after the end of its
side. -/
theorem revision_identifies_state (policy : CapturePolicy)
    (retention : CaptureRetentionPolicy) (actions : List CaptureAction) :
    (∀ before between after s u, actions = before ++ (between ++ after) →
        run step (new policy retention) before = some s → run step s between = some u →
        RevisionIdentifies s u) ∧
      (∀ before action after s u, actions = before ++ action :: after →
        run step (new policy retention) before = some s → s.step action = some u →
        ChangesPublished s u) ∧
      (∀ s, run step (new policy retention) actions = some s →
        s.RevisionsWithin actions.length) ∧
      (Along step (fun s action => s.reopens action = false) (new policy retention) actions →
        ∀ before action after s u i, actions = before ++ action :: after →
          run step (new policy retention) before = some s → s.step action = some u →
          Redundant (new policy retention) before i action → Untouched s u i) := by
  refine ⟨?_, ?_, fun s hrun => ?_, ?_⟩
  · rintro before between after s u - hbefore hbetween i c c' hc hc' hstored heq
    obtain ⟨_, hget, hle⟩ := run_revisions (conserved_run hbefore) hbetween i c hc
    obtain rfl := Option.some.inj (hget.symm.trans hc')
    exact hle.snapshot hstored heq
  · rintro before action after s u - hbefore hstep
    exact step_changes (conserved_run hbefore) hstep
  · have hnew : RevisionsWithin 0 (new policy retention) := fun i c hc => absurd hc (by simp [new])
    have hwithin := run_revisionsWithin (conserved_new policy retention) hnew hrun
    rwa [Nat.zero_add] at hwithin
  · rintro hclosed before action after s u i rfl hbefore hstep hredundant
    have hinit := conserved_new policy retention
    have hconserved := conserved_run hbefore
    cases hredundant with
    | secondResponse input instant first =>
      exact untouched_setResponse hconserved hstep (answered_of_reached hinit hbefore first)
    | lateAppend side bytes terminal =>
      exact untouched_append hconserved hstep
        (.inr (ended_of_reached hinit hclosed.append_left hbefore terminal))
    | emptyAppend side => exact untouched_append hconserved hstep (.inl rfl)
    | secondFinish side event instant first =>
      exact untouched_finish hconserved hstep
        (ended_of_reached hinit hclosed.append_left hbefore first)

/-- The response side is cancelled and its head comes after that. -/
def sampleLateHead : List CaptureAction :=
  [.tryStart
      { method := [71], originalUri := [97], effectiveUri := [97], localPath := none
        headers := [] } 0 0,
    .receive, .insert 0, .finish 0 .response .cancelled 1,
    .setResponse 0 { status := 200, headers := [] } 2]

theorem late_append_published :
    ∃ s u, run step (new {} {}) sampleLateHead = some s ∧
      s.step (.append 0 .response [2]) = some u ∧
      Redundant (new {} {}) sampleLateHead 0 (.append 0 .response [2]) ∧
      ¬ Untouched s u 0 := by
  obtain ⟨s, hs⟩ := Option.isSome_iff_exists.1
    (show (run step (new {} {}) sampleLateHead).isSome = true by decide)
  obtain ⟨u, hu⟩ := Option.isSome_iff_exists.1
    (show ((run step (new {} {}) sampleLateHead).bind fun s =>
      s.step (.append 0 .response [2])).isSome = true by decide)
  obtain ⟨v, hv⟩ := Option.isSome_iff_exists.1
    (show (run step (new {} {}) (sampleLateHead.take 3)).isSome = true by decide)
  have halive : (run step (new {} {}) (sampleLateHead.take 3)).map (fun s => s.alive 0) =
      some true := by decide
  have hbefore : (run step (new {} {}) sampleLateHead).map (fun s => s.feed.epoch) = some 3 := by
    decide
  have hafter : ((run step (new {} {}) sampleLateHead).bind fun s =>
      s.step (.append 0 .response [2])).map (fun u => u.feed.epoch) = some 4 := by decide
  rw [hu] at hafter
  rw [hs, Option.bind_some] at hu
  rw [hs] at hbefore
  rw [hv] at halive
  refine ⟨s, u, hs, hu, .lateAppend .response [2] ⟨sampleLateHead.take 3, _,
    sampleLateHead.drop 4, v, rfl, hv, Option.some.inj halive, .cancelled, 1, rfl⟩, ?_⟩
  rintro ⟨hfeed, -⟩
  have hepoch := congrArg CaptureChangeFeed.epoch hfeed
  rw [show u.feed.epoch = 4 from Option.some.inj hafter,
    show s.feed.epoch = 3 from Option.some.inj hbefore] at hepoch
  cases hepoch

end CaptureSystem

end Fluxcope.Capture
