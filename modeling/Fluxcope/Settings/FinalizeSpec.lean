import Fluxcope.Settings.PreviewSpec
import Fluxcope.Settings.TerminalEffects
/-!
# Finalizing is atomic, if nothing comes late

A commit replaces the settings, the policy, the revision and what the application
shows together, as long as two things do not happen: a completion that is out of date
when the event loop takes it, and a draft that is dirty when a transaction of another
client commits.
-/

namespace Fluxcope.Settings

open Fluxcope.Library Fluxcope.Mapping

variable {env : Environment} {globs : Globset}

/-! ## What is promised -/

def TransactionPhase.isOpen : TransactionPhase globs → Bool
  | .idle => false
  | .beginning _ => false
  | .admitted _ _ => true
  | .prepared _ _ _ => true
  | .finalizing _ _ _ => true
  | .aborting _ _ _ => true

namespace SettingsSystem

/-- The application shows the settings in force, and the policy is compiled from them. -/
structure Agrees (env : Environment) (s : SettingsSystem globs) : Prop where
  settings : s.runtime.app.settings = s.runtime.settings
  revision : s.runtime.app.settingsRevision = s.runtime.settingsRevision
  policy : s.runtime.requestPolicy = (RequestPolicy.compile env globs s.runtime.settings).1

/-- A token is pending only during its transaction. -/
def TokenHeld (s : SettingsSystem globs) : Prop :=
  s.runtime.pendingSettingsTransaction.isSome = true → s.phase.isOpen = true

/-- A save of the popup has not begun, or its completion has not been taken. -/
def SaveOutstanding (s : SettingsSystem globs) : Prop :=
  s.saves ≠ [] ∨ (∃ work ∈ s.queue, work.origin = .tui) ∨
    (∃ work, s.phase = .beginning work ∧ work.origin = .tui) ∨ s.completions ≠ []

/-- The settings come into force, all at once. -/
structure Replaced (env : Environment) (settings : AppSettings) (s t : SettingsSystem globs) :
    Prop where
  settings : t.runtime.settings = settings
  revision : t.runtime.settingsRevision = nextRevision s.runtime.settingsRevision
  agrees : Agrees env t

/-- Nothing that was in force or shown has changed. -/
structure Untouched (s t : SettingsSystem globs) : Prop where
  settings : t.runtime.settings = s.runtime.settings
  revision : t.runtime.settingsRevision = s.runtime.settingsRevision
  policy : t.runtime.requestPolicy = s.runtime.requestPolicy
  appSettings : t.runtime.app.settings = s.runtime.app.settings
  appRevision : t.runtime.app.settingsRevision = s.runtime.app.settingsRevision

/-- What one step promises. -/
structure StepSound (env : Environment) (s : SettingsSystem globs) (event : SettingsEvent)
    (t : SettingsSystem globs) : Prop where
  agrees : Agrees env t
  token : TokenHeld t
  finalizes : event = .finalize → t.runtime.pendingSettingsTransaction = none ∧
    (Untouched s t ∨ ∃ work begun commit, s.phase = .finalizing work begun commit ∧
      Replaced env commit.settings s t)
  begins : event = .begin → s.runtime.pendingSettingsTransaction = none ∧
    (s.runtime.app.settingsTransactionPending = true → SaveOutstanding s)

/-- Whoever asked for the transaction in hand is told of an error. -/
def AnswersError (s t : SettingsSystem globs) : Prop :=
  ∃ error, (∃ work, t.replies = s.replies ++ [(work, .error error)]) ∨
    t.completions = s.completions ++ [.error error]

/-- The settings, the policy, the revision and the file of two states are the same. -/
structure SameState (s t : SettingsSystem globs) : Prop where
  settings : t.runtime.settings = s.runtime.settings
  policy : t.runtime.requestPolicy = s.runtime.requestPolicy
  revision : t.runtime.settingsRevision = s.runtime.settingsRevision
  configFile : t.configFile = s.configFile

/-- What a run promises: every step is sound, and an error says that nothing has changed
since the service has taken the request. -/
def FinalizeSound (env : Environment) (globs : Globset) (context : SettingsUiContext)
    (settings : AppSettings) (events : List SettingsEvent) : Prop :=
  ∀ pre event post s t, events = pre ++ event :: post →
    run (step env) (start env globs context settings) pre = some s → s.step env event = some t →
      StepSound env s event t ∧
        ∀ first mid r, pre = first ++ .receive :: mid → .receive ∉ mid →
          run (step env) (start env globs context settings) (first ++ [.receive]) = some r →
            AnswersError s t → SameState r t

/-- The completion at hand is of the settings in force, and no commit of another client
meets a dirty draft. -/
def Timely (s : SettingsSystem globs) : SettingsEvent → Prop
  | .complete index =>
    ∀ result, s.completions[index]? = some (.ok result) →
      result.settings = s.runtime.settings ∧ result.revision = s.runtime.settingsRevision
  | .finalize =>
    ∀ work begun commit, s.phase = .finalizing work begun commit → work.origin = .mcp →
      commit.outcome = .committed → s.runtime.app.settingsPopup.isDirty = false
  | _ => True

end SettingsSystem

/-! ## A commit in the application -/

namespace App

theorem applyCommit_eq_ok {app app' : App} {settings : AppSettings} {revision : Nat}
    {origin : SettingsTransactionOrigin}
    (h : app.applySettingsTransactionCommitFromOrigin settings revision origin = .ok app') :
    app'.settings = settings ∧ app'.settingsRevision = revision ∧
      app'.settingsTransactionPending = false ∧ app'.pendingSettingsSave = app.pendingSettingsSave := by
  unfold applySettingsTransactionCommitFromOrigin at h
  split at h
  · cases h
  · obtain rfl := Except.ok.inj h
    exact ⟨rfl, rfl, rfl, rfl⟩

theorem applyCommit_eq_error {app : App} {settings : AppSettings} {revision : Nat}
    {origin : SettingsTransactionOrigin} {error : SettingsError}
    (h : app.applySettingsTransactionCommitFromOrigin settings revision origin = .error error) :
    origin = .mcp ∧ app.settingsPopup.isDirty = true := by
  unfold applySettingsTransactionCommitFromOrigin at h
  split at h
  case isTrue hconflict => simpa using hconflict
  case isFalse => cases h

theorem applyCommit_dirty {app : App} {settings : AppSettings} {revision : Nat}
    {origin : SettingsTransactionOrigin} (horigin : origin = .mcp)
    (hdirty : app.settingsPopup.isDirty = true) :
    app.applySettingsTransactionCommitFromOrigin settings revision origin =
      .error
        { code := .tuiDraftConflict
          message := "mapping settings conflict with an unsaved TUI draft"
          retryable := false
          details := .currentRevision app.settingsRevision } := by
  unfold applySettingsTransactionCommitFromOrigin
  rw [if_pos]
  simp [horigin, hdirty]

end App

namespace SettingsSystem

variable {s t : SettingsSystem globs}

/-! ## The invariant -/

structure Settled (env : Environment) (s : SettingsSystem globs) : Prop where
  sound : Sound env s
  agrees : Agrees env s
  token : TokenHeld s
  save : s.runtime.app.pendingSettingsSave = none
  pending : s.runtime.app.settingsTransactionPending = true →
    s.runtime.pendingSettingsTransaction.isSome = true ∨ SaveOutstanding s

theorem settled_start (context : SettingsUiContext) (settings : AppSettings) :
    Settled env (start env globs context settings) where
  sound := sound_start context settings
  agrees := ⟨rfl, rfl, rfl⟩
  token := fun h => by cases h
  save := rfl
  pending := fun h => by cases h

/-- Between two transactions there is no token. -/
theorem Settled.free (h : Settled env s) (hphase : s.phase.isOpen = false) :
    s.runtime.pendingSettingsTransaction = none := by
  cases hpending : s.runtime.pendingSettingsTransaction with
  | none => rfl
  | some _ =>
    have hopen := h.token (by rw [hpending]; rfl)
    rw [hphase] at hopen
    cases hopen

/-- A refused or withdrawn request goes back to who sent it. -/
theorem saveOutstanding_answer {work : SettingsTransactionWork} {reply : TransactionReply}
    (hphase : s.phase = .beginning work) (h : SaveOutstanding s) :
    SaveOutstanding (s.answer work reply) := by
  unfold answer
  cases horigin : work.origin with
  | tui => exact .inr (.inr (.inr (List.append_ne_nil_of_right_ne_nil _ (List.cons_ne_nil _ _))))
  | mcp =>
    rcases h with hsaves | hqueue | ⟨other, hother, htui⟩ | hcompletions
    · exact .inl hsaves
    · exact .inr (.inl hqueue)
    · rw [hphase] at hother
      cases hother
      rw [horigin] at htui
      cases htui
    · exact .inr (.inr (.inr hcompletions))

theorem settled_answer {work : SettingsTransactionWork} {reply : TransactionReply}
    (hphase : s.phase = .beginning work) (hs : Settled env s) :
    Settled env (s.answer work reply) where
  sound := (@sound_answer _ _ _ s.runtime) hs.sound.policy
  agrees := by
    have hagrees := hs.agrees
    exact ⟨by simpa using hagrees.settings, by simpa using hagrees.revision,
      by simpa using hagrees.policy⟩
  token := by
    have hfree := hs.free (by rw [hphase]; rfl)
    intro h
    rw [answer_runtime, hfree] at h
    cases h
  save := by
    rw [answer_runtime]
    exact hs.save
  pending := by
    rw [answer_runtime]
    intro h
    rcases hs.pending h with hpending | hsave
    · exact .inl hpending
    · exact .inr (saveOutstanding_answer hphase hsave)

/-- After the end of a transaction nothing is pending. -/
theorem settled_ended {runtime : AppRuntime globs} {work : SettingsTransactionWork}
    {reply : TransactionReply} (hsettings : runtime.app.settings = runtime.settings)
    (hrevision : runtime.app.settingsRevision = runtime.settingsRevision)
    (hpolicy : runtime.requestPolicy = (RequestPolicy.compile env globs runtime.settings).1)
    (htoken : runtime.pendingSettingsTransaction = none)
    (hsave : runtime.app.pendingSettingsSave = none)
    (hpending : runtime.app.settingsTransactionPending = false) :
    Settled env ({ s with runtime }.answer work reply) where
  sound := sound_answer hpolicy
  agrees := by
    constructor
    · rw [answer_runtime]; exact hsettings
    · rw [answer_runtime]; exact hrevision
    · rw [answer_runtime]; exact hpolicy
  token := by
    intro h
    rw [answer_runtime, htoken] at h
    cases h
  save := by
    rw [answer_runtime]
    exact hsave
  pending := by
    intro h
    rw [answer_runtime, hpending] at h
    cases h

theorem Sound.pending_of_isOpen (hs : Sound env s) (hopen : s.phase.isOpen = true) :
    s.runtime.pendingSettingsTransaction.isSome = true := by
  have hphase := hs.phase
  unfold PhaseSound at hphase
  split at hphase
  case h_1 h => rw [h] at hopen; cases hopen
  case h_2 h => rw [h] at hopen; cases hopen
  case h_3 => rw [hphase.pending]; rfl
  case h_4 => rw [hphase.1.pending]; rfl
  case h_5 => rw [hphase.1.pending]; rfl
  case h_6 => rw [hphase.pending]; rfl

/-- A transaction goes on to its next phase. -/
theorem Settled.advance (hs : Settled env s) (hsound : Sound env t)
    (hruntime : t.runtime = s.runtime) (hopen : t.phase.isOpen = true) : Settled env t where
  sound := hsound
  agrees := by
    constructor
    · rw [hruntime]; exact hs.agrees.settings
    · rw [hruntime]; exact hs.agrees.revision
    · exact hsound.policy
  token := fun _ => hopen
  save := by
    rw [hruntime]
    exact hs.save
  pending := fun _ => .inl (hsound.pending_of_isOpen hopen)

/-- The application or the queues change, but neither what is shown nor what is pending. -/
theorem Settled.congr (hs : Settled env s) (hsame : SameService s t)
    (hview : s.runtime.app.SameView t.runtime.app) (hsave : t.runtime.app.pendingSettingsSave = none)
    (hout : SaveOutstanding s → SaveOutstanding t) : Settled env t where
  sound := hs.sound.of_sameService hsame
  agrees := by
    constructor
    · rw [hview.settings, hsame.settings, hs.agrees.settings]
    · rw [hview.revision, hsame.revision, hs.agrees.revision]
    · rw [hsame.policy, hsame.settings, hs.agrees.policy]
  token := by
    intro h
    rw [hsame.phase]
    rw [hsame.pending] at h
    exact hs.token h
  save := hsave
  pending := by
    intro h
    rw [hview.pending] at h
    rw [hsame.pending]
    exact (hs.pending h).imp_right hout

theorem Ended.settled {work : SettingsTransactionWork} {begun : BeginSettingsTransactionReply}
    {commit : AdmittedSettingsCommit globs} (h : Ended env s work begun commit t)
    (hs : Settled env s)
    (htimely : work.origin = .mcp → commit.outcome = .committed →
      s.runtime.app.settingsPopup.isDirty = false) :
    Settled env t ∧ t.runtime.pendingSettingsTransaction = none ∧
      (Untouched s t ∨ Replaced env commit.settings s t) := by
  cases h with
  | unchanged outcome =>
    have hsettled := @settled_ended _ _ s s.runtime.release work
      (.ok (finishResult begun commit .unchanged)) hs.agrees.settings hs.agrees.revision
      hs.agrees.policy rfl hs.save rfl
    refine ⟨hsettled, by rw [answer_runtime]; rfl, .inl ?_⟩
    constructor <;> (rw [answer_runtime]; rfl)
  | committed outcome app happ =>
    obtain ⟨hsettings, hrevision, hpending, hsave⟩ := App.applyCommit_eq_ok happ
    have hsettled := @settled_ended _ _ s
      { s.installed env commit with app, pendingSettingsTransaction := none } work
      (.ok (finishResult begun commit .committed)) hsettings hrevision rfl rfl
      (hsave.trans hs.save) hpending
    refine ⟨hsettled, by rw [answer_runtime], .inr ⟨?_, ?_, hsettled.agrees⟩⟩
    · rw [answer_runtime]; rfl
    · rw [answer_runtime]; rfl
  | torn outcome error happ =>
    obtain ⟨horigin, hdirty⟩ := App.applyCommit_eq_error happ
    rw [htimely horigin outcome] at hdirty
    cases hdirty

theorem settled_completed {index : Nat} {reply : TransactionReply} (hs : Settled env s)
    (hreply : s.completions[index]? = some reply) (htimely : Timely s (.complete index)) :
    Settled env { s.modifyApp fun app => handleCompletion app reply with
      completions := s.completions.eraseIdx index } := by
  have hsound := hs.sound.of_sameService (t := { s.modifyApp fun app => handleCompletion app reply with
    completions := s.completions.eraseIdx index }) ⟨rfl, rfl, rfl, rfl, rfl, rfl, rfl, rfl⟩
  cases reply with
  | ok result =>
    obtain ⟨hsettings, hrevision⟩ := htimely result hreply
    exact
      { sound := hsound
        agrees := ⟨hsettings, hrevision, hs.agrees.policy⟩
        token := hs.token
        save := hs.save
        pending := fun h => by cases h }
  | error error =>
    exact
      { sound := hsound
        agrees := ⟨hs.agrees.settings, hs.agrees.revision, hs.agrees.policy⟩
        token := hs.token
        save := hs.save
        pending := fun h => by cases h }

/-- A timely step keeps the invariant. -/
theorem settled_of_stepped {event : SettingsEvent} (h : Stepped env s event t) (hs : Settled env s)
    (htimely : Timely s event) : Settled env t := by
  have hsound := h.sound hs.sound
  cases h with
  | terminal event =>
    have heffect := (@terminalEffect env) hs.save event
    generalize (s.modifyApp fun app => app.handleTerminalEvent env event
      ).handleSettingsSaveRequest = u at heffect
    cases heffect with
    | shown app hhandled hsave =>
      exact hs.congr (sameService_modifyApp s _) hhandled.sameView hsave id
    | requested hevent hactive hpending =>
      have hsaves : SaveOutstanding
          { s.modifyApp fun app => app.setSettingsTransactionPending true with
            saves := s.saves ++ [s.runtime.app.settingsPopup.draft.current] } :=
        .inl (List.append_ne_nil_of_right_ne_nil _ (List.cons_ne_nil _ _))
      exact { hs with
        sound := hs.sound.of_sameService ⟨rfl, rfl, rfl, rfl, rfl, rfl, rfl, rfl⟩
        agrees := ⟨hs.agrees.settings, hs.agrees.revision, hs.agrees.policy⟩
        token := hs.token
        pending := fun _ => .inr hsaves }
  | submitted mutation expectedRevision =>
    refine hs.congr ⟨rfl, rfl, rfl, rfl, rfl, rfl, rfl, rfl⟩ ⟨rfl, rfl, rfl⟩ hs.save ?_
    rintro (hsaves | ⟨work, hwork, htui⟩ | hrest)
    · exact .inl hsaves
    · exact .inr (.inl ⟨work, List.mem_append_left _ hwork, htui⟩)
    · exact .inr (.inr hrest)
  | saveSubmitted index draft hsave =>
    refine hs.congr ⟨rfl, rfl, rfl, rfl, rfl, rfl, rfl, rfl⟩ ⟨rfl, rfl, rfl⟩ hs.save fun _ => ?_
    exact .inr (.inl ⟨_, List.mem_append_right _ (List.mem_singleton_self _), rfl⟩)
  | received work queue hphase hqueue =>
    have hfree := hs.free (by rw [hphase]; rfl)
    refine { hs with
      sound := hsound
      agrees := ⟨hs.agrees.settings, hs.agrees.revision, hs.agrees.policy⟩
      token := ?_
      pending := ?_ }
    · intro h
      have h : s.runtime.pendingSettingsTransaction.isSome = true := h
      rw [hfree] at h
      cases h
    · intro h
      rcases hs.pending h with hpending | hsaves | ⟨other, hother, htui⟩ | ⟨other, hother, -⟩ | hrest
      · exact .inl hpending
      · exact .inr (.inl hsaves)
      · rw [hqueue] at hother
        rcases List.mem_cons.1 hother with rfl | hother
        · exact .inr (.inr (.inr (.inl ⟨other, rfl, htui⟩)))
        · exact .inr (.inr (.inl ⟨other, hother, htui⟩))
      · rw [hphase] at hother
        cases hother
      · exact .inr (.inr (.inr (.inr hrest)))
  | withdrawn message work hphase => exact settled_answer hphase hs
  | refused work error hphase hcheck => exact settled_answer hphase hs
  | begun work hphase hcheck =>
    exact
      { sound := hsound
        agrees := ⟨hs.agrees.settings, hs.agrees.revision, hs.agrees.policy⟩
        token := fun _ => rfl
        save := hs.save
        pending := fun _ => .inl rfl }
  | rejected work begun error hphase hprepare => exact hs.advance hsound rfl rfl
  | unchanged work begun candidate hphase hprepare heffect => exact hs.advance hsound rfl rfl
  | prepared work begun candidate hphase hprepare heffect => exact hs.advance hsound rfl rfl
  | failed failure work begun hphase => exact hs.advance hsound rfl rfl
  | persisted work begun candidate hphase => exact hs.advance hsound rfl rfl
  | finalized work begun commit hphase =>
    have hcommit := hs.sound.phase
    rw [hphase] at hcommit
    exact ((finalizeTransaction_ended hcommit.1 hcommit.2).settled hs
      (htimely work begun commit hphase)).1
  | aborted work begun error hphase =>
    have held := hs.sound.phase
    rw [hphase] at held
    rw [abortTransaction_eq held]
    exact settled_ended hs.agrees.settings hs.agrees.revision hs.agrees.policy rfl hs.save rfl
  | completed index reply hreply => exact settled_completed hs hreply htimely
  | readSettings => exact hs
  | readPreview expectedRevision => exact hs

/-- A timely step keeps all promises. -/
theorem stepSound_of_stepped {event : SettingsEvent} (h : Stepped env s event t)
    (hs : Settled env s) (htimely : Timely s event) : StepSound env s event t where
  agrees := (settled_of_stepped h hs htimely).agrees
  token := (settled_of_stepped h hs htimely).token
  finalizes := by
    rintro rfl
    cases h with
    | finalized work begun commit hphase =>
      have hcommit := hs.sound.phase
      rw [hphase] at hcommit
      have hended := finalizeTransaction_ended hcommit.1 hcommit.2
      obtain ⟨-, hfree, hall⟩ := hended.settled hs (htimely work begun commit hphase)
      exact ⟨hfree, hall.imp_right fun hreplaced => ⟨work, begun, commit, hphase, hreplaced⟩⟩
  begins := by
    rintro rfl
    have hphase : s.phase.isOpen = false := by
      cases h with
      | refused work error hphase hcheck => rw [hphase]; rfl
      | begun work hphase hcheck => rw [hphase]; rfl
    have hfree := hs.free hphase
    refine ⟨hfree, fun h => ?_⟩
    rcases hs.pending h with hpending | hsave
    · rw [hfree] at hpending
      cases hpending
    · exact hsave

/-! ## Errors -/

/-- While the request that was taken is in hand nothing has changed, except that the
file of a commit may be in place. -/
def SinceReceived (r s : SettingsSystem globs) : Prop :=
  s.phase ≠ .idle →
    s.runtime.settings = r.runtime.settings ∧ s.runtime.requestPolicy = r.runtime.requestPolicy ∧
      s.runtime.settingsRevision = r.runtime.settingsRevision ∧
      (s.configFile = r.configFile ∨ ∃ work begun commit, s.phase = .finalizing work begun commit)

theorem SinceReceived.congr {r : SettingsSystem globs} (h : SinceReceived r s)
    (hsame : SameService s t) : SinceReceived r t := by
  intro hphase
  rw [hsame.phase] at hphase
  obtain ⟨hsettings, hpolicy, hrevision, hfile⟩ := h hphase
  refine ⟨hsame.settings.trans hsettings, hsame.policy.trans hpolicy,
    hsame.revision.trans hrevision, ?_⟩
  rw [hsame.configFile, hsame.phase]
  exact hfile

/-- A step within a transaction. -/
theorem SinceReceived.advance {r : SettingsSystem globs} (h : SinceReceived r s)
    (hphase : s.phase ≠ .idle) (hopen : ∀ work begun commit, s.phase ≠ .finalizing work begun commit)
    (hsettings : t.runtime.settings = s.runtime.settings)
    (hpolicy : t.runtime.requestPolicy = s.runtime.requestPolicy)
    (hrevision : t.runtime.settingsRevision = s.runtime.settingsRevision)
    (hfile : t.configFile = s.configFile ∨
      ∃ work begun commit, t.phase = .finalizing work begun commit) : SinceReceived r t := by
  intro _
  obtain ⟨hsettings', hpolicy', hrevision', hfile'⟩ := h hphase
  refine ⟨hsettings.trans hsettings', hpolicy.trans hpolicy', hrevision.trans hrevision', ?_⟩
  rcases hfile' with hfile' | ⟨work, begun, commit, hfinal⟩
  · exact hfile.imp_left fun hfile => hfile.trans hfile'
  · exact absurd hfinal (hopen work begun commit)

theorem sinceReceived_of_stepped {r : SettingsSystem globs} {event : SettingsEvent}
    (h : Stepped env s event t) (hother : event ≠ .receive) (hr : SinceReceived r s) :
    SinceReceived r t := by
  have hidle : ∀ {t : SettingsSystem globs}, t.phase = .idle → SinceReceived r t :=
    fun hphase hne => absurd hphase hne
  cases h with
  | terminal event => exact hr.congr (sameService_terminal s _)
  | submitted mutation expectedRevision => exact hr.congr ⟨rfl, rfl, rfl, rfl, rfl, rfl, rfl, rfl⟩
  | saveSubmitted index draft hsave => exact hr.congr ⟨rfl, rfl, rfl, rfl, rfl, rfl, rfl, rfl⟩
  | received work queue hphase hqueue => exact absurd rfl hother
  | withdrawn message work hphase => exact hidle (answer_phase _ _)
  | refused work error hphase hcheck => exact hidle (answer_phase _ _)
  | begun work hphase hcheck =>
    refine hr.advance ?_ ?_ rfl rfl rfl (.inl rfl) <;> simp [hphase]
  | rejected work begun error hphase hprepare =>
    refine hr.advance ?_ ?_ rfl rfl rfl (.inl rfl) <;> simp [hphase]
  | unchanged work begun candidate hphase hprepare heffect =>
    refine hr.advance ?_ ?_ rfl rfl rfl (.inl rfl) <;> simp [hphase]
  | prepared work begun candidate hphase hprepare heffect =>
    refine hr.advance ?_ ?_ rfl rfl rfl (.inl rfl) <;> simp [hphase]
  | failed failure work begun hphase =>
    rcases hphase with hphase | ⟨candidate, hphase⟩ <;>
      refine hr.advance ?_ ?_ rfl rfl rfl (.inl rfl) <;> simp [hphase]
  | persisted work begun candidate hphase =>
    refine hr.advance ?_ ?_ rfl rfl rfl (.inr ⟨work, begun, _, rfl⟩) <;> simp [hphase]
  | finalized work begun commit hphase => exact hidle (answer_phase _ _)
  | aborted work begun error hphase =>
    refine hidle ?_
    unfold abortTransaction
    split <;> exact answer_phase _ _
  | completed index reply hreply => exact hr.congr ⟨rfl, rfl, rfl, rfl, rfl, rfl, rfl, rfl⟩
  | readSettings => exact hr
  | readPreview expectedRevision => exact hr

theorem AnswersError.longer (h : AnswersError s t) :
    s.replies.length < t.replies.length ∨ s.completions.length < t.completions.length := by
  obtain ⟨error, ⟨work, hreplies⟩ | hcompletions⟩ := h
  · exact .inl (by rw [hreplies, List.length_append]; exact Nat.lt_succ_self _)
  · exact .inr (by rw [hcompletions, List.length_append]; exact Nat.lt_succ_self _)

theorem AnswersError.reply {runtime : AppRuntime globs} {work : SettingsTransactionWork}
    {reply : TransactionReply} (h : AnswersError s ({ s with runtime }.answer work reply)) :
    ∃ error, reply = .error error := by
  obtain ⟨error, h⟩ := h
  refine ⟨error, ?_⟩
  unfold answer at h
  cases horigin : work.origin with
  | tui =>
    simp only [horigin] at h
    rcases h with ⟨other, hreplies⟩ | hcompletions
    · simp at hreplies
    · simpa using hcompletions
  | mcp =>
    simp only [horigin] at h
    rcases h with ⟨other, hreplies⟩ | hcompletions
    · simp at hreplies
      exact hreplies.2
    · simp at hcompletions

theorem not_answersError (hreplies : t.replies = s.replies)
    (hcompletions : t.completions.length ≤ s.completions.length) : ¬ AnswersError s t := by
  intro herror
  have hlonger := herror.longer
  rw [hreplies] at hlonger
  omega

theorem completions_terminal (s : SettingsSystem globs) (f : App → App) :
    (s.modifyApp f).handleSettingsSaveRequest.completions = s.completions := by
  unfold handleSettingsSaveRequest
  split
  · rfl
  · split <;> rfl

/-- A request that ends without a commit. -/
theorem SinceReceived.sameState {r : SettingsSystem globs} {runtime : AppRuntime globs}
    {work : SettingsTransactionWork} {reply : TransactionReply} (h : SinceReceived r s)
    (hphase : s.phase ≠ .idle) (hopen : ∀ work begun commit, s.phase ≠ .finalizing work begun commit)
    (hsettings : runtime.settings = s.runtime.settings)
    (hpolicy : runtime.requestPolicy = s.runtime.requestPolicy)
    (hrevision : runtime.settingsRevision = s.runtime.settingsRevision) :
    SameState r ({ s with runtime }.answer work reply) := by
  obtain ⟨hsettings', hpolicy', hrevision', hfile⟩ := h hphase
  constructor
  · rw [answer_runtime]; exact hsettings.trans hsettings'
  · rw [answer_runtime]; exact hpolicy.trans hpolicy'
  · rw [answer_runtime]; exact hrevision.trans hrevision'
  · rw [answer_configFile]
    rcases hfile with hfile | ⟨work, begun, commit, hfinal⟩
    · exact hfile
    · exact absurd hfinal (hopen work begun commit)

/-- Who is told of an error finds everything as it was when the request was taken. -/
theorem sameState_of_error {r : SettingsSystem globs} {event : SettingsEvent}
    (h : Stepped env s event t) (hs : Settled env s) (htimely : Timely s event)
    (hr : SinceReceived r s) (herror : AnswersError s t) : SameState r t := by
  cases h with
  | terminal event =>
    exact absurd herror (not_answersError (sameService_terminal s _).replies
      (le_of_eq (congrArg List.length (completions_terminal s _))))
  | submitted mutation expectedRevision => exact absurd herror (not_answersError rfl le_rfl)
  | saveSubmitted index draft hsave => exact absurd herror (not_answersError rfl le_rfl)
  | received work queue hphase hqueue => exact absurd herror (not_answersError rfl le_rfl)
  | withdrawn message work hphase =>
    refine @SinceReceived.sameState _ _ _ s.runtime _ _ hr ?_ ?_ rfl rfl rfl <;> simp [hphase]
  | refused work error hphase hcheck =>
    refine @SinceReceived.sameState _ _ _ s.runtime _ _ hr ?_ ?_ rfl rfl rfl <;> simp [hphase]
  | begun work hphase hcheck => exact absurd herror (not_answersError rfl le_rfl)
  | rejected work begun error hphase hprepare => exact absurd herror (not_answersError rfl le_rfl)
  | unchanged work begun candidate hphase hprepare heffect =>
    exact absurd herror (not_answersError rfl le_rfl)
  | prepared work begun candidate hphase hprepare heffect =>
    exact absurd herror (not_answersError rfl le_rfl)
  | failed failure work begun hphase => exact absurd herror (not_answersError rfl le_rfl)
  | persisted work begun candidate hphase => exact absurd herror (not_answersError rfl le_rfl)
  | finalized work begun commit hphase =>
    have hcommit := hs.sound.phase
    rw [hphase] at hcommit
    have hended := finalizeTransaction_ended hcommit.1 hcommit.2
    generalize s.finalizeTransaction work begun commit = u at hended herror
    cases hended with
    | unchanged outcome =>
      obtain ⟨error, hreply⟩ := herror.reply
      cases hreply
    | committed outcome app happ =>
      obtain ⟨error, hreply⟩ := herror.reply
      cases hreply
    | torn outcome error happ =>
      obtain ⟨horigin, hdirty⟩ := App.applyCommit_eq_error happ
      rw [htimely work begun commit hphase horigin outcome] at hdirty
      cases hdirty
  | aborted work begun error hphase =>
    have held := hs.sound.phase
    rw [hphase] at held
    rw [abortTransaction_eq held]
    refine hr.sameState ?_ ?_ rfl rfl rfl <;> simp [hphase]
  | completed index reply hreply =>
    exact absurd herror (not_answersError rfl (List.length_eraseIdx_le _ _))
  | readSettings => exact absurd herror (not_answersError rfl le_rfl)
  | readPreview expectedRevision => exact absurd herror (not_answersError rfl le_rfl)

/-! ## Runs -/

theorem settled_of_run {context : SettingsUiContext} {settings : AppSettings}
    {events : List SettingsEvent} (htimely : Along (step env) Timely
      (start env globs context settings) events)
    (hrun : run (step env) (start env globs context settings) events = some s) : Settled env s :=
  run_invariant_along (fun _ _ _ hs htimely h => settled_of_stepped (stepped_of_step h) hs htimely)
    (settled_start context settings) htimely hrun

theorem sinceReceived_of_run {r : SettingsSystem globs} {events : List SettingsEvent}
    (hevents : .receive ∉ events) (hrun : run (step env) r events = some s) : SinceReceived r s := by
  have hstart : SinceReceived r r := fun _ => ⟨rfl, rfl, rfl, .inl rfl⟩
  refine run_invariant_along (Q := fun _ event => event ≠ .receive)
    (fun _ _ _ hr hother h => sinceReceived_of_stepped (stepped_of_step h) hother hr) hstart ?_ hrun
  exact along_of_forall_mem fun event hevent hreceive => hevents (hreceive ▸ hevent)

/-- A step that keeps the promises is timely. -/
theorem timely_of_stepSound {event : SettingsEvent} (hs : Sound env s)
    (h : ∀ t, s.step env event = some t → StepSound env s event t) : Timely s event := by
  cases event with
  | complete index =>
    intro result hresult
    have hstep : s.step env (.complete index) =
        some { s.modifyApp fun app => handleCompletion app (.ok result) with
          completions := s.completions.eraseIdx index } := by
      simp only [step, hresult]
    have hagrees := (h _ hstep).agrees
    exact ⟨hagrees.settings, hagrees.revision⟩
  | finalize =>
    intro work begun commit hphase horigin houtcome
    by_contra hdirty
    rw [Bool.not_eq_false] at hdirty
    have hstep : s.step env .finalize = some (s.finalizeTransaction work begun commit) := by
      simp only [step, hphase]
    have hfree := ((h _ hstep).finalizes rfl).1
    have hcommit := hs.phase
    rw [hphase] at hcommit
    have hended := finalizeTransaction_ended hcommit.1 hcommit.2
    generalize s.finalizeTransaction work begun commit = t at hended hfree
    cases hended with
    | unchanged outcome =>
      rw [houtcome] at outcome
      cases outcome
    | committed outcome app happ =>
      rw [App.applyCommit_dirty horigin hdirty] at happ
      cases happ
    | torn outcome error happ =>
      rw [answer_runtime] at hfree
      have hheld := hcommit.1.pending
      have hfree : s.runtime.pendingSettingsTransaction = none := hfree
      rw [hfree] at hheld
      cases hheld
  | _ => trivial

/-- In runs whose steps are timely, and in no others, all promises are kept. -/
theorem finalizeSound_iff (context : SettingsUiContext) (settings : AppSettings)
    (events : List SettingsEvent) :
    FinalizeSound env globs context settings events ↔
      Along (step env) Timely (start env globs context settings) events := by
  constructor
  · intro h
    rw [along_iff]
    intro pre event post s hevents hrun
    exact timely_of_stepSound (sound_of_run hrun) fun t hstep =>
      (h pre event post s t hevents hrun hstep).1
  · intro htimely pre event post s t hevents hrun hstep
    rw [hevents] at htimely
    have hs := settled_of_run htimely.append_left hrun
    have hat : Timely s event := (htimely.append_right hrun).1
    refine ⟨stepSound_of_stepped (stepped_of_step hstep) hs hat, ?_⟩
    intro first mid r hpre hmid hreceived herror
    have hrest : run (step env) r mid = some s := by
      have hsplit : pre = (first ++ [.receive]) ++ mid := by simp [hpre]
      rw [hsplit, run_append_eq_some] at hrun
      obtain ⟨r', hr', hrest⟩ := hrun
      rw [hreceived] at hr'
      obtain rfl := Option.some.inj hr'
      exact hrest
    exact sameState_of_error (stepped_of_step hstep) hs hat (sinceReceived_of_run hmid hrest) herror

/-- A save of the popup whose completion is taken only when a mutation of another
client is about to be finalized; the user opens the popup again and edits. -/
def lateCompletion : List SettingsEvent :=
  let expanded : AppSettings :=
    { ui := { requestList := { autoExpand := true } }, proxy := some switchedOff }
  [.terminal .openSettings, .terminal (.popup (.edit expanded none)), .terminal (.popup .save),
    .submitSave 0, .receive, .begin, .prepare, .persist, .finalize, .terminal (.popup .close),
    .submit (.setGlobalEnabled true) 2, .receive, .begin, .prepare, .persist, .complete 0,
    .terminal .openSettings, .terminal (.popup (.edit {} none))]

/-- The token stays pending, although the transaction has ended. -/
theorem lateCompletion_tears_commit :
    ¬ ∀ (env : Environment) (globs : Globset) (context : SettingsUiContext)
      (settings : AppSettings) (events : List SettingsEvent),
      FinalizeSound env globs context settings events := by
  intro h
  have hend : (run (step sampleEnvironment)
      (start sampleEnvironment sampleGlobset sampleContext { proxy := some switchedOff })
      (lateCompletion ++ [.finalize])).map
      (fun s => (s.runtime.pendingSettingsTransaction.isSome, s.phase.isOpen)) =
      some (true, false) := by
    decide +kernel
  obtain ⟨t, hrun, hpair⟩ := Option.map_eq_some_iff.1 hend
  obtain ⟨hpending, hopen⟩ := Prod.mk.inj hpair
  obtain ⟨s, hs, hstep⟩ := run_snoc_eq_some.1 hrun
  have hsound := h sampleEnvironment sampleGlobset sampleContext { proxy := some switchedOff }
    (lateCompletion ++ [.finalize]) lateCompletion .finalize [] s t rfl hs hstep
  have hopen' := hsound.1.token hpending
  rw [hopen] at hopen'
  cases hopen'

end SettingsSystem

end Fluxcope.Settings
