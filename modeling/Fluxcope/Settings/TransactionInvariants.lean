import Fluxcope.Settings.TransactionSteps
/-!
# Invariants of the settings system

The policy in force is always the one compiled from the settings in force, and a
transaction in hand holds the token and the settings it was given.  Both hold in
every run, whatever the terminal does.
-/

namespace Fluxcope.Settings

open Fluxcope.Library Fluxcope.Mapping

variable {env : Environment} {globs : Globset}

/-! ## Candidates -/

/-- A change without effect asks for the settings there are. -/
theorem applyChange_unchanged {current settings : AppSettings} {change : SettingsTransactionChange}
    {affected : MappingObjectRef}
    (h : applyChange env current change = .ok (settings, .unchanged, affected)) :
    settings = current := by
  cases change with
  | mapping mutation =>
    simp only [applyChange] at h
    split at h
    · cases h
    · rename_i candidate result happly
      obtain ⟨hsettings, hrest⟩ := Prod.mk.inj (Except.ok.inj h)
      obtain ⟨heffect, -⟩ := Prod.mk.inj hrest
      rw [← hsettings, if_neg]
      intro hchanged
      rw [hchanged] at heffect
      cases heffect
  | replace replacement =>
    simp only [applyChange] at h
    split at h
    · cases h
    · obtain ⟨rfl, hrest⟩ := Prod.mk.inj (Except.ok.inj h)
      obtain ⟨heffect, -⟩ := Prod.mk.inj hrest
      by_contra hne
      rw [if_neg hne] at heffect
      cases heffect

/-- A candidate that is to be committed comes with its own policy. -/
structure Candidate (env : Environment) (current : AppSettings) (change : SettingsTransactionChange)
    (candidate : PreparedSettingsCandidate globs) : Prop where
  applied : applyChange env current change =
    .ok (candidate.settings, candidate.effect, candidate.affected)
  policy : candidate.effect = .changed → PatternsCompile globs candidate.settings ∧
    candidate.policy = some (RequestPolicy.compile env globs candidate.settings).1

theorem prepareCandidate_eq_ok {current : AppSettings} {change : SettingsTransactionChange}
    {candidate : PreparedSettingsCandidate globs}
    (h : prepareCandidate env globs current change = .ok candidate) :
    Candidate env current change candidate := by
  unfold prepareCandidate at h
  split at h
  · cases h
  · rename_i settings effect affected happly
    split at h
    · rename_i heffect
      obtain rfl := Except.ok.inj h
      refine ⟨happly, fun hchanged => ?_⟩
      dsimp only at hchanged
      rw [hchanged] at heffect
      cases heffect
    · split at h
      · cases h
      · rename_i policy hcompile
        obtain rfl := Except.ok.inj h
        obtain ⟨hpatterns, rfl⟩ := compileCandidate_eq_ok.1 hcompile
        exact ⟨happly, fun _ => ⟨hpatterns, rfl⟩⟩

namespace SettingsSystem

variable {s t : SettingsSystem globs}

/-! ## The invariant -/

/-- The transaction owns the token, and nothing has changed since its `Begin`. -/
structure Held (s : SettingsSystem globs) (work : SettingsTransactionWork)
    (begun : BeginSettingsTransactionReply) : Prop where
  pending : s.runtime.pendingSettingsTransaction = some (begun.token, work.origin)
  settings : s.runtime.settings = begun.settings
  revision : s.runtime.settingsRevision = begun.revision

/-- What is to be finalized was prepared from the settings handed out. -/
inductive CommitOf (env : Environment) (work : SettingsTransactionWork)
    (begun : BeginSettingsTransactionReply) (commit : AdmittedSettingsCommit globs) : Prop
  | committed (outcome : commit.outcome = .committed)
      (applied : applyChange env begun.settings work.change =
        .ok (commit.settings, .changed, commit.affected))
      (policy : commit.policy = some (RequestPolicy.compile env globs commit.settings).1)
  | unchanged (outcome : commit.outcome = .unchanged)
      (applied : applyChange env begun.settings work.change =
        .ok (begun.settings, .unchanged, commit.affected))
      (settings : commit.settings = begun.settings)

def PhaseSound (env : Environment) (s : SettingsSystem globs) : TransactionPhase globs → Prop
  | .idle => True
  | .beginning _ => True
  | .admitted work begun => s.Held work begun
  | .prepared work begun candidate =>
    s.Held work begun ∧ candidate.effect = .changed ∧
      Candidate env begun.settings work.change candidate
  | .finalizing work begun commit => s.Held work begun ∧ CommitOf env work begun commit
  | .aborting work begun _ => s.Held work begun

structure Sound (env : Environment) (s : SettingsSystem globs) : Prop where
  policy : s.runtime.requestPolicy = (RequestPolicy.compile env globs s.runtime.settings).1
  phase : s.PhaseSound env s.phase

theorem sound_start (context : SettingsUiContext) (settings : AppSettings) :
    Sound env (start env globs context settings) :=
  ⟨rfl, trivial⟩

theorem Held.congr {work : SettingsTransactionWork} {begun : BeginSettingsTransactionReply}
    (h : s.Held work begun) (hsettings : t.runtime.settings = s.runtime.settings)
    (hrevision : t.runtime.settingsRevision = s.runtime.settingsRevision)
    (hpending : t.runtime.pendingSettingsTransaction = s.runtime.pendingSettingsTransaction) :
    t.Held work begun :=
  ⟨hpending.trans h.pending, hsettings.trans h.settings, hrevision.trans h.revision⟩

theorem SameService.phaseSound (h : SameService s t) {phase : TransactionPhase globs}
    (hs : s.PhaseSound env phase) : t.PhaseSound env phase := by
  have hheld : ∀ work begun, s.Held work begun → t.Held work begun :=
    fun work begun held => held.congr h.settings h.revision h.pending
  cases phase with
  | idle => trivial
  | beginning work => trivial
  | admitted work begun => exact hheld work begun hs
  | prepared work begun candidate => exact ⟨hheld work begun hs.1, hs.2⟩
  | finalizing work begun commit => exact ⟨hheld work begun hs.1, hs.2⟩
  | aborting work begun error => exact hheld work begun hs

theorem Sound.of_sameService (hs : Sound env s) (h : SameService s t) : Sound env t where
  policy := by rw [h.policy, h.settings, hs.policy]
  phase := by
    rw [h.phase]
    exact h.phaseSound hs.phase

theorem PhaseSound.held {work : SettingsTransactionWork} {begun : BeginSettingsTransactionReply}
    (hs : s.PhaseSound env s.phase) (hphase : s.phase = .admitted work begun ∨
      ∃ candidate, s.phase = .prepared work begun candidate) : s.Held work begun := by
  rcases hphase with hphase | ⟨candidate, hphase⟩
  · rw [hphase] at hs
    exact hs
  · rw [hphase] at hs
    exact hs.1

/-! ## The end of a transaction -/

/-- The settings of the commit go in with their policy and the next revision. -/
def installed (s : SettingsSystem globs) (env : Environment)
    (commit : AdmittedSettingsCommit globs) : AppRuntime globs :=
  s.runtime.install commit.settings (RequestPolicy.compile env globs commit.settings).1

/-- How finalizing a transaction that holds the token ends. -/
inductive Ended (env : Environment) (s : SettingsSystem globs) (work : SettingsTransactionWork)
    (begun : BeginSettingsTransactionReply) (commit : AdmittedSettingsCommit globs) :
    SettingsSystem globs → Prop
  | unchanged (outcome : commit.outcome = .unchanged) :
      Ended env s work begun commit
        ({ s with runtime := s.runtime.release }.answer work
          (.ok (finishResult begun commit .unchanged)))
  | committed (outcome : commit.outcome = .committed) (app : App)
      (happ : s.runtime.app.applySettingsTransactionCommitFromOrigin commit.settings
        (nextRevision s.runtime.settingsRevision) work.origin = .ok app) :
      Ended env s work begun commit
        ({ s with runtime := { s.installed env commit with
            app, pendingSettingsTransaction := none } }.answer work
          (.ok (finishResult begun commit .committed)))
  | torn (outcome : commit.outcome = .committed) (error : SettingsError)
      (happ : s.runtime.app.applySettingsTransactionCommitFromOrigin commit.settings
        (nextRevision s.runtime.settingsRevision) work.origin = .error error) :
      Ended env s work begun commit
        ({ s with runtime := s.installed env commit }.answer work (.error error))

theorem finalizeTransaction_ended {work : SettingsTransactionWork}
    {begun : BeginSettingsTransactionReply} {commit : AdmittedSettingsCommit globs}
    (held : s.Held work begun) (hcommit : CommitOf env work begun commit) :
    Ended env s work begun commit (s.finalizeTransaction work begun commit) := by
  cases hcommit with
  | unchanged outcome applied settings =>
    have hresult : s.finalizeTransaction work begun commit =
        { s with runtime := s.runtime.release }.answer work
          (.ok (finishResult begun commit .unchanged)) := by
      simp only [finalizeTransaction, AppRuntime.executeControl,
        AppRuntime.finalizeSettingsTransaction, held.pending, finalizedTransaction, outcome]
      simp [finalizeReply, outcome, AppRuntime.release]
    rw [hresult]
    exact .unchanged outcome
  | committed outcome applied policy =>
    cases happ : s.runtime.app.applySettingsTransactionCommitFromOrigin commit.settings
        (nextRevision s.runtime.settingsRevision) work.origin with
    | ok app =>
      have hresult : s.finalizeTransaction work begun commit =
          { s with runtime := { s.installed env commit with
            app, pendingSettingsTransaction := none } }.answer work
            (.ok (finishResult begun commit .committed)) := by
        simp only [finalizeTransaction, AppRuntime.executeControl,
          AppRuntime.finalizeSettingsTransaction, held.pending, finalizedTransaction, outcome,
          policy, AppRuntime.install, happ]
        simp [finalizeReply, outcome, installed, AppRuntime.install]
      rw [hresult]
      exact .committed outcome app happ
    | error error =>
      have hresult : s.finalizeTransaction work begun commit =
          { s with runtime := s.installed env commit }.answer work (.error error) := by
        simp only [finalizeTransaction, AppRuntime.executeControl,
          AppRuntime.finalizeSettingsTransaction, held.pending, finalizedTransaction, outcome,
          policy, AppRuntime.install, happ]
        simp [finalizeReply, installed, AppRuntime.install, held.pending]
      rw [hresult]
      exact .torn outcome error happ

theorem abortTransaction_eq {work : SettingsTransactionWork}
    {begun : BeginSettingsTransactionReply} (held : s.Held work begun) (error : SettingsError) :
    s.abortTransaction work begun error =
      { s with runtime := s.runtime.release }.answer work (.error error) := by
  simp only [abortTransaction, AppRuntime.executeControl, held.pending]
  simp [AppRuntime.release]

/-! ## Every step keeps the invariant -/

theorem sound_answer {runtime : AppRuntime globs} {work : SettingsTransactionWork}
    {reply : TransactionReply}
    (h : runtime.requestPolicy = (RequestPolicy.compile env globs runtime.settings).1) :
    Sound env ({ s with runtime }.answer work reply) where
  policy := by
    rw [answer_runtime]
    exact h
  phase := by
    rw [answer_phase]
    trivial

theorem Ended.sound {work : SettingsTransactionWork} {begun : BeginSettingsTransactionReply}
    {commit : AdmittedSettingsCommit globs} (h : Ended env s work begun commit t)
    (hs : Sound env s) : Sound env t := by
  cases h with
  | unchanged outcome => exact sound_answer hs.policy
  | committed outcome app happ => exact sound_answer rfl
  | torn outcome error happ => exact sound_answer rfl

theorem Stepped.sound {event : SettingsEvent} (h : Stepped env s event t) (hs : Sound env s) :
    Sound env t := by
  have hphase' := hs.phase
  cases h with
  | terminal event => exact hs.of_sameService (sameService_terminal s _)
  | submitted mutation expectedRevision =>
    exact hs.of_sameService ⟨rfl, rfl, rfl, rfl, rfl, rfl, rfl, rfl⟩
  | saveSubmitted index draft hsave =>
    exact hs.of_sameService ⟨rfl, rfl, rfl, rfl, rfl, rfl, rfl, rfl⟩
  | received work queue hphase hqueue => exact ⟨hs.policy, trivial⟩
  | withdrawn message work hphase => exact sound_answer hs.policy
  | refused work error hphase hcheck => exact sound_answer hs.policy
  | begun work hphase hcheck => exact ⟨hs.policy, ⟨rfl, rfl, rfl⟩⟩
  | rejected work begun error hphase hprepare =>
    rw [hphase] at hphase'
    exact ⟨hs.policy, hphase'.congr rfl rfl rfl⟩
  | unchanged work begun candidate hphase hprepare heffect =>
    rw [hphase] at hphase'
    have happlied := (prepareCandidate_eq_ok hprepare).applied
    rw [heffect] at happlied
    have hsettings := applyChange_unchanged happlied
    refine ⟨hs.policy, hphase'.congr rfl rfl rfl, .unchanged rfl ?_ hsettings⟩
    rw [happlied, hsettings]
  | prepared work begun candidate hphase hprepare heffect =>
    rw [hphase] at hphase'
    exact ⟨hs.policy, hphase'.congr rfl rfl rfl, heffect, prepareCandidate_eq_ok hprepare⟩
  | failed failure work begun hphase =>
    exact ⟨hs.policy, (PhaseSound.held hs.phase hphase).congr rfl rfl rfl⟩
  | persisted work begun candidate hphase =>
    rw [hphase] at hphase'
    obtain ⟨held, heffect, hcandidate⟩ := hphase'
    refine ⟨hs.policy, held.congr rfl rfl rfl, .committed rfl ?_ (hcandidate.policy heffect).2⟩
    rw [hcandidate.applied, heffect]
  | finalized work begun commit hphase =>
    rw [hphase] at hphase'
    exact (finalizeTransaction_ended hphase'.1 hphase'.2).sound hs
  | aborted work begun error hphase =>
    rw [hphase] at hphase'
    rw [abortTransaction_eq hphase']
    exact sound_answer hs.policy
  | completed index reply hreply =>
    exact hs.of_sameService ⟨rfl, rfl, rfl, rfl, rfl, rfl, rfl, rfl⟩
  | readSettings => exact hs
  | readPreview expectedRevision => exact hs

theorem sound_of_step (event : SettingsEvent) (hs : Sound env s)
    (h : s.step env event = some t) : Sound env t :=
  (stepped_of_step h).sound hs

/-- In every run. -/
theorem sound_of_run {context : SettingsUiContext} {settings : AppSettings}
    {events : List SettingsEvent}
    (hrun : run (step env) (start env globs context settings) events = some s) : Sound env s :=
  run_invariant (fun _ event _ hs h => sound_of_step event hs h) (sound_start context settings) hrun

end SettingsSystem

end Fluxcope.Settings
