import Fluxcope.Settings.Transactions
/-!
# What one step of the settings system does

Every event is given its effect, so that later proofs distinguish the effects and
not the branches of the step function.  The invariant ties the token of the event
loop to the transaction in hand.
-/

namespace Fluxcope.Settings

open Fluxcope.Library Fluxcope.Mapping

variable {env : Environment} {globs : Globset}

/-! ## Small facts about the operations -/

namespace AppRuntime

/-- The runtime with a transaction admitted. -/
def occupy (runtime : AppRuntime globs) (origin : SettingsTransactionOrigin) : AppRuntime globs :=
  { runtime with
    nextSettingsTransactionToken := satAdd runtime.nextSettingsTransactionToken 1
    pendingSettingsTransaction := some (runtime.nextSettingsTransactionToken, origin)
    app := runtime.app.setSettingsTransactionPending true }

def begunReply (runtime : AppRuntime globs) : BeginSettingsTransactionReply :=
  { settings := runtime.settings
    revision := runtime.settingsRevision
    token := runtime.nextSettingsTransactionToken
    configMode := runtime.settingsContext.configMode
    persistence := runtime.settingsContext.persistence }

/-- The runtime with the pending transaction dropped. -/
def release (runtime : AppRuntime globs) : AppRuntime globs :=
  { runtime with
    app := runtime.app.setSettingsTransactionPending false
    pendingSettingsTransaction := none }

theorem admission_free {runtime : AppRuntime globs} {expectedRevision : Option Nat}
    {origin : SettingsTransactionOrigin}
    (h : runtime.checkSettingsAdmission expectedRevision origin = .ok ()) :
    (∀ expected, expectedRevision = some expected → expected = runtime.settingsRevision) ∧
      (origin = .mcp → runtime.app.settingsPopup.isDirty = false) ∧
      (origin = .mcp → runtime.app.settingsTransactionPending = false) ∧
      runtime.pendingSettingsTransaction = none := by
  unfold checkSettingsAdmission at h
  split at h
  · cases h
  · rename_i hrevision
    split at h
    · cases h
    · rename_i hdirty
      split at h
      · cases h
      · rename_i hpending
        rw [Bool.or_eq_true, not_or] at hpending
        refine ⟨?_, ?_, ?_, ?_⟩
        · rintro expected rfl
          simpa using hrevision
        · rintro rfl
          simpa using hdirty
        · rintro rfl
          simpa using hpending.1
        · simpa using hpending.2

end AppRuntime

namespace SettingsSystem

variable {s t : SettingsSystem globs}

@[simp] theorem answer_runtime (work : SettingsTransactionWork) (reply : TransactionReply) :
    (s.answer work reply).runtime = s.runtime := by
  unfold answer
  cases work.origin <;> rfl

@[simp] theorem answer_phase (work : SettingsTransactionWork) (reply : TransactionReply) :
    (s.answer work reply).phase = .idle := by
  unfold answer
  cases work.origin <;> rfl

@[simp] theorem answer_configFile (work : SettingsTransactionWork) (reply : TransactionReply) :
    (s.answer work reply).configFile = s.configFile := by
  unfold answer
  cases work.origin <;> rfl

@[simp] theorem answer_saves (work : SettingsTransactionWork) (reply : TransactionReply) :
    (s.answer work reply).saves = s.saves := by
  unfold answer
  cases work.origin <;> rfl

@[simp] theorem answer_queue (work : SettingsTransactionWork) (reply : TransactionReply) :
    (s.answer work reply).queue = s.queue := by
  unfold answer
  cases work.origin <;> rfl

/-- Everything the terminal leaves alone. -/
structure SameService (s t : SettingsSystem globs) : Prop where
  settings : t.runtime.settings = s.runtime.settings
  revision : t.runtime.settingsRevision = s.runtime.settingsRevision
  policy : t.runtime.requestPolicy = s.runtime.requestPolicy
  context : t.runtime.settingsContext = s.runtime.settingsContext
  pending : t.runtime.pendingSettingsTransaction = s.runtime.pendingSettingsTransaction
  phase : t.phase = s.phase
  configFile : t.configFile = s.configFile
  replies : t.replies = s.replies

theorem sameService_modifyApp (s : SettingsSystem globs) (f : App → App) :
    SameService s (s.modifyApp f) :=
  ⟨rfl, rfl, rfl, rfl, rfl, rfl, rfl, rfl⟩

theorem sameService_terminal (s : SettingsSystem globs) (f : App → App) :
    SameService s (s.modifyApp f).handleSettingsSaveRequest := by
  unfold handleSettingsSaveRequest
  split
  · exact sameService_modifyApp s f
  · split
    · exact ⟨rfl, rfl, rfl, rfl, rfl, rfl, rfl, rfl⟩
    · exact ⟨rfl, rfl, rfl, rfl, rfl, rfl, rfl, rfl⟩

/-! ## The effects of the events -/

/-- The effect of an event. -/
inductive Stepped (env : Environment) (s : SettingsSystem globs) :
    SettingsEvent → SettingsSystem globs → Prop
  | terminal (event : TerminalEvent) :
      Stepped env s (.terminal event)
        (s.modifyApp fun app => app.handleTerminalEvent env event).handleSettingsSaveRequest
  | submitted (mutation : MappingMutation) (expectedRevision : Nat) :
      Stepped env s (.submit mutation expectedRevision)
        { s with queue := s.queue ++ [.mutateMapping mutation expectedRevision] }
  | saveSubmitted (index : Nat) (draft : AppSettings) (hsave : s.saves[index]? = some draft) :
      Stepped env s (.submitSave index)
        { s with saves := s.saves.eraseIdx index, queue := s.queue ++ [.replaceFromTui draft] }
  | received (work : SettingsTransactionWork) (queue : List SettingsTransactionWork)
      (hphase : s.phase = .idle) (hqueue : s.queue = work :: queue) :
      Stepped env s .receive { s with queue, phase := .beginning work }
  | withdrawn (message : String) (work : SettingsTransactionWork)
      (hphase : s.phase = .beginning work) :
      Stepped env s (.withdraw message) (s.answer work (.error (.instanceUnavailable message)))
  | refused (work : SettingsTransactionWork) (error : SettingsError)
      (hphase : s.phase = .beginning work)
      (hcheck : s.runtime.checkSettingsAdmission work.expectedRevision work.origin = .error error) :
      Stepped env s .begin (s.answer work (.error error))
  | begun (work : SettingsTransactionWork) (hphase : s.phase = .beginning work)
      (hcheck : s.runtime.checkSettingsAdmission work.expectedRevision work.origin = .ok ()) :
      Stepped env s .begin
        { s with
          runtime := s.runtime.occupy work.origin
          phase := .admitted work s.runtime.begunReply }
  | rejected (work : SettingsTransactionWork) (begun : BeginSettingsTransactionReply)
      (error : SettingsError) (hphase : s.phase = .admitted work begun)
      (hprepare : prepareCandidate env globs begun.settings work.change = .error error) :
      Stepped env s .prepare { s with phase := .aborting work begun error }
  | unchanged (work : SettingsTransactionWork) (begun : BeginSettingsTransactionReply)
      (candidate : PreparedSettingsCandidate globs) (hphase : s.phase = .admitted work begun)
      (hprepare : prepareCandidate env globs begun.settings work.change = .ok candidate)
      (heffect : candidate.effect = .unchanged) :
      Stepped env s .prepare
        { s with
          phase := .finalizing work begun
            { settings := candidate.settings
              policy := none
              outcome := .unchanged
              affected := candidate.affected
              persistence := begun.persistence } }
  | prepared (work : SettingsTransactionWork) (begun : BeginSettingsTransactionReply)
      (candidate : PreparedSettingsCandidate globs) (hphase : s.phase = .admitted work begun)
      (hprepare : prepareCandidate env globs begun.settings work.change = .ok candidate)
      (heffect : candidate.effect = .changed) :
      Stepped env s .prepare { s with phase := .prepared work begun candidate }
  | failed (failure : TransactionFailure) (work : SettingsTransactionWork)
      (begun : BeginSettingsTransactionReply)
      (hphase : s.phase = .admitted work begun ∨
        ∃ candidate, s.phase = .prepared work begun candidate) :
      Stepped env s (.fail failure)
        { s with phase := .aborting work begun failure.toSettingsError }
  | persisted (work : SettingsTransactionWork) (begun : BeginSettingsTransactionReply)
      (candidate : PreparedSettingsCandidate globs)
      (hphase : s.phase = .prepared work begun candidate) :
      Stepped env s .persist (s.persistTransaction work begun candidate)
  | finalized (work : SettingsTransactionWork) (begun : BeginSettingsTransactionReply)
      (commit : AdmittedSettingsCommit globs) (hphase : s.phase = .finalizing work begun commit) :
      Stepped env s .finalize (s.finalizeTransaction work begun commit)
  | aborted (work : SettingsTransactionWork) (begun : BeginSettingsTransactionReply)
      (error : SettingsError) (hphase : s.phase = .aborting work begun error) :
      Stepped env s .abort (s.abortTransaction work begun error)
  | completed (index : Nat) (reply : TransactionReply)
      (hreply : s.completions[index]? = some reply) :
      Stepped env s (.complete index)
        { s.modifyApp fun app => handleCompletion app reply with
          completions := s.completions.eraseIdx index }
  | readSettings : Stepped env s .getMappingSettings s
  | readPreview (expectedRevision : Nat) :
      Stepped env s (.previewMappingSnapshot expectedRevision) s

theorem beginTransaction_stepped {work : SettingsTransactionWork}
    (hphase : s.phase = .beginning work) : Stepped env s .begin (s.beginTransaction work) := by
  unfold beginTransaction AppRuntime.executeControl
  dsimp only
  cases hcheck : s.runtime.checkSettingsAdmission work.expectedRevision work.origin with
  | error error => exact .refused work error hphase hcheck
  | ok _ => exact .begun work hphase hcheck

theorem prepareTransaction_stepped {work : SettingsTransactionWork}
    {begun : BeginSettingsTransactionReply} (hphase : s.phase = .admitted work begun) :
    Stepped env s .prepare (s.prepareTransaction env work begun) := by
  unfold prepareTransaction
  cases hprepare : prepareCandidate env globs begun.settings work.change with
  | error error => exact .rejected work begun error hphase hprepare
  | ok candidate =>
    dsimp only
    cases heffect : candidate.effect with
    | unchanged => exact .unchanged work begun candidate hphase hprepare heffect
    | changed => exact .prepared work begun candidate hphase hprepare heffect

/-- The step function does what the effects say. -/
theorem stepped_of_step {event : SettingsEvent} (h : s.step env event = some t) :
    Stepped env s event t := by
  cases event with
  | terminal event =>
    obtain rfl := Option.some.inj h
    exact .terminal event
  | submit mutation expectedRevision =>
    simp only [step] at h
    split at h
    · obtain rfl := Option.some.inj h
      exact .submitted mutation expectedRevision
    · cases h
  | submitSave index =>
    simp only [step] at h
    split at h
    case h_1 draft hsave =>
      split at h
      · obtain rfl := Option.some.inj h
        exact .saveSubmitted index draft hsave
      · cases h
    case h_2 => cases h
  | receive =>
    simp only [step] at h
    split at h
    case h_1 work queue hphase hqueue =>
      obtain rfl := Option.some.inj h
      exact .received work queue hphase hqueue
    case h_2 => cases h
  | withdraw message =>
    simp only [step] at h
    split at h
    case h_1 work hphase =>
      obtain rfl := Option.some.inj h
      exact .withdrawn message work hphase
    case h_2 => cases h
  | begin =>
    simp only [step] at h
    split at h
    case h_1 work hphase =>
      obtain rfl := Option.some.inj h
      exact beginTransaction_stepped hphase
    case h_2 => cases h
  | prepare =>
    simp only [step] at h
    split at h
    case h_1 work begun hphase =>
      obtain rfl := Option.some.inj h
      exact prepareTransaction_stepped hphase
    case h_2 => cases h
  | fail failure =>
    simp only [step] at h
    split at h
    case h_1 work begun hphase =>
      obtain rfl := Option.some.inj h
      exact .failed failure work begun (.inl hphase)
    case h_2 work begun candidate hphase =>
      obtain rfl := Option.some.inj h
      exact .failed failure work begun (.inr ⟨candidate, hphase⟩)
    case h_3 => cases h
  | persist =>
    simp only [step] at h
    split at h
    case h_1 work begun candidate hphase =>
      obtain rfl := Option.some.inj h
      exact .persisted work begun candidate hphase
    case h_2 => cases h
  | finalize =>
    simp only [step] at h
    split at h
    case h_1 work begun commit hphase =>
      obtain rfl := Option.some.inj h
      exact .finalized work begun commit hphase
    case h_2 => cases h
  | abort =>
    simp only [step] at h
    split at h
    case h_1 work begun error hphase =>
      obtain rfl := Option.some.inj h
      exact .aborted work begun error hphase
    case h_2 => cases h
  | complete index =>
    simp only [step] at h
    split at h
    case h_1 reply hreply =>
      obtain rfl := Option.some.inj h
      exact .completed index reply hreply
    case h_2 => cases h
  | getMappingSettings =>
    obtain rfl := Option.some.inj h
    exact .readSettings
  | previewMappingSnapshot expectedRevision =>
    obtain rfl := Option.some.inj h
    unfold AppRuntime.executeControl
    dsimp only
    split
    · exact .readPreview expectedRevision
    · exact .readPreview expectedRevision

end SettingsSystem

end Fluxcope.Settings
