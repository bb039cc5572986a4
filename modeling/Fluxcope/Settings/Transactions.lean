import Fluxcope.Library.Run
import Fluxcope.Settings.App
/-!
# Transactions on the settings

A service takes one request after the other: it asks the event loop for admission,
prepares a candidate, writes the file and has the event loop finalize or abort the
transaction.  Clients, workers and the event loop take their steps in any order.
-/

namespace Fluxcope.Settings

open Fluxcope.Library Fluxcope.Mapping

def settingsTransactionQueueCapacity : Nat := 8

inductive SettingsTransactionChange
  | mapping (mutation : MappingMutation)
  | replace (settings : AppSettings)
  deriving DecidableEq, Repr

structure SettingsTransactionWork where
  change : SettingsTransactionChange
  expectedRevision : Option Nat
  origin : SettingsTransactionOrigin
  deriving DecidableEq, Repr

structure SettingsTransactionResult where
  outcome : SettingsTransactionOutcome
  revision : Nat
  configMode : ConfigMode
  persistence : PersistenceMode
  affected : MappingObjectRef
  settings : AppSettings
  deriving DecidableEq, Repr

structure PreparedSettingsCandidate (globs : Globset) where
  settings : AppSettings
  policy : Option (RequestPolicy globs)
  effect : MutationEffect
  affected : MappingObjectRef

structure AdmittedSettingsCommit (globs : Globset) where
  settings : AppSettings
  policy : Option (RequestPolicy globs)
  outcome : SettingsTransactionOutcome
  affected : MappingObjectRef
  persistence : PersistenceMode

/-- `mutate_mapping` -/
def SettingsTransactionWork.mutateMapping (mutation : MappingMutation) (expectedRevision : Nat) :
    SettingsTransactionWork :=
  { change := .mapping mutation, expectedRevision := some expectedRevision, origin := .mcp }

/-- `replace_from_tui` -/
def SettingsTransactionWork.replaceFromTui (settings : AppSettings) : SettingsTransactionWork :=
  { change := .replace settings, expectedRevision := none, origin := .tui }

/-! ## Preparing the candidate -/

section Prepare

variable (env : Environment) (globs : Globset)

/-- The settings a change asks for, its effect, and the object it affects. -/
def applyChange (current : AppSettings) :
    SettingsTransactionChange → Except SettingsError (AppSettings × MutationEffect × MappingObjectRef)
  | .mapping mutation =>
    match applyMappingMutationOwned env current mutation with
    | .error error => .error error.toSettingsError
    | .ok (candidate, result) =>
      .ok (if result.effect = .changed then candidate else current, result.effect,
        result.affected)
  | .replace settings =>
    match validateSettings env settings with
    | .error message =>
      .error
        { code := .invalidArgument, message, retryable := false, details := .validation }
    | .ok () =>
      .ok (settings, if settings = current then .unchanged else .changed, .proxy)

/-- The work of `execute_admitted_transaction` before the file is written. -/
def prepareCandidate (current : AppSettings) (change : SettingsTransactionChange) :
    Except SettingsError (PreparedSettingsCandidate globs) :=
  match applyChange env current change with
  | .error error => .error error
  | .ok (settings, effect, affected) =>
    if effect = .unchanged then .ok { settings, policy := none, effect, affected }
    else
      match compileCandidate env globs settings with
      | .error error => .error error
      | .ok policy => .ok { settings, policy := some policy, effect, affected }

end Prepare

/-! ## The service and its clients -/

inductive TransactionPhase (globs : Globset)
  | idle
  | beginning (work : SettingsTransactionWork)
  | admitted (work : SettingsTransactionWork) (begun : BeginSettingsTransactionReply)
  | prepared (work : SettingsTransactionWork) (begun : BeginSettingsTransactionReply)
      (candidate : PreparedSettingsCandidate globs)
  | finalizing (work : SettingsTransactionWork) (begun : BeginSettingsTransactionReply)
      (commit : AdmittedSettingsCommit globs)
  | aborting (work : SettingsTransactionWork) (begun : BeginSettingsTransactionReply)
      (error : SettingsError)

abbrev TransactionReply := Except SettingsError SettingsTransactionResult

/-- `saves` are the saves of the popup that wait for a place in the queue, and
`completions` their results on the way back to the event loop; `replies` is what
the other clients were answered, and `configFile` what was renamed into place. -/
structure SettingsSystem (globs : Globset) where
  runtime : AppRuntime globs
  saves : List AppSettings := []
  queue : List SettingsTransactionWork := []
  phase : TransactionPhase globs := .idle
  completions : List TransactionReply := []
  replies : List (SettingsTransactionWork × TransactionReply) := []
  configFile : Option AppSettings := none

/-- What can end a transaction that was admitted before its file is in place. -/
inductive TransactionFailure
  | cancelled (message : String)
  | worker (message : String)
  | persistence (operation message : String)
  deriving DecidableEq, Repr

def TransactionFailure.toSettingsError : TransactionFailure → SettingsError
  | .cancelled message => .cancelled message
  | .worker message => .internal s!"settings worker failed: {message}"
  | .persistence operation message =>
    { code := .internalError
      message := s!"settings persistence failed: {message}"
      retryable := false
      details := .persistence operation }

inductive SettingsEvent
  /-- An event of the terminal, and the save it may have asked for. -/
  | terminal (event : TerminalEvent)
  | submit (mutation : MappingMutation) (expectedRevision : Nat)
  | submitSave (index : Nat)
  | receive
  /-- The request is cancelled before the event loop has executed its `Begin`. -/
  | withdraw (message : String)
  | begin
  | prepare
  | fail (failure : TransactionFailure)
  | persist
  | finalize
  | abort
  /-- The event loop takes one of the results of the popup's saves. -/
  | complete (index : Nat)
  | getMappingSettings
  | previewMappingSnapshot (expectedRevision : Nat)

namespace SettingsSystem

variable {globs : Globset}

def start (env : Environment) (globs : Globset) (context : SettingsUiContext)
    (settings : AppSettings) : SettingsSystem globs :=
  { runtime := .start env globs context settings }

def modifyApp (s : SettingsSystem globs) (f : App → App) : SettingsSystem globs :=
  { s with runtime := { s.runtime with app := f s.runtime.app } }

/-- `handle_settings_save_request` -/
def handleSettingsSaveRequest (s : SettingsSystem globs) : SettingsSystem globs :=
  match s.runtime.app.takeSettingsSaveRequest with
  | (none, _) => s
  | (some draft, app) =>
    if app.settingsTransactionPending then
      s.modifyApp fun _ => app.failSettingsSave SettingsPopup.transactionPendingMessage
    else
      { s.modifyApp fun _ => app.setSettingsTransactionPending true with
        saves := s.saves ++ [draft] }

/-- The end of a transaction: the answer goes to who asked for it. -/
def answer (s : SettingsSystem globs) (work : SettingsTransactionWork) (reply : TransactionReply) :
    SettingsSystem globs :=
  match work.origin with
  | .tui => { s with phase := .idle, completions := s.completions ++ [reply] }
  | .mcp => { s with phase := .idle, replies := s.replies ++ [(work, reply)] }

def finishResult (begun : BeginSettingsTransactionReply) (commit : AdmittedSettingsCommit globs)
    (outcome : SettingsTransactionOutcome) : SettingsTransactionResult :=
  { outcome
    revision := if outcome = .committed then nextRevision begun.revision else begun.revision
    configMode := begun.configMode
    persistence := commit.persistence
    affected := commit.affected
    settings := commit.settings }

/-- What `execute_transaction` returns for the reply to its `Finalize`. -/
def finalizeReply (begun : BeginSettingsTransactionReply) (commit : AdmittedSettingsCommit globs) :
    Except SettingsError RuntimeReply → TransactionReply
  | .error error => .error error
  | .ok (.settingsTransactionFinalized outcome) =>
    if outcome ≠ commit.outcome then
      .error (.internal "runtime returned a mismatched settings transaction outcome")
    else .ok (finishResult begun commit outcome)
  | .ok _ => .error (.internal "runtime returned an unexpected settings finalization reply")

def finalizedTransaction (work : SettingsTransactionWork) (commit : AdmittedSettingsCommit globs) :
    FinalizedSettingsTransaction globs :=
  { settings := commit.settings
    policy := commit.policy
    origin := work.origin
    outcome := commit.outcome }

def handleCompletion (app : App) : TransactionReply → App
  | .ok result => app.finishSettingsSave result.settings result.revision
  | .error error => app.failSettingsSave error.message

section Step

variable (env : Environment)

/-- The `Begin` of the work in hand, executed by the event loop. -/
def beginTransaction (s : SettingsSystem globs) (work : SettingsTransactionWork) :
    SettingsSystem globs :=
  match s.runtime.executeControl (.beginSettingsTransaction work.expectedRevision work.origin) with
  | (runtime, .ok (.settingsTransactionBegun begun)) =>
    { s with runtime, phase := .admitted work begun }
  | (runtime, .ok _) =>
    { s with runtime }.answer work
      (.error (.internal "runtime returned an unexpected settings admission reply"))
  | (runtime, .error error) => { s with runtime }.answer work (.error error)

def prepareTransaction (s : SettingsSystem globs) (work : SettingsTransactionWork)
    (begun : BeginSettingsTransactionReply) : SettingsSystem globs :=
  match prepareCandidate env globs begun.settings work.change with
  | .error error => { s with phase := .aborting work begun error }
  | .ok candidate =>
    if candidate.effect = .unchanged then
      { s with
        phase := .finalizing work begun
          { settings := candidate.settings
            policy := none
            outcome := .unchanged
            affected := candidate.affected
            persistence := begun.persistence } }
    else { s with phase := .prepared work begun candidate }

/-- The file is renamed into place; an ephemeral configuration has none. -/
def persistTransaction (s : SettingsSystem globs) (work : SettingsTransactionWork)
    (begun : BeginSettingsTransactionReply) (candidate : PreparedSettingsCandidate globs) :
    SettingsSystem globs :=
  { s with
    configFile :=
      if s.runtime.settingsContext.persistence = .persistent then some candidate.settings
      else s.configFile
    phase := .finalizing work begun
      { settings := candidate.settings
        policy := candidate.policy
        outcome := .committed
        affected := candidate.affected
        persistence := s.runtime.settingsContext.persistence } }

def finalizeTransaction (s : SettingsSystem globs) (work : SettingsTransactionWork)
    (begun : BeginSettingsTransactionReply) (commit : AdmittedSettingsCommit globs) :
    SettingsSystem globs :=
  let (runtime, reply) := s.runtime.executeControl
    (.finalizeSettingsTransaction begun.token (finalizedTransaction work commit))
  { s with runtime }.answer work (finalizeReply begun commit reply)

def abortTransaction (s : SettingsSystem globs) (work : SettingsTransactionWork)
    (begun : BeginSettingsTransactionReply) (error : SettingsError) : SettingsSystem globs :=
  match s.runtime.executeControl (.abortSettingsTransaction begun.token) with
  | (runtime, .ok _) => { s with runtime }.answer work (.error error)
  | (runtime, .error failed) => { s with runtime }.answer work (.error failed)

def step (s : SettingsSystem globs) : SettingsEvent → Option (SettingsSystem globs)
  | .terminal event =>
    some (s.modifyApp fun app => app.handleTerminalEvent env event).handleSettingsSaveRequest
  | .submit mutation expectedRevision =>
    if s.queue.length < settingsTransactionQueueCapacity then
      some { s with queue := s.queue ++ [.mutateMapping mutation expectedRevision] }
    else none
  | .submitSave index =>
    match s.saves[index]? with
    | some draft =>
      if s.queue.length < settingsTransactionQueueCapacity then
        some { s with
          saves := s.saves.eraseIdx index
          queue := s.queue ++ [.replaceFromTui draft] }
      else none
    | none => none
  | .receive =>
    match s.phase, s.queue with
    | .idle, work :: queue => some { s with queue, phase := .beginning work }
    | _, _ => none
  | .withdraw message =>
    match s.phase with
    | .beginning work => some (s.answer work (.error (.instanceUnavailable message)))
    | _ => none
  | .begin =>
    match s.phase with
    | .beginning work => some (s.beginTransaction work)
    | _ => none
  | .prepare =>
    match s.phase with
    | .admitted work begun => some (s.prepareTransaction env work begun)
    | _ => none
  | .fail failure =>
    match s.phase with
    | .admitted work begun =>
      some { s with phase := .aborting work begun failure.toSettingsError }
    | .prepared work begun _ =>
      some { s with phase := .aborting work begun failure.toSettingsError }
    | _ => none
  | .persist =>
    match s.phase with
    | .prepared work begun candidate => some (s.persistTransaction work begun candidate)
    | _ => none
  | .finalize =>
    match s.phase with
    | .finalizing work begun commit => some (s.finalizeTransaction work begun commit)
    | _ => none
  | .abort =>
    match s.phase with
    | .aborting work begun error => some (s.abortTransaction work begun error)
    | _ => none
  | .complete index =>
    match s.completions[index]? with
    | some reply =>
      some { s.modifyApp fun app => handleCompletion app reply with
        completions := s.completions.eraseIdx index }
    | none => none
  | .getMappingSettings =>
    some { s with runtime := (s.runtime.executeControl .getMappingSettings).1 }
  | .previewMappingSnapshot expectedRevision =>
    some { s with runtime := (s.runtime.executeControl (.previewMappingSnapshot expectedRevision)).1 }

end Step

end SettingsSystem

end Fluxcope.Settings
