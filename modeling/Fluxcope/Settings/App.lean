import Fluxcope.Library.Machine
import Fluxcope.Settings.RequestPolicy
/-!
# The settings popup and its application

What the terminal does is cut down to what reaches the settings: the popup is
opened and closed, its draft is edited, and a save is asked for.  Which key or
click edits what is left open: an edit may put any settings into the draft.
-/

namespace Fluxcope.Settings

open Fluxcope.Library Fluxcope.Mapping

/-! ## Revisions -/

/-- `SettingsRevision::next`: an unsigned 64-bit number that saturates. -/
def nextRevision (revision : Nat) : Nat := satAdd revision 1

def initialRevision : Nat := 1

inductive SettingsTransactionOrigin
  | mcp
  | tui
  deriving DecidableEq, Repr

/-! ## The draft -/

structure SettingsDraft where
  original : AppSettings
  current : AppSettings
  error : Option String := none
  deriving DecidableEq, Repr

namespace SettingsDraft

def new (settings : AppSettings) : SettingsDraft := { original := settings, current := settings }

def isDirty (draft : SettingsDraft) : Bool := draft.current ≠ draft.original

def setError (draft : SettingsDraft) (error : String) : SettingsDraft :=
  { draft with error := some error }

@[simp] theorem isDirty_new (settings : AppSettings) : (new settings).isDirty = false := by
  simp [isDirty, new]

end SettingsDraft

/-! ## The popup -/

structure SettingsPopup where
  visible : Bool := false
  draft : SettingsDraft := .new {}
  deriving DecidableEq, Repr

inductive SettingsPopupAction
  | none
  | save (draft : AppSettings)
  | close
  deriving DecidableEq, Repr

/-- A key, click or paste the popup reacts to.  Discarding a dirty draft in the
dialog for unsaved changes is a `close`. -/
inductive PopupEvent
  | edit (current : AppSettings) (error : Option String)
  | save
  | close
  deriving DecidableEq, Repr

namespace SettingsPopup

def openWith (popup : SettingsPopup) (settings : AppSettings) : SettingsPopup :=
  { popup with visible := true, draft := .new settings }

def close (popup : SettingsPopup) : SettingsPopup :=
  { popup with visible := false, draft := .new {} }

def isDirty (popup : SettingsPopup) : Bool := popup.draft.isDirty

def markSaved (popup : SettingsPopup) : SettingsPopup := popup.close

def markSaveFailed (popup : SettingsPopup) (message : String) : SettingsPopup :=
  { popup with visible := true, draft := popup.draft.setError message }

def transactionPendingMessage : String := "settings transaction is pending; wait for it to finish"

def markTransactionPending (popup : SettingsPopup) : SettingsPopup :=
  { popup with draft := popup.draft.setError transactionPendingMessage }

def saveAction (env : Environment) (popup : SettingsPopup) : SettingsPopup × SettingsPopupAction :=
  match validateSettings env popup.draft.current with
  | .ok () => (popup, .save popup.draft.current)
  | .error error => ({ popup with draft := popup.draft.setError error }, .none)

def handle (env : Environment) (popup : SettingsPopup) :
    PopupEvent → SettingsPopup × SettingsPopupAction
  | .edit current error => ({ popup with draft := { popup.draft with current, error } }, .none)
  | .save => popup.saveAction env
  | .close => (popup, .close)

end SettingsPopup

/-! ## The application -/

structure MappingRuntimeStatus where
  configured : Bool := false
  enabled : Bool := false
  activePreset : Option Text := none
  mapRemoteEnabled : Option Bool := none
  mapLocalEnabled : Option Bool := none
  deriving DecidableEq, Repr

/-- The preset is looked up by its exact name here. -/
def mappingRuntimeStatus (settings : AppSettings) : MappingRuntimeStatus :=
  match settings.proxy with
  | none => {}
  | some proxy =>
    let active := proxy.activePreset.bind fun name =>
      proxy.presets.find? fun preset => preset.name = name
    { configured := true
      enabled := proxy.enable
      activePreset := proxy.activePreset
      mapRemoteEnabled := active.map fun preset => preset.mapRemote.enable
      mapLocalEnabled := active.map fun preset => preset.mapLocal.enable }

inductive PopupFocus
  | certificate
  | settings
  deriving DecidableEq, Repr

structure App where
  popupFocus : Option PopupFocus := none
  autoExpand : Bool
  settingsPopup : SettingsPopup := {}
  settings : AppSettings
  pendingSettingsSave : Option AppSettings := none
  settingsRevision : Nat := initialRevision
  mappingStatus : MappingRuntimeStatus
  settingsTransactionPending : Bool := false
  deriving DecidableEq, Repr

inductive TerminalEvent
  | openSettings
  | openCertificate
  | closeCertificate
  | popup (event : PopupEvent)
  deriving DecidableEq, Repr

namespace App

def withPolicies (settings : AppSettings) : App :=
  { autoExpand := settings.ui.requestList.autoExpand
    settings
    mappingStatus := mappingRuntimeStatus settings }

def takeSettingsSaveRequest (app : App) : Option AppSettings × App :=
  (app.pendingSettingsSave, { app with pendingSettingsSave := none })

def setSettingsTransactionPending (app : App) (pending : Bool) : App :=
  { app with settingsTransactionPending := pending }

def finishSettingsSave (app : App) (saved : AppSettings) (revision : Nat) : App :=
  { app with
    settingsPopup := app.settingsPopup.markSaved
    popupFocus := none
    autoExpand := saved.ui.requestList.autoExpand
    mappingStatus := mappingRuntimeStatus saved
    settings := saved
    settingsRevision := revision
    settingsTransactionPending := false }

def failSettingsSave (app : App) (message : String) : App :=
  { app with
    settingsPopup := app.settingsPopup.markSaveFailed message
    settingsTransactionPending := false
    popupFocus := some .settings }

def applySettingsTransactionCommitFromOrigin (app : App) (settings : AppSettings) (revision : Nat)
    (origin : SettingsTransactionOrigin) : Except SettingsError App :=
  if origin = .mcp && app.settingsPopup.isDirty then
    .error
      { code := .tuiDraftConflict
        message := "mapping settings conflict with an unsaved TUI draft"
        retryable := false
        details := .currentRevision app.settingsRevision }
  else
    .ok
      { app with
        mappingStatus := mappingRuntimeStatus settings
        settings
        autoExpand := settings.ui.requestList.autoExpand
        settingsRevision := revision
        settingsTransactionPending := false
        settingsPopup :=
          if app.settingsPopup.visible && !app.settingsPopup.isDirty then
            app.settingsPopup.openWith settings
          else app.settingsPopup }

def openSettingsPopup (app : App) : App :=
  { app with
    settingsPopup := app.settingsPopup.openWith app.settings
    popupFocus := some .settings }

def closeSettingsPopup (app : App) : App :=
  { app with settingsPopup := app.settingsPopup.close, popupFocus := none }

def queueSettingsSave (app : App) (draft : AppSettings) : App :=
  if app.settingsTransactionPending then
    { app with settingsPopup := app.settingsPopup.markTransactionPending }
  else { app with pendingSettingsSave := some draft }

def handleSettingsPopupAction (app : App) : SettingsPopupAction → App
  | .none => app
  | .save draft => app.queueSettingsSave draft
  | .close =>
    if app.settingsTransactionPending then
      { app with settingsPopup := app.settingsPopup.markTransactionPending }
    else app.closeSettingsPopup

/-- Keys and pastes go to the popup with the focus, clicks to the popup on the screen. -/
def settingsPopupActive (app : App) : Bool :=
  app.popupFocus = some .settings || app.settingsPopup.visible

/-- While a transaction is pending the popup refuses everything but navigation. -/
def handlePopupEvent (env : Environment) (app : App) (event : PopupEvent) : App :=
  if app.settingsTransactionPending then
    { app with settingsPopup := app.settingsPopup.markTransactionPending }
  else
    let (settingsPopup, action) := app.settingsPopup.handle env event
    { app with settingsPopup }.handleSettingsPopupAction action

def handleTerminalEvent (env : Environment) (app : App) : TerminalEvent → App
  | .openSettings => if app.popupFocus = none then app.openSettingsPopup else app
  | .openCertificate =>
    if app.popupFocus = none then { app with popupFocus := some .certificate } else app
  | .closeCertificate =>
    if app.popupFocus = some .certificate then { app with popupFocus := none } else app
  | .popup event => if app.settingsPopupActive then app.handlePopupEvent env event else app

end App

/-!
## The settings in the event loop

The event loop owns the settings, their revision and the policy in force, and the
token of the transaction it has admitted.  Finalizing a transaction replaces these
first and tells the application last.
-/

inductive ConfigMode
  | defaultOwned
  | readOnlyFile
  | temporary
  deriving DecidableEq, Repr

inductive PersistenceMode
  | persistent
  | ephemeral
  deriving DecidableEq, Repr

structure SettingsUiContext where
  configMode : ConfigMode
  persistence : PersistenceMode
  deriving DecidableEq, Repr

inductive SettingsTransactionOutcome
  | committed
  | unchanged
  deriving DecidableEq, Repr

structure MappingSettingsSnapshot where
  settings : AppSettings
  revision : Nat
  configMode : ConfigMode
  persistence : PersistenceMode
  deriving DecidableEq, Repr

structure BeginSettingsTransactionReply where
  settings : AppSettings
  revision : Nat
  token : Nat
  configMode : ConfigMode
  persistence : PersistenceMode
  deriving DecidableEq, Repr

structure FinalizedSettingsTransaction (globs : Globset) where
  settings : AppSettings
  policy : Option (RequestPolicy globs)
  origin : SettingsTransactionOrigin
  outcome : SettingsTransactionOutcome

inductive RuntimeRequest (globs : Globset)
  | getMappingSettings
  | previewMappingSnapshot (expectedRevision : Nat)
  | beginSettingsTransaction (expectedRevision : Option Nat) (origin : SettingsTransactionOrigin)
  | finalizeSettingsTransaction (token : Nat) (commit : FinalizedSettingsTransaction globs)
  | abortSettingsTransaction (token : Nat)

inductive RuntimeReply
  | mappingSettings (snapshot : MappingSettingsSnapshot)
  | settingsTransactionBegun (begun : BeginSettingsTransactionReply)
  | settingsTransactionFinalized (outcome : SettingsTransactionOutcome)
  | settingsTransactionAborted
  deriving DecidableEq, Repr

structure AppRuntime (globs : Globset) where
  app : App
  settings : AppSettings
  settingsContext : SettingsUiContext
  settingsRevision : Nat := initialRevision
  pendingSettingsTransaction : Option (Nat × SettingsTransactionOrigin) := none
  nextSettingsTransactionToken : Nat := 1
  requestPolicy : RequestPolicy globs

namespace AppRuntime

variable {globs : Globset}

/-- The runtime at startup, whose policy is compiled whatever the diagnostics. -/
def start (env : Environment) (globs : Globset) (context : SettingsUiContext)
    (settings : AppSettings) : AppRuntime globs :=
  { app := .withPolicies settings
    settings
    settingsContext := context
    requestPolicy := (RequestPolicy.compile env globs settings).1 }

def snapshot (runtime : AppRuntime globs) : MappingSettingsSnapshot :=
  { settings := runtime.settings
    revision := runtime.settingsRevision
    configMode := runtime.settingsContext.configMode
    persistence := runtime.settingsContext.persistence }

def checkSettingsAdmission (runtime : AppRuntime globs) (expectedRevision : Option Nat)
    (origin : SettingsTransactionOrigin) : Except SettingsError Unit :=
  if expectedRevision.any fun expected => expected ≠ runtime.settingsRevision then
    .error
      { code := .settingsRevisionConflict
        message := "settings revision does not match"
        retryable := false
        details := .revisions (expectedRevision.getD 0) runtime.settingsRevision }
  else if origin = .mcp && runtime.app.settingsPopup.isDirty then
    .error
      { code := .tuiDraftConflict
        message := "mapping settings conflict with an unsaved TUI draft"
        retryable := false
        details := .currentRevision runtime.settingsRevision }
  else if (origin = .mcp && runtime.app.settingsTransactionPending) ||
      runtime.pendingSettingsTransaction.isSome then
    .error
      { code := .serviceUnavailable
        message := "another settings transaction is pending"
        retryable := true
        details := .transactionPending }
  else .ok ()

/-- Installs the settings and the policy of a commit. -/
def install (runtime : AppRuntime globs) (settings : AppSettings) (policy : RequestPolicy globs) :
    AppRuntime globs :=
  { runtime with
    requestPolicy := policy
    settings
    settingsRevision := nextRevision runtime.settingsRevision }

def finalizeSettingsTransaction (runtime : AppRuntime globs) (token : Nat)
    (commit : FinalizedSettingsTransaction globs) :
    AppRuntime globs × Except SettingsError RuntimeReply :=
  match runtime.pendingSettingsTransaction with
  | none =>
    (runtime, .error (.internal "settings transaction finalization has no pending token"))
  | some (pending, origin) =>
    if pending ≠ token || origin ≠ commit.origin then
      (runtime, .error (.internal "settings transaction finalization token does not match"))
    else
      match commit.outcome with
      | .committed =>
        match commit.policy with
        | none =>
          (runtime, .error (.internal "committed settings transaction omitted compiled policy"))
        | some policy =>
          let runtime := runtime.install commit.settings policy
          match runtime.app.applySettingsTransactionCommitFromOrigin commit.settings
              runtime.settingsRevision origin with
          -- The early return leaves the new settings in place and the token pending.
          | .error error => (runtime, .error error)
          | .ok app =>
            ({ runtime with app, pendingSettingsTransaction := none },
              .ok (.settingsTransactionFinalized commit.outcome))
      | .unchanged =>
        ({ runtime with
            app := runtime.app.setSettingsTransactionPending false
            pendingSettingsTransaction := none },
          .ok (.settingsTransactionFinalized commit.outcome))

def executeControl (runtime : AppRuntime globs) :
    RuntimeRequest globs → AppRuntime globs × Except SettingsError RuntimeReply
  | .getMappingSettings => (runtime, .ok (.mappingSettings runtime.snapshot))
  | .previewMappingSnapshot expectedRevision =>
    match runtime.checkSettingsAdmission (some expectedRevision) .mcp with
    | .error error => (runtime, .error error)
    | .ok () => (runtime, .ok (.mappingSettings runtime.snapshot))
  | .beginSettingsTransaction expectedRevision origin =>
    match runtime.checkSettingsAdmission expectedRevision origin with
    | .error error => (runtime, .error error)
    | .ok () =>
      let token := runtime.nextSettingsTransactionToken
      ({ runtime with
          nextSettingsTransactionToken := satAdd runtime.nextSettingsTransactionToken 1
          pendingSettingsTransaction := some (token, origin)
          app := runtime.app.setSettingsTransactionPending true },
        .ok (.settingsTransactionBegun
          { settings := runtime.settings
            revision := runtime.settingsRevision
            token
            configMode := runtime.settingsContext.configMode
            persistence := runtime.settingsContext.persistence }))
  | .finalizeSettingsTransaction token commit => runtime.finalizeSettingsTransaction token commit
  | .abortSettingsTransaction token =>
    if runtime.pendingSettingsTransaction.any fun (pending, _) => pending = token then
      ({ runtime with
          pendingSettingsTransaction := none
          app := runtime.app.setSettingsTransactionPending false },
        .ok .settingsTransactionAborted)
    else (runtime, .error (.internal "settings transaction abort token does not match"))

end AppRuntime

end Fluxcope.Settings
