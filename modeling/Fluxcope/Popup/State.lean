import Fluxcope.Settings.DefaultPort
import Fluxcope.TextInput.State
/-!
# The settings popup

A draft of the settings, the topic and the row that are selected, and what is edited at
the moment.  The drop-down list of the presets is a widget of its own and a parameter.
The index of a rule or a pattern lives in the mode, apart from the draft.  It stays below
the length of a list, so the sums of indices do not saturate.
-/

namespace Fluxcope.Settings.SettingsDraft

def replace (_ : SettingsDraft) (settings : AppSettings) : SettingsDraft := new settings

def clearError (draft : SettingsDraft) : SettingsDraft := { draft with error := none }

end Fluxcope.Settings.SettingsDraft

namespace Fluxcope.Popup

open Fluxcope.Library Fluxcope.Settings Fluxcope.TextInput

/-! ## Keys -/

inductive KeyCode
  | esc
  | enter
  | tab
  | backTab
  | up
  | down
  | pageUp
  | pageDown
  | input (code : TextInput.KeyCode)
  deriving DecidableEq, Repr

structure KeyEvent where
  code : KeyCode
  modifiers : KeyModifiers := {}
  deriving DecidableEq, Repr

/-- The key as a text input takes it, which ignores those it does not know. -/
def KeyEvent.toInput (key : KeyEvent) : TextInput.KeyEvent :=
  match key.code with
  | .input code => { code, modifiers := key.modifiers }
  | _ => { code := .other, modifiers := key.modifiers }

/-! ## Tables -/

structure SettingsTableState where
  scrollOffset : Nat := 0
  lastVisibleRows : Nat := 1
  deriving DecidableEq, Repr

namespace SettingsTableState

def visibleRows (state : SettingsTableState) : Nat := max state.lastVisibleRows 1

def maxScrollOffset (state : SettingsTableState) (rowCount : Nat) : Nat :=
  rowCount - state.visibleRows

def clamp (state : SettingsTableState) (rowCount : Nat) : SettingsTableState :=
  { state with scrollOffset := min state.scrollOffset (state.maxScrollOffset rowCount) }

def setLastVisibleRows (state : SettingsTableState) (rowCount visibleRows : Nat) :
    SettingsTableState :=
  { state with lastVisibleRows := max visibleRows 1 }.clamp rowCount

def ensureVisible (state : SettingsTableState) (rowCount selectedRow : Nat) :
    SettingsTableState :=
  if rowCount = 0 then { state with scrollOffset := 0 }
  else if selectedRow < state.scrollOffset then
    { state with scrollOffset := selectedRow }.clamp rowCount
  else if selectedRow ≥ state.scrollOffset + state.visibleRows then
    { state with scrollOffset := selectedRow + 1 - state.visibleRows }.clamp rowCount
  else state.clamp rowCount

def scrollDown (state : SettingsTableState) (rowCount : Nat) : SettingsTableState :=
  { state with scrollOffset := min (state.scrollOffset + 1) (state.maxScrollOffset rowCount) }

def scrollUp (state : SettingsTableState) : SettingsTableState :=
  { state with scrollOffset := state.scrollOffset - 1 }

end SettingsTableState

/-! ## The drop-down list of the presets -/

def proxyPresetSelectMaxVisibleItems : Nat := 6

inductive ProxyPresetChoice
  | existing (index : Nat)
  | default
  | create
  deriving DecidableEq, Repr

inductive SelectItemRole
  | value
  | action
  deriving DecidableEq, Repr

inductive SelectFilterMode
  | normal
  | alwaysVisible
  deriving DecidableEq, Repr

structure SelectItem where
  id : ProxyPresetChoice
  label : Text
  role : SelectItemRole := .value
  filterMode : SelectFilterMode := .normal
  deriving DecidableEq, Repr

structure SelectCommit where
  id : ProxyPresetChoice
  role : SelectItemRole
  deriving DecidableEq, Repr

inductive SelectOutcome
  | none
  | closed
  | committed (commit : SelectCommit)
  deriving DecidableEq, Repr

/-- The widget, with its own state.  The numbers are those of the items that can be seen. -/
structure SelectWidget (S : Type) where
  new : S
  openWithSelected : S → List SelectItem → Option ProxyPresetChoice → Nat → S
  handleKey : S → KeyEvent → List SelectItem → Nat → S × SelectOutcome
  commitFilteredIndex : S → List SelectItem → Nat → S × Option SelectCommit
  handlePaste : S → Text → S × Bool
  setFilterCursor : S → Nat → S
  scrollDown : S → List SelectItem → Nat → S
  scrollUp : S → List SelectItem → Nat → S

/-! ## The popup -/

inductive SettingsTopic
  | server
  | certificate
  | recording
  | interface
  | proxy
  deriving DecidableEq, Repr

def SettingsTopic.all : List SettingsTopic :=
  [.server, .certificate, .recording, .interface, .proxy]

inductive SettingsPaneFocus
  | topics
  | content
  deriving DecidableEq, Repr

inductive FieldEditKind
  | serverPort
  | certificateStoreDir
  | certificatePemFilename
  | proxyPresetName
  deriving DecidableEq, Repr

inductive RuleEditField
  | source
  | target
  deriving DecidableEq, Repr

inductive DialogActionKind
  | save
  | discard
  | keepEditing
  deriving DecidableEq, Repr

inductive EditMode (S : Type)
  | browse
  | select (state : S)
  | ruleTable (table : ProxyRuleTable) (selectedRule : Nat)
  | ruleEditor (table : ProxyRuleTable) (index : Nat) (source target : TextInputState)
      (activeField : RuleEditField)
  | prefilterTable (selectedPattern : Nat)
  | prefilterEditor (index : Nat) (input : TextInputState)
  | field (kind : FieldEditKind) (input : TextInputState)
  | unsavedConfirm (focusedAction : DialogActionKind)
  deriving DecidableEq, Repr

inductive SelectCommitEffect
  | close
  | keepOpen
  deriving DecidableEq, Repr

inductive FieldApplyOutcome
  | closeEditor
  | keepEditing
  deriving DecidableEq, Repr

structure FieldEditHint where
  kind : FieldEditKind
  message : String
  deriving DecidableEq, Repr

structure SettingsPopup (S : Type) where
  visible : Bool := false
  focus : SettingsPaneFocus := .content
  topic : SettingsTopic := .server
  selectedRow : Nat := 0
  draft : SettingsDraft := .new {}
  context : SettingsUiContext
  mode : EditMode S := .browse
  fieldHint : Option FieldEditHint := none
  prefilterTable : SettingsTableState := {}
  remoteRuleTable : SettingsTableState := {}
  localRuleTable : SettingsTableState := {}
  deriving DecidableEq, Repr

namespace SettingsPopup

variable {S : Type}

def withMode (popup : SettingsPopup S) (mode : EditMode S) : SettingsPopup S :=
  { popup with mode }

def withDraft (popup : SettingsPopup S) (draft : SettingsDraft) : SettingsPopup S :=
  { popup with draft }

/-- The draft behind `DerefMut`: the editable copy of the settings. -/
def withSettings (popup : SettingsPopup S) (current : AppSettings) : SettingsPopup S :=
  popup.withDraft { popup.draft with current }

def setError (popup : SettingsPopup S) (message : String) : SettingsPopup S :=
  popup.withDraft (popup.draft.setError message)

def clearError (popup : SettingsPopup S) : SettingsPopup S :=
  popup.withDraft popup.draft.clearError

def resetTableScrolls (popup : SettingsPopup S) : SettingsPopup S :=
  { popup with prefilterTable := {}, remoteRuleTable := {}, localRuleTable := {} }

def withContext (context : SettingsUiContext) : SettingsPopup S := { context }

/-- `open` -/
def openWith (popup : SettingsPopup S) (settings : AppSettings) : SettingsPopup S :=
  { popup with
    visible := true
    focus := .topics
    topic := .server
    selectedRow := 0
    draft := popup.draft.replace settings
    mode := .browse
    fieldHint := none }.resetTableScrolls

def markSaveFailed (popup : SettingsPopup S) (message : String) : SettingsPopup S :=
  { (popup.withMode .browse).setError message with visible := true }

def markTransactionPending (popup : SettingsPopup S) : SettingsPopup S :=
  popup.setError Settings.SettingsPopup.transactionPendingMessage

def setFieldHint (popup : SettingsPopup S) (kind : FieldEditKind) (message : String) :
    SettingsPopup S :=
  { popup with fieldHint := some { kind, message } }

def clearFieldHint (popup : SettingsPopup S) (kind : FieldEditKind) : SettingsPopup S :=
  { popup with fieldHint := popup.fieldHint.filter fun hint => hint.kind ≠ kind }

/-! ## What they leave alone -/

section Frame

variable (popup : SettingsPopup S)

@[simp] theorem withMode_mode (mode : EditMode S) : (popup.withMode mode).mode = mode := rfl

@[simp] theorem withMode_draft (mode : EditMode S) : (popup.withMode mode).draft = popup.draft :=
  rfl

@[simp] theorem withSettings_mode (current : AppSettings) :
    (popup.withSettings current).mode = popup.mode := rfl

@[simp] theorem withSettings_current (current : AppSettings) :
    (popup.withSettings current).draft.current = current := rfl

@[simp] theorem setError_mode (message : String) : (popup.setError message).mode = popup.mode :=
  rfl

@[simp] theorem setError_current (message : String) :
    (popup.setError message).draft.current = popup.draft.current := rfl

@[simp] theorem clearError_mode : popup.clearError.mode = popup.mode := rfl

@[simp] theorem clearError_current : popup.clearError.draft.current = popup.draft.current := rfl

@[simp] theorem resetTableScrolls_mode : popup.resetTableScrolls.mode = popup.mode := rfl

@[simp] theorem resetTableScrolls_draft : popup.resetTableScrolls.draft = popup.draft := rfl

@[simp] theorem setFieldHint_mode (kind : FieldEditKind) (message : String) :
    (popup.setFieldHint kind message).mode = popup.mode := rfl

@[simp] theorem setFieldHint_draft (kind : FieldEditKind) (message : String) :
    (popup.setFieldHint kind message).draft = popup.draft := rfl

@[simp] theorem clearFieldHint_mode (kind : FieldEditKind) :
    (popup.clearFieldHint kind).mode = popup.mode := rfl

@[simp] theorem clearFieldHint_draft (kind : FieldEditKind) :
    (popup.clearFieldHint kind).draft = popup.draft := rfl

@[simp] theorem markTransactionPending_mode : popup.markTransactionPending.mode = popup.mode := rfl

@[simp] theorem markTransactionPending_current :
    popup.markTransactionPending.draft.current = popup.draft.current := rfl

end Frame

end SettingsPopup

end Fluxcope.Popup
