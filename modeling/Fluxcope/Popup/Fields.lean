import Fluxcope.Popup.Proxy
/-!
# Recording patterns and text fields in the settings popup

A position outside a list, or an offset inside a character, panics: the result is `none`.
-/

namespace Fluxcope.Popup

open Fluxcope.Library Fluxcope.Settings Fluxcope.TextInput
open Fluxcope.Mapping (Environment)

section Vec

variable {α : Type}

/-- `Vec::insert` -/
def vecInsert (items : List α) (index : Nat) (item : α) : Option (List α) :=
  if index ≤ items.length then some (items.insertIdx index item) else none

/-- `Vec::remove` -/
def vecRemove (items : List α) (index : Nat) : Option (List α) :=
  if index < items.length then some (items.eraseIdx index) else none

/-- `slice::swap` -/
def vecSwap (items : List α) (a b : Nat) : Option (List α) := do
  let first ← items[a]?
  let second ← items[b]?
  some ((items.set a second).set b first)

end Vec

/-- The row of the patterns among the recording settings. -/
def includeUrlPatternsRow : Nat := 2

namespace SettingsPopup

variable {S : Type} (popup : SettingsPopup S)

/-! ## Recording patterns -/

def patterns : List RecordingPrefilterPatternSettings :=
  popup.draft.current.recording.prefilter.includeUrlPatterns

def prefilterPatternCount : Nat := popup.patterns.length

def withRecording (recording : RecordingSettings) : SettingsPopup S :=
  popup.withSettings { popup.draft.current with recording }

def withPatterns (includeUrlPatterns : List RecordingPrefilterPatternSettings) :
    SettingsPopup S :=
  let recording := popup.draft.current.recording
  popup.withRecording
    { recording with prefilter := { recording.prefilter with includeUrlPatterns } }

def selectedRecordingWidget : Option RecordingWidget := RecordingWidget.all[popup.selectedRow]?

def activePrefilterPattern : Option Nat :=
  (match popup.mode with
    | .prefilterTable index | .prefilterEditor index _ => some index
    | _ => none).filter (· < popup.prefilterPatternCount)

def clampPrefilterPatternIndex (index : Nat) : Nat := min index (popup.prefilterPatternCount - 1)

def clampPrefilterTableScroll : SettingsPopup S :=
  { popup with prefilterTable := popup.prefilterTable.clamp popup.prefilterPatternCount }

def ensurePrefilterPatternVisible : SettingsPopup S :=
  match popup.activePrefilterPattern with
  | none => popup
  | some selected =>
    { popup with
      prefilterTable :=
        popup.prefilterTable.ensureVisible popup.prefilterPatternCount selected }

@[simp] theorem ensurePrefilterPatternVisible_mode :
    popup.ensurePrefilterPatternVisible.mode = popup.mode := by
  unfold ensurePrefilterPatternVisible
  split <;> rfl

@[simp] theorem ensurePrefilterPatternVisible_draft :
    popup.ensurePrefilterPatternVisible.draft = popup.draft := by
  unfold ensurePrefilterPatternVisible
  split <;> rfl

def selectPrefilterPattern (selectedPattern : Nat) : SettingsPopup S :=
  { popup with
    focus := .content
    topic := .recording
    selectedRow := includeUrlPatternsRow
    mode := .prefilterTable
      (popup.clampPrefilterPatternIndex selectedPattern) }.ensurePrefilterPatternVisible

@[simp] theorem selectPrefilterPattern_mode (selectedPattern : Nat) :
    (popup.selectPrefilterPattern selectedPattern).mode =
      .prefilterTable (popup.clampPrefilterPatternIndex selectedPattern) := by
  simp [selectPrefilterPattern]

@[simp] theorem selectPrefilterPattern_draft (selectedPattern : Nat) :
    (popup.selectPrefilterPattern selectedPattern).draft = popup.draft := by
  simp [selectPrefilterPattern]

def startRecordingSelectedEdit : SettingsPopup S :=
  if popup.selectedRecordingWidget = some .includeUrlPatterns then
    (popup.withMode (.prefilterTable 0)).ensurePrefilterPatternVisible
  else popup

def toggleSelectedRecordingCheckbox : SettingsPopup S :=
  let recording := popup.draft.current.recording
  match popup.selectedRecordingWidget with
  | some .startRecordingOnLaunch =>
    popup.withRecording
      { recording with startRecordOnLaunch := !recording.startRecordOnLaunch }
  | some .prefilterEnabled =>
    let prefilter := recording.prefilter
    popup.withRecording
      { recording with prefilter := { prefilter with enable := !prefilter.enable } }
  | some .includeUrlPatterns | none => popup

def addPrefilterPatternAfter (index : Option Nat) : Option (SettingsPopup S × Nat) := do
  let count := popup.patterns.length
  let inserted := min (index.elim count fun index => index + 1) count
  let patterns ← vecInsert popup.patterns inserted { pattern := "https://example.com/*".toList }
  some ((popup.withPatterns patterns).clampPrefilterTableScroll, inserted)

def deletePrefilterPattern (index : Nat) : Option (SettingsPopup S) := do
  let patterns ←
    if index < popup.patterns.length then vecRemove popup.patterns index else some popup.patterns
  some ((popup.withPatterns patterns).clampPrefilterTableScroll.selectPrefilterPattern index)

def movePrefilterPatternUp (index : Nat) : Option (SettingsPopup S) := do
  let patterns ←
    if 0 < index then vecSwap popup.patterns (index - 1) index else some popup.patterns
  some ((popup.withPatterns patterns).selectPrefilterPattern (index - 1))

def movePrefilterPatternDown (index : Nat) : Option (SettingsPopup S) := do
  let patterns ←
    if index + 1 < popup.patterns.length then vecSwap popup.patterns index (index + 1)
    else some popup.patterns
  some ((popup.withPatterns patterns).selectPrefilterPattern (index + 1))

def togglePrefilterPattern (index : Nat) : SettingsPopup S :=
  popup.withPatterns (popup.patterns.modify index fun pattern =>
    { pattern with enable := !pattern.enable })

/-- The answer says whether the key was meant for the patterns. -/
def addPrefilterPatternFromBrowse : Option (SettingsPopup S × Bool) :=
  if popup.topic ≠ .recording || popup.focus ≠ .content ||
      popup.selectedRecordingWidget ≠ some .includeUrlPatterns then
    some (popup, false)
  else do
    let (popup, inserted) ← popup.addPrefilterPatternAfter none
    some (popup.selectPrefilterPattern inserted, true)

def startPrefilterPatternEditor (index : Nat) : SettingsPopup S :=
  match popup.patterns[index]? with
  | none => popup
  | some pattern => popup.withMode (.prefilterEditor index (.new pattern.pattern))

/-- The answer is whether the editor, if one is open, could be closed. -/
def applyCurrentPrefilterPattern : SettingsPopup S × Bool :=
  match popup.mode with
  | .prefilterEditor index input =>
    match popup.patterns[index]? with
    | none => (popup, false)
    | some pattern =>
      let patterns := popup.patterns.set index { pattern with pattern := input.text }
      (((popup.withMode .browse).withPatterns patterns).clearError.selectPrefilterPattern index,
        true)
  | _ => (popup, true)

def handlePrefilterTableKey (key : KeyEvent) : Option (SettingsPopup S) :=
  match popup.mode with
  | .prefilterTable selectedPattern =>
    match key.code with
    | .esc => some (popup.withMode .browse)
    | .enter | .input (.char 'e') => some (popup.startPrefilterPatternEditor selectedPattern)
    | .input (.char ' ') => some (popup.togglePrefilterPattern selectedPattern)
    | .input (.char 'a') => do
        let insertAfter := if popup.prefilterPatternCount > 0 then some selectedPattern else none
        let (popup, inserted) ← popup.addPrefilterPatternAfter insertAfter
        some (popup.selectPrefilterPattern inserted)
    | .input (.char 'd') => popup.deletePrefilterPattern selectedPattern
    | .input (.char 'J') => popup.movePrefilterPatternDown selectedPattern
    | .input (.char 'K') => popup.movePrefilterPatternUp selectedPattern
    | .input (.char 'j') | .down =>
      some (popup.selectPrefilterPattern
        (min (selectedPattern + 1) (popup.prefilterPatternCount - 1)))
    | .input (.char 'k') | .up => some (popup.selectPrefilterPattern (selectedPattern - 1))
    | .pageDown =>
      some (popup.selectPrefilterPattern
        (min (selectedPattern + popup.prefilterTable.visibleRows)
          (popup.prefilterPatternCount - 1)))
    | .pageUp =>
      some (popup.selectPrefilterPattern
        (selectedPattern - popup.prefilterTable.visibleRows))
    | _ => some popup
  | _ => some popup

/-! ## Text fields -/

def startFieldEdit (kind : FieldEditKind) (value : Text) : SettingsPopup S :=
  (popup.clearFieldHint kind).withMode (.field kind (.new value))

section Edits

variable (env : Environment)

def applyFieldValue (kind : FieldEditKind) (input : TextInputState) :
    SettingsPopup S × FieldApplyOutcome :=
  let settings := popup.draft.current
  let certificate := settings.certificate
  match kind with
  | .serverPort =>
    match (parseU16 input.text).filter (0 < ·) with
    | some port =>
      (((popup.withSettings { settings with server := { port } }).clearError).clearFieldHint
        kind, .closeEditor)
    | none => (popup.setError "server.port must be between 1 and 65535", .keepEditing)
  | .certificateStoreDir =>
    let certificate := { certificate with storeDir := input.text }
    (((popup.withSettings { settings with certificate }).clearError).clearFieldHint kind,
      .closeEditor)
  | .certificatePemFilename =>
    let certificate := { certificate with pemFilename := input.text }
    (((popup.withSettings { settings with certificate }).clearError).clearFieldHint kind,
      .closeEditor)
  | .proxyPresetName => popup.applyProxyPresetName env input.text

/-- The answer is whether the field, if one is open, could be closed. -/
def applyCurrentField : SettingsPopup S × Bool :=
  match popup.mode with
  | .field kind input =>
    match (popup.withMode .browse).applyFieldValue env kind input with
    | (popup, .keepEditing) => (popup.withMode (.field kind input), false)
    | (popup, .closeEditor) => (popup, true)
  | _ => (popup, true)

end Edits

def startSelectedEdit (select : SelectWidget S) : SettingsPopup S :=
  let popup := popup.clampSelectedRow
  let settings := popup.draft.current
  match popup.topic, popup.selectedRow with
  | .server, 0 => popup.startFieldEdit .serverPort (Nat.toDigits 10 settings.server.port)
  | .certificate, 0 => popup.startFieldEdit .certificateStoreDir settings.certificate.storeDir
  | .certificate, 1 =>
    popup.startFieldEdit .certificatePemFilename settings.certificate.pemFilename
  | .recording, _ => popup.startRecordingSelectedEdit
  | .proxy, _ =>
    match popup.selectedProxyWidget with
    | some .preset => popup.startProxyPresetSelect select
    | some .presetName =>
      match activePresetName settings with
      | some name => popup.startFieldEdit .proxyPresetName name
      | none => popup
    | some .remoteRules | some .localRules =>
      match popup.selectedProxyTable with
      | some table => (popup.withMode (.ruleTable table 0)).ensureRuleVisible table
      | none => popup
    | some .mappingEnabled | some .mapRemoteEnabled | some .mapLocalEnabled | none => popup
  | _, _ => popup

section Graphemes

variable (graphemes : Text → List Text)

def handlePrefilterEditorKey (key : KeyEvent) : Option (SettingsPopup S) :=
  if key.code = .enter then some popup.applyCurrentPrefilterPattern.1
  else
    match popup.mode with
    | .prefilterEditor index input =>
      match key.code with
      | .esc => some (popup.selectPrefilterPattern index)
      | .input .backspace | .input .left | .input .right | .input (.char _) => do
          let (input, _) ← input.handleKey graphemes key.toInput
          some (popup.withMode (.prefilterEditor index input))
      | _ => some popup
    | _ => some popup

def handleFieldKey (env : Environment) (key : KeyEvent) : Option (SettingsPopup S) :=
  if key.code = .enter then some (popup.applyCurrentField env).1
  else
    match popup.mode with
    | .field kind input =>
      match key.code with
      | .esc => some ((popup.clearFieldHint kind).withMode .browse)
      | .input .backspace | .input (.char _) => do
          let (input, _) ← input.handleKey graphemes key.toInput
          some ((popup.withMode (.field kind input)).clearFieldHint kind)
      | .input .left | .input .right => do
          let (input, _) ← input.handleKey graphemes key.toInput
          some (popup.withMode (.field kind input))
      | _ => some popup
    | _ => some popup

end Graphemes

end SettingsPopup

end Fluxcope.Popup
