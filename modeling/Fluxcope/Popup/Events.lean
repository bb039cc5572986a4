import Fluxcope.Popup.Fields
/-!
# Keys, clicks and pastes in the settings popup

An event that panics is `none`.  While a transaction is pending only the topics and the
rows can be moved over.
-/

namespace Fluxcope.Popup

open Fluxcope.Library Fluxcope.Settings Fluxcope.TextInput
open Fluxcope.Mapping (Environment)

inductive SettingsClickTarget
  | topic (topic : SettingsTopic)
  | background
  | table (row : Nat)
  | field (row : Nat) (cursor : Option Nat)
  | checkbox (row : Nat)
  | select
  | selectOption (index : Nat)
  | selectFilter (cursor : Option Nat)
  | prefilterRow (index : Nat) (toggle : Bool)
  | prefilterInput (index : Nat) (cursor : Option Nat)
  | ruleRow (table : ProxyRuleTable) (index : Nat) (toggle : Bool) (field : RuleEditField)
  | ruleField (field : RuleEditField) (cursor : Option Nat)
  | dialogAction (action : DialogActionKind)
  | outside
  deriving DecidableEq, Repr

/-- The topic that many places further, counted around. -/
def SettingsTopic.shifted (topic : SettingsTopic) (places : Nat) : SettingsTopic :=
  let topics := SettingsTopic.all
  let index := (topics.findIdx? (· = topic)).getD 0
  topics.getD ((index + places) % topics.length) topic

def DialogActionKind.next : DialogActionKind → DialogActionKind
  | .save => .discard
  | .discard => .keepEditing
  | .keepEditing => .save

def DialogActionKind.previous : DialogActionKind → DialogActionKind
  | .save => .keepEditing
  | .discard => .save
  | .keepEditing => .discard

namespace SettingsPopup

variable {S : Type} (popup : SettingsPopup S)

/-! ## Rows and topics -/

def selectTopic (topic : SettingsTopic) : SettingsPopup S :=
  ({ popup with topic, selectedRow := 0, mode := .browse, fieldHint := none
    }.resetTableScrolls.clearError).clampSelectedRow

def selectNext : SettingsPopup S :=
  if popup.focus = .topics then popup.selectTopic (popup.topic.shifted 1)
  else
    let popup := popup.clampSelectedRow
    { popup with selectedRow := min (popup.selectedRow + 1) (popup.rowCount - 1) }

def selectPrevious : SettingsPopup S :=
  if popup.focus = .topics then
    popup.selectTopic (popup.topic.shifted (SettingsTopic.all.length - 1))
  else
    let popup := popup.clampSelectedRow
    { popup with selectedRow := popup.selectedRow - 1 }

def focusContentRow (row : Nat) : SettingsPopup S :=
  { popup with focus := .content, selectedRow := row, mode := .browse }

def handleEscape : SettingsPopup S × SettingsPopupAction :=
  match popup.mode with
  | .browse =>
    if popup.draft.isDirty then (popup.withMode (.unsavedConfirm .keepEditing), .none)
    else (popup, .close)
  | .ruleEditor table index _ _ _ =>
    (popup.withMode (.ruleTable table (popup.clampRuleIndex table index)), .none)
  | _ => (popup.withMode .browse, .none)

/-! ## Cursors -/

section Graphemes

variable (graphemes : Text → List Text)

/-- A click moves the cursor where it says so. -/
def clickCursor (input : TextInputState) (clicked : Option Nat) : TextInputState :=
  clicked.elim input fun cursor => (input.setCursor graphemes cursor).1

/-- The answer is whether the click was into the text that is edited. -/
def positionActiveInlineCursor (target : SettingsClickTarget) : SettingsPopup S × Bool :=
  match popup.mode, target with
  | .field kind input, .field row clicked =>
    if row = popup.selectedRow then
      (popup.withMode (.field kind (clickCursor graphemes input clicked)), true)
    else (popup, false)
  | .prefilterEditor index input, .prefilterInput clickedIndex clicked =>
    if index = clickedIndex then
      (popup.withMode (.prefilterEditor index (clickCursor graphemes input clicked)), true)
    else (popup, false)
  | _, _ => (popup, false)

def positionRuleCursor (field : RuleEditField) (clicked : Option Nat) : SettingsPopup S :=
  match popup.mode with
  | .ruleEditor table index source target _ =>
    match field with
    | .source =>
      popup.withMode
        (.ruleEditor table index (clickCursor graphemes source clicked) target field)
    | .target =>
      popup.withMode
        (.ruleEditor table index source (clickCursor graphemes target clicked) field)
  | _ => popup

section Edits

variable (env : Environment)

def saveAction : SettingsPopup S × SettingsPopupAction :=
  match validateSettings env popup.draft.current with
  | .ok () => (popup, .save popup.draft.current)
  | .error error => ((popup.withMode .browse).setError error, .none)

def toggleSelectedCheckbox : SettingsPopup S :=
  let popup := popup.clampSelectedRow
  let settings := popup.draft.current
  match popup.topic, popup.selectedRow with
  | .recording, _ => popup.toggleSelectedRecordingCheckbox
  | .interface, 0 =>
    let requestList := settings.ui.requestList
    popup.withSettings
      { settings with
        ui := { settings.ui with
          requestList := { requestList with autoExpand := !requestList.autoExpand } } }
  | .proxy, _ => popup.toggleSelectedProxyCheckbox env
  | _, _ => popup

/-! ## Keys -/

def activateDialogAction (action : DialogActionKind) : SettingsPopup S × SettingsPopupAction :=
  match action with
  | .save => popup.saveAction env
  | .discard => (popup, .close)
  | .keepEditing => (popup.withMode .browse, .none)

def handleUnsavedConfirmKey (key : KeyEvent) : SettingsPopup S × SettingsPopupAction :=
  match popup.mode with
  | .unsavedConfirm focusedAction =>
    match key.code with
    | .enter => popup.activateDialogAction env focusedAction
    | .esc => popup.activateDialogAction env .keepEditing
    | .input (.char 's') =>
      if popup.context.persistence = .persistent then popup.activateDialogAction env .save
      else (popup, .none)
    | .input (.char 'a') =>
      if popup.context.persistence = .ephemeral then popup.activateDialogAction env .save
      else (popup, .none)
    | .input (.char 'd') => popup.activateDialogAction env .discard
    | .tab | .input .right => (popup.withMode (.unsavedConfirm focusedAction.next), .none)
    | .backTab | .input .left =>
      (popup.withMode (.unsavedConfirm focusedAction.previous), .none)
    | _ => (popup, .none)
  | _ => (popup, .none)

def handleRuleTableKey (key : KeyEvent) : SettingsPopup S :=
  match popup.mode with
  | .ruleTable table selectedRule =>
    let count := ruleCount popup.draft.current table
    match key.code with
    | .esc => popup.withMode .browse
    | .enter | .input (.char 'e') => popup.startRuleEditor table selectedRule
    | .input (.char ' ') => popup.toggleRule env table selectedRule
    | .input (.char 'a') =>
      let insertAfter := if count > 0 then some selectedRule else none
      let (popup, inserted) := popup.addRuleAfter env table insertAfter
      popup.selectRule table inserted
    | .input (.char 'd') => popup.deleteRule env table selectedRule
    | .input (.char 'J') => popup.moveRuleDown env table selectedRule
    | .input (.char 'K') => popup.moveRuleUp env table selectedRule
    | .input (.char 'j') | .down => popup.selectRule table (min (selectedRule + 1) (count - 1))
    | .input (.char 'k') | .up => popup.selectRule table (selectedRule - 1)
    | .pageDown =>
      popup.selectRule table
        (min (selectedRule + popup.ruleTablePageSize table) (count - 1))
    | .pageUp => popup.selectRule table (selectedRule - popup.ruleTablePageSize table)
    | _ => popup
  | _ => popup

def handleRuleEditorKey (key : KeyEvent) : Option (SettingsPopup S) :=
  match key.code with
  | .esc => some popup.handleEscape.1
  | .enter =>
    match popup.mode with
    | .ruleEditor table index source target _ =>
      let popup :=
        (popup.withMode .browse).applyRuleEditorValue env table index source.text target.text
      some (popup.withMode (.ruleTable table (popup.clampRuleIndex table index)))
    | _ => some popup
  | .tab | .backTab | .down | .up => some popup.switchRuleEditorField
  | .input .backspace | .input .left | .input .right | .input (.char _) =>
    match popup.mode with
    | .ruleEditor table index source target .source => do
        let (source, _) ← source.handleKey graphemes key.toInput
        some (popup.withMode (.ruleEditor table index source target .source))
    | .ruleEditor table index source target .target => do
        let (target, _) ← target.handleKey graphemes key.toInput
        some (popup.withMode (.ruleEditor table index source target .target))
    | _ => some popup
  | _ => some popup

variable (select : SelectWidget S)

def handleBrowseKey (key : KeyEvent) : Option (SettingsPopup S × SettingsPopupAction) :=
  let inContent := popup.focus = .content
  match key.code with
  | .esc => some popup.handleEscape
  | .input (.char 's') => some (popup.saveAction env)
  | .enter =>
    match popup.focus with
    | .topics => some ({ popup with focus := .content }, .none)
    | .content => some (popup.startSelectedEdit select, .none)
  | .input (.char ' ') =>
    some (if inContent then popup.toggleSelectedCheckbox env else popup, .none)
  | .input (.char 'a') =>
    if inContent then do
      let (popup, added) ← popup.addPrefilterPatternFromBrowse
      some (if added then popup else popup.addRuleFromKey env, .none)
    else some (popup, .none)
  | .input (.char 'd') => some (if inContent then popup.deleteRuleFromKey env else popup, .none)
  | .input (.char 'J') => some (if inContent then popup.moveRuleDownFromKey env else popup, .none)
  | .input (.char 'K') => some (if inContent then popup.moveRuleUpFromKey env else popup, .none)
  | .input (.char 'h') | .input .left => some ({ popup with focus := .topics }, .none)
  | .input (.char 'l') | .input .right => some ({ popup with focus := .content }, .none)
  | .input (.char 'j') | .down => some (popup.selectNext, .none)
  | .input (.char 'k') | .up => some (popup.selectPrevious, .none)
  | _ => some (popup, .none)

/-- A popup that asks the application for nothing. -/
def quiet (result : Option (SettingsPopup S)) : Option (SettingsPopup S × SettingsPopupAction) :=
  result.map fun popup => (popup, .none)

def handleKey (key : KeyEvent) : Option (SettingsPopup S × SettingsPopupAction) :=
  match popup.mode with
  | .unsavedConfirm _ => some (popup.handleUnsavedConfirmKey env key)
  | .field _ _ => quiet (popup.handleFieldKey graphemes env key)
  | .prefilterTable _ => quiet (popup.handlePrefilterTableKey key)
  | .prefilterEditor _ _ => quiet (popup.handlePrefilterEditorKey graphemes key)
  | .select _ => quiet (popup.handleSelectKey env select key)
  | .ruleTable _ _ => some (popup.handleRuleTableKey env key, .none)
  | .ruleEditor _ _ _ _ _ => quiet (popup.handleRuleEditorKey graphemes env key)
  | .browse => popup.handleBrowseKey env select key

def handleKeyWhileTransactionPending (key : KeyEvent) : SettingsPopup S :=
  match popup.mode with
  | .browse =>
    match key.code with
    | .input (.char 'h') | .input .left => { popup with focus := .topics }
    | .input (.char 'l') | .input .right => { popup with focus := .content }
    | .input (.char 'j') | .down => popup.selectNext
    | .input (.char 'k') | .up => popup.selectPrevious
    | .pageDown | .pageUp => popup
    | _ => popup.markTransactionPending
  | _ => popup.markTransactionPending

def handlePaste (pasted : Text) : Option (SettingsPopup S) :=
  match popup.mode with
  | .field kind input => do
      let (input, outcome) ← input.paste graphemes pasted
      let popup := popup.withMode (.field kind input)
      some (if outcome = .changed then popup.clearFieldHint kind else popup)
  | .prefilterEditor index input => do
      let (input, _) ← input.paste graphemes pasted
      some (popup.withMode (.prefilterEditor index input))
  | .ruleEditor table index source target .source => do
      let (source, _) ← source.paste graphemes pasted
      some (popup.withMode (.ruleEditor table index source target .source))
  | .ruleEditor table index source target .target => do
      let (target, _) ← target.paste graphemes pasted
      some (popup.withMode (.ruleEditor table index source target .target))
  | .select state => some (popup.withMode (.select (select.handlePaste state pasted).1))
  | .browse | .ruleTable _ _ | .prefilterTable _ | .unsavedConfirm _ => some popup

/-! ## Clicks -/

/-- `none` when nothing lies over the popup. -/
def clickOverlay (target : SettingsClickTarget) :
    Option (Option (SettingsPopup S × SettingsPopupAction)) :=
  match popup.mode with
  | .unsavedConfirm _ =>
    match target with
    | .dialogAction action => some (some (popup.activateDialogAction env action))
    | .outside => some (some (popup.activateDialogAction env .keepEditing))
    | _ => some (some (popup, .none))
  | .select state =>
    match target with
    | .outside => some (some (popup.closeActiveSelect, .none))
    | .selectOption index =>
      some (quiet (popup.commitActiveSelectFilteredIndex env select index))
    | .selectFilter (some cursor) =>
      some (some (popup.withMode (.select (select.setFilterCursor state cursor)), .none))
    | _ => some (some (popup, .none))
  | .ruleEditor _ _ _ _ _ =>
    match target with
    | .outside => some (some (popup.handleEscape.1, .none))
    | .ruleField field cursor =>
      some (some (popup.positionRuleCursor graphemes field cursor, .none))
    | _ => some (some (popup, .none))
  | _ => none

def clickRuleRow (table : ProxyRuleTable) (index : Nat) (toggle : Bool) (field : RuleEditField)
    (doubleClick : Bool) : SettingsPopup S :=
  if index ≥ ruleCount popup.draft.current table then popup
  else
    match popup.proxyWidgetRow (.ofTable table) with
    | none => popup
    | some row =>
      let popup := (popup.focusContentRow row).selectRule table index
      if toggle then popup.toggleRule env table index
      else if doubleClick then
        (popup.startRuleEditor table index).positionRuleCursor graphemes field none
      else popup

def inTable : Bool :=
  match popup.mode with
  | .ruleTable _ _ | .prefilterTable _ => true
  | _ => false

/-- A click on the popup itself, after the text that was edited has been applied. -/
def clickTarget (target : SettingsClickTarget) (doubleClick : Bool) :
    SettingsPopup S × SettingsPopupAction :=
  match target with
  | .topic topic => ({ popup.selectTopic topic with focus := .topics }, .none)
  | .table row =>
    if row < popup.rowCount then
      let popup :=
        if popup.selectedRow ≠ row || !popup.inTable then
          (popup.focusContentRow row).startSelectedEdit select
        else popup
      ({ popup with focus := .content }, .none)
    else (popup, .none)
  | .field row cursor =>
    if row < popup.rowCount then
      let popup := (popup.focusContentRow row).startSelectedEdit select
      ((popup.positionActiveInlineCursor graphemes (.field row cursor)).1, .none)
    else (popup, .none)
  | .checkbox row =>
    if row < popup.rowCount then
      ((popup.focusContentRow row).toggleSelectedCheckbox env, .none)
    else (popup, .none)
  | .select => (popup.startProxyPresetSelect select, .none)
  | .prefilterRow index toggle =>
    if index < popup.prefilterPatternCount then
      let popup := popup.selectPrefilterPattern index
      if toggle then (popup.togglePrefilterPattern index, .none)
      else if doubleClick then (popup.startPrefilterPatternEditor index, .none)
      else (popup, .none)
    else (popup, .none)
  | .prefilterInput index cursor =>
    if index < popup.prefilterPatternCount then
      let popup := (popup.selectPrefilterPattern index).startPrefilterPatternEditor index
      ((popup.positionActiveInlineCursor graphemes (.prefilterInput index cursor)).1, .none)
    else (popup, .none)
  | .ruleRow table index toggle field =>
    (popup.clickRuleRow graphemes env table index toggle field doubleClick, .none)
  | .outside => (popup.withMode .browse).handleEscape
  | .background | .selectOption _ | .selectFilter _ | .ruleField _ _ | .dialogAction _ =>
    (popup, .none)

def applyClick (target : SettingsClickTarget) (doubleClick : Bool) :
    Option (SettingsPopup S × SettingsPopupAction) :=
  match popup.clickOverlay graphemes env select target with
  | some result => result
  | none =>
    match popup.positionActiveInlineCursor graphemes target with
    | (popup, true) => some (popup, .none)
    | (popup, false) =>
      match popup.applyCurrentField env with
      | (popup, false) => some (popup, .none)
      | (popup, true) =>
        match popup.applyCurrentPrefilterPattern with
        | (popup, false) => some (popup, .none)
        | (popup, true) => some (popup.clickTarget graphemes env select target doubleClick)

def browsing : Bool :=
  match popup.mode with
  | .browse | .ruleTable _ _ | .prefilterTable _ => true
  | _ => false

def handleClick (target : SettingsClickTarget) (doubleClick transactionPending : Bool) :
    Option (SettingsPopup S × SettingsPopupAction) :=
  if transactionPending then
    match target with
    | .topic topic =>
      if popup.browsing then some ({ popup.selectTopic topic with focus := .topics }, .none)
      else some (popup.markTransactionPending, .none)
    | _ => some (popup.markTransactionPending, .none)
  else popup.applyClick graphemes env select target doubleClick

end Edits

end Graphemes

end SettingsPopup

/-! ## Events -/

/-- What the user and the application do to an open popup. -/
inductive PopupEvent
  | key (key : KeyEvent)
  | keyWhileTransactionPending (key : KeyEvent)
  | paste (pasted : Text)
  | click (target : SettingsClickTarget) (doubleClick transactionPending : Bool)
  | scrollActiveSelect (down : Bool)
  | scrollTable (table : Option ProxyRuleTable) (down : Bool)
  | syncTableView (table : Option ProxyRuleTable) (visibleRows : Nat)
  | saveFailed (message : String)
  | transactionPending
  deriving DecidableEq, Repr

namespace SettingsPopup

variable {S : Type} (graphemes : Text → List Text) (env : Environment) (select : SelectWidget S)
  (popup : SettingsPopup S)

/-- The table of rules, or the table of patterns. -/
def modifyTableState (table : Option ProxyRuleTable)
    (f : Nat → SettingsTableState → SettingsTableState) : SettingsPopup S :=
  match table with
  | some table =>
    popup.modifyRuleTableState table (f (ruleCount popup.draft.current table))
  | none =>
    { popup with prefilterTable := f popup.prefilterPatternCount popup.prefilterTable }

def handle : PopupEvent → Option (SettingsPopup S × SettingsPopupAction)
  | .key key => popup.handleKey graphemes env select key
  | .keyWhileTransactionPending key => some (popup.handleKeyWhileTransactionPending key, .none)
  | .paste pasted => quiet (popup.handlePaste graphemes select pasted)
  | .click target doubleClick transactionPending =>
    popup.handleClick graphemes env select target doubleClick transactionPending
  | .scrollActiveSelect down => some (popup.scrollActiveSelect select down, .none)
  | .scrollTable table down =>
    some (popup.modifyTableState table fun rowCount state =>
      if down then state.scrollDown rowCount else state.scrollUp, .none)
  | .syncTableView table visibleRows =>
    some (popup.modifyTableState table fun rowCount state =>
      state.setLastVisibleRows rowCount visibleRows, .none)
  | .saveFailed message => some (popup.markSaveFailed message, .none)
  | .transactionPending => some (popup.markTransactionPending, .none)

/-- The popup after an event. -/
def next (popup : SettingsPopup S) (event : PopupEvent) : Option (SettingsPopup S) :=
  (popup.handle graphemes env select event).map Prod.fst

end SettingsPopup

end Fluxcope.Popup
