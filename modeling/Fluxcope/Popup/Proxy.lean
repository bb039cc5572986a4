import Fluxcope.Popup.State
/-!
# Proxy rules and presets in the settings popup

Settings without presets are shown with a virtual preset.  It is put into the draft for the
time of an edit, and stays there only if the edit has changed something.
-/

namespace Fluxcope.Popup

open Fluxcope.Library Fluxcope.Settings Fluxcope.TextInput
open Fluxcope.Mapping (Environment)

/-! ## The active preset -/

/-- `DEFAULT_PROXY_PRESET` -/
def defaultProxyPreset : ProxyPresetSettings :=
  { name := "default".toList
    mapRemote := { enable := false, rules := [] }
    mapLocal := { enable := false, rules := [] } }

def activePresetIndex (settings : AppSettings) : Option Nat := do
  let proxy ← settings.proxy
  let active ← proxy.activePreset
  findMappingPresetIndex proxy active

def activePreset (settings : AppSettings) : Option ProxyPresetSettings :=
  match settings.proxy.filter fun proxy => proxy.presets ≠ [] with
  | none => some defaultProxyPreset
  | some proxy => (activePresetIndex settings).bind fun index => proxy.presets[index]?

def activePresetName (settings : AppSettings) : Option Text :=
  (activePreset settings).map fun preset => preset.name

def proxyMappingEnabled (settings : AppSettings) : Bool :=
  settings.proxy.any fun proxy => proxy.presets ≠ [] && proxy.enable

def hasVirtualProxyPreset (settings : AppSettings) : Bool :=
  settings.proxy.all fun proxy => proxy.presets = []

def ruleCount (settings : AppSettings) (table : ProxyRuleTable) : Nat :=
  (activePreset settings).elim 0 fun preset => (preset.table table).rules.length

def ruleAt (settings : AppSettings) (table : ProxyRuleTable) (index : Nat) :
    Option ProxyMapRule := do
  let preset ← activePreset settings
  (preset.table table).rules[index]?

/-! ## Rows -/

inductive ProxyWidget
  | preset
  | presetName
  | mappingEnabled
  | mapRemoteEnabled
  | remoteRules
  | mapLocalEnabled
  | localRules
  deriving DecidableEq, Repr

namespace ProxyWidget

/-- `ACTIVE_PRESET` -/
def all : List ProxyWidget :=
  [.preset, .presetName, .mappingEnabled, .mapRemoteEnabled, .remoteRules, .mapLocalEnabled,
    .localRules]

def presetOnly : List ProxyWidget := [.preset]

def visibleFor (settings : AppSettings) : List ProxyWidget :=
  match settings.proxy with
  | none => all
  | some proxy =>
    if proxy.presets = [] then all
    else
      match proxy.activePreset with
      | none => presetOnly
      | some active => if (findMappingPresetIndex proxy active).isSome then all else presetOnly

def table : ProxyWidget → Option ProxyRuleTable
  | .preset | .presetName | .mappingEnabled | .mapRemoteEnabled | .mapLocalEnabled => none
  | .remoteRules => some .mapRemote
  | .localRules => some .mapLocal

def ofTable : ProxyRuleTable → ProxyWidget
  | .mapRemote => .remoteRules
  | .mapLocal => .localRules

end ProxyWidget

inductive RecordingWidget
  | startRecordingOnLaunch
  | prefilterEnabled
  | includeUrlPatterns
  deriving DecidableEq, Repr

def RecordingWidget.all : List RecordingWidget :=
  [.startRecordingOnLaunch, .prefilterEnabled, .includeUrlPatterns]

/-! ## Mutations -/

def isCreatePreset : MappingMutation → Bool
  | .createPreset _ _ => true
  | _ => false

/-- The result of a mutation that has changed something. -/
def isChanged : Except MappingMutationError MappingMutationResult → Bool
  | .ok result => result.effect = .changed
  | .error _ => false

/-- The section that makes the virtual preset real. -/
def materializedProxy : ProxySettings :=
  { enable := false
    activePreset := some defaultProxyPreset.name
    presets := [defaultProxyPreset] }

section Mutate

variable (env : Environment)

/-- `mutate_proxy`: the draft afterwards, and the result. -/
def mutateProxy (settings : AppSettings) (mutation : MappingMutation) :
    AppSettings × Except MappingMutationError MappingMutationResult :=
  let materializeDefault := hasVirtualProxyPreset settings && !isCreatePreset mutation
  let originalProxy := settings.proxy
  let settings :=
    if materializeDefault then { settings with proxy := some materializedProxy } else settings
  let (settings, result) := applyMappingMutation env settings mutation
  if materializeDefault && !isChanged result then
    ({ settings with proxy := originalProxy }, result)
  else (settings, result)

end Mutate

def insertMutation (preset : Text) (table : ProxyRuleTable) (index : Nat) : MappingMutation :=
  match table with
  | .mapRemote =>
    .insertRemoteRule preset index
      { source := "https://example.com".toList
        target := "http://localhost:3000".toList
        enable := true }
  | .mapLocal =>
    .insertLocalRule preset index
      { source := "https://example.com".toList
        target := "~/mock-response.json".toList
        enable := true }

def updateMutation (preset : Text) (table : ProxyRuleTable) (index : Nat) (source target : Text) :
    MappingMutation :=
  match table with
  | .mapRemote => .updateRemoteRule preset index source target
  | .mapLocal => .updateLocalRule preset index source target

/-- The name of the preset with this number. -/
def numberedName (number : Nat) : Text := "Preset ".toList ++ Nat.toDigits 10 number

/-- The loop over the numbers, for so many of them: the first name that no preset has. -/
def unusedPresetName (proxy : Option ProxySettings) : Nat → Nat → Option Text
  | 0, _ => none
  | fuel + 1, number =>
    if proxy.all fun proxy => (findMappingPresetIndex proxy (numberedName number)).isNone then
      some (numberedName number)
    else unusedPresetName proxy fuel (number + 1)

namespace SettingsPopup

variable {S : Type} (popup : SettingsPopup S)

/-! ## What is selected -/

def visibleProxyWidgets : List ProxyWidget := ProxyWidget.visibleFor popup.draft.current

def proxyWidgetRow (widget : ProxyWidget) : Option Nat :=
  popup.visibleProxyWidgets.findIdx? (· = widget)

def selectedProxyWidget : Option ProxyWidget := popup.visibleProxyWidgets[popup.selectedRow]?

def rowCount : Nat :=
  match popup.topic with
  | .server => 1
  | .certificate => 2
  | .recording => RecordingWidget.all.length
  | .interface => 1
  | .proxy => popup.visibleProxyWidgets.length

def clampSelectedRow : SettingsPopup S :=
  { popup with selectedRow := min popup.selectedRow (popup.rowCount - 1) }

@[simp] theorem clampSelectedRow_mode : popup.clampSelectedRow.mode = popup.mode := rfl

/-- `selected_remote_rule_index` and `selected_local_rule_index` -/
def selectedRuleIndex (table : ProxyRuleTable) : Option Nat :=
  match popup.mode with
  | .ruleTable active index | .ruleEditor active index _ _ _ =>
    if active = table then some index else none
  | _ => none

def selectedProxyTable : Option ProxyRuleTable :=
  if popup.topic ≠ .proxy then none
  else
    match popup.mode with
    | .ruleTable table _ | .ruleEditor table _ _ _ _ => some table
    | _ => popup.selectedProxyWidget.bind ProxyWidget.table

/-! ## Rule tables -/

def clampRuleIndex (table : ProxyRuleTable) (index : Nat) : Nat :=
  min index (ruleCount popup.draft.current table - 1)

def ruleTableState : ProxyRuleTable → SettingsTableState
  | .mapRemote => popup.remoteRuleTable
  | .mapLocal => popup.localRuleTable

def modifyRuleTableState (table : ProxyRuleTable)
    (f : SettingsTableState → SettingsTableState) : SettingsPopup S :=
  match table with
  | .mapRemote => { popup with remoteRuleTable := f popup.remoteRuleTable }
  | .mapLocal => { popup with localRuleTable := f popup.localRuleTable }

@[simp] theorem modifyRuleTableState_mode (table : ProxyRuleTable)
    (f : SettingsTableState → SettingsTableState) :
    (popup.modifyRuleTableState table f).mode = popup.mode := by
  cases table <;> rfl

@[simp] theorem modifyRuleTableState_draft (table : ProxyRuleTable)
    (f : SettingsTableState → SettingsTableState) :
    (popup.modifyRuleTableState table f).draft = popup.draft := by
  cases table <;> rfl

def ruleTablePageSize (table : ProxyRuleTable) : Nat := (popup.ruleTableState table).visibleRows

def ensureRuleVisible (table : ProxyRuleTable) : SettingsPopup S :=
  match popup.selectedRuleIndex table with
  | none => popup
  | some selected =>
    popup.modifyRuleTableState table fun state =>
      state.ensureVisible (ruleCount popup.draft.current table) selected

def clampRuleTableScroll (table : ProxyRuleTable) : SettingsPopup S :=
  popup.modifyRuleTableState table fun state => state.clamp (ruleCount popup.draft.current table)

@[simp] theorem ensureRuleVisible_mode (table : ProxyRuleTable) :
    (popup.ensureRuleVisible table).mode = popup.mode := by
  unfold ensureRuleVisible
  split <;> simp

@[simp] theorem ensureRuleVisible_draft (table : ProxyRuleTable) :
    (popup.ensureRuleVisible table).draft = popup.draft := by
  unfold ensureRuleVisible
  split <;> simp

@[simp] theorem clampRuleTableScroll_mode (table : ProxyRuleTable) :
    (popup.clampRuleTableScroll table).mode = popup.mode :=
  modifyRuleTableState_mode popup table _

@[simp] theorem clampRuleTableScroll_draft (table : ProxyRuleTable) :
    (popup.clampRuleTableScroll table).draft = popup.draft :=
  modifyRuleTableState_draft popup table _

def selectRule (table : ProxyRuleTable) (selectedRule : Nat) : SettingsPopup S :=
  (popup.withMode
    (.ruleTable table (popup.clampRuleIndex table selectedRule))).ensureRuleVisible table

def startRuleEditor (table : ProxyRuleTable) (index : Nat) : SettingsPopup S :=
  match ruleAt popup.draft.current table index with
  | none => popup
  | some rule =>
    popup.withMode (.ruleEditor table index (.new rule.source) (.new rule.target) .source)

def switchRuleEditorField : SettingsPopup S :=
  match popup.mode with
  | .ruleEditor table index source target activeField =>
    popup.withMode (.ruleEditor table index source target
      (match activeField with
        | .source => .target
        | .target => .source))
  | _ => popup

section Edits

variable (env : Environment)

def applyProxyMutation (mutation : MappingMutation) : SettingsPopup S × Bool :=
  match mutateProxy env popup.draft.current mutation with
  | (current, .ok _) => (popup.withSettings current, true)
  | (current, .error error) => ((popup.withSettings current).setError error.message, false)

/-- A mutation of the active preset, if there is one. -/
def applyToActivePreset (mutation : Text → MappingMutation) : SettingsPopup S :=
  match activePresetName popup.draft.current with
  | none => popup
  | some preset => (popup.applyProxyMutation env (mutation preset)).1

def addRuleAfter (table : ProxyRuleTable) (index : Option Nat) : SettingsPopup S × Nat :=
  let currentCount := ruleCount popup.draft.current table
  let inserted := min (index.elim currentCount fun index => index + 1) currentCount
  let popup := popup.applyToActivePreset env fun preset => insertMutation preset table inserted
  (popup.clampRuleTableScroll table, inserted)

def deleteRule (table : ProxyRuleTable) (index : Nat) : SettingsPopup S :=
  let popup :=
    if index < ruleCount popup.draft.current table then
      popup.applyToActivePreset env fun preset => .deleteRule preset table index
    else popup
  (popup.clampRuleTableScroll table).selectRule table index

def moveRuleUp (table : ProxyRuleTable) (index : Nat) : SettingsPopup S :=
  let popup :=
    if 0 < index ∧ index < ruleCount popup.draft.current table then
      popup.applyToActivePreset env fun preset => .moveRule preset table index (index - 1)
    else popup
  popup.selectRule table (index - 1)

def moveRuleDown (table : ProxyRuleTable) (index : Nat) : SettingsPopup S :=
  let destination := index + 1
  let popup :=
    if destination < ruleCount popup.draft.current table then
      popup.applyToActivePreset env fun preset => .moveRule preset table index destination
    else popup
  popup.selectRule table destination

def toggleRule (table : ProxyRuleTable) (index : Nat) : SettingsPopup S :=
  match ruleAt popup.draft.current table index with
  | none => popup
  | some rule =>
    popup.applyToActivePreset env fun preset => .setRuleEnabled preset table index !rule.enable

def applyRuleEditorValue (table : ProxyRuleTable) (index : Nat) (source target : Text) :
    SettingsPopup S :=
  match activePresetName popup.draft.current with
  | none => popup.setError "select a proxy preset first"
  | some preset =>
    match mutateProxy env popup.draft.current (updateMutation preset table index source target) with
    | (current, .ok _) => (popup.withSettings current).clearError
    | (current, .error error) => (popup.withSettings current).setError error.message

/-- A mutation of the rule that is selected in one of the tables. -/
def onSelectedRule (action : ProxyRuleTable → Nat → SettingsPopup S) : SettingsPopup S :=
  match popup.selectedRuleIndex .mapRemote with
  | some index => action .mapRemote index
  | none =>
    match popup.selectedRuleIndex .mapLocal with
    | some index => action .mapLocal index
    | none => popup

def toggleTable (table : ProxyRuleTable) : SettingsPopup S :=
  match activePreset popup.draft.current with
  | none => popup
  | some preset =>
    (popup.applyProxyMutation env
      (.setTableEnabled preset.name table !(preset.table table).enable)).1

def toggleSelectedProxyCheckbox : SettingsPopup S :=
  match popup.selectedProxyWidget with
  | some .mappingEnabled =>
    (popup.applyProxyMutation env
      (.setGlobalEnabled !proxyMappingEnabled popup.draft.current)).1
  | some .mapRemoteEnabled => popup.toggleTable env .mapRemote
  | some .mapLocalEnabled => popup.toggleTable env .mapLocal
  | _ => popup.onSelectedRule fun table index => popup.toggleRule env table index

/-- The rule goes behind the selected one, or to the end. -/
def addRuleFromKey : SettingsPopup S :=
  if popup.topic ≠ .proxy then popup
  else
    let popup := popup.clampSelectedRow
    match popup.selectedProxyTable with
    | none => popup
    | some table =>
      let (popup, inserted) := popup.addRuleAfter env table (popup.selectedRuleIndex table)
      match popup.mode with
      | .ruleTable _ _ => popup.withMode (.ruleTable table inserted)
      | _ => popup

/-- `delete_rule_from_key`, `move_rule_up_from_key` and `move_rule_down_from_key` -/
def ruleActionFromKey
    (action : SettingsPopup S → ProxyRuleTable → Nat → SettingsPopup S) : SettingsPopup S :=
  if popup.topic ≠ .proxy then popup
  else
    let popup := popup.clampSelectedRow
    popup.onSelectedRule (action popup)

def deleteRuleFromKey : SettingsPopup S :=
  popup.ruleActionFromKey fun popup => popup.deleteRule env

def moveRuleUpFromKey : SettingsPopup S :=
  popup.ruleActionFromKey fun popup => popup.moveRuleUp env

def moveRuleDownFromKey : SettingsPopup S :=
  popup.ruleActionFromKey fun popup => popup.moveRuleDown env

def presetNameHint : MappingMutationErrorKind → String
  | .duplicatePresetName => "preset name already exists"
  | .invalidField => "preset name cannot be empty"
  | .proxyNotFound | .presetNotFound | .ruleNotFound => "select a proxy preset first"

def applyProxyPresetName (value : Text) : SettingsPopup S × FieldApplyOutcome :=
  match activePresetName popup.draft.current with
  | none => (popup.setFieldHint .proxyPresetName "select a proxy preset first", .keepEditing)
  | some name =>
    match mutateProxy env popup.draft.current (.renamePreset name value) with
    | (current, .ok _) =>
      (((popup.withSettings current).clearError.clearFieldHint
        .proxyPresetName).clampSelectedRow, .closeEditor)
    | (current, .error error) =>
      ((popup.withSettings current).setFieldHint .proxyPresetName (presetNameHint error.kind),
        .keepEditing)

/-! ## Presets -/

def proxyPresetSelectItems : List SelectItem :=
  let presets := popup.draft.current.proxy.elim [] fun proxy => proxy.presets
  (if presets = [] then [{ id := .default, label := defaultProxyPreset.name }] else []) ++
    presets.zipIdx.map (fun (preset, index) => { id := .existing index, label := preset.name }) ++
    [{ id := .create
       label := "+ Create new preset".toList
       role := .action
       filterMode := .alwaysVisible }]

def activeProxyPresetSelectId : Option ProxyPresetChoice :=
  if hasVirtualProxyPreset popup.draft.current then some .default
  else (activePresetIndex popup.draft.current).map .existing

def startProxyPresetSelect (select : SelectWidget S) : SettingsPopup S :=
  let popup := { popup with focus := .content, topic := .proxy }
  let popup := { popup with selectedRow := (popup.proxyWidgetRow .preset).getD 0 }
  popup.withMode (.select (select.openWithSelected select.new popup.proxyPresetSelectItems
    popup.activeProxyPresetSelectId proxyPresetSelectMaxVisibleItems))

def applyProxyPresetSelection (index : Nat) : SettingsPopup S :=
  let name := do
    let proxy ← popup.draft.current.proxy
    let preset ← proxy.presets[index]?
    some preset.name
  match name with
  | none => popup
  | some name =>
    match applyMappingMutation env popup.draft.current (.setActivePreset (some name)) with
    | (current, .ok _) =>
      { (popup.withSettings current).clearError with
        fieldHint := none }.resetTableScrolls.clampSelectedRow
    | (current, .error _) => popup.withSettings current

/-- The preset that a new one begins as. -/
def initialPreset : ProxyPresetSettings :=
  { mapRemote := { enable := false, rules := [] }
    mapLocal := { enable := false, rules := [] } }

/-- `none` where the source would panic: no created preset, or no name for it. -/
def createProxyPreset : Option (SettingsPopup S × SelectCommitEffect) := do
  let proxy := popup.draft.current.proxy
  let name ← unusedPresetName proxy (proxy.elim 0 (fun proxy => proxy.presets.length) + 1) 1
  let (popup, created) :=
    popup.applyProxyMutation env (.createPreset name (some initialPreset))
  if created then
    let created ← popup.draft.current.proxy
    let created := if proxy.isNone then { created with enable := false } else created
    let popup := popup.withSettings { popup.draft.current with proxy := some created }
    if created.presets = [] then none
    else some (popup.applyProxyPresetSelection env (created.presets.length - 1), .close)
  else some (popup, .keepOpen)

def applySelectCommit (commit : SelectCommit) : Option (SettingsPopup S × SelectCommitEffect) :=
  match commit.id, commit.role with
  | .existing index, .value => some (popup.applyProxyPresetSelection env index, .close)
  | .default, .value => some (popup, .close)
  | .create, .action => popup.createProxyPreset env
  | _, _ => some (popup, .keepOpen)

def applySelectCommitEffect (effect : SelectCommitEffect) (state : S) : SettingsPopup S :=
  match effect with
  | .close => popup.withMode .browse
  | .keepOpen => popup.withMode (.select state)

section Select

variable (select : SelectWidget S)

def handleSelectKey (key : KeyEvent) : Option (SettingsPopup S) :=
  match popup.mode with
  | .select state => do
      let popup := popup.withMode .browse
      let (state, outcome) := select.handleKey state key popup.proxyPresetSelectItems
        proxyPresetSelectMaxVisibleItems
      match outcome with
      | .committed commit => do
          let (popup, effect) ← popup.applySelectCommit env commit
          some (popup.applySelectCommitEffect effect state)
      | .closed => some (popup.withMode .browse)
      | .none => some (popup.withMode (.select state))
  | _ => some popup

def closeActiveSelect : SettingsPopup S :=
  match popup.mode with
  | .select _ => popup.withMode .browse
  | _ => popup

def commitActiveSelectFilteredIndex (filteredIndex : Nat) : Option (SettingsPopup S) :=
  match popup.mode with
  | .select state => do
      let popup := popup.withMode .browse
      let (state, commit) :=
        select.commitFilteredIndex state popup.proxyPresetSelectItems filteredIndex
      match commit with
      | some commit => do
          let (popup, effect) ← popup.applySelectCommit env commit
          some (popup.applySelectCommitEffect effect state)
      | none => some (popup.withMode (.select state))
  | _ => some popup

def scrollActiveSelect (down : Bool) : SettingsPopup S :=
  match popup.mode with
  | .select state =>
    let items := popup.proxyPresetSelectItems
    popup.withMode (.select
      (if down then select.scrollDown state items proxyPresetSelectMaxVisibleItems
      else select.scrollUp state items proxyPresetSelectMaxVisibleItems))
  | _ => popup

end Select

end Edits

end SettingsPopup

end Fluxcope.Popup
