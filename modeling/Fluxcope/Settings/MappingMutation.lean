import Fluxcope.Mapping.Validation
import Fluxcope.Settings.AppSettings
/-!
# Mutations of the mapping settings

The function works on a candidate: a caller that gets an error drops it.  Remote
and local rules are handled alike, each by its own operation.
-/

namespace Fluxcope.Settings

open Fluxcope.Library Fluxcope.Mapping

inductive MappingMutation
  | createPreset (name : Text) (initial : Option ProxyPresetSettings)
  | renamePreset (name newName : Text)
  | deletePreset (name : Text)
  | setActivePreset (name : Option Text)
  | setGlobalEnabled (enabled : Bool)
  | setTableEnabled (preset : Text) (table : ProxyRuleTable) (enabled : Bool)
  | appendRemoteRule (preset : Text) (rule : ProxyMapRemoteRule)
  | insertRemoteRule (preset : Text) (index : Nat) (rule : ProxyMapRemoteRule)
  | updateRemoteRule (preset : Text) (index : Nat) (source target : Text)
  | appendLocalRule (preset : Text) (rule : ProxyMapLocalRule)
  | insertLocalRule (preset : Text) (index : Nat) (rule : ProxyMapLocalRule)
  | updateLocalRule (preset : Text) (index : Nat) (source target : Text)
  | deleteRule (preset : Text) (table : ProxyRuleTable) (index : Nat)
  | moveRule (preset : Text) (table : ProxyRuleTable) (source target : Nat)
  | setRuleEnabled (preset : Text) (table : ProxyRuleTable) (index : Nat) (enabled : Bool)
  deriving DecidableEq, Repr

inductive MutationEffect
  | changed
  | unchanged
  deriving DecidableEq, Repr

inductive MappingObjectRef
  | proxy
  | activePreset
  | preset (name : Text)
  | presetName (name : Text)
  | table (preset : Text) (table : ProxyRuleTable)
  | rule (preset : Text) (table : ProxyRuleTable) (index : Nat)
  | ruleField (preset : Text) (table : ProxyRuleTable) (index : Nat) (field : MappingField)
  deriving DecidableEq, Repr

structure MappingMutationResult where
  affected : MappingObjectRef
  effect : MutationEffect
  deriving DecidableEq, Repr

inductive MappingMutationErrorKind
  | proxyNotFound
  | presetNotFound
  | duplicatePresetName
  | ruleNotFound
  | invalidField
  deriving DecidableEq, Repr

structure MappingMutationError where
  kind : MappingMutationErrorKind
  location : MappingObjectRef
  message : String
  deriving DecidableEq, Repr

def mutationResult (affected : MappingObjectRef) (changed : Bool) : MappingMutationResult :=
  { affected, effect := if changed then .changed else .unchanged }

/-! ## Names and errors -/

def normalizedName (name : Text) : Except MappingMutationError Text :=
  let name := name.trim
  if name = [] then
    .error
      { kind := .invalidField
        location := .presetName name
        message := "preset name cannot be empty" }
  else .ok name

def requireProxy (settings : AppSettings) (location : MappingObjectRef) :
    Except MappingMutationError ProxySettings :=
  match settings.proxy with
  | some proxy => .ok proxy
  | none => .error { kind := .proxyNotFound, location, message := "proxy settings do not exist" }

def findMappingPresetIndex (proxy : ProxySettings) (name : Text) : Option Nat :=
  proxy.presets.findIdx? fun preset => preset.name.trim = name.trim

def requirePresetIndex (proxy : ProxySettings) (name : Text) : Except MappingMutationError Nat :=
  match findMappingPresetIndex proxy name with
  | some index => .ok index
  | none =>
    let shown := String.ofList name
    .error
      { kind := .presetNotFound
        location := .preset name
        message := s!"proxy preset '{shown}' was not found" }

def duplicateNameError (name : Text) : MappingMutationError :=
  { kind := .duplicatePresetName
    location := .presetName name
    message := "preset name already exists" }

def ruleNotFound (preset : Text) (table : ProxyRuleTable) (index : Nat) : MappingMutationError :=
  { kind := .ruleNotFound
    location := .rule preset table index
    message := s!"mapping rule {index} was not found" }

/-! ## Access to the tables -/

/-- `proxy.presets[index]`, for an index that was found. -/
def ProxySettings.presetAt (proxy : ProxySettings) (index : Nat) : ProxyPresetSettings :=
  proxy.presets.getD index {}

def ProxyPresetSettings.modifyTable (preset : ProxyPresetSettings) (table : ProxyRuleTable)
    (f : ProxyMapSettings → ProxyMapSettings) : ProxyPresetSettings :=
  match table with
  | .mapRemote => { preset with mapRemote := f preset.mapRemote }
  | .mapLocal => { preset with mapLocal := f preset.mapLocal }

def ProxySettings.modifyTable (proxy : ProxySettings) (index : Nat) (table : ProxyRuleTable)
    (f : ProxyMapSettings → ProxyMapSettings) : ProxySettings :=
  { proxy with presets := proxy.presets.modify index fun preset => preset.modifyTable table f }

def ProxySettings.modifyRules (proxy : ProxySettings) (index : Nat) (table : ProxyRuleTable)
    (f : List ProxyMapRule → List ProxyMapRule) : ProxySettings :=
  proxy.modifyTable index table fun settings => { settings with rules := f settings.rules }

def AppSettings.withProxy (settings : AppSettings) (proxy : ProxySettings) : AppSettings :=
  { settings with proxy := some proxy }

section Apply

variable (env : Environment)

def validateRuleFields (preset : Text) (table : ProxyRuleTable) (index : Nat)
    (source target : Text) : Except MappingMutationError Unit :=
  match validateRuleValues env table source target with
  | (field, message) :: _ =>
    .error { kind := .invalidField, location := .ruleField preset table index field, message }
  | [] => .ok ()

def validateInitialPreset (preset : ProxyPresetSettings) : Except MappingMutationError Unit :=
  let proxy : ProxySettings := { activePreset := some preset.name, presets := [preset] }
  match (validateProxySettingsCapped env proxy 1).1 with
  | diagnostic :: _ =>
    .error
      { kind := .invalidField
        location :=
          match diagnostic.location with
          | none => .presetName preset.name
          | some location =>
            .ruleField preset.name location.table location.ruleIndex location.field
        message := diagnostic.message }
  | [] => .ok ()

/-! ## Operations on rules -/

def insertRule (settings : AppSettings) (preset : Text) (table : ProxyRuleTable)
    (index : Option Nat) (rule : ProxyMapRule) :
    Except MappingMutationError (AppSettings × MappingObjectRef) := do
  let preset ← normalizedName preset
  let proxy ← requireProxy settings (.table preset table)
  let presetIndex ← requirePresetIndex proxy preset
  let rules := ((proxy.presetAt presetIndex).table table).rules
  let index := index.getD rules.length
  validateRuleFields env preset table index rule.source rule.target
  if index > rules.length then throw (ruleNotFound preset table index)
  pure (settings.withProxy (proxy.modifyRules presetIndex table fun rules =>
    rules.insertIdx index rule), .rule preset table index)

def insertRemoteRule (settings : AppSettings) (preset : Text) (index : Option Nat)
    (rule : ProxyMapRemoteRule) :=
  insertRule env settings preset .mapRemote index rule

def insertLocalRule (settings : AppSettings) (preset : Text) (index : Option Nat)
    (rule : ProxyMapLocalRule) :=
  insertRule env settings preset .mapLocal index rule

def updateRule (settings : AppSettings) (preset : Text) (table : ProxyRuleTable) (index : Nat)
    (source target : Text) : Except MappingMutationError (AppSettings × MappingMutationResult) := do
  let preset ← normalizedName preset
  validateRuleFields env preset table index source target
  let proxy ← requireProxy settings (.rule preset table index)
  let presetIndex ← requirePresetIndex proxy preset
  match ((proxy.presetAt presetIndex).table table).rules[index]? with
  | none => throw (ruleNotFound preset table index)
  | some rule =>
    let changed := rule.source ≠ source || rule.target ≠ target
    pure (settings.withProxy (proxy.modifyRules presetIndex table fun rules =>
      rules.set index { rule with source, target }),
      mutationResult (.rule preset table index) changed)

def updateRemoteRule (settings : AppSettings) (preset : Text) (index : Nat)
    (source target : Text) :=
  updateRule env settings preset .mapRemote index source target

def updateLocalRule (settings : AppSettings) (preset : Text) (index : Nat)
    (source target : Text) :=
  updateRule env settings preset .mapLocal index source target

def deleteRule (settings : AppSettings) (preset : Text) (table : ProxyRuleTable) (index : Nat) :
    Except MappingMutationError (AppSettings × MappingObjectRef) := do
  let preset ← normalizedName preset
  let proxy ← requireProxy settings (.rule preset table index)
  let presetIndex ← requirePresetIndex proxy preset
  if index ≥ ((proxy.presetAt presetIndex).table table).rules.length then
    throw (ruleNotFound preset table index)
  pure (settings.withProxy (proxy.modifyRules presetIndex table fun rules =>
    rules.eraseIdx index), .rule preset table index)

def moveItem (rules : List ProxyMapRule) (preset : Text) (table : ProxyRuleTable)
    (source target : Nat) : Except MappingMutationError (List ProxyMapRule) :=
  if source ≥ rules.length then .error (ruleNotFound preset table source)
  else if target ≥ rules.length then .error (ruleNotFound preset table target)
  else if source ≠ target then
    match rules[source]? with
    | some rule => .ok ((rules.eraseIdx source).insertIdx target rule)
    | none => .ok rules
  else .ok rules

def moveRule (settings : AppSettings) (preset : Text) (table : ProxyRuleTable)
    (source target : Nat) : Except MappingMutationError (AppSettings × MappingMutationResult) := do
  let preset ← normalizedName preset
  let proxy ← requireProxy settings (.rule preset table source)
  let presetIndex ← requirePresetIndex proxy preset
  let moved ← moveItem ((proxy.presetAt presetIndex).table table).rules preset table source target
  pure (settings.withProxy (proxy.modifyRules presetIndex table fun _ => moved),
    mutationResult (.rule preset table target) (source ≠ target))

def setRuleEnabled (settings : AppSettings) (preset : Text) (table : ProxyRuleTable)
    (index : Nat) (enabled : Bool) :
    Except MappingMutationError (AppSettings × MappingMutationResult) := do
  let preset ← normalizedName preset
  let proxy ← requireProxy settings (.rule preset table index)
  let presetIndex ← requirePresetIndex proxy preset
  match ((proxy.presetAt presetIndex).table table).rules[index]? with
  | none => throw (ruleNotFound preset table index)
  | some rule =>
    pure (settings.withProxy (proxy.modifyRules presetIndex table fun rules =>
      rules.set index { rule with enable := enabled }),
      mutationResult (.rule preset table index) (rule.enable ≠ enabled))

/-! ## Operations on presets -/

def createPreset (settings : AppSettings) (name : Text) (initial : Option ProxyPresetSettings) :
    Except MappingMutationError (AppSettings × MappingMutationResult) := do
  let name ← normalizedName name
  if settings.proxy.any fun proxy => (findMappingPresetIndex proxy name).isSome then
    throw (duplicateNameError name)
  let preset := { initial.getD {} with name }
  validateInitialPreset env preset
  let proxy := settings.proxy.getD {}
  pure (settings.withProxy { proxy with presets := proxy.presets ++ [preset] },
    mutationResult (.preset name) true)

def renamePreset (settings : AppSettings) (name newName : Text) :
    Except MappingMutationError (AppSettings × MappingMutationResult) := do
  let name ← normalizedName name
  let newName ← normalizedName newName
  let proxy ← requireProxy settings (.preset name)
  let index ← requirePresetIndex proxy name
  if name ≠ newName && proxy.presets.zipIdx.any fun (preset, candidate) =>
      candidate ≠ index && preset.name.trim = newName then
    throw (duplicateNameError newName)
  let activeMatches := proxy.activePreset.map Text.trim = some name
  let changed := (proxy.presetAt index).name ≠ newName ||
    (activeMatches && proxy.activePreset ≠ some newName)
  pure (settings.withProxy
    { proxy with
      presets := proxy.presets.modify index fun preset => { preset with name := newName }
      activePreset := if activeMatches then some newName else proxy.activePreset },
    mutationResult (.presetName newName) changed)

def deletePreset (settings : AppSettings) (name : Text) :
    Except MappingMutationError (AppSettings × MappingMutationResult) := do
  let name ← normalizedName name
  let proxy ← requireProxy settings (.preset name)
  let index ← requirePresetIndex proxy name
  pure (settings.withProxy
    { proxy with
      presets := proxy.presets.eraseIdx index
      activePreset :=
        if proxy.activePreset.map Text.trim = some name then none else proxy.activePreset },
    mutationResult (.preset name) true)

def setActivePreset (settings : AppSettings) (name : Option Text) :
    Except MappingMutationError (AppSettings × MappingMutationResult) := do
  let proxy ← requireProxy settings .activePreset
  let next ←
    match name with
    | some name => do
        let name ← normalizedName name
        let _ ← requirePresetIndex proxy name
        pure (some name)
    | none => pure none
  pure (settings.withProxy { proxy with activePreset := next },
    mutationResult .activePreset (proxy.activePreset ≠ next))

def setGlobalEnabled (settings : AppSettings) (enabled : Bool) :
    Except MappingMutationError (AppSettings × MappingMutationResult) := do
  let proxy ← requireProxy settings .proxy
  pure (settings.withProxy { proxy with enable := enabled },
    mutationResult .proxy (proxy.enable ≠ enabled))

def setTableEnabled (settings : AppSettings) (preset : Text) (table : ProxyRuleTable)
    (enabled : Bool) : Except MappingMutationError (AppSettings × MappingMutationResult) := do
  let preset ← normalizedName preset
  let proxy ← requireProxy settings (.table preset table)
  let index ← requirePresetIndex proxy preset
  pure (settings.withProxy
    (proxy.modifyTable index table fun settings => { settings with enable := enabled }),
    mutationResult (.table preset table) (((proxy.presetAt index).table table).enable ≠ enabled))

/-! ## Application -/

/-- A successful operation on one rule always counts as a change. -/
def alwaysChanged (result : Except MappingMutationError (AppSettings × MappingObjectRef)) :
    Except MappingMutationError (AppSettings × MappingMutationResult) :=
  result.map fun (settings, affected) => (settings, mutationResult affected true)

def applyToCandidate (settings : AppSettings) :
    MappingMutation → Except MappingMutationError (AppSettings × MappingMutationResult)
  | .createPreset name initial => createPreset env settings name initial
  | .renamePreset name newName => renamePreset settings name newName
  | .deletePreset name => deletePreset settings name
  | .setActivePreset name => setActivePreset settings name
  | .setGlobalEnabled enabled => setGlobalEnabled settings enabled
  | .setTableEnabled preset table enabled => setTableEnabled settings preset table enabled
  | .appendRemoteRule preset rule => alwaysChanged (insertRemoteRule env settings preset none rule)
  | .insertRemoteRule preset index rule =>
    alwaysChanged (insertRemoteRule env settings preset (some index) rule)
  | .appendLocalRule preset rule => alwaysChanged (insertLocalRule env settings preset none rule)
  | .insertLocalRule preset index rule =>
    alwaysChanged (insertLocalRule env settings preset (some index) rule)
  | .updateRemoteRule preset index source target =>
    updateRemoteRule env settings preset index source target
  | .updateLocalRule preset index source target =>
    updateLocalRule env settings preset index source target
  | .deleteRule preset table index => alwaysChanged (deleteRule settings preset table index)
  | .moveRule preset table source target => moveRule settings preset table source target
  | .setRuleEnabled preset table index enabled => setRuleEnabled settings preset table index enabled

/-- `apply_mapping_mutation`: the settings behind the reference, and the result. -/
def applyMappingMutation (settings : AppSettings) (mutation : MappingMutation) :
    AppSettings × Except MappingMutationError MappingMutationResult :=
  match applyToCandidate env settings mutation with
  | .error error => (settings, .error error)
  | .ok (candidate, result) =>
    (if result.effect = .changed then candidate else settings, .ok result)

def applyMappingMutationOwned (settings : AppSettings) (mutation : MappingMutation) :
    Except MappingMutationError (AppSettings × MappingMutationResult) :=
  applyToCandidate env settings mutation

end Apply

end Fluxcope.Settings
