import Fluxcope.Control.Audit
import Fluxcope.Instance.RunId
import Fluxcope.Library.SerdeJson
import Fluxcope.Settings.Preview
/-!
# Mapping operations on the wire

The sender writes the settings types, which leave out defaults; the receiver reads types of
its own, which deny unknown fields, and converts them.  Only the operations that carry
mapping settings are here.  The text of a rejection is that of the JSON library.
-/

namespace Fluxcope.ControlRpc

open Fluxcope.Library Fluxcope.Library.JsonValue Fluxcope.Control Fluxcope.Settings Fluxcope.Instance

def rpcVersion : Nat := 2

def maxIdentifierBytes : Nat := 128

/-- Thirty seconds, in milliseconds. -/
def ordinaryMaxDeadline : Nat := 30 * 1000

/-! ## The sender -/

/-- `ControlOperation`, as far as it carries mapping settings. -/
inductive MappingOperation
  | validateMappingSettings (proxy : ProxySettings)
  | explainMapping (url : Text) (proposedProxy : Option ProxySettings)
  | previewMappingMutation (expectedRevision : Nat) (mutation : MappingMutation) (urls : List Text)
  | mutateMapping (expectedRevision : Nat) (mutation : MappingMutation)
  deriving DecidableEq, Repr

/-- `ControlOperationKind`, for these operations. -/
inductive MappingOperationKind
  | validateMappingSettings
  | explainMapping
  | previewMappingMutation
  | mutateMapping
  deriving DecidableEq, Repr

def MappingOperation.kind : MappingOperation → MappingOperationKind
  | .validateMappingSettings _ => .validateMappingSettings
  | .explainMapping _ _ => .explainMapping
  | .previewMappingMutation _ _ _ => .previewMappingMutation
  | .mutateMapping _ _ => .mutateMapping

def serializeRule (rule : ProxyMapRule) : JsonValue :=
  .object (("from", .string rule.source) :: ("to", .string rule.target) ::
    fieldUnless rule.enable "enable" (.bool rule.enable))

def serializeMap (settings : ProxyMapSettings) : JsonValue :=
  .object (fieldUnless settings.enable "enable" (.bool settings.enable) ++
    fieldUnless settings.rules.isEmpty "rules" (writeList serializeRule settings.rules))

def serializePreset (preset : ProxyPresetSettings) : JsonValue :=
  .object (fieldUnless preset.name.isEmpty "name" (.string preset.name) ++
    (fieldUnless (preset.mapRemote = {}) "map_remote" (serializeMap preset.mapRemote) ++
      fieldUnless (preset.mapLocal = {}) "map_local" (serializeMap preset.mapLocal)))

def serializeProxy (proxy : ProxySettings) : JsonValue :=
  .object (fieldUnless proxy.enable "enable" (.bool proxy.enable) ++
    (fieldUnless proxy.activePreset.isNone "active_preset"
        (writeOption .string proxy.activePreset) ++
      fieldUnless proxy.presets.isEmpty "presets" (writeList serializePreset proxy.presets)))

def serializeTable (table : ProxyRuleTable) : JsonValue :=
  match table with
  | .mapRemote => .string "remote".toList
  | .mapLocal => .string "local".toList

def serializeIndex (index : Nat) : JsonValue := .number index

/-- A variant with its tag before its fields. -/
def tagged (kind : String) (fields : Fields) : JsonValue :=
  .object (("kind", .string kind.toList) :: fields)

def serializeMutation : MappingMutation → JsonValue
  | .createPreset name initial =>
    tagged "create_preset"
      [("name", .string name), ("initial", writeOption serializePreset initial)]
  | .renamePreset name newName =>
    tagged "rename_preset" [("name", .string name), ("new_name", .string newName)]
  | .deletePreset name => tagged "delete_preset" [("name", .string name)]
  | .setActivePreset name => tagged "set_active_preset" [("name", writeOption .string name)]
  | .setGlobalEnabled enabled => tagged "set_global_enabled" [("enabled", .bool enabled)]
  | .setTableEnabled preset table enabled =>
    tagged "set_table_enabled"
      [("preset", .string preset), ("table", serializeTable table), ("enabled", .bool enabled)]
  | .appendRemoteRule preset rule =>
    tagged "append_remote_rule" [("preset", .string preset), ("rule", serializeRule rule)]
  | .insertRemoteRule preset index rule =>
    tagged "insert_remote_rule"
      [("preset", .string preset), ("index", serializeIndex index), ("rule", serializeRule rule)]
  | .updateRemoteRule preset index source target =>
    tagged "update_remote_rule"
      [("preset", .string preset), ("index", serializeIndex index), ("from", .string source),
        ("to", .string target)]
  | .appendLocalRule preset rule =>
    tagged "append_local_rule" [("preset", .string preset), ("rule", serializeRule rule)]
  | .insertLocalRule preset index rule =>
    tagged "insert_local_rule"
      [("preset", .string preset), ("index", serializeIndex index), ("rule", serializeRule rule)]
  | .updateLocalRule preset index source target =>
    tagged "update_local_rule"
      [("preset", .string preset), ("index", serializeIndex index), ("from", .string source),
        ("to", .string target)]
  | .deleteRule preset table index =>
    tagged "delete_rule"
      [("preset", .string preset), ("table", serializeTable table),
        ("index", serializeIndex index)]
  | .moveRule preset table source target =>
    tagged "move_rule"
      [("preset", .string preset), ("table", serializeTable table),
        ("from", serializeIndex source), ("to", serializeIndex target)]
  | .setRuleEnabled preset table index enabled =>
    tagged "set_rule_enabled"
      [("preset", .string preset), ("table", serializeTable table),
        ("index", serializeIndex index), ("enabled", .bool enabled)]

/-- `ControlOperationArguments` -/
def MappingOperation.arguments : MappingOperation → JsonValue
  | .validateMappingSettings proxy => .object [("proxy", serializeProxy proxy)]
  | .explainMapping url proposedProxy =>
    .object [("url", .string url), ("proposed_proxy", writeOption serializeProxy proposedProxy)]
  | .previewMappingMutation expectedRevision mutation urls =>
    .object [("expected_revision", .number expectedRevision),
      ("mutation", serializeMutation mutation), ("urls", writeList .string urls)]
  | .mutateMapping expectedRevision mutation =>
    .object [("expected_revision", .number expectedRevision),
      ("mutation", serializeMutation mutation)]

/-! ## The receiver -/

structure StrictMappingRule where
  source : Text
  target : Text
  enable : Bool

structure StrictMappingRuleTable where
  enable : Bool := true
  rules : List StrictMappingRule := []

structure StrictProxyPresetSettings where
  name : Text := []
  mapRemote : StrictMappingRuleTable := {}
  mapLocal : StrictMappingRuleTable := {}

structure StrictProxySettings where
  enable : Bool := true
  activePreset : Option Text := none
  presets : List StrictProxyPresetSettings := []

inductive StrictMappingMutation
  | createPreset (name : Text) (initial : Option StrictProxyPresetSettings)
  | renamePreset (name newName : Text)
  | deletePreset (name : Text)
  | setActivePreset (name : Option Text)
  | setGlobalEnabled (enabled : Bool)
  | setTableEnabled (preset : Text) (table : ProxyRuleTable) (enabled : Bool)
  | appendRemoteRule (preset : Text) (rule : StrictMappingRule)
  | insertRemoteRule (preset : Text) (index : Nat) (rule : StrictMappingRule)
  | updateRemoteRule (preset : Text) (index : Nat) (source target : Text)
  | appendLocalRule (preset : Text) (rule : StrictMappingRule)
  | insertLocalRule (preset : Text) (index : Nat) (rule : StrictMappingRule)
  | updateLocalRule (preset : Text) (index : Nat) (source target : Text)
  | deleteRule (preset : Text) (table : ProxyRuleTable) (index : Nat)
  | moveRule (preset : Text) (table : ProxyRuleTable) (source target : Nat)
  | setRuleEnabled (preset : Text) (table : ProxyRuleTable) (index : Nat) (enabled : Bool)

def StrictMappingRule.read : JsonValue → Option StrictMappingRule :=
  readStruct do
    let source ← field "from" readString
    let target ← field "to" readString
    let enable ← fieldOr true "enable" readBool
    return { source, target, enable }

def StrictMappingRuleTable.read : JsonValue → Option StrictMappingRuleTable :=
  readStruct do
    let enable ← fieldOr true "enable" readBool
    let rules ← fieldOr [] "rules" (readList StrictMappingRule.read)
    return { enable, rules }

def StrictProxyPresetSettings.read : JsonValue → Option StrictProxyPresetSettings :=
  readStruct do
    let name ← fieldOr [] "name" readString
    let mapRemote ← fieldOr {} "map_remote" StrictMappingRuleTable.read
    let mapLocal ← fieldOr {} "map_local" StrictMappingRuleTable.read
    return { name, mapRemote, mapLocal }

def StrictProxySettings.read : JsonValue → Option StrictProxySettings :=
  readStruct do
    let enable ← fieldOr true "enable" readBool
    let activePreset ← fieldOption "active_preset" readString
    let presets ← fieldOr [] "presets" (readList StrictProxyPresetSettings.read)
    return { enable, activePreset, presets }

def readTable : JsonValue → Option ProxyRuleTable
  | .string name =>
    if name = "remote".toList then some .mapRemote
    else if name = "local".toList then some .mapLocal
    else none
  | _ => none

/-- The readers of the variants' fields. -/
def StrictMappingMutation.variants : List (Text × FieldReader StrictMappingMutation) :=
  [("create_preset".toList, do
      let name ← field "name" readString
      let initial ← fieldOption "initial" StrictProxyPresetSettings.read
      return .createPreset name initial),
    ("rename_preset".toList, do
      let name ← field "name" readString
      let newName ← field "new_name" readString
      return .renamePreset name newName),
    ("delete_preset".toList, do
      let name ← field "name" readString
      return .deletePreset name),
    ("set_active_preset".toList, do
      let name ← fieldOption "name" readString
      return .setActivePreset name),
    ("set_global_enabled".toList, do
      let enabled ← field "enabled" readBool
      return .setGlobalEnabled enabled),
    ("set_table_enabled".toList, do
      let preset ← field "preset" readString
      let table ← field "table" readTable
      let enabled ← field "enabled" readBool
      return .setTableEnabled preset table enabled),
    ("append_remote_rule".toList, do
      let preset ← field "preset" readString
      let rule ← field "rule" StrictMappingRule.read
      return .appendRemoteRule preset rule),
    ("insert_remote_rule".toList, do
      let preset ← field "preset" readString
      let index ← field "index" readWord
      let rule ← field "rule" StrictMappingRule.read
      return .insertRemoteRule preset index rule),
    ("update_remote_rule".toList, do
      let preset ← field "preset" readString
      let index ← field "index" readWord
      let source ← field "from" readString
      let target ← field "to" readString
      return .updateRemoteRule preset index source target),
    ("append_local_rule".toList, do
      let preset ← field "preset" readString
      let rule ← field "rule" StrictMappingRule.read
      return .appendLocalRule preset rule),
    ("insert_local_rule".toList, do
      let preset ← field "preset" readString
      let index ← field "index" readWord
      let rule ← field "rule" StrictMappingRule.read
      return .insertLocalRule preset index rule),
    ("update_local_rule".toList, do
      let preset ← field "preset" readString
      let index ← field "index" readWord
      let source ← field "from" readString
      let target ← field "to" readString
      return .updateLocalRule preset index source target),
    ("delete_rule".toList, do
      let preset ← field "preset" readString
      let table ← field "table" readTable
      let index ← field "index" readWord
      return .deleteRule preset table index),
    ("move_rule".toList, do
      let preset ← field "preset" readString
      let table ← field "table" readTable
      let source ← field "from" readWord
      let target ← field "to" readWord
      return .moveRule preset table source target),
    ("set_rule_enabled".toList, do
      let preset ← field "preset" readString
      let table ← field "table" readTable
      let index ← field "index" readWord
      let enabled ← field "enabled" readBool
      return .setRuleEnabled preset table index enabled)]

def StrictMappingMutation.read : JsonValue → Option StrictMappingMutation :=
  readTagged "kind" fun kind => variants.lookup kind

/-! ## Conversions -/

def StrictMappingRule.into (rule : StrictMappingRule) : ProxyMapRule :=
  { source := rule.source, target := rule.target, enable := rule.enable }

def StrictMappingRuleTable.into (table : StrictMappingRuleTable) : ProxyMapSettings :=
  { enable := table.enable, rules := table.rules.map StrictMappingRule.into }

def StrictProxyPresetSettings.into (preset : StrictProxyPresetSettings) : ProxyPresetSettings :=
  { name := preset.name, mapRemote := preset.mapRemote.into, mapLocal := preset.mapLocal.into }

def StrictProxySettings.into (proxy : StrictProxySettings) : ProxySettings :=
  { enable := proxy.enable
    activePreset := proxy.activePreset
    presets := proxy.presets.map StrictProxyPresetSettings.into }

def StrictMappingMutation.into : StrictMappingMutation → MappingMutation
  | .createPreset name initial => .createPreset name (initial.map StrictProxyPresetSettings.into)
  | .renamePreset name newName => .renamePreset name newName
  | .deletePreset name => .deletePreset name
  | .setActivePreset name => .setActivePreset name
  | .setGlobalEnabled enabled => .setGlobalEnabled enabled
  | .setTableEnabled preset table enabled => .setTableEnabled preset table enabled
  | .appendRemoteRule preset rule => .appendRemoteRule preset rule.into
  | .insertRemoteRule preset index rule => .insertRemoteRule preset index rule.into
  | .updateRemoteRule preset index source target => .updateRemoteRule preset index source target
  | .appendLocalRule preset rule => .appendLocalRule preset rule.into
  | .insertLocalRule preset index rule => .insertLocalRule preset index rule.into
  | .updateLocalRule preset index source target => .updateLocalRule preset index source target
  | .deleteRule preset table index => .deleteRule preset table index
  | .moveRule preset table source target => .moveRule preset table source target
  | .setRuleEnabled preset table index enabled => .setRuleEnabled preset table index enabled

/-! ## Envelopes -/

structure RequestEnvelope where
  protocolVersion : Nat
  requestId : Text
  runId : RunId
  deadlineMs : Nat
  client : DeclaredClient
  operation : MappingOperationKind
  arguments : JsonValue

/-- Times are milliseconds. -/
structure ControlRequest where
  requestId : Text
  runId : RunId
  deadline : Nat
  client : DeclaredClient
  operation : MappingOperation
  deriving DecidableEq, Repr

def validateIdentifier (field : String) (value : Text) : Except ControlError Unit :=
  if value = [] ∨ value.utf8Len > maxIdentifierBytes then
    .error
      { code := .invalidArgument
        message := "private RPC identifier must contain between 1 and 128 UTF-8 bytes"
        retryable := false
        field := some field
        details := [("max_bytes", maxIdentifierBytes)] }
  else .ok ()

def previewUrlError (error : SettingsError) : ControlError :=
  { code := error.code
    message := error.message
    retryable := error.retryable
    details := match error.details with
      | .maximum maximum => [("maximum", maximum)]
      | .urlLength index minimumBytes maximumBytes =>
        [("index", index), ("minimum_bytes", minimumBytes), ("maximum_bytes", maximumBytes)]
      | _ => [] }

namespace RequestEnvelope

def clampedDeadline (envelope : RequestEnvelope) (receivedAt : Nat) : Nat :=
  receivedAt + min envelope.deadlineMs ordinaryMaxDeadline

-- `rejection` is the text of the JSON library's error
variable (rejection : JsonValue → String)

def parseArguments {α : Type} (read : JsonValue → Option α) (arguments : JsonValue) :
    Except ControlError α :=
  match read arguments with
  | some value => .ok value
  | none => .error (.invalidArgument (rejection arguments))

/-- The operation that the arguments are for. -/
def parseOperation (arguments : JsonValue) :
    MappingOperationKind → Except ControlError MappingOperation
  | .validateMappingSettings => do
      let proxy ← parseArguments rejection
        (readStruct (field "proxy" StrictProxySettings.read)) arguments
      .ok (.validateMappingSettings proxy.into)
  | .explainMapping => do
      let (url, proposedProxy) ← parseArguments rejection
        (readStruct do
          let url ← field "url" readString
          let proposedProxy ← fieldOption "proposed_proxy" StrictProxySettings.read
          return (url, proposedProxy)) arguments
      .ok (.explainMapping url (proposedProxy.map StrictProxySettings.into))
  | .previewMappingMutation => do
      let (expectedRevision, mutation, urls) ← parseArguments rejection
        (readStruct do
          let expectedRevision ← field "expected_revision" readWord
          let mutation ← field "mutation" StrictMappingMutation.read
          let urls ← field "urls" (readList readString)
          return (expectedRevision, mutation, urls)) arguments
      (validatePreviewUrls urls).mapError previewUrlError
      .ok (.previewMappingMutation expectedRevision mutation.into urls)
  | .mutateMapping => do
      let (expectedRevision, mutation) ← parseArguments rejection
        (readStruct do
          let expectedRevision ← field "expected_revision" readWord
          let mutation ← field "mutation" StrictMappingMutation.read
          return (expectedRevision, mutation)) arguments
      .ok (.mutateMapping expectedRevision mutation.into)

def validate (envelope : RequestEnvelope) (receivedAt : Nat) :
    Except ControlError ControlRequest := do
  if envelope.protocolVersion ≠ rpcVersion then
    .error
      { code := .rpcVersionMismatch
        message := "private RPC protocol version does not match"
        retryable := false
        details := [("expected", rpcVersion), ("received", envelope.protocolVersion)] }
  else
    validateIdentifier "request_id" envelope.requestId
    validateIdentifier "client.name" envelope.client.name
    validateIdentifier "client.version" envelope.client.version
    let operation ← parseOperation rejection envelope.arguments envelope.operation
    .ok
      { requestId := envelope.requestId
        runId := envelope.runId
        deadline := envelope.clampedDeadline receivedAt
        client := envelope.client
        operation }

end RequestEnvelope

end Fluxcope.ControlRpc
