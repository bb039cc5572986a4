import Fluxcope.ControlRpc.MappingWire
import Fluxcope.Library.Result
/-!
# Mapping operations survive the wire

Every type that the sender writes is read by the receiver as its strict counterpart, and
the conversion of that is the value that was sent.
-/

namespace Fluxcope.ControlRpc

open Fluxcope.Library Fluxcope.Library.JsonValue Fluxcope.Control Fluxcope.Settings

/-! ## What the receiver reads -/

def strictRule (rule : ProxyMapRule) : StrictMappingRule :=
  { source := rule.source, target := rule.target, enable := rule.enable }

def strictTable (settings : ProxyMapSettings) : StrictMappingRuleTable :=
  { enable := settings.enable, rules := settings.rules.map strictRule }

def strictPreset (preset : ProxyPresetSettings) : StrictProxyPresetSettings :=
  { name := preset.name
    mapRemote := strictTable preset.mapRemote
    mapLocal := strictTable preset.mapLocal }

def strictProxy (proxy : ProxySettings) : StrictProxySettings :=
  { enable := proxy.enable
    activePreset := proxy.activePreset
    presets := proxy.presets.map strictPreset }

def strictMutation : MappingMutation → StrictMappingMutation
  | .createPreset name initial => .createPreset name (initial.map strictPreset)
  | .renamePreset name newName => .renamePreset name newName
  | .deletePreset name => .deletePreset name
  | .setActivePreset name => .setActivePreset name
  | .setGlobalEnabled enabled => .setGlobalEnabled enabled
  | .setTableEnabled preset table enabled => .setTableEnabled preset table enabled
  | .appendRemoteRule preset rule => .appendRemoteRule preset (strictRule rule)
  | .insertRemoteRule preset index rule => .insertRemoteRule preset index (strictRule rule)
  | .updateRemoteRule preset index source target => .updateRemoteRule preset index source target
  | .appendLocalRule preset rule => .appendLocalRule preset (strictRule rule)
  | .insertLocalRule preset index rule => .insertLocalRule preset index (strictRule rule)
  | .updateLocalRule preset index source target => .updateLocalRule preset index source target
  | .deleteRule preset table index => .deleteRule preset table index
  | .moveRule preset table source target => .moveRule preset table source target
  | .setRuleEnabled preset table index enabled => .setRuleEnabled preset table index enabled

theorem into_strictTable (settings : ProxyMapSettings) :
    (strictTable settings).into = settings := by
  have hrules : (settings.rules.map strictRule).map StrictMappingRule.into = settings.rules := by
    rw [List.map_map]
    exact List.map_id _
  rw [StrictMappingRuleTable.into, strictTable, hrules]

theorem into_strictPreset (preset : ProxyPresetSettings) : (strictPreset preset).into = preset := by
  rw [StrictProxyPresetSettings.into, strictPreset, into_strictTable, into_strictTable]

theorem into_strictProxy (proxy : ProxySettings) : (strictProxy proxy).into = proxy := by
  have hpresets : (proxy.presets.map strictPreset).map StrictProxyPresetSettings.into =
      proxy.presets := by
    rw [List.map_map]
    exact List.map_id'' into_strictPreset _
  rw [StrictProxySettings.into, strictProxy, hpresets]

theorem into_strictMutation (mutation : MappingMutation) :
    (strictMutation mutation).into = mutation := by
  cases mutation with
  | createPreset name initial =>
    cases initial with
    | none => rfl
    | some preset =>
      rw [strictMutation, Option.map_some, StrictMappingMutation.into, Option.map_some,
        into_strictPreset]
  | _ => rfl

/-! ## Settings -/

theorem read_serializeRule (rule : ProxyMapRule) :
    StrictMappingRule.read (serializeRule rule) = some (strictRule rule) := by
  refine readAll_eq ?_
  refine bind_reader (field_cons (readString_string _) _) ?_
  refine bind_reader (field_cons (readString_string _) _) ?_
  exact bind_reader (fieldOr_fieldUnless_nil (fun h => h) (readBool_bool _)) rfl

theorem read_serializeMap (settings : ProxyMapSettings) :
    StrictMappingRuleTable.read (serializeMap settings) = some (strictTable settings) := by
  have hrules : settings.rules.isEmpty = true → settings.rules.map strictRule = [] := by
    intro h
    rw [List.isEmpty_iff.1 h, List.map_nil]
  refine readAll_eq ?_
  refine bind_reader (fieldOr_fieldUnless (fun h => h) (readBool_bool _)
    (absent_fieldUnless (by decide) _ _)) ?_
  exact bind_reader (fieldOr_fieldUnless_nil hrules
    (readList_write fun rule _ => read_serializeRule rule)) rfl

theorem read_serializePreset (preset : ProxyPresetSettings) :
    StrictProxyPresetSettings.read (serializePreset preset) = some (strictPreset preset) := by
  have hdefault {settings : ProxyMapSettings} (h : decide (settings = {}) = true) :
      strictTable settings = {} := by
    rw [of_decide_eq_true h]
    rfl
  refine readAll_eq ?_
  refine bind_reader (fieldOr_fieldUnless List.isEmpty_iff.1 (readString_string _)
    (absent_append (absent_fieldUnless (by decide) _ _) (absent_fieldUnless (by decide) _ _))) ?_
  refine bind_reader (fieldOr_fieldUnless hdefault (read_serializeMap _)
    (absent_fieldUnless (by decide) _ _)) ?_
  exact bind_reader (fieldOr_fieldUnless_nil hdefault (read_serializeMap _)) rfl

theorem read_writeOption_string (value : Option Text) :
    readOption readString (writeOption .string value) = some value := by
  have h := @readOption_write Text Text readString .string id value
    (fun x _ => readString_string x) (fun x h => by cases h)
  rwa [Option.map_id] at h

theorem read_serializeProxy (proxy : ProxySettings) :
    StrictProxySettings.read (serializeProxy proxy) = some (strictProxy proxy) := by
  have hpresets : proxy.presets.isEmpty = true → proxy.presets.map strictPreset = [] := by
    intro h
    rw [List.isEmpty_iff.1 h, List.map_nil]
  refine readAll_eq ?_
  refine bind_reader (fieldOr_fieldUnless (fun h => h) (readBool_bool _)
    (absent_append (absent_fieldUnless (by decide) _ _) (absent_fieldUnless (by decide) _ _))) ?_
  refine bind_reader (fieldOr_fieldUnless Option.isNone_iff_eq_none.1
    (read_writeOption_string proxy.activePreset) (absent_fieldUnless (by decide) _ _)) ?_
  exact bind_reader (fieldOr_fieldUnless_nil hpresets
    (readList_write fun preset _ => read_serializePreset preset)) rfl

/-! ## Mutations -/

/-- The indices of the mutation are 64-bit words. -/
def FitsWords : MappingMutation → Prop
  | .insertRemoteRule _ index _ | .updateRemoteRule _ index _ _ | .insertLocalRule _ index _
  | .updateLocalRule _ index _ _ | .deleteRule _ _ index | .setRuleEnabled _ _ index _ =>
    index ≤ wordMax
  | .moveRule _ _ source target => source ≤ wordMax ∧ target ≤ wordMax
  | _ => True

theorem readTable_serializeTable (table : ProxyRuleTable) :
    readTable (serializeTable table) = some table := by
  cases table <;> rfl

theorem read_serializeIndex {index : Nat} (h : index ≤ wordMax) :
    readWord (serializeIndex index) = some index := readWord_number h

theorem read_serializeMutation {mutation : MappingMutation} (h : FitsWords mutation) :
    StrictMappingMutation.read (serializeMutation mutation) = some (strictMutation mutation) := by
  cases mutation with
  | createPreset name initial =>
    refine readTagged_cons rfl ?_
    refine bind_reader (field_cons (readString_string _) _) ?_
    refine bind_reader (fieldOr_cons ?_ _) rfl
    exact readOption_write (fun preset _ => read_serializePreset preset)
      (fun preset h => by cases h)
  | renamePreset name newName =>
    refine readTagged_cons rfl ?_
    refine bind_reader (field_cons (readString_string _) _) ?_
    exact bind_reader (field_cons (readString_string _) _) rfl
  | deletePreset name =>
    refine readTagged_cons rfl ?_
    exact bind_reader (field_cons (readString_string _) _) rfl
  | setActivePreset name =>
    refine readTagged_cons rfl ?_
    exact bind_reader (fieldOr_cons (read_writeOption_string name) _) rfl
  | setGlobalEnabled enabled =>
    refine readTagged_cons rfl ?_
    exact bind_reader (field_cons (readBool_bool _) _) rfl
  | setTableEnabled preset table enabled =>
    refine readTagged_cons rfl ?_
    refine bind_reader (field_cons (readString_string _) _) ?_
    refine bind_reader (field_cons (readTable_serializeTable _) _) ?_
    exact bind_reader (field_cons (readBool_bool _) _) rfl
  | appendRemoteRule preset rule =>
    refine readTagged_cons rfl ?_
    refine bind_reader (field_cons (readString_string _) _) ?_
    exact bind_reader (field_cons (read_serializeRule _) _) rfl
  | insertRemoteRule preset index rule =>
    refine readTagged_cons rfl ?_
    refine bind_reader (field_cons (readString_string _) _) ?_
    refine bind_reader (field_cons (read_serializeIndex h) _) ?_
    exact bind_reader (field_cons (read_serializeRule _) _) rfl
  | updateRemoteRule preset index source target =>
    refine readTagged_cons rfl ?_
    refine bind_reader (field_cons (readString_string _) _) ?_
    refine bind_reader (field_cons (read_serializeIndex h) _) ?_
    refine bind_reader (field_cons (readString_string _) _) ?_
    exact bind_reader (field_cons (readString_string _) _) rfl
  | appendLocalRule preset rule =>
    refine readTagged_cons rfl ?_
    refine bind_reader (field_cons (readString_string _) _) ?_
    exact bind_reader (field_cons (read_serializeRule _) _) rfl
  | insertLocalRule preset index rule =>
    refine readTagged_cons rfl ?_
    refine bind_reader (field_cons (readString_string _) _) ?_
    refine bind_reader (field_cons (read_serializeIndex h) _) ?_
    exact bind_reader (field_cons (read_serializeRule _) _) rfl
  | updateLocalRule preset index source target =>
    refine readTagged_cons rfl ?_
    refine bind_reader (field_cons (readString_string _) _) ?_
    refine bind_reader (field_cons (read_serializeIndex h) _) ?_
    refine bind_reader (field_cons (readString_string _) _) ?_
    exact bind_reader (field_cons (readString_string _) _) rfl
  | deleteRule preset table index =>
    refine readTagged_cons rfl ?_
    refine bind_reader (field_cons (readString_string _) _) ?_
    refine bind_reader (field_cons (readTable_serializeTable _) _) ?_
    exact bind_reader (field_cons (read_serializeIndex h) _) rfl
  | moveRule preset table source target =>
    refine readTagged_cons rfl ?_
    refine bind_reader (field_cons (readString_string _) _) ?_
    refine bind_reader (field_cons (readTable_serializeTable _) _) ?_
    refine bind_reader (field_cons (read_serializeIndex h.1) _) ?_
    exact bind_reader (field_cons (read_serializeIndex h.2) _) rfl
  | setRuleEnabled preset table index enabled =>
    refine readTagged_cons rfl ?_
    refine bind_reader (field_cons (readString_string _) _) ?_
    refine bind_reader (field_cons (readTable_serializeTable _) _) ?_
    refine bind_reader (field_cons (read_serializeIndex h) _) ?_
    exact bind_reader (field_cons (readBool_bool _) _) rfl

/-! ## Operations -/

/-- The numbers of the operation are 64-bit words, and the URLs of a preview are valid. -/
def Sendable : MappingOperation → Prop
  | .validateMappingSettings _ | .explainMapping _ _ => True
  | .previewMappingMutation expectedRevision mutation urls =>
    expectedRevision ≤ wordMax ∧ FitsWords mutation ∧ validatePreviewUrls urls = .ok ()
  | .mutateMapping expectedRevision mutation => expectedRevision ≤ wordMax ∧ FitsWords mutation

variable (rejection : JsonValue → String)

theorem parseArguments_ok {α : Type} {read : JsonValue → Option α} {arguments : JsonValue} {x : α}
    (h : read arguments = some x) :
    RequestEnvelope.parseArguments rejection read arguments = .ok x := by
  rw [RequestEnvelope.parseArguments, h]

/-- The receiver has the operation that was sent. -/
theorem parseOperation_arguments {operation : MappingOperation} (h : Sendable operation) :
    RequestEnvelope.parseOperation rejection operation.arguments operation.kind =
      .ok operation := by
  cases operation with
  | validateMappingSettings proxy =>
    refine bind_eq_ok.2 ⟨strictProxy proxy, parseArguments_ok rejection ?_, ?_⟩
    · exact readAll_eq (field_cons (read_serializeProxy proxy) _)
    · rw [into_strictProxy]
  | explainMapping url proposedProxy =>
    refine bind_eq_ok.2 ⟨(url, proposedProxy.map strictProxy), parseArguments_ok rejection ?_, ?_⟩
    · refine readAll_eq ?_
      refine bind_reader (field_cons (readString_string _) _) ?_
      refine bind_reader (fieldOr_cons ?_ _) rfl
      exact readOption_write (fun proxy _ => read_serializeProxy proxy)
        (fun proxy h => by cases h)
    · dsimp only
      rw [Option.map_map]
      have hproxy : StrictProxySettings.into ∘ strictProxy = id := funext into_strictProxy
      rw [hproxy, Option.map_id, id]
  | previewMappingMutation expectedRevision mutation urls =>
    obtain ⟨hrevision, hwords, hurls⟩ := h
    refine bind_eq_ok.2
      ⟨(expectedRevision, strictMutation mutation, urls), parseArguments_ok rejection ?_, ?_⟩
    · refine readAll_eq ?_
      refine bind_reader (field_cons (readWord_number hrevision) _) ?_
      refine bind_reader (field_cons (read_serializeMutation hwords) _) ?_
      refine bind_reader (field_cons ?_ _) rfl
      have hread := @readList_write Text Text readString .string id urls
        fun url _ => readString_string url
      rwa [List.map_id] at hread
    · dsimp only
      rw [hurls, into_strictMutation]
      rfl
  | mutateMapping expectedRevision mutation =>
    obtain ⟨hrevision, hwords⟩ := h
    refine bind_eq_ok.2
      ⟨(expectedRevision, strictMutation mutation), parseArguments_ok rejection ?_, ?_⟩
    · refine readAll_eq ?_
      refine bind_reader (field_cons (readWord_number hrevision) _) ?_
      exact bind_reader (field_cons (read_serializeMutation hwords) _) rfl
    · dsimp only
      rw [into_strictMutation]

/-- A request with valid identifiers is accepted with the operation that its sender wrote. -/
theorem validate_arguments {envelope : RequestEnvelope} {operation : MappingOperation}
    (hversion : envelope.protocolVersion = rpcVersion)
    (hrequest : validateIdentifier "request_id" envelope.requestId = .ok ())
    (hname : validateIdentifier "client.name" envelope.client.name = .ok ())
    (hclient : validateIdentifier "client.version" envelope.client.version = .ok ())
    (hkind : envelope.operation = operation.kind)
    (harguments : envelope.arguments = operation.arguments) (hsendable : Sendable operation)
    (receivedAt : Nat) :
    envelope.validate rejection receivedAt =
      .ok
        { requestId := envelope.requestId
          runId := envelope.runId
          deadline := envelope.clampedDeadline receivedAt
          client := envelope.client
          operation } := by
  rw [RequestEnvelope.validate, if_neg (not_not_intro hversion), hrequest, hname, hclient, hkind,
    harguments, parseOperation_arguments rejection hsendable]
  rfl

/-- A preset with a disabled rule, and defaults beside it. -/
def sampleMutation : MappingMutation :=
  .createPreset ['p']
    (some
      { mapLocal :=
          { rules := [{ source := ['a'], target := ['b'], enable := false }, { source := ['c'] }] } })

def sampleOperation : MappingOperation := .previewMappingMutation 7 sampleMutation [['u']]

def sampleEnvelope : RequestEnvelope where
  protocolVersion := rpcVersion
  requestId := ['r']
  runId := .generate (List.replicate 16 0) rfl
  deadlineMs := 5
  client := { name := ['c'], version := ['1'] }
  operation := .previewMappingMutation
  arguments := sampleOperation.arguments

theorem validate_arguments_sample :
    sampleEnvelope.validate (fun _ => "") 100 =
      .ok
        { requestId := ['r']
          runId := .generate (List.replicate 16 0) rfl
          deadline := sampleEnvelope.clampedDeadline 100
          client := { name := ['c'], version := ['1'] }
          operation := sampleOperation } :=
  @validate_arguments (fun _ => "") sampleEnvelope sampleOperation rfl rfl rfl rfl rfl rfl
    ⟨by decide, trivial, rfl⟩ 100

end Fluxcope.ControlRpc
