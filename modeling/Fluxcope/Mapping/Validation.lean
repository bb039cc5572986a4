import Fluxcope.Mapping.Engine
/-!
# Validation of the proxy settings

All presets and all rules are checked, also those that are off.  The collector
keeps the first diagnostics up to a limit and counts all of them.
-/

namespace Fluxcope.Mapping

open Fluxcope.Library Fluxcope.Settings

structure DiagnosticCollector where
  diagnostics : List MappingDiagnostic
  total : Nat
  limit : Nat
  deriving DecidableEq, Repr

namespace DiagnosticCollector

def new (limit : Nat) : DiagnosticCollector := { diagnostics := [], total := 0, limit }

def push (collector : DiagnosticCollector) (diagnostic : MappingDiagnostic) :
    DiagnosticCollector :=
  { collector with
    total := collector.total + 1
    diagnostics :=
      if collector.diagnostics.length < collector.limit then
        collector.diagnostics ++ [diagnostic]
      else collector.diagnostics }

def finish (collector : DiagnosticCollector) : List MappingDiagnostic × Nat :=
  (collector.diagnostics, collector.total)

end DiagnosticCollector

section Validate

variable (env : Environment)

/-- Whether the target of a rule of this table can be parsed. -/
def checkTarget (table : MappingTable) (target : Text) : Except MappingValueError Unit :=
  match table with
  | .mapRemote => (parseRemoteTarget env target).map fun _ => ()
  | .mapLocal => (expandHomePath env target.trim).map fun _ => ()

def validateRuleValues (table : MappingTable) (source target : Text) :
    List (MappingField × String) :=
  (match parseRuleUrl env source with
    | .error error => [(.source, s!"mapping source {error}")]
    | .ok _ => []) ++
  match checkTarget env table target with
  | .error error => [(.target, s!"mapping target {error}")]
  | .ok _ => []

/-- One turn of the loop over the rules of a table. -/
def validateRule (presetIndex : Nat) (table : MappingTable) (collector : DiagnosticCollector)
    (entry : ProxyMapRule × Nat) : DiagnosticCollector :=
  let (rule, ruleIndex) := entry
  let collector :=
    match parseRuleUrl env rule.source with
    | .error error =>
      collector.push (ruleDiagnostic .error .invalidRuleSource presetIndex table ruleIndex
        .source s!"mapping source {error}")
    | .ok _ => collector
  match checkTarget env table rule.target with
  | .error error =>
    collector.push (ruleDiagnostic .error .invalidRuleTarget presetIndex table ruleIndex
      .target s!"mapping target {error}")
  | .ok _ => collector

def validateRules (presetIndex : Nat) (table : MappingTable) (rules : List ProxyMapRule)
    (collector : DiagnosticCollector) : DiagnosticCollector :=
  rules.zipIdx.foldl (validateRule env presetIndex table) collector

/-- One turn of the loop over the presets, with the names seen before. -/
def validatePreset (state : List Text × DiagnosticCollector)
    (entry : ProxyPresetSettings × Nat) : List Text × DiagnosticCollector :=
  let (names, collector) := state
  let (preset, presetIndex) := entry
  let name := preset.name.trim
  let (names, collector) :=
    if name = [] then
      (names, collector.push
        { severity := .error
          code := .emptyPresetName
          message := "proxy preset names cannot be empty" })
    else if name ∈ names then
      let shown := String.ofList preset.name
      (names, collector.push
        { severity := .error
          code := .duplicatePresetName
          message := s!"duplicate proxy preset name: {shown}" })
    else (name :: names, collector)
  let collector := validateRules env presetIndex .mapRemote preset.mapRemote.rules collector
  (names, validateRules env presetIndex .mapLocal preset.mapLocal.rules collector)

def validateProxySettingsCapped (proxy : ProxySettings) (limit : Nat) :
    List MappingDiagnostic × Nat :=
  let (_, collector) := proxy.presets.zipIdx.foldl (validatePreset env) ([], .new limit)
  let collector :=
    match activePresetDiagnostic proxy with
    | some diagnostic => collector.push { diagnostic with severity := .error }
    | none => collector
  collector.finish

end Validate

end Fluxcope.Mapping
