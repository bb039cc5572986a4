import Mathlib.Data.List.AList
import Fluxcope.Settings.AppSettings
/-!
# The mapping engine

The enabled rules of the active preset are compiled into two maps, from origins
to the rules of the origin.  A request is mapped to another URL first, and that
URL is then looked up among the rules for local files.
-/

namespace Fluxcope.Mapping

open Fluxcope.Library Fluxcope.Settings

/-! ## What the engine takes from outside -/

abbrev PathBuf := Text

/-- The `url` and `http` crates as far as they are used here, and the variable
`HOME`.  A setter that fails leaves the URL as it is. -/
structure Environment where
  Url : Type
  Uri : Type
  parse : Text → Except String Url
  asStr : Url → Text
  scheme : Url → Text
  hasHost : Url → Bool
  hostStr : Url → Option Text
  port : Url → Option Nat
  portOrKnownDefault : Url → Option Nat
  path : Url → Text
  username : Url → Text
  password : Url → Option Text
  query : Url → Option Text
  fragment : Url → Option Text
  setScheme : Url → Text → Url
  setHost : Url → Option Text → Url
  setPort : Url → Option Nat → Url
  setPath : Url → Text → Url
  setFragment : Url → Option Text → Url
  uriToString : Uri → Text
  parseUri : Text → Option Uri
  home : Option PathBuf

/-! ## Diagnostics -/

inductive DiagnosticSeverity
  | warning
  | error
  deriving DecidableEq, Repr

inductive MappingDiagnosticCode
  | invalidRequestUrl
  | missingActivePreset
  | activePresetNotFound
  | invalidRuleSource
  | invalidRuleTarget
  | emptyPresetName
  | duplicatePresetName
  deriving DecidableEq, Repr

structure MappingLocation where
  presetIndex : Nat
  table : MappingTable
  ruleIndex : Nat
  field : MappingField
  deriving DecidableEq, Repr

structure MappingDiagnostic where
  severity : DiagnosticSeverity
  code : MappingDiagnosticCode
  location : Option MappingLocation := none
  message : String
  deriving DecidableEq, Repr

/-! ## Parsing the rules -/

/-- The displayed text of the error. -/
abbrev MappingValueError := String

structure OriginKey where
  scheme : Text
  host : Text
  port : Nat
  deriving DecidableEq, Repr

structure RulePattern where
  origin : OriginKey
  path : Option Text
  deriving DecidableEq, Repr

structure RemoteTarget where
  scheme : Text
  host : Text
  port : Option Nat
  path : Option Text
  deriving DecidableEq, Repr

section Parse

variable (env : Environment)

def OriginKey.fromUrl (url : env.Url) : Except MappingValueError OriginKey :=
  match env.hostStr url with
  | none => .error "missing host"
  | some host =>
    match env.portOrKnownDefault url with
    | none => .error "missing known port"
    | some port =>
      .ok { scheme := (env.scheme url).toAsciiLowercase, host := host.toAsciiLowercase, port }

def isHttp (scheme : Text) : Bool := scheme = "http".toList || scheme = "https".toList

def parseHttpUrl (raw : Text) : Except MappingValueError env.Url :=
  if raw = [] then .error "value is empty"
  else
    match env.parse raw with
    | .error error => .error error
    | .ok url =>
      if !isHttp (env.scheme url) then .error "scheme must be http or https"
      else if !env.hasHost url then .error "missing host"
      else if env.username url ≠ [] || (env.password url).isSome then
        .error "userinfo is not supported"
      else if (env.query url).isSome then .error "query is not supported in mapping rules"
      else if (env.fragment url).isSome then .error "fragment is not supported in mapping rules"
      else .ok url

/-- Whether the text has a slash after the scheme. -/
def explicitPath (raw : Text) : Bool :=
  (Text.splitOnce "://".toList raw).any fun (_, afterScheme) => afterScheme.contains '/'

/-- The path of the URL, if the text spells one out. -/
def pathOf (raw : Text) (url : env.Url) : Option Text :=
  if explicitPath raw then some (env.path url) else none

def parseRuleUrl (raw : Text) : Except MappingValueError RulePattern :=
  let raw := raw.trim
  match parseHttpUrl env raw with
  | .error error => .error error
  | .ok url =>
    match OriginKey.fromUrl env url with
    | .error error => .error error
    | .ok origin => .ok { origin, path := pathOf env raw url }

def parseRemoteTarget (raw : Text) : Except MappingValueError RemoteTarget :=
  let raw := raw.trim
  match parseHttpUrl env raw with
  | .error error => .error error
  | .ok url =>
    match env.hostStr url with
    | none => .error "missing host"
    | some host =>
      .ok { scheme := env.scheme url, host, port := env.port url, path := pathOf env raw url }

def homeDir : Except MappingValueError PathBuf :=
  match env.home with
  | none => .error "HOME environment variable is not set"
  | some home => .ok home

/-- `PathBuf::join`: an absolute path replaces the first one. -/
def PathBuf.join (path rest : PathBuf) : PathBuf :=
  if rest.head? = some '/' then rest
  else if path = [] || path.getLast? = some '/' then path ++ rest
  else path ++ '/' :: rest

def expandHomePath (path : Text) : Except MappingValueError PathBuf :=
  if path = [] then .error "path is empty"
  else if path = ['~'] then homeDir env
  else
    match path with
    | '~' :: '/' :: rest => (homeDir env).map fun home => home.join rest
    | _ => .ok path

/-- The target of a rule for local files. -/
def parseLocalTarget (raw : Text) : Except MappingValueError PathBuf :=
  expandHomePath env raw.trim

end Parse

/-! ## Compiled rules -/

structure MappingRuleLocation where
  presetIndex : Nat
  table : MappingTable
  ruleIndex : Nat
  deriving DecidableEq, Repr

structure LocatedTarget (T : Type) where
  target : T
  location : MappingRuleLocation
  deriving DecidableEq, Repr

structure OriginRules (T : Type) where
  hostRule : Option T := none
  pathRules : AList (fun _ : Text => T) := ∅

structure CompiledRules (T : Type) where
  byOrigin : AList (fun _ : OriginKey => OriginRules T) := ∅

structure RequestUrl (env : Environment) where
  url : env.Url
  origin : OriginKey
  path : Text

namespace CompiledRules

variable {T : Type} {env : Environment}

def insert (rules : CompiledRules T) (pattern : RulePattern) (target : T) : CompiledRules T :=
  let originRules := (rules.byOrigin.lookup pattern.origin).getD {}
  { byOrigin := rules.byOrigin.insert pattern.origin
      (match pattern.path with
      | some path => { originRules with pathRules := originRules.pathRules.insert path target }
      | none => { originRules with hostRule := some target }) }

def isEmpty (rules : CompiledRules T) : Bool := rules.byOrigin.entries.isEmpty

/-- A rule for the whole path comes before the rule of the host. -/
def matchTarget (rules : CompiledRules T) (request : RequestUrl env) : Option T :=
  (rules.byOrigin.lookup request.origin).bind fun originRules =>
    (originRules.pathRules.lookup request.path).or originRules.hostRule

end CompiledRules

structure MappingEngine where
  remoteRules : CompiledRules (LocatedTarget RemoteTarget) := {}
  localRules : CompiledRules (LocatedTarget PathBuf) := {}
  diagnostics : List MappingDiagnostic := []

/-! ## Compilation -/

def activePresetDiagnostic (proxy : ProxySettings) : Option MappingDiagnostic :=
  if proxy.activeName = [] then
    if proxy.presets ≠ [] then
      some
        { severity := .warning
          code := .missingActivePreset
          message := "proxy mapping has presets but no active_preset" }
    else none
  else if proxy.presets.any fun preset => preset.name.trim = proxy.activeName then none
  else
    let name := String.ofList proxy.activeName
    some
      { severity := .warning
        code := .activePresetNotFound
        message := s!"proxy mapping active preset '{name}' was not found" }

/-- The first preset with this trimmed name. -/
def findPreset (proxy : ProxySettings) (name : Text) : Option (Nat × ProxyPresetSettings) :=
  (proxy.presets.zipIdx.find? fun (preset, _) => preset.name.trim = name).map
    fun (preset, index) => (index, preset)

def activePreset (proxy : ProxySettings) :
    Option (Nat × ProxyPresetSettings) × List MappingDiagnostic :=
  match activePresetDiagnostic proxy with
  | some diagnostic => (none, [diagnostic])
  | none =>
    if proxy.activeName = [] then (none, []) else (findPreset proxy proxy.activeName, [])

def ruleDiagnostic (severity : DiagnosticSeverity) (code : MappingDiagnosticCode)
    (presetIndex : Nat) (table : MappingTable) (ruleIndex : Nat) (field : MappingField)
    (message : String) : MappingDiagnostic :=
  { severity, code, location := some { presetIndex, table, ruleIndex, field }, message }

/-- What distinguishes the two loops of the compiler: how a target is parsed, and
the words for the table and the target in messages. -/
structure RuleCompiler (T : Type) where
  table : MappingTable
  parseTarget : Text → Except MappingValueError T
  tableName : String
  targetName : String

section Compile

variable (env : Environment)

/-- One turn of the loop over the rules of a table. -/
def RuleCompiler.compileRule {T : Type} (compiler : RuleCompiler T) (presetIndex : Nat)
    (compiled : CompiledRules (LocatedTarget T) × List MappingDiagnostic)
    (entry : ProxyMapRule × Nat) : CompiledRules (LocatedTarget T) × List MappingDiagnostic :=
  let (rules, diagnostics) := compiled
  let (rule, index) := entry
  if !rule.enable then compiled
  else
    match parseRuleUrl env rule.source with
    | .error error =>
      (rules, diagnostics ++ [ruleDiagnostic .warning .invalidRuleSource presetIndex
        compiler.table index .source
        s!"{compiler.tableName} rule {index} skipped: invalid from URL: {error}"])
    | .ok pattern =>
      match compiler.parseTarget rule.target with
      | .error error =>
        (rules, diagnostics ++ [ruleDiagnostic .warning .invalidRuleTarget presetIndex
          compiler.table index .target
          s!"{compiler.tableName} rule {index} skipped: invalid to {compiler.targetName}: {error}"])
      | .ok target =>
        (rules.insert pattern
          { target, location := { presetIndex, table := compiler.table, ruleIndex := index } },
          diagnostics)

def RuleCompiler.compileRules {T : Type} (compiler : RuleCompiler T) (presetIndex : Nat)
    (rules : List ProxyMapRule)
    (compiled : CompiledRules (LocatedTarget T) × List MappingDiagnostic) :
    CompiledRules (LocatedTarget T) × List MappingDiagnostic :=
  rules.zipIdx.foldl (compiler.compileRule env presetIndex) compiled

def remoteCompiler : RuleCompiler RemoteTarget :=
  { table := .mapRemote
    parseTarget := parseRemoteTarget env
    tableName := "map_remote"
    targetName := "URL" }

def localCompiler : RuleCompiler PathBuf :=
  { table := .mapLocal
    parseTarget := parseLocalTarget env
    tableName := "map_local"
    targetName := "path" }

def compileRemoteRules (presetIndex : Nat) (rules : List ProxyMapRemoteRule)
    (engine : MappingEngine) : MappingEngine :=
  let (remoteRules, diagnostics) :=
    (remoteCompiler env).compileRules env presetIndex rules
      (engine.remoteRules, engine.diagnostics)
  { engine with remoteRules, diagnostics }

def compileLocalRules (presetIndex : Nat) (rules : List ProxyMapLocalRule)
    (engine : MappingEngine) : MappingEngine :=
  let (localRules, diagnostics) :=
    (localCompiler env).compileRules env presetIndex rules
      (engine.localRules, engine.diagnostics)
  { engine with localRules, diagnostics }

def MappingEngine.compile (proxy : Option ProxySettings) : MappingEngine :=
  match proxy with
  | none => {}
  | some proxy =>
    if !proxy.enable then {}
    else
      match activePreset proxy with
      | (none, diagnostics) => { diagnostics }
      | (some (presetIndex, preset), diagnostics) =>
        let engine : MappingEngine := { diagnostics }
        let engine :=
          if preset.mapRemote.enable then
            compileRemoteRules env presetIndex preset.mapRemote.rules engine
          else engine
        if preset.mapLocal.enable then
          compileLocalRules env presetIndex preset.mapLocal.rules engine
        else engine

end Compile

/-! ## Requests -/

section Request

variable {env : Environment}

namespace RequestUrl

def fromUrl (url : env.Url) : Option (RequestUrl env) :=
  if !isHttp (env.scheme url) || !env.hasHost url then none
  else
    match OriginKey.fromUrl env url with
    | .error _ => none
    | .ok origin => some { url, origin, path := env.path url }

def fromUri (uri : env.Uri) : Option (RequestUrl env) :=
  match env.parse (env.uriToString uri) with
  | .error _ => none
  | .ok url => fromUrl url

end RequestUrl

def RemoteTarget.applyTo (target : RemoteTarget) (original : env.Url) : env.Url :=
  let mapped := env.setScheme original target.scheme
  let mapped := env.setHost mapped (some target.host)
  let mapped := env.setPort mapped target.port
  let mapped :=
    match target.path with
    | some path => env.setPath mapped path
    | none => mapped
  env.setFragment mapped none

structure MappingDecision (env : Environment) where
  mappedUri : Option env.Uri := none
  localPath : Option PathBuf := none

structure MappingTrace (env : Environment) where
  localPath : Option PathBuf := none
  effectiveUri : Option env.Uri := none
  remoteMatch : Option MappingRuleLocation := none
  localMatch : Option MappingRuleLocation := none

namespace MappingEngine

def mapRequest (engine : MappingEngine) (uri : env.Uri) : MappingDecision env :=
  if engine.remoteRules.isEmpty && engine.localRules.isEmpty then {}
  else
    match RequestUrl.fromUri uri with
    | none => {}
    | some original =>
      let remoteUrl := (engine.remoteRules.matchTarget original).map fun matched =>
        matched.target.applyTo original.url
      let localRule :=
        if engine.localRules.isEmpty then none
        else
          match remoteUrl with
          | some remoteUrl =>
            (RequestUrl.fromUrl remoteUrl).bind fun request =>
              engine.localRules.matchTarget request
          | none => engine.localRules.matchTarget original
      { mappedUri := remoteUrl.bind fun url => env.parseUri (env.asStr url)
        localPath := localRule.map (·.target) }

def traceRequest (engine : MappingEngine) (uri : env.Uri) : MappingTrace env :=
  match RequestUrl.fromUri uri with
  | none => {}
  | some original =>
    let remote := engine.remoteRules.matchTarget original
    let remoteUrl := remote.map fun matched => matched.target.applyTo original.url
    let localRule :=
      if engine.localRules.isEmpty then none
      else
        match remoteUrl with
        | some remoteUrl =>
          (RequestUrl.fromUrl remoteUrl).bind fun request =>
            engine.localRules.matchTarget request
        | none => engine.localRules.matchTarget original
    let effectiveUrl := remoteUrl.getD original.url
    { localPath := localRule.map (·.target)
      effectiveUri := env.parseUri (env.asStr effectiveUrl)
      remoteMatch := remote.map (·.location)
      localMatch := localRule.map (·.location) }

end MappingEngine

end Request

end Fluxcope.Mapping
