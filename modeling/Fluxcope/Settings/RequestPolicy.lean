import Fluxcope.Control.Error
import Fluxcope.Settings.MappingMutation
import Mathlib.Data.List.ReduceOption
/-!
# The compiled policy for requests

The errors of the settings services are those of the control interface with the details
they carry here.
-/

namespace Fluxcope.Settings

open Fluxcope.Library Fluxcope.Control

/-- The JSON details of an error. -/
inductive SettingsErrorDetails
  | empty
  | validation
  | mutation (location : MappingObjectRef)
  | compilation (diagnostics : List String) (diagnosticsTotal diagnosticsOmitted : Nat)
  | persistence (operation : String)
  | revisions (expectedRevision currentRevision : Nat)
  | currentRevision (revision : Nat)
  | transactionPending
  | maximum (maximum : Nat)
  | urlLength (index minimumBytes maximumBytes : Nat)
  deriving DecidableEq, Repr

structure SettingsError where
  code : ControlErrorCode
  message : String
  retryable : Bool
  details : SettingsErrorDetails := .empty
  deriving DecidableEq, Repr

namespace SettingsError

def cancelled (message : String) : SettingsError :=
  { code := .cancelled, message, retryable := true }

def internal (message : String) : SettingsError :=
  { code := .internalError, message, retryable := false }

def instanceUnavailable (message : String) : SettingsError :=
  { code := .instanceUnavailable, message, retryable := true }

end SettingsError

/-- How the services report a mutation that was not accepted. -/
def MappingMutationError.toSettingsError (error : MappingMutationError) : SettingsError :=
  { code := .invalidArgument
    message := error.message
    retryable := false
    details := .mutation error.location }

end Fluxcope.Settings

/-!
## Compilation

The mapping engine and the filter of the recording are compiled together from the
settings.  A pattern that is no glob is reported as an error and left out.
-/

namespace Fluxcope.Settings

open Fluxcope.Library Fluxcope.Mapping

/-- The `globset` crate as far as it is used here: a case-sensitive glob whose
wildcards match separators too, and sets of them.  `debug` is the quoted form of
a text in messages. -/
structure Globset where
  Glob : Type
  GlobSet : Type
  build : Text → Except String Glob
  buildSet : List Glob → Except String GlobSet
  isMatch : GlobSet → Text → Bool
  debug : Text → String

/-! ## The filter of the recording -/

structure PrefilterDiagnostic where
  message : String
  deriving DecidableEq, Repr

inductive RecordingPrefilterMatcher (globs : Globset)
  | includeAll
  | includeNone
  | patterns (matcher : globs.GlobSet)

structure RecordingPrefilter (globs : Globset) where
  enabled : Bool
  matcher : RecordingPrefilterMatcher globs

namespace RecordingPrefilter

variable (globs : Globset)

def patternDiagnostic (index : Nat) (pattern : Text) (error : String) : PrefilterDiagnostic :=
  let shown := globs.debug pattern
  { message := s!"recording.prefilter.include_url_patterns[{index}] ignored invalid glob {shown}: {error}" }

def matcherDiagnostic (error : String) : PrefilterDiagnostic :=
  { message := s!"recording prefilter matcher could not be built; no URLs will be recorded: {error}" }

/-- One turn of the loop over the patterns, with the valid globs so far. -/
def compilePattern (state : List globs.Glob × List PrefilterDiagnostic)
    (entry : RecordingPrefilterPatternSettings × Nat) :
    List globs.Glob × List PrefilterDiagnostic :=
  let (builder, diagnostics) := state
  let (pattern, index) := entry
  if !pattern.enable then state
  else
    match globs.build pattern.pattern with
    | .ok glob => (builder ++ [glob], diagnostics)
    | .error error => (builder, diagnostics ++ [patternDiagnostic globs index pattern.pattern error])

def compile (settings : RecordingPrefilterSettings) :
    RecordingPrefilter globs × List PrefilterDiagnostic :=
  let (builder, diagnostics) :=
    settings.includeUrlPatterns.zipIdx.foldl (compilePattern globs) ([], [])
  let (matcher, diagnostics) :=
    if settings.includeUrlPatterns = [] then (.includeAll, diagnostics)
    else if builder.isEmpty then (.includeNone, diagnostics)
    else
      match globs.buildSet builder with
      | .ok matcher => (.patterns matcher, diagnostics)
      | .error error => (.includeNone, diagnostics ++ [matcherDiagnostic error])
  ({ enabled := settings.enable, matcher }, diagnostics)

end RecordingPrefilter

/-! ## The policy -/

inductive RequestPolicyDiagnosticSeverity
  | warning
  | error
  deriving DecidableEq, Repr

structure RequestPolicyDiagnostic where
  severity : RequestPolicyDiagnosticSeverity
  message : String
  deriving DecidableEq, Repr

structure RequestPolicy (globs : Globset) where
  mapping : MappingEngine
  prefilter : RecordingPrefilter globs

def policySeverity : DiagnosticSeverity → RequestPolicyDiagnosticSeverity
  | .warning => .warning
  | .error => .error

def maxMappingDiagnostics : Nat := 256

section Compile

variable (env : Environment) (globs : Globset)

/-- The policy, which no longer holds the diagnostics of the engine, and all diagnostics. -/
def RequestPolicy.compile (settings : AppSettings) :
    RequestPolicy globs × List RequestPolicyDiagnostic :=
  let mapping := MappingEngine.compile env settings.proxy
  let (prefilter, prefilterDiagnostics) :=
    RecordingPrefilter.compile globs settings.recording.prefilter
  let diagnostics :=
    (mapping.diagnostics.map fun diagnostic =>
      { severity := policySeverity diagnostic.severity, message := diagnostic.message }) ++
    prefilterDiagnostics.map fun diagnostic =>
      { severity := .error, message := diagnostic.message }
  ({ mapping := { mapping with diagnostics := [] }, prefilter }, diagnostics)

/-- A commit needs a policy without errors; warnings are let through. -/
def compileCandidate (settings : AppSettings) : Except SettingsError (RequestPolicy globs) :=
  let (policy, diagnostics) := RequestPolicy.compile env globs settings
  if diagnostics.any fun diagnostic => diagnostic.severity = .error then
    let diagnosticsTotal := diagnostics.length
    .error
      { code := .mappingValidationFailed
        message := "mapping settings failed compilation"
        retryable := false
        details := .compilation ((diagnostics.take maxMappingDiagnostics).map (·.message))
          diagnosticsTotal (diagnosticsTotal - maxMappingDiagnostics) }
  else .ok policy

end Compile

/-! ## When a candidate compiles -/

section Candidate

variable {env : Environment} {globs : Globset}

/-- Whether compiling the patterns of the recording reports anything. -/
def PatternsCompile (globs : Globset) (settings : AppSettings) : Prop :=
  (RecordingPrefilter.compile globs settings.recording.prefilter).2 = []

instance (globs : Globset) (settings : AppSettings) : Decidable (PatternsCompile globs settings) :=
  inferInstanceAs (Decidable (_ = _))

theorem compileRule_warnings {T : Type} {compiler : RuleCompiler T} {presetIndex : Nat}
    {compiled : CompiledRules (LocatedTarget T) × List MappingDiagnostic}
    (h : ∀ d ∈ compiled.2, d.severity = .warning) (entry : ProxyMapRule × Nat) :
    ∀ d ∈ (compiler.compileRule env presetIndex compiled entry).2, d.severity = .warning := by
  intro d hd
  unfold RuleCompiler.compileRule at hd
  dsimp only at hd
  split at hd
  · exact h d hd
  · split at hd
    · rcases List.mem_append.1 hd with hd | hd
      · exact h d hd
      · rw [List.mem_singleton.1 hd]
        rfl
    · split at hd
      · rcases List.mem_append.1 hd with hd | hd
        · exact h d hd
        · rw [List.mem_singleton.1 hd]
          rfl
      · exact h d hd

theorem compileRules_warnings {T : Type} {compiler : RuleCompiler T} {presetIndex : Nat}
    {compiled : CompiledRules (LocatedTarget T) × List MappingDiagnostic}
    (h : ∀ d ∈ compiled.2, d.severity = .warning) (rules : List ProxyMapRule) :
    ∀ d ∈ (compiler.compileRules env presetIndex rules compiled).2, d.severity = .warning := by
  unfold RuleCompiler.compileRules
  generalize rules.zipIdx = entries
  induction entries generalizing compiled with
  | nil => exact h
  | cons entry entries ih =>
    rw [List.foldl_cons]
    exact ih (compileRule_warnings h entry)

theorem activePreset_warnings (proxy : ProxySettings) :
    ∀ d ∈ (activePreset proxy).2, d.severity = .warning := by
  intro d hd
  unfold activePreset at hd
  cases hactive : activePresetDiagnostic proxy with
  | some found =>
    simp only [hactive] at hd
    rw [List.mem_singleton.1 hd]
    unfold activePresetDiagnostic at hactive
    split at hactive
    · split at hactive
      · cases hactive
        rfl
      · cases hactive
    · split at hactive
      · cases hactive
      · cases hactive
        rfl
  | none =>
    simp only [hactive] at hd
    split at hd <;> cases hd

/-- The engine itself only warns. -/
theorem compile_warnings (env : Environment) (proxy : Option ProxySettings) :
    ∀ d ∈ (MappingEngine.compile env proxy).diagnostics, d.severity = .warning := by
  unfold MappingEngine.compile
  cases proxy with
  | none => exact fun d hd => by cases hd
  | some proxy =>
    dsimp only
    split
    · exact fun d hd => by cases hd
    · have hactive := activePreset_warnings proxy
      split
      case h_1 diagnostics heq =>
        rw [heq] at hactive
        exact hactive
      case h_2 presetIndex preset diagnostics heq =>
        rw [heq] at hactive
        have hremote : ∀ d ∈ (if preset.mapRemote.enable then
            compileRemoteRules env presetIndex preset.mapRemote.rules { diagnostics }
            else { diagnostics }).diagnostics, d.severity = .warning := by
          split
          · exact compileRules_warnings hactive preset.mapRemote.rules
          · exact hactive
        split
        · exact compileRules_warnings hremote preset.mapLocal.rules
        · exact hremote

/-- What decides whether a candidate compiles is the patterns of the recording alone. -/
theorem compileCandidate_eq_ok {settings : AppSettings} {policy : RequestPolicy globs} :
    compileCandidate env globs settings = .ok policy ↔
      PatternsCompile globs settings ∧ policy = (RequestPolicy.compile env globs settings).1 := by
  have hany : ((RequestPolicy.compile env globs settings).2.any fun diagnostic =>
      diagnostic.severity = .error) = false ↔ PatternsCompile globs settings := by
    unfold RequestPolicy.compile PatternsCompile
    rw [List.any_append, Bool.or_eq_false_iff]
    constructor
    · rintro ⟨-, hprefilter⟩
      cases hdiagnostics : (RecordingPrefilter.compile globs settings.recording.prefilter).2 with
      | nil => rfl
      | cons diagnostic rest =>
        rw [hdiagnostics] at hprefilter
        cases hprefilter
    · intro hnone
      refine ⟨List.any_eq_false.2 fun diagnostic hmem => ?_, ?_⟩
      · obtain ⟨d, hd, rfl⟩ := List.mem_map.1 hmem
        rw [show d.severity = .warning from compile_warnings env settings.proxy d hd]
        exact of_decide_eq_false rfl
      · rw [hnone]
        rfl
  unfold compileCandidate
  rcases hcompile : RequestPolicy.compile env globs settings with ⟨compiled, diagnostics⟩
  rw [hcompile] at hany
  dsimp only at hany ⊢
  by_cases herror : (diagnostics.any fun diagnostic => diagnostic.severity = .error) = true
  · rw [if_pos herror]
    constructor
    · intro h
      cases h
    · rintro ⟨hpatterns, -⟩
      rw [hany.2 hpatterns] at herror
      cases herror
  · rw [if_neg herror]
    have hpatterns := hany.1 (Bool.eq_false_iff.2 herror)
    constructor
    · rintro ⟨⟩
      exact ⟨hpatterns, rfl⟩
    · rintro ⟨-, rfl⟩
      rfl

theorem compileCandidate_isOk {settings : AppSettings} (h : PatternsCompile globs settings) :
    compileCandidate env globs settings = .ok (RequestPolicy.compile env globs settings).1 :=
  compileCandidate_eq_ok.2 ⟨h, rfl⟩

end Candidate

end Fluxcope.Settings

/-!
## Validation and explanation of mapping candidates

A candidate is a proxy section, in force or proposed.  Its explanation for a URL
is the trace of the engine compiled from it, next to the gates and diagnostics of
the section as a whole.
-/

namespace Fluxcope.Settings

open Fluxcope.Library Fluxcope.Mapping

structure MappingPresetRef where
  name : Text
  index : Nat
  deriving DecidableEq, Repr

structure MappingGateState where
  proxyPresent : Bool := false
  globalEnabled : Bool := false
  activePreset : Option MappingPresetRef := none
  remoteEnabled : Option Bool := none
  localEnabled : Option Bool := none
  deriving DecidableEq, Repr

structure MappingValidationResult where
  gates : MappingGateState
  diagnostics : List MappingDiagnostic
  diagnosticsTotal : Nat
  diagnosticsOmitted : Nat
  deriving DecidableEq, Repr

structure MappingRuleMatch where
  preset : Text
  presetIndex : Nat
  table : ProxyRuleTable
  index : Nat
  deriving DecidableEq, Repr

structure MappingExplanation (env : Environment) where
  originalUrl : Option env.Uri
  effectiveUrl : Option env.Uri
  localPath : Option PathBuf
  ruleMatches : List MappingRuleMatch
  gates : MappingGateState
  diagnostics : List MappingDiagnostic
  diagnosticsTotal : Nat
  diagnosticsOmitted : Nat

def mappingGates (proxy : Option ProxySettings) : MappingGateState :=
  match proxy with
  | none => {}
  | some proxy =>
    let active :=
      ((proxy.activePreset.map Text.trim).filter fun name => name ≠ []).bind fun name =>
        (findMappingPresetIndex proxy name).map fun index =>
          { name := (proxy.presetAt index).name, index : MappingPresetRef }
    { proxyPresent := true
      globalEnabled := proxy.enable
      activePreset := active
      remoteEnabled := active.map fun active => (proxy.presetAt active.index).mapRemote.enable
      localEnabled := active.map fun active => (proxy.presetAt active.index).mapLocal.enable }

def ruleMatch (proxy : ProxySettings) (location : MappingRuleLocation) : Option MappingRuleMatch :=
  proxy.presets[location.presetIndex]?.map fun preset =>
    { preset := preset.name
      presetIndex := location.presetIndex
      table := location.table
      index := location.ruleIndex }

/-- The `http` crate as far as it tells absolute URLs from others. -/
structure UriReader (env : Environment) where
  schemeStr : env.Uri → Option Text
  hasAuthority : env.Uri → Bool

section Explain

variable (env : Environment) (reader : UriReader env)

def validateMappingCandidate (proxy : Option ProxySettings) : MappingValidationResult :=
  let (diagnostics, diagnosticsTotal) :=
    match proxy with
    | none => ([], 0)
    | some proxy => validateProxySettingsCapped env proxy maxMappingDiagnostics
  { gates := mappingGates proxy
    diagnostics
    diagnosticsTotal
    diagnosticsOmitted := diagnosticsTotal - maxMappingDiagnostics }

variable {env}

/-- An absolute `http` or `https` URL. -/
def parseRequestUrl (url : Text) : Option env.Uri :=
  (env.parseUri url).filter fun uri =>
    (reader.schemeStr uri).any isHttp && reader.hasAuthority uri

def invalidRequestUrl : MappingDiagnostic :=
  { severity := .error
    code := .invalidRequestUrl
    message := "request URL must be an absolute http or https URL" }

def explainCompiledMapping (proxy : Option ProxySettings) (url : Text)
    (validation : MappingValidationResult) (mapping : MappingEngine) : MappingExplanation env :=
  match parseRequestUrl reader url with
  | none =>
    let diagnosticsTotal := validation.diagnosticsTotal + 1
    { originalUrl := none
      effectiveUrl := none
      localPath := none
      ruleMatches := []
      gates := validation.gates
      diagnostics :=
        if validation.diagnostics.length < maxMappingDiagnostics then
          validation.diagnostics ++ [invalidRequestUrl]
        else validation.diagnostics
      diagnosticsTotal
      diagnosticsOmitted := diagnosticsTotal - maxMappingDiagnostics }
  | some uri =>
    let trace := mapping.traceRequest uri
    { originalUrl := some uri
      effectiveUrl := trace.effectiveUri
      localPath := trace.localPath
      ruleMatches :=
        match proxy with
        | some proxy =>
          [trace.remoteMatch, trace.localMatch].reduceOption.filterMap (ruleMatch proxy)
        | none => []
      gates := validation.gates
      diagnostics := validation.diagnostics
      diagnosticsTotal := validation.diagnosticsTotal
      diagnosticsOmitted := validation.diagnosticsTotal - maxMappingDiagnostics }

end Explain

/-! ## The settings as a whole -/

/-- `validate_settings`, which guards every save of the settings popup. -/
def validateSettings (env : Environment) (settings : AppSettings) : Except String Unit :=
  if settings.server.port = 0 then .error "server.port must be between 1 and 65535"
  else
    match (validateMappingCandidate env settings.proxy).diagnostics with
    | diagnostic :: _ => .error diagnostic.message
    | [] => .ok ()

end Fluxcope.Settings
