import Fluxcope.Settings.AppSettings
/-!
# Loading the settings

The settings are read from a YAML value with tolerance for the filter of the
recording: a malformed pattern is dropped, and a malformed filter is replaced by one
that is off.
-/

namespace Fluxcope.Settings

open Fluxcope.Library

/-- The values of the YAML library, the place of the recording's filter in them, and the
readers and writers that are derived for the settings.  What was written is read back;
a port is a 16-bit number. -/
structure SettingsYaml where
  Value : Type
  /-- The patterns of the filter, where there is a sequence of them. -/
  patterns : Value → Option (List Value)
  withPatterns : Value → List Value → Value
  prefilter : Value → Option Value
  withPrefilter : Value → Value → Value
  readPattern : Value → Except String RecordingPrefilterPatternSettings
  readPrefilter : Value → Except String RecordingPrefilterSettings
  readSettings : Value → Except String AppSettings
  writePattern : RecordingPrefilterPatternSettings → Value
  writePrefilter : RecordingPrefilterSettings → Value
  writeSettings : AppSettings → Value
  withPatterns_self : ∀ value values, patterns value = some values →
    withPatterns value values = value
  readPattern_write : ∀ pattern, readPattern (writePattern pattern) = .ok pattern
  readSettings_write : ∀ settings, settings.server.port < 65536 →
    readSettings (writeSettings settings) = .ok settings
  /-- The writer leaves out a filter, or a sequence of patterns, that has its default. -/
  patterns_write : ∀ settings values, patterns (writeSettings settings) = some values →
    values = settings.recording.prefilter.includeUrlPatterns.map writePattern

structure SettingsLoadDiagnostic where
  message : String
  deriving DecidableEq, Repr

def RecordingPrefilterSettings.disabled : RecordingPrefilterSettings :=
  { enable := false, includeUrlPatterns := [] }

/-! ## The tolerant loader -/

variable (yaml : SettingsYaml)

def validPattern (value : yaml.Value) : Bool :=
  match yaml.readPattern value with
  | .ok _ => true
  | .error _ => false

def patternEntryDiagnostic (entry : yaml.Value × Nat) : Option SettingsLoadDiagnostic :=
  let (value, index) := entry
  match yaml.readPattern value with
  | .ok _ => none
  | .error error =>
    some
      { message := s!"recording.prefilter.include_url_patterns[{index}] ignored malformed pattern entry: {error}" }

def removeMalformedPrefilterPatternEntries (value : yaml.Value) :
    yaml.Value × List SettingsLoadDiagnostic :=
  match yaml.patterns value with
  | none => (value, [])
  | some patterns =>
    (yaml.withPatterns value (patterns.filter (validPattern yaml)),
      patterns.zipIdx.filterMap (patternEntryDiagnostic yaml))

/-- The value with the filter replaced, and the error of the filter, if it has one. -/
def replaceMalformedPrefilter (value : yaml.Value) : Option (yaml.Value × String) :=
  match yaml.prefilter value with
  | none => none
  | some prefilter =>
    match yaml.readPrefilter prefilter with
    | .ok _ => none
    | .error error =>
      some (yaml.withPrefilter value (yaml.writePrefilter .disabled), error)

def deserializeSettingsTolerantly (value : yaml.Value) :
    Except String (AppSettings × List SettingsLoadDiagnostic) :=
  let (sanitized, diagnostics) := removeMalformedPrefilterPatternEntries yaml value
  match yaml.readSettings sanitized with
  | .ok settings => .ok (settings, diagnostics)
  | .error originalError =>
    match replaceMalformedPrefilter yaml sanitized with
    | none => .error originalError
    | some (replaced, error) =>
      match yaml.readSettings replaced with
      | .error error => .error error
      | .ok settings =>
        .ok (settings, diagnostics ++
          [{ message := s!"recording.prefilter is malformed and has been disabled: {error}" }])

/-! ## Loading what was stored -/

theorem validPattern_write (patterns : List RecordingPrefilterPatternSettings) :
    (patterns.map yaml.writePattern).filter (validPattern yaml) =
      patterns.map yaml.writePattern := by
  apply List.filter_eq_self.2
  intro value hvalue
  obtain ⟨pattern, -, rfl⟩ := List.mem_map.1 hvalue
  rw [validPattern, yaml.readPattern_write]

theorem patternEntryDiagnostic_write (patterns : List RecordingPrefilterPatternSettings) :
    (patterns.map yaml.writePattern).zipIdx.filterMap (patternEntryDiagnostic yaml) = [] := by
  apply List.filterMap_eq_nil_iff.2
  rintro ⟨value, index⟩ hentry
  obtain ⟨pattern, -, rfl⟩ := List.mem_map.1 (List.fst_mem_of_mem_zipIdx hentry)
  rw [patternEntryDiagnostic, yaml.readPattern_write]

theorem removeMalformedPrefilterPatternEntries_write (settings : AppSettings) :
    removeMalformedPrefilterPatternEntries yaml (yaml.writeSettings settings) =
      (yaml.writeSettings settings, []) := by
  unfold removeMalformedPrefilterPatternEntries
  cases hpatterns : yaml.patterns (yaml.writeSettings settings) with
  | none => rfl
  | some values =>
    have hself := yaml.withPatterns_self _ _ hpatterns
    cases yaml.patterns_write _ _ hpatterns
    dsimp only
    rw [validPattern_write, patternEntryDiagnostic_write, hself]

/-- Storing settings and loading them again gives the same settings, with nothing
to report. -/
theorem deserializeSettingsTolerantly_write {settings : AppSettings}
    (h : settings.server.port < 65536) :
    deserializeSettingsTolerantly yaml (yaml.writeSettings settings) = .ok (settings, []) := by
  unfold deserializeSettingsTolerantly
  rw [removeMalformedPrefilterPatternEntries_write]
  dsimp only
  rw [yaml.readSettings_write settings h]

end Fluxcope.Settings
