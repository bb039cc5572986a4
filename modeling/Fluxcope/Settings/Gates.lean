import Fluxcope.Settings.LoadSettings
import Fluxcope.Settings.PreviewSpec
/-!
# The gates of a commit

Settings enter the runtime through the tolerant loader, which asks less of them than
the gates of a commit.  What a gate asks of a section is asked of every commit, also
of one that leaves the section alone.
-/

namespace Fluxcope.Settings

open Fluxcope.Library Fluxcope.Mapping

variable {env : Environment} {globs : Globset}

/-! ## The settings of a runtime -/

/-- Settings that are loaded at startup, or committed in a run. -/
def RuntimeHolds (env : Environment) (globs : Globset) (yaml : SettingsYaml)
    (settings : AppSettings) : Prop :=
  ∃ value loaded diagnostics context events, ∃ s : SettingsSystem globs,
    deserializeSettingsTolerantly yaml value = .ok (loaded, diagnostics) ∧
      run (SettingsSystem.step env) (.start env globs context loaded) events = some s ∧
      s.runtime.settings = settings

/-- The loader takes all settings, if only the port is one. -/
theorem runtimeHolds_of_port (yaml : SettingsYaml) {settings : AppSettings}
    (h : settings.server.port < 65536) : RuntimeHolds env globs yaml settings :=
  ⟨yaml.writeSettings settings, settings, [], ⟨.temporary, .ephemeral⟩, [], _,
    deserializeSettingsTolerantly_write yaml h, rfl, rfl⟩

/-! ## Valid proxy sections -/

/-- What the validation asks of all presets and all rules, on or off. -/
structure SectionValid (env : Environment) (proxy : ProxySettings) : Prop where
  named : ∀ preset ∈ proxy.presets, preset.name.trim ≠ []
  unique : (proxy.presets.map fun preset => preset.name.trim).Nodup
  rules : ∀ preset ∈ proxy.presets, ∀ table, ∀ rule ∈ (preset.table table).rules,
    RuleValid env table rule
  active : proxy.activeName = [] → proxy.presets = []
  found : proxy.activeName ≠ [] → ∃ preset ∈ proxy.presets, preset.name.trim = proxy.activeName

theorem tableDiagnostics_eq_nil {presetIndex : Nat} {table : MappingTable}
    {rules : List ProxyMapRule} :
    tableDiagnostics env presetIndex table rules = [] ↔ ∀ rule ∈ rules, RuleValid env table rule := by
  have hentry : ∀ entry : ProxyMapRule × Nat, sourceDiagnostics env presetIndex table entry ++
      targetDiagnostics env presetIndex table entry = [] ↔ RuleValid env table entry.1 := by
    intro entry
    unfold sourceDiagnostics targetDiagnostics RuleValid validateRuleValues
    cases parseRuleUrl env entry.1.source <;> cases checkTarget env table entry.1.target <;> simp
  unfold tableDiagnostics
  rw [List.flatMap_eq_nil_iff]
  constructor
  · intro h rule hrule
    obtain ⟨index, hindex⟩ := List.mem_iff_getElem?.1 hrule
    exact (hentry (rule, index)).1 (h _ (List.mem_zipIdx_iff_getElem?.2 hindex))
  · intro h entry hmem
    exact (hentry entry).2 (h _ (List.fst_mem_of_mem_zipIdx hmem))

theorem presetDiagnostics_eq_nil {names : List Text} {entry : ProxyPresetSettings × Nat} :
    presetDiagnostics env names entry = [] ↔
      (entry.1.name.trim ≠ [] ∧ entry.1.name.trim ∉ names) ∧
        ∀ table, ∀ rule ∈ (entry.1.table table).rules, RuleValid env table rule := by
  have hname : nameDiagnostics names entry.1 = [] ↔
      entry.1.name.trim ≠ [] ∧ entry.1.name.trim ∉ names := by
    unfold nameDiagnostics
    split
    · rename_i hempty
      simp [hempty]
    · rename_i hnamed
      split <;> simp_all
  unfold presetDiagnostics
  rw [List.append_eq_nil_iff, List.append_eq_nil_iff, hname, tableDiagnostics_eq_nil,
    tableDiagnostics_eq_nil]
  refine and_congr_right fun _ => ⟨fun h table => ?_, fun h => ⟨h .mapRemote, h .mapLocal⟩⟩
  cases table with
  | mapRemote => exact h.1
  | mapLocal => exact h.2

/-- The names seen so far are those of the presets before. -/
theorem presetsDiagnostics_eq_nil {names : List Text} {entries : List (ProxyPresetSettings × Nat)} :
    presetsDiagnostics env names entries = [] ↔
      (∀ entry ∈ entries, entry.1.name.trim ≠ [] ∧
        ∀ table, ∀ rule ∈ (entry.1.table table).rules, RuleValid env table rule) ∧
      (∀ entry ∈ entries, entry.1.name.trim ∉ names) ∧
      (entries.map fun entry => entry.1.name.trim).Nodup := by
  induction entries generalizing names with
  | nil => simp [presetsDiagnostics]
  | cons entry entries ih =>
    rw [presetsDiagnostics, List.append_eq_nil_iff, presetDiagnostics_eq_nil, ih]
    have hadd : ∀ (hnamed : entry.1.name.trim ≠ []) (hfresh : entry.1.name.trim ∉ names),
        addName names entry.1 = entry.1.name.trim :: names := by
      intro hnamed hfresh
      rw [addName, if_neg hnamed, if_neg hfresh]
    rw [List.map_cons, List.nodup_cons]
    constructor
    · rintro ⟨⟨⟨hnamed, hfresh⟩, hrules⟩, hall, hnames, hnodup⟩
      rw [hadd hnamed hfresh] at hnames
      refine ⟨List.forall_mem_cons.2 ⟨⟨hnamed, hrules⟩, hall⟩,
        List.forall_mem_cons.2 ⟨hfresh, fun other hother hmem =>
          hnames other hother (List.mem_cons_of_mem _ hmem)⟩, ?_, hnodup⟩
      intro hmem
      obtain ⟨other, hother, heq⟩ := List.mem_map.1 hmem
      exact hnames other hother (heq ▸ List.mem_cons_self)
    · rintro ⟨hall, hnames, hnew, hnodup⟩
      obtain ⟨⟨hnamed, hrules⟩, hall⟩ := List.forall_mem_cons.1 hall
      obtain ⟨hfresh, hnames⟩ := List.forall_mem_cons.1 hnames
      refine ⟨⟨⟨hnamed, hfresh⟩, hrules⟩, hall, ?_, hnodup⟩
      rw [hadd hnamed hfresh]
      intro other hother hmem
      rcases List.mem_cons.1 hmem with heq | hmem
      · exact hnew (List.mem_map.2 ⟨other, hother, heq⟩)
      · exact hnames other hother hmem

theorem activePresetDiagnostic_eq_none {proxy : ProxySettings} :
    activePresetDiagnostic proxy = none ↔
      (proxy.activeName = [] → proxy.presets = []) ∧
      (proxy.activeName ≠ [] → ∃ preset ∈ proxy.presets, preset.name.trim = proxy.activeName) := by
  unfold activePresetDiagnostic
  split
  · rename_i hinactive
    simp [hinactive]
  · rename_i hactive
    split
    · rename_i hany
      simpa [hactive] using hany
    · rename_i hnone
      simpa [hactive] using hnone

theorem proxyDiagnostics_eq_nil {proxy : ProxySettings} :
    proxyDiagnostics env proxy = [] ↔ SectionValid env proxy := by
  unfold proxyDiagnostics
  have hactive : (activePresetDiagnostic proxy).toList.map
      (fun diagnostic => { diagnostic with severity := .error }) = [] ↔
        activePresetDiagnostic proxy = none := by
    cases activePresetDiagnostic proxy <;> simp
  have hmap : (proxy.presets.zipIdx.map fun entry => entry.1.name.trim) =
      proxy.presets.map fun preset => preset.name.trim := by
    calc
      _ = (proxy.presets.zipIdx.map Prod.fst).map fun preset => preset.name.trim :=
        List.map_map.symm
      _ = _ := by rw [List.zipIdx_map_fst]
  rw [List.append_eq_nil_iff, hactive, activePresetDiagnostic_eq_none, presetsDiagnostics_eq_nil,
    hmap]
  have hentries : ∀ P : ProxyPresetSettings → Prop,
      (∀ entry ∈ proxy.presets.zipIdx, P entry.1) ↔ ∀ preset ∈ proxy.presets, P preset := by
    intro P
    constructor
    · intro h preset hpreset
      obtain ⟨index, hindex⟩ := List.mem_iff_getElem?.1 hpreset
      exact h (preset, index) (List.mem_zipIdx_iff_getElem?.2 hindex)
    · intro h entry hentry
      exact h _ (List.fst_mem_of_mem_zipIdx hentry)
  rw [hentries fun preset => preset.name.trim ≠ [] ∧
    ∀ table, ∀ rule ∈ (preset.table table).rules, RuleValid env table rule]
  constructor
  · rintro ⟨⟨hall, -, hnodup⟩, hmissing, hfound⟩
    exact ⟨fun p hp => (hall p hp).1, hnodup, fun p hp => (hall p hp).2, hmissing, hfound⟩
  · intro h
    exact ⟨⟨fun p hp => ⟨h.named p hp, h.rules p hp⟩, fun _ _ => List.not_mem_nil, h.unique⟩,
      h.active, h.found⟩

theorem validateMappingCandidate_eq_nil {proxy : Option ProxySettings} :
    (validateMappingCandidate env proxy).diagnostics = [] ↔
      ∀ settings, proxy = some settings → SectionValid env settings := by
  cases proxy with
  | none => exact iff_of_true rfl fun _ h => by cases h
  | some proxy =>
    unfold validateMappingCandidate
    dsimp only
    rw [validateProxySettingsCapped_eq, List.take_eq_nil_iff, proxyDiagnostics_eq_nil]
    constructor
    · rintro (h | h) _ ⟨⟩
      · cases h
      · exact h
    · intro h
      exact .inr (h proxy rfl)

/-! ## What each gate asks -/

theorem validateSettings_eq_ok {settings : AppSettings} :
    validateSettings env settings = .ok () ↔ settings.server.port ≠ 0 ∧
      ∀ proxy, settings.proxy = some proxy → SectionValid env proxy := by
  rw [← validateMappingCandidate_eq_nil]
  unfold validateSettings
  by_cases hport : settings.server.port = 0
  · simp [hport]
  · rw [if_neg hport]
    cases (validateMappingCandidate env settings.proxy).diagnostics <;> simp [hport]

/-- The switch of the filter does not matter. -/
theorem patternsCompile_congr {settings settings' : AppSettings}
    (h : settings'.recording.prefilter.includeUrlPatterns =
      settings.recording.prefilter.includeUrlPatterns) :
    PatternsCompile globs settings' ↔ PatternsCompile globs settings := by
  unfold PatternsCompile RecordingPrefilter.compile
  rw [h]

theorem compiles_iff {settings : AppSettings} :
    (∃ policy, compileCandidate env globs settings = .ok policy) ↔
      PatternsCompile globs settings := by
  constructor
  · rintro ⟨policy, h⟩
    exact (compileCandidate_eq_ok.1 h).1
  · intro h
    exact ⟨_, compileCandidate_isOk h⟩

/-- A draft that leaves alone what the gates look at. -/
structure Unrelated (settings draft : AppSettings) : Prop where
  proxy : draft.proxy = settings.proxy
  port : draft.server.port ≠ 0
  patterns : draft.recording.prefilter.includeUrlPatterns =
    settings.recording.prefilter.includeUrlPatterns

/-- Mutations pass the compilation if `patterns`, drafts of other sections pass it if
`patterns` and the validation if `valid`. -/
structure Gates (env : Environment) (globs : Globset) (settings : AppSettings)
    (patterns valid : Prop) : Prop where
  mutation : ∀ mutation candidate result,
    applyMappingMutationOwned env settings mutation = .ok (candidate, result) →
      result.effect = .changed →
        ((∃ policy, compileCandidate env globs candidate = .ok policy) ↔ patterns)
  draft : ∀ draft, Unrelated settings draft →
    (validateSettings env draft = .ok () ↔ valid) ∧
      ((∃ policy, compileCandidate env globs draft = .ok policy) ↔ patterns)

theorem gates (env : Environment) (globs : Globset) (settings : AppSettings) :
    Gates env globs settings (PatternsCompile globs settings)
      (∀ proxy, settings.proxy = some proxy → SectionValid env proxy) where
  mutation := by
    intro mutation candidate result happly heffect
    obtain ⟨changed, affected, happlied, -⟩ := applyToCandidate_eq_ok happly
    obtain ⟨proxy', rfl, -⟩ := happlied.effect
    rw [compiles_iff]
    exact patternsCompile_congr rfl
  draft := by
    intro draft hdraft
    rw [compiles_iff, patternsCompile_congr hdraft.patterns, validateSettings_eq_ok, hdraft.proxy]
    exact ⟨and_iff_right hdraft.port, Iff.rfl⟩

/-! ## Patterns along a run -/

namespace SettingsSystem

variable {s t : SettingsSystem globs}

/-- What is to be committed has been compiled. -/
def CommitCompiles : TransactionPhase globs → Prop
  | .finalizing _ _ commit => commit.outcome = .committed → PatternsCompile globs commit.settings
  | _ => True

/-- The patterns compile if they did at startup, or if there was a commit. -/
structure PatternsKept (atStart : Prop) (s : SettingsSystem globs) : Prop where
  settings : atStart ∨ s.runtime.settingsRevision ≠ initialRevision →
    PatternsCompile globs s.runtime.settings
  commit : CommitCompiles s.phase

variable {atStart : Prop}

theorem PatternsKept.of_sameService (hs : PatternsKept atStart s) (h : SameService s t) :
    PatternsKept atStart t := by
  refine ⟨?_, ?_⟩
  · rw [h.settings, h.revision]
    exact hs.settings
  · rw [h.phase]
    exact hs.commit

theorem PatternsKept.answer (hs : PatternsKept atStart s) (work : SettingsTransactionWork)
    (reply : TransactionReply) : PatternsKept atStart (s.answer work reply) := by
  refine ⟨?_, ?_⟩
  · rw [answer_runtime]
    exact hs.settings
  · rw [answer_phase]
    trivial

theorem Ended.patternsKept {work : SettingsTransactionWork} {begun : BeginSettingsTransactionReply}
    {commit : AdmittedSettingsCommit globs} (h : Ended env s work begun commit t)
    (hphase : s.phase = .finalizing work begun commit) (hs : PatternsKept atStart s) :
    PatternsKept atStart t := by
  have hcommit := hs.commit
  rw [hphase] at hcommit
  have hinstalled : ∀ (reply : TransactionReply) (runtime : AppRuntime globs),
      commit.outcome = .committed → runtime.settings = commit.settings →
        PatternsKept atStart ({ s with runtime }.answer work reply) := by
    intro reply runtime houtcome hsettings
    refine ⟨fun _ => ?_, ?_⟩
    · rw [answer_runtime, hsettings]
      exact hcommit houtcome
    · rw [answer_phase]
      trivial
  cases h with
  | unchanged outcome =>
    exact PatternsKept.answer (s := { s with runtime := s.runtime.release })
      ⟨hs.settings, hs.commit⟩ work _
  | committed outcome app happ => exact hinstalled _ _ outcome rfl
  | torn outcome error happ => exact hinstalled _ _ outcome rfl

theorem Stepped.patternsKept {event : SettingsEvent} (h : Stepped env s event t)
    (hsound : Sound env s) (hs : PatternsKept atStart s) : PatternsKept atStart t := by
  have hphase' := hsound.phase
  cases h with
  | terminal event => exact hs.of_sameService (sameService_terminal s _)
  | submitted mutation expectedRevision => exact ⟨hs.settings, hs.commit⟩
  | saveSubmitted index draft hsave => exact ⟨hs.settings, hs.commit⟩
  | received work queue hphase hqueue => exact ⟨hs.settings, trivial⟩
  | withdrawn message work hphase => exact hs.answer work _
  | refused work error hphase hcheck => exact hs.answer work _
  | begun work hphase hcheck => exact ⟨hs.settings, trivial⟩
  | rejected work begun error hphase hprepare => exact ⟨hs.settings, trivial⟩
  | unchanged work begun candidate hphase hprepare heffect =>
    exact ⟨hs.settings, fun houtcome => by cases houtcome⟩
  | prepared work begun candidate hphase hprepare heffect => exact ⟨hs.settings, trivial⟩
  | failed failure work begun hphase => exact ⟨hs.settings, trivial⟩
  | persisted work begun candidate hphase =>
    rw [hphase] at hphase'
    obtain ⟨-, heffect, hcandidate⟩ := hphase'
    exact ⟨hs.settings, fun _ => (hcandidate.policy heffect).1⟩
  | finalized work begun commit hphase =>
    rw [hphase] at hphase'
    exact (finalizeTransaction_ended hphase'.1 hphase'.2).patternsKept hphase hs
  | aborted work begun error hphase =>
    rw [hphase] at hphase'
    rw [abortTransaction_eq hphase']
    exact PatternsKept.answer (s := { s with runtime := s.runtime.release })
      ⟨hs.settings, hs.commit⟩ work _
  | completed index reply hreply => exact ⟨hs.settings, hs.commit⟩
  | readSettings => exact hs
  | readPreview expectedRevision => exact hs

theorem patternsKept_of_run {context : SettingsUiContext} {settings : AppSettings}
    {events : List SettingsEvent}
    (hrun : run (step env) (start env globs context settings) events = some s) :
    PatternsKept (PatternsCompile globs settings) s := by
  have hstart : PatternsKept (PatternsCompile globs settings) (start env globs context settings) :=
    ⟨fun h => h.resolve_right fun hne => hne rfl, trivial⟩
  refine (run_invariant (I := fun s => Sound env s ∧ PatternsKept (PatternsCompile globs settings) s)
    (fun s event t hs h => ?_) ⟨sound_start context settings, hstart⟩ hrun).2
  exact ⟨sound_of_step event hs.1 h, (stepped_of_step h).patternsKept hs.1 hs.2⟩

end SettingsSystem

/-! ## A sample of the YAML library -/

/-- What is stored, with nothing but its place. -/
inductive Stored
  | settings (settings : AppSettings)
  | prefilter (settings : RecordingPrefilterSettings)
  | pattern (settings : RecordingPrefilterPatternSettings)

def Stored.asPattern? : Stored → Option RecordingPrefilterPatternSettings
  | .pattern value => some value
  | _ => none

def AppSettings.withPrefilter (settings : AppSettings) (prefilter : RecordingPrefilterSettings) :
    AppSettings :=
  { settings with recording := { settings.recording with prefilter } }

def Stored.withPatterns : Stored → List Stored → Stored
  | .settings stored, values =>
    .settings (stored.withPrefilter
      { stored.recording.prefilter with
        includeUrlPatterns := values.filterMap asPattern? })
  | value, _ => value

theorem Stored.withPatterns_self (settings : AppSettings) :
    withPatterns (.settings settings)
      (settings.recording.prefilter.includeUrlPatterns.map .pattern) = .settings settings := by
  have hpatterns : ∀ patterns : List RecordingPrefilterPatternSettings,
      (patterns.map pattern).filterMap asPattern? = patterns := by
    intro patterns
    rw [List.filterMap_map]
    exact (List.filterMap_congr fun _ _ => rfl).trans List.filterMap_some
  rw [withPatterns, hpatterns]
  rfl

def sampleYaml : SettingsYaml where
  Value := Stored
  patterns
    | .settings settings =>
      some (settings.recording.prefilter.includeUrlPatterns.map .pattern)
    | _ => none
  withPatterns := Stored.withPatterns
  prefilter
    | .settings settings => some (.prefilter settings.recording.prefilter)
    | _ => none
  withPrefilter
    | .settings settings, .prefilter prefilter => .settings (settings.withPrefilter prefilter)
    | value, _ => value
  readPattern
    | .pattern settings => .ok settings
    | _ => .error "no pattern"
  readPrefilter
    | .prefilter settings => .ok settings
    | _ => .error "no filter"
  readSettings
    | .settings settings =>
      if settings.server.port < 65536 then .ok settings else .error "no port"
    | _ => .error "no settings"
  writePattern := .pattern
  writePrefilter := .prefilter
  writeSettings := .settings
  withPatterns_self
    | .settings settings, _, h =>
      Option.some.inj h ▸ Stored.withPatterns_self settings
  readPattern_write _ := rfl
  readSettings_write _ h := if_pos h
  patterns_write _ _ h := (Option.some.inj h).symm

/-! ## Unrelated settings -/

/-- A pattern that is no glob can be loaded, and with it in force the proxy cannot be
switched on. -/
theorem brokenPatterns_close (yaml : SettingsYaml) :
    RuntimeHolds sampleEnvironment sampleGlobset yaml brokenPatterns ∧
      ¬ Gates sampleEnvironment sampleGlobset brokenPatterns True True := by
  refine ⟨runtimeHolds_of_port yaml (by decide), fun hgates => ?_⟩
  have hcompiles := (hgates.mutation (.setGlobalEnabled true) _ _ rfl rfl).2 trivial
  rw [compiles_iff] at hcompiles
  revert hcompiles
  decide

/-- Whatever settings a runtime holds: a mutation that changes something passes the
compilation if and only if the patterns in force do, an unrelated draft as well, and
the draft is valid if and only if the proxy section is.  Patterns that do not compile
can only come from the loader: they are gone after the first commit. -/
theorem unrelated_settings_gates {context : SettingsUiContext} {settings : AppSettings}
    {events : List SettingsEvent} {s : SettingsSystem globs}
    (hrun : run (SettingsSystem.step env) (.start env globs context settings) events = some s) :
    Gates env globs s.runtime.settings (PatternsCompile globs s.runtime.settings)
      (∀ proxy, s.runtime.settings.proxy = some proxy → SectionValid env proxy) ∧
    (PatternsCompile globs settings ∨ s.runtime.settingsRevision ≠ initialRevision →
      PatternsCompile globs s.runtime.settings) :=
  ⟨gates env globs s.runtime.settings, (SettingsSystem.patternsKept_of_run hrun).settings⟩

theorem unrelated_settings_gates_sample :
    Gates sampleEnvironment sampleGlobset brokenPatterns False True := by
  obtain ⟨hgates, -⟩ :=
    (@unrelated_settings_gates _ sampleGlobset sampleContext brokenPatterns []) rfl
  have hpatterns : PatternsCompile sampleGlobset brokenPatterns ↔ False := by decide
  have hvalid : (∀ proxy, brokenPatterns.proxy = some proxy →
      SectionValid sampleEnvironment proxy) ↔ True :=
    iff_true_intro (validateSettings_eq_ok.1 (by decide)).2
  rw [← propext hpatterns, ← propext hvalid]
  exact hgates

theorem broken_patterns_block_mutations :
    ¬ ∀ (env : Environment) (globs : Globset) (yaml : SettingsYaml) (settings : AppSettings),
      RuntimeHolds env globs yaml settings → Gates env globs settings True True := by
  intro h
  have hclose := brokenPatterns_close sampleYaml
  exact hclose.2 (h _ _ _ _ hclose.1)

end Fluxcope.Settings
