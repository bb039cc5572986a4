import Fluxcope.Mapping.ScanSpec
import Fluxcope.Mapping.Validation
/-!
# Validation covers compilation

The diagnostics of a validation are one list, of which the collector returns
the first ones.  Every rule the compiler skips is in that list.
-/

namespace Fluxcope.Mapping

open Fluxcope.Library Fluxcope.Settings

/-! ## The collector -/

namespace DiagnosticCollector

def pushAll (collector : DiagnosticCollector) (diagnostics : List MappingDiagnostic) :
    DiagnosticCollector :=
  diagnostics.foldl push collector

theorem pushAll_append (collector : DiagnosticCollector)
    (diagnostics more : List MappingDiagnostic) :
    collector.pushAll (diagnostics ++ more) = (collector.pushAll diagnostics).pushAll more :=
  List.foldl_append

/-- The collector has seen these diagnostics. -/
structure Collected (collector : DiagnosticCollector) (all : List MappingDiagnostic) : Prop where
  diagnostics : collector.diagnostics = all.take collector.limit
  total : collector.total = all.length

theorem collected_new (limit : Nat) : Collected (new limit) [] := ⟨List.take_nil.symm, rfl⟩

theorem Collected.push {collector : DiagnosticCollector} {all : List MappingDiagnostic}
    (h : Collected collector all) (diagnostic : MappingDiagnostic) :
    Collected (collector.push diagnostic) (all ++ [diagnostic]) := by
  refine ⟨?_, ?_⟩
  · show (if collector.diagnostics.length < collector.limit then
        collector.diagnostics ++ [diagnostic] else collector.diagnostics) =
      (all ++ [diagnostic]).take collector.limit
    rw [h.diagnostics, List.length_take]
    by_cases hroom : all.length < collector.limit
    · rw [if_pos (by omega), List.take_of_length_le (Nat.le_of_lt hroom),
        List.take_of_length_le (by rw [List.length_append]; exact hroom)]
    · rw [if_neg (by omega), List.take_append_of_le_length (Nat.le_of_not_lt hroom)]
  · show collector.total + 1 = (all ++ [diagnostic]).length
    rw [h.total, List.length_append]
    rfl

theorem Collected.pushAll {collector : DiagnosticCollector} {all : List MappingDiagnostic}
    (h : Collected collector all) (diagnostics : List MappingDiagnostic) :
    Collected (collector.pushAll diagnostics) (all ++ diagnostics) ∧
      (collector.pushAll diagnostics).limit = collector.limit := by
  induction diagnostics generalizing collector all with
  | nil => exact ⟨by rw [List.append_nil]; exact h, rfl⟩
  | cons diagnostic diagnostics ih =>
    have hrest := ih (h.push diagnostic)
    rw [List.append_assoc] at hrest
    exact hrest

end DiagnosticCollector

/-! ## The diagnostics of a validation -/

section Diagnostics

variable (env : Environment)

def sourceDiagnostics (presetIndex : Nat) (table : MappingTable) (entry : ProxyMapRule × Nat) :
    List MappingDiagnostic :=
  match parseRuleUrl env entry.1.source with
  | .error error =>
    [ruleDiagnostic .error .invalidRuleSource presetIndex table entry.2 .source
      s!"mapping source {error}"]
  | .ok _ => []

def targetDiagnostics (presetIndex : Nat) (table : MappingTable) (entry : ProxyMapRule × Nat) :
    List MappingDiagnostic :=
  match checkTarget env table entry.1.target with
  | .error error =>
    [ruleDiagnostic .error .invalidRuleTarget presetIndex table entry.2 .target
      s!"mapping target {error}"]
  | .ok _ => []

def tableDiagnostics (presetIndex : Nat) (table : MappingTable) (rules : List ProxyMapRule) :
    List MappingDiagnostic :=
  rules.zipIdx.flatMap fun entry =>
    sourceDiagnostics env presetIndex table entry ++ targetDiagnostics env presetIndex table entry

def nameDiagnostics (names : List Text) (preset : ProxyPresetSettings) : List MappingDiagnostic :=
  if preset.name.trim = [] then
    [{ severity := .error
       code := .emptyPresetName
       message := "proxy preset names cannot be empty" }]
  else if preset.name.trim ∈ names then
    let shown := String.ofList preset.name
    [{ severity := .error
       code := .duplicatePresetName
       message := s!"duplicate proxy preset name: {shown}" }]
  else []

/-- The names after a preset has been seen. -/
def addName (names : List Text) (preset : ProxyPresetSettings) : List Text :=
  if preset.name.trim = [] then names
  else if preset.name.trim ∈ names then names
  else preset.name.trim :: names

def presetDiagnostics (names : List Text) (entry : ProxyPresetSettings × Nat) :
    List MappingDiagnostic :=
  nameDiagnostics names entry.1 ++
    (tableDiagnostics env entry.2 .mapRemote entry.1.mapRemote.rules ++
      tableDiagnostics env entry.2 .mapLocal entry.1.mapLocal.rules)

def presetsDiagnostics : List Text → List (ProxyPresetSettings × Nat) → List MappingDiagnostic
  | _, [] => []
  | names, entry :: entries =>
    presetDiagnostics env names entry ++ presetsDiagnostics (addName names entry.1) entries

/-- All diagnostics of a validation. -/
def proxyDiagnostics (proxy : ProxySettings) : List MappingDiagnostic :=
  presetsDiagnostics env [] proxy.presets.zipIdx ++
    (activePresetDiagnostic proxy).toList.map fun diagnostic => { diagnostic with severity := .error }

variable {env}

theorem validateRules_eq (presetIndex : Nat) (table : MappingTable) (rules : List ProxyMapRule)
    (collector : DiagnosticCollector) :
    validateRules env presetIndex table rules collector =
      collector.pushAll (tableDiagnostics env presetIndex table rules) := by
  have hrule : ∀ collector entry, validateRule env presetIndex table collector entry =
      collector.pushAll (sourceDiagnostics env presetIndex table entry ++
        targetDiagnostics env presetIndex table entry) := by
    rintro collector ⟨rule, index⟩
    unfold validateRule sourceDiagnostics targetDiagnostics
    dsimp only
    cases parseRuleUrl env rule.source <;> cases checkTarget env table rule.target <;> rfl
  unfold validateRules tableDiagnostics
  induction rules.zipIdx generalizing collector with
  | nil => rfl
  | cons entry entries ih =>
    rw [List.foldl_cons, ih, hrule, List.flatMap_cons, ← DiagnosticCollector.pushAll_append]

theorem validatePreset_eq (names : List Text) (collector : DiagnosticCollector)
    (entry : ProxyPresetSettings × Nat) :
    validatePreset env (names, collector) entry =
      (addName names entry.1, collector.pushAll (presetDiagnostics env names entry)) := by
  unfold validatePreset presetDiagnostics nameDiagnostics addName
  simp only [validateRules_eq, DiagnosticCollector.pushAll_append]
  split
  · rfl
  · split <;> rfl

theorem validatePresets_eq (entries : List (ProxyPresetSettings × Nat)) (names : List Text)
    (collector : DiagnosticCollector) :
    (entries.foldl (validatePreset env) (names, collector)).2 =
      collector.pushAll (presetsDiagnostics env names entries) := by
  induction entries generalizing names collector with
  | nil => rfl
  | cons entry entries ih =>
    rw [List.foldl_cons, validatePreset_eq, ih, presetsDiagnostics,
      DiagnosticCollector.pushAll_append]

theorem validateProxySettingsCapped_eq (proxy : ProxySettings) (limit : Nat) :
    validateProxySettingsCapped env proxy limit =
      ((proxyDiagnostics env proxy).take limit, (proxyDiagnostics env proxy).length) := by
  have hfinish : validateProxySettingsCapped env proxy limit =
      ((DiagnosticCollector.new limit).pushAll (proxyDiagnostics env proxy)).finish := by
    unfold validateProxySettingsCapped proxyDiagnostics
    rw [DiagnosticCollector.pushAll_append, ← validatePresets_eq]
    cases activePresetDiagnostic proxy <;> rfl
  obtain ⟨⟨hdiagnostics, htotal⟩, hlimit⟩ :=
    (DiagnosticCollector.collected_new limit).pushAll (proxyDiagnostics env proxy)
  rw [List.nil_append] at hdiagnostics htotal
  rw [hfinish, DiagnosticCollector.finish, hdiagnostics, htotal, hlimit]
  rfl

/-! ## Which rules are diagnosed -/

theorem mem_proxyDiagnostics_of_table {proxy : ProxySettings} {index : Nat}
    {preset : ProxyPresetSettings} (hpreset : proxy.presets[index]? = some preset)
    {table : MappingTable} {diagnostic : MappingDiagnostic}
    (h : diagnostic ∈ tableDiagnostics env index table (preset.table table).rules) :
    diagnostic ∈ proxyDiagnostics env proxy := by
  have hpresets : ∀ (entries : List (ProxyPresetSettings × Nat)) (names : List Text),
      (preset, index) ∈ entries → diagnostic ∈ presetsDiagnostics env names entries := by
    intro entries
    induction entries with
    | nil => exact fun _ hmem => absurd hmem List.not_mem_nil
    | cons entry entries ih =>
      intro names hmem
      rw [presetsDiagnostics, List.mem_append]
      rcases List.mem_cons.1 hmem with rfl | hmem
      · left
        refine List.mem_append_right _ ?_
        cases table with
        | mapRemote => exact List.mem_append_left _ h
        | mapLocal => exact List.mem_append_right _ h
      · exact .inr (ih _ hmem)
  exact List.mem_append_left _ (hpresets _ [] (List.mem_zipIdx_iff_getElem?.2 hpreset))

theorem mem_proxyDiagnostics_of_active {proxy : ProxySettings} {diagnostic : MappingDiagnostic}
    (h : activePresetDiagnostic proxy = some diagnostic) :
    { diagnostic with severity := .error } ∈ proxyDiagnostics env proxy := by
  refine List.mem_append_right _ ?_
  rw [h]
  exact List.mem_singleton_self _

theorem source_ok_of_valid {presetIndex : Nat} {table : MappingTable} {rules : List ProxyMapRule}
    (h : tableDiagnostics env presetIndex table rules = []) {index : Nat} {rule : ProxyMapRule}
    (hrule : rules[index]? = some rule) :
    (∃ pattern, parseRuleUrl env rule.source = .ok pattern) ∧
      checkTarget env table rule.target = .ok () := by
  have hnone := List.flatMap_eq_nil_iff.1 h (rule, index) (List.mem_zipIdx_iff_getElem?.2 hrule)
  obtain ⟨hsource, htarget⟩ := List.append_eq_nil_iff.1 hnone
  constructor
  · unfold sourceDiagnostics at hsource
    cases hparse : parseRuleUrl env rule.source with
    | ok pattern => exact ⟨pattern, rfl⟩
    | error error => simp [hparse] at hsource
  · unfold targetDiagnostics at htarget
    cases hparse : checkTarget env table rule.target with
    | ok value => rfl
    | error error => simp [hparse] at htarget

end Diagnostics

/-! ## The diagnostics of a compilation -/

/-- Compiling and validating parse the targets of a table in the same way. -/
def RuleCompiler.Agrees {T : Type} (env : Environment) (compiler : RuleCompiler T) : Prop :=
  ∀ raw, checkTarget env compiler.table raw = (compiler.parseTarget raw).map fun _ => ()

theorem agrees_remote (env : Environment) : (remoteCompiler env).Agrees env := fun _ => rfl

theorem agrees_local (env : Environment) : (localCompiler env).Agrees env := fun _ => rfl

/-- The same problem, with another severity and text. -/
def MappingDiagnostic.SameProblem (d d' : MappingDiagnostic) : Prop :=
  d.code = d'.code ∧ d.location = d'.location

section Compile

variable {env : Environment} {T : Type} {compiler : RuleCompiler T}

theorem compileRule_diagnostics (hagrees : compiler.Agrees env) (presetIndex : Nat)
    (compiled : CompiledRules (LocatedTarget T) × List MappingDiagnostic)
    (entry : ProxyMapRule × Nat) {diagnostic : MappingDiagnostic}
    (h : diagnostic ∈ (compiler.compileRule env presetIndex compiled entry).2) :
    diagnostic ∈ compiled.2 ∨
      ∃ d ∈ sourceDiagnostics env presetIndex compiler.table entry ++
        targetDiagnostics env presetIndex compiler.table entry, d.SameProblem diagnostic := by
  unfold RuleCompiler.compileRule at h
  unfold sourceDiagnostics targetDiagnostics
  rw [hagrees]
  dsimp only at h
  split at h
  · exact .inl h
  · cases hsource : parseRuleUrl env entry.1.source with
    | error error =>
      simp only [hsource] at h
      refine (List.mem_append.1 h).imp_right fun hnew => ?_
      obtain rfl := List.mem_singleton.1 hnew
      exact ⟨_, List.mem_append_left _ (List.mem_singleton_self _), rfl, rfl⟩
    | ok pattern =>
      simp only [hsource] at h
      cases htarget : compiler.parseTarget entry.1.target with
      | error error =>
        simp only [htarget] at h
        refine (List.mem_append.1 h).imp_right fun hnew => ?_
        obtain rfl := List.mem_singleton.1 hnew
        exact ⟨_, List.mem_append_right _ (List.mem_singleton_self _), rfl, rfl⟩
      | ok target =>
        simp only [htarget] at h
        exact .inl h

theorem compileTable_diagnostics (hagrees : compiler.Agrees env) (presetIndex : Nat)
    (table : ProxyMapSettings)
    (compiled : CompiledRules (LocatedTarget T) × List MappingDiagnostic)
    {diagnostic : MappingDiagnostic}
    (h : diagnostic ∈ (compiler.compileTable env presetIndex table compiled).2) :
    diagnostic ∈ compiled.2 ∨
      ∃ d ∈ tableDiagnostics env presetIndex compiler.table table.rules,
        d.SameProblem diagnostic := by
  unfold RuleCompiler.compileTable at h
  split at h
  · unfold RuleCompiler.compileRules at h
    unfold tableDiagnostics
    generalize table.rules.zipIdx = entries at h ⊢
    induction entries generalizing compiled with
    | nil => exact .inl h
    | cons entry entries ih =>
      rw [List.foldl_cons] at h
      rw [List.flatMap_cons]
      rcases ih _ h with hfirst | ⟨d, hd, hsame⟩
      · refine (compileRule_diagnostics hagrees presetIndex compiled entry hfirst).imp_right ?_
        rintro ⟨d, hd, hsame⟩
        exact ⟨d, List.mem_append_left _ hd, hsame⟩
      · exact .inr ⟨d, List.mem_append_right _ hd, hsame⟩
  · exact .inl h

theorem activePreset_snd {settings : ProxySettings} {diagnostic : MappingDiagnostic}
    (h : diagnostic ∈ (activePreset settings).2) :
    activePresetDiagnostic settings = some diagnostic := by
  unfold activePreset at h
  cases hactive : activePresetDiagnostic settings with
  | some found =>
    simp only [hactive] at h
    rw [List.mem_singleton.1 h]
  | none =>
    simp only [hactive] at h
    split at h <;> cases h

/-- Every problem the compiler reports is found by the validation. -/
theorem compile_diagnostics {settings : ProxySettings} {diagnostic : MappingDiagnostic}
    (h : diagnostic ∈ (MappingEngine.compile env (some settings)).diagnostics) :
    ∃ d ∈ proxyDiagnostics env settings, d.SameProblem diagnostic := by
  have hpreset : ∀ d ∈ (activePreset settings).2, ∃ d' ∈ proxyDiagnostics env settings,
      d'.SameProblem d := fun d hd =>
    ⟨_, mem_proxyDiagnostics_of_active (activePreset_snd hd), rfl, rfl⟩
  cases henable : settings.enable with
  | false =>
    rw [compile_disabled henable] at h
    cases h
  | true =>
    rcases hactive : activePreset settings with ⟨_ | ⟨index, preset⟩, diagnostics⟩
    · rw [compile_inactive henable hactive] at h
      exact hpreset diagnostic (by rw [hactive]; exact h)
    · obtain ⟨remote, localFiles, rfl, rfl, hcompile⟩ := compile_active henable hactive
      have hget := (activePreset_eq_some_iff.1 (congrArg Prod.fst hactive)).get
      rw [hcompile] at h
      rcases compileTable_diagnostics (agrees_local env) index preset.mapLocal _ h with
        hrest | ⟨d, hd, hsame⟩
      · rcases compileTable_diagnostics (agrees_remote env) index preset.mapRemote _ hrest with
          hfirst | ⟨d, hd, hsame⟩
        · exact hpreset diagnostic (by rw [hactive]; exact hfirst)
        · exact ⟨d, mem_proxyDiagnostics_of_table hget hd, hsame⟩
      · exact ⟨d, mem_proxyDiagnostics_of_table hget hd, hsame⟩

/-! ## The rules that are installed -/

/-- Each enabled rule is stored under its pattern, if no later rule has the same one. -/
def Installed (env : Environment) (compiler : RuleCompiler T) (presetIndex : Nat)
    (table : ProxyMapSettings) (rules : CompiledRules (LocatedTarget T)) : Prop :=
  ∀ (i : Nat) (rule : ProxyMapRule), table.rules[i]? = some rule → rule.enable = true →
    ∃ pattern target, parseRuleUrl env rule.source = .ok pattern ∧
      compiler.parseTarget rule.target = .ok target ∧
      (rules.entry pattern =
          some { target, location := { presetIndex, table := compiler.table, ruleIndex := i } } ∨
        ∃ j later, i < j ∧ table.rules[j]? = some later ∧ later.enable = true ∧
          parseRuleUrl env later.source = .ok pattern)

theorem IsLast.eq_of_index {proxy : Option ProxySettings} {pattern : RulePattern}
    {located other : LocatedTarget T} (h : IsLast env compiler proxy pattern located)
    (hother : Contributes env compiler proxy pattern other)
    (hindex : located.location.ruleIndex = other.location.ruleIndex) : located = other := by
  obtain ⟨⟨htable, settings, preset, rule, hproxy, -, hactive, -, hrule, -, -, htarget⟩, -⟩ := h
  obtain ⟨htable', settings', preset', rule', hproxy', -, hactive', -, hrule', -, -, htarget'⟩ :=
    hother
  obtain rfl := Option.some.inj (hproxy.symm.trans hproxy')
  obtain ⟨hpreset, rfl⟩ := hactive.unique hactive'
  rw [hindex] at hrule
  obtain rfl := Option.some.inj (hrule.symm.trans hrule')
  have htargets := Except.ok.inj (htarget.symm.trans htarget')
  obtain ⟨target, index, table, ruleIndex⟩ := located
  obtain ⟨target', index', table', ruleIndex'⟩ := other
  simp_all

theorem installed_of_valid (hagrees : compiler.Agrees env) {settings : ProxySettings}
    (henable : settings.enable = true) {index : Nat} {preset : ProxyPresetSettings}
    (hactive : IsActive settings index preset)
    (htable : (preset.table compiler.table).enable = true)
    {rules : CompiledRules (LocatedTarget T)}
    (hrules : ∀ pattern, rules.entry pattern =
      lastOf (compiler.liveEntries env (some settings)) pattern)
    (hvalid : proxyDiagnostics env settings = []) :
    Installed env compiler index (preset.table compiler.table) rules := by
  intro i rule hrule hon
  have htableValid : tableDiagnostics env index compiler.table
      (preset.table compiler.table).rules = [] :=
    List.eq_nil_iff_forall_not_mem.2 fun d hd => by
      have hmem := mem_proxyDiagnostics_of_table hactive.get hd
      rw [hvalid] at hmem
      cases hmem
  obtain ⟨⟨pattern, hpattern⟩, hcheck⟩ := source_ok_of_valid htableValid hrule
  rw [hagrees] at hcheck
  cases htarget : compiler.parseTarget rule.target with
  | error error => rw [htarget] at hcheck; cases hcheck
  | ok target =>
    refine ⟨pattern, target, hpattern, rfl, ?_⟩
    have hcontributes : Contributes env compiler (some settings) pattern
        { target, location := { presetIndex := index, table := compiler.table, ruleIndex := i } } :=
      ⟨rfl, settings, preset, rule, rfl, henable, hactive, htable, hrule, hon, hpattern, htarget⟩
    cases hlast : lastOf (compiler.liveEntries env (some settings)) pattern with
    | none => exact absurd hcontributes (lastOf_liveEntries_none.1 hlast _)
    | some located =>
      have hisLast := lastOf_liveEntries.1 hlast
      rcases Nat.eq_or_lt_of_le (hisLast.2 _ hcontributes) with heq | hlt
      · left
        rw [hrules, hlast, hisLast.eq_of_index hcontributes heq.symm]
      · right
        obtain ⟨-, settings', preset', later, hsame, -, hactive', -, hlater, hon', hparse, -⟩ :=
          hisLast.1
        obtain rfl := Option.some.inj hsame
        obtain ⟨-, rfl⟩ := hactive.unique hactive'
        exact ⟨_, later, hlt, hlater, hon', hparse⟩

/-- A validation with a limit returns the first diagnostics of one list and its
length; every problem the compiler finds is in the list, and if it is empty then
the compiler finds none and installs the rules that are on. -/
theorem validation_covers_compilation (env : Environment) (proxy : ProxySettings) :
    ∃ all : List MappingDiagnostic,
      (∀ limit, validateProxySettingsCapped env proxy limit = (all.take limit, all.length)) ∧
      (∀ diagnostic ∈ (MappingEngine.compile env (some proxy)).diagnostics,
        ∃ d ∈ all, d.SameProblem diagnostic) ∧
      (all = [] → (MappingEngine.compile env (some proxy)).diagnostics = [] ∧
        (proxy.enable = true → ∀ index preset, IsActive proxy index preset →
          (preset.mapRemote.enable = true → Installed env (remoteCompiler env) index
            preset.mapRemote (MappingEngine.compile env (some proxy)).remoteRules) ∧
          (preset.mapLocal.enable = true → Installed env (localCompiler env) index
            preset.mapLocal (MappingEngine.compile env (some proxy)).localRules))) := by
  obtain ⟨hremote, hlocal⟩ := @entry_compile env (some proxy)
  refine ⟨proxyDiagnostics env proxy, validateProxySettingsCapped_eq proxy,
    fun _ => compile_diagnostics, fun hvalid => ⟨?_, fun henable index preset hactive => ?_⟩⟩
  · rw [List.eq_nil_iff_forall_not_mem]
    intro diagnostic hdiagnostic
    obtain ⟨d, hd, -⟩ := compile_diagnostics hdiagnostic
    rw [hvalid] at hd
    cases hd
  · exact ⟨fun htable =>
        installed_of_valid (agrees_remote env) henable hactive htable hremote hvalid,
      fun htable => installed_of_valid (agrees_local env) henable hactive htable hlocal hvalid⟩

end Compile

/-! ## A concrete environment -/

structure SampleUrl where
  scheme : Text
  host : Text
  port : Option Nat := none
  path : Text

/-- The URLs of two hosts. -/
def sampleEnvironment : Environment where
  Url := SampleUrl
  Uri := Text
  parse raw :=
    if raw = "http://a".toList || raw = "http://a/".toList then
      .ok { scheme := "http".toList, host := ['a'], path := ['/'] }
    else if raw = "http://b".toList || raw = "http://b/".toList then
      .ok { scheme := "http".toList, host := ['b'], path := ['/'] }
    else .error "relative URL without a base"
  asStr url := url.scheme ++ "://".toList ++ url.host ++ url.path
  scheme := SampleUrl.scheme
  hasHost _ := true
  hostStr url := some url.host
  port := SampleUrl.port
  portOrKnownDefault url := url.port.or (some 80)
  path := SampleUrl.path
  username _ := []
  password _ := none
  query _ := none
  fragment _ := none
  setScheme url scheme := { url with scheme }
  setHost url host := { url with host := host.getD url.host }
  setPort url port := { url with port }
  setPath url path := { url with path }
  setFragment url _ := url
  uriToString := id
  parseUri := some
  home := none

/-- Everything in these settings is on but the proxy itself. -/
def switchedOff : ProxySettings :=
  { enable := false
    activePreset := some ['p']
    presets := [{
      name := ['p']
      mapRemote := { rules := [{ source := "http://a".toList, target := "http://b".toList }] } }] }

theorem switched_off_not_installed :
    ¬ ∀ (env : Environment) (proxy : ProxySettings),
      validateProxySettingsCapped env proxy 256 = ([], 0) →
        ∀ index preset, IsActive proxy index preset → preset.mapRemote.enable = true →
          Installed env (remoteCompiler env) index preset.mapRemote
            (MappingEngine.compile env (some proxy)).remoteRules := by
  intro h
  have hvalid : validateProxySettingsCapped sampleEnvironment switchedOff 256 = ([], 0) := by decide
  have hactive : IsActive switchedOff 0 switchedOff.presets[0] :=
    ⟨by decide, rfl, by decide, fun j other hj => absurd hj (Nat.not_lt_zero j)⟩
  obtain ⟨pattern, target, -, -, hentry | ⟨j, later, hj, hlater, -⟩⟩ :=
    h sampleEnvironment switchedOff hvalid 0 _ hactive rfl 0 _ rfl rfl
  · rw [compile_disabled rfl] at hentry
    cases hentry
  · obtain ⟨hlt, -⟩ := List.getElem?_eq_some_iff.1 hlater
    exact absurd hlt (Nat.not_lt.2 hj)

end Fluxcope.Mapping
