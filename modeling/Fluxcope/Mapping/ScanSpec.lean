import Mathlib.Data.List.ReduceOption
import Fluxcope.Mapping.CompileSpec
/-!
# The engine as a linear scan

Which rule a request gets, said about the settings alone: the last enabled valid
rule of the active preset for the path of the request, or else the last one for
its origin.
-/

namespace Fluxcope.Mapping

open Fluxcope.Library Fluxcope.Settings

/-! ## The rules that count -/

/-- The active preset: the first one with the name, which is not empty. -/
structure IsActive (proxy : ProxySettings) (index : Nat) (preset : ProxyPresetSettings) : Prop
    where
  named : proxy.activeName ≠ []
  get : proxy.presets[index]? = some preset
  name : preset.name.trim = proxy.activeName
  first : ∀ j other, j < index → proxy.presets[j]? = some other →
    other.name.trim ≠ proxy.activeName

/-- The located rule stands in the settings, and everything it depends on is on. -/
structure Contributes {T : Type} (env : Environment) (compiler : RuleCompiler T)
    (proxy : Option ProxySettings) (pattern : RulePattern) (located : LocatedTarget T) : Prop
    where
  table : located.location.table = compiler.table
  rule : ∃ settings preset rule, proxy = some settings ∧ settings.enable = true ∧
    IsActive settings located.location.presetIndex preset ∧
    (preset.table compiler.table).enable = true ∧
    (preset.table compiler.table).rules[located.location.ruleIndex]? = some rule ∧
    rule.enable = true ∧ parseRuleUrl env rule.source = .ok pattern ∧
    compiler.parseTarget rule.target = .ok located.target

/-- The last rule with this pattern. -/
def IsLast {T : Type} (env : Environment) (compiler : RuleCompiler T)
    (proxy : Option ProxySettings) (pattern : RulePattern) (located : LocatedTarget T) : Prop :=
  Contributes env compiler proxy pattern located ∧
    ∀ other, Contributes env compiler proxy pattern other →
      other.location.ruleIndex ≤ located.location.ruleIndex

/-- What a scan over the rules returns for a request. -/
def Scanned {T : Type} (env : Environment) (compiler : RuleCompiler T)
    (proxy : Option ProxySettings) (request : RequestUrl env) :
    Option (LocatedTarget T) → Prop
  | some located =>
    IsLast env compiler proxy { origin := request.origin, path := some request.path } located ∨
      (∀ other, ¬ Contributes env compiler proxy
        { origin := request.origin, path := some request.path } other) ∧
      IsLast env compiler proxy { origin := request.origin, path := none } located
  | none => ∀ other,
      ¬ Contributes env compiler proxy
        { origin := request.origin, path := some request.path } other ∧
      ¬ Contributes env compiler proxy { origin := request.origin, path := none } other

variable {env : Environment} {T : Type} {compiler : RuleCompiler T}

/-! ## The active preset -/

theorem IsActive.unique {proxy : ProxySettings} {i j : Nat} {preset other : ProxyPresetSettings}
    (h : IsActive proxy i preset) (h' : IsActive proxy j other) : i = j ∧ preset = other := by
  have hindex : i = j := by
    rcases Nat.lt_trichotomy i j with hlt | heq | hgt
    · exact absurd h.name (h'.first i preset hlt h.get)
    · exact heq
    · exact absurd h'.name (h.first j other hgt h'.get)
  subst hindex
  exact ⟨rfl, Option.some.inj (h.get.symm.trans h'.get)⟩

theorem findPreset_eq_some_iff {proxy : ProxySettings} {name : Text} {index : Nat}
    {preset : ProxyPresetSettings} :
    findPreset proxy name = some (index, preset) ↔
      proxy.presets[index]? = some preset ∧ preset.name.trim = name ∧
        ∀ j other, j < index → proxy.presets[j]? = some other → other.name.trim ≠ name := by
  unfold findPreset
  constructor
  · intro h
    obtain ⟨⟨found, position⟩, hfind, heq⟩ := Option.map_eq_some_iff.1 h
    obtain ⟨rfl, rfl⟩ := Prod.mk.inj heq
    obtain ⟨hname, i, hi, hget, hbefore⟩ := List.find?_eq_some_iff_getElem.1 hfind
    rw [List.length_zipIdx] at hi
    rw [List.getElem_zipIdx, Nat.zero_add] at hget
    obtain ⟨rfl, rfl⟩ := Prod.mk.inj hget
    refine ⟨List.getElem?_eq_getElem hi, of_decide_eq_true hname, fun j other hj hother => ?_⟩
    obtain ⟨hlt, rfl⟩ := List.getElem?_eq_some_iff.1 hother
    have hmiss := hbefore j hj
    rw [List.getElem_zipIdx] at hmiss
    simpa using hmiss
  · rintro ⟨hget, hname, hfirst⟩
    obtain ⟨hlt, rfl⟩ := List.getElem?_eq_some_iff.1 hget
    refine Option.map_eq_some_iff.2 ⟨(proxy.presets[index], index), ?_, rfl⟩
    refine List.find?_eq_some_iff_getElem.2 ⟨decide_eq_true hname, index, ?_, ?_, ?_⟩
    · rw [List.length_zipIdx]
      exact hlt
    · rw [List.getElem_zipIdx, Nat.zero_add]
    · intro j hj
      have hmiss := hfirst j _ hj (List.getElem?_eq_getElem (hj.trans hlt))
      rw [List.getElem_zipIdx]
      simpa using hmiss

theorem activePreset_eq_some_iff {proxy : ProxySettings} {index : Nat}
    {preset : ProxyPresetSettings} :
    (activePreset proxy).1 = some (index, preset) ↔ IsActive proxy index preset := by
  unfold activePreset activePresetDiagnostic
  by_cases hname : proxy.activeName = []
  · have hinactive : ¬ IsActive proxy index preset := fun h => h.named hname
    by_cases hpresets : proxy.presets ≠ [] <;> simp [hname, hpresets, hinactive]
  · simp only [hname, if_false]
    by_cases hany : (proxy.presets.any fun preset => preset.name.trim = proxy.activeName) = true
    · simp only [hany, if_true]
      rw [findPreset_eq_some_iff]
      constructor
      · rintro ⟨hget, hpreset, hfirst⟩
        exact ⟨hname, hget, hpreset, hfirst⟩
      · intro h
        exact ⟨h.get, h.name, h.first⟩
    · simp only [hany, Bool.false_eq_true, if_false, reduceCtorEq, false_iff]
      intro h
      exact hany (List.any_eq_true.2
        ⟨preset, List.mem_of_getElem? h.get, decide_eq_true h.name⟩)

/-! ## The rules of the engine -/

/-- The enabled valid rules of the active preset, if the tables are in use. -/
def RuleCompiler.liveEntries (env : Environment) (compiler : RuleCompiler T)
    (proxy : Option ProxySettings) : List (RulePattern × LocatedTarget T) :=
  match proxy with
  | none => []
  | some settings =>
    if !settings.enable then []
    else
      match (activePreset settings).1 with
      | none => []
      | some (index, preset) =>
        if (preset.table compiler.table).enable then
          compiler.ruleEntries env index (preset.table compiler.table).rules
        else []

theorem RuleCompiler.mem_liveEntries {proxy : Option ProxySettings} {pattern : RulePattern}
    {located : LocatedTarget T} :
    (pattern, located) ∈ compiler.liveEntries env proxy ↔
      Contributes env compiler proxy pattern located := by
  unfold liveEntries
  constructor
  · intro h
    split at h
    · cases h
    · rename_i settings
      split at h
      · cases h
      · rename_i henable
        split at h
        · cases h
        · rename_i index preset hactive
          split at h
          · rename_i htable
            obtain ⟨rfl, hlocation, rule, hrule⟩ := mem_ruleEntries.1 h
            exact ⟨hlocation, settings, preset, rule, rfl, by simpa using henable,
              activePreset_eq_some_iff.1 hactive, htable, hrule⟩
          · cases h
  · rintro ⟨hlocation, settings, preset, rule, rfl, henable, hactive, htable, hrule⟩
    simp only [henable, activePreset_eq_some_iff.2 hactive, htable]
    exact mem_ruleEntries.2 ⟨rfl, hlocation, rule, hrule⟩

theorem RuleCompiler.sorted_liveEntries (proxy : Option ProxySettings) :
    (compiler.liveEntries env proxy).Pairwise fun e e' =>
      e.2.location.ruleIndex < e'.2.location.ruleIndex := by
  unfold liveEntries
  split
  · exact .nil
  · split
    · exact .nil
    · split
      · exact .nil
      · split
        · exact sorted_ruleEntries _ _
        · exact .nil

theorem lastOf_liveEntries {proxy : Option ProxySettings} {pattern : RulePattern}
    {located : LocatedTarget T} :
    lastOf (compiler.liveEntries env proxy) pattern = some located ↔
      IsLast env compiler proxy pattern located := by
  rw [@lastOf_eq_some_iff_max _ _ _ _
    (fun located : LocatedTarget T => located.location.ruleIndex)
    (RuleCompiler.sorted_liveEntries proxy)]
  simp only [RuleCompiler.mem_liveEntries]
  rfl

theorem lastOf_liveEntries_none {proxy : Option ProxySettings} {pattern : RulePattern} :
    lastOf (compiler.liveEntries env proxy) pattern = none ↔
      ∀ other, ¬ Contributes env compiler proxy pattern other := by
  rw [lastOf_eq_none_iff]
  constructor
  · intro h other hother
    exact h _ (RuleCompiler.mem_liveEntries.2 hother) rfl
  · rintro h ⟨pattern', other⟩ hentry rfl
    exact h other (RuleCompiler.mem_liveEntries.1 hentry)

theorem scanned_matchTarget {proxy : Option ProxySettings}
    {rules : CompiledRules (LocatedTarget T)}
    (hrules : ∀ pattern, rules.entry pattern = lastOf (compiler.liveEntries env proxy) pattern)
    (request : RequestUrl env) : Scanned env compiler proxy request (rules.matchTarget request) := by
  rw [CompiledRules.matchTarget_eq, hrules, hrules]
  cases hpath : lastOf (compiler.liveEntries env proxy)
      { origin := request.origin, path := some request.path } with
  | some located => exact .inl (lastOf_liveEntries.1 hpath)
  | none =>
    have hnone := lastOf_liveEntries_none.1 hpath
    rw [Option.none_or]
    cases hhost : lastOf (compiler.liveEntries env proxy)
        { origin := request.origin, path := none } with
    | some located => exact .inr ⟨hnone, lastOf_liveEntries.1 hhost⟩
    | none => exact fun other => ⟨hnone other, lastOf_liveEntries_none.1 hhost other⟩

theorem entry_compile (proxy : Option ProxySettings) :
    (∀ pattern, (MappingEngine.compile env proxy).remoteRules.entry pattern =
      lastOf ((remoteCompiler env).liveEntries env proxy) pattern) ∧
    ∀ pattern, (MappingEngine.compile env proxy).localRules.entry pattern =
      lastOf ((localCompiler env).liveEntries env proxy) pattern := by
  cases proxy with
  | none => exact ⟨fun _ => rfl, fun _ => rfl⟩
  | some settings =>
    cases henable : settings.enable with
    | false =>
      rw [compile_disabled henable]
      simp only [RuleCompiler.liveEntries, henable]
      exact ⟨fun _ => rfl, fun _ => rfl⟩
    | true =>
      rcases hactive : activePreset settings with ⟨_ | ⟨index, preset⟩, diagnostics⟩
      · rw [compile_inactive henable hactive]
        simp only [RuleCompiler.liveEntries, henable, hactive]
        exact ⟨fun _ => rfl, fun _ => rfl⟩
      · obtain ⟨remote, localFiles, rfl, rfl, hcompile⟩ := compile_active henable hactive
        rw [hcompile]
        simp only [RuleCompiler.liveEntries, henable, hactive]
        exact ⟨RuleCompiler.entry_compileTable index preset.mapRemote _,
          RuleCompiler.entry_compileTable index preset.mapLocal _⟩

/-! ## Requests -/

/-- What the rules are looked up under: an HTTP URL with its host and its port, the port of
the scheme if it names none, and its path.  Letter case does not count in scheme and host. -/
structure RequestUrl.Keyed (request : RequestUrl env) : Prop where
  http : isHttp (env.scheme request.url) = true
  scheme : request.origin.scheme = (env.scheme request.url).toAsciiLowercase
  host : ∃ host, env.hostStr request.url = some host ∧
    request.origin.host = host.toAsciiLowercase
  port : env.portOrKnownDefault request.url = some request.origin.port
  path : request.path = env.path request.url

theorem RequestUrl.keyed_of_fromUrl {url : env.Url} {request : RequestUrl env}
    (h : fromUrl url = some request) : request.url = url ∧ request.Keyed := by
  unfold fromUrl OriginKey.fromUrl at h
  split at h
  · cases h
  · rename_i hchecked
    have hhttp : isHttp (env.scheme url) = true := by
      by_contra hnot
      exact hchecked (by simp [hnot])
    cases hhost : env.hostStr url with
    | none => simp [hhost] at h
    | some host =>
      cases hport : env.portOrKnownDefault url with
      | none => simp [hhost, hport] at h
      | some port =>
        simp only [hhost, hport] at h
        cases h
        exact ⟨rfl, hhttp, rfl, ⟨host, hhost, rfl⟩, hport, rfl⟩

theorem RequestUrl.keyed_of_fromUri {uri : env.Uri} {request : RequestUrl env}
    (h : fromUri uri = some request) :
    env.parse (env.uriToString uri) = .ok request.url ∧ request.Keyed := by
  unfold fromUri at h
  cases hparse : env.parse (env.uriToString uri) with
  | error error =>
    rw [hparse] at h
    cases h
  | ok url =>
    rw [hparse] at h
    obtain ⟨rfl, hkeyed⟩ := keyed_of_fromUrl h
    exact ⟨rfl, hkeyed⟩

/-- The URL the local rules are looked up for: the mapped one, if there is one. -/
def localRequest (original : RequestUrl env) (remote : Option (LocatedTarget RemoteTarget)) :
    Option (RequestUrl env) :=
  match remote with
  | some matched => RequestUrl.fromUrl (matched.target.applyTo original.url)
  | none => some original

theorem keyed_localRequest {original request : RequestUrl env}
    {remote : Option (LocatedTarget RemoteTarget)} (hkeyed : original.Keyed)
    (h : localRequest original remote = some request) : request.Keyed := by
  cases remote with
  | none =>
    cases h
    exact hkeyed
  | some matched => exact (RequestUrl.keyed_of_fromUrl h).2

/-- What a request gets, by two scans. -/
structure ScannedRequest (env : Environment) (proxy : Option ProxySettings)
    (original : RequestUrl env) (remote : Option (LocatedTarget RemoteTarget))
    (localFile : Option (LocatedTarget PathBuf)) : Prop where
  remoteScan : Scanned env (remoteCompiler env) proxy original remote
  localScan : match localRequest original remote with
    | some request => request.Keyed ∧ Scanned env (localCompiler env) proxy request localFile
    | none => localFile = none

namespace MappingEngine

variable {engine : MappingEngine}

/-- Without rules nothing is found, so the shortcut changes nothing. -/
theorem shortcut_bind (rules : CompiledRules T) (request : Option (RequestUrl env)) :
    (if rules.isEmpty then none else request.bind fun request => rules.matchTarget request) =
      request.bind fun request => rules.matchTarget request := by
  by_cases hempty : rules.isEmpty = true
  · rw [if_pos hempty]
    cases request with
    | none => rfl
    | some request => exact (CompiledRules.matchTarget_of_isEmpty hempty request).symm
  · rw [if_neg hempty]

theorem traceRequest_eq {uri : env.Uri} {original : RequestUrl env}
    (horiginal : RequestUrl.fromUri uri = some original)
    {remote : Option (LocatedTarget RemoteTarget)}
    (hremote : engine.remoteRules.matchTarget original = remote) :
    engine.traceRequest uri =
      { localPath := ((localRequest original remote).bind fun request =>
          engine.localRules.matchTarget request).map (·.target)
        effectiveUri := env.parseUri (env.asStr
          ((remote.map fun matched => matched.target.applyTo original.url).getD original.url))
        remoteMatch := remote.map (·.location)
        localMatch := ((localRequest original remote).bind fun request =>
          engine.localRules.matchTarget request).map (·.location) } := by
  unfold traceRequest
  simp only [horiginal, hremote]
  cases remote with
  | none =>
    have hlocal := shortcut_bind engine.localRules (some original)
    simp only [Option.bind_some] at hlocal
    simp only [Option.map_none, hlocal, localRequest, Option.bind_some]
  | some matched => simp only [Option.map_some, shortcut_bind, localRequest]

theorem mapRequest_eq {uri : env.Uri} {original : RequestUrl env}
    (horiginal : RequestUrl.fromUri uri = some original)
    {remote : Option (LocatedTarget RemoteTarget)}
    (hremote : engine.remoteRules.matchTarget original = remote) :
    engine.mapRequest uri =
      { mappedUri := remote.bind fun matched =>
          env.parseUri (env.asStr (matched.target.applyTo original.url))
        localPath := ((localRequest original remote).bind fun request =>
          engine.localRules.matchTarget request).map (·.target) } := by
  unfold mapRequest
  simp only [horiginal, hremote]
  by_cases hempty : (engine.remoteRules.isEmpty && engine.localRules.isEmpty) = true
  · obtain ⟨hnoRemote, hnoLocal⟩ := Bool.and_eq_true_iff.1 hempty
    rw [CompiledRules.matchTarget_of_isEmpty hnoRemote] at hremote
    subst hremote
    rw [if_pos hempty]
    simp [localRequest, CompiledRules.matchTarget_of_isEmpty hnoLocal]
  · rw [if_neg hempty]
    cases remote with
    | none =>
      have hlocal := shortcut_bind engine.localRules (some original)
      simp only [Option.bind_some] at hlocal
      simp only [Option.map_none, hlocal, localRequest, Option.bind_some, Option.bind_none]
    | some matched => simp only [Option.map_some, shortcut_bind, localRequest, Option.bind_some]

end MappingEngine

/-- For every request the engine finds what the scans find under the scheme, host, port and
path of its URL. -/
theorem engine_refines_scan (env : Environment) (proxy : Option ProxySettings) (uri : env.Uri) :
    match (RequestUrl.fromUri uri : Option (RequestUrl env)) with
    | none =>
      (MappingEngine.compile env proxy).traceRequest uri = {} ∧
        (MappingEngine.compile env proxy).mapRequest uri = {}
    | some original =>
      (env.parse (env.uriToString uri) = .ok original.url ∧ original.Keyed) ∧
      ∃ remote localFile, ScannedRequest env proxy original remote localFile ∧
        (MappingEngine.compile env proxy).traceRequest uri =
          { localPath := localFile.map (·.target)
            effectiveUri := env.parseUri (env.asStr
              ((remote.map fun matched => matched.target.applyTo original.url).getD original.url))
            remoteMatch := remote.map (·.location)
            localMatch := localFile.map (·.location) } ∧
        (MappingEngine.compile env proxy).mapRequest uri =
          { mappedUri := remote.bind fun matched =>
              env.parseUri (env.asStr (matched.target.applyTo original.url))
            localPath := localFile.map (·.target) } := by
  cases horiginal : RequestUrl.fromUri uri with
  | none =>
    refine ⟨by simp only [MappingEngine.traceRequest, horiginal], ?_⟩
    simp only [MappingEngine.mapRequest, horiginal, ite_self]
  | some original =>
    obtain ⟨hremote, hlocal⟩ := @entry_compile env proxy
    have hkeyed := RequestUrl.keyed_of_fromUri horiginal
    refine ⟨hkeyed, _, _, ⟨scanned_matchTarget hremote original, ?_⟩,
      MappingEngine.traceRequest_eq horiginal rfl, MappingEngine.mapRequest_eq horiginal rfl⟩
    cases hrequest : localRequest original
        ((MappingEngine.compile env proxy).remoteRules.matchTarget original) with
    | none => rfl
    | some request => exact ⟨keyed_localRequest hkeyed.2 hrequest, scanned_matchTarget hlocal request⟩

/-- The mapping of a request is read off its trace. -/
theorem MappingEngine.mapRequest_trace (engine : MappingEngine) (uri : env.Uri) :
    (engine.mapRequest uri).localPath = (engine.traceRequest uri).localPath ∧
      ((engine.traceRequest uri).remoteMatch = none → (engine.mapRequest uri).mappedUri = none) ∧
      ((engine.traceRequest uri).remoteMatch ≠ none →
        (engine.mapRequest uri).mappedUri = (engine.traceRequest uri).effectiveUri) := by
  cases horiginal : RequestUrl.fromUri uri with
  | none =>
    have htrace : engine.traceRequest uri = {} := by
      simp only [MappingEngine.traceRequest, horiginal]
    have hmap : engine.mapRequest uri = {} := by
      simp only [MappingEngine.mapRequest, horiginal, ite_self]
    rw [htrace, hmap]
    exact ⟨rfl, fun _ => rfl, fun _ => rfl⟩
  | some original =>
    rw [MappingEngine.traceRequest_eq horiginal rfl, MappingEngine.mapRequest_eq horiginal rfl]
    refine ⟨rfl, fun hnone => ?_, fun hsome => ?_⟩
    · rw [Option.map_eq_none_iff.1 hnone, Option.bind_none]
    · cases hremote : engine.remoteRules.matchTarget original with
      | none => rw [hremote] at hsome; exact absurd rfl hsome
      | some matched => rfl

/-- What the proxy does with a request is what the trace of the request says. -/
theorem map_agrees_with_trace (engine : MappingEngine) (uri : env.Uri) :
    (engine.mapRequest uri).localPath = (engine.traceRequest uri).localPath ∧
      ((engine.traceRequest uri).remoteMatch = none → (engine.mapRequest uri).mappedUri = none) ∧
      ((engine.traceRequest uri).remoteMatch ≠ none →
        (engine.mapRequest uri).mappedUri = (engine.traceRequest uri).effectiveUri) ∧
      ∀ original, RequestUrl.fromUri uri = some original →
        ∃ request : Option (RequestUrl env),
          request = localRequest original (engine.remoteRules.matchTarget original) ∧
          (engine.mapRequest uri).localPath =
            (request.bind fun request => engine.localRules.matchTarget request).map (·.target) ∧
          (engine.traceRequest uri).localMatch =
            (request.bind fun request => engine.localRules.matchTarget request).map (·.location) := by
  obtain ⟨hlocal, hnone, hsome⟩ := engine.mapRequest_trace uri
  refine ⟨hlocal, hnone, hsome, fun original horiginal => ?_⟩
  rw [MappingEngine.traceRequest_eq horiginal rfl, MappingEngine.mapRequest_eq horiginal rfl]
  exact ⟨_, rfl, rfl, rfl⟩

/-! ## Where the matches stand -/

theorem Scanned.location {proxy : Option ProxySettings} {request : RequestUrl env}
    {located : LocatedTarget T} (h : Scanned env compiler proxy request (some located)) :
    ∃ settings preset, proxy = some settings ∧
      settings.presets[located.location.presetIndex]? = some preset := by
  have hlast : ∃ pattern, IsLast env compiler proxy pattern located := by
    rcases h with h | ⟨-, h⟩
    · exact ⟨_, h⟩
    · exact ⟨_, h⟩
  obtain ⟨pattern, hcontributes, -⟩ := hlast
  obtain ⟨settings, preset, rule, hproxy, -, hactive, -⟩ := hcontributes.rule
  exact ⟨settings, preset, hproxy, hactive.get⟩

/-- A match of the compiled engine names a preset that is there. -/
theorem trace_located (env : Environment) (proxy : Option ProxySettings) (uri : env.Uri)
    (location : MappingRuleLocation)
    (h : location ∈ [((MappingEngine.compile env proxy).traceRequest uri).remoteMatch,
      ((MappingEngine.compile env proxy).traceRequest uri).localMatch].reduceOption) :
    ∃ settings preset, proxy = some settings ∧
      settings.presets[location.presetIndex]? = some preset := by
  cases horiginal : RequestUrl.fromUri uri with
  | none =>
    have htrace : (MappingEngine.compile env proxy).traceRequest uri = {} := by
      simp only [MappingEngine.traceRequest, horiginal]
    rw [htrace] at h
    cases h
  | some original =>
    obtain ⟨hremote, hlocal⟩ := @entry_compile env proxy
    rw [MappingEngine.traceRequest_eq horiginal rfl] at h
    have hcases : ∀ {first second : Option MappingRuleLocation},
        location ∈ [first, second].reduceOption → first = some location ∨ second = some location := by
      intro first second hmem
      have hmem := List.reduceOption_mem_iff.1 hmem
      simpa [eq_comm] using hmem
    rcases hcases h with hmatch | hmatch
    · obtain ⟨located, hlocated, rfl⟩ := Option.map_eq_some_iff.1 hmatch
      have hscan := scanned_matchTarget hremote original
      rw [hlocated] at hscan
      exact hscan.location
    · obtain ⟨located, hlocated, rfl⟩ := Option.map_eq_some_iff.1 hmatch
      obtain ⟨request, -, hfound⟩ := Option.bind_eq_some_iff.1 hlocated
      have hscan := scanned_matchTarget hlocal request
      rw [hfound] at hscan
      exact hscan.location

end Fluxcope.Mapping
