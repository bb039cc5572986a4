import Fluxcope.Library.Assoc
import Fluxcope.Mapping.Engine
/-!
# What the compiler builds

Compiled rules are a map from patterns to targets in which the last rule wins,
filled with the enabled valid rules of the table.
-/

namespace Fluxcope.Mapping

open Fluxcope.Library Fluxcope.Settings

/-! ## Compiled rules as a map from patterns -/

namespace CompiledRules

variable {T : Type} {env : Environment}

/-- The target stored for exactly this pattern. -/
def entry (rules : CompiledRules T) (pattern : RulePattern) : Option T :=
  (rules.byOrigin.lookup pattern.origin).bind fun originRules =>
    match pattern.path with
    | some path => originRules.pathRules.lookup path
    | none => originRules.hostRule

theorem entry_insert : LawfulInsert (entry (T := T)) insert := by
  rintro rules ⟨origin, path⟩ target ⟨origin', path'⟩
  by_cases horigin : origin = origin'
  · subst horigin
    have hold : ∀ pick : OriginRules T → Option T, pick {} = none →
        pick ((rules.byOrigin.lookup origin).getD {}) =
          (rules.byOrigin.lookup origin).bind pick := by
      intro pick hempty
      cases rules.byOrigin.lookup origin with
      | none => exact hempty
      | some originRules => rfl
    simp only [entry, insert, AList.lookup_insert, Option.bind_some, RulePattern.mk.injEq, true_and]
    cases path with
    | none =>
      cases path' with
      | none => rfl
      | some path' => exact hold (fun originRules => originRules.pathRules.lookup path') rfl
    | some path =>
      cases path' with
      | none => exact hold (fun originRules => originRules.hostRule) rfl
      | some path' =>
        by_cases hpath : path = path'
        · subst hpath
          simp only [AList.lookup_insert, if_true]
        · simp only [AList.lookup_insert_ne (Ne.symm hpath), Option.some.injEq, if_neg hpath]
          exact hold (fun originRules => originRules.pathRules.lookup path') rfl
  · rw [if_neg fun heq => horigin (RulePattern.mk.inj heq).1]
    simp only [entry, insert, AList.lookup_insert_ne (Ne.symm horigin)]

/-- A request finds the rule of its path, or else the rule of its host. -/
theorem matchTarget_eq (rules : CompiledRules T) (request : RequestUrl env) :
    rules.matchTarget request =
      (rules.entry { origin := request.origin, path := some request.path }).or
        (rules.entry { origin := request.origin, path := none }) := by
  unfold matchTarget entry
  cases rules.byOrigin.lookup request.origin <;> rfl

theorem entry_of_isEmpty {rules : CompiledRules T} (h : rules.isEmpty = true)
    (pattern : RulePattern) : rules.entry pattern = none := by
  have hnone : rules.byOrigin = ∅ := AList.ext (List.isEmpty_iff.1 h)
  rw [entry, hnone, AList.lookup_empty, Option.bind_none]

theorem matchTarget_of_isEmpty {rules : CompiledRules T} (h : rules.isEmpty = true)
    (request : RequestUrl env) : rules.matchTarget request = none := by
  rw [matchTarget_eq, entry_of_isEmpty h, entry_of_isEmpty h, Option.none_or]

end CompiledRules

/-! ## One table -/

namespace RuleCompiler

variable {T : Type} (env : Environment) (compiler : RuleCompiler T)

/-- What a rule contributes: nothing if it is disabled or invalid. -/
def ruleEntry (presetIndex : Nat) (entry : ProxyMapRule × Nat) :
    Option (RulePattern × LocatedTarget T) :=
  if !entry.1.enable then none
  else
    match parseRuleUrl env entry.1.source, compiler.parseTarget entry.1.target with
    | .ok pattern, .ok target =>
      some (pattern,
        { target, location := { presetIndex, table := compiler.table, ruleIndex := entry.2 } })
    | _, _ => none

/-- The enabled valid rules, in order. -/
def ruleEntries (presetIndex : Nat) (rules : List ProxyMapRule) :
    List (RulePattern × LocatedTarget T) :=
  rules.zipIdx.filterMap (compiler.ruleEntry env presetIndex)

variable {env compiler}

theorem compileRule_fst (presetIndex : Nat)
    (compiled : CompiledRules (LocatedTarget T) × List MappingDiagnostic)
    (entry : ProxyMapRule × Nat) :
    (compiler.compileRule env presetIndex compiled entry).1 =
      match compiler.ruleEntry env presetIndex entry with
      | some (pattern, target) => compiled.1.insert pattern target
      | none => compiled.1 := by
  unfold compileRule ruleEntry
  by_cases henable : entry.1.enable = true
  · simp only [henable, Bool.not_true, Bool.false_eq_true, if_false]
    cases parseRuleUrl env entry.1.source with
    | error error => rfl
    | ok pattern => cases compiler.parseTarget entry.1.target <;> rfl
  · simp [henable]

theorem foldl_compileRule_fst (presetIndex : Nat) (entries : List (ProxyMapRule × Nat))
    (compiled : CompiledRules (LocatedTarget T) × List MappingDiagnostic) :
    (entries.foldl (compiler.compileRule env presetIndex) compiled).1 =
      (entries.filterMap (compiler.ruleEntry env presetIndex)).foldl
        (fun rules entry => rules.insert entry.1 entry.2) compiled.1 := by
  induction entries generalizing compiled with
  | nil => rfl
  | cons entry entries ih =>
    rw [List.foldl_cons, ih, compileRule_fst, List.filterMap_cons]
    cases compiler.ruleEntry env presetIndex entry <;> rfl

/-- The compiled table holds the last enabled valid rule of each pattern. -/
theorem entry_compileRules (presetIndex : Nat) (rules : List ProxyMapRule)
    (diagnostics : List MappingDiagnostic) (pattern : RulePattern) :
    (compiler.compileRules env presetIndex rules ({}, diagnostics)).1.entry pattern =
      lastOf (compiler.ruleEntries env presetIndex rules) pattern := by
  unfold compileRules
  rw [foldl_compileRule_fst, get_foldl_insert CompiledRules.entry_insert]
  exact Option.or_none

theorem mem_ruleEntries {presetIndex : Nat} {rules : List ProxyMapRule} {pattern : RulePattern}
    {located : LocatedTarget T} :
    (pattern, located) ∈ compiler.ruleEntries env presetIndex rules ↔
      located.location.presetIndex = presetIndex ∧ located.location.table = compiler.table ∧
        ∃ rule, rules[located.location.ruleIndex]? = some rule ∧ rule.enable = true ∧
          parseRuleUrl env rule.source = .ok pattern ∧
          compiler.parseTarget rule.target = .ok located.target := by
  unfold ruleEntries
  rw [List.mem_filterMap]
  constructor
  · rintro ⟨⟨rule, index⟩, hrule, hentry⟩
    rw [List.mem_zipIdx_iff_getElem?] at hrule
    unfold ruleEntry at hentry
    split at hentry
    · cases hentry
    · rename_i henable
      split at hentry
      · rename_i hpattern htarget
        obtain ⟨rfl, rfl⟩ := Prod.mk.inj (Option.some.inj hentry)
        exact ⟨rfl, rfl, rule, hrule, by simpa using henable, hpattern, htarget⟩
      · cases hentry
  · rintro ⟨rfl, htable, rule, hrule, henable, hpattern, htarget⟩
    refine ⟨(rule, located.location.ruleIndex), List.mem_zipIdx_iff_getElem?.2 hrule, ?_⟩
    unfold ruleEntry
    simp only [henable, hpattern, htarget, ← htable]
    rfl

/-- The entries come in the order of the settings. -/
theorem sorted_ruleEntries (presetIndex : Nat) (rules : List ProxyMapRule) :
    (compiler.ruleEntries env presetIndex rules).Pairwise fun e e' =>
      e.2.location.ruleIndex < e'.2.location.ruleIndex := by
  have hindices : rules.zipIdx.Pairwise fun e e' => e.2 < e'.2 := by
    rw [← List.pairwise_map, List.zipIdx_map_snd]
    exact List.pairwise_lt_range'
  refine hindices.filterMap _ fun e e' hlt => ?_
  have hindex : ∀ e : ProxyMapRule × Nat, ∀ entry ∈ compiler.ruleEntry env presetIndex e,
      entry.2.location.ruleIndex = e.2 := by
    intro e entry hentry
    unfold ruleEntry at hentry
    split at hentry
    · cases hentry
    · split at hentry
      · obtain rfl := Option.some.inj hentry
        rfl
      · cases hentry
  intro entry hentry entry' hentry'
  rw [hindex e entry hentry, hindex e' entry' hentry']
  exact hlt

/-- The rules of a table are compiled if the table is on. -/
def compileTable (env : Environment) (compiler : RuleCompiler T) (presetIndex : Nat)
    (table : ProxyMapSettings)
    (compiled : CompiledRules (LocatedTarget T) × List MappingDiagnostic) :
    CompiledRules (LocatedTarget T) × List MappingDiagnostic :=
  if table.enable then compiler.compileRules env presetIndex table.rules compiled else compiled

theorem entry_compileTable (presetIndex : Nat) (table : ProxyMapSettings)
    (diagnostics : List MappingDiagnostic) (pattern : RulePattern) :
    (compiler.compileTable env presetIndex table ({}, diagnostics)).1.entry pattern =
      lastOf (if table.enable then compiler.ruleEntries env presetIndex table.rules else [])
        pattern := by
  unfold compileTable
  split
  · exact entry_compileRules presetIndex table.rules diagnostics pattern
  · rfl

end RuleCompiler

/-! ## The engine -/

section Compile

variable {env : Environment} {settings : ProxySettings} {diagnostics : List MappingDiagnostic}

theorem compile_disabled (h : settings.enable = false) :
    MappingEngine.compile env (some settings) = {} := by
  simp [MappingEngine.compile, h]

theorem compile_inactive (h : settings.enable = true)
    (hactive : activePreset settings = (none, diagnostics)) :
    MappingEngine.compile env (some settings) = { diagnostics } := by
  simp [MappingEngine.compile, h, hactive]

/-- The remote table is compiled first, then the local one. -/
theorem compile_active (h : settings.enable = true) {index : Nat} {preset : ProxyPresetSettings}
    (hactive : activePreset settings = (some (index, preset), diagnostics)) :
    ∃ remote localFiles,
      (remoteCompiler env).compileTable env index preset.mapRemote ({}, diagnostics) = remote ∧
      (localCompiler env).compileTable env index preset.mapLocal ({}, remote.2) = localFiles ∧
      MappingEngine.compile env (some settings) =
        { remoteRules := remote.1
          localRules := localFiles.1
          diagnostics := localFiles.2 } := by
  refine ⟨_, _, rfl, rfl, ?_⟩
  simp only [MappingEngine.compile, h, Bool.not_true, Bool.false_eq_true, if_false, hactive,
    RuleCompiler.compileTable, compileRemoteRules, compileLocalRules]
  cases preset.mapRemote.enable <;> cases preset.mapLocal.enable <;> rfl

end Compile

end Fluxcope.Mapping
