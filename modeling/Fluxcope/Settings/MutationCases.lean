import Fluxcope.Library.Result
import Fluxcope.Mapping.ValidationSpec
import Fluxcope.Settings.MappingMutation
/-!
# What a mutation can do

One lemma says how a successful mutation ends.  The operations on rules all
replace the rules of one table of one preset.
-/

namespace Fluxcope.Settings

open Fluxcope.Library Fluxcope.Mapping

/-! ## The steps of a mutation -/

theorem normalizedName_eq_ok {name normalized : Text} :
    normalizedName name = .ok normalized ↔ name.trim ≠ [] ∧ normalized = name.trim := by
  unfold normalizedName
  by_cases hname : name.trim = []
  · simp [hname]
  · simp [hname, eq_comm]

theorem requireProxy_eq_ok {settings : AppSettings} {location : MappingObjectRef}
    {proxy : ProxySettings} :
    requireProxy settings location = .ok proxy ↔ settings.proxy = some proxy := by
  unfold requireProxy
  cases settings.proxy <;> simp

theorem requirePresetIndex_eq_ok {proxy : ProxySettings} {name : Text} {index : Nat} :
    requirePresetIndex proxy name = .ok index ↔ findMappingPresetIndex proxy name = some index := by
  unfold requirePresetIndex
  cases findMappingPresetIndex proxy name <;> simp

theorem validateRuleFields_eq_ok {env : Environment} {preset : Text} {table : ProxyRuleTable}
    {index : Nat} {source target : Text} :
    validateRuleFields env preset table index source target = .ok () ↔
      validateRuleValues env table source target = [] := by
  unfold validateRuleFields
  cases validateRuleValues env table source target <;> simp

/-! ## Presets and tables -/

/-- A preset that is found by its name, among the presets of a proxy section. -/
structure Addressed (settings : AppSettings) (name : Text) (proxy : ProxySettings) (index : Nat) :
    Prop where
  named : name.trim ≠ []
  present : settings.proxy = some proxy
  found : findMappingPresetIndex proxy name.trim = some index

theorem Addressed.get {settings : AppSettings} {name : Text} {proxy : ProxySettings} {index : Nat}
    (h : Addressed settings name proxy index) :
    proxy.presets[index]? = some (proxy.presetAt index) ∧
      (proxy.presetAt index).name.trim = name.trim ∧
      ∀ j preset, j < index → proxy.presets[j]? = some preset →
        preset.name.trim ≠ name.trim := by
  obtain ⟨hlt, hname, hfirst⟩ := List.findIdx?_eq_some_iff_getElem.1 h.found
  rw [Text.trim_trim] at hname hfirst
  have hat : proxy.presetAt index = proxy.presets[index] := by
    rw [ProxySettings.presetAt, List.getD_eq_getElem?_getD, List.getElem?_eq_getElem hlt]
    rfl
  refine ⟨?_, ?_, fun j preset hj hpreset => ?_⟩
  · rw [hat]
    exact List.getElem?_eq_getElem hlt
  · rw [hat]
    exact of_decide_eq_true hname
  · obtain ⟨hlt', rfl⟩ := List.getElem?_eq_some_iff.1 hpreset
    simpa using hfirst j hj

@[simp] theorem table_modifyTable (preset : ProxyPresetSettings) (table : ProxyRuleTable)
    (f : ProxyMapSettings → ProxyMapSettings) :
    (preset.modifyTable table f).table table = f (preset.table table) := by
  cases table <;> rfl

theorem table_modifyTable_of_ne (preset : ProxyPresetSettings) {table other : ProxyRuleTable}
    (hne : other ≠ table) (f : ProxyMapSettings → ProxyMapSettings) :
    (preset.modifyTable table f).table other = preset.table other := by
  cases table <;> cases other <;> first | rfl | exact absurd rfl hne

@[simp] theorem name_modifyTable (preset : ProxyPresetSettings) (table : ProxyRuleTable)
    (f : ProxyMapSettings → ProxyMapSettings) : (preset.modifyTable table f).name = preset.name := by
  cases table <;> rfl

/-- Only the value of the function at the present rules counts. -/
theorem modifyRules_eq_const {settings : AppSettings} {name : Text} {proxy : ProxySettings}
    {index : Nat} (h : Addressed settings name proxy index) (table : ProxyRuleTable)
    (f : List ProxyMapRule → List ProxyMapRule) :
    proxy.modifyRules index table f =
      proxy.modifyRules index table fun _ => f ((proxy.presetAt index).table table).rules := by
  obtain ⟨hget, -⟩ := h.get
  obtain ⟨hlt, hat⟩ := List.getElem?_eq_some_iff.1 hget
  unfold ProxySettings.modifyRules ProxySettings.modifyTable
  rw [List.modify_eq_set_getElem?, List.modify_eq_set_getElem?, hget]
  cases table <;> rfl

/-! ## Operations on rules -/

/-- What is done to the rules of one table. -/
inductive RuleAction
  | append (rule : ProxyMapRule)
  | insert (index : Nat) (rule : ProxyMapRule)
  | update (index : Nat) (source target : Text)
  | delete (index : Nat)
  | move (source target : Nat)
  | setEnabled (index : Nat) (enabled : Bool)

/-- The operations on rules, with their preset and table. -/
def MappingMutation.ruleAction : MappingMutation → Option (Text × ProxyRuleTable × RuleAction)
  | .createPreset _ _ | .renamePreset _ _ | .deletePreset _ | .setActivePreset _
  | .setGlobalEnabled _ | .setTableEnabled _ _ _ => none
  | .appendRemoteRule preset rule => some (preset, .mapRemote, .append rule)
  | .insertRemoteRule preset index rule => some (preset, .mapRemote, .insert index rule)
  | .updateRemoteRule preset index source target =>
    some (preset, .mapRemote, .update index source target)
  | .appendLocalRule preset rule => some (preset, .mapLocal, .append rule)
  | .insertLocalRule preset index rule => some (preset, .mapLocal, .insert index rule)
  | .updateLocalRule preset index source target =>
    some (preset, .mapLocal, .update index source target)
  | .deleteRule preset table index => some (preset, table, .delete index)
  | .moveRule preset table source target => some (preset, table, .move source target)
  | .setRuleEnabled preset table index enabled => some (preset, table, .setEnabled index enabled)

def RuleValid (env : Environment) (table : ProxyRuleTable) (rule : ProxyMapRule) : Prop :=
  validateRuleValues env table rule.source rule.target = []

/-- The rules after an operation, and whether they have changed. -/
inductive RulesChange (env : Environment) (table : ProxyRuleTable) (rules : List ProxyMapRule) :
    RuleAction → List ProxyMapRule → Bool → Prop
  | appended (rule : ProxyMapRule) (hvalid : RuleValid env table rule) :
      RulesChange env table rules (.append rule) (rules ++ [rule]) true
  | inserted (index : Nat) (rule : ProxyMapRule) (hindex : index ≤ rules.length)
      (hvalid : RuleValid env table rule) :
      RulesChange env table rules (.insert index rule) (rules.insertIdx index rule) true
  | updated (index : Nat) (source target : Text) (rule : ProxyMapRule)
      (hrule : rules[index]? = some rule)
      (hvalid : validateRuleValues env table source target = []) :
      RulesChange env table rules (.update index source target)
        (rules.set index { rule with source, target })
        (rule.source ≠ source || rule.target ≠ target)
  | deleted (index : Nat) (hindex : index < rules.length) :
      RulesChange env table rules (.delete index) (rules.eraseIdx index) true
  | moved (source target : Nat) (rule : ProxyMapRule) (hrule : rules[source]? = some rule)
      (htarget : target < rules.length) (hne : source ≠ target) :
      RulesChange env table rules (.move source target)
        ((rules.eraseIdx source).insertIdx target rule) true
  | stayed (index : Nat) (hindex : index < rules.length) :
      RulesChange env table rules (.move index index) rules false
  | switched (index : Nat) (enabled : Bool) (rule : ProxyMapRule)
      (hrule : rules[index]? = some rule) :
      RulesChange env table rules (.setEnabled index enabled)
        (rules.set index { rule with enable := enabled }) (rule.enable ≠ enabled)

variable {env : Environment} {settings settings' : AppSettings}

/-- How an operation on rules succeeds. -/
def RulesApplied (env : Environment) (settings : AppSettings) (preset : Text)
    (table : ProxyRuleTable) (action : RuleAction) (settings' : AppSettings) (changed : Bool) :
    Prop :=
  ∃ proxy index rules, Addressed settings preset proxy index ∧
    RulesChange env table ((proxy.presetAt index).table table).rules action rules changed ∧
    settings' = settings.withProxy (proxy.modifyRules index table fun _ => rules)

theorem insertRule_eq_ok {preset : Text} {table : ProxyRuleTable} {index : Option Nat}
    {rule : ProxyMapRule} {affected : MappingObjectRef}
    (h : insertRule env settings preset table index rule = .ok (settings', affected)) :
    RulesApplied env settings preset table
      (match index with | some index => .insert index rule | none => .append rule)
      settings' true := by
  unfold insertRule at h
  obtain ⟨_, hname, h⟩ := bind_eq_ok.1 h
  obtain ⟨hnamed, rfl⟩ := normalizedName_eq_ok.1 hname
  obtain ⟨proxy, hproxy, h⟩ := bind_eq_ok.1 h
  obtain ⟨presetIndex, hindex, h⟩ := bind_eq_ok.1 h
  have haddressed : Addressed settings preset proxy presetIndex :=
    ⟨hnamed, requireProxy_eq_ok.1 hproxy, requirePresetIndex_eq_ok.1 hindex⟩
  obtain ⟨_, hfields, h⟩ := bind_eq_ok.1 h
  have hvalid := validateRuleFields_eq_ok.1 hfields
  dsimp only at h
  split at h
  · cases h
  · rename_i hwithin
    obtain ⟨rfl, rfl⟩ := Prod.mk.inj (Except.ok.inj h)
    refine ⟨proxy, presetIndex, _, haddressed, ?_, congrArg settings.withProxy
      (modifyRules_eq_const haddressed table fun rules => rules.insertIdx _ rule)⟩
    cases index with
    | some index => exact .inserted index rule (Nat.le_of_not_lt hwithin) hvalid
    | none =>
      simp only [Option.getD_none, List.insertIdx_length_self]
      exact .appended rule hvalid

theorem updateRule_eq_ok {preset : Text} {table : ProxyRuleTable} {index : Nat}
    {source target : Text} {result : MappingMutationResult}
    (h : updateRule env settings preset table index source target = .ok (settings', result)) :
    ∃ changed, RulesApplied env settings preset table (.update index source target) settings'
      changed ∧ result = mutationResult (.rule preset.trim table index) changed := by
  unfold updateRule at h
  obtain ⟨_, hname, h⟩ := bind_eq_ok.1 h
  obtain ⟨hnamed, rfl⟩ := normalizedName_eq_ok.1 hname
  obtain ⟨_, hfields, h⟩ := bind_eq_ok.1 h
  have hvalid := validateRuleFields_eq_ok.1 hfields
  obtain ⟨proxy, hproxy, h⟩ := bind_eq_ok.1 h
  obtain ⟨presetIndex, hindex, h⟩ := bind_eq_ok.1 h
  have haddressed : Addressed settings preset proxy presetIndex :=
    ⟨hnamed, requireProxy_eq_ok.1 hproxy, requirePresetIndex_eq_ok.1 hindex⟩
  split at h
  · cases h
  · rename_i rule hrule
    obtain ⟨rfl, rfl⟩ := Prod.mk.inj (Except.ok.inj h)
    exact ⟨_, ⟨proxy, presetIndex, _, haddressed, .updated index source target rule hrule hvalid,
      congrArg settings.withProxy (modifyRules_eq_const haddressed table _)⟩, rfl⟩

theorem deleteRule_eq_ok (env : Environment) {preset : Text} {table : ProxyRuleTable}
    {index : Nat} {affected : MappingObjectRef}
    (h : deleteRule settings preset table index = .ok (settings', affected)) :
    RulesApplied env settings preset table (.delete index) settings' true := by
  unfold deleteRule at h
  obtain ⟨_, hname, h⟩ := bind_eq_ok.1 h
  obtain ⟨hnamed, rfl⟩ := normalizedName_eq_ok.1 hname
  obtain ⟨proxy, hproxy, h⟩ := bind_eq_ok.1 h
  obtain ⟨presetIndex, hindex, h⟩ := bind_eq_ok.1 h
  have haddressed : Addressed settings preset proxy presetIndex :=
    ⟨hnamed, requireProxy_eq_ok.1 hproxy, requirePresetIndex_eq_ok.1 hindex⟩
  dsimp only at h
  split at h
  · cases h
  · rename_i hwithin
    obtain ⟨rfl, rfl⟩ := Prod.mk.inj (Except.ok.inj h)
    exact ⟨proxy, presetIndex, _, haddressed, .deleted index (Nat.lt_of_not_le hwithin),
      congrArg settings.withProxy (modifyRules_eq_const haddressed table _)⟩

theorem moveItem_eq_ok {rules rules' : List ProxyMapRule} {preset : Text} {table : ProxyRuleTable}
    {source target : Nat} (h : moveItem rules preset table source target = .ok rules') :
    RulesChange env table rules (.move source target) rules' (source ≠ target) := by
  unfold moveItem at h
  split at h
  · cases h
  rename_i hsource
  split at h
  · cases h
  rename_i htarget
  have hget := List.getElem?_eq_getElem (Nat.lt_of_not_le hsource)
  by_cases hne : source = target
  · subst hne
    rw [if_neg (by simp)] at h
    obtain rfl := Except.ok.inj h
    simp only [ne_eq, not_true, decide_false]
    exact .stayed source (Nat.lt_of_not_le hsource)
  · rw [if_pos hne, hget] at h
    obtain rfl := Except.ok.inj h
    simp only [ne_eq, hne, not_false_eq_true, decide_true]
    exact .moved source target _ hget (Nat.lt_of_not_le htarget) hne

theorem moveRule_eq_ok (env : Environment) {preset : Text} {table : ProxyRuleTable}
    {source target : Nat} {result : MappingMutationResult}
    (h : moveRule settings preset table source target = .ok (settings', result)) :
    ∃ changed, RulesApplied env settings preset table (.move source target) settings' changed ∧
      result = mutationResult (.rule preset.trim table target) changed := by
  unfold moveRule at h
  obtain ⟨_, hname, h⟩ := bind_eq_ok.1 h
  obtain ⟨hnamed, rfl⟩ := normalizedName_eq_ok.1 hname
  obtain ⟨proxy, hproxy, h⟩ := bind_eq_ok.1 h
  obtain ⟨presetIndex, hindex, h⟩ := bind_eq_ok.1 h
  have haddressed : Addressed settings preset proxy presetIndex :=
    ⟨hnamed, requireProxy_eq_ok.1 hproxy, requirePresetIndex_eq_ok.1 hindex⟩
  obtain ⟨moved, hmoved, h⟩ := bind_eq_ok.1 h
  obtain ⟨rfl, rfl⟩ := Prod.mk.inj (Except.ok.inj h)
  exact ⟨_, ⟨proxy, presetIndex, moved, haddressed, moveItem_eq_ok hmoved, rfl⟩, rfl⟩

theorem setRuleEnabled_eq_ok (env : Environment) {preset : Text} {table : ProxyRuleTable}
    {index : Nat} {enabled : Bool} {result : MappingMutationResult}
    (h : setRuleEnabled settings preset table index enabled = .ok (settings', result)) :
    ∃ changed, RulesApplied env settings preset table (.setEnabled index enabled) settings'
      changed ∧ result = mutationResult (.rule preset.trim table index) changed := by
  unfold setRuleEnabled at h
  obtain ⟨_, hname, h⟩ := bind_eq_ok.1 h
  obtain ⟨hnamed, rfl⟩ := normalizedName_eq_ok.1 hname
  obtain ⟨proxy, hproxy, h⟩ := bind_eq_ok.1 h
  obtain ⟨presetIndex, hindex, h⟩ := bind_eq_ok.1 h
  have haddressed : Addressed settings preset proxy presetIndex :=
    ⟨hnamed, requireProxy_eq_ok.1 hproxy, requirePresetIndex_eq_ok.1 hindex⟩
  split at h
  · cases h
  · rename_i rule hrule
    obtain ⟨rfl, rfl⟩ := Prod.mk.inj (Except.ok.inj h)
    exact ⟨_, ⟨proxy, presetIndex, _, haddressed, .switched index enabled rule hrule,
      congrArg settings.withProxy (modifyRules_eq_const haddressed table _)⟩, rfl⟩

/-! ## All mutations -/

/-- The settings after a rename. -/
def renamed (proxy : ProxySettings) (index : Nat) (name newName : Text) : ProxySettings :=
  { proxy with
    presets := proxy.presets.modify index fun preset => { preset with name := newName }
    activePreset :=
      if proxy.activePreset.map Text.trim = some name then some newName else proxy.activePreset }

/-- The settings without a preset. -/
def without (proxy : ProxySettings) (index : Nat) (name : Text) : ProxySettings :=
  { proxy with
    presets := proxy.presets.eraseIdx index
    activePreset :=
      if proxy.activePreset.map Text.trim = some name then none else proxy.activePreset }

/-- How a mutation succeeds, and whether it reports a change. -/
inductive Applied (env : Environment) (settings : AppSettings) :
    MappingMutation → AppSettings → Bool → Prop
  | created (name : Text) (initial : Option ProxyPresetSettings) (hnamed : name.trim ≠ [])
      (hfresh : ∀ proxy, settings.proxy = some proxy →
        findMappingPresetIndex proxy name.trim = none)
      (hvalid : validateInitialPreset env { initial.getD {} with name := name.trim } = .ok ()) :
      Applied env settings (.createPreset name initial)
        (settings.withProxy { settings.proxy.getD {} with
          presets := (settings.proxy.getD {}).presets ++
            [{ initial.getD {} with name := name.trim }] }) true
  | renamed (name newName : Text) (proxy : ProxySettings) (index : Nat)
      (haddressed : Addressed settings name proxy index) (hnamed : newName.trim ≠ [])
      (hunique : name.trim = newName.trim ∨ ∀ (j : Nat) (preset : ProxyPresetSettings), j ≠ index →
        proxy.presets[j]? = some preset → preset.name.trim ≠ newName.trim) :
      Applied env settings (.renamePreset name newName)
        (settings.withProxy (renamed proxy index name.trim newName.trim))
        ((proxy.presetAt index).name ≠ newName.trim ||
          (proxy.activePreset.map Text.trim = some name.trim &&
            proxy.activePreset ≠ some newName.trim))
  | deleted (name : Text) (proxy : ProxySettings) (index : Nat)
      (haddressed : Addressed settings name proxy index) :
      Applied env settings (.deletePreset name)
        (settings.withProxy (without proxy index name.trim)) true
  | activated (name : Option Text) (proxy : ProxySettings) (hproxy : settings.proxy = some proxy)
      (hname : ∀ n, name = some n → ∃ index, Addressed settings n proxy index) :
      Applied env settings (.setActivePreset name)
        (settings.withProxy { proxy with activePreset := name.map Text.trim })
        (proxy.activePreset ≠ name.map Text.trim)
  | switched (enabled : Bool) (proxy : ProxySettings) (hproxy : settings.proxy = some proxy) :
      Applied env settings (.setGlobalEnabled enabled)
        (settings.withProxy { proxy with enable := enabled }) (proxy.enable ≠ enabled)
  | tableSwitched (preset : Text) (table : ProxyRuleTable) (enabled : Bool)
      (proxy : ProxySettings) (index : Nat) (haddressed : Addressed settings preset proxy index) :
      Applied env settings (.setTableEnabled preset table enabled)
        (settings.withProxy (proxy.modifyTable index table fun settings =>
          { settings with enable := enabled }))
        (((proxy.presetAt index).table table).enable ≠ enabled)
  | rules (mutation : MappingMutation) (preset : Text) (table : ProxyRuleTable)
      (action : RuleAction) (haction : mutation.ruleAction = some (preset, table, action))
      (settings' : AppSettings) (changed : Bool)
      (happlied : RulesApplied env settings preset table action settings' changed) :
      Applied env settings mutation settings' changed

/-- A success of the mutation, up to the object that is reported. -/
def Succeeds (env : Environment) (settings : AppSettings) (mutation : MappingMutation)
    (settings' : AppSettings) (result : MappingMutationResult) : Prop :=
  ∃ changed affected, Applied env settings mutation settings' changed ∧
    result = mutationResult affected changed

variable {result : MappingMutationResult}

theorem createPreset_eq_ok {name : Text} {initial : Option ProxyPresetSettings}
    (h : createPreset env settings name initial = .ok (settings', result)) :
    Succeeds env settings (.createPreset name initial) settings' result := by
  unfold createPreset at h
  obtain ⟨_, hname, h⟩ := bind_eq_ok.1 h
  obtain ⟨hnamed, rfl⟩ := normalizedName_eq_ok.1 hname
  dsimp only at h
  split at h
  · cases h
  · rename_i hfresh
    obtain ⟨⟨⟩, hvalid, h⟩ := bind_eq_ok.1 h
    obtain ⟨rfl, rfl⟩ := Prod.mk.inj (Except.ok.inj h)
    refine ⟨true, _, .created name initial hnamed (fun proxy hproxy => ?_) hvalid, rfl⟩
    rw [hproxy] at hfresh
    simpa using hfresh

theorem renamePreset_eq_ok {name newName : Text}
    (h : renamePreset settings name newName = .ok (settings', result)) :
    Succeeds env settings (.renamePreset name newName) settings' result := by
  unfold renamePreset at h
  obtain ⟨_, hname, h⟩ := bind_eq_ok.1 h
  obtain ⟨hnamed, rfl⟩ := normalizedName_eq_ok.1 hname
  obtain ⟨_, hnewName, h⟩ := bind_eq_ok.1 h
  obtain ⟨hnewNamed, rfl⟩ := normalizedName_eq_ok.1 hnewName
  obtain ⟨proxy, hproxy, h⟩ := bind_eq_ok.1 h
  obtain ⟨index, hindex, h⟩ := bind_eq_ok.1 h
  have haddressed : Addressed settings name proxy index :=
    ⟨hnamed, requireProxy_eq_ok.1 hproxy, requirePresetIndex_eq_ok.1 hindex⟩
  dsimp only at h
  split at h
  · cases h
  · rename_i hunique
    obtain ⟨rfl, rfl⟩ := Prod.mk.inj (Except.ok.inj h)
    refine ⟨_, _, .renamed name newName proxy index haddressed hnewNamed ?_, rfl⟩
    by_cases hsame : name.trim = newName.trim
    · exact .inl hsame
    · refine .inr fun j preset hj hpreset heq => hunique ?_
      rw [Bool.and_eq_true, List.any_eq_true]
      exact ⟨by simpa using hsame, (preset, j), List.mem_zipIdx_iff_getElem?.2 hpreset,
        by simp [hj, heq]⟩

theorem deletePreset_eq_ok {name : Text}
    (h : deletePreset settings name = .ok (settings', result)) :
    Succeeds env settings (.deletePreset name) settings' result := by
  unfold deletePreset at h
  obtain ⟨_, hname, h⟩ := bind_eq_ok.1 h
  obtain ⟨hnamed, rfl⟩ := normalizedName_eq_ok.1 hname
  obtain ⟨proxy, hproxy, h⟩ := bind_eq_ok.1 h
  obtain ⟨index, hindex, h⟩ := bind_eq_ok.1 h
  obtain ⟨rfl, rfl⟩ := Prod.mk.inj (Except.ok.inj h)
  exact ⟨true, _, .deleted name proxy index
    ⟨hnamed, requireProxy_eq_ok.1 hproxy, requirePresetIndex_eq_ok.1 hindex⟩, rfl⟩

theorem setActivePreset_eq_ok {name : Option Text}
    (h : setActivePreset settings name = .ok (settings', result)) :
    Succeeds env settings (.setActivePreset name) settings' result := by
  unfold setActivePreset at h
  obtain ⟨proxy, hproxy, h⟩ := bind_eq_ok.1 h
  have hpresent := requireProxy_eq_ok.1 hproxy
  cases name with
  | none =>
    obtain ⟨rfl, rfl⟩ := Prod.mk.inj (Except.ok.inj h)
    exact ⟨_, _, .activated none proxy hpresent nofun, rfl⟩
  | some name =>
    obtain ⟨_, hname, h⟩ := bind_eq_ok.1 h
    obtain ⟨hnamed, rfl⟩ := normalizedName_eq_ok.1 hname
    obtain ⟨index, hindex, h⟩ := bind_eq_ok.1 h
    obtain ⟨rfl, rfl⟩ := Prod.mk.inj (Except.ok.inj h)
    refine ⟨_, _, .activated (some name) proxy hpresent ?_, rfl⟩
    rintro _ ⟨⟩
    exact ⟨index, hnamed, hpresent, requirePresetIndex_eq_ok.1 hindex⟩

theorem setGlobalEnabled_eq_ok {enabled : Bool}
    (h : setGlobalEnabled settings enabled = .ok (settings', result)) :
    Succeeds env settings (.setGlobalEnabled enabled) settings' result := by
  unfold setGlobalEnabled at h
  obtain ⟨proxy, hproxy, h⟩ := bind_eq_ok.1 h
  obtain ⟨rfl, rfl⟩ := Prod.mk.inj (Except.ok.inj h)
  exact ⟨_, _, .switched enabled proxy (requireProxy_eq_ok.1 hproxy), rfl⟩

theorem setTableEnabled_eq_ok {preset : Text} {table : ProxyRuleTable} {enabled : Bool}
    (h : setTableEnabled settings preset table enabled = .ok (settings', result)) :
    Succeeds env settings (.setTableEnabled preset table enabled) settings' result := by
  unfold setTableEnabled at h
  obtain ⟨_, hname, h⟩ := bind_eq_ok.1 h
  obtain ⟨hnamed, rfl⟩ := normalizedName_eq_ok.1 hname
  obtain ⟨proxy, hproxy, h⟩ := bind_eq_ok.1 h
  obtain ⟨index, hindex, h⟩ := bind_eq_ok.1 h
  obtain ⟨rfl, rfl⟩ := Prod.mk.inj (Except.ok.inj h)
  exact ⟨_, _, .tableSwitched preset table enabled proxy index
    ⟨hnamed, requireProxy_eq_ok.1 hproxy, requirePresetIndex_eq_ok.1 hindex⟩, rfl⟩

theorem alwaysChanged_eq_ok {applied : Except MappingMutationError (AppSettings × MappingObjectRef)}
    (h : alwaysChanged applied = .ok (settings', result)) :
    ∃ affected, applied = .ok (settings', affected) ∧ result = mutationResult affected true := by
  cases applied with
  | error error => cases h
  | ok pair =>
    obtain ⟨rfl, rfl⟩ := Prod.mk.inj (Except.ok.inj h)
    exact ⟨pair.2, rfl, rfl⟩

theorem applyToCandidate_eq_ok {mutation : MappingMutation}
    (h : applyToCandidate env settings mutation = .ok (settings', result)) :
    Succeeds env settings mutation settings' result := by
  have hrules : ∀ preset table action, mutation.ruleAction = some (preset, table, action) →
      (∃ affected changed, RulesApplied env settings preset table action settings' changed ∧
        result = mutationResult affected changed) → Succeeds env settings mutation settings' result :=
    fun preset table action haction ⟨affected, changed, happlied, hresult⟩ =>
      ⟨changed, affected, .rules mutation preset table action haction settings' changed happlied,
        hresult⟩
  cases mutation with
  | createPreset name initial => exact createPreset_eq_ok h
  | renamePreset name newName => exact renamePreset_eq_ok h
  | deletePreset name => exact deletePreset_eq_ok h
  | setActivePreset name => exact setActivePreset_eq_ok h
  | setGlobalEnabled enabled => exact setGlobalEnabled_eq_ok h
  | setTableEnabled preset table enabled => exact setTableEnabled_eq_ok h
  | appendRemoteRule preset rule =>
    obtain ⟨affected, hinsert, rfl⟩ := alwaysChanged_eq_ok h
    exact hrules _ _ _ rfl ⟨affected, true, insertRule_eq_ok hinsert, rfl⟩
  | insertRemoteRule preset index rule =>
    obtain ⟨affected, hinsert, rfl⟩ := alwaysChanged_eq_ok h
    exact hrules _ _ _ rfl ⟨affected, true, insertRule_eq_ok hinsert, rfl⟩
  | appendLocalRule preset rule =>
    obtain ⟨affected, hinsert, rfl⟩ := alwaysChanged_eq_ok h
    exact hrules _ _ _ rfl ⟨affected, true, insertRule_eq_ok hinsert, rfl⟩
  | insertLocalRule preset index rule =>
    obtain ⟨affected, hinsert, rfl⟩ := alwaysChanged_eq_ok h
    exact hrules _ _ _ rfl ⟨affected, true, insertRule_eq_ok hinsert, rfl⟩
  | updateRemoteRule preset index source target =>
    obtain ⟨changed, happlied, rfl⟩ := updateRule_eq_ok h
    exact hrules _ _ _ rfl ⟨_, changed, happlied, rfl⟩
  | updateLocalRule preset index source target =>
    obtain ⟨changed, happlied, rfl⟩ := updateRule_eq_ok h
    exact hrules _ _ _ rfl ⟨_, changed, happlied, rfl⟩
  | deleteRule preset table index =>
    obtain ⟨affected, hdelete, rfl⟩ := alwaysChanged_eq_ok h
    exact hrules _ _ _ rfl ⟨affected, true, deleteRule_eq_ok env hdelete, rfl⟩
  | moveRule preset table source target =>
    obtain ⟨changed, happlied, rfl⟩ := moveRule_eq_ok env h
    exact hrules _ _ _ rfl ⟨_, changed, happlied, rfl⟩
  | setRuleEnabled preset table index enabled =>
    obtain ⟨changed, happlied, rfl⟩ := setRuleEnabled_eq_ok env h
    exact hrules _ _ _ rfl ⟨_, changed, happlied, rfl⟩

end Fluxcope.Settings
