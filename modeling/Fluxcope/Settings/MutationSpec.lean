import Fluxcope.Library.Modified
import Fluxcope.Settings.MutationCases
/-!
# Mutations keep well-formed settings

From the cases of a successful mutation: the invariant of the proxy section,
what an unchanged mutation means, and what each mutation leaves alone.
-/

namespace Fluxcope.Settings

open Fluxcope.Library Fluxcope.Mapping

variable {env : Environment}

/-! ## Well-formed settings -/

structure ProxyWellFormed (env : Environment) (proxy : ProxySettings) : Prop where
  trimmed : ∀ preset ∈ proxy.presets, preset.name.trim = preset.name
  named : ∀ preset ∈ proxy.presets, preset.name ≠ []
  unique : (proxy.presets.map (·.name)).Nodup
  valid : ∀ preset ∈ proxy.presets, ∀ table, ∀ rule ∈ (preset.table table).rules,
    RuleValid env table rule
  active : ∀ name, proxy.activePreset = some name → ∃ preset ∈ proxy.presets, preset.name = name.trim

/-- The proxy section is well-formed where there is one. -/
def WellFormed (env : Environment) (settings : AppSettings) : Prop :=
  ∀ proxy, settings.proxy = some proxy → ProxyWellFormed env proxy

theorem ProxyWellFormed.default (env : Environment) : ProxyWellFormed env {} where
  trimmed := fun _ h => absurd h List.not_mem_nil
  named := fun _ h => absurd h List.not_mem_nil
  unique := List.nodup_nil
  valid := fun _ h => absurd h List.not_mem_nil
  active := nofun

theorem WellFormed.getD {settings : AppSettings} (h : WellFormed env settings) :
    ProxyWellFormed env (settings.proxy.getD {}) := by
  cases hproxy : settings.proxy with
  | none => exact .default env
  | some proxy => exact h proxy hproxy

theorem wellFormed_withProxy {settings : AppSettings} {proxy : ProxySettings} :
    WellFormed env (settings.withProxy proxy) ↔ ProxyWellFormed env proxy := by
  constructor
  · intro h
    exact h proxy rfl
  · rintro h _ ⟨⟩
    exact h

/-! ## Single steps keep the invariant -/

theorem RulesChange.valid {table : ProxyRuleTable} {rules rules' : List ProxyMapRule}
    {action : RuleAction} {changed : Bool} (h : RulesChange env table rules action rules' changed)
    (hrules : ∀ rule ∈ rules, RuleValid env table rule) :
    ∀ rule ∈ rules', RuleValid env table rule := by
  intro r hr
  cases h with
  | appended rule hvalid =>
    rcases List.mem_append.1 hr with hr | hr
    · exact hrules r hr
    · rw [List.mem_singleton.1 hr]
      exact hvalid
  | inserted index rule hindex hvalid =>
    rcases (List.mem_insertIdx hindex).1 hr with rfl | hr
    · exact hvalid
    · exact hrules r hr
  | updated index source target rule hrule hvalid =>
    rcases List.mem_or_eq_of_mem_set hr with hr | rfl
    · exact hrules r hr
    · exact hvalid
  | deleted index hindex => exact hrules r (List.mem_of_mem_eraseIdx hr)
  | moved source target rule hrule htarget hne =>
    have hlength : target ≤ (rules.eraseIdx source).length := by
      have hsource := (List.getElem?_eq_some_iff.1 hrule).1
      rw [List.length_eraseIdx_of_lt hsource]
      omega
    rcases (List.mem_insertIdx hlength).1 hr with rfl | hr
    · exact hrules r (List.mem_of_getElem? hrule)
    · exact hrules r (List.mem_of_mem_eraseIdx hr)
  | stayed index hindex => exact hrules r hr
  | switched index enabled rule hrule =>
    rcases List.mem_or_eq_of_mem_set hr with hr | rfl
    · exact hrules r hr
    · exact hrules rule (List.mem_of_getElem? hrule)

theorem ProxyWellFormed.modifyTable {proxy : ProxySettings} (h : ProxyWellFormed env proxy)
    {index : Nat} {table : ProxyRuleTable} {f : ProxyMapSettings → ProxyMapSettings}
    (hrules : ∀ rule ∈ (f ((proxy.presetAt index).table table)).rules, RuleValid env table rule) :
    ProxyWellFormed env (proxy.modifyTable index table f) := by
  have hnames : (proxy.modifyTable index table f).presets.map (·.name) =
      proxy.presets.map (·.name) :=
    map_modify_of_kept _ _ fun preset => name_modifyTable preset table f
  have hkept : ∀ preset ∈ (proxy.modifyTable index table f).presets,
      ∃ old ∈ proxy.presets, old.name = preset.name := fun preset hpreset =>
    List.mem_map.1 (hnames ▸ List.mem_map_of_mem (f := ProxyPresetSettings.name) hpreset)
  refine ⟨fun preset hpreset => ?_, fun preset hpreset => ?_, ?_, fun preset hpreset => ?_,
    fun name hname => ?_⟩
  · obtain ⟨old, hold, hname⟩ := hkept preset hpreset
    rw [← hname]
    exact h.trimmed old hold
  · obtain ⟨old, hold, hname⟩ := hkept preset hpreset
    rw [← hname]
    exact h.named old hold
  · rw [hnames]
    exact h.unique
  · intro other rule hrule
    rcases mem_modify hpreset with hpreset | ⟨old, hold, rfl⟩
    · exact h.valid preset hpreset other rule hrule
    · by_cases hother : other = table
      · subst hother
        have hat : proxy.presetAt index = old := by
          rw [ProxySettings.presetAt, List.getD_eq_getElem?_getD, hold]
          rfl
        rw [table_modifyTable, ← hat] at hrule
        exact hrules rule hrule
      · rw [table_modifyTable_of_ne old hother] at hrule
        exact h.valid old (List.mem_of_getElem? hold) other rule hrule
  · obtain ⟨old, hold, hactive⟩ := h.active name hname
    obtain ⟨preset, hpreset, hsame⟩ :=
      List.mem_map.1 (hnames ▸ List.mem_map_of_mem (f := ProxyPresetSettings.name) hold)
    exact ⟨preset, hpreset, hsame.trans hactive⟩

theorem Addressed.name_eq {settings : AppSettings} {name : Text} {proxy : ProxySettings}
    {index : Nat} (haddressed : Addressed settings name proxy index)
    (h : ProxyWellFormed env proxy) : (proxy.presetAt index).name = name.trim := by
  obtain ⟨hget, hname, -⟩ := haddressed.get
  rw [← h.trimmed _ (List.mem_of_getElem? hget)]
  exact hname

/-- The presets that do not have the name stand elsewhere. -/
theorem Addressed.ne_index {settings : AppSettings} {name : Text} {proxy : ProxySettings}
    {index : Nat} (haddressed : Addressed settings name proxy index)
    (h : ProxyWellFormed env proxy) {j : Nat} {preset : ProxyPresetSettings}
    (hpreset : proxy.presets[j]? = some preset) (hname : preset.name ≠ name.trim) : index ≠ j := by
  rintro rfl
  rw [haddressed.get.1] at hpreset
  obtain rfl := Option.some.inj hpreset
  exact hname (haddressed.name_eq h)

theorem validateInitialPreset_rules {preset : ProxyPresetSettings}
    (h : validateInitialPreset env preset = .ok ()) (table : ProxyRuleTable)
    (rule : ProxyMapRule) (hrule : rule ∈ (preset.table table).rules) :
    RuleValid env table rule := by
  let proxy : ProxySettings := { activePreset := some preset.name, presets := [preset] }
  have hnone : proxyDiagnostics env proxy = [] := by
    unfold validateInitialPreset at h
    simp only [validateProxySettingsCapped_eq] at h
    split at h
    · cases h
    · rename_i htake
      cases hall : proxyDiagnostics env proxy with
      | nil => rfl
      | cons d ds =>
        rw [hall] at htake
        cases htake
  have htable : tableDiagnostics env 0 table (preset.table table).rules = [] := by
    apply List.eq_nil_iff_forall_not_mem.2
    intro d hd
    have hmem := (@mem_proxyDiagnostics_of_table _ proxy 0) rfl hd
    rw [hnone] at hmem
    exact List.not_mem_nil hmem
  obtain ⟨index, hindex⟩ := List.mem_iff_getElem?.1 hrule
  obtain ⟨⟨pattern, hsource⟩, htarget⟩ := source_ok_of_valid htable hindex
  unfold RuleValid validateRuleValues
  rw [hsource, htarget]
  rfl

theorem wellFormed_created {proxy : ProxySettings} (h : ProxyWellFormed env proxy)
    {preset : ProxyPresetSettings} (htrimmed : preset.name.trim = preset.name)
    (hnamed : preset.name ≠ []) (hfresh : ∀ old ∈ proxy.presets, old.name ≠ preset.name)
    (hvalid : validateInitialPreset env preset = .ok ()) :
    ProxyWellFormed env { proxy with presets := proxy.presets ++ [preset] } := by
  have hmem : ∀ p ∈ proxy.presets ++ [preset], p ∈ proxy.presets ∨ p = preset := fun p hp =>
    (List.mem_append.1 hp).imp_right List.mem_singleton.1
  refine ⟨fun p hp => ?_, fun p hp => ?_, ?_, fun p hp => ?_, fun name hname => ?_⟩
  · rcases hmem p hp with hp | rfl
    · exact h.trimmed p hp
    · exact htrimmed
  · rcases hmem p hp with hp | rfl
    · exact h.named p hp
    · exact hnamed
  · rw [List.map_append, List.nodup_append]
    refine ⟨h.unique, List.nodup_singleton _, ?_⟩
    intro a ha b hb
    obtain ⟨old, hold, rfl⟩ := List.mem_map.1 ha
    obtain rfl := List.mem_singleton.1 hb
    exact hfresh old hold
  · rcases hmem p hp with hp | rfl
    · exact h.valid p hp
    · exact validateInitialPreset_rules hvalid
  · obtain ⟨p, hp, hactive⟩ := h.active name hname
    exact ⟨p, List.mem_append_left _ hp, hactive⟩

theorem wellFormed_renamed {settings : AppSettings} {name newName : Text} {proxy : ProxySettings}
    {index : Nat} (haddressed : Addressed settings name proxy index)
    (h : ProxyWellFormed env proxy) (hnamed : newName.trim ≠ [])
    (hunique : name.trim = newName.trim ∨ ∀ (j : Nat) (preset : ProxyPresetSettings), j ≠ index →
      proxy.presets[j]? = some preset → preset.name.trim ≠ newName.trim) :
    ProxyWellFormed env (renamed proxy index name.trim newName.trim) := by
  have hget := haddressed.get.1
  have hname := haddressed.name_eq h
  have hmem : ∀ p ∈ (renamed proxy index name.trim newName.trim).presets, p ∈ proxy.presets ∨
      ∃ old ∈ proxy.presets, p = { old with name := newName.trim } := fun p hp =>
    (mem_modify hp).imp_right fun ⟨old, hold, heq⟩ => ⟨old, List.mem_of_getElem? hold, heq⟩
  have hnew : { proxy.presetAt index with name := newName.trim } ∈
      (renamed proxy index name.trim newName.trim).presets :=
    List.mem_of_getElem? (i := index) (by
      show (proxy.presets.modify index _)[index]? = _
      rw [List.getElem?_modify_eq, hget]
      rfl)
  refine ⟨fun p hp => ?_, fun p hp => ?_, ?_, fun p hp table rule hrule => ?_, fun n hactive => ?_⟩
  · rcases hmem p hp with hp | ⟨old, -, rfl⟩
    · exact h.trimmed p hp
    · exact Text.trim_trim newName
  · rcases hmem p hp with hp | ⟨old, -, rfl⟩
    · exact h.named p hp
    · exact hnamed
  · have hnames : (renamed proxy index name.trim newName.trim).presets.map (·.name) =
        (proxy.presets.map ProxyPresetSettings.name).set index newName.trim :=
      map_modify_of_const _ _ fun _ => rfl
    rw [hnames]
    by_cases hsame : name.trim = newName.trim
    · -- The name stays the same, and so does the list of names.
      have hkept : (proxy.presets.map ProxyPresetSettings.name)[index]? = some newName.trim := by
        rw [List.getElem?_map, hget]
        exact congrArg some (hname.trans hsame)
      obtain ⟨hlt, heq⟩ := List.getElem?_eq_some_iff.1 hkept
      rw [← heq, List.set_getElem_self]
      exact h.unique
    · refine h.unique.set fun hin => ?_
      obtain ⟨p, hp, hpname⟩ := List.mem_map.1 hin
      obtain ⟨j, hj⟩ := List.mem_iff_getElem?.1 hp
      have hindex := haddressed.ne_index h hj fun heq => hsame (heq.symm.trans hpname)
      refine hunique.resolve_left hsame j p hindex.symm hj ?_
      rw [hpname]
      exact Text.trim_trim newName
  · rcases hmem p hp with hp | ⟨old, hold, rfl⟩
    · exact h.valid p hp table rule hrule
    · exact h.valid old hold table rule (by cases table <;> exact hrule)
  · by_cases hmatches : proxy.activePreset.map Text.trim = some name.trim
    · have hn : n = newName.trim := by
        simpa [renamed, hmatches] using hactive.symm
      exact ⟨_, hnew, by rw [hn, Text.trim_trim]⟩
    · have hold : proxy.activePreset = some n := by
        simpa [renamed, hmatches] using hactive
      obtain ⟨p, hp, hpname⟩ := h.active n hold
      obtain ⟨j, hj⟩ := List.mem_iff_getElem?.1 hp
      have hindex := haddressed.ne_index h hj fun heq => hmatches (by
        rw [hold, Option.map_some, ← hpname, heq])
      refine ⟨p, List.mem_of_getElem? (i := j) ?_, hpname⟩
      show (proxy.presets.modify index _)[j]? = some p
      rw [List.getElem?_modify_ne _ _ hindex]
      exact hj

theorem wellFormed_without {settings : AppSettings} {name : Text} {proxy : ProxySettings}
    {index : Nat} (haddressed : Addressed settings name proxy index)
    (h : ProxyWellFormed env proxy) : ProxyWellFormed env (without proxy index name.trim) := by
  have hsublist : List.Sublist (without proxy index name.trim).presets proxy.presets :=
    List.eraseIdx_sublist _ _
  refine ⟨fun p hp => h.trimmed p (hsublist.mem hp), fun p hp => h.named p (hsublist.mem hp),
    (hsublist.map _).nodup h.unique, fun p hp => h.valid p (hsublist.mem hp),
    fun n hactive => ?_⟩
  by_cases hmatches : proxy.activePreset.map Text.trim = some name.trim
  · simp [without, hmatches] at hactive
  · have hold : proxy.activePreset = some n := by
      simpa [without, hmatches] using hactive
    obtain ⟨p, hp, hpname⟩ := h.active n hold
    obtain ⟨j, hj⟩ := List.mem_iff_getElem?.1 hp
    have hindex := haddressed.ne_index h hj fun heq => hmatches (by
      rw [hold, Option.map_some, ← hpname, heq])
    exact ⟨p, List.mem_eraseIdx_iff_getElem?.2 ⟨j, hindex.symm, hj⟩, hpname⟩

/-! ## Mutations keep the invariant -/

theorem Applied.wellFormed {settings settings' : AppSettings} {mutation : MappingMutation}
    {changed : Bool} (happlied : Applied env settings mutation settings' changed)
    (h : WellFormed env settings) : WellFormed env settings' := by
  cases happlied with
  | created name initial hnamed hfresh hvalid =>
    refine wellFormed_withProxy.2 (wellFormed_created h.getD (Text.trim_trim name) hnamed ?_
      hvalid)
    intro old hold hname
    cases hproxy : settings.proxy with
    | none =>
      rw [hproxy] at hold
      cases hold
    | some proxy =>
      rw [hproxy] at hold
      have hnot := List.findIdx?_eq_none_iff.1 (hfresh proxy hproxy) old hold
      rw [hname] at hnot
      simp at hnot
  | renamed name newName proxy index haddressed hnamed hunique =>
    exact wellFormed_withProxy.2
      (wellFormed_renamed haddressed (h proxy haddressed.present) hnamed hunique)
  | deleted name proxy index haddressed =>
    exact wellFormed_withProxy.2 (wellFormed_without haddressed (h proxy haddressed.present))
  | activated name proxy hproxy hname =>
    have hold := h proxy hproxy
    refine wellFormed_withProxy.2
      ⟨hold.trimmed, hold.named, hold.unique, hold.valid, fun n hn => ?_⟩
    cases name with
    | none => cases hn
    | some name =>
      obtain rfl := Option.some.inj hn
      obtain ⟨index, haddressed⟩ := hname name rfl
      refine ⟨_, List.mem_of_getElem? haddressed.get.1, ?_⟩
      rw [haddressed.name_eq hold, Text.trim_trim]
  | switched enabled proxy hproxy =>
    have hold := h proxy hproxy
    exact wellFormed_withProxy.2
      ⟨hold.trimmed, hold.named, hold.unique, hold.valid, hold.active⟩
  | tableSwitched preset table enabled proxy index haddressed =>
    have hold := h proxy haddressed.present
    exact wellFormed_withProxy.2 (hold.modifyTable
      (hold.valid _ (List.mem_of_getElem? haddressed.get.1) table))
  | rules mutation preset table action haction settings' changed happlied =>
    obtain ⟨proxy, index, rules, haddressed, hchange, rfl⟩ := happlied
    have hold := h proxy haddressed.present
    exact wellFormed_withProxy.2 (hold.modifyTable
      (hchange.valid (hold.valid _ (List.mem_of_getElem? haddressed.get.1) table)))

/-! ## Unchanged mutations -/

theorem RulesChange.unchanged {table : ProxyRuleTable} {rules rules' : List ProxyMapRule}
    {action : RuleAction} (h : RulesChange env table rules action rules' false) :
    rules' = rules := by
  generalize hchanged : false = changed at h
  cases h with
  | appended rule hvalid => cases hchanged
  | inserted index rule hindex hvalid => cases hchanged
  | updated index source target rule hrule hvalid =>
    obtain ⟨hlt, rfl⟩ := List.getElem?_eq_some_iff.1 hrule
    have hsame : rules[index].source = source ∧ rules[index].target = target := by
      simpa using hchanged
    obtain ⟨rfl, rfl⟩ := hsame
    exact List.set_getElem_self hlt
  | deleted index hindex => cases hchanged
  | moved source target rule hrule htarget hne => cases hchanged
  | stayed index hindex => rfl
  | switched index enabled rule hrule =>
    obtain ⟨hlt, rfl⟩ := List.getElem?_eq_some_iff.1 hrule
    have hsame : rules[index].enable = enabled := by
      simpa using hchanged
    subst hsame
    exact List.set_getElem_self hlt

theorem withProxy_self {settings : AppSettings} {proxy : ProxySettings}
    (h : settings.proxy = some proxy) : settings.withProxy proxy = settings := by
  unfold AppSettings.withProxy
  rw [← h]

/-- Only the table of the addressed preset counts for what becomes of it. -/
theorem modifyTable_self {settings : AppSettings} {name : Text} {proxy : ProxySettings}
    {index : Nat} (haddressed : Addressed settings name proxy index) {table : ProxyRuleTable}
    {f : ProxyMapSettings → ProxyMapSettings}
    (h : f ((proxy.presetAt index).table table) = (proxy.presetAt index).table table) :
    proxy.modifyTable index table f = proxy := by
  have hpresets : proxy.presets.modify index (fun preset => preset.modifyTable table f) =
      proxy.presets := by
    apply modify_of_fixed
    intro preset hpreset
    rw [haddressed.get.1] at hpreset
    obtain rfl := Option.some.inj hpreset
    cases table with
    | mapRemote => exact congrArg (fun t => { proxy.presetAt index with mapRemote := t }) h
    | mapLocal => exact congrArg (fun t => { proxy.presetAt index with mapLocal := t }) h
  unfold ProxySettings.modifyTable
  rw [hpresets]

theorem Applied.unchanged {settings settings' : AppSettings} {mutation : MappingMutation}
    (happlied : Applied env settings mutation settings' false) : settings' = settings := by
  generalize hchanged : false = changed at happlied
  cases happlied with
  | created name initial hnamed hfresh hvalid => cases hchanged
  | renamed name newName proxy index haddressed hnamed hunique =>
    obtain ⟨hname, hactive⟩ : (proxy.presetAt index).name = newName.trim ∧
        (proxy.activePreset.map Text.trim = some name.trim →
          proxy.activePreset = some newName.trim) := by
      simpa using hchanged
    have hpresets : proxy.presets.modify index (fun preset =>
        { preset with name := newName.trim }) = proxy.presets := by
      apply modify_of_fixed
      intro preset hpreset
      rw [haddressed.get.1] at hpreset
      obtain rfl := Option.some.inj hpreset
      rw [← hname]
    have hself : Settings.renamed proxy index name.trim newName.trim = proxy := by
      unfold Settings.renamed
      rw [hpresets]
      split
      · rw [← hactive ‹_›]
      · rfl
    rw [hself]
    exact withProxy_self haddressed.present
  | deleted name proxy index haddressed => cases hchanged
  | activated name proxy hproxy hname =>
    have hsame : proxy.activePreset = name.map Text.trim := by
      simpa using hchanged
    rw [← hsame]
    exact withProxy_self hproxy
  | switched enabled proxy hproxy =>
    have hsame : proxy.enable = enabled := by
      simpa using hchanged
    subst hsame
    exact withProxy_self hproxy
  | tableSwitched preset table enabled proxy index haddressed =>
    have hsame : ((proxy.presetAt index).table table).enable = enabled := by
      simpa using hchanged
    subst hsame
    rw [modifyTable_self haddressed rfl]
    exact withProxy_self haddressed.present
  | rules mutation preset table action haction settings' changed happlied =>
    subst hchanged
    obtain ⟨proxy, index, rules, haddressed, hchange, rfl⟩ := happlied
    unfold ProxySettings.modifyRules
    rw [modifyTable_self haddressed (by rw [hchange.unchanged])]
    exact withProxy_self haddressed.present

/-! ## What a mutation leaves alone -/

/-- The rules after an action: the one it names, and the others in their order. -/
def RuleAction.Effect (rules rules' : List ProxyMapRule) : RuleAction → Prop
  | .append rule => rules' = rules ++ [rule]
  | .insert index rule =>
    index ≤ rules.length ∧ rules'[index]? = some rule ∧ rules'.eraseIdx index = rules
  | .update index source target =>
    ∃ rule, rules[index]? = some rule ∧ rules'[index]? = some { rule with source, target } ∧
      rules'.eraseIdx index = rules.eraseIdx index
  | .delete index => index < rules.length ∧ rules' = rules.eraseIdx index
  | .move source target =>
    source < rules.length ∧ target < rules.length ∧ rules'[target]? = rules[source]? ∧
      rules'.eraseIdx target = rules.eraseIdx source
  | .setEnabled index enabled =>
    ∃ rule, rules[index]? = some rule ∧ rules'[index]? = some { rule with enable := enabled } ∧
      rules'.eraseIdx index = rules.eraseIdx index

/-- The section differs at the preset of this name only, and that preset as stated. -/
def ProxySettings.OnlyPreset (proxy proxy' : ProxySettings) (name : Text)
    (change : ProxyPresetSettings → ProxyPresetSettings → Prop) : Prop :=
  ∃ index preset preset', findMappingPresetIndex proxy name = some index ∧
    proxy.presets[index]? = some preset ∧ proxy'.presets[index]? = some preset' ∧
    proxy'.presets.eraseIdx index = proxy.presets.eraseIdx index ∧ change preset preset'

/-- The preset differs at this table only, and that table as stated. -/
def ProxyPresetSettings.OnlyTable (preset preset' : ProxyPresetSettings) (table : ProxyRuleTable)
    (change : ProxyMapSettings → ProxyMapSettings → Prop) : Prop :=
  preset'.name = preset.name ∧
    (∀ other, other ≠ table → preset'.table other = preset.table other) ∧
    change (preset.table table) (preset'.table table)

/-- Only one table of one preset changes, as stated. -/
def ProxySettings.OnlyTable (proxy proxy' : ProxySettings) (name : Text) (table : ProxyRuleTable)
    (change : ProxyMapSettings → ProxyMapSettings → Prop) : Prop :=
  proxy'.enable = proxy.enable ∧ proxy'.activePreset = proxy.activePreset ∧
    proxy.OnlyPreset proxy' name fun preset preset' => preset.OnlyTable preset' table change

def ProxySettings.OnlyRules (proxy proxy' : ProxySettings) (name : Text) (table : ProxyRuleTable)
    (action : RuleAction) : Prop :=
  proxy.OnlyTable proxy' name table fun settings settings' =>
    settings'.enable = settings.enable ∧ action.Effect settings.rules settings'.rules

/-- What a successful mutation changes of the proxy section; the rest stays. -/
def MappingMutation.Effect (proxy proxy' : ProxySettings) : MappingMutation → Prop
  | .createPreset name initial =>
    proxy' = { proxy with
      presets := proxy.presets ++ [{ initial.getD {} with name := name.trim }] }
  | .renamePreset name newName =>
    proxy'.enable = proxy.enable ∧
      (proxy.activePreset.map Text.trim ≠ some name.trim →
        proxy'.activePreset = proxy.activePreset) ∧
      proxy.OnlyPreset proxy' name fun preset preset' =>
        preset' = { preset with name := newName.trim }
  | .deletePreset name =>
    proxy'.enable = proxy.enable ∧
      (proxy.activePreset.map Text.trim ≠ some name.trim →
        proxy'.activePreset = proxy.activePreset) ∧
      ∃ index, findMappingPresetIndex proxy name = some index ∧
        proxy'.presets = proxy.presets.eraseIdx index
  | .setActivePreset name => proxy' = { proxy with activePreset := name.map Text.trim }
  | .setGlobalEnabled enabled => proxy' = { proxy with enable := enabled }
  | .setTableEnabled preset table enabled =>
    proxy.OnlyTable proxy' preset table fun settings settings' =>
      settings' = { settings with enable := enabled }
  | .appendRemoteRule preset rule => proxy.OnlyRules proxy' preset .mapRemote (.append rule)
  | .insertRemoteRule preset index rule =>
    proxy.OnlyRules proxy' preset .mapRemote (.insert index rule)
  | .updateRemoteRule preset index source target =>
    proxy.OnlyRules proxy' preset .mapRemote (.update index source target)
  | .appendLocalRule preset rule => proxy.OnlyRules proxy' preset .mapLocal (.append rule)
  | .insertLocalRule preset index rule =>
    proxy.OnlyRules proxy' preset .mapLocal (.insert index rule)
  | .updateLocalRule preset index source target =>
    proxy.OnlyRules proxy' preset .mapLocal (.update index source target)
  | .deleteRule preset table index => proxy.OnlyRules proxy' preset table (.delete index)
  | .moveRule preset table source target =>
    proxy.OnlyRules proxy' preset table (.move source target)
  | .setRuleEnabled preset table index enabled =>
    proxy.OnlyRules proxy' preset table (.setEnabled index enabled)

theorem RulesChange.effect {table : ProxyRuleTable} {rules rules' : List ProxyMapRule}
    {action : RuleAction} {changed : Bool}
    (h : RulesChange env table rules action rules' changed) : action.Effect rules rules' := by
  cases h with
  | appended rule hvalid => rfl
  | inserted index rule hindex hvalid =>
    exact ⟨hindex, List.getElem?_insertIdx_self.trans (if_pos hindex),
      List.eraseIdx_insertIdx_self rule⟩
  | updated index source target rule hrule hvalid =>
    have hlt := (List.getElem?_eq_some_iff.1 hrule).1
    exact ⟨rule, hrule, List.getElem?_set_self hlt, List.eraseIdx_set_eq⟩
  | deleted index hindex => exact ⟨hindex, rfl⟩
  | moved source target rule hrule htarget hne =>
    have hsource := (List.getElem?_eq_some_iff.1 hrule).1
    have hwithin : target ≤ (rules.eraseIdx source).length := by
      rw [List.length_eraseIdx_of_lt hsource]
      omega
    refine ⟨hsource, htarget, ?_, List.eraseIdx_insertIdx_self rule⟩
    rw [hrule, List.getElem?_insertIdx_self, if_pos hwithin]
  | stayed index hindex => exact ⟨hindex, hindex, rfl, rfl⟩
  | switched index enabled rule hrule =>
    have hlt := (List.getElem?_eq_some_iff.1 hrule).1
    exact ⟨rule, hrule, List.getElem?_set_self hlt, List.eraseIdx_set_eq⟩

theorem Addressed.found_name {settings : AppSettings} {name : Text} {proxy : ProxySettings}
    {index : Nat} (haddressed : Addressed settings name proxy index) :
    findMappingPresetIndex proxy name = some index := by
  have hfound := haddressed.found
  unfold findMappingPresetIndex at hfound ⊢
  rw [Text.trim_trim] at hfound
  exact hfound

theorem onlyTable_modifyTable {settings : AppSettings} {name : Text} {proxy : ProxySettings}
    {index : Nat} (haddressed : Addressed settings name proxy index) {table : ProxyRuleTable}
    {f : ProxyMapSettings → ProxyMapSettings}
    {change : ProxyMapSettings → ProxyMapSettings → Prop}
    (hchange : change ((proxy.presetAt index).table table)
      (f ((proxy.presetAt index).table table))) :
    proxy.OnlyTable (proxy.modifyTable index table f) name table change := by
  refine ⟨rfl, rfl, index, proxy.presetAt index, (proxy.presetAt index).modifyTable table f,
    haddressed.found_name, haddressed.get.1, ?_, List.eraseIdx_modify_of_eq _ _ _,
    name_modifyTable _ _ _, fun other hother => table_modifyTable_of_ne _ hother f, ?_⟩
  · show (proxy.presets.modify index _)[index]? = _
    rw [List.getElem?_modify_eq, haddressed.get.1]
    rfl
  · rw [table_modifyTable]
    exact hchange

/-- An operation on rules has the effect of its action. -/
theorem effect_of_ruleAction {mutation : MappingMutation} {preset : Text} {table : ProxyRuleTable}
    {action : RuleAction} (haction : mutation.ruleAction = some (preset, table, action))
    {proxy proxy' : ProxySettings} (h : proxy.OnlyRules proxy' preset table action) :
    mutation.Effect proxy proxy' := by
  cases mutation with
  | createPreset | renamePreset | deletePreset | setActivePreset | setGlobalEnabled
  | setTableEnabled => cases haction
  | appendRemoteRule | insertRemoteRule | updateRemoteRule | appendLocalRule | insertLocalRule
  | updateLocalRule | deleteRule | moveRule | setRuleEnabled =>
    cases haction
    exact h

theorem Applied.effect {settings settings' : AppSettings} {mutation : MappingMutation}
    {changed : Bool} (happlied : Applied env settings mutation settings' changed) :
    ∃ proxy', settings' = settings.withProxy proxy' ∧
      mutation.Effect (settings.proxy.getD {}) proxy' := by
  cases happlied with
  | created name initial hnamed hfresh hvalid => exact ⟨_, rfl, rfl⟩
  | renamed name newName proxy index haddressed hnamed hunique =>
    refine ⟨_, rfl, ?_⟩
    rw [haddressed.present, Option.getD_some]
    refine ⟨rfl, fun hactive => if_neg hactive, index, proxy.presetAt index,
      { proxy.presetAt index with name := newName.trim }, haddressed.found_name,
      haddressed.get.1, ?_, List.eraseIdx_modify_of_eq _ _ _, rfl⟩
    show (proxy.presets.modify index _)[index]? = _
    rw [List.getElem?_modify_eq, haddressed.get.1]
    rfl
  | deleted name proxy index haddressed =>
    refine ⟨_, rfl, ?_⟩
    rw [haddressed.present, Option.getD_some]
    exact ⟨rfl, fun hactive => if_neg hactive, index, haddressed.found_name, rfl⟩
  | activated name proxy hproxy hname =>
    refine ⟨_, rfl, ?_⟩
    rw [hproxy, Option.getD_some]
    rfl
  | switched enabled proxy hproxy =>
    refine ⟨_, rfl, ?_⟩
    rw [hproxy, Option.getD_some]
    rfl
  | tableSwitched preset table enabled proxy index haddressed =>
    refine ⟨_, rfl, ?_⟩
    rw [haddressed.present, Option.getD_some]
    exact onlyTable_modifyTable haddressed rfl
  | rules mutation preset table action haction settings' changed happlied =>
    obtain ⟨proxy, index, rules, haddressed, hchange, rfl⟩ := happlied
    refine ⟨_, rfl, effect_of_ruleAction haction ?_⟩
    rw [haddressed.present, Option.getD_some]
    exact onlyTable_modifyTable haddressed ⟨rfl, hchange.effect⟩

/-! ## Sequences of mutations -/

/-- The settings after a sequence of mutations, of which some may fail. -/
def applyMappingMutations (env : Environment) (settings : AppSettings)
    (mutations : List MappingMutation) : AppSettings :=
  mutations.foldl (fun settings mutation => (applyMappingMutation env settings mutation).1) settings

theorem mutationResult_unchanged {affected : MappingObjectRef} {changed : Bool}
    (h : (mutationResult affected changed).effect ≠ .changed) : changed = false := by
  cases changed with
  | true => exact absurd rfl h
  | false => rfl

theorem applyMappingMutationOwned_unchanged {settings settings' : AppSettings}
    {mutation : MappingMutation} {result : MappingMutationResult}
    (h : applyMappingMutationOwned env settings mutation = .ok (settings', result))
    (hunchanged : result.effect = .unchanged) : settings' = settings := by
  obtain ⟨changed, affected, happlied, rfl⟩ := applyToCandidate_eq_ok h
  have hkept : (mutationResult affected changed).effect ≠ .changed := by
    rw [hunchanged]
    exact fun h => by cases h
  obtain rfl := mutationResult_unchanged hkept
  exact happlied.unchanged

/-- Both ways to apply a mutation agree. -/
theorem applyMappingMutation_eq (settings : AppSettings) (mutation : MappingMutation) :
    applyMappingMutation env settings mutation =
      match applyMappingMutationOwned env settings mutation with
      | .error error => (settings, .error error)
      | .ok (settings', result) => (settings', .ok result) := by
  unfold applyMappingMutation applyMappingMutationOwned
  cases happly : applyToCandidate env settings mutation with
  | error error => rfl
  | ok success =>
    obtain ⟨settings', result⟩ := success
    obtain ⟨changed, affected, happlied, rfl⟩ := applyToCandidate_eq_ok happly
    show (if _ then settings' else settings, _) = _
    split
    · rfl
    · rename_i hunchanged
      obtain rfl := mutationResult_unchanged hunchanged
      rw [happlied.unchanged]

theorem wellFormed_applyMappingMutation {settings : AppSettings} (h : WellFormed env settings)
    (mutation : MappingMutation) : WellFormed env (applyMappingMutation env settings mutation).1 := by
  rw [applyMappingMutation_eq]
  unfold applyMappingMutationOwned
  cases happly : applyToCandidate env settings mutation with
  | error error => exact h
  | ok success =>
    obtain ⟨settings', result⟩ := success
    obtain ⟨changed, affected, happlied, -⟩ := applyToCandidate_eq_ok happly
    exact happlied.wellFormed h

theorem wellFormed_applyMappingMutations {settings : AppSettings} (h : WellFormed env settings)
    (mutations : List MappingMutation) :
    WellFormed env (applyMappingMutations env settings mutations) := by
  unfold applyMappingMutations
  induction mutations generalizing settings with
  | nil => exact h
  | cons mutation mutations ih => exact ih (wellFormed_applyMappingMutation h mutation)

/-- Every sequence of mutations keeps well-formed settings.  Each mutation has the same
result in both forms, an error or an unchanged one leaves the settings, and a success
has the stated effect and no other. -/
theorem mutations_keep_settings (env : Environment) (settings : AppSettings) :
    (WellFormed env settings → ∀ mutations,
      WellFormed env (applyMappingMutations env settings mutations)) ∧
    ∀ mutation,
      match applyMappingMutationOwned env settings mutation with
      | .error error => applyMappingMutation env settings mutation = (settings, .error error)
      | .ok (settings', result) =>
        applyMappingMutation env settings mutation = (settings', .ok result) ∧
        (result.effect = .unchanged → settings' = settings) ∧
        ∃ proxy', settings' = settings.withProxy proxy' ∧
          mutation.Effect (settings.proxy.getD {}) proxy' := by
  refine ⟨fun h mutations => wellFormed_applyMappingMutations h mutations, fun mutation => ?_⟩
  have hagree := (@applyMappingMutation_eq env) settings mutation
  cases happly : applyMappingMutationOwned env settings mutation with
  | error error =>
    rw [happly] at hagree
    exact hagree
  | ok success =>
    obtain ⟨settings', result⟩ := success
    rw [happly] at hagree
    obtain ⟨changed, affected, happlied, -⟩ := applyToCandidate_eq_ok happly
    exact ⟨hagree, applyMappingMutationOwned_unchanged happly, happlied.effect⟩

theorem mutations_keep_settings_sample :
    WellFormed sampleEnvironment (applyMappingMutations sampleEnvironment
      { proxy := some switchedOff }
      [.setGlobalEnabled true, .renamePreset "p".toList " q ".toList,
        .appendRemoteRule "q".toList { source := "http://b".toList, target := "http://a".toList },
        .moveRule "q".toList .mapRemote 0 1]) := by
  refine (mutations_keep_settings sampleEnvironment { proxy := some switchedOff }).1 ?_ _
  rintro _ ⟨⟩
  refine ⟨by decide, by decide, by decide, ?_, ?_⟩
  · intro preset hpreset table rule hrule
    obtain rfl := List.mem_singleton.1 hpreset
    cases table with
    | mapRemote =>
      obtain rfl := List.mem_singleton.1 hrule
      show validateRuleValues _ _ _ _ = []
      decide
    | mapLocal => cases hrule
  · rintro _ ⟨⟩
    exact ⟨_, List.mem_singleton_self _, by decide⟩

end Fluxcope.Settings
