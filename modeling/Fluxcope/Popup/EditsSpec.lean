import Mathlib.Logic.Relation
import Fluxcope.Popup.ProxySpec
/-!
# What the actions on rules and presets do to the draft

Every action is a sequence of edits of the draft, and an edit of the proxy section is one
mutation that has changed something, or a new preset.
-/

namespace Fluxcope.Popup

open Fluxcope.Library Fluxcope.Settings
open Fluxcope.Mapping (Environment)

/-- One edit of the draft. -/
inductive DraftEdit (env : Environment) : AppSettings → AppSettings → Prop
  | other {before after : AppSettings} (h : after.proxy = before.proxy) :
      DraftEdit env before after
  | mutated {before after : AppSettings} (mutation : MappingMutation)
      (result : MappingMutationResult) (hmutation : isCreatePreset mutation = false)
      (happly : applyMappingMutation env (materialized before) mutation = (after, .ok result))
      (hchanged : result.effect = .changed) : DraftEdit env before after
  | created (before : AppSettings) (number : Nat)
      (hfirst : FirstUnused before.proxy 1 number) :
      DraftEdit env before
        (before.withProxy (withNewPreset before.proxy (numberedName number)))

/-- The draft after some edits. -/
def Edits (env : Environment) : AppSettings → AppSettings → Prop :=
  Relation.ReflTransGen (DraftEdit env)

variable {S : Type} {env : Environment} {settings : AppSettings}

theorem Edits.refl (settings : AppSettings) : Edits env settings settings :=
  Relation.ReflTransGen.refl

theorem Edits.trans {settings' settings'' : AppSettings} (h : Edits env settings settings')
    (h' : Edits env settings' settings'') : Edits env settings settings'' :=
  Relation.ReflTransGen.trans h h'

theorem DraftEdit.edits {settings' : AppSettings} (h : DraftEdit env settings settings') :
    Edits env settings settings' :=
  Relation.ReflTransGen.single h

theorem Edits.of_proxy_eq {settings' : AppSettings} (h : settings'.proxy = settings.proxy) :
    Edits env settings settings' :=
  (DraftEdit.other h).edits

/-! ## Mutations -/

theorem exists_of_isChanged {result : Except MappingMutationError MappingMutationResult}
    (h : isChanged result = true) :
    ∃ success, result = .ok success ∧ success.effect = .changed := by
  cases result with
  | error error => cases h
  | ok success => exact ⟨success, rfl, of_decide_eq_true h⟩

/-! ## Frames -/

namespace SettingsPopup

variable (popup : SettingsPopup S)

@[simp] theorem applyProxyMutation_mode (mutation : MappingMutation) :
    (popup.applyProxyMutation env mutation).1.mode = popup.mode := by
  unfold applyProxyMutation
  split <;> rfl

theorem applyProxyMutation_current (mutation : MappingMutation) :
    (popup.applyProxyMutation env mutation).1.draft.current =
      (mutateProxy env popup.draft.current mutation).1 := by
  unfold applyProxyMutation
  split <;> rename_i h <;> rw [h] <;> rfl

@[simp] theorem applyToActivePreset_mode (mutation : Text → MappingMutation) :
    (popup.applyToActivePreset env mutation).mode = popup.mode := by
  unfold applyToActivePreset
  split <;> simp

@[simp] theorem selectRule_mode (table : ProxyRuleTable) (index : Nat) :
    (popup.selectRule table index).mode =
      .ruleTable table (popup.clampRuleIndex table index) := by
  simp [selectRule]

@[simp] theorem selectRule_draft (table : ProxyRuleTable) (index : Nat) :
    (popup.selectRule table index).draft = popup.draft := by
  simp [selectRule]

@[simp] theorem addRuleAfter_mode (table : ProxyRuleTable) (index : Option Nat) :
    (popup.addRuleAfter env table index).1.mode = popup.mode := by
  simp [addRuleAfter]

@[simp] theorem toggleRule_mode (table : ProxyRuleTable) (index : Nat) :
    (popup.toggleRule env table index).mode = popup.mode := by
  unfold toggleRule
  split <;> simp

@[simp] theorem toggleTable_mode (table : ProxyRuleTable) :
    (popup.toggleTable env table).mode = popup.mode := by
  unfold toggleTable
  split <;> simp

@[simp] theorem toggleSelectedProxyCheckbox_mode :
    (popup.toggleSelectedProxyCheckbox env).mode = popup.mode := by
  unfold toggleSelectedProxyCheckbox onSelectedRule
  split
  · simp
  · simp
  · simp
  · split
    · simp
    · split <;> simp

@[simp] theorem applyProxyPresetName_mode (value : Text) :
    (popup.applyProxyPresetName env value).1.mode = popup.mode := by
  unfold applyProxyPresetName
  split
  · rfl
  · split <;> rfl

theorem applyProxyPresetSelection_mode (index : Nat) :
    (popup.applyProxyPresetSelection env index).mode = popup.mode := by
  unfold applyProxyPresetSelection
  dsimp only
  split
  · rfl
  · split <;> rfl

end SettingsPopup

/-! ## Actions -/

/-- The actions on the proxy section, but for the creation of a preset. -/
inductive ProxyAction
  | addRule (table : ProxyRuleTable) (after : Option Nat)
  | deleteRule (table : ProxyRuleTable) (index : Nat)
  | moveRuleUp (table : ProxyRuleTable) (index : Nat)
  | moveRuleDown (table : ProxyRuleTable) (index : Nat)
  | toggleRule (table : ProxyRuleTable) (index : Nat)
  | applyRule (table : ProxyRuleTable) (index : Nat) (source target : Text)
  | toggleMapping
  | toggleTable (table : ProxyRuleTable)
  | renamePreset (name : Text)
  | selectPreset (index : Nat)
  deriving DecidableEq, Repr

namespace ProxyAction

def perform (env : Environment) (popup : SettingsPopup S) : ProxyAction → SettingsPopup S
  | .addRule table after => (popup.addRuleAfter env table after).1
  | .deleteRule table index => popup.deleteRule env table index
  | .moveRuleUp table index => popup.moveRuleUp env table index
  | .moveRuleDown table index => popup.moveRuleDown env table index
  | .toggleRule table index => popup.toggleRule env table index
  | .applyRule table index source target => popup.applyRuleEditorValue env table index source target
  | .toggleMapping =>
    (popup.applyProxyMutation env (.setGlobalEnabled !proxyMappingEnabled popup.draft.current)).1
  | .toggleTable table => popup.toggleTable env table
  | .renamePreset name => (popup.applyProxyPresetName env name).1
  | .selectPreset index => popup.applyProxyPresetSelection env index

/-- The mutation an action asks for, if it asks for one. -/
def mutation (settings : AppSettings) : ProxyAction → Option MappingMutation
  | .addRule table after =>
    let count := ruleCount settings table
    (activePresetName settings).map fun preset =>
      insertMutation preset table (min (after.elim count fun index => index + 1) count)
  | .deleteRule table index =>
    if index < ruleCount settings table then
      (activePresetName settings).map fun preset => .deleteRule preset table index
    else none
  | .moveRuleUp table index =>
    if 0 < index ∧ index < ruleCount settings table then
      (activePresetName settings).map fun preset => .moveRule preset table index (index - 1)
    else none
  | .moveRuleDown table index =>
    if index + 1 < ruleCount settings table then
      (activePresetName settings).map fun preset => .moveRule preset table index (index + 1)
    else none
  | .toggleRule table index => do
      let rule ← ruleAt settings table index
      let preset ← activePresetName settings
      some (.setRuleEnabled preset table index !rule.enable)
  | .applyRule table index source target =>
    (activePresetName settings).map fun preset => updateMutation preset table index source target
  | .toggleMapping => some (.setGlobalEnabled !proxyMappingEnabled settings)
  | .toggleTable table =>
    (activePreset settings).map fun preset =>
      .setTableEnabled preset.name table !(preset.table table).enable
  | .renamePreset name => (activePresetName settings).map fun preset => .renamePreset preset name
  | .selectPreset index => do
      let proxy ← settings.proxy
      let preset ← proxy.presets[index]?
      some (.setActivePreset (some preset.name))

end ProxyAction

/-- What an action leaves of the draft: nothing else than its mutation does to it. -/
def ActionEdits (env : Environment) (before after : AppSettings) :
    Option MappingMutation → Prop
  | none => after = before
  | some mutation => isCreatePreset mutation = false ∧
      ∃ outcome, EditsProxy env (materialized before) before mutation outcome ∧ after = outcome.1

theorem ActionEdits.edits {settings' : AppSettings} {mutation : Option MappingMutation}
    (h : ActionEdits env settings settings' mutation) : Edits env settings settings' := by
  cases mutation with
  | none =>
    obtain rfl := show settings' = settings from h
    exact .refl _
  | some mutation =>
    obtain ⟨hmutation, outcome, hedits, rfl⟩ := h
    cases hchanged : isChanged outcome.2 with
    | true =>
      obtain ⟨result, hresult, heffect⟩ := exists_of_isChanged hchanged
      refine (DraftEdit.mutated mutation result hmutation
        (Prod.ext (hedits.changed hchanged).symm ?_) heffect).edits
      rw [← hedits.result, hresult]
    | false => exact .of_proxy_eq (by rw [hedits.rejected hchanged])

theorem actionEdits_of_mutateProxy {mutation : MappingMutation}
    (hmutation : isCreatePreset mutation = false) :
    ActionEdits env settings (mutateProxy env settings mutation).1 (some mutation) := by
  have h := mutateProxy_edits env settings mutation
  rw [editBase, hmutation] at h
  exact ⟨hmutation, _, h, rfl⟩

/-- Settings with a preset are no virtual ones. -/
theorem materialized_of_getElem {proxy : ProxySettings} {preset : ProxyPresetSettings}
    {index : Nat} (hproxy : settings.proxy = some proxy)
    (hpreset : proxy.presets[index]? = some preset) : materialized settings = settings := by
  unfold materialized hasVirtualProxyPreset
  rw [hproxy, if_neg]
  intro hempty
  rw [show proxy.presets = [] by simpa using hempty] at hpreset
  cases hpreset

namespace SettingsPopup

variable (popup : SettingsPopup S)

theorem applyToActivePreset_actionEdits {mutation : Text → MappingMutation}
    (hmutation : ∀ preset, isCreatePreset (mutation preset) = false) :
    ActionEdits env popup.draft.current (popup.applyToActivePreset env mutation).draft.current
      ((activePresetName popup.draft.current).map mutation) := by
  unfold applyToActivePreset
  cases activePresetName popup.draft.current with
  | none => rfl
  | some preset =>
    dsimp only [Option.map_some]
    rw [applyProxyMutation_current]
    exact actionEdits_of_mutateProxy (hmutation preset)

/-- An action does to the draft what its mutation does to the settings with the virtual
preset made real, or nothing. -/
theorem perform_actionEdits (action : ProxyAction) :
    ActionEdits env popup.draft.current (action.perform env popup).draft.current
      (action.mutation popup.draft.current) := by
  cases action with
  | addRule table after =>
    show ActionEdits env _ (clampRuleTableScroll _ _).draft.current _
    rw [clampRuleTableScroll_draft]
    exact popup.applyToActivePreset_actionEdits fun preset => by cases table <;> rfl
  | deleteRule table index =>
    show ActionEdits env _ (selectRule _ _ _).draft.current (if _ then _ else _)
    rw [selectRule_draft, clampRuleTableScroll_draft]
    split
    · exact popup.applyToActivePreset_actionEdits fun preset => rfl
    · rfl
  | moveRuleUp table index =>
    show ActionEdits env _ (selectRule _ _ _).draft.current (if _ then _ else _)
    rw [selectRule_draft]
    split
    · exact popup.applyToActivePreset_actionEdits fun preset => rfl
    · rfl
  | moveRuleDown table index =>
    show ActionEdits env _ (selectRule _ _ _).draft.current (if _ then _ else _)
    rw [selectRule_draft]
    split
    · exact popup.applyToActivePreset_actionEdits fun preset => rfl
    · rfl
  | toggleRule table index =>
    show ActionEdits env _ (popup.toggleRule env table index).draft.current
      ((ruleAt _ _ _).bind _)
    unfold toggleRule
    cases ruleAt popup.draft.current table index with
    | none => rfl
    | some rule =>
      have h := @applyToActivePreset_actionEdits _ env popup
        (fun preset => .setRuleEnabled preset table index !rule.enable) fun preset => rfl
      rw [Option.map_eq_bind] at h
      exact h
  | applyRule table index source target =>
    show ActionEdits env _ (popup.applyRuleEditorValue env table index source target).draft.current
      _
    unfold applyRuleEditorValue ProxyAction.mutation
    cases activePresetName popup.draft.current with
    | none => rfl
    | some preset =>
      have h := @actionEdits_of_mutateProxy env popup.draft.current
        (updateMutation preset table index source target) (by cases table <;> rfl)
      dsimp only [Option.map_some]
      split <;> rename_i hmutate <;> rw [hmutate] at h <;> exact h
  | toggleMapping =>
    show ActionEdits env _ (popup.applyProxyMutation env _).1.draft.current _
    rw [applyProxyMutation_current]
    exact actionEdits_of_mutateProxy rfl
  | toggleTable table =>
    show ActionEdits env _ (popup.toggleTable env table).draft.current _
    unfold toggleTable ProxyAction.mutation
    cases activePreset popup.draft.current with
    | none => rfl
    | some preset =>
      dsimp only [Option.map_some]
      rw [applyProxyMutation_current]
      exact actionEdits_of_mutateProxy rfl
  | renamePreset name =>
    show ActionEdits env _ (popup.applyProxyPresetName env name).1.draft.current _
    unfold applyProxyPresetName ProxyAction.mutation
    cases activePresetName popup.draft.current with
    | none => rfl
    | some preset =>
      have h := @actionEdits_of_mutateProxy env popup.draft.current
        (.renamePreset preset name) rfl
      dsimp only [Option.map_some]
      split <;> rename_i hmutate <;> rw [hmutate] at h <;> exact h
  | selectPreset index =>
    show ActionEdits env _ (popup.applyProxyPresetSelection env index).draft.current
      (popup.draft.current.proxy.bind fun proxy => proxy.presets[index]?.bind fun preset =>
        some (.setActivePreset (some preset.name)))
    unfold applyProxyPresetSelection
    cases hproxy : popup.draft.current.proxy with
    | none => rfl
    | some proxy =>
      cases hpreset : proxy.presets[index]? with
      | none => simp [hpreset, ActionEdits]
      | some preset =>
        have happlied : ActionEdits env popup.draft.current
            (applyMappingMutation env popup.draft.current
              (.setActivePreset (some preset.name))).1
            (some (.setActivePreset (some preset.name))) := by
          refine ⟨rfl, _, ?_, rfl⟩
          rw [materialized_of_getElem hproxy hpreset]
          exact applyMappingMutation_edits env popup.draft.current _
        simp only [Option.bind_eq_bind, Option.bind_some, hpreset]
        split <;> rename_i hmutate <;> rw [hmutate] at happlied <;> exact happlied

theorem toggleSelectedProxyCheckbox_edits :
    Edits env popup.draft.current (popup.toggleSelectedProxyCheckbox env).draft.current := by
  unfold toggleSelectedProxyCheckbox onSelectedRule
  split
  · exact (popup.perform_actionEdits .toggleMapping).edits
  · exact (popup.perform_actionEdits (.toggleTable .mapRemote)).edits
  · exact (popup.perform_actionEdits (.toggleTable .mapLocal)).edits
  · split
    · exact (popup.perform_actionEdits (.toggleRule .mapRemote _)).edits
    · split
      · exact (popup.perform_actionEdits (.toggleRule .mapLocal _)).edits
      · exact .refl _

/-! ## A new preset -/

theorem applyProxyPresetSelection_current {proxy : ProxySettings} {preset : ProxyPresetSettings}
    {index : Nat} (hproxy : popup.draft.current.proxy = some proxy)
    (hpreset : proxy.presets[index]? = some preset) (htrim : preset.name.trim = preset.name)
    (hname : preset.name ≠ []) (hfound : findMappingPresetIndex proxy preset.name = some index) :
    (popup.applyProxyPresetSelection env index).draft.current =
      popup.draft.current.withProxy { proxy with activePreset := some preset.name } := by
  obtain ⟨result, happly⟩ :=
    @setActivePreset_of_found env _ _ _ _ hproxy htrim hname hfound
  unfold applyProxyPresetSelection
  dsimp only
  rw [hproxy, Option.bind_eq_bind, Option.bind_some, hpreset, Option.bind_eq_bind,
    Option.bind_some]
  dsimp only
  rw [happly]
  rfl

theorem applyProxyMutation_create {number : Nat}
    (hfresh : ∀ proxy, popup.draft.current.proxy = some proxy →
      findMappingPresetIndex proxy (numberedName number) = none) :
    popup.applyProxyMutation env (.createPreset (numberedName number) (some initialPreset)) =
      (popup.withSettings (popup.draft.current.withProxy
        { popup.draft.current.proxy.getD {} with
          presets := (popup.draft.current.proxy.getD {}).presets ++
            [{ initialPreset with name := numberedName number }] }), true) := by
  have hne : numberedName number ≠ [] := List.append_ne_nil_of_left_ne_nil (by decide) _
  have hmutate := mutateProxy_eq env popup.draft.current
    (.createPreset (numberedName number) (some initialPreset))
  rw [show editBase popup.draft.current
    (.createPreset (numberedName number) (some initialPreset)) = popup.draft.current from rfl,
    createPreset_initialPreset (trim_numberedName number) hne hfresh] at hmutate
  unfold applyProxyMutation
  rw [hmutate]
  rfl

/-- A new preset is always created, and becomes the active one. -/
theorem createProxyPreset_eq (env : Environment) :
    ∃ popup' number, popup.createProxyPreset env = some (popup', .close) ∧
      popup'.mode = popup.mode ∧ FirstUnused popup.draft.current.proxy 1 number ∧
      popup'.draft.current = popup.draft.current.withProxy
        (withNewPreset popup.draft.current.proxy (numberedName number)) := by
  obtain ⟨name, hname⟩ := unusedPresetName_isSome popup.draft.current.proxy 1
  obtain ⟨number, rfl, hfirst⟩ := unusedPresetName_first hname
  have hne : numberedName number ≠ [] := List.append_ne_nil_of_left_ne_nil (by decide) _
  let preset : ProxyPresetSettings := { initialPreset with name := numberedName number }
  let created : ProxySettings :=
    { enable := popup.draft.current.proxy.any fun proxy => proxy.enable
      activePreset := (popup.draft.current.proxy.getD {}).activePreset
      presets := (popup.draft.current.proxy.getD {}).presets ++ [preset] }
  let createdPopup := popup.withSettings (popup.draft.current.withProxy created)
  have hfound : findMappingPresetIndex created preset.name =
      some (popup.draft.current.proxy.getD {}).presets.length := by
    refine findMappingPresetIndex_last ?_ _ _
    cases hproxy : popup.draft.current.proxy with
    | none => rfl
    | some proxy => exact hfirst.fresh proxy hproxy
  have hget : created.presets[(popup.draft.current.proxy.getD {}).presets.length]? =
      some preset := List.getElem?_concat_length
  refine ⟨createdPopup.applyProxyPresetSelection env
    (popup.draft.current.proxy.getD {}).presets.length, number, ?_, ?_, hfirst, ?_⟩
  · simp only [createProxyPreset, hname, Option.bind_eq_bind, Option.bind_some,
      applyProxyMutation_create popup hfirst.fresh, if_true, withSettings_current]
    cases hproxy : popup.draft.current.proxy <;>
      simp [createdPopup, created, preset, hproxy, AppSettings.withProxy, withSettings, withDraft]
  · exact createdPopup.applyProxyPresetSelection_mode _
  · exact createdPopup.applyProxyPresetSelection_current rfl hget (trim_numberedName number) hne
      hfound

/-- Choosing from the list never panics. -/
theorem applySelectCommit_spec (env : Environment) (commit : SelectCommit) :
    ∃ popup' effect, popup.applySelectCommit env commit = some (popup', effect) ∧
      popup'.mode = popup.mode ∧ Edits env popup.draft.current popup'.draft.current := by
  unfold applySelectCommit
  split
  · rename_i index _ _
    exact ⟨_, _, rfl, popup.applyProxyPresetSelection_mode index,
      (popup.perform_actionEdits (.selectPreset index)).edits⟩
  · exact ⟨_, _, rfl, rfl, .refl _⟩
  · obtain ⟨popup', number, hcreate, hmode, hfirst, hcurrent⟩ := popup.createProxyPreset_eq env
    refine ⟨popup', _, hcreate, hmode, ?_⟩
    rw [hcurrent]
    exact (DraftEdit.created _ number hfirst).edits
  · exact ⟨_, _, rfl, rfl, .refl _⟩

end SettingsPopup

/-! ## The number of rules -/

theorem findMappingPresetIndex_modifyRules (proxy : ProxySettings) (index : Nat)
    (table : ProxyRuleTable) (f : List ProxyMapRule → List ProxyMapRule) (name : Text) :
    findMappingPresetIndex (proxy.modifyRules index table f) name =
      findMappingPresetIndex proxy name := by
  have hnames : (proxy.modifyRules index table f).presets.map (·.name) =
      proxy.presets.map (·.name) :=
    map_modify_of_kept _ _ fun preset => name_modifyTable preset table _
  have hfind (proxy : ProxySettings) : findMappingPresetIndex proxy name =
      (proxy.presets.map (·.name)).findIdx? fun preset => preset.trim = name.trim := by
    rw [List.findIdx?_map]
    rfl
  rw [hfind, hfind, hnames]

/-- A table that keeps its length. -/
theorem ruleCount_modifyRules {proxy : ProxySettings} {index : Nat} {table : ProxyRuleTable}
    {rules : List ProxyMapRule} (hproxy : settings.proxy = some proxy)
    (hget : proxy.presets[index]? = some (proxy.presetAt index))
    (hlength : rules.length = ((proxy.presetAt index).table table).rules.length)
    (other : ProxyRuleTable) :
    ruleCount (settings.withProxy (proxy.modifyRules index table fun _ => rules)) other =
      ruleCount settings other := by
  have hne : proxy.presets ≠ [] := List.ne_nil_of_mem (List.mem_of_getElem? hget)
  have hne' : (proxy.modifyRules index table fun _ => rules).presets ≠ [] := by
    unfold ProxySettings.modifyRules ProxySettings.modifyTable
    rw [List.ne_nil_iff_length_pos, List.length_modify]
    exact List.length_pos_of_ne_nil hne
  unfold ruleCount activePreset activePresetIndex
  rw [hproxy, show (settings.withProxy _).proxy = some _ from rfl, Option.filter_some,
    Option.filter_some, if_pos (by simpa using hne'), if_pos (by simpa using hne)]
  have hat (j : Nat) :
      ((proxy.modifyRules index table fun _ => rules).presets[j]?).elim 0
          (fun preset => (preset.table other).rules.length) =
        (proxy.presets[j]?).elim 0 fun preset => (preset.table other).rules.length := by
    unfold ProxySettings.modifyRules ProxySettings.modifyTable
    dsimp only
    by_cases hj : index = j
    · subst hj
      rw [List.getElem?_modify_eq, hget]
      by_cases hother : other = table
      · subst hother
        simp [hlength]
      · simp [table_modifyTable_of_ne _ hother]
    · rw [List.getElem?_modify_ne _ _ hj]
  simp only [Option.bind_eq_bind, Option.bind_some, findMappingPresetIndex_modifyRules]
  show (Option.bind (Option.bind proxy.activePreset fun _ => _) _).elim 0 _ = _
  cases Option.bind proxy.activePreset fun active => findMappingPresetIndex proxy active with
  | none => rfl
  | some j => exact hat j

theorem ruleCount_setRuleEnabled (preset : Text) (table : ProxyRuleTable) (index : Nat)
    (enabled : Bool) (other : ProxyRuleTable) :
    ruleCount (applyMappingMutation env settings
      (.setRuleEnabled preset table index enabled)).1 other = ruleCount settings other := by
  rw [applyMappingMutation_eq]
  cases happly : applyMappingMutationOwned env settings
      (.setRuleEnabled preset table index enabled) with
  | error error => rfl
  | ok success =>
    obtain ⟨settings', result⟩ := success
    obtain ⟨changed, ⟨proxy, presetIndex, rules, haddressed, hchange, rfl⟩, -⟩ :=
      setRuleEnabled_eq_ok env happly
    refine ruleCount_modifyRules haddressed.present haddressed.get.1 ?_ other
    cases hchange with
    | switched _ _ rule hrule => exact List.length_set

/-- The virtual preset has no rules. -/
theorem hasVirtualProxyPreset_of_ruleAt {table : ProxyRuleTable} {index : Nat}
    {rule : ProxyMapRule} (h : ruleAt settings table index = some rule) :
    hasVirtualProxyPreset settings = false := by
  obtain ⟨preset, hpreset, hrule⟩ := Option.bind_eq_some_iff.1 h
  refine Bool.eq_false_iff.2 fun hvirtual => ?_
  have hnone : settings.proxy.filter (fun proxy => proxy.presets ≠ []) = none := by
    unfold hasVirtualProxyPreset at hvirtual
    cases hproxy : settings.proxy with
    | none => rfl
    | some proxy =>
      rw [hproxy] at hvirtual
      rw [Option.filter_some, if_neg (by simpa using hvirtual)]
  rw [activePreset, hnone] at hpreset
  obtain rfl := Option.some.inj hpreset
  cases table <;> cases hrule

theorem lt_ruleCount {table : ProxyRuleTable} {index : Nat} {rule : ProxyMapRule}
    (h : ruleAt settings table index = some rule) : index < ruleCount settings table := by
  obtain ⟨preset, hpreset, hrule⟩ := Option.bind_eq_some_iff.1 h
  rw [ruleCount, hpreset]
  exact (List.getElem?_eq_some_iff.1 hrule).1

/-- Toggling a rule leaves the tables as long as they are. -/
theorem SettingsPopup.ruleCount_toggleRule (popup : SettingsPopup S) (table : ProxyRuleTable)
    (index : Nat) (other : ProxyRuleTable) :
    ruleCount (popup.toggleRule env table index).draft.current other =
      ruleCount popup.draft.current other := by
  unfold toggleRule
  split
  · rfl
  rename_i rule hrule
  unfold applyToActivePreset
  split
  · rfl
  rename_i preset hpreset
  rw [applyProxyMutation_current, mutateProxy_eq, editBase_of_not_materialize
    (by rw [hasVirtualProxyPreset_of_ruleAt hrule, Bool.false_and])]
  dsimp only
  split
  · exact ruleCount_setRuleEnabled _ _ _ _ _
  · rfl

end Fluxcope.Popup
