import Mathlib.Data.List.Perm.Subperm
import Fluxcope.Popup.Proxy
import Fluxcope.Settings.Gates
import Fluxcope.Settings.MutationSpec
/-!
# Edits of the proxy section

What an edit leaves in the draft: the settings as they were, or what the mutation makes of
the settings with the virtual preset made real.  Only the creation of a preset is applied
to the settings as they are.
-/

namespace Fluxcope.Popup

open Fluxcope.Library Fluxcope.Settings
open Fluxcope.Mapping (Environment)

/-- The settings with the virtual preset made real. -/
def materialized (settings : AppSettings) : AppSettings :=
  if hasVirtualProxyPreset settings then settings.withProxy materializedProxy else settings

/-- A mutation that comes from an edit: its result is that of the mutation on `base`, the
draft stays unless something has changed, and other sections stay in any case. -/
structure EditsProxy (env : Environment) (base before : AppSettings) (mutation : MappingMutation)
    (outcome : AppSettings × Except MappingMutationError MappingMutationResult) : Prop where
  result : outcome.2 = (applyMappingMutation env base mutation).2
  rejected : isChanged outcome.2 = false → outcome.1 = before
  changed : isChanged outcome.2 = true → outcome.1 = (applyMappingMutation env base mutation).1
  others : outcome.1 = { before with proxy := outcome.1.proxy }

variable {env : Environment} {settings settings' : AppSettings}

/-! ## Mutations -/

/-- A mutation reaches the proxy section only, and only by a change. -/
theorem applyMappingMutation_edits (env : Environment) (settings : AppSettings)
    (mutation : MappingMutation) :
    EditsProxy env settings settings mutation (applyMappingMutation env settings mutation) := by
  rw [applyMappingMutation_eq]
  cases happly : applyMappingMutationOwned env settings mutation with
  | error error =>
    exact ⟨by rw [applyMappingMutation_eq, happly], fun _ => rfl,
      fun h => (by cases h), rfl⟩
  | ok success =>
    obtain ⟨settings', result⟩ := success
    obtain ⟨changed, affected, happlied, -⟩ := applyToCandidate_eq_ok happly
    obtain ⟨proxy, hproxy, -⟩ := happlied.effect
    refine ⟨by rw [applyMappingMutation_eq, happly], fun hkept => ?_,
      fun _ => by rw [applyMappingMutation_eq, happly], by rw [hproxy]; rfl⟩
    refine applyMappingMutationOwned_unchanged happly ?_
    have hne : result.effect ≠ .changed := of_decide_eq_false hkept
    cases heffect : result.effect with
    | changed => exact absurd heffect hne
    | unchanged => rfl

/-- The settings that a mutation is applied to. -/
def editBase (settings : AppSettings) (mutation : MappingMutation) : AppSettings :=
  if isCreatePreset mutation then settings else materialized settings

theorem editBase_of_materialize {mutation : MappingMutation}
    (h : (hasVirtualProxyPreset settings && !isCreatePreset mutation) = true) :
    editBase settings mutation = settings.withProxy materializedProxy := by
  obtain ⟨hvirtual, hcreate⟩ := Bool.and_eq_true_iff.1 h
  rw [editBase, if_neg (by simpa using hcreate), materialized, if_pos hvirtual]

theorem editBase_of_not_materialize {mutation : MappingMutation}
    (h : (hasVirtualProxyPreset settings && !isCreatePreset mutation) = false) :
    editBase settings mutation = settings := by
  unfold editBase materialized
  cases hcreate : isCreatePreset mutation with
  | true => rfl
  | false =>
    rw [hcreate, Bool.not_false, Bool.and_true] at h
    rw [h]
    rfl

/-- The draft is that of the mutation if it has changed something, and as before if not. -/
theorem mutateProxy_eq (env : Environment) (settings : AppSettings) (mutation : MappingMutation) :
    mutateProxy env settings mutation =
      let outcome := applyMappingMutation env (editBase settings mutation) mutation
      if isChanged outcome.2 then outcome else (settings, outcome.2) := by
  obtain ⟨-, hrejected, -, -⟩ :=
    applyMappingMutation_edits env (editBase settings mutation) mutation
  unfold mutateProxy
  cases hmaterialize : hasVirtualProxyPreset settings && !isCreatePreset mutation with
  | true =>
    rw [editBase_of_materialize hmaterialize] at hrejected ⊢
    change
      (let outcome := applyMappingMutation env (settings.withProxy materializedProxy) mutation
      if (true && !isChanged outcome.2) = true then
        ({ outcome.1 with proxy := settings.proxy }, outcome.2)
      else (outcome.1, outcome.2)) = _
    dsimp only
    cases hchanged : isChanged
        (applyMappingMutation env (settings.withProxy materializedProxy) mutation).2 with
    | true => rfl
    | false =>
      rw [hrejected hchanged]
      rfl
  | false =>
    rw [editBase_of_not_materialize hmaterialize] at hrejected ⊢
    change applyMappingMutation env settings mutation = _
    dsimp only
    split
    · rfl
    · rename_i hchanged
      exact Prod.ext (hrejected (Bool.eq_false_iff.2 hchanged)) rfl

theorem mutateProxy_edits (env : Environment) (settings : AppSettings)
    (mutation : MappingMutation) :
    EditsProxy env (editBase settings mutation) settings mutation
      (mutateProxy env settings mutation) := by
  have hbase : { settings with proxy := (editBase settings mutation).proxy } =
      editBase settings mutation := by
    unfold editBase materialized
    split
    · rfl
    · split <;> rfl
  obtain ⟨-, -, -, hothers⟩ := applyMappingMutation_edits env (editBase settings mutation) mutation
  rw [mutateProxy_eq]
  dsimp only
  split
  · rename_i hchanged
    refine ⟨rfl, fun h => ?_, fun _ => rfl, ?_⟩
    · rw [h] at hchanged
      cases hchanged
    · rw [← hbase] at hothers ⊢
      exact hothers
  · rename_i hchanged
    exact ⟨rfl, fun _ => rfl, fun h => absurd h hchanged, rfl⟩

/-! ## A new preset -/

theorem getLast_append_mem {α : Type} {front back : List α} (hne : front ++ back ≠ [])
    (hback : back ≠ []) : (front ++ back).getLast hne ∈ back := by
  rw [List.getLast_append_of_ne_nil _ hback]
  exact List.getLast_mem hback

theorem isWhitespace_of_isDigit {c : Char} (h : c.isDigit = true) : Text.isWhitespace c = false := by
  obtain ⟨hlow, hhigh⟩ := Char.isDigit_iff_toNat.1 h
  have hzero : '0'.toNat = 48 := rfl
  have hnine : '9'.toNat = 57 := rfl
  rw [hzero] at hlow
  rw [hnine] at hhigh
  simp only [Text.isWhitespace, Bool.or_eq_false_iff, Bool.and_eq_false_iff, decide_eq_false_iff_not]
  omega

theorem trim_numberedName (number : Nat) : (numberedName number).trim = numberedName number := by
  have hword : "Preset ".toList = 'P' :: "reset ".toList := by decide
  have hfront : (numberedName number).dropWhile Text.isWhitespace = numberedName number := by
    obtain ⟨rest, hrest⟩ : ∃ rest, numberedName number = 'P' :: rest := by
      unfold numberedName
      rw [hword]
      exact ⟨_, List.cons_append⟩
    rw [hrest]
    exact List.dropWhile_cons_of_neg (by decide)
  rw [Text.trim, hfront, List.rdropWhile_eq_self_iff]
  intro hne
  have hlast := getLast_append_mem hne Nat.toDigits_ne_nil
  have hdigit := Nat.isDigit_of_mem_toDigits (by decide) (by decide) hlast
  exact Bool.eq_false_iff.1 (isWhitespace_of_isDigit hdigit)

theorem numberedName_injective : Function.Injective numberedName := by
  intro number other h
  have hdigits := List.append_cancel_left h
  rw [← Nat.ofDigitChars_ten_toDigits (n := number), hdigits, Nat.ofDigitChars_ten_toDigits]

/-- From `start` on this is the first number whose name no preset has. -/
structure FirstUnused (proxy : Option ProxySettings) (start number : Nat) : Prop where
  start_le : start ≤ number
  fresh : ∀ present, proxy = some present →
    findMappingPresetIndex present (numberedName number) = none
  used : ∀ smaller, start ≤ smaller → smaller < number →
    ∃ present, proxy = some present ∧
      findMappingPresetIndex present (numberedName smaller) ≠ none

theorem unusedPresetName_first {proxy : Option ProxySettings} {fuel start : Nat} {name : Text}
    (h : unusedPresetName proxy fuel start = some name) :
    ∃ number, name = numberedName number ∧ FirstUnused proxy start number := by
  induction fuel generalizing start with
  | zero => cases h
  | succ fuel ih =>
    unfold unusedPresetName at h
    split at h
    case isTrue hfresh =>
      obtain rfl := Option.some.inj h
      refine ⟨start, rfl, Nat.le_refl start, fun present hpresent => ?_,
        fun smaller hstart hlt => absurd hstart (Nat.not_le_of_lt hlt)⟩
      rw [hpresent] at hfresh
      exact Option.isNone_iff_eq_none.1 hfresh
    case isFalse hused =>
      obtain ⟨number, hname, hfirst⟩ := ih h
      refine ⟨number, hname, Nat.le_of_succ_le hfirst.start_le, hfirst.fresh,
        fun smaller hstart hlt => ?_⟩
      rcases Nat.eq_or_lt_of_le hstart with rfl | hafter
      · cases proxy with
        | none => exact absurd rfl hused
        | some present =>
          refine ⟨present, rfl, fun hnone => hused ?_⟩
          rw [Option.all_some, hnone]
          rfl
      · exact hfirst.used smaller hafter hlt

/-- The loop only runs out of numbers when each of them is the name of a preset. -/
theorem used_of_unusedPresetName_eq_none {proxy : Option ProxySettings} {fuel number : Nat}
    (h : unusedPresetName proxy fuel number = none) (i : Nat) (hi : i < fuel) :
    ∃ present ∈ proxy, numberedName (number + i) ∈ present.presets.map fun preset =>
      preset.name.trim := by
  induction fuel generalizing number i with
  | zero => exact absurd hi (Nat.not_lt_zero i)
  | succ fuel ih =>
    unfold unusedPresetName at h
    split at h
    · cases h
    · rename_i hused
      cases i with
      | zero =>
        cases proxy with
        | none => exact absurd rfl hused
        | some present =>
          refine ⟨present, rfl, ?_⟩
          have hfound : findMappingPresetIndex present (numberedName number) ≠ none := by
            simpa using hused
          obtain ⟨index, hindex⟩ := Option.ne_none_iff_exists'.1 hfound
          obtain ⟨hlt, hname, -⟩ := List.findIdx?_eq_some_iff_getElem.1 hindex
          rw [Nat.add_zero, ← trim_numberedName, ← of_decide_eq_true hname]
          exact List.mem_map_of_mem (List.getElem_mem hlt)
      | succ i =>
        rw [Nat.add_comm i 1, ← Nat.add_assoc]
        exact ih h i (Nat.lt_of_succ_lt_succ hi)

/-- There are more numbers to try than presets. -/
theorem unusedPresetName_isSome (proxy : Option ProxySettings) (number : Nat) :
    ∃ name, unusedPresetName proxy (proxy.elim 0 (fun proxy => proxy.presets.length) + 1) number =
      some name := by
  refine Option.ne_none_iff_exists'.1 fun hnone => ?_
  have hused := used_of_unusedPresetName_eq_none hnone
  obtain ⟨present, rfl, -⟩ := hused 0 (Nat.succ_pos _)
  have hsubset : (List.range (present.presets.length + 1)).map (fun i => numberedName (number + i)) ⊆
      present.presets.map fun preset => preset.name.trim := by
    intro name hname
    obtain ⟨i, hi, rfl⟩ := List.mem_map.1 hname
    obtain ⟨_, ⟨⟩, hmem⟩ := hused i (List.mem_range.1 hi)
    exact hmem
  have hnodup : ((List.range (present.presets.length + 1)).map
      (fun i => numberedName (number + i))).Nodup :=
    List.nodup_range.map fun i j h => Nat.add_left_cancel (numberedName_injective h)
  have hlength := (List.subperm_of_subset hnodup hsubset).length_le
  rw [List.length_map, List.length_map, List.length_range] at hlength
  exact absurd hlength (Nat.not_succ_le_self _)

/-- A preset without rules is valid. -/
theorem validateInitialPreset_initialPreset (env : Environment) {name : Text}
    (hname : name.trim ≠ []) :
    validateInitialPreset env { SettingsPopup.initialPreset with name } = .ok () := by
  let proxy : ProxySettings :=
    { activePreset := some name, presets := [{ SettingsPopup.initialPreset with name }] }
  have hvalid : SectionValid env proxy := by
    refine ⟨fun preset hpreset => ?_, List.nodup_singleton _, fun preset hpreset table rule hrule => ?_,
      fun h => absurd h hname, fun _ => ⟨_, List.mem_singleton_self _, rfl⟩⟩
    · rw [List.mem_singleton.1 hpreset]
      exact hname
    · rw [List.mem_singleton.1 hpreset] at hrule
      cases table <;> cases hrule
  have hnone : (Mapping.validateProxySettingsCapped env proxy 1).1 = [] := by
    rw [Mapping.validateProxySettingsCapped_eq, proxyDiagnostics_eq_nil.2 hvalid]
    rfl
  unfold validateInitialPreset
  dsimp only
  rw [show (Mapping.validateProxySettingsCapped env _ 1).1 = [] from hnone]

/-- The section with a new preset, which is the active one. -/
def withNewPreset (proxy : Option ProxySettings) (name : Text) : ProxySettings :=
  { enable := proxy.any fun proxy => proxy.enable
    activePreset := some name
    presets := (proxy.getD {}).presets ++ [{ SettingsPopup.initialPreset with name }] }

theorem createPreset_initialPreset {name : Text} (htrim : name.trim = name) (hname : name ≠ [])
    (hfresh : ∀ proxy, settings.proxy = some proxy → findMappingPresetIndex proxy name = none) :
    applyMappingMutation env settings (.createPreset name (some SettingsPopup.initialPreset)) =
      (settings.withProxy { settings.proxy.getD {} with
        presets := (settings.proxy.getD {}).presets ++
          [{ SettingsPopup.initialPreset with name }] },
        .ok (mutationResult (.preset name) true)) := by
  have hnormalized : normalizedName name = .ok name :=
    normalizedName_eq_ok.2 ⟨by rwa [htrim], htrim.symm⟩
  have hnone : ¬ (settings.proxy.any fun proxy =>
      (findMappingPresetIndex proxy name).isSome) = true := by
    cases hproxy : settings.proxy with
    | none => exact fun h => (by cases h)
    | some proxy => simp [hfresh proxy hproxy]
  have happly : applyToCandidate env settings
      (.createPreset name (some SettingsPopup.initialPreset)) =
        .ok (settings.withProxy { settings.proxy.getD {} with
          presets := (settings.proxy.getD {}).presets ++
            [{ SettingsPopup.initialPreset with name }] },
          mutationResult (.preset name) true) := by
    show createPreset env settings name (some SettingsPopup.initialPreset) = _
    unfold createPreset
    rw [hnormalized]
    show (if _ then _ else _ : Except _ _) = _
    rw [if_neg hnone]
    show (validateInitialPreset env { SettingsPopup.initialPreset with name } >>= _) = _
    rw [validateInitialPreset_initialPreset env (by rwa [htrim])]
    rfl
  unfold applyMappingMutation
  rw [happly]
  rfl

/-- The last preset is found by its name when no other has it. -/
theorem findMappingPresetIndex_last {proxy : ProxySettings} {preset : ProxyPresetSettings}
    (hfresh : findMappingPresetIndex proxy preset.name = none) (enable : Bool)
    (active : Option Text) :
    findMappingPresetIndex
      { enable, activePreset := active, presets := proxy.presets ++ [preset] } preset.name =
        some proxy.presets.length := by
  unfold findMappingPresetIndex at hfresh ⊢
  rw [List.findIdx?_append, hfresh]
  simp

theorem setActivePreset_of_found {proxy : ProxySettings} {name : Text} {index : Nat}
    (hproxy : settings.proxy = some proxy) (htrim : name.trim = name) (hname : name ≠ [])
    (hfound : findMappingPresetIndex proxy name = some index) :
    ∃ result, applyMappingMutation env settings (.setActivePreset (some name)) =
      (settings.withProxy { proxy with activePreset := some name }, .ok result) := by
  have hnormalized : normalizedName name = .ok name :=
    normalizedName_eq_ok.2 ⟨by rwa [htrim], htrim.symm⟩
  have happly : applyMappingMutationOwned env settings (.setActivePreset (some name)) =
      .ok (settings.withProxy { proxy with activePreset := some name },
        mutationResult .activePreset (proxy.activePreset ≠ some name)) := by
    show setActivePreset settings (some name) = _
    unfold setActivePreset
    rw [requireProxy_eq_ok.2 hproxy]
    show (normalizedName name >>= _ : Except _ _) = _
    rw [hnormalized]
    show (requirePresetIndex proxy name >>= _ : Except _ _) = _
    rw [requirePresetIndex_eq_ok.2 hfound]
    rfl
  rw [applyMappingMutation_eq, happly]
  exact ⟨_, rfl⟩

end Fluxcope.Popup
