import Fluxcope.Popup.EditsSpec
import Fluxcope.Popup.Events
import Fluxcope.TextInput.StateSpec
/-!
# The index of the mode stays in its table

The index is set apart from the draft.  It is in range after every event because each
action that may shorten a table clamps it afterwards, an editor opens only on a row that is
there, and a toggle leaves the tables as long as they are.
-/

namespace Fluxcope.Popup

open Fluxcope.Library Fluxcope.Settings
open Fluxcope.Mapping (Environment)

/-- The index of a row, or zero in an empty table. -/
def InTable (index count : Nat) : Prop := index < count ∨ index = 0 ∧ count = 0

def EditMode.Indexed {S : Type} (graphemes : Text → List Text) (settings : AppSettings) :
    EditMode S → Prop
  | .browse | .select _ | .unsavedConfirm _ => True
  | .ruleTable table index => InTable index (ruleCount settings table)
  | .ruleEditor table index source target _ =>
    index < ruleCount settings table ∧ TextInput.WellFormed graphemes source ∧
      TextInput.WellFormed graphemes target
  | .prefilterTable index => InTable index settings.recording.prefilter.includeUrlPatterns.length
  | .prefilterEditor index input =>
    index < settings.recording.prefilter.includeUrlPatterns.length ∧
      TextInput.WellFormed graphemes input
  | .field _ input => TextInput.WellFormed graphemes input

/-- The index and the texts of the mode fit the draft. -/
def SettingsPopup.Indexed {S : Type} (graphemes : Text → List Text) (popup : SettingsPopup S) :
    Prop :=
  popup.mode.Indexed graphemes popup.draft.current

/-- What an event leaves: a draft that was edited, and an index in range. -/
structure Reaches {S : Type} (graphemes : Text → List Text) (env : Environment)
    (popup popup' : SettingsPopup S) : Prop where
  edits : Edits env popup.draft.current popup'.draft.current
  indexed : popup'.Indexed graphemes

theorem inTable_clamp (index count : Nat) : InTable (min index (count - 1)) count := by
  unfold InTable
  omega

theorem inTable_zero (count : Nat) : InTable 0 count := by
  unfold InTable
  omega

section Popup

variable {S : Type} {graphemes : Text → List Text} {env : Environment}
  {popup popup' popup'' : SettingsPopup S}

theorem Reaches.trans (h : Reaches graphemes env popup popup')
    (h' : Reaches graphemes env popup' popup'') : Reaches graphemes env popup popup'' :=
  ⟨h.edits.trans h'.edits, h'.indexed⟩

/-- Nothing is indexed while browsing. -/
theorem Reaches.of_browse (hedits : Edits env popup.draft.current popup'.draft.current)
    (hmode : popup'.mode = .browse) : Reaches graphemes env popup popup' := by
  refine ⟨hedits, ?_⟩
  unfold SettingsPopup.Indexed
  rw [hmode]
  trivial

theorem Reaches.of_draft (hdraft : popup'.draft.current = popup.draft.current)
    (hindexed : popup'.Indexed graphemes) : Reaches graphemes env popup popup' :=
  ⟨hdraft ▸ .refl _, hindexed⟩

theorem Indexed.congr (h : popup.Indexed graphemes) (hmode : popup'.mode = popup.mode)
    (hdraft : popup'.draft.current = popup.draft.current) : popup'.Indexed graphemes := by
  unfold SettingsPopup.Indexed
  rw [hmode, hdraft]
  exact h

theorem Reaches.of_same (h : popup.Indexed graphemes) (hmode : popup'.mode = popup.mode)
    (hdraft : popup'.draft.current = popup.draft.current) :
    Reaches graphemes env popup popup' :=
  .of_draft hdraft (Indexed.congr h hmode hdraft)

theorem Reaches.refl (h : popup.Indexed graphemes) : Reaches graphemes env popup popup :=
  .of_same h rfl rfl

/-! ## Rules -/

theorem selectRule_indexed (popup : SettingsPopup S) (table : ProxyRuleTable) (index : Nat) :
    (popup.selectRule table index).Indexed graphemes := by
  unfold SettingsPopup.Indexed
  rw [SettingsPopup.selectRule_mode, SettingsPopup.selectRule_draft]
  exact inTable_clamp _ _

theorem selectRule_reaches (popup : SettingsPopup S) (table : ProxyRuleTable) (index : Nat) :
    Reaches graphemes env popup (popup.selectRule table index) :=
  .of_draft (congrArg _ (popup.selectRule_draft table index)) (selectRule_indexed popup table index)

theorem deleteRule_reaches (popup : SettingsPopup S) (table : ProxyRuleTable) (index : Nat) :
    Reaches graphemes env popup (popup.deleteRule env table index) :=
  ⟨(popup.perform_actionEdits (.deleteRule table index)).edits, selectRule_indexed _ _ _⟩

theorem moveRuleUp_reaches (popup : SettingsPopup S) (table : ProxyRuleTable) (index : Nat) :
    Reaches graphemes env popup (popup.moveRuleUp env table index) :=
  ⟨(popup.perform_actionEdits (.moveRuleUp table index)).edits, selectRule_indexed _ _ _⟩

theorem moveRuleDown_reaches (popup : SettingsPopup S) (table : ProxyRuleTable) (index : Nat) :
    Reaches graphemes env popup (popup.moveRuleDown env table index) :=
  ⟨(popup.perform_actionEdits (.moveRuleDown table index)).edits, selectRule_indexed _ _ _⟩

theorem toggleRule_reaches {table : ProxyRuleTable} {selected : Nat}
    (h : popup.Indexed graphemes) (hmode : popup.mode = .ruleTable table selected)
    (other : ProxyRuleTable) (index : Nat) :
    Reaches graphemes env popup (popup.toggleRule env other index) := by
  refine ⟨(popup.perform_actionEdits (.toggleRule other index)).edits, ?_⟩
  unfold SettingsPopup.Indexed at h ⊢
  rw [hmode] at h
  rw [SettingsPopup.toggleRule_mode, hmode]
  show InTable _ _
  rw [SettingsPopup.ruleCount_toggleRule]
  exact h

section Texts

variable (hgraphemes : Segmentation graphemes)

include hgraphemes

theorem wellFormed_new (text : Text) : TextInput.WellFormed graphemes (.new text) :=
  (TextInput.Starts.new text).wellFormed hgraphemes

theorem startRuleEditor_reaches (h : popup.Indexed graphemes) (table : ProxyRuleTable)
    (index : Nat) : Reaches graphemes env popup (popup.startRuleEditor table index) := by
  unfold SettingsPopup.startRuleEditor
  split
  · exact .refl h
  · rename_i rule hrule
    exact .of_draft rfl ⟨lt_ruleCount hrule, wellFormed_new hgraphemes _,
      wellFormed_new hgraphemes _⟩

end Texts

theorem switchRuleEditorField_reaches (h : popup.Indexed graphemes) :
    Reaches graphemes env popup popup.switchRuleEditorField := by
  unfold SettingsPopup.switchRuleEditorField
  split
  · rename_i table index source target activeField hmode
    unfold SettingsPopup.Indexed at h
    rw [hmode] at h
    exact .of_draft rfl h
  · exact .refl h

/-! ## Patterns -/

theorem selectPrefilterPattern_indexed (popup : SettingsPopup S) (index : Nat) :
    (popup.selectPrefilterPattern index).Indexed graphemes := by
  unfold SettingsPopup.Indexed
  rw [SettingsPopup.selectPrefilterPattern_mode, SettingsPopup.selectPrefilterPattern_draft]
  exact inTable_clamp _ _

theorem selectPrefilterPattern_reaches
    (hproxy : popup'.draft.current.proxy = popup.draft.current.proxy) (index : Nat) :
    Reaches graphemes env popup (popup'.selectPrefilterPattern index) := by
  refine ⟨.of_proxy_eq ?_, selectPrefilterPattern_indexed popup' index⟩
  rw [SettingsPopup.selectPrefilterPattern_draft]
  exact hproxy

theorem addPrefilterPatternAfter_spec (popup : SettingsPopup S) (index : Option Nat) :
    ∃ added inserted, popup.addPrefilterPatternAfter index = some (added, inserted) ∧
      added.draft.current.proxy = popup.draft.current.proxy := by
  unfold SettingsPopup.addPrefilterPatternAfter vecInsert
  dsimp only
  rw [if_pos (Nat.min_le_right _ _)]
  exact ⟨_, _, rfl, rfl⟩

theorem deletePrefilterPattern_reaches (popup : SettingsPopup S) (index : Nat) :
    ∃ popup', popup.deletePrefilterPattern index = some popup' ∧
      Reaches graphemes env popup popup' := by
  unfold SettingsPopup.deletePrefilterPattern vecRemove
  by_cases hindex : index < popup.patterns.length
  · rw [if_pos hindex, if_pos hindex]
    exact ⟨_, rfl, selectPrefilterPattern_reaches (by rfl) _⟩
  · rw [if_neg hindex]
    exact ⟨_, rfl, selectPrefilterPattern_reaches (by rfl) _⟩

theorem vecSwap_of_lt {α : Type} {items : List α} {a b : Nat} (ha : a < items.length)
    (hb : b < items.length) : ∃ swapped, vecSwap items a b = some swapped := by
  unfold vecSwap
  rw [List.getElem?_eq_getElem ha, List.getElem?_eq_getElem hb]
  exact ⟨_, rfl⟩

/-- A row that is not the first is a row of the table, and so is the one above. -/
theorem movePrefilterPatternUp_reaches (popup : SettingsPopup S) {index : Nat}
    (h : InTable index popup.patterns.length) :
    ∃ popup', popup.movePrefilterPatternUp index = some popup' ∧
      Reaches graphemes env popup popup' := by
  unfold SettingsPopup.movePrefilterPatternUp
  by_cases hindex : 0 < index
  · have hlt : index < popup.patterns.length := by
      rcases h with h | ⟨rfl, -⟩
      · exact h
      · exact absurd hindex (Nat.lt_irrefl 0)
    obtain ⟨swapped, hswap⟩ := vecSwap_of_lt (Nat.lt_of_le_of_lt (Nat.sub_le index 1) hlt) hlt
    rw [if_pos hindex, hswap]
    exact ⟨_, rfl, selectPrefilterPattern_reaches (by rfl) _⟩
  · rw [if_neg hindex]
    exact ⟨_, rfl, selectPrefilterPattern_reaches (by rfl) _⟩

theorem movePrefilterPatternDown_reaches (popup : SettingsPopup S) (index : Nat) :
    ∃ popup', popup.movePrefilterPatternDown index = some popup' ∧
      Reaches graphemes env popup popup' := by
  unfold SettingsPopup.movePrefilterPatternDown
  by_cases hindex : index + 1 < popup.patterns.length
  · obtain ⟨swapped, hswap⟩ := vecSwap_of_lt (Nat.lt_of_succ_lt hindex) hindex
    rw [if_pos hindex, hswap]
    exact ⟨_, rfl, selectPrefilterPattern_reaches (by rfl) _⟩
  · rw [if_neg hindex]
    exact ⟨_, rfl, selectPrefilterPattern_reaches (by rfl) _⟩

theorem togglePrefilterPattern_reaches {selected : Nat} (h : popup.Indexed graphemes)
    (hmode : popup.mode = .prefilterTable selected) (index : Nat) :
    Reaches graphemes env popup (popup.togglePrefilterPattern index) := by
  refine ⟨.of_proxy_eq rfl, ?_⟩
  unfold SettingsPopup.Indexed at h ⊢
  rw [hmode] at h
  rw [show (popup.togglePrefilterPattern index).mode = popup.mode from rfl, hmode]
  show InTable _ (List.length _)
  rw [show (popup.togglePrefilterPattern index).draft.current.recording.prefilter.includeUrlPatterns =
    popup.patterns.modify index _ from rfl, List.length_modify]
  exact h

theorem applyCurrentPrefilterPattern_reaches (h : popup.Indexed graphemes) :
    Reaches graphemes env popup popup.applyCurrentPrefilterPattern.1 := by
  unfold SettingsPopup.applyCurrentPrefilterPattern
  split
  · split
    · exact .refl h
    · exact selectPrefilterPattern_reaches (by rfl) _
  · exact .refl h

/-! ## Keys in tables -/

section Texts

variable (hgraphemes : Segmentation graphemes)

include hgraphemes

theorem startPrefilterPatternEditor_reaches (h : popup.Indexed graphemes) (index : Nat) :
    Reaches graphemes env popup (popup.startPrefilterPatternEditor index) := by
  unfold SettingsPopup.startPrefilterPatternEditor
  split
  · exact .refl h
  · rename_i pattern hpattern
    exact .of_draft rfl ⟨(List.getElem?_eq_some_iff.1 hpattern).1, wellFormed_new hgraphemes _⟩

theorem handleRuleTableKey_reaches (h : popup.Indexed graphemes) (key : KeyEvent) :
    Reaches graphemes env popup (popup.handleRuleTableKey env key) := by
  unfold SettingsPopup.handleRuleTableKey
  split
  · rename_i table selected hmode
    dsimp only
    split
    · exact .of_browse (.refl _) rfl
    · exact startRuleEditor_reaches hgraphemes h table selected
    · exact startRuleEditor_reaches hgraphemes h table selected
    · exact toggleRule_reaches h hmode table selected
    · exact ⟨by
        rw [SettingsPopup.selectRule_draft]
        exact (popup.perform_actionEdits (.addRule table _)).edits, selectRule_indexed _ _ _⟩
    · exact deleteRule_reaches popup table selected
    · exact moveRuleDown_reaches popup table selected
    · exact moveRuleUp_reaches popup table selected
    · exact selectRule_reaches popup table _
    · exact selectRule_reaches popup table _
    · exact selectRule_reaches popup table _
    · exact selectRule_reaches popup table _
    · exact selectRule_reaches popup table _
    · exact selectRule_reaches popup table _
    · exact .refl h
  · exact .refl h

theorem handlePrefilterTableKey_reaches (h : popup.Indexed graphemes) (key : KeyEvent) :
    ∃ popup', popup.handlePrefilterTableKey key = some popup' ∧
      Reaches graphemes env popup popup' := by
  unfold SettingsPopup.handlePrefilterTableKey
  split
  · rename_i selected hmode
    have hselected : InTable selected popup.patterns.length := by
      unfold SettingsPopup.Indexed at h
      rw [hmode] at h
      exact h
    split
    · exact ⟨_, rfl, .of_browse (.refl _) rfl⟩
    · exact ⟨_, rfl, startPrefilterPatternEditor_reaches hgraphemes h selected⟩
    · exact ⟨_, rfl, startPrefilterPatternEditor_reaches hgraphemes h selected⟩
    · exact ⟨_, rfl, togglePrefilterPattern_reaches h hmode selected⟩
    · obtain ⟨added, inserted, hadd, hproxy⟩ := addPrefilterPatternAfter_spec popup
        (if popup.prefilterPatternCount > 0 then some selected else none)
      dsimp only
      rw [hadd]
      exact ⟨_, rfl, selectPrefilterPattern_reaches hproxy _⟩
    · exact deletePrefilterPattern_reaches popup selected
    · exact movePrefilterPatternDown_reaches popup selected
    · exact movePrefilterPatternUp_reaches popup hselected
    · exact ⟨_, rfl, selectPrefilterPattern_reaches rfl _⟩
    · exact ⟨_, rfl, selectPrefilterPattern_reaches rfl _⟩
    · exact ⟨_, rfl, selectPrefilterPattern_reaches rfl _⟩
    · exact ⟨_, rfl, selectPrefilterPattern_reaches rfl _⟩
    · exact ⟨_, rfl, selectPrefilterPattern_reaches rfl _⟩
    · exact ⟨_, rfl, selectPrefilterPattern_reaches rfl _⟩
    · exact ⟨_, rfl, .refl h⟩
  · exact ⟨_, rfl, .refl h⟩

/-! ## Keys in editors -/

omit hgraphemes in
theorem handleEscape_reaches (h : popup.Indexed graphemes) :
    Reaches graphemes env popup popup.handleEscape.1 := by
  unfold SettingsPopup.handleEscape
  split
  · split
    · exact .of_draft rfl trivial
    · exact .refl h
  · exact .of_draft rfl (inTable_clamp _ _)
  · exact .of_browse (.refl _) rfl

theorem handlePrefilterEditorKey_reaches (h : popup.Indexed graphemes) (key : KeyEvent) :
    ∃ popup', popup.handlePrefilterEditorKey graphemes key = some popup' ∧
      Reaches graphemes env popup popup' := by
  unfold SettingsPopup.handlePrefilterEditorKey
  split
  · exact ⟨_, rfl, applyCurrentPrefilterPattern_reaches h⟩
  split
  · rename_i index input hmode
    have hindexed := h
    unfold SettingsPopup.Indexed at hindexed
    rw [hmode] at hindexed
    obtain ⟨input', outcome, hkey, hwell, -⟩ :=
      TextInput.handleKey_spec hgraphemes hindexed.2 key.toInput
    cases key.code with
    | esc => exact ⟨_, rfl, selectPrefilterPattern_reaches rfl _⟩
    | input code =>
      cases code with
      | backspace | left | right | char _ =>
        dsimp only
        rw [hkey]
        exact ⟨_, rfl, .of_draft rfl ⟨hindexed.1, hwell⟩⟩
      | _ => exact ⟨_, rfl, .refl h⟩
    | _ => exact ⟨_, rfl, .refl h⟩
  · exact ⟨_, rfl, .refl h⟩

theorem handleRuleEditorKey_reaches (h : popup.Indexed graphemes) (key : KeyEvent) :
    ∃ popup', popup.handleRuleEditorKey graphemes env key = some popup' ∧
      Reaches graphemes env popup popup' := by
  unfold SettingsPopup.handleRuleEditorKey
  cases key.code with
  | esc => exact ⟨_, rfl, handleEscape_reaches h⟩
  | enter =>
    dsimp only
    split
    · exact ⟨_, rfl, ((popup.withMode .browse).perform_actionEdits (.applyRule _ _ _ _)).edits,
        inTable_clamp _ _⟩
    · exact ⟨_, rfl, .refl h⟩
  | tab | backTab | down | up => exact ⟨_, rfl, switchRuleEditorField_reaches h⟩
  | input code =>
    cases code with
    | backspace | left | right | char _ =>
      have hindexed := h
      unfold SettingsPopup.Indexed at hindexed
      dsimp only
      split <;> rename_i hmode
      · rw [hmode] at hindexed
        obtain ⟨source', outcome, hkey, hwell, -⟩ :=
          TextInput.handleKey_spec hgraphemes hindexed.2.1 key.toInput
        rw [hkey]
        exact ⟨_, rfl, .of_draft rfl ⟨hindexed.1, hwell, hindexed.2.2⟩⟩
      · rw [hmode] at hindexed
        obtain ⟨target', outcome, hkey, hwell, -⟩ :=
          TextInput.handleKey_spec hgraphemes hindexed.2.2 key.toInput
        rw [hkey]
        exact ⟨_, rfl, .of_draft rfl ⟨hindexed.1, hindexed.2.1, hwell⟩⟩
      · exact ⟨_, rfl, .refl h⟩
    | _ => exact ⟨_, rfl, .refl h⟩
  | _ => exact ⟨_, rfl, .refl h⟩

end Texts

/-! ## Text fields -/

theorem applyFieldValue_edits (popup : SettingsPopup S) (kind : FieldEditKind)
    (input : TextInput.TextInputState) :
    Edits env popup.draft.current (popup.applyFieldValue env kind input).1.draft.current := by
  unfold SettingsPopup.applyFieldValue
  cases kind with
  | serverPort =>
    dsimp only
    split
    · exact .of_proxy_eq rfl
    · exact .refl _
  | certificateStoreDir => exact .of_proxy_eq rfl
  | certificatePemFilename => exact .of_proxy_eq rfl
  | proxyPresetName => exact (popup.perform_actionEdits (.renamePreset _)).edits

theorem applyFieldValue_mode (popup : SettingsPopup S) (kind : FieldEditKind)
    (input : TextInput.TextInputState) :
    (popup.applyFieldValue env kind input).1.mode = popup.mode := by
  unfold SettingsPopup.applyFieldValue
  cases kind with
  | serverPort =>
    dsimp only
    split <;> rfl
  | certificateStoreDir => rfl
  | certificatePemFilename => rfl
  | proxyPresetName => exact popup.applyProxyPresetName_mode _

theorem applyCurrentField_reaches (h : popup.Indexed graphemes) :
    Reaches graphemes env popup (popup.applyCurrentField env).1 := by
  unfold SettingsPopup.applyCurrentField
  split
  · rename_i kind input hmode
    have hedits := @applyFieldValue_edits _ env (popup.withMode .browse) kind input
    have hbrowse := @applyFieldValue_mode _ env (popup.withMode .browse) kind input
    unfold SettingsPopup.Indexed at h
    rw [hmode] at h
    split <;> rename_i happly <;> rw [happly] at hedits hbrowse
    · exact ⟨hedits, h⟩
    · exact .of_browse hedits hbrowse
  · exact .refl h

section Texts

variable (hgraphemes : Segmentation graphemes)

include hgraphemes

theorem startFieldEdit_reaches (popup : SettingsPopup S) (kind : FieldEditKind) (value : Text) :
    Reaches graphemes env popup (popup.startFieldEdit kind value) :=
  .of_draft rfl (wellFormed_new hgraphemes value)

theorem handleFieldKey_reaches (h : popup.Indexed graphemes) (key : KeyEvent) :
    ∃ popup', popup.handleFieldKey graphemes env key = some popup' ∧
      Reaches graphemes env popup popup' := by
  unfold SettingsPopup.handleFieldKey
  by_cases henter : key.code = .enter
  · rw [if_pos henter]
    exact ⟨_, rfl, applyCurrentField_reaches h⟩
  rw [if_neg henter]
  have hindexed := h
  unfold SettingsPopup.Indexed at hindexed
  cases hmode : popup.mode with
  | field kind input =>
    rw [hmode] at hindexed
    obtain ⟨input', outcome, hkey, hwell, -⟩ :=
      TextInput.handleKey_spec hgraphemes hindexed key.toInput
    cases key.code with
    | esc => exact ⟨_, rfl, .of_browse (.refl _) rfl⟩
    | input code =>
      cases code with
      | backspace | char _ | left | right =>
        dsimp only
        rw [hkey]
        exact ⟨_, rfl, .of_draft rfl hwell⟩
      | _ => exact ⟨_, rfl, .refl h⟩
    | _ => exact ⟨_, rfl, .refl h⟩
  | _ => exact ⟨_, rfl, .refl h⟩

end Texts

/-! ## The list of the presets -/

theorem startProxyPresetSelect_reaches (popup : SettingsPopup S) (select : SelectWidget S) :
    Reaches graphemes env popup (popup.startProxyPresetSelect select) :=
  .of_draft rfl trivial

theorem applySelectCommitEffect_reaches (hedits : Edits env popup.draft.current popup'.draft.current)
    (effect : SelectCommitEffect) (state : S) :
    Reaches graphemes env popup (popup'.applySelectCommitEffect effect state) := by
  cases effect with
  | close => exact .of_browse hedits rfl
  | keepOpen => exact ⟨hedits, trivial⟩

theorem handleSelectKey_reaches (h : popup.Indexed graphemes) (select : SelectWidget S)
    (key : KeyEvent) :
    ∃ popup', popup.handleSelectKey env select key = some popup' ∧
      Reaches graphemes env popup popup' := by
  unfold SettingsPopup.handleSelectKey
  split
  · dsimp only
    split
    · rename_i commit _
      obtain ⟨committed, effect, hcommit, -, hedits⟩ :=
        (popup.withMode .browse).applySelectCommit_spec env commit
      rw [hcommit]
      exact ⟨_, rfl, @applySelectCommitEffect_reaches _ _ _ popup _ hedits effect _⟩
    · exact ⟨_, rfl, .of_browse (.refl _) rfl⟩
    · exact ⟨_, rfl, .of_draft rfl trivial⟩
  · exact ⟨_, rfl, .refl h⟩

theorem commitActiveSelectFilteredIndex_reaches (h : popup.Indexed graphemes)
    (select : SelectWidget S) (filteredIndex : Nat) :
    ∃ popup', popup.commitActiveSelectFilteredIndex env select filteredIndex = some popup' ∧
      Reaches graphemes env popup popup' := by
  unfold SettingsPopup.commitActiveSelectFilteredIndex
  split
  · dsimp only
    split
    · rename_i commit _
      obtain ⟨committed, effect, hcommit, -, hedits⟩ :=
        (popup.withMode .browse).applySelectCommit_spec env commit
      rw [hcommit]
      exact ⟨_, rfl, @applySelectCommitEffect_reaches _ _ _ popup _ hedits effect _⟩
    · exact ⟨_, rfl, .of_draft rfl trivial⟩
  · exact ⟨_, rfl, .refl h⟩

theorem scrollActiveSelect_reaches (h : popup.Indexed graphemes) (select : SelectWidget S)
    (down : Bool) : Reaches graphemes env popup (popup.scrollActiveSelect select down) := by
  unfold SettingsPopup.scrollActiveSelect
  split
  · exact .of_draft rfl trivial
  · exact .refl h

/-! ## Browsing -/

theorem selectTopic_reaches (popup : SettingsPopup S) (topic : SettingsTopic) :
    Reaches graphemes env popup (popup.selectTopic topic) :=
  .of_browse (.refl _) rfl

theorem selectNext_reaches (h : popup.Indexed graphemes) :
    Reaches graphemes env popup popup.selectNext := by
  unfold SettingsPopup.selectNext
  split
  · exact selectTopic_reaches popup _
  · exact .of_same h rfl rfl

theorem selectPrevious_reaches (h : popup.Indexed graphemes) :
    Reaches graphemes env popup popup.selectPrevious := by
  unfold SettingsPopup.selectPrevious
  split
  · exact selectTopic_reaches popup _
  · exact .of_same h rfl rfl

theorem startSelectedEdit_reaches (hgraphemes : Segmentation graphemes)
    (h : popup.Indexed graphemes) (select : SelectWidget S) :
    Reaches graphemes env popup (popup.startSelectedEdit select) := by
  have hclamp : Reaches graphemes env popup popup.clampSelectedRow := .of_same h rfl rfl
  refine hclamp.trans ?_
  have hclamped := hclamp.indexed
  unfold SettingsPopup.startSelectedEdit
  generalize popup.clampSelectedRow = popup at hclamped
  dsimp only
  split
  · exact startFieldEdit_reaches hgraphemes popup _ _
  · exact startFieldEdit_reaches hgraphemes popup _ _
  · exact startFieldEdit_reaches hgraphemes popup _ _
  · unfold SettingsPopup.startRecordingSelectedEdit
    split
    · refine .of_draft (by simp) ?_
      unfold SettingsPopup.Indexed
      rw [SettingsPopup.ensurePrefilterPatternVisible_mode]
      exact inTable_zero _
    · exact .refl hclamped
  · have hopen : ∀ table, Reaches graphemes env popup
        ((popup.withMode (.ruleTable table 0)).ensureRuleVisible table) := by
      intro table
      refine .of_draft (by simp) ?_
      unfold SettingsPopup.Indexed
      rw [SettingsPopup.ensureRuleVisible_mode]
      exact inTable_zero _
    split
    · exact startProxyPresetSelect_reaches popup select
    · split
      · exact startFieldEdit_reaches hgraphemes popup _ _
      · exact .refl hclamped
    · split
      · exact hopen _
      · exact .refl hclamped
    · split
      · exact hopen _
      · exact .refl hclamped
    · exact .refl hclamped
    · exact .refl hclamped
    · exact .refl hclamped
    · exact .refl hclamped
  · exact .refl hclamped

theorem toggleSelectedCheckbox_mode (popup : SettingsPopup S) :
    (popup.toggleSelectedCheckbox env).mode = popup.mode := by
  unfold SettingsPopup.toggleSelectedCheckbox
  dsimp only
  split
  · unfold SettingsPopup.toggleSelectedRecordingCheckbox
    split <;> rfl
  · rfl
  · exact SettingsPopup.toggleSelectedProxyCheckbox_mode _
  · rfl

theorem toggleSelectedCheckbox_edits (popup : SettingsPopup S) :
    Edits env popup.draft.current (popup.toggleSelectedCheckbox env).draft.current := by
  unfold SettingsPopup.toggleSelectedCheckbox
  dsimp only
  split
  · refine .of_proxy_eq ?_
    unfold SettingsPopup.toggleSelectedRecordingCheckbox
    split <;> rfl
  · exact .of_proxy_eq rfl
  · exact popup.clampSelectedRow.toggleSelectedProxyCheckbox_edits
  · exact .refl _

theorem toggleSelectedCheckbox_reaches (hmode : popup.mode = .browse) :
    Reaches graphemes env popup (popup.toggleSelectedCheckbox env) :=
  .of_browse (toggleSelectedCheckbox_edits popup) ((toggleSelectedCheckbox_mode popup).trans hmode)

/-- The index that is put into a table's mode is never reached from here. -/
theorem addRuleFromKey_reaches (h : popup.Indexed graphemes) (hmode : popup.mode = .browse) :
    Reaches graphemes env popup (popup.addRuleFromKey env) := by
  unfold SettingsPopup.addRuleFromKey
  split
  · exact .refl h
  · dsimp only
    split
    · exact .of_same h rfl rfl
    · rename_i table _
      have hbrowse : (popup.clampSelectedRow.addRuleAfter env table
          (popup.clampSelectedRow.selectedRuleIndex table)).1.mode = .browse := by
        rw [SettingsPopup.addRuleAfter_mode]
        exact hmode
      rw [hbrowse]
      exact .of_browse (popup.clampSelectedRow.perform_actionEdits (.addRule table _)).edits hbrowse

/-- While browsing no rule is selected. -/
theorem ruleActionFromKey_reaches (h : popup.Indexed graphemes) (hmode : popup.mode = .browse)
    (action : SettingsPopup S → ProxyRuleTable → Nat → SettingsPopup S) :
    Reaches graphemes env popup (popup.ruleActionFromKey action) := by
  have hnone (table : ProxyRuleTable) :
      popup.clampSelectedRow.selectedRuleIndex table = none := by
    unfold SettingsPopup.selectedRuleIndex
    rw [SettingsPopup.clampSelectedRow_mode, hmode]
  unfold SettingsPopup.ruleActionFromKey SettingsPopup.onSelectedRule
  split
  · exact .refl h
  · dsimp only
    rw [hnone, hnone]
    exact .of_same h rfl rfl

theorem addPrefilterPatternFromBrowse_spec (popup : SettingsPopup S) :
    ∃ popup' added, popup.addPrefilterPatternFromBrowse = some (popup', added) ∧
      (if added then Reaches graphemes env popup popup' else popup' = popup) := by
  unfold SettingsPopup.addPrefilterPatternFromBrowse
  split
  · exact ⟨_, _, rfl, rfl⟩
  · obtain ⟨patterned, inserted, hadd, hproxy⟩ := addPrefilterPatternAfter_spec popup none
    rw [hadd]
    exact ⟨_, _, rfl, selectPrefilterPattern_reaches hproxy _⟩

theorem saveAction_reaches (h : popup.Indexed graphemes) :
    Reaches graphemes env popup (popup.saveAction env).1 := by
  unfold SettingsPopup.saveAction
  split
  · exact .refl h
  · exact .of_browse (.refl _) rfl

theorem handleBrowseKey_reaches (hgraphemes : Segmentation graphemes)
    (h : popup.Indexed graphemes) (hmode : popup.mode = .browse) (select : SelectWidget S)
    (key : KeyEvent) :
    ∃ popup' action, popup.handleBrowseKey env select key = some (popup', action) ∧
      Reaches graphemes env popup popup' := by
  unfold SettingsPopup.handleBrowseKey
  dsimp only
  split
  · exact ⟨_, _, rfl, handleEscape_reaches h⟩
  · exact ⟨_, _, rfl, saveAction_reaches h⟩
  · split
    · exact ⟨_, _, rfl, .of_same h rfl rfl⟩
    · exact ⟨_, _, rfl, startSelectedEdit_reaches hgraphemes h select⟩
  · refine ⟨_, _, rfl, ?_⟩
    split
    · exact toggleSelectedCheckbox_reaches hmode
    · exact .refl h
  · split
    · obtain ⟨popup', added, hadd, hspec⟩ := @addPrefilterPatternFromBrowse_spec _ graphemes env popup
      rw [hadd]
      cases added with
      | true => exact ⟨_, _, rfl, hspec⟩
      | false =>
        obtain rfl : popup' = popup := hspec
        exact ⟨_, _, rfl, addRuleFromKey_reaches h hmode⟩
    · exact ⟨_, _, rfl, .refl h⟩
  · refine ⟨_, _, rfl, ?_⟩
    split
    · exact ruleActionFromKey_reaches h hmode _
    · exact .refl h
  · refine ⟨_, _, rfl, ?_⟩
    split
    · exact ruleActionFromKey_reaches h hmode _
    · exact .refl h
  · refine ⟨_, _, rfl, ?_⟩
    split
    · exact ruleActionFromKey_reaches h hmode _
    · exact .refl h
  · exact ⟨_, _, rfl, .of_same h rfl rfl⟩
  · exact ⟨_, _, rfl, .of_same h rfl rfl⟩
  · exact ⟨_, _, rfl, .of_same h rfl rfl⟩
  · exact ⟨_, _, rfl, .of_same h rfl rfl⟩
  · exact ⟨_, _, rfl, selectNext_reaches h⟩
  · exact ⟨_, _, rfl, selectNext_reaches h⟩
  · exact ⟨_, _, rfl, selectPrevious_reaches h⟩
  · exact ⟨_, _, rfl, selectPrevious_reaches h⟩
  · exact ⟨_, _, rfl, .refl h⟩

/-! ## Keys -/

theorem activateDialogAction_reaches (h : popup.Indexed graphemes) (action : DialogActionKind) :
    Reaches graphemes env popup (popup.activateDialogAction env action).1 := by
  cases action with
  | save => exact saveAction_reaches h
  | discard => exact .refl h
  | keepEditing => exact .of_browse (.refl _) rfl

theorem handleUnsavedConfirmKey_reaches (h : popup.Indexed graphemes) (key : KeyEvent) :
    Reaches graphemes env popup (popup.handleUnsavedConfirmKey env key).1 := by
  unfold SettingsPopup.handleUnsavedConfirmKey
  split
  · split
    · exact activateDialogAction_reaches h _
    · exact activateDialogAction_reaches h _
    · split
      · exact activateDialogAction_reaches h _
      · exact .refl h
    · split
      · exact activateDialogAction_reaches h _
      · exact .refl h
    · exact activateDialogAction_reaches h _
    · exact .of_draft rfl trivial
    · exact .of_draft rfl trivial
    · exact .of_draft rfl trivial
    · exact .of_draft rfl trivial
    · exact .refl h
  · exact .refl h

theorem quiet_reaches {result : Option (SettingsPopup S)}
    (h : ∃ popup', result = some popup' ∧ Reaches graphemes env popup popup') :
    ∃ popup' action, SettingsPopup.quiet result = some (popup', action) ∧
      Reaches graphemes env popup popup' := by
  obtain ⟨popup', rfl, hreaches⟩ := h
  exact ⟨popup', _, rfl, hreaches⟩

theorem handleKey_reaches (hgraphemes : Segmentation graphemes) (h : popup.Indexed graphemes)
    (select : SelectWidget S) (key : KeyEvent) :
    ∃ popup' action, popup.handleKey graphemes env select key = some (popup', action) ∧
      Reaches graphemes env popup popup' := by
  unfold SettingsPopup.handleKey
  split
  · exact ⟨_, _, rfl, handleUnsavedConfirmKey_reaches h key⟩
  · exact quiet_reaches (handleFieldKey_reaches hgraphemes h key)
  · exact quiet_reaches (handlePrefilterTableKey_reaches hgraphemes h key)
  · exact quiet_reaches (handlePrefilterEditorKey_reaches hgraphemes h key)
  · exact quiet_reaches (handleSelectKey_reaches h select key)
  · exact ⟨_, _, rfl, handleRuleTableKey_reaches hgraphemes h key⟩
  · exact quiet_reaches (handleRuleEditorKey_reaches hgraphemes h key)
  · rename_i hmode
    exact handleBrowseKey_reaches hgraphemes h hmode select key

theorem markTransactionPending_reaches (h : popup.Indexed graphemes) :
    Reaches graphemes env popup popup.markTransactionPending :=
  .of_same h rfl rfl

theorem handleKeyWhileTransactionPending_reaches (h : popup.Indexed graphemes) (key : KeyEvent) :
    Reaches graphemes env popup (popup.handleKeyWhileTransactionPending key) := by
  unfold SettingsPopup.handleKeyWhileTransactionPending
  split
  · split
    · exact .of_same h rfl rfl
    · exact .of_same h rfl rfl
    · exact .of_same h rfl rfl
    · exact .of_same h rfl rfl
    · exact selectNext_reaches h
    · exact selectNext_reaches h
    · exact selectPrevious_reaches h
    · exact selectPrevious_reaches h
    · exact .refl h
    · exact .refl h
    · exact markTransactionPending_reaches h
  · exact markTransactionPending_reaches h

theorem handlePaste_reaches (hgraphemes : Segmentation graphemes) (h : popup.Indexed graphemes)
    (select : SelectWidget S) (pasted : Text) :
    ∃ popup', popup.handlePaste graphemes select pasted = some popup' ∧
      Reaches graphemes env popup popup' := by
  have hindexed := h
  unfold SettingsPopup.Indexed at hindexed
  unfold SettingsPopup.handlePaste
  split <;> rename_i hmode <;> rw [hmode] at hindexed
  · obtain ⟨input', outcome, hpaste, hwell, -⟩ := TextInput.paste_spec hgraphemes hindexed pasted
    rw [hpaste]
    refine ⟨_, rfl, ?_⟩
    split
    · exact .of_draft rfl hwell
    · exact .of_draft rfl hwell
  · obtain ⟨input', outcome, hpaste, hwell, -⟩ :=
      TextInput.paste_spec hgraphemes hindexed.2 pasted
    rw [hpaste]
    exact ⟨_, rfl, .of_draft rfl ⟨hindexed.1, hwell⟩⟩
  · obtain ⟨source', outcome, hpaste, hwell, -⟩ :=
      TextInput.paste_spec hgraphemes hindexed.2.1 pasted
    rw [hpaste]
    exact ⟨_, rfl, .of_draft rfl ⟨hindexed.1, hwell, hindexed.2.2⟩⟩
  · obtain ⟨target', outcome, hpaste, hwell, -⟩ :=
      TextInput.paste_spec hgraphemes hindexed.2.2 pasted
    rw [hpaste]
    exact ⟨_, rfl, .of_draft rfl ⟨hindexed.1, hindexed.2.1, hwell⟩⟩
  · exact ⟨_, rfl, .of_draft rfl trivial⟩
  · exact ⟨_, rfl, .refl h⟩
  · exact ⟨_, rfl, .refl h⟩
  · exact ⟨_, rfl, .refl h⟩
  · exact ⟨_, rfl, .refl h⟩

/-! ## Clicks -/

section Texts

variable (hgraphemes : Segmentation graphemes)

include hgraphemes

theorem wellFormed_clickCursor {input : TextInput.TextInputState}
    (h : TextInput.WellFormed graphemes input) (clicked : Option Nat) :
    TextInput.WellFormed graphemes (SettingsPopup.clickCursor graphemes input clicked) := by
  cases clicked with
  | none => exact h
  | some cursor => exact TextInput.wellFormed_setCursor hgraphemes h cursor

theorem positionActiveInlineCursor_reaches (h : popup.Indexed graphemes)
    (target : SettingsClickTarget) :
    Reaches graphemes env popup (popup.positionActiveInlineCursor graphemes target).1 := by
  have hindexed := h
  unfold SettingsPopup.Indexed at hindexed
  unfold SettingsPopup.positionActiveInlineCursor
  split
  · rename_i hmode
    rw [hmode] at hindexed
    split
    · exact .of_draft rfl (wellFormed_clickCursor hgraphemes hindexed _)
    · exact .refl h
  · rename_i hmode
    rw [hmode] at hindexed
    split
    · exact .of_draft rfl ⟨hindexed.1, wellFormed_clickCursor hgraphemes hindexed.2 _⟩
    · exact .refl h
  · exact .refl h

theorem positionRuleCursor_reaches (h : popup.Indexed graphemes) (field : RuleEditField)
    (clicked : Option Nat) :
    Reaches graphemes env popup (popup.positionRuleCursor graphemes field clicked) := by
  have hindexed := h
  unfold SettingsPopup.Indexed at hindexed
  unfold SettingsPopup.positionRuleCursor
  split
  · rename_i hmode
    rw [hmode] at hindexed
    obtain ⟨hlt, hsource, htarget⟩ := hindexed
    cases field with
    | source =>
      exact .of_draft rfl ⟨hlt, wellFormed_clickCursor hgraphemes hsource clicked, htarget⟩
    | target =>
      exact .of_draft rfl ⟨hlt, hsource, wellFormed_clickCursor hgraphemes htarget clicked⟩
  · exact .refl h

/-- What lies over the popup takes every click. -/
theorem clickOverlay_reaches (h : popup.Indexed graphemes) (select : SelectWidget S)
    (target : SettingsClickTarget) {result : Option (SettingsPopup S × SettingsPopupAction)}
    (hresult : popup.clickOverlay graphemes env select target = some result) :
    ∃ popup' action, result = some (popup', action) ∧ Reaches graphemes env popup popup' := by
  unfold SettingsPopup.clickOverlay at hresult
  split at hresult
  · split at hresult <;> obtain rfl := Option.some.inj hresult
    · exact ⟨_, _, rfl, activateDialogAction_reaches h _⟩
    · exact ⟨_, _, rfl, .of_browse (.refl _) rfl⟩
    · exact ⟨_, _, rfl, .refl h⟩
  · split at hresult <;> obtain rfl := Option.some.inj hresult
    · refine ⟨_, _, rfl, ?_⟩
      unfold SettingsPopup.closeActiveSelect
      split
      · exact .of_browse (.refl _) rfl
      · exact .refl h
    · exact quiet_reaches (commitActiveSelectFilteredIndex_reaches h select _)
    · exact ⟨_, _, rfl, .of_draft rfl trivial⟩
    · exact ⟨_, _, rfl, .refl h⟩
  · split at hresult <;> obtain rfl := Option.some.inj hresult
    · exact ⟨_, _, rfl, handleEscape_reaches h⟩
    · exact ⟨_, _, rfl, positionRuleCursor_reaches hgraphemes h _ _⟩
    · exact ⟨_, _, rfl, .refl h⟩
  · cases hresult

theorem clickRuleRow_reaches (h : popup.Indexed graphemes) (table : ProxyRuleTable) (index : Nat)
    (toggle : Bool) (field : RuleEditField) (doubleClick : Bool) :
    Reaches graphemes env popup
      (popup.clickRuleRow graphemes env table index toggle field doubleClick) := by
  unfold SettingsPopup.clickRuleRow
  split
  · exact .refl h
  split
  · exact .refl h
  rename_i row hrow
  have hfocus : Reaches graphemes env popup (popup.focusContentRow row) := .of_browse (.refl _) rfl
  have hselected := hfocus.trans (selectRule_reaches (popup.focusContentRow row) table index)
  dsimp only
  split
  · exact hselected.trans (toggleRule_reaches hselected.indexed
      (SettingsPopup.selectRule_mode _ _ _) table index)
  · split
    · have hstarted := hselected.trans (startRuleEditor_reaches hgraphemes hselected.indexed
        table index)
      exact hstarted.trans (positionRuleCursor_reaches hgraphemes hstarted.indexed field none)
    · exact hselected

theorem clickTarget_reaches (h : popup.Indexed graphemes) (select : SelectWidget S)
    (target : SettingsClickTarget) (doubleClick : Bool) :
    Reaches graphemes env popup
      (popup.clickTarget graphemes env select target doubleClick).1 := by
  have hfocus (row : Nat) : Reaches graphemes env popup (popup.focusContentRow row) :=
    .of_browse (.refl _) rfl
  have hedit (row : Nat) : Reaches graphemes env popup
      ((popup.focusContentRow row).startSelectedEdit select) :=
    (hfocus row).trans (startSelectedEdit_reaches hgraphemes (hfocus row).indexed select)
  have hpattern (index : Nat) :
      Reaches graphemes env popup (popup.selectPrefilterPattern index) :=
    selectPrefilterPattern_reaches rfl index
  unfold SettingsPopup.clickTarget
  cases target with
  | topic topic => exact .of_browse (.refl _) rfl
  | table row =>
    dsimp only
    split
    · split
      · exact (hedit row).trans (.of_same (hedit row).indexed rfl rfl)
      · exact .of_same h rfl rfl
    · exact .refl h
  | field row cursor =>
    dsimp only
    split
    · exact (hedit row).trans (positionActiveInlineCursor_reaches hgraphemes
        (hedit row).indexed _)
    · exact .refl h
  | checkbox row =>
    dsimp only
    split
    · exact (hfocus row).trans (toggleSelectedCheckbox_reaches rfl)
    · exact .refl h
  | select => exact startProxyPresetSelect_reaches popup select
  | prefilterRow index toggle =>
    dsimp only
    split
    · split
      · exact (hpattern index).trans (togglePrefilterPattern_reaches (hpattern index).indexed
          (SettingsPopup.selectPrefilterPattern_mode _ _) index)
      · split
        · exact (hpattern index).trans (startPrefilterPatternEditor_reaches hgraphemes
            (hpattern index).indexed index)
        · exact hpattern index
    · exact .refl h
  | prefilterInput index cursor =>
    dsimp only
    split
    · have hstarted := (hpattern index).trans (startPrefilterPatternEditor_reaches hgraphemes
        (hpattern index).indexed index)
      exact hstarted.trans (positionActiveInlineCursor_reaches hgraphemes hstarted.indexed _)
    · exact .refl h
  | ruleRow table index toggle field =>
    exact clickRuleRow_reaches hgraphemes h table index toggle field doubleClick
  | outside =>
    have hbrowse : Reaches graphemes env popup (popup.withMode .browse) :=
      .of_browse (.refl _) rfl
    exact hbrowse.trans (handleEscape_reaches hbrowse.indexed)
  | background | selectOption | selectFilter | ruleField | dialogAction => exact .refl h

theorem applyClick_reaches (h : popup.Indexed graphemes) (select : SelectWidget S)
    (target : SettingsClickTarget) (doubleClick : Bool) :
    ∃ popup' action,
      popup.applyClick graphemes env select target doubleClick = some (popup', action) ∧
        Reaches graphemes env popup popup' := by
  unfold SettingsPopup.applyClick
  split
  · rename_i result hresult
    exact clickOverlay_reaches hgraphemes h select target hresult
  · have hcursor := @positionActiveInlineCursor_reaches _ _ env _ hgraphemes h target
    split <;> rename_i positioned hposition <;> rw [hposition] at hcursor
    · exact ⟨_, _, rfl, hcursor⟩
    · have hfield := hcursor.trans (applyCurrentField_reaches hcursor.indexed)
      dsimp only at hfield
      split <;> rename_i applied happly <;> rw [happly] at hfield
      · exact ⟨_, _, rfl, hfield⟩
      · have hpattern := hfield.trans (applyCurrentPrefilterPattern_reaches hfield.indexed)
        dsimp only at hpattern
        split <;> rename_i closed hclose <;> rw [hclose] at hpattern
        · exact ⟨_, _, rfl, hpattern⟩
        · exact ⟨_, _, rfl, hpattern.trans
            (clickTarget_reaches hgraphemes hpattern.indexed select target doubleClick)⟩

theorem handleClick_reaches (h : popup.Indexed graphemes) (select : SelectWidget S)
    (target : SettingsClickTarget) (doubleClick transactionPending : Bool) :
    ∃ popup' action, popup.handleClick graphemes env select target doubleClick
        transactionPending = some (popup', action) ∧ Reaches graphemes env popup popup' := by
  unfold SettingsPopup.handleClick
  split
  · split
    · split
      · exact ⟨_, _, rfl, .of_browse (.refl _) rfl⟩
      · exact ⟨_, _, rfl, markTransactionPending_reaches h⟩
    · exact ⟨_, _, rfl, markTransactionPending_reaches h⟩
  · exact applyClick_reaches hgraphemes h select target doubleClick

/-! ## Events -/

omit hgraphemes in
theorem modifyTableState_reaches (h : popup.Indexed graphemes) (table : Option ProxyRuleTable)
    (f : Nat → SettingsTableState → SettingsTableState) :
    Reaches graphemes env popup (popup.modifyTableState table f) := by
  unfold SettingsPopup.modifyTableState
  cases table with
  | none => exact .of_same h rfl rfl
  | some table => exact .of_same h (by simp) (by simp)

/-- No event panics, and the index is in range after it. -/
theorem handle_reaches (h : popup.Indexed graphemes) (select : SelectWidget S)
    (event : PopupEvent) :
    ∃ popup' action, popup.handle graphemes env select event = some (popup', action) ∧
      Reaches graphemes env popup popup' := by
  cases event with
  | key key => exact handleKey_reaches hgraphemes h select key
  | keyWhileTransactionPending key =>
    exact ⟨_, _, rfl, handleKeyWhileTransactionPending_reaches h key⟩
  | paste pasted => exact quiet_reaches (handlePaste_reaches hgraphemes h select pasted)
  | click target doubleClick transactionPending =>
    exact handleClick_reaches hgraphemes h select target doubleClick transactionPending
  | scrollActiveSelect down => exact ⟨_, _, rfl, scrollActiveSelect_reaches h select down⟩
  | scrollTable table down => exact ⟨_, _, rfl, modifyTableState_reaches h table _⟩
  | syncTableView table visibleRows => exact ⟨_, _, rfl, modifyTableState_reaches h table _⟩
  | saveFailed message => exact ⟨_, _, rfl, .of_browse (.refl _) rfl⟩
  | transactionPending => exact ⟨_, _, rfl, markTransactionPending_reaches h⟩

end Texts

/-- Over a whole run from any settings. -/
theorem run_indexed (hgraphemes : Segmentation graphemes) (h : popup.Indexed graphemes)
    (select : SelectWidget S) (events : List PopupEvent) :
    ∃ reached, run (SettingsPopup.next graphemes env select) popup events = some reached ∧
      reached.Indexed graphemes := by
  induction events generalizing popup with
  | nil => exact ⟨popup, rfl, h⟩
  | cons event events ih =>
    obtain ⟨popup', action, hhandle, hreaches⟩ := @handle_reaches _ _ env _ hgraphemes h select event
    obtain ⟨reached, hrun, hindexed⟩ := ih hreaches.indexed
    refine ⟨reached, run_cons_eq_some.2 ⟨popup', ?_, hrun⟩, hindexed⟩
    rw [SettingsPopup.next, hhandle]
    rfl

/-! ## The draft of the popup -/

/-- What the list does with a new preset: under the first name that is free it is added to
the draft as it stands. -/
def CreatesPreset (popup : SettingsPopup S) (result : Option (SettingsPopup S × SelectCommitEffect)) :
    Prop :=
  ∃ popup' number, result = some (popup', .close) ∧
    FirstUnused popup.draft.current.proxy 1 number ∧
    popup'.draft.current = popup.draft.current.withProxy
      (withNewPreset popup.draft.current.proxy (numberedName number))

/-- From any settings and over any events: the index of the mode is one of its table, no
event panics, and the draft is edited.  An action on the proxy section leaves what its
mutation makes of the settings with the virtual preset made real, and the draft as it was
if that has changed nothing.  A new preset is added to the draft as it stands. -/
theorem popup_keeps_draft (hgraphemes : Segmentation graphemes) (env : Environment)
    (select : SelectWidget S) (popup : SettingsPopup S) :
    (∀ settings events, ∃ reached,
      run (SettingsPopup.next graphemes env select) (popup.openWith settings) events =
        some reached ∧ reached.Indexed graphemes ∧
      ∀ event, ∃ popup' action,
        reached.handle graphemes env select event = some (popup', action) ∧
          popup'.Indexed graphemes ∧ Edits env reached.draft.current popup'.draft.current) ∧
    (∀ action : ProxyAction, ActionEdits env popup.draft.current
      (action.perform env popup).draft.current (action.mutation popup.draft.current)) ∧
    CreatesPreset popup (popup.createProxyPreset env) := by
  refine ⟨fun settings events => ?_, popup.perform_actionEdits, ?_⟩
  · have hopen : (popup.openWith settings).Indexed graphemes := trivial
    obtain ⟨reached, hrun, hindexed⟩ := @run_indexed _ _ env _ hgraphemes hopen select events
    refine ⟨reached, hrun, hindexed, fun event => ?_⟩
    obtain ⟨popup', action, hhandle, hreaches⟩ := handle_reaches hgraphemes hindexed select event
    exact ⟨popup', action, hhandle, hreaches.indexed, hreaches.edits⟩
  · obtain ⟨popup', number, hcreate, -, hfirst, hcurrent⟩ := popup.createProxyPreset_eq env
    exact ⟨popup', number, hcreate, hfirst, hcurrent⟩

end Popup

/-- A list that closes on every key and never commits. -/
def closingSelect : SelectWidget Unit where
  new := ()
  openWithSelected _ _ _ _ := ()
  handleKey _ _ _ _ := ((), .closed)
  commitFilteredIndex _ _ _ := ((), none)
  handlePaste _ _ := ((), false)
  setFilterCursor _ _ := ()
  scrollDown _ _ _ := ()
  scrollUp _ _ _ := ()

def samplePopup : SettingsPopup Unit :=
  SettingsPopup.withContext { configMode := .temporary, persistence := .ephemeral }

/-- The only rule is toggled, moved and deleted, and a pattern is added and edited. -/
def sampleEvents : List PopupEvent :=
  [.click (.topic .proxy) false false, .click (.table 4) false false,
    .key { code := .input (.char ' ') }, .key { code := .input (.char 'J') },
    .key { code := .input (.char 'd') }, .key { code := .esc },
    .click (.topic .recording) false false, .click (.table 2) false false,
    .key { code := .input (.char 'a') }, .key { code := .enter }, .paste ['x']]

theorem popup_keeps_draft_sample :
    ∃ reached, run (SettingsPopup.next singletons Mapping.sampleEnvironment closingSelect)
        (samplePopup.openWith { proxy := some Mapping.switchedOff }) sampleEvents = some reached ∧
      reached.Indexed singletons ∧
      ∀ event, ∃ popup' action,
        reached.handle singletons Mapping.sampleEnvironment closingSelect event =
          some (popup', action) ∧ popup'.Indexed singletons ∧
            Edits Mapping.sampleEnvironment reached.draft.current popup'.draft.current :=
  (popup_keeps_draft segmentation_singletons Mapping.sampleEnvironment closingSelect
    samplePopup).1 { proxy := some Mapping.switchedOff } sampleEvents

/-- The virtual preset is not made real for a new preset. -/
theorem createProxyPreset_alone :
    (samplePopup.createProxyPreset Mapping.sampleEnvironment).map (fun created =>
        created.1.draft.current.proxy.map fun proxy => proxy.presets.length) = some (some 1) ∧
      (applyMappingMutation Mapping.sampleEnvironment (materialized samplePopup.draft.current)
        (.createPreset (numberedName 1) (some SettingsPopup.initialPreset))).1.proxy.map
          (fun proxy => proxy.presets.length) = some 2 := by
  decide +kernel

end Fluxcope.Popup
