import Fluxcope.Settings.Preview
/-!
# What a preview promises

A preview and the commit of the same mutation agree on the effect or on the error,
and the engine in force after the commit decides as the preview explains.  The
exception is a mutation that changes nothing: only the preview compiles it.
-/

namespace Fluxcope.Settings

open Fluxcope.Library Fluxcope.Mapping

variable {env : Environment} {globs : Globset}

/-! ## What the engine in force decides -/

def MappingRuleMatch.location (found : MappingRuleMatch) : MappingRuleLocation :=
  { presetIndex := found.presetIndex, table := found.table, ruleIndex := found.index }

/-- The explanation is what the engine of the runtime decides for the URL. -/
def Decides (reader : UriReader env) (runtime : AppRuntime globs) (url : Text)
    (explanation : MappingExplanation env) : Prop :=
  match parseRequestUrl reader url with
  | none =>
    explanation.originalUrl = none ∧ explanation.effectiveUrl = none ∧
      explanation.localPath = none ∧ explanation.ruleMatches = []
  | some uri =>
    let trace := runtime.requestPolicy.mapping.traceRequest uri
    let decision := runtime.requestPolicy.mapping.mapRequest uri
    explanation.originalUrl = some uri ∧
      explanation.effectiveUrl = trace.effectiveUri ∧
      (trace.remoteMatch = none → decision.mappedUri = none) ∧
      (trace.remoteMatch ≠ none → decision.mappedUri = explanation.effectiveUrl) ∧
      explanation.localPath = decision.localPath ∧
      explanation.ruleMatches.map MappingRuleMatch.location =
        [trace.remoteMatch, trace.localMatch].reduceOption ∧
      ∀ found ∈ explanation.ruleMatches, ∃ proxy preset,
        runtime.settings.proxy = some proxy ∧
        proxy.presets[found.presetIndex]? = some preset ∧ found.preset = preset.name

theorem map_ruleMatch {proxy : ProxySettings} {locations : List MappingRuleLocation}
    (h : ∀ location ∈ locations, ∃ preset,
      proxy.presets[location.presetIndex]? = some preset) :
    (locations.filterMap (ruleMatch proxy)).map MappingRuleMatch.location = locations ∧
      ∀ found ∈ locations.filterMap (ruleMatch proxy), ∃ preset,
        proxy.presets[found.presetIndex]? = some preset ∧ found.preset = preset.name := by
  induction locations with
  | nil => exact ⟨rfl, fun found hfound => by cases hfound⟩
  | cons location locations ih =>
    obtain ⟨hmap, hnames⟩ := ih fun other hother => h other (List.mem_cons_of_mem location hother)
    obtain ⟨preset, hpreset⟩ := h location List.mem_cons_self
    have hmatch : ruleMatch proxy location = some
        { preset := preset.name
          presetIndex := location.presetIndex
          table := location.table
          index := location.ruleIndex } := by
      simp only [ruleMatch, hpreset, Option.map_some]
    rw [List.filterMap_cons_some hmatch]
    refine ⟨by rw [List.map_cons, hmap]; rfl, fun found hfound => ?_⟩
    rcases List.mem_cons.1 hfound with rfl | hfound
    · exact ⟨preset, hpreset, rfl⟩
    · exact hnames found hfound

/-- Explaining by the policy of some settings describes every runtime with these settings. -/
theorem decides_explained (reader : UriReader env) {runtime : AppRuntime globs}
    (hpolicy : runtime.requestPolicy = (RequestPolicy.compile env globs runtime.settings).1)
    (validation : MappingValidationResult) (url : Text) :
    Decides reader runtime url
      (explainCompiledMapping reader runtime.settings.proxy url validation
        (RequestPolicy.compile env globs runtime.settings).1.mapping) := by
  unfold Decides explainCompiledMapping
  cases parseRequestUrl reader url with
  | none => exact ⟨rfl, rfl, rfl, rfl⟩
  | some uri =>
    dsimp only
    rw [hpolicy]
    set engine := (RequestPolicy.compile env globs runtime.settings).1.mapping with hengine
    obtain ⟨hlocal, hnone, hsome⟩ := engine.mapRequest_trace uri
    refine ⟨rfl, rfl, hnone, hsome, hlocal.symm, ?_⟩
    have hlocated : ∀ location ∈
        [(engine.traceRequest uri).remoteMatch, (engine.traceRequest uri).localMatch].reduceOption,
        ∃ settings preset, runtime.settings.proxy = some settings ∧
          settings.presets[location.presetIndex]? = some preset :=
      trace_located env runtime.settings.proxy uri
    cases hproxy : runtime.settings.proxy with
    | none =>
      have hempty : [(engine.traceRequest uri).remoteMatch,
          (engine.traceRequest uri).localMatch].reduceOption = [] := by
        apply List.eq_nil_iff_forall_not_mem.2
        intro location hlocation
        obtain ⟨settings, preset, hsettings, -⟩ := hlocated location hlocation
        rw [hproxy] at hsettings
        cases hsettings
      exact ⟨hempty.symm, fun found hfound => by cases hfound⟩
    | some proxy =>
      obtain ⟨hmap, hnames⟩ := map_ruleMatch fun location hlocation => by
        obtain ⟨settings, preset, hsettings, hpreset⟩ := hlocated location hlocation
        rw [hproxy] at hsettings
        obtain rfl := Option.some.inj hsettings
        exact ⟨preset, hpreset⟩
      refine ⟨hmap, fun found hfound => ?_⟩
      obtain ⟨preset, hpreset, hname⟩ := hnames found hfound
      exact ⟨proxy, preset, rfl, hpreset, hname⟩

/-! ## The commit -/

/-- No transaction is under way, and the popup has nothing unsaved. -/
structure Free (runtime : AppRuntime globs) : Prop where
  pending : runtime.pendingSettingsTransaction = none
  appPending : runtime.app.settingsTransactionPending = false
  clean : runtime.app.settingsPopup.isDirty = false

theorem Free.admission {runtime : AppRuntime globs} (h : Free runtime) :
    runtime.checkSettingsAdmission (some runtime.settingsRevision) .mcp = .ok () := by
  simp [AppRuntime.checkSettingsAdmission, h.pending, h.appPending, h.clean]

/-- The work of a transaction on a free runtime, and the answer to it. -/
inductive Committed (env : Environment) (runtime : AppRuntime globs)
    (work : SettingsTransactionWork) : SettingsSystem globs → Prop
  | refused (s : SettingsSystem globs) (error : SettingsError)
      (hprepare : prepareCandidate env globs runtime.settings work.change = .error error)
      (hreplies : s.replies = [(work, .error error)]) : Committed env runtime work s
  | unchanged (s : SettingsSystem globs) (candidate : PreparedSettingsCandidate globs)
      (result : SettingsTransactionResult)
      (hprepare : prepareCandidate env globs runtime.settings work.change = .ok candidate)
      (heffect : candidate.effect = .unchanged)
      (hreplies : s.replies = [(work, .ok result)]) (houtcome : result.outcome = .unchanged)
      (haffected : result.affected = candidate.affected)
      (hsettings : s.runtime.settings = runtime.settings)
      (hpolicy : s.runtime.requestPolicy = runtime.requestPolicy) : Committed env runtime work s
  | changed (s : SettingsSystem globs) (candidate : PreparedSettingsCandidate globs)
      (result : SettingsTransactionResult)
      (hprepare : prepareCandidate env globs runtime.settings work.change = .ok candidate)
      (heffect : candidate.effect = .changed)
      (hreplies : s.replies = [(work, .ok result)]) (houtcome : result.outcome = .committed)
      (haffected : result.affected = candidate.affected)
      (hsettings : s.runtime.settings = candidate.settings)
      (hpolicy : s.runtime.requestPolicy =
        (RequestPolicy.compile env globs candidate.settings).1) : Committed env runtime work s

theorem answer_mcp {s : SettingsSystem globs} {work : SettingsTransactionWork}
    (horigin : work.origin = .mcp) (reply : TransactionReply) :
    s.answer work reply = { s with phase := .idle, replies := s.replies ++ [(work, reply)] } := by
  simp only [SettingsSystem.answer, horigin]

theorem apply_clean {app : App} (hclean : app.settingsPopup.isDirty = false)
    (settings : AppSettings) (revision : Nat) (origin : SettingsTransactionOrigin) :
    ∃ app', app.applySettingsTransactionCommitFromOrigin settings revision origin = .ok app' := by
  refine ⟨_, if_neg ?_⟩
  rw [hclean, Bool.and_false]
  exact Bool.false_ne_true

theorem SettingsSystem.proceed_idle {s : SettingsSystem globs} (h : s.phase = .idle) :
    s.proceed env = s := by
  unfold proceed
  rw [h]

/-- A clean popup lets the commit through, and the service answers with its result. -/
theorem SettingsSystem.proceed_finalizing {s : SettingsSystem globs} {work : SettingsTransactionWork}
    {begun : BeginSettingsTransactionReply} {commit : AdmittedSettingsCommit globs}
    (hphase : s.phase = .finalizing work begun commit) (held : s.Held work begun)
    (hcommit : CommitOf env work begun commit) (horigin : work.origin = .mcp)
    (hclean : s.runtime.app.settingsPopup.isDirty = false) :
    ∃ result, (s.proceed env).phase = .idle ∧
      (s.proceed env).replies = s.replies ++ [(work, .ok result)] ∧
      result.outcome = commit.outcome ∧ result.affected = commit.affected ∧
      (commit.outcome = .unchanged → (s.proceed env).runtime.settings = s.runtime.settings ∧
        (s.proceed env).runtime.requestPolicy = s.runtime.requestPolicy) ∧
      (commit.outcome = .committed → (s.proceed env).runtime.settings = commit.settings ∧
        (s.proceed env).runtime.requestPolicy =
          (RequestPolicy.compile env globs commit.settings).1) := by
  have hproceed : s.proceed env = s.finalizeTransaction work begun commit := by
    simp only [proceed, hphase]
  have hended := finalizeTransaction_ended held hcommit
  rw [← hproceed] at hended
  generalize s.proceed env = t at hended ⊢
  cases hended with
  | unchanged outcome =>
    rw [answer_mcp horigin]
    refine ⟨_, rfl, rfl, outcome.symm, rfl, fun _ => ⟨rfl, rfl⟩, fun hcommitted => ?_⟩
    rw [outcome] at hcommitted
    cases hcommitted
  | committed outcome app happ =>
    rw [answer_mcp horigin]
    refine ⟨_, rfl, rfl, outcome.symm, rfl, fun hunchanged => ?_, fun _ => ⟨rfl, rfl⟩⟩
    rw [outcome] at hunchanged
    cases hunchanged
  | torn outcome error happ =>
    obtain ⟨app, happ'⟩ := apply_clean hclean commit.settings
      (nextRevision s.runtime.settingsRevision) work.origin
    rw [happ] at happ'
    cases happ'

theorem mutateMapping_committed {runtime : AppRuntime globs} (hfree : Free runtime)
    (mutation : MappingMutation) :
    Committed env runtime (.mutateMapping mutation runtime.settingsRevision)
      (mutateMapping env runtime mutation runtime.settingsRevision) := by
  set work : SettingsTransactionWork := .mutateMapping mutation runtime.settingsRevision with hwork
  let admitted (phase : TransactionPhase globs) : SettingsSystem globs :=
    { runtime := runtime.occupy .mcp, phase }
  have held : ∀ phase, (admitted phase).Held work runtime.begunReply :=
    fun phase => ⟨rfl, rfl, rfl⟩
  have hbegin : SettingsSystem.proceed env
      ({ runtime, phase := .beginning work } : SettingsSystem globs) =
        admitted (.admitted work runtime.begunReply) := by
    simp only [SettingsSystem.proceed, SettingsSystem.beginTransaction, AppRuntime.executeControl,
      hwork, SettingsTransactionWork.mutateMapping, hfree.admission]
    rfl
  have hmutate : mutateMapping env runtime mutation runtime.settingsRevision =
      SettingsSystem.proceed env (SettingsSystem.proceed env
        ((admitted (.admitted work runtime.begunReply)).prepareTransaction env work
          runtime.begunReply)) := by
    unfold mutateMapping
    rw [Function.iterate_succ_apply, ← hwork, hbegin]
    rfl
  have hcurrent : runtime.begunReply.settings = runtime.settings := rfl
  rw [hmutate]
  unfold SettingsSystem.prepareTransaction
  rw [hcurrent]
  cases hprepare : prepareCandidate env globs runtime.settings work.change with
  | error error =>
    have habort : SettingsSystem.proceed env
        (admitted (.aborting work runtime.begunReply error)) =
        { admitted (.aborting work runtime.begunReply error) with
          runtime := (runtime.occupy .mcp).release
          phase := .idle
          replies := [(work, .error error)] } :=
      (SettingsSystem.abortTransaction_eq (held _) error).trans (answer_mcp rfl _)
    refine .refused _ error hprepare ?_
    show (SettingsSystem.proceed env (SettingsSystem.proceed env
      (admitted (.aborting work runtime.begunReply error)))).replies = _
    rw [habort, SettingsSystem.proceed_idle rfl]
  | ok candidate =>
    have hcandidate := prepareCandidate_eq_ok hprepare
    have happlied := hcandidate.applied
    cases heffect : candidate.effect with
    | unchanged =>
      rw [heffect] at happlied
      have hsettings := applyChange_unchanged happlied
      rw [hsettings] at happlied
      let commit : AdmittedSettingsCommit globs :=
        { settings := candidate.settings
          policy := none
          outcome := .unchanged
          affected := candidate.affected
          persistence := runtime.begunReply.persistence }
      have hcommit : SettingsSystem.CommitOf env work runtime.begunReply commit :=
        .unchanged rfl happlied hsettings
      obtain ⟨result, hidle, hreplies, houtcome, haffected, hkept, -⟩ :=
        SettingsSystem.proceed_finalizing rfl
          (held (.finalizing work runtime.begunReply commit)) hcommit rfl hfree.clean
      simp only [heffect, if_true]
      rw [SettingsSystem.proceed_idle hidle]
      exact .unchanged _ candidate result hprepare heffect hreplies houtcome haffected
        (hkept rfl).1 (hkept rfl).2
    | changed =>
      rw [heffect] at happlied
      let persisted := (admitted (.prepared work runtime.begunReply candidate)).persistTransaction
        work runtime.begunReply candidate
      have hpersisted : persisted.Held work runtime.begunReply := ⟨rfl, rfl, rfl⟩
      have hcommit : SettingsSystem.CommitOf env work runtime.begunReply
          { settings := candidate.settings
            policy := candidate.policy
            outcome := .committed
            affected := candidate.affected
            persistence := runtime.settingsContext.persistence } :=
        .committed rfl happlied (hcandidate.policy heffect).2
      obtain ⟨result, hidle, hreplies, houtcome, haffected, -, hcommitted⟩ :=
        SettingsSystem.proceed_finalizing rfl hpersisted hcommit rfl hfree.clean
      simp only [heffect, reduceCtorEq, if_false]
      exact .changed _ candidate result hprepare heffect hreplies houtcome haffected
        (hcommitted rfl).1 (hcommitted rfl).2

/-! ## Preview and commit -/

/-- The preview leaves the runtime, and says of the mutation and the URLs what the
commit of the mutation brings about. -/
def Predicts (env : Environment) (reader : UriReader env) (runtime : AppRuntime globs)
    (mutation : MappingMutation) (urls : List Text) : Prop :=
  let preview := previewMappingMutation env reader runtime mutation runtime.settingsRevision urls
  let commit := mutateMapping env runtime mutation runtime.settingsRevision
  preview.1 = runtime ∧
    match preview.2, commit.replies with
    | .ok reply, [(_, .ok result)] =>
      reply.preview.affected = result.affected ∧
        (reply.preview.effect = .changed ↔ result.outcome = .committed) ∧
        List.Forall₂ (Decides reader commit.runtime) urls reply.preview.explanations
    | .error error, [(_, .error error')] => error = error'
    | _, _ => False

/-- The mutation changes nothing, and the settings as they are would not compile. -/
def IdleOnBroken (env : Environment) (globs : Globset) (settings : AppSettings)
    (mutation : MappingMutation) : Prop :=
  (∃ candidate result, applyMappingMutationOwned env settings mutation = .ok (candidate, result) ∧
    result.effect = .unchanged) ∧ ¬ PatternsCompile globs settings

theorem previewMappingMutation_eq (reader : UriReader env) {runtime : AppRuntime globs}
    (hfree : Free runtime) (mutation : MappingMutation) {urls : List Text}
    (hurls : validatePreviewUrls urls = .ok ()) :
    previewMappingMutation env reader runtime mutation runtime.settingsRevision urls =
      (runtime, (previewCandidate env reader globs runtime.settings mutation urls).map fun preview =>
        { revision := runtime.settingsRevision
          configMode := runtime.settingsContext.configMode
          persistence := runtime.settingsContext.persistence
          preview }) := by
  simp only [previewMappingMutation, hurls, AppRuntime.executeControl, hfree.admission]
  rfl

theorem decides_preview (reader : UriReader env) {runtime : AppRuntime globs}
    (hpolicy : runtime.requestPolicy = (RequestPolicy.compile env globs runtime.settings).1)
    (urls : List Text) :
    List.Forall₂ (Decides reader runtime) urls (urls.map fun url =>
      explainCompiledMapping reader runtime.settings.proxy url
        (validateMappingCandidate env runtime.settings.proxy)
        (RequestPolicy.compile env globs runtime.settings).1.mapping) := by
  rw [List.forall₂_map_right_iff]
  exact List.forall₂_same.2 fun url _ => decides_explained reader hpolicy _ url

/-! ### Preparing a mutation -/

section Prepare

variable {settings candidate : AppSettings} {mutation : MappingMutation}
  {result : MappingMutationResult}

theorem prepare_mapping_unchanged
    (happly : applyMappingMutationOwned env settings mutation = .ok (candidate, result))
    (heffect : result.effect = .unchanged) :
    prepareCandidate env globs settings (.mapping mutation) = .ok
      { settings, policy := none, effect := .unchanged, affected := result.affected } := by
  simp [prepareCandidate, applyChange, happly, heffect]

theorem prepare_mapping_changed
    (happly : applyMappingMutationOwned env settings mutation = .ok (candidate, result))
    (heffect : result.effect = .changed) :
    prepareCandidate env globs settings (.mapping mutation) =
      (compileCandidate env globs candidate).map fun policy =>
        { settings := candidate
          policy := some policy
          effect := .changed
          affected := result.affected } := by
  simp only [prepareCandidate, applyChange, happly, heffect, if_true, reduceCtorEq, if_false]
  cases compileCandidate env globs candidate <;> rfl

theorem unchanged_mapping {prepared : PreparedSettingsCandidate globs}
    (h : prepareCandidate env globs settings (.mapping mutation) = .ok prepared)
    (heffect : prepared.effect = .unchanged) :
    ∃ candidate result, applyMappingMutationOwned env settings mutation = .ok (candidate, result) ∧
      result.effect = .unchanged := by
  have happlied := (prepareCandidate_eq_ok h).applied
  unfold applyChange at happlied
  cases happly : applyMappingMutationOwned env settings mutation with
  | error failure =>
    simp only [happly] at happlied
    cases happlied
  | ok success =>
    simp only [happly] at happlied
    obtain ⟨-, hrest⟩ := Prod.mk.inj (Except.ok.inj happlied)
    exact ⟨_, _, rfl, (Prod.mk.inj hrest).1.trans heffect⟩

/-- A mutation the transaction would turn down fails its preview with the same error. -/
theorem previewCandidate_error (reader : UriReader env) {error : SettingsError} (urls : List Text)
    (h : prepareCandidate env globs settings (.mapping mutation) = .error error) :
    previewCandidate env reader globs settings mutation urls = .error error := by
  unfold previewCandidate
  cases happly : applyMappingMutationOwned env settings mutation with
  | error failure =>
    have hprepare : prepareCandidate env globs settings (.mapping mutation) =
        .error failure.toSettingsError := by
      simp [prepareCandidate, applyChange, happly]
    rw [hprepare] at h
    exact congrArg Except.error (Except.error.inj h)
  | ok success =>
    obtain ⟨candidate, result⟩ := success
    cases heffect : result.effect with
    | unchanged =>
      rw [prepare_mapping_unchanged happly heffect] at h
      cases h
    | changed =>
      rw [prepare_mapping_changed happly heffect] at h
      cases hcompile : compileCandidate env globs candidate with
      | error failure =>
        rw [hcompile] at h
        simp only [hcompile, Except.error.inj h]
      | ok policy =>
        rw [hcompile] at h
        cases h

/-- A mutation that would be prepared is previewed, if its settings compile. -/
theorem previewCandidate_eq (reader : UriReader env) (urls : List Text)
    {prepared : PreparedSettingsCandidate globs}
    (h : prepareCandidate env globs settings (.mapping mutation) = .ok prepared) :
    previewCandidate env reader globs settings mutation urls =
      (compileCandidate env globs prepared.settings).map fun policy =>
        { affected := prepared.affected
          effect := prepared.effect
          validation := validateMappingCandidate env prepared.settings.proxy
          explanations := urls.map fun url =>
            explainCompiledMapping reader prepared.settings.proxy url
              (validateMappingCandidate env prepared.settings.proxy) policy.mapping } := by
  unfold previewCandidate
  cases happly : applyMappingMutationOwned env settings mutation with
  | error failure =>
    have hprepare : prepareCandidate env globs settings (.mapping mutation) =
        .error failure.toSettingsError := by
      simp [prepareCandidate, applyChange, happly]
    rw [hprepare] at h
    cases h
  | ok success =>
    obtain ⟨candidate, result⟩ := success
    cases heffect : result.effect with
    | unchanged =>
      rw [prepare_mapping_unchanged happly heffect] at h
      obtain rfl := Except.ok.inj h
      obtain rfl := applyMappingMutationOwned_unchanged happly heffect
      dsimp only
      cases compileCandidate env globs candidate <;> simp [Except.map, heffect]
    | changed =>
      rw [prepare_mapping_changed happly heffect] at h
      cases hcompile : compileCandidate env globs candidate with
      | error failure =>
        rw [hcompile] at h
        cases h
      | ok policy =>
        rw [hcompile] at h
        obtain rfl := Except.ok.inj h
        simp [Except.map, hcompile, heffect]

end Prepare

/-- In a runtime whose policy is that of its settings. -/
theorem predicts_iff (reader : UriReader env) {runtime : AppRuntime globs}
    (hpolicy : runtime.requestPolicy = (RequestPolicy.compile env globs runtime.settings).1)
    (hfree : Free runtime) (mutation : MappingMutation) {urls : List Text}
    (hurls : validatePreviewUrls urls = .ok ()) :
    Predicts env reader runtime mutation urls ↔
      ¬ IdleOnBroken env globs runtime.settings mutation := by
  unfold Predicts
  rw [previewMappingMutation_eq reader hfree mutation hurls]
  dsimp only
  have hcommit := (@mutateMapping_committed env) hfree mutation
  generalize mutateMapping env runtime mutation runtime.settingsRevision = commit at hcommit ⊢
  cases hcommit with
  | refused error hprepare hreplies =>
    rw [hreplies, previewCandidate_error reader urls hprepare]
    refine iff_of_true ⟨rfl, rfl⟩ ?_
    rintro ⟨⟨candidate, result, happly, heffect⟩, -⟩
    have hprepared := (@prepare_mapping_unchanged _ globs) happly heffect
    rw [show prepareCandidate env globs runtime.settings (.mapping mutation) = _ from hprepare]
      at hprepared
    cases hprepared
  | unchanged candidate result hprepare heffect hreplies houtcome haffected hsettings hpolicy' =>
    have hsame : candidate.settings = runtime.settings := by
      have happlied := (prepareCandidate_eq_ok hprepare).applied
      rw [heffect] at happlied
      exact applyChange_unchanged happlied
    rw [hreplies, previewCandidate_eq reader urls hprepare, hsame]
    by_cases hcompile : PatternsCompile globs runtime.settings
    · rw [compileCandidate_isOk hcompile]
      refine iff_of_true ⟨rfl, haffected.symm, ?_, ?_⟩ fun hidle => hidle.2 hcompile
      · rw [houtcome]
        show candidate.effect = _ ↔ _
        rw [heffect]
        exact iff_of_false (by decide) (by decide)
      · rw [← hsettings]
        apply decides_preview
        rw [hpolicy', hsettings, hpolicy]
    · cases hfailed : compileCandidate env globs runtime.settings with
      | ok policy => exact absurd (compileCandidate_eq_ok.1 hfailed).1 hcompile
      | error error =>
        refine iff_of_false (fun h => h.2) (not_not_intro ⟨?_, hcompile⟩)
        exact unchanged_mapping hprepare heffect
  | changed candidate result hprepare heffect hreplies houtcome haffected hsettings hpolicy' =>
    have hcandidate := prepareCandidate_eq_ok hprepare
    rw [hreplies, previewCandidate_eq reader urls hprepare,
      compileCandidate_isOk (hcandidate.policy heffect).1]
    refine iff_of_true ⟨rfl, haffected.symm, ?_, ?_⟩ ?_
    · rw [houtcome]
      exact iff_of_true heffect rfl
    · rw [← hsettings]
      apply decides_preview
      rw [hpolicy', hsettings]
    · rintro ⟨⟨_, result, happly, hunchanged⟩, -⟩
      have hprepared := (@prepare_mapping_unchanged _ globs) happly hunchanged
      rw [show prepareCandidate env globs runtime.settings (.mapping mutation) = _ from hprepare]
        at hprepared
      rw [Except.ok.inj hprepared] at heffect
      cases heffect

/-- A preview predicts the commit of the same mutation, in every reachable state in which
no transaction is pending and the popup has nothing unsaved, unless the mutation changes
nothing while the patterns in force do not compile. -/
theorem preview_predicts_commit (reader : UriReader env) {context : SettingsUiContext}
    {settings : AppSettings} {events : List SettingsEvent} {s : SettingsSystem globs}
    (hrun : run (SettingsSystem.step env) (.start env globs context settings) events = some s)
    (hfree : Free s.runtime) (mutation : MappingMutation) {urls : List Text}
    (hurls : validatePreviewUrls urls = .ok ()) :
    Predicts env reader s.runtime mutation urls ↔
      ¬ IdleOnBroken env globs s.runtime.settings mutation :=
  predicts_iff reader (SettingsSystem.sound_of_run hrun).policy hfree mutation hurls

/-! ### Samples -/

/-- Patterns without brackets, of which `*` matches everything. -/
def sampleGlobset : Globset where
  Glob := Text
  GlobSet := List Text
  build pattern :=
    if pattern = ['['] then
      .error "error parsing glob '[': unclosed character class; missing ']'"
    else .ok pattern
  buildSet globs := .ok globs
  isMatch globs url := globs.contains ['*'] || globs.contains url
  debug text := "\"" ++ String.ofList text ++ "\""

def sampleReader : UriReader sampleEnvironment where
  schemeStr uri := (Text.splitOnce "://".toList uri).map Prod.fst
  hasAuthority uri := (Text.splitOnce "://".toList uri).any fun (_, rest) => rest ≠ []

def sampleContext : SettingsUiContext := { configMode := .temporary, persistence := .ephemeral }

theorem preview_predicts_commit_sample :
    Predicts sampleEnvironment sampleReader
      (AppRuntime.start sampleEnvironment sampleGlobset sampleContext { proxy := some switchedOff })
      (.setGlobalEnabled true) ["http://a/".toList, "b".toList] := by
  have hpredicts := @preview_predicts_commit _ sampleGlobset sampleReader sampleContext
    { proxy := some switchedOff } [] _ rfl ⟨rfl, rfl, by decide⟩ (.setGlobalEnabled true)
    ["http://a/".toList, "b".toList] (by decide)
  exact hpredicts.2 fun hidle => hidle.2 (by decide)

/-- A pattern that is no glob, and a proxy that is off already. -/
def brokenPatterns : AppSettings :=
  { recording := { prefilter := { includeUrlPatterns := [{ pattern := ['['] }] } }
    proxy := some switchedOff }

theorem broken_patterns_not_predicted :
    ¬ ∀ (env : Environment) (globs : Globset) (reader : UriReader env)
      (context : SettingsUiContext) (settings : AppSettings) (events : List SettingsEvent)
      (s : SettingsSystem globs),
      run (SettingsSystem.step env) (.start env globs context settings) events = some s →
        Free s.runtime → ∀ (mutation : MappingMutation) (urls : List Text),
          validatePreviewUrls urls = .ok () → Predicts env reader s.runtime mutation urls := by
  intro h
  have hpredicts := h sampleEnvironment sampleGlobset sampleReader sampleContext brokenPatterns []
    _ rfl ⟨rfl, rfl, by decide⟩ (.setGlobalEnabled false) [] rfl
  exact (predicts_iff sampleReader rfl ⟨rfl, rfl, by decide⟩ _ rfl).1 hpredicts
    ⟨⟨_, _, rfl, rfl⟩, by decide⟩

end Fluxcope.Settings
