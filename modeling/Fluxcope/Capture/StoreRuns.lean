import Fluxcope.Capture.Retention
/-!
# The store in all runs

The byte counter of the store is exact in a run exactly when no step of the run
charges bytes to a record that is in the store.
-/

namespace Fluxcope.Capture

open Fluxcope.Library Fluxcope.Library.Utf8

namespace CaptureSystem

/-- The action charges bytes to a stored record: a response head is accepted and
its fixed part fits the budget, or bytes of a body are kept. -/
def growsStored (s : CaptureSystem) : CaptureAction → Bool
  | .setResponse i _ _ =>
    match s.cells[i]? with
    | none => false
    | some cell =>
      s.store.captures.contains i && cell.record.acceptsResponse &&
        64 ≤ (s.scope cell).available
  | .append i side bytes =>
    match s.cells[i]? with
    | none => false
    | some cell =>
      s.store.captures.contains i && !(s.scope cell).ignoresAppend side bytes &&
        !cell.record.captureDisabled &&
        0 < ((s.scope cell).appendCharge side bytes (s.policy.previewBytes side)).2
  | _ => false

/-- What a handle operation adds to the record. -/
theorem handleOp_growth {s : CaptureSystem} {action : CaptureAction} {i : CaptureSequence}
    {f : RecordScope → RecordScope} {cell : CaptureCell}
    (hop : s.handleOp action = some (i, f)) (hcell : s.cells[i]? = some cell)
    (hsound : (s.scope cell).Sound) :
    ∃ growth, (f (s.scope cell)).record.retainedBytes = cell.record.retainedBytes + growth ∧
      (i ∈ s.store.captures → (0 < growth ↔ s.growsStored action = true)) := by
  cases action with
  | setResponse j input instant =>
    obtain ⟨rfl, rfl⟩ := Prod.mk.inj (Option.some.inj hop)
    obtain ⟨response, truncated, charged, hcharged, -, heq⟩ :=
      RecordScope.setResponse_spec hsound s.policy input instant
    dsimp only
    rw [heq]
    by_cases haccepts : cell.record.acceptsResponse = true
    · rw [if_pos (show (s.scope cell).record.acceptsResponse = true from haccepts),
        RecordScope.bumpRevision_record]
      refine ⟨charged, rfl, fun hstored => ?_⟩
      simp only [growsStored, hcell, haccepts, List.contains_eq_mem, hstored, decide_true,
        Bool.true_and, decide_eq_true_eq]
      omega
    · rw [if_neg (show ¬ (s.scope cell).record.acceptsResponse = true from haccepts)]
      refine ⟨0, rfl, fun _ => ?_⟩
      simp [growsStored, hcell, haccepts]
  | append j side bytes =>
    obtain ⟨rfl, rfl⟩ := Prod.mk.inj (Option.some.inj hop)
    obtain ⟨previewLimit, heq⟩ :=
      RecordScope.append_spec hsound side bytes (s.policy.previewBytes side)
    dsimp only [CaptureHandle.append]
    rw [heq]
    by_cases hignored : (s.scope cell).ignoresAppend side bytes = true
    · rw [if_pos hignored]
      exact ⟨0, rfl, fun _ => by simp [growsStored, hcell, hignored]⟩
    rw [if_neg hignored]
    by_cases hremoved : (s.scope cell).record.captureDisabled = true
    · rw [if_pos hremoved]
      have hrecord : cell.record.captureDisabled = true := hremoved
      exact ⟨0, rfl, fun _ => by simp [growsStored, hcell, hrecord]⟩
    · rw [if_neg hremoved, RecordScope.bumpRevision_record]
      refine ⟨_, rfl, fun hstored => ?_⟩
      have hrecord : cell.record.captureDisabled = false :=
        Bool.eq_false_iff.2 hremoved
      simp [growsStored, hcell, hignored, hrecord, hstored]
  | finish j side terminal instant =>
    obtain ⟨rfl, rfl⟩ := Prod.mk.inj (Option.some.inj hop)
    refine ⟨0, ?_, fun _ => by simp [growsStored]⟩
    dsimp only
    rw [RecordScope.finish_spec]
    split
    · rfl
    · rw [RecordScope.bumpRevision_record]
      rfl
  | _ => simp [handleOp] at hop

/-- The actions of the store itself. -/
inductive StoreAction (s : CaptureSystem) : CaptureAction → CaptureSystem → Prop
  | insert (i : CaptureSequence) (cell : CaptureCell) (get : s.cells[i]? = some cell)
      (records : 0 < cell.records) : StoreAction s (.insert i) (s.insert i).2
  | removeSequences (sequences : List CaptureSequence) :
      StoreAction s (.removeSequences sequences) (s.removeSequences sequences).2
  | clear : StoreAction s .clear s.clear.2
  | evictOldest : StoreAction s .evictOldest s.evictOldest.2
  | dropStore : StoreAction s .dropStore { s with store := {} }

theorem tryStart_store (s : CaptureSystem) (input : RequestCaptureInput)
    (startedAt startedMono : Nat) :
    (s.tryStart input startedAt startedMono).store = s.store := by
  unfold tryStart
  split
  · rfl
  dsimp only
  split
  · rfl
  · split <;> rfl

theorem store_cases {s u : CaptureSystem} {action : CaptureAction}
    (h : s.act action = some u) : u.store = s.store ∨ StoreAction s action u := by
  cases action with
  | tryStart input startedAt startedMono =>
    obtain rfl := Option.some.inj h
    exact .inl (tryStart_store ..)
  | receive =>
    simp only [act] at h
    split at h
    · cases h
    · obtain rfl := Option.some.inj h
      exact .inl rfl
  | dropReceiver =>
    obtain rfl := Option.some.inj h
    exact .inl rfl
  | cloneRecord i | takeSnapshot i =>
    simp only [act] at h
    split at h
    · obtain rfl := Option.some.inj h
      exact .inl rfl
    · cases h
  | dropRecord i | cloneSnapshot i | dropSnapshot i | cloneHandle i =>
    obtain ⟨cell, -, h⟩ := Option.bind_eq_some_iff.1 h
    split at h
    · obtain rfl := Option.some.inj h
      exact .inl rfl
    · cases h
  | dropHandle i =>
    obtain ⟨cell, -, h⟩ := Option.bind_eq_some_iff.1 h
    split at h
    · obtain rfl := Option.some.inj h
      unfold dropHandle
      split <;> exact .inl rfl
    · cases h
  | setResponse i input instant | append i side bytes | finish i side terminal instant =>
    exact .inl (store_of_handle rfl h)
  | insert i =>
    obtain ⟨cell, hcell, h⟩ := Option.bind_eq_some_iff.1 h
    split at h
    · rename_i hrecords
      obtain rfl := Option.some.inj h
      exact .inr (.insert i cell hcell hrecords)
    · cases h
  | removeSequences sequences =>
    obtain rfl := Option.some.inj h
    exact .inr (.removeSequences sequences)
  | clear =>
    obtain rfl := Option.some.inj h
    exact .inr .clear
  | evictOldest =>
    obtain rfl := Option.some.inj h
    exact .inr .evictOldest
  | dropStore =>
    obtain rfl := Option.some.inj h
    exact .inr .dropStore

/-! ## Steps -/

/-- The invariant of the store. -/
structure StoreExact (s : CaptureSystem) : Prop extends StoreSorted s where
  exact : CounterExact s

theorem StoreAction.exact {s u : CaptureSystem} {action : CaptureAction}
    (h : StoreAction s action u) (hconserved : Conserved s) (hs : StoreExact s) :
    StoreExact u := by
  cases h with
  | insert i cell get records =>
    obtain ⟨hsorted, hexact, -⟩ :=
      insert_spec hconserved hs.toStoreSorted hs.exact get records
    exact ⟨hsorted, hexact⟩
  | removeSequences sequences =>
    obtain ⟨hexact, hsub⟩ := removeSequences_exact hs.exact sequences
    exact ⟨(storeMove_removeSequences s sequences).sorted hs.toStoreSorted hsub, hexact⟩
  | clear =>
    obtain ⟨hexact, hempty⟩ := clear_exact s
    exact ⟨⟨by simp [hempty], by simp [hempty]⟩, hexact⟩
  | evictOldest =>
    refine ⟨(storeMove_evictOldest s).sorted hs.toStoreSorted ?_, evictOldest_exact hs.exact⟩
    rw [evictOldest_captures]
    exact List.tail_sublist _
  | dropStore => exact ⟨⟨by simp, by simp⟩, rfl⟩

/-- The records of a step that does not touch the store: the stored ones still
count what they did, but for the growth of one. -/
theorem recordBytes_act {s u : CaptureSystem} {action : CaptureAction} (h : Conserved s)
    (hact : s.act action = some u) {j : CaptureSequence} (hj : j < s.cells.length) :
    s.recordBytes j ≤ u.recordBytes j ∧
      (j ∈ s.store.captures → s.growsStored action = false → u.recordBytes j = s.recordBytes j) := by
  rcases act_cases hact with hnone | ⟨i, cell, f, hop⟩
  · obtain ⟨new, -, hnew⟩ := hnone.cells
    have hsame : u.recordBytes j = s.recordBytes j := by
      have hbytes := recordBytes_of_sameRecord (s := { s with cells := s.cells ++ new }) hnew j
      rw [hbytes]
      unfold recordBytes
      rw [List.getElem?_append_left hj]
    exact ⟨hsame.ge, fun _ _ => hsame⟩
  · have hsound :=
      h.toBalanced.sound hop.get (h.toBalanced.leaseLive_of_alive hop.get hop.alive)
    obtain ⟨growth, hretained, hgrowth⟩ := handleOp_growth hop.op hop.get hsound
    rw [recordBytes_of_sameRecord (sameRecord_of_sameState hop.cells) j]
    unfold recordBytes
    rw [putScope, getElem?_set_of_some hop.get]
    by_cases hij : i = j
    · subst hij
      simp only [if_true, hop.get, hretained]
      refine ⟨Nat.le_add_right _ _, fun hstored hnot => ?_⟩
      have hzero : ¬ 0 < growth := by
        rw [hgrowth hstored, hnot]
        decide
      omega
    · rw [if_neg hij]
      exact ⟨le_rfl, fun _ _ => rfl⟩

theorem length_le_act {s u : CaptureSystem} {action : CaptureAction}
    (hact : s.act action = some u) : s.cells.length ≤ u.cells.length := by
  by_contra hlt
  have hstep : s.step action = some u.reap := by
    unfold step
    rw [hact]
    rfl
  have hin : u.cells.length < s.cells.length := Nat.lt_of_not_le hlt
  obtain ⟨c', hc', -⟩ := step_record hstep (List.getElem?_eq_getElem hin)
  obtain ⟨c, hc, -⟩ := (reaped_reap u).cells.get_right hc'
  have hbound := (List.getElem?_eq_some_iff.1 hc).1
  omega

theorem storeExact_act {s u : CaptureSystem} {action : CaptureAction} (h : Conserved s)
    (hs : StoreExact s) (hnot : s.growsStored action = false) (hact : s.act action = some u) :
    StoreExact u := by
  rcases store_cases hact with hstore | hstore
  · refine ⟨⟨?_, ?_⟩, ?_⟩
    · rw [hstore]
      exact hs.sorted
    · rw [hstore]
      exact fun i hi => (hs.bound i hi).trans_le (length_le_act hact)
    · have hexact := hs.exact
      unfold CounterExact storeTotal at hexact ⊢
      rw [hstore, hexact, List.map_congr_left fun i hi =>
        ((recordBytes_act h hact (hs.bound i hi)).2 hi hnot).symm]
  · exact hstore.exact h hs

theorem storeExact_reap {s : CaptureSystem} (hs : StoreExact s) : StoreExact s.reap := by
  have hreaped := reaped_reap s
  refine ⟨⟨?_, fun i hi => ?_⟩, ?_⟩
  · rw [hreaped.store]
    exact hs.sorted
  · rw [hreaped.store] at hi
    obtain ⟨c, hc, -⟩ := hreaped.cells.get (List.getElem?_eq_getElem (hs.bound i hi))
    exact (List.getElem?_eq_some_iff.1 hc).1
  · have hexact := hs.exact
    unfold CounterExact storeTotal at hexact ⊢
    rw [hreaped.store, hexact, List.map_congr_left fun i _ =>
      (recordBytes_of_sameRecord hreaped.sameRecord i).symm]

theorem storeExact_run {s t : CaptureSystem} {actions : List CaptureAction}
    (h : Conserved s) (hs : StoreExact s)
    (hnot : Along step (fun s action => s.growsStored action = false) s actions)
    (hrun : run step s actions = some t) : StoreExact t := by
  have hfinal := run_invariant_along (I := fun u => Conserved u ∧ StoreExact u)
    (fun u action v hu hquiet hstep => ⟨hu.1.step hstep, ?_⟩) ⟨h, hs⟩ hnot hrun
  · exact hfinal.2
  · obtain ⟨w, hact, rfl⟩ := Option.map_eq_some_iff.1 hstep
    exact storeExact_reap (storeExact_act hu.1 hu.2 hquiet hact)

theorem stored_of_grows {s : CaptureSystem} {action : CaptureAction}
    (h : s.growsStored action = true) :
    ∃ i f, s.handleOp action = some (i, f) ∧ i ∈ s.store.captures := by
  cases action with
  | setResponse i input instant | append i side bytes =>
    refine ⟨i, _, rfl, ?_⟩
    simp only [growsStored] at h
    cases hcell : s.cells[i]? with
    | none => simp [hcell] at h
    | some cell =>
      simp only [hcell, Bool.and_eq_true, List.contains_eq_mem, decide_eq_true_eq] at h
      tauto
  | _ => simp [growsStored] at h

/-- The stored record that grows is stored, so alive, and counts more afterwards. -/
theorem recordBytes_lt_of_grows {s u : CaptureSystem} {action : CaptureAction}
    (h : Conserved s) (hs : StoreExact s) (hgrows : s.growsStored action = true)
    (hact : s.act action = some u) :
    ∃ i ∈ s.store.captures, s.recordBytes i < u.recordBytes i := by
  obtain ⟨i, f, hop, hstored⟩ := stored_of_grows hgrows
  refine ⟨i, hstored, ?_⟩
  have halive : s.alive i = true := by
    refine alive_iff.2 ⟨_, List.getElem?_eq_getElem (hs.bound i hstored), ?_⟩
    have hcount := List.count_pos_iff.2 hstored
    unfold strong
    omega
  rcases act_cases hact with hnone | ⟨j, cell, g, hoperation⟩
  · rw [(hnone.dead i f hop).1] at halive
    cases halive
  · obtain ⟨rfl, rfl⟩ := Prod.mk.inj (Option.some.inj (hop.symm.trans hoperation.op))
    have hcell := hoperation.get
    have hsound := h.toBalanced.sound hcell (h.toBalanced.leaseLive_of_alive hcell halive)
    obtain ⟨growth, hretained, hgrowth⟩ := handleOp_growth hop hcell hsound
    have hpos := (hgrowth hstored).2 hgrows
    rw [recordBytes_of_sameRecord (sameRecord_of_sameState hoperation.cells) i]
    unfold recordBytes
    rw [putScope, getElem?_set_of_some hcell]
    simp only [if_true, hcell, hretained]
    omega

/-- Growth in the store is growth the counter misses. -/
theorem not_exact_of_grows {s t : CaptureSystem} {action : CaptureAction} (h : Conserved s)
    (hs : StoreExact s) (hgrows : s.growsStored action = true)
    (hstep : s.step action = some t) : ¬ CounterExact t := by
  obtain ⟨u, hact, rfl⟩ := Option.map_eq_some_iff.1 hstep
  obtain ⟨i, f, hop, -⟩ := stored_of_grows hgrows
  have hreaped := reaped_reap u
  have hstore : u.reap.store = s.store :=
    hreaped.store.trans (store_of_handle (by simp [hop]) hact)
  have hlt : s.storeTotal < u.reap.storeTotal := by
    unfold storeTotal
    rw [hstore, List.map_congr_left fun j _ => recordBytes_of_sameRecord hreaped.sameRecord j]
    exact List.sum_lt_sum _ _ (fun j hj => (recordBytes_act h hact (hs.bound j hj)).1)
      (recordBytes_lt_of_grows h hs hgrows hact)
  have hexact := hs.exact
  unfold CounterExact at hexact ⊢
  rw [hstore]
  omega

theorem quiet_of_exact {s t : CaptureSystem} {actions : List CaptureAction}
    (h : Conserved s) (hs : StoreExact s) (hrun : run step s actions = some t)
    (hexact : ∀ before after u, actions = before ++ after → run step s before = some u →
      CounterExact u) :
    Along step (fun s action => s.growsStored action = false) s actions := by
  induction actions generalizing s with
  | nil => trivial
  | cons action rest ih =>
    obtain ⟨u, hstep, hrest⟩ := run_cons_eq_some.1 hrun
    have hquiet : s.growsStored action = false := by
      by_contra hgrows
      exact not_exact_of_grows h hs (by simpa using hgrows) hstep
        (hexact [action] rest u rfl (run_cons_eq_some.2 ⟨u, hstep, rfl⟩))
    refine ⟨hquiet, fun v hv => ?_⟩
    obtain rfl := Option.some.inj (hstep.symm.trans hv)
    have hnext : StoreExact u :=
      @storeExact_run _ _ [action] h hs ⟨hquiet, fun _ _ => trivial⟩
        (run_cons_eq_some.2 ⟨u, hstep, rfl⟩)
    refine ih (h.step hstep) hnext hrest fun before after w hactions hbefore => ?_
    exact hexact (action :: before) after w (by rw [hactions]; rfl)
      (run_cons_eq_some.2 ⟨u, hstep, hbefore⟩)

/-- The limits that an insertion leaves behind. -/
def WithinLimits (retention : CaptureRetentionPolicy) (s : CaptureSystem) : Prop :=
  (s.store.captures = [] ∨ s.storeTotal ≤ retention.maxBytes) ∧
    s.store.captures.length ≤ retention.maxRecords

theorem insert_within {s t : CaptureSystem} {i : CaptureSequence} (h : Conserved s)
    (hs : StoreExact s) (hstep : s.step (.insert i) = some t) :
    WithinLimits s.retention t := by
  obtain ⟨u, hact, rfl⟩ := Option.map_eq_some_iff.1 hstep
  obtain ⟨cell, hcell, hinsert⟩ := Option.bind_eq_some_iff.1 hact
  split at hinsert
  · rename_i hrecords
    obtain rfl := Option.some.inj hinsert
    obtain ⟨-, hexact, hlimits⟩ := insert_spec h hs.toStoreSorted hs.exact hcell hrecords
    have hreaped := reaped_reap (s.insert i).2
    have htotal : (s.insert i).2.reap.storeTotal = (s.insert i).2.storeTotal := by
      unfold storeTotal
      rw [hreaped.store, List.map_congr_left fun j _ =>
        recordBytes_of_sameRecord hreaped.sameRecord j]
    unfold CounterExact at hexact
    unfold WithinLimits
    rw [htotal, hreaped.store, ← hexact]
    rcases hlimits with hempty | ⟨hcount, hbytes⟩
    · exact ⟨.inl hempty, by simp [hempty]⟩
    · exact ⟨.inr hbytes, hcount⟩
  · cases hinsert

/-- The counter of the store is the sum of what the stored records count, throughout
a run and with its consequence for insertions, exactly when no step of the run
charges bytes to a stored record. -/
theorem store_counter_exact_iff {policy : CapturePolicy} {retention : CaptureRetentionPolicy}
    {actions : List CaptureAction} {t : CaptureSystem}
    (hrun : run step (new policy retention) actions = some t) :
    (∀ before after s, actions = before ++ after →
        run step (new policy retention) before = some s →
        s.store.retainedBytes = s.storeTotal ∧
          ∀ i u, s.step (.insert i) = some u → WithinLimits retention u) ↔
      Along step (fun s action => s.growsStored action = false) (new policy retention) actions := by
  have hinit : StoreExact (new policy retention) := ⟨⟨by simp [new], by simp [new]⟩, rfl⟩
  constructor
  · intro hkept
    exact quiet_of_exact (conserved_new policy retention) hinit hrun
      fun before after u hactions hbefore => (hkept before after u hactions hbefore).1
  · rintro hnot before after s rfl hbefore
    have hconserved := conserved_run hbefore
    have hexact := storeExact_run (conserved_new policy retention) hinit hnot.append_left hbefore
    refine ⟨hexact.exact, fun i u hstep => ?_⟩
    rw [← (policy_run hbefore).2]
    exact insert_within hconserved hexact hstep

theorem store_counter_exact_iff_sample :
    ∃ t, run step (new {} {}) sampleExchange = some t ∧
      ((∀ before after s, sampleExchange = before ++ after →
          run step (new {} {}) before = some s →
          s.store.retainedBytes = s.storeTotal ∧
            ∀ i u, s.step (.insert i) = some u → WithinLimits {} u) ↔
        Along step (fun s action => s.growsStored action = false) (new {} {}) sampleExchange) := by
  obtain ⟨t, hrun⟩ := Option.isSome_iff_exists.1
    (show (run step (new {} {}) sampleExchange).isSome = true by decide)
  exact ⟨t, hrun, store_counter_exact_iff hrun⟩

/-- A capture is stored and grows, and a second one is ready to be stored. -/
def sampleGrowth : List CaptureAction :=
  [.tryStart
      { method := [71], originalUri := [97], effectiveUri := [97], localPath := none
        headers := [] } 0 0,
    .receive, .insert 0, .append 0 .request [1, 2, 3],
    .tryStart
      { method := [71], originalUri := [98], effectiveUri := [98], localPath := none
        headers := [] } 1 1,
    .receive]

/-- The counter misses the growth, and the next insertion leaves more than allowed. -/
theorem stored_growth_missed :
    ∃ s t, run step (new {} { maxBytes := 516 }) sampleGrowth = some s ∧
      s.store.retainedBytes ≠ s.storeTotal ∧ s.step (.insert 1) = some t ∧
      ¬ WithinLimits { maxBytes := 516 } t := by
  obtain ⟨s, hs⟩ := Option.isSome_iff_exists.1
    (show (run step (new {} { maxBytes := 516 }) sampleGrowth).isSome = true by decide)
  have hcounts : (run step (new {} { maxBytes := 516 }) sampleGrowth).map
      (fun s => (s.store.retainedBytes, s.storeTotal)) = some (258, 261) := by decide
  obtain ⟨t, ht⟩ := Option.isSome_iff_exists.1
    (show ((run step (new {} { maxBytes := 516 }) sampleGrowth).bind fun s =>
      s.step (.insert 1)).isSome = true by decide)
  have hafter : ((run step (new {} { maxBytes := 516 }) sampleGrowth).bind fun s =>
      s.step (.insert 1)).map (fun t => (t.store.captures, t.storeTotal)) =
        some ([0, 1], 519) := by decide
  rw [ht] at hafter
  rw [hs] at hcounts
  rw [hs, Option.bind_some] at ht
  obtain ⟨hcounter, htotal⟩ := Prod.mk.inj (Option.some.inj hcounts)
  obtain ⟨hcaptures, hbytes⟩ := Prod.mk.inj (Option.some.inj hafter)
  refine ⟨s, t, hs, by rw [hcounter, htotal]; decide, ht, ?_⟩
  rintro ⟨hempty | hle, -⟩
  · rw [hcaptures] at hempty
    cases hempty
  · rw [hbytes] at hle
    exact absurd hle (by decide)

end CaptureSystem

end Fluxcope.Capture
