import Fluxcope.Capture.Tracked
/-!
# The store keeps the history true

Every operation of the store, of a handle and of the channel extends the
history by what it tells the feed, and the history stays true.
-/

namespace Fluxcope.Capture

open Fluxcope.Library

namespace CaptureSystem

/-- `Follows` for the captures that are in the store before and after. -/
def StoreFollows (s t : CaptureSystem) : Prop :=
  Follows s s.store.captures t t.store.captures

/-! ## Membership -/

theorem replaced_onRecord {s : CaptureSystem} {i : CaptureSequence} {cell : CaptureCell}
    (hcell : s.cells[i]? = some cell) (f : RecordScope → RecordScope) :
    Replaced s (s.onRecord i f) i cell (f (s.scope cell)).record := by
  rw [onRecord_of_some hcell]
  refine ⟨hcell, ⟨_, by rw [putScope, getElem?_set_of_some hcell, if_pos rfl], rfl⟩,
    fun j hj => ?_, rfl⟩
  rw [putScope, getElem?_set_of_some hcell, if_neg (Ne.symm hj)]

theorem follows_removeRecord {s : CaptureSystem} {i : CaptureSequence}
    {kind : CaptureChangeKind} (hkind : kind.isRemoval = true)
    {retained : List CaptureSequence} (hi : i ∈ retained) :
    Follows s retained (s.removeRecord i kind) (retained.erase i) := by
  intro history h
  obtain ⟨cell, hcell, hstored, hbound, -⟩ := h.announced i hi
  have hnodup : retained.Nodup := h.sorted.imp fun hlt => Nat.ne_of_lt hlt
  have hremove : (s.scope cell).removeFromStore kind =
      { s.scope cell with
        feed := s.feed.publish cell.record.sequence cell.record.revision kind
        record := { cell.record with captureDisabled := true, feedBound := false } } := by
    unfold RecordScope.removeFromStore
    simp only [scope, hbound, if_true, RecordScope.publish]
  have hreplaced := replaced_onRecord hcell fun scope => scope.removeFromStore kind
  have hfeed : (s.removeRecord i kind).feed =
      s.feed.publish cell.record.sequence cell.record.revision kind := by
    rw [removeRecord, onRecord_of_some hcell, putScope, hremove]
  rw [hremove] at hreplaced
  refine follows_spoken hreplaced hfeed rfl (fun j hj => List.mem_erase_of_ne hj)
    (h.sorted.sublist List.erase_sublist) (fun hqueued => ?_) (fun hin => ?_)
    (fun _ => ⟨rfl, rfl, hkind⟩) (fun _ => rfl) history h
  · exact absurd hi (h.queued i hqueued).1
  · exact absurd hin (List.Nodup.not_mem_erase hnodup)

theorem follows_forget {s : CaptureSystem} {i : CaptureSequence}
    {kind : CaptureChangeKind} (hkind : kind.isRemoval = true)
    {retained : List CaptureSequence} (hi : i ∈ retained) :
    Follows s retained (s.forget i kind) (retained.erase i) :=
  (follows_removeRecord hkind hi).trans (follows_store _ _ _)

theorem storeFollows_refl (s : CaptureSystem) : StoreFollows s s :=
  follows_of_sameState (sameState_refl s.cells) rfl (.refl s.queue) _

theorem storeFollows_evictOldest (s : CaptureSystem) : StoreFollows s s.evictOldest.2 := by
  cases hcaptures : s.store.captures with
  | nil =>
    have hevict : s.evictOldest = (none, s) := by
      unfold evictOldest
      rw [hcaptures]
    rw [hevict]
    exact storeFollows_refl s
  | cons i rest =>
    have hforget := (follows_store s { s.store with captures := rest } (i :: rest)).trans
      ((@follows_forget _ i .retentionEviction) rfl List.mem_cons_self)
    rw [List.erase_cons_head] at hforget
    unfold StoreFollows evictOldest
    rw [hcaptures]
    simp only [forget_captures]
    exact hforget.trans (follows_store _ _ _)

theorem storeFollows_enforceLoop (fuel : Nat) (s : CaptureSystem) (evicted : Bool) :
    StoreFollows s (enforceLoop fuel s evicted).2 := by
  induction fuel generalizing s evicted with
  | zero => exact storeFollows_refl s
  | succ fuel ih =>
    unfold enforceLoop
    split
    · have hevict := storeFollows_evictOldest s
      rcases hs : s.evictOldest with ⟨_ | i, u⟩
      · exact storeFollows_refl s
      · rw [hs] at hevict
        exact hevict.trans (ih u true)
    · exact storeFollows_refl s

theorem storeFollows_removeEach (sequences : List CaptureSequence) (s : CaptureSystem)
    (removed : Nat) : StoreFollows s (removeEach sequences s removed).2 := by
  induction sequences generalizing s removed with
  | nil => exact storeFollows_refl s
  | cons i rest ih =>
    unfold removeEach
    split
    · rename_i hi
      refine Follows.trans ?_ (ih _ _)
      rw [forget_captures]
      exact (follows_store s { s.store with captures := s.store.captures.erase i } _).trans
        (follows_forget rfl hi)
    · exact ih s removed

theorem storeFollows_afterRemoval (removed : Nat) (s : CaptureSystem) :
    StoreFollows s (afterRemoval removed s) := by
  unfold afterRemoval
  split
  · exact follows_store s _ _
  · exact storeFollows_refl s

theorem storeFollows_removeSequences (s : CaptureSystem) (sequences : List CaptureSequence) :
    StoreFollows s (s.removeSequences sequences).2 :=
  (storeFollows_removeEach _ s 0).trans (storeFollows_afterRemoval _ _)

theorem follows_clear (captures : List CaptureSequence) (s : CaptureSystem) :
    Follows s captures (captures.foldl (fun s i => s.removeRecord i .clear) s) [] := by
  induction captures generalizing s with
  | nil => exact follows_of_sameState (sameState_refl s.cells) rfl (.refl s.queue) []
  | cons i rest ih =>
    have hremove := (@follows_removeRecord s i .clear) rfl
      (List.mem_cons_self (a := i) (l := rest))
    rw [List.erase_cons_head] at hremove
    exact hremove.trans (ih _)

theorem storeFollows_clear (s : CaptureSystem) : StoreFollows s s.clear.2 := by
  unfold clear
  refine Follows.trans ?_ (storeFollows_afterRemoval _ _)
  exact (follows_clear s.store.captures s).trans (follows_store _ _ _)

/-! ## Handles -/

theorem replaced_of_operation {s u : CaptureSystem} {i : CaptureSequence} {cell : CaptureCell}
    {scope : RecordScope} (hget : s.cells[i]? = some cell)
    (hcells : Pointwise SameState (s.putScope i cell scope).cells u.cells)
    (hqueue : u.queue = s.queue) : Replaced s u i cell scope.record := by
  have hput := fun j : Nat => getElem?_set_of_some (j := j) (y := { cell with
    record := scope.record, lease := scope.lease }) hget
  refine ⟨hget, ?_, fun j hj => ?_, hqueue⟩
  · obtain ⟨cell', hcell', hsame⟩ := hcells.get ((hput i).trans (if_pos rfl))
    exact ⟨cell', hcell', hsame⟩
  · have hother := (hput j).trans (if_neg (Ne.symm hj))
    cases hc : s.cells[j]? with
    | none =>
      rw [hc] at hother
      have hnone := hcells j
      rw [putScope, hother] at hnone
      cases hc' : u.cells[j]? with
      | none => rfl
      | some c' =>
        rw [hc'] at hnone
        cases hnone
    | some c =>
      rw [hc] at hother
      obtain ⟨c', hc', hsame⟩ := hcells.get hother
      rw [hc', Option.map_some, Option.map_some, show c'.record = c.record from hsame]

/-- What an operation of a handle tells depends on whether the record is stored. -/
theorem follows_operation {s u : CaptureSystem} {i : CaptureSequence} {cell : CaptureCell}
    {scope : RecordScope} (hget : s.cells[i]? = some cell)
    (hcells : Pointwise SameState (s.putScope i cell scope).cells u.cells)
    (hqueue : u.queue = s.queue) (hfeed : u.feed = scope.feed)
    (houtcome : (s.scope cell).Outcome scope) (retained : List CaptureSequence) :
    Follows s retained u retained := by
  have hreplaced := replaced_of_operation hget hcells hqueue
  cases houtcome with
  | ineffective =>
    have hput : Pointwise SameState s.cells (s.putScope i cell (s.scope cell)).cells :=
      pointwise_set SameState.refl hget rfl
    exact follows_of_sameState (sameState_trans hput hcells) hfeed (hqueue ▸ .refl _) retained
  | unnoticed _ removed disabled revision sequence feedBound feed =>
    intro history h
    have hout : i ∉ retained := by
      intro hi
      obtain ⟨c, hc, hstored, -⟩ := h.announced i hi
      obtain rfl := Option.some.inj (hget.symm.trans hc)
      rw [show cell.record.captureDisabled = true from removed] at hstored
      cases hstored
    exact follows_unspoken hreplaced (hfeed.trans feed) sequence feedBound
      (disabled.trans removed.symm) hout history h
  | bumped next disabled revision sequence feedBound feed =>
    intro history h
    rw [RecordScope.bumpRevision_record] at hreplaced
    rw [RecordScope.bumpRevision_feed, sequence, feedBound, feed] at hfeed
    by_cases hi : i ∈ retained
    · obtain ⟨c, hc, hstored, hbound, -⟩ := h.announced i hi
      obtain rfl := Option.some.inj (hget.symm.trans hc)
      rw [if_pos (show (s.scope cell).record.feedBound = true from hbound)] at hfeed
      exact (@follows_spoken _ _ _ _ _ .recordUpdated) hreplaced hfeed sequence
        (fun _ _ => Iff.rfl) h.sorted (fun hqueued => absurd hi (h.queued i hqueued).1)
        (fun _ => ⟨disabled.trans hstored, feedBound.trans hbound, rfl⟩)
        (fun hout => absurd hi hout) (fun hremoved => disabled.trans hremoved) history h
    · have hbound := h.silent i cell hget hi
      rw [if_neg (by simp [scope, hbound])] at hfeed
      exact follows_unspoken hreplaced hfeed sequence feedBound disabled hi history h

@[simp] theorem onRecord_queue (s : CaptureSystem) (i : CaptureSequence)
    (f : RecordScope → RecordScope) : (s.onRecord i f).queue = s.queue := by
  unfold onRecord
  split <;> rfl

theorem queue_of_handle {s u : CaptureSystem} {action : CaptureAction}
    (hop : (s.handleOp action).isSome) (h : s.act action = some u) : u.queue = s.queue := by
  cases action with
  | setResponse i input instant =>
    obtain ⟨_, -, h⟩ := Option.bind_eq_some_iff.1 h
    split at h
    · obtain rfl := Option.some.inj h
      unfold setResponse
      split
      · exact onRecord_queue _ _ _
      · rfl
    · cases h
  | append i side bytes =>
    obtain ⟨_, -, h⟩ := Option.bind_eq_some_iff.1 h
    split at h
    · obtain rfl := Option.some.inj h
      unfold append
      split
      · split <;> rfl
      · rfl
    · cases h
  | finish i side terminal instant =>
    obtain ⟨_, -, h⟩ := Option.bind_eq_some_iff.1 h
    split at h
    · obtain rfl := Option.some.inj h
      unfold finish
      rw [(storeMove_markTerminal _ i side).queue]
      split
      · exact onRecord_queue _ _ _
      · rfl
    · cases h
  | _ => simp [handleOp] at hop

theorem storeFollows_handle {s u : CaptureSystem} {action : CaptureAction} (h : Conserved s)
    (hop : (s.handleOp action).isSome) (hact : s.act action = some u) : StoreFollows s u := by
  have hstore := store_of_handle hop hact
  have hqueue := queue_of_handle hop hact
  unfold StoreFollows
  rw [hstore]
  rcases act_cases hact with hnone | ⟨i, cell, f, hoperation⟩
  · obtain ⟨⟨i, f⟩, hf⟩ := Option.isSome_iff_exists.1 hop
    obtain ⟨-, hfeed, hcells⟩ := hnone.dead i f hf
    exact follows_of_sameState hcells hfeed (hqueue ▸ .refl _) _
  · have hsound := h.toBalanced.sound hoperation.get
      (h.toBalanced.leaseLive_of_alive hoperation.get hoperation.alive)
    exact follows_operation hoperation.get hoperation.cells hqueue hoperation.feed
      (handleOp_outcome hoperation.op hsound) _

/-! ## The channel and the references -/

theorem storeFollows_modifyCell (s : CaptureSystem) (i : CaptureSequence)
    {f : CaptureCell → CaptureCell} (hf : ∀ cell : CaptureCell, (f cell).record = cell.record) :
    StoreFollows s (s.modifyCell i f) :=
  follows_of_sameState (sameState_modify s i hf) rfl (.refl s.queue) _

theorem storeFollows_dropHandle (s : CaptureSystem) (i : CaptureSequence) (cell : CaptureCell) :
    StoreFollows s (s.dropHandle i cell) := by
  unfold dropHandle
  split
  · unfold StoreFollows
    apply follows_of_sameState
    · exact sameState_modify s i fun _ => rfl
    · rfl
    · exact .refl s.queue
  · exact storeFollows_modifyCell s i fun _ => rfl

/-- A capture is started; it may be put on the channel. -/
theorem follows_started {s t : CaptureSystem} {cell : CaptureCell}
    (hcells : t.cells = s.cells ++ [cell]) (hfresh : Fresh cell)
    (hsequence : cell.record.sequence = s.cells.length) (hfeed : t.feed = s.feed)
    (hqueue : t.queue = s.queue ∨ t.queue = s.queue ++ [s.cells.length])
    (retained : List CaptureSequence) : Follows s retained t retained := by
  intro history h
  obtain ⟨sequence, request, truncation, bytes, startedAt, startedMono, hrecord⟩ := hfresh
  have hold : ∀ {i : Nat} {c : CaptureCell}, s.cells[i]? = some c → t.cells[i]? = some c := by
    intro i c hc
    obtain ⟨hi, -⟩ := List.getElem?_eq_some_iff.1 hc
    rw [hcells, List.getElem?_append_left hi, hc]
  have hcases : ∀ {i : Nat} {c : CaptureCell}, t.cells[i]? = some c →
      s.cells[i]? = some c ∨ i = s.cells.length ∧ c = cell := by
    intro i c hc
    rw [hcells] at hc
    exact getElem?_snoc hc
  have hlt : ∀ i ∈ retained, i < s.cells.length := by
    intro i hi
    obtain ⟨c, hc, -⟩ := h.announced i hi
    exact (List.getElem?_eq_some_iff.1 hc).1
  have hnew : t.cells[s.cells.length]? = some cell := by
    rw [hcells, List.getElem?_concat_length]
  refine ⟨[], ?_, fun i hi _ => ⟨hi, fun c' hc' => ?_⟩, fun i hi hout => absurd hi hout,
    fun i c hc hdisabled => ⟨c, hold hc, hdisabled⟩⟩
  · rw [List.append_nil]
    refine ⟨hfeed ▸ h.represents, fun i c hc => ?_, h.sorted, fun i hi => ?_,
      fun i c hc hi => ?_, fun i hi => ?_, ?_, fun change hchange hout => ?_⟩
    · rcases hcases hc with hc | ⟨rfl, rfl⟩
      · exact h.sequence i c hc
      · exact hsequence
    · obtain ⟨c, hc, hannounced⟩ := h.announced i hi
      exact ⟨c, hold hc, hannounced⟩
    · rcases hcases hc with hc | ⟨rfl, rfl⟩
      · exact h.silent i c hc hi
      · rw [hrecord]
        rfl
    · have hmem : i ∈ s.queue ∨ i = s.cells.length := by
        rcases hqueue with hqueue | hqueue <;> rw [hqueue] at hi
        · exact .inl hi
        · exact (List.mem_append.1 hi).imp_right List.mem_singleton.1
      rcases hmem with hmem | rfl
      · obtain ⟨hout, c, hc, hstored⟩ := h.queued i hmem
        exact ⟨hout, c, hold hc, hstored⟩
      · exact ⟨fun hin => Nat.lt_irrefl _ (hlt _ hin), cell, hnew, by rw [hrecord]; rfl⟩
    · rcases hqueue with hqueue | hqueue <;> rw [hqueue]
      · exact h.nodup
      · refine List.nodup_append.2 ⟨h.nodup, List.pairwise_singleton _ _, fun i hi j hj => ?_⟩
        obtain rfl := List.mem_singleton.1 hj
        obtain ⟨-, c, hc, -⟩ := h.queued i hi
        exact Nat.ne_of_lt (List.getElem?_eq_some_iff.1 hc).1
    · obtain ⟨c, hc, hdisabled⟩ := h.known change hchange hout
      exact ⟨c, hold hc, hdisabled⟩
  · obtain ⟨c, hc, -⟩ := h.announced i hi
    obtain rfl := Option.some.inj ((hold hc).symm.trans hc')
    exact ⟨c, hc, rfl⟩

theorem storeFollows_tryStart (s : CaptureSystem) (input : RequestCaptureInput)
    (startedAt startedMono : Nat) : StoreFollows s (s.tryStart input startedAt startedMono) := by
  unfold tryStart
  split
  · exact storeFollows_refl s
  dsimp only
  split
  · exact storeFollows_refl s
  unfold StoreFollows
  split
  · apply follows_started
    · rfl
    · exact ⟨_, _, _, _, _, _, rfl⟩
    · rfl
    · rfl
    · exact .inr rfl
  · apply follows_started
    · rfl
    · exact ⟨_, _, _, _, _, _, rfl⟩
    · rfl
    · rfl
    · exact .inl rfl

/-! ## Steps -/

/-- The actions that leave it to the event loop which captures are stored. -/
def isOrderly : CaptureAction → Bool
  | .insert _ | .dropStore => false
  | _ => true

theorem storeFollows_act {s u : CaptureSystem} {action : CaptureAction} (h : Conserved s)
    (horderly : isOrderly action = true) (hact : s.act action = some u) : StoreFollows s u := by
  cases action with
  | tryStart input startedAt startedMono =>
    obtain rfl := Option.some.inj hact
    exact storeFollows_tryStart s input startedAt startedMono
  | receive =>
    simp only [act] at hact
    split at hact
    · cases hact
    · rename_i i rest hqueue
      obtain rfl := Option.some.inj hact
      unfold StoreFollows
      apply follows_of_sameState
      · exact sameState_modify s i fun _ => rfl
      · rfl
      · rw [hqueue]
        exact List.sublist_cons_self i rest
  | dropReceiver =>
    obtain rfl := Option.some.inj hact
    unfold StoreFollows
    apply follows_of_sameState
    · exact sameState_refl s.cells
    · rfl
    · exact List.nil_sublist _
  | cloneRecord i | takeSnapshot i =>
    simp only [act] at hact
    split at hact
    · obtain rfl := Option.some.inj hact
      exact storeFollows_modifyCell s i fun _ => rfl
    · cases hact
  | dropRecord i | cloneSnapshot i | dropSnapshot i | cloneHandle i =>
    obtain ⟨cell, -, hact⟩ := Option.bind_eq_some_iff.1 hact
    split at hact
    · obtain rfl := Option.some.inj hact
      exact storeFollows_modifyCell s i fun _ => rfl
    · cases hact
  | dropHandle i =>
    obtain ⟨cell, -, hact⟩ := Option.bind_eq_some_iff.1 hact
    split at hact
    · obtain rfl := Option.some.inj hact
      exact storeFollows_dropHandle s i cell
    · cases hact
  | setResponse i input instant => exact storeFollows_handle h rfl hact
  | append i side bytes => exact storeFollows_handle h rfl hact
  | finish i side terminal instant => exact storeFollows_handle h rfl hact
  | insert i | dropStore => cases horderly
  | removeSequences sequences =>
    obtain rfl := Option.some.inj hact
    exact storeFollows_removeSequences s sequences
  | clear =>
    obtain rfl := Option.some.inj hact
    exact storeFollows_clear s
  | evictOldest =>
    obtain rfl := Option.some.inj hact
    exact storeFollows_evictOldest s

theorem storeFollows_reap (s : CaptureSystem) : StoreFollows s s.reap := by
  unfold StoreFollows
  rw [(reaped_reap s).store]
  exact follows_reap s _

theorem storeFollows_step {s t : CaptureSystem} {action : CaptureAction} (h : Conserved s)
    (horderly : isOrderly action = true) (hstep : s.step action = some t) : StoreFollows s t := by
  obtain ⟨u, hact, rfl⟩ := Option.map_eq_some_iff.1 hstep
  exact (storeFollows_act h horderly hact).trans (storeFollows_reap u)

/-- A capture that was never stored is bound when it is inserted. -/
theorem follows_bind {s : CaptureSystem} {i : CaptureSequence} {cell : CaptureCell}
    (hcell : s.cells[i]? = some cell) (hstored : cell.record.captureDisabled = false)
    {captures : List CaptureSequence} (hout : i ∉ captures) (hqueue : i ∉ s.queue) :
    Follows s captures (s.onRecord i RecordScope.bindChangeFeed)
      (insertSequence i captures) := by
  intro history h
  have hunbound := h.silent i cell hcell hout
  have hbind : (s.scope cell).bindChangeFeed =
      { s.scope cell with
        feed := s.feed.publish cell.record.sequence cell.record.revision .admitted
        record := { cell.record with feedBound := true } } := by
    unfold RecordScope.bindChangeFeed
    simp only [scope, hunbound, RecordScope.publish]
    rfl
  have hreplaced := replaced_onRecord hcell RecordScope.bindChangeFeed
  have hfeed : (s.onRecord i RecordScope.bindChangeFeed).feed =
      s.feed.publish cell.record.sequence cell.record.revision .admitted := by
    rw [onRecord_of_some hcell, putScope, hbind]
  rw [hbind] at hreplaced
  refine follows_spoken hreplaced hfeed rfl (fun j hj => ?_) (pairwise_insertSequence h.sorted)
    (fun hqueued => absurd hqueued hqueue) (fun _ => ⟨hstored, rfl, rfl⟩) (fun hnot => ?_)
    id history h
  · rw [mem_insertSequence]
    exact or_iff_right hj
  · exact absurd (mem_insertSequence.2 (.inl rfl)) hnot

theorem storeFollows_admitted {s : CaptureSystem} {i : CaptureSequence} {cell : CaptureCell}
    (hcell : s.cells[i]? = some cell) (hstored : cell.record.captureDisabled = false)
    (hout : i ∉ s.store.captures) (hqueue : i ∉ s.queue) : StoreFollows s (s.admitted i) := by
  have hplaced : Pointwise SameState s.cells (s.placed i).cells :=
    sameState_modify s i fun _ => rfl
  obtain ⟨cell', hcell', hsame⟩ := hplaced.get hcell
  unfold StoreFollows
  rw [admitted_captures]
  unfold admitted
  rw [if_neg hout]
  dsimp only
  apply Follows.trans
  case h' =>
    apply follows_bind
    · exact hcell'
    · rw [show cell'.record = cell.record from hsame]
      exact hstored
    · exact hout
    · exact hqueue
  case h =>
    apply follows_of_sameState
    · exact hplaced
    · rfl
    · exact .refl s.queue

theorem storeFollows_insert {s : CaptureSystem} {i : CaptureSequence} {cell : CaptureCell}
    (hcell : s.cells[i]? = some cell) (hstored : cell.record.captureDisabled = false)
    (hout : i ∉ s.store.captures) (hqueue : i ∉ s.queue) : StoreFollows s (s.insert i).2 := by
  rw [insert_eq]
  exact (storeFollows_admitted hcell hstored hout hqueue).trans (storeFollows_enforceLoop _ _ _)

/-- The event loop takes a capture from the channel and stores it. -/
def storeNext (s : CaptureSystem) : Option CaptureSystem :=
  match s.queue with
  | [] => none
  | i :: _ => (s.step .receive).bind fun s => s.step (.insert i)

theorem run_of_storeNext {s t : CaptureSystem} (hnext : s.storeNext = some t) :
    ∃ actions, run step s actions = some t := by
  unfold storeNext at hnext
  split at hnext
  · cases hnext
  · rename_i i rest hqueue
    refine ⟨[.receive, .insert i], ?_⟩
    obtain ⟨u, hreceive, hinsert⟩ := Option.bind_eq_some_iff.1 hnext
    simp only [run_cons, run_nil, hreceive, Option.bind_some, hinsert]

theorem storeFollows_storeNext {s t : CaptureSystem} (h : Conserved s)
    (hnext : s.storeNext = some t) :
    StoreFollows s t := by
  intro history htracked
  unfold storeNext at hnext
  split at hnext
  · cases hnext
  rename_i i rest hqueue
  obtain ⟨u, hreceive, hinsert⟩ := Option.bind_eq_some_iff.1 hnext
  have hreceived := storeFollows_step h rfl hreceive
  obtain ⟨v, hact, rfl⟩ := Option.map_eq_some_iff.1 hreceive
  have hv : v = { s with queue := rest }.modifyCell i
      fun cell => { cell with records := cell.records + 1 } := by
    simp only [act, hqueue] at hact
    exact (Option.some.inj hact).symm
  have hreap := reaped_reap v
  have hstore : v.reap.store = s.store := by rw [hreap.store, hv]; rfl
  have hrest : v.reap.queue = rest := by rw [hreap.queue, hv]; rfl
  -- the capture at the head of the channel has never been stored or removed
  obtain ⟨hout, cell, hcell, hstored⟩ := htracked.queued i (by rw [hqueue]; exact List.mem_cons_self)
  have hnodup := htracked.nodup
  rw [hqueue] at hnodup
  obtain ⟨cell', hcell', hsame⟩ : ∃ cell', v.reap.cells[i]? = some cell' ∧
      SameState cell cell' := by
    refine (sameState_trans ?_ hreap.sameState).get hcell
    rw [hv]
    exact sameState_modify { s with queue := rest } i fun _ => rfl
  obtain ⟨w, hinserted, rfl⟩ := Option.map_eq_some_iff.1 hinsert
  obtain ⟨_, -, hinserted⟩ := Option.bind_eq_some_iff.1 hinserted
  split at hinserted
  · obtain rfl := Option.some.inj hinserted
    have hstores := storeFollows_insert hcell'
      (by rw [show cell'.record = cell.record from hsame]; exact hstored)
      (by rw [hstore]; exact hout) (by rw [hrest]; exact (List.nodup_cons.1 hnodup).1)
    exact (hreceived.trans (hstores.trans (storeFollows_reap _))) history htracked
  · cases hinserted

end CaptureSystem

end Fluxcope.Capture
