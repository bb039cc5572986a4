import Fluxcope.Capture.Redundant
import Fluxcope.Capture.Retention
/-!
# What the history of the feed says about the store

The last change about a stored capture carries its revision, and a capture that
leaves the store is told to have left.  A reader of the history who has seen
every change about a capture therefore knows its revision.
-/

namespace Fluxcope.Capture

open Fluxcope.Library

/-- The last change of the history that is about capture `i`. -/
def lastAbout (history : List CaptureChange) (i : CaptureSequence) : Option CaptureChange :=
  (history.filter fun change => change.sequence = i).getLast?

theorem lastAbout_append_of_ne {history news : List CaptureChange} {i : CaptureSequence}
    (h : ∀ change ∈ news, change.sequence ≠ i) :
    lastAbout (history ++ news) i = lastAbout history i := by
  unfold lastAbout
  have hnone : news.filter (fun change => change.sequence = i) = [] :=
    List.filter_eq_nil_iff.2 fun change hchange => by simpa using h change hchange
  rw [List.filter_append, hnone, List.append_nil]

theorem lastAbout_snoc {history : List CaptureChange} {change : CaptureChange} :
    lastAbout (history ++ [change]) change.sequence = some change := by
  simp [lastAbout, List.filter_append]

namespace CaptureSystem

/-- The record is bound and the feed knows its revision. -/
structure Announced (history : List CaptureChange) (i : CaptureSequence)
    (record : CaptureRecord) : Prop where
  stored : record.captureDisabled = false
  bound : record.feedBound = true
  last : ∃ change, lastAbout history i = some change ∧ change.revision = record.revision ∧
    change.kind.isRemoval = false

/-- The history knows the captures `retained`; the others are silent, and those in
the channel have never been removed. -/
structure Tracked (s : CaptureSystem) (retained : List CaptureSequence)
    (history : List CaptureChange) : Prop where
  represents : CaptureChangeFeed.Represents s.feed history
  sequence : ∀ (i : Nat) (cell : CaptureCell), s.cells[i]? = some cell → cell.record.sequence = i
  sorted : retained.Pairwise (· < ·)
  announced : ∀ i ∈ retained, ∃ cell, s.cells[i]? = some cell ∧ Announced history i cell.record
  silent : ∀ (i : Nat) (cell : CaptureCell), s.cells[i]? = some cell → i ∉ retained →
    cell.record.feedBound = false
  queued : ∀ i ∈ s.queue, i ∉ retained ∧
    ∃ cell, s.cells[i]? = some cell ∧ cell.record.captureDisabled = false
  nodup : s.queue.Nodup
  known : ∀ change ∈ history, change.sequence ∉ retained →
    ∃ cell, s.cells[change.sequence]? = some cell ∧ cell.record.captureDisabled = true

theorem tracked_new (policy : CapturePolicy) (retention : CaptureRetentionPolicy) :
    Tracked (new policy retention) [] [] where
  represents := CaptureChangeFeed.represents_new
  sequence := by simp [new]
  sorted := .nil
  announced := by simp
  silent := by simp [new]
  queued := by simp [new]
  nodup := .nil
  known := by simp

/-- What a reader can tell about the retained captures from the changes `news`. -/
structure Kept (s : CaptureSystem) (retained : List CaptureSequence) (t : CaptureSystem)
    (retained' : List CaptureSequence) (news : List CaptureChange) : Prop where
  same : ∀ i ∈ retained', (∀ change ∈ news, change.sequence ≠ i) → i ∈ retained ∧
    ∀ cell', t.cells[i]? = some cell' → ∃ cell, s.cells[i]? = some cell ∧
      cell'.record.snapshot .metadataOnly = cell.record.snapshot .metadataOnly
  removed : ∀ i ∈ retained, i ∉ retained' →
    (∃ change ∈ news, change.sequence = i ∧ change.kind.isRemoval = true) ∧
      ∃ cell', t.cells[i]? = some cell' ∧ cell'.record.captureDisabled = true
  disabled : ∀ (i : Nat) (cell : CaptureCell), s.cells[i]? = some cell →
    cell.record.captureDisabled = true →
      ∃ cell', t.cells[i]? = some cell' ∧ cell'.record.captureDisabled = true

theorem Kept.trans {s t u : CaptureSystem} {retained retained' retained'' : List CaptureSequence}
    {news news' : List CaptureChange} (h : Kept s retained t retained' news)
    (h' : Kept t retained' u retained'' news') : Kept s retained u retained'' (news ++ news') where
  same i hi hnone := by
    obtain ⟨hi', hcells'⟩ := h'.same i hi fun change hchange =>
      hnone change (List.mem_append_right _ hchange)
    obtain ⟨hi'', hcells⟩ := h.same i hi' fun change hchange =>
      hnone change (List.mem_append_left _ hchange)
    refine ⟨hi'', fun cell'' hcell'' => ?_⟩
    obtain ⟨cell', hcell', hsnapshot'⟩ := hcells' cell'' hcell''
    obtain ⟨cell, hcell, hsnapshot⟩ := hcells cell' hcell'
    exact ⟨cell, hcell, hsnapshot'.trans hsnapshot⟩
  removed i hi hout := by
    by_cases hi' : i ∈ retained'
    · obtain ⟨⟨change, hchange, habout⟩, hdisabled⟩ := h'.removed i hi' hout
      exact ⟨⟨change, List.mem_append_right _ hchange, habout⟩, hdisabled⟩
    · obtain ⟨⟨change, hchange, habout⟩, cell', hcell', hdisabled⟩ := h.removed i hi hi'
      exact ⟨⟨change, List.mem_append_left _ hchange, habout⟩,
        h'.disabled i cell' hcell' hdisabled⟩
  disabled i cell hcell hdisabled := by
    obtain ⟨cell', hcell', hdisabled'⟩ := h.disabled i cell hcell hdisabled
    exact h'.disabled i cell' hcell' hdisabled'

/-- From `s` to `t` the history stays true, and its new part tells what happened. -/
def Follows (s : CaptureSystem) (retained : List CaptureSequence) (t : CaptureSystem)
    (retained' : List CaptureSequence) : Prop :=
  ∀ history, Tracked s retained history →
    ∃ news, Tracked t retained' (history ++ news) ∧ Kept s retained t retained' news

theorem Follows.trans {s t u : CaptureSystem}
    {retained retained' retained'' : List CaptureSequence} (h : Follows s retained t retained')
    (h' : Follows t retained' u retained'') : Follows s retained u retained'' := by
  intro history htracked
  obtain ⟨news, htracked', hkept⟩ := h history htracked
  obtain ⟨news', htracked'', hkept'⟩ := h' _ htracked'
  exact ⟨news ++ news', by rw [← List.append_assoc]; exact htracked'', hkept.trans hkept'⟩

/-! ## References -/

theorem follows_of_sameState {s t : CaptureSystem} (hcells : Pointwise SameState s.cells t.cells)
    (hfeed : t.feed = s.feed) (hqueue : t.queue.Sublist s.queue)
    (retained : List CaptureSequence) : Follows s retained t retained := by
  intro history h
  refine ⟨[], ?_, ?_⟩
  · rw [List.append_nil]
    refine ⟨hfeed ▸ h.represents, fun i cell' hcell' => ?_, h.sorted, fun i hi => ?_,
      fun i cell' hcell' hi => ?_, fun i hi => ?_, h.nodup.sublist hqueue,
      fun change hchange hout => ?_⟩
    · obtain ⟨cell, hcell, hsame⟩ := hcells.get_right hcell'
      rw [show cell'.record = cell.record from hsame]
      exact h.sequence i cell hcell
    · obtain ⟨cell, hcell, hannounced⟩ := h.announced i hi
      obtain ⟨cell', hcell', hsame⟩ := hcells.get hcell
      exact ⟨cell', hcell', (show cell'.record = cell.record from hsame) ▸ hannounced⟩
    · obtain ⟨cell, hcell, hsame⟩ := hcells.get_right hcell'
      rw [show cell'.record = cell.record from hsame]
      exact h.silent i cell hcell hi
    · obtain ⟨hout, cell, hcell, hstored⟩ := h.queued i (hqueue.subset hi)
      obtain ⟨cell', hcell', hsame⟩ := hcells.get hcell
      exact ⟨hout, cell', hcell', (show cell'.record = cell.record from hsame) ▸ hstored⟩
    · obtain ⟨cell, hcell, hdisabled⟩ := h.known change hchange hout
      obtain ⟨cell', hcell', hsame⟩ := hcells.get hcell
      exact ⟨cell', hcell', (show cell'.record = cell.record from hsame) ▸ hdisabled⟩
  · refine ⟨fun i hi _ => ⟨hi, fun cell' hcell' => ?_⟩, fun i hi hout => absurd hi hout,
      fun i cell hcell hdisabled => ?_⟩
    · obtain ⟨cell, hcell, hsame⟩ := hcells.get_right hcell'
      exact ⟨cell, hcell, by rw [show cell'.record = cell.record from hsame]⟩
    · obtain ⟨cell', hcell', hsame⟩ := hcells.get hcell
      exact ⟨cell', hcell', (show cell'.record = cell.record from hsame) ▸ hdisabled⟩

/-- The store is not part of what the history is about. -/
theorem follows_store (s : CaptureSystem) (store : CaptureStore)
    (retained : List CaptureSequence) : Follows s retained { s with store } retained :=
  follows_of_sameState (t := { s with store }) (sameState_refl s.cells) rfl (.refl s.queue)
    retained

theorem follows_reap (s : CaptureSystem) (retained : List CaptureSequence) :
    Follows s retained s.reap retained := by
  have hreap := reaped_reap s
  exact follows_of_sameState hreap.sameState hreap.feed (hreap.queue ▸ .refl _) retained

/-! ## One record -/

/-- The record of capture `i` is replaced, and nothing else. -/
structure Replaced (s t : CaptureSystem) (i : CaptureSequence) (cell : CaptureCell)
    (record : CaptureRecord) : Prop where
  get : s.cells[i]? = some cell
  here : ∃ cell', t.cells[i]? = some cell' ∧ cell'.record = record
  others : ∀ j : Nat, j ≠ i → (t.cells[j]?).map (·.record) = (s.cells[j]?).map (·.record)
  queue : t.queue = s.queue

theorem Replaced.other {s t : CaptureSystem} {i : CaptureSequence} {cell : CaptureCell}
    {record : CaptureRecord} (h : Replaced s t i cell record) {j : Nat} (hj : j ≠ i)
    {c : CaptureCell} (hc : s.cells[j]? = some c) :
    ∃ c', t.cells[j]? = some c' ∧ c'.record = c.record := by
  have hsame := h.others j hj
  rw [hc, Option.map_some, Option.map_eq_some_iff] at hsame
  exact hsame

theorem Replaced.other_right {s t : CaptureSystem} {i : CaptureSequence} {cell : CaptureCell}
    {record : CaptureRecord} (h : Replaced s t i cell record) {j : Nat} (hj : j ≠ i)
    {c' : CaptureCell} (hc' : t.cells[j]? = some c') :
    ∃ c, s.cells[j]? = some c ∧ c.record = c'.record := by
  have hsame := (h.others j hj).symm
  rw [hc', Option.map_some, Option.map_eq_some_iff] at hsame
  exact hsame

/-- The history after changes about the replaced record. -/
theorem tracked_replaced {s t : CaptureSystem} {i : CaptureSequence} {cell : CaptureCell}
    {record : CaptureRecord} (hreplaced : Replaced s t i cell record)
    (hsequence : record.sequence = cell.record.sequence)
    {retained retained' : List CaptureSequence} {history news : List CaptureChange}
    (h : Tracked s retained history)
    (hrepresents : CaptureChangeFeed.Represents t.feed (history ++ news))
    (hnews : ∀ change ∈ news, change.sequence = i)
    (hothers : ∀ j : Nat, j ≠ i → (j ∈ retained' ↔ j ∈ retained))
    (hsorted : retained'.Pairwise (· < ·))
    (hin : i ∈ retained' → Announced (history ++ news) i record)
    (hout : i ∉ retained' → record.feedBound = false)
    (hqueued : i ∈ s.queue → i ∉ retained' ∧ record.captureDisabled = false)
    (hgone : i ∉ retained' → i ∈ retained ∨ news ≠ [] → record.captureDisabled = true)
    (hdisabled : cell.record.captureDisabled = true → record.captureDisabled = true) :
    Tracked t retained' (history ++ news) := by
  obtain ⟨here, hhere, hrecord⟩ := hreplaced.here
  have hquiet : ∀ j : Nat, j ≠ i → ∀ change ∈ news, change.sequence ≠ j := by
    intro j hj change hchange
    rw [hnews change hchange]
    exact Ne.symm hj
  refine ⟨hrepresents, fun j c' hc' => ?_, hsorted, fun j hj => ?_, fun j c' hc' hj => ?_,
    fun j hj => ?_, hreplaced.queue ▸ h.nodup, fun change hchange hj => ?_⟩
  · by_cases hji : j = i
    · subst hji
      obtain rfl := Option.some.inj (hhere.symm.trans hc')
      rw [hrecord, hsequence]
      exact h.sequence j cell hreplaced.get
    · obtain ⟨c, hc, hsame⟩ := hreplaced.other_right hji hc'
      rw [← hsame]
      exact h.sequence j c hc
  · by_cases hji : j = i
    · subst hji
      exact ⟨here, hhere, hrecord ▸ hin hj⟩
    · obtain ⟨c, hc, hstored, hbound, hlast⟩ := h.announced j ((hothers j hji).1 hj)
      obtain ⟨c', hc', hsame⟩ := hreplaced.other hji hc
      refine ⟨c', hc', hsame ▸ hstored, hsame ▸ hbound, ?_⟩
      rw [lastAbout_append_of_ne (hquiet j hji), hsame]
      exact hlast
  · by_cases hji : j = i
    · subst hji
      obtain rfl := Option.some.inj (hhere.symm.trans hc')
      exact hrecord ▸ hout hj
    · obtain ⟨c, hc, hsame⟩ := hreplaced.other_right hji hc'
      rw [← hsame]
      exact h.silent j c hc (mt (hothers j hji).2 hj)
  · rw [hreplaced.queue] at hj
    by_cases hji : j = i
    · subst hji
      obtain ⟨hnot, hstored⟩ := hqueued hj
      exact ⟨hnot, here, hhere, hrecord ▸ hstored⟩
    · obtain ⟨hnot, c, hc, hstored⟩ := h.queued j hj
      obtain ⟨c', hc', hsame⟩ := hreplaced.other hji hc
      exact ⟨mt (hothers j hji).1 hnot, c', hc', hsame ▸ hstored⟩
  · by_cases hji : change.sequence = i
    · rw [hji] at hj ⊢
      refine ⟨here, hhere, hrecord ▸ ?_⟩
      by_cases hold : i ∈ retained ∨ news ≠ []
      · exact hgone hj hold
      · -- the change is an old one about a capture that has left before
        obtain ⟨hold, hnone⟩ := not_or.1 hold
        rw [not_not.1 hnone, List.append_nil] at hchange
        obtain ⟨c, hc, hremoved⟩ := h.known change hchange (by rw [hji]; exact hold)
        rw [hji] at hc
        obtain rfl := Option.some.inj (hreplaced.get.symm.trans hc)
        exact hdisabled hremoved
    · have hchange' : change ∈ history := (List.mem_append.1 hchange).resolve_right fun hnew =>
        hji (hnews change hnew)
      obtain ⟨c, hc, hremoved⟩ := h.known change hchange' (mt (hothers _ hji).2 hj)
      obtain ⟨c', hc', hsame⟩ := hreplaced.other hji hc
      exact ⟨c', hc', hsame ▸ hremoved⟩

theorem kept_replaced {s t : CaptureSystem} {i : CaptureSequence} {cell : CaptureCell}
    {record : CaptureRecord} (hreplaced : Replaced s t i cell record)
    {retained retained' : List CaptureSequence} {news : List CaptureChange}
    (hothers : ∀ j : Nat, j ≠ i → (j ∈ retained' ↔ j ∈ retained))
    (hin : i ∈ retained' → (∃ change ∈ news, change.sequence = i) ∨ i ∈ retained ∧
      record.snapshot .metadataOnly = cell.record.snapshot .metadataOnly)
    (hout : i ∈ retained → i ∉ retained' →
      (∃ change ∈ news, change.sequence = i ∧ change.kind.isRemoval = true) ∧
        record.captureDisabled = true)
    (hdisabled : cell.record.captureDisabled = true → record.captureDisabled = true) :
    Kept s retained t retained' news := by
  obtain ⟨here, hhere, hrecord⟩ := hreplaced.here
  refine ⟨fun j hj hnone => ?_, fun j hj hgone => ?_, fun j c hc hremoved => ?_⟩
  · by_cases hji : j = i
    · subst hji
      rcases hin hj with ⟨change, hchange, habout⟩ | ⟨hold, hsnapshot⟩
      · exact absurd habout (hnone change hchange)
      · refine ⟨hold, fun c' hc' => ⟨cell, hreplaced.get, ?_⟩⟩
        obtain rfl := Option.some.inj (hhere.symm.trans hc')
        rw [hrecord, hsnapshot]
    · refine ⟨(hothers j hji).1 hj, fun c' hc' => ?_⟩
      obtain ⟨c, hc, hsame⟩ := hreplaced.other_right hji hc'
      exact ⟨c, hc, by rw [hsame]⟩
  · by_cases hji : j = i
    · subst hji
      obtain ⟨hchange, hremoved⟩ := hout hj hgone
      exact ⟨hchange, here, hhere, hrecord ▸ hremoved⟩
    · exact absurd ((hothers j hji).2 hj) hgone
  · by_cases hji : j = i
    · subst hji
      obtain rfl := Option.some.inj (hreplaced.get.symm.trans hc)
      exact ⟨here, hhere, hrecord ▸ hdisabled hremoved⟩
    · obtain ⟨c', hc', hsame⟩ := hreplaced.other hji hc
      exact ⟨c', hc', hsame ▸ hremoved⟩

/-- A record outside the store changes and tells nothing. -/
theorem follows_unspoken {s t : CaptureSystem} {i : CaptureSequence} {cell : CaptureCell}
    {record : CaptureRecord} (hreplaced : Replaced s t i cell record) (hfeed : t.feed = s.feed)
    (hsequence : record.sequence = cell.record.sequence)
    (hbound : record.feedBound = cell.record.feedBound)
    (hdisabled : record.captureDisabled = cell.record.captureDisabled)
    {retained : List CaptureSequence} (hout : i ∉ retained) :
    Follows s retained t retained := by
  intro history h
  refine ⟨[], tracked_replaced hreplaced hsequence h ?_ (by simp) (fun _ _ => Iff.rfl) h.sorted
    (fun hin => absurd hin hout) (fun _ => ?_) (fun hi => ⟨hout, ?_⟩) (by simp [hout])
    (fun hremoved => hdisabled ▸ hremoved), kept_replaced hreplaced (fun _ _ => Iff.rfl)
      (fun hin => absurd hin hout) (fun hin => absurd hin hout) fun hremoved => hdisabled ▸ hremoved⟩
  · rw [List.append_nil, hfeed]
    exact h.represents
  · rw [hbound]
    exact h.silent i cell hreplaced.get hout
  · obtain ⟨-, c, hc, hstored⟩ := h.queued i hi
    obtain rfl := Option.some.inj (hreplaced.get.symm.trans hc)
    rw [hdisabled]
    exact hstored

/-- A record tells the feed its revision: an update, an admission or a removal. -/
theorem follows_spoken {s t : CaptureSystem} {i : CaptureSequence} {cell : CaptureCell}
    {record : CaptureRecord} {kind : CaptureChangeKind}
    (hreplaced : Replaced s t i cell record)
    (hfeed : t.feed = s.feed.publish cell.record.sequence record.revision kind)
    (hsequence : record.sequence = cell.record.sequence)
    {retained retained' : List CaptureSequence}
    (hothers : ∀ j : Nat, j ≠ i → (j ∈ retained' ↔ j ∈ retained))
    (hsorted : retained'.Pairwise (· < ·))
    (hqueued : i ∈ s.queue → i ∉ retained' ∧ record.captureDisabled = false)
    (hin : i ∈ retained' → record.captureDisabled = false ∧ record.feedBound = true ∧
      kind.isRemoval = false)
    (hout : i ∉ retained' → record.feedBound = false ∧ record.captureDisabled = true ∧
      kind.isRemoval = true)
    (hdisabled : cell.record.captureDisabled = true → record.captureDisabled = true) :
    Follows s retained t retained' := by
  intro history h
  have hi : cell.record.sequence = i := h.sequence i cell hreplaced.get
  rw [hi] at hfeed
  have hrepresents := h.represents.publish i record.revision kind
  rw [← hfeed] at hrepresents
  refine ⟨_, tracked_replaced hreplaced hsequence h hrepresents ?_ hothers hsorted ?_
    (fun hgone => (hout hgone).1) hqueued (fun hgone _ => (hout hgone).2.1) hdisabled,
    kept_replaced hreplaced hothers (fun _ => .inl ?_)
      (fun _ hgone => ⟨?_, (hout hgone).2.1⟩) hdisabled⟩
  · intro change hchange
    obtain rfl := List.mem_singleton.1 hchange
    rfl
  · intro hmem
    obtain ⟨hstored, hbound, hkind⟩ := hin hmem
    exact ⟨hstored, hbound, _, lastAbout_snoc, rfl, hkind⟩
  · exact ⟨_, List.mem_singleton_self _, rfl⟩
  · exact ⟨_, List.mem_singleton_self _, rfl, (hout hgone).2.2⟩

end CaptureSystem

end Fluxcope.Capture
