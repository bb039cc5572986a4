import Fluxcope.Control.PageSpec
import Fluxcope.Control.CaptureQuery
/-!
# Following the cursors of a search

Every batch request sees the captures of the first view and newer ones.  A
cursor below the newest capture of the first view therefore leads to the same
captures in every later view, and the pages of a walk put together are the
matching captures of the first view.
-/

namespace Fluxcope.Control

open Fluxcope.Library Fluxcope.Capture

/-! ## Batches -/

namespace CaptureView

/-- The captures at or before a sequence number, newest first. -/
def atOrBefore (view : CaptureView) (bound : Nat) : List CaptureSnapshot :=
  upTo CaptureSnapshot.sequence bound view.captures.reverse

theorem descending_reverse (view : CaptureView) :
    Descending CaptureSnapshot.sequence view.captures.reverse :=
  List.pairwise_reverse.2 view.ascending

theorem descending_atOrBefore (view : CaptureView) (bound : Nat) :
    Descending CaptureSnapshot.sequence (view.atOrBefore bound) :=
  view.descending_reverse.upTo bound

theorem atOrBefore_wordMax (view : CaptureView) :
    view.atOrBefore wordMax = view.captures.reverse := by
  apply upTo_of_forall_le
  intro s hs
  exact view.sequence_le s (List.mem_reverse.1 hs)

theorem nextAtOrBefore_eq (view : CaptureView) (bound : Nat) :
    view.nextAtOrBefore bound = (view.atOrBefore bound).head? := by
  unfold nextAtOrBefore atOrBefore upTo
  rw [List.filter_reverse, List.head?_reverse]

/-- Below the number before a shown capture are the captures not shown yet. -/
theorem atOrBefore_before {view : CaptureView} {bound older : Nat}
    {shown left : List CaptureSnapshot} {last : CaptureSnapshot}
    (hsplit : view.atOrBefore bound = shown ++ left) (hlast : shown.getLast? = some last)
    (hsequence : last.sequence = older + 1) : view.atOrBefore older = left := by
  have hdesc := view.descending_atOrBefore bound
  have hmem : last ∈ view.atOrBefore bound := by
    rw [hsplit]
    exact List.mem_append_left _ (List.mem_of_getLast? hlast)
  have hle := (mem_upTo.1 hmem).2
  rw [hsplit] at hdesc
  have hleft := hdesc.upTo_before hlast hsequence
  rw [← hsplit] at hleft
  unfold atOrBefore at hleft ⊢
  rw [hsequence] at hle
  rwa [upTo_upTo (Nat.le_of_succ_le hle)] at hleft

theorem batchRows_eq (view : CaptureView) (rows bound : Nat) :
    view.batchRows rows bound = (view.atOrBefore bound).take rows := by
  induction rows generalizing bound with
  | zero => simp [batchRows]
  | succ rows ih =>
    unfold batchRows
    rw [nextAtOrBefore_eq]
    cases hlist : view.atOrBefore bound with
    | nil => rfl
    | cons s left =>
      simp only [List.head?_cons, List.take_succ_cons, List.cons.injEq, true_and]
      cases hsequence : s.sequence with
      | zero =>
        have hdesc := view.descending_atOrBefore bound
        rw [hlist, ← List.singleton_append] at hdesc
        rw [hdesc.eq_nil_of_key_zero List.mem_cons_self hsequence, List.take_nil]
      | succ older =>
        rw [← List.singleton_append] at hlist
        rw [← atOrBefore_before hlist rfl hsequence]
        exact ih older

end CaptureView

/-- Where a cursor starts in the store. -/
def cursorBound (cursor : Option CaptureSearchCursor) : Nat :=
  (cursor.map (·.nextOlderSequence)).getD wordMax

/-- A batch shows the first captures of those that are left; its cursor leads to the rest. -/
structure BatchSpec (view : CaptureView) (bound : Nat) (batch : CaptureSearchBatch) : Prop where
  snapshots : batch.snapshots = (view.atOrBefore bound).take captureSearchBatchSize
  done : batch.nextCursor = none → (view.atOrBefore bound).drop captureSearchBatchSize = []
  resume : ∀ cursor : CaptureSearchCursor, batch.nextCursor = some cursor →
    (∃ s ∈ batch.snapshots, cursor.nextOlderSequence ≤ s.sequence) ∧
    upTo CaptureSnapshot.sequence cursor.nextOlderSequence (view.atOrBefore bound) =
      (view.atOrBefore bound).drop captureSearchBatchSize

theorem getCaptureSearchBatch_spec (view : CaptureView) (cursor : Option CaptureSearchCursor) :
    BatchSpec view (cursorBound cursor)
      (view.getCaptureSearchBatch cursor captureSearchBatchSize) := by
  have hsplit := (List.take_append_drop captureSearchBatchSize
    (view.atOrBefore (cursorBound cursor))).symm
  have hdesc := view.descending_atOrBefore (cursorBound cursor)
  rw [hsplit] at hdesc
  have hsnapshots : (view.getCaptureSearchBatch cursor captureSearchBatchSize).snapshots =
      (view.atOrBefore (cursorBound cursor)).take captureSearchBatchSize := by
    simp only [CaptureView.getCaptureSearchBatch, Nat.min_self]
    exact view.batchRows_eq _ _
  have hcursor : (view.getCaptureSearchBatch cursor captureSearchBatchSize).nextCursor =
      ((view.atOrBefore (cursorBound cursor)).take captureSearchBatchSize).getLast?.bind
        fun snapshot => (cursorBefore snapshot.sequence).bind fun cursor =>
          (view.nextAtOrBefore cursor.nextOlderSequence).map fun _ => cursor := by
    rw [← hsnapshots]
    rfl
  cases hlast : ((view.atOrBefore (cursorBound cursor)).take captureSearchBatchSize).getLast? with
  | none =>
    rw [hlast] at hcursor
    have hempty : view.atOrBefore (cursorBound cursor) = [] := by
      have htake := List.getLast?_eq_none_iff.1 hlast
      simpa [captureSearchBatchSize] using htake
    refine ⟨hsnapshots, fun _ => ?_, fun next hnext => ?_⟩
    · rw [hempty, List.drop_nil]
    · rw [hcursor] at hnext
      cases hnext
  | some last =>
    rw [hlast] at hcursor
    have hmem := List.mem_of_getLast? hlast
    cases hsequence : last.sequence with
    | zero =>
      have hnone := hdesc.eq_nil_of_key_zero hmem hsequence
      refine ⟨hsnapshots, fun _ => hnone, fun next hnext => ?_⟩
      rw [hcursor, Option.bind_some, hsequence] at hnext
      cases hnext
    | succ older =>
      have hleft := CaptureView.atOrBefore_before hsplit hlast hsequence
      rw [Option.bind_some, hsequence] at hcursor
      simp only [cursorBefore, Option.bind_some, CaptureView.nextAtOrBefore_eq, hleft]
        at hcursor
      refine ⟨hsnapshots, fun hnone => ?_, fun next hnext => ?_⟩
      · rw [hcursor, Option.map_eq_none_iff] at hnone
        exact List.head?_eq_none_iff.1 hnone
      · rw [hcursor, Option.map_eq_some_iff] at hnext
        obtain ⟨-, -, rfl⟩ := hnext
        refine ⟨⟨last, by rw [hsnapshots]; exact hmem, ?_⟩, ?_⟩
        · rw [hsequence]
          exact Nat.le_succ older
        · conv_lhs => rw [hsplit]
          exact hdesc.upTo_before hlast hsequence

/-! ## One page -/

/-- The captures `all` as every later view shows them: up to the newest of them the
views hold nothing else. -/
structure Served (all : List CaptureSnapshot) (views : List CaptureView) : Prop where
  descending : Descending CaptureSnapshot.sequence all
  atOrBefore : ∀ view ∈ views, ∀ bound : Nat, (∃ s ∈ all, bound ≤ s.sequence) →
    view.atOrBefore bound = upTo CaptureSnapshot.sequence bound all

theorem Served.suffix {all : List CaptureSnapshot} {views rest : List CaptureView}
    (h : Served all views) (hrest : rest <:+ views) : Served all rest :=
  ⟨h.descending, fun v hv => h.atOrBefore v (hrest.subset hv)⟩

/-- A cursor leads to the captures that are left. -/
structure LeadsTo (all : List CaptureSnapshot) (cursor : CaptureSearchCursor)
    (left : List CaptureSnapshot) : Prop where
  reach : ∃ s ∈ all, cursor.nextOlderSequence ≤ s.sequence
  left : upTo CaptureSnapshot.sequence cursor.nextOlderSequence all = left

/-- What `search_captures` returns for the captures `todo` that are left. -/
def SearchLoopSpec (search : CaptureSearch) (limit : Nat) (all : List CaptureSnapshot)
    (todo : List CaptureSnapshot) (views : List CaptureView) (state : SearchState) :
    Except ControlError SearchReply × List CaptureView → Prop
  | (.error error, _) => error = rowTooLarge captureSearchPageJsonBudget ∧
      ∃ s ∈ todo, search.Oversized captureSearchPageJsonBudget s
  | (.ok reply, rest) => ∃ scanned left, todo = scanned ++ left ∧
      reply.captures = state.captures ++ search.rows scanned ∧
      reply.captures.length ≤ limit ∧
      search.bytes reply.captures ≤ captureSearchPageJsonBudget ∧
      rest <:+ views ∧ views.length ≤ rest.length + scanned.length + 1 ∧
      (reply.nextCursor = none → left = []) ∧
      ∀ cursor, reply.nextCursor = some cursor →
        (state.serializedBytes = 0 → scanned ≠ []) ∧ LeadsTo all cursor left

/-- The cursor of the page, or else that of the batch, leads to the rest of the captures. -/
theorem resume_after_batch {todo scanned left : List CaptureSnapshot} {rows : Nat}
    {pageCursor batchCursor : Option CaptureSearchCursor}
    (hdesc : Descending CaptureSnapshot.sequence todo)
    (hsplit : todo.take rows = scanned ++ left)
    (hpageNone : pageCursor = none → left = [])
    (hpage : ∀ cursor, pageCursor = some cursor → left ≠ [] ∧
      (∃ s ∈ todo.take rows, cursor.nextOlderSequence ≤ s.sequence) ∧
      upTo CaptureSnapshot.sequence cursor.nextOlderSequence (todo.take rows) = left)
    (hbatchNone : batchCursor = none → todo.drop rows = [])
    (hbatch : ∀ cursor : CaptureSearchCursor, batchCursor = some cursor →
      (∃ s ∈ todo.take rows, cursor.nextOlderSequence ≤ s.sequence) ∧
      upTo CaptureSnapshot.sequence cursor.nextOlderSequence todo = todo.drop rows) :
    (pageCursor.or batchCursor = none → left ++ todo.drop rows = []) ∧
      ∀ cursor, pageCursor.or batchCursor = some cursor →
        (∃ s ∈ todo, cursor.nextOlderSequence ≤ s.sequence) ∧
        upTo CaptureSnapshot.sequence cursor.nextOlderSequence todo = left ++ todo.drop rows := by
  cases hcursor : pageCursor with
  | none =>
    rw [hpageNone hcursor, List.nil_append, Option.none_or]
    refine ⟨hbatchNone, fun cursor hnext => ?_⟩
    obtain ⟨⟨s, hs, hle⟩, hleft⟩ := hbatch cursor hnext
    exact ⟨⟨s, List.mem_of_mem_take hs, hle⟩, hleft⟩
  | some pageCursor =>
    rw [Option.some_or]
    refine ⟨nofun, ?_⟩
    rintro _ ⟨⟩
    obtain ⟨hleft, ⟨s, hs, hle⟩, hresume⟩ := hpage pageCursor hcursor
    refine ⟨⟨s, List.mem_of_mem_take hs, hle⟩, ?_⟩
    -- everything beyond the batch is older than the first capture that is left
    obtain ⟨first, hfirst⟩ := List.exists_mem_of_ne_nil left hleft
    have hfirstLe : first.sequence ≤ pageCursor.nextOlderSequence := by
      rw [← hresume] at hfirst
      exact (mem_upTo.1 hfirst).2
    have hbeyond : ∀ t ∈ todo.drop rows, t.sequence ≤ pageCursor.nextOlderSequence := by
      intro t ht
      rw [← List.take_append_drop rows todo] at hdesc
      have hlt := (List.pairwise_append.1 hdesc).2.2 first
        (by rw [hsplit]; exact List.mem_append_right _ hfirst) t ht
      exact (Nat.le_of_lt hlt).trans hfirstLe
    conv_lhs => rw [← List.take_append_drop rows todo]
    unfold upTo at hresume ⊢
    rw [List.filter_append, hresume]
    congr 1
    exact upTo_of_forall_le hbeyond

/-- A bound that some capture left to do reaches separates the same captures of all. -/
theorem leadsTo_of_resume {all before todo left : List CaptureSnapshot}
    {cursor : CaptureSearchCursor} (hdesc : Descending CaptureSnapshot.sequence all)
    (hall : all = before ++ todo)
    (hreach : ∃ s ∈ todo, cursor.nextOlderSequence ≤ s.sequence)
    (hleft : upTo CaptureSnapshot.sequence cursor.nextOlderSequence todo = left) :
    LeadsTo all cursor left := by
  obtain ⟨s, hs, hle⟩ := hreach
  subst hall
  refine ⟨⟨s, List.mem_append_right _ hs, hle⟩, ?_⟩
  rw [upTo_append_of_lt, hleft]
  intro t ht
  exact Nat.lt_of_le_of_lt hle ((List.pairwise_append.1 hdesc).2.2 t ht s hs)

/-- What one turn returns for the captures `todo` that are left. -/
def SearchTurnSpec (search : CaptureSearch) (limit : Nat) (todo : List CaptureSnapshot)
    (state : SearchState) : Except ControlError SearchTurn → Prop
  | .error error => error = rowTooLarge captureSearchPageJsonBudget ∧
      ∃ s ∈ todo, search.Oversized captureSearchPageJsonBudget s
  | .ok (.done reply) => ∃ scanned left, todo = scanned ++ left ∧
      reply.captures = state.captures ++ search.rows scanned ∧
      reply.captures.length ≤ limit ∧
      search.bytes reply.captures ≤ captureSearchPageJsonBudget ∧
      (reply.nextCursor = none → left = []) ∧
      ∀ cursor, reply.nextCursor = some cursor →
        (state.serializedBytes = 0 → scanned ≠ []) ∧
        (∃ s ∈ todo, cursor.nextOlderSequence ≤ s.sequence) ∧
        upTo CaptureSnapshot.sequence cursor.nextOlderSequence todo = left
  | .ok (.next next) => ∃ scanned left cursor, todo = scanned ++ left ∧ scanned ≠ [] ∧
      next.captures = state.captures ++ search.rows scanned ∧
      next.captures.length < limit ∧
      next.serializedBytes = search.bytes next.captures ∧
      next.serializedBytes ≤ captureSearchPageJsonBudget ∧
      next.cursor = some cursor ∧
      (∃ s ∈ todo, cursor.nextOlderSequence ≤ s.sequence) ∧
      upTo CaptureSnapshot.sequence cursor.nextOlderSequence todo = left

/-- The variables of the loop agree with one another and leave room for a row. -/
structure SearchState.Open (search : CaptureSearch) (limit : Nat) (state : SearchState) :
    Prop where
  rows : state.captures.length < limit
  bytes : state.serializedBytes = search.bytes state.captures
  budget : state.serializedBytes ≤ captureSearchPageJsonBudget

theorem searchTurn_spec (search : CaptureSearch) {limit : Nat}
    (hlimit : limit ≤ maxCapturePageLimit) {view : CaptureView} {state : SearchState}
    (hopen : state.Open search limit) :
    SearchTurnSpec search limit (view.atOrBefore (cursorBound state.cursor)) state
      (searchTurn search limit view state) := by
  have hbatch := getCaptureSearchBatch_spec view state.cursor
  have hdesc := view.descending_atOrBefore (cursorBound state.cursor)
  unfold searchTurn
  simp only
  generalize view.getCaptureSearchBatch state.cursor captureSearchBatchSize = batch at hbatch ⊢
  obtain ⟨hsnapshots, hbatchNone, hbatchSome⟩ := hbatch
  generalize view.atOrBefore (cursorBound state.cursor) = todo
    at hsnapshots hbatchNone hbatchSome hdesc ⊢
  have hsplitBatch := List.take_append_drop captureSearchBatchSize todo
  obtain ⟨hrows, hbytes, hbudget⟩ := hopen
  by_cases hempty : batch.snapshots = []
  · have htodo : todo = [] := by
      rw [hsnapshots] at hempty
      simpa [captureSearchBatchSize] using hempty
    subst htodo
    rw [hempty, List.isEmpty_nil, if_pos rfl]
    exact ⟨[], [], rfl, by simp, hrows.le, hbytes ▸ hbudget, fun _ => rfl, nofun⟩
  rw [List.isEmpty_eq_false_iff.2 hempty, if_neg Bool.false_ne_true]
  have hlimits : 1 ≤ limit - state.captures.length ∧
      limit - state.captures.length ≤ maxCapturePageLimit := by omega
  have hremaining : captureSearchPageJsonBudget - state.serializedBytes < wordMax :=
    Nat.lt_of_le_of_lt (Nat.sub_le _ _) (by decide)
  have hbatchDesc : Descending CaptureSnapshot.sequence batch.snapshots := by
    rw [hsnapshots]
    exact hdesc.sublist (List.take_sublist _ _)
  have hpage := matchCapturePageWithBudget_spec search captureSearchPageJsonBudget
    hlimits hremaining hbatchDesc
  cases hresult : matchCapturePageWithBudget search batch.snapshots none
      (limit - state.captures.length) captureSearchPageJsonBudget
      (captureSearchPageJsonBudget - state.serializedBytes) with
  | error error =>
    rw [hresult] at hpage
    obtain ⟨rfl, s, hs, hover⟩ := hpage
    rw [hsnapshots] at hs
    exact ⟨rfl, s, List.mem_of_mem_take hs, hover⟩
  | ok page =>
    rw [hresult] at hpage
    obtain ⟨scanned, left, hsplit, hcaptures, hpageRows, hpageBytes, hpageBudget, hprogress,
      hpageNone, hpageSome⟩ := hpage
    rw [hsnapshots] at hsplit hpageSome hbatchSome
    obtain ⟨hlast, hmore⟩ :=
      resume_after_batch hdesc hsplit hpageNone hpageSome hbatchNone hbatchSome
    have htodo : todo = scanned ++ (left ++ todo.drop captureSearchBatchSize) := by
      rw [← List.append_assoc, ← hsplit, hsplitBatch]
    have hscanned : state.serializedBytes = 0 → scanned ≠ [] := by
      rintro hzero rfl
      have hleft : left ≠ [] := by
        rintro rfl
        rw [← hsnapshots] at hsplit
        exact hempty hsplit
      exact hprogress hleft (by rw [hcaptures]; rfl) (by omega) rfl
    have htotal : search.bytes (state.captures ++ page.captures) =
        state.serializedBytes + page.serializedBytes := by
      rw [search.bytes_append, ← hbytes, hpageBytes]
    have hwithin : search.bytes (state.captures ++ page.captures) ≤
        captureSearchPageJsonBudget := by
      omega
    have hlength : (state.captures ++ page.captures).length ≤ limit := by
      rw [List.length_append]
      omega
    have hdone : SearchTurnSpec search limit todo state
        (.ok (.done ⟨state.captures ++ page.captures,
          page.nextCursor.or batch.nextCursor⟩)) := by
      refine ⟨scanned, _, htodo, by rw [hcaptures], hlength, hwithin, hlast, ?_⟩
      intro cursor hcursor
      exact ⟨hscanned, hmore cursor hcursor⟩
    by_cases hfull : (state.captures ++ page.captures).length = limit
    · simp only [if_pos hfull]
      exact hdone
    simp only [if_neg hfull]
    cases hpageCursor : page.nextCursor with
    | some cursor =>
      rw [hpageCursor, Option.some_or] at hdone
      exact hdone
    | none =>
      rw [hpageCursor, Option.none_or] at hdone hmore
      cases hbatchCursor : batch.nextCursor with
      | none =>
        rw [hbatchCursor] at hdone
        exact hdone
      | some cursor =>
        have hleft : left = [] := hpageNone hpageCursor
        refine ⟨scanned, _, cursor, htodo, ?_, by rw [hcaptures],
          Nat.lt_of_le_of_ne hlength hfull, htotal.symm, htotal ▸ hwithin, rfl,
          hmore cursor hbatchCursor⟩
        rintro rfl
        rw [hleft, ← hsnapshots] at hsplit
        exact hempty hsplit

theorem searchLoop_spec (search : CaptureSearch) {limit : Nat}
    (hlimit : limit ≤ maxCapturePageLimit) {all : List CaptureSnapshot}
    {views : List CaptureView} {before todo : List CaptureSnapshot} {state : SearchState}
    (hserved : Served all views) (hall : all = before ++ todo)
    (hhead : ∀ view ∈ views.head?, view.atOrBefore (cursorBound state.cursor) = todo)
    (hcursor : ∀ cursor, state.cursor = some cursor → LeadsTo all cursor todo)
    (hnone : state.cursor = none → state.serializedBytes = 0)
    (hopen : state.Open search limit) (hviews : todo.length < views.length) :
    ∃ result, searchLoop search limit views state = some result ∧
      SearchLoopSpec search limit all todo views state result := by
  induction views generalizing before todo state with
  | nil => exact absurd hviews (Nat.not_lt_zero _)
  | cons view views ih =>
    unfold searchLoop
    by_cases hspent : state.serializedBytes = captureSearchPageJsonBudget
    · -- no byte is left: the page ends where the last batch did
      rw [if_pos hspent]
      refine ⟨_, rfl, [], todo, rfl, ?_, hopen.rows.le, ?_, List.suffix_refl _, by simp, ?_, ?_⟩
      · simp
      · exact hopen.bytes ▸ hopen.budget
      · intro hcursorNone
        have hzero := hnone hcursorNone
        rw [hspent] at hzero
        cases hzero
      · intro cursor hsome
        refine ⟨fun hzero => ?_, hcursor cursor hsome⟩
        rw [hspent] at hzero
        cases hzero
    rw [if_neg hspent]
    have hturn := @searchTurn_spec search limit hlimit view state hopen
    rw [hhead view rfl] at hturn
    simp only
    cases hresult : searchTurn search limit view state with
    | error error =>
      rw [hresult] at hturn
      exact ⟨_, rfl, hturn⟩
    | ok turn =>
      rw [hresult] at hturn
      cases turn with
      | done reply =>
        obtain ⟨scanned, left, rfl, hcaptures, hrows, hbytes, hlast, hmore⟩ := hturn
        refine ⟨_, rfl, scanned, left, rfl, hcaptures, hrows, hbytes,
          List.suffix_cons view views, by simp, hlast, fun cursor hsome => ?_⟩
        obtain ⟨hprogress, hreach, hleft⟩ := hmore cursor hsome
        exact ⟨hprogress,
          leadsTo_of_resume hserved.descending hall hreach hleft⟩
      | next next =>
        obtain ⟨scanned, left, cursor, rfl, hscanned, hcaptures, hrows, hbytes, hbudget,
          hnext, hreach, hleft⟩ := hturn
        have hleads := leadsTo_of_resume hserved.descending hall hreach hleft
        have hpos : 0 < scanned.length := List.length_pos_iff.2 hscanned
        rw [List.length_append, List.length_cons] at hviews
        have hheadNext : ∀ v ∈ views.head?,
            v.atOrBefore (cursorBound next.cursor) = left := by
          intro v hv
          have hmem := List.mem_cons_of_mem view (List.mem_of_mem_head? hv)
          rw [hnext]
          exact (hserved.atOrBefore v hmem _ hleads.reach).trans hleads.left
        have hcursorNext : ∀ c, next.cursor = some c → LeadsTo all c left := by
          rw [hnext]
          rintro _ ⟨⟩
          exact hleads
        have hnoneNext : next.cursor = none → next.serializedBytes = 0 := by
          rw [hnext]
          exact nofun
        obtain ⟨result, hloop, hspec⟩ := @ih (before ++ scanned) left next
          (hserved.suffix (List.suffix_cons view views)) (by rw [hall, List.append_assoc]) hheadNext hcursorNext hnoneNext
          ⟨hrows, hbytes, hbudget⟩ (by omega)
        refine ⟨result, hloop, ?_⟩
        obtain ⟨result | reply, rest⟩ := result
        · obtain ⟨herror, s, hs, hover⟩ := hspec
          exact ⟨herror, s, List.mem_append_right _ hs, hover⟩
        · obtain ⟨more, left', rfl, hcaptures', hrows', hbytes', hsuffix, hlength, hlast,
            hmore⟩ := hspec
          refine ⟨scanned ++ more, left', by rw [List.append_assoc], ?_, hrows', hbytes',
            hsuffix.trans (List.suffix_cons view views), ?_, hlast, fun c hc => ?_⟩
          · rw [hcaptures', hcaptures, search.rows_append, List.append_assoc]
          · rw [List.length_append, List.length_cons]
            omega
          · refine ⟨fun _ => ?_, (hmore c hc).2⟩
            exact List.append_ne_nil_of_left_ne_nil hscanned _

/-! ## The walk -/

/-- What a walk returns for the captures `todo` that are left. -/
def WalkSpec (search : CaptureSearch) (limit : Nat) (todo : List CaptureSnapshot)
    (pages : List SearchReply) (error : Option ControlError) : Prop :=
  (∀ page ∈ pages, page.captures.length ≤ limit ∧
    search.bytes page.captures ≤ captureSearchPageJsonBudget) ∧
  ∃ scanned left, todo = scanned ++ left ∧
    pages.flatMap (·.captures) = search.rows scanned ∧
    match error with
    | none => left = []
    | some error => error = rowTooLarge captureSearchPageJsonBudget ∧
        ∃ s ∈ left, search.Oversized captureSearchPageJsonBudget s

theorem searchCaptures_eq (search : CaptureSearch) {limit : Nat}
    (hlimit : 1 ≤ limit ∧ limit ≤ maxCapturePageLimit) (cursor : Option CaptureSearchCursor)
    (views : List CaptureView) :
    searchCaptures search cursor (some limit) views =
      searchLoop search limit views { cursor } := by
  simp [searchCaptures, normalizeCapturePageLimit, if_pos hlimit]

theorem walk_spec (search : CaptureSearch) {limit : Nat}
    (hlimit : 1 ≤ limit ∧ limit ≤ maxCapturePageLimit) {fuel : Nat}
    {all before todo : List CaptureSnapshot} {cursor : Option CaptureSearchCursor}
    {views : List CaptureView} (hserved : Served all views) (hall : all = before ++ todo)
    (hhead : ∀ view ∈ views.head?, view.atOrBefore (cursorBound cursor) = todo)
    (hcursor : ∀ c, cursor = some c → LeadsTo all c todo)
    (hfuel : todo.length < fuel) (hviews : 2 * todo.length < views.length) :
    ∃ pages error, walk search (some limit) fuel cursor views = some (pages, error) ∧
      pages.length ≤ fuel ∧ WalkSpec search limit todo pages error := by
  induction fuel generalizing before todo cursor views with
  | zero => exact absurd hfuel (Nat.not_lt_zero _)
  | succ fuel ih =>
    have hopen : SearchState.Open search limit { cursor } := ⟨hlimit.1, rfl, Nat.zero_le _⟩
    obtain ⟨result, hloop, hspec⟩ := searchLoop_spec search hlimit.2 hserved hall hhead
      hcursor (fun _ => rfl) hopen (by omega)
    unfold walk
    rw [searchCaptures_eq search hlimit, hloop]
    obtain ⟨error | reply, rest⟩ := result
    · obtain ⟨rfl, s, hs, hover⟩ := hspec
      exact ⟨[], some _, rfl, Nat.zero_le _, nofun, [], todo, rfl, rfl, rfl, s, hs, hover⟩
    · obtain ⟨scanned, left, rfl, hcaptures, hrows, hbytes, hsuffix, hlength, hlast,
        hmore⟩ := hspec
      rw [List.nil_append] at hcaptures
      rw [List.length_append] at hfuel hviews
      cases hnext : reply.nextCursor with
      | none =>
        refine ⟨[reply], none, by simp [hnext], by simp, ?_, scanned, left, rfl, ?_,
          hlast hnext⟩
        · intro page hpage
          obtain rfl := List.mem_singleton.1 hpage
          exact ⟨hrows, hbytes⟩
        · rw [List.flatMap_singleton, hcaptures]
      | some next =>
        -- the page has shown a capture, so fewer are left for the next one
        obtain ⟨hprogress, hleads⟩ := hmore next hnext
        have hpos : 0 < scanned.length := List.length_pos_iff.2 (hprogress rfl)
        have hserved' := hserved.suffix hsuffix
        obtain ⟨pages, error, hwalk, hcount, hpages, more, left', rfl, hrest, herror⟩ :=
          @ih (before ++ scanned) left (some next) rest hserved'
            (by rw [hall, List.append_assoc])
            (fun view hview => (hserved'.atOrBefore view (List.mem_of_mem_head? hview) _
              hleads.reach).trans hleads.left)
            (by rintro _ ⟨⟩; exact hleads) (by omega) (by omega)
        refine ⟨reply :: pages, error, by simp [hnext, hwalk], ?_, ?_, scanned ++ more,
          left', by rw [List.append_assoc], ?_, herror⟩
        · rw [List.length_cons]
          omega
        · intro page hpage
          rcases List.mem_cons.1 hpage with rfl | hpage
          · exact ⟨hrows, hbytes⟩
          · exact hpages page hpage
        · rw [List.flatMap_cons, hcaptures, hrest, search.rows_append]

/-- Views that only gain newer captures serve the captures of the first one. -/
theorem served_of_prefix {base : CaptureView} {views : List CaptureView}
    (hviews : ∀ view ∈ views, base.captures <+: view.captures) :
    Served base.captures.reverse views := by
  refine ⟨base.descending_reverse, ?_⟩
  rintro view hview bound ⟨s, hs, hbound⟩
  obtain ⟨newer, hnewer⟩ := hviews view hview
  have hascending := view.ascending
  rw [← hnewer] at hascending
  unfold CaptureView.atOrBefore
  rw [← hnewer, List.reverse_append, upTo_append_of_lt]
  intro t ht
  have hlt := (List.pairwise_append.1 hascending).2.2 s (List.mem_reverse.1 hs) t
    (List.mem_reverse.1 ht)
  exact Nat.lt_of_le_of_lt hbound hlt

theorem descending_rows (search : CaptureSearch) {snapshots : List CaptureSnapshot}
    (h : Descending CaptureSnapshot.sequence snapshots) :
    (search.rows snapshots).Pairwise fun a b => b.captureSequence < a.captureSequence :=
  List.pairwise_map.2 (h.filter _)

/-- Following the cursors from the first page shows every matching capture of the
first view once, newest first; the walk ends, and it fails only at a capture
whose row alone exceeds the budget. -/
theorem search_walk_complete (search : CaptureSearch) {limit : Nat}
    (hlimit : 1 ≤ limit ∧ limit ≤ maxCapturePageLimit) (base : CaptureView)
    (views : List CaptureView) (hviews : ∀ view ∈ views, base.captures <+: view.captures)
    (hlength : 2 * base.captures.length ≤ views.length) :
    ∃ pages error,
      walk search (some limit) (base.captures.length + 1) none (base :: views) =
        some (pages, error) ∧
      pages.length ≤ base.captures.length + 1 ∧
      (∀ page ∈ pages, page.captures.length ≤ limit ∧
        search.bytes page.captures ≤ captureSearchPageJsonBudget) ∧
      (pages.flatMap (·.captures)).Pairwise
        (fun a b => b.captureSequence < a.captureSequence) ∧
      match error with
      | none => pages.flatMap (·.captures) = search.rows base.captures.reverse
      | some error => error.code = .resourceLimit ∧
          ∃ s ∈ base.captures, search.Oversized captureSearchPageJsonBudget s := by
  have hserved : Served base.captures.reverse (base :: views) := by
    apply served_of_prefix
    rintro view (_ | ⟨_, hview⟩)
    · exact List.prefix_refl _
    · exact hviews view hview
  have hhead : ∀ view ∈ (base :: views).head?,
      view.atOrBefore (cursorBound none) = base.captures.reverse := by
    rintro _ ⟨⟩
    exact base.atOrBefore_wordMax
  have hfuel : base.captures.reverse.length < base.captures.length + 1 := by simp
  have hrequests : 2 * base.captures.reverse.length < (base :: views).length := by
    rw [List.length_reverse, List.length_cons]
    omega
  obtain ⟨pages, error, hwalk, hcount, hpages, scanned, left, hsplit, hrows, herror⟩ :=
    walk_spec search hlimit hserved (List.nil_append _).symm hhead nofun hfuel hrequests
  have hdesc := base.descending_reverse
  rw [hsplit] at hdesc
  refine ⟨pages, error, hwalk, hcount, hpages, ?_, ?_⟩
  · rw [hrows]
    exact descending_rows search hdesc.append_left
  · cases error with
    | none =>
      rw [hsplit, herror, List.append_nil]
      exact hrows
    | some error =>
      obtain ⟨rfl, s, hs, hover⟩ := herror
      have hmem : s ∈ base.captures.reverse := by
        rw [hsplit]
        exact List.mem_append_right _ hs
      exact ⟨rfl, s, List.mem_reverse.1 hmem, hover⟩

/-- A capture with an empty head. -/
def bareSnapshot (sequence : CaptureSequence) : CaptureSnapshot :=
  (CaptureRecord.new sequence ⟨[], [], [], none, []⟩ {} 0 0 0).snapshot .metadataOnly

def bareView (sequences : List CaptureSequence) (hascending : sequences.Pairwise (· < ·))
    (hle : ∀ i ∈ sequences, i ≤ wordMax) : CaptureView :=
  { captures := sequences.map bareSnapshot
    ascending := List.pairwise_map.2 hascending
    sequence_le := List.forall_mem_map.2 hle }

/-- Two captures on pages of one row; a third one arrives after the first request. -/
theorem search_walk_complete_sample :
    ∃ pages error, walk ⟨fun _ => true, fun _ => 100⟩ (some 1) 3 none
        (bareView [3, 7] (by decide) (by decide) ::
          List.replicate 4 (bareView [3, 7, 9] (by decide) (by decide))) =
        some (pages, error) ∧ pages.length ≤ 3 := by
  obtain ⟨pages, error, hwalk, hcount, -⟩ :=
    @search_walk_complete ⟨fun _ => true, fun _ => 100⟩ 1 (by decide)
      (bareView [3, 7] (by decide) (by decide))
      (List.replicate 4 (bareView [3, 7, 9] (by decide) (by decide)))
      (fun view hview => by
        obtain rfl := List.eq_of_mem_replicate hview
        exact ⟨[bareSnapshot 9], rfl⟩)
      (by decide)
  exact ⟨pages, error, hwalk, hcount⟩

end Fluxcope.Control
