import Fluxcope.Library.Modified
import Fluxcope.Mcp.StdioMessages
/-!
# Where the permits are
-/

namespace Fluxcope.Mcp

open Fluxcope.Library Semaphore

variable {ι β : Type}

def ReceivePhase.permits : ReceivePhase → List Permit
  | .tracking permit => [permit]
  | .idle | .reading | .received | .admitting | .waiting => []

/-- The permits of responses that are being written. -/
def writing (writes : List Write) : List Permit :=
  writes.filterMap fun write => if write.finished then none else write.permit

def requestIds (messages : List (Incoming ι β)) : List ι :=
  messages.filterMap Incoming.requestId

def answers (requests : List (Dispatched ι)) : List (Permit × Response) :=
  requests.map fun request => (request.permit, request.response)

/-- A write with a permit is the answer to the request that was admitted with it. -/
structure Linked (answers : List (Permit × Response)) (writes : List Write) : Prop where
  wrote : ∀ index write permit, writes[index]? = some write → write.permit = some permit →
    (permit, .sent index) ∈ answers
  sent : ∀ permit index, (permit, .sent index) ∈ answers →
    ∃ write, writes[index]? = some write ∧ (write.permit = none ∨ write.permit = some permit)

theorem Linked.unsent {answers : List (Permit × Response)} {writes : List Write}
    (h : Linked answers writes) (permit : Permit) :
    Linked (answers ++ [(permit, .unsent)]) writes where
  wrote index write permit hwrite hpermit :=
    List.mem_append_left _ (h.wrote index write permit hwrite hpermit)
  sent permit index hmem := by
    rcases List.mem_append.1 hmem with hmem | hmem
    · exact h.sent permit index hmem
    · simp at hmem

theorem Linked.push {answers : List (Permit × Response)} {writes : List Write}
    (h : Linked answers writes) : Linked answers (writes ++ [{ permit := none }]) where
  wrote index write permit hwrite hpermit := by
    rw [List.getElem?_append] at hwrite
    split at hwrite
    · exact h.wrote index write permit hwrite hpermit
    · rw [List.getElem?_singleton] at hwrite
      split at hwrite <;> cases hwrite
      cases hpermit
  sent permit index hmem := by
    obtain ⟨write, hwrite, hpermit⟩ := h.sent permit index hmem
    refine ⟨write, ?_, hpermit⟩
    rw [List.getElem?_append_left (List.getElem?_eq_some_iff.1 hwrite).1]
    exact hwrite

/-- A request is answered, with its permit if it still has it. -/
theorem Linked.answer {answers : List (Permit × Response)} {writes : List Write}
    {index : Nat} {permit : Permit} {own : Option Permit} (h : Linked answers writes)
    (hanswer : answers[index]? = some (permit, .unsent))
    (hown : own = none ∨ own = some permit) :
    Linked (answers.set index (permit, .sent writes.length)) (writes ++ [{ permit := own }]) where
  wrote other write held hwrite hheld := by
    rw [List.getElem?_append] at hwrite
    split at hwrite
    · obtain ⟨place, hplace⟩ := List.mem_iff_getElem?.1 (h.wrote other write held hwrite hheld)
      refine List.mem_iff_getElem?.2 ⟨place, ?_⟩
      rw [List.getElem?_set_ne, hplace]
      rintro rfl
      rw [hanswer] at hplace
      cases hplace
    · rw [List.getElem?_singleton] at hwrite
      split at hwrite <;> cases hwrite
      rcases hown with rfl | rfl
      · cases hheld
      · obtain rfl : permit = held := Option.some.inj hheld
        have hlength : other = writes.length := by omega
        rw [hlength]
        exact List.mem_set (List.getElem?_eq_some_iff.1 hanswer).1 _
  sent held other hmem := by
    rcases List.mem_or_eq_of_mem_set hmem with hmem | heq
    · obtain ⟨write, hwrite, hheld⟩ := h.sent held other hmem
      refine ⟨write, ?_, hheld⟩
      rw [List.getElem?_append_left (List.getElem?_eq_some_iff.1 hwrite).1]
      exact hwrite
    · cases heq
      exact ⟨{ permit := own }, by simp, hown⟩

theorem Linked.suppress {answers : List (Permit × Response)} {writes : List Write}
    {index : Nat} {permit : Permit} (h : Linked answers writes)
    (hanswer : answers[index]? = some (permit, .unsent)) :
    Linked (answers.set index (permit, .suppressed)) writes where
  wrote other write held hwrite hheld := by
    obtain ⟨place, hplace⟩ := List.mem_iff_getElem?.1 (h.wrote other write held hwrite hheld)
    refine List.mem_iff_getElem?.2 ⟨place, ?_⟩
    rw [List.getElem?_set_ne, hplace]
    rintro rfl
    rw [hanswer] at hplace
    cases hplace
  sent held other hmem := by
    rcases List.mem_or_eq_of_mem_set hmem with hmem | heq
    · exact h.sent held other hmem
    · cases heq

theorem Linked.finish {answers : List (Permit × Response)} {writes : List Write}
    (h : Linked answers writes) (index : Nat) :
    Linked answers (writes.modify index fun write => { write with finished := true }) := by
  have hget : ∀ other : Nat,
      (writes.modify index fun write : Write => { write with finished := true })[other]?.map
        Write.permit = writes[other]?.map Write.permit := by
    intro other
    rw [← List.getElem?_map, ← List.getElem?_map, map_modify_of_kept]
    exact fun _ => rfl
  constructor
  · intro other write permit hwrite hpermit
    have hsame := hget other
    rw [hwrite, Option.map_some, hpermit] at hsame
    obtain ⟨before, hbefore, hheld⟩ := Option.map_eq_some_iff.1 hsame.symm
    exact h.wrote other before permit hbefore hheld
  · intro permit other hmem
    obtain ⟨write, hwrite, hpermit⟩ := h.sent permit other hmem
    have hsame := hget other
    rw [hwrite, Option.map_some] at hsame
    obtain ⟨after, hafter, hheld⟩ := Option.map_eq_some_iff.1 hsame
    exact ⟨after, hafter, by rw [hheld]; exact hpermit⟩

theorem writing_append (writes : List Write) (permit : Option Permit) :
    writing (writes ++ [({ permit } : Write)]) = writing writes ++ permit.toList := by
  unfold writing
  rw [List.filterMap_append]
  cases permit <;> rfl

/-- When a write ends, its permit is not in use any more. -/
theorem writing_finish {writes : List Write} {index : Nat} {write : Write}
    (hwrite : writes[index]? = some write) (hfinished : write.finished = false) :
    (writing writes).Perm (write.permit.toList ++
      writing (writes.modify index fun write => { write with finished := true })) := by
  induction writes generalizing index with
  | nil => cases hwrite
  | cons first writes ih =>
    cases index with
    | zero =>
      obtain rfl : first = write := Option.some.inj hwrite
      unfold writing
      rw [List.modify_zero_cons, List.filterMap_cons, List.filterMap_cons, hfinished]
      cases first.permit <;> exact .refl _
    | succ index =>
      have htail := ih hwrite
      unfold writing at htail ⊢
      rw [List.modify_succ_cons, List.filterMap_cons, List.filterMap_cons]
      split
      · exact htail
      · exact (htail.cons _).trans List.perm_middle.symm

namespace StdioSession

variable {session next : StdioSession ι β} {limit : Nat}

structure Permits (limit : Nat) (session : StdioSession ι β) : Prop where
  accounts : session.tracker.admission.Accounts limit
    (session.tracker.permits ++ (writing session.writes ++ session.phase.permits))
  pending : session.tracker.pending = if session.closed then [] else tracked session.dispatched
  ids : (outstanding session.dispatched ++ requestIds session.inbox).Nodup
  acquired : session.dispatched.map Dispatched.permit ++ session.phase.permits =
    List.range session.tracker.admission.acquired
  linked : Linked (answers session.dispatched) session.writes

theorem permits_init (limit : Nat) : Permits limit (init limit : StdioSession ι β) where
  accounts := accounts_new limit
  pending := rfl
  ids := .nil
  acquired := rfl
  linked := ⟨nofun, nofun⟩

theorem Permits.keys_nodup (h : Permits limit session) :
    (session.tracker.pending.map Prod.fst).Nodup := by
  rw [h.pending]
  split
  · exact .nil
  · exact h.ids.of_append_left.sublist (tracked_ids_sublist _)

theorem Permits.outstanding_nodup (h : Permits limit session) :
    (outstanding session.dispatched).Nodup := h.ids.of_append_left

/-- A step that only moves messages out of the inbox. -/
theorem Permits.frame (h : Permits limit session) (htracker : next.tracker = session.tracker)
    (hdispatched : next.dispatched = session.dispatched) (hwrites : next.writes = session.writes)
    (hclosed : next.closed = session.closed)
    (hphase : next.phase.permits = session.phase.permits)
    (hinbox : (requestIds next.inbox).Sublist (requestIds session.inbox)) :
    Permits limit next where
  accounts := by rw [htracker, hwrites, hphase]; exact h.accounts
  pending := by rw [htracker, hdispatched, hclosed]; exact h.pending
  ids := by
    rw [hdispatched]
    exact h.ids.sublist (hinbox.append_left _)
  acquired := by rw [htracker, hdispatched, hphase]; exact h.acquired
  linked := by rw [hdispatched, hwrites]; exact h.linked

theorem permits_eq_nil (hphase : session.phase = .admitting ∨ session.phase = .waiting) :
    session.phase.permits = [] := by
  rcases hphase with hphase | hphase
  · rw [hphase]
    rfl
  · rw [hphase]
    rfl

theorem Permits.acquire (h : Permits limit session)
    (hphase : session.phase = .admitting ∨ session.phase = .waiting)
    {permit : Permit} {admission : Semaphore}
    (hacquire : session.tracker.admission.tryAcquire = some (permit, admission)) :
    Permits limit
      { session with
        tracker := { session.tracker with admission }
        phase := .tracking permit } := by
  have hnone := permits_eq_nil hphase
  have haccounts := h.accounts
  have hacquired := h.acquired
  rw [hnone, List.append_nil] at haccounts hacquired
  refine ⟨?_, h.pending, h.ids, ?_, h.linked⟩
  · have hnext := haccounts.tryAcquire hacquire
    rw [List.append_assoc] at hnext
    exact hnext
  · unfold Semaphore.tryAcquire at hacquire
    split at hacquire <;> cases hacquire
    change _ ++ [_] = List.range (_ + 1)
    rw [List.range_succ, hacquired]

theorem Permits.close (h : Permits limit session) :
    Permits limit
      { session with tracker := session.tracker.clear, ended := true, closed := true } where
  accounts := h.accounts.releaseAll
  pending := rfl
  ids := h.ids
  acquired := h.acquired
  linked := h.linked

theorem Permits.sendOther (h : Permits limit session) :
    Permits limit { session with writes := session.writes ++ [{ permit := none }] } where
  accounts := by
    rw [writing_append, Option.toList_none, List.append_nil]
    exact h.accounts
  pending := h.pending
  ids := h.ids
  acquired := h.acquired
  linked := h.linked.push

theorem Permits.sent (h : Permits limit session) {index : Nat} {write : Write}
    (hwrite : session.writes[index]? = some write) (hfinished : write.finished = false) :
    Permits limit
      { session with
        tracker :=
          { session.tracker with
            admission := session.tracker.admission.releaseAll write.permit.toList }
        writes := session.writes.modify index fun write => { write with finished := true } } where
  accounts := by
    refine Accounts.releaseAll (h.accounts.perm ?_)
    have hperm := writing_finish hwrite hfinished
    refine ((hperm.append_right _).append_left _).trans ?_
    rw [List.append_assoc]
    exact List.perm_append_comm_assoc _ _ _
  pending := h.pending
  ids := h.ids
  acquired := h.acquired
  linked := h.linked.finish index

/-- One request changes but keeps its permit and its answer. -/
theorem Permits.modify (h : Permits limit session) {index : Nat} {f : Dispatched ι → Dispatched ι}
    {tracker : ResponseTracker ι}
    (hid : ∀ request, (f request).id = request.id)
    (hover : ∀ request, request.concluded = true → (f request).concluded = true)
    (hpermit : ∀ request, (f request).permit = request.permit)
    (haccounts : tracker.admission.Accounts limit
      (tracker.permits ++ (writing session.writes ++ session.phase.permits)))
    (hacquired : tracker.admission.acquired = session.tracker.admission.acquired)
    (hpending : tracker.pending =
      if session.closed then [] else tracked (session.dispatched.modify index f))
    (hlinked : Linked (answers (session.dispatched.modify index f)) session.writes) :
    Permits limit
      { session with tracker, dispatched := session.dispatched.modify index f } where
  accounts := haccounts
  pending := hpending
  ids := h.ids.sublist ((outstanding_modify_sublist hid hover _ _).append_right _)
  acquired := by
    rw [map_modify_of_kept _ _ hpermit, hacquired]
    exact h.acquired
  linked := hlinked

section Tracker

variable [DecidableEq ι]

/-- The tracker follows a change of the requests. -/
theorem Permits.pending_alter (h : Permits limit session) {id : ι}
    {f : TrackedRequest → Option TrackedRequest} {dispatched : List (Dispatched ι)}
    (htracked : tracked dispatched = Assoc.alter (tracked session.dispatched) id f) :
    Assoc.alter session.tracker.pending id f =
      if session.closed then [] else tracked dispatched := by
  rw [h.pending]
  split
  · rfl
  · exact htracked.symm

theorem Permits.markCancelled (h : Permits limit session) (message : Incoming ι β) :
    Permits limit (session.markCancelled message) := by
  unfold StdioSession.markCancelled
  split
  case h_1 => exact h
  case h_2 id hid =>
      have hkept : ∀ {γ : Type} (g : Dispatched ι → γ),
          (∀ request, g request.cancel = g request) →
          (session.dispatched.map fun request =>
            if request.id = id then request.cancel else request).map g =
              session.dispatched.map g := by
        intro γ g hg
        rw [List.map_map]
        refine List.map_congr_left fun request _ => ?_
        simp only [Function.comp_apply]
        split
        · exact hg request
        · rfl
      exact
        { accounts := ResponseTracker.mark_accounts h.keys_nodup (fun _ => rfl) h.accounts
          pending := (ResponseTracker.mark_pending h.keys_nodup).trans
            (h.pending_alter (tracked_cancel _ _))
          ids := by
            rw [outstanding_cancel]
            exact h.ids
          acquired := by
            rw [hkept Dispatched.permit fun _ => rfl]
            refine h.acquired.trans (congrArg List.range ?_)
            exact ResponseTracker.mark_acquired.symm
          linked := by
            unfold answers
            rw [hkept (fun request => (request.permit, request.response)) fun _ => rfl]
            exact h.linked }

theorem Permits.handlerDone (h : Permits limit session) {index : Nat}
    (hnext : session.handlerDone index = some next) : Permits limit next := by
  obtain ⟨request, hrequest, hnext⟩ := Option.bind_eq_some_iff.1 hnext
  split at hnext
  case isTrue => cases hnext
  case isFalse hdone =>
      cases hnext
      have hover : request.concluded = false := by simp [Dispatched.concluded, hdone]
      refine h.modify (fun _ => rfl) (fun _ => Dispatched.over_finish) (fun _ => rfl)
        (ResponseTracker.mark_accounts h.keys_nodup (fun _ => rfl) h.accounts)
        ResponseTracker.mark_acquired
        ((ResponseTracker.mark_pending h.keys_nodup).trans (h.pending_alter ?_)) ?_
      · refine tracked_modify h.outstanding_nodup hrequest hover ?_
        cases hresponse : request.response <;> cases hcancelled : request.cancelled <;>
          simp [Dispatched.toEntry, Dispatched.waiting, Dispatched.finish,
            ResponseTracker.marked, hresponse, hcancelled, hdone]
      · unfold answers
        rw [map_modify_of_kept]
        · exact h.linked
        · exact fun _ => rfl

theorem Permits.suppress (h : Permits limit session) {index : Nat}
    (hnext : session.suppress index = some next) : Permits limit next := by
  obtain ⟨request, hrequest, hnext⟩ := Option.bind_eq_some_iff.1 hnext
  split at hnext
  case isFalse => cases hnext
  case isTrue hquiet =>
      obtain ⟨hunsent, hcancelled⟩ := hquiet
      cases hnext
      have hsuppress : ∀ request : Dispatched ι, request.suppress.id = request.id ∧
          request.suppress.permit = request.permit ∧
          (request.concluded = true → request.suppress.concluded = true) := by
        intro request
        unfold Dispatched.suppress
        split
        · exact ⟨rfl, rfl, fun hover => by simp_all [Dispatched.concluded]⟩
        · exact ⟨rfl, rfl, id⟩
      have hnext : request.suppress.response = .suppressed := by
        simp [Dispatched.suppress, hcancelled]
      refine h.modify (fun r => (hsuppress r).1) (fun r => (hsuppress r).2.2)
        (fun r => (hsuppress r).2.1) h.accounts rfl ?_ ?_
      · have htracked := tracked_modify (f := Dispatched.suppress) (g := some)
          h.outstanding_nodup hrequest (by simp [Dispatched.concluded, hunsent]) (by
            simp [Dispatched.toEntry, Dispatched.waiting, Dispatched.suppress, hunsent, hcancelled]
            split <;> rfl)
        rw [h.pending, htracked, Assoc.alter_some]
      · unfold answers
        rw [map_modify_of_getElem? _ hrequest, hnext, (hsuppress request).2.1]
        refine h.linked.suppress ?_
        unfold answers
        rw [List.getElem?_map, hrequest, Option.map_some, hunsent]

theorem Permits.send (h : Permits limit session) {index : Nat} {item : Outgoing ι β}
    (hnext : session.send index item = some next) : Permits limit next := by
  obtain ⟨request, hrequest, hnext⟩ := Option.bind_eq_some_iff.1 hnext
  split at hnext
  case isFalse => cases hnext
  case isTrue hsend =>
      obtain ⟨hunsent, -⟩ := hsend
      cases hnext
      have hover : request.concluded = false := by simp [Dispatched.concluded, hunsent]
      have hanswer : (answers session.dispatched)[index]? = some (request.permit, .unsent) := by
        unfold answers
        rw [List.getElem?_map, hrequest, Option.map_some, hunsent]
      have hown : (session.tracker.takeForResponse request.id).1 = none ∨
          (session.tracker.takeForResponse request.id).1 = some request.permit := by
        unfold ResponseTracker.takeForResponse
        dsimp only
        rw [h.pending]
        split
        · exact .inl rfl
        · rw [lookup_tracked h.outstanding_nodup (List.mem_of_getElem? hrequest) hover]
          unfold Dispatched.toEntry
          split
          · exact .inr rfl
          · exact .inl rfl
      refine ⟨?_, ?_, ?_, ?_, ?_⟩
      · rw [writing_append]
        refine (ResponseTracker.takeForResponse_accounts h.keys_nodup h.accounts).perm ?_
        refine .append_left _ ?_
        rw [← List.append_assoc]
        exact List.perm_append_comm.append_right _
      · refine (Assoc.erase_eq_alter _ _).trans (h.pending_alter ?_)
        refine tracked_modify h.outstanding_nodup hrequest hover ?_
        cases request.toEntry <;> rfl
      · have hids := outstanding_modify_sublist (f := Dispatched.answer session.writes.length)
          (fun _ => rfl)
          (fun request hover => by simp_all [Dispatched.concluded, Dispatched.answer])
          session.dispatched index
        exact h.ids.sublist (hids.append_right _)
      · have hpermits := map_modify_of_kept (f := Dispatched.answer session.writes.length)
          (g := Dispatched.permit) session.dispatched index fun _ => rfl
        dsimp only
        rw [hpermits]
        exact h.acquired
      · unfold answers
        rw [map_modify_of_getElem? _ hrequest]
        exact h.linked.answer hanswer hown

/-- The request of the buffer is new to the tracker. -/
theorem Permits.track (h : Permits limit session) (hreceiving : session.Receiving)
    (hnext : session.track = some next) :
    ∃ permit id body, session.phase = .tracking permit ∧
      session.buffered = some (.request id body) ∧
      next = { session with
        tracker := (session.tracker.track id permit).2
        buffered := none
        dispatched := session.dispatched ++ [({ id, permit } : Dispatched ι)]
      }.deliver (.request id body) ∧
      (id, ⟨permit, false, false⟩) ∈ next.tracker.pending ∧ Permits limit next := by
  obtain ⟨permit, id, body, hphase, hbuffered, hnext⟩ := track_cases hnext
  have hinbox : requestIds session.inbox = id :: requestIds session.queue := by
    unfold inbox
    rw [hbuffered]
    rfl
  have hids := h.ids
  rw [hinbox] at hids
  have hopen : session.closed = false := by
    by_contra hclosed
    have hidle := hreceiving.ended (hreceiving.closed (Bool.not_eq_false _ ▸ hclosed))
    rw [hphase] at hidle
    cases hidle
  have hpending : session.tracker.pending = tracked session.dispatched := by
    rw [h.pending, hopen]
    rfl
  have hfresh : session.tracker.pending.lookup id = none := by
    rw [hpending, List.lookup_eq_none_iff]
    intro pair hpair
    have hmem := (tracked_ids_sublist _).subset (List.mem_map_of_mem hpair)
    have hne := (List.nodup_append.1 hids).2.2 pair.1 hmem id List.mem_cons_self
    simpa using Ne.symm hne
  have htrack := (@ResponseTracker.track_of_fresh _ _ _ _ permit) hfresh
  rcases hnext with ⟨tracker, hresult, rfl⟩ | ⟨tracker, hresult, rfl⟩
  · obtain rfl : _ = tracker := congrArg Prod.snd (htrack.symm.trans hresult)
    refine ⟨permit, id, body, hphase, hbuffered, by rw [htrack],
      List.mem_append_right _ (List.mem_singleton.2 rfl), ?_⟩
    have haccounts := h.accounts
    have hacquired := h.acquired
    rw [hphase] at haccounts hacquired
    refine ⟨?_, ?_, ?_, ?_, ?_⟩
    · refine haccounts.perm ?_
      unfold ResponseTracker.permits deliver
      rw [List.map_append, ← List.append_assoc, ReceivePhase.permits, ReceivePhase.permits,
        List.append_nil, List.append_assoc, List.append_assoc]
      exact .append_left _ List.perm_append_comm
    · change session.tracker.pending ++ _ = if session.closed then [] else _
      rw [hopen, hpending]
      change _ = tracked (session.dispatched ++ [_])
      unfold tracked
      rw [List.filterMap_append]
      rfl
    · have hnew : outstanding (session.dispatched ++ [({ id, permit } : Dispatched ι)]) =
          outstanding session.dispatched ++ [id] := by
        unfold outstanding
        rw [List.filter_append, List.map_append]
        rfl
      change (outstanding (session.dispatched ++ _) ++ requestIds session.queue).Nodup
      rw [hnew, List.append_assoc]
      exact hids
    · refine Eq.trans ?_ hacquired
      change (session.dispatched ++ [_]).map _ ++ [] = _
      rw [List.append_nil, List.map_append]
      rfl
    · have hanswers : answers (session.dispatched ++ [({ id, permit } : Dispatched ι)]) =
          answers session.dispatched ++ [(permit, .unsent)] := by
        unfold answers
        rw [List.map_append]
        rfl
      change Linked (answers (session.dispatched ++ _)) session.writes
      rw [hanswers]
      exact h.linked.unsent permit
  · exact absurd (congrArg Prod.fst (htrack.symm.trans hresult)) (by nofun)

theorem Permits.arrive (h : Permits limit session) {message : Incoming ι β}
    (hfresh : session.fresh message = true) (arrived : List (Incoming ι β)) :
    Permits limit { session with queue := session.queue ++ [message], arrived } := by
  refine ⟨h.accounts, h.pending, ?_, h.acquired, h.linked⟩
  have hinbox : requestIds (inbox { session with queue := session.queue ++ [message], arrived }) =
      requestIds session.inbox ++ message.requestId.toList := by
    unfold inbox requestIds
    rw [← List.append_assoc, List.filterMap_append]
    cases message <;> rfl
  rw [hinbox, ← List.append_assoc]
  cases message with
  | cancelled requestId note => simpa [Incoming.requestId] using h.ids
  | other note => simpa [Incoming.requestId] using h.ids
  | request id body =>
    simp only [fresh, Bool.and_eq_true, List.all_eq_true, Bool.or_eq_true, ne_eq,
      decide_not, Bool.not_eq_true', decide_eq_false_iff_not] at hfresh
    obtain ⟨hqueued, hdispatched⟩ := hfresh
    refine List.nodup_append.2 ⟨h.ids, List.nodup_singleton _, ?_⟩
    intro other hother same hsame
    obtain rfl : same = id := List.mem_singleton.1 hsame
    rintro rfl
    rcases List.mem_append.1 hother with hmem | hmem
    · obtain ⟨request, hrequest, hid⟩ := List.mem_map.1 hmem
      obtain ⟨hrequest, hover⟩ := List.mem_filter.1 hrequest
      rcases hdispatched request hrequest with hne | hyes
      · exact hne hid
      · rw [hyes] at hover
        cases hover
    · obtain ⟨queued, hmem, hid⟩ := List.mem_filterMap.1 hmem
      exact hqueued queued hmem hid

theorem step_permits {event : StdioEvent ι β} (h : Permits limit session)
    (hreceiving : session.Receiving) (hnext : session.step event = some next) :
    Permits limit next := by
  cases event with
  | arrive message =>
    obtain ⟨⟨-, hfresh⟩, hnext⟩ := Option.ite_none_right_eq_some.1 hnext
    cases hnext
    exact h.arrive hfresh _
  | disconnect =>
    cases hnext
    exact h.frame rfl rfl rfl rfl rfl (.refl _)
  | poll =>
    obtain ⟨⟨hphase, -⟩, hnext⟩ := Option.ite_none_right_eq_some.1 hnext
    cases hnext
    refine h.frame rfl rfl rfl rfl ?_ (.refl _)
    rw [hphase]
    dsimp only
    split <;> rfl
  | read =>
    obtain ⟨hphase, ⟨message, queue, hqueue, rfl⟩ | rfl⟩ := read_cases hnext
    · refine h.frame rfl rfl rfl rfl (by rw [hphase]; rfl) ?_
      unfold inbox
      rw [hqueue]
      exact List.Sublist.filterMap _ (List.sublist_append_right _ _)
    · refine h.frame rfl rfl rfl rfl (by rw [hphase]; rfl) ?_
      exact List.Sublist.filterMap _ (List.sublist_append_right _ _)
  | check =>
    obtain ⟨hphase, message, hbuffered, ⟨-, rfl⟩ | ⟨-, rfl⟩⟩ := check_cases hnext
    · exact h.frame rfl rfl rfl rfl (by rw [hphase]; rfl) (.refl _)
    · have hmarked := h.markCancelled message
      obtain ⟨tracker, dispatched, hmark⟩ := markCancelled_eq session message
      rw [hmark] at hmarked ⊢
      refine hmarked.frame rfl rfl rfl rfl (by dsimp only; rw [hphase]; rfl) ?_
      exact List.Sublist.filterMap _ (List.sublist_append_right _ _)
  | tryAcquire =>
    obtain ⟨hphase, rfl | ⟨permit, admission, hacquire, rfl⟩⟩ := acquire_cases (.inl hnext)
    · exact h.frame rfl rfl rfl rfl (permits_eq_nil hphase).symm (.refl _)
    · exact h.acquire hphase hacquire
  | acquire =>
    obtain ⟨hphase, rfl | ⟨permit, admission, hacquire, rfl⟩⟩ := acquire_cases (.inr hnext)
    · exact h.frame rfl rfl rfl rfl (permits_eq_nil hphase).symm (.refl _)
    · exact h.acquire hphase hacquire
  | track =>
    obtain ⟨_, _, _, -, -, -, -, hpermits⟩ := h.track hreceiving hnext
    exact hpermits
  | overtake =>
    obtain ⟨hphase, id, body, hbuffered, hcases⟩ := overtake_request hreceiving hnext
    have hnone : session.phase.permits = [] := by rw [hphase]; rfl
    obtain ⟨hqueue, rfl⟩ | ⟨other, otherBody, queue, hqueue, rfl⟩ |
      ⟨note, queue, hqueue, rfl⟩ | ⟨message, queue, hqueue, -, rfl⟩ := hcases
    · refine h.frame rfl rfl rfl rfl hnone.symm ?_
      exact List.Sublist.filterMap _ (List.sublist_append_right _ _)
    · refine h.frame rfl rfl rfl rfl hnone.symm (List.Sublist.filterMap _ ?_)
      unfold inbox
      rw [hqueue]
      exact (List.sublist_cons_self _ _).trans (List.sublist_append_right _ _)
    · have hread : Permits limit { session with queue } := by
        refine h.frame rfl rfl rfl rfl rfl (List.Sublist.filterMap _ ?_)
        unfold inbox
        rw [hqueue]
        exact (List.sublist_cons_self _ _).append_left _
      have hmarked := hread.markCancelled (.cancelled (some id) note)
      obtain ⟨tracker, dispatched, hmark⟩ :=
        markCancelled_eq { session with queue } (.cancelled (some id) note)
      rw [hmark] at hmarked ⊢
      refine hmarked.frame rfl rfl rfl rfl hnone.symm ?_
      exact List.Sublist.filterMap _ (List.sublist_append_right _ _)
    · have hread : Permits limit { session with queue } := by
        refine h.frame rfl rfl rfl rfl rfl (List.Sublist.filterMap _ ?_)
        unfold inbox
        rw [hqueue]
        exact (List.sublist_cons_self _ _).append_left _
      have hmarked := hread.markCancelled message
      obtain ⟨tracker, dispatched, hmark⟩ := markCancelled_eq { session with queue } message
      rw [hmark] at hmarked ⊢
      exact hmarked.frame rfl rfl rfl rfl hnone.symm (.refl _)
  | dropReceive =>
    change session.dropReceive = _ at hnext
    unfold dropReceive at hnext
    split at hnext
    case h_1 hphase =>
        cases hnext
        exact h.frame rfl rfl rfl rfl (by rw [hphase]; rfl) (.refl _)
    case h_2 hphase =>
        cases hnext
        exact h.frame rfl rfl rfl rfl (by rw [hphase]; rfl) (.refl _)
    all_goals cases hnext
  | handlerDone index => exact h.handlerDone hnext
  | send index item => exact h.send hnext
  | sendOther item =>
    obtain ⟨-, hnext⟩ := Option.ite_none_right_eq_some.1 hnext
    cases hnext
    exact h.sendOther
  | sent index =>
    obtain ⟨write, hwrite, hnext⟩ := Option.bind_eq_some_iff.1 hnext
    obtain ⟨hfinished, hnext⟩ := Option.ite_none_left_eq_some.1 hnext
    cases hnext
    exact h.sent hwrite (by simpa using hfinished)
  | suppress index => exact h.suppress hnext
  | close =>
    obtain ⟨-, hnext⟩ := Option.ite_none_right_eq_some.1 hnext
    cases hnext
    exact h.close

end Tracker

end StdioSession

end Fluxcope.Mcp
