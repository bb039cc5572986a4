import Fluxcope.Mcp.Stdio
/-!
# The response tracker against the SDK's view

The tracker holds the requests that are neither answered nor both cancelled and
handled, each with the permit it was admitted with.
-/

namespace Fluxcope.Mcp

open Fluxcope.Library Semaphore

variable {ι : Type}

/-! ## Permits in the tracker -/

namespace ResponseTracker

variable [DecidableEq ι] {tracker : ResponseTracker ι} {requestId : ι} {limit : Nat} {rest : List Permit}

def permits (tracker : ResponseTracker ι) : List Permit :=
  tracker.pending.map fun entry => entry.2.permit

section Mark

variable {update : TrackedRequest → TrackedRequest} {concluded : TrackedRequest → Bool}

/-- What marking does to the entry of the request. -/
def marked (update : TrackedRequest → TrackedRequest) (concluded : TrackedRequest → Bool)
    (tracked : TrackedRequest) : Option TrackedRequest :=
  if concluded (update tracked) then none else some (update tracked)

theorem mark_pending (hnodup : (tracker.pending.map Prod.fst).Nodup) :
    (tracker.mark update concluded requestId).pending =
      Assoc.alter tracker.pending requestId (marked update concluded) := by
  unfold mark
  split
  case h_1 hlookup => exact (Assoc.alter_of_lookup_none _ hlookup).symm
  case h_2 tracked hlookup =>
      split
      case isTrue hover =>
          refine (Assoc.erase_eq_alter _ _).trans (Assoc.alter_congr hnodup fun value hvalue => ?_)
          obtain rfl : tracked = value := Option.some.inj (hlookup.symm.trans hvalue)
          exact (if_pos hover).symm
      case isFalse hover =>
          refine (Assoc.modify_eq_alter _ _ _).trans (Assoc.alter_congr hnodup fun value hvalue => ?_)
          obtain rfl : tracked = value := Option.some.inj (hlookup.symm.trans hvalue)
          exact (if_neg hover).symm

theorem mark_acquired :
    (tracker.mark update concluded requestId).admission.acquired = tracker.admission.acquired := by
  unfold mark
  split
  · rfl
  · split <;> rfl

theorem mark_accounts (hnodup : (tracker.pending.map Prod.fst).Nodup)
    (hpermit : ∀ tracked, (update tracked).permit = tracked.permit)
    (h : tracker.admission.Accounts limit (tracker.permits ++ rest)) :
    (tracker.mark update concluded requestId).admission.Accounts limit
      ((tracker.mark update concluded requestId).permits ++ rest) := by
  cases hlookup : tracker.pending.lookup requestId with
  | none =>
    have hsame : tracker.mark update concluded requestId = tracker := by
      unfold mark
      rw [hlookup]
    rw [hsame]
    exact h
  | some tracked =>
    obtain ⟨before, after, hpending, halter⟩ :=
      Assoc.alter_eq hnodup hlookup (marked update concluded)
    have hperm : tracker.permits.Perm (tracked.permit ::
        ((before ++ after).map fun entry => entry.2.permit)) := by
      unfold permits
      rw [hpending]
      exact List.perm_middle.map _
    have haccounts := h.perm (hperm.append_right rest)
    rw [permits, mark_pending hnodup, halter]
    unfold mark
    rw [hlookup]
    dsimp only [marked]
    split
    · refine (haccounts.release).perm (.append_right _ ?_)
      simp
    · refine haccounts.perm (.append_right _ ?_)
      rw [Option.map_some, Option.toList_some, List.append_assoc, List.singleton_append]
      refine List.Perm.trans ?_ (List.perm_middle.map _).symm
      rw [List.map_cons, hpermit]

end Mark

theorem takeForResponse_accounts (hnodup : (tracker.pending.map Prod.fst).Nodup)
    (h : tracker.admission.Accounts limit (tracker.permits ++ rest)) :
    (tracker.takeForResponse requestId).2.admission.Accounts limit
      ((tracker.takeForResponse requestId).2.permits ++
        ((tracker.takeForResponse requestId).1.toList ++ rest)) := by
  unfold takeForResponse permits
  dsimp only
  rw [Assoc.erase_eq_alter]
  cases hlookup : tracker.pending.lookup requestId with
  | none =>
    rw [Assoc.alter_of_lookup_none _ hlookup]
    exact h
  | some tracked =>
    obtain ⟨before, after, hpending, halter⟩ := Assoc.alter_eq hnodup hlookup fun _ => none
    refine h.perm ?_
    rw [halter, permits, hpending, Option.map_some, Option.toList_some, Option.map_none,
      Option.toList_none, List.append_nil]
    rw [← List.append_assoc]
    refine .append_right _ ((List.perm_middle.map _).trans ?_)
    rw [List.map_cons]
    exact (List.perm_append_singleton _ _).symm

theorem track_of_fresh {permit : Permit} (h : tracker.pending.lookup requestId = none) :
    tracker.track requestId permit =
      (true,
        { tracker with
          pending := tracker.pending ++
            [(requestId, { permit, cancelled := false, handlerDone := false })] }) := by
  unfold track
  rw [h]
  rfl

end ResponseTracker

/-! ## Requests that the tracker holds -/

namespace Dispatched

variable {request : Dispatched ι}

/-- Neither answered nor both cancelled and handled. -/
def waiting (request : Dispatched ι) : Bool :=
  (match request.response with
    | .sent _ => false
    | .unsent | .suppressed => true) && !(request.cancelled && request.handlerDone)

/-- The tracker's entry for the request. -/
def toEntry (request : Dispatched ι) : Option (ι × TrackedRequest) :=
  if request.waiting then
    some (request.id, ⟨request.permit, request.cancelled, request.handlerDone⟩)
  else none

theorem toEntry_eq_none (h : request.waiting = false) : request.toEntry = none := by
  simp [toEntry, h]

theorem not_over_of_waiting (h : request.waiting = true) : request.concluded = false := by
  have hquiet := request.suppressed_cancelled
  unfold waiting at h
  unfold concluded
  cases hresponse : request.response with
  | unsent => simp
  | sent write => simp [hresponse] at h
  | suppressed => simp_all

theorem over_finish (h : request.concluded = true) : request.finish.concluded = true := by
  unfold concluded finish at *
  simp_all

end Dispatched

variable {requests : List (Dispatched ι)}

/-- What the tracker holds. -/
def tracked (requests : List (Dispatched ι)) : List (ι × TrackedRequest) :=
  requests.filterMap Dispatched.toEntry

/-- The ids that a client may not use again yet. -/
def outstanding (requests : List (Dispatched ι)) : List ι :=
  (requests.filter fun request => !request.concluded).map Dispatched.id

theorem mem_tracked {pair : ι × TrackedRequest} :
    pair ∈ tracked requests ↔
      ∃ request ∈ requests, request.waiting = true ∧
        pair = (request.id, ⟨request.permit, request.cancelled, request.handlerDone⟩) := by
  unfold tracked Dispatched.toEntry
  simp only [List.mem_filterMap, Option.ite_none_right_eq_some, Option.some.injEq]
  exact exists_congr fun request =>
    and_congr_right fun _ => and_congr_right fun _ => eq_comm

theorem tracked_ids_sublist (requests : List (Dispatched ι)) :
    ((tracked requests).map Prod.fst).Sublist (outstanding requests) := by
  induction requests with
  | nil => exact .slnil
  | cons request requests ih =>
    unfold tracked outstanding at ih ⊢
    rw [List.filterMap_cons, List.filter_cons]
    cases hwaiting : request.waiting with
    | true =>
      rw [Dispatched.not_over_of_waiting hwaiting]
      simpa [Dispatched.toEntry, hwaiting] using ih
    | false =>
      simp only [Dispatched.toEntry_eq_none hwaiting]
      split
      · exact ih.trans (List.sublist_cons_self _ _)
      · exact ih

section Update

variable [DecidableEq ι]

theorem tracked_cancel (requests : List (Dispatched ι)) (id : ι) :
    tracked (requests.map fun request => if request.id = id then request.cancel else request) =
      Assoc.alter (tracked requests) id
        (ResponseTracker.marked (fun tracked => { tracked with cancelled := true })
          fun tracked => tracked.handlerDone) := by
  unfold tracked Assoc.alter
  rw [List.filterMap_map, List.filterMap_filterMap]
  refine List.filterMap_congr fun request _ => ?_
  by_cases hid : request.id = id
  · cases hresponse : request.response <;> cases hcancelled : request.cancelled <;>
      cases hdone : request.handlerDone <;>
      simp [Dispatched.toEntry, Dispatched.waiting, Dispatched.cancel, ResponseTracker.marked,
        hid, hresponse, hcancelled, hdone]
  · by_cases hwaiting : request.waiting = true <;> simp [Dispatched.toEntry, hid, hwaiting]

/-- One request changes, and the entry under its id follows. -/
theorem tracked_modify {index : Nat} {request : Dispatched ι} {f : Dispatched ι → Dispatched ι}
    {g : TrackedRequest → Option TrackedRequest} (hnodup : (outstanding requests).Nodup)
    (hrequest : requests[index]? = some request) (hover : request.concluded = false)
    (hentry : (f request).toEntry = request.toEntry.bind fun pair =>
      (g pair.2).map fun next => (request.id, next)) :
    tracked (requests.modify index f) = Assoc.alter (tracked requests) request.id g := by
  obtain ⟨hindex, hget⟩ := List.getElem?_eq_some_iff.1 hrequest
  have hsplit : requests = requests.take index ++ request :: requests.drop (index + 1) := by
    rw [← hget, List.getElem_cons_drop, List.take_append_drop]
  have hmodify : requests.modify index f =
      requests.take index ++ f request :: requests.drop (index + 1) := by
    rw [List.modify_eq_take_cons_drop hindex, hget]
  rw [hmodify]
  rw [hsplit] at hnodup
  conv => rhs; rw [hsplit]
  generalize requests.take index = before at hnodup ⊢
  generalize requests.drop (index + 1) = after at hnodup ⊢
  -- No other request that may still have an entry has this id.
  have hother : ∀ other ∈ before ++ after, other.id = request.id → other.toEntry = none := by
    intro other hmem hid
    apply Dispatched.toEntry_eq_none
    by_contra hwaiting
    have hothers := Dispatched.not_over_of_waiting (Bool.not_eq_false _ ▸ hwaiting)
    unfold outstanding at hnodup
    rw [((List.perm_middle.filter _).map _).nodup_iff, List.filter_cons, hover] at hnodup
    refine (List.nodup_cons.1 hnodup).1 (hid ▸ List.mem_map_of_mem ?_)
    exact List.mem_filter.2 ⟨hmem, by simp [hothers]⟩
  have hsame : ∀ others : List (Dispatched ι), (∀ other ∈ others, other ∈ before ++ after) →
      Assoc.alter (tracked others) request.id g = tracked others := by
    intro others hsub
    refine Assoc.alter_of_lookup_none g (List.lookup_eq_none_iff.2 fun pair hpair => ?_)
    obtain ⟨other, hmem, hpair⟩ := List.mem_filterMap.1 hpair
    have hne : other.id ≠ request.id := fun hid => by
      rw [hother other (hsub other hmem) hid] at hpair
      cases hpair
    have hpairId : pair.1 = other.id := by
      unfold Dispatched.toEntry at hpair
      split at hpair
      · cases hpair
        rfl
      · cases hpair
    simpa [hpairId] using Ne.symm hne
  have halter : ∀ l₁ l₂ : List (ι × TrackedRequest),
      Assoc.alter (l₁ ++ l₂) request.id g =
        Assoc.alter l₁ request.id g ++ Assoc.alter l₂ request.id g := by
    intro l₁ l₂
    unfold Assoc.alter
    exact List.filterMap_append
  have happend : ∀ l₁ l₂ : List (Dispatched ι), tracked (l₁ ++ l₂) = tracked l₁ ++ tracked l₂ :=
    fun l₁ l₂ => List.filterMap_append
  have hcons : ∀ (other : Dispatched ι) (l : List (Dispatched ι)),
      tracked (other :: l) = other.toEntry.toList ++ tracked l := by
    intro other l
    unfold tracked
    rw [List.filterMap_cons]
    cases other.toEntry <;> rfl
  rw [happend, happend, hcons, hcons, halter, halter,
    hsame before fun other h => List.mem_append_left _ h,
    hsame after fun other h => List.mem_append_right _ h, hentry]
  cases hheld : request.toEntry with
  | none => rfl
  | some pair =>
    have hid : pair.1 = request.id := by
      unfold Dispatched.toEntry at hheld
      split at hheld
      · cases hheld
        rfl
      · cases hheld
    simp only [Option.bind_some, Option.toList_some, Assoc.alter, List.filterMap_cons, hid,
      if_true, List.filterMap_nil]
    cases g pair.2 <;> rfl

/-- The tracker knows a request by its id. -/
theorem lookup_tracked {request : Dispatched ι} (hnodup : (outstanding requests).Nodup)
    (hrequest : request ∈ requests) (hover : request.concluded = false) :
    (tracked requests).lookup request.id = request.toEntry.map Prod.snd := by
  have hkeys := hnodup.sublist (tracked_ids_sublist requests)
  cases hheld : request.toEntry with
  | some pair =>
    have hid : pair.1 = request.id := by
      unfold Dispatched.toEntry at hheld
      split at hheld
      · cases hheld
        rfl
      · cases hheld
    rw [Option.map_some, Assoc.lookup_eq_some_iff hkeys, ← hid]
    exact List.mem_filterMap.2 ⟨request, hrequest, hheld⟩
  | none =>
    rw [Option.map_none, List.lookup_eq_none_iff]
    intro pair hpair
    obtain ⟨other, hother, hwaiting, rfl⟩ := mem_tracked.1 hpair
    have hne : other.id ≠ request.id := by
      intro hid
      have hmem : ∀ entry ∈ requests, entry.concluded = false →
          entry ∈ requests.filter fun request => !request.concluded :=
        fun entry hentry hover => List.mem_filter.2 ⟨hentry, by simp [hover]⟩
      have hsame := List.inj_on_of_nodup_map hnodup
        (hmem other hother (Dispatched.not_over_of_waiting hwaiting)) (hmem request hrequest hover)
        hid
      subst hsame
      simp [Dispatched.toEntry, hwaiting] at hheld
    simpa using Ne.symm hne

theorem outstanding_cancel (requests : List (Dispatched ι)) (id : ι) :
    outstanding (requests.map fun request => if request.id = id then request.cancel else request) =
      outstanding requests := by
  unfold outstanding
  rw [List.filter_map, List.map_map]
  have hover : (fun request : Dispatched ι => !request.concluded) ∘
      (fun request => if request.id = id then request.cancel else request) =
        fun request => !request.concluded := by
    funext request
    simp only [Function.comp_apply]
    split <;> rfl
  rw [hover]
  refine List.map_congr_left fun request _ => ?_
  simp only [Function.comp_apply]
  split <;> rfl

end Update

theorem outstanding_modify_sublist {f : Dispatched ι → Dispatched ι}
    (hid : ∀ request, (f request).id = request.id)
    (hover : ∀ request, request.concluded = true → (f request).concluded = true)
    (requests : List (Dispatched ι)) (index : Nat) :
    (outstanding (requests.modify index f)).Sublist (outstanding requests) := by
  induction requests generalizing index with
  | nil => simp
  | cons request requests ih =>
    cases index with
    | zero =>
      unfold outstanding
      rw [List.modify_zero_cons, List.filter_cons, List.filter_cons]
      cases hrequest : request.concluded with
      | true =>
        rw [hover request hrequest]
        exact .refl _
      | false =>
        cases hnext : (f request).concluded with
        | true => exact List.sublist_cons_self _ _
        | false =>
          simp [hid]
    | succ index =>
      have htail := ih index
      unfold outstanding at htail ⊢
      rw [List.modify_succ_cons, List.filter_cons, List.filter_cons]
      split
      · exact htail.cons_cons _
      · exact htail

end Fluxcope.Mcp
