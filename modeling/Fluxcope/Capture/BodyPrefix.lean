import Mathlib.Data.List.Induction
import Fluxcope.Capture.Revision
/-!
# Bodies retain a prefix of what they were given

The fragments of a side arrive one by one and are stored in chunks, as far as
the limit of the side and the shared budget go.  What is stored is always the
beginning of what arrived, and where the budget suffices it does not show how
the bytes were cut into fragments.
-/

namespace Fluxcope.Capture

open Fluxcope.Library Fluxcope.Library.Utf8

/-! ## Budgets that suffice -/

theorem chargeWithNodes_of_enough {requested trailingLen available : Nat}
    (htrailing : trailingLen < bodyChunkBytes) (havailable : available ≤ wordMax)
    (henough : requested + bodyChunkNodeOverhead * ((trailingLen + requested) / bodyChunkBytes) ≤
      available) :
    ∃ charged, chargeWithNodes requested trailingLen available
      ((trailingLen + requested) / bodyChunkBytes) = some (requested, charged) := by
  have hlow := Nat.div_mul_le_self (trailingLen + requested) bodyChunkBytes
  have hhigh := Nat.lt_div_mul_add bodyChunkBytes_pos (a := trailingLen + requested)
  generalize (trailingLen + requested) / bodyChunkBytes = nodes at henough hlow hhigh ⊢
  have hchunk : bodyChunkBytes = 65536 := rfl
  have hnode : bodyChunkNodeOverhead = 64 := rfl
  have hword : wordMax = 18446744073709551615 := rfl
  rw [hchunk] at htrailing hlow hhigh
  rw [hnode] at henough
  rw [hword] at havailable
  have hoverhead : satMul nodes 64 = nodes * 64 := satMul_eq (by omega)
  have hlower : satMul nodes 65536 - trailingLen ≤ requested :=
    Nat.sub_le_of_le_add ((satMul_le _ _).trans (by omega))
  have hnext : trailingLen + requested + 1 ≤ satMul (satAdd nodes 1) 65536 := by
    rw [satAdd_eq (by rw [hword]; omega)]
    exact le_min (by omega) (by rw [hword]; omega)
  have hupper : requested ≤ satMul (satAdd nodes 1) 65536 - trailingLen - 1 := by omega
  have hretained : min (min requested (available - nodes * 64))
      (satMul (satAdd nodes 1) 65536 - trailingLen - 1) = requested := by omega
  unfold chargeWithNodes
  rw [hchunk, hnode, hoverhead]
  dsimp only
  rw [if_neg (by omega), hretained, if_pos hlower]
  exact ⟨_, rfl⟩

/-- All that is requested is kept when the budget has room for it and for the
chunks it fills. -/
theorem bodyPrefixCharge_of_enough {requested trailingLen available : Nat}
    (htrailing : trailingLen < bodyChunkBytes) (havailable : available ≤ wordMax)
    (henough : requested + bodyChunkNodeOverhead * ((trailingLen + requested) / bodyChunkBytes) ≤
      available) :
    (bodyPrefixCharge requested trailingLen available).1 = requested := by
  obtain ⟨charged, hcharge⟩ := chargeWithNodes_of_enough htrailing havailable henough
  have hnodes : satAdd trailingLen (min requested available) / bodyChunkBytes =
      (trailingLen + requested) / bodyChunkBytes := by
    rw [satAdd_eq ?_, Nat.min_eq_left (by omega)]
    have hhigh := Nat.lt_div_mul_add bodyChunkBytes_pos (a := trailingLen + requested)
    generalize (trailingLen + requested) / bodyChunkBytes = nodes at henough hhigh
    have hchunk : bodyChunkBytes = 65536 := rfl
    have hnode : bodyChunkNodeOverhead = 64 := rfl
    have hword : wordMax = 18446744073709551615 := rfl
    rw [hchunk] at htrailing hhigh
    rw [hnode] at henough
    rw [hword] at havailable ⊢
    omega
  unfold bodyPrefixCharge
  dsimp only
  rw [hnodes]
  generalize (trailingLen + requested) / bodyChunkBytes = nodes at hcharge ⊢
  cases nodes with
  | zero => rw [searchNodes, hcharge]; rfl
  | succ nodes => rw [searchNodes, hcharge]

namespace BodyCapture

/-! ## The chunks of a prefix -/

/-- Sealed chunks never change, new ones are linked to them. -/
theorem appendLoop_suffix {fuel : Nat} {body : BodyCapture} {bytes : Bytes} {tail : List Bytes}
    (h : tail <:+ body.canonicalTail) : tail <:+ (appendLoop fuel body bytes).canonicalTail := by
  induction fuel generalizing body bytes with
  | zero => exact h
  | succ fuel ih =>
    unfold appendLoop
    split
    · exact h
    · dsimp only
      split
      · apply ih
        exact h.trans (List.suffix_cons _ _)
      · apply ih
        exact h

/-- Full chunks and a trailing block that is not full are determined by their bytes. -/
theorem chunks_unique {chunks chunks' : List Bytes} {trailing trailing' : Bytes}
    (hchunks : ∀ chunk ∈ chunks, chunk.length = bodyChunkBytes)
    (hchunks' : ∀ chunk ∈ chunks', chunk.length = bodyChunkBytes)
    (htrailing : trailing.length < bodyChunkBytes) (htrailing' : trailing'.length < bodyChunkBytes)
    (h : chunks.flatten ++ trailing = chunks'.flatten ++ trailing') :
    chunks = chunks' ∧ trailing = trailing' := by
  induction chunks generalizing chunks' with
  | nil =>
    cases chunks' with
    | nil => exact ⟨rfl, h⟩
    | cons chunk rest =>
      have hlength := congrArg List.length h
      have hchunk := hchunks' chunk List.mem_cons_self
      simp only [List.flatten_nil, List.nil_append, List.flatten_cons, List.length_append]
        at hlength
      omega
  | cons chunk rest ih =>
    have hchunk := hchunks chunk List.mem_cons_self
    cases chunks' with
    | nil =>
      have hlength := congrArg List.length h
      simp only [List.flatten_nil, List.nil_append, List.flatten_cons, List.length_append]
        at hlength
      omega
    | cons chunk' rest' =>
      have hchunk' := hchunks' chunk' List.mem_cons_self
      rw [List.flatten_cons, List.flatten_cons, List.append_assoc, List.append_assoc] at h
      obtain ⟨rfl, hrest⟩ := List.append_inj h (hchunk.trans hchunk'.symm)
      obtain ⟨rfl, htail⟩ := ih (fun c hc => hchunks c (List.mem_cons_of_mem _ hc))
        (fun c hc => hchunks' c (List.mem_cons_of_mem _ hc)) hrest
      exact ⟨rfl, htail⟩

/-- The preview of bytes that were appended at once. -/
def canonicalPreview (bytes : Bytes) : CapturedBodyPreview :=
  let body := ({} : BodyCapture).append bytes
  { canonicalTail := body.canonicalTail, trailing := body.trailing, len := bytes.length }

/-- What a body shows of the fragments it was given. -/
structure HoldsPrefix (limit : Nat) (body : BodyCapture) (fragments : Bytes) : Prop where
  flatten : body.preview.flatten = fragments.take body.status.retainedBytes
  retained_le : body.status.retainedBytes ≤ fragments.length
  within : body.status.retainedBytes ≤ limit
  observed : body.status.observedBytes = min fragments.length wordMax
  limited : body.status.previewLimit.isSome = true ↔
    body.status.retainedBytes < fragments.length

/-- The same with the shape of the chunks, which the next fragments rely on. -/
structure Prefixed (limit : Nat) (body : BodyCapture) (fragments : Bytes) : Prop
    extends Faithful body, HoldsPrefix limit body fragments where
  preview_trailing_lt : body.preview.trailing.length < bodyChunkBytes

/-- Nothing but the limit of the side cut the fragments short. -/
structure Uncut (limit : Nat) (body : BodyCapture) (fragments : Bytes) : Prop where
  retained : body.status.retainedBytes = min fragments.length limit
  previewLimit : body.status.previewLimit =
    if limit < fragments.length then some .perBodyLimit else none

theorem prefixed_new (limit : Nat) : Prefixed limit {} [] where
  toFaithful := faithful_new
  flatten := rfl
  retained_le := Nat.le_refl 0
  within := Nat.zero_le limit
  observed := rfl
  limited := by simp
  preview_trailing_lt := bodyChunkBytes_pos

theorem Prefixed.preview_eq {limit : Nat} {body : BodyCapture} {fragments : Bytes}
    (h : Prefixed limit body fragments) :
    body.preview = canonicalPreview (fragments.take body.status.retainedBytes) := by
  have happend := @append_spec {} chunked_new (fragments.take body.status.retainedBytes)
  have hflatten := h.flatten
  rw [CapturedBodyPreview.flatten_eq] at hflatten
  have hcontent := happend.content
  unfold content at hcontent
  obtain ⟨hchunks, htrailing⟩ := chunks_unique
    (fun c hc => h.chunk_length c (List.mem_reverse.1 hc))
    (fun c hc => happend.chunked.chunk_length c (List.mem_reverse.1 hc))
    h.preview_trailing_lt happend.chunked.trailing_lt (hflatten.trans hcontent.symm)
  have hlen : body.status.retainedBytes = (fragments.take body.status.retainedBytes).length := by
    rw [List.length_take, Nat.min_eq_left h.retained_le]
  have hpreview : body.preview =
      { canonicalTail := body.canonicalTail, trailing := body.preview.trailing
        len := body.status.retainedBytes } := rfl
  rw [hpreview, htrailing, List.reverse_injective hchunks]
  unfold canonicalPreview
  dsimp only
  rw [← hlen]

end BodyCapture

/-! ## What a step does to an open body -/

/-- What one operation does to a body and which fragment it brings, for a side
with the given limit and so many bytes left in the budget. -/
inductive BodyMoves (limit available : Nat) (body : BodyCapture) : Bytes → BodyCapture → Prop
  | same : BodyMoves limit available body [] body
  | respond : BodyMoves limit available body []
      { body with status := { body.status with stream := .streaming } }
  | append (bytes : Bytes) (available_le : available ≤ wordMax) :
      BodyMoves limit available body bytes (RecordScope.appended body bytes limit available)
  | finish (terminal : BodyTerminal) :
      BodyMoves limit available body [] (RecordScope.ended body terminal)

namespace BodyCapture

open RecordScope

variable {limit available : Nat} {body : BodyCapture} {fragments : Bytes}

theorem preview_ended (hsealed : body.sealedTrailing = none) (terminal : BodyTerminal) :
    (ended body terminal).preview.canonicalTail = body.preview.canonicalTail ∧
      (ended body terminal).preview.trailing = body.preview.trailing := by
  unfold ended BodyCapture.seal preview
  split
  case isTrue => exact ⟨rfl, rfl⟩
  case isFalse => exact ⟨rfl, by rw [hsealed]; rfl⟩

theorem status_terminate (status : BodyStatus) (terminal : BodyTerminal) :
    (terminate status terminal).stream.isTerminal = true ∧
      (terminate status terminal).observedBytes = status.observedBytes ∧
      (terminate status terminal).retainedBytes = status.retainedBytes ∧
      (terminate status terminal).previewLimit = status.previewLimit := by
  cases terminal <;> exact ⟨rfl, rfl, rfl, rfl⟩

/-- How many bytes an append keeps. -/
def keptBytes (limit available : Nat) (body : BodyCapture) (bytes : Bytes) : Nat :=
  (bodyPrefixCharge (requestedBytes body bytes limit) body.trailing.length available).1

theorem appended_eq (bytes : Bytes) :
    appended body bytes limit available = keep body bytes (keptBytes limit available body bytes)
      (limitAfter body bytes limit (keptBytes limit available body bytes)) := rfl

theorem keptBytes_le (htrailing : body.trailing.length < bodyChunkBytes)
    (havailable : available ≤ wordMax) (bytes : Bytes) :
    keptBytes limit available body bytes ≤ requestedBytes body bytes limit :=
  (bodyPrefixCharge_spec htrailing havailable).1

theorem requestedBytes_of_limited (h : body.status.previewLimit.isSome = true) (bytes : Bytes) :
    requestedBytes body bytes limit = 0 := if_pos h

theorem requestedBytes_of_open (h : body.status.previewLimit = none) (bytes : Bytes) :
    requestedBytes body bytes limit = min bytes.length (limit - body.status.retainedBytes) := by
  unfold requestedBytes
  rw [h]
  rfl

theorem requestedBytes_le (bytes : Bytes) : requestedBytes body bytes limit ≤ bytes.length := by
  unfold requestedBytes
  split
  · exact Nat.zero_le _
  · exact Nat.min_le_left _ _

/-- The beginning of what arrived is longer by what is kept, if all before was. -/
theorem Prefixed.append (h : Prefixed limit body fragments)
    (hopen : body.status.stream.isTerminal = false) (havailable : available ≤ wordMax)
    (bytes : Bytes) : Prefixed limit (appended body bytes limit available) (fragments ++ bytes) := by
  have hkept := @keptBytes_le limit available body h.trailing_lt havailable bytes
  have hrequested := @requestedBytes_le limit body bytes
  have hle := hkept.trans hrequested
  have hretained := h.retained_le
  have hwithin := h.within
  have hunsealed := h.open_unsealed hopen
  rw [appended_eq]
  generalize hlimit : limitAfter body bytes limit (keptBytes limit available body bytes) = previewLimit
  have hstate := appended_keep h.toChunked bytes (keptBytes limit available body bytes) previewLimit
  have hfaithful := faithful_keep h.toFaithful hle previewLimit hopen
  have hsealed : (keep body bytes (keptBytes limit available body bytes) previewLimit).sealedTrailing =
      none := hstate.sealedTrailing.trans hunsealed
  have hflatten : (keep body bytes (keptBytes limit available body bytes) previewLimit).preview.flatten =
      body.preview.flatten ++ bytes.take (keptBytes limit available body bytes) := by
    rw [flatten_preview_of_unsealed hsealed, flatten_preview_of_unsealed hunsealed]
    exact hstate.content
  have hstatus : (keep body bytes (keptBytes limit available body bytes) previewLimit).status.retainedBytes =
      body.status.retainedBytes + keptBytes limit available body bytes := rfl
  refine ⟨hfaithful, ⟨?_, ?_, ?_, ?_, ?_⟩, ?_⟩
  · rw [hflatten, hstatus, h.flatten]
    cases hprevious : body.status.previewLimit with
    | some previous =>
      rw [requestedBytes_of_limited (by rw [hprevious]; rfl)] at hkept
      rw [Nat.le_zero.1 hkept, List.take_zero, List.append_nil, Nat.add_zero,
        List.take_append_of_le_length hretained]
    | none =>
      have hall : body.status.retainedBytes = fragments.length := by
        have hlimited := h.limited
        rw [hprevious] at hlimited
        simp at hlimited
        omega
      rw [hall, List.take_length, List.take_append, List.take_of_length_le (Nat.le_add_right _ _),
        Nat.add_sub_cancel_left]
  · rw [hstatus, List.length_append]
    omega
  · rw [hstatus]
    cases hprevious : body.status.previewLimit with
    | some previous =>
      rw [requestedBytes_of_limited (by rw [hprevious]; rfl)] at hkept
      omega
    | none =>
      rw [requestedBytes_of_open hprevious] at hkept
      omega
  · show satAdd body.status.observedBytes bytes.length = _
    rw [h.observed, List.length_append]
    unfold satAdd
    omega
  · rw [hstatus, List.length_append]
    show previewLimit.isSome = true ↔ _
    rw [← hlimit]
    unfold limitAfter
    have hlimited := h.limited
    cases hprevious : body.status.previewLimit with
    | some previous =>
      rw [hprevious] at hlimited
      have hless := hlimited.1 rfl
      rw [requestedBytes_of_limited (by rw [hprevious]; rfl)] at hkept
      simp only [Option.some_or, Option.isSome_some, true_iff]
      omega
    | none =>
      rw [hprevious] at hlimited
      simp only [Option.isSome_none, Bool.false_eq_true, false_iff] at hlimited
      rw [Option.none_or]
      split
      · simp only [Option.isSome_some, true_iff]
        omega
      split
      · simp only [Option.isSome_some, true_iff]
        omega
      · simp only [Option.isSome_none, Bool.false_eq_true, false_iff]
        omega
  · have hpreview : (keep body bytes (keptBytes limit available body bytes)
        previewLimit).preview.trailing =
        (keep body bytes (keptBytes limit available body bytes) previewLimit).trailing := by
      unfold preview
      rw [hsealed]
      rfl
    rw [hpreview]
    exact hfaithful.trailing_lt

/-- One operation on an open side. -/
theorem Prefixed.moves (h : Prefixed limit body fragments)
    (hopen : body.status.stream.isTerminal = false) {bytes : Bytes} {body' : BodyCapture}
    (hmoves : BodyMoves limit available body bytes body') :
    Prefixed limit body' (fragments ++ bytes) := by
  cases hmoves with
  | same => rwa [List.append_nil]
  | respond =>
    rw [List.append_nil]
    exact ⟨⟨⟨h.trailing_lt, h.chunk_length⟩, h.retained, fun _ => h.open_unsealed hopen,
      h.sealed_empty⟩, ⟨h.flatten, h.retained_le, h.within, h.observed, h.limited⟩,
      h.preview_trailing_lt⟩
  | append bytes havailable => exact h.append hopen havailable bytes
  | finish terminal =>
    rw [List.append_nil]
    obtain ⟨hstream, hobserved, hretained, hlimit⟩ := status_terminate body.status terminal
    obtain ⟨htail, htrailing⟩ := preview_ended (h.open_unsealed hopen) terminal
    have hflatten : (ended body terminal).preview.flatten = body.preview.flatten := by
      rw [CapturedBodyPreview.flatten_eq, CapturedBodyPreview.flatten_eq, htail, htrailing]
    have hstatus : (ended body terminal).status = terminate body.status terminal := seal_status _
    refine ⟨h.toFaithful.finish hopen _ hstream hretained, ⟨?_, ?_, ?_, ?_, ?_⟩, ?_⟩
    · rw [hflatten, hstatus, hretained]
      exact h.flatten
    · rw [hstatus, hretained]
      exact h.retained_le
    · rw [hstatus, hretained]
      exact h.within
    · rw [hstatus, hobserved]
      exact h.observed
    · rw [hstatus, hlimit, hretained]
      exact h.limited
    · rw [htrailing]
      exact h.preview_trailing_lt

/-- A limited preview stays as it is. -/
theorem preview_of_limited (hlimited : body.status.previewLimit.isSome = true)
    (hfaithful : body.Faithful) (hopen : body.status.stream.isTerminal = false)
    {bytes : Bytes} {body' : BodyCapture} (hmoves : BodyMoves limit available body bytes body') :
    body'.preview = body.preview ∧ body'.status.previewLimit = body.status.previewLimit := by
  cases hmoves with
  | same => exact ⟨rfl, rfl⟩
  | respond => exact ⟨rfl, rfl⟩
  | append bytes havailable =>
    have hkept := @keptBytes_le limit available body hfaithful.trailing_lt havailable bytes
    rw [requestedBytes_of_limited hlimited] at hkept
    obtain ⟨previous, hprevious⟩ := Option.isSome_iff_exists.1 hlimited
    rw [appended_eq, Nat.le_zero.1 hkept]
    refine ⟨rfl, ?_⟩
    show limitAfter body bytes limit 0 = _
    unfold limitAfter
    rw [hprevious, Option.some_or]
  | finish terminal =>
    obtain ⟨-, -, hretained, hlimit⟩ := status_terminate body.status terminal
    obtain ⟨htail, htrailing⟩ := preview_ended (hfaithful.open_unsealed hopen) terminal
    have hstatus : (ended body terminal).status = terminate body.status terminal := seal_status _
    refine ⟨?_, by rw [hstatus, hlimit]⟩
    have hpreview : (ended body terminal).preview =
        { canonicalTail := (ended body terminal).preview.canonicalTail
          trailing := (ended body terminal).preview.trailing
          len := (ended body terminal).status.retainedBytes } := rfl
    rw [hpreview, htail, htrailing, hstatus, hretained]
    rfl

/-- Chunks that a snapshot shares with the body stay where they are. -/
theorem canonicalTail_suffix {bytes : Bytes} {body' : BodyCapture}
    (hmoves : BodyMoves limit available body bytes body') :
    body.canonicalTail <:+ body'.canonicalTail := by
  cases hmoves with
  | same => exact List.suffix_rfl
  | respond => exact List.suffix_rfl
  | append bytes havailable =>
    rw [appended_eq]
    exact @appendLoop_suffix (bytes.take _).length (observe body bytes) _ _ List.suffix_rfl
  | finish terminal =>
    have htail : (ended body terminal).canonicalTail = body.canonicalTail := by
      rw [ended, seal_canonicalTail]
    exact htail ▸ List.suffix_rfl

/-- The budget has room for all the bytes and the chunks they may fill. -/
def Affords (available : Nat) (body : BodyCapture) (bytes : Bytes) : Prop :=
  bytes.length + bodyChunkNodeOverhead * ((body.trailing.length + bytes.length) / bodyChunkBytes) ≤
    available

theorem keptBytes_of_affords {bytes : Bytes} (h : Affords available body bytes)
    (htrailing : body.trailing.length < bodyChunkBytes) (havailable : available ≤ wordMax) :
    keptBytes limit available body bytes = requestedBytes body bytes limit := by
  refine bodyPrefixCharge_of_enough htrailing havailable (le_trans ?_ h)
  have hle := @requestedBytes_le limit body bytes
  exact Nat.add_le_add hle (Nat.mul_le_mul_left _ (Nat.div_le_div_right (by omega)))

theorem Uncut.moves (huncut : Uncut limit body fragments) (h : Prefixed limit body fragments)
    {bytes : Bytes} {body' : BodyCapture} (hmoves : BodyMoves limit available body bytes body')
    (haffords : Affords available body bytes) : Uncut limit body' (fragments ++ bytes) := by
  cases hmoves with
  | same => rwa [List.append_nil]
  | respond =>
    rw [List.append_nil]
    exact ⟨huncut.retained, huncut.previewLimit⟩
  | append bytes havailable =>
    have hkept := @keptBytes_of_affords limit _ _ _ haffords h.trailing_lt havailable
    have hretained := huncut.retained
    have hlimit := huncut.previewLimit
    rw [appended_eq, hkept]
    by_cases hover : limit < fragments.length
    · rw [if_pos hover] at hlimit
      have hnone : requestedBytes body bytes limit = 0 :=
        requestedBytes_of_limited (by rw [hlimit]; rfl) bytes
      constructor
      · show body.status.retainedBytes + requestedBytes body bytes limit = _
        rw [hnone, List.length_append]
        omega
      · show limitAfter body bytes limit _ = _
        unfold limitAfter
        rw [hlimit, Option.some_or, if_pos (by rw [List.length_append]; omega)]
    · rw [if_neg hover] at hlimit
      have hsome := @requestedBytes_of_open limit body hlimit bytes
      constructor
      · show body.status.retainedBytes + requestedBytes body bytes limit = _
        rw [hsome, List.length_append]
        omega
      · show limitAfter body bytes limit _ = _
        unfold limitAfter
        rw [hlimit, Option.none_or, if_neg (Nat.lt_irrefl _), hsome, List.length_append]
        by_cases hmore : limit < fragments.length + bytes.length
        · rw [if_pos hmore, if_pos (by omega)]
        · rw [if_neg hmore, if_neg (by omega)]
  | finish terminal =>
    rw [List.append_nil]
    obtain ⟨-, -, hretained, hlimit⟩ := status_terminate body.status terminal
    have hstatus : (ended body terminal).status = terminate body.status terminal := seal_status _
    constructor
    · rw [hstatus, hretained]
      exact huncut.retained
    · rw [hstatus, hlimit]
      exact huncut.previewLimit

end BodyCapture

/-! ## Runs -/

namespace CaptureSystem

open RecordScope BodyCapture

variable {policy : CapturePolicy} {retention : CaptureRetentionPolicy} {i : CaptureSequence}
  {side : BodySide}

/-- The fragment an action brings to a side of a record.  A handle whose record is
gone brings none. -/
def reaching (s : CaptureSystem) (i : CaptureSequence) (side : BodySide) : CaptureAction → Bytes
  | .append j target bytes => if j = i ∧ target = side ∧ s.alive i = true then bytes else []
  | _ => []

/-- The fragments of a side in a run, one after the other. -/
def handedOver (i : CaptureSequence) (side : BodySide) : CaptureSystem → List CaptureAction → Bytes
  | _, [] => []
  | s, action :: rest =>
    s.reaching i side action ++
      match s.step action with
      | none => []
      | some t => handedOver i side t rest

/-- The side has not ended yet. -/
def sideOpen (s : CaptureSystem) (i : CaptureSequence) (side : BodySide) : Bool :=
  s.cells[i]?.all fun cell => !cell.record.sideEnded side

/-- The budget suffices for the fragment that an action brings to a side. -/
def affords (s : CaptureSystem) (i : CaptureSequence) (side : BodySide) (action : CaptureAction) :
    Prop :=
  ∀ cell, s.cells[i]? = some cell →
    Affords (s.budget.limit - s.budget.used) (cell.record.body side) (s.reaching i side action)

theorem handedOver_append {s t : CaptureSystem} {before : List CaptureAction}
    (hrun : run step s before = some t) (after : List CaptureAction) :
    handedOver i side s (before ++ after) =
      handedOver i side s before ++ handedOver i side t after := by
  induction before generalizing s with
  | nil =>
    obtain rfl : s = t := by simpa using hrun
    rfl
  | cons first rest ih =>
    obtain ⟨u, hstep, hrest⟩ := run_cons_eq_some.1 hrun
    rw [List.cons_append, handedOver, handedOver, hstep]
    dsimp only
    rw [ih hrest, List.append_assoc]

theorem handedOver_snoc {s t : CaptureSystem} {actions : List CaptureAction}
    (hrun : run step s actions = some t) (action : CaptureAction) :
    handedOver i side s (actions ++ [action]) =
      handedOver i side s actions ++ t.reaching i side action := by
  rw [handedOver_append hrun, handedOver]
  cases t.step action <;> simp [handedOver]

/-- What an operation of a handle does to the body of a side that is open, as long
as the record is not removed. -/
theorem handleOp_moves {s : CaptureSystem} {action : CaptureAction} {f : RecordScope → RecordScope}
    {c : CaptureCell} (hop : s.handleOp action = some (i, f)) (halive : s.alive i = true)
    (hsound : (s.scope c).Sound) (hkept : (f (s.scope c)).record.captureDisabled = false)
    (hopen : c.record.sideEnded side = false) :
    BodyMoves (s.policy.previewBytes side) (s.budget.limit - s.budget.used) (c.record.body side)
      (s.reaching i side action) ((f (s.scope c)).record.body side) := by
  cases action with
  | setResponse j input instant =>
    obtain ⟨rfl, rfl⟩ := Prod.mk.inj (Option.some.inj hop)
    obtain ⟨response, truncated, charged, -, -, heq⟩ :=
      setResponse_spec hsound s.policy input instant
    dsimp only
    rw [heq]
    split
    · rw [body_bumpRevision, body_charge]
      cases side with
      | request => exact .same
      | response => exact .respond
    · exact .same
  | append j target bytes =>
    obtain ⟨rfl, rfl⟩ := Prod.mk.inj (Option.some.inj hop)
    have heq := append_eq hsound target bytes (s.policy.previewBytes target)
    dsimp only [CaptureHandle.append] at hkept ⊢
    rw [heq] at hkept ⊢
    by_cases htarget : target = side
    · subst htarget
      have hreaching : s.reaching j target (.append j target bytes) = bytes :=
        if_pos ⟨rfl, rfl, halive⟩
      rw [hreaching]
      by_cases hignored : (s.scope c).ignoresAppend target bytes = true
      · have hempty : bytes = [] := by
          unfold ignoresAppend at hignored
          unfold CaptureRecord.sideEnded at hopen
          simpa [show (s.scope c).record = c.record from rfl, hopen] using hignored
        rw [if_pos hignored, hempty]
        exact .same
      rw [if_neg hignored] at hkept ⊢
      split at hkept
      case isTrue hdisabled =>
          have hstill : ((s.scope c).record.setBody target
              (observe ((s.scope c).record.body target) bytes)).captureDisabled =
              (s.scope c).record.captureDisabled := by cases target <;> rfl
          rw [hstill, hdisabled] at hkept
          cases hkept
      case isFalse hdisabled =>
          rw [if_neg hdisabled, body_bumpRevision, body_charge, CaptureRecord.body_setBody_same]
          refine .append bytes ?_
          have hlimit := s.budget.limit_le
          omega
    · have hreaching : s.reaching j side (.append j target bytes) = [] :=
        if_neg fun h => htarget h.2.1
      rw [hreaching]
      have hother : side ≠ target := fun h => htarget h.symm
      split
      · exact .same
      split
      · rw [CaptureRecord.body_setBody_other _ hother]
        exact .same
      · rw [body_bumpRevision, body_charge, CaptureRecord.body_setBody_other _ hother]
        exact .same
  | finish j target terminal instant =>
    obtain ⟨rfl, rfl⟩ := Prod.mk.inj (Option.some.inj hop)
    dsimp only
    rw [finish_spec]
    split
    · exact .same
    · rw [body_bumpRevision, CaptureRecord.body_setTerminalAt]
      by_cases htarget : target = side
      · subst htarget
        rw [CaptureRecord.body_setBody_same]
        exact .finish terminal
      · rw [CaptureRecord.body_setBody_other _ fun h => htarget h.symm]
        exact .same
  | _ => simp [handleOp] at hop

/-- The same for a step of the system. -/
theorem step_moves {s t : CaptureSystem} {action : CaptureAction} (h : Conserved s)
    (hstep : s.step action = some t) {c : CaptureCell} (hc : s.cells[i]? = some c)
    (hopen : c.record.sideEnded side = false) :
    ∃ c', t.cells[i]? = some c' ∧ (c'.record.captureDisabled = false →
      c.record.captureDisabled = false ∧
        BodyMoves (s.policy.previewBytes side) (s.budget.limit - s.budget.used) (c.record.body side)
          (s.reaching i side action) (c'.record.body side)) := by
  obtain ⟨c', hc', hcase⟩ := step_record hstep hc
  refine ⟨c', hc', fun hkept => ?_⟩
  rcases hcase with ⟨hsame, hdead⟩ | ⟨f, hop, halive, hsame, -⟩
  · have hnone : s.reaching i side action = [] := by
      cases action with
      | append j target bytes =>
        refine if_neg ?_
        rintro ⟨rfl, -, halive⟩
        rw [(hdead _ rfl).1] at halive
        cases halive
      | _ => rfl
    rw [hnone, hsame.body]
    refine ⟨?_, .same⟩
    by_contra hremoved
    rw [hsame.disabled (by simpa using hremoved)] at hkept
    cases hkept
  · have hsound := h.toBalanced.sound hc (h.toBalanced.leaseLive_of_alive hc halive)
    have hmiddle : (f (s.scope c)).record.captureDisabled = false := by
      by_contra hremoved
      rw [hsame.disabled (by simpa using hremoved)] at hkept
      cases hkept
    have hbefore : c.record.captureDisabled = false := by
      by_contra hremoved
      have hdisabled : (s.scope c).record.captureDisabled = true := Bool.not_eq_false _ ▸ hremoved
      rw [(CaptureRecord.RevisionLe.of_outcome (handleOp_outcome hop hsound)).disabled
        hdisabled] at hmiddle
      cases hmiddle
    rw [hsame.body]
    exact ⟨hbefore, handleOp_moves hop halive hsound hmiddle hopen⟩

/-- Every record that is not removed holds a prefix of its fragments, and nothing
has reached a record that does not exist yet. -/
def AllPrefixed (policy : CapturePolicy) (side : BodySide) (i : CaptureSequence)
    (s : CaptureSystem) (fragments : Bytes) : Prop :=
  (∀ c, s.cells[i]? = some c → c.record.captureDisabled = false →
    Prefixed (policy.previewBytes side) (c.record.body side) fragments) ∧
  (s.cells[i]? = none → fragments = [])

theorem reaching_of_none {s : CaptureSystem} {action : CaptureAction} (h : s.cells[i]? = none) :
    s.reaching i side action = [] := by
  cases action with
  | append j target bytes =>
    refine if_neg ?_
    rintro ⟨rfl, -, halive⟩
    obtain ⟨cell, hcell, -⟩ := alive_iff.1 halive
    rw [h] at hcell
    cases hcell
  | _ => rfl

theorem body_of_fresh {c : CaptureCell} (h : Fresh c) : c.record.body side = {} := by
  obtain ⟨_, _, _, _, _, _, hrecord⟩ := h
  rw [hrecord]
  cases side <;> rfl

/-- A cell that a step adds has a new body. -/
theorem body_of_none {s t : CaptureSystem} {action : CaptureAction}
    (hstep : s.step action = some t) (hnone : s.cells[i]? = none) {c' : CaptureCell}
    (hc' : t.cells[i]? = some c') : c'.record.body side = {} := by
  rcases step_old_or_fresh hstep hc' with ⟨c, hc⟩ | ⟨c, hfresh, hsame⟩
  · rw [hnone] at hc
    cases hc
  · rw [hsame.body, body_of_fresh hfresh]

theorem step_allPrefixed {s t : CaptureSystem} {action : CaptureAction} {fragments : Bytes}
    (h : Conserved s) (hpolicy : s.policy = policy) (hopen : s.sideOpen i side = true)
    (hstep : s.step action = some t) (hprefixed : AllPrefixed policy side i s fragments) :
    AllPrefixed policy side i t (fragments ++ s.reaching i side action) := by
  cases hc : s.cells[i]? with
  | none =>
    rw [hprefixed.2 hc, reaching_of_none hc]
    refine ⟨fun c' hc' _ => ?_, fun _ => rfl⟩
    rw [body_of_none hstep hc hc']
    exact prefixed_new _
  | some c =>
    have hside : c.record.sideEnded side = false := by simpa [sideOpen, hc] using hopen
    obtain ⟨c', hc', hmoves⟩ := step_moves h hstep hc hside
    refine ⟨fun d hd hkept => ?_, fun hnone => by rw [hc'] at hnone; cases hnone⟩
    obtain rfl := Option.some.inj (hc'.symm.trans hd)
    obtain ⟨hbefore, hbody⟩ := hmoves hkept
    rw [hpolicy] at hbody
    exact (hprefixed.1 c hc hbefore).moves hside hbody

theorem run_allPrefixed {actions : List CaptureAction} {t : CaptureSystem}
    (hopen : Along step (fun s _ => s.sideOpen i side = true) (new policy retention) actions)
    (hrun : run step (new policy retention) actions = some t) :
    AllPrefixed policy side i t (handedOver i side (new policy retention) actions) := by
  induction actions using List.reverseRecOn generalizing t with
  | nil =>
    obtain rfl : new policy retention = t := by simpa using hrun
    exact ⟨fun c hc => by simp [new] at hc, fun _ => rfl⟩
  | append_singleton actions action ih =>
    obtain ⟨s, hbefore, hstep⟩ := run_snoc_eq_some.1 hrun
    rw [handedOver_snoc hbefore]
    exact step_allPrefixed (conserved_run hbefore) (policy_run hbefore).1
      (hopen.append_right hbefore).1 hstep (ih hopen.append_left hbefore)

/-! ## Budgets that suffice, along a run -/

theorem run_uncut {actions : List CaptureAction} {t : CaptureSystem}
    (hopen : Along step (fun s _ => s.sideOpen i side = true) (new policy retention) actions)
    (haffords : Along step (fun s action => s.affords i side action) (new policy retention) actions)
    (hrun : run step (new policy retention) actions = some t) {c : CaptureCell}
    (hc : t.cells[i]? = some c) (hkept : c.record.captureDisabled = false) :
    Uncut (policy.previewBytes side) (c.record.body side)
      (handedOver i side (new policy retention) actions) := by
  induction actions using List.reverseRecOn generalizing t c with
  | nil =>
    obtain rfl : new policy retention = t := by simpa using hrun
    simp [new] at hc
  | append_singleton actions action ih =>
    obtain ⟨s, hbefore, hstep⟩ := run_snoc_eq_some.1 hrun
    have hprefixed := run_allPrefixed hopen.append_left hbefore
    rw [handedOver_snoc hbefore]
    cases hs : s.cells[i]? with
    | none =>
      rw [hprefixed.2 hs, reaching_of_none hs, body_of_none hstep hs hc]
      exact ⟨by simp, by simp⟩
    | some d =>
      have hside : d.record.sideEnded side = false := by
        simpa [sideOpen, hs] using (hopen.append_right hbefore).1
      obtain ⟨c', hc', hmoves⟩ := step_moves (conserved_run hbefore) hstep hs hside
      obtain rfl := Option.some.inj (hc'.symm.trans hc)
      obtain ⟨hd, hbody⟩ := hmoves hkept
      rw [(policy_run hbefore).1] at hbody
      exact (ih hopen.append_left haffords.append_left hbefore hs hd).moves
        (hprefixed.1 d hs hd) hbody ((haffords.append_right hbefore).1 d hs)

/-! ## Earlier previews -/

/-- What a later body keeps of an earlier one: its sealed chunks, in place, and the
bytes it retains; the whole preview once a limit was hit. -/
structure KeepsPreview (earlier later : BodyCapture) : Prop where
  nodes : earlier.canonicalTail <:+ later.canonicalTail
  retained : earlier.status.retainedBytes ≤ later.status.retainedBytes
  limited : earlier.status.previewLimit.isSome = true →
    later.preview = earlier.preview ∧ later.status.previewLimit = earlier.status.previewLimit

theorem KeepsPreview.refl (body : BodyCapture) : KeepsPreview body body :=
  ⟨List.suffix_rfl, Nat.le_refl _, fun _ => ⟨rfl, rfl⟩⟩

theorem KeepsPreview.trans {body body' body'' : BodyCapture} (h : KeepsPreview body body')
    (h' : KeepsPreview body' body'') : KeepsPreview body body'' where
  nodes := h.nodes.trans h'.nodes
  retained := h.retained.trans h'.retained
  limited hlimited := by
    obtain ⟨hpreview, hlimit⟩ := h.limited hlimited
    obtain ⟨hpreview', hlimit'⟩ := h'.limited (hlimit ▸ hlimited)
    exact ⟨hpreview'.trans hpreview, hlimit'.trans hlimit⟩

theorem keepsPreview_of_moves {limit available : Nat} {body body' : BodyCapture} {bytes : Bytes}
    (hfaithful : body.Faithful) (hopen : body.status.stream.isTerminal = false)
    (hmoves : BodyMoves limit available body bytes body') : KeepsPreview body body' where
  nodes := canonicalTail_suffix hmoves
  retained := by
    cases hmoves with
    | same => exact Nat.le_refl _
    | respond => exact Nat.le_refl _
    | append bytes havailable => exact Nat.le_add_right _ _
    | finish terminal =>
      rw [ended, seal_status]
      exact (status_terminate body.status terminal).2.2.1.ge
  limited hlimited := preview_of_limited hlimited hfaithful hopen hmoves

theorem run_keepsPreview {before after : List CaptureAction} {s t : CaptureSystem}
    (hopen : Along step (fun s _ => s.sideOpen i side = true) (new policy retention)
      (before ++ after))
    (hbefore : run step (new policy retention) before = some s) (hafter : run step s after = some t)
    {c c' : CaptureCell} (hc : s.cells[i]? = some c) (hc' : t.cells[i]? = some c')
    (hkept : c'.record.captureDisabled = false) :
    c.record.captureDisabled = false ∧ KeepsPreview (c.record.body side) (c'.record.body side) := by
  induction after using List.reverseRecOn generalizing t c' with
  | nil =>
    obtain rfl : s = t := by simpa using hafter
    obtain rfl := Option.some.inj (hc.symm.trans hc')
    exact ⟨hkept, .refl _⟩
  | append_singleton after action ih =>
    obtain ⟨u, hmiddle, hstep⟩ := run_snoc_eq_some.1 hafter
    rw [← List.append_assoc] at hopen
    have hu : run step (new policy retention) (before ++ after) = some u :=
      run_append_eq_some.2 ⟨s, hbefore, hmiddle⟩
    have hcell : ∃ d, u.cells[i]? = some d := by
      obtain ⟨d, hd, -⟩ := run_revisions (conserved_run hbefore) hmiddle i c hc
      exact ⟨d, hd⟩
    obtain ⟨d, hd⟩ := hcell
    have hside : d.record.sideEnded side = false := by
      simpa [sideOpen, hd] using (hopen.append_right hu).1
    obtain ⟨_, hget, hmoves⟩ := step_moves (conserved_run hu) hstep hd hside
    obtain rfl := Option.some.inj (hget.symm.trans hc')
    obtain ⟨hdkept, hbody⟩ := hmoves hkept
    obtain ⟨hckept, hkeeps⟩ := ih hopen.append_left hmiddle hd hdkept
    have hprefixed := (run_allPrefixed hopen.append_left hu).1 d hd hdkept
    exact ⟨hckept, hkeeps.trans (keepsPreview_of_moves hprefixed.toFaithful hside hbody)⟩

/-! ## The law -/

/-- In every run, at every point of it and as long as the side of a record that is
not removed has been open before: the preview is the beginning of the fragments,
within the limit, and the counts tell how much is missing; what a preview showed
earlier stays, and a limited one stays as it is; and where the budget sufficed for
each fragment, the preview and the counts are those of all the bytes in one piece. -/
theorem body_prefix {before after : List CaptureAction} {s t : CaptureSystem} {c c' : CaptureCell}
    (hbefore : run step (new policy retention) before = some s) (hafter : run step s after = some t)
    (hopen : Along step (fun s _ => s.sideOpen i side = true) (new policy retention)
      (before ++ after))
    (hc : s.cells[i]? = some c) (hc' : t.cells[i]? = some c')
    (hkept : c'.record.captureDisabled = false) :
    HoldsPrefix (policy.previewBytes side) (c'.record.body side)
        (handedOver i side (new policy retention) (before ++ after)) ∧
      KeepsPreview (c.record.body side) (c'.record.body side) ∧
      (c.record.body side).preview.flatten =
        (c'.record.body side).preview.flatten.take (c.record.body side).status.retainedBytes ∧
      (Along step (fun s action => s.affords i side action) (new policy retention)
          (before ++ after) →
        Uncut (policy.previewBytes side) (c'.record.body side)
            (handedOver i side (new policy retention) (before ++ after)) ∧
          (c'.record.body side).preview =
            canonicalPreview ((handedOver i side (new policy retention) (before ++ after)).take
              (policy.previewBytes side))) := by
  have hrun : run step (new policy retention) (before ++ after) = some t :=
    run_append_eq_some.2 ⟨s, hbefore, hafter⟩
  obtain ⟨hckept, hkeeps⟩ := run_keepsPreview hopen hbefore hafter hc hc' hkept
  have hearlier := (run_allPrefixed hopen.append_left hbefore).1 c hc hckept
  have hlater := (run_allPrefixed hopen hrun).1 c' hc' hkept
  refine ⟨hlater.toHoldsPrefix, hkeeps, ?_, fun haffords => ?_⟩
  · rw [hearlier.flatten, hlater.flatten, List.take_take, Nat.min_eq_left hkeeps.retained,
      handedOver_append hbefore, List.take_append_of_le_length hearlier.retained_le]
  · have huncut := run_uncut hopen haffords hrun hc' hkept
    refine ⟨huncut, ?_⟩
    rw [hlater.preview_eq, huncut.retained, Nat.min_comm, ← List.take_eq_take_min]

/-- Two fragments, the second one cut by the limit of the side. -/
def sampleFragments : List CaptureAction :=
  [.tryStart
      { method := [71], originalUri := [97], effectiveUri := [97], localPath := none
        headers := [] } 0 0,
    .append 0 .request [1, 2, 3]]

theorem body_prefix_sample :
    ∃ t c, run step (new { requestPreviewBytes := 4 } {})
        (sampleFragments ++ [.append 0 .request [4, 5, 6]]) = some t ∧ t.cells[0]? = some c ∧
      (c.record.body .request).status.retainedBytes = 4 ∧
      (c.record.body .request).preview.flatten = [1, 2, 3, 4] := by
  obtain ⟨s, hs⟩ := Option.isSome_iff_exists.1
    (show (run step (new { requestPreviewBytes := 4 } {}) sampleFragments).isSome = true by
      decide +kernel)
  obtain ⟨t, ht⟩ := Option.isSome_iff_exists.1
    (show ((run step (new { requestPreviewBytes := 4 } {}) sampleFragments).bind fun s =>
      run step s [.append 0 .request [4, 5, 6]]).isSome = true by decide +kernel)
  have hcell : ((run step (new { requestPreviewBytes := 4 } {}) sampleFragments).bind fun s =>
      s.cells[0]?.map fun c => c.record.captureDisabled) = some false := by decide +kernel
  have hcell' : (((run step (new { requestPreviewBytes := 4 } {}) sampleFragments).bind fun s =>
      run step s [.append 0 .request [4, 5, 6]]).bind fun t => t.cells[0]?.map fun c =>
        (c.record.captureDisabled, (c.record.body .request).status.retainedBytes)) =
      some (false, 4) := by decide +kernel
  rw [ht, Option.bind_some, Option.map_eq_some_iff] at hcell'
  rw [hs, Option.bind_some] at ht
  rw [hs, Option.bind_some, Option.map_eq_some_iff] at hcell
  obtain ⟨c, hc, -⟩ := hcell
  obtain ⟨c', hc', hstate⟩ := hcell'
  obtain ⟨hkept, hretained⟩ := Prod.mk.inj hstate
  obtain ⟨hbegins, -⟩ := @ body_prefix { requestPreviewBytes := 4 } {} 0 .request _ _ _ _ _ _ hs ht
    (by decide +kernel) hc hc' hkept
  refine ⟨t, c', run_append_eq_some.2 ⟨s, hs, ht⟩, hc', hretained, ?_⟩
  rw [hbegins.flatten, hretained]
  decide +kernel

end CaptureSystem

end Fluxcope.Capture
