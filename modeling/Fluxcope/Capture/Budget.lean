import Fluxcope.Library.Machine
import Mathlib.Tactic.Ring
import Mathlib.Tactic.Linarith
/-!
# The shared capture budget and its leases

Every capture holds one lease on the memory budget of its publisher.  The lease
counts what the capture has reserved and gives it back when it is dropped.
Reservations are made in one atomic exchange each, so they are functions of the
counter here.  The `underflowed` flags are not in the source: they record that
a `fetch_sub` wrapped, so that the proofs can say that none ever does.
-/

namespace Fluxcope.Capture

open Fluxcope.Library

/-- Size of a sealed body chunk. -/
def bodyChunkBytes : Nat := 64 * 1024

/-- What a sealed chunk costs beside its bytes: the node with its link, its
`Bytes` and its count, and the two counters of its `Arc`. -/
def bodyChunkNodeOverhead : Nat := (8 + 32 + 8) + 2 * 8

/-- One candidate of the search in `bodyPrefixCharge`: the bytes and the charge
when exactly `nodes` chunks get sealed, if the budget allows it. -/
def chargeWithNodes (requested trailingLen available nodes : Nat) : Option (Nat × Nat) :=
  let overhead := satMul nodes bodyChunkNodeOverhead
  if overhead > available then none
  else
    let lower := satMul nodes bodyChunkBytes - trailingLen
    let upper := satMul (satAdd nodes 1) bodyChunkBytes - trailingLen - 1
    let retained := min (min requested (available - overhead)) upper
    if retained ≥ lower then some (retained, satAdd retained overhead) else none

/-- The loop of `body_prefix_charge`, over the node counts from `nodes` down to 0. -/
def searchNodes (requested trailingLen available : Nat) : Nat → Nat × Nat
  | 0 => (chargeWithNodes requested trailingLen available 0).getD (0, 0)
  | nodes + 1 =>
    match chargeWithNodes requested trailingLen available (nodes + 1) with
    | some charge => charge
    | none => searchNodes requested trailingLen available nodes

def bodyPrefixCharge (requested trailingLen available : Nat) : Nat × Nat :=
  let maxBytes := min requested available
  let maxNodes := satAdd trailingLen maxBytes / bodyChunkBytes
  searchNodes requested trailingLen available maxNodes

/-- `CaptureMemoryBudget`; the limit is a `usize`. -/
structure CaptureMemoryBudget where
  limit : Nat
  limit_le : limit ≤ wordMax
  used : Nat
  underflowed : Bool
  deriving DecidableEq

namespace CaptureMemoryBudget

def new (limit : Nat) (limit_le : limit ≤ wordMax) : CaptureMemoryBudget :=
  { limit, limit_le, used := 0, underflowed := false }

def reserveExact (budget : CaptureMemoryBudget) (requested : Nat) :
    Bool × CaptureMemoryBudget :=
  if requested = 0 then (true, budget)
  else if budget.used + requested > wordMax then (false, budget)
  else if budget.used + requested > budget.limit then (false, budget)
  else (true, { budget with used := budget.used + requested })

def reserveBodyPrefix (budget : CaptureMemoryBudget) (requested trailingLen : Nat) :
    (Nat × Nat) × CaptureMemoryBudget :=
  if requested = 0 then ((0, 0), budget)
  else
    let available := budget.limit - budget.used
    let (retained, charged) := bodyPrefixCharge requested trailingLen available
    if retained = 0 then ((0, 0), budget)
    else ((retained, charged), { budget with used := satAdd budget.used charged })

def reserveUpTo (budget : CaptureMemoryBudget) (requested : Nat) :
    Nat × CaptureMemoryBudget :=
  let available := budget.limit - budget.used
  let reserved := min requested available
  if reserved = 0 then (0, budget)
  else (reserved, { budget with used := satAdd budget.used reserved })

def release (budget : CaptureMemoryBudget) (released : Nat) : CaptureMemoryBudget :=
  { budget with
    used := wrapSub budget.used released
    underflowed := budget.underflowed || decide (budget.used < released) }

end CaptureMemoryBudget

/-- `CaptureBudgetLease`, without the reference to its budget. -/
structure CaptureBudgetLease where
  reserved : Nat
  underflowed : Bool
  deriving DecidableEq

namespace CaptureBudgetLease

def tryNew (budget : CaptureMemoryBudget) (reserved : Nat) :
    Option (CaptureBudgetLease × CaptureMemoryBudget) :=
  match budget.reserveExact reserved with
  | (true, budget) => some ({ reserved, underflowed := false }, budget)
  | (false, _) => none

def reserveUpTo (lease : CaptureBudgetLease) (budget : CaptureMemoryBudget)
    (requested : Nat) : Nat × CaptureBudgetLease × CaptureMemoryBudget :=
  let (reserved, budget) := budget.reserveUpTo requested
  (reserved, { lease with reserved := lease.reserved + reserved }, budget)

def reserveBodyPrefix (lease : CaptureBudgetLease) (budget : CaptureMemoryBudget)
    (requested trailingLen : Nat) :
    (Nat × Nat) × CaptureBudgetLease × CaptureMemoryBudget :=
  let ((retained, charged), budget) := budget.reserveBodyPrefix requested trailingLen
  ((retained, charged), { lease with reserved := lease.reserved + charged }, budget)

def release (lease : CaptureBudgetLease) (budget : CaptureMemoryBudget) (released : Nat) :
    CaptureBudgetLease × CaptureMemoryBudget :=
  if released = 0 then (lease, budget)
  else
    ({ reserved := wrapSub lease.reserved released
       underflowed := lease.underflowed || decide (lease.reserved < released) },
      budget.release released)

/-- The destructor: the lease gives back everything it still holds. -/
def drop (lease : CaptureBudgetLease) (budget : CaptureMemoryBudget) :
    CaptureMemoryBudget :=
  budget.release lease.reserved

end CaptureBudgetLease

/-! ## What a charged prefix is -/

theorem bodyChunkBytes_pos : 0 < bodyChunkBytes := by decide

theorem overhead_le_chunk : bodyChunkNodeOverhead ≤ bodyChunkBytes := by decide

/-- A charge pays for the retained bytes and for the chunks they seal, and fits the budget. -/
def IsPrefixCharge (requested trailingLen available : Nat) (charge : Nat × Nat) : Prop :=
  charge.1 ≤ requested ∧ charge.2 ≤ available ∧
    charge.2 = charge.1 + bodyChunkNodeOverhead * ((trailingLen + charge.1) / bodyChunkBytes)

theorem isPrefixCharge_zero {requested trailingLen available : Nat}
    (htrailing : trailingLen < bodyChunkBytes) :
    IsPrefixCharge requested trailingLen available (0, 0) := by
  refine ⟨Nat.zero_le _, Nat.zero_le _, ?_⟩
  simp [Nat.div_eq_of_lt htrailing]

theorem chargeWithNodes_spec {requested trailingLen available nodes : Nat}
    {charge : Nat × Nat} (htrailing : trailingLen < bodyChunkBytes)
    (havailable : available ≤ wordMax) (hnodes : nodes * bodyChunkBytes ≤ wordMax)
    (h : chargeWithNodes requested trailingLen available nodes = some charge) :
    IsPrefixCharge requested trailingLen available charge := by
  have hoverhead : satMul nodes bodyChunkNodeOverhead = nodes * bodyChunkNodeOverhead :=
    satMul_eq ((Nat.mul_le_mul_left nodes overhead_le_chunk).trans hnodes)
  have hupper : satMul (satAdd nodes 1) bodyChunkBytes ≤ (nodes + 1) * bodyChunkBytes :=
    (satMul_le _ _).trans (Nat.mul_le_mul_right _ (satAdd_le _ _))
  unfold chargeWithNodes at h
  simp only [hoverhead, satMul_eq hnodes] at h
  split at h
  · cases h
  rename_i hfits
  split at h
  · rename_i hlower
    set upper := satMul (satAdd nodes 1) bodyChunkBytes - trailingLen - 1
    set retained := min (min requested (available - nodes * bodyChunkNodeOverhead)) upper
      with hretained
    have hcharge : charge = (retained, satAdd retained (nodes * bodyChunkNodeOverhead)) := by
      simpa using h.symm
    have hle : retained + nodes * bodyChunkNodeOverhead ≤ available := by omega
    have hsum : satAdd retained (nodes * bodyChunkNodeOverhead) =
        retained + nodes * bodyChunkNodeOverhead := satAdd_eq (hle.trans havailable)
    have hdiv : (trailingLen + retained) / bodyChunkBytes = nodes := by
      have hmul : (nodes + 1) * bodyChunkBytes = nodes * bodyChunkBytes + bodyChunkBytes := by
        ring
      have hpos := bodyChunkBytes_pos
      refine Nat.div_eq_of_lt_le (by omega) ?_
      by_cases hzero : retained = 0
      · rw [hzero, hmul]
        omega
      · omega
    rw [hcharge]
    refine ⟨by simp only; omega, by simp only; omega, ?_⟩
    simp only [hdiv, hsum]
    ring
  · cases h

theorem searchNodes_spec {requested trailingLen available nodes : Nat}
    (htrailing : trailingLen < bodyChunkBytes) (havailable : available ≤ wordMax)
    (hnodes : nodes * bodyChunkBytes ≤ wordMax) :
    IsPrefixCharge requested trailingLen available
      (searchNodes requested trailingLen available nodes) := by
  induction nodes with
  | zero =>
    unfold searchNodes
    cases h : chargeWithNodes requested trailingLen available 0 with
    | none => exact isPrefixCharge_zero htrailing
    | some charge => exact chargeWithNodes_spec htrailing havailable hnodes h
  | succ nodes ih =>
    unfold searchNodes
    cases h : chargeWithNodes requested trailingLen available (nodes + 1) with
    | none => exact ih ((Nat.mul_le_mul_right _ (Nat.le_succ _)).trans hnodes)
    | some charge => exact chargeWithNodes_spec htrailing havailable hnodes h

theorem bodyPrefixCharge_spec {requested trailingLen available : Nat}
    (htrailing : trailingLen < bodyChunkBytes) (havailable : available ≤ wordMax) :
    IsPrefixCharge requested trailingLen available
      (bodyPrefixCharge requested trailingLen available) := by
  refine searchNodes_spec htrailing havailable ?_
  exact (Nat.div_mul_le_self _ _).trans (satAdd_le_wordMax _ _)

/-! ## What the reservations do to the counter -/

namespace CaptureMemoryBudget

/-- The counter is within the limit. -/
def Bounded (budget : CaptureMemoryBudget) : Prop := budget.used ≤ budget.limit

theorem reserveExact_cases (budget : CaptureMemoryBudget) (requested : Nat) :
    budget.reserveExact requested = (false, budget) ∨
      (budget.used + requested ≤ budget.limit ∨ requested = 0) ∧
        budget.reserveExact requested =
          (true, { budget with used := budget.used + requested }) := by
  unfold reserveExact
  by_cases hzero : requested = 0
  · exact .inr ⟨.inr hzero, by simp [hzero]⟩
  · rw [if_neg hzero]
    split
    · exact .inl rfl
    split
    · exact .inl rfl
    · exact .inr ⟨.inl (by omega), rfl⟩

theorem reserveUpTo_eq {budget : CaptureMemoryBudget} (h : budget.Bounded) (requested : Nat) :
    budget.reserveUpTo requested =
      (min requested (budget.limit - budget.used),
        { budget with used := budget.used + min requested (budget.limit - budget.used) }) := by
  have hlimit := budget.limit_le
  unfold Bounded at h
  unfold reserveUpTo
  simp only
  split
  · rename_i hzero
    simp [hzero]
  · rw [satAdd_eq (by omega)]

theorem reserveBodyPrefix_eq {budget : CaptureMemoryBudget} (h : budget.Bounded)
    (requested : Nat) {trailingLen : Nat} (htrailing : trailingLen < bodyChunkBytes) :
    budget.reserveBodyPrefix requested trailingLen =
      (bodyPrefixCharge requested trailingLen (budget.limit - budget.used),
        { budget with
          used := budget.used +
            (bodyPrefixCharge requested trailingLen (budget.limit - budget.used)).2 }) := by
  have hlimit := budget.limit_le
  unfold Bounded at h
  have hspec := @bodyPrefixCharge_spec requested trailingLen
    (budget.limit - budget.used) htrailing (by omega)
  unfold reserveBodyPrefix
  rcases hcharge : bodyPrefixCharge requested trailingLen (budget.limit - budget.used) with
    ⟨retained, charged⟩
  rw [hcharge] at hspec
  obtain ⟨hretained, hcharged, hcost⟩ := hspec
  simp only [hcharge] at hretained hcharged hcost ⊢
  by_cases hempty : retained = 0
  · have hnone : charged = 0 := by
      rw [hcost, hempty, Nat.add_zero, Nat.div_eq_of_lt htrailing]
      rfl
    simp [hempty, hnone]
  · rw [if_neg (by omega), if_neg hempty, satAdd_eq (by omega)]

theorem release_eq {budget : CaptureMemoryBudget} {released : Nat} (h : released ≤ budget.used) :
    budget.release released = { budget with used := budget.used - released } := by
  unfold release
  rw [wrapSub_eq h]
  simp [Nat.not_lt.2 h]

end CaptureMemoryBudget

theorem CaptureBudgetLease.release_eq {lease : CaptureBudgetLease}
    {budget : CaptureMemoryBudget} {released : Nat} (hlease : released ≤ lease.reserved)
    (hbudget : released ≤ budget.used) :
    lease.release budget released =
      ({ lease with reserved := lease.reserved - released },
        { budget with used := budget.used - released }) := by
  unfold CaptureBudgetLease.release
  by_cases hzero : released = 0
  · simp [hzero]
  · rw [if_neg hzero, CaptureMemoryBudget.release_eq hbudget, wrapSub_eq hlease]
    simp [Nat.not_lt.2 hlease]

end Fluxcope.Capture
