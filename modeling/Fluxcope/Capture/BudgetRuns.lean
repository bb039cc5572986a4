import Fluxcope.Capture.BudgetActions
/-!
# The capture budget in all runs

Dropping the leases nothing refers to any more restores the invariant between
two actions, so it holds in all states the capture system can reach.
-/

namespace Fluxcope.Capture

open Fluxcope.Library Fluxcope.Library.Utf8

namespace CaptureSystem

/-! ## Dropping leases -/

theorem Balanced.reapCell {s : CaptureSystem} (h : Balanced s) (i : CaptureSequence) :
    Balanced (s.reapCell i) := by
  have hreaped := reaped_reapCell s i
  unfold CaptureSystem.reapCell at hreaped ⊢
  cases hcell : s.cells[i]? with
  | none => exact h
  | some cell =>
    rw [hcell] at hreaped
    dsimp only at hreaped ⊢
    split
    · rename_i hunused
      rw [if_pos hunused] at hreaped
      simp only [Bool.and_eq_true, beq_iff_eq] at hunused
      have hold : cell.liveBytes = cell.lease.reserved := if_pos hunused.1
      have hle := liveBytes_le_used h hcell
      have hrelease : cell.lease.drop s.budget =
          { s.budget with used := s.budget.used - cell.lease.reserved } :=
        CaptureMemoryBudget.release_eq (hold ▸ hle)
      refine ⟨fun j c hc => ?_, ?_, ?_, ?_, ?_, fun j c hc hpos => ?_⟩
      · rw [getElem?_set_of_some hcell] at hc
        split at hc
        · obtain rfl := Option.some.inj hc
          exact ⟨(h.accounted i cell hcell).exact, (h.accounted i cell hcell).retained,
            (h.accounted i cell hcell).chunked, (h.accounted i cell hcell).charged,
            (h.accounted i cell hcell).paid⟩
        · exact h.accounted j c hc
      · have hsum := sum_map_set CaptureCell.liveBytes hcell { cell with leaseLive := false }
        have hnew : ({ cell with leaseLive := false } : CaptureCell).liveBytes = 0 := rfl
        rw [hold, hnew, ← h.used] at hsum
        simp only [hrelease]
        omega
      · have hbounded := h.bounded
        unfold CaptureMemoryBudget.Bounded at hbounded ⊢
        simp only [hrelease]
        omega
      · simp only [hrelease]
        exact h.exact
      · simp only [hrelease]
        exact h.limit
      · rw [getElem?_set_of_some hcell] at hc
        split at hc
        · obtain rfl := Option.some.inj hc
          rename_i hij
          subst hij
          exact absurd hunused.2 (Nat.pos_iff_ne_zero.1 hpos)
        · exact h.live j c hc hpos
    · exact h

/-- The lease of cell `i` has been looked at: it is alive only if it is referred to. -/
def Settled (s : CaptureSystem) (i : CaptureSequence) : Prop :=
  ∀ cell, s.cells[i]? = some cell → cell.leaseLive → 0 < s.references i cell

theorem Settled.reaped {s t : CaptureSystem} {i : CaptureSequence} (h : Settled s i)
    (hreaped : Reaped s t) : Settled t i := by
  intro c' hc' hlive
  obtain ⟨c, hc, -, hkept⟩ := hreaped.cells.get_right hc'
  rw [hreaped.references hc hc']
  exact h c hc (hkept hlive)

theorem settled_reapCell (s : CaptureSystem) (i : CaptureSequence) :
    Settled (s.reapCell i) i := by
  have hreaped := reaped_reapCell s i
  intro c' hc' hlive
  obtain ⟨c, hc, -, hkept⟩ := hreaped.cells.get_right hc'
  rw [hreaped.references hc hc']
  by_contra hnone
  have hunused : (c.leaseLive && s.references i c == 0) = true := by
    have hzero : s.references i c = 0 := by omega
    simp [hkept hlive, hzero]
  unfold CaptureSystem.reapCell at hc'
  simp only [hc, hunused, if_true, getElem?_set_of_some hc, Option.some.injEq] at hc'
  simp [← hc'] at hlive

theorem Balanced.foldl_reapCell {s : CaptureSystem} (h : Balanced s)
    (indices : List CaptureSequence) : Balanced (indices.foldl CaptureSystem.reapCell s) := by
  induction indices generalizing s with
  | nil => exact h
  | cons i rest ih => exact ih (h.reapCell i)

theorem settled_foldl (indices : List CaptureSequence) (s : CaptureSystem)
    {i : CaptureSequence} (hi : i ∈ indices) :
    Settled (indices.foldl CaptureSystem.reapCell s) i := by
  induction indices generalizing s with
  | nil => simp at hi
  | cons j rest ih =>
    by_cases hmem : i ∈ rest
    · exact ih _ hmem
    · obtain rfl : i = j := (List.mem_cons.1 hi).resolve_right hmem
      exact (settled_reapCell s i).reaped (reaped_foldl rest _)

theorem Balanced.reap {s : CaptureSystem} (h : Balanced s) : Conserved s.reap := by
  refine ⟨h.foldl_reapCell _, fun i cell hcell hlive => ?_⟩
  obtain ⟨_, hget, -⟩ := (reaped_reap s).cells.get_right hcell
  obtain ⟨hi, -⟩ := List.getElem?_eq_some_iff.1 hget
  exact settled_foldl _ s (List.mem_range.2 hi) cell hcell hlive

/-! ## Runs -/

theorem Conserved.step {s t : CaptureSystem} {action : CaptureAction} (h : Conserved s)
    (hstep : s.step action = some t) : Conserved t := by
  obtain ⟨u, hact, rfl⟩ := Option.map_eq_some_iff.1 hstep
  exact (h.toBalanced.act hact).reap

theorem conserved_run {policy : CapturePolicy} {retention : CaptureRetentionPolicy}
    {actions : List CaptureAction} {s : CaptureSystem}
    (hrun : run step (new policy retention) actions = some s) : Conserved s :=
  run_invariant (fun _ _ _ h hstep => h.step hstep) (conserved_new policy retention) hrun

theorem policy_run {policy : CapturePolicy} {retention : CaptureRetentionPolicy}
    {actions : List CaptureAction} {s : CaptureSystem}
    (hrun : run step (new policy retention) actions = some s) :
    s.policy = policy ∧ s.retention = retention := by
  refine run_invariant (I := fun s => s.policy = policy ∧ s.retention = retention)
    (fun s action t h hstep => ?_) ⟨rfl, rfl⟩ hrun
  have hkept := policy_step hstep
  exact ⟨hkept.1.trans h.1, hkept.2.trans h.2⟩

/-- The counter of the budget is the sum of the live leases and within the limit;
a record counts what its lease has reserved; each side was charged its bytes and
its sealed chunks, which are full; no counter ever wrapped; and when the last
reference is gone, so is the last reserved byte. -/
theorem capture_budget_conserved {policy : CapturePolicy} {retention : CaptureRetentionPolicy}
    {actions : List CaptureAction} {s : CaptureSystem}
    (hrun : run step (new policy retention) actions = some s) :
    s.budget.used = (s.cells.map CaptureCell.liveBytes).sum ∧
      s.budget.used ≤ policy.totalRetainedBytes ∧
      s.budget.underflowed = false ∧
      (∀ i cell, s.cells[i]? = some cell →
        (cell.leaseLive = true ↔ 0 < s.references i cell) ∧
          cell.record.retainedBytes = cell.lease.reserved ∧
          cell.lease.underflowed = false ∧
          ∀ side, cell.charged side = (cell.record.body side).status.retainedBytes +
              bodyChunkNodeOverhead * (cell.record.body side).canonicalTail.length ∧
            ∀ chunk ∈ (cell.record.body side).canonicalTail, chunk.length = bodyChunkBytes) ∧
      ((∀ i cell, s.cells[i]? = some cell → s.references i cell = 0) → s.budget.used = 0) := by
  have h := conserved_run hrun
  refine ⟨h.used, ?_, h.exact, fun i cell hcell => ?_, fun hdropped => ?_⟩
  · rw [← (policy_run hrun).1, ← h.limit]
    exact h.bounded
  · have hok := h.accounted i cell hcell
    exact ⟨⟨h.dropped i cell hcell, h.live i cell hcell⟩, hok.retained, hok.exact,
      fun side => ⟨hok.charged side, (hok.chunked side).chunk_length⟩⟩
  · rw [h.used]
    refine List.sum_eq_zero fun bytes hbytes => ?_
    obtain ⟨cell, hmem, rfl⟩ := List.mem_map.1 hbytes
    obtain ⟨i, hcell⟩ := List.mem_iff_getElem?.1 hmem
    refine if_neg fun hlive => ?_
    have hpos := h.dropped i cell hcell hlive
    rw [hdropped i cell hcell] at hpos
    exact Nat.lt_irrefl 0 hpos

theorem capture_budget_conserved_sample :
    ∃ s, run step (new {} {}) sampleExchange = some s ∧
      s.budget.used = (s.cells.map CaptureCell.liveBytes).sum ∧
      s.budget.used ≤ 256 * 1024 * 1024 := by
  obtain ⟨s, hrun⟩ := Option.isSome_iff_exists.1
    (show (run step (new {} {}) sampleExchange).isSome = true by decide)
  exact ⟨s, hrun, (capture_budget_conserved hrun).1, (capture_budget_conserved hrun).2.1⟩

end CaptureSystem

end Fluxcope.Capture
