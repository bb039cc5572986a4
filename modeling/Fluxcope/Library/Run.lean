import Mathlib.Data.List.Basic
/-!
# Runs of a labelled, partial step function

A system is a function `step : σ → α → Option σ`: the label says which party
moves and how, `none` says that the move is not enabled.  The lemmas below are
the induction rules every safety result of the development goes through.
-/

namespace Fluxcope.Library

variable {σ α : Type*} {step : σ → α → Option σ}

/-- The state reached by performing the labels in order, if all are enabled. -/
def run (step : σ → α → Option σ) : σ → List α → Option σ
  | s, [] => some s
  | s, a :: as => (step s a).bind fun t => run step t as

/-- `Q` holds of the state before each step of the run and of its label. -/
def Along (step : σ → α → Option σ) (Q : σ → α → Prop) : σ → List α → Prop
  | _, [] => True
  | s, a :: as => Q s a ∧ ∀ t, step s a = some t → Along step Q t as

@[simp] theorem run_nil (s : σ) : run step s [] = some s := rfl

@[simp] theorem run_cons (s : σ) (a : α) (as : List α) :
    run step s (a :: as) = (step s a).bind fun t => run step t as := rfl

theorem run_cons_eq_some {s u : σ} {a : α} {as : List α} :
    run step s (a :: as) = some u ↔
      ∃ t, step s a = some t ∧ run step t as = some u := by
  simp [Option.bind_eq_some_iff]

theorem run_append (s : σ) (as bs : List α) :
    run step s (as ++ bs) = (run step s as).bind fun t => run step t bs := by
  induction as generalizing s with
  | nil => rfl
  | cons a as ih =>
    simp only [List.cons_append, run_cons, ih]
    cases step s a <;> rfl

theorem run_append_eq_some {s u : σ} {as bs : List α} :
    run step s (as ++ bs) = some u ↔
      ∃ t, run step s as = some t ∧ run step t bs = some u := by
  simp [run_append, Option.bind_eq_some_iff]

theorem run_snoc_eq_some {s u : σ} {as : List α} {a : α} :
    run step s (as ++ [a]) = some u ↔
      ∃ t, run step s as = some t ∧ step t a = some u := by
  simp [run_append_eq_some]

theorem Along.append_left {Q : σ → α → Prop} {s : σ} {as bs : List α}
    (h : Along step Q s (as ++ bs)) : Along step Q s as := by
  induction as generalizing s with
  | nil => trivial
  | cons a as ih => exact ⟨h.1, fun t ht => ih (h.2 t ht)⟩

theorem Along.append_right {Q : σ → α → Prop} {s t : σ} {as bs : List α}
    (h : Along step Q s (as ++ bs)) (hrun : run step s as = some t) :
    Along step Q t bs := by
  induction as generalizing s with
  | nil =>
    obtain rfl : s = t := by simpa using hrun
    exact h
  | cons a as ih =>
    obtain ⟨u, hu, hrun⟩ := run_cons_eq_some.1 hrun
    exact ih (h.2 u hu) hrun

/-- `Along` spelled out: `Q` holds wherever the run can be cut in front of a label. -/
theorem along_iff {Q : σ → α → Prop} {s : σ} {as : List α} :
    Along step Q s as ↔
      ∀ pre a post t, as = pre ++ a :: post → run step s pre = some t → Q t a := by
  constructor
  · rintro h pre a post t rfl hrun
    exact (h.append_right hrun).1
  · intro h
    induction as generalizing s with
    | nil => trivial
    | cons a as ih =>
      refine ⟨h [] a as s rfl rfl, fun t ht => ih ?_⟩
      rintro pre b post u rfl hrun
      exact h (a :: pre) b post u rfl (run_cons_eq_some.2 ⟨t, ht, hrun⟩)

/-- The invariant rule for runs whose steps all satisfy `Q`. -/
theorem run_invariant_along {Q : σ → α → Prop} {I : σ → Prop}
    (hstep : ∀ s a t, I s → Q s a → step s a = some t → I t) {s t : σ} {as : List α}
    (hs : I s) (hQ : Along step Q s as) (hrun : run step s as = some t) : I t := by
  induction as generalizing s with
  | nil =>
    obtain rfl : s = t := by simpa using hrun
    exact hs
  | cons a as ih =>
    obtain ⟨u, hu, hrun⟩ := run_cons_eq_some.1 hrun
    exact ih (hstep s a u hs hQ.1 hu) (hQ.2 u hu) hrun

instance decidableAlong {Q : σ → α → Prop} [∀ s a, Decidable (Q s a)] :
    ∀ (s : σ) (as : List α), Decidable (Along step Q s as)
  | _, [] => .isTrue trivial
  | s, a :: as =>
    match h : step s a with
    | none => decidable_of_iff (Q s a) ⟨fun hQ => ⟨hQ, fun t ht => by rw [h] at ht; cases ht⟩, And.left⟩
    | some t =>
      have : Decidable (Along step Q t as) := decidableAlong t as
      decidable_of_iff (Q s a ∧ Along step Q t as)
        (and_congr_right fun _ => ⟨fun hall u hu => Option.some.inj (h.symm.trans hu) ▸ hall,
          fun hall => hall t h⟩)

theorem along_of_forall_mem {P : α → Prop} {s : σ} {as : List α} (h : ∀ a ∈ as, P a) :
    Along step (fun _ a => P a) s as := by
  induction as generalizing s with
  | nil => trivial
  | cons a as ih =>
    exact ⟨h a List.mem_cons_self, fun t _ => ih fun b hb => h b (List.mem_cons_of_mem a hb)⟩

theorem along_true {s : σ} {as : List α} : Along step (fun _ _ => True) s as := by
  induction as generalizing s with
  | nil => trivial
  | cons a as ih => exact ⟨trivial, fun t _ => ih⟩

/-- The invariant rule: what the start satisfies and every step keeps, holds at the end. -/
theorem run_invariant {I : σ → Prop} (hstep : ∀ s a t, I s → step s a = some t → I t)
    {s t : σ} {as : List α} (hs : I s) (hrun : run step s as = some t) : I t :=
  run_invariant_along (fun s a t h _ => hstep s a t h) hs along_true hrun

end Fluxcope.Library
