import Mathlib.Tactic.Basic
/-!
# Computations that can be cancelled

A computation asks at numbered checks whether it is cancelled.  Whatever the
answers are, it ends as it would without them, or with the error of a
cancellation.
-/

namespace Fluxcope.Library

/-- The state is the number of the next check. -/
abbrev Checked (ε α : Type) := StateT Nat (Except ε) α

namespace Checked

variable {ε α β : Type}

def check (cancelled : Nat → Bool) (error : ε) : Checked ε Unit :=
  fun n => if cancelled n then .error error else .ok ((), n + 1)

/-- How a computation ends that begins with the check `n`. -/
def outcome (m : Checked ε α) (n : Nat) : Except ε α := (m n).map Prod.fst

/-- The end of `m` is `r`, unless a check finds it cancelled. -/
def Computes (cancelled : Nat → Bool) (error : ε) (m : Checked ε α) (r : Except ε α) : Prop :=
  ∀ n, m.outcome n = r ∨ m.outcome n = .error error ∧ ∃ k, cancelled k = true

variable {cancelled : Nat → Bool} {error : ε}

theorem Computes.pure (a : α) : Computes cancelled error (Pure.pure a) (.ok a) := fun _ => .inl rfl

theorem Computes.throw (e : ε) : Computes cancelled error (throw e : Checked ε α) (.error e) :=
  fun _ => .inl rfl

theorem Computes.check : Computes cancelled error (check cancelled error) (.ok ()) := by
  intro n
  unfold outcome Checked.check
  split
  case isTrue hcancelled => exact .inr ⟨rfl, n, hcancelled⟩
  case isFalse => exact .inl rfl

theorem Computes.bind {m : Checked ε α} {f : α → Checked ε β} {a : α} {r : Except ε β}
    (hm : Computes cancelled error m (.ok a)) (hf : Computes cancelled error (f a) r) :
    Computes cancelled error (m >>= f) r := by
  intro n
  have hbind : (m >>= f) n = (m n).bind fun p => f p.1 p.2 := rfl
  have hstart := hm n
  unfold outcome at hstart ⊢
  rw [hbind]
  cases hmn : m n with
  | error e =>
    rw [hmn] at hstart
    rcases hstart with h | ⟨h, hcancelled⟩
    · cases h
    · cases h
      exact .inr ⟨rfl, hcancelled⟩
  | ok p =>
    rw [hmn] at hstart
    rcases hstart with h | ⟨h, -⟩
    · cases h
      exact hf p.2
    · cases h

theorem Computes.foldlM {γ : Type} {step : α → γ → Checked ε α} {next : α → γ → α} {xs : List γ}
    (h : ∀ state, ∀ x ∈ xs, Computes cancelled error (step state x) (.ok (next state x)))
    (state : α) : Computes cancelled error (xs.foldlM step state) (.ok (xs.foldl next state)) := by
  induction xs generalizing state with
  | nil => exact .pure state
  | cons x xs ih =>
    rw [List.foldlM_cons, List.foldl_cons]
    exact (h state x List.mem_cons_self).bind
      (ih (fun state y hy => h state y (List.mem_cons_of_mem x hy)) (next state x))

theorem Computes.bind_error {m : Checked ε α} {f : α → Checked ε β} {e : ε}
    (hm : Computes cancelled error m (.error e)) :
    Computes cancelled error (m >>= f) (.error e) := by
  intro n
  have hbind : (m >>= f) n = (m n).bind fun p => f p.1 p.2 := rfl
  have hstart := hm n
  unfold outcome at hstart ⊢
  rw [hbind]
  cases hmn : m n with
  | error e' =>
    rw [hmn] at hstart
    rcases hstart with h | ⟨h, hcancelled⟩
    · cases h
      exact .inl rfl
    · cases h
      exact .inr ⟨rfl, hcancelled⟩
  | ok p =>
    rw [hmn] at hstart
    rcases hstart with h | ⟨h, -⟩ <;> cases h

theorem Computes.uncancelled {m : Checked ε α} {r : Except ε α}
    (h : Computes cancelled error m r) (hcancelled : ∀ k, cancelled k = false) (n : Nat) :
    m.outcome n = r := by
  rcases h n with hend | ⟨-, k, hk⟩
  · exact hend
  · rw [hcancelled k] at hk
    cases hk

/-- The answer of `m` is whether `P` holds. -/
def Decides (cancelled : Nat → Bool) (error : ε) (m : Checked ε Bool) (P : Prop) : Prop :=
  ∃ b, Computes cancelled error m (.ok b) ∧ (b = true ↔ P)

theorem Decides.pure {b : Bool} {P : Prop} (h : b = true ↔ P) :
    Decides cancelled error (Pure.pure b) P := ⟨b, .pure b, h⟩

theorem Decides.congr {m : Checked ε Bool} {P Q : Prop} (h : Decides cancelled error m P)
    (hPQ : P ↔ Q) : Decides cancelled error m Q := by
  obtain ⟨b, hb, hP⟩ := h
  exact ⟨b, hb, hP.trans hPQ⟩

theorem Decides.after {m : Checked ε α} {f : α → Checked ε Bool} {a : α} {P : Prop}
    (hm : Computes cancelled error m (.ok a)) (hf : Decides cancelled error (f a) P) :
    Decides cancelled error (m >>= f) P := by
  obtain ⟨b, hb, hP⟩ := hf
  exact ⟨b, hm.bind hb, hP⟩

theorem Decides.branch {test left right : Checked ε Bool} {P Q : Prop}
    (htest : Decides cancelled error test P) (hleft : P → Decides cancelled error left Q)
    (hright : ¬ P → Decides cancelled error right Q) :
    Decides cancelled error (test >>= fun b => if b = true then left else right) Q := by
  obtain ⟨b, hb, hP⟩ := htest
  cases b with
  | true => exact .after hb (hleft (hP.1 rfl))
  | false => exact .after hb (hright fun h => Bool.false_ne_true (hP.2 h))

theorem Decides.uncancelled {m : Checked ε Bool} {P : Prop} (h : Decides cancelled error m P)
    (hcancelled : ∀ k, cancelled k = false) (n : Nat) :
    ∃ b, m.outcome n = .ok b ∧ (b = true ↔ P) := by
  obtain ⟨b, hb, hP⟩ := h
  exact ⟨b, hb.uncancelled hcancelled n, hP⟩

end Checked

end Fluxcope.Library
