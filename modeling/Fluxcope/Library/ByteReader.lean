import Mathlib.Data.List.Basic
/-!
# Programs that read bytes

A program asks for the next byte, to look at it or to take it, and does not see where it comes
from.  On two sources that answer alike it ends alike.
-/

namespace Fluxcope.Library

/-- What a program asks for, and the state it goes on in. -/
inductive Request (σ ε α : Type*)
  | peek (answer : Option UInt8 → σ)
  | next (answer : Option UInt8 → σ)
  | done (value : α)
  | fail (error : ε)

/-- A source of bytes; `none` is its end. -/
structure ByteSource (ρ ε : Type*) where
  peek : ρ → Except ε (Option UInt8 × ρ)
  next : ρ → Except ε (Option UInt8 × ρ)

variable {ρ ρ' σ ε α : Type*}

/-- How a program ends on a source, if it does within the steps. -/
def runOn (source : ByteSource ρ ε) (program : σ → Request σ ε α) :
    Nat → σ → ρ → Option (Except ε α × ρ)
  | 0, _, _ => none
  | fuel + 1, s, r =>
    match program s with
    | .done value => some (.ok value, r)
    | .fail error => some (.error error, r)
    | .peek answer =>
      match source.peek r with
      | .ok (b, r) => runOn source program fuel (answer b) r
      | .error error => some (.error error, r)
    | .next answer =>
      match source.next r with
      | .ok (b, r) => runOn source program fuel (answer b) r
      | .error error => some (.error error, r)

/-- Two answers are the same, or the first is an interruption. -/
inductive Answers (interrupted : Prop) (R : ρ → ρ' → Prop) :
    Except ε (Option UInt8 × ρ) → Except ε (Option UInt8 × ρ') → Prop
  | same (b : Option UInt8) (r : ρ) (r' : ρ') (h : R r r') :
      Answers interrupted R (.ok (b, r)) (.ok (b, r'))
  | interruption (error : ε) (answer : Except ε (Option UInt8 × ρ')) (h : interrupted) :
      Answers interrupted R (.error error) answer

/-- The first source answers as the second, unless it is interrupted. -/
structure Follows (interrupted : Prop) (R : ρ → ρ' → Prop) (source : ByteSource ρ ε)
    (other : ByteSource ρ' ε) : Prop where
  peek : ∀ r r', R r r' → Answers interrupted R (source.peek r) (other.peek r')
  next : ∀ r r', R r r' → Answers interrupted R (source.next r) (other.next r')

/-- Two runs end alike, or the first one with an interruption. -/
inductive EndsAlike (interrupted : Prop) (R : ρ → ρ' → Prop) :
    Option (Except ε α × ρ) → Option (Except ε α × ρ') → Prop
  | running : EndsAlike interrupted R none none
  | same (result : Except ε α) (r : ρ) (r' : ρ') (h : R r r') :
      EndsAlike interrupted R (some (result, r)) (some (result, r'))
  | interruption (error : ε) (r : ρ) (other : Option (Except ε α × ρ')) (h : interrupted) :
      EndsAlike interrupted R (some (.error error, r)) other

theorem Follows.runOn {interrupted : Prop} {R : ρ → ρ' → Prop} {source : ByteSource ρ ε}
    {other : ByteSource ρ' ε} (h : Follows interrupted R source other)
    (program : σ → Request σ ε α) (fuel : Nat) {s : σ} {r : ρ} {r' : ρ'} (hR : R r r') :
    EndsAlike interrupted R (Library.runOn source program fuel s r)
      (Library.runOn other program fuel s r') := by
  induction fuel generalizing s r r' with
  | zero => exact .running
  | succ fuel ih =>
    rw [Library.runOn, Library.runOn]
    cases program s with
    | done value => exact .same _ _ _ hR
    | fail error => exact .same _ _ _ hR
    | peek answer =>
      have hasked := h.peek r r' hR
      dsimp only
      generalize source.peek r = asked at hasked ⊢
      generalize other.peek r' = other at hasked ⊢
      cases hasked with
      | same b t t' ht => exact ih ht
      | interruption error _ hi => exact .interruption _ _ _ hi
    | next answer =>
      have hasked := h.next r r' hR
      dsimp only
      generalize source.next r = asked at hasked ⊢
      generalize other.next r' = other at hasked ⊢
      cases hasked with
      | same b t t' ht => exact ih ht
      | interruption error _ hi => exact .interruption _ _ _ hi

/-- A list of bytes as a source. -/
def sliceSource : ByteSource (List UInt8) ε where
  peek bytes := .ok (bytes.head?, bytes)
  next bytes := .ok (bytes.head?, bytes.tail)

end Fluxcope.Library
