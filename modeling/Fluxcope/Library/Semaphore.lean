import Mathlib.Data.List.Perm.Basic
import Mathlib.Data.List.Nodup
import Mathlib.Data.List.Range
/-!
# A counting semaphore with named permits

The permits are named by the order in which they are handed out, so that one
can say of a permit that it comes back once.
-/

namespace Fluxcope.Library

abbrev Permit := Nat

/-- The free permits, how many were handed out, and those that came back. -/
structure Semaphore where
  available : Nat
  acquired : Nat
  released : List Permit
deriving DecidableEq, Repr

namespace Semaphore

def new (limit : Nat) : Semaphore := { available := limit, acquired := 0, released := [] }

def tryAcquire (semaphore : Semaphore) : Option (Permit × Semaphore) :=
  if semaphore.available = 0 then none
  else some (semaphore.acquired,
    { semaphore with
      available := semaphore.available - 1
      acquired := semaphore.acquired + 1 })

def releaseAll (semaphore : Semaphore) (permits : List Permit) : Semaphore :=
  { semaphore with
    available := semaphore.available + permits.length
    released := semaphore.released ++ permits }

def release (semaphore : Semaphore) (permit : Permit) : Semaphore :=
  semaphore.releaseAll [permit]

/-- The permits out of `limit` that are in somebody's hands are those of the list. -/
structure Accounts (semaphore : Semaphore) (limit : Nat) (held : List Permit) : Prop where
  total : semaphore.available + held.length = limit
  names : (List.range semaphore.acquired).Perm (semaphore.released ++ held)

variable {semaphore : Semaphore} {limit : Nat} {held rest : List Permit} {permit : Permit}

theorem accounts_new (limit : Nat) : (new limit).Accounts limit [] where
  total := rfl
  names := .refl _

theorem Accounts.perm (h : semaphore.Accounts limit held) (hperm : held.Perm rest) :
    semaphore.Accounts limit rest where
  total := hperm.length_eq ▸ h.total
  names := h.names.trans (hperm.append_left _)

theorem Accounts.tryAcquire (h : semaphore.Accounts limit held) {next : Semaphore}
    (hacquire : semaphore.tryAcquire = some (permit, next)) :
    next.Accounts limit (held ++ [permit]) := by
  unfold Semaphore.tryAcquire at hacquire
  split at hacquire
  · cases hacquire
  · rename_i hfree
    cases hacquire
    have htotal := h.total
    refine ⟨?_, ?_⟩
    · rw [List.length_append]
      change semaphore.available - 1 + (held.length + 1) = limit
      omega
    · rw [← List.append_assoc]
      change (List.range (semaphore.acquired + 1)).Perm _
      rw [List.range_succ]
      exact h.names.append_right _

theorem Accounts.releaseAll {permits : List Permit}
    (h : semaphore.Accounts limit (permits ++ rest)) :
    (semaphore.releaseAll permits).Accounts limit rest where
  total := by
    have htotal := h.total
    rw [List.length_append] at htotal
    change semaphore.available + permits.length + rest.length = limit
    omega
  names := by
    change (List.range semaphore.acquired).Perm (semaphore.released ++ permits ++ rest)
    rw [List.append_assoc]
    exact h.names

theorem Accounts.release (h : semaphore.Accounts limit (permit :: rest)) :
    (semaphore.release permit).Accounts limit rest :=
  (@Accounts.releaseAll _ _ _ [permit]) h

theorem Accounts.nodup (h : semaphore.Accounts limit held) :
    (semaphore.released ++ held).Nodup :=
  h.names.nodup_iff.1 List.nodup_range

theorem Accounts.not_released (h : semaphore.Accounts limit held) (hheld : permit ∈ held) :
    permit ∉ semaphore.released := fun hreleased =>
  (List.nodup_append.1 h.nodup).2.2 permit hreleased permit hheld rfl

/-- A permit that was handed out is back or in somebody's hands. -/
theorem Accounts.released_or_held (h : semaphore.Accounts limit held)
    (hpermit : permit < semaphore.acquired) : permit ∈ semaphore.released ∨ permit ∈ held :=
  List.mem_append.1 (h.names.mem_iff.1 (List.mem_range.2 hpermit))

end Semaphore

end Fluxcope.Library
