import Fluxcope.Library.Utf8
/-!
# Writing to a sink with a limit

A sink takes texts until they no longer fit.  A writer that writes a text in any
number of pieces succeeds exactly when the whole text fits, unless the sink stops
it for a reason of its own.
-/

namespace Fluxcope.Library

open Utf8

/-- A sink with states `S` and failures `E`. -/
structure Sink (S E : Type) where
  size : S → Nat
  limit : S → Nat
  /-- The second state is the first one with the text behind it. -/
  Extends : S → Bytes → S → Prop
  /-- The failures that do not come from the limit. -/
  Stopped : E → Prop
  nil : ∀ s, Extends s [] s
  append : ∀ {s t u a b}, Extends s a t → Extends t b u → Extends s (a ++ b) u
  size_eq : ∀ {s t a}, Extends s a t → size t = size s + a.length
  limit_eq : ∀ {s t a}, Extends s a t → limit t = limit s

/-- A computation that writes to a sink. -/
abbrev Writer (S E α : Type) := StateT S (Except E) α

namespace Sink

variable {S E α β : Type} {sink : Sink S E}

/-- `m` writes `text` and returns `a`, as far as the text fits. -/
structure Writes (sink : Sink S E) (m : Writer S E α) (text : Bytes) (a : α) : Prop where
  fits : ∀ s, sink.size s + text.length ≤ sink.limit s →
    (∃ t, m s = .ok (a, t) ∧ sink.Extends s text t) ∨ ∃ e, m s = .error e ∧ sink.Stopped e
  overflows : ∀ s, sink.size s ≤ sink.limit s → sink.limit s < sink.size s + text.length →
    ∃ e, m s = .error e

theorem Writes.pure (a : α) : sink.Writes (Pure.pure a) [] a where
  fits := fun s _ => .inl ⟨s, rfl, sink.nil s⟩
  overflows := fun _ hle hlt => absurd hle (Nat.not_le_of_lt hlt)

theorem Writes.bind {m : Writer S E α} {f : α → Writer S E β} {left right : Bytes} {a : α} {b : β}
    (hm : sink.Writes m left a) (hf : sink.Writes (f a) right b) :
    sink.Writes (m >>= f) (left ++ right) b := by
  have hbind : ∀ s, (m >>= f) s = (m s).bind fun p => f p.1 p.2 := fun s => rfl
  constructor
  · intro s hfit
    rw [List.length_append] at hfit
    rw [hbind]
    rcases hm.fits s (by omega) with ⟨t, hms, hext⟩ | ⟨e, hms, hstop⟩
    · have hsize := sink.size_eq hext
      have hlimit := sink.limit_eq hext
      rw [hms]
      rcases hf.fits t (by omega) with ⟨u, hft, hext'⟩ | ⟨e, hft, hstop⟩
      · exact .inl ⟨u, hft, sink.append hext hext'⟩
      · exact .inr ⟨e, hft, hstop⟩
    · rw [hms]
      exact .inr ⟨e, rfl, hstop⟩
  · intro s hle hlt
    rw [List.length_append] at hlt
    rw [hbind]
    by_cases hfit : sink.size s + left.length ≤ sink.limit s
    · rcases hm.fits s hfit with ⟨t, hms, hext⟩ | ⟨e, hms, -⟩
      · have hsize := sink.size_eq hext
        have hlimit := sink.limit_eq hext
        rw [hms]
        exact hf.overflows t (by omega) (by omega)
      · rw [hms]
        exact ⟨e, rfl⟩
    · obtain ⟨e, hms⟩ := hm.overflows s hle (Nat.lt_of_not_le hfit)
      rw [hms]
      exact ⟨e, rfl⟩

/-- Writing nothing first. -/
theorem Writes.bind_nil {m : Writer S E α} {f : α → Writer S E β} {text : Bytes} {a : α} {b : β}
    (hm : sink.Writes m [] a) (hf : sink.Writes (f a) text b) : sink.Writes (m >>= f) text b :=
  hm.bind hf

/-- Writing nothing behind it. -/
theorem Writes.bind_pure {m : Writer S E α} {f : α → Writer S E β} {text : Bytes} {a : α} {b : β}
    (hm : sink.Writes m text a) (hf : sink.Writes (f a) [] b) : sink.Writes (m >>= f) text b := by
  have h := hm.bind hf
  rwa [List.append_nil] at h

theorem Writes.congr {m : Writer S E α} {text other : Bytes} {a : α}
    (h : sink.Writes m text a) (heq : text = other) : sink.Writes m other a := heq ▸ h

/-- Where the sink stops nobody, a writer succeeds exactly when the text fits. -/
theorem Writes.ok_iff {m : Writer S E α} {text : Bytes} {a : α} (h : sink.Writes m text a)
    (hstop : ∀ e, ¬ sink.Stopped e) {s : S} (hsize : sink.size s ≤ sink.limit s) :
    (∃ t, m s = .ok (a, t) ∧ sink.Extends s text t) ↔
      sink.size s + text.length ≤ sink.limit s := by
  constructor
  · rintro ⟨t, hok, -⟩
    by_contra hfit
    obtain ⟨e, herror⟩ := h.overflows s hsize (Nat.lt_of_not_le hfit)
    rw [hok] at herror
    cases herror
  · intro hfit
    rcases h.fits s hfit with hok | ⟨e, -, hstopped⟩
    · exact hok
    · exact absurd hstopped (hstop e)

end Sink

end Fluxcope.Library
