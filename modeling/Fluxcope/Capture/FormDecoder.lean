import Fluxcope.Library.FormUrlencoded
import Fluxcope.Library.Sink
import Fluxcope.Library.Utf8Lossy
/-!
# Decoding form components

What the two decoders of form components share: resolving an escape and writing
out the decoded bytes as text, keeping back the start of a character.  The source
has these functions twice, once for each kind of output.
-/

namespace Fluxcope.Capture

open Fluxcope.Library Fluxcope.Library.Utf8 Fluxcope.Library.FormUrlencoded

def hexValue (byte : UInt8) : Option UInt8 :=
  if 0x30 ≤ byte && byte ≤ 0x39 then some (byte - 0x30)
  else if 0x61 ≤ byte && byte ≤ 0x66 then some (byte - 0x61 + 10)
  else if 0x41 ≤ byte && byte ≤ 0x46 then some (byte - 0x41 + 10)
  else none

/-- The first decoded byte and the number of bytes it is read from. -/
def decodeFormByte (input : Bytes) : UInt8 × Nat :=
  match input with
  | [] => (0, 0)  -- unreachable in the source
  | byte :: rest =>
    if byte = 0x2B then (0x20, 1)
    else if byte = 0x25 then
      match rest with
      | high :: low :: _ =>
        match hexValue high, hexValue low with
        | some high, some low => (high <<< 4 ||| low, 3)
        | _, _ => (0x25, 1)
      | _ => (byte, 1)
    else (byte, 1)

section Flush

variable {S E : Type} (write : Bytes → Writer S E Unit)

/-- The text in front of an error. -/
def writeValid (bytes : Bytes) (validUpTo : Nat) : Writer S E Unit :=
  if 0 < validUpTo then write (bytes.take validUpTo) else pure ()

/-- The loop of `flush`; the bytes that remain are returned. -/
def flushLoop (finalChunk : Bool) : Nat → Bytes → Writer S E Bytes
  | 0, bytes => pure bytes
  | fuel + 1, bytes =>
    if bytes = [] then pure []
    else
      match fromUtf8 bytes with
      | none => do
          write bytes
          pure []
      | some error => do
          writeValid write bytes error.validUpTo
          match error.errorLen with
          | some length => do
              write replacement
              flushLoop finalChunk fuel (bytes.drop (error.validUpTo + length))
          | none =>
            if finalChunk then do
              write replacement
              pure []
            else pure (bytes.drop error.validUpTo)

def flush (finalChunk : Bool) (bytes : Bytes) : Writer S E Bytes :=
  flushLoop write finalChunk bytes.length bytes

end Flush

/-! ## Escapes -/

/-- A byte is decoded from its component alone: what follows is no digit. -/
theorem decodeFormByte_append {piece tail : Bytes} (hne : piece ≠ [])
    (htail : ∀ b rest, tail = b :: rest → hexValue b = none) :
    ∃ byte consumed, decodeFormByte (piece ++ tail) = (byte, consumed) ∧ 0 < consumed ∧
      consumed ≤ piece.length ∧
      componentBytes piece = byte :: componentBytes (piece.drop consumed) := by
  cases piece with
  | nil => exact absurd rfl hne
  | cons byte rest =>
    rw [List.cons_append]
    by_cases hplus : byte = plusSign
    · subst hplus
      exact ⟨0x20, 1, rfl, by omega, by simp, componentBytes_plus rest⟩
    by_cases hpercent : byte = percentSign
    · subst hpercent
      have halone : (∀ high low more, rest = high :: low :: more →
          hexDigitValue high = none ∨ hexDigitValue low = none) →
          decodeFormByte (percentSign :: (rest ++ tail)) = (percentSign, 1) →
          ∃ byte consumed, decodeFormByte (percentSign :: (rest ++ tail)) = (byte, consumed) ∧
            0 < consumed ∧ consumed ≤ (percentSign :: rest).length ∧
            componentBytes (percentSign :: rest) =
              byte :: componentBytes ((percentSign :: rest).drop consumed) := by
        intro hnone hdecode
        exact ⟨percentSign, 1, hdecode, by omega, by simp, componentBytes_percent hnone⟩
      have hfront : decodeFormByte (percentSign :: (rest ++ tail)) =
          match rest ++ tail with
          | high :: low :: _ =>
            match hexValue high, hexValue low with
            | some high, some low => (high <<< 4 ||| low, 3)
            | _, _ => (0x25, 1)
          | _ => (percentSign, 1) := rfl
      match hrest : rest with
      | [] =>
        refine halone (by intros; contradiction) ?_
        rw [hfront, List.nil_append]
        cases htailEq : tail with
        | nil => rfl
        | cons b more =>
          cases more with
          | nil => rfl
          | cons low more =>
            dsimp only
            rw [htail b _ htailEq]
            rfl
      | [high] =>
        refine halone (by intros; simp_all) ?_
        rw [hfront, List.singleton_append]
        cases htailEq : tail with
        | nil => rfl
        | cons b more =>
          dsimp only
          rw [htail b _ htailEq]
          cases hexValue high <;> rfl
      | high :: low :: more =>
        rw [List.cons_append, List.cons_append] at hfront ⊢
        rw [List.cons_append, List.cons_append] at halone
        cases hhigh : hexValue high with
        | none =>
          refine halone ?_ ?_
          · intro high' low' more' heq
            cases heq
            exact .inl hhigh
          · rw [hfront]
            dsimp only
            rw [hhigh]
            rfl
        | some h =>
          cases hlow : hexValue low with
          | none =>
            refine halone ?_ ?_
            · intro high' low' more' heq
              cases heq
              exact .inr hlow
            · rw [hfront]
              dsimp only
              rw [hhigh, hlow]
              rfl
          | some l =>
            refine ⟨h <<< 4 ||| l, 3, ?_, by omega, by simp, ?_⟩
            · rw [hfront]
              dsimp only
              rw [hhigh, hlow]
            · exact componentBytes_escape hhigh hlow more
    · refine ⟨byte, 1, ?_, by omega, by simp, componentBytes_other hplus hpercent rest⟩
      unfold decodeFormByte
      dsimp only
      exact (if_neg hplus).trans (if_neg hpercent)

/-! ## Flushing -/

section FlushSpec

variable {S E : Type} {sink : Sink S E} {write : Bytes → Writer S E Unit}

theorem writeValid_writes (hwrite : ∀ text, Valid text → sink.Writes (write text) text ())
    {text rest : Bytes} (htext : Valid text) :
    sink.Writes (writeValid write (text ++ rest) text.length) text () := by
  unfold writeValid
  split
  · rw [List.take_left]
    exact hwrite text htext
  · rename_i hpos
    have hnil : text = [] := List.length_eq_zero_iff.1 (by omega)
    rw [hnil]
    exact .pure ()

/-- The bytes written and the bytes kept stand for the bytes flushed, whatever follows. -/
theorem flushLoop_false (hwrite : ∀ text, Valid text → sink.Writes (write text) text ())
    {fuel : Nat} {bytes : Bytes} (hfuel : bytes.length ≤ fuel) :
    ∃ text kept, sink.Writes (flushLoop write false fuel bytes) text kept ∧
      ∀ future, fromUtf8Lossy (bytes ++ future) = text ++ fromUtf8Lossy (kept ++ future) := by
  induction fuel generalizing bytes with
  | zero => exact ⟨[], bytes, .pure bytes, fun future => rfl⟩
  | succ fuel ih =>
    rw [flushLoop]
    by_cases hempty : bytes = []
    · rw [if_pos hempty, hempty]
      exact ⟨[], [], .pure [], fun future => rfl⟩
    rw [if_neg hempty]
    cases herror : fromUtf8 bytes with
    | none =>
      have hvalid := fromUtf8_eq_none_iff.1 herror
      exact ⟨bytes, [], (hwrite bytes hvalid).bind_pure (.pure []),
        fun future => fromUtf8Lossy_valid_append hvalid future⟩
    | some error =>
      obtain ⟨text, rest, rfl, htext, hupTo, hrest⟩ := fromUtf8_error herror
      dsimp only
      rw [hupTo]
      cases hlen : error.errorLen with
      | none =>
        dsimp only
        rw [if_neg Bool.false_ne_true, List.drop_left]
        refine ⟨text, rest, (writeValid_writes hwrite htext).bind_pure (.pure rest),
          fun future => ?_⟩
        rw [List.append_assoc, fromUtf8Lossy_valid_append htext]
      | some length =>
        rw [hlen] at hrest
        obtain ⟨-, hpos, hle⟩ := front_malformed_append hrest []
        rw [List.length_append] at hfuel
        have hdrop : (text ++ rest).drop (text.length + length) = rest.drop length := by
          rw [← List.drop_drop, List.drop_left]
        obtain ⟨more, kept, hmore, hfuture⟩ :=
          @ih (rest.drop length) (by rw [List.length_drop]; omega)
        dsimp only
        rw [hdrop]
        refine ⟨text ++ (replacement ++ more), kept, (writeValid_writes hwrite htext).bind
          ((hwrite _ valid_replacement).bind hmore), fun future => ?_⟩
        rw [List.append_assoc, fromUtf8Lossy_valid_append htext,
          fromUtf8Lossy_malformed hrest, hfuture, List.append_assoc, List.append_assoc]

/-- The last flush writes the lossy decoding of what is left. -/
theorem flushLoop_true (hwrite : ∀ text, Valid text → sink.Writes (write text) text ())
    {fuel : Nat} {bytes : Bytes} (hfuel : bytes.length ≤ fuel) :
    sink.Writes (flushLoop write true fuel bytes) (fromUtf8Lossy bytes) [] := by
  induction fuel generalizing bytes with
  | zero =>
    obtain rfl := List.length_eq_zero_iff.1 (Nat.le_zero.1 hfuel)
    exact .pure []
  | succ fuel ih =>
    rw [flushLoop]
    by_cases hempty : bytes = []
    · rw [if_pos hempty, hempty]
      exact .pure []
    rw [if_neg hempty]
    cases herror : fromUtf8 bytes with
    | none =>
      have hvalid := fromUtf8_eq_none_iff.1 herror
      rw [fromUtf8Lossy_of_valid hvalid]
      exact (hwrite bytes hvalid).bind_pure (.pure [])
    | some error =>
      obtain ⟨text, rest, rfl, htext, hupTo, hrest⟩ := fromUtf8_error herror
      dsimp only
      rw [hupTo, fromUtf8Lossy_valid_append htext]
      cases hlen : error.errorLen with
      | none =>
        rw [hlen] at hrest
        rw [fromUtf8Lossy_cut hrest]
        exact (writeValid_writes hwrite htext).bind
          ((hwrite _ valid_replacement).bind_pure (.pure []))
      | some length =>
        rw [hlen] at hrest
        obtain ⟨-, hpos, hle⟩ := front_malformed_append hrest []
        have hstep := fromUtf8Lossy_malformed hrest []
        rw [List.append_nil, List.append_nil] at hstep
        rw [List.length_append] at hfuel
        have hdrop : (text ++ rest).drop (text.length + length) = rest.drop length := by
          rw [← List.drop_drop, List.drop_left]
        dsimp only
        rw [hdrop, hstep]
        exact (writeValid_writes hwrite htext).bind ((hwrite _ valid_replacement).bind
          (ih (by rw [List.length_drop]; omega)))

theorem flush_false (hwrite : ∀ text, Valid text → sink.Writes (write text) text ())
    (bytes : Bytes) : ∃ text kept, sink.Writes (flush write false bytes) text kept ∧
      ∀ future, fromUtf8Lossy (bytes ++ future) = text ++ fromUtf8Lossy (kept ++ future) :=
  flushLoop_false hwrite (Nat.le_refl _)

theorem flush_true (hwrite : ∀ text, Valid text → sink.Writes (write text) text ())
    (bytes : Bytes) : sink.Writes (flush write true bytes) (fromUtf8Lossy bytes) [] :=
  flushLoop_true hwrite (Nat.le_refl _)

end FlushSpec

end Fluxcope.Capture
