import Fluxcope.Capture.DecodedBytes
import Fluxcope.Capture.FormDecoder
/-!
# Displaying a form

`format_form` shows one line for every pair of a form.  It decodes while it scans,
into a string that takes a limited number of bytes and asks for a cancellation
before each piece it copies.  A cancellation is not taken back, so the check that
found it is the next one again.
-/

namespace Fluxcope.Capture

open Fluxcope.Library Fluxcope.Library.Utf8 Fluxcope.Library.FormUrlencoded

/-- `check` is the number of checks that found no cancellation. -/
structure LimitedString where
  text : Bytes := []
  limit : Nat
  limited : Bool := false
  check : Nat := 0
  deriving DecidableEq, Repr

/-- Why a form is not displayed to its end: the output refused a text, or a
checkpoint found a cancellation. -/
inductive FormStop
  | refused (output : LimitedString)
  | cancelled
  deriving DecidableEq, Repr

abbrev FormWriter (α : Type) := Writer LimitedString FormStop α

structure FormattedBody where
  text : Bytes
  limited : Bool
  deriving DecidableEq, Repr

section Output

variable (cancelled : Nat → Bool)

/-- The loop of `write_str` over the pieces in front of `stop`. -/
def LimitedString.copyPieces (text : Bytes) (stop : Nat) :
    Nat → Nat → LimitedString → Except LimitedString LimitedString
  | 0, _, output => .ok output
  | fuel + 1, start, output =>
    if start < stop then
      if cancelled output.check then .error output
      else
        let chunkEnd := lowerTo (isCharBoundary text) 0
          (min (start + decodeCancellationCheckBytes) stop)
        copyPieces text stop fuel chunkEnd
          { output with
            text := output.text ++ (text.take chunkEnd).drop start
            check := output.check + 1 }
    else .ok output

def LimitedString.writeStr (text : Bytes) : FormWriter Unit := fun output =>
  let remaining := output.limit - output.text.length
  let stop := lowerTo (isCharBoundary text) 0 (min text.length remaining)
  match copyPieces cancelled text stop text.length 0 output with
  | .error output => .error (.refused output)
  | .ok output =>
    if stop < text.length then .error (.refused { output with limited := true })
    else .ok ((), output)

def checkpointFormScan (index checkpoint : Nat) : FormWriter Nat := fun output =>
  if index - checkpoint ≥ decodeCancellationCheckBytes then
    if cancelled output.check then .error .cancelled
    else .ok (index, { output with check := output.check + 1 })
  else .ok (checkpoint, output)

end Output

/-- The variables of the loops of `format_form`; `decoder` holds the decoded bytes
that are not written yet. -/
structure FormScan where
  index : Nat := 0
  checkpoint : Nat := 0
  decoder : Bytes := []
  deriving DecidableEq, Repr

def separator : Bytes := [0x3A, 0x20]

def newline : Bytes := [0x0A]

section Format

variable (flushBytes : Nat) (cancelled : Nat → Bool)

/-- `FormComponentDecoder::push`, which writes out every `flushBytes` bytes. -/
def pushFormByte (bytes : Bytes) (byte : UInt8) : FormWriter Bytes :=
  if (bytes ++ [byte]).length ≥ flushBytes then
    flush (LimitedString.writeStr cancelled) false (bytes ++ [byte])
  else pure (bytes ++ [byte])

/-- `FormComponentDecoder::finish` -/
def finishForm (bytes : Bytes) : FormWriter Bytes :=
  flush (LimitedString.writeStr cancelled) true bytes

def writeWhen (condition : Bool) (text : Bytes) : FormWriter Unit :=
  if condition then LimitedString.writeStr cancelled text else pure ()

def FormScan.advance (scan : FormScan) (consumed : Nat) : FormWriter FormScan := do
  let index := scan.index + consumed
  let checkpoint ← checkpointFormScan cancelled index scan.checkpoint
  pure { scan with index, checkpoint }

/-- The loop over a pair, and whether an equals sign has been passed. -/
def scanPair : Nat → Bytes → Bool → FormScan → FormWriter (Bytes × Bool × FormScan)
  | 0, input, value, scan => pure (input, value, scan)
  | fuel + 1, input, value, scan =>
    match input with
    | [] => pure (input, value, scan)
    | byte :: rest =>
      if byte = ampersand then pure (input, value, scan)
      else if !value && byte = equalsSign then do
        let decoder ← finishForm cancelled scan.decoder
        LimitedString.writeStr cancelled separator
        let scan ← { scan with decoder }.advance cancelled 1
        scanPair fuel rest true scan
      else do
        let (decoded, consumed) := decodeFormByte input
        let decoder ← pushFormByte flushBytes cancelled scan.decoder decoded
        let scan ← { scan with decoder }.advance cancelled consumed
        scanPair fuel (input.drop consumed) value scan

/-- A pair with what is written behind its last component. -/
def formatPair (input : Bytes) (scan : FormScan) : FormWriter (Bytes × FormScan) := do
  let (input, value, scan) ← scanPair flushBytes cancelled input.length input false scan
  let decoder ← finishForm cancelled scan.decoder
  writeWhen cancelled (!value) separator
  pure (input, { scan with decoder })

def formatPairs : Nat → Bytes → Nat → FormScan → FormWriter Unit
  | 0, _, _, _ => pure ()
  | fuel + 1, input, pairCount, scan =>
    match input with
    | [] => pure ()
    | byte :: rest =>
      if byte = ampersand then do
        let scan ← scan.advance cancelled 1
        formatPairs fuel rest pairCount scan
      else do
        writeWhen cancelled (pairCount > 0) newline
        let (input, scan) ← formatPair flushBytes cancelled input scan
        match input with
        | [] => pure ()
        | _ :: rest => do
            let scan ← scan.advance cancelled 1
            formatPairs fuel rest (pairCount + 1) scan

/-- The end of `format_form`, also where the loop was left early. -/
def finishFormatting (output : LimitedString) : Except DecodeContentError FormattedBody := do
  checkContentCancelled cancelled output.check
  pure { text := output.text, limited := output.limited }

def formatFormFlushing (maxOutputBytes : Nat) (input : Bytes) :
    Except DecodeContentError FormattedBody :=
  match formatPairs flushBytes cancelled input.length input 0 {} { limit := maxOutputBytes } with
  | .ok ((), output) => finishFormatting cancelled output
  | .error (.refused output) => finishFormatting cancelled output
  | .error .cancelled => .error .cancelled

def formatForm (maxOutputBytes : Nat) (input : Bytes) : Except DecodeContentError FormattedBody :=
  formatFormFlushing decodeCancellationCheckBytes cancelled maxOutputBytes input

end Format

/-! ## The output as a sink -/

/-- The sink behind the output. -/
def limitedSink (cancelled : Nat → Bool) : Sink LimitedString FormStop where
  size := fun output => output.text.length
  limit := fun output => output.limit
  Extends := fun before text after =>
    after.text = before.text ++ text ∧ after.limit = before.limit ∧ after.limited = before.limited
  Stopped := fun stop =>
    match stop with
    | .refused output => cancelled output.check = true
    | .cancelled => ∃ check, cancelled check = true
  nil := fun output => ⟨(List.append_nil _).symm, rfl, rfl⟩
  append := by
    rintro s t u a b ⟨htext, hlimit, hlimited⟩ ⟨htext', hlimit', hlimited'⟩
    exact ⟨by rw [htext', htext, List.append_assoc], hlimit'.trans hlimit,
      hlimited'.trans hlimited⟩
  size_eq := by
    rintro s t a ⟨htext, -⟩
    rw [htext, List.length_append]
  limit_eq := fun h => h.2.1

section OutputSpec

variable {cancelled : Nat → Bool} {text : Bytes}

/-- A piece takes a character at least. -/
theorem pieceEnd_progress (hvalid : Valid text) {start stop : Nat}
    (hstop : IsBoundary text stop) (hlt : start < stop) (hle : stop ≤ text.length) :
    let chunkEnd := lowerTo (isCharBoundary text) 0
      (min (start + decodeCancellationCheckBytes) stop)
    start < chunkEnd ∧ chunkEnd ≤ stop ∧ IsBoundary text chunkEnd := by
  obtain ⟨low, high, hlow, hhigh, hspan, -, hlowBoundary, hhighBoundary, hbetween⟩ :=
    hvalid.enclosing (i := start) (by omega)
  have hhighStop : high ≤ stop := by
    by_contra hgt
    exact hbetween stop (by omega) (by omega) hstop
  have hchunk : decodeCancellationCheckBytes = 32768 := rfl
  obtain ⟨hge, hwithin, hboundary⟩ := @lowerTo_spec (isCharBoundary text) 0 high
    (min (start + decodeCancellationCheckBytes) stop) (Nat.zero_le _)
    ((isCharBoundary_iff hvalid).2 hhighBoundary) (by omega)
  exact ⟨by omega, by omega, (isCharBoundary_iff hvalid).1 hboundary⟩

/-- The pieces together are what lies in front of `stop`. -/
theorem LimitedString.copyPieces_spec (hvalid : Valid text) {stop : Nat}
    (hstop : IsBoundary text stop) (hle : stop ≤ text.length) {fuel start : Nat}
    (hfuel : stop - start ≤ fuel) (hstart : start ≤ stop)
    (output : LimitedString) :
    (∃ check, copyPieces cancelled text stop fuel start output =
      .ok { output with text := output.text ++ (text.take stop).drop start, check }) ∨
    ∃ stopped, copyPieces cancelled text stop fuel start output = .error stopped ∧
      cancelled stopped.check = true := by
  induction fuel generalizing start output with
  | zero =>
    obtain rfl : start = stop := by omega
    refine .inl ⟨output.check, ?_⟩
    rw [copyPieces, List.drop_of_length_le (by rw [List.length_take]; omega), List.append_nil]
  | succ fuel ih =>
    rw [copyPieces]
    by_cases hlt : start < stop
    · rw [if_pos hlt]
      by_cases hcancelled : cancelled output.check = true
      · rw [if_pos hcancelled]
        exact .inr ⟨output, rfl, hcancelled⟩
      · rw [if_neg hcancelled]
        obtain ⟨hprogress, hwithin, -⟩ := pieceEnd_progress hvalid hstop hlt hle
        dsimp only at hprogress hwithin ⊢
        generalize lowerTo (isCharBoundary text) 0
          (min (start + decodeCancellationCheckBytes) stop) = chunkEnd at *
        have hjoin : (text.take chunkEnd).drop start ++ (text.take stop).drop chunkEnd =
            (text.take stop).drop start := by
          rw [← List.take_append_drop (chunkEnd - start) ((text.take stop).drop start),
            List.drop_drop, Nat.add_sub_cancel' (by omega), List.take_drop,
            Nat.add_sub_cancel' (by omega), List.take_take, Nat.min_eq_left hwithin]
        rcases ih (by omega) hwithin
          { output with
            text := output.text ++ (text.take chunkEnd).drop start
            check := output.check + 1 } with ⟨check, hok⟩ | hstopped
        · refine .inl ⟨check, ?_⟩
          rw [hok, List.append_assoc, hjoin]
        · exact .inr hstopped
    · obtain rfl : start = stop := by omega
      rw [if_neg hlt]
      refine .inl ⟨output.check, ?_⟩
      rw [List.drop_of_length_le (by rw [List.length_take]; omega), List.append_nil]

theorem LimitedString.writeStr_writes (hvalid : Valid text) :
    (limitedSink cancelled).Writes (writeStr cancelled text) text () := by
  have hzero := (isCharBoundary_iff hvalid).2 hvalid.isBoundary_zero
  have hend := isBoundary_length text
  constructor
  · intro output hfit
    have hfit : output.text.length + text.length ≤ output.limit := hfit
    unfold writeStr
    dsimp only
    have hstop : lowerTo (isCharBoundary text) 0
        (min text.length (output.limit - output.text.length)) = text.length := by
      rw [Nat.min_eq_left (by omega)]
      obtain ⟨hge, hle, -⟩ := @lowerTo_spec (isCharBoundary text) 0 _ _
        (Nat.zero_le _) ((isCharBoundary_iff hvalid).2 hend) (Nat.le_refl _)
      exact Nat.le_antisymm hle hge
    rw [hstop]
    rcases @copyPieces_spec cancelled _ hvalid _ hend (Nat.le_refl _) text.length 0
      (Nat.sub_le _ _) (Nat.zero_le _) output with ⟨check, hok⟩ | ⟨stopped, herror, hcancelled⟩
    · rw [hok]
      dsimp only
      rw [if_neg (Nat.lt_irrefl _), List.take_length, List.drop_zero]
      exact .inl ⟨_, rfl, rfl, rfl, rfl⟩
    · rw [herror]
      exact .inr ⟨_, rfl, hcancelled⟩
  · intro output hle hover
    have hover : output.limit < output.text.length + text.length := hover
    have hle : output.text.length ≤ output.limit := hle
    unfold writeStr
    dsimp only
    obtain ⟨-, hwithin, -⟩ := @lowerTo_spec (isCharBoundary text) 0 0
      (min text.length (output.limit - output.text.length)) (Nat.le_refl _) hzero
      (Nat.zero_le _)
    cases copyPieces cancelled text (lowerTo (isCharBoundary text) 0
      (min text.length (output.limit - output.text.length))) text.length 0 output with
    | error stopped => exact ⟨_, rfl⟩
    | ok copied =>
      dsimp only
      rw [if_pos (by omega)]
      exact ⟨_, rfl⟩

theorem checkpointFormScan_writes (index checkpoint : Nat) : ∃ next,
    (limitedSink cancelled).Writes (checkpointFormScan cancelled index checkpoint) [] next := by
  by_cases hdue : index - checkpoint ≥ decodeCancellationCheckBytes
  · refine ⟨index, ⟨fun output _ => ?_, fun output hle hlt => absurd hle (Nat.not_le_of_lt hlt)⟩⟩
    unfold checkpointFormScan
    rw [if_pos hdue]
    by_cases hcancelled : cancelled output.check = true
    · rw [if_pos hcancelled]
      exact .inr ⟨_, rfl, output.check, hcancelled⟩
    · rw [if_neg hcancelled]
      exact .inl ⟨_, rfl, (List.append_nil _).symm, rfl, rfl⟩
  · refine ⟨checkpoint, ⟨fun output _ => ?_, fun output hle hlt =>
      absurd hle (Nat.not_le_of_lt hlt)⟩⟩
    unfold checkpointFormScan
    rw [if_neg hdue]
    exact .inl ⟨_, rfl, (List.append_nil _).symm, rfl, rfl⟩

end OutputSpec

end Fluxcope.Capture
