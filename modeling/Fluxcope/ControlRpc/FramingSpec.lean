import Fluxcope.ControlRpc.Framing
/-!
# What the frame codec promises

The writer ends with a frame when the payload fits its cap, the four bytes of the length and
a `usize`; the reader takes just the frame; and the parsers of small and of large payloads
are one deserializer on two sources.
-/

namespace Fluxcope.ControlRpc

open Fluxcope.Library Fluxcope.Library.Utf8 Fluxcope.Control

/-! ## The reservation -/

theorem growTarget_spec {required maximum fuel target : Nat} (hmaximum : required ≤ maximum)
    (hword : maximum ≤ wordMax) (htarget : target ≤ maximum)
    (hfuel : required ≤ target * 2 ^ fuel) :
    ∃ grown, growTarget required maximum (fuel + 1) target = some (.ok grown) ∧
      required ≤ grown ∧ grown ≤ maximum := by
  induction fuel generalizing target with
  | zero =>
    rw [Nat.pow_zero, Nat.mul_one] at hfuel
    refine ⟨target, ?_, hfuel, htarget⟩
    rw [growTarget, if_neg (Nat.not_lt.2 hfuel)]
  | succ fuel ih =>
    rw [growTarget]
    by_cases hsmall : target < required
    · rw [if_pos hsmall]
      dsimp only
      by_cases hdouble : target * 2 < required
      · have hnext : min (satMul target 2) maximum = target * 2 := by
          rw [satMul_eq (by omega)]
          omega
        rw [hnext, if_neg (by omega)]
        refine ih (by omega) ?_
        rw [Nat.pow_succ] at hfuel
        rw [Nat.mul_assoc, Nat.mul_comm 2]
        exact hfuel
      · have hge : required ≤ min (satMul target 2) maximum := by
          unfold satMul
          omega
        have hle : min (satMul target 2) maximum ≤ maximum := Nat.min_le_right _ _
        rw [if_neg fun h => absurd h.1 (Nat.not_lt.2 hge)]
        exact ih hle (hge.trans (Nat.le_mul_of_pos_right _ (Nat.two_pow_pos fuel)))
    · rw [if_neg hsmall]
      exact ⟨target, rfl, Nat.le_of_not_lt hsmall, htarget⟩

/-- What holds of a writer that has taken `payload` under a cap. -/
structure CappedFrameWriter.Wrote (cap : Nat) (writer : CappedFrameWriter) (payload : Bytes) :
    Prop where
  bytes : writer.buffer.bytes = [0, 0, 0, 0] ++ payload
  maxPayloadBytes : writer.maxPayloadBytes = cap
  overflowed : writer.overflowed = false
  fits : payload.length ≤ cap
  capacity_ge : 4 + payload.length ≤ writer.buffer.capacity
  capacity_le : writer.buffer.capacity ≤ cap + 4

namespace CappedFrameWriter

theorem wrote_new (cap : Nat) : (new cap).Wrote cap [] where
  bytes := rfl
  maxPayloadBytes := rfl
  overflowed := rfl
  fits := Nat.zero_le _
  capacity_ge := Nat.le_refl _
  capacity_le := Nat.le_add_left _ _

variable {cap : Nat} {writer : CappedFrameWriter} {payload : Bytes}

theorem Wrote.length (h : writer.Wrote cap payload) :
    writer.buffer.bytes.length = 4 + payload.length := by
  rw [h.bytes, List.length_append]
  rfl

theorem reserveFor_spec (h : writer.Wrote cap payload) (hcap : cap + 4 ≤ wordMax)
    {additional : Nat} (hroom : payload.length + additional ≤ cap) :
    ∃ capacity, writer.reserveFor additional =
        some (.ok { writer with buffer := { writer.buffer with capacity } }) ∧
      4 + payload.length + additional ≤ capacity ∧ capacity ≤ cap + 4 := by
  have hlength := h.length
  have hge := h.capacity_ge
  have hle := h.capacity_le
  unfold reserveFor
  dsimp only
  rw [hlength, if_neg (by omega)]
  by_cases hfits : 4 + payload.length + additional ≤ writer.buffer.capacity
  · rw [if_pos hfits]
    exact ⟨writer.buffer.capacity, rfl, hfits, hle⟩
  · rw [if_neg hfits, h.maxPayloadBytes, if_neg (by omega)]
    have hmax : max writer.buffer.capacity 4 = writer.buffer.capacity := by omega
    have hpow : 4 + payload.length + additional ≤ writer.buffer.capacity * 2 ^ 63 := by
      have hword : wordMax = 2 ^ 64 - 1 := rfl
      omega
    obtain ⟨grown, hgrown, hgrownGe, hgrownLe⟩ :=
      @growTarget_spec (4 + payload.length + additional) (cap + 4) 63 writer.buffer.capacity
        (by omega) hcap hle hpow
    refine ⟨grown, ?_, hgrownGe, hgrownLe⟩
    rw [hmax, hgrown]
    dsimp only [Option.map_some, Except.map]
    unfold Vec.reserveExact
    rw [hlength, if_neg (by omega)]
    have hsum : 4 + payload.length + (grown - (4 + payload.length)) = grown := by omega
    rw [hsum]

theorem write_of_fits (h : writer.Wrote cap payload) (hcap : cap + 4 ≤ wordMax) {chunk : Bytes}
    (hroom : payload.length + chunk.length ≤ cap) :
    ∃ written, writer.write chunk = some (.ok written) ∧
      written.Wrote cap (payload ++ chunk) := by
  obtain ⟨capacity, hreserved, hge, hle⟩ := reserveFor_spec h hcap hroom
  have hlength := h.length
  unfold write
  dsimp only
  rw [hlength, Nat.add_sub_cancel_left, h.maxPayloadBytes, if_neg (by omega), if_neg (by omega),
    hreserved]
  refine ⟨_, rfl, ?_, h.maxPayloadBytes, h.overflowed, ?_, ?_, hle⟩
  · dsimp only [Vec.extend]
    rw [h.bytes, List.append_assoc]
  · rw [List.length_append]
    exact hroom
  · rw [List.length_append]
    dsimp only [Vec.extend]
    omega

theorem write_of_overflow (h : writer.Wrote cap payload) {chunk : Bytes}
    (hover : cap < payload.length + chunk.length) :
    writer.write chunk = some (.error { writer with overflowed := true }) := by
  unfold write
  dsimp only
  rw [h.length, Nat.add_sub_cancel_left, h.maxPayloadBytes]
  by_cases hword : payload.length + chunk.length > wordMax
  · rw [if_pos hword]
  · rw [if_neg hword, if_pos hover]

theorem writeAll_of_fits (hcap : cap + 4 ≤ wordMax) {chunks : List Bytes}
    (h : writer.Wrote cap payload) (hroom : payload.length + chunks.flatten.length ≤ cap) :
    ∃ written, writer.writeAll chunks = some (.ok written) ∧
      written.Wrote cap (payload ++ chunks.flatten) := by
  induction chunks generalizing writer payload with
  | nil =>
    rw [List.flatten_nil, List.append_nil]
    exact ⟨writer, rfl, h⟩
  | cons chunk chunks ih =>
    rw [List.flatten_cons, List.length_append] at hroom
    rw [writeAll, List.flatten_cons, ← List.append_assoc]
    by_cases hempty : chunk = []
    · subst hempty
      rw [if_pos rfl, List.append_nil]
      exact ih h (by simpa using hroom)
    · have hchunk : payload.length + chunk.length ≤ cap := by omega
      obtain ⟨written, hwrite, hwrote⟩ := write_of_fits h hcap hchunk
      rw [if_neg hempty, hwrite, Option.bind_some]
      refine ih hwrote ?_
      rw [List.length_append]
      omega

theorem writeAll_of_overflow (hcap : cap + 4 ≤ wordMax) {chunks : List Bytes}
    (h : writer.Wrote cap payload) (hover : cap < payload.length + chunks.flatten.length) :
    ∃ failed, writer.writeAll chunks = some (.error failed) ∧ failed.overflowed = true := by
  induction chunks generalizing writer payload with
  | nil =>
    have hfits := h.fits
    rw [List.flatten_nil, List.length_nil] at hover
    omega
  | cons chunk chunks ih =>
    rw [List.flatten_cons, List.length_append] at hover
    rw [writeAll]
    by_cases hempty : chunk = []
    · subst hempty
      rw [if_pos rfl]
      exact ih h (by simpa using hover)
    · rw [if_neg hempty]
      by_cases hroom : payload.length + chunk.length ≤ cap
      · obtain ⟨written, hwrite, hwrote⟩ := write_of_fits h hcap hroom
        rw [hwrite, Option.bind_some]
        refine ih hwrote ?_
        rw [List.length_append]
        omega
      · rw [write_of_overflow h (Nat.lt_of_not_le hroom), Option.bind_some]
        exact ⟨_, rfl, rfl⟩

end CappedFrameWriter

/-! ## The frame -/

theorem fromBeBytes_toBeBytes {n : Nat} (h : n < 2 ^ 32) : fromBeBytes (toBeBytes n) = n := by
  unfold fromBeBytes toBeBytes
  simp only [List.foldl_cons, List.foldl_nil, UInt8.toNat_ofNat']
  omega

theorem readExact_append (front back : Bytes) :
    readExact (front ++ back) front.length = some (front, back) := by
  unfold readExact
  rw [if_pos (by rw [List.length_append]; omega), List.take_left, List.drop_left]

/-- The frame of a payload. -/
def frameOf (payload : Bytes) : Bytes := toBeBytes payload.length ++ payload

theorem readFramePayload_frameOf {payload : Bytes} {cap : Nat} (hword : payload.length < 2 ^ 32)
    (hcap : payload.length ≤ cap) (rest : Bytes) :
    readFramePayload (frameOf payload ++ rest) cap = .ok (payload, rest) := by
  have hlength : readExact (frameOf payload ++ rest) 4 =
      some (toBeBytes payload.length, payload ++ rest) := by
    rw [frameOf, List.append_assoc]
    exact readExact_append (toBeBytes payload.length) _
  unfold readFramePayload
  rw [hlength]
  dsimp only
  rw [fromBeBytes_toBeBytes hword, if_neg (Nat.not_lt.2 hcap), readExact_append]

/-- A cap that leaves no room for the header in a `usize` is an error of the reservation. -/
theorem write_of_hugeCap {cap : Nat} (hcap : wordMax < cap + 4) {chunk : Bytes}
    (hchunk : chunk ≠ []) :
    ∃ failed, (CappedFrameWriter.new cap).write chunk = some (.error failed) := by
  have hpos := List.length_pos_iff.2 hchunk
  have hreserve : (CappedFrameWriter.new cap).reserveFor chunk.length = some (.error ()) := by
    have hbuffer : (CappedFrameWriter.new cap).buffer = ⟨[0, 0, 0, 0], 4⟩ := rfl
    have hmax : (CappedFrameWriter.new cap).maxPayloadBytes = cap := rfl
    unfold CappedFrameWriter.reserveFor
    rw [hbuffer, hmax]
    dsimp only [List.length_cons, List.length_nil]
    by_cases hword : 0 + 1 + 1 + 1 + 1 + chunk.length > wordMax
    · rw [if_pos hword]
    · rw [if_neg hword, if_neg (by omega), if_pos hcap]
  unfold CappedFrameWriter.write
  dsimp only
  split
  · exact ⟨_, rfl⟩
  · split
    · exact ⟨_, rfl⟩
    · rw [hreserve]
      exact ⟨_, rfl⟩

theorem writeAll_of_hugeCap {cap : Nat} (hcap : wordMax < cap + 4) {chunks : List Bytes}
    (hchunks : chunks.flatten ≠ []) :
    ∃ failed, (CappedFrameWriter.new cap).writeAll chunks = some (.error failed) := by
  induction chunks with
  | nil => exact absurd rfl hchunks
  | cons chunk chunks ih =>
    rw [CappedFrameWriter.writeAll]
    by_cases hempty : chunk = []
    · subst hempty
      rw [if_pos rfl]
      exact ih hchunks
    · obtain ⟨failed, hfailed⟩ := write_of_hugeCap hcap hempty
      rw [if_neg hempty, hfailed]
      exact ⟨failed, rfl⟩

theorem encodeJsonFrame_spec (value : Serialized) {cap : Nat} :
    ∃ result, encodeJsonFrame value cap = some result ∧
      ((value.payload.length ≤ cap ∧ value.payload.length < 2 ^ 32 ∧ cap + 4 ≤ wordMax ∧
          ∃ capacity, result = .ok ⟨frameOf value.payload, capacity⟩ ∧ capacity ≤ cap + 4) ∨
        (¬ (value.payload.length ≤ cap ∧ value.payload.length < 2 ^ 32 ∧ cap + 4 ≤ wordMax) ∧
          ∃ error, result = .error error)) := by
  have hfails : ∀ failed, (CappedFrameWriter.new cap).writeAll value.chunks = some (.error failed) →
      ∃ error, encodeJsonFrame value cap = some (.error error) := by
    intro failed h
    unfold encodeJsonFrame
    rw [h, Option.map_some, finishEncoding]
    cases failed.overflowed with
    | true => exact ⟨_, rfl⟩
    | false => exact ⟨_, rfl⟩
  by_cases hcap : cap + 4 ≤ wordMax
  · by_cases hfits : value.payload.length ≤ cap
    · obtain ⟨written, hwritten, hwrote⟩ := CappedFrameWriter.writeAll_of_fits hcap
        (CappedFrameWriter.wrote_new cap) ((Nat.zero_add _).trans_le hfits)
      have hfinish : encodeJsonFrame value cap = some written.finish := by
        unfold encodeJsonFrame
        rw [hwritten, Option.map_some, finishEncoding, hwrote.overflowed]
        rfl
      refine ⟨_, hfinish, ?_⟩
      have hdrop : written.buffer.bytes.drop 4 = value.payload := by
        rw [hwrote.bytes, List.nil_append]
        rfl
      unfold CappedFrameWriter.finish
      rw [hwrote.length, List.nil_append, Nat.add_sub_cancel_left, hdrop]
      by_cases hword : value.payload.length < 2 ^ 32
      · exact .inl ⟨hfits, hword, hcap, _, if_pos hword, hwrote.capacity_le⟩
      · exact .inr ⟨fun h => hword h.2.1, _, if_neg hword⟩
    · obtain ⟨failed, hfailed, -⟩ := CappedFrameWriter.writeAll_of_overflow hcap
        (CappedFrameWriter.wrote_new cap) ((Nat.lt_of_not_le hfits).trans_eq (Nat.zero_add _).symm)
      obtain ⟨error, herror⟩ := hfails failed hfailed
      exact ⟨_, herror, .inr ⟨fun h => hfits h.1, error, rfl⟩⟩
  · obtain ⟨failed, hfailed⟩ := writeAll_of_hugeCap (Nat.lt_of_not_le hcap) value.chunks_ne
    obtain ⟨error, herror⟩ := hfails failed hfailed
    exact ⟨_, herror, .inr ⟨fun h => hcap h.2.2, error, rfl⟩⟩

/-! ## The check of the limit -/

theorem CappedCountingWriter.writeAll_spec {writer : CappedCountingWriter} {cap : Nat}
    (hcap : cap ≤ wordMax) (hmax : writer.maxPayloadBytes = cap) (hflag : writer.overflowed = false)
    (hfits : writer.payloadBytes ≤ cap) (chunks : List Bytes) :
    (writer.payloadBytes + chunks.flatten.length ≤ cap ∧
      ∃ counted, writer.writeAll chunks = .ok counted ∧ counted.overflowed = false) ∨
    (cap < writer.payloadBytes + chunks.flatten.length ∧
      ∃ failed, writer.writeAll chunks = .error failed) := by
  induction chunks generalizing writer with
  | nil => exact .inl ⟨hfits, writer, rfl, hflag⟩
  | cons chunk chunks ih =>
    rw [writeAll, List.flatten_cons, List.length_append]
    by_cases hempty : chunk = []
    · subst hempty
      rw [if_pos rfl, List.length_nil, Nat.zero_add]
      exact ih hmax hflag hfits
    · rw [if_neg hempty]
      by_cases hroom : writer.payloadBytes + chunk.length ≤ cap
      · have hwrite : writer.write chunk =
            .ok { writer with payloadBytes := writer.payloadBytes + chunk.length } := by
          unfold write
          dsimp only
          rw [hmax, if_neg (by omega), if_neg (by omega)]
        rw [hwrite, ← Nat.add_assoc]
        exact @ih { writer with payloadBytes := writer.payloadBytes + chunk.length } hmax hflag
          hroom
      · refine .inr ⟨by omega, { writer with overflowed := true }, ?_⟩
        have hwrite : writer.write chunk = .error { writer with overflowed := true } := by
          unfold write
          dsimp only
          split
          · rfl
          · rw [if_pos (by omega)]
        rw [hwrite]

theorem ensureJsonPayloadWithinLimit_iff (value : Serialized) {cap : Nat} (hcap : cap ≤ wordMax) :
    ensureJsonPayloadWithinLimit value cap = .ok () ↔ value.payload.length ≤ cap := by
  unfold ensureJsonPayloadWithinLimit
  have hwrites := @CappedCountingWriter.writeAll_spec ⟨0, cap, false⟩ cap hcap rfl rfl
    (Nat.zero_le cap) value.chunks
  dsimp only at hwrites ⊢
  rw [Nat.zero_add] at hwrites
  rcases hwrites with ⟨hfits, counted, hcounted, hflag⟩ | ⟨hlong, failed, hfailed⟩
  · rw [hcounted]
    dsimp only
    rw [hflag]
    exact ⟨fun _ => hfits, fun _ => rfl⟩
  · rw [hfailed]
    dsimp only
    constructor
    · intro h
      split at h <;> cases h
    · intro hle
      exact absurd hlong (Nat.not_lt.2 hle)

/-! ## The parsers -/

/-- What a reader has not handed out yet. -/
def CancellationReader.rest (reader : CancellationReader) : Bytes :=
  reader.peeked.toList ++ reader.buffer ++ reader.inner

namespace CancellationReader

variable {cancelled : Nat → Bool}

theorem readByte_answers {reader : CancellationReader} (hpeeked : reader.peeked = none)
    {bytes : Bytes} (hrest : reader.rest = bytes) :
    Answers (∃ k, cancelled k = true) (fun r b => r.peeked = none ∧ r.rest = b)
      (reader.readByte cancelled) (.ok (bytes.head?, bytes.tail)) := by
  obtain ⟨peeked, buffer, inner, polls⟩ := reader
  obtain rfl : peeked = none := hpeeked
  subst hrest
  cases buffer with
  | cons b buffer => exact .same _ _ _ ⟨rfl, rfl⟩
  | nil =>
    unfold readByte
    dsimp only
    split
    case isTrue hcancelled => exact .interruption _ _ ⟨_, hcancelled⟩
    case isFalse =>
      have hparts := List.take_append_drop bufferBytes inner
      cases htake : inner.take bufferBytes with
      | nil =>
        have hinner : inner = [] := by
          rcases List.take_eq_nil_iff.1 htake with hzero | hnil
          · cases hzero
          · exact hnil
        subst hinner
        exact .same _ _ _ ⟨rfl, rfl⟩
      | cons b buffer =>
        rw [htake] at hparts
        have hbytes : rest ⟨none, [], inner, polls⟩ =
            b :: (buffer ++ inner.drop bufferBytes) := hparts.symm
        rw [hbytes]
        exact .same _ _ _ ⟨rfl, rfl⟩

theorem source_follows :
    Follows (∃ k, cancelled k = true) (fun r b => r.rest = b) (source cancelled)
      (sliceSource : ByteSource Bytes String) where
  peek reader bytes hrest := by
    obtain ⟨peeked, buffer, inner, polls⟩ := reader
    cases peeked with
    | some b =>
      subst hrest
      exact .same _ _ _ rfl
    | none =>
      have hanswers := @readByte_answers cancelled _ rfl _ hrest
      dsimp only [source, sliceSource, peek]
      generalize readByte cancelled ⟨none, buffer, inner, polls⟩ = answer at hanswers ⊢
      cases hanswers with
      | same b t t' ht =>
        refine .same _ { t with peeked := bytes.head? } _ ?_
        have htail : t.buffer ++ t.inner = bytes.tail := by
          have hrest := ht.2
          unfold rest at hrest
          rwa [ht.1] at hrest
        unfold rest
        dsimp only
        rw [List.append_assoc, htail]
        cases bytes <;> rfl
      | interruption error _ hcancelled => exact .interruption _ _ hcancelled
  next reader bytes hrest := by
    obtain ⟨peeked, buffer, inner, polls⟩ := reader
    cases peeked with
    | some b =>
      subst hrest
      exact .same _ _ _ rfl
    | none =>
      have hanswers := @readByte_answers cancelled _ rfl _ hrest
      dsimp only [source, sliceSource, next]
      generalize readByte cancelled ⟨none, buffer, inner, polls⟩ = answer at hanswers ⊢
      cases hanswers with
      | same b t t' ht => exact .same _ _ _ ht.2
      | interruption error _ hcancelled => exact .interruption _ _ hcancelled

end CancellationReader

section Parsers

variable {T : Type} {cancelled : Nat → Bool}

/-- An answer of the parser over a reader is that of the parser over the slice; without a
cancellation the two end alike. -/
theorem parseFromReader_eq (deserialize : Deserialize T) (fuel : Nat) (payload : Bytes) :
    (∀ value, parseFromReader deserialize cancelled fuel payload = some (.ok value) →
      strictFromSlice deserialize fuel payload = some (.ok value)) ∧
    ((∀ k, cancelled k = false) →
      parseFromReader deserialize cancelled fuel payload =
        strictFromSlice deserialize fuel payload) := by
  have hfollows := @CancellationReader.source_follows cancelled
  have hparsed : EndsAlike (∃ k, cancelled k = true) (fun r b => CancellationReader.rest r = b)
      (runOn (CancellationReader.source cancelled) deserialize.program fuel deserialize.start
        { inner := payload, polls := 1 })
      (runOn sliceSource deserialize.program fuel deserialize.start payload) :=
    hfollows.runOn _ fuel rfl
  unfold parseFromReader strictFromSlice deserializeToEnd
  dsimp only
  generalize runOn (CancellationReader.source cancelled) deserialize.program fuel
    deserialize.start { inner := payload, polls := 1 } = read at hparsed ⊢
  generalize runOn sliceSource deserialize.program fuel deserialize.start payload = sliced
    at hparsed ⊢
  cases hparsed with
  | running => exact ⟨fun _ h => (by cases h), fun _ => rfl⟩
  | interruption error reader _ hcancelled =>
    refine ⟨fun value h => ?_, fun hnever => ?_⟩
    · rw [Option.bind_some] at h
      dsimp only at h
      split at h <;> cases h
    · obtain ⟨k, hk⟩ := hcancelled
      exact absurd hk (by rw [hnever k]; decide)
  | same result reader rest hrest =>
    rw [Option.bind_some, Option.bind_some]
    dsimp only
    cases result with
    | error error =>
      refine ⟨fun value h => ?_, fun hnever => ?_⟩
      · split at h <;> cases h
      · rw [if_neg (by rw [hnever]; decide)]
        rfl
    | ok parsed =>
      dsimp only
      have hended : EndsAlike (∃ k, cancelled k = true)
          (fun r b => CancellationReader.rest r = b)
          (runOn (CancellationReader.source cancelled) endProgram fuel
            (.parseWhitespace, false) { reader with polls := reader.polls + 1 })
          (runOn sliceSource endProgram fuel (.parseWhitespace, false) rest) :=
        hfollows.runOn _ fuel hrest
      generalize runOn (CancellationReader.source cancelled) endProgram fuel
        (.parseWhitespace, false) { reader with polls := reader.polls + 1 } = end1
        at hended ⊢
      generalize runOn sliceSource endProgram fuel (.parseWhitespace, false) rest = end2
        at hended ⊢
      by_cases hasked : cancelled reader.polls = true
      · rw [if_pos hasked]
        exact ⟨fun _ h => (by cases h),
          fun hnever => absurd hasked (by rw [hnever]; decide)⟩
      rw [if_neg hasked]
      cases hended with
      | running => exact ⟨fun _ h => (by cases h), fun _ => rfl⟩
      | interruption error reader' _ hcancelled =>
        refine ⟨fun value h => ?_, fun hnever => ?_⟩
        · rw [Option.map_some] at h
          dsimp only at h
          split at h <;> cases h
        · obtain ⟨k, hk⟩ := hcancelled
          exact absurd hk (by rw [hnever k]; decide)
      | same completed reader' rest' hrest' =>
        rw [Option.map_some, Option.map_some, Option.map_some]
        dsimp only
        by_cases hlast : cancelled reader'.polls = true
        · rw [if_pos hlast]
          exact ⟨fun _ h => (by cases h),
            fun hnever => absurd hlast (by rw [hnever]; decide)⟩
        · rw [if_neg hlast]
          cases completed with
          | error error => exact ⟨fun _ h => (by cases h), fun _ => rfl⟩
          | ok _ => exact ⟨fun _ h => h, fun _ => rfl⟩

end Parsers

theorem parseJsonPayloadCancellable_uncancelled {T : Type} (deserialize : Deserialize T)
    (fuel : Nat) (payload : Bytes) :
    parseJsonPayloadCancellable deserialize (fun _ => false) fuel payload =
      strictFromSlice deserialize fuel payload := by
  unfold parseJsonPayloadCancellable
  rw [if_neg (by decide)]
  split
  · unfold parseFromSlice
    cases strictFromSlice deserialize fuel payload <;> rfl
  · exact (parseFromReader_eq deserialize fuel payload).2 fun _ => rfl

/-! ## The codec -/

/-- The writer always ends.  It ends with a frame exactly when the payload fits the cap and
four bytes for its length, and the cap leaves room for these in a `usize`; the check of the
limit asks for the cap alone.  The frame takes no more than the cap and its header, the reader
gets the payload back and leaves what follows, and both parsers accept the same texts with
the same values. -/
theorem frame_codec (value : Serialized) {cap : Nat} (hcap : cap ≤ wordMax) :
    (∃ result, encodeJsonFrame value cap = some result ∧
      ((∃ frame, result = .ok frame) ↔
        value.payload.length ≤ cap ∧ value.payload.length < 2 ^ 32 ∧ cap + 4 ≤ wordMax) ∧
      (cap < 2 ^ 32 →
        ((∃ frame, result = .ok frame) ↔ ensureJsonPayloadWithinLimit value cap = .ok ())) ∧
      ∀ frame, result = .ok frame →
        frame.bytes = frameOf value.payload ∧ frame.capacity ≤ cap + 4 ∧
        ∀ rest, readFramePayload (frame.bytes ++ rest) cap = .ok (value.payload, rest)) ∧
    (ensureJsonPayloadWithinLimit value cap = .ok () ↔ value.payload.length ≤ cap) ∧
    ∀ (T : Type) (deserialize : Deserialize T) (fuel : Nat) (text : Bytes),
      parseFromReader deserialize (fun _ => false) fuel text =
        strictFromSlice deserialize fuel text ∧
      parseJsonPayloadCancellable deserialize (fun _ => false) fuel text =
        strictFromSlice deserialize fuel text ∧
      ∀ cancelled value, parseFromReader deserialize cancelled fuel text = some (.ok value) →
        strictFromSlice deserialize fuel text = some (.ok value) := by
  have hensure := ensureJsonPayloadWithinLimit_iff value hcap
  refine ⟨?_, hensure, fun T deserialize fuel text =>
    ⟨(parseFromReader_eq deserialize fuel text).2 fun _ => rfl,
      parseJsonPayloadCancellable_uncancelled deserialize fuel text,
      fun cancelled => (parseFromReader_eq deserialize fuel text).1⟩⟩
  obtain ⟨result, hresult, ⟨hfits, hword, hroom, capacity, rfl, hcapacity⟩ | ⟨hnot, error, rfl⟩⟩ :=
    @encodeJsonFrame_spec value cap
  · refine ⟨_, hresult, ⟨fun _ => ⟨hfits, hword, hroom⟩, fun _ => ⟨_, rfl⟩⟩,
      fun _ => ⟨fun _ => hensure.2 hfits, fun _ => ⟨_, rfl⟩⟩, fun frame hframe => ?_⟩
    obtain rfl := Except.ok.inj hframe
    exact ⟨rfl, hcapacity, fun rest => readFramePayload_frameOf hword hfits rest⟩
  · refine ⟨_, hresult, ⟨fun ⟨frame, hframe⟩ => (by cases hframe), fun h => absurd h hnot⟩,
      fun hsmall => ⟨fun ⟨frame, hframe⟩ => (by cases hframe), fun hpasses => ?_⟩,
      fun frame hframe => (by cases hframe)⟩
    have hfits := hensure.1 hpasses
    have hlarge : wordMax = 2 ^ 64 - 1 := rfl
    exact absurd ⟨hfits, by omega, by omega⟩ hnot

/-- The text `1`. -/
def sampleSerialized : Serialized where
  chunks := [[0x31]]
  chunks_ne := by decide

theorem frame_codec_sample :
    ensureJsonPayloadWithinLimit sampleSerialized 1 = .ok () ∧
      ∃ frame, encodeJsonFrame sampleSerialized 1 = some (.ok frame) ∧
        readFramePayload (frame.bytes ++ [0x32]) 1 = .ok ([0x31], [0x32]) := by
  obtain ⟨⟨result, hresult, hframe, -, hread⟩, hensure, -⟩ :=
    @frame_codec sampleSerialized 1 (by decide)
  obtain ⟨frame, rfl⟩ := hframe.2 (by decide)
  exact ⟨hensure.2 (by decide), frame, hresult, (hread frame rfl).2.2 [0x32]⟩

/-- With the largest cap there is, the check passes and the encoding does not. -/
theorem hugest_cap_has_no_frame :
    sampleSerialized.payload.length ≤ wordMax ∧
      ensureJsonPayloadWithinLimit sampleSerialized wordMax = .ok () ∧
      encodeJsonFrame sampleSerialized wordMax =
        some (.error (.invalidArgument "private RPC frame limit exceeded")) := by
  refine ⟨by decide, rfl, rfl⟩

end Fluxcope.ControlRpc
