import Fluxcope.Library.Pages
import Fluxcope.Library.Utf8Lossy
/-!
# Log records

A record is formatted into a string of bounded size, one fragment after the other, and gets
a suffix when something was left out.
-/

namespace Fluxcope.Logging

open Fluxcope.Library Fluxcope.Library.Utf8

/-- " … [truncated]" -/
def truncationSuffix : Bytes := [0x20, 0xE2, 0x80, 0xA6] ++ ofAscii " [truncated]"

/-! ## The string -/

structure LimitedString where
  value : Bytes
  limit : Nat
  truncated : Bool
  deriving DecidableEq, Repr

namespace LimitedString

def new (limit : Nat) : LimitedString := { value := [], limit, truncated := false }

def finish (output : LimitedString) : Bytes × Bool := (output.value, output.truncated)

def writeStr (output : LimitedString) (value : Bytes) : LimitedString :=
  let remaining := output.limit - output.value.length
  if value.length ≤ remaining then { output with value := output.value ++ value }
  else
    let boundary := lowerTo (isCharBoundary value) 0 (min remaining value.length)
    { output with value := output.value ++ value.take boundary, truncated := true }

end LimitedString

/-! ## The record -/

inductive Level
  | error
  | warn
  | info
  | debug
  | trace
  deriving DecidableEq, Repr

def Level.text : Level → Bytes
  | .error => ofAscii "ERROR"
  | .warn => ofAscii "WARN"
  | .info => ofAscii "INFO"
  | .debug => ofAscii "DEBUG"
  | .trace => ofAscii "TRACE"

/-- A log call; its arguments are the fragments that formatting them writes. -/
structure Record where
  level : Level
  target : Bytes
  args : List Bytes
  target_valid : Valid target
  args_valid : ∀ fragment ∈ args, Valid fragment

structure LoggingMetrics where
  recordsTruncated : UInt64
  deriving DecidableEq, Repr

/-- There is room for the suffix, as `init` sees to. -/
structure AppLogger where
  maxRecordBytes : Nat
  metrics : LoggingMetrics
  suffix_le : truncationSuffix.length ≤ maxRecordBytes

namespace AppLogger

def init (maxRecordBytes : Nat) : AppLogger where
  maxRecordBytes := max maxRecordBytes truncationSuffix.length
  metrics := { recordsTruncated := 0 }
  suffix_le := le_max_right _ _

def payloadLimit (logger : AppLogger) : Nat := logger.maxRecordBytes - truncationSuffix.length

end AppLogger

/-- The fragments of `"{} - [{}] "` and then those of the arguments. -/
def Record.fragments (record : Record) : List Bytes :=
  [record.level.text, ofAscii " - [", record.target, ofAscii "] "] ++ record.args

def AppLogger.formatRecord (logger : AppLogger) (record : Record) : Bytes × LoggingMetrics :=
  let output := record.fragments.foldl LimitedString.writeStr (.new logger.payloadLimit)
  let (message, truncated) := output.finish
  if truncated then
    (message ++ truncationSuffix,
      { logger.metrics with recordsTruncated := logger.metrics.recordsTruncated + 1 })
  else (message, logger.metrics)

def Record.fullText (record : Record) : Bytes := record.fragments.flatten

/-! ## What a fragment adds -/

namespace LimitedString

/-- What is free in the string. -/
def free (output : LimitedString) : Nat := output.limit - output.value.length

/-- The last boundary of a fragment within the free bytes. -/
structure LastBoundary (free : Nat) (fragment : Bytes) (boundary : Nat) : Prop where
  isBoundary : IsBoundary fragment boundary
  le : boundary ≤ free
  length_le : boundary ≤ fragment.length
  last : ∀ size, IsBoundary fragment size → size ≤ free → size ≤ boundary

theorem LastBoundary.unique {free left right : Nat} {fragment : Bytes}
    (hleft : LastBoundary free fragment left) (hright : LastBoundary free fragment right) :
    left = right :=
  Nat.le_antisymm (hright.last left hleft.isBoundary hleft.le)
    (hleft.last right hright.isBoundary hright.le)

theorem writeStr_spec (output : LimitedString) {fragment : Bytes} (h : Valid fragment) :
    ∃ boundary, LastBoundary output.free fragment boundary ∧
      output.writeStr fragment =
        { output with
          value := output.value ++ fragment.take boundary
          truncated := output.truncated || output.free < fragment.length } := by
  unfold writeStr free
  dsimp only
  by_cases hfits : fragment.length ≤ output.limit - output.value.length
  · refine ⟨fragment.length, ⟨isBoundary_length fragment, hfits, le_rfl, ?_⟩, ?_⟩
    · rintro size (rfl | ⟨b, hget, -⟩) -
      · exact le_rfl
      · exact Nat.le_of_lt (List.getElem?_eq_some_iff.1 hget).1
    · rw [if_pos hfits, List.take_length, decide_eq_false (Nat.not_lt.2 hfits), Bool.or_false]
  · have hmin : min (output.limit - output.value.length) fragment.length =
        output.limit - output.value.length := by
      omega
    rw [if_neg hfits, hmin, decide_eq_true (Nat.lt_of_not_le hfits), Bool.or_true]
    refine ⟨_, ?_, rfl⟩
    obtain ⟨-, hle, hboundary⟩ := lowerTo_spec (Nat.le_refl 0)
      ((isCharBoundary_iff h).2 h.isBoundary_zero) (Nat.zero_le (output.limit - output.value.length))
    refine ⟨(isCharBoundary_iff h).1 hboundary, hle, by omega, fun size hsize hfree => ?_⟩
    exact (lowerTo_spec (Nat.zero_le size) ((isCharBoundary_iff h).2 hsize) hfree).1

theorem writeStr_of_fits {output : LimitedString} {fragment : Bytes}
    (h : output.value.length + fragment.length ≤ output.limit) :
    output.writeStr fragment = { output with value := output.value ++ fragment } :=
  if_pos (by omega)

theorem foldl_of_fits {output : LimitedString} {fragments : List Bytes}
    (h : output.value.length + fragments.flatten.length ≤ output.limit) :
    fragments.foldl writeStr output =
      { output with value := output.value ++ fragments.flatten } := by
  induction fragments generalizing output with
  | nil =>
    rw [List.foldl_nil, List.flatten_nil, List.append_nil]
  | cons fragment fragments ih =>
    rw [List.flatten_cons, List.length_append] at h
    rw [List.foldl_cons, writeStr_of_fits (by omega), ih ?_, List.flatten_cons,
      List.append_assoc]
    dsimp only
    rw [List.length_append]
    omega

/-- What fragments add once the string is truncated. -/
theorem foldl_of_truncated {output : LimitedString} {fragments : List Bytes}
    (hvalid : ∀ fragment ∈ fragments, Valid fragment) (htruncated : output.truncated = true)
    (hlimit : output.value.length ≤ output.limit) :
    ∃ added, Valid added ∧
      fragments.foldl writeStr output = { output with value := output.value ++ added } ∧
      output.value.length + added.length ≤ output.limit ∧
      (added = [] ↔ ∀ fragment ∈ fragments, ∀ size, IsBoundary fragment size → 0 < size →
        output.free < size) := by
  induction fragments generalizing output with
  | nil =>
    refine ⟨[], valid_nil, ?_, hlimit, fun _ _ h => absurd h List.not_mem_nil, fun _ => rfl⟩
    rw [List.foldl_nil, List.append_nil]
  | cons fragment fragments ih =>
    have hfragment := hvalid fragment List.mem_cons_self
    obtain ⟨boundary, hlast, hwrite⟩ := output.writeStr_spec hfragment
    have hboundary : boundary ≤ output.limit - output.value.length := hlast.le
    have hlength : (fragment.take boundary).length = boundary := by
      rw [List.length_take]
      have hle := hlast.length_le
      omega
    rw [htruncated, Bool.true_or, ← htruncated] at hwrite
    obtain ⟨added, hadded, hfold, hroom, hempty⟩ :=
      @ih { output with value := output.value ++ fragment.take boundary }
        (fun f hf => hvalid f (List.mem_cons_of_mem _ hf)) htruncated
        (by dsimp only; rw [List.length_append]; omega)
    dsimp only at hroom
    rw [List.length_append] at hroom
    refine ⟨fragment.take boundary ++ added, (hfragment.cut hlast.isBoundary).1.append hadded,
      ?_, ?_, ?_⟩
    · rw [List.foldl_cons, hwrite, hfold, List.append_assoc]
    · rw [List.length_append]
      omega
    · rw [List.append_eq_nil_iff, hempty, List.forall_mem_cons]
      by_cases hzero : boundary = 0
      · subst hzero
        have hnone : ∀ size, IsBoundary fragment size → 0 < size → output.free < size := by
          intro size hsize hpos
          by_contra hle
          exact absurd (hlast.last size hsize (Nat.le_of_not_lt hle)) (by omega)
        rw [List.take_zero, List.append_nil]
        exact ⟨fun h => ⟨hnone, h.2⟩, fun h => ⟨rfl, h.2⟩⟩
      · have hpos := Nat.pos_of_ne_zero hzero
        constructor
        · intro h
          rw [h.1] at hlength
          exact absurd hlength.symm hzero
        · intro h
          exact absurd (h.1 boundary hlast.isBoundary hpos) (Nat.not_lt.2 hlast.le)

end LimitedString

/-! ## Where the text is cut -/

/-- The limit lies in the fragment `cut`, whose last boundary within it is at `boundary`. -/
structure CutAt (limit : Nat) (fragments before : List Bytes) (cut : Bytes) (after : List Bytes)
    (boundary : Nat) : Prop where
  split : fragments = before ++ cut :: after
  starts : before.flatten.length ≤ limit
  ends : limit < before.flatten.length + cut.length
  last : LimitedString.LastBoundary (limit - before.flatten.length) cut boundary

theorem exists_cut {limit : Nat} {fragments : List Bytes}
    (h : limit < fragments.flatten.length) : ∃ before cut after,
      fragments = before ++ cut :: after ∧ before.flatten.length ≤ limit ∧
        limit < before.flatten.length + cut.length := by
  induction fragments generalizing limit with
  | nil => exact absurd h (Nat.not_lt_zero limit)
  | cons fragment fragments ih =>
    rw [List.flatten_cons, List.length_append] at h
    by_cases hfits : fragment.length ≤ limit
    · obtain ⟨before, cut, after, rfl, hstarts, hends⟩ :=
        @ih (limit - fragment.length) (by omega)
      refine ⟨fragment :: before, cut, after, rfl, ?_, ?_⟩
      · rw [List.flatten_cons, List.length_append]
        omega
      · rw [List.flatten_cons, List.length_append]
        omega
    · exact ⟨[], fragment, fragments, rfl, Nat.zero_le _, by simpa using hfits⟩

theorem exists_cutAt {limit : Nat} {fragments : List Bytes}
    (hvalid : ∀ fragment ∈ fragments, Valid fragment) (h : limit < fragments.flatten.length) :
    ∃ before cut after boundary, CutAt limit fragments before cut after boundary := by
  obtain ⟨before, cut, after, rfl, hstarts, hends⟩ := exists_cut h
  obtain ⟨boundary, hlast, -⟩ := LimitedString.writeStr_spec ⟨before.flatten, limit, false⟩
    (hvalid cut (List.mem_append_right _ List.mem_cons_self))
  exact ⟨before, cut, after, boundary, rfl, hstarts, hends, hlast⟩

theorem CutAt.text {limit boundary : Nat} {fragments before after : List Bytes} {cut : Bytes}
    (h : CutAt limit fragments before cut after boundary) :
    fragments.flatten =
      before.flatten ++ cut.take boundary ++ (cut.drop boundary ++ after.flatten) := by
  rw [h.split, List.flatten_append, List.flatten_cons, List.append_assoc,
    ← List.append_assoc (cut.take boundary), List.take_append_drop]

/-- The character that is cut off is longer than the free bytes. -/
theorem LimitedString.LastBoundary.not_prefix {room : Nat} {cut : Bytes} {boundary : Nat}
    (h : LastBoundary room cut boundary) (hcut : Valid cut) (hroom : room < cut.length)
    {added more : Bytes} (hadded : Valid added) (hne : added ≠ [])
    (hfits : boundary + added.length ≤ room) : ¬ added <+: cut.drop boundary ++ more := by
  intro hbegins
  have hle := h.length_le
  have hrest : cut.drop boundary ≠ [] := by
    intro hnil
    have hdrop := List.drop_eq_nil_iff.1 hnil
    have hfree := h.le
    omega
  obtain ⟨d, u, rfl, hd, -⟩ := hadded.firstChar hne
  obtain ⟨c, v, hdrop, hc, hv⟩ := (hcut.cut h.isBoundary).2.firstChar hrest
  rw [hdrop, List.append_assoc] at hbegins
  have hlength := firstChar_length hc hd hbegins
  have hnext : IsBoundary cut (boundary + c.length) := by
    have htake : (cut.take boundary).length = boundary := List.length_take_of_le hle
    rw [← List.take_append_drop boundary cut, hdrop, isBoundary_append_iff (by omega), htake,
      Nat.add_sub_cancel_left, isBoundary_append_iff (Nat.le_refl _), Nat.sub_self]
    exact hv.isBoundary_zero
  rw [List.length_append] at hfits
  have hlast := h.last _ hnext (by omega)
  have hpos := hc.length_pos
  omega

/-! ## Honest records -/

/-- The record is the full text, if that fits the payload limit; it is a beginning of it, up
to a boundary, with the suffix and is counted, if it does not. -/
structure AppLogger.Honest (logger : AppLogger) (record : Record) : Prop where
  whole : record.fullText.length ≤ logger.payloadLimit →
    logger.formatRecord record = (record.fullText, logger.metrics)
  cut : logger.payloadLimit < record.fullText.length →
    ∃ boundary, IsBoundary record.fullText boundary ∧ logger.formatRecord record =
      (record.fullText.take boundary ++ truncationSuffix,
        { logger.metrics with recordsTruncated := logger.metrics.recordsTruncated + 1 })
  bound : (logger.formatRecord record).1.length ≤ logger.maxRecordBytes

/-- No fragment behind the cut begins with a character that fits the bytes left free. -/
def AppLogger.NothingFollows (logger : AppLogger) (record : Record) : Prop :=
  ∀ before cut after boundary,
    CutAt logger.payloadLimit record.fragments before cut after boundary →
    ∀ fragment ∈ after, ∀ size, IsBoundary fragment size → 0 < size →
      logger.payloadLimit < before.flatten.length + boundary + size

theorem Level.text_valid (level : Level) : Valid level.text := by
  apply fromUtf8_eq_none_iff.1
  cases level <;> decide

theorem Record.fragments_valid (record : Record) :
    ∀ fragment ∈ record.fragments, Valid fragment := by
  intro fragment hfragment
  rcases List.mem_append.1 hfragment with hheader | hargs
  · simp only [List.mem_cons, List.not_mem_nil, or_false] at hheader
    rcases hheader with rfl | rfl | rfl | rfl
    · exact record.level.text_valid
    · exact fromUtf8_eq_none_iff.1 (by decide)
    · exact record.target_valid
    · exact fromUtf8_eq_none_iff.1 (by decide)
  · exact record.args_valid fragment hargs

namespace AppLogger

theorem payloadLimit_add (logger : AppLogger) :
    logger.payloadLimit + truncationSuffix.length = logger.maxRecordBytes :=
  Nat.sub_add_cancel logger.suffix_le

theorem formatRecord_of_fits {logger : AppLogger} {record : Record}
    (h : record.fullText.length ≤ logger.payloadLimit) :
    logger.formatRecord record = (record.fullText, logger.metrics) := by
  have hfold := @LimitedString.foldl_of_fits (.new logger.payloadLimit) record.fragments
    ((Nat.zero_add _).trans_le h)
  unfold formatRecord
  rw [hfold]
  rfl

/-- What the record is when the limit lies in one of its fragments. -/
theorem formatRecord_of_cut {logger : AppLogger} {record : Record} {before after : List Bytes}
    {cut : Bytes} {boundary : Nat}
    (h : CutAt logger.payloadLimit record.fragments before cut after boundary) :
    ∃ added, Valid added ∧
      logger.formatRecord record =
        (before.flatten ++ cut.take boundary ++ added ++ truncationSuffix,
          { logger.metrics with recordsTruncated := logger.metrics.recordsTruncated + 1 }) ∧
      before.flatten.length + boundary + added.length ≤ logger.payloadLimit ∧
      (added = [] ↔ ∀ fragment ∈ after, ∀ size, IsBoundary fragment size → 0 < size →
        logger.payloadLimit < before.flatten.length + boundary + size) := by
  have hvalid := record.fragments_valid
  rw [h.split, List.forall_mem_append, List.forall_mem_cons] at hvalid
  obtain ⟨-, hcut, hafter⟩ := hvalid
  have hends := h.ends
  have hbefore := @LimitedString.foldl_of_fits (.new logger.payloadLimit) before
    ((Nat.zero_add _).trans_le h.starts)
  obtain ⟨boundary', hlast, hwrite⟩ :=
    LimitedString.writeStr_spec ⟨before.flatten, logger.payloadLimit, false⟩ hcut
  obtain rfl := hlast.unique h.last
  have hle := hlast.le
  have hroom : before.flatten.length + (cut.take boundary').length =
      before.flatten.length + boundary' := by
    rw [List.length_take_of_le hlast.length_le]
  have hlimit : before.flatten.length + boundary' ≤ logger.payloadLimit := by
    have hfree := h.last.le
    have hstarts := h.starts
    omega
  have hlong : LimitedString.free ⟨before.flatten, logger.payloadLimit, false⟩ < cut.length := by
    dsimp only [LimitedString.free]
    omega
  rw [decide_eq_true hlong, Bool.or_true] at hwrite
  obtain ⟨added, hadded, hfold, hfits, hempty⟩ := @LimitedString.foldl_of_truncated
    ⟨before.flatten ++ cut.take boundary', logger.payloadLimit, true⟩ after hafter rfl
    (by dsimp only; rw [List.length_append]; omega)
  dsimp only [LimitedString.free] at hfits hempty
  rw [List.length_append, hroom] at hfits hempty
  refine ⟨added, hadded, ?_, hfits, hempty.trans ?_⟩
  · unfold formatRecord
    have hcutFold : record.fragments.foldl LimitedString.writeStr (.new logger.payloadLimit) =
        ⟨before.flatten ++ cut.take boundary' ++ added, logger.payloadLimit, true⟩ := by
      rw [h.split, List.foldl_append, hbefore, List.foldl_cons]
      exact (congrArg (fun output => after.foldl LimitedString.writeStr output) hwrite).trans hfold
    rw [hcutFold]
    rfl
  · constructor
    · intro hnone fragment hfragment size hsize hpos
      have hlt := hnone fragment hfragment size hsize hpos
      omega
    · intro hnone fragment hfragment size hsize hpos
      have hlt := hnone fragment hfragment size hsize hpos
      omega

theorem formatRecord_honest_iff (logger : AppLogger) (record : Record) :
    logger.Honest record ↔
      record.fullText.length ≤ logger.payloadLimit ∨ logger.NothingFollows record := by
  have hlimit := logger.payloadLimit_add
  by_cases hfits : record.fullText.length ≤ logger.payloadLimit
  · have hrecord := formatRecord_of_fits hfits
    refine ⟨fun _ => .inl hfits, fun _ => ⟨fun _ => hrecord,
      fun hlong => absurd hfits (Nat.not_le_of_lt hlong), ?_⟩⟩
    rw [hrecord]
    dsimp only
    omega
  · have hlong := Nat.lt_of_not_le hfits
    constructor
    · intro hhonest
      refine .inr fun before cut after boundary hcut => ?_
      obtain ⟨added, hadded, hrecord, hroom, hempty⟩ := formatRecord_of_cut hcut
      obtain ⟨stop, -, hstop⟩ := hhonest.cut hlong
      rw [← hempty]
      by_contra hne
      rw [hrecord] at hstop
      have hvalue := List.append_cancel_right (Prod.mk.inj hstop).1
      have hbegins : before.flatten ++ cut.take boundary ++ added <+: record.fullText :=
        hvalue ▸ List.take_prefix stop record.fullText
      rw [Record.fullText, hcut.text, List.prefix_append_right_inj] at hbegins
      have hvalid := record.fragments_valid cut (by rw [hcut.split]; simp)
      have hends := hcut.ends
      exact hcut.last.not_prefix hvalid (by omega) hadded hne (by omega) hbegins
    · intro hcondition
      have hnothing := hcondition.resolve_left hfits
      obtain ⟨before, cut, after, boundary, hcut⟩ := exists_cutAt record.fragments_valid hlong
      obtain ⟨added, -, hrecord, hroom, hempty⟩ := formatRecord_of_cut hcut
      obtain rfl := hempty.2 (hnothing before cut after boundary hcut)
      rw [List.append_nil] at hrecord
      have hlength : (before.flatten ++ cut.take boundary).length =
          before.flatten.length + boundary := by
        rw [List.length_append, List.length_take_of_le hcut.last.length_le]
      have hvalid := record.fragments_valid
      rw [hcut.split, List.forall_mem_append, List.forall_mem_cons] at hvalid
      have hrest : Valid (cut.drop boundary ++ after.flatten) :=
        (hvalid.2.1.cut hcut.last.isBoundary).2.append (Valid.flatten hvalid.2.2)
      refine ⟨fun h => absurd h hfits, fun _ => ⟨before.flatten.length + boundary, ?_, ?_⟩, ?_⟩
      · rw [Record.fullText, hcut.text, ← hlength, isBoundary_append_iff (Nat.le_refl _),
          Nat.sub_self]
        exact hrest.isBoundary_zero
      · rw [hrecord, Record.fullText, hcut.text, ← hlength, List.take_left]
      · rw [hrecord]
        dsimp only
        rw [List.length_append, hlength]
        dsimp only [List.length_nil] at hroom
        omega

end AppLogger

/-- Payloads of 24 bytes: two are free behind "INFO - [a] 01234567890" when "界x" does not fit,
and the "e" that comes next does. -/
def sampleLogger : AppLogger where
  maxRecordBytes := 40
  metrics := { recordsTruncated := 0 }
  suffix_le := by decide

def sampleRecord : Record where
  level := .info
  target := ofAscii "a"
  args := [ofAscii "01234567890", [0xE7, 0x95, 0x8C, 0x78], ofAscii "e"]
  target_valid := fromUtf8_eq_none_iff.1 (by decide)
  args_valid := by
    simp only [List.forall_mem_cons, List.not_mem_nil, false_imp_iff, implies_true, and_true]
    exact ⟨fromUtf8_eq_none_iff.1 (by decide), fromUtf8_eq_none_iff.1 (by decide),
      fromUtf8_eq_none_iff.1 (by decide)⟩

theorem formatRecord_skips_text : ¬ sampleLogger.Honest sampleRecord := by
  intro h
  obtain ⟨boundary, -, hrecord⟩ := h.cut (by decide)
  have hmessage : (sampleLogger.formatRecord sampleRecord).1 =
      ofAscii "INFO - [a] 01234567890e" ++ truncationSuffix := by
    decide +kernel
  rw [hrecord] at hmessage
  have hbegins := List.take_prefix boundary sampleRecord.fullText
  rw [List.append_cancel_right hmessage] at hbegins
  exact absurd hbegins (by decide +kernel)

end Fluxcope.Logging
