import Fluxcope.Mcp.StdioLines
/-!
# What the line bounds let through

The count of the reader is that of the open line of what it has delivered, and the count of
the writer that of what the sink has taken, whatever the sizes of the reads and writes are.
-/

namespace Fluxcope.Mcp

open Fluxcope.Library Fluxcope.Library.Utf8

variable {limit : Nat}

/-! ## Reading -/

/-- What is left of the stream at the reader, in its buffer or not yet read. -/
def BufReader.rest (inner : BufReader) : Bytes := inner.buffer ++ inner.source

theorem BufReader.rest_pollFillBuf (inner : BufReader) (read : SourceRead) :
    (inner.pollFillBuf read).2.rest = inner.rest := by
  unfold pollFillBuf
  by_cases hbuffer : inner.buffer = []
  · rw [if_neg (not_not.2 hbuffer)]
    cases read with
    | pending => rfl
    | failed => rfl
    | ready size =>
      rw [rest, rest, hbuffer, List.nil_append]
      exact List.take_append_drop size inner.source
  · rw [if_pos hbuffer]

/-- The buffer is not empty once it is filled, unless the stream is at its end. -/
theorem BufReader.source_of_filled {inner filled : BufReader} {read : SourceRead}
    (hread : read.Possible inner.source) (h : inner.pollFillBuf read = (.ready, filled))
    (hempty : filled.buffer = []) : filled.rest = [] := by
  unfold pollFillBuf at h
  by_cases hbuffer : inner.buffer = []
  · rw [if_neg (not_not.2 hbuffer)] at h
    cases read with
    | pending => cases h
    | failed => cases h
    | ready size =>
      obtain rfl := (Prod.mk.inj h).2
      dsimp only at hempty
      obtain ⟨hsize, hzero⟩ := hread
      have hlength := congrArg List.length hempty
      rw [List.length_take, List.length_nil] at hlength
      have hsource : inner.source = [] := by
        rcases Nat.eq_zero_or_pos size with rfl | hpos
        · exact hzero rfl
        · exact List.eq_nil_of_length_eq_zero (by omega)
      rw [rest, hsource]
      simp
  · rw [if_pos hbuffer] at h
    obtain rfl := (Prod.mk.inj h).2
    exact absurd hempty hbuffer

theorem BufReader.pollFillBuf_pending {inner filled : BufReader} {read : SourceRead}
    (h : inner.pollFillBuf read = (.pending, filled)) : read = .pending ∧ filled = inner := by
  unfold pollFillBuf at h
  by_cases hbuffer : inner.buffer = []
  · rw [if_neg (not_not.2 hbuffer)] at h
    cases read with
    | pending => exact ⟨rfl, (Prod.mk.inj h).2.symm⟩
    | failed => cases h
    | ready size => cases h
  · rw [if_pos hbuffer] at h
    cases h

theorem BufReader.pollFillBuf_failed {inner filled : BufReader} {read : SourceRead}
    (h : inner.pollFillBuf read = (.failed, filled)) : read = .failed ∧ filled = inner := by
  unfold pollFillBuf at h
  by_cases hbuffer : inner.buffer = []
  · rw [if_neg (not_not.2 hbuffer)] at h
    cases read with
    | pending => cases h
    | failed => exact ⟨rfl, (Prod.mk.inj h).2.symm⟩
    | ready size => cases h
  · rw [if_pos hbuffer] at h
    cases h

namespace BoundedLineReader

/-- The first segment of the buffer, with its newline if it has one. -/
inductive Segment (available : Bytes) : Option Nat → Prop
  | open (h : newline ∉ available) : Segment available none
  | terminated (content rest : Bytes) (heq : available = content ++ newline :: rest)
      (h : newline ∉ content) : Segment available (some content.length)

theorem segment_findIdx? (available : Bytes) :
    Segment available (available.findIdx? (· = newline)) := by
  by_cases hmem : newline ∈ available
  · obtain ⟨content, rest, rfl, hcontent⟩ := List.eq_append_cons_of_mem hmem
    have hfind : (content ++ newline :: rest).findIdx? (· = newline) = some content.length := by
      rw [List.findIdx?_append, List.findIdx?_eq_none_iff.2 fun b hb => by
        simpa using fun heq : b = newline => hcontent (heq ▸ hb)]
      simp [List.findIdx?_cons]
    rw [hfind]
    exact .terminated content rest rfl hcontent
  · have hfind : available.findIdx? (· = newline) = none :=
      List.findIdx?_eq_none_iff.2 fun b hb => by
        simpa using fun heq : b = newline => hmem (heq ▸ hb)
    rw [hfind]
    exact .open hmem

/-- What a poll takes from a buffer that is not empty. -/
structure Delivers (reader : BoundedLineReader) (remaining : Nat) (output : Bytes)
    (reader' : BoundedLineReader) : Prop where
  progress : 0 < remaining → output ≠ []
  rest : output ++ reader'.inner.rest = reader.inner.rest
  within : OpenWithin newline reader.maxLineBytes reader.lineBytes output
  lineBytes : reader'.lineBytes = lineAfter newline reader.lineBytes output
  maxLineBytes : reader'.maxLineBytes = reader.maxLineBytes

/-- The open line has more bytes than it may, those of the buffer included. -/
structure Overflows (reader : BoundedLineReader) : Prop where
  stuck : ∀ remaining, reader.takeSegment remaining = (.lineTooLong, reader)
  buffer : reader.inner.buffer ≠ []
  line : ∃ more after, reader.inner.buffer = more ++ after ∧ newline ∉ more ∧
    reader.maxLineBytes < reader.lineBytes + more.length

theorem rest_consume (inner : BufReader) (copied : Nat) :
    inner.buffer.take copied ++ (inner.consume copied).rest = inner.rest := by
  rw [BufReader.rest, BufReader.rest, BufReader.consume, ← List.append_assoc,
    List.take_append_drop]

theorem take_ne_nil {bytes : Bytes} {copied : Nat} (hbytes : bytes ≠ []) (hcopied : 0 < copied) :
    bytes.take copied ≠ [] := by
  intro h
  rcases List.take_eq_nil_iff.1 h with hzero | hnil
  · omega
  · exact hbytes hnil

/-- What is taken of a line that has its newline. -/
theorem terminated_taken {content : Bytes} (rest : Bytes) {lineBytes maxLineBytes : Nat}
    (hcontent : newline ∉ content) (hfits : lineBytes + content.length ≤ maxLineBytes)
    (hlimit : maxLineBytes < wordMax) (remaining : Nat) :
    let copied := min (content.length + 1) remaining
    let taken := (content ++ newline :: rest).take copied
    OpenWithin newline maxLineBytes lineBytes taken ∧
      (if (some content.length).any (copied > ·) then 0 else satAdd lineBytes copied) =
        lineAfter newline lineBytes taken := by
  intro copied taken
  by_cases hwhole : content.length < remaining
  · have hcopied : copied = content.length + 1 := by omega
    have htaken : taken = content ++ [newline] := by
      unfold taken
      rw [hcopied, List.take_append, List.take_of_length_le (Nat.le_succ _),
        Nat.add_sub_cancel_left]
      rfl
    have hany : (some content.length).any (copied > ·) = true :=
      decide_eq_true (by omega : copied > content.length)
    rw [htaken, if_pos hany]
    constructor
    · apply openWithin_append.2
      rw [openWithin_cons, lineAfter_of_notMem hcontent, if_pos rfl, openWithin_nil]
      exact ⟨(openWithin_of_notMem hcontent).2 hfits, hfits, Nat.zero_le _⟩
    · exact (lineAfter_terminated content).symm
  · have hcopied : copied = remaining := by omega
    have htaken : taken = content.take remaining := by
      unfold taken
      rw [hcopied, List.take_append_of_le_length (Nat.le_of_not_lt hwhole)]
    have hopen : newline ∉ content.take remaining :=
      fun hmem => hcontent (List.mem_of_mem_take hmem)
    have hlength : (content.take remaining).length = copied := by
      rw [List.length_take]
      omega
    have hany : ¬ (some content.length).any (copied > ·) = true :=
      fun h => absurd (of_decide_eq_true h : copied > content.length) (by omega)
    rw [htaken, if_neg hany]
    constructor
    · rw [openWithin_of_notMem hopen, hlength]
      omega
    · rw [lineAfter_of_notMem hopen, hlength, satAdd_eq (by omega)]

theorem takeSegment_spec {reader : BoundedLineReader} (hlimit : reader.maxLineBytes < wordMax)
    (hbuffer : reader.inner.buffer ≠ []) (remaining : Nat) :
    reader.Overflows ∨ ∃ output reader', reader.takeSegment remaining = (.ready output, reader') ∧
      reader.Delivers remaining output reader' := by
  obtain ⟨⟨buffer, source⟩, lineBytes, maxLineBytes⟩ := reader
  dsimp only at hlimit hbuffer
  have hsegment := segment_findIdx? buffer
  generalize hfind : buffer.findIdx? (· = newline) = newlineAt at hsegment
  cases hsegment with
  | «open» hopen =>
    by_cases hlong : satAdd lineBytes buffer.length > maxLineBytes
    · refine .inl ⟨fun remaining => ?_, hbuffer, buffer, [], (List.append_nil _).symm, hopen, ?_⟩
      · simp only [takeSegment, hfind, if_neg hbuffer, Option.getD_none, if_pos hlong]
      · exact Nat.lt_of_lt_of_le hlong (satAdd_le _ _)
    · have hfits : lineBytes + buffer.length ≤ maxLineBytes :=
        (satAdd_le_iff hlimit).1 (Nat.le_of_not_lt hlong)
      have htaken : newline ∉ buffer.take (min buffer.length remaining) :=
        fun hmem => hopen (List.mem_of_mem_take hmem)
      refine .inr ?_
      simp only [takeSegment, hfind, if_neg hbuffer, Option.getD_none, if_neg hlong,
        Option.map_none]
      refine ⟨_, _, rfl, fun hpos => ?_, rest_consume ⟨buffer, source⟩ _, ?_, ?_, rfl⟩
      · have hlength := List.length_pos_iff.2 hbuffer
        exact take_ne_nil hbuffer (by omega)
      · rw [openWithin_of_notMem htaken, List.length_take]
        dsimp only
        omega
      · rw [lineAfter_of_notMem htaken, List.length_take]
        dsimp only [Option.any_none]
        rw [if_neg (by decide), satAdd_eq (by omega)]
        omega
  | terminated content rest heq hcontent =>
    subst heq
    by_cases hlong : satAdd lineBytes content.length > maxLineBytes
    · refine .inl ⟨fun remaining => ?_, hbuffer, content, newline :: rest, rfl, hcontent, ?_⟩
      · simp only [takeSegment, hfind, if_neg hbuffer, Option.getD_some, if_pos hlong]
      · exact Nat.lt_of_lt_of_le hlong (satAdd_le _ _)
    · have hfits : lineBytes + content.length ≤ maxLineBytes :=
        (satAdd_le_iff hlimit).1 (Nat.le_of_not_lt hlong)
      refine .inr ?_
      simp only [takeSegment, hfind, if_neg hbuffer, Option.getD_some, if_neg hlong,
        Option.map_some]
      obtain ⟨hwithin, hline⟩ := terminated_taken rest hcontent hfits hlimit remaining
      exact ⟨_, _, rfl, fun hpos => take_ne_nil hbuffer (by omega),
        rest_consume ⟨_, source⟩ _, hwithin, hline, rfl⟩

/-- What a poll comes to. -/
inductive Polls (reader : BoundedLineReader) (read : SourceRead) (remaining : Nat) :
    PollRead × BoundedLineReader → Prop
  | noRoom (h : remaining = 0) : Polls reader read remaining (.ready [], reader)
  | pending (h : read = .pending) : Polls reader read remaining (.pending, reader)
  | failed (h : read = .failed) : Polls reader read remaining (.failed, reader)
  | ended (inner : BufReader) (hbuffer : inner.rest = []) (hrest : reader.inner.rest = []) :
      Polls reader read remaining (.ready [], { reader with inner })
  | lineTooLong (inner : BufReader) (hrest : inner.rest = reader.inner.rest)
      (h : Overflows { reader with inner }) :
      Polls reader read remaining (.lineTooLong, { reader with inner })
  | delivers (output : Bytes) (reader' : BoundedLineReader)
      (h : reader.Delivers remaining output reader') :
      Polls reader read remaining (.ready output, reader')

theorem pollRead_polls {reader : BoundedLineReader} (hlimit : reader.maxLineBytes < wordMax)
    {read : SourceRead} (hread : read.Possible reader.inner.source) (remaining : Nat) :
    reader.Polls read remaining (reader.pollRead read remaining) := by
  unfold pollRead
  by_cases hremaining : remaining = 0
  · rw [if_pos hremaining]
    exact .noRoom hremaining
  · rw [if_neg hremaining]
    have hrest := reader.inner.rest_pollFillBuf read
    cases hfill : reader.inner.pollFillBuf read with
    | mk result filled =>
      rw [hfill] at hrest
      dsimp only at hrest ⊢
      cases result with
      | pending =>
        obtain ⟨rfl, rfl⟩ := BufReader.pollFillBuf_pending hfill
        exact .pending rfl
      | failed =>
        obtain ⟨rfl, rfl⟩ := BufReader.pollFillBuf_failed hfill
        exact .failed rfl
      | ready =>
        change reader.Polls read remaining
          (takeSegment { reader with inner := filled } remaining)
        by_cases hbuffer : filled.buffer = []
        · have hempty := BufReader.source_of_filled hread hfill hbuffer
          have htake : ({ reader with inner := filled } : BoundedLineReader).takeSegment
              remaining = (.ready [], { reader with inner := filled }) := by
            unfold takeSegment
            exact if_pos hbuffer
          rw [htake]
          exact .ended filled hempty (hrest.symm.trans hempty)
        · rcases @takeSegment_spec { reader with inner := filled } hlimit hbuffer
            remaining with hlong | ⟨output, reader', htake, hdelivers⟩
          · rw [hlong.stuck]
            exact .lineTooLong filled hrest hlong
          · rw [htake]
            exact .delivers output reader' { hdelivers with rest := hdelivers.rest.trans hrest }

/-- A line that is too long stays where it is. -/
theorem Overflows.pollRead {reader : BoundedLineReader} (h : reader.Overflows)
    (read : SourceRead) {remaining : Nat} (hremaining : remaining ≠ 0) :
    reader.pollRead read remaining = (.lineTooLong, reader) := by
  have hfill : reader.inner.pollFillBuf read = (.ready, reader.inner) := if_pos h.buffer
  unfold BoundedLineReader.pollRead
  rw [if_neg hremaining, hfill]
  exact h.stuck remaining

end BoundedLineReader

/-- There is room in the output, and the stream has what it is asked for. -/
def ReadEvent.Effective (event : ReadEvent) : Prop :=
  event.remaining ≠ 0 ∧ event.read ≠ .pending ∧ event.read ≠ .failed

instance (event : ReadEvent) : Decidable event.Effective :=
  inferInstanceAs (Decidable (_ ∧ _ ∧ _))

namespace ReadSystem

/-- What holds of a reader and of what it has delivered of its input. -/
structure Sound (limit : Nat) (input : Bytes) (s : ReadSystem) : Prop where
  content : s.delivered ++ s.reader.inner.rest = input
  maxLineBytes : s.reader.maxLineBytes = limit
  lineBytes : s.reader.lineBytes = lineAfter newline 0 s.delivered
  within : OpenWithin newline limit 0 s.delivered
  tooLong : s.lineTooLong = true → s.reader.Overflows
  ended : s.ended = true → s.reader.inner.rest = []

/-- The reading has come to its end, or to its error. -/
def Concluded (s : ReadSystem) : Prop := s.lineTooLong = true ∨ s.ended = true


theorem sound_new (limit : Nat) (input : Bytes) : (new input limit).Sound limit input where
  content := rfl
  maxLineBytes := rfl
  lineBytes := rfl
  within := openWithin_nil.2 (Nat.zero_le _)
  tooLong h := by cases h
  ended h := by cases h

/-- What one poll does, as the run rules need it. -/
structure Advances (limit : Nat) (input : Bytes) (s : ReadSystem) (event : ReadEvent)
    (t : ReadSystem) : Prop where
  sound : t.Sound limit input
  concluded : s.Concluded → t.Concluded
  grows : s.delivered.length ≤ t.delivered.length
  effective : event.Effective → t.Concluded ∨ s.delivered.length < t.delivered.length

variable {input : Bytes} {s t : ReadSystem} {event : ReadEvent}

theorem step_noRoom (hremaining : event.remaining = 0) (hstep : step s event = some t) :
    t = s := by
  have hpoll : s.reader.pollRead event.read event.remaining = (.ready [], s.reader) :=
    if_pos hremaining
  unfold step at hstep
  rw [hpoll] at hstep
  split at hstep
  case isFalse => cases hstep
  case isTrue =>
    rw [← Option.some.inj hstep]
    simp [hremaining]

theorem step_tooLong (h : s.Sound limit input) (hlong : s.lineTooLong = true)
    (hstep : step s event = some t) : t = s := by
  by_cases hremaining : event.remaining = 0
  · exact step_noRoom hremaining hstep
  · unfold step at hstep
    rw [(h.tooLong hlong).pollRead event.read hremaining] at hstep
    split at hstep
    case isFalse => cases hstep
    case isTrue =>
      rw [← Option.some.inj hstep, ← hlong]

theorem step_advances (hlimit : limit < wordMax) (h : s.Sound limit input)
    (hstep : step s event = some t) : Advances limit input s event t := by
  by_cases hremaining : event.remaining = 0
  · obtain rfl := step_noRoom hremaining hstep
    exact ⟨h, id, le_rfl, fun heffective => absurd hremaining heffective.1⟩
  by_cases hlong : s.lineTooLong = true
  · obtain rfl := step_tooLong h hlong hstep
    exact ⟨h, id, le_rfl, fun _ => .inl (.inl hlong)⟩
  unfold step at hstep
  split at hstep
  case isFalse => cases hstep
  case isTrue hpossible =>
    have hpolls := BoundedLineReader.pollRead_polls (h.maxLineBytes.symm ▸ hlimit) hpossible
      event.remaining
    generalize s.reader.pollRead event.read event.remaining = poll at hstep hpolls
    cases hpolls with
    | noRoom hzero => exact absurd hzero hremaining
    | pending hread =>
      obtain rfl := Option.some.inj hstep
      exact ⟨h, id, le_rfl, fun heffective => absurd hread heffective.2.1⟩
    | failed hread =>
      obtain rfl := Option.some.inj hstep
      exact ⟨h, id, le_rfl, fun heffective => absurd hread heffective.2.2⟩
    | ended inner hbuffer hrest =>
      obtain rfl := Option.some.inj hstep
      have hended : (s.ended || (decide (event.remaining ≠ 0) && decide (([] : Bytes) = []))) =
          true := by
        simp [hremaining]
      have hcontent : s.delivered ++ [] ++ inner.rest = input := by
        rw [List.append_nil, hbuffer, ← hrest]
        exact h.content
      refine ⟨⟨hcontent, h.maxLineBytes, ?_, ?_, fun h => absurd h hlong, fun _ => hbuffer⟩,
        fun _ => .inr hended, ?_, fun _ => .inl (.inr hended)⟩
      · rw [List.append_nil]
        exact h.lineBytes
      · rw [List.append_nil]
        exact h.within
      · rw [List.append_nil]
    | lineTooLong inner hrest hoverflows =>
      obtain rfl := Option.some.inj hstep
      have hcontent : s.delivered ++ inner.rest = input := hrest.symm ▸ h.content
      exact ⟨⟨hcontent, h.maxLineBytes, h.lineBytes, h.within, fun _ => hoverflows,
        fun hended => hrest.trans (h.ended hended)⟩, fun _ => .inl rfl, le_rfl,
        fun _ => .inl (.inl rfl)⟩
    | delivers output reader' hdelivers =>
      obtain rfl := Option.some.inj hstep
      have houtput : output ≠ [] := hdelivers.progress (Nat.pos_of_ne_zero hremaining)
      have hended : (s.ended || (decide (event.remaining ≠ 0) && decide (output = []))) =
          s.ended := by
        simp [houtput]
      have hlength : (s.delivered ++ output).length = s.delivered.length + output.length :=
        List.length_append
      have hpos := List.length_pos_iff.2 houtput
      rw [hended]
      refine ⟨⟨?_, hdelivers.maxLineBytes.trans h.maxLineBytes, ?_, ?_,
        fun h => absurd h hlong, ?_⟩, id, ?_, fun _ => .inr ?_⟩
      · rw [List.append_assoc, hdelivers.rest]
        exact h.content
      · rw [lineAfter_append, ← h.lineBytes]
        exact hdelivers.lineBytes
      · rw [openWithin_append, ← h.lineBytes]
        exact ⟨h.within, h.maxLineBytes ▸ hdelivers.within⟩
      · intro hend
        have hrest := hdelivers.rest.trans (h.ended hend)
        exact (List.append_eq_nil_iff.1 hrest).2
      · dsimp only
        omega
      · dsimp only
        omega

theorem run_advances (hlimit : limit < wordMax) {events : List ReadEvent}
    (h : s.Sound limit input) (hrun : run step s events = some t) :
    t.Sound limit input ∧ (s.Concluded → t.Concluded) ∧
      (t.Concluded ∨ s.delivered.length + events.countP (fun e => e.Effective) ≤
        t.delivered.length) := by
  induction events generalizing s with
  | nil =>
    obtain rfl := Option.some.inj hrun
    exact ⟨h, id, .inr le_rfl⟩
  | cons event events ih =>
    obtain ⟨u, hu, hrun⟩ := run_cons_eq_some.1 hrun
    have hstep := step_advances hlimit h hu
    obtain ⟨hsound, hconcluded, hcount⟩ := ih hstep.sound hrun
    refine ⟨hsound, fun hs => hconcluded (hstep.concluded hs), ?_⟩
    rcases hcount with hdone | hle
    · exact .inl hdone
    · rw [List.countP_cons]
      have hgrows := hstep.grows
      by_cases heffective : event.Effective
      · rcases hstep.effective heffective with hdone | hlt
        · exact .inl (hconcluded hdone)
        · refine .inr ?_
          rw [if_pos (decide_eq_true heffective)]
          omega
      · refine .inr ?_
        rw [if_neg (fun h => heffective (of_decide_eq_true h))]
        omega

/-- The line that is too long is the one that is open after what is delivered. -/
theorem Sound.openLine (h : s.Sound limit input) (hlong : s.lineTooLong = true) :
    ∃ more, newline ∉ more ∧ s.delivered ++ more <+: input ∧
      limit < lineAfter newline 0 s.delivered + more.length := by
  obtain ⟨more, after, hbuffer, hmore, hgt⟩ := (h.tooLong hlong).line
  refine ⟨more, hmore, ?_, ?_⟩
  · rw [← h.content, BufReader.rest, hbuffer, List.append_assoc, ← List.append_assoc]
    exact List.prefix_append (s.delivered ++ more) (after ++ s.reader.inner.source)
  · rw [← h.lineBytes, ← h.maxLineBytes]
    exact hgt

theorem Sound.overlong (h : s.Sound limit input) (hlong : s.lineTooLong = true) :
    ¬ LinesWithin newline limit input := by
  obtain ⟨more, hmore, hfront, hgt⟩ := h.openLine hlong
  intro hwithin
  have hline := linesWithin_iff.1 hwithin _ hfront
  rw [lineAfter_append, lineAfter_of_notMem hmore] at hline
  omega

theorem Sound.complete (h : s.Sound limit input) (hended : s.ended = true) :
    s.delivered = input := by
  rw [← h.content, h.ended hended, List.append_nil]

theorem Sound.linesWithin (h : s.Sound limit input) : LinesWithin newline limit s.delivered :=
  linesWithin_iff.2 h.within

end ReadSystem

/-! ## Writing -/

theorem getLast?_of_notMem {content : Bytes} (h : newline ∉ content) :
    content.getLast? ≠ some newline :=
  fun hlast => h (List.mem_of_getLast? hlast)

namespace BoundedLineWriter

theorem validateLoop_iff (hlimit : limit < wordMax) (bytes : Bytes) :
    ∀ count, count ≤ limit →
      (validateLoop limit count (splitInclusive newline bytes) = true ↔
        OpenWithin newline limit count bytes) := by
  induction bytes using @splitInclusive_induction UInt8 _ newline with
  | nil =>
    intro count hcount
    rw [openWithin_nil]
    exact ⟨fun _ => hcount, fun _ => rfl⟩
  | last content hcontent hne =>
    intro count hcount
    have hopen : decide (content.getLast? = some newline) = false :=
      decide_eq_false (getLast?_of_notMem hcontent)
    rw [splitInclusive_of_notMem hcontent hne, openWithin_of_notMem hcontent, validateLoop,
      hopen, Bool.toNat_false, Nat.sub_zero, ← satAdd_le_iff hlimit]
    by_cases hlong : satAdd count content.length > limit
    · rw [if_pos hlong]
      exact ⟨fun h => (by cases h), fun h => absurd h (Nat.not_le_of_gt hlong)⟩
    · rw [if_neg hlong]
      exact ⟨fun _ => Nat.le_of_not_lt hlong, fun _ => rfl⟩
  | line content rest hcontent ih =>
    intro count hcount
    have hterminated : decide ((content ++ [newline]).getLast? = some newline) = true :=
      decide_eq_true List.getLast?_concat
    rw [splitInclusive_terminated hcontent, openWithin_append, openWithin_of_notMem hcontent,
      openWithin_cons, lineAfter_of_notMem hcontent, if_pos rfl, validateLoop, hterminated,
      Bool.toNat_true, List.length_append, List.length_singleton, Nat.add_sub_cancel,
      ← satAdd_le_iff hlimit]
    by_cases hlong : satAdd count content.length > limit
    · rw [if_pos hlong]
      exact ⟨fun h => (by cases h), fun h => absurd h.1 (Nat.not_le_of_gt hlong)⟩
    · have hfits := Nat.le_of_not_lt hlong
      rw [if_neg hlong, if_pos rfl, ih 0 (Nat.zero_le _)]
      exact ⟨fun h => ⟨hfits, hfits, h⟩, fun h => h.2.2⟩

theorem account_lineBytes (hlimit : limit < wordMax) (bytes : Bytes) :
    ∀ count, OpenWithin newline limit count bytes →
      (account ⟨count, limit⟩ bytes).lineBytes = lineAfter newline count bytes := by
  unfold account
  induction bytes using @splitInclusive_induction UInt8 _ newline with
  | nil => exact fun _ _ => rfl
  | last content hcontent hne =>
    intro count hopen
    have hfits := (openWithin_of_notMem hcontent).1 hopen
    rw [splitInclusive_of_notMem hcontent hne, lineAfter_of_notMem hcontent]
    dsimp only [List.foldl_cons, List.foldl_nil]
    rw [if_neg (getLast?_of_notMem hcontent), satAdd_eq (by omega)]
  | line content rest hcontent ih =>
    intro count hopen
    obtain ⟨hfront, hback⟩ := openWithin_append.1 hopen
    rw [splitInclusive_terminated hcontent, lineAfter_append, lineAfter, if_pos rfl,
      ← ih 0 (by simpa using (openWithin_cons.1 hback).2)]
    dsimp only [List.foldl_cons]
    rw [if_pos List.getLast?_concat]

end BoundedLineWriter

namespace WriteSystem

/-- What holds of a writer and of what its sink has taken. -/
structure Sound (limit : Nat) (s : WriteSystem) : Prop where
  accepted : s.sink = s.accepted.flatten
  maxLineBytes : s.writer.maxLineBytes = limit
  lineBytes : s.writer.lineBytes = lineAfter newline 0 s.sink
  within : OpenWithin newline limit 0 s.sink

variable {s t : WriteSystem} {event : WriteEvent}

theorem sound_new (limit : Nat) : (new limit).Sound limit where
  accepted := rfl
  maxLineBytes := rfl
  lineBytes := rfl
  within := openWithin_nil.2 (Nat.zero_le _)

theorem Sound.validate_iff (hlimit : limit < wordMax) (h : s.Sound limit) (bytes : Bytes) :
    s.writer.validate bytes = true ↔ LinesWithin newline limit (s.sink ++ bytes) := by
  unfold BoundedLineWriter.validate
  rw [linesWithin_iff, openWithin_append, ← h.lineBytes, h.maxLineBytes,
    BoundedLineWriter.validateLoop_iff hlimit bytes _ (h.lineBytes ▸ h.within.after)]
  exact ⟨fun hbytes => ⟨h.within, hbytes⟩, fun hboth => hboth.2⟩

theorem Sound.lineTooLong_iff (hlimit : limit < wordMax) (h : s.Sound limit) (bytes : Bytes)
    (sink : SinkWrite) :
    (s.writer.pollWrite bytes sink).1 = .lineTooLong ↔
      ¬ LinesWithin newline limit (s.sink ++ bytes) := by
  rw [← h.validate_iff hlimit]
  unfold BoundedLineWriter.pollWrite
  by_cases hvalid : s.writer.validate bytes = true
  · rw [if_pos hvalid]
    cases sink <;> simp [hvalid]
  · rw [if_neg hvalid]
    exact ⟨fun _ => hvalid, fun _ => rfl⟩

theorem step_sound (hlimit : limit < wordMax) (h : s.Sound limit)
    (hstep : step s event = some t) : t.Sound limit := by
  obtain ⟨bytes, sink⟩ := event
  unfold step at hstep
  split at hstep
  case isFalse => cases hstep
  case isTrue hpossible =>
    unfold BoundedLineWriter.pollWrite taken at hstep
    by_cases hvalid : s.writer.validate bytes = true
    · cases sink with
      | ready written =>
        dsimp only at hstep
        rw [if_pos hvalid, if_pos hvalid] at hstep
        obtain rfl := Option.some.inj hstep
        have hopen := linesWithin_iff.1 ((h.validate_iff hlimit bytes).1 hvalid)
        have htaken : OpenWithin newline limit 0 (s.sink ++ bytes.take written) :=
          fun p hp => hopen p
            (hp.trans ((List.prefix_append_right_inj s.sink).2 (List.take_prefix _ _)))
        refine ⟨?_, h.maxLineBytes, ?_, htaken⟩
        · dsimp only
          rw [h.accepted, List.flatten_append, List.flatten_singleton]
        · dsimp only
          rw [lineAfter_append, ← h.lineBytes]
          obtain ⟨⟨lineBytes, maxLineBytes⟩, _, _⟩ := s
          obtain rfl : maxLineBytes = limit := h.maxLineBytes
          have hback := (openWithin_append.1 htaken).2
          rw [← h.lineBytes] at hback
          exact BoundedLineWriter.account_lineBytes hlimit _ _ hback
      | pending =>
        dsimp only at hstep
        rw [if_pos hvalid, List.append_nil] at hstep
        exact Option.some.inj hstep ▸ h
      | failed =>
        dsimp only at hstep
        rw [if_pos hvalid, List.append_nil] at hstep
        exact Option.some.inj hstep ▸ h
    · have hnone : taken s.writer ⟨bytes, sink⟩ = [] := by
        cases sink with
        | ready written => exact if_neg hvalid
        | pending => rfl
        | failed => rfl
      unfold taken at hnone
      rw [if_neg hvalid, hnone, List.append_nil] at hstep
      exact Option.some.inj hstep ▸ h

theorem run_sound (hlimit : limit < wordMax) {events : List WriteEvent}
    (hrun : run step (new limit) events = some t) : t.Sound limit :=
  run_invariant (fun _ _ _ h hstep => step_sound hlimit h hstep) (sound_new limit) hrun

end WriteSystem

/-- Reading: what is delivered is a beginning of the input whose lines are within the limit;
the error and the end of the stream tell whether all lines are, and one of the two comes
once the output has had room and the stream has been ready often enough.  Writing: the sink
has what the writes reported, its lines are within the limit, and a write is refused exactly
when a line would not be. -/
theorem stdio_lines_bounded (limit : Nat) (hlimit : limit < wordMax) :
    (∀ input events s, run ReadSystem.step (.new input limit) events = some s →
      s.delivered <+: input ∧ LinesWithin newline limit s.delivered ∧
      (s.ended = true → s.delivered = input) ∧
      (s.lineTooLong = true →
        lineAfter newline 0 s.delivered ≤ limit ∧
        (∃ more, newline ∉ more ∧ s.delivered ++ more <+: input ∧
          limit < lineAfter newline 0 s.delivered + more.length) ∧
        ∀ read remaining, remaining ≠ 0 →
          s.reader.pollRead read remaining = (.lineTooLong, s.reader)) ∧
      (s.lineTooLong = true → ¬ LinesWithin newline limit input) ∧
      (input.length < events.countP (fun e => e.Effective) →
        (s.lineTooLong = true ↔ ¬ LinesWithin newline limit input) ∧
        (s.ended = true ↔ LinesWithin newline limit input))) ∧
    (∀ events s, run WriteSystem.step (.new limit) events = some s →
      s.sink = s.accepted.flatten ∧ LinesWithin newline limit s.sink ∧
      ∀ bytes sink, (s.writer.pollWrite bytes sink).1 = .lineTooLong ↔
        ¬ LinesWithin newline limit (s.sink ++ bytes)) := by
  refine ⟨fun input events s hrun => ?_, fun events s hrun => ?_⟩
  · obtain ⟨hsound, -, hcount⟩ :=
      ReadSystem.run_advances hlimit (ReadSystem.sound_new limit input) hrun
    have hbegins : s.delivered <+: input := ⟨s.reader.inner.rest, hsound.content⟩
    refine ⟨hbegins, hsound.linesWithin, hsound.complete, fun hlong => ⟨hsound.within.after,
      hsound.openLine hlong, (hsound.tooLong hlong).pollRead⟩, hsound.overlong, fun hlt => ?_⟩
    have hended : s.ended = true → LinesWithin newline limit input :=
      fun hended => hsound.complete hended ▸ hsound.linesWithin
    have hdone : s.lineTooLong = true ∨ s.ended = true := by
      rcases hcount with hdone | hle
      · exact hdone
      · have hlength := hbegins.length_le
        have hnone : (ReadSystem.new input limit).delivered.length = 0 := rfl
        omega
    refine ⟨⟨hsound.overlong, fun hover => ?_⟩, hended, fun hwithin => ?_⟩
    · exact hdone.resolve_right fun h => hover (hended h)
    · exact hdone.resolve_left fun h => hsound.overlong h hwithin
  · have hsound := WriteSystem.run_sound hlimit hrun
    exact ⟨hsound.accepted, linesWithin_iff.2 hsound.within,
      hsound.lineTooLong_iff hlimit⟩

/-- The line `abc` is delivered, and of the line after it only what came in the first read. -/
theorem stdio_lines_bounded_sample :
    ∃ s, run ReadSystem.step (.new [97, 98, 99, 10, 100, 101, 102, 103, 104] 3)
        [⟨.ready 6, 9⟩, ⟨.ready 3, 9⟩, ⟨.ready 3, 9⟩] = some s ∧
      s.delivered = [97, 98, 99, 10, 100, 101] ∧ s.lineTooLong = true ∧
      ¬ LinesWithin newline 3 [97, 98, 99, 10, 100, 101, 102, 103, 104] := by
  have hresult : (run ReadSystem.step (.new [97, 98, 99, 10, 100, 101, 102, 103, 104] 3)
      [⟨.ready 6, 9⟩, ⟨.ready 3, 9⟩, ⟨.ready 3, 9⟩]).map
        (fun s => (s.delivered, s.lineTooLong)) = some ([97, 98, 99, 10, 100, 101], true) := by
    decide +kernel
  obtain ⟨s, hrun, hs⟩ := Option.map_eq_some_iff.1 hresult
  obtain ⟨hdelivered, hlong⟩ := Prod.mk.inj hs
  have hbounded := (stdio_lines_bounded 3 (by decide)).1 _ _ s hrun
  exact ⟨s, hrun, hdelivered, hlong, hbounded.2.2.2.2.1 hlong⟩

end Fluxcope.Mcp
