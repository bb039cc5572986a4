import Fluxcope.Logging.WriterSpec
/-!
# The logging service over whole runs

In every order of steps, no record is lost unnoticed: each stands in the queue, has reached
the panel's queue, or is counted as dropped, and what the files were handed is what the writer
received.
The writer never has to wait for the panel.
-/

namespace Fluxcope.Logging

open Fluxcope.Library Fluxcope.Library.Utf8 Fluxcope.Library.Rotation

namespace LoggingService

variable {s t : LoggingService} {event : LogEvent} {path : Bytes} {policy : LoggingPolicy}
  {files : LogDirectory} {before : Directory Bytes Bytes} {events : List LogEvent}

/-! ## Steps -/

/-- What a step can do. -/
inductive Change (s : LoggingService) : LogEvent → LoggingService → Prop
  | promised (hroom : s.records.length + s.reserved < s.queueCapacity) :
      Change s .reserve { s with
        reserved := s.reserved + 1
        history := { s.history with offered := s.history.offered + 1 } }
  | refused : Change s .reserve { s with
      producerDropped := s.producerDropped + 1
      history := { s.history with offered := s.history.offered + 1 } }
  | sent (record : Record) (hreserved : 0 < s.reserved) : Change s (.send record) { s with
      logger := { s.logger with metrics := (s.logger.formatRecord record).2 }
      reserved := s.reserved - 1
      records := s.records ++ [(s.logger.formatRecord record).1]
      history := { s.history with
        queued := s.history.queued ++ [(s.logger.formatRecord record).1] } }
  | opened (fault : Option OpenFault) (sized : Bool) (hphase : s.phase = .opening) :
      Change s (.openFile fault sized) { s with
        writer := (s.writer.start fault sized).1
        phase := s.afterDisk (s.writer.start fault sized).2 none }
  | received (record : Bytes) (records : List Bytes) (hphase : s.phase = .receiving)
      (hrecords : s.records = record :: records) : Change s .receive { s with
        records
        phase := .appending record
        history := { s.history with received := s.history.received ++ [record] } }
  | appended (record : Bytes) (faults : DiskFaults) (hphase : s.phase = .appending record) :
      Change s (.append faults) { s with
        writer := (s.writer.append record faults).1
        phase := s.afterDisk (s.writer.append record faults).2 (some record) }
  | settled (name : Bytes) (fault : Option WriteFault) (writer : LogWriter)
      (hsettle : s.writer.settle name fault = some writer) :
      Change s (.settle name fault) { s with writer }
  | told (message : Bytes) (record : Option Bytes) (hphase : s.phase = .degrading message record)
      (hroom : s.statuses.length < s.statusCapacity) : Change s .sendStatus { s with
        statuses := s.statuses ++ [message]
        phase := afterStatus record
        history := { s.history with sent := s.history.sent ++ [message] } }
  | untold (event : LogEvent) (message : Bytes) (record : Option Bytes)
      (hphase : s.phase = .degrading message record) :
      Change s event { s with phase := afterStatus record }
  | forwarded (record : Bytes) (hphase : s.phase = .forwarding record)
      (hroom : s.tui.length < s.tuiCapacity) : Change s .forward { s with
        tui := s.tui ++ [record]
        phase := .receiving
        history := { s.history with forwarded := s.history.forwarded ++ [record] } }
  | dropped (record : Bytes) (hphase : s.phase = .forwarding record) :
      Change s .forward { s with
        tuiDropped := s.tuiDropped + 1
        phase := .receiving
        history := { s.history with forwarded := s.history.forwarded ++ [record] } }
  | stopped (hphase : s.phase = .receiving) : Change s .shutdown { s with phase := .stopped }
  | cancelled : Change s .cancel { s with cancelled := true }
  | unwatched : Change s .unwatch { s with watched := false }
  | shown (record : Bytes) (tui : List Bytes) (htui : s.tui = record :: tui) :
      Change s .showRecord { s with
        tui
        panel := s.panel.addLog record
        history := { s.history with
          noted := s.history.noted ++ [record]
          shown := s.history.shown ++ [record] } }
  | shownStatus (message : Bytes) (statuses : List Bytes) (hstatuses : s.statuses = message :: statuses) :
      Change s .showStatus { s.appendLog (SystemHeading.loggingError.text ++ message) with statuses }
  | noted (heading : SystemHeading) (message : Bytes) :
      Change s (.note heading message) (s.appendLog (heading.text ++ message))
  | rendered : Change s .render { s with panel := s.panel.renderText.1 }

theorem step_change (hstep : s.step event = some t) : Change s event t := by
  cases event with
  | reserve =>
    cases hstep
    unfold reserve
    dsimp only
    split
    · exact .refused
    · split
      · rename_i hroom
        exact .promised hroom
      · exact .refused
  | send record =>
    simp only [step] at hstep
    split at hstep
    · rename_i hreserved
      cases hstep
      exact .sent record hreserved
    · cases hstep
  | openFile fault sized =>
    cases hphase : s.phase <;> simp only [step, hphase, reduceCtorEq] at hstep
    cases hstep
    exact .opened fault sized hphase
  | receive =>
    cases hphase : s.phase <;> simp only [step, hphase, reduceCtorEq] at hstep
    split at hstep
    · rename_i record records hrecords
      cases hstep
      exact .received record records hphase hrecords
    · cases hstep
  | append faults =>
    cases hphase : s.phase <;> simp only [step, hphase, reduceCtorEq] at hstep
    cases hstep
    exact .appended _ faults hphase
  | settle name fault =>
    obtain ⟨writer, hsettle, rfl⟩ := Option.map_eq_some_iff.1 hstep
    exact .settled name fault writer hsettle
  | sendStatus =>
    cases hphase : s.phase <;> simp only [step, hphase, reduceCtorEq] at hstep
    split at hstep
    · cases hstep
      exact .untold _ _ _ hphase
    · split at hstep
      · rename_i hroom
        cases hstep
        exact .told _ _ hphase hroom
      · cases hstep
  | forward =>
    cases hphase : s.phase <;> simp only [step, hphase, reduceCtorEq] at hstep
    cases hstep
    unfold tryForward
    split
    · rename_i hroom
      rw [Bool.and_eq_true, decide_eq_true_eq] at hroom
      exact .forwarded _ hphase hroom.2
    · exact .dropped _ hphase
  | shutdown =>
    cases hphase : s.phase <;> simp only [step, hphase, reduceCtorEq] at hstep
    case receiving =>
        split at hstep
        · cases hstep
          exact .stopped hphase
        · cases hstep
    case degrading message record =>
        split at hstep
        · cases hstep
          exact .untold _ _ _ hphase
        · cases hstep
  | cancel =>
    cases hstep
    exact .cancelled
  | unwatch =>
    cases hstep
    exact .unwatched
  | showRecord =>
    simp only [step] at hstep
    split at hstep
    · rename_i record tui hwatched htui
      cases hstep
      exact .shown record tui htui
    · cases hstep
  | showStatus =>
    simp only [step] at hstep
    split at hstep
    · rename_i message statuses hwatched hstatuses
      cases hstep
      exact .shownStatus message statuses hstatuses
    · cases hstep
  | note heading message =>
    simp only [step] at hstep
    split at hstep
    · cases hstep
      exact .noted heading message
    · cases hstep
  | render =>
    simp only [step] at hstep
    split at hstep
    · cases hstep
      exact .rendered
    · cases hstep

/-! ## Records on their way -/

/-- The record that the writer has at hand. -/
def inHand : WriterPhase → List Bytes
  | .appending record | .degrading _ (some record) | .forwarding record => [record]
  | _ => []

@[simp] theorem inHand_afterStatus (message : Bytes) (record : Option Bytes) :
    inHand (afterStatus record) = inHand (.degrading message record) := by
  cases record <;> rfl

@[simp] theorem inHand_afterDisk (error : Option IoError) (record : Option Bytes) :
    inHand (s.afterDisk error record) = record.toList := by
  cases error <;> cases record <;> rfl

/-- Where the records are. -/
structure Flows (s : LoggingService) : Prop where
  queue : s.history.queued = s.history.received ++ s.records
  within : s.records.length + s.reserved ≤ s.queueCapacity
  offered : s.history.offered = s.history.queued.length + s.reserved + s.producerDropped
  hand : s.history.received = s.history.forwarded ++ inHand s.phase
  forwarded : (s.history.shown ++ s.tui).Sublist s.history.forwarded
  counted : s.history.forwarded.length = s.history.shown.length + s.tui.length + s.tuiDropped
  room : s.tui.length ≤ s.tuiCapacity

theorem flows_init (path : Bytes) (policy : LoggingPolicy) (before : Directory Bytes Bytes) :
    (init path policy before).Flows where
  queue := rfl
  within := Nat.zero_le _
  offered := rfl
  hand := rfl
  forwarded := .slnil
  counted := rfl
  room := Nat.zero_le _

theorem Flows.change (h : s.Flows) (hchange : Change s event t) : t.Flows := by
  obtain ⟨hqueue, hwithin, hoffered, hhand, hforwarded, hcounted, hroom⟩ := h
  cases hchange with
  | promised hroom' =>
    refine ⟨hqueue, ?_, ?_, hhand, hforwarded, hcounted, hroom⟩
    · show s.records.length + (s.reserved + 1) ≤ s.queueCapacity
      omega
    · dsimp only
      omega
  | refused =>
    refine ⟨hqueue, hwithin, ?_, hhand, hforwarded, hcounted, hroom⟩
    dsimp only
    omega
  | sent record hreserved =>
    refine ⟨?_, ?_, ?_, hhand, hforwarded, hcounted, hroom⟩
    · dsimp only
      rw [hqueue, List.append_assoc]
    · have hlength : (s.records ++ [(s.logger.formatRecord record).1]).length +
          (s.reserved - 1) = s.records.length + s.reserved := by
        rw [List.length_append, List.length_singleton]
        omega
      exact hlength.trans_le hwithin
    · dsimp only
      rw [List.length_append, List.length_singleton]
      omega
  | opened fault sized hphase =>
    rw [hphase] at hhand
    refine ⟨hqueue, hwithin, hoffered, ?_, hforwarded, hcounted, hroom⟩
    dsimp only
    rw [inHand_afterDisk]
    exact hhand
  | received record records hphase hrecords =>
    rw [hphase] at hhand
    rw [hrecords] at hqueue hwithin
    refine ⟨?_, ?_, hoffered, ?_, hforwarded, hcounted, hroom⟩
    · dsimp only
      rw [hqueue, List.append_assoc]
      rfl
    · exact (Nat.add_le_add_right (Nat.le_succ _) _).trans hwithin
    · dsimp only
      rw [hhand, inHand, inHand, List.append_nil]
      all_goals simp
  | appended record faults hphase =>
    rw [hphase] at hhand
    refine ⟨hqueue, hwithin, hoffered, ?_, hforwarded, hcounted, hroom⟩
    dsimp only
    rw [inHand_afterDisk]
    exact hhand
  | told message record hphase hroom' =>
    rw [hphase] at hhand
    refine ⟨hqueue, hwithin, hoffered, ?_, hforwarded, hcounted, hroom⟩
    dsimp only
    rw [inHand_afterStatus message]
    exact hhand
  | untold _ message record hphase =>
    rw [hphase] at hhand
    refine ⟨hqueue, hwithin, hoffered, ?_, hforwarded, hcounted, hroom⟩
    dsimp only
    rw [inHand_afterStatus message]
    exact hhand
  | forwarded record hphase hroom' =>
    rw [hphase] at hhand
    refine ⟨hqueue, hwithin, hoffered, ?_, ?_, ?_, ?_⟩
    · dsimp only
      rw [hhand, inHand, inHand, List.append_nil]
      all_goals simp
    · dsimp only
      rw [← List.append_assoc]
      exact hforwarded.append (List.Sublist.refl _)
    · dsimp only
      rw [List.length_append, List.length_append, List.length_singleton]
      omega
    · have hlength : (s.tui ++ [record]).length = s.tui.length + 1 := by simp
      exact hlength.trans_le hroom'
  | dropped record hphase =>
    rw [hphase] at hhand
    refine ⟨hqueue, hwithin, hoffered, ?_, ?_, ?_, hroom⟩
    · dsimp only
      rw [hhand, inHand, inHand, List.append_nil]
      all_goals simp
    · exact hforwarded.trans (List.sublist_append_left _ _)
    · dsimp only
      rw [List.length_append, List.length_singleton]
      omega
  | stopped hphase =>
    rw [hphase] at hhand
    exact ⟨hqueue, hwithin, hoffered, hhand, hforwarded, hcounted, hroom⟩
  | shown record tui htui =>
    rw [htui] at hforwarded hcounted hroom
    refine ⟨hqueue, hwithin, hoffered, hhand, ?_, ?_, (Nat.le_succ _).trans hroom⟩
    · dsimp only
      rw [List.append_assoc]
      exact hforwarded
    · dsimp only
      rw [List.length_cons] at hcounted
      rw [List.length_append, List.length_singleton]
      omega
  | settled | cancelled | unwatched | shownStatus | noted | rendered =>
    exact ⟨hqueue, hwithin, hoffered, hhand, hforwarded, hcounted, hroom⟩

/-! ## The end of the logging to disk -/

theorem start_degrades {writer : LogWriter} {fault : Option OpenFault} {sized : Bool}
    {error : IoError} (hstart : (writer.start fault sized).2 = some error) :
    (writer.start fault sized).1.file = false := by
  unfold LogWriter.start at *
  dsimp only at *
  split
  · rename_i hok
    rw [hok] at hstart
    cases hstart
  · rfl

/-- A record that cannot be appended was to be appended to an open file, which is closed. -/
theorem append_degrades {writer : LogWriter} {record : Bytes} {faults : DiskFaults} :
    ((writer.append record faults).1.file = true → writer.file = true) ∧
      ∀ error, (writer.append record faults).2 = some error →
        writer.file = true ∧ (writer.append record faults).1.file = false := by
  have hwrite : ∀ {writer next : LogWriter} {error : IoError},
      writer.write record faults = (next, some error) → next.file = false := by
    intro writer next error hwrite
    have hwrites := LogWriter.write_writes writer record faults
    rw [hwrite] at hwrites
    cases hwrites <;> rfl
  cases happend : writer.append record faults with
  | mk next error =>
    rcases LogWriter.append_cases happend with ⟨hclosed, rfl, rfl⟩ |
      ⟨hfile, ⟨-, hnext⟩ | ⟨replaced, -, hnext⟩ | ⟨failure, hreplace, rfl⟩⟩
    · exact ⟨id, fun error herror => by cases herror⟩
    · refine ⟨fun _ => hfile, fun error herror => ⟨hfile, ?_⟩⟩
      cases herror
      exact hwrite hnext
    · refine ⟨fun _ => hfile, fun error herror => ⟨hfile, ?_⟩⟩
      cases herror
      exact hwrite hnext
    · exact ⟨fun _ => hfile, fun error herror => ⟨hfile, LogWriter.replaceFile_failed hreplace⟩⟩

/-- At most one message tells that the logging to disk has ended. -/
structure Degrades (s : LoggingService) : Prop where
  statuses : s.statuses.length ≤ s.history.sent.length
  once : s.history.sent.length ≤ 1
  working : s.writer.file = true ∨ s.phase = .opening → s.history.sent = []
  degrading : ∀ message record, s.phase = .degrading message record →
    s.history.sent = [] ∧ s.writer.file = false

theorem degrades_init (path : Bytes) (policy : LoggingPolicy) (before : Directory Bytes Bytes) :
    (init path policy before).Degrades where
  statuses := Nat.le_refl 0
  once := Nat.zero_le 1
  working _ := rfl
  degrading _ _ hphase := by cases hphase

theorem afterDisk_degrading {error : Option IoError} {record record' : Option Bytes}
    {message : Bytes} (hphase : s.afterDisk error record = .degrading message record') :
    ∃ failure, error = some failure := by
  cases error with
  | some failure => exact ⟨failure, rfl⟩
  | none => cases record <;> cases hphase

theorem afterDisk_ne_opening (error : Option IoError) (record : Option Bytes) :
    s.afterDisk error record ≠ .opening := by
  cases error <;> cases record <;> exact fun heq => by cases heq

theorem afterStatus_cases (record : Option Bytes) :
    afterStatus record ≠ .opening ∧
      ∀ message record', afterStatus record ≠ .degrading message record' := by
  cases record <;> exact ⟨(fun heq => by cases heq), (fun _ _ heq => by cases heq)⟩

theorem Degrades.change (h : s.Degrades) (hchange : Change s event t) : t.Degrades := by
  obtain ⟨hstatuses, honce, hworking, hdegrading⟩ := h
  have hopen : ∀ {phase : WriterPhase}, phase ≠ .opening →
      s.writer.file = true ∨ phase = .opening → s.history.sent = [] := fun hne hcase =>
    hcase.elim (fun hfile => hworking (.inl hfile)) fun heq => absurd heq hne
  cases hchange with
  | opened fault sized hphase =>
    refine ⟨hstatuses, honce, fun _ => hworking (.inr hphase), fun message record hnext => ?_⟩
    obtain ⟨failure, hfailure⟩ := afterDisk_degrading hnext
    exact ⟨hworking (.inr hphase), start_degrades hfailure⟩
  | received record records hphase hrecords =>
    exact ⟨hstatuses, honce, hopen (fun heq => by cases heq), fun _ _ hnext => by cases hnext⟩
  | appended record faults hphase =>
    obtain ⟨hstill, hclosed⟩ := @append_degrades s.writer record faults
    refine ⟨hstatuses, honce, fun hcase => ?_, fun message record hnext => ?_⟩
    · rcases hcase with hfile | hopening
      · exact hworking (.inl (hstill hfile))
      · exact absurd hopening (afterDisk_ne_opening _ _)
    · obtain ⟨failure, hfailure⟩ := afterDisk_degrading hnext
      obtain ⟨hfile, hnextFile⟩ := hclosed failure hfailure
      exact ⟨hworking (.inl hfile), hnextFile⟩
  | settled name fault writer hsettle =>
    obtain ⟨-, hsame, -⟩ := LogWriter.settle_params hsettle
    refine ⟨hstatuses, honce, fun hcase => hworking ?_, fun message record hphase => ?_⟩
    · exact hcase.imp_left fun hfile => hsame.symm.trans hfile
    · obtain ⟨hsent, hfile⟩ := hdegrading message record hphase
      exact ⟨hsent, hsame.trans hfile⟩
  | told message record hphase hroom =>
    obtain ⟨hsent, hfile⟩ := hdegrading message record hphase
    refine ⟨?_, ?_, fun hcase => ?_, fun _ _ hnext => absurd hnext ((afterStatus_cases _).2 _ _)⟩
    · dsimp only
      rw [List.length_append, List.length_append]
      omega
    · dsimp only
      rw [hsent]
      exact Nat.le_refl 1
    · rcases hcase with hopen | hopening
      · exact absurd (hfile.symm.trans hopen) (by decide)
      · exact absurd hopening (afterStatus_cases _).1
  | untold _ message record hphase =>
    obtain ⟨hsent, hfile⟩ := hdegrading message record hphase
    exact ⟨hstatuses, honce, fun _ => hsent,
      fun _ _ hnext => absurd hnext ((afterStatus_cases _).2 _ _)⟩
  | forwarded record hphase hroom =>
    exact ⟨hstatuses, honce, hopen (fun heq => by cases heq), fun _ _ hnext => by cases hnext⟩
  | dropped record hphase =>
    exact ⟨hstatuses, honce, hopen (fun heq => by cases heq), fun _ _ hnext => by cases hnext⟩
  | stopped hphase =>
    exact ⟨hstatuses, honce, hopen (fun heq => by cases heq), fun _ _ hnext => by cases hnext⟩
  | shownStatus message statuses heq =>
    rw [heq] at hstatuses
    exact ⟨(Nat.le_succ _).trans hstatuses, honce, hworking, hdegrading⟩
  | promised | refused | sent | cancelled | unwatched | shown | noted | rendered =>
    exact ⟨hstatuses, honce, hworking, hdegrading⟩

/-! ## What is on disk -/

/-- The line that a record adds to those that are begun. -/
theorem append_begun {writer next : LogWriter} {record : Bytes} {faults : DiskFaults}
    {error : Option IoError} (happend : writer.append record faults = (next, error)) :
    (next.begun = writer.begun ∧ next.file = false) ∨
      writer.file = true ∧ next.begun = writer.begun ++ [record] := by
  have hwrite : ∀ {writer : LogWriter}, writer.write record faults = (next, error) →
      (next.begun = writer.begun ∧ next.file = false) ∨
        next.begun = writer.begun ++ [record] := by
    intro writer hwrite
    have hwrites := LogWriter.write_writes writer record faults
    rw [hwrite] at hwrites
    cases hwrites with
    | hears failure hheard => exact .inl ⟨rfl, rfl⟩
    | fails fault hheard hfault => exact .inr rfl
    | goes hheard hfault => exact .inr rfl
  rcases LogWriter.append_cases happend with ⟨hclosed, rfl, -⟩ |
    ⟨hfile, ⟨-, hnext⟩ | ⟨replaced, hreplace, hnext⟩ | ⟨failure, hreplace, -⟩⟩
  · exact .inl ⟨rfl, hclosed⟩
  · exact (hwrite hnext).imp_right fun hbegun => ⟨hfile, hbegun⟩
  · have hsame := @LogWriter.replaceFile_begun writer faults
    rw [hreplace] at hsame
    have hcase := hwrite hnext
    rw [hsame] at hcase
    exact hcase.imp_right fun hbegun => ⟨hfile, hbegun⟩
  · have hsame := @LogWriter.replaceFile_begun writer faults
    rw [hreplace] at hsame
    exact .inl ⟨hsame, LogWriter.replaceFile_failed hreplace⟩

/-- The record that the writer has received and not yet turned to. -/
def pending : WriterPhase → List Bytes
  | .appending record => [record]
  | _ => []

@[simp] theorem pending_afterDisk (error : Option IoError) (record : Option Bytes) :
    pending (s.afterDisk error record) = [] := by
  cases error <;> cases record <;> rfl

@[simp] theorem pending_afterStatus (record : Option Bytes) : pending (afterStatus record) = [] := by
  cases record <;> rfl

/-- What the files were handed is the beginning of what was received: all of it as long as
the file is open. -/
structure OnDisk (files : LogDirectory) (s : LoggingService) : Prop where
  keeps : s.writer.Keeps files
  fresh : s.phase = .opening → s.writer.directory = files ∧ s.writer.begun = [] ∧
    s.history.received = []
  whole : s.writer.file = true → s.history.received = s.writer.begun ++ pending s.phase
  begins : s.writer.begun <+: s.history.received
  held : s.writer.Held s.history.received

theorem onDisk_init (path : Bytes) (policy : LoggingPolicy) (before : Directory Bytes Bytes) :
    (init path policy before).OnDisk (resting before) where
  keeps := @LogWriter.keeps_closed (resting before) (init path policy before).writer rfl rfl
  fresh _ := ⟨rfl, rfl, rfl⟩
  whole hfile := Bool.noConfusion hfile
  begins := List.prefix_refl _
  held := ⟨(rests_resting before).mono fun _ hrests => hrests.holds,
    fun hfile => Bool.noConfusion hfile⟩

theorem OnDisk.change (h : s.OnDisk files) (hrests : files.All LogFile.Rests) (hflows : s.Flows)
    (hchange : Change s event t) : t.OnDisk files := by
  obtain ⟨hkeeps, hfresh, hwhole, hbegins, hheld⟩ := h
  cases hchange with
  | opened fault sized hphase =>
    obtain ⟨hdirectory, hbegun, hreceived⟩ := hfresh hphase
    have hsame := @LogWriter.start_begun s.writer fault sized
    refine ⟨LogWriter.Keeps.start hdirectory hbegun fault sized,
      fun heq => absurd heq (afterDisk_ne_opening _ _), fun _ => ?_, ?_,
      LogWriter.Held.start (hdirectory ▸ hrests) fault sized⟩
    · dsimp only
      rw [pending_afterDisk, hsame, hbegun, hreceived]
      rfl
    · dsimp only
      rw [hsame]
      exact hbegins
  | received record records hphase hrecords =>
    rw [hphase] at hwhole
    refine ⟨hkeeps, (fun heq => by cases heq), fun hfile => ?_,
      hbegins.trans (List.prefix_append _ _), hheld.mono [record]⟩
    dsimp only
    rw [hwhole hfile, pending, pending, List.append_nil]
    all_goals simp
  | appended record faults hphase =>
    rw [hphase] at hwhole
    have hmem : record ∈ s.history.received := by
      rw [hflows.hand, hphase]
      exact List.mem_append_right _ List.mem_cons_self
    have hnext : ((s.writer.append record faults).1.file = true →
        s.history.received = (s.writer.append record faults).1.begun) ∧
        (s.writer.append record faults).1.begun <+: s.history.received := by
      cases happend : s.writer.append record faults with
      | mk next error =>
        dsimp only
        rcases append_begun happend with ⟨hsame, hclosed⟩ | ⟨hfile, hline⟩
        · rw [hsame]
          exact ⟨fun hopen => absurd (hclosed.symm.trans hopen) (by decide), hbegins⟩
        · rw [hline, hwhole hfile]
          exact ⟨fun _ => rfl, List.prefix_refl _⟩
    refine ⟨hkeeps.append record faults, fun heq => absurd heq (afterDisk_ne_opening _ _),
      fun hfile => ?_, hnext.2, hheld.append hmem faults⟩
    dsimp only
    rw [pending_afterDisk, List.append_nil]
    exact hnext.1 hfile
  | settled name fault writer hsettle =>
    obtain ⟨-, hfile, hbegun⟩ := LogWriter.settle_params hsettle
    refine ⟨hkeeps.settle hrests hsettle, fun hphase => ?_, fun hopen => ?_, ?_,
      hheld.settle hsettle⟩
    · -- Nobody writes to a file before one is opened.
      obtain ⟨file, bytes, hget, hbusy, -⟩ := LogWriter.settle_eq hsettle
      rw [(hfresh hphase).1] at hget
      rw [(hrests name file hget).1] at hbusy
      cases hbusy
    · dsimp only at hopen ⊢
      rw [hbegun]
      exact hwhole (hfile.symm.trans hopen)
    · dsimp only
      rw [hbegun]
      exact hbegins
  | told message record hphase hroom =>
    rw [hphase] at hwhole
    refine ⟨hkeeps, fun heq => absurd heq (afterStatus_cases _).1, fun hfile => ?_, hbegins, hheld⟩
    rw [pending_afterStatus]
    exact hwhole hfile
  | untold _ message record hphase =>
    rw [hphase] at hwhole
    refine ⟨hkeeps, fun heq => absurd heq (afterStatus_cases _).1, fun hfile => ?_, hbegins, hheld⟩
    rw [pending_afterStatus]
    exact hwhole hfile
  | forwarded record hphase hroom =>
    rw [hphase] at hwhole
    exact ⟨hkeeps, (fun heq => by cases heq), hwhole, hbegins, hheld⟩
  | dropped record hphase =>
    rw [hphase] at hwhole
    exact ⟨hkeeps, (fun heq => by cases heq), hwhole, hbegins, hheld⟩
  | stopped hphase =>
    rw [hphase] at hwhole
    exact ⟨hkeeps, (fun heq => by cases heq), hwhole, hbegins, hheld⟩
  | promised | refused | sent | cancelled | unwatched | shown | shownStatus | noted | rendered =>
    exact ⟨hkeeps, hfresh, hwhole, hbegins, hheld⟩

theorem params_change (hchange : Change s event t) : t.writer.params = s.writer.params ∧
    t.policy = s.policy ∧ t.panel.retention = s.panel.retention := by
  cases hchange with
  | opened fault sized hphase => exact ⟨LogWriter.params_start fault sized, rfl, rfl⟩
  | appended record faults hphase => exact ⟨LogWriter.params_append record faults, rfl, rfl⟩
  | settled name fault writer hsettle => exact ⟨(LogWriter.settle_params hsettle).1, rfl, rfl⟩
  | shown record tui htui => exact ⟨rfl, rfl, LogPanel.retention_addLog _ _⟩
  | shownStatus message statuses heq => exact ⟨rfl, rfl, LogPanel.retention_addLog _ _⟩
  | noted heading message => exact ⟨rfl, rfl, LogPanel.retention_addLog _ _⟩
  | rendered => exact ⟨rfl, rfl, LogPanel.retention_renderText _⟩
  | promised | refused | sent | received | told | untold | forwarded | dropped | stopped
  | cancelled | unwatched => exact ⟨rfl, rfl, rfl⟩

/-- The size of the file is known when it is opened. -/
def SizeKnown : LogEvent → Prop
  | .openFile _ sized => sized = true
  | _ => True

theorem Sized.change (h : s.writer.Sized files s.history.received) (hdisk : s.OnDisk files)
    (hrests : files.All LogFile.Rests) (hflows : s.Flows) (hknown : SizeKnown event)
    (hchange : Change s event t) : t.writer.Sized files t.history.received := by
  cases hchange with
  | opened fault sized hphase =>
    obtain rfl : sized = true := hknown
    exact .start (hdisk.fresh hphase).1 hrests fault
  | received record records hphase hrecords => exact h.mono [record]
  | appended record faults hphase =>
    refine h.append hdisk.keeps ?_ faults
    rw [hflows.hand, hphase]
    exact List.mem_append_right _ List.mem_cons_self
  | settled name fault writer hsettle => exact h.settle hsettle
  | promised | refused | sent | told | untold | forwarded | dropped | stopped
  | cancelled | unwatched | shown | shownStatus | noted | rendered => exact h

/-- No write fails. -/
def Succeeds : LogEvent → Prop
  | .append faults => faults.settling = none ∧ faults.writing = none
  | .settle _ fault => fault = none
  | _ => True

theorem Healthy.change (h : s.writer.Healthy) (hsucceeds : Succeeds event)
    (hchange : Change s event t) : t.writer.Healthy := by
  cases hchange with
  | opened fault sized hphase => exact h.start fault sized
  | appended record faults hphase => exact h.append hsucceeds.1 hsucceeds.2
  | settled name fault writer hsettle =>
    obtain rfl : fault = none := hsucceeds
    exact h.settle hsettle
  | promised | refused | sent | received | told | untold | forwarded | dropped | stopped
  | cancelled | unwatched | shown | shownStatus | noted | rendered => exact h

/-! ## The panel -/

theorem formatRecord_ne_nil (logger : AppLogger) (record : Record) :
    (logger.formatRecord record).1 ≠ [] := by
  by_cases hfits : record.fullText.length ≤ logger.payloadLimit
  · rw [AppLogger.formatRecord_of_fits hfits]
    have hseparator : ofAscii " - [" ≠ [] := by decide
    simp [Record.fullText, Record.fragments, hseparator]
  · obtain ⟨before, cut, after, boundary, hcut⟩ :=
      exists_cutAt record.fragments_valid (Nat.lt_of_not_le hfits)
    obtain ⟨added, -, hrecord, -, -⟩ := AppLogger.formatRecord_of_cut hcut
    have hsuffix : truncationSuffix ≠ [] := by decide
    rw [hrecord]
    simp [hsuffix]

/-- The panel shows the latest of what it has noted down, and no record is empty. -/
structure Notes (s : LoggingService) : Prop where
  shows : s.panel.Shows s.history.noted
  nonempty : ∀ record ∈ s.history.queued, record ≠ []
  shown : s.history.shown.Sublist s.history.noted

theorem Notes.change (h : s.Notes) (hflows : s.Flows) (hchange : Change s event t) : t.Notes := by
  have hsystem : ∀ (heading : SystemHeading) (message : Bytes), heading.text ++ message ≠ [] := by
    intro heading message hnil
    have hheading := (List.append_eq_nil_iff.1 hnil).1
    cases heading <;> exact absurd hheading (by decide)
  cases hchange with
  | sent record hreserved =>
    refine ⟨h.shows, fun r hr => ?_, h.shown⟩
    rcases List.mem_append.1 hr with hr | hr
    · exact h.nonempty r hr
    · rw [List.mem_singleton.1 hr]
      exact formatRecord_ne_nil s.logger record
  | shown record tui htui =>
    have hmem : record ∈ s.history.queued := by
      rw [hflows.queue, hflows.hand]
      refine List.mem_append_left _ (List.mem_append_left _ (hflows.forwarded.subset ?_))
      rw [htui]
      exact List.mem_append_right _ List.mem_cons_self
    exact ⟨h.shows.addLog (h.nonempty record hmem), h.nonempty,
      h.shown.append (List.Sublist.refl _)⟩
  | shownStatus message statuses heq =>
    exact ⟨h.shows.addLog (hsystem _ _), h.nonempty,
      h.shown.trans (List.sublist_append_left _ _)⟩
  | noted heading message =>
    exact ⟨h.shows.addLog (hsystem _ _), h.nonempty,
      h.shown.trans (List.sublist_append_left _ _)⟩
  | rendered => exact ⟨h.shows.renderText.1, h.nonempty, h.shown⟩
  | promised | refused | opened | received | appended | settled | told | untold | forwarded
  | dropped | stopped | cancelled | unwatched => exact ⟨h.shows, h.nonempty, h.shown⟩

/-! ## Runs -/

/-- What every step keeps. -/
structure Sound (before : Directory Bytes Bytes) (path : Bytes) (policy : LoggingPolicy)
    (s : LoggingService) : Prop where
  flows : s.Flows
  degrades : s.Degrades
  disk : s.OnDisk (resting before)
  notes : s.Notes
  params : s.writer.params = (path, policy.maxFileBytes, policy.retainedFiles)
  retention : s.panel.retention = policy.retention
  policy : s.policy = policy

theorem run_sound (hrun : run step (init path policy before) events = some s) :
    s.Sound before path policy := by
  refine run_invariant (I := Sound before path policy) (fun s event t h hstep => ?_)
    ⟨flows_init path policy before, degrades_init path policy before,
      onDisk_init path policy before,
      ⟨LogPanel.shows_withRetention policy.retention, fun _ hmem => absurd hmem List.not_mem_nil,
        .slnil⟩, rfl, rfl, rfl⟩ hrun
  have hchange := step_change hstep
  obtain ⟨hparams, hpolicy, hretention⟩ := params_change hchange
  exact ⟨h.flows.change hchange, h.degrades.change hchange,
    h.disk.change (rests_resting before) h.flows hchange,
    h.notes.change h.flows hchange, hparams.trans h.params,
    hretention.trans h.retention, hpolicy.trans h.policy⟩

theorem run_sized (hrun : run step (init path policy before) events = some s)
    (hknown : ∀ event ∈ events, SizeKnown event) :
    s.writer.Sized (resting before) s.history.received := by
  refine (run_invariant_along (I := fun s : LoggingService => s.OnDisk (resting before) ∧ s.Flows ∧
    s.writer.Sized (resting before) s.history.received) (fun s event t h hknown hstep => ?_)
    ⟨onDisk_init path policy before, flows_init path policy before,
      ⟨fun hfile => Bool.noConfusion hfile, fun i content hi hcontent => .inl ⟨i, hi, hcontent⟩⟩⟩
    (along_of_forall_mem hknown) hrun).2.2
  have hchange := step_change hstep
  have hrests := rests_resting before
  exact ⟨h.1.change hrests h.2.1 hchange, h.2.1.change hchange,
    Sized.change h.2.2 h.1 hrests h.2.1 hknown hchange⟩

theorem run_healthy (hrun : run step (init path policy before) events = some s)
    (hsucceeds : ∀ event ∈ events, Succeeds event) : s.writer.Healthy := by
  refine run_invariant_along (I := fun s : LoggingService => s.writer.Healthy)
    (fun s event t h hsucceeds hstep => ?_)
    ⟨rfl, (rests_resting before).mono fun _ hrests => hrests.complete⟩
    (along_of_forall_mem hsucceeds) hrun
  exact Healthy.change h hsucceeds (step_change hstep)

/-- Whatever fails, the files were handed, from the oldest to the one that is written to, the
end of what they held at first and of the lines of the first records that came in: all of
them while the file is open.  A file holds what it was handed, but for the end of its last
line; if no write fails, but for what is being written.  A rotated file is one from before
or was handed whole lines only, and other files are left alone.  If the size of the file was
known at first, each file is one from before, within the limit, or a part of one line. -/
theorem files_keep_records (hrun : run step (init path policy before) events = some s) :
    (∃ lost, lost ++ stacked (slot s.writer.directory path) policy.retainedFiles =
      stacked (slot (resting before) path) policy.retainedFiles ++ lines s.writer.begun) ∧
      s.writer.begun <+: s.history.received ∧
      (s.writer.file = true → s.history.received = s.writer.begun ++ pending s.phase) ∧
      s.writer.directory.All (LogFile.Holds s.history.received) ∧
      ((∀ event ∈ events, Succeeds event) → s.writer.directory.All LogFile.Complete) ∧
      (∀ i content, 0 < i → i ≤ policy.retainedFiles →
        slot s.writer.directory path i = some content →
        (∃ j, j ≤ policy.retainedFiles ∧ slot (resting before) path j = some content) ∨
          ∃ records, Whole (resting before) path content records ∧
            records <:+: s.writer.begun) ∧
      OthersKept path policy.retainedFiles (resting before) s.writer.directory ∧
      ((∀ event ∈ events, SizeKnown event) → ∀ i content, i ≤ policy.retainedFiles →
        slot s.writer.directory path i = some content →
        (∃ j, j ≤ policy.retainedFiles ∧ slot (resting before) path j = some content) ∨
          min content.length wordMax ≤ policy.maxFileBytes ∨
          ∃ record ∈ s.history.received, content <+: line record) := by
  have h := run_sound hrun
  obtain ⟨hpath, hmax, hretained⟩ : s.writer.path = path ∧
      s.writer.maxFileBytes = policy.maxFileBytes ∧
      s.writer.retainedFiles = policy.retainedFiles := by
    simpa [LogWriter.params] using h.params
  obtain ⟨horder, hothers, -, hrotated⟩ := h.disk.keeps
  rw [hpath, hretained] at horder hothers hrotated
  refine ⟨horder, h.disk.begins, h.disk.whole, h.disk.held.files,
    fun hsucceeds => (run_healthy hrun hsucceeds).files, hrotated, hothers, fun hknown => ?_⟩
  have hlimited := (run_sized hrun hknown).limited
  unfold LogWriter.Limited at hlimited
  rw [hpath, hmax, hretained] at hlimited
  exact hlimited

/-- Two records of which the second makes the file rotate while the end of the first is being
written, and one that the disk has no room for. -/
def sampleEvents : List LogEvent :=
  [.openFile none true, .reserve, .send sampleRecord, .reserve, .send sampleRecord, .receive,
    .append {}, .forward, .receive, .append {}, .forward, .showRecord, .render,
    .settle (rotatedPath (ofAscii "a.log") 1)
      (some { error := ofAscii "No space left on device", written := 0 }),
    .reserve, .send sampleRecord, .receive,
    .append { writing := some { error := ofAscii "No space left on device", written := 7 } },
    .note .metrics (ofAscii "log_tui_dropped=0"), .showRecord]

def sampleLogging : LoggingPolicy :=
  { maxRecordBytes := 40, maxFileBytes := 50, retainedFiles := 1, retention := { maxRecords := 2 } }

theorem files_keep_records_sample : ∃ s : LoggingService, ∃ lost,
    run step (init (ofAscii "a.log") sampleLogging .empty) sampleEvents = some s ∧
      lost ++ stacked (slot s.writer.directory (ofAscii "a.log")) 1 =
        lines s.writer.begun := by
  obtain ⟨s, hrun⟩ := Option.isSome_iff_exists.1
    (show (run step (init (ofAscii "a.log") sampleLogging .empty) sampleEvents).isSome = true by
      decide +kernel)
  obtain ⟨lost, hlost⟩ := (files_keep_records hrun).1
  exact ⟨s, lost, hrun, hlost⟩

/-! ## The writer goes on -/

/-- The step that the writer takes next, if the disk behaves like this. -/
def next (s : LoggingService) (faults : DiskFaults) (sized : Bool) : Option LogEvent :=
  match s.phase with
  | .opening => some (.openFile faults.opening sized)
  | .receiving => if s.records.isEmpty then none else some .receive
  | .appending _ => some (.append faults)
  | .degrading _ _ => some .sendStatus
  | .forwarding _ => some .forward
  | .stopped => none

/-- The writer has nothing to do. -/
def Idle (s : LoggingService) : Prop := s.phase = .receiving ∧ s.records = []

/-- How many steps the writer can take on its own. -/
def work (s : LoggingService) : Nat :=
  4 * s.records.length +
    match s.phase with
    | .opening | .appending _ => 3
    | .degrading _ _ => 2
    | .forwarding _ => 1
    | .receiving | .stopped => 0

/-- The writer's own steps. -/
def ownEvent : LogEvent → Bool
  | .openFile _ _ | .receive | .append _ | .sendStatus | .forward => true
  | _ => false

theorem work_afterDisk (error : Option IoError) (record : Option Bytes) :
    ({ s with phase := s.afterDisk error record }).work ≤ 4 * s.records.length + 2 := by
  cases error <;> cases record <;> simp [work, afterDisk]

theorem work_afterStatus (record : Option Bytes) :
    ({ s with phase := afterStatus record }).work ≤ 4 * s.records.length + 1 := by
  cases record <;> simp [work, afterStatus]

theorem afterDisk_ne_stopped (error : Option IoError) (record : Option Bytes) :
    s.afterDisk error record ≠ .stopped := by
  cases error <;> cases record <;> exact fun heq => by cases heq

theorem afterStatus_ne_stopped (record : Option Bytes) : afterStatus record ≠ .stopped := by
  cases record <;> exact fun heq => by cases heq

/-- A step of its own brings the writer closer to the end of the queue. -/
theorem own_change (hown : ownEvent event = true) (hchange : Change s event t) :
    t.work < s.work ∧ t.phase ≠ .stopped ∧ t.history.queued = s.history.queued := by
  cases hchange with
  | opened fault sized hphase =>
    refine ⟨?_, afterDisk_ne_stopped _ _, rfl⟩
    have hle := @work_afterDisk s (s.writer.start fault sized).2 none
    have hwork : s.work = 4 * s.records.length + 3 := by simp [work, hphase]
    rw [hwork]
    exact Nat.lt_succ_of_le hle
  | received record records hphase hrecords =>
    refine ⟨?_, (fun heq => by cases heq), rfl⟩
    simp only [work, hphase, hrecords, List.length_cons]
    omega
  | appended record faults hphase =>
    refine ⟨?_, afterDisk_ne_stopped _ _, rfl⟩
    have hle := @work_afterDisk s (s.writer.append record faults).2 (some record)
    have hwork : s.work = 4 * s.records.length + 3 := by simp [work, hphase]
    rw [hwork]
    exact Nat.lt_succ_of_le hle
  | told message record hphase hroom =>
    refine ⟨?_, afterStatus_ne_stopped _, rfl⟩
    have hle := @work_afterStatus s record
    have hwork : s.work = 4 * s.records.length + 2 := by simp [work, hphase]
    rw [hwork]
    exact Nat.lt_succ_of_le hle
  | untold _ message record hphase =>
    refine ⟨?_, afterStatus_ne_stopped _, rfl⟩
    have hle := @work_afterStatus s record
    have hwork : s.work = 4 * s.records.length + 2 := by simp [work, hphase]
    rw [hwork]
    exact Nat.lt_succ_of_le hle
  | forwarded record hphase hroom =>
    refine ⟨?_, (fun heq => by cases heq), rfl⟩
    simp only [work, hphase]
    omega
  | dropped record hphase =>
    refine ⟨?_, (fun heq => by cases heq), rfl⟩
    simp only [work, hphase]
    omega
  | promised | refused | sent | settled | stopped | cancelled | unwatched | shown | shownStatus
  | noted | rendered => cases hown

/-- Whatever the disk does, the writer does not wait for the panel. -/
theorem Degrades.next_enabled (h : s.Degrades) (hrunning : s.phase ≠ .stopped) (hbusy : ¬ s.Idle)
    (faults : DiskFaults) (sized : Bool) :
    ∃ event, s.next faults sized = some event ∧ ownEvent event = true ∧
      (s.step event).isSome = true := by
  cases hphase : s.phase with
  | opening =>
    exact ⟨.openFile faults.opening sized, by simp [next, hphase], rfl, by simp [step, hphase]⟩
  | receiving =>
    cases hrecords : s.records with
    | nil => exact absurd ⟨hphase, hrecords⟩ hbusy
    | cons record records =>
      exact ⟨.receive, by simp [next, hphase, hrecords], rfl, by simp [step, hphase, hrecords]⟩
  | appending record =>
    exact ⟨.append faults, by simp [next, hphase], rfl, by simp [step, hphase]⟩
  | degrading message record =>
    -- no message has been sent before, so there is room for this one
    have hroom : s.statuses.length < s.statusCapacity := by
      have hle := h.statuses
      rw [(h.degrading message record hphase).1] at hle
      exact hle.trans_lt (Nat.lt_of_lt_of_le Nat.one_pos (le_max_right _ _))
    refine ⟨.sendStatus, by simp [next, hphase], rfl, ?_⟩
    simp only [step, hphase, hroom, if_true]
    split <;> rfl
  | forwarding record =>
    exact ⟨.forward, by simp [next, hphase], rfl, by simp [step, hphase]⟩
  | stopped => exact absurd hphase hrunning

theorem run_own {labels : List LogEvent} (hown : ∀ label ∈ labels, ownEvent label = true)
    (hrunning : s.phase ≠ .stopped) (hrun : run step s labels = some t) :
    labels.length + t.work ≤ s.work ∧ t.phase ≠ .stopped ∧
      t.history.queued = s.history.queued := by
  induction labels generalizing s with
  | nil =>
    obtain rfl := Option.some.inj hrun
    exact ⟨by rw [List.length_nil, Nat.zero_add], hrunning, rfl⟩
  | cons label labels ih =>
    obtain ⟨u, hstep, hrest⟩ := run_cons_eq_some.1 hrun
    obtain ⟨hwork, hstill, hqueued⟩ :=
      own_change (hown label List.mem_cons_self) (step_change hstep)
    obtain ⟨hlength, hlast, hsame⟩ :=
      ih (fun label hmem => hown label (List.mem_cons_of_mem _ hmem)) hstill hrest
    refine ⟨?_, hlast, hsame.trans hqueued⟩
    rw [List.length_cons]
    omega

/-- In every order of steps, each log call is in the queue, promised a slot, counted as
dropped or received; what was received has been handed to the panel's queue in order or is
counted as dropped there, up to the record at hand.  At most one message reports a failure.
As long as the writer has not stopped, its own steps, of which it has only so many to take,
lead to the end of the queue, whatever the disk does and whether or not the panel moves. -/
theorem records_flow (hrun : run step (init path policy before) events = some s) :
    s.history.queued = s.history.received ++ s.records ∧
      s.history.offered = s.history.queued.length + s.reserved + s.producerDropped ∧
      s.history.received = s.history.forwarded ++ inHand s.phase ∧
      (s.history.shown ++ s.tui).Sublist s.history.forwarded ∧
      s.history.forwarded.length = s.history.shown.length + s.tui.length + s.tuiDropped ∧
      s.records.length + s.reserved ≤ max policy.writerQueueCapacity 1 ∧
      s.tui.length ≤ max policy.tuiQueueCapacity 1 ∧
      s.statuses.length ≤ max policy.statusQueueCapacity 1 ∧ s.history.sent.length ≤ 1 ∧
      (s.phase ≠ .stopped → ∀ labels t, (∀ label ∈ labels, ownEvent label = true) →
        run step s labels = some t → labels.length ≤ s.work ∧
          (t.Idle → t.history.forwarded = s.history.queued) ∧
          (¬ t.Idle → ∀ faults sized, ∃ event, t.next faults sized = some event ∧
            ownEvent event = true ∧ (t.step event).isSome = true)) := by
  have h := run_sound hrun
  have hflows := h.flows
  have hwithin := hflows.within
  have hroom := hflows.room
  unfold queueCapacity at hwithin
  unfold tuiCapacity at hroom
  rw [h.policy] at hwithin hroom
  have hstatuses : s.statuses.length ≤ max policy.statusQueueCapacity 1 :=
    (h.degrades.statuses.trans h.degrades.once).trans (le_max_right _ _)
  refine ⟨hflows.queue, hflows.offered, hflows.hand, hflows.forwarded, hflows.counted, hwithin,
    hroom, hstatuses, h.degrades.once, fun hrunning labels t hown hlabels => ?_⟩
  obtain ⟨hlength, hstill, hqueued⟩ := run_own hown hrunning hlabels
  have hsound : t.Sound before path policy := run_sound (run_append_eq_some.2 ⟨s, hrun, hlabels⟩)
  refine ⟨(Nat.le_add_right _ _).trans hlength, fun hidle => ?_, fun hbusy faults sized =>
    hsound.degrades.next_enabled hstill hbusy faults sized⟩
  obtain ⟨hphase, hrecords⟩ := hidle
  have hall := hsound.flows.queue
  rw [hsound.flows.hand, hphase, hrecords, List.append_nil] at hall
  rw [← hqueued, hall, inHand, List.append_nil]
  all_goals simp

theorem records_flow_sample : ∃ s : LoggingService,
    run step (init (ofAscii "a.log") sampleLogging .empty) sampleEvents = some s ∧
      s.history.queued = s.history.received ++ s.records := by
  obtain ⟨s, hrun⟩ := Option.isSome_iff_exists.1
    (show (run step (init (ofAscii "a.log") sampleLogging .empty) sampleEvents).isSome = true by
      decide +kernel)
  exact ⟨s, hrun, (records_flow hrun).1⟩

/-- In every order of steps, the panel keeps the longest end of what it has noted down
that its bounds allow, and its text is made of just these records.  What it takes from
its queue it notes down in order. -/
theorem panel_shows_latest (hrun : run step (init path policy before) events = some s) :
    LogPanel.LatestOf policy.retention s.history.noted s.panel.logs ∧
      s.panel.retainedBytes = s.panel.logs.flatten.length ∧
      s.panel.renderText.2 = LogPanel.rebuildRenderedText s.panel.logs ∧
      s.history.shown.Sublist s.history.noted := by
  have h := run_sound hrun
  obtain ⟨-, -, htext⟩ := h.notes.shows.renderText
  exact ⟨h.retention ▸ h.notes.shows.latest, h.notes.shows.bytes, htext, h.notes.shown⟩

theorem panel_shows_latest_sample : ∃ s : LoggingService,
    run step (init (ofAscii "a.log") sampleLogging .empty) sampleEvents = some s ∧
      LogPanel.LatestOf { maxRecords := 2 } s.history.noted s.panel.logs := by
  obtain ⟨s, hrun⟩ := Option.isSome_iff_exists.1
    (show (run step (init (ofAscii "a.log") sampleLogging .empty) sampleEvents).isSome = true by
      decide +kernel)
  exact ⟨s, hrun, (panel_shows_latest hrun).1⟩

end LoggingService

end Fluxcope.Logging
