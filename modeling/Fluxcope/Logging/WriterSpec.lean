import Fluxcope.Library.Rotation
import Fluxcope.Library.Run
import Fluxcope.Logging.Writer
/-!
# Logs on disk

Whatever fails, the files were handed the end of what they held at first and of the records
that came in, in order, and each holds what it was handed, up to the end of its last line.
No record stands in two files, and a file is as long as the limit allows or holds one record.
-/

namespace Fluxcope.Logging

open Fluxcope.Library Fluxcope.Library.Utf8 Fluxcope.Library.Rotation

/-! ## Paths -/

/-- The path with index `0` is the one that is written to. -/
def logPath (path : Bytes) : Nat → Bytes
  | 0 => path
  | index + 1 => rotatedPath path (index + 1)

@[simp] theorem logPath_zero (path : Bytes) : logPath path 0 = path := rfl

theorem logPath_injective (path : Bytes) : Function.Injective (logPath path) := by
  have hlonger : ∀ i, path ≠ rotatedPath path i := by
    intro i heq
    have hlength := congrArg List.length heq
    rw [rotatedPath, List.append_assoc, List.length_append, List.length_append] at hlength
    have hdot : (ofAscii ".").length = 1 := by decide
    omega
  intro i j heq
  cases i with
  | zero =>
    cases j with
    | zero => rfl
    | succ j => exact absurd heq (hlonger (j + 1))
  | succ i =>
    cases j with
    | zero => exact absurd heq.symm (hlonger (i + 1))
    | succ j =>
      have hdigits : decimal (i + 1) = decimal (j + 1) := List.append_cancel_left heq
      rw [← decimalValue_decimal (i + 1), hdigits, decimalValue_decimal]

/-- What the files under the paths were handed. -/
def slot (directory : LogDirectory) (path : Bytes) (index : Nat) : Option Bytes :=
  (directory.get? (logPath path index)).map fun file => file.handed

variable {path : Bytes} {directory after : LogDirectory} {index last : Nat}
  {faults : Nat → Option IoError} {result : Except IoError Unit} {slots : Nat → Option Bytes}

/-- Files under other paths stay as they are. -/
def OthersKept (path : Bytes) (last : Nat) (directory after : LogDirectory) : Prop :=
  ∀ name, (∀ i, i ≤ last → name ≠ logPath path i) → after.get? name = directory.get? name

theorem OthersKept.refl : OthersKept path last directory directory := fun _ _ => rfl

theorem OthersKept.trans {next : LogDirectory} (h : OthersKept path last directory after)
    (hnext : OthersKept path last after next) : OthersKept path last directory next :=
  fun name hname => (hnext name hname).trans (h name hname)

/-- Every file of the later directory was in the first one, maybe under another path. -/
def NoneNew (directory after : LogDirectory) : Prop :=
  ∀ P : LogFile → Prop, directory.All P → after.All P

/-! ## Rotation -/

theorem slot_eq_none : slot directory path index = none ↔
    directory.get? (logPath path index) = none := Option.map_eq_none_iff

theorem rename_slots (hfree : slot directory path (index + 1) = none) (i : Nat) :
    slot (directory.rename (logPath path index) (logPath path (index + 1))).2 path i =
      if i = index + 1 then slot directory path index
      else if i = index then none
      else slot directory path i := by
  unfold slot
  rw [Directory.get?_rename (slot_eq_none.1 hfree)]
  simp only [(logPath_injective path).eq_iff, apply_ite (Option.map fun file => LogFile.handed file),
    Option.map_none]

theorem rename_others (hfree : slot directory path (index + 1) = none) (hlast : index + 1 ≤ last) :
    OthersKept path last directory
      (directory.rename (logPath path index) (logPath path (index + 1))).2 := by
  intro name hname
  rw [Directory.get?_rename (slot_eq_none.1 hfree), if_neg (hname _ hlast),
    if_neg (hname _ (Nat.le_of_succ_le hlast))]

theorem remove_slots (i : Nat) :
    slot (directory.removeFile (logPath path index)).2 path i =
      if i = index then none else slot directory path i := by
  unfold slot
  rw [Directory.get?_removeFile]
  simp only [(logPath_injective path).eq_iff, apply_ite (Option.map fun file => LogFile.handed file),
    Option.map_none]

theorem remove_others (hlast : index ≤ last) : OthersKept path last directory
    (directory.removeFile (logPath path index)).2 := by
  intro name hname
  rw [Directory.get?_removeFile, if_neg (hname _ hlast)]

theorem shifted_rename (h : Shifted (index + 1) last slots (slot directory path)) :
    Shifted index last slots
      (slot (directory.rename (logPath path index) (logPath path (index + 1))).2 path) := by
  have hslots := rename_slots h.vacated
  refine h.next ?_ ?_ fun i hi hnext => ?_
  · rw [hslots, if_pos rfl]
  · rw [hslots, if_neg (by omega), if_pos rfl]
  · rw [hslots, if_neg hnext, if_neg hi]

theorem renameFrom_shifted (h : Shifted (index + 1) last slots (slot directory path))
    (hrename : renameFrom path faults index directory = (result, after)) :
    (∃ gap, Shifted gap last slots (slot after path) ∧ (result = .ok () → gap = 0)) ∧
      OthersKept path last directory after ∧ NoneNew directory after := by
  induction index generalizing directory with
  | zero =>
    unfold renameFrom renameIfExists at hrename
    cases hfault : faults 0 with
    | some error =>
      rw [hfault] at hrename
      cases hrename
      exact ⟨⟨1, h, fun hok => by cases hok⟩, .refl, fun _ => id⟩
    | none =>
      rw [hfault] at hrename
      cases hrename
      exact ⟨⟨0, shifted_rename h, fun _ => rfl⟩, rename_others h.vacated h.gap_le,
        fun _ => .rename⟩
  | succ index ih =>
    unfold renameFrom renameIfExists at hrename
    cases hfault : faults (index + 1) with
    | some error =>
      rw [hfault] at hrename
      cases hrename
      exact ⟨⟨index + 2, h, fun hok => by cases hok⟩, .refl, fun _ => id⟩
    | none =>
      rw [hfault] at hrename
      obtain ⟨hshifted, hothers, hnone⟩ := ih (shifted_rename h) hrename
      exact ⟨hshifted, (rename_others h.vacated h.gap_le).trans hothers,
        fun P hall => hnone P hall.rename⟩

/-- A rotation fails before it has changed anything, or moves the files on the way to where
it stops. -/
theorem rotate_shifted {retainedFiles : Nat}
    (hrotate : rotate path retainedFiles faults directory = (result, after)) :
    (((∃ error, result = .error error) ∧ after = directory) ∨
      ∃ gap, Shifted gap retainedFiles (slot directory path) (slot after path) ∧
        (result = .ok () → gap = 0)) ∧
      OthersKept path retainedFiles directory after ∧ NoneNew directory after := by
  have hremoved : Shifted retainedFiles retainedFiles (slot directory path)
      (slot (directory.removeFile (logPath path retainedFiles)).2 path) := by
    refine shifted_last ?_ fun i hi => ?_
    · rw [remove_slots, if_pos rfl]
    · rw [remove_slots, if_neg hi]
  have hothers : OthersKept path retainedFiles directory
      (directory.removeFile (logPath path retainedFiles)).2 := remove_others (Nat.le_refl _)
  cases retainedFiles with
  | zero =>
    unfold rotate removeIfExists at hrotate
    cases hfault : faults 0 with
    | some error =>
      rw [hfault] at hrotate
      cases hrotate
      exact ⟨.inl ⟨⟨error, rfl⟩, rfl⟩, .refl, fun _ => id⟩
    | none =>
      rw [hfault] at hrotate
      cases hrotate
      exact ⟨.inr ⟨0, hremoved, fun _ => rfl⟩, hothers, fun _ => .removeFile⟩
  | succ retained =>
    unfold rotate removeIfExists at hrotate
    dsimp only at hrotate
    cases hfault : faults (retained + 1) with
    | some error =>
      rw [hfault] at hrotate
      cases hrotate
      exact ⟨.inl ⟨⟨error, rfl⟩, rfl⟩, .refl, fun _ => id⟩
    | none =>
      rw [hfault] at hrotate
      obtain ⟨hshifted, hkept, hnone⟩ := renameFrom_shifted hremoved hrotate
      exact ⟨.inr hshifted, hothers.trans hkept, fun P hall => hnone P hall.removeFile⟩

/-! ## Opening and writing -/

/-- The file that is written to was handed more bytes. -/
structure Appended (path bytes : Bytes) (directory after : LogDirectory) : Prop where
  first : slot after path 0 = some ((slot directory path 0).getD [] ++ bytes)
  rest : ∀ i, 0 < i → slot after path i = slot directory path i
  others : ∀ last, OthersKept path last directory after

theorem appended_put {bytes : Bytes} {file : LogFile}
    (hhanded : file.handed = (slot directory path 0).getD [] ++ bytes) :
    Appended path bytes directory (directory.put path file) where
  first := by
    rw [← hhanded, slot, Directory.get?_put, if_pos (by rfl)]
    rfl
  rest i hi := by
    have hne : logPath path i ≠ path :=
      fun heq => hi.ne' (logPath_injective path (heq.trans (logPath_zero path).symm))
    unfold slot
    rw [Directory.get?_put, if_neg hne]
  others last name hname := by
    have hne : name ≠ path := hname 0 (Nat.zero_le last)
    rw [Directory.get?_put, if_neg hne]

theorem appended_created : Appended path [] directory (created path directory) := by
  unfold created
  split
  · rename_i hnone
    have hslot : slot directory path 0 = none := slot_eq_none.2 hnone
    exact appended_put (by rw [hslot]; rfl)
  · rename_i file hsome
    have hslot : slot directory path 0 = some file.handed := by
      rw [slot, logPath_zero, hsome, Option.map_some]
    refine ⟨?_, fun _ _ => rfl, fun _ => .refl⟩
    rw [hslot, Option.getD_some, List.append_nil]

theorem openLogFile_cases {fault : Option OpenFault}
    (hopen : openLogFile path fault directory = (result, after)) :
    (Appended path [] directory after ∨ after = directory) ∧
      (result = .ok () → Appended path [] directory after) := by
  unfold openLogFile at hopen
  split at hopen
  · cases hopen
    refine ⟨?_, fun hok => by cases hok⟩
    split
    · exact .inl appended_created
    · exact .inr rfl
  · cases hopen
    exact ⟨.inl appended_created, fun _ => appended_created⟩

theorem all_openLogFile {P : LogFile → Prop} {fault : Option OpenFault}
    (hopen : openLogFile path fault directory = (result, after)) (h : directory.All P)
    (hnew : P (.atRest [])) : after.All P := by
  have hcreated : (created path directory).All P := by
    unfold created
    split
    · exact h.put hnew
    · exact h
  unfold openLogFile at hopen
  split at hopen
  · cases hopen
    split
    · exact hcreated
    · exact h
  · cases hopen
    exact hcreated

/-! ## The files of a writer -/

def lines (records : List Bytes) : Bytes := (records.map line).flatten

theorem length_line (record : Bytes) : (line record).length = record.length + 1 := by
  have hend : lineEnd.length = 1 := by decide
  rw [line, List.length_append, hend]

@[simp] theorem handed_settle (file : LogFile) (fault : Option WriteFault) :
    (file.settle fault).handed = file.handed := by
  unfold LogFile.settle
  split <;> rfl

@[simp] theorem lines_nil : lines [] = [] := rfl

theorem lines_snoc (records : List Bytes) (record : Bytes) :
    lines (records ++ [record]) = lines records ++ line record := by
  simp [lines]

/-- Whole records behind what stood in the file at first, if anything. -/
def Whole (before : LogDirectory) (path content : Bytes) (records : List Bytes) : Prop :=
  ∃ base, content = base ++ lines records ∧ (base = [] ∨ slot before path 0 = some base)

theorem Whole.snoc {before : LogDirectory} {content : Bytes} {records : List Bytes}
    (h : Whole before path content records) (record : Bytes) :
    Whole before path (content ++ line record) (records ++ [record]) := by
  obtain ⟨base, rfl, hbase⟩ := h
  exact ⟨base, by rw [lines_snoc, List.append_assoc], hbase⟩

/-- The files of a writer that began with the directory `before`. -/
structure LogWriter.Keeps (before : LogDirectory) (writer : LogWriter) : Prop where
  order : ∃ lost, lost ++ stacked (slot writer.directory writer.path) writer.retainedFiles =
    stacked (slot before writer.path) writer.retainedFiles ++ lines writer.begun
  others : OthersKept writer.path writer.retainedFiles before writer.directory
  active : writer.file = true → ∃ content records,
    slot writer.directory writer.path 0 = some content ∧
      Whole before writer.path content records ∧ records <:+ writer.begun
  rotated : ∀ i content, 0 < i → i ≤ writer.retainedFiles →
    slot writer.directory writer.path i = some content →
    (∃ j, j ≤ writer.retainedFiles ∧ slot before writer.path j = some content) ∨
      ∃ records, Whole before writer.path content records ∧ records <:+: writer.begun

/-- Nobody writes to the file, and it holds what it was handed. -/
def LogFile.Rests (file : LogFile) : Prop := file.busy = none ∧ file.handed = file.content

namespace LogWriter

variable {before : LogDirectory} {writer : LogWriter}

/-- How a write can end. -/
inductive Writes (writer : LogWriter) (record : Bytes) (faults : DiskFaults) :
    LogWriter × Option IoError → Prop
  | hears (failure : IoError) (hheard : writer.heard faults.settling = some failure) :
      Writes writer record faults ({ writer with
        file := false
        failure := none
        directory := writer.directory.put writer.path (writer.active.settle faults.settling) },
        some failure)
  | fails (fault : WriteFault) (hheard : writer.heard faults.settling = none)
      (hfault : faults.writing = some fault) :
      Writes writer record faults ({ writer with
        file := false
        failure := none
        directory := writer.directory.put writer.path
          { content := (writer.active.settle faults.settling).content ++ record.take fault.written
            handed := (writer.active.settle faults.settling).handed ++ line record }
        begun := writer.begun ++ [record] }, some fault.error)
  | goes (hheard : writer.heard faults.settling = none) (hfault : faults.writing = none) :
      Writes writer record faults ({ writer with
        failure := none
        fileBytes := satAdd writer.fileBytes (satAdd record.length 1)
        directory := writer.directory.put writer.path
          { content := (writer.active.settle faults.settling).content ++ record
            busy := some lineEnd
            handed := (writer.active.settle faults.settling).handed ++ line record }
        begun := writer.begun ++ [record] }, none)

theorem write_writes (writer : LogWriter) (record : Bytes) (faults : DiskFaults) :
    Writes writer record faults (writer.write record faults) := by
  unfold LogWriter.write
  dsimp only
  split
  · rename_i failure hheard
    exact .hears failure hheard
  · rename_i fault hheard hfault
    exact .fails fault hheard hfault
  · rename_i hheard hfault
    exact .goes hheard hfault

theorem active_handed (writer : LogWriter) :
    writer.active.handed = (slot writer.directory writer.path 0).getD [] := by
  unfold LogWriter.active slot
  rw [logPath_zero]
  cases writer.directory.get? writer.path <;> rfl

/-- The file has no more to write than before. -/
theorem appended_settled (fault : Option WriteFault) : Appended writer.path [] writer.directory
    (writer.directory.put writer.path (writer.active.settle fault)) :=
  appended_put (by rw [handed_settle, active_handed, List.append_nil])

theorem appended_line {file : LogFile} {record : Bytes} (fault : Option WriteFault)
    (hhanded : file.handed = (writer.active.settle fault).handed ++ line record) :
    Appended writer.path (line record) writer.directory
      (writer.directory.put writer.path file) :=
  appended_put (by rw [hhanded, handed_settle, active_handed])

/-- A closed file, of which the writer knows nothing. -/
theorem Keeps.close (h : writer.Keeps before) (failure : Option IoError) (fileBytes : Nat) :
    ({ writer with file := false, failure, fileBytes }).Keeps before :=
  ⟨h.order, h.others, fun hfile => Bool.noConfusion hfile, h.rotated⟩

theorem Keeps.shifted {gap : Nat} (h : writer.Keeps before) (hfile : writer.file = true)
    (hshifted : Shifted gap writer.retainedFiles (slot writer.directory writer.path)
      (slot after writer.path))
    (hothers : OthersKept writer.path writer.retainedFiles writer.directory after) :
    ({ writer with file := false, failure := none, directory := after }).Keeps before where
  order := by
    obtain ⟨lost, hlost⟩ := h.order
    refine ⟨lost ++ (slot writer.directory writer.path writer.retainedFiles).getD [], ?_⟩
    rw [List.append_assoc, ← hshifted.stacked]
    exact hlost
  others := h.others.trans hothers
  active hfile := Bool.noConfusion hfile
  rotated i content hpos hi hcontent := by
    obtain ⟨j, hle, hj⟩ := hshifted.exists_before hcontent
    rcases Nat.eq_zero_or_pos j with rfl | hjpos
    · obtain ⟨active, records, hactive, hwhole, hsuffix⟩ := h.active hfile
      obtain rfl := Option.some.inj (hactive.symm.trans hj)
      exact .inr ⟨records, hwhole, hsuffix.isInfix⟩
    · exact h.rotated j content hjpos (hle.trans hi) hj

/-- The file is there after it has been opened, successfully or not. -/
theorem Keeps.created (h : writer.Keeps before) (hfile : writer.file = false)
    (hcreated : Appended writer.path [] writer.directory after) :
    ({ writer with directory := after }).Keeps before where
  order := by
    obtain ⟨lost, hlost⟩ := h.order
    refine ⟨lost, ?_⟩
    have hsame : stacked (slot after writer.path) writer.retainedFiles =
        stacked (slot writer.directory writer.path) writer.retainedFiles ++ [] :=
      stacked_append (by rw [hcreated.first, Option.getD_some]) hcreated.rest _
    rw [List.append_nil] at hsame
    rw [← hlost, hsame]
  others := h.others.trans (hcreated.others _)
  active hopen := absurd (hfile.symm.trans hopen) (by decide)
  rotated i content hpos hi hcontent :=
    h.rotated i content hpos hi ((hcreated.rest i hpos).symm.trans hcontent)

theorem Keeps.opened (h : writer.Keeps before) {content : Bytes} {records : List Bytes}
    (hcontent : slot writer.directory writer.path 0 = some content)
    (hwhole : Whole before writer.path content records) (hsuffix : records <:+ writer.begun)
    (fileBytes : Nat) : ({ writer with file := true, fileBytes }).Keeps before :=
  ⟨h.order, h.others, fun _ => ⟨content, records, hcontent, hwhole, hsuffix⟩, h.rotated⟩

/-- The writer has a new file, or none any more. -/
theorem Keeps.replaceFile (h : writer.Keeps before) (hfile : writer.file = true)
    (faults : DiskFaults) : (writer.replaceFile faults).1.Keeps before := by
  unfold LogWriter.replaceFile
  cases hrotate : rotate writer.path writer.retainedFiles faults.rotating writer.directory with
  | mk result rotated =>
    obtain ⟨hcase, hothers, -⟩ := rotate_shifted hrotate
    have hclosed : ({ writer with
        file := false, failure := none, directory := rotated }).Keeps before := by
      rcases hcase with ⟨-, rfl⟩ | ⟨gap, hshifted, -⟩
      · exact h.close none writer.fileBytes
      · exact h.shifted hfile hshifted hothers
    cases result with
    | error error => exact hclosed
    | ok =>
      dsimp only
      cases hopen : openLogFile writer.path faults.opening rotated with
      | mk result next =>
        obtain ⟨hnext, hok⟩ := openLogFile_cases hopen
        cases result with
        | error error =>
          rcases hnext with hcreated | rfl
          · exact hclosed.created rfl hcreated
          · exact hclosed
        | ok =>
          have hcreated := hok rfl
          have hempty : slot next writer.path 0 = some [] := by
            rcases hcase with ⟨⟨error, herror⟩, -⟩ | ⟨gap, hshifted, hgap⟩
            · cases herror
            · obtain rfl := hgap rfl
              rw [hcreated.first, hshifted.vacated]
              rfl
          have hkept := (hclosed.created rfl hcreated).opened hempty
            ⟨[], rfl, .inl rfl⟩ List.nil_suffix 0
          dsimp only at hkept ⊢
          rw [← hfile] at hkept
          exact hkept

/-- A writer that has done nothing. -/
theorem keeps_closed (hdirectory : writer.directory = before) (hbegun : writer.begun = []) :
    ({ writer with file := false }).Keeps before := by
  refine ⟨⟨[], ?_⟩, ?_, fun hfile => Bool.noConfusion hfile,
    fun i content hpos hi hcontent => .inl ⟨i, hi, ?_⟩⟩
  · rw [hbegun, hdirectory, lines_nil, List.append_nil, List.nil_append]
  · rw [hdirectory]
    exact .refl
  · rw [← hdirectory]
    exact hcontent

theorem Keeps.start (hdirectory : writer.directory = before) (hbegun : writer.begun = [])
    (fault : Option OpenFault) (sized : Bool) : (writer.start fault sized).1.Keeps before := by
  have hclosed := keeps_closed hdirectory hbegun
  unfold LogWriter.start
  cases hopen : openLogFile writer.path fault writer.directory with
  | mk result next =>
    obtain ⟨hnext, hok⟩ := openLogFile_cases hopen
    cases result with
    | error error =>
      rcases hnext with hcreated | rfl
      · exact (hclosed.created rfl hcreated).close _ _
      · exact hclosed.close _ _
    | ok =>
      have hcreated := hok rfl
      refine (hclosed.created rfl hcreated).opened hcreated.first ?_ List.nil_suffix _
      cases hslot : slot writer.directory writer.path 0 with
      | none => exact ⟨[], by simp, .inl rfl⟩
      | some content =>
        rw [hdirectory] at hslot
        exact ⟨content, by simp, .inr hslot⟩

/-- The open file was handed one more line. -/
theorem Keeps.begins (h : writer.Keeps before) (hfile : writer.file = true) (record : Bytes)
    (happended : Appended writer.path (line record) writer.directory after) (file : Bool)
    (failure : Option IoError) (fileBytes : Nat) :
    ({ writer with
      file, failure, fileBytes, directory := after, begun := writer.begun ++ [record] }).Keeps
        before := by
  obtain ⟨lost, hlost⟩ := h.order
  obtain ⟨content, records, hcontent, hwhole, hsuffix⟩ := h.active hfile
  have hmore := stacked_append (happended.first ▸ Option.getD_some) happended.rest
    writer.retainedFiles
  refine ⟨⟨lost, ?_⟩, h.others.trans (happended.others _),
    fun _ => ⟨content ++ line record, records ++ [record], ?_, hwhole.snoc record,
      Kmp.append_singleton_suffix_iff.2 ⟨rfl, hsuffix⟩⟩, fun i content hpos hi hi' => ?_⟩
  · rw [hmore, ← List.append_assoc, hlost, lines_snoc, List.append_assoc]
  · rw [happended.first, hcontent, Option.getD_some]
  · refine (h.rotated i content hpos hi ((happended.rest i hpos).symm.trans hi')).imp_right ?_
    rintro ⟨records, hwhole, hinfix⟩
    exact ⟨records, hwhole, hinfix.trans (List.prefix_append _ _).isInfix⟩

theorem Keeps.write (h : writer.Keeps before) (hfile : writer.file = true) (record : Bytes)
    (faults : DiskFaults) : (writer.write record faults).1.Keeps before := by
  have hwrites := write_writes writer record faults
  generalize writer.write record faults = written at hwrites ⊢
  cases hwrites with
  | hears failure hheard =>
    exact (h.close none writer.fileBytes).created rfl (appended_settled faults.settling)
  | fails fault hheard hfault =>
    exact h.begins hfile record (appended_line faults.settling rfl) false none writer.fileBytes
  | goes hheard hfault =>
    exact h.begins hfile record (appended_line faults.settling rfl) writer.file none _

/-- What a new file is like. -/
theorem replaceFile_fresh {next : LogWriter} {faults : DiskFaults}
    (hreplace : writer.replaceFile faults = (next, none)) :
    next.file = writer.file ∧ next.fileBytes = 0 ∧ slot next.directory next.path 0 = some [] := by
  unfold LogWriter.replaceFile at hreplace
  cases hrotate : rotate writer.path writer.retainedFiles faults.rotating writer.directory with
  | mk result rotated =>
    obtain ⟨hcase, -⟩ := rotate_shifted hrotate
    rw [hrotate] at hreplace
    cases result with
    | error error => cases hreplace
    | ok =>
      dsimp only at hreplace
      cases hopen : openLogFile writer.path faults.opening rotated with
      | mk result directory =>
        rw [hopen] at hreplace
        cases result with
        | error error => cases hreplace
        | ok =>
          cases hreplace
          refine ⟨rfl, rfl, ?_⟩
          rcases hcase with ⟨⟨error, herror⟩, -⟩ | ⟨gap, hshifted, hgap⟩
          · cases herror
          · obtain rfl := hgap rfl
            dsimp only
            rw [((openLogFile_cases hopen).2 rfl).first, hshifted.vacated]
            rfl

/-- Without a new file the writer has none. -/
theorem replaceFile_failed {next : LogWriter} {faults : DiskFaults} {error : IoError}
    (hreplace : writer.replaceFile faults = (next, some error)) : next.file = false := by
  unfold LogWriter.replaceFile at hreplace
  split at hreplace
  · cases hreplace
    rfl
  · split at hreplace
    · cases hreplace
    · cases hreplace
      rfl

/-- A file that stands somewhere after a replacement is empty or stood somewhere before. -/
theorem replaceFile_contents (faults : DiskFaults) {i : Nat} {content : Bytes}
    (hcontent : slot (writer.replaceFile faults).1.directory writer.path i = some content) :
    content = [] ∨ ∃ j, j ≤ i ∧ slot writer.directory writer.path j = some content := by
  have hopened : ∀ {directory after : LogDirectory},
      (Appended writer.path [] directory after ∨ after = directory) →
      ∀ {i content}, slot after writer.path i = some content →
      content = [] ∨ slot directory writer.path i = some content := by
    rintro directory after (hcreated | rfl) i content hafter
    · rcases Nat.eq_zero_or_pos i with rfl | hpos
      · rw [hcreated.first, List.append_nil] at hafter
        cases hslot : slot directory writer.path 0 with
        | none =>
          rw [hslot] at hafter
          exact .inl (Option.some.inj hafter).symm
        | some old =>
          rw [hslot] at hafter
          exact .inr hafter
      · exact .inr ((hcreated.rest i hpos).symm.trans hafter)
    · exact .inr hafter
  have hrotated : ∀ {result rotated},
      rotate writer.path writer.retainedFiles faults.rotating writer.directory =
        (result, rotated) →
      ∀ {i content}, slot rotated writer.path i = some content →
      ∃ j, j ≤ i ∧ slot writer.directory writer.path j = some content := by
    intro result rotated hrotate i content hslot
    obtain ⟨⟨-, rfl⟩ | ⟨gap, hshifted, -⟩, -⟩ := rotate_shifted hrotate
    · exact ⟨i, Nat.le_refl i, hslot⟩
    · exact hshifted.exists_before hslot
  unfold LogWriter.replaceFile at hcontent
  cases hrotate : rotate writer.path writer.retainedFiles faults.rotating writer.directory with
  | mk result rotated =>
    rw [hrotate] at hcontent
    cases result with
    | error error => exact .inr (hrotated hrotate hcontent)
    | ok =>
      dsimp only at hcontent
      cases hopen : openLogFile writer.path faults.opening rotated with
      | mk result directory =>
        rw [hopen] at hcontent
        cases result with
        | error error =>
          exact (hopened (openLogFile_cases hopen).1 hcontent).imp_right (hrotated hrotate)
        | ok =>
          exact (hopened (openLogFile_cases hopen).1 hcontent).imp_right (hrotated hrotate)

/-- The parameters of a writer. -/
def params (writer : LogWriter) : Bytes × Nat × Nat :=
  (writer.path, writer.maxFileBytes, writer.retainedFiles)

theorem params_replaceFile (faults : DiskFaults) :
    (writer.replaceFile faults).1.params = writer.params := by
  unfold LogWriter.replaceFile
  split
  · rfl
  · split <;> rfl

theorem replaceFile_begun (faults : DiskFaults) :
    (writer.replaceFile faults).1.begun = writer.begun := by
  unfold LogWriter.replaceFile
  split
  · rfl
  · split <;> rfl

theorem start_begun (fault : Option OpenFault) (sized : Bool) :
    (writer.start fault sized).1.begun = writer.begun := by
  unfold LogWriter.start
  dsimp only
  split <;> rfl

theorem params_write (record : Bytes) (faults : DiskFaults) :
    (writer.write record faults).1.params = writer.params := by
  have hwrites := write_writes writer record faults
  generalize writer.write record faults = written at hwrites ⊢
  cases hwrites <;> rfl

theorem params_start (fault : Option OpenFault) (sized : Bool) :
    (writer.start fault sized).1.params = writer.params := by
  unfold LogWriter.start
  dsimp only
  split <;> rfl

/-- The three ways of appending a record. -/
theorem append_cases {record : Bytes} {faults : DiskFaults} {next : LogWriter}
    {error : Option IoError} (happend : writer.append record faults = (next, error)) :
    (writer.file = false ∧ next = writer ∧ error = none) ∨
      writer.file = true ∧
        ((satAdd writer.fileBytes (satAdd record.length 1) ≤ writer.maxFileBytes ∧
            writer.write record faults = (next, error)) ∨
          (∃ replaced, writer.replaceFile faults = (replaced, none) ∧
            replaced.write record faults = (next, error)) ∨
          ∃ failure, writer.replaceFile faults = (next, some failure) ∧ error = some failure) := by
  unfold LogWriter.append at happend
  split at happend
  · rename_i hfile
    refine .inr ⟨hfile, ?_⟩
    split at happend
    · cases hreplace : writer.replaceFile faults with
      | mk replaced failure =>
        rw [hreplace] at happend
        cases failure with
        | none => exact .inr (.inl ⟨replaced, rfl, happend⟩)
        | some failure =>
          cases happend
          exact .inr (.inr ⟨failure, rfl, rfl⟩)
    · rename_i hroom
      exact .inl ⟨Nat.le_of_not_lt hroom, happend⟩
  · rename_i hfile
    cases happend
    exact .inl ⟨by simpa using hfile, rfl, rfl⟩

theorem params_append (record : Bytes) (faults : DiskFaults) :
    (writer.append record faults).1.params = writer.params := by
  cases happend : writer.append record faults with
  | mk next error =>
    rcases append_cases happend with ⟨-, rfl, -⟩ |
      ⟨-, ⟨-, hwrite⟩ | ⟨replaced, hreplace, hwrite⟩ | ⟨failure, hreplace, -⟩⟩
    · rfl
    · exact hwrite ▸ params_write record faults
    · have hparams := hreplace ▸ params_replaceFile faults
      exact (hwrite ▸ params_write record faults).trans hparams
    · have hparams := @params_replaceFile writer faults
      rw [hreplace] at hparams
      exact hparams

theorem Keeps.append (h : writer.Keeps before) (record : Bytes) (faults : DiskFaults) :
    (writer.append record faults).1.Keeps before := by
  cases happend : writer.append record faults with
  | mk next error =>
    rcases append_cases happend with ⟨-, rfl, -⟩ |
      ⟨hfile, ⟨-, hwrite⟩ | ⟨replaced, hreplace, hwrite⟩ | ⟨failure, hreplace, -⟩⟩
    · exact h
    · exact hwrite ▸ h.write hfile record faults
    · have hreplaced := hreplace ▸ h.replaceFile hfile faults
      have hopen := (replaceFile_fresh hreplace).1.trans hfile
      exact hwrite ▸ hreplaced.write hopen record faults
    · have hclosed := h.replaceFile hfile faults
      rw [hreplace] at hclosed
      exact hclosed

/-! ## Sizes -/

/-- A file is left from before, within the limit, or a part of one line. -/
def Limited (before : LogDirectory) (writer : LogWriter) (received : List Bytes)
    (content : Bytes) : Prop :=
  (∃ j, j ≤ writer.retainedFiles ∧ slot before writer.path j = some content) ∨
    min content.length wordMax ≤ writer.maxFileBytes ∨
    ∃ record ∈ received, content <+: line record

/-- The writer knows how long its file is, and no file is too long. -/
structure Sized (before : LogDirectory) (received : List Bytes) (writer : LogWriter) : Prop where
  size : writer.file = true → ∀ content, slot writer.directory writer.path 0 = some content →
    writer.fileBytes = min content.length wordMax
  limited : ∀ i content, i ≤ writer.retainedFiles →
    slot writer.directory writer.path i = some content → Limited before writer received content

variable {received : List Bytes} {record : Bytes}

theorem Sized.mono (h : writer.Sized before received) (more : List Bytes) :
    writer.Sized before (received ++ more) where
  size := h.size
  limited i content hi hcontent := by
    rcases h.limited i content hi hcontent with hold | hshort | ⟨record, hmem, hpart⟩
    · exact .inl hold
    · exact .inr (.inl hshort)
    · exact .inr (.inr ⟨record, List.mem_append_left more hmem, hpart⟩)

theorem limited_nil : Limited before writer received [] :=
  .inr (.inl (by simp))

theorem Limited.congr {next : LogWriter} {content : Bytes} (hparams : next.params = writer.params)
    (h : Limited before writer received content) : Limited before next received content := by
  obtain ⟨hpath, hmax, hretained⟩ : next.path = writer.path ∧
      next.maxFileBytes = writer.maxFileBytes ∧ next.retainedFiles = writer.retainedFiles := by
    simpa [params] using hparams
  unfold Limited at *
  rw [hpath, hmax, hretained]
  exact h

theorem Sized.start (hdirectory : writer.directory = before) (hrests : before.All LogFile.Rests)
    (fault : Option OpenFault) :
    (writer.start fault true).1.Sized before received := by
  unfold LogWriter.start
  cases hopen : openLogFile writer.path fault writer.directory with
  | mk result next =>
    obtain ⟨hnext, hok⟩ := openLogFile_cases hopen
    have hlimited : ∀ i content, i ≤ writer.retainedFiles →
        slot next writer.path i = some content → Limited before writer received content := by
      intro i content hi hcontent
      rcases hnext with hcreated | rfl
      · rcases Nat.eq_zero_or_pos i with rfl | hpos
        · rw [hcreated.first, List.append_nil] at hcontent
          cases hslot : slot writer.directory writer.path 0 with
          | none =>
            rw [hslot] at hcontent
            obtain rfl := Option.some.inj hcontent
            exact limited_nil
          | some old =>
            rw [hslot] at hcontent
            exact .inl ⟨0, Nat.zero_le _, hdirectory ▸ hslot.trans hcontent⟩
        · exact .inl ⟨i, hi, hdirectory ▸ (hcreated.rest i hpos).symm.trans hcontent⟩
      · exact .inl ⟨i, hi, hdirectory ▸ hcontent⟩
    cases result with
    | error error => exact ⟨fun hfile => Bool.noConfusion hfile, hlimited⟩
    | ok =>
      refine ⟨fun _ content hcontent => ?_, hlimited⟩
      obtain ⟨file, hget, rfl⟩ := Option.map_eq_some_iff.1 hcontent
      have hget : next.get? writer.path = some file := hget
      have hrest : file.handed = file.content := by
        have hall := all_openLogFile hopen (hdirectory ▸ hrests) ⟨rfl, rfl⟩
        exact (hall writer.path file hget).2
      dsimp only
      rw [hget, if_pos rfl, Option.elim_some, hrest]

/-- What a write leaves in the file. -/
theorem Sized.write (h : writer.Sized before received) (hfile : writer.file = true)
    {content : Bytes} (hcontent : slot writer.directory writer.path 0 = some content)
    (hold : Limited before writer received content)
    (hfits : Limited before writer received (content ++ line record)) (faults : DiskFaults) :
    (writer.write record faults).1.Sized before received := by
  have hlimited : ∀ {part after}, Appended writer.path part writer.directory after →
      Limited before writer received (content ++ part) → ∀ i old, i ≤ writer.retainedFiles →
      slot after writer.path i = some old → Limited before writer received old := by
    intro part after happended hpart i old hi hslot
    rcases Nat.eq_zero_or_pos i with rfl | hpos
    · rw [happended.first, hcontent, Option.getD_some] at hslot
      exact Option.some.inj hslot ▸ hpart
    · exact h.limited i old hi ((happended.rest i hpos).symm.trans hslot)
  have hwrites := write_writes writer record faults
  generalize writer.write record faults = written at hwrites ⊢
  cases hwrites with
  | hears failure hheard =>
    exact ⟨fun hopen => Bool.noConfusion hopen,
      hlimited (appended_settled faults.settling) ((List.append_nil content).symm ▸ hold)⟩
  | fails fault hheard hfault =>
    exact ⟨fun hopen => Bool.noConfusion hopen,
      hlimited (appended_line faults.settling rfl) hfits⟩
  | goes hheard hfault =>
    have happended := @appended_line writer
      { content := (writer.active.settle faults.settling).content ++ record
        busy := some lineEnd
        handed := (writer.active.settle faults.settling).handed ++ line record }
      record faults.settling rfl
    refine ⟨fun _ old hslot => ?_, hlimited happended hfits⟩
    dsimp only at hslot
    rw [happended.first, hcontent, Option.getD_some] at hslot
    obtain rfl := Option.some.inj hslot
    dsimp only
    rw [h.size hfile content hcontent, List.length_append, length_line]
    unfold satAdd
    omega

theorem Sized.replaceFile (h : writer.Sized before received) (faults : DiskFaults) :
    (writer.replaceFile faults).1.Sized before received := by
  have hcontents := @replaceFile_contents writer faults
  have hparams := @params_replaceFile writer faults
  cases hreplace : writer.replaceFile faults with
  | mk next error =>
    rw [hreplace] at hcontents hparams
    obtain ⟨hpath, -, hretained⟩ : next.path = writer.path ∧
        next.maxFileBytes = writer.maxFileBytes ∧ next.retainedFiles = writer.retainedFiles := by
      simpa [params] using hparams
    refine ⟨fun hopen content hcontent => ?_, fun i content hi hcontent => ?_⟩
    · cases error with
      | none =>
        obtain ⟨-, hbytes, hempty⟩ := replaceFile_fresh hreplace
        obtain rfl := Option.some.inj (hempty.symm.trans hcontent)
        rw [hbytes]
        rfl
      | some error => exact absurd ((replaceFile_failed hreplace).symm.trans hopen) (by decide)
    · dsimp only at hi hcontent ⊢
      rw [hpath] at hcontent
      rcases hcontents hcontent with rfl | ⟨j, hj, hold⟩
      · exact limited_nil
      · exact (h.limited j content (hj.trans (hretained ▸ hi)) hold).congr hparams

theorem Sized.append (h : writer.Sized before received) (hkeeps : writer.Keeps before)
    (hmem : record ∈ received) (faults : DiskFaults) :
    (writer.append record faults).1.Sized before received := by
  cases happend : writer.append record faults with
  | mk next error =>
    rcases append_cases happend with ⟨-, rfl, -⟩ |
      ⟨hfile, ⟨hroom, hwrite⟩ | ⟨replaced, hreplace, hwrite⟩ | ⟨failure, hreplace, -⟩⟩
    · exact h
    · obtain ⟨content, records, hcontent, -, -⟩ := hkeeps.active hfile
      refine hwrite ▸ h.write hfile hcontent (h.limited 0 content (Nat.zero_le _) hcontent)
        (.inr (.inl ?_)) faults
      have hsize := h.size hfile content hcontent
      rw [List.length_append, length_line]
      unfold satAdd at hroom
      omega
    · obtain ⟨hopen, -, hempty⟩ := replaceFile_fresh hreplace
      have hreplaced := h.replaceFile faults
      rw [hreplace] at hreplaced
      exact hwrite ▸ hreplaced.write (hopen.trans hfile) hempty limited_nil
        (.inr (.inr ⟨record, hmem, List.prefix_refl _⟩)) faults
    · have hreplaced := h.replaceFile faults
      rw [hreplace] at hreplaced
      exact hreplaced

end LogWriter

/-! ## What is missing in the files -/

/-- What a file lacks of what it was handed is the end of its last line. -/
structure LogFile.Holds (received : List Bytes) (file : LogFile) : Prop where
  busy : ∀ bytes, file.busy = some bytes → file.handed = file.content ++ bytes
  lacks : ∃ rest, file.handed = file.content ++ rest ∧
    (rest = [] ∨ ∃ start, ∃ record ∈ received, file.handed = start ++ line record ∧
      rest <:+ line record)

/-- The file lacks only what is being written to it. -/
def LogFile.Complete (file : LogFile) : Prop := file.handed = file.content ++ file.busy.getD []

section Files

variable {file : LogFile} {received : List Bytes} {record : Bytes}

theorem LogFile.Rests.complete (h : file.Rests) : file.Complete := by
  unfold LogFile.Complete
  rw [h.1, h.2, Option.getD_none, List.append_nil]

theorem LogFile.Rests.holds (h : file.Rests) : file.Holds received where
  busy bytes hbusy := by
    rw [h.1] at hbusy
    cases hbusy
  lacks := ⟨[], by rw [h.2, List.append_nil], .inl rfl⟩

theorem LogFile.rests_atRest (content : Bytes) : (LogFile.atRest content).Rests := ⟨rfl, rfl⟩

theorem rests_resting (before : Directory Bytes Bytes) : (resting before).All LogFile.Rests := by
  intro name file hget
  unfold resting at hget
  rw [Directory.get?_map] at hget
  obtain ⟨content, -, rfl⟩ := Option.map_eq_some_iff.1 hget
  exact LogFile.rests_atRest content

theorem LogFile.Holds.mono (h : file.Holds received) (more : List Bytes) :
    file.Holds (received ++ more) where
  busy := h.busy
  lacks := by
    obtain ⟨rest, hrest, hend⟩ := h.lacks
    refine ⟨rest, hrest, hend.imp_right ?_⟩
    rintro ⟨start, record, hmem, hlast, hsuffix⟩
    exact ⟨start, record, List.mem_append_left more hmem, hlast, hsuffix⟩

theorem LogFile.settle_of_busy {bytes : Bytes} (hbusy : file.busy = some bytes)
    (fault : Option WriteFault) : file.settle fault = { file with
      content := file.content ++ fault.elim bytes fun fault => bytes.take fault.written
      busy := none } := by
  unfold LogFile.settle
  rw [hbusy]

theorem LogFile.settle_of_idle (hidle : file.busy = none) (fault : Option WriteFault) :
    file.settle fault = file := by
  unfold LogFile.settle
  rw [hidle]

theorem LogFile.Holds.settle (h : file.Holds received) (fault : Option WriteFault) :
    (file.settle fault).Holds received := by
  cases hbusy : file.busy with
  | none =>
    rw [file.settle_of_idle hbusy]
    exact h
  | some bytes =>
    rw [file.settle_of_busy hbusy]
    refine ⟨(fun _ hnone => by cases hnone), ?_⟩
    obtain ⟨rest, hrest, hend⟩ := h.lacks
    obtain rfl := List.append_cancel_left (hrest.symm.trans (h.busy bytes hbusy))
    cases fault with
    | none => exact ⟨[], by rw [List.append_nil]; exact hrest, .inl rfl⟩
    | some fault =>
      refine ⟨rest.drop fault.written, ?_, ?_⟩
      · rw [Option.elim_some, List.append_assoc, List.take_append_drop]
        exact hrest
      · rcases hend with rfl | ⟨start, record, hmem, hlast, hsuffix⟩
        · exact .inl List.drop_nil
        · exact .inr ⟨start, record, hmem, hlast, (List.drop_suffix _ _).trans hsuffix⟩

/-- A write that does not fail writes everything. -/
theorem LogFile.Complete.settle (h : file.Complete) : (file.settle none).Rests := by
  unfold LogFile.Complete at h
  cases hbusy : file.busy with
  | none =>
    rw [file.settle_of_idle hbusy]
    rw [hbusy, Option.getD_none, List.append_nil] at h
    exact ⟨hbusy, h⟩
  | some bytes =>
    rw [file.settle_of_busy hbusy]
    rw [hbusy] at h
    exact ⟨rfl, h⟩

/-- A line of which the record was cut short. -/
theorem LogFile.Rests.cut (h : file.Rests) (hmem : record ∈ received) (written : Nat) :
    LogFile.Holds received
      { content := file.content ++ record.take written, handed := file.handed ++ line record } where
  busy _ hnone := by cases hnone
  lacks := by
    have hline : line record = record.take written ++ (record.drop written ++ lineEnd) := by
      rw [← List.append_assoc, List.take_append_drop]
      rfl
    refine ⟨record.drop written ++ lineEnd, ?_, .inr ⟨file.handed, record, hmem, rfl, ?_⟩⟩
    · dsimp only
      rw [h.2, hline, List.append_assoc]
    · rw [hline]
      exact List.suffix_append _ _

/-- A record of which the line end is being written. -/
theorem LogFile.Rests.written (h : file.Rests) (record : Bytes) :
    LogFile.Complete
      { content := file.content ++ record, busy := some lineEnd
        handed := file.handed ++ line record } := by
  unfold LogFile.Complete
  dsimp only
  rw [h.2, line, Option.getD_some, List.append_assoc]

theorem LogFile.Rests.ending (h : file.Rests) (hmem : record ∈ received) :
    LogFile.Holds received
      { content := file.content ++ record, busy := some lineEnd
        handed := file.handed ++ line record } where
  busy bytes hbusy := by
    obtain rfl := Option.some.inj hbusy
    exact h.written record
  lacks := ⟨lineEnd, h.written record, .inr ⟨file.handed, record, hmem, rfl,
    List.suffix_append _ _⟩⟩

end Files

namespace LogWriter

variable {before : LogDirectory} {writer next : LogWriter} {received : List Bytes} {record : Bytes}

/-- The files hold what they were handed, and the writer hears of what the open one lacks. -/
structure Held (received : List Bytes) (writer : LogWriter) : Prop where
  files : writer.directory.All (LogFile.Holds received)
  active : writer.file = true → writer.failure = none → writer.active.Complete

/-- No write has failed. -/
structure Healthy (writer : LogWriter) : Prop where
  failure : writer.failure = none
  files : writer.directory.All LogFile.Complete

theorem all_active {P : LogFile → Prop} (h : writer.directory.All P) (hnew : P (.atRest [])) :
    P writer.active := by
  unfold LogWriter.active
  cases hget : writer.directory.get? writer.path with
  | none => exact hnew
  | some file => exact h writer.path file hget

theorem Held.mono (h : writer.Held received) (more : List Bytes) :
    writer.Held (received ++ more) :=
  ⟨h.files.mono fun _ hholds => hholds.mono more, h.active⟩

theorem Held.active_holds (h : writer.Held received) : writer.active.Holds received :=
  all_active h.files (LogFile.rests_atRest []).holds

/-- When the writer hears of no failure, the file holds all that it was handed. -/
theorem Held.rests (h : writer.Held received) (hfile : writer.file = true)
    {fault : Option WriteFault} (hheard : writer.heard fault = none) :
    (writer.active.settle fault).Rests := by
  unfold LogWriter.heard at hheard
  cases hbusy : writer.active.busy with
  | none =>
    rw [hbusy, if_neg (by decide)] at hheard
    have hcomplete := h.active hfile hheard
    unfold LogFile.Complete at hcomplete
    rw [LogFile.settle_of_idle hbusy]
    rw [hbusy, Option.getD_none, List.append_nil] at hcomplete
    exact ⟨hbusy, hcomplete⟩
  | some bytes =>
    rw [hbusy, Option.isSome_some, if_pos rfl] at hheard
    obtain rfl := Option.map_eq_none_iff.1 hheard
    refine LogFile.Complete.settle ?_
    unfold LogFile.Complete
    rw [hbusy]
    exact h.active_holds.busy bytes hbusy

theorem active_put (file : LogFile) (failure : Option IoError) (fileBytes : Nat)
    (begun : List Bytes) : LogWriter.active { writer with
      failure, fileBytes, directory := writer.directory.put writer.path file, begun } = file := by
  unfold LogWriter.active
  rw [Directory.get?_put, if_pos rfl, Option.getD_some]

theorem Held.write (h : writer.Held received) (hfile : writer.file = true)
    (hmem : record ∈ received) (faults : DiskFaults) :
    (writer.write record faults).1.Held received := by
  have hwrites := write_writes writer record faults
  generalize writer.write record faults = written at hwrites ⊢
  cases hwrites with
  | hears failure hheard =>
    exact ⟨h.files.put (h.active_holds.settle faults.settling),
      fun hopen => Bool.noConfusion hopen⟩
  | fails fault hheard hfault =>
    exact ⟨h.files.put ((h.rests hfile hheard).cut hmem fault.written),
      fun hopen => Bool.noConfusion hopen⟩
  | goes hheard hfault =>
    refine ⟨h.files.put ((h.rests hfile hheard).ending hmem), fun _ _ => ?_⟩
    rw [active_put]
    exact (h.rests hfile hheard).written record

theorem all_replaceFile {P : LogFile → Prop} (h : writer.directory.All P) (hnew : P (.atRest []))
    (faults : DiskFaults) : (writer.replaceFile faults).1.directory.All P := by
  unfold LogWriter.replaceFile
  split
  · rename_i hrotate
    exact (rotate_shifted hrotate).2.2 P h
  · rename_i hrotate
    have hrotated := (rotate_shifted hrotate).2.2 P h
    split
    · rename_i hopen
      exact all_openLogFile hopen hrotated hnew
    · rename_i hopen
      exact all_openLogFile hopen hrotated hnew

theorem Held.replaceFile (h : writer.Held received) (faults : DiskFaults) :
    (writer.replaceFile faults).1.Held received := by
  have hfiles := all_replaceFile h.files (LogFile.rests_atRest []).holds faults
  cases hreplace : writer.replaceFile faults with
  | mk next error =>
    rw [hreplace] at hfiles
    refine ⟨hfiles, fun hopen _ => ?_⟩
    cases error with
    | some error => exact absurd ((replaceFile_failed hreplace).symm.trans hopen) (by decide)
    | none =>
      -- The new file was handed nothing, so there is nothing it could lack.
      have hhanded : next.active.handed = [] := by
        rw [active_handed, (replaceFile_fresh hreplace).2.2]
        rfl
      have hholds := all_active hfiles (LogFile.rests_atRest []).holds
      obtain ⟨rest, hrest, -⟩ := hholds.lacks
      obtain ⟨hcontent, -⟩ := List.append_eq_nil_iff.1 (hrest.symm.trans hhanded)
      unfold LogFile.Complete
      cases hbusy : next.active.busy with
      | none => rw [hhanded, hcontent]; rfl
      | some bytes => exact hholds.busy bytes hbusy

theorem Held.append (h : writer.Held received) (hmem : record ∈ received) (faults : DiskFaults) :
    (writer.append record faults).1.Held received := by
  cases happend : writer.append record faults with
  | mk next error =>
    rcases append_cases happend with ⟨-, rfl, -⟩ |
      ⟨hfile, ⟨-, hwrite⟩ | ⟨replaced, hreplace, hwrite⟩ | ⟨failure, hreplace, -⟩⟩
    · exact h
    · exact hwrite ▸ h.write hfile hmem faults
    · have hreplaced := h.replaceFile faults
      rw [hreplace] at hreplaced
      exact hwrite ▸ hreplaced.write ((replaceFile_fresh hreplace).1.trans hfile) hmem faults
    · have hreplaced := h.replaceFile faults
      rw [hreplace] at hreplaced
      exact hreplaced

theorem all_start {P : LogFile → Prop} (h : writer.directory.All P) (hnew : P (.atRest []))
    (fault : Option OpenFault) (sized : Bool) : (writer.start fault sized).1.directory.All P := by
  have hopened : (openLogFile writer.path fault writer.directory).2.All P :=
    all_openLogFile rfl h hnew
  unfold LogWriter.start
  dsimp only
  split <;> exact hopened

theorem Held.start (h : writer.directory.All LogFile.Rests) (fault : Option OpenFault)
    (sized : Bool) : (writer.start fault sized).1.Held received := by
  have hrests := all_start h (LogFile.rests_atRest []) fault sized
  exact ⟨hrests.mono fun _ hrest => hrest.holds,
    fun _ _ => (all_active hrests (LogFile.rests_atRest [])).complete⟩

/-! ## The end of a write -/

theorem settle_eq {name : Bytes} {fault : Option WriteFault}
    (hsettle : writer.settle name fault = some next) :
    ∃ file bytes, writer.directory.get? name = some file ∧ file.busy = some bytes ∧
      next = { writer with
        failure :=
          if writer.file && name = writer.path then fault.map fun fault => fault.error
          else writer.failure
        directory := writer.directory.put name (file.settle fault) } := by
  unfold LogWriter.settle at hsettle
  split at hsettle
  · cases hsettle
  · rename_i file hget
    split at hsettle
    · rename_i hbusy
      obtain ⟨bytes, hbytes⟩ := Option.isSome_iff_exists.1 hbusy
      exact ⟨file, bytes, hget, hbytes, (Option.some.inj hsettle).symm⟩
    · cases hsettle

theorem slot_put_settle {name path : Bytes} {directory : LogDirectory} {file : LogFile}
    (hget : directory.get? name = some file) (fault : Option WriteFault) :
    slot (directory.put name (file.settle fault)) path = slot directory path := by
  funext i
  unfold slot
  rw [Directory.get?_put]
  split
  · rename_i heq
    rw [heq, hget, Option.map_some, Option.map_some, handed_settle]
  · rfl

/-- A file that is written to is one of the log files. -/
theorem Keeps.settle {name : Bytes} {fault : Option WriteFault} (h : writer.Keeps before)
    (hrests : before.All LogFile.Rests) (hsettle : writer.settle name fault = some next) :
    next.Keeps before := by
  obtain ⟨file, bytes, hget, hbusy, rfl⟩ := settle_eq hsettle
  obtain ⟨horder, hothers, hactive, hrotated⟩ := h
  refine ⟨?_, fun other hother => ?_, ?_, ?_⟩
  · dsimp only
    rw [slot_put_settle hget]
    exact horder
  · dsimp only
    rw [Directory.get?_put]
    split
    · rename_i heq
      rw [heq] at hother
      rw [hothers name hother] at hget
      rw [(hrests name file hget).1] at hbusy
      cases hbusy
    · exact hothers other hother
  · dsimp only
    rw [slot_put_settle hget]
    exact hactive
  · dsimp only
    rw [slot_put_settle hget]
    exact hrotated

theorem Sized.settle {name : Bytes} {fault : Option WriteFault} (h : writer.Sized before received)
    (hsettle : writer.settle name fault = some next) : next.Sized before received := by
  obtain ⟨file, bytes, hget, -, rfl⟩ := settle_eq hsettle
  obtain ⟨hsize, hlimited⟩ := h
  refine ⟨?_, ?_⟩
  · dsimp only
    rw [slot_put_settle hget]
    exact hsize
  · dsimp only
    rw [slot_put_settle hget]
    exact hlimited

theorem Held.settle {name : Bytes} {fault : Option WriteFault} (h : writer.Held received)
    (hsettle : writer.settle name fault = some next) : next.Held received := by
  obtain ⟨file, bytes, hget, hbusy, rfl⟩ := settle_eq hsettle
  have hholds := h.files name file hget
  refine ⟨h.files.put (hholds.settle fault), fun hopen hnone => ?_⟩
  dsimp only at hopen hnone
  by_cases hname : name = writer.path
  · rw [if_pos (by rw [hopen, Bool.true_and, decide_eq_true hname])] at hnone
    obtain rfl := Option.map_eq_none_iff.1 hnone
    have hcomplete : file.Complete := by
      unfold LogFile.Complete
      rw [hbusy]
      exact hholds.busy bytes hbusy
    unfold LogWriter.active
    dsimp only
    rw [Directory.get?_put, if_pos hname.symm, Option.getD_some]
    exact hcomplete.settle.complete
  · rw [if_neg (by rw [decide_eq_false hname, Bool.and_false]; decide)] at hnone
    have hactive := h.active hopen hnone
    unfold LogWriter.active at hactive ⊢
    dsimp only
    rw [Directory.get?_put, if_neg (Ne.symm hname)]
    exact hactive

/-! ## Without failures -/

theorem Healthy.heard (h : writer.Healthy) : writer.heard none = none := by
  unfold LogWriter.heard
  split
  · rfl
  · exact h.failure

theorem Healthy.replaceFile (h : writer.Healthy) (faults : DiskFaults) :
    (writer.replaceFile faults).1.Healthy := by
  refine ⟨?_, all_replaceFile h.files (LogFile.rests_atRest []).complete faults⟩
  unfold LogWriter.replaceFile
  split
  · rfl
  · split <;> rfl

theorem Healthy.write (h : writer.Healthy) {faults : DiskFaults}
    (hsettling : faults.settling = none) (hwriting : faults.writing = none) :
    (writer.write record faults).1.Healthy := by
  have hwrites := write_writes writer record faults
  generalize writer.write record faults = written at hwrites ⊢
  have hheard := h.heard
  cases hwrites with
  | hears failure hfails =>
    rw [hsettling, hheard] at hfails
    cases hfails
  | fails fault _ hfault =>
    rw [hwriting] at hfault
    cases hfault
  | goes _ _ =>
    have hrests := (all_active h.files (LogFile.rests_atRest []).complete).settle
    rw [hsettling]
    exact ⟨rfl, h.files.put (hrests.written record)⟩

theorem Healthy.append (h : writer.Healthy) {faults : DiskFaults}
    (hsettling : faults.settling = none) (hwriting : faults.writing = none) :
    (writer.append record faults).1.Healthy := by
  cases happend : writer.append record faults with
  | mk next error =>
    rcases append_cases happend with ⟨-, rfl, -⟩ |
      ⟨-, ⟨-, hwrite⟩ | ⟨replaced, hreplace, hwrite⟩ | ⟨failure, hreplace, -⟩⟩
    · exact h
    · exact hwrite ▸ h.write hsettling hwriting
    · have hreplaced := h.replaceFile faults
      rw [hreplace] at hreplaced
      exact hwrite ▸ hreplaced.write hsettling hwriting
    · have hreplaced := h.replaceFile faults
      rw [hreplace] at hreplaced
      exact hreplaced

theorem Healthy.start (h : writer.Healthy) (fault : Option OpenFault) (sized : Bool) :
    (writer.start fault sized).1.Healthy := by
  refine ⟨?_, all_start h.files (LogFile.rests_atRest []).complete fault sized⟩
  unfold LogWriter.start
  dsimp only
  split <;> exact h.failure

theorem Healthy.settle {name : Bytes} (h : writer.Healthy)
    (hsettle : writer.settle name none = some next) : next.Healthy := by
  obtain ⟨file, bytes, hget, -, rfl⟩ := settle_eq hsettle
  refine ⟨?_, h.files.put (h.files name file hget).settle.complete⟩
  dsimp only
  split
  · rfl
  · exact h.failure

theorem settle_params {name : Bytes} {fault : Option WriteFault}
    (hsettle : writer.settle name fault = some next) :
    next.params = writer.params ∧ next.file = writer.file ∧ next.begun = writer.begun := by
  obtain ⟨file, bytes, -, -, rfl⟩ := settle_eq hsettle
  exact ⟨rfl, rfl, rfl⟩

end LogWriter

end Fluxcope.Logging
