import Fluxcope.Library.Digits
import Fluxcope.Library.Directory
import Fluxcope.Library.Machine
import Fluxcope.Logging.LogPanel
/-!
# The log writer

Log calls put records into a queue.  The writer takes them out one by one, appends each to a
file, which it rotates when it is full, and passes it to the log panel.  A write goes on in
the background when the call has returned; how it ended is the answer of the next operation
on the handle, and of none when the handle is dropped before.  The first failure that the
writer hears of ends the logging to disk.
-/

namespace Fluxcope.Logging

open Fluxcope.Library Fluxcope.Library.Utf8

structure LoggingPolicy where
  writerQueueCapacity : Nat := 1024
  tuiQueueCapacity : Nat := 1024
  statusQueueCapacity : Nat := 8
  maxRecordBytes : Nat := 64 * 1024
  retention : LogRetentionPolicy := {}
  maxFileBytes : Nat := 10 * 1024 * 1024
  retainedFiles : Nat := 5

/-! ## Files -/

/-- `busy` is the write under way.  `handed` is not in the source: the content that the file
was opened with, and the lines that the writer has begun to write behind it. -/
structure LogFile where
  content : Bytes
  busy : Option Bytes := none
  handed : Bytes

/-- Nobody writes to the file. -/
def LogFile.atRest (content : Bytes) : LogFile := { content, handed := content }

abbrev LogDirectory := Directory Bytes LogFile

def resting (before : Directory Bytes Bytes) : LogDirectory := before.map .atRest

/-- The text of an error of the operating system. -/
abbrev IoError := Bytes

def rotatedPath (path : Bytes) (index : Nat) : Bytes := path ++ ofAscii "." ++ decimal index

/-- A file that is not there counts as removed. -/
def removeIfExists (path : Bytes) (fault : Option IoError) (directory : LogDirectory) :
    Except IoError Unit × LogDirectory :=
  match fault with
  | some error => (.error error, directory)
  | none => (.ok (), (directory.removeFile path).2)

def renameIfExists (path target : Bytes) (fault : Option IoError) (directory : LogDirectory) :
    Except IoError Unit × LogDirectory :=
  match fault with
  | some error => (.error error, directory)
  | none => (.ok (), (directory.rename path target).2)

/-- The renames of `rotate`, from the one of the file with this index on. -/
def renameFrom (path : Bytes) (faults : Nat → Option IoError) :
    Nat → LogDirectory → Except IoError Unit × LogDirectory
  | 0, directory => renameIfExists path (rotatedPath path 1) (faults 0) directory
  | index + 1, directory =>
    match renameIfExists (rotatedPath path (index + 1)) (rotatedPath path (index + 2))
        (faults (index + 1)) directory with
    | (.ok (), after) => renameFrom path faults index after
    | (.error error, after) => (.error error, after)

/-- `faults` tells which of the calls fail, by the index of the file they are about. -/
def rotate (path : Bytes) (retainedFiles : Nat) (faults : Nat → Option IoError)
    (directory : LogDirectory) : Except IoError Unit × LogDirectory :=
  match retainedFiles with
  | 0 => removeIfExists path (faults 0) directory
  | retained + 1 =>
    match removeIfExists (rotatedPath path (retained + 1)) (faults (retained + 1)) directory with
    | (.ok (), after) => renameFrom path faults retained after
    | (.error error, after) => (.error error, after)

/-- A file may be created before opening it fails. -/
structure OpenFault where
  error : IoError
  created : Bool

/-- `O_CREAT` and `O_APPEND`: what is in the file stays. -/
def created (path : Bytes) (directory : LogDirectory) : LogDirectory :=
  match directory.get? path with
  | none => directory.put path (.atRest [])
  | some _ => directory

def openLogFile (path : Bytes) (fault : Option OpenFault) (directory : LogDirectory) :
    Except IoError Unit × LogDirectory :=
  match fault with
  | some fault => (.error fault.error, if fault.created then created path directory else directory)
  | none => (.ok (), created path directory)

/-- A write fails after some of the bytes. -/
structure WriteFault where
  error : IoError
  written : Nat

/-- The write under way ends, or fails. -/
def LogFile.settle (file : LogFile) (fault : Option WriteFault) : LogFile :=
  match file.busy with
  | none => file
  | some bytes =>
    { file with
      content := file.content ++ fault.elim bytes fun fault => bytes.take fault.written
      busy := none }

/-! ## The writer -/

/-- What fails while a record is appended; `settling` is for the write before. -/
structure DiskFaults where
  rotating : Nat → Option IoError := fun _ => none
  opening : Option OpenFault := none
  settling : Option WriteFault := none
  writing : Option WriteFault := none

/-- `file` tells whether there is a handle, and `failure` how the last write of the handle
ended, if it failed and nothing has asked since.  `begun` is not in the source: the records
whose lines the writer has begun to write. -/
structure LogWriter where
  path : Bytes
  maxFileBytes : Nat
  retainedFiles : Nat
  file : Bool
  failure : Option IoError
  fileBytes : Nat
  directory : LogDirectory
  begun : List Bytes

def lineEnd : Bytes := ofAscii "\n"

/-- A record and the line end behind it. -/
def line (record : Bytes) : Bytes := record ++ lineEnd

def disabledMessage (path : Bytes) (error : IoError) : Bytes :=
  ofAscii "disk logging disabled for " ++ path ++ ofAscii ": " ++ error

namespace LogWriter

/-- The file is opened when the writer starts; its size may remain unknown. -/
def start (writer : LogWriter) (fault : Option OpenFault) (sized : Bool) :
    LogWriter × Option IoError :=
  let (result, directory) := openLogFile writer.path fault writer.directory
  let size :=
    if sized then (directory.get? writer.path).elim 0 fun file => file.content.length else 0
  let fileBytes := min size wordMax
  match result with
  | .ok () => ({ writer with file := true, fileBytes, directory }, none)
  | .error error => ({ writer with file := false, fileBytes, directory }, some error)

/-- The file makes way for a new one.  Its handle is dropped first: a write under way goes on,
and nobody hears of its end. -/
def replaceFile (writer : LogWriter) (faults : DiskFaults) : LogWriter × Option IoError :=
  match rotate writer.path writer.retainedFiles faults.rotating writer.directory with
  | (.error error, directory) =>
    ({ writer with file := false, failure := none, directory }, some error)
  | (.ok (), directory) =>
    match openLogFile writer.path faults.opening directory with
    | (.ok (), directory) =>
      ({ writer with failure := none, fileBytes := 0, directory }, none)
    | (.error error, directory) =>
      ({ writer with file := false, failure := none, directory }, some error)

/-- The file that is written to. -/
def active (writer : LogWriter) : LogFile := (writer.directory.get? writer.path).getD (.atRest [])

/-- What an operation on the handle hears first: how the write under way ends, or how the last
one has ended. -/
def heard (writer : LogWriter) (fault : Option WriteFault) : Option IoError :=
  if writer.active.busy.isSome then fault.map fun fault => fault.error else writer.failure

/-- Both calls of `write_all`.  The first waits for the write under way, and the second for
the record; the line end is left under way. -/
def write (writer : LogWriter) (record : Bytes) (faults : DiskFaults) :
    LogWriter × Option IoError :=
  let file := writer.active.settle faults.settling
  match writer.heard faults.settling, faults.writing with
  | some error, _ =>
    ({ writer with
      file := false
      failure := none
      directory := writer.directory.put writer.path file }, some error)
  | none, some fault =>
    ({ writer with
      file := false
      failure := none
      directory := writer.directory.put writer.path
        { content := file.content ++ record.take fault.written
          handed := file.handed ++ line record }
      begun := writer.begun ++ [record] }, some fault.error)
  | none, none =>
    ({ writer with
      failure := none
      fileBytes := satAdd writer.fileBytes (satAdd record.length 1)
      directory := writer.directory.put writer.path
        { content := file.content ++ record
          busy := some lineEnd
          handed := file.handed ++ line record }
      begun := writer.begun ++ [record] }, none)

/-- The write under way in the file with this name comes to its end. -/
def settle (writer : LogWriter) (name : Bytes) (fault : Option WriteFault) : Option LogWriter :=
  match writer.directory.get? name with
  | none => none
  | some file =>
    if file.busy.isSome then
      some { writer with
        failure :=
          if writer.file && name = writer.path then fault.map fun fault => fault.error
          else writer.failure
        directory := writer.directory.put name (file.settle fault) }
    else none

/-- Nothing is under way on the handle, as after `flush`. -/
def settled (writer : LogWriter) : Bool :=
  !writer.file || writer.active.busy.isNone

/-- What becomes of the files when the record is at hand, and the error that ends the
logging to disk, if there is one. -/
def append (writer : LogWriter) (record : Bytes) (faults : DiskFaults) :
    LogWriter × Option IoError :=
  if writer.file then
    if satAdd writer.fileBytes (satAdd record.length 1) > writer.maxFileBytes then
      match writer.replaceFile faults with
      | (writer, none) => writer.write record faults
      | (writer, some error) => (writer, some error)
    else writer.write record faults
  else (writer, none)

end LogWriter

/-! ## The service -/

/-- `degrading`: the message waits for room, the record at hand for its turn. -/
inductive WriterPhase
  | opening
  | receiving
  | appending (record : Bytes)
  | degrading (message : Bytes) (record : Option Bytes)
  | forwarding (record : Bytes)
  | stopped

/-- The history: how many log calls there were, the records that were queued, that the
writer received, that it was done with, and that the panel received, the messages that
were sent, and everything that the panel noted down. -/
structure LogHistory where
  offered : Nat := 0
  queued : List Bytes := []
  received : List Bytes := []
  forwarded : List Bytes := []
  shown : List Bytes := []
  sent : List Bytes := []
  noted : List Bytes := []

/-- `reserved` slots of the queue are promised to log calls that still format their record;
`watched` tells whether the receivers of the panel exist. -/
structure LoggingService where
  policy : LoggingPolicy
  logger : AppLogger
  reserved : Nat
  records : List Bytes
  phase : WriterPhase
  writer : LogWriter
  tui : List Bytes
  statuses : List Bytes
  watched : Bool
  cancelled : Bool
  producerDropped : Nat
  tuiDropped : Nat
  panel : LogPanel
  history : LogHistory

/-- What the records begin with that the program itself puts into the panel. -/
inductive SystemHeading
  | loggingError
  | runtimeWarning
  | runtimeError
  | metrics

def SystemHeading.text : SystemHeading → Bytes
  | .loggingError => ofAscii "ERROR - [fluxcope::logging] "
  | .runtimeWarning => ofAscii "WARN - [fluxcope::runtime] "
  | .runtimeError => ofAscii "ERROR - [fluxcope::runtime] "
  | .metrics => ofAscii "WARN - [fluxcope::metrics] "

inductive LogEvent
  | reserve
  | send (record : Record)
  | openFile (fault : Option OpenFault) (sized : Bool)
  | receive
  | append (faults : DiskFaults)
  | settle (name : Bytes) (fault : Option WriteFault)
  | sendStatus
  | forward
  | shutdown
  | cancel
  | unwatch
  | showRecord
  | showStatus
  | note (heading : SystemHeading) (message : Bytes)
  | render

namespace LoggingService

/-- The files that are there before are at rest. -/
def init (path : Bytes) (policy : LoggingPolicy) (before : Directory Bytes Bytes) :
    LoggingService where
  policy
  logger := .init policy.maxRecordBytes
  reserved := 0
  records := []
  phase := .opening
  writer :=
    { path
      maxFileBytes := policy.maxFileBytes
      retainedFiles := policy.retainedFiles
      file := false
      failure := none
      fileBytes := 0
      directory := resting before
      begun := [] }
  tui := []
  statuses := []
  watched := true
  cancelled := false
  producerDropped := 0
  tuiDropped := 0
  panel := .withRetention policy.retention
  history := {}

def queueCapacity (s : LoggingService) : Nat := max s.policy.writerQueueCapacity 1

def tuiCapacity (s : LoggingService) : Nat := max s.policy.tuiQueueCapacity 1

def statusCapacity (s : LoggingService) : Nat := max s.policy.statusQueueCapacity 1

def appendLog (s : LoggingService) (record : Bytes) : LoggingService :=
  { s with
    panel := s.panel.addLog record
    history := { s.history with noted := s.history.noted ++ [record] } }

/-- The phase after a step that may end the logging to disk. -/
def afterDisk (s : LoggingService) (error : Option IoError) (record : Option Bytes) :
    WriterPhase :=
  match error, record with
  | some error, record => .degrading (disabledMessage s.writer.path error) record
  | none, some record => .forwarding record
  | none, none => .receiving

/-- The phase after the message. -/
def afterStatus : Option Bytes → WriterPhase
  | some record => .forwarding record
  | none => .receiving

/-- A log call asks for a slot; the queue is closed once the writer has stopped. -/
def reserve (s : LoggingService) : LoggingService :=
  let asked := { s with history := { s.history with offered := s.history.offered + 1 } }
  match s.phase with
  | .stopped => { asked with producerDropped := s.producerDropped + 1 }
  | _ =>
    if s.records.length + s.reserved < s.queueCapacity then
      { asked with reserved := s.reserved + 1 }
    else { asked with producerDropped := s.producerDropped + 1 }

def tryForward (s : LoggingService) (record : Bytes) : LoggingService :=
  if s.watched && decide (s.tui.length < s.tuiCapacity) then
    { s with tui := s.tui ++ [record] }
  else { s with tuiDropped := s.tuiDropped + 1 }

/-- `none`: the party that would move has to wait, or is not there. -/
def step (s : LoggingService) (event : LogEvent) : Option LoggingService :=
  match event, s.phase with
  | .reserve, _ => some s.reserve
  | .send record, _ =>
    if 0 < s.reserved then
      let (message, metrics) := s.logger.formatRecord record
      some { s with
        logger := { s.logger with metrics }
        reserved := s.reserved - 1
        records := s.records ++ [message]
        history := { s.history with queued := s.history.queued ++ [message] } }
    else none
  | .openFile fault sized, .opening =>
    let (writer, error) := s.writer.start fault sized
    some { s with writer, phase := s.afterDisk error none }
  | .receive, .receiving =>
    match s.records with
    | record :: records =>
      some { s with
        records
        phase := .appending record
        history := { s.history with received := s.history.received ++ [record] } }
    | [] => none
  | .append faults, .appending record =>
    let (writer, error) := s.writer.append record faults
    some { s with writer, phase := s.afterDisk error (some record) }
  | .settle name fault, _ => (s.writer.settle name fault).map fun writer => { s with writer }
  | .sendStatus, .degrading message record =>
    if !s.watched then some { s with phase := afterStatus record }
    else if s.statuses.length < s.statusCapacity then
      some { s with
        statuses := s.statuses ++ [message]
        phase := afterStatus record
        history := { s.history with sent := s.history.sent ++ [message] } }
    else none
  | .forward, .forwarding record =>
    let forwarded := s.tryForward record
    some { forwarded with
      phase := .receiving
      history := { s.history with forwarded := s.history.forwarded ++ [record] } }
  | .shutdown, .receiving =>
    -- The file is flushed before the writer stops.
    if s.cancelled && s.writer.settled then some { s with phase := .stopped } else none
  | .shutdown, .degrading _ record =>
    if s.cancelled then some { s with phase := afterStatus record } else none
  | .cancel, _ => some { s with cancelled := true }
  | .unwatch, _ => some { s with watched := false }
  | .showRecord, _ =>
    match s.watched, s.tui with
    | true, record :: tui =>
      let shown := s.appendLog record
      some { shown with
        tui
        history := { shown.history with shown := shown.history.shown ++ [record] } }
    | _, _ => none
  | .showStatus, _ =>
    match s.watched, s.statuses with
    | true, message :: statuses =>
      some { s.appendLog (SystemHeading.loggingError.text ++ message) with statuses }
    | _, _ => none
  | .note heading message, _ =>
    if s.watched then some (s.appendLog (heading.text ++ message)) else none
  | .render, _ => if s.watched then some { s with panel := s.panel.renderText.1 } else none
  | _, _ => none

end LoggingService

end Fluxcope.Logging
