import Fluxcope.Capture.FormDecoder
import Fluxcope.Control.Error
import Fluxcope.Library.Cancellation
import Fluxcope.Library.JsonWriter
/-!
# Extracting the values of a form field

`extract_form_values` searches a form for the fields with a key and writes their
values as a JSON array of limited size.
-/

namespace Fluxcope.Control

open Fluxcope.Library Fluxcope.Library.Utf8 Fluxcope.Library.FormUrlencoded Fluxcope.Capture

def maxDecodedContentBytes : Nat := 16 * 1024 * 1024

/-- The bytes scanned between two checks. -/
def formScanBytes : Nat := 32 * 1024

def formOutputLimitError : ControlError :=
  { code := .jsonSizeLimit
    message := "selected form representation exceeds the size limit"
    retryable := false
    details := [("maximum_bytes", maxDecodedContentBytes)] }

def formInputLimitError : ControlError :=
  { code := .jsonSizeLimit
    message := "decoded form body exceeds the structured input limit"
    retryable := false
    details := [("maximum_bytes", maxDecodedContentBytes)] }

def formFieldNotFound : ControlError :=
  { code := .notFound, message := "form field does not exist", retryable := false }

def formCancelled : ControlError := .cancelled "form extraction cancelled"

/-! ## The output -/

structure CappedJsonArrayWriter where
  output : Bytes
  limit : Nat
  deriving DecidableEq, Repr

namespace CappedJsonArrayWriter

def withLimit (limit : Nat) : CappedJsonArrayWriter := { output := [0x5B], limit }

def canFinish (writer : CappedJsonArrayWriter) : Bool := writer.output.length < writer.limit

def finish (writer : CappedJsonArrayWriter) : Except ControlError Bytes :=
  if !writer.canFinish then .error formOutputLimitError else .ok (writer.output ++ [0x5D])

/-- `write_all`, which does not call `write` for no bytes. -/
def writeAll (bytes : Bytes) : Writer CappedJsonArrayWriter Unit Unit := fun writer =>
  if bytes = [] then .ok ((), writer)
  else if writer.output.length + bytes.length ≥ writer.limit then .error ()
  else .ok ((), { writer with output := writer.output ++ bytes })

/-- The serializer over the bytes of a string; `fragment` holds those that need no
escape and are not written yet. -/
def writeEscaped : Bytes → Bytes → Writer CappedJsonArrayWriter Unit Unit
  | fragment, [] => writeAll fragment
  | fragment, byte :: rest =>
    match JsonString.escape byte with
    | none => writeEscaped (fragment ++ [byte]) rest
    | some escape => do
        writeAll fragment
        writeAll escape
        writeEscaped [] rest

/-- `serde_json::to_writer` of a string: a quotation mark, the runs of bytes that need no escape
with the escapes between them, as compact JSON is documented, and a quotation mark. -/
def writeString (value : Bytes) : Writer CappedJsonArrayWriter Unit Unit := do
  writeAll [0x22]
  writeEscaped [] value
  writeAll [0x22]

def writeFormJson (value : Bytes) (separator : Bool) : Writer CappedJsonArrayWriter Unit Unit := do
  writeAll (if separator then [0x2C] else [])
  writeString value

end CappedJsonArrayWriter

/-! ## The components -/

def appendBounded (limit : Nat) (text : Bytes) : Writer Bytes Unit Unit := fun output =>
  if output.length + text.length > limit then .error () else .ok ((), output ++ text)

section Extract

variable (flushBytes : Nat) (cancelled : Nat → Bool)

def checkForm : Checked ControlError Unit := Checked.check cancelled formCancelled

/-- The loop of `find_form_delimiter_with`. -/
def findDelimiterFrom (delimiter : UInt8) (input : Bytes) :
    Nat → Nat → Checked ControlError Nat
  | 0, _ => do
      checkForm cancelled
      pure input.length
  | fuel + 1, offset =>
    if offset < input.length then do
      checkForm cancelled
      let stop := min (offset + formScanBytes) input.length
      match ((input.take stop).drop offset).findIdx? (· = delimiter) with
      | some relative => pure (offset + relative)
      | none => findDelimiterFrom delimiter input fuel stop
    else do
      checkForm cancelled
      pure input.length

def findFormDelimiterWith (delimiter : UInt8) (input : Bytes) : Checked ControlError Nat :=
  findDelimiterFrom cancelled delimiter input input.length 0

/-- The loop of `decode_with` over the bytes of a component, with the bytes scanned
since the last flush, the decoded ones that are not written yet and the output. -/
def decodeFrom (limit : Nat) : Nat → Bytes → Nat → Bytes → Bytes →
    Checked ControlError (Option (Bytes × Bytes))
  | 0, _, _, bytes, output => pure (some (bytes, output))
  | fuel + 1, input, scanned, bytes, output =>
    if input = [] then pure (some (bytes, output))
    else
      let (decoded, consumed) := decodeFormByte input
      if scanned + consumed ≥ flushBytes then
        match flush (appendBounded limit) false (bytes ++ [decoded]) output with
        | .error () => pure none
        | .ok (bytes, output) => do
            checkForm cancelled
            decodeFrom limit fuel (input.drop consumed) 0 bytes output
      else decodeFrom limit fuel (input.drop consumed) (scanned + consumed) (bytes ++ [decoded]) output

/-- `decode_with`: the text of a component, unless it is longer than the limit. -/
def decodeWith (limit : Nat) (input : Bytes) : Checked ControlError (Option Bytes) := do
  checkForm cancelled
  match ← decodeFrom flushBytes cancelled limit input.length input 0 [] [] with
  | none => pure none
  | some (bytes, output) =>
    match flush (appendBounded limit) true bytes output with
    | .error () => pure none
    | .ok (_, output) => do
        checkForm cancelled
        pure (some output)

/-! ## The fields -/

/-- The key and the value of a field, still encoded. -/
def splitField (field : Bytes) (equals : Nat) : Bytes × Bytes :=
  if equals = field.length then (field, [])
  else (field.take equals, field.drop (equals + 1))

/-- The value of a field whose key matches is written. -/
def takeFormValue (rawValue : Bytes) (writer : CappedJsonArrayWriter) (found : Bool) :
    Checked ControlError CappedJsonArrayWriter := do
  match ← decodeWith flushBytes cancelled maxDecodedContentBytes rawValue with
  | none => throw formOutputLimitError
  | some value =>
    match CappedJsonArrayWriter.writeFormJson value found writer with
    | .error () => throw formOutputLimitError
    | .ok ((), writer) => pure writer

def extractField (expectedKey field : Bytes) (writer : CappedJsonArrayWriter) (found : Bool) :
    Checked ControlError (CappedJsonArrayWriter × Bool) := do
  let equals ← findFormDelimiterWith cancelled equalsSign field
  let (rawKey, rawValue) := splitField field equals
  let key ← decodeWith flushBytes cancelled expectedKey.length rawKey
  if key = some expectedKey then do
    let writer ← takeFormValue flushBytes cancelled rawValue writer found
    pure (writer, true)
  else pure (writer, found)

/-- The loop over the fields. -/
def extractFields (expectedKey : Bytes) : Nat → Bytes → CappedJsonArrayWriter → Bool →
    Checked ControlError (CappedJsonArrayWriter × Bool)
  | 0, _, writer, found => pure (writer, found)
  | fuel + 1, input, writer, found => do
      let fieldEnd ← findFormDelimiterWith cancelled ampersand input
      let (writer, found) ←
        extractField flushBytes cancelled expectedKey (input.take fieldEnd) writer found
      if fieldEnd = input.length then pure (writer, found)
      else extractFields expectedKey fuel (input.drop (fieldEnd + 1)) writer found

def extractFormValuesFlushing (input expectedKey : Bytes) : Checked ControlError Bytes :=
  if input.length > maxDecodedContentBytes then throw formInputLimitError
  else do
    let (writer, found) ← extractFields flushBytes cancelled expectedKey (input.length + 1) input
      (.withLimit maxDecodedContentBytes) false
    if !found then throw formFieldNotFound
    else liftM writer.finish

def extractFormValues (input expectedKey : Bytes) : Checked ControlError Bytes :=
  extractFormValuesFlushing formScanBytes cancelled input expectedKey

end Extract

end Fluxcope.Control
