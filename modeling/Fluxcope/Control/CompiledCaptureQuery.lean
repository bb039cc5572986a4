import Fluxcope.Control.CaptureQuery
import Fluxcope.Library.Cancellation
import Fluxcope.Library.Kmp
import Fluxcope.Library.Result
import Fluxcope.Library.Utf8Text
/-!
# The compiled query of a capture search

A query is checked and compiled once, and then asked about captures.  Its texts
are compared in their case folding, which is made character by character; long
values are folded and searched in pieces, with a check for a cancellation
between them.  Case folding, globs and time stamps belong to other packages and
are parameters.
-/

namespace Fluxcope.Control

open Fluxcope.Library Fluxcope.Library.Utf8 Fluxcope.Capture

def maxCapturePatternBytes : Nat := 64 * 1024

def scanQuantum : Nat := 4 * 1024

/-- What the query compiler uses of other packages.  `buildGlob` fails with the
text of its error; instants count from the epoch. -/
structure QueryPackages where
  caseFold : Bytes → List Bytes
  Glob : Type
  buildGlob : Bytes → Except String Glob
  isMatch : Glob → Bytes → Bool
  parseFromRfc3339 : Bytes → Option Int

/-- `fold`: the folded characters of a text. -/
def QueryPackages.fold (p : QueryPackages) (v : Bytes) : List Bytes := (chars v).flatMap p.caseFold

/-! ## Queries -/

inductive CaptureTextFilter
  | substring (value : Bytes)
  | glob (value : Bytes)
  deriving DecidableEq, Repr

structure CaptureHeaderFilter where
  name : Bytes
  value : Option Bytes
  deriving DecidableEq, Repr

structure CaptureStatusFilter where
  exact : Option Nat
  minimum : Option Nat
  maximum : Option Nat
  deriving DecidableEq, Repr

structure CaptureQuery where
  method : Option Bytes := none
  originalUrl : Option CaptureTextFilter := none
  effectiveUrl : Option CaptureTextFilter := none
  status : Option CaptureStatusFilter := none
  header : Option CaptureHeaderFilter := none
  mappingPath : Option MappingPath := none
  lifecycle : Option CaptureLifecycle := none
  startedAtMin : Option Bytes := none
  startedAtMax : Option Bytes := none
  sequenceMin : Option Nat := none
  sequenceMax : Option Nat := none
  text : Option Bytes := none
  deriving DecidableEq, Repr

/-- A folded pattern with its failure table. -/
structure CompiledSubstring where
  pattern : List Bytes
  failure : List Nat
  failure_eq : failure = Kmp.failureTable pattern

def CompiledSubstring.new (p : QueryPackages) (value : Bytes) : CompiledSubstring :=
  { pattern := p.fold value, failure := Kmp.failureTable (p.fold value), failure_eq := rfl }

inductive CompiledTextFilter (Glob : Type)
  | substring (needle : CompiledSubstring)
  | glob (glob : Glob)

structure CompiledCaptureQuery (p : QueryPackages) where
  method : Option (List Bytes)
  originalUrl : Option (CompiledTextFilter p.Glob)
  effectiveUrl : Option (CompiledTextFilter p.Glob)
  status : Option CaptureStatusFilter
  headerName : Option (List Bytes)
  headerValue : Option CompiledSubstring
  mappingPath : Option MappingPath
  lifecycle : Option CaptureLifecycle
  startedAtMin : Option Int
  startedAtMax : Option Int
  sequenceMin : Option CaptureSequence
  sequenceMax : Option CaptureSequence
  text : Option CompiledSubstring

/-! ## Compilation -/

/-- `return Err(error)` when the condition holds. -/
def refuseIf (condition : Bool) (error : ControlError) : Except ControlError Unit :=
  if condition then .error error else .ok ()

def validatePattern (field : String) (value : Bytes) : Except ControlError Unit :=
  refuseIf (value.length > maxCapturePatternBytes)
    { code := .invalidArgument
      message := s!"{field} exceeds the capture search pattern limit"
      retryable := false
      field
      details := [("max_bytes", maxCapturePatternBytes), ("received_bytes", value.length)] }

def validateOptionalPattern (field : String) (value : Option Bytes) : Except ControlError Unit :=
  match value with
  | none => .ok ()
  | some value => validatePattern field value

def CaptureTextFilter.value : CaptureTextFilter → Bytes
  | .substring value => value
  | .glob value => value

/-- Both are given, and the first is the greater one. -/
def exceeds {α : Type} [LT α] [DecidableLT α] (a b : Option α) : Bool :=
  match a, b with
  | some a, some b => b < a
  | _, _ => false

def validateStatus (status : Option CaptureStatusFilter) : Except ControlError Unit :=
  match status with
  | none => .ok ()
  | some s => do
      refuseIf (s.exact.isNone && s.minimum.isNone && s.maximum.isNone)
        (.invalidArgument "status filter requires exact, minimum, or maximum")
      refuseIf (s.exact.isSome && (s.minimum.isSome || s.maximum.isSome))
        (.invalidArgument "exact status cannot be combined with status bounds")
      refuseIf ([s.exact, s.minimum, s.maximum].any (·.any fun x => !(100 ≤ x && x ≤ 599)))
        (.invalidArgument "HTTP status filters must be between 100 and 599")
      refuseIf (exceeds s.minimum s.maximum)
        (.invalidArgument "minimum status must not exceed maximum status")

variable (p : QueryPackages)

def parseTime (name : String) (v : Option Bytes) : Except ControlError (Option Int) :=
  match v with
  | none => .ok none
  | some x =>
    match p.parseFromRfc3339 x with
    | some instant => .ok (some instant)
    | none => .error (.invalidArgument s!"{name} must be an RFC 3339 timestamp")

def compileText (filter : CaptureTextFilter) : Except ControlError (CompiledTextFilter p.Glob) :=
  match filter with
  | .substring value => .ok (.substring (.new p value))
  | .glob value =>
    match p.buildGlob (p.fold value).flatten with
    | .ok glob => .ok (.glob glob)
    | .error error => .error (.invalidArgument s!"invalid capture URL glob: {error}")

/-- `map(compile_text).transpose()` -/
def compileOptionalText (filter : Option CaptureTextFilter) :
    Except ControlError (Option (CompiledTextFilter p.Glob)) :=
  match filter with
  | none => .ok none
  | some filter => (compileText p filter).map some

/-- The checks of the texts of a query. -/
def CaptureQuery.validatePatterns (q : CaptureQuery) : Except ControlError Unit := do
  validateOptionalPattern "query.method" q.method
  validateOptionalPattern "query.original_url.value" (q.originalUrl.map (·.value))
  validateOptionalPattern "query.effective_url.value" (q.effectiveUrl.map (·.value))
  validateOptionalPattern "query.header.name" (q.header.map (·.name))
  validateOptionalPattern "query.header.value" (q.header.bind (·.value))
  validateOptionalPattern "query.text" q.text

/-- The checks of the bounds of a query and of its header name. -/
def CaptureQuery.validateBounds (q : CaptureQuery) (startedAtMin startedAtMax : Option Int) :
    Except ControlError Unit := do
  refuseIf (exceeds startedAtMin startedAtMax)
    (.invalidArgument "started_at_min must not exceed started_at_max")
  refuseIf (exceeds q.sequenceMin q.sequenceMax)
    (.invalidArgument "sequence_min must not exceed sequence_max")
  refuseIf (q.header.any (·.name.isEmpty))
    (.invalidArgument "capture header name must not be empty")

def CompiledCaptureQuery.compile (q : CaptureQuery) : Except ControlError (CompiledCaptureQuery p) := do
  q.validatePatterns
  validateStatus q.status
  let startedAtMin ← parseTime p "started_at_min" q.startedAtMin
  let startedAtMax ← parseTime p "started_at_max" q.startedAtMax
  q.validateBounds startedAtMin startedAtMax
  let originalUrl ← compileOptionalText p q.originalUrl
  let effectiveUrl ← compileOptionalText p q.effectiveUrl
  return {
    method := q.method.map p.fold
    originalUrl
    effectiveUrl
    status := q.status
    headerName := q.header.map fun h => p.fold h.name
    headerValue := (q.header.bind (·.value)).map (CompiledSubstring.new p)
    mappingPath := q.mappingPath
    lifecycle := q.lifecycle
    startedAtMin
    startedAtMax
    sequenceMin := q.sequenceMin
    sequenceMax := q.sequenceMax
    text := q.text.map (CompiledSubstring.new p) }

/-! ## Folding and searching by pieces -/

section Scans

variable (cancelled : Nat → Bool)

def searchCancelled : ControlError := .cancelled "capture search cancelled"

def checkSearch : Checked ControlError Unit := Checked.check cancelled searchCancelled

/-- A check after `scanned` bytes, when it is due, and the bytes since the last one. -/
def checkScan (due : Bool) (scanned : Nat) : Checked ControlError Nat :=
  if due then do
    checkSearch cancelled
    pure 0
  else pure scanned

/-- The folded characters of one character; `none` once the whole pattern is found. -/
def matchFolded (needle : CompiledSubstring) : List Bytes → Nat → Option Nat
  | [], matched => some matched
  | folded :: rest, matched =>
    let matched := Kmp.advance needle.pattern needle.failure folded matched
    if matched = needle.pattern.length then none else matchFolded needle rest matched

def scanFolded (needle : CompiledSubstring) : List Bytes → Nat → Nat → Checked ControlError Bool
  | [], _, _ => do
      checkSearch cancelled
      pure false
  | original :: rest, matched, scanned => do
      let scanned ← checkScan cancelled
        (scanned != 0 && scanned + original.length > scanQuantum) scanned
      let scanned := scanned + original.length
      match matchFolded needle (p.caseFold original) matched with
      | none => do
          checkSearch cancelled
          pure true
      | some matched => do
          let scanned ← checkScan cancelled (scanned = scanQuantum) scanned
          scanFolded needle rest matched scanned

def containsFoldedChecked (value : Bytes) (needle : CompiledSubstring) :
    Checked ControlError Bool := do
  checkSearch cancelled
  if needle.pattern.isEmpty then pure true
  else scanFolded p cancelled needle (chars value) 0 0

/-- `while end > start && !v.is_char_boundary(end) { end -= 1 }` -/
def alignDown (v : Bytes) (start : Nat) : Nat → Nat
  | 0 => 0
  | stop + 1 =>
    if start < stop + 1 && !isCharBoundary v (stop + 1) then alignDown v start stop
    else stop + 1

/-- Where the piece that begins at `start` ends. -/
def foldEnd (v : Bytes) (start : Nat) : Nat :=
  let stop := alignDown v start (min (start + scanQuantum) v.length)
  if stop = start then
    match chars (v.drop start) with
    | first :: _ :: _ => start + first.length
    | _ => v.length
  else stop

def foldLoop (v : Bytes) : Nat → Nat → List Bytes → Checked ControlError (List Bytes)
  | 0, _, out => pure out
  | fuel + 1, start, out =>
    if start < v.length then do
      checkSearch cancelled
      let stop := foldEnd v start
      let out := out ++ p.fold ((v.drop start).take (stop - start))
      checkSearch cancelled
      foldLoop v fuel stop out
    else pure out

/-- Every piece has a byte at least, so the length is fuel enough. -/
def foldChecked (v : Bytes) : Checked ControlError (List Bytes) := foldLoop p cancelled v v.length 0 []

/-! ## Matching -/

def CompiledTextFilter.isMatch (filter : CompiledTextFilter p.Glob) (value : Bytes) :
    Checked ControlError Bool :=
  match filter with
  | .substring needle => containsFoldedChecked p cancelled value needle
  | .glob matcher => do
      let folded ← foldChecked p cancelled value
      pure (p.isMatch matcher folded.flatten)

def statusMatch (f : CaptureStatusFilter) (s : Nat) : Bool :=
  f.exact.all (fun x => s = x) && f.minimum.all (fun x => s ≥ x) && f.maximum.all (fun x => s ≤ x)

/-- The headers of the request, and then those of the response. -/
def allHeaders (s : CaptureSnapshot) : List (Bytes × Bytes) :=
  s.request.headers ++ (s.response.map (·.headers)).getD []

def headerMatch (expectedName : List Bytes) (expectedValue : Option CompiledSubstring) :
    List (Bytes × Bytes) → Checked ControlError Bool
  | [] => pure false
  | (name, value) :: rest => do
      checkSearch cancelled
      let folded ← foldChecked p cancelled name
      if folded ≠ expectedName then headerMatch expectedName expectedValue rest
      else
        match expectedValue with
        | none => pure true
        | some expected => do
            if ← containsFoldedChecked p cancelled value expected then pure true
            else headerMatch expectedName expectedValue rest

/-- One of the values contains the text. -/
def anyContains (text : CompiledSubstring) : List Bytes → Checked ControlError Bool
  | [] => pure false
  | value :: rest => do
      if ← containsFoldedChecked p cancelled value text then pure true
      else anyContains text rest

def headersContain (text : CompiledSubstring) : List (Bytes × Bytes) → Checked ControlError Bool
  | [] => pure false
  | (name, value) :: rest => do
      checkSearch cancelled
      if ← anyContains p cancelled text [name, value] then pure true
      else headersContain text rest

def textMatch (snapshot : CaptureSnapshot) (text : CompiledSubstring) : Checked ControlError Bool := do
  if ← anyContains p cancelled text
      [snapshot.request.method, snapshot.request.originalUri, snapshot.request.effectiveUri] then
    pure true
  else if ← anyContains p cancelled text
      (snapshot.response.toList.map fun response => decimal response.status) then
    pure true
  else headersContain p cancelled text (allHeaders snapshot)

/-- A criterion that is not given holds. -/
def given {α : Type} (criterion : Option α) (test : α → Checked ControlError Bool) :
    Checked ControlError Bool :=
  match criterion with
  | none => pure true
  | some x => test x

/-- `return Ok(false)` when the test fails. -/
def andThen (test next : Checked ControlError Bool) : Checked ControlError Bool := do
  if ← test then next else pure false

variable {p} in
/-- The criteria that are decided without a scan. -/
def CompiledCaptureQuery.plainMatch (q : CompiledCaptureQuery p) (s : CaptureSnapshot) : Bool :=
  !(q.sequenceMin.any (fun x => s.sequence < x) || q.sequenceMax.any (fun x => s.sequence > x) ||
    q.startedAtMin.any (fun x => (s.timing.startedAt : Int) < x) ||
    q.startedAtMax.any (fun x => (s.timing.startedAt : Int) > x) ||
    q.mappingPath.any (fun x => classifyMapping s != x) ||
    q.lifecycle.any (fun x => classifyLifecycle s != x))

variable {p} in
/-- `matches` -/
def CompiledCaptureQuery.isMatch (q : CompiledCaptureQuery p) (s : CaptureSnapshot) :
    Checked ControlError Bool := do
  checkSearch cancelled
  if !q.plainMatch s then pure false
  else
    andThen (given q.method fun x => do
        let folded ← foldChecked p cancelled s.request.method
        pure (folded = x)) <|
      andThen (given q.originalUrl fun filter => filter.isMatch p cancelled s.request.originalUri) <|
      andThen (given q.effectiveUrl fun filter => filter.isMatch p cancelled s.request.effectiveUri) <|
      andThen (given q.status fun x => pure ((s.response.map (·.status)).any (statusMatch x))) <|
      andThen (given q.headerName fun name => headerMatch p cancelled name q.headerValue (allHeaders s)) <|
      andThen (given q.text fun text => textMatch p cancelled s text) do
        checkSearch cancelled
        pure true

end Scans

end Fluxcope.Control
