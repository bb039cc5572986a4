import Fluxcope.Control.BodySearch
import Fluxcope.Control.JsonWalk
import Fluxcope.Instance.RunId
import Fluxcope.Library.FormUrlencoded
import Fluxcope.Library.SocketAddr
import Fluxcope.Library.Utf8Chars
/-!
# The URIs of selections

A page of what was selected in a body has a URI.  The parser of URLs is a parameter of the
parser of these URIs.
-/

namespace Fluxcope.Control

open Fluxcope.Library Fluxcope.Library.Utf8 Fluxcope.Library.Net Fluxcope.Capture Fluxcope.Instance
open Fluxcope.Library.FormUrlencoded (ampersand equalsSign serializeComponent serializePair
  byteSerializedUnchanged isComponentByte)

def slash : UInt8 := 0x2F

def questionMark : UInt8 := 0x3F

/-! ## Splitting texts -/

/-- `str::split_once` with a character. -/
def splitOnce (separator : UInt8) (text : Bytes) : Option (Bytes × Bytes) :=
  if separator ∈ text then
    some (text.takeWhile (· ≠ separator), (text.dropWhile (· ≠ separator)).drop 1)
  else none

/-- `str::split_once` with a text that is not empty. -/
def splitOnceAt (pattern : Bytes) : Bytes → Option (Bytes × Bytes)
  | [] => none
  | byte :: text =>
    if pattern.isPrefixOf (byte :: text) then some ([], (byte :: text).drop pattern.length)
    else (splitOnceAt pattern text).map fun (before, after) => (byte :: before, after)

/-- `str::strip_prefix` -/
def stripStart (start text : Bytes) : Option Bytes :=
  if start.isPrefixOf text then some (text.drop start.length) else none

theorem splitOnce_append {separator : UInt8} {before : Bytes} (h : separator ∉ before)
    (after : Bytes) :
    splitOnce separator (before ++ separator :: after) = some (before, after) := by
  have hall : ∀ b ∈ before, decide (b ≠ separator) = true := by
    intro b hb
    exact decide_eq_true fun heq => h (heq ▸ hb)
  rw [splitOnce, if_pos (by simp), List.takeWhile_append_of_pos hall,
    List.dropWhile_append_of_pos hall]
  simp

theorem splitOnceAt_append {first : UInt8} {before : Bytes} (h : first ∉ before)
    (pattern after : Bytes) :
    splitOnceAt (first :: pattern) (before ++ (first :: pattern ++ after)) =
      some (before, after) := by
  induction before with
  | nil =>
    rw [List.nil_append, List.cons_append, splitOnceAt, if_pos (by simp)]
    simp
  | cons byte before ih =>
    have hne : first ≠ byte := fun heq => h (heq ▸ List.mem_cons_self)
    have hrest : first ∉ before := fun hmem => h (List.mem_cons_of_mem _ hmem)
    rw [List.cons_append, splitOnceAt, if_neg (by simp [hne]), ih hrest]
    rfl

theorem stripStart_append (start text : Bytes) : stripStart start (start ++ text) = some text := by
  rw [stripStart, if_pos (by simp), List.drop_left]

/-! ## Requests -/

def maxFormFieldKeyBytes : Nat := 4 * 1024

/-- A pointer has been parsed before. -/
inductive ExtractSelector
  | jsonPointer (pointer : JsonPointer) (parsed : JsonPointer.parse pointer.asStr = .ok pointer)
  | formField (key : Text)

def ExtractSelector.validate : ExtractSelector → Except ControlError Unit
  | .jsonPointer _ _ => .ok ()
  | .formField key =>
    if key = [] ∨ Text.utf8Len key > maxFormFieldKeyBytes then
      .error
        { code := .invalidArgument
          message := "form field key is out of range"
          retryable := false
          field := some "selector.key"
          details := [("minimum_bytes", 1), ("maximum_bytes", maxFormFieldKeyBytes),
            ("received_bytes", Text.utf8Len key)] }
    else .ok ()

inductive ExtractSelectorKind
  | jsonPointer
  | formField
  deriving DecidableEq, Repr

def ExtractSelector.kind : ExtractSelector → ExtractSelectorKind
  | .jsonPointer _ _ => .jsonPointer
  | .formField _ => .formField

/-- The bytes of the pointer or of the key. -/
def ExtractSelector.value : ExtractSelector → Bytes
  | .jsonPointer pointer _ => encode pointer.asStr
  | .formField key => encode key

/-- The segment of the path. -/
def ExtractSelectorKind.segment : ExtractSelectorKind → Bytes
  | .jsonPointer => ofAscii "json-pointer"
  | .formField => ofAscii "form-field"

/-- The name in the query. -/
def ExtractSelectorKind.name : ExtractSelectorKind → Bytes
  | .jsonPointer => ofAscii "pointer"
  | .formField => ofAscii "key"

structure SelectionContentRequest where
  captureId : UInt64
  captureRevision : UInt64
  side : BodySide
  selector : ExtractSelector
  offset : UInt64
  length : UInt64

def SelectionContentRequest.validate (request : SelectionContentRequest) :
    Except ControlError Unit := do
  request.selector.validate
  BodyContentRequest.validate
    { captureId := request.captureId.toNat
      captureRevision := request.captureRevision.toNat
      side := request.side
      representation := .decoded
      offset := request.offset.toNat
      length := request.length.toNat }

structure SelectionResourceRequest where
  proxyEndpoint : SocketAddr
  runId : RunId
  captureId : UInt64
  captureRevision : UInt64
  side : BodySide
  selector : ExtractSelector
  offset : UInt64
  length : UInt64

def sideSegment : BodySide → Bytes
  | .request => ofAscii "request"
  | .response => ofAscii "response"

namespace SelectionResourceRequest

def contentRequest (request : SelectionResourceRequest) : SelectionContentRequest where
  captureId := request.captureId
  captureRevision := request.captureRevision
  side := request.side
  selector := request.selector
  offset := request.offset
  length := request.length

def toUri (request : SelectionResourceRequest) : Except ControlError Bytes := do
  request.contentRequest.validate
  let query := FormUrlencoded.serialize
    [(request.selector.kind.name, request.selector.value),
      (ofAscii "offset", decimal request.offset.toNat),
      (ofAscii "length", decimal request.length.toNat)]
  return ofAscii "fluxcope://" ++ (request.proxyEndpoint.toText ++ (ofAscii "/runs/" ++
    (request.runId.asStr ++ (ofAscii "/captures/" ++ (decimal request.captureId.toNat ++
      (ofAscii "/revisions/" ++ (decimal request.captureRevision.toNat ++ (ofAscii "/bodies/" ++
        (sideSegment request.side ++ (ofAscii "/extract/" ++
          (request.selector.kind.segment ++ questionMark :: query)))))))))))

def baseUri (request : SelectionResourceRequest) : Except ControlError Bytes := do
  let uri ← request.toUri
  match splitOnceAt (ofAscii "&offset=") uri with
  | some (base, _) => .ok base
  | none => .error (.internal "selection URI did not contain a page range")

end SelectionResourceRequest

/-! ## Parsing -/

/-- What the parser of URLs says of a URL. -/
structure ParsedUrl where
  scheme : Bytes
  username : Bytes := []
  password : Option Bytes := none
  fragment : Option Bytes := none
  pathSegments : Option (List Bytes)
  query : Option Bytes

/-- `Url::parse` -/
abbrev UrlParser := Bytes → Option ParsedUrl

def invalidSelectionUri {α : Type} (message : String) : Except ControlError α :=
  .error (.invalidArgument message)

def decodeQueryValue (raw : Bytes) : Except ControlError Bytes :=
  if raw = [] then .ok []
  else
    match (FormUrlencoded.parse raw).head? with
    | none => invalidSelectionUri "selection resource query value is malformed"
    | some (value, _) =>
      if serializeComponent value ≠ raw then
        invalidSelectionUri "selection resource query value is not canonical"
      else .ok value

def parseCanonicalDecimal (raw : Bytes) (field : String) : Except ControlError UInt64 :=
  if raw = [] ∨ (raw.length > 1 ∧ raw.head? = some 0x30) ∨ raw.all isAsciiDigit = false then
    invalidSelectionUri ("selection resource " ++ field ++ " is not canonical")
  else if decimalValue raw ≤ wordMax then .ok (UInt64.ofNat (decimalValue raw))
  else invalidSelectionUri ("selection resource " ++ field ++ " is out of range")

/-- What the path of the URI says. -/
structure SelectionPath where
  runId : RunId
  captureId : UInt64
  captureRevision : UInt64
  side : BodySide
  kind : ExtractSelectorKind

def parseRunId (raw : Bytes) : Except ControlError RunId :=
  match RunId.fromStr raw with
  | some runId => .ok runId
  | none => invalidSelectionUri "selection resource run ID is invalid"

def parseSide (raw : Bytes) : Except ControlError BodySide :=
  if raw = ofAscii "request" then .ok .request
  else if raw = ofAscii "response" then .ok .response
  else invalidSelectionUri "selection resource side is invalid"

def parseKind (raw : Bytes) : Except ControlError ExtractSelectorKind :=
  if raw = ofAscii "json-pointer" then .ok .jsonPointer
  else if raw = ofAscii "form-field" then .ok .formField
  else invalidSelectionUri "selection resource selector kind is invalid"

def parsePath : List Bytes → Except ControlError SelectionPath
  | [runs, runId, captures, captureId, revisions, captureRevision, bodies, side, extract, kind] =>
    if [runs, captures, revisions, bodies, extract] ≠ [ofAscii "runs", ofAscii "captures",
        ofAscii "revisions", ofAscii "bodies", ofAscii "extract"] then
      invalidSelectionUri "selection resource path is not canonical"
    else do
      let runId ← parseRunId runId
      let captureId ← parseCanonicalDecimal captureId "capture ID"
      let captureRevision ← parseCanonicalDecimal captureRevision "capture revision"
      let side ← parseSide side
      let kind ← parseKind kind
      return { runId, captureId, captureRevision, side, kind }
  | _ => invalidSelectionUri "selection resource path is not canonical"

/-- What has been read of the query. -/
structure SelectionQuery where
  selectorValue : Option Bytes := none
  offset : Option UInt64 := none
  length : Option UInt64 := none
  stage : Nat := 0

/-- One turn of the loop over the pairs. -/
def SelectionQuery.addPair (selectorName : Bytes) (state : SelectionQuery) (pair : Bytes) :
    Except ControlError SelectionQuery :=
  match splitOnce equalsSign pair with
  | none => invalidSelectionUri "selection resource query is malformed"
  | some (name, rawValue) => do
      let value ← decodeQueryValue rawValue
      if name = selectorName ∧ state.selectorValue = none ∧ state.stage = 0 then
        .ok { state with selectorValue := some value, stage := 1 }
      else if name = ofAscii "offset" ∧ state.offset = none ∧ state.stage ≤ 1 then do
        let offset ← parseCanonicalDecimal value "offset"
        .ok { state with offset := some offset, stage := 2 }
      else if name = ofAscii "length" ∧ state.length = none ∧ state.stage ≤ 2 then do
        let length ← parseCanonicalDecimal value "length"
        .ok { state with length := some length, stage := 3 }
      else if name = selectorName ∨ name = ofAscii "offset" ∨ name = ofAscii "length" then
        invalidSelectionUri "selection resource query key is duplicated or out of order"
      else invalidSelectionUri "selection resource query key is unknown"

def parseQuery (kind : ExtractSelectorKind) (query : Option Bytes) :
    Except ControlError SelectionQuery :=
  match query.filter (· ≠ []) with
  | none => invalidSelectionUri "selection resource selector query is required"
  | some query => (query.splitOn ampersand).foldlM (SelectionQuery.addPair kind.name) {}

theorem JsonPointer.asStr_of_parse {raw : Text} {pointer : JsonPointer}
    (h : JsonPointer.parse raw = .ok pointer) : pointer.asStr = raw := by
  unfold JsonPointer.parse at h
  cases hvalid : validatePointerText raw false with
  | error error =>
    rw [hvalid] at h
    cases h
  | ok =>
    rw [hvalid] at h
    cases h
    rfl

theorem JsonPointer.parse_asStr {raw : Text} {pointer : JsonPointer}
    (h : JsonPointer.parse raw = .ok pointer) : JsonPointer.parse pointer.asStr = .ok pointer := by
  rw [asStr_of_parse h]
  exact h

def parseSelector (kind : ExtractSelectorKind) (value : Bytes) :
    Except ControlError ExtractSelector :=
  match kind with
  | .formField => .ok (.formField (decode value))
  | .jsonPointer =>
    match h : JsonPointer.parse (decode value) with
    | .error error => .error error
    | .ok pointer => .ok (.jsonPointer pointer (JsonPointer.parse_asStr h))

def requiredSelector (query : SelectionQuery) : Except ControlError Bytes :=
  match query.selectorValue with
  | some value => .ok value
  | none => invalidSelectionUri "selection resource selector query is required"

/-- The part of the parser behind the authority. -/
def parseRequest (proxyEndpoint : SocketAddr) (url : ParsedUrl) :
    Except ControlError SelectionResourceRequest :=
  match url.pathSegments with
  | none => invalidSelectionUri "selection resource path is malformed"
  | some segments => do
      let path ← parsePath segments
      let query ← parseQuery path.kind url.query
      let value ← requiredSelector query
      let selector ← parseSelector path.kind value
      let request : SelectionResourceRequest :=
        { proxyEndpoint
          runId := path.runId
          captureId := path.captureId
          captureRevision := path.captureRevision
          side := path.side
          selector
          offset := query.offset.getD 0
          length := query.length.getD (UInt64.ofNat defaultBodyPageLength) }
      request.contentRequest.validate
      return request

def isDotSegment (segment : Bytes) : Bool := segment = ofAscii "." || segment = ofAscii ".."

/-- The path of the URI as it is written. -/
def rawPath (pathAndQuery : Bytes) : Bytes :=
  match splitOnce questionMark pathAndQuery with
  | some (path, _) => path
  | none => pathAndQuery

def parseSelectionResourceUri (parseUrl : UrlParser) (raw : Bytes) :
    Except ControlError SelectionResourceRequest :=
  match (stripStart (ofAscii "fluxcope://") raw).bind (splitOnce slash) with
  | none => invalidSelectionUri "selection resource URI is malformed"
  | some (authority, pathAndQuery) =>
    if percent ∈ rawPath pathAndQuery ∨
        ((rawPath pathAndQuery).splitOn slash).any isDotSegment = true then
      invalidSelectionUri "selection resource path is not canonical"
    else
      match parseUrl raw with
      | none => invalidSelectionUri "selection resource URI is malformed"
      | some url =>
        if url.scheme ≠ ofAscii "fluxcope" ∨ url.username ≠ [] ∨ url.password.isSome = true ∨
            url.fragment.isSome = true then
          invalidSelectionUri "selection resource URI is not canonical"
        else
          match SocketAddr.parse authority with
          | none =>
            invalidSelectionUri
              "selection resource authority must be a canonical IP endpoint"
          | some proxyEndpoint =>
            if authority ≠ proxyEndpoint.toText then
              invalidSelectionUri "selection resource authority is not canonical"
            else parseRequest proxyEndpoint url

/-! ## Numbers, names and values in a URI -/

theorem parseCanonicalDecimal_decimal (n : UInt64) (field : String) :
    parseCanonicalDecimal (decimal n.toNat) field = .ok n := by
  have hcanonical := canonicalDecimal_decimal n.toNat
  have hle : n.toNat ≤ wordMax := by
    have hlt := n.toNat_lt
    unfold wordMax
    omega
  rw [parseCanonicalDecimal, if_neg, decimalValue_decimal, if_pos hle, UInt64.ofNat_toNat]
  rintro (hnil | ⟨hlength, hhead⟩ | hall)
  · exact hcanonical.ne_nil hnil
  · exact hcanonical.no_zero hlength hhead
  · rw [List.all_eq_true.2 hcanonical.all_digits] at hall
    cases hall

theorem serializeComponent_unchanged {text : Bytes}
    (h : ∀ byte ∈ text, byteSerializedUnchanged byte = true) : serializeComponent text = text := by
  induction text with
  | nil => rfl
  | cons byte text ih =>
    have hbyte := h byte List.mem_cons_self
    have hrest := ih fun b hb => h b (List.mem_cons_of_mem _ hb)
    rw [serializeComponent] at hrest
    rw [serializeComponent, List.flatMap_cons, hrest, FormUrlencoded.serializeByte, if_pos hbyte]
    rfl

theorem serializeComponent_decimal (n : Nat) : serializeComponent (decimal n) = decimal n := by
  refine serializeComponent_unchanged fun byte hbyte => ?_
  have hdigit := (canonicalDecimal_decimal n).all_digits byte hbyte
  unfold isAsciiDigit at hdigit
  simp [byteSerializedUnchanged, hdigit]

theorem decodeQueryValue_serializeComponent {value : Bytes} (h : Valid value) :
    decodeQueryValue (serializeComponent value) = .ok value := by
  unfold decodeQueryValue
  split
  · rename_i hnil
    rw [FormUrlencoded.serializeComponent_eq_nil_iff.1 hnil]
  · rename_i hne
    rw [FormUrlencoded.parse_last (FormUrlencoded.ampersand_notMem_serializeComponent value) hne,
      (FormUrlencoded.piece_of_no_equals
        (FormUrlencoded.equalsSign_notMem_serializeComponent value)).1,
      FormUrlencoded.decodeComponent_serializeComponent h]
    simp

theorem ExtractSelector.valid_value (selector : ExtractSelector) : Valid selector.value := by
  cases selector with
  | jsonPointer pointer parsed => exact valid_encode pointer.asStr
  | formField key => exact valid_encode key

theorem parseSelector_value (selector : ExtractSelector) :
    parseSelector selector.kind selector.value = .ok selector := by
  cases selector with
  | formField key =>
    show Except.ok (ExtractSelector.formField (decode (encode key))) = _
    rw [decode_encode]
  | jsonPointer pointer parsed =>
    simp only [parseSelector, ExtractSelector.kind, ExtractSelector.value]
    split
    · rename_i error herror
      rw [decode_encode, parsed] at herror
      cases herror
    · rename_i pointer' hpointer
      rw [decode_encode, parsed] at hpointer
      cases hpointer
      rfl

/-! ## The bytes of the path -/

/-- A segment that stands in a path as it is. -/
structure PlainSegment (segment : Bytes) : Prop where
  ne_nil : segment ≠ []
  symbols : ∀ byte ∈ segment, Base64Url.isSymbol byte = true

theorem PlainSegment.notMem {segment : Bytes} (h : PlainSegment segment) {byte : UInt8}
    (hbyte : Base64Url.isSymbol byte = false) : byte ∉ segment := by
  intro hmem
  rw [h.symbols byte hmem] at hbyte
  cases hbyte

theorem PlainSegment.not_dot {segment : Bytes} (h : PlainSegment segment) :
    isDotSegment segment = false := by
  have hdot : dot ∉ segment := h.notMem (by decide)
  have hnot : ofAscii "." ≠ segment ∧ ofAscii ".." ≠ segment := by
    constructor
    · rintro rfl
      exact hdot (by decide)
    · rintro rfl
      exact hdot (by decide)
  simp [isDotSegment, hnot.1.symm, hnot.2.symm]

theorem plainSegment_decimal (n : Nat) : PlainSegment (decimal n) where
  ne_nil := (canonicalDecimal_decimal n).ne_nil
  symbols byte hbyte := by
    have hdigit := (canonicalDecimal_decimal n).all_digits byte hbyte
    unfold isAsciiDigit at hdigit
    simp [Base64Url.isSymbol, hdigit]

theorem plainSegment_runId (runId : RunId) : PlainSegment runId.asStr where
  ne_nil := by
    intro hnil
    have hlength := runId.length_asStr
    rw [hnil] at hlength
    cases hlength
  symbols := runId.isSymbol_of_mem

theorem PlainSegment.of_all {segment : Bytes}
    (h : (!segment.isEmpty && segment.all Base64Url.isSymbol) = true) : PlainSegment segment := by
  rw [Bool.and_eq_true] at h
  refine ⟨?_, List.all_eq_true.1 h.2⟩
  rintro rfl
  cases h.1

/-- The slashes stand between the segments. -/
def pathText (segments : List Bytes) : Bytes := [slash].intercalate segments

theorem notMem_intercalate {separator byte : UInt8} (hne : byte ≠ separator) {pieces : List Bytes}
    (h : ∀ piece ∈ pieces, byte ∉ piece) : byte ∉ [separator].intercalate pieces := by
  induction pieces with
  | nil => exact List.not_mem_nil
  | cons piece pieces ih =>
    have hfirst := h piece List.mem_cons_self
    have hrest := ih fun piece hpiece => h piece (List.mem_cons_of_mem _ hpiece)
    cases pieces with
    | nil =>
      rw [List.intercalate_singleton]
      exact hfirst
    | cons next pieces =>
      rw [List.intercalate_cons_cons]
      simp [hfirst, hrest, hne]

theorem notMem_pathText {segments : List Bytes} (h : ∀ segment ∈ segments, PlainSegment segment)
    {byte : UInt8} (hslash : byte ≠ slash) (hbyte : Base64Url.isSymbol byte = false) :
    byte ∉ pathText segments :=
  notMem_intercalate hslash fun segment hsegment => (h segment hsegment).notMem hbyte

theorem splitOn_pathText {segments : List Bytes} (h : ∀ segment ∈ segments, PlainSegment segment)
    (hne : segments ≠ []) : (pathText segments).splitOn slash = segments :=
  List.splitOn_intercalate slash (fun segment hsegment => (h segment hsegment).notMem (by decide))
    hne

/-- The pieces of a list behind the first one each follow a separator. -/
theorem intercalate_cons (separator : UInt8) (piece : Bytes) (pieces : List Bytes) :
    [separator].intercalate (piece :: pieces) = piece ++ pieces.flatMap (separator :: ·) := by
  induction pieces generalizing piece with
  | nil => simp
  | cons next pieces ih =>
    rw [List.intercalate_cons_cons, ih next]
    simp

/-! ## The URI in its parts -/

/-- The URI with this endpoint, these segments and this query. -/
def uriWith (endpoint : SocketAddr) (segments : List Bytes) (query : Bytes) : Bytes :=
  ofAscii "fluxcope://" ++
    (endpoint.toText ++ slash :: (pathText segments ++ questionMark :: query))

theorem uriWith_append (endpoint : SocketAddr) (segments : List Bytes) (query rest : Bytes) :
    uriWith endpoint segments (query ++ rest) = uriWith endpoint segments query ++ rest := by
  simp [uriWith]

/-- The range in a query; either number may be left out. -/
structure RangeQuery where
  offset : Option UInt64 := none
  length : Option UInt64 := none

def RangeQuery.pieces (range : RangeQuery) : List Bytes :=
  (range.offset.map fun n => ofAscii "offset" ++ equalsSign :: decimal n.toNat).toList ++
    (range.length.map fun n => ofAscii "length" ++ equalsSign :: decimal n.toNat).toList

/-- What the range adds to a URI that has a selector. -/
def RangeQuery.toText (range : RangeQuery) : Bytes := range.pieces.flatMap (ampersand :: ·)

def SelectionPath.segments (path : SelectionPath) : List Bytes :=
  [ofAscii "runs", path.runId.asStr, ofAscii "captures", decimal path.captureId.toNat,
    ofAscii "revisions", decimal path.captureRevision.toNat, ofAscii "bodies",
    sideSegment path.side, ofAscii "extract", path.kind.segment]

theorem SelectionPath.segments_plain (path : SelectionPath) :
    ∀ segment ∈ path.segments, PlainSegment segment := by
  have hside : PlainSegment (sideSegment path.side) := by
    cases path.side <;> exact .of_all (by decide)
  have hkind : PlainSegment path.kind.segment := by
    cases path.kind <;> exact .of_all (by decide)
  intro segment hsegment
  simp only [segments, List.mem_cons, List.not_mem_nil, or_false] at hsegment
  rcases hsegment with
    rfl | rfl | rfl | rfl | rfl | rfl | rfl | rfl | rfl | rfl
  · exact .of_all (by decide)
  · exact plainSegment_runId path.runId
  · exact .of_all (by decide)
  · exact plainSegment_decimal _
  · exact .of_all (by decide)
  · exact plainSegment_decimal _
  · exact .of_all (by decide)
  · exact hside
  · exact .of_all (by decide)
  · exact hkind

namespace SelectionResourceRequest

def path (request : SelectionResourceRequest) : SelectionPath where
  runId := request.runId
  captureId := request.captureId
  captureRevision := request.captureRevision
  side := request.side
  kind := request.selector.kind

def segments (request : SelectionResourceRequest) : List Bytes := request.path.segments

/-- The pair of the selector. -/
def selectorPiece (request : SelectionResourceRequest) : Bytes :=
  request.selector.kind.name ++ equalsSign :: serializeComponent request.selector.value

def withRange (request : SelectionResourceRequest) (range : RangeQuery) :
    SelectionResourceRequest :=
  { request with
    offset := range.offset.getD 0
    length := range.length.getD (UInt64.ofNat defaultBodyPageLength) }

theorem segments_plain (request : SelectionResourceRequest) :
    ∀ segment ∈ request.segments, PlainSegment segment := request.path.segments_plain

theorem ampersand_notMem_selectorPiece (request : SelectionResourceRequest) :
    ampersand ∉ request.selectorPiece := by
  have hname : ampersand ∉ request.selector.kind.name := by
    cases request.selector.kind <;> decide
  have hvalue := FormUrlencoded.ampersand_notMem_serializeComponent request.selector.value
  simp only [selectorPiece, List.mem_append, List.mem_cons, not_or]
  exact ⟨hname, by decide, hvalue⟩

theorem toUri_eq {request : SelectionResourceRequest}
    (h : request.contentRequest.validate = .ok ()) :
    request.toUri = .ok (uriWith request.proxyEndpoint request.segments
      (request.selectorPiece ++
        RangeQuery.toText ⟨some request.offset, some request.length⟩)) := by
  have hname : ∀ kind : ExtractSelectorKind, serializeComponent kind.name = kind.name := by
    intro kind
    cases kind <;> decide
  have hoffset : serializeComponent (ofAscii "offset") = ofAscii "offset" := by decide
  have hlength : serializeComponent (ofAscii "length") = ofAscii "length" := by decide
  have hquery : FormUrlencoded.serialize
      [(request.selector.kind.name, request.selector.value),
        (ofAscii "offset", decimal request.offset.toNat),
        (ofAscii "length", decimal request.length.toNat)] =
      request.selectorPiece ++
        RangeQuery.toText ⟨some request.offset, some request.length⟩ := by
    rw [FormUrlencoded.serialize, List.map_cons, intercalate_cons]
    simp only [List.map_cons, List.map_nil, serializePair, hname, hoffset, hlength,
      serializeComponent_decimal]
    rfl
  have hruns : ofAscii "/runs/" = slash :: (ofAscii "runs" ++ [slash]) := by decide
  have hcaptures : ofAscii "/captures/" = slash :: (ofAscii "captures" ++ [slash]) := by decide
  have hrevisions : ofAscii "/revisions/" = slash :: (ofAscii "revisions" ++ [slash]) := by decide
  have hbodies : ofAscii "/bodies/" = slash :: (ofAscii "bodies" ++ [slash]) := by decide
  have hextract : ofAscii "/extract/" = slash :: (ofAscii "extract" ++ [slash]) := by decide
  rw [toUri, h]
  refine congrArg Except.ok ?_
  rw [hquery, hruns, hcaptures, hrevisions, hbodies, hextract]
  simp only [uriWith, pathText, segments, path, SelectionPath.segments, intercalate_cons,
    List.flatMap_cons, List.flatMap_nil, List.append_assoc, List.cons_append, List.nil_append]

theorem ampersand_notMem_uriWith (request : SelectionResourceRequest) :
    ampersand ∉ uriWith request.proxyEndpoint request.segments request.selectorPiece := by
  have hendpoint : ampersand ∉ request.proxyEndpoint.toText := by
    intro hmem
    exact absurd ((addressText_toText request.proxyEndpoint).bytes ampersand hmem) (by decide)
  have hpath : ampersand ∉ pathText request.segments :=
    notMem_pathText request.segments_plain (by decide) (by decide)
  have hscheme : ampersand ∉ ofAscii "fluxcope://" := by decide
  simp only [uriWith, List.mem_append, List.mem_cons, not_or]
  exact ⟨hscheme, hendpoint, by decide, hpath, by decide, request.ampersand_notMem_selectorPiece⟩

theorem baseUri_eq {request : SelectionResourceRequest}
    (h : request.contentRequest.validate = .ok ()) :
    request.baseUri =
      .ok (uriWith request.proxyEndpoint request.segments request.selectorPiece) := by
  have hrange : RangeQuery.toText ⟨some request.offset, some request.length⟩ =
      ampersand :: ofAscii "offset=" ++ (decimal request.offset.toNat ++
        ofAscii "&length=" ++ decimal request.length.toNat) := by
    have hoffset : ofAscii "offset=" = ofAscii "offset" ++ [equalsSign] := by decide
    have hlength : ofAscii "&length=" = ampersand :: (ofAscii "length" ++ [equalsSign]) := by decide
    rw [hoffset, hlength]
    simp [RangeQuery.toText, RangeQuery.pieces]
  have hpattern : ofAscii "&offset=" = ampersand :: ofAscii "offset=" := by decide
  rw [baseUri, toUri_eq h, uriWith_append, hrange, hpattern]
  show (match splitOnceAt _ _ with | some (base, _) => _ | none => _) = _
  rw [splitOnceAt_append request.ampersand_notMem_uriWith]

end SelectionResourceRequest

end Fluxcope.Control
