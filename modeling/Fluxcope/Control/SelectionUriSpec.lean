import Fluxcope.Control.SelectionUri
/-!
# Reading the URIs of selections

A request is read back from its URI and is the only one with that URI; the parser accepts what
the writer writes and no other spelling of it.
-/

namespace Fluxcope.Control

open Fluxcope.Library Fluxcope.Library.Utf8 Fluxcope.Library.Net Fluxcope.Capture Fluxcope.Instance
open Fluxcope.Library.FormUrlencoded (ampersand equalsSign serializeComponent isComponentByte)

/-! ## Reading the parts -/

theorem parseSide_segment (side : BodySide) : parseSide (sideSegment side) = .ok side := by
  cases side <;> rfl

theorem parseKind_segment (kind : ExtractSelectorKind) : parseKind kind.segment = .ok kind := by
  cases kind <;> rfl

theorem parsePath_segments (path : SelectionPath) : parsePath path.segments = .ok path := by
  rw [SelectionPath.segments, parsePath, if_neg (not_not_intro rfl), parseRunId,
    RunId.fromStr_asStr, parseCanonicalDecimal_decimal, parseCanonicalDecimal_decimal,
    parseSide_segment, parseKind_segment]
  rfl

namespace SelectionQuery

variable {kind : ExtractSelectorKind} {state : SelectionQuery}

theorem addPair_selector {value : Bytes} (hvalid : Valid value) (hnone : state.selectorValue = none)
    (hstage : state.stage = 0) :
    addPair kind.name state (kind.name ++ equalsSign :: serializeComponent value) =
      .ok { state with selectorValue := some value, stage := 1 } := by
  have hname : equalsSign ∉ kind.name := by cases kind <;> decide
  rw [addPair, splitOnce_append hname]
  dsimp only
  rw [decodeQueryValue_serializeComponent hvalid]
  exact if_pos ⟨rfl, hnone, hstage⟩

theorem valid_decimal (n : Nat) : Valid (decimal n) := by
  have hchar : ∀ byte, isAsciiDigit byte = true → IsChar [byte] := by
    intro byte hdigit
    have hrange := isAsciiDigit_iff.1 hdigit
    have hwidth : charWidth byte = 1 := if_pos (UInt8.lt_iff_toNat_lt.2 (by
      show byte.toNat < 0x80
      omega))
    obtain ⟨c, rest, hbyte, hlength, hc⟩ := front_eq_scalar (front_one.2 hwidth)
    have hone : [byte] = c := by
      have htake := congrArg (List.take c.length) hbyte
      rw [List.take_left, hlength] at htake
      exact htake
    exact hone ▸ hc
  refine ⟨(decimal n).map ([·]), ?_, by simp [← List.flatMap_def]⟩
  intro c hc
  obtain ⟨byte, hbyte, rfl⟩ := List.mem_map.1 hc
  exact hchar byte ((canonicalDecimal_decimal n).all_digits byte hbyte)

/-- The digits of a number are a value as they are. -/
theorem decodeQueryValue_decimal (n : UInt64) :
    decodeQueryValue (decimal n.toNat) = .ok (decimal n.toNat) := by
  have h := decodeQueryValue_serializeComponent (valid_decimal n.toNat)
  rwa [serializeComponent_decimal] at h

theorem addPair_offset (n : UInt64) (hnone : state.offset = none) (hstage : state.stage ≤ 1) :
    addPair kind.name state (ofAscii "offset" ++ equalsSign :: decimal n.toNat) =
      .ok { state with offset := some n, stage := 2 } := by
  have hother : ofAscii "offset" ≠ kind.name := by cases kind <;> decide
  rw [addPair, splitOnce_append (by decide)]
  dsimp only
  rw [decodeQueryValue_decimal]
  show (if _ then _ else _) = _
  rw [if_neg fun h => hother h.1, if_pos ⟨rfl, hnone, hstage⟩, parseCanonicalDecimal_decimal]
  rfl

theorem addPair_length (n : UInt64) (hnone : state.length = none) (hstage : state.stage ≤ 2) :
    addPair kind.name state (ofAscii "length" ++ equalsSign :: decimal n.toNat) =
      .ok { state with length := some n, stage := 3 } := by
  have hother : ofAscii "length" ≠ kind.name := by cases kind <;> decide
  have hoffset : ofAscii "length" ≠ ofAscii "offset" := by decide
  rw [addPair, splitOnce_append (by decide)]
  dsimp only
  rw [decodeQueryValue_decimal]
  show (if _ then _ else _) = _
  rw [if_neg fun h => hother h.1, if_neg fun h => hoffset h.1, if_pos ⟨rfl, hnone, hstage⟩,
    parseCanonicalDecimal_decimal]
  rfl

/-- The turns of the loop after the selector. -/
theorem foldlM_range (range : RangeQuery) (hoffset : state.offset = none)
    (hlength : state.length = none) (hstage : state.stage = 1) :
    ∃ stage, range.pieces.foldlM (addPair kind.name) state =
      .ok { state with offset := range.offset, length := range.length, stage } := by
  obtain ⟨selectorValue, offset, length, stage⟩ := state
  obtain rfl : offset = none := hoffset
  obtain rfl : length = none := hlength
  obtain rfl : stage = 1 := hstage
  obtain ⟨offset, length⟩ := range
  cases offset with
  | none =>
    cases length with
    | none => exact ⟨1, rfl⟩
    | some length =>
      have hpieces : RangeQuery.pieces ⟨none, some length⟩ =
          [ofAscii "length" ++ equalsSign :: decimal length.toNat] := rfl
      refine ⟨3, ?_⟩
      rw [hpieces, List.foldlM_cons, addPair_length length rfl (Nat.le_succ 1)]
      rfl
  | some offset =>
    cases length with
    | none =>
      have hpieces : RangeQuery.pieces ⟨some offset, none⟩ =
          [ofAscii "offset" ++ equalsSign :: decimal offset.toNat] := rfl
      refine ⟨2, ?_⟩
      rw [hpieces, List.foldlM_cons, addPair_offset offset rfl (Nat.le_refl 1)]
      rfl
    | some length =>
      have hpieces : RangeQuery.pieces ⟨some offset, some length⟩ =
          [ofAscii "offset" ++ equalsSign :: decimal offset.toNat,
            ofAscii "length" ++ equalsSign :: decimal length.toNat] := rfl
      refine ⟨3, ?_⟩
      rw [hpieces, List.foldlM_cons, addPair_offset offset rfl (Nat.le_refl 1)]
      show List.foldlM _ _ _ = _
      rw [List.foldlM_cons, addPair_length length rfl (Nat.le_refl 2)]
      rfl

end SelectionQuery

/-- The query of a selection with a range. -/
theorem splitOn_query (request : SelectionResourceRequest) (range : RangeQuery) :
    (request.selectorPiece ++ range.toText).splitOn ampersand =
      request.selectorPiece :: range.pieces := by
  have hnumber : ∀ n : UInt64, ampersand ∉ decimal n.toNat := fun n =>
    (plainSegment_decimal n.toNat).notMem (by decide)
  have hrange : ∀ piece ∈ range.pieces, ampersand ∉ piece := by
    intro piece hpiece
    simp only [RangeQuery.pieces, List.mem_append, Option.mem_toList, Option.map_eq_some_iff]
      at hpiece
    rcases hpiece with ⟨n, -, rfl⟩ | ⟨n, -, rfl⟩
    · simp only [List.mem_append, List.mem_cons, not_or]
      exact ⟨by decide, by decide, hnumber n⟩
    · simp only [List.mem_append, List.mem_cons, not_or]
      exact ⟨by decide, by decide, hnumber n⟩
  rw [RangeQuery.toText, ← intercalate_cons]
  refine List.splitOn_intercalate ampersand ?_ (List.cons_ne_nil _ _)
  intro piece hpiece
  rcases List.mem_cons.1 hpiece with rfl | hpiece
  · exact request.ampersand_notMem_selectorPiece
  · exact hrange piece hpiece

theorem parseQuery_selector (request : SelectionResourceRequest) (range : RangeQuery) :
    ∃ stage, parseQuery request.selector.kind (some (request.selectorPiece ++ range.toText)) =
      .ok { selectorValue := some request.selector.value
            offset := range.offset
            length := range.length
            stage } := by
  have hne : request.selectorPiece ++ range.toText ≠ [] := by
    simp [SelectionResourceRequest.selectorPiece]
  obtain ⟨stage, hrange⟩ := @SelectionQuery.foldlM_range request.selector.kind
    { selectorValue := some request.selector.value, stage := 1 } range rfl rfl rfl
  refine ⟨stage, ?_⟩
  rw [parseQuery, Option.filter_some_pos (by simpa only [decide_eq_true_eq] using hne)]
  show (List.splitOn _ _).foldlM _ _ = _
  rw [splitOn_query, List.foldlM_cons, SelectionResourceRequest.selectorPiece,
    SelectionQuery.addPair_selector request.selector.valid_value rfl rfl]
  exact hrange

/-- What the writer gives a request is read back, if the request passes validation. -/
theorem parseRequest_parts {request : SelectionResourceRequest} {range : RangeQuery}
    {url : ParsedUrl} (hpath : url.pathSegments = some request.segments)
    (hquery : url.query = some (request.selectorPiece ++ range.toText)) :
    parseRequest request.proxyEndpoint url =
      (request.withRange range).contentRequest.validate.map fun _ => request.withRange range := by
  obtain ⟨stage, hpairs⟩ := parseQuery_selector request range
  rw [parseRequest, hpath]
  show (do let path ← parsePath _; _) = _
  rw [SelectionResourceRequest.segments, parsePath_segments]
  show (do let query ← parseQuery request.selector.kind _; _) = _
  rw [hquery, hpairs]
  show (do let selector ← parseSelector request.selector.kind _; _) = _
  rw [parseSelector_value]
  show (do SelectionContentRequest.validate (request.withRange range).contentRequest; _) = _
  cases (request.withRange range).contentRequest.validate <;> rfl

/-! ## The round trip -/

/-- The address of an endpoint without a scope. -/
def Unscoped : SocketAddr → Prop
  | .v4 _ _ => True
  | .v6 _ _ scopeId => scopeId = 0

instance : DecidablePred Unscoped
  | .v4 _ _ => .isTrue trivial
  | .v6 _ _ scopeId => inferInstanceAs (Decidable (scopeId = 0))

/-- The bytes of pairs, and what stands between them. -/
def isQueryByte (byte : UInt8) : Bool :=
  isComponentByte byte || byte = ampersand || byte = equalsSign

/-- The parser of URLs keeps a path of plain segments and a query of pairs as they are. -/
structure UrlParser.Lawful (parseUrl : UrlParser) : Prop where
  plain : ∀ (endpoint : SocketAddr) (segments : List Bytes) (query : Bytes), Unscoped endpoint →
    segments ≠ [] → (∀ segment ∈ segments, PlainSegment segment) →
    (∀ byte ∈ query, isQueryByte byte = true) →
    parseUrl (uriWith endpoint segments query) =
      some { scheme := ofAscii "fluxcope", pathSegments := some segments, query := some query }

theorem slash_notMem_toText (endpoint : SocketAddr) : slash ∉ endpoint.toText := by
  intro hmem
  exact absurd ((addressText_toText endpoint).bytes slash hmem) (by decide)

theorem isQueryByte_of_mem {request : SelectionResourceRequest} {range : RangeQuery} :
    ∀ byte ∈ request.selectorPiece ++ range.toText, isQueryByte byte = true := by
  have hcomponent : ∀ text, ∀ byte ∈ serializeComponent text, isQueryByte byte = true := by
    intro text byte hbyte
    rw [isQueryByte, FormUrlencoded.isComponentByte_of_mem hbyte]
    rfl
  have hpair : ∀ name text : Bytes, name.all isQueryByte = true →
      ∀ byte ∈ name ++ equalsSign :: serializeComponent text, isQueryByte byte = true := by
    intro name text hname byte hbyte
    rcases List.mem_append.1 hbyte with hbyte | hbyte
    · exact List.all_eq_true.1 hname byte hbyte
    rcases List.mem_cons.1 hbyte with rfl | hbyte
    · decide
    · exact hcomponent text byte hbyte
  intro byte hbyte
  rcases List.mem_append.1 hbyte with hbyte | hbyte
  · have hname : request.selector.kind.name.all isQueryByte = true := by
      cases request.selector.kind <;> decide
    exact hpair _ _ hname byte hbyte
  · obtain ⟨piece, hpiece, hbyte⟩ := List.mem_flatMap.1 hbyte
    rcases List.mem_cons.1 hbyte with rfl | hbyte
    · decide
    simp only [RangeQuery.pieces, List.mem_append, Option.mem_toList, Option.map_eq_some_iff]
      at hpiece
    rcases hpiece with ⟨n, -, rfl⟩ | ⟨n, -, rfl⟩
    · rw [← serializeComponent_decimal] at hbyte
      exact hpair _ _ (by decide) byte hbyte
    · rw [← serializeComponent_decimal] at hbyte
      exact hpair _ _ (by decide) byte hbyte

theorem UrlParser.Lawful.uri {parseUrl : UrlParser} (h : parseUrl.Lawful)
    {request : SelectionResourceRequest} (hunscoped : Unscoped request.proxyEndpoint)
    (range : RangeQuery) :
    parseUrl (uriWith request.proxyEndpoint request.segments
        (request.selectorPiece ++ range.toText)) =
      some { scheme := ofAscii "fluxcope"
             pathSegments := some request.segments
             query := some (request.selectorPiece ++ range.toText) } :=
  h.plain request.proxyEndpoint request.segments _ hunscoped (List.cons_ne_nil _ _)
    request.segments_plain isQueryByte_of_mem

theorem parseSelectionResourceUri_uriWith {parseUrl : UrlParser}
    {request : SelectionResourceRequest} {range : RangeQuery}
    (hurl : parseUrl (uriWith request.proxyEndpoint request.segments
        (request.selectorPiece ++ range.toText)) =
      some { scheme := ofAscii "fluxcope"
             pathSegments := some request.segments
             query := some (request.selectorPiece ++ range.toText) }) :
    parseSelectionResourceUri parseUrl (uriWith request.proxyEndpoint request.segments
        (request.selectorPiece ++ range.toText)) =
      (request.withRange range).contentRequest.validate.map fun _ => request.withRange range := by
  have hplain := request.segments_plain
  have hne : request.segments ≠ [] := List.cons_ne_nil _ _
  have hraw : rawPath (pathText request.segments ++ questionMark ::
      (request.selectorPiece ++ range.toText)) = pathText request.segments := by
    rw [rawPath, splitOnce_append (notMem_pathText hplain (by decide) (by decide))]
  have hcanonical : ¬ (percent ∈ pathText request.segments ∨
      ((pathText request.segments).splitOn slash).any isDotSegment = true) := by
    rw [splitOn_pathText hplain hne, List.any_eq_true]
    rintro (hpercent | ⟨segment, hsegment, hdot⟩)
    · exact notMem_pathText hplain (by decide) (by decide) hpercent
    · rw [(hplain segment hsegment).not_dot] at hdot
      cases hdot
  have hsplit : (stripStart (ofAscii "fluxcope://") (uriWith request.proxyEndpoint request.segments
      (request.selectorPiece ++ range.toText))).bind (splitOnce slash) =
      some (request.proxyEndpoint.toText, pathText request.segments ++ questionMark ::
        (request.selectorPiece ++ range.toText)) := by
    rw [uriWith, stripStart_append, Option.bind_some,
      splitOnce_append (slash_notMem_toText request.proxyEndpoint)]
  rw [parseSelectionResourceUri, hsplit]
  dsimp only
  rw [hraw, if_neg hcanonical, hurl]
  dsimp only
  rw [if_neg (by simp), parse_toText]
  dsimp only
  rw [if_neg (not_not_intro rfl)]
  exact parseRequest_parts rfl rfl

theorem parseSelectionResourceUri_of_valid {parseUrl : UrlParser}
    {request : SelectionResourceRequest} {range : RangeQuery}
    (hurl : parseUrl (uriWith request.proxyEndpoint request.segments
        (request.selectorPiece ++ range.toText)) =
      some { scheme := ofAscii "fluxcope"
             pathSegments := some request.segments
             query := some (request.selectorPiece ++ range.toText) })
    (hvalid : (request.withRange range).contentRequest.validate = .ok ()) :
    parseSelectionResourceUri parseUrl (uriWith request.proxyEndpoint request.segments
      (request.selectorPiece ++ range.toText)) = .ok (request.withRange range) := by
  rw [parseSelectionResourceUri_uriWith hurl, hvalid]
  rfl

/-- A request is read back from its URI, and from its base with any valid range. -/
theorem selection_uri_round_trip {parseUrl : UrlParser} (hurl : parseUrl.Lawful)
    {request : SelectionResourceRequest} (hunscoped : Unscoped request.proxyEndpoint)
    (hvalid : request.contentRequest.validate = .ok ()) :
    (∃ uri, request.toUri = .ok uri ∧ parseSelectionResourceUri parseUrl uri = .ok request) ∧
      ∃ base, request.baseUri = .ok base ∧ ∀ range : RangeQuery,
        (request.withRange range).contentRequest.validate = .ok () →
          parseSelectionResourceUri parseUrl (base ++ range.toText) =
            .ok (request.withRange range) := by
  constructor
  · refine ⟨_, SelectionResourceRequest.toUri_eq hvalid, ?_⟩
    have hsame : request.withRange ⟨some request.offset, some request.length⟩ = request := rfl
    have hparsed := parseSelectionResourceUri_of_valid
      (hurl.uri hunscoped ⟨some request.offset, some request.length⟩) hvalid
    rw [hsame] at hparsed
    exact hparsed
  · refine ⟨_, SelectionResourceRequest.baseUri_eq hvalid, ?_⟩
    intro range hrange
    rw [← uriWith_append]
    exact parseSelectionResourceUri_of_valid (hurl.uri hunscoped range) hrange

/-- A parser for URLs of the scheme alone, with nothing to decode. -/
def splitUrl : UrlParser := fun raw => do
  let rest ← stripStart (ofAscii "fluxcope://") raw
  let (_, pathAndQuery) ← splitOnce slash rest
  let (path, query) ← splitOnce questionMark pathAndQuery
  some { scheme := ofAscii "fluxcope"
         pathSegments := some (path.splitOn slash)
         query := some query }

theorem splitUrl_uriWith (endpoint : SocketAddr) {segments : List Bytes} (query : Bytes)
    (hne : segments ≠ []) (hplain : ∀ segment ∈ segments, PlainSegment segment) :
    splitUrl (uriWith endpoint segments query) =
      some { scheme := ofAscii "fluxcope"
             pathSegments := some segments
             query := some query } := by
  have hmark : questionMark ∉ pathText segments :=
    notMem_pathText hplain (by decide) (by decide)
  rw [splitUrl, uriWith, stripStart_append, Option.bind_eq_bind, Option.bind_some,
    splitOnce_append (slash_notMem_toText endpoint), Option.bind_eq_bind, Option.bind_some]
  dsimp only
  rw [splitOnce_append hmark, Option.bind_some, splitOn_pathText hplain hne]

theorem splitUrl_lawful : UrlParser.Lawful splitUrl where
  plain endpoint _ query _ hne hplain _ := splitUrl_uriWith endpoint query hne hplain

def sampleRunId : RunId := .generate (List.replicate 16 0x5A) rfl

def sampleSelection : SelectionResourceRequest where
  proxyEndpoint := .v4 ⟨127, 0, 0, 1⟩ 8080
  runId := sampleRunId
  captureId := 7
  captureRevision := 3
  side := .response
  selector := .formField "naïve & key=100%".toList
  offset := 0
  length := 4096

/-- The next page of the same selection. -/
def sampleSelectionEnd : SelectionResourceRequest :=
  sampleSelection.withRange ⟨some 4096, some 4096⟩

theorem sampleSelection_round_trip :
    (∃ uri, sampleSelection.toUri = .ok uri ∧
      parseSelectionResourceUri splitUrl uri = .ok sampleSelection) ∧
      ∃ base, sampleSelection.baseUri = .ok base ∧ ∀ range : RangeQuery,
        (sampleSelection.withRange range).contentRequest.validate = .ok () →
          parseSelectionResourceUri splitUrl (base ++ range.toText) =
            .ok (sampleSelection.withRange range) :=
  selection_uri_round_trip splitUrl_lawful (by decide) (by decide)

/-- A request is read back from its URI.  Behind its base exactly the ranges are read with
which it passes validation, each as the same selection with this range. -/
theorem selection_uri_read_back {parseUrl : UrlParser} (hurl : parseUrl.Lawful)
    {request : SelectionResourceRequest} (hunscoped : Unscoped request.proxyEndpoint)
    (hvalid : request.contentRequest.validate = .ok ()) :
    (∃ uri, request.toUri = .ok uri ∧ parseSelectionResourceUri parseUrl uri = .ok request) ∧
      ∃ base, request.baseUri = .ok base ∧ ∀ (range : RangeQuery) read,
        parseSelectionResourceUri parseUrl (base ++ range.toText) = .ok read ↔
          read = request.withRange range ∧
            (request.withRange range).contentRequest.validate = .ok () := by
  have hsame : request.withRange ⟨some request.offset, some request.length⟩ = request := rfl
  refine ⟨⟨_, SelectionResourceRequest.toUri_eq hvalid, ?_⟩, _,
    SelectionResourceRequest.baseUri_eq hvalid, fun range read => ?_⟩
  · exact parseSelectionResourceUri_of_valid (hurl.uri hunscoped _) (hsame ▸ hvalid)
  · rw [← uriWith_append, parseSelectionResourceUri_uriWith (hurl.uri hunscoped range)]
    cases (request.withRange range).contentRequest.validate with
    | error error =>
      constructor
      · intro h
        cases h
      · rintro ⟨-, h⟩
        cases h
    | ok => exact ⟨fun h => ⟨(Except.ok.inj h).symm, rfl⟩, fun h => congrArg Except.ok h.1.symm⟩

theorem sampleSelection_read_back :
    ∃ base, sampleSelection.baseUri = .ok base ∧ ∀ (range : RangeQuery) read,
      parseSelectionResourceUri splitUrl (base ++ range.toText) = .ok read ↔
        read = sampleSelection.withRange range ∧
          (sampleSelection.withRange range).contentRequest.validate = .ok () :=
  (selection_uri_read_back splitUrl_lawful (by decide) (by decide)).2

example : sampleSelection.toUri.toOption =
    some (ofAscii "fluxcope://127.0.0.1:8080/runs/WlpaWlpaWlpaWlpaWlpaWg/captures/7/" ++
      ofAscii "revisions/3/bodies/response/extract/form-field" ++
      ofAscii "?key=na%C3%AFve+%26+key%3D100%25&offset=0&length=4096") := by
  decide +kernel

/-! ## What a URI determines -/

theorem SelectionContentRequest.validate_eq_ok_iff {request : SelectionContentRequest} :
    request.validate = .ok () ↔ request.selector.validate = .ok () ∧
      0 < request.length.toNat ∧ request.length.toNat ≤ maxBodyPageLength := by
  have hlength : ∀ content : BodyContentRequest, content.validate = .ok () ↔
      0 < content.length ∧ content.length ≤ maxBodyPageLength := by
    intro content
    unfold BodyContentRequest.validate
    split
    · simp_all
    split
    · constructor
      · nofun
      · omega
    · exact ⟨fun _ => by omega, fun _ => rfl⟩
  unfold SelectionContentRequest.validate
  cases hselector : request.selector.validate with
  | error error => exact ⟨nofun, fun h => nomatch h.1⟩
  | ok => exact (hlength _).trans ⟨fun h => ⟨rfl, h⟩, fun h => h.2⟩

theorem uriWith_injective {request request' : SelectionResourceRequest}
    (range range' : RangeQuery)
    (hvalid : (request.withRange range).contentRequest.validate = .ok ())
    (hvalid' : (request'.withRange range').contentRequest.validate = .ok ())
    (h : uriWith request.proxyEndpoint request.segments (request.selectorPiece ++ range.toText) =
      uriWith request'.proxyEndpoint request'.segments
        (request'.selectorPiece ++ range'.toText)) :
    request.withRange range = request'.withRange range' := by
  have hread : ∀ (request : SelectionResourceRequest) (query : Bytes),
      splitUrl (uriWith request.proxyEndpoint request.segments query) =
        some { scheme := ofAscii "fluxcope"
               pathSegments := some request.segments
               query := some query } :=
    fun request query => splitUrl_uriWith request.proxyEndpoint query (List.cons_ne_nil _ _)
      request.segments_plain
  have hparsed := parseSelectionResourceUri_of_valid (hread request _) hvalid
  have hparsed' := parseSelectionResourceUri_of_valid (hread request' _) hvalid'
  rw [h, hparsed'] at hparsed
  exact (Except.ok.inj hparsed).symm

/-- Requests with one URI are equal, and requests with one base differ in their ranges only. -/
theorem selection_uri_determines {request request' : SelectionResourceRequest}
    (hvalid : request.contentRequest.validate = .ok ())
    (hvalid' : request'.contentRequest.validate = .ok ()) :
    (request.toUri = request'.toUri ↔ request = request') ∧
      (request.baseUri = request'.baseUri ↔
        request'.withRange ⟨some request.offset, some request.length⟩ = request) := by
  constructor
  · constructor
    · intro h
      rw [SelectionResourceRequest.toUri_eq hvalid, SelectionResourceRequest.toUri_eq hvalid'] at h
      exact uriWith_injective ⟨some request.offset, some request.length⟩
        ⟨some request'.offset, some request'.length⟩ hvalid hvalid' (Except.ok.inj h)
    · rintro rfl
      rfl
  · rw [SelectionResourceRequest.baseUri_eq hvalid, SelectionResourceRequest.baseUri_eq hvalid']
    constructor
    · intro h
      have hbase := congrArg
        (· ++ RangeQuery.toText ⟨some request.offset, some request.length⟩) (Except.ok.inj h)
      simp only [← uriWith_append] at hbase
      refine (uriWith_injective ⟨some request.offset, some request.length⟩ _ hvalid ?_ hbase).symm
      have hlength := (SelectionContentRequest.validate_eq_ok_iff.1 hvalid).2
      exact SelectionContentRequest.validate_eq_ok_iff.2
        ⟨(SelectionContentRequest.validate_eq_ok_iff.1 hvalid').1, hlength⟩
    · intro h
      rw [← h]
      rfl

theorem sampleSelection_determines :
    (sampleSelection.toUri = sampleSelectionEnd.toUri ↔ sampleSelection = sampleSelectionEnd) ∧
      (sampleSelection.baseUri = sampleSelectionEnd.baseUri ↔
        sampleSelectionEnd.withRange ⟨some sampleSelection.offset, some sampleSelection.length⟩ =
          sampleSelection) :=
  selection_uri_determines (by decide) (by decide)

/-! ## What the parser accepts -/

theorem exists_of_bind_eq_ok {α β : Type} {x : Except ControlError α}
    {f : α → Except ControlError β} {b : β} (h : (x >>= f) = .ok b) :
    ∃ a, x = .ok a ∧ f a = .ok b := by
  cases x with
  | error error => cases h
  | ok a => exact ⟨a, rfl, h⟩

theorem splitOnce_eq_some {separator : UInt8} {text before after : Bytes}
    (h : splitOnce separator text = some (before, after)) :
    text = before ++ separator :: after := by
  by_cases hmem : separator ∈ text
  · obtain ⟨left, right, rfl, hleft⟩ := List.eq_append_cons_of_mem hmem
    rw [splitOnce_append hleft] at h
    cases h
    rfl
  · rw [splitOnce, if_neg hmem] at h
    cases h

theorem eq_append_of_stripStart {start text rest : Bytes} (h : stripStart start text = some rest) :
    text = start ++ rest := by
  unfold stripStart at h
  split at h
  · rename_i hstart
    obtain ⟨tail, rfl⟩ := List.isPrefixOf_iff_prefix.1 hstart
    rw [List.drop_left] at h
    cases h
    rfl
  · cases h

theorem eq_decimal_of_parseCanonicalDecimal {raw : Bytes} {field : String} {n : UInt64}
    (h : parseCanonicalDecimal raw field = .ok n) : raw = decimal n.toNat := by
  unfold parseCanonicalDecimal at h
  split at h
  · cases h
  rename_i hcanonical
  split at h
  · rename_i hle
    have hraw : CanonicalDecimal raw :=
      { ne_nil := fun hnil => hcanonical (.inl hnil)
        all_digits := by
          refine List.all_eq_true.1 ?_
          rw [← Bool.not_eq_false]
          exact fun hall => hcanonical (.inr (.inr hall))
        no_zero := fun hlength hhead => hcanonical (.inr (.inl ⟨hlength, hhead⟩)) }
    cases h
    rw [UInt64.toNat_ofNat_of_lt' (by
      show decimalValue raw < 2 ^ 64
      unfold wordMax at hle
      omega), hraw.decimal_decimalValue]
  · cases h

theorem serializeComponent_of_decodeQueryValue {raw value : Bytes}
    (h : decodeQueryValue raw = .ok value) : serializeComponent value = raw ∧ Valid value := by
  unfold decodeQueryValue at h
  split at h
  case isTrue hnil =>
    cases h
    rw [hnil]
    exact ⟨rfl, valid_nil⟩
  case isFalse =>
    split at h
    · cases h
    rename_i _ _ hhead
    split at h
    · cases h
    rename_i hcanonical
    cases h
    refine ⟨not_not.1 hcanonical, ?_⟩
    obtain ⟨piece, -, hpair⟩ := List.mem_map.1 (List.mem_of_mem_head? hhead)
    have hvalue : _ = value := congrArg Prod.fst hpair
    rw [← hvalue]
    exact valid_fromUtf8Lossy _

namespace SelectionQuery

/-- The pieces as the writer writes what was read. -/
def pieces (selectorName : Bytes) (state : SelectionQuery) : List Bytes :=
  (state.selectorValue.map fun value =>
      selectorName ++ equalsSign :: serializeComponent value).toList ++
    RangeQuery.pieces ⟨state.offset, state.length⟩

/-- What was read is in the order of the writer; the stage says what may follow. -/
structure InOrder (selectorName : Bytes) (read : List Bytes) (state : SelectionQuery) : Prop where
  pieces : state.pieces selectorName = read
  valid : ∀ value ∈ state.selectorValue, Valid value
  offset : state.stage ≤ 1 → state.offset = none
  length : state.stage ≤ 2 → state.length = none

theorem inOrder_start (selectorName : Bytes) : InOrder selectorName [] {} where
  pieces := rfl
  valid := nofun
  offset _ := rfl
  length _ := rfl

theorem InOrder.addPair {selectorName pair : Bytes} {read : List Bytes}
    {state state' : SelectionQuery} (horder : InOrder selectorName read state)
    (h : state.addPair selectorName pair = .ok state') :
    InOrder selectorName (read ++ [pair]) state' := by
  unfold SelectionQuery.addPair at h
  split at h
  · cases h
  rename_i name rawValue hsplit
  have hpair := splitOnce_eq_some hsplit
  obtain ⟨value, hvalue, hbranch⟩ := exists_of_bind_eq_ok h
  obtain ⟨hraw, hvalid⟩ := serializeComponent_of_decodeQueryValue hvalue
  split at hbranch
  -- the selector is the first, so there is no range yet
  · rename_i hselector
    obtain ⟨rfl, hnone, hstage⟩ := hselector
    have hoffset := horder.offset (by omega)
    have hlength := horder.length (by omega)
    cases hbranch
    refine ⟨?_, ?_, fun _ => hoffset, fun _ => hlength⟩
    · rw [← horder.pieces, SelectionQuery.pieces, SelectionQuery.pieces, hnone, hoffset, hlength,
        hpair, ← hraw]
      rfl
    · intro value' hvalue'
      cases hvalue'
      exact hvalid
  split at hbranch
  · rename_i hoffset
    obtain ⟨rfl, hnone, hstage⟩ := hoffset
    have hlength := horder.length (by omega)
    obtain ⟨n, hnumber, hstate⟩ := exists_of_bind_eq_ok hbranch
    cases hstate
    refine ⟨?_, horder.valid, by simp, fun _ => hlength⟩
    rw [← horder.pieces, SelectionQuery.pieces, SelectionQuery.pieces, hnone, hlength, hpair,
      ← hraw, eq_decimal_of_parseCanonicalDecimal hnumber, serializeComponent_decimal]
    simp [RangeQuery.pieces]
  split at hbranch
  · rename_i hlength
    obtain ⟨rfl, hnone, -⟩ := hlength
    obtain ⟨n, hnumber, hstate⟩ := exists_of_bind_eq_ok hbranch
    cases hstate
    refine ⟨?_, horder.valid, by simp, by simp⟩
    rw [← horder.pieces, SelectionQuery.pieces, SelectionQuery.pieces, hnone, hpair, ← hraw,
      eq_decimal_of_parseCanonicalDecimal hnumber, serializeComponent_decimal]
    simp [RangeQuery.pieces]
  split at hbranch
  · cases hbranch
  · cases hbranch

theorem InOrder.foldlM {selectorName : Bytes} {pairs read : List Bytes}
    {state state' : SelectionQuery} (horder : InOrder selectorName read state)
    (h : pairs.foldlM (SelectionQuery.addPair selectorName) state = .ok state') :
    InOrder selectorName (read ++ pairs) state' := by
  induction pairs generalizing read state with
  | nil =>
    cases h
    rw [List.append_nil]
    exact horder
  | cons pair pairs ih =>
    rw [List.foldlM_cons] at h
    obtain ⟨next, hstep, hpairs⟩ := exists_of_bind_eq_ok h
    have hrest := ih (horder.addPair hstep) hpairs
    rw [List.append_assoc] at hrest
    exact hrest

end SelectionQuery

theorem eq_query_of_parseQuery {kind : ExtractSelectorKind} {query : Option Bytes}
    {state : SelectionQuery} (h : parseQuery kind query = .ok state) :
    query = some ([ampersand].intercalate (state.pieces kind.name)) ∧
      ∀ value ∈ state.selectorValue, Valid value := by
  unfold parseQuery at h
  split at h
  · cases h
  rename_i text htext
  obtain ⟨hquery, -⟩ := Option.filter_eq_some_iff.1 htext
  have horder := (SelectionQuery.inOrder_start kind.name).foldlM h
  rw [List.nil_append] at horder
  refine ⟨?_, horder.valid⟩
  rw [horder.pieces, List.intercalate_splitOn, hquery]

theorem ExtractSelector.of_parseSelector {kind : ExtractSelectorKind} {value : Bytes}
    (hvalid : Valid value) {selector : ExtractSelector}
    (h : parseSelector kind value = .ok selector) :
    selector.kind = kind ∧ selector.value = value := by
  cases kind with
  | formField =>
    cases h
    exact ⟨rfl, encode_decode hvalid⟩
  | jsonPointer =>
    simp only [parseSelector] at h
    split at h
    · cases h
    rename_i pointer hpointer
    cases h
    have hsame : pointer.asStr = decode value := JsonPointer.asStr_of_parse hpointer
    exact ⟨rfl, by rw [ExtractSelector.value, hsame, encode_decode hvalid]⟩

theorem asStr_of_parseRunId {raw : Bytes} {runId : RunId} (h : parseRunId raw = .ok runId) :
    runId.asStr = raw := by
  unfold parseRunId at h
  split at h
  · rename_i hparsed
    cases h
    exact RunId.asStr_of_fromStr hparsed
  · cases h

theorem segment_of_parseSide {raw : Bytes} {side : BodySide} (h : parseSide raw = .ok side) :
    sideSegment side = raw := by
  unfold parseSide at h
  split at h
  · rename_i hraw
    cases h
    exact hraw.symm
  split at h
  · rename_i hraw
    cases h
    exact hraw.symm
  · cases h

theorem segment_of_parseKind {raw : Bytes} {kind : ExtractSelectorKind}
    (h : parseKind raw = .ok kind) : kind.segment = raw := by
  unfold parseKind at h
  split at h
  · rename_i hraw
    cases h
    exact hraw.symm
  split at h
  · rename_i hraw
    cases h
    exact hraw.symm
  · cases h

theorem eq_segments_of_parsePath {segments : List Bytes} {path : SelectionPath}
    (h : parsePath segments = .ok path) : segments = path.segments := by
  unfold parsePath at h
  split at h
  case h_2 => cases h
  rename_i runs runId captures captureId revisions captureRevision bodies side extract kind
  split at h
  · cases h
  rename_i hfixed
  obtain ⟨rfl, rfl, rfl, rfl, rfl⟩ : runs = ofAscii "runs" ∧ captures = ofAscii "captures" ∧
      revisions = ofAscii "revisions" ∧ bodies = ofAscii "bodies" ∧
      extract = ofAscii "extract" := by
    simpa using hfixed
  obtain ⟨runId', hrunId, h⟩ := exists_of_bind_eq_ok h
  obtain ⟨captureId', hcaptureId, h⟩ := exists_of_bind_eq_ok h
  obtain ⟨captureRevision', hrevision, h⟩ := exists_of_bind_eq_ok h
  obtain ⟨side', hside, h⟩ := exists_of_bind_eq_ok h
  obtain ⟨kind', hkind, h⟩ := exists_of_bind_eq_ok h
  cases h
  rw [SelectionPath.segments, asStr_of_parseRunId hrunId, segment_of_parseSide hside,
    segment_of_parseKind hkind, ← eq_decimal_of_parseCanonicalDecimal hcaptureId,
    ← eq_decimal_of_parseCanonicalDecimal hrevision]

/-- The URL has the segments and the query that the writer gives the request. -/
structure WrittenAs (request : SelectionResourceRequest) (range : RangeQuery) (url : ParsedUrl) :
    Prop where
  valid : request.contentRequest.validate = .ok ()
  withRange : request.withRange range = request
  path : url.pathSegments = some request.segments
  query : url.query = some (request.selectorPiece ++ range.toText)

theorem writtenAs_of_parseRequest {proxyEndpoint : SocketAddr} {url : ParsedUrl}
    {request : SelectionResourceRequest} (h : parseRequest proxyEndpoint url = .ok request) :
    request.proxyEndpoint = proxyEndpoint ∧ ∃ range, WrittenAs request range url := by
  unfold parseRequest at h
  split at h
  · cases h
  rename_i segments hsegments
  obtain ⟨path, hpath, h⟩ := exists_of_bind_eq_ok h
  obtain ⟨query, hquery, h⟩ := exists_of_bind_eq_ok h
  obtain ⟨value, hvalue, h⟩ := exists_of_bind_eq_ok h
  obtain ⟨selector, hselector, h⟩ := exists_of_bind_eq_ok h
  obtain ⟨⟨⟩, hvalidate, h⟩ := exists_of_bind_eq_ok h
  cases h
  obtain ⟨hread, hvalid⟩ := eq_query_of_parseQuery hquery
  have hsome : query.selectorValue = some value := by
    unfold requiredSelector at hvalue
    split at hvalue
    · rename_i heq
      cases hvalue
      exact heq
    · cases hvalue
  obtain ⟨hkind, rfl⟩ := ExtractSelector.of_parseSelector (hvalid value hsome) hselector
  refine ⟨rfl, ⟨query.offset, query.length⟩, hvalidate, rfl, ?_, ?_⟩
  · rw [hsegments, eq_segments_of_parsePath hpath, SelectionPath.segments, ← hkind]
    rfl
  · rw [hread, SelectionQuery.pieces, hsome, ← hkind]
    show some ([ampersand].intercalate (_ :: _)) = _
    rw [intercalate_cons]
    rfl

/-- A URI is accepted in its canonical spelling only. -/
theorem canonical_of_parse {parseUrl : UrlParser} {raw : Bytes}
    {request : SelectionResourceRequest}
    (h : parseSelectionResourceUri parseUrl raw = .ok request) :
    ∃ rest url range,
      raw = ofAscii "fluxcope://" ++ (request.proxyEndpoint.toText ++ slash :: rest) ∧
      parseUrl raw = some url ∧ url.scheme = ofAscii "fluxcope" ∧ WrittenAs request range url := by
  unfold parseSelectionResourceUri at h
  split at h
  · cases h
  rename_i authority pathAndQuery hsplit
  split at h
  · cases h
  split at h
  · cases h
  rename_i url hurl
  split at h
  · cases h
  rename_i hscheme
  split at h
  · cases h
  rename_i proxyEndpoint hendpoint
  split at h
  · cases h
  rename_i hauthority
  obtain ⟨rfl, range, hwritten⟩ := writtenAs_of_parseRequest h
  refine ⟨pathAndQuery, url, range, ?_, hurl, ?_, hwritten⟩
  · obtain ⟨remainder, hremainder, hfirst⟩ := Option.bind_eq_some_iff.1 hsplit
    rw [← not_not.1 hauthority, ← splitOnce_eq_some hfirst]
    exact eq_append_of_stripStart hremainder
  · exact not_not.1 fun hne => hscheme (.inl hne)

def sampleUri : Bytes :=
  uriWith sampleSelection.proxyEndpoint sampleSelection.segments
    (sampleSelection.selectorPiece ++ RangeQuery.toText ⟨some 0, some 4096⟩)

theorem sampleUri_canonical :
    ∃ rest url range, sampleUri =
        ofAscii "fluxcope://" ++ (sampleSelection.proxyEndpoint.toText ++ slash :: rest) ∧
      splitUrl sampleUri = some url ∧ url.scheme = ofAscii "fluxcope" ∧
        WrittenAs sampleSelection range url :=
  canonical_of_parse (@parseSelectionResourceUri_of_valid splitUrl sampleSelection
    ⟨some 0, some 4096⟩ (splitUrl_lawful.uri (by decide) _) (by decide))

/-- The length stands before the offset. -/
example : (parseSelectionResourceUri splitUrl
    (ofAscii "fluxcope://127.0.0.1:8080/runs/WlpaWlpaWlpaWlpaWlpaWg/captures/7/" ++
      ofAscii "revisions/3/bodies/response/extract/form-field?key=k&length=8&offset=0")
    ).toOption.isNone = true := by
  decide +kernel

end Fluxcope.Control
