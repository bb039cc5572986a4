import Fluxcope.Capture.DecodeContent
import Fluxcope.Capture.DecodeText
/-!
# What layered decoding yields

Each layer has its stream of bytes, and a limit cuts it.  A last layer that is cut is a
result, an intermediate one is an error, and how the body is cut into chunks makes no
difference.
-/

namespace Fluxcope.Capture

open Fluxcope.Library Fluxcope.Library.Utf8 Checked

/-! ## The streams of the layers -/

/-- All bytes that a decoder yields. -/
def Stream.output (stream : Stream) : Bytes := stream.pieces.flatten

/-- It yields more than `limit` bytes, or all that it has without an error. -/
def Stream.Usable (stream : Stream) (limit : Nat) : Prop :=
  stream.fails = false ∨ limit < stream.output.length

instance (stream : Stream) (limit : Nat) : Decidable (stream.Usable limit) :=
  inferInstanceAs (Decidable (_ ∨ _))

/-- The stream of a layer.  Raw deflate is tried when the body is no zlib stream. -/
def Codecs.stream (codecs : Codecs) (limit : Nat) (encoding current : Bytes) :
    Except DecodeContentError Stream :=
  if encoding = ofAscii "gzip" ∨ encoding = ofAscii "x-gzip" then .ok (codecs.gzip current)
  else if encoding = ofAscii "deflate" then
    if (codecs.zlib current).Usable limit then .ok (codecs.zlib current)
    else .ok (codecs.deflate current)
  else if encoding = ofAscii "br" then .ok (codecs.brotli current)
  else if encoding = ofAscii "zstd" then
    match codecs.zstd current with
    | some decoder => .ok decoder
    | none => .error (unsupportedEncoding encoding "malformed")
  else .error (unsupportedEncoding encoding "unsupported")

/-- The output of the layers, in the order they are decoded in.  An intermediate layer has to
end within the limit. -/
inductive TrueOutput (codecs : Codecs) (limit : Nat) : List Bytes → Bytes → Bytes → Prop
  | identity (body : Bytes) : TrueOutput codecs limit [] body body
  | last {encoding body : Bytes} {stream : Stream}
      (hstream : codecs.stream limit encoding body = .ok stream) (husable : stream.Usable limit) :
      TrueOutput codecs limit [encoding] body stream.output
  | inner {encoding body out : Bytes} {rest : List Bytes} {stream : Stream}
      (hstream : codecs.stream limit encoding body = .ok stream) (hends : stream.fails = false)
      (hfits : stream.output.length ≤ limit) (hrest : rest ≠ [])
      (hout : TrueOutput codecs limit rest stream.output out) :
      TrueOutput codecs limit (encoding :: rest) body out

/-- A layer that is not the last yields more than the limit. -/
inductive IntermediateOverflow (codecs : Codecs) (limit : Nat) : List Bytes → Bytes → Prop
  | here {encoding body : Bytes} {rest : List Bytes} {stream : Stream}
      (hstream : codecs.stream limit encoding body = .ok stream)
      (hlong : limit < stream.output.length) (hrest : rest ≠ []) :
      IntermediateOverflow codecs limit (encoding :: rest) body
  | later {encoding body : Bytes} {rest : List Bytes} {stream : Stream}
      (hstream : codecs.stream limit encoding body = .ok stream) (hends : stream.fails = false)
      (hfits : stream.output.length ≤ limit)
      (hrest : IntermediateOverflow codecs limit rest stream.output) :
      IntermediateOverflow codecs limit (encoding :: rest) body

/-! ## What one stream comes to -/

/-- A stage with the bytes of a stream, cut at the limit. -/
def cutStage (limit : Nat) (output : Bytes) : ContentDecodedStage :=
  { bytes := output.take limit, limited := limit < output.length }

variable {cancelled : Nat → Bool} {codecs : Codecs} {limit : Nat}

theorem contentCheck_computes :
    Computes cancelled .cancelled (contentCheck cancelled) (.ok ()) := .check

theorem readContentLoop_computes (fails : Bool) {pieces : List Bytes}
    (hpieces : ∀ piece ∈ pieces, piece ≠ []) {bytes : Bytes} (hbytes : bytes.length ≤ limit) :
    Computes cancelled .cancelled (readContentLoop cancelled limit fails pieces bytes)
      (.ok (if fails = false ∨ limit < (bytes ++ pieces.flatten).length then
          some (cutStage limit (bytes ++ pieces.flatten)) else none)) := by
  induction pieces generalizing bytes with
  | nil =>
    rw [List.flatten_nil, List.append_nil]
    refine contentCheck_computes.bind (contentCheck_computes.bind ?_)
    have hstage : cutStage limit bytes = { bytes, limited := false } := by
      unfold cutStage
      rw [List.take_of_length_le hbytes, decide_eq_false (Nat.not_lt.2 hbytes)]
    rw [hstage]
    cases fails with
    | true =>
      have hnot : ¬ (true = false ∨ limit < bytes.length) := by
        rintro (h | h)
        · cases h
        · omega
      rw [if_neg hnot]
      exact .pure _
    | false => exact .pure _
  | cons piece pieces ih =>
    refine contentCheck_computes.bind (contentCheck_computes.bind ?_)
    dsimp only
    by_cases hlong : piece.length > limit - bytes.length
    · have hmin : min piece.length (limit - bytes.length) = limit - bytes.length := by omega
      have hover : limit < (bytes ++ (piece :: pieces).flatten).length := by
        rw [List.length_append, List.flatten_cons, List.length_append]
        omega
      have hstage : cutStage limit (bytes ++ (piece :: pieces).flatten) =
          { bytes := bytes ++ piece.take (limit - bytes.length), limited := true } := by
        unfold cutStage
        rw [decide_eq_true hover, List.take_append, List.take_of_length_le hbytes,
          List.flatten_cons, List.take_append_of_le_length (Nat.le_of_lt hlong)]
      rw [hmin, if_pos hlong, if_pos (Or.inr hover : fails = false ∨ _), hstage]
      exact .pure _
    · have hmin : min piece.length (limit - bytes.length) = piece.length := by omega
      rw [if_neg hlong, hmin, List.take_length, List.flatten_cons, ← List.append_assoc]
      refine ih (fun p hp => hpieces p (List.mem_cons_of_mem _ hp)) ?_
      rw [List.length_append]
      omega

theorem readContentLimited_computes (stream : Stream) :
    Computes cancelled .cancelled (readContentLimited cancelled limit stream)
      (.ok (if stream.Usable limit then some (cutStage limit stream.output) else none)) := by
  have hloop := @readContentLoop_computes cancelled limit stream.fails _ stream.pieces_ne []
    (Nat.zero_le limit)
  rw [List.nil_append] at hloop
  exact hloop

/-! ## What the layers come to -/

/-- The value of a layer, when it is not cancelled. -/
def layerValue (codecs : Codecs) (limit : Nat) (encoding current : Bytes) :
    Except DecodeContentError ContentDecodedStage :=
  match codecs.stream limit encoding current with
  | .error error => .error error
  | .ok stream =>
    if stream.Usable limit then .ok (cutStage limit stream.output)
    else .error (unsupportedEncoding encoding "malformed")

/-- What a layer makes of a stream that has been read. -/
theorem layerEnd_computes {m : Checked DecodeContentError (Option ContentDecodedStage)}
    {stream : Stream} {encoding : Bytes}
    (hm : Computes cancelled .cancelled m
      (.ok (if stream.Usable limit then some (cutStage limit stream.output) else none))) :
    Computes cancelled .cancelled
      (m >>= fun decoded =>
        match decoded with
        | some stage => pure stage
        | none => throw (unsupportedEncoding encoding "malformed"))
      (if stream.Usable limit then .ok (cutStage limit stream.output)
        else .error (unsupportedEncoding encoding "malformed")) := by
  refine hm.bind ?_
  by_cases husable : stream.Usable limit
  · rw [if_pos husable, if_pos husable]
    exact .pure _
  · rw [if_neg husable, if_neg husable]
    exact .throw _

theorem decodeContentDeflate_computes (input : Bytes) {stream : Stream}
    (hstream : stream = if (codecs.zlib input).Usable limit then codecs.zlib input
      else codecs.deflate input) :
    Computes cancelled .cancelled (decodeContentDeflate cancelled codecs limit input)
      (.ok (if stream.Usable limit then some (cutStage limit stream.output) else none)) := by
  refine (readContentLimited_computes _).bind ?_
  by_cases husable : (codecs.zlib input).Usable limit
  · rw [if_pos husable] at hstream ⊢
    rw [hstream, if_pos husable]
    exact .pure _
  · rw [if_neg husable] at hstream ⊢
    rw [hstream]
    exact readContentLimited_computes _

theorem decodeLayer_computes (encoding current : Bytes) :
    Computes cancelled .cancelled (decodeLayer cancelled codecs limit encoding current)
      (layerValue codecs limit encoding current) := by
  unfold decodeLayer layerValue Codecs.stream
  by_cases hgzip : encoding = ofAscii "gzip" ∨ encoding = ofAscii "x-gzip"
  · rw [if_pos hgzip, if_pos hgzip]
    exact layerEnd_computes (readContentLimited_computes _)
  rw [if_neg hgzip, if_neg hgzip]
  by_cases hdeflate : encoding = ofAscii "deflate"
  · rw [if_pos hdeflate, if_pos hdeflate]
    by_cases husable : (codecs.zlib current).Usable limit
    · rw [if_pos husable]
      exact layerEnd_computes (decodeContentDeflate_computes current (if_pos husable).symm)
    · rw [if_neg husable]
      exact layerEnd_computes (decodeContentDeflate_computes current (if_neg husable).symm)
  rw [if_neg hdeflate, if_neg hdeflate]
  by_cases hbrotli : encoding = ofAscii "br"
  · rw [if_pos hbrotli, if_pos hbrotli]
    exact layerEnd_computes (readContentLimited_computes _)
  rw [if_neg hbrotli, if_neg hbrotli]
  by_cases hzstd : encoding = ofAscii "zstd"
  · rw [if_pos hzstd, if_pos hzstd]
    cases codecs.zstd current with
    | some decoder => exact layerEnd_computes (readContentLimited_computes _)
    | none => exact (Computes.pure none).bind (.throw _)
  rw [if_neg hzstd, if_neg hzstd]
  exact Computes.bind_error (.throw _)

/-- The value of the layers that are left, when they are not cancelled. -/
def layersValue (codecs : Codecs) (limit : Nat) :
    List Bytes → Bytes → Except DecodeContentError ContentDecodedStage
  | [], current => .ok { bytes := current, limited := false }
  | encoding :: rest, current =>
    match layerValue codecs limit encoding current with
    | .error error => .error error
    | .ok decoded =>
      if decoded.limited && rest ≠ [] then .error (.outputLimit limit)
      else if decoded.limited then .ok decoded
      else layersValue codecs limit rest decoded.bytes

theorem decodeLayers_computes (layers : List Bytes) (current : Bytes) :
    Computes cancelled .cancelled (decodeLayers cancelled codecs limit layers current)
      (layersValue codecs limit layers current) := by
  induction layers generalizing current with
  | nil => exact .pure _
  | cons encoding rest ih =>
    refine contentCheck_computes.bind ?_
    have hlayer := @decodeLayer_computes cancelled codecs limit encoding current
    unfold layersValue
    cases hvalue : layerValue codecs limit encoding current with
    | error error =>
      rw [hvalue] at hlayer
      exact hlayer.bind_error
    | ok decoded =>
      rw [hvalue] at hlayer
      refine hlayer.bind ?_
      dsimp only
      split
      · exact .throw _
      · split
        · exact .pure _
        · exact ih decoded.bytes

theorem flattenParts_computes {fuel : Nat} {chunk : Bytes} (hfuel : chunk.length ≤ fuel)
    (bytes : Bytes) :
    Computes cancelled .cancelled (flattenParts cancelled fuel chunk bytes)
      (.ok (bytes ++ chunk)) := by
  induction fuel generalizing chunk bytes with
  | zero =>
    rw [List.eq_nil_of_length_eq_zero (Nat.le_zero.1 hfuel), List.append_nil]
    exact .pure _
  | succ fuel ih =>
    rw [flattenParts]
    split
    case isTrue hempty =>
      rw [hempty, List.append_nil]
      exact .pure _
    case isFalse hne =>
      refine contentCheck_computes.bind ?_
      have hpos := List.length_pos_iff.2 hne
      have hparts := @ih (chunk.drop decodeCancellationCheckBytes)
        (by rw [List.length_drop]; unfold decodeCancellationCheckBytes; omega)
        (bytes ++ chunk.take decodeCancellationCheckBytes)
      rwa [List.append_assoc, List.take_append_drop] at hparts

theorem flattenChunks_computes (chunks : List Bytes) (bytes : Bytes) :
    Computes cancelled .cancelled (flattenChunks cancelled chunks bytes)
      (.ok (bytes ++ chunks.flatten)) := by
  induction chunks generalizing bytes with
  | nil =>
    rw [List.flatten_nil, List.append_nil]
    exact contentCheck_computes.bind (.pure _)
  | cons chunk chunks ih =>
    rw [List.flatten_cons, ← List.append_assoc]
    exact (flattenParts_computes (Nat.le_refl _) bytes).bind (ih _)

theorem validatePieces_error {checkBytes : Nat} {bytes : Bytes} {fuel check start : Nat}
    {error : DecodeContentError}
    (h : validatePieces checkBytes cancelled bytes fuel check start = .error error) :
    error = .cancelled ∧ ∃ k, cancelled k = true := by
  have hcheck : ∀ {n : Nat} {α : Type} {f : Unit → Except DecodeContentError α},
      (checkContentCancelled cancelled n >>= f) = .error error →
        (error = .cancelled ∧ ∃ k, cancelled k = true) ∨ f () = .error error := by
    intro n α f hbind
    unfold checkContentCancelled at hbind
    by_cases hcancelled : cancelled n = true
    · rw [if_pos hcancelled] at hbind
      cases hbind
      exact .inl ⟨rfl, n, hcancelled⟩
    · rw [if_neg hcancelled] at hbind
      exact .inr hbind
  induction fuel generalizing check start with
  | zero =>
    rcases hcheck h with hdone | hdone
    · exact hdone
    · cases hdone
  | succ fuel ih =>
    rcases hcheck h with hdone | hdone
    · exact hdone
    · dsimp only at hdone
      split at hdone
      · split at hdone
        · cases hdone
        · exact ih hdone
      · cases hdone

theorem finish_computes (bytes : Bytes) (encodingChain : List Bytes) (outputLimited : Bool) :
    Computes cancelled .cancelled
      (fun check => (DecodedBytes.finish (fun k => cancelled (check + k)) bytes encodingChain
        outputLimited).map (·, check))
      (.ok (.withUtf8Validity bytes encodingChain outputLimited)) := by
  intro check
  unfold outcome DecodedBytes.finish
  dsimp only
  split
  case h_1 error herror =>
    obtain ⟨rfl, k, hk⟩ := validatePieces_error herror
    exact .inr ⟨rfl, check + k, hk⟩
  case h_2 valid hvalid =>
    refine .inl ?_
    have hsame := validateUtf8Cancellable_eq hvalid
    subst hsame
    rfl

/-! ## What the layers yield -/

/-- The value of the decoding, when it is not cancelled. -/
def contentValue (codecs : Codecs) (limit : Nat) (encodings : List Bytes) (body : Bytes) :
    Except DecodeContentError DecodedBytes :=
  if encodings.length > maxContentEncodingLayers then
    .error (.tooManyLayers encodings.length maxContentEncodingLayers)
  else
    (layersValue codecs limit encodings.reverse body).map fun decoded =>
      let stage := if encodings = [] then cutStage limit decoded.bytes else decoded
      .withUtf8Validity stage.bytes (encodings.map normalizedEncoding) stage.limited

/-- A body without layers is cut like a stage. -/
theorem cutIdentity {encodings : List Bytes} {body : Bytes} {decoded : ContentDecodedStage}
    (h : layersValue codecs limit encodings.reverse body = .ok decoded) :
    (if encodings = [] ∧ decoded.bytes.length > limit then
        { bytes := decoded.bytes.take limit, limited := true }
      else decoded) = if encodings = [] then cutStage limit decoded.bytes else decoded := by
  by_cases hempty : encodings = []
  · subst hempty
    obtain rfl := Except.ok.inj h
    unfold cutStage
    by_cases hlong : body.length > limit
    · rw [if_pos ⟨rfl, hlong⟩, if_pos rfl, decide_eq_true hlong]
    · rw [if_neg fun hboth => hlong hboth.2, if_pos rfl, decide_eq_false hlong,
        List.take_of_length_le (Nat.le_of_not_lt hlong)]
  · rw [if_neg fun hboth => hempty hboth.1, if_neg hempty]

theorem decodeContentBytes_computes (chunks : List Bytes) (headers : HeaderFields) :
    Computes cancelled .cancelled (decodeContentBytes cancelled codecs limit chunks headers)
      (contentValue codecs limit (contentEncodings headers) chunks.flatten) := by
  refine contentCheck_computes.bind ?_
  unfold contentValue
  dsimp only
  split
  case isTrue hmany => exact Computes.bind_error (.throw _)
  case isFalse hfew =>
    refine (flattenChunks_computes chunks []).bind ?_
    have hlayers := @decodeLayers_computes cancelled codecs limit
      (contentEncodings headers).reverse ([] ++ chunks.flatten)
    rw [List.nil_append] at hlayers ⊢
    cases hvalue : layersValue codecs limit (contentEncodings headers).reverse chunks.flatten with
    | error error =>
      rw [hvalue] at hlayers
      exact hlayers.bind_error
    | ok decoded =>
      rw [hvalue] at hlayers
      refine hlayers.bind ?_
      rw [cutIdentity hvalue]
      exact finish_computes _ _ _

theorem layersValue_of_stream {encoding body : Bytes} {rest : List Bytes} {stream : Stream}
    (hstream : codecs.stream limit encoding body = .ok stream) :
    layersValue codecs limit (encoding :: rest) body =
      if limit < stream.output.length then
        if rest = [] then .ok (cutStage limit stream.output) else .error (.outputLimit limit)
      else if stream.fails then .error (unsupportedEncoding encoding "malformed")
      else layersValue codecs limit rest stream.output := by
  rw [layersValue, layerValue, hstream]
  dsimp only
  by_cases hlong : limit < stream.output.length
  · have husable : stream.Usable limit := .inr hlong
    have hlimited : (cutStage limit stream.output).limited = true := decide_eq_true hlong
    rw [if_pos husable, if_pos hlong]
    dsimp only
    rw [hlimited]
    by_cases hrest : rest = []
    · subst hrest
      rfl
    · rw [if_pos (by simpa using hrest), if_neg hrest]
  · have hlimited : (cutStage limit stream.output).limited = false := decide_eq_false hlong
    rw [if_neg hlong]
    by_cases hfails : stream.fails = true
    · have hnot : ¬ stream.Usable limit := by
        rintro (h | h)
        · rw [hfails] at h
          cases h
        · exact hlong h
      rw [if_neg hnot, if_pos hfails]
    · have husable : stream.Usable limit := .inl ((Bool.not_eq_true _).mp hfails)
      rw [if_pos husable, if_neg hfails]
      dsimp only
      rw [hlimited]
      have htake : (cutStage limit stream.output).bytes = stream.output :=
        List.take_of_length_le (Nat.le_of_not_lt hlong)
      rw [htake]
      rfl

theorem layersValue_of_error {encoding body : Bytes} {rest : List Bytes}
    {error : DecodeContentError} (hstream : codecs.stream limit encoding body = .error error) :
    layersValue codecs limit (encoding :: rest) body = .error error := by
  rw [layersValue, layerValue, hstream]

/-- A layer that has no stream is not one of overflow. -/
theorem stream_error {encoding body : Bytes} {error : DecodeContentError}
    (h : codecs.stream limit encoding body = .error error) : ∃ name reason,
      error = .unsupported name reason := by
  unfold Codecs.stream at h
  split at h
  · cases h
  split at h
  · split at h
    · cases h
    · cases h
  split at h
  · cases h
  split at h
  · split at h
    · cases h
    · cases h
      exact ⟨_, _, rfl⟩
  · cases h
    exact ⟨_, _, rfl⟩

theorem trueOutput_of_stream {encoding body out : Bytes} {rest : List Bytes} {stream : Stream}
    (hstream : codecs.stream limit encoding body = .ok stream) :
    TrueOutput codecs limit (encoding :: rest) body out ↔
      (rest = [] ∧ stream.Usable limit ∧ out = stream.output) ∨
        (rest ≠ [] ∧ stream.fails = false ∧ stream.output.length ≤ limit ∧
          TrueOutput codecs limit rest stream.output out) := by
  constructor
  · intro h
    cases h with
    | last hstream' husable =>
      obtain rfl := Except.ok.inj (hstream.symm.trans hstream')
      exact .inl ⟨rfl, husable, rfl⟩
    | inner hstream' hends hfits hrest hout =>
      obtain rfl := Except.ok.inj (hstream.symm.trans hstream')
      exact .inr ⟨hrest, hends, hfits, hout⟩
  · rintro (⟨rfl, husable, rfl⟩ | ⟨hrest, hends, hfits, hout⟩)
    · exact .last hstream husable
    · exact .inner hstream hends hfits hrest hout

theorem intermediateOverflow_of_stream {encoding body : Bytes} {rest : List Bytes}
    {stream : Stream} (hstream : codecs.stream limit encoding body = .ok stream) :
    IntermediateOverflow codecs limit (encoding :: rest) body ↔
      (rest ≠ [] ∧ limit < stream.output.length) ∨
        (stream.fails = false ∧ stream.output.length ≤ limit ∧
          IntermediateOverflow codecs limit rest stream.output) := by
  constructor
  · intro h
    cases h with
    | here hstream' hlong hrest =>
      obtain rfl := Except.ok.inj (hstream.symm.trans hstream')
      exact .inl ⟨hrest, hlong⟩
    | later hstream' hends hfits hrest =>
      obtain rfl := Except.ok.inj (hstream.symm.trans hstream')
      exact .inr ⟨hends, hfits, hrest⟩
  · rintro (⟨hrest, hlong⟩ | ⟨hends, hfits, hrest⟩)
    · exact .here hstream hlong hrest
    · exact .later hstream hends hfits hrest

theorem no_output_of_error {encoding body : Bytes} {rest : List Bytes}
    {error : DecodeContentError} (hstream : codecs.stream limit encoding body = .error error) :
    (∀ out, ¬ TrueOutput codecs limit (encoding :: rest) body out) ∧
      ¬ IntermediateOverflow codecs limit (encoding :: rest) body := by
  constructor
  · intro out h
    cases h with
    | last hstream' => cases hstream.symm.trans hstream'
    | inner hstream' => cases hstream.symm.trans hstream'
  · intro h
    cases h with
    | here hstream' => cases hstream.symm.trans hstream'
    | later hstream' => cases hstream.symm.trans hstream'

theorem layersValue_ok_iff {layers : List Bytes} (hlayers : layers ≠ []) {body : Bytes}
    {stage : ContentDecodedStage} :
    layersValue codecs limit layers body = .ok stage ↔
      ∃ out, TrueOutput codecs limit layers body out ∧ stage = cutStage limit out := by
  induction layers generalizing body with
  | nil => exact absurd rfl hlayers
  | cons encoding rest ih =>
    cases hstream : codecs.stream limit encoding body with
    | error error =>
      rw [layersValue_of_error hstream]
      exact ⟨fun h => (by cases h),
        fun ⟨out, hout, _⟩ => absurd hout ((no_output_of_error hstream).1 out)⟩
    | ok stream =>
      rw [layersValue_of_stream hstream]
      simp only [trueOutput_of_stream hstream]
      by_cases hlong : limit < stream.output.length
      · rw [if_pos hlong]
        by_cases hrest : rest = []
        · rw [if_pos hrest]
          constructor
          · intro h
            exact ⟨_, .inl ⟨hrest, .inr hlong, rfl⟩, (Except.ok.inj h).symm⟩
          · rintro ⟨out, ⟨-, -, rfl⟩ | ⟨hne, -⟩, rfl⟩
            · rfl
            · exact absurd hrest hne
        · rw [if_neg hrest]
          constructor
          · intro h
            cases h
          · rintro ⟨out, ⟨hempty, -⟩ | ⟨-, -, hfits, -⟩, -⟩
            · exact absurd hempty hrest
            · exact absurd hlong (Nat.not_lt.2 hfits)
      · rw [if_neg hlong]
        cases hfails : stream.fails with
        | true =>
          rw [if_pos rfl]
          constructor
          · intro h
            cases h
          · rintro ⟨out, ⟨-, husable, -⟩ | ⟨-, hends, -⟩, -⟩
            · rcases husable with hends | hlong'
              · cases hfails.symm.trans hends
              · exact absurd hlong' hlong
            · cases hends
        | false =>
          rw [if_neg Bool.false_ne_true]
          by_cases hrest : rest = []
          · subst hrest
            have hstage : cutStage limit stream.output = ⟨stream.output, false⟩ := by
              unfold cutStage
              rw [decide_eq_false hlong, List.take_of_length_le (Nat.le_of_not_lt hlong)]
            constructor
            · intro h
              exact ⟨_, .inl ⟨rfl, .inl hfails, rfl⟩, (Except.ok.inj h).symm.trans hstage.symm⟩
            · rintro ⟨out, ⟨-, -, rfl⟩ | ⟨hne, -⟩, rfl⟩
              · rw [hstage]
                rfl
              · exact absurd rfl hne
          · rw [ih hrest]
            constructor
            · rintro ⟨out, hout, hstage⟩
              exact ⟨out, .inr ⟨hrest, rfl, Nat.le_of_not_lt hlong, hout⟩, hstage⟩
            · rintro ⟨out, ⟨hempty, -⟩ | ⟨-, -, -, hout⟩, hstage⟩
              · exact absurd hempty hrest
              · exact ⟨out, hout, hstage⟩

theorem layersValue_overflow_iff {layers : List Bytes} {body : Bytes} :
    layersValue codecs limit layers body = .error (.outputLimit limit) ↔
      IntermediateOverflow codecs limit layers body := by
  induction layers generalizing body with
  | nil => exact ⟨fun h => (by cases h), fun h => (by cases h)⟩
  | cons encoding rest ih =>
    cases hstream : codecs.stream limit encoding body with
    | error error =>
      obtain ⟨name, reason, rfl⟩ := stream_error hstream
      rw [layersValue_of_error hstream]
      exact ⟨fun h => (by cases h), fun h => absurd h (no_output_of_error hstream).2⟩
    | ok stream =>
      rw [layersValue_of_stream hstream, intermediateOverflow_of_stream hstream]
      by_cases hlong : limit < stream.output.length
      · rw [if_pos hlong]
        by_cases hrest : rest = []
        · rw [if_pos hrest]
          constructor
          · intro h
            cases h
          · rintro (⟨hne, -⟩ | ⟨-, hfits, -⟩)
            · exact absurd hrest hne
            · exact absurd hlong (Nat.not_lt.2 hfits)
        · rw [if_neg hrest]
          exact ⟨fun _ => .inl ⟨hrest, hlong⟩, fun _ => rfl⟩
      · rw [if_neg hlong]
        cases hfails : stream.fails with
        | true =>
          rw [if_pos rfl]
          constructor
          · intro h
            cases h
          · rintro (⟨-, hlong'⟩ | ⟨hends, -⟩)
            · exact absurd hlong' hlong
            · cases hends
        | false =>
          rw [if_neg Bool.false_ne_true, ih]
          constructor
          · intro h
            exact .inr ⟨rfl, Nat.le_of_not_lt hlong, h⟩
          · rintro (⟨-, hlong'⟩ | ⟨-, -, h⟩)
            · exact absurd hlong' hlong
            · exact h

/-! ## The result -/

/-- How the decoding ends for a body in one chunk, when it is not cancelled. -/
def decodedContent (codecs : Codecs) (limit : Nat) (headers : HeaderFields) (body : Bytes) :
    Except DecodeContentError DecodedBytes :=
  (decodeContentBytes (fun _ => false) codecs limit [body] headers).outcome 0

theorem decodedContent_eq (headers : HeaderFields) (body : Bytes) :
    decodedContent codecs limit headers body =
      contentValue codecs limit (contentEncodings headers) body := by
  have hvalue := (@decodeContentBytes_computes (fun _ => false) codecs limit [body] headers)
  rw [List.flatten_singleton] at hvalue
  exact hvalue.uncancelled (fun _ => rfl) 0

theorem contentValue_ok_iff {encodings : List Bytes} {body : Bytes} {decoded : DecodedBytes} :
    contentValue codecs limit encodings body = .ok decoded ↔
      encodings.length ≤ maxContentEncodingLayers ∧
        ∃ out, TrueOutput codecs limit encodings.reverse body out ∧
          decoded = .withUtf8Validity (out.take limit) (encodings.map normalizedEncoding)
            (limit < out.length) := by
  unfold contentValue
  by_cases hmany : encodings.length > maxContentEncodingLayers
  · rw [if_pos hmany]
    exact ⟨fun h => (by cases h), fun h => absurd h.1 (Nat.not_le.2 hmany)⟩
  · rw [if_neg hmany]
    have hfew : encodings.length ≤ maxContentEncodingLayers := Nat.le_of_not_lt hmany
    by_cases hempty : encodings = []
    · subst hempty
      constructor
      · intro h
        exact ⟨hfew, body, .identity body, (Except.ok.inj h).symm⟩
      · rintro ⟨-, out, hout, rfl⟩
        cases hout
        rfl
    · have hreverse : encodings.reverse ≠ [] := fun h => hempty (List.reverse_eq_nil_iff.1 h)
      constructor
      · intro h
        cases hvalue : layersValue codecs limit encodings.reverse body with
        | error error =>
          rw [hvalue] at h
          cases h
        | ok stage =>
          rw [hvalue] at h
          obtain ⟨out, hout, rfl⟩ := (layersValue_ok_iff hreverse).1 hvalue
          refine ⟨hfew, out, hout, ?_⟩
          rw [← Except.ok.inj h]
          dsimp only
          rw [if_neg hempty]
          rfl
      · rintro ⟨-, out, hout, rfl⟩
        rw [(layersValue_ok_iff hreverse).2 ⟨out, hout, rfl⟩]
        dsimp only [Except.map]
        rw [if_neg hempty]
        rfl

theorem contentValue_overflow_iff {encodings : List Bytes} {body : Bytes} :
    contentValue codecs limit encodings body = .error (.outputLimit limit) ↔
      encodings.length ≤ maxContentEncodingLayers ∧
        IntermediateOverflow codecs limit encodings.reverse body := by
  unfold contentValue
  by_cases hmany : encodings.length > maxContentEncodingLayers
  · rw [if_pos hmany]
    exact ⟨fun h => (by cases h), fun h => absurd h.1 (Nat.not_le.2 hmany)⟩
  · rw [if_neg hmany, ← layersValue_overflow_iff]
    cases layersValue codecs limit encodings.reverse body with
    | error error =>
      dsimp only [Except.map]
      rw [Except.error.injEq, Except.error.injEq]
      exact ⟨fun h => ⟨Nat.le_of_not_lt hmany, h⟩, fun h => h.2⟩
    | ok stage => exact ⟨fun h => (by cases h), fun h => (by cases h.2)⟩

theorem layersValue_ne_tooMany {layers : List Bytes} {body : Bytes} {n m : Nat} :
    layersValue codecs limit layers body ≠ .error (.tooManyLayers n m) := by
  induction layers generalizing body with
  | nil => exact fun h => (by cases h)
  | cons encoding rest ih =>
    intro h
    cases hstream : codecs.stream limit encoding body with
    | error error =>
      obtain ⟨name, reason, rfl⟩ := stream_error hstream
      rw [layersValue_of_error hstream] at h
      cases h
    | ok stream =>
      rw [layersValue_of_stream hstream] at h
      split at h
      · split at h <;> cases h
      · split at h
        · cases h
        · exact ih h

theorem contentValue_tooMany_iff {encodings : List Bytes} {body : Bytes} :
    contentValue codecs limit encodings body =
        .error (.tooManyLayers encodings.length maxContentEncodingLayers) ↔
      maxContentEncodingLayers < encodings.length := by
  unfold contentValue
  by_cases hmany : encodings.length > maxContentEncodingLayers
  · rw [if_pos hmany]
    exact ⟨fun _ => hmany, fun _ => rfl⟩
  · rw [if_neg hmany]
    refine ⟨fun h => ?_, fun h => absurd h hmany⟩
    cases hvalue : layersValue codecs limit encodings.reverse body with
    | error error =>
      rw [hvalue] at h
      exact absurd (hvalue.trans (by rw [Except.error.inj h])) layersValue_ne_tooMany
    | ok stage =>
      rw [hvalue] at h
      cases h

/-- The body is decoded layer by layer from the last of the headers to the first.  The result
is the output of the layers up to the limit, with the answer whether there was more; an
intermediate layer that yields more is an error, and so are too many layers.  The chunks of
the body make no difference, and a cancellation only ends the decoding. -/
theorem decodeContentBytes_layered (codecs : Codecs) (limit : Nat) (headers : HeaderFields)
    (chunks : List Bytes) (cancelled : Nat → Bool) :
    let encodings := contentEncodings headers
    let result := decodedContent codecs limit headers chunks.flatten
    Computes cancelled .cancelled (decodeContentBytes cancelled codecs limit chunks headers)
      result ∧
    (∀ decoded, result = .ok decoded ↔
      encodings.length ≤ maxContentEncodingLayers ∧
        ∃ out, TrueOutput codecs limit encodings.reverse chunks.flatten out ∧
          decoded = .withUtf8Validity (out.take limit) (encodings.map normalizedEncoding)
            (limit < out.length)) ∧
    (result = .error (.outputLimit limit) ↔
      encodings.length ≤ maxContentEncodingLayers ∧
        IntermediateOverflow codecs limit encodings.reverse chunks.flatten) ∧
    (result = .error (.tooManyLayers encodings.length maxContentEncodingLayers) ↔
      maxContentEncodingLayers < encodings.length) := by
  intro encodings result
  have hresult : result = contentValue codecs limit encodings chunks.flatten :=
    decodedContent_eq headers chunks.flatten
  rw [hresult]
  exact ⟨decodeContentBytes_computes chunks headers, fun _ => contentValue_ok_iff,
    contentValue_overflow_iff, contentValue_tooMany_iff⟩

end Fluxcope.Capture
