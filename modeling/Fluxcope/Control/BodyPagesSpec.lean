import Fluxcope.Control.BodyPages
/-!
# Pages put the body together again

Following the offsets of the pages from the start gives the whole body, for raw
bodies whatever their chunks are, and for texts in pieces that are texts.
-/

namespace Fluxcope.Control

open Fluxcope.Library Fluxcope.Library.Utf8 Fluxcope.Capture

/-! ## The chunks of a raw body -/

/-- The loop gives what lies between the two places, counted from the first chunk. -/
theorem rawContent_eq {start stop : Nat} (hle : start ≤ stop) (chunks : List Bytes)
    (chunkStart : Nat) (hsize : chunkStart + chunks.flatten.length ≤ wordMax) :
    rawContent start stop chunkStart chunks =
      some ((chunks.flatten.drop (start - chunkStart)).take
        ((stop - chunkStart) - (start - chunkStart))) := by
  induction chunks generalizing chunkStart with
  | nil => simp [rawContent]
  | cons chunk chunks ih =>
    rw [List.flatten_cons] at hsize ⊢
    rw [List.length_append] at hsize
    have hend : satAdd chunkStart chunk.length = chunkStart + chunk.length :=
      satAdd_eq (by omega)
    have hrest := ih (chunkStart + chunk.length) (by omega)
    rw [rawContent, hend]
    by_cases hpiece : chunkStart + chunk.length > start ∧ chunkStart < stop
    · obtain ⟨hgt, hlt⟩ := hpiece
      rw [if_pos (by simpa using ⟨hgt, hlt⟩),
        slice?_eq (by omega : start - chunkStart ≤ min (stop - chunkStart) chunk.length)
          (Nat.min_le_right _ _)]
      rw [List.drop_append_of_le_length (by omega)]
      dsimp only [Option.bind_eq_bind, Option.bind_some]
      split
      · rename_i hlast
        have hmin : min (stop - chunkStart) chunk.length = stop - chunkStart := by omega
        rw [hmin, List.take_append_of_le_length (by rw [List.length_drop]; omega)]
      · rename_i hmore
        have hmin : min (stop - chunkStart) chunk.length = chunk.length := by omega
        have hzero : start - (chunkStart + chunk.length) = 0 := by omega
        rw [hrest, hmin, hzero, Option.map_some, List.drop_zero, Nat.sub_zero, List.take_append,
          List.length_drop]
        have hleft : stop - chunkStart - (start - chunkStart) -
            (chunk.length - (start - chunkStart)) = stop - (chunkStart + chunk.length) := by omega
        rw [hleft, List.take_of_length_le (Nat.le_of_eq List.length_drop),
          List.take_of_length_le (i := stop - chunkStart - (start - chunkStart))
            (by rw [List.length_drop]; omega)]
    · rw [if_neg (by simpa using hpiece)]
      dsimp only [Option.bind_eq_bind, Option.bind_some]
      split
      · rename_i hlast
        have hzero : stop - chunkStart - (start - chunkStart) = 0 := by omega
        rw [hzero, List.take_zero]
      · rename_i hmore
        have hbefore : chunk.length ≤ start - chunkStart := by omega
        have hdrop : start - chunkStart - chunk.length = start - (chunkStart + chunk.length) := by
          omega
        have htake : stop - (chunkStart + chunk.length) - (start - (chunkStart + chunk.length)) =
            stop - chunkStart - (start - chunkStart) := by omega
        rw [hrest, Option.map_some, List.nil_append, List.drop_append,
          List.drop_of_length_le hbefore, List.nil_append, hdrop, htake]

/-! ## Cuts at characters -/

theorem isUtf8Boundary_iff (bytes : Bytes) (i : Nat) :
    isUtf8Boundary bytes i = true ↔ IsBoundary bytes i := by
  unfold isUtf8Boundary
  by_cases hlt : i < bytes.length
  · have hne : i ≠ bytes.length := Nat.ne_of_lt hlt
    rw [decide_eq_false hne, Bool.false_or, startsChar_iff hlt]
  · rw [List.getElem?_eq_none (Nat.le_of_not_lt hlt)]
    unfold IsBoundary
    rw [List.getElem?_eq_none (Nat.le_of_not_lt hlt)]
    simp

/-- The end of a page is a boundary, and lies behind the start if there is more to come.  It is
not behind the requested one, or only one character is between it and the start. -/
structure PageEnd (text : Bytes) (start requestedEnd stop : Nat) : Prop where
  start_le : start ≤ stop
  stop_le : stop ≤ text.length
  boundary : IsBoundary text stop
  progress : stop < text.length → start < stop
  fits : stop ≤ requestedEnd ∨ ∀ j, start < j → j < stop → ¬ IsBoundary text j

section Cuts

variable {text : Bytes} {p : Nat → Bool} (hp : ∀ i, p i = true ↔ IsBoundary text i)

include hp

theorem findBetween_eq {first high last : Nat} (hfirst : first ≤ high) (hlast : high ≤ last)
    (hhigh : IsBoundary text high) (hnone : ∀ j, first ≤ j → j < high → ¬ IsBoundary text j) :
    findBetween p first last = some high := by
  unfold findBetween
  rw [List.find?_range'_eq_some]
  refine ⟨(hp high).2 hhigh, ?_, fun j hj hj' => ?_⟩
  · rw [List.mem_range'_1]
    omega
  · rw [Bool.not_eq_true', ← Bool.not_eq_true, hp]
    exact hnone j hj hj'

theorem findLastBefore_eq {first low stop : Nat} (hfirst : first ≤ low) (hstop : low < stop)
    (hlow : IsBoundary text low) (hnone : ∀ j, low < j → j < stop → ¬ IsBoundary text j) :
    findLastBefore p first stop = some low := by
  refine find_reverse_range' hfirst (by omega) ((hp low).2 hlow) fun j hj hj' => ?_
  rw [← Bool.not_eq_true, hp]
  exact hnone j hj (by omega)

theorem pageEnd_spec (hvalid : Valid text) {low start requestedEnd : Nat} (hlow : low ≤ start)
    (hstart : IsBoundary text start) (hle : start ≤ requestedEnd)
    (hend : requestedEnd ≤ text.length) {stop : Nat}
    (hstop : stop = if lowerTo p low requestedEnd = start && lowerTo p low requestedEnd < text.length
      then (findBetween p (start + 1) text.length).getD text.length
      else lowerTo p low requestedEnd) :
    PageEnd text start requestedEnd stop := by
  obtain ⟨hge, hwithin, hboundary⟩ := lowerTo_spec hlow ((hp start).2 hstart) hle
  rw [hp] at hboundary
  by_cases hstuck : lowerTo p low requestedEnd = start ∧ lowerTo p low requestedEnd < text.length
  · obtain ⟨heq, hlt⟩ := hstuck
    rw [heq] at hlt
    obtain ⟨before, high, hbefore, hhigh, -, hhighEnd, -, hhighBoundary, hbetween⟩ :=
      hvalid.enclosing hlt
    rw [heq, if_pos (by simpa using hlt), findBetween_eq hp (Nat.succ_le_of_lt hhigh) hhighEnd
      hhighBoundary (fun j hj hj' => hbetween j (by omega) hj'), Option.getD_some] at hstop
    subst hstop
    exact ⟨Nat.le_of_lt hhigh, hhighEnd, hhighBoundary, fun _ => hhigh,
      .inr fun j hj hj' => hbetween j (by omega) hj'⟩
  · rw [if_neg (by simpa using hstuck)] at hstop
    subst hstop
    exact ⟨hge, hwithin.trans hend, hboundary, fun hlt =>
      Nat.lt_of_le_of_ne hge fun heq => hstuck ⟨heq.symm, hlt⟩, .inl hwithin⟩

end Cuts

/-- The boundaries around a place inside a character. -/
structure Neighbours (text : Bytes) (offset low high : Nat) : Prop where
  low_lt : low < offset
  lt_high : offset < high
  low_boundary : IsBoundary text low
  high_boundary : IsBoundary text high
  between : ∀ j, low < j → j < high → ¬ IsBoundary text j

theorem exists_neighbours {text : Bytes} (hvalid : Valid text) {offset : Nat}
    (hlt : offset < text.length) (hinside : ¬ IsBoundary text offset) :
    ∃ low high, Neighbours text offset low high ∧ high ≤ low + 4 ∧ high ≤ text.length := by
  obtain ⟨low, high, hlow, hhigh, hspan, hend, hlowBoundary, hhighBoundary, hbetween⟩ :=
    hvalid.enclosing hlt
  refine ⟨low, high, ⟨?_, hhigh, hlowBoundary, hhighBoundary, hbetween⟩, hspan, hend⟩
  refine Nat.lt_of_le_of_ne hlow ?_
  rintro rfl
  exact hinside hlowBoundary

/-! ## Single pages -/

theorem validate_eq_ok {request : BodyContentRequest} (hpos : 0 < request.length)
    (hmax : request.length ≤ maxBodyPageLength) : request.validate = .ok () := by
  unfold BodyContentRequest.validate
  rw [if_neg (Nat.ne_of_gt hpos), if_neg (Nat.not_lt.2 hmax)]

/-- The length of a request does not overflow where the body is large. -/
theorem min_satAdd {start length total : Nat} (htotal : total ≤ wordMax) :
    min (satAdd start length) total = min (start + length) total := by
  unfold satAdd
  omega

theorem pageOf_bodyPage {body : Bytes} (hsize : body.length ≤ wordMax) {start stop : Nat}
    (hle : start ≤ stop) (hend : stop ≤ body.length) (hprogress : stop < body.length → start < stop)
    (request : BodyContentRequest) (status : BodyStatus) (headers : HeaderFields)
    (chain : List Bytes) (limited : Bool) :
    PageOf BodyPage.content BodyPage.nextOffset body start stop
      (bodyPage ((body.drop start).take (stop - start)) request status headers start body.length
        chain limited) := by
  have hlength : ((body.drop start).take (stop - start)).length = stop - start := by
    rw [List.length_take, List.length_drop]
    omega
  have hstop : satAdd start (stop - start) = stop := by
    rw [satAdd_eq (by omega)]
    omega
  refine ⟨hle, hend, rfl, ?_, hprogress⟩
  show (if satAdd start ((body.drop start).take (stop - start)).length < body.length then _ else _) =
    _
  rw [hlength, hstop]

theorem pageRawBody_paged {preview : CapturedBodyPreview} (request : BodyContentRequest)
    (hexact : preview.len = preview.flatten.length) (hsize : preview.len ≤ wordMax)
    (hpos : 0 < request.length) (hmax : request.length ≤ maxBodyPageLength)
    (status : BodyStatus) (headers : HeaderFields) :
    Paged (fun offset => pageRawBody preview { request with offset } status headers)
      BodyPage.nextOffset BodyPage.content preview.flatten request.length (fun _ => True)
      fun _ => True := by
  intro offset hoffset _
  rw [hexact] at hsize
  have hraw := @rawContent_eq offset (min (offset + request.length) preview.flatten.length)
    (by omega) preview.chunks 0 (by rw [Nat.zero_add]; exact hsize)
  have hvalidate : BodyContentRequest.validate { request with offset } = .ok () :=
    validate_eq_ok hpos hmax
  dsimp only
  unfold pageRawBody
  rw [hvalidate]
  dsimp only
  rw [hexact, Nat.min_eq_left hoffset, min_satAdd hsize, hraw]
  exact ⟨_, _, rfl, pageOf_bodyPage hsize (by omega) (by omega) (by omega) _ status headers
    [] false, trivial, trivial, .inl (by omega)⟩

theorem textPageEnd_spec {text : Bytes} (hvalid : Valid text) {start requestedEnd : Nat}
    (hstart : IsBoundary text start) (hle : start ≤ requestedEnd)
    (hend : requestedEnd ≤ text.length) :
    PageEnd text start requestedEnd (textPageEnd text start requestedEnd text.length) :=
  pageEnd_spec (isUtf8Boundary_iff text) hvalid (Nat.le_refl start) hstart hle hend rfl

/-- The places of a decoded body where a page may start: all of them, or those between two
characters if the body is a text. -/
def DecodedPlace (decoded : DecodedBytes) (offset : Nat) : Prop :=
  decoded.isUtf8 = true → IsBoundary decoded.bytes offset

theorem pageDecodedBody_paged {decoded : DecodedBytes} (request : BodyContentRequest)
    (hsize : decoded.bytes.length ≤ wordMax) (hpos : 0 < request.length)
    (hmax : request.length ≤ maxBodyPageLength) (status : BodyStatus) (headers : HeaderFields) :
    Paged (fun offset => pageDecodedBody decoded { request with offset } status headers)
      BodyPage.nextOffset BodyPage.content decoded.bytes request.length (DecodedPlace decoded)
      fun p => decoded.isUtf8 = true → Valid p.content := by
  intro offset hoffset hplace
  have hvalidate : BodyContentRequest.validate { request with offset } = .ok () :=
    validate_eq_ok hpos hmax
  dsimp only
  unfold pageDecodedBody
  rw [hvalidate]
  dsimp only
  rw [Nat.min_eq_left hoffset, min_satAdd hsize]
  cases htext : decoded.isUtf8 with
  | false =>
    rw [if_neg (by simp), if_neg (by simp), slice?_eq (by omega) (by omega)]
    exact ⟨_, _, rfl, pageOf_bodyPage hsize (by omega) (by omega) (by omega) _ status headers
      _ _, nofun, fun h => absurd (htext.symm.trans h) nofun, .inl (by omega)⟩
  | true =>
    have hstart := hplace htext
    have hvalid := (decoded.isUtf8_iff).1 htext
    have hend := @textPageEnd_spec _ hvalid _
      (min (offset + request.length) decoded.bytes.length) hstart (by omega) (by omega)
    rw [if_neg (by simpa using (isUtf8Boundary_iff _ _).2 hstart), if_pos rfl,
      slice?_eq hend.start_le hend.stop_le]
    refine ⟨_, _, rfl, pageOf_bodyPage hsize hend.start_le hend.stop_le hend.progress _ status
      headers _ _, fun _ => hvalid.slice hstart hend.boundary hend.start_le hoffset,
      fun _ => hend.boundary, hend.fits.imp (fun h => by omega) fun h place hlow hhigh => ?_⟩
    exact fun hboundary => h place hlow hhigh (hboundary htext)

theorem pageDecodedBody_inside {decoded : DecodedBytes} {request : BodyContentRequest}
    (hsize : decoded.bytes.length ≤ wordMax) (hpos : 0 < request.length)
    (hmax : request.length ≤ maxBodyPageLength) (status : BodyStatus) (headers : HeaderFields)
    (htext : decoded.isUtf8 = true) (hlt : request.offset < decoded.bytes.length)
    (hinside : ¬ IsBoundary decoded.bytes request.offset) :
    ∃ low high, Neighbours decoded.bytes request.offset low high ∧
      pageDecodedBody decoded request status headers = some (.error
        { code := .invalidArgument
          message := "decoded text offset is not a UTF-8 character boundary"
          retryable := false
          details := [("offset", request.offset), ("nearest_start", low), ("nearest_end", high)] }) := by
  obtain ⟨low, high, hneighbours, hspan, hend⟩ :=
    exists_neighbours ((decoded.isUtf8_iff).1 htext) hlt hinside
  have hlow := hneighbours.low_lt
  have hhigh := hneighbours.lt_high
  refine ⟨low, high, hneighbours, ?_⟩
  have hnot : isUtf8Boundary decoded.bytes request.offset = false := by
    rw [← Bool.not_eq_true, isUtf8Boundary_iff]
    exact hinside
  unfold pageDecodedBody
  rw [validate_eq_ok hpos hmax]
  dsimp only
  rw [Nat.min_eq_left (Nat.le_of_lt hlt), htext, hnot]
  simp only [Bool.not_false, Bool.and_self, if_true]
  unfold decodedOffsetError
  rw [findLastBefore_eq (isUtf8Boundary_iff _) (by omega : request.offset - 3 ≤ low) hlow
      hneighbours.low_boundary (fun j hj hj' => hneighbours.between j hj (by omega)),
    satAdd_eq (by omega : request.offset + 1 ≤ wordMax), min_satAdd hsize,
    findBetween_eq (isUtf8Boundary_iff _) (by omega) (by omega) hneighbours.high_boundary
      (fun j hj hj' => hneighbours.between j (by omega) hj')]
  rfl

theorem pageSelectedRepresentation_paged {selected : Bytes} {length : Nat}
    (hvalid : Valid selected) (hsize : selected.length ≤ wordMax) (hpos : 0 < length)
    (hmax : length ≤ maxBodyPageLength) (uri : String) :
    Paged (fun offset => pageSelectedRepresentation selected offset length uri)
      SelectedPageWindow.nextOffset SelectedPageWindow.content selected length
      (IsBoundary selected) fun p => Valid p.content := by
  intro offset hoffset hboundary
  have hp : ∀ i, isCharBoundary selected i = true ↔ IsBoundary selected i := fun i =>
    isCharBoundary_iff hvalid
  have hend := @pageEnd_spec _ _ hp hvalid _ _
    (min (offset + length) selected.length) (Nat.zero_le offset) hboundary (by omega) (by omega) _ rfl
  dsimp only
  unfold pageSelectedRepresentation
  rw [if_neg (by simp; omega), fromUtf8_eq_none_iff.2 hvalid, if_neg (by simp),
    if_neg (Nat.not_lt.2 hoffset), (hp offset).2 hboundary, if_neg (by simp)]
  dsimp only
  rw [min_satAdd hsize]
  unfold alignedEnd
  rw [slice?_eq hend.start_le hend.stop_le]
  exact ⟨_, _, rfl, ⟨hend.start_le, hend.stop_le, rfl, rfl, hend.progress⟩,
    hvalid.slice hboundary hend.boundary hend.start_le hoffset, hend.boundary,
    hend.fits.imp_left fun h => by omega⟩

theorem pageSelectedRepresentation_inside {selected : Bytes} {offset length : Nat}
    (hvalid : Valid selected) (hpos : 0 < length) (hmax : length ≤ maxBodyPageLength)
    (uri : String) (hlt : offset < selected.length) (hinside : ¬ IsBoundary selected offset) :
    ∃ low high, Neighbours selected offset low high ∧
      pageSelectedRepresentation selected offset length uri = some (.error
        { code := .invalidArgument
          message := "selection page offset is not a UTF-8 boundary"
          retryable := false
          field := some "offset"
          details := [("received", offset), ("nearest_floor", low), ("nearest_ceiling", high)] }) := by
  have hp : ∀ i, isCharBoundary selected i = true ↔ IsBoundary selected i := fun i =>
    isCharBoundary_iff hvalid
  obtain ⟨low, high, hneighbours, -, hend⟩ := exists_neighbours hvalid hlt hinside
  have hlow := hneighbours.low_lt
  have hhigh := hneighbours.lt_high
  refine ⟨low, high, hneighbours, ?_⟩
  have hnot : isCharBoundary selected offset = false := by
    rw [← Bool.not_eq_true, hp]
    exact hinside
  unfold pageSelectedRepresentation
  rw [if_neg (by simp; omega), fromUtf8_eq_none_iff.2 hvalid, if_neg (by simp),
    if_neg (by omega), hnot, if_pos (by simp)]
  unfold invalidUtf8Offset
  rw [findLastBefore_eq hp (Nat.zero_le low) hlow hneighbours.low_boundary
      (fun j hj hj' => hneighbours.between j hj (by omega)),
    findBetween_eq hp (by omega) hend hneighbours.high_boundary
      (fun j hj hj' => hneighbours.between j (by omega) hj')]
  rfl

/-! ## Whole bodies -/

/-- Every place has its page.  A walk from the start ends, all pages but the last one have
content, and together they are the body. -/
def Reassembles {π : Type} (page : Nat → Option (Except ControlError π)) (content : π → Bytes)
    (next : π → Option Nat) (body : Bytes) (length : Nat) (Place : Nat → Prop) (Q : π → Prop) :
    Prop :=
  Paged page next content body length Place Q ∧
  ∃ pages, PageWalk page next 0 pages ∧ (pages.map content).flatten = body ∧
    (∀ p ∈ pages, Q p) ∧ ∀ p ∈ pages.dropLast, content p ≠ []

theorem reassembles {π : Type} {page : Nat → Option (Except ControlError π)} {content : π → Bytes}
    {next : π → Option Nat} {body : Bytes} {length : Nat} {Place : Nat → Prop} {Q : π → Prop}
    (hpaged : Paged page next content body length Place Q) (hzero : Place 0) :
    Reassembles page content next body length Place Q :=
  ⟨hpaged, pageWalk_complete hpaged hzero (Nat.zero_le _)⟩

/-- Raw, decoded and selected bodies are put together by their pages, and a page has at most
the requested length, or one character.  The pages of a text are texts, and an offset inside
a character is refused with the boundaries next to it. -/
theorem body_pages_reassemble (request : BodyContentRequest) (hpos : 0 < request.length)
    (hmax : request.length ≤ maxBodyPageLength) (status : BodyStatus) (headers : HeaderFields) :
    (∀ preview : CapturedBodyPreview, preview.len = preview.flatten.length →
      preview.len ≤ wordMax →
      Reassembles (fun offset => pageRawBody preview { request with offset } status headers)
        BodyPage.content BodyPage.nextOffset preview.flatten request.length (fun _ => True)
        fun _ => True) ∧
    (∀ decoded : DecodedBytes, decoded.bytes.length ≤ wordMax →
      Reassembles (fun offset => pageDecodedBody decoded { request with offset } status headers)
        BodyPage.content BodyPage.nextOffset decoded.bytes request.length (DecodedPlace decoded)
        (fun p => decoded.isUtf8 = true → Valid p.content) ∧
      (decoded.isUtf8 = true → ∀ offset < decoded.bytes.length, ¬ IsBoundary decoded.bytes offset →
        ∃ low high, Neighbours decoded.bytes offset low high ∧
          pageDecodedBody decoded { request with offset } status headers = some (.error
            { code := .invalidArgument
              message := "decoded text offset is not a UTF-8 character boundary"
              retryable := false
              details :=
                [("offset", offset), ("nearest_start", low), ("nearest_end", high)] }))) ∧
    ∀ (selected : Bytes) (uri : String), Valid selected → selected.length ≤ wordMax →
      Reassembles (fun offset => pageSelectedRepresentation selected offset request.length uri)
        SelectedPageWindow.content SelectedPageWindow.nextOffset selected request.length
        (IsBoundary selected) (fun p => Valid p.content) ∧
      ∀ offset < selected.length, ¬ IsBoundary selected offset →
        ∃ low high, Neighbours selected offset low high ∧
          pageSelectedRepresentation selected offset request.length uri = some (.error
            { code := .invalidArgument
              message := "selection page offset is not a UTF-8 boundary"
              retryable := false
              field := some "offset"
              details :=
                [("received", offset), ("nearest_floor", low), ("nearest_ceiling", high)] }) := by
  refine ⟨fun preview hexact hsize => ?_, fun decoded hsize => ⟨?_, fun htext offset hlt hinside =>
    ?_⟩, fun selected uri hvalid hsize => ⟨?_, fun offset hlt hinside => ?_⟩⟩
  · exact reassembles (pageRawBody_paged request hexact hsize hpos hmax status headers) trivial
  · exact reassembles (pageDecodedBody_paged request hsize hpos hmax status headers)
      fun htext => ((decoded.isUtf8_iff).1 htext).isBoundary_zero
  · exact (@pageDecodedBody_inside _ { request with offset }) hsize hpos hmax status headers
      htext hlt hinside
  · exact reassembles (pageSelectedRepresentation_paged hvalid hsize hpos hmax uri)
      hvalid.isBoundary_zero
  · exact pageSelectedRepresentation_inside hvalid hpos hmax uri hlt hinside

def samplePageRequest : BodyContentRequest :=
  { captureId := 0
    captureRevision := 1
    side := .response
    representation := .decoded
    offset := 0
    length := 1 }

def sampleDecoded : DecodedBytes := .withUtf8Validity [0xC3, 0xA9, 0x21] [] false

theorem body_pages_reassemble_sample :
    Reassembles (fun offset => pageRawBody { canonicalTail := [[1, 2]], trailing := [3], len := 3 }
        { samplePageRequest with offset } {} []) BodyPage.content BodyPage.nextOffset [1, 2, 3] 1
        (fun _ => True) (fun _ => True) ∧
      Reassembles (fun offset => pageDecodedBody sampleDecoded
        { samplePageRequest with offset } {} []) BodyPage.content BodyPage.nextOffset
        sampleDecoded.bytes 1 (DecodedPlace sampleDecoded)
        (fun p => sampleDecoded.isUtf8 = true → Valid p.content) := by
  obtain ⟨hraw, hdecoded, -⟩ :=
    body_pages_reassemble samplePageRequest (by decide) (by decide) {} []
  exact ⟨hraw _ rfl (by decide), (hdecoded sampleDecoded (by decide)).1⟩

end Fluxcope.Control
