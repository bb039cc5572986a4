import Fluxcope.Capture.FormatFormSpec
import Fluxcope.Control.FormValues
/-!
# The values of a form field

The components are decoded as the display decodes them, whatever is scanned
between two flushes, and the array holds the values of the fields with the key.
-/

namespace Fluxcope.Control

open Fluxcope.Library Fluxcope.Library.Utf8 Fluxcope.Library.FormUrlencoded Fluxcope.Capture

/-! ## The sinks -/

/-- A text of at most `limit` bytes. -/
def boundedSink (limit : Nat) : Sink Bytes Unit where
  size := List.length
  limit := fun _ => limit
  Extends := fun before text after => after = before ++ text
  Stopped := fun _ => False
  nil := fun output => (List.append_nil output).symm
  append := by
    rintro s t u a b rfl rfl
    exact List.append_assoc _ _ _
  size_eq := by
    rintro s t a rfl
    exact List.length_append
  limit_eq := fun _ => rfl

theorem appendBounded_writes (limit : Nat) (text : Bytes) :
    (boundedSink limit).Writes (appendBounded limit text) text () where
  fits := fun output hfit => by
    have hfit : output.length + text.length ≤ limit := hfit
    exact .inl ⟨output ++ text, if_neg (by omega), rfl⟩
  overflows := fun output _ hover => by
    have hover : limit < output.length + text.length := hover
    exact ⟨(), if_pos hover⟩

/-- The array without its closing bracket, for which a byte is kept free. -/
def arraySink : Sink CappedJsonArrayWriter Unit where
  size := fun writer => writer.output.length
  limit := fun writer => writer.limit - 1
  Extends := fun before text after => after = { before with output := before.output ++ text }
  Stopped := fun _ => False
  nil := fun writer => by rw [List.append_nil]
  append := by
    rintro s t u a b rfl rfl
    simp
  size_eq := by
    rintro s t a rfl
    exact List.length_append
  limit_eq := by
    rintro s t a rfl
    rfl

namespace CappedJsonArrayWriter

theorem writeAll_writes (text : Bytes) : arraySink.Writes (writeAll text) text () where
  fits := fun writer hfit => by
    have hfit : writer.output.length + text.length ≤ writer.limit - 1 := hfit
    unfold writeAll
    by_cases hempty : text = []
    · rw [if_pos hempty, hempty]
      exact .inl ⟨writer, rfl, arraySink.nil writer⟩
    · have hpos : 0 < text.length := List.length_pos_iff.2 hempty
      rw [if_neg hempty, if_neg (by omega)]
      exact .inl ⟨_, rfl, rfl⟩
  overflows := fun writer hle hover => by
    have hle : writer.output.length ≤ writer.limit - 1 := hle
    have hover : writer.limit - 1 < writer.output.length + text.length := hover
    unfold writeAll
    have hne : text ≠ [] := by
      rintro rfl
      rw [List.length_nil] at hover
      omega
    rw [if_neg hne, if_pos (by omega)]
    exact ⟨(), rfl⟩

theorem writeEscaped_writes (fragment value : Bytes) :
    arraySink.Writes (writeEscaped fragment value)
      (fragment ++ value.flatMap JsonString.escaped) () := by
  induction value generalizing fragment with
  | nil =>
    rw [writeEscaped, List.flatMap_nil, List.append_nil]
    exact writeAll_writes fragment
  | cons byte rest ih =>
    rw [writeEscaped, List.flatMap_cons, JsonString.escaped]
    cases hescape : JsonString.escape byte with
    | none =>
      have h := ih (fragment ++ [byte])
      rw [List.append_assoc] at h
      exact h
    | some escape =>
      exact (writeAll_writes fragment).bind ((writeAll_writes escape).bind (ih []))

theorem writeFormJson_writes (value : Bytes) (separator : Bool) :
    arraySink.Writes (writeFormJson value separator)
      ((if separator then [0x2C] else []) ++ JsonString.string value) () := by
  refine (writeAll_writes _).bind ?_
  exact (writeAll_writes [0x22]).bind
    ((writeEscaped_writes [] value).bind (writeAll_writes [0x22]))

end CappedJsonArrayWriter

/-! ## The components -/

section Components

variable {flushBytes : Nat} {cancelled : Nat → Bool}

theorem checkForm_computes :
    Checked.Computes cancelled formCancelled (checkForm cancelled) (.ok ()) := .check

theorem findIdx?_eq_some_split {l : Bytes} {delimiter : UInt8} {i : Nat}
    (h : l.findIdx? (· = delimiter) = some i) :
    delimiter ∉ l.take i ∧ l[i]? = some delimiter := by
  obtain ⟨hlt, hat, hbefore⟩ := List.findIdx?_eq_some_iff_getElem.1 h
  refine ⟨fun hmem => ?_, ?_⟩
  · obtain ⟨j, hj, hget⟩ := List.mem_take_iff_getElem.1 hmem
    have hmiss := hbefore j (by omega)
    rw [hget] at hmiss
    simp at hmiss
  · rw [List.getElem?_eq_getElem hlt]
    exact congrArg some (of_decide_eq_true hat)

/-- The pieces scanned do not matter for the place of the delimiter. -/
theorem findDelimiterFrom_computes (delimiter : UInt8) (input : Bytes) {fuel offset : Nat}
    (hfuel : input.length ≤ offset + fuel) (hoffset : offset ≤ input.length)
    (hbefore : delimiter ∉ input.take offset) : ∃ place,
      Checked.Computes cancelled formCancelled
        (findDelimiterFrom cancelled delimiter input fuel offset) (.ok place) ∧
      place ≤ input.length ∧ delimiter ∉ input.take place ∧
      (place < input.length → input[place]? = some delimiter) := by
  have hchunk : formScanBytes = 32768 := rfl
  induction fuel generalizing offset with
  | zero =>
    obtain rfl : offset = input.length := by omega
    exact ⟨input.length, checkForm_computes.bind (.pure _), Nat.le_refl _, hbefore,
      fun hlt => absurd hlt (Nat.lt_irrefl _)⟩
  | succ fuel ih =>
    rw [findDelimiterFrom]
    by_cases hlt : offset < input.length
    · rw [if_pos hlt]
      dsimp only
      generalize hstop : min (offset + formScanBytes) input.length = stop
      cases hfind : ((input.take stop).drop offset).findIdx? (· = delimiter) with
      | some relative =>
        obtain ⟨hnone, hat⟩ := findIdx?_eq_some_split hfind
        have hplace : input[offset + relative]? = some delimiter := by
          rw [List.getElem?_drop, List.getElem?_take] at hat
          split at hat
          · exact hat
          · cases hat
        have hbound := (List.getElem?_eq_some_iff.1 hplace).1
        refine ⟨offset + relative, checkForm_computes.bind (.pure _), by omega, ?_,
          fun _ => hplace⟩
        have hwithin : offset + relative ≤ stop := by
          obtain ⟨hlen, -⟩ := List.getElem?_eq_some_iff.1 hat
          rw [List.length_drop, List.length_take] at hlen
          omega
        have hsplit : input.take (offset + relative) =
            input.take offset ++ ((input.take stop).drop offset).take relative := by
          rw [List.take_drop, List.take_take, Nat.min_eq_left hwithin,
            ← List.take_append_drop offset (input.take (offset + relative)), List.take_take,
            Nat.min_eq_left (Nat.le_add_right _ _), List.drop_left' (by
              rw [List.length_take]; omega)]
        rw [hsplit, List.mem_append]
        exact fun h => h.elim hbefore hnone
      | none =>
        have hmiss : delimiter ∉ (input.take stop).drop offset := by
          intro hmem
          have hfalse := List.findIdx?_eq_none_iff.1 hfind delimiter hmem
          simp at hfalse
        have hnext : delimiter ∉ input.take stop := by
          rw [← List.take_append_drop offset (input.take stop), List.mem_append,
            List.take_take, Nat.min_eq_left (by omega)]
          exact fun h => h.elim hbefore hmiss
        obtain ⟨place, hcomputes, hrest⟩ := @ih stop (by omega) (by omega) hnext
        exact ⟨place, checkForm_computes.bind hcomputes, hrest⟩
    · rw [if_neg hlt]
      obtain rfl : offset = input.length := by omega
      exact ⟨input.length, checkForm_computes.bind (.pure _), Nat.le_refl _, hbefore,
        fun hlt => absurd hlt (Nat.lt_irrefl _)⟩

/-- A delimiter is found behind the piece without one. -/
theorem findFormDelimiterWith_computes {delimiter : UInt8} {piece rest : Bytes}
    (hpiece : delimiter ∉ piece) (hrest : rest = [] ∨ ∃ more, rest = delimiter :: more) :
    Checked.Computes cancelled formCancelled
      (findFormDelimiterWith cancelled delimiter (piece ++ rest)) (.ok piece.length) := by
  obtain ⟨place, hcomputes, hle, hbefore, hat⟩ := @findDelimiterFrom_computes cancelled
    delimiter (piece ++ rest) _ 0 (by rw [Nat.zero_add]) (Nat.zero_le _) (by simp)
  have hplace : place = piece.length := by
    rcases Nat.lt_trichotomy place piece.length with hlt | heq | hgt
    · have hdelimiter := hat (by rw [List.length_append]; omega)
      rw [List.getElem?_append_left hlt] at hdelimiter
      exact absurd (List.mem_of_getElem? hdelimiter) hpiece
    · exact heq
    · rcases hrest with rfl | ⟨more, rfl⟩
      · rw [List.append_nil] at hle
        omega
      · refine absurd ?_ hbefore
        rw [List.take_append, List.mem_append]
        refine .inr ?_
        obtain ⟨n, hn⟩ := Nat.exists_eq_succ_of_ne_zero (by omega : place - piece.length ≠ 0)
        rw [hn, List.take_succ_cons]
        exact List.mem_cons_self
  rw [← hplace]
  exact hcomputes

/-- The loop stops at the limit or leaves a state from which the rest is decoded. -/
theorem decodeFrom_computes {limit fuel : Nat} {input bytes output : Bytes} {scanned : Nat}
    (hfuel : input.length ≤ fuel) (houtput : output.length ≤ limit) : ∃ r,
      Checked.Computes cancelled formCancelled
        (decodeFrom flushBytes cancelled limit fuel input scanned bytes output) (.ok r) ∧
      match r with
      | none => limit < output.length + (fromUtf8Lossy (bytes ++ componentBytes input)).length
      | some (kept, written) => written.length ≤ limit ∧
          output ++ fromUtf8Lossy (bytes ++ componentBytes input) =
            written ++ fromUtf8Lossy kept := by
  induction fuel generalizing input bytes output scanned with
  | zero =>
    obtain rfl := List.length_eq_zero_iff.1 (Nat.le_zero.1 hfuel)
    refine ⟨some (bytes, output), .pure _, houtput, ?_⟩
    rw [componentBytes_nil, List.append_nil]
  | succ fuel ih =>
    rw [decodeFrom]
    by_cases hempty : input = []
    · rw [if_pos hempty, hempty]
      refine ⟨some (bytes, output), .pure _, houtput, ?_⟩
      rw [componentBytes_nil, List.append_nil]
    rw [if_neg hempty]
    obtain ⟨byte, consumed, hdecode, hpos, hle, hbytes⟩ :=
      (@decodeFormByte_append _ []) hempty (by intro b rest h; cases h)
    rw [List.append_nil] at hdecode
    rw [hdecode]
    dsimp only
    have hsplit : bytes ++ componentBytes input =
        (bytes ++ [byte]) ++ componentBytes (input.drop consumed) := by
      rw [hbytes, List.append_assoc, List.singleton_append]
    have hshort : (input.drop consumed).length ≤ fuel := by
      rw [List.length_drop]
      omega
    by_cases hflush : scanned + consumed ≥ flushBytes
    · rw [if_pos hflush]
      obtain ⟨text, kept, hwrites, hdecodes⟩ :=
        flush_false (fun text _ => appendBounded_writes limit text) (bytes ++ [byte])
      have hlossy : fromUtf8Lossy (bytes ++ componentBytes input) =
          text ++ fromUtf8Lossy (kept ++ componentBytes (input.drop consumed)) := by
        rw [hsplit]
        exact hdecodes _
      by_cases hfit : output.length + text.length ≤ limit
      · obtain ⟨written, hok, rfl⟩ := (hwrites.ok_iff (fun _ h => h) houtput).2 hfit
        rw [hok]
        obtain ⟨r, hcomputes, hr⟩ := @ih (input.drop consumed) kept
          (output ++ text) 0 hshort (by rw [List.length_append]; exact hfit)
        refine ⟨r, checkForm_computes.bind hcomputes, ?_⟩
        rw [hlossy]
        cases r with
        | none =>
          dsimp only at hr ⊢
          rw [List.length_append] at hr ⊢
          omega
        | some state =>
          obtain ⟨kept', written⟩ := state
          dsimp only at hr ⊢
          rw [← List.append_assoc]
          exact hr
      · obtain ⟨failure, herror⟩ := hwrites.overflows output houtput (Nat.lt_of_not_le hfit)
        rw [herror]
        refine ⟨none, .pure none, ?_⟩
        dsimp only
        rw [hlossy, List.length_append]
        have hover : limit < output.length + text.length := Nat.lt_of_not_le hfit
        omega
    · rw [if_neg hflush]
      rw [hsplit]
      exact ih hshort houtput

/-- The decoder yields the text of the component, if it is not longer than the limit. -/
theorem decodeWith_computes (limit : Nat) (input : Bytes) :
    Checked.Computes cancelled formCancelled (decodeWith flushBytes cancelled limit input)
      (.ok (if (decodeComponent input).length ≤ limit then some (decodeComponent input)
        else none)) := by
  obtain ⟨r, hcomputes, hr⟩ := @decodeFrom_computes flushBytes cancelled limit _
    input [] [] 0 (Nat.le_refl _) (Nat.zero_le _)
  rw [List.nil_append] at hr
  refine checkForm_computes.bind (hcomputes.bind ?_)
  cases r with
  | none =>
    dsimp only at hr ⊢
    rw [List.length_nil, Nat.zero_add] at hr
    have hover : ¬ (decodeComponent input).length ≤ limit := Nat.not_le_of_lt hr
    rw [if_neg hover]
    exact .pure none
  | some state =>
    obtain ⟨kept, written⟩ := state
    dsimp only at hr ⊢
    obtain ⟨hwritten, htext⟩ := hr
    rw [List.nil_append] at htext
    have hdecoded : decodeComponent input = written ++ fromUtf8Lossy kept := htext
    have hwrites := flush_true (fun text _ => appendBounded_writes limit text) kept
    have hlength : (decodeComponent input).length =
        written.length + (fromUtf8Lossy kept).length := by
      rw [hdecoded, List.length_append]
    by_cases hfit : (decodeComponent input).length ≤ limit
    · obtain ⟨after, hok, rfl⟩ := (hwrites.ok_iff (fun _ h => h) hwritten).2
        (show written.length + (fromUtf8Lossy kept).length ≤ limit by omega)
      rw [hok, if_pos hfit, hdecoded]
      exact checkForm_computes.bind (.pure _)
    · obtain ⟨failure, herror⟩ := hwrites.overflows written hwritten
        (show limit < written.length + (fromUtf8Lossy kept).length by omega)
      rw [herror, if_neg hfit]
      exact .pure none

end Components

/-! ## The fields -/

/-- The values of the pairs with the key, in order. -/
def formValues (key input : Bytes) : List Bytes :=
  ((parse input).filter fun pair => pair.1 = key).map (·.2)

/-- The items of an array, each behind a comma but for the very first. -/
def arrayItems : Bool → List Bytes → Bytes
  | _, [] => []
  | found, value :: values =>
    ((if found then [0x2C] else []) ++ JsonString.string value) ++ arrayItems true values

theorem arrayItems_found (value : Bytes) (values : List Bytes) :
    arrayItems true (value :: values) =
      [0x2C] ++ List.intercalate [0x2C] ((value :: values).map JsonString.string) := by
  induction values generalizing value with
  | nil => simp [arrayItems]
  | cons next values ih =>
    rw [arrayItems, ih next]
    simp

theorem array_eq (values : List Bytes) :
    JsonString.array values = 0x5B :: (arrayItems false values ++ [0x5D]) := by
  rw [JsonString.array]
  congr 2
  cases values with
  | nil => rfl
  | cons value values =>
    rw [arrayItems, if_neg Bool.false_ne_true, List.nil_append]
    cases values with
    | nil => simp [arrayItems]
    | cons next values =>
      rw [arrayItems_found]
      simp

theorem length_string_ge (value : Bytes) : value.length ≤ (JsonString.string value).length := by
  have hescaped : ∀ b, 1 ≤ (JsonString.escaped b).length := by
    intro b
    unfold JsonString.escaped JsonString.escape
    repeat' split
    all_goals simp
  have hall : ∀ value : Bytes, value.length ≤ (value.flatMap JsonString.escaped).length := by
    intro value
    induction value with
    | nil => exact Nat.le_refl 0
    | cons b value ih =>
      rw [List.flatMap_cons, List.length_append, List.length_cons]
      have hb := hescaped b
      omega
  have hvalue := hall value
  rw [JsonString.string, List.length_cons, List.length_append]
  omega

/-- What becomes of the array when a text is added to it. -/
def afterWriting (writer : CappedJsonArrayWriter) (text : Bytes) (found : Bool) :
    Except ControlError (CappedJsonArrayWriter × Bool) :=
  if writer.output.length + text.length ≤ writer.limit - 1 then
    .ok ({ writer with output := writer.output ++ text }, found)
  else .error formOutputLimitError

section Fields

variable {flushBytes : Nat} {cancelled : Nat → Bool} {writer : CappedJsonArrayWriter}

theorem takeFormValue_computes (hlimit : writer.limit = maxDecodedContentBytes)
    (hsize : writer.output.length ≤ writer.limit - 1) (rawValue : Bytes) (found : Bool) :
    Checked.Computes cancelled formCancelled
      (takeFormValue flushBytes cancelled rawValue writer found >>= fun writer =>
        pure (writer, true))
      (afterWriting writer
        ((if found then [0x2C] else []) ++ JsonString.string (decodeComponent rawValue)) true) := by
  have hwrites := CappedJsonArrayWriter.writeFormJson_writes (decodeComponent rawValue) found
  have hlong := length_string_ge (decodeComponent rawValue)
  have hpositive : maxDecodedContentBytes = 16777216 := rfl
  unfold takeFormValue afterWriting
  have hdecode := (@decodeWith_computes flushBytes cancelled)
    maxDecodedContentBytes rawValue
  by_cases hshort : (decodeComponent rawValue).length ≤ maxDecodedContentBytes
  · rw [if_pos hshort] at hdecode
    by_cases hfit : writer.output.length + ((if found = true then [0x2C] else []) ++
        JsonString.string (decodeComponent rawValue)).length ≤ writer.limit - 1
    · obtain ⟨after, hok, rfl⟩ := (hwrites.ok_iff (fun _ h => h) hsize).2 hfit
      rw [if_pos hfit]
      refine Checked.Computes.bind (hdecode.bind ?_) (.pure _)
      dsimp only
      rw [hok]
      exact .pure _
    · obtain ⟨failure, herror⟩ := hwrites.overflows writer hsize (Nat.lt_of_not_le hfit)
      rw [if_neg hfit]
      refine Checked.Computes.bind_error (hdecode.bind ?_)
      dsimp only
      rw [herror]
      exact .throw _
  · rw [if_neg hshort] at hdecode
    rw [if_neg (by rw [List.length_append, hlimit]; omega)]
    exact Checked.Computes.bind_error (hdecode.bind (.throw _))

theorem splitField_piece (field : Bytes) :
    ∃ name rest, field = name ++ rest ∧ equalsSign ∉ name ∧
      (rest = [] ∨ ∃ more, rest = equalsSign :: more) ∧
      splitField field name.length = (pieceName field, pieceValue field) := by
  by_cases hequals : equalsSign ∈ field
  · obtain ⟨name, value, rfl, hname⟩ := List.eq_append_cons_of_mem hequals
    obtain ⟨hpieceName, hpieceValue⟩ := (@piece_of_equals _ value) hname
    refine ⟨name, equalsSign :: value, rfl, hname, .inr ⟨value, rfl⟩, ?_⟩
    rw [hpieceName, hpieceValue, splitField, if_neg (by simp), List.take_left,
      ← List.drop_drop, List.drop_left]
    rfl
  · obtain ⟨hpieceName, hpieceValue⟩ := piece_of_no_equals hequals
    refine ⟨field, [], (List.append_nil _).symm, hequals, .inl rfl, ?_⟩
    rw [hpieceName, hpieceValue, splitField, if_pos rfl]

/-- A field adds its value to the array when its key is the one asked for. -/
theorem extractField_computes (hlimit : writer.limit = maxDecodedContentBytes)
    (hsize : writer.output.length ≤ writer.limit - 1) (key field : Bytes) (found : Bool) :
    Checked.Computes cancelled formCancelled
      (extractField flushBytes cancelled key field writer found)
      (if decodeComponent (pieceName field) = key then
        afterWriting writer ((if found then [0x2C] else []) ++
          JsonString.string (decodeComponent (pieceValue field))) true
      else .ok (writer, found)) := by
  obtain ⟨name, rest, hfield, hname, hrest, hsplit⟩ := splitField_piece field
  have hfind := (@findFormDelimiterWith_computes cancelled) hname hrest
  rw [← hfield] at hfind
  refine hfind.bind ?_
  rw [hsplit]
  dsimp only
  refine (decodeWith_computes key.length (pieceName field)).bind ?_
  by_cases hkey : decodeComponent (pieceName field) = key
  · rw [if_pos hkey, if_pos (by rw [hkey, if_pos (Nat.le_refl _)])]
    exact takeFormValue_computes hlimit hsize (pieceValue field) found
  · rw [if_neg hkey, if_neg ?_]
    · exact .pure _
    · split
      · exact fun h => hkey (Option.some.inj h)
      · intro h
        cases h

theorem formValues_last {key piece : Bytes} (hpiece : ampersand ∉ piece) (hkey : key ≠ []) :
    formValues key piece =
      if decodeComponent (pieceName piece) = key then [decodeComponent (pieceValue piece)]
      else [] := by
  unfold formValues
  by_cases hempty : piece = []
  · subst hempty
    rw [parse_nil, if_neg (fun h => hkey h.symm)]
    rfl
  · rw [parse_last hpiece hempty]
    split
    · rename_i h
      simp [h]
    · rename_i h
      simp [h]

theorem formValues_cons {key piece rest : Bytes} (hpiece : ampersand ∉ piece) (hkey : key ≠ []) :
    formValues key (piece ++ ampersand :: rest) =
      if decodeComponent (pieceName piece) = key then
        decodeComponent (pieceValue piece) :: formValues key rest
      else formValues key rest := by
  unfold formValues
  by_cases hempty : piece = []
  · subst hempty
    rw [List.nil_append, parse_ampersand, if_neg (fun h => hkey h.symm)]
  · rw [parse_cons_of_ne hpiece hempty]
    split
    · rename_i h
      simp [h]
    · rename_i h
      simp [h]

theorem afterWriting_nil (hsize : writer.output.length ≤ writer.limit - 1) (found : Bool) :
    afterWriting writer [] found = .ok (writer, found) := by
  unfold afterWriting
  rw [if_pos (by rw [List.length_nil]; omega), List.append_nil]

/-- The loop adds the values of all pairs with the key. -/
theorem extractFields_computes {key : Bytes} (hkey : key ≠ []) {fuel : Nat} {input : Bytes}
    {found : Bool} (hfuel : input.length < fuel) (hlimit : writer.limit = maxDecodedContentBytes)
    (hsize : writer.output.length ≤ writer.limit - 1) :
    Checked.Computes cancelled formCancelled
      (extractFields flushBytes cancelled key fuel input writer found)
      (afterWriting writer (arrayItems found (formValues key input))
        (found || !(formValues key input).isEmpty)) := by
  induction fuel generalizing input writer found with
  | zero => omega
  | succ fuel ih =>
    obtain ⟨piece, tail, rfl, hpiece, htail⟩ := exists_piece input
    rw [extractFields]
    refine (findFormDelimiterWith_computes hpiece htail).bind ?_
    rw [List.take_left]
    have hfield := (@extractField_computes flushBytes cancelled)
      hlimit hsize key piece found
    rcases htail with rfl | ⟨rest, rfl⟩
    · rw [List.append_nil, formValues_last hpiece hkey]
      by_cases hmatch : decodeComponent (pieceName piece) = key
      · rw [if_pos hmatch] at hfield ⊢
        rw [arrayItems, arrayItems, List.append_nil]
        have hfound : (found || !(List.isEmpty [decodeComponent (pieceValue piece)])) = true := by
          simp
        rw [hfound]
        generalize (if found = true then [0x2C] else []) ++
          JsonString.string (decodeComponent (pieceValue piece)) = text at hfield ⊢
        unfold afterWriting at hfield ⊢
        by_cases hfit : writer.output.length + text.length ≤ writer.limit - 1
        · rw [if_pos hfit] at hfield ⊢
          refine hfield.bind ?_
          dsimp only
          rw [if_pos rfl]
          exact .pure _
        · rw [if_neg hfit] at hfield ⊢
          exact hfield.bind_error
      · rw [if_neg hmatch] at hfield ⊢
        rw [arrayItems, afterWriting_nil hsize]
        refine hfield.bind ?_
        dsimp only
        rw [if_pos rfl]
        simpa using Checked.Computes.pure (writer, found)
    · have hlong : piece.length ≠ (piece ++ ampersand :: rest).length := by simp
      have hdrop : (piece ++ ampersand :: rest).drop (piece.length + 1) = rest := by
        rw [← List.drop_drop, List.drop_left]
        rfl
      have hshort : rest.length < fuel := by
        rw [List.length_append, List.length_cons] at hfuel
        omega
      rw [formValues_cons hpiece hkey]
      by_cases hmatch : decodeComponent (pieceName piece) = key
      · rw [if_pos hmatch] at hfield ⊢
        rw [arrayItems]
        have hfound : (found || !(List.isEmpty
            (decodeComponent (pieceValue piece) :: formValues key rest))) = true := by simp
        rw [hfound]
        generalize (if found = true then [0x2C] else []) ++
          JsonString.string (decodeComponent (pieceValue piece)) = text at hfield ⊢
        by_cases hfit : writer.output.length + text.length ≤ writer.limit - 1
        · unfold afterWriting at hfield
          rw [if_pos hfit] at hfield
          refine hfield.bind ?_
          dsimp only
          rw [if_neg hlong, hdrop]
          have hrest := @ih { writer with output := writer.output ++ text } rest true hshort hlimit
            (by rw [List.length_append]; exact hfit)
          rw [Bool.true_or] at hrest
          unfold afterWriting at hrest ⊢
          dsimp only at hrest
          simpa only [List.length_append, List.append_assoc, Nat.add_assoc] using hrest
        · unfold afterWriting at hfield ⊢
          rw [if_neg hfit] at hfield
          rw [if_neg (by rw [List.length_append]; omega)]
          exact hfield.bind_error
      · rw [if_neg hmatch] at hfield ⊢
        refine hfield.bind ?_
        dsimp only
        rw [if_neg hlong, hdrop]
        exact ih hshort hlimit hsize

/-- What `extract_form_values` answers. -/
def selectedArray (key input : Bytes) : Except ControlError Bytes :=
  if input.length > maxDecodedContentBytes then .error formInputLimitError
  else if formValues key input = [] then .error formFieldNotFound
  else if (JsonString.array (formValues key input)).length ≤ maxDecodedContentBytes then
    .ok (JsonString.array (formValues key input))
  else .error formOutputLimitError

theorem extractFormValuesFlushing_computes {key : Bytes} (hkey : key ≠ []) (input : Bytes) :
    Checked.Computes cancelled formCancelled
      (extractFormValuesFlushing flushBytes cancelled input key) (selectedArray key input) := by
  have hlimit : maxDecodedContentBytes = 16777216 := rfl
  unfold extractFormValuesFlushing selectedArray
  by_cases hlong : input.length > maxDecodedContentBytes
  · rw [if_pos hlong, if_pos hlong]
    exact .throw _
  rw [if_neg hlong, if_neg hlong]
  have hfields := @extractFields_computes flushBytes cancelled
    (.withLimit maxDecodedContentBytes) _ hkey _ _ false
    (Nat.lt_succ_self input.length) rfl (show 1 ≤ maxDecodedContentBytes - 1 by omega)
  rw [array_eq]
  have hlength : (0x5B :: (arrayItems false (formValues key input) ++ [0x5D])).length =
      (arrayItems false (formValues key input)).length + 2 := by simp
  rw [hlength]
  have hsize : ∀ text : Bytes, (CappedJsonArrayWriter.withLimit maxDecodedContentBytes).output.length +
      text.length = text.length + 1 := fun text => Nat.add_comm _ _
  have hroom : (CappedJsonArrayWriter.withLimit maxDecodedContentBytes).limit =
    maxDecodedContentBytes := rfl
  by_cases hnone : formValues key input = []
  · rw [if_pos hnone]
    rw [hnone, show arrayItems false [] = [] from rfl, afterWriting_nil (by rw [hroom]; exact
      (show 1 ≤ maxDecodedContentBytes - 1 by omega))] at hfields
    exact hfields.bind (.throw _)
  · rw [if_neg hnone]
    have hfound : (false || !(formValues key input).isEmpty) = true := by
      simpa using hnone
    rw [hfound] at hfields
    by_cases hfit : (arrayItems false (formValues key input)).length + 2 ≤ maxDecodedContentBytes
    · rw [if_pos hfit]
      rw [afterWriting, if_pos (by rw [hsize, hroom]; omega)] at hfields
      refine hfields.bind ?_
      dsimp only
      rw [if_neg (by decide), CappedJsonArrayWriter.finish, if_neg ?_]
      · exact .pure _
      · rw [CappedJsonArrayWriter.canFinish, List.length_append, hsize, hroom]
        simp
        omega
    · rw [if_neg hfit]
      rw [afterWriting, if_neg (by rw [hsize, hroom]; omega)] at hfields
      exact hfields.bind_error

end Fields

/-! ## Both decoders -/

section Decoders

variable {flushBytes : Nat} {cancelled : Nat → Bool}

/-- The decoder of the display over one component, up to its `finish`. -/
def pushComponent (flushBytes : Nat) (cancelled : Nat → Bool) :
    Nat → Bytes → Bytes → FormWriter Bytes
  | 0, _, bytes => finishForm cancelled bytes
  | fuel + 1, input, bytes =>
    if input = [] then finishForm cancelled bytes
    else do
      let (decoded, consumed) := decodeFormByte input
      let bytes ← pushFormByte flushBytes cancelled bytes decoded
      pushComponent flushBytes cancelled fuel (input.drop consumed) bytes

def displayComponent (flushBytes : Nat) (cancelled : Nat → Bool) (component : Bytes) :
    FormWriter Bytes :=
  pushComponent flushBytes cancelled component.length component []

theorem pushComponent_writes {fuel : Nat} {input bytes : Bytes} (hfuel : input.length ≤ fuel) :
    (limitedSink cancelled).Writes (pushComponent flushBytes cancelled fuel input bytes)
      (fromUtf8Lossy (bytes ++ componentBytes input)) [] := by
  induction fuel generalizing input bytes with
  | zero =>
    obtain rfl := List.length_eq_zero_iff.1 (Nat.le_zero.1 hfuel)
    rw [componentBytes_nil, List.append_nil]
    exact finishForm_writes bytes
  | succ fuel ih =>
    rw [pushComponent]
    by_cases hempty : input = []
    · rw [if_pos hempty, hempty, componentBytes_nil, List.append_nil]
      exact finishForm_writes bytes
    · obtain ⟨byte, consumed, hdecode, hpos, hle, hbytes⟩ :=
        (@decodeFormByte_append _ []) hempty (by intro b rest h; cases h)
      rw [List.append_nil] at hdecode
      obtain ⟨text, kept, hpush, hdecodes⟩ :=
        @pushFormByte_writes flushBytes cancelled bytes byte
      rw [if_neg hempty, hdecode, hbytes, ← List.singleton_append, ← List.append_assoc, hdecodes]
      exact hpush.bind (ih (by rw [List.length_drop]; omega))

theorem displayComponent_writes (component : Bytes) :
    (limitedSink cancelled).Writes (displayComponent flushBytes cancelled component)
      (decodeComponent component) [] :=
  pushComponent_writes (Nat.le_refl _)

/-- Under the same limit both decoders yield the same text or none. -/
theorem decoders_agree {flushBytes' limit : Nat} {component text : Bytes}
    (hcancelled : ∀ check, cancelled check = false) :
    (∃ output, displayComponent flushBytes cancelled component { limit } = .ok ([], output) ∧
        output.text = text) ↔
      (decodeWith flushBytes' cancelled limit component).outcome 0 = .ok (some text) := by
  have hwrites := (@displayComponent_writes flushBytes cancelled)
    component
  have hstop : ∀ stop, ¬ (limitedSink cancelled).Stopped stop := by
    intro stop hstopped
    cases stop with
    | refused output => exact Bool.false_ne_true ((hcancelled _).symm.trans hstopped)
    | cancelled =>
      obtain ⟨check, hcheck⟩ := hstopped
      exact Bool.false_ne_true ((hcancelled check).symm.trans hcheck)
  have hok := hwrites.ok_iff hstop (s := { limit }) (Nat.zero_le _)
  rw [show (limitedSink cancelled).size { limit } = 0 from rfl, Nat.zero_add] at hok
  rw [(decodeWith_computes limit component).uncancelled hcancelled 0]
  constructor
  · rintro ⟨output, hrun, rfl⟩
    by_cases hfit : (decodeComponent component).length ≤ limit
    · obtain ⟨written, hwritten, htext, -⟩ := hok.2 hfit
      rw [hrun] at hwritten
      cases hwritten
      rw [if_pos hfit, htext]
      rfl
    · obtain ⟨stop, herror⟩ := hwrites.overflows { limit } (Nat.zero_le _)
        (show limit < 0 + (decodeComponent component).length by omega)
      rw [hrun] at herror
      cases herror
  · intro h
    by_cases hfit : (decodeComponent component).length ≤ limit
    · rw [if_pos hfit] at h
      obtain ⟨output, hrun, htext, -⟩ := hok.2 hfit
      refine ⟨output, hrun, htext.trans ?_⟩
      exact Option.some.inj (Except.ok.inj h)
    · rw [if_neg hfit] at h
      cases h

/-- The array is selected exactly when some pair has the key and the array is not too long. -/
theorem selectedArray_eq_ok_iff {key input bytes : Bytes}
    (hinput : input.length ≤ maxDecodedContentBytes) :
    selectedArray key input = .ok bytes ↔ formValues key input ≠ [] ∧
      (JsonString.array (formValues key input)).length ≤ maxDecodedContentBytes ∧
      bytes = JsonString.array (formValues key input) := by
  unfold selectedArray
  rw [if_neg (Nat.not_lt_of_le hinput)]
  by_cases hnone : formValues key input = []
  · simp [hnone]
  rw [if_neg hnone]
  split
  · rename_i hfit
    simp [hnone, hfit, eq_comm]
  · rename_i hfit
    simp [hfit]

/-- Forms are decoded as the reference decodes them.  The decoders yield the lossy
decoding of a component wherever they flush, and agree; the display has a line for each
pair; and the values of a key are the array of the values of its pairs.  A cancellation
takes the place of an answer.  `extract_selected_bytes` has the selector validated, so no key
is empty, and the decoder lets no more than its limit through, so no input is larger. -/
theorem form_decoding (cancelled : Nat → Bool) :
    (∀ flushBytes component, (limitedSink cancelled).Writes
      (displayComponent flushBytes cancelled component) (decodeComponent component) []) ∧
    (∀ flushBytes limit component, Checked.Computes cancelled formCancelled
      (decodeWith flushBytes cancelled limit component)
      (.ok (if (decodeComponent component).length ≤ limit then some (decodeComponent component)
        else none))) ∧
    ((∀ check, cancelled check = false) → ∀ flushBytes flushBytes' limit component text,
      (∃ output, displayComponent flushBytes cancelled component { limit } = .ok ([], output) ∧
          output.text = text) ↔
        (decodeWith flushBytes' cancelled limit component).outcome 0 = .ok (some text)) ∧
    (∀ maxOutputBytes input, (formText (parse input)).length ≤ maxOutputBytes →
      formatForm cancelled maxOutputBytes input =
          .ok { text := formText (parse input), limited := false } ∨
        formatForm cancelled maxOutputBytes input = .error .cancelled ∧
          ∃ check, cancelled check = true) ∧
    (∀ input key, key ≠ [] → Checked.Computes cancelled formCancelled
      (extractFormValues cancelled input key) (selectedArray key input)) ∧
    (∀ input key bytes, input.length ≤ maxDecodedContentBytes →
      (selectedArray key input = .ok bytes ↔ formValues key input ≠ [] ∧
        (JsonString.array (formValues key input)).length ≤ maxDecodedContentBytes ∧
        bytes = JsonString.array (formValues key input))) ∧
    ∀ texts : List Text, JsonString.array (texts.map encodeText) =
      encodeText (JsonWriter.array (texts.map JsonWriter.string)) :=
  ⟨fun _ component => displayComponent_writes component,
    fun _ limit component => decodeWith_computes limit component,
    fun hcancelled _ _ _ _ _ => decoders_agree hcancelled,
    fun _ _ hfits => formatFormFlushing_eq hfits,
    fun input _ hkey => extractFormValuesFlushing_computes hkey input,
    fun _ _ _ hinput => selectedArray_eq_ok_iff hinput,
    JsonString.array_encodeText⟩

def sampleForm : Bytes := ofAscii "a+b=c%2Bd&&a%20b=%GG&x"

theorem form_decoding_sample :
    (formatForm (fun _ => false) 64 sampleForm =
        .ok { text := ofAscii "a b: c+d\na b: %GG\nx: ", limited := false } ∨
      formatForm (fun _ => false) 64 sampleForm = .error .cancelled ∧ ∃ _ : Nat, false = true) ∧
    (extractFormValues (fun _ => false) sampleForm (ofAscii "a b")).outcome 0 =
      .ok (ofAscii "[\"c+d\",\"%GG\"]") := by
  obtain ⟨-, -, -, hformat, hextract, hselected, -⟩ := form_decoding fun _ => false
  have htext : formText (parse sampleForm) = ofAscii "a b: c+d\na b: %GG\nx: " := by decide +kernel
  have hvalues : formValues (ofAscii "a b") sampleForm = [ofAscii "c+d", ofAscii "%GG"] := by
    decide +kernel
  refine ⟨?_, ?_⟩
  · rw [← htext]
    exact hformat 64 sampleForm (by rw [htext]; decide)
  · rw [(hextract sampleForm (ofAscii "a b") (by decide)).uncancelled (fun _ => rfl) 0]
    refine (hselected sampleForm (ofAscii "a b") _ (by decide)).2 ?_
    rw [hvalues]
    exact ⟨by decide, by decide, by decide⟩

end Decoders

end Fluxcope.Control
