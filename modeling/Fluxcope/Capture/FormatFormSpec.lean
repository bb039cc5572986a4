import Fluxcope.Capture.FormatForm
/-!
# The lines of a displayed form

What `format_form` writes is one line for every pair that parsing the form gives,
wherever the decoder writes out what it has.
-/

namespace Fluxcope.Capture

open Fluxcope.Library Fluxcope.Library.Utf8 Fluxcope.Library.FormUrlencoded

/-- The written text and the bytes kept stand for the bytes, whatever follows them. -/
def Decodes (bytes text kept : Bytes) : Prop :=
  ∀ future, fromUtf8Lossy (bytes ++ future) = text ++ fromUtf8Lossy (kept ++ future)

theorem Decodes.refl (bytes : Bytes) : Decodes bytes [] bytes := fun _ => rfl

theorem Decodes.trans {bytes middle kept left right more : Bytes} (h : Decodes bytes left middle)
    (h' : Decodes (middle ++ more) right kept) : Decodes (bytes ++ more) (left ++ right) kept := by
  intro future
  rw [List.append_assoc, h, ← List.append_assoc, h', List.append_assoc]

theorem Decodes.lossy {bytes text kept : Bytes} (h : Decodes bytes text kept) (more : Bytes) :
    fromUtf8Lossy (bytes ++ more) = text ++ fromUtf8Lossy (kept ++ more) := h more

/-- A line of the display. -/
def formLine (pair : Bytes × Bytes) : Bytes := pair.1 ++ separator ++ pair.2

/-- The lines that follow, each behind a line break but for the very first. -/
def formLines : Bool → List (Bytes × Bytes) → Bytes
  | _, [] => []
  | started, pair :: pairs =>
    (if started then newline else []) ++ (formLine pair ++ formLines true pairs)

/-- The display of a form: its lines with line breaks between them. -/
def formText (pairs : List (Bytes × Bytes)) : Bytes := newline.intercalate (pairs.map formLine)

theorem formLines_started (pair : Bytes × Bytes) (pairs : List (Bytes × Bytes)) :
    formLines true (pair :: pairs) = newline ++ formText (pair :: pairs) := by
  induction pairs generalizing pair with
  | nil => simp [formLines, formText]
  | cons next pairs ih =>
    rw [formLines, ih next]
    simp [formText]

theorem formLines_eq (pairs : List (Bytes × Bytes)) : formLines false pairs = formText pairs := by
  cases pairs with
  | nil => rfl
  | cons pair pairs =>
    rw [formLines, if_neg Bool.false_ne_true, List.nil_append]
    cases pairs with
    | nil => simp [formLines, formText]
    | cons next pairs =>
      rw [formLines_started]
      simp [formText]

/-! ## Components -/

section Scan

variable {flushBytes : Nat} {cancelled : Nat → Bool}

theorem valid_separator : Valid separator := by
  refine fromUtf8_eq_none_iff.1 ?_
  decide

theorem valid_newline : Valid newline := by
  refine fromUtf8_eq_none_iff.1 ?_
  decide

theorem pushFormByte_writes (bytes : Bytes) (byte : UInt8) : ∃ text kept,
    (limitedSink cancelled).Writes (pushFormByte flushBytes cancelled bytes byte) text kept ∧
      Decodes (bytes ++ [byte]) text kept := by
  unfold pushFormByte
  split
  · exact flush_false (fun _ hvalid => LimitedString.writeStr_writes hvalid) _
  · exact ⟨[], _, .pure _, .refl _⟩

theorem finishForm_writes (bytes : Bytes) :
    (limitedSink cancelled).Writes (finishForm cancelled bytes) (fromUtf8Lossy bytes) [] :=
  flush_true (fun _ hvalid => LimitedString.writeStr_writes hvalid) bytes

theorem writeWhen_writes {condition : Bool} {text : Bytes} (hvalid : Valid text) :
    (limitedSink cancelled).Writes (writeWhen cancelled condition text)
      (if condition then text else []) () := by
  cases condition with
  | true => exact LimitedString.writeStr_writes hvalid
  | false => exact .pure ()

theorem advance_writes (scan : FormScan) (consumed : Nat) : ∃ after : FormScan,
    (limitedSink cancelled).Writes (scan.advance cancelled consumed) [] after ∧
      after.decoder = scan.decoder := by
  obtain ⟨checkpoint, hcheckpoint⟩ :=
    @checkpointFormScan_writes cancelled (scan.index + consumed) scan.checkpoint
  exact ⟨_, hcheckpoint.bind_pure (.pure _), rfl⟩

/-- What may stand behind a component. -/
def Ends (tail : Bytes) : Prop := tail = [] ∨ ∃ rest, tail = ampersand :: rest

theorem Ends.hexValue {tail : Bytes} (h : Ends tail) :
    ∀ b rest, tail = b :: rest → hexValue b = none := by
  rintro b rest rfl
  rcases h with h | ⟨rest', h⟩
  · cases h
  · obtain rfl := (List.cons.inj h).1
    decide

theorem scanPair_tail {tail : Bytes} (h : Ends tail) (fuel : Nat) (value : Bool) (scan : FormScan) :
    scanPair flushBytes cancelled fuel tail value scan = pure (tail, value, scan) := by
  cases fuel with
  | zero => rfl
  | succ fuel =>
    rcases h with rfl | ⟨rest, rfl⟩
    · rfl
    · rw [scanPair]
      exact if_pos rfl

/-- A component without a sign that would end it. -/
theorem scanPair_component {fuel : Nat} {piece tail : Bytes} {value : Bool} {scan : FormScan}
    (hfuel : piece.length ≤ fuel) (hpiece : ampersand ∉ piece)
    (hvalue : value = true ∨ equalsSign ∉ piece) (htail : Ends tail) : ∃ text after,
      (limitedSink cancelled).Writes (scanPair flushBytes cancelled fuel (piece ++ tail) value scan)
        text (tail, value, after) ∧
      Decodes (scan.decoder ++ componentBytes piece) text after.decoder := by
  induction fuel generalizing piece scan with
  | zero =>
    obtain rfl := List.length_eq_zero_iff.1 (Nat.le_zero.1 hfuel)
    refine ⟨[], scan, .pure _, ?_⟩
    rw [componentBytes_nil, List.append_nil]
    exact .refl _
  | succ fuel ih =>
    by_cases hempty : piece = []
    · subst hempty
      rw [List.nil_append, scanPair_tail htail, componentBytes_nil, List.append_nil]
      exact ⟨[], scan, .pure _, .refl _⟩
    obtain ⟨byte, consumed, hdecode, hpos, hle, hbytes⟩ :=
      decodeFormByte_append hempty htail.hexValue
    cases hcons : piece with
    | nil => exact absurd hcons hempty
    | cons first rest =>
      have hfirst : first ∈ piece := by rw [hcons]; exact List.mem_cons_self
      have hamp : first ≠ ampersand := fun heq => hpiece (heq ▸ hfirst)
      rw [← hcons]
      have hloop : scanPair flushBytes cancelled (fuel + 1) (piece ++ tail) value scan =
          (pushFormByte flushBytes cancelled scan.decoder byte >>= fun decoder =>
            FormScan.advance cancelled { scan with decoder } consumed >>= fun scan =>
              scanPair flushBytes cancelled fuel ((piece ++ tail).drop consumed) value scan) := by
        rw [hcons, List.cons_append, scanPair]
        dsimp only
        rw [if_neg hamp, if_neg ?_, ← List.cons_append, ← hcons, hdecode]
        rcases hvalue with rfl | hnone
        · simp
        · have hequals : first ≠ equalsSign := fun heq => hnone (heq ▸ hfirst)
          simp [hequals]
      have hdropped : ∀ sign, sign ∉ piece → sign ∉ piece.drop consumed :=
        fun sign h hmem => h (List.mem_of_mem_drop hmem)
      obtain ⟨text, kept, hpush, hdecodes⟩ :=
        @pushFormByte_writes flushBytes cancelled scan.decoder byte
      obtain ⟨moved, hmoved, hdecoder⟩ := @advance_writes cancelled
        { scan with decoder := kept } consumed
      obtain ⟨more, after, hrest, hmore⟩ := @ih (piece.drop consumed) moved
        (by rw [List.length_drop]; omega) (hdropped _ hpiece)
        (hvalue.imp_right (hdropped _))
      rw [hdecoder] at hmore
      refine ⟨text ++ more, after, ?_, ?_⟩
      · rw [hloop, List.drop_append_of_le_length hle]
        exact hpush.bind (hmoved.bind_nil hrest)
      · have hsplit : scan.decoder ++ componentBytes piece =
            (scan.decoder ++ [byte]) ++ componentBytes (piece.drop consumed) := by
          rw [hbytes, List.append_assoc, List.singleton_append]
        rw [hsplit]
        exact hdecodes.trans hmore

/-- A name, its equals sign and a value. -/
theorem scanPair_named {fuel : Nat} {name value tail : Bytes} {scan : FormScan}
    (hfuel : (name ++ equalsSign :: value).length ≤ fuel) (hname : ampersand ∉ name)
    (hequals : equalsSign ∉ name) (hvalue : ampersand ∉ value) (htail : Ends tail) :
    ∃ text after,
      (limitedSink cancelled).Writes
        (scanPair flushBytes cancelled fuel (name ++ equalsSign :: value ++ tail) false scan)
        (fromUtf8Lossy (scan.decoder ++ componentBytes name) ++ (separator ++ text))
        (tail, true, after) ∧
      Decodes (componentBytes value) text after.decoder := by
  induction fuel generalizing name scan with
  | zero => simp at hfuel
  | succ fuel ih =>
    rw [List.length_append, List.length_cons] at hfuel
    by_cases hempty : name = []
    · subst hempty
      have hloop : scanPair flushBytes cancelled (fuel + 1) ([] ++ equalsSign :: value ++ tail)
          false scan =
            (finishForm cancelled scan.decoder >>= fun decoder =>
              LimitedString.writeStr cancelled separator >>= fun _ =>
                FormScan.advance cancelled { scan with decoder } 1 >>= fun scan =>
                  scanPair flushBytes cancelled fuel (value ++ tail) true scan) := by
        rw [List.nil_append, List.cons_append, scanPair]
        dsimp only
        rw [if_neg (by decide), if_pos (by decide)]
      obtain ⟨moved, hmoved, hdecoder⟩ := @advance_writes cancelled
        { scan with decoder := [] } 1
      obtain ⟨text, after, hrest, hdecodes⟩ :=
        @scanPair_component flushBytes cancelled fuel value _ true moved (by omega) hvalue
          (.inl rfl) htail
      rw [hdecoder, List.nil_append] at hdecodes
      refine ⟨text, after, ?_, hdecodes⟩
      rw [hloop, componentBytes_nil, List.append_nil]
      exact (finishForm_writes scan.decoder).bind
        ((LimitedString.writeStr_writes valid_separator).bind (hmoved.bind_nil hrest))
    · have hstops : ∀ b rest, equalsSign :: value ++ tail = b :: rest → hexValue b = none := by
        intro b rest heq
        obtain rfl := (List.cons.inj heq).1
        decide
      obtain ⟨byte, consumed, hdecode, hpos, hle, hbytes⟩ := decodeFormByte_append hempty hstops
      cases hcons : name with
      | nil => exact absurd hcons hempty
      | cons first rest =>
        have hfirst : first ∈ name := by rw [hcons]; exact List.mem_cons_self
        have hamp : first ≠ ampersand := fun heq => hname (heq ▸ hfirst)
        rw [← hcons]
        have hloop : scanPair flushBytes cancelled (fuel + 1)
            (name ++ equalsSign :: value ++ tail) false scan =
              (pushFormByte flushBytes cancelled scan.decoder byte >>= fun decoder =>
                FormScan.advance cancelled { scan with decoder } consumed >>= fun scan =>
                  scanPair flushBytes cancelled fuel
                    ((name ++ (equalsSign :: value ++ tail)).drop consumed) false scan) := by
          rw [List.append_assoc, hcons, List.cons_append, scanPair]
          dsimp only
          rw [if_neg hamp, if_neg ?_, ← List.cons_append, ← hcons, hdecode]
          have hother : first ≠ equalsSign := fun heq => hequals (heq ▸ hfirst)
          simp [hother]
        have hdropped : ∀ sign, sign ∉ name → sign ∉ name.drop consumed :=
          fun sign h hmem => h (List.mem_of_mem_drop hmem)
        obtain ⟨text, kept, hpush, hdecodes⟩ :=
        @pushFormByte_writes flushBytes cancelled scan.decoder byte
        obtain ⟨moved, hmoved, hdecoder⟩ := @advance_writes cancelled
          { scan with decoder := kept } consumed
        obtain ⟨more, after, hrest, hmore⟩ := @ih (name.drop consumed) moved
          (by rw [List.length_append, List.length_drop, List.length_cons]; omega)
          (hdropped _ hname) (hdropped _ hequals)
        rw [hdecoder] at hrest
        refine ⟨more, after, ?_, hmore⟩
        have htext : fromUtf8Lossy (scan.decoder ++ componentBytes name) =
            text ++ fromUtf8Lossy (kept ++ componentBytes (name.drop consumed)) := by
          rw [hbytes, ← List.singleton_append, ← List.append_assoc]
          exact hdecodes _
        rw [hloop, List.drop_append_of_le_length hle, htext, List.append_assoc text]
        rw [List.append_assoc] at hrest
        exact hpush.bind (hmoved.bind_nil hrest)

/-! ## Pairs -/

/-- A pair is displayed as its line. -/
theorem formatPair_writes {piece tail : Bytes} {scan : FormScan} (hpiece : ampersand ∉ piece)
    (htail : Ends tail) (hdecoder : scan.decoder = []) : ∃ after,
      (limitedSink cancelled).Writes (formatPair flushBytes cancelled (piece ++ tail) scan)
        (formLine (decodeComponent (pieceName piece), decodeComponent (pieceValue piece)))
        (tail, after) ∧
      after.decoder = [] := by
  have hlength : piece.length ≤ (piece ++ tail).length := by
    rw [List.length_append]
    exact Nat.le_add_right _ _
  by_cases hequals : equalsSign ∈ piece
  · obtain ⟨name, value, rfl, hname⟩ := List.eq_append_cons_of_mem hequals
    obtain ⟨hpieceName, hpieceValue⟩ := @piece_of_equals _ value hname
    obtain ⟨text, after, hscan, hdecodes⟩ :=
      @scanPair_named flushBytes cancelled _ _ _ _ scan hlength
        (fun hmem => hpiece (List.mem_append_left _ hmem)) hname
      (fun hmem => hpiece (List.mem_append_right _ (List.mem_cons_of_mem _ hmem))) htail
    have hvalue : text ++ fromUtf8Lossy after.decoder = decodeComponent value := by
      have hend := hdecodes.lossy []
      rw [List.append_nil, List.append_nil] at hend
      exact hend.symm
    refine ⟨{ after with decoder := [] }, ?_, rfl⟩
    refine (hscan.bind ((finishForm_writes after.decoder).bind
      ((writeWhen_writes valid_separator).bind_pure (f := fun _ => pure _) (.pure _)))).congr ?_
    rw [hpieceName, hpieceValue, formLine, ← hvalue, hdecoder]
    simp [decodeComponent]
  · obtain ⟨hpieceName, hpieceValue⟩ := piece_of_no_equals hequals
    obtain ⟨text, after, hscan, hdecodes⟩ :=
      @scanPair_component flushBytes cancelled _ _ _ false scan hlength hpiece (.inr hequals) htail
    have hname : text ++ fromUtf8Lossy after.decoder = decodeComponent piece := by
      have hend := hdecodes.lossy []
      rw [hdecoder, List.nil_append, List.append_nil, List.append_nil] at hend
      exact hend.symm
    refine ⟨{ after with decoder := [] }, ?_, rfl⟩
    refine (hscan.bind ((finishForm_writes after.decoder).bind
      ((writeWhen_writes valid_separator).bind_pure (f := fun _ => pure _) (.pure _)))).congr ?_
    rw [hpieceName, hpieceValue, formLine, ← hname]
    simp [decodeComponent]

/-- The piece in front of the first ampersand. -/
theorem exists_piece (input : Bytes) :
    ∃ piece tail, input = piece ++ tail ∧ ampersand ∉ piece ∧ Ends tail := by
  by_cases hmem : ampersand ∈ input
  · obtain ⟨piece, rest, rfl, hpiece⟩ := List.eq_append_cons_of_mem hmem
    exact ⟨piece, ampersand :: rest, rfl, hpiece, .inr ⟨rest, rfl⟩⟩
  · exact ⟨input, [], (List.append_nil _).symm, hmem, .inl rfl⟩

theorem formatPairs_writes {fuel : Nat} {input : Bytes} {pairCount : Nat} {scan : FormScan}
    (hfuel : input.length ≤ fuel) (hdecoder : scan.decoder = []) :
    (limitedSink cancelled).Writes (formatPairs flushBytes cancelled fuel input pairCount scan)
      (formLines (pairCount > 0) (parse input)) () := by
  induction fuel generalizing input pairCount scan with
  | zero =>
    obtain rfl := List.length_eq_zero_iff.1 (Nat.le_zero.1 hfuel)
    rw [parse_nil]
    exact .pure ()
  | succ fuel ih =>
    cases hinput : input with
    | nil =>
      rw [parse_nil]
      exact .pure ()
    | cons byte rest =>
      rw [hinput, List.length_cons] at hfuel
      by_cases hamp : byte = ampersand
      · subst hamp
        obtain ⟨after, hadvance, hafter⟩ := @advance_writes cancelled scan 1
        rw [formatPairs, parse_ampersand]
        dsimp only
        rw [if_pos rfl]
        exact hadvance.bind_nil (ih (by omega) (hafter.trans hdecoder))
      · obtain ⟨piece, tail, hsplit, hpiece, htail⟩ := exists_piece (byte :: rest)
        have hne : piece ≠ [] := by
          rintro rfl
          rcases htail with rfl | ⟨more, rfl⟩
          · cases hsplit
          · exact hamp (List.cons.inj hsplit).1
        obtain ⟨after, hpair, hafter⟩ :=
          (@formatPair_writes flushBytes cancelled) hpiece htail hdecoder
        rw [formatPairs]
        dsimp only
        rw [if_neg hamp, hsplit]
        have hlines : ∀ pairs, formLines (pairCount > 0)
            ((decodeComponent (pieceName piece), decodeComponent (pieceValue piece)) :: pairs) =
              (if decide (pairCount > 0) = true then newline else []) ++ (formLine
                (decodeComponent (pieceName piece), decodeComponent (pieceValue piece)) ++
                  formLines true pairs) := fun pairs => rfl
        rcases htail with rfl | ⟨more, rfl⟩
        · rw [List.append_nil] at hpair ⊢
          rw [parse_last hpiece hne, hlines]
          refine (writeWhen_writes valid_newline).bind (hpair.bind ?_)
          exact .pure ()
        · obtain ⟨moved, hmoved, hdecoder'⟩ := @advance_writes cancelled after 1
          have hshort : more.length ≤ fuel := by
            have hlength := congrArg List.length hsplit
            rw [List.length_cons, List.length_append, List.length_cons] at hlength
            omega
          have hrest := @ih more (pairCount + 1) moved hshort
            (hdecoder'.trans hafter)
          have hstarted : decide (pairCount + 1 > 0) = true := decide_eq_true (Nat.succ_pos _)
          rw [hstarted] at hrest
          rw [parse_cons_of_ne hpiece hne, hlines]
          exact (writeWhen_writes valid_newline).bind
            (hpair.bind (hmoved.bind_nil hrest))

/-- A form whose display fits is displayed as its lines, or the display is cancelled. -/
theorem formatFormFlushing_eq {maxOutputBytes : Nat} {input : Bytes}
    (hfits : (formText (parse input)).length ≤ maxOutputBytes) :
    formatFormFlushing flushBytes cancelled maxOutputBytes input =
        .ok { text := formText (parse input), limited := false } ∨
      formatFormFlushing flushBytes cancelled maxOutputBytes input = .error .cancelled ∧
        ∃ check, cancelled check = true := by
  have hwrites := @formatPairs_writes flushBytes cancelled _ _ 0 {} (Nat.le_refl input.length) rfl
  rw [show decide (0 > 0) = false from rfl, formLines_eq] at hwrites
  unfold formatFormFlushing
  have hcancel : ∀ output : LimitedString, cancelled output.check = true →
      finishFormatting cancelled output = .error .cancelled := by
    intro output h
    unfold finishFormatting checkContentCancelled
    rw [if_pos h]
    rfl
  rcases hwrites.fits { limit := maxOutputBytes }
    (by rw [show (limitedSink cancelled).size { limit := maxOutputBytes } = 0 from rfl,
      Nat.zero_add]; exact hfits) with ⟨output, hok, htext, -, hlimited⟩ | ⟨stop, herror, hstop⟩
  · rw [hok]
    dsimp only
    by_cases hcancelled : cancelled output.check = true
    · exact .inr ⟨hcancel output hcancelled, output.check, hcancelled⟩
    · refine .inl ?_
      unfold finishFormatting checkContentCancelled
      rw [if_neg hcancelled, htext, hlimited]
      rfl
  · rw [herror]
    cases stop with
    | refused output => exact .inr ⟨hcancel output hstop, output.check, hstop⟩
    | cancelled => exact .inr ⟨rfl, hstop⟩

end Scan

end Fluxcope.Capture
