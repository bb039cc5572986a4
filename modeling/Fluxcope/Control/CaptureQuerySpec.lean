import Fluxcope.Control.CompiledCaptureQuery
/-!
# A compiled query holds of a capture when its criteria do

A text criterion is about the case folding of a whole value.  Scanning the value
by pieces, with checks for a cancellation in between, gives the same answer.
-/

namespace Fluxcope.Control

open Fluxcope.Library Fluxcope.Library.Utf8 Fluxcope.Capture

/-! ## What a query says -/

variable (p : QueryPackages)

/-- The case folding of the value contains that of the needle. -/
def QueryPackages.Contains (value needle : Bytes) : Prop := p.fold needle <:+: p.fold value

def CaptureTextFilter.Holds (filter : CaptureTextFilter) (value : Bytes) : Prop :=
  match filter with
  | .substring needle => p.Contains value needle
  | .glob pattern =>
    ∃ matcher, p.buildGlob (p.fold pattern).flatten = .ok matcher ∧
      p.isMatch matcher (p.fold value).flatten = true

/-- The texts that a text criterion is about. -/
def searchedTexts (s : CaptureSnapshot) : List Bytes :=
  [s.request.method, s.request.originalUri, s.request.effectiveUri] ++
    s.response.toList.map (fun response => decimal response.status) ++
    (allHeaders s).flatMap fun header => [header.1, header.2]

/-- Every criterion that is given holds of the capture. -/
structure CaptureQuery.Holds (q : CaptureQuery) (s : CaptureSnapshot) : Prop where
  method : ∀ x, q.method = some x → p.fold s.request.method = p.fold x
  originalUrl : ∀ filter, q.originalUrl = some filter → filter.Holds p s.request.originalUri
  effectiveUrl : ∀ filter, q.effectiveUrl = some filter → filter.Holds p s.request.effectiveUri
  status : ∀ filter, q.status = some filter → ∃ response, s.response = some response ∧
    (∀ x, filter.exact = some x → response.status = x) ∧
    (∀ x, filter.minimum = some x → x ≤ response.status) ∧
    (∀ x, filter.maximum = some x → response.status ≤ x)
  header : ∀ filter, q.header = some filter → ∃ header ∈ allHeaders s,
    p.fold header.1 = p.fold filter.name ∧
      ∀ value, filter.value = some value → p.Contains header.2 value
  mappingPath : ∀ x, q.mappingPath = some x → classifyMapping s = x
  lifecycle : ∀ x, q.lifecycle = some x → classifyLifecycle s = x
  startedAtMin : ∀ x, q.startedAtMin = some x →
    ∃ instant, p.parseFromRfc3339 x = some instant ∧ instant ≤ s.timing.startedAt
  startedAtMax : ∀ x, q.startedAtMax = some x →
    ∃ instant, p.parseFromRfc3339 x = some instant ∧ s.timing.startedAt ≤ instant
  sequenceMin : ∀ x, q.sequenceMin = some x → x ≤ s.sequence
  sequenceMax : ∀ x, q.sequenceMax = some x → s.sequence ≤ x
  text : ∀ x, q.text = some x → ∃ value ∈ searchedTexts s, p.Contains value x

/-- The texts of a capture are strings. -/
structure HasTexts (s : CaptureSnapshot) : Prop where
  method : Valid s.request.method
  originalUri : Valid s.request.originalUri
  effectiveUri : Valid s.request.effectiveUri
  headers : ∀ header ∈ allHeaders s, Valid header.1

/-! ## Searching by pieces -/

variable {p} {cancelled : Nat → Bool}

/-- A step of a scan decides what the rest of it does, with or without a cancellation. -/
abbrev SearchDecides (cancelled : Nat → Bool) (m : Checked ControlError Bool) (P : Prop) : Prop :=
  Checked.Decides cancelled searchCancelled m P

theorem checkScan_computes (due : Bool) (scanned : Nat) :
    ∃ rest, Checked.Computes cancelled searchCancelled (checkScan cancelled due scanned)
      (.ok rest) := by
  unfold checkScan
  cases due with
  | true => exact ⟨0, .bind .check (.pure 0)⟩
  | false => exact ⟨scanned, .pure scanned⟩

/-- What one character does to a search that has not found the pattern yet. -/
theorem matchFolded_cases {needle : CompiledSubstring} {text : List Bytes} {matched : Nat}
    (units : List Bytes) (h : Kmp.LongestBelow needle.pattern needle.pattern.length text matched)
    (hnot : ¬ needle.pattern <:+: text) :
    (matchFolded needle units matched = none ∧ needle.pattern <:+: text ++ units) ∨
    ∃ k, matchFolded needle units matched = some k ∧
      Kmp.LongestBelow needle.pattern needle.pattern.length (text ++ units) k ∧
      ¬ needle.pattern <:+: text ++ units := by
  induction units generalizing text matched with
  | nil => exact .inr ⟨matched, rfl, by rwa [List.append_nil], by rwa [List.append_nil]⟩
  | cons folded rest ih =>
    rw [matchFolded, needle.failure_eq, List.append_cons]
    split
    case isTrue hfull =>
        have hends := (Kmp.advance_eq_length_iff h folded).1 hfull
        exact .inl ⟨rfl, hends.isInfix.trans (List.prefix_append _ rest).isInfix⟩
    case isFalse hne =>
        refine ih (Kmp.advance_of_ne h hne) fun hinfix => ?_
        rcases List.infix_concat_iff.1 hinfix with hends | hbefore
        · exact hne ((Kmp.advance_eq_length_iff h folded).2 hends)
        · exact hnot hbefore

theorem scanFolded_decides {needle : CompiledSubstring} (originals : List Bytes)
    {text : List Bytes} {matched : Nat}
    (h : Kmp.LongestBelow needle.pattern needle.pattern.length text matched)
    (hnot : ¬ needle.pattern <:+: text) (scanned : Nat) :
    SearchDecides cancelled (scanFolded p cancelled needle originals matched scanned)
      (needle.pattern <:+: text ++ originals.flatMap p.caseFold) := by
  induction originals generalizing text matched scanned with
  | nil =>
    rw [scanFolded, List.flatMap_nil, List.append_nil]
    exact .after .check (.pure (iff_of_false Bool.false_ne_true hnot))
  | cons original rest ih =>
    rw [scanFolded, List.flatMap_cons, ← List.append_assoc]
    obtain ⟨scanned', hscanned'⟩ := @checkScan_computes cancelled
      (scanned != 0 && scanned + original.length > scanQuantum) scanned
    refine .after hscanned' ?_
    rcases matchFolded_cases (p.caseFold original) h hnot with ⟨hfound, hinfix⟩ | ⟨k, hnext, hk, hk'⟩
    · dsimp only
      rw [hfound]
      refine .after .check (.pure (iff_of_true rfl ?_))
      exact hinfix.trans (List.prefix_append _ _).isInfix
    · dsimp only
      rw [hnext]
      obtain ⟨scanned'', hscanned''⟩ := @checkScan_computes cancelled
        (scanned' + original.length = scanQuantum) (scanned' + original.length)
      exact .after hscanned'' (ih hk hk' scanned'')

/-- The search by pieces finds what a search in the folded value finds. -/
theorem containsFoldedChecked_decides (value : Bytes) (needle : CompiledSubstring) :
    SearchDecides cancelled (containsFoldedChecked p cancelled value needle)
      (needle.pattern <:+: p.fold value) := by
  unfold containsFoldedChecked
  refine .after .check ?_
  split
  case isTrue hempty =>
      rw [List.isEmpty_iff.1 hempty]
      exact .pure (iff_of_true rfl List.nil_infix)
  case isFalse hempty =>
      have hpos : 0 < needle.pattern.length :=
        List.length_pos_iff.2 fun hnil => hempty (List.isEmpty_iff.2 hnil)
      have hstart : Kmp.LongestBelow needle.pattern needle.pattern.length [] 0 :=
        .start hpos (Nat.le_refl _)
      refine scanFolded_decides (chars value) hstart (fun hinfix => ?_) 0
      rw [List.infix_nil.1 hinfix] at hpos
      exact absurd hpos (Nat.lt_irrefl 0)

/-! ## Folding by pieces -/

theorem alignDown_le (v : Bytes) (start stop : Nat) : alignDown v start stop ≤ stop := by
  induction stop with
  | zero => exact Nat.le_refl 0
  | succ stop ih =>
    rw [alignDown]
    split
    · exact Nat.le_succ_of_le ih
    · exact Nat.le_refl _

theorem alignDown_isBoundary {v : Bytes} (hvalid : Valid v) {start stop : Nat} (hle : start ≤ stop) :
    alignDown v start stop = start ∨
      start < alignDown v start stop ∧ IsBoundary v (alignDown v start stop) := by
  induction stop with
  | zero => exact .inl (by rw [alignDown]; omega)
  | succ stop ih =>
    rw [alignDown]
    split
    case isTrue hback =>
        simp only [Bool.and_eq_true, decide_eq_true_eq] at hback
        exact ih (by omega)
    case isFalse hstop =>
        rw [← isCharBoundary_iff hvalid]
        simp only [Bool.and_eq_true, decide_eq_true_eq, Bool.not_eq_true', not_and,
          Bool.not_eq_false] at hstop
        by_cases hlt : start < stop + 1
        · exact .inr ⟨hlt, hstop hlt⟩
        · exact .inl (by omega)

/-- A piece ends behind its start, between two characters. -/
theorem foldEnd_isBoundary {v : Bytes} (hvalid : Valid v) {start : Nat} (hlt : start < v.length)
    (hstart : IsBoundary v start) :
    start < foldEnd v start ∧ foldEnd v start ≤ v.length ∧ IsBoundary v (foldEnd v start) := by
  unfold foldEnd
  have hle := alignDown_le v start (min (start + scanQuantum) v.length)
  dsimp only
  split
  case isTrue =>
      obtain ⟨hchars, hflatten⟩ := (hvalid.cut hstart).2.chars
      have hlength := congrArg List.length hflatten
      rw [List.length_drop] at hlength
      split
      case h_1 first second rest heq =>
          rw [heq, List.flatten_cons, List.length_append] at hlength
          rw [heq] at hchars
          have hpos := (hchars first List.mem_cons_self).length_pos
          refine ⟨by omega, by omega, ?_⟩
          have htake : (v.take start).length = start := List.length_take_of_le (Nat.le_of_lt hlt)
          rw [← List.take_append_drop start v, ← hflatten, heq, List.flatten_cons]
          rw [isBoundary_append_iff (by omega), htake, Nat.add_sub_cancel_left,
            isBoundary_append_iff (Nat.le_refl _), Nat.sub_self]
          exact Valid.isBoundary_zero
            ⟨second :: rest, fun c hc => hchars c (List.mem_cons_of_mem first hc), rfl⟩
      case h_2 => exact ⟨hlt, Nat.le_refl _, isBoundary_length v⟩
  case isFalse hne =>
      obtain ⟨hgt, hboundary⟩ := (alignDown_isBoundary hvalid
        (show start ≤ min (start + scanQuantum) v.length by omega)).resolve_left hne
      exact ⟨hgt, by omega, hboundary⟩

theorem foldLoop_computes {v : Bytes} (hvalid : Valid v) {fuel start : Nat}
    (hfuel : v.length ≤ start + fuel) (hle : start ≤ v.length) (hstart : IsBoundary v start) :
    Checked.Computes cancelled searchCancelled
      (foldLoop p cancelled v fuel start (p.fold (v.take start))) (.ok (p.fold v)) := by
  induction fuel generalizing start with
  | zero =>
    rw [foldLoop, List.take_of_length_le (by omega)]
    exact .pure _
  | succ fuel ih =>
    rw [foldLoop]
    split
    case isFalse hge =>
        rw [List.take_of_length_le (by omega)]
        exact .pure _
    case isTrue hlt =>
        obtain ⟨hgt, hend, hboundary⟩ := foldEnd_isBoundary hvalid hlt hstart
        have hpiece := hvalid.slice hstart hboundary (Nat.le_of_lt hgt) hle
        have hjoin : p.fold (v.take start) ++
            p.fold ((v.drop start).take (foldEnd v start - start)) =
            p.fold (v.take (foldEnd v start)) := by
          unfold QueryPackages.fold
          rw [← List.flatMap_append, ← (hvalid.cut hstart).1.chars_append hpiece,
            ← List.take_add, Nat.add_sub_of_le (Nat.le_of_lt hgt)]
        refine .bind .check (.bind .check ?_)
        rw [hjoin]
        exact ih (by omega) hend hboundary

theorem foldChecked_computes {v : Bytes} (hvalid : Valid v) :
    Checked.Computes cancelled searchCancelled (foldChecked p cancelled v) (.ok (p.fold v)) := by
  have hloop := @foldLoop_computes p cancelled v hvalid v.length 0 (by omega) (Nat.zero_le _)
    hvalid.isBoundary_zero
  rwa [List.take_zero] at hloop

/-! ## Criteria -/

theorem compileText_decides {filter : CaptureTextFilter} {compiled : CompiledTextFilter p.Glob}
    {value : Bytes} (hvalid : Valid value) (h : compileText p filter = .ok compiled) :
    SearchDecides cancelled (compiled.isMatch p cancelled value) (filter.Holds p value) := by
  cases filter with
  | substring needle =>
    cases h
    exact containsFoldedChecked_decides value (.new p needle)
  | glob pattern =>
    unfold compileText at h
    dsimp only at h
    cases hbuild : p.buildGlob (p.fold pattern).flatten with
    | error error =>
      rw [hbuild] at h
      cases h
    | ok matcher =>
      rw [hbuild] at h
      cases h
      refine .after (foldChecked_computes hvalid) (.pure ?_)
      constructor
      · exact fun hmatch => ⟨matcher, hbuild, hmatch⟩
      · rintro ⟨matcher', hbuild', hmatch⟩
        cases hbuild.symm.trans hbuild'
        exact hmatch

theorem headerMatch_decides (name : List Bytes) (expected : Option Bytes)
    {headers : List (Bytes × Bytes)} (hvalid : ∀ header ∈ headers, Valid header.1) :
    SearchDecides cancelled
      (headerMatch p cancelled name (expected.map (CompiledSubstring.new p)) headers)
      (∃ header ∈ headers, p.fold header.1 = name ∧
        ∀ value, expected = some value → p.Contains header.2 value) := by
  induction headers with
  | nil => exact .pure (iff_of_false Bool.false_ne_true (by simp))
  | cons header rest ih =>
    obtain ⟨headerName, headerValue⟩ := header
    have hrest := ih fun header hmem => hvalid header (List.mem_cons_of_mem _ hmem)
    unfold headerMatch
    refine .after .check (.after (foldChecked_computes (hvalid _ List.mem_cons_self)) ?_)
    simp only [List.exists_mem_cons_iff]
    split
    case isTrue hne => exact hrest.congr (by simp [hne])
    case isFalse hname =>
        rw [Decidable.not_not] at hname
        cases expected with
        | none => exact .pure (iff_of_true rfl (.inl ⟨hname, fun value hvalue => (by cases hvalue)⟩))
        | some value =>
          refine .branch (containsFoldedChecked_decides headerValue (.new p value)) ?_ ?_
          · intro hcontains
            refine .pure (iff_of_true rfl (.inl ⟨hname, fun value' hvalue' => ?_⟩))
            cases hvalue'
            exact hcontains
          · intro hnot
            refine hrest.congr ⟨.inr, fun h => h.resolve_left fun hhere => ?_⟩
            exact hnot (hhere.2 value rfl)

theorem anyContains_decides (needle : Bytes) (values : List Bytes) :
    SearchDecides cancelled (anyContains p cancelled (.new p needle) values)
      (∃ value ∈ values, p.Contains value needle) := by
  induction values with
  | nil => exact .pure (iff_of_false Bool.false_ne_true (by simp))
  | cons value rest ih =>
    rw [anyContains]
    simp only [List.exists_mem_cons_iff]
    refine .branch (containsFoldedChecked_decides value (.new p needle)) ?_ ?_
    · exact fun hhere => .pure (iff_of_true rfl (.inl hhere))
    · exact fun hnot => ih.congr ⟨.inr, fun h => h.resolve_left hnot⟩

theorem headersContain_decides (needle : Bytes) (headers : List (Bytes × Bytes)) :
    SearchDecides cancelled (headersContain p cancelled (.new p needle) headers)
      (∃ value ∈ headers.flatMap fun header => [header.1, header.2], p.Contains value needle) := by
  induction headers with
  | nil => exact .pure (iff_of_false Bool.false_ne_true (by simp))
  | cons header rest ih =>
    obtain ⟨name, value⟩ := header
    rw [headersContain, List.flatMap_cons]
    refine .after .check (.branch (anyContains_decides needle [name, value]) ?_ ?_)
    · rintro ⟨value, hmem, hhere⟩
      exact .pure (iff_of_true rfl ⟨value, List.mem_append_left _ hmem, hhere⟩)
    · intro hnot
      refine ih.congr ⟨?_, ?_⟩
      · rintro ⟨value, hmem, hlater⟩
        exact ⟨value, List.mem_append_right _ hmem, hlater⟩
      · rintro ⟨value, hmem, hsome⟩
        rcases List.mem_append.1 hmem with hhere | hlater
        · exact absurd ⟨value, hhere, hsome⟩ hnot
        · exact ⟨value, hlater, hsome⟩

theorem textMatch_decides (s : CaptureSnapshot) (needle : Bytes) :
    SearchDecides cancelled (textMatch p cancelled s (.new p needle))
      (∃ value ∈ searchedTexts s, p.Contains value needle) := by
  unfold textMatch searchedTexts
  simp only [List.mem_append, or_and_right, exists_or]
  refine .branch (anyContains_decides needle _) ?_ fun hnot => ?_
  · exact fun hrequest => .pure (iff_of_true rfl (.inl (.inl hrequest)))
  refine .branch (anyContains_decides needle _) ?_ fun hnot' => ?_
  · exact fun hstatus => .pure (iff_of_true rfl (.inl (.inr hstatus)))
  refine (headersContain_decides needle (allHeaders s)).congr ⟨.inr, fun h => ?_⟩
  exact h.resolve_left fun hearlier => hearlier.elim hnot hnot'

theorem given_decides {α : Type} {criterion : Option α} {test : α → Checked ControlError Bool}
    {P : α → Prop} (h : ∀ x, criterion = some x → SearchDecides cancelled (test x) (P x)) :
    SearchDecides cancelled (given criterion test) (∀ x, criterion = some x → P x) := by
  cases criterion with
  | none => exact .pure (iff_of_true rfl fun x hx => (by cases hx))
  | some x =>
    refine (h x rfl).congr ⟨fun hx y hy => ?_, fun hall => hall x rfl⟩
    cases hy
    exact hx

theorem andThen_decides {test next : Checked ControlError Bool} {P Q : Prop}
    (htest : SearchDecides cancelled test P) (hnext : SearchDecides cancelled next Q) :
    SearchDecides cancelled (andThen test next) (P ∧ Q) := by
  unfold andThen
  refine .branch htest (fun hP => hnext.congr ⟨fun hQ => ⟨hP, hQ⟩, And.right⟩) fun hP => ?_
  exact .pure (iff_of_false Bool.false_ne_true fun h => hP h.1)

/-! ## Compiled queries -/

/-- What a compiled query has of the query it comes from. -/
structure Compiles (p : QueryPackages) (q : CaptureQuery) (c : CompiledCaptureQuery p) : Prop where
  method : c.method = q.method.map p.fold
  originalUrl : compileOptionalText p q.originalUrl = .ok c.originalUrl
  effectiveUrl : compileOptionalText p q.effectiveUrl = .ok c.effectiveUrl
  status : c.status = q.status
  headerName : c.headerName = q.header.map fun h => p.fold h.name
  headerValue : c.headerValue = (q.header.bind (·.value)).map (CompiledSubstring.new p)
  mappingPath : c.mappingPath = q.mappingPath
  lifecycle : c.lifecycle = q.lifecycle
  startedAtMin : parseTime p "started_at_min" q.startedAtMin = .ok c.startedAtMin
  startedAtMax : parseTime p "started_at_max" q.startedAtMax = .ok c.startedAtMax
  sequenceMin : c.sequenceMin = q.sequenceMin
  sequenceMax : c.sequenceMax = q.sequenceMax
  text : c.text = q.text.map (CompiledSubstring.new p)

theorem compile_compiles {q : CaptureQuery} {c : CompiledCaptureQuery p}
    (h : CompiledCaptureQuery.compile p q = .ok c) : Compiles p q c := by
  unfold CompiledCaptureQuery.compile at h
  obtain ⟨-, -, h⟩ := bind_eq_ok.1 h
  obtain ⟨-, -, h⟩ := bind_eq_ok.1 h
  obtain ⟨startedAtMin, hmin, h⟩ := bind_eq_ok.1 h
  obtain ⟨startedAtMax, hmax, h⟩ := bind_eq_ok.1 h
  obtain ⟨-, -, h⟩ := bind_eq_ok.1 h
  obtain ⟨originalUrl, horiginal, h⟩ := bind_eq_ok.1 h
  obtain ⟨effectiveUrl, heffective, h⟩ := bind_eq_ok.1 h
  cases h
  exact ⟨rfl, horiginal, heffective, rfl, rfl, rfl, rfl, rfl, hmin, hmax, rfl, rfl, rfl⟩

theorem compileOptionalText_decides {filter : Option CaptureTextFilter}
    {compiled : Option (CompiledTextFilter p.Glob)} {value : Bytes} (hvalid : Valid value)
    (h : compileOptionalText p filter = .ok compiled) :
    SearchDecides cancelled (given compiled fun filter => filter.isMatch p cancelled value)
      (∀ x, filter = some x → x.Holds p value) := by
  cases filter with
  | none =>
    cases h
    exact .pure (iff_of_true rfl fun x hx => (by cases hx))
  | some filter =>
    unfold compileOptionalText at h
    dsimp only at h
    cases htext : compileText p filter with
    | error error =>
      rw [htext] at h
      cases h
    | ok compiledText =>
      rw [htext] at h
      cases h
      refine (compileText_decides hvalid htext).congr ⟨fun hholds x hx => ?_, fun h => h filter rfl⟩
      cases hx
      exact hholds

theorem parseTime_bound {name : String} {v : Option Bytes} {instant : Option Int}
    {bad : Int → Bool} (h : parseTime p name v = .ok instant) :
    instant.any bad = false ↔
      ∀ x, v = some x → ∃ t, p.parseFromRfc3339 x = some t ∧ bad t = false := by
  cases v with
  | none =>
    cases h
    simp
  | some x =>
    unfold parseTime at h
    dsimp only at h
    cases hparse : p.parseFromRfc3339 x with
    | none =>
      rw [hparse] at h
      cases h
    | some t =>
      rw [hparse] at h
      cases h
      simp [hparse]

/-- The criteria that need no scan. -/
structure PlainHolds (p : QueryPackages) (q : CaptureQuery) (s : CaptureSnapshot) : Prop where
  mappingPath : ∀ x, q.mappingPath = some x → classifyMapping s = x
  lifecycle : ∀ x, q.lifecycle = some x → classifyLifecycle s = x
  startedAtMin : ∀ x, q.startedAtMin = some x →
    ∃ instant, p.parseFromRfc3339 x = some instant ∧ instant ≤ s.timing.startedAt
  startedAtMax : ∀ x, q.startedAtMax = some x →
    ∃ instant, p.parseFromRfc3339 x = some instant ∧ s.timing.startedAt ≤ instant
  sequenceMin : ∀ x, q.sequenceMin = some x → x ≤ s.sequence
  sequenceMax : ∀ x, q.sequenceMax = some x → s.sequence ≤ x

theorem plainMatch_iff {q : CaptureQuery} {c : CompiledCaptureQuery p} (h : Compiles p q c)
    (s : CaptureSnapshot) : c.plainMatch s = true ↔ PlainHolds p q s := by
  unfold CompiledCaptureQuery.plainMatch
  simp only [Bool.not_eq_true', Bool.or_eq_false_iff]
  rw [parseTime_bound h.startedAtMin, parseTime_bound h.startedAtMax, h.sequenceMin, h.sequenceMax,
    h.mappingPath, h.lifecycle]
  simp only [Option.any_eq_false, decide_eq_false_iff_not, Int.not_lt, Nat.not_lt, gt_iff_lt,
    bne_eq_false_iff_eq]
  constructor
  · rintro ⟨⟨⟨⟨⟨hmin, hmax⟩, hstart⟩, hstop⟩, hpath⟩, hlife⟩
    exact ⟨hpath, hlife, hstart, hstop, hmin, hmax⟩
  · intro hplain
    exact ⟨⟨⟨⟨⟨hplain.sequenceMin, hplain.sequenceMax⟩, hplain.startedAtMin⟩,
      hplain.startedAtMax⟩, hplain.mappingPath⟩, hplain.lifecycle⟩

theorem statusMatch_iff (s : CaptureSnapshot) (filter : CaptureStatusFilter) :
    (s.response.map (·.status)).any (statusMatch filter) = true ↔
      ∃ response, s.response = some response ∧
        (∀ x, filter.exact = some x → response.status = x) ∧
        (∀ x, filter.minimum = some x → x ≤ response.status) ∧
        (∀ x, filter.maximum = some x → response.status ≤ x) := by
  unfold statusMatch
  cases s.response with
  | none => simp
  | some response => simp [Option.all_eq_true, and_assoc]

theorem isMatch_decides {q : CaptureQuery} {c : CompiledCaptureQuery p} (h : Compiles p q c)
    {s : CaptureSnapshot} (hs : HasTexts s) :
    SearchDecides cancelled (c.isMatch cancelled s) (q.Holds p s) := by
  unfold CompiledCaptureQuery.isMatch
  refine .after .check ?_
  split
  case isTrue hplain =>
      refine .pure (iff_of_false Bool.false_ne_true fun hholds => ?_)
      have hmatch := (plainMatch_iff h s).2 ⟨hholds.mappingPath, hholds.lifecycle,
        hholds.startedAtMin, hholds.startedAtMax, hholds.sequenceMin, hholds.sequenceMax⟩
      rw [hmatch] at hplain
      cases hplain
  case isFalse hplain =>
      have hplain := (plainMatch_iff h s).1 (by simpa using hplain)
      rw [h.method, h.status, h.headerName, h.headerValue, h.text]
      have hmethod : SearchDecides cancelled
          (given (q.method.map p.fold) fun x => do
            let folded ← foldChecked p cancelled s.request.method
            pure (folded = x))
          (∀ x, q.method = some x → p.fold s.request.method = p.fold x) := by
        refine (given_decides fun x _ => .after (foldChecked_computes hs.method)
          (.pure decide_eq_true_iff)).congr ?_
        simp
      have hstatus : SearchDecides cancelled
          (given q.status fun x => pure ((s.response.map (·.status)).any (statusMatch x)))
          (∀ x, q.status = some x → _) :=
        given_decides fun x _ => .pure (statusMatch_iff s x)
      have htext : SearchDecides cancelled
          (given (q.text.map (CompiledSubstring.new p)) fun text => textMatch p cancelled s text)
          (∀ x, q.text = some x → ∃ value ∈ searchedTexts s, p.Contains value x) := by
        cases q.text with
        | none => exact .pure (iff_of_true rfl fun x hx => (by cases hx))
        | some x => exact (textMatch_decides s x).congr (by simp)
      have hheader : SearchDecides cancelled
          (given (q.header.map fun h => p.fold h.name) fun name =>
            headerMatch p cancelled name ((q.header.bind (·.value)).map (CompiledSubstring.new p))
              (allHeaders s))
          (∀ filter, q.header = some filter → ∃ header ∈ allHeaders s,
            p.fold header.1 = p.fold filter.name ∧
              ∀ value, filter.value = some value → p.Contains header.2 value) := by
        cases q.header with
        | none => exact .pure (iff_of_true rfl fun x hx => (by cases hx))
        | some filter =>
          exact (headerMatch_decides (p.fold filter.name) filter.value hs.headers).congr (by simp)
      refine (andThen_decides hmethod (andThen_decides
        (compileOptionalText_decides hs.originalUri h.originalUrl) (andThen_decides
        (compileOptionalText_decides hs.effectiveUri h.effectiveUrl) (andThen_decides hstatus
        (andThen_decides hheader (andThen_decides htext
        (.after .check (.pure (iff_of_true rfl trivial)))))))) ).congr ?_
      constructor
      · rintro ⟨hmethod, horiginal, heffective, hstatus, hheader, htext, -⟩
        exact ⟨hmethod, horiginal, heffective, hstatus, hheader, hplain.mappingPath,
          hplain.lifecycle, hplain.startedAtMin, hplain.startedAtMax, hplain.sequenceMin,
          hplain.sequenceMax, htext⟩
      · intro hholds
        exact ⟨hholds.method, hholds.originalUrl, hholds.effectiveUrl, hholds.status,
          hholds.header, hholds.text, trivial⟩

/-- Once compiled, and not cancelled, a query holds of a capture exactly when each
of its criteria does; and the search by pieces that decides the text criteria
finds a needle exactly when the folded value contains the folded needle. -/
theorem CompiledCaptureQuery.isMatch_iff {q : CaptureQuery} {c : CompiledCaptureQuery p}
    (hcompile : CompiledCaptureQuery.compile p q = .ok c) (hcancelled : ∀ k, cancelled k = false) :
    (∀ s, HasTexts s → ∃ answer, (c.isMatch cancelled s).outcome 0 = .ok answer ∧
      (answer = true ↔ q.Holds p s)) ∧
    (∀ value needle, ∃ answer,
      (containsFoldedChecked p cancelled value (.new p needle)).outcome 0 = .ok answer ∧
        (answer = true ↔ p.Contains value needle)) ∧
    (∀ value, Valid value →
      (foldChecked p cancelled value).outcome 0 = .ok (p.fold value)) := by
  refine ⟨fun s hs => ?_, fun value needle => ?_, fun value hvalue => ?_⟩
  · exact (isMatch_decides (compile_compiles hcompile) hs).uncancelled hcancelled 0
  · exact (containsFoldedChecked_decides value (.new p needle)).uncancelled hcancelled 0
  · exact (foldChecked_computes hvalue).uncancelled hcancelled 0

/-- Folding of the ASCII letters, globs that are compared as they stand, no time stamps. -/
def samplePackages : QueryPackages where
  caseFold c := [c.map fun b => if 0x41 ≤ b ∧ b ≤ 0x5A then b + 0x20 else b]
  Glob := Bytes
  buildGlob pattern := .ok pattern
  isMatch pattern value := pattern = value
  parseFromRfc3339 _ := none

/-- The needle overlaps itself. -/
def sampleQuery : CaptureQuery :=
  { method := some (ofAscii "get")
    originalUrl := some (.substring (ofAscii "AABAABAAC"))
    text := some (ofAscii "200") }

def sampleSearched : CaptureSnapshot :=
  let body : BodySnapshot := { status := {}, preview := .empty }
  { sequence := 7, revision := 0
    request := { method := ofAscii "GET", originalUri := ofAscii "xaabaaBaabaac"
                 effectiveUri := ofAscii "x", localPath := none, headers := [] }
    response := some { status := 200, headers := [] }
    requestBody := body, responseBody := body
    metadataTruncation := {}, timing := { startedAt := 0, timeToResponse := none, totalDuration := none } }

theorem sampleQuery_isMatch :
    ∃ c, CompiledCaptureQuery.compile samplePackages sampleQuery = .ok c ∧
      (c.isMatch (fun _ => false) sampleSearched).outcome 0 = .ok true ∧
      sampleQuery.Holds samplePackages sampleSearched := by
  obtain ⟨c, hc⟩ : ∃ c, CompiledCaptureQuery.compile samplePackages sampleQuery = .ok c := ⟨_, rfl⟩
  have hvalid : ∀ {text : Bytes}, fromUtf8 text = none → Valid text := fromUtf8_eq_none_iff.1
  have htexts : HasTexts sampleSearched :=
    ⟨hvalid (by decide), hvalid (by decide), hvalid (by decide), by simp [allHeaders, sampleSearched]⟩
  obtain ⟨answer, hanswer, hiff⟩ := (CompiledCaptureQuery.isMatch_iff hc
    (fun k => (rfl : (fun _ : Nat => false) k = false))).1 sampleSearched htexts
  have htrue : (c.isMatch (fun _ => false) sampleSearched).outcome 0 = .ok true := by
    cases hc
    decide +kernel
  refine ⟨c, hc, htrue, hiff.1 ?_⟩
  rw [htrue] at hanswer
  exact (Except.ok.inj hanswer).symm

end Fluxcope.Control
