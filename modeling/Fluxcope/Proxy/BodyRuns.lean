import Fluxcope.Proxy.Bodies
/-!
# Captured bodies over whole runs

Whatever the sources, readers, viewers and the shutdown do: what a capture shows of a
body is a beginning of what went through, its end is that of its pump, and it stays.
-/

namespace Fluxcope.Proxy

open Fluxcope.Library Fluxcope.Library.Utf8 Fluxcope.Capture Fluxcope.Mapping Fluxcope.Settings

variable {env : Environment} {globs : Globset}

/-! ## What the captures show -/

section Captures

variable {captures after : CaptureSystem} {a : CaptureAction} {limits : CapturePolicy}
  {i : CaptureSequence} {side : BodySide}

/-- There is a capture whose side has not ended. -/
def IsOpen (captures : CaptureSystem) (i : CaptureSequence) (side : BodySide) : Prop :=
  ∃ cell, captures.cells[i]? = some cell ∧ cell.record.sideEnded side = false

theorem IsOpen.sideOpen (h : IsOpen captures i side) : captures.sideOpen i side = true := by
  obtain ⟨cell, hcell, hopen⟩ := h
  simp [CaptureSystem.sideOpen, hcell, hopen]

theorem reaching_eq (captures : CaptureSystem) (i : CaptureSequence) (side : BodySide)
    (a : CaptureAction) : captures.reaching i side a =
      if captures.alive i then appended i side (some a) else [] := by
  cases a with
  | append j target bytes =>
    simp only [CaptureSystem.reaching, appended]
    by_cases halive : captures.alive i = true <;> simp [halive]
  | _ =>
    simp only [CaptureSystem.reaching, appended]
    split <;> rfl

/-- The capture was given a beginning of the bytes, all of them if its record is there or
saw the end, and holds what it retains of them. -/
structure Showing (limits : CapturePolicy) (captures : CaptureSystem) (i : CaptureSequence)
    (side : BodySide) (bytes : Bytes) : Prop where
  fragments : ∃ fragments, fragments <+: bytes ∧
    (captures.alive i = true ∨ captures.sideOpen i side = false → fragments = bytes) ∧
    CaptureSystem.AllPrefixed limits side i captures fragments
  missing : captures.cells[i]? = none → bytes = []

/-- A side that has ended keeps its body. -/
theorem prefixed_of_ended (hconserved : captures.Conserved)
    (hreopens : captures.reopens a = false) (hstep : captures.step a = some after)
    {cell : CaptureCell} (hcell : captures.cells[i]? = some cell)
    (hended : cell.record.sideEnded side = true) {fragments : Bytes}
    (h : CaptureSystem.AllPrefixed limits side i captures fragments) :
    CaptureSystem.AllPrefixed limits side i after fragments := by
  obtain ⟨cell', hcell', hfrozen⟩ := CaptureSystem.step_frozen hconserved hreopens hstep hcell
  obtain ⟨_, hget, hgrow⟩ := CaptureSystem.step_revisions hconserved hstep i cell hcell
  obtain rfl := Option.some.inj (hget.symm.trans hcell')
  refine ⟨fun c hc hkept => ?_, fun hnone => by rw [hcell'] at hnone; cases hnone⟩
  obtain rfl := Option.some.inj (hcell'.symm.trans hc)
  rw [(hfrozen side hended).body]
  refine h.1 cell hcell ?_
  by_contra hremoved
  rw [hgrow.disabled (by simpa using hremoved)] at hkept
  cases hkept

theorem Showing.step (hconserved : captures.Conserved) (hpolicy : captures.policy = limits)
    (hreopens : captures.reopens a = false) (hstep : captures.step a = some after)
    (hwrites : appended i side (some a) ≠ [] → IsOpen captures i side) {bytes : Bytes}
    (h : Showing limits captures i side bytes) :
    Showing limits after i side (bytes ++ appended i side (some a)) := by
  obtain ⟨⟨fragments, hbegins, hall, hprefixed⟩, hmissing⟩ := h
  cases hcell : captures.cells[i]? with
  | none =>
    have hnone : appended i side (some a) = [] := by
      by_contra hne
      obtain ⟨cell, hget, -⟩ := hwrites hne
      rw [hcell] at hget
      cases hget
    have hopen : captures.sideOpen i side = true := by simp [CaptureSystem.sideOpen, hcell]
    obtain rfl := hprefixed.2 hcell
    have hnext := CaptureSystem.step_allPrefixed hconserved hpolicy hopen hstep hprefixed
    rw [CaptureSystem.reaching_of_none hcell, List.append_nil] at hnext
    rw [hnone, hmissing hcell]
    exact ⟨⟨[], List.nil_prefix, fun _ => rfl, hnext⟩, fun _ => rfl⟩
  | some cell =>
    obtain ⟨cell', hcell', -⟩ := CaptureSystem.step_revisions hconserved hstep i cell hcell
    have hthere : after.cells[i]? ≠ none := by
      rw [hcell']
      exact Option.some_ne_none cell'
    refine ⟨?_, fun hnone => absurd hnone hthere⟩
    by_cases hended : cell.record.sideEnded side = true
    · have hclosed : captures.sideOpen i side = false := by
        simp [CaptureSystem.sideOpen, hcell, hended]
      have hnone : appended i side (some a) = [] := by
        by_contra hne
        rw [(hwrites hne).sideOpen] at hclosed
        cases hclosed
      obtain rfl := hall (.inr hclosed)
      rw [hnone, List.append_nil]
      exact ⟨fragments, List.prefix_rfl, fun _ => rfl,
        prefixed_of_ended hconserved hreopens hstep hcell hended hprefixed⟩
    have hopen : cell.record.sideEnded side = false := by simpa using hended
    refine ⟨_, ?_, ?_, CaptureSystem.step_allPrefixed hconserved hpolicy
      (IsOpen.sideOpen ⟨cell, hcell, hopen⟩) hstep hprefixed⟩
    · rw [reaching_eq]
      split
      · rename_i halive
        rw [hall (.inl halive)]
      · rw [List.append_nil]
        exact hbegins.trans (List.prefix_append _ _)
    · -- A record that is gone does not come back, and does not hear of the end.
      intro hlater
      have halive : captures.alive i = true := by
        rcases hlater with halive | hclosed
        · exact CaptureSystem.alive_of_step (lt_of_get hcell) hstep halive
        · obtain ⟨d, hd, hcase⟩ := CaptureSystem.step_side hconserved hstep hcell hopen
          rcases hcase with hstill | ⟨-, -, -, halive, -⟩
          · rw [IsOpen.sideOpen ⟨d, hd, hstill⟩] at hclosed
            cases hclosed
          · exact halive
      rw [reaching_eq, if_pos halive, hall (.inl halive)]

/-- The end of a side is the one that its pump told. -/
def EndedBy (captures : CaptureSystem) (pump : BodyPump) : Prop :=
  ∀ cell, captures.cells[pump.sequence]? = some cell → cell.record.sideEnded pump.side = true →
    ∃ reason status, pump.reason = some reason ∧
      (cell.record.body pump.side).status = RecordScope.terminate status (pump.terminal reason)

theorem EndedBy.step (hconserved : captures.Conserved) (hreopens : captures.reopens a = false)
    (hstep : captures.step a = some after) {pump next : BodyPump}
    (hthere : pump.sequence < captures.cells.length) (hsequence : next.sequence = pump.sequence)
    (hside : next.side = pump.side) (hterminal : ∀ reason, next.terminal reason = pump.terminal reason)
    (hkept : ∀ reason, pump.reason = some reason → next.reason = some reason)
    (htold : ∀ terminal instant, a = .finish pump.sequence pump.side terminal instant →
      ∃ reason, next.reason = some reason ∧ terminal = pump.terminal reason)
    (h : EndedBy captures pump) : EndedBy after next := by
  intro cell' hcell' hended'
  rw [hsequence] at hcell'
  rw [hside] at hended' ⊢
  have hcell := List.getElem?_eq_getElem hthere
  by_cases hended : (captures.cells[pump.sequence]).record.sideEnded pump.side = true
  · obtain ⟨reason, status, hreason, hstatus⟩ := h _ hcell hended
    obtain ⟨c, hc, hfrozen⟩ := CaptureSystem.step_frozen hconserved hreopens hstep hcell
    obtain rfl := Option.some.inj (hc.symm.trans hcell')
    refine ⟨reason, status, hkept reason hreason, ?_⟩
    rw [(hfrozen pump.side hended).body, hterminal]
    exact hstatus
  · obtain ⟨c, hc, hcase⟩ :=
      CaptureSystem.step_side hconserved hstep hcell (by simpa using hended)
    obtain rfl := Option.some.inj (hc.symm.trans hcell')
    rcases hcase with hopen | ⟨terminal, instant, heq, -, hstatus⟩
    · rw [hopen] at hended'
      cases hended'
    · obtain ⟨reason, hreason, rfl⟩ := htold terminal instant heq
      exact ⟨reason, _, hreason, by rw [hterminal]; exact hstatus⟩

/-- While the record is there, it has heard of the end that the pump told. -/
def HeardBy (captures : CaptureSystem) (pump : BodyPump) : Prop :=
  ∀ cell, captures.cells[pump.sequence]? = some cell → captures.alive pump.sequence = true →
    pump.reason ≠ none → cell.record.sideEnded pump.side = true

theorem HeardBy.step (hconserved : captures.Conserved) (hreopens : captures.reopens a = false)
    (hstep : captures.step a = some after) {pump next : BodyPump}
    (hthere : pump.sequence < captures.cells.length) (hsequence : next.sequence = pump.sequence)
    (hside : next.side = pump.side)
    (htells : pump.reason = none → ∀ reason, next.reason = some reason →
      ∃ instant, a = .finish pump.sequence pump.side (pump.terminal reason) instant)
    (h : HeardBy captures pump) : HeardBy after next := by
  intro cell' hcell' halive hreason
  rw [hsequence] at hcell' halive
  rw [hside]
  have hcell := List.getElem?_eq_getElem hthere
  have hbefore := CaptureSystem.alive_of_step hthere hstep halive
  cases hold : pump.reason with
  | none =>
    obtain ⟨reason, hreason⟩ := Option.ne_none_iff_exists'.1 hreason
    obtain ⟨instant, rfl⟩ := htells hold reason hreason
    obtain ⟨c, hc, hended⟩ := CaptureSystem.step_finish hconserved hstep hbefore hcell
    obtain rfl := Option.some.inj (hc.symm.trans hcell')
    exact hended
  | some reason =>
    have hended := h _ hcell hbefore (by rw [hold]; exact Option.some_ne_none reason)
    obtain ⟨c, hc, hfrozen⟩ := CaptureSystem.step_frozen hconserved hreopens hstep hcell
    obtain rfl := Option.some.inj (hc.symm.trans hcell')
    unfold CaptureRecord.sideEnded at hended ⊢
    rw [(hfrozen pump.side hended).body]
    exact hended

end Captures

/-! ## One step of the proxy -/

namespace ProxySystem

variable {authorities : Authorities} {s t : ProxySystem env globs} {label : ProxyLabel env globs}
  {action : Option CaptureAction} {limits : CapturePolicy}

theorem writers_le_claims (s : ProxySystem env globs) (i : CaptureSequence) (side : BodySide) :
    s.writers i side ≤ s.claims i side :=
  Nat.add_le_add (total_le_total fun handler _ => LogHandler.writes_le_claims i side handler)
    (total_le_total fun pump _ => BodyPump.writes_le_claims i side pump)

/-- A side is open as long as somebody may still write to it. -/
def Opened (s : ProxySystem env globs) : Prop :=
  ∀ i side, 0 < s.writers i side → IsOpen s.captures i side

theorem Opened.pump (h : s.Opened) {pump : BodyPump} (hmem : pump ∈ s.pumps)
    (hreason : pump.reason = none) : IsOpen s.captures pump.sequence pump.side := by
  obtain ⟨p, hget⟩ := List.getElem?_of_mem hmem
  have hwrites : pump.writes pump.sequence pump.side = 1 := if_pos ⟨rfl, rfl, hreason⟩
  have hle := le_total hget (BodyPump.writes pump.sequence pump.side)
  refine h _ _ ?_
  unfold writers
  omega

theorem Change.writer_of_appended (h : Change authorities s action t) {i : CaptureSequence}
    {side : BodySide} (hne : appended i side action ≠ []) : 0 < s.writers i side := by
  cases h with
  | handler k handler event move captures hget hmove hperform =>
    exact absurd ((LogHandler.step_moves hmove).answered.1 i side) hne
  | pump p pump next event action captures hget hmove hperform =>
    obtain ⟨hsequence, hside, hreason⟩ := (BodyPump.step_appends hmove).own i side hne
    have hwrites : pump.writes i side = 1 := if_pos ⟨hsequence, hside, hreason⟩
    have hle := le_total hget (BodyPump.writes i side)
    unfold writers
    omega
  | view action captures hviewer hstep => exact absurd (appended_viewer hviewer i side) hne
  | clone => exact absurd rfl hne
  | interrupt => exact absurd rfl hne
  | setRecording enabled => exact absurd rfl hne
  | replacePolicy policy => exact absurd rfl hne

theorem Change.writer_of_answered (h : Change authorities s action t) {i : CaptureSequence}
    (hanswered : answered action = some i) : 0 < s.writers i .response := by
  cases h with
  | handler k handler event move captures hget hmove hperform =>
    have hcurrent := (LogHandler.step_moves hmove).answered.2 i hanswered
    have hwrites : 0 < handler.writes i .response := Nat.add_pos_left (one_pos.2 hcurrent) _
    have hle := le_total hget (LogHandler.writes i .response)
    unfold writers
    omega
  | pump p pump next event action captures hget hmove hperform =>
    cases BodyPump.step_moves hmove <;> cases hanswered
  | view action captures hviewer hstep =>
    cases action with
    | setResponse i input instant => cases hviewer
    | _ => cases hanswered
  | clone => cases hanswered
  | interrupt => cases hanswered
  | setRecording enabled => cases hanswered
  | replacePolicy policy => cases hanswered

/-- No response head comes after the end of its side. -/
theorem Change.reopens {a : CaptureAction} (h : Change authorities s (some a) t)
    (hopened : s.Opened) : s.captures.reopens a = false := by
  cases a with
  | setResponse i input instant =>
    obtain ⟨cell, hcell, hopen⟩ := hopened i .response (h.writer_of_answered rfl)
    simp [CaptureSystem.reopens, hcell, CaptureRecord.reopenable, hopen]
  | _ => rfl

/-- The end of a side is told while it is open. -/
theorem Change.open_of_finish {i : CaptureSequence} {side : BodySide} {terminal : BodyTerminal}
    {instant : Nat} (h : Change authorities s (some (.finish i side terminal instant)) t)
    (hopened : s.Opened) : IsOpen s.captures i side := by
  have hfinished : one (finished side (some (.finish i side terminal instant))) i = 1 := by
    simp [finished, one]
  have hle := h.books.writers i side
  rw [startedHandle_perform h.books.perform rfl, one_none, hfinished] at hle
  exact hopened i side (by omega)

theorem Opened.change (h : s.Opened) (howned : s.Owned) (hconserved : s.captures.Conserved)
    (hbooks : Books s t action) : t.Opened := by
  intro i side hwriters
  have hle := hbooks.writers i side
  have hperform := hbooks.perform
  cases action with
  | none =>
    have heq : s.captures = t.captures := Option.some.inj hperform
    rw [← heq]
    refine h i side ?_
    rw [← heq, startedHandle_same] at hle
    exact hwriters.trans_le ((Nat.le_add_right _ _).trans hle)
  | some a =>
    change s.captures.step a = some t.captures at hperform
    by_cases hstarted : 0 < one (startedHandle s.captures t.captures) i
    · -- The body of a capture that has just been started is new.
      obtain ⟨rfl, hpos⟩ := startedHandle_eq.1 (one_pos.1 hstarted)
      have hnone : s.captures.cells[s.captures.cells.length]? = none :=
        List.getElem?_eq_none (Nat.le_refl _)
      cases hcell : t.captures.cells[s.captures.cells.length]? with
      | none =>
        rw [handles, hcell] at hpos
        cases hpos
      | some cell =>
        refine ⟨cell, hcell, ?_⟩
        unfold CaptureRecord.sideEnded
        rw [CaptureSystem.body_of_none hperform hnone hcell]
        rfl
    · have hbefore : 0 < s.writers i side := by omega
      obtain ⟨cell, hcell, hopen⟩ := h i side hbefore
      obtain ⟨cell', hcell', hcase⟩ := CaptureSystem.step_side hconserved hperform hcell hopen
      rcases hcase with hstill | ⟨terminal, instant, rfl, -, -⟩
      · exact ⟨cell', hcell', hstill⟩
      · -- The owner of the side has told its end, and there is no other one.
        have hfinished : one (finished side (some (.finish i side terminal instant))) i = 1 := by
          simp [finished, one]
        have hclaims := howned.claims i side
        have hwriters' := writers_le_claims s i side
        omega

/-- What the pump of a side has shown, nothing if there is no pump. -/
def Shows (s : ProxySystem env globs) (i : CaptureSequence) (side : BodySide) (bytes : Bytes) :
    Prop :=
  (∃ pump ∈ s.pumps, pump.sequence = i ∧ pump.side = side ∧ pump.shown = bytes) ∨
    (bytes = [] ∧ ∀ pump ∈ s.pumps, ¬(pump.sequence = i ∧ pump.side = side))

theorem claims_of_pump {pump : BodyPump} {p : Nat} (hget : s.pumps[p]? = some pump) :
    0 < s.claims pump.sequence pump.side := by
  have hclaims : pump.claims pump.sequence pump.side = 1 := if_pos ⟨rfl, rfl⟩
  have hle := le_total hget (BodyPump.claims pump.sequence pump.side)
  unfold claims
  omega

/-- Two pumps of one side are one. -/
theorem Owned.pump_unique (h : s.Owned) {p q : Nat} {pump other : BodyPump}
    (hp : s.pumps[p]? = some pump) (hq : s.pumps[q]? = some other)
    (hsequence : other.sequence = pump.sequence) (hside : other.side = pump.side) : p = q := by
  by_contra hne
  have hle := add_le_total hp hq hne (BodyPump.claims pump.sequence pump.side)
  have hmine : pump.claims pump.sequence pump.side = 1 := if_pos ⟨rfl, rfl⟩
  have hother : other.claims pump.sequence pump.side = 1 := if_pos ⟨hsequence, hside⟩
  have hclaims := h.claims pump.sequence pump.side
  unfold ProxySystem.claims at hclaims
  omega

/-- A handler has no claim on a side that has a pump. -/
theorem Owned.handler_claims (h : s.Owned) {k p : Nat} {handler : LogHandler env globs}
    {pump : BodyPump} (hk : s.handlers[k]? = some handler) (hp : s.pumps[p]? = some pump) :
    handler.claims pump.sequence pump.side = 0 := by
  have hmine : pump.claims pump.sequence pump.side = 1 := if_pos ⟨rfl, rfl⟩
  have hpumps := le_total hp (BodyPump.claims pump.sequence pump.side)
  have hhandlers := le_total hk (LogHandler.claims pump.sequence pump.side)
  have hclaims := h.claims pump.sequence pump.side
  unfold ProxySystem.claims at hclaims
  omega

theorem mem_set_iff {α : Type*} {list : List α} {p : Nat} {old new x : α}
    (hget : list[p]? = some old) (hmem : x ∈ list.set p new) :
    x = new ∨ ∃ q, q ≠ p ∧ list[q]? = some x := by
  obtain ⟨q, hq⟩ := List.getElem?_of_mem hmem
  rw [getElem?_set_of_some hget] at hq
  split at hq
  · exact .inl (Option.some.inj hq).symm
  · rename_i hne
    exact .inr ⟨q, fun h => hne h.symm, hq⟩

/-- What a side shows after a step is what it showed before, and what the step appended. -/
theorem Change.shows (h : Change authorities s action t) (howned : s.Owned) {i : CaptureSequence}
    {side : BodySide} {bytes : Bytes} (hshows : t.Shows i side bytes) :
    ∃ old, s.Shows i side old ∧ bytes = old ++ appended i side action := by
  have hsame : t.pumps = s.pumps → appended i side action = [] →
      ∃ old, s.Shows i side old ∧ bytes = old ++ appended i side action := by
    intro hpumps hnone
    unfold Shows at hshows
    rw [hpumps] at hshows
    exact ⟨bytes, hshows, by rw [hnone, List.append_nil]⟩
  cases h with
  | handler k handler event move captures hget hmove hperform =>
    rw [(LogHandler.step_moves hmove).answered.1]
    simp only [List.append_nil, exists_eq_right']
    rcases hshows with ⟨pump, hmem, hsequence, hside, rfl⟩ | ⟨rfl, hnone⟩
    · rcases List.mem_append.1 hmem with hmem | hmem
      · exact .inl ⟨pump, hmem, hsequence, hside, rfl⟩
      · -- The pump is new; its side was the handler's, so there was no other pump.
        have hpump : move.pump = some pump := by
          cases hmovePump : move.pump with
          | none =>
            rw [hmovePump] at hmem
            cases hmem
          | some other =>
            rw [hmovePump] at hmem
            rw [List.mem_singleton.1 hmem]
        refine .inr ⟨?_, ?_⟩
        · cases (LogHandler.step_moves hmove).pump hpump <;> rfl
        · rintro other hother ⟨hsequence', hside'⟩
          obtain ⟨q, hq⟩ := List.getElem?_of_mem hother
          have hclaims := ((LogHandler.step_moves hmove).books (startedHandle s.captures captures)
            (startedHandle_perform hperform)).claims i side
          have hmine : pump.claims i side = 1 := if_pos ⟨hsequence, hside⟩
          have hfree := howned.handler_claims hget hq
          rw [hsequence', hside'] at hfree
          rw [hpump, Option.toList_some, total_cons, total_nil] at hclaims
          have hstarted : 0 < one (startedHandle s.captures captures) i := by omega
          obtain ⟨rfl, -⟩ := startedHandle_eq.1 (one_pos.1 hstarted)
          have hfresh := howned.fresh _ side (Nat.le_refl s.captures.cells.length)
          have hclaim := claims_of_pump hq
          rw [hsequence', hside', hfresh] at hclaim
          cases hclaim
    · exact .inr ⟨rfl, fun pump hmem => hnone pump (List.mem_append_left _ hmem)⟩
  | pump p pump next event action captures hget hmove hperform =>
    have happends := BodyPump.step_appends hmove
    have hbooks := BodyPump.step_books hmove
    rcases hshows with ⟨shown, hmem, hsequence, hside, rfl⟩ | ⟨rfl, hnone⟩
    · rcases mem_set_iff hget hmem with rfl | ⟨q, hne, hq⟩
      · refine ⟨pump.shown, .inl ⟨pump, List.mem_of_getElem? hget, ?_, ?_, rfl⟩, ?_⟩
        · rw [← hsequence, hbooks.sequence]
        · rw [← hside, hbooks.side]
        · rw [happends.shown, ← hsequence, ← hside, hbooks.sequence, hbooks.side]
      · refine ⟨shown.shown, .inl ⟨shown, List.mem_of_getElem? hq, hsequence, hside, rfl⟩, ?_⟩
        have hother : appended i side action = [] := by
          by_contra hne'
          obtain ⟨hsequence', hside', -⟩ := happends.own i side hne'
          exact hne (howned.pump_unique hget hq (hsequence.trans hsequence'.symm)
            (hside.trans hside'.symm)).symm
        rw [hother, List.append_nil]
    · have hother : appended i side action = [] := by
        by_contra hne
        obtain ⟨hsequence', hside', -⟩ := happends.own i side hne
        exact hnone next (List.mem_set (lt_of_get hget) next)
          ⟨hbooks.sequence.trans hsequence', hbooks.side.trans hside'⟩
      refine ⟨[], .inr ⟨rfl, fun other hmem hkey => ?_⟩, by rw [hother]; rfl⟩
      obtain ⟨q, hq⟩ := List.getElem?_of_mem hmem
      by_cases hqp : q = p
      · subst hqp
        obtain rfl := Option.some.inj (hget.symm.trans hq)
        exact hnone next (List.mem_set (lt_of_get hget) next)
          ⟨hbooks.sequence.trans hkey.1, hbooks.side.trans hkey.2⟩
      · have hstill : (s.pumps.set p next)[q]? = some other := by
          rw [getElem?_set_of_some hget, if_neg fun h => hqp h.symm]
          exact hq
        exact hnone other (List.mem_of_getElem? hstill) hkey
  | view action captures hviewer hstep => exact hsame rfl (appended_viewer hviewer i side)
  | clone => exact hsame rfl rfl
  | interrupt => exact hsame rfl rfl
  | setRecording enabled => exact hsame rfl rfl
  | replacePolicy policy => exact hsame rfl rfl

/-- The action tells the end of the side of a pump. -/
def Ending (pump : BodyPump) (action : Option CaptureAction) : Prop :=
  ∃ terminal instant, action = some (.finish pump.sequence pump.side terminal instant)

/-- A pump after a step has just begun, or has moved, or nobody has ended its side. -/
theorem Change.pump_cases (h : Change authorities s action t) (howned : s.Owned) {next : BodyPump}
    (hmem : next ∈ t.pumps) : PumpRun.Starts next ∨ (next ∈ s.pumps ∧ ¬Ending next action) ∨
      ∃ pump ∈ s.pumps, ∃ event, pump.step s.interrupted event = some (next, action) := by
  cases h with
  | handler k handler event move captures hget hmove hperform =>
    rcases List.mem_append.1 hmem with hmem | hmem
    · refine .inr (.inl ⟨hmem, ?_⟩)
      rintro ⟨terminal, instant, heq⟩
      obtain ⟨q, hq⟩ := List.getElem?_of_mem hmem
      have hnone := startedHandle_perform hperform (by rw [heq]; rfl)
      have hbooks := ((LogHandler.step_moves hmove).books _ (startedHandle_perform hperform)).writes
        next.sequence next.side
      have hfinished : one (finished next.side move.action) next.sequence = 1 := by
        simp [heq, finished, one]
      have hclaims := howned.handler_claims hget hq
      have hle := LogHandler.writes_le_claims next.sequence next.side handler
      rw [hnone, one_none] at hbooks
      omega
    · cases hpump : move.pump with
      | none =>
        rw [hpump] at hmem
        cases hmem
      | some other =>
        rw [hpump] at hmem
        rw [List.mem_singleton.1 hmem]
        exact .inl ((LogHandler.step_moves hmove).pump hpump)
  | pump p pump after event action captures hget hmove hperform =>
    rcases mem_set_iff hget hmem with rfl | ⟨q, hne, hq⟩
    · exact .inr (.inr ⟨pump, List.mem_of_getElem? hget, event, hmove⟩)
    · refine .inr (.inl ⟨List.mem_of_getElem? hq, ?_⟩)
      rintro ⟨terminal, instant, rfl⟩
      obtain ⟨hsequence, hside, -⟩ := (BodyPump.step_ends hmove).told _ _ _ _ rfl
      exact hne (howned.pump_unique hget hq hsequence.symm hside.symm).symm
  | view action captures hviewer hstep =>
    refine .inr (.inl ⟨hmem, ?_⟩)
    rintro ⟨terminal, instant, heq⟩
    cases heq
    cases hviewer
  | clone => exact .inr (.inl ⟨hmem, fun h => by obtain ⟨_, _, heq⟩ := h; cases heq⟩)
  | interrupt => exact .inr (.inl ⟨hmem, fun h => by obtain ⟨_, _, heq⟩ := h; cases heq⟩)
  | setRecording enabled =>
    exact .inr (.inl ⟨hmem, fun h => by obtain ⟨_, _, heq⟩ := h; cases heq⟩)
  | replacePolicy policy =>
    exact .inr (.inl ⟨hmem, fun h => by obtain ⟨_, _, heq⟩ := h; cases heq⟩)

/-! ## Runs -/

/-- What holds of captures, handlers and pumps between the steps. -/
structure Sound (limits : CapturePolicy) (s : ProxySystem env globs) : Prop where
  conserved : s.captures.Conserved
  policy : s.captures.policy = limits
  owned : s.Owned
  opened : s.Opened
  faithful : ∀ pump ∈ s.pumps, pump.Faithful
  shown : ∀ i side bytes, s.Shows i side bytes → Showing limits s.captures i side bytes
  ended : ∀ pump ∈ s.pumps, EndedBy s.captures pump
  heard : ∀ pump ∈ s.pumps, HeardBy s.captures pump

theorem Starts.reason {pump : BodyPump} (h : PumpRun.Starts pump) : pump.reason = none := by
  cases h <;> rfl

theorem Sound.faithful_change (h : s.Sound limits) (hchange : Change authorities s action t) :
    ∀ pump ∈ t.pumps, pump.Faithful := by
  intro next hmem
  rcases hchange.pump_cases h.owned hmem with hstart | ⟨hmem, -⟩ | ⟨pump, hmem, event, hmove⟩
  · exact hstart.faithful
  · exact h.faithful next hmem
  · exact (h.faithful pump hmem).step (BodyPump.step_moves hmove)

theorem Owned.pump_known (h : s.Owned) {pump : BodyPump} (hmem : pump ∈ s.pumps) :
    pump.sequence < s.captures.cells.length := by
  obtain ⟨p, hget⟩ := List.getElem?_of_mem hmem
  by_contra hge
  have hclaims := claims_of_pump hget
  rw [h.fresh _ _ (not_lt.1 hge)] at hclaims
  cases hclaims

theorem Sound.shown_change (h : s.Sound limits) (hchange : Change authorities s action t)
    {i : CaptureSequence} {side : BodySide} {bytes : Bytes} (hshows : t.Shows i side bytes) :
    Showing limits t.captures i side bytes := by
  obtain ⟨old, hold, rfl⟩ := hchange.shows h.owned hshows
  have hbefore := h.shown i side old hold
  have hperform := hchange.books.perform
  cases action with
  | none =>
    have heq : s.captures = t.captures := Option.some.inj hperform
    rw [← heq]
    simpa [appended] using hbefore
  | some a =>
    exact hbefore.step h.conserved h.policy (hchange.reopens h.opened) hperform fun hne =>
      h.opened i side (hchange.writer_of_appended hne)

theorem Sound.ended_change (h : s.Sound limits) (hchange : Change authorities s action t)
    (hopened : t.Opened) : ∀ pump ∈ t.pumps, EndedBy t.captures pump := by
  intro next hmem
  have hperform := hchange.books.perform
  have hnew : next.reason = none → EndedBy t.captures next := by
    intro hreason cell hcell hended
    obtain ⟨cell', hcell', hopen⟩ := hopened.pump hmem hreason
    obtain rfl := Option.some.inj (hcell'.symm.trans hcell)
    rw [hopen] at hended
    cases hended
  rcases hchange.pump_cases h.owned hmem with hstart | ⟨hold, hnot⟩ | ⟨pump, hold, event, hmove⟩
  · exact hnew (Starts.reason hstart)
  · cases action with
    | none =>
      have heq : s.captures = t.captures := Option.some.inj hperform
      rw [← heq]
      exact h.ended next hold
    | some a =>
      refine EndedBy.step h.conserved (hchange.reopens h.opened) hperform
        (h.owned.pump_known hold) rfl rfl (fun _ => rfl) (fun _ hreason => hreason)
        (fun terminal instant heq => ?_) (h.ended next hold)
      exact absurd ⟨terminal, instant, congrArg some heq⟩ hnot
  · have hbooks := BodyPump.step_books hmove
    have hends := BodyPump.step_ends hmove
    cases action with
    | none =>
      have heq : s.captures = t.captures := Option.some.inj hperform
      rw [← heq]
      intro cell hcell hended
      rw [hbooks.sequence] at hcell
      rw [hbooks.side] at hended ⊢
      obtain ⟨reason, status, hreason, hstatus⟩ := h.ended pump hold cell hcell hended
      exact ⟨reason, status, hends.kept reason hreason, by rw [hends.terminal]; exact hstatus⟩
    | some a =>
      refine EndedBy.step h.conserved (hchange.reopens h.opened) hperform
        (h.owned.pump_known hold) hbooks.sequence hbooks.side hends.terminal hends.kept
        (fun terminal instant heq => ?_) (h.ended pump hold)
      obtain ⟨-, -, -, hreason⟩ := hends.told _ _ _ _ (congrArg some heq)
      exact hreason

theorem Sound.heard_change (h : s.Sound limits) (hchange : Change authorities s action t) :
    ∀ pump ∈ t.pumps, HeardBy t.captures pump := by
  intro next hmem
  have hperform := hchange.books.perform
  rcases hchange.pump_cases h.owned hmem with hstart | ⟨hold, -⟩ | ⟨pump, hold, event, hmove⟩
  · exact fun _ _ _ hreason => absurd (Starts.reason hstart) hreason
  · cases action with
    | none =>
      have heq : s.captures = t.captures := Option.some.inj hperform
      rw [← heq]
      exact h.heard next hold
    | some a =>
      refine HeardBy.step h.conserved (hchange.reopens h.opened) hperform
        (h.owned.pump_known hold) rfl rfl (fun hnone reason hreason => ?_) (h.heard next hold)
      rw [hnone] at hreason
      cases hreason
  · have hbooks := BodyPump.step_books hmove
    have hends := BodyPump.step_ends hmove
    cases action with
    | none =>
      have heq : s.captures = t.captures := Option.some.inj hperform
      rw [← heq]
      intro cell hcell halive hreason
      rw [hbooks.sequence] at hcell halive
      rw [hbooks.side]
      refine h.heard pump hold cell hcell halive fun hopen => ?_
      obtain ⟨reason, hreason⟩ := Option.ne_none_iff_exists'.1 hreason
      obtain ⟨instant, htold⟩ := hends.ended hopen reason hreason
      cases htold
    | some a =>
      refine HeardBy.step h.conserved (hchange.reopens h.opened) hperform
        (h.owned.pump_known hold) hbooks.sequence hbooks.side (fun hopen reason hreason => ?_)
        (h.heard pump hold)
      obtain ⟨instant, htold⟩ := hends.ended hopen reason hreason
      exact ⟨instant, Option.some.inj htold⟩

theorem Sound.change (h : s.Sound limits) (hchange : Change authorities s action t) :
    t.Sound limits := by
  have hbooks := hchange.books
  have hopened := h.opened.change h.owned h.conserved hbooks
  exact {
    conserved := hbooks.captures (I := CaptureSystem.Conserved)
      (fun _ _ _ hconserved hstep => hconserved.step hstep) h.conserved
    policy := hbooks.captures (I := fun captures => captures.policy = limits)
      (fun _ _ _ hpolicy hstep => (CaptureSystem.policy_step hstep).1.trans hpolicy) h.policy
    owned := h.owned.change hbooks
    opened := hopened
    faithful := h.faithful_change hchange
    shown := fun _ _ _ hshows => h.shown_change hchange hshows
    ended := h.ended_change hchange hopened
    heard := h.heard_change hchange }

theorem sound_new (policy : CapturePolicy) (retention : CaptureRetentionPolicy)
    (requests : RequestPolicy globs) :
    (new policy retention requests : ProxySystem env globs).Sound policy where
  conserved := CaptureSystem.conserved_new policy retention
  policy := rfl
  owned := owned_new policy retention requests
  opened i side hwriters := by
    cases side <;> cases hwriters
  faithful pump hmem := absurd hmem List.not_mem_nil
  shown i side bytes hshows := by
    rcases hshows with ⟨pump, hmem, -⟩ | ⟨rfl, -⟩
    · exact absurd hmem List.not_mem_nil
    · have hnone : (CaptureSystem.new policy retention).cells[i]? = none := rfl
      refine ⟨⟨[], List.prefix_rfl, fun _ => rfl, fun c hc => ?_, fun _ => rfl⟩, fun _ => rfl⟩
      cases hnone.symm.trans hc
  ended pump hmem := absurd hmem List.not_mem_nil
  heard pump hmem := absurd hmem List.not_mem_nil

variable {policy : CapturePolicy} {retention : CaptureRetentionPolicy}
  {requests : RequestPolicy globs} {labels more : List (ProxyLabel env globs)}

theorem run_sound (hrun : run (step authorities) (new policy retention requests) labels = some s) :
    s.Sound policy := by
  refine run_invariant (I := Sound policy) (fun s label t h hstep => ?_)
    (sound_new policy retention requests) hrun
  obtain ⟨action, hchange⟩ := step_change hstep
  exact h.change hchange

/-- What a capture shows of the body that a pump moved.  The preview is that of a record
which is still stored; a record hears of the end as long as anything holds it. -/
structure Captured (captures : CaptureSystem) (cell : CaptureCell) (pump : BodyPump) : Prop where
  preview : cell.record.captureDisabled = false →
    (cell.record.bodyPreview pump.side).flatten <+: frameData pump.handed
  streaming : pump.reason = none → cell.record.sideEnded pump.side = false
  ended : pump.reason ≠ none → captures.alive pump.sequence = true →
    cell.record.sideEnded pump.side = true
  told : cell.record.sideEnded pump.side = true → ∃ reason status, pump.reason = some reason ∧
    (cell.record.body pump.side).status = RecordScope.terminate status (pump.terminal reason)
  complete : (cell.record.body pump.side).status.stream = .complete →
    pump.taken = pump.handed ∧ (cell.record.captureDisabled = false →
      (cell.record.body pump.side).status.observedBytes =
        min (frameData pump.taken).length wordMax ∧
      ((cell.record.body pump.side).status.previewLimit = none →
        (cell.record.bodyPreview pump.side).flatten = frameData pump.taken))

theorem Sound.captured (h : s.Sound limits) {pump : BodyPump} (hmem : pump ∈ s.pumps) :
    ∃ cell, s.captures.cells[pump.sequence]? = some cell ∧ Captured s.captures cell pump := by
  obtain ⟨cell, hcell⟩ : ∃ cell, s.captures.cells[pump.sequence]? = some cell :=
    ⟨_, List.getElem?_eq_getElem (h.owned.pump_known hmem)⟩
  have hfaithful := h.faithful pump hmem
  obtain ⟨⟨fragments, hbegins, hall, hprefixed⟩, -⟩ :=
    h.shown _ _ _ (.inl ⟨pump, hmem, rfl, rfl, rfl⟩)
  refine ⟨cell, hcell, ?_, fun hreason => ?_,
    fun hreason halive => h.heard pump hmem cell hcell halive hreason, h.ended pump hmem _ hcell,
    fun hcomplete => ?_⟩
  · intro hkept
    have hholds := (hprefixed.1 _ hcell hkept).flatten
    unfold CaptureRecord.bodyPreview
    rw [hholds]
    refine (List.take_prefix _ _).trans (hbegins.trans ?_)
    rw [hfaithful.shown]
    exact List.prefix_append _ _
  · obtain ⟨cell, hget, hopen⟩ := h.opened.pump hmem hreason
    obtain rfl := Option.some.inj (hcell.symm.trans hget)
    exact hopen
  · have hended : cell.record.sideEnded pump.side = true := by
      unfold CaptureRecord.sideEnded
      rw [hcomplete]
      rfl
    obtain ⟨reason, status, hreason, hstatus⟩ := h.ended pump hmem _ hcell hended
    have hwhole : reason = .complete := by
      rw [hstatus] at hcomplete
      cases reason with
      | complete => rfl
      | failed error => cases hcomplete
      | shutdown => cases hcomplete
      | rejected => cases hcomplete
    subst hwhole
    have htaken : pump.taken = pump.handed := by
      rcases hfaithful.left _ hreason with htaken | ⟨hcut, -⟩
      · exact htaken
      · rcases hcut with h | h <;> cases h
    refine ⟨htaken, fun hkept => ?_⟩
    have hclosed : s.captures.sideOpen pump.sequence pump.side = false := by
      simp [CaptureSystem.sideOpen, hcell, hended]
    have hshown : frameData pump.taken = fragments := by
      have hpending : pump.pending = [] := by
        unfold BodyPump.reason at hreason
        unfold BodyPump.pending
        cases hphase : pump.phase <;> simp_all
      rw [htaken, hfaithful.shown, hpending, List.append_nil, hall (.inr hclosed)]
    have hholds := hprefixed.1 _ hcell hkept
    rw [hshown]
    refine ⟨hholds.observed, fun hunlimited => ?_⟩
    have hretained : ¬_ < fragments.length := fun hlt => by
      have hlimited := hholds.limited.2 hlt
      rw [hunlimited] at hlimited
      cases hlimited
    unfold CaptureRecord.bodyPreview
    rw [hholds.flatten, List.take_of_length_le (not_lt.1 hretained)]

/-- In every order of steps of sources, readers, handlers, viewers and the shutdown: what a
stored capture shows of a body is a beginning of the data that went through its pump; its
side is open until the pump ends, and has ended when the pump has, the way the pump did; if
it ended as complete, the whole body went through, its length is what the capture says, and
an unlimited preview is the whole body; and a side without a pump shows nothing. -/
theorem captures_follow_pumps
    (hrun : run (step authorities) (new policy retention requests) labels = some s) :
    (∀ pump ∈ s.pumps, pump.received <+: pump.handed ∧ pump.handed <+: pump.taken ∧
      ∃ cell, s.captures.cells[pump.sequence]? = some cell ∧
        Captured s.captures cell pump) ∧
      ∀ (i : Nat) (side : BodySide) (cell : CaptureCell), s.captures.cells[i]? = some cell →
        (∀ pump ∈ s.pumps, ¬(pump.sequence = i ∧ pump.side = side)) →
        cell.record.captureDisabled = false → (cell.record.bodyPreview side).flatten = [] := by
  have h := run_sound hrun
  refine ⟨fun pump hmem => ⟨(h.faithful pump hmem).received_begins,
    (h.faithful pump hmem).handed_begins, h.captured hmem⟩, fun i side cell hcell hnone hkept => ?_⟩
  obtain ⟨⟨fragments, hbegins, -, hprefixed⟩, -⟩ := h.shown i side [] (.inr ⟨rfl, hnone⟩)
  obtain rfl := List.prefix_nil.1 hbegins
  unfold CaptureRecord.bodyPreview
  rw [(hprefixed.1 cell hcell hkept).flatten, List.take_nil]

theorem captures_follow_pumps_sample :
    ∃ s : ProxySystem sampleEnvironment sampleGlobset, ∃ pump cell,
      run (step sampleAuthorities) (new {} {} samplePolicy) sampleRequest = some s ∧
      s.pumps[0]? = some pump ∧ s.captures.cells[pump.sequence]? = some cell ∧
      (cell.record.body pump.side).status.stream = .complete ∧ pump.taken = pump.handed := by
  obtain ⟨s, hrun⟩ := Option.isSome_iff_exists.1
    (show (run (step sampleAuthorities) (new {} {} samplePolicy) sampleRequest).isSome = true by
      decide +kernel)
  have hsome : (run (step sampleAuthorities) (new {} {} samplePolicy) sampleRequest).bind
      (fun s => s.pumps[0]?.bind fun pump => s.captures.cells[pump.sequence]?.map fun cell =>
        (cell.record.body pump.side).status.stream) = some .complete := by decide +kernel
  rw [hrun, Option.bind_some] at hsome
  obtain ⟨pump, hpump, hcell⟩ := Option.bind_eq_some_iff.1 hsome
  obtain ⟨cell, hcell, hstream⟩ := Option.map_eq_some_iff.1 hcell
  obtain ⟨-, -, c, hc, hcaptured⟩ :=
    (captures_follow_pumps hrun).1 pump (List.mem_of_getElem? hpump)
  obtain rfl := Option.some.inj (hcell.symm.trans hc)
  exact ⟨s, pump, cell, hrun, hpump, hcell, hstream, (hcaptured.complete hstream).1⟩

/-- From any state of the proxy on, whatever happens, a side of a capture that has ended
keeps its body and its end: no response head comes late, and no end is told twice. -/
theorem ended_sides_stay
    (hrun : run (step authorities) (new policy retention requests) labels = some s)
    (hmore : run (step authorities) s more = some t) :
    CaptureSystem.EndedSidesFrozen s.captures t.captures ∧
      ∀ label u, t.step authorities label = some u →
        (∀ a, t.performed authorities label = some a → t.captures.reopens a = false) ∧
        ∀ i side terminal instant,
          t.performed authorities label = some (.finish i side terminal instant) →
            IsOpen t.captures i side := by
  have hfinal : t.Sound policy ∧ CaptureSystem.EndedSidesFrozen s.captures t.captures := by
    refine run_invariant
      (I := fun u : ProxySystem env globs => u.Sound policy ∧
        CaptureSystem.EndedSidesFrozen s.captures u.captures) (fun u label v h hstep => ?_)
      ⟨run_sound hrun, fun i cell hcell => ⟨cell, hcell, fun _ _ => .refl _ _⟩⟩ hmore
    obtain ⟨hsound, hfrozen⟩ := h
    obtain ⟨action, hchange⟩ := step_change hstep
    refine ⟨hsound.change hchange, ?_⟩
    have hperform := hchange.books.perform
    cases action with
    | none =>
      have heq : u.captures = v.captures := Option.some.inj hperform
      rw [← heq]
      exact hfrozen
    | some a =>
      intro i cell hcell
      obtain ⟨cell', hcell', hleft⟩ := hfrozen i cell hcell
      obtain ⟨cell'', hcell'', hright⟩ := CaptureSystem.step_frozen hsound.conserved
        (hchange.reopens hsound.opened) hperform hcell'
      refine ⟨cell'', hcell'', fun side hended => (hleft side hended).trans (hright side ?_)⟩
      unfold CaptureRecord.sideEnded at hended ⊢
      rw [(hleft side hended).body]
      exact hended
  refine ⟨hfinal.2, fun label u hstep => ⟨fun a ha => ?_, fun i side terminal instant hfinish => ?_⟩⟩
  · have hchange := step_performed hstep
    rw [ha] at hchange
    exact hchange.reopens hfinal.1.opened
  · have hchange := step_performed hstep
    rw [hfinish] at hchange
    exact hchange.open_of_finish hfinal.1.opened

theorem ended_sides_stay_sample :
    ∃ s t : ProxySystem sampleEnvironment sampleGlobset,
      run (step sampleAuthorities) (new {} {} samplePolicy) sampleRequest = some s ∧
      run (step sampleAuthorities) s [.view .receive] = some t ∧
      CaptureSystem.EndedSidesFrozen s.captures t.captures := by
  obtain ⟨t, hall⟩ := Option.isSome_iff_exists.1
    (show (run (step sampleAuthorities) (new {} {} samplePolicy)
      (sampleRequest ++ [.view .receive])).isSome = true by decide +kernel)
  obtain ⟨s, hrun, hmore⟩ := run_append_eq_some.1 hall
  exact ⟨s, t, hrun, hmore, (ended_sides_stay hrun hmore).1⟩

end ProxySystem

end Fluxcope.Proxy
