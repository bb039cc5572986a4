import Fluxcope.Proxy.BodyRuns
/-!
# What is recorded and what is let through

The handlers of the proxy let a request through after they have recorded it, with the
URL that the policy gives it.  What a capture says of its request is what was decided.
-/

namespace Fluxcope.Proxy

open Fluxcope.Library Fluxcope.Library.Utf8 Fluxcope.Capture Fluxcope.Mapping Fluxcope.Settings

variable {env : Environment} {globs : Globset}

/-- Only `try_start` makes a capture. -/
theorem cell_of_step {before after : CaptureSystem} {action : CaptureAction} {i : Nat}
    {cell : CaptureCell} (hstep : before.step action = some after)
    (hstarts : starts (some action) = false) (hcell : after.cells[i]? = some cell) :
    ∃ old, before.cells[i]? = some old := by
  have hmove := handlesMove_of_holds (CaptureSystem.held_step hstep)
  have hlength : after.cells.length = before.cells.length := by
    rw [← length_held after, ← length_held before]
    rcases hmove.length with h | ⟨h, -⟩
    · exact h
    · rw [hstarts] at h
      cases h
  have hlt := lt_of_get hcell
  rw [hlength] at hlt
  exact ⟨_, List.getElem?_eq_getElem hlt⟩

/-! ## Requests and decisions -/

/-- How a policy maps a request, and what is let through. -/
structure Decided (policy : RequestPolicy globs) (request : ProxyRequest env)
    (mapped : ProxyRequest env) (localPath : Option PathBuf) : Prop where
  connect : request.method ≠ connectMethod
  mapped : mapped =
    { request with uri := (policy.mapping.mapRequest request.uri).mappedUri.getD request.uri }
  localPath : localPath = (policy.mapping.mapRequest request.uri).localPath

/-- The head of a request in a capture: the URL it came with, and the one it goes on with,
which the policy includes. -/
structure Describes (authorities : Authorities) (limits : CapturePolicy)
    (policy : RequestPolicy globs) (request mapped : ProxyRequest env)
    (localPath : Option PathBuf) (head : RequestMetadata) : Prop where
  head : head = requestMetadata
    { method := mapped.method
      originalUri := encode (env.uriToString request.uri)
      effectiveUri := encode (env.uriToString mapped.uri)
      localPath := localPath.map encode
      headers := mapped.headers } limits
  included : policy.prefilter.includes authorities globs (env.uriToString mapped.uri) = true

theorem captureInput_describes {authorities : Authorities} {limits : CapturePolicy}
    {policy : RequestPolicy globs} {request mapped : ProxyRequest env}
    {localPath : Option PathBuf} {recording : Bool} {input : RequestCaptureInput}
    (hdecided : Decided policy request mapped localPath)
    (hinput : captureInput request (policy.evaluate authorities request.uri recording).1
      (policy.evaluate authorities request.uri recording).2 = some input) :
    Describes authorities limits policy request mapped localPath (requestMetadata input limits) := by
  obtain ⟨evaluation, hevaluation, rfl⟩ := Option.map_eq_some_iff.1 hinput
  obtain ⟨hevaluation, hincluded⟩ := Option.filter_eq_some_iff.1 hevaluation
  unfold RequestPolicy.evaluate at hevaluation
  have heffective : ((policy.mapping.mapRequest request.uri).mappedUri.map env.uriToString).getD
      (env.uriToString request.uri) = env.uriToString mapped.uri := by
    rw [hdecided.mapped]
    cases (policy.mapping.mapRequest request.uri).mappedUri <;> rfl
  have hlocal : (policy.evaluate authorities request.uri recording).1.localPath = localPath := by
    rw [hdecided.localPath]
    unfold RequestPolicy.evaluate
    dsimp only
    split
    · rfl
    · split <;> rfl
  dsimp only at hevaluation
  split at hevaluation
  · cases hevaluation
    dsimp only at hincluded
    rw [heffective] at hincluded
    refine ⟨?_, hincluded⟩
    rw [hlocal, heffective, hdecided.mapped]
  · split at hevaluation <;> cases hevaluation

theorem evaluate_decision (authorities : Authorities) (policy : RequestPolicy globs)
    (uri : env.Uri) (recording : Bool) :
    (policy.evaluate authorities uri recording).1 = policy.mapping.mapRequest uri := by
  unfold RequestPolicy.evaluate
  dsimp only
  split
  · rfl
  · split <;> rfl

/-- Only a decided request starts a capture. -/
theorem LogHandler.Moves.starts {authorities : Authorities} {policy : RequestPolicy globs}
    {recording : Bool} {handler : LogHandler env globs} {event : HandlerEvent env}
    {move : HandlerMove env globs} (h : Moves authorities policy recording handler event move)
    (hstarts : starts move.action = true) :
    ∃ request decision urls startedAt startedMono,
      handler.phase = .starting request decision urls ∧
      move.action = (captureInput request decision urls).map fun input =>
        .tryStart input startedAt startedMono := by
  have hdrop := (dropCurrent handler.current).2.2.2.1
  cases h with
  | start request decision urls startedAt startedMono hphase =>
    exact ⟨request, decision, urls, startedAt, startedMono, hphase, rfl⟩
  | keep request localPath capture after hphase hafter => cases hdrop.symm.trans hstarts
  | close hinert => cases hdrop.symm.trans hstarts
  | connect | arrive | evaluate | pass | spawn | quiet | answer | tee | fail | drop =>
    cases hstarts

/-! ## What the steps keep -/

namespace ProxySystem

variable {authorities : Authorities} {s t : ProxySystem env globs} {label : ProxyLabel env globs}
  {action : Option CaptureAction} {limits : CapturePolicy}

/-- A request that came in was decided by the policy that was in force then, and the capture,
if there is one, describes it. -/
def Justified (authorities : Authorities) (limits : CapturePolicy) (s : ProxySystem env globs)
    (mapped : ProxyRequest env) (localPath : Option PathBuf) (capture : Option CaptureSequence) :
    Prop :=
  ∃ request, ∃ policy ∈ s.installed, (request, policy) ∈ s.arrived ∧
    Decided policy request mapped localPath ∧
    ∀ i, capture = some i → ∃ cell, s.captures.cells[i]? = some cell ∧
      Describes authorities limits policy request mapped localPath cell.record.request

def Explained (authorities : Authorities) (limits : CapturePolicy) (s : ProxySystem env globs) :
    HandlerPhase env globs → Prop
  | .evaluating request policy =>
    (request, policy) ∈ s.arrived ∧ request.method ≠ connectMethod ∧ policy ∈ s.installed
  | .starting request decision urls =>
    request.method ≠ connectMethod ∧ ∃ policy ∈ s.installed, (request, policy) ∈ s.arrived ∧
      ∃ recording, policy.evaluate authorities request.uri recording = (decision, urls)
  | .started mapped localPath capture | .keeping mapped localPath capture =>
    Justified authorities limits s mapped localPath capture
  | _ => True

/-- A request is let through as it came in, or as it was decided. -/
def Allowed (authorities : Authorities) (limits : CapturePolicy) (s : ProxySystem env globs)
    (forwarded : ProxyRequest env × Option CaptureSequence) : Prop :=
  (forwarded.1.method = connectMethod ∧ (∃ policy, (forwarded.1, policy) ∈ s.arrived) ∧
      forwarded.2 = none) ∨
    Justified authorities limits s forwarded.1 none forwarded.2

structure Recorded (authorities : Authorities) (limits : CapturePolicy)
    (s : ProxySystem env globs) : Prop where
  policy : s.policy ∈ s.installed
  phases : ∀ handler ∈ s.handlers, Explained authorities limits s handler.phase
  cells : ∀ (i : Nat) cell, s.captures.cells[i]? = some cell → ∃ mapped localPath,
    Justified authorities limits s mapped localPath (some i)
  forwarded : ∀ entry ∈ s.forwarded, Allowed authorities limits s entry

/-- Requests, policies and the heads of captures stay. -/
structure Extends (s t : ProxySystem env globs) : Prop where
  arrived : ∀ arrival ∈ s.arrived, arrival ∈ t.arrived
  installed : ∀ policy ∈ s.installed, policy ∈ t.installed
  heads : ∀ (i : Nat) cell, s.captures.cells[i]? = some cell →
    ∃ cell', t.captures.cells[i]? = some cell' ∧ cell'.record.request = cell.record.request

theorem Extends.justified (h : Extends s t) {mapped : ProxyRequest env} {localPath : Option PathBuf}
    {capture : Option CaptureSequence}
    (hjustified : Justified authorities limits s mapped localPath capture) :
    Justified authorities limits t mapped localPath capture := by
  obtain ⟨request, policy, hpolicy, harrived, hdecided, hcapture⟩ := hjustified
  refine ⟨request, policy, h.installed _ hpolicy, h.arrived _ harrived, hdecided, fun i hi => ?_⟩
  obtain ⟨cell, hcell, hdescribes⟩ := hcapture i hi
  obtain ⟨cell', hcell', hhead⟩ := h.heads i cell hcell
  exact ⟨cell', hcell', hhead ▸ hdescribes⟩

theorem Extends.explained (h : Extends s t) {phase : HandlerPhase env globs}
    (hexplained : Explained authorities limits s phase) :
    Explained authorities limits t phase := by
  cases phase with
  | evaluating request policy =>
    obtain ⟨hrequest, hmethod, hpolicy⟩ := hexplained
    exact ⟨h.arrived _ hrequest, hmethod, h.installed _ hpolicy⟩
  | starting request decision urls =>
    obtain ⟨hmethod, policy, hpolicy, harrived, hurls⟩ := hexplained
    exact ⟨hmethod, policy, h.installed _ hpolicy, h.arrived _ harrived, hurls⟩
  | started mapped localPath capture => exact h.justified hexplained
  | keeping mapped localPath capture => exact h.justified hexplained
  | idle | opening | answering _ | failing _ _ | dropping _ | gone => exact hexplained

theorem Extends.allowed (h : Extends s t)
    {forwarded : ProxyRequest env × Option CaptureSequence}
    (hallowed : Allowed authorities limits s forwarded) : Allowed authorities limits t forwarded := by
  rcases hallowed with ⟨hmethod, ⟨policy, harrived⟩, hnone⟩ | hjustified
  · exact .inl ⟨hmethod, ⟨policy, h.arrived _ harrived⟩, hnone⟩
  · exact .inr (h.justified hjustified)

theorem Change.extends (h : Change authorities s action t) (hconserved : s.captures.Conserved) :
    Extends s t := by
  have hheads : ∀ (i : Nat) cell, s.captures.cells[i]? = some cell →
      ∃ cell', t.captures.cells[i]? = some cell' ∧
        cell'.record.request = cell.record.request := by
    intro i cell hcell
    have hperform := h.books.perform
    cases action with
    | none =>
      have heq : s.captures = t.captures := Option.some.inj hperform
      exact ⟨cell, heq ▸ hcell, rfl⟩
    | some a => exact CaptureSystem.step_request hconserved hperform hcell
  refine ⟨?_, ?_, hheads⟩
  · cases h with
    | handler => exact fun arrival hmem => List.mem_append_left _ hmem
    | clone | pump | view | interrupt | setRecording | replacePolicy => exact fun _ hmem => hmem
  · cases h with
    | replacePolicy policy => exact fun _ hmem => List.mem_append_left _ hmem
    | clone | handler | pump | view | interrupt | setRecording => exact fun _ hmem => hmem

/-- A capture that a call starts describes the request that the call is about. -/
theorem Explained.start {request : ProxyRequest env} {decision : MappingDecision env}
    {urls : RequestUrlState} {startedAt startedMono : Nat}
    (h : Explained authorities limits s (.starting request decision urls))
    (hpolicy : s.captures.policy = limits) (hextends : Extends s t)
    (hperform : perform s.captures ((captureInput request decision urls).map fun input =>
      .tryStart input startedAt startedMono) = some t.captures)
    {capture : Option CaptureSequence} (hnew : ∀ i, capture = some i →
      s.captures.cells[i]? = none ∧ ∃ cell, t.captures.cells[i]? = some cell) :
    Justified authorities limits t { request with uri := decision.mappedUri.getD request.uri }
      decision.localPath capture := by
  obtain ⟨hmethod, policy, hinstalled, harrived, recording, hurls⟩ := h
  have hdecision : decision = policy.mapping.mapRequest request.uri := by
    rw [← evaluate_decision authorities policy request.uri recording, hurls]
  have hdecided : Decided policy request
      { request with uri := decision.mappedUri.getD request.uri } decision.localPath :=
    ⟨hmethod, by rw [hdecision], by rw [hdecision]⟩
  refine ⟨request, policy, hextends.installed _ hinstalled, hextends.arrived _ harrived, hdecided,
    fun i hi => ?_⟩
  obtain ⟨hnone, cell, hcell⟩ := hnew i hi
  refine ⟨cell, hcell, ?_⟩
  cases hinput : captureInput request decision urls with
  | none =>
    rw [hinput] at hperform
    have heq : s.captures = t.captures := Option.some.inj hperform
    rw [← heq, hnone] at hcell
    cases hcell
  | some input =>
    rw [hinput] at hperform
    rw [CaptureSystem.request_tryStart hperform hnone hcell, hpolicy]
    exact captureInput_describes hdecided (by rw [hurls]; exact hinput)

/-- A call explains its next phase, and the request that it lets through. -/
theorem Recorded.handler_move (h : s.Recorded authorities limits)
    (hpolicy : s.captures.policy = limits) {k : Nat}
    {handler : LogHandler env globs} {event : HandlerEvent env} {move : HandlerMove env globs}
    (hget : s.handlers[k]? = some handler)
    (hmove : handler.step authorities s.policy s.recording event = some move)
    (hperform : perform s.captures move.action = some t.captures) (hextends : Extends s t)
    (harriving : ∀ arrival ∈ arriving s.policy event, arrival ∈ t.arrived) :
    Explained authorities limits t
        (move.next (startedHandle s.captures t.captures)).phase ∧
      ∀ entry, move.forwarded = some entry → Allowed authorities limits t entry := by
  have hphase := h.phases handler (List.mem_of_getElem? hget)
  cases LogHandler.step_moves hmove with
  | connect request hidle hmethod =>
    refine ⟨hextends.explained hphase, fun entry hentry => ?_⟩
    cases hentry
    exact .inl ⟨hmethod, ⟨s.policy, harriving _ (List.mem_singleton_self _)⟩, rfl⟩
  | arrive request hidle hmethod =>
    exact ⟨⟨harriving _ (List.mem_singleton_self _), hmethod,
      hextends.installed _ h.policy⟩, fun _ h => by cases h⟩
  | evaluate request policy hevaluating =>
    rw [hevaluating] at hphase
    obtain ⟨hrequest, hmethod, hinstalled⟩ := hphase
    exact ⟨⟨hmethod, policy, hextends.installed _ hinstalled, hextends.arrived _ hrequest,
      s.recording, rfl⟩, fun _ h => by cases h⟩
  | start request decision urls startedAt startedMono hstarting =>
    rw [hstarting] at hphase
    refine ⟨Explained.start hphase hpolicy hextends hperform fun i hi => ?_,
      fun _ h => by cases h⟩
    obtain ⟨rfl, hpos⟩ := startedHandle_eq.1 hi
    refine ⟨List.getElem?_eq_none (Nat.le_refl _), ?_⟩
    cases hcell : t.captures.cells[s.captures.cells.length]? with
    | none =>
      rw [handles, hcell] at hpos
      cases hpos
    | some cell => exact ⟨cell, rfl⟩
  | pass request localPath hstarted =>
    rw [hstarted] at hphase
    exact ⟨hextends.justified hphase, fun _ h => by cases h⟩
  | spawn request localPath capture pump hstarted hpump =>
    rw [hstarted] at hphase
    exact ⟨hextends.justified hphase, fun _ h => by cases h⟩
  | keep request localPath capture after hkeeping hafter =>
    rw [hkeeping] at hphase
    refine ⟨?_, fun entry hentry => ?_⟩
    · rcases hafter with rfl | rfl <;> trivial
    · dsimp only at hentry
      split at hentry
      · cases hentry
      · rename_i hremote
        cases hentry
        rw [Option.not_isSome_iff_eq_none] at hremote
        subst hremote
        exact .inr (hextends.justified hphase)
  | answer event capture response instant phase hinert hcurrent hanswering =>
    refine ⟨?_, fun _ h => by cases h⟩
    rcases hanswering with rfl | ⟨error, rfl⟩ <;> trivial
  | quiet | tee | fail | drop | close => exact ⟨trivial, fun _ h => by cases h⟩

/-- A capture that a step adds is explained by the call that started it. -/
theorem Recorded.new_cell (h : s.Recorded authorities limits) (hpolicy : s.captures.policy = limits)
    (hchange : Change authorities s action t) (hextends : Extends s t) {i : Nat} {cell : CaptureCell}
    (hcell : t.captures.cells[i]? = some cell) (hnone : s.captures.cells[i]? = none) :
    ∃ mapped localPath, Justified authorities limits t mapped localPath (some i) := by
  have hold : starts action = false → False := by
    intro hstarts
    have hperform := hchange.books.perform
    cases action with
    | none =>
      have heq : s.captures = t.captures := Option.some.inj hperform
      rw [← heq, hnone] at hcell
      cases hcell
    | some a =>
      obtain ⟨old, hold⟩ := cell_of_step hperform hstarts hcell
      rw [hnone] at hold
      cases hold
  cases hchange with
  | handler k handler event move captures hget hmove hperform =>
    by_cases hstarts : starts move.action = true
    · obtain ⟨request, decision, urls, startedAt, startedMono, hstarting, haction⟩ :=
        (LogHandler.step_moves hmove).starts hstarts
      have hphase := h.phases handler (List.mem_of_getElem? hget)
      rw [hstarting] at hphase
      rw [haction] at hperform
      refine ⟨_, _, Explained.start hphase hpolicy hextends hperform fun j hj => ?_⟩
      obtain rfl := Option.some.inj hj
      exact ⟨hnone, cell, hcell⟩
    · exact (hold (by simpa using hstarts)).elim
  | pump p pump next event action captures hget hmove hperform =>
    exact (hold (BodyPump.step_books hmove).starts).elim
  | view action captures hviewer hstep =>
    refine (hold ?_).elim
    cases action <;> first | rfl | cases hviewer
  | clone => exact (hold rfl).elim
  | interrupt => exact (hold rfl).elim
  | setRecording enabled => exact (hold rfl).elim
  | replacePolicy policy => exact (hold rfl).elim

theorem Recorded.change (h : s.Recorded authorities limits) (hsound : s.Sound limits)
    (hchange : Change authorities s action t) : t.Recorded authorities limits := by
  have hextends := hchange.extends hsound.conserved
  have hcells : ∀ (i : Nat) cell, t.captures.cells[i]? = some cell → ∃ mapped localPath,
      Justified authorities limits t mapped localPath (some i) := by
    intro i cell hcell
    cases hold : s.captures.cells[i]? with
    | none => exact h.new_cell hsound.policy hchange hextends hcell hold
    | some old =>
      obtain ⟨mapped, localPath, hjustified⟩ := h.cells i old hold
      exact ⟨mapped, localPath, hextends.justified hjustified⟩
  have hsame : t.policy ∈ t.installed → t.handlers = s.handlers → t.forwarded = s.forwarded →
      t.Recorded authorities limits := by
    intro hpolicy hhandlers hforwarded
    refine ⟨hpolicy, fun handler hmem => ?_, hcells, fun entry hmem => ?_⟩
    · exact hextends.explained (h.phases handler (hhandlers ▸ hmem))
    · exact hextends.allowed (h.forwarded entry (hforwarded ▸ hmem))
  cases hchange with
  | handler k handler event move captures hget hmove hperform =>
    obtain ⟨hphase, hentry⟩ := h.handler_move hsound.policy hget hmove hperform hextends
      fun arrival hmem => List.mem_append_right _ hmem
    refine ⟨h.policy, fun other hmem => ?_, hcells, fun entry hmem => ?_⟩
    · rcases mem_set_iff hget hmem with rfl | ⟨q, -, hq⟩
      · exact hphase
      · exact hextends.explained (h.phases other (List.mem_of_getElem? hq))
    · rcases List.mem_append.1 hmem with hmem | hmem
      · exact hextends.allowed (h.forwarded entry hmem)
      · exact hentry entry (Option.mem_toList.1 hmem)
  | clone =>
    refine ⟨h.policy, fun handler hmem => ?_, hcells, fun entry hmem => ?_⟩
    · rcases List.mem_append.1 hmem with hmem | hmem
      · exact hextends.explained (h.phases handler hmem)
      · rw [List.mem_singleton.1 hmem]
        trivial
    · exact hextends.allowed (h.forwarded entry hmem)
  | pump p pump next event action captures hget hmove hperform => exact hsame h.policy rfl rfl
  | view action captures hviewer hstep => exact hsame h.policy rfl rfl
  | interrupt => exact hsame h.policy rfl rfl
  | setRecording enabled => exact hsame h.policy rfl rfl
  | replacePolicy policy =>
    exact hsame (List.mem_append_right _ (List.mem_singleton_self policy)) rfl rfl

end ProxySystem

/-! ## Each request once -/

/-- The capture whose request is about to be let through. -/
def HandlerPhase.unforwarded : HandlerPhase env globs → Option CaptureSequence
  | .started _ _ capture | .keeping _ _ capture => capture
  | _ => none

def forwards (i : CaptureSequence) (entry : ProxyRequest env × Option CaptureSequence) : Nat :=
  one entry.2 i

def LogHandler.forwards (i : CaptureSequence) (handler : LogHandler env globs) : Nat :=
  one handler.phase.unforwarded i

theorem LogHandler.Moves.forwards {authorities : Authorities} {policy : RequestPolicy globs}
    {recording : Bool} {handler : LogHandler env globs} {event : HandlerEvent env}
    {move : HandlerMove env globs} (h : Moves authorities policy recording handler event move)
    (handle : Option CaptureSequence) (hhandle : Proxy.starts move.action = false → handle = none)
    (i : CaptureSequence) :
    (move.next handle).forwards i + total (Proxy.forwards i) move.forwarded.toList ≤
      handler.forwards i + one handle i := by
  unfold LogHandler.forwards
  cases h with
  | connect request hphase hmethod => simp [Proxy.forwards]
  | start request decision urls startedAt startedMono hphase =>
    simp [hphase, HandlerPhase.unforwarded]
  | pass request localPath hphase =>
    simp [hphase, HandlerPhase.unforwarded]
  | spawn request localPath capture pump hphase hpump =>
    simp [hphase, HandlerPhase.unforwarded]
  | keep request localPath capture after hphase hafter =>
    have hnone : after.unforwarded = none := by
      rcases hafter with rfl | rfl <;> rfl
    dsimp only
    rw [hnone, hphase]
    split <;> simp [Proxy.forwards, HandlerPhase.unforwarded]
  | answer event capture response instant phase hinert hcurrent hphase =>
    have hnone : phase.unforwarded = none := by
      rcases hphase with rfl | ⟨error, rfl⟩ <;> rfl
    simp [hnone]
  | arrive | evaluate | quiet | tee | fail | drop | close => simp [HandlerPhase.unforwarded]

namespace ProxySystem

variable {authorities : Authorities} {s t : ProxySystem env globs} {action : Option CaptureAction}

/-- The requests of a capture that were let through, and those that may yet be. -/
def forwards (s : ProxySystem env globs) (i : CaptureSequence) : Nat :=
  total (LogHandler.forwards i) s.handlers + total (Proxy.forwards i) s.forwarded

structure Once (s : ProxySystem env globs) : Prop where
  forwards : ∀ i, s.forwards i ≤ 1
  fresh : ∀ i, s.captures.cells.length ≤ i → s.forwards i = 0

theorem Change.forwards (h : Change authorities s action t) (i : CaptureSequence) :
    t.forwards i ≤ s.forwards i + one (startedHandle s.captures t.captures) i := by
  cases h with
  | handler k handler event move captures hget hmove hperform =>
    have hmine := (LogHandler.step_moves hmove).forwards (startedHandle s.captures captures)
      (startedHandle_perform hperform) i
    have hall := total_set hget (LogHandler.forwards i)
      (move.next (startedHandle s.captures captures))
    simp only [ProxySystem.forwards, total_append]
    omega
  | clone =>
    simp [ProxySystem.forwards, LogHandler.forwards, HandlerPhase.unforwarded]
  | pump | view | interrupt | setRecording | replacePolicy => exact Nat.le_add_right _ _

theorem Once.change (h : s.Once) (hchange : Change authorities s action t) : t.Once := by
  have hbooks := hchange.books
  refine ⟨fun i => ?_, fun i hi => ?_⟩
  · have hforwards := hchange.forwards i
    by_cases hstarted : 0 < one (startedHandle s.captures t.captures) i
    · obtain ⟨rfl, -⟩ := startedHandle_eq.1 (one_pos.1 hstarted)
      have hfresh := h.fresh _ (Nat.le_refl _)
      have hle := one_le (startedHandle s.captures t.captures) s.captures.cells.length
      omega
    · have hbefore := h.forwards i
      omega
  · have hforwards := hchange.forwards i
    have hfresh := h.fresh i (hbooks.length.trans hi)
    have hnot : one (startedHandle s.captures t.captures) i = 0 := started_lt hi
    omega

variable {policy : CapturePolicy} {retention : CaptureRetentionPolicy}
  {requests : RequestPolicy globs} {labels : List (ProxyLabel env globs)}

/-- In every order of steps: every capture describes a request that came in, with the URL
it came with, the URL that the policy in force then gave it and the headers, and the policy
includes that URL; whatever is let through is a CONNECT request as it came in, or a request
as the policy mapped it, described by its capture; and it is let through once. -/
theorem requests_recorded
    (hrun : run (step authorities) (new policy retention requests) labels = some s) :
    (∀ (i : Nat) cell, s.captures.cells[i]? = some cell → ∃ mapped localPath,
        Justified authorities policy s mapped localPath (some i)) ∧
      (∀ entry ∈ s.forwarded, Allowed authorities policy s entry) ∧
      ∀ i, total (Proxy.forwards i) s.forwarded ≤ 1 := by
  have h : s.Sound policy ∧ s.Recorded authorities policy ∧ s.Once := by
    refine run_invariant (I := fun s : ProxySystem env globs =>
      s.Sound policy ∧ s.Recorded authorities policy ∧ s.Once) ?_
      ⟨sound_new policy retention requests, ?_, ?_⟩ hrun
    · rintro s label t ⟨hsound, hrecorded, honce⟩ hstep
      obtain ⟨action, hchange⟩ := step_change hstep
      exact ⟨hsound.change hchange, hrecorded.change hsound hchange, honce.change hchange⟩
    · refine ⟨List.mem_singleton_self requests, fun handler hmem => ?_, fun i cell hcell => ?_,
        fun entry hmem => absurd hmem List.not_mem_nil⟩
      · rw [List.mem_singleton.1 hmem]
        trivial
      · cases hcell
    · exact ⟨fun i => Nat.zero_le 1, fun i _ => rfl⟩
  obtain ⟨-, hrecorded, honce⟩ := h
  exact ⟨hrecorded.cells, hrecorded.forwarded,
    fun i => (Nat.le_add_left _ _).trans (honce.forwards i)⟩

theorem requests_recorded_sample :
    ∃ s : ProxySystem sampleEnvironment sampleGlobset,
      run (step sampleAuthorities) (new {} {} samplePolicy) sampleRequest = some s ∧
      total (Proxy.forwards 0) s.forwarded = 1 ∧
      ∀ entry ∈ s.forwarded, Allowed sampleAuthorities {} s entry := by
  obtain ⟨s, hrun⟩ := Option.isSome_iff_exists.1
    (show (run (step sampleAuthorities) (new {} {} samplePolicy) sampleRequest).isSome = true by
      decide +kernel)
  have hcount : (run (step sampleAuthorities) (new {} {} samplePolicy) sampleRequest).map
      (fun s => total (Proxy.forwards 0) s.forwarded) = some 1 := by decide +kernel
  rw [hrun] at hcount
  exact ⟨s, hrun, Option.some.inj hcount, (requests_recorded hrun).2.1⟩

end ProxySystem

end Fluxcope.Proxy
