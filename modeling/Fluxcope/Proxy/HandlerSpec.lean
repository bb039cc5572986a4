import Fluxcope.Library.Shares
import Fluxcope.Capture.Admission
import Fluxcope.Proxy.Handler
import Fluxcope.Proxy.BodyPumpSpec
/-!
# Who holds a capture

The handles of a capture are counted where they are kept: in the handlers and the
pumps.  With a handle goes what its owner may still do: a side of a capture has at
most one owner, and an owner that has told the end writes no more.
-/

namespace Fluxcope.Proxy

open Fluxcope.Library Fluxcope.Library.Utf8 Fluxcope.Capture Fluxcope.Mapping Fluxcope.Settings

variable {env : Environment} {globs : Globset}

/-! ## Counting -/

/-- One if the capture is there, otherwise none. -/
def one (capture : Option CaptureSequence) (i : CaptureSequence) : Nat :=
  if capture = some i then 1 else 0

@[simp] theorem one_none (i : CaptureSequence) : one none i = 0 := rfl

theorem one_pos {capture : Option CaptureSequence} {i : CaptureSequence} :
    0 < one capture i ↔ capture = some i := by
  unfold one
  split <;> simp_all

/-- The handle that an action makes, as one more of a capture that has some. -/
def cloned : Option CaptureAction → Option CaptureSequence
  | some (.cloneHandle i) => some i
  | _ => none

def dropped : Option CaptureAction → Option CaptureSequence
  | some (.dropHandle i) => some i
  | _ => none

def finished (side : BodySide) : Option CaptureAction → Option CaptureSequence
  | some (.finish i target _ _) => if target = side then some i else none
  | _ => none

def starts : Option CaptureAction → Bool
  | some (.tryStart _ _ _) => true
  | _ => false

/-- The capture whose handle an action is done with. -/
def used : Option CaptureAction → Option CaptureSequence
  | some (.cloneHandle i) | some (.dropHandle i) | some (.setResponse i _ _)
  | some (.append i _ _) | some (.finish i _ _ _) => some i
  | _ => none

/-- The capture that the call under way holds a handle of. -/
def HandlerPhase.handle : HandlerPhase env globs → Option CaptureSequence
  | .started _ _ capture | .keeping _ _ capture => capture
  | .answering capture | .failing capture _ | .dropping capture => some capture
  | .idle | .evaluating _ _ | .starting _ _ _ | .opening | .gone => none

/-- The capture whose request body has no pump yet. -/
def HandlerPhase.unspawned : HandlerPhase env globs → Option CaptureSequence
  | .started _ _ capture => capture
  | _ => none

/-- The capture whose response the call under way does not end by itself any more. -/
def HandlerPhase.unanswered (phase : HandlerPhase env globs) : Option CaptureSequence :=
  match phase with
  | .dropping _ => none
  | _ => phase.handle

/-- No call is under way that a capture is part of. -/
structure HandlerPhase.Inert (phase : HandlerPhase env globs) : Prop where
  handle : phase.handle = none
  unspawned : phase.unspawned = none
  unanswered : phase.unanswered = none

theorem inert_idle : (.idle : HandlerPhase env globs).Inert := ⟨rfl, rfl, rfl⟩

theorem inert_opening : (.opening : HandlerPhase env globs).Inert := ⟨rfl, rfl, rfl⟩

theorem inert_gone : (.gone : HandlerPhase env globs).Inert := ⟨rfl, rfl, rfl⟩

def LogHandler.holds (i : CaptureSequence) (handler : LogHandler env globs) : Nat :=
  one handler.current i + one handler.phase.handle i

/-- What a handler holds is the response of its captures, and the request body until it
has a pump. -/
def LogHandler.claims (i : CaptureSequence) (side : BodySide) (handler : LogHandler env globs) :
    Nat :=
  match side with
  | .request => one handler.phase.unspawned i
  | .response => handler.holds i

/-- The same for the sides that the handler has not ended. -/
def LogHandler.writes (i : CaptureSequence) (side : BodySide) (handler : LogHandler env globs) :
    Nat :=
  match side with
  | .request => one handler.phase.unspawned i
  | .response => one handler.current i + one handler.phase.unanswered i

def BodyPump.holds (i : CaptureSequence) (pump : BodyPump) : Nat :=
  if pump.sequence = i ∧ pump.isGone = false then 1 else 0

/-- A pump claims its side for good. -/
def BodyPump.claims (i : CaptureSequence) (side : BodySide) (pump : BodyPump) : Nat :=
  if pump.sequence = i ∧ pump.side = side then 1 else 0

def BodyPump.writes (i : CaptureSequence) (side : BodySide) (pump : BodyPump) : Nat :=
  if pump.sequence = i ∧ pump.side = side ∧ pump.reason = none then 1 else 0

/-! ## The moves of a handler -/

namespace LogHandler

variable {authorities : Authorities} {policy : RequestPolicy globs} {recording : Bool}
  {handler : LogHandler env globs} {event : HandlerEvent env} {move : HandlerMove env globs}

/-- All that a step can do. -/
inductive Moves (authorities : Authorities) (policy : RequestPolicy globs) (recording : Bool)
    (handler : LogHandler env globs) : HandlerEvent env → HandlerMove env globs → Prop
  | connect (request : ProxyRequest env) (hphase : handler.phase = .idle)
      (hmethod : request.method = connectMethod) :
      Moves authorities policy recording handler (.request request)
        { forwarded := some (request, none), next := fun _ => handler }
  | arrive (request : ProxyRequest env) (hphase : handler.phase = .idle)
      (hmethod : request.method ≠ connectMethod) :
      Moves authorities policy recording handler (.request request)
        { next := fun _ => { handler with phase := .evaluating request policy } }
  | evaluate (request : ProxyRequest env) (current : RequestPolicy globs)
      (hphase : handler.phase = .evaluating request current) :
      Moves authorities policy recording handler .evaluate
        { next := fun _ =>
          { handler with
            phase := .starting request (current.evaluate authorities request.uri recording).1
              (current.evaluate authorities request.uri recording).2 } }
  | start (request : ProxyRequest env) (decision : MappingDecision env) (urls : RequestUrlState)
      (startedAt startedMono : Nat) (hphase : handler.phase = .starting request decision urls) :
      Moves authorities policy recording handler (.start startedAt startedMono)
        { action := (captureInput request decision urls).map fun input =>
            .tryStart input startedAt startedMono
          next := fun capture =>
            { handler with
              phase := .started { request with uri := decision.mappedUri.getD request.uri }
                decision.localPath capture } }
  | pass (request : ProxyRequest env) (localPath : Option PathBuf)
      (hphase : handler.phase = .started request localPath none) :
      Moves authorities policy recording handler .spawn
        { next := fun _ => { handler with phase := .keeping request localPath none } }
  | spawn (request : ProxyRequest env) (localPath : Option PathBuf) (capture : CaptureSequence)
      (pump : BodyPump) (hphase : handler.phase = .started request localPath (some capture))
      (hpump : pump = drainBody capture ∨ pump = teeBody capture .request) :
      Moves authorities policy recording handler .spawn
        { action := some (.cloneHandle capture)
          pump := some pump
          next := fun _ => { handler with phase := .keeping request localPath (some capture) } }
  | keep (request : ProxyRequest env) (localPath : Option PathBuf)
      (capture : Option CaptureSequence) (after : HandlerPhase env globs)
      (hphase : handler.phase = .keeping request localPath capture)
      (hafter : after = .idle ∨ after = .opening) :
      Moves authorities policy recording handler .keep
        { action := handler.current.map .dropHandle
          forwarded := if localPath.isSome then none else some (request, capture)
          next := fun _ => { current := capture, phase := after } }
  | quiet (event : HandlerEvent env) (hinert : handler.phase.Inert)
      (hcurrent : handler.current = none) :
      Moves authorities policy recording handler event
        { next := fun _ => { handler with phase := .idle } }
  | answer (event : HandlerEvent env) (capture : CaptureSequence) (response : ProxyResponse)
      (instant : Nat) (phase : HandlerPhase env globs) (hinert : handler.phase.Inert)
      (hcurrent : handler.current = some capture)
      (hphase : phase = .answering capture ∨ ∃ error, phase = .failing capture error) :
      Moves authorities policy recording handler event
        { action := some (.setResponse capture (responseInput response) instant)
          next := fun _ => { current := none, phase } }
  | tee (capture : CaptureSequence) (hphase : handler.phase = .answering capture) :
      Moves authorities policy recording handler .tee
        { pump := some (teeBody capture .response)
          next := fun _ => { handler with phase := .idle } }
  | fail (capture : CaptureSequence) (error : Bytes) (instant : Nat)
      (hphase : handler.phase = .failing capture error) :
      Moves authorities policy recording handler (.fail instant)
        { action := some (.finish capture .response (.failed (upstreamFailure error)) instant)
          next := fun _ => { handler with phase := .dropping capture } }
  | drop (capture : CaptureSequence) (hphase : handler.phase = .dropping capture) :
      Moves authorities policy recording handler .drop
        { action := some (.dropHandle capture)
          next := fun _ => { handler with phase := .idle } }
  | close (hinert : handler.phase.Inert) :
      Moves authorities policy recording handler .close
        { action := handler.current.map .dropHandle
          next := fun _ => { current := none, phase := .gone } }

theorem setResponse_moves {phase : CaptureSequence → HandlerPhase env globs}
    (hphase : ∀ i, phase i = .answering i ∨ ∃ error, phase i = .failing i error)
    (hinert : handler.phase.Inert) (response : ProxyResponse) (instant : Nat) :
    Moves authorities policy recording handler event
      (handler.setResponse response instant phase) := by
  unfold setResponse
  split
  · rename_i hcurrent
    exact .quiet event hinert hcurrent
  · rename_i capture hcurrent
    exact .answer event capture response instant _ hinert hcurrent (hphase capture)

theorem step_moves (h : handler.step authorities policy recording event = some move) :
    Moves authorities policy recording handler event move := by
  cases event with
  | request request =>
    simp only [step] at h
    split at h
    · rename_i hphase
      split at h
      · rename_i hmethod
        cases h
        exact .connect request hphase hmethod
      · rename_i hmethod
        cases h
        exact .arrive request hphase hmethod
    · cases h
  | evaluate =>
    simp only [step] at h
    split at h
    · rename_i request current hphase
      cases h
      exact .evaluate request current hphase
    · cases h
  | start startedAt startedMono =>
    simp only [step] at h
    split at h
    · rename_i request decision urls hphase
      cases h
      exact .start request decision urls startedAt startedMono hphase
    · cases h
  | spawn =>
    simp only [step] at h
    split at h
    · rename_i request localPath capture hphase
      cases h
      cases capture with
      | none => exact .pass request localPath hphase
      | some capture =>
        refine .spawn request localPath capture _ hphase ?_
        split
        · exact .inl rfl
        · exact .inr rfl
    · cases h
  | keep =>
    simp only [step] at h
    split at h
    · rename_i request localPath capture hphase
      cases h
      refine .keep request localPath capture _ hphase ?_
      split
      · exact .inr rfl
      · exact .inl rfl
    · cases h
  | respond response instant =>
    simp only [step] at h
    split at h
    · rename_i hphase
      cases h
      exact setResponse_moves (fun i => .inl rfl) (hphase ▸ inert_idle) response instant
    · rename_i hphase
      cases h
      exact setResponse_moves (fun i => .inl rfl) (hphase ▸ inert_opening) response instant
    · cases h
  | tee =>
    simp only [step] at h
    split at h
    · rename_i capture hphase
      cases h
      exact .tee capture hphase
    · cases h
  | upstreamFailed error instant =>
    simp only [step] at h
    split at h
    · rename_i hphase
      cases h
      exact setResponse_moves (fun i => .inr ⟨error, rfl⟩) (hphase ▸ inert_idle) badGateway
        instant
    · cases h
  | fail instant =>
    simp only [step] at h
    split at h
    · rename_i capture error hphase
      cases h
      exact .fail capture error instant hphase
    · cases h
  | drop =>
    simp only [step] at h
    split at h
    · rename_i capture hphase
      cases h
      exact .drop capture hphase
    · cases h
  | close =>
    simp only [step] at h
    split at h
    · rename_i hphase
      cases h
      exact .close (hphase ▸ inert_idle)
    · rename_i hphase
      cases h
      exact .close (hphase ▸ inert_opening)
    · cases h

/-! ## What follows from a move -/

/-- What a move does to the handles and the claims, and what is left to write after it. -/
structure Books (handler : LogHandler env globs) (move : HandlerMove env globs)
    (handle : Option CaptureSequence) : Prop where
  holds : ∀ i, (move.next handle).holds i + total (BodyPump.holds i) move.pump.toList +
    one (dropped move.action) i = handler.holds i + one (cloned move.action) i + one handle i
  claims : ∀ i side, (move.next handle).claims i side +
    total (BodyPump.claims i side) move.pump.toList ≤ handler.claims i side + one handle i
  writes : ∀ i side, (move.next handle).writes i side +
    total (BodyPump.writes i side) move.pump.toList + one (finished side move.action) i ≤
      handler.writes i side + one handle i

/-- The current request is given up, and nothing else. -/
theorem dropCurrent (current : Option CaptureSequence) :
    cloned (current.map .dropHandle) = none ∧ dropped (current.map .dropHandle) = current ∧
      (∀ side, finished side (current.map .dropHandle) = none) ∧
      starts (current.map .dropHandle) = false ∧ used (current.map .dropHandle) = current := by
  cases current with
  | none => exact ⟨rfl, rfl, fun _ => rfl, rfl, rfl⟩
  | some capture => exact ⟨rfl, rfl, fun _ => rfl, rfl, rfl⟩

theorem Moves.books (h : Moves authorities policy recording handler event move)
    (handle : Option CaptureSequence) (hhandle : starts move.action = false → handle = none) :
    Books handler move handle := by
  cases h with
  | connect request hphase hmethod =>
    obtain rfl := hhandle rfl
    exact ⟨fun i => by simp [cloned, dropped], fun i side => by simp,
      fun i side => by simp [finished]⟩
  | arrive request hphase hmethod =>
    obtain rfl := hhandle rfl
    refine ⟨fun i => ?_, fun i side => ?_, fun i side => ?_⟩
    · simp [holds, hphase, HandlerPhase.handle, cloned, dropped]
    · cases side <;> simp [claims, holds, hphase, HandlerPhase.handle, HandlerPhase.unspawned]
    · cases side <;> simp [writes, hphase, HandlerPhase.handle, HandlerPhase.unspawned,
        HandlerPhase.unanswered, finished]
  | evaluate request current hphase =>
    obtain rfl := hhandle rfl
    refine ⟨fun i => ?_, fun i side => ?_, fun i side => ?_⟩
    · simp [holds, hphase, HandlerPhase.handle, cloned, dropped]
    · cases side <;> simp [claims, holds, hphase, HandlerPhase.handle, HandlerPhase.unspawned]
    · cases side <;> simp [writes, hphase, HandlerPhase.handle, HandlerPhase.unspawned,
        HandlerPhase.unanswered, finished]
  | start request decision urls startedAt startedMono hphase =>
    have hnone : cloned ((captureInput request decision urls).map fun input =>
          .tryStart input startedAt startedMono) = none ∧
        dropped ((captureInput request decision urls).map fun input =>
          .tryStart input startedAt startedMono) = none ∧
        ∀ side, finished side ((captureInput request decision urls).map fun input =>
          .tryStart input startedAt startedMono) = none := by
      cases captureInput request decision urls with
      | none => exact ⟨rfl, rfl, fun _ => rfl⟩
      | some input => exact ⟨rfl, rfl, fun _ => rfl⟩
    refine ⟨fun i => ?_, fun i side => ?_, fun i side => ?_⟩
    · simp [holds, hphase, HandlerPhase.handle, hnone]
    · cases side <;> simp [claims, holds, hphase, HandlerPhase.handle, HandlerPhase.unspawned]
    · cases side <;> simp [writes, hphase, HandlerPhase.handle, HandlerPhase.unspawned,
        HandlerPhase.unanswered, hnone]
  | pass request localPath hphase =>
    obtain rfl := hhandle rfl
    refine ⟨fun i => ?_, fun i side => ?_, fun i side => ?_⟩
    · simp [holds, hphase, HandlerPhase.handle, cloned, dropped]
    · cases side <;> simp [claims, holds, hphase, HandlerPhase.handle, HandlerPhase.unspawned]
    · cases side <;> simp [writes, hphase, HandlerPhase.handle, HandlerPhase.unspawned,
        HandlerPhase.unanswered, finished]
  | spawn request localPath capture pump hphase hpump =>
    obtain rfl := hhandle rfl
    -- Either pump is a pump of the request side that has just begun.
    have hbegun : ∃ channel, pump = { sequence := capture, side := .request, channel } := by
      rcases hpump with rfl | rfl
      · exact ⟨none, rfl⟩
      · exact ⟨_, rfl⟩
    obtain ⟨channel, rfl⟩ := hbegun
    refine ⟨fun i => ?_, fun i side => ?_, fun i side => ?_⟩
    · simp [holds, hphase, HandlerPhase.handle, cloned, dropped, BodyPump.holds,
        BodyPump.isGone, one]
    · cases side <;> simp [claims, holds, hphase, HandlerPhase.handle,
        HandlerPhase.unspawned, BodyPump.claims, one]
    · cases side <;> simp [writes, hphase, HandlerPhase.handle, HandlerPhase.unspawned,
        HandlerPhase.unanswered, finished, BodyPump.writes, BodyPump.reason, one]
  | keep request localPath capture after hphase hafter =>
    have hdrop := dropCurrent handler.current
    obtain rfl := hhandle hdrop.2.2.2.1
    have hinert : after.Inert := by
      rcases hafter with rfl | rfl
      · exact inert_idle
      · exact inert_opening
    refine ⟨fun i => ?_, fun i side => ?_, fun i side => ?_⟩
    · simp only [holds, hphase, hinert.handle, hdrop]
      simp [HandlerPhase.handle, Nat.add_comm]
    · cases side with
      | request =>
        simp only [claims, hphase, hinert.unspawned]
        simp [HandlerPhase.unspawned]
      | response =>
        simp only [claims, holds, hphase, hinert.handle]
        simp [HandlerPhase.handle]
    · cases side with
      | request =>
        simp only [writes, hphase, hinert.unspawned, hdrop]
        simp [HandlerPhase.unspawned]
      | response =>
        simp only [writes, hphase, hinert.unanswered, hdrop]
        simp [HandlerPhase.unanswered, HandlerPhase.handle]
  | quiet event hinert hcurrent =>
    obtain rfl := hhandle rfl
    have hidle : (.idle : HandlerPhase env globs).Inert := inert_idle
    refine ⟨fun i => ?_, fun i side => ?_, fun i side => ?_⟩
    · simp [holds, hinert.handle, hidle.handle, cloned, dropped]
    · cases side <;>
        simp [claims, holds, hinert.handle, hidle.handle, hinert.unspawned, hidle.unspawned]
    · cases side <;>
        simp [writes, hinert.unanswered, hidle.unanswered, hinert.unspawned, hidle.unspawned,
          finished]
  | answer event capture response instant phase hinert hcurrent hphase =>
    obtain rfl := hhandle rfl
    have hcall : phase.handle = some capture ∧ phase.unspawned = none ∧
        phase.unanswered = some capture := by
      rcases hphase with rfl | ⟨error, rfl⟩ <;> exact ⟨rfl, rfl, rfl⟩
    refine ⟨fun i => ?_, fun i side => ?_, fun i side => ?_⟩
    · simp [holds, hinert.handle, hcall, hcurrent, cloned, dropped]
    · cases side <;>
        simp [claims, holds, hinert.handle, hcall, hinert.unspawned, hcurrent]
    · cases side <;>
        simp [writes, hinert.unanswered, hcall, hinert.unspawned, hcurrent, finished]
  | tee capture hphase =>
    obtain rfl := hhandle rfl
    refine ⟨fun i => ?_, fun i side => ?_, fun i side => ?_⟩
    · simp [holds, hphase, HandlerPhase.handle, cloned, dropped, teeBody, BodyPump.holds,
        BodyPump.isGone, one]
    · cases side <;> simp [claims, holds, hphase, HandlerPhase.handle, HandlerPhase.unspawned,
        teeBody, BodyPump.claims, one]
    · cases side <;> simp [writes, hphase, HandlerPhase.handle, HandlerPhase.unspawned,
        HandlerPhase.unanswered, finished, teeBody, BodyPump.writes, BodyPump.reason, one]
  | fail capture error instant hphase =>
    obtain rfl := hhandle rfl
    refine ⟨fun i => ?_, fun i side => ?_, fun i side => ?_⟩
    · simp [holds, hphase, HandlerPhase.handle, cloned, dropped]
    · cases side <;> simp [claims, holds, hphase, HandlerPhase.handle, HandlerPhase.unspawned]
    · cases side <;> simp [writes, hphase, HandlerPhase.handle, HandlerPhase.unspawned,
        HandlerPhase.unanswered, finished]
  | drop capture hphase =>
    obtain rfl := hhandle rfl
    refine ⟨fun i => ?_, fun i side => ?_, fun i side => ?_⟩
    · simp [holds, hphase, HandlerPhase.handle, cloned, dropped]
    · cases side <;> simp [claims, holds, hphase, HandlerPhase.handle, HandlerPhase.unspawned]
    · cases side <;> simp [writes, hphase, HandlerPhase.handle, HandlerPhase.unspawned,
        HandlerPhase.unanswered, finished]
  | close hinert =>
    have hdrop := dropCurrent handler.current
    obtain rfl := hhandle hdrop.2.2.2.1
    have hgone : (.gone : HandlerPhase env globs).Inert := inert_gone
    refine ⟨fun i => ?_, fun i side => ?_, fun i side => ?_⟩
    · simp [holds, hinert.handle, hgone.handle, hdrop]
    · cases side <;> simp [claims, holds, hgone.handle, hgone.unspawned]
    · cases side <;> simp [writes, hgone.unspawned, hgone.unanswered, hdrop]

/-- A handler only does what it has a handle for. -/
theorem Moves.used (h : Moves authorities policy recording handler event move)
    {i : CaptureSequence} (hused : used move.action = some i) : 0 < handler.holds i := by
  have hcurrent : handler.current = some i → 0 < handler.holds i := fun hcurrent =>
    Nat.add_pos_left (one_pos.2 hcurrent) _
  have hcall : handler.phase.handle = some i → 0 < handler.holds i := fun hcall =>
    Nat.add_pos_right _ (one_pos.2 hcall)
  have hdrop := (dropCurrent handler.current).2.2.2.2
  cases h with
  | start request decision urls startedAt startedMono hphase =>
    cases hinput : captureInput request decision urls <;> rw [hinput] at hused <;> cases hused
  | spawn request localPath capture pump hphase hpump =>
    cases hused
    exact hcall (by rw [hphase]; rfl)
  | keep request localPath capture after hphase hafter => exact hcurrent (hdrop.symm.trans hused)
  | answer event capture response instant phase hinert heq hphase =>
    cases hused
    exact hcurrent heq
  | fail capture error instant hphase =>
    cases hused
    exact hcall (by rw [hphase]; rfl)
  | drop capture hphase =>
    cases hused
    exact hcall (by rw [hphase]; rfl)
  | close hinert => exact hcurrent (hdrop.symm.trans hused)
  | connect | arrive | evaluate | pass | quiet | tee => cases hused

/-- What a handler does needs a handle, or makes one. -/
theorem Moves.ofViewer (h : Moves authorities policy recording handler event move)
    (a : CaptureAction) (ha : move.action = some a) : ofViewer a = false := by
  have hdrop : handler.current.map .dropHandle = some a → Proxy.ofViewer a = false := by
    intro hdrop
    obtain ⟨capture, -, rfl⟩ := Option.map_eq_some_iff.1 hdrop
    rfl
  cases h with
  | start request decision urls startedAt startedMono hphase =>
    obtain ⟨input, -, rfl⟩ := Option.map_eq_some_iff.1 ha
    rfl
  | keep request localPath capture after hphase hafter => exact hdrop ha
  | close hinert => exact hdrop ha
  | spawn | answer | fail | drop =>
    cases ha
    rfl
  | connect | arrive | evaluate | pass | quiet | tee => cases ha

end LogHandler

end Fluxcope.Proxy
