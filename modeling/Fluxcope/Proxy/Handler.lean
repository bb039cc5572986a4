import Fluxcope.Settings.DefaultPort
import Fluxcope.Proxy.BodyPump
/-!
# The handlers of the proxy

A handler maps a request, starts its capture if the policy includes it, and hands
the bodies to pumps.  Handlers, pumps, the viewers of the captures and the settings
move in any order.
-/

namespace Fluxcope.Settings

open Fluxcope.Library Fluxcope.Mapping

/-! ## The decision about a request -/

inductive RequestUrlState
  | none
  | mappingOnly (originalUrl : Text)
  | recording (originalUrl : Text) (mappedEffectiveUrl : Option Text) (included : Bool)
  deriving DecidableEq, Repr

structure RecordingPolicyEvaluation where
  originalUrl : Text
  effectiveUrl : Text
  included : Bool
  deriving DecidableEq, Repr

/-- `RequestUrlState::recording` -/
def RequestUrlState.evaluation : RequestUrlState → Option RecordingPolicyEvaluation
  | .none | .mappingOnly _ => Option.none
  | .recording originalUrl mappedEffectiveUrl included =>
    some { originalUrl, effectiveUrl := mappedEffectiveUrl.getD originalUrl, included }

def RequestPolicy.evaluate {env : Environment} {globs : Globset} (authorities : Authorities)
    (policy : RequestPolicy globs) (originalUri : env.Uri) (recordingEnabled : Bool) :
    MappingDecision env × RequestUrlState :=
  let mapping := policy.mapping.mapRequest originalUri
  if recordingEnabled then
    let originalUrl := env.uriToString originalUri
    let mappedEffectiveUrl := mapping.mappedUri.map env.uriToString
    let effectiveUrl := mappedEffectiveUrl.getD originalUrl
    let included := policy.prefilter.includes authorities globs effectiveUrl
    (mapping, .recording originalUrl mappedEffectiveUrl included)
  else if mapping.mappedUri.isSome || mapping.localPath.isSome then
    (mapping, .mappingOnly (env.uriToString originalUri))
  else (mapping, .none)

end Fluxcope.Settings

namespace Fluxcope.Proxy

open Fluxcope.Library Fluxcope.Library.Utf8 Fluxcope.Capture Fluxcope.Mapping Fluxcope.Settings

/-! ## One handler -/

structure ProxyRequest (env : Environment) where
  method : Bytes
  uri : env.Uri
  headers : HeaderFields

structure ProxyResponse where
  status : Nat
  headers : HeaderFields

/-- Where a call stands.  `evaluating`, `starting`, `started` and `keeping` are the steps of
`capture_request`, after the policy, the decision, the capture and the pump; `opening`
waits for a local file; `answering` is inside `capture_response`, and `failing` and
`dropping` are inside `handle_error`.  Between the calls a handler is idle, until it is
dropped. -/
inductive HandlerPhase (env : Environment) (globs : Globset)
  | idle
  | evaluating (request : ProxyRequest env) (policy : RequestPolicy globs)
  | starting (request : ProxyRequest env) (decision : MappingDecision env)
      (urls : RequestUrlState)
  | started (request : ProxyRequest env) (localPath : Option PathBuf)
      (capture : Option CaptureSequence)
  | keeping (request : ProxyRequest env) (localPath : Option PathBuf)
      (capture : Option CaptureSequence)
  | opening
  | answering (capture : CaptureSequence)
  | failing (capture : CaptureSequence) (error : Bytes)
  | dropping (capture : CaptureSequence)
  | gone

/-- `current_request`, and the call that is under way. -/
structure LogHandler (env : Environment) (globs : Globset) where
  current : Option CaptureSequence := none
  phase : HandlerPhase env globs := .idle

/-- The calls, and the steps they take. -/
inductive HandlerEvent (env : Environment)
  | request (request : ProxyRequest env)
  | evaluate
  | start (startedAt startedMono : Nat)
  | spawn
  | keep
  | respond (response : ProxyResponse) (instant : Nat)
  | tee
  | upstreamFailed (error : Bytes) (instant : Nat)
  | fail (instant : Nat)
  | drop
  | close

/-- A step of a handler: what it does to the captures, the pump it spawns, the request it
lets through, and the handler after it, given the handle of a capture it started. -/
structure HandlerMove (env : Environment) (globs : Globset) where
  action : Option CaptureAction := none
  pump : Option BodyPump := none
  forwarded : Option (ProxyRequest env × Option CaptureSequence) := none
  next : Option CaptureSequence → LogHandler env globs

def connectMethod : Bytes := encode "CONNECT".toList

/-- What `try_start` is called with, if it is called. -/
def captureInput {env : Environment} (request : ProxyRequest env) (decision : MappingDecision env)
    (urls : RequestUrlState) : Option RequestCaptureInput :=
  (urls.evaluation.filter fun recording => recording.included).map fun recording =>
    { method := request.method
      originalUri := encode recording.originalUrl
      effectiveUri := encode recording.effectiveUrl
      localPath := decision.localPath.map encode
      headers := request.headers }

def badGateway : ProxyResponse := { status := 502, headers := [] }

def responseInput (response : ProxyResponse) : ResponseCaptureInput :=
  { status := response.status, headers := response.headers }

def upstreamFailure (error : Bytes) : Bytes := encode "upstream request failed: ".toList ++ error

variable {env : Environment} {globs : Globset}

/-- `take` of the current request, and `set_response` on its capture. -/
def LogHandler.setResponse (handler : LogHandler env globs) (response : ProxyResponse)
    (instant : Nat) (phase : CaptureSequence → HandlerPhase env globs) : HandlerMove env globs :=
  match handler.current with
  | none => { next := fun _ => { handler with phase := .idle } }
  | some capture =>
    { action := some (.setResponse capture (responseInput response) instant)
      next := fun _ => { current := none, phase := phase capture } }

/-- `none` is for a step that is not possible. -/
def LogHandler.step (authorities : Authorities) (policy : RequestPolicy globs) (recording : Bool)
    (handler : LogHandler env globs) : HandlerEvent env → Option (HandlerMove env globs)
  | .request request =>
    match handler.phase with
    | .idle =>
      -- CONNECT only establishes the tunnel for other requests.
      if request.method = connectMethod then
        some { forwarded := some (request, none), next := fun _ => handler }
      else some { next := fun _ => { handler with phase := .evaluating request policy } }
    | _ => none
  | .evaluate =>
    match handler.phase with
    | .evaluating request policy =>
      let (decision, urls) := policy.evaluate authorities request.uri recording
      some { next := fun _ => { handler with phase := .starting request decision urls } }
    | _ => none
  | .start startedAt startedMono =>
    match handler.phase with
    | .starting request decision urls =>
      let mapped := { request with uri := decision.mappedUri.getD request.uri }
      some {
        action := (captureInput request decision urls).map fun input =>
          .tryStart input startedAt startedMono
        next := fun capture =>
          { handler with phase := .started mapped decision.localPath capture } }
    | _ => none
  | .spawn =>
    match handler.phase with
    | .started request localPath capture =>
      some {
        action := capture.map .cloneHandle
        pump := capture.map fun capture =>
          if localPath.isSome then drainBody capture else teeBody capture .request
        next := fun _ => { handler with phase := .keeping request localPath capture } }
    | _ => none
  | .keep =>
    match handler.phase with
    | .keeping request localPath capture =>
      some {
        action := handler.current.map .dropHandle
        forwarded := if localPath.isSome then none else some (request, capture)
        next := fun _ =>
          { current := capture, phase := if localPath.isSome then .opening else .idle } }
    | _ => none
  | .respond response instant =>
    match handler.phase with
    | .idle | .opening => some (handler.setResponse response instant .answering)
    | _ => none
  | .tee =>
    match handler.phase with
    | .answering capture =>
      some {
        pump := some (teeBody capture .response)
        next := fun _ => { handler with phase := .idle } }
    | _ => none
  | .upstreamFailed error instant =>
    match handler.phase with
    | .idle => some (handler.setResponse badGateway instant (.failing · error))
    | _ => none
  | .fail instant =>
    match handler.phase with
    | .failing capture error =>
      some {
        action := some (.finish capture .response (.failed (upstreamFailure error)) instant)
        next := fun _ => { handler with phase := .dropping capture } }
    | _ => none
  | .drop =>
    match handler.phase with
    | .dropping capture =>
      some {
        action := some (.dropHandle capture)
        next := fun _ => { handler with phase := .idle } }
    | _ => none
  | .close =>
    match handler.phase with
    | .idle | .opening =>
      some {
        action := handler.current.map .dropHandle
        next := fun _ => { current := none, phase := .gone } }
    | _ => none

/-! ## The system -/

/-- The actions that need no handle. -/
def ofViewer : CaptureAction → Bool
  | .tryStart _ _ _ | .cloneHandle _ | .dropHandle _ | .setResponse _ _ _ | .append _ _ _
  | .finish _ _ _ _ => false
  | _ => true

/-- All of the proxy.  `arrived`, `installed` and `forwarded` are not in the source: the
requests that came in, each with the policy that was in force then, the policies there were,
and the requests that were let through with their captures. -/
structure ProxySystem (env : Environment) (globs : Globset) where
  captures : CaptureSystem
  policy : RequestPolicy globs
  recording : Bool := true
  interrupted : Bool := false
  handlers : List (LogHandler env globs) := [{}]
  pumps : List BodyPump := []
  arrived : List (ProxyRequest env × RequestPolicy globs) := []
  installed : List (RequestPolicy globs) := [policy]
  forwarded : List (ProxyRequest env × Option CaptureSequence) := []

/-- `clone` makes a handler that has no request. -/
inductive ProxyLabel (env : Environment) (globs : Globset)
  | clone
  | handler (h : Nat) (event : HandlerEvent env)
  | pump (p : Nat) (event : PumpEvent)
  | view (action : CaptureAction)
  | interrupt
  | setRecording (enabled : Bool)
  | replacePolicy (policy : RequestPolicy globs)

namespace ProxySystem

def new (policy : CapturePolicy) (retention : CaptureRetentionPolicy)
    (requests : RequestPolicy globs) : ProxySystem env globs :=
  { captures := .new policy retention, policy := requests }

def perform (captures : CaptureSystem) : Option CaptureAction → Option CaptureSystem
  | none => some captures
  | some action => captures.step action

/-- The handle that `try_start` returned, if a capture was started. -/
def startedHandle (before after : CaptureSystem) : Option CaptureSequence :=
  (after.cells[before.cells.length]?).bind fun cell =>
    if 0 < cell.handles then some before.cells.length else none

/-- The requests that an event brings, and the policy that they are given. -/
def arriving (policy : RequestPolicy globs) :
    HandlerEvent env → List (ProxyRequest env × RequestPolicy globs)
  | .request request => [(request, policy)]
  | _ => []

def step (authorities : Authorities) (s : ProxySystem env globs) :
    ProxyLabel env globs → Option (ProxySystem env globs)
  | .clone => some { s with handlers := s.handlers ++ [{}] }
  | .handler h event => do
      let handler ← s.handlers[h]?
      let move ← handler.step authorities s.policy s.recording event
      let captures ← perform s.captures move.action
      some { s with
        captures
        handlers := s.handlers.set h (move.next (startedHandle s.captures captures))
        pumps := s.pumps ++ move.pump.toList
        arrived := s.arrived ++ arriving s.policy event
        forwarded := s.forwarded ++ move.forwarded.toList }
  | .pump p event => do
      let pump ← s.pumps[p]?
      let (pump, action) ← pump.step s.interrupted event
      let captures ← perform s.captures action
      some { s with captures, pumps := s.pumps.set p pump }
  | .view action =>
    if ofViewer action then
      (s.captures.step action).map fun captures => { s with captures }
    else none
  | .interrupt => some { s with interrupted := true }
  | .setRecording enabled => some { s with recording := enabled }
  | .replacePolicy policy =>
    some { s with policy, installed := s.installed ++ [policy] }

end ProxySystem

end Fluxcope.Proxy
