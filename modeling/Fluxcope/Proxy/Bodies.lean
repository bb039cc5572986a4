import Fluxcope.Capture.Sides
import Fluxcope.Capture.Liveness
import Fluxcope.Capture.BodyPrefix
import Fluxcope.Proxy.OwnershipRuns
/-!
# Captured bodies and their pumps

In every order of steps a captured body is what its pump showed, and a side of a
capture ends when its pump, or the handler that failed it, says so and never again.
-/

namespace Fluxcope.Proxy

open Fluxcope.Library Fluxcope.Library.Utf8 Fluxcope.Capture Fluxcope.Mapping Fluxcope.Settings

/-! ## What an action brings to a side -/

/-- The bytes that an action appends to a side. -/
def appended (i : CaptureSequence) (side : BodySide) : Option CaptureAction → Bytes
  | some (.append j target bytes) => if j = i ∧ target = side then bytes else []
  | _ => []

/-- The action is a response head. -/
def answered : Option CaptureAction → Option CaptureSequence
  | some (.setResponse i _ _) => some i
  | _ => none

theorem appended_viewer {action : CaptureAction} (h : ofViewer action = true)
    (i : CaptureSequence) (side : BodySide) : appended i side (some action) = [] := by
  cases action <;> first | rfl | cases h

namespace BodyPump

variable {pump next : BodyPump} {interrupted : Bool} {event : PumpEvent}
  {action : Option CaptureAction}

/-- A pump shows what it appends, to its own side, before it ends. -/
structure Appends (pump next : BodyPump) (action : Option CaptureAction) : Prop where
  shown : next.shown = pump.shown ++ appended pump.sequence pump.side action
  own : ∀ i side, appended i side action ≠ [] →
    pump.sequence = i ∧ pump.side = side ∧ pump.reason = none

theorem appends_none (hshown : next.shown = pump.shown)
    (hnone : ∀ i side, appended i side action = []) : Appends pump next action := by
  refine ⟨?_, fun i side h => absurd (hnone i side) h⟩
  rw [hshown, hnone, List.append_nil]

theorem step_appends (h : pump.step interrupted event = some (next, action)) :
    Appends pump next action := by
  cases step_moves h with
  | append bytes hphase =>
    refine ⟨?_, fun i side hbytes => ?_⟩
    · simp [appended]
    · have hkey : pump.sequence = i ∧ pump.side = side := by
        by_contra hkey
        exact hbytes (if_neg hkey)
      exact ⟨hkey.1, hkey.2, by simp [reason, hphase]⟩
  | take frame hphase hreader => exact appends_none rfl fun _ _ => rfl
  | drain frame hphase hreader => exact appends_none rfl fun _ _ => rfl
  | send frame channel channel' hphase hchannel hsend => exact appends_none rfl fun _ _ => rfl
  | finish reason instant hends hshutdown hrejected => exact appends_none rfl fun _ _ => rfl
  | leave reason hphase => exact appends_none rfl fun _ _ => rfl
  | receive channel channel' frame hunseen hchannel hreceive => exact appends_none rfl fun _ _ => rfl
  | see channel channel' result error hunseen hchannel hreceive hvalues herror =>
    exact appends_none rfl fun _ _ => rfl
  | dropReader channel hchannel => exact appends_none rfl fun _ _ => rfl

/-- A pump ends once, and says how. -/
structure Ends (pump next : BodyPump) (action : Option CaptureAction) : Prop where
  terminal : ∀ reason, next.terminal reason = pump.terminal reason
  kept : ∀ reason, pump.reason = some reason → next.reason = some reason
  told : ∀ i side terminal instant, action = some (.finish i side terminal instant) →
    pump.sequence = i ∧ pump.side = side ∧ pump.reason = none ∧
      ∃ reason, next.reason = some reason ∧ terminal = pump.terminal reason
  ended : pump.reason = none → ∀ reason, next.reason = some reason →
    ∃ instant, action = some (.finish pump.sequence pump.side (pump.terminal reason) instant)

theorem ends_none (hchannel : next.channel.isSome = pump.channel.isSome)
    (hreason : next.reason = pump.reason)
    (hnone : ∀ i side terminal instant, action ≠ some (.finish i side terminal instant)) :
    Ends pump next action := by
  refine ⟨PumpRun.terminal_congr hchannel, fun reason h => hreason.trans h,
    fun i side terminal instant h => absurd h (hnone i side terminal instant),
    fun hopen reason h => ?_⟩
  rw [hreason, hopen] at h
  cases h

theorem step_ends (h : pump.step interrupted event = some (next, action)) :
    Ends pump next action := by
  cases step_moves h with
  | take frame hphase hreader =>
    exact ends_none rfl (by simp [reason, hphase]) fun _ _ _ _ h => by cases h
  | drain frame hphase hreader =>
    exact ends_none rfl ((reason_handOver _ frame).trans (by simp [reason, hphase]))
      fun _ _ _ _ h => by cases h
  | send frame channel channel' hphase hchannel hsend =>
    exact ends_none (by rw [hchannel]; rfl)
      ((reason_handOver _ frame).trans (by simp [reason, hphase])) fun _ _ _ _ h => by cases h
  | finish reason instant hends hshutdown hrejected =>
    have hopen : pump.reason = none := by
      rcases hends with hphase | ⟨-, frame, hphase⟩ <;> simp [BodyPump.reason, hphase]
    refine ⟨PumpRun.terminal_congr rfl, fun reason' h => ?_, fun i side terminal instant' h => ?_,
      fun _ reason' h => ?_⟩
    · rw [hopen] at h
      cases h
    · cases h
      exact ⟨rfl, rfl, hopen, reason, rfl, rfl⟩
    · obtain rfl : reason = reason' := Option.some.inj h
      exact ⟨instant, rfl⟩
  | append bytes hphase =>
    exact ends_none rfl (by simp [reason, hphase]) fun _ _ _ _ h => by cases h
  | leave reason hphase =>
    exact ends_none Option.isSome_map (by simp [BodyPump.reason, hphase])
      fun _ _ _ _ h => by cases h
  | receive channel channel' frame hunseen hchannel hreceive =>
    exact ends_none (by rw [hchannel]; rfl) rfl fun _ _ _ _ h => by cases h
  | see channel channel' result error hunseen hchannel hreceive hvalues herror =>
    exact ends_none (by rw [hchannel]; rfl) rfl fun _ _ _ _ h => by cases h
  | dropReader channel hchannel =>
    exact ends_none (by rw [hchannel]; rfl) rfl fun _ _ _ _ h => by cases h

end BodyPump

namespace LogHandler

variable {env : Environment} {globs : Globset} {authorities : Authorities}
  {policy : RequestPolicy globs} {recording : Bool} {handler : LogHandler env globs}
  {event : HandlerEvent env} {move : HandlerMove env globs}

/-- A handler appends nothing, and only answers the capture of its current request. -/
theorem Moves.answered (h : Moves authorities policy recording handler event move) :
    (∀ i side, appended i side move.action = []) ∧
      ∀ i, answered move.action = some i → handler.current = some i := by
  have hdrop : (∀ i side, appended i side (handler.current.map .dropHandle) = []) ∧
      ∀ i, Proxy.answered (handler.current.map .dropHandle) = some i →
        handler.current = some i := by
    cases handler.current <;> exact ⟨fun _ _ => rfl, fun _ h => by cases h⟩
  cases h with
  | start request decision urls startedAt startedMono hphase =>
    cases captureInput request decision urls <;> exact ⟨fun _ _ => rfl, fun _ h => by cases h⟩
  | keep request localPath capture after hphase hafter => exact hdrop
  | close hinert => exact hdrop
  | answer event capture response instant phase hinert hcurrent hphase =>
    exact ⟨fun _ _ => rfl, fun i h => hcurrent.trans h⟩
  | connect | arrive | evaluate | pass | spawn | quiet | tee | fail | drop =>
    exact ⟨fun _ _ => rfl, fun _ h => by cases h⟩

/-- The pumps that a handler spawns have just begun. -/
theorem Moves.pump (h : Moves authorities policy recording handler event move)
    {pump : BodyPump} (hpump : move.pump = some pump) : PumpRun.Starts pump := by
  cases h with
  | spawn request localPath capture other hphase hother =>
    cases hpump
    rcases hother with rfl | rfl
    · exact .drain capture
    · exact .tee capture .request
  | tee capture hphase =>
    cases hpump
    exact .tee capture .response
  | connect | arrive | evaluate | start | pass | keep | quiet | answer | fail | drop | close =>
    cases hpump

theorem writes_le_claims (i : CaptureSequence) (side : BodySide) (handler : LogHandler env globs) :
    handler.writes i side ≤ handler.claims i side := by
  cases side with
  | request => exact Nat.le_refl _
  | response =>
    refine Nat.add_le_add_left ?_ _
    unfold HandlerPhase.unanswered
    split
    · exact Nat.zero_le _
    · exact Nat.le_refl _

end LogHandler

theorem BodyPump.writes_le_claims (i : CaptureSequence) (side : BodySide) (pump : BodyPump) :
    pump.writes i side ≤ pump.claims i side := by
  unfold writes claims
  split
  · rename_i h
    rw [if_pos ⟨h.1, h.2.1⟩]
  · exact Nat.zero_le _

end Fluxcope.Proxy
