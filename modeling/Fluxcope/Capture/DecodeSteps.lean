import Fluxcope.Library.Heap
import Fluxcope.Library.Run
import Fluxcope.Library.Shares
import Fluxcope.Capture.DecodeService
/-!
# Steps of the decode service

What a single step can do, for the callers, the loop of the service and the workers.
-/

namespace Fluxcope.Capture

open Fluxcope.Library Fluxcope.Library.Utf8

/-- A move of a call that changes nothing but where it stands. -/
inductive CallPhase.Turns : CallPhase → CallPhase → Prop
  | noRoom : Turns .reserving .rejecting
  | admitted : Turns .admitting .sending
  | notAdmitted : Turns .admitting .returning
  | full : Turns .sending .returning

/-- A move by which a call makes its key the desired one. -/
inductive CallPhase.Wishes : CallPhase → CallPhase → Prop
  | joining : Wishes .joining .joined
  | wanting : Wishes .wanting .superseding

/-- A move by which a call cancels the jobs with other keys. -/
inductive CallPhase.Supersedes : CallPhase → CallPhase → Prop
  | joined : Supersedes .joined (.answered true)
  | superseding : Supersedes .superseding .reserving

namespace DecodeSystem

variable {decode : Decoder} {s t : DecodeSystem} {event : DecodeEvent}

/-- What a move of the call at `i` can do. -/
inductive CallChange (s : DecodeSystem) (i : Nat) (call : DecodeCall) : DecodeSystem → Prop
  | joins (hphase : call.phase = .checking) (hfree : s.locked = false)
      (hpending : call.key ∈ s.pending) :
      CallChange s i call { s with calls := s.calls.set i { call with phase := .joining } }
  | inserts (hphase : call.phase = .checking) (hfree : s.locked = false)
      (hnew : call.key ∉ s.pending) :
      CallChange s i call { s with
        pending := call.key :: s.pending
        calls := s.calls.set i { call with phase := .wanting } }
  | wishes (phase : CallPhase) (hmove : call.phase.Wishes phase) :
      CallChange s i call { s with
        desired := some call.key
        calls := s.calls.set i { call with phase } }
  | supersedes (phase : CallPhase) (hmove : call.phase.Supersedes phase) :
      CallChange s i call { s with
        cancellations := s.cancelOthers call.key
        calls := s.calls.set i { call with phase } }
  | reserves (hphase : call.phase = .reserving)
      (hroom : s.queuedInputBytes + call.inputBytes ≤ s.policy.maxQueuedInputBytes) :
      CallChange s i call { s with
        queuedInputBytes := s.queuedInputBytes + call.inputBytes
        calls := s.calls.set i { call with phase := .admitting } }
  | turns (phase : CallPhase) (hmove : call.phase.Turns phase) :
      CallChange s i call { s with calls := s.calls.set i { call with phase } }
  | sends (hphase : call.phase = .sending) (hroom : s.jobs.length < s.policy.queueCapacity) :
      CallChange s i call { s with
        jobs := s.jobs ++ [{
          key := call.key
          input := call.input
          headers := call.headers
          cancellation := s.cancellations.length }]
        cancellations := s.cancellations ++ [false]
        calls := s.calls.set i { call with phase := .answered true } }
  | returns (hphase : call.phase = .returning) :
      CallChange s i call { s with
        queuedInputBytes := s.queuedInputBytes - call.inputBytes
        calls := s.calls.set i { call with phase := .rejecting } }
  | releases (hphase : call.phase = .rejecting) (hfree : s.locked = false) :
      CallChange s i call { s with
        pending := s.pending.erase call.key
        calls := s.calls.set i { call with phase := .forgetting } }
  | forgets (hphase : call.phase = .forgetting) :
      CallChange s i call { s with
        activeCancellations := Assoc.erase s.activeCancellations call.key
        metrics := { s.metrics with rejected := s.metrics.rejected + 1 }
        calls := s.calls.set i { call with phase := .answered false } }

theorem advance_change {i : Nat} {call : DecodeCall} {admits : Bool}
    (hadvance : s.advance i call admits = some t) : CallChange s i call t := by
  unfold advance at hadvance
  cases hphase : call.phase with
  | checking =>
    simp only [hphase] at hadvance
    split at hadvance
    · cases hadvance
    · rename_i hfree
      split at hadvance
      · rename_i hpending
        cases hadvance
        exact .joins hphase (by simpa using hfree) hpending
      · rename_i hnew
        cases hadvance
        exact .inserts hphase (by simpa using hfree) hnew
  | joining =>
    simp only [hphase] at hadvance
    cases hadvance
    exact .wishes _ (hphase ▸ .joining)
  | joined =>
    simp only [hphase] at hadvance
    cases hadvance
    exact .supersedes _ (hphase ▸ .joined)
  | wanting =>
    simp only [hphase] at hadvance
    cases hadvance
    exact .wishes _ (hphase ▸ .wanting)
  | superseding =>
    simp only [hphase] at hadvance
    cases hadvance
    exact .supersedes _ (hphase ▸ .superseding)
  | reserving =>
    simp only [hphase] at hadvance
    split at hadvance
    · rename_i hroom
      cases hadvance
      exact .reserves hphase hroom
    · cases hadvance
      exact .turns _ (hphase ▸ .noRoom)
  | admitting =>
    simp only [hphase] at hadvance
    cases hadvance
    cases admits with
    | true => exact .turns _ (hphase ▸ .admitted)
    | false => exact .turns _ (hphase ▸ .notAdmitted)
  | sending =>
    simp only [hphase] at hadvance
    split at hadvance
    · cases hadvance
      exact .turns _ (hphase ▸ .full)
    · split at hadvance
      · rename_i hroom
        cases hadvance
        exact .sends hphase hroom
      · cases hadvance
        exact .turns _ (hphase ▸ .full)
  | returning =>
    simp only [hphase] at hadvance
    cases hadvance
    exact .returns hphase
  | rejecting =>
    simp only [hphase] at hadvance
    split at hadvance
    · cases hadvance
    · rename_i hfree
      cases hadvance
      exact .releases hphase (by simpa using hfree)
  | forgetting =>
    simp only [hphase] at hadvance
    cases hadvance
    exact .forgets hphase
  | answered accepted =>
    simp only [hphase] at hadvance
    cases hadvance

/-- What a move of the loop can do. -/
inductive ServiceChange (s : DecodeSystem) : DecodeSystem → Prop
  | receives (job : DecodeJob) (jobs : List DecodeJob) (hphase : s.service = .waiting)
      (hjobs : s.jobs = job :: jobs) (hroom : s.active.length < s.policy.maxActive) :
      ServiceChange s { s with jobs, service := .received job }
  | uncounts (job : DecodeJob) (hphase : s.service = .received job) :
      ServiceChange s { s with
        queuedInputBytes := s.queuedInputBytes - job.inputBytes
        service := .checking job }
  | keeps (job : DecodeJob) (hphase : s.service = .checking job)
      (hdesired : s.desired = some job.key) :
      ServiceChange s { s with service := .registering job }
  | outdates (job : DecodeJob) (hphase : s.service = .checking job)
      (hdesired : s.desired ≠ some job.key) :
      ServiceChange s { s with service := .dropping job }
  | drops (job : DecodeJob) (hphase : s.service = .dropping job) (hfree : s.locked = false) :
      ServiceChange s { s with
        pending := s.pending.erase job.key
        metrics := { s.metrics with superseded := s.metrics.superseded + 1 }
        superseded := s.superseded ++ [job]
        service := .waiting }
  | registers (job : DecodeJob) (hphase : s.service = .registering job) :
      ServiceChange s { s with
        activeCancellations := Assoc.insert s.activeCancellations job.key job.cancellation
        service := .starting job }
  | starts (job : DecodeJob) (hphase : s.service = .starting job)
      (hdesired : s.desired = some job.key) :
      ServiceChange s { s with active := s.active ++ [(job, none)], service := .waiting }
  | startsCancelled (job : DecodeJob) (hphase : s.service = .starting job)
      (hdesired : s.desired ≠ some job.key) :
      ServiceChange s { s with
        cancellations := s.cancellations.set job.cancellation true
        active := s.active ++ [(job, none)]
        service := .waiting }
  | joins (i : Nat) (job : DecodeJob) (result : DecodeResult) (hphase : s.service = .waiting)
      (hget : s.active[i]? = some (job, some result)) :
      ServiceChange s { s with
        active := s.active.eraseIdx i
        service := .completed job result }
  | releases (job : DecodeJob) (result : DecodeResult) (hphase : s.service = .completed job result)
      (hfree : s.locked = false) :
      ServiceChange s { s with
        pending := s.pending.erase result.key
        service := .unregistering job result }
  | unregisters (job : DecodeJob) (result : DecodeResult)
      (hphase : s.service = .unregistering job result) :
      ServiceChange s { s with
        activeCancellations := Assoc.erase s.activeCancellations result.key
        service := .judging job result }
  | accepts (job : DecodeJob) (result : DecodeResult) (hphase : s.service = .judging job result)
      (hdesired : s.desired = some result.key) :
      ServiceChange s { s with
        metrics := s.metrics.count result
        service := .delivering job result }
  | overtakes (job : DecodeJob) (result : DecodeResult) (hphase : s.service = .judging job result)
      (hdesired : s.desired ≠ some result.key) :
      ServiceChange s { s with
        metrics := { s.metrics with superseded := s.metrics.superseded + 1 }
        superseded := s.superseded ++ [job]
        service := .waiting }
  | delivers (job : DecodeJob) (result : DecodeResult)
      (hphase : s.service = .delivering job result)
      (hroom : s.results.length < s.policy.queueCapacity) :
      ServiceChange s { s with
        results := s.results ++ [result]
        delivered := s.delivered ++ [(job, result)]
        service := .waiting }
  | fails (job : DecodeJob) (result : DecodeResult) (hphase : s.service = .delivering job result)
      (hend : s.resultsOpen = false ∨ s.shutdown = true) :
      ServiceChange s { s with unsent := s.unsent ++ [job], service := .cancelling }
  | leaves (hphase : s.service = .waiting) (hend : s.shutdown = true) :
      ServiceChange s { s with service := .cancelling }
  | cancels (hphase : s.service = .cancelling) :
      ServiceChange s { s with
        cancellations := s.cancelActive fun _ => true
        service := .draining }
  | drains (i : Nat) (job : DecodeJob) (result : DecodeResult) (hphase : s.service = .draining)
      (hget : s.active[i]? = some (job, some result)) :
      ServiceChange s { s with
        active := s.active.eraseIdx i
        discarded := s.discarded ++ [job] }
  | stops (hphase : s.service = .draining) (hactive : s.active = []) :
      ServiceChange s { s with service := .stopped }

theorem proceed_change (hproceed : s.proceed = some t) : ServiceChange s t := by
  unfold proceed at hproceed
  cases hphase : s.service with
  | waiting => simp only [hphase, reduceCtorEq] at hproceed
  | stopped => simp only [hphase, reduceCtorEq] at hproceed
  | received job =>
    simp only [hphase] at hproceed
    cases hproceed
    exact .uncounts job hphase
  | checking job =>
    simp only [hphase] at hproceed
    split at hproceed
    · rename_i hdesired
      cases hproceed
      exact .keeps job hphase hdesired
    · rename_i hdesired
      cases hproceed
      exact .outdates job hphase hdesired
  | dropping job =>
    simp only [hphase] at hproceed
    split at hproceed
    · cases hproceed
    · rename_i hfree
      cases hproceed
      exact .drops job hphase (by simpa using hfree)
  | registering job =>
    simp only [hphase] at hproceed
    cases hproceed
    exact .registers job hphase
  | starting job =>
    simp only [hphase] at hproceed
    cases hproceed
    split
    · rename_i hdesired
      exact .starts job hphase hdesired
    · rename_i hdesired
      exact .startsCancelled job hphase hdesired
  | completed job result =>
    simp only [hphase] at hproceed
    split at hproceed
    · cases hproceed
    · rename_i hfree
      cases hproceed
      exact .releases job result hphase (by simpa using hfree)
  | unregistering job result =>
    simp only [hphase] at hproceed
    cases hproceed
    exact .unregisters job result hphase
  | judging job result =>
    simp only [hphase] at hproceed
    split at hproceed
    · rename_i hdesired
      cases hproceed
      exact .accepts job result hphase hdesired
    · rename_i hdesired
      cases hproceed
      exact .overtakes job result hphase hdesired
  | delivering job result =>
    simp only [hphase] at hproceed
    split at hproceed
    · rename_i hclosed
      cases hproceed
      exact .fails job result hphase (.inl (by simpa using hclosed))
    · split at hproceed
      · rename_i hroom
        cases hproceed
        exact .delivers job result hphase hroom
      · cases hproceed
  | cancelling =>
    simp only [hphase] at hproceed
    cases hproceed
    exact .cancels hphase
  | draining =>
    simp only [hphase] at hproceed
    split at hproceed
    · rename_i hactive
      cases hproceed
      exact .stops hphase (by simpa using hactive)
    · cases hproceed

theorem leave_change (hleave : s.leave = some t) : ServiceChange s t := by
  unfold leave at hleave
  split at hleave
  · rename_i hend
    split at hleave
    · rename_i hphase
      cases hleave
      exact .leaves hphase hend
    · rename_i job result hphase
      cases hleave
      exact .fails job result hphase (.inr hend)
    · cases hleave
  · cases hleave

/-- What a step can do. -/
inductive Change (decode : Decoder) (s : DecodeSystem) : DecodeEvent → DecodeSystem → Prop
  | requested (key : DecodeKey) (input : List Bytes) (headers : HeaderFields) :
      Change decode s (.request key input headers)
        { s with calls := s.calls ++ [{ key, input, headers }] }
  | call (i : Nat) (admits : Bool) (call : DecodeCall) (next : DecodeSystem)
      (hget : s.calls[i]? = some call) (hchange : CallChange s i call next) :
      Change decode s (.advance i admits) next
  | service (event : DecodeEvent) (next : DecodeSystem) (hchange : ServiceChange s next) :
      Change decode s event next
  | finished (i : Nat) (outcome : WorkerEnd) (job : DecodeJob)
      (hget : s.active[i]? = some (job, none))
      (hends : s.mayEnd job outcome = true) :
      Change decode s (.finish i outcome)
        { s with active := s.active.set i (job, some (outcome.result decode job)) }
  | taken (result : DecodeResult) (results : List DecodeResult)
      (hresults : s.results = result :: results) :
      Change decode s .takeResult { s with results }
  | closed : Change decode s .closeResults { s with resultsOpen := false, results := [] }
  | cancelled : Change decode s .cancel { s with shutdown := true }

theorem step_change (hstep : s.step decode event = some t) : Change decode s event t := by
  cases event with
  | request key input headers =>
    cases hstep
    exact .requested key input headers
  | advance i admits =>
    obtain ⟨call, hget, hadvance⟩ := Option.bind_eq_some_iff.1 hstep
    exact .call i admits call t hget (advance_change hadvance)
  | receive =>
    simp only [step] at hstep
    split at hstep
    · rename_i job jobs hphase hjobs
      split at hstep
      · rename_i hroom
        cases hstep
        exact .service _ _ (.receives job jobs hphase hjobs hroom)
      · cases hstep
    · cases hstep
  | join i =>
    simp only [step] at hstep
    split at hstep
    · rename_i job result hphase hget
      cases hstep
      exact .service _ _ (.joins i job result hphase hget)
    · rename_i job result hphase hget
      cases hstep
      exact .service _ _ (.drains i job result hphase hget)
    · cases hstep
  | proceed => exact .service _ _ (proceed_change hstep)
  | leave => exact .service _ _ (leave_change hstep)
  | finish i outcome =>
    simp only [step] at hstep
    split at hstep
    · rename_i job hget
      split at hstep
      · rename_i hends
        cases hstep
        exact .finished i outcome job hget hends
      · cases hstep
    · cases hstep
  | takeResult =>
    simp only [step] at hstep
    split at hstep
    · rename_i result results hresults
      cases hstep
      exact .taken result results hresults
    · cases hstep
  | closeResults =>
    cases hstep
    exact .closed
  | cancel =>
    cases hstep
    exact .cancelled

end DecodeSystem

end Fluxcope.Capture
