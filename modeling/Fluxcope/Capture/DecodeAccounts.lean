import Fluxcope.Capture.DecodeSteps
/-!
# What is under way in the decode service

In every order of steps, each pending key belongs to exactly one call or job, the bytes of
the queued inputs are those that are counted, and each job stands in one place.
-/

namespace Fluxcope.Capture

open Fluxcope.Library Fluxcope.Library.Utf8

/-! ## Owners of keys and bytes -/

/-- The call has inserted its key and has neither handed it to a job nor removed it. -/
def CallPhase.holdsKey : CallPhase → Bool
  | .wanting | .superseding | .reserving | .admitting | .sending | .returning | .rejecting => true
  | .checking | .joining | .joined | .forgetting | .answered _ => false

/-- The bytes of the call's input are counted. -/
def CallPhase.holdsBytes : CallPhase → Bool
  | .admitting | .sending | .returning => true
  | _ => false

def DecodeCall.owns (key : DecodeKey) (call : DecodeCall) : Nat :=
  if call.phase.holdsKey = true ∧ call.key = key then 1 else 0

def DecodeCall.counted (call : DecodeCall) : Nat :=
  if call.phase.holdsBytes = true then call.inputBytes else 0

def DecodeJob.owns (key : DecodeKey) (job : DecodeJob) : Nat := if job.key = key then 1 else 0

/-- The job whose key the loop has not yet removed. -/
def ServicePhase.pendingJob : ServicePhase → List DecodeJob
  | .received job | .checking job | .dropping job | .registering job | .starting job
  | .completed job _ => [job]
  | _ => []

/-- The job whose bytes the loop has not yet taken off. -/
def ServicePhase.countedJob : ServicePhase → List DecodeJob
  | .received job => [job]
  | _ => []

namespace DecodeSystem

variable {decode : Decoder} {s t : DecodeSystem} {event : DecodeEvent}

/-- The jobs whose keys are pending. -/
def pendingJobs (s : DecodeSystem) : List DecodeJob :=
  s.jobs ++ s.service.pendingJob ++ s.active.map Prod.fst ++ s.discarded

def owners (s : DecodeSystem) (key : DecodeKey) : Nat :=
  total (DecodeCall.owns key) s.calls + total (DecodeJob.owns key) s.pendingJobs

def counted (s : DecodeSystem) : Nat :=
  total DecodeCall.counted s.calls +
    total DecodeJob.inputBytes (s.jobs ++ s.service.countedJob)

/-- The accounts of the service. -/
structure Accounts (s : DecodeSystem) : Prop where
  pending : ∀ key, s.owners key = s.pending.count key
  nodup : s.pending.Nodup
  bytes : s.queuedInputBytes = s.counted
  limit : s.queuedInputBytes ≤ s.policy.maxQueuedInputBytes

theorem accounts_new (policy : DecodePolicy) : (new policy).Accounts where
  pending _ := rfl
  nodup := .nil
  bytes := rfl
  limit := Nat.zero_le _

theorem owns_of_holds {call : DecodeCall} (h : call.phase.holdsKey = true) (key : DecodeKey) :
    call.owns key = if call.key = key then 1 else 0 := by
  simp [DecodeCall.owns, h]

theorem owns_of_free {call : DecodeCall} (h : call.phase.holdsKey = false) (key : DecodeKey) :
    call.owns key = 0 := by
  simp [DecodeCall.owns, h]

theorem counted_of_holds {call : DecodeCall} (h : call.phase.holdsBytes = true) :
    call.counted = call.inputBytes := by
  simp [DecodeCall.counted, h]

theorem counted_of_free {call : DecodeCall} (h : call.phase.holdsBytes = false) :
    call.counted = 0 := by
  simp [DecodeCall.counted, h]

/-- A call moves on with what it holds. -/
theorem Accounts.moved (h : s.Accounts) {i : Nat} {call : DecodeCall}
    (hget : s.calls[i]? = some call) {phase : CallPhase}
    (hkey : phase.holdsKey = call.phase.holdsKey)
    (hbytes : phase.holdsBytes = call.phase.holdsBytes)
    (desired : Option DecodeKey) (activeCancellations : List (DecodeKey × Nat))
    (cancellations : List Bool) (metrics : DecodeMetrics) :
    ({ s with
      calls := s.calls.set i { call with phase }
      desired, activeCancellations, cancellations, metrics }).Accounts := by
  refine ⟨fun key => ?_, h.nodup, ?_, h.limit⟩
  · have hset := total_set hget (DecodeCall.owns key) { call with phase }
    have hsame : ({ call with phase } : DecodeCall).owns key = call.owns key := by
      simp only [DecodeCall.owns, hkey]
    have hkept := h.pending key
    unfold owners at hkept ⊢
    dsimp only [pendingJobs] at hkept ⊢
    omega
  · have hset := total_set hget DecodeCall.counted { call with phase }
    have hsame : ({ call with phase } : DecodeCall).counted = call.counted := by
      simp only [DecodeCall.counted, DecodeCall.inputBytes, hbytes]
    have hkept := h.bytes
    unfold DecodeSystem.counted at hkept ⊢
    dsimp only at hkept ⊢
    omega

theorem Accounts.callChange (h : s.Accounts) {i : Nat} {call : DecodeCall}
    (hget : s.calls[i]? = some call) (hchange : CallChange s i call t) : t.Accounts := by
  have hset := fun key next => total_set hget (DecodeCall.owns key) next
  have hbytesSet := fun next => total_set hget DecodeCall.counted next
  have hpending := h.pending
  have hbytes := h.bytes
  unfold owners at hpending
  unfold DecodeSystem.counted at hbytes
  cases hchange with
  | joins hphase | forgets hphase =>
    exact h.moved hget (by rw [hphase]; rfl) (by rw [hphase]; rfl) _ _ _ _
  | wishes phase hmove | supersedes phase hmove | turns phase hmove =>
    generalize hphase : call.phase = before at hmove
    cases hmove <;> exact h.moved hget (by rw [hphase]; rfl) (by rw [hphase]; rfl) _ _ _ _
  | inserts hphase hfree hnew =>
    refine ⟨fun key => ?_, List.nodup_cons.2 ⟨hnew, h.nodup⟩, ?_, h.limit⟩
    · have hkey := hset key { call with phase := .wanting }
      rw [owns_of_free (by rw [hphase]; rfl), owns_of_holds rfl] at hkey
      have hkept := hpending key
      unfold owners
      dsimp only [pendingJobs] at hkept hkey ⊢
      rw [List.count_cons]
      simp only [beq_iff_eq]
      omega
    · have hkept := hbytesSet { call with phase := .wanting }
      rw [counted_of_free (by rw [hphase]; rfl), counted_of_free rfl] at hkept
      unfold DecodeSystem.counted
      dsimp only
      omega
  | reserves hphase hroom =>
    refine ⟨fun key => ?_, h.nodup, ?_, hroom⟩
    · have hkey := hset key { call with phase := .admitting }
      rw [owns_of_holds (by rw [hphase]; rfl), owns_of_holds rfl] at hkey
      have hkept := hpending key
      unfold owners
      dsimp only [pendingJobs] at hkept hkey ⊢
      omega
    · have hkept := hbytesSet { call with phase := .admitting }
      rw [counted_of_free (by rw [hphase]; rfl), counted_of_holds rfl] at hkept
      have hsame : ({ call with phase := .admitting } : DecodeCall).inputBytes =
        call.inputBytes := rfl
      unfold DecodeSystem.counted
      dsimp only
      omega
  | sends hphase hroom =>
    refine ⟨fun key => ?_, h.nodup, ?_, h.limit⟩
    · have hkey := hset key { call with phase := .answered true }
      rw [owns_of_holds (by rw [hphase]; rfl), owns_of_free rfl] at hkey
      have hkept := hpending key
      unfold owners
      dsimp only [pendingJobs] at hkept hkey ⊢
      simp only [total_append, total_cons, total_nil, DecodeJob.owns] at hkept ⊢
      omega
    · have hkept := hbytesSet { call with phase := .answered true }
      rw [counted_of_holds (by rw [hphase]; rfl), counted_of_free rfl] at hkept
      have hsame : call.inputBytes = call.input.flatten.length := rfl
      unfold DecodeSystem.counted
      simp only [total_append, total_cons, total_nil, DecodeJob.inputBytes] at hbytes ⊢
      omega
  | returns hphase =>
    have hkept := hbytesSet { call with phase := .rejecting }
    rw [counted_of_holds (by rw [hphase]; rfl), counted_of_free rfl] at hkept
    refine ⟨fun key => ?_, h.nodup, ?_, (Nat.sub_le _ _).trans h.limit⟩
    · have hkey := hset key { call with phase := .rejecting }
      rw [owns_of_holds (by rw [hphase]; rfl), owns_of_holds rfl] at hkey
      have hkept := hpending key
      unfold owners
      dsimp only [pendingJobs] at hkept hkey ⊢
      omega
    · unfold DecodeSystem.counted
      dsimp only
      omega
  | releases hphase hfree =>
    refine ⟨fun key => ?_, h.nodup.erase _, ?_, h.limit⟩
    · have hkey := hset key { call with phase := .forgetting }
      rw [owns_of_holds (by rw [hphase]; rfl), owns_of_free rfl] at hkey
      have hkept := hpending key
      unfold owners
      dsimp only [pendingJobs] at hkept hkey ⊢
      rw [List.count_erase]
      simp only [beq_iff_eq]
      have hle := le_total hget (DecodeCall.owns key)
      rw [owns_of_holds (by rw [hphase]; rfl)] at hle
      omega
    · have hkept := hbytesSet { call with phase := .forgetting }
      rw [counted_of_free (by rw [hphase]; rfl), counted_of_free rfl] at hkept
      unfold DecodeSystem.counted
      dsimp only
      omega

/-! ## Results -/

theorem WorkerEnd.result_key (outcome : WorkerEnd) (job : DecodeJob) :
    (outcome.result decode job).key = job.key := by
  cases outcome <;> rfl

/-- The result is that of a worker that may have ended like this. -/
def Ended (decode : Decoder) (s : DecodeSystem) (job : DecodeJob) (result : DecodeResult) : Prop :=
  ∃ outcome : WorkerEnd, s.mayEnd job outcome = true ∧ result = outcome.result decode job

theorem Ended.key {job : DecodeJob} {result : DecodeResult} (h : Ended decode s job result) :
    result.key = job.key := by
  obtain ⟨outcome, -, rfl⟩ := h
  exact WorkerEnd.result_key outcome job

/-- A flag that is set stays set. -/
def FlagsStay (s t : DecodeSystem) : Prop :=
  ∀ job, s.isCancelled job = true → t.isCancelled job = true

theorem Ended.mono {job : DecodeJob} {result : DecodeResult} (h : Ended decode s job result)
    (hflags : FlagsStay s t) : Ended decode t job result := by
  obtain ⟨outcome, hmay, rfl⟩ := h
  refine ⟨outcome, ?_, rfl⟩
  cases outcome with
  | cancelled text limited error => exact hflags job hmay
  | decoded | notAdmitted error | panicked error => rfl

theorem getElem?_set_true {flags : List Bool} {i j : Nat} (h : flags[j]?.getD false = true) :
    (flags.set i true)[j]?.getD false = true := by
  rw [List.getElem?_set]
  split
  · rename_i heq
    subst heq
    split
    · rfl
    · rename_i hout
      rw [List.getElem?_eq_none (Nat.le_of_not_lt hout)] at h
      cases h
  · exact h

theorem getD_cancelActive (which : DecodeKey → Bool) {job : DecodeJob}
    (hcancelled : s.isCancelled job = true) :
    (s.cancelActive which)[job.cancellation]?.getD false = true := by
  unfold isCancelled at hcancelled
  unfold cancelActive
  generalize s.activeCancellations.filter (fun entry => which entry.1) = entries
  generalize s.cancellations = flags at hcancelled ⊢
  induction entries generalizing flags with
  | nil => exact hcancelled
  | cons entry entries ih => exact ih _ (getElem?_set_true hcancelled)

theorem flagsStay_change (hchange : Change decode s event t) : FlagsStay s t := by
  cases hchange with
  | call i admits call next hget hchange =>
    cases hchange with
    | supersedes phase hmove =>
      exact fun job hcancelled => getD_cancelActive (fun key => key ≠ call.key) hcancelled
    | sends hphase hroom =>
      intro job hcancelled
      unfold isCancelled at *
      dsimp only
      rcases Nat.lt_or_ge job.cancellation s.cancellations.length with hlt | hge
      · rw [List.getElem?_append_left hlt]
        exact hcancelled
      · rw [List.getElem?_eq_none hge] at hcancelled
        cases hcancelled
    | joins | inserts | wishes | reserves | turns | returns | releases | forgets =>
      exact fun _ hcancelled => hcancelled
  | service event next hchange =>
    cases hchange with
    | startsCancelled job hphase hdesired => exact fun _ => getElem?_set_true
    | cancels hphase =>
      exact fun job hcancelled => getD_cancelActive (fun _ => true) hcancelled
    | receives | uncounts | keeps | outdates | drops | registers | starts | joins | releases
    | unregisters | accepts | overtakes | delivers | fails | leaves | drains | stops =>
      exact fun _ hcancelled => hcancelled
  | requested | finished | taken | closed | cancelled => exact fun _ hcancelled => hcancelled

end DecodeSystem

/-- The result that the loop has at hand. -/
def ServicePhase.finished : ServicePhase → Option (DecodeJob × DecodeResult)
  | .completed job result | .unregistering job result | .judging job result
  | .delivering job result => some (job, result)
  | _ => none

namespace DecodeSystem

variable {decode : Decoder} {s t : DecodeSystem} {event : DecodeEvent}

/-- The results are those of workers, and the ones that were sent were desired. -/
structure Results (decode : Decoder) (s : DecodeSystem) : Prop where
  active : ∀ job result, (job, some result) ∈ s.active → Ended decode s job result
  service : ∀ job result, s.service.finished = some (job, result) → Ended decode s job result
  delivered : ∀ job result, (job, result) ∈ s.delivered → Ended decode s job result

theorem results_new (policy : DecodePolicy) : (new policy).Results decode where
  active _ _ hmem := absurd hmem List.not_mem_nil
  service _ _ heq := by cases heq
  delivered _ _ hmem := absurd hmem List.not_mem_nil

theorem Results.change (h : s.Results decode) (hchange : Change decode s event t) :
    t.Results decode := by
  have hflags := flagsStay_change hchange
  have hactive := fun job result hmem => (h.active job result hmem).mono hflags
  have hservice := fun job result heq => (h.service job result heq).mono hflags
  have hdelivered := fun job result hmem => (h.delivered job result hmem).mono hflags
  cases hchange with
  | call i admits call next hget hchange =>
    cases hchange <;> exact ⟨hactive, hservice, hdelivered⟩
  | finished i outcome job hget hends =>
    refine ⟨fun other result hmem => ?_, hservice, hdelivered⟩
    rcases List.mem_or_eq_of_mem_set hmem with hmem | heq
    · exact hactive other result hmem
    · cases heq
      exact ⟨outcome, hends, rfl⟩
  | service event next hchange =>
    cases hchange with
    | starts job hphase | startsCancelled job hphase =>
      refine ⟨fun other result hmem => ?_, (fun _ _ heq => by cases heq), hdelivered⟩
      rcases List.mem_append.1 hmem with hmem | hmem
      · exact hactive other result hmem
      · cases List.mem_singleton.1 hmem
    | joins i job result hphase hget =>
      refine ⟨fun other result' hmem => hactive other result' (List.mem_of_mem_eraseIdx hmem),
        fun other result' heq => ?_, hdelivered⟩
      cases heq
      exact hactive job result (List.mem_of_getElem? hget)
    | drains i job result hphase hget =>
      exact ⟨fun other result' hmem => hactive other result' (List.mem_of_mem_eraseIdx hmem),
        hservice, hdelivered⟩
    | releases job result hphase | unregisters job result hphase | accepts job result hphase =>
      exact ⟨hactive, fun _ _ heq => hservice _ _ (by rw [hphase]; exact heq), hdelivered⟩
    | delivers job result hphase hroom =>
      refine ⟨hactive, (fun _ _ heq => by cases heq), fun other result' hmem => ?_⟩
      rcases List.mem_append.1 hmem with hmem | hmem
      · exact hdelivered other result' hmem
      · cases List.mem_singleton.1 hmem
        exact hservice job result (by rw [hphase]; rfl)
    | receives | uncounts | keeps | outdates | drops | registers | overtakes | fails | leaves
    | cancels | stops => exact ⟨hactive, (fun _ _ heq => by cases heq), hdelivered⟩
  | requested | taken | closed | cancelled => exact ⟨hactive, hservice, hdelivered⟩

/-! ## The loop keeps the accounts -/

theorem owners_eq (s : DecodeSystem) (key : DecodeKey) : s.owners key =
    total (DecodeCall.owns key) s.calls + (total (DecodeJob.owns key) s.jobs +
      total (DecodeJob.owns key) s.service.pendingJob +
      total (fun entry => entry.1.owns key) s.active + total (DecodeJob.owns key) s.discarded) := by
  rw [owners, pendingJobs, total_append, total_append, total_append, total_map]

theorem counted_eq (s : DecodeSystem) : s.counted = total DecodeCall.counted s.calls +
    (total DecodeJob.inputBytes s.jobs + total DecodeJob.inputBytes s.service.countedJob) := by
  rw [counted, total_append]

/-- The loop moves on with the job it has at hand. -/
theorem Accounts.kept (h : s.Accounts) {service : ServicePhase}
    (hpending : service.pendingJob = s.service.pendingJob)
    (hcounted : service.countedJob = s.service.countedJob)
    (activeCancellations : List (DecodeKey × Nat)) (cancellations : List Bool)
    (metrics : DecodeMetrics) (results : List DecodeResult)
    (delivered : List (DecodeJob × DecodeResult)) (superseded unsent : List DecodeJob) :
    ({ s with
      service, activeCancellations, cancellations, metrics, results, delivered, superseded,
      unsent }).Accounts := by
  refine ⟨fun key => ?_, h.nodup, ?_, h.limit⟩
  · rw [← h.pending key, owners_eq, owners_eq, ← hpending]
  · show s.queuedInputBytes = _
    rw [h.bytes, counted_eq, counted_eq, ← hcounted]

theorem Accounts.serviceChange (h : s.Accounts) (hresults : s.Results decode)
    (hchange : ServiceChange s t) : t.Accounts := by
  have hpending := h.pending
  have hbytes := h.bytes
  simp only [owners_eq] at hpending
  rw [counted_eq] at hbytes
  cases hchange with
  | keeps job hphase | outdates job hphase | registers job hphase | unregisters job result hphase
  | accepts job result hphase | overtakes job result hphase | delivers job result hphase
  | fails job result hphase | leaves hphase | cancels hphase | stops hphase =>
    exact h.kept (by rw [hphase]; rfl) (by rw [hphase]; rfl) _ _ _ _ _ _ _
  | receives job jobs hphase hjobs hroom =>
    simp only [hphase, hjobs, ServicePhase.pendingJob, ServicePhase.countedJob, total_nil,
      total_cons] at hpending hbytes
    refine ⟨fun key => ?_, h.nodup, ?_, h.limit⟩
    · have hkey := hpending key
      simp only [owners_eq, ServicePhase.pendingJob, total_cons, total_nil]
      omega
    · simp only [counted_eq, ServicePhase.countedJob, total_cons, total_nil]
      omega
  | uncounts job hphase =>
    simp only [hphase, ServicePhase.pendingJob, ServicePhase.countedJob, total_nil,
      total_cons] at hpending hbytes
    refine ⟨fun key => ?_, h.nodup, ?_, (Nat.sub_le _ _).trans h.limit⟩
    · have hkey := hpending key
      simp only [owners_eq, ServicePhase.pendingJob, total_cons, total_nil]
      omega
    · simp only [counted_eq, ServicePhase.countedJob, total_nil]
      omega
  | drops job hphase hfree =>
    simp only [hphase, ServicePhase.pendingJob, ServicePhase.countedJob, total_nil,
      total_cons, DecodeJob.owns] at hpending hbytes
    refine ⟨fun key => ?_, h.nodup.erase _, ?_, h.limit⟩
    · have hkey := hpending key
      simp only [owners_eq, ServicePhase.pendingJob, total_nil, List.count_erase, beq_iff_eq,
        DecodeJob.owns]
      omega
    · simp only [counted_eq, ServicePhase.countedJob, total_nil]
      omega
  | starts job hphase | startsCancelled job hphase =>
    simp only [hphase, ServicePhase.pendingJob, ServicePhase.countedJob, total_nil,
      total_cons] at hpending hbytes
    refine ⟨fun key => ?_, h.nodup, ?_, h.limit⟩
    · have hkey := hpending key
      simp only [owners_eq, ServicePhase.pendingJob, total_append, total_cons, total_nil]
      omega
    · simp only [counted_eq, ServicePhase.countedJob, total_nil]
      omega
  | joins i job result hphase hget =>
    simp only [hphase, ServicePhase.pendingJob, ServicePhase.countedJob, total_nil]
      at hpending hbytes
    refine ⟨fun key => ?_, h.nodup, ?_, h.limit⟩
    · have hkey := hpending key
      have herase := total_eraseIdx hget fun entry => entry.1.owns key
      dsimp only at herase
      simp only [owners_eq, ServicePhase.pendingJob, total_cons, total_nil]
      omega
    · simp only [counted_eq, ServicePhase.countedJob, total_nil]
      omega
  | releases job result hphase hfree =>
    have hsame : result.key = job.key :=
      (hresults.service job result (by rw [hphase]; rfl)).key
    simp only [hphase, ServicePhase.pendingJob, ServicePhase.countedJob, total_nil,
      total_cons, DecodeJob.owns] at hpending hbytes
    refine ⟨fun key => ?_, h.nodup.erase _, ?_, h.limit⟩
    · have hkey := hpending key
      simp only [owners_eq, ServicePhase.pendingJob, total_nil, List.count_erase, beq_iff_eq,
        DecodeJob.owns, hsame]
      omega
    · simp only [counted_eq, ServicePhase.countedJob, total_nil]
      omega
  | drains i job result hphase hget =>
    simp only [hphase, ServicePhase.pendingJob, ServicePhase.countedJob, total_nil]
      at hpending hbytes
    refine ⟨fun key => ?_, h.nodup, ?_, h.limit⟩
    · have hkey := hpending key
      have herase := total_eraseIdx hget fun entry => entry.1.owns key
      dsimp only at herase
      simp only [owners_eq, hphase, ServicePhase.pendingJob, total_append, total_cons, total_nil]
      omega
    · simp only [counted_eq, hphase, ServicePhase.countedJob, total_nil]
      omega

theorem Accounts.change (h : s.Accounts) (hresults : s.Results decode)
    (hchange : Change decode s event t) : t.Accounts := by
  cases hchange with
  | requested key input headers =>
    refine ⟨fun key' => ?_, h.nodup, ?_, h.limit⟩
    · rw [← h.pending key', owners_eq, owners_eq, total_append, total_cons, total_nil]
      rfl
    · show s.queuedInputBytes = _
      rw [h.bytes, counted_eq, counted_eq, total_append, total_cons, total_nil]
      rfl
  | call i admits call next hget hchange => exact h.callChange hget hchange
  | service event next hchange => exact h.serviceChange hresults hchange
  | finished i outcome job hget hends =>
    refine ⟨fun key => ?_, h.nodup, h.bytes, h.limit⟩
    have hset := total_set hget (fun entry => entry.1.owns key)
      (job, some (outcome.result decode job))
    rw [← h.pending key, owners_eq, owners_eq]
    dsimp only at hset ⊢
    omega
  | taken | closed | cancelled => exact ⟨h.pending, h.nodup, h.bytes, h.limit⟩

end DecodeSystem

/-! ## Room -/

/-- A job that is to become active. -/
def ServicePhase.admits : ServicePhase → Nat
  | .received _ | .checking _ | .dropping _ | .registering _ | .starting _ => 1
  | _ => 0

namespace DecodeSystem

variable {decode : Decoder} {s t : DecodeSystem} {event : DecodeEvent}

/-- No more jobs are queued, active or answered than there is room for. -/
structure Bounded (s : DecodeSystem) : Prop where
  jobs : s.jobs.length ≤ s.policy.queueCapacity
  active : s.active.length + s.service.admits ≤ s.policy.maxActive
  results : s.results.length ≤ s.policy.queueCapacity

theorem bounded_new (policy : DecodePolicy) : (new policy).Bounded :=
  ⟨Nat.zero_le _, Nat.zero_le _, Nat.zero_le _⟩

theorem length_eraseIdx_of_get {α : Type*} {members : List α} {i : Nat} {a : α}
    (hget : members[i]? = some a) : (members.eraseIdx i).length + 1 = members.length := by
  have hlt := (List.getElem?_eq_some_iff.1 hget).1
  rw [List.length_eraseIdx_of_lt hlt]
  omega

theorem Bounded.change (h : s.Bounded) (hchange : Change decode s event t) : t.Bounded := by
  obtain ⟨hjobs, hactive, hresults⟩ := h
  cases hchange with
  | call i admits call next hget hchange =>
    cases hchange with
    | sends hphase hroom =>
      refine ⟨?_, hactive, hresults⟩
      dsimp only
      rw [List.length_append, List.length_singleton]
      exact hroom
    | joins | inserts | wishes | supersedes | reserves | turns | returns | releases | forgets =>
      exact ⟨hjobs, hactive, hresults⟩
  | service event next hchange =>
    cases hchange with
    | receives job jobs hphase heq hroom =>
      rw [heq] at hjobs
      exact ⟨(Nat.le_succ _).trans hjobs, hroom, hresults⟩
    | starts job hphase | startsCancelled job hphase =>
      rw [hphase] at hactive
      refine ⟨hjobs, ?_, hresults⟩
      dsimp only
      rw [List.length_append, List.length_singleton]
      exact hactive
    | joins i job result hphase hget =>
      have hlength := length_eraseIdx_of_get hget
      refine ⟨hjobs, ?_, hresults⟩
      simp only [ServicePhase.admits]
      omega
    | drains i job result hphase hget =>
      have hlength := length_eraseIdx_of_get hget
      refine ⟨hjobs, ?_, hresults⟩
      dsimp only
      omega
    | delivers job result hphase hroom =>
      rw [hphase] at hactive
      refine ⟨hjobs, hactive, ?_⟩
      dsimp only
      rw [List.length_append, List.length_singleton]
      exact hroom
    | uncounts job hphase | keeps job hphase | outdates job hphase | registers job hphase
    | releases job result hphase | unregisters job result hphase | accepts job result hphase
    | overtakes job result hphase | fails job result hphase | leaves hphase | cancels hphase
    | stops hphase =>
      rw [hphase] at hactive
      exact ⟨hjobs, hactive, hresults⟩
    | drops job hphase =>
      rw [hphase] at hactive
      exact ⟨hjobs, (Nat.le_succ _).trans hactive, hresults⟩
  | finished i outcome job hget hends =>
    refine ⟨hjobs, ?_, hresults⟩
    dsimp only
    rw [List.length_set]
    exact hactive
  | taken result results heq =>
    rw [heq] at hresults
    exact ⟨hjobs, hactive, (Nat.le_succ _).trans hresults⟩
  | closed => exact ⟨hjobs, hactive, Nat.zero_le _⟩
  | requested | cancelled => exact ⟨hjobs, hactive, hresults⟩

end DecodeSystem

/-! ## Places -/

/-- The job that the loop has at hand. -/
def ServicePhase.job : ServicePhase → List DecodeJob
  | .received job | .checking job | .dropping job | .registering job | .starting job
  | .completed job _ | .unregistering job _ | .judging job _ | .delivering job _ => [job]
  | .waiting | .cancelling | .draining | .stopped => []

namespace DecodeSystem

variable {decode : Decoder} {s t : DecodeSystem} {event : DecodeEvent}

/-- All jobs that there have been, wherever they are. -/
def allJobs (s : DecodeSystem) : List DecodeJob :=
  s.jobs ++ s.service.job ++ s.active.map Prod.fst ++ s.delivered.map Prod.fst ++ s.superseded ++
    s.unsent ++ s.discarded

theorem total_allJobs (s : DecodeSystem) (f : DecodeJob → Nat) : total f s.allJobs =
    total f s.jobs + total f s.service.job + total (fun entry => f entry.1) s.active +
      total (fun entry => f entry.1) s.delivered + total f s.superseded + total f s.unsent +
      total f s.discarded := by
  simp only [allJobs, total_append, total_map]

theorem length_cancelActive (which : DecodeKey → Bool) :
    (s.cancelActive which).length = s.cancellations.length := by
  unfold cancelActive
  generalize s.activeCancellations.filter (fun entry => which entry.1) = entries
  generalize s.cancellations = flags
  induction entries generalizing flags with
  | nil => rfl
  | cons entry entries ih => exact (ih _).trans List.length_set

/-- The loop leaves all jobs there, each once. -/
theorem total_service (hchange : ServiceChange s t) :
    t.cancellations.length = s.cancellations.length ∧
      ∀ f, total f t.allJobs = total f s.allJobs := by
  cases hchange with
  | startsCancelled job hphase hdesired =>
    refine ⟨List.length_set, fun f => ?_⟩
    simp only [total_allJobs, hphase, ServicePhase.job, total_append, total_cons, total_nil]
    omega
  | cancels hphase =>
    refine ⟨length_cancelActive fun _ => true, fun f => ?_⟩
    simp only [total_allJobs, hphase, ServicePhase.job]
  | joins i job result hphase hget =>
    refine ⟨rfl, fun f => ?_⟩
    have herase := total_eraseIdx hget fun entry => f entry.1
    dsimp only at herase
    simp only [total_allJobs, hphase, ServicePhase.job, total_cons, total_nil]
    omega
  | drains i job result hphase hget =>
    refine ⟨rfl, fun f => ?_⟩
    have herase := total_eraseIdx hget fun entry => f entry.1
    dsimp only at herase
    simp only [total_allJobs, hphase, ServicePhase.job, total_append, total_cons, total_nil]
    omega
  | receives job jobs hphase heq =>
    refine ⟨rfl, fun f => ?_⟩
    simp only [total_allJobs, hphase, heq, ServicePhase.job, total_cons, total_nil]
    omega
  | uncounts job hphase | keeps job hphase | outdates job hphase | registers job hphase
  | releases job result hphase | unregisters job result hphase | accepts job result hphase
  | leaves hphase | stops hphase =>
    refine ⟨rfl, fun f => ?_⟩
    simp only [total_allJobs, hphase, ServicePhase.job]
  | drops job hphase | starts job hphase | overtakes job result hphase
  | delivers job result hphase | fails job result hphase =>
    refine ⟨rfl, fun f => ?_⟩
    simp only [total_allJobs, hphase, ServicePhase.job, total_append, total_cons, total_nil]
    omega

/-- A step adds a job at the end of the queue, or it leaves all jobs there, each once. -/
theorem total_change (hchange : Change decode s event t) :
    (t.cancellations.length = s.cancellations.length ∧
        ∀ f, total f t.allJobs = total f s.allJobs) ∨
      ∃ job : DecodeJob, job.cancellation = s.cancellations.length ∧
        t.cancellations.length = s.cancellations.length + 1 ∧
        ∀ f, total f t.allJobs = total f s.allJobs + f job := by
  cases hchange with
  | call i admits call next hget hchange =>
    cases hchange with
    | sends hphase hroom =>
      refine .inr ⟨⟨call.key, call.input, call.headers, s.cancellations.length⟩, rfl,
        List.length_append, fun f => ?_⟩
      simp only [total_allJobs, total_append, total_cons, total_nil]
      omega
    | supersedes phase hmove =>
      exact .inl ⟨length_cancelActive fun active => active ≠ call.key, fun _ => rfl⟩
    | joins | inserts | wishes | reserves | turns | returns | releases | forgets =>
      exact .inl ⟨rfl, fun _ => rfl⟩
  | finished i outcome job hget hends =>
    refine .inl ⟨rfl, fun f => ?_⟩
    have hset := total_set hget (fun entry => f entry.1) (job, some (outcome.result decode job))
    simp only [total_allJobs]
    dsimp only at hset ⊢
    omega
  | service event next hchange => exact .inl (total_service hchange)
  | requested | taken | closed | cancelled => exact .inl ⟨rfl, fun _ => rfl⟩

/-- Each flag belongs to one job. -/
def Placed (s : DecodeSystem) : Prop :=
  ∀ flag, total (fun job => if job.cancellation = flag then 1 else 0) s.allJobs =
    if flag < s.cancellations.length then 1 else 0

theorem Placed.change (h : s.Placed) (hchange : Change decode s event t) : t.Placed := by
  intro flag
  have hflag := h flag
  rcases total_change hchange with ⟨hlength, htotal⟩ | ⟨job, hjob, hlength, htotal⟩
  · rw [htotal, hlength]
    exact hflag
  · rw [htotal, hlength, hflag, hjob]
    split <;> split <;> split <;> omega

/-- The jobs of the service are told apart by their flags. -/
theorem Placed.inj (h : s.Placed) {left right : DecodeJob} (hleft : left ∈ s.allJobs)
    (hright : right ∈ s.allJobs) (heq : left.cancellation = right.cancellation) :
    left = right := by
  by_contra hne
  obtain ⟨i, hi⟩ := List.getElem?_of_mem hleft
  obtain ⟨j, hj⟩ := List.getElem?_of_mem hright
  have hij : i ≠ j := by
    rintro rfl
    exact hne (Option.some.inj (hi.symm.trans hj))
  have htwo := add_le_total hi hj hij fun job =>
    if job.cancellation = right.cancellation then 1 else 0
  rw [h right.cancellation, if_pos heq, if_pos rfl] at htwo
  split at htwo <;> omega

end DecodeSystem

/-! ## Active cancellations -/

/-- The job that the loop has registered, and not yet unregistered. -/
def ServicePhase.registeredJob : ServicePhase → List DecodeJob
  | .starting job | .completed job _ | .unregistering job _ => [job]
  | _ => []

/-- The loop has come to its end. -/
def ServicePhase.ended : ServicePhase → Bool
  | .draining | .stopped => true
  | _ => false

namespace DecodeSystem

variable {decode : Decoder} {s t : DecodeSystem} {event : DecodeEvent}

def registeredJobs (s : DecodeSystem) : List DecodeJob :=
  s.active.map Prod.fst ++ s.service.registeredJob ++ s.discarded

theorem mem_registeredJobs {job : DecodeJob} : job ∈ s.registeredJobs ↔
    (∃ result, (job, result) ∈ s.active) ∨ job ∈ s.service.registeredJob ∨ job ∈ s.discarded := by
  simp [registeredJobs]

/-- A flag in the table belongs to a job that is under way, under its key. -/
structure Registered (s : DecodeSystem) : Prop where
  entries : ∀ entry ∈ s.activeCancellations,
    ∃ job ∈ s.registeredJobs, job.key = entry.1 ∧ job.cancellation = entry.2
  discarded : s.service.ended = false → s.discarded = []

theorem registered_new (policy : DecodePolicy) : (new policy).Registered where
  entries _ hmem := absurd hmem List.not_mem_nil
  discarded _ := rfl

/-- The registered jobs that a step leaves out have their entry removed. -/
theorem Registered.of_subset (h : s.Registered)
    (hended : t.service.ended = false → t.discarded = [])
    (hentries : ∀ entry ∈ t.activeCancellations, entry ∈ s.activeCancellations ∧
      ∀ job ∈ s.registeredJobs, job.key = entry.1 → job ∈ t.registeredJobs) : t.Registered where
  entries entry hmem := by
    obtain ⟨hold, hjobs⟩ := hentries entry hmem
    obtain ⟨job, hjob, hkey, hflag⟩ := h.entries entry hold
    exact ⟨job, hjobs job hjob hkey, hkey, hflag⟩
  discarded := hended

theorem mem_eraseIdx_or_eq {α : Type*} {members : List α} {i : Nat} {a b : α}
    (hget : members[i]? = some a) (hmem : b ∈ members) : b ∈ members.eraseIdx i ∨ b = a := by
  obtain ⟨j, hj⟩ := List.getElem?_of_mem hmem
  rcases eq_or_ne j i with rfl | hne
  · exact .inr (Option.some.inj (hj.symm.trans hget))
  · exact .inl (List.mem_eraseIdx_iff_getElem?.2 ⟨j, hne, hj⟩)

theorem Registered.change (h : s.Registered) (hresults : s.Results decode)
    (hchange : Change decode s event t) : t.Registered := by
  cases hchange with
  | call i admits call next hget hchange =>
    cases hchange with
    | forgets hphase =>
      exact h.of_subset h.discarded fun entry hmem =>
        ⟨(Assoc.mem_erase.1 hmem).1, fun _ hjob _ => hjob⟩
    | joins | inserts | wishes | supersedes | reserves | turns | sends | returns | releases =>
      exact ⟨h.entries, h.discarded⟩
  | finished i outcome job hget hends =>
    refine h.of_subset h.discarded fun entry hmem => ⟨hmem, fun other hother _ => ?_⟩
    rw [mem_registeredJobs] at hother ⊢
    refine hother.imp_left ?_
    rintro ⟨result, hactive⟩
    obtain ⟨k, hk⟩ := List.getElem?_of_mem hactive
    rcases eq_or_ne i k with rfl | hne
    · cases hget.symm.trans hk
      exact ⟨some (outcome.result decode job),
        List.mem_of_getElem? ((getElem?_set_of_some hget).trans (if_pos rfl))⟩
    · exact ⟨result, List.mem_of_getElem? ((List.getElem?_set_ne hne).trans hk)⟩
  | service event next hchange =>
    cases hchange with
    | registers job hphase =>
      refine ⟨fun entry hmem => ?_, fun _ => h.discarded (by rw [hphase]; rfl)⟩
      rcases List.mem_cons.1 hmem with rfl | hmem
      · exact ⟨job, mem_registeredJobs.2 (.inr (.inl List.mem_cons_self)), rfl, rfl⟩
      · obtain ⟨other, hother, hkey, hflag⟩ := h.entries entry (Assoc.mem_erase.1 hmem).1
        refine ⟨other, ?_, hkey, hflag⟩
        rw [mem_registeredJobs, hphase] at hother
        rw [mem_registeredJobs]
        rcases hother with hactive | hnone | hdiscarded
        · exact .inl hactive
        · cases hnone
        · exact .inr (.inr hdiscarded)
    | unregisters job result hphase =>
      have hsame := (hresults.service job result (by rw [hphase]; rfl)).key
      refine h.of_subset (fun _ => h.discarded (by rw [hphase]; rfl)) fun entry hmem =>
        ⟨(Assoc.mem_erase.1 hmem).1, fun other hother hkey => ?_⟩
      rw [mem_registeredJobs, hphase] at hother
      rw [mem_registeredJobs]
      rcases hother with hactive | hown | hdiscarded
      · exact .inl hactive
      · obtain rfl := List.mem_singleton.1 hown
        exact absurd (hkey.symm.trans hsame.symm) (Assoc.mem_erase.1 hmem).2
      · exact .inr (.inr hdiscarded)
    | starts job hphase | startsCancelled job hphase =>
      refine h.of_subset (fun _ => h.discarded (by rw [hphase]; rfl)) fun entry hmem =>
        ⟨hmem, fun other hother _ => ?_⟩
      rw [mem_registeredJobs, hphase] at hother
      rw [mem_registeredJobs]
      rcases hother with ⟨result, hactive⟩ | hown | hdiscarded
      · exact .inl ⟨result, List.mem_append_left _ hactive⟩
      · obtain rfl := List.mem_singleton.1 hown
        exact .inl ⟨none, List.mem_append_right _ List.mem_cons_self⟩
      · exact .inr (.inr hdiscarded)
    | joins i job result hphase hget =>
      refine h.of_subset (fun _ => h.discarded (by rw [hphase]; rfl)) fun entry hmem =>
        ⟨hmem, fun other hother _ => ?_⟩
      rw [mem_registeredJobs, hphase] at hother
      rw [mem_registeredJobs]
      rcases hother with ⟨result', hactive⟩ | hnone | hdiscarded
      · rcases mem_eraseIdx_or_eq hget hactive with hstill | heq
        · exact .inl ⟨result', hstill⟩
        · cases heq
          exact .inr (.inl List.mem_cons_self)
      · cases hnone
      · exact .inr (.inr hdiscarded)
    | drains i job result hphase hget =>
      refine h.of_subset (fun hend => absurd hend (by simp [hphase, ServicePhase.ended]))
        fun entry hmem => ⟨hmem, fun other hother _ => ?_⟩
      rw [mem_registeredJobs] at hother ⊢
      rcases hother with ⟨result', hactive⟩ | hnone | hdiscarded
      · rcases mem_eraseIdx_or_eq hget hactive with hstill | heq
        · exact .inl ⟨result', hstill⟩
        · cases heq
          exact .inr (.inr (List.mem_append_right _ List.mem_cons_self))
      · exact .inr (.inl hnone)
      · exact .inr (.inr (List.mem_append_left _ hdiscarded))
    | releases job result hphase hfree =>
      refine h.of_subset (fun _ => h.discarded (by rw [hphase]; rfl)) fun entry hmem =>
        ⟨hmem, fun other hother _ => ?_⟩
      rw [mem_registeredJobs, hphase] at hother
      exact mem_registeredJobs.2 hother
    | receives job jobs hphase | uncounts job hphase | keeps job hphase | outdates job hphase
    | drops job hphase | accepts job result hphase | overtakes job result hphase
    | delivers job result hphase | fails job result hphase | leaves hphase =>
      refine h.of_subset (fun _ => h.discarded (by rw [hphase]; rfl)) fun entry hmem =>
        ⟨hmem, fun other hother _ => ?_⟩
      rw [mem_registeredJobs, hphase] at hother
      exact mem_registeredJobs.2 hother
    | cancels hphase | stops hphase =>
      refine h.of_subset (fun hend => by cases hend) fun entry hmem =>
        ⟨hmem, fun other hother _ => ?_⟩
      rw [mem_registeredJobs, hphase] at hother
      exact mem_registeredJobs.2 hother
  | requested | taken | closed | cancelled => exact ⟨h.entries, h.discarded⟩

/-! ## Runs -/

variable {policy : DecodePolicy} {events : List DecodeEvent}

theorem policy_change (hchange : Change decode s event t) : t.policy = s.policy := by
  cases hchange with
  | call i admits call next hget hchange => cases hchange <;> rfl
  | service event next hchange => cases hchange <;> rfl
  | requested | finished | taken | closed | cancelled => rfl

/-- What every step keeps. -/
structure Sound (decode : Decoder) (policy : DecodePolicy) (s : DecodeSystem) : Prop where
  accounts : s.Accounts
  results : s.Results decode
  bounded : s.Bounded
  placed : s.Placed
  registered : s.Registered
  policy : s.policy = (new policy).policy

theorem sound_new (policy : DecodePolicy) : (new policy).Sound decode policy :=
  ⟨accounts_new policy, results_new policy, bounded_new policy, fun _ => rfl, registered_new policy,
    rfl⟩

theorem sound_step {policy : DecodePolicy} (h : s.Sound decode policy)
    (hstep : s.step decode event = some t) : t.Sound decode policy := by
  have hchange := step_change hstep
  exact ⟨h.accounts.change h.results hchange, h.results.change hchange, h.bounded.change hchange,
    h.placed.change hchange, h.registered.change h.results hchange,
    (policy_change hchange).trans h.policy⟩

theorem run_sound (hrun : run (step decode) (new policy) events = some s) :
    s.Sound decode policy :=
  run_invariant (fun _ _ _ h hstep => sound_step h hstep) (sound_new policy) hrun

/-- Nobody asks for anything, and the service has nothing to do. -/
structure Quiet (s : DecodeSystem) : Prop where
  calls : ∀ call ∈ s.calls, ∃ accepted, call.phase = .answered accepted
  jobs : s.jobs = []
  active : s.active = []
  service : s.service = .waiting

theorem total_eq_zero {α : Type*} {f : α → Nat} {members : List α}
    (h : ∀ a ∈ members, f a = 0) : total f members = 0 := by
  refine Nat.eq_zero_of_not_pos fun hpos => ?_
  obtain ⟨i, a, hget, ha⟩ := exists_of_total_pos hpos
  exact absurd (h a (List.mem_of_getElem? hget)) ha.ne'

/-- When all is quiet, nothing is left behind. -/
theorem Sound.quiet (h : s.Sound decode policy) (hquiet : s.Quiet) :
    s.pending = [] ∧ s.activeCancellations = [] ∧ s.queuedInputBytes = 0 := by
  obtain ⟨hcalls, hjobs, hactive, hservice⟩ := hquiet
  have hdiscarded := h.registered.discarded (by rw [hservice]; rfl)
  refine ⟨?_, ?_, ?_⟩
  · refine List.eq_nil_iff_forall_not_mem.2 fun key hmem => ?_
    have hnone : total (DecodeCall.owns key) s.calls = 0 := by
      refine total_eq_zero fun call hcall => ?_
      obtain ⟨accepted, hphase⟩ := hcalls call hcall
      exact owns_of_free (by rw [hphase]; rfl) key
    have hcount := h.accounts.pending key
    rw [owners_eq, hnone, hjobs, hactive, hservice, hdiscarded] at hcount
    simp only [ServicePhase.pendingJob, total_nil] at hcount
    exact absurd (List.count_pos_iff.2 hmem) (by omega)
  · refine List.eq_nil_iff_forall_not_mem.2 fun entry hmem => ?_
    obtain ⟨job, hjob, -, -⟩ := h.registered.entries entry hmem
    rw [registeredJobs, hactive, hservice, hdiscarded] at hjob
    cases hjob
  · have hnone : total DecodeCall.counted s.calls = 0 := by
      refine total_eq_zero fun call hcall => ?_
      obtain ⟨accepted, hphase⟩ := hcalls call hcall
      exact counted_of_free (by rw [hphase]; rfl)
    rw [h.accounts.bytes, counted_eq, hnone, hjobs, hservice]
    rfl

/-- In every order of steps of any number of callers, the service and its workers, each
pending key belongs to one call or job and no other key to any, the counted bytes are
those of the queued inputs and within the limit, each job stands in one place, and each
result that was sent is that of decoding the input of its job, or the job was cancelled, not
admitted or hit by a panic.  When all is quiet, nothing is left behind. -/
theorem decode_accounted (hrun : run (step decode) (new policy) events = some s) :
    (∀ key, s.owners key = if key ∈ s.pending then 1 else 0) ∧
      s.queuedInputBytes = s.counted ∧ s.queuedInputBytes ≤ policy.maxQueuedInputBytes ∧
      s.jobs.length ≤ max policy.queueCapacity 1 ∧ s.active.length ≤ max policy.maxActive 1 ∧
      (∀ flag, total (fun job => if job.cancellation = flag then 1 else 0) s.allJobs =
        if flag < s.cancellations.length then 1 else 0) ∧
      (∀ job result, (job, result) ∈ s.delivered →
        ∃ outcome : WorkerEnd, s.mayEnd job outcome = true ∧
          result = outcome.result decode job) ∧
      (s.Quiet → s.pending = [] ∧ s.activeCancellations = [] ∧ s.queuedInputBytes = 0) := by
  have h := run_sound hrun
  have hlimit := h.accounts.limit
  obtain ⟨hjobs, hactive, -⟩ := h.bounded
  rw [h.policy] at hlimit hjobs hactive
  refine ⟨fun key => ?_, h.accounts.bytes, hlimit, hjobs, (Nat.le_add_right _ _).trans hactive,
    h.placed, h.results.delivered, h.quiet⟩
  rw [h.accounts.pending key]
  split
  · rename_i hmem
    exact List.count_eq_one_of_mem h.accounts.nodup hmem
  · rename_i hmem
    exact List.count_eq_zero.2 hmem

/-- A body that is asked for twice, with another one in between. -/
def sampleDecoding : List DecodeEvent :=
  let body (sequence : CaptureSequence) : DecodeKey :=
    { sequence, side := .response, revision := 1, mode := .response }
  [.request (body 0) [[1, 2]] [], .advance 0 true, .advance 0 true, .advance 0 true, .advance 0 true,
    .advance 0 true, .advance 0 true, .receive, .proceed, .proceed, .proceed, .proceed,
    .request (body 1) [[3]] [], .advance 1 true, .advance 1 true, .advance 1 true, .advance 1 true,
    .advance 1 true, .advance 1 true,
    .finish 0 (.cancelled [] false (ofAscii "body decoding was cancelled")), .join 0, .proceed,
    .proceed, .proceed, .receive, .proceed, .proceed, .proceed, .proceed, .finish 0 .decoded, .join 0,
    .proceed, .proceed, .proceed, .proceed]

/-- A decoder that leaves the body as it is. -/
def plainDecoder : Decoder := fun _ input _ => (input.flatten, false, none)

theorem decode_accounted_sample : ∃ s, run (step plainDecoder) (new {}) sampleDecoding = some s ∧
    s.queuedInputBytes = s.counted := by
  obtain ⟨s, hrun⟩ := Option.isSome_iff_exists.1
    (show (run (step plainDecoder) (new {}) sampleDecoding).isSome = true by decide +kernel)
  exact ⟨s, hrun, (decode_accounted hrun).2.1⟩

end DecodeSystem

end Fluxcope.Capture
