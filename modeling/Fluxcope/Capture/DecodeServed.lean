import Fluxcope.Capture.DecodeAccounts
/-!
# The request that is served

Callers that ask one after the other, and that do not ask again for a body which is still
pending for an earlier wish, get what they ask for last: its job is not cancelled, and it
is on the way until its result is sent.
-/

namespace Fluxcope.Capture

open Fluxcope.Library Fluxcope.Library.Utf8

def CallPhase.isAnswered : CallPhase → Bool
  | .answered _ => true
  | _ => false

/-- The call's key is the desired one. -/
def CallPhase.hasWished : CallPhase → Bool
  | .checking | .wanting => false
  | _ => true

/-- There is a job for the call's key. -/
def CallPhase.isServed : CallPhase → Bool
  | .joining | .joined | .answered true => true
  | _ => false

/-- The loop still takes jobs. -/
def ServicePhase.runs : ServicePhase → Bool
  | .cancelling | .draining | .stopped => false
  | _ => true

namespace DecodeSystem

variable {decode : Decoder} {s t : DecodeSystem} {event : DecodeEvent} {job : DecodeJob}
  {policy : DecodePolicy} {events : List DecodeEvent}

/-- A new call comes when all others are answered, a key that is found pending is the
desired one, and nothing ends. -/
def Calm (s : DecodeSystem) : DecodeEvent → Prop
  | .request _ _ _ => ∀ call ∈ s.calls, call.phase.isAnswered = true
  | .advance i _ => ∀ call ∈ s.calls[i]?, call.phase = .checking → call.key ∈ s.pending →
      s.desired = some call.key
  | .cancel | .closeResults => False
  | _ => True

instance decidableCalm (s : DecodeSystem) : ∀ event, Decidable (s.Calm event)
  | .request _ _ _ => inferInstanceAs (Decidable (∀ call ∈ s.calls, call.phase.isAnswered = true))
  | .advance i _ =>
    inferInstanceAs (Decidable (∀ call ∈ s.calls[i]?, call.phase = .checking →
      call.key ∈ s.pending → s.desired = some call.key))
  | .cancel | .closeResults => .isFalse id
  | .receive | .join _ | .proceed | .leave | .finish _ _ | .takeResult => .isTrue trivial

/-- The job is queued, at hand or active, or its result was sent. -/
def OnTheWay (s : DecodeSystem) (job : DecodeJob) : Prop :=
  job ∈ s.jobs ∨ (job ∈ s.service.job ∧ s.service ≠ .dropping job) ∨
    (∃ result, (job, result) ∈ s.active) ∨ ∃ result, (job, result) ∈ s.delivered

/-- It is the last job that was made for its key. -/
def Latest (s : DecodeSystem) (job : DecodeJob) : Prop :=
  ∀ other ∈ s.allJobs, other.key = job.key → other.cancellation ≤ job.cancellation

/-! ## Flags of other jobs -/

theorem getElem?_foldl_set {entries : List (DecodeKey × Nat)} {j : Nat}
    (h : ∀ entry ∈ entries, entry.2 ≠ j) (flags : List Bool) :
    (entries.foldl (fun flags entry => flags.set entry.2 true) flags)[j]? = flags[j]? := by
  induction entries generalizing flags with
  | nil => rfl
  | cons entry entries ih =>
    rw [List.foldl_cons, ih fun other hmem => h other (List.mem_cons_of_mem _ hmem)]
    exact List.getElem?_set_ne (h entry List.mem_cons_self)

theorem mem_allJobs : job ∈ s.allJobs ↔ job ∈ s.jobs ∨ job ∈ s.service.job ∨
    (∃ result, (job, result) ∈ s.active) ∨ (∃ result, (job, result) ∈ s.delivered) ∨
    job ∈ s.superseded ∨ job ∈ s.unsent ∨ job ∈ s.discarded := by
  simp [allJobs]

theorem OnTheWay.mem_allJobs (h : s.OnTheWay job) : job ∈ s.allJobs := by
  rw [DecodeSystem.mem_allJobs]
  rcases h with h | ⟨h, -⟩ | h | h
  · exact .inl h
  · exact .inr (.inl h)
  · exact .inr (.inr (.inl h))
  · exact .inr (.inr (.inr (.inl h)))

theorem mem_pendingJobs : job ∈ s.pendingJobs ↔ job ∈ s.jobs ∨ job ∈ s.service.pendingJob ∨
    (∃ result, (job, result) ∈ s.active) ∨ job ∈ s.discarded := by
  simp [pendingJobs]

theorem mem_allJobs_of_pending (h : job ∈ s.pendingJobs) : job ∈ s.allJobs := by
  rw [mem_pendingJobs] at h
  rw [mem_allJobs]
  rcases h with h | h | h | h
  · exact .inl h
  · refine .inr (.inl ?_)
    cases hservice : s.service <;> rw [hservice] at h <;> first | exact h | cases h
  · exact .inr (.inr (.inl h))
  · exact .inr (.inr (.inr (.inr (.inr (.inr h)))))

theorem mem_allJobs_of_registered (h : job ∈ s.registeredJobs) : job ∈ s.allJobs := by
  rw [mem_registeredJobs] at h
  rw [mem_allJobs]
  rcases h with h | h | h
  · exact .inr (.inr (.inl h))
  · refine .inr (.inl ?_)
    cases hservice : s.service <;> rw [hservice] at h <;> first | exact h | cases h
  · exact .inr (.inr (.inr (.inr (.inr (.inr h)))))

/-- A call spares the jobs with its key. -/
theorem cancelOthers_spares (hplaced : s.Placed) (hregistered : s.Registered)
    (hjob : job ∈ s.allJobs) :
    (s.cancelOthers job.key)[job.cancellation]? = s.cancellations[job.cancellation]? := by
  refine getElem?_foldl_set (fun entry hmem heq => ?_) s.cancellations
  obtain ⟨hentry, hother⟩ := List.mem_filter.1 hmem
  obtain ⟨other, hregisteredJob, hkey, hflag⟩ := hregistered.entries entry hentry
  have hsame := hplaced.inj (mem_allJobs_of_registered hregisteredJob) hjob (hflag.trans heq)
  rw [← hkey, hsame] at hother
  simp at hother

/-- Starting a job that is cancelled at once spares the others. -/
theorem set_spares (hplaced : s.Placed) {other : DecodeJob} (hjob : job ∈ s.allJobs)
    (hother : other ∈ s.allJobs) (hne : other.key ≠ job.key) :
    (s.cancellations.set other.cancellation true)[job.cancellation]? =
      s.cancellations[job.cancellation]? :=
  List.getElem?_set_ne fun heq => hne (by rw [hplaced.inj hother hjob heq])

theorem Placed.lt_length (h : s.Placed) (hjob : job ∈ s.allJobs) :
    job.cancellation < s.cancellations.length := by
  by_contra hge
  have hnone := h job.cancellation
  rw [if_neg hge] at hnone
  obtain ⟨i, hi⟩ := List.getElem?_of_mem hjob
  have hle := le_total hi fun other => if other.cancellation = job.cancellation then 1 else 0
  rw [hnone, if_pos rfl] at hle
  omega

/-- The loop cancels no desired job as long as it runs. -/
theorem spared_service (hplaced : s.Placed) (hruns : s.service.runs = true)
    (hjob : job ∈ s.allJobs) (hdesired : s.desired = some job.key) (hchange : ServiceChange s t) :
    t.isCancelled job = s.isCancelled job := by
  unfold isCancelled
  cases hchange with
  | startsCancelled other hphase hundesired =>
    have hother : other ∈ s.allJobs :=
      mem_allJobs.2 (.inr (.inl (by rw [hphase]; exact List.mem_cons_self)))
    dsimp only
    rw [set_spares hplaced hjob hother fun heq => hundesired (heq ▸ hdesired)]
  | cancels hphase =>
    rw [hphase] at hruns
    cases hruns
  | receives | uncounts | keeps | outdates | drops | registers | starts | joins | releases
  | unregisters | accepts | overtakes | delivers | fails | leaves | drains | stops => rfl

/-- A call cancels no job with its own key. -/
theorem spared_call (hplaced : s.Placed) (hregistered : s.Registered) (hjob : job ∈ s.allJobs)
    {i : Nat} {call : DecodeCall} (hkey : call.key = job.key) (hchange : CallChange s i call t) :
    t.isCancelled job = s.isCancelled job := by
  unfold isCancelled
  cases hchange with
  | supersedes phase hmove =>
    dsimp only
    rw [hkey, cancelOthers_spares hplaced hregistered hjob]
  | sends hphase hroom =>
    dsimp only
    rw [List.getElem?_append_left (hplaced.lt_length hjob)]
  | joins | inserts | wishes | reserves | turns | returns | releases | forgets => rfl

/-! ## What calm steps keep -/

/-- The last call is served, and no desired job is cancelled or dropped. -/
structure Serving (s : DecodeSystem) : Prop where
  isOpen : s.resultsOpen = true
  stays : s.shutdown = false
  runs : s.service.runs = true
  others : ∀ i call, s.calls[i]? = some call → i + 1 < s.calls.length →
    call.phase.isAnswered = true
  wished : ∀ call, s.calls.getLast? = some call → call.phase.hasWished = true →
    s.desired = some call.key
  fresh : ∀ job ∈ s.pendingJobs, s.desired = some job.key → s.isCancelled job = false
  dropping : ∀ job, s.service = .dropping job → s.desired ≠ some job.key
  latest : ∀ job ∈ s.pendingJobs, s.Latest job
  served : ∀ call, s.calls.getLast? = some call → call.phase.isServed = true →
    ∃ job, job.key = call.key ∧ s.Latest job ∧ s.isCancelled job = false ∧ s.OnTheWay job

theorem serving_new (policy : DecodePolicy) : (new policy).Serving where
  isOpen := rfl
  stays := rfl
  runs := rfl
  others _ _ hget := by cases hget
  wished _ hlast := by cases hlast
  fresh _ hmem := absurd hmem List.not_mem_nil
  dropping _ hphase := by cases hphase
  latest _ hmem := absurd hmem List.not_mem_nil
  served _ hlast := by cases hlast

theorem CallPhase.hasWished_of_served {phase : CallPhase} (h : phase.isServed = true) :
    phase.hasWished = true := by
  cases phase <;> first | rfl | cases h

theorem runs_service (h : s.Serving) (hchange : ServiceChange s t) : t.service.runs = true := by
  have hruns := h.runs
  cases hchange with
  | fails job result hphase hend =>
    rcases hend with hclosed | hshut
    · exact absurd (h.isOpen.symm.trans hclosed) (by decide)
    · exact absurd (h.stays.symm.trans hshut) (by decide)
  | leaves hphase hend => exact absurd (h.stays.symm.trans hend) (by decide)
  | cancels hphase | stops hphase =>
    rw [hphase] at hruns
    cases hruns
  | drains i job result hphase hget => exact hruns
  | receives | uncounts | keeps | outdates | drops | registers | starts | startsCancelled | joins
  | releases | unregisters | accepts | overtakes | delivers => rfl

/-- A desired job stays on the way. -/
theorem OnTheWay.service (h : s.OnTheWay job) (hserving : s.Serving) (hresults : s.Results decode)
    (hdesired : s.desired = some job.key) (hchange : ServiceChange s t) : t.OnTheWay job := by
  have hruns := hserving.runs
  unfold OnTheWay at h
  cases hchange with
  | receives other jobs hphase hjobs hroom =>
    rw [hphase, hjobs] at h
    rcases h with h | ⟨h, -⟩ | h | h
    · rcases List.mem_cons.1 h with rfl | h
      · exact .inr (.inl ⟨List.mem_cons_self, (fun heq => by cases heq)⟩)
      · exact .inl h
    · cases h
    · exact .inr (.inr (.inl h))
    · exact .inr (.inr (.inr h))
  | uncounts other hphase | keeps other hphase | registers other hphase
  | releases other result hphase | unregisters other result hphase | accepts other result hphase =>
    rw [hphase] at h
    rcases h with h | ⟨h, -⟩ | h | h
    · exact .inl h
    · exact .inr (.inl ⟨h, (fun heq => by cases heq)⟩)
    · exact .inr (.inr (.inl h))
    · exact .inr (.inr (.inr h))
  | outdates other hphase hundesired =>
    rw [hphase] at h
    rcases h with h | ⟨h, -⟩ | h | h
    · exact .inl h
    · rw [List.mem_singleton.1 h] at hdesired
      exact absurd hdesired hundesired
    · exact .inr (.inr (.inl h))
    · exact .inr (.inr (.inr h))
  | drops other hphase hfree =>
    rw [hphase] at h
    rcases h with h | ⟨h, hne⟩ | h | h
    · exact .inl h
    · rw [List.mem_singleton.1 h] at hne
      exact absurd rfl hne
    · exact .inr (.inr (.inl h))
    · exact .inr (.inr (.inr h))
  | starts other hphase | startsCancelled other hphase =>
    rw [hphase] at h
    rcases h with h | ⟨h, -⟩ | ⟨result, h⟩ | h
    · exact .inl h
    · rw [List.mem_singleton.1 h]
      exact .inr (.inr (.inl ⟨none, List.mem_append_right _ List.mem_cons_self⟩))
    · exact .inr (.inr (.inl ⟨result, List.mem_append_left _ h⟩))
    · exact .inr (.inr (.inr h))
  | joins i other result hphase hget =>
    rw [hphase] at h
    rcases h with h | ⟨h, -⟩ | ⟨result', h⟩ | h
    · exact .inl h
    · cases h
    · rcases mem_eraseIdx_or_eq hget h with hstill | heq
      · exact .inr (.inr (.inl ⟨result', hstill⟩))
      · cases heq
        exact .inr (.inl ⟨List.mem_cons_self, (fun heq => by cases heq)⟩)
    · exact .inr (.inr (.inr h))
  | overtakes other result hphase hundesired =>
    rw [hphase] at h
    rcases h with h | ⟨h, -⟩ | h | h
    · exact .inl h
    · have hsame := (hresults.service other result (by rw [hphase]; rfl)).key
      rw [List.mem_singleton.1 h, ← hsame] at hdesired
      exact absurd hdesired hundesired
    · exact .inr (.inr (.inl h))
    · exact .inr (.inr (.inr h))
  | delivers other result hphase hroom =>
    rw [hphase] at h
    rcases h with h | ⟨h, -⟩ | h | ⟨result', h⟩
    · exact .inl h
    · rw [List.mem_singleton.1 h]
      exact .inr (.inr (.inr ⟨result, List.mem_append_right _ List.mem_cons_self⟩))
    · exact .inr (.inr (.inl h))
    · exact .inr (.inr (.inr ⟨result', List.mem_append_left _ h⟩))
  | fails other result hphase hend =>
    rcases hend with hclosed | hshut
    · exact absurd (hserving.isOpen.symm.trans hclosed) (by decide)
    · exact absurd (hserving.stays.symm.trans hshut) (by decide)
  | leaves hphase hend => exact absurd (hserving.stays.symm.trans hend) (by decide)
  | cancels hphase | stops hphase | drains i other result hphase =>
    rw [hphase] at hruns
    cases hruns

/-- The loop leaves no job pending that was not. -/
theorem pendingJobs_service (hchange : ServiceChange s t) (hmem : job ∈ t.pendingJobs) :
    job ∈ s.pendingJobs := by
  rw [mem_pendingJobs] at hmem ⊢
  cases hchange with
  | receives other jobs hphase hjobs hroom =>
    rw [hphase, hjobs]
    rcases hmem with h | h | h
    · exact .inl (List.mem_cons_of_mem _ h)
    · rw [List.mem_singleton.1 h]
      exact .inl List.mem_cons_self
    · exact .inr (.inr h)
  | uncounts other hphase | keeps other hphase | outdates other hphase | registers other hphase =>
    rw [hphase]
    exact hmem
  | drops other hphase | releases other result hphase =>
    rw [hphase]
    rcases hmem with h | h | h
    · exact .inl h
    · cases h
    · exact .inr (.inr h)
  | starts other hphase | startsCancelled other hphase =>
    rw [hphase]
    rcases hmem with h | h | ⟨result, h⟩ | h
    · exact .inl h
    · cases h
    · rcases List.mem_append.1 h with h | h
      · exact .inr (.inr (.inl ⟨result, h⟩))
      · cases List.mem_singleton.1 h
        exact .inr (.inl List.mem_cons_self)
    · exact .inr (.inr (.inr h))
  | joins i other result hphase hget =>
    rw [hphase]
    rcases hmem with h | h | ⟨result', h⟩ | h
    · exact .inl h
    · rw [List.mem_singleton.1 h]
      exact .inr (.inr (.inl ⟨some result, List.mem_of_getElem? hget⟩))
    · exact .inr (.inr (.inl ⟨result', List.mem_of_mem_eraseIdx h⟩))
    · exact .inr (.inr (.inr h))
  | drains i other result hphase hget =>
    rcases hmem with h | h | ⟨result', h⟩ | h
    · exact .inl h
    · exact .inr (.inl h)
    · exact .inr (.inr (.inl ⟨result', List.mem_of_mem_eraseIdx h⟩))
    · rcases List.mem_append.1 h with h | h
      · exact .inr (.inr (.inr h))
      · rw [List.mem_singleton.1 h]
        exact .inr (.inr (.inl ⟨some result, List.mem_of_getElem? hget⟩))
  | unregisters other result hphase | accepts other result hphase | overtakes other result hphase
  | delivers other result hphase | fails other result hphase | leaves hphase | cancels hphase
  | stops hphase =>
    rw [hphase]
    exact hmem

/-- The loop makes no jobs. -/
theorem Latest.service (h : s.Latest job) (hchange : ServiceChange s t) : t.Latest job := by
  classical
  intro other hother hkey
  refine h other ?_ hkey
  obtain ⟨i, hget⟩ := List.getElem?_of_mem hother
  have hle := le_total hget fun job => if job = other then 1 else 0
  rw [(total_service hchange).2, if_pos rfl] at hle
  obtain ⟨j, found, hfound, hone⟩ := exists_of_total_pos hle
  obtain rfl : found = other := by
    by_contra hne
    rw [if_neg hne] at hone
    cases hone
  exact List.mem_of_getElem? hfound

theorem Serving.service (h : s.Serving) (hresults : s.Results decode) (hplaced : s.Placed)
    (hchange : ServiceChange s t) : t.Serving := by
  have hruns := runs_service h hchange
  have hsame : t.calls = s.calls ∧ t.desired = s.desired ∧ t.resultsOpen = s.resultsOpen ∧
      t.shutdown = s.shutdown := by
    cases hchange <;> exact ⟨rfl, rfl, rfl, rfl⟩
  obtain ⟨hcalls, hdesired, hopen, hshut⟩ := hsame
  refine ⟨hopen.trans h.isOpen, hshut.trans h.stays, hruns, hcalls ▸ h.others, ?_, ?_, ?_,
    fun job hmem => (h.latest job (pendingJobs_service hchange hmem)).service hchange, ?_⟩
  · rw [hcalls, hdesired]
    exact h.wished
  · intro job hmem hwish
    have hbefore := pendingJobs_service hchange hmem
    rw [hdesired] at hwish
    rw [spared_service hplaced h.runs (mem_allJobs_of_pending hbefore) hwish hchange]
    exact h.fresh job hbefore hwish
  · intro job hphase
    rw [hdesired]
    cases hchange with
    | outdates other hchecking hundesired =>
      cases hphase
      exact hundesired
    | drains i other result hdraining hget =>
      rw [hdraining] at hphase
      cases hphase
    | receives | uncounts | keeps | drops | registers | starts | startsCancelled | joins
    | releases | unregisters | accepts | overtakes | delivers | fails | leaves | cancels | stops =>
      cases hphase
  · intro call hlast hserved
    rw [hcalls] at hlast
    obtain ⟨job, hkey, hlatest, hfresh, hway⟩ := h.served call hlast hserved
    have hwish : s.desired = some job.key :=
      hkey ▸ h.wished call hlast (CallPhase.hasWished_of_served hserved)
    refine ⟨job, hkey, hlatest.service hchange, ?_, hway.service h hresults hwish hchange⟩
    rw [spared_service hplaced h.runs hway.mem_allJobs hwish hchange]
    exact hfresh

/-! ## The call that moves -/

theorem callChange_open {i : Nat} {call : DecodeCall} (hchange : CallChange s i call t) :
    call.phase.isAnswered = false := by
  cases hchange with
  | wishes phase hmove | supersedes phase hmove | turns phase hmove =>
    generalize call.phase = before at hmove
    cases hmove <;> rfl
  | joins hphase | inserts hphase | reserves hphase | sends hphase | returns hphase
  | releases hphase | forgets hphase =>
    rw [hphase]
    rfl

/-- Only the last call moves. -/
theorem Serving.last (h : s.Serving) {i : Nat} {call : DecodeCall}
    (hget : s.calls[i]? = some call) (hopen : call.phase.isAnswered = false) :
    i + 1 = s.calls.length := by
  have hlt := (List.getElem?_eq_some_iff.1 hget).1
  by_contra hne
  have hanswered := h.others i call hget (by omega)
  rw [hopen] at hanswered
  cases hanswered

theorem getLast?_of_last {calls : List DecodeCall} {i : Nat} (hlast : i + 1 = calls.length) :
    calls.getLast? = calls[i]? := by
  rw [List.getLast?_eq_getElem?, ← hlast, Nat.add_sub_cancel]

/-- The last call moves to another phase, and the jobs that are desired stay as they were. -/
theorem Serving.moved (h : s.Serving) {i : Nat} {call : DecodeCall}
    (hget : s.calls[i]? = some call) (hlast : i + 1 = s.calls.length) {phase : CallPhase}
    (hcalls : t.calls = s.calls.set i { call with phase })
    (hopen : t.resultsOpen = s.resultsOpen) (hshut : t.shutdown = s.shutdown)
    (hservice : t.service = s.service)
    (hwished : phase.hasWished = true → t.desired = some call.key)
    (hfresh : ∀ job ∈ t.pendingJobs, t.desired = some job.key → t.isCancelled job = false)
    (hdropping : ∀ job, s.service = .dropping job → t.desired ≠ some job.key)
    (hlatest : ∀ job ∈ t.pendingJobs, t.Latest job)
    (hserved : phase.isServed = true →
      ∃ job, job.key = call.key ∧ t.Latest job ∧ t.isCancelled job = false ∧ t.OnTheWay job) :
    t.Serving := by
  have hlt := (List.getElem?_eq_some_iff.1 hget).1
  have hnext : t.calls.getLast? = some { call with phase } := by
    rw [hcalls, getLast?_of_last (by rw [List.length_set]; exact hlast), List.getElem?_set_self hlt]
  refine ⟨hopen.trans h.isOpen, hshut.trans h.stays, hservice ▸ h.runs, ?_, ?_, hfresh,
    fun job hphase => hdropping job (hservice.symm.trans hphase), hlatest, ?_⟩
  · intro j other hother hbefore
    rw [hcalls] at hother hbefore
    rw [List.length_set] at hbefore
    rw [List.getElem?_set_ne (by omega)] at hother
    exact h.others j other hother hbefore
  · intro other hother hphase
    cases hnext.symm.trans hother
    exact hwished hphase
  · intro other hother hphase
    cases hnext.symm.trans hother
    exact hserved hphase

/-- The key of a call that has inserted it belongs to no job. -/
theorem Accounts.not_owned (h : s.Accounts) {i : Nat} {call : DecodeCall}
    (hget : s.calls[i]? = some call) (hholds : call.phase.holdsKey = true)
    (hmem : job ∈ s.pendingJobs) : job.key ≠ call.key := by
  intro hkey
  obtain ⟨j, hj⟩ := List.getElem?_of_mem hmem
  have hjob := le_total hj (DecodeJob.owns call.key)
  have hcall := le_total hget (DecodeCall.owns call.key)
  rw [owns_of_holds hholds, if_pos rfl] at hcall
  rw [DecodeJob.owns, if_pos hkey] at hjob
  have hcount := h.pending call.key
  unfold owners at hcount
  have hle := List.nodup_iff_count_le_one.1 h.nodup call.key
  omega

/-- A pending key that no call holds belongs to a job. -/
theorem Accounts.exists_job (h : s.Accounts) {key : DecodeKey} (hmem : key ∈ s.pending)
    (hfree : ∀ call ∈ s.calls, call.phase.holdsKey = false) :
    ∃ job ∈ s.pendingJobs, job.key = key := by
  have hcalls : total (DecodeCall.owns key) s.calls = 0 :=
    total_eq_zero fun call hcall => owns_of_free (hfree call hcall) key
  have hcount := h.pending key
  unfold owners at hcount
  have hpos := List.count_pos_iff.2 hmem
  obtain ⟨j, job, hget, hjob⟩ := exists_of_total_pos (by omega : 0 <
    total (DecodeJob.owns key) s.pendingJobs)
  refine ⟨job, List.mem_of_getElem? hget, ?_⟩
  by_contra hne
  rw [DecodeJob.owns, if_neg hne] at hjob
  omega

/-- A pending job that is desired is on the way. -/
theorem Serving.onTheWay (h : s.Serving) (hregistered : s.Registered) (hmem : job ∈ s.pendingJobs)
    (hdesired : s.desired = some job.key) : s.OnTheWay job := by
  have hruns := h.runs
  have hdiscarded : s.discarded = [] :=
    hregistered.discarded (by cases hphase : s.service <;> rw [hphase] at hruns <;> first
      | rfl
      | cases hruns)
  rw [mem_pendingJobs, hdiscarded] at hmem
  rcases hmem with hmem | hmem | hmem | hmem
  · exact .inl hmem
  · refine .inr (.inl ⟨?_, fun hphase => h.dropping job hphase hdesired⟩)
    cases hphase : s.service <;> rw [hphase] at hmem <;> first | exact hmem | cases hmem
  · exact .inr (.inr (.inl hmem))
  · cases hmem

theorem CallPhase.not_holdsKey_of_answered {phase : CallPhase} (h : phase.isAnswered = true) :
    phase.holdsKey = false := by
  cases phase <;> first | rfl | cases h

theorem mem_concat_or {α : Type*} {members : List α} {made x : α} {P : Prop}
    (h : x ∈ members ++ [made] ∨ P) : (x ∈ members ∨ P) ∨ x = made := by
  rcases h with h | h
  · rcases List.mem_append.1 h with h | h
    · exact .inl (.inl h)
    · exact .inr (List.mem_singleton.1 h)
  · exact .inl (.inr h)

theorem Serving.call (h : s.Serving) (haccounts : s.Accounts) (hplaced : s.Placed)
    (hregistered : s.Registered) {i : Nat} {call : DecodeCall} (hget : s.calls[i]? = some call)
    (hcalm : call.phase = .checking → call.key ∈ s.pending → s.desired = some call.key)
    (hchange : CallChange s i call t) : t.Serving := by
  have hlast := h.last hget (callChange_open hchange)
  have hcall : s.calls.getLast? = some call := (getLast?_of_last hlast).trans hget
  have hspared := fun (job : DecodeJob) (hmem : job ∈ s.pendingJobs) (hkey : call.key = job.key) =>
    spared_call hplaced hregistered (mem_allJobs_of_pending hmem) hkey hchange
  have hserves := h.served call hcall
  have hwish := h.wished call hcall
  cases hchange with
  | joins hphase hfree hpending =>
    have hdesired := hcalm hphase hpending
    refine h.moved hget hlast rfl rfl rfl rfl (fun _ => hdesired) h.fresh h.dropping h.latest
      fun _ => ?_
    have hnone : ∀ other ∈ s.calls, other.phase.holdsKey = false := by
      intro other hother
      obtain ⟨j, hj⟩ := List.getElem?_of_mem hother
      have hlt := (List.getElem?_eq_some_iff.1 hj).1
      rcases Nat.lt_or_ge (j + 1) s.calls.length with hbefore | hge
      · exact CallPhase.not_holdsKey_of_answered (h.others j other hj hbefore)
      · obtain rfl : j = i := by omega
        cases hget.symm.trans hj
        rw [hphase]
        rfl
    obtain ⟨job, hmem, hkey⟩ := haccounts.exists_job hpending hnone
    have hjob : s.desired = some job.key := hkey ▸ hdesired
    exact ⟨job, hkey, h.latest job hmem, h.fresh job hmem hjob,
      h.onTheWay hregistered hmem hjob⟩
  | inserts hphase hfree hnew =>
    exact h.moved hget hlast rfl rfl rfl rfl (fun hphase => by cases hphase) h.fresh h.dropping
      h.latest (fun hphase => by cases hphase)
  | wishes phase hmove =>
    generalize hphase : call.phase = before at hmove
    cases hmove with
    | joining =>
      have hdesired := hwish (by rw [hphase]; rfl)
      refine h.moved hget hlast rfl rfl rfl rfl (fun _ => rfl) ?_ ?_ h.latest ?_
      · exact fun job hmem hkey => h.fresh job hmem (hdesired.trans hkey)
      · exact fun job hdropping hkey => h.dropping job hdropping (hdesired.trans hkey)
      · exact fun _ => hserves (by rw [hphase]; rfl)
    | wanting =>
      have hnone : ∀ job ∈ s.pendingJobs, some call.key ≠ some job.key := fun job hmem heq =>
        haccounts.not_owned hget (by rw [hphase]; rfl) hmem (Option.some.inj heq).symm
      refine h.moved hget hlast rfl rfl rfl rfl (fun _ => rfl) ?_ ?_ h.latest
        (fun hphase => by cases hphase)
      · exact fun job hmem hkey => absurd hkey (hnone job hmem)
      · intro job hdropping
        refine hnone job (mem_pendingJobs.2 (.inr (.inl ?_)))
        rw [hdropping]
        exact List.mem_cons_self
  | supersedes phase hmove =>
    have hdesired : s.desired = some call.key := by
      refine hwish ?_
      generalize call.phase = before at hmove
      cases hmove <;> rfl
    refine h.moved hget hlast rfl rfl rfl rfl (fun _ => hdesired) ?_ h.dropping h.latest ?_
    · intro job hmem hkey
      rw [hspared job hmem (Option.some.inj (hdesired.symm.trans hkey))]
      exact h.fresh job hmem hkey
    · intro hserved
      generalize hphase : call.phase = before at hmove
      cases hmove with
      | joined =>
        obtain ⟨job, hkey, hlatest, hfresh, hway⟩ := hserves (by rw [hphase]; rfl)
        refine ⟨job, hkey, hlatest, ?_, hway⟩
        rw [isCancelled, ← hkey, cancelOthers_spares hplaced hregistered hway.mem_allJobs]
        exact hfresh
      | superseding => cases hserved
  | turns phase hmove =>
    have hdesired : s.desired = some call.key := by
      refine hwish ?_
      generalize call.phase = before at hmove
      cases hmove <;> rfl
    refine h.moved hget hlast rfl rfl rfl rfl (fun _ => hdesired) h.fresh h.dropping h.latest ?_
    intro hserved
    generalize call.phase = before at hmove
    cases hmove <;> cases hserved
  | sends hphase hroom =>
    have hdesired : s.desired = some call.key := hwish (by rw [hphase]; rfl)
    let made : DecodeJob :=
      { key := call.key
        input := call.input
        headers := call.headers
        cancellation := s.cancellations.length }
    have hnew (flags : List Bool) : (flags ++ [false])[flags.length]?.getD false = false := by
      rw [List.getElem?_concat_length]
      rfl
    have hmade : ∀ other ∈ s.allJobs, other.cancellation ≤ made.cancellation :=
      fun other hother => (hplaced.lt_length hother).le
    refine h.moved hget hlast rfl rfl rfl rfl (fun _ => hdesired) ?_ h.dropping ?_ ?_
    · intro job hmem hkey
      rcases mem_concat_or (mem_pendingJobs.1 hmem) with hbefore | rfl
      · have hbefore := mem_pendingJobs.2 hbefore
        rw [hspared job hbefore (Option.some.inj (hdesired.symm.trans hkey))]
        exact h.fresh job hbefore hkey
      · exact hnew s.cancellations
    · intro job hmem other hother hkey
      rcases mem_concat_or (mem_pendingJobs.1 hmem) with hbefore | rfl <;>
        rcases mem_concat_or (mem_allJobs.1 hother) with hold | rfl
      · exact h.latest job (mem_pendingJobs.2 hbefore) other (mem_allJobs.2 hold) hkey
      · -- A job that is pending has another key than the call.
        exact absurd hkey.symm (haccounts.not_owned hget (by rw [hphase]; rfl)
          (mem_pendingJobs.2 hbefore))
      · exact hmade other (mem_allJobs.2 hold)
      · exact Nat.le_refl _
    · refine fun _ => ⟨made, rfl, fun other hother hkey => ?_, hnew s.cancellations,
        .inl (List.mem_append_right _ List.mem_cons_self)⟩
      rcases mem_concat_or (mem_allJobs.1 hother) with hold | rfl
      · exact hmade other (mem_allJobs.2 hold)
      · exact Nat.le_refl _
  | reserves hphase | returns hphase | releases hphase | forgets hphase =>
    exact h.moved hget hlast rfl rfl rfl rfl (fun _ => hwish (by rw [hphase]; rfl)) h.fresh
      h.dropping h.latest (fun hphase => by cases hphase)

/-! ## Runs -/

theorem set_eq_self {α : Type*} {members : List α} {i : Nat} {a : α} (hget : members[i]? = some a) :
    members.set i a = members := by
  obtain ⟨hlt, rfl⟩ := List.getElem?_eq_some_iff.1 hget
  exact List.set_getElem_self hlt

theorem Serving.change (h : s.Serving) (hsound : s.Sound decode policy) (hcalm : s.Calm event)
    (hchange : Change decode s event t) : t.Serving := by
  cases hchange with
  | requested key input headers =>
    refine ⟨h.isOpen, h.stays, h.runs, ?_, ?_, h.fresh, h.dropping, h.latest, ?_⟩
    · intro i call hget hbefore
      rw [List.length_append] at hbefore
      rw [List.getElem?_append_left (by simpa using hbefore)] at hget
      exact hcalm call (List.mem_of_getElem? hget)
    · intro call hlast hphase
      rw [List.getLast?_concat] at hlast
      cases hlast
      cases hphase
    · intro call hlast hphase
      rw [List.getLast?_concat] at hlast
      cases hlast
      cases hphase
  | call i admits call next hget hchange =>
    exact h.call hsound.accounts hsound.placed hsound.registered hget (hcalm call hget) hchange
  | service event next hchange => exact h.service hsound.results hsound.placed hchange
  | finished i outcome job hget hends =>
    have hactive : (s.active.set i (job, some (outcome.result decode job))).map Prod.fst =
        s.active.map Prod.fst := by
      rw [List.map_set]
      exact set_eq_self (by rw [List.getElem?_map, hget]; rfl)
    have hmem {other : DecodeJob} : (∃ result, (other, result) ∈ s.active) →
        ∃ result, (other, result) ∈ s.active.set i (job, some (outcome.result decode job)) := by
      rintro ⟨result, hother⟩
      have hin : other ∈ s.active.map Prod.fst := List.mem_map_of_mem hother
      rw [← hactive] at hin
      obtain ⟨⟨same, result'⟩, hkept, hsame⟩ := List.mem_map.1 hin
      cases hsame
      exact ⟨result', hkept⟩
    have hall : { s with active := s.active.set i (job, some (outcome.result decode job)) }.allJobs =
        s.allJobs := by
      unfold allJobs
      dsimp only
      rw [hactive]
    have hlatest {other : DecodeJob} (hother : s.Latest other) :
        { s with active := s.active.set i (job, some (outcome.result decode job)) }.Latest other := by
      unfold Latest
      rw [hall]
      exact hother
    have hbefore : ∀ other ∈ { s with
        active := s.active.set i (job, some (outcome.result decode job)) }.pendingJobs,
        other ∈ s.pendingJobs := by
      intro other hother
      unfold pendingJobs at hother ⊢
      rw [hactive] at hother
      exact hother
    refine ⟨h.isOpen, h.stays, h.runs, h.others, h.wished, ?_, h.dropping,
      fun other hother => hlatest (h.latest other (hbefore other hother)), ?_⟩
    · exact fun other hother hkey => h.fresh other (hbefore other hother) hkey
    · intro call hlast hphase
      obtain ⟨other, hkey, hother, hfresh, hway⟩ := h.served call hlast hphase
      exact ⟨other, hkey, hlatest hother, hfresh, hway.imp_right (Or.imp_right (Or.imp_left hmem))⟩
  | taken result results hresults =>
    exact ⟨h.isOpen, h.stays, h.runs, h.others, h.wished, h.fresh, h.dropping, h.latest,
      h.served⟩
  | closed => exact absurd hcalm id
  | cancelled => exact absurd hcalm id

/-- In every calm run the request that came last is the desired one, be it accepted or not.
If it was accepted, the last job that was made for its key is not cancelled and not given
up: it is on the way, and when its result was sent, that is the result of a worker that was
not cancelled. -/
theorem request_served (hrun : run (step decode) (new policy) events = some s)
    (hcalm : Along (step decode) Calm (new policy) events) {call : DecodeCall} {accepted : Bool}
    (hlast : s.calls.getLast? = some call) (hanswered : call.phase = .answered accepted) :
    s.desired = some call.key ∧ (accepted = true →
      ∃ job, job.key = call.key ∧ s.Latest job ∧ s.isCancelled job = false ∧ s.OnTheWay job ∧
        ∀ result, (job, result) ∈ s.delivered →
          ∃ outcome : WorkerEnd, result = outcome.result decode job ∧
            ∀ text limited error, outcome ≠ .cancelled text limited error) := by
  have hboth : s.Sound decode policy ∧ s.Serving := by
    refine run_invariant_along (I := fun s => s.Sound decode policy ∧ s.Serving)
      (fun s event t h hcalm hstep => ?_) ⟨sound_new policy, serving_new policy⟩ hcalm hrun
    exact ⟨sound_step h.1 hstep, h.2.change h.1 hcalm (step_change hstep)⟩
  obtain ⟨hsound, hserving⟩ := hboth
  refine ⟨hserving.wished call hlast (by rw [hanswered]; rfl), fun haccepted => ?_⟩
  obtain ⟨job, hkey, hlatest, hfresh, hway⟩ :=
    hserving.served call hlast (by rw [hanswered, haccepted]; rfl)
  refine ⟨job, hkey, hlatest, hfresh, hway, fun result hmem => ?_⟩
  obtain ⟨outcome, hmay, rfl⟩ := hsound.results.delivered job result hmem
  refine ⟨outcome, rfl, fun text limited error heq => ?_⟩
  subst heq
  exact absurd (hfresh.symm.trans hmay) (by decide)

theorem request_served_sample : ∃ s, run (step plainDecoder) (new {}) sampleDecoding = some s ∧
    s.desired = s.calls.getLast?.map DecodeCall.key := by
  obtain ⟨s, hrun⟩ := Option.isSome_iff_exists.1
    (show (run (step plainDecoder) (new {}) sampleDecoding).isSome = true by decide +kernel)
  obtain ⟨call, hlast, haccepted⟩ : ∃ call, s.calls.getLast? = some call ∧
      call.phase = .answered true := by
    have hphase : (run (step plainDecoder) (new {}) sampleDecoding).map
        (fun s => s.calls.getLast?.map DecodeCall.phase) = some (some (.answered true)) := by
      decide +kernel
    rw [hrun] at hphase
    exact Option.map_eq_some_iff.1 (Option.some.inj hphase)
  have hserved := request_served hrun
    (show Along (step plainDecoder) Calm (new {}) sampleDecoding by decide +kernel) hlast haccepted
  exact ⟨s, hrun, by rw [hlast]; exact hserved.1⟩

end DecodeSystem

end Fluxcope.Capture
