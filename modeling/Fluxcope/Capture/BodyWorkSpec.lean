import Fluxcope.Capture.BodyWork
/-!
# The counters of the body work

Every caller has a share in each counter.  A step changes the share of one
caller, and the counter by as much.
-/

namespace Fluxcope.Capture

open Fluxcope.Library Fluxcope.Control

/-! ## Shares -/

/-- The bytes for which the queue is charged. -/
def BodyWorkPhase.charge : BodyWorkPhase → Option Nat
  | .queued lease | .waiting lease | .permitted lease | .counted lease | .handing lease =>
    if lease.charged then some lease.inputBytes else none
  | .active | .leaving _ | .retrying _ | .done => none

def BodyWorkPhase.queuedJobs (phase : BodyWorkPhase) : Nat := if phase.charge.isSome then 1 else 0

def BodyWorkPhase.queuedBytes (phase : BodyWorkPhase) : Nat := phase.charge.getD 0

def BodyWorkPhase.activeJobs : BodyWorkPhase → Nat
  | .counted _ | .handing _ | .active => 1
  | .queued _ | .waiting _ | .permitted _ | .leaving _ | .retrying _ | .done => 0

def BodyWorkPhase.permits : BodyWorkPhase → Nat
  | .permitted _ | .counted _ | .handing _ | .active | .leaving _ => 1
  | .queued _ | .waiting _ | .retrying _ | .done => 0

/-- Whether the caller holds the charge of this number. -/
def BodyWorkCaller.owns (ticket : Nat) (caller : BodyWorkCaller) : Nat :=
  if caller.ticket = ticket then caller.phase.queuedJobs else 0

namespace BodyWorkSystem

def total (w : BodyWorkSystem) (share : BodyWorkPhase → Nat) : Nat :=
  (w.callers.map fun caller => share caller.phase).sum

/-- The counters are the sums of the shares; each charge handed out is held or was released. -/
structure Inv (w : BodyWorkSystem) : Prop where
  jobs : w.admission.jobs = w.total BodyWorkPhase.queuedJobs
  bytes : w.admission.bytes = w.total BodyWorkPhase.queuedBytes
  active : w.admission.active = w.total BodyWorkPhase.activeJobs
  permits : w.admission.permits + w.total BodyWorkPhase.permits = activeBodyWorkLimit
  jobs_le : w.admission.jobs ≤ queuedBodyWorkLimit
  bytes_le : w.admission.bytes ≤ queuedBodyInputLimitBytes
  ledger : ∀ ticket, w.released.count ticket + (w.callers.map (·.owns ticket)).sum =
    if ticket < w.issued then 1 else 0

theorem inv_new : Inv {} where
  jobs := rfl
  bytes := rfl
  active := rfl
  permits := rfl
  jobs_le := Nat.zero_le _
  bytes_le := Nat.zero_le _
  ledger := fun ticket => (if_neg (Nat.not_lt_zero ticket)).symm

variable {w w' : BodyWorkSystem} {i : Nat} {caller next : BodyWorkCaller}

theorem share_le_total (hget : w.callers[i]? = some caller) (share : BodyWorkPhase → Nat) :
    share caller.phase ≤ w.total share :=
  List.le_sum_of_mem (List.mem_map_of_mem (f := fun caller : BodyWorkCaller => share caller.phase)
    (List.mem_of_getElem? hget))

theorem activeJobs_le_permits (phase : BodyWorkPhase) : phase.activeJobs ≤ phase.permits := by
  cases phase <;> simp [BodyWorkPhase.activeJobs, BodyWorkPhase.permits]

theorem Inv.active_le (h : w.Inv) : w.admission.active ≤ activeBodyWorkLimit := by
  have hpermits := h.permits
  have hle : w.total BodyWorkPhase.activeJobs ≤ w.total BodyWorkPhase.permits :=
    List.sum_le_sum fun caller _ => activeJobs_le_permits caller.phase
  rw [h.active]
  omega

theorem total_set (hget : w.callers[i]? = some caller)
    (hcallers : w'.callers = w.callers.set i next) (share : BodyWorkPhase → Nat) :
    w'.total share + share caller.phase = w.total share + share next.phase := by
  unfold total
  rw [hcallers]
  exact sum_map_set (fun caller => share caller.phase) hget next

/-- The change of one caller's shares is the change of the counters. -/
structure Balanced (w w' : BodyWorkSystem) (caller next : BodyWorkCaller) : Prop where
  jobs : w'.admission.jobs + caller.phase.queuedJobs = w.admission.jobs + next.phase.queuedJobs
  bytes : w'.admission.bytes + caller.phase.queuedBytes = w.admission.bytes + next.phase.queuedBytes
  active : w'.admission.active + caller.phase.activeJobs =
    w.admission.active + next.phase.activeJobs
  permits : w'.admission.permits + next.phase.permits = w.admission.permits + caller.phase.permits
  jobs_le : w'.admission.jobs ≤ queuedBodyWorkLimit
  bytes_le : w'.admission.bytes ≤ queuedBodyInputLimitBytes
  ledger : ∀ ticket, w'.released.count ticket + next.owns ticket +
      (if ticket < w.issued then 1 else 0) =
    w.released.count ticket + caller.owns ticket + if ticket < w'.issued then 1 else 0

theorem Inv.set (h : w.Inv) (hget : w.callers[i]? = some caller)
    (hcallers : w'.callers = w.callers.set i next) (hbalanced : w.Balanced w' caller next) :
    w'.Inv := by
  have htotal := total_set hget hcallers
  refine ⟨?_, ?_, ?_, ?_, hbalanced.jobs_le, hbalanced.bytes_le, fun ticket => ?_⟩
  · have hshare := htotal BodyWorkPhase.queuedJobs
    have hchange := hbalanced.jobs
    have hold := h.jobs
    omega
  · have hshare := htotal BodyWorkPhase.queuedBytes
    have hchange := hbalanced.bytes
    have hold := h.bytes
    omega
  · have hshare := htotal BodyWorkPhase.activeJobs
    have hchange := hbalanced.active
    have hold := h.active
    omega
  · have hshare := htotal BodyWorkPhase.permits
    have hchange := hbalanced.permits
    have hold := h.permits
    omega
  · have hshare := sum_map_set (fun caller => caller.owns ticket) hget next
    have hchange := hbalanced.ledger ticket
    have hold := h.ledger ticket
    rw [hcallers]
    omega

/-! ## Admission and release -/

/-- An admission leaves the counters of the queue or charges one job within its limits. -/
inductive Admitted (admission : BodyWorkAdmission) (inputBytes : Nat) :
    BodyWorkAdmission × Except ControlError QueuedBodyWorkLease → Prop
  | refused (rejected : Nat) (error : ControlError) :
      Admitted admission inputBytes ({ admission with rejected }, .error error)
  | charged (hjobs : admission.jobs < queuedBodyWorkLimit)
      (hbytes : admission.bytes + inputBytes ≤ queuedBodyInputLimitBytes) :
      Admitted admission inputBytes
        ({ admission with jobs := admission.jobs + 1, bytes := admission.bytes + inputBytes },
          .ok { inputBytes, charged := true })

theorem admitted_tryAdmit (admission : BodyWorkAdmission) (inputBytes : Nat)
    (cancelled expired : Bool) :
    Admitted admission inputBytes (admission.tryAdmit inputBytes cancelled expired) := by
  unfold BodyWorkAdmission.tryAdmit BodyWorkAdmission.tryQueue BodyWorkAdmission.reject
  split
  · exact .refused admission.rejected _
  split
  · exact .refused admission.rejected _
  split
  · exact .refused _ _
  split
  · exact .refused _ _
  split
  · exact .refused _ _
  · rename_i hjobs _ hbytes
    exact .charged (Nat.lt_of_not_le hjobs) (Nat.le_of_not_lt hbytes)

theorem releaseCharge_lease (lease : QueuedBodyWorkLease) (admission : BodyWorkAdmission) :
    (lease.releaseCharge admission).1 = { lease with charged := false } := by
  obtain ⟨inputBytes, charged⟩ := lease
  cases charged <;> rfl

/-- What the queue is charged for the lease. -/
def leaseCharge (lease : QueuedBodyWorkLease) : Option Nat :=
  if lease.charged then some lease.inputBytes else none

theorem releaseCharge_admission (lease : QueuedBodyWorkLease) (admission : BodyWorkAdmission) :
    (lease.releaseCharge admission).2 =
      { admission with
        jobs := admission.jobs - (if (leaseCharge lease).isSome then 1 else 0)
        bytes := admission.bytes - (leaseCharge lease).getD 0 } := by
  obtain ⟨inputBytes, charged⟩ := lease
  cases charged <;> rfl

theorem count_recordRelease (w : BodyWorkSystem) (caller : BodyWorkCaller)
    (lease : QueuedBodyWorkLease) (ticket : Nat) :
    (w.recordRelease caller lease).released.count ticket = w.released.count ticket +
      if caller.ticket = ticket then (if (leaseCharge lease).isSome then 1 else 0) else 0 := by
  obtain ⟨inputBytes, charged⟩ := lease
  cases charged with
  | false => simp [recordRelease, leaseCharge]
  | true => simp [recordRelease, leaseCharge, List.count_cons]

/-- The step of a caller that releases its charge, if it still has one. -/
theorem Inv.releaseCharge (h : w.Inv) (hget : w.callers[i]? = some caller)
    {lease : QueuedBodyWorkLease} (hcharge : caller.phase.charge = leaseCharge lease)
    {phase : BodyWorkPhase} (hnone : phase.charge = none)
    (hactive : phase.activeJobs = caller.phase.activeJobs)
    (hpermits : phase.permits = caller.phase.permits) :
    Inv ((w.set i caller phase (lease.releaseCharge w.admission).2).recordRelease caller lease) := by
  have hjobs := share_le_total hget BodyWorkPhase.queuedJobs
  have hbytes := share_le_total hget BodyWorkPhase.queuedBytes
  rw [← h.jobs, BodyWorkPhase.queuedJobs, hcharge] at hjobs
  rw [← h.bytes, BodyWorkPhase.queuedBytes, hcharge] at hbytes
  refine @Inv.set _ _ _ _ { caller with phase } h hget rfl ?_
  rw [releaseCharge_admission]
  constructor
  case jobs =>
    rw [BodyWorkPhase.queuedJobs, BodyWorkPhase.queuedJobs, hcharge, hnone]
    exact Nat.sub_add_cancel hjobs
  case bytes =>
    rw [BodyWorkPhase.queuedBytes, BodyWorkPhase.queuedBytes, hcharge, hnone]
    exact Nat.sub_add_cancel hbytes
  case active => exact congrArg (w.admission.active + ·) hactive.symm
  case permits => exact congrArg (w.admission.permits + ·) hpermits
  case jobs_le => exact (Nat.sub_le _ _).trans h.jobs_le
  case bytes_le => exact (Nat.sub_le _ _).trans h.bytes_le
  case ledger =>
    intro ticket
    rw [count_recordRelease, BodyWorkCaller.owns, BodyWorkCaller.owns, BodyWorkPhase.queuedJobs,
      BodyWorkPhase.queuedJobs, hcharge, hnone]
    simp only [Option.isSome_none, Bool.false_eq_true, if_false, ite_self, Nat.add_zero]
    rfl

/-- A step that leaves the charge of the caller. -/
theorem Inv.keepCharge (h : w.Inv) (hget : w.callers[i]? = some caller) {phase : BodyWorkPhase}
    {admission : BodyWorkAdmission} (hcharge : phase.charge = caller.phase.charge)
    (hjobs : admission.jobs = w.admission.jobs) (hbytes : admission.bytes = w.admission.bytes)
    (hactive : admission.active + caller.phase.activeJobs = w.admission.active + phase.activeJobs)
    (hpermits : admission.permits + phase.permits = w.admission.permits + caller.phase.permits) :
    Inv (w.set i caller phase admission) := by
  have hqueued : phase.queuedJobs = caller.phase.queuedJobs := by
    rw [BodyWorkPhase.queuedJobs, BodyWorkPhase.queuedJobs, hcharge]
  refine @Inv.set _ _ _ _ { caller with phase } h hget rfl
    ⟨?_, ?_, hactive, hpermits, ?_, ?_, ?_⟩
  · show admission.jobs + _ = _
    rw [hjobs, hqueued]
  · show admission.bytes + _ = _
    rw [hbytes, BodyWorkPhase.queuedBytes, BodyWorkPhase.queuedBytes, hcharge]
  · exact hjobs.trans_le h.jobs_le
  · exact hbytes.trans_le h.bytes_le
  · intro ticket
    rw [BodyWorkCaller.owns, BodyWorkCaller.owns, hqueued]
    rfl

theorem Inv.submit (h : w.Inv) (inputBytes : Nat) (cancelled expired : Bool) :
    Inv (w.submit inputBytes cancelled expired) := by
  have hadmitted := admitted_tryAdmit w.admission inputBytes cancelled expired
  unfold BodyWorkSystem.submit
  generalize w.admission.tryAdmit inputBytes cancelled expired = result at hadmitted ⊢
  cases hadmitted with
  | refused rejected error =>
    exact ⟨h.jobs, h.bytes, h.active, h.permits, h.jobs_le, h.bytes_le, h.ledger⟩
  | charged hjobs hbytes =>
    dsimp only
    have hsum : ∀ f : BodyWorkCaller → Nat, ∀ caller : BodyWorkCaller,
        ((w.callers ++ [caller]).map f).sum = (w.callers.map f).sum + f caller := by
      intro f caller
      rw [List.map_append, List.sum_append, List.map_singleton, List.sum_singleton]
    have hnew := fun share : BodyWorkPhase → Nat => hsum (fun caller => share caller.phase)
      { phase := .queued { inputBytes, charged := true }, ticket := w.issued }
    constructor
    case jobs => exact (congrArg (· + 1) h.jobs).trans (hnew BodyWorkPhase.queuedJobs).symm
    case bytes =>
      exact (congrArg (· + inputBytes) h.bytes).trans (hnew BodyWorkPhase.queuedBytes).symm
    case active => exact h.active.trans (hnew BodyWorkPhase.activeJobs).symm
    case permits =>
      exact (congrArg (w.admission.permits + ·) (hnew BodyWorkPhase.permits)).trans h.permits
    case jobs_le => exact hjobs
    case bytes_le => exact hbytes
    case ledger =>
      intro ticket
      have hold := h.ledger ticket
      rw [hsum, ← Nat.add_assoc, hold]
      by_cases hticket : w.issued = ticket
      · simp [BodyWorkCaller.owns, BodyWorkPhase.queuedJobs, BodyWorkPhase.charge, hticket]
      · have hlt : ticket < w.issued + 1 ↔ ticket < w.issued := by omega
        simp only [BodyWorkCaller.owns, if_neg hticket, hlt, Nat.add_zero]

theorem Inv.resubmit (h : w.Inv) {ticket inputBytes : Nat}
    (hget : w.callers[i]? = some { phase := .retrying inputBytes, ticket })
    (cancelled expired : Bool) :
    Inv (w.resubmit i { phase := .retrying inputBytes, ticket } inputBytes cancelled expired) := by
  have hadmitted := admitted_tryAdmit w.admission inputBytes cancelled expired
  unfold BodyWorkSystem.resubmit
  generalize w.admission.tryAdmit inputBytes cancelled expired = result at hadmitted ⊢
  cases hadmitted with
  | refused rejected error => apply h.keepCharge hget <;> rfl
  | charged hjobs hbytes =>
    refine @Inv.set _ _ _ _
      { phase := .queued { inputBytes, charged := true }, ticket := w.issued } h hget rfl ?_
    constructor
    case jobs => rfl
    case bytes => rfl
    case active => rfl
    case permits => rfl
    case jobs_le => exact hjobs
    case bytes_le => exact hbytes
    case ledger =>
      intro number
      have hnone : BodyWorkCaller.owns number { phase := .retrying inputBytes, ticket } = 0 :=
        ite_self 0
      rw [hnone]
      show w.released.count number + _ + _ = w.released.count number + 0 +
        if number < w.issued + 1 then 1 else 0
      by_cases hnumber : w.issued = number
      · simp [BodyWorkCaller.owns, BodyWorkPhase.queuedJobs, BodyWorkPhase.charge, hnumber]
      · have hlt : number < w.issued + 1 ↔ number < w.issued := by omega
        simp only [BodyWorkCaller.owns, if_neg hnumber, hlt, Nat.add_zero]

/-! ## Steps -/

theorem Inv.move (h : w.Inv) {phase : BodyWorkPhase} {ticket : Nat}
    (hget : w.callers[i]? = some { phase, ticket }) {action : BodyWorkAction}
    (hmove : w.move i { phase, ticket } action phase = some w') : w'.Inv := by
  unfold BodyWorkSystem.move at hmove
  split at hmove
  case h_1 lease =>
    obtain rfl := Option.some.inj hmove
    apply h.keepCharge hget <;> rfl
  case h_2 lease =>
    split at hmove
    · cases hmove
    · rename_i hpermits
      obtain rfl := Option.some.inj hmove
      apply h.keepCharge hget
      case hpermits => exact Nat.sub_add_cancel (Nat.pos_of_ne_zero hpermits)
      all_goals rfl
  case h_3 lease =>
    obtain rfl := Option.some.inj hmove
    apply h.releaseCharge hget <;> rfl
  case h_4 lease =>
    obtain rfl := Option.some.inj hmove
    apply h.releaseCharge hget <;> rfl
  case h_5 lease =>
    -- At most two callers have been counted, so that the counter does not wrap.
    have hlt : w.admission.active + 1 < wordMax + 1 := by
      have hle := h.active_le
      unfold activeBodyWorkLimit at hle
      unfold wordMax
      omega
    obtain rfl := Option.some.inj hmove
    apply h.keepCharge hget
    case hactive => exact Nat.mod_eq_of_lt hlt
    all_goals rfl
  case h_6 lease =>
    have hnone : (BodyWorkPhase.handing (lease.releaseCharge w.admission).1).charge = none := by
      rw [releaseCharge_lease]
      rfl
    obtain rfl := Option.some.inj hmove
    exact h.releaseCharge hget rfl hnone rfl rfl
  case h_7 lease =>
    obtain rfl := Option.some.inj hmove
    apply h.releaseCharge hget <;> rfl
  case h_8 retry =>
    have hpos : 1 ≤ w.admission.active := by
      rw [h.active]
      exact share_le_total hget BodyWorkPhase.activeJobs
    obtain rfl := Option.some.inj hmove
    apply h.keepCharge hget
    case hactive =>
      show wrapSub w.admission.active 1 + 1 = w.admission.active
      rw [wrapSub_eq hpos]
      exact Nat.sub_add_cancel hpos
    all_goals rfl
  case h_9 retry =>
    obtain rfl := Option.some.inj hmove
    apply h.keepCharge hget <;> cases retry <;> rfl
  case h_10 cancelled expired inputBytes =>
    obtain rfl := Option.some.inj hmove
    exact h.resubmit hget cancelled expired
  case h_11 => cases hmove

theorem Inv.step (h : w.Inv) {action : BodyWorkAction} (hstep : w.step action = some w') :
    w'.Inv := by
  have hmove : ∀ i, (w.callers[i]?.bind fun caller => w.move i caller action caller.phase) =
      some w' → w'.Inv := by
    intro i hbind
    obtain ⟨caller, hget, hmove⟩ := Option.bind_eq_some_iff.1 hbind
    exact h.move hget hmove
  cases action with
  | submit inputBytes cancelled expired =>
    obtain rfl := Option.some.inj hstep
    exact h.submit inputBytes cancelled expired
  | acquire i | permit i | abandon i | count i | release i | hand i | leave i | free i
  | resubmit i => exact hmove i hstep

theorem Inv.run {actions : List BodyWorkAction}
    (hrun : Library.run BodyWorkSystem.step {} actions = some w) : w.Inv :=
  run_invariant (fun _ _ _ h hstep => h.step hstep) inv_new hrun

theorem total_eq_zero {share : BodyWorkPhase → Nat}
    (h : ∀ caller ∈ w.callers, share caller.phase = 0) : w.total share = 0 :=
  List.sum_eq_zero fun value hvalue => by
    obtain ⟨caller, hcaller, rfl⟩ := List.mem_map.1 hvalue
    exact h caller hcaller

end BodyWorkSystem

/-- After any run at most two jobs are active and at most eight are queued, the counters are
the sums over the leases that are alive, no charge was released twice, and when all callers
are done the counters are zero again and every charge was released once. -/
theorem body_work_counters {actions : List BodyWorkAction} {w : BodyWorkSystem}
    (hrun : run BodyWorkSystem.step {} actions = some w) :
    (w.admission.active = w.total BodyWorkPhase.activeJobs ∧ w.admission.active ≤ 2) ∧
    (w.admission.jobs = w.total BodyWorkPhase.queuedJobs ∧ w.admission.jobs ≤ 8) ∧
    (w.admission.bytes = w.total BodyWorkPhase.queuedBytes ∧
      w.admission.bytes ≤ 32 * 1024 * 1024) ∧
    (∀ ticket, w.released.count ticket ≤ 1) ∧
    ((∀ caller ∈ w.callers, caller.phase = .done) →
      w.admission.active = 0 ∧ w.admission.jobs = 0 ∧ w.admission.bytes = 0 ∧
        w.admission.permits = 2 ∧ ∀ ticket < w.issued, w.released.count ticket = 1) := by
  have h := BodyWorkSystem.Inv.run hrun
  refine ⟨⟨h.active, h.active_le⟩, ⟨h.jobs, h.jobs_le⟩, ⟨h.bytes, h.bytes_le⟩, fun ticket => ?_,
    fun hdone => ?_⟩
  · have hledger := h.ledger ticket
    split at hledger <;> omega
  · have hzero : ∀ share : BodyWorkPhase → Nat, share .done = 0 → w.total share = 0 := by
      intro share hshare
      apply BodyWorkSystem.total_eq_zero
      intro caller hcaller
      rw [hdone caller hcaller]
      exact hshare
    have hpermits := h.permits
    rw [hzero _ rfl] at hpermits
    refine ⟨h.active.trans (hzero _ rfl), h.jobs.trans (hzero _ rfl), h.bytes.trans (hzero _ rfl),
      hpermits, fun ticket hticket => ?_⟩
    have hledger := h.ledger ticket
    have hnone : (w.callers.map (·.owns ticket)).sum = 0 := by
      apply List.sum_eq_zero
      intro value hvalue
      obtain ⟨caller, hcaller, rfl⟩ := List.mem_map.1 hvalue
      rw [BodyWorkCaller.owns, hdone caller hcaller]
      exact ite_self 0
    rw [hnone, if_pos hticket] at hledger
    exact hledger

theorem body_work_counters_sample :
    ∃ w, run BodyWorkSystem.step {} [.submit 10 false false, .acquire 0, .submit 7 false false,
        .permit 0, .count 0, .release 0, .hand 0, .abandon 1, .leave 0 (some 5), .free 0,
        .resubmit 0 false false] = some w ∧
      w.admission.jobs = w.total BodyWorkPhase.queuedJobs ∧ w.admission.active ≤ 2 := by
  obtain ⟨w, hrun⟩ := Option.isSome_iff_exists.1 (show (run BodyWorkSystem.step {}
    [.submit 10 false false, .acquire 0, .submit 7 false false, .permit 0, .count 0, .release 0,
      .hand 0, .abandon 1, .leave 0 (some 5), .free 0, .resubmit 0 false false]).isSome = true by
    decide)
  exact ⟨w, hrun, (body_work_counters hrun).2.1.1, (body_work_counters hrun).1.2⟩

end Fluxcope.Capture
