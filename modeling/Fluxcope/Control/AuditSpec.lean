import Fluxcope.Control.Audit
import Fluxcope.Library.Window
/-!
# What a snapshot of the audit reports

A snapshot counts every read of a retained window once, and lists the last mutations of
the last minute, as long as time does not run backwards.  The counters are exact while
they have room.
-/

namespace Fluxcope.Control

open Fluxcope.Library Fluxcope.Settings

/-! ## Runs -/

inductive AuditEvent
  | record (call : ControlCallAudit)
  | snapshot (nowUnixSeconds : Nat)
  deriving DecidableEq, Repr

def AuditEvent.time : AuditEvent → Nat
  | .record call => call.completedUnixSeconds
  | .snapshot nowUnixSeconds => nowUnixSeconds

def auditStep (state : AuditState) : AuditEvent → AuditState
  | .record call => InstanceAudit.record state call
  | .snapshot nowUnixSeconds => (InstanceAudit.snapshot state nowUnixSeconds).1

def auditRun (state : AuditState) (events : List AuditEvent) : AuditState :=
  events.foldl auditStep state

def recordedCalls (events : List AuditEvent) : List ControlCallAudit :=
  events.filterMap fun event =>
    match event with
    | .record call => some call
    | .snapshot _ => none

/-- The read calls that completed in a window. -/
def readsIn (calls : List ControlCallAudit) (window : Nat) : List ControlCallAudit :=
  calls.filter fun call => call.mutation = none ∧ windowStart call.completedUnixSeconds = window

/-- The records of the mutations. -/
def mutationRecords (known : KnownInstance) (calls : List ControlCallAudit) :
    List MutationAuditRecord :=
  calls.filterMap fun call => call.mutation.map fun mutation => mutationRecord known call mutation

/-- The calls that some buckets count in a window. -/
def callsIn (buckets : List ReadAuditBucket) (window : Nat) : Nat :=
  ((buckets.filter fun bucket => bucket.windowStartedUnixSeconds = window).map
    ReadAuditBucket.calls).sum

def ReadLatencyBuckets.total (buckets : ReadLatencyBuckets) : Nat :=
  buckets.under10Ms + buckets.under100Ms + buckets.under1Second + buckets.under10Seconds +
    buckets.atLeast10Seconds

/-! ## Buckets -/

@[simp] theorem callsIn_nil (window : Nat) : callsIn [] window = 0 := rfl

theorem callsIn_cons (bucket : ReadAuditBucket) (buckets : List ReadAuditBucket) (window : Nat) :
    callsIn (bucket :: buckets) window =
      (if bucket.windowStartedUnixSeconds = window then bucket.calls else 0) +
        callsIn buckets window := by
  unfold callsIn
  rw [List.filter_cons]
  by_cases hwindow : bucket.windowStartedUnixSeconds = window
  · rw [if_pos (decide_eq_true hwindow), if_pos hwindow, List.map_cons, List.sum_cons]
  · rw [if_neg (by simpa using hwindow), if_neg hwindow, Nat.zero_add]

theorem callsIn_perm {buckets more : List ReadAuditBucket} (h : buckets.Perm more) (window : Nat) :
    callsIn buckets window = callsIn more window := ((h.filter _).map _).sum_nat

/-- Buckets of earlier windows have no part in the count. -/
theorem callsIn_filter_of_le {minimum window : Nat} (h : minimum ≤ window)
    (buckets : List ReadAuditBucket) :
    callsIn (buckets.filter fun bucket => bucket.windowStartedUnixSeconds ≥ minimum) window =
      callsIn buckets window := by
  unfold callsIn
  rw [List.filter_filter]
  refine congrArg (fun buckets => (buckets.map ReadAuditBucket.calls).sum)
    (List.filter_congr fun bucket _ => ?_)
  by_cases hwindow : bucket.windowStartedUnixSeconds = window
  · simp [hwindow, h]
  · simp [hwindow]

theorem total_record {buckets : ReadLatencyBuckets} (h : buckets.total < wordMax) (duration : Nat) :
    (buckets.record duration).total = buckets.total + 1 := by
  unfold ReadLatencyBuckets.total at *
  unfold ReadLatencyBuckets.record
  split
  · rw [satAdd_eq (by omega)]
    dsimp only
    omega
  · split
    · rw [satAdd_eq (by omega)]
      dsimp only
      omega
    · split
      · rw [satAdd_eq (by omega)]
        dsimp only
        omega
      · split
        · rw [satAdd_eq (by omega)]
          dsimp only
          omega
        · rw [satAdd_eq (by omega)]
          dsimp only
          omega

@[simp] theorem windowStarted_updateReadBucket (bucket : ReadAuditBucket) (call : ControlCallAudit) :
    (updateReadBucket bucket call).windowStartedUnixSeconds = bucket.windowStartedUnixSeconds := rfl

/-! ## The invariant of the reads -/

def bucketsOf (state : AuditState) : List ReadAuditBucket :=
  state.reads.map Prod.snd ++ state.overflow.map Prod.snd

/-- The bucket is the one for its key. -/
structure Keyed (entry : ReadKey × ReadAuditBucket) : Prop where
  window : entry.2.windowStartedUnixSeconds = entry.1.window
  clientName : entry.2.clientName = entry.1.clientName
  clientVersion : entry.2.clientVersion = entry.1.clientVersion
  operation : entry.2.operation = some entry.1.operation
  overflow : entry.2.overflow = false

/-- The keys of the maps. -/
structure WellKeyed (state : AuditState) : Prop where
  readKeys : (state.reads.map Prod.fst).Nodup
  overflowKeys : (state.overflow.map Prod.fst).Nodup
  read : ∀ entry ∈ state.reads, Keyed entry
  overflow : ∀ entry ∈ state.overflow,
    entry.2.windowStartedUnixSeconds = entry.1 ∧ entry.2.overflow = true
  cap : state.reads.length ≤ maxReadAuditKeys

/-- The buckets count the calls of the windows that are retained. -/
structure Counts (buckets : List ReadAuditBucket) (calls : List ControlCallAudit) (now : Nat) :
    Prop where
  retained : ∀ bucket ∈ buckets, minimumWindow now ≤ bucket.windowStartedUnixSeconds
  counts : ∀ window, minimumWindow now ≤ window → (readsIn calls window).length ≤ wordMax →
    callsIn buckets window = (readsIn calls window).length
  latency : ∀ bucket ∈ buckets,
    (readsIn calls bucket.windowStartedUnixSeconds).length ≤ wordMax →
      bucket.latency.total = bucket.calls

theorem minimumWindow_mono {now later : Nat} (h : now ≤ later) :
    minimumWindow now ≤ minimumWindow later := by
  unfold minimumWindow windowStart
  exact Nat.sub_le_sub_right (Nat.mul_le_mul_right _ (Nat.div_le_div_right h)) _

theorem minimumWindow_le_windowStart (now : Nat) : minimumWindow now ≤ windowStart now :=
  Nat.sub_le _ _

/-- Windows that are no longer retained are dropped. -/
theorem Counts.prune {buckets : List ReadAuditBucket} {calls : List ControlCallAudit}
    {now later : Nat} (h : Counts buckets calls now) (hle : now ≤ later) :
    Counts (buckets.filter fun bucket => bucket.windowStartedUnixSeconds ≥ minimumWindow later)
      calls later where
  retained := fun bucket hbucket => of_decide_eq_true (List.mem_filter.1 hbucket).2
  counts := by
    intro window hwindow hroom
    rw [callsIn_filter_of_le hwindow]
    exact h.counts window ((minimumWindow_mono hle).trans hwindow) hroom
  latency := fun bucket hbucket => h.latency bucket (List.mem_filter.1 hbucket).1

theorem bucketsOf_filter {state : AuditState} (hkeyed : WellKeyed state) (minimum : Nat) :
    (state.reads.filter fun entry => entry.1.window ≥ minimum).map Prod.snd ++
        (state.overflow.filter fun entry => entry.1 ≥ minimum).map Prod.snd =
      (bucketsOf state).filter fun bucket => bucket.windowStartedUnixSeconds ≥ minimum := by
  unfold bucketsOf
  rw [List.filter_append, List.filter_map, List.filter_map]
  congr 2
  · refine List.filter_congr fun entry hentry => ?_
    rw [Function.comp_apply, (hkeyed.read entry hentry).window]
  · refine List.filter_congr fun entry hentry => ?_
    rw [Function.comp_apply, (hkeyed.overflow entry hentry).1]

/-- What is known of the reads, at the time of the last event. -/
structure ReadsKept (state : AuditState) (calls : List ControlCallAudit) (now : Nat) : Prop where
  keyed : WellKeyed state
  counts : Counts (bucketsOf state) calls now
  pruned : state.minimumWindow = some (minimumWindow now) ∨ bucketsOf state = []

theorem bucketsOf_pruneReadWindows {state : AuditState} {calls : List ControlCallAudit}
    {now later : Nat} (h : ReadsKept state calls now) :
    bucketsOf (pruneReadWindows state (minimumWindow later)) =
      (bucketsOf state).filter fun bucket =>
        bucket.windowStartedUnixSeconds ≥ minimumWindow later := by
  unfold pruneReadWindows
  split
  case isTrue hsame =>
    refine (List.filter_eq_self.2 fun bucket hbucket => decide_eq_true ?_).symm
    rcases h.pruned with hmin | hnil
    · rw [hmin] at hsame
      rw [← Option.some.inj hsame]
      exact h.counts.retained bucket hbucket
    · rw [hnil] at hbucket
      cases hbucket
  case isFalse => exact bucketsOf_filter h.keyed _

theorem wellKeyed_pruneReadWindows {state : AuditState} (h : WellKeyed state) (minimum : Nat) :
    WellKeyed (pruneReadWindows state minimum) := by
  unfold pruneReadWindows
  split
  · exact h
  · exact
      { readKeys := h.readKeys.sublist (List.filter_sublist.map _)
        overflowKeys := h.overflowKeys.sublist (List.filter_sublist.map _)
        read := fun entry hentry => h.read entry (List.mem_filter.1 hentry).1
        overflow := fun entry hentry => h.overflow entry (List.mem_filter.1 hentry).1
        cap := (List.length_filter_le _ _).trans h.cap }

theorem minimumWindow_pruneReadWindows (state : AuditState) (minimum : Nat) :
    (pruneReadWindows state minimum).minimumWindow = some minimum := by
  unfold pruneReadWindows
  split
  · assumption
  · rfl

theorem ReadsKept.prune {state : AuditState} {calls : List ControlCallAudit} {now later : Nat}
    (h : ReadsKept state calls now) (hle : now ≤ later) :
    ReadsKept (pruneReadWindows state (minimumWindow later)) calls later where
  keyed := wellKeyed_pruneReadWindows h.keyed _
  counts := by
    rw [bucketsOf_pruneReadWindows h]
    exact h.counts.prune hle
  pruned := .inl (minimumWindow_pruneReadWindows state _)

/-! ## One more read -/

/-- One bucket, which may be new, has counted the call. -/
structure OneMore (call : ControlCallAudit) (buckets more : List ReadAuditBucket) : Prop where
  split : ∃ bucket rest, more.Perm (updateReadBucket bucket call :: rest) ∧
    (∀ window, callsIn buckets window = callsIn (bucket :: rest) window) ∧
    bucket.windowStartedUnixSeconds = windowStart call.completedUnixSeconds ∧
    (∀ other ∈ rest, other ∈ buckets) ∧
    (bucket ∈ buckets ∨ bucket.calls = 0 ∧ bucket.latency.total = 0)

theorem readsIn_snoc {calls : List ControlCallAudit} {call : ControlCallAudit}
    (hread : call.mutation = none) (window : Nat) :
    (readsIn (calls ++ [call]) window).length =
      (readsIn calls window).length +
        if windowStart call.completedUnixSeconds = window then 1 else 0 := by
  unfold readsIn
  rw [List.filter_append, List.length_append, List.filter_singleton]
  by_cases hwindow : windowStart call.completedUnixSeconds = window <;> simp [hread, hwindow]

theorem Counts.oneMore {buckets more : List ReadAuditBucket} {calls : List ControlCallAudit}
    {call : ControlCallAudit} (h : Counts buckets calls call.completedUnixSeconds)
    (hread : call.mutation = none) (hmore : OneMore call buckets more) :
    Counts more (calls ++ [call]) call.completedUnixSeconds := by
  obtain ⟨bucket, rest, hperm, hcount, hwindow, hrest, hold⟩ := hmore.split
  have hretained := minimumWindow_le_windowStart call.completedUnixSeconds
  -- While there is room for the call, its bucket is exact.
  have hexact : ∀ window, windowStart call.completedUnixSeconds = window →
      (readsIn (calls ++ [call]) window).length ≤ wordMax →
        bucket.calls < wordMax ∧ bucket.latency.total = bucket.calls := by
    rintro window rfl hroom
    rw [readsIn_snoc hread, if_pos rfl] at hroom
    have hcalls := h.counts _ hretained (by omega)
    rw [hcount, callsIn_cons, if_pos hwindow] at hcalls
    refine ⟨by omega, ?_⟩
    rcases hold with hmem | ⟨hzero, htotal⟩
    · refine h.latency bucket hmem ?_
      rw [hwindow]
      omega
    · rw [hzero, htotal]
  refine ⟨fun other hother => ?_, fun window hle hroom => ?_, fun other hother hroom => ?_⟩
  · rcases List.mem_cons.1 (hperm.mem_iff.1 hother) with rfl | hother
    · rw [windowStarted_updateReadBucket, hwindow]
      exact hretained
    · exact h.retained other (hrest other hother)
  · rw [callsIn_perm hperm, callsIn_cons, windowStarted_updateReadBucket, hwindow,
      readsIn_snoc hread]
    rw [readsIn_snoc hread] at hroom
    have hcalls := h.counts window hle (by omega)
    rw [hcount, callsIn_cons, hwindow] at hcalls
    by_cases heq : windowStart call.completedUnixSeconds = window
    · have hroom' := (hexact window heq (by rw [readsIn_snoc hread]; exact hroom)).1
      have hupdated : (updateReadBucket bucket call).calls = bucket.calls + 1 :=
        satAdd_eq (by omega)
      rw [if_pos heq] at hcalls ⊢
      rw [if_pos heq, hupdated]
      omega
    · rw [if_neg heq] at hcalls ⊢
      rw [if_neg heq]
      omega
  · rcases List.mem_cons.1 (hperm.mem_iff.1 hother) with rfl | hother
    · rw [windowStarted_updateReadBucket, hwindow] at hroom
      obtain ⟨hlt, htotal⟩ := hexact _ rfl hroom
      have hupdated : (updateReadBucket bucket call).calls = bucket.calls + 1 :=
        satAdd_eq (by omega)
      rw [hupdated, ← htotal]
      exact total_record (by omega) call.duration
    · refine h.latency other (hrest other hother) ?_
      rw [readsIn_snoc hread] at hroom
      omega

theorem OneMore.known {call : ControlCallAudit} {bucket : ReadAuditBucket}
    {before after : List ReadAuditBucket}
    (hwindow : bucket.windowStartedUnixSeconds = windowStart call.completedUnixSeconds) :
    OneMore call (before ++ bucket :: after) (before ++ updateReadBucket bucket call :: after) where
  split := by
    refine ⟨bucket, before ++ after, List.perm_middle, fun window => ?_, hwindow, ?_, .inl ?_⟩
    · exact callsIn_perm List.perm_middle window
    · intro other hother
      exact List.perm_middle.mem_iff.2 (List.mem_cons_of_mem _ hother)
    · exact List.mem_append_right _ List.mem_cons_self

theorem OneMore.fresh {call : ControlCallAudit} {before after : List ReadAuditBucket}
    (known : KnownInstance) (overflow : Bool) :
    OneMore call (before ++ after)
      (before ++ updateReadBucket
        (newReadBucket known call (windowStart call.completedUnixSeconds) overflow) call ::
        after) where
  split := by
    refine ⟨newReadBucket known call (windowStart call.completedUnixSeconds) overflow,
      before ++ after, List.perm_middle, fun window => ?_, rfl, fun _ hother => hother,
      .inr ⟨rfl, rfl⟩⟩
    rw [callsIn_cons]
    split <;> exact (Nat.zero_add _).symm

theorem keyed_updateReadBucket {key : ReadKey} {bucket : ReadAuditBucket} {call : ControlCallAudit}
    (h : Keyed (key, bucket)) : Keyed (key, updateReadBucket bucket call) :=
  ⟨h.window, h.clientName, h.clientVersion, h.operation, h.overflow⟩

/-- What a read changes: one bucket of one of the maps, under the key of the call. -/
theorem recordRead_cases {state : AuditState} (h : WellKeyed state) (call : ControlCallAudit) :
    (∃ bucket before after, state.reads = before ++ (readKey call, bucket) :: after ∧
      recordRead state call =
        { state with reads := before ++ (readKey call, updateReadBucket bucket call) :: after }) ∨
    (state.reads.lookup (readKey call) = none ∧ state.reads.length < maxReadAuditKeys ∧
      recordRead state call =
        { state with
          reads := (readKey call, updateReadBucket
            (newReadBucket state.known call (windowStart call.completedUnixSeconds) false) call) ::
              state.reads }) ∨
    (∃ bucket before after,
      state.overflow = before ++ (windowStart call.completedUnixSeconds, bucket) :: after ∧
      recordRead state call =
        { state with
          overflow := before ++
            (windowStart call.completedUnixSeconds, updateReadBucket bucket call) :: after }) ∨
    (state.overflow.lookup (windowStart call.completedUnixSeconds) = none ∧
      recordRead state call =
        { state with
          overflow := (windowStart call.completedUnixSeconds, updateReadBucket
            (newReadBucket state.known call (windowStart call.completedUnixSeconds) true) call) ::
              state.overflow }) := by
  unfold recordRead
  dsimp only
  split
  case h_1 bucket hlookup =>
    obtain ⟨before, after, hreads, hmodify⟩ := Assoc.modify_eq h.readKeys hlookup
      fun bucket => updateReadBucket bucket call
    exact .inl ⟨bucket, before, after, hreads, by rw [hmodify]⟩
  case h_2 hlookup =>
    split
    case isTrue hroom => exact .inr (.inl ⟨hlookup, hroom, rfl⟩)
    case isFalse =>
      split
      case h_1 bucket hlookup =>
        obtain ⟨before, after, hoverflow, hmodify⟩ := Assoc.modify_eq h.overflowKeys hlookup
          fun bucket => updateReadBucket bucket call
        exact .inr (.inr (.inl ⟨bucket, before, after, hoverflow, by rw [hmodify]⟩))
      case h_2 hlookup => exact .inr (.inr (.inr ⟨hlookup, rfl⟩))

theorem oneMore_recordRead {state : AuditState} (h : WellKeyed state) (call : ControlCallAudit) :
    OneMore call (bucketsOf state) (bucketsOf (recordRead state call)) := by
  unfold bucketsOf
  rcases recordRead_cases h call with ⟨bucket, before, after, hold, hnew⟩ | ⟨-, -, hnew⟩ |
    ⟨bucket, before, after, hold, hnew⟩ | ⟨-, hnew⟩
  · have hkeyed := h.read (readKey call, bucket) (by
      rw [hold]
      exact List.mem_append_right _ List.mem_cons_self)
    rw [hnew, hold]
    simp only [List.map_append, List.map_cons, List.append_assoc, List.cons_append]
    exact OneMore.known hkeyed.window
  · rw [hnew]
    exact @OneMore.fresh call [] _ state.known false
  · have hkeyed := h.overflow (windowStart call.completedUnixSeconds, bucket) (by
      rw [hold]
      exact List.mem_append_right _ List.mem_cons_self)
    rw [hnew, hold]
    simp only [List.map_append, List.map_cons, ← List.append_assoc]
    exact OneMore.known hkeyed.1
  · rw [hnew]
    exact OneMore.fresh state.known true

theorem wellKeyed_recordRead {state : AuditState} (h : WellKeyed state) (call : ControlCallAudit) :
    WellKeyed (recordRead state call) := by
  rcases recordRead_cases h call with ⟨bucket, before, after, hold, hnew⟩ | ⟨hlookup, hroom, hnew⟩ |
    ⟨bucket, before, after, hold, hnew⟩ | ⟨hlookup, hnew⟩
  · have hkeys := h.readKeys
    have hread := h.read
    have hcap := h.cap
    rw [hold] at hkeys hread hcap
    rw [hnew]
    refine
      { readKeys := by simpa only [List.map_append, List.map_cons] using hkeys
        overflowKeys := h.overflowKeys
        read := fun entry hentry => ?_
        overflow := h.overflow
        cap := by simpa only [List.length_append, List.length_cons] using hcap }
    rcases List.mem_cons.1 (List.perm_middle.mem_iff.1 hentry) with rfl | hentry
    · exact keyed_updateReadBucket
        (hread _ (List.mem_append_right _ List.mem_cons_self))
    · exact hread entry (List.perm_middle.mem_iff.2 (List.mem_cons_of_mem _ hentry))
  · rw [hnew]
    refine
      { readKeys := List.nodup_cons.2 ⟨?_, h.readKeys⟩
        overflowKeys := h.overflowKeys
        read := fun entry hentry => ?_
        overflow := h.overflow
        cap := hroom }
    · intro hmem
      obtain ⟨entry, hentry, hkey⟩ := List.mem_map.1 hmem
      have hne := List.lookup_eq_none_iff.1 hlookup entry hentry
      rw [hkey] at hne
      simp at hne
    · rcases List.mem_cons.1 hentry with rfl | hentry
      · exact ⟨rfl, rfl, rfl, rfl, rfl⟩
      · exact h.read entry hentry
  · have hkeys := h.overflowKeys
    have hoverflow := h.overflow
    rw [hold] at hkeys hoverflow
    rw [hnew]
    refine
      { readKeys := h.readKeys
        overflowKeys := by simpa only [List.map_append, List.map_cons] using hkeys
        read := h.read
        overflow := fun entry hentry => ?_
        cap := h.cap }
    rcases List.mem_cons.1 (List.perm_middle.mem_iff.1 hentry) with rfl | hentry
    · exact hoverflow (windowStart call.completedUnixSeconds, bucket)
        (List.mem_append_right _ List.mem_cons_self)
    · exact hoverflow entry (List.perm_middle.mem_iff.2 (List.mem_cons_of_mem _ hentry))
  · rw [hnew]
    refine
      { readKeys := h.readKeys
        overflowKeys := List.nodup_cons.2 ⟨?_, h.overflowKeys⟩
        read := h.read
        overflow := fun entry hentry => ?_
        cap := h.cap }
    · intro hmem
      obtain ⟨entry, hentry, hkey⟩ := List.mem_map.1 hmem
      have hne := List.lookup_eq_none_iff.1 hlookup entry hentry
      rw [hkey] at hne
      simp at hne
    · rcases List.mem_cons.1 hentry with rfl | hentry
      · exact ⟨rfl, rfl⟩
      · exact h.overflow entry hentry

theorem minimumWindow_recordRead {state : AuditState} (h : WellKeyed state)
    (call : ControlCallAudit) :
    (recordRead state call).minimumWindow = state.minimumWindow := by
  rcases recordRead_cases h call with ⟨_, _, _, _, hnew⟩ | ⟨_, _, hnew⟩ | ⟨_, _, _, _, hnew⟩ |
    ⟨_, hnew⟩ <;> rw [hnew]

theorem ReadsKept.recordRead {state : AuditState} {calls : List ControlCallAudit}
    {call : ControlCallAudit} (h : ReadsKept state calls call.completedUnixSeconds)
    (hmin : state.minimumWindow = some (minimumWindow call.completedUnixSeconds))
    (hread : call.mutation = none) :
    ReadsKept (recordRead state call) (calls ++ [call]) call.completedUnixSeconds where
  keyed := wellKeyed_recordRead h.keyed call
  counts := h.counts.oneMore hread (oneMore_recordRead h.keyed call)
  pruned := .inl ((minimumWindow_recordRead h.keyed call).trans hmin)

theorem readsIn_mutation {calls : List ControlCallAudit} {call : ControlCallAudit}
    {mutation : ControlMutationAudit} (hmutation : call.mutation = some mutation) (window : Nat) :
    readsIn (calls ++ [call]) window = readsIn calls window := by
  unfold readsIn
  rw [List.filter_append, List.filter_singleton, hmutation]
  simp

theorem ReadsKept.mutation {state : AuditState} {calls : List ControlCallAudit}
    {call : ControlCallAudit} {mutation : ControlMutationAudit} {now : Nat}
    (h : ReadsKept state calls now) (hmutation : call.mutation = some mutation) :
    ReadsKept state (calls ++ [call]) now where
  keyed := h.keyed
  counts :=
    { retained := h.counts.retained
      counts := fun window => by
        rw [readsIn_mutation hmutation]
        exact h.counts.counts window
      latency := fun bucket hbucket => by
        rw [readsIn_mutation hmutation]
        exact h.counts.latency bucket hbucket }
  pruned := h.pruned

/-- Only the maps and the minimum matter. -/
theorem ReadsKept.congr {state other : AuditState} {calls : List ControlCallAudit} {now : Nat}
    (h : ReadsKept state calls now) (hreads : other.reads = state.reads)
    (hoverflow : other.overflow = state.overflow)
    (hmin : other.minimumWindow = state.minimumWindow) : ReadsKept other calls now := by
  obtain ⟨reads, overflow, minimumWindow, mutations, failures, known⟩ := state
  obtain ⟨reads', overflow', minimumWindow', mutations', failures', known'⟩ := other
  dsimp only at hreads hoverflow hmin
  subst hreads hoverflow hmin
  exact ⟨⟨h.keyed.readKeys, h.keyed.overflowKeys, h.keyed.read, h.keyed.overflow, h.keyed.cap⟩,
    ⟨h.counts.retained, h.counts.counts, h.counts.latency⟩, h.pruned⟩

/-! ## The mutations -/

/-- The records of the mutations that completed at `cutoff` or later. -/
def recentMutations (known : KnownInstance) (calls : List ControlCallAudit) (cutoff : Nat) :
    List MutationAuditRecord :=
  (mutationRecords known calls).filter fun record => cutoff ≤ record.completedUnixSeconds

/-- What is kept of the mutations, at the time of the last event. -/
def MutationsKept (state : AuditState) (calls : List ControlCallAudit) (now : Nat) : Prop :=
  ∃ cutoff, cutoff ≤ now - auditWindowSeconds ∧
    state.mutations = window maxMutationAuditRecords (recentMutations state.known calls cutoff)

theorem mutationRecords_snoc {known : KnownInstance} {calls : List ControlCallAudit}
    {call : ControlCallAudit} {mutation : ControlMutationAudit}
    (hmutation : call.mutation = some mutation) :
    mutationRecords known (calls ++ [call]) =
      mutationRecords known calls ++ [mutationRecord known call mutation] := by
  unfold mutationRecords
  rw [List.filterMap_append]
  simp [hmutation]

theorem mutationRecords_read {known : KnownInstance} {calls : List ControlCallAudit}
    {call : ControlCallAudit} (hread : call.mutation = none) :
    mutationRecords known (calls ++ [call]) = mutationRecords known calls := by
  unfold mutationRecords
  rw [List.filterMap_append]
  simp [hread]

theorem pairwise_mutationRecords {known : KnownInstance} {calls : List ControlCallAudit}
    (hordered : (calls.map ControlCallAudit.completedUnixSeconds).Pairwise (· ≤ ·)) :
    (mutationRecords known calls).Pairwise fun record other =>
      record.completedUnixSeconds ≤ other.completedUnixSeconds := by
  refine (List.pairwise_map.1 hordered).filterMap _ ?_
  intro call other hle record hrecord otherRecord hother
  obtain ⟨mutation, -, rfl⟩ := Option.map_eq_some_iff.1 hrecord
  obtain ⟨otherMutation, -, rfl⟩ := Option.map_eq_some_iff.1 hother
  exact hle

/-- Forgetting what is older than a later cutoff leaves the mutations since that cutoff. -/
theorem MutationsKept.prune {state : AuditState} {calls : List ControlCallAudit}
    {now later : Nat} (h : MutationsKept state calls now) (hle : now ≤ later)
    (hordered : (calls.map ControlCallAudit.completedUnixSeconds).Pairwise (· ≤ ·)) :
    (pruneMutationHistory state (later - auditWindowSeconds)).mutations =
      window maxMutationAuditRecords
        (recentMutations state.known calls (later - auditWindowSeconds)) := by
  obtain ⟨cutoff, hcutoff, hmutations⟩ := h
  have hsorted : (recentMutations state.known calls cutoff).Pairwise fun record other =>
      decide (record.completedUnixSeconds ≥ later - auditWindowSeconds) = true →
        decide (other.completedUnixSeconds ≥ later - auditWindowSeconds) = true := by
    refine ((pairwise_mutationRecords hordered).filter _).imp fun hle hrecent => ?_
    exact decide_eq_true ((of_decide_eq_true hrecent).trans hle)
  unfold pruneMutationHistory
  dsimp only
  rw [hmutations, filter_window hsorted]
  unfold recentMutations
  rw [List.filter_filter]
  refine congrArg _ (List.filter_congr fun record _ => ?_)
  by_cases hrecent : later - auditWindowSeconds ≤ record.completedUnixSeconds
  · have : cutoff ≤ record.completedUnixSeconds := by omega
    simp [hrecent, this]
  · simp [hrecent]

theorem recentMutations_snoc {known : KnownInstance} {calls : List ControlCallAudit}
    {call : ControlCallAudit} {mutation : ControlMutationAudit}
    (hmutation : call.mutation = some mutation) :
    recentMutations known (calls ++ [call]) (call.completedUnixSeconds - auditWindowSeconds) =
      recentMutations known calls (call.completedUnixSeconds - auditWindowSeconds) ++
        [mutationRecord known call mutation] := by
  have hrecent : call.completedUnixSeconds - auditWindowSeconds ≤
      (mutationRecord known call mutation).completedUnixSeconds := Nat.sub_le _ _
  unfold recentMutations
  rw [mutationRecords_snoc hmutation, List.filter_append, List.filter_singleton,
    decide_eq_true hrecent, cond_true]

theorem mutations_recordMutation {state : AuditState} {calls : List ControlCallAudit}
    {call : ControlCallAudit} {mutation : ControlMutationAudit}
    (hmutation : call.mutation = some mutation)
    (h : state.mutations = window maxMutationAuditRecords
      (recentMutations state.known calls (call.completedUnixSeconds - auditWindowSeconds))) :
    (recordMutation state call mutation).mutations =
      window maxMutationAuditRecords (recentMutations state.known (calls ++ [call])
        (call.completedUnixSeconds - auditWindowSeconds)) := by
  unfold recordMutation
  dsimp only
  rw [h, recentMutations_snoc hmutation]
  exact window_snoc (by decide) _ _

/-! ## The invariant along a run -/

/-- What is kept of the calls recorded up to `now`. -/
structure AuditKept (known : KnownInstance) (state : AuditState) (calls : List ControlCallAudit)
    (now : Nat) : Prop where
  known : state.known = known
  reads : ReadsKept state calls now
  mutations : MutationsKept state calls now
  ordered : (calls.map ControlCallAudit.completedUnixSeconds).Pairwise (· ≤ ·)
  past : ∀ call ∈ calls, call.completedUnixSeconds ≤ now

theorem AuditKept.new (endpoint runId : Text) (configMode : ConfigMode)
    (persistence : PersistenceMode) :
    AuditKept (InstanceAudit.new endpoint runId configMode persistence).known
      (InstanceAudit.new endpoint runId configMode persistence) [] 0 where
  known := rfl
  reads :=
    { keyed :=
        { readKeys := List.nodup_nil
          overflowKeys := List.nodup_nil
          read := fun _ hentry => by cases hentry
          overflow := fun _ hentry => by cases hentry
          cap := Nat.zero_le _ }
      counts :=
        { retained := fun _ hbucket => by cases hbucket
          counts := fun _ _ _ => rfl
          latency := fun _ hbucket => by cases hbucket }
      pruned := .inr rfl }
  mutations := ⟨0, Nat.zero_le _, (window_nil _).symm⟩
  ordered := List.Pairwise.nil
  past := fun _ hcall => by cases hcall

@[simp] theorem known_pruneReadWindows (state : AuditState) (minimum : Nat) :
    (pruneReadWindows state minimum).known = state.known := by
  unfold pruneReadWindows
  split <;> rfl

@[simp] theorem mutations_pruneReadWindows (state : AuditState) (minimum : Nat) :
    (pruneReadWindows state minimum).mutations = state.mutations := by
  unfold pruneReadWindows
  split <;> rfl

theorem AuditKept.snapshot {known : KnownInstance} {state : AuditState}
    {calls : List ControlCallAudit} {now later : Nat} (h : AuditKept known state calls now)
    (hle : now ≤ later) :
    AuditKept known (InstanceAudit.snapshot state later).1 calls later ∧
      (InstanceAudit.snapshot state later).1.mutations =
        window maxMutationAuditRecords
          (recentMutations known calls (later - auditWindowSeconds)) := by
  have hmutations : MutationsKept (pruneReadWindows state (minimumWindow later)) calls now := by
    unfold MutationsKept
    rw [mutations_pruneReadWindows, known_pruneReadWindows]
    exact h.mutations
  have hpruned := hmutations.prune hle h.ordered
  rw [known_pruneReadWindows, h.known] at hpruned
  refine ⟨?_, hpruned⟩
  exact
    { known := (known_pruneReadWindows state _).trans h.known
      reads := (h.reads.prune hle).congr rfl rfl rfl
      mutations := ⟨later - auditWindowSeconds, le_rfl, by
        rw [show (InstanceAudit.snapshot state later).1.known = known from
          (known_pruneReadWindows state _).trans h.known]
        exact hpruned⟩
      ordered := h.ordered
      past := fun call hcall => (h.past call hcall).trans hle }

theorem pairwise_snoc {calls : List ControlCallAudit} {call : ControlCallAudit}
    (hordered : (calls.map ControlCallAudit.completedUnixSeconds).Pairwise (· ≤ ·))
    (hpast : ∀ other ∈ calls, other.completedUnixSeconds ≤ call.completedUnixSeconds) :
    ((calls ++ [call]).map ControlCallAudit.completedUnixSeconds).Pairwise (· ≤ ·) := by
  rw [List.map_append, List.pairwise_append]
  refine ⟨hordered, List.pairwise_singleton _ _, fun time htime other hother => ?_⟩
  obtain ⟨earlier, hearlier, rfl⟩ := List.mem_map.1 htime
  rw [List.map_singleton, List.mem_singleton] at hother
  rw [hother]
  exact hpast earlier hearlier

theorem AuditKept.withFailure {known : KnownInstance} {state : AuditState}
    {calls : List ControlCallAudit} {now : Nat} (h : AuditKept known state calls now)
    (failures : Nat) :
    AuditKept known { state with responseDeliveryFailures := failures } calls now where
  known := h.known
  reads := h.reads.congr rfl rfl rfl
  mutations := h.mutations
  ordered := h.ordered
  past := h.past

theorem known_recordRead {state : AuditState} (h : WellKeyed state) (call : ControlCallAudit) :
    (recordRead state call).known = state.known ∧
      (recordRead state call).mutations = state.mutations := by
  rcases recordRead_cases h call with ⟨_, _, _, _, hnew⟩ | ⟨_, _, hnew⟩ | ⟨_, _, _, _, hnew⟩ |
    ⟨_, hnew⟩ <;> rw [hnew] <;> exact ⟨rfl, rfl⟩

theorem AuditKept.recordRead {known : KnownInstance} {state : AuditState}
    {calls : List ControlCallAudit} {call : ControlCallAudit} {now : Nat}
    (h : AuditKept known state calls now) (hle : now ≤ call.completedUnixSeconds)
    (hread : call.mutation = none) :
    AuditKept known
      (recordRead (pruneReadWindows state (minimumWindow call.completedUnixSeconds)) call)
      (calls ++ [call]) call.completedUnixSeconds := by
  have hreads := h.reads.prune hle
  obtain ⟨hknown, hmutations⟩ := known_recordRead hreads.keyed call
  rw [known_pruneReadWindows] at hknown
  rw [mutations_pruneReadWindows] at hmutations
  refine
    { known := hknown.trans h.known
      reads := hreads.recordRead (minimumWindow_pruneReadWindows state _) hread
      mutations := ?_
      ordered := pairwise_snoc h.ordered fun other hother => (h.past other hother).trans hle
      past := fun other hother => ?_ }
  · obtain ⟨cutoff, hcutoff, hkept⟩ := h.mutations
    refine ⟨cutoff, hcutoff.trans (Nat.sub_le_sub_right hle _), ?_⟩
    rw [hmutations, hknown, hkept]
    unfold recentMutations
    rw [mutationRecords_read hread]
  · rcases List.mem_append.1 hother with hother | hother
    · exact (h.past other hother).trans hle
    · rw [List.mem_singleton.1 hother]

theorem AuditKept.recordMutation {known : KnownInstance} {state : AuditState}
    {calls : List ControlCallAudit} {call : ControlCallAudit} {mutation : ControlMutationAudit}
    {now : Nat} (h : AuditKept known state calls now) (hle : now ≤ call.completedUnixSeconds)
    (hmutation : call.mutation = some mutation) :
    AuditKept known
      (recordMutation
        (pruneMutationHistory
          (pruneReadWindows state (minimumWindow call.completedUnixSeconds))
          (call.completedUnixSeconds - auditWindowSeconds)) call mutation)
      (calls ++ [call]) call.completedUnixSeconds := by
  -- The state is the one that a snapshot at the same time leaves, with one more record.
  obtain ⟨hkept, hmutations⟩ := h.snapshot hle
  have hknown := hkept.known
  rw [← hknown] at hmutations
  exact
    { known := hknown
      reads := (hkept.reads.mutation hmutation).congr rfl rfl rfl
      mutations :=
        ⟨call.completedUnixSeconds - auditWindowSeconds, le_rfl,
          mutations_recordMutation hmutation hmutations⟩
      ordered := pairwise_snoc h.ordered fun other hother => (h.past other hother).trans hle
      past := by
        intro other hother
        rcases List.mem_append.1 hother with hother | hother
        · exact (h.past other hother).trans hle
        · rw [List.mem_singleton.1 hother] }

theorem AuditKept.record {known : KnownInstance} {state : AuditState}
    {calls : List ControlCallAudit} {call : ControlCallAudit} {now : Nat}
    (h : AuditKept known state calls now) (hle : now ≤ call.completedUnixSeconds) :
    AuditKept known (InstanceAudit.record state call) (calls ++ [call])
      call.completedUnixSeconds := by
  unfold InstanceAudit.record
  have hstart : AuditKept known
      (if call.responseDeliveryFailed then
        { state with responseDeliveryFailures := satAdd state.responseDeliveryFailures 1 }
      else state) calls now := by
    split
    · exact h.withFailure _
    · exact h
  generalize (if call.responseDeliveryFailed then
    { state with responseDeliveryFailures := satAdd state.responseDeliveryFailures 1 }
    else state) = start at hstart
  dsimp only
  split
  case h_1 mutation hmutation => exact hstart.recordMutation hle hmutation
  case h_2 hread => exact hstart.recordRead hle hread

/-- The time of the last event. -/
def lastTime (events : List AuditEvent) : Nat := (events.getLast?.map AuditEvent.time).getD 0

/-- Time does not run backwards. -/
def InOrder (events : List AuditEvent) : Prop :=
  events.Pairwise fun event later => event.time ≤ later.time

theorem lastTime_le {events : List AuditEvent} {event : AuditEvent}
    (h : InOrder (events ++ [event])) : lastTime events ≤ event.time := by
  unfold lastTime
  cases hlast : events.getLast? with
  | none => exact Nat.zero_le _
  | some last =>
    exact (List.pairwise_append.1 h).2.2 last (List.mem_of_getLast? hlast) event
      (List.mem_singleton.2 rfl)

theorem AuditKept.step {known : KnownInstance} {state : AuditState}
    {events : List AuditEvent} {event : AuditEvent} {now : Nat}
    (h : AuditKept known state (recordedCalls events) now) (hle : now ≤ event.time) :
    AuditKept known (auditStep state event) (recordedCalls (events ++ [event])) event.time := by
  unfold recordedCalls
  rw [List.filterMap_append]
  cases event with
  | record call => exact h.record hle
  | snapshot later =>
    rw [show List.filterMap _ [AuditEvent.snapshot later] = ([] : List ControlCallAudit) from rfl,
      List.append_nil]
    exact (h.snapshot hle).1

theorem AuditKept.run {known : KnownInstance} {state : AuditState}
    (h : AuditKept known state [] 0) {events : List AuditEvent} (hordered : InOrder events) :
    AuditKept known (auditRun state events) (recordedCalls events) (lastTime events) := by
  induction events using List.reverseRecOn with
  | nil => exact h
  | append_singleton events event ih =>
    have hstep := (ih (List.pairwise_append.1 hordered).1).step (lastTime_le hordered)
    unfold auditRun lastTime
    rw [List.foldl_append, List.getLast?_append, List.getLast?_singleton]
    exact hstep

/-! ## The snapshot -/

/-- What a bucket is about, next to whether it is an overflow bucket. -/
def ReadAuditBucket.key (bucket : ReadAuditBucket) :
    Nat × Text × Text × Option ControlOperationKind :=
  (bucket.windowStartedUnixSeconds, bucket.clientName, bucket.clientVersion, bucket.operation)

def keyedBuckets (buckets : List ReadAuditBucket) : List ReadAuditBucket :=
  buckets.filter fun bucket => bucket.overflow = false

def overflowBuckets (buckets : List ReadAuditBucket) (window : Nat) : List ReadAuditBucket :=
  buckets.filter fun bucket => bucket.overflow = true ∧ bucket.windowStartedUnixSeconds = window

/-- The windows from `minimumWindow now` on are retained.  The counts are those of the calls
as long as the counters of a window have room for them. -/
structure Reports (snapshot : InstanceAuditSnapshot) (known : KnownInstance)
    (calls : List ControlCallAudit) (now : Nat) : Prop where
  retained : ∀ bucket ∈ snapshot.reads, minimumWindow now ≤ bucket.windowStartedUnixSeconds
  counts : ∀ window, minimumWindow now ≤ window → (readsIn calls window).length ≤ wordMax →
    callsIn snapshot.reads window = (readsIn calls window).length
  latency : ∀ bucket ∈ snapshot.reads,
    (readsIn calls bucket.windowStartedUnixSeconds).length ≤ wordMax →
      bucket.latency.total = bucket.calls
  distinct : ((keyedBuckets snapshot.reads).map ReadAuditBucket.key).Nodup
  cap : (keyedBuckets snapshot.reads).length ≤ maxReadAuditKeys
  overflow : ∀ window, (overflowBuckets snapshot.reads window).length ≤ 1
  mutations : snapshot.mutations =
    window maxMutationAuditRecords (recentMutations known calls (now - auditWindowSeconds))

theorem keyedBuckets_bucketsOf {state : AuditState} (h : WellKeyed state) :
    keyedBuckets (bucketsOf state) = state.reads.map Prod.snd := by
  unfold keyedBuckets bucketsOf
  have hreads : ∀ bucket ∈ state.reads.map Prod.snd,
      decide (bucket.overflow = false) = true := by
    intro bucket hbucket
    obtain ⟨entry, hentry, rfl⟩ := List.mem_map.1 hbucket
    exact decide_eq_true (h.read entry hentry).overflow
  have hoverflow : ∀ bucket ∈ state.overflow.map Prod.snd,
      ¬ decide (bucket.overflow = false) = true := by
    intro bucket hbucket
    obtain ⟨entry, hentry, rfl⟩ := List.mem_map.1 hbucket
    simp [(h.overflow entry hentry).2]
  rw [List.filter_append, List.filter_eq_self.2 hreads, List.filter_eq_nil_iff.2 hoverflow,
    List.append_nil]

theorem overflowBuckets_bucketsOf {state : AuditState} (h : WellKeyed state) (window : Nat) :
    overflowBuckets (bucketsOf state) window =
      (state.overflow.filter fun entry => entry.1 = window).map Prod.snd := by
  unfold overflowBuckets bucketsOf
  have hreads : ∀ bucket ∈ state.reads.map Prod.snd, ¬ decide (bucket.overflow = true ∧
      bucket.windowStartedUnixSeconds = window) = true := by
    intro bucket hbucket
    obtain ⟨entry, hentry, rfl⟩ := List.mem_map.1 hbucket
    simp [(h.read entry hentry).overflow]
  rw [List.filter_append, List.filter_eq_nil_iff.2 hreads, List.nil_append, List.filter_map]
  refine congrArg _ (List.filter_congr fun entry hentry => ?_)
  obtain ⟨hwindow, hover⟩ := h.overflow entry hentry
  simp [hwindow, hover]

theorem nodup_keys_bucketsOf {state : AuditState} (h : WellKeyed state) :
    ((keyedBuckets (bucketsOf state)).map ReadAuditBucket.key).Nodup := by
  have hkeys : (state.reads.map Prod.snd).map ReadAuditBucket.key =
      (state.reads.map Prod.fst).map fun key =>
        (key.window, key.clientName, key.clientVersion, some key.operation) := by
    rw [List.map_map, List.map_map]
    refine List.map_congr_left fun entry hentry => ?_
    have hkeyed := h.read entry hentry
    simp only [Function.comp_apply, ReadAuditBucket.key, hkeyed.window, hkeyed.clientName,
      hkeyed.clientVersion, hkeyed.operation]
  rw [keyedBuckets_bucketsOf h, hkeys]
  refine List.Nodup.map (fun key other heq => ?_) h.readKeys
  obtain ⟨window, name, version, operation⟩ := key
  simp_all

theorem length_overflowBuckets_le {state : AuditState} (h : WellKeyed state) (window : Nat) :
    (overflowBuckets (bucketsOf state) window).length ≤ 1 := by
  have hcount := List.nodup_iff_count_le_one.1 h.overflowKeys window
  rw [List.count_eq_length_filter, List.filter_map, List.length_map] at hcount
  rw [overflowBuckets_bucketsOf h, List.length_map]
  exact hcount

/-- The order of the buckets does not matter. -/
theorem reports_snapshot {known : KnownInstance} {state : AuditState}
    {calls : List ControlCallAudit} {last now : Nat} (h : AuditKept known state calls last)
    (hle : last ≤ now) :
    Reports (InstanceAudit.snapshot state now).2 known calls now := by
  obtain ⟨hkept, hmutations⟩ := h.snapshot hle
  have hperm : (InstanceAudit.snapshot state now).2.reads.Perm
      (bucketsOf (InstanceAudit.snapshot state now).1) := List.mergeSort_perm _ _
  have hsame : (InstanceAudit.snapshot state now).2.mutations =
      (InstanceAudit.snapshot state now).1.mutations := rfl
  have hkeyed := hkept.reads.keyed
  have hcounts := hkept.reads.counts
  generalize InstanceAudit.snapshot state now = result at *
  exact
    { retained := fun bucket hbucket => hcounts.retained bucket (hperm.mem_iff.1 hbucket)
      counts := fun window hwindow hroom => by
        rw [callsIn_perm hperm]
        exact hcounts.counts window hwindow hroom
      latency := fun bucket hbucket => hcounts.latency bucket (hperm.mem_iff.1 hbucket)
      distinct := ((hperm.filter _).map _).nodup_iff.2 (nodup_keys_bucketsOf hkeyed)
      cap := by
        unfold keyedBuckets
        rw [(hperm.filter _).length_eq]
        exact (congrArg List.length (keyedBuckets_bucketsOf hkeyed)).le.trans
          ((List.length_map _).le.trans hkeyed.cap)
      overflow := fun window => by
        unfold overflowBuckets
        rw [(hperm.filter _).length_eq]
        exact length_overflowBuckets_le hkeyed window
      mutations := hsame.trans hmutations }

theorem snapshot_reports (endpoint runId : Text) (configMode : ConfigMode)
    (persistence : PersistenceMode) {events : List AuditEvent} {now : Nat}
    (hordered : InOrder (events ++ [.snapshot now])) :
    Reports
      (InstanceAudit.snapshot
        (auditRun (InstanceAudit.new endpoint runId configMode persistence) events) now).2
      (InstanceAudit.new endpoint runId configMode persistence).known
      (recordedCalls events) now :=
  reports_snapshot
    ((AuditKept.new endpoint runId configMode persistence).run (List.pairwise_append.1 hordered).1)
    (lastTime_le hordered)

def sampleAudit : AuditState :=
  InstanceAudit.new "127.0.0.1:8080".toList "run".toList .temporary .ephemeral

def sampleCall (completedUnixSeconds : Nat) : ControlCallAudit :=
  { client := { name := "client".toList, version := "1".toList }
    operation := .getStatus
    mutation := none
    outcome := .success none none
    duration := 0
    responseBytes := 2
    responseDeliveryFailed := false
    completedUnixSeconds }

def sampleMutation (completedUnixSeconds : Nat) : ControlCallAudit :=
  { sampleCall completedUnixSeconds with
    operation := .setRecordingEnabled
    mutation :=
      some { operation := .setRecordingEnabled, priorSettingsRevision := some 1, target := none } }

/-- A read on each side of a window's edge, and a mutation that is a second too old. -/
theorem snapshot_reports_sample :
    InOrder [.record (sampleMutation 119), .record (sampleCall 119), .record (sampleCall 120),
      .record (sampleMutation 121), .snapshot 180] ∧
    Reports
      (InstanceAudit.snapshot (auditRun sampleAudit
        [.record (sampleMutation 119), .record (sampleCall 119), .record (sampleCall 120),
          .record (sampleMutation 121)]) 180).2
      sampleAudit.known
      (recordedCalls [.record (sampleMutation 119), .record (sampleCall 119),
        .record (sampleCall 120), .record (sampleMutation 121)]) 180 := by
  have hordered : InOrder ([.record (sampleMutation 119), .record (sampleCall 119),
      .record (sampleCall 120), .record (sampleMutation 121)] ++ [.snapshot 180]) := by
    unfold InOrder
    decide +kernel
  exact ⟨hordered,
    snapshot_reports "127.0.0.1:8080".toList "run".toList .temporary .ephemeral hordered⟩

/-! ## A full counter -/

/-- The reads of the sample are all in one bucket. -/
def OneBucket (state : AuditState) : Prop :=
  state.overflow = [] ∧
    (state.reads = [] ∨
      ∃ bucket, state.reads = [(readKey (sampleCall 120), bucket)] ∧ bucket.calls ≤ wordMax)

theorem OneBucket.prune {state : AuditState} (h : OneBucket state) :
    OneBucket (pruneReadWindows state (minimumWindow 120)) := by
  unfold pruneReadWindows
  split
  · exact h
  · obtain ⟨hoverflow, hreads⟩ := h
    refine ⟨by simp [hoverflow], ?_⟩
    rcases hreads with hreads | ⟨bucket, hreads, hcalls⟩
    · exact .inl (by simp [hreads])
    · have hretained : minimumWindow 120 ≤ (readKey (sampleCall 120)).window := by decide
      exact .inr ⟨bucket, by simp [hreads, hretained], hcalls⟩

theorem OneBucket.record {state : AuditState} (h : OneBucket state) :
    OneBucket (InstanceAudit.record state (sampleCall 120)) := by
  have hprune := h.prune
  unfold InstanceAudit.record
  change OneBucket (recordRead (pruneReadWindows state (minimumWindow 120)) (sampleCall 120))
  generalize pruneReadWindows state (minimumWindow 120) = state at hprune
  obtain ⟨hoverflow, hreads⟩ := hprune
  unfold recordRead
  rcases hreads with hreads | ⟨bucket, hreads, hcalls⟩
  · rw [hreads]
    exact ⟨hoverflow, .inr ⟨_, rfl, satAdd_le_wordMax 0 1⟩⟩
  · rw [hreads]
    simp only [List.lookup_cons, beq_self_eq_true]
    exact ⟨hoverflow, .inr ⟨updateReadBucket bucket (sampleCall 120), by simp [Assoc.modify],
      satAdd_le_wordMax _ _⟩⟩

theorem OneBucket.callsIn_le {state : AuditState} (h : OneBucket state) (window : Nat) :
    callsIn (bucketsOf state) window ≤ wordMax := by
  obtain ⟨hoverflow, hreads⟩ := h
  unfold bucketsOf
  rcases hreads with hreads | ⟨bucket, hreads, hcalls⟩
  · rw [hoverflow, hreads]
    exact Nat.zero_le _
  · rw [hoverflow, hreads, List.map_nil, List.append_nil, List.map_singleton, callsIn_cons,
      callsIn_nil]
    split <;> omega

theorem oneBucket_run (n : Nat) :
    OneBucket (auditRun sampleAudit (List.replicate n (.record (sampleCall 120)))) := by
  induction n with
  | zero => exact ⟨rfl, .inl rfl⟩
  | succ n ih =>
    unfold auditRun at ih ⊢
    rw [List.replicate_succ', List.foldl_append]
    exact ih.record

/-- The sample call, over and over. -/
def repeatedCall (n : Nat) : List AuditEvent := List.replicate n (.record (sampleCall 120))

theorem inOrder_repeatedCall (n : Nat) : InOrder (repeatedCall n ++ [.snapshot 120]) := by
  unfold InOrder repeatedCall
  rw [List.pairwise_append, List.pairwise_replicate]
  refine ⟨.inr le_rfl, List.pairwise_singleton _ _, fun event hevent later hlater => ?_⟩
  rw [List.eq_of_mem_replicate hevent, List.mem_singleton.1 hlater]
  exact le_rfl

theorem length_readsIn_repeatedCall (n : Nat) :
    (readsIn (recordedCalls (repeatedCall n)) 120).length = n := by
  have hin : decide ((sampleCall 120).mutation = none ∧
      windowStart (sampleCall 120).completedUnixSeconds = 120) = true := by decide
  have hcalls : recordedCalls (repeatedCall n) = List.replicate n (sampleCall 120) := by
    unfold recordedCalls repeatedCall
    induction n with
    | zero => rfl
    | succ n ih =>
      rw [List.replicate_succ, List.replicate_succ, ← ih]
      rfl
  rw [hcalls]
  unfold readsIn
  rw [List.filter_replicate, if_pos hin, List.length_replicate]

theorem callsIn_snapshot_le (n : Nat) :
    callsIn (InstanceAudit.snapshot (auditRun sampleAudit (repeatedCall n)) 120).2.reads 120 ≤
      wordMax := by
  have hperm : (InstanceAudit.snapshot (auditRun sampleAudit (repeatedCall n)) 120).2.reads.Perm
      (bucketsOf (pruneReadWindows (auditRun sampleAudit (repeatedCall n)) (minimumWindow 120))) :=
    List.mergeSort_perm _ _
  rw [callsIn_perm hperm]
  exact (oneBucket_run n).prune.callsIn_le 120

/-- One call more than a counter can count. -/
theorem fullCounter_misses_call :
    InOrder (repeatedCall (2 ^ 64) ++ [.snapshot 120]) ∧
    minimumWindow 120 ≤ 120 ∧
    callsIn (InstanceAudit.snapshot
      (auditRun sampleAudit (repeatedCall (2 ^ 64))) 120).2.reads 120 ≠
        (readsIn (recordedCalls (repeatedCall (2 ^ 64))) 120).length := by
  refine ⟨inOrder_repeatedCall _, by decide, ?_⟩
  have hle := callsIn_snapshot_le (2 ^ 64)
  rw [length_readsIn_repeatedCall]
  unfold wordMax at hle
  omega

end Fluxcope.Control
