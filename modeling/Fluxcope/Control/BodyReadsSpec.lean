import Fluxcope.Control.BodyReads
import Fluxcope.Control.DecodedBodyCacheSpec
import Fluxcope.Control.WaitMemory
import Fluxcope.Library.Result
/-!
# The cache serves what a decoder would

The key of a cached body names a revision, and a revision of a stored capture is
one content.  So the cache serves what a fresh decode of the same revision gives.
-/

namespace Fluxcope.Control

open Fluxcope.Library Fluxcope.Library.Utf8 Fluxcope.Capture

variable {decoder : ContentDecoder} {scope : InstanceScope}

/-- The body of a record, decoded afresh. -/
def freshBody (decoder : ContentDecoder) (record : CaptureRecord) (side : BodySide) :
    Except ControlError ServedBody :=
  let (body, headers) := bodySnapshotParts (record.snapshot .withBodyPreviews) side
  (decoder body.preview headers).map fun decoded => { decoded, status := body.status, headers }

/-- The page of a fresh decode. -/
def freshPage (decoder : ContentDecoder) (record : CaptureRecord) (request : BodyContentRequest) :
    Except ControlError (Option (Except ControlError BodyPage)) :=
  (freshBody decoder record request.side).map fun served => served.page request

/-- The record is the one a request asks for. -/
structure IsOf (request : BodyContentRequest) (record : CaptureRecord) : Prop where
  sequence : record.sequence = request.captureId
  revision : record.revision = request.captureRevision

/-- The metadata do not depend on how the snapshot is taken. -/
theorem bodySnapshotParts_metadata (record : CaptureRecord) (side : BodySide) :
    (bodySnapshotParts (record.snapshot .metadataOnly) side).1.status =
        (bodySnapshotParts (record.snapshot .withBodyPreviews) side).1.status ∧
      (bodySnapshotParts (record.snapshot .metadataOnly) side).2 =
        (bodySnapshotParts (record.snapshot .withBodyPreviews) side).2 := by
  cases side <;> exact ⟨rfl, rfl⟩

theorem freshBody_congr {record record' : CaptureRecord}
    (h : record.snapshot .withBodyPreviews = record'.snapshot .withBodyPreviews)
    (side : BodySide) : freshBody decoder record side = freshBody decoder record' side := by
  unfold freshBody
  rw [h]

theorem freshBody_eq_ok {record : CaptureRecord} {side : BodySide} {served : ServedBody} :
    freshBody decoder record side = .ok served ↔
      decoder (bodySnapshotParts (record.snapshot .withBodyPreviews) side).1.preview
          (bodySnapshotParts (record.snapshot .withBodyPreviews) side).2 = .ok served.decoded ∧
        served.status = (bodySnapshotParts (record.snapshot .withBodyPreviews) side).1.status ∧
        served.headers = (bodySnapshotParts (record.snapshot .withBodyPreviews) side).2 := by
  unfold freshBody
  dsimp only
  cases decoder (bodySnapshotParts (record.snapshot .withBodyPreviews) side).1.preview
      (bodySnapshotParts (record.snapshot .withBodyPreviews) side).2 with
  | error error => simp [Except.map]
  | ok decoded =>
    obtain ⟨served, status, headers⟩ := served
    simp only [Except.map, Except.ok.injEq, ServedBody.mk.injEq]
    tauto

/-! ## Requests -/

theorem retainedCapture_eq_ok {captures : CaptureSystem} {captureId : CaptureSequence}
    {record : CaptureRecord} (h : retainedCapture captures captureId = .ok record) :
    captures.captureRecord captureId = some record := by
  unfold retainedCapture at h
  cases hrecord : captures.captureRecord captureId with
  | none =>
    rw [hrecord] at h
    cases h
  | some found =>
    rw [hrecord] at h
    exact congrArg some (Except.ok.inj h)

theorem validateBodyRevision_eq_ok {request : BodyContentRequest} {revision : Nat}
    (h : validateBodyRevision request revision = .ok ()) : revision = request.captureRevision := by
  unfold validateBodyRevision at h
  split at h
  · assumption
  · cases h

theorem requestMetadata_eq_ok {captures : CaptureSystem} {request : BodyContentRequest}
    {metadata : CaptureBodyMetadataReply} {record : CaptureRecord}
    (h : requestMetadata scope captures request = .ok (metadata, record)) :
    captures.captureRecord request.captureId = some record ∧
      metadata = metadataReply scope request.captureId request.side record ∧
      record.revision = request.captureRevision := by
  obtain ⟨_, hretained, h⟩ := bind_eq_ok.1 h
  obtain ⟨⟨⟩, hvalid, h⟩ := bind_eq_ok.1 h
  obtain ⟨rfl, rfl⟩ := Prod.mk.inj (Except.ok.inj h)
  refine ⟨retainedCapture_eq_ok hretained, rfl, ?_⟩
  unfold validateBodyMetadata at hvalid
  split at hvalid
  · cases hvalid
  · exact validateBodyRevision_eq_ok hvalid

theorem requestSnapshot_eq_ok {captures : CaptureSystem} {request : BodyContentRequest}
    {reply : CaptureBodySnapshotReply} {record : CaptureRecord}
    (h : requestSnapshot scope captures request = .ok (reply, record)) :
    captures.captureRecord request.captureId = some record ∧
      reply = snapshotReply scope request.captureId request.side record ∧
      record.revision = request.captureRevision := by
  obtain ⟨_, hretained, h⟩ := bind_eq_ok.1 h
  obtain ⟨⟨⟩, hrevision, h⟩ := bind_eq_ok.1 h
  obtain ⟨-, -, h⟩ := bind_eq_ok.1 h
  obtain ⟨rfl, rfl⟩ := Prod.mk.inj (Except.ok.inj h)
  refine ⟨retainedCapture_eq_ok hretained, rfl, ?_⟩
  unfold validateCaptureRevision at hrevision
  split at hrevision
  · cases hrevision
  · rename_i heq
    exact (not_not.1 heq).symm

/-! ## What the reads have observed -/

/-- The record of a capture was observed, and the capture may have gone on. -/
def Observed (captures : CaptureSystem) (record : CaptureRecord) : Prop :=
  ∃ cell, captures.cells[record.sequence]? = some cell ∧ record.RevisionLe cell.record

theorem Observed.grow {captures captures' : CaptureSystem} {record : CaptureRecord}
    (h : Observed captures record) (hgrow : captures.RevisionsGrow captures') :
    Observed captures' record := by
  obtain ⟨cell, hcell, hle⟩ := h
  obtain ⟨cell', hcell', hle'⟩ := hgrow _ cell hcell
  exact ⟨cell', hcell', hle.trans hle'⟩

theorem observed_of_retains {captures : CaptureSystem} {i : CaptureSequence}
    {record : CaptureRecord} (h : captures.Retains i record) : Observed captures record := by
  obtain ⟨cell, hcell, hrecord⟩ := h.get
  refine ⟨cell, by rw [h.sequence]; exact hcell, ?_⟩
  rw [hrecord]
  exact .refl record

/-- A record observed before is the stored one if it has the same revision. -/
theorem Observed.snapshot_eq {captures : CaptureSystem} {i : CaptureSequence}
    {record stored : CaptureRecord} (h : Observed captures record)
    (hstored : captures.Retains i stored) (hsequence : record.sequence = stored.sequence)
    (hrevision : record.revision = stored.revision) (mode : CaptureSnapshotMode) :
    record.snapshot mode = stored.snapshot mode := by
  obtain ⟨cell, hcell, hle⟩ := h
  obtain ⟨cell', hcell', hrecord⟩ := hstored.get
  rw [hsequence, hstored.sequence] at hcell
  obtain rfl := Option.some.inj (hcell.symm.trans hcell')
  rw [hrecord] at hle
  exact (hle.snapshot hstored.stored hrevision.symm mode).symm

/-- The observed records of one revision show the same. -/
structure Observations (captures : CaptureSystem) (observed : Set CaptureRecord) : Prop where
  seen : ∀ record ∈ observed, Observed captures record
  unique : ∀ record ∈ observed, ∀ record' ∈ observed, record.sequence = record'.sequence →
    record.revision = record'.revision →
      record.snapshot .withBodyPreviews = record'.snapshot .withBodyPreviews

theorem Observations.grow {captures captures' : CaptureSystem} {observed : Set CaptureRecord}
    (h : Observations captures observed) (hgrow : captures.RevisionsGrow captures') :
    Observations captures' observed :=
  ⟨fun record hrecord => (h.seen record hrecord).grow hgrow, h.unique⟩

theorem Observations.insert {captures : CaptureSystem} {observed : Set CaptureRecord}
    (h : Observations captures observed) {i : CaptureSequence} {stored : CaptureRecord}
    (hstored : captures.Retains i stored) : Observations captures (insert stored observed) where
  seen record hrecord := by
    rcases hrecord with rfl | hrecord
    · exact observed_of_retains hstored
    · exact h.seen record hrecord
  unique record hrecord record' hrecord' hsequence hrevision := by
    rcases hrecord with rfl | hrecord <;> rcases hrecord' with rfl | hrecord'
    · rfl
    · exact ((h.seen record' hrecord').snapshot_eq hstored hsequence.symm hrevision.symm _).symm
    · exact (h.seen record hrecord).snapshot_eq hstored hsequence hrevision _
    · exact h.unique record hrecord record' hrecord' hsequence hrevision

/-! ## Soundness of a read -/

/-- The plan has the key of the request. -/
structure PlanOf (request : BodyContentRequest) (plan : BodyAdmissionPlan) : Prop where
  captureId : plan.key.captureId = request.captureId
  captureRevision : plan.key.captureRevision = request.captureRevision
  side : plan.key.side = request.side

/-- What a read holds comes from an observed record of the revision it asks for. -/
def BodyReadPhase.Sound (decoder : ContentDecoder) (scope : InstanceScope)
    (observed : Set CaptureRecord) (request : BodyContentRequest) : BodyReadPhase → Prop
  | .entering | .done (.failed _) | .done (.raw _) => True
  | .planning _ metadata record => record ∈ observed ∧ IsOf request record ∧
      metadata = metadataReply scope request.captureId request.side record
  | .queued plan | .uncached plan | .requesting plan _ => PlanOf request plan
  | .received plan _ reply record | .decoding plan _ reply record =>
    PlanOf request plan ∧ record ∈ observed ∧ IsOf request record ∧
      reply = snapshotReply scope request.captureId request.side record
  | .inserting plan _ served record => PlanOf request plan ∧ record ∈ observed ∧
      IsOf request record ∧ freshBody decoder record request.side = .ok served
  | .done (.served _ served record) => record ∈ observed ∧ IsOf request record ∧
      freshBody decoder record request.side = .ok served

theorem BodyReadPhase.Sound.mono {observed observed' : Set CaptureRecord}
    (hsub : observed ⊆ observed') {request : BodyContentRequest} {phase : BodyReadPhase}
    (h : phase.Sound decoder scope observed request) :
    phase.Sound decoder scope observed' request := by
  cases phase with
  | entering => trivial
  | queued plan | uncached plan | requesting plan epoch => exact h
  | planning previous metadata record => exact ⟨hsub h.1, h.2⟩
  | received plan epoch reply record | decoding plan epoch reply record
  | inserting plan epoch served record => exact ⟨h.1, hsub h.2.1, h.2.2⟩
  | done outcome =>
    cases outcome with
    | failed error | raw page => trivial
    | served fromCache served record => exact ⟨hsub h.1, h.2⟩

/-- A body of the cache is the fresh one of an observed record with its key. -/
def CachedFrom (decoder : ContentDecoder) (observed : Set CaptureRecord)
    (body : BodyCacheKey × DecodedBytes) : Prop :=
  ∃ record ∈ observed, record.sequence = body.1.captureId ∧
    record.revision = body.1.captureRevision ∧
    ∃ served, freshBody decoder record body.1.side = .ok served ∧ served.decoded = body.2

/-- The cache is one that some operations make, of bodies of observed records. -/
structure CacheSound (decoder : ContentDecoder) (observed : Set CaptureRecord)
    (cache : DecodedBodyCache) : Prop where
  after : ∃ actions, cache = .after maxTerminalDecodedCacheBytes actions
  cached : ∀ body ∈ cache.contents, CachedFrom decoder observed body

theorem capacity_fits :
    maxTerminalDecodedCacheBytes + maxTerminalDecodedCacheBytes ≤ wordMax := by
  decide

theorem CacheSound.mono {observed observed' : Set CaptureRecord} (hsub : observed ⊆ observed')
    {cache : DecodedBodyCache} (h : CacheSound decoder observed cache) :
    CacheSound decoder observed' cache := by
  refine ⟨h.after, fun body hbody => ?_⟩
  obtain ⟨record, hrecord, hfrom⟩ := h.cached body hbody
  exact ⟨record, hsub hrecord, hfrom⟩

theorem CacheSound.step {observed : Set CaptureRecord} {cache : DecodedBodyCache}
    (h : CacheSound decoder observed cache) (action : CacheAction)
    (hinsert : ∀ key decoded, action = .insert key decoded →
      CachedFrom decoder observed (key, decoded)) :
    CacheSound decoder observed (cache.step action) := by
  obtain ⟨⟨actions, rfl⟩, hcached⟩ := h
  refine ⟨⟨actions ++ [action], (DecodedBodyCache.after_snoc _ actions action).symm⟩,
    fun body hbody => ?_⟩
  rw [DecodedBodyCache.contents_step capacity_fits] at hbody
  rcases Lru.mem_step hbody with hold | ⟨key, decoded, hput, rfl⟩
  · exact hcached body hold
  · refine hinsert key decoded ?_
    cases action with
    | insert key' decoded' =>
      obtain ⟨rfl, rfl⟩ := Lru.Action.put.inj hput
      rfl
    | lookup key' | changes batch | feedError error => cases hput

/-! ## One step of a read -/

/-- The read goes on with the same request, and holds what it should. -/
def ReadSound (decoder : ContentDecoder) (scope : InstanceScope) (observed : Set CaptureRecord)
    (read : BodyRead) : Prop :=
  read.phase.Sound decoder scope observed read.request

theorem readSound_fail (observed : Set CaptureRecord) (read : BodyRead) (error : ControlError) :
    ReadSound decoder scope observed (read.fail error) :=
  trivial

section Step

variable {captures : CaptureSystem} {history : List CaptureChange} {observed : Set CaptureRecord}
  {cache : DecodedBodyCache} {read : BodyRead}

theorem readSound_askMetadata (htracked : captures.Tracked captures.store.captures history)
    (hobserved : Observations captures observed) (previous : Option BodyAdmissionPlan) :
    ∃ observed', observed ⊆ observed' ∧ Observations captures observed' ∧
      ReadSound decoder scope observed' (read.askMetadata scope captures previous) := by
  unfold BodyRead.askMetadata
  split
  · exact ⟨observed, subset_rfl, hobserved, trivial⟩
  · rename_i metadata record hrequest
    obtain ⟨hrecord, hmetadata, hrevision⟩ := requestMetadata_eq_ok hrequest
    have hretains := htracked.retains_of_captureRecord hrecord
    exact ⟨insert record observed, Set.subset_insert _ _, hobserved.insert hretains,
      Set.mem_insert _ _, ⟨hretains.sequence, hrevision⟩, hmetadata⟩

theorem readSound_askSnapshot (htracked : captures.Tracked captures.store.captures history)
    (hobserved : Observations captures observed) {plan : BodyAdmissionPlan}
    (hplan : PlanOf read.request plan) (snapshotEpoch : Nat) :
    ∃ observed', observed ⊆ observed' ∧ Observations captures observed' ∧
      ReadSound decoder scope observed' (read.askSnapshot scope captures plan snapshotEpoch) := by
  unfold BodyRead.askSnapshot
  split
  · exact ⟨observed, subset_rfl, hobserved, trivial⟩
  · rename_i reply record hrequest
    obtain ⟨hrecord, hreply, hrevision⟩ := requestSnapshot_eq_ok hrequest
    have hretains := htracked.retains_of_captureRecord hrecord
    exact ⟨insert record observed, Set.subset_insert _ _, hobserved.insert hretains, hplan,
      Set.mem_insert _ _, ⟨hretains.sequence, hrevision⟩, hreply⟩

/-- The plan is of the request, and what it has found in the cache was there. -/
theorem admissionPlan_spec (hcache : CacheSound decoder observed cache)
    (request : BodyContentRequest) (metadata : CaptureBodyMetadataReply) :
    PlanOf request (admissionPlan cache request metadata).1 ∧
      CacheSound decoder observed (admissionPlan cache request metadata).2 ∧
      ∀ decoded, (admissionPlan cache request metadata).1.cached = some decoded →
        ((admissionPlan cache request metadata).1.key, decoded) ∈ cache.contents := by
  unfold admissionPlan
  dsimp only
  split
  · refine ⟨⟨rfl, rfl, rfl⟩, hcache.step (.lookup _) fun _ _ => nofun, fun decoded hfound => ?_⟩
    obtain ⟨⟨actions, rfl⟩, -⟩ := hcache
    exact (DecodedBodyCache.getDecoded_after capacity_fits actions _ decoded).1 hfound
  · exact ⟨⟨rfl, rfl, rfl⟩, hcache, fun decoded hfound => by cases hfound⟩

/-- What the cache serves is the fresh body of the record the metadata are from. -/
theorem served_from_cache (hobserved : Observations captures observed)
    {record : CaptureRecord} (hrecord : record ∈ observed) {request : BodyContentRequest}
    (hof : IsOf request record) {plan : BodyAdmissionPlan} (hplan : PlanOf request plan)
    {decoded : DecodedBytes} (hcached : CachedFrom decoder observed (plan.key, decoded)) :
    let metadata := metadataReply scope request.captureId request.side record
    freshBody decoder record request.side =
      .ok { decoded, status := metadata.status, headers := metadata.headers } := by
  obtain ⟨record', hrecord', hsequence, hrevision, served, hfresh, rfl⟩ := hcached
  dsimp only at hsequence hrevision hfresh ⊢
  rw [hplan.side] at hfresh
  have hsame := hobserved.unique record hrecord record' hrecord'
    (by rw [hof.sequence, hsequence, hplan.captureId])
    (by rw [hof.revision, hrevision, hplan.captureRevision])
  rw [← freshBody_congr hsame] at hfresh
  obtain ⟨hdecoded, -, -⟩ := freshBody_eq_ok.1 hfresh
  obtain ⟨hstatus, hheaders⟩ := bodySnapshotParts_metadata record request.side
  exact freshBody_eq_ok.2 ⟨hdecoded, hstatus, hheaders⟩

theorem readSound_planned (hobserved : Observations captures observed)
    (hcache : CacheSound decoder observed cache) {record : CaptureRecord}
    (hrecord : record ∈ observed) (hof : IsOf read.request record)
    (previous : Option BodyAdmissionPlan) {metadata : CaptureBodyMetadataReply}
    (hmetadata : metadata = metadataReply scope read.request.captureId read.request.side record) :
    ReadSound decoder scope observed
      (read.planned previous (admissionPlan cache read.request metadata).1 metadata record) := by
  obtain ⟨hplan, -, hfound⟩ := admissionPlan_spec hcache read.request metadata
  generalize (admissionPlan cache read.request metadata).1 = plan at hplan hfound
  unfold BodyRead.planned
  split
  · exact hplan
  · cases hcached : plan.cached with
    | none => exact hplan
    | some decoded =>
      refine ⟨hrecord, hof, ?_⟩
      rw [hmetadata]
      exact served_from_cache hobserved hrecord hof hplan
        (hcache.cached _ (hfound decoded hcached))

theorem freshBody_of_decoder {record : CaptureRecord} {request : BodyContentRequest}
    {reply : CaptureBodySnapshotReply}
    (hreply : reply = snapshotReply scope request.captureId request.side record)
    {decoded : DecodedBytes} (hdecoded : decoder reply.preview reply.headers = .ok decoded) :
    freshBody decoder record request.side =
      .ok { decoded, status := reply.status, headers := reply.headers } := by
  subst hreply
  exact freshBody_eq_ok.2 ⟨hdecoded, rfl, rfl⟩

theorem readSound_decode {plan : BodyAdmissionPlan} (hplan : PlanOf read.request plan)
    {record : CaptureRecord} (hrecord : record ∈ observed) (hof : IsOf read.request record)
    {reply : CaptureBodySnapshotReply}
    (hreply : reply = snapshotReply scope read.request.captureId read.request.side record)
    (cacheEpoch : Option Nat) :
    ReadSound decoder scope observed (read.decode decoder plan cacheEpoch reply record) := by
  unfold BodyRead.decode
  split
  · trivial
  · rename_i decoded hdecoded
    have hfresh := freshBody_of_decoder hreply hdecoded
    dsimp only
    split
    · exact ⟨hplan, hrecord, hof, hfresh⟩
    · exact ⟨hrecord, hof, hfresh⟩

theorem BodyRead.step_sound (htracked : captures.Tracked captures.store.captures history)
    (hobserved : Observations captures observed) (hcache : CacheSound decoder observed cache)
    (hread : ReadSound decoder scope observed read) {read' : BodyRead} {cache' : DecodedBodyCache}
    (hstep : read.step decoder scope captures cache = some (read', cache')) :
    ∃ observed', observed ⊆ observed' ∧ Observations captures observed' ∧
      CacheSound decoder observed' cache' ∧ ReadSound decoder scope observed' read' := by
  obtain ⟨request, phase⟩ := read
  unfold BodyRead.step at hstep
  cases phase with
  | entering =>
    dsimp only at hstep
    split at hstep
    · obtain ⟨rfl, rfl⟩ := Prod.mk.inj (Option.some.inj hstep)
      exact ⟨observed, subset_rfl, hobserved, hcache, trivial⟩
    · obtain ⟨rfl, rfl⟩ := Prod.mk.inj (Option.some.inj hstep)
      obtain ⟨observed', hsub, hobserved', hread'⟩ :=
        readSound_askMetadata htracked hobserved none
      exact ⟨observed', hsub, hobserved', hcache.mono hsub, hread'⟩
  | planning previous metadata record =>
    obtain ⟨rfl, rfl⟩ := Prod.mk.inj (Option.some.inj hstep)
    obtain ⟨hrecord, hof, hmetadata⟩ := hread
    obtain ⟨-, hcache', -⟩ := admissionPlan_spec hcache request metadata
    exact ⟨observed, subset_rfl, hobserved, hcache',
      readSound_planned hobserved hcache hrecord hof previous hmetadata⟩
  | queued plan =>
    obtain ⟨rfl, rfl⟩ := Prod.mk.inj (Option.some.inj hstep)
    obtain ⟨observed', hsub, hobserved', hread'⟩ :=
      readSound_askMetadata htracked hobserved (some plan)
    exact ⟨observed', hsub, hobserved', hcache.mono hsub, hread'⟩
  | uncached plan =>
    obtain ⟨rfl, rfl⟩ := Prod.mk.inj (Option.some.inj hstep)
    exact ⟨observed, subset_rfl, hobserved, hcache, hread⟩
  | requesting plan snapshotEpoch =>
    obtain ⟨rfl, rfl⟩ := Prod.mk.inj (Option.some.inj hstep)
    obtain ⟨observed', hsub, hobserved', hread'⟩ :=
      readSound_askSnapshot htracked hobserved hread snapshotEpoch
    exact ⟨observed', hsub, hobserved', hcache.mono hsub, hread'⟩
  | received plan snapshotEpoch reply record =>
    obtain ⟨rfl, rfl⟩ := Prod.mk.inj (Option.some.inj hstep)
    refine ⟨observed, subset_rfl, hobserved, hcache, ?_⟩
    unfold BodyRead.checkEpoch
    dsimp only
    split
    · trivial
    · exact hread
  | decoding plan cacheEpoch reply record =>
    obtain ⟨rfl, rfl⟩ := Prod.mk.inj (Option.some.inj hstep)
    obtain ⟨hplan, hrecord, hof, hreply⟩ := hread
    exact ⟨observed, subset_rfl, hobserved, hcache,
      readSound_decode hplan hrecord hof hreply cacheEpoch⟩
  | inserting plan cacheEpoch served record =>
    obtain ⟨rfl, rfl⟩ := Prod.mk.inj (Option.some.inj hstep)
    obtain ⟨hplan, hrecord, hof, hfresh⟩ := hread
    refine ⟨observed, subset_rfl, hobserved, ?_, hrecord, hof, hfresh⟩
    split
    · refine hcache.step (.insert plan.key served.decoded) fun key decoded hinsert => ?_
      obtain ⟨rfl, rfl⟩ := CacheAction.insert.inj hinsert
      refine ⟨record, hrecord, ?_, ?_, served, ?_, rfl⟩
      · exact hof.sequence.trans hplan.captureId.symm
      · exact hof.revision.trans hplan.captureRevision.symm
      · rw [hplan.side]
        exact hfresh
    · exact hcache
  | done outcome => cases hstep

end Step

/-! ## Runs -/

structure BodyReadSystem.Sound (decoder : ContentDecoder) (scope : InstanceScope)
    (s : BodyReadSystem) (observed : Set CaptureRecord) : Prop where
  conserved : s.captures.Conserved
  tracked : ∃ history, s.captures.Tracked s.captures.store.captures history
  observations : Observations s.captures observed
  cache : CacheSound decoder observed s.cache
  reads : ∀ read ∈ s.reads, ReadSound decoder scope observed read

namespace BodyReadSystem

variable {s t : BodyReadSystem} {observed : Set CaptureRecord}

theorem sound_new (decoder : ContentDecoder) (scope : InstanceScope) (policy : CapturePolicy)
    (retention : CaptureRetentionPolicy) : Sound decoder scope (.new policy retention) ∅ where
  conserved := CaptureSystem.conserved_new policy retention
  tracked := ⟨[], CaptureSystem.tracked_new policy retention⟩
  observations := ⟨by simp, by simp⟩
  cache := ⟨⟨[], rfl⟩, by simp [new, DecodedBodyCache.new, DecodedBodyCache.contents]⟩
  reads := by simp [new]

theorem Sound.captures (h : Sound decoder scope s observed) {captures' : CaptureSystem}
    (hconserved : captures'.Conserved) (hgrow : s.captures.RevisionsGrow captures')
    (hfollows : s.captures.StoreFollows captures') :
    Sound decoder scope { s with captures := captures' } observed := by
  obtain ⟨history, htracked⟩ := h.tracked
  obtain ⟨news, htracked', -⟩ := hfollows history htracked
  exact ⟨hconserved, ⟨_, htracked'⟩, h.observations.grow hgrow, h.cache, h.reads⟩

theorem Sound.set_read (h : Sound decoder scope s observed) (index : Nat) {read : BodyRead}
    (hread : ReadSound decoder scope observed read) :
    ∀ other ∈ s.reads.set index read, ReadSound decoder scope observed other := by
  intro other hother
  rcases List.mem_or_eq_of_mem_set hother with hold | rfl
  · exact h.reads other hold
  · exact hread

theorem Sound.applyDrained (h : Sound decoder scope s observed)
    (drained : Except CaptureChangeError (List CaptureChange)) :
    CacheSound decoder observed (BodyReadSystem.applyDrained s.cache drained) := by
  cases drained with
  | error error => exact h.cache.step (.feedError error) fun _ _ => nofun
  | ok changes =>
    unfold BodyReadSystem.applyDrained
    dsimp only
    split
    · exact h.cache
    · exact h.cache.step (.changes changes) fun _ _ => nofun

theorem Sound.step (h : Sound decoder scope s observed) {action : BodyReadAction}
    (hstep : s.step decoder scope action = some t) : ∃ observed', Sound decoder scope t observed' := by
  cases action with
  | capture action =>
    simp only [BodyReadSystem.step] at hstep
    split at hstep
    · rename_i horderly
      obtain ⟨captures', hcaptures, rfl⟩ := Option.map_eq_some_iff.1 hstep
      exact ⟨observed, h.captures (h.conserved.step hcaptures)
        (CaptureSystem.step_revisions h.conserved hcaptures)
        (CaptureSystem.storeFollows_step h.conserved horderly hcaptures)⟩
    · cases hstep
  | storeNext =>
    obtain ⟨captures', hcaptures, rfl⟩ := Option.map_eq_some_iff.1 hstep
    obtain ⟨actions, hrun⟩ := CaptureSystem.run_of_storeNext hcaptures
    exact ⟨observed, h.captures
      (run_invariant (fun _ _ _ h hstep => h.step hstep) h.conserved hrun)
      (CaptureSystem.run_revisions h.conserved hrun)
      (CaptureSystem.storeFollows_storeNext h.conserved hcaptures)⟩
  | start request =>
    obtain rfl := Option.some.inj hstep
    refine ⟨observed, h.conserved, h.tracked, h.observations, h.cache, fun read hread => ?_⟩
    rcases List.mem_append.1 hread with hold | hnew
    · exact h.reads read hold
    · rw [List.mem_singleton.1 hnew]
      trivial
  | read index =>
    obtain ⟨read, hget, hstep⟩ := Option.bind_eq_some_iff.1 hstep
    obtain ⟨⟨read', cache'⟩, hread, rfl⟩ := Option.map_eq_some_iff.1 hstep
    obtain ⟨history, htracked⟩ := h.tracked
    obtain ⟨observed', hsub, hobserved', hcache', hread'⟩ := read.step_sound htracked
      h.observations
      h.cache (h.reads read (List.mem_of_getElem? hget)) hread
    refine ⟨observed', h.conserved, ⟨history, htracked⟩, hobserved', hcache',
      fun other hother => ?_⟩
    rcases List.mem_or_eq_of_mem_set hother with hold | rfl
    · exact (h.reads other hold).mono hsub
    · exact hread'
  | abandon index error =>
    obtain ⟨read, -, hstep⟩ := Option.bind_eq_some_iff.1 hstep
    split at hstep
    · cases hstep
    · obtain rfl := Option.some.inj hstep
      exact ⟨observed, h.conserved, h.tracked, h.observations, h.cache,
        h.set_read index (readSound_fail observed read error)⟩
  | receive =>
    obtain rfl := Option.some.inj hstep
    refine ⟨observed, ?_⟩
    unfold BodyReadSystem.receive
    split
    · exact ⟨h.conserved, h.tracked, h.observations, h.cache, h.reads⟩
    · exact ⟨h.conserved, h.tracked, h.observations, h.cache, h.reads⟩
    · exact ⟨h.conserved, h.tracked, h.observations, h.cache, h.reads⟩
  | apply index =>
    obtain ⟨drained, -, rfl⟩ := Option.map_eq_some_iff.1 hstep
    exact ⟨observed, h.conserved, h.tracked, h.observations, h.applyDrained drained, h.reads⟩

theorem sound_run {policy : CapturePolicy} {retention : CaptureRetentionPolicy}
    {actions : List BodyReadAction}
    (hrun : run (step decoder scope) (.new policy retention) actions = some t) :
    ∃ observed, Sound decoder scope t observed :=
  run_invariant (I := fun u => ∃ observed, Sound decoder scope u observed)
    (fun _ _ _ h hstep => h.elim fun _ h => h.step hstep)
    ⟨∅, sound_new decoder scope policy retention⟩ hrun

/-- The cache of the reads is one that some operations make.  Whatever a read serves, from
the cache or not, is the fresh body of the record its metadata are from, at the revision
asked for, and so is its page. -/
structure ServesFresh (decoder : ContentDecoder) (s : BodyReadSystem) : Prop where
  cache : ∃ operations, s.cache = .after maxTerminalDecodedCacheBytes operations
  fresh : ∀ read ∈ s.reads, ∀ fromCache served observed,
    read.phase = .done (.served fromCache served observed) →
      IsOf read.request observed ∧ freshBody decoder observed read.request.side = .ok served ∧
        freshPage decoder observed read.request = .ok (served.page read.request)

theorem Sound.servesFresh (h : Sound decoder scope s observed) : ServesFresh decoder s where
  cache := h.cache.after
  fresh read hread fromCache served record hdone := by
    have hsound := h.reads read hread
    unfold ReadSound at hsound
    rw [hdone] at hsound
    obtain ⟨-, hof, hfresh⟩ := hsound
    refine ⟨hof, hfresh, ?_⟩
    rw [freshPage, hfresh]
    rfl

end BodyReadSystem

/-- The maps of the cache stay coherent, and what it serves is what a decoder would give. -/
theorem decoded_cache_coherent (decoder : ContentDecoder) (scope : InstanceScope) :
    (∀ capacityBytes actions, capacityBytes + capacityBytes ≤ wordMax →
      DecodedBodyCache.Guarantee capacityBytes actions (.after capacityBytes actions)) ∧
    ∀ policy retention actions s,
      run (BodyReadSystem.step decoder scope) (.new policy retention) actions = some s →
        s.ServesFresh decoder := by
  refine ⟨fun _ actions hcapacity => DecodedBodyCache.guarantee_after hcapacity actions,
    fun policy retention actions s hrun => ?_⟩
  obtain ⟨observed, hsound⟩ := BodyReadSystem.sound_run hrun
  exact hsound.servesFresh

/-- A decoder for bodies without an encoding. -/
def identityDecoder : ContentDecoder :=
  fun preview _ => .ok (.withUtf8Validity preview.flatten [] false)

def sampleScope : InstanceScope := { proxyEndpoint := "", runId := "" }

def sampleBodyRequest : BodyContentRequest :=
  { captureId := 0
    captureRevision := 1
    side := .request
    representation := .decoded
    offset := 0
    length := 1 }

/-- A finished body is read twice. -/
def sampleReads : List BodyReadAction :=
  [.capture (.tryStart
      { method := [71], originalUri := [97], effectiveUri := [97], localPath := none, headers := [] }
      0 0),
    .storeNext, .capture (.finish 0 .request .complete 1), .start sampleBodyRequest,
    .start sampleBodyRequest] ++
  List.replicate 9 (.read 0) ++ List.replicate 4 (.read 1)

def BodyRead.isServedFromCache (read : BodyRead) : Bool :=
  match read.phase with
  | .done (.served true _ _) => true
  | _ => false

theorem decoded_cache_coherent_sample :
    DecodedBodyCache.Guarantee maxTerminalDecodedCacheBytes []
        (.after maxTerminalDecodedCacheBytes []) ∧
      ∃ s, run (BodyReadSystem.step identityDecoder sampleScope) (.new {} {}) sampleReads = some s ∧
        s.reads.any BodyRead.isServedFromCache = true ∧ s.ServesFresh identityDecoder := by
  obtain ⟨hguarantee, hserves⟩ := decoded_cache_coherent identityDecoder sampleScope
  have hany : ((run (BodyReadSystem.step identityDecoder sampleScope) (.new {} {}) sampleReads).any
      fun s => s.reads.any BodyRead.isServedFromCache) = true := by decide
  obtain ⟨s, hrun, hserved⟩ := (Option.any_eq_true _ _).1 hany
  exact ⟨hguarantee _ [] (by decide), s, hrun, hserved, hserves {} {} sampleReads s hrun⟩

end Fluxcope.Control
