import Fluxcope.Capture.Tracked
import Fluxcope.Control.DecodedBodyCache
import Fluxcope.Library.Lru
/-!
# The cache keeps what was used last

The hash map and the tree are two views of one list: the cached bodies in the
order of their stamps.  Each operation does to the list what it does to a
bounded store that forgets the least recently used entries.
-/

namespace Fluxcope.Control

open Fluxcope.Library Fluxcope.Capture

def bodySize (decoded : DecodedBytes) : Nat := decoded.bytes.length

/-- A cached body with the stamp of its last use. -/
structure CacheSlot where
  usedAt : Nat
  key : BodyCacheKey
  decoded : DecodedBytes

namespace CacheSlot

def stamp (slot : CacheSlot) : Nat × BodyCacheKey := (slot.usedAt, slot.key)

def entry (slot : CacheSlot) : BodyCacheKey × DecodedCacheEntry :=
  (slot.key, { decoded := slot.decoded, usedAt := slot.usedAt })

def body (slot : CacheSlot) : BodyCacheKey × DecodedBytes := (slot.key, slot.decoded)

end CacheSlot

namespace DecodedBodyCache

/-! ## The maps -/

@[simp] theorem remove_capacityBytes (cache : DecodedBodyCache) (key : BodyCacheKey) :
    (cache.remove key).capacityBytes = cache.capacityBytes := by
  unfold DecodedBodyCache.remove
  split <;> rfl

@[simp] theorem evictLoop_capacityBytes (fuel : Nat) (cache : DecodedBodyCache) :
    (cache.evictLoop fuel).capacityBytes = cache.capacityBytes := by
  induction fuel generalizing cache with
  | zero => rfl
  | succ fuel ih =>
    rw [DecodedBodyCache.evictLoop]
    split
    · split
      · rfl
      · split <;> exact ih _
    · rfl

theorem remove_bytes_le (cache : DecodedBodyCache) (key : BodyCacheKey) :
    (cache.remove key).bytes ≤ cache.bytes := by
  unfold DecodedBodyCache.remove
  split
  · exact Nat.le_refl _
  · exact Nat.sub_le _ _

theorem insert_remove (cache : DecodedBodyCache) (key : BodyCacheKey)
    (entry : DecodedCacheEntry) :
    Assoc.insert (cache.remove key).entries key entry = Assoc.insert cache.entries key entry := by
  unfold DecodedBodyCache.remove
  cases cache.entries.lookup key with
  | none => rfl
  | some old =>
    simp only [Assoc.insert, Assoc.erase, List.filter_filter, Bool.and_self]

/-- A cached body that is found is taken out and put in again. -/
theorem getDecoded_eq {cache : DecodedBodyCache} {key : BodyCacheKey} {entry : DecodedCacheEntry}
    (hlookup : cache.entries.lookup key = some entry) (hle : bodySize entry.decoded ≤ cache.bytes) :
    (cache.getDecoded key).2 =
      { cache.remove key with
        clock := (cache.remove key).clock + 1
        entries := Assoc.insert (cache.remove key).entries key
          { decoded := entry.decoded, usedAt := (cache.remove key).clock + 1 }
        bytes := (cache.remove key).bytes + bodySize entry.decoded
        lru := Assoc.insertSorted (cache.remove key).lru ((cache.remove key).clock + 1) key } := by
  rw [insert_remove]
  unfold DecodedBodyCache.getDecoded DecodedBodyCache.remove
  rw [hlookup]
  unfold bodySize at hle ⊢
  simp only [Nat.sub_add_cancel hle]

theorem foldl_erase (removed : List (BodyCacheKey × DecodedCacheEntry))
    (lru : List (Nat × BodyCacheKey)) :
    removed.foldl (fun lru entry => Assoc.erase lru entry.2.usedAt) lru =
      lru.filter fun pair => removed.all fun entry => pair.1 ≠ entry.2.usedAt := by
  induction removed generalizing lru with
  | nil => simp
  | cons entry removed ih =>
    rw [List.foldl_cons, ih, Assoc.erase, List.filter_filter]
    refine List.filter_congr fun pair _ => ?_
    rw [List.all_cons, Bool.and_comm]

theorem foldl_sub (removed : List (BodyCacheKey × DecodedCacheEntry)) (bytes : Nat) :
    removed.foldl (fun bytes entry => bytes - entry.2.decoded.bytes.length) bytes =
      bytes - (removed.map fun entry => bodySize entry.2.decoded).sum := by
  induction removed generalizing bytes with
  | nil => rfl
  | cons entry removed ih =>
    rw [List.foldl_cons, ih, List.map_cons, List.sum_cons, Nat.sub_sub]
    rfl

/-! ## The list behind the maps -/

/-- The cached bodies, the least recently used one first. -/
def contents (cache : DecodedBodyCache) : List (BodyCacheKey × DecodedBytes) :=
  cache.lru.filterMap fun pair =>
    (cache.entries.lookup pair.2).map fun entry => (pair.2, entry.decoded)

/-- The two maps of the cache are views of one list. -/
structure Represents (cache : DecodedBodyCache) (slots : List CacheSlot) : Prop where
  lru : cache.lru = slots.map CacheSlot.stamp
  entries : cache.entries.Perm (slots.map CacheSlot.entry)
  keys : (slots.map CacheSlot.key).Nodup
  sorted : slots.Pairwise fun slot later => slot.usedAt < later.usedAt
  clock : ∀ slot ∈ slots, slot.usedAt ≤ cache.clock
  bytes : cache.bytes = Lru.total bodySize (slots.map CacheSlot.body)

theorem represents_new (capacityBytes : Nat) : Represents (new capacityBytes) [] :=
  ⟨rfl, .refl _, .nil, .nil, by simp, rfl⟩

variable {cache : DecodedBodyCache} {slots : List CacheSlot} {key : BodyCacheKey}

theorem filter_bodies (slots : List CacheSlot) (keep : BodyCacheKey → Bool) :
    (slots.filter fun slot => keep slot.key).map CacheSlot.body =
      (slots.map CacheSlot.body).filter fun entry => keep entry.1 := by
  rw [List.filter_map]
  rfl

theorem without_bodies (slots : List CacheSlot) (key : BodyCacheKey) :
    (slots.filter fun slot => slot.key ≠ key).map CacheSlot.body =
      Lru.without (slots.map CacheSlot.body) key :=
  filter_bodies slots fun k => k ≠ key

theorem fresh_remove (slots : List CacheSlot) (key : BodyCacheKey) :
    ∀ slot ∈ slots.filter fun slot => slot.key ≠ key, slot.key ≠ key :=
  fun _ hslot => of_decide_eq_true (List.mem_filter.1 hslot).2

namespace Represents

theorem nodup_entries (h : Represents cache slots) : (cache.entries.map Prod.fst).Nodup := by
  rw [(h.entries.map Prod.fst).nodup_iff, List.map_map]
  exact h.keys

theorem lookup_iff (h : Represents cache slots) {entry : DecodedCacheEntry} :
    cache.entries.lookup key = some entry ↔
      { usedAt := entry.usedAt, key, decoded := entry.decoded } ∈ slots := by
  rw [Assoc.lookup_eq_some_iff h.nodup_entries, h.entries.mem_iff, List.mem_map]
  constructor
  · rintro ⟨slot, hslot, heq⟩
    obtain ⟨rfl, rfl⟩ := Prod.mk.inj heq
    exact hslot
  · intro hslot
    exact ⟨_, hslot, rfl⟩

theorem lookup_slot (h : Represents cache slots) {slot : CacheSlot} (hslot : slot ∈ slots) :
    cache.entries.lookup slot.key = some slot.entry.2 :=
  h.lookup_iff.2 hslot

theorem lookup_eq_none_iff (h : Represents cache slots) :
    cache.entries.lookup key = none ↔ ∀ slot ∈ slots, slot.key ≠ key := by
  constructor
  · rintro hnone slot hslot rfl
    rw [h.lookup_slot hslot] at hnone
    cases hnone
  · intro hnot
    rw [Option.eq_none_iff_forall_ne_some]
    intro entry hentry
    exact hnot _ (h.lookup_iff.1 hentry) rfl

theorem contents_eq (h : Represents cache slots) : cache.contents = slots.map CacheSlot.body := by
  unfold contents
  rw [h.lru, List.filterMap_map, ← List.filterMap_eq_map]
  refine List.filterMap_congr fun slot hslot => ?_
  simp only [Function.comp_apply, CacheSlot.stamp, h.lookup_slot hslot]
  rfl

/-- The slot of a key is the only one with its key, and with its stamp. -/
theorem slot_unique (h : Represents cache slots) {slot slot' : CacheSlot} (hslot : slot ∈ slots)
    (hslot' : slot' ∈ slots) : slot.usedAt = slot'.usedAt ↔ slot.key = slot'.key := by
  constructor
  · intro hstamp
    have hne := h.sorted.imp fun {a b : CacheSlot} (hlt : a.usedAt < b.usedAt) => Nat.ne_of_lt hlt
    rw [← List.pairwise_map, ← List.Nodup] at hne
    rw [List.inj_on_of_nodup_map hne hslot hslot' hstamp]
  · intro hkey
    rw [List.inj_on_of_nodup_map h.keys hslot hslot' hkey]

/-- Without the stamps of some slots the tree has those of the others. -/
theorem erase_stamp (h : Represents cache slots) {slot : CacheSlot} (hslot : slot ∈ slots) :
    Assoc.erase cache.lru slot.usedAt =
      (slots.filter fun other => other.key ≠ slot.key).map CacheSlot.stamp := by
  rw [h.lru, Assoc.erase, List.filter_map]
  congr 1
  refine List.filter_congr fun other hother => ?_
  exact decide_eq_decide.2 (not_congr (h.slot_unique hother hslot))

/-- The cache with some of its keys. -/
theorem filter (h : Represents cache slots) (keep : BodyCacheKey → Bool) {bytes : Nat}
    {lru : List (Nat × BodyCacheKey)}
    (hlru : lru = (slots.filter fun slot => keep slot.key).map CacheSlot.stamp)
    (hbytes : bytes =
      Lru.total bodySize ((slots.filter fun slot => keep slot.key).map CacheSlot.body)) :
    Represents
      { cache with entries := cache.entries.filter fun entry => keep entry.1, bytes, lru }
      (slots.filter fun slot => keep slot.key) where
  lru := hlru
  entries := by
    have hperm := h.entries.filter fun entry => keep entry.1
    rwa [List.filter_map] at hperm
  keys := h.keys.sublist (List.filter_sublist.map _)
  sorted := h.sorted.sublist List.filter_sublist
  clock slot hslot := h.clock slot (List.mem_of_mem_filter hslot)
  bytes := hbytes

/-- A new body gets the next stamp. -/
theorem push (h : Represents cache slots) (hfresh : ∀ slot ∈ slots, slot.key ≠ key)
    (decoded : DecodedBytes) :
    Represents
      { cache with
        clock := cache.clock + 1
        entries := Assoc.insert cache.entries key { decoded, usedAt := cache.clock + 1 }
        bytes := cache.bytes + bodySize decoded
        lru := Assoc.insertSorted cache.lru (cache.clock + 1) key }
      (slots ++ [{ usedAt := cache.clock + 1, key, decoded }]) where
  lru := by
    rw [Assoc.insertSorted_of_lt, h.lru, List.map_append]
    · rfl
    · intro pair hpair
      rw [h.lru] at hpair
      obtain ⟨slot, hslot, rfl⟩ := List.mem_map.1 hpair
      exact Nat.lt_succ_of_le (h.clock slot hslot)
  entries := by
    have herase : Assoc.erase cache.entries key = cache.entries := by
      refine List.filter_eq_self.2 fun entry hentry => ?_
      obtain ⟨slot, hslot, rfl⟩ := List.mem_map.1 (h.entries.mem_iff.1 hentry)
      exact decide_eq_true (hfresh slot hslot)
    rw [Assoc.insert, herase, List.map_append]
    exact (h.entries.cons _).trans (List.perm_append_singleton _ _).symm
  keys := by
    rw [List.map_append, List.nodup_append]
    refine ⟨h.keys, List.pairwise_singleton _ _, fun k hk k' hk' => ?_⟩
    obtain ⟨slot, hslot, rfl⟩ := List.mem_map.1 hk
    rw [List.mem_singleton.1 hk']
    exact hfresh slot hslot
  sorted := by
    refine List.pairwise_append.2 ⟨h.sorted, List.pairwise_singleton _ _, fun slot hslot _ hlast => ?_⟩
    rw [List.mem_singleton.1 hlast]
    exact Nat.lt_succ_of_le (h.clock slot hslot)
  clock slot hslot := by
    rcases List.mem_append.1 hslot with hslot | hlast
    · exact Nat.le_succ_of_le (h.clock slot hslot)
    · rw [List.mem_singleton.1 hlast]
  bytes := by
    rw [List.map_append, Lru.total_append, ← h.bytes]
    simp [Lru.total, CacheSlot.body]

/-! ## Operations -/

theorem nodup_bodies (h : Represents cache slots) :
    ((slots.map CacheSlot.body).map Prod.fst).Nodup := by
  rw [List.map_map]
  exact h.keys

theorem mem_bodies (h : Represents cache slots) {entry : DecodedCacheEntry}
    (hlookup : cache.entries.lookup key = some entry) :
    (key, entry.decoded) ∈ slots.map CacheSlot.body :=
  List.mem_map.2 ⟨_, h.lookup_iff.1 hlookup, rfl⟩

theorem bytes_without (h : Represents cache slots) {entry : DecodedCacheEntry}
    (hlookup : cache.entries.lookup key = some entry) :
    Lru.total bodySize (Lru.without (slots.map CacheSlot.body) key) + bodySize entry.decoded =
      cache.bytes := by
  rw [h.bytes]
  exact Lru.total_without bodySize h.nodup_bodies (h.mem_bodies hlookup)

theorem remove (h : Represents cache slots) (key : BodyCacheKey) :
    Represents (cache.remove key) (slots.filter fun slot => slot.key ≠ key) := by
  unfold DecodedBodyCache.remove
  cases hlookup : cache.entries.lookup key with
  | none =>
    have hall : slots.filter (fun slot => slot.key ≠ key) = slots :=
      List.filter_eq_self.2 fun slot hslot =>
        decide_eq_true (h.lookup_eq_none_iff.1 hlookup slot hslot)
    rw [hall]
    exact h
  | some entry =>
    refine h.filter (fun k => k ≠ key) (h.erase_stamp (h.lookup_iff.1 hlookup)) ?_
    rw [without_bodies, ← h.bytes_without hlookup]
    exact Nat.add_sub_cancel _ _

theorem lookup_le_bytes (h : Represents cache slots) {entry : DecodedCacheEntry}
    (hlookup : cache.entries.lookup key = some entry) : bodySize entry.decoded ≤ cache.bytes :=
  Nat.le_of_add_left_le (h.bytes_without hlookup).le

/-- A lookup that finds the body moves it to the end. -/
theorem getDecoded (h : Represents cache slots) (key : BodyCacheKey) :
    ∃ slots', Represents (cache.getDecoded key).2 slots' ∧
      slots'.map CacheSlot.body = Lru.touch (slots.map CacheSlot.body) key := by
  cases hlookup : cache.entries.lookup key with
  | none =>
    have hnot := h.lookup_eq_none_iff.1 hlookup
    refine ⟨slots, ?_, ?_⟩
    · unfold DecodedBodyCache.getDecoded
      rw [hlookup]
      exact h
    · unfold Lru.touch Lru.without
      rw [List.filter_eq_self.2, List.filter_eq_nil_iff.2, List.append_nil]
      · rintro _ hentry
        obtain ⟨slot, hslot, rfl⟩ := List.mem_map.1 hentry
        exact fun hkey => hnot slot hslot (of_decide_eq_true hkey)
      · rintro _ hentry
        obtain ⟨slot, hslot, rfl⟩ := List.mem_map.1 hentry
        exact decide_eq_true (hnot slot hslot)
  | some entry =>
    rw [getDecoded_eq hlookup (h.lookup_le_bytes hlookup)]
    refine ⟨_, (h.remove key).push (fresh_remove slots key) entry.decoded, ?_⟩
    rw [List.map_append, without_bodies, Lru.touch,
      Lru.filter_key h.nodup_bodies (h.mem_bodies hlookup)]
    rfl

theorem evictLoop (h : Represents cache slots) {fuel : Nat} (hfuel : slots.length ≤ fuel) :
    ∃ slots', Represents (cache.evictLoop fuel) slots' ∧
      slots'.map CacheSlot.body =
        Lru.shrink bodySize cache.capacityBytes (slots.map CacheSlot.body) := by
  induction slots generalizing cache fuel with
  | nil =>
    refine ⟨[], ?_, rfl⟩
    have hbytes : cache.bytes = 0 := h.bytes
    cases fuel with
    | zero => exact h
    | succ fuel =>
      rw [DecodedBodyCache.evictLoop, if_neg (by omega)]
      exact h
  | cons slot slots ih =>
    obtain ⟨fuel, rfl⟩ : ∃ fuel', fuel = fuel' + 1 := ⟨fuel - 1, by simp at hfuel; omega⟩
    have hbytes := h.bytes
    rw [List.map_cons] at hbytes ⊢
    rw [DecodedBodyCache.evictLoop, Lru.shrink, ← hbytes]
    by_cases hlarge : cache.capacityBytes < cache.bytes
    · rw [if_pos hlarge, if_pos hlarge]
      have hlookup := h.lookup_slot List.mem_cons_self
      have hrest : (slot :: slots).filter (fun other => other.key ≠ slot.key) = slots := by
        have hkeys := h.keys
        rw [List.map_cons, List.nodup_cons] at hkeys
        rw [List.filter_cons_of_neg (by simp), List.filter_eq_self.2]
        intro other hother
        refine decide_eq_true fun heq => hkeys.1 ?_
        rw [← heq]
        exact List.mem_map_of_mem hother
      have hremoved := @Represents.filter _ _ h (fun k => k ≠ slot.key)
        (cache.bytes - slot.decoded.bytes.length) (slots.map CacheSlot.stamp)
        (by rw [hrest]) (by rw [hrest, hbytes, Lru.total_cons]; exact Nat.add_sub_cancel_left _ _)
      rw [hrest] at hremoved
      simp only [h.lru, List.map_cons]
      simp only [CacheSlot.stamp] at hremoved ⊢
      rw [hlookup]
      exact ih hremoved (Nat.le_of_succ_le_succ hfuel)
    · rw [if_neg hlarge, if_neg hlarge]
      exact ⟨slot :: slots, h, rfl⟩

theorem insertDecoded (h : Represents cache slots)
    (hcapacity : cache.capacityBytes + cache.capacityBytes ≤ wordMax)
    (hbytes : cache.bytes ≤ cache.capacityBytes) (key : BodyCacheKey) (decoded : DecodedBytes) :
    ∃ slots', Represents (cache.insertDecoded key decoded) slots' ∧
      slots'.map CacheSlot.body =
        Lru.step bodySize cache.capacityBytes (slots.map CacheSlot.body) (.put key decoded) := by
  have hremoved := h.remove key
  rw [Lru.step, ← without_bodies]
  unfold DecodedBodyCache.insertDecoded
  dsimp only
  by_cases hlarge : cache.capacityBytes < bodySize decoded
  · rw [if_pos hlarge, if_pos (by rw [remove_capacityBytes]; exact hlarge)]
    exact ⟨_, hremoved, rfl⟩
  · rw [if_neg hlarge, if_neg (by rw [remove_capacityBytes]; exact hlarge)]
    have hpushed := hremoved.push (fresh_remove slots key) decoded
    have hsum : satAdd (cache.remove key).bytes decoded.bytes.length =
        (cache.remove key).bytes + bodySize decoded := by
      have hle := remove_bytes_le cache key
      unfold bodySize at hlarge
      exact satAdd_eq (by omega)
    have hlength := congrArg List.length hpushed.lru
    rw [List.length_map] at hlength
    rw [hsum]
    obtain ⟨slots', hevicted, hshrunk⟩ := hpushed.evictLoop hlength.ge
    rw [List.map_append] at hshrunk
    refine ⟨slots', hevicted, hshrunk.trans ?_⟩
    rw [remove_capacityBytes]
    rfl

/-! ## Invalidation -/

theorem retain (h : Represents cache slots) (keep : BodyCacheKey → Bool) :
    Represents (cache.retain keep) (slots.filter fun slot => keep slot.key) := by
  refine h.filter keep ?_ ?_
  · rw [foldl_erase, h.lru, List.filter_map]
    refine congrArg (List.map CacheSlot.stamp) (List.filter_congr fun slot hslot => ?_)
    rw [Bool.eq_iff_iff]
    simp only [Function.comp_apply, List.all_eq_true, List.mem_filter, Bool.not_eq_true',
      decide_eq_true_eq]
    constructor
    · intro hstays
      by_contra hdropped
      have hentry : slot.entry ∈ cache.entries :=
        h.entries.mem_iff.2 (List.mem_map_of_mem hslot)
      exact hstays slot.entry ⟨hentry, Bool.eq_false_iff.2 hdropped⟩ rfl
    · rintro hkeep entry ⟨hentry, hdropped⟩ hstamp
      obtain ⟨other, hother, rfl⟩ := List.mem_map.1 (h.entries.mem_iff.1 hentry)
      have hkey := (h.slot_unique hslot hother).1 hstamp
      rw [hkey] at hkeep
      exact Bool.false_ne_true (hdropped.symm.trans hkeep)
  · have hremoved : ((cache.entries.filter fun entry => !keep entry.1).map fun entry =>
        bodySize entry.2.decoded).sum =
          Lru.total bodySize ((slots.filter fun slot => !keep slot.key).map CacheSlot.body) := by
      have hperm := h.entries.filter fun entry => !keep entry.1
      rw [List.filter_map] at hperm
      rw [(hperm.map _).sum_eq, List.map_map, Lru.total, List.map_map]
      rfl
    rw [foldl_sub, h.bytes, hremoved, filter_bodies, filter_bodies slots fun key => !keep key,
      ← Lru.total_filter_add bodySize (slots.map CacheSlot.body) keep]
    exact Nat.add_sub_cancel _ _

end Represents

theorem represents_clear (cache : DecodedBodyCache) : Represents cache.clear [] :=
  ⟨rfl, .refl _, .nil, .nil, by simp, rfl⟩

def clears (batch : List CaptureChange) : Bool := batch.any fun change => change.kind = .clear

/-- What a batch leaves of a capture: `none` for a removal. -/
def leftRevision (change : CaptureChange) : Option Nat :=
  if change.kind.isRemoval then none else some change.revision

theorem fst_foldl_applyChange (batch : List CaptureChange) (cache : DecodedBodyCache)
    (invalidated : Invalidated) :
    (batch.foldl applyChange (cache, invalidated)).1 =
      if clears batch then cache.clear else cache := by
  induction batch generalizing cache invalidated with
  | nil => rfl
  | cons change batch ih =>
    rw [List.foldl_cons]
    unfold clears at ih ⊢
    rw [List.any_cons]
    cases hkind : change.kind <;> simp only [applyChange, hkind] <;> rw [ih] <;> simp [clear]

theorem snd_foldl_applyChange {batch : List CaptureChange} (hclears : clears batch = false)
    (cache : DecodedBodyCache) (invalidated : Invalidated) :
    (batch.foldl applyChange (cache, invalidated)).2 =
      (batch.map fun change => (change.sequence, leftRevision change)).foldl
        (fun map pair => Assoc.insert map pair.1 pair.2) invalidated := by
  induction batch generalizing cache invalidated with
  | nil => rfl
  | cons change batch ih =>
    unfold clears at ih hclears
    rw [List.any_cons, Bool.or_eq_false_iff] at hclears
    rw [List.foldl_cons, List.map_cons, List.foldl_cons]
    cases hkind : change.kind <;>
      simp only [applyChange, hkind, leftRevision, CaptureChangeKind.isRemoval] <;>
      first
        | exact ih hclears.2 _ _
        | simp [hkind] at hclears

theorem lastOf_eq (batch : List CaptureChange) (i : CaptureSequence) :
    lastOf (batch.map fun change => (change.sequence, leftRevision change)) i =
      (lastAbout batch i).map leftRevision := by
  unfold lastOf lastAbout
  rw [← List.map_reverse, List.find?_map, Option.map_map, List.getLast?_filter]
  rfl

/-- The bodies a batch leaves in the cache. -/
def survives (batch : List CaptureChange) (key : BodyCacheKey) : Bool :=
  !clears batch &&
    (lastAbout batch key.captureId).all fun change =>
      leftRevision change = some key.captureRevision

theorem spares_eq {batch : List CaptureChange} (hclears : clears batch = false)
    (cache : DecodedBodyCache) (key : BodyCacheKey) :
    Invalidated.spares (batch.foldl applyChange (cache, [])).2 key = survives batch key := by
  unfold Invalidated.spares survives
  rw [snd_foldl_applyChange hclears, hclears]
  have hlookup := get_foldl_insert Assoc.lawfulInsert
    (batch.map fun change => (change.sequence, leftRevision change)) [] key.captureId
  rw [lastOf_eq] at hlookup
  rw [hlookup]
  cases lastAbout batch key.captureId with
  | none => rfl
  | some change =>
    simp only [Option.map_some, Option.some_or, Option.all_some, Bool.not_false, Bool.true_and]
    cases leftRevision change with
    | none => rfl
    | some revision => simp [eq_comm]

theorem Represents.applyChanges (h : Represents cache slots) (batch : List CaptureChange) :
    Represents (cache.applyChanges batch) (slots.filter fun slot => survives batch slot.key) := by
  unfold DecodedBodyCache.applyChanges
  have hcache := fst_foldl_applyChange batch cache []
  cases hclears : clears batch with
  | true =>
    have hnone : slots.filter (fun slot => survives batch slot.key) = [] :=
      List.filter_eq_nil_iff.2 fun slot _ => by simp [survives, hclears]
    rw [hclears, if_pos rfl] at hcache
    rw [hnone]
    dsimp only
    split
    · rw [hcache]
      exact represents_clear cache
    · rw [hcache]
      exact (represents_clear cache).retain _
  | false =>
    have hspares := spares_eq hclears cache
    rw [hclears, if_neg Bool.false_ne_true] at hcache
    dsimp only
    rw [hcache, List.filter_congr fun slot _ => (hspares slot.key).symm]
    split
    · rename_i hempty
      have hall : slots.filter (fun slot =>
          Invalidated.spares (batch.foldl applyChange (cache, [])).2 slot.key) = slots := by
        refine List.filter_eq_self.2 fun slot _ => ?_
        rw [List.isEmpty_iff.1 hempty]
        rfl
      rw [hall]
      exact h
    · exact h.retain _

/-! ## Sequences of operations -/

theorem applyChanges_capacityBytes (cache : DecodedBodyCache) (batch : List CaptureChange) :
    (cache.applyChanges batch).capacityBytes = cache.capacityBytes := by
  have hcache := fst_foldl_applyChange batch cache []
  have hkeep : (batch.foldl applyChange (cache, [])).1.capacityBytes = cache.capacityBytes := by
    rw [hcache]
    split <;> rfl
  unfold applyChanges
  dsimp only
  split
  · exact hkeep
  · exact hkeep

theorem step_capacityBytes (cache : DecodedBodyCache) (action : CacheAction) :
    (cache.step action).capacityBytes = cache.capacityBytes := by
  cases action with
  | lookup key =>
    change (cache.getDecoded key).2.capacityBytes = _
    unfold getDecoded
    split <;> rfl
  | insert key decoded =>
    change (cache.insertDecoded key decoded).capacityBytes = _
    unfold insertDecoded
    dsimp only
    split
    · exact remove_capacityBytes cache key
    · exact (evictLoop_capacityBytes _ _).trans (remove_capacityBytes cache key)
  | changes batch => exact applyChanges_capacityBytes cache batch
  | feedError error => rfl

end DecodedBodyCache

/-- The operation on the store of the bodies. -/
def CacheAction.toLru : CacheAction → Lru.Action BodyCacheKey DecodedBytes
  | .lookup key => .touch key
  | .insert key decoded => .put key decoded
  | .changes batch => .keep (DecodedBodyCache.survives batch)
  | .feedError _ => .keep fun _ => false

namespace DecodedBodyCache

variable {cache : DecodedBodyCache} {slots : List CacheSlot}

theorem Represents.step (h : Represents cache slots)
    (hcapacity : cache.capacityBytes + cache.capacityBytes ≤ wordMax)
    (hbytes : cache.bytes ≤ cache.capacityBytes) (action : CacheAction) :
    ∃ slots', Represents (cache.step action) slots' ∧
      slots'.map CacheSlot.body =
        Lru.step bodySize cache.capacityBytes (slots.map CacheSlot.body) action.toLru := by
  cases action with
  | lookup key => exact h.getDecoded key
  | insert key decoded => exact h.insertDecoded hcapacity hbytes key decoded
  | changes batch => exact ⟨_, h.applyChanges batch, filter_bodies slots _⟩
  | feedError error =>
    refine ⟨[], represents_clear cache, ?_⟩
    simp [CacheAction.toLru, Lru.step]

/-- The cache does what the bounded store does. -/
theorem after_spec {capacityBytes : Nat} (hcapacity : capacityBytes + capacityBytes ≤ wordMax)
    (actions : List CacheAction) :
    (after capacityBytes actions).capacityBytes = capacityBytes ∧
      ∃ slots, Represents (after capacityBytes actions) slots ∧
        slots.map CacheSlot.body =
          Lru.after bodySize capacityBytes (actions.map CacheAction.toLru) := by
  induction actions using List.reverseRecOn with
  | nil => exact ⟨rfl, [], represents_new capacityBytes, rfl⟩
  | append_singleton actions action ih =>
    obtain ⟨hkeep, slots, h, hslots⟩ := ih
    have hstep : after capacityBytes (actions ++ [action]) =
        (after capacityBytes actions).step action := List.foldl_concat ..
    have hbytes : (after capacityBytes actions).bytes ≤ capacityBytes := by
      rw [h.bytes, hslots]
      exact Lru.total_after_le bodySize capacityBytes _
    obtain ⟨slots', h', hslots'⟩ := h.step (by rw [hkeep]; exact hcapacity)
      (by rw [hkeep]; exact hbytes) action
    rw [hstep, List.map_append, List.map_singleton, Lru.after_snoc, ← hslots]
    refine ⟨(step_capacityBytes _ action).trans hkeep, slots', h', ?_⟩
    rw [hslots', hkeep]

theorem after_snoc (capacityBytes : Nat) (actions : List CacheAction) (action : CacheAction) :
    after capacityBytes (actions ++ [action]) = (after capacityBytes actions).step action :=
  List.foldl_concat ..

section After

variable {capacityBytes : Nat} {actions : List CacheAction} {key : BodyCacheKey}

theorem contents_after (hcapacity : capacityBytes + capacityBytes ≤ wordMax)
    (actions : List CacheAction) :
    (after capacityBytes actions).contents =
      Lru.after bodySize capacityBytes (actions.map CacheAction.toLru) := by
  obtain ⟨-, slots, h, hslots⟩ := after_spec hcapacity actions
  rw [h.contents_eq, hslots]

theorem contents_step (hcapacity : capacityBytes + capacityBytes ≤ wordMax)
    (actions : List CacheAction) (action : CacheAction) :
    ((after capacityBytes actions).step action).contents =
      Lru.step bodySize capacityBytes (after capacityBytes actions).contents action.toLru := by
  rw [← after_snoc, contents_after hcapacity, contents_after hcapacity, List.map_append,
    List.map_singleton, Lru.after_snoc]

/-- A lookup answers what the list of the bodies holds. -/
theorem getDecoded_after (hcapacity : capacityBytes + capacityBytes ≤ wordMax)
    (actions : List CacheAction) (key : BodyCacheKey) (decoded : DecodedBytes) :
    ((after capacityBytes actions).getDecoded key).1 = some decoded ↔
      (key, decoded) ∈ (after capacityBytes actions).contents := by
  obtain ⟨-, slots, h, -⟩ := after_spec hcapacity actions
  have hlookup : ((after capacityBytes actions).getDecoded key).1 =
      ((after capacityBytes actions).entries.lookup key).map (·.decoded) := by
    unfold getDecoded
    cases (after capacityBytes actions).entries.lookup key <;> rfl
  rw [hlookup, h.contents_eq, Option.map_eq_some_iff]
  constructor
  · rintro ⟨entry, hentry, rfl⟩
    exact h.mem_bodies hentry
  · intro hmem
    obtain ⟨slot, hslot, heq⟩ := List.mem_map.1 hmem
    obtain ⟨rfl, rfl⟩ := Prod.mk.inj heq
    exact ⟨_, h.lookup_slot hslot, rfl⟩

end After

/-! ## What the cache guarantees -/

/-- The maps hold the same keys, and the counter what the bodies take. -/
structure Coherent (cache : DecodedBodyCache) : Prop where
  sameKeys : (cache.lru.map Prod.snd).Perm (cache.entries.map Prod.fst)
  nodup : (cache.entries.map Prod.fst).Nodup
  linked : ∀ key entry, (key, entry) ∈ cache.entries → (entry.usedAt, key) ∈ cache.lru
  sorted : cache.lru.Pairwise fun pair later => pair.1 < later.1
  bytes : cache.bytes = (cache.entries.map fun entry => entry.2.decoded.bytes.length).sum
  capacity : cache.bytes ≤ cache.capacityBytes

theorem Represents.coherent (h : Represents cache slots)
    (hcapacity : cache.bytes ≤ cache.capacityBytes) : Coherent cache where
  sameKeys := by
    rw [h.lru, List.map_map]
    refine .trans (.of_eq ?_) (h.entries.map Prod.fst).symm
    rw [List.map_map]
    rfl
  nodup := h.nodup_entries
  linked key entry hentry := by
    obtain ⟨slot, hslot, heq⟩ := List.mem_map.1 (h.entries.mem_iff.1 hentry)
    obtain ⟨rfl, rfl⟩ := Prod.mk.inj heq
    rw [h.lru]
    exact List.mem_map.2 ⟨slot, hslot, rfl⟩
  sorted := by
    rw [h.lru, List.pairwise_map]
    exact h.sorted
  bytes := by
    rw [h.bytes, (h.entries.map _).sum_eq, Lru.total, List.map_map, List.map_map]
    rfl
  capacity := hcapacity

/-- The cache after `actions`, and what the next operation does to it. -/
structure Guarantee (capacityBytes : Nat) (actions : List CacheAction)
    (cache : DecodedBodyCache) : Prop where
  coherent : Coherent cache
  /-- The bodies are in the order of their last use. -/
  usedLater : cache.contents.Pairwise fun body later =>
    Lru.UsedLater CacheAction.Uses actions body.1 later.1
  /-- A body that fits is in the cache when it has been inserted, and is found. -/
  inserted : ∀ key decoded, decoded.bytes.length ≤ capacityBytes →
    ((cache.insertDecoded key decoded).getDecoded key).1 = some decoded
  /-- For its sake the first bodies are dropped, and no more of them than necessary. -/
  evicted : ∀ key decoded, decoded.bytes.length ≤ capacityBytes → ∃ dropped,
    (cache.contents.filter fun body => body.1 ≠ key) ++ [(key, decoded)] =
        dropped ++ (cache.insertDecoded key decoded).contents ∧
      ∀ before body after, dropped = before ++ body :: after →
        capacityBytes <
          Lru.total bodySize (body :: after ++ (cache.insertDecoded key decoded).contents)
  /-- After a batch the bodies of a capture have the last revision of the batch. -/
  current : ∀ batch, ∀ body ∈ (cache.applyChanges batch).contents,
    (∀ change ∈ batch, change.kind ≠ .clear) ∧
      ∀ change, lastAbout batch body.1.captureId = some change →
        change.kind.isRemoval = false ∧ change.revision = body.1.captureRevision

theorem uses_toLru (action : CacheAction) (key : BodyCacheKey) :
    action.toLru.Uses key ↔ action.Uses key := by
  cases action <;> exact Iff.rfl

theorem survives_iff {batch : List CaptureChange} {key : BodyCacheKey} :
    survives batch key = true ↔ (∀ change ∈ batch, change.kind ≠ .clear) ∧
      ∀ change, lastAbout batch key.captureId = some change →
        change.kind.isRemoval = false ∧ change.revision = key.captureRevision := by
  unfold survives clears
  rw [Bool.and_eq_true, Bool.not_eq_true', List.any_eq_false, Option.all_eq_true]
  refine and_congr ?_ (forall₂_congr fun change _ => ?_)
  · simp
  · unfold leftRevision
    cases change.kind.isRemoval <;> simp

theorem guarantee_after {capacityBytes : Nat}
    (hcapacity : capacityBytes + capacityBytes ≤ wordMax) (actions : List CacheAction) :
    Guarantee capacityBytes actions (after capacityBytes actions) := by
  have hinsert : ∀ key decoded, decoded.bytes.length ≤ capacityBytes →
      ((after capacityBytes actions).insertDecoded key decoded).contents =
        Lru.shrink bodySize capacityBytes
          (Lru.without (after capacityBytes actions).contents key ++ [(key, decoded)]) := by
    intro key decoded hfits
    have hstep := contents_step hcapacity actions (.insert key decoded)
    have hsmall : ¬ capacityBytes < bodySize decoded := Nat.not_lt.2 hfits
    rw [CacheAction.toLru, Lru.step, if_neg hsmall] at hstep
    exact hstep
  refine ⟨?_, ?_, fun key decoded hfits => ?_, fun key decoded hfits => ?_,
    fun batch body hbody => ?_⟩
  · obtain ⟨hkeep, slots, h, hslots⟩ := after_spec hcapacity actions
    refine h.coherent ?_
    rw [h.bytes, hslots, hkeep]
    exact Lru.total_after_le bodySize capacityBytes _
  · rw [contents_after hcapacity]
    refine (Lru.pairwise_after bodySize capacityBytes _).imp fun {body later} hlater => ?_
    obtain ⟨before, action, after, heq, huses, hunused⟩ := hlater.of_map
    exact ⟨before, action, after, heq, (uses_toLru action _).1 huses,
      fun a ha => mt (uses_toLru a _).2 (hunused a ha)⟩
  · have hsnoc := after_snoc capacityBytes actions (.insert key decoded)
    have hfound := getDecoded_after hcapacity (actions ++ [.insert key decoded]) key decoded
    rw [hsnoc] at hfound
    refine hfound.2 ?_
    change _ ∈ ((after capacityBytes actions).insertDecoded key decoded).contents
    rw [hinsert key decoded hfits]
    exact Lru.mem_shrink_last _ hfits
  · obtain ⟨dropped, heq, -, hleast⟩ := Lru.shrink_spec bodySize capacityBytes
      (Lru.without (after capacityBytes actions).contents key ++ [(key, decoded)])
    rw [← hinsert key decoded hfits] at heq hleast
    exact ⟨dropped, heq, hleast⟩
  · have hstep := contents_step hcapacity actions (.changes batch)
    rw [CacheAction.toLru, Lru.step] at hstep
    change body ∈ ((after capacityBytes actions).step (.changes batch)).contents at hbody
    rw [hstep] at hbody
    exact survives_iff.1 (List.mem_filter.1 hbody).2

end DecodedBodyCache

end Fluxcope.Control
