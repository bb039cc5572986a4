import Fluxcope.Capture.Change
import Fluxcope.Capture.DecodedBytes
import Fluxcope.Capture.Record
import Fluxcope.Library.Assoc
/-!
# The cache of decoded bodies

Decoded bodies of finished streams are kept for the next page.  A clock stamps
each use; the tree of the stamps tells which body was used least recently.
-/

namespace Fluxcope.Control

open Fluxcope.Library Fluxcope.Capture

/-- 32 MiB -/
def maxTerminalDecodedCacheBytes : Nat := 32 * 1024 * 1024

structure InstanceScope where
  proxyEndpoint : String
  runId : String
  deriving DecidableEq, Repr

structure BodyCacheKey where
  scope : InstanceScope
  captureId : CaptureSequence
  captureRevision : Nat
  side : BodySide
  deriving DecidableEq, Repr

structure DecodedCacheEntry where
  decoded : DecodedBytes
  usedAt : Nat
  deriving DecidableEq

/-- `entries` is the hash map and `lru` the tree. -/
structure DecodedBodyCache where
  capacityBytes : Nat
  bytes : Nat := 0
  clock : Nat := 0
  entries : List (BodyCacheKey × DecodedCacheEntry) := []
  lru : List (Nat × BodyCacheKey) := []
  deriving DecidableEq

namespace DecodedBodyCache

def new (capacityBytes : Nat) : DecodedBodyCache := { capacityBytes }

def getDecoded (cache : DecodedBodyCache) (key : BodyCacheKey) :
    Option DecodedBytes × DecodedBodyCache :=
  match cache.entries.lookup key with
  | none => (none, cache)
  | some entry =>
    let lru := Assoc.erase cache.lru entry.usedAt
    let clock := cache.clock + 1
    (some entry.decoded,
      { cache with
        clock
        entries := Assoc.insert cache.entries key { entry with usedAt := clock }
        lru := Assoc.insertSorted lru clock key })

def remove (cache : DecodedBodyCache) (key : BodyCacheKey) : DecodedBodyCache :=
  match cache.entries.lookup key with
  | none => cache
  | some entry =>
    { cache with
      entries := Assoc.erase cache.entries key
      bytes := cache.bytes - entry.decoded.bytes.length
      lru := Assoc.erase cache.lru entry.usedAt }

/-- The loop of `insert_decoded`. -/
def evictLoop : Nat → DecodedBodyCache → DecodedBodyCache
  | 0, cache => cache
  | fuel + 1, cache =>
    if cache.bytes > cache.capacityBytes then
      match cache.lru with
      | [] => cache
      | (_, oldest) :: lru =>
        match cache.entries.lookup oldest with
        | none => evictLoop fuel { cache with lru }
        | some evicted =>
          evictLoop fuel
            { cache with
              lru
              entries := Assoc.erase cache.entries oldest
              bytes := cache.bytes - evicted.decoded.bytes.length }
    else cache

/-- Every round takes a stamp from the tree, so its size is fuel enough. -/
def insertDecoded (cache : DecodedBodyCache) (key : BodyCacheKey) (decoded : DecodedBytes) :
    DecodedBodyCache :=
  let cache := cache.remove key
  if decoded.bytes.length > cache.capacityBytes then cache
  else
    let clock := cache.clock + 1
    let lru := Assoc.insertSorted cache.lru clock key
    evictLoop lru.length
      { cache with
        clock
        bytes := satAdd cache.bytes decoded.bytes.length
        lru
        entries := Assoc.insert cache.entries key { decoded, usedAt := clock } }

def retain (cache : DecodedBodyCache) (keep : BodyCacheKey → Bool) : DecodedBodyCache :=
  let removed := cache.entries.filter fun entry => !keep entry.1
  { cache with
    entries := cache.entries.filter fun entry => keep entry.1
    bytes := removed.foldl (fun bytes entry => bytes - entry.2.decoded.bytes.length) cache.bytes
    lru := removed.foldl (fun lru entry => Assoc.erase lru entry.2.usedAt) cache.lru }

def clear (cache : DecodedBodyCache) : DecodedBodyCache :=
  { cache with entries := [], lru := [], bytes := 0 }

/-- The captures of a batch with the revision that is left, `none` for a removal. -/
abbrev Invalidated := List (CaptureSequence × Option Nat)

def applyChange (state : DecodedBodyCache × Invalidated) (change : CaptureChange) :
    DecodedBodyCache × Invalidated :=
  match change.kind with
  | .clear => (state.1.clear, [])
  | .retentionEviction | .explicitDelete => (state.1, Assoc.insert state.2 change.sequence none)
  | .admitted | .recordUpdated =>
    (state.1, Assoc.insert state.2 change.sequence (some change.revision))

def Invalidated.spares (invalidated : Invalidated) (key : BodyCacheKey) : Bool :=
  (invalidated.lookup key.captureId).all fun revision =>
    revision.any fun value => key.captureRevision = value

def applyChanges (cache : DecodedBodyCache) (changes : List CaptureChange) : DecodedBodyCache :=
  match changes.foldl applyChange (cache, []) with
  | (cache, invalidated) =>
    if invalidated.isEmpty then cache else cache.retain invalidated.spares

def applyFeedError (cache : DecodedBodyCache) (_error : CaptureChangeError) : DecodedBodyCache :=
  cache.clear

end DecodedBodyCache

/-! ## Sequences of operations -/

inductive CacheAction
  | lookup (key : BodyCacheKey)
  | insert (key : BodyCacheKey) (decoded : DecodedBytes)
  | changes (batch : List CaptureChange)
  | feedError (error : CaptureChangeError)

namespace DecodedBodyCache

def step (cache : DecodedBodyCache) : CacheAction → DecodedBodyCache
  | .lookup key => (cache.getDecoded key).2
  | .insert key decoded => cache.insertDecoded key decoded
  | .changes batch => cache.applyChanges batch
  | .feedError error => cache.applyFeedError error

/-- The cache after a list of operations. -/
def after (capacityBytes : Nat) (actions : List CacheAction) : DecodedBodyCache :=
  actions.foldl step (new capacityBytes)

end DecodedBodyCache

/-- A lookup that finds nothing uses nothing, but then the key is not in the cache. -/
def CacheAction.Uses : CacheAction → BodyCacheKey → Prop
  | .lookup used, key | .insert used _, key => used = key
  | .changes _, _ | .feedError _, _ => False

end Fluxcope.Control
