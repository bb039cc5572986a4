import Fluxcope.Library.Utf8Text
import Fluxcope.Capture.Metadata
import Fluxcope.Capture.Change
import Fluxcope.Library.Arena
import Fluxcope.Library.Assoc
import Fluxcope.Library.Machine
/-!
# The request tree

The path of a capture in the tree is its origin, the segments of its URL but the last, and its
sequence number.  The URL parser is a parameter: it yields the parts of an absolute URL.
-/

namespace Fluxcope.Requests

open Fluxcope.Library Fluxcope.Library.Utf8 Fluxcope.Capture

def originIdentifierPrefix : Bytes := ofAscii "origin:"
def segmentIdentifierPrefix : Bytes := ofAscii "segment:"
def requestIdentifierPrefix : Bytes := ofAscii "request:"

def originIdentifier (origin : Bytes) : Bytes := originIdentifierPrefix ++ origin
def segmentIdentifier (segment : Bytes) : Bytes := segmentIdentifierPrefix ++ segment
def requestIdentifier (sequence : CaptureSequence) : Bytes :=
  requestIdentifierPrefix ++ decimal sequence

/-- A parsed URL; the port is `none` when it is the default one of the scheme. -/
structure Url where
  scheme : Bytes
  host : Option Bytes
  port : Option Nat
  path : Bytes
  query : Option Bytes
  deriving DecidableEq, Repr

structure RequestTreeEntry where
  origin : Bytes
  segments : List Bytes
  requestSequence : CaptureSequence
  deriving DecidableEq, Repr

def parentSegments (segments : List Bytes) : List Bytes := segments.dropLast

namespace RequestTreeEntry

def parentPath (entry : RequestTreeEntry) : List Bytes :=
  originIdentifier entry.origin :: (parentSegments entry.segments).map segmentIdentifier

def requestPath (entry : RequestTreeEntry) : List Bytes :=
  entry.parentPath ++ [requestIdentifier entry.requestSequence]

/-- The loop pushes one more segment each time. -/
def branchPaths (entry : RequestTreeEntry) : List (List Bytes) :=
  let path := [originIdentifier entry.origin]
  ((parentSegments entry.segments).foldl
    (fun (path, branches) segment =>
      let path := path ++ [segmentIdentifier segment]
      (path, branches ++ [path]))
    (path, [path])).2

end RequestTreeEntry

def unknownHost : Bytes := ofAscii "(unknown host)"

def absoluteUrlOrigin (url : Url) : Bytes :=
  let host := url.host.getD unknownHost
  match url.port with
  | some port => url.scheme ++ ofAscii "://" ++ host ++ ofAscii ":" ++ decimal port
  | none => url.scheme ++ ofAscii "://" ++ host

def requestHeaderSlice (headers : HeaderFields) (name : Bytes) : Option Bytes :=
  (headers.find? fun (key, value) => eqIgnoreAsciiCase key name && !value.isEmpty).map Prod.snd

def slash : UInt8 := 0x2F
def questionMark : UInt8 := 0x3F

def pathSegmentsWithQuery (path : Bytes) (query : Option Bytes) : List Bytes :=
  let segments :=
    ((path.dropWhile (· = slash)).splitOn slash).filter fun segment => !segment.isEmpty
  match segments.getLast?, query with
  | some last, some query => segments.dropLast ++ [last ++ questionMark :: query]
  | none, some query => [questionMark :: query]
  | none, none => [[slash]]
  | some _, none => segments

/-- `str::split_once` at a question mark. -/
def splitQuery (uri : Bytes) : Bytes × Option Bytes :=
  match uri.dropWhile (· ≠ questionMark) with
  | [] => (uri, none)
  | _ :: query => (uri.takeWhile (· ≠ questionMark), some query)

/-- What the tree reads of a capture. -/
structure CaptureSummary where
  sequence : CaptureSequence
  request : RequestMetadata
  deriving DecidableEq, Repr

/-- `From<&CaptureSummary>`; the display URI is the effective one. -/
def RequestTreeEntry.ofSummary (parse : Bytes → Option Url) (capture : CaptureSummary) :
    RequestTreeEntry :=
  let request := capture.request
  let displayUri := request.effectiveUri
  let (origin, segments) :=
    match (parse displayUri).filter fun url => url.host.isSome with
    | some url => (absoluteUrlOrigin url, pathSegmentsWithQuery url.path url.query)
    | none =>
      let origin :=
        ((requestHeaderSlice request.headers (ofAscii "host")).map fun host =>
          ofAscii "https://" ++ host).getD unknownHost
      let (path, query) := splitQuery displayUri
      (origin, pathSegmentsWithQuery path query)
  { origin, segments, requestSequence := capture.sequence }

/-- `str::parse` for a `u64`: digits after an optional plus sign. -/
def parseSequence (text : Bytes) : Option CaptureSequence :=
  let digits := if text.head? = some 0x2B then text.tail else text
  if digits.isEmpty || digits.any fun b => b < 0x30 || 0x39 < b then none
  else
    let value := digits.foldl (fun value b => value * 10 + (b.toNat - 0x30)) 0
    if value ≤ wordMax then some value else none

def selectedRequestSequence (path : List Bytes) : Option CaptureSequence := do
  let last ← path.getLast?
  let text ← if requestIdentifierPrefix.isPrefixOf last then
    some (last.drop requestIdentifierPrefix.length) else none
  parseSequence text

/-! ## Identifiers -/

/-- A branch is named after its label. -/
def branchIdentifier (parent : Option Nat) (label : Bytes) : Bytes :=
  match parent with
  | none => originIdentifier label
  | some _ => segmentIdentifier label

theorem branchIdentifier_inj {parent : Option Nat} {label other : Bytes}
    (h : branchIdentifier parent label = branchIdentifier parent other) : label = other := by
  cases parent <;> exact List.append_cancel_left h

theorem requestIdentifier_inj {sequence other : CaptureSequence}
    (h : requestIdentifier sequence = requestIdentifier other) : sequence = other :=
  decimal_inj (List.append_cancel_left h)

/-- The first byte tells a request from a branch. -/
theorem branchIdentifier_ne_request (parent : Option Nat) (label : Bytes)
    (sequence : CaptureSequence) : branchIdentifier parent label ≠ requestIdentifier sequence := by
  intro h
  have hrequest : (requestIdentifier sequence).head? = some 0x72 := rfl
  have hhead := (congrArg List.head? h).trans hrequest
  cases parent with
  | none =>
    have horigin : (branchIdentifier none label).head? = some 0x6F := rfl
    rw [horigin] at hhead
    cases hhead
  | some parent =>
    have hsegment : (branchIdentifier (some parent) label).head? = some 0x73 := rfl
    rw [hsegment] at hhead
    cases hhead

/-!
## The model

Captures are grouped by origin and path segments.  The nodes are kept in one vector and
refer to each other by their indices; a hash of the path of a node finds it again.
-/

/-- An index into the nodes. -/
abbrev RequestNodeId := Nat

inductive RequestNodeKind
  | origin
  | path
  | capture (sequence : CaptureSequence)
  deriving DecidableEq, Repr

structure RequestNode where
  identifier : Bytes
  label : Bytes
  kind : RequestNodeKind
  parent : Option RequestNodeId
  children : List RequestNodeId
  branchChildren : Nat
  leafCount : Nat
  deriving DecidableEq, Repr

inductive PathHashEntry
  | one (id : RequestNodeId)
  | collision (ids : List RequestNodeId)
  deriving DecidableEq, Repr

namespace PathHashEntry

def push (entry : PathHashEntry) (id : RequestNodeId) : PathHashEntry :=
  match entry with
  | one first => collision [first, id]
  | collision ids => collision (ids ++ [id])

def ids : PathHashEntry → List RequestNodeId
  | one id => [id]
  | collision ids => ids

end PathHashEntry

structure RequestTreeModel where
  roots : List RequestNodeId := []
  nodes : List RequestNode := []
  logicalPositions : List Nat := []
  nodesByPathHash : List (UInt64 × PathHashEntry) := []
  deriving DecidableEq, Repr

/-! ## Hashes of paths -/

def pathHashOffset : UInt64 := 0xcbf29ce484222325
def pathHashPrime : UInt64 := 0x00000100000001b3

/-- The eight bytes of a length, the lowest first. -/
def lengthBytes (length : Nat) : Bytes :=
  (List.range 8).map fun i => UInt8.ofNat (length / 256 ^ i)

def extendPathHash (hash : UInt64) (identifier : Bytes) : UInt64 :=
  (lengthBytes identifier.length ++ identifier).foldl
    (fun hash byte => (hash ^^^ byte.toUInt64) * pathHashPrime) hash

def hashPath (identifiers : List Bytes) : UInt64 :=
  identifiers.foldl extendPathHash pathHashOffset

/-! ## Nodes -/

namespace RequestTreeModel

def noNode : RequestNode :=
  { identifier := [], label := [], kind := .path, parent := none, children := []
    branchChildren := 0, leafCount := 0 }

/-- `self.nodes[id]`; the indices that occur are in range. -/
def node (model : RequestTreeModel) (id : RequestNodeId) : RequestNode :=
  model.nodes[id]?.getD noNode

def modifyNode (model : RequestTreeModel) (id : RequestNodeId) (f : RequestNode → RequestNode) :
    RequestTreeModel :=
  { model with nodes := model.nodes.modify id f }

def nodeLimit : Nat := 2 ^ 32

/-- `none` where the source panics, when the index does not fit. -/
def pushNode (model : RequestTreeModel) (node : RequestNode) :
    Option (RequestNodeId × RequestTreeModel) :=
  if model.nodes.length < nodeLimit then
    some (model.nodes.length, { model with nodes := model.nodes ++ [node] })
  else none

/-! ## Positions and the hash index -/

structure SearchIndex where
  nextPosition : Nat
  logicalPositions : List Nat
  nodesByPathHash : List (UInt64 × PathHashEntry)

/-- The entry of a map, changed if it is there and made if it is not. -/
def pushPathHash (map : List (UInt64 × PathHashEntry)) (hash : UInt64) (id : RequestNodeId) :
    List (UInt64 × PathHashEntry) :=
  match map.lookup hash with
  | some _ => Assoc.modify map hash fun entry => entry.push id
  | none => (hash, .one id) :: map

def SearchIndex.place (index : SearchIndex) (id : RequestNodeId) (pathHash : UInt64) :
    SearchIndex :=
  { nextPosition := satAdd index.nextPosition 1
    logicalPositions := index.logicalPositions.set id index.nextPosition
    nodesByPathHash := pushPathHash index.nodesByPathHash pathHash id }

/-- The recursion goes one level down each time. -/
def indexNodes (model : RequestTreeModel) :
    Nat → List RequestNodeId → UInt64 → SearchIndex → SearchIndex
  | 0, _, _, index => index
  | depth + 1, ids, parentHash, index =>
    ids.foldl
      (fun index id =>
        let node := model.node id
        let pathHash := extendPathHash parentHash node.identifier
        indexNodes model depth node.children pathHash (index.place id pathHash))
      index

def rebuildSearchIndex (model : RequestTreeModel) : RequestTreeModel :=
  let index := model.indexNodes model.nodes.length model.roots pathHashOffset
    { nextPosition := 0
      logicalPositions := List.replicate model.nodes.length 0
      nodesByPathHash := [] }
  { model with
    logicalPositions := index.logicalPositions
    nodesByPathHash := index.nodesByPathHash }

end RequestTreeModel

/-! ## Building -/

/-- The model with the map of the branches that are there. -/
structure RequestTreeBuilder where
  model : RequestTreeModel := {}
  branches : List ((Option RequestNodeId × Bytes) × RequestNodeId) := []

namespace RequestTreeBuilder

/-- A new branch stands behind the other branches and in front of the captures. -/
def insertBranch (model : RequestTreeModel) (parent : Option RequestNodeId)
    (id : RequestNodeId) : RequestTreeModel :=
  match parent with
  | some parent =>
    model.modifyNode parent fun node =>
      { node with
        children := node.children.insertIdx node.branchChildren id
        branchChildren := node.branchChildren + 1 }
  | none => { model with roots := model.roots ++ [id] }

def branchMutOrInsert (builder : RequestTreeBuilder) (parent : Option RequestNodeId)
    (label : Bytes) (kind : RequestNodeKind) : Option (RequestNodeId × RequestTreeBuilder) :=
  match builder.branches.lookup (parent, label) with
  | some node => some (node, builder)
  | none => do
      let identifier ←
        match kind with
        | .origin => some (originIdentifier label)
        | .path => some (segmentIdentifier label)
        | .capture _ => none
      let (id, model) ← builder.model.pushNode
        { identifier, label, kind, parent, children := [], branchChildren := 0, leafCount := 0 }
      some (id,
        { model := insertBranch model parent id
          branches := ((parent, label), id) :: builder.branches })

/-- The branch, with one more leaf under it. -/
def enterBranch (builder : RequestTreeBuilder) (parent : Option RequestNodeId) (label : Bytes)
    (kind : RequestNodeKind) : Option (RequestNodeId × RequestTreeBuilder) := do
  let (id, builder) ← builder.branchMutOrInsert parent label kind
  some (id,
    { builder with
      model := builder.model.modifyNode id fun node =>
        { node with leafCount := node.leafCount + 1 } })

def insertCapture (builder : RequestTreeBuilder) (parent : RequestNodeId) (label : Bytes)
    (sequence : CaptureSequence) : Option RequestTreeBuilder := do
  let (id, model) ← builder.model.pushNode
    { identifier := requestIdentifier sequence
      label
      kind := .capture sequence
      parent := some parent
      children := []
      branchChildren := 0
      leafCount := 1 }
  some
    { builder with
      model := model.modifyNode parent fun node => { node with children := node.children ++ [id] } }

/-- The segments of a path, from a branch down. -/
def enterSegments (builder : RequestTreeBuilder) (parent : RequestNodeId) :
    List Bytes → Option (RequestNodeId × RequestTreeBuilder)
  | [] => some (parent, builder)
  | segment :: segments => do
      let (parent, builder) ← builder.enterBranch (some parent) segment .path
      enterSegments builder parent segments

def insertEntry (builder : RequestTreeBuilder) (entry : RequestTreeEntry) :
    Option RequestTreeBuilder := do
  let (parent, builder) ← builder.enterBranch none entry.origin .origin
  let (parent, builder) ← builder.enterSegments parent (parentSegments entry.segments)
  builder.insertCapture parent (entry.segments.getLast?.getD [slash]) entry.requestSequence

def insertEntries (builder : RequestTreeBuilder) : List RequestTreeEntry → Option RequestTreeBuilder
  | [] => some builder
  | entry :: entries => do
      let builder ← builder.insertEntry entry
      insertEntries builder entries

end RequestTreeBuilder

namespace RequestTreeModel

def fromEntries (entries : List RequestTreeEntry) : Option RequestTreeModel :=
  (RequestTreeBuilder.insertEntries {} entries).map fun builder => builder.model.rebuildSearchIndex

def fromRequests (parse : Bytes → Option Url) (requests : List CaptureSummary) :
    Option RequestTreeModel :=
  fromEntries (requests.map fun capture => RequestTreeEntry.ofSummary parse capture)

/-! ## Reading -/

def findFrom (model : RequestTreeModel) (siblings : List RequestNodeId)
    (found : Option RequestNodeId) : List Bytes → Option RequestNodeId
  | [] => found
  | identifier :: path =>
    match siblings.find? fun id => (model.node id).identifier = identifier with
    | none => none
    | some id => model.findFrom (model.node id).children (some id) path

def find (model : RequestTreeModel) (path : List Bytes) : Option RequestNodeId :=
  model.findFrom model.roots none path

/-- The identifiers come from the last one to the first. -/
def nodeMatchesReversed (model : RequestTreeModel) : RequestNodeId → List Bytes → Bool
  | _, [] => false
  | id, identifier :: identifiers =>
    let node := model.node id
    identifier = node.identifier &&
      match node.parent with
      | none => identifiers.isEmpty
      | some parent => model.nodeMatchesReversed parent identifiers

def nodeMatchesPath (model : RequestTreeModel) (id : RequestNodeId) (path : List Bytes) : Bool :=
  model.nodeMatchesReversed id path.reverse

def logicalPosition (model : RequestTreeModel) (path : List Bytes) : Option Nat := do
  let entry ← model.nodesByPathHash.lookup (hashPath path)
  let id ← entry.ids.find? fun id => model.nodeMatchesPath id path
  model.logicalPositions[id]?

def contains (model : RequestTreeModel) (path : List Bytes) : Bool :=
  (model.logicalPosition path).isSome

def isEmpty (model : RequestTreeModel) : Bool := model.nodes.isEmpty

def collectSequences (model : RequestTreeModel) : Nat → RequestNodeId → List CaptureSequence
  | 0, _ => []
  | depth + 1, id =>
    let node := model.node id
    match node.kind with
    | .capture sequence => [sequence]
    | .origin | .path => node.children.flatMap fun child => model.collectSequences depth child

def sequencesUnder (model : RequestTreeModel) (path : List Bytes) : List CaptureSequence :=
  match model.find path with
  | none => []
  | some root => model.collectSequences model.nodes.length root

def collectVisible (model : RequestTreeModel) (opened : List (List Bytes)) :
    Nat → List RequestNodeId → List Bytes → List (List Bytes)
  | 0, _, _ => []
  | depth + 1, ids, path =>
    ids.flatMap fun id =>
      let node := model.node id
      let path := path ++ [node.identifier]
      path :: if path ∈ opened then model.collectVisible opened depth node.children path else []

def visiblePaths (model : RequestTreeModel) (openedPaths : List (List Bytes)) : List (List Bytes) :=
  model.collectVisible openedPaths model.nodes.length model.roots []

def collectBranchPaths (model : RequestTreeModel) :
    Nat → List RequestNodeId → List Bytes → List (List Bytes)
  | 0, _, _ => []
  | depth + 1, ids, path =>
    ids.flatMap fun id =>
      let node := model.node id
      let path := path ++ [node.identifier]
      match node.kind with
      | .capture _ => []
      | .origin | .path => path :: model.collectBranchPaths depth node.children path

def branchPaths (model : RequestTreeModel) : List (List Bytes) :=
  model.collectBranchPaths model.nodes.length model.roots []

/-- From a node up to its root. -/
def pathReversed (model : RequestTreeModel) : Nat → RequestNodeId → List Bytes
  | 0, _ => []
  | height + 1, id =>
    let node := model.node id
    node.identifier ::
      match node.parent with
      | none => []
      | some parent => model.pathReversed height parent

def path (model : RequestTreeModel) (id : RequestNodeId) : List Bytes :=
  (model.pathReversed model.nodes.length id).reverse

def neighboringPaths (model : RequestTreeModel) (path : List Bytes) :
    Option (List Bytes) × Option (List Bytes) :=
  match model.find path with
  | none => (none, none)
  | some id =>
    let siblings :=
      match (model.node id).parent with
      | some parent => (model.node parent).children
      | none => model.roots
    if id ∈ siblings then
      let index := siblings.idxOf id
      let previous := if index = 0 then none else siblings[index - 1]?
      let next := siblings[index + 1]?
      (previous.map model.path, next.map model.path)
    else (none, none)

end RequestTreeModel

end Fluxcope.Requests
