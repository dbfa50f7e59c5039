import PathHydra.Construction.Routing.Compile
import PathHydra.Construction.Routing.Request
import PathHydra.Construction.Bundle.Manifest

/-!
# Opening a routing bundle

`openBundle` reads the five files of a bundle directory and checks them: lengths and checksums, the
identity tables, the source directory, and every partition against its descriptor and against the
directory.  An opened bundle answers as an image does, either through its partitions (`edgeAt`) or
as a resident image (`toResidentImage`).

The checksum is a parameter.  A file holds fewer than 2^63 bytes.
-/

namespace PathHydra

/-- A directory: its files with their contents. -/
structure BundleDirectory where
  files : List (String × Bytes)
  fits : ∀ f ∈ files, f.2.length < 2 ^ 63

/-- `fs::read`. -/
def BundleDirectory.read (dir : BundleDirectory) (name : String) : Except BundleError Bytes :=
  okOr (.io "file not found") (dir.files.lookup name)

/-! ## Partitions -/

/-- `DecodedSegment`. -/
structure DecodedSegment where
  source : U32
  firstOrdinal : U64
  start : U32
  count : U32
  deriving DecidableEq

/-- `DecodedPartition`. -/
structure DecodedPartition where
  segments : List DecodedSegment
  destinations : List U32
  relations : List U32
  weights : List U32
  edges : List U64
  deriving DecidableEq

/-- One segment of the partition header; its last word is reserved. -/
def readSegment : Reader BundleError DecodedSegment := do
  let source ← Decoder.u32
  let firstOrdinal ← Decoder.u64
  let start ← Decoder.u32
  let count ← Decoder.u32
  let reserved ← Decoder.u32
  if reserved ≠ 0 then Reader.fail (.invalid "partition reserved word is nonzero")
  else return ⟨source, firstOrdinal, start, count⟩

/-- One index below a bound. -/
def readIndex (bound : ℕ) (reason : String) : Reader BundleError U32 := do
  let v ← Decoder.u32
  if bound ≤ v.val then Reader.fail (.invalid reason) else return v

/-- The canonical bits of one weight. -/
def readWeight : Reader BundleError U32 := do
  let v ← Decoder.u32
  if (BaseWeight.fromBits v).isNone then
    Reader.fail (.invalid "base-weight bits are noncanonical")
  else return v

/-- The topology bytes of a partition, field by field. -/
def readTopology (p : PartitionDescriptor) (nodeCount relationCount : ℕ) :
    Reader BundleError (List DecodedSegment × List U32 × List U32 × List U32) := do
  let sc ← Decoder.u32
  let ec ← Decoder.u64
  if sc ≠ p.segmentCount ∨ ec ≠ p.edgeCount ∨ sc = 0 ∨ ec = 0 then
    Reader.fail (.invalid "partition header disagrees with manifest or is empty")
  else do
    let segments ← Decoder.many readSegment sc.val
    let destinations ← Decoder.many
      (readIndex nodeCount "destination index is out of bounds") ec.val
    let relations ← Decoder.many
      (readIndex relationCount "relation index is out of bounds") ec.val
    let weights ← Decoder.many readWeight ec.val
    return (segments, destinations, relations, weights)

/-- The local bounds of the segments, from a position on; the position after the last one. -/
def checkSegments (nodeCount : ℕ) (edges : List U64) :
    List DecodedSegment → ℕ → Except BundleError ℕ
  | [], stop => .ok stop
  | s :: rest, stop =>
    if nodeCount ≤ s.source.val ∨ s.start.val ≠ stop ∨ s.count = 0 then
      .error (.invalid "partition local source bounds are invalid")
    -- the slice of the segment's edges panics when it ends outside
    else if edges.length < s.start.val + s.count.val then .error .noReturn
    else if anyNeighbours (fun a b => decide (b ≤ a))
        ((edges.drop s.start.val).take s.count.val) then
      .error (.invalid "source segment edge IDs are not strictly ascending")
    else checkSegments nodeCount edges rest (stop + s.count.val)

/-- `decode_partition`. -/
def decodePartition (top ev : Bytes) (p : PartitionDescriptor) (nodeCount relationCount : ℕ) :
    Except BundleError DecodedPartition := do
  let (segments, destinations, relations, weights) ←
    Decoder.all (readTopology p nodeCount relationCount) top
  let edges ← Decoder.all (Decoder.many Decoder.u64 p.edgeCount.val) ev
  let stop ← checkSegments nodeCount edges segments 0
  if stop ≠ p.edgeCount.val then
    .error (.invalid "partition segments do not cover every edge")
  else return ⟨segments, destinations, relations, weights, edges⟩

/-- `read_range` on the contents of a file. -/
def readRange (file : Bytes) (offset length : ℕ) : Except BundleError Bytes :=
  let out := (file.drop offset).take length
  if out.length = length then .ok out else .error (.io "failed to fill whole buffer")

/-! ## Opening -/

section Open

variable (checksum : Bytes → Digest) (dir : BundleDirectory)

/-- `validated_file`. -/
def validatedFile (name : String) (descriptor : FileDescriptor) : Except BundleError Bytes := do
  let bytes ← dir.read name
  if bytes.length ≠ descriptor.length.val then .error (.invalid s!"{name} length mismatch")
  else if checksum bytes ≠ descriptor.checksum then
    .error (.invalid s!"{name} checksum mismatch")
  else return bytes

/-- One partition of `validate_ranges`: where the next one starts in both files. -/
def validateRange (m : BundleManifest) (ends : ℕ × ℕ) (p : PartitionDescriptor) :
    Except BundleError (ℕ × ℕ) := do
  if p.topologyOffset.val ≠ ends.1 ∨ p.evidenceOffset.val ≠ ends.2 ∨ p.topologyLength = 0 ∨
      p.evidenceLength = 0 then
    .error (.invalid "partition ranges are empty, unordered, overlapping, or unaligned")
  else do
    let te ← okOr (.invalid "topology range overflow") (checkedAdd64 ends.1 p.topologyLength.val)
    let ee ← okOr (.invalid "evidence range overflow") (checkedAdd64 ends.2 p.evidenceLength.val)
    if m.topology.length.val < te ∨ m.evidence.length.val < ee then
      .error (.invalid "partition range lies outside its file")
    else do
      let topologyFile ← dir.read "topology.bin"
      let topology ← readRange topologyFile p.topologyOffset.val p.topologyLength.val
      let evidenceFile ← dir.read "evidence.bin"
      let evidence ← readRange evidenceFile p.evidenceOffset.val p.evidenceLength.val
      if checksum topology ≠ p.topologyChecksum ∨ checksum evidence ≠ p.evidenceChecksum then
        .error (.invalid "partition region checksum mismatch")
      else return (te, ee)

/-- `validate_ranges`. -/
def validateRanges (m : BundleManifest) : Except BundleError Unit := do
  let (te, ee) ← m.partitions.foldlM (validateRange checksum dir m) (0, 0)
  if te ≠ m.topology.length.val ∨ ee ≠ m.evidence.length.val then
    .error (.invalid "topology or evidence has undeclared trailing bytes")
  else if m.adjacencyCount = 0 ∧
      (m.partitions ≠ [] ∨ m.topology.length ≠ 0 ∨ m.evidence.length ≠ 0) then
    .error (.invalid "empty adjacency has noncanonical partition bytes")
  else return ()

/-- The identity tables of the bundle. -/
def readIdentities (m : BundleManifest) (identities : Bytes) :
    Except BundleError (List NodeId × List RelationId) := do
  let count ← okOr (.invalid "identity length overflow")
    ((checkedAdd64 m.nodeCount.val m.relationKindCount.val).bind (checkedMul64 · 8))
  if count ≠ m.identities.length.val then
    .error (.invalid "identity file length disagrees with counts")
  else do
    let (nodes, relations) ← Decoder.all (do
      let nodes ← Decoder.many Decoder.u64 m.nodeCount.val
      let relations ← Decoder.many Decoder.u64 m.relationKindCount.val
      return (nodes, relations)) identities
    let nodes : List NodeId := nodes.map DurableId.mk
    let relations : List RelationId := relations.map DurableId.mk
    if anyNeighbours (fun a b => decide (b ≤ a)) nodes ||
        anyNeighbours (fun a b => decide (b ≤ a)) relations then
      .error (.invalid "stable identity tables are duplicate or nonascending")
    else return (nodes, relations)

/-- One descriptor of the source directory. -/
def readSegmentDescriptor : Reader BundleError SegmentDescriptor := do
  let source ← Decoder.u32
  let partition ← Decoder.u32
  let localSegment ← Decoder.u32
  let firstEdgeOrdinal ← Decoder.u64
  let edgeCount ← Decoder.u32
  return ⟨source, partition, localSegment, firstEdgeOrdinal, edgeCount⟩

/-- The source directory: the segment offsets of the sources and the segments. -/
def readDirectory (m : BundleManifest) (directory : Bytes) :
    Except BundleError (List U64 × List SegmentDescriptor) := do
  let offsetCount ← okOr (.invalid "source offset count overflow") (checkedAdd64 m.nodeCount.val 1)
  let length ← okOr (.invalid "source directory length overflow") do
    let offsets ← checkedMul64 offsetCount 8
    let segments ← checkedMul64 m.segmentCount.val 24
    checkedAdd64 offsets segments
  if length ≠ m.sourceDirectory.length.val then
    .error (.invalid "source directory length disagrees with counts")
  else Decoder.all (do
    let offsets ← Decoder.many Decoder.u64 offsetCount
    let segments ← Decoder.many readSegmentDescriptor m.segmentCount.val
    return (offsets, segments)) directory

/-- The segments of one source, from an ordinal on: the ordinal after the last edge. -/
def sourceOrdinal (source : ℕ) : List SegmentDescriptor → ℕ → Except BundleError ℕ
  | [], ordinal => .ok ordinal
  | s :: rest, ordinal =>
    if s.source.val ≠ source ∨ s.firstEdgeOrdinal.val ≠ ordinal then
      .error (.invalid "source segments have a mismatch, gap, or overlap")
    else do
      let ordinal ← okOr (.invalid "source edge ordinal overflow")
        (checkedAdd64 ordinal s.edgeCount.val)
      sourceOrdinal source rest ordinal

/-- The slice of the segments between two offsets, which panics when it ends outside. -/
def segmentSlice (segments : List SegmentDescriptor) (first stop : ℕ) :
    Except BundleError (List SegmentDescriptor) :=
  if stop < first ∨ segments.length < stop then .error .noReturn
  else .ok ((segments.take stop).drop first)

/-- The adjacency offsets of the sources, from one source and its offset on. -/
def sourceEdgeOffsetsFrom (offsets : List U64) (segments : List SegmentDescriptor) :
    ℕ → ℕ → ℕ → Except BundleError (List ℕ)
  | _, _, 0 => .ok []
  | source, last, n + 1 =>
    match offsets[source]?, offsets[source + 1]? with
    | some first, some stop => do
      let slice ← segmentSlice segments first.val stop.val
      let ordinal ← sourceOrdinal source slice 0
      let next ← okOr (.invalid "adjacency offset overflow") (checkedAdd64 last ordinal)
      let rest ← sourceEdgeOffsetsFrom offsets segments (source + 1) next n
      return next :: rest
    | _, _ => .error .noReturn

/-- The stored segments of a partition agree with the directory. -/
def checkPartitionSegments (segments : List SegmentDescriptor) (id : U32) :
    List (DecodedSegment × ℕ) → Except BundleError Unit
  | [] => .ok ()
  | (s, index) :: rest =>
    match segments.find? fun v => decide (v.partition = id) && decide (v.localSegment.val = index) with
    | none => .error (.invalid "partition has an extra source segment")
    | some g =>
      if g.source ≠ s.source ∨ g.firstEdgeOrdinal ≠ s.firstOrdinal ∨ g.edgeCount ≠ s.count then
        .error (.invalid "partition and directory segment descriptors disagree")
      else checkPartitionSegments segments id rest

/-- Reads and decodes the bytes of a partition. -/
def readPartitionData (m : BundleManifest) (p : PartitionDescriptor) :
    Except BundleError DecodedPartition := do
  let topologyFile ← dir.read "topology.bin"
  let topology ← readRange topologyFile p.topologyOffset.val p.topologyLength.val
  let evidenceFile ← dir.read "evidence.bin"
  let evidence ← readRange evidenceFile p.evidenceOffset.val p.evidenceLength.val
  decodePartition topology evidence p m.nodeCount.val m.relationKindCount.val

/-- The adjacency offsets of the partitions, from one offset on. -/
def partitionEdgeOffsetsFrom (m : BundleManifest) (segments : List SegmentDescriptor) :
    ℕ → List PartitionDescriptor → Except BundleError (List ℕ)
  | _, [] => .ok []
  | last, p :: rest => do
    let decoded ← readPartitionData dir m p
    checkPartitionSegments segments p.id decoded.segments.zipIdx
    let next ← okOr (.invalid "partition adjacency offset overflow")
      (checkedAdd64 last p.edgeCount.val)
    let tail ← partitionEdgeOffsetsFrom m segments next rest
    return next :: tail

/-- `RoutingBundle`. -/
structure RoutingBundle where
  manifest : BundleManifest
  manifestChecksum : Digest
  nodes : List NodeId
  relations : List RelationId
  sourceSegmentOffsets : List U64
  segments : List SegmentDescriptor
  sourceEdgeOffsets : List ℕ
  partitionEdgeOffsets : List ℕ
  deriving DecidableEq

/-- The files of a bundle. -/
def bundleFiles : List String :=
  ["manifest.bin", "identities.bin", "source-directory.bin", "topology.bin", "evidence.bin"]

/-- The directory holds exactly the files of a bundle. -/
def hasBundleFiles : Bool :=
  decide ((dir.files.map (·.1)).insertionSort (· ≤ ·) = bundleFiles.insertionSort (· ≤ ·))

/-- `open_bundle`. -/
def openBundle : Except BundleError RoutingBundle := do
  if !hasBundleFiles dir then
    .error (.invalid "bundle directory does not contain exactly the current five files")
  else do
    let manifestBytes ← dir.read "manifest.bin"
    let manifest ← BundleManifest.decode manifestBytes
    let identities ← validatedFile checksum dir "identities.bin" manifest.identities
    let directory ← validatedFile checksum dir "source-directory.bin" manifest.sourceDirectory
    let _ ← validatedFile checksum dir "topology.bin" manifest.topology
    let _ ← validatedFile checksum dir "evidence.bin" manifest.evidence
    let (nodes, relations) ← readIdentities manifest identities
    let (offsets, segments) ← readDirectory manifest directory
    validateRanges checksum dir manifest
    if offsets.head? ≠ some 0 ∨ offsets.getLast? ≠ some manifest.segmentCount ∨
        anyNeighbours (fun a b => decide (b < a)) offsets then
      .error (.invalid "source segment offsets are not bounded and monotonic")
    else do
      let sourceTail ← sourceEdgeOffsetsFrom offsets segments 0 0 manifest.nodeCount.val
      let sourceEdgeOffsets := 0 :: sourceTail
      if sourceEdgeOffsets.getLast? ≠ some manifest.adjacencyCount.val then
        .error (.invalid "source segments do not cover every adjacency")
      else do
        let partitionTail ← partitionEdgeOffsetsFrom dir manifest segments 0 manifest.partitions
        let partitionEdgeOffsets := 0 :: partitionTail
        if partitionEdgeOffsets.getLast? ≠ some manifest.adjacencyCount.val then
          .error (.invalid "partition adjacency counts disagree")
        else return ⟨manifest, checksum manifestBytes, nodes, relations, offsets, segments,
          sourceEdgeOffsets, partitionEdgeOffsets⟩

/-! ## An opened bundle as an image -/

namespace RoutingBundle

variable (bundle : RoutingBundle)

/-- `load_partition`, without injected faults. -/
def loadPartition (p : PartitionDescriptor) : Except BundleError DecodedPartition := do
  let topologyFile ← dir.read "topology.bin"
  let topology ← readRange topologyFile p.topologyOffset.val p.topologyLength.val
  let evidenceFile ← dir.read "evidence.bin"
  let evidence ← readRange evidenceFile p.evidenceOffset.val p.evidenceLength.val
  if checksum topology ≠ p.topologyChecksum ∨ checksum evidence ≠ p.evidenceChecksum then
    .error (.invalid "partition checksum mismatch")
  else
    decodePartition topology evidence p bundle.manifest.nodeCount.val
      bundle.manifest.relationKindCount.val

/-- One edge of a decoded partition as the columns of an image hold it. -/
structure ImageColumns where
  destinations : List U32
  relationIds : List RelationId
  relationIndexes : List U32
  weights : List U32
  edges : List EdgeId

/-- Appends the edge at a local index. -/
def pushEdge (decoded : DecodedPartition) (columns : ImageColumns) (i : ℕ) :
    Except BundleError ImageColumns :=
  match decoded.destinations[i]?, decoded.relations[i]?, decoded.weights[i]?, decoded.edges[i]? with
  | some destination, some relation, some weight, some edge => do
    let relationId ← okOr (.invalid "relation index out of bounds") bundle.relations[relation.val]?
    return ⟨columns.destinations ++ [destination], columns.relationIds ++ [relationId],
      columns.relationIndexes ++ [relation], columns.weights ++ [weight],
      columns.edges ++ [⟨edge⟩]⟩
  | _, _, _, _ => .error .noReturn

/-- Appends the edges of one partition. -/
def pushPartition (columns : ImageColumns) (p : PartitionDescriptor) :
    Except BundleError ImageColumns := do
  let decoded ← bundle.loadPartition checksum dir p
  (List.range decoded.edges.length).foldlM (bundle.pushEdge decoded) columns

/-- The text of the only error an image manifest gives. -/
def compileErrorText : CompileError → String
  | .countOverflow structureName => s!"routing image {structureName} count overflow"
  | _ => ""

/-- `to_resident_image`. -/
def toResidentImage : Except BundleError RoutingImage := do
  let columns ← bundle.manifest.partitions.foldlM (bundle.pushPartition checksum dir)
    ⟨[], [], [], [], []⟩
  match PathHydra.manifest bundle.nodes.length bundle.relations.length columns.edges.length with
  | .error e => .error (.invalid (compileErrorText e))
  | .ok manifest => return {
      externalToDense := denseMapping bundle.nodes
      denseToExternal := bundle.nodes
      offsets := bundle.sourceEdgeOffsets
      destinations := columns.destinations
      relationIds := columns.relationIds
      relationIndexes := columns.relationIndexes
      baseWeightBits := columns.weights
      edgeIds := columns.edges
      confirmedRelationIds := bundle.relations
      manifest := manifest }

/-- `outgoing_range`; indexing outside the table panics. -/
def outgoingRange (source : DenseNodeId) : Option (ℕ × ℕ) := do
  let start ← bundle.sourceEdgeOffsets[source.asUsize]?
  let stop ← bundle.sourceEdgeOffsets[source.asUsize + 1]?
  return (start, stop)

/-- Where an adjacency index is stored: its partition and its place there. -/
def locate (index : ℕ) : ℕ × ℕ :=
  let partition := (bundle.partitionEdgeOffsets.takeWhile fun v => decide (v ≤ index)).length - 1
  (partition, index - bundle.partitionEdgeOffsets.getD partition 0)

/-- The edge at a place of a decoded partition. -/
def edgeOf (decoded : DecodedPartition) (i : ℕ) : Except RoutingError OutgoingEdge :=
  match decoded.relations[i]?, decoded.edges[i]?, decoded.destinations[i]?, decoded.weights[i]? with
  | some relation, some edge, some destination, some bits =>
    match bundle.relations[relation.val]? with
    | none => .error .noReturn
    | some relationId => do
      let weight ← okOr (.imageAccess "cached weight became invalid") (BaseWeight.fromBits bits)
      return ⟨⟨edge⟩, ⟨destination⟩, relationId, weight, relation⟩
  | _, _, _, _ => .error .noReturn

/-- The edge stored at a place. -/
def storedEdge (place : ℕ × ℕ) : Except RoutingError OutgoingEdge :=
  match bundle.manifest.partitions[place.1]? with
  | none => .error .noReturn
  | some p =>
    match bundle.loadPartition checksum dir p with
    | .error _ => .error (.imageAccess "partition load failed")
    | .ok decoded => bundle.edgeOf decoded place.2

/-- `edge_at` on a cache that hands out what `load_partition` returns. -/
def edgeAt (index : ℕ) : Except RoutingError OutgoingEdge :=
  bundle.storedEdge checksum dir (bundle.locate index)

end RoutingBundle

end Open

end PathHydra
