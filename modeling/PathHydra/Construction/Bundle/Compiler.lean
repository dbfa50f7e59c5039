import PathHydra.Construction.Bundle.Reader

/-!
# The bytes of a routing bundle

What the bundle compiler writes: the topology and the evidence of a partition, the identity tables
and the source directory.
-/

namespace PathHydra

/-- The entry of a segment in the header of its partition. -/
def DecodedSegment.encode (s : DecodedSegment) : Bytes :=
  putU32 s.source ++ putU64 s.firstOrdinal ++ putU32 s.start ++ putU32 s.count ++ putU32 0

namespace DecodedPartition

variable (d : DecodedPartition)

/-- The topology bytes `flush` writes. -/
def encodeTopology : Bytes :=
  putU32 (Fin.ofNat (2 ^ 32) d.segments.length) ++ putU64 (Fin.ofNat (2 ^ 64) d.edges.length) ++
    (d.segments.map DecodedSegment.encode).flatten ++ (d.destinations.map putU32).flatten ++
    (d.relations.map putU32).flatten ++ (d.weights.map putU32).flatten

/-- The evidence bytes `flush` writes. -/
def encodeEvidence : Bytes := (d.edges.map putU64).flatten

end DecodedPartition

/-- The entry of a segment in the source directory. -/
def SegmentDescriptor.encode (s : SegmentDescriptor) : Bytes :=
  putU32 s.source ++ putU32 s.partition ++ putU32 s.localSegment ++ putU64 s.firstEdgeOrdinal ++
    putU32 s.edgeCount

/-- The contents of `identities.bin`. -/
def encodeIdentities (nodes : List NodeId) (relations : List RelationId) : Bytes :=
  (nodes.map fun id => putU64 id.asU64).flatten ++ (relations.map fun id => putU64 id.asU64).flatten

/-- The contents of `source-directory.bin`. -/
def encodeDirectory (sourceOffsets : List U64) (descriptors : List SegmentDescriptor) : Bytes :=
  (sourceOffsets.map putU64).flatten ++ (descriptors.map SegmentDescriptor.encode).flatten

/-- `file_desc`. -/
def fileDesc (checksum : Bytes → Digest) (bytes : Bytes) : FileDescriptor :=
  ⟨Fin.ofNat (2 ^ 64) bytes.length, checksum bytes⟩

/-- The descriptor `flush` records for a partition. -/
def DecodedPartition.describe (checksum : Bytes → Digest) (d : DecodedPartition)
    (id topologyOffset evidenceOffset : ℕ) : PartitionDescriptor where
  id := Fin.ofNat (2 ^ 32) id
  topologyOffset := Fin.ofNat (2 ^ 64) topologyOffset
  topologyLength := Fin.ofNat (2 ^ 64) d.encodeTopology.length
  topologyChecksum := checksum d.encodeTopology
  evidenceOffset := Fin.ofNat (2 ^ 64) evidenceOffset
  evidenceLength := Fin.ofNat (2 ^ 64) d.encodeEvidence.length
  evidenceChecksum := checksum d.encodeEvidence
  segmentCount := Fin.ofNat (2 ^ 32) d.segments.length
  edgeCount := Fin.ofNat (2 ^ 64) d.edges.length

end PathHydra
