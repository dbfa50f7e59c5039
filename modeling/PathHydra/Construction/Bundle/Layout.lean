import PathHydra.Construction.Core

/-!
# Layout of a routing bundle

The descriptors a bundle is made of.  A bundle stores the adjacency of an image as a sequence of
partitions; a partition holds consecutive segments, a segment consecutive edges of one source.
-/

namespace PathHydra

/-- `SegmentDescriptor`. -/
structure SegmentDescriptor where
  source : U32
  partition : U32
  localSegment : U32
  firstEdgeOrdinal : U64
  edgeCount : U32
  deriving DecidableEq

/-- `PartitionDescriptor`. -/
structure PartitionDescriptor where
  id : U32
  topologyOffset : U64
  topologyLength : U64
  topologyChecksum : Digest
  evidenceOffset : U64
  evidenceLength : U64
  evidenceChecksum : Digest
  segmentCount : U32
  edgeCount : U64
  deriving DecidableEq

end PathHydra
