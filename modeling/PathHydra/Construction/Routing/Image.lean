import PathHydra.Framework.Outcome
import PathHydra.Construction.Core

/-!
# Routing images

A routing image is the immutable compressed-sparse-row form of the confirmed graph that a search
reads: the sorted node identifiers with their dense numbering, one offset per dense node, and
five parallel arrays with one entry per outgoing edge.  This file has the image, its manifest and
its accessors.

Arrays are lists here and an index is a natural number.  `RoutingImage.edgeAt` is undefined where
the program's slice indexing would panic.
-/

namespace PathHydra

/-- `CompileError`. -/
inductive CompileError
  | tooManyNodes (count : ℕ)
  | duplicateNodeId (id : NodeId)
  | duplicateRelationId (id : RelationId)
  | duplicateEdgeId (id : EdgeId)
  | missingEndpoint (edge : EdgeId) (node : NodeId)
  | missingRelationKind (edge : EdgeId) (relation : RelationId)
  | invalidBaseWeight (edge : EdgeId)
  | countOverflow (structureName : String)
  | topologyLimitExceeded (required limit : ℕ)
  | invalidImage (reason : String)
  deriving DecidableEq

/-! ## Dense node identifiers -/

/-- The position of a node in the image's sorted node table. -/
structure DenseNodeId where
  asU32 : U32
  deriving DecidableEq, Repr

namespace DenseNodeId

/-- The identifier as an array index. -/
def asUsize (d : DenseNodeId) : ℕ := d.asU32.val

lemma asUsize_injective : Function.Injective asUsize := by
  rintro ⟨a⟩ ⟨b⟩ h
  exact congrArg _ (Fin.ext h)

instance : LinearOrder DenseNodeId := LinearOrder.lift' asUsize asUsize_injective

lemma lt_def {a b : DenseNodeId} : a < b ↔ a.asUsize < b.asUsize := Iff.rfl

/-- The truncating cast of an index to a dense identifier. -/
def ofNat (n : ℕ) : DenseNodeId := ⟨Fin.ofNat (2 ^ 32) n⟩

lemma asUsize_ofNat {n : ℕ} (h : n < 2 ^ 32) : (ofNat n).asUsize = n :=
  Nat.mod_eq_of_lt h

end DenseNodeId

/-! ## Manifests -/

def NUMERIC_POLICY_ID : String := "binary32-operands-separate-binary64-v1"
def TIE_POLICY_ID : String := "distance-dense-node-stable-predecessor-v1"

/-- Widths in bytes of the array elements. -/
structure ElementWidths where
  denseNodeId : ℕ
  nodeId : ℕ
  offset : ℕ
  relationId : ℕ
  relationIndex : ℕ
  baseWeight : ℕ
  edgeId : ℕ
  deriving DecidableEq

/-- Logical payload of each array in bytes. -/
structure ImageByteCounts where
  externalToDense : ℕ
  denseToExternal : ℕ
  offsets : ℕ
  destinations : ℕ
  relationIds : ℕ
  relationIndexes : ℕ
  baseWeights : ℕ
  edgeIds : ℕ
  confirmedRelationIds : ℕ
  deriving DecidableEq

/-- `ImageByteCounts::checked_total`. -/
def ImageByteCounts.checkedTotal (c : ImageByteCounts) : Option ℕ := do
  let total ← checkedAdd64 c.externalToDense c.denseToExternal
  let total ← checkedAdd64 total c.offsets
  let total ← checkedAdd64 total c.destinations
  let total ← checkedAdd64 total c.relationIds
  let total ← checkedAdd64 total c.relationIndexes
  let total ← checkedAdd64 total c.baseWeights
  let total ← checkedAdd64 total c.edgeIds
  checkedAdd64 total c.confirmedRelationIds

/-- Counts, widths and policies of an image. -/
structure RoutingImageManifest where
  numericPolicy : String
  tiePolicy : String
  nodeCount : ℕ
  relationKindCount : ℕ
  adjacencyCount : ℕ
  elementWidths : ElementWidths
  byteCounts : ImageByteCounts
  predecessorEdgeIdsPresent : Bool
  deriving DecidableEq

/-- The byte size of `count` elements of one width. -/
def manifestBytes (count width : ℕ) : Except CompileError ℕ :=
  okOr (.countOverflow "byte") (checkedMul64 count width)

/-- `image::manifest`. -/
def manifest (nodeCount relationKindCount adjacencyCount : ℕ) :
    Except CompileError RoutingImageManifest := do
  let offsetCount ← okOr (.countOverflow "offset") (checkedAdd64 nodeCount 1)
  let byteCounts : ImageByteCounts := {
    externalToDense := ← manifestBytes nodeCount 16
    denseToExternal := ← manifestBytes nodeCount 8
    offsets := ← manifestBytes offsetCount 8
    destinations := ← manifestBytes adjacencyCount 4
    relationIds := ← manifestBytes adjacencyCount 8
    relationIndexes := ← manifestBytes adjacencyCount 4
    baseWeights := ← manifestBytes adjacencyCount 4
    edgeIds := ← manifestBytes adjacencyCount 8
    confirmedRelationIds := ← manifestBytes relationKindCount 8 }
  return {
    numericPolicy := NUMERIC_POLICY_ID
    tiePolicy := TIE_POLICY_ID
    nodeCount := nodeCount
    relationKindCount := relationKindCount
    adjacencyCount := adjacencyCount
    elementWidths := ⟨4, 8, 8, 8, 4, 4, 8⟩
    byteCounts := byteCounts
    predecessorEdgeIdsPresent := true }

/-! ## The image -/

/-- One outgoing edge as a search reads it. -/
structure OutgoingEdge where
  edgeId : EdgeId
  destination : DenseNodeId
  relationId : RelationId
  baseWeight : BaseWeight
  relationIndex : U32
  deriving DecidableEq

/-- The resident image. -/
structure RoutingImage where
  externalToDense : List (NodeId × DenseNodeId)
  denseToExternal : List NodeId
  offsets : List ℕ
  destinations : List U32
  relationIds : List RelationId
  relationIndexes : List U32
  baseWeightBits : List U32
  edgeIds : List EdgeId
  confirmedRelationIds : List RelationId
  manifest : RoutingImageManifest
  deriving DecidableEq

/-- `binary_search` on a strictly ascending slice: the position of the value. -/
def binarySearch {α : Type*} [DecidableEq α] (xs : List α) (x : α) : Option ℕ :=
  xs.findIdx? (fun y => decide (y = x))

namespace RoutingImage

variable (image : RoutingImage)

def nodeCount : ℕ := image.denseToExternal.length

def relationKindCount : ℕ := image.confirmedRelationIds.length

def adjacencyCount : ℕ := image.edgeIds.length

/-- `dense_node_id`: a binary search of the sorted mapping by its external key. -/
def denseNodeId (external : NodeId) : Option DenseNodeId := do
  let index ← binarySearch (image.externalToDense.map (·.1)) external
  let entry ← image.externalToDense[index]?
  return entry.2

def externalNodeId (dense : DenseNodeId) : Option NodeId :=
  image.denseToExternal[dense.asUsize]?

/-- `outgoing_range`: the half-open range of adjacency indexes that leave a node. -/
def outgoingRange (source : DenseNodeId) : Option (ℕ × ℕ) := do
  let start ← image.offsets[source.asUsize]?
  let stop ← image.offsets[source.asUsize + 1]?
  return (start, stop)

/-- `edge_at`. -/
def edgeAt (index : ℕ) : Option OutgoingEdge := do
  let edgeId ← image.edgeIds[index]?
  let destination ← image.destinations[index]?
  let relationId ← image.relationIds[index]?
  let bits ← image.baseWeightBits[index]?
  let baseWeight ← BaseWeight.fromBits bits
  let relationIndex ← image.relationIndexes[index]?
  return ⟨edgeId, ⟨destination⟩, relationId, baseWeight, relationIndex⟩

end RoutingImage

end PathHydra
