import Mathlib.Data.List.Sort
import PathHydra.Construction.Routing.Image

/-!
# The in-memory image compiler

`compileRoutingImage` builds a resident image from confirmed records: it sorts and checks the
three identifier columns, files every edge under its dense source, orders each source's edges by
edge identifier, lays the buckets out in compressed-sparse-row form and validates the result.
-/

namespace PathHydra

/-- An edge filed under its source. -/
structure CompiledEdge where
  destination : DenseNodeId
  relation : RelationId
  baseWeight : BaseWeight
  edge : EdgeId
  deriving DecidableEq

/-- `sort_unstable` on identifiers. -/
def sortIds {k : IdKind} (ids : List (DurableId k)) : List (DurableId k) :=
  ids.insertionSort (· ≤ ·)

/-- `reject_duplicate`: the first two equal neighbours are an error. -/
def rejectDuplicate {α : Type} [DecidableEq α] (error : α → CompileError) :
    List α → Except CompileError Unit
  | a :: b :: rest => if a = b then .error (error a) else rejectDuplicate error (b :: rest)
  | _ => .ok ()

/-- `validate_node_count`. -/
def validateNodeCount (count : ℕ) : Except CompileError Unit :=
  if count < 2 ^ 32 then .ok () else .error (.tooManyNodes count)

/-- The dense numbering of the sorted node identifiers. -/
def denseMapping (nodeIds : List NodeId) : List (NodeId × DenseNodeId) :=
  nodeIds.zipIdx.map fun (external, dense) => (external, DenseNodeId.ofNat dense)

/-- `find_dense`. -/
def findDense (mapping : List (NodeId × DenseNodeId)) (id : NodeId) : Option DenseNodeId := do
  let index ← binarySearch (mapping.map (·.1)) id
  let entry ← mapping[index]?
  return entry.2

/-- One edge of the filing loop: its endpoints and relation kind are resolved, and it is appended
to the bucket of its source. -/
def fileEdge (mapping : List (NodeId × DenseNodeId)) (relationIds : List RelationId)
    (acc : List (List CompiledEdge) × ℕ) (edge : EdgeRecord) :
    Except CompileError (List (List CompiledEdge) × ℕ) := do
  let source ← okOr (.missingEndpoint edge.id edge.source) (findDense mapping edge.source)
  let destination ← okOr (.missingEndpoint edge.id edge.destination)
    (findDense mapping edge.destination)
  let _ ← okOr (.missingRelationKind edge.id edge.relationKind)
    (binarySearch relationIds edge.relationKind)
  let baseWeight ← okOr (.invalidBaseWeight edge.id)
    (BaseWeight.fromBits edge.baseWeight.toBits)
  let counted ← okOr (.countOverflow "adjacency") (checkedAdd64 acc.2 1)
  let compiled : CompiledEdge := ⟨destination, edge.relationKind, baseWeight, edge.id⟩
  return (acc.1.modify source.asUsize (· ++ [compiled]), counted)

/-- `sort_unstable_by_key` on one bucket. -/
def sortBucket (edges : List CompiledEdge) : List CompiledEdge :=
  edges.insertionSort (fun a b => a.edge ≤ b.edge)

/-- The running offsets of the buckets, after the leading zero. -/
def offsetsFrom : ℕ → List (List CompiledEdge) → Except CompileError (List ℕ)
  | _, [] => .ok []
  | last, edges :: rest => do
    let next ← okOr (.countOverflow "offset") (checkedAdd64 last edges.length)
    let tail ← offsetsFrom next rest
    return next :: tail

/-- The position of an edge's relation kind in the image's relation table. -/
def relationIndex (relationIds : List RelationId) (edge : CompiledEdge) :
    Except CompileError U32 := do
  let index ← okOr (.invalidImage "compiled relation is absent from the dense relation table")
    (binarySearch relationIds edge.relation)
  if h : index < 2 ^ 32 then return ⟨index, h⟩
  else .error (.countOverflow "relation index")

/-! ## Validation of the completed image -/

/-- Whether some neighbours of a list are related. -/
def anyNeighbours {α : Type} (p : α → α → Bool) : List α → Bool
  | a :: b :: rest => p a b || anyNeighbours p (b :: rest)
  | _ => false

namespace RoutingImage

variable (image : RoutingImage)

/-- The external and the dense numbering agree. -/
def mappingsAgree : Bool :=
  image.externalToDense.zipIdx.all fun (entry, index) =>
    decide (entry.2.asUsize = index) && decide (image.denseToExternal[index]? = some entry.1)

/-- The offsets start at zero, end at the adjacency count and never decrease. -/
def offsetsBounded : Bool :=
  decide (image.offsets.head? = some 0) &&
    decide (image.offsets.getLast? = some image.edgeIds.length) &&
    !anyNeighbours (fun a b => decide (b < a)) image.offsets

/-- The edges of one source are in range and strictly ascending. -/
def sourceOrdered (source : ℕ) : Bool :=
  match image.offsets[source]?, image.offsets[source + 1]? with
  | some start, some stop =>
    decide (stop ≤ image.edgeIds.length) &&
      !anyNeighbours (fun a b => decide (b ≤ a)) ((image.edgeIds.take stop).drop start)
  | _, _ => false

/-- One adjacency entry names an existing node, its own relation kind and a canonical weight. -/
def adjacencyValid (index : ℕ) : Bool :=
  match image.destinations[index]?, image.relationIds[index]?, image.relationIndexes[index]?,
      image.baseWeightBits[index]? with
  | some destination, some relation, some relationIndex, some bits =>
    decide (destination.val < image.denseToExternal.length) &&
      (binarySearch image.confirmedRelationIds relation).isSome &&
      decide (image.confirmedRelationIds[relationIndex.val]? = some relation) &&
      (BaseWeight.fromBits bits).isSome
  | _, _, _, _ => false

/-- `validate_completed_image`. -/
def validateCompleted : Except CompileError Unit := do
  let nodeCount := image.denseToExternal.length
  let adjacencyCount := image.edgeIds.length
  let offsetCount ← okOr (.countOverflow "offset") (checkedAdd64 nodeCount 1)
  if image.externalToDense.length ≠ nodeCount ∨ image.offsets.length ≠ offsetCount ∨
      image.destinations.length ≠ adjacencyCount ∨ image.relationIds.length ≠ adjacencyCount ∨
      image.relationIndexes.length ≠ adjacencyCount ∨
      image.baseWeightBits.length ≠ adjacencyCount then
    .error (.invalidImage "completed array lengths disagree")
  else if !image.mappingsAgree then
    .error (.invalidImage "external and dense node mappings disagree")
  else if !image.offsetsBounded then
    .error (.invalidImage "CSR offsets are not bounded and monotonic")
  else if !(List.range nodeCount).all image.sourceOrdered then
    .error (.invalidImage "outgoing range is invalid or not strictly ordered by edge ID")
  else if !(List.range adjacencyCount).all image.adjacencyValid then
    .error (.invalidImage "adjacency entry contains an invalid node, relation, or weight")
  else .ok ()

end RoutingImage

/-! ## The compiler -/

/-- `compile_routing_image_impl`. -/
def compileRoutingImageImpl (records : ConfirmedGraphRecords) (maximumBytes : Option ℕ) :
    Except CompileError RoutingImage := do
  let nodeCount := records.nodes.length
  validateNodeCount nodeCount
  let topologyManifest ← manifest nodeCount records.relationKinds.length records.edges.length
  let required ← okOr (.countOverflow "byte total") topologyManifest.byteCounts.checkedTotal
  match maximumBytes.filter (fun limit => decide (limit < required)) with
  | some limit => .error (.topologyLimitExceeded required limit)
  | none => do
    let nodeIds := sortIds (records.nodes.map (·.id))
    rejectDuplicate .duplicateNodeId nodeIds
    let externalToDense := denseMapping nodeIds
    let relationIds := sortIds (records.relationKinds.map (·.id))
    rejectDuplicate .duplicateRelationId relationIds
    let edgeIds := sortIds (records.edges.map (·.id))
    rejectDuplicate .duplicateEdgeId edgeIds
    let (filed, counted) ← records.edges.foldlM (fileEdge externalToDense relationIds)
      (List.replicate nodeCount [], 0)
    let outgoing := filed.map sortBucket
    let tail ← offsetsFrom 0 outgoing
    let offsets := 0 :: tail
    let adjacency := outgoing.flatten
    let relationIndexes ← adjacency.mapM (relationIndex relationIds)
    if adjacency.length ≠ counted ∨ offsets.length ≠ nodeCount + 1 then
      .error (.invalidImage "compiled array lengths disagree")
    else if offsets.getLast? ≠ some counted then
      .error (.invalidImage "final CSR offset disagrees with adjacency count")
    else do
      let image : RoutingImage := {
        externalToDense := externalToDense
        denseToExternal := nodeIds
        offsets := offsets
        destinations := adjacency.map (·.destination.asU32)
        relationIds := adjacency.map (·.relation)
        relationIndexes := relationIndexes
        baseWeightBits := adjacency.map (·.baseWeight.toBits)
        edgeIds := adjacency.map (·.edge)
        confirmedRelationIds := relationIds
        manifest := topologyManifest }
      image.validateCompleted
      return image

/-- `compile_routing_image`. -/
def compileRoutingImage (records : ConfirmedGraphRecords) : Except CompileError RoutingImage :=
  compileRoutingImageImpl records none

end PathHydra
