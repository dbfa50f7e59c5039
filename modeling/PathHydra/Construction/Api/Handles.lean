import PathHydra.Construction.Api.Dto
import PathHydra.Construction.Subgraph

/-!
# Subgraph handles at the API boundary

`SubgraphHandlesDto.validate` accepts handles whose node and edge identifiers ascend as numbers and
whose edge endpoints a binary search of the nodes finds.  The search compares the wrappers, that is,
their texts.
-/

namespace PathHydra

/-- `EdgeHandleDto`. -/
structure EdgeHandleDto where
  edge : EdgeIdDto
  source : NodeIdDto
  destination : NodeIdDto

/-- `SubgraphHandlesDto`. -/
structure SubgraphHandlesDto where
  nodes : List NodeIdDto
  edges : List EdgeHandleDto

namespace SubgraphHandlesDto

/-- The loop over the nodes. -/
def validateNodes : Option U64 → List NodeIdDto → Except DtoValidationError Unit
  | _, [] => .ok ()
  | previous, node :: rest => do
    let current ← node.asU64
    if previous.any fun value => decide (current ≤ value) then .error .unorderedSubgraphNodes
    else validateNodes (some current) rest

/-- The check of one endpoint of an edge. -/
def validateEndpoint (nodes : List NodeIdDto) (edge : EdgeIdDto) (endpoint : NodeIdDto) :
    Except DtoValidationError Unit :=
  if (sliceSearch nodes endpoint).isNone then
    .error (.missingSubgraphEndpoint edge.asStr endpoint.asStr)
  else .ok ()

/-- The loop over the edges. -/
def validateEdges (nodes : List NodeIdDto) :
    Option U64 → List EdgeHandleDto → Except DtoValidationError Unit
  | _, [] => .ok ()
  | previous, edge :: rest => do
    let current ← edge.edge.asU64
    if previous.any fun value => decide (current ≤ value) then .error .unorderedSubgraphEdges
    else do
      validateEndpoint nodes edge.edge edge.source
      validateEndpoint nodes edge.edge edge.destination
      validateEdges nodes (some current) rest

/-- `SubgraphHandlesDto::validate`. -/
def validate (d : SubgraphHandlesDto) : Except DtoValidationError Unit := do
  validateNodes none d.nodes
  validateEdges d.nodes none d.edges

end SubgraphHandlesDto

/-- `SubgraphHandlesDto::from`. -/
def SubgraphHandles.toDto (h : SubgraphHandles) : SubgraphHandlesDto where
  nodes := h.nodes.map (·.toDto)
  edges := h.edges.map fun e => ⟨e.edgeId.toDto, e.source.toDto, e.destination.toDto⟩

namespace Subgraph

/-- One node of `Subgraph::try_from`. -/
def tryAddNode (s : Subgraph) (node : NodeIdDto) : Except DtoValidationError Subgraph :=
  return (s.addNode (← DurableId.ofDto node)).1

/-- One edge of `Subgraph::try_from`. -/
def tryAddEdge (s : Subgraph) (edge : EdgeHandleDto) : Except DtoValidationError Subgraph := do
  let id ← DurableId.ofDto edge.edge
  let source ← DurableId.ofDto edge.source
  let destination ← DurableId.ofDto edge.destination
  match s.addEdge id source destination with
  | .ok (s, _) => return s
  | .error _ => .error (.invalidRoutingResponse "subgraph edge identity conflict")

/-- `Subgraph::try_from`. -/
def tryFrom (d : SubgraphHandlesDto) : Except DtoValidationError Subgraph := do
  d.validate
  let s ← d.nodes.foldlM tryAddNode new
  d.edges.foldlM tryAddEdge s

end Subgraph

end PathHydra
