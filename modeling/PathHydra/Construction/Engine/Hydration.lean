import PathHydra.Construction.Engine.Lifecycle
import PathHydra.Construction.Routing.Cpu
import PathHydra.Construction.Store.Batch
import PathHydra.Construction.Subgraph

/-!
# Hydration

Handles of nodes and edges are turned back into the confirmed records they stand for.
`hydrate` answers each handle with its record or with its absence, `hydrateSubgraph` sorts the
answers for a caller's collection, and checks the endpoints the collection remembers.

A call sees one state of the engine (`HydrationView`): whether it admits calls, the limit on
handles, the relation kinds of the published image, and the
database. -/

namespace PathHydra

/-- `RoutingUnavailableReason`. -/
inductive RoutingUnavailableReason
  | imageCompilation (reason : String)
  | topologyLimit (required limit : ℕ)
  | metadataLimit (required limit : ℕ)
  | bundle (reason : String)
  deriving DecidableEq

/-- `HydrationError`, as far as `hydrate` and `hydrate_subgraph` raise it. -/
inductive HydrationError
  | handleLimit (requested maximum : ℕ)
  | invalidProfile (error : ProfileError)
  | routingUnavailable (reason : RoutingUnavailableReason)
  | allocationFailed
  | integrity (reason : String)
  deriving DecidableEq

/-- `EngineError`, as far as hydration raises it.  `noReturn` is the model's own: an index
panics. -/
inductive HydrateError
  | catalog (error : CatalogError)
  | routing (error : RoutingError)
  | hydration (error : HydrationError)
  | lifecycle (error : LifecycleError)
  | noReturn
  deriving DecidableEq

/-- What a call sees of the engine.  The relation kinds of a published image ascend. -/
structure HydrationView where
  beginRoute : Except LifecycleError Unit
  maxHydrationHandles : U64
  execution : Except RoutingUnavailableReason (List RelationId)
  db : Database
  ascending : ∀ ids, execution = .ok ids → ids.Pairwise (· < ·)

/-- `EdgeEvaluation`. -/
inductive EdgeEvaluation (F : Type*)
  | unprofiled
  | disabled
  | enabled (multiplier : RelationMultiplier) (effectiveWeight : F)

/-- `HydratedEdge`. -/
structure HydratedEdge (F : Type*) where
  edge : EdgeRecord
  relationKind : RelationRecord
  evaluation : EdgeEvaluation F

/-- `HydratedNodeResult`; no record is a missing one. -/
structure HydratedNodeResult where
  requestedNodeId : NodeId
  state : Option NodeRecord

/-- `HydratedEdgeResult`; no record is a missing one. -/
structure HydratedEdgeResult (F : Type*) where
  requestedEdgeId : EdgeId
  state : Option (HydratedEdge F)

/-- `HydrationResponse`. -/
structure HydrationResponse (F : Type*) where
  nodes : List HydratedNodeResult
  edges : List (HydratedEdgeResult F)
  profile : Option RelationProfile

/-- `HydratedSubgraph`. -/
structure HydratedSubgraph (F : Type*) where
  nodes : List NodeRecord
  edges : List (HydratedEdge F)
  missingNodeIds : List NodeId
  missingEdgeIds : List EdgeId
  profile : Option RelationProfile
  complete : Bool

variable {F : Type} [Binary64 F]

/-- `profile_uses`. -/
def profileUses (profile : RelationProfile) : SortedMap RelationId RelationUse :=
  profile.entries.foldl (fun uses e => uses.insert e.1 e.2) .empty

/-- The evaluation of an edge by the uses of a profile, if there is one. -/
def evaluateEdge (edge : EdgeRecord) :
    Option (SortedMap RelationId RelationUse) → Except HydrateError (EdgeEvaluation F)
  | none => .ok .unprofiled
  | some uses =>
    match uses.get edge.relationKind with
    | none => .error (.hydration (.integrity s!"profile lacks edge {idText edge.id} relation kind"))
    | some .disabled => .ok .disabled
    | some (.enabled multiplier) => do
      let effectiveWeight ← mapErr .routing (effectiveWeight edge.baseWeight multiplier)
      return .enabled multiplier effectiveWeight

/-- `hydrate_edge`. -/
def hydrateEdge (edge : EdgeRecord) (batch : ConfirmedRecordBatch)
    (uses : Option (SortedMap RelationId RelationUse)) :
    Except HydrateError (HydratedEdge F) := do
  let relationKind ← okOr
    (.hydration (.integrity s!"edge {idText edge.id} relation kind is unavailable"))
    (batch.relationKind edge.relationKind)
  let evaluation ← evaluateEdge edge uses
  return ⟨edge, relationKind, evaluation⟩

namespace HydrationView

variable (engine : HydrationView)

/-- `check_hydration_limit`. -/
def checkHydrationLimit (nodes edges : ℕ) : Except HydrateError Unit := do
  let requested ← okOr (.hydration .allocationFailed) (checkedAdd64 nodes edges)
  if engine.maxHydrationHandles.val < requested then
    .error (.hydration (.handleLimit requested engine.maxHydrationHandles.val))
  else .ok ()

/-- The canonical form of the profile of a request. -/
def canonicalProfile : Option RelationProfile → Except HydrateError (Option RelationProfile)
  | none => .ok none
  | some profile => do
    let relationIds ← mapErr (fun reason => .hydration (.routingUnavailable reason)) engine.execution
    let packed ← mapErr (fun error => .hydration (.invalidProfile error))
      (profile.packRelationIds relationIds)
    return some packed.canonical

/-- The answer for one edge handle. -/
def hydrateEdgeHandle (batch : ConfirmedRecordBatch)
    (uses : Option (SortedMap RelationId RelationUse)) (id : EdgeId) :
    Except HydrateError (HydratedEdgeResult F) :=
  match batch.edge id with
  | none => .ok ⟨id, none⟩
  | some edge => return ⟨id, some (← hydrateEdge edge batch uses)⟩

/-- `GraphEngine::hydrate`. -/
def hydrate (nodeIds : List NodeId) (edgeIds : List EdgeId) (profile : Option RelationProfile) :
    Except HydrateError (HydrationResponse F) := do
  mapErr .lifecycle engine.beginRoute
  engine.checkHydrationLimit nodeIds.length edgeIds.length
  let canonical ← engine.canonicalProfile profile
  let batch ← mapErr .catalog (confirmedRecordsById engine.db nodeIds edgeIds)
  let nodes := nodeIds.map fun id => ⟨id, batch.node id⟩
  let edges ← edgeIds.mapM (hydrateEdgeHandle batch (canonical.map profileUses))
  return ⟨nodes, edges, canonical⟩

/-- The endpoints a collection remembers of its edges. -/
def edgeEvidence (handles : SubgraphHandles) : SortedMap EdgeId (NodeId × NodeId) :=
  handles.edges.foldl (fun m e => m.insert e.edgeId (e.source, e.destination)) .empty

/-- The check of a found edge against the endpoints the collection remembers. -/
def checkEndpoints (evidence : SortedMap EdgeId (NodeId × NodeId)) (id : EdgeId)
    (edge : HydratedEdge F) : Except HydrateError Unit :=
  match evidence.get id with
  | none => .error .noReturn
  | some endpoints =>
    if (edge.edge.source, edge.edge.destination) ≠ endpoints then
      .error (.hydration (.integrity s!"edge {idText id} endpoint evidence differs"))
    else .ok ()

/-- Files one edge answer: the found edges and the missing ones so far. -/
def fileEdge (evidence : SortedMap EdgeId (NodeId × NodeId))
    (filed : List (HydratedEdge F) × List EdgeId) (result : HydratedEdgeResult F) :
    Except HydrateError (List (HydratedEdge F) × List EdgeId) :=
  match result.state with
  | none => .ok (filed.1, filed.2 ++ [result.requestedEdgeId])
  | some edge => do
    checkEndpoints evidence result.requestedEdgeId edge
    return (filed.1 ++ [edge], filed.2)

/-- `GraphEngine::hydrate_subgraph`. -/
def hydrateSubgraph (subgraph : Subgraph) (profile : Option RelationProfile) :
    Except HydrateError (HydratedSubgraph F) := do
  mapErr .lifecycle engine.beginRoute
  let handles := subgraph.handles
  let response ← engine.hydrate handles.nodes (handles.edges.map (·.edgeId)) profile
  let nodes := response.nodes.filterMap (·.state)
  let missingNodes := (response.nodes.filter (·.state.isNone)).map (·.requestedNodeId)
  let (edges, missingEdges) ← response.edges.foldlM (fileEdge (edgeEvidence handles)) ([], [])
  return {
    nodes := nodes
    edges := edges
    missingNodeIds := missingNodes
    missingEdgeIds := missingEdges
    profile := response.profile
    complete := missingNodes.isEmpty && missingEdges.isEmpty }

end HydrationView

end PathHydra
