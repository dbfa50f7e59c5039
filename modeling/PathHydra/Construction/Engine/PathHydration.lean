import PathHydra.Construction.Engine.Hydration

/-!
# Hydration of a returned path

A caller gives an answer back and asks for the records of one of its paths.  `hydratePath` reads the
nodes and edges of the path under one guard, refuses the path when some of them are no longer
confirmed, and otherwise repeats the arithmetic of the route step by step over the records it read.
-/

namespace PathHydra

/-- `EngineError`, as far as `hydrate_path` raises it: the errors of `HydrationError` that are its
own, and those it shares with `hydrate`. -/
inductive HydratePathError
  | destinationPositionOutOfBounds (position : ℕ)
  | destinationHasNoPath (position : ℕ)
  | hydrationUnavailable (nodeIds : List NodeId) (edgeIds : List EdgeId)
  | shared (error : HydrateError)
  deriving DecidableEq

/-- `HydratedPath`. -/
structure HydratedPath (F : Type*) where
  nodes : List NodeRecord
  edges : List (HydratedEdge F)
  logicalDistance : F
  numericPolicy : NumericPolicy
  tiePolicy : TiePolicy
  profile : RelationProfile

/-- The nodes of a path in their order. -/
def RoutePath.nodeIds {F : Type*} (path : RoutePath F) : List NodeId :=
  path.origin :: path.steps.map (·.destination)

/-- The edges of a path in their order. -/
def RoutePath.edgeIds {F : Type*} (path : RoutePath F) : List EdgeId := path.steps.map (·.edgeId)

/-- The path of the destination at a position. -/
def RoutingResponse.exactPath {F : Type*} (response : RoutingResponse F) (position : ℕ) :
    Except HydratePathError (ExactRoute F × RoutePath F) := do
  let destination ← okOr (.destinationPositionOutOfBounds position) response.results[position]?
  match destination.state with
  | .exact route =>
    let path ← okOr (.destinationHasNoPath position) route.path
    return (route, path)
  | _ => .error (.destinationHasNoPath position)

variable {F : Type} [Binary64 F]

/-- One turn of the loop over the steps: the sum and the edges so far. -/
def hydrateStep (batch : ConfirmedRecordBatch) (acc : F × List (HydratedEdge F))
    (step : PathStep F) : Except HydrateError (F × List (HydratedEdge F)) := do
  let edge ← okOr .noReturn (batch.edge step.edgeId)
  if edge.source ≠ step.source ∨ edge.destination ≠ step.destination ∨
      edge.relationKind ≠ step.relationId ∨ edge.baseWeight ≠ step.baseWeight then
    .error (.hydration (.integrity s!"edge {idText step.edgeId} no longer matches route evidence"))
  else
    let effective ← mapErr .routing (effectiveWeight edge.baseWeight step.multiplier)
    if effective ≠ step.effectiveWeight then
      .error (.hydration (.integrity s!"edge {idText step.edgeId} effective weight differs"))
    else
      let sum ← mapErr .routing (accumulateDistance acc.1 effective)
      let relationKind ← okOr .noReturn (batch.relationKind edge.relationKind)
      return (sum, acc.2 ++ [⟨edge, relationKind, .enabled step.multiplier effective⟩])

namespace HydrationView

variable (engine : HydrationView)

/-- The nodes and edges of a path that a batch lacks, each list ascending and without repetition. -/
def missingOf (batch : ConfirmedRecordBatch) (path : RoutePath F) : List NodeId × List EdgeId :=
  ((distinctIds path.nodeIds).filter fun id => (batch.node id).isNone,
    (distinctIds path.edgeIds).filter fun id => (batch.edge id).isNone)

/-- The records of a path that are all there. -/
def replayPath (batch : ConfirmedRecordBatch) (response : RoutingResponse F)
    (route : ExactRoute F) (path : RoutePath F) : Except HydrateError (HydratedPath F) := do
  let nodes ← path.nodeIds.mapM fun id => okOr .noReturn (batch.node id)
  let (sum, edges) ← path.steps.foldlM (hydrateStep batch) (0, [])
  if sum ≠ route.logicalDistance ∨ sum ≠ path.logicalDistance then
    .error (.hydration (.integrity "path steps do not reproduce logical distance"))
  else
    return {
      nodes := nodes
      edges := edges
      logicalDistance := sum
      numericPolicy := response.numericPolicy
      tiePolicy := response.tiePolicy
      profile := response.profile }

/-- `GraphEngine::hydrate_path`. -/
def hydratePath (response : RoutingResponse F) (position : ℕ) :
    Except HydratePathError (HydratedPath F) := do
  mapErr (fun error => .shared (.lifecycle error)) engine.beginRoute
  let (route, path) ← response.exactPath position
  mapErr .shared (engine.checkHydrationLimit path.nodeIds.length path.edgeIds.length)
  let batch ← mapErr (fun error => .shared (.catalog error))
    (confirmedRecordsById engine.db path.nodeIds path.edgeIds)
  let (missingNodes, missingEdges) := missingOf batch path
  if missingNodes ≠ [] ∨ missingEdges ≠ [] then
    .error (.hydrationUnavailable missingNodes missingEdges)
  else mapErr .shared (replayPath batch response route path)

end HydrationView

end PathHydra
