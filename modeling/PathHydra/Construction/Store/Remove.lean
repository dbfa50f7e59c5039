import PathHydra.Construction.Store.Confirm

/-!
# Removing records, and the pointer to the active routing image

`remove_edge` and `remove_node` delete confirmed records with their indexes, and a relation kind
with its last use.  Both clear the pointer to the active routing image in the same batch.
-/

namespace PathHydra

structure DeletionResult where
  removedRelationKinds : List RelationId

/-- The entries that remove an edge and its adjacency. -/
def deleteEdge (edge : EdgeRecord) : WriteBatch :=
  [.delete .edges (encodeIdKey edge.id.asU64),
    .delete .outgoingEdges (encodeAdjacencyKey edge.source edge.id),
    .delete .incomingEdges (encodeAdjacencyKey edge.destination edge.id)]

/-- The relation kind with fewer confirmed edges, and whether it has lost its last use. -/
def releaseUsage (old : RelationRecord) (decrement : U64) (operation : String) :
    Except CatalogError (RelationRecord × Bool) := do
  let confirmed ← okOr (corrupt ColumnFamily.relationKinds.name (idText old.id)
    s!"confirmed edge count underflow during {operation} deletion")
    (old.confirmedEdgeCount.checkedSub decrement)
  let updated := { old with confirmedEdgeCount := confirmed }
  return (updated, decide (updated.provisionalReferenceCount = 0 ∧ confirmed = 0))

/-- The entries that remove a relation kind, or write its new counters. -/
def putReleased (old updated : RelationRecord) (removed : Bool) : Except CatalogError WriteBatch := do
  let popularity ← deletePopularity old
  if removed then
    let key ← mapErr codecInputError (encodeNameKey old.name.asStr)
    return [popularity, .delete .relationKinds (encodeIdKey old.id.asU64),
      .delete .relationNames key]
  else
    let puts ← putRelation updated
    return popularity :: puts

/-- Takes the names of removed relation kinds out of the exact-name map. -/
def Catalog.forgetRelations (c : Catalog) (removed : List RelationRecord) : Catalog :=
  { c with
    relationNames := removed.foldl
      (fun names r => Function.update names r.name.asStr none) c.relationNames }

/-- `remove_edge`. -/
def removeEdge (disk : WriteAnswer) (id : EdgeId) : CatalogM DeletionResult := do
  let db := (← get).db
  let edge ← planning (getEdgeFromDb db id)
  planning (validateExactAdjacency db edge)
  let relation ← planning (getRelationFromDb db edge.relationKind)
  let (updated, removed) ← planning (releaseUsage relation 1 "edge")
  let released ← planning (putReleased relation updated removed)
  commitBatch disk (.delete .default META_ACTIVE_ROUTING_IMAGE :: deleteEdge edge ++ released)
  modify fun c => c.forgetRelations (if removed then [relation] else [])
  return { removedRelationKinds := if removed then [relation.id] else [] }

/-! ## Removing a node -/

/-- One turn of the loop that gathers the incident edges. -/
def gatherIncident (incident : SortedMap EdgeId EdgeRecord) (edge : EdgeRecord) :
    Except CatalogError (SortedMap EdgeId EdgeRecord) :=
  match incident.get edge.id with
  | some existing =>
    if existing ≠ edge then
      .error (corrupt ColumnFamily.edges.name (idText edge.id)
        "incident indexes resolve to different canonical edge records")
    else .ok (incident.insert edge.id edge)
  | none => .ok (incident.insert edge.id edge)

/-- One turn of the loop that counts the incident edges of each relation kind. -/
def countDecrement (decrements : SortedMap RelationId U64) (edge : EdgeRecord) :
    Except CatalogError (SortedMap RelationId U64) := do
  let count ← okOr (.counterOverflow "confirmed relation edge")
    (((decrements.get edge.relationKind).getD 0).checkedAdd 1)
  return decrements.insert edge.relationKind count

/-- What one relation kind contributes to the batch, and the kind when it goes. -/
def releaseRelation (db : Database) (entry : RelationId × U64) :
    Except CatalogError (WriteBatch × Option RelationRecord) := do
  let (id, decrement) := entry
  let old ← getRelationFromDb db id
  let (updated, removed) ← releaseUsage old decrement "node"
  let released ← putReleased old updated removed
  return (released, if removed then some old else none)

/-- The edges at a node, each once. -/
def incidentOf (db : Database) (id : NodeId) :
    Except CatalogError (SortedMap EdgeId EdgeRecord) := do
  let outgoing ← incidentEdges db .outgoingEdges id true
  let incoming ← incidentEdges db .incomingEdges id false
  (outgoing ++ incoming).foldlM gatherIncident .empty

/-- The check of `remove_node` that no provisional edge refers to the node. -/
def requireUnreferenced (db : Database) (id : NodeId) : Except CatalogError Unit := do
  match ← provisionalEdgeReferencingConfirmedNode db id with
  | some candidateId => throw (.invalidCandidateDependency candidateId
      s!"confirmed node {idText id} is still referenced provisionally")
  | none => pure ()

/-- The check of `remove_node` on the exact-name map. -/
def requireNameMapping (c : Catalog) (node : NodeRecord) (id : NodeId) : Except CatalogError Unit :=
  if c.nodeNames node.name.asStr = some id then .ok ()
  else .error (corrupt ColumnFamily.nodeNames.name node.name.asStr
    "in-memory exact-name mapping disagrees with the confirmed node")

/-- `remove_node`. -/
def removeNode (disk : WriteAnswer) (id : NodeId) : CatalogM DeletionResult := do
  let c ← get
  let node ← planning (getNodeFromDb c.db id)
  planning (requireUnreferenced c.db id)
  let incident ← planning (incidentOf c.db id)
  let edges := incident.entries.map Prod.snd
  planning (edges.forM (validateExactAdjacency c.db))
  let decrements ← planning (edges.foldlM countDecrement .empty)
  let nameKey ← planning (mapErr codecInputError (encodeNameKey node.name.asStr))
  planning (requireNameMapping c node id)
  let released ← planning (decrements.entries.mapM (releaseRelation c.db))
  commitBatch disk (.delete .default META_ACTIVE_ROUTING_IMAGE :: edges.flatMap deleteEdge ++
    (released.map Prod.fst).flatten ++
    [.delete .nodes (encodeIdKey id.asU64), .delete .nodeNames nameKey])
  let removed := released.filterMap Prod.snd
  modify fun c => { c with nodeNames := Function.update c.nodeNames node.name.asStr none }
  modify fun c => c.forgetRelations removed
  return { removedRelationKinds := removed.map RelationRecord.id }

/-! ## The pointer -/

/-- `set_active_routing_image`. -/
def setActiveRoutingImage (disk : WriteAnswer) (pointer : ActiveRoutingImage) : CatalogM Unit := do
  planning (if (strBytes pointer.relativeBundle).length < 2 ^ 32 then .ok ()
    else .error (corrupt "default" "active-routing-image" "relative bundle name is too long"))
  commitBatch disk [.put .default META_ACTIVE_ROUTING_IMAGE (encodeActiveRoutingImage pointer)]

/-- `clear_active_routing_image`. -/
def clearActiveRoutingImage (disk : WriteAnswer) : CatalogM Unit :=
  commitBatch disk [.delete .default META_ACTIVE_ROUTING_IMAGE]

end PathHydra
