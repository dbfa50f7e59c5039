import Mathlib.Data.List.Dedup
import Mathlib.Data.List.Sort
import PathHydra.Construction.Store.Records

/-!
# Reading confirmed records by their identifiers

`confirmedRecordsById` reads nodes and edges under one guard.  An absent record is left out; an edge
brings its relation kind with it, and an edge whose endpoint or relation kind is absent is corrupt.
-/

namespace PathHydra

/-- `ConfirmedRecordBatch`. -/
structure ConfirmedRecordBatch where
  nodes : SortedMap NodeId NodeRecord
  edges : SortedMap EdgeId EdgeRecord
  relationKinds : SortedMap RelationId RelationRecord

def ConfirmedRecordBatch.node (batch : ConfirmedRecordBatch) (id : NodeId) : Option NodeRecord :=
  batch.nodes.get id

def ConfirmedRecordBatch.edge (batch : ConfirmedRecordBatch) (id : EdgeId) : Option EdgeRecord :=
  batch.edges.get id

def ConfirmedRecordBatch.relationKind (batch : ConfirmedRecordBatch) (id : RelationId) :
    Option RelationRecord :=
  batch.relationKinds.get id

/-- The distinct identifiers of a list in ascending order, as a `BTreeSet` holds them. -/
def distinctIds {k : IdKind} (ids : List (DurableId k)) : List (DurableId k) :=
  ids.dedup.insertionSort (· ≤ ·)

/-- Reads one node, if it is there. -/
def readBatchNode (db : Database) (nodes : SortedMap NodeId NodeRecord) (id : NodeId) :
    Except CatalogError (SortedMap NodeId NodeRecord) :=
  match getNodeFromDb db id with
  | .ok record => .ok (nodes.insert id record)
  | .error (.notFound .node _) => .ok nodes
  | .error error => .error error

/-- Requires an endpoint of an edge. -/
def requireBatchEndpoint (db : Database) (id : EdgeId) (endpoint : NodeId) :
    Except CatalogError Unit :=
  match getNodeFromDb db endpoint with
  | .ok _ => .ok ()
  | .error (.notFound _ _) =>
    .error (corrupt ColumnFamily.edges.name (idText id) s!"endpoint node {idText endpoint} is absent")
  | .error error => .error error

/-- Reads one edge, if it is there, and its endpoints. -/
def readBatchEdge (db : Database) (edges : SortedMap EdgeId EdgeRecord) (id : EdgeId) :
    Except CatalogError (SortedMap EdgeId EdgeRecord) :=
  match getEdgeFromDb db id with
  | .ok edge => do
    requireBatchEndpoint db id edge.source
    requireBatchEndpoint db id edge.destination
    return edges.insert id edge
  | .error (.notFound .edge _) => .ok edges
  | .error error => .error error

/-- Reads the relation kind of some edge. -/
def readBatchRelationKind (db : Database) (kinds : SortedMap RelationId RelationRecord)
    (id : RelationId) : Except CatalogError (SortedMap RelationId RelationRecord) :=
  match getRelationFromDb db id with
  | .ok record => .ok (kinds.insert id record)
  | .error (.notFound _ _) =>
    .error (corrupt ColumnFamily.edges.name (idText id) "edge relation kind is absent")
  | .error error => .error error

/-- `confirmed_records_by_id`. -/
def confirmedRecordsById (db : Database) (nodeIds : List NodeId) (edgeIds : List EdgeId) :
    Except CatalogError ConfirmedRecordBatch := do
  let nodes ← (distinctIds nodeIds).foldlM (readBatchNode db) .empty
  let edges ← (distinctIds edgeIds).foldlM (readBatchEdge db) .empty
  let kinds ← (distinctIds (edges.entries.map (·.2.relationKind))).foldlM
    (readBatchRelationKind db) .empty
  return ⟨nodes, edges, kinds⟩

end PathHydra
