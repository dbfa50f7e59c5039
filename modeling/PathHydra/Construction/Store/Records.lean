import PathHydra.Construction.Store.Database

/-!
# Reading the database

The lookups and scans of the catalog.  A record that is present but cannot be decoded is reported
as corrupt, with the family and the record it was found under.
-/

namespace PathHydra

/-! ## Metadata -/

def META_NEXT_CANDIDATE_ID : Bytes := strBytes "next-candidate-id"
def META_NEXT_NODE_ID : Bytes := strBytes "next-node-id"
def META_NEXT_RELATION_ID : Bytes := strBytes "next-relation-id"
def META_NEXT_EDGE_ID : Bytes := strBytes "next-edge-id"
def META_ACTIVE_ROUTING_IMAGE : Bytes := strBytes "active-routing-image"
def INITIAL_ID : U64 := 1

/-- `ActiveRoutingImage`: the durable reference to the current routing bundle. -/
structure ActiveRoutingImage where
  relativeBundle : String
  manifestChecksum : Digest
  deriving DecidableEq

def readMetadata (db : Database) (key : Bytes) (recordId : String) : Except CatalogError U64 :=
  match (db .default).get key with
  | none => .error (corrupt "default" recordId "required metadata record is missing")
  | some value => mapErr (recordError "default" recordId) (decodeU64Record value)

/-- The bytes of the pointer to the active routing image. -/
def encodeActiveRoutingImage (pointer : ActiveRoutingImage) : Bytes :=
  leBytes 4 (strBytes pointer.relativeBundle).length ++ strBytes pointer.relativeBundle ++
    pointer.manifestChecksum.bytes

def readActiveRoutingImage (db : Database) : Except CatalogError (Option ActiveRoutingImage) :=
  match (db .default).get META_ACTIVE_ROUTING_IMAGE with
  | none => .ok none
  | some encoded =>
    if encoded.length < 36 then
      .error (corrupt "default" "active-routing-image" "pointer is truncated")
    else
      let length := leValue (encoded.take 4)
      -- a four-byte length cannot overflow the sum
      if h : encoded.length = 4 + length + 32 then
        match fromUtf8 ((encoded.drop 4).take length) with
        | none => .error (corrupt "default" "active-routing-image" "bundle name is not UTF-8")
        | some name => .ok (some ⟨name, encoded.drop (4 + length), by simp [h]⟩)
      else
        .error (corrupt "default" "active-routing-image"
          "pointer has an invalid length or trailing bytes")

/-! ## Single records -/

section Lookup

variable {α : Type}

/-- Reads the record with an identifier from its family. -/
def getRecord (db : Database) (family : ColumnFamily) (kind : RecordKind)
    (decode : Bytes → U64 → Except CodecError α) (id : U64) : Except CatalogError α :=
  match (db family).get (encodeIdKey id) with
  | none => .error (.notFound kind id)
  | some value => mapErr (recordError family.name (toString id.val)) (decode value id)

/-- Reads all records of a family, in the order of their identifiers. -/
def allRecords (db : Database) (family : ColumnFamily)
    (decode : Bytes → U64 → Except CodecError α) : Except CatalogError (List α) :=
  (db family).entries.mapM fun (key, value) => do
    let id ← mapErr (recordError family.name (bytesId key)) (decodeIdKey key)
    mapErr (recordError family.name (toString id.val)) (decode value id)

end Lookup

def getNodeFromDb (db : Database) (id : NodeId) : Except CatalogError NodeRecord :=
  getRecord db .nodes .node decodeNode id.asU64

def getCandidateFromDb (db : Database) (id : CandidateId) : Except CatalogError Candidate :=
  getRecord db .candidates .candidate decodeCandidate id.asU64

def getRelationFromDb (db : Database) (id : RelationId) : Except CatalogError RelationRecord :=
  getRecord db .relationKinds .relation decodeRelation id.asU64

def getEdgeFromDb (db : Database) (id : EdgeId) : Except CatalogError EdgeRecord :=
  getRecord db .edges .edge decodeEdge id.asU64

def allNodes (db : Database) : Except CatalogError (List NodeRecord) :=
  allRecords db .nodes decodeNode

def allRelationKinds (db : Database) : Except CatalogError (List RelationRecord) :=
  allRecords db .relationKinds decodeRelation

def allEdges (db : Database) : Except CatalogError (List EdgeRecord) :=
  allRecords db .edges decodeEdge

/-- The candidates, as the loops of the validators and of `remove_node` read them. -/
def allCandidates (db : Database) : Except CatalogError (List Candidate) :=
  allRecords db .candidates decodeCandidate

/-- `collect_ids_with`. -/
def collectIds (db : Database) (family : ColumnFamily) : Except CatalogError (List U64) :=
  (db family).entries.mapM fun (key, _) =>
    mapErr (recordError family.name (bytesId key)) (decodeIdKey key)

def requireNode (db : Database) (id : NodeId) (endpoint : EdgeEndpoint) :
    Except CatalogError Unit :=
  match getNodeFromDb db id with
  | .ok _ => .ok ()
  | .error (.notFound _ _) => .error (.missingEdgeEndpoint endpoint id)
  | .error error => .error error

def requireRelationKind (db : Database) (id : RelationId) : Except CatalogError Unit :=
  match getRelationFromDb db id with
  | .ok _ => .ok ()
  | .error (.notFound _ _) => .error (.missingEdgeRelationKind id)
  | .error error => .error error

/-! ## Adjacency -/

/-- One of the two entries `validate_exact_adjacency` looks for. -/
def requireAdjacency (db : Database) (family : ColumnFamily) (node : NodeId) (edge : EdgeId) :
    Except CatalogError Unit :=
  match (db family).get (encodeAdjacencyKey node edge) with
  | none => .error (corrupt family.name (idText edge) "required adjacency entry is missing")
  | some value => mapErr (recordError family.name (idText edge)) (decodeAdjacencyValue value edge)

def validateExactAdjacency (db : Database) (edge : EdgeRecord) : Except CatalogError Unit := do
  requireAdjacency db .outgoingEdges edge.source edge.id
  requireAdjacency db .incomingEdges edge.destination edge.id

/-- The endpoint of an edge that an adjacency family is indexed by. -/
def EdgeRecord.endpoint (edge : EdgeRecord) (outgoing : Bool) : NodeId :=
  if outgoing then edge.source else edge.destination

/-- The canonical edge behind one entry of an adjacency family. -/
def incidentEdge (db : Database) (family : ColumnFamily) (node : NodeId) (outgoing : Bool)
    (key value : Bytes) : Except CatalogError EdgeRecord := do
  let (indexedNode, edgeId) ←
    mapErr (recordError family.name (bytesId key)) (decodeAdjacencyKey key)
  if indexedNode ≠ node then
    throw (corrupt family.name (bytesId key) "adjacency prefix does not match decoded endpoint")
  mapErr (recordError family.name (bytesId key)) (decodeAdjacencyValue value edgeId)
  let edge ← mapErr (fun error => match error with
    | .notFound _ _ =>
      corrupt family.name (bytesId key) s!"canonical edge {idText edgeId} is missing"
    | other => other) (getEdgeFromDb db edgeId)
  let endpoint := edge.endpoint outgoing
  if endpoint ≠ node then
    throw (corrupt family.name (bytesId key)
      s!"canonical edge {idText edgeId} has endpoint {idText endpoint}")
  return edge

/-- `incident_edges`: the entries from the prefix of the node on, as long as they have it. -/
def incidentEdges (db : Database) (family : ColumnFamily) (node : NodeId) (outgoing : Bool) :
    Except CatalogError (List EdgeRecord) :=
  let prefixBytes := beBytes64 node.asU64
  let fromPrefix := (db family).entries.dropWhile fun e => decide (e.1 < prefixBytes)
  let scanned := fromPrefix.takeWhile fun e => decide (e.1.take 8 = prefixBytes)
  scanned.mapM fun (key, value) => incidentEdge db family node outgoing key value

/-- `provisional_edge_referencing_confirmed_node`, over the entries of the candidate family. -/
def provisionalEdgeReferencing (node : NodeId) :
    List (Bytes × Bytes) → Except CatalogError (Option CandidateId)
  | [] => .ok none
  | (key, value) :: rest => do
    let family := ColumnFamily.candidates.name
    let rawId ← mapErr (recordError family (bytesId key)) (decodeIdKey key)
    let candidate ← mapErr (recordError family (toString rawId.val)) (decodeCandidate value rawId)
    match candidate with
    | .edge _ source destination _ _ =>
      if source = .confirmed node ∨ destination = .confirmed node then
        return some ⟨rawId⟩
      else provisionalEdgeReferencing node rest
    | _ => provisionalEdgeReferencing node rest

def provisionalEdgeReferencingConfirmedNode (db : Database) (node : NodeId) :
    Except CatalogError (Option CandidateId) :=
  provisionalEdgeReferencing node (db .candidates).entries

end PathHydra
