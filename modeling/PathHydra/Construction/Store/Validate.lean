import PathHydra.Construction.Store.Remove

/-!
# Validating the database

What opening the catalog does with the database: it initialises an empty one, checks the metadata,
rebuilds the exact-name maps and re-derives every index and counter from the records.
`rebuild_indexes_and_validate` takes a callback that may abort it; opening passes one that never
does, so it is left out.
-/

namespace PathHydra

/-- The counters with their record names. -/
def metadataCounters : List (Bytes × String) :=
  [(META_NEXT_CANDIDATE_ID, "next-candidate-id"), (META_NEXT_NODE_ID, "next-node-id"),
    (META_NEXT_RELATION_ID, "next-relation-id"), (META_NEXT_EDGE_ID, "next-edge-id")]

/-- `ensure_database_empty`. -/
def ensureDatabaseEmpty (db : Database) : Except CatalogError Unit := do
  let missing := "required metadata is missing from a non-empty database"
  if (db .default).entries ≠ [] then throw (corrupt "default" "metadata" missing)
  ColumnFamily.all.forM fun family =>
    if (db family).entries ≠ [] then throw (corrupt family.name "first record" missing)
    else pure ()

/-- `initialize_metadata`: the database it leaves. -/
def initializeMetadata (disk : WriteAnswer) (db : Database) : Except CatalogError Database := do
  if metadataCounters.all fun (key, _) => ((db .default).get key).isNone then
    ensureDatabaseEmpty db
    match disk with
    | .written => return db.write (metadataCounters.map fun (key, _) =>
        .put .default key (encodeU64Record INITIAL_ID))
    | .noSpace => throw (.storageExhausted "catalog operation")
    | .failed reason => throw (.rocksDb reason)
  else
    metadataCounters.forM fun (key, id) => do
      let _ ← readMetadata db key id
    return db

/-- `validate_metadata_records`. -/
def validateMetadataRecords (db : Database) : Except CatalogError Unit := do
  let allowed := [META_NEXT_CANDIDATE_ID, META_NEXT_NODE_ID, META_NEXT_RELATION_ID,
    META_NEXT_EDGE_ID, META_ACTIVE_ROUTING_IMAGE]
  (db .default).entries.forM fun (key, _) =>
    if allowed.any fun a => decide (key = a) then pure ()
    else throw (corrupt "default" (bytesId key) "unknown metadata record in the current layout")
  metadataCounters.forM fun (key, id) => do
    let _ ← readMetadata db key id
  let _ ← readActiveRoutingImage db

/-! ## The exact-name maps -/

section Names

variable {k : IdKind} {R : Type}

/-- One entry of a name family while its map is rebuilt. -/
def rebuildName (db : Database) (names records : ColumnFamily) (noun : String)
    (decode : Bytes → U64 → Except CodecError R) (nameOf : R → String)
    (map : String → Option (DurableId k)) (entry : Bytes × Bytes) :
    Except CatalogError (String → Option (DurableId k)) := do
  let (key, value) := entry
  let name ← mapErr (recordError names.name (bytesId key)) (decodeNameKey key)
  let id ← mapErr (recordError names.name name) (decodeU64Record value)
  let recordValue ← okOr (corrupt names.name name s!"mapped {noun} record {id.val} is missing")
    ((db records).get (encodeIdKey id))
  let record ← mapErr (recordError records.name (toString id.val)) (decode recordValue id)
  if nameOf record ≠ name then
    throw (corrupt names.name name
      s!"mapped {noun} record {id.val} contains a different exact name")
  if (map name).isSome then
    throw (corrupt names.name name "duplicate exact-name mapping")
  return Function.update map name (some ⟨id⟩)

/-- The check that a record is found under its name. -/
def requireMapped (records : ColumnFamily) (noun : String)
    (decode : Bytes → U64 → Except CodecError R) (nameOf : R → String)
    (map : String → Option (DurableId k)) (entry : Bytes × Bytes) : Except CatalogError Unit := do
  let (key, value) := entry
  let id ← mapErr (recordError records.name (bytesId key)) (decodeIdKey key)
  let record ← mapErr (recordError records.name (toString id.val)) (decode value id)
  if map (nameOf record) = some ⟨id⟩ then pure ()
  else throw (corrupt records.name (toString id.val)
    s!"confirmed {noun} has no matching exact-name mapping")

/-- Rebuilds the exact-name map of a family of records. -/
def rebuildIndex (db : Database) (names records : ColumnFamily) (mapped confirmed : String)
    (decode : Bytes → U64 → Except CodecError R) (nameOf : R → String) :
    Except CatalogError (String → Option (DurableId k)) := do
  let map ← (db names).entries.foldlM (rebuildName db names records mapped decode nameOf)
    fun _ => none
  (db records).entries.forM (requireMapped records confirmed decode nameOf map)
  return map

end Names

/-- `rebuild_node_index`. -/
def rebuildNodeIndex (db : Database) : Except CatalogError (String → Option NodeId) :=
  rebuildIndex db .nodeNames .nodes "node" "node" decodeNode fun r => r.name.asStr

/-- `rebuild_relation_index`. -/
def rebuildRelationIndex (db : Database) : Except CatalogError (String → Option RelationId) :=
  rebuildIndex db .relationNames .relationKinds "relation-kind" "relation kind" decodeRelation
    fun r => r.name.asStr

/-! ## Edges and adjacency -/

/-- The check that the records an edge refers to are confirmed. -/
def requireEdgeReferences (db : Database) (edge : EdgeRecord) : Except CatalogError Unit := do
  mapErr (fun _ => corrupt ColumnFamily.edges.name (idText edge.id)
    s!"source node {idText edge.source} is not confirmed") (requireNode db edge.source .source)
  mapErr (fun _ => corrupt ColumnFamily.edges.name (idText edge.id)
    s!"destination node {idText edge.destination} is not confirmed")
    (requireNode db edge.destination .destination)
  mapErr (fun _ => corrupt ColumnFamily.edges.name (idText edge.id)
    s!"relation kind {idText edge.relationKind} is not confirmed")
    (requireRelationKind db edge.relationKind)

/-- One entry of an adjacency family while it is validated. -/
def validateAdjacencyEntry (family : ColumnFamily) (edges : EdgeId → Option EdgeRecord)
    (outgoing : Bool) (counts : EdgeId → ℕ) (entry : Bytes × Bytes) :
    Except CatalogError (EdgeId → ℕ) := do
  let (key, value) := entry
  let (node, edgeId) ← mapErr (recordError family.name (bytesId key)) (decodeAdjacencyKey key)
  mapErr (recordError family.name (bytesId key)) (decodeAdjacencyValue value edgeId)
  let edge ← okOr (corrupt family.name (bytesId key) s!"canonical edge {idText edgeId} is missing")
    (edges edgeId)
  let expected := edge.endpoint outgoing
  if node ≠ expected then
    throw (corrupt family.name (bytesId key)
      s!"indexed endpoint {idText node} does not match canonical endpoint {idText expected}")
  return Function.update counts edgeId (counts edgeId + 1)

/-- `validate_adjacency_family`: how often each edge is indexed. -/
def validateAdjacencyFamily (db : Database) (family : ColumnFamily)
    (edges : EdgeId → Option EdgeRecord) (outgoing : Bool) : Except CatalogError (EdgeId → ℕ) :=
  (db family).entries.foldlM (validateAdjacencyEntry family edges outgoing) fun _ => 0

/-- The check that an edge is indexed once on either side. -/
def requireIndexedOnce (outgoing incoming : EdgeId → ℕ) (edge : EdgeRecord) :
    Except CatalogError Unit := do
  if outgoing edge.id ≠ 1 then
    throw (corrupt ColumnFamily.edges.name (idText edge.id)
      "canonical edge does not have exactly one matching outgoing entry")
  if incoming edge.id ≠ 1 then
    throw (corrupt ColumnFamily.edges.name (idText edge.id)
      "canonical edge does not have exactly one matching incoming entry")

/-- `validate_edges_and_adjacency`. -/
def validateEdgesAndAdjacency (db : Database) : Except CatalogError Unit := do
  let all ← allEdges db
  all.forM (requireEdgeReferences db)
  let edges : EdgeId → Option EdgeRecord :=
    all.foldl (fun map edge => Function.update map edge.id (some edge)) fun _ => none
  let outgoing ← validateAdjacencyFamily db .outgoingEdges edges true
  let incoming ← validateAdjacencyFamily db .incomingEdges edges false
  all.forM (requireIndexedOnce outgoing incoming)

/-! ## Usage and dependencies -/

/-- The counts re-derived from the candidates. -/
structure RecomputedUsage where
  incoming : CandidateId → U64
  provisional : RelationId → U64

/-- A node reference of a candidate edge while the dependencies are validated. -/
def validateNodeDependency (db : Database) (candidates : CandidateId → Option Candidate)
    (owner : CandidateId) (usage : RecomputedUsage) :
    CandidateNodeReference → Except CatalogError RecomputedUsage
  | .confirmed node => do
    let _ ← mapErr (fun _ => corrupt ColumnFamily.candidates.name (idText owner)
      s!"confirmed node dependency {idText node} is missing") (getNodeFromDb db node)
    return usage
  | .candidate dependency =>
    match candidates dependency with
    | some (.node ..) => do
      let incoming ← checkedIncrementCandidateReference usage.incoming dependency
      return { usage with incoming := incoming }
    | _ => .error (corrupt ColumnFamily.candidates.name (idText owner)
        s!"node candidate dependency {idText dependency} is missing or mistyped")

/-- The relation-kind reference of a candidate edge. -/
def validateRelationDependency (db : Database) (candidates : CandidateId → Option Candidate)
    (owner : CandidateId) (usage : RecomputedUsage) :
    CandidateRelationReference → Except CatalogError RecomputedUsage
  | .confirmed relation => do
    let _ ← mapErr (fun _ => corrupt ColumnFamily.candidates.name (idText owner)
      s!"confirmed relation-kind dependency {idText relation} is missing")
      (getRelationFromDb db relation)
    let count ← okOr (corrupt ColumnFamily.relationKinds.name (idText relation)
      "recomputed provisional usage overflow") ((usage.provisional relation).checkedAdd 1)
    return { usage with provisional := Function.update usage.provisional relation count }
  | .candidate dependency =>
    match candidates dependency with
    | some (.relation ..) => do
      let incoming ← checkedIncrementCandidateReference usage.incoming dependency
      return { usage with incoming := incoming }
    | _ => .error (corrupt ColumnFamily.candidates.name (idText owner)
        s!"relation-kind candidate dependency {idText dependency} is missing or mistyped")

/-- One candidate while the dependencies are validated. -/
def validateDependencies (db : Database) (candidates : CandidateId → Option Candidate)
    (usage : RecomputedUsage) (candidate : Candidate) : Except CatalogError RecomputedUsage :=
  match candidate with
  | .edge id source destination relationKind _ => do
    let usage ← validateNodeDependency db candidates id usage source
    let usage ← validateNodeDependency db candidates id usage destination
    validateRelationDependency db candidates id usage relationKind
  | _ => return usage

/-- The check of the stored reference count of a candidate. -/
def requireIncoming (incoming : CandidateId → U64) (candidate : Candidate) :
    Except CatalogError Unit :=
  match candidate with
  | .node id _ _ stored | .relation id _ stored =>
    if incoming id = stored then .ok ()
    else .error (corrupt ColumnFamily.candidates.name (idText id)
      "stored incoming reference count does not match edge candidates")
  | .edge .. => .ok ()

/-- One edge while the confirmed usage is recomputed. -/
def countConfirmed (confirmed : RelationId → U64) (edge : EdgeRecord) :
    Except CatalogError (RelationId → U64) := do
  let count ← okOr (corrupt ColumnFamily.relationKinds.name (idText edge.relationKind)
    "recomputed confirmed usage overflow") ((confirmed edge.relationKind).checkedAdd 1)
  return Function.update confirmed edge.relationKind count

/-- The check of the stored counters of a relation kind, with its popularity key. -/
def requireUsage (provisional confirmed : RelationId → U64) (record : RelationRecord) :
    Except CatalogError Bytes := do
  if record.provisionalReferenceCount ≠ provisional record.id ∨
      record.confirmedEdgeCount ≠ confirmed record.id then
    throw (corrupt ColumnFamily.relationKinds.name (idText record.id)
      "stored usage counts do not match candidates and canonical edges")
  mapErr codecInputError (encodePopularityKey record)

/-- One entry of the popularity index. -/
def requirePopularity (seen : List Bytes) (entry : Bytes × Bytes) :
    Except CatalogError (List Bytes) := do
  let (key, value) := entry
  let family := ColumnFamily.relationPopularity.name
  let (_, _, id) ← mapErr (recordError family (bytesId key)) (decodePopularityKey key)
  let valueId ← mapErr (recordError family (bytesId key)) (decodeU64Record value)
  if valueId ≠ id.asU64 ∨ key ∈ seen then
    throw (corrupt family (bytesId key) "duplicate or mismatched popularity entry")
  return seen ++ [key]

/-- `validate_relation_usage_and_candidate_dependencies`.  The two popularity sets are compared as
sets of keys. -/
def validateRelationUsageAndCandidateDependencies (db : Database) : Except CatalogError Unit := do
  let all ← allCandidates db
  let candidates : CandidateId → Option Candidate :=
    all.foldl (fun map c => Function.update map c.id (some c)) fun _ => none
  let usage ← all.foldlM (validateDependencies db candidates) ⟨fun _ => 0, fun _ => 0⟩
  all.forM (requireIncoming usage.incoming)
  let edges ← allEdges db
  let confirmed ← edges.foldlM countConfirmed fun _ => 0
  let relations ← allRelationKinds db
  let expected ← relations.mapM (requireUsage usage.provisional confirmed)
  let actual ← (db .relationPopularity).entries.foldlM requirePopularity []
  if (∀ key ∈ actual, key ∈ expected) ∧ ∀ key ∈ expected, key ∈ actual then pure ()
  else throw (corrupt ColumnFamily.relationPopularity.name "index"
    "popularity entries do not exactly match relation-kind usage")

/-- The check of one counter. -/
def validateNextIdCounter (db : Database) (counter : Bytes × String × ColumnFamily) :
    Except CatalogError Unit := do
  let (key, name, family) := counter
  let next ← readMetadata db key name
  if next = 0 then throw (corrupt "default" name "next ID must be at least 1")
  let ids ← collectIds db family
  let maximum := (ids.map Fin.val).foldl max 0
  if next.val ≤ maximum then
    throw (corrupt "default" name
      s!"next ID {next.val} does not follow existing ID {maximum}")

/-- `validate_next_id_counters`. -/
def validateNextIdCounters (db : Database) : Except CatalogError Unit :=
  [(META_NEXT_CANDIDATE_ID, "next-candidate-id", ColumnFamily.candidates),
    (META_NEXT_NODE_ID, "next-node-id", .nodes),
    (META_NEXT_RELATION_ID, "next-relation-id", .relationKinds),
    (META_NEXT_EDGE_ID, "next-edge-id", .edges)].forM (validateNextIdCounter db)

/-- `validate_candidates`. -/
def validateCandidates (db : Database) : Except CatalogError Unit := do
  let _ ← allCandidates db

/-- `rebuild_indexes_and_validate`. -/
def rebuildIndexesAndValidate (db : Database) :
    Except CatalogError ((String → Option NodeId) × (String → Option RelationId)) := do
  validateCandidates db
  let nodes ← rebuildNodeIndex db
  let relations ← rebuildRelationIndex db
  validateEdgesAndAdjacency db
  validateRelationUsageAndCandidateDependencies db
  validateNextIdCounters db
  return (nodes, relations)

end PathHydra
