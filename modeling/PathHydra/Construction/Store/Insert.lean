import PathHydra.Construction.Store.Records

/-!
# Inserting candidates

`Catalog` is the database with the two exact-name maps kept beside it.  Its operations run in
`CatalogM`: the state survives an error, so an operation that stops half-way leaves whatever it had
changed until then.  `planning` is a step that only reads, `commitBatch` hands the batch to the
disk.

`insert_candidate_batch` checks the sizes of the batch, resolves the references of its edges, and
writes the candidates with the number of references each has.
-/

namespace PathHydra

/-- `Catalog`: the database and the exact-name maps. -/
structure Catalog where
  db : Database
  nodeNames : String → Option NodeId
  relationNames : String → Option RelationId

/-- An operation on the catalog.  The state is kept also when it fails. -/
abbrev CatalogM := EStateM CatalogError Catalog

/-- A step that reads and may refuse. -/
def planning {α : Type} (step : Except CatalogError α) : CatalogM α := fun c =>
  match step with
  | .ok a => .ok a c
  | .error e => .error e c

/-- `commit_batch`. -/
def commitBatch (disk : WriteAnswer) (batch : WriteBatch) : CatalogM Unit := fun c =>
  match disk with
  | .written => .ok () { c with db := c.db.write batch }
  | .noSpace => .error (.storageExhausted "catalog write") c
  | .failed reason => .error (.rocksDb reason) c

/-! ## Batches of candidates -/

def MAXIMUM_CANDIDATE_BATCH_ENTRIES : ℕ := 120000
def MAXIMUM_CANDIDATE_BATCH_NAME_BYTES : ℕ := 64 * 1024 * 1024
def MAXIMUM_CANDIDATE_BATCH_PAYLOAD_BYTES : ℕ := 512 * 1024 * 1024
def MAXIMUM_CANDIDATE_BATCH_ESTIMATED_BYTES : ℕ := 1024 * 1024 * 1024

inductive BatchNodeReference
  | confirmed (id : NodeId)
  | batchNode (index : ℕ)
  deriving DecidableEq

inductive BatchRelationReference
  | confirmed (id : RelationId)
  | batchRelationKind (index : ℕ)
  deriving DecidableEq

inductive CandidateBatchEntry
  | node (name : NodeName) (payload : NodePayload)
  | relationKind (name : RelationName)
  | edge (source destination : BatchNodeReference) (relationKind : BatchRelationReference)
      (baseWeight : BaseWeight)
  deriving DecidableEq

structure CandidateBatchCounts where
  nodes : ℕ
  relationKinds : ℕ
  edges : ℕ
  deriving DecidableEq

structure CandidateBatchInsertResult where
  candidateIds : List CandidateId
  counts : CandidateBatchCounts

/-- One turn of the loop that adds up the bytes of names and payloads. -/
def addEntryBytes (bytes : ℕ × ℕ) (entry : CandidateBatchEntry) : Except CatalogError (ℕ × ℕ) :=
  match entry with
  | .node name payload => do
    let nameBytes ← okOr (.invalidBatch "aggregate name bytes overflow")
      (checkedAdd64 bytes.1 (strBytes name.asStr).length)
    let payloadBytes ← okOr (.invalidBatch "aggregate payload bytes overflow")
      (checkedAdd64 bytes.2 payload.asBytes.length)
    return (nameBytes, payloadBytes)
  | .relationKind name => do
    let nameBytes ← okOr (.invalidBatch "aggregate name bytes overflow")
      (checkedAdd64 bytes.1 (strBytes name.asStr).length)
    return (nameBytes, bytes.2)
  | .edge .. => return bytes

/-- The checks of `insert_candidate_batch` before it takes the write lock. -/
def checkBatchBytes (entries : List CandidateBatchEntry) : Except CatalogError Unit := do
  if entries = [] then throw (.invalidBatch "the batch is empty")
  if MAXIMUM_CANDIDATE_BATCH_ENTRIES < entries.length then
    throw (.invalidBatch
      s!"{entries.length} entries exceed the catalog limit {MAXIMUM_CANDIDATE_BATCH_ENTRIES}")
  let (nameBytes, payloadBytes) ← entries.foldlM addEntryBytes (0, 0)
  let estimated ← okOr (.invalidBatch "estimated durable batch bytes overflow") (do
    let value ← checkedAdd64 nameBytes payloadBytes
    let overhead ← checkedMul64 entries.length 128
    checkedAdd64 value overhead)
  if MAXIMUM_CANDIDATE_BATCH_NAME_BYTES < nameBytes ∨
      MAXIMUM_CANDIDATE_BATCH_PAYLOAD_BYTES < payloadBytes ∨
      MAXIMUM_CANDIDATE_BATCH_ESTIMATED_BYTES < estimated then
    throw (.invalidBatch "the batch exceeds an aggregate byte limit")

/-! ## References between the entries of a batch -/

def invalidLocalReference (owner index : ℕ) (expected : String) : CatalogError :=
  .invalidBatch s!"entry {owner} local reference {index} does not identify a {expected} entry"

/-- Counts one more reference to an entry of the batch. -/
def countReference (incoming : ℕ → U64) (index : ℕ) : Except CatalogError (ℕ → U64) := do
  let count ← okOr (.counterOverflow "candidate incoming reference")
    ((incoming index).checkedAdd 1)
  return Function.update incoming index count

/-- `resolve_batch_node_reference`, with the counts it leaves. -/
def resolveBatchNodeReference (db : Database) (entries : List CandidateBatchEntry)
    (ids : ℕ → CandidateId) (owner : ℕ) (endpoint : EdgeEndpoint) (incoming : ℕ → U64) :
    BatchNodeReference → Except CatalogError (CandidateNodeReference × (ℕ → U64))
  | .confirmed id => do
    requireNode db id endpoint
    return (.confirmed id, incoming)
  | .batchNode index =>
    match entries[index]? with
    | some (.node ..) => do
      let incoming ← countReference incoming index
      return (.candidate (ids index), incoming)
    | _ => .error (invalidLocalReference owner index "node")

/-- What the loop over the entries of a batch has gathered. -/
structure InsertPlan where
  counts : CandidateBatchCounts
  incoming : ℕ → U64
  provisionalByRelation : SortedMap RelationId U64
  candidates : List Candidate

def InsertPlan.new : InsertPlan :=
  { counts := ⟨0, 0, 0⟩, incoming := fun _ => 0, provisionalByRelation := .empty, candidates := [] }

/-- The relation kind of an edge entry, with the counts it leaves. -/
def resolveBatchRelation (db : Database) (entries : List CandidateBatchEntry)
    (ids : ℕ → CandidateId) (owner : ℕ) (plan : InsertPlan) :
    BatchRelationReference → Except CatalogError (CandidateRelationReference × InsertPlan)
  | .confirmed id => do
    requireRelationKind db id
    let delta ← okOr (.counterOverflow "provisional relation reference")
      (((plan.provisionalByRelation.get id).getD 0).checkedAdd 1)
    return (.confirmed id,
      { plan with provisionalByRelation := plan.provisionalByRelation.insert id delta })
  | .batchRelationKind index =>
    match entries[index]? with
    | some (.relationKind ..) => do
      let incoming ← countReference plan.incoming index
      return (.candidate (ids index), { plan with incoming := incoming })
    | _ => .error (invalidLocalReference owner index "relation kind")

/-- One turn of the loop over the entries. -/
def planEntry (db : Database) (entries : List CandidateBatchEntry) (ids : ℕ → CandidateId)
    (plan : InsertPlan) (indexed : CandidateBatchEntry × ℕ) : Except CatalogError InsertPlan :=
  let (entry, index) := indexed
  match entry with
  | .node name payload => return { plan with
      counts := { plan.counts with nodes := plan.counts.nodes + 1 }
      candidates := plan.candidates ++ [.node (ids index) name payload 0] }
  | .relationKind name => return { plan with
      counts := { plan.counts with relationKinds := plan.counts.relationKinds + 1 }
      candidates := plan.candidates ++ [.relation (ids index) name 0] }
  | .edge source destination relationKind baseWeight => do
    let plan := { plan with counts := { plan.counts with edges := plan.counts.edges + 1 } }
    let (source, incoming) ←
      resolveBatchNodeReference db entries ids index .source plan.incoming source
    let (destination, incoming) ←
      resolveBatchNodeReference db entries ids index .destination incoming destination
    let (relationKind, plan) ←
      resolveBatchRelation db entries ids index { plan with incoming := incoming } relationKind
    return { plan with
      candidates := plan.candidates ++
        [.edge (ids index) source destination relationKind baseWeight] }

/-- Writes the number of references to an entry into its candidate. -/
def setIncoming (incoming : ℕ → U64) (indexed : Candidate × ℕ) : Except CatalogError Candidate :=
  let (candidate, index) := indexed
  match candidate with
  | .node id name payload _ => return .node id name payload (incoming index)
  | .relation id name _ => return .relation id name (incoming index)
  | .edge .. =>
    if incoming index = 0 then return candidate
    else throw (.invalidBatch s!"entry {index} cannot be referenced as a dependency")

/-! ## The batch -/

/-- The entry that stores a candidate. -/
def putCandidate (candidate : Candidate) : Except CatalogError WriteOp := do
  let value ← mapErr codecInputError (encodeCandidate candidate)
  return .put .candidates (encodeIdKey candidate.id.asU64) value

/-- The entries that store a relation kind whose counters changed, and its popularity. -/
def putRelation (record : RelationRecord) : Except CatalogError WriteBatch := do
  let value ← mapErr codecInputError (encodeRelation record)
  let key ← mapErr codecInputError (encodePopularityKey record)
  return [.put .relationKinds (encodeIdKey record.id.asU64) value,
    .put .relationPopularity key (encodeU64Record record.id.asU64)]

/-- The entry that removes the old popularity of a relation kind. -/
def deletePopularity (record : RelationRecord) : Except CatalogError WriteOp := do
  let key ← mapErr codecInputError (encodePopularityKey record)
  return .delete .relationPopularity key

/-- The entries that add provisional references to a relation kind. -/
def addProvisional (db : Database) (usage : RelationId × U64) : Except CatalogError WriteBatch := do
  let (id, delta) := usage
  let old ← getRelationFromDb db id
  let provisional ← okOr (.counterOverflow "provisional relation reference")
    (old.provisionalReferenceCount.checkedAdd delta)
  let _ ← okOr (.counterOverflow "total relation reference")
    (provisional.checkedAdd old.confirmedEdgeCount)
  let delete ← deletePopularity old
  let put ← putRelation { old with id := id, provisionalReferenceCount := provisional }
  return delete :: put

/-- `insert_candidate_batch`. -/
def insertCandidateBatch (disk : WriteAnswer) (entries : List CandidateBatchEntry) :
    CatalogM CandidateBatchInsertResult := do
  planning (checkBatchBytes entries)
  let db := (← get).db
  let first ← planning (readMetadata db META_NEXT_CANDIDATE_ID "next-candidate-id")
  let following ← planning (okOr (.counterOverflow "candidate ID")
    (first.checkedAdd (Fin.ofNat (2 ^ 64) entries.length)))
  let ids : ℕ → CandidateId := fun offset => .ofNat (first.val + offset)
  let plan ← planning (entries.zipIdx.foldlM (planEntry db entries ids) .new)
  let candidates ← planning (plan.candidates.zipIdx.mapM (setIncoming plan.incoming))
  let candidatePuts ← planning (candidates.mapM putCandidate)
  let relationPuts ← planning (plan.provisionalByRelation.entries.mapM (addProvisional db))
  commitBatch disk (candidatePuts ++ relationPuts.flatten ++
    [.put .default META_NEXT_CANDIDATE_ID (encodeU64Record following)])
  return { candidateIds := (List.range entries.length).map ids, counts := plan.counts }

end PathHydra
