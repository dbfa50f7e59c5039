import PathHydra.Construction.Store.Insert

/-!
# Confirming candidates

`confirm_candidate_batch_with_response_limit` promotes a selection of candidates that is closed
under its dependencies: it reads the candidates, checks the closure, plans the records with batch-
local names and counters, bounds the response, and commits one batch.  The exact-name maps follow
after the commit.
-/

namespace PathHydra

structure CandidateBatchConfirmation where
  records : List ConfirmedRecord
  counts : CandidateBatchCounts
  graphChanged : Bool
  createdNodes : ℕ
  createdRelationKinds : ℕ

/-! ## The selection -/

/-- The candidates read so far, and the position of each. -/
structure Selection where
  selected : CandidateId → Option ℕ
  candidates : List Candidate

def Selection.new : Selection := { selected := fun _ => none, candidates := [] }

/-- One turn of the loop that reads the selected candidates. -/
def selectCandidate (db : Database) (s : Selection) (indexed : CandidateId × ℕ) :
    Except CatalogError Selection := do
  let (id, index) := indexed
  if (s.selected id).isSome then
    throw (.invalidBatch s!"candidate {idText id} is listed more than once")
  let candidate ← getCandidateFromDb db id
  return { selected := Function.update s.selected id (some index)
           candidates := s.candidates ++ [candidate] }

/-- `checked_increment_candidate_reference`. -/
def checkedIncrementCandidateReference (counts : CandidateId → U64) (id : CandidateId) :
    Except CatalogError (CandidateId → U64) := do
  let count ← okOr (.counterOverflow "candidate incoming reference") ((counts id).checkedAdd 1)
  return Function.update counts id count

/-- `validate_selected_node_dependency`. -/
def validateSelectedNodeDependency (db : Database) (s : Selection) (owner : CandidateId)
    (incoming : CandidateId → U64) :
    CandidateNodeReference → Except CatalogError (CandidateId → U64)
  | .confirmed id => do
    requireNode db id .source
    return incoming
  | .candidate dependency =>
    match s.selected dependency with
    | none => .error (.invalidCandidateDependency owner
        s!"node candidate {idText dependency} is not selected")
    | some index =>
      match s.candidates[index]? with
      | some (.node ..) => checkedIncrementCandidateReference incoming dependency
      | _ => .error (.invalidCandidateDependency owner
          s!"candidate {idText dependency} is not a node")

/-- The dependency of a selected edge on its relation kind. -/
def validateSelectedRelationDependency (db : Database) (s : Selection) (owner : CandidateId)
    (incoming : CandidateId → U64) :
    CandidateRelationReference → Except CatalogError (CandidateId → U64)
  | .confirmed id => do
    requireRelationKind db id
    return incoming
  | .candidate dependency =>
    match s.selected dependency with
    | none => .error (.invalidCandidateDependency owner
        s!"relation-kind candidate {idText dependency} is not selected")
    | some index =>
      match s.candidates[index]? with
      | some (.relation ..) => checkedIncrementCandidateReference incoming dependency
      | _ => .error (.invalidCandidateDependency owner
          s!"candidate {idText dependency} is not a relation kind")

/-- One turn of the loop that counts the references among the selected candidates. -/
def countSelected (db : Database) (s : Selection)
    (acc : CandidateBatchCounts × (CandidateId → U64)) (candidate : Candidate) :
    Except CatalogError (CandidateBatchCounts × (CandidateId → U64)) :=
  let (counts, incoming) := acc
  match candidate with
  | .node .. => return ({ counts with nodes := counts.nodes + 1 }, incoming)
  | .relation .. => return ({ counts with relationKinds := counts.relationKinds + 1 }, incoming)
  | .edge id source destination relationKind _ => do
    let counts := { counts with edges := counts.edges + 1 }
    let incoming ← validateSelectedNodeDependency db s id incoming source
    let incoming ← validateSelectedNodeDependency db s id incoming destination
    let incoming ← validateSelectedRelationDependency db s id incoming relationKind
    return (counts, incoming)

/-- The closure check on one candidate. -/
def checkClosure (incoming : CandidateId → U64) (candidate : Candidate) :
    Except CatalogError Unit :=
  match candidate with
  | .node id _ _ durable | .relation id _ durable =>
    if durable = incoming id then .ok ()
    else .error (.invalidCandidateDependency id
      s!"complete dependent closure is required ({durable.val} durable references, {(incoming id).val} selected)")
  | .edge .. => .ok ()

/-! ## Planning the records -/

/-- What the two planning loops have gathered. -/
structure ConfirmPlan where
  followingNode : U64
  followingRelation : U64
  followingEdge : U64
  plannedNodeNames : String → Option NodeRecord
  plannedRelationNames : String → Option RelationRecord
  resolvedNodes : CandidateId → Option NodeRecord
  resolvedRelations : CandidateId → Option RelationRecord
  createdNodes : List NodeRecord
  createdRelations : List RelationRecord
  createdEdges : List EdgeRecord
  usage : SortedMap RelationId RelationRecord
  aligned : ℕ → Option ConfirmedRecord

def ConfirmPlan.new (nextNode nextRelation nextEdge : U64) : ConfirmPlan :=
  { followingNode := nextNode, followingRelation := nextRelation, followingEdge := nextEdge,
    plannedNodeNames := fun _ => none, plannedRelationNames := fun _ => none,
    resolvedNodes := fun _ => none, resolvedRelations := fun _ => none, createdNodes := [],
    createdRelations := [], createdEdges := [], usage := .empty, aligned := fun _ => none }

/-- The node a candidate resolves to: a confirmed one, one planned before, or a new one. -/
def planNode (c : Catalog) (plan : ConfirmPlan) (name : NodeName) (payload : NodePayload) :
    Except CatalogError (NodeRecord × ConfirmPlan) :=
  match c.nodeNames name.asStr with
  | some existing => do
    let record ← getNodeFromDb c.db existing
    return (record, plan)
  | none =>
    match plan.plannedNodeNames name.asStr with
    | some existing => return (existing, plan)
    | none => do
      let id : NodeId := ⟨plan.followingNode⟩
      let following ← okOr (.counterOverflow "node ID") (plan.followingNode.checkedAdd 1)
      let record : NodeRecord := ⟨id, name, payload⟩
      return (record, { plan with
        followingNode := following
        plannedNodeNames := Function.update plan.plannedNodeNames name.asStr (some record)
        createdNodes := plan.createdNodes ++ [record] })

/-- The relation kind a candidate resolves to. -/
def planRelation (c : Catalog) (plan : ConfirmPlan) (name : RelationName) :
    Except CatalogError (RelationRecord × ConfirmPlan) :=
  match c.relationNames name.asStr with
  | some existing => do
    let record ← getRelationFromDb c.db existing
    return (record, plan)
  | none =>
    match plan.plannedRelationNames name.asStr with
    | some existing => return (existing, plan)
    | none => do
      let id : RelationId := ⟨plan.followingRelation⟩
      let following ← okOr (.counterOverflow "relation ID") (plan.followingRelation.checkedAdd 1)
      let record := RelationRecord.new id name
      return (record, { plan with
        followingRelation := following
        plannedRelationNames := Function.update plan.plannedRelationNames name.asStr (some record)
        createdRelations := plan.createdRelations ++ [record] })

/-- One turn of the loop over the node and relation-kind candidates. -/
def planRecord (c : Catalog) (plan : ConfirmPlan) (indexed : Candidate × ℕ) :
    Except CatalogError ConfirmPlan :=
  let (candidate, index) := indexed
  match candidate with
  | .node id name payload _ => do
    let (record, plan) ← planNode c plan name payload
    return { plan with
      resolvedNodes := Function.update plan.resolvedNodes id (some record)
      aligned := Function.update plan.aligned index (some (.node record)) }
  | .relation id name _ => do
    let (record, plan) ← planRelation c plan name
    return { plan with
      resolvedRelations := Function.update plan.resolvedRelations id (some record)
      aligned := Function.update plan.aligned index (some (.relation record)) }
  | .edge .. => return plan

def resolveConfirmedNode (resolved : CandidateId → Option NodeRecord) :
    CandidateNodeReference → Except CatalogError NodeId
  | .confirmed id => .ok id
  | .candidate id =>
    okOr (.invalidCandidateDependency id "selected node dependency has no resolution")
      ((resolved id).map NodeRecord.id)

def resolveConfirmedRelation (resolved : CandidateId → Option RelationRecord) :
    CandidateRelationReference → Except CatalogError RelationId
  | .confirmed id => .ok id
  | .candidate id =>
    okOr (.invalidCandidateDependency id "selected relation-kind dependency has no resolution")
      ((resolved id).map RelationRecord.id)

/-- The record of a relation kind as the plan has it so far. -/
def planUsage (db : Database) (plan : ConfirmPlan) (id : RelationId) :
    Except CatalogError RelationRecord :=
  match plan.usage.get id with
  | some record => .ok record
  | none =>
    match plan.createdRelations.find? fun r => decide (r.id = id) with
    | some record => .ok record
    | none => getRelationFromDb db id

/-- The provisional references a relation kind keeps when one of its edges is confirmed. -/
def remainingProvisional (old : RelationRecord) (relationId : RelationId) :
    CandidateRelationReference → Except CatalogError U64
  | .confirmed _ => okOr (corrupt ColumnFamily.relationKinds.name (idText relationId)
      "provisional reference count underflow during confirmation")
      (old.provisionalReferenceCount.checkedSub 1)
  | .candidate _ => .ok old.provisionalReferenceCount

/-- One turn of the loop over the edge candidates. -/
def planEdge (db : Database) (plan : ConfirmPlan) (indexed : Candidate × ℕ) :
    Except CatalogError ConfirmPlan :=
  let (candidate, index) := indexed
  match candidate with
  | .edge _ source destination relationKind baseWeight => do
    let source ← resolveConfirmedNode plan.resolvedNodes source
    let destination ← resolveConfirmedNode plan.resolvedNodes destination
    let relationId ← resolveConfirmedRelation plan.resolvedRelations relationKind
    let old ← planUsage db plan relationId
    let provisional ← remainingProvisional old relationId relationKind
    let confirmed ← okOr (.counterOverflow "confirmed relation edge")
      (old.confirmedEdgeCount.checkedAdd 1)
    let _ ← okOr (.counterOverflow "total relation reference") (provisional.checkedAdd confirmed)
    let edge : EdgeRecord :=
      ⟨⟨plan.followingEdge⟩, source, destination, relationId, baseWeight⟩
    let following ← okOr (.counterOverflow "edge ID") (plan.followingEdge.checkedAdd 1)
    return { plan with
      usage := plan.usage.insert relationId ⟨relationId, old.name, provisional, confirmed⟩
      followingEdge := following
      aligned := Function.update plan.aligned index (some (.edge edge))
      createdEdges := plan.createdEdges ++ [edge] }
  | _ => return plan

/-! ## The response and the batch -/

/-- The estimated bytes of one record in the response. -/
def responseBytes : ConfirmedRecord → Option ℕ
  | .node record => do
    let value ← checkedAdd64 (strBytes record.name.asStr).length record.payload.asBytes.length
    checkedAdd64 value 128
  | .relation record => checkedAdd64 (strBytes record.name.asStr).length 96
  | .edge _ => some 160

/-- One turn of the loop that estimates the response. -/
def addResponseBytes (total : ℕ) (record : ConfirmedRecord) : Except CatalogError ℕ := do
  let bytes ← okOr (.invalidBatch "estimated success response bytes overflow")
    (responseBytes record)
  okOr (.invalidBatch "estimated success response bytes overflow") (checkedAdd64 total bytes)

def checkResponse (records : List ConfirmedRecord) (maximumResponseBytes : ℕ) :
    Except CatalogError Unit := do
  let estimated ← records.foldlM addResponseBytes 256
  if maximumResponseBytes < estimated then
    throw (.invalidBatch "the required success response exceeds its configured byte limit")

/-- The entries that store a new node and its name. -/
def putNode (record : NodeRecord) : Except CatalogError WriteBatch := do
  let value ← mapErr codecInputError (encodeNode record)
  let key ← mapErr codecInputError (encodeNameKey record.name.asStr)
  return [.put .nodes (encodeIdKey record.id.asU64) value,
    .put .nodeNames key (encodeU64Record record.id.asU64)]

/-- The entries that store an edge and its adjacency. -/
def putEdge (edge : EdgeRecord) : WriteBatch :=
  [.put .edges (encodeIdKey edge.id.asU64) (encodeEdge edge),
    .put .outgoingEdges (encodeAdjacencyKey edge.source edge.id) (encodeAdjacencyValue edge.id),
    .put .incomingEdges (encodeAdjacencyKey edge.destination edge.id)
      (encodeAdjacencyValue edge.id)]

/-- The relation kinds as the batch leaves them. -/
def ConfirmPlan.finalRelations (plan : ConfirmPlan) : SortedMap RelationId RelationRecord :=
  let created := plan.createdRelations.foldl (fun m r => m.insert r.id r) .empty
  plan.usage.entries.foldl (fun m e => m.insert e.1 e.2) created

/-- The entries that store one relation kind: a new one with its name, another over its old
popularity. -/
def putFinalRelation (db : Database) (plan : ConfirmPlan) (entry : RelationId × RelationRecord) :
    Except CatalogError WriteBatch := do
  let (id, record) := entry
  let first ← if plan.createdRelations.any fun r => decide (r.id = id) then do
      let key ← mapErr codecInputError (encodeNameKey record.name.asStr)
      pure (.put .relationNames key (encodeU64Record id.asU64))
    else do
      let old ← getRelationFromDb db id
      deletePopularity old
  let value ← mapErr codecInputError (encodeRelation record)
  let key ← mapErr codecInputError (encodePopularityKey record)
  return [first, .put .relationKinds (encodeIdKey id.asU64) value,
    .put .relationPopularity key (encodeU64Record id.asU64)]

def ConfirmPlan.graphChanged (plan : ConfirmPlan) : Bool :=
  !plan.createdNodes.isEmpty || !plan.createdRelations.isEmpty || !plan.createdEdges.isEmpty

/-- The batch of a confirmation. -/
def confirmBatch (db : Database) (plan : ConfirmPlan) (candidates : List Candidate) :
    Except CatalogError WriteBatch := do
  let deletes := candidates.map fun candidate =>
    WriteOp.delete .candidates (encodeIdKey candidate.id.asU64)
  let nodePuts ← plan.createdNodes.mapM putNode
  let relationPuts ← plan.finalRelations.entries.mapM (putFinalRelation db plan)
  let pointer := if plan.graphChanged then
    [WriteOp.delete .default META_ACTIVE_ROUTING_IMAGE] else []
  return deletes ++ nodePuts.flatten ++ relationPuts.flatten ++
    plan.createdEdges.flatMap putEdge ++ pointer ++
    [.put .default META_NEXT_NODE_ID (encodeU64Record plan.followingNode),
      .put .default META_NEXT_RELATION_ID (encodeU64Record plan.followingRelation),
      .put .default META_NEXT_EDGE_ID (encodeU64Record plan.followingEdge)]

/-- Adds the new names to the exact-name maps. -/
def Catalog.addNames (c : Catalog) (plan : ConfirmPlan) : Catalog :=
  { c with
    nodeNames := plan.createdNodes.foldl
      (fun names r => Function.update names r.name.asStr (some r.id)) c.nodeNames
    relationNames := plan.createdRelations.foldl
      (fun names r => Function.update names r.name.asStr (some r.id)) c.relationNames }

/-- The checks on the list of candidates. -/
def checkSelectionSize (candidateIds : List CandidateId) : Except CatalogError Unit := do
  if candidateIds = [] then throw (.invalidBatch "the confirmation batch is empty")
  if MAXIMUM_CANDIDATE_BATCH_ENTRIES < candidateIds.length then
    throw (.invalidBatch
      s!"{candidateIds.length} candidates exceed the catalog limit {MAXIMUM_CANDIDATE_BATCH_ENTRIES}")

/-- `confirm_candidate_batch_with_response_limit`. -/
def confirmCandidateBatchWithResponseLimit (disk : WriteAnswer) (candidateIds : List CandidateId)
    (maximumResponseBytes : ℕ) : CatalogM CandidateBatchConfirmation := do
  planning (checkSelectionSize candidateIds)
  let c ← get
  let selection ← planning (candidateIds.zipIdx.foldlM (selectCandidate c.db) .new)
  let candidates := selection.candidates
  let (counts, incoming) ← planning
    (candidates.foldlM (countSelected c.db selection) (⟨0, 0, 0⟩, fun _ => 0))
  planning (candidates.forM (checkClosure incoming))
  let nextNode ← planning (readMetadata c.db META_NEXT_NODE_ID "next-node-id")
  let nextRelation ← planning (readMetadata c.db META_NEXT_RELATION_ID "next-relation-id")
  let nextEdge ← planning (readMetadata c.db META_NEXT_EDGE_ID "next-edge-id")
  let plan ← planning
    (candidates.zipIdx.foldlM (planRecord c) (.new nextNode nextRelation nextEdge))
  let plan ← planning (candidates.zipIdx.foldlM (planEdge c.db) plan)
  let records := (List.range candidates.length).filterMap plan.aligned
  planning (checkResponse records maximumResponseBytes)
  let batch ← planning (confirmBatch c.db plan candidates)
  commitBatch disk batch
  modify fun c => c.addNames plan
  return {
    records := records
    counts := counts
    graphChanged := plan.graphChanged
    createdNodes := plan.createdNodes.length
    createdRelationKinds := plan.createdRelations.length }

/-- `confirm_candidate_batch`. -/
def confirmCandidateBatch (disk : WriteAnswer) (candidateIds : List CandidateId) :
    CatalogM CandidateBatchConfirmation :=
  confirmCandidateBatchWithResponseLimit disk candidateIds u64Max

end PathHydra
