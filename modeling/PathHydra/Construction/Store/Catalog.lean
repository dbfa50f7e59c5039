import Mathlib.Data.List.Sort
import PathHydra.Construction.Store.Validate
import PathHydra.Framework.Machine

/-!
# The catalog

Opening a catalog, and its operations as a machine: one call at a time, each with the answer the
disk gives to its batch.
-/

namespace PathHydra

/-- `Catalog::open`, on the contents of a database. -/
def openCatalog (disk : WriteAnswer) (db : Database) : Except CatalogError Catalog := do
  let db ← initializeMetadata disk db
  validateMetadataRecords db
  let (nodeNames, relationNames) ← rebuildIndexesAndValidate db
  return { db := db, nodeNames := nodeNames, relationNames := relationNames }

/-- `Catalog::confirmed_graph_records`. -/
def confirmedGraphRecords (db : Database) : Except CatalogError ConfirmedGraphRecords := do
  let nodes ← allNodes db
  let relationKinds ← allRelationKinds db
  let edges ← allEdges db
  return {
    nodes := nodes.insertionSort fun a b => a.id ≤ b.id
    relationKinds := relationKinds.insertionSort fun a b => a.id ≤ b.id
    edges := edges.insertionSort fun a b => a.id ≤ b.id }

/-- A mutating call of the catalog. -/
inductive CatalogCall
  | insertCandidateBatch (entries : List CandidateBatchEntry)
  | confirmCandidateBatch (candidateIds : List CandidateId)
  | confirmCandidateBatchWithResponseLimit (candidateIds : List CandidateId)
      (maximumResponseBytes : ℕ)
  | removeEdge (id : EdgeId)
  | removeNode (id : NodeId)
  | setActiveRoutingImage (pointer : ActiveRoutingImage)
  | clearActiveRoutingImage

/-- What a call returns. -/
inductive CallResult
  | inserted (result : CandidateBatchInsertResult)
  | confirmed (result : CandidateBatchConfirmation)
  | removed (result : DeletionResult)
  | done

/-- Runs a call. -/
def CatalogCall.run (disk : WriteAnswer) : CatalogCall → CatalogM CallResult
  | .insertCandidateBatch entries => do
    return .inserted (← PathHydra.insertCandidateBatch disk entries)
  | .confirmCandidateBatch candidateIds => do
    return .confirmed (← PathHydra.confirmCandidateBatch disk candidateIds)
  | .confirmCandidateBatchWithResponseLimit candidateIds maximumResponseBytes => do
    return .confirmed (← PathHydra.confirmCandidateBatchWithResponseLimit disk candidateIds
      maximumResponseBytes)
  | .removeEdge id => do return .removed (← PathHydra.removeEdge disk id)
  | .removeNode id => do return .removed (← PathHydra.removeNode disk id)
  | .setActiveRoutingImage pointer => do
    PathHydra.setActiveRoutingImage disk pointer
    return .done
  | .clearActiveRoutingImage => do
    PathHydra.clearActiveRoutingImage disk
    return .done

/-- The catalog under a sequence of calls. -/
def catalogMachine :
    Machine Catalog (CatalogCall × WriteAnswer) (CatalogCall × Except CatalogError CallResult) where
  step c action :=
    match action.1.run action.2 c with
    | .ok result c' => some (c', action.1, .ok result)
    | .error error c' => some (c', action.1, .error error)

end PathHydra
