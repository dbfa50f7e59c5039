import PathHydra.Construction.Store.Codec
import PathHydra.Framework.SortedMap

/-!
# The database

The column families of the catalog, each an ordered map from byte keys to byte values, and write
batches.  A batch is applied as a whole or not at all; what the disk answers is a `WriteAnswer`
that the environment chooses.
-/

namespace PathHydra

/-! ## Errors -/

inductive RecordKind
  | candidate | node | relation | edge
  deriving DecidableEq

inductive EdgeEndpoint
  | source | destination
  deriving DecidableEq

/-- `CatalogError`, as far as the catalog's operations return it. -/
inductive CatalogError
  | notFound (kind : RecordKind) (id : U64)
  | missingEdgeEndpoint (endpoint : EdgeEndpoint) (nodeId : NodeId)
  | missingEdgeRelationKind (relationKindId : RelationId)
  | invalidBatch (reason : String)
  | invalidCandidateDependency (candidateId : CandidateId) (reason : String)
  | corruptRecord (keySpace recordId reason : String)
  | counterOverflow (counter : String)
  | nameTooLong (byteLength : ℕ)
  | payloadTooLong (byteLength : ℕ)
  | storageExhausted (operation : String)
  | rocksDb (reason : String)
  deriving DecidableEq

/-- The error reports a corrupt record. -/
def CatalogError.IsCorrupt : CatalogError → Prop
  | .corruptRecord .. => True
  | _ => False

/-- `corrupt`. -/
def corrupt (keySpace recordId reason : String) : CatalogError :=
  .corruptRecord keySpace recordId reason

/-- `record_error`. -/
def recordError (keySpace recordId : String) (error : CodecError) : CatalogError :=
  .corruptRecord keySpace recordId (toString error)

/-- `codec_input_error`. -/
def codecInputError : CodecError → CatalogError
  | .nameTooLong byteLength => .nameTooLong byteLength
  | .payloadTooLong byteLength => .payloadTooLong byteLength
  | other => .corruptRecord "input" "candidate" (toString other)

/-- The two hexadecimal digits of a byte. -/
def hexByte (b : UInt8) : List Char :=
  [Nat.digitChar (b.toNat / 16), Nat.digitChar (b.toNat % 16)]

/-- `bytes_id`. -/
def bytesId (b : Bytes) : String := String.ofList (b.flatMap hexByte)

/-- The decimal form of an identifier. -/
def idText {k : IdKind} (id : DurableId k) : String := toString id.asU64.val

/-! ## Column families -/

/-- The column families, with the unnamed one that holds the metadata. -/
inductive ColumnFamily
  | default
  | candidates
  | nodes
  | nodeNames
  | relationKinds
  | relationNames
  | edges
  | outgoingEdges
  | incomingEdges
  | relationPopularity
  deriving DecidableEq

/-- The name of a column family. -/
def ColumnFamily.name : ColumnFamily → String
  | default => "default"
  | candidates => "candidates"
  | nodes => "nodes"
  | nodeNames => "node_names"
  | relationKinds => "relation_kinds"
  | relationNames => "relation_names"
  | edges => "edges"
  | outgoingEdges => "outgoing_edges"
  | incomingEdges => "incoming_edges"
  | relationPopularity => "relation_popularity"

/-- `column_families::ALL`. -/
def ColumnFamily.all : List ColumnFamily :=
  [candidates, nodes, nodeNames, relationKinds, relationNames, edges, outgoingEdges, incomingEdges,
    relationPopularity]

/-- The contents of the column families. -/
abbrev Database := ColumnFamily → SortedMap Bytes Bytes

/-- A database without records. -/
def Database.empty : Database := fun _ => .empty

/-! ## Write batches -/

/-- One entry of a write batch. -/
inductive WriteOp
  | put (family : ColumnFamily) (key value : Bytes)
  | delete (family : ColumnFamily) (key : Bytes)
  deriving DecidableEq

abbrev WriteBatch := List WriteOp

/-- The database after one entry of a batch. -/
def Database.apply (db : Database) : WriteOp → Database
  | .put family key value => Function.update db family ((db family).insert key value)
  | .delete family key => Function.update db family ((db family).erase key)

/-- The database after a batch. -/
def Database.write (db : Database) (batch : WriteBatch) : Database := batch.foldl apply db

/-- What the disk answers to a batch: it is applied as a whole, or not at all. -/
inductive WriteAnswer
  | written
  | noSpace
  | failed (reason : String)
  deriving DecidableEq

end PathHydra
