import PathHydra.Construction.Store.Insert

/-!
# The most used relation kinds

`mostUsedRelationKinds` reads the popularity index from its front.  Each entry is checked against
the relation-kind record it stands for, so a stale entry is reported instead of being returned.
-/

namespace PathHydra

/-- One turn of the loop of `most_used_relation_kinds`. -/
def relationKindUsage (db : Database) (key value : Bytes) : Except CatalogError RelationRecord := do
  let family := ColumnFamily.relationPopularity.name
  let (total, confirmed, id) ← mapErr (recordError family (bytesId key)) (decodePopularityKey key)
  let valueId ← mapErr (recordError family (bytesId key)) (decodeU64Record value)
  if valueId ≠ id.asU64 then
    throw (corrupt family (bytesId key) "index value does not match relation ID")
  let recordBytes ← okOr
    (corrupt family (idText id) "indexed relation kind is missing from the snapshot")
    ((db .relationKinds).get (encodeIdKey id.asU64))
  let record ← mapErr (recordError ColumnFamily.relationKinds.name (idText id))
    (decodeRelation recordBytes id.asU64)
  if record.totalReferenceCount ≠ some total ∨ record.confirmedEdgeCount ≠ confirmed then
    throw (corrupt family (idText id) "index counts do not match the relation-kind record")
  return record

/-- `most_used_relation_kinds`; a `RelationKindUsage` is the record of the kind. -/
def mostUsedRelationKinds (db : Database) (maximumResults : ℕ) :
    Except CatalogError (List RelationRecord) :=
  if maximumResults = 0 ∨ MAXIMUM_CANDIDATE_BATCH_ENTRIES < maximumResults then
    .error (.invalidBatch "the popularity result limit must be nonzero and bounded")
  else
    ((db .relationPopularity).entries.take maximumResults).mapM fun (key, value) =>
      relationKindUsage db key value

end PathHydra
