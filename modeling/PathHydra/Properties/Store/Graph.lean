import PathHydra.Construction.Routing.Compile
import PathHydra.Construction.Store.Catalog
import PathHydra.Properties.Store.Invariant

/-!
# The confirmed graph

The records a routing image is compiled from, read off the tables.  Tables with the same graph
(`Tables.SameGraph`) give the same image: the compiler reads nothing of a relation kind but its
identifier.
-/

namespace PathHydra

/-- The confirmed records of the tables, in the order of their identifiers. -/
def Tables.graph (t : Tables) : ConfirmedGraphRecords where
  nodes := t.nodes.entries.map Prod.snd
  relationKinds := t.relations.entries.map Prod.snd
  edges := t.edges.entries.map Prod.snd

section Records

variable {k : IdKind} {R : Type} {m : SortedMap Bytes Bytes} {tab : SortedMap (DurableId k) R}
  {idOf : R → DurableId k} {val : R → Bytes} {decode : Bytes → U64 → Except CodecError R}

lemma Stored.records_ids (h : Stored m tab idOf val decode) :
    (tab.entries.map Prod.snd).map idOf = tab.entries.map Prod.fst := by
  rw [List.map_map]
  exact List.map_congr_left fun e he => h.id_eq _ _ (SortedMap.get_of_mem he)

/-- The records of a table are in the order of their identifiers. -/
lemma Stored.records_sorted (h : Stored m tab idOf val decode) :
    (tab.entries.map Prod.snd).insertionSort (fun a b => idOf a ≤ idOf b) =
      tab.entries.map Prod.snd := by
  apply List.Pairwise.insertionSort_eq
  rw [← List.pairwise_map (f := idOf) (R := (· ≤ ·)), h.records_ids]
  exact tab.keys_pairwise.imp fun hlt => hlt.le

end Records

variable {db db' : Database} {t t' : Tables}

lemma Represents.confirmedGraphRecords_eq (h : Represents db t) :
    confirmedGraphRecords db = .ok t.graph := by
  simp only [confirmedGraphRecords, allNodes, allRelationKinds, allEdges, h.nodes.allRecords_eq,
    h.relations.allRecords_eq, h.edges.allRecords_eq, ok_bind, h.nodes.records_sorted,
    h.relations.records_sorted, h.edges.records_sorted]
  rfl

/-- The compiler reads the identifiers of the relation kinds only. -/
lemma compileRoutingImageImpl_congr {records records' : ConfirmedGraphRecords} {limit : Option ℕ}
    (hnodes : records'.nodes = records.nodes) (hedges : records'.edges = records.edges)
    (hrelations : records'.relationKinds.map RelationRecord.id =
      records.relationKinds.map RelationRecord.id) :
    compileRoutingImageImpl records' limit = compileRoutingImageImpl records limit := by
  have hlength : records'.relationKinds.length = records.relationKinds.length := by
    simpa using congrArg List.length hrelations
  simp only [compileRoutingImageImpl, hnodes, hedges, hrelations, hlength]

namespace Tables.SameGraph

lemma relation_iff (h : t.SameGraph t') (id : RelationId) :
    (∃ r, t'.relations.get id = some r) ↔ ∃ r, t.relations.get id = some r := by
  have hname := h.relations id
  rcases hget' : t'.relations.get id with _ | r'
  · rcases hget : t.relations.get id with _ | r
    · exact iff_of_false (by simp) (by simp)
    · rw [hget', hget] at hname
      cases hname
  · rcases hget : t.relations.get id with _ | r
    · rw [hget', hget] at hname
      cases hname
    · exact iff_of_true ⟨r', rfl⟩ ⟨r, rfl⟩

/-- The same graph gives the same image. -/
lemma compile_eq (h : t.SameGraph t') (hdb : Represents db t) (hdb' : Represents db' t')
    (limit : Option ℕ) :
    compileRoutingImageImpl t'.graph limit = compileRoutingImageImpl t.graph limit := by
  apply compileRoutingImageImpl_congr
  · simp only [Tables.graph, h.nodes]
  · simp only [Tables.graph, h.edges]
  · show (t'.relations.entries.map Prod.snd).map _ = (t.relations.entries.map Prod.snd).map _
    rw [hdb'.relations.records_ids, hdb.relations.records_ids]
    exact SortedMap.keys_eq h.relation_iff

end Tables.SameGraph

end PathHydra
