import PathHydra.Construction.Engine.Publication
import PathHydra.Properties.Store.Reachable
import PathHydra.Properties.Store.Graph

/-!
# The pointer and the graph under the calls of the engine

What each call the engine makes on the catalog does to the two things publication depends on: the
durable pointer, and the confirmed graph.  A graph is given by the records of the tables; the
counts of a relation kind are not part of it (`Tables.Denotes`).
-/

namespace PathHydra

/-- The records are the confirmed graph of the tables: the same nodes, the same edges with their
weights, and relation kinds with the same identifiers and names. -/
structure Tables.Denotes (t : Tables) (graph : ConfirmedGraphRecords) : Prop where
  nodes : graph.nodes = t.graph.nodes
  edges : graph.edges = t.graph.edges
  relations : graph.relationKinds.map (fun r => (r.id, r.name)) =
    t.graph.relationKinds.map fun r => (r.id, r.name)

variable {c c' : Catalog} {t t' : Tables}

lemma Tables.denotes_graph (t : Tables) : t.Denotes t.graph := ⟨rfl, rfl, rfl⟩

/-- The identifiers and names of the relation kinds are their keys and the names under them. -/
lemma Represents.relation_names {db : Database} (h : Represents db t) :
    t.graph.relationKinds.map (fun r => (r.id, some r.name)) =
      (t.relations.entries.map Prod.fst).map fun id =>
        (id, (t.relations.get id).map RelationRecord.name) := by
  show (t.relations.entries.map Prod.snd).map _ = _
  rw [List.map_map, List.map_map]
  refine List.map_congr_left fun e he => ?_
  have hget := SortedMap.get_of_mem he
  simp only [Function.comp_apply, hget, Option.map_some, h.relations.id_eq _ _ hget]

/-- Records that are the graph of the tables are that of any tables with the same graph. -/
lemma Tables.Denotes.of_sameGraph {graph : ConfirmedGraphRecords} (h : t.Denotes graph)
    (hsame : t.SameGraph t') (inv : CatalogInv c t) (inv' : CatalogInv c' t') :
    t'.Denotes graph := by
  refine ⟨?_, ?_, ?_⟩
  · rw [h.nodes]
    simp only [Tables.graph, hsame.nodes]
  · rw [h.edges]
    simp only [Tables.graph, hsame.edges]
  · rw [h.relations]
    have hnames : t'.graph.relationKinds.map (fun r => (r.id, some r.name)) =
        t.graph.relationKinds.map fun r => (r.id, some r.name) := by
      rw [inv.represents.relation_names, inv'.represents.relation_names,
        SortedMap.keys_eq hsame.relation_iff]
      exact List.map_congr_left fun id _ => by rw [hsame.relations id]
    have hsome : Function.Injective (Prod.map id some : RelationId × RelationName → _) :=
      Function.injective_id.prodMap (Option.some_injective _)
    apply List.map_injective_iff.2 hsome
    simpa only [List.map_map, Function.comp_def, Prod.map_apply, id_eq] using hnames.symm

/-- The same graph compiles to the same image. -/
lemma Tables.Denotes.compile_eq {graph : ConfirmedGraphRecords} (h : t.Denotes graph)
    (limit : Option ℕ) :
    compileRoutingImageImpl graph limit = compileRoutingImageImpl t.graph limit := by
  refine compileRoutingImageImpl_congr h.nodes h.edges ?_
  have hids := congrArg (List.map Prod.fst) h.relations
  simpa only [List.map_map, Function.comp_def] using hids

/-- The pointer is not part of the graph. -/
lemma Tables.Denotes.setPointer {graph : ConfirmedGraphRecords} (h : t.Denotes graph)
    (pointer : Option ActiveRoutingImage) :
    Tables.Denotes { t with metadata := { t.metadata with pointer := pointer } } graph :=
  ⟨h.nodes, h.edges, h.relations⟩

namespace CatalogInv

lemma readPointer (inv : CatalogInv c t) :
    readActiveRoutingImage c.db = .ok t.metadata.pointer :=
  inv.represents.readActiveRoutingImage_eq inv.counted.pointer

lemma readGraph (inv : CatalogInv c t) : confirmedGraphRecords c.db = .ok t.graph :=
  inv.represents.confirmedGraphRecords_eq

/-- Opening the database again finds the same catalog, and writes nothing. -/
lemma reopens (inv : CatalogInv c t) (answer : WriteAnswer) : openCatalog answer c.db = .ok c := by
  obtain ⟨hmetadata, hrebuild⟩ := inv.validates
  have hread : ∀ (key : MetadataKey) {n : U64} (id : String),
      t.metadata.value key = some (encodeU64Record n) → readMetadata c.db key.bytes id = .ok n :=
    fun key _ id hvalue => inv.represents.readMetadata_eq key id hvalue
  have hcandidate : ((c.db .default).get META_NEXT_CANDIDATE_ID).isNone = false := by
    rw [show META_NEXT_CANDIDATE_ID = MetadataKey.nextCandidate.bytes from rfl,
      inv.represents.metadata.get]
    rfl
  have hinit : initializeMetadata answer c.db = .ok c.db := by
    have hcounters : metadataCounters =
        [(MetadataKey.nextCandidate.bytes, "next-candidate-id"),
          (MetadataKey.nextNode.bytes, "next-node-id"),
          (MetadataKey.nextRelation.bytes, "next-relation-id"),
          (MetadataKey.nextEdge.bytes, "next-edge-id")] := rfl
    unfold initializeMetadata
    rw [if_neg]
    swap
    · simp only [metadataCounters, List.all_cons, hcandidate, Bool.false_and, Bool.false_eq_true,
        not_false_eq_true]
    simp only [hcounters, List.forM_eq_forM, List.forM_cons, List.forM_nil,
      hread .nextCandidate _ rfl, hread .nextNode _ rfl, hread .nextRelation _ rfl,
      hread .nextEdge _ rfl]
    rfl
  simp only [openCatalog, hinit, hmetadata, hrebuild, ok_bind]
  rfl

/-- An insertion of candidates changes neither the graph nor the pointer. -/
lemma insertCandidates {answer : WriteAnswer} {entries : List CandidateBatchEntry}
    (inv : CatalogInv c t)
    (hrun : (∃ r, insertCandidateBatch answer entries c = .ok r c') ∨
      ∃ e, insertCandidateBatch answer entries c = .error e c') :
    ∃ t', CatalogInv c' t' ∧ t.SameGraph t' ∧ t'.metadata.pointer = t.metadata.pointer := by
  have hensures := insertCandidateBatch_ensures inv answer entries
  rcases hrun with ⟨r, hrun⟩ | ⟨e, hrun⟩
  · obtain ⟨plan, cs, changes, following, h⟩ := hensures.of_ok hrun
    exact ⟨_, h.inv, h.sameGraph inv, rfl⟩
  · obtain ⟨rfl, -⟩ := hensures.of_error hrun
    exact ⟨t, inv, ⟨rfl, rfl, fun _ => rfl⟩, rfl⟩

/-- A confirmed mutation that changes the graph clears the pointer; one that does not leaves
both. -/
lemma mutate {answer : WriteAnswer} {call : CatalogCall} {result : CallResult}
    (inv : CatalogInv c t) (hcall : PublicationSystem.isMutation call = true)
    (hrun : call.run answer c = .ok result c') :
    ∃ t', CatalogInv c' t' ∧
      (PublicationSystem.graphChanged result = true → t'.metadata.pointer = none) ∧
      (PublicationSystem.graphChanged result = false →
        t.SameGraph t' ∧ t'.metadata.pointer = t.metadata.pointer) := by
  -- a deletion always changes the graph
  have hremoved : ∀ {op : CatalogM DeletionResult},
      RunEnsures op c (fun _ c' => ∃ t', CatalogInv c' t' ∧ t'.metadata.pointer = none ∧
        t.Evolves t' ∧ t.Fills t') NotCorrupt →
      (do return CallResult.removed (← op)) c = .ok result c' →
      ∃ t', CatalogInv c' t' ∧
        (PublicationSystem.graphChanged result = true → t'.metadata.pointer = none) ∧
        (PublicationSystem.graphChanged result = false →
          t.SameGraph t' ∧ t'.metadata.pointer = t.metadata.pointer) := by
    intro op hensures hop
    rcases hresult : op c with ⟨r, c''⟩ | ⟨e, c''⟩
    · simp only [bind, EStateM.bind, hresult, pure, EStateM.pure] at hop
      cases hop
      obtain ⟨t', inv', hnone, -⟩ := hensures.of_ok hresult
      exact ⟨t', inv', fun _ => hnone, fun h => by cases h⟩
    · simp only [bind, EStateM.bind, hresult] at hop
      cases hop
  rcases call with entries | ids | ⟨ids, limit⟩ | id | id | pointer | _
  · cases hcall
  · cases hcall
  · have hensures := confirm_ensures inv answer ids limit
    simp only [CatalogCall.run] at hrun
    rcases hresult : confirmCandidateBatchWithResponseLimit answer ids limit c with
      ⟨r, c''⟩ | ⟨e, c''⟩
    · simp only [bind, EStateM.bind, hresult, pure, EStateM.pure] at hrun
      cases hrun
      obtain ⟨t', inv', -, -, hchanged, hsame⟩ := hensures.of_ok hresult
      exact ⟨t', inv', hchanged, hsame⟩
    · simp only [bind, EStateM.bind, hresult] at hrun
      cases hrun
  · exact hremoved (removeEdge_ensures inv answer id) hrun
  · exact hremoved (removeNode_ensures inv answer id) hrun
  · cases hcall
  · cases hcall

/-- A call of the catalog that fails changes nothing. -/
lemma mutate_failed {answer : WriteAnswer} {call : CatalogCall} {e : CatalogError}
    (inv : CatalogInv c t) (hcall : PublicationSystem.isMutation call = true)
    (hrun : call.run answer c = .error e c') : c' = c := by
  have hname : ¬ call.NameTooLong := by
    rcases call with entries | ids | ⟨ids, limit⟩ | id | id | pointer | _ <;>
      first | exact fun h => h | cases hcall
  exact ((CatalogCall.run_ensures inv answer hname).of_error hrun).1

lemma setPointer {answer : WriteAnswer} {pointer : ActiveRoutingImage} {r : Unit}
    (inv : CatalogInv c t) (hrun : setActiveRoutingImage answer pointer c = .ok r c') :
    CatalogInv c' { t with metadata := { t.metadata with pointer := some pointer } } := by
  by_cases hfits : (strBytes pointer.relativeBundle).length < 2 ^ 32
  · exact (setActiveRoutingImage_ensures inv answer hfits).of_ok hrun
  · have hlong := CatalogCall.run_nameTooLong answer c
      (show (CatalogCall.setActiveRoutingImage pointer).NameTooLong from not_lt.1 hfits)
    simp only [CatalogCall.run, bind, EStateM.bind, hrun, pure, EStateM.pure] at hlong
    cases hlong

lemma setPointer_failed {answer : WriteAnswer} {pointer : ActiveRoutingImage} {e : CatalogError}
    (hrun : setActiveRoutingImage answer pointer c = .error e c') : c' = c :=
  ((setActiveRoutingImage_atomic answer c pointer).of_error hrun).1

lemma clearPointer {answer : WriteAnswer} {r : Unit} (inv : CatalogInv c t)
    (hrun : clearActiveRoutingImage answer c = .ok r c') :
    CatalogInv c' { t with metadata := { t.metadata with pointer := none } } :=
  (clearActiveRoutingImage_ensures inv answer).of_ok hrun

/-- Without a pointer there is nothing to read. -/
lemma readPointer_clear {answer : WriteAnswer} {r : Unit}
    (hrun : clearActiveRoutingImage answer c = .ok r c') :
    readActiveRoutingImage c'.db = .ok none := by
  rcases answer with _ | _ | _
  · cases hrun
    have hget : ((c.db.write [.delete .default META_ACTIVE_ROUTING_IMAGE]) .default).get
        META_ACTIVE_ROUTING_IMAGE = none := by
      simp [Database.write, Database.apply, SortedMap.get_erase]
    simp only [readActiveRoutingImage, hget]
  · cases hrun
  · cases hrun

lemma clearPointer_failed {answer : WriteAnswer} {e : CatalogError}
    (hrun : clearActiveRoutingImage answer c = .error e c') : c' = c :=
  ((clearActiveRoutingImage_atomic answer c).of_error hrun).1

end CatalogInv

end PathHydra
