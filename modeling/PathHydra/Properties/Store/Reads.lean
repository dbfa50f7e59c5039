import PathHydra.Properties.Store.Tables

/-!
# Reads of a represented database

Every lookup and scan of the catalog, computed from the tables the database represents.  None of
them finds a corrupt record.
-/

namespace PathHydra

variable {db : Database} {t : Tables}

/-- The candidate is an edge at a confirmed node. -/
def Candidate.MentionsNode (node : NodeId) : Candidate → Prop
  | .edge _ source destination _ _ => source = .confirmed node ∨ destination = .confirmed node
  | _ => False

/-- The edges at a node, in the order of their identifiers. -/
def Tables.edgesAt (t : Tables) (outgoing : Bool) (node : NodeId) :
    List EdgeRecord :=
  (t.edges.entries.map Prod.snd).filter fun e => decide (e.endpoint outgoing = node)

/-! ## Single entries -/

/-- A stored pointer is read back. -/
lemma readActiveRoutingImage_of_get {p : ActiveRoutingImage}
    (hget : (db .default).get META_ACTIVE_ROUTING_IMAGE = some (encodeActiveRoutingImage p))
    (hname : (strBytes p.relativeBundle).length < 2 ^ 32) :
    readActiveRoutingImage db = .ok (some p) := by
  have hsum := p.manifestChecksum.length_eq
  have hlen : (encodeActiveRoutingImage p).length =
      4 + (strBytes p.relativeBundle).length + 32 := by
    simp only [encodeActiveRoutingImage, List.length_append, length_leBytes, hsum]
  have htake : leValue ((encodeActiveRoutingImage p).take 4) =
      (strBytes p.relativeBundle).length := by
    rw [encodeActiveRoutingImage, List.append_assoc, List.take_left' (by simp)]
    exact leValue_leBytes (by simpa using hname)
  have hdrop : (encodeActiveRoutingImage p).drop 4 =
      strBytes p.relativeBundle ++ p.manifestChecksum.bytes := by
    rw [encodeActiveRoutingImage, List.append_assoc, List.drop_left' (by simp)]
  have hchecksum : (encodeActiveRoutingImage p).drop (4 + (strBytes p.relativeBundle).length) =
      p.manifestChecksum.bytes := by
    rw [← List.drop_drop, hdrop, List.drop_left]
  unfold readActiveRoutingImage
  simp only [hget]
  rw [if_neg (by omega)]
  simp only [htake]
  rw [dif_pos hlen, hdrop, List.take_left, fromUtf8_strBytes]
  simp only [hchecksum]

/-- Adjacency keys are ordered by node and then by edge. -/
lemma adjacencyKey_lt_iff {n n' : NodeId} {e e' : EdgeId} :
    encodeAdjacencyKey n e < encodeAdjacencyKey n' e' ↔ n < n' ∨ (n = n' ∧ e < e') := by
  have hnode : beBytes64 n.asU64 < beBytes64 n'.asU64 ↔ n < n' :=
    beBytes_lt_iff n.asU64.isLt n'.asU64.isLt
  have hedge : beBytes64 e.asU64 < beBytes64 e'.asU64 ↔ e < e' :=
    beBytes_lt_iff e.asU64.isLt e'.asU64.isLt
  have hsame : beBytes64 n.asU64 = beBytes64 n'.asU64 ↔ n = n' :=
    ⟨fun heq => idKey_inj heq, fun heq => by rw [heq]⟩
  rw [encodeAdjacencyKey, encodeAdjacencyKey, fields_lt_iff (by simp [beBytes64]), hnode, hedge,
    hsame]

/-- The scan of an adjacency family reads the entries that begin with the node. -/
lemma scan_eq_filter (m : SortedMap Bytes Bytes) (node : NodeId) :
    (m.entries.dropWhile fun e => decide (e.1 < beBytes64 node.asU64)).takeWhile
      (fun e => decide (e.1.take 8 = beBytes64 node.asU64)) =
        m.entries.filter fun e => decide (e.1.take 8 = beBytes64 node.asU64) := by
  have hlength : (beBytes64 node.asU64).length = 8 := by simp [beBytes64]
  refine takeWhile_dropWhile_eq_filter m.sorted (fun x hx => ?_) (fun x y hxy hx => ?_)
    fun x y hxy hx hix => ?_
  · simp only [decide_eq_true_eq, decide_eq_false_iff_not, not_lt] at hx ⊢
    rw [← hx]
    exact take_le_self 8 x.1
  · simp only [decide_eq_false_iff_not, not_lt] at hx ⊢
    exact hx.trans hxy.le
  · simp only [decide_eq_false_iff_not, not_lt] at hx hix ⊢
    intro hy
    have hbetween : x.1 ≤ beBytes64 node.asU64 ++ y.1.drop 8 := by
      rw [← hy, List.take_append_drop]
      exact hxy.le
    have htake := take_eq_of_between hx hbetween
    rw [hlength] at htake
    exact hix htake

namespace Represents

/-! ## Records -/

lemma getNode_eq (h : Represents db t) (id : NodeId) :
    getNodeFromDb db id = okOr (.notFound .node id.asU64) (t.nodes.get id) :=
  h.nodes.getRecord_eq .node id

lemma getCandidate_eq (h : Represents db t) (id : CandidateId) :
    getCandidateFromDb db id = okOr (.notFound .candidate id.asU64) (t.candidates.get id) :=
  h.candidates.getRecord_eq .candidate id

lemma getRelation_eq (h : Represents db t) (id : RelationId) :
    getRelationFromDb db id = okOr (.notFound .relation id.asU64) (t.relations.get id) :=
  h.relations.getRecord_eq .relation id

lemma getEdge_eq (h : Represents db t) (id : EdgeId) :
    getEdgeFromDb db id = okOr (.notFound .edge id.asU64) (t.edges.get id) :=
  h.edges.getRecord_eq .edge id

lemma requireNode_eq (h : Represents db t) (id : NodeId) (endpoint : EdgeEndpoint) :
    requireNode db id endpoint =
      (okOr (.missingEdgeEndpoint endpoint id) (t.nodes.get id)).map fun _ => () := by
  unfold requireNode
  rw [h.getNode_eq]
  rcases t.nodes.get id with _ | r
  · rfl
  · rfl

lemma requireRelationKind_eq (h : Represents db t) (id : RelationId) :
    requireRelationKind db id =
      (okOr (.missingEdgeRelationKind id) (t.relations.get id)).map fun _ => () := by
  unfold requireRelationKind
  rw [h.getRelation_eq]
  rcases t.relations.get id with _ | r
  · rfl
  · rfl

/-! ## Metadata -/

lemma readMetadata_eq (h : Represents db t) (key : MetadataKey) {n : U64} (recordId : String)
    (hvalue : t.metadata.value key = some (encodeU64Record n)) :
    readMetadata db key.bytes recordId = .ok n := by
  unfold readMetadata
  rw [h.metadata.get key, hvalue]
  simp [mapErr]

lemma readActiveRoutingImage_eq (h : Represents db t)
    (hfits : ∀ p, t.metadata.pointer = some p → (strBytes p.relativeBundle).length < 2 ^ 32) :
    readActiveRoutingImage db = .ok t.metadata.pointer := by
  have hget : (db .default).get META_ACTIVE_ROUTING_IMAGE =
      t.metadata.pointer.map encodeActiveRoutingImage := h.metadata.get .pointer
  rcases hp : t.metadata.pointer with _ | p
  · rw [hp] at hget
    unfold readActiveRoutingImage
    rw [hget]
    rfl
  · rw [hp] at hget
    exact readActiveRoutingImage_of_get hget (hfits p hp)

/-! ## Adjacency -/

lemma validateExactAdjacency_eq (h : Represents db t) {e : EdgeRecord} (he : t.HasEdge e) :
    validateExactAdjacency db e = .ok () := by
  simp [validateExactAdjacency, requireAdjacency, h.outgoing.get_key he, h.incoming.get_key he,
    mapErr]

lemma outgoing_endpoint (h : Represents db t) : Indexes (db .outgoingEdges) t.HasEdge
    (fun e => encodeAdjacencyKey (e.endpoint true) e.id) fun e => encodeAdjacencyValue e.id :=
  h.outgoing

lemma incoming_endpoint (h : Represents db t) : Indexes (db .incomingEdges) t.HasEdge
    (fun e => encodeAdjacencyKey (e.endpoint false) e.id) fun e => encodeAdjacencyValue e.id :=
  h.incoming

lemma mem_edgesAt (h : Represents db t) {outgoing : Bool} {node : NodeId} {e : EdgeRecord} :
    e ∈ t.edgesAt outgoing node ↔ t.HasEdge e ∧ e.endpoint outgoing = node := by
  rw [Tables.edgesAt, List.mem_filter, List.mem_map, decide_eq_true_eq]
  refine and_congr_left fun _ => ⟨?_, fun he => ⟨(e.id, e), SortedMap.get_eq_some.1 he, rfl⟩⟩
  rintro ⟨entry, hentry, rfl⟩
  exact h.edges.has (SortedMap.get_of_mem hentry)

lemma edgesAt_ascending (h : Represents db t) (outgoing : Bool) (node : NodeId) :
    (t.edgesAt outgoing node).Pairwise fun a b => a.id < b.id := by
  refine List.Pairwise.filter _ (List.pairwise_map.2 (t.edges.sorted.imp_of_mem ?_))
  intro a b ha hb hlt
  rw [h.edges.id_eq _ _ (SortedMap.get_of_mem ha), h.edges.id_eq _ _ (SortedMap.get_of_mem hb)]
  exact hlt

/-- The entries that begin with a node are those of its edges. -/
lemma adjacent_entries (h : Represents db t) {family : ColumnFamily} {outgoing : Bool}
    (hindex : Indexes (db family) t.HasEdge (fun e => encodeAdjacencyKey (e.endpoint outgoing) e.id)
      fun e => encodeAdjacencyValue e.id) (node : NodeId) :
    ((db family).entries.filter fun e => decide (e.1.take 8 = beBytes64 node.asU64)) =
      (t.edgesAt outgoing node).map fun e =>
        (encodeAdjacencyKey (e.endpoint outgoing) e.id, encodeAdjacencyValue e.id) := by
  have hleading : ∀ e : EdgeRecord, (encodeAdjacencyKey (e.endpoint outgoing) e.id).take 8 =
      beBytes64 node.asU64 ↔ e.endpoint outgoing = node := by
    intro e
    rw [encodeAdjacencyKey, List.take_left' (by simp [beBytes64])]
    exact ⟨fun heq => idKey_inj heq, fun heq => by rw [heq]⟩
  have hfiltered : Indexes ⟨_, List.Pairwise.filter
      (fun e => decide (e.1.take 8 = beBytes64 node.asU64)) (db family).sorted⟩
      (fun e => t.HasEdge e ∧ e.endpoint outgoing = node)
      (fun e => encodeAdjacencyKey (e.endpoint outgoing) e.id)
      fun e => encodeAdjacencyValue e.id := by
    intro k v
    rw [SortedMap.get_eq_some, List.mem_filter, ← SortedMap.get_eq_some, hindex k v,
      decide_eq_true_eq]
    constructor
    · rintro ⟨⟨e, he, rfl, rfl⟩, hk⟩
      exact ⟨e, ⟨he, (hleading e).1 hk⟩, rfl, rfl⟩
    · rintro ⟨e, ⟨he, hnode⟩, rfl, rfl⟩
      exact ⟨⟨e, he, rfl, rfl⟩, (hleading e).2 hnode⟩
  refine hfiltered.entries_eq_map (fun e => h.mem_edgesAt)
    ((h.edgesAt_ascending outgoing node).imp_of_mem fun {a b} ha hb hlt => ?_)
  exact adjacencyKey_lt_iff.2
    (.inr ⟨(h.mem_edgesAt.1 ha).2.trans (h.mem_edgesAt.1 hb).2.symm, hlt⟩)

/-- The scan of an adjacency family lists the edges at the node. -/
lemma incidentEdges_eq_edgesAt (h : Represents db t) {family : ColumnFamily} {outgoing : Bool}
    (hindex : Indexes (db family) t.HasEdge (fun e => encodeAdjacencyKey (e.endpoint outgoing) e.id)
      fun e => encodeAdjacencyValue e.id) (node : NodeId) :
    incidentEdges db family node outgoing = .ok (t.edgesAt outgoing node) := by
  unfold incidentEdges
  simp only [scan_eq_filter, h.adjacent_entries hindex, List.mapM_map]
  refine (mapM_eq_ok (g := id) _ fun e he => ?_).trans (by rw [List.map_id])
  obtain ⟨hedge, hendpoint⟩ := h.mem_edgesAt.1 he
  have hget : t.edges.get e.id = some e := hedge
  simp [incidentEdge, mapErr, hendpoint, h.getEdge_eq, hget, pure, Except.pure]

/-- The scan of an adjacency family finds the edges at the node. -/
lemma incidentEdges_eq (h : Represents db t) {family : ColumnFamily} {outgoing : Bool}
    (hindex : Indexes (db family) t.HasEdge (fun e => encodeAdjacencyKey (e.endpoint outgoing) e.id)
      fun e => encodeAdjacencyValue e.id) (node : NodeId) :
    ∃ edges, incidentEdges db family node outgoing = .ok edges ∧
      ∀ e, e ∈ edges ↔ t.HasEdge e ∧ e.endpoint outgoing = node :=
  ⟨_, h.incidentEdges_eq_edgesAt hindex node, fun _ => h.mem_edgesAt⟩

/-! ## Candidates at a node -/

/-- The scan for a provisional edge at the node finds one exactly if there is one. -/
lemma provisionalEdge_ensures (h : Represents db t) (node : NodeId) :
    Ensures (provisionalEdgeReferencingConfirmedNode db node)
      (fun found => found = none ↔
        ∀ id c, t.candidates.get id = some c → ¬ c.MentionsNode node) fun _ => False := by
  suffices hscan : ∀ l : List (CandidateId × Candidate), (∀ e ∈ l, e ∈ t.candidates.entries) →
      Ensures (provisionalEdgeReferencing node
          (l.map fun e => (encodeIdKey e.1.asU64, candidateBytes e.2)))
        (fun found => found = none ↔ ∀ e ∈ l, ¬ e.2.MentionsNode node) fun _ => False by
    unfold provisionalEdgeReferencingConfirmedNode
    rw [h.candidates.entries_eq]
    refine (hscan t.candidates.entries fun _ he => he).mono fun found _ hfound => hfound.trans ?_
    constructor
    · exact fun hall id c hget => hall (id, c) (SortedMap.get_eq_some.1 hget)
    · exact fun hall e he => hall e.1 e.2 (SortedMap.get_of_mem he)
  intro l hl
  induction l with
  | nil => exact iff_of_true rfl fun e he => absurd he (by simp)
  | cons e l ih =>
    have hget := SortedMap.get_of_mem (hl e (by simp))
    have hdecode := h.candidates.decodes _ _ hget
    rw [h.candidates.id_eq _ _ hget] at hdecode
    have hrest := ih fun e' he' => hl e' (by simp [he'])
    have hskip : ¬ e.2.MentionsNode node → Ensures (provisionalEdgeReferencing node
          (l.map fun e => (encodeIdKey e.1.asU64, candidateBytes e.2)))
        (fun found => found = none ↔ ∀ e' ∈ e :: l, ¬ e'.2.MentionsNode node) fun _ => False := by
      intro hnot
      refine hrest.mono fun found _ hfound => hfound.trans ?_
      rw [List.forall_mem_cons]
      exact (and_iff_right hnot).symm
    simp only [List.map_cons, provisionalEdgeReferencing, mapErr, decodeIdKey_encodeIdKey, hdecode,
      ok_bind]
    rcases hc : e.2 with _ | _ | ⟨id, source, destination, relationKind, baseWeight⟩
    · exact hskip (by simp [hc, Candidate.MentionsNode])
    · exact hskip (by simp [hc, Candidate.MentionsNode])
    · by_cases hmentions : source = .confirmed node ∨ destination = .confirmed node
      · simp only [if_pos hmentions]
        refine iff_of_false (by simp) fun hall => hall e (by simp) ?_
        simpa [hc, Candidate.MentionsNode] using hmentions
      · simp only [if_neg hmentions]
        exact hskip (by simpa [hc, Candidate.MentionsNode] using hmentions)

end Represents

end PathHydra
