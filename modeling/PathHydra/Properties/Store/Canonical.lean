import PathHydra.Properties.Store.Identity
import PathHydra.Properties.Store.Sound

/-!
# The durable codec is exact

Every format of the store is read back as it was written, and is written back as it was read: no
two byte strings stand for one record, so equality and order of bytes are those of records.

Two formats hold less than their types.  A relation kind whose two counters cannot be added is
written but not read, and a popularity key is read even when no relation kind has its counters.
-/

namespace PathHydra

/-! ## What the encoders accept -/

lemma pushString_isOk {s : String} : (∃ b, pushString s = .ok b) ↔ NameFits s := by
  refine ⟨fun ⟨b, hb⟩ => ?_, fun h => ⟨_, pushString_eq h⟩⟩
  unfold pushString at hb
  split at hb
  · assumption
  · cases hb

lemma pushBytes_isOk {p : NodePayload} : (∃ b, pushBytes p.asBytes = .ok b) ↔ PayloadFits p := by
  refine ⟨fun ⟨b, hb⟩ => ?_, fun h => ⟨_, pushBytes_eq h⟩⟩
  unfold pushBytes at hb
  split_ifs at hb with hlong
  exact not_lt.1 hlong

lemma encodeNode_isOk {r : NodeRecord} : (∃ b, encodeNode r = .ok b) ↔ r.Fits := by
  refine ⟨fun ⟨b, hb⟩ => ?_, fun h => ⟨_, encodeNode_eq h⟩⟩
  obtain ⟨name, hname, hb⟩ := bind_eq_ok.1 hb
  obtain ⟨payload, hpayload, -⟩ := bind_eq_ok.1 hb
  exact ⟨pushString_isOk.1 ⟨_, hname⟩, pushBytes_isOk.1 ⟨_, hpayload⟩⟩

lemma encodeRelation_isOk {r : RelationRecord} :
    (∃ b, encodeRelation r = .ok b) ↔ NameFits r.name.asStr := by
  constructor
  · rintro ⟨b, hb⟩
    obtain ⟨name, hname, -⟩ := bind_eq_ok.1 hb
    exact pushString_isOk.1 ⟨_, hname⟩
  · intro h
    refine ⟨relationBytes r, ?_⟩
    simp only [encodeRelation, pushString_eq h, ok_bind]
    rfl

lemma encodeCandidate_isOk {c : Candidate} : (∃ b, encodeCandidate c = .ok b) ↔ c.Fits := by
  refine ⟨fun ⟨b, hb⟩ => ?_, fun h => ⟨_, encodeCandidate_eq h⟩⟩
  rcases c with ⟨id, name, payload, count⟩ | ⟨id, name, count⟩ | _
  · obtain ⟨_, hname, hb⟩ := bind_eq_ok.1 hb
    obtain ⟨_, hpayload, -⟩ := bind_eq_ok.1 hb
    exact ⟨pushString_isOk.1 ⟨_, hname⟩, pushBytes_isOk.1 ⟨_, hpayload⟩⟩
  · obtain ⟨_, hname, -⟩ := bind_eq_ok.1 hb
    exact pushString_isOk.1 ⟨_, hname⟩
  · trivial

lemma encodePopularityKey_isOk {r : RelationRecord} :
    (∃ b, encodePopularityKey r = .ok b) ↔ r.UsageFits := by
  refine ⟨fun ⟨b, hb⟩ => ?_, fun h => ⟨_, encodePopularityKey_eq h⟩⟩
  unfold encodePopularityKey at hb
  split at hb
  · cases hb
  · rename_i total htotal
    have hsum : r.provisionalReferenceCount.val + r.confirmedEdgeCount.val = total.val :=
      U64.checkedAdd_eq_some.1 htotal
    show _ < _
    rw [hsum]
    exact total.isLt

/-! ## Exact formats -/

/-- A format of records under an identifier.  The encoder accepts what is writable, what it writes
of a readable record is read back, and what is read is written back as it was. -/
structure ExactRecords {α : Type} (encode : α → Except CodecError Bytes)
    (decode : Bytes → U64 → Except CodecError α) (idOf : α → U64) (writable readable : α → Prop) :
    Prop where
  written : ∀ a, (∃ b, encode a = .ok b) ↔ writable a
  roundTrip : ∀ a b, readable a → encode a = .ok b → decode b (idOf a) = .ok a
  canonical : ∀ b id a, decode b id = .ok a → encode a = .ok b ∧ idOf a = id

/-- What is stored for a record is read back as the record. -/
lemma ExactRecords.read_stored {α : Type} {encode : α → Except CodecError Bytes}
    {decode : Bytes → U64 → Except CodecError α} {idOf : α → U64} {writable readable : α → Prop}
    (h : ExactRecords encode decode idOf writable readable) {a : α} (hwritable : writable a)
    (hreadable : readable a) {stored : Option Bytes} (hstored : stored = (encode a).toOption) :
    ∃ b, stored = some b ∧ decode b (idOf a) = .ok a := by
  obtain ⟨b, hb⟩ := (h.written a).2 hwritable
  refine ⟨b, ?_, h.roundTrip a b hreadable hb⟩
  rw [hstored, hb]
  rfl

/-- A format of keys. -/
structure ExactKeys {α : Type} (encode : α → Except CodecError Bytes)
    (decode : Bytes → Except CodecError α) (writable : α → Prop) : Prop where
  written : ∀ a, (∃ b, encode a = .ok b) ↔ writable a
  roundTrip : ∀ a b, encode a = .ok b → decode b = .ok a
  canonical : ∀ b a, decode b = .ok a → encode a = .ok b

lemma candidates_exact : ExactRecords encodeCandidate decodeCandidate (fun c => c.id.asU64)
    Candidate.Fits fun _ => True where
  written _ := encodeCandidate_isOk
  roundTrip c b _ hb := by
    have hfits := encodeCandidate_isOk.1 ⟨b, hb⟩
    rw [encodeCandidate_eq hfits] at hb
    exact Except.ok.inj hb ▸ decodeCandidate_candidateBytes hfits
  canonical b id c h := by
    obtain ⟨rfl, hid, hfits⟩ := decodeCandidate_eq_ok h
    exact ⟨encodeCandidate_eq hfits, congrArg DurableId.asU64 hid⟩

lemma nodes_exact : ExactRecords encodeNode decodeNode (fun r => r.id.asU64) NodeRecord.Fits
    fun _ => True where
  written _ := encodeNode_isOk
  roundTrip r b _ hb := by
    have hfits := encodeNode_isOk.1 ⟨b, hb⟩
    rw [encodeNode_eq hfits] at hb
    exact Except.ok.inj hb ▸ decodeNode_nodeBytes hfits
  canonical b id r h := by
    obtain ⟨rfl, hid, hfits⟩ := decodeNode_eq_ok h
    exact ⟨encodeNode_eq hfits, congrArg DurableId.asU64 hid⟩

lemma relations_exact : ExactRecords encodeRelation decodeRelation (fun r => r.id.asU64)
    (fun r => NameFits r.name.asStr) RelationRecord.UsageFits where
  written _ := encodeRelation_isOk
  roundTrip r b husage hb := by
    have hfits : r.Fits := ⟨encodeRelation_isOk.1 ⟨b, hb⟩, husage⟩
    rw [encodeRelation_eq hfits] at hb
    exact Except.ok.inj hb ▸ decodeRelation_relationBytes hfits
  canonical b id r h := by
    obtain ⟨rfl, hid, hfits⟩ := decodeRelation_eq_ok h
    exact ⟨encodeRelation_eq hfits, congrArg DurableId.asU64 hid⟩

lemma edges_exact : ExactRecords (fun e => .ok (encodeEdge e)) decodeEdge (fun e => e.id.asU64)
    (fun _ => True) fun _ => True where
  written e := iff_of_true ⟨_, rfl⟩ trivial
  roundTrip e b _ hb := Except.ok.inj hb ▸ decodeEdge_encodeEdge e
  canonical b id e h := by
    obtain ⟨rfl, hid⟩ := decodeEdge_eq_ok h
    exact ⟨rfl, congrArg DurableId.asU64 hid⟩

lemma nameKeys_exact : ExactKeys encodeNameKey decodeNameKey NameFits where
  written _ := pushString_isOk
  roundTrip s b hb := by
    have hfits := pushString_isOk.1 ⟨b, hb⟩
    rw [encodeNameKey, pushString_eq hfits] at hb
    exact Except.ok.inj hb ▸ decodeNameKey_nameBytes hfits
  canonical b s h := by
    obtain ⟨rfl, hfits⟩ := decodeNameKey_eq_ok h
    exact pushString_eq hfits

lemma adjacencyKeys_exact : ExactKeys (fun key => .ok (encodeAdjacencyKey key.1 key.2))
    decodeAdjacencyKey fun _ => True where
  written _ := iff_of_true ⟨_, rfl⟩ trivial
  roundTrip key b hb := by
    obtain rfl := Except.ok.inj hb
    simp
  canonical b key h := by rw [decodeAdjacencyKey_eq_ok h]

/-- The popularity key of a relation kind, as its decoder returns it. -/
def popularityKeyOf (r : RelationRecord) : Option (U64 × U64 × RelationId) :=
  r.totalReferenceCount.map fun total => (total, r.confirmedEdgeCount, r.id)

/-- The popularity keys.  What is read is what every relation kind with these counters writes. -/
structure ExactPopularityKeys : Prop where
  written : ∀ r, (∃ b, encodePopularityKey r = .ok b) ↔ r.UsageFits
  roundTrip : ∀ r b, encodePopularityKey r = .ok b →
    ∃ key, popularityKeyOf r = some key ∧ decodePopularityKey b = .ok key
  canonical : ∀ b key, decodePopularityKey b = .ok key →
    ∀ r, popularityKeyOf r = some key → encodePopularityKey r = .ok b

lemma popularityKeys_exact : ExactPopularityKeys where
  written _ := encodePopularityKey_isOk
  roundTrip r b hb := by
    have hfits := encodePopularityKey_isOk.1 ⟨b, hb⟩
    obtain ⟨total, htotal⟩ := hfits.total
    rw [encodePopularityKey_eq hfits] at hb
    obtain rfl := Except.ok.inj hb
    refine ⟨(total, r.confirmedEdgeCount, r.id), by rw [popularityKeyOf, htotal]; rfl, ?_⟩
    rw [decodePopularityKey_popularityBytes, htotal]
    rfl
  canonical b key h r hr := by
    obtain ⟨total, htotal, rfl⟩ := Option.map_eq_some_iff.1 hr
    rw [decodePopularityKey_eq_ok h, encodePopularityKey, htotal]

/-- The pointer to the active image, in the record of the metadata that holds it. -/
structure ExactPointer : Prop where
  roundTrip : ∀ (db : Database) p, (strBytes p.relativeBundle).length < 2 ^ 32 →
    (db .default).get META_ACTIVE_ROUTING_IMAGE = some (encodeActiveRoutingImage p) →
      readActiveRoutingImage db = .ok (some p)
  canonical : ∀ (db : Database) p, readActiveRoutingImage db = .ok (some p) →
    (db .default).get META_ACTIVE_ROUTING_IMAGE = some (encodeActiveRoutingImage p)

lemma pointer_exact : ExactPointer where
  roundTrip _ _ hfits hget := readActiveRoutingImage_of_get hget hfits
  canonical _ _ h := (readActiveRoutingImage_eq_ok h).1

/-- Keys are ordered as what they stand for. -/
structure OrderedKeys : Prop where
  ids : ∀ {k : IdKind} (a b : DurableId k), encodeIdKey a.asU64 < encodeIdKey b.asU64 ↔ a < b
  adjacency : ∀ n n' e e',
    encodeAdjacencyKey n e < encodeAdjacencyKey n' e' ↔ n < n' ∨ (n = n' ∧ e < e')

lemma keys_ordered : OrderedKeys where
  ids a b := beBytes_lt_iff a.asU64.isLt b.asU64.isLt
  adjacency _ _ _ _ := adjacencyKey_lt_iff

/-- The durable codec.  Every record, key and pointer that can be written is read back, where the
two counters of a relation kind can be added; what is read is written back byte for byte; keys are
ordered as what they stand for; and in every state of a catalog the scan of a node yields exactly
its edges, in the order of their identifiers. -/
theorem durableCodec_exact {c₀ c : Catalog} {actions : List (CatalogCall × WriteAnswer)}
    {outs : List (CatalogCall × Except CatalogError CallResult)}
    (hopen : openCatalog .written Database.empty = .ok c₀)
    (hrun : catalogMachine.run c₀ actions = some (c, outs)) :
    (ExactRecords encodeCandidate decodeCandidate (fun c => c.id.asU64) Candidate.Fits
        (fun _ => True) ∧
      ExactRecords encodeNode decodeNode (fun r => r.id.asU64) NodeRecord.Fits (fun _ => True) ∧
      ExactRecords encodeRelation decodeRelation (fun r => r.id.asU64)
        (fun r => NameFits r.name.asStr) RelationRecord.UsageFits ∧
      ExactRecords (fun e => .ok (encodeEdge e)) decodeEdge (fun e => e.id.asU64)
        (fun _ => True) (fun _ => True)) ∧
    (ExactKeys encodeNameKey decodeNameKey NameFits ∧
      ExactKeys (fun key => .ok (encodeAdjacencyKey key.1 key.2)) decodeAdjacencyKey
        (fun _ => True) ∧ ExactPopularityKeys ∧ ExactPointer) ∧
    OrderedKeys ∧
    ∃ edges, allEdges c.db = .ok edges ∧ edges.Pairwise (fun a b => a.id < b.id) ∧
      ∀ node,
        incidentEdges c.db .outgoingEdges node true =
          .ok (edges.filter fun e => decide (e.source = node)) ∧
        incidentEdges c.db .incomingEdges node false =
          .ok (edges.filter fun e => decide (e.destination = node)) := by
  refine ⟨⟨candidates_exact, nodes_exact, relations_exact, edges_exact⟩,
    ⟨nameKeys_exact, adjacencyKeys_exact, popularityKeys_exact, pointer_exact⟩, keys_ordered, ?_⟩
  obtain rfl : c₀ = .fresh := Except.ok.inj (hopen.symm.trans openCatalog_empty)
  obtain ⟨t, inv, -⟩ := catalogMachine_evolves fresh_inv hrun
  have hrep := inv.represents
  refine ⟨_, hrep.edges.allRecords_eq, ?_, fun node =>
    ⟨hrep.incidentEdges_eq_edgesAt hrep.outgoing_endpoint node,
      hrep.incidentEdges_eq_edgesAt hrep.incoming_endpoint node⟩⟩
  refine List.pairwise_map.2 (t.edges.sorted.imp_of_mem fun {a b} ha hb hlt => ?_)
  rw [hrep.edges.id_eq _ _ (SortedMap.get_of_mem ha), hrep.edges.id_eq _ _ (SortedMap.get_of_mem hb)]
  exact hlt

/-- Three edges between two nodes are confirmed, candidates of every kind wait beside them, with
references to confirmed records and to other candidates, and an image is active. -/
def codecCalls : List (CatalogCall × WriteAnswer) :=
  [(.insertCandidateBatch [.node ⟨"a"⟩ ⟨[1]⟩, .node ⟨"b"⟩ ⟨[]⟩, .relationKind ⟨"r"⟩,
      .edge (.batchNode 0) (.batchNode 1) (.batchRelationKind 2) ⟨0, BaseWeight.zeroBits_le⟩,
      .edge (.batchNode 1) (.batchNode 0) (.batchRelationKind 2) ⟨0, BaseWeight.zeroBits_le⟩,
      .edge (.batchNode 0) (.batchNode 0) (.batchRelationKind 2) ⟨0, BaseWeight.zeroBits_le⟩],
      .written),
    (.confirmCandidateBatch [⟨1⟩, ⟨2⟩, ⟨3⟩, ⟨4⟩, ⟨5⟩, ⟨6⟩], .written),
    (.insertCandidateBatch [.node ⟨"c"⟩ ⟨[2]⟩, .relationKind ⟨"s"⟩,
      .edge (.batchNode 0) (.confirmed ⟨1⟩) (.batchRelationKind 1) ⟨0, BaseWeight.zeroBits_le⟩,
      .edge (.confirmed ⟨1⟩) (.batchNode 0) (.confirmed ⟨1⟩) ⟨0, BaseWeight.zeroBits_le⟩],
      .written),
    (.setActiveRoutingImage (longBundle 3), .written)]

/-- The candidates that wait. -/
def codecCandidates : List Candidate :=
  [.node ⟨7⟩ ⟨"c"⟩ ⟨[2]⟩ 2, .relation ⟨8⟩ ⟨"s"⟩ 1,
    .edge ⟨9⟩ (.candidate ⟨7⟩) (.confirmed ⟨1⟩) (.candidate ⟨8⟩) ⟨0, BaseWeight.zeroBits_le⟩,
    .edge ⟨10⟩ (.confirmed ⟨1⟩) (.candidate ⟨7⟩) (.confirmed ⟨1⟩) ⟨0, BaseWeight.zeroBits_le⟩]

/-- The first node, the relation kind and the edges. -/
def codecNode : NodeRecord := ⟨⟨1⟩, ⟨"a"⟩, ⟨[1]⟩⟩

def codecRelation : RelationRecord := ⟨⟨1⟩, ⟨"r"⟩, 1, 3⟩

def codecEdges : List EdgeRecord :=
  [⟨⟨1⟩, ⟨1⟩, ⟨2⟩, ⟨1⟩, ⟨0, BaseWeight.zeroBits_le⟩⟩,
    ⟨⟨2⟩, ⟨2⟩, ⟨1⟩, ⟨1⟩, ⟨0, BaseWeight.zeroBits_le⟩⟩,
    ⟨⟨3⟩, ⟨1⟩, ⟨1⟩, ⟨1⟩, ⟨0, BaseWeight.zeroBits_le⟩⟩]

/-- What is stored for the records, and the keys that lead to them. -/
abbrev CodecStored (db : Database) : Prop :=
  (∀ r ∈ codecCandidates, (db .candidates).get (encodeIdKey r.id.asU64) =
    (encodeCandidate r).toOption) ∧
  (db .nodes).get (encodeIdKey 1) = (encodeNode codecNode).toOption ∧
  (db .relationKinds).get (encodeIdKey 1) = (encodeRelation codecRelation).toOption ∧
  (∀ e ∈ codecEdges, (db .edges).get (encodeIdKey e.id.asU64) = some (encodeEdge e)) ∧
  ((encodeNameKey "a").toOption.bind (db .nodeNames).get).isSome ∧
  ((db .outgoingEdges).get (encodeAdjacencyKey ⟨1⟩ ⟨3⟩)).isSome ∧
  ((encodePopularityKey codecRelation).toOption.bind (db .relationPopularity).get).isSome ∧
  (db .default).get META_ACTIVE_ROUTING_IMAGE = some (encodeActiveRoutingImage (longBundle 3)) ∧
  (allEdges db).toOption = some codecEdges

theorem durableCodec_exact_stored : ∃ c outs,
    catalogMachine.run .fresh codecCalls = some (c, outs) ∧
    ((∀ r ∈ codecCandidates, ∃ b, (c.db .candidates).get (encodeIdKey r.id.asU64) = some b ∧
        decodeCandidate b r.id.asU64 = .ok r) ∧
      (∃ b, (c.db .nodes).get (encodeIdKey 1) = some b ∧ decodeNode b 1 = .ok codecNode) ∧
      (∃ b, (c.db .relationKinds).get (encodeIdKey 1) = some b ∧
        decodeRelation b 1 = .ok codecRelation) ∧
      ∀ e ∈ codecEdges, ∃ b, (c.db .edges).get (encodeIdKey e.id.asU64) = some b ∧
        decodeEdge b e.id.asU64 = .ok e) ∧
    ((∃ b, ((c.db .nodeNames).get b).isSome ∧ decodeNameKey b = .ok "a") ∧
      (∃ b, ((c.db .outgoingEdges).get b).isSome ∧ decodeAdjacencyKey b = .ok (⟨1⟩, ⟨3⟩)) ∧
      (∃ b, ((c.db .relationPopularity).get b).isSome ∧
        decodePopularityKey b = .ok (4, 3, ⟨1⟩)) ∧
      readActiveRoutingImage c.db = .ok (some (longBundle 3))) ∧
    encodeAdjacencyKey ⟨1⟩ ⟨3⟩ < encodeAdjacencyKey ⟨2⟩ ⟨2⟩ ∧
    (incidentEdges c.db .outgoingEdges ⟨1⟩ true).map (List.map EdgeRecord.id) = .ok [⟨1⟩, ⟨3⟩] := by
  obtain ⟨c, outs, hrun⟩ := catalogMachine_run_total .fresh codecCalls
  have hstored : (catalogMachine.run .fresh codecCalls).map (fun s => decide (CodecStored s.1.db)) =
      some true := by
    decide +kernel
  rw [hrun, Option.map_some, Option.some.injEq, decide_eq_true_eq] at hstored
  obtain ⟨hcandidates, hnode, hrelation, hedges, hname, hadjacency, hpopularity, hpointer, hall⟩ :=
    hstored
  obtain ⟨⟨candidates, nodes, relations, edges⟩, ⟨names, adjacency, popularity, pointer⟩, hordered,
    scanned, hscanned, -, hscan⟩ := durableCodec_exact openCatalog_empty hrun
  -- what remains is that each record is within the limits of its codec
  have hshort : ∀ name ∈ ["a", "r", "s", "c"], NameFits name := by
    show ∀ name ∈ ["a", "r", "s", "c"], (strBytes name).length < 2 ^ 32
    decide +kernel
  have hpayload : ∀ payload ∈ [NodePayload.mk [1], ⟨[2]⟩], PayloadFits payload := by
    show ∀ payload ∈ [NodePayload.mk [1], ⟨[2]⟩], payload.asBytes.length ≤ 16 * 1024 * 1024
    decide +kernel
  have husage : codecRelation.UsageFits := by
    show 1 + 3 < 2 ^ 64
    decide
  have hwaiting : ∀ r ∈ codecCandidates, r.Fits := by
    simp only [codecCandidates, List.forall_mem_cons, List.not_mem_nil, false_imp_iff,
      implies_true, and_true, Candidate.Fits]
    exact ⟨⟨hshort "c" (by simp), hpayload ⟨[2]⟩ (by simp)⟩, hshort "s" (by simp)⟩
  refine ⟨c, outs, hrun, ⟨?_, ?_, ?_, ?_⟩, ⟨?_, ?_, ?_, ?_⟩, ?_, ?_⟩
  · exact fun r hr => candidates.read_stored (hwaiting r hr) trivial (hcandidates r hr)
  · have hwritable : codecNode.Fits := ⟨hshort "a" (by simp), hpayload ⟨[1]⟩ (by simp)⟩
    exact nodes.read_stored hwritable trivial hnode
  · have hwritable : NameFits codecRelation.name.asStr := hshort "r" (by simp)
    exact relations.read_stored hwritable husage hrelation
  · exact fun e he => edges.read_stored trivial trivial (hedges e he)
  · obtain ⟨b, hb⟩ := (names.written "a").2 (hshort "a" (by simp))
    rw [hb] at hname
    exact ⟨b, hname, names.roundTrip "a" b hb⟩
  · exact ⟨_, hadjacency, adjacency.roundTrip (⟨1⟩, ⟨3⟩) _ rfl⟩
  · obtain ⟨b, hb⟩ := (popularity.written codecRelation).2 husage
    obtain ⟨key, hkey, hread⟩ := popularity.roundTrip codecRelation b hb
    rw [hb] at hpopularity
    cases hkey
    exact ⟨b, hpopularity, hread⟩
  · refine pointer.roundTrip c.db (longBundle 3) ?_ hpointer
    rw [length_longBundle]
    decide
  · exact (hordered.adjacency ⟨1⟩ ⟨2⟩ ⟨3⟩ ⟨2⟩).2 (.inl (by decide))
  · rw [hscanned] at hall
    obtain rfl : scanned = codecEdges := Option.some.inj hall
    rw [(hscan ⟨1⟩).1]
    rfl

/-- A relation kind with two counters of `2 ^ 63` is written and is not read back. -/
theorem overflowing_relation_not_read :
    ∃ r b, encodeRelation r = .ok b ∧ decodeRelation b r.id.asU64 ≠ .ok r := by
  let r : RelationRecord := ⟨.ofNat 1, ⟨"r"⟩, Fin.ofNat _ (2 ^ 63), Fin.ofNat _ (2 ^ 63)⟩
  have hname : NameFits r.name.asStr := by
    show (strBytes "r").length < 2 ^ 32
    decide +kernel
  obtain ⟨b, hb⟩ := encodeRelation_isOk.2 hname
  refine ⟨r, b, hb, fun h => ?_⟩
  obtain ⟨-, -, hfits⟩ := decodeRelation_eq_ok h
  have husage : 2 ^ 63 + 2 ^ 63 < 2 ^ 64 := hfits.usage
  omega

end PathHydra
