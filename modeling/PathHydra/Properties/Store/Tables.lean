import PathHydra.Construction.Store.Validate
import PathHydra.Framework.Index
import PathHydra.Properties.Store.Codec

/-!
# The database as typed tables

`Tables` is what the catalog is about: candidates, nodes, relation kinds and edges by identifier,
the counters and the pointer.  `Represents db t` says that the column families hold exactly the
encodings of these tables and of the indexes derived from them.

Reads agree with the tables (`Stored.getRecord_eq`, `Stored.allRecords_eq`), and each group of
entries an operation puts into its batch changes the tables in one place: `Represents.putNode`,
`Represents.updateRelation` and their siblings.
-/

namespace PathHydra

/-! ## Records by identifier -/

section Stored

variable {k : IdKind} {R : Type} {m : SortedMap Bytes Bytes} {tab : SortedMap (DurableId k) R}
  {idOf : R → DurableId k} {val : R → Bytes} {decode : Bytes → U64 → Except CodecError R}

/-- The family holds the records of the table, each under its identifier and readable. -/
structure Stored (m : SortedMap Bytes Bytes) (tab : SortedMap (DurableId k) R)
    (idOf : R → DurableId k) (val : R → Bytes) (decode : Bytes → U64 → Except CodecError R) :
    Prop where
  indexes : Indexes m (fun r => tab.get (idOf r) = some r)
    (fun r => encodeIdKey (idOf r).asU64) val
  id_eq : ∀ id r, tab.get id = some r → idOf r = id
  decodes : ∀ id r, tab.get id = some r → decode (val r) (idOf r).asU64 = .ok r

/-- The keys of records are ordered as their identifiers. -/
lemma idKey_strictMono : StrictMono fun id : DurableId k => encodeIdKey id.asU64 := by
  intro a b h
  exact beBytes_lt (DurableId.lt_def.1 h) (by simp)

lemma has_insert {r b : R} : (tab.insert (idOf r) r).get (idOf b) = some b ↔
    b = r ∨ tab.get (idOf b) = some b ∧ idOf b ≠ idOf r := by
  rw [SortedMap.get_insert]
  split_ifs with h
  · simp [h, eq_comm]
  · constructor
    · exact fun hb => .inr ⟨hb, h⟩
    · rintro (rfl | hb)
      · exact absurd rfl h
      · exact hb.1

lemma has_unique {r b : R} (hb : tab.get (idOf b) = some b) (hr : tab.get (idOf r) = some r)
    (hid : idOf b = idOf r) : b = r := by
  rw [hid, hr] at hb
  exact (Option.some.inj hb).symm

lemma has_erase {id : DurableId k} {b : R} : (tab.erase id).get (idOf b) = some b ↔
    tab.get (idOf b) = some b ∧ idOf b ≠ id := by
  rw [SortedMap.get_erase]
  split_ifs with h
  · simp [h]
  · simp [h]

namespace Stored

lemma has (h : Stored m tab idOf val decode) {id : DurableId k} {r : R} (hr : tab.get id = some r) :
    tab.get (idOf r) = some r := by
  rw [h.id_eq id r hr]
  exact hr

lemma get_key (h : Stored m tab idOf val decode) (id : DurableId k) :
    m.get (encodeIdKey id.asU64) = (tab.get id).map val := by
  rcases hget : tab.get id with _ | r
  · refine h.indexes.get_eq_none fun r hr hkey => ?_
    rw [idKey_inj hkey, hget] at hr
    cases hr
  · obtain rfl := h.id_eq id r hget
    exact h.indexes.get_key hget

/-- Reading a record reads the table. -/
lemma getRecord_eq {db : Database} {family : ColumnFamily}
    (h : Stored (db family) tab idOf val decode) (kind : RecordKind) (id : DurableId k) :
    getRecord db family kind decode id.asU64 = okOr (.notFound kind id.asU64) (tab.get id) := by
  unfold getRecord
  rw [h.get_key id]
  rcases hget : tab.get id with _ | r
  · rfl
  · obtain rfl := h.id_eq id r hget
    simp [mapErr, h.decodes _ r hget]

lemma entries_eq (h : Stored m tab idOf val decode) :
    m.entries = tab.entries.map fun e => (encodeIdKey e.1.asU64, val e.2) :=
  h.indexes.entries_eq h.id_eq idKey_strictMono

/-- Scanning a family lists the table in the order of its identifiers. -/
lemma allRecords_eq {db : Database} {family : ColumnFamily}
    (h : Stored (db family) tab idOf val decode) :
    allRecords db family decode = .ok (tab.entries.map Prod.snd) := by
  have hturn : ∀ e ∈ tab.entries, (do
      let id ← mapErr (recordError family.name (bytesId (encodeIdKey e.1.asU64)))
        (decodeIdKey (encodeIdKey e.1.asU64))
      mapErr (recordError family.name (toString id.val)) (decode (val e.2) id)) =
        (.ok e.2 : Except CatalogError R) := by
    intro e he
    have hget := SortedMap.get_of_mem he
    have hdecode := h.decodes _ _ hget
    rw [h.id_eq _ _ hget] at hdecode
    simp [mapErr, hdecode]
  unfold allRecords
  rw [h.entries_eq, List.mapM_map]
  exact mapM_eq_ok tab.entries hturn

lemma collectIds_eq {db : Database} {family : ColumnFamily}
    (h : Stored (db family) tab idOf val decode) :
    collectIds db family = .ok (tab.entries.map fun e => e.1.asU64) := by
  unfold collectIds
  rw [h.entries_eq, List.mapM_map]
  refine mapM_eq_ok tab.entries fun e _ => ?_
  simp [mapErr]

lemma insert (h : Stored m tab idOf val decode) {r : R}
    (hr : decode (val r) (idOf r).asU64 = .ok r) :
    Stored (m.insert (encodeIdKey (idOf r).asU64) (val r)) (tab.insert (idOf r) r) idOf val
      decode := by
  refine ⟨h.indexes.insert r fun b => ?_, fun id b hb => ?_, fun id b hb => ?_⟩
  · rw [has_insert]
    refine or_congr_right (and_congr_right fun _ => not_congr ⟨fun heq => by rw [heq], idKey_inj⟩)
  · rw [SortedMap.get_insert] at hb
    split_ifs at hb with hid
    · cases hb
      exact hid.symm
    · exact h.id_eq id b hb
  · rw [SortedMap.get_insert] at hb
    split_ifs at hb with hid
    · cases hb
      exact hr
    · exact h.decodes id b hb

lemma erase (h : Stored m tab idOf val decode) (id : DurableId k) :
    Stored (m.erase (encodeIdKey id.asU64)) (tab.erase id) idOf val decode := by
  refine ⟨h.indexes.erase _ fun b => ?_, fun id' b hb => ?_, fun id' b hb => ?_⟩
  · rw [has_erase]
    exact and_congr_right fun _ => not_congr ⟨fun heq => by rw [heq], idKey_inj⟩
  · rw [SortedMap.get_erase] at hb
    split_ifs at hb
    exact h.id_eq id' b hb
  · rw [SortedMap.get_erase] at hb
    split_ifs at hb
    exact h.decodes id' b hb

end Stored

end Stored

/-! ## Tables -/

/-- The counters and the pointer to the active routing image. -/
structure Metadata where
  nextCandidate : U64
  nextNode : U64
  nextRelation : U64
  nextEdge : U64
  pointer : Option ActiveRoutingImage

/-- The contents of the catalog. -/
structure Tables where
  candidates : SortedMap CandidateId Candidate
  nodes : SortedMap NodeId NodeRecord
  relations : SortedMap RelationId RelationRecord
  edges : SortedMap EdgeId EdgeRecord
  metadata : Metadata

namespace Tables

def HasNode (t : Tables) (r : NodeRecord) : Prop := t.nodes.get r.id = some r

def HasRelation (t : Tables) (r : RelationRecord) : Prop := t.relations.get r.id = some r

def HasEdge (t : Tables) (e : EdgeRecord) : Prop := t.edges.get e.id = some e

end Tables

/-- The records of the metadata family. -/
inductive MetadataKey
  | nextCandidate | nextNode | nextRelation | nextEdge | pointer
  deriving DecidableEq

def MetadataKey.bytes : MetadataKey → Bytes
  | nextCandidate => META_NEXT_CANDIDATE_ID
  | nextNode => META_NEXT_NODE_ID
  | nextRelation => META_NEXT_RELATION_ID
  | nextEdge => META_NEXT_EDGE_ID
  | pointer => META_ACTIVE_ROUTING_IMAGE

def Metadata.value (d : Metadata) : MetadataKey → Option Bytes
  | .nextCandidate => some (encodeU64Record d.nextCandidate)
  | .nextNode => some (encodeU64Record d.nextNode)
  | .nextRelation => some (encodeU64Record d.nextRelation)
  | .nextEdge => some (encodeU64Record d.nextEdge)
  | .pointer => d.pointer.map encodeActiveRoutingImage

/-- The metadata family holds the counters and the pointer, and nothing else. -/
structure MetadataOf (m : SortedMap Bytes Bytes) (d : Metadata) : Prop where
  get : ∀ key : MetadataKey, m.get key.bytes = d.value key
  known : ∀ e ∈ m.entries, ∃ key : MetadataKey, e.1 = key.bytes

/-- The column families hold exactly the encodings of the tables. -/
structure Represents (db : Database) (t : Tables) : Prop where
  candidates : Stored (db .candidates) t.candidates Candidate.id candidateBytes decodeCandidate
  nodes : Stored (db .nodes) t.nodes NodeRecord.id nodeBytes decodeNode
  nodeNames : Indexes (db .nodeNames) t.HasNode (fun r => nameBytes r.name.asStr)
    fun r => encodeU64Record r.id.asU64
  relations : Stored (db .relationKinds) t.relations RelationRecord.id relationBytes decodeRelation
  relationNames : Indexes (db .relationNames) t.HasRelation (fun r => nameBytes r.name.asStr)
    fun r => encodeU64Record r.id.asU64
  popularity : Indexes (db .relationPopularity) t.HasRelation popularityBytes
    fun r => encodeU64Record r.id.asU64
  edges : Stored (db .edges) t.edges EdgeRecord.id encodeEdge decodeEdge
  outgoing : Indexes (db .outgoingEdges) t.HasEdge (fun e => encodeAdjacencyKey e.source e.id)
    fun e => encodeAdjacencyValue e.id
  incoming : Indexes (db .incomingEdges) t.HasEdge (fun e => encodeAdjacencyKey e.destination e.id)
    fun e => encodeAdjacencyValue e.id
  metadata : MetadataOf (db .default) t.metadata

/-- The records of the tables can be written, and names belong to one record each. -/
structure Tables.Writable (t : Tables) : Prop where
  candidate : ∀ id c, t.candidates.get id = some c → c.Fits
  node : ∀ r, t.HasNode r → r.Fits
  relation : ∀ r, t.HasRelation r → r.Fits
  node_name_inj : ∀ r r', t.HasNode r → t.HasNode r' → r.name.asStr = r'.name.asStr → r = r'
  relation_name_inj : ∀ r r', t.HasRelation r → t.HasRelation r' →
    r.name.asStr = r'.name.asStr → r = r'

section Writes

variable {db : Database} {t : Tables}

lemma write_append (db : Database) (a b : WriteBatch) :
    db.write (a ++ b) = (db.write a).write b := List.foldl_append

namespace Represents

/-! ## Candidates -/

lemma putCandidate (h : Represents db t) {c : Candidate} (hc : c.Fits) :
    Represents (db.write [.put .candidates (encodeIdKey c.id.asU64) (candidateBytes c)])
      { t with candidates := t.candidates.insert c.id c } :=
  { h with candidates := h.candidates.insert (decodeCandidate_candidateBytes hc) }

lemma deleteCandidate (h : Represents db t) (id : CandidateId) :
    Represents (db.write [.delete .candidates (encodeIdKey id.asU64)])
      { t with candidates := t.candidates.erase id } :=
  { h with candidates := h.candidates.erase id }

/-! ## Nodes -/

lemma putNode (h : Represents db t) (hfits : ∀ r, t.HasNode r → r.Fits) {r : NodeRecord}
    (hr : r.Fits)
    (hid : t.nodes.get r.id = none)
    (hname : ∀ r', t.HasNode r' → r'.name.asStr ≠ r.name.asStr) :
    Represents (db.write [.put .nodes (encodeIdKey r.id.asU64) (nodeBytes r),
        .put .nodeNames (nameBytes r.name.asStr) (encodeU64Record r.id.asU64)])
      { t with nodes := t.nodes.insert r.id r } := by
  have hfresh : ∀ b, t.HasNode b → b.id ≠ r.id := by
    intro b hb heq
    rw [Tables.HasNode, heq, hid] at hb
    cases hb
  refine { h with
    nodes := h.nodes.insert (decodeNode_nodeBytes hr)
    nodeNames := h.nodeNames.insert r fun b => ?_ }
  refine has_insert.trans (or_congr_right (and_congr_right fun hb => ?_))
  exact iff_of_true (hfresh b hb) fun heq =>
    hname b hb (nameBytes_inj (hfits b hb).name hr.name heq)

lemma deleteNode (h : Represents db t) (hw : t.Writable) {r : NodeRecord} (hr : t.HasNode r) :
    Represents (db.write [.delete .nodes (encodeIdKey r.id.asU64),
        .delete .nodeNames (nameBytes r.name.asStr)])
      { t with nodes := t.nodes.erase r.id } := by
  refine { h with
    nodes := h.nodes.erase r.id
    nodeNames := h.nodeNames.erase _ fun b => ?_ }
  refine has_erase.trans (and_congr_right fun hb => not_congr ?_)
  constructor
  · intro heq
    rw [has_unique hb hr heq]
  · intro heq
    rw [hw.node_name_inj b r hb hr (nameBytes_inj (hw.node b hb).name (hw.node r hr).name heq)]

/-! ## Edges -/

lemma putEdge (h : Represents db t) {e : EdgeRecord} (hid : t.edges.get e.id = none) :
    Represents (db.write (PathHydra.putEdge e)) { t with edges := t.edges.insert e.id e } := by
  have hfresh : ∀ b, t.HasEdge b → b.id ≠ e.id := by
    intro b hb heq
    rw [Tables.HasEdge, heq, hid] at hb
    cases hb
  refine { h with
    edges := h.edges.insert (decodeEdge_encodeEdge e)
    outgoing := h.outgoing.insert e fun b => ?_
    incoming := h.incoming.insert e fun b => ?_ }
  · refine has_insert.trans (or_congr_right (and_congr_right fun hb => ?_))
    exact iff_of_true (hfresh b hb) fun heq => hfresh b hb (adjacencyKey_inj heq).2
  · refine has_insert.trans (or_congr_right (and_congr_right fun hb => ?_))
    exact iff_of_true (hfresh b hb) fun heq => hfresh b hb (adjacencyKey_inj heq).2

lemma deleteEdge (h : Represents db t) {e : EdgeRecord} (he : t.HasEdge e) :
    Represents (db.write (PathHydra.deleteEdge e)) { t with edges := t.edges.erase e.id } := by
  refine { h with
    edges := h.edges.erase e.id
    outgoing := h.outgoing.erase _ fun b => ?_
    incoming := h.incoming.erase _ fun b => ?_ }
  · refine has_erase.trans (and_congr_right fun hb => not_congr ⟨fun heq => ?_, fun heq => ?_⟩)
    · rw [has_unique hb he heq]
    · exact (adjacencyKey_inj heq).2
  · refine has_erase.trans (and_congr_right fun hb => not_congr ⟨fun heq => ?_, fun heq => ?_⟩)
    · rw [has_unique hb he heq]
    · exact (adjacencyKey_inj heq).2

/-! ## Relation kinds -/

lemma createRelation (h : Represents db t) (hfits : ∀ r, t.HasRelation r → r.Fits)
    {r : RelationRecord} (hr : r.Fits)
    (hid : t.relations.get r.id = none)
    (hname : ∀ r', t.HasRelation r' → r'.name.asStr ≠ r.name.asStr) :
    Represents (db.write [.put .relationNames (nameBytes r.name.asStr) (encodeU64Record r.id.asU64),
        .put .relationKinds (encodeIdKey r.id.asU64) (relationBytes r),
        .put .relationPopularity (popularityBytes r) (encodeU64Record r.id.asU64)])
      { t with relations := t.relations.insert r.id r } := by
  have hfresh : ∀ b, t.HasRelation b → b.id ≠ r.id := by
    intro b hb heq
    rw [Tables.HasRelation, heq, hid] at hb
    cases hb
  refine { h with
    relations := h.relations.insert (decodeRelation_relationBytes hr)
    relationNames := h.relationNames.insert r fun b => ?_
    popularity := h.popularity.insert r fun b => ?_ }
  · refine has_insert.trans (or_congr_right (and_congr_right fun hb => ?_))
    exact iff_of_true (hfresh b hb) fun heq =>
      hname b hb (nameBytes_inj (hfits b hb).name hr.name heq)
  · refine has_insert.trans (or_congr_right (and_congr_right fun hb => ?_))
    exact iff_of_true (hfresh b hb) fun heq => hfresh b hb (popularityBytes_id heq)

/-- The popularity without the entry of one relation kind. -/
lemma erasePopularity (h : Represents db t) {r : RelationRecord} (hr : t.HasRelation r) :
    Indexes ((db .relationPopularity).erase (popularityBytes r))
      (fun b => t.HasRelation b ∧ b.id ≠ r.id) popularityBytes
      fun b => encodeU64Record b.id.asU64 := by
  refine h.popularity.erase _ fun b => and_congr_right fun hb => not_congr ⟨fun heq => ?_, ?_⟩
  · rw [has_unique hb hr heq]
  · exact popularityBytes_id

lemma updateRelation (h : Represents db t) {old r : RelationRecord} (hold : t.HasRelation old)
    (hr : r.Fits) (hid : r.id = old.id) (hname : r.name = old.name) :
    Represents (db.write [.delete .relationPopularity (popularityBytes old),
        .put .relationKinds (encodeIdKey r.id.asU64) (relationBytes r),
        .put .relationPopularity (popularityBytes r) (encodeU64Record r.id.asU64)])
      { t with relations := t.relations.insert r.id r } := by
  have hhas : ∀ b, (t.relations.insert r.id r).get b.id = some b ↔
      b = r ∨ t.HasRelation b ∧ b.id ≠ r.id := fun b => has_insert
  refine { h with
    relations := h.relations.insert (decodeRelation_relationBytes hr)
    relationNames := fun key value => ?_
    popularity := (h.erasePopularity hold).insert r fun b => ?_ }
  · -- the name and the identifier stay, so the name index does
    rw [show (db.write _) .relationNames = db .relationNames from rfl, h.relationNames key value]
    constructor
    · rintro ⟨b, hb, rfl, rfl⟩
      by_cases hbid : b.id = r.id
      · obtain rfl : b = old := has_unique hb hold (hbid.trans hid)
        exact ⟨r, (hhas r).2 (.inl rfl), by simp only [hname], by simp only [hid]⟩
      · exact ⟨b, (hhas b).2 (.inr ⟨hb, hbid⟩), rfl, rfl⟩
    · rintro ⟨b, hb, rfl, rfl⟩
      rcases (hhas b).1 hb with rfl | ⟨hb, -⟩
      · exact ⟨old, hold, by simp only [hname], by simp only [hid]⟩
      · exact ⟨b, hb, rfl, rfl⟩
  · refine (hhas b).trans (or_congr_right ?_)
    rw [hid]
    constructor
    · intro hb
      exact ⟨hb, fun heq => hb.2 ((popularityBytes_id heq).trans hid)⟩
    · exact fun hb => hb.1

lemma removeRelation (h : Represents db t) (hfits : ∀ r, t.HasRelation r → r.Fits)
    (hinj : ∀ r r', t.HasRelation r → t.HasRelation r' → r.name.asStr = r'.name.asStr → r = r')
    {r : RelationRecord} (hr : t.HasRelation r) :
    Represents (db.write [.delete .relationPopularity (popularityBytes r),
        .delete .relationKinds (encodeIdKey r.id.asU64),
        .delete .relationNames (nameBytes r.name.asStr)])
      { t with relations := t.relations.erase r.id } := by
  refine { h with
    relations := h.relations.erase r.id
    relationNames := h.relationNames.erase _ fun b => ?_
    popularity := (h.erasePopularity hr).congr fun b => has_erase }
  refine has_erase.trans (and_congr_right fun hb => not_congr ⟨fun heq => ?_, fun heq => ?_⟩)
  · rw [has_unique hb hr heq]
  · rw [hinj b r hb hr (nameBytes_inj (hfits b hb).name (hfits r hr).name heq)]

/-! ## Metadata -/

lemma metadataKey_injective : Function.Injective MetadataKey.bytes := by
  have hstr : ∀ a b : String, a ≠ b → strBytes a ≠ strBytes b := fun a b hne heq =>
    hne (strBytes_inj heq)
  intro a b h
  cases a <;> cases b <;> first
    | rfl
    | exact absurd h (hstr _ _ (by decide))

lemma putMetadata (h : Represents db t) (key : MetadataKey) (value : Bytes) {d : Metadata}
    (hd : ∀ key', d.value key' = if key' = key then some value else t.metadata.value key') :
    Represents (db.write [.put .default key.bytes value]) { t with metadata := d } := by
  refine { h with metadata := ⟨fun key' => ?_, fun e he => ?_⟩ }
  · show ((db .default).insert key.bytes value).get key'.bytes = _
    rw [SortedMap.get_insert, h.metadata.get, hd]
    by_cases hkey : key' = key
    · rw [if_pos hkey, if_pos (congrArg MetadataKey.bytes hkey)]
    · rw [if_neg hkey, if_neg fun heq => hkey (metadataKey_injective heq)]
  · rcases SortedMap.mem_insert_entries.1 he with rfl | he
    · exact ⟨key, rfl⟩
    · exact h.metadata.known e he.1

lemma clearPointer (h : Represents db t) :
    Represents (db.write [.delete .default META_ACTIVE_ROUTING_IMAGE])
      { t with metadata := { t.metadata with pointer := none } } := by
  refine { h with metadata := ⟨fun key' => ?_, fun e he => ?_⟩ }
  · show ((db .default).erase MetadataKey.pointer.bytes).get key'.bytes = _
    rw [SortedMap.get_erase, h.metadata.get]
    simp only [metadataKey_injective.eq_iff]
    cases key' <;> rfl
  · exact h.metadata.known e (SortedMap.mem_erase_entries.1 he).1

end Represents

end Writes

end PathHydra
