import PathHydra.Construction.Store.Catalog
import PathHydra.Properties.Store.Invariant

/-!
# The invariant passes validation

A database that represents consistent tables passes every check of `Catalog::open`, and the
exact-name maps that opening rebuilds are those of the tables.
-/

namespace PathHydra

variable {db : Database} {t : Tables}

/-! ## Metadata -/

lemma readCounters_eq_ok (h : Represents db t) :
    (metadataCounters.forM fun (key, id) => do
      let _ ← readMetadata db key id) = (.ok () : Except CatalogError Unit) := by
  have hread : ∀ (key : MetadataKey) (n : U64) (id : String),
      t.metadata.value key = some (encodeU64Record n) →
      (do let _ ← readMetadata db key.bytes id) = (.ok () : Except CatalogError Unit) := by
    intro key n id hvalue
    rw [h.readMetadata_eq key id hvalue]
    rfl
  refine forM_eq_ok _ fun entry hentry => ?_
  simp only [metadataCounters, List.mem_cons, List.not_mem_nil, or_false] at hentry
  rcases hentry with rfl | rfl | rfl | rfl
  · exact hread .nextCandidate _ _ rfl
  · exact hread .nextNode _ _ rfl
  · exact hread .nextRelation _ _ rfl
  · exact hread .nextEdge _ _ rfl

lemma validateMetadataRecords_eq_ok (h : Represents db t) (hcounted : t.Counted) :
    validateMetadataRecords db = .ok () := by
  unfold validateMetadataRecords
  dsimp only
  rw [forM_eq_ok (db .default).entries fun entry hentry => ?_]
  swap
  · obtain ⟨key, hkey⟩ := h.metadata.known entry hentry
    have hany : ([META_NEXT_CANDIDATE_ID, META_NEXT_NODE_ID, META_NEXT_RELATION_ID,
        META_NEXT_EDGE_ID, META_ACTIVE_ROUTING_IMAGE].any fun a => decide (entry.1 = a)) = true := by
      rw [hkey]
      cases key <;> simp [MetadataKey.bytes]
    simp only [hany, if_true]
    rfl
  simp only [readCounters_eq_ok h, ok_bind, h.readActiveRoutingImage_eq hcounted.pointer]
  rfl

/-! ## The exact-name maps -/

section Names

variable {k : IdKind} {R : Type} {tab : SortedMap (DurableId k) R} {idOf : R → DurableId k}
  {val : R → Bytes} {decode : Bytes → U64 → Except CodecError R} {nameOf : R → String}
  {names records : ColumnFamily}

/-- In an ordered map the entries before one have other keys. -/
lemma SortedMap.key_ne_of_split {K V : Type*} [LinearOrder K] {m : SortedMap K V}
    {pre post : List (K × V)} {e : K × V} (h : m.entries = pre ++ e :: post) :
    ∀ e' ∈ pre, e'.1 ≠ e.1 := by
  intro e' he'
  have hsorted := m.sorted
  rw [h, List.pairwise_append] at hsorted
  exact (hsorted.2.2 e' he' e (by simp)).ne

/-- Rebuilding the exact-name map gives the map of the table. -/
lemma rebuildIndex_eq_ok {map : String → Option (DurableId k)} (mapped confirmed : String)
    (hstored : Stored (db records) tab idOf val decode)
    (hnames : Indexes (db names) (fun r => tab.get (idOf r) = some r)
      (fun r => nameBytes (nameOf r)) fun r => encodeU64Record (idOf r).asU64)
    (hfits : ∀ r, tab.get (idOf r) = some r → NameFits (nameOf r))
    (hmap : NamesOf map (fun r => tab.get (idOf r) = some r) nameOf idOf) :
    rebuildIndex db names records mapped confirmed decode nameOf = .ok map := by
  -- the map after some entries holds the records behind them
  have hfold : Ensures ((db names).entries.foldlM
      (rebuildName db names records mapped decode nameOf) fun _ => none)
      (fun m => m = map) fun _ => False := by
    refine (ensures_foldlM (I := fun pre (m : String → Option (DurableId k)) =>
      NamesOf m (fun r => tab.get (idOf r) = some r ∧ ∃ e ∈ pre, e.1 = nameBytes (nameOf r))
        nameOf idOf) (db names).entries (fun pre entry post m hsplit hm => ?_) ?_).mono ?_
    · obtain ⟨r, hr, hkey, hvalue⟩ := hnames.of_mem (e := entry) (by simp [hsplit])
      have hfree : m (nameOf r) = none := by
        rcases hm' : m (nameOf r) with _ | id
        · rfl
        · obtain ⟨r', ⟨-, e, he, hkey'⟩, hname, -⟩ := (hm _ _).1 hm'
          refine absurd ?_ (SortedMap.key_ne_of_split hsplit e he)
          rw [hkey', hname, hkey]
      have hturn : rebuildName db names records mapped decode nameOf m entry =
          .ok (Function.update m (nameOf r) (some (idOf r))) := by
        have hentry : entry = (nameBytes (nameOf r), encodeU64Record (idOf r).asU64) :=
          Prod.ext hkey.symm hvalue.symm
        rw [hentry]
        simp [rebuildName, mapErr, decodeNameKey_nameBytes (hfits r hr), hstored.get_key, hr,
          hstored.decodes _ r hr, hfree, pure, Except.pure]
      rw [hturn]
      refine hm.add r fun b => ?_
      constructor
      · rintro ⟨hb, e, he, hkeyb⟩
        rcases List.mem_append.1 he with he | he
        · refine .inr ⟨⟨hb, e, he, hkeyb⟩, fun hname => ?_⟩
          refine SortedMap.key_ne_of_split hsplit e he ?_
          rw [hkeyb, hname, hkey]
        · obtain rfl := List.mem_singleton.1 he
          left
          have hname : nameOf b = nameOf r :=
            nameBytes_inj (hfits b hb) (hfits r hr) (hkeyb.symm.trans hkey.symm)
          have hb' := (hmap (nameOf r) (idOf b)).2 ⟨b, hb, hname, rfl⟩
          have hr' := (hmap (nameOf r) (idOf r)).2 ⟨r, hr, rfl, rfl⟩
          rw [hr'] at hb'
          exact has_unique hb hr (Option.some.inj hb').symm
      · rintro (rfl | ⟨⟨hb, e, he, hkeyb⟩, -⟩)
        · exact ⟨hr, entry, by simp, hkey.symm⟩
        · exact ⟨hb, e, by simp [he], hkeyb⟩
    · intro s id
      simp
    · intro m _ hm
      funext s
      refine Option.ext fun id => ?_
      rw [hm s id, hmap s id]
      constructor
      · rintro ⟨r, ⟨hr, -⟩, hname⟩
        exact ⟨r, hr, hname⟩
      · rintro ⟨r, hr, hname⟩
        exact ⟨r, ⟨hr, _, SortedMap.get_eq_some.1 (hnames.get_key hr), rfl⟩, hname⟩
  obtain ⟨m, hm, rfl⟩ := hfold.exists_ok
  have hrecords : (db records).entries.forM (requireMapped records confirmed decode nameOf m) =
      (.ok () : Except CatalogError Unit) := by
    rw [hstored.entries_eq]
    refine forM_eq_ok _ fun entry hentry => ?_
    obtain ⟨e, he, rfl⟩ := List.mem_map.1 hentry
    have hget := SortedMap.get_of_mem he
    have hid := hstored.id_eq _ _ hget
    have hdecode := hstored.decodes _ _ hget
    have hmapped := (hmap (nameOf e.2) (idOf e.2)).2 ⟨e.2, hstored.has hget, rfl, rfl⟩
    rw [hid] at hdecode hmapped
    simp [requireMapped, mapErr, hdecode, hmapped, pure, Except.pure]
  simp only [rebuildIndex, hm, hrecords, ok_bind]
  rfl

end Names

/-! ## Edges and adjacency -/

section Collect

variable {k : IdKind} {R : Type} {idOf : R → DurableId k}

/-- Collecting the records of a table by identifier gives its lookup. -/
lemma foldl_update_eq_get (tab : SortedMap (DurableId k) R)
    (hid : ∀ id r, tab.get id = some r → idOf r = id) :
    (tab.entries.map Prod.snd).foldl (fun map r => Function.update map (idOf r) (some r))
      (fun _ => none) = tab.get := by
  have hids : (tab.entries.map Prod.snd).map idOf = tab.entries.map Prod.fst := by
    rw [List.map_map]
    exact List.map_congr_left fun e he => hid _ _ (SortedMap.get_of_mem he)
  have hkeys : ((tab.entries.map Prod.snd).map idOf).Nodup := by
    rw [hids]
    exact List.pairwise_map.2 (tab.sorted.imp fun hlt => hlt.ne)
  funext id
  rcases hget : tab.get id with _ | r
  · refine foldl_update_of_notMem (fun hmem => ?_)
    rw [hids] at hmem
    obtain ⟨e, he, rfl⟩ := List.mem_map.1 hmem
    rw [SortedMap.get_of_mem he] at hget
    cases hget
  · obtain rfl := hid id r hget
    exact foldl_update_of_mem hkeys (List.mem_map_of_mem (SortedMap.get_eq_some.1 hget))

end Collect

lemma requireEdgeReferences_eq_ok (h : Represents db t) (hc : t.Consistent) {e : EdgeRecord}
    (he : t.HasEdge e) : requireEdgeReferences db e = .ok () := by
  obtain ⟨⟨source, hsource⟩, ⟨destination, hdestination⟩, relation, hrelation⟩ := hc.edge e he
  simp [requireEdgeReferences, h.requireNode_eq, h.requireRelationKind_eq, hsource, hdestination,
    hrelation, mapErr, Except.map]

/-- An adjacency family of the table indexes every edge once. -/
lemma validateAdjacencyFamily_ensures {family : ColumnFamily} {outgoing : Bool}
    (hindex : Indexes (db family) t.HasEdge (fun e => encodeAdjacencyKey (e.endpoint outgoing) e.id)
      fun e => encodeAdjacencyValue e.id) :
    Ensures (validateAdjacencyFamily db family t.edges.get outgoing)
      (fun counts => ∀ e, t.HasEdge e → counts e.id = 1) fun _ => False := by
  let key : EdgeRecord → Bytes := fun e => encodeAdjacencyKey (e.endpoint outgoing) e.id
  refine (ensures_foldlM (I := fun pre (counts : EdgeId → ℕ) => ∀ e, t.HasEdge e →
      (counts e.id = 1 ∧ (∃ p ∈ pre, p.1 = key e)) ∨ (counts e.id = 0 ∧ ∀ p ∈ pre, p.1 ≠ key e))
    (db family).entries (fun pre entry post counts hsplit hcounts => ?_) ?_).mono ?_
  · obtain ⟨e, he, hkey, hvalue⟩ := hindex.of_mem (e := entry) (by simp [hsplit])
    have hget : t.edges.get e.id = some e := he
    have hturn : validateAdjacencyEntry family t.edges.get outgoing counts entry =
        .ok (Function.update counts e.id (counts e.id + 1)) := by
      have hentry : entry = (encodeAdjacencyKey (e.endpoint outgoing) e.id,
          encodeAdjacencyValue e.id) := Prod.ext hkey.symm hvalue.symm
      rw [hentry]
      simp [validateAdjacencyEntry, mapErr, hget, pure, Except.pure]
    rw [hturn]
    intro b hb
    by_cases hid : b.id = e.id
    · obtain rfl : b = e := has_unique hb he hid
      have hnew : ∀ p ∈ pre, p.1 ≠ key b := by
        intro p hp
        rw [show key b = entry.1 from hkey]
        exact SortedMap.key_ne_of_split hsplit p hp
      rcases hcounts b hb with ⟨-, p, hp, hpkey⟩ | ⟨hzero, -⟩
      · exact absurd hpkey (hnew p hp)
      · exact .inl ⟨by simp [hzero], entry, by simp, hkey.symm⟩
    · have hother : entry.1 ≠ key b := by
        rw [← hkey]
        exact fun heq => hid (adjacencyKey_inj heq).2.symm
      rw [Function.update_of_ne hid]
      rcases hcounts b hb with ⟨hone, p, hp, hpkey⟩ | ⟨hzero, hnone⟩
      · exact .inl ⟨hone, p, by simp [hp], hpkey⟩
      · refine .inr ⟨hzero, fun p hp => ?_⟩
        rcases List.mem_append.1 hp with hp | hp
        · exact hnone p hp
        · rw [List.mem_singleton.1 hp]
          exact hother
  · exact fun e _ => .inr ⟨rfl, fun p hp => absurd hp (by simp)⟩
  · intro counts _ hcounts e he
    rcases hcounts e he with ⟨hone, -⟩ | ⟨-, hnone⟩
    · exact hone
    · exact absurd rfl (hnone _ (SortedMap.get_eq_some.1 (hindex.get_key he)))

lemma validateEdgesAndAdjacency_eq_ok (h : Represents db t) (hc : t.Consistent) :
    validateEdgesAndAdjacency db = .ok () := by
  have hall : allEdges db = .ok (t.edges.entries.map Prod.snd) := h.edges.allRecords_eq
  have hhas : ∀ e ∈ t.edges.entries.map Prod.snd, t.HasEdge e := by
    intro e he
    obtain ⟨entry, hentry, rfl⟩ := List.mem_map.1 he
    exact h.edges.has (SortedMap.get_of_mem hentry)
  have hrefs := forM_eq_ok (t.edges.entries.map Prod.snd) fun e he =>
    requireEdgeReferences_eq_ok h hc (hhas e he)
  have hget := foldl_update_eq_get t.edges h.edges.id_eq
  obtain ⟨outgoing, houtgoing, hone⟩ :=
    (validateAdjacencyFamily_ensures h.outgoing_endpoint).exists_ok
  obtain ⟨incoming, hincoming, hone'⟩ :=
    (validateAdjacencyFamily_ensures h.incoming_endpoint).exists_ok
  have honce : (t.edges.entries.map Prod.snd).forM (requireIndexedOnce outgoing incoming) =
      (.ok () : Except CatalogError Unit) := by
    refine forM_eq_ok _ fun e he => ?_
    simp [requireIndexedOnce, hone e (hhas e he), hone' e (hhas e he), pure, Except.pure]
  simp only [validateEdgesAndAdjacency, hall, hrefs, hget, houtgoing, hincoming, ok_bind]
  exact honce

/-! ## Usage and dependencies -/

/-- A checked increment adds one where it does not overflow. -/
lemma checkedIncrement_ensures {counts : CandidateId → U64} {id : CandidateId}
    {E : CatalogError → Prop} (hlt : (counts id).val + 1 < 2 ^ 64) :
    Ensures (checkedIncrementCandidateReference counts id)
      (fun counts' => ∀ id', (counts' id').val = (counts id').val + if id' = id then 1 else 0) E := by
  have hadd : (counts id).checkedAdd 1 = some ⟨(counts id).val + 1, hlt⟩ :=
    U64.checkedAdd_eq_some.2 rfl
  simp only [checkedIncrementCandidateReference, hadd, okOr_some, ok_bind]
  intro id'
  by_cases hid : id' = id
  · simp [hid]
  · simp [hid]

/-- A node reference that resolves is counted. -/
lemma validateNodeDependency_ensures (h : Represents db t) {owner : CandidateId}
    {usage : RecomputedUsage} {r : CandidateNodeReference} (hr : t.ResolvesNode r)
    (hlt : ∀ id c, t.candidates.get id = some c → c.IsNode →
      (usage.incoming id).val + r.pointsTo id < 2 ^ 64) :
    Ensures (validateNodeDependency db t.candidates.get owner usage r)
      (fun usage' => (∀ id, (usage'.incoming id).val = (usage.incoming id).val + r.pointsTo id) ∧
        usage'.provisional = usage.provisional) fun _ => False := by
  cases r with
  | confirmed id =>
    obtain ⟨record, hrecord⟩ := hr
    simp only [validateNodeDependency, h.getNode_eq, hrecord, okOr_some, mapErr, ok_bind]
    exact ⟨fun id' => by simp [CandidateNodeReference.pointsTo], rfl⟩
  | candidate id =>
    obtain ⟨c, hget, hnode⟩ := hr
    have hlt' := hlt id c hget hnode
    rw [CandidateNodeReference.pointsTo_candidate, if_pos rfl] at hlt'
    cases c with
    | node _ name payload count =>
      simp only [validateNodeDependency, hget]
      refine (checkedIncrement_ensures hlt').bind fun incoming hincoming => ?_
      exact ⟨fun id' => by rw [CandidateNodeReference.pointsTo_candidate]; exact hincoming id', rfl⟩
    | relation => exact False.elim hnode
    | edge => exact False.elim hnode

/-- A relation-kind reference that resolves is counted. -/
lemma validateRelationDependency_ensures (h : Represents db t) {owner : CandidateId}
    {usage : RecomputedUsage} {r : CandidateRelationReference} (hr : t.ResolvesRelation r)
    (hlt : ∀ id c, t.candidates.get id = some c → c.IsRelation →
      (usage.incoming id).val + r.pointsTo id < 2 ^ 64)
    (hlt' : ∀ id record, t.relations.get id = some record →
      (usage.provisional id).val + (if r = .confirmed id then 1 else 0) < 2 ^ 64) :
    Ensures (validateRelationDependency db t.candidates.get owner usage r)
      (fun usage' => (∀ id, (usage'.incoming id).val = (usage.incoming id).val + r.pointsTo id) ∧
        ∀ id, (usage'.provisional id).val =
          (usage.provisional id).val + if r = .confirmed id then 1 else 0) fun _ => False := by
  cases r with
  | confirmed id =>
    obtain ⟨record, hrecord⟩ := hr
    have hbound := hlt' id record hrecord
    rw [if_pos rfl] at hbound
    have hadd : (usage.provisional id).checkedAdd 1 = some ⟨(usage.provisional id).val + 1, hbound⟩ :=
      U64.checkedAdd_eq_some.2 rfl
    simp only [validateRelationDependency, h.getRelation_eq, hrecord, okOr_some, mapErr, ok_bind,
      hadd]
    refine ⟨fun id' => by simp [CandidateRelationReference.pointsTo], fun id' => ?_⟩
    by_cases hid : id' = id
    · simp [hid]
    · simp [hid, Ne.symm hid]
  | candidate id =>
    obtain ⟨c, hget, hrelation⟩ := hr
    have hbound := hlt id c hget hrelation
    rw [CandidateRelationReference.pointsTo_candidate, if_pos rfl] at hbound
    cases c with
    | relation _ name count =>
      simp only [validateRelationDependency, hget]
      refine (checkedIncrement_ensures hbound).bind fun incoming hincoming => ?_
      refine ⟨fun id' => ?_, fun id' => by simp⟩
      rw [CandidateRelationReference.pointsTo_candidate]
      exact hincoming id'
    | node => exact False.elim hrelation
    | edge => exact False.elim hrelation

lemma SortedMap.sum_eq_values {K V : Type*} [LinearOrder K] (m : SortedMap K V) (f : V → ℕ) :
    m.sum f = ((m.entries.map Prod.snd).map f).sum := by
  simp [SortedMap.sum, List.map_map, Function.comp_def]

/-- The stored counts bound every partial count. -/
lemma Tables.Consistent.incoming_lt (hc : t.Consistent) {id : CandidateId} {c : Candidate}
    (hget : t.candidates.get id = some c) (hkind : c.IsNode ∨ c.IsRelation) :
    t.candidates.sum (Candidate.refersTo id) < 2 ^ 64 := by
  cases c with
  | node _ name payload count =>
    rw [← hc.incoming id _ count hget rfl]
    exact count.isLt
  | relation _ name count =>
    rw [← hc.incoming id _ count hget rfl]
    exact count.isLt
  | edge => exact absurd hkind (by simp [Candidate.IsNode, Candidate.IsRelation])

/-- Recomputing the usage from the candidates gives the numbers of references. -/
lemma recomputeUsage_ensures (h : Represents db t) (hc : t.Consistent) :
    Ensures ((t.candidates.entries.map Prod.snd).foldlM (validateDependencies db t.candidates.get)
        ⟨fun _ => 0, fun _ => 0⟩)
      (fun usage =>
        (∀ id, (usage.incoming id).val = t.candidates.sum (Candidate.refersTo id)) ∧
        ∀ id, (usage.provisional id).val = t.candidates.sum (Candidate.uses id)) fun _ => False := by
  refine (ensures_foldlM (I := fun pre (usage : RecomputedUsage) =>
      (∀ id, (usage.incoming id).val = (pre.map (Candidate.refersTo id)).sum) ∧
      ∀ id, (usage.provisional id).val = (pre.map (Candidate.uses id)).sum)
    (t.candidates.entries.map Prod.snd) (fun pre c post usage hsplit husage => ?_) ?_).mono ?_
  · obtain ⟨hincoming, hprovisional⟩ := husage
    have hmem : c ∈ t.candidates.entries.map Prod.snd := by simp [hsplit]
    obtain ⟨entry, hentry, rfl⟩ := List.mem_map.1 hmem
    have hresolves := hc.candidate _ _ (SortedMap.get_of_mem hentry)
    -- what has been counted so far, with this candidate, is at most the whole
    have hpart : ∀ f : Candidate → ℕ, (pre.map f).sum + f entry.2 ≤ t.candidates.sum f := by
      intro f
      rw [SortedMap.sum_eq_values, hsplit]
      simp only [List.map_append, List.map_cons, List.sum_append, List.sum_cons]
      omega
    have hbound : ∀ id c, t.candidates.get id = some c → c.IsNode ∨ c.IsRelation →
        (usage.incoming id).val + entry.2.refersTo id < 2 ^ 64 := by
      intro id c hget hkind
      rw [hincoming id]
      exact lt_of_le_of_lt (hpart _) (hc.incoming_lt hget hkind)
    have hbound' : ∀ id record, t.relations.get id = some record →
        (usage.provisional id).val + entry.2.uses id < 2 ^ 64 := by
      intro id record hget
      have hid := h.relations.id_eq id record hget
      have hstored := hc.provisional record (h.relations.has hget)
      rw [hid] at hstored
      rw [hprovisional id]
      refine lt_of_le_of_lt (hpart _) ?_
      rw [← hstored]
      exact record.provisionalReferenceCount.isLt
    simp only [List.map_append, List.map_cons, List.map_nil, List.sum_append, List.sum_cons,
      List.sum_nil, Nat.add_zero]
    rcases hcand : entry.2 with _ | _ | ⟨id, source, destination, relationKind, baseWeight⟩
    · exact ⟨fun id => by simp [hincoming, Candidate.refersTo],
        fun id => by simp [hprovisional, Candidate.uses]⟩
    · exact ⟨fun id => by simp [hincoming, Candidate.refersTo],
        fun id => by simp [hprovisional, Candidate.uses]⟩
    · rw [hcand] at hresolves hbound hbound'
      obtain ⟨hsource, hdestination, hrelation⟩ := hresolves
      simp only [Candidate.refersTo, Candidate.uses] at hbound hbound' ⊢
      refine (validateNodeDependency_ensures h hsource fun id c hget hnode => ?_).bind
        fun usage₁ hu₁ => ?_
      · have := hbound id c hget (.inl hnode)
        omega
      refine (validateNodeDependency_ensures h hdestination fun id c hget hnode => ?_).bind
        fun usage₂ hu₂ => ?_
      · have := hbound id c hget (.inl hnode)
        rw [hu₁.1 id]
        omega
      refine (validateRelationDependency_ensures h hrelation (fun id c hget hkind => ?_)
        fun id record hget => ?_).mono fun usage₃ _ hu₃ => ?_
      · have := hbound id c hget (.inr hkind)
        rw [hu₂.1 id, hu₁.1 id]
        omega
      · rw [hu₂.2, hu₁.2]
        exact hbound' id record hget
      · refine ⟨fun id => ?_, fun id => ?_⟩
        · rw [hu₃.1 id, hu₂.1 id, hu₁.1 id, hincoming id]
          omega
        · rw [hu₃.2 id, hu₂.2, hu₁.2, hprovisional id]
  · exact ⟨fun _ => rfl, fun _ => rfl⟩
  · intro usage _ husage
    simp only [SortedMap.sum_eq_values]
    exact husage

/-- Counting the edges of each relation kind gives the stored numbers. -/
lemma recomputeConfirmed_ensures (h : Represents db t) (hc : t.Consistent) :
    Ensures ((t.edges.entries.map Prod.snd).foldlM countConfirmed fun _ => 0)
      (fun confirmed => ∀ id, (confirmed id).val = t.edges.sum (EdgeRecord.uses id))
      fun _ => False := by
  refine (ensures_foldlM (I := fun pre (confirmed : RelationId → U64) =>
      ∀ id, (confirmed id).val = (pre.map (EdgeRecord.uses id)).sum)
    (t.edges.entries.map Prod.snd) (fun pre e post confirmed hsplit hconfirmed => ?_) ?_).mono ?_
  · have hmem : e ∈ t.edges.entries.map Prod.snd := by simp [hsplit]
    obtain ⟨entry, hentry, rfl⟩ := List.mem_map.1 hmem
    obtain ⟨-, -, record, hrecord⟩ := hc.edge _ (h.edges.has (SortedMap.get_of_mem hentry))
    have hstored := hc.confirmed record (h.relations.has hrecord)
    rw [h.relations.id_eq _ _ hrecord, SortedMap.sum_eq_values, hsplit] at hstored
    simp only [List.map_append, List.map_cons, List.sum_append, List.sum_cons, EdgeRecord.uses,
      if_pos] at hstored
    have hbound : (confirmed entry.2.relationKind).val + 1 < 2 ^ 64 := by
      have := record.confirmedEdgeCount.isLt
      have hcount := hconfirmed entry.2.relationKind
      omega
    have hadd : (confirmed entry.2.relationKind).checkedAdd 1 =
        some ⟨(confirmed entry.2.relationKind).val + 1, hbound⟩ := U64.checkedAdd_eq_some.2 rfl
    simp only [countConfirmed, hadd, okOr_some, ok_bind]
    intro id
    simp only [List.map_append, List.map_cons, List.map_nil, List.sum_append, List.sum_cons,
      List.sum_nil, Nat.add_zero, ← hconfirmed id]
    by_cases hid : id = entry.2.relationKind
    · simp [hid, EdgeRecord.uses]
    · simp [hid, Ne.symm hid, EdgeRecord.uses]
  · exact fun _ => rfl
  · intro confirmed _ hconfirmed
    simp only [SortedMap.sum_eq_values]
    exact hconfirmed

/-- The popularity index is read back as the list of its keys. -/
lemma readPopularity_eq_ok (h : Represents db t) :
    (db .relationPopularity).entries.foldlM requirePopularity [] =
      .ok ((db .relationPopularity).entries.map Prod.fst) := by
  refine foldlM_eq_ok (List.map Prod.fst) (db .relationPopularity).entries
    fun pre entry post hsplit => ?_
  obtain ⟨r, -, hkey, hvalue⟩ := h.popularity.of_mem (e := entry) (by simp [hsplit])
  have hentry : entry = (popularityBytes r, encodeU64Record r.id.asU64) :=
    Prod.ext hkey.symm hvalue.symm
  have hnew : popularityBytes r ∉ pre.map Prod.fst := by
    intro hmem
    obtain ⟨e, he, hekey⟩ := List.mem_map.1 hmem
    exact SortedMap.key_ne_of_split hsplit e he (hekey.trans hkey)
  rw [hentry]
  simp [requirePopularity, mapErr, decodePopularityKey_popularityBytes, hnew, pure, Except.pure]

lemma validateRelationUsage_eq_ok (h : Represents db t) (hw : t.Writable) (hc : t.Consistent) :
    validateRelationUsageAndCandidateDependencies db = .ok () := by
  have hcandidates : allCandidates db = .ok (t.candidates.entries.map Prod.snd) :=
    h.candidates.allRecords_eq
  have hedges : allEdges db = .ok (t.edges.entries.map Prod.snd) := h.edges.allRecords_eq
  have hrelations : allRelationKinds db = .ok (t.relations.entries.map Prod.snd) :=
    h.relations.allRecords_eq
  have hget := foldl_update_eq_get t.candidates h.candidates.id_eq
  obtain ⟨usage, husage, hincoming, hprovisional⟩ := (recomputeUsage_ensures h hc).exists_ok
  obtain ⟨confirmed, hconfirmed, hcount⟩ := (recomputeConfirmed_ensures h hc).exists_ok
  have hrequire : (t.candidates.entries.map Prod.snd).forM (requireIncoming usage.incoming) =
      (.ok () : Except CatalogError Unit) := by
    refine forM_eq_ok _ fun c hmem => ?_
    obtain ⟨entry, hentry, rfl⟩ := List.mem_map.1 hmem
    have hgete := SortedMap.get_of_mem hentry
    have hid := h.candidates.id_eq _ _ hgete
    have hstored : ∀ count, entry.2.incoming = some count →
        usage.incoming entry.2.id = count := by
      intro count hc'
      refine Fin.ext ?_
      rw [hincoming, hid, hc.incoming _ _ count hgete hc']
    rcases hcand : entry.2 with ⟨id, name, payload, count⟩ | ⟨id, name, count⟩ | _
    · rw [hcand] at hstored
      simp [requireIncoming, show usage.incoming id = count from hstored count rfl]
    · rw [hcand] at hstored
      simp [requireIncoming, show usage.incoming id = count from hstored count rfl]
    · rfl
  have hhas : ∀ r ∈ t.relations.entries.map Prod.snd, t.HasRelation r := by
    intro r hr
    obtain ⟨entry, hentry, rfl⟩ := List.mem_map.1 hr
    exact h.relations.has (SortedMap.get_of_mem hentry)
  have hexpected : (t.relations.entries.map Prod.snd).mapM
      (requireUsage usage.provisional confirmed) =
        .ok ((t.relations.entries.map Prod.snd).map popularityBytes) := by
    refine mapM_eq_ok _ fun r hr => ?_
    have hp : r.provisionalReferenceCount = usage.provisional r.id :=
      Fin.ext (by rw [hprovisional, hc.provisional r (hhas r hr)])
    have hk : r.confirmedEdgeCount = confirmed r.id :=
      Fin.ext (by rw [hcount, hc.confirmed r (hhas r hr)])
    simp [requireUsage, hp, hk, encodePopularityKey_eq (hw.relation r (hhas r hr)).usage, mapErr]
  -- the popularity keys are those of the stored relation kinds, in both directions
  have hsame : (∀ key ∈ (db .relationPopularity).entries.map Prod.fst,
        key ∈ (t.relations.entries.map Prod.snd).map popularityBytes) ∧
      ∀ key ∈ (t.relations.entries.map Prod.snd).map popularityBytes,
        key ∈ (db .relationPopularity).entries.map Prod.fst := by
    constructor
    · intro key hkey
      obtain ⟨entry, hentry, rfl⟩ := List.mem_map.1 hkey
      obtain ⟨r, hr, hrkey, -⟩ := h.popularity.of_mem hentry
      refine List.mem_map.2 ⟨r, List.mem_map.2 ⟨(r.id, r), ?_, rfl⟩, hrkey⟩
      exact SortedMap.get_eq_some.1 hr
    · intro key hkey
      obtain ⟨r, hr, rfl⟩ := List.mem_map.1 hkey
      refine List.mem_map.2 ⟨(popularityBytes r, encodeU64Record r.id.asU64), ?_, rfl⟩
      exact SortedMap.get_eq_some.1 (h.popularity.get_key (hhas r hr))
  simp only [validateRelationUsageAndCandidateDependencies, hcandidates, hget, husage, hrequire,
    hedges, hconfirmed, hrelations, hexpected, readPopularity_eq_ok h, ok_bind, if_pos hsame]
  rfl

/-! ## Counters -/

lemma foldl_max_lt {l : List ℕ} {n acc : ℕ} (hacc : acc < n) (h : ∀ x ∈ l, x < n) :
    l.foldl max acc < n := by
  induction l generalizing acc with
  | nil => exact hacc
  | cons x l ih => exact ih (max_lt hacc (h x (by simp))) fun y hy => h y (by simp [hy])

lemma validateNextIdCounter_eq_ok (h : Represents db t) {k : IdKind} {R : Type}
    {tab : SortedMap (DurableId k) R} {idOf : R → DurableId k} {val : R → Bytes}
    {decode : Bytes → U64 → Except CodecError R} {family : ColumnFamily}
    (hstored : Stored (db family) tab idOf val decode) (key : MetadataKey) (name : String) {n : U64}
    (hvalue : t.metadata.value key = some (encodeU64Record n)) (hpos : 1 ≤ n.val)
    (hlt : ∀ id r, tab.get id = some r → id.asU64.val < n.val) :
    validateNextIdCounter db (key.bytes, name, family) = .ok () := by
  have hzero : n ≠ 0 := by
    rintro rfl
    simp at hpos
  have hmax : ¬ n.val ≤ ((tab.entries.map fun e => e.1.asU64).map Fin.val).foldl max 0 := by
    refine not_le.2 (foldl_max_lt hpos fun x hx => ?_)
    obtain ⟨id, hid, rfl⟩ := List.mem_map.1 hx
    obtain ⟨e, he, rfl⟩ := List.mem_map.1 hid
    exact hlt _ _ (SortedMap.get_of_mem he)
  simp only [validateNextIdCounter, h.readMetadata_eq key name hvalue, hstored.collectIds_eq,
    ok_bind, if_neg hzero, if_neg hmax]
  rfl

lemma validateNextIdCounters_eq_ok (h : Represents db t) (hcounted : t.Counted) :
    validateNextIdCounters db = .ok () := by
  obtain ⟨hc, hn, hr, he⟩ := hcounted.positive
  refine forM_eq_ok _ fun counter hmem => ?_
  simp only [List.mem_cons, List.not_mem_nil, or_false] at hmem
  rcases hmem with rfl | rfl | rfl | rfl
  · exact validateNextIdCounter_eq_ok h h.candidates .nextCandidate _ rfl hc hcounted.candidate
  · exact validateNextIdCounter_eq_ok h h.nodes .nextNode _ rfl hn hcounted.node
  · exact validateNextIdCounter_eq_ok h h.relations .nextRelation _ rfl hr hcounted.relation
  · exact validateNextIdCounter_eq_ok h h.edges .nextEdge _ rfl he hcounted.edge

/-- The invariant passes every check, and rebuilding gives the maps it has. -/
lemma CatalogInv.validates {c : Catalog} (inv : CatalogInv c t) :
    validateMetadataRecords c.db = .ok () ∧
      rebuildIndexesAndValidate c.db = .ok (c.nodeNames, c.relationNames) := by
  have h := inv.represents
  refine ⟨validateMetadataRecords_eq_ok h inv.counted, ?_⟩
  have hcandidates : validateCandidates c.db = .ok () := by
    have hall : allCandidates c.db = .ok (t.candidates.entries.map Prod.snd) :=
      h.candidates.allRecords_eq
    simp only [validateCandidates, hall, ok_bind]
    rfl
  have hnodes : rebuildNodeIndex c.db = .ok c.nodeNames :=
    rebuildIndex_eq_ok _ _ h.nodes h.nodeNames (fun r hr => (inv.writable.node r hr).name)
      inv.nodeNames
  have hrelations : rebuildRelationIndex c.db = .ok c.relationNames :=
    rebuildIndex_eq_ok _ _ h.relations h.relationNames
      (fun r hr => (inv.writable.relation r hr).name) inv.relationNames
  simp only [rebuildIndexesAndValidate, hcandidates, hnodes, hrelations,
    validateEdgesAndAdjacency_eq_ok h inv.consistent,
    validateRelationUsage_eq_ok h inv.writable inv.consistent,
    validateNextIdCounters_eq_ok h inv.counted, ok_bind]
  rfl

end PathHydra
