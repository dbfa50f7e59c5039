import PathHydra.Properties.Store.Reachable

/-!
# What passes validation is well formed

The converse of `CatalogInv.validates`.  Every family that is scanned without an error gives a table
of the records in it, since the encodings are canonical; the checks of the name indexes, of the
adjacency and of the usage then say that the families represent these tables, and that the tables
are consistent.
-/

namespace PathHydra

variable {db : Database} {t : Tables}

/-! ## Tables of decoded families -/

section Decoded

variable {k : IdKind} {R : Type} {idOf : R → DurableId k} {val : R → Bytes}
  {decode : Bytes → U64 → Except CodecError R} {family : ColumnFamily}

/-- The decoder accepts nothing but the bytes of the record it returns. -/
def Canonical (idOf : R → DurableId k) (val : R → Bytes)
    (decode : Bytes → U64 → Except CodecError R) : Prop :=
  ∀ b id r, decode b id = .ok r → b = val r ∧ idOf r = ⟨id⟩

/-- A family that can be scanned holds the records of a table. -/
lemma stored_of_allRecords (hcanonical : Canonical idOf val decode) {rs : List R}
    (h : allRecords db family decode = .ok rs) :
    ∃ tab, Stored (db family) tab idOf val decode := by
  have hturns : List.Forall₂ (fun (e : Bytes × Bytes) r =>
      e = (encodeIdKey (idOf r).asU64, val r) ∧ decode (val r) (idOf r).asU64 = .ok r)
      (db family).entries rs := by
    refine (mapM_ok_forall₂ h).imp fun e r hturn => ?_
    obtain ⟨id, hid, hr⟩ := bind_eq_ok.1 hturn
    rw [mapErr_eq_ok] at hid hr
    obtain ⟨hvalue, heq⟩ := hcanonical _ _ _ hr
    rw [heq, ← hvalue]
    exact ⟨Prod.ext (decodeIdKey_eq_ok hid) rfl, hr⟩
  have hentries : (db family).entries = rs.map fun r => (encodeIdKey (idOf r).asU64, val r) :=
    forall₂_eq_map (hturns.flip.imp fun _ _ hturn => hturn.1)
  have hsorted : (rs.map fun r => (idOf r, r)).Pairwise fun a b => a.1 < b.1 := by
    have hkeys := (db family).sorted
    rw [hentries, List.pairwise_map] at hkeys
    exact List.pairwise_map.2 (hkeys.imp fun hlt => idKey_strictMono.lt_iff_lt.1 hlt)
  have hget : ∀ id r, (⟨_, hsorted⟩ : SortedMap (DurableId k) R).get id = some r ↔
      r ∈ rs ∧ idOf r = id := by
    intro id r
    rw [SortedMap.get_eq_some, List.mem_map]
    constructor
    · rintro ⟨r', hr', heq⟩
      cases heq
      exact ⟨hr', rfl⟩
    · rintro ⟨hr, rfl⟩
      exact ⟨r, hr, rfl⟩
  refine ⟨⟨_, hsorted⟩, fun key value => ?_, fun id r hr => ((hget id r).1 hr).2, fun id r hr => ?_⟩
  · rw [SortedMap.get_eq_some, hentries, List.mem_map]
    constructor
    · rintro ⟨r, hr, heq⟩
      cases heq
      exact ⟨r, (hget _ r).2 ⟨hr, rfl⟩, rfl, rfl⟩
    · rintro ⟨r, hr, rfl, rfl⟩
      exact ⟨r, ((hget _ r).1 hr).1, rfl⟩
  · obtain ⟨e, -, -, hdecode⟩ := forall₂_exists_of_mem hturns.flip ((hget id r).1 hr).1
    exact hdecode

end Decoded

lemma canonical_candidate : Canonical Candidate.id candidateBytes decodeCandidate :=
  fun _ _ _ h => ⟨(decodeCandidate_eq_ok h).1, (decodeCandidate_eq_ok h).2.1⟩

lemma canonical_node : Canonical NodeRecord.id nodeBytes decodeNode :=
  fun _ _ _ h => ⟨(decodeNode_eq_ok h).1, (decodeNode_eq_ok h).2.1⟩

lemma canonical_relation : Canonical RelationRecord.id relationBytes decodeRelation :=
  fun _ _ _ h => ⟨(decodeRelation_eq_ok h).1, (decodeRelation_eq_ok h).2.1⟩

lemma canonical_edge : Canonical EdgeRecord.id encodeEdge decodeEdge :=
  fun _ _ _ h => decodeEdge_eq_ok h

/-! ## Metadata -/

lemma readMetadata_eq_ok {key : Bytes} {recordId : String} {n : U64}
    (h : readMetadata db key recordId = .ok n) : (db .default).get key = some (encodeU64Record n) := by
  unfold readMetadata at h
  split at h
  · cases h
  · rename_i value hget
    rw [mapErr_eq_ok] at h
    rw [hget, decodeU64Record_eq_ok h]

lemma readActiveRoutingImage_eq_ok {pointer : Option ActiveRoutingImage}
    (h : readActiveRoutingImage db = .ok pointer) :
    (db .default).get META_ACTIVE_ROUTING_IMAGE = pointer.map encodeActiveRoutingImage ∧
      ∀ p, pointer = some p → (strBytes p.relativeBundle).length < 2 ^ 32 := by
  unfold readActiveRoutingImage at h
  split at h
  · rename_i hget
    cases h
    exact ⟨hget, fun p hp => by cases hp⟩
  · rename_i encoded hget
    by_cases hshort : encoded.length < 36
    · rw [if_pos hshort] at h
      cases h
    rw [if_neg hshort] at h
    by_cases hlength : encoded.length = 4 + leValue (encoded.take 4) + 32
    · rw [dif_pos hlength] at h
      rcases hname : fromUtf8 ((encoded.drop 4).take (leValue (encoded.take 4))) with _ | name
      · simp only [hname] at h
        cases h
      simp only [hname] at h
      cases h
      have hbytes := strBytes_of_fromUtf8 hname
      have htake : (encoded.take 4).length = 4 := List.length_take_of_le (by omega)
      have hlt : leValue (encoded.take 4) < 2 ^ 32 := by
        have hbound := beValue_lt (encoded.take 4).reverse
        rw [List.length_reverse, htake] at hbound
        exact hbound
      have hlen : (strBytes name).length = leValue (encoded.take 4) := by
        rw [hbytes, List.length_take_of_le]
        rw [List.length_drop]
        omega
      refine ⟨?_, fun p hp => ?_⟩
      · rw [hget, Option.map_some, encodeActiveRoutingImage]
        dsimp only
        rw [hlen, leBytes_leValue htake, hbytes, ← List.drop_drop, List.append_assoc,
          List.take_append_drop, List.take_append_drop]
      · cases hp
        rw [hlen]
        exact hlt
    · rw [dif_neg hlength] at h
      cases h

/-- Metadata that is accepted is that of some tables. -/
lemma validateMetadataRecords_sound (h : validateMetadataRecords db = .ok ()) :
    ∃ d, MetadataOf (db .default) d ∧
      ∀ p, d.pointer = some p → (strBytes p.relativeBundle).length < 2 ^ 32 := by
  obtain ⟨_, hkeys, h⟩ := bind_eq_ok.1 h
  obtain ⟨_, hcounters, h⟩ := bind_eq_ok.1 h
  obtain ⟨pointer, hpointer, -⟩ := bind_eq_ok.1 h
  have hread : ∀ key id, (key, id) ∈ metadataCounters →
      ∃ n, (db .default).get key = some (encodeU64Record n) := by
    intro key id hmem
    obtain ⟨n, hn, -⟩ := bind_eq_ok.1 (forM_ok_mem hcounters hmem)
    exact ⟨n, readMetadata_eq_ok hn⟩
  obtain ⟨nextCandidate, hcandidate⟩ := hread META_NEXT_CANDIDATE_ID "next-candidate-id"
    (by simp [metadataCounters])
  obtain ⟨nextNode, hnode⟩ := hread META_NEXT_NODE_ID "next-node-id"
    (by simp [metadataCounters])
  obtain ⟨nextRelation, hrelation⟩ := hread META_NEXT_RELATION_ID "next-relation-id"
    (by simp [metadataCounters])
  obtain ⟨nextEdge, hedge⟩ := hread META_NEXT_EDGE_ID "next-edge-id"
    (by simp [metadataCounters])
  obtain ⟨hget, hfits⟩ := readActiveRoutingImage_eq_ok hpointer
  refine ⟨⟨nextCandidate, nextNode, nextRelation, nextEdge, pointer⟩, ⟨fun key => ?_,
    fun e he => ?_⟩, hfits⟩
  · cases key with
    | nextCandidate => exact hcandidate
    | nextNode => exact hnode
    | nextRelation => exact hrelation
    | nextEdge => exact hedge
    | pointer => exact hget
  · have hallowed := forM_ok_mem hkeys he
    dsimp only at hallowed
    split_ifs at hallowed with hany
    simp only [List.any_cons, List.any_nil, Bool.or_false, Bool.or_eq_true,
      decide_eq_true_eq] at hany
    rcases hany with heq | heq | heq | heq | heq
    · exact ⟨.nextCandidate, heq⟩
    · exact ⟨.nextNode, heq⟩
    · exact ⟨.nextRelation, heq⟩
    · exact ⟨.nextEdge, heq⟩
    · exact ⟨.pointer, heq⟩

/-! ## The exact-name maps -/

section Names

variable {k : IdKind} {R : Type} {tab : SortedMap (DurableId k) R} {idOf : R → DurableId k}
  {val : R → Bytes} {decode : Bytes → U64 → Except CodecError R} {nameOf : R → String}
  {names records : ColumnFamily} {mapped confirmed : String}

/-- The entry a name family has for a record. -/
def nameEntry (nameOf : R → String) (idOf : R → DurableId k) (r : R) : Bytes × Bytes :=
  (nameBytes (nameOf r), encodeU64Record (idOf r).asU64)

lemma rebuildName_sound (hstored : Stored (db records) tab idOf val decode)
    {map map' : String → Option (DurableId k)} {entry : Bytes × Bytes}
    (h : rebuildName db names records mapped decode nameOf map entry = .ok map') :
    ∃ r, tab.get (idOf r) = some r ∧ entry = nameEntry nameOf idOf r ∧ NameFits (nameOf r) ∧
      map' = Function.update map (nameOf r) (some (idOf r)) := by
  obtain ⟨name, hname, h⟩ := bind_eq_ok.1 h
  obtain ⟨id, hid, h⟩ := bind_eq_ok.1 h
  obtain ⟨recordValue, hvalue, h⟩ := bind_eq_ok.1 h
  obtain ⟨record, hrecord, hcheck⟩ := bind_eq_ok.1 h
  rw [mapErr_eq_ok] at hname hid hrecord
  rw [okOr_eq_ok] at hvalue
  -- the record behind the entry is the one of the table
  have hget : (tab.get ⟨id⟩).map val = some recordValue := (hstored.get_key ⟨id⟩).symm.trans hvalue
  obtain ⟨r, hr, rfl⟩ := Option.map_eq_some_iff.1 hget
  have hidr : idOf r = ⟨id⟩ := hstored.id_eq _ r hr
  have hdecode := hstored.decodes _ r hr
  rw [hidr, hrecord] at hdecode
  obtain rfl := Except.ok.inj hdecode
  by_cases hsame : nameOf record = name
  · by_cases hfree : (map name).isSome = true
    · simp only [hsame, ne_eq, not_true_eq_false, if_false, if_pos hfree] at hcheck
      cases hcheck
    · simp only [hsame, ne_eq, not_true_eq_false, if_false, if_neg hfree] at hcheck
      cases hcheck
      obtain ⟨hkey, hfits⟩ := decodeNameKey_eq_ok hname
      refine ⟨record, hstored.has hr, Prod.ext ?_ ?_, ?_, ?_⟩
      · rw [nameEntry, hsame]
        exact hkey
      · rw [nameEntry, hidr]
        exact decodeU64Record_eq_ok hid
      · rw [hsame]
        exact hfits
      · rw [hsame, hidr]
  · simp only [ne_eq, hsame, not_false_eq_true, if_true] at hcheck
    cases hcheck

/-- A name family that is accepted is the index of the names, each of them of one record. -/
lemma rebuildIndex_sound (hstored : Stored (db records) tab idOf val decode)
    {map : String → Option (DurableId k)}
    (h : rebuildIndex db names records mapped confirmed decode nameOf = .ok map) :
    Indexes (db names) (fun r => tab.get (idOf r) = some r) (fun r => nameBytes (nameOf r))
        (fun r => encodeU64Record (idOf r).asU64) ∧
      ∀ r r', tab.get (idOf r) = some r → tab.get (idOf r') = some r' → nameOf r = nameOf r' →
        r = r' := by
  obtain ⟨m, hfold, h⟩ := bind_eq_ok.1 h
  obtain ⟨_, hrecords, h⟩ := bind_eq_ok.1 h
  cases h
  -- every entry is that of a record, and what the map holds comes from an entry
  have hinv : (∀ e ∈ (db names).entries, ∃ r, tab.get (idOf r) = some r ∧
        e = nameEntry nameOf idOf r) ∧
      ∀ s id, map s = some id → (nameBytes s, encodeU64Record id.asU64) ∈ (db names).entries := by
    refine (ensures_foldlM (E := fun _ => True)
      (I := fun pre (m : String → Option (DurableId k)) =>
        (∀ e ∈ pre, ∃ r, tab.get (idOf r) = some r ∧ e = nameEntry nameOf idOf r) ∧
        ∀ s id, m s = some id → (nameBytes s, encodeU64Record id.asU64) ∈ pre)
      (db names).entries (fun pre entry post m hsplit hm => ?_) ?_).of_ok hfold
    · refine (ensures_ok _).mono fun m' _ hturn => ?_
      obtain ⟨r, hr, hentry, -, rfl⟩ := rebuildName_sound hstored hturn
      refine ⟨fun e he => ?_, fun s id hs => ?_⟩
      · rcases List.mem_append.1 he with he | he
        · exact hm.1 e he
        · exact ⟨r, hr, (List.mem_singleton.1 he).trans hentry⟩
      · by_cases hsr : s = nameOf r
        · subst hsr
          rw [Function.update_self] at hs
          cases hs
          rw [hentry]
          exact List.mem_append_right _ (List.mem_singleton_self _)
        · rw [Function.update_of_ne hsr] at hs
          exact List.mem_append_left _ (hm.2 s id hs)
    · exact ⟨fun e he => absurd he (by simp), fun s id hs => by cases hs⟩
  -- every record is found under its name
  have hmapped : ∀ r, tab.get (idOf r) = some r → map (nameOf r) = some (idOf r) := by
    intro r hr
    have hmem := SortedMap.get_eq_some.1 ((hstored.get_key (idOf r)).trans (by rw [hr]; rfl))
    have hturn := forM_ok_mem hrecords hmem
    obtain ⟨id, hid, hturn⟩ := bind_eq_ok.1 hturn
    obtain ⟨record, hrecord, hturn⟩ := bind_eq_ok.1 hturn
    rw [mapErr_eq_ok, decodeIdKey_encodeIdKey] at hid
    cases hid
    rw [mapErr_eq_ok, hstored.decodes _ r hr] at hrecord
    cases hrecord
    split_ifs at hturn with heq
    exact heq
  refine ⟨fun key value => ?_, fun r r' hr hr' hname => ?_⟩
  · rw [SortedMap.get_eq_some]
    constructor
    · intro hmem
      obtain ⟨r, hr, heq⟩ := hinv.1 _ hmem
      cases heq
      exact ⟨r, hr, rfl, rfl⟩
    · rintro ⟨r, hr, rfl, rfl⟩
      exact hinv.2 _ _ (hmapped r hr)
  · have hids := hmapped r' hr'
    rw [← hname, hmapped r hr] at hids
    exact has_unique hr hr' (Option.some.inj hids)

/-- A family of records that is checked against its names can be scanned. -/
lemma allRecords_of_rebuildIndex {map : String → Option (DurableId k)}
    (h : rebuildIndex db names records mapped confirmed decode nameOf = .ok map) :
    ∃ rs, allRecords db records decode = .ok rs := by
  obtain ⟨m, -, h⟩ := bind_eq_ok.1 h
  obtain ⟨_, hrecords, -⟩ := bind_eq_ok.1 h
  have hturns : Ensures (allRecords db records decode) (fun _ => True) fun _ => False := by
    refine (ensures_mapM (P := fun _ _ => True) (db records).entries fun entry hentry => ?_).mono
      fun _ _ _ => trivial
    obtain ⟨id, hid, hturn⟩ := bind_eq_ok.1 (forM_ok_mem hrecords hentry)
    obtain ⟨record, hrecord, -⟩ := bind_eq_ok.1 hturn
    simp only [hid, hrecord, ok_bind]
    trivial
  obtain ⟨rs, hrs, -⟩ := hturns.exists_ok
  exact ⟨rs, hrs⟩

end Names

/-! ## Adjacency -/

/-- An adjacency family that is accepted is the projection of the edges. -/
lemma validateAdjacencyFamily_sound {family : ColumnFamily} {outgoing : Bool} {counts : EdgeId → ℕ}
    (h : validateAdjacencyFamily db family t.edges.get outgoing = .ok counts)
    (hedges : ∀ id e, t.edges.get id = some e → e.id = id)
    (honce : ∀ e, t.HasEdge e → counts e.id = 1) :
    Indexes (db family) t.HasEdge (fun e => encodeAdjacencyKey (e.endpoint outgoing) e.id)
      fun e => encodeAdjacencyValue e.id := by
  -- every entry is that of a stored edge, and every counted edge has an entry
  have hinv : (∀ p ∈ (db family).entries, ∃ e, t.HasEdge e ∧
        p = (encodeAdjacencyKey (e.endpoint outgoing) e.id, encodeAdjacencyValue e.id)) ∧
      ∀ id, counts id ≠ 0 → ∃ p ∈ (db family).entries, ∃ node, p.1 = encodeAdjacencyKey node id := by
    refine (ensures_foldlM (E := fun _ => True) (I := fun pre (counts : EdgeId → ℕ) =>
        (∀ p ∈ pre, ∃ e, t.HasEdge e ∧
          p = (encodeAdjacencyKey (e.endpoint outgoing) e.id, encodeAdjacencyValue e.id)) ∧
        ∀ id, counts id ≠ 0 → ∃ p ∈ pre, ∃ node, p.1 = encodeAdjacencyKey node id)
      (db family).entries (fun pre entry post counts hsplit hcounts => ?_) ?_).of_ok h
    · refine (ensures_ok _).mono fun counts' _ hturn => ?_
      obtain ⟨⟨node, id⟩, hkey, hturn⟩ := bind_eq_ok.1 hturn
      obtain ⟨_, hvalue, hturn⟩ := bind_eq_ok.1 hturn
      obtain ⟨e, he, hturn⟩ := bind_eq_ok.1 hturn
      rw [mapErr_eq_ok] at hkey hvalue
      rw [okOr_eq_ok] at he
      have hentry := decodeAdjacencyKey_eq_ok hkey
      by_cases hnode : node = e.endpoint outgoing
      · simp only [ne_eq, hnode, not_true_eq_false, if_false] at hturn
        cases hturn
        obtain rfl := hedges id e he
        refine ⟨fun p hp => ?_, fun id' hid' => ?_⟩
        · rcases List.mem_append.1 hp with hp | hp
          · exact hcounts.1 p hp
          · rw [List.mem_singleton.1 hp]
            exact ⟨e, he, Prod.ext (hnode ▸ hentry) (decodeAdjacencyValue_eq_ok hvalue)⟩
        · by_cases heq : id' = e.id
          · exact ⟨entry, by simp, node, heq ▸ hentry⟩
          · rw [Function.update_of_ne heq] at hid'
            obtain ⟨p, hp, hrest⟩ := hcounts.2 id' hid'
            exact ⟨p, by simp [hp], hrest⟩
      · simp only [ne_eq, hnode, not_false_eq_true, if_true] at hturn
        cases hturn
    · exact ⟨fun p hp => absurd hp (by simp), fun id hid => absurd rfl hid⟩
  intro key value
  rw [SortedMap.get_eq_some]
  constructor
  · intro hmem
    obtain ⟨e, he, heq⟩ := hinv.1 _ hmem
    cases heq
    exact ⟨e, he, rfl, rfl⟩
  · rintro ⟨e, he, rfl, rfl⟩
    obtain ⟨p, hp, node, hkey⟩ := hinv.2 e.id (by rw [honce e he]; decide)
    obtain ⟨e', he', rfl⟩ := hinv.1 p hp
    obtain rfl := has_unique he' he (adjacencyKey_inj hkey).2
    exact hp

/-! ## Popularity -/

/-- A popularity family with the expected keys is the index of the usage. -/
lemma requirePopularity_sound {actual : List Bytes} {S : RelationRecord → Prop}
    (h : (db .relationPopularity).entries.foldlM requirePopularity [] = .ok actual)
    (hexpected : ∀ key, key ∈ actual ↔ ∃ r, S r ∧ popularityBytes r = key) :
    Indexes (db .relationPopularity) S popularityBytes fun r => encodeU64Record r.id.asU64 := by
  -- what is collected are the keys, and each value is the identifier in its key
  have hinv : actual = (db .relationPopularity).entries.map Prod.fst ∧
      ∀ e ∈ (db .relationPopularity).entries, ∀ r : RelationRecord, popularityBytes r = e.1 →
        e.2 = encodeU64Record r.id.asU64 := by
    refine (ensures_foldlM (E := fun _ => True) (I := fun pre (seen : List Bytes) =>
        seen = pre.map Prod.fst ∧ ∀ e ∈ pre, ∀ r : RelationRecord, popularityBytes r = e.1 →
          e.2 = encodeU64Record r.id.asU64)
      (db .relationPopularity).entries (fun pre entry post seen hsplit hseen => ?_) ?_).of_ok h
    · refine (ensures_ok _).mono fun seen' _ hturn => ?_
      obtain ⟨⟨total, confirmed, id⟩, hkey, hturn⟩ := bind_eq_ok.1 hturn
      obtain ⟨valueId, hvalue, hturn⟩ := bind_eq_ok.1 hturn
      rw [mapErr_eq_ok] at hkey hvalue
      by_cases hbad : valueId ≠ id.asU64 ∨ entry.1 ∈ seen
      · simp only [if_pos hbad] at hturn
        cases hturn
      · simp only [if_neg hbad] at hturn
        cases hturn
        rw [not_or, not_not] at hbad
        refine ⟨by rw [hseen.1, List.map_append]; rfl, fun e he r hr => ?_⟩
        rcases List.mem_append.1 he with he | he
        · exact hseen.2 e he r hr
        · rw [List.mem_singleton.1 he] at hr ⊢
          rw [← hr, decodePopularityKey_popularityBytes] at hkey
          cases hkey
          rw [decodeU64Record_eq_ok hvalue, hbad.1]
    · exact ⟨rfl, fun e he => absurd he (by simp)⟩
  intro key value
  rw [SortedMap.get_eq_some]
  constructor
  · intro hmem
    obtain ⟨r, hr, hkey⟩ := (hexpected key).1 (by rw [hinv.1]; exact List.mem_map_of_mem hmem)
    exact ⟨r, hr, hkey, (hinv.2 _ hmem r hkey).symm⟩
  · rintro ⟨r, hr, rfl, rfl⟩
    have hmem := (hexpected _).2 ⟨r, hr, rfl⟩
    rw [hinv.1] at hmem
    obtain ⟨e, he, heq⟩ := List.mem_map.1 hmem
    dsimp only
    rw [← heq, ← hinv.2 e he r heq.symm]
    exact he

/-! ## Dependencies and usage -/

/-- A checked increment that succeeded has added one. -/
lemma checkedIncrement_eq_ok {counts counts' : CandidateId → U64} {id : CandidateId}
    (h : checkedIncrementCandidateReference counts id = .ok counts') (id' : CandidateId) :
    (counts' id').val = (counts id').val + if id' = id then 1 else 0 := by
  obtain ⟨count, hcount, h⟩ := bind_eq_ok.1 h
  cases h
  rw [okOr_eq_ok, U64.checkedAdd_eq_some] at hcount
  by_cases hid : id' = id
  · subst hid
    rw [Function.update_self, if_pos rfl, ← hcount]
    rfl
  · rw [Function.update_of_ne hid, if_neg hid, Nat.add_zero]

lemma validateNodeDependency_sound (h : Represents db t) {owner : CandidateId}
    {usage usage' : RecomputedUsage} {r : CandidateNodeReference}
    (hturn : validateNodeDependency db t.candidates.get owner usage r = .ok usage') :
    t.ResolvesNode r ∧
      (∀ id, (usage'.incoming id).val = (usage.incoming id).val + r.pointsTo id) ∧
      usage'.provisional = usage.provisional := by
  cases r with
  | confirmed node =>
    obtain ⟨record, hrecord, hpure⟩ := bind_eq_ok.1 hturn
    cases hpure
    rw [mapErr_eq_ok, h.getNode_eq, okOr_eq_ok] at hrecord
    exact ⟨⟨record, hrecord⟩, fun id => by simp [CandidateNodeReference.pointsTo], rfl⟩
  | candidate id =>
    rcases hget : t.candidates.get id with _ | ⟨id', name, payload, count⟩ | _ | _
    · simp only [validateNodeDependency, hget] at hturn
      cases hturn
    · simp only [validateNodeDependency, hget] at hturn
      obtain ⟨incoming, hincoming, hpure⟩ := bind_eq_ok.1 hturn
      cases hpure
      refine ⟨⟨_, hget, trivial⟩, fun id' => ?_, rfl⟩
      rw [CandidateNodeReference.pointsTo_candidate]
      exact checkedIncrement_eq_ok hincoming id'
    · simp only [validateNodeDependency, hget] at hturn
      cases hturn
    · simp only [validateNodeDependency, hget] at hturn
      cases hturn

lemma validateRelationDependency_sound (h : Represents db t) {owner : CandidateId}
    {usage usage' : RecomputedUsage} {r : CandidateRelationReference}
    (hturn : validateRelationDependency db t.candidates.get owner usage r = .ok usage') :
    t.ResolvesRelation r ∧
      (∀ id, (usage'.incoming id).val = (usage.incoming id).val + r.pointsTo id) ∧
      ∀ id, (usage'.provisional id).val =
        (usage.provisional id).val + if r = .confirmed id then 1 else 0 := by
  cases r with
  | confirmed relation =>
    obtain ⟨record, hrecord, hturn⟩ := bind_eq_ok.1 hturn
    obtain ⟨count, hcount, hpure⟩ := bind_eq_ok.1 hturn
    cases hpure
    rw [mapErr_eq_ok, h.getRelation_eq, okOr_eq_ok] at hrecord
    rw [okOr_eq_ok, U64.checkedAdd_eq_some] at hcount
    refine ⟨⟨record, hrecord⟩, fun id => by simp [CandidateRelationReference.pointsTo],
      fun id => ?_⟩
    by_cases hid : id = relation
    · subst hid
      simp only [Function.update_self, if_true, ← hcount]
      rfl
    · simp [hid, Ne.symm hid]
  | candidate id =>
    rcases hget : t.candidates.get id with _ | _ | ⟨id', name, count⟩ | _
    · simp only [validateRelationDependency, hget] at hturn
      cases hturn
    · simp only [validateRelationDependency, hget] at hturn
      cases hturn
    · simp only [validateRelationDependency, hget] at hturn
      obtain ⟨incoming, hincoming, hpure⟩ := bind_eq_ok.1 hturn
      cases hpure
      refine ⟨⟨_, hget, trivial⟩, fun id' => ?_, fun id' => by simp⟩
      rw [CandidateRelationReference.pointsTo_candidate]
      exact checkedIncrement_eq_ok hincoming id'
    · simp only [validateRelationDependency, hget] at hturn
      cases hturn

/-- One accepted candidate resolves, and its references are counted. -/
lemma validateDependencies_sound (h : Represents db t) {usage usage' : RecomputedUsage}
    {c : Candidate} (hturn : validateDependencies db t.candidates.get usage c = .ok usage') :
    t.Resolves c ∧
      (∀ id, (usage'.incoming id).val = (usage.incoming id).val + c.refersTo id) ∧
      ∀ id, (usage'.provisional id).val = (usage.provisional id).val + c.uses id := by
  rcases c with _ | _ | ⟨id, source, destination, relationKind, baseWeight⟩
  · cases hturn
    exact ⟨trivial, fun _ => rfl, fun _ => rfl⟩
  · cases hturn
    exact ⟨trivial, fun _ => rfl, fun _ => rfl⟩
  · obtain ⟨usage₁, hsource, hturn⟩ := bind_eq_ok.1 hturn
    obtain ⟨usage₂, hdestination, hrelation⟩ := bind_eq_ok.1 hturn
    obtain ⟨hrs, hin₁, hprov₁⟩ := validateNodeDependency_sound h hsource
    obtain ⟨hrd, hin₂, hprov₂⟩ := validateNodeDependency_sound h hdestination
    obtain ⟨hrr, hin₃, hprov₃⟩ := validateRelationDependency_sound h hrelation
    refine ⟨⟨hrs, hrd, hrr⟩, fun id' => ?_, fun id' => ?_⟩
    · rw [hin₃, hin₂, hin₁, Candidate.refersTo]
      omega
    · rw [hprov₃, hprov₂, hprov₁]
      rfl

/-- The recomputed usage is the number of references, and every candidate resolves. -/
lemma recomputeUsage_sound (h : Represents db t) {usage : RecomputedUsage}
    (hrun : (t.candidates.entries.map Prod.snd).foldlM (validateDependencies db t.candidates.get)
      ⟨fun _ => 0, fun _ => 0⟩ = .ok usage) :
    (∀ id c, t.candidates.get id = some c → t.Resolves c) ∧
      (∀ id, (usage.incoming id).val = t.candidates.sum (Candidate.refersTo id)) ∧
      ∀ id, (usage.provisional id).val = t.candidates.sum (Candidate.uses id) := by
  have hinv := (ensures_foldlM (E := fun _ => True) (I := fun pre (usage : RecomputedUsage) =>
      (∀ c ∈ pre, t.Resolves c) ∧
      (∀ id, (usage.incoming id).val = (pre.map (Candidate.refersTo id)).sum) ∧
      ∀ id, (usage.provisional id).val = (pre.map (Candidate.uses id)).sum)
    (t.candidates.entries.map Prod.snd) (fun pre c post usage hsplit husage => ?_) ?_).of_ok hrun
  · refine ⟨fun id c hget => ?_, fun id => ?_, fun id => ?_⟩
    · exact hinv.1 c (List.mem_map.2 ⟨(id, c), SortedMap.get_eq_some.1 hget, rfl⟩)
    · rw [hinv.2.1 id, SortedMap.sum_eq_values]
    · rw [hinv.2.2 id, SortedMap.sum_eq_values]
  · refine (ensures_ok _).mono fun usage' _ hturn => ?_
    obtain ⟨hresolves, hincoming, hprovisional⟩ := validateDependencies_sound h hturn
    refine ⟨fun c' hc' => ?_, fun id => ?_, fun id => ?_⟩
    · rcases List.mem_append.1 hc' with hc' | hc'
      · exact husage.1 c' hc'
      · rw [List.mem_singleton.1 hc']
        exact hresolves
    · rw [hincoming id, husage.2.1 id]
      simp
    · rw [hprovisional id, husage.2.2 id]
      simp
  · exact ⟨fun c hc => absurd hc (by simp), fun _ => rfl, fun _ => rfl⟩

/-- The recomputed confirmed usage is the number of edges. -/
lemma recomputeConfirmed_sound {confirmed : RelationId → U64}
    (hrun : (t.edges.entries.map Prod.snd).foldlM countConfirmed (fun _ => 0) = .ok confirmed)
    (id : RelationId) : (confirmed id).val = t.edges.sum (EdgeRecord.uses id) := by
  have hinv := (ensures_foldlM (E := fun _ => True) (I := fun pre (confirmed : RelationId → U64) =>
      ∀ id, (confirmed id).val = (pre.map (EdgeRecord.uses id)).sum)
    (t.edges.entries.map Prod.snd) (fun pre e post confirmed hsplit hconfirmed => ?_) ?_).of_ok hrun
  · rw [hinv id, SortedMap.sum_eq_values]
  · refine (ensures_ok _).mono fun confirmed' _ hturn id => ?_
    obtain ⟨count, hcount, hpure⟩ := bind_eq_ok.1 hturn
    cases hpure
    rw [okOr_eq_ok, U64.checkedAdd_eq_some] at hcount
    simp only [List.map_append, List.map_cons, List.map_nil, List.sum_append, List.sum_cons,
      List.sum_nil, Nat.add_zero, ← hconfirmed id]
    by_cases hid : id = e.relationKind
    · subst hid
      rw [Function.update_self, ← hcount, EdgeRecord.uses, if_pos rfl]
      rfl
    · rw [Function.update_of_ne hid, EdgeRecord.uses, if_neg (Ne.symm hid), Nat.add_zero]
  · exact fun _ => rfl

/-! ## Counters -/

lemma le_foldl_max {l : List ℕ} {n acc : ℕ} (h : n ∈ l ∨ n ≤ acc) : n ≤ l.foldl max acc := by
  induction l generalizing acc with
  | nil =>
    rcases h with h | h
    · cases h
    · exact h
  | cons x l ih =>
    refine ih ?_
    rcases h with h | h
    · rcases List.mem_cons.1 h with rfl | h
      · exact .inr (le_max_right _ _)
      · exact .inl h
    · exact .inr (h.trans (le_max_left _ _))

lemma validateNextIdCounter_sound (h : Represents db t) {k : IdKind} {R : Type}
    {tab : SortedMap (DurableId k) R} {idOf : R → DurableId k} {val : R → Bytes}
    {decode : Bytes → U64 → Except CodecError R} {family : ColumnFamily}
    (hstored : Stored (db family) tab idOf val decode) (key : MetadataKey) {name : String} {n : U64}
    (hvalue : t.metadata.value key = some (encodeU64Record n))
    (hcheck : validateNextIdCounter db (key.bytes, name, family) = .ok ()) :
    1 ≤ n.val ∧ ∀ id r, tab.get id = some r → id.asU64.val < n.val := by
  obtain ⟨next, hnext, hcheck⟩ := bind_eq_ok.1 hcheck
  rw [h.readMetadata_eq key name hvalue] at hnext
  obtain rfl := Except.ok.inj hnext
  by_cases hzero : n = 0
  · simp only [if_pos hzero] at hcheck
    cases hcheck
  simp only [if_neg hzero] at hcheck
  obtain ⟨ids, hids, hcheck⟩ := bind_eq_ok.1 hcheck
  rw [hstored.collectIds_eq] at hids
  obtain rfl := Except.ok.inj hids
  split_ifs at hcheck with hmax
  refine ⟨Nat.pos_of_ne_zero fun heq => hzero (Fin.ext heq), fun id r hget => ?_⟩
  refine lt_of_le_of_lt (le_foldl_max (.inl ?_)) (not_le.1 hmax)
  exact List.mem_map_of_mem (List.mem_map_of_mem (SortedMap.get_eq_some.1 hget))

/-! ## Soundness and completeness -/

/-- The contents of the database are well formed: every key and value decodes to the records of the
tables, the name indexes, the adjacency families and the popularity are exactly those of the
records, names belong to one record each, references lead to records of the right kind, stored
counts are the true numbers of references, and identifiers are below their counters. -/
structure WellFormed (db : Database) (t : Tables) : Prop where
  represents : Represents db t
  writable : t.Writable
  consistent : t.Consistent
  below : ∀ k (id : DurableId k), t.Has id → id.asU64.val < (t.counter k).val
  pointer : ∀ p, t.metadata.pointer = some p → (strBytes p.relativeBundle).length < 2 ^ 32

/-- Opening accepts the contents of the database. -/
def Accepts (db : Database) : Prop :=
  validateMetadataRecords db = .ok () ∧ ∃ maps, rebuildIndexesAndValidate db = .ok maps

/-- Records with a name each have an exact-name map. -/
lemma exists_namesOf {k : IdKind} {R : Type} {S : R → Prop} {nameOf : R → String}
    (idOf : R → DurableId k) (hinj : ∀ r r', S r → S r' → nameOf r = nameOf r' → r = r') :
    ∃ names, NamesOf names S nameOf idOf := by
  classical
  refine ⟨fun s => if h : ∃ r, S r ∧ nameOf r = s then some (idOf h.choose) else none,
    fun s id => ?_⟩
  by_cases h : ∃ r, S r ∧ nameOf r = s
  · simp only [dif_pos h, Option.some.injEq]
    obtain ⟨hchosen, hname⟩ := h.choose_spec
    constructor
    · rintro rfl
      exact ⟨_, hchosen, hname, rfl⟩
    · rintro ⟨r, hr, hrname, rfl⟩
      rw [hinj _ r hchosen hr (hname.trans hrname.symm)]
  · simp only [dif_neg h, reduceCtorEq, false_iff]
    rintro ⟨r, hr, hname, -⟩
    exact h ⟨r, hr, hname⟩

lemma WellFormed.accepts (h : WellFormed db t) (hpositive : ∀ k, 1 ≤ (t.counter k).val) :
    Accepts db := by
  obtain ⟨nodeNames, hnodeNames⟩ := exists_namesOf NodeRecord.id h.writable.node_name_inj
  obtain ⟨relationNames, hrelationNames⟩ :=
    exists_namesOf RelationRecord.id h.writable.relation_name_inj
  have hcounted : t.Counted :=
    { candidate := fun id c hget => h.below .candidate id ⟨c, hget⟩
      node := fun id r hget => h.below .node id ⟨r, hget⟩
      relation := fun id r hget => h.below .relation id ⟨r, hget⟩
      edge := fun id e hget => h.below .edge id ⟨e, hget⟩
      positive := ⟨hpositive .candidate, hpositive .node, hpositive .relation, hpositive .edge⟩
      pointer := h.pointer }
  have inv : CatalogInv ⟨db, nodeNames, relationNames⟩ t :=
    ⟨h.represents, h.writable, h.consistent, hcounted, hnodeNames, hrelationNames⟩
  exact ⟨inv.validates.1, _, inv.validates.2⟩

/-- The tables are consistent when the dependencies and the usage are accepted. -/
lemma consistent_of_validate (h : Represents db t)
    (hedges : ∀ e, t.HasEdge e → requireEdgeReferences db e = .ok ())
    (husage : validateRelationUsageAndCandidateDependencies db = .ok ()) : t.Consistent := by
  have hcandidates : allCandidates db = .ok (t.candidates.entries.map Prod.snd) :=
    h.candidates.allRecords_eq
  have hall : allEdges db = .ok (t.edges.entries.map Prod.snd) := h.edges.allRecords_eq
  have hrelations : allRelationKinds db = .ok (t.relations.entries.map Prod.snd) :=
    h.relations.allRecords_eq
  simp only [validateRelationUsageAndCandidateDependencies, hcandidates, hall, hrelations,
    foldl_update_eq_get t.candidates h.candidates.id_eq, ok_bind] at husage
  obtain ⟨usage, hrecompute, husage⟩ := bind_eq_ok.1 husage
  obtain ⟨_, hincoming, husage⟩ := bind_eq_ok.1 husage
  obtain ⟨confirmed, hconfirmed, husage⟩ := bind_eq_ok.1 husage
  obtain ⟨expected, hexpected, -⟩ := bind_eq_ok.1 husage
  obtain ⟨hresolves, hrefers, huses⟩ := recomputeUsage_sound h hrecompute
  have hcount := recomputeConfirmed_sound hconfirmed
  -- stored counts are equal to those recomputed
  have hstored : ∀ r, t.HasRelation r → r.provisionalReferenceCount = usage.provisional r.id ∧
      r.confirmedEdgeCount = confirmed r.id := by
    intro r hr
    have hmem : r ∈ t.relations.entries.map Prod.snd :=
      List.mem_map.2 ⟨(r.id, r), SortedMap.get_eq_some.1 hr, rfl⟩
    obtain ⟨key, -, hkey⟩ := forall₂_exists_of_mem (mapM_ok_forall₂ hexpected) hmem
    unfold requireUsage at hkey
    by_cases hbad : r.provisionalReferenceCount ≠ usage.provisional r.id ∨
        r.confirmedEdgeCount ≠ confirmed r.id
    · simp only [if_pos hbad] at hkey
      cases hkey
    · rw [not_or, not_not, not_not] at hbad
      exact hbad
  refine ⟨fun e he => ?_, hresolves, fun id c count hget hstoredCount => ?_, fun r hr => ?_,
    fun r hr => ?_⟩
  · obtain ⟨_, hsource, hrest⟩ := bind_eq_ok.1 (hedges e he)
    obtain ⟨_, hdestination, hrelation⟩ := bind_eq_ok.1 hrest
    rw [mapErr_eq_ok, h.requireNode_eq, map_eq_ok] at hsource hdestination
    rw [mapErr_eq_ok, h.requireRelationKind_eq, map_eq_ok] at hrelation
    obtain ⟨source, hsource, -⟩ := hsource
    obtain ⟨destination, hdestination, -⟩ := hdestination
    obtain ⟨relation, hrelation, -⟩ := hrelation
    exact ⟨⟨source, okOr_eq_ok.1 hsource⟩, ⟨destination, okOr_eq_ok.1 hdestination⟩, relation,
      okOr_eq_ok.1 hrelation⟩
  · -- only nodes and relation kinds store a count of references
    have hturn := forM_ok_mem hincoming
      (List.mem_map.2 ⟨(id, c), SortedMap.get_eq_some.1 hget, rfl⟩)
    have hid := h.candidates.id_eq id c hget
    rw [← hrefers id]
    rcases c with ⟨id', name, payload, stored⟩ | ⟨id', name, stored⟩ | _
    · obtain rfl : id' = id := hid
      simp only [requireIncoming] at hturn
      split_ifs at hturn with heq
      cases hstoredCount
      rw [heq]
    · obtain rfl : id' = id := hid
      simp only [requireIncoming] at hturn
      split_ifs at hturn with heq
      cases hstoredCount
      rw [heq]
    · cases hstoredCount
  · rw [(hstored r hr).1, huses]
  · rw [(hstored r hr).2, hcount]

lemma requireUsage_eq_ok {provisional confirmed : RelationId → U64} {r : RelationRecord}
    {key : Bytes} (h : requireUsage provisional confirmed r = .ok key) : popularityBytes r = key := by
  unfold requireUsage at h
  by_cases hbad : r.provisionalReferenceCount ≠ provisional r.id ∨
      r.confirmedEdgeCount ≠ confirmed r.id
  · simp only [if_pos hbad] at h
    cases h
  simp only [if_neg hbad] at h
  replace h := mapErr_eq_ok.1 h
  rcases htotal : r.totalReferenceCount with _ | total
  · simp only [encodePopularityKey, htotal] at h
    cases h
  · simp only [encodePopularityKey, htotal] at h
    cases h
    simp only [popularityBytes, htotal, Option.getD_some]

/-- The popularity family is the index of the relation kinds when the usage is accepted. -/
lemma popularity_of_validate {tab : SortedMap RelationId RelationRecord}
    (hstored : Stored (db .relationKinds) tab RelationRecord.id relationBytes decodeRelation)
    (husage : validateRelationUsageAndCandidateDependencies db = .ok ()) :
    Indexes (db .relationPopularity) (fun r : RelationRecord => tab.get r.id = some r)
      popularityBytes fun r => encodeU64Record r.id.asU64 := by
  obtain ⟨candidates, -, husage⟩ := bind_eq_ok.1 husage
  obtain ⟨usage, -, husage⟩ := bind_eq_ok.1 husage
  obtain ⟨_, -, husage⟩ := bind_eq_ok.1 husage
  obtain ⟨edges, -, husage⟩ := bind_eq_ok.1 husage
  obtain ⟨confirmed, -, husage⟩ := bind_eq_ok.1 husage
  obtain ⟨relations, hrelations, husage⟩ := bind_eq_ok.1 husage
  obtain ⟨expected, hexpected, husage⟩ := bind_eq_ok.1 husage
  obtain ⟨actual, hactual, hsame⟩ := bind_eq_ok.1 husage
  obtain rfl : relations = tab.entries.map Prod.snd :=
    Except.ok.inj (hrelations.symm.trans hstored.allRecords_eq)
  have hkeys := (mapM_ok_forall₂ hexpected).imp fun _ _ hkey => requireUsage_eq_ok hkey
  split_ifs at hsame with hsets
  refine requirePopularity_sound hactual fun key => ?_
  constructor
  · intro hmem
    obtain ⟨r, hr, rfl⟩ := forall₂_exists_of_mem hkeys.flip (hsets.1 key hmem)
    obtain ⟨e, he, rfl⟩ := List.mem_map.1 hr
    exact ⟨e.2, hstored.has (SortedMap.get_of_mem he), rfl⟩
  · rintro ⟨r, hr, rfl⟩
    obtain ⟨key, hkey, rfl⟩ := forall₂_exists_of_mem hkeys
      (List.mem_map.2 ⟨(r.id, r), SortedMap.get_eq_some.1 hr, rfl⟩)
    exact hsets.2 _ hkey

/-- The adjacency families are the projections of the edges when they are accepted. -/
lemma adjacency_of_validate
    (hstored : Stored (db .edges) t.edges EdgeRecord.id encodeEdge decodeEdge)
    (h : validateEdgesAndAdjacency db = .ok ()) :
    (∀ e, t.HasEdge e → requireEdgeReferences db e = .ok ()) ∧
    Indexes (db .outgoingEdges) t.HasEdge (fun e => encodeAdjacencyKey e.source e.id)
      (fun e => encodeAdjacencyValue e.id) ∧
    Indexes (db .incomingEdges) t.HasEdge (fun e => encodeAdjacencyKey e.destination e.id)
      fun e => encodeAdjacencyValue e.id := by
  have hall : allEdges db = .ok (t.edges.entries.map Prod.snd) := hstored.allRecords_eq
  simp only [validateEdgesAndAdjacency, hall, foldl_update_eq_get t.edges hstored.id_eq,
    ok_bind] at h
  obtain ⟨_, hrefs, h⟩ := bind_eq_ok.1 h
  obtain ⟨outgoing, houtgoing, h⟩ := bind_eq_ok.1 h
  obtain ⟨incoming, hincoming, honce⟩ := bind_eq_ok.1 h
  have hmem : ∀ e, t.HasEdge e → e ∈ t.edges.entries.map Prod.snd := fun e he =>
    List.mem_map.2 ⟨(e.id, e), SortedMap.get_eq_some.1 he, rfl⟩
  have hcounts : ∀ e, t.HasEdge e → outgoing e.id = 1 ∧ incoming e.id = 1 := by
    intro e he
    have hturn := forM_ok_mem honce (hmem e he)
    unfold requireIndexedOnce at hturn
    by_cases hout : outgoing e.id = 1
    · by_cases hin : incoming e.id = 1
      · exact ⟨hout, hin⟩
      · simp only [ne_eq, hout, not_true_eq_false, if_false, hin, not_false_eq_true,
          if_true] at hturn
        cases hturn
    · simp only [ne_eq, hout, not_false_eq_true, if_true] at hturn
      cases hturn
  refine ⟨fun e he => forM_ok_mem hrefs (hmem e he), ?_, ?_⟩
  · exact validateAdjacencyFamily_sound houtgoing hstored.id_eq fun e he => (hcounts e he).1
  · exact validateAdjacencyFamily_sound hincoming hstored.id_eq fun e he => (hcounts e he).2

/-- What is accepted is well formed, with counters from one on. -/
lemma Accepts.wellFormed (h : Accepts db) :
    ∃ t, WellFormed db t ∧ ∀ k, 1 ≤ (t.counter k).val := by
  obtain ⟨hmetadata, maps, hrebuild⟩ := h
  obtain ⟨metadata, hmetadataOf, hpointer⟩ := validateMetadataRecords_sound hmetadata
  obtain ⟨_, hcandidates, hrebuild⟩ := bind_eq_ok.1 hrebuild
  obtain ⟨nodeMap, hnodes, hrebuild⟩ := bind_eq_ok.1 hrebuild
  obtain ⟨relationMap, hrelations, hrebuild⟩ := bind_eq_ok.1 hrebuild
  obtain ⟨_, hadjacency, hrebuild⟩ := bind_eq_ok.1 hrebuild
  obtain ⟨_, husage, hrebuild⟩ := bind_eq_ok.1 hrebuild
  obtain ⟨_, hcounters, -⟩ := bind_eq_ok.1 hrebuild
  -- the tables behind the families
  obtain ⟨cs, hcs, -⟩ := bind_eq_ok.1 hcandidates
  obtain ⟨rs, hrs⟩ := allRecords_of_rebuildIndex hnodes
  obtain ⟨ks, hks⟩ := allRecords_of_rebuildIndex hrelations
  obtain ⟨es, hes, -⟩ := bind_eq_ok.1 hadjacency
  obtain ⟨candidates, hstoredCandidates⟩ := stored_of_allRecords canonical_candidate hcs
  obtain ⟨nodes, hstoredNodes⟩ := stored_of_allRecords canonical_node hrs
  obtain ⟨relations, hstoredRelations⟩ := stored_of_allRecords canonical_relation hks
  obtain ⟨edges, hstoredEdges⟩ := stored_of_allRecords canonical_edge hes
  let t : Tables := ⟨candidates, nodes, relations, edges, metadata⟩
  obtain ⟨hnodeNames, hnodeInj⟩ := rebuildIndex_sound hstoredNodes hnodes
  obtain ⟨hrelationNames, hrelationInj⟩ := rebuildIndex_sound hstoredRelations hrelations
  obtain ⟨hrefs, houtgoing, hincoming⟩ := adjacency_of_validate (t := t) hstoredEdges hadjacency
  have hrepresents : Represents db t :=
    ⟨hstoredCandidates, hstoredNodes, hnodeNames, hstoredRelations, hrelationNames,
      popularity_of_validate hstoredRelations husage, hstoredEdges, houtgoing, hincoming,
      hmetadataOf⟩
  have hwritable : t.Writable :=
    ⟨fun id c hget => (decodeCandidate_eq_ok (hstoredCandidates.decodes id c hget)).2.2,
      fun r hr => (decodeNode_eq_ok (hstoredNodes.decodes _ r hr)).2.2,
      fun r hr => (decodeRelation_eq_ok (hstoredRelations.decodes _ r hr)).2.2, hnodeInj,
      hrelationInj⟩
  have hcounter : ∀ counter, counter ∈ [(META_NEXT_CANDIDATE_ID, "next-candidate-id",
      ColumnFamily.candidates), (META_NEXT_NODE_ID, "next-node-id", .nodes),
      (META_NEXT_RELATION_ID, "next-relation-id", .relationKinds),
      (META_NEXT_EDGE_ID, "next-edge-id", .edges)] → validateNextIdCounter db counter = .ok () :=
    fun _ hmem => forM_ok_mem hcounters hmem
  have hcandidate := validateNextIdCounter_sound hrepresents hstoredCandidates .nextCandidate rfl
    (hcounter (META_NEXT_CANDIDATE_ID, "next-candidate-id", .candidates) (by simp))
  have hnode := validateNextIdCounter_sound hrepresents hstoredNodes .nextNode rfl
    (hcounter (META_NEXT_NODE_ID, "next-node-id", .nodes) (by simp))
  have hrelation := validateNextIdCounter_sound hrepresents hstoredRelations .nextRelation rfl
    (hcounter (META_NEXT_RELATION_ID, "next-relation-id", .relationKinds) (by simp))
  have hedge := validateNextIdCounter_sound hrepresents hstoredEdges .nextEdge rfl
    (hcounter (META_NEXT_EDGE_ID, "next-edge-id", .edges) (by simp))
  refine ⟨t, ⟨hrepresents, hwritable, consistent_of_validate hrepresents hrefs husage,
    fun k id hid => ?_, hpointer⟩, fun k => ?_⟩
  · cases k with
    | candidate =>
      obtain ⟨c, hget⟩ := hid
      exact hcandidate.2 id c hget
    | node =>
      obtain ⟨r, hget⟩ := hid
      exact hnode.2 id r hget
    | relation =>
      obtain ⟨r, hget⟩ := hid
      exact hrelation.2 id r hget
    | edge =>
      obtain ⟨e, hget⟩ := hid
      exact hedge.2 id e hget
  · cases k with
    | candidate => exact hcandidate.1
    | node => exact hnode.1
    | relation => exact hrelation.1
    | edge => exact hedge.1

/-- The validator accepts the contents of a database, whatever they are, exactly when they are well
formed and every counter is at least one. -/
theorem accepts_iff_wellFormed (db : Database) :
    Accepts db ↔ ∃ t, WellFormed db t ∧ ∀ k, 1 ≤ (t.counter k).val := by
  constructor
  · exact fun h => h.wellFormed
  · rintro ⟨t, h, hpositive⟩
    exact h.accepts hpositive

/-- The counter of edges is zero in an otherwise fresh database. -/
def Database.zeroCounter : Database :=
  Database.fresh.write [.put .default META_NEXT_EDGE_ID (encodeU64Record 0)]

/-- A database without edges whose counter of edges is zero is well formed but not accepted. -/
theorem wellFormed_zeroCounter : (∃ t, WellFormed .zeroCounter t) ∧ ¬ Accepts .zeroCounter := by
  let t : Tables :=
    { Tables.fresh with metadata := { Tables.fresh.metadata with nextEdge := 0 } }
  have hrepresents : Represents .zeroCounter t :=
    fresh_inv.represents.putMetadata .nextEdge (encodeU64Record 0) fun key => by cases key <;> rfl
  have hconsistent : t.Consistent :=
    ⟨fun _ h => (by cases h), fun _ _ h => (by cases h), fun _ _ _ h => (by cases h),
      fun _ h => (by cases h), fun _ h => (by cases h)⟩
  refine ⟨⟨t, hrepresents, { fresh_inv.writable with }, hconsistent, fun k id hid => ?_,
    fun p hp => by cases hp⟩, ?_⟩
  · cases k <;> obtain ⟨_, h⟩ := hid <;> cases h
  · rintro ⟨-, maps, hmaps⟩
    have hreject : rebuildIndexesAndValidate .zeroCounter =
        .error (corrupt "default" "next-edge-id" "next ID must be at least 1") := rfl
    rw [hreject] at hmaps
    cases hmaps

end PathHydra
