import PathHydra.Properties.Store.Graph
import PathHydra.Properties.Store.Identity

/-!
# Provisional data beside the confirmed graph

Inserting candidates rewrites relation-kind records and popularity keys, which the confirmed side
owns too.  What an insertion changes is read off the tables before and after it
(`Tables.inserted`), family by family: the confirmed graph is untouched, so the compiled image is
the same.
-/

namespace PathHydra

/-- How often an entry of a batch refers to a confirmed relation kind. -/
def CandidateBatchEntry.references (relation : RelationId) : CandidateBatchEntry → ℕ
  | .edge _ _ (.confirmed id) _ => if id = relation then 1 else 0
  | _ => 0

/-- How often the entries of a batch refer to a confirmed relation kind. -/
def references (entries : List CandidateBatchEntry) (relation : RelationId) : ℕ :=
  (entries.map (CandidateBatchEntry.references relation)).sum

variable {c c' : Catalog} {t t' : Tables} {entries : List CandidateBatchEntry}
  {result : CandidateBatchInsertResult} {plan : InsertPlan} {cs : List Candidate}
  {changes : List RelationChange} {following : U64} {ids : ℕ → CandidateId}

/-! ## Families of equal tables -/

section Families

variable {k : IdKind} {R : Type} {m m' : SortedMap Bytes Bytes} {tab tab' : SortedMap (DurableId k) R}
  {idOf : R → DurableId k} {val : R → Bytes} {decode : Bytes → U64 → Except CodecError R}

/-- A family holds the same under a key when the tables agree on the identifier of the key. -/
lemma Stored.get_eq (h : Stored m tab idOf val decode) (h' : Stored m' tab' idOf val decode)
    {key : Bytes} (hid : ∀ id : DurableId k, key = encodeIdKey id.asU64 → tab'.get id = tab.get id) :
    m'.get key = m.get key := by
  by_cases hkey : ∃ id : DurableId k, key = encodeIdKey id.asU64
  · obtain ⟨id, rfl⟩ := hkey
    rw [h.get_key, h'.get_key, hid id rfl]
  · have hother : ∀ r : R, encodeIdKey (idOf r).asU64 ≠ key := fun r heq => hkey ⟨idOf r, heq.symm⟩
    rw [h.indexes.get_eq_none fun r _ => hother r, h'.indexes.get_eq_none fun r _ => hother r]

end Families

/-! ## What the drafts refer to -/

namespace Insertion

/-- The drafts use a relation kind as often as the entries refer to it. -/
lemma uses_eq (h : Insertion t entries ids plan cs changes) (id : RelationId) :
    (plan.candidates.map (Candidate.uses id)).sum = references entries id := by
  unfold references
  congr 1
  refine List.ext_getElem? fun i => ?_
  rw [List.getElem?_map, List.getElem?_map]
  rcases hdraft : plan.candidates[i]? with _ | draft
  · have hlength : entries.length ≤ i := by
      rw [← h.length_candidates]
      exact List.getElem?_eq_none_iff.1 hdraft
    rw [List.getElem?_eq_none_iff.2 hlength]
    rfl
  · have hentry := h.planned.drafts i draft hdraft
    rcases draft with _ | _ | ⟨id', source, destination, relationKind, baseWeight⟩
    · rw [hentry.2]
      rfl
    · rw [hentry.2]
      rfl
    · obtain ⟨-, ⟨source', destination', relationKind', hget, hiff⟩, -⟩ := hentry
      rw [hget]
      refine congrArg some ?_
      cases relationKind' with
      | confirmed relation =>
        rw [(hiff relation).1 rfl]
        simp [Candidate.uses, CandidateBatchEntry.references]
      | batchRelationKind index =>
        have hne : relationKind ≠ .confirmed id := fun heq => by cases (hiff id).2 heq
        simp [Candidate.uses, CandidateBatchEntry.references, hne]

end Insertion

/-! ## What an insertion changes -/

namespace Inserts

/-- A stored relation kind keeps its name and its confirmed edges, and has the references of the
batch added. -/
lemma relation_after (h : Inserts c t entries result c' plan cs changes following)
    (inv : CatalogInv c t) {id : RelationId} {r : RelationRecord}
    (hr : t.relations.get id = some r) :
    ∃ r', (t.inserted cs changes following).relations.get id = some r' ∧ r'.id = r.id ∧
      r'.name = r.name ∧ r'.confirmedEdgeCount = r.confirmedEdgeCount ∧
      r'.provisionalReferenceCount.val =
        r.provisionalReferenceCount.val + references entries id := by
  obtain ⟨r', hr'⟩ := h.insertion.relation_kept inv.represents hr
  have hid' : r'.id = id := h.inv.represents.relations.id_eq id r' hr'
  have hid : r.id = id := inv.represents.relations.id_eq id r hr
  have hhas : (t.changeRelations changes).HasRelation r' := by
    rw [Tables.HasRelation, hid']
    exact hr'
  obtain ⟨old, hold, holdId, hname, hprovisional, hconfirmed⟩ :=
    h.insertion.relation_cases inv.represents hhas
  obtain rfl : old = r := by
    rw [Tables.HasRelation, ← holdId, hid', hr] at hold
    exact (Option.some.inj hold).symm
  refine ⟨r', hr', hid'.trans hid.symm, hname, hconfirmed, ?_⟩
  rw [hprovisional, h.insertion.uses_eq, hid']

/-- No relation kind is added. -/
lemma relation_before (h : Inserts c t entries result c' plan cs changes following)
    (inv : CatalogInv c t) {id : RelationId} {r' : RelationRecord}
    (hr' : (t.inserted cs changes following).relations.get id = some r') :
    ∃ r, t.relations.get id = some r :=
  ((h.sameGraph inv).relation_iff id).1 ⟨r', hr'⟩

/-- A relation kind the batch does not refer to is as before. -/
lemma relation_unreferenced (h : Inserts c t entries result c' plan cs changes following)
    (inv : CatalogInv c t) {id : RelationId} (hnone : references entries id = 0) :
    (t.inserted cs changes following).relations.get id = t.relations.get id := by
  rcases hget : t.relations.get id with _ | r
  · rcases hget' : (t.inserted cs changes following).relations.get id with _ | r'
    · rfl
    · obtain ⟨r, hr⟩ := h.relation_before inv hget'
      exact absurd (hget.symm.trans hr) (by simp)
  · obtain ⟨r', hr', hid, hname, hconfirmed, hprovisional⟩ := h.relation_after inv hget
    rw [hr']
    rw [hnone, Nat.add_zero] at hprovisional
    obtain ⟨id', name', provisional', confirmed'⟩ := r'
    obtain ⟨id₀, name₀, provisional₀, confirmed₀⟩ := r
    simp only at hid hname hconfirmed hprovisional
    rw [hid, hname, hconfirmed, Fin.ext hprovisional]

/-- What the batch refers to is stored. -/
lemma referenced (h : Inserts c t entries result c' plan cs changes following)
    {id : RelationId} (hpos : 0 < references entries id) : ∃ r, t.relations.get id = some r := by
  have hprovisional := h.insertion.planned.provisional id
  rw [h.insertion.uses_eq] at hprovisional
  rcases hget : plan.provisionalByRelation.get id with _ | delta
  · rw [hget] at hprovisional
    simp at hprovisional
    omega
  · exact h.insertion.planned.known id delta hget

/-- The families of the confirmed graph hold the same entries. -/
lemma family_eq (h : Inserts c t entries result c' plan cs changes following)
    (inv : CatalogInv c t) {family : ColumnFamily}
    (hfamily : family ∉ [.default, .candidates, .relationKinds, .relationPopularity]) :
    c'.db family = c.db family := by
  have hdb := inv.represents
  have hdb' := h.inv.represents
  cases family with
  | default => simp at hfamily
  | candidates => simp at hfamily
  | relationKinds => simp at hfamily
  | relationPopularity => simp at hfamily
  | nodes => exact hdb.nodes.indexes.unique hdb'.nodes.indexes
  | nodeNames => exact hdb.nodeNames.unique hdb'.nodeNames
  | edges => exact hdb.edges.indexes.unique hdb'.edges.indexes
  | outgoingEdges => exact hdb.outgoing.unique hdb'.outgoing
  | incomingEdges => exact hdb.incoming.unique hdb'.incoming
  | relationNames =>
    refine hdb.relationNames.unique fun key value => (hdb'.relationNames key value).trans ?_
    constructor
    · rintro ⟨r', hr', rfl, rfl⟩
      obtain ⟨r, hr⟩ := h.relation_before inv hr'
      obtain ⟨r₁, hr₁, hid, hname, -⟩ := h.relation_after inv hr
      obtain rfl : r₁ = r' := Option.some.inj (hr₁.symm.trans hr')
      exact ⟨r, hdb.relations.has hr, by simp only [hname], by simp only [hid]⟩
    · rintro ⟨r, hr, rfl, rfl⟩
      obtain ⟨r', hr', hid, hname, -⟩ := h.relation_after inv hr
      exact ⟨r', hdb'.relations.has hr', by simp only [hname], by simp only [hid]⟩

/-- Of the metadata only the counter of candidates changes. -/
lemma metadata_eq (h : Inserts c t entries result c' plan cs changes following)
    (inv : CatalogInv c t) {key : Bytes} (hkey : key ≠ META_NEXT_CANDIDATE_ID) :
    (c'.db .default).get key = (c.db .default).get key := by
  have hmetadata := inv.represents.metadata
  have hmetadata' := h.inv.represents.metadata
  by_cases hknown : ∃ known : MetadataKey, key = known.bytes
  · obtain ⟨known, rfl⟩ := hknown
    rw [hmetadata.get, hmetadata'.get]
    cases known with
    | nextCandidate => exact absurd rfl hkey
    | nextNode => rfl
    | nextRelation => rfl
    | nextEdge => rfl
    | pointer => rfl
  · have hnone : ∀ {m : SortedMap Bytes Bytes} {d : Metadata}, MetadataOf m d →
        m.get key = none := by
      intro m d hm
      rcases hget : m.get key with _ | value
      · rfl
      · exact absurd (hm.known _ (SortedMap.get_eq_some.1 hget)) hknown
    rw [hnone hmetadata, hnone hmetadata']

lemma mem_candidateIds (h : Inserts c t entries result c' plan cs changes following)
    {candidate : Candidate} (hmem : candidate ∈ cs) : candidate.id ∈ result.candidateIds := by
  obtain ⟨i, -, hi, -, -, hid⟩ := h.insertion.of_mem hmem
  rw [h.result_eq, hid]
  exact List.mem_map_of_mem (List.mem_range.2 hi)

/-- The candidates of before are as they were. -/
lemma candidates_eq (h : Inserts c t entries result c' plan cs changes following)
    (inv : CatalogInv c t) {key : Bytes}
    (hkey : ∀ id ∈ result.candidateIds, key ≠ encodeIdKey id.asU64) :
    (c'.db .candidates).get key = (c.db .candidates).get key := by
  refine inv.represents.candidates.get_eq h.inv.represents.candidates fun id hid => ?_
  refine Option.ext fun candidate => h.insertion.get_candidate.trans ⟨fun hcases => ?_, .inl⟩
  rcases hcases with hold | ⟨hnew, rfl⟩
  · exact hold
  · exact absurd hid (hkey _ (h.mem_candidateIds hnew))

/-- The records of the relation kinds the batch does not refer to are as they were. -/
lemma relationKinds_eq (h : Inserts c t entries result c' plan cs changes following)
    (inv : CatalogInv c t) {key : Bytes}
    (hkey : ∀ id, 0 < references entries id → key ≠ encodeIdKey id.asU64) :
    (c'.db .relationKinds).get key = (c.db .relationKinds).get key := by
  refine inv.represents.relations.get_eq h.inv.represents.relations fun id hid => ?_
  refine h.relation_unreferenced inv (Nat.eq_zero_of_not_pos fun hpos => ?_)
  exact hkey id hpos hid

/-- So are their popularity keys. -/
lemma popularity_eq (h : Inserts c t entries result c' plan cs changes following)
    (inv : CatalogInv c t) {key : Bytes}
    (hkey : ∀ id r, 0 < references entries id →
      getRelationFromDb c.db id = .ok r ∨ getRelationFromDb c'.db id = .ok r →
      encodePopularityKey r ≠ .ok key) :
    (c'.db .relationPopularity).get key = (c.db .relationPopularity).get key := by
  have hdb := inv.represents
  have hdb' := h.inv.represents
  -- a relation kind with this key is not one the batch refers to
  have hother : ∀ r : RelationRecord, popularityBytes r = key → r.Fits →
      t.HasRelation r ∨ (t.inserted cs changes following).HasRelation r →
      (t.inserted cs changes following).relations.get r.id = t.relations.get r.id := by
    intro r hbytes hfits hhas
    refine h.relation_unreferenced inv (Nat.eq_zero_of_not_pos fun hpos => ?_)
    refine hkey r.id r hpos ?_ ?_
    · rw [hdb.getRelation_eq, hdb'.getRelation_eq, okOr_eq_ok, okOr_eq_ok]
      exact hhas
    · rw [encodePopularityKey_eq hfits.usage, hbytes]
  refine Option.ext fun value => (hdb'.popularity key value).trans (Iff.trans ?_
    (hdb.popularity key value).symm)
  constructor
  · rintro ⟨r, hr, hbytes, hvalue⟩
    have hsame := hother r hbytes (h.inv.writable.relation r hr) (.inr hr)
    exact ⟨r, hsame.symm.trans hr, hbytes, hvalue⟩
  · rintro ⟨r, hr, hbytes, hvalue⟩
    have hsame := hother r hbytes (inv.writable.relation r hr) (.inl hr)
    exact ⟨r, hsame.trans hr, hbytes, hvalue⟩

end Inserts

/-! ## The frame of an insertion -/

/-- Whatever calls were made on a freshly initialised catalog, when candidates are inserted then:
the families of the confirmed graph, the exact-name maps and all metadata but the counter of
candidates are as before; the counter is moved on by the number of entries; the only other changes
are the new candidates, and for each relation kind the batch refers to the provisional references
of its record, by exactly the number of references, with its popularity key.  So the image compiled
from the confirmed graph is the same. -/
theorem insertCandidateBatch_frame {c₀ c c' : Catalog} {disk : WriteAnswer}
    {actions : List (CatalogCall × WriteAnswer)}
    {outs : List (CatalogCall × Except CatalogError CallResult)}
    {entries : List CandidateBatchEntry} {result : CandidateBatchInsertResult}
    (hopen : openCatalog .written Database.empty = .ok c₀)
    (hrun : catalogMachine.run c₀ actions = some (c, outs))
    (hinsert : insertCandidateBatch disk entries c = .ok result c') :
    (∀ family, family ∉ [.default, .candidates, .relationKinds, .relationPopularity] →
      c'.db family = c.db family) ∧
    (c'.nodeNames = c.nodeNames ∧ c'.relationNames = c.relationNames) ∧
    (∀ key, key ≠ META_NEXT_CANDIDATE_ID → (c'.db .default).get key = (c.db .default).get key) ∧
    (∃ n n', c.nextId .candidate = .ok n ∧ c'.nextId .candidate = .ok n' ∧
      n'.val = n.val + entries.length) ∧
    (∀ key, (∀ id ∈ result.candidateIds, key ≠ encodeIdKey id.asU64) →
      (c'.db .candidates).get key = (c.db .candidates).get key) ∧
    (∀ id ∈ result.candidateIds, c.Allocates c' id) ∧
    (∀ id r, getRelationFromDb c.db id = .ok r → ∃ r', getRelationFromDb c'.db id = .ok r' ∧
      r'.id = r.id ∧ r'.name = r.name ∧ r'.confirmedEdgeCount = r.confirmedEdgeCount ∧
      r'.provisionalReferenceCount.val =
        r.provisionalReferenceCount.val + references entries id) ∧
    (∀ id, 0 < references entries id → c.Holds id) ∧
    (∀ key, (∀ id, 0 < references entries id → key ≠ encodeIdKey id.asU64) →
      (c'.db .relationKinds).get key = (c.db .relationKinds).get key) ∧
    (∀ key, (∀ id r, 0 < references entries id →
        getRelationFromDb c.db id = .ok r ∨ getRelationFromDb c'.db id = .ok r →
        encodePopularityKey r ≠ .ok key) →
      (c'.db .relationPopularity).get key = (c.db .relationPopularity).get key) ∧
    ∃ records records', confirmedGraphRecords c.db = .ok records ∧
      confirmedGraphRecords c'.db = .ok records' ∧
      compileRoutingImage records' = compileRoutingImage records := by
  obtain rfl : c₀ = .fresh := Except.ok.inj (hopen.symm.trans openCatalog_empty)
  obtain ⟨t, inv, -⟩ := catalogMachine_evolves fresh_inv hrun
  obtain ⟨plan, cs, changes, following, h⟩ :=
    (insertCandidateBatch_ensures inv disk entries).of_ok hinsert
  refine ⟨fun family => h.family_eq inv, ?_, fun key => h.metadata_eq inv, ?_,
    fun key => h.candidates_eq inv, (h.allocates inv).2, fun id r hr => ?_, fun id hpos => ?_,
    fun key => h.relationKinds_eq inv, fun key => h.popularity_eq inv, t.graph,
    (t.inserted cs changes following).graph, inv.represents.confirmedGraphRecords_eq,
    h.inv.represents.confirmedGraphRecords_eq, ?_⟩
  · refine ⟨inv.nodeNames.unique h.inv.nodeNames, ?_⟩
    exact (h.insertion.relationNames inv.represents inv.relationNames).unique h.inv.relationNames
  · exact ⟨_, _, inv.nextId_eq .candidate, h.inv.nextId_eq .candidate, h.following_eq.symm⟩
  · rw [inv.represents.getRelation_eq, okOr_eq_ok] at hr
    obtain ⟨r', hr', hrest⟩ := h.relation_after inv hr
    refine ⟨r', ?_, hrest⟩
    rw [h.inv.represents.getRelation_eq, hr', okOr_some]
  · exact (inv.holds_iff id).2 (h.referenced hpos)
  · exact (h.sameGraph inv).compile_eq inv.represents h.inv.represents none

/-- Two more edges of the same relation kind. -/
def loopEntries : List CandidateBatchEntry :=
  [.edge (.confirmed ⟨1⟩) (.confirmed ⟨1⟩) (.confirmed ⟨1⟩) ⟨0, BaseWeight.zeroBits_le⟩,
    .edge (.confirmed ⟨1⟩) (.confirmed ⟨1⟩) (.confirmed ⟨1⟩) ⟨1, BaseWeight.leastBits_le⟩]

/-- The relation kind of a confirmed edge gets two provisional references more. -/
theorem insertCandidateBatch_frame_loop : ∃ c outs c' result,
    catalogMachine.run .fresh loopCalls = some (c, outs) ∧
    insertCandidateBatch .written loopEntries c = .ok result c' ∧
    references loopEntries ⟨1⟩ = 2 ∧ c'.db .edges = c.db .edges := by
  obtain ⟨c, outs, hrun⟩ := catalogMachine_run_total .fresh loopCalls
  have hids : (catalogMachine.run .fresh loopCalls).map (fun s =>
      ((insertCandidateBatch .written loopEntries).run' s.1).map
        CandidateBatchInsertResult.candidateIds) = some (some [⟨4⟩, ⟨5⟩]) := by
    decide +kernel
  rw [hrun, Option.map_some, Option.some.injEq] at hids
  rcases hinsert : insertCandidateBatch .written loopEntries c with ⟨result, c'⟩ | ⟨e, c'⟩
  · refine ⟨c, outs, c', result, hrun, hinsert, rfl, ?_⟩
    exact (insertCandidateBatch_frame openCatalog_empty hrun hinsert).1 .edges (by decide)
  · simp [run'_eq_none hinsert] at hids

end PathHydra
