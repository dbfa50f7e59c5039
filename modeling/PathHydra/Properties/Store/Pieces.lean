import PathHydra.Properties.Store.Simulation

/-!
# Confirming a batch piece by piece

A batch of two pieces, each closed under dependencies, plans all records before all edges and writes
once; confirming the pieces in sequence writes the first one before the second is planned.  The two
ways are compared loop by loop (`BatchRun`).  They reach the same tables, and with them the same
catalog.
-/

namespace PathHydra

variable {c : Catalog} {t : Tables}

/-! ## The two pieces of a batch -/

/-- The planning of a batch of two closed pieces: the records of both, then the edges of both. -/
structure BatchRun (c : Catalog) (t : Tables) (cs₁ cs₂ : List Candidate)
    (pA pB pC pD : ConfirmPlan) : Prop where
  inv : CatalogInv c t
  closed₁ : Closed t cs₁
  closed₂ : Closed t cs₂
  disjoint : ∀ id ∈ cs₁.map Candidate.id, id ∉ cs₂.map Candidate.id
  records₁ : cs₁.zipIdx.foldlM (planRecord c)
    (.new t.metadata.nextNode t.metadata.nextRelation t.metadata.nextEdge) = .ok pA
  records₂ : (cs₂.zipIdx cs₁.length).foldlM (planRecord c) pA = .ok pB
  edges₁ : cs₁.zipIdx.foldlM (planEdge c.db) pB = .ok pC
  edges₂ : (cs₂.zipIdx cs₁.length).foldlM (planEdge c.db) pC = .ok pD

namespace BatchRun

variable {cs₁ cs₂ : List Candidate} {pA pB pC pD : ConfirmPlan}

lemma fits (h : BatchRun c t cs₁ cs₂ pA pB pC pD) : ∀ candidate ∈ cs₁ ++ cs₂, candidate.Fits := by
  intro candidate hmem
  rcases List.mem_append.1 hmem with hmem | hmem
  · exact h.inv.writable.candidate _ _ (h.closed₁.has candidate hmem)
  · exact h.inv.writable.candidate _ _ (h.closed₂.has candidate hmem)

lemma resolved₁ (h : BatchRun c t cs₁ cs₂ pA pB pC pD) : RecordsResolved c t cs₁ pA :=
  (planRecords_ensures h.inv (fun candidate hmem => h.fits candidate (List.mem_append_left _ hmem))
    (RecordsResolved.new c t)).of_ok h.records₁

lemma resolved₂ (h : BatchRun c t cs₁ cs₂ pA pB pC pD) : RecordsResolved c t (cs₁ ++ cs₂) pB := by
  refine (planRecords_ensures h.inv h.fits (RecordsResolved.new c t)).of_ok ?_
  rw [List.zipIdx_append, List.foldlM_append, h.records₁, ok_bind, Nat.zero_add]
  exact h.records₂

/-- The positions of the second piece come after those of the first. -/
lemma position₂ {indexed : Candidate × ℕ} (h : indexed ∈ cs₂.zipIdx cs₁.length) :
    indexed.1 ∈ cs₂ ∧ cs₁.length ≤ indexed.2 :=
  ⟨List.fst_mem_of_mem_zipIdx h, List.le_snd_of_mem_zipIdx h⟩

lemma position₁ {indexed : Candidate × ℕ} (h : indexed ∈ cs₁.zipIdx) :
    indexed.1 ∈ cs₁ ∧ indexed.2 < cs₁.length :=
  ⟨List.fst_mem_of_mem_zipIdx h, by simpa using List.snd_lt_add_of_mem_zipIdx h⟩

/-- The records of the second piece leave the resolution of the first. -/
lemma sameResolution₁ (h : BatchRun c t cs₁ cs₂ pA pB pC pD) : SameResolution cs₁ pB pA := by
  have hother : ∀ candidate ∈ cs₁, ∀ indexed ∈ cs₂.zipIdx cs₁.length,
      candidate.id ≠ indexed.1.id := by
    intro candidate hmem indexed hindexed heq
    refine h.disjoint candidate.id (List.mem_map_of_mem hmem) ?_
    rw [heq]
    exact List.mem_map_of_mem (position₂ hindexed).1
  constructor
  · intro candidate hmem _
    refine congrArg (Option.map NodeRecord.id) (foldlM_preserves
      (P := fun p => p.resolvedNodes candidate.id = pA.resolvedNodes candidate.id)
      (fun indexed hindexed p p' hturn hp => ?_) h.records₂ rfl)
    exact ((planRecord_extends hturn).nodes _ (hother candidate hmem indexed hindexed)).trans hp
  · intro candidate hmem _
    refine congrArg (Option.map RelationRecord.id) (foldlM_preserves
      (P := fun p => p.resolvedRelations candidate.id = pA.resolvedRelations candidate.id)
      (fun indexed hindexed p p' hturn hp => ?_) h.records₂ rfl)
    exact ((planRecord_extends hturn).relations _ (hother candidate hmem indexed hindexed)).trans hp

/-- The first piece resolves no candidate of the second. -/
lemma unresolved₂ (h : BatchRun c t cs₁ cs₂ pA pB pC pD) :
    ∀ id ∈ cs₂.map Candidate.id, pA.resolvedNodes id = none ∧ pA.resolvedRelations id = none := by
  intro id hid
  refine foldlM_preserves (P := fun p => p.resolvedNodes id = none ∧ p.resolvedRelations id = none)
    (fun indexed hindexed p p' hturn hp => ?_) h.records₁ ⟨rfl, rfl⟩
  have hne : id ≠ indexed.1.id := by
    rintro rfl
    exact h.disjoint _ (List.mem_map_of_mem (position₁ hindexed).1) hid
  have hextends := planRecord_extends hturn
  exact ⟨(hextends.nodes id hne).trans hp.1, (hextends.relations id hne).trans hp.2⟩

/-- The positions of one piece stay as they are in the turns of the other. -/
lemma aligned_records₂ (h : BatchRun c t cs₁ cs₂ pA pB pC pD) {j : ℕ} (hj : j < cs₁.length) :
    pB.aligned j = pA.aligned j :=
  foldlM_preserves (P := fun p => p.aligned j = pA.aligned j)
    (fun _ hindexed _ _ hturn hp => ((planRecord_extends hturn).aligned j
      (hj.trans_le (position₂ hindexed).2).ne).trans hp) h.records₂ rfl

lemma aligned_records₁ (h : BatchRun c t cs₁ cs₂ pA pB pC pD) {j : ℕ} (hj : cs₁.length ≤ j) :
    pA.aligned j = none :=
  foldlM_preserves (P := fun p => p.aligned j = none)
    (fun _ hindexed _ _ hturn hp => ((planRecord_extends hturn).aligned j
      ((position₁ hindexed).2.trans_le hj).ne').trans hp) h.records₁ rfl

lemma aligned_edges₁ (h : BatchRun c t cs₁ cs₂ pA pB pC pD) {j : ℕ} (hj : cs₁.length ≤ j) :
    pC.aligned j = pB.aligned j :=
  foldlM_preserves (P := fun p => p.aligned j = pB.aligned j)
    (fun _ hindexed _ _ hturn hp => ((planEdge_aligned hturn).1 j
      ((position₁ hindexed).2.trans_le hj).ne').trans hp) h.edges₁ rfl

lemma aligned_edges₂ (h : BatchRun c t cs₁ cs₂ pA pB pC pD) {j : ℕ} (hj : j < cs₁.length) :
    pD.aligned j = pC.aligned j :=
  foldlM_preserves (P := fun p => p.aligned j = pC.aligned j)
    (fun _ hindexed _ _ hturn hp => ((planEdge_aligned hturn).1 j
      (hj.trans_le (position₂ hindexed).2).ne).trans hp) h.edges₂ rfl

/-- The records of the first piece are those of the batch with earlier identifiers. -/
lemma find_created₁ (h : BatchRun c t cs₁ cs₂ pA pB pC pD) {id : RelationId}
    (hid : id.asU64.val < pA.followingRelation.val) :
    (pB.createdRelations.find? fun r => decide (r.id = id)) =
      pA.createdRelations.find? fun r => decide (r.id = id) := by
  have hfirst := h.resolved₁.planned.relations
  have hboth := h.resolved₂.planned.relations
  obtain ⟨extra, hextra⟩ : pA.createdRelations <+: pB.createdRelations :=
    foldlM_preserves (P := fun p => pA.createdRelations <+: p.createdRelations)
      (fun _ _ _ _ hturn hp => hp.trans (planRecord_extends hturn).created) h.records₂
      List.prefix_rfl
  refine Option.ext fun r => ?_
  rw [find_created (nodup_of_consecutive hboth.ids), find_created (nodup_of_consecutive hfirst.ids)]
  refine and_congr_left fun hr => ⟨fun hmem => ?_, fun hmem => ?_⟩
  · obtain ⟨i, hi⟩ := List.getElem?_of_mem hmem
    have hvalue := hboth.ids i r hi
    have hfollowing := hfirst.following_eq
    rw [hr] at hvalue
    rw [← hextra, List.getElem?_append_left (by omega)] at hi
    exact List.mem_of_getElem? hi
  · rw [← hextra]
    exact List.mem_append_left _ hmem

/-- A relation kind the first piece can use has an identifier below its counter. -/
lemma base_below (h : BatchRun c t cs₁ cs₂ pA pB pC pD) {id : RelationId} {base : RelationRecord}
    (hbase : BaseRelation t pA.createdRelations id base) :
    id.asU64.val < pA.followingRelation.val := by
  have hplanned := h.resolved₁.planned.relations
  obtain ⟨rfl, hstored | hcreated⟩ := hbase
  · have hlt := h.inv.counted.relation _ _ (show t.relations.get base.id = some base from hstored)
    have hfollowing := hplanned.following_eq
    omega
  · exact (hplanned.id_range hcreated).2

/-- The edges of the first piece are planned alone as they are in the batch. -/
lemma first (h : BatchRun c t cs₁ cs₂ pA pB pC pD) :
    ∃ q₁, cs₁.zipIdx.foldlM (planEdge c.db) pA = .ok q₁ ∧
      EdgeSim c.db c.db (fun id => id.asU64.val < pA.followingRelation.val) [] 0 cs₁.length pB pA pC
        q₁ := by
  have hA := h.resolved₁
  have hB := h.resolved₂
  have hsame := h.sameResolution₁
  refine EdgeSim.run ⟨.refl pB, .refl pA, ?_, ?_, fun id hid r => ?_, fun _ _ => rfl, fun i hi => ?_⟩
    hsame h.closed₁.references (fun _ _ _ relationKind _ hmem relationId hrelation => ?_) h.edges₁
  · rw [hB.planned.followingEdge, hA.planned.followingEdge]
  · rw [hB.planned.createdEdges, hA.planned.createdEdges, List.append_nil]
  · simp only [planUsage, hB.planned.usage, hA.planned.usage, h.find_created₁ hid]
  · rw [Nat.zero_add, h.aligned_records₂ hi]
  · obtain ⟨-, -, hselected⟩ := h.closed₁.references _ hmem
    rw [hsame.resolveRelation hselected] at hrelation
    obtain ⟨-, base, hbase⟩ := (resolveRelation_ensures (E := fun _ => True) hA.planned.edges
      hA.resolves h.inv.represents hselected).of_ok hrelation
    exact h.base_below hbase

end BatchRun

/-- The names after the records of a plan are added. -/
lemma PlannedRecords.added_iff {k : IdKind} {R : Type} {tab : SortedMap (DurableId k) R}
    {idOf : R → DurableId k} {nameOf : R → String} {names : String → Option (DurableId k)}
    {good : R → Prop} {first following : U64} {planned : String → Option R} {created : List R}
    {resolved : CandidateId → Option R}
    (h : PlannedRecords tab idOf nameOf names good first following planned created resolved)
    (s : String) (id : DurableId k) :
    created.foldl (fun names r => Function.update names (nameOf r) (some (idOf r))) names s =
        some id ↔ names s = some id ∨ ∃ r ∈ created, nameOf r = s ∧ idOf r = id := by
  by_cases hs : s ∈ created.map nameOf
  · obtain ⟨r, hr, rfl⟩ := List.mem_map.1 hs
    rw [foldl_update_of_mem (f := fun r => some (idOf r)) h.names_nodup hr, h.unused r hr]
    simp only [Option.some.injEq, reduceCtorEq, false_or]
    constructor
    · exact fun heq => ⟨r, hr, rfl, heq⟩
    · rintro ⟨r', hr', hname, rfl⟩
      rw [List.inj_on_of_nodup_map h.names_nodup hr' hr hname]
  · rw [foldl_update_of_notMem (f := fun r => some (idOf r)) hs]
    refine (or_iff_left ?_).symm
    rintro ⟨r, hr, rfl, -⟩
    exact hs (List.mem_map_of_mem hr)

namespace BatchRun

variable {cs₁ cs₂ : List Candidate} {pA pB pC pD q₁ : ConfirmPlan} {c₁ : Catalog}
  {changes₁ : List RelationChange}

/-- The records of the second piece are planned after the first as they are in the batch. -/
lemma second_records (h : BatchRun c t cs₁ cs₂ pA pB pC pD) (hsame : q₁.SameRecords pA)
    (hconf : Confirmation c t cs₁ q₁ changes₁)
    (inv₁ : CatalogInv c₁ (t.confirmed cs₁ q₁ changes₁)) :
    ∃ qB, cs₂.zipIdx.foldlM (planRecord c₁) (.new (t.confirmed cs₁ q₁ changes₁).metadata.nextNode
        (t.confirmed cs₁ q₁ changes₁).metadata.nextRelation
        (t.confirmed cs₁ q₁ changes₁).metadata.nextEdge) = .ok qB ∧
      RecordSim c c₁ pA cs₂ cs₁.length pB qB := by
  have hA := h.resolved₁.planned
  refine RecordSim.run h.inv inv₁ ⟨?_, ?_, fun i _ => ?_⟩ h.records₂
  · have hstart := NameSim.start c₁.nodeNames (cs₂.map Candidate.id) (p := pA.nodePlan) hA.nodes
      (fun s id => ?_) fun id hid => (h.unresolved₂ id hid).1
    · show NameSim _ _ _ _ _ _ ⟨q₁.followingNode, _, _, _⟩
      rw [hsame.followingNode]
      exact hstart
    · rw [hconf.nodeNames.unique inv₁.nodeNames]
      show _ ↔ _ ∨ ∃ r ∈ pA.createdNodes, _
      rw [← hsame.createdNodes]
      exact hconf.planned.nodes.added_iff s id
  · have hstart := NameSim.start c₁.relationNames (cs₂.map Candidate.id) (p := pA.relationPlan)
      hA.relations (fun s id => ?_) fun id hid => (h.unresolved₂ id hid).2
    · show NameSim _ _ _ _ _ _ ⟨q₁.followingRelation, _, _, _⟩
      rw [hsame.followingRelation]
      exact hstart
    · rw [hconf.relationNames.unique inv₁.relationNames]
      show _ ↔ _ ∨ ∃ r ∈ pA.createdRelations, _
      rw [← hsame.createdRelations]
      exact hconf.planned.relations.added_iff s id
  · rw [h.aligned_records₁ (Nat.le_add_right _ _)]
    rfl

/-- The edges of the second piece are planned after the first as they are in the batch. -/
lemma second_edges (h : BatchRun c t cs₁ cs₂ pA pB pC pD)
    (hfirst : EdgeSim c.db c.db (fun id => id.asU64.val < pA.followingRelation.val) [] 0 cs₁.length
      pB pA pC q₁)
    (hconf : Confirmation c t cs₁ q₁ changes₁)
    (inv₁ : CatalogInv c₁ (t.confirmed cs₁ q₁ changes₁)) {qB : ConfirmPlan}
    (hrecords : cs₂.zipIdx.foldlM (planRecord c₁) (.new
      (t.confirmed cs₁ q₁ changes₁).metadata.nextNode
      (t.confirmed cs₁ q₁ changes₁).metadata.nextRelation
      (t.confirmed cs₁ q₁ changes₁).metadata.nextEdge) = .ok qB)
    (hsim : RecordSim c c₁ pA cs₂ cs₁.length pB qB) :
    ∃ q₂, cs₂.zipIdx.foldlM (planEdge c₁.db) qB = .ok q₂ ∧
      EdgeSim c.db c₁.db (fun _ => True) q₁.createdEdges cs₁.length cs₂.length pC qB pD q₂ := by
  have hA := h.resolved₁.planned
  have hB := h.resolved₂.planned
  have hqB : RecordsResolved c₁ (t.confirmed cs₁ q₁ changes₁) cs₂ qB :=
    (planRecords_ensures inv₁ (fun candidate hmem => h.fits candidate (List.mem_append_right _ hmem))
      (RecordsResolved.new c₁ _)).of_ok hrecords
  have hcreated : pB.createdRelations = pA.createdRelations ++ qB.createdRelations :=
    hsim.relations.created
  have hnext : (t.confirmed cs₁ q₁ changes₁).metadata.nextRelation = pA.followingRelation :=
    hfirst.right.followingRelation
  -- the second piece starts from the stored records where the whole batch has its planned ones
  refine EdgeSim.run ⟨.refl pC, .refl qB, ?_, ?_, fun id _ r => ?_, fun _ hid => absurd trivial hid,
    fun i hi => ?_⟩ ⟨fun candidate hmem _ => ?_, fun candidate hmem _ => ?_⟩ h.closed₂.references
    (fun _ _ _ _ _ _ _ _ => trivial) h.edges₂
  · rw [hqB.planned.followingEdge]
    exact hfirst.following
  · rw [hqB.planned.createdEdges, List.append_nil]
    exact hfirst.edges
  · have hunused : qB.usage.get id = none := by
      rw [hqB.planned.usage]
      rfl
    have hstored : getRelationFromDb c₁.db id = .ok r ↔
        (t.confirmed cs₁ q₁ changes₁).relations.get id = some r := by
      rw [inv₁.represents.getRelation_eq, okOr_eq_ok]
    rw [planUsage_of_unused hunused, hstored]
    by_cases hid : id.asU64.val < pA.followingRelation.val
    · -- the first piece may have used the relation kind
      have hnone : (qB.createdRelations.find? fun r => decide (r.id = id)) = none := by
        refine List.find?_eq_none.2 fun r' hr' => ?_
        have hle := (hqB.planned.relations.id_range hr').1
        rw [hnext] at hle
        rw [decide_eq_true_eq]
        rintro rfl
        omega
      rw [hnone, hfirst.usage id hid r, ← hconf.get_relation_iff]
      simp
    · -- it is new in the second piece
      have hafter : (t.confirmed cs₁ q₁ changes₁).relations.get id = none := by
        refine Option.eq_none_iff_forall_ne_some.2 fun r' hr' => hid ?_
        rw [← hnext]
        exact inv₁.counted.relation id r' hr'
      have hbefore : t.relations.get id = none := by
        refine Option.eq_none_iff_forall_ne_some.2 fun r' hr' => hid ?_
        have hlt := h.inv.counted.relation id r' hr'
        have hfollowing := hA.relations.following_eq
        omega
      have hfirst_none : (pA.createdRelations.find? fun r => decide (r.id = id)) = none := by
        refine List.find?_eq_none.2 fun r' hr' => ?_
        have hlt := (hA.relations.id_range hr').2
        rw [decide_eq_true_eq]
        rintro rfl
        exact hid hlt
      have hunusedB : pB.usage.get id = none := by
        rw [hB.usage]
        rfl
      rw [hafter, hfirst.rest id hid, planUsage_of_unused hunusedB, hcreated, List.find?_append,
        hfirst_none, Option.none_or, h.inv.represents.getRelation_eq, hbefore]
      simp
  · rw [h.aligned_edges₁ (Nat.le_add_right _ _)]
    exact hsim.aligned i hi
  · rw [hfirst.left.resolvedNodes]
    exact hsim.nodes.resolved candidate.id (List.mem_map_of_mem hmem)
  · rw [hfirst.left.resolvedRelations]
    exact hsim.relations.resolved candidate.id (List.mem_map_of_mem hmem)

variable {qB q₂ : ConfirmPlan} {changes changes₂ : List RelationChange}

/-- Both ways lead to the same tables. -/
lemma tables_eq
    (hfirst : EdgeSim c.db c.db (fun id => id.asU64.val < pA.followingRelation.val) [] 0 cs₁.length
      pB pA pC q₁)
    (hsim : RecordSim c c₁ pA cs₂ cs₁.length pB qB)
    (hsecond : EdgeSim c.db c₁.db (fun _ => True) q₁.createdEdges cs₁.length cs₂.length pC qB pD q₂)
    (hconf : Confirmation c t (cs₁ ++ cs₂) pD changes)
    (hconf₂ : Confirmation c₁ (t.confirmed cs₁ q₁ changes₁) cs₂ q₂ changes₂) :
    (t.confirmed cs₁ q₁ changes₁).confirmed cs₂ q₂ changes₂ =
      t.confirmed (cs₁ ++ cs₂) pD changes := by
  have hnodes : pD.createdNodes = q₁.createdNodes ++ q₂.createdNodes := by
    rw [hsecond.left.createdNodes, hfirst.left.createdNodes, hsecond.right.createdNodes,
      hfirst.right.createdNodes]
    exact hsim.nodes.created
  have hrelations : pD.createdRelations = q₁.createdRelations ++ q₂.createdRelations := by
    rw [hsecond.left.createdRelations, hfirst.left.createdRelations, hsecond.right.createdRelations,
      hfirst.right.createdRelations]
    exact hsim.relations.created
  have hfollowingNode : q₂.followingNode = pD.followingNode := by
    rw [hsecond.left.followingNode, hfirst.left.followingNode, hsecond.right.followingNode]
    exact hsim.nodes.following.symm
  have hfollowingRelation : q₂.followingRelation = pD.followingRelation := by
    rw [hsecond.left.followingRelation, hfirst.left.followingRelation,
      hsecond.right.followingRelation]
    exact hsim.relations.following.symm
  have hchanged : pD.graphChanged = (q₁.graphChanged || q₂.graphChanged) := by
    have happend : ∀ {R : Type} (l l' : List R),
        (!(l ++ l').isEmpty) = (!l.isEmpty || !l'.isEmpty) := by
      intro R l l'
      cases l <;> simp
    simp only [ConfirmPlan.graphChanged, hnodes, hrelations, hsecond.edges, happend]
    ac_rfl
  -- the records of relation kinds agree, as the usage of the two plans does
  have hget : ∀ id, ((t.confirmed cs₁ q₁ changes₁).confirmed cs₂ q₂ changes₂).relations.get id =
      (t.confirmed (cs₁ ++ cs₂) pD changes).relations.get id := by
    refine fun id => Option.ext fun r => ?_
    rw [hconf₂.get_relation_iff, hconf.get_relation_iff]
    exact (hsecond.usage id trivial r).symm
  have hmap := SortedMap.ext_get hget
  refine Tables.mk.injEq .. |>.mpr ⟨?_, ?_, hmap, ?_, ?_⟩
  · refine SortedMap.ext_get fun id => Option.ext fun candidate => ?_
    show (SortedMap.dropAll (SortedMap.dropAll _ _) _).get id = _ ↔ (SortedMap.dropAll _ _).get id = _
    simp only [SortedMap.get_dropAll, List.map_append, List.mem_append, not_or, and_assoc]
  · rw [hnodes]
    exact (SortedMap.putAll_append _ _ _).symm
  · rw [hsecond.edges]
    exact (SortedMap.putAll_append _ _ _).symm
  · simp only [Tables.confirmed, hfollowingNode, hfollowingRelation, hsecond.following, hchanged]
    cases q₁.graphChanged <;> cases q₂.graphChanged <;> rfl

/-- Both ways give every candidate the same identifier. -/
lemma keys_eq (h : BatchRun c t cs₁ cs₂ pA pB pC pD)
    (hfirst : EdgeSim c.db c.db (fun id => id.asU64.val < pA.followingRelation.val) [] 0 cs₁.length
      pB pA pC q₁)
    (hsecond : EdgeSim c.db c₁.db (fun _ => True) q₁.createdEdges cs₁.length cs₂.length pC qB pD
      q₂) :
    ((List.range (cs₁ ++ cs₂).length).filterMap pD.aligned).map ConfirmedRecord.key =
      ((List.range cs₁.length).filterMap q₁.aligned).map ConfirmedRecord.key ++
        ((List.range cs₂.length).filterMap q₂.aligned).map ConfirmedRecord.key := by
  rw [List.length_append, List.range_add, List.filterMap_append, List.map_append,
    List.filterMap_map]
  simp only [List.map_filterMap]
  refine congrArg₂ (· ++ ·) (List.filterMap_congr fun i hi => ?_)
    (List.filterMap_congr fun i hi => ?_)
  · have hlt := List.mem_range.1 hi
    have hkey := hfirst.aligned i hlt
    rw [Nat.zero_add] at hkey
    rw [h.aligned_edges₂ hlt]
    exact hkey
  · exact hsecond.aligned i (List.mem_range.1 hi)

end BatchRun

/-! ## Batches and their pieces -/

/-- A list that can be confirmed and for which planning succeeds is confirmed. -/
lemma confirms_of_plans (inv : CatalogInv c t) {cs : List Candidate} {plan : ConfirmPlan}
    (hconfirmable : t.Confirmable (cs.map Candidate.id)) (hclosed : Closed t cs)
    (hplans : Plans c t cs plan) : ∃ result c' changes,
      confirmCandidateBatch .written (cs.map Candidate.id) c = .ok result c' ∧
        Confirms c t (cs.map Candidate.id) result c' cs plan changes := by
  have hspec := confirm_spec inv .written (cs.map Candidate.id) u64Max
  -- the identifiers determine the candidates, and the candidates the plan
  have hunique : ∀ cs', Closed t cs' → cs'.map Candidate.id = cs.map Candidate.id → cs' = cs := by
    intro cs' hclosed' hids
    have hget : ∀ {l : List Candidate}, Closed t l →
        (l.map Candidate.id).map t.candidates.get = l.map some := by
      intro l hl
      rw [List.map_map]
      exact List.map_congr_left fun candidate hmem => hl.has candidate hmem
    refine List.map_injective_iff.2 (Option.some_injective _) ?_
    rw [← hget hclosed', ← hget hclosed, hids]
  rcases hconfirm : confirmCandidateBatch .written (cs.map Candidate.id) c with
    ⟨result, c'⟩ | ⟨e, c'⟩
  · obtain ⟨cs', plan', changes, h⟩ := hspec.of_ok hconfirm
    obtain rfl := hunique cs' h.confirmation.closed h.ids_eq
    obtain ⟨plan₁, hrecords, hedges⟩ := hplans
    obtain ⟨plan₁', hrecords', hedges'⟩ := h.plans
    obtain rfl : plan₁ = plan₁' := Except.ok.inj (hrecords.symm.trans hrecords')
    obtain rfl : plan = plan' := Except.ok.inj (hedges.symm.trans hedges')
    exact ⟨result, c', changes, rfl, h⟩
  · refine absurd ⟨rfl, rfl, hconfirmable, fun cs' hclosed' hids => ?_⟩ (hspec.of_error hconfirm).2.2
    rw [hunique cs' hclosed' hids]
    exact ⟨plan, hplans⟩

/-- What the candidates of one piece can be confirmed by is still there after the other piece. -/
lemma Tables.Confirmable.after {ids : List CandidateId} (hids : t.Confirmable ids)
    {cs : List Candidate} (hdisjoint : ∀ id ∈ ids, id ∉ cs.map Candidate.id) (plan : ConfirmPlan)
    (changes : List RelationChange) : (t.confirmed cs plan changes).Confirmable ids := by
  refine ⟨hids.nonempty, hids.short, hids.nodup, fun id hid => ?_, fun id hid candidate hget => ?_,
    fun id candidate hget => ?_⟩
  · obtain ⟨candidate, hget⟩ := hids.has id hid
    exact ⟨candidate, SortedMap.get_dropAll.2 ⟨hget, hdisjoint id hid⟩⟩
  · exact hids.downward id hid candidate (SortedMap.get_dropAll.1 hget).1
  · exact hids.upward id candidate (SortedMap.get_dropAll.1 hget).1

/-- A batch of two pieces that are closed under dependencies and not empty is confirmed as its
pieces are confirmed in sequence, in every state the catalog can reach: the catalog ends in the same
state, every candidate gets the same identifier, and the counts add up. -/
theorem confirmCandidateBatch_append {c₀ c c' : Catalog}
    {actions : List (CatalogCall × WriteAnswer)}
    {outs : List (CatalogCall × Except CatalogError CallResult)}
    {result : CandidateBatchConfirmation}
    (hopen : openCatalog .written Database.empty = .ok c₀)
    (hrun : catalogMachine.run c₀ actions = some (c, outs)) (l₁ l₂ : List CandidateId)
    (hne₁ : l₁ ≠ []) (hne₂ : l₂ ≠ []) (hclosed₁ : c.DependencyClosed l₁)
    (hclosed₂ : c.DependencyClosed l₂)
    (hconfirm : confirmCandidateBatch .written (l₁ ++ l₂) c = .ok result c') :
    ∃ result₁ c₁ result₂, confirmCandidateBatch .written l₁ c = .ok result₁ c₁ ∧
      confirmCandidateBatch .written l₂ c₁ = .ok result₂ c' ∧
      result.records.map ConfirmedRecord.key =
        result₁.records.map ConfirmedRecord.key ++ result₂.records.map ConfirmedRecord.key ∧
      result₁.records.length = l₁.length ∧ result₂.records.length = l₂.length ∧
      result.createdNodes = result₁.createdNodes + result₂.createdNodes ∧
      result.createdRelationKinds = result₁.createdRelationKinds + result₂.createdRelationKinds ∧
      result.counts = result₁.counts.add result₂.counts := by
  obtain rfl : c₀ = .fresh := Except.ok.inj (hopen.symm.trans openCatalog_empty)
  obtain ⟨t, inv, -⟩ := catalogMachine_evolves fresh_inv hrun
  obtain ⟨cs, pD, changes, h⟩ := (confirm_spec inv .written (l₁ ++ l₂) u64Max).of_ok hconfirm
  obtain ⟨cs₁, cs₂, rfl, rfl, rfl⟩ := List.map_eq_append_iff.1 h.ids_eq
  have hnodup := h.confirmable.nodup
  have hshort := h.short
  rw [List.length_append] at hshort
  have hhas : ∀ candidate ∈ cs₁ ++ cs₂, t.candidates.get candidate.id = some candidate :=
    h.confirmation.closed.has
  have hconf₁ : t.Confirmable (cs₁.map Candidate.id) :=
    (inv.confirmable_iff _).2 ⟨hne₁, by omega, (List.nodup_append.1 hnodup).1, hclosed₁⟩
  have hconf₂ : t.Confirmable (cs₂.map Candidate.id) :=
    (inv.confirmable_iff _).2 ⟨hne₂, by omega, (List.nodup_append.1 hnodup).2.1, hclosed₂⟩
  have hpiece₁ := hconf₁.closed inv.consistent rfl fun candidate hmem =>
    hhas candidate (List.mem_append_left _ hmem)
  have hpiece₂ := hconf₂.closed inv.consistent rfl fun candidate hmem =>
    hhas candidate (List.mem_append_right _ hmem)
  have hdisjoint : ∀ id ∈ cs₁.map Candidate.id, id ∉ cs₂.map Candidate.id := fun id h₁ h₂ =>
    (List.nodup_append.1 hnodup).2.2 id h₁ id h₂ rfl
  obtain ⟨pB, hrecords, hedges⟩ := h.plans
  rw [List.zipIdx_append, List.foldlM_append, bind_eq_ok, Nat.zero_add] at hrecords hedges
  obtain ⟨pA, hrecords₁, hrecords₂⟩ := hrecords
  obtain ⟨pC, hedges₁, hedges₂⟩ := hedges
  have hbatch : BatchRun c t cs₁ cs₂ pA pB pC pD :=
    ⟨inv, hpiece₁, hpiece₂, hdisjoint, hrecords₁, hrecords₂, hedges₁, hedges₂⟩
  -- the first piece
  obtain ⟨q₁, hrun₁, hfirst⟩ := hbatch.first
  obtain ⟨result₁, c₁, changes₁, hconfirm₁, h₁⟩ :=
    confirms_of_plans inv hconf₁ hpiece₁ ⟨pA, hrecords₁, hrun₁⟩
  -- the second piece, planned in the catalog the first has left
  obtain ⟨qB, hrunB, hsim⟩ := hbatch.second_records hfirst.right h₁.confirmation h₁.inv
  obtain ⟨q₂, hrun₂, hsecond⟩ := hbatch.second_edges hfirst h₁.confirmation h₁.inv hrunB hsim
  have hafter := hconf₂.after (fun id h₂ h₁ => hdisjoint id h₁ h₂) q₁ changes₁
  have hpiece₂' := hafter.closed h₁.inv.consistent rfl fun candidate hmem =>
    SortedMap.get_dropAll.2 ⟨hpiece₂.has candidate hmem, fun hid =>
      hdisjoint _ hid (List.mem_map_of_mem hmem)⟩
  obtain ⟨result₂, c₂, changes₂, hconfirm₂, h₂⟩ :=
    confirms_of_plans h₁.inv hafter hpiece₂' ⟨qB, hrunB, hrun₂⟩
  have hsame : c₂ = c' := by
    have htables := BatchRun.tables_eq hfirst hsim hsecond h.confirmation h₂.confirmation
    exact h.inv.unique (htables ▸ h₂.inv)
  refine ⟨result₁, c₁, result₂, hconfirm₁, hsame ▸ hconfirm₂, ?_, h₁.length_records,
    h₂.length_records, ?_, ?_, ?_⟩
  · rw [h.records, h₁.records, h₂.records]
    exact hbatch.keys_eq hfirst hsecond
  · rw [h.createdNodes, h₁.createdNodes, h₂.createdNodes, ← List.length_append,
      hsecond.left.createdNodes, hfirst.left.createdNodes, hsecond.right.createdNodes,
      hfirst.right.createdNodes]
    exact congrArg List.length hsim.nodes.created
  · rw [h.createdRelationKinds, h₁.createdRelationKinds, h₂.createdRelationKinds,
      ← List.length_append, hsecond.left.createdRelations, hfirst.left.createdRelations,
      hsecond.right.createdRelations, hfirst.right.createdRelations]
    exact congrArg List.length hsim.relations.created
  · rw [h.counts, h₁.counts, h₂.counts]
    exact tally_append cs₁ cs₂

/-- Two nodes with edges to themselves, under the same names. -/
def twinCalls : List (CatalogCall × WriteAnswer) :=
  [(.insertCandidateBatch [.node ⟨"a"⟩ ⟨[]⟩, .relationKind ⟨"r"⟩,
      .edge (.batchNode 0) (.batchNode 0) (.batchRelationKind 1) ⟨0, BaseWeight.zeroBits_le⟩,
      .node ⟨"a"⟩ ⟨[]⟩, .relationKind ⟨"r"⟩,
      .edge (.batchNode 3) (.batchNode 3) (.batchRelationKind 4) ⟨1, BaseWeight.leastBits_le⟩],
      .written)]

/-- The second piece finds the node and the relation kind the first has created. -/
theorem confirmCandidateBatch_append_twin : ∃ c outs result c' result₁ c₁ result₂,
    catalogMachine.run .fresh twinCalls = some (c, outs) ∧
    confirmCandidateBatch .written [⟨1⟩, ⟨2⟩, ⟨3⟩, ⟨4⟩, ⟨5⟩, ⟨6⟩] c = .ok result c' ∧
    result.createdNodes = 1 ∧ confirmCandidateBatch .written [⟨1⟩, ⟨2⟩, ⟨3⟩] c = .ok result₁ c₁ ∧
    confirmCandidateBatch .written [⟨4⟩, ⟨5⟩, ⟨6⟩] c₁ = .ok result₂ c' := by
  obtain ⟨c, outs, hrun⟩ := catalogMachine_run_total .fresh twinCalls
  have hcreated : (catalogMachine.run .fresh twinCalls).map (fun s =>
      [[⟨1⟩, ⟨2⟩, ⟨3⟩, ⟨4⟩, ⟨5⟩, ⟨6⟩], [⟨1⟩, ⟨2⟩, ⟨3⟩], [⟨4⟩, ⟨5⟩, ⟨6⟩]].map fun ids =>
        ((confirmCandidateBatch .written ids).run' s.1).map
          CandidateBatchConfirmation.createdNodes) = some [some 1, some 1, some 1] := by
    decide +kernel
  have hok : ∀ ids created, ((confirmCandidateBatch .written ids).run' c).map
      CandidateBatchConfirmation.createdNodes = some created →
      ∃ result c', confirmCandidateBatch .written ids c = .ok result c' ∧
        result.createdNodes = created := by
    intro ids created heq
    rcases hconfirm : confirmCandidateBatch .written ids c with ⟨result, c'⟩ | ⟨e, c'⟩
    · simp [run'_eq_some hconfirm] at heq
      exact ⟨result, c', rfl, heq⟩
    · simp [run'_eq_none hconfirm] at heq
  rw [hrun, Option.map_some, Option.some.injEq] at hcreated
  simp only [List.map_cons, List.map_nil, List.cons.injEq, and_true] at hcreated
  obtain ⟨hall, hfirst, hsecond⟩ := hcreated
  obtain ⟨result, c', hconfirm, hone⟩ := hok _ _ hall
  obtain ⟨_, _, hconfirm₁, -⟩ := hok _ _ hfirst
  obtain ⟨_, _, hconfirm₂, -⟩ := hok _ _ hsecond
  obtain ⟨result₁, c₁, result₂, h₁, h₂, -⟩ := confirmCandidateBatch_append openCatalog_empty hrun
    [⟨1⟩, ⟨2⟩, ⟨3⟩] [⟨4⟩, ⟨5⟩, ⟨6⟩] (by simp) (by simp)
    (dependencyClosed_of_confirmed hrun hconfirm₁) (dependencyClosed_of_confirmed hrun hconfirm₂)
    hconfirm
  exact ⟨c, outs, result, c', result₁, c₁, result₂, hrun, hconfirm, hone, h₁, h₂⟩

/-- The empty list is closed under dependencies, but it is no batch. -/
theorem confirmCandidateBatch_append_empty : ¬ ∀ (c₀ c c' : Catalog)
    (actions : List (CatalogCall × WriteAnswer))
    (outs : List (CatalogCall × Except CatalogError CallResult)) (l₁ l₂ : List CandidateId)
    (result : CandidateBatchConfirmation), openCatalog .written Database.empty = .ok c₀ →
    catalogMachine.run c₀ actions = some (c, outs) → (l₁ ++ l₂).Nodup →
    c.DependencyClosed l₁ → c.DependencyClosed l₂ →
    confirmCandidateBatch .written (l₁ ++ l₂) c = .ok result c' →
    ∃ result₁ c₁ result₂, confirmCandidateBatch .written l₁ c = .ok result₁ c₁ ∧
      confirmCandidateBatch .written l₂ c₁ = .ok result₂ c' := by
  intro hall
  obtain ⟨c, outs, hrun⟩ := catalogMachine_run_total .fresh (loopCalls.take 1)
  have hcreated : (catalogMachine.run .fresh (loopCalls.take 1)).map (fun s =>
      ((confirmCandidateBatch .written [⟨1⟩, ⟨2⟩, ⟨3⟩]).run' s.1).map
        CandidateBatchConfirmation.createdNodes) = some (some 1) := by
    decide +kernel
  rw [hrun, Option.map_some, Option.some.injEq] at hcreated
  rcases hconfirm : confirmCandidateBatch .written [⟨1⟩, ⟨2⟩, ⟨3⟩] c with ⟨result, c'⟩ | ⟨e, c'⟩
  · obtain ⟨result₁, c₁, result₂, hempty, -⟩ := hall .fresh c c' _ outs [] [⟨1⟩, ⟨2⟩, ⟨3⟩] result
      openCatalog_empty hrun (by decide) ⟨by simp, by simp, by simp⟩
      (dependencyClosed_of_confirmed hrun hconfirm) hconfirm
    cases hempty
  · simp [run'_eq_none hconfirm] at hcreated

end PathHydra
