import PathHydra.Properties.Store.Closure

/-!
# Two runs of the planning loops

The loops of a confirmation, run over the same candidates in two situations: in the middle of a
batch, and alone in a catalog that already has what the batch has planned before.  A name the first
run has planned is one the second finds in the catalog (`NameSim`, `RecordSim`), and the usage of a
relation kind the first carries along is the one the second reads back (`EdgeSim`).
-/

namespace PathHydra

/-! ## The tables determine the catalog -/

lemma MetadataOf.unique {m m' : SortedMap Bytes Bytes} {d : Metadata} (h : MetadataOf m d)
    (h' : MetadataOf m' d) : m' = m := by
  refine SortedMap.ext_get fun k => ?_
  by_cases hk : ∃ key : MetadataKey, k = key.bytes
  · obtain ⟨key, rfl⟩ := hk
    rw [h.get key, h'.get key]
  · have hnone : ∀ {m : SortedMap Bytes Bytes}, MetadataOf m d → m.get k = none := by
      intro m hm
      rcases hget : m.get k with _ | v
      · rfl
      · exact absurd (hm.known _ (SortedMap.get_eq_some.1 hget)) hk
    rw [hnone h, hnone h']

lemma Represents.unique {db db' : Database} {t : Tables} (h : Represents db t)
    (h' : Represents db' t) : db' = db := by
  funext family
  cases family with
  | default => exact h.metadata.unique h'.metadata
  | candidates => exact h.candidates.indexes.unique h'.candidates.indexes
  | nodes => exact h.nodes.indexes.unique h'.nodes.indexes
  | nodeNames => exact h.nodeNames.unique h'.nodeNames
  | relationKinds => exact h.relations.indexes.unique h'.relations.indexes
  | relationNames => exact h.relationNames.unique h'.relationNames
  | relationPopularity => exact h.popularity.unique h'.popularity
  | edges => exact h.edges.indexes.unique h'.edges.indexes
  | outgoingEdges => exact h.outgoing.unique h'.outgoing
  | incomingEdges => exact h.incoming.unique h'.incoming

lemma CatalogInv.unique {c c' : Catalog} {t : Tables} (h : CatalogInv c t) (h' : CatalogInv c' t) :
    c' = c := by
  obtain ⟨db, nodeNames, relationNames⟩ := c
  obtain ⟨db', nodeNames', relationNames'⟩ := c'
  obtain rfl : db' = db := h.represents.unique h'.represents
  obtain rfl : nodeNames' = nodeNames := h.nodeNames.unique h'.nodeNames
  obtain rfl : relationNames' = relationNames := h.relationNames.unique h'.relationNames
  rfl

/-! ## The usage of a relation kind in a plan -/

variable {c : Catalog} {t : Tables}

lemma planUsage_of_usage {db : Database} {plan : ConfirmPlan} {id : RelationId} {r : RelationRecord}
    (h : plan.usage.get id = some r) : planUsage db plan id = .ok r := by
  rw [planUsage, h]

/-- A relation kind no edge has used yet is created or stored. -/
lemma planUsage_of_unused {db : Database} {plan : ConfirmPlan} {id : RelationId}
    (h : plan.usage.get id = none) {r : RelationRecord} : planUsage db plan id = .ok r ↔
      (plan.createdRelations.find? fun r => decide (r.id = id)) = some r ∨
      (plan.createdRelations.find? fun r => decide (r.id = id)) = none ∧
        getRelationFromDb db id = .ok r := by
  simp only [planUsage, h]
  split
  · rename_i r' hfind
    simp [hfind]
  · rename_i hfind
    simp [hfind]

/-- Looking a created relation kind up by its identifier. -/
lemma find_created {created : List RelationRecord} (h : (created.map RelationRecord.id).Nodup)
    {id : RelationId} {r : RelationRecord} :
    (created.find? fun r => decide (r.id = id)) = some r ↔ r ∈ created ∧ r.id = id := by
  constructor
  · intro hfind
    exact ⟨List.mem_of_find?_eq_some hfind, by simpa using List.find?_some hfind⟩
  · rintro ⟨hmem, hid⟩
    obtain ⟨r', hfind⟩ := Option.isSome_iff_exists.1
      (List.find?_isSome (p := fun r => decide (r.id = id)) |>.2 ⟨r, hmem, by simp [hid]⟩)
    have hid' : r'.id = id := by simpa using List.find?_some hfind
    rw [hfind, List.inj_on_of_nodup_map h (List.mem_of_find?_eq_some hfind) hmem
      (hid'.trans hid.symm)]

/-- The relation kinds after a confirmation are those of its plan. -/
lemma Confirmation.get_relation_iff {cs : List Candidate} {plan : ConfirmPlan}
    {changes : List RelationChange} (h : Confirmation c t cs plan changes) {id : RelationId}
    {r : RelationRecord} : (t.confirmed cs plan changes).relations.get id = some r ↔
      planUsage c.db plan id = .ok r := by
  have hcreated : ∀ {r'}, (plan.createdRelations.find? fun r => decide (r.id = id)) = some r' ↔
      r' ∈ plan.createdRelations ∧ r'.id = id :=
    find_created (nodup_of_consecutive h.planned.relations.ids)
  have hfinal : ∀ r₀, plan.finalRelations.get id = some r₀ → planUsage c.db plan id = .ok r₀ := by
    intro r₀ hr₀
    rcases h.planned.get_final.1 hr₀ with husage | ⟨hnone, hmem, hid⟩
    · exact planUsage_of_usage husage
    · exact (planUsage_of_unused hnone).2 (.inl (hcreated.2 ⟨hmem, hid⟩))
  rcases hget : plan.finalRelations.get id with _ | r₀
  · have hout : id ∉ changes.map RelationChange.id := by
      rw [h.ids_eq, SortedMap.mem_keys]
      rintro ⟨r', hr'⟩
      cases hget.symm.trans hr'
    have hnone : plan.usage.get id = none := by
      rcases husage : plan.usage.get id with _ | r'
      · rfl
      · cases hget.symm.trans (h.planned.get_final.2 (.inl husage))
    have hfind : (plan.createdRelations.find? fun r => decide (r.id = id)) = none := by
      refine Option.eq_none_iff_forall_ne_some.2 fun r' hfind => ?_
      obtain ⟨hmem, hid⟩ := hcreated.1 hfind
      cases hget.symm.trans (h.planned.get_final.2 (.inr ⟨hnone, hmem, hid⟩))
    rw [planUsage_of_unused hnone, hfind, h.inv.represents.getRelation_eq, okOr_eq_ok]
    simp only [reduceCtorEq, false_or, true_and]
    rw [show (t.confirmed cs plan changes).relations.get id = t.relations.get id from
      ValidChanges.get_of_notMem hout]
  · have hmem : id ∈ changes.map RelationChange.id := by
      rw [h.ids_eq, SortedMap.mem_keys]
      exact ⟨r₀, hget⟩
    obtain ⟨ch, hch, rfl⟩ := List.mem_map.1 hmem
    obtain ⟨r', base, hr', -, -, hcases⟩ := h.of_mem hch
    obtain rfl : r₀ = r' := Option.some.inj (hget.symm.trans hr')
    have hafter : ch.after = some r₀ := by
      rcases hcases with ⟨-, rfl⟩ | ⟨-, rfl⟩
      · rfl
      · rfl
    rw [show (t.confirmed cs plan changes).relations.get ch.id = some r₀ from
      (h.validChanges.get_of_mem hch).trans hafter, hfinal r₀ hget]
    simp

/-! ## Planning one edge -/

/-- The plan with one more edge. -/
def ConfirmPlan.addEdge (plan : ConfirmPlan) (index : ℕ) (edge : EdgeRecord)
    (used : RelationRecord) (following : U64) : ConfirmPlan :=
  { plan with
    usage := plan.usage.insert edge.relationKind used
    followingEdge := following
    aligned := Function.update plan.aligned index (some (.edge edge))
    createdEdges := plan.createdEdges ++ [edge] }

/-- What the turn of an edge candidate does. -/
lemma planEdge_edge {db : Database} {plan plan' : ConfirmPlan} {id : CandidateId}
    {source destination : CandidateNodeReference} {relationKind : CandidateRelationReference}
    {baseWeight : BaseWeight} {index : ℕ} :
    planEdge db plan (.edge id source destination relationKind baseWeight, index) = .ok plan' ↔
      ∃ source' destination' relationId old provisional confirmed total following,
        resolveConfirmedNode plan.resolvedNodes source = .ok source' ∧
        resolveConfirmedNode plan.resolvedNodes destination = .ok destination' ∧
        resolveConfirmedRelation plan.resolvedRelations relationKind = .ok relationId ∧
        planUsage db plan relationId = .ok old ∧
        remainingProvisional old relationId relationKind = .ok provisional ∧
        old.confirmedEdgeCount.checkedAdd 1 = some confirmed ∧
        provisional.checkedAdd confirmed = some total ∧
        plan.followingEdge.checkedAdd 1 = some following ∧
        plan' = plan.addEdge index
          ⟨⟨plan.followingEdge⟩, source', destination', relationId, baseWeight⟩
          ⟨relationId, old.name, provisional, confirmed⟩ following := by
  simp only [planEdge, bind_eq_ok, okOr_eq_ok]
  constructor
  · rintro ⟨source', hsource, destination', hdestination, relationId, hrelation, old, hold,
      provisional, hprovisional, confirmed, hconfirmed, total, htotal, following, hfollowing, heq⟩
    cases heq
    exact ⟨source', destination', relationId, old, provisional, confirmed, total, following, hsource,
      hdestination, hrelation, hold, hprovisional, hconfirmed, htotal, hfollowing, rfl⟩
  · rintro ⟨source', destination', relationId, old, provisional, confirmed, total, following,
      hsource, hdestination, hrelation, hold, hprovisional, hconfirmed, htotal, hfollowing, rfl⟩
    exact ⟨source', hsource, destination', hdestination, relationId, hrelation, old, hold,
      provisional, hprovisional, confirmed, hconfirmed, total, htotal, following, hfollowing, rfl⟩

/-- After the turn only the relation kind of the edge has another usage. -/
lemma planUsage_addEdge (db : Database) (plan : ConfirmPlan) (index : ℕ) (edge : EdgeRecord)
    (used : RelationRecord) (following : U64) (id : RelationId) :
    planUsage db (plan.addEdge index edge used following) id =
      if id = edge.relationKind then .ok used else planUsage db plan id := by
  split_ifs with hid
  · subst hid
    exact planUsage_of_usage (SortedMap.get_insert_self _ _ _)
  · simp only [planUsage, ConfirmPlan.addEdge, SortedMap.get_insert_of_ne _ _ hid]

/-! ## Two runs over the edges -/

/-- What a confirmed record is identified by. -/
def ConfirmedRecord.key : ConfirmedRecord → RecordKind × U64
  | .node record => (.node, record.id.asU64)
  | .relation record => (.relation, record.id.asU64)
  | .edge record => (.edge, record.id.asU64)

/-- The plans agree on nodes and relation kinds. -/
structure ConfirmPlan.SameRecords (plan plan' : ConfirmPlan) : Prop where
  followingNode : plan.followingNode = plan'.followingNode
  followingRelation : plan.followingRelation = plan'.followingRelation
  resolvedNodes : plan.resolvedNodes = plan'.resolvedNodes
  resolvedRelations : plan.resolvedRelations = plan'.resolvedRelations
  createdNodes : plan.createdNodes = plan'.createdNodes
  createdRelations : plan.createdRelations = plan'.createdRelations

lemma ConfirmPlan.SameRecords.refl (plan : ConfirmPlan) : plan.SameRecords plan :=
  ⟨rfl, rfl, rfl, rfl, rfl, rfl⟩

/-- The plans resolve the candidates to the same identifiers. -/
structure SameResolution (cs : List Candidate) (p q : ConfirmPlan) : Prop where
  node : ∀ candidate ∈ cs, candidate.IsNode → (p.resolvedNodes candidate.id).map NodeRecord.id =
    (q.resolvedNodes candidate.id).map NodeRecord.id
  relation : ∀ candidate ∈ cs, candidate.IsRelation →
    (p.resolvedRelations candidate.id).map RelationRecord.id =
      (q.resolvedRelations candidate.id).map RelationRecord.id

section Resolution

variable {cs : List Candidate} {p q : ConfirmPlan}

lemma SameResolution.resolveNode (h : SameResolution cs p q) {r : CandidateNodeReference}
    (hr : SelectedNode t cs r) :
    resolveConfirmedNode p.resolvedNodes r = resolveConfirmedNode q.resolvedNodes r := by
  cases r with
  | confirmed id => rfl
  | candidate id =>
    obtain ⟨candidate, hmem, rfl, hnode⟩ := hr
    simp only [resolveConfirmedNode, h.node candidate hmem hnode]

lemma SameResolution.resolveRelation (h : SameResolution cs p q) {r : CandidateRelationReference}
    (hr : SelectedRelation t cs r) :
    resolveConfirmedRelation p.resolvedRelations r =
      resolveConfirmedRelation q.resolvedRelations r := by
  cases r with
  | confirmed id => rfl
  | candidate id =>
    obtain ⟨candidate, hmem, rfl, hrelation⟩ := hr
    simp only [resolveConfirmedRelation, h.relation candidate hmem hrelation]

end Resolution

/-- Both plans give the position its record. -/
lemma aligned_step {offset i n : ℕ} {r r' : ConfirmedRecord} (hr : r.key = r'.key)
    {left right : ℕ → Option ConfirmedRecord}
    (h : ∀ j < n, (left (offset + j)).map ConfirmedRecord.key =
      (right j).map ConfirmedRecord.key) :
    ∀ j < n, (Function.update left (offset + i) (some r) (offset + j)).map ConfirmedRecord.key =
      (Function.update right i (some r') j).map ConfirmedRecord.key := by
  intro j hj
  by_cases hji : j = i
  · rw [hji, Function.update_self, Function.update_self, Option.map_some, Option.map_some, hr]
  · rw [Function.update_of_ne hji, Function.update_of_ne (by omega)]
    exact h j hj

/-- Two plans in the course of the edges of one piece.  The first stands in the batch, with the
edges `es` before the piece and its positions from `offset` on; the second in the confirmation of
the piece alone.  Relation kinds outside `S` are not used. -/
structure EdgeSim (db db' : Database) (S : RelationId → Prop) (es : List EdgeRecord)
    (offset n : ℕ) (p₀ q₀ p q : ConfirmPlan) : Prop where
  left : p.SameRecords p₀
  right : q.SameRecords q₀
  following : p.followingEdge = q.followingEdge
  edges : p.createdEdges = es ++ q.createdEdges
  usage : ∀ id, S id → ∀ r, planUsage db p id = .ok r ↔ planUsage db' q id = .ok r
  rest : ∀ id, ¬ S id → planUsage db p id = planUsage db p₀ id
  aligned : ∀ i < n, (p.aligned (offset + i)).map ConfirmedRecord.key =
    (q.aligned i).map ConfirmedRecord.key

section Edges

variable {db db' : Database} {S : RelationId → Prop} {es : List EdgeRecord} {offset : ℕ}
  {p₀ q₀ : ConfirmPlan} {cs : List Candidate}

/-- Both plans take the turn of a candidate. -/
lemma EdgeSim.step {p q p' : ConfirmPlan} {n : ℕ} (h : EdgeSim db db' S es offset n p₀ q₀ p q)
    (hsame : SameResolution cs p₀ q₀) {candidate : Candidate}
    (hrefs : SelectedReferences t cs candidate)
    (hS : ∀ id source destination relationKind baseWeight,
      candidate = .edge id source destination relationKind baseWeight →
      ∀ relationId, resolveConfirmedRelation p₀.resolvedRelations relationKind = .ok relationId →
        S relationId) {i : ℕ}
    (hturn : planEdge db p (candidate, offset + i) = .ok p') :
    ∃ q', planEdge db' q (candidate, i) = .ok q' ∧ EdgeSim db db' S es offset n p₀ q₀ p' q' := by
  rcases candidate with _ | _ | ⟨id, source, destination, relationKind, baseWeight⟩
  · cases hturn
    exact ⟨q, rfl, h⟩
  · cases hturn
    exact ⟨q, rfl, h⟩
  obtain ⟨hsourceRef, hdestinationRef, hrelationRef⟩ := hrefs
  obtain ⟨source', destination', relationId, old, provisional, confirmed, total, following, hsource,
    hdestination, hrelation, hold, hprovisional, hconfirmed, htotal, hfollowing, rfl⟩ :=
    planEdge_edge.1 hturn
  rw [h.left.resolvedNodes] at hsource hdestination
  rw [h.left.resolvedRelations] at hrelation
  have hid := hS _ _ _ _ _ rfl relationId hrelation
  -- the references resolve alike, and so the two turns add the same edge
  refine ⟨_, planEdge_edge.2 ⟨source', destination', relationId, old, provisional, confirmed, total,
    following, ?_, ?_, ?_, (h.usage relationId hid old).1 hold, hprovisional, hconfirmed, htotal, ?_,
    rfl⟩, ⟨h.left.1, h.left.2, h.left.3, h.left.4, h.left.5, h.left.6⟩,
    ⟨h.right.1, h.right.2, h.right.3, h.right.4, h.right.5, h.right.6⟩, rfl, ?_,
    fun id' hid' r => ?_, fun id' hid' => ?_, fun j hj => ?_⟩
  · rw [h.right.resolvedNodes, ← hsame.resolveNode hsourceRef]
    exact hsource
  · rw [h.right.resolvedNodes, ← hsame.resolveNode hdestinationRef]
    exact hdestination
  · rw [h.right.resolvedRelations, ← hsame.resolveRelation hrelationRef]
    exact hrelation
  · rw [← h.following]
    exact hfollowing
  · simp only [ConfirmPlan.addEdge, h.edges, h.following, List.append_assoc]
  · rw [planUsage_addEdge, planUsage_addEdge]
    split_ifs
    · rfl
    · exact h.usage id' hid' r
  · rw [planUsage_addEdge, if_neg, h.rest id' hid']
    rintro rfl
    exact hid' hid
  · refine aligned_step ?_ h.aligned j hj
    simp only [ConfirmedRecord.key, h.following]

/-- Both plans run over the edges of the piece. -/
lemma EdgeSim.run {p q p' : ConfirmPlan} (h : EdgeSim db db' S es offset cs.length p₀ q₀ p q)
    (hsame : SameResolution cs p₀ q₀)
    (hrefs : ∀ candidate ∈ cs, SelectedReferences t cs candidate)
    (hS : ∀ id source destination relationKind baseWeight,
      Candidate.edge id source destination relationKind baseWeight ∈ cs →
      ∀ relationId, resolveConfirmedRelation p₀.resolvedRelations relationKind = .ok relationId →
        S relationId)
    (hrun : (cs.zipIdx offset).foldlM (planEdge db) p = .ok p') :
    ∃ q', cs.zipIdx.foldlM (planEdge db') q = .ok q' ∧
      EdgeSim db db' S es offset cs.length p₀ q₀ p' q' := by
  rw [List.zipIdx_eq_map_add, List.foldlM_map] at hrun
  refine foldlM_simulates (fun indexed hindexed p q p' hsim hturn => ?_) h hrun
  obtain ⟨candidate, i⟩ := indexed
  have hmem := List.fst_mem_of_mem_zipIdx hindexed
  refine hsim.step hsame (hrefs candidate hmem) (fun id source destination relationKind baseWeight
    heq => ?_) hturn
  subst heq
  exact hS _ _ _ _ _ hmem

end Edges

/-! ## Two runs over the nodes and relation kinds -/

/-- The part of a plan that is about the records of one kind. -/
structure NamePlan (R : Type) where
  following : U64
  planned : String → Option R
  created : List R
  resolved : CandidateId → Option R

def ConfirmPlan.nodePlan (plan : ConfirmPlan) : NamePlan NodeRecord :=
  ⟨plan.followingNode, plan.plannedNodeNames, plan.createdNodes, plan.resolvedNodes⟩

def ConfirmPlan.relationPlan (plan : ConfirmPlan) : NamePlan RelationRecord :=
  ⟨plan.followingRelation, plan.plannedRelationNames, plan.createdRelations,
    plan.resolvedRelations⟩

/-- Two plans for records of one kind in the course of one piece.  What the first has planned before
the piece, the records `created₀`, the second finds in the catalog. -/
structure NameSim {k : IdKind} {R : Type} (idOf : R → DurableId k)
    (names names' : String → Option (DurableId k)) (created₀ : List R) (ids : List CandidateId)
    (p q : NamePlan R) : Prop where
  following : p.following = q.following
  created : p.created = created₀ ++ q.created
  unknown : ∀ s, names' s = none → names s = none ∧ p.planned s = q.planned s
  known : ∀ s id, names' s = some id →
    names s = some id ∨ names s = none ∧ ∃ r, p.planned s = some r ∧ idOf r = id
  resolved : ∀ id ∈ ids, (p.resolved id).map idOf = (q.resolved id).map idOf

section Names

variable {k : IdKind} {R : Type} {idOf : R → DurableId k}
  {names names' : String → Option (DurableId k)}
  {created₀ : List R} {ids : List CandidateId} {p q : NamePlan R}

lemma NameSim.create (h : NameSim idOf names names' created₀ ids p q) {s : String}
    (hs : names' s = none) (r : R) (following : U64) :
    NameSim idOf names names' created₀ ids
      { p with
        following := following
        planned := Function.update p.planned s (some r)
        created := p.created ++ [r] }
      { q with
        following := following
        planned := Function.update q.planned s (some r)
        created := q.created ++ [r] } := by
  refine ⟨rfl, ?_, fun s' hs' => ⟨(h.unknown s' hs').1, ?_⟩, fun s' id hid => ?_, h.resolved⟩
  · simp only [h.created, List.append_assoc]
  · by_cases heq : s' = s
    · simp only [heq, Function.update_self]
    · simp only [Function.update_of_ne heq]
      exact (h.unknown s' hs').2
  · have heq : s' ≠ s := by
      rintro rfl
      cases hs.symm.trans hid
    simp only [Function.update_of_ne heq]
    exact h.known s' id hid

lemma NameSim.resolve (h : NameSim idOf names names' created₀ ids p q) (id : CandidateId) {r r' : R}
    (hr : idOf r = idOf r') :
    NameSim idOf names names' created₀ ids
      { p with resolved := Function.update p.resolved id (some r) }
      { q with resolved := Function.update q.resolved id (some r') } := by
  refine ⟨h.following, h.created, h.unknown, h.known, fun id' hid' => ?_⟩
  by_cases heq : id' = id
  · simp only [heq, Function.update_self, Option.map_some, hr]
  · simp only [Function.update_of_ne heq]
    exact h.resolved id' hid'

/-- Where the piece begins: the catalog has the names from before and those planned since. -/
lemma NameSim.start (names' : String → Option (DurableId k)) (ids : List CandidateId)
    {tab : SortedMap (DurableId k) R} {nameOf : R → String} {good : R → Prop}
    {first : U64}
    (h : PlannedRecords tab idOf nameOf names good first p.following p.planned p.created p.resolved)
    (hnames : ∀ s id, names' s = some id ↔
      names s = some id ∨ ∃ r ∈ p.created, nameOf r = s ∧ idOf r = id)
    (hresolved : ∀ id ∈ ids, p.resolved id = none) :
    NameSim idOf names names' p.created ids p
      ⟨p.following, fun _ => none, [], fun _ => none⟩ := by
  refine ⟨rfl, by simp, fun s hs => ⟨?_, ?_⟩, fun s id hid => ?_, fun id hid => ?_⟩
  · rcases hold : names s with _ | id
    · rfl
    · cases hs.symm.trans ((hnames s id).2 (.inl hold))
  · rcases hplanned : p.planned s with _ | r
    · rfl
    · obtain ⟨hmem, hname⟩ := (h.planned_iff s r).1 hplanned
      cases hs.symm.trans ((hnames s _).2 (.inr ⟨r, hmem, hname, rfl⟩))
  · rcases (hnames s id).1 hid with hold | ⟨r, hmem, rfl, rfl⟩
    · exact .inl hold
    · exact .inr ⟨h.unused r hmem, r, (h.planned_iff _ r).2 ⟨hmem, rfl⟩, rfl⟩
  · rw [hresolved id hid]

end Names

/-- Two plans in the course of the nodes and relation kinds of one piece. -/
structure RecordSim (c c₁ : Catalog) (plan₀ : ConfirmPlan) (cs : List Candidate) (offset : ℕ)
    (p q : ConfirmPlan) : Prop where
  nodes : NameSim NodeRecord.id c.nodeNames c₁.nodeNames plan₀.createdNodes (cs.map Candidate.id)
    p.nodePlan q.nodePlan
  relations : NameSim RelationRecord.id c.relationNames c₁.relationNames plan₀.createdRelations
    (cs.map Candidate.id) p.relationPlan q.relationPlan
  aligned : ∀ i < cs.length, (p.aligned (offset + i)).map ConfirmedRecord.key =
    (q.aligned i).map ConfirmedRecord.key

section Records

variable {c₁ : Catalog} {t₁ : Tables} {plan₀ : ConfirmPlan} {cs : List Candidate} {offset : ℕ}
  {p q p' : ConfirmPlan}

/-- A name in the map leads to its node. -/
lemma CatalogInv.getNode_of_name (inv : CatalogInv c t) {s : String} {id : NodeId}
    (h : c.nodeNames s = some id) : ∃ r, getNodeFromDb c.db id = .ok r ∧ r.id = id := by
  obtain ⟨r, hr, -, rfl⟩ := (inv.nodeNames _ _).1 h
  refine ⟨r, ?_, rfl⟩
  rw [inv.represents.getNode_eq, show t.nodes.get r.id = some r from hr, okOr_some]

/-- A name in the map leads to its relation kind. -/
lemma CatalogInv.getRelation_of_name (inv : CatalogInv c t) {s : String} {id : RelationId}
    (h : c.relationNames s = some id) : ∃ r, getRelationFromDb c.db id = .ok r ∧ r.id = id := by
  obtain ⟨r, hr, -, rfl⟩ := (inv.relationNames _ _).1 h
  refine ⟨r, ?_, rfl⟩
  rw [inv.represents.getRelation_eq, show t.relations.get r.id = some r from hr, okOr_some]

lemma RecordSim.planNode (inv : CatalogInv c t) (inv₁ : CatalogInv c₁ t₁)
    (h : RecordSim c c₁ plan₀ cs offset p q) {name : NodeName} {payload : NodePayload}
    {record : NodeRecord} (hturn : planNode c p name payload = .ok (record, p')) :
    ∃ record' q', planNode c₁ q name payload = .ok (record', q') ∧ record.id = record'.id ∧
      RecordSim c c₁ plan₀ cs offset p' q' := by
  rcases hnames : c₁.nodeNames name.asStr with _ | id
  · obtain ⟨hnone, hplanned⟩ := h.nodes.unknown _ hnames
    have hsame : p.plannedNodeNames name.asStr = q.plannedNodeNames name.asStr := hplanned
    simp only [PathHydra.planNode, hnone] at hturn
    simp only [PathHydra.planNode, hnames]
    rw [hsame] at hturn
    rcases hknown : q.plannedNodeNames name.asStr with _ | existing
    · have hfollowing : p.followingNode = q.followingNode := h.nodes.following
      simp only [hknown, hfollowing, bind_eq_ok, okOr_eq_ok] at hturn ⊢
      obtain ⟨following, hnext, heq⟩ := hturn
      cases heq
      exact ⟨_, _, ⟨following, hnext, rfl⟩, rfl, h.nodes.create hnames _ following, h.relations,
        h.aligned⟩
    · simp only [hknown] at hturn
      cases hturn
      exact ⟨_, _, rfl, rfl, h⟩
  · obtain ⟨record', hget, hid⟩ := inv₁.getNode_of_name hnames
    have hsecond : PathHydra.planNode c₁ q name payload = .ok (record', q) := by
      simp only [PathHydra.planNode, hnames, hget, ok_bind]
      rfl
    rcases h.nodes.known _ _ hnames with hold | ⟨hnone, existing, hplanned, rfl⟩
    · obtain ⟨r, hr, hrid⟩ := inv.getNode_of_name hold
      simp only [PathHydra.planNode, hold, hr, ok_bind] at hturn
      cases hturn
      exact ⟨record', q, hsecond, hrid.trans hid.symm, h⟩
    · have hplanned : p.plannedNodeNames name.asStr = some existing := hplanned
      simp only [PathHydra.planNode, hnone, hplanned] at hturn
      cases hturn
      exact ⟨record', q, hsecond, hid.symm, h⟩

lemma RecordSim.planRelation (inv : CatalogInv c t) (inv₁ : CatalogInv c₁ t₁)
    (h : RecordSim c c₁ plan₀ cs offset p q) {name : RelationName}
    {record : RelationRecord} (hturn : planRelation c p name = .ok (record, p')) :
    ∃ record' q', planRelation c₁ q name = .ok (record', q') ∧ record.id = record'.id ∧
      RecordSim c c₁ plan₀ cs offset p' q' := by
  rcases hnames : c₁.relationNames name.asStr with _ | id
  · obtain ⟨hnone, hplanned⟩ := h.relations.unknown _ hnames
    have hsame : p.plannedRelationNames name.asStr = q.plannedRelationNames name.asStr := hplanned
    simp only [PathHydra.planRelation, hnone] at hturn
    simp only [PathHydra.planRelation, hnames]
    rw [hsame] at hturn
    rcases hknown : q.plannedRelationNames name.asStr with _ | existing
    · have hfollowing : p.followingRelation = q.followingRelation := h.relations.following
      simp only [hknown, hfollowing, bind_eq_ok, okOr_eq_ok] at hturn ⊢
      obtain ⟨following, hnext, heq⟩ := hturn
      cases heq
      exact ⟨_, _, ⟨following, hnext, rfl⟩, rfl, h.nodes, h.relations.create hnames _ following,
        h.aligned⟩
    · simp only [hknown] at hturn
      cases hturn
      exact ⟨_, _, rfl, rfl, h⟩
  · obtain ⟨record', hget, hid⟩ := inv₁.getRelation_of_name hnames
    have hsecond : PathHydra.planRelation c₁ q name = .ok (record', q) := by
      simp only [PathHydra.planRelation, hnames, hget, ok_bind]
      rfl
    rcases h.relations.known _ _ hnames with hold | ⟨hnone, existing, hplanned, rfl⟩
    · obtain ⟨r, hr, hrid⟩ := inv.getRelation_of_name hold
      simp only [PathHydra.planRelation, hold, hr, ok_bind] at hturn
      cases hturn
      exact ⟨record', q, hsecond, hrid.trans hid.symm, h⟩
    · have hplanned : p.plannedRelationNames name.asStr = some existing := hplanned
      simp only [PathHydra.planRelation, hnone, hplanned] at hturn
      cases hturn
      exact ⟨record', q, hsecond, hid.symm, h⟩

lemma RecordSim.step (inv : CatalogInv c t) (inv₁ : CatalogInv c₁ t₁)
    (h : RecordSim c c₁ plan₀ cs offset p q) {candidate : Candidate} {i : ℕ}
    (hturn : planRecord c p (candidate, offset + i) = .ok p') :
    ∃ q', planRecord c₁ q (candidate, i) = .ok q' ∧ RecordSim c c₁ plan₀ cs offset p' q' := by
  rcases candidate with ⟨id, name, payload, count⟩ | ⟨id, name, count⟩ | _
  · simp only [planRecord, bind_eq_ok] at hturn ⊢
    obtain ⟨⟨record, p₁⟩, hplan, heq⟩ := hturn
    obtain ⟨record', q₁, hplan', hid, h₁⟩ := h.planNode inv inv₁ hplan
    cases heq
    refine ⟨_, ⟨_, hplan', rfl⟩, h₁.nodes.resolve id hid, h₁.relations,
      aligned_step ?_ h₁.aligned⟩
    simp only [ConfirmedRecord.key, hid]
  · simp only [planRecord, bind_eq_ok] at hturn ⊢
    obtain ⟨⟨record, p₁⟩, hplan, heq⟩ := hturn
    obtain ⟨record', q₁, hplan', hid, h₁⟩ := h.planRelation inv inv₁ hplan
    cases heq
    refine ⟨_, ⟨_, hplan', rfl⟩, h₁.nodes, h₁.relations.resolve id hid,
      aligned_step ?_ h₁.aligned⟩
    simp only [ConfirmedRecord.key, hid]
  · cases hturn
    exact ⟨q, rfl, h⟩

/-- Both plans run over the nodes and relation kinds of the piece. -/
lemma RecordSim.run (inv : CatalogInv c t) (inv₁ : CatalogInv c₁ t₁)
    (h : RecordSim c c₁ plan₀ cs offset p q)
    (hrun : (cs.zipIdx offset).foldlM (planRecord c) p = .ok p') :
    ∃ q', cs.zipIdx.foldlM (planRecord c₁) q = .ok q' ∧ RecordSim c c₁ plan₀ cs offset p' q' := by
  rw [List.zipIdx_eq_map_add, List.foldlM_map] at hrun
  exact foldlM_simulates (fun _ _ _ _ _ hsim hturn => hsim.step inv inv₁ hturn) h hrun

end Records

/-! ## What a turn leaves alone -/

section Frames

variable {plan plan' : ConfirmPlan} {candidate : Candidate} {index : ℕ}

/-- A turn over the nodes and relation kinds changes what belongs to its candidate. -/
structure ConfirmPlan.Extends (plan plan' : ConfirmPlan) (id : CandidateId) (index : ℕ) : Prop where
  aligned : ∀ j, j ≠ index → plan'.aligned j = plan.aligned j
  nodes : ∀ id', id' ≠ id → plan'.resolvedNodes id' = plan.resolvedNodes id'
  relations : ∀ id', id' ≠ id → plan'.resolvedRelations id' = plan.resolvedRelations id'
  created : plan.createdRelations <+: plan'.createdRelations

lemma planNode_frame {name : NodeName} {payload : NodePayload} {record : NodeRecord}
    (h : planNode c plan name payload = .ok (record, plan')) :
    ∃ following planned created, plan' = { plan with
      followingNode := following, plannedNodeNames := planned, createdNodes := created } := by
  unfold planNode at h
  rcases hnames : c.nodeNames name.asStr with _ | existing
  · rcases hplanned : plan.plannedNodeNames name.asStr with _ | existing
    · simp only [hnames, hplanned, bind_eq_ok] at h
      obtain ⟨following, -, heq⟩ := h
      cases heq
      exact ⟨_, _, _, rfl⟩
    · simp only [hnames, hplanned] at h
      cases h
      exact ⟨_, _, _, rfl⟩
  · simp only [hnames, bind_eq_ok] at h
    obtain ⟨r, -, heq⟩ := h
    cases heq
    exact ⟨_, _, _, rfl⟩

lemma planRelation_frame {name : RelationName} {record : RelationRecord}
    (h : planRelation c plan name = .ok (record, plan')) :
    ∃ following planned extra, plan' = { plan with
      followingRelation := following, plannedRelationNames := planned,
      createdRelations := plan.createdRelations ++ extra } := by
  have hsame : ∃ following planned extra, plan = { plan with
      followingRelation := following, plannedRelationNames := planned,
      createdRelations := plan.createdRelations ++ extra } :=
    ⟨plan.followingRelation, plan.plannedRelationNames, [], by simp⟩
  unfold planRelation at h
  rcases hnames : c.relationNames name.asStr with _ | existing
  · rcases hplanned : plan.plannedRelationNames name.asStr with _ | existing
    · simp only [hnames, hplanned, bind_eq_ok] at h
      obtain ⟨following, -, heq⟩ := h
      cases heq
      exact ⟨_, _, _, rfl⟩
    · simp only [hnames, hplanned] at h
      cases h
      exact hsame
  · simp only [hnames, bind_eq_ok] at h
    obtain ⟨r, -, heq⟩ := h
    cases heq
    exact hsame

lemma planRecord_extends (h : planRecord c plan (candidate, index) = .ok plan') :
    plan.Extends plan' candidate.id index := by
  rcases candidate with ⟨id, name, payload, count⟩ | ⟨id, name, count⟩ | _
  · simp only [planRecord, bind_eq_ok] at h
    obtain ⟨⟨record, plan₁⟩, hplan, heq⟩ := h
    obtain ⟨following, planned, created, rfl⟩ := planNode_frame hplan
    cases heq
    exact ⟨fun j hj => Function.update_of_ne hj _ _, fun id' hid => Function.update_of_ne hid _ _,
      fun _ _ => rfl, List.prefix_rfl⟩
  · simp only [planRecord, bind_eq_ok] at h
    obtain ⟨⟨record, plan₁⟩, hplan, heq⟩ := h
    obtain ⟨following, planned, extra, rfl⟩ := planRelation_frame hplan
    cases heq
    exact ⟨fun j hj => Function.update_of_ne hj _ _, fun _ _ => rfl,
      fun id' hid => Function.update_of_ne hid _ _, List.prefix_append _ _⟩
  · cases h
    exact ⟨fun _ _ => rfl, fun _ _ => rfl, fun _ _ => rfl, List.prefix_rfl⟩

/-- The turn of a node or relation-kind candidate gives its position a record. -/
lemma planRecord_aligned (h : planRecord c plan (candidate, index) = .ok plan')
    (hkind : candidate.IsNode ∨ candidate.IsRelation) : ∃ r, plan'.aligned index = some r := by
  rcases candidate with ⟨id, name, payload, count⟩ | ⟨id, name, count⟩ | _
  · simp only [planRecord, bind_eq_ok] at h
    obtain ⟨⟨record, plan₁⟩, -, heq⟩ := h
    cases heq
    exact ⟨_, Function.update_self _ _ _⟩
  · simp only [planRecord, bind_eq_ok] at h
    obtain ⟨⟨record, plan₁⟩, -, heq⟩ := h
    cases heq
    exact ⟨_, Function.update_self _ _ _⟩
  · exact absurd hkind (by simp [Candidate.IsNode, Candidate.IsRelation])

/-- A turn over the edges changes at most one position, and fills it. -/
lemma planEdge_aligned {db : Database} (h : planEdge db plan (candidate, index) = .ok plan') :
    (∀ j, j ≠ index → plan'.aligned j = plan.aligned j) ∧
      (plan'.aligned index = plan.aligned index ∨ ∃ r, plan'.aligned index = some r) ∧
      (¬ (candidate.IsNode ∨ candidate.IsRelation) → ∃ r, plan'.aligned index = some r) := by
  rcases candidate with _ | _ | ⟨id, source, destination, relationKind, baseWeight⟩
  · cases h
    exact ⟨fun _ _ => rfl, .inl rfl, fun hkind => absurd (.inl trivial) hkind⟩
  · cases h
    exact ⟨fun _ _ => rfl, .inl rfl, fun hkind => absurd (.inr trivial) hkind⟩
  · obtain ⟨_, _, _, _, _, _, _, _, -, -, -, -, -, -, -, -, rfl⟩ := planEdge_edge.1 h
    exact ⟨fun j hj => Function.update_of_ne hj _ _, .inr ⟨_, Function.update_self _ _ _⟩,
      fun _ => ⟨_, Function.update_self _ _ _⟩⟩

end Frames

/-- Every position of a plan has its record. -/
lemma Plans.aligned {cs : List Candidate} {plan : ConfirmPlan} (h : Plans c t cs plan) {i : ℕ}
    (hi : i < cs.length) : ∃ r, plan.aligned i = some r := by
  obtain ⟨plan₁, hrecords, hedges⟩ := h
  have hmem : (cs[i], i) ∈ cs.zipIdx := List.mk_mem_zipIdx_iff_getElem?.2 (List.getElem?_eq_getElem hi)
  have hkeep : ∀ indexed ∈ cs.zipIdx, ∀ plan plan', planEdge c.db plan indexed = .ok plan' →
      (∃ r, plan.aligned i = some r) → ∃ r, plan'.aligned i = some r := by
    rintro ⟨candidate, index⟩ - plan plan' hturn ⟨r, hr⟩
    obtain ⟨hother, hsame, -⟩ := planEdge_aligned hturn
    by_cases hindex : i = index
    · subst hindex
      rcases hsame with hsame | hsome
      · exact ⟨r, hsame.trans hr⟩
      · exact hsome
    · exact ⟨r, (hother i hindex).trans hr⟩
  by_cases hkind : (cs[i]).IsNode ∨ (cs[i]).IsRelation
  · refine foldlM_preserves hkeep hedges
      (foldlM_reaches (P := fun plan => ∃ r, plan.aligned i = some r)
        (fun indexed _ plan plan' hturn hsome => ?_) hmem
        (fun plan plan' hturn => planRecord_aligned hturn hkind) hrecords)
    obtain ⟨candidate, index⟩ := indexed
    obtain ⟨r, hr⟩ := hsome
    by_cases hindex : i = index
    · subst hindex
      rcases candidate with _ | _ | _
      · exact planRecord_aligned hturn (.inl trivial)
      · exact planRecord_aligned hturn (.inr trivial)
      · cases hturn
        exact ⟨r, hr⟩
    · exact ⟨r, ((planRecord_extends hturn).aligned i hindex).trans hr⟩
  · exact foldlM_reaches (P := fun plan => ∃ r, plan.aligned i = some r) hkeep hmem
      (fun plan plan' hturn => (planEdge_aligned hturn).2.2 hkind) hedges

lemma Confirms.length_records {ids : List CandidateId} {result : CandidateBatchConfirmation}
    {c' : Catalog} {cs : List Candidate} {plan : ConfirmPlan} {changes : List RelationChange}
    (h : Confirms c t ids result c' cs plan changes) : result.records.length = ids.length := by
  rw [h.records, ← h.ids_eq, List.length_map]
  refine (List.filterMap_length_eq_length.2 fun i hi => ?_).trans List.length_range
  obtain ⟨r, hr⟩ := h.plans.aligned (List.mem_range.1 hi)
  rw [hr, Option.isSome_some]

end PathHydra
