import PathHydra.Properties.Store.Selection

/-!
# Confirmation keeps the invariant

The first planning loop finds or creates a node or relation kind for each such candidate: created
records have consecutive identifiers and names of their own (`PlannedRecords`).  The second creates
the edges and follows, for every relation kind they use, how many provisional references it loses
and how many edges it gains (`EdgesPlanned`).
-/

namespace PathHydra

variable {t : Tables} {c : Catalog}

/-! ## Created records -/

/-- Consecutive identifiers are different. -/
lemma nodup_of_consecutive {k : IdKind} {R : Type} {idOf : R → DurableId k} {first : U64}
    {l : List R} (h : ∀ (i : ℕ) r, l[i]? = some r → (idOf r).asU64.val = first.val + i) :
    (l.map idOf).Nodup := by
  rw [List.nodup_iff_getElem?_ne_getElem?]
  intro i j hij hj heq
  rw [List.length_map] at hj
  rw [List.getElem?_map, List.getElem?_map, List.getElem?_eq_getElem (hij.trans hj),
    List.getElem?_eq_getElem hj, Option.map_some, Option.map_some] at heq
  have hval := congrArg (fun id : DurableId k => id.asU64.val) (Option.some.inj heq)
  simp only [h i _ (List.getElem?_eq_getElem (hij.trans hj)),
    h j _ (List.getElem?_eq_getElem hj)] at hval
  omega

/-- Consecutive identifiers leave no gap. -/
lemma exists_of_consecutive {k : IdKind} {R : Type} {idOf : R → DurableId k} {first : U64}
    {l : List R} (h : ∀ (i : ℕ) r, l[i]? = some r → (idOf r).asU64.val = first.val + i)
    {id : DurableId k} (hle : first.val ≤ id.asU64.val)
    (hlt : id.asU64.val < first.val + l.length) : ∃ r ∈ l, idOf r = id := by
  have hindex : id.asU64.val - first.val < l.length := by omega
  have hget := List.getElem?_eq_getElem hindex
  refine ⟨_, List.mem_of_getElem? hget, DurableId.ext_val ?_⟩
  rw [h _ _ hget]
  omega

section Planned

variable {k : IdKind} {R : Type} (tab : SortedMap (DurableId k) R) (idOf : R → DurableId k)
  (nameOf : R → String) (names : String → Option (DurableId k)) (good : R → Prop) (first : U64)

/-- What the planning of records of one kind has established. -/
structure PlannedRecords (following : U64) (planned : String → Option R) (created : List R)
    (resolved : CandidateId → Option R) : Prop where
  following_eq : following.val = first.val + created.length
  ids : ∀ (i : ℕ) r, created[i]? = some r → (idOf r).asU64.val = first.val + i
  planned_iff : ∀ s r, planned s = some r ↔ r ∈ created ∧ nameOf r = s
  names_nodup : (created.map nameOf).Nodup
  unused : ∀ r ∈ created, names (nameOf r) = none
  good_of_mem : ∀ r ∈ created, good r
  resolved_cases : ∀ id r, resolved id = some r → tab.get (idOf r) = some r ∨ r ∈ created

variable {tab idOf nameOf names good first} {following : U64} {planned : String → Option R}
  {created : List R} {resolved : CandidateId → Option R}

/-- A candidate resolves to a record that is there. -/
lemma PlannedRecords.resolve
    (h : PlannedRecords tab idOf nameOf names good first following planned created resolved)
    (id : CandidateId) {r : R} (hr : tab.get (idOf r) = some r ∨ r ∈ created) :
    PlannedRecords tab idOf nameOf names good first following planned created
      (Function.update resolved id (some r)) := by
  refine { h with resolved_cases := fun id' r' hr' => ?_ }
  by_cases hid : id' = id
  · subst hid
    rw [Function.update_self] at hr'
    cases hr'
    exact hr
  · rw [Function.update_of_ne hid] at hr'
    exact h.resolved_cases id' r' hr'

/-- A new record takes the next identifier. -/
lemma PlannedRecords.create
    (h : PlannedRecords tab idOf nameOf names good first following planned created resolved)
    {r : R} (hid : (idOf r).asU64 = following) (hname : names (nameOf r) = none)
    (hplanned : planned (nameOf r) = none) (hgood : good r) {following' : U64}
    (hfollowing : following.val + 1 = following'.val) :
    PlannedRecords tab idOf nameOf names good first following'
      (Function.update planned (nameOf r) (some r)) (created ++ [r]) resolved := by
  -- the name is planned for the first time
  have hnew : ∀ r' ∈ created, nameOf r' ≠ nameOf r := by
    intro r' hr' heq
    rw [(h.planned_iff (nameOf r) r').2 ⟨hr', heq⟩] at hplanned
    cases hplanned
  have hlast : ∀ (P : R → Prop), (∀ r' ∈ created, P r') → P r → ∀ r' ∈ created ++ [r], P r' := by
    intro P hall hr r' hr'
    rcases List.mem_append.1 hr' with hr' | hr'
    · exact hall r' hr'
    · rw [List.mem_singleton.1 hr']
      exact hr
  refine ⟨?_, fun i r' hr' => ?_, fun s r' => ?_, ?_, hlast _ h.unused hname,
    hlast _ h.good_of_mem hgood, fun id' r' hr' => ?_⟩
  · rw [List.length_append, List.length_singleton, ← hfollowing, h.following_eq]
    omega
  · rw [List.getElem?_append] at hr'
    split_ifs at hr' with hi
    · exact h.ids i r' hr'
    · have hzero := lt_length_of_getElem? hr'
      simp only [List.length_singleton] at hzero
      rw [show i - created.length = 0 by omega] at hr'
      cases hr'
      rw [hid, h.following_eq]
      omega
  · by_cases hs : s = nameOf r
    · subst hs
      rw [Function.update_self]
      constructor
      · intro heq
        cases heq
        exact ⟨by simp, rfl⟩
      · rintro ⟨hr', heq⟩
        rcases List.mem_append.1 hr' with hr' | hr'
        · exact absurd heq (hnew r' hr')
        · rw [List.mem_singleton.1 hr']
    · rw [Function.update_of_ne hs, h.planned_iff s r', List.mem_append, List.mem_singleton]
      constructor
      · exact fun hr' => ⟨.inl hr'.1, hr'.2⟩
      · rintro ⟨hr' | rfl, heq⟩
        · exact ⟨hr', heq⟩
        · exact absurd heq.symm hs
  · rw [List.map_append, List.map_singleton, List.nodup_append]
    refine ⟨h.names_nodup, by simp, fun s hs s' hs' => ?_⟩
    obtain ⟨r', hr', rfl⟩ := List.mem_map.1 hs
    rw [List.mem_singleton.1 hs']
    exact hnew r' hr'
  · exact (h.resolved_cases id' r' hr').imp_right fun hmem => List.mem_append_left _ hmem

/-- The identifiers of the created records lie between the counters. -/
lemma PlannedRecords.id_range
    (h : PlannedRecords tab idOf nameOf names good first following planned created resolved) {r : R}
    (hr : r ∈ created) :
    first.val ≤ (idOf r).asU64.val ∧ (idOf r).asU64.val < following.val := by
  obtain ⟨i, hi⟩ := List.getElem?_of_mem hr
  have hlt := lt_length_of_getElem? hi
  rw [h.ids i r hi, h.following_eq]
  omega

lemma PlannedRecords.exists_of_range
    (h : PlannedRecords tab idOf nameOf names good first following planned created resolved)
    {id : DurableId k} (hle : first.val ≤ id.asU64.val) (hlt : id.asU64.val < following.val) :
    ∃ r ∈ created, idOf r = id :=
  exists_of_consecutive h.ids hle (lt_of_lt_of_eq hlt h.following_eq)

lemma PlannedRecords.newRecords
    (h : PlannedRecords tab idOf nameOf names good first following planned created resolved)
    (hbelow : ∀ id r, tab.get id = some r → id.asU64.val < first.val)
    (hnames : NamesOf names (fun r => tab.get (idOf r) = some r) nameOf idOf) :
    NewRecords tab idOf nameOf created := by
  refine ⟨nodup_of_consecutive h.ids, fun r hr => ?_, h.names_nodup, fun r hr r' hr' heq => ?_⟩
  · rcases hget : tab.get (idOf r) with _ | r'
    · rfl
    · have hlt := hbelow _ _ hget
      have hle := (h.id_range hr).1
      omega
  · have hsome := (hnames (nameOf r) (idOf r')).2 ⟨r', hr', heq, rfl⟩
    rw [h.unused r hr] at hsome
    cases hsome

end Planned

/-! ## The loop over nodes and relation kinds -/

/-- What a created relation kind is. -/
def IsNewRelation (r : RelationRecord) : Prop :=
  NameFits r.name.asStr ∧ r.provisionalReferenceCount.val = 0 ∧ r.confirmedEdgeCount.val = 0

/-- What the first planning loop has established. -/
structure RecordsPlanned (c : Catalog) (t : Tables) (plan : ConfirmPlan) : Prop where
  nodes : PlannedRecords t.nodes NodeRecord.id (fun r => r.name.asStr) c.nodeNames NodeRecord.Fits
    t.metadata.nextNode plan.followingNode plan.plannedNodeNames plan.createdNodes
    plan.resolvedNodes
  relations : PlannedRecords t.relations RelationRecord.id (fun r => r.name.asStr) c.relationNames
    IsNewRelation t.metadata.nextRelation plan.followingRelation plan.plannedRelationNames
    plan.createdRelations plan.resolvedRelations
  followingEdge : plan.followingEdge = t.metadata.nextEdge
  createdEdges : plan.createdEdges = []
  usage : plan.usage = .empty

lemma RecordsPlanned.new (c : Catalog) (t : Tables) :
    RecordsPlanned c t (.new t.metadata.nextNode t.metadata.nextRelation t.metadata.nextEdge) := by
  refine ⟨⟨rfl, ?_, ?_, List.nodup_nil, ?_, ?_, ?_⟩, ⟨rfl, ?_, ?_, List.nodup_nil, ?_, ?_, ?_⟩, rfl,
    rfl, rfl⟩
  all_goals simp [ConfirmPlan.new]

/-- The counters stay below their bound when so many records are added. -/
structure Tables.HasRoom (t : Tables) (n : ℕ) : Prop where
  node : t.metadata.nextNode.val + n < 2 ^ 64
  relation : t.metadata.nextRelation.val + n < 2 ^ 64
  edge : t.metadata.nextEdge.val + n < 2 ^ 64
  usage : ∀ r, t.HasRelation r →
    r.provisionalReferenceCount.val + r.confirmedEdgeCount.val + n < 2 ^ 64

/-- Every node and relation-kind candidate of the list has its record. -/
structure PlanResolves (cs : List Candidate) (plan : ConfirmPlan) : Prop where
  node : ∀ candidate ∈ cs, candidate.IsNode → ∃ r, plan.resolvedNodes candidate.id = some r
  relation : ∀ candidate ∈ cs, candidate.IsRelation →
    ∃ r, plan.resolvedRelations candidate.id = some r

/-- The record can be written, so its size in a response is bounded. -/
def ConfirmedRecord.Fits : ConfirmedRecord → Prop
  | .node record => record.Fits
  | .relation record => NameFits record.name.asStr
  | .edge _ => True

lemma aligned_update {aligned : ℕ → Option ConfirmedRecord}
    (h : ∀ i r, aligned i = some r → r.Fits) (index : ℕ) {r : ConfirmedRecord} (hr : r.Fits) :
    ∀ i r', Function.update aligned index (some r) i = some r' → r'.Fits := by
  intro i r' hr'
  by_cases hi : i = index
  · rw [hi, Function.update_self] at hr'
    exact Option.some.inj hr' ▸ hr
  · rw [Function.update_of_ne hi] at hr'
    exact h i r' hr'

/-- What the first planning loop has established after some candidates. -/
structure RecordsResolved (c : Catalog) (t : Tables) (pre : List Candidate) (plan : ConfirmPlan) :
    Prop where
  planned : RecordsPlanned c t plan
  resolves : PlanResolves pre plan
  nodes_le : plan.createdNodes.length ≤ pre.length
  relations_le : plan.createdRelations.length ≤ pre.length
  aligned : ∀ i r, plan.aligned i = some r → r.Fits

lemma RecordsResolved.new (c : Catalog) (t : Tables) : RecordsResolved c t []
    (.new t.metadata.nextNode t.metadata.nextRelation t.metadata.nextEdge) :=
  ⟨RecordsPlanned.new c t, ⟨by simp, by simp⟩, le_rfl, le_rfl, by simp [ConfirmPlan.new]⟩

lemma planNode_ensures {P : Prop} (inv : CatalogInv c t) {plan : ConfirmPlan}
    (hplan : RecordsPlanned c t plan) {name : NodeName} {payload : NodePayload}
    (hname : NameFits name.asStr) (hpayload : PayloadFits payload)
    (hroom : P → plan.followingNode.val + 1 < 2 ^ 64) :
    Ensures (planNode c plan name payload) (fun out => RecordsPlanned c t out.2 ∧
      (t.HasNode out.1 ∨ out.1 ∈ out.2.createdNodes) ∧
      ∃ following planned created, created.length ≤ plan.createdNodes.length + 1 ∧
        out.2 = { plan with
          followingNode := following, plannedNodeNames := planned, createdNodes := created })
      (Blocked P) := by
  have hsame : ∃ following planned created, created.length ≤ plan.createdNodes.length + 1 ∧
      plan = { plan with
        followingNode := following, plannedNodeNames := planned, createdNodes := created } :=
    ⟨_, _, _, Nat.le_succ _, rfl⟩
  unfold planNode
  rcases hnames : c.nodeNames name.asStr with _ | existing
  · dsimp only
    rcases hplanned : plan.plannedNodeNames name.asStr with _ | existing
    · refine (ensures_okOr (fun n hn => U64.checkedAdd_eq_some.1 hn)
        fun hnone => ⟨fun hcorrupt => hcorrupt, not_of_overflow hnone hroom⟩).bind
        fun following hfollowing => ?_
      refine ensures_pure ⟨{ hplan with nodes := ?_ }, .inr (by simp), _, _, _, ?_, rfl⟩
      · exact hplan.nodes.create (r := ⟨⟨plan.followingNode⟩, name, payload⟩) rfl hnames hplanned
          ⟨hname, hpayload⟩ hfollowing
      · rw [List.length_append, List.length_singleton]
    · exact ensures_pure ⟨hplan, .inr ((hplan.nodes.planned_iff _ _).1 hplanned).1, hsame⟩
  · obtain ⟨r, hr, -, rfl⟩ := (inv.nodeNames _ _).1 hnames
    simp only [inv.represents.getNode_eq, show t.nodes.get r.id = some r from hr, okOr_some, ok_bind]
    exact ensures_pure ⟨hplan, .inl hr, hsame⟩

lemma planRelation_ensures {P : Prop} (inv : CatalogInv c t) {plan : ConfirmPlan}
    (hplan : RecordsPlanned c t plan) {name : RelationName} (hname : NameFits name.asStr)
    (hroom : P → plan.followingRelation.val + 1 < 2 ^ 64) :
    Ensures (planRelation c plan name) (fun out => RecordsPlanned c t out.2 ∧
      (t.HasRelation out.1 ∨ out.1 ∈ out.2.createdRelations) ∧
      ∃ following planned created, created.length ≤ plan.createdRelations.length + 1 ∧
        out.2 = { plan with
          followingRelation := following, plannedRelationNames := planned,
          createdRelations := created })
      (Blocked P) := by
  have hsame : ∃ following planned created, created.length ≤ plan.createdRelations.length + 1 ∧
      plan = { plan with
        followingRelation := following, plannedRelationNames := planned,
        createdRelations := created } :=
    ⟨_, _, _, Nat.le_succ _, rfl⟩
  unfold planRelation
  rcases hnames : c.relationNames name.asStr with _ | existing
  · dsimp only
    rcases hplanned : plan.plannedRelationNames name.asStr with _ | existing
    · refine (ensures_okOr (fun n hn => U64.checkedAdd_eq_some.1 hn)
        fun hnone => ⟨fun hcorrupt => hcorrupt, not_of_overflow hnone hroom⟩).bind
        fun following hfollowing => ?_
      refine ensures_pure ⟨{ hplan with relations := ?_ }, .inr (by simp), _, _, _, ?_, rfl⟩
      · exact hplan.relations.create (r := RelationRecord.new ⟨plan.followingRelation⟩ name) rfl
          hnames hplanned ⟨hname, rfl, rfl⟩ hfollowing
      · rw [List.length_append, List.length_singleton]
    · exact ensures_pure ⟨hplan, .inr ((hplan.relations.planned_iff _ _).1 hplanned).1, hsame⟩
  · obtain ⟨r, hr, -, rfl⟩ := (inv.relationNames _ _).1 hnames
    simp only [inv.represents.getRelation_eq, show t.relations.get r.id = some r from hr, okOr_some,
      ok_bind]
    exact ensures_pure ⟨hplan, .inl hr, hsame⟩

/-- A resolved candidate stays resolved. -/
lemma exists_update {R : Type} {resolved : CandidateId → Option R} {id id' : CandidateId} {r : R}
    (h : id' = id ∨ ∃ r', resolved id' = some r') :
    ∃ r', Function.update resolved id (some r) id' = some r' := by
  by_cases hid : id' = id
  · exact ⟨r, by rw [hid, Function.update_self]⟩
  · rw [Function.update_of_ne hid]
    exact h.resolve_left hid

lemma planRecord_ensures (inv : CatalogInv c t) {n : ℕ} {pre : List Candidate} (hlt : pre.length < n)
    {plan : ConfirmPlan} (hplan : RecordsResolved c t pre plan) {candidate : Candidate}
    (hfits : candidate.Fits) (index : ℕ) :
    Ensures (planRecord c plan (candidate, index)) (RecordsResolved c t (pre ++ [candidate]))
      (Blocked (t.HasRoom n)) := by
  obtain ⟨hplanned, ⟨hnodes, hrelations⟩, hnodes_le, hrelations_le, haligned⟩ := hplan
  rcases candidate with ⟨id, name, payload, count⟩ | ⟨id, name, count⟩ | _
  · -- every candidate takes one identifier at most, so with room for all there is one for this
    have hroom : t.HasRoom n → plan.followingNode.val + 1 < 2 ^ 64 := by
      intro h
      have hbound := h.node
      have hfollowing := hplanned.nodes.following_eq
      omega
    refine (planNode_ensures inv hplanned hfits.1 hfits.2 hroom).bind fun out hout => ?_
    obtain ⟨record, plan'⟩ := out
    obtain ⟨hplanned', hrecord, following, planned, created, hlength, rfl⟩ := hout
    refine ensures_pure ⟨{ hplanned' with nodes := hplanned'.nodes.resolve id hrecord },
      ⟨fun candidate hmem hnode => exists_update ?_, fun candidate hmem hrelation => ?_⟩, ?_, ?_,
      aligned_update haligned index ?_⟩
    · rcases List.mem_append.1 hmem with hmem | hmem
      · exact .inr (hnodes candidate hmem hnode)
      · left
        rw [List.mem_singleton.1 hmem]
        rfl
    · rcases List.mem_append.1 hmem with hmem | hmem
      · exact hrelations candidate hmem hrelation
      · rw [List.mem_singleton.1 hmem] at hrelation
        exact hrelation.elim
    · rw [List.length_append, List.length_singleton]
      exact hlength.trans (Nat.succ_le_succ hnodes_le)
    · rw [List.length_append, List.length_singleton]
      exact hrelations_le.trans (Nat.le_succ _)
    · exact hrecord.elim (inv.writable.node record) (hplanned'.nodes.good_of_mem record)
  · have hroom : t.HasRoom n → plan.followingRelation.val + 1 < 2 ^ 64 := by
      intro h
      have hbound := h.relation
      have hfollowing := hplanned.relations.following_eq
      omega
    refine (planRelation_ensures inv hplanned hfits hroom).bind fun out hout => ?_
    obtain ⟨record, plan'⟩ := out
    obtain ⟨hplanned', hrecord, following, planned, created, hlength, rfl⟩ := hout
    refine ensures_pure ⟨{ hplanned' with relations := hplanned'.relations.resolve id hrecord },
      ⟨fun candidate hmem hnode => ?_, fun candidate hmem hrelation => exists_update ?_⟩, ?_, ?_,
      aligned_update haligned index ?_⟩
    · rcases List.mem_append.1 hmem with hmem | hmem
      · exact hnodes candidate hmem hnode
      · rw [List.mem_singleton.1 hmem] at hnode
        exact hnode.elim
    · rcases List.mem_append.1 hmem with hmem | hmem
      · exact .inr (hrelations candidate hmem hrelation)
      · left
        rw [List.mem_singleton.1 hmem]
        rfl
    · rw [List.length_append, List.length_singleton]
      exact hnodes_le.trans (Nat.le_succ _)
    · rw [List.length_append, List.length_singleton]
      exact hlength.trans (Nat.succ_le_succ hrelations_le)
    · exact hrecord.elim (fun hstored => (inv.writable.relation record hstored).name)
        fun hcreated => (hplanned'.relations.good_of_mem record hcreated).1
  · refine ensures_pure ⟨hplanned, ⟨fun candidate hmem hnode => ?_,
      fun candidate hmem hrelation => ?_⟩, ?_, ?_, haligned⟩
    · rcases List.mem_append.1 hmem with hmem | hmem
      · exact hnodes candidate hmem hnode
      · rw [List.mem_singleton.1 hmem] at hnode
        exact hnode.elim
    · rcases List.mem_append.1 hmem with hmem | hmem
      · exact hrelations candidate hmem hrelation
      · rw [List.mem_singleton.1 hmem] at hrelation
        exact hrelation.elim
    · exact hnodes_le.trans (by simp)
    · exact hrelations_le.trans (by simp)

lemma planRecords_ensures (inv : CatalogInv c t) {cs : List Candidate}
    (hfits : ∀ c ∈ cs, c.Fits) {plan : ConfirmPlan} (hplan : RecordsResolved c t [] plan) :
    Ensures (cs.zipIdx.foldlM (planRecord c) plan) (RecordsResolved c t cs)
      (Blocked (t.HasRoom cs.length)) := by
  refine ensures_foldlM_zipIdx (I := RecordsResolved c t) cs
    (fun pre candidate post plan hsplit hplan => ?_) hplan
  have hlt : pre.length < cs.length := by
    rw [hsplit, List.length_append, List.length_cons]
    omega
  exact planRecord_ensures inv hlt hplan (hfits candidate (by simp [hsplit])) pre.length

/-! ## The loop over edges -/

/-- The node is stored, or created by the batch. -/
def BaseNode (t : Tables) (created : List NodeRecord) (id : NodeId) : Prop :=
  ∃ r, r.id = id ∧ (t.HasNode r ∨ r ∈ created)

/-- The relation kind before the edges of the batch: as it is stored, or as it is created. -/
def BaseRelation (t : Tables) (created : List RelationRecord) (id : RelationId)
    (r : RelationRecord) : Prop :=
  r.id = id ∧ (t.HasRelation r ∨ r ∈ created)

/-- What the second planning loop has established after some candidates. -/
structure EdgesPlanned (c : Catalog) (t : Tables) (pre : List Candidate) (plan : ConfirmPlan) :
    Prop where
  nodes : PlannedRecords t.nodes NodeRecord.id (fun r => r.name.asStr) c.nodeNames NodeRecord.Fits
    t.metadata.nextNode plan.followingNode plan.plannedNodeNames plan.createdNodes
    plan.resolvedNodes
  relations : PlannedRecords t.relations RelationRecord.id (fun r => r.name.asStr) c.relationNames
    IsNewRelation t.metadata.nextRelation plan.followingRelation plan.plannedRelationNames
    plan.createdRelations plan.resolvedRelations
  following_eq : plan.followingEdge.val = t.metadata.nextEdge.val + plan.createdEdges.length
  ids : ∀ (i : ℕ) e, plan.createdEdges[i]? = some e → e.id.asU64.val = t.metadata.nextEdge.val + i
  ends : ∀ e ∈ plan.createdEdges, BaseNode t plan.createdNodes e.source ∧
    BaseNode t plan.createdNodes e.destination ∧
    ∃ r, BaseRelation t plan.createdRelations e.relationKind r
  unused : ∀ id, plan.usage.get id = none → (pre.map (Candidate.uses id)).sum = 0 ∧
    (plan.createdEdges.map (EdgeRecord.uses id)).sum = 0
  used : ∀ id r, plan.usage.get id = some r → ∃ base, BaseRelation t plan.createdRelations id base ∧
    r.id = id ∧ r.name = base.name ∧
    r.provisionalReferenceCount.val + (pre.map (Candidate.uses id)).sum =
      base.provisionalReferenceCount.val ∧
    r.confirmedEdgeCount.val =
      base.confirmedEdgeCount.val + (plan.createdEdges.map (EdgeRecord.uses id)).sum ∧
    r.UsageFits

lemma RecordsPlanned.edges {plan : ConfirmPlan} (h : RecordsPlanned c t plan) :
    EdgesPlanned c t [] plan := by
  refine ⟨h.nodes, h.relations, ?_, fun i e he => ?_, fun e he => ?_, fun id _ => ?_,
    fun id r hr => ?_⟩
  · rw [h.followingEdge, h.createdEdges]
    rfl
  · rw [h.createdEdges] at he
    simp at he
  · rw [h.createdEdges] at he
    cases he
  · rw [h.createdEdges]
    exact ⟨rfl, rfl⟩
  · rw [h.usage] at hr
    cases hr

section Edge

variable {plan : ConfirmPlan} {pre cs : List Candidate}

/-- A stored relation kind is its own base. -/
lemma EdgesPlanned.base_stored (h : EdgesPlanned c t pre plan) (inv : CatalogInv c t)
    {id : RelationId} {r base : RelationRecord} (hr : t.relations.get id = some r)
    (hbase : BaseRelation t plan.createdRelations id base) : base = r := by
  obtain ⟨rfl, hhas | hmem⟩ := hbase
  · exact Option.some.inj ((show t.relations.get base.id = some base from hhas).symm.trans hr)
  · have hle := (h.relations.id_range hmem).1
    have hlt := inv.counted.relation _ _ hr
    omega

lemma resolveNode_ensures {E : CatalogError → Prop} (h : EdgesPlanned c t pre plan)
    (hresolves : PlanResolves cs plan) (hdb : Represents c.db t) {r : CandidateNodeReference}
    (hr : SelectedNode t cs r) :
    Ensures (resolveConfirmedNode plan.resolvedNodes r) (BaseNode t plan.createdNodes) E := by
  cases r with
  | confirmed id =>
    obtain ⟨record, hrecord⟩ := hr
    exact ⟨record, hdb.nodes.id_eq _ _ hrecord, .inl (hdb.nodes.has hrecord)⟩
  | candidate id =>
    obtain ⟨candidate, hmem, rfl, hnode⟩ := hr
    obtain ⟨record, hrecord⟩ := hresolves.node candidate hmem hnode
    simp only [resolveConfirmedNode, hrecord, Option.map_some, okOr_some]
    exact ⟨record, rfl, h.nodes.resolved_cases _ record hrecord⟩

lemma resolveRelation_ensures {E : CatalogError → Prop} (h : EdgesPlanned c t pre plan)
    (hresolves : PlanResolves cs plan) (hdb : Represents c.db t) {r : CandidateRelationReference}
    (hr : SelectedRelation t cs r) :
    Ensures (resolveConfirmedRelation plan.resolvedRelations r)
      (fun id => (∀ id', r = .confirmed id' → id = id') ∧
        ∃ base, BaseRelation t plan.createdRelations id base) E := by
  cases r with
  | confirmed id =>
    obtain ⟨record, hrecord⟩ := hr
    refine ⟨fun id' heq => ?_, record, hdb.relations.id_eq _ _ hrecord,
      .inl (hdb.relations.has hrecord)⟩
    cases heq
    rfl
  | candidate id =>
    obtain ⟨candidate, hmem, rfl, hrelation⟩ := hr
    obtain ⟨record, hrecord⟩ := hresolves.relation candidate hmem hrelation
    simp only [resolveConfirmedRelation, hrecord, Option.map_some, okOr_some]
    exact ⟨fun id' heq => (by cases heq), record, rfl, h.relations.resolved_cases _ record hrecord⟩

/-- The record of a relation kind as far as the plan has got. -/
lemma planUsage_ensures {E : CatalogError → Prop} (h : EdgesPlanned c t pre plan)
    (hdb : Represents c.db t) {id : RelationId}
    (hthere : ∃ base, BaseRelation t plan.createdRelations id base) :
    Ensures (planUsage c.db plan id) (fun old => ∃ base,
      BaseRelation t plan.createdRelations id base ∧ old.name = base.name ∧
      old.provisionalReferenceCount.val + (pre.map (Candidate.uses id)).sum =
        base.provisionalReferenceCount.val ∧
      old.confirmedEdgeCount.val =
        base.confirmedEdgeCount.val + (plan.createdEdges.map (EdgeRecord.uses id)).sum)
      E := by
  unfold planUsage
  rcases husage : plan.usage.get id with _ | r
  · obtain ⟨hpre, hedges⟩ := h.unused id husage
    rw [hpre, hedges]
    dsimp only
    split
    · rename_i r hfind
      have hid : r.id = id := by simpa using List.find?_some hfind
      exact ⟨r, ⟨hid, .inr (List.mem_of_find?_eq_some hfind)⟩, rfl, rfl, rfl⟩
    · rename_i hfind
      obtain ⟨r, rfl, hstored | hcreated⟩ := hthere
      · rw [hdb.getRelation_eq, show t.relations.get r.id = some r from hstored]
        exact ⟨r, ⟨rfl, .inl hstored⟩, rfl, rfl, rfl⟩
      · exact absurd (List.find?_eq_none.1 hfind r hcreated) (by simp)
  · obtain ⟨base, hbase, -, hname, hprovisional, hconfirmed, -⟩ := h.used id r husage
    exact ⟨base, hbase, hname, hprovisional, hconfirmed⟩

/-- One provisional reference is left behind when the edge refers to the relation kind itself. -/
lemma remainingProvisional_ensures {E : CatalogError → Prop} {old : RelationRecord} {id : RelationId}
    {r : CandidateRelationReference} (hr : ∀ id', r = .confirmed id' → id = id')
    (hpos : r = .confirmed id → 1 ≤ old.provisionalReferenceCount.val) :
    Ensures (remainingProvisional old id r) (fun p =>
      p.val + (if r = .confirmed id then 1 else 0) = old.provisionalReferenceCount.val)
      E := by
  cases r with
  | confirmed id' =>
    obtain rfl := hr id' rfl
    have hle := hpos rfl
    have hsub : old.provisionalReferenceCount.checkedSub 1 =
        some ⟨old.provisionalReferenceCount.val - 1, by omega⟩ :=
      U64.checkedSub_eq_some.2 (by show 1 + (_ - 1) = _; omega)
    simp only [remainingProvisional, hsub, okOr_some, if_true]
    show old.provisionalReferenceCount.val - 1 + 1 = _
    omega
  | candidate id' => exact by simp [remainingProvisional, Ensures]

/-- A candidate that is no edge changes nothing. -/
lemma EdgesPlanned.skip (h : EdgesPlanned c t pre plan) {candidate : Candidate}
    (huses : ∀ id, candidate.uses id = 0) : EdgesPlanned c t (pre ++ [candidate]) plan := by
  have hsum : ∀ id, ((pre ++ [candidate]).map (Candidate.uses id)).sum =
      (pre.map (Candidate.uses id)).sum := by
    intro id
    simp [huses id]
  refine { h with unused := fun id hid => ?_, used := fun id r hr => ?_ }
  · rw [hsum]
    exact h.unused id hid
  · rw [hsum]
    exact h.used id r hr

/-- One more edge. -/
lemma EdgesPlanned.add (h : EdgesPlanned c t pre plan) {candidate : Candidate} {e : EdgeRecord}
    {r base : RelationRecord} {following : U64} (aligned : ℕ → Option ConfirmedRecord)
    (hid : e.id.asU64 = plan.followingEdge)
    (hfollowing : plan.followingEdge.val + 1 = following.val)
    (hsource : BaseNode t plan.createdNodes e.source)
    (hdestination : BaseNode t plan.createdNodes e.destination)
    (hbase : BaseRelation t plan.createdRelations e.relationKind base)
    (hrid : r.id = e.relationKind) (hname : r.name = base.name)
    (hprovisional : r.provisionalReferenceCount.val + candidate.uses e.relationKind +
      (pre.map (Candidate.uses e.relationKind)).sum = base.provisionalReferenceCount.val)
    (hconfirmed : r.confirmedEdgeCount.val = base.confirmedEdgeCount.val +
      (plan.createdEdges.map (EdgeRecord.uses e.relationKind)).sum + 1)
    (hfits : r.UsageFits) (huses : ∀ id, id ≠ e.relationKind → candidate.uses id = 0) :
    EdgesPlanned c t (pre ++ [candidate]) { plan with
      usage := plan.usage.insert e.relationKind r
      followingEdge := following
      aligned := aligned
      createdEdges := plan.createdEdges ++ [e] } := by
  have hsum : ∀ id, ((pre ++ [candidate]).map (Candidate.uses id)).sum =
      (pre.map (Candidate.uses id)).sum + candidate.uses id := by
    intro id
    simp
  have hedges : ∀ id, ((plan.createdEdges ++ [e]).map (EdgeRecord.uses id)).sum =
      (plan.createdEdges.map (EdgeRecord.uses id)).sum + e.uses id := by
    intro id
    simp
  -- only the count of the relation kind of the new edge changes
  have hother : ∀ id, id ≠ e.relationKind → e.uses id = 0 := fun id hne => if_neg hne.symm
  refine ⟨h.nodes, h.relations, ?_, fun i e' he' => ?_, fun e' he' => ?_, fun id hnone => ?_,
    fun id r' hr' => ?_⟩
  · rw [List.length_append, List.length_singleton, ← hfollowing, h.following_eq]
    omega
  · dsimp only at he'
    rw [List.getElem?_append] at he'
    split_ifs at he' with hi
    · exact h.ids i e' he'
    · have hzero := lt_length_of_getElem? he'
      simp only [List.length_singleton] at hzero
      rw [show i - plan.createdEdges.length = 0 by omega] at he'
      cases he'
      rw [hid, h.following_eq]
      omega
  · rcases List.mem_append.1 he' with he' | he'
    · exact h.ends e' he'
    · rw [List.mem_singleton.1 he']
      exact ⟨hsource, hdestination, base, hbase⟩
  · have hne : id ≠ e.relationKind := by
      rintro rfl
      simp at hnone
    rw [SortedMap.get_insert_of_ne _ _ hne] at hnone
    rw [hsum, hedges, huses id hne, hother id hne]
    exact h.unused id hnone
  · rw [hsum, hedges]
    by_cases hne : id = e.relationKind
    · subst hne
      rw [SortedMap.get_insert_self] at hr'
      cases hr'
      refine ⟨base, hbase, hrid, hname, ?_, ?_, hfits⟩
      · omega
      · rw [hconfirmed, EdgeRecord.uses, if_pos rfl]
        omega
    · rw [SortedMap.get_insert_of_ne _ _ hne] at hr'
      rw [huses id hne, hother id hne]
      exact h.used id r' hr'

/-- What the second planning loop has established, with what it takes to go on. -/
structure EdgesResolved (c : Catalog) (t : Tables) (cs pre : List Candidate) (plan : ConfirmPlan) :
    Prop where
  planned : EdgesPlanned c t pre plan
  resolves : PlanResolves cs plan
  edges_le : plan.createdEdges.length ≤ pre.length
  aligned : ∀ i r, plan.aligned i = some r → r.Fits

lemma sum_uses_le (es : List EdgeRecord) (id : RelationId) :
    (es.map (EdgeRecord.uses id)).sum ≤ es.length := by
  have hall : ∀ n ∈ es.map (EdgeRecord.uses id), n ≤ 1 := by
    intro n hn
    obtain ⟨e, -, rfl⟩ := List.mem_map.1 hn
    unfold EdgeRecord.uses
    split_ifs <;> simp
  have hsum := List.sum_le_card_nsmul _ 1 hall
  rwa [List.length_map, Nat.nsmul_eq_mul, Nat.mul_one] at hsum

/-- With room for the whole selection one more use of a relation kind fits. -/
lemma EdgesResolved.usage_fits (h : EdgesResolved c t cs pre plan) (hlt : pre.length < cs.length)
    (hroom : t.HasRoom cs.length) {id : RelationId} {base : RelationRecord}
    (hbase : BaseRelation t plan.createdRelations id base) :
    base.provisionalReferenceCount.val + (base.confirmedEdgeCount.val +
      (plan.createdEdges.map (EdgeRecord.uses id)).sum + 1) < 2 ^ 64 := by
  have hsum := sum_uses_le plan.createdEdges id
  have hedges := h.edges_le
  rcases hbase.2 with hstored | hcreated
  · have hbound := hroom.usage base hstored
    omega
  · obtain ⟨-, hprovisional, hconfirmed⟩ := h.planned.relations.good_of_mem base hcreated
    have hbound := hroom.node
    omega

lemma planEdge_ensures (inv : CatalogInv c t) (hclosed : Closed t cs) {candidate : Candidate}
    {post : List Candidate} (hsplit : cs = pre ++ candidate :: post)
    (h : EdgesResolved c t cs pre plan) (index : ℕ) :
    Ensures (planEdge c.db plan (candidate, index)) (EdgesResolved c t cs (pre ++ [candidate]))
      (Blocked (t.HasRoom cs.length)) := by
  have hdb := inv.represents
  have hmem : candidate ∈ cs := by simp [hsplit]
  have hlt : pre.length < cs.length := by
    rw [hsplit, List.length_append, List.length_cons]
    omega
  have hrefs := hclosed.references candidate hmem
  have hedges_le : plan.createdEdges.length ≤ (pre ++ [candidate]).length :=
    h.edges_le.trans (by simp)
  rcases candidate with _ | _ | ⟨id, source, destination, relationKind, baseWeight⟩
  · exact ensures_pure ⟨h.planned.skip fun _ => rfl, h.resolves, hedges_le, h.aligned⟩
  · exact ensures_pure ⟨h.planned.skip fun _ => rfl, h.resolves, hedges_le, h.aligned⟩
  obtain ⟨hsource, hdestination, hrelation⟩ := hrefs
  refine (resolveNode_ensures h.planned h.resolves hdb hsource).bind fun source' hsource' => ?_
  refine (resolveNode_ensures h.planned h.resolves hdb hdestination).bind
    fun destination' hdestination' => ?_
  refine (resolveRelation_ensures h.planned h.resolves hdb hrelation).bind
    fun relationId hrelationId => ?_
  obtain ⟨hrelationId, hthere⟩ := hrelationId
  refine (planUsage_ensures h.planned hdb hthere).bind fun old hold => ?_
  obtain ⟨base, hbase, hname, hprovisional, hconfirmed⟩ := hold
  refine (remainingProvisional_ensures hrelationId fun heq => ?_).bind fun p hp => ?_
  · -- the stored count still has the reference of this candidate
    subst heq
    obtain ⟨record, hrecord⟩ := hrelation
    obtain rfl := h.planned.base_stored inv hrecord hbase
    have hcount := inv.consistent.provisional base (hdb.relations.has hrecord)
    rw [hdb.relations.id_eq _ _ hrecord] at hcount
    have hsum := hclosed.sum_remaining (Candidate.uses relationId)
    rw [hsplit] at hsum
    simp only [List.map_append, List.map_cons, List.sum_append, List.sum_cons, Candidate.uses,
      if_true] at hsum
    omega
  -- three sums can overflow, and none does when there is room for the whole selection
  have hconfirmed_room : t.HasRoom cs.length →
      old.confirmedEdgeCount.val + (1 : U64).val < 2 ^ 64 := by
    intro hroom
    have hfits := h.usage_fits hlt hroom hbase
    rw [hconfirmed]
    show _ + 1 < _
    omega
  refine (ensures_okOr (fun n hn => U64.checkedAdd_eq_some.1 hn)
    fun hnone => ⟨fun hcorrupt => hcorrupt, not_of_overflow hnone hconfirmed_room⟩).bind
    fun confirmed hconfirmed' => ?_
  have hvalue : old.confirmedEdgeCount.val + 1 = confirmed.val := hconfirmed'
  have htotal_room : t.HasRoom cs.length → p.val + confirmed.val < 2 ^ 64 := by
    intro hroom
    have hfits := h.usage_fits hlt hroom hbase
    omega
  refine (ensures_okOr (fun n hn => U64.checkedAdd_eq_some.1 hn)
    fun hnone => ⟨fun hcorrupt => hcorrupt, not_of_overflow hnone htotal_room⟩).bind
    fun total htotal => ?_
  have hedge_room : t.HasRoom cs.length → plan.followingEdge.val + (1 : U64).val < 2 ^ 64 := by
    intro hroom
    have hbound := hroom.edge
    have hfollowing := h.planned.following_eq
    have hedges := h.edges_le
    show _ + 1 < _
    omega
  refine (ensures_okOr (fun n hn => U64.checkedAdd_eq_some.1 hn)
    fun hnone => ⟨fun hcorrupt => hcorrupt, not_of_overflow hnone hedge_room⟩).bind
    fun following hfollowing => ?_
  -- the edge is planned with the next identifier, and one reference moves to the confirmed count
  refine ensures_pure ⟨h.planned.add (e := ⟨⟨plan.followingEdge⟩, source', destination', relationId,
    baseWeight⟩) (r := ⟨relationId, old.name, p, confirmed⟩) _ rfl hfollowing hsource' hdestination'
    hbase rfl hname ?_ ?_ ?_ fun id' hne => ?_, ⟨h.resolves.node, h.resolves.relation⟩, ?_,
    aligned_update h.aligned index trivial⟩
  · rw [← hprovisional, ← hp]
    rfl
  · rw [← hconfirmed]
    exact hvalue.symm
  · show p.val + confirmed.val < 2 ^ 64
    rw [htotal]
    exact total.isLt
  · refine if_neg fun heq => hne ?_
    exact (hrelationId id' heq).symm
  · rw [List.length_append, List.length_append, List.length_singleton, List.length_singleton]
    exact Nat.succ_le_succ h.edges_le

lemma planEdges_ensures (inv : CatalogInv c t) (hclosed : Closed t cs)
    (hplan : RecordsResolved c t cs plan) :
    Ensures (cs.zipIdx.foldlM (planEdge c.db) plan) (EdgesResolved c t cs cs)
      (Blocked (t.HasRoom cs.length)) := by
  have hstart : EdgesResolved c t cs [] plan :=
    ⟨hplan.planned.edges, hplan.resolves, by simp [hplan.planned.createdEdges], hplan.aligned⟩
  exact ensures_foldlM_zipIdx (I := EdgesResolved c t cs) cs
    (fun pre candidate post plan hsplit hplan => planEdge_ensures inv hclosed hsplit hplan _) hstart

end Edge

/-! ## The relation kinds the batch writes -/

section Final

variable {plan : ConfirmPlan} {cs : List Candidate}

lemma ConfirmPlan.finalRelations_eq (plan : ConfirmPlan) : plan.finalRelations =
    (SortedMap.putAll RelationRecord.id .empty plan.createdRelations).setAll
      (plan.usage.entries.map fun e => (e.1, some e.2)) := by
  simp only [ConfirmPlan.finalRelations, SortedMap.putAll, SortedMap.setAll, List.foldl_map]
  rfl

/-- A relation kind of the batch, with its base and what the batch takes and adds. -/
structure Finalized (t : Tables) (plan : ConfirmPlan) (cs : List Candidate) (id : RelationId)
    (r base : RelationRecord) : Prop where
  is_base : BaseRelation t plan.createdRelations id base
  id_eq : r.id = id
  name_eq : r.name = base.name
  provisional : r.provisionalReferenceCount.val + (cs.map (Candidate.uses id)).sum =
    base.provisionalReferenceCount.val
  confirmed : r.confirmedEdgeCount.val =
    base.confirmedEdgeCount.val + (plan.createdEdges.map (EdgeRecord.uses id)).sum

namespace EdgesPlanned

lemma newRelations (h : EdgesPlanned c t cs plan) (inv : CatalogInv c t) :
    NewRecords t.relations RelationRecord.id (fun r => r.name.asStr) plan.createdRelations :=
  h.relations.newRecords inv.counted.relation inv.relationNames

lemma newNodes (h : EdgesPlanned c t cs plan) (inv : CatalogInv c t) :
    NewRecords t.nodes NodeRecord.id (fun r => r.name.asStr) plan.createdNodes :=
  h.nodes.newRecords inv.counted.node inv.nodeNames

lemma get_created (h : EdgesPlanned c t cs plan) {id : RelationId} {r : RelationRecord} :
    (SortedMap.putAll RelationRecord.id .empty plan.createdRelations).get id = some r ↔
      r ∈ plan.createdRelations ∧ r.id = id := by
  rw [SortedMap.get_putAll (nodup_of_consecutive h.relations.ids) fun _ _ => rfl]
  simp

lemma get_final (h : EdgesPlanned c t cs plan) {id : RelationId} {r : RelationRecord} :
    plan.finalRelations.get id = some r ↔ plan.usage.get id = some r ∨
      plan.usage.get id = none ∧ r ∈ plan.createdRelations ∧ r.id = id := by
  rw [plan.finalRelations_eq]
  have hkeys : ((plan.usage.entries.map fun e => (e.1, some e.2)).map Prod.fst).Nodup := by
    rw [List.map_map]
    exact List.pairwise_map.2 (plan.usage.sorted.imp fun hlt => hlt.ne)
  rcases husage : plan.usage.get id with _ | r'
  · rw [SortedMap.get_setAll_of_notMem, h.get_created]
    · simp
    · intro hmem
      simp only [List.map_map, List.mem_map, Function.comp_apply] at hmem
      obtain ⟨e, he, rfl⟩ := hmem
      rw [SortedMap.get_of_mem he] at husage
      cases husage
  · rw [SortedMap.get_setAll_of_mem hkeys
      (List.mem_map.2 ⟨(id, r'), SortedMap.get_eq_some.1 husage, rfl⟩)]
    simp

lemma finalized (h : EdgesPlanned c t cs plan) {id : RelationId} {r : RelationRecord}
    (hr : plan.finalRelations.get id = some r) :
    r.UsageFits ∧ ∃ base, Finalized t plan cs id r base := by
  rcases h.get_final.1 hr with husage | ⟨hnone, hcreated, rfl⟩
  · obtain ⟨base, hbase, hid, hname, hprovisional, hconfirmed, hfits⟩ := h.used id r husage
    exact ⟨hfits, base, hbase, hid, hname, hprovisional, hconfirmed⟩
  · obtain ⟨hpre, hedges⟩ := h.unused r.id hnone
    obtain ⟨-, hp, hc⟩ := h.relations.good_of_mem r hcreated
    refine ⟨?_, r, ⟨rfl, .inr hcreated⟩, rfl, rfl, by rw [hpre, Nat.add_zero], by rw [hedges]; rfl⟩
    show r.provisionalReferenceCount.val + r.confirmedEdgeCount.val < 2 ^ 64
    rw [hp, hc]
    decide

lemma name_fits (h : EdgesPlanned c t cs plan) (inv : CatalogInv c t) {id : RelationId}
    {base : RelationRecord} (hbase : BaseRelation t plan.createdRelations id base) :
    NameFits base.name.asStr := by
  rcases hbase.2 with hstored | hcreated
  · exact (inv.writable.relation base hstored).name
  · exact (h.relations.good_of_mem base hcreated).1

end EdgesPlanned

/-- The change of one relation kind. -/
def Finalizes (t : Tables) (plan : ConfirmPlan) (cs : List Candidate)
    (entry : RelationId × RelationRecord) (ch : RelationChange) : Prop :=
  entry.2.Fits ∧ ∃ base, Finalized t plan cs entry.1 entry.2 base ∧
    (base ∈ plan.createdRelations ∧ ch = .create entry.2 ∨
      t.HasRelation base ∧ ch = .update base entry.2)

lemma Finalizes.id_eq {entry : RelationId × RelationRecord} {ch : RelationChange}
    (h : Finalizes t plan cs entry ch) : ch.id = entry.1 := by
  obtain ⟨-, base, hfinal, ⟨-, rfl⟩ | ⟨-, rfl⟩⟩ := h
  · exact hfinal.id_eq
  · exact hfinal.id_eq

lemma putFinalRelation_ensures {E : CatalogError → Prop} (inv : CatalogInv c t)
    (h : EdgesPlanned c t cs plan)
    {entry : RelationId × RelationRecord} (hentry : entry ∈ plan.finalRelations.entries) :
    Ensures (putFinalRelation c.db plan entry)
      (fun batch => ∃ ch, Finalizes t plan cs entry ch ∧ batch = ch.batch) E := by
  obtain ⟨id, r⟩ := entry
  have hget : plan.finalRelations.get id = some r := SortedMap.get_of_mem hentry
  obtain ⟨husage, base, hfinal⟩ := h.finalized hget
  obtain rfl := hfinal.id_eq
  have hname : NameFits r.name.asStr := by
    rw [hfinal.name_eq]
    exact h.name_fits inv hfinal.is_base
  have hfits : r.Fits := ⟨hname, husage⟩
  have hid := hfinal.is_base.1
  rcases hfinal.is_base.2 with hstored | hcreated
  · have hany : (plan.createdRelations.any fun r' => decide (r'.id = r.id)) = false := by
      rw [List.any_eq_false]
      intro r' hr' heq
      have hle := (h.relations.id_range hr').1
      have hlt := inv.counted.relation _ _ (show t.relations.get base.id = some base from hstored)
      rw [hid] at hlt
      rw [of_decide_eq_true heq] at hle
      omega
    have hget : t.relations.get r.id = some base := hid ▸ hstored
    have hdelete : deletePopularity base =
        .ok (.delete .relationPopularity (popularityBytes base)) := by
      simp only [deletePopularity, encodePopularityKey_eq (inv.writable.relation base hstored).usage,
        mapErr, ok_bind]
      rfl
    simp only [putFinalRelation, hany, Bool.false_eq_true, if_false, inv.represents.getRelation_eq,
      hget, okOr_some, ok_bind, hdelete, encodeRelation_eq hfits, encodePopularityKey_eq hfits.usage,
      mapErr]
    exact ensures_pure ⟨_, ⟨hfits, base, hfinal, .inr ⟨hstored, rfl⟩⟩, rfl⟩
  · have hany : (plan.createdRelations.any fun r' => decide (r'.id = r.id)) = true :=
      List.any_eq_true.2 ⟨base, hcreated, by simp [hid]⟩
    have hkey : encodeNameKey r.name.asStr = .ok (nameBytes r.name.asStr) := pushString_eq hname
    simp only [putFinalRelation, hany, if_true, hkey, ok_bind, encodeRelation_eq hfits,
      encodePopularityKey_eq hfits.usage, mapErr]
    exact ensures_pure ⟨_, ⟨hfits, base, hfinal, .inl ⟨hcreated, rfl⟩⟩, rfl⟩

end Final

/-! ## The tables after a confirmation -/

/-- The tables after a confirmation. -/
def Tables.confirmed (t : Tables) (cs : List Candidate) (plan : ConfirmPlan)
    (changes : List RelationChange) : Tables where
  candidates := t.candidates.dropAll (cs.map Candidate.id)
  nodes := SortedMap.putAll NodeRecord.id t.nodes plan.createdNodes
  relations := (t.changeRelations changes).relations
  edges := SortedMap.putAll EdgeRecord.id t.edges plan.createdEdges
  metadata := { t.metadata with
    nextNode := plan.followingNode
    nextRelation := plan.followingRelation
    nextEdge := plan.followingEdge
    pointer := if plan.graphChanged then none else t.metadata.pointer }

/-- What planning a confirmation has established. -/
structure Confirmation (c : Catalog) (t : Tables) (cs : List Candidate) (plan : ConfirmPlan)
    (changes : List RelationChange) : Prop where
  inv : CatalogInv c t
  closed : Closed t cs
  planned : EdgesPlanned c t cs plan
  changes : List.Forall₂ (Finalizes t plan cs) plan.finalRelations.entries changes

namespace Confirmation

variable {plan : ConfirmPlan} {cs : List Candidate} {changes : List RelationChange}

lemma ids_eq (h : Confirmation c t cs plan changes) :
    changes.map RelationChange.id = plan.finalRelations.entries.map Prod.fst := by
  refine forall₂_eq_map (g := Prod.fst) (List.forall₂_map_right_iff.2 ?_)
  exact h.changes.imp fun _ _ hch => hch.id_eq

/-- A change comes from an entry of the final map. -/
lemma of_mem (h : Confirmation c t cs plan changes) {ch : RelationChange} (hch : ch ∈ changes) :
    ∃ r base, plan.finalRelations.get ch.id = some r ∧ r.Fits ∧
      Finalized t plan cs ch.id r base ∧
      (base ∈ plan.createdRelations ∧ ch = .create r ∨ t.HasRelation base ∧ ch = .update base r) := by
  obtain ⟨⟨id, r⟩, hmem, hfinalizes⟩ := forall₂_exists_of_mem h.changes.flip hch
  have hid : ch.id = id := Finalizes.id_eq hfinalizes
  obtain ⟨hfits, base, hfinal, hcases⟩ := hfinalizes
  rw [hid]
  exact ⟨r, base, SortedMap.get_of_mem hmem, hfits, hfinal, hcases⟩

lemma validChanges (h : Confirmation c t cs plan changes) : ValidChanges t changes := by
  have hnew := h.planned.newRelations h.inv
  refine ⟨?_, fun ch hch => ?_, fun r r' hr hr' hname => ?_⟩
  · rw [h.ids_eq]
    exact List.pairwise_map.2 (plan.finalRelations.sorted.imp fun hlt => hlt.ne)
  · obtain ⟨r, base, -, hfits, hfinal, hcases⟩ := h.of_mem hch
    have hid : r.id = base.id := hfinal.id_eq.trans hfinal.is_base.1.symm
    rcases hcases with ⟨hcreated, rfl⟩ | ⟨hstored, rfl⟩
    · refine ⟨hfits, ?_, fun r' hr' heq => ?_⟩
      · show t.relations.get r.id = none
        rw [hid]
        exact hnew.fresh base hcreated
      · rw [hfinal.name_eq] at heq
        exact hnew.unused base hcreated r' hr' heq
    · exact ⟨hstored, hfits, hid, hfinal.name_eq⟩
  · obtain ⟨r₁, base, hget, -, hfinal, ⟨hcreated, heq⟩ | ⟨-, heq⟩⟩ := h.of_mem hr
    · obtain ⟨r₂, base', hget', -, hfinal', ⟨hcreated', heq'⟩ | ⟨-, heq'⟩⟩ := h.of_mem hr'
      · cases heq
        cases heq'
        have hbase : base = base' := by
          refine List.inj_on_of_nodup_map h.planned.relations.names_nodup hcreated hcreated' ?_
          rw [← hfinal.name_eq, ← hfinal'.name_eq]
          exact hname
        rw [← hbase] at hfinal'
        rw [hfinal.is_base.1.symm.trans hfinal'.is_base.1, hget'] at hget
        exact (Option.some.inj hget).symm
      · cases heq'
    · cases heq

/-- A relation kind after the confirmation has a base. -/
lemma relation_cases (h : Confirmation c t cs plan changes) {r : RelationRecord}
    (hr : (t.confirmed cs plan changes).HasRelation r) :
    ∃ base, Finalized t plan cs r.id r base := by
  rcases h.validChanges.has_cases (l := changes) hr with ⟨hold, hid⟩ | hcreate | ⟨old, hupdate⟩
  · have husage : plan.usage.get r.id = none := by
      rcases husage : plan.usage.get r.id with _ | r'
      · rfl
      · have hget := h.planned.get_final.2 (.inl husage)
        rw [h.ids_eq] at hid
        exact absurd (List.mem_map_of_mem (SortedMap.get_eq_some.1 hget)) hid
    obtain ⟨hpre, hedges⟩ := h.planned.unused r.id husage
    exact ⟨r, ⟨rfl, .inl hold⟩, rfl, rfl, by rw [hpre, Nat.add_zero], by rw [hedges, Nat.add_zero]⟩
  · obtain ⟨r', base, -, -, hfinal, ⟨-, heq⟩ | ⟨-, heq⟩⟩ := h.of_mem hcreate
    · cases heq
      exact ⟨base, hfinal⟩
    · cases heq
  · obtain ⟨r', base, -, -, hfinal, ⟨-, heq⟩ | ⟨-, heq⟩⟩ := h.of_mem hupdate
    · cases heq
    · cases heq
      exact ⟨_, hfinal⟩

/-- A stored or created relation kind is there after the confirmation. -/
lemma get_relation (h : Confirmation c t cs plan changes) {id : RelationId} {base : RelationRecord}
    (hbase : BaseRelation t plan.createdRelations id base) :
    ∃ r, (t.confirmed cs plan changes).relations.get id = some r ∧ r.id = id ∧
      r.name = base.name := by
  by_cases hid : id ∈ changes.map RelationChange.id
  · obtain ⟨ch, hch, rfl⟩ := List.mem_map.1 hid
    have hget := h.validChanges.get_of_mem hch
    obtain ⟨r, base', -, -, hfinal, hcases⟩ := h.of_mem hch
    have hafter : ch.after = some r := by
      rcases hcases with ⟨-, rfl⟩ | ⟨-, rfl⟩
      · rfl
      · rfl
    -- identifiers name one record each, whether it was stored or is created
    have hsame : base' = base := by
      have hnew := h.planned.newRelations h.inv
      have hids : base'.id = base.id := hfinal.is_base.1.trans hbase.1.symm
      rcases hfinal.is_base.2 with hstored' | hcreated'
      · rcases hbase.2 with hstored | hcreated
        · exact has_unique hstored' hstored hids
        · have hnone := hnew.fresh base hcreated
          rw [← hids, show t.relations.get base'.id = some base' from hstored'] at hnone
          cases hnone
      · rcases hbase.2 with hstored | hcreated
        · have hnone := hnew.fresh base' hcreated'
          rw [hids, show t.relations.get base.id = some base from hstored] at hnone
          cases hnone
        · exact List.inj_on_of_nodup_map hnew.ids hcreated' hcreated hids
    refine ⟨r, hget.trans hafter, hfinal.id_eq, ?_⟩
    rw [← hsame]
    exact hfinal.name_eq
  · have hget : (t.confirmed cs plan changes).relations.get id = t.relations.get id :=
      ValidChanges.get_of_notMem hid
    rcases hbase.2 with hstored | hcreated
    · refine ⟨base, ?_, hbase.1, rfl⟩
      rw [hget, ← hbase.1]
      exact hstored
    · -- a created relation kind is always written
      exfalso
      rw [h.ids_eq] at hid
      have hfinal : ∃ r, plan.finalRelations.get id = some r := by
        rcases husage : plan.usage.get id with _ | r
        · exact ⟨base, h.planned.get_final.2 (.inr ⟨husage, hcreated, hbase.1⟩)⟩
        · exact ⟨r, h.planned.get_final.2 (.inl husage)⟩
      obtain ⟨r, hr⟩ := hfinal
      exact hid (List.mem_map_of_mem (SortedMap.get_eq_some.1 hr))

lemma edge_ids (h : Confirmation c t cs plan changes) :
    (plan.createdEdges.map EdgeRecord.id).Nodup := nodup_of_consecutive h.planned.ids

lemma edge_fresh (h : Confirmation c t cs plan changes) (e : EdgeRecord)
    (he : e ∈ plan.createdEdges) : t.edges.get e.id = none := by
  rcases hget : t.edges.get e.id with _ | e'
  · rfl
  · have hlt := h.inv.counted.edge _ _ hget
    obtain ⟨i, hi⟩ := List.getElem?_of_mem he
    rw [h.planned.ids i e hi] at hlt
    omega

lemma get_edge (h : Confirmation c t cs plan changes) {id : EdgeId} {e : EdgeRecord} :
    (t.confirmed cs plan changes).edges.get id = some e ↔
      t.edges.get id = some e ∨ e ∈ plan.createdEdges ∧ e.id = id :=
  SortedMap.get_putAll h.edge_ids h.edge_fresh

lemma node_there (h : Confirmation c t cs plan changes) {id : NodeId}
    (hbase : BaseNode t plan.createdNodes id) :
    ∃ r, (t.confirmed cs plan changes).nodes.get id = some r := by
  obtain ⟨r, rfl, hr⟩ := hbase
  exact ⟨r, (h.planned.newNodes h.inv).has_putAll.2 hr⟩

lemma node_kept (h : Confirmation c t cs plan changes) {id : NodeId} {r : NodeRecord}
    (hr : t.nodes.get id = some r) : ∃ r', (t.confirmed cs plan changes).nodes.get id = some r' :=
  h.node_there ⟨r, h.inv.represents.nodes.id_eq _ _ hr, .inl (h.inv.represents.nodes.has hr)⟩

lemma relation_kept (h : Confirmation c t cs plan changes) {id : RelationId} {r : RelationRecord}
    (hr : t.relations.get id = some r) :
    ∃ r', (t.confirmed cs plan changes).relations.get id = some r' := by
  obtain ⟨r', hr', -⟩ := h.get_relation
    ⟨h.inv.represents.relations.id_eq _ _ hr, .inl (h.inv.represents.relations.has hr)⟩
  exact ⟨r', hr'⟩

/-- A created relation kind was unknown before. -/
lemma sums_created (h : Confirmation c t cs plan changes) {r : RelationRecord}
    (hr : r ∈ plan.createdRelations) :
    t.candidates.sum (Candidate.uses r.id) = 0 ∧ t.edges.sum (EdgeRecord.uses r.id) = 0 := by
  have hfresh := (h.planned.newRelations h.inv).fresh r hr
  constructor
  · refine SortedMap.sum_eq_zero fun id candidate hget => ?_
    by_contra hpos
    obtain ⟨r', hr'⟩ := (h.inv.consistent.candidate id candidate hget).uses (Nat.pos_of_ne_zero hpos)
    rw [hfresh] at hr'
    cases hr'
  · refine SortedMap.sum_eq_zero fun id e hget => if_neg fun heq => ?_
    obtain ⟨-, -, r', hr'⟩ := h.inv.consistent.edge e (h.inv.represents.edges.has hget)
    rw [heq, hfresh] at hr'
    cases hr'

lemma consistent (h : Confirmation c t cs plan changes) :
    (t.confirmed cs plan changes).Consistent := by
  have hc := h.inv.consistent
  have hdb := h.inv.represents
  refine ⟨fun e he => ?_, fun id candidate hget => ?_, fun id candidate count hget hcount => ?_,
    fun r hr => ?_, fun r hr => ?_⟩
  · rcases h.get_edge.1 he with hold | ⟨hnew, -⟩
    · obtain ⟨⟨source, hsource⟩, ⟨destination, hdestination⟩, relation, hrelation⟩ := hc.edge e hold
      exact ⟨h.node_kept hsource, h.node_kept hdestination, h.relation_kept hrelation⟩
    · obtain ⟨hsource, hdestination, base, hbase⟩ := h.planned.ends e hnew
      obtain ⟨r, hr, -⟩ := h.get_relation hbase
      exact ⟨h.node_there hsource, h.node_there hdestination, r, hr⟩
  · -- a candidate that stays is not referred to by a selected one, and refers to none
    obtain ⟨hold, -⟩ := SortedMap.get_dropAll.1 hget
    refine (hc.candidate id candidate hold).mono (fun _ _ hr _ => h.node_kept hr)
      (fun _ _ hr _ => h.relation_kept hr) fun id' c' hc' hpos => ?_
    refine SortedMap.get_dropAll.2 ⟨hc', fun hmem => ?_⟩
    rw [h.closed.refersTo_selected hc hmem hget] at hpos
    exact absurd hpos (lt_irrefl 0)
  · obtain ⟨hold, hid⟩ := SortedMap.get_dropAll.1 hget
    have hsum := h.closed.sum_remaining (Candidate.refersTo id)
    rw [h.closed.refersTo_outside hid, Nat.add_zero] at hsum
    rw [hc.incoming id candidate count hold hcount, ← hsum]
    rfl
  · obtain ⟨base, hfinal⟩ := h.relation_cases hr
    have hsum : (t.confirmed cs plan changes).candidates.sum (Candidate.uses r.id) +
        (cs.map (Candidate.uses r.id)).sum = t.candidates.sum (Candidate.uses r.id) :=
      h.closed.sum_remaining _
    -- a stored count has lost the uses of the selected candidates, a created one starts at zero
    have hprovisional := hfinal.provisional
    rcases hfinal.is_base.2 with hstored | hcreated
    · have hcount := hc.provisional base hstored
      rw [hfinal.is_base.1] at hcount
      omega
    · have hnew := (h.planned.relations.good_of_mem base hcreated).2.1
      have hzero := (h.sums_created hcreated).1
      rw [hfinal.is_base.1] at hzero
      omega
  · obtain ⟨base, hfinal⟩ := h.relation_cases hr
    have hsum : (t.confirmed cs plan changes).edges.sum (EdgeRecord.uses r.id) =
        t.edges.sum (EdgeRecord.uses r.id) +
          (plan.createdEdges.map (EdgeRecord.uses r.id)).sum :=
      SortedMap.sum_putAll h.edge_ids h.edge_fresh _
    have hconfirmed := hfinal.confirmed
    rcases hfinal.is_base.2 with hstored | hcreated
    · have hcount := hc.confirmed base hstored
      rw [hfinal.is_base.1] at hcount
      omega
    · have hnew := (h.planned.relations.good_of_mem base hcreated).2.2
      have hzero := (h.sums_created hcreated).2
      rw [hfinal.is_base.1] at hzero
      omega

lemma writable (h : Confirmation c t cs plan changes) :
    (t.confirmed cs plan changes).Writable := by
  have hw := h.inv.writable
  have hnodes := h.planned.newNodes h.inv
  refine ⟨fun id candidate hget => hw.candidate id candidate (SortedMap.get_dropAll.1 hget).1,
    fun r hr => ?_, h.validChanges.fits hw.relation,
    fun r r' hr hr' => hnodes.name_inj hw.node_name_inj hr hr',
    h.validChanges.name_inj hw.relation_name_inj⟩
  rcases hnodes.has_putAll.1 hr with hold | hnew
  · exact hw.node r hold
  · exact h.planned.nodes.good_of_mem r hnew

lemma counted (h : Confirmation c t cs plan changes) :
    (t.confirmed cs plan changes).Counted := by
  have hcounted := h.inv.counted
  have hnode := h.planned.nodes.following_eq
  have hrelation := h.planned.relations.following_eq
  have hedge := h.planned.following_eq
  obtain ⟨hcpos, hnpos, hrpos, hepos⟩ := hcounted.positive
  refine ⟨fun id candidate hget => hcounted.candidate id candidate (SortedMap.get_dropAll.1 hget).1,
    fun id r hget => ?_, fun id r hget => ?_, fun id e hget => ?_,
    ⟨hcpos, ?_, ?_, ?_⟩, fun p hp => ?_⟩
  · have hnodes := h.planned.newNodes h.inv
    show _ < plan.followingNode.val
    rcases (SortedMap.get_putAll hnodes.ids hnodes.fresh).1 hget with hold | ⟨hnew, rfl⟩
    · have := hcounted.node id r hold
      omega
    · exact (h.planned.nodes.id_range hnew).2
  · show _ < plan.followingRelation.val
    -- a written relation kind has an identifier from before, or one of those given out
    have hbound : ∀ id base, BaseRelation t plan.createdRelations id base →
        id.asU64.val < plan.followingRelation.val := by
      rintro _ base ⟨rfl, hstored | hcreated⟩
      · have := hcounted.relation _ _ (show t.relations.get base.id = some base from hstored)
        omega
      · exact (h.planned.relations.id_range hcreated).2
    by_cases hid : id ∈ changes.map RelationChange.id
    · obtain ⟨ch, hch, rfl⟩ := List.mem_map.1 hid
      obtain ⟨r', base, -, -, hfinal, -⟩ := h.of_mem hch
      exact hbound _ base hfinal.is_base
    · rw [show (t.confirmed cs plan changes).relations.get id = t.relations.get id from
        ValidChanges.get_of_notMem hid] at hget
      have := hcounted.relation id r hget
      omega
  · show _ < plan.followingEdge.val
    rcases h.get_edge.1 hget with hold | ⟨hnew, rfl⟩
    · have := hcounted.edge id e hold
      omega
    · obtain ⟨i, hi⟩ := List.getElem?_of_mem hnew
      have hlt := lt_length_of_getElem? hi
      rw [h.planned.ids i e hi]
      omega
  · show 1 ≤ plan.followingNode.val
    omega
  · show 1 ≤ plan.followingRelation.val
    omega
  · show 1 ≤ plan.followingEdge.val
    omega
  · simp only [Tables.confirmed] at hp
    split_ifs at hp
    exact hcounted.pointer p hp

lemma nodeNames (h : Confirmation c t cs plan changes) :
    NamesOf (c.addNames plan).nodeNames (t.confirmed cs plan changes).HasNode
      (fun r => r.name.asStr) NodeRecord.id := by
  have hnew := h.planned.newNodes h.inv
  refine h.inv.nodeNames.addAll hnew.names hnew.unused fun s id => ?_
  have hhas : ∀ r, (t.confirmed cs plan changes).HasNode r ↔
      t.HasNode r ∨ r ∈ plan.createdNodes := fun r => hnew.has_putAll
  simp only [hhas, or_and_right, exists_or]

lemma relationNames (h : Confirmation c t cs plan changes) :
    NamesOf (c.addNames plan).relationNames (t.confirmed cs plan changes).HasRelation
      (fun r => r.name.asStr) RelationRecord.id := by
  have hnew := h.planned.newRelations h.inv
  refine h.inv.relationNames.addAll hnew.names hnew.unused fun s id => ⟨?_, ?_⟩
  · rintro ⟨r, hr, rfl, rfl⟩
    obtain ⟨base, hfinal⟩ := h.relation_cases hr
    rcases hfinal.is_base.2 with hstored | hcreated
    · exact .inl ⟨base, hstored, by rw [hfinal.name_eq], hfinal.is_base.1⟩
    · exact .inr ⟨base, hcreated, by rw [hfinal.name_eq], hfinal.is_base.1⟩
  · have hthere : ∀ base, (t.HasRelation base ∨ base ∈ plan.createdRelations) →
        ∃ r, (t.confirmed cs plan changes).HasRelation r ∧ r.name.asStr = base.name.asStr ∧
          r.id = base.id := by
      intro base hbase
      obtain ⟨r, hr, hid, hname⟩ := h.get_relation ⟨rfl, hbase⟩
      refine ⟨r, ?_, by rw [hname], hid⟩
      rw [← hid] at hr
      exact hr
    rintro (⟨base, hbase, rfl, rfl⟩ | ⟨base, hbase, rfl, rfl⟩)
    · exact hthere base (.inl hbase)
    · exact hthere base (.inr hbase)

/-- The batch of a confirmation. -/
lemma represents (h : Confirmation c t cs plan changes) :
    Represents (c.db.write ((cs.map fun candidate =>
        WriteOp.delete .candidates (encodeIdKey candidate.id.asU64)) ++
        plan.createdNodes.flatMap nodeEntries ++ changes.flatMap RelationChange.batch ++
        plan.createdEdges.flatMap putEdge ++
        (if plan.graphChanged then [WriteOp.delete .default META_ACTIVE_ROUTING_IMAGE] else []) ++
        [.put .default META_NEXT_NODE_ID (encodeU64Record plan.followingNode),
          .put .default META_NEXT_RELATION_ID (encodeU64Record plan.followingRelation),
          .put .default META_NEXT_EDGE_ID (encodeU64Record plan.followingEdge)]))
      (t.confirmed cs plan changes) := by
  have hw := h.inv.writable
  have hnodes := h.planned.newNodes h.inv
  -- the batch part by part: deletions, nodes, relation kinds, edges, pointer and counters
  have hdeletes := h.inv.represents.deleteCandidates (cs.map Candidate.id)
  rw [List.map_map] at hdeletes
  have hputs := hdeletes.putNodes hw.node h.planned.nodes.good_of_mem hnodes
  have hwritable : { t with
      candidates := t.candidates.dropAll (cs.map Candidate.id)
      nodes := SortedMap.putAll NodeRecord.id t.nodes plan.createdNodes }.Writable :=
    ⟨h.writable.candidate, h.writable.node, hw.relation, h.writable.node_name_inj,
      hw.relation_name_inj⟩
  have hrelations := hputs.changeRelations hwritable (h.validChanges.congr rfl)
  have hedges := hrelations.putEdges h.edge_ids h.edge_fresh
  -- the pointer is deleted only if the graph has changed
  have hpointer : ∀ {db : Database} {t' : Tables}, Represents db t' →
      Represents (db.write (if plan.graphChanged then
          [WriteOp.delete .default META_ACTIVE_ROUTING_IMAGE] else []))
        { t' with metadata := { t'.metadata with
          pointer := if plan.graphChanged then none else t'.metadata.pointer } } := by
    intro db t' hdb
    cases plan.graphChanged with
    | false => exact hdb
    | true => exact hdb.clearPointer
  rw [write_append, write_append, write_append, write_append, write_append]
  have hnode := (hpointer hedges).putMetadata .nextNode (encodeU64Record plan.followingNode)
    (d := { t.metadata with
      nextNode := plan.followingNode
      pointer := if plan.graphChanged then none else t.metadata.pointer })
    fun key => by cases key <;> rfl
  have hrelation := hnode.putMetadata .nextRelation (encodeU64Record plan.followingRelation)
    (d := { t.metadata with
      nextNode := plan.followingNode
      nextRelation := plan.followingRelation
      pointer := if plan.graphChanged then none else t.metadata.pointer })
    fun key => by cases key <;> rfl
  exact hrelation.putMetadata .nextEdge (encodeU64Record plan.followingEdge)
    fun key => by cases key <;> rfl

lemma inv_after (h : Confirmation c t cs plan changes) {db : Database}
    (hdb : Represents db (t.confirmed cs plan changes)) :
    CatalogInv (Catalog.addNames { c with db := db } plan) (t.confirmed cs plan changes) :=
  ⟨hdb, h.writable, h.consistent, h.counted, h.nodeNames, h.relationNames⟩

lemma evolves (h : Confirmation c t cs plan changes) :
    t.Evolves (t.confirmed cs plan changes) := by
  have hnode := h.planned.nodes.following_eq
  have hrelation := h.planned.relations.following_eq
  have hedge := h.planned.following_eq
  refine ⟨le_rfl, ?_, ?_, ?_, fun id candidate hget => .inl (SortedMap.get_dropAll.1 hget).1,
    fun id r hget => ?_, fun id r hget => ?_, fun id e hget => ?_⟩
  · show _ ≤ plan.followingNode.val
    omega
  · show _ ≤ plan.followingRelation.val
    omega
  · show _ ≤ plan.followingEdge.val
    omega
  · have hnodes := h.planned.newNodes h.inv
    rcases (SortedMap.get_putAll hnodes.ids hnodes.fresh).1 hget with hold | ⟨hnew, rfl⟩
    · exact .inl hold
    · exact .inr (h.planned.nodes.id_range hnew).1
  · by_cases hid : id ∈ changes.map RelationChange.id
    · obtain ⟨ch, hch, rfl⟩ := List.mem_map.1 hid
      obtain ⟨r', base, -, -, hfinal, hcases⟩ := h.of_mem hch
      have hafter := (h.validChanges.get_of_mem hch).symm.trans hget
      have hr : r' = r := by
        rcases hcases with ⟨-, rfl⟩ | ⟨-, rfl⟩
        · exact Option.some.inj hafter
        · exact Option.some.inj hafter
      rcases hfinal.is_base.2 with hstored | hcreated
      · refine .inl ⟨base, ?_, hr ▸ hfinal.name_eq⟩
        rw [← hfinal.is_base.1]
        exact hstored
      · right
        rw [← hfinal.is_base.1]
        exact (h.planned.relations.id_range hcreated).1
    · exact .inl ⟨r, (ValidChanges.get_of_notMem hid).symm.trans hget, rfl⟩
  · rcases h.get_edge.1 hget with hold | ⟨hnew, rfl⟩
    · exact .inl hold
    · obtain ⟨i, hi⟩ := List.getElem?_of_mem hnew
      right
      rw [h.planned.ids i e hi]
      exact Nat.le_add_right _ _

/-- Every identifier a counter passes is that of a created record. -/
lemma fills (h : Confirmation c t cs plan changes) : t.Fills (t.confirmed cs plan changes) := by
  intro k id hle hlt
  cases k with
  | candidate => exact absurd hlt (not_lt.2 hle)
  | node =>
    have hnodes := h.planned.newNodes h.inv
    obtain ⟨r, hr, hid⟩ := h.planned.nodes.exists_of_range hle hlt
    exact ⟨r, (SortedMap.get_putAll hnodes.ids hnodes.fresh).2 (.inr ⟨hr, hid⟩)⟩
  | relation =>
    obtain ⟨r, hr, hid⟩ := h.planned.relations.exists_of_range hle hlt
    obtain ⟨r', hr', -⟩ := h.get_relation ⟨hid, .inr hr⟩
    exact ⟨r', hr'⟩
  | edge =>
    obtain ⟨e, he, hid⟩ := exists_of_consecutive h.planned.ids hle
      (lt_of_lt_of_eq hlt h.planned.following_eq)
    exact ⟨e, h.get_edge.2 (.inr ⟨he, hid⟩)⟩

/-- Without new records the graph and the pointer stay. -/
lemma sameGraph (h : Confirmation c t cs plan changes) (hsame : plan.graphChanged = false) :
    t.SameGraph (t.confirmed cs plan changes) ∧
      (t.confirmed cs plan changes).metadata.pointer = t.metadata.pointer := by
  simp only [ConfirmPlan.graphChanged, Bool.or_eq_false_iff, Bool.not_eq_false',
    List.isEmpty_iff] at hsame
  obtain ⟨⟨hnodes, hrelations⟩, hedges⟩ := hsame
  refine ⟨⟨?_, ?_, fun id => ?_⟩, ?_⟩
  · simp only [Tables.confirmed, hnodes]
    rfl
  · simp only [Tables.confirmed, hedges]
    rfl
  · rcases hget : t.relations.get id with _ | r
    · rcases hafter : (t.confirmed cs plan changes).relations.get id with _ | r'
      · rfl
      · exfalso
        by_cases hid : id ∈ changes.map RelationChange.id
        · obtain ⟨ch, hch, rfl⟩ := List.mem_map.1 hid
          obtain ⟨r, base, -, -, hfinal, -⟩ := h.of_mem hch
          rcases hfinal.is_base.2 with hstored | hcreated
          · rw [← hfinal.is_base.1, show t.relations.get base.id = some base from hstored] at hget
            cases hget
          · rw [hrelations] at hcreated
            cases hcreated
        · rw [show (t.confirmed cs plan changes).relations.get id = t.relations.get id from
            ValidChanges.get_of_notMem hid, hget] at hafter
          cases hafter
    · obtain ⟨r', hr', -, hname⟩ := h.get_relation
        ⟨h.inv.represents.relations.id_eq _ _ hget, .inl (h.inv.represents.relations.has hget)⟩
      rw [hr', Option.map_some, Option.map_some, hname]
  · simp [Tables.confirmed, ConfirmPlan.graphChanged, hnodes, hrelations, hedges]

end Confirmation

/-! ## The operation -/

lemma responseBytes_le {record : ConfirmedRecord} (h : record.Fits) :
    ∃ bytes, responseBytes record = some bytes ∧ bytes < 2 ^ 34 := by
  have hadd : ∀ {a b : ℕ}, a + b < 2 ^ 34 → checkedAdd64 a b = some (a + b) := fun hlt =>
    checkedAdd64_eq_some.2 ⟨hlt.trans (by decide), rfl⟩
  rcases record with record | record | _
  · have hname : (strBytes record.name.asStr).length < 2 ^ 32 := h.name
    have hpayload : record.payload.asBytes.length ≤ MAX_NODE_PAYLOAD_BYTES := h.payload
    unfold MAX_NODE_PAYLOAD_BYTES at hpayload
    refine ⟨(strBytes record.name.asStr).length + record.payload.asBytes.length + 128, ?_, by omega⟩
    simp only [responseBytes]
    rw [hadd (by omega), Option.bind_eq_bind, Option.bind_some, hadd (by omega)]
  · have hname : (strBytes record.name.asStr).length < 2 ^ 32 := h
    exact ⟨_, hadd (by omega), by omega⟩
  · exact ⟨160, rfl, by decide⟩

/-- The response of a batch that is not too long is far from overflowing. -/
lemma checkResponse_ensures {records : List ConfirmedRecord} (hfits : ∀ r ∈ records, r.Fits)
    (maximum : ℕ) :
    Ensures (checkResponse records maximum) (fun _ => True)
      (Blocked (records.length ≤ MAXIMUM_CANDIDATE_BATCH_ENTRIES ∧ maximum = u64Max)) := by
  have htotal : Ensures (records.foldlM addResponseBytes 256)
      (fun total => total ≤ 256 + records.length * 2 ^ 34)
      (Blocked (records.length ≤ MAXIMUM_CANDIDATE_BATCH_ENTRIES ∧ maximum = u64Max)) := by
    refine ensures_foldlM (I := fun pre total => total ≤ 256 + pre.length * 2 ^ 34) records
      (fun pre record post total hsplit hpre => ?_) (Nat.le_refl 256)
    obtain ⟨bytes, hbytes, hlt⟩ := responseBytes_le (hfits record (by simp [hsplit]))
    simp only [addResponseBytes, hbytes, okOr_some, ok_bind]
    refine ensures_okOr (fun total' htotal' => ?_)
      fun hnone => ⟨fun hcorrupt => hcorrupt, fun hlimits => ?_⟩
    · rw [(checkedAdd64_eq_some.1 htotal').2, List.length_append, List.length_singleton]
      omega
    · have hshort := hlimits.1
      rw [hsplit, List.length_append] at hshort
      unfold MAXIMUM_CANDIDATE_BATCH_ENTRIES at hshort
      have hover := checkedAdd64_eq_none.1 hnone
      omega
  refine htotal.bind fun estimated hestimated => ?_
  split_ifs with hlimit
  · refine ⟨fun hcorrupt => hcorrupt, fun hlimits => ?_⟩
    rw [hlimits.2, u64Max] at hlimit
    have hshort := hlimits.1
    unfold MAXIMUM_CANDIDATE_BATCH_ENTRIES at hshort
    omega
  · trivial

lemma checkSelectionSize_ensures (ids : List CandidateId) :
    Ensures (checkSelectionSize ids)
      (fun _ => ids ≠ [] ∧ ids.length ≤ MAXIMUM_CANDIDATE_BATCH_ENTRIES)
      (Blocked (t.Confirmable ids)) := by
  unfold checkSelectionSize
  by_cases hempty : ids = []
  · simp only [if_pos hempty]
    exact ⟨fun hcorrupt => hcorrupt, fun h => h.nonempty hempty⟩
  by_cases hlong : MAXIMUM_CANDIDATE_BATCH_ENTRIES < ids.length
  · simp only [if_neg hempty, if_pos hlong]
    exact ⟨fun hcorrupt => hcorrupt, fun h => absurd h.short (not_le.2 hlong)⟩
  · simp only [if_neg hempty, if_neg hlong]
    exact ⟨hempty, not_lt.1 hlong⟩

lemma confirmBatch_ensures {E : CatalogError → Prop} (inv : CatalogInv c t)
    {cs : List Candidate} {plan : ConfirmPlan}
    (hclosed : Closed t cs) (hplan : EdgesPlanned c t cs plan) :
    Ensures (confirmBatch c.db plan cs) (fun batch => ∃ changes, Confirmation c t cs plan changes ∧
      Represents (c.db.write batch) (t.confirmed cs plan changes)) E := by
  have hnodes : plan.createdNodes.mapM putNode = .ok (plan.createdNodes.map nodeEntries) := by
    refine mapM_eq_ok _ fun r hr => ?_
    have hfits := hplan.nodes.good_of_mem r hr
    have hkey : encodeNameKey r.name.asStr = .ok (nameBytes r.name.asStr) := pushString_eq hfits.name
    simp only [putNode, encodeNode_eq hfits, hkey, mapErr, ok_bind]
    rfl
  simp only [confirmBatch, hnodes, ok_bind]
  refine (ensures_mapM _ fun entry hentry => putFinalRelation_ensures inv hplan hentry).bind
    fun batches hbatches => ?_
  obtain ⟨changes, hchanges, rfl⟩ := forall₂_choose hbatches
  have hconfirmation : Confirmation c t cs plan changes := ⟨inv, hclosed, hplan, hchanges⟩
  refine ensures_pure ⟨changes, hconfirmation, ?_⟩
  rw [← List.flatMap_def, ← List.flatMap_def]
  exact hconfirmation.represents

/-- Both planning loops over the candidates succeed with the plan. -/
def Plans (c : Catalog) (t : Tables) (cs : List Candidate) (plan : ConfirmPlan) : Prop :=
  ∃ plan₁, cs.zipIdx.foldlM (planRecord c)
      (.new t.metadata.nextNode t.metadata.nextRelation t.metadata.nextEdge) = .ok plan₁ ∧
    cs.zipIdx.foldlM (planEdge c.db) plan₁ = .ok plan

lemma Tables.HasRoom.plans (inv : CatalogInv c t) {cs : List Candidate} (hclosed : Closed t cs)
    (hroom : t.HasRoom cs.length) : ∃ plan, Plans c t cs plan := by
  have hfits : ∀ candidate ∈ cs, candidate.Fits := fun candidate hmem =>
    inv.writable.candidate _ _ (hclosed.has candidate hmem)
  obtain ⟨plan₁, hrecords, hplan₁⟩ :=
    (planRecords_ensures inv hfits (RecordsResolved.new c t)).exists_of_blocked hroom
  obtain ⟨plan, hedges, -⟩ := (planEdges_ensures inv hclosed hplan₁).exists_of_blocked hroom
  exact ⟨plan, plan₁, hrecords, hedges⟩

/-- What a successful confirmation has done. -/
structure Confirms (c : Catalog) (t : Tables) (ids : List CandidateId)
    (result : CandidateBatchConfirmation) (c' : Catalog) (cs : List Candidate) (plan : ConfirmPlan)
    (changes : List RelationChange) : Prop where
  confirmation : Confirmation c t cs plan changes
  nonempty : ids ≠ []
  short : ids.length ≤ MAXIMUM_CANDIDATE_BATCH_ENTRIES
  ids_eq : cs.map Candidate.id = ids
  plans : Plans c t cs plan
  inv : CatalogInv c' (t.confirmed cs plan changes)
  records : result.records = (List.range cs.length).filterMap plan.aligned
  counts : result.counts = tally cs
  graphChanged : result.graphChanged = plan.graphChanged
  createdNodes : result.createdNodes = plan.createdNodes.length
  createdRelationKinds : result.createdRelationKinds = plan.createdRelations.length

/-- What a confirmation does, and what keeps it from succeeding. -/
lemma confirm_spec (inv : CatalogInv c t) (disk : WriteAnswer) (candidateIds : List CandidateId)
    (maximumResponseBytes : ℕ) :
    RunEnsures (confirmCandidateBatchWithResponseLimit disk candidateIds maximumResponseBytes) c
      (fun result c' => ∃ cs plan changes,
        Confirms c t candidateIds result c' cs plan changes)
      (Blocked (disk = .written ∧ maximumResponseBytes = u64Max ∧ t.Confirmable candidateIds ∧
        ∀ cs, Closed t cs → cs.map Candidate.id = candidateIds → ∃ plan, Plans c t cs plan)) := by
  have hdb := inv.represents
  refine runEnsures_planning ((checkSelectionSize_ensures candidateIds).weaken fun _ he =>
    he.mono fun h => h.2.2.1) fun _ hsize => runEnsures_get ?_
  refine runEnsures_planning ((select_ensures hdb candidateIds).weaken fun _ he =>
    he.mono fun h => h.2.2.1) fun s hs => ?_
  have hids := hs.ids_eq hdb
  refine runEnsures_planning ((countSelected_ensures hdb inv.consistent hs).weaken fun _ he =>
    he.mono fun h => h.2.2.1) fun out hout => ?_
  obtain ⟨counts, incoming⟩ := out
  obtain ⟨hcounts, hrefs, hcount⟩ := hout
  refine runEnsures_planning (ensures_forM _ fun candidate hmem =>
    checkClosure_ensures incoming candidate fun h count heq => ?_) fun _ hcomplete => ?_
  · refine Fin.ext ?_
    rw [hcount]
    exact h.2.2.1.complete inv.consistent hids (fun _ => hs.has hdb) hmem heq
  have hclosed : Closed t s.candidates := by
    refine ⟨?_, fun candidate => hs.has hdb, hrefs, fun candidate hmem count heq => ?_⟩
    · rw [hids]
      exact hs.nodup
    · rw [← hcount, hcomplete candidate hmem count heq]
  have hfits : ∀ candidate ∈ s.candidates, candidate.Fits := fun candidate hmem =>
    inv.writable.candidate _ _ (hs.has hdb hmem)
  have hread : ∀ {P : Prop} (key : MetadataKey) (id : String) (n : U64),
      t.metadata.value key = some (encodeU64Record n) →
      Ensures (readMetadata c.db key.bytes id) (fun m => m = n) (Blocked P) := by
    intro P key id n hvalue
    rw [hdb.readMetadata_eq key id hvalue]
    exact rfl
  refine runEnsures_planning (hread .nextNode _ _ rfl) fun nextNode hnode => ?_
  refine runEnsures_planning (hread .nextRelation _ _ rfl) fun nextRelation hrelation => ?_
  refine runEnsures_planning (hread .nextEdge _ _ rfl) fun nextEdge hedge => ?_
  subst hnode hrelation hedge
  -- first the nodes and relation kinds are planned, then the edges, which refer to them
  have hrecords := planRecords_ensures inv hfits (RecordsResolved.new c t)
  refine runEnsures_planning (hrecords.with_eq.blocked fun h => ?_) fun plan₁ hplan₁ => ?_
  · obtain ⟨plan, plan₁, hrun, -⟩ := h.2.2.2 _ hclosed hids
    exact ⟨plan₁, hrun⟩
  obtain ⟨hrun₁, hplan₁⟩ := hplan₁
  have hedges := planEdges_ensures inv hclosed hplan₁
  refine runEnsures_planning (hedges.with_eq.blocked fun h => ?_) fun plan hplan => ?_
  · obtain ⟨plan, plan', hrun', hrun⟩ := h.2.2.2 _ hclosed hids
    rw [hrun₁] at hrun'
    cases hrun'
    exact ⟨plan, hrun⟩
  obtain ⟨hrun, hplan⟩ := hplan
  have hlength : ((List.range s.candidates.length).filterMap plan.aligned).length ≤
      candidateIds.length := by
    rw [← hids, List.length_map]
    exact (List.length_filterMap_le _ _).trans_eq List.length_range
  refine runEnsures_planning ((checkResponse_ensures (fun r hr => ?_) _).weaken fun _ he =>
    he.mono fun h => ⟨hlength.trans hsize.2, h.2.1⟩) fun _ _ => ?_
  · obtain ⟨i, -, hi⟩ := List.mem_filterMap.1 hr
    exact hplan.aligned i r hi
  refine runEnsures_planning (confirmBatch_ensures inv hclosed hplan.planned) fun batch hbatch => ?_
  obtain ⟨changes, hconfirmation, hrepresents⟩ := hbatch
  refine runEnsures_commit (fun hdisk => ⟨fun hcorrupt => hcorrupt, fun h => ?_⟩)
    (fun _ hdisk => ⟨fun hcorrupt => hcorrupt, fun h => ?_⟩) ⟨_, _, rfl, s.candidates, plan, changes,
      hconfirmation, hsize.1, hsize.2, hids, ⟨plan₁, hrun₁, hrun⟩,
      hconfirmation.inv_after hrepresents, rfl, hcounts, rfl, rfl, rfl⟩
  · cases hdisk.symm.trans h.1
  · cases hdisk.symm.trans h.1

lemma confirm_ensures (inv : CatalogInv c t) (disk : WriteAnswer) (candidateIds : List CandidateId)
    (maximumResponseBytes : ℕ) :
    RunEnsures (confirmCandidateBatchWithResponseLimit disk candidateIds maximumResponseBytes) c
      (fun result c' => ∃ t', CatalogInv c' t' ∧ t.Evolves t' ∧ t.Fills t' ∧
        (result.graphChanged = true → t'.metadata.pointer = none) ∧
        (result.graphChanged = false → t.SameGraph t' ∧
          t'.metadata.pointer = t.metadata.pointer)) NotCorrupt := by
  refine (confirm_spec inv disk candidateIds maximumResponseBytes).mono (fun result c' h => ?_)
    fun _ he => he.1
  obtain ⟨cs, plan, changes, h⟩ := h
  refine ⟨t.confirmed cs plan changes, h.inv, h.confirmation.evolves, h.confirmation.fills,
    fun hchanged => ?_, fun hsame => h.confirmation.sameGraph (h.graphChanged.symm.trans hsame)⟩
  simp [Tables.confirmed, h.graphChanged.symm.trans hchanged]

end PathHydra
