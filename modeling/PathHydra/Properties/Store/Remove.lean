import PathHydra.Properties.Store.Insert

/-!
# Removal keeps the invariant

Removing edges takes as many uses from each relation kind as there are edges of it, and removes the
kinds that lose their last use.  No edge or candidate that stays uses a removed kind, and for a node
no edge or candidate that stays refers to it.
-/

namespace PathHydra

variable {t : Tables} {db : Database} {E : CatalogError → Prop}

/-! ## Releasing relation kinds -/

/-- The record a change removes. -/
def RelationChange.removed : RelationChange → Option RelationRecord
  | .remove old => some old
  | _ => none

/-- The change that takes uses from a relation kind. -/
def Releases (t : Tables) (usage : RelationId × U64) (ch : RelationChange) : Prop :=
  ∃ old, t.relations.get usage.1 = some old ∧
    (ch = .remove old ∧ old.provisionalReferenceCount.val = 0 ∧
        old.confirmedEdgeCount.val = usage.2.val ∨
      ∃ r, ch = .update old r ∧ r.id = old.id ∧ r.name = old.name ∧
        r.provisionalReferenceCount = old.provisionalReferenceCount ∧
        r.confirmedEdgeCount.val + usage.2.val = old.confirmedEdgeCount.val ∧ r.Fits ∧
        ¬ (r.provisionalReferenceCount = 0 ∧ r.confirmedEdgeCount = 0))

lemma Releases.id_eq (h : Represents db t) {usage : RelationId × U64} {ch : RelationChange}
    (hch : Releases t usage ch) : ch.id = usage.1 := by
  obtain ⟨old, hold, ⟨rfl, -⟩ | ⟨r, rfl, hid, -⟩⟩ := hch
  · exact h.relations.id_eq _ _ hold
  · exact hid.trans (h.relations.id_eq _ _ hold)

/-- Taking uses that are there either updates the relation kind or removes it. -/
lemma release_ensures (hw : t.Writable) (h : Represents db t) {id : RelationId} {decrement : U64}
    {old : RelationRecord} (hold : t.relations.get id = some old)
    (hle : decrement.val ≤ old.confirmedEdgeCount.val) (operation : String) :
    Ensures (releaseUsage old decrement operation)
      (fun out => ∃ ch, Releases t (id, decrement) ch ∧
        (ch.removed = if out.2 then some old else none) ∧
        putReleased old out.1 out.2 = .ok ch.batch) E := by
  have hfits := hw.relation old (h.relations.has hold)
  let confirmed : U64 := ⟨old.confirmedEdgeCount.val - decrement.val, by
    have := old.confirmedEdgeCount.isLt
    omega⟩
  have hsub : old.confirmedEdgeCount.checkedSub decrement = some confirmed :=
    U64.checkedSub_eq_some.2 (by show decrement.val + (_ - _) = _; omega)
  have hpopularity : deletePopularity old =
      .ok (.delete .relationPopularity (popularityBytes old)) := by
    simp only [deletePopularity, encodePopularityKey_eq hfits.usage, mapErr, ok_bind]
    rfl
  simp only [releaseUsage, hsub, okOr_some, ok_bind]
  -- without any use left the record is removed, otherwise it is written with the smaller count
  by_cases hlast : old.provisionalReferenceCount = 0 ∧ confirmed = 0
  · refine ensures_pure ⟨.remove old, ⟨old, hold, .inl ⟨rfl, by simp [hlast.1], ?_⟩⟩, ?_, ?_⟩
    · have hzero : old.confirmedEdgeCount.val - decrement.val = 0 := congrArg Fin.val hlast.2
      show old.confirmedEdgeCount.val = decrement.val
      omega
    · simp [RelationChange.removed, hlast]
    · have hname : encodeNameKey old.name.asStr = .ok (nameBytes old.name.asStr) :=
        pushString_eq hfits.name
      simp only [putReleased, hpopularity, hlast, and_self, decide_true, if_true, hname, mapErr,
        ok_bind]
      rfl
  · let r : RelationRecord := { old with confirmedEdgeCount := confirmed }
    have hr : r.Fits := by
      refine ⟨hfits.name, ?_⟩
      have husage := hfits.usage
      unfold RelationRecord.UsageFits at husage ⊢
      show old.provisionalReferenceCount.val + (old.confirmedEdgeCount.val - decrement.val) < 2 ^ 64
      omega
    refine ensures_pure ⟨.update old r, ⟨old, hold, .inr ⟨r, rfl, rfl, rfl, rfl, ?_, hr, hlast⟩⟩,
      ?_, ?_⟩
    · show old.confirmedEdgeCount.val - decrement.val + decrement.val = _
      omega
    · simp [RelationChange.removed, hlast]
    · have hput : putRelation r = .ok
          [.put .relationKinds (encodeIdKey r.id.asU64) (relationBytes r),
            .put .relationPopularity (popularityBytes r) (encodeU64Record r.id.asU64)] := by
        simp only [putRelation, encodeRelation_eq hr, encodePopularityKey_eq hr.usage, mapErr,
          ok_bind]
        rfl
      simp only [putReleased, hpopularity, decide_eq_false hlast, ok_bind, Bool.false_eq_true,
        if_false]
      rw [show putRelation { old with confirmedEdgeCount := confirmed } = _ from hput]
      rfl

/-! ## The tables after a removal -/

/-- What planning a removal of edges has established. -/
structure Removal (t : Tables) (es : List EdgeRecord) (decrements : SortedMap RelationId U64)
    (changes : List RelationChange) : Prop where
  nodup : (es.map EdgeRecord.id).Nodup
  has : ∀ e ∈ es, t.HasEdge e
  counts : ∀ r, ((decrements.get r).getD 0).val = (es.map (EdgeRecord.uses r)).sum
  changes : List.Forall₂ (Releases t) decrements.entries changes

/-- The tables after a removal of edges, with the nodes that stay. -/
def Tables.removed (t : Tables) (es : List EdgeRecord) (changes : List RelationChange)
    (nodes : SortedMap NodeId NodeRecord) : Tables :=
  { t.changeRelations changes with
    nodes := nodes
    edges := t.edges.dropAll (es.map EdgeRecord.id)
    metadata := { t.metadata with pointer := none } }

namespace Removal

variable {es : List EdgeRecord} {decrements : SortedMap RelationId U64}
  {changes : List RelationChange} {nodes : SortedMap NodeId NodeRecord}

lemma validChanges (h : Removal t es decrements changes) (hdb : Represents db t) :
    ValidChanges t changes := by
  have hids : changes.map RelationChange.id = decrements.entries.map Prod.fst := by
    refine (forall₂_eq_map (g := Prod.fst) (List.forall₂_map_right_iff.2 ?_))
    exact h.changes.imp fun _ _ hch => hch.id_eq hdb
  refine ⟨?_, fun ch hch => ?_, fun r r' hr => ?_⟩
  · rw [hids]
    exact List.pairwise_map.2 (decrements.sorted.imp fun hlt => hlt.ne)
  · obtain ⟨usage, -, old, hold, ⟨rfl, -⟩ | ⟨r, rfl, hid, hname, -, -, hfits, -⟩⟩ :=
      forall₂_exists_of_mem h.changes.flip hch
    · exact hdb.relations.has hold
    · exact ⟨hdb.relations.has hold, hfits, hid, hname⟩
  · obtain ⟨usage, -, old, -, ⟨heq, -⟩ | ⟨r', heq, -⟩⟩ := forall₂_exists_of_mem h.changes.flip hr
    · cases heq
    · cases heq

/-- A relation kind stays with fewer uses, or had no others. -/
lemma get_relation (h : Removal t es decrements changes) (hdb : Represents db t) {id : RelationId}
    {old : RelationRecord} (hold : t.relations.get id = some old) :
    (∃ r, (t.changeRelations changes).relations.get id = some r ∧ r.id = old.id ∧
      r.name = old.name ∧ r.provisionalReferenceCount = old.provisionalReferenceCount ∧
      r.confirmedEdgeCount.val + (es.map (EdgeRecord.uses id)).sum = old.confirmedEdgeCount.val) ∨
    (t.changeRelations changes).relations.get id = none ∧ RelationChange.remove old ∈ changes ∧
      old.provisionalReferenceCount.val = 0 ∧
      old.confirmedEdgeCount.val = (es.map (EdgeRecord.uses id)).sum := by
  rw [← h.counts id]
  rcases hget : decrements.get id with _ | decrement
  · left
    refine ⟨old, ?_, rfl, rfl, rfl, by simp⟩
    rw [← hold]
    refine ValidChanges.get_of_notMem fun hmem => ?_
    obtain ⟨ch, hch, rfl⟩ := List.mem_map.1 hmem
    obtain ⟨usage, husage, hreleases⟩ := forall₂_exists_of_mem h.changes.flip hch
    rw [Releases.id_eq hdb hreleases, SortedMap.get_of_mem husage] at hget
    cases hget
  · obtain ⟨ch, hch, old', hold', hcases⟩ :=
      forall₂_exists_of_mem h.changes (SortedMap.get_eq_some.1 hget)
    obtain rfl : old' = old := Option.some.inj (hold'.symm.trans hold)
    have hid := hdb.relations.id_eq _ _ hold
    have hafter := (h.validChanges hdb).get_of_mem hch
    rcases hcases with ⟨rfl, hprovisional, hconfirmed⟩ | ⟨r, rfl, hrid, hname, hp, hc, -⟩
    · right
      rw [show (RelationChange.remove old').id = id from hid] at hafter
      exact ⟨hafter, hch, hprovisional, hconfirmed⟩
    · left
      rw [show (RelationChange.update old' r).id = id from hrid.trans hid] at hafter
      exact ⟨r, hafter, hrid, hname, hp, hc⟩

/-- Where a relation kind after the removal comes from. -/
lemma relation_cases (h : Removal t es decrements changes) (hdb : Represents db t)
    {r : RelationRecord} (hr : (t.changeRelations changes).HasRelation r) :
    ∃ old, t.HasRelation old ∧ r.id = old.id ∧ r.name = old.name ∧
      r.provisionalReferenceCount = old.provisionalReferenceCount ∧
      r.confirmedEdgeCount.val + (es.map (EdgeRecord.uses r.id)).sum =
        old.confirmedEdgeCount.val := by
  have hvalid := h.validChanges hdb
  obtain ⟨old, hold, hid⟩ : ∃ old, t.HasRelation old ∧ r.id = old.id := by
    rcases hvalid.has_named hr with ⟨old, hold, hid, -⟩ | hcreate
    · exact ⟨old, hold, hid⟩
    · obtain ⟨usage, -, old, -, ⟨heq, -⟩ | ⟨r', heq, -⟩⟩ :=
        forall₂_exists_of_mem h.changes.flip hcreate
      · cases heq
      · cases heq
  rcases h.get_relation hdb hold with ⟨r', hr', hrest⟩ | ⟨hnone, -⟩
  · rw [Tables.HasRelation, hid, hr'] at hr
    cases hr
    rw [← hid] at hrest
    exact ⟨old, hold, hid, hrest.2.1, hrest.2.2⟩
  · rw [Tables.HasRelation, hid, hnone] at hr
    cases hr

lemma get_edge {e : EdgeRecord} : (t.removed es changes nodes).HasEdge e ↔
    t.HasEdge e ∧ e.id ∉ es.map EdgeRecord.id := SortedMap.get_dropAll

/-- The uses of the edges that stay and of those that leave add up. -/
lemma sum_edges (h : Removal t es decrements changes) (f : EdgeRecord → ℕ) :
    (t.removed es changes nodes).edges.sum f + (es.map f).sum = t.edges.sum f :=
  SortedMap.sum_dropAll h.nodup h.has f

lemma consistent (h : Removal t es decrements changes) (hdb : Represents db t)
    (hc : t.Consistent)
    (hedges : ∀ e, t.HasEdge e → e.id ∉ es.map EdgeRecord.id →
      (∃ r, nodes.get e.source = some r) ∧ ∃ r, nodes.get e.destination = some r)
    (hcandidates : ∀ id c node r, t.candidates.get id = some c → c.MentionsNode node →
      t.nodes.get node = some r → ∃ r', nodes.get node = some r') :
    (t.removed es changes nodes).Consistent := by
  refine ⟨fun e he => ?_, fun id c hget => ?_, hc.incoming, fun r hr => ?_, fun r hr => ?_⟩
  · obtain ⟨hold, hnot⟩ := get_edge.1 he
    obtain ⟨-, -, record, hrecord⟩ := hc.edge e hold
    refine ⟨(hedges e hold hnot).1, (hedges e hold hnot).2, ?_⟩
    rcases h.get_relation hdb hrecord with ⟨r, hr, -⟩ | ⟨-, -, -, hlast⟩
    · exact ⟨r, hr⟩
    · -- the edge that stays is a use the relation kind still has
      have hsum : (t.removed es changes nodes).edges.sum (EdgeRecord.uses e.relationKind) + _ = _ :=
        h.sum_edges _
      have hone := SortedMap.le_sum (EdgeRecord.uses e.relationKind) he
      have hcount := hc.confirmed record (hdb.relations.has hrecord)
      rw [hdb.relations.id_eq _ _ hrecord] at hcount
      simp only [EdgeRecord.uses, if_true] at hone
      omega
  · refine (hc.candidate id c hget).mono
      (fun node r hr hmentions => hcandidates id c node r hget hmentions hr)
      (fun rel r hr huses => ?_) fun id c' hc' _ => hc'
    rcases h.get_relation hdb hr with ⟨r', hr', -⟩ | ⟨-, -, hlast, -⟩
    · exact ⟨r', hr'⟩
    · have hone : c.uses rel ≤ t.candidates.sum (Candidate.uses rel) := SortedMap.le_sum _ hget
      have hcount := hc.provisional r (hdb.relations.has hr)
      rw [hdb.relations.id_eq _ _ hr] at hcount
      omega
  · obtain ⟨old, hold, hid, -, hprovisional, -⟩ := h.relation_cases hdb hr
    rw [hprovisional, hc.provisional old hold, hid]
    rfl
  · obtain ⟨old, hold, hid, -, -, hconfirmed⟩ := h.relation_cases hdb hr
    have hsum : (t.removed es changes nodes).edges.sum (EdgeRecord.uses r.id) + _ = _ :=
      h.sum_edges _
    have hcount := hc.confirmed old hold
    rw [← hid] at hcount
    omega

lemma writable (h : Removal t es decrements changes) (hdb : Represents db t) (hw : t.Writable)
    (hnodes : ∀ r, nodes.get r.id = some r → t.HasNode r) :
    (t.removed es changes nodes).Writable := by
  have hvalid := h.validChanges hdb
  exact ⟨hw.candidate, fun r hr => hw.node r (hnodes r hr), hvalid.fits hw.relation,
    fun r r' hr hr' => hw.node_name_inj r r' (hnodes r hr) (hnodes r' hr'),
    hvalid.name_inj hw.relation_name_inj⟩

lemma counted (h : Removal t es decrements changes) (hdb : Represents db t) (hc : t.Counted)
    (hnodes : ∀ id r, nodes.get id = some r → t.nodes.get id = some r) :
    (t.removed es changes nodes).Counted := by
  refine { hc with
    node := fun id r hr => hc.node id r (hnodes id r hr)
    relation := fun id r hr => ?_
    edge := fun id e he => hc.edge id e (SortedMap.get_dropAll.1 he).1
    pointer := fun p hp => by cases hp }
  by_cases hid : id ∈ changes.map RelationChange.id
  · obtain ⟨ch, hch, rfl⟩ := List.mem_map.1 hid
    obtain ⟨usage, -, hreleases⟩ := forall₂_exists_of_mem h.changes.flip hch
    rw [Releases.id_eq hdb hreleases]
    obtain ⟨old, hold, -⟩ := hreleases
    exact hc.relation _ _ hold
  · rw [show (t.removed es changes nodes).relations.get id = t.relations.get id from
      ValidChanges.get_of_notMem hid] at hr
    exact hc.relation id r hr

/-- The names of the removed relation kinds leave. -/
lemma relationNames (h : Removal t es decrements changes) (hdb : Represents db t)
    (hw : t.Writable) {names : String → Option RelationId}
    (hnames : NamesOf names t.HasRelation (fun r => r.name.asStr) RelationRecord.id) :
    NamesOf ((changes.filterMap RelationChange.removed).foldl
        (fun names r => Function.update names r.name.asStr none) names)
      (t.removed es changes nodes).HasRelation (fun r => r.name.asStr) RelationRecord.id := by
  have hmem : ∀ old, old ∈ changes.filterMap RelationChange.removed ↔
      RelationChange.remove old ∈ changes := by
    intro old
    rw [List.mem_filterMap]
    constructor
    · rintro ⟨ch, hch, hremoved⟩
      cases ch with
      | remove old' =>
        cases hremoved
        exact hch
      | create r => cases hremoved
      | update old' r => cases hremoved
    · exact fun hch => ⟨_, hch, rfl⟩
  refine hnames.removeAll fun s id => ⟨?_, ?_⟩
  · rintro ⟨r, hr, rfl, rfl⟩
    obtain ⟨old, hold, hid, hname, -⟩ := h.relation_cases hdb hr
    refine ⟨⟨old, hold, by rw [hname], hid.symm⟩, fun hs => ?_⟩
    obtain ⟨old', hold', heq⟩ := List.mem_map.1 hs
    have hremove := (hmem old').1 hold'
    have hhas : t.HasRelation old' := (h.validChanges hdb).valid _ hremove
    rw [hname] at heq
    obtain rfl := hw.relation_name_inj old' old hhas hold heq
    have hnone := (h.validChanges hdb).get_of_mem hremove
    rw [Tables.HasRelation, hid, show (t.removed es changes nodes).relations.get old'.id = none
      from hnone] at hr
    cases hr
  · rintro ⟨⟨old, hold, rfl, rfl⟩, hs⟩
    rcases h.get_relation hdb hold with ⟨r, hr, hid, hname, -⟩ | ⟨-, hremove, -⟩
    · refine ⟨r, ?_, by rw [hname], hid⟩
      rw [← hid] at hr
      exact hr
    · exact absurd (List.mem_map.2 ⟨old, (hmem old).2 hremove, rfl⟩) hs

lemma evolves (h : Removal t es decrements changes) (hdb : Represents db t)
    (hnodes : ∀ id r, nodes.get id = some r → t.nodes.get id = some r) :
    t.Evolves (t.removed es changes nodes) := by
  refine { Tables.Evolves.refl t with
    node := fun id r hget => .inl (hnodes id r hget)
    relation := fun id r hget => .inl ?_
    edge := fun id e hget => .inl (SortedMap.get_dropAll.1 hget).1 }
  by_cases hid : id ∈ changes.map RelationChange.id
  · obtain ⟨ch, hch, rfl⟩ := List.mem_map.1 hid
    obtain ⟨usage, -, hreleases⟩ := forall₂_exists_of_mem h.changes.flip hch
    have hch_id := Releases.id_eq hdb hreleases
    obtain ⟨old, hold, hcases⟩ := hreleases
    have hafter := (h.validChanges hdb).get_of_mem hch
    rcases hcases with ⟨rfl, -⟩ | ⟨r', rfl, -, hname, -⟩
    · cases hafter.symm.trans hget
    · cases hafter.symm.trans hget
      exact ⟨old, by rw [hch_id, hold], hname⟩
  · exact ⟨r, (ValidChanges.get_of_notMem hid).symm.trans hget, rfl⟩

end Removal

/-! ## Removing an edge -/

/-- The entries that clear the pointer, remove edges and change relation kinds. -/
lemma Represents.removeEdges (h : Represents db t) (hw : t.Writable) {es : List EdgeRecord}
    {decrements : SortedMap RelationId U64} {changes : List RelationChange}
    (hremoval : Removal t es decrements changes) :
    Represents (db.write (.delete .default META_ACTIVE_ROUTING_IMAGE ::
        es.flatMap PathHydra.deleteEdge ++ changes.flatMap RelationChange.batch))
        (t.removed es changes t.nodes) := by
  rw [List.cons_append, ← List.singleton_append, write_append, write_append]
  have hedges := h.clearPointer.deleteEdges hremoval.nodup hremoval.has
  exact hedges.changeRelations ⟨hw.candidate, hw.node, hw.relation, hw.node_name_inj,
    hw.relation_name_inj⟩ ((hremoval.validChanges h).congr rfl)

/-- The edges to remove are no more than a relation kind counts. -/
lemma uses_le_confirmed (h : Represents db t) (hc : t.Consistent) {es : List EdgeRecord}
    (hnodup : (es.map EdgeRecord.id).Nodup) (hhas : ∀ e ∈ es, t.HasEdge e) {id : RelationId}
    {old : RelationRecord} (hold : t.relations.get id = some old) :
    (es.map (EdgeRecord.uses id)).sum ≤ old.confirmedEdgeCount.val := by
  have hsum := SortedMap.sum_dropAll hnodup hhas (EdgeRecord.uses id)
  have hcount := hc.confirmed old (h.relations.has hold)
  rw [h.relations.id_eq _ _ hold] at hcount
  omega

lemma removeEdge_ensures {c : Catalog} (inv : CatalogInv c t) (disk : WriteAnswer) (id : EdgeId) :
    RunEnsures (removeEdge disk id) c
      (fun _ c' => ∃ t', CatalogInv c' t' ∧ t'.metadata.pointer = none ∧ t.Evolves t' ∧
        t.Fills t')
      NotCorrupt := by
  have hdb := inv.represents
  refine runEnsures_get (runEnsures_planning (P := fun e => t.edges.get id = some e) ?_
    fun e hget => ?_)
  · rw [hdb.getEdge_eq]
    exact ensures_okOr (fun _ he => he) fun _ hcorrupt => hcorrupt
  have he : t.HasEdge e := hdb.edges.has hget
  refine runEnsures_planning (P := fun _ => True) ?_ fun _ _ => ?_
  · rw [hdb.validateExactAdjacency_eq he]
    trivial
  obtain ⟨-, -, relation, hrelation⟩ := inv.consistent.edge e he
  refine runEnsures_planning (P := fun r => r = relation) ?_ fun r hr => ?_
  · rw [hdb.getRelation_eq, hrelation]
    exact rfl
  subst hr
  have hone : ([e].map (EdgeRecord.uses e.relationKind)).sum = 1 := by simp [EdgeRecord.uses]
  have hhas : ∀ e' ∈ [e], t.HasEdge e' := by simpa using he
  have hnodup : ([e].map EdgeRecord.id).Nodup := by simp
  have hle := uses_le_confirmed hdb inv.consistent hnodup hhas hrelation
  rw [hone] at hle
  have hle : (1 : U64).val ≤ r.confirmedEdgeCount.val := hle
  refine runEnsures_planning (release_ensures inv.writable hdb hrelation hle "edge")
    fun out hout => ?_
  obtain ⟨updated, removed⟩ := out
  obtain ⟨ch, hch, hremoved, hbatch⟩ := hout
  refine runEnsures_planning (P := fun batch => batch = ch.batch) ?_ fun batch heq => ?_
  · rw [show putReleased r updated removed = _ from hbatch]
    exact rfl
  subst heq
  -- the removal of a node with this one edge
  let decrements : SortedMap RelationId U64 := SortedMap.empty.insert e.relationKind 1
  have hremoval : Removal t [e] decrements [ch] := by
    refine ⟨hnodup, hhas, fun rel => ?_, .cons hch .nil⟩
    by_cases hrel : rel = e.relationKind
    · simp [decrements, hrel, EdgeRecord.uses]
    · simp [decrements, SortedMap.get_insert, hrel, Ne.symm hrel, EdgeRecord.uses]
  refine runEnsures_commit (fun _ hcorrupt => hcorrupt) (fun _ _ hcorrupt => hcorrupt)
    ⟨_, _, rfl, t.removed [e] [ch] t.nodes, ?_, rfl, hremoval.evolves hdb fun _ _ h => h,
      .of_counters fun k => by cases k <;> rfl⟩
  have hrepresents := hdb.removeEdges inv.writable hremoval
  simp only [List.flatMap_cons, List.flatMap_nil, List.append_nil] at hrepresents
  have hforget : (if removed then [r] else []) = [ch].filterMap RelationChange.removed := by
    rw [List.filterMap_cons, hremoved]
    cases removed <;> rfl
  refine ⟨hrepresents, hremoval.writable hdb inv.writable fun _ h => h,
    hremoval.consistent hdb inv.consistent (fun e' he' _ => ?_) fun _ _ _ r' _ _ hr' => ⟨r', hr'⟩,
    hremoval.counted hdb inv.counted fun _ _ h => h, inv.nodeNames, ?_⟩
  · exact ⟨(inv.consistent.edge e' he').1, (inv.consistent.edge e' he').2.1⟩
  · have hnames : NamesOf _ (t.removed [e] [ch] t.nodes).HasRelation _ _ :=
      hremoval.relationNames hdb inv.writable inv.relationNames
    rw [← hforget] at hnames
    exact hnames

/-! ## Removing a node -/

/-- Both scans together gather the edges at the node, each once. -/
lemma incidentOf_ensures (h : Represents db t) (node : NodeId) :
    Ensures (incidentOf db node) (fun incident => ∀ id e, incident.get id = some e ↔
      (t.HasEdge e ∧ (e.source = node ∨ e.destination = node)) ∧ e.id = id) E := by
  obtain ⟨outgoing, houtgoing, hout⟩ := h.incidentEdges_eq h.outgoing_endpoint node
  obtain ⟨incoming, hincoming, hin⟩ := h.incidentEdges_eq h.incoming_endpoint node
  simp only [incidentOf, houtgoing, hincoming, ok_bind]
  have hmem : ∀ e, e ∈ outgoing ++ incoming ↔
      t.HasEdge e ∧ (e.source = node ∨ e.destination = node) := by
    intro e
    rw [List.mem_append, hout, hin, ← and_or_left]
    rfl
  refine (ensures_foldlM (I := fun pre (incident : SortedMap EdgeId EdgeRecord) =>
    ∀ id e, incident.get id = some e ↔ e ∈ pre ∧ e.id = id) (outgoing ++ incoming)
    (fun pre e post incident hsplit hpre => ?_) ?_).mono fun incident _ hall id e => ?_
  · have he : t.HasEdge e := ((hmem e).1 (by rw [hsplit]; simp)).1
    have hsame : ∀ e', incident.get e.id = some e' → e' = e := by
      intro e' he'
      obtain ⟨hmem', hid⟩ := (hpre _ _).1 he'
      exact has_unique ((hmem e').1 (by rw [hsplit]; simp [hmem'])).1 he hid
    have hturn : gatherIncident incident e = .ok (incident.insert e.id e) := by
      unfold gatherIncident
      rcases hget : incident.get e.id with _ | e'
      · rfl
      · simp [hsame e' hget]
    rw [hturn]
    intro id e'
    rw [SortedMap.get_insert]
    split_ifs with hid
    · constructor
      · intro heq
        cases heq
        exact ⟨by simp, hid.symm⟩
      · rintro ⟨hmem', hid'⟩
        rcases List.mem_append.1 hmem' with hmem' | hmem'
        · rw [hsame e' ((hpre _ _).2 ⟨hmem', hid'.trans hid⟩)]
        · rw [List.mem_singleton.1 hmem']
    · rw [hpre id e']
      constructor
      · exact fun hpair => ⟨by simp [hpair.1], hpair.2⟩
      · rintro ⟨hmem', rfl⟩
        rcases List.mem_append.1 hmem' with hmem' | hmem'
        · exact ⟨hmem', rfl⟩
        · rw [List.mem_singleton.1 hmem'] at hid
          exact absurd rfl hid
  · intro id e
    simp
  · rw [hall, hmem]

/-- Counting the edges of each relation kind, none of which has too many for a counter. -/
lemma countDecrements_ensures (es : List EdgeRecord)
    (hbound : ∀ e ∈ es, (es.map (EdgeRecord.uses e.relationKind)).sum < 2 ^ 64) :
    Ensures (es.foldlM countDecrement .empty) (fun decrements =>
      (∀ r, ((decrements.get r).getD 0).val = (es.map (EdgeRecord.uses r)).sum) ∧
      ∀ r d, decrements.get r = some d → ∃ e ∈ es, e.relationKind = r) E := by
  refine ensures_foldlM (I := fun pre (decrements : SortedMap RelationId U64) =>
    (∀ r, ((decrements.get r).getD 0).val = (pre.map (EdgeRecord.uses r)).sum) ∧
    ∀ r d, decrements.get r = some d → ∃ e ∈ pre, e.relationKind = r) es
    (fun pre e post decrements hsplit hpre => ?_) ?_
  · have hcounted := hpre.1 e.relationKind
    have hfits := hbound e (by simp [hsplit])
    rw [hsplit, List.map_append, List.map_cons, List.sum_append, List.sum_cons] at hfits
    have hone : e.uses e.relationKind = 1 := by simp [EdgeRecord.uses]
    let next : U64 := ⟨((decrements.get e.relationKind).getD 0).val + 1, by omega⟩
    have hadd : ((decrements.get e.relationKind).getD 0).checkedAdd 1 = some next :=
      U64.checkedAdd_eq_some.2 rfl
    refine (ensures_okOr (fun count hcount => U64.checkedAdd_eq_some.1 hcount)
      fun hnone => by rw [hadd] at hnone; cases hnone).bind fun count hcount => ?_
    refine ensures_pure ⟨fun r => ?_, fun r d hget => ?_⟩
    · rw [List.map_append, List.sum_append, ← hpre.1 r]
      by_cases hr : r = e.relationKind
      · subst hr
        simp [← hcount, EdgeRecord.uses]
      · simp [SortedMap.get_insert, hr, Ne.symm hr, EdgeRecord.uses]
    · by_cases hr : r = e.relationKind
      · exact ⟨e, by simp, hr.symm⟩
      · rw [SortedMap.get_insert_of_ne _ _ hr] at hget
        obtain ⟨e', he', hkind⟩ := hpre.2 r d hget
        exact ⟨e', by simp [he'], hkind⟩
  · exact ⟨fun _ => rfl, fun r d hget => by simp at hget⟩

/-- Releasing one relation kind. -/
lemma releaseRelation_ensures (hw : t.Writable) (h : Represents db t) {usage : RelationId × U64}
    {old : RelationRecord} (hold : t.relations.get usage.1 = some old)
    (hle : usage.2.val ≤ old.confirmedEdgeCount.val) :
    Ensures (releaseRelation db usage) (fun out => ∃ ch, Releases t usage ch ∧
      out = (ch.batch, ch.removed)) E := by
  obtain ⟨id, decrement⟩ := usage
  simp only [releaseRelation, h.getRelation_eq, show t.relations.get id = some old from hold,
    okOr_some, ok_bind]
  refine (release_ensures hw h hold hle "node").bind fun out hout => ?_
  obtain ⟨updated, removed⟩ := out
  obtain ⟨ch, hch, hremoved, hbatch⟩ := hout
  simp only [hbatch, ok_bind]
  exact ensures_pure ⟨ch, hch, by rw [hremoved]⟩

/-- The edges of a gathered map. -/
lemma incident_edges {node : NodeId} {incident : SortedMap EdgeId EdgeRecord}
    (h : ∀ id e, incident.get id = some e ↔
      (t.HasEdge e ∧ (e.source = node ∨ e.destination = node)) ∧ e.id = id) :
    ((incident.entries.map Prod.snd).map EdgeRecord.id).Nodup ∧
      ∀ e, e ∈ incident.entries.map Prod.snd ↔
        t.HasEdge e ∧ (e.source = node ∨ e.destination = node) := by
  have hids : (incident.entries.map Prod.snd).map EdgeRecord.id = incident.entries.map Prod.fst := by
    rw [List.map_map]
    exact List.map_congr_left fun entry hentry => ((h _ _).1 (SortedMap.get_of_mem hentry)).2
  refine ⟨?_, fun e => ⟨fun he => ?_, fun he => ?_⟩⟩
  · rw [hids]
    exact List.pairwise_map.2 (incident.sorted.imp fun hlt => hlt.ne)
  · obtain ⟨entry, hentry, rfl⟩ := List.mem_map.1 he
    exact ((h _ _).1 (SortedMap.get_of_mem hentry)).1
  · exact List.mem_map.2 ⟨(e.id, e), SortedMap.get_eq_some.1 ((h _ _).2 ⟨he, rfl⟩), rfl⟩

/-- What a removed node has taken with it. -/
structure NodeRemoval (t : Tables) (node : NodeRecord) (es : List EdgeRecord)
    (decrements : SortedMap RelationId U64) (changes : List RelationChange)
    (result : DeletionResult) (c' : Catalog) : Prop where
  removal : Removal t es decrements changes
  has_node : t.HasNode node
  unreferenced : ∀ cid candidate, t.candidates.get cid = some candidate →
    ¬ candidate.MentionsNode node.id
  incident : ∀ e, e ∈ es ↔ t.HasEdge e ∧ (e.source = node.id ∨ e.destination = node.id)
  counted : ∀ r d, decrements.get r = some d → ∃ e ∈ es, e.relationKind = r
  reported : result.removedRelationKinds =
    (changes.filterMap RelationChange.removed).map RelationRecord.id
  inv : CatalogInv c' (t.removed es changes (t.nodes.erase node.id))

/-- Why a node is not removed: it is not there, a candidate refers to it, or the disk refuses. -/
def KeepsNode (t : Tables) (id : NodeId) (disk : WriteAnswer) (e : CatalogError) : Prop :=
  ¬ e.IsCorrupt ∧ (t.nodes.get id = none ∨
    (∃ cid candidate, t.candidates.get cid = some candidate ∧ candidate.MentionsNode id) ∨
    disk ≠ .written)

lemma removeNode_spec {c : Catalog} (inv : CatalogInv c t) (disk : WriteAnswer) (id : NodeId) :
    RunEnsures (removeNode disk id) c
      (fun result c' => ∃ node es decrements changes, node.id = id ∧
        NodeRemoval t node es decrements changes result c')
      (KeepsNode t id disk) := by
  have hdb := inv.represents
  refine runEnsures_get (runEnsures_planning (P := fun r => t.nodes.get id = some r) ?_
    fun node hget => ?_)
  · rw [hdb.getNode_eq]
    exact ensures_okOr (fun _ hr => hr) fun hnone => ⟨fun hcorrupt => hcorrupt, .inl hnone⟩
  have hnode : t.HasNode node := hdb.nodes.has hget
  obtain rfl : node.id = id := hdb.nodes.id_eq _ _ hget
  refine runEnsures_planning (P := fun _ =>
    ∀ cid c', t.candidates.get cid = some c' → ¬ c'.MentionsNode node.id) ?_ fun _ hfree => ?_
  · obtain ⟨found, hfound, hnone⟩ := (hdb.provisionalEdge_ensures node.id).exists_ok
    simp only [requireUnreferenced, hfound, ok_bind]
    rcases found with _ | candidate
    · exact hnone.1 rfl
    · have hmentions := mt hnone.2 (by simp)
      push Not at hmentions
      exact ⟨fun hcorrupt => hcorrupt, .inr (.inl hmentions)⟩
  -- no candidate mentions the node; now its edges are collected, those from it and those to it
  refine runEnsures_planning (incidentOf_ensures hdb node.id) fun incident hincident => ?_
  obtain ⟨hnodup, hmem⟩ := incident_edges hincident
  generalize incident.entries.map Prod.snd = es at hnodup hmem ⊢
  have hhas : ∀ e ∈ es, t.HasEdge e := fun e he => ((hmem e).1 he).1
  -- the counts of the relation kinds cover what will be subtracted
  have huses : ∀ e ∈ es, ∃ old, t.relations.get e.relationKind = some old ∧
      (es.map (EdgeRecord.uses e.relationKind)).sum ≤ old.confirmedEdgeCount.val := by
    intro e he
    obtain ⟨-, -, old, hold⟩ := inv.consistent.edge e (hhas e he)
    exact ⟨old, hold, uses_le_confirmed hdb inv.consistent hnodup hhas hold⟩
  refine runEnsures_planning (P := fun _ => True) ?_ fun _ _ => ?_
  · rw [forM_eq_ok es fun e he => hdb.validateExactAdjacency_eq (hhas e he)]
    trivial
  refine runEnsures_planning (countDecrements_ensures es fun e he => ?_)
    fun decrements hdecrements => ?_
  · obtain ⟨old, -, hle⟩ := huses e he
    exact hle.trans_lt old.confirmedEdgeCount.isLt
  refine runEnsures_planning (P := fun key => key = nameBytes node.name.asStr) ?_ fun key hkey => ?_
  · rw [show encodeNameKey node.name.asStr = .ok (nameBytes node.name.asStr) from
      pushString_eq (inv.writable.node node hnode).name]
    exact rfl
  subst hkey
  refine runEnsures_planning (P := fun _ => True) ?_ fun _ _ => ?_
  · have hname : c.nodeNames node.name.asStr = some node.id :=
      (inv.nodeNames _ _).2 ⟨node, hnode, rfl, rfl⟩
    rw [requireNameMapping, if_pos hname]
    trivial
  refine runEnsures_planning (ensures_mapM (P := fun usage out => ∃ ch, Releases t usage ch ∧
    out = (ch.batch, ch.removed)) _ fun usage husage => ?_) fun released hreleased => ?_
  · have hgetUsage := SortedMap.get_of_mem husage
    obtain ⟨e, he, hkind⟩ := hdecrements.2 _ _ hgetUsage
    obtain ⟨old, hold, hle⟩ := huses e he
    rw [hkind] at hold hle
    refine releaseRelation_ensures inv.writable hdb hold ?_
    have hcount := hdecrements.1 usage.1
    rw [hgetUsage] at hcount
    exact hcount.trans_le hle
  -- everything is planned, and nothing has been written yet
  obtain ⟨changes, hchanges, rfl⟩ := forall₂_choose hreleased
  have hremoval : Removal t es decrements changes := ⟨hnodup, hhas, hdecrements.1, hchanges⟩
  have hkept : ∀ nid r, nid ≠ node.id → t.nodes.get nid = some r →
      ∃ r', (t.nodes.erase node.id).get nid = some r' := fun nid r hne hr =>
    ⟨r, by rw [SortedMap.get_erase_of_ne _ hne, hr]⟩
  have hnodes : ∀ nid r, (t.nodes.erase node.id).get nid = some r → t.nodes.get nid = some r :=
    fun nid r hr => (SortedMap.get_erase_eq_some.1 hr).1
  have hfilter : (changes.map fun ch => (ch.batch, ch.removed)).filterMap Prod.snd =
      changes.filterMap RelationChange.removed := by
    rw [List.filterMap_map]
    rfl
  refine runEnsures_commit (fun hdisk => ⟨fun hcorrupt => hcorrupt, .inr (.inr (by simp [hdisk]))⟩)
    (fun _ hdisk => ⟨fun hcorrupt => hcorrupt, .inr (.inr (by simp [hdisk]))⟩)
    ⟨_, _, rfl, node, es, decrements, changes, rfl, hremoval, hnode, hfree, hmem, hdecrements.2,
      congrArg (List.map RelationRecord.id) hfilter, ?_⟩
  -- what the batch leaves behind is the invariant of the tables without the node and its edges
  refine ⟨?_, hremoval.writable hdb inv.writable fun r hr => hnodes _ r hr,
    hremoval.consistent hdb inv.consistent (fun e he hnot => ?_) fun cid c' nid r hc' hm hr => ?_,
    hremoval.counted hdb inv.counted hnodes, ?_, ?_⟩
  · have hflatten : ((changes.map fun ch => (ch.batch, ch.removed)).map Prod.fst).flatten =
        changes.flatMap RelationChange.batch := by
      rw [List.map_map, List.flatMap_def]
      rfl
    show Represents (c.db.write (_ ++ [_, _])) _
    rw [write_append, hflatten]
    exact (hdb.removeEdges inv.writable hremoval).deleteNode
      (hremoval.writable hdb inv.writable fun _ hr => hr) hnode
  · have hother : ¬ (e.source = node.id ∨ e.destination = node.id) := fun hor =>
      hnot (List.mem_map_of_mem ((hmem e).2 ⟨he, hor⟩))
    obtain ⟨⟨source, hsource⟩, ⟨destination, hdestination⟩, -⟩ := inv.consistent.edge e he
    exact ⟨hkept _ source (fun heq => hother (.inl heq)) hsource,
      hkept _ destination (fun heq => hother (.inr heq)) hdestination⟩
  · refine hkept nid r (fun heq => hfree cid c' hc' ?_) hr
    rw [← heq]
    exact hm
  · refine inv.nodeNames.remove node.name.asStr fun r => has_erase.trans
      (and_congr_right fun hr => not_congr ⟨fun heq => ?_, fun heq => ?_⟩)
    · rw [has_unique hr hnode heq]
    · rw [inv.writable.node_name_inj r node hr hnode heq]
  · have hnames : NamesOf _ (t.removed es changes (t.nodes.erase node.id)).HasRelation _ _ :=
      hremoval.relationNames hdb inv.writable inv.relationNames
    rw [← hfilter] at hnames
    exact hnames

lemma removeNode_ensures {c : Catalog} (inv : CatalogInv c t) (disk : WriteAnswer) (id : NodeId) :
    RunEnsures (removeNode disk id) c
      (fun _ c' => ∃ t', CatalogInv c' t' ∧ t'.metadata.pointer = none ∧ t.Evolves t' ∧
        t.Fills t')
      NotCorrupt := by
  refine (removeNode_spec inv disk id).mono (fun result c' hremoved => ?_) fun e he => he.1
  obtain ⟨node, es, decrements, changes, -, h⟩ := hremoved
  exact ⟨_, h.inv, rfl, h.removal.evolves inv.represents fun _ _ hr =>
    (SortedMap.get_erase_eq_some.1 hr).1, .of_counters fun k => by cases k <;> rfl⟩

/-! ## The pointer -/

lemma setActiveRoutingImage_ensures {c : Catalog} (inv : CatalogInv c t) (disk : WriteAnswer)
    {pointer : ActiveRoutingImage} (hfits : (strBytes pointer.relativeBundle).length < 2 ^ 32) :
    RunEnsures (setActiveRoutingImage disk pointer) c
      (fun _ c' => CatalogInv c' { t with metadata := { t.metadata with pointer := some pointer } })
      NotCorrupt := by
  refine runEnsures_planning (P := fun _ => True) ?_ fun _ _ => ?_
  · rw [if_pos hfits]
    trivial
  have hrepresents : Represents (c.db.write
      [.put .default META_ACTIVE_ROUTING_IMAGE (encodeActiveRoutingImage pointer)])
      { t with metadata := { t.metadata with pointer := some pointer } } :=
    inv.represents.putMetadata .pointer _ fun key => by cases key <;> rfl
  cases disk with
  | written =>
    refine { inv with
      represents := hrepresents
      writable := ⟨inv.writable.candidate, inv.writable.node, inv.writable.relation,
        inv.writable.node_name_inj, inv.writable.relation_name_inj⟩
      consistent := ⟨inv.consistent.edge, inv.consistent.candidate, inv.consistent.incoming,
        inv.consistent.provisional, inv.consistent.confirmed⟩
      counted := { inv.counted with pointer := fun p hp => ?_ } }
    cases hp
    exact hfits
  | noSpace => exact ⟨rfl, fun hcorrupt => hcorrupt⟩
  | failed => exact ⟨rfl, fun hcorrupt => hcorrupt⟩

lemma clearActiveRoutingImage_ensures {c : Catalog} (inv : CatalogInv c t) (disk : WriteAnswer) :
    RunEnsures (clearActiveRoutingImage disk) c
      (fun _ c' => CatalogInv c' { t with metadata := { t.metadata with pointer := none } })
      NotCorrupt := by
  cases disk with
  | written =>
    refine { inv with
      represents := inv.represents.clearPointer
      writable := ⟨inv.writable.candidate, inv.writable.node, inv.writable.relation,
        inv.writable.node_name_inj, inv.writable.relation_name_inj⟩
      consistent := ⟨inv.consistent.edge, inv.consistent.candidate, inv.consistent.incoming,
        inv.consistent.provisional, inv.consistent.confirmed⟩
      counted := { inv.counted with pointer := fun p hp => ?_ } }
    cases hp
  | noSpace => exact ⟨rfl, fun hcorrupt => hcorrupt⟩
  | failed => exact ⟨rfl, fun hcorrupt => hcorrupt⟩

end PathHydra
