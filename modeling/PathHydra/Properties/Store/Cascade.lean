import Mathlib.Algebra.Order.BigOperators.Group.List
import PathHydra.Properties.Store.Identity
import PathHydra.Properties.Store.Graph
import PathHydra.Properties.Store.Provisional

/-!
# Removing a node is an exact cascade

`ConfirmedGraphRecords.withoutNode` says what the removal of a node is for: the node goes, the edges
at it go, each once, and every relation kind is released from as many uses as it had edges there.
`removeNode_cascade` shows that `remove_node` computes it, and when it does.
-/

namespace PathHydra

/-! ## The graph without a node -/

/-- The node is an endpoint of the edge. -/
def EdgeRecord.touches (e : EdgeRecord) (node : NodeId) : Bool :=
  decide (e.source = node ∨ e.destination = node)

/-- The relation kind after it has lost edges: it goes with the last of its uses. -/
def RelationRecord.release (r : RelationRecord) (lost : ℕ) : Option RelationRecord :=
  if 0 < lost ∧ r.provisionalReferenceCount.val = 0 ∧ r.confirmedEdgeCount.val = lost then none
  else some { r with
    confirmedEdgeCount := ⟨r.confirmedEdgeCount.val - lost,
      (Nat.sub_le _ _).trans_lt r.confirmedEdgeCount.isLt⟩ }

namespace ConfirmedGraphRecords

/-- The edges of a relation kind at a node, each counted once. -/
def lost (records : ConfirmedGraphRecords) (node : NodeId) (relation : RelationId) : ℕ :=
  records.edges.countP fun e => e.touches node && decide (e.relationKind = relation)

/-- The graph without a node and the edges at it. -/
def withoutNode (records : ConfirmedGraphRecords) (node : NodeId) : ConfirmedGraphRecords where
  nodes := records.nodes.filter fun r => decide (r.id ≠ node)
  relationKinds := records.relationKinds.filterMap fun r => r.release (records.lost node r.id)
  edges := records.edges.filter fun e => !e.touches node

end ConfirmedGraphRecords

/-! ## The tables after the removal -/

section Tables

variable {k : IdKind} {R : Type} {m : SortedMap Bytes Bytes} {tab : SortedMap (DurableId k) R}
  {idOf : R → DurableId k} {val : R → Bytes} {decode : Bytes → U64 → Except CodecError R}

/-- Families that hold the same table are the same. -/
lemma Stored.unique {m' : SortedMap Bytes Bytes} (h : Stored m tab idOf val decode)
    (h' : Stored m' tab idOf val decode) : m' = m :=
  SortedMap.ext_get fun _ => h.get_eq h' fun _ _ => rfl

end Tables

namespace NodeRemoval

variable {t : Tables} {db : Database} {node : NodeRecord} {es : List EdgeRecord}
  {decrements : SortedMap RelationId U64} {changes : List RelationChange}
  {result : DeletionResult} {c' : Catalog}

/-- The removed edges are the ones at the node, in some order. -/
lemma perm_incident (h : NodeRemoval t node es decrements changes result c')
    (hdb : Represents db t) :
    es.Perm (t.graph.edges.filter fun e => e.touches node.id) := by
  have hids : (t.graph.edges.map EdgeRecord.id).Nodup := by
    show ((t.edges.entries.map Prod.snd).map EdgeRecord.id).Nodup
    rw [hdb.edges.records_ids]
    exact t.edges.keys_pairwise.imp fun hlt => hlt.ne
  refine (List.perm_ext_iff_of_nodup h.removal.nodup.of_map (hids.of_map.filter _)).2 fun e => ?_
  rw [h.incident, List.mem_filter, EdgeRecord.touches, decide_eq_true_eq]
  refine and_congr_left' ?_
  show t.HasEdge e ↔ e ∈ t.edges.entries.map Prod.snd
  constructor
  · exact fun he => List.mem_map.2 ⟨(e.id, e), SortedMap.get_eq_some.1 he, rfl⟩
  · intro he
    obtain ⟨entry, hentry, rfl⟩ := List.mem_map.1 he
    exact hdb.edges.has (SortedMap.get_of_mem hentry)

/-- The removed uses of a relation kind are its edges at the node. -/
lemma sum_uses (h : NodeRemoval t node es decrements changes result c') (hdb : Represents db t)
    (id : RelationId) : (es.map (EdgeRecord.uses id)).sum = t.graph.lost node.id id := by
  rw [((h.perm_incident hdb).map _).sum_eq, ConfirmedGraphRecords.lost]
  induction t.graph.edges with
  | nil => rfl
  | cons e rest ih =>
    rw [List.countP_cons, ← ih, List.filter_cons]
    cases htouches : e.touches node.id
    · simp
    · by_cases hkind : e.relationKind = id
      · simp [EdgeRecord.uses, hkind, Nat.add_comm]
      · simp [EdgeRecord.uses, hkind]

/-- Every relation kind is released from its edges at the node. -/
lemma get_released (h : NodeRemoval t node es decrements changes result c')
    (hdb : Represents db t) {id : RelationId} {old : RelationRecord}
    (hold : t.relations.get id = some old) :
    t.graph.lost node.id id ≤ old.confirmedEdgeCount.val ∧
      (t.changeRelations changes).relations.get id = old.release (t.graph.lost node.id id) ∧
      (RelationChange.remove old ∈ changes ↔ old.release (t.graph.lost node.id id) = none) := by
  rw [← h.sum_uses hdb, ← h.removal.counts id]
  rcases hget : decrements.get id with _ | decrement
  · -- no edge at the node has the relation kind
    have hnot : id ∉ changes.map RelationChange.id := by
      intro hmem
      obtain ⟨ch, hch, rfl⟩ := List.mem_map.1 hmem
      obtain ⟨usage, husage, hreleases⟩ := forall₂_exists_of_mem h.removal.changes.flip hch
      rw [Releases.id_eq hdb hreleases, SortedMap.get_of_mem husage] at hget
      cases hget
    have hkeeps : old.release 0 = some old := by simp [RelationRecord.release]
    refine ⟨by simp, ?_, ?_⟩
    · rw [ValidChanges.get_of_notMem hnot, hold]
      exact hkeeps.symm
    · refine iff_of_false (fun hremove => hnot ?_) ?_
      · rw [← hdb.relations.id_eq _ _ hold]
        exact List.mem_map_of_mem hremove
      · simp [hkeeps]
  · obtain ⟨ch, hch, old', hold', hcases⟩ :=
      forall₂_exists_of_mem h.removal.changes (SortedMap.get_eq_some.1 hget)
    obtain rfl : old' = old := Option.some.inj (hold'.symm.trans hold)
    have hid := hdb.relations.id_eq _ _ hold
    have hvalid := h.removal.validChanges hdb
    have hafter := hvalid.get_of_mem hch
    -- a count is decremented only for an edge that uses the relation kind
    have hpositive : 0 < decrement.val := by
      obtain ⟨e, he, hkind⟩ := h.counted id decrement hget
      have hsum := h.removal.counts id
      have hone : e.uses id ≤ (es.map (EdgeRecord.uses id)).sum :=
        List.single_le_sum (fun _ _ => Nat.zero_le _) _ (List.mem_map_of_mem he)
      rw [hget] at hsum
      simp only [Option.getD_some] at hsum
      simp only [EdgeRecord.uses, hkind, if_true] at hone
      omega
    rw [Option.getD_some]
    simp only at hcases
    rcases hcases with ⟨rfl, hprovisional, hconfirmed⟩ |
      ⟨r, rfl, hrid, hname, hprovisional, hconfirmed, -, hkept⟩
    · have hnone : old'.release decrement.val = none := by
        rw [RelationRecord.release, if_pos ⟨hpositive, hprovisional, hconfirmed⟩]
      rw [show (RelationChange.remove old').id = id from hid] at hafter
      exact ⟨hconfirmed.ge, hafter.trans hnone.symm, iff_of_true hch hnone⟩
    · have hsome : old'.release decrement.val = some r := by
        rw [RelationRecord.release, if_neg]
        · refine congrArg some ?_
          obtain ⟨rid, rname, rprovisional, rconfirmed⟩ := r
          simp only at hrid hname hprovisional hconfirmed
          subst hrid hname hprovisional
          congr 1
          refine Fin.ext ?_
          show old'.confirmedEdgeCount.val - decrement.val = rconfirmed.val
          omega
        · rintro ⟨-, hzero, hlast⟩
          refine hkept ⟨Fin.ext ?_, Fin.ext ?_⟩
          · rw [hprovisional]
            exact hzero
          · show r.confirmedEdgeCount.val = 0
            omega
      rw [show (RelationChange.update old' r).id = id from hrid.trans hid] at hafter
      refine ⟨by omega, hafter.trans hsome.symm, iff_of_false (fun hremove => ?_) (by simp [hsome])⟩
      -- two changes of one relation kind cannot disagree
      have hother := hvalid.get_of_mem hremove
      rw [show (RelationChange.remove old').id = id from hid] at hother
      cases hafter.symm.trans hother

lemma graph_eq (h : NodeRemoval t node es decrements changes result c') (hdb : Represents db t) :
    (t.removed es changes (t.nodes.erase node.id)).graph = t.graph.withoutNode node.id := by
  have hnodes : (t.nodes.erase node.id).entries.map Prod.snd =
      t.graph.nodes.filter fun r => decide (r.id ≠ node.id) := by
    refine SortedMap.values_filter _ fun id r => ?_
    rw [SortedMap.get_erase_eq_some, decide_eq_true_eq]
    exact and_congr_right fun hr => by rw [hdb.nodes.id_eq _ _ hr]
  have hedges : (t.edges.dropAll (es.map EdgeRecord.id)).entries.map Prod.snd =
      t.graph.edges.filter fun e => !e.touches node.id := by
    refine SortedMap.values_filter _ fun id e => ?_
    rw [SortedMap.get_dropAll]
    refine and_congr_right fun he => ?_
    rw [← hdb.edges.id_eq _ _ he, Bool.not_eq_true', EdgeRecord.touches, decide_eq_false_iff_not]
    refine not_congr ⟨fun hmem => ?_, fun htouches => ?_⟩
    · obtain ⟨e', he', hid⟩ := List.mem_map.1 hmem
      rw [← has_unique (h.removal.has e' he') (hdb.edges.has he) hid]
      exact ((h.incident e').1 he').2
    · exact List.mem_map_of_mem ((h.incident e).2 ⟨hdb.edges.has he, htouches⟩)
  have hrelations : (t.changeRelations changes).relations =
      t.relations.filterMap fun r => r.release (t.graph.lost node.id r.id) := by
    refine SortedMap.ext_get fun id => ?_
    rw [SortedMap.get_filterMap]
    rcases hold : t.relations.get id with _ | old
    · refine Option.eq_none_iff_forall_ne_some.2 fun r hr => ?_
      have hhas : (t.changeRelations changes).HasRelation r := by
        rw [Tables.HasRelation, h.inv.represents.relations.id_eq id r hr]
        exact hr
      obtain ⟨old, hold', hid, -⟩ := h.removal.relation_cases hdb hhas
      rw [Tables.HasRelation, ← hid, h.inv.represents.relations.id_eq id r hr, hold] at hold'
      cases hold'
    · rw [(h.get_released hdb hold).2.1, Option.bind_some, hdb.relations.id_eq _ _ hold]
  simp only [ConfirmedGraphRecords.withoutNode]
  rw [← hnodes, ← hedges]
  show ConfirmedGraphRecords.mk _ ((t.changeRelations changes).relations.entries.map Prod.snd) _ = _
  rw [hrelations, SortedMap.values_filterMap]
  rfl

/-- The reported relation kinds are those that went, in order. -/
lemma reported_eq (h : NodeRemoval t node es decrements changes result c')
    (hdb : Represents db t) : result.removedRelationKinds =
      (t.graph.relationKinds.filter fun r =>
        (r.release (t.graph.lost node.id r.id)).isNone).map RelationRecord.id := by
  have hmem : ∀ old, old ∈ changes.filterMap RelationChange.removed ↔
      RelationChange.remove old ∈ changes := by
    intro old
    rw [List.mem_filterMap]
    constructor
    · rintro ⟨ch, hch, hremoved⟩
      rcases ch with r | ⟨r, r'⟩ | old'
      · cases hremoved
      · cases hremoved
      · cases hremoved
        exact hch
    · exact fun hch => ⟨_, hch, rfl⟩
  have hsorted : ((changes.filterMap RelationChange.removed).map RelationRecord.id).Pairwise
      (· < ·) := by
    have hids : (changes.map RelationChange.id).Pairwise (· < ·) := by
      have hkeys : changes.map RelationChange.id = decrements.entries.map Prod.fst :=
        forall₂_eq_map (List.forall₂_map_right_iff.2
          (h.removal.changes.imp fun _ _ hch => hch.id_eq hdb))
      rw [hkeys]
      exact decrements.keys_pairwise
    rw [List.pairwise_map] at hids ⊢
    refine hids.filterMap _ fun a b hab a' ha' b' hb' => ?_
    rcases a with r | ⟨r, r'⟩ | old
    · cases ha'
    · cases ha'
    · rcases b with r | ⟨r, r'⟩ | old'
      · cases hb'
      · cases hb'
      · cases ha'
        cases hb'
        exact hab
  have hkinds : t.graph.relationKinds.map RelationRecord.id = t.relations.entries.map Prod.fst :=
    hdb.relations.records_ids
  have hsorted' : ((t.graph.relationKinds.filter fun r =>
      (r.release (t.graph.lost node.id r.id)).isNone).map RelationRecord.id).Pairwise (· < ·) := by
    have hall : (t.graph.relationKinds.map RelationRecord.id).Pairwise (· < ·) := by
      rw [hkinds]
      exact t.relations.keys_pairwise
    rw [List.pairwise_map] at hall ⊢
    exact hall.filter _
  rw [h.reported]
  refine List.Perm.eq_of_pairwise (fun a b _ _ hab hba => absurd hba hab.not_gt) hsorted hsorted' ?_
  refine (List.perm_ext_iff_of_nodup (hsorted.imp fun hlt => hlt.ne)
    (hsorted'.imp fun hlt => hlt.ne)).2 fun id => ?_
  simp only [List.mem_map, hmem, List.mem_filter, Option.isNone_iff_eq_none]
  constructor
  · rintro ⟨old, hremove, rfl⟩
    have hold : t.HasRelation old := (h.removal.validChanges hdb).valid _ hremove
    exact ⟨old, ⟨List.mem_map.2 ⟨(old.id, old), SortedMap.get_eq_some.1 hold, rfl⟩,
      ((h.get_released hdb hold).2.2).1 hremove⟩, rfl⟩
  · rintro ⟨old, ⟨hmem', hnone⟩, rfl⟩
    obtain ⟨entry, hentry, rfl⟩ := List.mem_map.1 hmem'
    have hold := hdb.relations.has (SortedMap.get_of_mem hentry)
    exact ⟨entry.2, ((h.get_released hdb hold).2.2).2 hnone, rfl⟩

end NodeRemoval

/-! ## The cascade -/

/-- In every state the catalog can reach, removing a node succeeds exactly when the node is there
and no candidate edge refers to it.  It then leaves the graph without the node and the edges at it,
and reports the relation kinds that lost the last of their uses; the candidates stay. -/
theorem removeNode_cascade {c₀ c : Catalog} {actions : List (CatalogCall × WriteAnswer)}
    {outs : List (CatalogCall × Except CatalogError CallResult)}
    (hopen : openCatalog .written Database.empty = .ok c₀)
    (hrun : catalogMachine.run c₀ actions = some (c, outs)) (id : NodeId) :
    ((∃ result c', removeNode .written id c = .ok result c') ↔
      c.Holds id ∧ ∀ cid candidate, getCandidateFromDb c.db cid = .ok candidate →
        ¬ candidate.MentionsNode id) ∧
    ∀ disk result c', removeNode disk id c = .ok result c' →
      ∃ records, confirmedGraphRecords c.db = .ok records ∧
        confirmedGraphRecords c'.db = .ok (records.withoutNode id) ∧
        c'.db .candidates = c.db .candidates ∧
        (∀ r ∈ records.relationKinds, records.lost id r.id ≤ r.confirmedEdgeCount.val) ∧
        result.removedRelationKinds = (records.relationKinds.filter fun r =>
          (r.release (records.lost id r.id)).isNone).map RelationRecord.id := by
  obtain rfl : c₀ = .fresh := Except.ok.inj (hopen.symm.trans openCatalog_empty)
  obtain ⟨t, inv, -⟩ := catalogMachine_evolves fresh_inv hrun
  have hdb := inv.represents
  refine ⟨⟨?_, ?_⟩, fun disk result c' hremove => ?_⟩
  · rintro ⟨result, c', hremove⟩
    obtain ⟨node, es, decrements, changes, rfl, h⟩ := (removeNode_spec inv .written id).of_ok hremove
    refine ⟨(inv.holds_iff node.id).2 ⟨node, h.has_node⟩, fun cid candidate hcandidate => ?_⟩
    rw [hdb.getCandidate_eq, okOr_eq_ok] at hcandidate
    exact h.unreferenced cid candidate hcandidate
  · rintro ⟨hholds, hfree⟩
    rcases hremove : removeNode .written id c with ⟨result, c'⟩ | ⟨e, c'⟩
    · exact ⟨result, c', rfl⟩
    · obtain ⟨-, -, habsent | ⟨cid, candidate, hcandidate, hmentions⟩ | hdisk⟩ :=
        (removeNode_spec inv .written id).of_error hremove
      · obtain ⟨node, hnode⟩ := (inv.holds_iff id).1 hholds
        cases habsent.symm.trans hnode
      · refine absurd hmentions (hfree cid candidate ?_)
        rw [hdb.getCandidate_eq, hcandidate, okOr_some]
      · exact absurd rfl hdisk
  · obtain ⟨node, es, decrements, changes, rfl, h⟩ := (removeNode_spec inv disk id).of_ok hremove
    refine ⟨t.graph, hdb.confirmedGraphRecords_eq, ?_, ?_, fun r hr => ?_, h.reported_eq hdb⟩
    · rw [h.inv.represents.confirmedGraphRecords_eq, h.graph_eq hdb]
    · exact hdb.candidates.unique h.inv.represents.candidates
    · obtain ⟨entry, hentry, rfl⟩ := List.mem_map.1 hr
      exact (h.get_released hdb (hdb.relations.has (SortedMap.get_of_mem hentry))).1

/-- Removing a node takes an edge to itself, which counts once, and the relation kind with it. -/
theorem removeNode_cascade_loop : ∃ c outs result c',
    catalogMachine.run .fresh loopCalls = some (c, outs) ∧
    removeNode .written ⟨1⟩ c = .ok result c' ∧
    ∃ records, confirmedGraphRecords c.db = .ok records ∧
      confirmedGraphRecords c'.db = .ok (records.withoutNode ⟨1⟩) := by
  obtain ⟨c, outs, hrun⟩ := catalogMachine_run_total .fresh loopCalls
  have hkinds : (catalogMachine.run .fresh loopCalls).map (fun s =>
      ((removeNode .written ⟨1⟩).run' s.1).map DeletionResult.removedRelationKinds) =
        some (some [⟨1⟩]) := by
    decide +kernel
  rw [hrun, Option.map_some, Option.some.injEq] at hkinds
  rcases hremove : removeNode .written ⟨1⟩ c with ⟨result, c'⟩ | ⟨e, c'⟩
  · obtain ⟨records, hrecords, hafter, -⟩ :=
      (removeNode_cascade openCatalog_empty hrun ⟨1⟩).2 .written result c' hremove
    exact ⟨c, outs, result, c', hrun, hremove, records, hrecords, hafter⟩
  · simp [run'_eq_none hremove] at hkinds

end PathHydra
