import Mathlib.Data.Prod.Lex
import PathHydra.Construction.Store.Popularity
import PathHydra.Properties.Store.Identity

/-!
# The ranking of relation kinds

The popularity index is ordered by bytes.  Its keys hold complemented counters, so their order is
the order of `popularityRank`: falling total usage, then falling confirmed usage, then the
identifier.  Hence the front of the index is the front of the sorted relation kinds
(`mostUsedRelationKinds_eq`), in every state the catalog reaches.
-/

namespace PathHydra

/-- The place of a relation kind in the ranking: more references first, then more edges, then the
smaller identifier. -/
def popularityRank (r : RelationRecord) : ℕᵒᵈ ×ₗ ℕᵒᵈ ×ₗ RelationId :=
  toLex (OrderDual.toDual (r.provisionalReferenceCount.val + r.confirmedEdgeCount.val),
    toLex (OrderDual.toDual r.confirmedEdgeCount.val, r.id))

lemma popularityRank_id {r s : RelationRecord} (h : popularityRank r = popularityRank s) :
    r.id = s.id := congrArg (fun rank => (ofLex (ofLex rank).2).2) h

lemma RelationRecord.UsageFits.getD_total {r : RelationRecord} (h : r.UsageFits) :
    (r.totalReferenceCount.getD 0).val =
      r.provisionalReferenceCount.val + r.confirmedEdgeCount.val := by
  have htotal : r.totalReferenceCount = some ⟨_, h⟩ := U64.checkedAdd_eq_some.2 rfl
  rw [htotal]
  rfl

lemma beBytes64_rev_lt_iff {a b : U64} : beBytes64 a.rev < beBytes64 b.rev ↔ b.val < a.val := by
  unfold beBytes64
  rw [beBytes_lt_iff a.rev.isLt b.rev.isLt, ← Fin.lt_def, Fin.rev_lt_rev, Fin.lt_def]

lemma beBytes64_rev_inj {a b : U64} : beBytes64 a.rev = beBytes64 b.rev ↔ a.val = b.val := by
  constructor
  · intro h
    rw [Fin.rev_injective (Fin.ext (beBytes_inj a.rev.isLt b.rev.isLt h))]
  · intro h
    rw [Fin.ext h]

/-- Popularity keys are ordered as the places in the ranking. -/
lemma popularityBytes_lt_iff {r s : RelationRecord} (hr : r.UsageFits) (hs : s.UsageFits) :
    popularityBytes r < popularityBytes s ↔ popularityRank r < popularityRank s := by
  unfold popularityBytes
  rw [List.append_assoc, List.append_assoc, fields_lt_iff (by simp [beBytes64]),
    fields_lt_iff (by simp [beBytes64]), beBytes64_rev_lt_iff, beBytes64_rev_lt_iff,
    beBytes64_rev_inj, beBytes64_rev_inj, hr.getD_total, hs.getD_total, popularityRank,
    popularityRank, Prod.Lex.toLex_lt_toLex, Prod.Lex.toLex_lt_toLex]
  have hid : beBytes64 r.id.asU64 < beBytes64 s.id.asU64 ↔ r.id < s.id :=
    beBytes_lt_iff (by simp) (by simp)
  rw [hid]
  simp only [OrderDual.toDual_lt_toDual, OrderDual.toDual_inj]

/-! ## Reading the index -/

section Index

variable {db : Database} {t : Tables}

/-- Each entry of the index is answered with its relation kind. -/
lemma relationKindUsage_eq (h : Represents db t) {r : RelationRecord} (hr : t.HasRelation r)
    (hfits : r.UsageFits) :
    relationKindUsage db (popularityBytes r) (encodeU64Record r.id.asU64) = .ok r := by
  obtain ⟨total, htotal⟩ := hfits.total
  have hvalue : decodeU64Record (encodeU64Record r.id.asU64) = .ok r.id.asU64 := by simp
  have hrecord : (db .relationKinds).get (encodeIdKey r.id.asU64) = some (relationBytes r) := by
    rw [h.relations.get_key, hr, Option.map_some]
  unfold relationKindUsage
  rw [decodePopularityKey_popularityBytes, hvalue]
  simp only [mapErr, ok_bind, ne_eq, not_true, if_false, hrecord, okOr_some,
    h.relations.decodes r.id r hr, htotal, Option.getD_some, or_self]
  rfl

/-- All relation kinds in the order of the ranking. -/
def rankedRelationKinds (relations : List RelationRecord) : List RelationRecord :=
  relations.mergeSort fun r s => decide (popularityRank r ≤ popularityRank s)

lemma rankedRelationKinds_pairwise {relations : List RelationRecord}
    (hids : (relations.map RelationRecord.id).Nodup) :
    (rankedRelationKinds relations).Pairwise fun r s => popularityRank r < popularityRank s := by
  have hperm := List.mergeSort_perm relations
    fun r s => decide (popularityRank r ≤ popularityRank s)
  have hsorted : (rankedRelationKinds relations).Pairwise
      fun r s => decide (popularityRank r ≤ popularityRank s) = true := List.pairwise_mergeSort
    (fun r s u hrs hsu => by
      rw [decide_eq_true_eq] at hrs hsu ⊢
      exact hrs.trans hsu)
    (fun r s => by simpa using le_total (popularityRank r) (popularityRank s)) relations
  have hdistinct : (rankedRelationKinds relations).Pairwise fun r s => r.id ≠ s.id :=
    List.pairwise_map.1 ((hperm.map RelationRecord.id).nodup_iff.2 hids)
  refine (hsorted.and hdistinct).imp fun {r s} h => ?_
  exact (of_decide_eq_true h.1).lt_of_ne fun heq => h.2 (popularityRank_id heq)

/-- The index lists the relation kinds in the order of the ranking. -/
lemma Represents.popularity_entries (h : Represents db t)
    (hfits : ∀ r, t.HasRelation r → r.UsageFits) :
    (db .relationPopularity).entries =
      (rankedRelationKinds (t.relations.entries.map Prod.snd)).map fun r =>
        (popularityBytes r, encodeU64Record r.id.asU64) := by
  have hids : (t.relations.entries.map Prod.snd).map RelationRecord.id =
      t.relations.entries.map Prod.fst := by
    rw [List.map_map]
    exact List.map_congr_left fun e he => h.relations.id_eq _ _ (SortedMap.get_of_mem he)
  have hmem : ∀ r, r ∈ rankedRelationKinds (t.relations.entries.map Prod.snd) ↔
      t.HasRelation r := by
    intro r
    rw [rankedRelationKinds, List.mem_mergeSort, List.mem_map]
    constructor
    · rintro ⟨e, he, rfl⟩
      exact h.relations.has (SortedMap.get_of_mem he)
    · exact fun hr => ⟨(r.id, r), SortedMap.get_eq_some.1 hr, rfl⟩
  have hdistinct : ((t.relations.entries.map Prod.snd).map RelationRecord.id).Nodup :=
    hids ▸ t.relations.keys_pairwise.imp ne_of_lt
  have hranked := rankedRelationKinds_pairwise hdistinct
  refine h.popularity.entries_eq_map hmem (hranked.imp_of_mem fun {r s} hr hs hlt => ?_)
  exact (popularityBytes_lt_iff (hfits r ((hmem r).1 hr)) (hfits s ((hmem s).1 hs))).2 hlt

/-- The answer is the front of the ranking. -/
lemma mostUsedRelationKinds_eq (h : Represents db t)
    (hfits : ∀ r, t.HasRelation r → r.UsageFits) {k : ℕ} (hpos : 0 < k)
    (hbound : k ≤ MAXIMUM_CANDIDATE_BATCH_ENTRIES) :
    mostUsedRelationKinds db k =
      .ok ((rankedRelationKinds (t.relations.entries.map Prod.snd)).take k) := by
  unfold mostUsedRelationKinds
  rw [if_neg (by omega), h.popularity_entries hfits, ← List.map_take, List.mapM_map]
  have hmem : ∀ r ∈ (rankedRelationKinds (t.relations.entries.map Prod.snd)).take k,
      t.HasRelation r := by
    intro r hr
    have hranked := List.mem_of_mem_take hr
    rw [rankedRelationKinds, List.mem_mergeSort, List.mem_map] at hranked
    obtain ⟨e, he, rfl⟩ := hranked
    exact h.relations.has (SortedMap.get_of_mem he)
  refine (mapM_eq_ok (g := id) _ fun r hr => ?_).trans (by rw [List.map_id])
  exact relationKindUsage_eq h (hmem r hr) (hfits r (hmem r hr))

end Index

/-! ## Every state of the catalog -/

/-- The candidate is an edge with a confirmed relation kind. -/
def Candidate.isEdgeOf (relation : RelationId) : Candidate → Bool
  | .edge _ _ _ relationKind _ => decide (relationKind = .confirmed relation)
  | _ => false

lemma Candidate.uses_eq (relation : RelationId) (c : Candidate) :
    c.uses relation = if c.isEdgeOf relation then 1 else 0 := by
  rcases c with _ | _ | _
  · rfl
  · rfl
  · simp [Candidate.uses, Candidate.isEdgeOf]

/-- Adding up ones counts. -/
lemma sum_map_indicator {α : Type*} (p : α → Bool) (l : List α) :
    (l.map fun a => if p a then 1 else 0).sum = l.countP p := by
  induction l with
  | nil => rfl
  | cons a l ih =>
    rw [List.map_cons, List.sum_cons, ih, List.countP_cons, Nat.add_comm]

/-- Popularity ranking.  In every state of a catalog and for every admissible limit the answer is
the front of all relation kinds, sorted by falling total usage, then by falling confirmed usage,
then by identifier; the usage of each is the number of candidate edges and of edges with it. -/
theorem mostUsedRelationKinds_ranking {c₀ c : Catalog} {actions : List (CatalogCall × WriteAnswer)}
    {outs : List (CatalogCall × Except CatalogError CallResult)}
    (hopen : openCatalog .written Database.empty = .ok c₀)
    (hrun : catalogMachine.run c₀ actions = some (c, outs)) {k : ℕ} (hpos : 0 < k)
    (hbound : k ≤ MAXIMUM_CANDIDATE_BATCH_ENTRIES) :
    ∃ relations candidates edges, allRelationKinds c.db = .ok relations ∧
      allCandidates c.db = .ok candidates ∧ allEdges c.db = .ok edges ∧
      mostUsedRelationKinds c.db k = .ok ((rankedRelationKinds relations).take k) ∧
      ∀ r ∈ relations,
        r.provisionalReferenceCount.val = candidates.countP (Candidate.isEdgeOf r.id) ∧
        r.confirmedEdgeCount.val = edges.countP fun e => decide (e.relationKind = r.id) := by
  obtain rfl : c₀ = .fresh := Except.ok.inj (hopen.symm.trans openCatalog_empty)
  obtain ⟨t, inv, -⟩ := catalogMachine_evolves fresh_inv hrun
  have hrep := inv.represents
  refine ⟨_, _, _, hrep.relations.allRecords_eq, hrep.candidates.allRecords_eq,
    hrep.edges.allRecords_eq, mostUsedRelationKinds_eq hrep
      (fun r hr => (inv.writable.relation r hr).usage) hpos hbound, fun r hr => ?_⟩
  obtain ⟨e, he, rfl⟩ := List.mem_map.1 hr
  have hhas : t.HasRelation e.2 := hrep.relations.has (SortedMap.get_of_mem he)
  rw [inv.consistent.provisional _ hhas, inv.consistent.confirmed _ hhas, SortedMap.sum,
    SortedMap.sum, ← sum_map_indicator, ← sum_map_indicator, List.map_map, List.map_map]
  refine ⟨congrArg List.sum (List.map_congr_left fun _ _ => Candidate.uses_eq _ _), ?_⟩
  simp only [EdgeRecord.uses, Function.comp_def, decide_eq_true_eq]

/-- Two relation kinds are confirmed, and the more used one is asked for. -/
theorem mostUsedRelationKinds_ranking_twoKinds : ∃ c outs relations,
    catalogMachine.run .fresh
      [(.insertCandidateBatch [.relationKind ⟨"r"⟩, .relationKind ⟨"s"⟩], .written),
        (.confirmCandidateBatch [⟨1⟩, ⟨2⟩], .written)] = some (c, outs) ∧
      allRelationKinds c.db = .ok relations ∧
      mostUsedRelationKinds c.db 1 = .ok ((rankedRelationKinds relations).take 1) := by
  obtain ⟨c, outs, hrun⟩ := catalogMachine_run_total .fresh
    [(.insertCandidateBatch [.relationKind ⟨"r"⟩, .relationKind ⟨"s"⟩], .written),
      (.confirmCandidateBatch [⟨1⟩, ⟨2⟩], .written)]
  obtain ⟨relations, _, _, hrelations, -, -, hranking, -⟩ :=
    mostUsedRelationKinds_ranking openCatalog_empty hrun (k := 1) (by decide) (by decide)
  exact ⟨c, outs, relations, hrun, hrelations, hranking⟩

end PathHydra
