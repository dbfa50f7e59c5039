import PathHydra.Properties.Store.Reachable

/-!
# Identifiers over whole runs

Clients keep identifiers across mutations, so an identifier must never come to mean something else.
The tables along a run evolve (`Tables.Evolves`): counters only grow and a record is kept as it was
or goes.  Read back at the database, this gives the identity of records over any run of calls.
-/

namespace PathHydra

namespace Catalog

/-- The record of the identifier is there. -/
def Holds (c : Catalog) : {k : IdKind} → DurableId k → Prop
  | .candidate, id => ∃ r, getCandidateFromDb c.db id = .ok r
  | .node, id => ∃ r, getNodeFromDb c.db id = .ok r
  | .relation, id => ∃ r, getRelationFromDb c.db id = .ok r
  | .edge, id => ∃ r, getEdgeFromDb c.db id = .ok r

/-- The stored counter of a kind of identifiers. -/
def nextId (c : Catalog) : IdKind → Except CatalogError U64
  | .candidate => readMetadata c.db META_NEXT_CANDIDATE_ID "next-candidate-id"
  | .node => readMetadata c.db META_NEXT_NODE_ID "next-node-id"
  | .relation => readMetadata c.db META_NEXT_RELATION_ID "next-relation-id"
  | .edge => readMetadata c.db META_NEXT_EDGE_ID "next-edge-id"

/-- Between the two states the identifier was given to a record. -/
def Allocates (c c' : Catalog) {k : IdKind} (id : DurableId k) : Prop :=
  ¬ c.Holds id ∧ c'.Holds id

end Catalog

variable {c c' : Catalog} {t t' : Tables}

namespace CatalogInv

lemma holds_iff (inv : CatalogInv c t) {k : IdKind} (id : DurableId k) : c.Holds id ↔ t.Has id := by
  have hread : ∀ {R : Type} {e : CatalogError} {found : Option R},
      (∃ r, okOr e found = .ok r) ↔ ∃ r, found = some r := by
    intro R e found
    cases found <;> simp
  cases k with
  | candidate =>
    simp only [Catalog.Holds, inv.represents.getCandidate_eq]
    exact hread
  | node =>
    simp only [Catalog.Holds, inv.represents.getNode_eq]
    exact hread
  | relation =>
    simp only [Catalog.Holds, inv.represents.getRelation_eq]
    exact hread
  | edge =>
    simp only [Catalog.Holds, inv.represents.getEdge_eq]
    exact hread

lemma nextId_eq (inv : CatalogInv c t) (k : IdKind) : c.nextId k = .ok (t.counter k) := by
  cases k with
  | candidate => exact inv.represents.readMetadata_eq .nextCandidate _ rfl
  | node => exact inv.represents.readMetadata_eq .nextNode _ rfl
  | relation => exact inv.represents.readMetadata_eq .nextRelation _ rfl
  | edge => exact inv.represents.readMetadata_eq .nextEdge _ rfl

end CatalogInv

/-- An identifier in use is below its counter. -/
lemma Tables.Counted.lt_counter (h : t.Counted) {k : IdKind} {id : DurableId k} (hid : t.Has id) :
    id.asU64.val < (t.counter k).val := by
  cases k with
  | candidate =>
    obtain ⟨c, hc⟩ := hid
    exact h.candidate id c hc
  | node =>
    obtain ⟨r, hr⟩ := hid
    exact h.node id r hr
  | relation =>
    obtain ⟨r, hr⟩ := hid
    exact h.relation id r hr
  | edge =>
    obtain ⟨e, he⟩ := hid
    exact h.edge id e he

namespace Tables.Evolves

lemma counter_le (h : t.Evolves t') (k : IdKind) : (t.counter k).val ≤ (t'.counter k).val := by
  cases k with
  | candidate => exact h.nextCandidate
  | node => exact h.nextNode
  | relation => exact h.nextRelation
  | edge => exact h.nextEdge

/-- What is in use now was in use before, or has an identifier from the counter on. -/
lemma has_cases (h : t.Evolves t') {k : IdKind} {id : DurableId k} (hid : t'.Has id) :
    t.Has id ∨ (t.counter k).val ≤ id.asU64.val := by
  cases k with
  | candidate =>
    obtain ⟨c, hc⟩ := hid
    exact (h.candidate id c hc).imp_left fun hold => ⟨c, hold⟩
  | node =>
    obtain ⟨r, hr⟩ := hid
    exact (h.node id r hr).imp_left fun hold => ⟨r, hold⟩
  | relation =>
    obtain ⟨r, hr⟩ := hid
    exact (h.relation id r hr).imp_left fun ⟨old, hold, _⟩ => ⟨old, hold⟩
  | edge =>
    obtain ⟨e, he⟩ := hid
    exact (h.edge id e he).imp_left fun hold => ⟨e, hold⟩

/-- The identifiers that came into use are those the counter has passed. -/
lemma allocated_iff (h : t.Evolves t') (hfills : t.Fills t') (hcounted : t.Counted)
    (hcounted' : t'.Counted) {k : IdKind} (id : DurableId k) :
    (¬ t.Has id ∧ t'.Has id) ↔
      (t.counter k).val ≤ id.asU64.val ∧ id.asU64.val < (t'.counter k).val := by
  constructor
  · rintro ⟨hnot, hid⟩
    exact ⟨(h.has_cases hid).resolve_left hnot, hcounted'.lt_counter hid⟩
  · rintro ⟨hle, hlt⟩
    exact ⟨fun hid => not_lt.2 hle (hcounted.lt_counter hid), hfills k id hle hlt⟩

end Tables.Evolves

/-! ## Runs -/

/-- The tables evolve along a run. -/
lemma catalogMachine_evolves {actions : List (CatalogCall × WriteAnswer)}
    {outs : List (CatalogCall × Except CatalogError CallResult)} (inv : CatalogInv c t)
    (hrun : catalogMachine.run c actions = some (c', outs)) :
    ∃ t', CatalogInv c' t' ∧ t.Evolves t' := by
  refine Machine.run_invariant (I := fun c' => ∃ t', CatalogInv c' t' ∧ t.Evolves t')
    (fun _ _ _ _ hinv hstep => ?_) ⟨t, inv, .refl t⟩ hrun
  obtain ⟨t₁, inv₁, hevolves⟩ := hinv
  obtain ⟨⟨t₂, inv₂, hstep_evolves, -⟩, -⟩ := catalogMachine_step inv₁ hstep
  exact ⟨t₂, inv₂, hevolves.trans hstep_evolves⟩

namespace CatalogInv

lemma node_eq (inv : CatalogInv c t) (inv' : CatalogInv c' t') (h : t.Evolves t') {id : NodeId}
    {r r' : NodeRecord} (hr : getNodeFromDb c.db id = .ok r)
    (hr' : getNodeFromDb c'.db id = .ok r') : r' = r := by
  rw [inv.represents.getNode_eq, okOr_eq_ok] at hr
  rw [inv'.represents.getNode_eq, okOr_eq_ok] at hr'
  rcases h.node id r' hr' with hold | hle
  · exact Option.some.inj (hold.symm.trans hr)
  · exact absurd (inv.counted.node id r hr) (not_lt.2 hle)

lemma edge_eq (inv : CatalogInv c t) (inv' : CatalogInv c' t') (h : t.Evolves t') {id : EdgeId}
    {e e' : EdgeRecord} (he : getEdgeFromDb c.db id = .ok e)
    (he' : getEdgeFromDb c'.db id = .ok e') : e' = e := by
  rw [inv.represents.getEdge_eq, okOr_eq_ok] at he
  rw [inv'.represents.getEdge_eq, okOr_eq_ok] at he'
  rcases h.edge id e' he' with hold | hle
  · exact Option.some.inj (hold.symm.trans he)
  · exact absurd (inv.counted.edge id e he) (not_lt.2 hle)

lemma relation_name_eq (inv : CatalogInv c t) (inv' : CatalogInv c' t') (h : t.Evolves t')
    {id : RelationId} {r r' : RelationRecord} (hr : getRelationFromDb c.db id = .ok r)
    (hr' : getRelationFromDb c'.db id = .ok r') : r'.name = r.name := by
  rw [inv.represents.getRelation_eq, okOr_eq_ok] at hr
  rw [inv'.represents.getRelation_eq, okOr_eq_ok] at hr'
  rcases h.relation id r' hr' with ⟨old, hold, hname⟩ | hle
  · rw [hname, Option.some.inj (hold.symm.trans hr)]
  · exact absurd (inv.counted.relation id r hr) (not_lt.2 hle)

end CatalogInv

/-- A step with a result is the run of its call. -/
lemma catalogMachine_step_ok {action : CatalogCall × WriteAnswer} {call : CatalogCall}
    {result : CallResult} (hstep : catalogMachine.step c action = some (c', call, .ok result)) :
    action.1 = call ∧ call.run action.2 c = .ok result c' := by
  simp only [catalogMachine] at hstep
  rcases hrun : action.1.run action.2 c with ⟨result', c''⟩ | ⟨e, c''⟩
  · rw [hrun] at hstep
    cases hstep
    exact ⟨rfl, hrun⟩
  · rw [hrun] at hstep
    cases hstep

/-- The candidates of an insertion are new, and all different. -/
lemma Inserts.allocates {entries : List CandidateBatchEntry} {result : CandidateBatchInsertResult}
    {plan : InsertPlan} {cs : List Candidate} {changes : List RelationChange} {following : U64}
    (h : Inserts c t entries result c' plan cs changes following) (inv : CatalogInv c t) :
    result.candidateIds.Nodup ∧ ∀ id ∈ result.candidateIds, c.Allocates c' id := by
  rw [h.result_eq]
  refine ⟨List.Nodup.map_on (fun i hi j hj heq => ?_) List.nodup_range, fun id hid => ?_⟩
  · exact h.insertion.injective i j (List.mem_range.1 hi) (List.mem_range.1 hj) heq
  · obtain ⟨i, hi, rfl⟩ := List.mem_map.1 hid
    have hlt := List.mem_range.1 hi
    have hval := Tables.newIds_val h.following_eq hlt
    have hfollowing := h.following_eq
    rw [Catalog.Allocates, inv.holds_iff, h.inv.holds_iff]
    apply ((h.evolves inv).allocated_iff h.fills inv.counted h.inv.counted _).2
    constructor
    · show t.metadata.nextCandidate.val ≤ _
      omega
    · show _ < following.val
      omega

lemma insertCandidateBatch_allocates {entries : List CandidateBatchEntry} {disk : WriteAnswer}
    {result : CandidateBatchInsertResult} (inv : CatalogInv c t)
    (hrun : (CatalogCall.insertCandidateBatch entries).run disk c = .ok (.inserted result) c') :
    result.candidateIds.Nodup ∧ ∀ id ∈ result.candidateIds, c.Allocates c' id := by
  have hspec := (insertCandidateBatch_ensures inv disk entries).map CallResult.inserted
    (Q := fun r c' => ∀ result, r = .inserted result →
      result.candidateIds.Nodup ∧ ∀ id ∈ result.candidateIds, c.Allocates c' id)
    fun result c' ⟨_, _, _, _, h⟩ result' heq => by
      cases heq
      exact h.allocates inv
  exact hspec.of_ok hrun result rfl

/-- Whatever calls are made on a freshly initialised catalog, let `c₁` and `c₂` be any two states of
the run in their order and let the next call lead from `c₂` to `c₃`.  An identifier in use in `c₁`
is below its counter from then on and is not given to a record again; the call gives out exactly the
identifiers its counters pass, each to a record of its own; and a record that is there in both
states is the same in both. -/
theorem catalog_identity {c₀ c₁ c₂ c₃ : Catalog}
    {first second : List (CatalogCall × WriteAnswer)} {action : CatalogCall × WriteAnswer}
    {outs outs' : List (CatalogCall × Except CatalogError CallResult)}
    {out : CatalogCall × Except CatalogError CallResult}
    (hopen : openCatalog .written Database.empty = .ok c₀)
    (hfirst : catalogMachine.run c₀ first = some (c₁, outs))
    (hsecond : catalogMachine.run c₁ second = some (c₂, outs'))
    (hstep : catalogMachine.step c₂ action = some (c₃, out)) :
    (∀ {k : IdKind} (id : DurableId k), c₁.Holds id →
      (∃ n, c₂.nextId k = .ok n ∧ id.asU64.val < n.val) ∧ ¬ c₂.Allocates c₃ id) ∧
    (∀ k : IdKind, ∃ n n', c₂.nextId k = .ok n ∧ c₃.nextId k = .ok n' ∧ n.val ≤ n'.val ∧
      ∀ id : DurableId k, c₂.Allocates c₃ id ↔ n.val ≤ id.asU64.val ∧ id.asU64.val < n'.val) ∧
    (∀ entries result, out = (.insertCandidateBatch entries, .ok (.inserted result)) →
      result.candidateIds.Nodup ∧ ∀ id ∈ result.candidateIds, c₂.Allocates c₃ id) ∧
    (∀ id r r', getNodeFromDb c₁.db id = .ok r → getNodeFromDb c₂.db id = .ok r' → r' = r) ∧
    (∀ id e e', getEdgeFromDb c₁.db id = .ok e → getEdgeFromDb c₂.db id = .ok e' → e' = e) ∧
    (∀ id r r', getRelationFromDb c₁.db id = .ok r → getRelationFromDb c₂.db id = .ok r' →
      r'.name = r.name) := by
  obtain rfl : c₀ = .fresh := Except.ok.inj (hopen.symm.trans openCatalog_empty)
  obtain ⟨t₁, inv₁, -⟩ := catalogMachine_evolves fresh_inv hfirst
  obtain ⟨t₂, inv₂, h₂⟩ := catalogMachine_evolves inv₁ hsecond
  obtain ⟨⟨t₃, inv₃, h₃, hfills⟩, -⟩ := catalogMachine_step inv₂ hstep
  -- what is given out lies between the counters before and after
  have hallocates : ∀ {k : IdKind} (id : DurableId k), c₂.Allocates c₃ id ↔
      (t₂.counter k).val ≤ id.asU64.val ∧ id.asU64.val < (t₃.counter k).val := by
    intro k id
    rw [Catalog.Allocates, inv₂.holds_iff, inv₃.holds_iff]
    exact h₃.allocated_iff hfills inv₂.counted inv₃.counted id
  refine ⟨fun {k} id hid => ?_, fun k => ?_, fun entries result hout => ?_,
    fun _ _ _ => inv₁.node_eq inv₂ h₂, fun _ _ _ => inv₁.edge_eq inv₂ h₂,
    fun _ _ _ => inv₁.relation_name_eq inv₂ h₂⟩
  · have hlt : id.asU64.val < (t₂.counter k).val :=
      lt_of_lt_of_le (inv₁.counted.lt_counter ((inv₁.holds_iff id).1 hid)) (h₂.counter_le k)
    refine ⟨⟨_, inv₂.nextId_eq k, hlt⟩, fun hnew => ?_⟩
    exact not_lt.2 ((hallocates id).1 hnew).1 hlt
  · exact ⟨_, _, inv₂.nextId_eq k, inv₃.nextId_eq k, h₃.counter_le k, hallocates⟩
  · subst hout
    obtain ⟨-, hrun⟩ := catalogMachine_step_ok hstep
    exact insertCandidateBatch_allocates inv₂ hrun

/-- A node is confirmed and removed, and confirmed again under its old name. -/
theorem catalog_identity_recreated : ∃ c₁ c₂ c₃ outs outs' out,
    catalogMachine.run .fresh
      [(.insertCandidateBatch [.node ⟨"a"⟩ ⟨[]⟩], .written),
        (.confirmCandidateBatch [⟨1⟩], .written)] = some (c₁, outs) ∧
    catalogMachine.run c₁
      [(.removeNode ⟨1⟩, .written), (.insertCandidateBatch [.node ⟨"a"⟩ ⟨[7]⟩], .written)] =
        some (c₂, outs') ∧
    catalogMachine.step c₂ (.confirmCandidateBatch [⟨2⟩], .written) = some (c₃, out) ∧
    c₁.Holds (k := .node) ⟨1⟩ ∧ ¬ c₂.Allocates c₃ (k := .node) ⟨1⟩ := by
  obtain ⟨c₁, outs, hfirst⟩ := catalogMachine_run_total .fresh
    [(.insertCandidateBatch [.node ⟨"a"⟩ ⟨[]⟩], .written),
      (.confirmCandidateBatch [⟨1⟩], .written)]
  obtain ⟨c₂, outs', hsecond⟩ := catalogMachine_run_total c₁
    [(.removeNode ⟨1⟩, .written), (.insertCandidateBatch [.node ⟨"a"⟩ ⟨[7]⟩], .written)]
  obtain ⟨c₃, outs'', hthird⟩ := catalogMachine_run_total c₂
    [(.confirmCandidateBatch [⟨2⟩], .written)]
  obtain ⟨c₃', out, os', hstep, -⟩ := Machine.run_cons_eq_some hthird
  have hread : ((catalogMachine.run .fresh
      [(.insertCandidateBatch [.node ⟨"a"⟩ ⟨[]⟩], .written),
        (.confirmCandidateBatch [⟨1⟩], .written)]).map fun s =>
          (getNodeFromDb s.1.db ⟨1⟩).toOption) = some (some ⟨⟨1⟩, ⟨"a"⟩, ⟨[]⟩⟩) := by
    decide +kernel
  have hholds : c₁.Holds (k := .node) ⟨1⟩ := by
    rw [hfirst, Option.map_some, Option.some.injEq] at hread
    rcases hget : getNodeFromDb c₁.db ⟨1⟩ with e | r
    · rw [hget] at hread
      cases hread
    · exact ⟨r, hget⟩
  refine ⟨c₁, c₂, c₃', outs, outs', out, hfirst, hsecond, hstep, hholds, ?_⟩
  exact ((catalog_identity openCatalog_empty hfirst hsecond hstep).1 _ hholds).2

end PathHydra
