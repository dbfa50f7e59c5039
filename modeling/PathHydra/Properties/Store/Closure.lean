import PathHydra.Properties.Store.Provisional

/-!
# Confirmation accepts the dependency-closed selections

A client sees candidates and their references, not the stored counts.  `Catalog.DependencyClosed`
says in these terms what may be confirmed together: the candidates a selected edge refers to are
selected, and so are the edges that refer to a selected candidate.  The operation compares counts
instead, which comes to the same in every state it can reach, since the counts are exact there.
-/

namespace PathHydra

namespace Catalog

/-- The identifiers name candidates, and references between candidates neither leave nor enter the
selection. -/
structure DependencyClosed (c : Catalog) (ids : List CandidateId) : Prop where
  has : ∀ id ∈ ids, ∃ candidate, getCandidateFromDb c.db id = .ok candidate
  downward : ∀ id ∈ ids, ∀ candidate, getCandidateFromDb c.db id = .ok candidate →
    ∀ dependency, 0 < candidate.refersTo dependency → dependency ∈ ids
  upward : ∀ id candidate, getCandidateFromDb c.db id = .ok candidate →
    ∀ dependency ∈ ids, 0 < candidate.refersTo dependency → id ∈ ids

/-- The stored counters of nodes, relation kinds and edges, and the usage of every relation kind,
can be raised so often. -/
structure HasRoom (c : Catalog) (n : ℕ) : Prop where
  ids : ∀ k next, k ≠ .candidate → c.nextId k = .ok next → next.val + n < 2 ^ 64
  usage : ∀ id r, getRelationFromDb c.db id = .ok r →
    r.provisionalReferenceCount.val + r.confirmedEdgeCount.val + n < 2 ^ 64

end Catalog

variable {c : Catalog} {t : Tables}

namespace CatalogInv

lemma getCandidate_iff (inv : CatalogInv c t) {id : CandidateId} {candidate : Candidate} :
    getCandidateFromDb c.db id = .ok candidate ↔ t.candidates.get id = some candidate := by
  rw [inv.represents.getCandidate_eq, okOr_eq_ok]

/-- What may be confirmed, read at the database and read at the tables. -/
lemma confirmable_iff (inv : CatalogInv c t) (ids : List CandidateId) :
    t.Confirmable ids ↔ ids ≠ [] ∧ ids.length ≤ MAXIMUM_CANDIDATE_BATCH_ENTRIES ∧ ids.Nodup ∧
      c.DependencyClosed ids := by
  constructor
  · intro h
    refine ⟨h.nonempty, h.short, h.nodup, fun id hid => ?_, fun id hid candidate hget => ?_,
      fun id candidate hget => ?_⟩
    · obtain ⟨candidate, hget⟩ := h.has id hid
      exact ⟨candidate, inv.getCandidate_iff.2 hget⟩
    · exact h.downward id hid candidate (inv.getCandidate_iff.1 hget)
    · exact h.upward id candidate (inv.getCandidate_iff.1 hget)
  · rintro ⟨hne, hshort, hnodup, h⟩
    refine ⟨hne, hshort, hnodup, fun id hid => ?_, fun id hid candidate hget => ?_,
      fun id candidate hget => ?_⟩
    · obtain ⟨candidate, hget⟩ := h.has id hid
      exact ⟨candidate, inv.getCandidate_iff.1 hget⟩
    · exact h.downward id hid candidate (inv.getCandidate_iff.2 hget)
    · exact h.upward id candidate (inv.getCandidate_iff.2 hget)

lemma hasRoom (inv : CatalogInv c t) {n : ℕ} (h : c.HasRoom n) : t.HasRoom n := by
  have hids : ∀ k, k ≠ .candidate → (t.counter k).val + n < 2 ^ 64 := fun k hk =>
    h.ids k _ hk (inv.nextId_eq k)
  refine ⟨hids .node (by simp), hids .relation (by simp), hids .edge (by simp), fun r hr => ?_⟩
  refine h.usage r.id r ?_
  rw [inv.represents.getRelation_eq, show t.relations.get r.id = some r from hr, okOr_some]

end CatalogInv

/-- What a successful confirmation selected could be confirmed. -/
lemma Confirms.confirmable {ids : List CandidateId} {result : CandidateBatchConfirmation}
    {c' : Catalog} {cs : List Candidate} {plan : ConfirmPlan} {changes : List RelationChange}
    (h : Confirms c t ids result c' cs plan changes) : t.Confirmable ids := by
  have hids := h.ids_eq
  have hne := h.nonempty
  have hshort := h.short
  rw [← hids, ne_eq, List.map_eq_nil_iff] at hne
  rw [← hids, List.length_map] at hshort
  rw [← hids]
  exact h.confirmation.closed.confirmable h.confirmation.inv.consistent hne hshort

/-- What was confirmed was closed under dependencies. -/
lemma dependencyClosed_of_confirmed {actions : List (CatalogCall × WriteAnswer)}
    {outs : List (CatalogCall × Except CatalogError CallResult)}
    (hrun : catalogMachine.run .fresh actions = some (c, outs)) {disk : WriteAnswer}
    {ids : List CandidateId} {result : CandidateBatchConfirmation} {c' : Catalog}
    (hconfirm : confirmCandidateBatch disk ids c = .ok result c') : c.DependencyClosed ids := by
  obtain ⟨t, inv, -⟩ := catalogMachine_evolves fresh_inv hrun
  obtain ⟨cs, plan, changes, h⟩ := (confirm_spec inv disk ids u64Max).of_ok hconfirm
  exact ((inv.confirmable_iff ids).1 h.confirmable).2.2.2

/-- In every state the catalog can reach whose counters have room for the list, the candidates of
the list are confirmed exactly when the list is neither empty nor too long, repeats none of them,
and is closed under dependencies. -/
theorem confirmCandidateBatch_accepts {c₀ c : Catalog}
    {actions : List (CatalogCall × WriteAnswer)}
    {outs : List (CatalogCall × Except CatalogError CallResult)}
    (hopen : openCatalog .written Database.empty = .ok c₀)
    (hrun : catalogMachine.run c₀ actions = some (c, outs)) (ids : List CandidateId)
    (hroom : c.HasRoom ids.length) :
    (∃ result c', confirmCandidateBatch .written ids c = .ok result c') ↔
      ids ≠ [] ∧ ids.length ≤ MAXIMUM_CANDIDATE_BATCH_ENTRIES ∧ ids.Nodup ∧
        c.DependencyClosed ids := by
  obtain rfl : c₀ = .fresh := Except.ok.inj (hopen.symm.trans openCatalog_empty)
  obtain ⟨t, inv, -⟩ := catalogMachine_evolves fresh_inv hrun
  have hspec := confirm_spec inv .written ids u64Max
  rw [← inv.confirmable_iff ids]
  constructor
  · rintro ⟨result, c', hconfirm⟩
    obtain ⟨cs, plan, changes, h⟩ := hspec.of_ok hconfirm
    exact h.confirmable
  · intro hconfirmable
    rcases hconfirm : confirmCandidateBatch .written ids c with ⟨result, c'⟩ | ⟨e, c'⟩
    · exact ⟨result, c', rfl⟩
    · refine absurd ⟨rfl, rfl, hconfirmable, fun cs hclosed hids => ?_⟩ (hspec.of_error hconfirm).2.2
      have hlength : cs.length = ids.length := by rw [← hids, List.length_map]
      exact Tables.HasRoom.plans inv hclosed (hlength ▸ inv.hasRoom hroom)

/-- The candidates of a node with an edge to itself, which counts as two references, are closed
under dependencies. -/
theorem confirmCandidateBatch_accepts_loop : ∃ c outs,
    catalogMachine.run .fresh (loopCalls.take 1) = some (c, outs) ∧
      c.DependencyClosed [⟨1⟩, ⟨2⟩, ⟨3⟩] := by
  obtain ⟨c, outs, hrun⟩ := catalogMachine_run_total .fresh (loopCalls.take 1)
  have hnext : ∀ k, (catalogMachine.run .fresh (loopCalls.take 1)).map
      (fun s => (s.1.nextId k).toOption) = some (some (if k = .candidate then 4 else 1)) := by
    intro k
    cases k <;> decide +kernel
  have hkinds : (catalogMachine.run .fresh (loopCalls.take 1)).map
      (fun s => (s.1.db .relationKinds).entries) = some [] := by
    decide +kernel
  have hcounts : (catalogMachine.run .fresh (loopCalls.take 1)).map (fun s =>
      ((confirmCandidateBatch .written [⟨1⟩, ⟨2⟩, ⟨3⟩]).run' s.1).map
        CandidateBatchConfirmation.createdNodes) = some (some 1) := by
    decide +kernel
  rw [hrun, Option.map_some, Option.some.injEq] at hkinds hcounts
  have hroom : c.HasRoom 3 := by
    refine ⟨fun k next hk heq => ?_, fun id r hr => ?_⟩
    · have hvalue := hnext k
      rw [hrun, Option.map_some, Option.some.injEq, if_neg hk, heq] at hvalue
      cases hvalue
      decide
    · obtain ⟨t, inv, -⟩ := catalogMachine_evolves fresh_inv hrun
      rw [inv.represents.getRelation_eq, okOr_eq_ok] at hr
      have hmem := SortedMap.get_eq_some.1 ((inv.represents.relations.get_key id).trans
        (congrArg (Option.map relationBytes) hr))
      rw [hkinds] at hmem
      cases hmem
  rcases hconfirm : confirmCandidateBatch .written [⟨1⟩, ⟨2⟩, ⟨3⟩] c with ⟨result, c'⟩ | ⟨e, c'⟩
  · have haccepts := confirmCandidateBatch_accepts openCatalog_empty hrun [⟨1⟩, ⟨2⟩, ⟨3⟩] hroom
    exact ⟨c, outs, hrun, (haccepts.1 ⟨result, c', hconfirm⟩).2.2.2⟩
  · simp [run'_eq_none hconfirm] at hcounts

end PathHydra
