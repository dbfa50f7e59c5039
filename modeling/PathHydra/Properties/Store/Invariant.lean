import PathHydra.Properties.Store.Reads

/-!
# The invariant of the catalog

Beside being writable, the tables are consistent (`Tables.Consistent`): edges and candidates refer
to records that are there, every stored count is the number of references it stands for, and the
counters are above all identifiers in use.  `CatalogInv` is the whole invariant: the database
represents consistent tables, and the exact-name maps are those of the tables.
-/

namespace PathHydra

/-! ## References and usage -/

/-- How often a node reference points to a candidate. -/
def CandidateNodeReference.pointsTo (r : CandidateNodeReference) (id : CandidateId) : ℕ :=
  if r = .candidate id then 1 else 0

/-- How often a relation-kind reference points to a candidate. -/
def CandidateRelationReference.pointsTo (r : CandidateRelationReference) (id : CandidateId) : ℕ :=
  if r = .candidate id then 1 else 0

lemma CandidateNodeReference.pointsTo_candidate (id id' : CandidateId) :
    (CandidateNodeReference.candidate id).pointsTo id' = if id' = id then 1 else 0 := by
  simp [CandidateNodeReference.pointsTo, eq_comm]

lemma CandidateRelationReference.pointsTo_candidate (id id' : CandidateId) :
    (CandidateRelationReference.candidate id).pointsTo id' = if id' = id then 1 else 0 := by
  simp [CandidateRelationReference.pointsTo, eq_comm]

lemma CandidateNodeReference.pointsTo_le (r : CandidateNodeReference) (id : CandidateId) :
    r.pointsTo id ≤ 1 := by
  unfold CandidateNodeReference.pointsTo
  split_ifs <;> simp

lemma CandidateRelationReference.pointsTo_le (r : CandidateRelationReference) (id : CandidateId) :
    r.pointsTo id ≤ 1 := by
  unfold CandidateRelationReference.pointsTo
  split_ifs <;> simp

/-- How often a candidate refers to another. -/
def Candidate.refersTo (id : CandidateId) : Candidate → ℕ
  | .edge _ source destination relationKind _ =>
    source.pointsTo id + destination.pointsTo id + relationKind.pointsTo id
  | _ => 0

lemma Candidate.refersTo_le (c : Candidate) (id : CandidateId) : c.refersTo id ≤ 3 := by
  rcases c with _ | _ | ⟨_, source, destination, relationKind, _⟩
  · exact Nat.zero_le 3
  · exact Nat.zero_le 3
  · have hsource := source.pointsTo_le id
    have hdestination := destination.pointsTo_le id
    have hrelation := relationKind.pointsTo_le id
    simp only [Candidate.refersTo]
    omega

/-- How often a candidate refers to a confirmed relation kind. -/
def Candidate.uses (relation : RelationId) : Candidate → ℕ
  | .edge _ _ _ relationKind _ => if relationKind = .confirmed relation then 1 else 0
  | _ => 0

/-- How often an edge has a relation kind. -/
def EdgeRecord.uses (relation : RelationId) (e : EdgeRecord) : ℕ :=
  if e.relationKind = relation then 1 else 0

/-- The stored number of references to a candidate. -/
def Candidate.incoming : Candidate → Option U64
  | .node _ _ _ count | .relation _ _ count => some count
  | .edge .. => none

/-- The candidate is a node candidate. -/
def Candidate.IsNode : Candidate → Prop
  | .node .. => True
  | _ => False

/-- The candidate is a relation-kind candidate. -/
def Candidate.IsRelation : Candidate → Prop
  | .relation .. => True
  | _ => False

namespace Tables

variable (t : Tables)

/-- The reference leads to a node or a node candidate. -/
def ResolvesNode : CandidateNodeReference → Prop
  | .confirmed id => ∃ r, t.nodes.get id = some r
  | .candidate id => ∃ c, t.candidates.get id = some c ∧ c.IsNode

/-- The reference leads to a relation kind or a relation-kind candidate. -/
def ResolvesRelation : CandidateRelationReference → Prop
  | .confirmed id => ∃ r, t.relations.get id = some r
  | .candidate id => ∃ c, t.candidates.get id = some c ∧ c.IsRelation

/-- The references of a candidate edge lead somewhere. -/
def Resolves : Candidate → Prop
  | .edge _ source destination relationKind _ =>
    t.ResolvesNode source ∧ t.ResolvesNode destination ∧ t.ResolvesRelation relationKind
  | _ => True

/-- References lead to records, and the stored counts are the numbers of references. -/
structure Consistent : Prop where
  edge : ∀ e, t.HasEdge e → (∃ r, t.nodes.get e.source = some r) ∧
    (∃ r, t.nodes.get e.destination = some r) ∧ ∃ r, t.relations.get e.relationKind = some r
  candidate : ∀ id c, t.candidates.get id = some c → t.Resolves c
  incoming : ∀ id c count, t.candidates.get id = some c → c.incoming = some count →
    count.val = t.candidates.sum (Candidate.refersTo id)
  provisional : ∀ r, t.HasRelation r →
    r.provisionalReferenceCount.val = t.candidates.sum (Candidate.uses r.id)
  confirmed : ∀ r, t.HasRelation r → r.confirmedEdgeCount.val = t.edges.sum (EdgeRecord.uses r.id)

/-- The counters are above the identifiers in use. -/
structure Counted : Prop where
  candidate : ∀ id c, t.candidates.get id = some c →
    id.asU64.val < t.metadata.nextCandidate.val
  node : ∀ id r, t.nodes.get id = some r → id.asU64.val < t.metadata.nextNode.val
  relation : ∀ id r, t.relations.get id = some r → id.asU64.val < t.metadata.nextRelation.val
  edge : ∀ id e, t.edges.get id = some e → id.asU64.val < t.metadata.nextEdge.val
  positive : 1 ≤ t.metadata.nextCandidate.val ∧ 1 ≤ t.metadata.nextNode.val ∧
    1 ≤ t.metadata.nextRelation.val ∧ 1 ≤ t.metadata.nextEdge.val
  pointer : ∀ p, t.metadata.pointer = some p → (strBytes p.relativeBundle).length < 2 ^ 32

end Tables

/-- The tables hold the same confirmed graph: the same nodes and edges, and relation kinds with the
same identifiers and names. -/
structure Tables.SameGraph (t t' : Tables) : Prop where
  nodes : t'.nodes = t.nodes
  edges : t'.edges = t.edges
  relations : ∀ id, (t'.relations.get id).map RelationRecord.name =
    (t.relations.get id).map RelationRecord.name

/-- How the tables change over time: counters only grow, a record that was there is kept as it was
or goes, and what is new has an identifier from the counter on. -/
structure Tables.Evolves (t t' : Tables) : Prop where
  nextCandidate : t.metadata.nextCandidate.val ≤ t'.metadata.nextCandidate.val
  nextNode : t.metadata.nextNode.val ≤ t'.metadata.nextNode.val
  nextRelation : t.metadata.nextRelation.val ≤ t'.metadata.nextRelation.val
  nextEdge : t.metadata.nextEdge.val ≤ t'.metadata.nextEdge.val
  candidate : ∀ id c, t'.candidates.get id = some c →
    t.candidates.get id = some c ∨ t.metadata.nextCandidate.val ≤ id.asU64.val
  node : ∀ id r, t'.nodes.get id = some r →
    t.nodes.get id = some r ∨ t.metadata.nextNode.val ≤ id.asU64.val
  relation : ∀ id r, t'.relations.get id = some r →
    (∃ old, t.relations.get id = some old ∧ r.name = old.name) ∨
      t.metadata.nextRelation.val ≤ id.asU64.val
  edge : ∀ id e, t'.edges.get id = some e →
    t.edges.get id = some e ∨ t.metadata.nextEdge.val ≤ id.asU64.val

lemma Tables.Evolves.refl (t : Tables) : t.Evolves t :=
  ⟨le_rfl, le_rfl, le_rfl, le_rfl, fun _ _ h => .inl h, fun _ _ h => .inl h,
    fun _ r h => .inl ⟨r, h, rfl⟩, fun _ _ h => .inl h⟩

lemma Tables.Evolves.trans {t t' t'' : Tables} (h : t.Evolves t') (h' : t'.Evolves t'') :
    t.Evolves t'' := by
  refine ⟨h.nextCandidate.trans h'.nextCandidate, h.nextNode.trans h'.nextNode,
    h.nextRelation.trans h'.nextRelation, h.nextEdge.trans h'.nextEdge, fun id c hget => ?_,
    fun id r hget => ?_, fun id r hget => ?_, fun id e hget => ?_⟩
  · rcases h'.candidate id c hget with hmid | hle
    · exact h.candidate id c hmid
    · exact .inr (h.nextCandidate.trans hle)
  · rcases h'.node id r hget with hmid | hle
    · exact h.node id r hmid
    · exact .inr (h.nextNode.trans hle)
  · rcases h'.relation id r hget with ⟨mid, hmid, hname⟩ | hle
    · rcases h.relation id mid hmid with ⟨old, hold, hname'⟩ | hle
      · exact .inl ⟨old, hold, hname.trans hname'⟩
      · exact .inr hle
    · exact .inr (h.nextRelation.trans hle)
  · rcases h'.edge id e hget with hmid | hle
    · exact h.edge id e hmid
    · exact .inr (h.nextEdge.trans hle)

/-- The counter of a kind of identifiers. -/
def Tables.counter (t : Tables) : IdKind → U64
  | .candidate => t.metadata.nextCandidate
  | .node => t.metadata.nextNode
  | .relation => t.metadata.nextRelation
  | .edge => t.metadata.nextEdge

/-- The identifier is in use. -/
def Tables.Has (t : Tables) : {k : IdKind} → DurableId k → Prop
  | .candidate, id => ∃ c, t.candidates.get id = some c
  | .node, id => ∃ r, t.nodes.get id = some r
  | .relation, id => ∃ r, t.relations.get id = some r
  | .edge, id => ∃ e, t.edges.get id = some e

/-- Every identifier a counter has passed was given to a record. -/
def Tables.Fills (t t' : Tables) : Prop :=
  ∀ (k : IdKind) (id : DurableId k), (t.counter k).val ≤ id.asU64.val →
    id.asU64.val < (t'.counter k).val → t'.Has id

lemma Tables.Fills.of_counters {t t' : Tables} (h : ∀ k, t'.counter k = t.counter k) :
    t.Fills t' := by
  intro k id hle hlt
  rw [h k] at hlt
  omega

section Resolves

variable {t t' : Tables}

/-- References still lead somewhere when the records they lead to are kept. -/
lemma Tables.Resolves.mono {c : Candidate} (h : t.Resolves c)
    (hnodes : ∀ id r, t.nodes.get id = some r → c.MentionsNode id →
      ∃ r', t'.nodes.get id = some r')
    (hrelations : ∀ id r, t.relations.get id = some r → 0 < c.uses id →
      ∃ r', t'.relations.get id = some r')
    (hcandidates : ∀ id c', t.candidates.get id = some c' → 0 < c.refersTo id →
      t'.candidates.get id = some c') : t'.Resolves c := by
  rcases c with _ | _ | ⟨id, source, destination, relationKind, baseWeight⟩
  · trivial
  · trivial
  have hnode : ∀ r : CandidateNodeReference, t.ResolvesNode r → r = source ∨ r = destination →
      t'.ResolvesNode r := by
    intro r hr hmem
    cases r with
    | confirmed node =>
      obtain ⟨record, hrecord⟩ := hr
      exact hnodes node record hrecord (hmem.imp Eq.symm Eq.symm)
    | candidate id =>
      obtain ⟨c', hc', hkind⟩ := hr
      refine ⟨c', hcandidates id c' hc' ?_, hkind⟩
      simp only [Candidate.refersTo]
      rcases hmem with rfl | rfl
      · simp only [CandidateNodeReference.pointsTo_candidate, if_pos]
        omega
      · simp only [CandidateNodeReference.pointsTo_candidate, if_pos]
        omega
  obtain ⟨hsource, hdestination, hrelation⟩ := h
  refine ⟨hnode source hsource (.inl rfl), hnode destination hdestination (.inr rfl), ?_⟩
  cases relationKind with
  | confirmed id =>
    obtain ⟨record, hrecord⟩ := hrelation
    exact hrelations id record hrecord (by simp [Candidate.uses])
  | candidate id =>
    obtain ⟨c', hc', hkind⟩ := hrelation
    refine ⟨c', hcandidates id c' hc' ?_, hkind⟩
    simp [Candidate.refersTo, CandidateRelationReference.pointsTo]

/-- What a candidate refers to is there. -/
lemma Tables.Resolves.refersTo {c : Candidate} (h : t.Resolves c) {id : CandidateId}
    (hpos : 0 < c.refersTo id) :
    ∃ c', t.candidates.get id = some c' ∧ (c'.IsNode ∨ c'.IsRelation) := by
  rcases c with _ | _ | ⟨_, source, destination, relationKind, baseWeight⟩
  · simp [Candidate.refersTo] at hpos
  · simp [Candidate.refersTo] at hpos
  have hnode : ∀ r : CandidateNodeReference, t.ResolvesNode r → 0 < r.pointsTo id →
      ∃ c', t.candidates.get id = some c' ∧ (c'.IsNode ∨ c'.IsRelation) := by
    intro r hr hpoint
    have heq : r = .candidate id := by
      by_contra hne
      simp [CandidateNodeReference.pointsTo, hne] at hpoint
    subst heq
    obtain ⟨c', hc', hkind⟩ := hr
    exact ⟨c', hc', .inl hkind⟩
  obtain ⟨hsource, hdestination, hrelation⟩ := h
  simp only [Candidate.refersTo] at hpos
  by_cases hs : 0 < source.pointsTo id
  · exact hnode source hsource hs
  by_cases hd : 0 < destination.pointsTo id
  · exact hnode destination hdestination hd
  have heq : relationKind = .candidate id := by
    by_contra hne
    simp only [CandidateRelationReference.pointsTo, hne, if_false] at hpos
    omega
  subst heq
  obtain ⟨c', hc', hkind⟩ := hrelation
  exact ⟨c', hc', .inr hkind⟩

/-- The relation kind a candidate uses is there. -/
lemma Tables.Resolves.uses {c : Candidate} (h : t.Resolves c) {id : RelationId}
    (hpos : 0 < c.uses id) : ∃ r, t.relations.get id = some r := by
  rcases c with _ | _ | ⟨_, source, destination, relationKind, baseWeight⟩
  · simp [Candidate.uses] at hpos
  · simp [Candidate.uses] at hpos
  have heq : relationKind = .confirmed id := by
    by_contra hne
    simp [Candidate.uses, hne] at hpos
  subst heq
  exact h.2.2

end Resolves

/-- The exact-name map of a collection of records. -/
def NamesOf {k : IdKind} {R : Type} (names : String → Option (DurableId k)) (S : R → Prop)
    (nameOf : R → String) (idOf : R → DurableId k) : Prop :=
  ∀ s id, names s = some id ↔ ∃ r, S r ∧ nameOf r = s ∧ idOf r = id

/-- The invariant of the catalog, with the tables it holds. -/
structure CatalogInv (c : Catalog) (t : Tables) : Prop where
  represents : Represents c.db t
  writable : t.Writable
  consistent : t.Consistent
  counted : t.Counted
  nodeNames : NamesOf c.nodeNames t.HasNode (fun r => r.name.asStr) NodeRecord.id
  relationNames : NamesOf c.relationNames t.HasRelation (fun r => r.name.asStr) RelationRecord.id

section Names

variable {k : IdKind} {R : Type} {names : String → Option (DurableId k)} {S S' : R → Prop}
  {nameOf : R → String} {idOf : R → DurableId k}

/-- A new record under a new name. -/
lemma NamesOf.add (h : NamesOf names S nameOf idOf) (r : R)
    (hS : ∀ b, S' b ↔ b = r ∨ S b ∧ nameOf b ≠ nameOf r) :
    NamesOf (Function.update names (nameOf r) (some (idOf r))) S' nameOf idOf := by
  intro s id
  by_cases hs : s = nameOf r
  · subst hs
    rw [Function.update_self]
    constructor
    · intro hid
      exact ⟨r, (hS r).2 (.inl rfl), rfl, Option.some.inj hid⟩
    · rintro ⟨b, hb, hname, rfl⟩
      rcases (hS b).1 hb with rfl | ⟨-, hne⟩
      · rfl
      · exact absurd hname hne
  · rw [Function.update_of_ne hs, h s id]
    constructor
    · rintro ⟨b, hb, rfl, rfl⟩
      exact ⟨b, (hS b).2 (.inr ⟨hb, hs⟩), rfl, rfl⟩
    · rintro ⟨b, hb, rfl, rfl⟩
      rcases (hS b).1 hb with rfl | ⟨hb, -⟩
      · exact absurd rfl hs
      · exact ⟨b, hb, rfl, rfl⟩

/-- A record leaves with its name. -/
lemma NamesOf.remove (h : NamesOf names S nameOf idOf) (s : String)
    (hS : ∀ b, S' b ↔ S b ∧ nameOf b ≠ s) :
    NamesOf (Function.update names s none) S' nameOf idOf := by
  intro s' id
  by_cases hs : s' = s
  · subst hs
    rw [Function.update_self]
    simp only [reduceCtorEq, false_iff]
    rintro ⟨b, hb, hname, -⟩
    exact ((hS b).1 hb).2 hname
  · rw [Function.update_of_ne hs, h s' id]
    constructor
    · rintro ⟨b, hb, rfl, rfl⟩
      exact ⟨b, (hS b).2 ⟨hb, hs⟩, rfl, rfl⟩
    · rintro ⟨b, hb, rfl, rfl⟩
      exact ⟨b, ((hS b).1 hb).1, rfl, rfl⟩

/-- There is one exact-name map of a collection. -/
lemma NamesOf.unique {names' : String → Option (DurableId k)} (h : NamesOf names S nameOf idOf)
    (h' : NamesOf names' S nameOf idOf) : names' = names :=
  funext fun s => Option.ext fun id => (h' s id).trans (h s id).symm

/-- The map only reads the names and the identifiers of the records. -/
lemma NamesOf.congr (h : NamesOf names S nameOf idOf)
    (hS : ∀ s id, (∃ r, S' r ∧ nameOf r = s ∧ idOf r = id) ↔ ∃ r, S r ∧ nameOf r = s ∧ idOf r = id) :
    NamesOf names S' nameOf idOf := fun s id => (h s id).trans (hS s id).symm

end Names

end PathHydra
