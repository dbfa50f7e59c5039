import PathHydra.Properties.Store.Atomic
import PathHydra.Properties.Store.Batches

/-!
# Insertion keeps the invariant

The loop over the entries of a batch counts, for every entry, the references to it, and for every
confirmed relation kind the provisional edges that use it.  So the candidates it writes have the
counts that consistency asks for, and the counters of the relation kinds follow.
-/

namespace PathHydra

variable {t : Tables}

/-- The error reports no corrupt record. -/
def NotCorrupt (e : CatalogError) : Prop := ¬ e.IsCorrupt

/-! ## The checks on the batch -/

/-- The name of an entry is at most so many bytes long. -/
def CandidateBatchEntry.NameWithin (bound : ℕ) : CandidateBatchEntry → Prop
  | .node name _ => (strBytes name.asStr).length ≤ bound
  | .relationKind name => (strBytes name.asStr).length ≤ bound
  | .edge .. => True

lemma CandidateBatchEntry.NameWithin.mono {bound bound' : ℕ} (hle : bound ≤ bound')
    {entry : CandidateBatchEntry} (h : entry.NameWithin bound) : entry.NameWithin bound' := by
  cases entry with
  | node name payload => exact Nat.le_trans h hle
  | relationKind name => exact Nat.le_trans h hle
  | edge => trivial

lemma addEntryBytes_ensures (bytes : ℕ × ℕ) (entry : CandidateBatchEntry) :
    Ensures (addEntryBytes bytes entry)
      (fun bytes' => bytes.1 ≤ bytes'.1 ∧ entry.NameWithin bytes'.1) NotCorrupt := by
  have hadd : ∀ {a b c : ℕ}, checkedAdd64 a b = some c → c = a + b := fun h =>
    (checkedAdd64_eq_some.1 h).2
  cases entry with
  | node name payload =>
    refine (ensures_okOr (fun n hn => hadd hn) fun _ => id).bind fun n hn => ?_
    refine (ensures_okOr (Q := fun _ => True) (fun _ _ => trivial) fun _ => id).bind fun m _ => ?_
    exact ensures_pure ⟨by simp [hn], by simp [CandidateBatchEntry.NameWithin, hn]⟩
  | relationKind name =>
    refine (ensures_okOr (fun n hn => hadd hn) fun _ => id).bind fun n hn => ?_
    exact ensures_pure ⟨by simp [hn], by simp [CandidateBatchEntry.NameWithin, hn]⟩
  | edge => exact ensures_pure ⟨le_rfl, trivial⟩

/-- A batch that passes the checks is not too long, and its names can be written. -/
lemma checkBatchBytes_ensures (entries : List CandidateBatchEntry) :
    Ensures (checkBatchBytes entries)
      (fun _ => entries.length ≤ MAXIMUM_CANDIDATE_BATCH_ENTRIES ∧
        ∀ entry ∈ entries, entry.NameWithin MAXIMUM_CANDIDATE_BATCH_NAME_BYTES) NotCorrupt := by
  unfold checkBatchBytes
  by_cases hempty : entries = []
  · simp only [if_pos hempty]
    exact id
  by_cases hlong : MAXIMUM_CANDIDATE_BATCH_ENTRIES < entries.length
  · simp only [if_neg hempty, if_pos hlong]
    exact id
  simp only [if_neg hempty, if_neg hlong]
  have hbytes : Ensures (entries.foldlM addEntryBytes (0, 0))
      (fun bytes => ∀ entry ∈ entries, entry.NameWithin bytes.1) NotCorrupt := by
    refine ensures_foldlM (I := fun pre (bytes : ℕ × ℕ) => ∀ entry ∈ pre, entry.NameWithin bytes.1)
      entries (fun pre entry post bytes _ hpre => ?_) (by simp)
    refine (addEntryBytes_ensures bytes entry).mono fun bytes' _ hbytes' e he => ?_
    rcases List.mem_append.1 he with he | he
    · exact (hpre e he).mono hbytes'.1
    · rw [List.mem_singleton.1 he]
      exact hbytes'.2
  refine hbytes.bind fun bytes hnames => ?_
  obtain ⟨nameBytes, payloadBytes⟩ := bytes
  refine (ensures_okOr (Q := fun _ => True) (fun _ _ => trivial) fun _ => id).bind
    fun estimated _ => ?_
  split_ifs with hlimit
  · exact id
  · exact ⟨not_lt.1 hlong, fun entry he => (hnames entry he).mono (not_lt.1 fun h => hlimit (.inl h))⟩

/-! ## Drafts -/

section Drafts

variable (t : Tables) (entries : List CandidateBatchEntry) (ids : ℕ → CandidateId)

/-- The reference leads to a confirmed node or to a node of the batch. -/
def DraftNode : CandidateNodeReference → Prop
  | .confirmed id => ∃ r, t.nodes.get id = some r
  | .candidate id => ∃ index name payload, entries[index]? = some (.node name payload) ∧
      id = ids index

/-- The reference leads to a confirmed relation kind or to one of the batch. -/
def DraftRelation : CandidateRelationReference → Prop
  | .confirmed id => ∃ r, t.relations.get id = some r
  | .candidate id => ∃ index name, entries[index]? = some (.relationKind name) ∧ id = ids index

/-- The candidate comes from the entry at the index. -/
def Drafts (index : ℕ) : Candidate → Prop
  | .node id name payload _ => id = ids index ∧ entries[index]? = some (.node name payload)
  | .relation id name _ => id = ids index ∧ entries[index]? = some (.relationKind name)
  | .edge id source destination relationKind baseWeight => id = ids index ∧
      (∃ source' destination' relationKind',
        entries[index]? = some (.edge source' destination' relationKind' baseWeight) ∧
        ∀ relation, relationKind' = .confirmed relation ↔ relationKind = .confirmed relation) ∧
      DraftNode t entries ids source ∧ DraftNode t entries ids destination ∧
      DraftRelation t entries ids relationKind

variable {t entries ids}

lemma Drafts.id_eq {index : ℕ} {c : Candidate} (h : Drafts t entries ids index c) :
    c.id = ids index := by
  rcases c with _ | _ | _
  · exact h.1
  · exact h.1
  · exact h.1

variable (t entries ids)

/-- What the loop over the entries has gathered after the first few. -/
structure PlanInv (n : ℕ) (plan : InsertPlan) : Prop where
  candidateIds : plan.candidates.map Candidate.id = (List.range n).map ids
  drafts : ∀ (i : ℕ) (c : Candidate), plan.candidates[i]? = some c → Drafts t entries ids i c
  incoming : ∀ j < entries.length,
    (plan.incoming j).val = (plan.candidates.map (Candidate.refersTo (ids j))).sum
  provisional : ∀ r, ((plan.provisionalByRelation.get r).getD 0).val =
    (plan.candidates.map (Candidate.uses r)).sum
  known : ∀ r delta, plan.provisionalByRelation.get r = some delta →
    ∃ record, t.relations.get r = some record

end Drafts

section Loop

variable {db : Database} {entries : List CandidateBatchEntry} {ids : ℕ → CandidateId}

/-- The identifiers of a batch are different. -/
def IdsInjective (entries : List CandidateBatchEntry) (ids : ℕ → CandidateId) : Prop :=
  ∀ i j, i < entries.length → j < entries.length → ids i = ids j → i = j

lemma countReference_ensures (hids : IdsInjective entries ids) {incoming : ℕ → U64} {index : ℕ}
    (hindex : index < entries.length) :
    Ensures (countReference incoming index) (fun incoming' => ∀ j < entries.length,
      (incoming' j).val = (incoming j).val + if ids j = ids index then 1 else 0) NotCorrupt := by
  refine (ensures_okOr (fun count hcount => U64.checkedAdd_eq_some.1 hcount) fun _ => id).bind
    fun count hcount => ?_
  refine ensures_pure fun j hj => ?_
  by_cases h : j = index
  · subst h
    simp [← hcount]
  · have hne : ids j ≠ ids index := fun heq => h (hids j index hj hindex heq)
    simp [h, hne]

lemma lt_length_of_getElem? {α : Type*} {l : List α} {i : ℕ} {a : α} (h : l[i]? = some a) :
    i < l.length := (List.getElem?_eq_some_iff.1 h).1

/-- A resolved node reference leads somewhere and is counted. -/
lemma resolveBatchNode_ensures (h : Represents db t) (hids : IdsInjective entries ids) (owner : ℕ)
    (endpoint : EdgeEndpoint) (incoming : ℕ → U64) (r : BatchNodeReference) :
    Ensures (resolveBatchNodeReference db entries ids owner endpoint incoming r)
      (fun out => DraftNode t entries ids out.1 ∧ ∀ j < entries.length,
        (out.2 j).val = (incoming j).val + out.1.pointsTo (ids j)) NotCorrupt := by
  cases r with
  | confirmed id =>
    simp only [resolveBatchNodeReference, h.requireNode_eq]
    rcases hget : t.nodes.get id with _ | record
    · exact fun hcorrupt => hcorrupt
    · exact ⟨⟨record, hget⟩, fun j _ => by simp [CandidateNodeReference.pointsTo]⟩
  | batchNode index =>
    simp only [resolveBatchNodeReference]
    rcases hentry : entries[index]? with _ | ⟨name, payload⟩ | name | _
    · exact id
    · refine (countReference_ensures hids (lt_length_of_getElem? hentry)).bind
        fun incoming' hincoming => ?_
      refine ensures_pure ⟨⟨index, name, payload, hentry, rfl⟩, fun j hj => ?_⟩
      rw [CandidateNodeReference.pointsTo_candidate]
      exact hincoming j hj
    · exact id
    · exact id

/-- A resolved relation-kind reference leads somewhere and is counted. -/
lemma resolveBatchRelation_ensures (h : Represents db t) (hids : IdsInjective entries ids)
    (owner : ℕ) (plan : InsertPlan) (r : BatchRelationReference)
    (hknown : ∀ r delta, plan.provisionalByRelation.get r = some delta →
      ∃ record, t.relations.get r = some record) :
    Ensures (resolveBatchRelation db entries ids owner plan r)
      (fun out => (DraftRelation t entries ids out.1 ∧
          ∀ relation, r = .confirmed relation ↔ out.1 = .confirmed relation) ∧
        (∀ j < entries.length,
          (out.2.incoming j).val = (plan.incoming j).val + out.1.pointsTo (ids j)) ∧
        (∀ rel, ((out.2.provisionalByRelation.get rel).getD 0).val =
          ((plan.provisionalByRelation.get rel).getD 0).val +
            if out.1 = .confirmed rel then 1 else 0) ∧
        (∀ r delta, out.2.provisionalByRelation.get r = some delta →
          ∃ record, t.relations.get r = some record) ∧
        out.2.candidates = plan.candidates) NotCorrupt := by
  cases r with
  | confirmed id =>
    simp only [resolveBatchRelation, h.requireRelationKind_eq]
    rcases hget : t.relations.get id with _ | record
    · exact fun hcorrupt => hcorrupt
    refine Ensures.bind (Q := fun _ => True) trivial fun _ _ => ?_
    refine (ensures_okOr (fun delta hdelta => U64.checkedAdd_eq_some.1 hdelta)
      fun _ hcorrupt => hcorrupt).bind fun delta hdelta => ?_
    refine ensures_pure ⟨⟨⟨record, hget⟩, fun relation => by simp⟩,
      fun j _ => by simp [CandidateRelationReference.pointsTo],
      fun rel => ?_, fun rel delta' hrel => ?_, rfl⟩
    · by_cases hrel : rel = id
      · subst hrel
        simp [← hdelta]
      · simp [SortedMap.get_insert_of_ne _ _ hrel, Ne.symm hrel]
    · by_cases heq : rel = id
      · exact ⟨record, heq ▸ hget⟩
      · rw [SortedMap.get_insert_of_ne _ _ heq] at hrel
        exact hknown rel delta' hrel
  | batchRelationKind index =>
    simp only [resolveBatchRelation]
    rcases hentry : entries[index]? with _ | _ | name | _
    · exact id
    · exact id
    · refine (countReference_ensures hids (lt_length_of_getElem? hentry)).bind
        fun incoming' hincoming => ?_
      refine ensures_pure ⟨⟨⟨index, name, hentry, rfl⟩, fun relation => by simp⟩, fun j hj => ?_,
        fun rel => by simp, hknown, rfl⟩
      rw [CandidateRelationReference.pointsTo_candidate]
      exact hincoming j hj
    · exact id

/-- Appending a draft keeps what the loop knows. -/
lemma PlanInv.append {n : ℕ} {plan plan' : InsertPlan} (hplan : PlanInv t entries ids n plan)
    {c : Candidate} (hcandidates : plan'.candidates = plan.candidates ++ [c]) (hid : c.id = ids n)
    (hdrafts : Drafts t entries ids n c)
    (hincoming : ∀ j < entries.length,
      (plan'.incoming j).val = (plan.incoming j).val + c.refersTo (ids j))
    (hprovisional : ∀ r, ((plan'.provisionalByRelation.get r).getD 0).val =
      ((plan.provisionalByRelation.get r).getD 0).val + c.uses r)
    (hknown : ∀ r delta, plan'.provisionalByRelation.get r = some delta →
      ∃ record, t.relations.get r = some record) : PlanInv t entries ids (n + 1) plan' := by
  have hlength : plan.candidates.length = n := by
    have := congrArg List.length hplan.candidateIds
    simpa using this
  refine ⟨?_, fun i c' hc' => ?_, fun j hj => ?_, fun r => ?_, hknown⟩
  · rw [hcandidates, List.map_append, hplan.candidateIds, List.range_succ, List.map_append]
    simp [hid]
  · rw [hcandidates, List.getElem?_append] at hc'
    split_ifs at hc' with hi
    · exact hplan.drafts i c' hc'
    · have hzero : i - plan.candidates.length = 0 := by
        have := lt_length_of_getElem? hc'
        simpa using this
      rw [hzero] at hc'
      cases hc'
      rwa [show i = n by omega]
  · rw [hcandidates, List.map_append, List.sum_append, ← hplan.incoming j hj, hincoming j hj]
    simp
  · rw [hcandidates, List.map_append, List.sum_append, ← hplan.provisional r, hprovisional r]
    simp

/-- One entry. -/
lemma planEntry_ensures (h : Represents db t) (hids : IdsInjective entries ids) {n : ℕ}
    {plan : InsertPlan} (hplan : PlanInv t entries ids n plan) {entry : CandidateBatchEntry}
    (hentry : entries[n]? = some entry) :
    Ensures (planEntry db entries ids plan (entry, n)) (PlanInv t entries ids (n + 1))
      NotCorrupt := by
  rcases entry with ⟨name, payload⟩ | name | ⟨source, destination, relationKind, baseWeight⟩
  · exact hplan.append rfl rfl ⟨rfl, hentry⟩ (fun _ _ => rfl) (fun _ => rfl) hplan.known
  · exact hplan.append rfl rfl ⟨rfl, hentry⟩ (fun _ _ => rfl) (fun _ => rfl) hplan.known
  · refine (resolveBatchNode_ensures h hids n .source plan.incoming source).bind fun out₁ h₁ => ?_
    obtain ⟨source', incoming₁⟩ := out₁
    refine (resolveBatchNode_ensures h hids n .destination incoming₁ destination).bind
      fun out₂ h₂ => ?_
    obtain ⟨destination', incoming₂⟩ := out₂
    refine Ensures.bind (resolveBatchRelation_ensures h hids n _ relationKind ?_) fun out₃ h₃ => ?_
    · exact hplan.known
    obtain ⟨relationKind', plan₃⟩ := out₃
    obtain ⟨hrelation, hincoming₃, hprovisional₃, hknown₃, hcandidates₃⟩ := h₃
    have hincoming : ∀ j < entries.length, (plan₃.incoming j).val = (plan.incoming j).val +
        (source'.pointsTo (ids j) + destination'.pointsTo (ids j) +
          relationKind'.pointsTo (ids j)) := by
      intro j hj
      have hsource : (incoming₁ j).val = (plan.incoming j).val + source'.pointsTo (ids j) :=
        h₁.2 j hj
      have hdestination : (incoming₂ j).val = (incoming₁ j).val + destination'.pointsTo (ids j) :=
        h₂.2 j hj
      have hkind : (plan₃.incoming j).val = (incoming₂ j).val + relationKind'.pointsTo (ids j) :=
        hincoming₃ j hj
      omega
    exact ensures_pure (hplan.append (congrArg (· ++ [_]) hcandidates₃) rfl
      ⟨rfl, ⟨_, _, _, hentry, hrelation.2⟩, h₁.1, h₂.1, hrelation.1⟩ hincoming hprovisional₃ hknown₃)

/-- The whole loop. -/
lemma planEntries_ensures (h : Represents db t) (hids : IdsInjective entries ids) :
    Ensures (entries.zipIdx.foldlM (planEntry db entries ids) .new)
      (PlanInv t entries ids entries.length) NotCorrupt := by
  have hlength : entries.zipIdx.length = entries.length := by simp
  rw [← hlength]
  refine ensures_foldlM (I := fun pre plan => PlanInv t entries ids pre.length plan) _
    (fun pre indexed post plan hsplit hplan => ?_) ?_
  · have hget : entries.zipIdx[pre.length]? = some indexed := by simp [hsplit]
    rw [List.getElem?_zipIdx, Option.map_eq_some_iff] at hget
    obtain ⟨entry, hentry, rfl⟩ := hget
    rw [List.length_append, List.length_singleton, Nat.zero_add]
    exact planEntry_ensures h hids hplan hentry
  · exact ⟨rfl, fun i c hc => by simp [InsertPlan.new] at hc, fun _ _ => rfl, fun _ => rfl,
      fun r delta hr => by simp [InsertPlan.new] at hr⟩

end Loop

/-! ## What is written -/

/-- The candidate with another number of references to it. -/
def Candidate.withIncoming (count : U64) : Candidate → Candidate
  | .node id name payload _ => .node id name payload count
  | .relation id name _ => .relation id name count
  | .edge id source destination relationKind baseWeight =>
    .edge id source destination relationKind baseWeight

@[simp] lemma Candidate.withIncoming_id (count : U64) (c : Candidate) :
    (c.withIncoming count).id = c.id := by
  cases c <;> rfl

@[simp] lemma Candidate.withIncoming_refersTo (count : U64) (c : Candidate) (id : CandidateId) :
    (c.withIncoming count).refersTo id = c.refersTo id := by
  cases c <;> rfl

@[simp] lemma Candidate.withIncoming_uses (count : U64) (c : Candidate) (id : RelationId) :
    (c.withIncoming count).uses id = c.uses id := by
  cases c <;> rfl

lemma setIncoming_ensures (incoming : ℕ → U64) (indexed : Candidate × ℕ) :
    Ensures (setIncoming incoming indexed)
      (fun c => c = indexed.1.withIncoming (incoming indexed.2)) NotCorrupt := by
  obtain ⟨c, index⟩ := indexed
  rcases c with _ | _ | _
  · exact ensures_pure rfl
  · exact ensures_pure rfl
  · simp only [setIncoming]
    split_ifs
    · exact ensures_pure rfl
    · exact id

/-- The name of the candidate can be written. -/
def Candidate.NameFits : Candidate → Prop
  | .node _ name _ _ => PathHydra.NameFits name.asStr
  | .relation _ name _ => PathHydra.NameFits name.asStr
  | .edge .. => True

/-- A candidate with a name that fits is written, or its payload is too long. -/
lemma putCandidate_ensures {c : Candidate} (hname : c.NameFits) :
    Ensures (putCandidate c) (fun op => c.Fits ∧
      op = .put .candidates (encodeIdKey c.id.asU64) (candidateBytes c)) NotCorrupt := by
  by_cases hfits : c.Fits
  · simp only [putCandidate, encodeCandidate_eq hfits, mapErr, ok_bind]
    exact ensures_pure ⟨hfits, rfl⟩
  · rcases c with ⟨id, name, payload, count⟩ | _ | _
    · have hlong : MAX_NODE_PAYLOAD_BYTES < payload.asBytes.length :=
        not_le.1 fun hle => hfits ⟨hname, hle⟩
      have hfit : pushString name.asStr = .ok (nameBytes name.asStr) := pushString_eq hname
      simp only [putCandidate, encodeCandidate, hfit, pushBytes, if_pos hlong, ok_bind, error_bind,
        mapErr]
      exact fun hcorrupt => hcorrupt
    · exact absurd hname hfits
    · exact absurd trivial hfits

/-- The change that adds provisional references to a relation kind. -/
def AddsProvisional (t : Tables) (usage : RelationId × U64) (ch : RelationChange) : Prop :=
  ∃ old r, ch = .update old r ∧ t.relations.get usage.1 = some old ∧ r.id = usage.1 ∧
    r.name = old.name ∧
    r.provisionalReferenceCount.val = old.provisionalReferenceCount.val + usage.2.val ∧
    r.confirmedEdgeCount = old.confirmedEdgeCount ∧ r.Fits

lemma addProvisional_ensures {db : Database} (h : Represents db t) (hw : t.Writable)
    {usage : RelationId × U64} (hknown : ∃ old, t.relations.get usage.1 = some old) :
    Ensures (addProvisional db usage)
      (fun batch => ∃ ch, AddsProvisional t usage ch ∧ batch = ch.batch) NotCorrupt := by
  obtain ⟨id, delta⟩ := usage
  obtain ⟨old, hold⟩ := hknown
  have hold' := hw.relation old (h.relations.has hold)
  simp only [addProvisional, h.getRelation_eq, show t.relations.get id = some old from hold,
    okOr_some, ok_bind]
  refine (ensures_okOr (fun p hp => U64.checkedAdd_eq_some.1 hp) fun _ hcorrupt => hcorrupt).bind
    fun p hp => ?_
  refine (ensures_okOr (fun total htotal => U64.checkedAdd_eq_some.1 htotal)
    fun _ hcorrupt => hcorrupt).bind fun total htotal => ?_
  let r : RelationRecord := { old with id := id, provisionalReferenceCount := p }
  have hfits : r.Fits := by
    refine ⟨hold'.name, ?_⟩
    show p.val + old.confirmedEdgeCount.val < 2 ^ 64
    rw [htotal]
    exact total.isLt
  have hput : putRelation r = .ok [.put .relationKinds (encodeIdKey r.id.asU64) (relationBytes r),
      .put .relationPopularity (popularityBytes r) (encodeU64Record r.id.asU64)] := by
    simp only [putRelation, encodeRelation_eq hfits, encodePopularityKey_eq hfits.usage, mapErr,
      ok_bind]
    rfl
  have hdelete : deletePopularity old =
      .ok (.delete .relationPopularity (popularityBytes old)) := by
    simp only [deletePopularity, encodePopularityKey_eq hold'.usage, mapErr, ok_bind]
    rfl
  rw [hdelete, ok_bind]
  show Ensures (putRelation r >>= _) _ NotCorrupt
  rw [hput, ok_bind]
  exact ensures_pure ⟨_, ⟨old, r, rfl, hold, rfl, rfl, hp.symm, rfl, hfits⟩, rfl⟩

/-! ## The tables after the insertion -/

/-- The tables after an insertion. -/
def Tables.inserted (t : Tables) (cs : List Candidate) (changes : List RelationChange)
    (following : U64) : Tables :=
  { t.changeRelations changes with
    candidates := SortedMap.putAll Candidate.id t.candidates cs
    metadata := { t.metadata with nextCandidate := following } }

/-- What planning an insertion has established. -/
structure Insertion (t : Tables) (entries : List CandidateBatchEntry) (ids : ℕ → CandidateId)
    (plan : InsertPlan) (cs : List Candidate) (changes : List RelationChange) : Prop where
  planned : PlanInv t entries ids entries.length plan
  injective : IdsInjective entries ids
  fresh : ∀ j < entries.length, t.candidates.get (ids j) = none
  candidates : cs = plan.candidates.zipIdx.map fun p => p.1.withIncoming (plan.incoming p.2)
  changes : List.Forall₂ (AddsProvisional t) plan.provisionalByRelation.entries changes

namespace Insertion

variable {entries : List CandidateBatchEntry} {ids : ℕ → CandidateId} {plan : InsertPlan}
  {cs : List Candidate} {changes : List RelationChange} {following : U64}

lemma length_candidates (h : Insertion t entries ids plan cs changes) :
    plan.candidates.length = entries.length := by
  have hlength := congrArg List.length h.planned.candidateIds
  simpa using hlength

/-- A written candidate is a draft with its count. -/
lemma of_mem (h : Insertion t entries ids plan cs changes) {c : Candidate} (hc : c ∈ cs) :
    ∃ i draft, i < entries.length ∧ plan.candidates[i]? = some draft ∧
      c = draft.withIncoming (plan.incoming i) ∧ c.id = ids i := by
  rw [h.candidates] at hc
  obtain ⟨⟨draft, i⟩, hmem, rfl⟩ := List.mem_map.1 hc
  have hget : plan.candidates[i]? = some draft := List.mem_zipIdx_iff_getElem?.1 hmem
  have hlt : i < entries.length := h.length_candidates ▸ lt_length_of_getElem? hget
  refine ⟨i, draft, hlt, hget, rfl, ?_⟩
  rw [Candidate.withIncoming_id]
  exact (h.planned.drafts i draft hget).id_eq

/-- Every entry of the batch is written. -/
lemma exists_mem (h : Insertion t entries ids plan cs changes) {i : ℕ}
    (hi : i < entries.length) : ∃ draft, Drafts t entries ids i draft ∧
      draft.withIncoming (plan.incoming i) ∈ cs := by
  have hi' : i < plan.candidates.length := h.length_candidates.symm ▸ hi
  have hget : plan.candidates[i]? = some plan.candidates[i] := List.getElem?_eq_getElem hi'
  refine ⟨_, h.planned.drafts i _ hget, ?_⟩
  rw [h.candidates]
  exact List.mem_map.2 ⟨(_, i), List.mem_zipIdx_iff_getElem?.2 hget, rfl⟩

lemma exists_node (h : Insertion t entries ids plan cs changes) {i : ℕ} {name : NodeName}
    {payload : NodePayload} (hentry : entries[i]? = some (.node name payload)) :
    ∃ c ∈ cs, c.id = ids i ∧ c.IsNode := by
  obtain ⟨draft, hdraft, hmem⟩ := h.exists_mem (lt_length_of_getElem? hentry)
  refine ⟨_, hmem, (Candidate.withIncoming_id _ _).trans hdraft.id_eq, ?_⟩
  rcases draft with _ | _ | _
  · trivial
  · exact absurd (hdraft.2.symm.trans hentry) (by simp)
  · obtain ⟨-, ⟨_, _, _, hedge, -⟩, -⟩ := hdraft
    exact absurd (hedge.symm.trans hentry) (by simp)

lemma exists_relation (h : Insertion t entries ids plan cs changes) {i : ℕ} {name : RelationName}
    (hentry : entries[i]? = some (.relationKind name)) :
    ∃ c ∈ cs, c.id = ids i ∧ c.IsRelation := by
  obtain ⟨draft, hdraft, hmem⟩ := h.exists_mem (lt_length_of_getElem? hentry)
  refine ⟨_, hmem, (Candidate.withIncoming_id _ _).trans hdraft.id_eq, ?_⟩
  rcases draft with _ | _ | _
  · exact absurd (hdraft.2.symm.trans hentry) (by simp)
  · trivial
  · obtain ⟨-, ⟨_, _, _, hedge, -⟩, -⟩ := hdraft
    exact absurd (hedge.symm.trans hentry) (by simp)

lemma map_eq {β : Type*} (h : Insertion t entries ids plan cs changes) (f : Candidate → β)
    (hf : ∀ count c, f (c.withIncoming count) = f c) : cs.map f = plan.candidates.map f := by
  rw [h.candidates, List.map_map]
  calc plan.candidates.zipIdx.map (f ∘ fun p => p.1.withIncoming (plan.incoming p.2))
      = plan.candidates.zipIdx.map (f ∘ Prod.fst) :=
        List.map_congr_left fun p _ => hf _ p.1
    _ = plan.candidates.map f := by rw [← List.map_map, List.zipIdx_map_fst]

lemma nodup (h : Insertion t entries ids plan cs changes) : (cs.map Candidate.id).Nodup := by
  rw [h.map_eq Candidate.id fun count c => c.withIncoming_id count, h.planned.candidateIds]
  refine List.Nodup.map_on (fun i hi j hj heq => ?_) List.nodup_range
  exact h.injective i j (List.mem_range.1 hi) (List.mem_range.1 hj) heq

lemma fresh_mem (h : Insertion t entries ids plan cs changes) {c : Candidate} (hc : c ∈ cs) :
    t.candidates.get c.id = none := by
  obtain ⟨i, -, hi, -, -, hid⟩ := h.of_mem hc
  rw [hid]
  exact h.fresh i hi

lemma validChanges {db : Database} (h : Insertion t entries ids plan cs changes)
    (hdb : Represents db t) : ValidChanges t changes := by
  have hids : changes.map RelationChange.id = plan.provisionalByRelation.entries.map Prod.fst := by
    refine (forall₂_eq_map (g := Prod.fst) (List.forall₂_map_right_iff.2 ?_))
    refine h.changes.imp ?_
    rintro usage ch ⟨old, r, rfl, -, hid, -⟩
    exact hid
  refine ⟨?_, fun ch hch => ?_, fun r r' hr => ?_⟩
  · rw [hids]
    exact List.pairwise_map.2 (plan.provisionalByRelation.sorted.imp fun hlt => hlt.ne)
  · obtain ⟨usage, -, old, r, rfl, hold, hid, hname, -, -, hfits⟩ :=
      forall₂_exists_of_mem h.changes.flip hch
    refine ⟨hdb.relations.has hold, hfits, ?_, hname⟩
    rw [hid, hdb.relations.id_eq _ _ hold]
  · obtain ⟨usage, -, old, r', heq, -⟩ := forall₂_exists_of_mem h.changes.flip hr
    cases heq

/-- A relation kind after the insertion has the references of its drafts added. -/
lemma relation_cases {db : Database} (h : Insertion t entries ids plan cs changes)
    (hdb : Represents db t) {r : RelationRecord} (hr : (t.changeRelations changes).HasRelation r) :
    ∃ old, t.HasRelation old ∧ r.id = old.id ∧ r.name = old.name ∧
      r.provisionalReferenceCount.val =
        old.provisionalReferenceCount.val + (plan.candidates.map (Candidate.uses r.id)).sum ∧
      r.confirmedEdgeCount = old.confirmedEdgeCount := by
  rcases (h.validChanges hdb).has_cases hr with ⟨hold, hnone⟩ | hcreate | ⟨old, hupdate⟩
  · refine ⟨r, hold, rfl, rfl, ?_, rfl⟩
    have hget : plan.provisionalByRelation.get r.id = none := by
      rcases hget : plan.provisionalByRelation.get r.id with _ | delta
      · rfl
      · obtain ⟨ch, hch, old, r', rfl, -, hid, -⟩ :=
          forall₂_exists_of_mem h.changes (SortedMap.get_eq_some.1 hget)
        exact absurd (List.mem_map.2 ⟨_, hch, hid⟩) hnone
    have hzero := h.planned.provisional r.id
    rw [hget] at hzero
    rw [← hzero]
    simp
  · obtain ⟨usage, -, old, r', heq, -⟩ := forall₂_exists_of_mem h.changes.flip hcreate
    cases heq
  · obtain ⟨usage, hmem, old', r', heq, hold, hid, hname, hcount, hconfirmed, -⟩ :=
      forall₂_exists_of_mem h.changes.flip hupdate
    cases heq
    have hget := SortedMap.get_of_mem hmem
    have hsum := h.planned.provisional r.id
    rw [hid, hget] at hsum
    refine ⟨old, hdb.relations.has hold, ?_, hname, ?_, hconfirmed⟩
    · rw [hid, hdb.relations.id_eq _ _ hold]
    · rw [hcount, hid, ← hsum]
      rfl

lemma get_relation (h : Insertion t entries ids plan cs changes) {db : Database}
    (hdb : Represents db t) (id : RelationId) :
    ((t.changeRelations changes).relations.get id).map RelationRecord.name =
      (t.relations.get id).map RelationRecord.name := by
  by_cases hid : id ∈ changes.map RelationChange.id
  · obtain ⟨ch, hch, rfl⟩ := List.mem_map.1 hid
    rw [(h.validChanges hdb).get_of_mem hch]
    obtain ⟨usage, -, old, r, rfl, hold, hrid, hname, -⟩ := forall₂_exists_of_mem h.changes.flip hch
    have hget : t.relations.get r.id = some old := by rw [hrid, hold]
    rw [show (RelationChange.update old r).id = r.id from rfl, hget]
    exact congrArg some hname
  · rw [ValidChanges.get_of_notMem hid]

lemma relation_kept (h : Insertion t entries ids plan cs changes) {db : Database}
    (hdb : Represents db t) {id : RelationId} {r : RelationRecord}
    (hr : t.relations.get id = some r) :
    ∃ r', (t.changeRelations changes).relations.get id = some r' := by
  have hname := h.get_relation hdb id
  rw [hr, Option.map_some, Option.map_eq_some_iff] at hname
  obtain ⟨r', hr', -⟩ := hname
  exact ⟨r', hr'⟩

lemma get_candidate (h : Insertion t entries ids plan cs changes) {id : CandidateId}
    {c : Candidate} :
    (t.inserted cs changes following).candidates.get id = some c ↔
      t.candidates.get id = some c ∨ c ∈ cs ∧ c.id = id :=
  SortedMap.get_putAll h.nodup fun _ hc => h.fresh_mem hc

lemma sum_candidates (h : Insertion t entries ids plan cs changes) (f : Candidate → ℕ)
    (hf : ∀ count c, f (c.withIncoming count) = f c) :
    (t.inserted cs changes following).candidates.sum f =
      t.candidates.sum f + (plan.candidates.map f).sum := by
  rw [← h.map_eq f hf]
  exact SortedMap.sum_putAll h.nodup (fun _ hc => h.fresh_mem hc) f

/-- The references of a draft lead somewhere. -/
lemma resolves_draft (h : Insertion t entries ids plan cs changes) {db : Database}
    (hdb : Represents db t) {i : ℕ} {draft : Candidate} (hget : plan.candidates[i]? = some draft) :
    (t.inserted cs changes following).Resolves draft := by
  have hdraft := h.planned.drafts i draft hget
  rcases draft with _ | _ | ⟨id, source, destination, relationKind, baseWeight⟩
  · trivial
  · trivial
  obtain ⟨-, -, hsource, hdestination, hrelation⟩ := hdraft
  have hnode : ∀ r, DraftNode t entries ids r → (t.inserted cs changes following).ResolvesNode r := by
    intro r hr
    cases r with
    | confirmed id => exact hr
    | candidate id =>
      obtain ⟨index, name, payload, hentry, rfl⟩ := hr
      obtain ⟨c, hc, hid, hkind⟩ := h.exists_node hentry
      exact ⟨c, h.get_candidate.2 (.inr ⟨hc, hid⟩), hkind⟩
  refine ⟨hnode source hsource, hnode destination hdestination, ?_⟩
  cases relationKind with
  | confirmed id =>
    obtain ⟨record, hrecord⟩ := hrelation
    exact h.relation_kept hdb hrecord
  | candidate id =>
    obtain ⟨index, name, hentry, rfl⟩ := hrelation
    obtain ⟨c, hc, hid, hkind⟩ := h.exists_relation hentry
    exact ⟨c, h.get_candidate.2 (.inr ⟨hc, hid⟩), hkind⟩

/-- The new candidates refer to no other candidates than those of the batch. -/
lemma refersTo_old (h : Insertion t entries ids plan cs changes) {id : CandidateId} {c : Candidate}
    (hc : t.candidates.get id = some c) :
    (plan.candidates.map (Candidate.refersTo id)).sum = 0 := by
  refine List.sum_eq_zero fun n hn => ?_
  obtain ⟨draft, hmem, rfl⟩ := List.mem_map.1 hn
  obtain ⟨i, hi⟩ := List.getElem?_of_mem hmem
  have hdraft := h.planned.drafts i draft hi
  have hne : ∀ j < entries.length, ids j ≠ id := by
    rintro j hj rfl
    rw [h.fresh j hj] at hc
    cases hc
  rcases draft with _ | _ | ⟨_, source, destination, relationKind, baseWeight⟩
  · rfl
  · rfl
  obtain ⟨-, -, hsource, hdestination, hrelation⟩ := hdraft
  have hnode : ∀ r, DraftNode t entries ids r → r.pointsTo id = 0 := by
    intro r hr
    cases r with
    | confirmed _ => rfl
    | candidate _ =>
      obtain ⟨index, name, payload, hentry, rfl⟩ := hr
      rw [CandidateNodeReference.pointsTo_candidate]
      exact if_neg (hne index (lt_length_of_getElem? hentry)).symm
  have hkind : relationKind.pointsTo id = 0 := by
    cases relationKind with
    | confirmed _ => rfl
    | candidate _ =>
      obtain ⟨index, name, hentry, rfl⟩ := hrelation
      rw [CandidateRelationReference.pointsTo_candidate]
      exact if_neg (hne index (lt_length_of_getElem? hentry)).symm
  simp only [Candidate.refersTo, hnode source hsource, hnode destination hdestination, hkind,
    Nat.add_zero]

/-- The old candidates refer to none of the batch. -/
lemma refersTo_new (h : Insertion t entries ids plan cs changes) (hc : t.Consistent) {j : ℕ}
    (hj : j < entries.length) : t.candidates.sum (Candidate.refersTo (ids j)) = 0 := by
  refine SortedMap.sum_eq_zero fun id c hget => ?_
  by_contra hpos
  obtain ⟨c', hc', -⟩ := (hc.candidate id c hget).refersTo (Nat.pos_of_ne_zero hpos)
  rw [h.fresh j hj] at hc'
  cases hc'

lemma consistent (h : Insertion t entries ids plan cs changes) {db : Database}
    (hdb : Represents db t) (hc : t.Consistent) :
    (t.inserted cs changes following).Consistent := by
  refine ⟨fun e he => ?_, fun id c hget => ?_, fun id c count hget hcount => ?_, fun r hr => ?_,
    fun r hr => ?_⟩
  · obtain ⟨hsource, hdestination, record, hrecord⟩ := hc.edge e he
    exact ⟨hsource, hdestination, h.relation_kept hdb hrecord⟩
  · rcases h.get_candidate.1 hget with hold | ⟨hnew, -⟩
    · exact (hc.candidate id c hold).mono (fun id r hr _ => ⟨r, hr⟩)
        (fun id r hr _ => h.relation_kept hdb hr) fun id c' hc' _ => h.get_candidate.2 (.inl hc')
    · obtain ⟨i, draft, -, hdraft, rfl, -⟩ := h.of_mem hnew
      have hresolves : (t.inserted cs changes following).Resolves draft :=
        h.resolves_draft hdb hdraft
      rcases draft with _ | _ | _
      · trivial
      · trivial
      · exact hresolves
  · rw [h.sum_candidates _ fun count c => c.withIncoming_refersTo count id]
    rcases h.get_candidate.1 hget with hold | ⟨hnew, rfl⟩
    · rw [h.refersTo_old hold, hc.incoming id c count hold hcount, Nat.add_zero]
    · obtain ⟨i, draft, hi, hdraft, rfl, hid⟩ := h.of_mem hnew
      rw [hid, h.refersTo_new hc hi, Nat.zero_add, ← h.planned.incoming i hi]
      rcases draft with _ | _ | _
      · cases hcount
        rfl
      · cases hcount
        rfl
      · cases hcount
  · obtain ⟨old, hold, hid, -, hprovisional, -⟩ := h.relation_cases hdb hr
    rw [h.sum_candidates _ fun count c => c.withIncoming_uses count r.id, hprovisional,
      hc.provisional old hold, hid]
  · obtain ⟨old, hold, hid, -, -, hconfirmed⟩ := h.relation_cases hdb hr
    rw [hconfirmed, hc.confirmed old hold, hid]
    rfl

lemma writable (h : Insertion t entries ids plan cs changes) {db : Database}
    (hdb : Represents db t) (hw : t.Writable) (hfits : ∀ c ∈ cs, c.Fits) :
    (t.inserted cs changes following).Writable := by
  have hchanges := h.validChanges hdb
  refine ⟨fun id c hget => ?_, hw.node, hchanges.fits hw.relation, hw.node_name_inj,
    hchanges.name_inj hw.relation_name_inj⟩
  rcases h.get_candidate.1 hget with hold | ⟨hnew, -⟩
  · exact hw.candidate id c hold
  · exact hfits c hnew

lemma relationNames (h : Insertion t entries ids plan cs changes) {db : Database}
    (hdb : Represents db t) {names : String → Option RelationId}
    (hnames : NamesOf names t.HasRelation (fun r => r.name.asStr) RelationRecord.id) :
    NamesOf names (t.inserted cs changes following).HasRelation (fun r => r.name.asStr)
      RelationRecord.id := by
  refine hnames.congr fun s id => ⟨?_, ?_⟩
  · rintro ⟨r, hr, rfl, rfl⟩
    obtain ⟨old, hold, hid, hname, -⟩ := h.relation_cases hdb hr
    exact ⟨old, hold, by rw [hname], hid.symm⟩
  · rintro ⟨old, hold, rfl, rfl⟩
    have hget := h.get_relation hdb old.id
    rw [show t.relations.get old.id = some old from hold, Option.map_some,
      Option.map_eq_some_iff] at hget
    obtain ⟨r, hr, hname⟩ := hget
    have hid : r.id = old.id := by
      by_cases hmem : old.id ∈ changes.map RelationChange.id
      · obtain ⟨ch, hch, heq⟩ := List.mem_map.1 hmem
        rw [← heq, (h.validChanges hdb).get_of_mem hch] at hr
        obtain ⟨usage, -, old', r', rfl, -⟩ := forall₂_exists_of_mem h.changes.flip hch
        cases hr
        exact heq
      · rw [ValidChanges.get_of_notMem hmem, show t.relations.get old.id = some old from hold] at hr
        cases hr
        rfl
    refine ⟨r, ?_, by rw [hname], hid⟩
    rw [← hid] at hr
    exact hr

end Insertion

/-! ## The operation -/

/-- The invariant after an insertion. -/
lemma CatalogInv.insert {c : Catalog} (inv : CatalogInv c t) {entries : List CandidateBatchEntry}
    {ids : ℕ → CandidateId} {plan : InsertPlan} {cs : List Candidate}
    {changes : List RelationChange} (h : Insertion t entries ids plan cs changes) {following : U64}
    (hids : ∀ j < entries.length, (ids j).asU64.val < following.val)
    (hle : t.metadata.nextCandidate.val ≤ following.val) (hfits : ∀ c ∈ cs, c.Fits) :
    CatalogInv { c with db := c.db.write (
        (cs.map fun c => WriteOp.put .candidates (encodeIdKey c.id.asU64) (candidateBytes c)) ++
        changes.flatMap RelationChange.batch ++
        [.put .default META_NEXT_CANDIDATE_ID (encodeU64Record following)]) }
      (t.inserted cs changes following) := by
  have hdb := inv.represents
  refine ⟨?_, h.writable hdb inv.writable hfits, h.consistent hdb inv.consistent, ?_,
    inv.nodeNames, h.relationNames hdb inv.relationNames⟩
  · rw [write_append, write_append]
    have hcandidates := hdb.putCandidates hfits
    have hafter : (t.inserted cs changes following).Writable := h.writable hdb inv.writable hfits
    have hwritable : { t with
        candidates := SortedMap.putAll Candidate.id t.candidates cs }.Writable :=
      { inv.writable with candidate := hafter.candidate }
    have hchanges := hcandidates.changeRelations hwritable ((h.validChanges hdb).congr rfl)
    exact hchanges.putMetadata .nextCandidate _ fun key => by cases key <;> rfl
  · obtain ⟨hpos, hrest⟩ := inv.counted.positive
    refine { inv.counted with
      candidate := fun id c hget => ?_
      relation := fun id r hget => ?_
      positive := ⟨hpos.trans hle, hrest⟩ }
    · rcases h.get_candidate.1 hget with hold | ⟨hnew, rfl⟩
      · exact lt_of_lt_of_le (inv.counted.candidate id c hold) hle
      · obtain ⟨i, -, hi, -, -, hid⟩ := h.of_mem hnew
        rw [hid]
        exact hids i hi
    · have hname := h.get_relation hdb id
      rw [show (t.changeRelations changes).relations.get id = some r from hget, Option.map_some,
        eq_comm, Option.map_eq_some_iff] at hname
      obtain ⟨old, hold, -⟩ := hname
      exact inv.counted.relation id old hold

/-- The identifiers the next insertion takes. -/
def Tables.newIds (t : Tables) (offset : ℕ) : CandidateId :=
  .ofNat (t.metadata.nextCandidate.val + offset)

lemma Tables.newIds_val {offset length : ℕ} {following : U64}
    (h : t.metadata.nextCandidate.val + length = following.val) (hlt : offset < length) :
    (t.newIds offset).asU64.val = t.metadata.nextCandidate.val + offset := by
  have := following.isLt
  exact Nat.mod_eq_of_lt (by omega)

/-- What a successful insertion has done. -/
structure Inserts (c : Catalog) (t : Tables) (entries : List CandidateBatchEntry)
    (result : CandidateBatchInsertResult) (c' : Catalog) (plan : InsertPlan) (cs : List Candidate)
    (changes : List RelationChange) (following : U64) : Prop where
  insertion : Insertion t entries t.newIds plan cs changes
  following_eq : t.metadata.nextCandidate.val + entries.length = following.val
  result_eq : result.candidateIds = (List.range entries.length).map t.newIds
  inv : CatalogInv c' (t.inserted cs changes following)

namespace Inserts

variable {c c' : Catalog} {entries : List CandidateBatchEntry} {result : CandidateBatchInsertResult}
  {plan : InsertPlan} {cs : List Candidate} {changes : List RelationChange} {following : U64}

lemma sameGraph (h : Inserts c t entries result c' plan cs changes following)
    (inv : CatalogInv c t) : t.SameGraph (t.inserted cs changes following) :=
  ⟨rfl, rfl, h.insertion.get_relation inv.represents⟩

lemma evolves (h : Inserts c t entries result c' plan cs changes following)
    (inv : CatalogInv c t) : t.Evolves (t.inserted cs changes following) := by
  refine { Tables.Evolves.refl t with
    nextCandidate := ?_
    candidate := fun id c hget => ?_
    relation := fun id r hget => ?_ }
  · show t.metadata.nextCandidate.val ≤ following.val
    rw [← h.following_eq]
    exact Nat.le_add_right _ _
  · rcases h.insertion.get_candidate.1 hget with hold | ⟨hnew, rfl⟩
    · exact .inl hold
    · obtain ⟨i, -, hi, -, -, hid⟩ := h.insertion.of_mem hnew
      right
      rw [hid, Tables.newIds_val h.following_eq hi]
      exact Nat.le_add_right _ _
  · have hname := h.insertion.get_relation inv.represents id
    rw [show (t.changeRelations changes).relations.get id = some r from hget, Option.map_some,
      eq_comm, Option.map_eq_some_iff] at hname
    obtain ⟨old, hold, heq⟩ := hname
    exact .inl ⟨old, hold, heq.symm⟩

/-- Every identifier the counter passes is that of a new candidate. -/
lemma fills (h : Inserts c t entries result c' plan cs changes following) :
    t.Fills (t.inserted cs changes following) := by
  intro k id hle hlt
  cases k with
  | candidate =>
    have hbelow : id.asU64.val < following.val := hlt
    have hfrom : t.metadata.nextCandidate.val ≤ id.asU64.val := hle
    have hfollowing := h.following_eq
    have hindex : id.asU64.val - t.metadata.nextCandidate.val < entries.length := by omega
    obtain ⟨draft, hdraft, hmem⟩ := h.insertion.exists_mem hindex
    refine ⟨_, h.insertion.get_candidate.2 (.inr ⟨hmem, ?_⟩)⟩
    rw [Candidate.withIncoming_id, hdraft.id_eq]
    apply DurableId.ext_val
    rw [Tables.newIds_val h.following_eq hindex]
    omega
  | node => exact absurd hlt (not_lt.2 hle)
  | relation => exact absurd hlt (not_lt.2 hle)
  | edge => exact absurd hlt (not_lt.2 hle)

end Inserts

lemma insertCandidateBatch_ensures {c : Catalog} (inv : CatalogInv c t) (disk : WriteAnswer)
    (entries : List CandidateBatchEntry) :
    RunEnsures (insertCandidateBatch disk entries) c
      (fun result c' => ∃ plan cs changes following,
        Inserts c t entries result c' plan cs changes following) NotCorrupt := by
  have hdb := inv.represents
  refine runEnsures_planning (checkBatchBytes_ensures entries) fun _ hcheck => runEnsures_get ?_
  have hread : readMetadata c.db META_NEXT_CANDIDATE_ID "next-candidate-id" =
      .ok t.metadata.nextCandidate := hdb.readMetadata_eq .nextCandidate _ rfl
  refine runEnsures_planning (P := fun n => n = t.metadata.nextCandidate) ?_ fun first hfirst => ?_
  · rw [hread]
    exact rfl
  subst hfirst
  refine runEnsures_planning (ensures_okOr (fun n hn => U64.checkedAdd_eq_some.1 hn) fun _ => id)
    fun following hfollowing => ?_
  have hlength : (Fin.ofNat (2 ^ 64) entries.length).val = entries.length := by
    have hbound := hcheck.1
    unfold MAXIMUM_CANDIDATE_BATCH_ENTRIES at hbound
    exact Nat.mod_eq_of_lt (by omega)
  rw [hlength] at hfollowing
  -- the identifiers of the batch are consecutive and not given out before
  have hids : ∀ j < entries.length,
      (t.newIds j).asU64.val = t.metadata.nextCandidate.val + j := fun j hj =>
    Tables.newIds_val hfollowing hj
  have hinjective : IdsInjective entries t.newIds := by
    intro i j hi hj heq
    have hval := congrArg (fun id : CandidateId => id.asU64.val) heq
    simp only [hids i hi, hids j hj] at hval
    omega
  have hfresh : ∀ j < entries.length, t.candidates.get (t.newIds j) = none := by
    intro j hj
    rcases hget : t.candidates.get (t.newIds j) with _ | c'
    · rfl
    · have hlt := inv.counted.candidate _ _ hget
      rw [hids j hj] at hlt
      omega
  refine runEnsures_planning (planEntries_ensures hdb hinjective) fun plan hplan => ?_
  refine runEnsures_planning
    (ensures_mapM _ fun indexed _ => setIncoming_ensures plan.incoming indexed)
    fun cs hcs => ?_
  have hnames : ∀ c ∈ cs, c.NameFits := by
    intro c' hc'
    rw [forall₂_eq_map hcs] at hc'
    obtain ⟨⟨draft, i⟩, hmem, rfl⟩ := List.mem_map.1 hc'
    have hdraft := hplan.drafts i draft (List.mem_zipIdx_iff_getElem?.1 hmem)
    have hwithin : ∀ entry, entries[i]? = some entry →
        entry.NameWithin MAXIMUM_CANDIDATE_BATCH_NAME_BYTES := fun entry hentry =>
      hcheck.2 entry (List.mem_of_getElem? hentry)
    rcases draft with _ | _ | _
    · exact lt_of_le_of_lt (hwithin _ hdraft.2) (by decide)
    · exact lt_of_le_of_lt (hwithin _ hdraft.2) (by decide)
    · trivial
  refine runEnsures_planning (ensures_mapM _ fun c' hc' => putCandidate_ensures (hnames c' hc'))
    fun puts hputs => ?_
  have hfits : ∀ c ∈ cs, c.Fits := fun c' hc' => by
    obtain ⟨_, -, hfits, -⟩ := forall₂_exists_of_mem hputs hc'
    exact hfits
  -- the candidates are written as they were planned, with the references counted for each
  have hputs' := forall₂_eq_map (hputs.imp fun _ _ hp => hp.2)
  refine runEnsures_planning (ensures_mapM _ fun usage husage =>
    addProvisional_ensures hdb inv.writable (hplan.known _ _ (SortedMap.get_of_mem husage)))
    fun batches hbatches => ?_
  obtain ⟨changes, hchanges, hbatches'⟩ := forall₂_choose hbatches
  have hinsertion : Insertion t entries t.newIds plan cs changes :=
    ⟨hplan, hinjective, hfresh, forall₂_eq_map hcs, hchanges⟩
  have hbelow : ∀ j < entries.length, (t.newIds j).asU64.val < following.val := by
    intro j hj
    rw [hids j hj]
    omega
  have hinv := inv.insert hinsertion hbelow (by omega) hfits
  refine runEnsures_commit (fun _ => id) (fun _ _ => id)
    ⟨_, _, rfl, plan, cs, changes, following, hinsertion, hfollowing, rfl, ?_⟩
  rw [hputs', hbatches', ← List.flatMap_def]
  exact hinv

end PathHydra
