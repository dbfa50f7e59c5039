import Mathlib.Algebra.Order.BigOperators.Group.List
import PathHydra.Properties.Store.Remove

/-!
# Selections closed under dependencies

A confirmation reads the selected candidates, counts the references among them, and asks that each
has as many as the whole catalog stores for it.  So nothing that stays refers to a selected
candidate, and a selected edge refers to selected candidates and confirmed records only.
-/

namespace PathHydra

variable {t : Tables} {db : Database}

/-- The error reports no corrupt record, and it does not come up under the condition. -/
def Blocked (P : Prop) (e : CatalogError) : Prop := NotCorrupt e ∧ ¬ P

lemma Blocked.mono {P P' : Prop} {e : CatalogError} (h : Blocked P e) (hP : P' → P) :
    Blocked P' e :=
  ⟨h.1, fun hP' => h.2 (hP hP')⟩

/-- A counter with room does not overflow. -/
lemma not_of_overflow {P : Prop} {a b : U64} (hnone : a.checkedAdd b = none)
    (hroom : P → a.val + b.val < 2 ^ 64) : ¬ P := by
  intro hP
  have hsome : a.checkedAdd b = some ⟨a.val + b.val, hroom hP⟩ := U64.checkedAdd_eq_some.2 rfl
  cases hnone.symm.trans hsome

/-- Under the condition there is no error. -/
lemma Ensures.exists_of_blocked {α : Type} {x : Except CatalogError α} {Q : α → Prop} {P : Prop}
    (h : Ensures x Q (Blocked P)) (hP : P) : ∃ a, x = .ok a ∧ Q a := by
  rcases hx : x with e | a
  · exact absurd hP (h.of_error hx).2
  · exact ⟨a, rfl, h.of_ok hx⟩

/-- A step that succeeds under the condition. -/
lemma Ensures.blocked {α : Type} {x : Except CatalogError α} {Q : α → Prop} {P P' : Prop}
    (h : Ensures x Q (Blocked P)) (hok : P' → ∃ a, x = .ok a) : Ensures x Q (Blocked P') := by
  rcases hx : x with e | a
  · refine ⟨(h.of_error hx).1, fun hP' => ?_⟩
    obtain ⟨a, ha⟩ := hok hP'
    cases hx.symm.trans ha
  · exact h.of_ok hx

/-! ## Reading the selection -/

/-- The list may be confirmed: it is neither empty nor too long, it names candidates, none of them
twice, and it is closed under references in both directions. -/
structure Tables.Confirmable (t : Tables) (ids : List CandidateId) : Prop where
  nonempty : ids ≠ []
  short : ids.length ≤ MAXIMUM_CANDIDATE_BATCH_ENTRIES
  nodup : ids.Nodup
  has : ∀ id ∈ ids, ∃ c, t.candidates.get id = some c
  downward : ∀ id ∈ ids, ∀ c, t.candidates.get id = some c →
    ∀ dependency, 0 < c.refersTo dependency → dependency ∈ ids
  upward : ∀ id c, t.candidates.get id = some c →
    ∀ dependency ∈ ids, 0 < c.refersTo dependency → id ∈ ids

/-- What reading the first candidates of the list has established. -/
structure SelectionInv (t : Tables) (ids : List CandidateId) (s : Selection) : Prop where
  candidates : List.Forall₂ (fun id c => t.candidates.get id = some c) ids s.candidates
  selected : ∀ id i, s.selected id = some i ↔ ids[i]? = some id

lemma selectCandidate_ensures (h : Represents db t) {pre : List CandidateId}
    (post : List CandidateId) {s : Selection}
    (hs : SelectionInv t pre s) (id : CandidateId) :
    Ensures (selectCandidate db s (id, pre.length)) (SelectionInv t (pre ++ [id]))
      (Blocked (t.Confirmable (pre ++ id :: post))) := by
  unfold selectCandidate
  rcases hselected : s.selected id with _ | j
  · simp only [hselected, Option.isSome_none, Bool.false_eq_true, if_false, h.getCandidate_eq]
    -- a missing candidate and one listed twice cannot be confirmed
    have hthere : t.candidates.get id = none → ¬ t.Confirmable (pre ++ id :: post) := by
      intro hnone hconfirmable
      obtain ⟨c, hc⟩ := hconfirmable.has id (by simp)
      cases hnone.symm.trans hc
    refine (ensures_okOr (fun c hc => hc) fun hnone =>
      ⟨fun hcorrupt => hcorrupt, hthere hnone⟩).bind fun c hc => ?_
    refine ensures_pure ⟨?_, fun id' i => ?_⟩
    · exact List.rel_append hs.candidates (.cons hc .nil)
    · show Function.update s.selected id (some pre.length) id' = some i ↔ _
      by_cases hid : id' = id
      · subst hid
        rw [Function.update_self, List.getElem?_append]
        constructor
        · intro heq
          cases heq
          simp
        · intro hi
          split_ifs at hi with hlt
          · exact absurd ((hs.selected id' i).2 hi) (by simp [hselected])
          · have hzero := lt_length_of_getElem? hi
            simp only [List.length_singleton] at hzero
            rw [show i = pre.length by omega]
      · rw [Function.update_of_ne hid, hs.selected id' i, List.getElem?_append]
        split_ifs with hlt
        · rfl
        · rw [List.getElem?_eq_none (not_lt.1 hlt)]
          constructor
          · exact fun h => by cases h
          · intro hi
            have hmem := List.mem_of_getElem? hi
            rw [List.mem_singleton] at hmem
            exact absurd hmem hid
  · simp only [hselected, Option.isSome_some, if_true]
    refine ensures_throw ⟨fun hcorrupt => hcorrupt, fun hconfirmable => ?_⟩
    have hmem := List.mem_of_getElem? ((hs.selected id j).1 hselected)
    exact (List.nodup_append.1 hconfirmable.nodup).2.2 id hmem id (by simp) rfl

lemma select_ensures (h : Represents db t) (ids : List CandidateId) :
    Ensures (ids.zipIdx.foldlM (selectCandidate db) .new) (SelectionInv t ids)
      (Blocked (t.Confirmable ids)) := by
  refine ensures_foldlM_zipIdx (I := SelectionInv t) ids (fun pre id post s hsplit hs => ?_)
    ⟨.nil, fun id i => by simp [Selection.new]⟩
  have hturn := selectCandidate_ensures h post hs id
  rwa [← hsplit] at hturn

section Selected

variable {ids : List CandidateId} {s : Selection}

lemma SelectionInv.ids_eq (h : Represents db t) (hs : SelectionInv t ids s) :
    s.candidates.map Candidate.id = ids := by
  refine (forall₂_eq_map (g := id) (List.forall₂_map_right_iff.2 ?_)).trans (List.map_id _)
  exact hs.candidates.imp fun _ _ hc => h.candidates.id_eq _ _ hc

lemma SelectionInv.nodup (hs : SelectionInv t ids s) : ids.Nodup := by
  refine List.nodup_iff_injective_get.2 fun i j heq => ?_
  have hi : ids[i.val]? = some (ids.get i) := List.getElem?_eq_getElem i.isLt
  have hj : ids[j.val]? = some (ids.get i) := by
    rw [heq]
    exact List.getElem?_eq_getElem j.isLt
  have hsame := ((hs.selected _ _).2 hi).symm.trans ((hs.selected _ _).2 hj)
  exact Fin.ext (Option.some.inj hsame)

lemma SelectionInv.has (h : Represents db t) (hs : SelectionInv t ids s) {c : Candidate}
    (hc : c ∈ s.candidates) : t.candidates.get c.id = some c := by
  obtain ⟨id, -, hget⟩ := forall₂_exists_of_mem hs.candidates.flip hc
  rw [h.candidates.id_eq _ _ hget]
  exact hget

/-- There is a candidate at the position of an identifier. -/
lemma SelectionInv.exists_at (hs : SelectionInv t ids s) {id : CandidateId} {i : ℕ}
    (hi : s.selected id = some i) :
    ∃ c, s.candidates[i]? = some c ∧ t.candidates.get id = some c := by
  have hid := (hs.selected id i).1 hi
  have hlength : i < s.candidates.length := by
    rw [← hs.candidates.length_eq]
    exact lt_length_of_getElem? hid
  have hc := List.getElem?_eq_getElem hlength
  obtain ⟨id', hid', hget⟩ := getElem?_of_forall₂ hs.candidates hc
  rw [hid] at hid'
  cases hid'
  exact ⟨_, hc, hget⟩

/-- The candidate at the position of an identifier is the one with it. -/
lemma SelectionInv.at_selected (h : Represents db t) (hs : SelectionInv t ids s) {id : CandidateId}
    {i : ℕ} (hi : s.selected id = some i) {c : Candidate} (hc : s.candidates[i]? = some c) :
    c ∈ s.candidates ∧ c.id = id := by
  refine ⟨List.mem_of_getElem? hc, ?_⟩
  have hid := (hs.selected id i).1 hi
  rw [← hs.ids_eq h, List.getElem?_map, hc] at hid
  exact Option.some.inj hid

end Selected

/-! ## References among the selected candidates -/

section References

variable (t : Tables) (cs : List Candidate)

/-- The reference leads to a confirmed node or a selected node candidate. -/
def SelectedNode : CandidateNodeReference → Prop
  | .confirmed id => ∃ r, t.nodes.get id = some r
  | .candidate id => ∃ c ∈ cs, c.id = id ∧ c.IsNode

/-- The reference leads to a confirmed relation kind or a selected relation-kind candidate. -/
def SelectedRelation : CandidateRelationReference → Prop
  | .confirmed id => ∃ r, t.relations.get id = some r
  | .candidate id => ∃ c ∈ cs, c.id = id ∧ c.IsRelation

/-- The references of a candidate stay within the selection. -/
def SelectedReferences : Candidate → Prop
  | .edge _ source destination relationKind _ =>
    SelectedNode t cs source ∧ SelectedNode t cs destination ∧ SelectedRelation t cs relationKind
  | _ => True

end References

lemma increment_ensures {P : Prop} (counts : CandidateId → U64) (id : CandidateId)
    (hroom : P → (counts id).val + 1 < 2 ^ 64) :
    Ensures (checkedIncrementCandidateReference counts id) (fun counts' =>
      ∀ id', (counts' id').val = (counts id').val + if id' = id then 1 else 0) (Blocked P) := by
  refine (ensures_okOr (fun count hcount => U64.checkedAdd_eq_some.1 hcount)
    fun hnone => ⟨fun hcorrupt => hcorrupt, not_of_overflow hnone hroom⟩).bind fun count hcount => ?_
  refine ensures_pure fun id' => ?_
  by_cases hid : id' = id
  · subst hid
    simp [← hcount]
  · simp [hid]

/-- How many candidates of each kind there are, added up. -/
def CandidateBatchCounts.add (a b : CandidateBatchCounts) : CandidateBatchCounts :=
  ⟨a.nodes + b.nodes, a.relationKinds + b.relationKinds, a.edges + b.edges⟩

/-- How many candidates of each kind a list holds. -/
def tally : List Candidate → CandidateBatchCounts
  | [] => ⟨0, 0, 0⟩
  | .node .. :: cs => (tally cs).add ⟨1, 0, 0⟩
  | .relation .. :: cs => (tally cs).add ⟨0, 1, 0⟩
  | .edge .. :: cs => (tally cs).add ⟨0, 0, 1⟩

lemma tally_append (cs cs' : List Candidate) : tally (cs ++ cs') = (tally cs).add (tally cs') := by
  induction cs with
  | nil => simp [tally, CandidateBatchCounts.add]
  | cons c cs ih =>
    rcases c with _ | _ | _
    all_goals
      simp only [List.cons_append, tally, ih, CandidateBatchCounts.add,
        CandidateBatchCounts.mk.injEq]
      omega

section Count

variable {ids : List CandidateId} {s : Selection} {P : Prop}

lemma validateSelectedNode_ensures (h : Represents db t) (hs : SelectionInv t ids s)
    (owner : CandidateId) (incoming : CandidateId → U64) {r : CandidateNodeReference}
    (hresolves : t.ResolvesNode r) (hselected : P → ∀ id, r = .candidate id → id ∈ ids)
    (hroom : P → ∀ id, (incoming id).val + 1 < 2 ^ 64) :
    Ensures (validateSelectedNodeDependency db s owner incoming r) (fun incoming' =>
      SelectedNode t s.candidates r ∧
        ∀ id, (incoming' id).val = (incoming id).val + r.pointsTo id) (Blocked P) := by
  cases r with
  | confirmed id =>
    obtain ⟨record, hrecord⟩ := hresolves
    simp only [validateSelectedNodeDependency, h.requireNode_eq, hrecord]
    exact ⟨⟨record, hrecord⟩, fun id' => by simp [CandidateNodeReference.pointsTo]⟩
  | candidate id =>
    obtain ⟨candidate, hcandidate, hnode⟩ := hresolves
    simp only [validateSelectedNodeDependency]
    rcases hi : s.selected id with _ | i
    · refine ⟨fun hcorrupt => hcorrupt, fun hP => ?_⟩
      obtain ⟨j, hj⟩ := List.getElem?_of_mem (hselected hP id rfl)
      rw [(hs.selected id j).2 hj] at hi
      cases hi
    dsimp only
    obtain ⟨c, hc, hget⟩ := hs.exists_at hi
    obtain rfl : candidate = c := Option.some.inj (hcandidate.symm.trans hget)
    rcases candidate with ⟨_, name, payload, count⟩ | _ | _
    · obtain ⟨hmem, hid⟩ := hs.at_selected h hi hc
      rw [hc]
      refine (increment_ensures incoming id fun hP => hroom hP id).mono
        fun incoming' _ hincoming => ?_
      simp only [CandidateNodeReference.pointsTo_candidate]
      exact ⟨⟨_, hmem, hid, trivial⟩, hincoming⟩
    · exact hnode.elim
    · exact hnode.elim

lemma validateSelectedRelation_ensures (h : Represents db t) (hs : SelectionInv t ids s)
    (owner : CandidateId) (incoming : CandidateId → U64) {r : CandidateRelationReference}
    (hresolves : t.ResolvesRelation r) (hselected : P → ∀ id, r = .candidate id → id ∈ ids)
    (hroom : P → ∀ id, (incoming id).val + 1 < 2 ^ 64) :
    Ensures (validateSelectedRelationDependency db s owner incoming r) (fun incoming' =>
      SelectedRelation t s.candidates r ∧
        ∀ id, (incoming' id).val = (incoming id).val + r.pointsTo id) (Blocked P) := by
  cases r with
  | confirmed id =>
    obtain ⟨record, hrecord⟩ := hresolves
    simp only [validateSelectedRelationDependency, h.requireRelationKind_eq, hrecord]
    exact ⟨⟨record, hrecord⟩, fun id' => by simp [CandidateRelationReference.pointsTo]⟩
  | candidate id =>
    obtain ⟨candidate, hcandidate, hrelation⟩ := hresolves
    simp only [validateSelectedRelationDependency]
    rcases hi : s.selected id with _ | i
    · refine ⟨fun hcorrupt => hcorrupt, fun hP => ?_⟩
      obtain ⟨j, hj⟩ := List.getElem?_of_mem (hselected hP id rfl)
      rw [(hs.selected id j).2 hj] at hi
      cases hi
    dsimp only
    obtain ⟨c, hc, hget⟩ := hs.exists_at hi
    obtain rfl : candidate = c := Option.some.inj (hcandidate.symm.trans hget)
    rcases candidate with _ | ⟨_, name, count⟩ | _
    · exact hrelation.elim
    · obtain ⟨hmem, hid⟩ := hs.at_selected h hi hc
      rw [hc]
      refine (increment_ensures incoming id fun hP => hroom hP id).mono
        fun incoming' _ hincoming => ?_
      simp only [CandidateRelationReference.pointsTo_candidate]
      exact ⟨⟨_, hmem, hid, trivial⟩, hincoming⟩
    · exact hrelation.elim

/-- The references among the selected candidates are counted. -/
lemma countSelected_ensures (h : Represents db t) (hconsistent : t.Consistent)
    (hs : SelectionInv t ids s) :
    Ensures (s.candidates.foldlM (countSelected db s) (⟨0, 0, 0⟩, fun _ => 0))
      (fun out => out.1 = tally s.candidates ∧
        (∀ c ∈ s.candidates, SelectedReferences t s.candidates c) ∧
        ∀ id, (out.2 id).val = (s.candidates.map (Candidate.refersTo id)).sum)
      (Blocked (t.Confirmable ids)) := by
  refine ensures_foldlM (I := fun pre (out : CandidateBatchCounts × (CandidateId → U64)) =>
    out.1 = tally pre ∧ (∀ c ∈ pre, SelectedReferences t s.candidates c) ∧
      ∀ id, (out.2 id).val = (pre.map (Candidate.refersTo id)).sum) s.candidates
    (fun pre c post out hsplit hpre => ?_) ?_
  · obtain ⟨counts, incoming⟩ := out
    obtain ⟨rfl, hrefs, hcount⟩ := hpre
    -- what is left to show of any candidate
    have hnext : ∀ incoming' : CandidateId → U64,
        SelectedReferences t s.candidates c →
        (∀ id, (incoming' id).val = (incoming id).val + c.refersTo id) →
        (∀ c' ∈ pre ++ [c], SelectedReferences t s.candidates c') ∧
          ∀ id, (incoming' id).val = ((pre ++ [c]).map (Candidate.refersTo id)).sum := by
      intro incoming' hc hincoming
      refine ⟨fun c' hc' => ?_, fun id => ?_⟩
      · rcases List.mem_append.1 hc' with hc' | hc'
        · exact hrefs c' hc'
        · rw [List.mem_singleton.1 hc']
          exact hc
      · rw [hincoming id, List.map_append, List.sum_append, ← hcount id]
        simp
    have hmem : c ∈ s.candidates := by simp [hsplit]
    have hget := hs.has h hmem
    rcases c with _ | _ | ⟨id, source, destination, relationKind, baseWeight⟩
    · exact ensures_pure ⟨by rw [tally_append]; rfl, hnext incoming trivial fun _ => rfl⟩
    · exact ensures_pure ⟨by rw [tally_append]; rfl, hnext incoming trivial fun _ => rfl⟩
    · obtain ⟨hsource, hdestination, hrelation⟩ := hconsistent.candidate _ _ hget
      have hinside : t.Confirmable ids → ∀ dependency,
          0 < (Candidate.edge id source destination relationKind baseWeight).refersTo dependency →
          dependency ∈ ids := by
        intro hconfirmable
        refine hconfirmable.downward id ?_ _ hget
        rw [← hs.ids_eq h]
        exact List.mem_map_of_mem hmem
      -- three references an edge cannot reach the bound
      have hroom : t.Confirmable ids → ∀ id', (incoming id').val + 3 < 2 ^ 64 := by
        intro hconfirmable id'
        have hshort := hconfirmable.short
        have hlength : pre.length ≤ ids.length := by
          rw [← hs.ids_eq h, List.length_map, hsplit, List.length_append]
          exact Nat.le_add_right _ _
        have hsum : (pre.map (Candidate.refersTo id')).sum ≤ pre.length * 3 := by
          have hall : ∀ n ∈ pre.map (Candidate.refersTo id'), n ≤ 3 := by
            intro n hn
            obtain ⟨c, -, rfl⟩ := List.mem_map.1 hn
            exact c.refersTo_le id'
          have := List.sum_le_card_nsmul _ 3 hall
          rwa [List.length_map, Nat.nsmul_eq_mul] at this
        rw [hcount id']
        unfold MAXIMUM_CANDIDATE_BATCH_ENTRIES at hshort
        omega
      refine (validateSelectedNode_ensures h hs id incoming hsource
        (fun hP dependency heq => hinside hP dependency ?_) fun hP id' => ?_).bind
        fun incoming₁ h₁ => ?_
      · rw [heq]
        simp [Candidate.refersTo, CandidateNodeReference.pointsTo_candidate]
      · exact (Nat.add_le_add_left (by decide) _).trans_lt (hroom hP id')
      refine (validateSelectedNode_ensures h hs id incoming₁ hdestination
        (fun hP dependency heq => hinside hP dependency ?_) fun hP id' => ?_).bind
        fun incoming₂ h₂ => ?_
      · rw [heq]
        simp [Candidate.refersTo, CandidateNodeReference.pointsTo_candidate]
      · have hone := source.pointsTo_le id'
        have := hroom hP id'
        rw [h₁.2 id']
        omega
      refine (validateSelectedRelation_ensures h hs id incoming₂ hrelation
        (fun hP dependency heq => hinside hP dependency ?_) fun hP id' => ?_).bind
        fun incoming₃ h₃ => ?_
      · rw [heq]
        simp [Candidate.refersTo, CandidateRelationReference.pointsTo_candidate]
      · have hone := source.pointsTo_le id'
        have htwo := destination.pointsTo_le id'
        have := hroom hP id'
        rw [h₂.2 id', h₁.2 id']
        omega
      refine ensures_pure ⟨by rw [tally_append]; rfl,
        hnext incoming₃ ⟨h₁.1, h₂.1, h₃.1⟩ fun id' => ?_⟩
      rw [h₃.2 id', h₂.2 id', h₁.2 id']
      simp only [Candidate.refersTo]
      omega
  · exact ⟨rfl, fun c hc => absurd hc (by simp), fun _ => rfl⟩

end Count

/-! ## Closed selections -/

/-- The selected candidates depend on each other only, and nothing else on them. -/
structure Closed (t : Tables) (cs : List Candidate) : Prop where
  nodup : (cs.map Candidate.id).Nodup
  has : ∀ c ∈ cs, t.candidates.get c.id = some c
  references : ∀ c ∈ cs, SelectedReferences t cs c
  complete : ∀ c ∈ cs, ∀ count, c.incoming = some count →
    count.val = (cs.map (Candidate.refersTo c.id)).sum

lemma checkClosure_ensures {P : Prop} (incoming : CandidateId → U64) (c : Candidate)
    (hcomplete : P → ∀ count, c.incoming = some count → count = incoming c.id) :
    Ensures (checkClosure incoming c)
      (fun _ => ∀ count, c.incoming = some count → count = incoming c.id) (Blocked P) := by
  have hcheck : ∀ (id : CandidateId) (durable : U64) (message : String),
      (P → durable = incoming id) →
      Ensures (if durable = incoming id then .ok ()
        else .error (CatalogError.invalidCandidateDependency id message))
        (fun _ : Unit => durable = incoming id) (Blocked P) := by
    intro id durable message hP
    split_ifs with heq
    · exact heq
    · exact ⟨fun hcorrupt => hcorrupt, fun h => heq (hP h)⟩
  rcases c with ⟨id, name, payload, durable⟩ | ⟨id, name, durable⟩ | _
  · refine (hcheck id durable _ fun hP => hcomplete hP _ rfl).mono fun _ _ heq count hcount => ?_
    cases hcount
    exact heq
  · refine (hcheck id durable _ fun hP => hcomplete hP _ rfl).mono fun _ _ heq count hcount => ?_
    cases hcount
    exact heq
  · exact fun count hcount => by cases hcount

namespace Closed

variable {cs : List Candidate}

/-- The selected candidates refer to no candidate outside the selection. -/
lemma refersTo_outside (h : Closed t cs) {id : CandidateId} (hid : id ∉ cs.map Candidate.id) :
    (cs.map (Candidate.refersTo id)).sum = 0 := by
  refine List.sum_eq_zero fun n hn => ?_
  obtain ⟨c, hc, rfl⟩ := List.mem_map.1 hn
  have hrefs := h.references c hc
  rcases c with _ | _ | ⟨_, source, destination, relationKind, baseWeight⟩
  · rfl
  · rfl
  obtain ⟨hsource, hdestination, hrelation⟩ := hrefs
  have hnode : ∀ r, SelectedNode t cs r → r.pointsTo id = 0 := by
    intro r hr
    cases r with
    | confirmed _ => rfl
    | candidate id' =>
      obtain ⟨c', hc', rfl, -⟩ := hr
      rw [CandidateNodeReference.pointsTo_candidate]
      refine if_neg fun heq => hid ?_
      rw [heq]
      exact List.mem_map_of_mem hc'
  have hkind : relationKind.pointsTo id = 0 := by
    cases relationKind with
    | confirmed _ => rfl
    | candidate id' =>
      obtain ⟨c', hc', rfl, -⟩ := hrelation
      rw [CandidateRelationReference.pointsTo_candidate]
      refine if_neg fun heq => hid ?_
      rw [heq]
      exact List.mem_map_of_mem hc'
  simp only [Candidate.refersTo, hnode source hsource, hnode destination hdestination, hkind,
    Nat.add_zero]

/-- What stays and what leaves add up. -/
lemma sum_remaining (h : Closed t cs) (f : Candidate → ℕ) :
    (t.candidates.dropAll (cs.map Candidate.id)).sum f + (cs.map f).sum = t.candidates.sum f :=
  SortedMap.sum_dropAll h.nodup h.has f

/-- Nothing that stays refers to a selected candidate. -/
lemma refersTo_selected (h : Closed t cs) (hc : t.Consistent) {id id' : CandidateId}
    {c : Candidate} (hid : id ∈ cs.map Candidate.id)
    (hget : (t.candidates.dropAll (cs.map Candidate.id)).get id' = some c) : c.refersTo id = 0 := by
  obtain ⟨c₀, hc₀, rfl⟩ := List.mem_map.1 hid
  have hsum := h.sum_remaining (Candidate.refersTo c₀.id)
  have hone := SortedMap.le_sum (Candidate.refersTo c₀.id) hget
  rcases hincoming : c₀.incoming with _ | count
  · -- nothing refers to an edge candidate
    by_contra hpos
    obtain ⟨c', hc', hkind⟩ := (hc.candidate id' c (SortedMap.get_dropAll.1 hget).1).refersTo
      (Nat.pos_of_ne_zero hpos)
    obtain rfl : c₀ = c' := Option.some.inj ((h.has c₀ hc₀).symm.trans hc')
    rcases c₀ with _ | _ | _
    · cases hincoming
    · cases hincoming
    · exact hkind.elim id id
  · have hstored := hc.incoming _ c₀ count (h.has c₀ hc₀) hincoming
    have hselected := h.complete c₀ hc₀ count hincoming
    omega

/-- The list of a closed selection can be confirmed. -/
lemma confirmable (h : Closed t cs) (hc : t.Consistent) (hne : cs ≠ [])
    (hshort : cs.length ≤ MAXIMUM_CANDIDATE_BATCH_ENTRIES) :
    t.Confirmable (cs.map Candidate.id) := by
  refine ⟨?_, ?_, h.nodup, fun id hid => ?_, fun id hid c hget dependency hrefers => ?_,
    fun id c hget dependency hdependency hrefers => ?_⟩
  · rw [ne_eq, List.map_eq_nil_iff]
    exact hne
  · rw [List.length_map]
    exact hshort
  · obtain ⟨c, hmem, rfl⟩ := List.mem_map.1 hid
    exact ⟨c, h.has c hmem⟩
  · obtain ⟨c', hmem, rfl⟩ := List.mem_map.1 hid
    obtain rfl : c' = c := Option.some.inj ((h.has c' hmem).symm.trans hget)
    by_contra houtside
    have hsum := h.refersTo_outside houtside
    have hone := List.single_le_sum (fun _ _ => Nat.zero_le _) _
      (List.mem_map_of_mem (f := Candidate.refersTo dependency) hmem)
    omega
  · by_contra houtside
    have hzero := h.refersTo_selected hc hdependency
      (SortedMap.get_dropAll.2 ⟨hget, houtside⟩)
    omega

end Closed

namespace Tables.Confirmable

variable {cs : List Candidate} {ids : List CandidateId}

/-- Only selected candidates refer to a selected one, so the stored count is theirs. -/
lemma complete (h : t.Confirmable ids) (hc : t.Consistent) (hids : cs.map Candidate.id = ids)
    (hhas : ∀ c ∈ cs, t.candidates.get c.id = some c) {c : Candidate} (hmem : c ∈ cs) {count : U64}
    (hcount : c.incoming = some count) :
    count.val = (cs.map (Candidate.refersTo c.id)).sum := by
  have hid : c.id ∈ ids := hids ▸ List.mem_map_of_mem hmem
  have hsum := SortedMap.sum_dropAll (hids ▸ h.nodup) hhas (Candidate.refersTo c.id)
  have hrest : (t.candidates.dropAll (cs.map Candidate.id)).sum (Candidate.refersTo c.id) = 0 := by
    refine SortedMap.sum_eq_zero fun id c' hget => ?_
    obtain ⟨hget, houtside⟩ := SortedMap.get_dropAll.1 hget
    rw [hids] at houtside
    by_contra hpositive
    exact houtside (h.upward id c' hget c.id hid (Nat.pos_of_ne_zero hpositive))
  rw [hc.incoming _ c count (hhas c hmem) hcount, ← hsum, hrest, Nat.zero_add]

/-- The candidates of a list that can be confirmed are a closed selection. -/
lemma closed (h : t.Confirmable ids) (hc : t.Consistent) (hids : cs.map Candidate.id = ids)
    (hhas : ∀ c ∈ cs, t.candidates.get c.id = some c) : Closed t cs := by
  refine ⟨hids ▸ h.nodup, hhas, fun c hmem => ?_, fun c hmem count => h.complete hc hids hhas hmem⟩
  have hget := hhas c hmem
  have hinside := h.downward c.id (hids ▸ List.mem_map_of_mem hmem) c hget
  have hselected : ∀ id, 0 < c.refersTo id → ∃ c' ∈ cs, c'.id = id := by
    intro id hrefers
    have hid := hinside id hrefers
    rw [← hids] at hid
    exact List.mem_map.1 hid
  have hresolves := hc.candidate c.id c hget
  rcases c with _ | _ | ⟨id, source, destination, relationKind, baseWeight⟩
  · trivial
  · trivial
  have hnode : ∀ r : CandidateNodeReference, t.ResolvesNode r →
      (∀ id', r = .candidate id' →
        0 < (Candidate.edge id source destination relationKind baseWeight).refersTo id') →
      SelectedNode t cs r := by
    intro r hr hrefers
    cases r with
    | confirmed id' => exact hr
    | candidate id' =>
      obtain ⟨c', hget', hkind⟩ := hr
      obtain ⟨c'', hmem', rfl⟩ := hselected id' (hrefers id' rfl)
      obtain rfl : c'' = c' := Option.some.inj ((hhas c'' hmem').symm.trans hget')
      exact ⟨c'', hmem', rfl, hkind⟩
  refine ⟨hnode source hresolves.1 fun id' heq => ?_,
    hnode destination hresolves.2.1 fun id' heq => ?_, ?_⟩
  · simp [Candidate.refersTo, heq, CandidateNodeReference.pointsTo_candidate]
  · simp [Candidate.refersTo, heq, CandidateNodeReference.pointsTo_candidate]
  · cases relationKind with
    | confirmed id' => exact hresolves.2.2
    | candidate id' =>
      obtain ⟨c', hget', hkind⟩ := hresolves.2.2
      obtain ⟨c'', hmem', rfl⟩ := hselected id' (by
        simp [Candidate.refersTo, CandidateRelationReference.pointsTo_candidate])
      obtain rfl : c'' = c' := Option.some.inj ((hhas c'' hmem').symm.trans hget')
      exact ⟨c'', hmem', rfl, hkind⟩

end Tables.Confirmable


end PathHydra
