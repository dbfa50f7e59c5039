import PathHydra.Properties.Store.Confirm

/-!
# The records a confirmation reports

A confirmation answers with one record for each candidate.  Which records these are is a function of
the catalog before it: a name that is confirmed reports the stored record, another one the record
that its first candidate creates, and the identifiers count on from the three counters.
`reportedRecords` is that function, without the loops of the code, and `Confirms.records_eq` says
that the code reports what it says.
-/

namespace PathHydra

variable {c : Catalog}

/-! ## The created records -/

/-- So many identifiers after the first. -/
def U64.offset (first : U64) (n : ℕ) : U64 := Fin.ofNat (2 ^ 64) (first.val + n)

lemma U64.offset_eq {first following : U64} {n : ℕ} (h : following.val = first.val + n) :
    first.offset n = following := by
  refine Fin.ext ?_
  rw [U64.offset, Fin.val_ofNat, ← h, Nat.mod_eq_of_lt following.isLt]

section Created

variable {R : Type} (nameOf : R → String) (taken : String → Bool)

/-- A record is created for a name that is neither confirmed nor created before. -/
def addCreated (created : List R) : Option R → List R
  | none => created
  | some r =>
    if taken (nameOf r) || created.any fun r' => decide (nameOf r' = nameOf r) then created
    else created ++ [r]

/-- What the planning of one kind has created, against the list it should be. -/
structure CreatedAs (first following : U64) (planned : String → Option R)
    (created spec : List R) : Prop where
  created_eq : created = spec
  following_eq : following.val = first.val + created.length
  planned_eq : ∀ s, planned s = created.find? fun r => decide (nameOf r = s)

variable {nameOf} {first following : U64} {planned : String → Option R} {created spec : List R}

/-- The first record of a name stays the first. -/
lemma find?_addCreated {taken : String → Bool} {s : String} {r : R} (o : Option R)
    (h : (created.find? fun r => decide (nameOf r = s)) = some r) :
    ((addCreated nameOf taken created o).find? fun r => decide (nameOf r = s)) = some r := by
  rcases o with _ | r'
  · exact h
  · rw [addCreated]
    split_ifs with hthere
    · exact h
    · rw [List.find?_append, h]
      rfl

/-- A planned name creates nothing. -/
lemma CreatedAs.keep (h : CreatedAs nameOf first following planned created spec) {r q : R}
    (hr : taken (nameOf r) = true ∨ planned (nameOf r) = some q) :
    CreatedAs nameOf first following planned created (addCreated nameOf taken spec (some r)) := by
  refine { h with created_eq := ?_ }
  rw [addCreated, if_pos, h.created_eq]
  rw [Bool.or_eq_true]
  refine hr.imp_right fun hplanned => ?_
  rw [h.planned_eq] at hplanned
  have hname := List.find?_some hplanned
  rw [← h.created_eq]
  exact List.any_eq_true.2 ⟨q, List.mem_of_find?_eq_some hplanned, hname⟩

/-- Another name creates a record with the next identifier. -/
lemma CreatedAs.create (h : CreatedAs nameOf first following planned created spec) {r : R}
    (htaken : taken (nameOf r) = false) (hplanned : planned (nameOf r) = none) {following' : U64}
    (hfollowing : following.val + 1 = following'.val) :
    CreatedAs nameOf first following' (Function.update planned (nameOf r) (some r))
      (created ++ [r]) (addCreated nameOf taken spec (some r)) := by
  have hnew : (created.any fun r' => decide (nameOf r' = nameOf r)) = false := by
    rw [h.planned_eq, List.find?_eq_none] at hplanned
    rw [List.any_eq_false]
    exact hplanned
  refine ⟨?_, ?_, fun s => ?_⟩
  · rw [addCreated, if_neg, ← h.created_eq]
    rw [← h.created_eq, htaken, hnew]
    decide
  · rw [← hfollowing, h.following_eq, List.length_append, List.length_singleton]
    omega
  · rw [List.find?_append]
    by_cases hs : s = nameOf r
    · subst hs
      rw [h.planned_eq] at hplanned
      rw [Function.update_self, hplanned]
      simp
    · rw [Function.update_of_ne hs, h.planned_eq, List.find?_singleton,
        decide_eq_false (Ne.symm hs)]
      simp

end Created

/-! ## The records as a function of the catalog -/

namespace Catalog

/-- Where a counter of the catalog stands. -/
def counter (c : Catalog) (key : Bytes) (name : String) : U64 :=
  (readMetadata c.db key name).toOption.getD 0

def nextNode (c : Catalog) : U64 := c.counter META_NEXT_NODE_ID "next-node-id"
def nextRelation (c : Catalog) : U64 := c.counter META_NEXT_RELATION_ID "next-relation-id"
def nextEdge (c : Catalog) : U64 := c.counter META_NEXT_EDGE_ID "next-edge-id"

/-- The node that a candidate would create after so many others. -/
def newNode (c : Catalog) (n : ℕ) : Candidate → Option NodeRecord
  | .node _ name payload _ => some ⟨⟨c.nextNode.offset n⟩, name, payload⟩
  | _ => none

def newRelation (c : Catalog) (n : ℕ) : Candidate → Option RelationRecord
  | .relation _ name _ => some (.new ⟨c.nextRelation.offset n⟩ name)
  | _ => none

/-- The nodes that a selection creates: one for each name that is not confirmed, as its first
candidate has it. -/
def createdNodes (c : Catalog) (cs : List Candidate) : List NodeRecord :=
  cs.foldl (fun created candidate => addCreated (fun r => r.name.asStr)
    (fun s => (c.nodeNames s).isSome) created (c.newNode created.length candidate)) []

def createdRelations (c : Catalog) (cs : List Candidate) : List RelationRecord :=
  cs.foldl (fun created candidate => addCreated (fun r => r.name.asStr)
    (fun s => (c.relationNames s).isSome) created (c.newRelation created.length candidate)) []

/-- The node of a name: the stored one, or the one the selection creates. -/
def nodeNamed (c : Catalog) (created : List NodeRecord) (name : String) : Option NodeRecord :=
  match c.nodeNames name with
  | some id => (getNodeFromDb c.db id).toOption
  | none => created.find? fun r => decide (r.name.asStr = name)

def relationNamed (c : Catalog) (created : List RelationRecord) (name : String) :
    Option RelationRecord :=
  match c.relationNames name with
  | some id => (getRelationFromDb c.db id).toOption
  | none => created.find? fun r => decide (r.name.asStr = name)

/-- The node that a candidate of the selection stands for. -/
def nodeOf (c : Catalog) (cs : List Candidate) : Candidate → Option NodeRecord
  | .node _ name _ _ => c.nodeNamed (c.createdNodes cs) name.asStr
  | _ => none

def relationOf (c : Catalog) (cs : List Candidate) : Candidate → Option RelationRecord
  | .relation _ name _ => c.relationNamed (c.createdRelations cs) name.asStr
  | _ => none

/-- The end of an edge of the selection. -/
def endOf (c : Catalog) (cs : List Candidate) : CandidateNodeReference → Option NodeId
  | .confirmed id => some id
  | .candidate id =>
    ((cs.find? fun candidate => decide (candidate.id = id)).bind (c.nodeOf cs)).map NodeRecord.id

def kindOf (c : Catalog) (cs : List Candidate) : CandidateRelationReference → Option RelationId
  | .confirmed id => some id
  | .candidate id =>
    ((cs.find? fun candidate => decide (candidate.id = id)).bind (c.relationOf cs)).map
      RelationRecord.id

end Catalog

def Candidate.isEdge : Candidate → Bool
  | .edge .. => true
  | _ => false

namespace Catalog

/-- The record that the candidate at a position reports. -/
def reportedRecord (c : Catalog) (cs : List Candidate) (indexed : Candidate × ℕ) :
    Option ConfirmedRecord :=
  match indexed.1 with
  | .node .. => (c.nodeOf cs indexed.1).map .node
  | .relation .. => (c.relationOf cs indexed.1).map .relation
  | .edge _ source destination relationKind baseWeight => do
    let source ← c.endOf cs source
    let destination ← c.endOf cs destination
    let kind ← c.kindOf cs relationKind
    return .edge ⟨⟨c.nextEdge.offset ((cs.take indexed.2).countP Candidate.isEdge)⟩, source,
      destination, kind, baseWeight⟩

/-- Whether the graph is another one afterwards. -/
def changesGraph (c : Catalog) (cs : List Candidate) : Bool :=
  !(c.createdNodes cs).isEmpty || !(c.createdRelations cs).isEmpty || cs.any Candidate.isEdge

/-- The candidates of a list of identifiers. -/
def selected (c : Catalog) (ids : List CandidateId) : List Candidate :=
  ids.filterMap fun id => (getCandidateFromDb c.db id).toOption

/-- The records that a selection reports. -/
def reportedRecords (c : Catalog) (cs : List Candidate) : List ConfirmedRecord :=
  cs.zipIdx.filterMap (c.reportedRecord cs)

lemma createdNodes_append (c : Catalog) (pre : List Candidate) (candidate : Candidate) :
    c.createdNodes (pre ++ [candidate]) = addCreated (fun r => r.name.asStr)
      (fun s => (c.nodeNames s).isSome) (c.createdNodes pre)
      (c.newNode (c.createdNodes pre).length candidate) := by
  rw [createdNodes, List.foldl_append]
  rfl

lemma createdRelations_append (c : Catalog) (pre : List Candidate) (candidate : Candidate) :
    c.createdRelations (pre ++ [candidate]) = addCreated (fun r => r.name.asStr)
      (fun s => (c.relationNames s).isSome) (c.createdRelations pre)
      (c.newRelation (c.createdRelations pre).length candidate) := by
  rw [createdRelations, List.foldl_append]
  rfl

/-- What a candidate stands for does not change with the candidates after it. -/
lemma nodeOf_append {pre : List Candidate} {candidate : Candidate} {r : NodeRecord}
    (h : c.nodeOf pre candidate = some r) (last : Candidate) :
    c.nodeOf (pre ++ [last]) candidate = some r := by
  rcases candidate with ⟨id, name, payload, n⟩ | _ | _
  · simp only [nodeOf, nodeNamed] at h ⊢
    split at h
    · exact h
    · rw [createdNodes_append]
      exact find?_addCreated _ h
  · cases h
  · cases h

lemma relationOf_append {pre : List Candidate} {candidate : Candidate} {r : RelationRecord}
    (h : c.relationOf pre candidate = some r) (last : Candidate) :
    c.relationOf (pre ++ [last]) candidate = some r := by
  rcases candidate with _ | ⟨id, name, n⟩ | _
  · cases h
  · simp only [relationOf, relationNamed] at h ⊢
    split at h
    · exact h
    · rw [createdRelations_append]
      exact find?_addCreated _ h
  · cases h

end Catalog

/-! ## The loop over nodes and relation kinds -/

lemma planNode_reported {pre : List Candidate} {plan plan' : ConfirmPlan} {name : NodeName}
    {payload : NodePayload} {record : NodeRecord}
    (hplan : CreatedAs (fun r => r.name.asStr) c.nextNode plan.followingNode plan.plannedNodeNames
      plan.createdNodes (c.createdNodes pre))
    (h : planNode c plan name payload = .ok (record, plan')) (id : CandidateId) (n : U64) :
    CreatedAs (fun r => r.name.asStr) c.nextNode plan'.followingNode plan'.plannedNodeNames
      plan'.createdNodes (c.createdNodes (pre ++ [.node id name payload n])) ∧
    c.nodeOf (pre ++ [.node id name payload n]) (.node id name payload n) = some record ∧
    ∃ following planned created, plan' = { plan with
      followingNode := following, plannedNodeNames := planned, createdNodes := created } := by
  have hid : c.nextNode.offset (c.createdNodes pre).length = plan.followingNode := by
    rw [← hplan.created_eq]
    exact U64.offset_eq hplan.following_eq
  rw [Catalog.nodeOf, Catalog.nodeNamed, Catalog.createdNodes_append, Catalog.newNode, hid]
  unfold planNode at h
  rcases hnames : c.nodeNames name.asStr with _ | existing
  · rw [hnames] at h
    dsimp only at h ⊢
    rcases hplanned : plan.plannedNodeNames name.asStr with _ | existing
    · rw [hplanned] at h
      obtain ⟨following, hfollowing, h⟩ := bind_eq_ok.1 h
      cases h
      have hcreate := hplan.create (fun s => (c.nodeNames s).isSome)
        (r := ⟨⟨plan.followingNode⟩, name, payload⟩) (by simp [hnames]) hplanned
        (U64.checkedAdd_eq_some.1 (okOr_eq_ok.1 hfollowing))
      refine ⟨hcreate, ?_, _, _, _, rfl⟩
      rw [← hcreate.created_eq, ← hcreate.planned_eq, Function.update_self]
    · rw [hplanned] at h
      cases h
      have hkeep := hplan.keep (fun s => (c.nodeNames s).isSome)
        (r := ⟨⟨plan.followingNode⟩, name, payload⟩) (.inr hplanned)
      refine ⟨hkeep, ?_, _, _, _, rfl⟩
      rw [← hkeep.created_eq, ← hplan.planned_eq, hplanned]
  · rw [hnames] at h
    obtain ⟨stored, hstored, h⟩ := bind_eq_ok.1 h
    cases h
    refine ⟨hplan.keep _ (q := record) (.inl (by simp [hnames])), ?_, _, _, _, rfl⟩
    show (getNodeFromDb c.db existing).toOption = some record
    rw [hstored]
    rfl

lemma planRelation_reported {pre : List Candidate} {plan plan' : ConfirmPlan} {name : RelationName}
    {record : RelationRecord}
    (hplan : CreatedAs (fun r => r.name.asStr) c.nextRelation plan.followingRelation
      plan.plannedRelationNames plan.createdRelations (c.createdRelations pre))
    (h : planRelation c plan name = .ok (record, plan')) (id : CandidateId) (n : U64) :
    CreatedAs (fun r => r.name.asStr) c.nextRelation plan'.followingRelation
      plan'.plannedRelationNames plan'.createdRelations
        (c.createdRelations (pre ++ [.relation id name n])) ∧
    c.relationOf (pre ++ [.relation id name n]) (.relation id name n) = some record ∧
    ∃ following planned created, plan' = { plan with
      followingRelation := following, plannedRelationNames := planned,
      createdRelations := created } := by
  have hid : c.nextRelation.offset (c.createdRelations pre).length = plan.followingRelation := by
    rw [← hplan.created_eq]
    exact U64.offset_eq hplan.following_eq
  rw [Catalog.relationOf, Catalog.relationNamed, Catalog.createdRelations_append,
    Catalog.newRelation, hid]
  unfold planRelation at h
  rcases hnames : c.relationNames name.asStr with _ | existing
  · rw [hnames] at h
    dsimp only at h ⊢
    rcases hplanned : plan.plannedRelationNames name.asStr with _ | existing
    · rw [hplanned] at h
      obtain ⟨following, hfollowing, h⟩ := bind_eq_ok.1 h
      cases h
      have hcreate := hplan.create (fun s => (c.relationNames s).isSome)
        (r := .new ⟨plan.followingRelation⟩ name) (by simp [RelationRecord.new, hnames]) hplanned
        (U64.checkedAdd_eq_some.1 (okOr_eq_ok.1 hfollowing))
      refine ⟨hcreate, ?_, _, _, _, rfl⟩
      rw [← hcreate.created_eq, ← hcreate.planned_eq]
      exact Function.update_self ..
    · rw [hplanned] at h
      cases h
      have hkeep := hplan.keep (fun s => (c.relationNames s).isSome)
        (r := .new ⟨plan.followingRelation⟩ name) (.inr hplanned)
      refine ⟨hkeep, ?_, _, _, _, rfl⟩
      rw [← hkeep.created_eq, ← hplan.planned_eq, hplanned]
  · rw [hnames] at h
    obtain ⟨stored, hstored, h⟩ := bind_eq_ok.1 h
    cases h
    refine ⟨hplan.keep _ (q := record) (.inl (by simp [RelationRecord.new, hnames])), ?_, _, _, _,
      rfl⟩
    show (getRelationFromDb c.db existing).toOption = some record
    rw [hstored]
    rfl

/-- What the first planning loop has planned after some candidates. -/
structure RecordsReported (c : Catalog) (pre : List Candidate) (plan : ConfirmPlan) : Prop where
  nodes : CreatedAs (fun r => r.name.asStr) c.nextNode plan.followingNode plan.plannedNodeNames
    plan.createdNodes (c.createdNodes pre)
  relations : CreatedAs (fun r => r.name.asStr) c.nextRelation plan.followingRelation
    plan.plannedRelationNames plan.createdRelations (c.createdRelations pre)
  resolvedNodes : ∀ id r, plan.resolvedNodes id = some r →
    ∃ candidate ∈ pre, candidate.id = id ∧ c.nodeOf pre candidate = some r
  resolvedRelations : ∀ id r, plan.resolvedRelations id = some r →
    ∃ candidate ∈ pre, candidate.id = id ∧ c.relationOf pre candidate = some r
  aligned : ∀ i candidate, pre[i]? = some candidate → candidate.isEdge = false →
    ∃ record, plan.aligned i = some record ∧ c.reportedRecord pre (candidate, i) = some record
  edges : plan.followingEdge = c.nextEdge ∧ plan.createdEdges = []

lemma RecordsReported.new (c : Catalog) :
    RecordsReported c [] (.new c.nextNode c.nextRelation c.nextEdge) := by
  refine ⟨⟨rfl, rfl, fun _ => rfl⟩, ⟨rfl, rfl, fun _ => rfl⟩, nofun, nofun, ?_, rfl, rfl⟩
  intro i candidate hi
  cases hi

/-- A resolution stays what it was when a candidate is added, unless it is the new one. -/
lemma resolved_append {R : Type} {resolved : CandidateId → Option R} {pre : List Candidate}
    (last : Candidate) (of : List Candidate → Candidate → Option R)
    (happend : ∀ candidate r, of pre candidate = some r → of (pre ++ [last]) candidate = some r)
    (h : ∀ id r, resolved id = some r →
      ∃ candidate ∈ pre, candidate.id = id ∧ of pre candidate = some r) (id : CandidateId) (r : R)
    (hr : resolved id = some r) :
    ∃ candidate ∈ pre ++ [last], candidate.id = id ∧ of (pre ++ [last]) candidate = some r := by
  obtain ⟨candidate, hmem, hid, hof⟩ := h id r hr
  exact ⟨candidate, List.mem_append_left _ hmem, hid, happend candidate r hof⟩

/-- The new candidate resolves to its own record. -/
lemma resolved_update {R : Type} {resolved : CandidateId → Option R} {cs : List Candidate}
    {last : Candidate} {of : Candidate → Option R} {record : R} (hlast : last ∈ cs)
    (hrecord : of last = some record)
    (h : ∀ id r, resolved id = some r → ∃ candidate ∈ cs, candidate.id = id ∧ of candidate = some r)
    (id : CandidateId) (r : R)
    (hr : Function.update resolved last.id (some record) id = some r) :
    ∃ candidate ∈ cs, candidate.id = id ∧ of candidate = some r := by
  by_cases hid : id = last.id
  · rw [hid, Function.update_self] at hr
    cases hr
    exact ⟨last, hlast, hid.symm, hrecord⟩
  · rw [Function.update_of_ne hid] at hr
    exact h id r hr

/-- What a node or relation kind reports does not change with the candidates after it. -/
lemma reportedRecord_append {pre : List Candidate} {candidate : Candidate} {i : ℕ}
    {record : ConfirmedRecord} (hedge : candidate.isEdge = false)
    (h : c.reportedRecord pre (candidate, i) = some record) (last : Candidate) :
    c.reportedRecord (pre ++ [last]) (candidate, i) = some record := by
  rcases candidate with _ | _ | _
  · obtain ⟨r, hr, hrecord⟩ := Option.map_eq_some_iff.1 h
    exact Option.map_eq_some_iff.2 ⟨r, Catalog.nodeOf_append hr last, hrecord⟩
  · obtain ⟨r, hr, hrecord⟩ := Option.map_eq_some_iff.1 h
    exact Option.map_eq_some_iff.2 ⟨r, Catalog.relationOf_append hr last, hrecord⟩
  · cases hedge

/-- An item of a list with one more. -/
lemma getElem?_append_singleton {α : Type} {l : List α} {i : ℕ} {a x : α}
    (h : (l ++ [a])[i]? = some x) : l[i]? = some x ∨ i = l.length ∧ x = a := by
  by_cases hlt : i < l.length
  · rw [List.getElem?_append_left hlt] at h
    exact .inl h
  · have hlength := lt_length_of_getElem? h
    rw [List.length_append, List.length_singleton] at hlength
    obtain rfl : i = l.length := by omega
    rw [List.getElem?_append_right le_rfl, Nat.sub_self] at h
    cases h
    exact .inr ⟨rfl, rfl⟩

/-- The positions before stay aligned, and the new one is aligned with its record. -/
lemma aligned_append {pre : List Candidate} {aligned aligned' : ℕ → Option ConfirmedRecord}
    {last : Candidate}
    (h : ∀ i candidate, pre[i]? = some candidate → candidate.isEdge = false →
      ∃ record, aligned i = some record ∧ c.reportedRecord pre (candidate, i) = some record)
    (hsame : ∀ i < pre.length, aligned' i = aligned i)
    (hlast : last.isEdge = false → ∃ record, aligned' pre.length = some record ∧
      c.reportedRecord (pre ++ [last]) (last, pre.length) = some record)
    (i : ℕ) (candidate : Candidate) (hi : (pre ++ [last])[i]? = some candidate)
    (hedge : candidate.isEdge = false) :
    ∃ record, aligned' i = some record ∧
      c.reportedRecord (pre ++ [last]) (candidate, i) = some record := by
  rcases getElem?_append_singleton hi with hi | ⟨rfl, rfl⟩
  · obtain ⟨record, haligned, hrecord⟩ := h i candidate hi hedge
    exact ⟨record, (hsame i (lt_length_of_getElem? hi)).trans haligned,
      reportedRecord_append hedge hrecord last⟩
  · exact hlast hedge

lemma planRecord_reported {pre : List Candidate} {plan plan' : ConfirmPlan} {candidate : Candidate}
    (hplan : RecordsReported c pre plan)
    (h : planRecord c plan (candidate, pre.length) = .ok plan') :
    RecordsReported c (pre ++ [candidate]) plan' := by
  obtain ⟨hnodes, hrelations, hresolvedNodes, hresolvedRelations, haligned, hedges⟩ := hplan
  have hnodes_append := resolved_append candidate c.nodeOf
    (fun _ _ h => Catalog.nodeOf_append h _) hresolvedNodes
  have hrelations_append := resolved_append candidate c.relationOf
    (fun _ _ h => Catalog.relationOf_append h _) hresolvedRelations
  have hmem : candidate ∈ pre ++ [candidate] := by simp
  have hupdate : ∀ (record : ConfirmedRecord) (i : ℕ), i < pre.length →
      Function.update plan.aligned pre.length (some record) i = plan.aligned i :=
    fun record i hlt => Function.update_of_ne (Nat.ne_of_lt hlt) ..
  rcases candidate with ⟨id, name, payload, n⟩ | ⟨id, name, n⟩ | _
  · obtain ⟨⟨record, plan₁⟩, hnode, h⟩ := bind_eq_ok.1 h
    obtain ⟨hcreated, hof, following, planned, created, rfl⟩ := planNode_reported hnodes hnode id n
    cases h
    refine ⟨hcreated, ?_, resolved_update hmem hof hnodes_append, hrelations_append,
      aligned_append haligned (hupdate _) fun _ => ⟨.node record, ?_, ?_⟩, hedges⟩
    · rw [Catalog.createdRelations_append]
      exact hrelations
    · exact Function.update_self ..
    · exact Option.map_eq_some_iff.2 ⟨record, hof, rfl⟩
  · obtain ⟨⟨record, plan₁⟩, hrelation, h⟩ := bind_eq_ok.1 h
    obtain ⟨hcreated, hof, following, planned, created, rfl⟩ :=
      planRelation_reported hrelations hrelation id n
    cases h
    refine ⟨?_, hcreated, hnodes_append, resolved_update hmem hof hrelations_append,
      aligned_append haligned (hupdate _) fun _ => ⟨.relation record, ?_, ?_⟩, hedges⟩
    · rw [Catalog.createdNodes_append]
      exact hnodes
    · exact Function.update_self ..
    · exact Option.map_eq_some_iff.2 ⟨record, hof, rfl⟩
  · cases h
    refine ⟨?_, ?_, hnodes_append, hrelations_append,
      aligned_append haligned (fun _ _ => rfl) nofun, hedges⟩
    · rw [Catalog.createdNodes_append]
      exact hnodes
    · rw [Catalog.createdRelations_append]
      exact hrelations

lemma planRecords_reported {cs : List Candidate} {plan : ConfirmPlan}
    (h : cs.zipIdx.foldlM (planRecord c) (.new c.nextNode c.nextRelation c.nextEdge) = .ok plan) :
    RecordsReported c cs plan := by
  refine Ensures.of_ok (E := fun _ => True) (ensures_foldlM_zipIdx (I := RecordsReported c) cs
    (fun pre candidate post plan hsplit hplan => ?_) (RecordsReported.new c)) h
  exact (ensures_ok _).mono fun plan' _ hplan' => planRecord_reported hplan hplan'

/-! ## The loop over edges -/

/-- The candidate of an identifier, where no identifier comes twice. -/
lemma find?_id {cs : List Candidate} (hnodup : (cs.map Candidate.id).Nodup) {candidate : Candidate}
    (hmem : candidate ∈ cs) : (cs.find? fun candidate' => decide (candidate'.id = candidate.id)) =
      some candidate := by
  rcases hfind : cs.find? fun candidate' => decide (candidate'.id = candidate.id) with _ | found
  · exact absurd (decide_eq_true rfl) (List.find?_eq_none.1 hfind candidate hmem)
  · have hid := List.find?_some hfind
    rw [decide_eq_true_eq] at hid
    rw [hfind, List.inj_on_of_nodup_map hnodup (List.mem_of_find?_eq_some hfind) hmem hid]

section Edges

variable {cs pre : List Candidate} {plan₁ plan plan' : ConfirmPlan}

lemma endOf_eq (hplan : RecordsReported c cs plan₁) (hnodup : (cs.map Candidate.id).Nodup)
    {reference : CandidateNodeReference} {id : NodeId}
    (h : resolveConfirmedNode plan₁.resolvedNodes reference = .ok id) :
    c.endOf cs reference = some id := by
  rcases reference with id' | id'
  · cases h
    rfl
  · obtain ⟨r, hr, rfl⟩ := Option.map_eq_some_iff.1 (okOr_eq_ok.1 h)
    obtain ⟨candidate, hmem, rfl, hof⟩ := hplan.resolvedNodes _ _ hr
    rw [Catalog.endOf, find?_id hnodup hmem, Option.bind_some, hof]
    rfl

lemma kindOf_eq (hplan : RecordsReported c cs plan₁) (hnodup : (cs.map Candidate.id).Nodup)
    {reference : CandidateRelationReference} {id : RelationId}
    (h : resolveConfirmedRelation plan₁.resolvedRelations reference = .ok id) :
    c.kindOf cs reference = some id := by
  rcases reference with id' | id'
  · cases h
    rfl
  · obtain ⟨r, hr, rfl⟩ := Option.map_eq_some_iff.1 (okOr_eq_ok.1 h)
    obtain ⟨candidate, hmem, rfl, hof⟩ := hplan.resolvedRelations _ _ hr
    rw [Catalog.kindOf, find?_id hnodup hmem, Option.bind_some, hof]
    rfl

/-- What the second planning loop has planned after some candidates. -/
structure EdgesReported (c : Catalog) (cs : List Candidate) (plan₁ : ConfirmPlan)
    (pre : List Candidate) (plan : ConfirmPlan) : Prop where
  resolvedNodes : plan.resolvedNodes = plan₁.resolvedNodes
  resolvedRelations : plan.resolvedRelations = plan₁.resolvedRelations
  createdNodes : plan.createdNodes = plan₁.createdNodes
  createdRelations : plan.createdRelations = plan₁.createdRelations
  following_eq : plan.followingEdge.val = c.nextEdge.val + plan.createdEdges.length
  edges_eq : plan.createdEdges.length = pre.countP Candidate.isEdge
  aligned : ∀ i candidate, cs[i]? = some candidate →
    plan.aligned i = if candidate.isEdge && decide (i < pre.length)
      then c.reportedRecord cs (candidate, i) else plan₁.aligned i

/-- A node or relation kind leaves the plan as it is. -/
lemma EdgesReported.skip {candidate : Candidate} {post : List Candidate}
    (hsplit : cs = pre ++ candidate :: post) (hplan : EdgesReported c cs plan₁ pre plan)
    (hedge : candidate.isEdge = false) : EdgesReported c cs plan₁ (pre ++ [candidate]) plan := by
  refine { hplan with edges_eq := ?_, aligned := fun i candidate' hi => ?_ }
  · rw [hplan.edges_eq, List.countP_append, List.countP_singleton, hedge]
    rfl
  · rw [hplan.aligned i candidate' hi]
    by_cases heq : i = pre.length
    · rw [hsplit, heq, List.getElem?_append_right le_rfl, Nat.sub_self] at hi
      cases hi
      simp [hedge]
    · have hiff : i < (pre ++ [candidate]).length ↔ i < pre.length := by
        rw [List.length_append, List.length_singleton]
        omega
      rw [decide_eq_decide.2 hiff]

lemma planEdge_reported (hplan₁ : RecordsReported c cs plan₁)
    (hnodup : (cs.map Candidate.id).Nodup) {candidate : Candidate} {post : List Candidate}
    (hsplit : cs = pre ++ candidate :: post) (hplan : EdgesReported c cs plan₁ pre plan)
    (h : planEdge c.db plan (candidate, pre.length) = .ok plan') :
    EdgesReported c cs plan₁ (pre ++ [candidate]) plan' := by
  rcases candidate with _ | _ | ⟨id, source, destination, relationKind, baseWeight⟩
  · cases h
    exact hplan.skip hsplit rfl
  · cases h
    exact hplan.skip hsplit rfl
  obtain ⟨source', hsource, h⟩ := bind_eq_ok.1 h
  obtain ⟨destination', hdestination, h⟩ := bind_eq_ok.1 h
  obtain ⟨relationId, hrelation, h⟩ := bind_eq_ok.1 h
  obtain ⟨old, -, h⟩ := bind_eq_ok.1 h
  obtain ⟨provisional, -, h⟩ := bind_eq_ok.1 h
  obtain ⟨confirmed, -, h⟩ := bind_eq_ok.1 h
  obtain ⟨total, -, h⟩ := bind_eq_ok.1 h
  obtain ⟨following, hfollowing, h⟩ := bind_eq_ok.1 h
  cases h
  have hvalue := U64.checkedAdd_eq_some.1 (okOr_eq_ok.1 hfollowing)
  have hcount : (pre ++ [Candidate.edge id source destination relationKind baseWeight]).countP
      Candidate.isEdge = pre.countP Candidate.isEdge + 1 := by
    rw [List.countP_append]
    rfl
  have hreport : c.reportedRecord cs
      (.edge id source destination relationKind baseWeight, pre.length) =
      some (.edge ⟨⟨plan.followingEdge⟩, source', destination', relationId, baseWeight⟩) := by
    rw [hplan.resolvedNodes] at hsource hdestination
    rw [hplan.resolvedRelations] at hrelation
    have htake : cs.take pre.length = pre := by rw [hsplit, List.take_left]
    simp only [Catalog.reportedRecord, htake, endOf_eq hplan₁ hnodup hsource,
      endOf_eq hplan₁ hnodup hdestination, kindOf_eq hplan₁ hnodup hrelation, ← hplan.edges_eq,
      U64.offset_eq hplan.following_eq]
    rfl
  refine ⟨hplan.resolvedNodes, hplan.resolvedRelations, hplan.createdNodes, hplan.createdRelations,
    ?_, ?_, fun i candidate' hi => ?_⟩
  · rw [← hvalue, hplan.following_eq, List.length_append]
    rfl
  · rw [hcount, ← hplan.edges_eq, List.length_append]
    rfl
  · dsimp only
    by_cases heq : i = pre.length
    · rw [hsplit, heq, List.getElem?_append_right le_rfl, Nat.sub_self] at hi
      cases hi
      rw [heq, Function.update_self, hreport]
      simp [Candidate.isEdge]
    · have hiff : i < (pre ++ [Candidate.edge id source destination relationKind
          baseWeight]).length ↔ i < pre.length := by
        rw [List.length_append, List.length_singleton]
        omega
      rw [Function.update_of_ne heq, hplan.aligned i candidate' hi, decide_eq_decide.2 hiff]

lemma planEdges_reported (hplan₁ : RecordsReported c cs plan₁)
    (hnodup : (cs.map Candidate.id).Nodup)
    (h : cs.zipIdx.foldlM (planEdge c.db) plan₁ = .ok plan) : EdgesReported c cs plan₁ cs plan := by
  have hstart : EdgesReported c cs plan₁ [] plan₁ := by
    refine ⟨rfl, rfl, rfl, rfl, ?_, ?_, fun i candidate _ => by simp⟩
    · rw [hplan₁.edges.1, hplan₁.edges.2]
      rfl
    · rw [hplan₁.edges.2]
      rfl
  refine Ensures.of_ok (E := fun _ => True) (ensures_foldlM_zipIdx
    (I := EdgesReported c cs plan₁) cs (fun pre candidate post plan hsplit hplan => ?_) hstart) h
  exact (ensures_ok _).mono fun plan' _ hplan' =>
    planEdge_reported hplan₁ hnodup hsplit hplan hplan'

lemma aligned_eq (hplan₁ : RecordsReported c cs plan₁) (hplan : EdgesReported c cs plan₁ cs plan)
    {i : ℕ} {candidate : Candidate} (hi : cs[i]? = some candidate) :
    plan.aligned i = c.reportedRecord cs (candidate, i) := by
  have hlt := lt_length_of_getElem? hi
  rw [hplan.aligned i candidate hi, decide_eq_true hlt, Bool.and_true]
  split_ifs with hedge
  · rfl
  · obtain ⟨record, haligned, hrecord⟩ := hplan₁.aligned i candidate hi (by simpa using hedge)
    rw [haligned, hrecord]

end Edges

/-! ## The operation -/

section Confirms

variable {t : Tables} {ids : List CandidateId} {result : CandidateBatchConfirmation} {c' : Catalog}
  {cs : List Candidate} {plan : ConfirmPlan} {changes : List RelationChange}

/-- The selection is read from the catalog. -/
lemma Confirms.selected_eq (h : Confirms c t ids result c' cs plan changes) :
    c.selected ids = cs := by
  have hread : ∀ candidate ∈ cs,
      (getCandidateFromDb c.db candidate.id).toOption = some candidate := by
    intro candidate hmem
    rw [h.confirmation.inv.represents.getCandidate_eq,
      h.confirmation.closed.has candidate hmem]
    rfl
  rw [Catalog.selected, ← h.ids_eq, List.filterMap_map]
  exact (List.filterMap_congr hread).trans List.filterMap_some

lemma Confirms.reported (h : Confirms c t ids result c' cs plan changes) :
    ∃ plan₁, RecordsReported c cs plan₁ ∧ EdgesReported c cs plan₁ cs plan := by
  have hdb := h.confirmation.inv.represents
  have hcounter : ∀ (key : MetadataKey) (name : String) (n : U64),
      t.metadata.value key = some (encodeU64Record n) → c.counter key.bytes name = n := by
    intro key name n hvalue
    rw [Catalog.counter, hdb.readMetadata_eq key name hvalue]
    rfl
  obtain ⟨plan₁, hrecords, hedges⟩ := h.plans
  have hnode : c.nextNode = t.metadata.nextNode := hcounter .nextNode _ _ rfl
  have hrelation : c.nextRelation = t.metadata.nextRelation := hcounter .nextRelation _ _ rfl
  have hedge : c.nextEdge = t.metadata.nextEdge := hcounter .nextEdge _ _ rfl
  rw [← hnode, ← hrelation, ← hedge] at hrecords
  have hplan₁ := planRecords_reported hrecords
  exact ⟨plan₁, hplan₁, planEdges_reported hplan₁ h.confirmation.closed.nodup hedges⟩

/-- A confirmation reports the records that the catalog before it determines. -/
lemma Confirms.records_eq (h : Confirms c t ids result c' cs plan changes) :
    result.records = c.reportedRecords cs := by
  obtain ⟨plan₁, hplan₁, hplan⟩ := h.reported
  rw [h.records, Catalog.reportedRecords, List.range_eq_range', ← List.zipIdx_map_snd 0 cs,
    List.filterMap_map]
  refine List.filterMap_congr fun indexed hmem => ?_
  obtain ⟨candidate, i⟩ := indexed
  exact aligned_eq hplan₁ hplan (List.mem_zipIdx_iff_getElem?.1 hmem)

lemma Confirms.createdNodes_eq (h : Confirms c t ids result c' cs plan changes) :
    result.createdNodes = (c.createdNodes cs).length := by
  obtain ⟨plan₁, hplan₁, hplan⟩ := h.reported
  rw [h.createdNodes, hplan.createdNodes, hplan₁.nodes.created_eq]

lemma Confirms.createdRelationKinds_eq (h : Confirms c t ids result c' cs plan changes) :
    result.createdRelationKinds = (c.createdRelations cs).length := by
  obtain ⟨plan₁, hplan₁, hplan⟩ := h.reported
  rw [h.createdRelationKinds, hplan.createdRelations, hplan₁.relations.created_eq]

lemma Confirms.graphChanged_eq (h : Confirms c t ids result c' cs plan changes) :
    result.graphChanged = c.changesGraph cs := by
  obtain ⟨plan₁, hplan₁, hplan⟩ := h.reported
  have hedges : plan.createdEdges.isEmpty = !cs.any Candidate.isEdge := by
    rw [Bool.eq_iff_iff, List.isEmpty_iff_length_eq_zero, hplan.edges_eq, List.countP_eq_zero]
    simp
  rw [h.graphChanged, ConfirmPlan.graphChanged, hplan.createdNodes, hplan.createdRelations,
    hplan₁.nodes.created_eq, hplan₁.relations.created_eq, hedges, Bool.not_not]
  rfl

end Confirms

end PathHydra
