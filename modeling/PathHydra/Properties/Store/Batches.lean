import PathHydra.Properties.Store.Invariant

/-!
# Groups of entries in a batch

A batch is put together from groups of entries, one for each record it changes.  The lemmas here
say what the groups of a whole list of records do to the tables: candidates are put or deleted, new
nodes and edges join, edges leave, and relation kinds are created, updated or removed.
-/

namespace PathHydra

variable {db : Database} {t : Tables}

/-- A batch put together from groups, one group at a time. -/
lemma Represents.writes {X : Type*} (T : List X → Tables) (batch : X → WriteBatch) (l : List X)
    (h : Represents db (T []))
    (hstep : ∀ pre x post db, l = pre ++ x :: post → Represents db (T pre) →
      Represents (db.write (batch x)) (T (pre ++ [x]))) :
    Represents (db.write (l.flatMap batch)) (T l) := by
  suffices hgeneral : ∀ (post pre : List X) (db : Database), l = pre ++ post →
      Represents db (T pre) → Represents (db.write (post.flatMap batch)) (T l) from
    hgeneral l [] db rfl h
  intro post
  induction post with
  | nil =>
    intro pre db heq hpre
    rw [List.append_nil] at heq
    rw [heq]
    exact hpre
  | cons x post ih =>
    intro pre db heq hpre
    rw [List.flatMap_cons, write_append]
    exact ih (pre ++ [x]) _ (by simp [heq]) (hstep pre x post db heq hpre)

/-! ## Candidates -/

lemma Represents.putCandidates (h : Represents db t) {cs : List Candidate}
    (hfits : ∀ c ∈ cs, c.Fits) :
    Represents (db.write (cs.map fun c =>
        WriteOp.put .candidates (encodeIdKey c.id.asU64) (candidateBytes c)))
      { t with candidates := SortedMap.putAll Candidate.id t.candidates cs } := by
  rw [List.map_eq_flatMap]
  refine Represents.writes
    (fun pre => { t with candidates := SortedMap.putAll Candidate.id t.candidates pre }) _ cs h
    fun pre c post db heq hpre => ?_
  rw [SortedMap.putAll_concat]
  exact hpre.putCandidate (hfits c (by simp [heq]))

lemma Represents.deleteCandidates (h : Represents db t) (ids : List CandidateId) :
    Represents (db.write (ids.map fun id => WriteOp.delete .candidates (encodeIdKey id.asU64)))
      { t with candidates := t.candidates.dropAll ids } := by
  rw [List.map_eq_flatMap]
  refine Represents.writes (fun pre => { t with candidates := t.candidates.dropAll pre }) _ ids h
    fun pre id post db _ hpre => ?_
  rw [SortedMap.dropAll_concat]
  exact hpre.deleteCandidate id

/-! ## Nodes and edges -/

/-- The records are new: their identifiers and names are their own. -/
structure NewRecords {k : IdKind} {R : Type} (tab : SortedMap (DurableId k) R)
    (idOf : R → DurableId k) (nameOf : R → String) (l : List R) : Prop where
  ids : (l.map idOf).Nodup
  fresh : ∀ r ∈ l, tab.get (idOf r) = none
  names : (l.map nameOf).Nodup
  unused : ∀ r ∈ l, ∀ r', tab.get (idOf r') = some r' → nameOf r' ≠ nameOf r

section NewRecords

variable {k : IdKind} {R : Type} {tab : SortedMap (DurableId k) R} {idOf : R → DurableId k}
  {nameOf : R → String} {l : List R}

lemma NewRecords.has_putAll (h : NewRecords tab idOf nameOf l) {r : R} :
    (SortedMap.putAll idOf tab l).get (idOf r) = some r ↔ tab.get (idOf r) = some r ∨ r ∈ l := by
  rw [SortedMap.get_putAll h.ids h.fresh]
  simp

lemma NewRecords.of_append {l' : List R} (h : NewRecords tab idOf nameOf (l ++ l')) :
    NewRecords tab idOf nameOf l := by
  obtain ⟨hids, hfresh, hnames, hunused⟩ := h
  rw [List.map_append] at hids hnames
  exact ⟨hids.of_append_left, fun r hr => hfresh r (by simp [hr]), hnames.of_append_left,
    fun r hr => hunused r (by simp [hr])⟩

lemma NewRecords.name_inj (h : NewRecords tab idOf nameOf l)
    (hinj : ∀ r r', tab.get (idOf r) = some r → tab.get (idOf r') = some r' →
      nameOf r = nameOf r' → r = r') {r r' : R}
    (hr : (SortedMap.putAll idOf tab l).get (idOf r) = some r)
    (hr' : (SortedMap.putAll idOf tab l).get (idOf r') = some r') (heq : nameOf r = nameOf r') :
    r = r' := by
  rw [h.has_putAll] at hr hr'
  rcases hr with hr | hr
  · rcases hr' with hr' | hr'
    · exact hinj r r' hr hr' heq
    · exact absurd heq (h.unused r' hr' r hr)
  · rcases hr' with hr' | hr'
    · exact absurd heq.symm (h.unused r hr r' hr')
    · exact List.inj_on_of_nodup_map h.names hr hr' heq

end NewRecords

/-- The entries that store a node, when they fit. -/
def nodeEntries (r : NodeRecord) : WriteBatch :=
  [.put .nodes (encodeIdKey r.id.asU64) (nodeBytes r),
    .put .nodeNames (nameBytes r.name.asStr) (encodeU64Record r.id.asU64)]

lemma Represents.putNodes (h : Represents db t) (hold : ∀ r, t.HasNode r → r.Fits)
    {l : List NodeRecord} (hfits : ∀ r ∈ l, r.Fits)
    (hnew : NewRecords t.nodes NodeRecord.id (fun r => r.name.asStr) l) :
    Represents (db.write (l.flatMap nodeEntries))
      { t with nodes := SortedMap.putAll NodeRecord.id t.nodes l } := by
  refine Represents.writes
    (fun pre => { t with nodes := SortedMap.putAll NodeRecord.id t.nodes pre }) _ l h
    fun pre r post db heq hpre => ?_
  subst heq
  have hr : r ∈ pre ++ r :: post := by simp
  have hhas : ∀ b, (SortedMap.putAll NodeRecord.id t.nodes pre).get b.id = some b →
      t.HasNode b ∨ b ∈ pre := fun b hb => hnew.of_append.has_putAll.1 hb
  rw [SortedMap.putAll_concat]
  refine hpre.putNode (fun b hb => ?_) (hfits r hr) ?_ fun b hb heq => ?_
  · rcases hhas b hb with hb | hb
    · exact hold b hb
    · exact hfits b (by simp [hb])
  · refine (SortedMap.get_setAll_of_notMem ?_).trans (hnew.fresh r hr)
    simpa [Function.comp_def] using key_notMem_earlier hnew.ids
  · rcases hhas b hb with hb | hb
    · exact hnew.unused r hr b hb heq
    · exact key_notMem_earlier hnew.names (List.mem_map.2 ⟨b, hb, heq⟩)

lemma Represents.putEdges (h : Represents db t) {l : List EdgeRecord}
    (hids : (l.map EdgeRecord.id).Nodup) (hfresh : ∀ e ∈ l, t.edges.get e.id = none) :
    Represents (db.write (l.flatMap PathHydra.putEdge))
      { t with edges := SortedMap.putAll EdgeRecord.id t.edges l } := by
  refine Represents.writes
    (fun pre => { t with edges := SortedMap.putAll EdgeRecord.id t.edges pre }) _ l h
    fun pre e post db heq hpre => ?_
  subst heq
  rw [SortedMap.putAll_concat]
  refine hpre.putEdge ((SortedMap.get_setAll_of_notMem ?_).trans (hfresh e (by simp)))
  simpa [Function.comp_def] using key_notMem_earlier hids

lemma Represents.deleteEdges (h : Represents db t) {l : List EdgeRecord}
    (hids : (l.map EdgeRecord.id).Nodup) (hhas : ∀ e ∈ l, t.HasEdge e) :
    Represents (db.write (l.flatMap PathHydra.deleteEdge))
      { t with edges := t.edges.dropAll (l.map EdgeRecord.id) } := by
  refine Represents.writes
    (fun pre => { t with edges := t.edges.dropAll (pre.map EdgeRecord.id) }) _ l h
    fun pre e post db heq hpre => ?_
  subst heq
  rw [List.map_append, List.map_singleton, SortedMap.dropAll_concat]
  exact hpre.deleteEdge (SortedMap.get_dropAll.2 ⟨hhas e (by simp), key_notMem_earlier hids⟩)

/-! ## Relation kinds -/

/-- What a batch does to one relation kind. -/
inductive RelationChange
  | create (r : RelationRecord)
  | update (old r : RelationRecord)
  | remove (old : RelationRecord)

namespace RelationChange

def id : RelationChange → RelationId
  | create r => r.id
  | update _ r => r.id
  | remove old => old.id

/-- The record after the change. -/
def after : RelationChange → Option RelationRecord
  | create r => some r
  | update _ r => some r
  | remove _ => none

/-- The entries of the change. -/
def batch : RelationChange → WriteBatch
  | create r => [.put .relationNames (nameBytes r.name.asStr) (encodeU64Record r.id.asU64),
      .put .relationKinds (encodeIdKey r.id.asU64) (relationBytes r),
      .put .relationPopularity (popularityBytes r) (encodeU64Record r.id.asU64)]
  | update old r => [.delete .relationPopularity (popularityBytes old),
      .put .relationKinds (encodeIdKey r.id.asU64) (relationBytes r),
      .put .relationPopularity (popularityBytes r) (encodeU64Record r.id.asU64)]
  | remove old => [.delete .relationPopularity (popularityBytes old),
      .delete .relationKinds (encodeIdKey old.id.asU64),
      .delete .relationNames (nameBytes old.name.asStr)]

/-- The change fits the tables. -/
def ValidAt (t : Tables) : RelationChange → Prop
  | create r => r.Fits ∧ t.relations.get r.id = none ∧
      ∀ r', t.HasRelation r' → r'.name.asStr ≠ r.name.asStr
  | update old r => t.HasRelation old ∧ r.Fits ∧ r.id = old.id ∧ r.name = old.name
  | remove old => t.HasRelation old

end RelationChange

/-- The tables after changes of relation kinds. -/
def Tables.changeRelations (t : Tables) (l : List RelationChange) : Tables :=
  { t with relations := t.relations.setAll (l.map fun ch => (ch.id, ch.after)) }

/-- The changes fit the tables, and each is about another relation kind. -/
structure ValidChanges (t : Tables) (l : List RelationChange) : Prop where
  ids : (l.map RelationChange.id).Nodup
  valid : ∀ ch ∈ l, ch.ValidAt t
  names : ∀ r r', RelationChange.create r ∈ l → RelationChange.create r' ∈ l →
    r.name.asStr = r'.name.asStr → r = r'

namespace ValidChanges

variable {l : List RelationChange}

lemma of_append {l' : List RelationChange} (h : ValidChanges t (l ++ l')) : ValidChanges t l := by
  obtain ⟨hids, hvalid, hnames⟩ := h
  rw [List.map_append] at hids
  exact ⟨hids.of_append_left, fun ch hch => hvalid ch (by simp [hch]),
    fun r r' hr hr' => hnames r r' (by simp [hr]) (by simp [hr'])⟩

/-- Only the relation kinds of the tables matter. -/
lemma congr {t' : Tables} (h : ValidChanges t l) (heq : t'.relations = t.relations) :
    ValidChanges t' l := by
  refine ⟨h.ids, fun ch hch => ?_, h.names⟩
  have hvalid := h.valid ch hch
  cases ch with
  | create r => simpa only [RelationChange.ValidAt, Tables.HasRelation, heq] using hvalid
  | update old r => simpa only [RelationChange.ValidAt, Tables.HasRelation, heq] using hvalid
  | remove old => simpa only [RelationChange.ValidAt, Tables.HasRelation, heq] using hvalid

lemma get_of_mem (h : ValidChanges t l) {ch : RelationChange} (hch : ch ∈ l) :
    (t.changeRelations l).relations.get ch.id = ch.after :=
  SortedMap.get_setAll_of_mem (by simpa [Function.comp_def] using h.ids)
    (List.mem_map.2 ⟨ch, hch, rfl⟩)

lemma get_of_notMem {id : RelationId} (hid : id ∉ l.map RelationChange.id) :
    (t.changeRelations l).relations.get id = t.relations.get id :=
  SortedMap.get_setAll_of_notMem (by simpa [Function.comp_def] using hid)

/-- A relation kind after the changes is one of before, or comes from a change. -/
lemma has_cases (h : ValidChanges t l) {r : RelationRecord}
    (hr : (t.changeRelations l).HasRelation r) :
    t.HasRelation r ∧ r.id ∉ l.map RelationChange.id ∨
      RelationChange.create r ∈ l ∨ ∃ old, RelationChange.update old r ∈ l := by
  by_cases hid : r.id ∈ l.map RelationChange.id
  · obtain ⟨ch, hch, heq⟩ := List.mem_map.1 hid
    rw [Tables.HasRelation, ← heq, h.get_of_mem hch] at hr
    cases ch with
    | create r' =>
      cases hr
      exact .inr (.inl hch)
    | update old r' =>
      cases hr
      exact .inr (.inr ⟨old, hch⟩)
    | remove old => cases hr
  · rw [Tables.HasRelation, get_of_notMem hid] at hr
    exact .inl ⟨hr, hid⟩

/-- A relation kind after the changes has the name and identifier of one of before, or is new. -/
lemma has_named (h : ValidChanges t l) {r : RelationRecord}
    (hr : (t.changeRelations l).HasRelation r) :
    (∃ old, t.HasRelation old ∧ r.id = old.id ∧ r.name = old.name) ∨
      RelationChange.create r ∈ l := by
  rcases h.has_cases hr with ⟨hold, -⟩ | hcreate | ⟨old, hupdate⟩
  · exact .inl ⟨r, hold, rfl, rfl⟩
  · exact .inr hcreate
  · obtain ⟨hold, -, hid, hname⟩ := h.valid _ hupdate
    exact .inl ⟨old, hold, hid, hname⟩

lemma fits (h : ValidChanges t l) (hold : ∀ r, t.HasRelation r → r.Fits) (r : RelationRecord)
    (hr : (t.changeRelations l).HasRelation r) : r.Fits := by
  rcases h.has_cases hr with ⟨hr, -⟩ | hcreate | ⟨old, hupdate⟩
  · exact hold r hr
  · exact (h.valid _ hcreate).1
  · exact (h.valid _ hupdate).2.1

lemma name_inj (h : ValidChanges t l)
    (hinj : ∀ r r', t.HasRelation r → t.HasRelation r' → r.name.asStr = r'.name.asStr → r = r')
    (r r' : RelationRecord) (hr : (t.changeRelations l).HasRelation r)
    (hr' : (t.changeRelations l).HasRelation r') (hname : r.name.asStr = r'.name.asStr) :
    r = r' := by
  rcases h.has_named hr with ⟨old, hold, hid, holdName⟩ | hcreate
  · rcases h.has_named hr' with ⟨old', hold', hid', holdName'⟩ | hcreate'
    · rw [holdName, holdName'] at hname
      rw [hinj old old' hold hold' hname] at hid
      exact has_unique hr hr' (hid.trans hid'.symm)
    · rw [holdName] at hname
      exact absurd hname ((h.valid _ hcreate').2.2 old hold)
  · rcases h.has_named hr' with ⟨old', hold', -, holdName'⟩ | hcreate'
    · rw [holdName'] at hname
      exact absurd hname.symm ((h.valid _ hcreate).2.2 old' hold')
    · exact h.names r r' hcreate hcreate' hname

end ValidChanges

/-- The groups of all changes change the table. -/
lemma Represents.changeRelations (h : Represents db t) (hw : t.Writable)
    {l : List RelationChange} (hl : ValidChanges t l) :
    Represents (db.write (l.flatMap RelationChange.batch)) (t.changeRelations l) := by
  refine Represents.writes t.changeRelations _ l h fun pre ch post db heq hpre => ?_
  subst heq
  have hvalid := hl.valid ch (by simp)
  have hbefore := hl.of_append
  have hfits := hbefore.fits hw.relation
  have hinj := hbefore.name_inj hw.relation_name_inj
  have hid : ch.id ∉ pre.map RelationChange.id := key_notMem_earlier hl.ids
  have hsame : ∀ r : RelationRecord, r.id = ch.id → t.HasRelation r →
      (t.changeRelations pre).HasRelation r := by
    intro r hr hhas
    rw [Tables.HasRelation, hr, ValidChanges.get_of_notMem hid, ← hr]
    exact hhas
  have hset : t.changeRelations (pre ++ [ch]) = { t.changeRelations pre with
      relations := (t.changeRelations pre).relations.set ch.id ch.after } := by
    simp only [Tables.changeRelations, List.map_append, List.map_cons, List.map_nil,
      SortedMap.setAll_concat]
  rw [hset]
  cases ch with
  | create r =>
    obtain ⟨hr, hfresh, hname⟩ := hvalid
    refine hpre.createRelation hfits hr ((ValidChanges.get_of_notMem hid).trans hfresh)
      fun r' hr' heq => ?_
    rcases hbefore.has_named hr' with ⟨old, hold, -, holdName⟩ | hcreate
    · rw [holdName] at heq
      exact hname old hold heq
    · obtain rfl := hl.names r' r (by simp [hcreate]) (by simp) heq
      exact hid (List.mem_map.2 ⟨_, hcreate, rfl⟩)
  | update old r =>
    obtain ⟨hold, hr, heq, hname⟩ := hvalid
    exact hpre.updateRelation (hsame old heq.symm hold) hr heq hname
  | remove old => exact hpre.removeRelation hfits hinj (hsame old rfl hvalid)

/-! ## Exact names -/

section Names

variable {k : IdKind} {R : Type} {names : String → Option (DurableId k)} {S S' : R → Prop}
  {nameOf : R → String} {idOf : R → DurableId k} {l : List R}

/-- New records under new names. -/
lemma NamesOf.addAll (h : NamesOf names S nameOf idOf) (hnames : (l.map nameOf).Nodup)
    (hunused : ∀ r ∈ l, ∀ r', S r' → nameOf r' ≠ nameOf r)
    (hS : ∀ s id, (∃ r, S' r ∧ nameOf r = s ∧ idOf r = id) ↔
      (∃ r, S r ∧ nameOf r = s ∧ idOf r = id) ∨ ∃ r ∈ l, nameOf r = s ∧ idOf r = id) :
    NamesOf (l.foldl (fun names r => Function.update names (nameOf r) (some (idOf r))) names) S'
      nameOf idOf := by
  intro s id
  rw [hS]
  by_cases hs : s ∈ l.map nameOf
  · obtain ⟨r, hr, rfl⟩ := List.mem_map.1 hs
    rw [foldl_update_of_mem hnames hr]
    constructor
    · intro hid
      exact .inr ⟨r, hr, rfl, Option.some.inj hid⟩
    · rintro (⟨r', hr', heq, -⟩ | ⟨r', hr', heq, rfl⟩)
      · exact absurd heq (hunused r hr r' hr')
      · rw [List.inj_on_of_nodup_map hnames hr' hr heq]
  · rw [foldl_update_of_notMem hs, h s id]
    refine ⟨.inl, fun hor => hor.resolve_right ?_⟩
    rintro ⟨r, hr, rfl, -⟩
    exact hs (List.mem_map_of_mem hr)

/-- Records leave with their names. -/
lemma NamesOf.removeAll (h : NamesOf names S nameOf idOf)
    (hS : ∀ s id, (∃ r, S' r ∧ nameOf r = s ∧ idOf r = id) ↔
      (∃ r, S r ∧ nameOf r = s ∧ idOf r = id) ∧ s ∉ l.map nameOf) :
    NamesOf (l.foldl (fun names r => Function.update names (nameOf r) none) names) S'
      nameOf idOf := by
  intro s id
  rw [hS, ← h s id]
  by_cases hs : s ∈ l.map nameOf
  · have hnone : l.foldl (fun names r => Function.update names (nameOf r) none) names s = none := by
      clear h hS
      induction l generalizing names with
      | nil => cases hs
      | cons r l ih =>
        rw [List.foldl_cons]
        by_cases hl : s ∈ l.map nameOf
        · exact ih hl
        · rw [foldl_update_of_notMem hl]
          rcases List.mem_cons.1 hs with rfl | hs
          · exact Function.update_self _ _ _
          · exact absurd hs hl
    rw [hnone]
    simp [hs]
  · rw [foldl_update_of_notMem hs]
    simp [hs]

end Names

end PathHydra
