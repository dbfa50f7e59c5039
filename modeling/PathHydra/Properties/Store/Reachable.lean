import PathHydra.Properties.Store.Confirm
import PathHydra.Properties.Store.Validate

/-!
# Every reachable catalog is valid

A fresh catalog satisfies the invariant, every call keeps it, and the invariant passes the checks of
opening.  So a catalog reached by any sequence of calls can be opened again, with the exact-name
maps it has, and no call finds a corrupt record.
-/

namespace PathHydra

/-! ## A fresh catalog -/

/-- The tables of a fresh catalog. -/
def Tables.fresh : Tables where
  candidates := .empty
  nodes := .empty
  relations := .empty
  edges := .empty
  metadata := ⟨INITIAL_ID, INITIAL_ID, INITIAL_ID, INITIAL_ID, none⟩

/-- The database of a fresh catalog. -/
def Database.fresh : Database := Database.empty.write (metadataCounters.map fun (key, _) =>
  .put .default key (encodeU64Record INITIAL_ID))

/-- A fresh catalog. -/
def Catalog.fresh : Catalog := ⟨Database.fresh, fun _ => none, fun _ => none⟩

lemma indexes_empty {A : Type} {S : A → Prop} (key val : A → Bytes) (h : ∀ a, ¬ S a) :
    Indexes (SortedMap.empty : SortedMap Bytes Bytes) S key val := by
  intro k v
  simp only [SortedMap.get_empty, reduceCtorEq, false_iff]
  rintro ⟨a, ha, -⟩
  exact h a ha

lemma stored_empty {k : IdKind} {R : Type} (idOf : R → DurableId k) (val : R → Bytes)
    (decode : Bytes → U64 → Except CodecError R) : Stored .empty .empty idOf val decode :=
  ⟨indexes_empty _ _ fun _ h => by simp at h, fun _ _ h => by simp at h, fun _ _ h => by simp at h⟩

lemma metadata_fresh : MetadataOf (Database.fresh .default) Tables.fresh.metadata := by
  have hdefault : Database.fresh .default =
      (((SortedMap.empty.insert MetadataKey.nextCandidate.bytes (encodeU64Record INITIAL_ID)).insert
        MetadataKey.nextNode.bytes (encodeU64Record INITIAL_ID)).insert
        MetadataKey.nextRelation.bytes (encodeU64Record INITIAL_ID)).insert
        MetadataKey.nextEdge.bytes (encodeU64Record INITIAL_ID) := rfl
  rw [hdefault]
  constructor
  · intro key
    simp only [SortedMap.get_insert, Represents.metadataKey_injective.eq_iff, SortedMap.get_empty]
    cases key <;> rfl
  · intro e he
    simp only [SortedMap.mem_insert_entries] at he
    rcases he with rfl | ⟨rfl | ⟨rfl | ⟨rfl | ⟨he, -⟩, -⟩, -⟩, -⟩
    · exact ⟨.nextEdge, rfl⟩
    · exact ⟨.nextRelation, rfl⟩
    · exact ⟨.nextNode, rfl⟩
    · exact ⟨.nextCandidate, rfl⟩
    · cases he

lemma fresh_inv : CatalogInv .fresh .fresh where
  represents :=
    { candidates := stored_empty _ _ _
      nodes := stored_empty _ _ _
      nodeNames := indexes_empty _ _ fun _ h => by cases h
      relations := stored_empty _ _ _
      relationNames := indexes_empty _ _ fun _ h => by cases h
      popularity := indexes_empty _ _ fun _ h => by cases h
      edges := stored_empty _ _ _
      outgoing := indexes_empty _ _ fun _ h => by cases h
      incoming := indexes_empty _ _ fun _ h => by cases h
      metadata := metadata_fresh }
  writable := by
    refine ⟨fun _ _ h => ?_, fun _ h => ?_, fun _ h => ?_, fun _ _ h => ?_, fun _ _ h => ?_⟩
    all_goals cases h
  consistent := by
    refine ⟨fun _ h => ?_, fun _ _ h => ?_, fun _ _ _ h => ?_, fun _ h => ?_, fun _ h => ?_⟩
    all_goals cases h
  counted := by
    refine ⟨fun _ _ h => ?_, fun _ _ h => ?_, fun _ _ h => ?_, fun _ _ h => ?_,
      ⟨le_rfl, le_rfl, le_rfl, le_rfl⟩, fun _ h => ?_⟩
    all_goals cases h
  nodeNames := by
    refine fun s id => ⟨fun h => (by cases h), ?_⟩
    rintro ⟨_, h, -⟩
    cases h
  relationNames := by
    refine fun s id => ⟨fun h => (by cases h), ?_⟩
    rintro ⟨_, h, -⟩
    cases h

/-- Opening an empty database gives the fresh catalog. -/
lemma openCatalog_empty : openCatalog .written Database.empty = .ok .fresh := by
  have hinit : initializeMetadata .written Database.empty = .ok Database.fresh := rfl
  obtain ⟨hmetadata, hrebuild⟩ := fresh_inv.validates
  have hmetadata' : validateMetadataRecords Database.fresh = .ok () := hmetadata
  have hrebuild' : rebuildIndexesAndValidate Database.fresh =
      .ok (Catalog.fresh.nodeNames, Catalog.fresh.relationNames) := hrebuild
  simp only [openCatalog, hinit, hmetadata', hrebuild', ok_bind]
  rfl

/-! ## Every call -/

/-- The call sets a bundle name that is too long to store. -/
def CatalogCall.NameTooLong : CatalogCall → Prop
  | .setActiveRoutingImage pointer => 2 ^ 32 ≤ (strBytes pointer.relativeBundle).length
  | _ => False

variable {c : Catalog} {t : Tables}

/-- A call keeps the invariant, and fails without reporting a corrupt record. -/
lemma CatalogCall.run_ensures (inv : CatalogInv c t) (disk : WriteAnswer) {call : CatalogCall}
    (hcall : ¬ call.NameTooLong) :
    RunEnsures (call.run disk) c
      (fun _ c' => ∃ t', CatalogInv c' t' ∧ t.Evolves t' ∧ t.Fills t') NotCorrupt := by
  rcases call with entries | ids | ⟨ids, limit⟩ | id | id | pointer | _
  · exact (insertCandidateBatch_ensures inv disk entries).map _
      fun _ _ ⟨_, _, _, _, h⟩ => ⟨_, h.inv, h.evolves inv, h.fills⟩
  · exact (confirm_ensures inv disk ids u64Max).map _ fun _ _ ⟨t', h, he, hf, _⟩ => ⟨t', h, he, hf⟩
  · exact (confirm_ensures inv disk ids limit).map _ fun _ _ ⟨t', h, he, hf, _⟩ => ⟨t', h, he, hf⟩
  · exact (removeEdge_ensures inv disk id).map _ fun _ _ ⟨t', h, _, he⟩ => ⟨t', h, he⟩
  · exact (removeNode_ensures inv disk id).map _ fun _ _ ⟨t', h, _, he⟩ => ⟨t', h, he⟩
  · exact (setActiveRoutingImage_ensures inv disk (not_le.1 hcall)).map
      (fun _ => CallResult.done) fun _ _ h => ⟨_, h, { Tables.Evolves.refl t with },
        .of_counters fun k => by cases k <;> rfl⟩
  · exact (clearActiveRoutingImage_ensures inv disk).map (fun _ => CallResult.done)
      fun _ _ h => ⟨_, h, { Tables.Evolves.refl t with }, .of_counters fun k => by cases k <;> rfl⟩

/-- A name that is too long is refused as a corrupt record. -/
lemma CatalogCall.run_nameTooLong (disk : WriteAnswer) {call : CatalogCall} (c : Catalog)
    (hcall : call.NameTooLong) :
    call.run disk c = .error (corrupt "default" "active-routing-image"
      "relative bundle name is too long") c := by
  cases call with
  | setActiveRoutingImage pointer =>
    have hlong : ¬ (strBytes pointer.relativeBundle).length < 2 ^ 32 := not_lt.2 hcall
    simp only [CatalogCall.run, PathHydra.setActiveRoutingImage, if_neg hlong]
    rfl
  | _ => exact False.elim hcall

/-- The outcome reports a corrupt record. -/
def ReportsCorrupt (outcome : Except CatalogError CallResult) : Prop :=
  ∃ e, outcome = .error e ∧ e.IsCorrupt

/-- One call keeps the invariant, and reports a corrupt record only for a name that is too long. -/
lemma catalogMachine_step {action : CatalogCall × WriteAnswer} {c' : Catalog}
    {out : CatalogCall × Except CatalogError CallResult} (inv : CatalogInv c t)
    (hstep : catalogMachine.step c action = some (c', out)) :
    (∃ t', CatalogInv c' t' ∧ t.Evolves t' ∧ t.Fills t') ∧
      (ReportsCorrupt out.2 ↔ out.1.NameTooLong) := by
  obtain ⟨call, disk⟩ := action
  simp only [catalogMachine] at hstep
  by_cases hcall : call.NameTooLong
  · rw [call.run_nameTooLong disk c hcall] at hstep
    cases hstep
    exact ⟨⟨t, inv, .refl t, .of_counters fun _ => rfl⟩, iff_of_true ⟨_, rfl, trivial⟩ hcall⟩
  · have hrun := CatalogCall.run_ensures inv disk hcall
    rcases hresult : call.run disk c with ⟨result, c''⟩ | ⟨e, c''⟩
    · rw [hresult] at hstep
      cases hstep
      refine ⟨hrun.of_ok hresult, iff_of_false ?_ hcall⟩
      rintro ⟨e, he, -⟩
      cases he
    · rw [hresult] at hstep
      cases hstep
      obtain ⟨rfl, hnot⟩ := hrun.of_error hresult
      refine ⟨⟨t, inv, .refl t, .of_counters fun _ => rfl⟩, iff_of_false ?_ hcall⟩
      rintro ⟨e', he', hcorrupt⟩
      cases he'
      exact hnot hcorrupt

/-- Every sequence of calls runs. -/
lemma catalogMachine_run_total (c : Catalog) (actions : List (CatalogCall × WriteAnswer)) :
    ∃ c' outs, catalogMachine.run c actions = some (c', outs) := by
  induction actions generalizing c with
  | nil => exact ⟨c, [], rfl⟩
  | cons action rest ih =>
    obtain ⟨c', out, hstep⟩ : ∃ c' out, catalogMachine.step c action = some (c', out) := by
      simp only [catalogMachine]
      rcases action.1.run action.2 c with ⟨result, c'⟩ | ⟨e, c'⟩
      · exact ⟨c', _, rfl⟩
      · exact ⟨c', _, rfl⟩
    obtain ⟨c'', outs, hrun⟩ := ih c'
    exact ⟨c'', out :: outs, by simp [Machine.run, hstep, hrun]⟩

/-- Whatever calls are made on a freshly initialised catalog, and whatever the disk answers, the
database passes validation, the rebuilt exact-name maps are those kept in memory, and a call reports
a corrupt record only when it sets a bundle name of at least `2 ^ 32` bytes. -/
theorem catalog_reachable {c₀ c : Catalog} {actions : List (CatalogCall × WriteAnswer)}
    {outs : List (CatalogCall × Except CatalogError CallResult)}
    (hopen : openCatalog .written Database.empty = .ok c₀)
    (hrun : catalogMachine.run c₀ actions = some (c, outs)) :
    validateMetadataRecords c.db = .ok () ∧
    rebuildIndexesAndValidate c.db = .ok (c.nodeNames, c.relationNames) ∧
    ∀ call outcome, (call, outcome) ∈ outs → (ReportsCorrupt outcome ↔ call.NameTooLong) := by
  obtain rfl : c₀ = .fresh := Except.ok.inj (hopen.symm.trans openCatalog_empty)
  obtain ⟨⟨t, inv⟩, houts⟩ := Machine.run_outputs (I := fun c => ∃ t, CatalogInv c t)
    (P := fun out => ReportsCorrupt out.2 ↔ out.1.NameTooLong) (fun _ _ _ _ hinv hstep => by
      obtain ⟨t, inv⟩ := hinv
      obtain ⟨⟨t', inv', -⟩, hout⟩ := catalogMachine_step inv hstep
      exact ⟨⟨t', inv'⟩, hout⟩) ⟨_, fresh_inv⟩ hrun
  exact ⟨inv.validates.1, inv.validates.2, fun call outcome hmem => houts _ hmem⟩

/-- A node is inserted, confirmed and removed, with a full disk in between. -/
theorem catalog_reachable_node : ∃ c outs,
    catalogMachine.run .fresh
      [(.insertCandidateBatch [.node ⟨"a"⟩ ⟨[]⟩], .written),
        (.confirmCandidateBatch [⟨1⟩], .noSpace), (.confirmCandidateBatch [⟨1⟩], .written),
        (.removeNode ⟨1⟩, .written)] = some (c, outs) ∧
      validateMetadataRecords c.db = .ok () := by
  obtain ⟨c, outs, hrun⟩ := catalogMachine_run_total .fresh
    [(.insertCandidateBatch [.node ⟨"a"⟩ ⟨[]⟩], .written),
      (.confirmCandidateBatch [⟨1⟩], .noSpace), (.confirmCandidateBatch [⟨1⟩], .written),
      (.removeNode ⟨1⟩, .written)]
  exact ⟨c, outs, hrun, (catalog_reachable openCatalog_empty hrun).1⟩

/-- A pointer with a bundle name of so many characters. -/
def longBundle (n : ℕ) : ActiveRoutingImage where
  relativeBundle := String.ofList (List.replicate n 'a')
  manifestChecksum := ⟨List.replicate 32 0, length_zeroDigest⟩

lemma length_longBundle (n : ℕ) : (strBytes (longBundle n).relativeBundle).length = n := by
  show (String.ofList (List.replicate n 'a')).utf8ByteSize = n
  induction n with
  | zero => rfl
  | succ n ih =>
    rw [List.replicate_succ', String.ofList_append, String.utf8ByteSize_append, ih]
    rfl

lemma longBundle_reports {n : ℕ} (h : 2 ^ 32 ≤ n) : ∃ c outs,
    openCatalog .written Database.empty = .ok .fresh ∧
    catalogMachine.run .fresh [(.setActiveRoutingImage (longBundle n), .written)] = some (c, outs) ∧
    ∃ call outcome, (call, outcome) ∈ outs ∧ ReportsCorrupt outcome := by
  have hlong : (CatalogCall.setActiveRoutingImage (longBundle n)).NameTooLong := by
    show 2 ^ 32 ≤ (strBytes (longBundle n).relativeBundle).length
    rw [length_longBundle]
    exact h
  have hrun := CatalogCall.run_nameTooLong .written Catalog.fresh hlong
  refine ⟨.fresh, [(.setActiveRoutingImage (longBundle n), .error (corrupt "default"
    "active-routing-image" "relative bundle name is too long"))], openCatalog_empty, ?_, _, _,
    List.mem_singleton_self _, _, rfl, trivial⟩
  simp only [Machine.run, catalogMachine, hrun]
  rfl

/-- Setting a name of `2 ^ 32` bytes on a fresh catalog reports a corrupt record. -/
theorem catalog_reports_corrupt : ∃ c outs,
    openCatalog .written Database.empty = .ok .fresh ∧
    catalogMachine.run .fresh [(.setActiveRoutingImage (longBundle (2 ^ 32)), .written)] =
      some (c, outs) ∧
    ∃ call outcome, (call, outcome) ∈ outs ∧ ReportsCorrupt outcome :=
  longBundle_reports le_rfl

/-! ## Failed calls -/

/-- A failed call changes nothing: whatever the state, the arguments, the counters and the answer
of the disk, every key of every column family and both exact-name maps are as before, and any later
sequence of calls runs as if the call had not been made. -/
theorem failed_call_changes_nothing (c c' : Catalog) (call : CatalogCall) (disk : WriteAnswer)
    (e : CatalogError) (hfail : call.run disk c = .error e c') :
    (∀ family key, (c'.db family).get key = (c.db family).get key) ∧
    c'.nodeNames = c.nodeNames ∧ c'.relationNames = c.relationNames ∧
    ∀ later, catalogMachine.run c' later = catalogMachine.run c later := by
  obtain ⟨rfl, -⟩ := (call.run_atomic disk c).of_error hfail
  exact ⟨fun _ _ => rfl, rfl, rfl, fun _ => rfl⟩

/-- The error of a call that fails. -/
def CatalogCall.errorOf (call : CatalogCall) (disk : WriteAnswer) (c : Catalog) :
    Option CatalogError :=
  match call.run disk c with
  | .ok _ _ => none
  | .error e _ => some e

lemma CatalogCall.errorOf_eq_some {call : CatalogCall} {disk : WriteAnswer} {c : Catalog}
    {e : CatalogError} (h : call.errorOf disk c = some e) : ∃ c', call.run disk c = .error e c' := by
  unfold errorOf at h
  split at h
  · cases h
  · rename_i c' hrun
    cases h
    exact ⟨c', hrun⟩

/-- A node with an edge to itself is confirmed. -/
def loopCalls : List (CatalogCall × WriteAnswer) :=
  [(.insertCandidateBatch [.node ⟨"a"⟩ ⟨[]⟩, .relationKind ⟨"r"⟩,
      .edge (.batchNode 0) (.batchNode 0) (.batchRelationKind 1) ⟨0, BaseWeight.zeroBits_le⟩],
      .written),
    (.confirmCandidateBatch [⟨1⟩, ⟨2⟩, ⟨3⟩], .written)]

/-- Another node with such an edge waits to be confirmed. -/
def waitingCalls : List (CatalogCall × WriteAnswer) :=
  loopCalls ++ [(.insertCandidateBatch [.node ⟨"b"⟩ ⟨[7]⟩,
    .edge (.batchNode 0) (.batchNode 0) (.confirmed ⟨1⟩) ⟨0, BaseWeight.zeroBits_le⟩], .written)]

/-- Calls that fail after they were planned: for the disk, or for the length of the response. -/
def failingCalls : List (CatalogCall × WriteAnswer × CatalogError) :=
  [(.insertCandidateBatch [.node ⟨"c"⟩ ⟨[]⟩,
      .edge (.batchNode 0) (.confirmed ⟨1⟩) (.confirmed ⟨1⟩) ⟨0, BaseWeight.zeroBits_le⟩],
      .noSpace, .storageExhausted "catalog write"),
    (.confirmCandidateBatch [⟨4⟩, ⟨5⟩], .failed "closed", .rocksDb "closed"),
    (.confirmCandidateBatchWithResponseLimit [⟨4⟩, ⟨5⟩] 300, .written,
      .invalidBatch "the required success response exceeds its configured byte limit"),
    (.removeEdge ⟨1⟩, .noSpace, .storageExhausted "catalog write"),
    (.removeNode ⟨1⟩, .noSpace, .storageExhausted "catalog write")]

/-- No identifier is left for a second candidate. -/
def lastCandidate : Catalog :=
  { Catalog.fresh with
    db := Catalog.fresh.db.write
      [.put .default MetadataKey.nextCandidate.bytes (encodeU64Record (Fin.last _))] }

theorem failed_call_changes_nothing_waiting :
    (∃ c outs, catalogMachine.run .fresh waitingCalls = some (c, outs) ∧
      c.nodeNames "a" = some ⟨1⟩ ∧ ∀ call disk e, (call, disk, e) ∈ failingCalls →
        ∃ c', call.run disk c = .error e c' ∧ (∀ family key,
          (c'.db family).get key = (c.db family).get key) ∧ c'.nodeNames = c.nodeNames ∧
          ∀ later, catalogMachine.run c' later = catalogMachine.run c later) ∧
    ∃ c', (CatalogCall.insertCandidateBatch [.node ⟨"c"⟩ ⟨[]⟩]).run .written lastCandidate =
        .error (.counterOverflow "candidate ID") c' ∧
      ∀ later, catalogMachine.run c' later = catalogMachine.run lastCandidate later := by
  constructor
  · obtain ⟨c, outs, hrun⟩ := catalogMachine_run_total .fresh waitingCalls
    have hfailing : (catalogMachine.run .fresh waitingCalls).map (fun s =>
        (s.1.nodeNames "a", decide (∀ a ∈ failingCalls, a.1.errorOf a.2.1 s.1 = some a.2.2))) =
          some (some ⟨1⟩, true) := by
      decide +kernel
    rw [hrun, Option.map_some, Option.some.injEq, Prod.mk.injEq, decide_eq_true_eq] at hfailing
    refine ⟨c, outs, hrun, hfailing.1, fun call disk e hmem => ?_⟩
    obtain ⟨c', hfail⟩ := CatalogCall.errorOf_eq_some (hfailing.2 _ hmem)
    obtain ⟨hdb, hnames, -, hlater⟩ := failed_call_changes_nothing c c' call disk e hfail
    exact ⟨c', hfail, hdb, hnames, hlater⟩
  · have hoverflow : (CatalogCall.insertCandidateBatch [.node ⟨"c"⟩ ⟨[]⟩]).errorOf .written
        lastCandidate = some (.counterOverflow "candidate ID") := by
      decide +kernel
    obtain ⟨c', hfail⟩ := CatalogCall.errorOf_eq_some hoverflow
    exact ⟨c', hfail, (failed_call_changes_nothing _ c' _ _ _ hfail).2.2.2⟩

end PathHydra
