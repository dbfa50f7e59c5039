import PathHydra.Properties.Engine.Publication

/-!
# The invariant of publication

What holds between the catalog, the routing-image root and the engine in every reachable state:
what anything refers to is on the disk, the pointer and the published image are of the current
confirmed graph, and a writer knows about its build what its next stage relies on.
-/

namespace PathHydra

/-- The stages of the build of a startup. -/
def WriterStage.starts : WriterStage → Bool
  | .awaitCapacity | .mutate | .countLeases _ | .retire _ _ _ | .swap _ => false
  | _ => true

/-- The published image is still that of the confirmed graph: a mutation has not changed it yet. -/
def Writer.keepsImage (w : Writer) : Bool :=
  match w.kind, w.stage with
  | .mutation _, .awaitCapacity | .mutation _, .mutate => true
  | .mutation _, _ => false
  | _, _ => true

namespace PublicationSystem

variable {config : PublicationConfig} {action : PublicationAction} {s s' : PublicationSystem}
  {t t' : Tables}

/-- No handle outside the writer, and no retired bundle, has this name. -/
structure Unshared (s : PublicationSystem) (name : String) : Prop where
  outside : ∀ bundle ∈ s.outside, bundle.root ≠ name
  retired : ∀ e ∈ s.retired, e.path ≠ name

/-- The child is complete and holds the confirmed graph. -/
structure Ready (s : PublicationSystem) (t : Tables) (name : String)
    (graph : ConfirmedGraphRecords) : Prop where
  child : s.Child name graph
  denotes : t.Denotes graph

/-- The child a pointer names is ready, under its checksum, and is not a temporary one. -/
structure Pointed (config : PublicationConfig) (s : PublicationSystem) (t : Tables)
    (pointer : ActiveRoutingImage) : Prop where
  ready : ∃ graph, s.Ready t pointer.relativeBundle graph ∧
    pointer.manifestChecksum = config.manifestChecksum graph
  final : startsWith ".tmp-" pointer.relativeBundle = false

/-- The writer has put the bundle under the pointer. -/
structure Placed (config : PublicationConfig) (s : PublicationSystem) (t : Tables)
    (bundle : BundleHandle) : Prop where
  unshared : s.Unshared bundle.root
  ready : s.Ready t bundle.root bundle.graph
  pointer : t.metadata.pointer = some ⟨bundle.root, config.manifestChecksum bundle.graph⟩

/-- What a writer knows at a stage. -/
def StageSound (config : PublicationConfig) (s : PublicationSystem) (t : Tables) :
    WriterStage → Prop
  | .writeFiles sequence =>
    s.Unshared (temporaryName s.process sequence) ∧
      s.hasChild (temporaryName s.process sequence) = true
  | .validate sequence graph | .rename sequence graph =>
    s.Unshared (temporaryName s.process sequence) ∧
      s.Ready t (temporaryName s.process sequence) graph
  | .openFinal name =>
    s.Unshared name ∧ (∃ graph, s.Ready t name graph) ∧ startsWith ".tmp-" name = false
  | .commitPointer bundle =>
    s.Unshared bundle.root ∧ s.Ready t bundle.root bundle.graph ∧
      startsWith ".tmp-" bundle.root = false
  | .selectTopology bundle | .countLeases bundle | .swap bundle => Placed config s t bundle
  | .retire bundle current _ =>
    Placed config s t bundle ∧ s.published.map ExecutionImage.bundle = some current
  | _ => True

/-- What a phase of the engine excludes. -/
structure PhaseSound (s : PublicationSystem) (t : Tables) : Prop where
  idle : s.phase ≠ .running → s.leases = [] ∧ s.jobs = [] ∧ s.retired = []
  published : ∀ image, s.published = some image → s.phase = .running ∨
    (s.phase = .cleaning true ∧
      ∃ p, t.metadata.pointer = some p ∧ p.relativeBundle = image.bundle.root)
  writer : ∀ w, s.writer = some w → (s.phase = .running ∧ w.kind ≠ .startup) ∨
    (s.phase = .building ∧ w.kind = .startup ∧ w.stage.starts = true)

/-- The invariant of publication, with the tables of the catalog. -/
structure Inv (config : PublicationConfig) (s : PublicationSystem) (t : Tables) : Prop where
  catalog : CatalogInv s.catalog t
  names : (s.disk.map ChildDirectory.name).Nodup
  handles : ∀ bundle ∈ s.outside, s.Child bundle.root bundle.graph
  retired : ∀ e ∈ s.retired, s.hasChild e.path = true
  unpointed : ∀ e ∈ s.retired, ∀ p, t.metadata.pointer = some p → e.path ≠ p.relativeBundle
  pointer : ∀ p, t.metadata.pointer = some p → Pointed config s t p
  fresh : ∀ image, s.published = some image →
    (∀ w, s.writer = some w → w.keepsImage = true) → t.Denotes image.bundle.graph
  stage : ∀ w, s.writer = some w → StageSound config s t w.stage
  mutation : ∀ call stage, s.writer = some ⟨.mutation call, stage⟩ → isMutation call = true
  phase : PhaseSound s t

/-- The pointer as the engine reads it. -/
lemma Inv.pointerName_eq (h : Inv config s t) :
    s.pointerName = t.metadata.pointer.map ActiveRoutingImage.relativeBundle := by
  simp only [pointerName, h.catalog.readPointer]

/-! ## Names -/

lemma startsWith_append (pre rest : String) : startsWith pre (pre ++ rest) = true := by
  simp [startsWith]

lemma temporaryName_startsWith (process sequence : ℕ) :
    startsWith ".tmp-" (temporaryName process sequence) = true := by
  rw [temporaryName, String.append_assoc, String.append_assoc]
  exact startsWith_append _ _

lemma bundleName_not_temporary (checksum : Digest) (process suffix : ℕ) :
    startsWith ".tmp-" (bundleName checksum process suffix) = false := by
  simp [startsWith, bundleName, List.isPrefixOf]

/-! ## What survives a change of the surroundings -/

lemma Unshared.mono {name : String} (h : s.Unshared name)
    (houtside : ∀ bundle ∈ s'.outside, bundle ∈ s.outside)
    (hretired : ∀ e ∈ s'.retired, e ∈ s.retired) : s'.Unshared name :=
  ⟨fun bundle hb => h.outside bundle (houtside bundle hb), fun e he => h.retired e (hretired e he)⟩

/-- What a step leaves of what is known about names that are not shared: fewer handles and retired
bundles, the same pointer and graph, and all children but those of retired bundles. -/
structure Surrounds (s : PublicationSystem) (t : Tables) (s' : PublicationSystem) (t' : Tables) :
    Prop where
  process : s'.process = s.process
  published : s'.published.map ExecutionImage.bundle = s.published.map ExecutionImage.bundle
  outside : ∀ bundle ∈ s'.outside, bundle ∈ s.outside
  retired : ∀ e ∈ s'.retired, e ∈ s.retired
  pointer : t'.metadata.pointer = t.metadata.pointer
  denotes : ∀ {graph}, t.Denotes graph → t'.Denotes graph
  disk : ∀ child ∈ s.disk, (∀ e ∈ s.retired, e.path ≠ child.name) → child ∈ s'.disk

namespace Surrounds

variable (h : Surrounds s t s' t')

include h

lemma ready {name : String} {graph : ConfirmedGraphRecords} (hname : s.Unshared name)
    (hready : s.Ready t name graph) : s'.Ready t' name graph :=
  ⟨h.disk _ hready.child hname.retired, h.denotes hready.denotes⟩

lemma placed {bundle : BundleHandle} (hplaced : Placed config s t bundle) :
    Placed config s' t' bundle :=
  ⟨hplaced.unshared.mono h.outside h.retired, h.ready hplaced.unshared hplaced.ready,
    h.pointer.trans hplaced.pointer⟩

/-- A writer still knows what it knew. -/
lemma stageSound {stage : WriterStage} (hstage : StageSound config s t stage) :
    StageSound config s' t' stage := by
  have hunshared : ∀ {name}, s.Unshared name → s'.Unshared name :=
    fun hname => hname.mono h.outside h.retired
  rcases stage with _ | _ | _ | _ | sequence | ⟨sequence, graph⟩ | ⟨sequence, graph⟩ | name |
    bundle | bundle | bundle | ⟨bundle, current, enforce⟩ | bundle
  · trivial
  · trivial
  · trivial
  · trivial
  · simp only [StageSound, h.process] at hstage ⊢
    refine ⟨hunshared hstage.1, ?_⟩
    obtain ⟨child, hmem, hname⟩ := hasChild_iff.1 hstage.2
    exact hasChild_iff.2 ⟨child, h.disk child hmem fun e he => hname ▸ hstage.1.retired e he, hname⟩
  · simp only [StageSound, h.process] at hstage ⊢
    exact ⟨hunshared hstage.1, h.ready hstage.1 hstage.2⟩
  · simp only [StageSound, h.process] at hstage ⊢
    exact ⟨hunshared hstage.1, h.ready hstage.1 hstage.2⟩
  · obtain ⟨hname, ⟨graph, hready⟩, hfinal⟩ := hstage
    exact ⟨hunshared hname, ⟨graph, h.ready hname hready⟩, hfinal⟩
  · obtain ⟨hname, hready, hfinal⟩ := hstage
    exact ⟨hunshared hname, h.ready hname hready, hfinal⟩
  · exact h.placed hstage
  · exact h.placed hstage
  · refine ⟨h.placed hstage.1, ?_⟩
    rw [h.published]
    exact hstage.2
  · exact h.placed hstage

lemma published_eq_some {image : ExecutionImage} (himage : s'.published = some image) :
    ∃ old, s.published = some old ∧ old.bundle = image.bundle := by
  have hmap := h.published
  rw [himage, Option.map_some, eq_comm] at hmap
  exact Option.map_eq_some_iff.1 hmap

/-- The invariant after a step that leaves the writer and the phase. -/
lemma inv (hinv : Inv config s t) (hcatalog : CatalogInv s'.catalog t')
    (hnames : (s'.disk.map ChildDirectory.name).Nodup)
    (hdisk : ∀ child ∈ s.disk, child.name ∈ s.outside.map BundleHandle.root → child ∈ s'.disk)
    (hretired : ∀ e ∈ s'.retired, s'.hasChild e.path = true)
    (hwriter : s'.writer = s.writer) (hphase : s'.phase = s.phase)
    (hidle : s.phase ≠ .running → s'.leases = [] ∧ s'.jobs = [] ∧ s'.retired = []) :
    Inv config s' t' where
  catalog := hcatalog
  names := hnames
  handles bundle hb := by
    have hold := h.outside bundle hb
    exact hdisk _ (hinv.handles bundle hold) (List.mem_map.2 ⟨bundle, hold, rfl⟩)
  retired := hretired
  unpointed e he p hp := by
    rw [h.pointer] at hp
    exact hinv.unpointed e (h.retired e he) p hp
  pointer p hp := by
    rw [h.pointer] at hp
    obtain ⟨⟨graph, hready, hchecksum⟩, hfinal⟩ := hinv.pointer p hp
    refine ⟨⟨graph, ⟨?_, h.denotes hready.denotes⟩, hchecksum⟩, hfinal⟩
    exact h.disk _ hready.child fun e he => hinv.unpointed e he p hp
  fresh image himage hkeeps := by
    obtain ⟨old, hold, hbundle⟩ := h.published_eq_some himage
    rw [hwriter] at hkeeps
    rw [← hbundle]
    exact h.denotes (hinv.fresh old hold hkeeps)
  stage w hw := by
    rw [hwriter] at hw
    exact h.stageSound (hinv.stage w hw)
  mutation call stage hw := by
    rw [hwriter] at hw
    exact hinv.mutation call stage hw
  phase := by
    refine ⟨fun hrunning => ?_, fun image himage => ?_, fun w hw => ?_⟩
    · rw [hphase] at hrunning
      exact hidle hrunning
    · obtain ⟨old, hold, hbundle⟩ := h.published_eq_some himage
      rw [hphase, h.pointer, ← hbundle]
      exact hinv.phase.published old hold
    · rw [hwriter] at hw
      rw [hphase]
      exact hinv.phase.writer w hw

end Surrounds

/-- The invariant after a step that leaves everything but handles outside the writer. -/
lemma Inv.of_handles (hinv : Inv config s t) (hcatalog : s'.catalog = s.catalog)
    (hdisk : s'.disk = s.disk) (hprocess : s'.process = s.process)
    (hpublished : s'.published.map ExecutionImage.bundle = s.published.map ExecutionImage.bundle)
    (houtside : ∀ bundle ∈ s'.outside, bundle ∈ s.outside) (hretired : s'.retired = s.retired)
    (hwriter : s'.writer = s.writer) (hphase : s'.phase = s.phase)
    (hidle : s.phase ≠ .running → s'.leases = [] ∧ s'.jobs = []) : Inv config s' t := by
  have h : Surrounds s t s' t :=
    { process := hprocess
      published := hpublished
      outside := houtside
      retired := fun e he => hretired ▸ he
      pointer := rfl
      denotes := id
      disk := fun child hmem _ => hdisk ▸ hmem }
  refine h.inv hinv (hcatalog ▸ hinv.catalog) (hdisk ▸ hinv.names) (fun child hmem _ => hdisk ▸ hmem)
    (fun e he => ?_) hwriter hphase fun hrunning => ?_
  · rw [hasChild, hdisk]
    exact hinv.retired e (hretired ▸ he)
  · obtain ⟨hleases, hjobs⟩ := hidle hrunning
    exact ⟨hleases, hjobs, hretired.trans (hinv.phase.idle hrunning).2.2⟩

/-- A reap keeps the invariant. -/
lemma Inv.reap (hinv : Inv config s t) (failing : List String) : Inv config (s.reap failing) t := by
  have h : Surrounds s t (s.reap failing) t :=
    { process := rfl
      published := rfl
      outside := fun _ hb => hb
      retired := fun e he => (mem_reap_retired.1 he).1
      pointer := rfl
      denotes := id
      disk := fun child hmem hretired =>
        mem_reap_disk.2 ⟨hmem, fun e he hname => absurd hname.symm (hretired e he)⟩ }
  refine h.inv hinv hinv.catalog ?_ (fun child hmem hroot => ?_) (fun e he => ?_) rfl rfl
    fun hrunning => ?_
  · refine hinv.names.sublist (List.Sublist.map _ ?_)
    simp only [PublicationSystem.reap, reapLoop_eq]
    exact List.filter_sublist
  · refine mem_reap_disk.2 ⟨hmem, fun e _ hname => .inl (alive_iff.2 ?_)⟩
    obtain ⟨bundle, hb, hbundle⟩ := List.mem_map.1 hroot
    exact ⟨bundle, mem_handles.2 (.inl hb), hbundle.trans hname⟩
  · obtain ⟨hold, hkept⟩ := mem_reap_retired.1 he
    obtain ⟨child, hmem, hname⟩ := hasChild_iff.1 (hinv.retired e hold)
    refine hasChild_iff.2 ⟨child, mem_reap_disk.2 ⟨hmem, fun e' _ hname' => ?_⟩, hname⟩
    rw [← hname', hname]
    exact hkept
  · obtain ⟨hleases, hjobs, hretired⟩ := hinv.phase.idle hrunning
    refine ⟨hleases, hjobs, List.eq_nil_iff_forall_not_mem.2 fun e he => ?_⟩
    have hmem := (mem_reap_retired.1 he).1
    rw [hretired] at hmem
    cases hmem

/-- Candidates are inserted. -/
lemma Inv.insert (hinv : Inv config s t) {answer : WriteAnswer}
    {entries : List CandidateBatchEntry} {catalog : Catalog}
    (hrun : (∃ r, insertCandidateBatch answer entries s.catalog = .ok r catalog) ∨
      ∃ e, insertCandidateBatch answer entries s.catalog = .error e catalog) :
    ∃ t', Inv config { s with catalog := catalog } t' := by
  obtain ⟨t', inv', hsame, hpointer⟩ := hinv.catalog.insertCandidates hrun
  have h : Surrounds s t { s with catalog := catalog } t' :=
    { process := rfl
      published := rfl
      outside := fun _ hb => hb
      retired := fun _ he => he
      pointer := hpointer
      denotes := fun hd => hd.of_sameGraph hsame hinv.catalog inv'
      disk := fun _ hmem _ => hmem }
  exact ⟨t', h.inv hinv inv' hinv.names (fun _ hmem _ => hmem) hinv.retired rfl rfl
    hinv.phase.idle⟩

/-- The writer moves to another stage. -/
lemma Inv.setStage (hinv : Inv config s t) {kind : WriterKind} {stage : WriterStage}
    (hstage : StageSound config s t stage)
    (hkeeps : Writer.keepsImage ⟨kind, stage⟩ = true → ∀ w, s.writer = some w → w.keepsImage = true)
    (hmutation : ∀ call, kind = .mutation call → isMutation call = true)
    (hphase : (s.phase = .running ∧ kind ≠ .startup) ∨
      (s.phase = .building ∧ kind = .startup ∧ stage.starts = true)) :
    Inv config (s.setStage kind stage) t where
  catalog := hinv.catalog
  names := hinv.names
  handles := hinv.handles
  retired := hinv.retired
  unpointed := hinv.unpointed
  pointer p hp := ⟨(hinv.pointer p hp).ready.imp fun _ h => ⟨⟨h.1.child, h.1.denotes⟩, h.2⟩,
    (hinv.pointer p hp).final⟩
  fresh image himage hnew := hinv.fresh image himage (hkeeps (hnew _ rfl))
  stage w hw := by
    cases hw
    have h : Surrounds s t (s.setStage kind stage) t :=
      ⟨rfl, rfl, fun _ hb => hb, fun _ he => he, rfl, id, fun _ hmem _ => hmem⟩
    exact h.stageSound hstage
  mutation call stage' hw := by
    cases hw
    exact hmutation call rfl
  phase :=
    { idle := hinv.phase.idle
      published := hinv.phase.published
      writer := fun w hw => by
        cases hw
        exact hphase }

/-- The writer ends, or there is none; what it leaves published is of the graph. -/
lemma Inv.settle (hinv : Inv config s t) (hcatalog : CatalogInv s'.catalog t')
    (hdisk : s'.disk = s.disk) (houtside : ∀ bundle ∈ s'.outside, s.Child bundle.root bundle.graph)
    (hretired : ∀ e ∈ s'.retired, e ∈ s.retired)
    (hpointer : ∀ p, t'.metadata.pointer = some p → t.metadata.pointer = some p)
    (hdenotes : ∀ p, t'.metadata.pointer = some p → ∀ graph, t.Denotes graph → t'.Denotes graph)
    (hwriter : s'.writer = none)
    (hfresh : ∀ image, s'.published = some image → t'.Denotes image.bundle.graph)
    (hphase : PhaseSound s' t') : Inv config s' t' where
  catalog := hcatalog
  names := by
    rw [hdisk]
    exact hinv.names
  handles bundle hb := by
    rw [Child, hdisk]
    exact houtside bundle hb
  retired e he := by
    rw [hasChild, hdisk]
    exact hinv.retired e (hretired e he)
  unpointed e he p hp := hinv.unpointed e (hretired e he) p (hpointer p hp)
  pointer p hp := by
    obtain ⟨⟨graph, hready, hchecksum⟩, hfinal⟩ := hinv.pointer p (hpointer p hp)
    refine ⟨⟨graph, ⟨?_, hdenotes p hp graph hready.denotes⟩, hchecksum⟩, hfinal⟩
    rw [Child, hdisk]
    exact hready.child
  fresh image himage _ := hfresh image himage
  stage w hw := by
    rw [hwriter] at hw
    cases hw
  mutation call stage hw := by
    rw [hwriter] at hw
    cases hw
  phase := hphase

/-! ## The end of a writer -/

section Ends

variable {kind : WriterKind} {stage : WriterStage} {catalog : Catalog}

lemma Inv.running (hinv : Inv config s t) (hw : s.writer = some ⟨kind, stage⟩)
    (hkind : kind ≠ .startup) : s.phase = .running := by
  rcases hinv.phase.writer _ hw with ⟨hphase, -⟩ | ⟨-, hstartup, -⟩
  · exact hphase
  · exact absurd hstartup hkind

lemma Inv.starting (hinv : Inv config s t) (hw : s.writer = some ⟨.startup, stage⟩) :
    s.phase = .building ∧ stage.starts = true := by
  rcases hinv.phase.writer _ hw with ⟨-, hkind⟩ | ⟨hphase, -, hstarts⟩
  · exact absurd rfl hkind
  · exact ⟨hphase, hstarts⟩

/-- Nothing is published while the first image is built. -/
lemma Inv.unpublished (hinv : Inv config s t) (hphase : s.phase = .building) :
    s.published = none := by
  rcases hp : s.published with _ | image
  · rfl
  · rcases hinv.phase.published image hp with hrunning | ⟨hcleaning, -⟩
    · rw [hphase] at hrunning
      cases hrunning
    · rw [hphase] at hcleaning
      cases hcleaning

/-- The mutation leaves the graph as it is. -/
lemma Inv.endMutation (hinv : Inv config s t) {call : CatalogCall}
    (hw : s.writer = some ⟨.mutation call, .mutate⟩) (hcatalog : CatalogInv catalog t')
    (hpointer : t'.metadata.pointer = t.metadata.pointer)
    (hdenotes : ∀ graph, t.Denotes graph → t'.Denotes graph) :
    Inv config { s with catalog := catalog, writer := none } t' := by
  have hrunning := hinv.running hw (by simp)
  refine hinv.settle hcatalog rfl hinv.handles (fun _ he => he) (fun p hp => hpointer ▸ hp)
    (fun _ _ => hdenotes) rfl (fun image himage => ?_) ?_
  · refine hdenotes _ (hinv.fresh image himage fun w hw' => ?_)
    rw [hw] at hw'
    cases hw'
    rfl
  · exact ⟨fun hne => absurd hrunning hne, fun image _ => .inl hrunning, fun w hw' => by cases hw'⟩

/-- A build fails, with the pointer as it is or cleared. -/
lemma Inv.failBuild (hinv : Inv config s t) (hw : s.writer = some ⟨kind, stage⟩)
    (hcatalog : CatalogInv catalog t')
    (hpointer : ∀ p, t'.metadata.pointer = some p → t.metadata.pointer = some p)
    (hdenotes : ∀ graph, t.Denotes graph → t'.Denotes graph) :
    Inv config ({ s with catalog := catalog }.failBuild kind) t' := by
  have hhidden : ∀ {u : PublicationSystem}, u.published = none → u.leases = s.leases →
      u.jobs = s.jobs → ∀ bundle ∈ u.outside, s.Child bundle.root bundle.graph := by
    intro u hp hl hj bundle hb
    rw [mem_outside, hp, hl, hj] at hb
    refine hinv.handles bundle (mem_outside.2 (hb.imp ?_ id))
    rintro ⟨image, himage, -⟩
    cases himage
  rcases kind with call | _ | _
  · have hrunning := hinv.running hw (by simp)
    refine hinv.settle hcatalog rfl (hhidden rfl rfl rfl) (fun _ he => he) hpointer
      (fun _ _ => hdenotes) rfl (fun image himage => by cases himage) ?_
    exact ⟨fun hne => absurd hrunning hne, fun image himage => (by cases himage),
      fun w hw' => by cases hw'⟩
  · have hrunning := hinv.running hw (by simp)
    refine hinv.settle hcatalog rfl hinv.handles (fun _ he => he) hpointer
      (fun _ _ => hdenotes) rfl (fun image himage => ?_) ?_
    · refine hdenotes _ (hinv.fresh image himage fun w hw' => ?_)
      rw [hw] at hw'
      cases hw'
      rfl
    · exact ⟨fun hne => absurd hrunning hne, fun image _ => .inl hrunning, fun w hw' => by cases hw'⟩
  · obtain ⟨hbuilding, -⟩ := hinv.starting hw
    refine hinv.settle hcatalog rfl (hhidden rfl rfl rfl) (fun _ he => he) hpointer
      (fun _ _ => hdenotes) rfl (fun image himage => by cases himage) ?_
    refine ⟨fun _ => ?_, fun image himage => (by cases himage), fun w hw' => by cases hw'⟩
    exact hinv.phase.idle (by simp [hbuilding])

/-- The pointer is cleared before the build fails, when the catalog lets it. -/
lemma Inv.clearPointer (hinv : Inv config s t) (answer : WriteAnswer)
    (hw : s.writer = some ⟨kind, stage⟩) :
    ∃ t', Inv config ((s.clearPointer answer).failBuild kind) t' := by
  unfold PublicationSystem.clearPointer
  split
  · rename_i r catalog hrun
    exact ⟨_, hinv.failBuild hw (hinv.catalog.clearPointer hrun) (fun p hp => by cases hp)
      fun graph hgraph => hgraph.setPointer none⟩
  · rename_i e catalog hrun
    obtain rfl := CatalogInv.clearPointer_failed hrun
    exact ⟨t, hinv.failBuild hw hinv.catalog (fun _ hp => hp) fun _ hgraph => hgraph⟩

/-- The handles after an image of the writer's bundle is published. -/
lemma Placed.handles (hinv : Inv config s t) {bundle : BundleHandle}
    (hplaced : Placed config s t bundle) {image : ExecutionImage} (hp : s'.published = some image)
    (himage : image.bundle = bundle) (hl : s'.leases = s.leases) (hj : s'.jobs = s.jobs) :
    ∀ b ∈ s'.outside, s.Child b.root b.graph := by
  intro b hb
  rw [mem_outside, hp, hl, hj] at hb
  rcases hb with ⟨image', himage', rfl⟩ | hb
  · cases himage'
    rw [himage]
    exact hplaced.ready.child
  · exact hinv.handles b (mem_outside.2 (.inr hb))

/-- The image is swapped in. -/
lemma Inv.swapped (hinv : Inv config s t) {bundle : BundleHandle}
    (hw : s.writer = some ⟨kind, .swap bundle⟩) :
    Inv config { s with
      routing := .available ⟨s.nextAddress, bundle⟩, nextAddress := s.nextAddress + 1
      writer := none } t := by
  have hplaced : Placed config s t bundle := hinv.stage _ hw
  have hrunning : s.phase = .running := by
    rcases hinv.phase.writer _ hw with ⟨hphase, -⟩ | ⟨-, -, hstarts⟩
    · exact hphase
    · cases hstarts
  refine hinv.settle hinv.catalog rfl (hplaced.handles hinv rfl rfl rfl rfl) (fun _ he => he)
    (fun _ hp => hp) (fun _ _ _ hgraph => hgraph) rfl (fun image himage => ?_) ?_
  · cases himage
    exact hplaced.ready.denotes
  · exact ⟨fun hne => absurd hrunning hne, fun _ _ => .inl hrunning, fun w hw' => by cases hw'⟩

/-- The first image of a startup is published. -/
lemma Inv.started (hinv : Inv config s t) {bundle : BundleHandle}
    (hw : s.writer = some ⟨.startup, .selectTopology bundle⟩) :
    Inv config { s with
      routing := .available ⟨s.nextAddress, bundle⟩, nextAddress := s.nextAddress + 1
      writer := none, phase := .cleaning true } t := by
  have hplaced : Placed config s t bundle := hinv.stage _ hw
  obtain ⟨hbuilding, -⟩ := hinv.starting hw
  refine hinv.settle hinv.catalog rfl (hplaced.handles hinv rfl rfl rfl rfl) (fun _ he => he)
    (fun _ hp => hp) (fun _ _ _ hgraph => hgraph) rfl (fun image himage => ?_) ?_
  · cases himage
    exact hplaced.ready.denotes
  · refine ⟨fun _ => hinv.phase.idle (by simp [hbuilding]), fun image himage => ?_,
      fun w hw' => by cases hw'⟩
    cases himage
    exact .inr ⟨rfl, _, hplaced.pointer, rfl⟩

/-- Routing is shut down. -/
lemma Inv.shutdown (hinv : Inv config s t) (hphase : s.phase = .running) (hw : s.writer = none) :
    Inv config { s with routing := .shutDown } t := by
  refine hinv.settle hinv.catalog rfl (fun bundle hb => ?_) (fun _ he => he)
    (fun _ hp => hp) (fun _ _ _ hgraph => hgraph) hw (fun image himage => by cases himage) ?_
  · refine hinv.handles bundle (mem_outside.2 ((mem_outside.1 hb).imp ?_ id))
    rintro ⟨image, himage, -⟩
    cases himage
  · refine ⟨fun hne => absurd hphase hne, fun image himage => (by cases himage), fun w hw' => ?_⟩
    have hnone : s.writer = some w := hw'
    rw [hw] at hnone
    cases hnone

/-- The process ends. -/
lemma Inv.crashed (hinv : Inv config s t) : Inv config s.crashed t := by
  refine hinv.settle hinv.catalog rfl (fun bundle hb => ?_) (fun e he => by cases he)
    (fun _ hp => hp) (fun _ _ _ hgraph => hgraph) rfl (fun image himage => by cases himage) ?_
  · rcases mem_outside.1 hb with ⟨image, himage, -⟩ | ⟨image, himage, -⟩ | hb
    · cases himage
    · cases himage
    · cases hb
  · exact ⟨fun _ => ⟨rfl, rfl, rfl⟩, fun image himage => (by cases himage), fun w hw' => by cases hw'⟩

end Ends

end PublicationSystem

end PathHydra
