import PathHydra.Properties.Engine.Published

/-!
# Published images and the pointer are fresh

Every effect keeps the invariant of publication, so every run of the machine does.  Whenever no
writer holds the lock the published image is that of the confirmed graph, and at every moment, a
crash included, the bundle the pointer names is on the disk and was compiled from that graph.
-/

namespace PathHydra

/-- Past the mutation of the catalog only a rebuild or a startup keeps the image, and it does so
at every stage. -/
lemma Writer.keepsImage_building {kind : WriterKind} {old stage : WriterStage}
    (h : Writer.keepsImage ⟨kind, stage⟩ = true) (hawait : stage ≠ .awaitCapacity)
    (hmutate : stage ≠ .mutate) : Writer.keepsImage ⟨kind, old⟩ = true := by
  rcases kind with call | _ | _
  · unfold keepsImage at h
    split at h <;> simp_all
  · rfl
  · rfl

namespace PublicationSystem

variable {config : PublicationConfig} {action : PublicationAction} {s s' : PublicationSystem}
  {t t' : Tables}

/-! ## The stages of a build -/

section Build

variable {kind : WriterKind} {old stage : WriterStage}

/-- Where the writer stands, as the phase has it. -/
lemma Inv.standing (hinv : Inv config s t) (hw : s.writer = some ⟨kind, old⟩)
    (hstarts : old.starts = true → stage.starts = true) :
    (s.phase = .running ∧ kind ≠ .startup) ∨
      (s.phase = .building ∧ kind = .startup ∧ stage.starts = true) := by
  rcases hinv.phase.writer _ hw with hrunning | ⟨hbuilding, hkind, hold⟩
  · exact .inl hrunning
  · exact .inr ⟨hbuilding, hkind, hstarts hold⟩

lemma Inv.not_cleaning (hinv : Inv config s t) (hw : s.writer = some ⟨kind, old⟩) {final : Bool} :
    s.phase ≠ .cleaning final := by
  rcases hinv.phase.writer _ hw with ⟨hphase, -⟩ | ⟨hphase, -⟩ <;> simp [hphase]

/-- A writer that moves on keeps its kind. -/
lemma Inv.moveOn (hinv : Inv config s t) (hw : s.writer = some ⟨kind, old⟩)
    (hstage : StageSound config s t stage)
    (hkeeps : Writer.keepsImage ⟨kind, stage⟩ = true → Writer.keepsImage ⟨kind, old⟩ = true)
    (hstarts : old.starts = true → stage.starts = true) :
    Inv config (s.setStage kind stage) t := by
  refine hinv.setStage hstage (fun hnew w hw' => ?_) (fun call hkind => ?_) (hinv.standing hw hstarts)
  · rw [hw] at hw'
    cases hw'
    exact hkeeps hnew
  · subst hkind
    exact hinv.mutation call old hw

/-- A build writes under a temporary name that only the writer knows, and moves on. -/
lemma Inv.setDisk (hinv : Inv config s t) {disk : List ChildDirectory} {name : String}
    (hw : s.writer = some ⟨kind, old⟩) (hunshared : s.Unshared name)
    (htemporary : startsWith ".tmp-" name = true) (hnames : (disk.map ChildDirectory.name).Nodup)
    (hkept : ∀ child ∈ s.disk, child.name ≠ name → child ∈ disk)
    (hstage : StageSound config { s with disk := disk } t stage)
    (hkeeps : Writer.keepsImage ⟨kind, stage⟩ = true → Writer.keepsImage ⟨kind, old⟩ = true)
    (hstarts : old.starts = true → stage.starts = true) :
    Inv config ({ s with disk := disk }.setStage kind stage) t where
  catalog := hinv.catalog
  names := hnames
  handles bundle hb := hkept _ (hinv.handles bundle hb) (hunshared.outside bundle hb)
  retired e he := by
    obtain ⟨child, hmem, hname⟩ := hasChild_iff.1 (hinv.retired e he)
    exact hasChild_iff.2 ⟨child, hkept child hmem (hname ▸ hunshared.retired e he), hname⟩
  unpointed := hinv.unpointed
  pointer p hp := by
    obtain ⟨⟨graph, hready, hchecksum⟩, hfinal⟩ := hinv.pointer p hp
    refine ⟨⟨graph, ⟨hkept _ hready.child ?_, hready.denotes⟩, hchecksum⟩, hfinal⟩
    rintro rfl
    rw [htemporary] at hfinal
    cases hfinal
  fresh image himage hnew := by
    refine hinv.fresh image himage fun w hw' => ?_
    rw [hw] at hw'
    cases hw'
    exact hkeeps (hnew _ rfl)
  stage w hw' := by
    cases hw'
    have h : Surrounds { s with disk := disk } t ({ s with disk := disk }.setStage kind stage) t :=
      ⟨rfl, rfl, fun _ hb => hb, fun _ he => he, rfl, id, fun _ hmem _ => hmem⟩
    exact h.stageSound hstage
  mutation call stage' hw' := by
    cases hw'
    exact hinv.mutation call old hw
  phase :=
    { idle := hinv.phase.idle
      published := hinv.phase.published
      writer := fun w hw' => by
        cases hw'
        exact hinv.standing hw hstarts }

/-- A build changes the catalog, and moves on. -/
lemma Inv.setCatalog (hinv : Inv config s t) {catalog : Catalog}
    (hw : s.writer = some ⟨kind, old⟩) (hcatalog : CatalogInv catalog t')
    (hpointer : ∀ p, t'.metadata.pointer = some p →
      Pointed config s t' p ∧ ∀ e ∈ s.retired, e.path ≠ p.relativeBundle)
    (hfresh : Writer.keepsImage ⟨kind, stage⟩ = true →
      Writer.keepsImage ⟨kind, old⟩ = true ∧ ∀ graph, t.Denotes graph → t'.Denotes graph)
    (hstage : StageSound config s t' stage)
    (hstarts : old.starts = true → stage.starts = true) :
    Inv config ({ s with catalog := catalog }.setStage kind stage) t' where
  catalog := hcatalog
  names := hinv.names
  handles := hinv.handles
  retired := hinv.retired
  unpointed e he p hp := (hpointer p hp).2 e he
  pointer p hp := by
    obtain ⟨⟨graph, hready, hchecksum⟩, hfinal⟩ := (hpointer p hp).1
    exact ⟨⟨graph, ⟨hready.child, hready.denotes⟩, hchecksum⟩, hfinal⟩
  fresh image himage hnew := by
    obtain ⟨hold, hdenotes⟩ := hfresh (hnew _ rfl)
    refine hdenotes _ (hinv.fresh image himage fun w hw' => ?_)
    rw [hw] at hw'
    cases hw'
    exact hold
  stage w hw' := by
    cases hw'
    have h : Surrounds s t' ({ s with catalog := catalog }.setStage kind stage) t' :=
      ⟨rfl, rfl, fun _ hb => hb, fun _ he => he, rfl, id, fun _ hmem _ => hmem⟩
    exact h.stageSound hstage
  mutation call stage' hw' := by
    cases hw'
    exact hinv.mutation call old hw
  phase :=
    { idle := hinv.phase.idle
      published := fun image himage => by
        rcases hinv.phase.published image himage with hphase | ⟨hphase, -⟩
        · exact .inl hphase
        · exact absurd hphase (hinv.not_cleaning hw)
      writer := fun w hw' => by
        cases hw'
        exact hinv.standing hw hstarts }

/-- A name that no child has is not shared. -/
lemma Inv.unshared_of_free (hinv : Inv config s t) {name : String} (hfree : s.hasChild name = false) :
    s.Unshared name := by
  refine ⟨fun bundle hb hroot => ?_, fun e he hpath => ?_⟩
  · rw [← hroot, (hinv.handles bundle hb).hasChild] at hfree
    cases hfree
  · rw [← hpath, hinv.retired e he] at hfree
    cases hfree

/-- The temporary directory is created. -/
lemma Inv.created (hinv : Inv config s t) {sequence : ℕ}
    (hw : s.writer = some ⟨kind, .createDirectory sequence⟩)
    (hfree : s.hasChild (temporaryName s.process sequence) = false) :
    Inv config ({ s with
      disk := ⟨temporaryName s.process sequence, none⟩ :: s.disk }.setStage kind
        (.writeFiles sequence)) t := by
  have hunshared := hinv.unshared_of_free hfree
  refine hinv.setDisk hw hunshared (temporaryName_startsWith _ _) ?_
    (fun child hmem _ => List.mem_cons_of_mem _ hmem) ?_ ?_ (fun _ => rfl)
  · rw [List.map_cons, List.nodup_cons]
    refine ⟨fun hmem => ?_, hinv.names⟩
    obtain ⟨child, hchild, hname⟩ := List.mem_map.1 hmem
    rw [hasChild_iff.2 ⟨child, hchild, hname⟩] at hfree
    cases hfree
  · exact ⟨⟨hunshared.outside, hunshared.retired⟩, hasChild_iff.2 ⟨_, List.mem_cons_self, rfl⟩⟩
  · exact fun hkeeps => Writer.keepsImage_building hkeeps (by simp) (by simp)

/-- The files are written, and hold the graph as it is. -/
lemma Inv.written (hinv : Inv config s t) {sequence : ℕ} {graph : ConfirmedGraphRecords}
    (hw : s.writer = some ⟨kind, .writeFiles sequence⟩)
    (hgraph : confirmedGraphRecords s.catalog.db = .ok graph) :
    Inv config ({ s with
      disk := complete s.disk (temporaryName s.process sequence) graph }.setStage kind
        (.validate sequence graph)) t := by
  obtain ⟨hunshared, hchild⟩ : s.Unshared (temporaryName s.process sequence) ∧
    s.hasChild (temporaryName s.process sequence) = true := hinv.stage _ hw
  obtain rfl : graph = t.graph := Except.ok.inj (hgraph.symm.trans hinv.catalog.readGraph)
  have hnames : (complete s.disk (temporaryName s.process sequence) t.graph).map
      ChildDirectory.name = s.disk.map ChildDirectory.name := by
    rw [complete, List.map_map]
    refine List.map_congr_left fun child _ => ?_
    show (if _ then _ else _ : ChildDirectory).name = child.name
    split <;> rfl
  refine hinv.setDisk hw hunshared (temporaryName_startsWith _ _) (hnames ▸ hinv.names)
    (fun child hmem hne => ?_) ?_ ?_ (fun _ => rfl)
  · exact List.mem_map.2 ⟨child, hmem, if_neg hne⟩
  · refine ⟨⟨hunshared.outside, hunshared.retired⟩, ?_, t.denotes_graph⟩
    obtain ⟨child, hmem, hname⟩ := hasChild_iff.1 hchild
    refine List.mem_map.2 ⟨child, hmem, ?_⟩
    rw [if_pos hname, ← hname]
  · exact fun hkeeps => Writer.keepsImage_building hkeeps (by simp) (by simp)

/-- Renaming to a free name keeps the names distinct. -/
lemma Inv.nodup_rename (hinv : Inv config s t) {name name' : String}
    (hfree : s.hasChild name' = false) :
    ((renameChild s.disk name name').map ChildDirectory.name).Nodup := by
  have hmap : (renameChild s.disk name name').map ChildDirectory.name =
      (s.disk.map ChildDirectory.name).map fun n => if n = name then name' else n := by
    rw [renameChild, List.map_map, List.map_map]
    refine List.map_congr_left fun child _ => ?_
    simp only [Function.comp_apply]
    split <;> rfl
  have hnot : name' ∉ s.disk.map ChildDirectory.name := by
    intro hmem
    obtain ⟨child, hchild, hname⟩ := List.mem_map.1 hmem
    rw [hasChild_iff.2 ⟨child, hchild, hname⟩] at hfree
    cases hfree
  rw [hmap]
  refine List.Nodup.map_on (fun n hn m hm heq => ?_) hinv.names
  split at heq <;> split at heq
  · rename_i hn' hm'
    exact hn'.trans hm'.symm
  · exact absurd (heq ▸ hm) hnot
  · exact absurd (heq ▸ hn) hnot
  · exact heq

/-- The temporary directory gets its name. -/
lemma Inv.renamed (hinv : Inv config s t) {sequence suffix : ℕ} {graph : ConfirmedGraphRecords}
    (hw : s.writer = some ⟨kind, .rename sequence graph⟩)
    (hfree : s.hasChild (bundleName (config.manifestChecksum graph) s.process suffix) = false) :
    Inv config ({ s with
      disk := renameChild s.disk (temporaryName s.process sequence)
        (bundleName (config.manifestChecksum graph) s.process suffix) }.setStage kind
          (.openFinal (bundleName (config.manifestChecksum graph) s.process suffix))) t := by
  obtain ⟨hunshared, hready⟩ : s.Unshared (temporaryName s.process sequence) ∧
    s.Ready t (temporaryName s.process sequence) graph := hinv.stage _ hw
  generalize hfinal : bundleName (config.manifestChecksum graph) s.process suffix = name at *
  have htemporary : startsWith ".tmp-" name = false := hfinal ▸ bundleName_not_temporary _ _ _
  have hname : s.Unshared name := hinv.unshared_of_free hfree
  refine hinv.setDisk hw hunshared (temporaryName_startsWith _ _) ?_
    (fun child hmem hne => List.mem_map.2 ⟨child, hmem, if_neg hne⟩) ?_ ?_ (fun _ => rfl)
  · exact hinv.nodup_rename hfree
  · refine ⟨⟨hname.outside, hname.retired⟩, ⟨graph, ?_, hready.denotes⟩, htemporary⟩
    exact List.mem_map.2 ⟨_, hready.child, if_pos rfl⟩
  · exact fun hkeeps => Writer.keepsImage_building hkeeps (by simp) (by simp)

/-- The pointer is set to the bundle. -/
lemma Inv.pointed (hinv : Inv config s t) {bundle : BundleHandle} {answer : WriteAnswer} {r : Unit}
    {catalog : Catalog} (hw : s.writer = some ⟨kind, .commitPointer bundle⟩)
    (hrun : setActiveRoutingImage answer
      ⟨bundle.root, config.manifestChecksum bundle.graph⟩ s.catalog = .ok r catalog) :
    ∃ t', Inv config ({ s with catalog := catalog }.setStage kind (.selectTopology bundle)) t' := by
  obtain ⟨hunshared, hready, hfinal⟩ : s.Unshared bundle.root ∧
    s.Ready t bundle.root bundle.graph ∧ startsWith ".tmp-" bundle.root = false := hinv.stage _ hw
  have hready' : s.Ready { t with metadata := { t.metadata with
      pointer := some ⟨bundle.root, config.manifestChecksum bundle.graph⟩ } } bundle.root
      bundle.graph :=
    ⟨hready.child, hready.denotes.setPointer _⟩
  refine ⟨_, hinv.setCatalog hw (hinv.catalog.setPointer hrun) (fun p hp => ?_) (fun hkeeps => ?_)
    ⟨hunshared, hready', rfl⟩ (fun _ => rfl)⟩
  · obtain rfl := Option.some.inj hp
    exact ⟨⟨⟨_, hready', rfl⟩, hfinal⟩, hunshared.retired⟩
  · refine ⟨?_, fun graph hgraph => hgraph.setPointer _⟩
    exact Writer.keepsImage_building hkeeps (by simp) (by simp)

/-- A mutation has changed the graph. -/
lemma Inv.changed (hinv : Inv config s t) {call : CatalogCall} {answer : WriteAnswer}
    {result : CallResult} {catalog : Catalog} (hw : s.writer = some ⟨.mutation call, .mutate⟩)
    (hrun : call.run answer s.catalog = .ok result catalog) (hchanged : graphChanged result = true) :
    ∃ t', Inv config ({ s with catalog := catalog }.setStage (.mutation call) .scan) t' := by
  obtain ⟨t', inv', hnone, -⟩ := hinv.catalog.mutate (hinv.mutation call _ hw) hrun
  refine ⟨t', hinv.setCatalog hw inv' (fun p hp => ?_) (fun hkeeps => by cases hkeeps) trivial
    (fun _ => rfl)⟩
  rw [hnone hchanged] at hp
  cases hp

/-- The replaced bundle is retired. -/
lemma Inv.retire (hinv : Inv config s t) {bundle current : BundleHandle} {enforce : Bool}
    {bytes : ℕ} (hw : s.writer = some ⟨kind, .retire bundle current enforce⟩) :
    Inv config ({ s with retired := s.retired ++ [RetiredBundle.mk current.root bytes] }.setStage
      kind (.swap bundle)) t := by
  obtain ⟨hplaced, hcurrent⟩ : Placed config s t bundle ∧
    s.published.map ExecutionImage.bundle = some current := hinv.stage _ hw
  obtain ⟨image, himage, hbundle⟩ := Option.map_eq_some_iff.1 hcurrent
  have hmem : current ∈ s.outside := mem_outside.2 (.inl ⟨image, himage, hbundle⟩)
  have hroot : current.root ≠ bundle.root := hplaced.unshared.outside current hmem
  have hswap : Inv config (s.setStage kind (.swap bundle)) t := by
    refine hinv.moveOn hw hplaced (fun h => ?_) (fun h => by cases h)
    exact Writer.keepsImage_building h (by simp) (by simp)
  have hrunning : s.phase = .running := by
    rcases hinv.phase.writer _ hw with ⟨hphase, -⟩ | ⟨-, -, hstarts⟩
    · exact hphase
    · cases hstarts
  have hnew : ∀ {P : RetiredBundle → Prop}, (∀ e ∈ s.retired, P e) → P ⟨current.root, bytes⟩ →
      ∀ e ∈ s.retired ++ [RetiredBundle.mk current.root bytes], P e := by
    intro P hold hlast e he
    rcases List.mem_append.1 he with he | he
    · exact hold e he
    · exact List.mem_singleton.1 he ▸ hlast
  exact
    { catalog := hswap.catalog
      names := hswap.names
      handles := hswap.handles
      retired := hnew hswap.retired (hinv.handles current hmem).hasChild
      unpointed := fun e he p hp => by
        rw [hplaced.pointer] at hp
        obtain rfl := Option.some.inj hp
        exact hnew hplaced.unshared.retired hroot e he
      pointer := fun p hp => by
        obtain ⟨⟨graph, hready, hchecksum⟩, hfinal⟩ := hinv.pointer p hp
        exact ⟨⟨graph, ⟨hready.child, hready.denotes⟩, hchecksum⟩, hfinal⟩
      fresh := hswap.fresh
      stage := fun w hw' => by
        cases hw'
        exact ⟨⟨hplaced.unshared.outside, hnew hplaced.unshared.retired hroot⟩,
          ⟨hplaced.ready.child, hplaced.ready.denotes⟩, hplaced.pointer⟩
      mutation := hswap.mutation
      phase := ⟨fun hne => absurd hrunning hne, hswap.phase.published, hswap.phase.writer⟩ }

end Build

/-! ## Startup -/

section Startup

/-- The engine moves between phases without a writer, over the same catalog and disk. -/
lemma Inv.setPhase (hinv : Inv config s t) (hcatalog : s'.catalog = s.catalog)
    (hdisk : s'.disk = s.disk) (hpublished : ∀ image, s'.published = some image →
      s.Child image.bundle.root image.bundle.graph ∧ t.Denotes image.bundle.graph)
    (hleases : s'.leases = []) (hjobs : s'.jobs = []) (hretired : s'.retired = [])
    (hwriter : s'.writer = none) (hphase : ∀ image, s'.published = some image →
      s'.phase = .running ∨ (s'.phase = .cleaning true ∧
        ∃ p, t.metadata.pointer = some p ∧ p.relativeBundle = image.bundle.root)) :
    Inv config s' t := by
  refine hinv.settle (hcatalog ▸ hinv.catalog) hdisk (fun bundle hb => ?_) (fun e he => ?_)
    (fun _ hp => hp) (fun _ _ _ hgraph => hgraph) hwriter
    (fun image himage => (hpublished image himage).2)
    ⟨fun _ => ⟨hleases, hjobs, hretired⟩, hphase, fun w hw => ?_⟩
  · rw [mem_outside, hleases, hjobs] at hb
    rcases hb with ⟨image, himage, rfl⟩ | ⟨image, hmem, -⟩ | hmem
    · exact (hpublished image himage).1
    · cases hmem
    · cases hmem
  · rw [hretired] at he
    cases he
  · rw [hwriter] at hw
    cases hw

/-- There is no writer in a phase in which none works. -/
lemma Inv.writer_eq_none (hinv : Inv config s t) (hrunning : s.phase ≠ .running)
    (hbuilding : s.phase ≠ .building) : s.writer = none := by
  rcases hw : s.writer with _ | w
  · rfl
  · rcases hinv.phase.writer w hw with ⟨hphase, -⟩ | ⟨hphase, -⟩
    · exact absurd hphase hrunning
    · exact absurd hphase hbuilding

/-- Nothing is published before a first image has been found. -/
lemma Inv.published_eq_none (hinv : Inv config s t) (hrunning : s.phase ≠ .running)
    (hcleaning : s.phase ≠ .cleaning true) : s.published = none := by
  rcases hp : s.published with _ | image
  · rfl
  · rcases hinv.phase.published image hp with hphase | ⟨hphase, -⟩
    · exact absurd hphase hrunning
    · exact absurd hphase hcleaning

/-- What the name of a child says when cleanup removes it. -/
lemma Inv.not_pointed (hinv : Inv config s t) {name : String}
    (hname : positivelyIdentified s.pointerName name = true) (p : ActiveRoutingImage)
    (hp : t.metadata.pointer = some p) : p.relativeBundle ≠ name := by
  rintro rfl
  rw [positivelyIdentified, hinv.pointerName_eq, hp] at hname
  simp [(hinv.pointer p hp).final] at hname

/-- The catalog is opened. -/
lemma Inv.openEngine (hinv : Inv config s t) {process sequence : ℕ} {answer : WriteAnswer}
    {catalog : Catalog} (hphase : s.phase = .down)
    (hopen : openCatalog answer s.catalog.db = .ok catalog) :
    Inv config { s with
      catalog := catalog, phase := .cleaning false, process := process, sequence := sequence } t := by
  obtain rfl : catalog = s.catalog := Except.ok.inj (hopen.symm.trans (hinv.catalog.reopens answer))
  have hpublished := hinv.published_eq_none (by simp [hphase]) (by simp [hphase])
  obtain ⟨hleases, hjobs, hretired⟩ := hinv.phase.idle (by simp [hphase])
  have hnone : ∀ image, s.published ≠ some image := by simp [hpublished]
  exact hinv.setPhase rfl rfl (fun image himage => absurd himage (hnone image)) hleases hjobs
    hretired (hinv.writer_eq_none (by simp [hphase]) (by simp [hphase]))
    fun image himage => absurd himage (hnone image)

/-- An unreferenced child is removed. -/
lemma Inv.cleanChild (hinv : Inv config s t) {final : Bool} {name : String}
    (hphase : s.phase = .cleaning final) (hname : positivelyIdentified s.pointerName name = true) :
    Inv config { s with disk := s.disk.filter fun child => decide (child.name ≠ name) } t := by
  obtain ⟨hleases, hjobs, hretired⟩ := hinv.phase.idle (by simp [hphase])
  have hwriter := hinv.writer_eq_none (by simp [hphase]) (by simp [hphase])
  have hkept : ∀ child ∈ s.disk, child.name ≠ name →
      child ∈ s.disk.filter fun child => decide (child.name ≠ name) :=
    fun child hmem hne => List.mem_filter.2 ⟨hmem, decide_eq_true hne⟩
  exact
    { catalog := hinv.catalog
      names := hinv.names.sublist (List.filter_sublist.map _)
      handles := fun bundle hb => by
        refine hkept _ (hinv.handles bundle hb) ?_
        rw [mem_outside, hleases, hjobs] at hb
        rcases hb with ⟨image, himage, rfl⟩ | ⟨image, hmem, -⟩ | hmem
        · rcases hinv.phase.published image himage with hrunning | ⟨-, p, hp, hroot⟩
          · rw [hphase] at hrunning
            cases hrunning
          · exact hroot ▸ hinv.not_pointed hname p hp
        · cases hmem
        · cases hmem
      retired := fun e he => by
        have hmem : e ∈ s.retired := he
        rw [hretired] at hmem
        cases hmem
      unpointed := hinv.unpointed
      pointer := fun p hp => by
        obtain ⟨⟨graph, hready, hchecksum⟩, hfinal⟩ := hinv.pointer p hp
        exact ⟨⟨graph, ⟨hkept _ hready.child (hinv.not_pointed hname p hp), hready.denotes⟩,
          hchecksum⟩, hfinal⟩
      fresh := hinv.fresh
      stage := fun w hw => by
        have hsome : s.writer = some w := hw
        rw [hwriter] at hsome
        cases hsome
      mutation := hinv.mutation
      phase := ⟨hinv.phase.idle, hinv.phase.published, hinv.phase.writer⟩ }

/-- Cleanup ends. -/
lemma Inv.cleaned (hinv : Inv config s t) {final : Bool} (hphase : s.phase = .cleaning final) :
    Inv config { s with phase := if final then .running else .reopening } t := by
  obtain ⟨hleases, hjobs, hretired⟩ := hinv.phase.idle (by simp [hphase])
  have hwriter := hinv.writer_eq_none (by simp [hphase]) (by simp [hphase])
  refine hinv.setPhase rfl rfl (fun image himage => ⟨?_, ?_⟩) hleases hjobs hretired hwriter
    fun image himage => ?_
  · exact hinv.handles _ (mem_outside.2 (.inl ⟨image, himage, rfl⟩))
  · exact hinv.fresh image himage fun w hw => by
      rw [hwriter] at hw
      cases hw
  · rcases final with _ | _
    · have hnone := hinv.published_eq_none (by simp [hphase]) (by simp [hphase])
      have hsome : s.published = some image := himage
      rw [hnone] at hsome
      cases hsome
    · exact .inl rfl

/-- The bundle the pointer names is opened. -/
lemma Inv.reopened (hinv : Inv config s t) {pointer : ActiveRoutingImage} {bundle : BundleHandle}
    (hphase : s.phase = .reopening)
    (hread : readActiveRoutingImage s.catalog.db = .ok (some pointer))
    (hopen : s.openBundle pointer.relativeBundle = some bundle) :
    Inv config { s with
      routing := .available ⟨s.nextAddress, bundle⟩, nextAddress := s.nextAddress + 1
      phase := .cleaning true } t := by
  obtain ⟨hroot, hchild⟩ := openBundle_eq_some hopen
  have hp : t.metadata.pointer = some pointer :=
    Except.ok.inj (hinv.catalog.readPointer.symm.trans hread)
  obtain ⟨⟨graph, hready, -⟩, -⟩ := hinv.pointer pointer hp
  obtain rfl : bundle.graph = graph := Child.unique hinv.names hchild hready.child
  obtain ⟨hleases, hjobs, hretired⟩ := hinv.phase.idle (by simp [hphase])
  refine hinv.setPhase rfl rfl (fun image himage => ?_) hleases hjobs hretired
    (hinv.writer_eq_none (by simp [hphase]) (by simp [hphase])) fun image himage => ?_
  · cases himage
    exact ⟨hroot ▸ hchild, hready.denotes⟩
  · cases himage
    exact .inr ⟨rfl, pointer, hp, hroot.symm⟩

/-- The pointer is cleared, since its bundle cannot be used. -/
lemma Inv.forgotten (hinv : Inv config s t) {answer : WriteAnswer} {r : Unit} {catalog : Catalog}
    (hphase : s.phase = .reopening)
    (hrun : clearActiveRoutingImage answer s.catalog = .ok r catalog) :
    ∃ t', Inv config { s with catalog := catalog } t' := by
  have hnone := hinv.published_eq_none (by simp [hphase]) (by simp [hphase])
  have hwriter := hinv.writer_eq_none (by simp [hphase]) (by simp [hphase])
  have hunpublished : ∀ image, s.published ≠ some image := by simp [hnone]
  refine ⟨_, hinv.settle (hinv.catalog.clearPointer hrun) rfl hinv.handles (fun _ he => he)
    (fun p hp => by cases hp) (fun p hp => by cases hp) hwriter
    (fun image himage => absurd himage (hunpublished image)) ⟨hinv.phase.idle,
      fun image himage => absurd himage (hunpublished image), hinv.phase.writer⟩⟩

/-- Routing stays unavailable, or a first image is built. -/
lemma Inv.unfound (hinv : Inv config s t) (hphase : s.phase = .reopening) {phase : EnginePhase}
    {routing : RoutingState} (hrouting : ∀ image, routing ≠ .available image) :
    Inv config { s with routing := routing, phase := phase } t := by
  obtain ⟨hleases, hjobs, hretired⟩ := hinv.phase.idle (by simp [hphase])
  have hnone : ∀ image, { s with routing := routing, phase := phase }.published ≠ some image := by
    intro image himage
    rcases routing with image' | _ | _
    · exact hrouting image' rfl
    · cases himage
    · cases himage
  exact hinv.setPhase rfl rfl (fun image himage => absurd himage (hnone image)) hleases hjobs
    hretired (hinv.writer_eq_none (by simp [hphase]) (by simp [hphase]))
    fun image himage => absurd himage (hnone image)

/-- The build of the first image begins. -/
lemma Inv.building (hinv : Inv config s t) (hphase : s.phase = .reopening) :
    Inv config { s with phase := .building, writer := some ⟨.startup, .scan⟩ } t := by
  have hunpublished : ∀ image, s.routing ≠ .available image := by
    intro image hrouting
    have hnone := hinv.published_eq_none (by simp [hphase]) (by simp [hphase])
    simp [published, hrouting] at hnone
  have hbuilding : Inv config { s with phase := .building } t :=
    hinv.unfound hphase hunpublished
  exact hbuilding.setStage trivial (fun _ w hw => by
      have hsome : s.writer = some w := hw
      rw [hinv.writer_eq_none (by simp [hphase]) (by simp [hphase])] at hsome
      cases hsome) (fun call hkind => by cases hkind) (.inr ⟨rfl, rfl, rfl⟩)

end Startup

/-! ## Every run -/

/-- Every effect keeps the invariant. -/
lemma Inv.micro (hinv : Inv config s t) (h : Micro config action s s') : ∃ t', Inv config s' t' := by
  -- a stage that only moves on
  have hkept : ∀ {kind : WriterKind} {old stage : WriterStage}, s.writer = some ⟨kind, old⟩ →
      StageSound config s t stage → stage ≠ .awaitCapacity → stage ≠ .mutate →
      (old.starts = true → stage.starts = true) → ∃ t', Inv config (s.setStage kind stage) t' :=
    fun hw hstage hawait hmutate hstarts => ⟨t, hinv.moveOn hw hstage
      (fun hkeeps => Writer.keepsImage_building hkeeps hawait hmutate) hstarts⟩
  -- handles come from the published image, a lease, or a job: no new bundle is held
  have houtside : ∀ {u : PublicationSystem}, u.published = s.published →
      (∀ image ∈ u.leases, image ∈ s.leases ∨ s.published = some image) →
      (∀ bundle ∈ u.jobs, bundle ∈ s.outside) → ∀ bundle ∈ u.outside, bundle ∈ s.outside := by
    intro u hpublished hleases hjobs bundle hb
    rw [mem_outside, hpublished] at hb
    rcases hb with hp | ⟨image, hmem, hbundle⟩ | hmem
    · exact mem_outside.2 (.inl hp)
    · refine mem_outside.2
        ((hleases image hmem).elim (fun hold => .inr (.inl ?_)) fun hp => .inl ?_)
      · exact ⟨image, hold, hbundle⟩
      · exact ⟨image, hp, hbundle⟩
    · exact hjobs bundle hmem
  have hjob : ∀ bundle ∈ s.jobs, bundle ∈ s.outside :=
    fun bundle hmem => mem_outside.2 (.inr (.inr hmem))
  cases h with
  | dropLease i =>
    refine ⟨t, hinv.of_handles rfl rfl rfl rfl (houtside rfl (fun image hmem => ?_) hjob) rfl rfl
      rfl fun hne => ?_⟩
    · exact .inl (List.mem_of_mem_eraseIdx hmem)
    · obtain ⟨hleases, hjobs, -⟩ := hinv.phase.idle hne
      simp [hleases, hjobs]
  | dropJob i =>
    refine ⟨t, hinv.of_handles rfl rfl rfl rfl (houtside rfl (fun image hmem => .inl hmem) ?_) rfl
      rfl rfl fun hne => ?_⟩
    · exact fun bundle hmem => hjob bundle (List.mem_of_mem_eraseIdx hmem)
    · obtain ⟨hleases, hjobs, -⟩ := hinv.phase.idle hne
      simp [hleases, hjobs]
  | lease hphase hw hp =>
    refine ⟨t, hinv.of_handles rfl rfl rfl rfl (houtside rfl (fun image hmem => ?_) hjob) rfl rfl
      rfl fun hne => absurd hphase hne⟩
    rcases List.mem_cons.1 hmem with rfl | hmem
    · exact .inr hp
    · exact .inl hmem
  | submitJob hphase hmem =>
    refine ⟨t, hinv.of_handles rfl rfl rfl rfl (houtside rfl (fun image hl => .inl hl) ?_) rfl rfl
      rfl fun hne => absurd hphase hne⟩
    intro bundle hb
    rcases List.mem_cons.1 hb with rfl | hb
    · exact mem_outside.2 (.inr (.inl ⟨_, hmem, rfl⟩))
    · exact hjob bundle hb
  | replaceImage ha hphase hw hp =>
    refine ⟨t, hinv.of_handles rfl rfl rfl ?_ (fun bundle hb => ?_) rfl rfl rfl
      fun hne => absurd hphase hne⟩
    · rw [hp]
      rfl
    · rcases mem_outside.1 hb with ⟨image, himage, rfl⟩ | hb
      · cases himage
        exact mem_outside.2 (.inl ⟨_, hp, rfl⟩)
      · exact mem_outside.2 (.inr hb)
  | reap failing ha => exact ⟨t, hinv.reap failing⟩
  | shutdown hphase hw => exact ⟨t, hinv.shutdown hphase hw⟩
  | insert hscan hrun => exact hinv.insert hrun
  | beginMutation hphase hw hrouting hcall =>
    exact ⟨t, hinv.setStage trivial (fun _ w hw' => by simp [hw] at hw')
      (fun call hkind => by cases hkind; exact hcall) (.inl ⟨hphase, by simp⟩)⟩
  | beginRebuild hphase hw hrouting =>
    exact ⟨t, hinv.setStage trivial (fun _ w hw' => by simp [hw] at hw')
      (fun call hkind => by cases hkind) (.inl ⟨hphase, by simp⟩)⟩
  | @awaited kind hw =>
    refine ⟨t, hinv.moveOn hw ?_ (fun _ => ?_) (fun h => by cases h)⟩
    · rcases kind with _ | _ | _ <;> trivial
    · rcases kind with _ | _ | _ <;> rfl
  | mutateFailed hw hrun =>
    obtain rfl := hinv.catalog.mutate_failed (hinv.mutation _ _ hw) hrun
    exact ⟨t, hinv.endMutation hw hinv.catalog rfl fun _ hgraph => hgraph⟩
  | unchanged hw hrun hchanged =>
    obtain ⟨t', inv', -, hsame⟩ := hinv.catalog.mutate (hinv.mutation _ _ hw) hrun
    -- the same graph is stored, so what was fresh stays so
    obtain ⟨hgraph, hpointer⟩ := hsame hchanged
    exact ⟨t', hinv.endMutation hw inv' hpointer fun _ hd => hd.of_sameGraph hgraph hinv.catalog inv'⟩
  | changed hw hrun hchanged => exact hinv.changed hw hrun hchanged
  | failed ha hw hstage hfails hclears =>
    exact ⟨t, hinv.failBuild hw hinv.catalog (fun _ hp => hp) fun _ hgraph => hgraph⟩
  | cleared ha hw => exact hinv.clearPointer _ hw
  | scanned hw =>
    have hsequence : Inv config { s with sequence := s.sequence + 1 } t :=
      hinv.of_handles rfl rfl rfl rfl (fun _ hb => hb) rfl rfl rfl fun hne =>
        ⟨(hinv.phase.idle hne).1, (hinv.phase.idle hne).2.1⟩
    exact ⟨t, hsequence.moveOn hw trivial
      (fun hkeeps => Writer.keepsImage_building hkeeps (by simp) (by simp)) fun _ => rfl⟩
  | created hw hfree => exact ⟨t, hinv.created hw hfree⟩
  | written hw hgraph => exact ⟨t, hinv.written hw hgraph⟩
  | validated hw => exact hkept hw (hinv.stage _ hw) (by simp) (by simp) fun _ => rfl
  | renamed hw hfree => exact ⟨t, hinv.renamed hw hfree⟩
  | opened hw hopen =>
    obtain ⟨rfl, hchild⟩ := openBundle_eq_some hopen
    obtain ⟨hunshared, ⟨graph, hready⟩, hfinal⟩ := hinv.stage _ hw
    -- the directory that is opened is the one the writer has renamed
    obtain rfl := Child.unique hinv.names hchild hready.child
    exact hkept hw ⟨hunshared, hready, hfinal⟩ (by simp) (by simp) fun _ => rfl
  | pointed hw hrun => exact hinv.pointed hw hrun
  | started hw => exact ⟨t, hinv.started hw⟩
  | selected hkind hw =>
    refine ⟨t, hinv.setStage (hinv.stage _ hw) (fun hkeeps w hw' => ?_) (fun call hcall => ?_) ?_⟩
    · rw [hw] at hw'
      cases hw'
      exact Writer.keepsImage_building hkeeps (by simp) (by simp)
    · exact hinv.mutation call _ (hcall ▸ hw)
    · exact .inl ⟨hinv.running hw hkind, hkind⟩
  | notReplacing hw hp => exact hkept hw (hinv.stage _ hw) (by simp) (by simp) fun h => by cases h
  | replacing hw hp =>
    refine hkept hw ⟨hinv.stage _ hw, ?_⟩ (by simp) (by simp) fun h => by cases h
    rw [hp]
    rfl
  | alreadyRetired hw hmem =>
    exact hkept hw (hinv.stage _ hw).1 (by simp) (by simp) fun h => by cases h
  | retire ha hw hadmits => exact ⟨t, hinv.retire hw⟩
  | swapped hw => exact ⟨t, hinv.swapped hw⟩
  | crashed ha => exact ⟨t, hinv.crashed⟩
  | openEngine hphase hopen => exact ⟨t, hinv.openEngine hphase hopen⟩
  | cleanChild hphase hname => exact ⟨t, hinv.cleanChild hphase hname⟩
  | cleaned hphase hclean => exact ⟨t, hinv.cleaned hphase⟩
  | reopened hphase hread hopen => exact ⟨t, hinv.reopened hphase hread hopen⟩
  | forgotten hphase hrun => exact hinv.forgotten hphase hrun
  | required hphase hpointer => exact ⟨t, hinv.unfound hphase fun _ h => by cases h⟩
  | building hphase hpointer => exact ⟨t, hinv.building hphase⟩

lemma Inv.micros (hinv : Inv config s t) (h : Micros config action s s') :
    ∃ t', Inv config s' t' := by
  induction h with
  | refl => exact ⟨t, hinv⟩
  | tail _ hstep ih =>
    obtain ⟨t', hinv'⟩ := ih
    exact hinv'.micro hstep

/-- Every run keeps the invariant. -/
lemma run_inv {actions : List PublicationAction} {os : List Unit} (hinv : Inv config s t)
    (hrun : (publication config).run s actions = some (s', os)) : ∃ t', Inv config s' t' :=
  Machine.run_invariant (I := fun s => ∃ t, Inv config s t)
    (fun _ _ _ _ ⟨_, h⟩ hstep => h.micros (step_micros hstep)) ⟨t, hinv⟩ hrun

/-! ## Freshness -/

/-- An engine that has never been opened, over whatever children the root has. -/
structure Initial (s : PublicationSystem) : Prop where
  catalog : s.catalog = .fresh
  closed : s.crashed = s
  names : (s.disk.map ChildDirectory.name).Nodup

/-- The records are the confirmed graph of the catalog: the same nodes, edges with their weights,
and relation kinds; and they compile to the same image. -/
structure IsCurrent (s : PublicationSystem) (graph : ConfirmedGraphRecords) : Prop where
  records : ∃ current, confirmedGraphRecords s.catalog.db = .ok current ∧
    graph.nodes = current.nodes ∧ graph.edges = current.edges ∧
    graph.relationKinds.map (fun r => (r.id, r.name)) =
      current.relationKinds.map (fun r => (r.id, r.name)) ∧
    ∀ limit, compileRoutingImageImpl graph limit = compileRoutingImageImpl current limit

lemma Inv.isCurrent (hinv : Inv config s t) {graph : ConfirmedGraphRecords}
    (h : t.Denotes graph) : s.IsCurrent graph :=
  ⟨t.graph, hinv.catalog.readGraph, h.nodes, h.edges, h.relations, h.compile_eq⟩

lemma Initial.inv (h : Initial s) : Inv config s .fresh := by
  have hclosed : Inv config s.crashed .fresh := by
    have hpointer : ∀ p, Tables.fresh.metadata.pointer ≠ some p := by simp [Tables.fresh]
    have houtside : ∀ bundle, bundle ∉ s.crashed.outside := by simp [outside, published, crashed]
    exact
      { catalog := by
          show CatalogInv s.catalog .fresh
          rw [h.catalog]
          exact fresh_inv
        names := h.names
        handles := fun bundle hb => absurd hb (houtside bundle)
        retired := fun e he => by cases he
        unpointed := fun e he => by cases he
        pointer := fun p hp => absurd hp (hpointer p)
        fresh := fun image himage => by cases himage
        stage := fun w hw => by cases hw
        mutation := fun call stage hw => by cases hw
        phase := ⟨fun _ => ⟨rfl, rfl, rfl⟩, fun image himage => (by cases himage),
          fun w hw => by cases hw⟩ }
  exact h.closed ▸ hclosed

lemma published_eq {image : ExecutionImage} (h : s.routing = .available image) :
    s.published = some image := by
  rw [published, h]

/-- A lease is of the published image, and is taken between writers. -/
lemma lease_eq_some (h : (publication config).step s .lease = some (s', ())) :
    s.writer = none ∧ ∃ image, s.published = some image ∧
      s' = { s with leases := image :: s.leases } := by
  simp only [publication] at h
  split at h
  · obtain ⟨u, hu, heq⟩ := Option.map_eq_some_iff.1 h
    cases heq
    simp only [runningStep] at hu
    split at hu
    · rename_i hw
      obtain ⟨image, himage, rfl⟩ := Option.map_eq_some_iff.1 hu
      exact ⟨by simpa using hw, image, himage, rfl⟩
    · cases hu
  · obtain ⟨u, hu, heq⟩ := Option.map_eq_some_iff.1 h
    simp only [startupStep] at hu
    split at hu <;> simp_all

/-- The pointer is written only when the catalog and the name let it. -/
lemma stageFails_of_written {bundle : BundleHandle} {write : WriteAnswer} {checksum : Digest}
    {r : Unit} {catalog : Catalog}
    (hrun : setActiveRoutingImage write ⟨bundle.root, checksum⟩ s.catalog = .ok r catalog) :
    s.stageFails (.commitPointer bundle) .succeeds write = false := by
  by_cases hfits : (strBytes bundle.root).length < 2 ^ 32
  · rcases write with _ | _ | _
    · simpa [stageFails] using hfits
    · simp only [setActiveRoutingImage, if_pos hfits] at hrun
      cases hrun
    · simp only [setActiveRoutingImage, if_pos hfits] at hrun
      cases hrun
  · simp only [setActiveRoutingImage, if_neg hfits] at hrun
    cases hrun

/-- A build of a mutation that fails leaves routing unavailable. -/
lemma buildStep_fails {call : CatalogCall} {stage : WriterStage} {answer : BuildAnswer}
    {suffix : ℕ} {write : WriteAnswer} (hstage : stage.builds = true)
    (hfails : s.stageFails stage answer write = true)
    (h : s.buildStep config (.mutation call) stage answer suffix write = some s') :
    s'.routing = .unavailable ∧ s'.writer = none := by
  have hfailed : ∀ u : PublicationSystem, (u.failBuild (.mutation call)).routing = .unavailable ∧
      (u.failBuild (.mutation call)).writer = none := fun _ => ⟨rfl, rfl⟩
  cases answer with
  | succeeds =>
    -- the environment lets the stage succeed, so it fails by what it finds
    cases stage with
    | createDirectory sequence =>
      simp only [stageFails] at hfails
      simp only [buildStep, hfails, if_true] at h
      exact Option.some.inj h ▸ hfailed _
    | writeFiles sequence =>
      simp only [stageFails] at hfails
      simp only [buildStep] at h
      rcases hgraph : confirmedGraphRecords s.catalog.db with e | graph
      · rw [hgraph] at h
        exact Option.some.inj h ▸ hfailed _
      · simp [hgraph, Except.toOption] at hfails
    | openFinal name =>
      simp only [stageFails, Option.isNone_iff_eq_none] at hfails
      simp only [buildStep, hfails] at h
      exact Option.some.inj h ▸ hfailed _
    | commitPointer bundle =>
      simp only [buildStep] at h
      split at h
      · exact Option.some.inj h ▸ hfailed _
      · rename_i r catalog hrun
        rw [stageFails_of_written hrun] at hfails
        cases hfails
    | _ => cases hfails
  | fails => cases stage <;> first | exact Option.some.inj h ▸ hfailed _ | cases hstage
  | failsClearing clearing =>
    cases stage <;> first | exact Option.some.inj h ▸ hfailed _ | cases hstage

lemma writerStep_build {kind : WriterKind} {stage : WriterStage} {answer : BuildAnswer}
    {suffix : ℕ} {write : WriteAnswer} (hw : s.writer = some ⟨kind, stage⟩) :
    s.writerStep config (.build answer suffix write) =
      s.buildStep config kind stage answer suffix write := by
  simp only [writerStep, hw]

/-- Whatever mutations, insertions, rebuilds, routes, shutdowns and restarts an engine goes through
and wherever its builds fail, the published image is that of the confirmed graph whenever no writer
holds the lock.  So a lease, which is taken only then, is of that graph; and a mutation that has
changed the graph leaves routing unavailable when its build fails. -/
theorem published_image_current {s₀ : PublicationSystem} {actions : List PublicationAction}
    {os : List Unit} (hstart : Initial s₀)
    (hrun : (publication config).run s₀ actions = some (s, os)) :
    (s.writer = none → ∀ image, s.routing = .available image → s.IsCurrent image.bundle.graph) ∧
    (∀ s', (publication config).step s .lease = some (s', ()) →
      ∃ image, s'.leases = image :: s.leases ∧ s.IsCurrent image.bundle.graph) ∧
    ∀ call stage answer suffix write s', s.writer = some ⟨.mutation call, stage⟩ →
      stage.builds = true → s.stageFails stage answer write = true →
      (publication config).step s (.build answer suffix write) = some (s', ()) →
      s'.routing = .unavailable ∧ s'.writer = none := by
  obtain ⟨t, hinv⟩ := run_inv hstart.inv hrun
  have hcurrent : s.writer = none → ∀ image, s.published = some image →
      s.IsCurrent image.bundle.graph := by
    intro hw image himage
    exact hinv.isCurrent (hinv.fresh image himage fun w hw' => by simp [hw] at hw')
  refine ⟨fun hw image himage => hcurrent hw image (published_eq himage), fun s' hstep => ?_, ?_⟩
  · obtain ⟨hw, image, himage, rfl⟩ := lease_eq_some hstep
    exact ⟨image, rfl, hcurrent hw image himage⟩
  · intro call stage answer suffix write s' hw hstage hfails hstep
    have hrunning := hinv.running hw (by simp)
    simp only [publication, hrunning, runningStep, writerStep_build hw] at hstep
    obtain ⟨u, hu, heq⟩ := Option.map_eq_some_iff.1 hstep
    cases heq
    exact buildStep_fails hstage hfails hu

/-- The limits and sizes of a small engine. -/
def smallConfig : PublicationConfig where
  maximumRetiredBundleCount := 2
  maximumRetiredBundleBytes := 8
  requireValidBundle := false
  totalBytes _ := 5
  manifestChecksum _ := ⟨List.replicate 32 0, length_zeroDigest⟩

/-- An engine over an empty root. -/
def fresh : PublicationSystem where
  catalog := .fresh
  disk := []
  phase := .down
  process := 1
  sequence := 0
  routing := .unavailable
  leases := []
  jobs := []
  retired := []
  writer := none
  nextAddress := 0

lemma fresh_initial : Initial fresh := ⟨rfl, rfl, List.nodup_nil⟩

/-- The stages of a build, none of which fails. -/
def buildActions : List PublicationAction := List.replicate 8 (.build .succeeds 0 .written)

/-- An engine is opened over an empty root, and builds its first image. -/
def startActions : List PublicationAction :=
  [.openEngine 1 0 .written, .cleaned, .reopen true .written] ++ buildActions ++ [.cleaned]

/-- A node is inserted and confirmed, and an image of it is published. -/
def nodeActions : List PublicationAction :=
  startActions ++ [.insert [.node ⟨"a"⟩ ⟨[]⟩] .written,
    .beginMutation (.confirmCandidateBatchWithResponseLimit [⟨1⟩] 10000), .awaitCapacity [],
    .mutate .written] ++ List.replicate 9 (.build .succeeds 1 .written) ++
    [.retire [], .build .succeeds 0 .written]

/-- The node is removed, and the build of the image without it begins. -/
def removalActions : List PublicationAction :=
  [.beginMutation (.removeNode ⟨1⟩), .awaitCapacity [], .mutate .written,
    .build .succeeds 0 .written]

/-- A mutation builds. -/
def mutationBuilds (s : PublicationSystem) : Bool :=
  match s.writer with
  | some ⟨.mutation _, stage⟩ => stage.builds
  | _ => false

lemma mutationBuilds_eq_true (h : s.mutationBuilds = true) :
    ∃ call stage, s.writer = some ⟨.mutation call, stage⟩ ∧ stage.builds = true := by
  unfold mutationBuilds at h
  split at h
  · rename_i call stage hw
    exact ⟨call, stage, hw, h⟩
  · cases h

/-- The published image and a lease of it are of the graph with the node; and when the build after
the removal fails, routing is unavailable, with the lease still held. -/
theorem published_image_current_leased : ∃ s s' u v os os' image,
    (publication smallConfig).run fresh nodeActions = some (s, os) ∧
      s.routing = .available image ∧ s.IsCurrent image.bundle.graph ∧
      image.bundle.graph.nodes = [⟨⟨1⟩, ⟨"a"⟩, ⟨[]⟩⟩] ∧
    (publication smallConfig).step s .lease = some (s', ()) ∧
      (∃ lease, s'.leases = lease :: s.leases ∧ s.IsCurrent lease.bundle.graph) ∧
    (publication smallConfig).run s' removalActions = some (u, os') ∧
    (publication smallConfig).step u (.build .fails 0 .written) = some (v, ()) ∧
      v.routing = .unavailable ∧ v.leases.length = 1 := by
  have hrun : ((publication smallConfig).run fresh nodeActions).bind (fun r =>
      ((publication smallConfig).step r.1 .lease).bind fun r' =>
        ((publication smallConfig).run r'.1 removalActions).bind fun q =>
          ((publication smallConfig).step q.1 (.build .fails 0 .written)).map fun q' =>
            (r.1.writer.isNone, r.1.published.map fun image => image.bundle.graph.nodes,
              q.1.mutationBuilds, q'.1.leases.length)) =
      some (true, some [⟨⟨1⟩, ⟨"a"⟩, ⟨[]⟩⟩], true, 1) := by
    decide +kernel
  obtain ⟨⟨s, os⟩, hrun, hrest⟩ := Option.bind_eq_some_iff.1 hrun
  obtain ⟨⟨s', u₁⟩, hlease, hrest⟩ := Option.bind_eq_some_iff.1 hrest
  obtain ⟨⟨u, os'⟩, hremoval, hrest⟩ := Option.bind_eq_some_iff.1 hrest
  obtain ⟨⟨v, u₂⟩, hbuild, hread⟩ := Option.map_eq_some_iff.1 hrest
  simp only [Prod.mk.injEq, Option.isNone_iff_eq_none, Option.map_eq_some_iff] at hread
  obtain ⟨hw, ⟨image, himage, hnodes⟩, hbuilds, hleases⟩ := hread
  have hrouting : s.routing = .available image := by
    unfold published at himage
    split at himage <;> simp_all
  -- the three parts: the image, the lease, the failing build
  obtain ⟨hcurrent, hleased, -⟩ := published_image_current fresh_initial hrun
  have hrun' := Machine.run_append (Machine.run_append hrun (show
    (publication smallConfig).run s [.lease] = some (s', [()]) by simp [Machine.run, hlease]))
    hremoval
  obtain ⟨call, stage, hwriter, hstage⟩ := mutationBuilds_eq_true hbuilds
  have hunavailable := ((published_image_current fresh_initial hrun').2.2 call stage .fails 0
    .written v hwriter hstage (stageFails_of_ne (by simp)) hbuild).1
  exact ⟨s, s', u, v, os, os', image, hrun, hrouting, hcurrent hw image hrouting, hnodes, hlease,
    hleased s' hlease, hremoval, hbuild, hunavailable, hleases⟩

/-! ## The pointer -/

/-- The actions that delete directories: cleanup, and the reaps of the retirement manager. -/
def deletes : PublicationAction → Bool
  | .reap _ | .awaitCapacity _ | .retire _ | .cleanChild _ _ => true
  | _ => false

lemma writerStep_catalog {failing : List String}
    (ha : action = .awaitCapacity failing ∨ action = .retire failing)
    (h : s.writerStep config action = some s') : s'.catalog = s.catalog := by
  unfold writerStep at h
  split at h
  · cases h
  · split at h
    · cases h
      unfold awaitCapacityStep
      split
      · rfl
      · split
        · dsimp only
          split <;> rfl
        · rfl
    · simp at ha
    · cases h
      unfold retireStep
      dsimp only
      split
      · rfl
      · split <;> rfl
    · simp at ha
    · cases h

/-- A deletion does not touch the catalog. -/
lemma catalog_of_deletes (ha : deletes action = true)
    (h : (publication config).step s action = some (s', ())) : s'.catalog = s.catalog := by
  have hwriter : ∀ {u : PublicationSystem} {failing : List String},
      action = .awaitCapacity failing ∨ action = .retire failing →
      s.runningStep config action = some u → u.catalog = s.catalog := by
    intro u failing haction hu
    rcases haction with rfl | rfl
    · exact writerStep_catalog (.inl rfl) hu
    · exact writerStep_catalog (.inr rfl) hu
  unfold publication at h
  dsimp only at h
  split at h
  · cases ha
  · split at h
    · obtain ⟨u, hu, heq⟩ := Option.map_eq_some_iff.1 h
      cases heq
      unfold deletes at ha
      split at ha
      · cases hu
        rfl
      · exact hwriter (.inl rfl) hu
      · exact hwriter (.inr rfl) hu
      · simp only [runningStep, writerStep] at hu
        split at hu <;> cases hu
      · cases ha
    · obtain ⟨u, hu, heq⟩ := Option.map_eq_some_iff.1 h
      cases heq
      unfold deletes at ha
      split at ha
      · rw [startupStep_of_reaps rfl] at hu
        cases hu
      · rw [startupStep_of_reaps rfl] at hu
        cases hu
      · rw [startupStep_of_reaps rfl] at hu
        cases hu
      · rcases hphase : s.phase with _ | _ | _ | _ | _ <;> simp only [startupStep, hphase] at hu
        all_goals try contradiction
        split at hu
        · split at hu <;> cases hu <;> rfl
        · cases hu
      · cases ha

lemma cleaned_eq_some (h : (publication config).step s .cleaned = some (s', ())) :
    ∃ final, s.phase = .cleaning final ∧
      s' = { s with phase := if final then .running else .reopening } := by
  simp only [publication] at h
  split at h
  · obtain ⟨u, hu, heq⟩ := Option.map_eq_some_iff.1 h
    simp only [runningStep, writerStep] at hu
    split at hu <;> cases hu
  · obtain ⟨u, hu, heq⟩ := Option.map_eq_some_iff.1 h
    cases heq
    rcases hphase : s.phase with _ | final | _ | _ | _ <;> simp only [startupStep, hphase] at hu
    all_goals try cases hu
    refine ⟨final, rfl, ?_⟩
    split at hu
    · cases hu
    · rcases final with _ | _ <;> cases hu <;> rfl

/-- Routing is shut down only while the engine runs. -/
lemma Micro.not_shutDown (h : Micro config action s s')
    (hs : s.phase ≠ .running → s.routing ≠ .shutDown) :
    s'.phase ≠ .running → s'.routing ≠ .shutDown := by
  cases h with
  | @failed kind _ _ _ _ ha hw hstage hfails hclears =>
    rcases kind with _ | _ | _ <;> simp_all [PublicationSystem.failBuild]
  | @cleared kind _ answer _ _ ha hw =>
    obtain ⟨catalog, hclear⟩ := s.clearPointer_eq answer
    rcases kind with _ | _ | _ <;> simp_all [PublicationSystem.failBuild]
  | _ => first | exact hs | simp_all [PublicationSystem.crashed]

lemma run_not_shutDown {actions : List PublicationAction} {os : List Unit}
    (hs : s.phase ≠ .running → s.routing ≠ .shutDown)
    (hrun : (publication config).run s actions = some (s', os)) :
    s'.phase ≠ .running → s'.routing ≠ .shutDown := by
  refine Machine.run_invariant (I := fun s => s.phase ≠ .running → s.routing ≠ .shutDown)
    (fun u a u' _ hu hstep => ?_) hs hrun
  have hmicros := step_micros hstep
  clear hstep
  induction hmicros with
  | refl => exact hu
  | tail _ hmicro ih => exact hmicro.not_shutDown ih

/-- At every moment of every run, crashes included, the pointer of the catalog names a bundle on
the disk that was compiled from the confirmed graph.  So an engine that has been reopened has an
image of that graph or none, and neither cleanup nor the retirement manager deletes the bundle. -/
theorem pointer_current {s₀ : PublicationSystem} {actions : List PublicationAction}
    {os : List Unit} (hstart : Initial s₀)
    (hrun : (publication config).run s₀ actions = some (s, os)) :
    (∀ p, readActiveRoutingImage s.catalog.db = .ok (some p) → ∃ graph,
      ⟨p.relativeBundle, some graph⟩ ∈ s.disk ∧ s.IsCurrent graph ∧
        p.manifestChecksum = config.manifestChecksum graph) ∧
    (∀ s', (publication config).step s .cleaned = some (s', ()) → s'.phase = .running →
      s'.routing = .unavailable ∨
        ∃ image, s'.routing = .available image ∧ s'.IsCurrent image.bundle.graph) ∧
    ∀ action s', deletes action = true → (publication config).step s action = some (s', ()) →
      ∀ p, readActiveRoutingImage s.catalog.db = .ok (some p) →
        s'.hasChild p.relativeBundle = true := by
  obtain ⟨t, hinv⟩ := run_inv hstart.inv hrun
  have hpointed : ∀ {u : PublicationSystem} {t : Tables}, Inv config u t → ∀ p,
      readActiveRoutingImage u.catalog.db = .ok (some p) → Pointed config u t p := by
    intro u t hu p hread
    exact hu.pointer p (Except.ok.inj (hu.catalog.readPointer.symm.trans hread))
  refine ⟨fun p hread => ?_, fun s' hstep hphase => ?_, fun action s' ha hstep p hread => ?_⟩
  · obtain ⟨⟨graph, hready, hchecksum⟩, -⟩ := hpointed hinv p hread
    exact ⟨graph, hready.child, hinv.isCurrent hready.denotes, hchecksum⟩
  · obtain ⟨final, hcleaning, rfl⟩ := cleaned_eq_some hstep
    have hstarted : s₀.phase ≠ .running → s₀.routing ≠ .shutDown := by
      intro _
      rw [← hstart.closed]
      simp [PublicationSystem.crashed]
    -- an engine that cleans up has just been opened, and nobody has shut it down
    have hopen := run_not_shutDown hstarted hrun (by simp [hcleaning])
    have hw := hinv.writer_eq_none (by simp [hcleaning]) (by simp [hcleaning])
    rcases hrouting : s.routing with image | _ | _
    · refine .inr ⟨image, rfl, ?_⟩
      obtain ⟨graph, hgraph⟩ := hinv.isCurrent
        (hinv.fresh image (published_eq hrouting) fun w hw' => by simp [hw] at hw')
      exact ⟨graph, hgraph⟩
    · exact .inl rfl
    · exact absurd hrouting hopen
  · obtain ⟨t', hinv'⟩ := hinv.micros (step_micros hstep)
    -- a deletion of directories does not touch the catalog
    have hread' : readActiveRoutingImage s'.catalog.db = .ok (some p) := by
      rw [catalog_of_deletes ha hstep]
      exact hread
    obtain ⟨⟨graph, hready, -⟩, -⟩ := hpointed hinv' p hread'
    exact hready.child.hasChild

/-- The graph is rebuilt, the process ends right after the pointer is set, and the engine is opened
again: cleanup removes the first bundle, and the second one is found. -/
def rebuildCrashActions : List PublicationAction :=
  startActions ++ [.beginRebuild, .awaitCapacity []] ++
    List.replicate 7 (.build .succeeds 1 .written) ++ [.crash, .openEngine 2 0 .written,
      .cleanChild (bundleName (smallConfig.manifestChecksum ⟨[], [], []⟩) 1 0) false, .cleaned,
      .reopen true .written]

theorem pointer_current_reopened : ∃ s os s',
    (publication smallConfig).run fresh rebuildCrashActions = some (s, os) ∧
      (publication smallConfig).step s .cleaned = some (s', ()) ∧
      ∃ image, s'.routing = .available image ∧ s'.IsCurrent image.bundle.graph := by
  have hreopened : (((publication smallConfig).run fresh rebuildCrashActions).bind fun r =>
      ((publication smallConfig).step r.1 .cleaned).map fun r' =>
        (r'.1.phase, r'.1.published.isSome)) = some (.running, true) := by
    decide +kernel
  obtain ⟨⟨s, os⟩, hrun, hs⟩ := Option.bind_eq_some_iff.1 hreopened
  obtain ⟨⟨s', u⟩, hstep, hs'⟩ := Option.map_eq_some_iff.1 hs
  simp only [Prod.mk.injEq] at hs'
  refine ⟨s, os, s', hrun, hstep, ?_⟩
  rcases (pointer_current fresh_initial hrun).2.1 s' hstep hs'.1 with hrouting | himage
  · simp [published, hrouting] at hs'
  · exact himage

end PublicationSystem

end PathHydra
