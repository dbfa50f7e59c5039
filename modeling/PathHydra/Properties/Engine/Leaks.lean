import PathHydra.Properties.Engine.Retirement

/-!
# Which builds leak a directory

While an engine runs, a child of the routing-image root that a build made is published, named by the
pointer, or tracked by the retirement manager, as long as no build fails after it has created its
temporary directory, and no mutation whose build fails takes a published image down: the paths that
fail hand nothing over to the retirement manager.
-/

namespace PathHydra

/-- The name under which a build keeps its directory. -/
def WriterStage.owned (process : ℕ) : WriterStage → Option String
  | .writeFiles sequence | .validate sequence _ | .rename sequence _ =>
    some (temporaryName process sequence)
  | .openFinal name => some name
  | .commitPointer bundle | .selectTopology bundle | .countLeases bundle | .swap bundle
  | .retire bundle _ _ => some bundle.root
  | _ => none

/-- The stages before the temporary directory is created. -/
def WriterStage.early : WriterStage → Bool
  | .scan | .createDirectory _ => true
  | _ => false

/-- The stages of a build before the pointer is set. -/
def WriterStage.prepares : WriterStage → Bool
  | .scan | .createDirectory _ | .writeFiles _ | .validate _ _ | .rename _ _ | .openFinal _
  | .commitPointer _ => true
  | _ => false

lemma WriterStage.prepares_of_early {stage : WriterStage} (process : ℕ)
    (h : stage.early = true) : stage.prepares = true ∧ stage.owned process = none := by
  cases stage <;> first | exact ⟨rfl, rfl⟩ | cases h

namespace PublicationSystem

variable {config : PublicationConfig} {action : PublicationAction} {s s' : PublicationSystem}
  {t : Tables}

/-- The names of children that builds make. -/
def isBuilt (name : String) : Bool := startsWith ".tmp-" name || startsWith "bundle-" name

/-- The child is published, named by the pointer, or tracked. -/
def Referenced (s : PublicationSystem) (name : String) : Prop :=
  (∃ image, s.published = some image ∧ image.bundle.root = name) ∨ s.pointerName = some name ∨
    ∃ e ∈ s.retired, e.path = name

/-- Every child a build made is referenced, while the engine runs and no writer holds the lock. -/
def NothingLeaked (s : PublicationSystem) : Prop :=
  s.phase = .running → s.writer = none → ∀ child ∈ s.disk, isBuilt child.name = true →
    s.Referenced child.name

/-- A build that fails does so before it creates a directory, and, when it is that of a mutation,
with nothing published; the first build of an engine may fail anywhere, but clears the pointer it
has set. -/
def leavesNothing (s : PublicationSystem) (action : PublicationAction) : Bool :=
  match action, s.writer with
  | .build answer _ write, some ⟨kind, stage⟩ =>
    !(stage.builds && s.stageFails stage answer write) ||
      match kind with
      | .mutation _ => stage.early && s.published.isNone
      | .rebuild => stage.early
      | .startup => match stage, answer with
        | .selectTopology _, .failsClearing answer => decide (answer = .written)
        | _, _ => true
  | _, _ => true

/-- The pointer names the published bundle, or there is neither. -/
def Aligned (s : PublicationSystem) : Prop :=
  s.pointerName = s.published.map fun image => image.bundle.root

/-- A mutation has cleared the pointer before it builds. -/
def PairedBuild (s : PublicationSystem) : WriterKind → Prop
  | .mutation _ => s.pointerName = none
  | _ => s.Aligned

/-- How the pointer and the published image are related at a stage of a writer. -/
def Paired (s : PublicationSystem) : Prop :=
  match s.writer with
  | none => s.routing = .shutDown ∨ s.Aligned
  | some ⟨kind, stage⟩ =>
    match stage with
    | .awaitCapacity | .mutate => s.Aligned
    | .selectTopology _ | .countLeases _ | .retire _ _ _ => True
    | .swap _ => ∀ image, s.published = some image → ∃ e ∈ s.retired, e.path = image.bundle.root
    | _ => s.PairedBuild kind

lemma paired_iff_of_prepares {kind : WriterKind} {stage : WriterStage}
    (hw : s.writer = some ⟨kind, stage⟩) (h : stage.prepares = true) :
    s.Paired ↔ s.PairedBuild kind := by
  rw [Paired, hw]
  cases stage <;> first | rfl | cases h

/-- Every child a build made is referenced or the writer's own, and the pointer and the published
image fit together. -/
structure Accounted (s : PublicationSystem) : Prop where
  children : s.phase = .running → ∀ child ∈ s.disk, isBuilt child.name = true →
    s.Referenced child.name ∨ ∃ w, s.writer = some w ∧ w.stage.owned s.process = some child.name
  paired : s.phase = .running ∨ s.phase = .building ∨ s.phase = .cleaning true → s.Paired

lemma Accounted.nothingLeaked (h : Accounted s) : s.NothingLeaked := by
  intro hphase hw child hmem hbuilt
  refine (h.children hphase child hmem hbuilt).resolve_right ?_
  rintro ⟨w, hw', -⟩
  rw [hw] at hw'
  cases hw'

/-- The bundle that is being retired is the published one. -/
lemma Inv.current_eq (hinv : Inv config s t) {kind : WriterKind} {bundle current : BundleHandle}
    {enforce : Bool} (hw : s.writer = some ⟨kind, .retire bundle current enforce⟩)
    {image : ExecutionImage} (himage : s.published = some image) : image.bundle = current := by
  have hstage : StageSound config s t (.retire bundle current enforce) := hinv.stage _ hw
  have hcurrent := hstage.2
  rw [himage] at hcurrent
  exact Option.some.inj hcurrent

/-! ## What keeps the children accounted for -/

namespace Accounted

variable {kind : WriterKind} {old stage : WriterStage}

/-- The phase of a writer is one in which the pointer and the image fit together. -/
lemma paired_of_writer (hinv : Inv config s t) (hs : Accounted s) {w : Writer}
    (hw : s.writer = some w) : s.Paired := by
  rcases hinv.phase.writer w hw with ⟨hphase, -⟩ | ⟨hphase, -⟩
  · exact hs.paired (.inl hphase)
  · exact hs.paired (.inr (.inl hphase))

/-- A name that was referenced still is, or is owned by the writer, when nothing but the writer and
the children it works on has changed. -/
lemma moveOn (hs : Accounted s) (hw : s.writer = some ⟨kind, old⟩)
    (howned : ∀ child ∈ s.disk, old.owned s.process = some child.name →
      stage.owned s.process = some child.name)
    (hpaired : s.Paired → (s.setStage kind stage).Paired) : Accounted (s.setStage kind stage) where
  children hphase child hmem hbuilt := by
    refine (hs.children hphase child hmem hbuilt).imp (fun h => h) ?_
    rintro ⟨w, hw', hown⟩
    rw [hw] at hw'
    cases hw'
    exact ⟨_, rfl, howned child hmem hown⟩
  paired hphase := hpaired (hs.paired hphase)

/-- No writer has a directory of its own, before or after. -/
lemma settle (hs : Accounted s) (hown : ∀ w, s.writer = some w → w.stage.owned s.process = none)
    (hphase : s'.phase = .running → s.phase = .running) (hdisk : s'.disk = s.disk)
    (href : ∀ name, s.Referenced name → s'.Referenced name) (hpaired : s'.Paired) :
    Accounted s' where
  children hrunning child hmem hbuilt := by
    rw [hdisk] at hmem
    rcases hs.children (hphase hrunning) child hmem hbuilt with hold | ⟨w, hw, howned⟩
    · exact .inl (href _ hold)
    · rw [hown w hw] at howned
      cases howned
  paired _ := hpaired

end Accounted

lemma pointerName_eq_none (h : readActiveRoutingImage s.catalog.db = .ok none) :
    s.pointerName = none := by
  rw [pointerName, h]
  rfl

/-- Changes of the catalog that keep the pointer keep its name. -/
lemma pointerName_congr {catalog : Catalog} {t' : Tables} (hinv : Inv config s t)
    (inv' : CatalogInv catalog t') (hpointer : t'.metadata.pointer = t.metadata.pointer) :
    { s with catalog := catalog }.pointerName = s.pointerName := by
  rw [hinv.pointerName_eq, pointerName, inv'.readPointer, hpointer]

/-- A stage of a build takes one effect. -/
lemma build_micro {answer : BuildAnswer} {suffix : ℕ} {write : WriteAnswer}
    (h : (publication config).step s (.build answer suffix write) = some (s', ())) :
    Micro config (.build answer suffix write) s s' := by
  have hwriter : ∀ {u : PublicationSystem},
      s.writerStep config (.build answer suffix write) = some u →
      Micro config (.build answer suffix write) s u := by
    intro u hu
    unfold writerStep at hu
    split at hu
    · cases hu
    · rename_i hw
      simp only at hu
      exact buildStep_micro hw hu
  simp only [publication] at h
  split at h
  · obtain ⟨u, hu, heq⟩ := Option.map_eq_some_iff.1 h
    cases heq
    exact hwriter hu
  · obtain ⟨u, hu, heq⟩ := Option.map_eq_some_iff.1 h
    cases heq
    rcases hphase : s.phase with _ | _ | _ | _ | _ <;> simp only [startupStep, hphase] at hu
    all_goals first | contradiction | exact hwriter hu

namespace Accounted

variable {kind : WriterKind} {stage : WriterStage}

lemma owned_of_idle (hw : s.writer = none) :
    ∀ w, s.writer = some w → w.stage.owned s.process = none := by
  intro w hw'
  rw [hw] at hw'
  cases hw'

lemma owned_of_stage (hw : s.writer = some ⟨kind, stage⟩) (hstage : stage.owned s.process = none) :
    ∀ w, s.writer = some w → w.stage.owned s.process = none := by
  intro w hw'
  rw [hw] at hw'
  cases hw'
  exact hstage

/-- Between writers the pointer and the image fit together while routing is not shut down. -/
lemma aligned (hs : Accounted s) (hphase : s.phase = .running) (hw : s.writer = none)
    (hrouting : s.routing ≠ .shutDown) : s.Aligned := by
  have hpaired := hs.paired (.inl hphase)
  rw [Paired, hw] at hpaired
  exact hpaired.resolve_left hrouting

/-- A reap deletes the directories of bundles it stops tracking, and keeps those of handles. -/
lemma reap (hs : Accounted s) (failing : List String) : Accounted (s.reap failing) where
  children hphase child hmem hbuilt := by
    obtain ⟨hold, hkept⟩ := mem_reap_disk.1 hmem
    refine (hs.children hphase child hold hbuilt).imp ?_ (fun h => h)
    rintro (hpublished | hpointer | ⟨e, he, hpath⟩)
    · exact .inl hpublished
    · exact .inr (.inl hpointer)
    · exact .inr (.inr ⟨e, mem_reap_retired.2 ⟨he, hkept e he hpath.symm⟩, hpath⟩)
  paired hphase := by
    have hpaired := hs.paired hphase
    rcases hw : s.writer with _ | ⟨kind, stage⟩
    · rw [Paired, hw] at hpaired
      rw [Paired, show (s.reap failing).writer = none from hw]
      exact hpaired
    · rw [Paired, hw] at hpaired
      rw [Paired, show (s.reap failing).writer = some ⟨kind, stage⟩ from hw]
      cases stage with
      | swap bundle =>
        -- the bundle that is swapped out is tracked, and the published image holds it
        intro image himage
        obtain ⟨e, he, hpath⟩ := hpaired image himage
        refine ⟨e, mem_reap_retired.2 ⟨he, .inl (alive_iff.2 ⟨image.bundle, ?_, hpath.symm⟩)⟩, hpath⟩
        exact mem_handles.2 (.inl (mem_outside.2 (.inl ⟨image, himage, rfl⟩)))
      | _ => exact hpaired

/-- The image is dropped: the pointer names its bundle. -/
lemma shutdown (hs : Accounted s) (hphase : s.phase = .running) (hw : s.writer = none) :
    Accounted { s with routing := .shutDown } := by
  refine hs.settle (owned_of_idle hw) (fun h => h) rfl (fun name href => ?_) ?_
  · rcases href with ⟨image, himage, hroot⟩ | hpointer | htracked
    · have halign := hs.aligned hphase hw fun hshut => by simp [published, hshut] at himage
      rw [Aligned, himage] at halign
      exact .inr (.inl (halign.trans (congrArg some hroot)))
    · exact .inr (.inl hpointer)
    · exact .inr (.inr htracked)
  · simp only [Paired, hw]
    exact .inl trivial

/-- The build moves on, before it sets the pointer. -/
lemma prepare (hs : Accounted s) {next : WriterStage} (hw : s.writer = some ⟨kind, stage⟩)
    (hstage : stage.prepares = true) (hnext : next.prepares = true)
    (howned : ∀ child ∈ s.disk, stage.owned s.process = some child.name →
      next.owned s.process = some child.name) : Accounted (s.setStage kind next) := by
  refine hs.moveOn hw howned fun hpaired => ?_
  exact (paired_iff_of_prepares rfl hnext).2 ((paired_iff_of_prepares hw hstage).1 hpaired)

/-- The build changes the directory it owns, and moves on. -/
lemma setDisk (hs : Accounted s) {next : WriterStage} {disk : List ChildDirectory}
    (hw : s.writer = some ⟨kind, stage⟩) (hstage : stage.prepares = true)
    (hnext : next.prepares = true)
    (hdisk : ∀ child ∈ disk, next.owned s.process = some child.name ∨
      ∃ old ∈ s.disk, old.name = child.name ∧
        (stage.owned s.process = some old.name → next.owned s.process = some old.name)) :
    Accounted ({ s with disk := disk }.setStage kind next) where
  children hphase child hmem hbuilt := by
    rcases hdisk child hmem with howned | ⟨old, hold, hname, howned⟩
    · exact .inr ⟨_, rfl, howned⟩
    · rw [← hname] at hbuilt ⊢
      refine (hs.children hphase old hold hbuilt).imp (fun h => h) ?_
      rintro ⟨w, hw', hown⟩
      rw [hw] at hw'
      cases hw'
      exact ⟨_, rfl, howned hown⟩
  paired hphase :=
    (paired_iff_of_prepares rfl hnext).2 ((paired_iff_of_prepares hw hstage).1 (hs.paired hphase))

/-- The catalog changes, but neither the pointer nor the writer. -/
lemma setCatalog (hs : Accounted s) {catalog : Catalog}
    (hpointer : { s with catalog := catalog }.pointerName = s.pointerName) :
    Accounted { s with catalog := catalog } where
  children hphase child hmem hbuilt := by
    refine (hs.children hphase child hmem hbuilt).imp ?_ (fun h => h)
    rintro (hpublished | hname | htracked)
    · exact .inl hpublished
    · exact .inr (.inl (hpointer.trans hname))
    · exact .inr (.inr htracked)
  paired hphase := by
    have hpaired := hs.paired hphase
    have halign : s.Aligned → { s with catalog := catalog }.Aligned := fun h => hpointer.trans h
    rcases hw : s.writer with _ | ⟨kind, stage⟩
    · simp only [Paired, hw] at hpaired ⊢
      exact hpaired.imp (fun h => h) halign
    · simp only [Paired, hw] at hpaired ⊢
      cases stage
      all_goals first
        | exact hpaired
        | exact halign hpaired
        | skip
      all_goals
        rcases kind with _ | _ | _
        · exact hpointer.trans hpaired
        · exact halign hpaired
        · exact halign hpaired

/-- A build fails before it owns a directory, and what is published stays. -/
lemma failBuild (hinv : Inv config s t) (hs : Accounted s) (hw : s.writer = some ⟨kind, stage⟩)
    (hstage : stage.prepares = true)
    (hearly : kind ≠ .startup → stage.owned s.process = none)
    (hpublished : ∀ call, kind = .mutation call → s.published = none) :
    Accounted (s.failBuild kind) := by
  have hpaired := (paired_iff_of_prepares hw hstage).1 (hs.paired_of_writer hinv hw)
  rcases kind with call | _ | _
  · have hnone := hpublished call rfl
    refine hs.settle (owned_of_stage hw (hearly (by simp))) (fun h => h) rfl (fun name href => ?_)
      (.inr ?_)
    · refine href.imp_left ?_
      rintro ⟨image, himage, -⟩
      rw [hnone] at himage
      cases himage
    · exact hpaired
  · exact hs.settle (owned_of_stage hw (hearly (by simp))) (fun h => h) rfl (fun name href => href)
      (.inr hpaired)
  · have hunpublished := hinv.unpublished (hinv.starting hw).1
    refine ⟨fun hphase => (by cases hphase), fun _ => .inr ?_⟩
    have halign : s.Aligned := hpaired
    rw [Aligned, hunpublished] at halign
    exact halign

/-- Every effect keeps the children accounted for, unless a build fails late. -/
lemma micro (hinv : Inv config s t) (hs : Accounted s) (hguard : s.leavesNothing action = true)
    (h : Micro config action s s') : Accounted s' := by
  cases h with
  | dropLease i => exact ⟨hs.children, hs.paired⟩
  | dropJob i => exact ⟨hs.children, hs.paired⟩
  | lease hphase hw hp => exact ⟨hs.children, hs.paired⟩
  | submitJob hphase hmem => exact ⟨hs.children, hs.paired⟩
  | @replaceImage image ha hphase hw hp =>
    have halign := hs.aligned hphase hw fun hshut => by simp [published, hshut] at hp
    rw [Aligned, hp] at halign
    refine hs.settle (owned_of_idle hw) (fun h => h) rfl (fun name href => ?_) ?_
    · refine href.imp_left ?_
      rintro ⟨image', himage', hroot⟩
      rw [hp] at himage'
      cases himage'
      exact ⟨_, rfl, hroot⟩
    · simp only [Paired, hw]
      exact .inr halign
  | reap failing ha => exact hs.reap failing
  | shutdown hphase hw => exact hs.shutdown hphase hw
  | insert hscan hrun =>
    obtain ⟨t', inv', -, hpointer⟩ := hinv.catalog.insertCandidates hrun
    exact hs.setCatalog (pointerName_congr hinv inv' hpointer)
  | beginMutation hphase hw hrouting hcall =>
    exact hs.settle (owned_of_idle hw) (fun h => h) rfl (fun _ href => href)
      (hs.aligned hphase hw hrouting)
  | beginRebuild hphase hw hrouting =>
    exact hs.settle (owned_of_idle hw) (fun h => h) rfl (fun _ href => href)
      (hs.aligned hphase hw hrouting)
  | @awaited kind hw =>
    have hpaired := hs.paired_of_writer hinv hw
    simp only [Paired, hw] at hpaired
    refine hs.settle (owned_of_stage hw rfl) (fun h => h) rfl (fun _ href => href) ?_
    rcases kind with _ | _ | _ <;> exact hpaired
  | mutateFailed hw hrun =>
    obtain rfl := hinv.catalog.mutate_failed (hinv.mutation _ _ hw) hrun
    have hpaired := hs.paired_of_writer hinv hw
    simp only [Paired, hw] at hpaired
    exact hs.settle (owned_of_stage hw rfl) (fun h => h) rfl (fun _ href => href) (.inr hpaired)
  | unchanged hw hrun hchanged =>
    obtain ⟨t', inv', -, hsame⟩ := hinv.catalog.mutate (hinv.mutation _ _ hw) hrun
    have hname := pointerName_congr hinv inv' (hsame hchanged).2
    have hpaired := hs.paired_of_writer hinv hw
    simp only [Paired, hw] at hpaired
    refine hs.settle (owned_of_stage hw rfl) (fun h => h) rfl (fun name href => ?_)
      (.inr (hname.trans hpaired))
    exact href.imp_right (Or.imp_left hname.trans)
  | changed hw hrun hchanged =>
    obtain ⟨t', inv', hnone, -⟩ := hinv.catalog.mutate (hinv.mutation _ _ hw) hrun
    have hpaired := hs.paired_of_writer hinv hw
    simp only [Paired, hw] at hpaired
    refine hs.settle (owned_of_stage hw rfl) (fun h => h) rfl (fun name href => ?_) ?_
    · -- The name the pointer loses is that of the published bundle.
      rcases href with hpublished | hpointer | htracked
      · exact .inl hpublished
      · rw [hpaired, Option.map_eq_some_iff] at hpointer
        exact .inl hpointer
      · exact .inr (.inr htracked)
    · exact pointerName_eq_none (inv'.readPointer.trans (congrArg Except.ok (hnone hchanged)))
  | @failed kind stage answer suffix write ha hw hstage hfails hclears =>
    subst ha
    simp only [leavesNothing, hw, hstage, hfails, Bool.and_self, Bool.not_true, Bool.false_or]
      at hguard
    rcases kind with call | _ | _
    · simp only [Bool.and_eq_true, Option.isNone_iff_eq_none] at hguard
      obtain ⟨hprepares, howned⟩ := WriterStage.prepares_of_early s.process hguard.1
      -- a mutation has deleted the pointer, so what it replaces must not be published any more
      exact hs.failBuild hinv hw hprepares (fun _ => howned) fun _ _ => hguard.2
    · obtain ⟨hprepares, howned⟩ := WriterStage.prepares_of_early s.process hguard
      exact hs.failBuild hinv hw hprepares (fun _ => howned) fun _ h => by cases h
    · refine hs.failBuild hinv hw ?_ (fun h => absurd rfl h) fun _ h => by cases h
      have hstarts := (hinv.starting hw).2
      cases stage with
      | selectTopology bundle => exact absurd rfl (hclears bundle rfl)
      | _ => first | rfl | cases hstarts
  | @cleared kind bundle answer suffix write ha hw =>
    subst ha
    have hfails : s.stageFails (.selectTopology bundle) (.failsClearing answer) write = true := rfl
    have hbuilds : (WriterStage.selectTopology bundle).builds = true := rfl
    simp only [leavesNothing, hw, hbuilds, hfails, Bool.and_self, Bool.not_true,
      Bool.false_or] at hguard
    rcases kind with call | _ | _
    · cases hguard
    · cases hguard
    · -- only the start-up clears the pointer and goes on, and its clearing succeeded
      obtain rfl := of_decide_eq_true hguard
      refine ⟨fun hphase => (by cases hphase), fun _ => .inr ?_⟩
      have hrun : clearActiveRoutingImage .written s.catalog =
          .ok () (s.clearPointer .written).catalog := rfl
      exact pointerName_eq_none (CatalogInv.readPointer_clear hrun)
  | @scanned kind hw =>
    have hsequence : Accounted { s with sequence := s.sequence + 1 } := ⟨hs.children, hs.paired⟩
    exact hsequence.prepare hw rfl rfl fun _ _ h => by cases h
  | created hw hfree =>
    refine hs.setDisk hw rfl rfl fun child hmem => ?_
    rcases List.mem_cons.1 hmem with rfl | hmem
    · exact .inl rfl
    · exact .inr ⟨child, hmem, rfl, fun h => by cases h⟩
  | written hw hgraph =>
    refine hs.setDisk hw rfl rfl fun child hmem => .inr ?_
    obtain ⟨old, hold, rfl⟩ := List.mem_map.1 hmem
    refine ⟨old, hold, ?_, fun h => h⟩
    split <;> rfl
  | validated hw => exact hs.prepare hw rfl rfl fun _ _ h => h
  | @renamed kind sequence graph suffix hw hfree =>
    refine hs.setDisk hw rfl rfl fun child hmem => ?_
    obtain ⟨old, hold, rfl⟩ := List.mem_map.1 hmem
    -- the renamed directory is the writer's own, and no other child had that name
    by_cases hname : old.name = temporaryName s.process sequence
    · rw [if_pos hname]
      exact .inl rfl
    · rw [if_neg hname]
      exact .inr ⟨old, hold, rfl, fun howned => absurd (Option.some.inj howned).symm hname⟩
  | opened hw hopen =>
    obtain ⟨rfl, -⟩ := openBundle_eq_some hopen
    exact hs.prepare hw rfl rfl fun _ _ h => h
  | @pointed kind bundle answer r catalog hw hrun =>
    have hpaired := (paired_iff_of_prepares hw rfl).1 (hs.paired_of_writer hinv hw)
    refine ⟨fun hphase child hmem hbuilt => ?_, fun _ => trivial⟩
    -- The name the pointer loses is that of the published bundle.
    rcases hs.children hphase child hmem hbuilt with (hpublished | hpointer | htracked) | hown
    · exact .inl (.inl hpublished)
    · rcases kind with _ | _ | _
      · rw [show s.pointerName = none from hpaired] at hpointer
        cases hpointer
      · rw [show s.pointerName = _ from hpaired, Option.map_eq_some_iff] at hpointer
        exact .inl (.inl hpointer)
      · rw [show s.pointerName = _ from hpaired, Option.map_eq_some_iff] at hpointer
        exact .inl (.inl hpointer)
    · exact .inl (.inr (.inr htracked))
    · obtain ⟨w, hw', howned⟩ := hown
      rw [hw] at hw'
      cases hw'
      exact .inr ⟨_, rfl, howned⟩
  | started hw =>
    have hplaced : Placed config s t _ := hinv.stage _ hw
    refine ⟨fun hphase => (by cases hphase), fun _ => .inr ?_⟩
    show s.pointerName = _
    rw [hinv.pointerName_eq, hplaced.pointer]
    rfl
  | selected hkind hw => exact hs.moveOn hw (fun _ _ h => h) fun _ => trivial
  | notReplacing hw hp =>
    refine hs.moveOn hw (fun _ _ h => h) fun _ image himage => ?_
    have hplaced : Placed config s t _ := hinv.stage _ hw
    exact absurd (hp image himage) (hplaced.unshared.outside image.bundle
      (mem_outside.2 (.inl ⟨image, himage, rfl⟩)))
  | replacing hw hp => exact hs.moveOn hw (fun _ _ h => h) fun _ => trivial
  | alreadyRetired hw hmem =>
    refine hs.moveOn hw (fun _ _ h => h) fun _ image himage => ?_
    obtain ⟨e, he, hpath⟩ := hmem
    exact ⟨e, he, hpath.trans (congrArg BundleHandle.root (hinv.current_eq hw himage)).symm⟩
  | retire ha hw hadmits =>
    refine ⟨fun hphase child hmem hbuilt => ?_, fun _ image himage => ?_⟩
    · refine (hs.children hphase child hmem hbuilt).imp ?_ ?_
      · rintro (hpublished | hpointer | ⟨e, he, hpath⟩)
        · exact .inl hpublished
        · exact .inr (.inl hpointer)
        · exact .inr (.inr ⟨e, List.mem_append_left _ he, hpath⟩)
      · rintro ⟨w, hw', howned⟩
        rw [hw] at hw'
        cases hw'
        exact ⟨_, rfl, howned⟩
    · refine ⟨_, List.mem_append_right _ List.mem_cons_self, ?_⟩
      exact (congrArg BundleHandle.root (hinv.current_eq hw himage)).symm
  | swapped hw =>
    have hplaced : Placed config s t _ := hinv.stage _ hw
    have hpaired := hs.paired_of_writer hinv hw
    simp only [Paired, hw] at hpaired
    refine ⟨fun hphase child hmem hbuilt => .inl ?_, fun _ => .inr ?_⟩
    · rcases hs.children hphase child hmem hbuilt with (⟨image, himage, hroot⟩ | hpointer | htracked)
        | ⟨w, hw', howned⟩
      · -- the replaced image was put on the list before the swap
        obtain ⟨e, he, hpath⟩ := hpaired image himage
        exact .inr (.inr ⟨e, he, hpath.trans hroot⟩)
      · exact .inr (.inl hpointer)
      · exact .inr (.inr htracked)
      · rw [hw] at hw'
        cases hw'
        exact .inl ⟨_, rfl, Option.some.inj howned⟩
    · show s.pointerName = _
      rw [hinv.pointerName_eq, hplaced.pointer]
      rfl
  | crashed ha =>
    exact ⟨fun h => (by cases h), fun h => by simp [PublicationSystem.crashed] at h⟩
  | openEngine hphase hopen => exact ⟨fun h => (by cases h), fun h => by simp at h⟩
  | cleanChild hphase hname => exact ⟨fun h => by simp [hphase] at h, fun h => hs.paired h⟩
  | @cleaned final hphase hclean =>
    rcases final with _ | _
    · exact ⟨fun h => (by cases h), fun h => by simp at h⟩
    · refine ⟨fun _ child hmem hbuilt => .inl (.inr (.inl ?_)), fun _ =>
        hs.paired (.inr (.inr hphase))⟩
      -- what the start-up keeps of the bundles is the one the pointer names
      have hkept := hclean child hmem
      simp only [positivelyIdentified, isBuilt, Bool.or_eq_true, Bool.or_eq_false_iff] at hkept hbuilt
      rw [hkept.1] at hbuilt
      have hbundle : startsWith "bundle-" child.name = true := by simpa using hbuilt
      rw [hbundle, Bool.true_and, decide_eq_false_iff_not, not_not] at hkept
      exact hkept.2.symm
  | reopened hphase hread hopen =>
    obtain ⟨hroot, -⟩ := openBundle_eq_some hopen
    have hw := hinv.writer_eq_none (by simp [hphase]) (by simp [hphase])
    refine ⟨fun h => (by cases h), fun _ => ?_⟩
    simp only [Paired, hw]
    refine .inr ?_
    show s.pointerName = _
    rw [pointerName, hread]
    exact congrArg some hroot.symm
  | forgotten hphase hrun => exact ⟨fun h => by simp [hphase] at h, fun h => by simp [hphase] at h⟩
  | required hphase hpointer =>
    have hw := hinv.writer_eq_none (by simp [hphase]) (by simp [hphase])
    refine ⟨fun h => (by cases h), fun _ => ?_⟩
    simp only [Paired, hw]
    refine .inr ?_
    exact pointerName_eq_none hpointer
  | building hphase hpointer =>
    have hnone := hinv.published_eq_none (by simp [hphase]) (by simp [hphase])
    refine ⟨fun h => (by cases h), fun _ => ?_⟩
    show s.pointerName = s.published.map _
    rw [hnone]
    exact pointerName_eq_none hpointer

lemma step (hinv : Inv config s t) (hs : Accounted s) (hguard : s.leavesNothing action = true)
    (h : (publication config).step s action = some (s', ())) : Accounted s' := by
  by_cases ha : ∃ answer suffix write, action = .build answer suffix write
  · obtain ⟨answer, suffix, write, rfl⟩ := ha
    exact hs.micro hinv hguard (build_micro h)
  · -- No other action is guarded.
    have hfree : ∀ u : PublicationSystem, u.leavesNothing action = true := by
      intro u
      unfold leavesNothing
      split
      · exact absurd ⟨_, _, _, rfl⟩ ha
      · rfl
    have hmicros := step_micros h
    clear h
    induction hmicros with
    | refl => exact hs
    | tail hbefore hmicro ih =>
      obtain ⟨t', hinv'⟩ := hinv.micros hbefore
      exact ih.micro hinv' (hfree _) hmicro

end Accounted

/-! ## Leaks -/

/-- In every run in which no build fails late, and none of a mutation while an image is published,
every directory that builds made is published, named by the pointer, or tracked, whenever the engine
runs and no build is in progress. -/
theorem run_nothingLeaked {s₀ : PublicationSystem} {actions : List PublicationAction}
    {os : List Unit} (hstart : Initial s₀)
    (hguard : (publication config).Guarded (fun s a => s.leavesNothing a = true) s₀ actions)
    (hrun : (publication config).run s₀ actions = some (s, os)) : s.NothingLeaked := by
  have haccounted : Accounted s₀ := by
    rw [← hstart.closed]
    exact ⟨fun h => (by cases h), fun h => by simp [PublicationSystem.crashed] at h⟩
  obtain ⟨⟨t, -, hs⟩, -⟩ := Machine.run_guarded (I := fun s => ∃ t, Inv config s t ∧ Accounted s)
    (P := fun _ => True) (fun u a u' _ hu hleaves hstep => ⟨by
      obtain ⟨t, hinv, hs⟩ := hu
      obtain ⟨t', hinv'⟩ := hinv.micros (step_micros hstep)
      exact ⟨t', hinv', hs.step hinv hleaves hstep⟩, trivial⟩) ⟨_, hstart.inv, haccounted⟩ hguard hrun
  exact hs.nothingLeaked

/-- A rebuild that fails at once, and one that succeeds. -/
def twoRebuildsActions : List PublicationAction :=
  startActions ++ [.beginRebuild, .awaitCapacity [], .build .fails 0 .written, .beginRebuild,
    .awaitCapacity []] ++ List.replicate 9 (.build .succeeds 1 .written) ++
    [.retire [], .build .succeeds 0 .written]

theorem run_nothingLeaked_rebuilt : ∃ s os,
    (publication smallConfig).run fresh twoRebuildsActions = some (s, os) ∧ s.writer.isNone = true ∧
      s.disk.length = 2 ∧ s.NothingLeaked := by
  have hguard : (publication smallConfig).Guarded (fun s a => s.leavesNothing a = true) fresh
      twoRebuildsActions := by
    decide +kernel
  have hrebuilt : (((publication smallConfig).run fresh twoRebuildsActions).map fun r =>
      (r.1.writer.isNone, r.1.disk.length)) = some (true, 2) := by
    decide +kernel
  obtain ⟨⟨s, os⟩, hrun, hs⟩ := Option.map_eq_some_iff.1 hrebuilt
  simp only [Prod.mk.injEq] at hs
  exact ⟨s, os, hrun, hs.1, hs.2, run_nothingLeaked fresh_initial hguard hrun⟩

/-- A node is inserted and confirmed while the first image is published, and the build that follows
fails at once. -/
def failedMutationActions : List PublicationAction :=
  startActions ++ [.insert [.node ⟨"a"⟩ ⟨[]⟩] .written,
    .beginMutation (.confirmCandidateBatchWithResponseLimit [⟨1⟩] 1000), .awaitCapacity [],
    .mutate .written, .build .fails 0 .written]

/-- The bundle of the image that the failed mutation takes down is not referenced by anything. -/
theorem failed_mutation_leaks : ∃ s os,
    (publication smallConfig).run fresh failedMutationActions = some (s, os) ∧
      ¬ s.NothingLeaked := by
  have hfailed : (((publication smallConfig).run fresh failedMutationActions).map fun r =>
      ((r.1.phase, r.1.writer.isNone, r.1.published.isNone),
        r.1.pointerName, r.1.retired, r.1.disk.map ChildDirectory.name)) =
      some ((.running, true, true), none, [], [firstBundle]) := by
    decide +kernel
  obtain ⟨⟨s, os⟩, hrun, hs⟩ := Option.map_eq_some_iff.1 hfailed
  simp only [Prod.mk.injEq, Option.isNone_iff_eq_none] at hs
  obtain ⟨⟨hphase, hw, hpublished⟩, hpointer, hretired, hdisk⟩ := hs
  refine ⟨s, os, hrun, fun hleaked => ?_⟩
  have hmem : firstBundle ∈ s.disk.map ChildDirectory.name := by simp [hdisk]
  obtain ⟨child, hchild, hname⟩ := List.mem_map.1 hmem
  have hbuilt : isBuilt child.name = true := by
    rw [hname]
    decide +kernel
  rcases hleaked hphase hw child hchild hbuilt with ⟨image, himage, -⟩ | hnamed | ⟨e, he, -⟩
  · rw [hpublished] at himage
    cases himage
  · rw [hpointer] at hnamed
    cases hnamed
  · rw [hretired] at he
    cases he

end PublicationSystem

end PathHydra
