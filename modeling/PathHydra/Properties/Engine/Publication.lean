import PathHydra.Properties.Engine.Durable

/-!
# What a step of publication does

`Micro` lists once the effects a step of the publication machine is made of, each with the state
it leads to; `step_micro` takes a step apart into them.  Every invariant of publication is then
proved effect by effect.
-/

namespace PathHydra

/-- The stages of a build, at which it can fail. -/
def WriterStage.builds : WriterStage → Bool
  | .awaitCapacity | .mutate | .retire _ _ _ | .swap _ => false
  | _ => true

namespace PublicationSystem

variable {config : PublicationConfig} {s s' : PublicationSystem}

/-! ## Children and handles -/

/-- The child of this name is complete and holds the graph. -/
def Child (s : PublicationSystem) (name : String) (graph : ConfirmedGraphRecords) : Prop :=
  (⟨name, some graph⟩ : ChildDirectory) ∈ s.disk

/-- The handles that are not the writer's. -/
def outside (s : PublicationSystem) : List BundleHandle :=
  s.published.toList.map ExecutionImage.bundle ++ s.leases.map ExecutionImage.bundle ++ s.jobs

lemma mem_outside {bundle : BundleHandle} : bundle ∈ s.outside ↔
    (∃ image, s.published = some image ∧ image.bundle = bundle) ∨
      (∃ image ∈ s.leases, image.bundle = bundle) ∨ bundle ∈ s.jobs := by
  simp [outside]

lemma mem_handles {bundle : BundleHandle} : bundle ∈ s.handles ↔ bundle ∈ s.outside ∨
    ∃ w, s.writer = some w ∧ bundle ∈ w.stage.bundles := by
  simp [handles, outside, or_assoc]

lemma hasChild_iff {name : String} : s.hasChild name = true ↔ ∃ child ∈ s.disk, child.name = name := by
  simp [hasChild]

lemma Child.hasChild {name : String} {graph : ConfirmedGraphRecords} (h : s.Child name graph) :
    s.hasChild name = true :=
  hasChild_iff.2 ⟨_, h, rfl⟩

lemma alive_iff {path : String} : s.alive path = true ↔ ∃ bundle ∈ s.handles, bundle.root = path := by
  simp [alive]

/-- Opening finds the child with the name. -/
lemma openBundle_eq_some {name : String} {bundle : BundleHandle}
    (h : s.openBundle name = some bundle) : bundle.root = name ∧ s.Child name bundle.graph := by
  unfold openBundle at h
  split at h
  · rename_i name' graph hfind
    cases h
    have hname := List.find?_some hfind
    obtain rfl : name' = name := by simpa using hname
    exact ⟨rfl, List.mem_of_find?_eq_some hfind⟩
  · cases h

/-- Two complete children of one name are the same when names are distinct. -/
lemma Child.unique {name : String} {graph graph' : ConfirmedGraphRecords}
    (hnodup : (s.disk.map ChildDirectory.name).Nodup) (h : s.Child name graph)
    (h' : s.Child name graph') : graph = graph' := by
  have heq := List.inj_on_of_nodup_map hnodup h h' rfl
  cases heq
  rfl

/-! ## Reaping -/

/-- The loop of `reap` retains what is alive or cannot be deleted, and removes the children of the
others. -/
lemma reapLoop_eq (alive : String → Bool) (failing : List String) (retired : List RetiredBundle)
    (disk : List ChildDirectory) :
    reapLoop alive failing retired disk =
      (retired.filter fun e => alive e.path || failing.contains e.path,
        disk.filter fun child => retired.all fun e =>
          !decide (child.name = e.path) || (alive e.path || failing.contains e.path)) := by
  induction retired generalizing disk with
  | nil => simp [reapLoop]
  | cons entry rest ih =>
    simp only [reapLoop, ih]
    split
    · rename_i hkeep
      rw [List.filter_cons, if_pos hkeep]
      congr 1
      refine List.filter_congr fun child _ => ?_
      rw [List.all_cons, hkeep, Bool.or_true, Bool.true_and]
    · rename_i hkeep
      rw [List.filter_cons, if_neg hkeep, List.filter_filter]
      congr 1
      refine List.filter_congr fun child _ => ?_
      rw [List.all_cons, Bool.eq_false_iff.2 hkeep, Bool.or_false, Bool.and_comm, decide_not]

lemma mem_reap_retired {failing : List String} {e : RetiredBundle} :
    e ∈ (s.reap failing).retired ↔
      e ∈ s.retired ∧ (s.alive e.path = true ∨ e.path ∈ failing) := by
  simp [reap, reapLoop_eq]

lemma mem_reap_disk {failing : List String} {child : ChildDirectory} :
    child ∈ (s.reap failing).disk ↔ child ∈ s.disk ∧
      ∀ e ∈ s.retired, child.name = e.path → (s.alive e.path = true ∨ e.path ∈ failing) := by
  simp [reap, reapLoop_eq, imp_iff_not_or]

/-! ## Effects -/

/-- Whether a stage of a build fails: because the environment lets it, because the temporary name
is taken, or because something cannot be read back or written. -/
def stageFails (s : PublicationSystem) (stage : WriterStage) (answer : BuildAnswer)
    (write : WriteAnswer) : Bool :=
  match stage, answer with
  | .createDirectory sequence, .succeeds => s.hasChild (temporaryName s.process sequence)
  | .writeFiles _, .succeeds => (confirmedGraphRecords s.catalog.db).toOption.isNone
  | .openFinal name, .succeeds => (s.openBundle name).isNone
  | .commitPointer bundle, .succeeds =>
    decide (write ≠ .written) || decide (2 ^ 32 ≤ (strBytes bundle.root).length)
  | _, .succeeds => false
  | _, _ => true

/-- The actions in which the retirement manager reaps. -/
def reaps : PublicationAction → Bool
  | .reap _ | .awaitCapacity _ | .retire _ => true
  | _ => false

/-- Clearing the pointer changes the catalog only. -/
lemma clearPointer_eq (s : PublicationSystem) (answer : WriteAnswer) :
    ∃ catalog, s.clearPointer answer = { s with catalog := catalog } := by
  unfold clearPointer
  split
  · exact ⟨_, rfl⟩
  · exact ⟨_, rfl⟩

/-- Nothing is reaped before the engine runs. -/
lemma startupStep_of_reaps {action : PublicationAction} (h : reaps action = true) :
    s.startupStep config action = none := by
  unfold reaps at h
  split at h
  · rcases hphase : s.phase with _ | _ | _ | _ | _ <;> simp [startupStep, hphase]
  · rcases hphase : s.phase with _ | _ | _ | _ | _ <;> simp [startupStep, hphase]
  · rcases hphase : s.phase with _ | _ | _ | _ | _ <;> simp [startupStep, hphase]
  · cases h

/-- The effects a step is made of.  The effects of a failure remember that the stage of the writer
fails. -/
inductive Micro (config : PublicationConfig) (action : PublicationAction)
    (s : PublicationSystem) : PublicationSystem → Prop
  | dropLease (i : ℕ) : Micro config action s { s with leases := s.leases.eraseIdx i }
  | dropJob (i : ℕ) : Micro config action s { s with jobs := s.jobs.eraseIdx i }
  | lease {image} (hphase : s.phase = .running) (hw : s.writer = none)
      (hp : s.published = some image) :
      Micro config action s { s with leases := image :: s.leases }
  | submitJob {image} (hphase : s.phase = .running) (hmem : image ∈ s.leases) :
      Micro config action s { s with jobs := image.bundle :: s.jobs }
  | replaceImage {image} (ha : action = .replaceImage) (hphase : s.phase = .running)
      (hw : s.writer = none) (hp : s.published = some image) :
      Micro config action s { s with
        routing := .available ⟨s.nextAddress, image.bundle⟩, nextAddress := s.nextAddress + 1 }
  | reap (failing : List String) (ha : reaps action = true) :
      Micro config action s (s.reap failing)
  | shutdown (hphase : s.phase = .running) (hw : s.writer = none) :
      Micro config action s { s with routing := .shutDown }
  | insert {answer entries catalog} (hscan : s.scanning = false)
      (hrun : (∃ r, insertCandidateBatch answer entries s.catalog = .ok r catalog) ∨
        ∃ e, insertCandidateBatch answer entries s.catalog = .error e catalog) :
      Micro config action s { s with catalog := catalog }
  | beginMutation {call} (hphase : s.phase = .running) (hw : s.writer = none)
      (hrouting : s.routing ≠ .shutDown) (hcall : isMutation call = true) :
      Micro config action s (s.setStage (.mutation call) .awaitCapacity)
  | beginRebuild (hphase : s.phase = .running) (hw : s.writer = none)
      (hrouting : s.routing ≠ .shutDown) :
      Micro config action s (s.setStage .rebuild .awaitCapacity)
  | awaited {kind} (hw : s.writer = some ⟨kind, .awaitCapacity⟩) :
      Micro config action s (s.setStage kind (afterAwait kind))
  | mutateFailed {call answer e catalog} (hw : s.writer = some ⟨.mutation call, .mutate⟩)
      (hrun : call.run answer s.catalog = .error e catalog) :
      Micro config action s { s with catalog := catalog, writer := none }
  | unchanged {call answer result catalog} (hw : s.writer = some ⟨.mutation call, .mutate⟩)
      (hrun : call.run answer s.catalog = .ok result catalog)
      (hchanged : graphChanged result = false) :
      Micro config action s { s with catalog := catalog, writer := none }
  | changed {call answer result catalog} (hw : s.writer = some ⟨.mutation call, .mutate⟩)
      (hrun : call.run answer s.catalog = .ok result catalog)
      (hchanged : graphChanged result = true) :
      Micro config action s ({ s with catalog := catalog }.setStage (.mutation call) .scan)
  | failed {kind stage answer suffix write} (ha : action = .build answer suffix write)
      (hw : s.writer = some ⟨kind, stage⟩) (hstage : stage.builds = true)
      (hfails : s.stageFails stage answer write = true) (hclears : ∀ bundle,
        stage = .selectTopology bundle → kind ≠ .startup) :
      Micro config action s (s.failBuild kind)
  | cleared {kind bundle answer suffix write}
      (ha : action = .build (.failsClearing answer) suffix write)
      (hw : s.writer = some ⟨kind, .selectTopology bundle⟩) :
      Micro config action s ((s.clearPointer answer).failBuild kind)
  | scanned {kind} (hw : s.writer = some ⟨kind, .scan⟩) :
      Micro config action s
        ({ s with sequence := s.sequence + 1 }.setStage kind (.createDirectory s.sequence))
  | created {kind sequence} (hw : s.writer = some ⟨kind, .createDirectory sequence⟩)
      (hfree : s.hasChild (temporaryName s.process sequence) = false) :
      Micro config action s ({ s with
        disk := ⟨temporaryName s.process sequence, none⟩ :: s.disk }.setStage kind
          (.writeFiles sequence))
  | written {kind sequence graph} (hw : s.writer = some ⟨kind, .writeFiles sequence⟩)
      (hgraph : confirmedGraphRecords s.catalog.db = .ok graph) :
      Micro config action s ({ s with
        disk := complete s.disk (temporaryName s.process sequence) graph }.setStage kind
          (.validate sequence graph))
  | validated {kind sequence graph} (hw : s.writer = some ⟨kind, .validate sequence graph⟩) :
      Micro config action s (s.setStage kind (.rename sequence graph))
  | renamed {kind sequence graph suffix} (hw : s.writer = some ⟨kind, .rename sequence graph⟩)
      (hfree : s.hasChild (bundleName (config.manifestChecksum graph) s.process suffix) = false) :
      Micro config action s ({ s with
        disk := renameChild s.disk (temporaryName s.process sequence)
          (bundleName (config.manifestChecksum graph) s.process suffix) }.setStage kind
            (.openFinal (bundleName (config.manifestChecksum graph) s.process suffix)))
  | opened {kind name bundle} (hw : s.writer = some ⟨kind, .openFinal name⟩)
      (hopen : s.openBundle name = some bundle) :
      Micro config action s (s.setStage kind (.commitPointer bundle))
  | pointed {kind bundle answer r catalog} (hw : s.writer = some ⟨kind, .commitPointer bundle⟩)
      (hrun : setActiveRoutingImage answer
        ⟨bundle.root, config.manifestChecksum bundle.graph⟩ s.catalog = .ok r catalog) :
      Micro config action s ({ s with catalog := catalog }.setStage kind (.selectTopology bundle))
  | started {bundle} (hw : s.writer = some ⟨.startup, .selectTopology bundle⟩) :
      Micro config action s { s with
        routing := .available ⟨s.nextAddress, bundle⟩, nextAddress := s.nextAddress + 1
        writer := none, phase := .cleaning true }
  | selected {kind bundle} (hkind : kind ≠ .startup)
      (hw : s.writer = some ⟨kind, .selectTopology bundle⟩) :
      Micro config action s (s.setStage kind (.countLeases bundle))
  | notReplacing {kind bundle} (hw : s.writer = some ⟨kind, .countLeases bundle⟩)
      (hp : ∀ image, s.published = some image → image.bundle.root = bundle.root) :
      Micro config action s (s.setStage kind (.swap bundle))
  | replacing {kind bundle image} (hw : s.writer = some ⟨kind, .countLeases bundle⟩)
      (hp : s.published = some image) :
      Micro config action s (s.setStage kind
        (.retire bundle image.bundle (decide (s.executionLeaseCount + 1 > 2))))
  | alreadyRetired {kind bundle current enforce}
      (hw : s.writer = some ⟨kind, .retire bundle current enforce⟩)
      (hmem : ∃ e ∈ s.retired, e.path = current.root) :
      Micro config action s (s.setStage kind (.swap bundle))
  | retire {kind bundle current enforce failing} (ha : action = .retire failing)
      (hw : s.writer = some ⟨kind, .retire bundle current enforce⟩)
      (hadmits : admits config s.retired (config.totalBytes current.graph) = true ∨
        enforce = false) :
      Micro config action s ({ s with retired := s.retired ++
        [RetiredBundle.mk current.root (config.totalBytes current.graph)] }.setStage kind
          (.swap bundle))
  | swapped {kind bundle} (hw : s.writer = some ⟨kind, .swap bundle⟩) :
      Micro config action s { s with
        routing := .available ⟨s.nextAddress, bundle⟩, nextAddress := s.nextAddress + 1
        writer := none }
  | crashed (ha : action = .crash ∨ s.phase ≠ .running) : Micro config action s s.crashed
  | openEngine {process sequence answer catalog} (hphase : s.phase = .down)
      (hopen : openCatalog answer s.catalog.db = .ok catalog) :
      Micro config action s { s with
        catalog := catalog, phase := .cleaning false, process := process, sequence := sequence }
  | cleanChild {final name} (hphase : s.phase = .cleaning final)
      (hname : positivelyIdentified s.pointerName name = true) :
      Micro config action s
        { s with disk := s.disk.filter fun child => decide (child.name ≠ name) }
  | cleaned {final} (hphase : s.phase = .cleaning final)
      (hclean : ∀ child ∈ s.disk, positivelyIdentified s.pointerName child.name = false) :
      Micro config action s { s with phase := if final then .running else .reopening }
  | reopened {pointer bundle} (hphase : s.phase = .reopening)
      (hread : readActiveRoutingImage s.catalog.db = .ok (some pointer))
      (hopen : s.openBundle pointer.relativeBundle = some bundle) :
      Micro config action s { s with
        routing := .available ⟨s.nextAddress, bundle⟩, nextAddress := s.nextAddress + 1
        phase := .cleaning true }
  | forgotten {answer r catalog} (hphase : s.phase = .reopening)
      (hrun : clearActiveRoutingImage answer s.catalog = .ok r catalog) :
      Micro config action s { s with catalog := catalog }
  | required (hphase : s.phase = .reopening)
      (hpointer : readActiveRoutingImage s.catalog.db = .ok none) :
      Micro config action s { s with routing := .unavailable, phase := .cleaning true }
  | building (hphase : s.phase = .reopening)
      (hpointer : readActiveRoutingImage s.catalog.db = .ok none) :
      Micro config action s { s with phase := .building, writer := some ⟨.startup, .scan⟩ }

/-- The effects of a step. -/
abbrev Micros (config : PublicationConfig) (action : PublicationAction) :=
  Relation.ReflTransGen (Micro config action)

section Steps

variable {action : PublicationAction} {kind : WriterKind} {failing : List String}

lemma awaitCapacityStep_micros (hw : s.writer = some ⟨kind, .awaitCapacity⟩) :
    Micros config (.awaitCapacity failing) s (s.awaitCapacityStep config kind failing) := by
  have hnext : ∀ {t : PublicationSystem}, t.writer = some ⟨kind, .awaitCapacity⟩ →
      Micros config (.awaitCapacity failing) t (t.setStage kind (afterAwait kind)) :=
    fun ht => .single (.awaited ht)
  unfold awaitCapacityStep
  split
  · exact hnext hw
  · split
    · have hreap : Micros config (.awaitCapacity failing) s (s.reap failing) :=
        .single (.reap failing rfl)
      dsimp only
      split
      · exact hreap.trans (hnext hw)
      · exact hreap
    · exact hnext hw

lemma mutateStep_micro {call : CatalogCall} {answer : WriteAnswer}
    (hw : s.writer = some ⟨.mutation call, .mutate⟩) :
    Micro config action s (s.mutateStep call answer) := by
  unfold mutateStep
  split
  · rename_i hrun
    exact .mutateFailed hw hrun
  · rename_i hrun
    dsimp only
    split
    · rename_i hchanged
      exact .changed hw hrun hchanged
    · rename_i hchanged
      exact .unchanged hw hrun (by simpa using hchanged)

lemma retireStep_micros {bundle current : BundleHandle} {enforce : Bool}
    (hw : s.writer = some ⟨kind, .retire bundle current enforce⟩) :
    Micros config (.retire failing) s
      (s.retireStep config kind bundle current enforce failing) := by
  have hreap : Micros config (.retire failing) s (s.reap failing) := .single (.reap failing rfl)
  have hw' : (s.reap failing).writer = some ⟨kind, .retire bundle current enforce⟩ := hw
  unfold retireStep
  dsimp only
  split
  · rename_i hany
    refine hreap.tail (.alreadyRetired hw' ?_)
    simpa using hany
  · split
    · rename_i hadmits
      refine hreap.tail (.retire rfl hw' ?_)
      simpa using hadmits
    · exact hreap

lemma commitPointer_failed {bundle : BundleHandle} {write : WriteAnswer} {e : CatalogError}
    {checksum : Digest} {catalog : Catalog}
    (hrun : setActiveRoutingImage write ⟨bundle.root, checksum⟩ s.catalog = .error e catalog) :
    s.stageFails (.commitPointer bundle) .succeeds write = true := by
  by_cases hfits : (strBytes bundle.root).length < 2 ^ 32
  · rcases write with _ | _ | _
    · simp only [setActiveRoutingImage, if_pos hfits] at hrun
      cases hrun
    · simp [stageFails]
    · simp [stageFails]
  · simp only [stageFails, Bool.or_eq_true, decide_eq_true_eq]
    exact .inr (not_lt.1 hfits)

/-- A stage the environment lets fail. -/
lemma stageFails_of_ne {stage : WriterStage} {answer : BuildAnswer} {write : WriteAnswer}
    (h : answer ≠ .succeeds) : s.stageFails stage answer write = true := by
  rcases answer with _ | _ | _
  · exact absurd rfl h
  · cases stage <;> rfl
  · cases stage <;> rfl

lemma buildStep_micro {stage : WriterStage} {answer : BuildAnswer} {suffix : ℕ}
    {write : WriteAnswer} (hw : s.writer = some ⟨kind, stage⟩)
    (h : s.buildStep config kind stage answer suffix write = some s') :
    Micro config (.build answer suffix write) s s' := by
  unfold buildStep at h
  split at h
  · cases h
    exact .scanned hw
  · dsimp only at h
    split at h <;> cases h
    · rename_i htaken
      exact .failed rfl hw rfl htaken (by simp)
    · rename_i hfree
      exact .created hw (by simpa using hfree)
  · split at h <;> cases h
    · rename_i e hgraph
      exact .failed rfl hw rfl (by simp [stageFails, hgraph, Except.toOption]) (by simp)
    · rename_i graph hgraph
      exact .written hw hgraph
  · cases h
    exact .validated hw
  · dsimp only at h
    split at h <;> cases h
    rename_i hfree
    simp only [freeSuffix, Bool.and_eq_true, Bool.not_eq_true'] at hfree
    exact .renamed hw hfree.1.2
  · split at h <;> cases h
    · rename_i hopen
      exact .failed rfl hw rfl (by simp [stageFails, hopen]) (by simp)
    · rename_i bundle hopen
      exact .opened hw hopen
  · split at h <;> cases h
    · rename_i e catalog hrun
      obtain rfl := CatalogInv.setPointer_failed hrun
      exact .failed rfl hw rfl (commitPointer_failed hrun) (by simp)
    · rename_i r catalog hrun
      exact .pointed hw hrun
  · cases h
    unfold publishBuilt
    split
    · exact .started hw
    · rename_i hkind
      exact .selected hkind hw
  · cases h
    exact .cleared rfl hw
  · split at h
    · rename_i hp
      cases h
      exact .notReplacing hw fun image himage => by rw [hp] at himage; cases himage
    · rename_i image hp
      split at h <;> cases h
      · rename_i hroot
        refine .notReplacing hw fun image' himage => ?_
        rw [hp] at himage
        cases himage
        exact hroot
      · exact .replacing hw hp
  · cases h
    exact .swapped hw
  · split at h <;> cases h
    rename_i hkind
    exact .failed rfl hw rfl rfl fun _ _ => hkind
  all_goals
    cases h
    try
      refine .failed rfl hw rfl (stageFails_of_ne ?_) (by simp)
      rintro rfl
      simp_all

lemma writerStep_micros (h : s.writerStep config action = some s') :
    Micros config action s s' := by
  unfold writerStep at h
  split at h
  · cases h
  · rename_i kind stage hw
    split at h
    · cases h
      exact awaitCapacityStep_micros hw
    · cases h
      exact .single (mutateStep_micro hw)
    · cases h
      exact retireStep_micros hw
    · exact .single (buildStep_micro hw h)
    · cases h

lemma runningStep_micros (hphase : s.phase = .running)
    (h : s.runningStep config action = some s') : Micros config action s s' := by
  unfold runningStep at h
  split at h
  · split at h <;> cases h
    rename_i hbegin
    simp only [Bool.and_eq_true, Option.isNone_iff_eq_none, decide_eq_true_eq] at hbegin
    exact .single (.beginMutation hphase hbegin.1.1 hbegin.1.2 hbegin.2)
  · split at h <;> cases h
    rename_i hbegin
    simp only [Bool.and_eq_true, Option.isNone_iff_eq_none, decide_eq_true_eq] at hbegin
    exact .single (.beginRebuild hphase hbegin.1 hbegin.2)
  · split at h
    · cases h
    · rename_i hscan
      split at h <;> cases h
      · rename_i r catalog hrun
        exact .single (.insert (by simpa using hscan) (.inl ⟨r, hrun⟩))
      · rename_i e catalog hrun
        exact .single (.insert (by simpa using hscan) (.inr ⟨e, hrun⟩))
  · split at h
    · rename_i hw
      obtain ⟨image, hp, rfl⟩ := Option.map_eq_some_iff.1 h
      exact .single (.lease hphase (by simpa using hw) hp)
    · cases h
  · cases h
    exact .single (.dropLease _)
  · obtain ⟨image, hmem, rfl⟩ := Option.map_eq_some_iff.1 h
    exact .single (.submitJob hphase (List.mem_of_getElem? hmem))
  · cases h
    exact .single (.dropJob _)
  · split at h
    · rename_i hw
      obtain ⟨image, hp, rfl⟩ := Option.map_eq_some_iff.1 h
      exact .single (.replaceImage rfl hphase (by simpa using hw) hp)
    · cases h
  · cases h
    exact .single (.reap _ rfl)
  · split at h <;> cases h
    rename_i hw
    exact .single (.shutdown hphase (by simpa using hw))
  · exact writerStep_micros h

/-- What is left to a start that cannot use the image of its pointer. -/
def onMissing (config : PublicationConfig) (s : PublicationSystem) (answer : WriteAnswer) :
    PublicationSystem :=
  match clearActiveRoutingImage answer s.catalog with
  | .ok _ catalog =>
    if config.requireValidBundle then
      { s with catalog := catalog, routing := .unavailable, phase := .cleaning true }
    else { s with catalog := catalog, phase := .building, writer := some ⟨.startup, .scan⟩ }
  | .error _ catalog => { s with catalog := catalog }.crashed

lemma reopenStep_micros {opens : Bool} {answer : WriteAnswer} (hphase : s.phase = .reopening)
    (h : s.reopenStep config opens answer = some s') : Micros config action s s' := by
  have hrebuild : ∀ {t : PublicationSystem}, t.phase = .reopening →
      readActiveRoutingImage t.catalog.db = .ok none → Micros config action t
      (if config.requireValidBundle then { t with routing := .unavailable, phase := .cleaning true }
      else { t with phase := .building, writer := some ⟨.startup, .scan⟩ }) := by
    intro t ht hpointer
    split
    · exact .single (.required ht hpointer)
    · exact .single (.building ht hpointer)
  have hmissing : Micros config action s (s.onMissing config answer) := by
    unfold onMissing
    split
    · rename_i r catalog hrun
      have hforget : Micros config action s { s with catalog := catalog } :=
        .single (.forgotten hphase hrun)
      exact hforget.trans (hrebuild hphase (CatalogInv.readPointer_clear hrun))
    · rename_i e catalog hrun
      obtain rfl := CatalogInv.clearPointer_failed hrun
      exact .single (.crashed (.inr (by simp [hphase])))
  unfold reopenStep at h
  dsimp only at h
  split at h
  · cases h
    exact hmissing
  · rename_i hread
    cases h
    exact hrebuild hphase hread
  · rename_i pointer hread
    split at h
    · rename_i bundle hopen
      split at h <;> cases h
      · exact .single (.reopened hphase hread hopen)
      · exact hmissing
    · cases h
      exact hmissing

lemma startupStep_micros (h : s.startupStep config action = some s') :
    Micros config action s s' := by
  unfold startupStep at h
  split at h
  · rename_i hphase
    split at h
    · cases h
    · rename_i catalog hopen
      split at h <;> cases h
      exact .single (.openEngine hphase hopen)
  · rename_i hphase
    split at h
    · rename_i hname
      simp only [Bool.and_eq_true] at hname
      split at h <;> cases h
      · exact .single (.crashed (.inr (by simp [hphase])))
      · exact .single (.cleanChild hphase hname.2)
    · cases h
  · rename_i final hphase
    split at h
    · cases h
    · rename_i hclean
      have hnone : ∀ child ∈ s.disk, positivelyIdentified s.pointerName child.name = false := by
        simpa using hclean
      rcases final with _ | _ <;> cases h
      · exact .single (.cleaned hphase hnone)
      · exact .single (.cleaned hphase hnone)
  · rename_i hphase
    exact reopenStep_micros hphase h
  · exact writerStep_micros h
  · cases h

/-- A step is made of effects. -/
theorem step_micros {o : Unit} (h : (publication config).step s action = some (s', o)) :
    Micros config action s s' := by
  simp only [publication] at h
  split at h
  · cases h
    exact .single (.crashed (.inl rfl))
  · split at h
    · rename_i hphase
      obtain ⟨t, ht, heq⟩ := Option.map_eq_some_iff.1 h
      cases heq
      exact runningStep_micros hphase ht
    · obtain ⟨t, ht, heq⟩ := Option.map_eq_some_iff.1 h
      cases heq
      exact startupStep_micros ht

end Steps

end PublicationSystem

end PathHydra
