import PathHydra.Framework.Simulation
import PathHydra.Properties.Engine.HydrationCall
import PathHydra.Properties.Engine.Recovery

/-!
# The engine over its catalog

Every effect of publication leaves the catalog alone or is one call of it, and opening the database
again after a crash writes nothing.  So `publication` simulates the machine of catalog calls, and
the machines with hydrations in flight and with recovering routes simulate publication.  What holds
along every run of catalog calls holds along every run of any of them.
-/

namespace PathHydra

/-! ## Calls as runs -/

section Calls

variable {α β : Type} {op : CatalogM α} {c c' : Catalog}

lemma run_map_ok {r : α} (f : α → β) (h : op c = .ok r c') :
    (do let b ← op; return f b : CatalogM β) c = .ok (f r) c' := by
  have hbind : (do let b ← op; return f b : CatalogM β) c =
      EStateM.bind op (fun b => pure (f b)) c := rfl
  rw [hbind]
  delta EStateM.bind
  rw [h]
  rfl

lemma run_map_error {e : CatalogError} (f : α → β) (h : op c = .error e c') :
    (do let b ← op; return f b : CatalogM β) c = .error e c' := by
  have hbind : (do let b ← op; return f b : CatalogM β) c =
      EStateM.bind op (fun b => pure (f b)) c := rfl
  rw [hbind]
  delta EStateM.bind
  rw [h]

lemma reaches_of_ok (call : CatalogCall) {answer : WriteAnswer} {r : CallResult}
    (h : call.run answer c = .ok r c') : catalogMachine.Reaches c c' := by
  apply Machine.Reaches.of_step (a := (call, answer)) (o := (call, .ok r))
  simp only [catalogMachine, h]

lemma reaches_of_error (call : CatalogCall) {answer : WriteAnswer} {e : CatalogError}
    (h : call.run answer c = .error e c') : catalogMachine.Reaches c c' := by
  apply Machine.Reaches.of_step (a := (call, answer)) (o := (call, .error e))
  simp only [catalogMachine, h]

lemma reaches_of_clear {answer : WriteAnswer} {r : Unit}
    (h : clearActiveRoutingImage answer c = .ok r c') : catalogMachine.Reaches c c' :=
  reaches_of_ok .clearActiveRoutingImage (run_map_ok (fun _ => CallResult.done) h)

end Calls

/-! ## Publication -/

namespace PublicationSystem

variable {config : PublicationConfig} {action : PublicationAction} {s s' : PublicationSystem}
  {t : Tables}

/-- An effect of publication is at most one call of the catalog. -/
lemma Inv.micro_catalog (hinv : Inv config s t) (h : Micro config action s s') :
    catalogMachine.Reaches s.catalog s'.catalog := by
  cases h with
  | insert hscan hrun =>
    rename_i answer entries catalog
    rcases hrun with ⟨r, hrun⟩ | ⟨e, hrun⟩
    · apply reaches_of_ok (.insertCandidateBatch entries)
      exact run_map_ok CallResult.inserted hrun
    · apply reaches_of_error (.insertCandidateBatch entries)
      exact run_map_error CallResult.inserted hrun
  | mutateFailed hw hrun => exact reaches_of_error _ hrun
  | unchanged hw hrun hchanged => exact reaches_of_ok _ hrun
  | changed hw hrun hchanged => exact reaches_of_ok _ hrun
  | @cleared kind bundle answer suffix write ha hw =>
    have hclear : catalogMachine.Reaches s.catalog (s.clearPointer answer).catalog := by
      -- a deletion of the pointer that fails leaves the catalog as it is
      unfold PublicationSystem.clearPointer
      split
      · rename_i r catalog hrun
        exact reaches_of_clear hrun
      · rename_i e catalog hrun
        obtain rfl := CatalogInv.clearPointer_failed hrun
        exact .refl _
    rcases kind with _ | _ | _
    · exact hclear
    · exact hclear
    · exact hclear
  | @pointed kind bundle answer r catalog hw hrun =>
    apply reaches_of_ok (.setActiveRoutingImage
      ⟨bundle.root, config.manifestChecksum bundle.graph⟩)
    exact run_map_ok (fun _ => CallResult.done) hrun
  | openEngine hphase hopen =>
    obtain rfl : _ = s.catalog := Except.ok.inj (hopen.symm.trans (hinv.catalog.reopens _))
    exact .refl _
  | forgotten hphase hrun => exact reaches_of_clear hrun
  | failed ha hw hstage hfails hclears =>
    rename_i kind stage answer suffix write
    rcases kind with _ | _ | _
    · exact .refl _
    · exact .refl _
    · exact .refl _
  | _ => exact .refl _

lemma Inv.micros_catalog (hinv : Inv config s t) (h : Micros config action s s') :
    (∃ t', Inv config s' t') ∧ catalogMachine.Reaches s.catalog s'.catalog := by
  induction h with
  | refl => exact ⟨⟨t, hinv⟩, .refl _⟩
  | tail _ hstep ih =>
    obtain ⟨⟨t', hinv'⟩, hreached⟩ := ih
    exact ⟨hinv'.micro hstep, hreached.trans (hinv'.micro_catalog hstep)⟩

lemma simulates_catalog (config : PublicationConfig) :
    Machine.Simulation (publication config) catalogMachine (fun s => ∃ t, Inv config s t)
      PublicationSystem.catalog := by
  constructor
  · rintro s a s' o ⟨t, hinv⟩ hstep
    exact hinv.micros (step_micros hstep)
  · rintro s a s' o ⟨t, hinv⟩ hstep
    exact (hinv.micros_catalog (step_micros hstep)).2

end PublicationSystem

/-! ## The machines around it -/

variable {F : Type} [Binary64 F]

/-- A hydration moves the engine only by actions of publication. -/
lemma hydration_simulates_publication (config : PublicationConfig) (limit : U64) :
    Machine.Simulation (hydration F config limit) (publication config) (fun _ => True)
      HydratingSystem.engine := by
  refine ⟨fun _ _ => trivial, ?_⟩
  rintro s action s' o - hstep
  simp only [hydration] at hstep
  split at hstep
  · cases hstep
    exact .of_step (a := .crash) (o := ()) rfl
  · split_ifs at hstep with hlock
    obtain ⟨⟨u, v⟩, hengine, heq⟩ := Option.map_eq_some_iff.1 hstep
    cases heq
    exact .of_step hengine
  · split_ifs at hstep with hphase
    unfold HydratingSystem.beginHydrate at hstep
    split at hstep
    · cases hstep
      exact .refl _
    · split_ifs at hstep
      split at hstep
      · cases hstep
        exact .refl _
      · cases hstep
        exact .refl _
  · obtain ⟨call, -, heq⟩ := Option.map_eq_some_iff.1 hstep
    cases heq
    exact .refl _

/-- A recovery from a corrupt image is a rebuild of publication. -/
lemma recovery_simulates_publication (config : PublicationConfig) :
    Machine.Simulation (recovery config) (publication config) (fun _ => True)
      RecoverySystem.engine := by
  refine ⟨fun _ _ => trivial, ?_⟩
  rintro s action s' o - hstep
  simp only [recovery] at hstep
  split at hstep
  · split_ifs at hstep with hkeeps
    obtain ⟨⟨u, v⟩, hengine, heq⟩ := Option.map_eq_some_iff.1 hstep
    cases heq
    exact .of_step hengine
  · split at hstep
    · cases hstep
    · obtain ⟨⟨u, v⟩, hengine, heq⟩ := Option.map_eq_some_iff.1 hstep
      cases heq
      exact .of_step hengine

/-- Whatever an engine goes through (mutations, insertions, rebuilds, leases, retirements, crashes
and restarts, hydrations in flight, routes that recover from a corrupt image), what happens to its
catalog from any state of the run to any later one is a sequence of catalog calls.  So each catalog
it ever holds is one that calls alone lead to from a freshly initialised one. -/
theorem engine_refines_catalog {config : PublicationConfig} {s₀ : PublicationSystem}
    (hstart : s₀.Initial) :
    (∀ actions s os actions' s' os', (publication config).run s₀ actions = some (s, os) →
      (publication config).run s actions' = some (s', os') →
      catalogMachine.Reaches .fresh s.catalog ∧ catalogMachine.Reaches s.catalog s'.catalog) ∧
    (∀ limit actions s os actions' s' os',
      (hydration F config limit).run ⟨s₀, []⟩ actions = some (s, os) →
      (hydration F config limit).run s actions' = some (s', os') →
      catalogMachine.Reaches .fresh s.engine.catalog ∧
        catalogMachine.Reaches s.engine.catalog s'.engine.catalog) ∧
    ∀ actions s os actions' s' os', (recovery config).run ⟨s₀, none⟩ actions = some (s, os) →
      (recovery config).run s actions' = some (s', os') →
      catalogMachine.Reaches .fresh s.engine.catalog ∧
        catalogMachine.Reaches s.engine.catalog s'.engine.catalog := by
  have hcatalog := PublicationSystem.simulates_catalog config
  have hinitial : ∃ t, PublicationSystem.Inv config s₀ t := ⟨_, hstart.inv⟩
  refine ⟨?_, ?_, ?_⟩
  · intro actions s os actions' s' os' hrun hlater
    obtain ⟨hinv, hreached⟩ := hcatalog.run hinitial hrun
    rw [hstart.catalog] at hreached
    exact ⟨hreached, (hcatalog.run hinv hlater).2⟩
  · intro limit actions s os actions' s' os' hrun hlater
    have hlayers := (hydration_simulates_publication (F := F) config limit).comp hcatalog
    obtain ⟨hinv, hreached⟩ := hlayers.run ⟨trivial, hinitial⟩ hrun
    rw [Function.comp_apply, hstart.catalog] at hreached
    exact ⟨hreached, (hlayers.run hinv hlater).2⟩
  · intro actions s os actions' s' os' hrun hlater
    have hlayers := (recovery_simulates_publication config).comp hcatalog
    obtain ⟨hinv, hreached⟩ := hlayers.run ⟨trivial, hinitial⟩ hrun
    rw [Function.comp_apply, hstart.catalog] at hreached
    exact ⟨hreached, (hlayers.run hinv hlater).2⟩

/-- A candidate is inserted, and the engine is opened again after a crash. -/
def reopenedActions : List PublicationAction :=
  PublicationSystem.startActions ++
    [.insert [.node ⟨"a"⟩ ⟨[]⟩] .written, .crash, .openEngine 2 0 .written]

theorem engine_refines_catalog_reopened : ∃ s os,
    (publication PublicationSystem.smallConfig).run PublicationSystem.fresh reopenedActions =
      some (s, os) ∧
    (∃ candidate, getCandidateFromDb s.catalog.db ⟨1⟩ = .ok candidate) ∧
    catalogMachine.Reaches .fresh s.catalog := by
  have hrun : ((publication PublicationSystem.smallConfig).run PublicationSystem.fresh
      reopenedActions).map (fun r => (getCandidateFromDb r.1.catalog.db ⟨1⟩).toOption.isSome) =
        some true := by
    decide +kernel
  obtain ⟨⟨s, os⟩, hrun, hheld⟩ := Option.map_eq_some_iff.1 hrun
  obtain ⟨candidate, hcandidate⟩ := Option.isSome_iff_exists.1 hheld
  refine ⟨s, os, hrun, ⟨candidate, toOption_eq_some.1 hcandidate⟩, ?_⟩
  exact ((engine_refines_catalog (F := SoftBinary64) PublicationSystem.fresh_initial).1 _ _ _ [] _ _
    hrun rfl).1

end PathHydra
