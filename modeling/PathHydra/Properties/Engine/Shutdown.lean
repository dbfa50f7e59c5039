import PathHydra.Construction.Engine.Shutdown
import PathHydra.Properties.Engine.Lifecycle

/-!
# Shutdown is safe

`Effect` says once what a step of the engine does to the controller, the permits, the catalog and
the calls of `shutdown`.  From it follow the invariant `EngineSystem.Sound` and the order
`EngineSystem.Advances` that every run moves along, and from these what holds across any
interleaving of operations and shutdowns.
-/

namespace PathHydra

open LifecycleController

/-! ## Stages -/

namespace ShutdownStage

/-- The call has closed admission. -/
def afterClose : ShutdownStage → Bool
  | .closeAdmission => false
  | _ => true

/-- The call has seen the drain. -/
def afterDrain : ShutdownStage → Bool
  | .closeAdmission | .readBoundary | .cancelAll | .waitForDrain => false
  | _ => true

/-- The call has tried to release the store. -/
def afterStore : ShutdownStage → Bool
  | .markShutDown | .report => true
  | _ => false

end ShutdownStage

/-! ## What a step does -/

namespace EngineSystem

/-- Everything shutdown depends on stays. -/
structure Frame (s s' : EngineSystem) : Prop where
  controller : s'.controller = s.controller
  permits : s'.permits = s.permits
  catalog : s'.catalog = s.catalog

/-- What one stage of a call of `shutdown` does to the engine and to the call. -/
inductive StageChange (s s' : EngineSystem) : Option ShutdownCall → Option ShutdownCall → Prop
  | start {r} (h : Frame s s') : StageChange s s' none (some ⟨.closeAdmission, r⟩)
  | leave {call} (h : Frame s s') : StageChange s s' (some call) none
  | close {r r'} (hcontroller : s'.controller = s.controller.closeAdmission)
      (hpermits : s'.permits = s.permits) (hcatalog : s'.catalog = s.catalog) :
      StageChange s s' (some ⟨.closeAdmission, r⟩) (some ⟨.readBoundary, r'⟩)
  | advance {stage stage' r r'} (h : Frame s s') (hclosed : stage.afterClose = true)
      (hdrain : stage'.afterDrain = true → stage.afterDrain = true)
      (hstore : stage'.afterStore = false) :
      StageChange s s' (some ⟨stage, r⟩) (some ⟨stage', r'⟩)
  | drained {r r'} (h : Frame s s') (hdrained : s.controller.pollDrain = .ok true) :
      StageChange s s' (some ⟨.waitForDrain, r⟩) (some ⟨.stopRouting, r'⟩)
  | keepStore {r r'} (h : Frame s s') (hheld : r'.failures = [] → s.catalog.held = false) :
      StageChange s s' (some ⟨.closeStore, r⟩) (some ⟨.markShutDown, r'⟩)
  | closeStore {r r'} (hcontroller : s'.controller = s.controller)
      (hpermits : s'.permits = s.permits) (hcatalog : s'.catalog = ⟨false, 0, false⟩) :
      StageChange s s' (some ⟨.closeStore, r⟩) (some ⟨.markShutDown, r'⟩)
  | mark {r} (hfailures : r.failures = []) (hmark : s.controller.markShutDown = .ok s'.controller)
      (hpermits : s'.permits = s.permits) (hcatalog : s'.catalog = s.catalog) :
      StageChange s s' (some ⟨.markShutDown, r⟩) (some ⟨.report, r⟩)
  | skipMark {r} (h : Frame s s') (hfailures : r.failures ≠ []) :
      StageChange s s' (some ⟨.markShutDown, r⟩) (some ⟨.report, r⟩)

/-- What a step does, and what it shows. -/
inductive Effect (s s' : EngineSystem) : EngineEvent → Prop
  | quiet {o} (h : Frame s s') (hshutdowns : s'.shutdowns = s.shutdowns)
      (ho : ∀ kind, o ≠ .began (.ok kind)) : Effect s s' o
  | refuse {e} (hkeeps : Keeps s.controller s'.controller) (hpermits : s'.permits = s.permits)
      (hcatalog : s'.catalog = s.catalog) (hshutdowns : s'.shutdowns = s.shutdowns) :
      Effect s s' (.began (.error e))
  | grant {kind c} (hgrants : Grants s.controller kind s'.controller)
      (hpermits : s'.permits = ⟨kind, c⟩ :: s.permits) (hcatalog : s'.catalog = s.catalog)
      (hshutdowns : s'.shutdowns = s.shutdowns) : Effect s s' (.began (.ok kind))
  | drop {permit} (hmem : permit ∈ s.permits)
      (hcontroller : s'.controller = s.controller.release permit.kind)
      (hpermits : s'.permits = s.permits.erase permit) (hcatalog : s'.catalog = s.catalog)
      (hshutdowns : s'.shutdowns = s.shutdowns) : Effect s s' .silent
  | useCatalog {o} (hcontroller : s'.controller = s.controller)
      (hpermits : s'.permits = s.permits) (hheld : s'.catalog.held = s.catalog.held)
      (hused : s.catalog.held = true ∨ s.catalog.clones ≠ 0)
      (hshutdowns : s'.shutdowns = s.shutdowns) (ho : ∀ kind, o ≠ .began (.ok kind)) :
      Effect s s' o
  | stage {o} (i : ℕ) (next : Option ShutdownCall)
      (hchange : StageChange s s' (s.shutdowns i) next)
      (hshutdowns : s'.shutdowns = Function.update s.shutdowns i next)
      (ho : ∀ kind, o ≠ .began (.ok kind)) : Effect s s' o

variable {s s' : EngineSystem} {o : EngineEvent}

lemma beginStep_effect {caller : ℕ} {operation : Operation}
    (h : s.beginStep caller operation = some (s', o)) : Effect s s' o := by
  unfold beginStep at h
  split at h
  · cases h
  · have hadmits := beginOperation_admits s.controller operation.kind
    split at h
    · rename_i e controller hbegin
      rw [hbegin] at hadmits
      cases h
      exact .refuse hadmits rfl rfl rfl
    · rename_i kind controller hbegin
      rw [hbegin] at hadmits
      obtain ⟨rfl, hgrants⟩ := hadmits
      rcases operation with ⟨requestId, cancellation⟩ | _ | _ | _ <;>
        cases h <;> exact .grant (c := caller) hgrants rfl rfl rfl

lemma dropStep_effect {caller : ℕ} (h : s.dropStep caller = some (s', o)) : Effect s s' o := by
  unfold dropStep at h
  split at h
  · cases h
  · rename_i permit hfind
    split at h
    · cases h
      exact .drop (List.mem_of_find?_eq_some hfind) rfl rfl rfl rfl
    · cases h

lemma routeStep_effect {caller : ℕ} {action : EngineAction}
    (h : s.routeStep caller action = some (s', o)) : Effect s s' o := by
  unfold routeStep at h
  split at h
  · cases h
  · split at h
    · split at h <;> cases h <;> exact .quiet ⟨rfl, rfl, rfl⟩ rfl (by simp)
    · cases h
      exact .quiet ⟨rfl, rfl, rfl⟩ rfl (by simp)
    · split at h <;> cases h
      exact .quiet ⟨rfl, rfl, rfl⟩ rfl (by simp)
    · cases h
      refine .quiet ⟨rfl, rfl, rfl⟩ rfl fun kind => ?_
      split <;> simp
    all_goals
      cases h
      try exact .quiet ⟨rfl, rfl, rfl⟩ rfl (by simp)

lemma resourceStep_effect {action : EngineAction}
    (h : s.resourceStep action = some (s', o)) : Effect s s' o := by
  unfold resourceStep at h
  split at h
  · cases h
    exact .quiet ⟨rfl, rfl, rfl⟩ rfl (by simp)
  · cases h
    exact .quiet ⟨rfl, rfl, rfl⟩ rfl (by simp)
  · split at h <;> cases h
    exact .quiet ⟨rfl, rfl, rfl⟩ rfl (by simp)
  · split at h <;> cases h
    exact .quiet ⟨rfl, rfl, rfl⟩ rfl (by simp)
  · obtain ⟨n, -, heq⟩ := Option.map_eq_some_iff.1 h
    cases heq
    exact .quiet ⟨rfl, rfl, rfl⟩ rfl (by simp)
  · split at h <;> cases h
    exact .quiet ⟨rfl, rfl, rfl⟩ rfl (by simp)
  · split at h <;> cases h
    · rename_i hheld
      exact .useCatalog rfl rfl rfl (.inl hheld) rfl (by simp)
    · exact .quiet ⟨rfl, rfl, rfl⟩ rfl (by simp)
  · split at h <;> cases h
    rename_i hclones
    exact .useCatalog rfl rfl rfl (.inr hclones) rfl (by simp)
  · split at h <;> cases h
    rename_i hclones
    exact .useCatalog rfl rfl rfl (.inr hclones) rfl (by simp)
  · cases h

/-- A stage that proceeds changes the call as `StageChange` says. -/
lemma effect_of_proceed {i : ℕ} {t : EngineSystem} {call : ShutdownCall} {stage : ShutdownStage}
    {r : ShutdownReport} (h : t.proceed i stage r = some (s', o))
    (hcall : s.shutdowns i = some call) (hframe : t.shutdowns = s.shutdowns)
    (hchange : ∀ s', s'.controller = t.controller → s'.permits = t.permits →
      s'.catalog = t.catalog → StageChange s s' (some call) (some ⟨stage, r⟩)) :
    Effect s s' o := by
  cases h
  refine .stage i (some ⟨stage, r⟩) ?_ ?_ (by simp)
  · rw [hcall]
    exact hchange _ rfl rfl rfl
  · show Function.update t.shutdowns i _ = _
    rw [hframe]

lemma effect_of_leave {i : ℕ} {call : ShutdownCall} {result : Except LifecycleError ShutdownReport}
    (hcall : s.shutdowns i = some call) (h : s.leave i result = some (s', o)) : Effect s s' o := by
  cases h
  refine .stage i none ?_ rfl (by simp)
  rw [hcall]
  exact .leave ⟨rfl, rfl, rfl⟩

section Stages

variable {i : ℕ} {report : ShutdownReport} {answer : StageAnswer}

lemma waitForDrainStage_effect (hcall : s.shutdowns i = some ⟨.waitForDrain, report⟩)
    (h : s.waitForDrainStage i report answer = some (s', o)) : Effect s s' o := by
  simp only [waitForDrainStage] at h
  split at h
  · exact effect_of_leave hcall h
  · rename_i hdrained
    exact effect_of_proceed h hcall rfl (fun s' hc hp ht => .drained ⟨hc, hp, ht⟩ hdrained)
  · split at h
    · cases h
    · exact effect_of_leave hcall h

lemma stopRoutingStage_effect (hcall : s.shutdowns i = some ⟨.stopRouting, report⟩)
    (h : s.stopRoutingStage i report answer = some (s', o)) : Effect s s' o := by
  have hnext : ∀ (s' : EngineSystem) r, s'.controller = s.controller → s'.permits = s.permits →
      s'.catalog = s.catalog →
        StageChange s s' (some ⟨.stopRouting, report⟩) (some ⟨.stopCuda, r⟩) :=
    fun s' r hc hp ht => .advance ⟨hc, hp, ht⟩ rfl (fun _ => rfl) rfl
  simp only [stopRoutingStage] at h
  split at h
  · split at h
    · exact effect_of_proceed h hcall rfl (hnext · _)
    · exact effect_of_proceed h hcall rfl (hnext · _)
  · exact effect_of_proceed h hcall rfl (hnext · _)

lemma stopCudaStage_effect (hcall : s.shutdowns i = some ⟨.stopCuda, report⟩)
    (h : s.stopCudaStage i report answer = some (s', o)) : Effect s s' o := by
  have hnext : ∀ (s' : EngineSystem) r, s'.controller = s.controller → s'.permits = s.permits →
      s'.catalog = s.catalog →
        StageChange s s' (some ⟨.stopCuda, report⟩) (some ⟨.closeStore, r⟩) :=
    fun s' r hc hp ht => .advance ⟨hc, hp, ht⟩ rfl (fun _ => rfl) rfl
  simp only [stopCudaStage] at h
  split at h
  · exact effect_of_proceed h hcall rfl (hnext · _)
  · split at h
    · exact effect_of_proceed h hcall rfl (hnext · _)
    · exact effect_of_proceed h hcall rfl (hnext · _)
  · exact effect_of_proceed h hcall rfl (hnext · _)

lemma closeStoreStage_effect (hcall : s.shutdowns i = some ⟨.closeStore, report⟩)
    (h : s.closeStoreStage i report answer = some (s', o)) : Effect s s' o := by
  simp only [closeStoreStage] at h
  split at h
  · split at h
    · refine effect_of_proceed h hcall rfl (fun s' hc hp ht => .keepStore ⟨hc, hp, ht⟩ ?_)
      simp [ShutdownReport.fail]
    · split at h
      · exact effect_of_proceed h hcall rfl (fun s' hc hp ht => .closeStore hc hp ht)
      · refine effect_of_proceed h hcall rfl (fun s' hc hp ht => .keepStore ⟨hc, hp, ht⟩ ?_)
        simp [ShutdownReport.fail]
  · rename_i hheld
    exact effect_of_proceed h hcall rfl
      (fun s' hc hp ht => .keepStore ⟨hc, hp, ht⟩ fun _ => by simpa using hheld)

lemma markShutDownStage_effect (hcall : s.shutdowns i = some ⟨.markShutDown, report⟩)
    (h : s.markShutDownStage i report = some (s', o)) : Effect s s' o := by
  simp only [markShutDownStage] at h
  split at h
  · rename_i hfailures
    split at h
    · exact effect_of_leave hcall h
    · rename_i controller hmark
      refine effect_of_proceed h hcall rfl (fun s' hc hp ht => .mark hfailures ?_ hp ht)
      rw [hc]
      exact hmark
  · rename_i hfailures
    exact effect_of_proceed h hcall rfl (fun s' hc hp ht => .skipMark ⟨hc, hp, ht⟩ hfailures)

lemma callShutdownStep_effect (h : s.callShutdownStep i = some (s', o)) : Effect s s' o := by
  unfold callShutdownStep at h
  split at h
  · cases h
  · rename_i hcall
    dsimp only at h
    split at h <;> cases h
    · exact .quiet ⟨rfl, rfl, rfl⟩ rfl (by simp)
    · refine .stage i _ ?_ rfl (by simp)
      rw [hcall]
      exact .start ⟨rfl, rfl, rfl⟩

lemma shutdownStep_effect (h : s.shutdownStep i answer = some (s', o)) : Effect s s' o := by
  unfold shutdownStep at h
  split at h
  · cases h
  · rename_i stage report hcall
    split at h
    · exact effect_of_leave hcall h
    · cases stage with
      | closeAdmission =>
        exact effect_of_proceed h hcall rfl (fun s' hc hp ht => .close hc hp ht)
      | readBoundary =>
        exact effect_of_proceed h hcall rfl
          (fun s' hc hp ht => .advance ⟨hc, hp, ht⟩ rfl (by simp [ShutdownStage.afterDrain]) rfl)
      | cancelAll =>
        exact effect_of_proceed h hcall rfl
          (fun s' hc hp ht => .advance ⟨hc, hp, ht⟩ rfl (by simp [ShutdownStage.afterDrain]) rfl)
      | waitForDrain => exact waitForDrainStage_effect hcall h
      | stopRouting => exact stopRoutingStage_effect hcall h
      | stopCuda => exact stopCudaStage_effect hcall h
      | closeStore => exact closeStoreStage_effect hcall h
      | markShutDown => exact markShutDownStage_effect hcall h
      | report => exact effect_of_leave hcall h

end Stages

/-- What a step of the engine does. -/
theorem step_effect {action : EngineAction} (h : engine.step s action = some (s', o)) :
    Effect s s' o := by
  simp only [engine] at h
  split at h
  · exact beginStep_effect h
  · exact dropStep_effect h
  · exact routeStep_effect h
  · exact routeStep_effect h
  · exact routeStep_effect h
  · exact routeStep_effect h
  · exact routeStep_effect h
  · exact callShutdownStep_effect h
  · exact shutdownStep_effect h
  · exact resourceStep_effect h

/-! ## The invariant -/

/-- What a call of `shutdown` knows: past the close no operation is admitted, past the drain none
is active, and past the store without a failure the catalog is released. -/
structure CallSound (s : EngineSystem) (call : ShutdownCall) : Prop where
  closed : call.stage.afterClose = true → s.controller.lifecycle ≠ .running
  drained : call.stage.afterDrain = true → s.permits = []
  released : call.stage.afterStore = true → call.report.failures = [] → s.catalog.held = false

/-- The invariant of the engine. -/
structure Sound (maximum : ℕ) (s : EngineSystem) : Prop where
  counts : ∀ kind, s.controller.active.slot kind =
    s.permits.countP fun permit => decide (permit.kind = kind)
  maximum_eq : s.controller.maximumMaintenanceWorkers = maximum
  workers : s.controller.active.maintenance ≤ maximum
  flushed : s.catalog.held = false → s.catalog.clones = 0 ∧ s.catalog.unflushed = false
  calls : ∀ i call, s.shutdowns i = some call → CallSound s call
  shutDown : s.controller.lifecycle = .shutDown → s.permits = [] ∧ s.catalog.held = false

/-- What only moves forward: the lifecycle state, the permits once admission is closed, and the
release of the catalog. -/
structure Advances (s s' : EngineSystem) : Prop where
  lifecycle : s.controller.lifecycle.Reaches s'.controller.lifecycle
  permits : s.controller.lifecycle ≠ .running → s'.permits.Sublist s.permits
  catalog : s.catalog.held = false → s'.catalog.held = false

lemma Advances.refl (s : EngineSystem) : Advances s s := ⟨.refl, fun _ => .refl _, id⟩

lemma Advances.trans {t : EngineSystem} (h : Advances s s') (h' : Advances s' t) :
    Advances s t := by
  refine ⟨h.lifecycle.trans h'.lifecycle, fun hclosed => ?_, fun hheld => ?_⟩
  · exact (h'.permits (h.lifecycle.ne_running hclosed)).trans (h.permits hclosed)
  · exact h'.catalog (h.catalog hheld)

lemma Frame.advances (h : Frame s s') : Advances s s' := by
  refine ⟨?_, fun _ => ?_, fun hheld => ?_⟩
  · rw [h.controller]
  · rw [h.permits]
  · rw [h.catalog, hheld]

/-- What a call knows stays true. -/
lemma CallSound.mono {call : ShutdownCall} (h : CallSound s call) (hadv : Advances s s')
    (hclosed : call.stage.afterDrain = true → call.stage.afterClose = true) :
    CallSound s' call := by
  refine ⟨fun hstage => ?_, fun hstage => ?_, fun hstage hfailures => ?_⟩
  · exact hadv.lifecycle.ne_running (h.closed hstage)
  · have hsub := hadv.permits (h.closed (hclosed hstage))
    rw [h.drained hstage] at hsub
    exact List.sublist_nil.1 hsub
  · exact hadv.catalog (h.released hstage hfailures)

lemma afterClose_of_afterDrain (stage : ShutdownStage) (h : stage.afterDrain = true) :
    stage.afterClose = true := by
  cases stage <;> first | rfl | cases h

variable {maximum : ℕ}

/-- Counters at zero mean that no permit is live. -/
lemma Sound.permits_eq_nil (h : Sound maximum s)
    (hzero : ∀ kind, s.controller.active.slot kind = 0) : s.permits = [] := by
  apply List.eq_nil_iff_forall_not_mem.2
  intro permit hmem
  have hcount := h.counts permit.kind
  rw [hzero, eq_comm, List.countP_eq_zero] at hcount
  exact hcount permit hmem (by simp)

lemma StageChange.advances {call next : Option ShutdownCall} (h : StageChange s s' call next)
    (hcall : ∀ c, call = some c → CallSound s c) : Advances s s' := by
  rcases h with h | h | ⟨hc, hp, ht⟩ | ⟨h, -, -, -⟩ | ⟨h, -⟩ | ⟨h, -⟩ | ⟨hc, hp, ht⟩ |
    ⟨hfailures, hmark, hp, ht⟩ | ⟨h, -⟩
  · exact h.advances
  · exact h.advances
  · refine ⟨?_, fun _ => by rw [hp], fun hheld => by rw [ht, hheld]⟩
    rw [hc]
    exact closeAdmission_next s.controller
  · exact h.advances
  · exact h.advances
  · exact h.advances
  · exact ⟨by rw [hc], fun _ => by rw [hp], fun _ => by rw [ht]⟩
  · refine ⟨?_, fun _ => by rw [hp], fun hheld => by rw [ht, hheld]⟩
    have hclosed := (hcall _ rfl).closed rfl
    rw [(markShutDown_eq_ok hmark).2]
    rcases hstate : s.controller.lifecycle with _ | _ | _
    · exact absurd hstate hclosed
    · exact .single .finish
    · exact .refl
  · exact h.advances

/-- Every step moves forward. -/
lemma Effect.advances (h : Effect s s' o) (hsound : Sound maximum s) : Advances s s' := by
  rcases h with ⟨h, -, -⟩ | ⟨hkeeps, hp, ht, -⟩ | ⟨hgrants, hp, ht, -⟩ | ⟨hmem, hc, hp, ht, -⟩ |
    ⟨hc, hp, hheld', hused, -, -⟩ | ⟨i, next, hchange, -, -⟩
  · exact h.advances
  · exact ⟨by rw [hkeeps.lifecycle], fun _ => by rw [hp], fun hheld => by rw [ht, hheld]⟩
  · refine ⟨?_, fun hclosed => absurd hgrants.running hclosed, fun hheld => by rw [ht, hheld]⟩
    rw [hgrants.running, hgrants.lifecycle]
  · refine ⟨by rw [hc]; exact .refl, fun _ => ?_, fun hheld => by rw [ht, hheld]⟩
    rw [hp]
    exact List.erase_sublist
  · exact ⟨by rw [hc], fun _ => by rw [hp], fun hheld => by rw [hheld', hheld]⟩
  · exact hchange.advances fun c hc => hsound.calls i c hc

/-- A stage leaves a call that knows what its next stage relies on. -/
lemma StageChange.callSound {call : Option ShutdownCall} {next : ShutdownCall}
    (h : StageChange s s' call (some next)) (hsound : Sound maximum s)
    (hcall : ∀ c, call = some c → CallSound s c) : CallSound s' next := by
  have hadv := h.advances hcall
  rcases h with h | _ | ⟨hc, hp, ht⟩ | ⟨h, hclosed, hdrain, hstore⟩ | ⟨h, hdrained⟩ | ⟨h, hheld⟩ |
    ⟨hc, hp, ht⟩ | ⟨hfailures, hmark, hp, ht⟩ | ⟨h, hfailures⟩
  · exact ⟨by simp [ShutdownStage.afterClose], by simp [ShutdownStage.afterDrain],
      by simp [ShutdownStage.afterStore]⟩
  · refine ⟨fun _ => ?_, by simp [ShutdownStage.afterDrain], by simp [ShutdownStage.afterStore]⟩
    rw [hc]
    exact closeAdmission_ne_running s.controller
  · have hprior := hcall _ rfl
    refine ⟨fun _ => ?_, fun hstage => ?_, fun hstage => ?_⟩
    · rw [h.controller]
      exact hprior.closed hclosed
    · rw [h.permits]
      exact hprior.drained (hdrain hstage)
    · rw [show _ = false from hstore] at hstage
      cases hstage
  · have hprior := hcall _ rfl
    refine ⟨fun _ => ?_, fun _ => ?_, by simp [ShutdownStage.afterStore]⟩
    · rw [h.controller]
      exact hprior.closed rfl
    · rw [h.permits]
      exact hsound.permits_eq_nil fun kind => pollDrain_eq_true hdrained kind
  · have hmono := (hcall _ rfl).mono hadv fun _ => rfl
    refine ⟨hmono.closed, hmono.drained, fun _ hfailures => ?_⟩
    rw [h.catalog]
    exact hheld hfailures
  · have hmono := (hcall _ rfl).mono hadv fun _ => rfl
    refine ⟨hmono.closed, hmono.drained, fun _ _ => ?_⟩
    rw [ht]
  · have hmono := (hcall _ rfl).mono hadv fun _ => rfl
    exact ⟨hmono.closed, hmono.drained, hmono.released⟩
  · have hmono := (hcall _ rfl).mono hadv fun _ => rfl
    exact ⟨hmono.closed, hmono.drained, hmono.released⟩

/-- The calls that do not move keep what they know; the one that moves gets it from its stage. -/
lemma Effect.calls (h : Effect s s' o) (hsound : Sound maximum s) (j : ℕ) (call : ShutdownCall)
    (hcall : s'.shutdowns j = some call) : CallSound s' call := by
  have hadv := h.advances hsound
  have hkeep : s'.shutdowns j = s.shutdowns j → CallSound s' call := fun hsame =>
    (hsound.calls j call (hsame ▸ hcall)).mono hadv (afterClose_of_afterDrain call.stage)
  rcases h with ⟨-, hs, -⟩ | ⟨-, -, -, hs⟩ | ⟨-, -, -, hs⟩ | ⟨-, -, -, -, hs⟩ |
    ⟨-, -, -, -, hs, -⟩ | ⟨i, next, hchange, hs, -⟩
  · exact hkeep (by rw [hs])
  · exact hkeep (by rw [hs])
  · exact hkeep (by rw [hs])
  · exact hkeep (by rw [hs])
  · exact hkeep (by rw [hs])
  · by_cases hij : j = i
    · subst hij
      rw [hs, Function.update_self] at hcall
      subst hcall
      exact hchange.callSound hsound fun c hc => hsound.calls j c hc
    · exact hkeep (by rw [hs, Function.update_of_ne hij])

/-- A stage changes neither the counts nor the maximum, and releases only a flushed catalog. -/
lemma StageChange.sound {call next : Option ShutdownCall} (h : StageChange s s' call next)
    (hsound : Sound maximum s) (hcall : ∀ c, call = some c → CallSound s c)
    (hcalls : ∀ i call, s'.shutdowns i = some call → CallSound s' call) : Sound maximum s' := by
  -- most stages leave the controller, the permits and the catalog alone
  have hframe : ∀ {s' : EngineSystem}, Frame s s' →
      (∀ i call, s'.shutdowns i = some call → CallSound s' call) → Sound maximum s' := by
    intro s' h hcalls
    refine ⟨?_, ?_, ?_, ?_, hcalls, ?_⟩
    · rw [h.controller, h.permits]
      exact hsound.counts
    · rw [h.controller]
      exact hsound.maximum_eq
    · rw [h.controller]
      exact hsound.workers
    · rw [h.catalog]
      exact hsound.flushed
    · rw [h.controller, h.permits, h.catalog]
      exact hsound.shutDown
  rcases h with h | h | ⟨hc, hp, ht⟩ | ⟨h, -, -, -⟩ | ⟨h, -⟩ | ⟨h, -⟩ | ⟨hc, hp, ht⟩ |
    ⟨hfailures, hmark, hp, ht⟩ | ⟨h, -⟩
  · exact hframe h hcalls
  · exact hframe h hcalls
  · refine ⟨?_, ?_, ?_, ?_, hcalls, fun hshut => ?_⟩
    · rw [hc, hp, closeAdmission_active]
      exact hsound.counts
    · rw [hc, closeAdmission_maximum]
      exact hsound.maximum_eq
    · rw [hc, closeAdmission_active]
      exact hsound.workers
    · rw [ht]
      exact hsound.flushed
    · rw [hp, ht]
      apply hsound.shutDown
      rw [hc] at hshut
      unfold closeAdmission at hshut
      split at hshut
      · cases hshut
      · exact hshut
  · exact hframe h hcalls
  · exact hframe h hcalls
  · exact hframe h hcalls
  · refine ⟨?_, ?_, ?_, ?_, hcalls, fun hshut => ?_⟩
    · rw [hc, hp]
      exact hsound.counts
    · rw [hc]
      exact hsound.maximum_eq
    · rw [hc]
      exact hsound.workers
    · rw [ht]
      exact fun _ => ⟨rfl, rfl⟩
    · rw [hc] at hshut
      rw [hp, ht]
      exact ⟨(hsound.shutDown hshut).1, rfl⟩
  · -- only here the engine becomes shut down: no permit is left, and nothing has failed
    obtain ⟨hzero, hc⟩ := markShutDown_eq_ok hmark
    refine ⟨?_, ?_, ?_, ?_, hcalls, fun _ => ?_⟩
    · rw [hc, hp]
      exact hsound.counts
    · rw [hc]
      exact hsound.maximum_eq
    · rw [hc]
      exact hsound.workers
    · rw [ht]
      exact hsound.flushed
    · rw [hp, ht]
      exact ⟨hsound.permits_eq_nil hzero, (hcall _ rfl).released rfl hfailures⟩
  · exact hframe h hcalls

/-- The number of permits of a kind when one is granted. -/
lemma countP_grant (kind kind' : OperationKind) (caller : ℕ) (permits : List LifecyclePermit) :
    (⟨kind, caller⟩ :: permits).countP (fun permit => decide (permit.kind = kind')) =
      if kind' = kind then permits.countP (fun permit => decide (permit.kind = kind)) + 1
      else permits.countP (fun permit => decide (permit.kind = kind')) := by
  rw [List.countP_cons]
  by_cases hkind : kind' = kind
  · simp [hkind]
  · simp [hkind, Ne.symm hkind]

/-- The number of permits of a kind when one is dropped. -/
lemma countP_drop {permit : LifecyclePermit} {permits : List LifecyclePermit}
    (hmem : permit ∈ permits) (kind : OperationKind) :
    (permits.erase permit).countP (fun permit => decide (permit.kind = kind)) =
      if kind = permit.kind then
        permits.countP (fun other => decide (other.kind = permit.kind)) - 1
      else permits.countP (fun permit => decide (permit.kind = kind)) := by
  have hperm := (List.perm_cons_erase hmem).countP_eq fun permit => decide (permit.kind = kind)
  rw [List.countP_cons] at hperm
  by_cases hkind : kind = permit.kind
  · subst hkind
    simp only [decide_true, if_true] at hperm ⊢
    omega
  · simp only [Ne.symm hkind, decide_false, Bool.false_eq_true, if_false] at hperm
    rw [if_neg hkind]
    omega

/-- Every step keeps the invariant. -/
theorem Effect.sound (h : Effect s s' o) (hsound : Sound maximum s) : Sound maximum s' := by
  have hcalls := h.calls hsound
  rcases h with ⟨h, -, -⟩ | ⟨hkeeps, hp, ht, -⟩ | ⟨hgrants, hp, ht, -⟩ | ⟨hmem, hc, hp, ht, -⟩ |
    ⟨hc, hp, hheld, hused, -, -⟩ | ⟨i, next, hchange, -, -⟩
  · exact (StageChange.start (r := .ofSnapshot s.controller) h).sound hsound (by simp) hcalls
  · refine ⟨?_, ?_, ?_, ?_, hcalls, ?_⟩
    · rw [hkeeps.active, hp]
      exact hsound.counts
    · rw [hkeeps.maximum]
      exact hsound.maximum_eq
    · rw [hkeeps.active]
      exact hsound.workers
    · rw [ht]
      exact hsound.flushed
    · rw [hkeeps.lifecycle, hp, ht]
      exact hsound.shutDown
  · rename_i kind caller
    refine ⟨fun kind' => ?_, ?_, ?_, ?_, hcalls, fun hshut => ?_⟩
    · rw [hgrants.slots, hp, countP_grant, hsound.counts, hsound.counts]
    · rw [hgrants.maximum]
      exact hsound.maximum_eq
    · -- a permit of maintenance is granted only below the maximum
      have hslot := hgrants.slots .maintenance
      have hold := hsound.workers
      have hmaximum := hsound.maximum_eq
      simp only [ActiveOperationCounts.slot] at hslot
      split at hslot
      · rename_i hkind
        have hroom := hgrants.room hkind.symm
        subst hkind
        simp only at hslot
        omega
      · omega
    · rw [ht]
      exact hsound.flushed
    · rw [hgrants.lifecycle] at hshut
      cases hshut
  · rename_i permit
    refine ⟨fun kind => ?_, ?_, ?_, ?_, hcalls, fun hshut => ?_⟩
    · rw [hc, hp, countP_drop hmem]
      show (s.controller.active.decrement permit.kind).slot kind = _
      rw [ActiveOperationCounts.slot_decrement, hsound.counts, hsound.counts]
    · rw [hc]
      exact hsound.maximum_eq
    · rw [hc]
      exact (ActiveOperationCounts.slot_decrement_le s.controller.active permit.kind
        .maintenance).trans hsound.workers
    · rw [ht]
      exact hsound.flushed
    · rw [hc] at hshut
      -- an engine that is shut down has no permit to drop
      have hnil := (hsound.shutDown hshut).1
      rw [hnil] at hmem
      cases hmem
  · refine ⟨?_, ?_, ?_, fun hreleased => ?_, hcalls, ?_⟩
    · rw [hc, hp]
      exact hsound.counts
    · rw [hc]
      exact hsound.maximum_eq
    · rw [hc]
      exact hsound.workers
    · rw [hheld] at hreleased
      rcases hused with hused | hused
      · rw [hreleased] at hused
        cases hused
      · exact absurd (hsound.flushed hreleased).1 hused
    · rw [hc, hp, hheld]
      exact hsound.shutDown
  · exact hchange.sound hsound (fun c hcall => hsound.calls i c hcall) hcalls

/-! ## Runs -/

lemma sound_opened (maximum : ℕ) (flags : ℕ → Bool) (routing : RoutingStatus) (cuda : Option ℕ) :
    Sound maximum (opened maximum flags routing cuda) where
  counts kind := ActiveOperationCounts.slot_zero kind
  maximum_eq := rfl
  workers := Nat.zero_le _
  flushed hheld := by cases hheld
  calls i call hcall := by cases hcall
  shutDown hshut := by cases hshut

variable {actions : List EngineAction} {os : List EngineEvent}

theorem run_sound (hsound : Sound maximum s) (hrun : engine.run s actions = some (s', os)) :
    Sound maximum s' :=
  Machine.run_invariant (fun _ _ _ _ hs hstep => (step_effect hstep).sound hs) hsound hrun

theorem run_advances (hsound : Sound maximum s) (hrun : engine.run s actions = some (s', os)) :
    Advances s s' := by
  refine (Machine.run_invariant (I := fun t => Sound maximum t ∧ Advances s t) ?_
    ⟨hsound, .refl s⟩ hrun).2
  intro t action t' o ⟨ht, hadv⟩ hstep
  have heffect := step_effect hstep
  exact ⟨heffect.sound ht, hadv.trans (heffect.advances ht)⟩

/-- A step from a state that does not admit grants nothing. -/
lemma Effect.not_granted (h : Effect s s' o) (hclosed : s.controller.lifecycle ≠ .running)
    (kind : OperationKind) : o ≠ .began (.ok kind) := by
  rcases h with ⟨-, -, ho⟩ | _ | ⟨hgrants, -, -, -⟩ | _ | ⟨-, -, -, -, -, ho⟩ | ⟨i, next, -, -, ho⟩
  · exact ho kind
  · simp
  · exact absurd hgrants.running hclosed
  · simp
  · exact ho kind
  · exact ho kind

/-- No run from a state that does not admit grants a permit. -/
theorem run_not_granted (hsound : Sound maximum s) (hclosed : s.controller.lifecycle ≠ .running)
    (hrun : engine.run s actions = some (s', os)) (kind : OperationKind) :
    EngineEvent.began (.ok kind) ∉ os := by
  intro hmem
  refine (Machine.run_outputs (I := fun t => Sound maximum t ∧ Advances s t)
    (P := fun o => ∀ kind, o ≠ .began (.ok kind)) ?_ ⟨hsound, .refl s⟩ hrun).2 _ hmem kind rfl
  intro t action t' o ⟨ht, hadv⟩ hstep
  have heffect := step_effect hstep
  exact ⟨⟨heffect.sound ht, hadv.trans (heffect.advances ht)⟩,
    heffect.not_granted (hadv.lifecycle.ne_running hclosed)⟩

/-- What an engine that is shut down answers: every operation and every use of the catalog is
refused, and a further call of `shutdown` returns at once and changes nothing. -/
structure Refuses (s : EngineSystem) : Prop where
  operations : ∀ caller operation, ∃ s', engine.step s (.begin caller operation) =
    some (s', .began (.error .shutDown)) ∧ s'.permits = s.permits
  catalog : engine.step s .cloneCatalog = some (s, .catalog (.error .shutDown))
  shutdown : ∀ i, s.shutdowns i = none → ∃ report : ShutdownReport,
    engine.step s (.callShutdown i) = some (s, .returned (.ok report)) ∧
      report.alreadyShutDown = true ∧ report.complete = true

lemma Sound.refuses (h : Sound maximum s) (hshut : s.controller.lifecycle = .shutDown) :
    Refuses s := by
  obtain ⟨hpermits, hheld⟩ := h.shutDown hshut
  refine ⟨fun caller operation => ?_, ?_, fun i hi => ?_⟩
  · refine ⟨{ s with controller := s.controller.reject }, ?_, rfl⟩
    show s.beginStep caller operation = _
    simp [beginStep, busy, hpermits, beginOperation_shutDown hshut]
  · show s.resourceStep .cloneCatalog = _
    simp [resourceStep, hheld]
  · refine ⟨.ofSnapshot s.controller, ?_, ?_, ?_⟩
    · show s.callShutdownStep i = _
      simp [callShutdownStep, hi, hshut]
    · simp [ShutdownReport.ofSnapshot, hshut]
    · simp [ShutdownReport.complete, ShutdownReport.ofSnapshot, hshut]

/-- Lifecycle and shutdown are safe in every interleaving of operations, permit drops and calls of
`shutdown`.  In every state `s` that is reached the counters are the live permits and maintenance
keeps its maximum, an engine that is shut down has no permit and a flushed, released catalog; and
in every state `s'` reached from there the lifecycle has only moved on, closed admission has
granted nothing, and an engine that was shut down refuses everything. -/
theorem engine_lifecycle (maximum : ℕ) (flags : ℕ → Bool) (routing : RoutingStatus)
    (cuda : Option ℕ) (hrun : engine.run (opened maximum flags routing cuda) actions = some (s, os)) :
    (∀ kind, s.controller.active.slot kind =
      s.permits.countP fun permit => decide (permit.kind = kind)) ∧
    s.controller.active.maintenance ≤ maximum ∧
    (s.controller.lifecycle = .shutDown → s.permits = [] ∧ s.catalog = ⟨false, 0, false⟩) ∧
    ∀ later s' os', engine.run s later = some (s', os') →
      s.controller.lifecycle.Reaches s'.controller.lifecycle ∧
      (s.controller.lifecycle ≠ .running →
        s'.permits.Sublist s.permits ∧ ∀ kind, EngineEvent.began (.ok kind) ∉ os') ∧
      (s.controller.lifecycle = .shutDown →
        s'.controller.lifecycle = .shutDown ∧ s'.catalog = s.catalog ∧ Refuses s') := by
  have hreleased : ∀ t, Sound maximum t → t.controller.lifecycle = .shutDown →
      t.catalog = ⟨false, 0, false⟩ := by
    intro t ht hshut
    have hheld := (ht.shutDown hshut).2
    obtain ⟨hclones, hflushed⟩ := ht.flushed hheld
    rcases hcatalog : t.catalog with ⟨held, clones, unflushed⟩
    rw [hcatalog] at hheld hclones hflushed
    simp only at hheld hclones hflushed
    rw [hheld, hclones, hflushed]
  have hsound := run_sound (sound_opened maximum flags routing cuda) hrun
  refine ⟨hsound.counts, hsound.workers, fun hshut => ?_, fun later s' os' hlater => ?_⟩
  · exact ⟨(hsound.shutDown hshut).1, hreleased s hsound hshut⟩
  · have hadv := run_advances hsound hlater
    have hsound' := run_sound hsound hlater
    refine ⟨hadv.lifecycle, fun hclosed => ?_, fun hshut => ?_⟩
    · exact ⟨hadv.permits hclosed, run_not_granted hsound hclosed hlater⟩
    · have hshut' : s'.controller.lifecycle = .shutDown :=
        (hshut ▸ hadv.lifecycle).shutDown_eq
      refine ⟨hshut', ?_, hsound'.refuses hshut'⟩
      rw [hreleased s hsound hshut, hreleased s' hsound' hshut']

/-- A mutation is admitted, a call of `shutdown` times out, and a second one finishes. -/
def retriedShutdown : List EngineAction :=
  [.begin 0 .mutation, .callShutdown 0, .shutdown 0 .succeeds, .shutdown 0 .succeeds,
    .shutdown 0 .succeeds, .shutdown 0 .fails, .drop 0, .callShutdown 1, .shutdown 1 .succeeds,
    .shutdown 1 .succeeds, .shutdown 1 .succeeds, .shutdown 1 .succeeds, .shutdown 1 .succeeds,
    .shutdown 1 .succeeds, .shutdown 1 .succeeds, .shutdown 1 .succeeds]

theorem engine_lifecycle_retried :
    ∃ s os, engine.run (opened 1 (fun _ => false) (.available true) none) retriedShutdown =
        some (s, os) ∧
      s.controller.lifecycle = .shutDown ∧ s.permits = [] ∧ s.catalog = ⟨false, 0, false⟩ := by
  have hends : ∃ s os, engine.run (opened 1 (fun _ => false) (.available true) none)
      retriedShutdown = some (s, os) ∧ s.controller.lifecycle = .shutDown := ⟨_, _, rfl, rfl⟩
  obtain ⟨s, os, hrun, hshut⟩ := hends
  refine ⟨s, os, hrun, hshut, ?_⟩
  exact (engine_lifecycle 1 (fun _ => false) (.available true) none hrun).2.2.1 hshut

end EngineSystem

end PathHydra
