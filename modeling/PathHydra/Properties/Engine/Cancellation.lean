import PathHydra.Properties.Engine.Shutdown

/-!
# Which routes shutdown signals

`cancel_all` sets the flags of the requests that are registered when it runs.  A route registers
its flag after its admission and without looking at the lifecycle again, so one that is admitted
before admission closes and registers after `cancel_all` is signalled by nobody
(`late_registration_not_signalled`).  In the runs without such a registration every route that
searches after `cancel_all` finds its flag set.
-/

namespace PathHydra

namespace RequestRegistry

variable {active : RequestRegistry} {flags : ℕ → Bool}

/-- A flag that is set stays set when others are swapped. -/
lemma update_true_of_true {flag : ℕ} (other : ℕ) (h : flags flag = true) :
    Function.update flags other true flag = true := by
  by_cases heq : flag = other
  · rw [heq, Function.update_self]
  · rw [Function.update_of_ne heq, h]

lemma cancel_mono {flag : ℕ} (id : ℕ) (h : flags flag = true) :
    active.cancel id flags flag = true := by
  unfold cancel
  generalize List.find? _ active = found
  rcases found with _ | entry
  · exact h
  · exact update_true_of_true _ h

/-- The flags after the swaps of `cancel_all`, from any point of its loop. -/
lemma foldl_swap_flags (newly : ℕ) (flags : ℕ → Bool) {flag : ℕ}
    (h : flags flag = true ∨ ∃ id, (id, flag) ∈ active) :
    (active.foldl (fun (newly, flags) entry =>
      (if flags entry.2 then newly else newly + 1, Function.update flags entry.2 true))
      ((newly, flags) : ℕ × (ℕ → Bool))).2 flag = true := by
  induction active generalizing newly flags with
  | nil =>
    rcases h with h | ⟨id, hmem⟩
    · exact h
    · cases hmem
  | cons entry rest ih =>
    apply ih
    rcases h with h | ⟨id, hmem⟩
    · exact .inl (update_true_of_true _ h)
    · rcases List.mem_cons.1 hmem with rfl | hmem
      · exact .inl (Function.update_self _ _ _)
      · exact .inr ⟨id, hmem⟩

/-- `cancel_all` sets every registered flag and resets none. -/
lemma cancelAll_flags {flag : ℕ} (h : flags flag = true ∨ ∃ id, (id, flag) ∈ active) :
    (active.cancelAll flags).2 flag = true :=
  foldl_swap_flags 0 flags h

/-- A registration adds its entry, under a request that had none. -/
lemma registerFlag_eq_some {id flag : ℕ} {active' : RequestRegistry}
    (h : active.registerFlag id flag = some active') :
    active' = (id, flag) :: active ∧ ∀ flag', (id, flag') ∉ active := by
  unfold registerFlag at h
  split at h
  · cases h
  · rename_i hany
    cases h
    refine ⟨rfl, fun flag' hmem => hany ?_⟩
    exact List.any_eq_true.2 ⟨_, hmem, by simp⟩

lemma mem_deregister {id id' flag : ℕ} (hmem : (id', flag) ∈ active) (hne : id' ≠ id) :
    (id', flag) ∈ active.deregister id :=
  List.mem_filter.2 ⟨hmem, by simpa using hne⟩

end RequestRegistry

/-- The stages in which the flag of a route is registered. -/
def RouteStage.holdsRegistration : RouteStage → Bool
  | .registered | .slotted | .searching => true
  | .admitted | .ended => false

namespace EngineSystem

variable {s s' : EngineSystem} {o : EngineEvent}

/-- A route that is registered, with its request and its flag. -/
def Registered (s : EngineSystem) (caller requestId flag : ℕ) : Prop :=
  ∃ stage : RouteStage, stage.holdsRegistration = true ∧
    s.routes caller = some ⟨requestId, flag, stage⟩

/-- The registered routes are in the registry, each under a request of its own, and after a
`cancel_all` their flags are set. -/
structure Signalling (s : EngineSystem) : Prop where
  registered : ∀ {caller id flag}, s.Registered caller id flag → (id, flag) ∈ s.registry
  unique : ∀ {caller caller' id flag flag'}, s.Registered caller id flag →
    s.Registered caller' id flag' → caller = caller'
  flagged : s.signalled = true → ∀ {caller id flag}, s.Registered caller id flag →
    s.flags flag = true

/-- A route registers its flag before any `cancel_all`, or with a flag that is already set. -/
def registersInTime (s : EngineSystem) : EngineAction → Bool
  | .registerFlag caller =>
    match s.routes caller with
    | none => true
    | some call => !s.signalled || s.flags call.cancellation
  | _ => true

/-- Nothing new is registered and no flag is reset. -/
lemma Signalling.keep (h : Signalling s)
    (hroutes : ∀ {caller id flag}, s'.Registered caller id flag → s.Registered caller id flag)
    (hregistry : ∀ {caller id flag}, s'.Registered caller id flag → (id, flag) ∈ s.registry →
      (id, flag) ∈ s'.registry)
    (hflags : s'.signalled = true → ∀ {caller id flag}, s'.Registered caller id flag →
      s.flags flag = true ∨ s.signalled = false → s'.flags flag = true) :
    Signalling s' := by
  refine ⟨fun hreg => ?_, fun hreg hreg' => ?_, fun hsignalled _ _ _ hreg => ?_⟩
  · exact hregistry hreg (h.registered (hroutes hreg))
  · exact h.unique (hroutes hreg) (hroutes hreg')
  · apply hflags hsignalled hreg
    rcases hs : s.signalled with _ | _
    · exact .inr rfl
    · exact .inl (h.flagged hs (hroutes hreg))

/-- A step that leaves routes and registry alone, and resets no flag. -/
lemma Signalling.keep_flags (h : Signalling s) (hroutes : s'.routes = s.routes)
    (hregistry : s'.registry = s.registry) (hsignalled : s'.signalled = s.signalled)
    (hflags : ∀ flag, s.flags flag = true → s'.flags flag = true) : Signalling s' := by
  refine h.keep (fun hreg => ?_) (fun _ hmem => ?_) fun hs _ _ _ _ hflag => ?_
  · simpa only [Registered, hroutes] using hreg
  · rwa [hregistry]
  · rw [hsignalled] at hs
    rw [hs] at hflag
    exact hflags _ (hflag.resolve_right (by simp))

/-! ## Steps of a route -/

/-- The routes of the other callers do not change. -/
lemma registered_setRoute_of_ne {caller c id flag : ℕ} {call : Option RouteCall}
    (hne : c ≠ caller) : (s.setRoute caller call).Registered c id flag ↔
      s.Registered c id flag := by
  simp only [Registered, setRoute, Function.update_of_ne hne]

lemma registered_setRoute_self {caller id flag : ℕ} {call : Option RouteCall} :
    (s.setRoute caller call).Registered caller id flag ↔
      ∃ stage : RouteStage, stage.holdsRegistration = true ∧ call = some ⟨id, flag, stage⟩ := by
  simp only [Registered, setRoute, Function.update_self]

/-- A caller whose route is not registered afterwards. -/
lemma registered_of_setRoute {caller c id flag : ℕ} {call : Option RouteCall}
    (hcall : ∀ r, call = some r → r.stage.holdsRegistration = false)
    (h : (s.setRoute caller call).Registered c id flag) :
    c ≠ caller ∧ s.Registered c id flag := by
  by_cases hc : c = caller
  · subst hc
    obtain ⟨stage, hstage, heq⟩ := registered_setRoute_self.1 h
    have := hcall _ heq
    simp only [hstage] at this
    cases this
  · exact ⟨hc, (registered_setRoute_of_ne hc).1 h⟩

/-- A route leaves without a registration. -/
lemma Signalling.setRoute (h : Signalling s) {caller : ℕ} {call : Option RouteCall}
    (hcall : ∀ r, call = some r → r.stage.holdsRegistration = false) :
    Signalling (s.setRoute caller call) := by
  refine h.keep (fun hreg => (registered_of_setRoute hcall hreg).2) (fun _ hmem => hmem) ?_
  intro hs _ _ _ _ hflag
  exact hflag.resolve_right (by simp [show s.signalled = true from hs])

/-- A route moves on with its registration. -/
lemma Signalling.advance (h : Signalling s) {caller : ℕ} {call : RouteCall} {stage : RouteStage}
    (hroute : s.routes caller = some call) (hstage : call.stage.holdsRegistration = true) :
    Signalling (s.setRoute caller (some { call with stage := stage })) := by
  refine h.keep (fun {c id flag} hreg => ?_) (fun _ hmem => hmem) ?_
  · by_cases hc : c = caller
    · subst hc
      obtain ⟨_, _, heq⟩ := registered_setRoute_self.1 hreg
      cases heq
      exact ⟨call.stage, hstage, hroute⟩
    · exact (registered_setRoute_of_ne hc).1 hreg
  · intro hs _ _ _ _ hflag
    exact hflag.resolve_right (by simp [show s.signalled = true from hs])

/-- A route registers in time. -/
lemma Signalling.register (h : Signalling s) {caller : ℕ} {call : RouteCall}
    {registry : RequestRegistry}
    (hregister : s.registry.registerFlag call.requestId call.cancellation = some registry)
    (htime : s.signalled = true → s.flags call.cancellation = true) :
    Signalling ({ s with registry := registry }.setRoute caller
      (some { call with stage := .registered })) := by
  obtain ⟨rfl, hfresh⟩ := RequestRegistry.registerFlag_eq_some hregister
  -- Either the route that registers, or one that was registered under another request.
  have hcases : ∀ {c id flag}, ({ s with
      registry := (call.requestId, call.cancellation) :: s.registry }.setRoute caller
        (some { call with stage := .registered })).Registered c id flag →
      (c = caller ∧ id = call.requestId ∧ flag = call.cancellation) ∨
        (c ≠ caller ∧ s.Registered c id flag ∧ id ≠ call.requestId) := by
    intro c id flag hreg
    by_cases hc : c = caller
    · subst hc
      obtain ⟨_, _, heq⟩ := registered_setRoute_self.1 hreg
      cases heq
      exact .inl ⟨rfl, rfl, rfl⟩
    · have hold : s.Registered c id flag := (registered_setRoute_of_ne hc).1 hreg
      refine .inr ⟨hc, hold, ?_⟩
      rintro rfl
      exact hfresh flag (h.registered hold)
  refine ⟨fun {c id flag} hreg => ?_, fun {c c' id flag flag'} hreg hreg' => ?_,
    fun hs c id flag hreg => ?_⟩
  · show (id, flag) ∈ (call.requestId, call.cancellation) :: s.registry
    rcases hcases hreg with ⟨-, rfl, rfl⟩ | ⟨-, hold, -⟩
    · exact List.mem_cons_self
    · exact List.mem_cons_of_mem _ (h.registered hold)
  · rcases hcases hreg with ⟨rfl, rfl, rfl⟩ | ⟨-, hold, hid⟩ <;>
      rcases hcases hreg' with ⟨rfl, hid', -⟩ | ⟨-, hold', hid'⟩
    · rfl
    · exact absurd rfl hid'
    · exact absurd hid' hid
    · exact h.unique hold hold'
  · rcases hcases hreg with ⟨-, -, rfl⟩ | ⟨-, hold, -⟩
    · exact htime hs
    · exact h.flagged hs hold

/-- A route ends: its registration goes, and those of the others stay. -/
lemma Signalling.endRoute (h : Signalling s) {caller : ℕ} {call : RouteCall}
    (hroute : s.routes caller = some call) (hstage : call.stage.holdsRegistration = true) :
    Signalling ({ s with registry := s.registry.deregister call.requestId }.setRoute caller
      (some { call with stage := .ended })) := by
  have hended : ∀ r, some { call with stage := RouteStage.ended } = some r →
      r.stage.holdsRegistration = false := by
    rintro r ⟨⟩
    rfl
  refine h.keep (fun hreg => (registered_of_setRoute hended hreg).2) ?_ ?_
  · intro c id flag hreg hmem
    obtain ⟨hc, hold⟩ := registered_of_setRoute hended hreg
    refine RequestRegistry.mem_deregister hmem ?_
    rintro rfl
    exact hc (h.unique hold ⟨call.stage, hstage, hroute⟩)
  · intro hs _ _ _ _ hflag
    exact hflag.resolve_right (by simp [show s.signalled = true from hs])

lemma routeStep_signalling (h : Signalling s) {caller : ℕ} {action : EngineAction}
    (htime : ∀ c, action = .registerFlag c → ∀ call, s.routes caller = some call →
      s.signalled = true → s.flags call.cancellation = true)
    (hstep : s.routeStep caller action = some (s', o)) : Signalling s' := by
  unfold routeStep at hstep
  split at hstep
  · cases hstep
  · rename_i call hroute
    split at hstep
    · rename_i hstage
      split at hstep <;> cases hstep
      · refine h.setRoute ?_
        rintro r ⟨⟩
        rfl
      · rename_i hregister
        exact h.register hregister (htime _ rfl call hroute)
    · rename_i hstage
      cases hstep
      exact h.advance hroute (by rw [hstage]; rfl)
    · rename_i hstage
      split at hstep <;> cases hstep
      exact h.advance hroute (by rw [hstage]; rfl)
    · cases hstep
      exact h
    · rename_i hstage
      cases hstep
      exact h.endRoute hroute (by rw [hstage]; rfl)
    · rename_i hstage
      cases hstep
      exact h.endRoute hroute (by rw [hstage]; rfl)
    · rename_i hstage
      cases hstep
      exact h.endRoute hroute (by rw [hstage]; rfl)
    · cases hstep

lemma beginStep_signalling (h : Signalling s) {caller : ℕ} {operation : Operation}
    (hstep : s.beginStep caller operation = some (s', o)) : Signalling s' := by
  unfold beginStep at hstep
  split at hstep
  · cases hstep
  · split at hstep
    · cases hstep
      exact h.keep_flags rfl rfl rfl fun _ => id
    · rename_i kind controller _
      have hgranted : Signalling { s with
          controller := controller, permits := ⟨kind, caller⟩ :: s.permits } :=
        h.keep_flags rfl rfl rfl fun _ => id
      rcases operation with ⟨requestId, cancellation⟩ | _ | _ | _ <;> cases hstep
      · refine hgranted.setRoute ?_
        rintro r ⟨⟩
        rfl
      · exact hgranted
      · exact hgranted
      · exact hgranted

lemma dropStep_signalling (h : Signalling s) {caller : ℕ}
    (hstep : s.dropStep caller = some (s', o)) : Signalling s' := by
  unfold dropStep at hstep
  split at hstep
  · cases hstep
  · rename_i permit _
    split at hstep <;> cases hstep
    have hdropped : Signalling { s with
        controller := s.controller.release permit.kind, permits := s.permits.erase permit } :=
      h.keep_flags rfl rfl rfl fun _ => id
    exact hdropped.setRoute (by simp)

lemma resourceStep_signalling (h : Signalling s) {action : EngineAction}
    (hstep : s.resourceStep action = some (s', o)) : Signalling s' := by
  unfold resourceStep at hstep
  split at hstep
  · cases hstep
    exact h.keep_flags rfl rfl rfl fun _ => RequestRegistry.cancel_mono _
  · cases hstep
    exact h.keep_flags rfl rfl rfl fun _ => RequestRegistry.update_true_of_true _
  · split at hstep <;> cases hstep
    exact h.keep_flags rfl rfl rfl fun _ => id
  · split at hstep <;> cases hstep
    exact h.keep_flags rfl rfl rfl fun _ => id
  · obtain ⟨n, -, heq⟩ := Option.map_eq_some_iff.1 hstep
    cases heq
    exact h.keep_flags rfl rfl rfl fun _ => id
  · split at hstep <;> cases hstep
    exact h.keep_flags rfl rfl rfl fun _ => id
  · split at hstep <;> cases hstep
    · exact h.keep_flags rfl rfl rfl fun _ => id
    · exact h
  · split at hstep <;> cases hstep
    exact h.keep_flags rfl rfl rfl fun _ => id
  · split at hstep <;> cases hstep
    exact h.keep_flags rfl rfl rfl fun _ => id
  · cases hstep

/-! ## Steps of shutdown -/

/-- Everything a signal depends on stays. -/
structure SignalFrame (s s' : EngineSystem) : Prop where
  routes : s'.routes = s.routes
  registry : s'.registry = s.registry
  signalled : s'.signalled = s.signalled
  flags : s'.flags = s.flags

lemma Signalling.frame (h : Signalling s) (hframe : SignalFrame s s') : Signalling s' :=
  h.keep_flags hframe.routes hframe.registry hframe.signalled fun flag hflag => by
    rw [hframe.flags, hflag]

section Stages

variable {i : ℕ} {report : ShutdownReport} {answer : StageAnswer} {t : EngineSystem}

lemma frame_of_proceed {stage : ShutdownStage} (h : t.proceed i stage report = some (s', o))
    (hframe : SignalFrame s t) : SignalFrame s s' := by
  cases h
  exact ⟨hframe.routes, hframe.registry, hframe.signalled, hframe.flags⟩

lemma frame_of_leave {result : Except LifecycleError ShutdownReport}
    (h : s.leave i result = some (s', o)) : SignalFrame s s' := by
  cases h
  exact ⟨rfl, rfl, rfl, rfl⟩

/-- The stages from the drain on signal nothing. -/
lemma waitForDrainStage_frame (h : s.waitForDrainStage i report answer = some (s', o)) :
    SignalFrame s s' := by
  simp only [waitForDrainStage] at h
  split at h
  · exact frame_of_leave h
  · exact frame_of_proceed h ⟨rfl, rfl, rfl, rfl⟩
  · split at h
    · cases h
    · exact frame_of_leave h

lemma stopRoutingStage_frame (h : s.stopRoutingStage i report answer = some (s', o)) :
    SignalFrame s s' := by
  simp only [stopRoutingStage] at h
  split at h
  · split at h <;> exact frame_of_proceed h ⟨rfl, rfl, rfl, rfl⟩
  · exact frame_of_proceed h ⟨rfl, rfl, rfl, rfl⟩

lemma stopCudaStage_frame (h : s.stopCudaStage i report answer = some (s', o)) :
    SignalFrame s s' := by
  simp only [stopCudaStage] at h
  split at h
  · exact frame_of_proceed h ⟨rfl, rfl, rfl, rfl⟩
  · split at h <;> exact frame_of_proceed h ⟨rfl, rfl, rfl, rfl⟩
  · exact frame_of_proceed h ⟨rfl, rfl, rfl, rfl⟩

lemma closeStoreStage_frame (h : s.closeStoreStage i report answer = some (s', o)) :
    SignalFrame s s' := by
  simp only [closeStoreStage] at h
  split at h
  · split at h
    · exact frame_of_proceed h ⟨rfl, rfl, rfl, rfl⟩
    · split at h <;> exact frame_of_proceed h ⟨rfl, rfl, rfl, rfl⟩
  · exact frame_of_proceed h ⟨rfl, rfl, rfl, rfl⟩

lemma markShutDownStage_frame (h : s.markShutDownStage i report = some (s', o)) :
    SignalFrame s s' := by
  simp only [markShutDownStage] at h
  split at h
  · split at h
    · exact frame_of_leave h
    · exact frame_of_proceed h ⟨rfl, rfl, rfl, rfl⟩
  · exact frame_of_proceed h ⟨rfl, rfl, rfl, rfl⟩

lemma callShutdownStep_signalling (h : Signalling s)
    (hstep : s.callShutdownStep i = some (s', o)) : Signalling s' := by
  unfold callShutdownStep at hstep
  split at hstep
  · cases hstep
  · dsimp only at hstep
    split at hstep <;> cases hstep
    · exact h
    · exact h.frame ⟨rfl, rfl, rfl, rfl⟩

/-- `cancel_all` sets the flag of every registered route. -/
lemma Signalling.cancelAll (h : Signalling s) :
    Signalling { s with flags := (s.registry.cancelAll s.flags).2, signalled := true } := by
  refine h.keep id (fun _ hmem => hmem) fun _ _ id _ hreg _ => ?_
  exact RequestRegistry.cancelAll_flags (.inr ⟨id, h.registered hreg⟩)

lemma shutdownStep_signalling (h : Signalling s)
    (hstep : s.shutdownStep i answer = some (s', o)) : Signalling s' := by
  unfold shutdownStep at hstep
  split at hstep
  · cases hstep
  · rename_i stage report _
    split at hstep
    · exact h.frame (frame_of_leave hstep)
    · cases stage with
      | closeAdmission => exact h.frame (frame_of_proceed hstep ⟨rfl, rfl, rfl, rfl⟩)
      | readBoundary => exact h.frame (frame_of_proceed hstep ⟨rfl, rfl, rfl, rfl⟩)
      | cancelAll => exact h.cancelAll.frame (frame_of_proceed hstep ⟨rfl, rfl, rfl, rfl⟩)
      | waitForDrain => exact h.frame (waitForDrainStage_frame hstep)
      | stopRouting => exact h.frame (stopRoutingStage_frame hstep)
      | stopCuda => exact h.frame (stopCudaStage_frame hstep)
      | closeStore => exact h.frame (closeStoreStage_frame hstep)
      | markShutDown => exact h.frame (markShutDownStage_frame hstep)
      | report => exact h.frame (frame_of_leave hstep)

end Stages

/-! ## Runs -/

/-- A step keeps the registered routes signalled, when no route registers too late. -/
theorem step_signalling {action : EngineAction} (h : Signalling s)
    (htime : registersInTime s action = true) (hstep : engine.step s action = some (s', o)) :
    Signalling s' := by
  simp only [engine] at hstep
  split at hstep
  · exact beginStep_signalling h hstep
  · exact dropStep_signalling h hstep
  · refine routeStep_signalling h (fun _ _ call hroute hs => ?_) hstep
    simpa [registersInTime, hroute, hs] using htime
  · exact routeStep_signalling h (by simp) hstep
  · exact routeStep_signalling h (by simp) hstep
  · exact routeStep_signalling h (by simp) hstep
  · exact routeStep_signalling h (by simp) hstep
  · exact callShutdownStep_signalling h hstep
  · exact shutdownStep_signalling h hstep
  · exact resourceStep_signalling h hstep

lemma signalling_opened (maximum : ℕ) (flags : ℕ → Bool) (routing : RoutingStatus)
    (cuda : Option ℕ) : Signalling (opened maximum flags routing cuda) where
  registered := by
    rintro _ _ _ ⟨_, -, hroute⟩
    cases hroute
  unique := by
    rintro _ _ _ _ _ ⟨_, -, hroute⟩
    cases hroute
  flagged hs := by cases hs

/-- After a `cancel_all`, a route that searches has its flag set, so that its next search step is
not performed. -/
def SearchesSignalled (s : EngineSystem) : Prop :=
  s.signalled = true → ∀ caller call, s.routes caller = some call → call.stage = .searching →
    s.flags call.cancellation = true ∧ engine.step s (.search caller) = some (s, .interrupted)

lemma Signalling.searchesSignalled (h : Signalling s) : SearchesSignalled s := by
  intro hs caller call hroute hstage
  rcases call with ⟨requestId, flag, stage⟩
  obtain rfl : stage = .searching := hstage
  have hflag := h.flagged hs ⟨.searching, rfl, hroute⟩
  refine ⟨hflag, ?_⟩
  show s.routeStep caller (.search caller) = _
  simp [routeStep, hroute, hflag]

/-- In every run in which no route registers its flag after a `cancel_all`, unless the flag is set
already, every route that searches after a `cancel_all` has its flag set. -/
theorem run_searchesSignalled (maximum : ℕ) (flags : ℕ → Bool) (routing : RoutingStatus)
    (cuda : Option ℕ) {actions : List EngineAction} {os : List EngineEvent}
    (hguard : engine.Guarded (fun s action => registersInTime s action = true)
      (opened maximum flags routing cuda) actions)
    (hrun : engine.run (opened maximum flags routing cuda) actions = some (s, os)) :
    SearchesSignalled s := by
  refine Signalling.searchesSignalled ?_
  refine (Machine.run_guarded (P := fun _ => True) ?_ (signalling_opened maximum flags routing cuda)
    hguard hrun).1
  exact fun _ _ _ _ h htime hstep => ⟨step_signalling h htime hstep, trivial⟩

/-- A route that registers before `cancel_all` and searches after it. -/
def registeredInTime : List EngineAction :=
  [.begin 0 (.route 7 0), .registerFlag 0, .callShutdown 1, .shutdown 1 .succeeds,
    .shutdown 1 .succeeds, .shutdown 1 .succeeds, .acquireSlot 0, .leaseImage 0]

theorem run_searchesSignalled_registeredInTime :
    ∃ s os, engine.run (opened 1 (fun _ => false) (.available false) none) registeredInTime =
        some (s, os) ∧ s.signalled = true ∧ s.routes 0 = some ⟨7, 0, .searching⟩ ∧
      s.flags 0 = true := by
  have hends : ∃ s os, engine.run (opened 1 (fun _ => false) (.available false) none)
      registeredInTime = some (s, os) ∧ s.signalled = true ∧
        s.routes 0 = some ⟨7, 0, .searching⟩ := ⟨_, _, rfl, rfl, rfl⟩
  obtain ⟨s, os, hrun, hs, hroute⟩ := hends
  refine ⟨s, os, hrun, hs, hroute, ?_⟩
  have hguard : engine.Guarded (fun s action => registersInTime s action = true)
      (opened 1 (fun _ => false) (.available false) none) registeredInTime := by decide
  exact (run_searchesSignalled 1 (fun _ => false) (.available false) none hguard hrun hs 0 _ hroute
    rfl).1

/-- The same route, admitted before admission closes, registers after `cancel_all`. -/
def registeredLate : List EngineAction :=
  [.begin 0 (.route 7 0), .callShutdown 1, .shutdown 1 .succeeds, .shutdown 1 .succeeds,
    .shutdown 1 .succeeds, .registerFlag 0, .acquireSlot 0, .leaseImage 0]

/-- It holds a permit and searches on, its flag not set. -/
theorem late_registration_not_signalled :
    ∃ s os, engine.run (opened 1 (fun _ => false) (.available false) none) registeredLate =
        some (s, os) ∧ s.controller.active.routes = 1 ∧ s.signalled = true ∧
      s.routes 0 = some ⟨7, 0, .searching⟩ ∧ s.flags 0 = false ∧
      engine.step s (.search 0) = some (s, .searched) ∧ ¬ SearchesSignalled s := by
  refine ⟨_, _, rfl, rfl, rfl, rfl, rfl, rfl, fun h => ?_⟩
  have hflag := (h rfl 0 ⟨7, 0, .searching⟩ rfl rfl).1
  cases hflag

end EngineSystem

end PathHydra
