import PathHydra.Construction.Api.Diagnostics
import PathHydra.Properties.Routing.Results

/-!
# Evidence of the executor's choice

The engine's diagnostics meet the executor rules of the API exactly when the policy names an
executor, the device is enabled and the request has no budget (`RoutesEligibly`).  Otherwise the
reason that kept the device out of the choice is reported as a fallback, although nothing was
attempted, and the API rejects the answer.
-/

namespace PathHydra

variable {F κ : Type} {policy : CudaExecutorPolicy} {request : RoutingRequest}

/-- Nothing speaks against the device before it is asked, and the policy names an executor. -/
def RoutesEligibly (config : CudaConfig) (request : RoutingRequest) : Prop :=
  config.executorPolicy ≠ .auto ∧ config.enabled = true ∧ request.budget = .unlimited

lemma cudaShapeRefusal_eq_none {config : CudaConfig} :
    cudaShapeRefusal config request = none ↔ config.enabled = true ∧ request.budget = .unlimited := by
  unfold cudaShapeRefusal
  split_ifs with henabled hbudget
  · simp_all
  · simp_all
  · simp_all

/-! ## The two kinds of answers -/

lemma cudaAnswer_validateExecutor (output : CudaRouteOutput F) (reserved : ℕ) :
    (cudaAnswer policy output reserved).diagnostics.validateExecutor = true := by
  show (true && !(decide ((if policy = .requireCuda then _ else _) = _) != false || false)) = true
  split_ifs <;> rfl

/-- An answer from the CPU is consistent when no reason is reported, or when the device was
attempted under a policy that names an executor. -/
lemma cpuAnswer_validateExecutor (attempted : Bool) (fallback : Option CudaIneligibility)
    (reserved : ℕ) (partitioned : Bool) (response : RoutingResponse F)
    (search : CpuSearchDiagnostics) :
    (cpuAnswer policy attempted fallback reserved partitioned response
      search).diagnostics.validateExecutor = true ↔
        fallback = none ∨ (policy ≠ .auto ∧ attempted = true) := by
  show (true && !(decide ((if policy = .auto then _ else if fallback.isSome = true then _ else _) = _)
    != fallback.isSome || (fallback.isSome && !attempted))) = true ↔ _
  by_cases hauto : policy = .auto
  · rcases fallback with _ | reason <;> simp [hauto]
  · rcases fallback with _ | reason <;> rcases attempted with _ | _ <;> simp [hauto]

/-! ## The route -/

namespace RouteSurroundings

variable [Binary64 F] {env : RouteSurroundings F κ} {topology : CpuTopology κ}
  {answer : EngineRoutingResponse F}

lemma routeOnCpu_eq_ok {attempted : Bool} {fallback : Option CudaIneligibility}
    (h : env.routeOnCpu topology request attempted fallback = .ok answer) :
    ∃ reserved partitioned response search, answer = cpuAnswer env.config.cuda.executorPolicy
      attempted fallback reserved partitioned response search := by
  obtain ⟨estimate, -, h⟩ := bind_eq_ok.1 h
  obtain ⟨-, h⟩ := check_bind_eq_ok.1 h
  obtain ⟨⟨response, search, partitioned⟩, -, h⟩ := bind_eq_ok.1 h
  obtain rfl := Except.ok.inj h
  exact ⟨_, _, _, _, rfl⟩

/-- A route on which the device was tried. -/
lemma validateExecutor_of_tried (hpolicy : env.config.cuda.executorPolicy = policy)
    (hauto : policy ≠ .auto)
    (h : (match env.attemptCuda topology request with
      | .answered output reserved => Except.ok (cudaAnswer policy output reserved)
      | .failed error => Except.error error
      | .fellBack reason => env.routeOnCpu topology request true (some reason)) = .ok answer) :
    answer.diagnostics.validateExecutor = true := by
  split at h
  · obtain rfl := Except.ok.inj h
    exact cudaAnswer_validateExecutor _ _
  · cases h
  · obtain ⟨_, _, _, _, rfl⟩ := routeOnCpu_eq_ok h
    exact (cpuAnswer_validateExecutor _ _ _ _ _ _).2 (.inr ⟨hpolicy ▸ hauto, rfl⟩)

/-- A route on which the device was not tried. -/
lemma validateExecutor_of_untried {fallback : Option CudaIneligibility}
    (h : env.routeOnCpu topology request false fallback = .ok answer) :
    answer.diagnostics.validateExecutor = true ↔ fallback = none := by
  obtain ⟨_, _, _, _, rfl⟩ := routeOnCpu_eq_ok h
  rw [cpuAnswer_validateExecutor]
  simp

/-- What an answered route says of itself, policy by policy. -/
lemma routeOn_validateExecutor (h : env.routeOn topology request = .ok answer) :
    answer.diagnostics.validateExecutor = true ↔ RoutesEligibly env.config.cuda request := by
  have hrefusal : cudaShapeRefusal env.config.cuda request = none ↔ _ := cudaShapeRefusal_eq_none
  unfold routeOn at h
  unfold RoutesEligibly
  rw [← hrefusal]
  rcases hpolicy : env.config.cuda.executorPolicy with _ | _ | _ | _
  · simp only [hpolicy, selectExecutor, reduceCtorEq, if_false] at h
    rw [validateExecutor_of_untried h]
    simp
  · rcases hnone : cudaShapeRefusal env.config.cuda request with _ | reason
    · simp only [hpolicy, hnone, selectExecutor, Option.isNone_none] at h
      simpa using validateExecutor_of_tried hpolicy nofun h
    · simp only [hpolicy, hnone, selectExecutor, Option.isNone_some, reduceCtorEq, if_false] at h
      rw [validateExecutor_of_untried h]
      simp
  · rcases hnone : cudaShapeRefusal env.config.cuda request with _ | reason
    · simp only [hpolicy, hnone, selectExecutor, Option.isNone_none] at h
      simpa using validateExecutor_of_tried hpolicy nofun h
    · simp only [hpolicy, hnone, selectExecutor, Option.isNone_some, if_true] at h
      cases h
  · simp only [hpolicy, selectExecutor, reduceCtorEq, if_false] at h
    rw [validateExecutor_of_untried h]
    simp

/-- Executor evidence.  An answer of the engine meets the executor rules of the API if and only if
the policy names an executor, the device is enabled and the request has no edge budget. -/
theorem routeWithCancellation_executor_iff
    (h : env.routeWithCancellation request = .ok answer) :
    answer.diagnostics.validateExecutor = true ↔ RoutesEligibly env.config.cuda request := by
  obtain ⟨-, h⟩ := check_bind_eq_ok.1 h
  obtain ⟨-, h⟩ := check_bind_eq_ok.1 h
  obtain ⟨-, h⟩ := check_bind_eq_ok.1 h
  obtain ⟨-, h⟩ := check_bind_eq_ok.1 h
  obtain ⟨topology, -, h⟩ := bind_eq_ok.1 h
  exact routeOn_validateExecutor h

end RouteSurroundings

/-! ## The default configuration -/

/-- An engine that admits everything, over one resident image and without a device. -/
def surroundingsOf (config : EngineConfig) (image : RoutingImage) :
    RouteSurroundings SoftBinary64 Unit where
  config := config
  beginRoute := .ok ()
  registerFlag := .ok ()
  acquireSlot := .ok ()
  execution := .ok (.resident image)
  device := .notCompiled
  reserveForDevice := .ok ()
  reserve := fun _ => .ok ()
  sizes := ⟨1, 1, 1, 1, 1, 1, 1, 1, 1, 1, 1⟩
  signal := neverCancelled

/-- The route of the example under a configuration. -/
lemma surroundingsOf_route (config : EngineConfig)
    (hok : ((compileRoutingImage tieRecords).toOption.bind fun image =>
      ((surroundingsOf config image).routeWithCancellation tieRequest).toOption).isSome = true) :
    ∃ image answer, compileRoutingImage tieRecords = .ok image ∧
      (surroundingsOf config image).routeWithCancellation tieRequest = .ok answer := by
  rcases himage : compileRoutingImage tieRecords with e | image
  · simp [himage, Except.toOption] at hok
  rcases hroute : (surroundingsOf config image).routeWithCancellation tieRequest with e | answer
  · simp [himage, hroute, Except.toOption] at hok
  · exact ⟨image, answer, rfl, hroute⟩

theorem routeWithCancellation_executor_prefersCuda :
    ∃ image answer, compileRoutingImage tieRecords = .ok image ∧
      (surroundingsOf ⟨16384, true, .preferCuda⟩ image).routeWithCancellation tieRequest =
        .ok answer ∧
      answer.diagnostics.cudaFallbackReason = some .supportNotCompiled ∧
      answer.diagnostics.validateExecutor = true := by
  obtain ⟨image, answer, himage, hroute⟩ :=
    surroundingsOf_route ⟨16384, true, .preferCuda⟩ (by decide +kernel)
  refine ⟨image, answer, himage, hroute, ?_,
    (RouteSurroundings.routeWithCancellation_executor_iff hroute).2 ⟨nofun, rfl, rfl⟩⟩
  obtain ⟨_, _, _, _, rfl⟩ := @RouteSurroundings.routeOnCpu_eq_ok _ _ _ _
    (surroundingsOf ⟨16384, true, .preferCuda⟩ image) _ _ _ _ hroute
  rfl

/-- The default configuration answers and is rejected: it reports the disabled device as a fallback
without an attempt. -/
theorem default_executor_rejected :
    ∃ image answer, compileRoutingImage tieRecords = .ok image ∧
      (surroundingsOf .default image).routeWithCancellation tieRequest = .ok answer ∧
      answer.diagnostics.validateExecutor = false := by
  obtain ⟨image, answer, himage, hroute⟩ := surroundingsOf_route .default (by decide +kernel)
  refine ⟨image, answer, himage, hroute, Bool.eq_false_iff.2 fun hvalid => ?_⟩
  obtain ⟨_, _, _, _, rfl⟩ := @RouteSurroundings.routeOnCpu_eq_ok _ _ _ _
    (surroundingsOf .default image) _ _ _ _ hroute
  cases hvalid

end PathHydra
