import PathHydra.Construction.Cuda.Output
import PathHydra.Construction.Engine.Admission
import PathHydra.Construction.Engine.Hydration
import PathHydra.Construction.Routing.WorkingSet

/-!
# Choosing the executor of a route

`routeWithCancellation` is `GraphEngine::route_with_cancellation`: it admits the request, decides
whether to try the device, and answers from the device or from the CPU, together with the evidence
of that choice.

What the call meets outside itself is a `RouteSurroundings`: the answers of the lifecycle, of the
request registry and of the admission controller, the published image, and the device with the
outcome of each of its steps.  Durations, the sizes of the image and the metrics are left out.
-/

namespace PathHydra

/-! ## Configuration and evidence -/

/-- `CudaExecutorPolicy`. -/
inductive CudaExecutorPolicy
  | cpuOnly
  | preferCuda
  | requireCuda
  | auto
  deriving DecidableEq

/-- `CudaConfig`, as far as a route reads it. -/
structure CudaConfig where
  enabled : Bool
  executorPolicy : CudaExecutorPolicy
  deriving DecidableEq

/-- `CudaConfig::default`. -/
def CudaConfig.default : CudaConfig := ⟨false, .cpuOnly⟩

/-- `EngineConfig`, as far as a route reads it. -/
structure EngineConfig where
  maxDestinationsPerRequest : ℕ
  cuda : CudaConfig
  deriving DecidableEq

/-- `EngineConfig::default`. -/
def EngineConfig.default : EngineConfig := ⟨16384, .default⟩

/-- `CudaIneligibility`. -/
inductive CudaIneligibility
  | disabled
  | supportNotCompiled
  | finiteEdgeBudgetUnsupportedByCuda
  | noResidentImage (reason : String)
  | resourceRefusal (reason : String)
  | automaticPolicySelectedCpu
  | unhealthy (reason : String)
  deriving DecidableEq

/-- `Executor`. -/
inductive Executor
  | cpuReference
  | nvidiaCuda
  deriving DecidableEq

/-- `ExecutorSelectionReason`. -/
inductive ExecutorSelectionReason
  | cpuOnlyPolicy
  | preferredCudaEligible
  | requiredCudaEligible
  | automaticPolicySelectedCpu
  | cpuFallback
  deriving DecidableEq

/-- `EngineError`, as far as a route raises it. -/
inductive EngineError
  | routingUnavailable (reason : RoutingUnavailableReason)
  | duplicateActiveRequest
  | admission (rejection : AdmissionRejection)
  | cudaIneligible (reason : CudaIneligibility)
  | cudaFailure (reason : String)
  | routing (error : RoutingError)
  | lifecycle (error : LifecycleError)
  deriving DecidableEq

/-- `RuntimeDiagnostics`.  The device's own diagnostics are those of its route; of the partitioned
ones the presence is kept. -/
structure RuntimeDiagnostics where
  executor : Executor
  selectionReason : ExecutorSelectionReason
  attemptedCuda : Bool
  cudaFallbackReason : Option CudaIneligibility
  numericPolicy : NumericPolicy
  tiePolicy : TiePolicy
  reservedWorkingBytes : ℕ
  firstDestination : Bool
  completionReason : CompletionReason
  search : CpuSearchDiagnostics
  partitionedCpu : Bool
  cuda : Option CudaRouteDiagnostics
  deriving DecidableEq

/-- `EngineRoutingResponse`. -/
structure EngineRoutingResponse (F : Type*) where
  response : RoutingResponse F
  diagnostics : RuntimeDiagnostics
  deriving DecidableEq

/-! ## The surroundings of a route -/

/-- `CpuTopology`: the resident image, or the partitioned one with the state of its cache. -/
inductive CpuTopology (κ : Type)
  | resident (image : RoutingImage)
  | partitioned (image : RoutingTopology κ) (cache : κ)

/-- The CUDA runtime, with what its steps answer: its health, the estimate of a search, the
reservation and the worker. -/
structure CudaRuntime (F : Type*) where
  healthy : Except CudaIneligibility Unit
  estimateSearchBytes : Option ℕ → Except CudaError ℕ
  reserve : ℕ → Except String ℕ
  submit : ℕ → Except CudaError (CudaRouteOutput F)

/-- What a build offers of the device: nothing without the feature, else the topology of the image,
or why it has none, and the runtime. -/
inductive CudaSupport (F : Type*)
  | notCompiled
  | compiled (topology : Except String Unit) (runtime : Option (CudaRuntime F))

/-- What one call of `route_with_cancellation` meets. -/
structure RouteSurroundings (F κ : Type) where
  config : EngineConfig
  beginRoute : Except LifecycleError Unit
  registerFlag : Except EngineError Unit
  acquireSlot : Except AdmissionRejection Unit
  execution : Except RoutingUnavailableReason (CpuTopology κ)
  device : CudaSupport F
  reserveForDevice : Except AdmissionRejection Unit
  reserve : ℕ → Except AdmissionRejection Unit
  sizes : PayloadSizes
  signal : CancellationSignal

/-! ## The choice -/

variable {F κ : Type} [Binary64 F]

/-- `cuda_shape_refusal`. -/
def cudaShapeRefusal (config : CudaConfig) (request : RoutingRequest) : Option CudaIneligibility :=
  if !config.enabled then some .disabled
  else if request.budget ≠ .unlimited then some .finiteEdgeBudgetUnsupportedByCuda
  else none

/-- Whether the device is tried, and the reason against it so far. -/
def selectExecutor (policy : CudaExecutorPolicy) (refusal : Option CudaIneligibility) :
    Bool × Option CudaIneligibility :=
  match policy with
  | .cpuOnly => (false, refusal)
  | .auto => (false, some .automaticPolicySelectedCpu)
  | .preferCuda | .requireCuda => (refusal.isNone, refusal)

/-- The end of an attempt on the device: an answer with the bytes reserved for it, an error of the
whole route, or the reason for which the CPU takes over. -/
inductive CudaAttempt (F : Type*)
  | answered (output : CudaRouteOutput F) (reservedBytes : ℕ)
  | failed (error : EngineError)
  | fellBack (reason : CudaIneligibility)

/-- A refusal ends a route that requires the device. -/
def CudaAttempt.refuse (policy : CudaExecutorPolicy) (reason : CudaIneligibility) :
    CudaAttempt F :=
  if policy = .requireCuda then .failed (.cudaIneligible reason) else .fellBack reason

/-- `estimate_cpu_working_set`, or `estimate_working_set` of a partitioned image. -/
def CpuTopology.estimate (topology : CpuTopology κ) (sizes : PayloadSizes)
    (request : RoutingRequest) : Except RoutingError CpuWorkingSetEstimate :=
  match topology with
  | .resident image => estimateCpuWorkingSet sizes image request
  | .partitioned image _ => estimateTopologyWorkingSet sizes image request

/-- What the worker's failure does to the route. -/
def CudaAttempt.ofError (policy : CudaExecutorPolicy) (error : CudaError) : CudaAttempt F :=
  if error.kind = .imageAccess then .failed (.routingUnavailable (.bundle error.message))
  else if policy = .requireCuda then .failed (.cudaFailure error.message)
  else .fellBack (.unhealthy error.message)

namespace RouteSurroundings

variable (env : RouteSurroundings F κ)

/-- The attempt once the device has a topology and a healthy runtime. -/
def attemptRuntime (topology : CpuTopology κ) (request : RoutingRequest)
    (runtime : CudaRuntime F) : CudaAttempt F :=
  let policy := env.config.cuda.executorPolicy
  let evidence : Except RoutingError (Option ℕ) :=
    if request.returnPaths then (topology.estimate env.sizes request).map fun e => some e.bytes
    else .ok none
  match evidence with
  | .error error => .failed (.routing error)
  | .ok evidence =>
    match runtime.estimateSearchBytes evidence with
    | .error error => .failed (.cudaIneligible (.resourceRefusal error.message))
    | .ok searchBytes =>
      match runtime.reserve searchBytes with
      | .error reason => .refuse policy (.resourceRefusal reason)
      | .ok reserved =>
        match env.reserveForDevice with
        | .error rejection => .failed (.admission rejection)
        | .ok _ =>
          match runtime.submit reserved with
          | .ok output => .answered output reserved
          | .error error => .ofError policy error

/-- The `'cuda_attempt` block. -/
def attemptCuda (topology : CpuTopology κ) (request : RoutingRequest) : CudaAttempt F :=
  let policy := env.config.cuda.executorPolicy
  match env.device with
  | .notCompiled => .refuse policy .supportNotCompiled
  | .compiled (.error reason) _ => .refuse policy (.noResidentImage reason)
  | .compiled (.ok _) none => .refuse policy (.noResidentImage "runtime is absent")
  | .compiled (.ok _) (some runtime) =>
    match runtime.healthy with
    | .error reason => .refuse policy reason
    | .ok _ => env.attemptRuntime topology request runtime

end RouteSurroundings

/-! ## The answers -/

/-- What `cuda_search_diagnostics` gathers from the entries. -/
structure CudaSearchTally where
  exact : ℕ
  unreachable : ℕ
  missing : ℕ
  incomplete : ℕ
  present : List NodeId
  reconstructed : List NodeId
  reconstructionSteps : ℕ

/-- One turn of the loop of `cuda_search_diagnostics`. -/
def CudaSearchTally.add (tally : CudaSearchTally) (result : DestinationResult F) :
    CudaSearchTally :=
  let present := tally.present.insert result.destination
  match result.state with
  | .exact route =>
    let tally := { tally with exact := tally.exact + 1, present := present }
    if route.path.isSome && !tally.reconstructed.contains result.destination then
      { tally with
        reconstructed := tally.reconstructed.insert result.destination
        reconstructionSteps := min
          (tally.reconstructionSteps + ((route.path.map (·.steps.length)).getD 0)) u64Max }
    else tally
  | .unreachable => { tally with unreachable := tally.unreachable + 1, present := present }
  | .missingNode => { tally with missing := tally.missing + 1 }
  | .incomplete => { tally with incomplete := tally.incomplete + 1, present := present }

/-- `cuda_search_diagnostics`. -/
def cudaSearchDiagnostics (response : RoutingResponse F) (cuda : CudaRouteDiagnostics) :
    CpuSearchDiagnostics :=
  let tally := response.results.foldl CudaSearchTally.add ⟨0, 0, 0, 0, [], [], 0⟩
  { examinedEdges := response.examinedEdges
    relaxationUpdates := cuda.relaxationUpdates
    finalizedNodes := response.finalizedNodes
    frontierHighWaterMark := 0
    uniquePresentDestinations := tally.present.length
    exactDestinations := tally.exact
    unreachableDestinations := tally.unreachable
    missingDestinations := tally.missing
    incompleteDestinations := tally.incomplete
    pathReconstructionSteps := tally.reconstructionSteps
    firstDestination := cuda.firstDestination }

/-- The answer from the device. -/
def cudaAnswer (policy : CudaExecutorPolicy) (output : CudaRouteOutput F) (reserved : ℕ) :
    EngineRoutingResponse F where
  response := output.response
  diagnostics :=
    { executor := .nvidiaCuda
      selectionReason :=
        if policy = .requireCuda then .requiredCudaEligible else .preferredCudaEligible
      attemptedCuda := true
      cudaFallbackReason := none
      numericPolicy := output.response.numericPolicy
      tiePolicy := output.response.tiePolicy
      reservedWorkingBytes := reserved
      firstDestination := output.diagnostics.firstDestination
      completionReason := output.response.completionReason
      search := cudaSearchDiagnostics output.response output.diagnostics
      partitionedCpu := false
      cuda := some output.diagnostics }

/-- The answer from the CPU. -/
def cpuAnswer (policy : CudaExecutorPolicy) (attempted : Bool)
    (fallback : Option CudaIneligibility) (reserved : ℕ) (partitioned : Bool)
    (response : RoutingResponse F) (search : CpuSearchDiagnostics) : EngineRoutingResponse F where
  response := response
  diagnostics :=
    { executor := .cpuReference
      selectionReason :=
        if policy = .auto then .automaticPolicySelectedCpu
        else if fallback.isSome then .cpuFallback
        else .cpuOnlyPolicy
      attemptedCuda := attempted
      cudaFallbackReason := fallback
      numericPolicy := response.numericPolicy
      tiePolicy := response.tiePolicy
      reservedWorkingBytes := reserved
      firstDestination := search.firstDestination
      completionReason := response.completionReason
      search := search
      partitionedCpu := partitioned
      cuda := none }

/-- `route_controlled`, or `route_partitioned_controlled`, with the presence of the latter's
diagnostics. -/
def CpuTopology.route (topology : CpuTopology κ) (request : RoutingRequest)
    (signal : CancellationSignal) :
    Except RoutingError (RoutingResponse F × CpuSearchDiagnostics × Bool) :=
  match topology with
  | .resident image =>
    (routeControlled image request signal).map fun out => (out.1, out.2, false)
  | .partitioned image cache =>
    (routeTopologyControlled image request signal ⟨0, cache⟩).1.map fun out => (out.1, out.2, true)

/-- A corrupt image makes routing unavailable. -/
def EngineError.ofRouting : RoutingError → EngineError
  | .imageAccess reason => .routingUnavailable (.bundle reason)
  | error => .routing error

/-! ## The route -/

namespace RouteSurroundings

variable (env : RouteSurroundings F κ)

/-- The part of the route from the CPU reservation on. -/
def routeOnCpu (topology : CpuTopology κ) (request : RoutingRequest) (attempted : Bool)
    (fallback : Option CudaIneligibility) : Except EngineError (EngineRoutingResponse F) := do
  let estimate ← mapErr .routing (topology.estimate env.sizes request)
  mapErr .admission (env.reserve estimate.bytes)
  let (response, search, partitioned) ←
    mapErr EngineError.ofRouting (topology.route request env.signal)
  return cpuAnswer env.config.cuda.executorPolicy attempted fallback estimate.bytes partitioned
    response search

/-- The part of the route after the image has been acquired. -/
def routeOn (topology : CpuTopology κ) (request : RoutingRequest) :
    Except EngineError (EngineRoutingResponse F) :=
  let policy := env.config.cuda.executorPolicy
  match selectExecutor policy (cudaShapeRefusal env.config.cuda request) with
  | (true, _) =>
    match env.attemptCuda topology request with
    | .answered output reserved => .ok (cudaAnswer policy output reserved)
    | .failed error => .error error
    | .fellBack reason => env.routeOnCpu topology request true (some reason)
  | (false, fallback) =>
    if policy = .requireCuda then .error (.cudaIneligible (fallback.getD .disabled))
    else env.routeOnCpu topology request false fallback

/-- The check of the number of destinations. -/
def checkDestinations (request : RoutingRequest) : Except EngineError Unit :=
  if env.config.maxDestinationsPerRequest < request.destinations.length then
    .error (.admission (.tooManyDestinations request.destinations.length
      env.config.maxDestinationsPerRequest))
  else .ok ()

/-- `route_with_cancellation`. -/
def routeWithCancellation (request : RoutingRequest) :
    Except EngineError (EngineRoutingResponse F) := do
  mapErr .lifecycle env.beginRoute
  env.checkDestinations request
  env.registerFlag
  mapErr .admission env.acquireSlot
  let topology ← mapErr .routingUnavailable env.execution
  env.routeOn topology request

end RouteSurroundings

end PathHydra
