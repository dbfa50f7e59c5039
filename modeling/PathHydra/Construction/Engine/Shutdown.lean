import PathHydra.Framework.Machine
import PathHydra.Construction.Engine.Lifecycle

/-!
# Engine shutdown

`GraphEngine::shutdown` closes admission, signals the registered requests, waits for the admitted
operations, stops the routing image and the CUDA worker, flushes and releases the catalog, and
marks the engine as shut down.  Any number of calls run beside the admitted operations and beside
each other.  `engine` is the machine of all of them: an action is one critical section of a party,
and the environment chooses what fails, what times out, and when flags are signalled.

* A permit carries the caller that holds it; a caller executes one operation at a time.
* A cancellation flag is an `AtomicBool` shared by address: `flags` is what the addresses hold.
  Nothing resets a flag.
* The catalog slot is `CatalogHandle`: whether it holds the handle, the clones `with_catalog`
  handed out, and whether anything was written since the last successful flush.
* `signalled` remembers that a `cancel_all` was executed; no step reads it.

Durations, the retirement of bundles and the build report of a stopped image are not part of this
machine.
-/

namespace PathHydra

/-! ## The request registry -/

/-- `RequestRegistry`: the flag registered under each active request. -/
abbrev RequestRegistry := List (ℕ × ℕ)

/-- `CancelAllOutcome`. -/
structure CancelAllOutcome where
  active : ℕ
  newlySignalled : ℕ
  deriving DecidableEq

namespace RequestRegistry

/-- `register_flag`: a request that is already active is refused. -/
def registerFlag (active : RequestRegistry) (id flag : ℕ) : Option RequestRegistry :=
  if active.any fun entry => decide (entry.1 = id) then none else some ((id, flag) :: active)

/-- A registration is dropped. -/
def deregister (active : RequestRegistry) (id : ℕ) : RequestRegistry :=
  active.filter fun entry => decide (entry.1 ≠ id)

/-- `cancel`: sets the flag of an active request. -/
def cancel (active : RequestRegistry) (id : ℕ) (flags : ℕ → Bool) : ℕ → Bool :=
  match active.find? fun entry => decide (entry.1 = id) with
  | none => flags
  | some entry => Function.update flags entry.2 true

/-- `cancel_all`: swaps every registered flag to `true`, counting those that were not. -/
def cancelAll (active : RequestRegistry) (flags : ℕ → Bool) : CancelAllOutcome × (ℕ → Bool) :=
  let swapped := active.foldl (fun (newly, flags) entry =>
    (if flags entry.2 then newly else newly + 1, Function.update flags entry.2 true)) (0, flags)
  (⟨active.length, swapped.1⟩, swapped.2)

end RequestRegistry

/-! ## Reports -/

/-- `DrainOutcome`. -/
structure DrainOutcome where
  drained : Bool
  remaining : ActiveOperationCounts
  deriving DecidableEq

/-- `ShutdownFailureStage`. -/
inductive ShutdownFailureStage
  | drain
  | routingIo
  | cudaWorker
  | storeFlush
  | storeHandle
  | lifecycle
  deriving DecidableEq

/-- `ShutdownFailure`. -/
structure ShutdownFailure where
  stage : ShutdownFailureStage
  category : String
  deriving DecidableEq

/-- `ShutdownReport`.  Of the CUDA worker it keeps whether it was joined. -/
structure ShutdownReport where
  stateBefore : EngineLifecycleState
  stateAfter : EngineLifecycleState
  alreadyShutDown : Bool
  activeBefore : ActiveOperationCounts
  drain : DrainOutcome
  drained : ActiveOperationCounts
  activeRequestsSignalled : ℕ
  newlySignalledRequests : ℕ
  partitionIoStopped : Bool
  cudaWorker : Option Bool
  storeFlushed : Bool
  failures : List ShutdownFailure
  deriving DecidableEq

/-- `complete`. -/
def ShutdownReport.complete (r : ShutdownReport) : Bool :=
  decide (r.stateAfter = .shutDown) && r.failures.isEmpty

/-- What a call knows after its first snapshot; an engine that is shut down is reported so. -/
def ShutdownReport.ofSnapshot (c : LifecycleController) : ShutdownReport :=
  { stateBefore := c.lifecycle, stateAfter := c.lifecycle
    alreadyShutDown := decide (c.lifecycle = .shutDown)
    activeBefore := c.active, drain := ⟨true, c.active⟩, drained := .zero
    activeRequestsSignalled := 0, newlySignalledRequests := 0, partitionIoStopped := false
    cudaWorker := none, storeFlushed := false, failures := [] }

def ShutdownReport.fail (r : ShutdownReport) (stage : ShutdownFailureStage) (category : String) :
    ShutdownReport :=
  { r with failures := r.failures ++ [⟨stage, category⟩] }

/-! ## The parties -/

/-- An operation of a caller, with what it passes to the engine. -/
inductive Operation
  | route (requestId cancellation : ℕ)
  | mutation
  | checkpoint
  | maintenance
  deriving DecidableEq

def Operation.kind : Operation → OperationKind
  | .route _ _ => .route
  | .mutation => .mutation
  | .checkpoint => .checkpoint
  | .maintenance => .maintenance

/-- `LifecyclePermit`, with the caller that holds it. -/
structure LifecyclePermit where
  kind : OperationKind
  holder : ℕ
  deriving DecidableEq

/-- Where a call of `route_with_cancellation` stands: it holds its permit, its flag is registered,
it has an admission slot, it searches a leased image, its registration is dropped. -/
inductive RouteStage
  | admitted
  | registered
  | slotted
  | searching
  | ended
  deriving DecidableEq

/-- A call of `route_with_cancellation` that was admitted. -/
structure RouteCall where
  requestId : ℕ
  cancellation : ℕ
  stage : RouteStage
  deriving DecidableEq

/-- What a call of `shutdown` does next. -/
inductive ShutdownStage
  | closeAdmission
  | readBoundary
  | cancelAll
  | waitForDrain
  | stopRouting
  | stopCuda
  | closeStore
  | markShutDown
  | report
  deriving DecidableEq

/-- A call of `shutdown`: the next stage, and the report so far. -/
structure ShutdownCall where
  stage : ShutdownStage
  report : ShutdownReport
  deriving DecidableEq

/-- The published routing state; an available image has an I/O pool when it is partitioned. -/
inductive RoutingStatus
  | available (partitioned : Bool)
  | unavailable
  | shutDown
  deriving DecidableEq

/-- The slot of the catalog. -/
structure CatalogHandle where
  held : Bool
  clones : ℕ
  unflushed : Bool
  deriving DecidableEq

/-- The engine with everything that moves around it.  The CUDA slot counts the clones of the
runtime in it. -/
structure EngineSystem where
  controller : LifecycleController
  permits : List LifecyclePermit
  registry : RequestRegistry
  flags : ℕ → Bool
  signalled : Bool
  routes : ℕ → Option RouteCall
  routing : RoutingStatus
  cuda : Option ℕ
  catalog : CatalogHandle
  shutdowns : ℕ → Option ShutdownCall

/-- An engine that was opened: nothing is admitted, and the store is not flushed. -/
def EngineSystem.opened (maximumMaintenanceWorkers : ℕ) (flags : ℕ → Bool)
    (routing : RoutingStatus) (cuda : Option ℕ) : EngineSystem :=
  { controller := .new maximumMaintenanceWorkers, permits := [], registry := [], flags := flags
    signalled := false, routes := fun _ => none, routing := routing, cuda := cuda
    catalog := ⟨true, 0, true⟩, shutdowns := fun _ => none }

/-- How the environment answers a stage of shutdown: what the stage waits for or calls succeeds or
fails (for the drain: in time or not), or the lock it takes is poisoned. -/
inductive StageAnswer
  | succeeds
  | fails
  | poisoned
  deriving DecidableEq

/-- Who moves, and what the environment answers. -/
inductive EngineAction
  | begin (caller : ℕ) (operation : Operation)
  | drop (caller : ℕ)
  | registerFlag (caller : ℕ)
  | acquireSlot (caller : ℕ)
  | leaseImage (caller : ℕ)
  | search (caller : ℕ)
  | endRoute (caller : ℕ)
  | cancel (requestId : ℕ)
  | signal (flag : ℕ)
  | publish (caller : ℕ) (status : RoutingStatus)
  | installCuda (caller : ℕ)
  | cloneCuda
  | dropCuda
  | cloneCatalog
  | dropCatalog
  | write
  | callShutdown (call : ℕ)
  | shutdown (call : ℕ) (answer : StageAnswer)
  deriving DecidableEq

/-- What a step lets a caller see. -/
inductive EngineEvent
  | began (result : Except LifecycleError OperationKind)
  | registered (accepted : Bool)
  | searched
  | interrupted
  | catalog (result : Except LifecycleError Unit)
  | returned (result : Except LifecycleError ShutdownReport)
  | silent

namespace EngineSystem

def setRoute (s : EngineSystem) (caller : ℕ) (call : Option RouteCall) : EngineSystem :=
  { s with routes := Function.update s.routes caller call }

def setShutdown (s : EngineSystem) (i : ℕ) (call : Option ShutdownCall) : EngineSystem :=
  { s with shutdowns := Function.update s.shutdowns i call }

/-- Whether the caller executes an operation. -/
def busy (s : EngineSystem) (caller : ℕ) : Bool :=
  s.permits.any fun permit => decide (permit.holder = caller)

/-- Whether the caller executes an operation that publishes routing images. -/
def publishes (s : EngineSystem) (caller : ℕ) : Bool :=
  s.permits.any fun permit => decide (permit.holder = caller) &&
    (decide (permit.kind = .mutation) || decide (permit.kind = .maintenance))

/-- The admission of an operation. -/
def beginStep (s : EngineSystem) (caller : ℕ) (operation : Operation) :
    Option (EngineSystem × EngineEvent) :=
  if s.busy caller then none
  else match s.controller.beginOperation operation.kind with
    | (.error e, controller) => some ({ s with controller := controller }, .began (.error e))
    | (.ok kind, controller) =>
      let s := { s with controller := controller, permits := ⟨kind, caller⟩ :: s.permits }
      match operation with
      | .route requestId cancellation =>
        some (s.setRoute caller (some ⟨requestId, cancellation, .admitted⟩), .began (.ok kind))
      | _ => some (s, .began (.ok kind))

/-- Whether a caller may drop its permit: a route drops its registration first. -/
def mayDrop : Option RouteCall → Bool
  | none => true
  | some call => decide (call.stage = .admitted) || decide (call.stage = .ended)

/-- The drop of the permit at the end of an operation. -/
def dropStep (s : EngineSystem) (caller : ℕ) : Option (EngineSystem × EngineEvent) :=
  match s.permits.find? fun permit => decide (permit.holder = caller) with
  | none => none
  | some permit =>
    if mayDrop (s.routes caller) then
      some ({ s with
        controller := s.controller.release permit.kind
        permits := s.permits.erase permit }.setRoute caller none, .silent)
    else none

/-- The steps of a call of `route_with_cancellation` between its admission and its end. -/
def routeStep (s : EngineSystem) (caller : ℕ) (action : EngineAction) :
    Option (EngineSystem × EngineEvent) :=
  match s.routes caller with
  | none => none
  | some call =>
    match action, call.stage with
    | .registerFlag _, .admitted =>
      match s.registry.registerFlag call.requestId call.cancellation with
      | none => some (s.setRoute caller (some { call with stage := .ended }), .registered false)
      | some registry =>
        some ({ s with registry := registry }.setRoute caller
          (some { call with stage := .registered }), .registered true)
    | .acquireSlot _, .registered =>
      some (s.setRoute caller (some { call with stage := .slotted }), .silent)
    | .leaseImage _, .slotted =>
      match s.routing with
      | .available _ => some (s.setRoute caller (some { call with stage := .searching }), .silent)
      | _ => none
    | .search _, .searching =>
      some (s, if s.flags call.cancellation then .interrupted else .searched)
    | .endRoute _, .registered | .endRoute _, .slotted | .endRoute _, .searching =>
      some ({ s with registry := s.registry.deregister call.requestId }.setRoute caller
        (some { call with stage := .ended }), .silent)
    | _, _ => none

/-- The steps on the catalog, the CUDA slot and the published image, and the signals. -/
def resourceStep (s : EngineSystem) : EngineAction → Option (EngineSystem × EngineEvent)
  | .cancel requestId => some ({ s with flags := s.registry.cancel requestId s.flags }, .silent)
  | .signal flag => some ({ s with flags := Function.update s.flags flag true }, .silent)
  | .publish caller status =>
    if s.publishes caller && decide (s.routing ≠ .shutDown) && decide (status ≠ .shutDown) then
      some ({ s with routing := status }, .silent)
    else none
  | .installCuda caller =>
    if s.publishes caller then some ({ s with cuda := some 0 }, .silent) else none
  | .cloneCuda => s.cuda.map fun n => ({ s with cuda := some (n + 1) }, .silent)
  | .dropCuda =>
    match s.cuda with
    | some (n + 1) => some ({ s with cuda := some n }, .silent)
    | _ => none
  | .cloneCatalog =>
    if s.catalog.held then
      some ({ s with catalog := { s.catalog with clones := s.catalog.clones + 1 } },
        .catalog (.ok ()))
    else some (s, .catalog (.error .shutDown))
  | .dropCatalog =>
    if s.catalog.clones = 0 then none
    else some ({ s with catalog := { s.catalog with clones := s.catalog.clones - 1 } }, .silent)
  | .write =>
    if s.catalog.clones = 0 then none
    else some ({ s with catalog := { s.catalog with unflushed := true } }, .silent)
  | _ => none

/-! ## The stages of shutdown -/

/-- The head of `shutdown`. -/
def callShutdownStep (s : EngineSystem) (i : ℕ) : Option (EngineSystem × EngineEvent) :=
  match s.shutdowns i with
  | some _ => none
  | none =>
    let report := ShutdownReport.ofSnapshot s.controller
    if s.controller.lifecycle = .shutDown then some (s, .returned (.ok report))
    else some (s.setShutdown i (some ⟨.closeAdmission, report⟩), .silent)

/-- The call goes on to a stage. -/
def proceed (s : EngineSystem) (i : ℕ) (stage : ShutdownStage) (report : ShutdownReport) :
    Option (EngineSystem × EngineEvent) :=
  some (s.setShutdown i (some ⟨stage, report⟩), .silent)

/-- The call returns. -/
def leave (s : EngineSystem) (i : ℕ) (result : Except LifecycleError ShutdownReport) :
    Option (EngineSystem × EngineEvent) :=
  some (s.setShutdown i none, .returned result)

def waitForDrainStage (s : EngineSystem) (i : ℕ) (report : ShutdownReport)
    (answer : StageAnswer) : Option (EngineSystem × EngineEvent) :=
  let active := s.controller.active
  let drained := ActiveOperationCounts.drainedOperations report.activeBefore active
  match s.controller.pollDrain with
  | .error e => s.leave i (.error e)
  | .ok true =>
    s.proceed i .stopRouting { report with drain := ⟨true, active⟩, drained := drained }
  | .ok false =>
    -- The call keeps waiting until the timeout.
    if answer = .succeeds then none
    else
      s.leave i (.ok ({ report with
        stateAfter := .closing, drain := ⟨false, active⟩, drained := drained }.fail
          .drain "drain-timeout"))

def stopRoutingStage (s : EngineSystem) (i : ℕ) (report : ShutdownReport)
    (answer : StageAnswer) : Option (EngineSystem × EngineEvent) :=
  let stopped := { s with routing := .shutDown }
  match s.routing with
  | .available true =>
    if answer = .succeeds then
      stopped.proceed i .stopCuda { report with partitionIoStopped := true }
    else stopped.proceed i .stopCuda (report.fail .routingIo "worker-join-failed")
  | _ => stopped.proceed i .stopCuda report

def stopCudaStage (s : EngineSystem) (i : ℕ) (report : ShutdownReport)
    (answer : StageAnswer) : Option (EngineSystem × EngineEvent) :=
  let failed := report.fail .cudaWorker "worker-reference-still-active"
  match s.cuda with
  | none => s.proceed i .closeStore report
  | some 0 =>
    let s := { s with cuda := none }
    if answer = .succeeds then s.proceed i .closeStore { report with cudaWorker := some true }
    else s.proceed i .closeStore { failed with cudaWorker := some false }
  | some (_ + 1) => s.proceed i .closeStore { failed with cudaWorker := some false }

def closeStoreStage (s : EngineSystem) (i : ℕ) (report : ShutdownReport)
    (answer : StageAnswer) : Option (EngineSystem × EngineEvent) :=
  if s.catalog.held then
    if s.catalog.clones ≠ 0 then
      s.proceed i .markShutDown (report.fail .storeHandle "catalog-reference-still-active")
    else if answer = .succeeds then
      { s with catalog := ⟨false, 0, false⟩ }.proceed i .markShutDown
        { report with storeFlushed := true }
    else s.proceed i .markShutDown (report.fail .storeFlush "durability-flush-failed")
  else s.proceed i .markShutDown report

def markShutDownStage (s : EngineSystem) (i : ℕ) (report : ShutdownReport) :
    Option (EngineSystem × EngineEvent) :=
  if report.failures = [] then
    match s.controller.markShutDown with
    | .error e => s.leave i (.error e)
    | .ok controller => { s with controller := controller }.proceed i .report report
  else s.proceed i .report report

/-- One stage of a call of `shutdown`. -/
def shutdownStep (s : EngineSystem) (i : ℕ) (answer : StageAnswer) :
    Option (EngineSystem × EngineEvent) :=
  match s.shutdowns i with
  | none => none
  | some ⟨stage, report⟩ =>
    if answer = .poisoned then s.leave i (.error .lockPoisoned)
    else match stage with
      | .closeAdmission =>
        { s with controller := s.controller.closeAdmission }.proceed i .readBoundary report
      | .readBoundary =>
        s.proceed i .cancelAll { report with
          activeBefore := s.controller.shutdownActiveBefore.getD report.activeBefore }
      | .cancelAll =>
        let (outcome, flags) := s.registry.cancelAll s.flags
        { s with flags := flags, signalled := true }.proceed i .waitForDrain { report with
          activeRequestsSignalled := outcome.active
          newlySignalledRequests := outcome.newlySignalled }
      | .waitForDrain => s.waitForDrainStage i report answer
      | .stopRouting => s.stopRoutingStage i report answer
      | .stopCuda => s.stopCudaStage i report answer
      | .closeStore => s.closeStoreStage i report answer
      | .markShutDown => s.markShutDownStage i report
      | .report => s.leave i (.ok { report with stateAfter := s.controller.lifecycle })

end EngineSystem

/-- The engine, its callers and the calls of `shutdown`. -/
def engine : Machine EngineSystem EngineAction EngineEvent where
  step s
    | .begin caller operation => s.beginStep caller operation
    | .drop caller => s.dropStep caller
    | .registerFlag caller => s.routeStep caller (.registerFlag caller)
    | .acquireSlot caller => s.routeStep caller (.acquireSlot caller)
    | .leaseImage caller => s.routeStep caller (.leaseImage caller)
    | .search caller => s.routeStep caller (.search caller)
    | .endRoute caller => s.routeStep caller (.endRoute caller)
    | .callShutdown i => s.callShutdownStep i
    | .shutdown i answer => s.shutdownStep i answer
    | action => s.resourceStep action

end PathHydra
