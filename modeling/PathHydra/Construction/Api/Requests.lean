import PathHydra.Construction.Engine.Shutdown

/-!
# Request handles

A client creates a request handle, routes with it once, and cancels it from any thread, through the
handle or by its identifier.  Three things decide between a cancellation and the route: the phase of
the handle, its cancellation flag, and the registry of the engine, under which the route registers
that flag while it executes.  `facade` is the machine of all clients; a load, an exchange, a swap
or a store of an atomic and a critical section of a lock are one step each.

* The requests are numbered as they are created, and a request is meant by its number.  Nothing
  is removed from the lists of calls, so a call is meant by its place.
* Before its search a route may be refused in many ways; the environment says whether it is.
* Whether the engine runs matters for the answer to an identifier nobody holds; the environment says
  it.
-/

namespace PathHydra

/-- `RequestIdAllocation`. -/
inductive RequestIdAllocation
  | automatic
  | supplied (value : U64)
  deriving DecidableEq

/-- The phases `REQUEST_CREATED`, `REQUEST_EXECUTING` and `REQUEST_COMPLETE` of a handle. -/
inductive RequestPhase
  | created
  | executing
  | complete
  deriving DecidableEq

/-- `CancellationOutcome` of the engine. -/
inductive CancellationOutcome
  | signalled
  | alreadySignalled
  | notActive
  deriving DecidableEq

/-- `CancellationOutcomeDto`. -/
inductive CancellationOutcomeDto
  | signalled
  | alreadySignalled
  | alreadyCompleted
  | unknownRequest
  | shuttingDown
  deriving DecidableEq

/-- What a call of `cancel_state` does next. -/
inductive CancelStage
  | loadComplete
  | loadCreated
  | loadShuttingDown
  | loadExecuting
  | cancelEngine
  | swap
  | reload (newlySignalled : Bool)
  | returned (outcome : CancellationOutcomeDto)
  deriving DecidableEq

/-- A call of `cancel`, through the handle or by its identifier. -/
structure CancelCall where
  request : ℕ
  byId : Bool
  stage : CancelStage
  deriving DecidableEq

/-- The call has not returned. -/
def CancelCall.inFlight (call : CancelCall) : Bool :=
  match call.stage with
  | .returned _ => false
  | _ => true

/-- What a call of `route` does next; `begin` has refused it, or it has returned. -/
inductive RequestStage
  | loadShuttingDown
  | exchange
  | convert
  | beginRoute
  | register
  | startSearch
  | searching
  | deregister (succeeded : Bool)
  | complete
  | drop
  | refused
  | returned
  deriving DecidableEq

/-- A call of `route`. -/
structure RequestRoute where
  request : ℕ
  stage : RequestStage
  deriving DecidableEq

/-- The call has not returned. -/
def RequestRoute.inFlight (call : RequestRoute) : Bool :=
  decide (call.stage ≠ .refused) && decide (call.stage ≠ .returned)

/-- The facade, with the calls of its clients. -/
structure FacadeSystem where
  highWater : Option U64
  ids : List U64
  flags : ℕ → Bool
  phases : ℕ → RequestPhase
  held : ℕ → Bool
  shuttingDown : Bool
  registry : RequestRegistry
  routes : List RequestRoute
  cancels : List CancelCall

/-- A facade over an engine that was opened. -/
def FacadeSystem.opened : FacadeSystem :=
  { highWater := none, ids := [], flags := fun _ => false, phases := fun _ => .created
    held := fun _ => false, shuttingDown := false, registry := [], routes := [], cancels := [] }

/-- Who moves, and what the environment answers. -/
inductive FacadeAction
  | requestHandle (allocation : RequestIdAllocation)
  | dropHandle (request : ℕ)
  | callRoute (request : ℕ)
  | route (call : ℕ) (answer : Bool)
  | callCancel (request : ℕ)
  | cancelById (id : U64) (running : Bool)
  | cancel (call : ℕ)
  | beginShutdown
  | cancelAll
  deriving DecidableEq

/-- Why no handle is given. -/
inductive RequestHandleError
  | engineNotRunning
  | requestIdExhausted
  | requestIdNotMonotonic
  deriving DecidableEq

/-- What a step lets a client see.  A search looks at its flag. -/
inductive FacadeEvent
  | handle (result : Except RequestHandleError U64)
  | unknown (outcome : CancellationOutcomeDto)
  | polled (request : ℕ) (cancelled : Bool)
  | silent

/-- `cancel`, as far as its outcome goes. -/
def RequestRegistry.cancelOutcome (active : RequestRegistry) (id : ℕ) (flags : ℕ → Bool) :
    CancellationOutcome :=
  match active.find? fun entry => decide (entry.1 = id) with
  | none => .notActive
  | some entry => if flags entry.2 then .alreadySignalled else .signalled

namespace FacadeSystem

/-! ## Creating and dropping handles -/

/-- `allocate`, up to the state it makes. -/
def allocate (highWater : Option U64) : RequestIdAllocation → Except RequestHandleError U64
  | .automatic =>
    match highWater with
    | none => .ok 1
    | some value =>
      if h : value.val + 1 < 2 ^ 64 then .ok ⟨value.val + 1, h⟩ else .error .requestIdExhausted
  | .supplied value =>
    if highWater.any fun highWater => decide (value ≤ highWater) then .error .requestIdNotMonotonic
    else .ok value

/-- `request_handle`. -/
def requestHandleStep (s : FacadeSystem) (allocation : RequestIdAllocation) :
    FacadeSystem × FacadeEvent :=
  if s.shuttingDown then (s, .handle (.error .engineNotRunning))
  else match allocate s.highWater allocation with
    | .error error => (s, .handle (.error error))
    | .ok value =>
      let request := s.ids.length
      ({ s with
        highWater := some value
        ids := s.ids ++ [value]
        flags := Function.update s.flags request false
        phases := Function.update s.phases request .created
        held := Function.update s.held request true }, .handle (.ok value))

/-- Someone borrows the handle of the request. -/
def borrowed (s : FacadeSystem) (request : ℕ) : Bool :=
  (s.routes.any fun call => decide (call.request = request) && call.inFlight) ||
    s.cancels.any fun call => decide (call.request = request) && !call.byId && call.inFlight

/-- The weak reference of the allocator to the request can be upgraded. -/
def upgradable (s : FacadeSystem) (request : ℕ) : Bool :=
  s.held request ||
    s.cancels.any fun call => decide (call.request = request) && call.inFlight

/-! ## Routing -/

def setRoute (s : FacadeSystem) (call : ℕ) (request : ℕ) (stage : RequestStage) : FacadeSystem :=
  { s with routes := s.routes.set call ⟨request, stage⟩ }

/-- One step of a call of `route`. -/
def routeStep (s : FacadeSystem) (call : ℕ) (answer : Bool) :
    Option (FacadeSystem × FacadeEvent) :=
  match s.routes[call]? with
  | none => none
  | some ⟨request, stage⟩ =>
    match stage with
    | .loadShuttingDown =>
      some (s.setRoute call request (if s.shuttingDown then .refused else .exchange), .silent)
    | .exchange =>
      if s.phases request = .created then
        some ({ s with phases := Function.update s.phases request .executing }.setRoute call request
          .convert, .silent)
      else some (s.setRoute call request .refused, .silent)
    | .convert =>
      some (s.setRoute call request (if answer then .beginRoute else .drop), .silent)
    | .beginRoute =>
      some (s.setRoute call request (if answer then .register else .drop), .silent)
    | .register =>
      (s.ids[request]?).map fun id =>
        match s.registry.registerFlag id.val request with
        | none => (s.setRoute call request .drop, .silent)
        | some registry =>
          ({ s with registry := registry }.setRoute call request .startSearch, .silent)
    | .startSearch =>
      -- The admission slot, the image and the executor may still refuse the route.
      if answer then some (s.setRoute call request .searching, .polled request (s.flags request))
      else some (s.setRoute call request (.deregister false), .silent)
    | .searching =>
      some (s.setRoute call request (.deregister answer), .silent)
    | .deregister succeeded =>
      (s.ids[request]?).map fun id =>
        ({ s with registry := s.registry.deregister id.val }.setRoute call request
          (if succeeded then .complete else .drop), .silent)
    | .complete =>
      some ({ s with phases := Function.update s.phases request .complete }.setRoute call request
        .drop, .silent)
    | .drop =>
      some ({ s with phases := Function.update s.phases request .complete }.setRoute call request
        .returned, .silent)
    | .refused | .returned => none

/-! ## Cancelling -/

def setCancel (s : FacadeSystem) (call : ℕ) (entry : CancelCall) (stage : CancelStage) :
    FacadeSystem :=
  { s with cancels := s.cancels.set call { entry with stage := stage } }

/-- One step of a call of `cancel_state`. -/
def cancelStep (s : FacadeSystem) (call : ℕ) : Option (FacadeSystem × FacadeEvent) :=
  match s.cancels[call]? with
  | none => none
  | some entry =>
    match entry.stage with
    | .loadComplete =>
      some (s.setCancel call entry (if s.phases entry.request = .complete then
        .returned .alreadyCompleted else .loadCreated), .silent)
    | .loadCreated =>
      some (s.setCancel call entry (if s.phases entry.request = .created then .loadShuttingDown
        else .loadExecuting), .silent)
    | .loadShuttingDown =>
      some (s.setCancel call entry (if s.shuttingDown then .returned .shuttingDown
        else .loadExecuting), .silent)
    | .loadExecuting =>
      some (s.setCancel call entry (if s.phases entry.request = .executing then .cancelEngine
        else .swap), .silent)
    | .cancelEngine =>
      (s.ids[entry.request]?).map fun id =>
        let cancelled := { s with flags := s.registry.cancel id.val s.flags }
        match s.registry.cancelOutcome id.val s.flags with
        | .signalled => (cancelled.setCancel call entry (.returned .signalled), .silent)
        | .alreadySignalled =>
          (cancelled.setCancel call entry (.returned .alreadySignalled), .silent)
        -- The engine does not know the request yet, or not any more.
        | .notActive => (cancelled.setCancel call entry .swap, .silent)
    | .swap =>
      some ({ s with flags := Function.update s.flags entry.request true }.setCancel call entry
        (.reload (!s.flags entry.request)), .silent)
    | .reload newlySignalled =>
      some (s.setCancel call entry (.returned
        (if s.phases entry.request = .complete then .alreadyCompleted
        else if newlySignalled then .signalled else .alreadySignalled)), .silent)
    | .returned _ => none

/-- `cancel` by the identifier of a request. -/
def cancelByIdStep (s : FacadeSystem) (id : U64) (running : Bool) : FacadeSystem × FacadeEvent :=
  match (List.range s.ids.length).find? fun request =>
      decide (s.ids[request]? = some id) && s.upgradable request with
  | some request => ({ s with cancels := s.cancels ++ [⟨request, true, .loadComplete⟩] }, .silent)
  | none => (s, .unknown (if running then .unknownRequest else .shuttingDown))

end FacadeSystem

/-- The facade and its clients. -/
def facade : Machine FacadeSystem FacadeAction FacadeEvent where
  step s
    | .requestHandle allocation => some (s.requestHandleStep allocation)
    | .dropHandle request =>
      if s.borrowed request then none
      else some ({ s with held := Function.update s.held request false }, .silent)
    | .callRoute request =>
      if s.held request then
        some ({ s with routes := s.routes ++ [⟨request, .loadShuttingDown⟩] }, .silent)
      else none
    | .route call answer => s.routeStep call answer
    | .callCancel request =>
      if s.held request then
        some ({ s with cancels := s.cancels ++ [⟨request, false, .loadComplete⟩] }, .silent)
      else none
    | .cancelById id running => some (s.cancelByIdStep id running)
    | .cancel call => s.cancelStep call
    -- `shutdown` raises its mark under the lock of the allocator.
    | .beginShutdown => some ({ s with shuttingDown := true }, .silent)
    | .cancelAll =>
      if s.shuttingDown then
        some ({ s with flags := (s.registry.cancelAll s.flags).2 }, .silent)
      else none

end PathHydra
