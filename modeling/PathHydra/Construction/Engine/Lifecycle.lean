import PathHydra.Framework.MachineInt
import PathHydra.Construction.Bundle.Cache

/-!
# Lifecycle admission

`LifecycleController` counts the operations that are admitted and closes admission for shutdown.
Every method is one critical section of its lock, so it is a function from the controller to its
result and the controller afterwards.

A `LifecyclePermit` is given back when its owner drops it; `LifecycleController.release` is the
body of that drop.  The wait for the drain is split at its condition variable: `pollDrain` is what
the loop looks at each time it holds the lock.
-/

namespace PathHydra

/-- `EngineLifecycleState`. -/
inductive EngineLifecycleState
  | running
  | closing
  | shutDown
  deriving DecidableEq, Repr

/-- `OperationKind`. -/
inductive OperationKind
  | route
  | mutation
  | checkpoint
  | maintenance
  deriving DecidableEq, Repr

/-- `ActiveOperationCounts`. -/
structure ActiveOperationCounts where
  routes : ℕ
  mutations : ℕ
  checkpoints : ℕ
  maintenance : ℕ
  deriving DecidableEq, Repr

/-- `LifecycleError`. -/
inductive LifecycleError
  | closing
  | shutDown
  | counterOverflow
  | maintenanceBusy (maximumWorkers : ℕ)
  | lockPoisoned
  deriving DecidableEq, Repr

namespace ActiveOperationCounts

/-- The counts of a new controller. -/
def zero : ActiveOperationCounts := ⟨0, 0, 0, 0⟩

/-- The count a kind of operation has. -/
def slot (c : ActiveOperationCounts) : OperationKind → ℕ
  | .route => c.routes
  | .mutation => c.mutations
  | .checkpoint => c.checkpoints
  | .maintenance => c.maintenance

/-- Writes the count of a kind of operation. -/
def setSlot (c : ActiveOperationCounts) (kind : OperationKind) (n : ℕ) : ActiveOperationCounts :=
  match kind with
  | .route => { c with routes := n }
  | .mutation => { c with mutations := n }
  | .checkpoint => { c with checkpoints := n }
  | .maintenance => { c with maintenance := n }

/-- All active operations, when their number can be counted. -/
def total (c : ActiveOperationCounts) : Option ℕ := do
  let n ← checkedAdd64 c.routes c.mutations
  let n ← checkedAdd64 n c.checkpoints
  checkedAdd64 n c.maintenance

/-- One more operation of a kind, unless its counter is full. -/
def increment (c : ActiveOperationCounts) (kind : OperationKind) : Option ActiveOperationCounts :=
  (checkedAdd64 (c.slot kind) 1).map (c.setSlot kind)

/-- One operation of a kind fewer. -/
def decrement (c : ActiveOperationCounts) (kind : OperationKind) : ActiveOperationCounts :=
  c.setSlot kind (c.slot kind - 1)

/-- `drained_operations`: what went from `before` to `remaining`. -/
def drainedOperations (before remaining : ActiveOperationCounts) : ActiveOperationCounts :=
  { routes := before.routes - remaining.routes
    mutations := before.mutations - remaining.mutations
    checkpoints := before.checkpoints - remaining.checkpoints
    maintenance := before.maintenance - remaining.maintenance }

end ActiveOperationCounts

/-- The state of a `LifecycleController` under its lock, and its maximum. -/
structure LifecycleController where
  lifecycle : EngineLifecycleState
  active : ActiveOperationCounts
  shutdownActiveBefore : Option ActiveOperationCounts
  rejectedAfterClose : ℕ
  maximumMaintenanceWorkers : ℕ
  deriving DecidableEq

namespace LifecycleController

/-- A controller that admits operations. -/
def new (maximumMaintenanceWorkers : ℕ) : LifecycleController :=
  { lifecycle := .running, active := .zero, shutdownActiveBefore := none, rejectedAfterClose := 0,
    maximumMaintenanceWorkers := maximumMaintenanceWorkers }

/-- Counts a rejected operation. -/
def reject (c : LifecycleController) : LifecycleController :=
  { c with rejectedAfterClose := saturatingAdd64 c.rejectedAfterClose 1 }

/-- The end of both `begin` and `begin_maintenance`: a permit, when the counter has room. -/
def grant (c : LifecycleController) (kind : OperationKind) :
    Except LifecycleError OperationKind × LifecycleController :=
  match c.active.increment kind with
  | none => (.error .counterOverflow, c)
  | some active => (.ok kind, { c with active := active })

/-- `begin`: the permit for an operation. -/
def begin (c : LifecycleController) (kind : OperationKind) :
    Except LifecycleError OperationKind × LifecycleController :=
  match c.lifecycle with
  | .closing => (.error .closing, c.reject)
  | .shutDown => (.error .shutDown, c.reject)
  | .running => c.grant kind

def beginRoute (c : LifecycleController) := c.begin .route

def beginMutation (c : LifecycleController) := c.begin .mutation

def beginCheckpoint (c : LifecycleController) := c.begin .checkpoint

/-- `begin_maintenance`: as `begin`, with at most the configured number of workers. -/
def beginMaintenance (c : LifecycleController) :
    Except LifecycleError OperationKind × LifecycleController :=
  match c.lifecycle with
  | .closing => (.error .closing, c.reject)
  | .shutDown => (.error .shutDown, c.reject)
  | .running =>
    if c.maximumMaintenanceWorkers ≤ c.active.maintenance then
      (.error (.maintenanceBusy c.maximumMaintenanceWorkers), c)
    else c.grant .maintenance

/-- The method of the controller that admits a kind of operation. -/
def beginOperation (c : LifecycleController) :
    OperationKind → Except LifecycleError OperationKind × LifecycleController
  | .route => c.beginRoute
  | .mutation => c.beginMutation
  | .checkpoint => c.beginCheckpoint
  | .maintenance => c.beginMaintenance

/-- A permit is dropped. -/
def release (c : LifecycleController) (kind : OperationKind) : LifecycleController :=
  { c with active := c.active.decrement kind }

/-- `close_admission`: the first call records the closing boundary. -/
def closeAdmission (c : LifecycleController) : LifecycleController :=
  match c.lifecycle with
  | .running => { c with shutdownActiveBefore := some c.active, lifecycle := .closing }
  | _ => c

/-- What `wait_for_drain` sees when it holds the lock: whether every operation has ended. -/
def pollDrain (c : LifecycleController) : Except LifecycleError Bool :=
  match c.active.total with
  | none => .error .counterOverflow
  | some n => .ok (decide (n = 0))

/-- `mark_shut_down`. -/
def markShutDown (c : LifecycleController) : Except LifecycleError LifecycleController :=
  match c.active.total with
  | none => .error .counterOverflow
  | some n => if n ≠ 0 then .error .closing else .ok { c with lifecycle := .shutDown }

end LifecycleController

end PathHydra
