import PathHydra.Construction.Engine.Hydration
import PathHydra.Construction.Engine.Publication

/-!
# Hydration while the graph changes

A hydration checks its profile against the published image and reads its records from the catalog.
It holds the routing read lock from before the first to after the second, and other parties move in
between.  `hydration` is the machine of the engine with its calls in flight: a call begins, waits
with its packed profile, and reads the catalog; every other action is one of publication.  Those
that take the routing write lock wait until no call holds the read lock.

Publication leaves out why routing is unavailable, and whether the lifecycle admits a call or the
engine still owns its catalog; here the environment says so.
-/

namespace PathHydra

/-- `HydrationRequest`. -/
structure HydrationRequest where
  nodeIds : List NodeId
  edgeIds : List EdgeId
  profile : Option RelationProfile
  deriving DecidableEq

/-- A call that has packed its profile, if it has one, and holds the read lock. -/
structure HydrationCall where
  request : HydrationRequest
  canonical : Option RelationProfile

/-- The engine and the calls of `hydrate` that hold the read lock. -/
structure HydratingSystem where
  engine : PublicationSystem
  calls : List HydrationCall

/-- Who moves, and what the environment answers. -/
inductive HydratingAction
  | engine (action : PublicationAction)
  | beginHydrate (request : HydrationRequest) (admitted : Except LifecycleError Unit)
    (unavailable : RoutingUnavailableReason)
  | readCatalog (index : ℕ) (owned : Bool)

/-- The relation kinds a profile is packed against.  The compiler of bundles refuses relation kinds
that do not ascend, so these are the relation kinds of the graph as they are listed. -/
def ExecutionImage.relationIds (image : ExecutionImage) : List RelationId :=
  distinctIds (image.bundle.graph.relationKinds.map (·.id))

lemma distinctIds_ascending {k : IdKind} (ids : List (DurableId k)) :
    (distinctIds ids).Pairwise (· < ·) := by
  have hsorted : (distinctIds ids).Pairwise (· ≤ ·) := List.pairwise_insertionSort _ _
  have hnodup : (distinctIds ids).Nodup :=
    (List.perm_insertionSort _ _).nodup_iff.2 (List.nodup_dedup ids)
  exact hsorted.imp₂ (fun _ _ hle hne => lt_of_le_of_ne hle hne) hnodup

namespace PublicationSystem

/-- The actions that take the routing write lock. -/
def takesRoutingLock : PublicationAction → Bool
  | .beginMutation _ | .beginRebuild | .replaceImage | .shutdown => true
  | _ => false

/-- `execution`, as far as a profile is packed against it. -/
def execution (s : PublicationSystem) (unavailable : RoutingUnavailableReason) :
    Except RoutingUnavailableReason (List RelationId) :=
  match s.routing with
  | .available image => .ok image.relationIds
  | .unavailable => .error unavailable
  | .shutDown => .error (.bundle "the graph engine is shut down")

lemma execution_ascending {s : PublicationSystem} {unavailable : RoutingUnavailableReason}
    (ids : List RelationId) (h : s.execution unavailable = .ok ids) : ids.Pairwise (· < ·) := by
  unfold execution at h
  split at h
  · obtain rfl := Except.ok.inj h
    exact distinctIds_ascending _
  · cases h
  · cases h

/-- What a call sees of the engine when it begins. -/
def hydrationView (s : PublicationSystem) (maxHydrationHandles : U64)
    (admitted : Except LifecycleError Unit) (unavailable : RoutingUnavailableReason) :
    HydrationView where
  beginRoute := admitted
  maxHydrationHandles := maxHydrationHandles
  execution := s.execution unavailable
  db := s.catalog.db
  ascending := execution_ascending

end PublicationSystem

/-- The part of `hydrate` before it takes the read lock. -/
def HydrationView.beginHydration (engine : HydrationView) (request : HydrationRequest) :
    Except HydrateError Unit := do
  mapErr .lifecycle engine.beginRoute
  engine.checkHydrationLimit request.nodeIds.length request.edgeIds.length

variable (F : Type) [Binary64 F]

/-- The part of `hydrate` from its read of the catalog on. -/
def HydrationCall.finish (call : HydrationCall) (db : Database) :
    Except HydrateError (HydrationResponse F) := do
  let batch ← mapErr .catalog (confirmedRecordsById db call.request.nodeIds call.request.edgeIds)
  let nodes := call.request.nodeIds.map fun id => ⟨id, batch.node id⟩
  let edges ← call.request.edgeIds.mapM
    (HydrationView.hydrateEdgeHandle batch (call.canonical.map profileUses))
  return ⟨nodes, edges, call.canonical⟩

/-- A request that is answered, with its answer. -/
abbrev HydrationAnswer :=
  Option (HydrationRequest × Except HydrateError (HydrationResponse F))

namespace HydratingSystem

/-- A call begins, up to its packed profile. -/
def beginHydrate (s : HydratingSystem) (engine : HydrationView) (request : HydrationRequest) :
    Option (HydratingSystem × HydrationAnswer F) :=
  match engine.beginHydration request with
  | .error error => some (s, some (request, .error error))
  | .ok () =>
    -- The read lock is not to be had while a writer holds the routing lock.
    if s.engine.writer.isSome then none
    else match engine.canonicalProfile request.profile with
      | .error error => some (s, some (request, .error error))
      | .ok canonical => some ({ s with calls := s.calls ++ [⟨request, canonical⟩] }, none)

/-- A call reads the catalog, and ends. -/
def readCatalog (s : HydratingSystem) (index : ℕ) (owned : Bool) :
    Option (HydratingSystem × HydrationAnswer F) :=
  (s.calls[index]?).map fun call =>
    ({ s with calls := s.calls.eraseIdx index },
      some (call.request,
        if owned then call.finish F s.engine.catalog.db else .error (.lifecycle .shutDown)))

end HydratingSystem

/-- The engine with the hydrations in flight; each output answers a request. -/
def hydration (config : PublicationConfig) (maxHydrationHandles : U64) :
    Machine HydratingSystem HydratingAction (HydrationAnswer F) where
  step s action :=
    match action with
    | .engine .crash => some (⟨s.engine.crashed, []⟩, none)
    | .engine action =>
      if PublicationSystem.takesRoutingLock action && !s.calls.isEmpty then none
      else ((publication config).step s.engine action).map fun r => ({ s with engine := r.1 }, none)
    | .beginHydrate request admitted unavailable =>
      if s.engine.phase = .running then
        s.beginHydrate F (s.engine.hydrationView maxHydrationHandles admitted unavailable) request
      else none
    | .readCatalog index owned => s.readCatalog F index owned

end PathHydra
