import PathHydra.Construction.Routing.Cpu

/-!
# The working-set estimate

`estimateTopologyWorkingSet` is what the engine reserves before a route is admitted: the payload of
the collections of one search, every product and sum of it checked.  The sizes of the element types
are the compiler's and enter as a record.
-/

namespace PathHydra

variable {κ : Type}

/-- `size_of` of the element types of a search's collections. -/
structure PayloadSizes where
  relationUse : ℕ
  profileEntry : ℕ
  denseDestination : ℕ
  flag : ℕ
  distance : ℕ
  predecessor : ℕ
  sharedPath : ℕ
  pathStep : ℕ
  routePath : ℕ
  frontierEntry : ℕ
  destinationResult : ℕ

/-- `size_of::<usize>()`. -/
def usizeBytes : ℕ := 8

/-- `CpuWorkingSetEstimate`. -/
structure CpuWorkingSetEstimate where
  bytes : ℕ
  frontierEntries : ℕ
  maximumPathSteps : ℕ
  deriving DecidableEq

/-- The `add` of the estimator: `count` elements of a width on top of a total. -/
def addPayload (total count width : ℕ) : Except RoutingError ℕ := do
  let payload ← okOr .resourceEstimateOverflow (checkedMul64 count width)
  okOr .resourceEstimateOverflow (checkedAdd64 total payload)

/-- The prefix scan that counts the distinct present destinations. -/
def countUniquePresent (T : RoutingTopology κ) : List NodeId → List NodeId → ℕ
  | _, [] => 0
  | previous, destination :: rest =>
    match T.denseNodeId destination with
    | none => countUniquePresent T (previous ++ [destination]) rest
    | some dense =>
      if previous.any fun p => decide (T.denseNodeId p = some dense) then
        countUniquePresent T (previous ++ [destination]) rest
      else countUniquePresent T (previous ++ [destination]) rest + 1

/-- The steps all reconstructed paths may have together. -/
def maximumPathSteps (request : RoutingRequest) (nodes uniquePresent : ℕ) : Except RoutingError ℕ :=
  if request.returnPaths then
    okOr .resourceEstimateOverflow (checkedMul64 uniquePresent (nodes - 1))
  else .ok 0

/-- What a search adds to the working set when it keeps paths. -/
def addPathPayload (sizes : PayloadSizes) (request : RoutingRequest)
    (bytes nodes pathSteps uniquePresent : ℕ) : Except RoutingError ℕ :=
  if request.returnPaths then do
    let bytes ← addPayload bytes nodes sizes.predecessor
    let bytes ← addPayload bytes nodes sizes.sharedPath
    let bytes ← addPayload bytes nodes sizes.flag
    let bytes ← addPayload bytes pathSteps sizes.pathStep
    let sharedPathPayload ← okOr .resourceEstimateOverflow
      (checkedAdd64 sizes.routePath (2 * usizeBytes))
    addPayload bytes uniquePresent sharedPathPayload
  else .ok bytes

/-- The number of collections, each of which costs two words. -/
def allocationCount (request : RoutingRequest) (uniquePresent : ℕ) : Except RoutingError ℕ := do
  let paths ←
    (if request.returnPaths then okOr .resourceEstimateOverflow (checkedAdd64 3 uniquePresent)
    else .ok 0 : Except RoutingError ℕ)
  okOr .resourceEstimateOverflow (checkedAdd64 8 paths)

/-- `estimate_topology_working_set`. -/
def estimateTopologyWorkingSet (sizes : PayloadSizes) (T : RoutingTopology κ)
    (request : RoutingRequest) : Except RoutingError CpuWorkingSetEstimate := do
  let nodes := T.nodeCount
  let destinations := request.destinations.length
  let frontierEntries ← okOr .resourceEstimateOverflow (checkedAdd64 T.adjacencyCount 1)
  let uniquePresent := countUniquePresent T [] request.destinations
  let pathSteps ← maximumPathSteps request nodes uniquePresent
  let bytes ← okOr .resourceEstimateOverflow (checkedMul64 8 usizeBytes)
  let bytes ← addPayload bytes T.relationKindCount sizes.relationUse
  let bytes ← addPayload bytes T.relationKindCount sizes.profileEntry
  let bytes ← addPayload bytes destinations sizes.denseDestination
  let bytes ← addPayload bytes nodes sizes.flag
  let bytes ← addPayload bytes nodes sizes.distance
  let bytes ← addPayload bytes nodes sizes.flag
  let bytes ← addPathPayload sizes request bytes nodes pathSteps uniquePresent
  let bytes ← addPayload bytes frontierEntries sizes.frontierEntry
  let bytes ← addPayload bytes destinations sizes.destinationResult
  let allocations ← allocationCount request uniquePresent
  let bytes ← addPayload bytes allocations (2 * usizeBytes)
  return ⟨bytes, frontierEntries, pathSteps⟩

/-- `estimate_cpu_working_set`: the estimate for a resident image. -/
def estimateCpuWorkingSet (sizes : PayloadSizes) (image : RoutingImage)
    (request : RoutingRequest) : Except RoutingError CpuWorkingSetEstimate :=
  estimateTopologyWorkingSet sizes image.topology request

end PathHydra
