import Mathlib.Data.Prod.Lex
import Mathlib.Logic.Function.Basic
import PathHydra.Framework.Binary64
import PathHydra.Construction.Routing.Request

/-!
# The CPU search

`routeTopologyControlled` is the exact best-first search of `cpu.rs` over an arbitrary topology,
with its lazy-deletion frontier, its early stop once the last pending destination is final, its
two interruption points per edge, the assembly of the results and the reconstruction of paths.

Three conventions make it a function.

* Everything outside the search that changes while it runs is a `World`: the number of times the
  cancellation signal has been polled, and whatever the topology keeps (a partition cache).  A
  cancellation signal is the sequence of its answers.  The world survives an error.
* The frontier is the list of its entries; `popFrontier` removes the least entry by distance and
  then by dense node, which is what the reversed `Ord` of `FrontierEntry` makes `BinaryHeap::pop`
  return.  Arrays indexed by dense nodes are functions.
* The two loops that the program leaves by `break` or `return` carry fuel, and running out of it
  is `RoutingError.noReturn`.

Memory reservations succeed, and of the durations only the presence of the first one is kept.
-/

namespace PathHydra

variable {F : Type} [Binary64 F] {κ : Type}

/-! ## Worlds and topologies -/

/-- The answers of a cancellation signal, in the order in which it is polled. -/
abbrev CancellationSignal := ℕ → Bool

/-- A signal that is never raised. -/
def neverCancelled : CancellationSignal := fun _ => false

/-- What changes beside the search: the polls of the signal so far, and the topology's own
state. -/
structure World (κ : Type) where
  polls : ℕ
  store : κ

/-- `is_cancelled`: the answer of this poll, and the world after it. -/
def World.isCancelled (w : World κ) (signal : CancellationSignal) : Bool × World κ :=
  (signal w.polls, { w with polls := w.polls + 1 })

/-- The graph a search reads.  `edgeAt` may poll the signal, use the topology's state, and give
up on cancellation. -/
structure RoutingTopology (κ : Type) where
  nodeCount : ℕ
  relationKindCount : ℕ
  adjacencyCount : ℕ
  denseNodeId : NodeId → Option DenseNodeId
  externalNodeId : DenseNodeId → Option NodeId
  relationIds : List RelationId
  outgoingRange : DenseNodeId → Except RoutingError (ℕ × ℕ)
  edgeAt : CancellationSignal → ℕ → World κ → Except RoutingError (Option OutgoingEdge) × World κ

/-- The resident image as a topology: no state, no polls. -/
def RoutingImage.topology (image : RoutingImage) : RoutingTopology Unit where
  nodeCount := image.nodeCount
  relationKindCount := image.relationKindCount
  adjacencyCount := image.adjacencyCount
  denseNodeId := image.denseNodeId
  externalNodeId := image.externalNodeId
  relationIds := image.confirmedRelationIds
  outgoingRange source :=
    okOr (.internalInvariant "node has no bounded outgoing range") (image.outgoingRange source)
  edgeAt _ index w := ((okOr .noReturn (image.edgeAt index)).map some, w)

/-! ## Arithmetic -/

/-- `effective_weight`. -/
def effectiveWeight (baseWeight : BaseWeight) (multiplier : RelationMultiplier) :
    Except RoutingError F :=
  let effective : F :=
    Binary64.ofBinary32 baseWeight.toBits * Binary64.ofBinary32 multiplier.toBits
  if Binary64.isFinite effective then .ok effective else .error (.arithmetic .effectiveWeight)

/-- `accumulate_distance`. -/
def accumulateDistance (current effective : F) : Except RoutingError F :=
  let candidate := current + effective
  if Binary64.isFinite candidate then .ok candidate else .error (.arithmetic .pathAddition)

/-! ## The frontier -/

/-- A tentative distance waiting to be finalized. -/
structure FrontierEntry (F : Type*) where
  distance : F
  node : DenseNodeId
  deriving DecidableEq

omit [Binary64 F] in
/-- The key `BinaryHeap` orders by: the nearest entry first, ties by dense node. -/
def FrontierEntry.key (e : FrontierEntry F) : F ×ₗ DenseNodeId := toLex (e.distance, e.node)

omit [Binary64 F] in
lemma FrontierEntry.key_injective :
    Function.Injective (FrontierEntry.key : FrontierEntry F → F ×ₗ DenseNodeId) := by
  rintro ⟨d, n⟩ ⟨d', n'⟩ h
  have h' := toLex.injective h
  simp only [Prod.mk.injEq] at h'
  obtain ⟨rfl, rfl⟩ := h'
  rfl

instance : LinearOrder (FrontierEntry F) :=
  LinearOrder.lift' FrontierEntry.key FrontierEntry.key_injective

/-- `BinaryHeap::pop` on the reversed order. -/
def popFrontier (frontier : List (FrontierEntry F)) :
    Option (FrontierEntry F × List (FrontierEntry F)) :=
  match frontier.min? with
  | none => none
  | some least => some (least, frontier.erase least)

/-! ## Search state -/

/-- The edge through which a node's tentative distance was last set. -/
structure Predecessor where
  source : DenseNodeId
  edge : EdgeId
  adjacency : ℕ
  deriving DecidableEq

/-- The local variables of the search. -/
structure SearchState (F : Type*) where
  pending : DenseNodeId → Bool
  pendingCount : ℕ
  distances : DenseNodeId → Option F
  finalized : DenseNodeId → Bool
  predecessors : Option (DenseNodeId → Option Predecessor)
  frontier : List (FrontierEntry F)
  examinedEdges : ℕ
  finalizedNodes : ℕ
  relaxationUpdates : ℕ
  frontierHighWaterMark : ℕ
  /-- Whether `first_destination_duration` has been set. -/
  firstDestination : Bool

/-- `set_predecessor`. -/
def setPredecessor (predecessors : Option (DenseNodeId → Option Predecessor))
    (destination : DenseNodeId) (predecessor : Predecessor) :
    Option (DenseNodeId → Option Predecessor) :=
  predecessors.map fun p => Function.update p destination (some predecessor)

/-- The replacement rule for equal candidates: the lexicographically least source and edge. -/
def replacesPredecessor (old : Option Predecessor) (new : Predecessor) : Bool :=
  match old with
  | none => true
  | some old =>
    decide (new.source < old.source) || (decide (new.source = old.source) &&
      decide (new.edge < old.edge))

/-- The tie branch of the relaxation. -/
def tiePredecessor (predecessors : Option (DenseNodeId → Option Predecessor))
    (destination : DenseNodeId) (predecessor : Predecessor) :
    Option (DenseNodeId → Option Predecessor) :=
  predecessors.map fun p =>
    if replacesPredecessor (p destination) predecessor then
      Function.update p destination (some predecessor)
    else p

/-- The branches that record a new or smaller tentative distance. -/
def improveLabel (st : SearchState F) (destination : DenseNodeId) (candidate : F)
    (predecessor : Predecessor) : SearchState F :=
  let frontier := ⟨candidate, destination⟩ :: st.frontier
  { st with
    distances := Function.update st.distances destination (some candidate)
    predecessors := setPredecessor st.predecessors destination predecessor
    frontier := frontier
    relaxationUpdates := min (st.relaxationUpdates + 1) u64Max
    frontierHighWaterMark := max st.frontierHighWaterMark frontier.length }

/-- The comparison of a candidate distance with the recorded one. -/
def applyCandidate (st : SearchState F) (destination : DenseNodeId) (candidate : F)
    (predecessor : Predecessor) : SearchState F :=
  match st.distances destination with
  | none => improveLabel st destination candidate predecessor
  | some existing =>
    if candidate < existing then improveLabel st destination candidate predecessor
    else if candidate = existing then
      { st with predecessors := tiePredecessor st.predecessors destination predecessor }
    else st

/-- One edge of the inner loop, after it has been read. -/
def relaxEdge (profile : PackedRelationProfile) (current : FrontierEntry F) (adjacency : ℕ)
    (edge : OutgoingEdge) (st : SearchState F) : Except RoutingError (SearchState F) :=
  match profile.relationUseIndex edge.relationIndex with
  | none => .error (.internalInvariant "edge relation is absent from packed profile")
  | some .disabled => .ok st
  | some (.enabled multiplier) =>
    if st.finalized edge.destination then .ok st
    else do
      let effective : F ← effectiveWeight edge.baseWeight multiplier
      let candidate ← accumulateDistance current.distance effective
      return applyCandidate st edge.destination candidate
        ⟨current.node, edge.edgeId, adjacency⟩

/-- The inner loop over the outgoing range of the current node.  A reason is returned where the
program breaks out of the search. -/
def relaxRange (T : RoutingTopology κ) (signal : CancellationSignal)
    (profile : PackedRelationProfile) (budget : SearchBudget) (current : FrontierEntry F) :
    List ℕ → SearchState F → World κ →
      Except RoutingError (Option CompletionReason × SearchState F) × World κ
  | [], st, w => (.ok (none, st), w)
  | adjacency :: rest, st, w =>
    match w.isCancelled signal with
    | (true, w) => (.ok (some .cancelled, st), w)
    | (false, w) =>
      if !budget.permits st.examinedEdges then (.ok (some .budgetExhausted, st), w)
      else match checkedAdd64 st.examinedEdges 1 with
        | none => (.error (.internalInvariant "examined-edge counter overflow"), w)
        | some examinedEdges =>
          let st := { st with examinedEdges := examinedEdges }
          match T.edgeAt signal adjacency w with
          | (.error e, w) => (.error e, w)
          | (.ok none, w) => (.ok (some .cancelled, st), w)
          | (.ok (some edge), w) =>
            match relaxEdge profile current adjacency edge st with
            | .error e => (.error e, w)
            | .ok st => relaxRange T signal profile budget current rest st w

/-- Marks the popped node final and settles its pending destination. -/
def finalizeNode (returnPaths : Bool) (node : DenseNodeId) (finalizedNodes : ℕ)
    (st : SearchState F) : SearchState F :=
  let st := { st with
    finalized := Function.update st.finalized node true
    finalizedNodes := finalizedNodes }
  if st.pending node then
    { st with
      pending := Function.update st.pending node false
      pendingCount := st.pendingCount - 1
      firstDestination := st.firstDestination || !returnPaths }
  else st

/-- One turn of the `'search` loop. -/
def searchIteration (T : RoutingTopology κ) (signal : CancellationSignal)
    (profile : PackedRelationProfile) (request : RoutingRequest) (st : SearchState F)
    (w : World κ) : Except RoutingError (Option CompletionReason × SearchState F) × World κ :=
  match popFrontier st.frontier with
  | none => (.ok (some .frontierExhausted, st), w)
  | some (current, frontier) =>
    let st := { st with frontier := frontier }
    if st.finalized current.node || decide (st.distances current.node ≠ some current.distance) then
      (.ok (none, st), w)
    else match w.isCancelled signal with
      | (true, w) => (.ok (some .cancelled, st), w)
      | (false, w) =>
        match checkedAdd64 st.finalizedNodes 1 with
        | none => (.error (.internalInvariant "finalized-node counter overflow"), w)
        | some finalizedNodes =>
          let st := finalizeNode request.returnPaths current.node finalizedNodes st
          if st.pendingCount = 0 then (.ok (some .allDestinationsFinalized, st), w)
          else match T.outgoingRange current.node with
            | .error e => (.error e, w)
            | .ok (start, stop) =>
              relaxRange T signal profile request.budget current
                (List.range' start (stop - start)) st w

/-- The `'search` loop. -/
def searchLoop (T : RoutingTopology κ) (signal : CancellationSignal)
    (profile : PackedRelationProfile) (request : RoutingRequest) :
    ℕ → SearchState F → World κ → Except RoutingError (CompletionReason × SearchState F) × World κ
  | 0, _, w => (.error .noReturn, w)
  | fuel + 1, st, w =>
    match searchIteration T signal profile request st w with
    | (.error e, w) => (.error e, w)
    | (.ok (some reason, st), w) => (.ok (reason, st), w)
    | (.ok (none, st), w) => searchLoop T signal profile request fuel st w

/-! ## Path reconstruction -/

/-- Checks the edge a predecessor names and turns it into path evidence. -/
def pathStep (T : RoutingTopology κ) (profile : PackedRelationProfile) (current : DenseNodeId)
    (predecessor : Predecessor) (edge : OutgoingEdge) : Except RoutingError (PathStep F) :=
  if edge.edgeId ≠ predecessor.edge ∨ edge.destination ≠ current then
    .error (.internalInvariant "predecessor edge endpoints or identity disagree")
  else match profile.relationUseIndex edge.relationIndex with
    | none => .error (.internalInvariant "path edge relation is absent from packed profile")
    | some .disabled => .error (.internalInvariant "path uses a disabled relation")
    | some (.enabled multiplier) => do
      let effective : F ← effectiveWeight edge.baseWeight multiplier
      let source ← okOr (.internalInvariant "path source dense ID is out of bounds")
        (T.externalNodeId predecessor.source)
      let destination ← okOr (.internalInvariant "path destination dense ID is out of bounds")
        (T.externalNodeId current)
      return ⟨edge.edgeId, source, destination, edge.relationId, edge.baseWeight, multiplier,
        effective⟩

/-- The `while` loop of `reconstruct_path`, walking from `current` back to the origin.  `steps`
collects the path in forward order; the counter is the caller's `reconstruction_steps`. -/
def reconstructSteps (T : RoutingTopology κ) (signal : CancellationSignal)
    (profile : PackedRelationProfile) (origin : DenseNodeId)
    (predecessors : DenseNodeId → Option Predecessor) :
    ℕ → DenseNodeId → (DenseNodeId → Bool) → List (PathStep F) → ℕ → World κ →
      Except RoutingError (Option (List (PathStep F))) × ℕ × World κ
  | 0, _, _, _, count, w => (.error .noReturn, count, w)
  | fuel + 1, current, visited, steps, count, w =>
    if current = origin then (.ok (some steps), count, w)
    else match w.isCancelled signal with
      | (true, w) => (.ok none, count, w)
      | (false, w) =>
        if visited current || decide (T.nodeCount ≤ steps.length) then
          (.error (.internalInvariant "path predecessor cycle"), count, w)
        else match predecessors current with
          | none =>
            (.error (.internalInvariant "exact destination has a missing predecessor"), count, w)
          | some predecessor =>
            match T.outgoingRange predecessor.source with
            | .error e => (.error e, count, w)
            | .ok (start, stop) =>
              if ¬ (start ≤ predecessor.adjacency ∧ predecessor.adjacency < stop) then
                (.error (.internalInvariant "predecessor edge is outside its source range"),
                  count, w)
              else match T.edgeAt signal predecessor.adjacency w with
                | (.error e, w) => (.error e, count, w)
                | (.ok none, w) => (.ok none, count, w)
                | (.ok (some edge), w) =>
                  match pathStep T profile current predecessor edge with
                  | .error e => (.error e, count, w)
                  | .ok step =>
                    reconstructSteps T signal profile origin predecessors fuel predecessor.source
                      (Function.update visited current true) (step :: steps)
                      (min (count + 1) u64Max) w

/-- The left fold of the effective weights of a path. -/
def sumSteps (steps : List (PathStep F)) : Except RoutingError F :=
  steps.foldlM (fun sum step => accumulateDistance sum step.effectiveWeight) 0

/-- `reconstruct_path`. -/
def reconstructPath (T : RoutingTopology κ) (signal : CancellationSignal)
    (profile : PackedRelationProfile) (externalOrigin : NodeId) (origin : DenseNodeId)
    (externalDestination : NodeId) (destination : DenseNodeId) (distance : F)
    (predecessors : DenseNodeId → Option Predecessor) (count : ℕ) (w : World κ) :
    Except RoutingError (Option (RoutePath F)) × ℕ × World κ :=
  if origin = destination then
    (.ok (some ⟨externalOrigin, externalDestination, distance, []⟩), count, w)
  else match reconstructSteps T signal profile origin predecessors (T.nodeCount + 1) destination
      (fun _ => false) [] count w with
    | (.error e, count, w) => (.error e, count, w)
    | (.ok none, count, w) => (.ok none, count, w)
    | (.ok (some steps), count, w) =>
      match sumSteps steps with
      | .error e => (.error e, count, w)
      | .ok summed =>
        if summed ≠ distance then
          (.error (.internalInvariant "path steps do not exactly reproduce distance"), count, w)
        else (.ok (some ⟨externalOrigin, externalDestination, distance, steps⟩), count, w)

/-! ## Result assembly -/

/-- The variables of the loop that assembles the results. -/
structure Assembly (F : Type*) where
  results : List (DestinationResult F)
  pathCache : Option (DenseNodeId → Option (RoutePath F))
  reconstructionSteps : ℕ
  completionReason : CompletionReason
  firstDestination : Bool

/-- The path of one final destination: none when paths were not requested, else from the cache,
else reconstructed and cached.  An interrupted reconstruction makes the answer a cancelled one. -/
def assemblePath (T : RoutingTopology κ) (signal : CancellationSignal)
    (profile : PackedRelationProfile) (request : RoutingRequest) (origin : DenseNodeId)
    (st : SearchState F) (destination : NodeId) (dense : DenseNodeId) (distance : F)
    (a : Assembly F) (w : World κ) :
    Except RoutingError (Option (RoutePath F) × Assembly F) × World κ :=
  match st.predecessors, a.pathCache with
  | some predecessors, some pathCache =>
    match pathCache dense with
    | some path => (.ok (some path, a), w)
    | none =>
      match reconstructPath T signal profile request.origin origin destination dense distance
          predecessors a.reconstructionSteps w with
      | (.error e, _, w) => (.error e, w)
      | (.ok (some path), count, w) =>
        (.ok (some path, { a with
          pathCache := some (Function.update pathCache dense (some path))
          reconstructionSteps := count }), w)
      | (.ok none, count, w) =>
        (.ok (none, { a with
          reconstructionSteps := count
          completionReason := .cancelled }), w)
  | _, _ => (.ok (none, a), w)

/-- The state reported for one destination. -/
def assembleState (T : RoutingTopology κ) (signal : CancellationSignal)
    (profile : PackedRelationProfile) (request : RoutingRequest) (origin : DenseNodeId)
    (st : SearchState F) (destination : NodeId) (dense : Option DenseNodeId)
    (a : Assembly F) (w : World κ) :
    Except RoutingError (DestinationState F × Assembly F) × World κ :=
  match dense with
  | none => (.ok (.missingNode, a), w)
  | some dense =>
    if st.finalized dense || decide (dense = origin) then
      match st.distances dense with
      | none => (.error (.internalInvariant "finalized destination has no distance"), w)
      | some distance =>
        match assemblePath T signal profile request origin st destination dense distance a w with
        | (.error e, w) => (.error e, w)
        | (.ok (path, a), w) =>
          let a := { a with
            firstDestination := a.firstDestination || (request.returnPaths && path.isSome) }
          (.ok (.exact ⟨distance, path⟩, a), w)
    else if a.completionReason = .budgetExhausted ∨ a.completionReason = .cancelled then
      (.ok (.incomplete, a), w)
    else (.ok (.unreachable, a), w)

/-- The loop over the requested destinations. -/
def assembleResults (T : RoutingTopology κ) (signal : CancellationSignal)
    (profile : PackedRelationProfile) (request : RoutingRequest) (origin : DenseNodeId)
    (st : SearchState F) :
    List (NodeId × Option DenseNodeId) → Assembly F → World κ →
      Except RoutingError (Assembly F) × World κ
  | [], a, w => (.ok a, w)
  | (destination, dense) :: rest, a, w =>
    match assembleState T signal profile request origin st destination dense a w with
    | (.error e, w) => (.error e, w)
    | (.ok (state, a), w) =>
      assembleResults T signal profile request origin st rest
        { a with results := a.results ++ [⟨destination, state⟩] } w

/-! ## The whole route -/

/-- `CpuSearchDiagnostics`; of `first_destination_duration` only the presence is kept. -/
structure CpuSearchDiagnostics where
  examinedEdges : ℕ
  relaxationUpdates : ℕ
  finalizedNodes : ℕ
  frontierHighWaterMark : ℕ
  uniquePresentDestinations : ℕ
  exactDestinations : ℕ
  unreachableDestinations : ℕ
  missingDestinations : ℕ
  incompleteDestinations : ℕ
  pathReconstructionSteps : ℕ
  firstDestination : Bool
  deriving DecidableEq

/-- The loop that collects the distinct present destinations. -/
def collectPending : List (Option DenseNodeId) → (DenseNodeId → Bool) × ℕ →
    (DenseNodeId → Bool) × ℕ
  | [], p => p
  | none :: rest, p => collectPending rest p
  | some dense :: rest, (pending, count) =>
    if pending dense then collectPending rest (pending, count)
    else collectPending rest (Function.update pending dense true, count + 1)

/-- The search state before the first pop. -/
def initialSearchState (request : RoutingRequest) (origin : DenseNodeId)
    (pending : DenseNodeId → Bool) (pendingCount : ℕ) : SearchState F where
  pending := pending
  pendingCount := pendingCount
  distances := Function.update (fun _ => none) origin (some 0)
  finalized := fun _ => false
  predecessors := if request.returnPaths then some (fun _ => none) else none
  frontier := [⟨0, origin⟩]
  examinedEdges := 0
  finalizedNodes := 0
  relaxationUpdates := 0
  frontierHighWaterMark := 1
  firstDestination := false

/-- The search proper: a first poll, then the loop. -/
def runSearch (T : RoutingTopology κ) (signal : CancellationSignal)
    (profile : PackedRelationProfile) (request : RoutingRequest) (st : SearchState F)
    (w : World κ) : Except RoutingError (CompletionReason × SearchState F) × World κ :=
  match w.isCancelled signal with
  | (true, w) => (.ok (.cancelled, st), w)
  | (false, w) => searchLoop T signal profile request (T.adjacencyCount + 2) st w

/-- The response and the diagnostics of a finished search. -/
def finishRoute (request : RoutingRequest) (profile : PackedRelationProfile)
    (uniquePresent : ℕ) (st : SearchState F) (a : Assembly F) :
    RoutingResponse F × CpuSearchDiagnostics :=
  let countStates (p : DestinationState F → Bool) : ℕ := a.results.countP fun r => p r.state
  ({ origin := request.origin
     results := a.results
     profile := profile.canonical
     numericPolicy := .binary32OperandsSeparateBinary64
     tiePolicy := request.tiePolicy
     pathsRequested := request.returnPaths
     examinedEdges := st.examinedEdges
     finalizedNodes := st.finalizedNodes
     completionReason := a.completionReason },
   { examinedEdges := st.examinedEdges
     relaxationUpdates := st.relaxationUpdates
     finalizedNodes := st.finalizedNodes
     frontierHighWaterMark := st.frontierHighWaterMark
     uniquePresentDestinations := uniquePresent
     exactDestinations := countStates fun s => match s with | .exact _ => true | _ => false
     unreachableDestinations := countStates fun s => decide (s = .unreachable)
     missingDestinations := countStates fun s => decide (s = .missingNode)
     incompleteDestinations := countStates fun s => decide (s = .incomplete)
     pathReconstructionSteps := a.reconstructionSteps
     firstDestination := a.firstDestination })

/-- The answer when no requested destination is in the image. -/
def missingOnlyRoute (request : RoutingRequest) (profile : PackedRelationProfile) :
    RoutingResponse F × CpuSearchDiagnostics :=
  ({ origin := request.origin
     results := request.destinations.map fun destination => ⟨destination, .missingNode⟩
     profile := profile.canonical
     numericPolicy := .binary32OperandsSeparateBinary64
     tiePolicy := request.tiePolicy
     pathsRequested := request.returnPaths
     examinedEdges := 0
     finalizedNodes := 0
     completionReason := .allDestinationsFinalized },
   { examinedEdges := 0
     relaxationUpdates := 0
     finalizedNodes := 0
     frontierHighWaterMark := 0
     uniquePresentDestinations := 0
     exactDestinations := 0
     unreachableDestinations := 0
     missingDestinations := request.destinations.length
     incompleteDestinations := 0
     pathReconstructionSteps := 0
     firstDestination := false })

/-- The assembly loop's variables when the search has stopped. -/
def initialAssembly (request : RoutingRequest) (reason : CompletionReason) (st : SearchState F) :
    Assembly F where
  results := []
  pathCache := if request.returnPaths then some (fun _ => none) else none
  reconstructionSteps := 0
  completionReason := reason
  -- exhaustion proves a pending destination unreachable, which completes it
  firstDestination := st.firstDestination ||
    (decide (reason = .frontierExhausted) && decide (st.pendingCount ≠ 0))

/-- The part of `route_topology_controlled` after the request has been mapped. -/
def routeMapped (T : RoutingTopology κ) (signal : CancellationSignal)
    (profile : PackedRelationProfile) (request : RoutingRequest) (origin : DenseNodeId)
    (w : World κ) : Except RoutingError (RoutingResponse F × CpuSearchDiagnostics) × World κ :=
  let denseDestinations := request.destinations.map T.denseNodeId
  let (pending, pendingCount) := collectPending denseDestinations (fun _ => false, 0)
  if pendingCount = 0 then (.ok (missingOnlyRoute request profile), w)
  else match checkedAdd64 T.adjacencyCount 1 with
    | none => (.error .resourceEstimateOverflow, w)
    | some _ =>
      match runSearch T signal profile request
          (initialSearchState request origin pending pendingCount) w with
      | (.error e, w) => (.error e, w)
      | (.ok (reason, st), w) =>
        match assembleResults T signal profile request origin st
            (request.destinations.zip denseDestinations) (initialAssembly request reason st) w with
        | (.error e, w) => (.error e, w)
        | (.ok a, w) => (.ok (finishRoute request profile pendingCount st a), w)

/-- `route_topology_controlled`. -/
def routeTopologyControlled (T : RoutingTopology κ) (request : RoutingRequest)
    (signal : CancellationSignal) (w : World κ) :
    Except RoutingError (RoutingResponse F × CpuSearchDiagnostics) × World κ :=
  match T.denseNodeId request.origin with
  | none => (.error (.missingOrigin request.origin), w)
  | some origin =>
    match request.profile.packRelationIds T.relationIds with
    | .error e => (.error (.invalidProfile e), w)
    | .ok profile => routeMapped T signal profile request origin w

/-- `route_controlled`: the search over a resident image. -/
def routeControlled (image : RoutingImage) (request : RoutingRequest)
    (signal : CancellationSignal) :
    Except RoutingError (RoutingResponse F × CpuSearchDiagnostics) :=
  (routeTopologyControlled image.topology request signal ⟨0, ()⟩).1

end PathHydra
