import Mathlib.Data.Finset.Card
import PathHydra.Construction.Routing.Compile
import PathHydra.Construction.Routing.Cpu

/-!
# The evidence rules of the API

Before a routing answer is encoded, and again after it has been decoded, the API checks that the
answer is consistent evidence.  `RoutingResponse.validate` is `RoutingResponseDto::validate`: every
number is finite, every path connects its endpoints and belongs to its entry, and an exact entry has
a path if and only if paths were requested.  `validateEvidence` is the part of
`EngineRoutingResponseDto::validate_boundary` that compares the entries with the completion reason
and with the counters of the search.

The rules are stated on the values of the routing crate, which the transfer objects hold field by
field; the profile is checked in the order the response has it, while the order of a converted one
is the subject of `PathHydra.Construction.Api.Dto`.  The limits on lengths and the comparisons of
durations are left out; of `first_destination_duration` the presence is kept, as in the search.
-/

namespace PathHydra

variable {F : Type} [Binary64 F]

/-! ## The response alone -/

/-- `DtoValidationError`.  A missing endpoint is named by the texts of its wrappers. -/
inductive DtoValidationError
  | nonCanonicalDecimal (field : String)
  | nonCanonicalHex (field : String)
  | duplicateProfileRelation (relationKind : RelationId)
  | unorderedProfile
  | unorderedSubgraphNodes
  | unorderedSubgraphEdges
  | missingSubgraphEndpoint (edge node : String)
  | invalidPath (reason : String)
  | invalidNumericEvidence (field : String)
  | invalidRoutingResponse (reason : String)
  deriving DecidableEq

/-- The loop of `RelationProfileDto::validate`. -/
def validateProfileEntries : Option RelationId → List (RelationId × RelationUse) →
    Except DtoValidationError Unit
  | _, [] => .ok ()
  | previous, (current, _) :: rest =>
    if previous = some current then .error (.duplicateProfileRelation current)
    else if previous.any fun value => decide (current < value) then .error .unorderedProfile
    else validateProfileEntries (some current) rest

/-- `RelationProfileDto::validate`. -/
def RelationProfile.validate (profile : RelationProfile) : Except DtoValidationError Unit :=
  validateProfileEntries none profile.entries

/-- `validate_nonnegative_f64`; the sign is settled by the type of distances. -/
def validateNonnegative (value : F) (field : String) : Except DtoValidationError Unit :=
  if Binary64.isFinite value then .ok () else .error (.invalidNumericEvidence field)

/-- `validate_base_weight`. -/
def validateBaseWeight (bits : U32) : Except DtoValidationError Unit :=
  if (BaseWeight.fromBits bits).isSome then .ok ()
  else .error (.invalidNumericEvidence "base weight")

/-- `validate_multiplier`. -/
def validateMultiplier (bits : U32) : Except DtoValidationError Unit :=
  if bits.val < 0x7F800000 then .ok () else .error (.invalidNumericEvidence "relation multiplier")

/-- The checks of a step's numbers. -/
def PathStep.validate (step : PathStep F) : Except DtoValidationError Unit := do
  validateBaseWeight step.baseWeight.toBits
  validateMultiplier step.multiplier.toBits
  validateNonnegative step.effectiveWeight "effective weight"

/-- The checks of a path's shape. -/
def RoutePath.validateEndpoints (path : RoutePath F) : Except DtoValidationError Unit :=
  match path.steps with
  | [] =>
    if path.origin ≠ path.destination then .error (.invalidPath "a nontrivial path has no steps")
    else .ok ()
  | first :: rest =>
    if first.source ≠ path.origin then
      .error (.invalidPath "first step does not start at the origin")
    else if (first :: rest).getLast?.any fun step => decide (step.destination ≠ path.destination) then
      .error (.invalidPath "last step does not end at the destination")
    else if anyNeighbours (fun a b => decide (a.destination ≠ b.source)) (first :: rest) then
      .error (.invalidPath "step endpoints are discontinuous")
    else .ok ()

/-- `RoutePathDto::validate`. -/
def RoutePath.validate (path : RoutePath F) : Except DtoValidationError Unit := do
  path.validateEndpoints
  validateNonnegative path.logicalDistance "logical distance"
  path.steps.forM PathStep.validate

/-- The checks of the path of one exact entry. -/
def RoutingResponse.validatePath (response : RoutingResponse F) (destination : NodeId)
    (route : ExactRoute F) : Except DtoValidationError Unit :=
  match route.path with
  | none => .ok ()
  | some path => do
    path.validate
    if path.origin ≠ response.origin ∨ path.destination ≠ destination ∨
        path.logicalDistance ≠ route.logicalDistance then
      .error (.invalidRoutingResponse
        "path identity or distance differs from its destination result")
    else .ok ()

/-- The checks of one entry in `RoutingResponseDto::validate`. -/
def RoutingResponse.validateResult (response : RoutingResponse F) (result : DestinationResult F) :
    Except DtoValidationError Unit :=
  match result.state with
  | .exact route => do
    validateNonnegative route.logicalDistance "logical distance"
    response.validatePath result.destination route
    if response.pathsRequested ≠ route.path.isSome then
      .error (.invalidRoutingResponse "exact path presence differs from paths_requested")
    else .ok ()
  | _ => .ok ()

/-- `RoutingResponseDto::validate`. -/
def RoutingResponse.validate (response : RoutingResponse F) : Except DtoValidationError Unit := do
  response.profile.validate
  response.results.forM response.validateResult

/-! ## The response and its diagnostics -/

/-- The variables of the loop over the entries. -/
structure EvidenceTally where
  exact : ℕ
  unreachable : ℕ
  missing : ℕ
  incomplete : ℕ
  present : Finset NodeId
  reconstructed : Finset NodeId
  reconstructionSteps : ℕ
  deriving DecidableEq

def EvidenceTally.empty : EvidenceTally := ⟨0, 0, 0, 0, ∅, ∅, 0⟩

/-- One turn of the loop; it fails where the checked addition overflows. -/
def EvidenceTally.add (tally : EvidenceTally) (result : DestinationResult F) :
    Option EvidenceTally :=
  let present := insert result.destination tally.present
  match result.state with
  | .exact route =>
    let tally := { tally with exact := tally.exact + 1, present := present }
    match route.path with
    | none => some tally
    | some path =>
      if result.destination ∈ tally.reconstructed then some tally
      else (checkedAdd64 tally.reconstructionSteps path.steps.length).map fun steps =>
        { tally with
          reconstructed := insert result.destination tally.reconstructed
          reconstructionSteps := steps }
  | .unreachable => some { tally with unreachable := tally.unreachable + 1, present := present }
  | .missingNode => some { tally with missing := tally.missing + 1 }
  | .incomplete => some { tally with incomplete := tally.incomplete + 1, present := present }

/-- The loop over the entries. -/
def tallyResults (results : List (DestinationResult F)) : Option EvidenceTally :=
  results.foldlM EvidenceTally.add .empty

/-- The states an answer may report under a completion reason. -/
def EvidenceTally.completionStatesValid (tally : EvidenceTally) : CompletionReason → Bool
  | .allDestinationsFinalized => decide (tally.unreachable = 0) && decide (tally.incomplete = 0)
  | .frontierExhausted => decide (tally.unreachable ≠ 0) && decide (tally.incomplete = 0)
  | .budgetExhausted => decide (tally.unreachable = 0) && decide (tally.incomplete ≠ 0)
  | .cancelled => decide (tally.unreachable = 0)

/-- Whether the time of the first completed destination is present exactly as it must be. -/
def EvidenceTally.firstDestinationValid (tally : EvidenceTally) (reason : CompletionReason)
    (first : Bool) : Bool :=
  if reason ≠ .cancelled then
    decide (first = (decide (tally.exact ≠ 0) || decide (tally.unreachable ≠ 0)))
  else !(first && decide (tally.exact = 0))

/-- Whether the counters of the search say the same as the entries. -/
def EvidenceTally.countersAgree (tally : EvidenceTally) (response : RoutingResponse F)
    (search : CpuSearchDiagnostics) : Bool :=
  decide (search.exactDestinations = tally.exact) &&
    decide (search.unreachableDestinations = tally.unreachable) &&
    decide (search.missingDestinations = tally.missing) &&
    decide (search.incompleteDestinations = tally.incomplete) &&
    decide (search.uniquePresentDestinations = tally.present.card) &&
    decide (search.pathReconstructionSteps = tally.reconstructionSteps) &&
    decide (response.examinedEdges = search.examinedEdges) &&
    decide (response.finalizedNodes = search.finalizedNodes)

/-- The evidence rules of `EngineRoutingResponseDto::validate_boundary`.  Every violation is the
same error to the caller, so only acceptance is kept. -/
def validateEvidence (response : RoutingResponse F) (search : CpuSearchDiagnostics) : Bool :=
  match response.validate with
  | .error _ => false
  | .ok _ =>
    match tallyResults response.results with
    | none => false
    | some tally =>
      tally.completionStatesValid response.completionReason &&
        tally.firstDestinationValid response.completionReason search.firstDestination &&
        tally.countersAgree response search

end PathHydra
