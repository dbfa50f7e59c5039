import PathHydra.Construction.Routing.Image

/-!
# Relation profiles, routing requests and responses

A request names an origin, an ordered list of destinations, how each relation kind is to be used,
and a budget of examined edges.  `RelationProfile.packRelationIds` turns the profile into an array
in the image's own relation order; a profile packs when it names every relation kind of the image
exactly once and nothing else.

Distances are values of an arbitrary distance type `F`.
-/

namespace PathHydra

/-! ## Profiles -/

/-- Whether a search may follow edges of a relation kind, and how it scales their weights. -/
inductive RelationUse
  | disabled
  | enabled (multiplier : RelationMultiplier)
  deriving DecidableEq

/-- The caller's choice for each relation kind, in any order. -/
structure RelationProfile where
  entries : List (RelationId × RelationUse)
  deriving DecidableEq

/-- `ProfileError`. -/
inductive ProfileError
  | duplicateRelation (id : RelationId)
  | missingRelation (id : RelationId)
  | unknownRelation (id : RelationId)
  deriving DecidableEq

/-- A profile in the image's relation order. -/
structure PackedRelationProfile where
  uses : List RelationUse
  canonical : RelationProfile
  deriving DecidableEq

def PackedRelationProfile.relationUseIndex (p : PackedRelationProfile) (index : U32) :
    Option RelationUse :=
  p.uses[index.val]?

namespace RelationProfile

/-- The first loop of `pack_relation_ids`: files each entry under its relation's position. -/
def packEntries (relationIds : List RelationId) :
    List (RelationId × RelationUse) → List (Option RelationUse) →
      Except ProfileError (List (Option RelationUse))
  | [], byIndex => .ok byIndex
  | (id, relationUse) :: rest, byIndex =>
    match binarySearch relationIds id with
    | none => .error (.unknownRelation id)
    | some index =>
      if (byIndex[index]?.join).isSome then .error (.duplicateRelation id)
      else packEntries relationIds rest (byIndex.set index (some relationUse))

/-- The second loop: reads the filed uses back in relation order. -/
def packUses : List (RelationId × Option RelationUse) →
    Except ProfileError (List (RelationId × RelationUse))
  | [] => .ok []
  | (id, relationUse) :: rest =>
    match relationUse with
    | none => .error (.missingRelation id)
    | some relationUse => (packUses rest).map ((id, relationUse) :: ·)

/-- `pack_relation_ids`. -/
def packRelationIds (profile : RelationProfile) (relationIds : List RelationId) :
    Except ProfileError PackedRelationProfile := do
  let byIndex ← packEntries relationIds profile.entries (relationIds.map fun _ => none)
  let canonical ← packUses (relationIds.zip byIndex)
  return ⟨canonical.map (·.2), ⟨canonical⟩⟩

end RelationProfile

/-! ## Requests -/

/-- How many edges a search may examine. -/
inductive SearchBudget
  | unlimited
  | examinedEdges (maximum : U64)
  deriving DecidableEq

/-- `SearchBudget::permits`. -/
def SearchBudget.permits : SearchBudget → ℕ → Bool
  | .unlimited, _ => true
  | .examinedEdges maximum, examined => decide (examined < maximum.val)

inductive TiePolicy
  | stablePredecessor
  deriving DecidableEq

inductive NumericPolicy
  | binary32OperandsSeparateBinary64
  deriving DecidableEq

/-- One routing request. -/
structure RoutingRequest where
  origin : NodeId
  destinations : List NodeId
  profile : RelationProfile
  returnPaths : Bool
  budget : SearchBudget
  tiePolicy : TiePolicy
  deriving DecidableEq

/-! ## Responses -/

/-- Why a search stopped. -/
inductive CompletionReason
  | allDestinationsFinalized
  | frontierExhausted
  | budgetExhausted
  | cancelled
  deriving DecidableEq

/-- One edge of a returned path with the evidence for its contribution. -/
structure PathStep (F : Type*) where
  edgeId : EdgeId
  source : NodeId
  destination : NodeId
  relationId : RelationId
  baseWeight : BaseWeight
  multiplier : RelationMultiplier
  effectiveWeight : F
  deriving DecidableEq

structure RoutePath (F : Type*) where
  origin : NodeId
  destination : NodeId
  logicalDistance : F
  steps : List (PathStep F)
  deriving DecidableEq

structure ExactRoute (F : Type*) where
  logicalDistance : F
  path : Option (RoutePath F)
  deriving DecidableEq

inductive DestinationState (F : Type*)
  | exact (route : ExactRoute F)
  | unreachable
  | missingNode
  | incomplete
  deriving DecidableEq

structure DestinationResult (F : Type*) where
  destination : NodeId
  state : DestinationState F
  deriving DecidableEq

structure RoutingResponse (F : Type*) where
  origin : NodeId
  results : List (DestinationResult F)
  profile : RelationProfile
  numericPolicy : NumericPolicy
  tiePolicy : TiePolicy
  pathsRequested : Bool
  examinedEdges : ℕ
  finalizedNodes : ℕ
  completionReason : CompletionReason
  deriving DecidableEq

/-! ## Errors -/

inductive ArithmeticOperation
  | effectiveWeight
  | pathAddition
  deriving DecidableEq

/-- `RoutingError`.  `noReturn` is the model's own: the outcome where the program would not
return at all, because an index panics or a loop has not finished within its fuel. -/
inductive RoutingError
  | missingOrigin (id : NodeId)
  | invalidProfile (error : ProfileError)
  | arithmetic (operation : ArithmeticOperation)
  | resourceEstimateOverflow
  | internalInvariant (reason : String)
  | imageAccess (reason : String)
  | noReturn
  deriving DecidableEq

end PathHydra
