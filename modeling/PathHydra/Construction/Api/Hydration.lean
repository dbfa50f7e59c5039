import PathHydra.Construction.Api.Dto
import PathHydra.Construction.Engine.Hydration

/-!
# Hydrated subgraphs at the API boundary

`HydratedSubgraph.toDto` converts a hydrated collection and `HydratedSubgraphDto.validateBoundary`
checks it before it is encoded.  The four lists of identifiers have to ascend, and the check
compares the wrappers, that is, their texts.

Payloads cross the boundary as padded base64.  Effective weights are held as their values, as in
`PathHydra.Construction.Api.Evidence`.
-/

namespace PathHydra

/-! ## Limits -/

/-- `CodecLimit`, as far as a hydrated subgraph meets one. -/
inductive CodecLimit
  | subgraphNodes | subgraphEdges | nameBytes | payloadBytes | profileEntries
  deriving DecidableEq

/-- `ApiCodecError`: a limit, or a contextual validation. -/
inductive ApiCodecError
  | limit (limit : CodecLimit) (maximum observed : ℕ)
  | contextualValidation
  deriving DecidableEq

/-- The limits of `ApiLimits` that a hydrated subgraph meets. -/
structure ApiLimits where
  maximumSubgraphNodes : ℕ
  maximumSubgraphEdges : ℕ
  maximumNameBytes : ℕ
  maximumPayloadBytes : ℕ
  maximumProfileEntries : ℕ

/-- `bounded_len`. -/
def boundedLen (limit : CodecLimit) (maximum observed : ℕ) : Except ApiCodecError Unit :=
  if maximum < observed then .error (.limit limit maximum observed) else .ok ()

/-- `dto_validation`. -/
def dtoValidation {α : Type} (result : Except DtoValidationError α) : Except ApiCodecError α :=
  mapErr (fun _ => .contextualValidation) result

/-! ## Payloads -/

/-- The base64 alphabet. -/
def base64Char (v : ℕ) : Char :=
  "ABCDEFGHIJKLMNOPQRSTUVWXYZabcdefghijklmnopqrstuvwxyz0123456789+/".toList.getD v 'A'

/-- The padded base64 text of some bytes. -/
def base64Encode : Bytes → List Char
  | a :: b :: c :: rest =>
    base64Char (a.toNat / 4) :: base64Char (a.toNat % 4 * 16 + b.toNat / 16) ::
      base64Char (b.toNat % 16 * 4 + c.toNat / 64) :: base64Char (c.toNat % 64) :: base64Encode rest
  | [a, b] =>
    [base64Char (a.toNat / 4), base64Char (a.toNat % 4 * 16 + b.toNat / 16),
      base64Char (b.toNat % 16 * 4), '=']
  | [a] => [base64Char (a.toNat / 4), base64Char (a.toNat % 4 * 16), '=', '=']
  | [] => []

/-- `PayloadDto`: a canonical base64 text. -/
structure PayloadDto where
  asStr : String
  canonical : ∃ bytes, asStr = String.ofList (base64Encode bytes)

/-- `PayloadDto::from_bytes`. -/
def PayloadDto.fromBytes (bytes : Bytes) : PayloadDto :=
  ⟨String.ofList (base64Encode bytes), bytes, rfl⟩

/-- `validate_name`. -/
def validateName (name : String) (limits : ApiLimits) : Except ApiCodecError Unit :=
  boundedLen .nameBytes limits.maximumNameBytes (strBytes name).length

/-- `validate_payload`: the size is computed from the text, whose characters are one byte each. -/
def validatePayload (payload : PayloadDto) (limits : ApiLimits) : Except ApiCodecError Unit :=
  let encoded := payload.asStr.toList
  let padding := (encoded.reverse.takeWhile fun c => decide (c = '=')).length
  boundedLen .payloadBytes limits.maximumPayloadBytes (encoded.length / 4 * 3 - padding)

/-! ## Records -/

/-- `NodeRecordDto`. -/
structure NodeRecordDto where
  id : NodeIdDto
  name : String
  payload : PayloadDto

/-- `RelationKindRecordDto`. -/
structure RelationKindRecordDto where
  id : RelationIdDto
  name : String

/-- `EdgeRecordDto`. -/
structure EdgeRecordDto where
  id : EdgeIdDto
  source : NodeIdDto
  destination : NodeIdDto
  relationKind : RelationIdDto
  baseWeight : Binary32Dto

/-- `EdgeEvaluationDto`. -/
inductive EdgeEvaluationDto (F : Type*)
  | unprofiled
  | disabled
  | enabled (multiplier : Binary32Dto) (effectiveWeight : F)

/-- `HydratedEdgeDto`. -/
structure HydratedEdgeDto (F : Type*) where
  edge : EdgeRecordDto
  relationKind : RelationKindRecordDto
  evaluation : EdgeEvaluationDto F

/-- `NodeRecordDto::from`. -/
def NodeRecord.toDto (r : NodeRecord) : NodeRecordDto :=
  ⟨r.id.toDto, r.name.asStr, .fromBytes r.payload.asBytes⟩

/-- `RelationKindRecordDto::from`. -/
def RelationRecord.toDto (r : RelationRecord) : RelationKindRecordDto := ⟨r.id.toDto, r.name.asStr⟩

/-- `EdgeRecordDto::from`. -/
def EdgeRecord.toDto (r : EdgeRecord) : EdgeRecordDto :=
  ⟨r.id.toDto, r.source.toDto, r.destination.toDto, r.relationKind.toDto,
    .fromBits r.baseWeight.toBits⟩

/-- The conversion of an evaluation. -/
def EdgeEvaluation.toDto {F : Type} : EdgeEvaluation F → EdgeEvaluationDto F
  | .unprofiled => .unprofiled
  | .disabled => .disabled
  | .enabled multiplier effectiveWeight => .enabled (.fromBits multiplier.toBits) effectiveWeight

/-- `hydrated_edge`. -/
def HydratedEdge.toDto {F : Type} (e : HydratedEdge F) : HydratedEdgeDto F :=
  ⟨e.edge.toDto, e.relationKind.toDto, e.evaluation.toDto⟩

variable {F : Type} [Binary64 F]

def NodeRecordDto.validateBoundary (d : NodeRecordDto) (limits : ApiLimits) :
    Except ApiCodecError Unit := do
  validateName d.name limits
  validatePayload d.payload limits

def EdgeRecordDto.validateBoundary (d : EdgeRecordDto) : Except ApiCodecError Unit := do
  let bits ← dtoValidation d.baseWeight.bits
  dtoValidation (validateBaseWeight bits)

/-- `validate_multiplier` of the boundary. -/
def validateMultiplierDto (d : Binary32Dto) : Except ApiCodecError Unit := do
  let bits ← dtoValidation d.bits
  dtoValidation (validateMultiplier bits)

def EdgeEvaluationDto.validateBoundary : EdgeEvaluationDto F → Except ApiCodecError Unit
  | .unprofiled | .disabled => .ok ()
  | .enabled multiplier effectiveWeight => do
    validateMultiplierDto multiplier
    dtoValidation (validateNonnegative effectiveWeight "effective weight")

def HydratedEdgeDto.validateBoundary (d : HydratedEdgeDto F) (limits : ApiLimits) :
    Except ApiCodecError Unit := do
  d.edge.validateBoundary
  validateName d.relationKind.name limits
  d.evaluation.validateBoundary

def RelationUseDto.validateBoundary : RelationUseDto → Except ApiCodecError Unit
  | .disabled => .ok ()
  | .enabled multiplier => validateMultiplierDto multiplier

def RelationProfileDto.validateBoundary (d : RelationProfileDto) (limits : ApiLimits) :
    Except ApiCodecError Unit := do
  boundedLen .profileEntries limits.maximumProfileEntries d.entries.length
  d.entries.forM fun entry => entry.relationUse.validateBoundary
  dtoValidation d.validate

/-! ## Diagnostics -/

/-- `DurationDto`. -/
structure DurationDto where
  seconds : DecimalU64Dto
  nanoseconds : U32

def DurationDto.validateBoundary (d : DurationDto) : Except ApiCodecError Unit :=
  if 1000000000 ≤ d.nanoseconds.val then .error .contextualValidation
  else do
    let _ ← dtoValidation d.seconds.asU64
    return ()

/-- `HydrationDiagnosticsDto`. -/
structure HydrationDiagnosticsDto where
  executionDuration : DurationDto
  requestedNodes : DecimalU64Dto
  requestedEdges : DecimalU64Dto
  foundNodes : DecimalU64Dto
  missingNodes : DecimalU64Dto
  foundEdges : DecimalU64Dto
  missingEdges : DecimalU64Dto

/-- `count`. -/
def countDto (value : ℕ) : DecimalU64Dto :=
  .fromU64 (if h : value < 2 ^ 64 then ⟨value, h⟩ else ⟨u64Max, by decide⟩)

/-- `hydration_diagnostics`. -/
def hydrationDiagnostics (requestedNodes requestedEdges foundNodes foundEdges : ℕ) :
    HydrationDiagnosticsDto where
  executionDuration := ⟨.fromU64 0, 0⟩
  requestedNodes := countDto requestedNodes
  requestedEdges := countDto requestedEdges
  foundNodes := countDto foundNodes
  missingNodes := countDto (requestedNodes - foundNodes)
  foundEdges := countDto foundEdges
  missingEdges := countDto (requestedEdges - foundEdges)

/-- One sum of `HydrationDiagnosticsDto::validate_boundary`: requested is found plus missing. -/
def validateSum (requested found missing : DecimalU64Dto) : Except ApiCodecError Unit := do
  let requested ← dtoValidation requested.asU64
  let found ← dtoValidation found.asU64
  let missing ← dtoValidation missing.asU64
  let sum ← okOr .contextualValidation (checkedAdd64 found.val missing.val)
  if requested.val ≠ sum then .error .contextualValidation else .ok ()

def HydrationDiagnosticsDto.validateBoundary (d : HydrationDiagnosticsDto) :
    Except ApiCodecError Unit := do
  d.executionDuration.validateBoundary
  validateSum d.requestedNodes d.foundNodes d.missingNodes
  validateSum d.requestedEdges d.foundEdges d.missingEdges

/-- One comparison of `validate_hydration_counts`. -/
def validateCount (field : DecimalU64Dto) (expected : ℕ) : Except ApiCodecError Unit := do
  let value ← dtoValidation field.asU64
  if value.val ≠ expected then .error .contextualValidation else .ok ()

/-- `validate_hydration_counts`. -/
def validateHydrationCounts (d : HydrationDiagnosticsDto)
    (requestedNodes requestedEdges foundNodes foundEdges : ℕ) : Except ApiCodecError Unit := do
  validateCount d.requestedNodes requestedNodes
  validateCount d.requestedEdges requestedEdges
  validateCount d.foundNodes foundNodes
  validateCount d.foundEdges foundEdges
  validateCount d.missingNodes (requestedNodes - foundNodes)
  validateCount d.missingEdges (requestedEdges - foundEdges)

/-! ## The subgraph -/

/-- `HydratedSubgraphDto`. -/
structure HydratedSubgraphDto (F : Type*) where
  nodes : List NodeRecordDto
  edges : List (HydratedEdgeDto F)
  missingNodeIds : List NodeIdDto
  missingEdgeIds : List EdgeIdDto
  profile : Option RelationProfileDto
  complete : Bool
  diagnostics : HydrationDiagnosticsDto

/-- `HydratedSubgraphDto::from`; the sums of lengths are those of collections in memory. -/
def HydratedSubgraph.toDto (h : HydratedSubgraph F) : HydratedSubgraphDto F where
  nodes := h.nodes.map (·.toDto)
  edges := h.edges.map (·.toDto)
  missingNodeIds := h.missingNodeIds.map (·.toDto)
  missingEdgeIds := h.missingEdgeIds.map (·.toDto)
  profile := h.profile.map (·.toDto)
  complete := h.complete
  diagnostics := hydrationDiagnostics (h.nodes.length + h.missingNodeIds.length)
    (h.edges.length + h.missingEdgeIds.length) h.nodes.length h.edges.length

/-- Some wrapper is not below the next one. -/
def unordered {field : String} (ids : List (DecimalDto field)) : Bool :=
  anyNeighbours (fun a b => decide (b ≤ a)) ids

/-- The check of a profile that may be absent. -/
def validateOptionalProfile (profile : Option RelationProfileDto) (limits : ApiLimits) :
    Except ApiCodecError Unit :=
  match profile with
  | some profile => profile.validateBoundary limits
  | none => .ok ()

/-- `HydratedSubgraphDto::validate_boundary`. -/
def HydratedSubgraphDto.validateBoundary (d : HydratedSubgraphDto F) (limits : ApiLimits) :
    Except ApiCodecError Unit := do
  boundedLen .subgraphNodes limits.maximumSubgraphNodes d.nodes.length
  boundedLen .subgraphEdges limits.maximumSubgraphEdges d.edges.length
  d.nodes.forM fun node => node.validateBoundary limits
  d.edges.forM fun edge => edge.validateBoundary limits
  if unordered (d.nodes.map (·.id)) || unordered (d.edges.map (·.edge.id)) ||
      unordered d.missingNodeIds || unordered d.missingEdgeIds then
    .error .contextualValidation
  else do
    validateOptionalProfile d.profile limits
    if d.complete ≠ (d.missingNodeIds.isEmpty && d.missingEdgeIds.isEmpty) then
      .error .contextualValidation
    else do
      d.diagnostics.validateBoundary
      validateHydrationCounts d.diagnostics (d.nodes.length + d.missingNodeIds.length)
        (d.edges.length + d.missingEdgeIds.length) d.nodes.length d.edges.length

end PathHydra
