import PathHydra.Construction.Api.Hydration
import PathHydra.Construction.Store.Confirm
import PathHydra.Framework.Json

/-!
# Confirming a batch through the facade

`confirmCandidateBatchDto` is the facade's `confirm_candidate_batch`: it converts the identifiers,
has the engine confirm them with the limit on encoded bytes as the limit on the response, and builds
the DTO of the result.  The printed document of that DTO is given by its tree.

What the engine's image build answers after the commit is a parameter: `compileCurrentImage` gives
the answer from what the steps of the build come to.  The checks of the lifecycle and the refused
allocation of the identifiers are left out.
-/

namespace PathHydra

/-! ## The outcome of a publication -/

/-- `Duration`. -/
structure Duration where
  seconds : U64
  nanoseconds : Fin 1000000000

instance neZeroNanoseconds : NeZero 1000000000 := ⟨by decide⟩

/-- `ImageBuildOutcome`. -/
inductive ImageBuildOutcome
  | published
  | failed (reason : RoutingUnavailableReason)

/-- `BundleBuildMetrics`, as far as a report shows it. -/
structure BundleBuildMetrics where
  bundleBytes : U64
  partitionCount : U64
  segmentCount : U64

/-- `ImageBuildReport`. -/
structure ImageBuildReport where
  duration : Duration
  outcome : ImageBuildOutcome
  nodeCount : ℕ
  relationKindCount : ℕ
  adjacencyCount : ℕ
  bundleMetrics : Option BundleBuildMetrics

/-- `PublicationOutcome`. -/
inductive PublicationOutcome
  | notRequired
  | published (report : ImageBuildReport)
  | routingUnavailable (reason : RoutingUnavailableReason) (report : ImageBuildReport)

/-- What `compile_current_image` answers: why there is no image, if there is none, and a report. -/
structure ImageBuild where
  failure : Option RoutingUnavailableReason
  report : ImageBuildReport

/-- What the steps of `build_current_bundle` give: the counts of the bundle and its metrics, or why
there is none. -/
abbrev BundleBuild := Except RoutingUnavailableReason ((ℕ × ℕ × ℕ) × BundleBuildMetrics)

/-- How `build_current_bundle` ends: without a bundle it counts nothing. -/
def BundleBuild.answer : BundleBuild →
    Option RoutingUnavailableReason × (ℕ × ℕ × ℕ) × Option BundleBuildMetrics
  | .ok (counts, metrics) => (none, counts, some metrics)
  | .error reason => (some reason, (0, 0, 0), none)

/-- `compile_current_image`, from what `build_current_bundle` gives, the text of a failure injected
before the swap, if there is one, and how long it took. -/
def compileCurrentImage (bundle : BundleBuild) (injected : Option String) (duration : Duration) :
    ImageBuild :=
  let (result, counts, metrics) := bundle.answer
  let failure := result.or (injected.map .bundle)
  { failure
    report := {
      duration
      outcome := (failure.map .failed).getD .published
      nodeCount := counts.1
      relationKindCount := counts.2.1
      adjacencyCount := counts.2.2
      bundleMetrics := metrics } }

/-- What `confirmed_mutation_with_change` publishes. -/
def ImageBuild.publication (build : ImageBuild) (graphChanged : Bool) : PublicationOutcome :=
  if !graphChanged then .notRequired
  else
    match build.failure with
    | none => .published build.report
    | some reason => .routingUnavailable reason build.report

/-! ## The DTOs -/

abbrev CandidateIdDto := DecimalDto "candidate ID"

/-- `CandidateBatchCountsDto`. -/
structure CandidateBatchCountsDto where
  nodes : DecimalU64Dto
  relationKinds : DecimalU64Dto
  edges : DecimalU64Dto

/-- `CandidateBatchCountsDto::from`. -/
def CandidateBatchCounts.toDto (c : CandidateBatchCounts) : CandidateBatchCountsDto :=
  ⟨countDto c.nodes, countDto c.relationKinds, countDto c.edges⟩

/-- `ConfirmedRecordDto`. -/
inductive ConfirmedRecordDto
  | node (record : NodeRecordDto)
  | relationKind (record : RelationKindRecordDto)
  | edge (record : EdgeRecordDto)

/-- `ConfirmedRecordDto::from`. -/
def ConfirmedRecord.toDto : ConfirmedRecord → ConfirmedRecordDto
  | .node record => .node record.toDto
  | .relation record => .relationKind record.toDto
  | .edge record => .edge record.toDto

/-- `ConfirmedBatchEntryDto`. -/
structure ConfirmedBatchEntryDto where
  candidateId : CandidateIdDto
  record : ConfirmedRecordDto

/-- `DurationDto::from_duration`. -/
def Duration.toDto (d : Duration) : DurationDto :=
  ⟨.fromU64 d.seconds, ⟨d.nanoseconds.val, d.nanoseconds.isLt.trans (by decide)⟩⟩

/-- `RoutingUnavailableReasonDto`. -/
inductive RoutingUnavailableReasonDto
  | imageCompilation
  | topologyLimit (required limit : DecimalU64Dto)
  | metadataLimit (required limit : DecimalU64Dto)
  | bundle

/-- `RoutingUnavailableReasonDto::from`: the texts stay inside. -/
def RoutingUnavailableReason.toDto : RoutingUnavailableReason → RoutingUnavailableReasonDto
  | .imageCompilation _ => .imageCompilation
  | .topologyLimit required limit => .topologyLimit (countDto required) (countDto limit)
  | .metadataLimit required limit => .metadataLimit (countDto required) (countDto limit)
  | .bundle _ => .bundle

/-- `ImageBuildOutcomeDto`. -/
inductive ImageBuildOutcomeDto
  | published
  | failed (reason : RoutingUnavailableReasonDto)

/-- `ImageBuildReportDto`. -/
structure ImageBuildReportDto where
  duration : DurationDto
  outcome : ImageBuildOutcomeDto
  nodeCount : DecimalU64Dto
  relationKindCount : DecimalU64Dto
  adjacencyCount : DecimalU64Dto
  bundleBytes : Option DecimalU64Dto
  partitionCount : Option DecimalU64Dto
  segmentCount : Option DecimalU64Dto

/-- The conversion of the outcome of a build. -/
def ImageBuildOutcome.toDto : ImageBuildOutcome → ImageBuildOutcomeDto
  | .published => .published
  | .failed reason => .failed reason.toDto

/-- `ImageBuildReportDto::from`. -/
def ImageBuildReport.toDto (r : ImageBuildReport) : ImageBuildReportDto where
  duration := r.duration.toDto
  outcome := r.outcome.toDto
  nodeCount := countDto r.nodeCount
  relationKindCount := countDto r.relationKindCount
  adjacencyCount := countDto r.adjacencyCount
  bundleBytes := r.bundleMetrics.map fun m => .fromU64 m.bundleBytes
  partitionCount := r.bundleMetrics.map fun m => .fromU64 m.partitionCount
  segmentCount := r.bundleMetrics.map fun m => .fromU64 m.segmentCount

/-- `PublicationOutcomeDto`. -/
inductive PublicationOutcomeDto
  | notRequired
  | published (report : ImageBuildReportDto)
  | routingUnavailable (reason : RoutingUnavailableReasonDto) (report : ImageBuildReportDto)

/-- `PublicationOutcomeDto::from`. -/
def PublicationOutcome.toDto : PublicationOutcome → PublicationOutcomeDto
  | .notRequired => .notRequired
  | .published report => .published report.toDto
  | .routingUnavailable reason report => .routingUnavailable reason.toDto report.toDto

/-- `ConfirmCandidateBatchResultDto`. -/
structure ConfirmCandidateBatchResultDto where
  entries : List ConfirmedBatchEntryDto
  counts : CandidateBatchCountsDto
  candidatesConsumed : DecimalU64Dto
  createdNodes : DecimalU64Dto
  createdRelationKinds : DecimalU64Dto
  graphChanged : Bool
  publication : PublicationOutcomeDto

/-! ## Their documents -/

/-- A wrapper is printed as its text. -/
def DecimalDto.json {field : String} (d : DecimalDto field) : JsonValue := .ofText d.asStr

def CandidateBatchCountsDto.json (d : CandidateBatchCountsDto) : JsonValue :=
  .ofMembers [("nodes", d.nodes.json), ("relation_kinds", d.relationKinds.json),
    ("edges", d.edges.json)]

def NodeRecordDto.json (d : NodeRecordDto) : JsonValue :=
  .ofMembers [("id", d.id.json), ("name", .ofText d.name), ("payload", .ofText d.payload.asStr)]

def RelationKindRecordDto.json (d : RelationKindRecordDto) : JsonValue :=
  .ofMembers [("id", d.id.json), ("name", .ofText d.name)]

def EdgeRecordDto.json (d : EdgeRecordDto) : JsonValue :=
  .ofMembers [("id", d.id.json), ("source", d.source.json), ("destination", d.destination.json),
    ("relation_kind", d.relationKind.json), ("base_weight", .ofText d.baseWeight.asStr)]

/-- An enum with the tag `kind` and the content `record`. -/
def ConfirmedRecordDto.json : ConfirmedRecordDto → JsonValue
  | .node record => .ofMembers [("kind", .ofText "node"), ("record", record.json)]
  | .relationKind record => .ofMembers [("kind", .ofText "relation_kind"), ("record", record.json)]
  | .edge record => .ofMembers [("kind", .ofText "edge"), ("record", record.json)]

def ConfirmedBatchEntryDto.json (d : ConfirmedBatchEntryDto) : JsonValue :=
  .ofMembers [("candidate_id", d.candidateId.json), ("record", d.record.json)]

def DurationDto.json (d : DurationDto) : JsonValue :=
  .ofMembers [("seconds", d.seconds.json), ("nanoseconds", .number (.ofNat d.nanoseconds.val))]

/-- An enum with the tag `reason`. -/
def RoutingUnavailableReasonDto.json : RoutingUnavailableReasonDto → JsonValue
  | .imageCompilation => .ofMembers [("reason", .ofText "image_compilation")]
  | .topologyLimit required limit => .ofMembers [("reason", .ofText "topology_limit"),
      ("required", required.json), ("limit", limit.json)]
  | .metadataLimit required limit => .ofMembers [("reason", .ofText "metadata_limit"),
      ("required", required.json), ("limit", limit.json)]
  | .bundle => .ofMembers [("reason", .ofText "bundle")]

/-- An enum with the tag `outcome`. -/
def ImageBuildOutcomeDto.json : ImageBuildOutcomeDto → JsonValue
  | .published => .ofMembers [("outcome", .ofText "published")]
  | .failed reason => .ofMembers [("outcome", .ofText "failed"), ("reason", reason.json)]

/-- An absent count is printed as `null`. -/
def optionalCountJson : Option DecimalU64Dto → JsonValue
  | none => .null
  | some d => d.json

def ImageBuildReportDto.json (d : ImageBuildReportDto) : JsonValue :=
  .ofMembers [("duration", d.duration.json), ("outcome", d.outcome.json),
    ("node_count", d.nodeCount.json), ("relation_kind_count", d.relationKindCount.json),
    ("adjacency_count", d.adjacencyCount.json), ("bundle_bytes", optionalCountJson d.bundleBytes),
    ("partition_count", optionalCountJson d.partitionCount),
    ("segment_count", optionalCountJson d.segmentCount)]

/-- An enum with the tag `outcome`. -/
def PublicationOutcomeDto.json : PublicationOutcomeDto → JsonValue
  | .notRequired => .ofMembers [("outcome", .ofText "not_required")]
  | .published report => .ofMembers [("outcome", .ofText "published"), ("report", report.json)]
  | .routingUnavailable reason report => .ofMembers [("outcome", .ofText "routing_unavailable"),
      ("reason", reason.json), ("report", report.json)]

def ConfirmCandidateBatchResultDto.json (d : ConfirmCandidateBatchResultDto) : JsonValue :=
  .ofMembers [("entries", .ofItems (d.entries.map ConfirmedBatchEntryDto.json)),
    ("counts", d.counts.json), ("candidates_consumed", d.candidatesConsumed.json),
    ("created_nodes", d.createdNodes.json),
    ("created_relation_kinds", d.createdRelationKinds.json),
    ("graph_changed", .ofBool d.graphChanged), ("publication", d.publication.json)]

/-- The canonical encoding of the result. -/
def ConfirmCandidateBatchResultDto.encoded (d : ConfirmCandidateBatchResultDto) : Bytes :=
  d.json.document.text

/-! ## The facade -/

/-- What the facade refuses with. -/
inductive ConfirmFailure
  | invalidBatchSize
  | dto (error : DtoValidationError)
  | catalog (error : CatalogError)

/-- The DTO of a confirmation. -/
def CandidateBatchConfirmation.toDto (result : CandidateBatchConfirmation)
    (candidateIds : List CandidateIdDto) (publication : PublicationOutcome) :
    ConfirmCandidateBatchResultDto where
  entries := (candidateIds.zip (result.records.map ConfirmedRecord.toDto)).map
    fun e => ⟨e.1, e.2⟩
  counts := result.counts.toDto
  candidatesConsumed := countDto candidateIds.length
  createdNodes := countDto result.createdNodes
  createdRelationKinds := countDto result.createdRelationKinds
  graphChanged := result.graphChanged
  publication := publication.toDto

/-- The facade's `confirm_candidate_batch`. -/
def confirmCandidateBatchDto (disk : WriteAnswer) (build : ImageBuild)
    (maximumBatchEntries maximumEncodedBytes : ℕ) (candidateIds : List CandidateIdDto) :
    EStateM ConfirmFailure Catalog ConfirmCandidateBatchResultDto := fun c =>
  if candidateIds = [] ∨ maximumBatchEntries < candidateIds.length then .error .invalidBatchSize c
  else
    match candidateIds.mapM (DurableId.ofDto (k := .candidate)) with
    | .error error => .error (.dto error) c
    | .ok ids =>
      match confirmCandidateBatchWithResponseLimit disk ids maximumEncodedBytes c with
      | .error error c' => .error (.catalog error) c'
      | .ok result c' =>
        .ok (result.toDto candidateIds (build.publication result.graphChanged)) c'

end PathHydra
