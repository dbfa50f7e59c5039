import PathHydra.Construction.Api.Confirm
import PathHydra.Properties.Api.Hydration
import PathHydra.Properties.Store.Identity
import PathHydra.Properties.Store.Reported
import PathHydra.Properties.Store.Simulation

/-!
# Does the result of a confirmed batch fit its limit?

Before it commits, a confirmation compares an estimate of its response with the limit: 256 bytes,
and for each record its name, its payload and an allowance.  The response itself has escapes in its
names, its payloads in base64, identifiers of up to twenty digits, and the report of an image build.

`length_encoded` gives its length as the estimate plus the surplus of each entry and of the
envelope.  The image is built after the commit; no build prints more than `longestBuild`, so what
the response can come to is decided before.
-/

namespace PathHydra

/-! ## Lengths of the parts -/

lemma isPlainChar_base64Char (v : ℕ) : JsonByte.isPlainChar (base64Char v) = true := by
  have hall : ∀ v : Fin 64, JsonByte.isPlainChar (base64Char v.val) = true := by decide +kernel
  by_cases h : v < 64
  · exact hall ⟨v, h⟩
  · rw [base64Char_of_le (not_lt.1 h)]
    decide

lemma isPlainChar_of_mem_base64 {bytes : Bytes} :
    ∀ ch ∈ base64Encode bytes, JsonByte.isPlainChar ch = true := by
  have hpadding : JsonByte.isPlainChar '=' = true := by decide
  induction bytes using base64Encode.induct with
  | case1 a b c rest ih => simpa [base64Encode, isPlainChar_base64Char] using ih
  | case2 a b => simp [base64Encode, isPlainChar_base64Char, hpadding]
  | case3 a => simp [base64Encode, isPlainChar_base64Char, hpadding]
  | case4 => simp [base64Encode]

/-- A wrapper is printed as its digits between quotes. -/
lemma length_json_fromU64 {field : String} (v : U64) :
    (DecimalDto.fromU64 v : DecimalDto field).json.text.length = digitCount v.val + 2 := by
  have htext : toString v.val = String.ofList (Nat.toDigits 10 v.val) := by
    rw [← Nat.toList_repr, String.ofList_toList]
    rfl
  rw [DecimalDto.json, JsonValue.length_ofText]
  show escapedLength (strBytes (toString v.val)) + 2 = digitCount v.val + 2
  rw [htext, escapedLength_ofList fun ch hch => isPlainChar_of_isHexDigit ?_]
  · rfl
  · rw [isHexDigit, isDigit_of_mem hch, Bool.true_or]

/-- The number that a count is printed as. -/
def printedCount (n : ℕ) : ℕ := min n u64Max

lemma length_json_countDto (n : ℕ) :
    (countDto n).json.text.length = digitCount (printedCount n) + 2 := by
  rw [countDto, length_json_fromU64, printedCount]
  split_ifs with h
  · rw [min_eq_left (by unfold u64Max; omega)]
  · rw [min_eq_right (by unfold u64Max; omega)]

/-- How many characters the payload has in base64. -/
def base64Length (n : ℕ) : ℕ := 4 * ((n + 2) / 3)

lemma length_base64Encode (bytes : Bytes) :
    (base64Encode bytes).length = base64Length bytes.length := by
  induction bytes using base64Encode.induct with
  | case1 a b c rest ih =>
    simp only [base64Encode, List.length_cons, ih, base64Length]
    omega
  | case2 a b => simp [base64Encode, base64Length]
  | case3 a => simp [base64Encode, base64Length]
  | case4 => rfl

lemma length_json_payload (bytes : Bytes) :
    (JsonValue.ofText (PayloadDto.fromBytes bytes).asStr).text.length =
      base64Length bytes.length + 2 := by
  rw [JsonValue.length_ofText, PayloadDto.fromBytes, escapedLength_ofList isPlainChar_of_mem_base64,
    length_base64Encode]

lemma length_json_binary32 (bits : U32) :
    (JsonValue.ofText (Binary32Dto.fromBits bits).asStr).text.length = 12 := by
  have hbits : bits.val < 16 ^ 8 := bits.isLt
  rw [JsonValue.length_ofText]
  show escapedLength (strBytes (String.ofList ('0' :: 'x' :: hexDigits 8 bits.val))) + 2 = 12
  rw [escapedLength_ofList, List.length_cons, List.length_cons, length_hexDigits]
  intro ch hch
  rcases List.mem_cons.1 hch with rfl | hch
  · decide
  rcases List.mem_cons.1 hch with rfl | hch
  · decide
  · exact isPlainChar_of_isHexDigit (isHexDigit_of_mem hbits ch hch)

/-! ## Lengths of the entries -/

/-- The decimal digits of an identifier. -/
def idDigits {k : IdKind} (id : DurableId k) : ℕ := digitCount id.asU64.val

lemma length_json_toDto {k : IdKind} {field : String} (id : DurableId k) :
    (id.toDto : DecimalDto field).json.text.length = idDigits id + 2 :=
  length_json_fromU64 _

lemma length_json_node (r : NodeRecord) : r.toDto.json.text.length =
    idDigits r.id + escapedLength (strBytes r.name.asStr) +
      base64Length r.payload.asBytes.length + 32 := by
  have hid : escapedLength (strBytes "id") = 2 := rfl
  have hname : escapedLength (strBytes "name") = 4 := rfl
  have hpayload : escapedLength (strBytes "payload") = 7 := rfl
  rw [NodeRecord.toDto, NodeRecordDto.json, JsonValue.length_ofMembers _ (List.cons_ne_nil _ _)]
  simp only [List.map_cons, List.map_nil, List.sum_cons, List.sum_nil, length_json_toDto,
    JsonValue.length_ofText r.name.asStr, length_json_payload, hid, hname, hpayload]
  omega

lemma length_json_relation (r : RelationRecord) : r.toDto.json.text.length =
    idDigits r.id + escapedLength (strBytes r.name.asStr) + 19 := by
  have hid : escapedLength (strBytes "id") = 2 := rfl
  have hname : escapedLength (strBytes "name") = 4 := rfl
  rw [RelationRecord.toDto, RelationKindRecordDto.json,
    JsonValue.length_ofMembers _ (List.cons_ne_nil _ _)]
  simp only [List.map_cons, List.map_nil, List.sum_cons, List.sum_nil, length_json_toDto,
    JsonValue.length_ofText r.name.asStr, hid, hname]
  omega

lemma length_json_edge (e : EdgeRecord) : e.toDto.json.text.length =
    idDigits e.id + idDigits e.source + idDigits e.destination + idDigits e.relationKind + 84 := by
  have hid : escapedLength (strBytes "id") = 2 := rfl
  have hsource : escapedLength (strBytes "source") = 6 := rfl
  have hdestination : escapedLength (strBytes "destination") = 11 := rfl
  have hkind : escapedLength (strBytes "relation_kind") = 13 := rfl
  have hweight : escapedLength (strBytes "base_weight") = 11 := rfl
  rw [EdgeRecord.toDto, EdgeRecordDto.json, JsonValue.length_ofMembers _ (List.cons_ne_nil _ _)]
  simp only [List.map_cons, List.map_nil, List.sum_cons, List.sum_nil, length_json_toDto,
    length_json_binary32, hid, hsource, hdestination, hkind, hweight]
  omega

/-- By how much the entry of a record exceeds what the estimate has for the record: the identifiers,
the escapes of the name, the growth of the payload, and the fixed text against the allowance. -/
def entrySurplus (id : CandidateId) (record : ConfirmedRecord) : ℤ :=
  match record with
  | .node r => idDigits id + idDigits r.id +
      (escapedLength (strBytes r.name.asStr) - (strBytes r.name.asStr).length) +
      (base64Length r.payload.asBytes.length - r.payload.asBytes.length) + 87 - 128
  | .relation r => idDigits id + idDigits r.id +
      (escapedLength (strBytes r.name.asStr) - (strBytes r.name.asStr).length) + 83 - 96
  | .edge e => idDigits id + idDigits e.id + idDigits e.source + idDigits e.destination +
      idDigits e.relationKind + 139 - 160

/-- What the estimate has for a record. -/
def estimatedBytes : ConfirmedRecord → ℕ
  | .node r => (strBytes r.name.asStr).length + r.payload.asBytes.length + 128
  | .relation r => (strBytes r.name.asStr).length + 96
  | .edge _ => 160

/-- An entry with the comma or bracket after it. -/
lemma length_json_entry (id : CandidateId) (record : ConfirmedRecord) :
    (((ConfirmedBatchEntryDto.mk id.toDto record.toDto).json.text.length + 1 : ℕ) : ℤ) =
      estimatedBytes record + entrySurplus id record := by
  have hid : escapedLength (strBytes "candidate_id") = 12 := rfl
  have hrecord : escapedLength (strBytes "record") = 6 := rfl
  have hkind : escapedLength (strBytes "kind") = 4 := rfl
  have hlength : (ConfirmedBatchEntryDto.mk id.toDto record.toDto).json.text.length =
      idDigits id + record.toDto.json.text.length + 29 := by
    rw [ConfirmedBatchEntryDto.json, JsonValue.length_ofMembers _ (List.cons_ne_nil _ _)]
    simp only [List.map_cons, List.map_nil, List.sum_cons, List.sum_nil, length_json_toDto, hid,
      hrecord]
    omega
  -- every kind of record stands in the same frame
  have htagged : ∀ (tag : String) (v : JsonValue),
      (JsonValue.ofMembers [("kind", .ofText tag), ("record", v)]).text.length =
        escapedLength (strBytes tag) + v.text.length + 21 := by
    intro tag v
    rw [JsonValue.length_ofMembers _ (List.cons_ne_nil _ _)]
    simp only [List.map_cons, List.map_nil, List.sum_cons, List.sum_nil,
      JsonValue.length_ofText tag, hkind, hrecord]
    omega
  rw [hlength]
  rcases record with r | r | e
  · have htag : escapedLength (strBytes "node") = 4 := rfl
    have htext := htagged "node" r.toDto.json
    rw [htag, length_json_node] at htext
    rw [show (ConfirmedRecord.node r).toDto.json.text.length = _ from htext]
    unfold estimatedBytes entrySurplus
    dsimp only
    omega
  · have htag : escapedLength (strBytes "relation_kind") = 13 := rfl
    have htext := htagged "relation_kind" r.toDto.json
    rw [htag, length_json_relation] at htext
    rw [show (ConfirmedRecord.relation r).toDto.json.text.length = _ from htext]
    unfold estimatedBytes entrySurplus
    dsimp only
    omega
  · have htag : escapedLength (strBytes "edge") = 4 := rfl
    have htext := htagged "edge" e.toDto.json
    rw [htag, length_json_edge] at htext
    rw [show (ConfirmedRecord.edge e).toDto.json.text.length = _ from htext]
    unfold estimatedBytes entrySurplus
    dsimp only
    omega

/-! ## The whole document -/

/-- By how much the rest of the document exceeds the 256 bytes the estimate has for it, where the
publication has the given length. -/
def envelopeSurplus (counts : CandidateBatchCounts)
    (consumed createdNodes createdRelationKinds : ℕ) (graphChanged : Bool)
    (publication : ℕ) : ℤ :=
  digitCount (printedCount counts.nodes) + digitCount (printedCount counts.relationKinds) +
    digitCount (printedCount counts.edges) + digitCount (printedCount consumed) +
    digitCount (printedCount createdNodes) + digitCount (printedCount createdRelationKinds) +
    (if graphChanged then 4 else 5) + publication + 170 - 256

lemma length_json_counts (counts : CandidateBatchCounts) : counts.toDto.json.text.length =
    digitCount (printedCount counts.nodes) + digitCount (printedCount counts.relationKinds) +
      digitCount (printedCount counts.edges) + 43 := by
  have hnodes : escapedLength (strBytes "nodes") = 5 := rfl
  have hkinds : escapedLength (strBytes "relation_kinds") = 14 := rfl
  have hedges : escapedLength (strBytes "edges") = 5 := rfl
  rw [CandidateBatchCounts.toDto, CandidateBatchCountsDto.json,
    JsonValue.length_ofMembers _ (List.cons_ne_nil _ _)]
  simp only [List.map_cons, List.map_nil, List.sum_cons, List.sum_nil, length_json_countDto, hnodes,
    hkinds, hedges]
  omega

lemma length_json_bool (b : Bool) :
    (JsonValue.ofBool b).text.length = if b then 4 else 5 := by
  rcases b <;> rfl

section Result

variable {result : CandidateBatchConfirmation} {ids : List CandidateId}

/-- The entries with the commas between them and the bracket after them. -/
lemma length_json_entries (hids : ids ≠ []) (hlength : result.records.length = ids.length)
    (publication : PublicationOutcome) :
    (((JsonValue.ofItems ((result.toDto (ids.map DurableId.toDto) publication).entries.map
      ConfirmedBatchEntryDto.json)).text.length : ℕ) : ℤ) =
      (result.records.map estimatedBytes).sum +
        ((ids.zip result.records).map fun e => entrySurplus e.1 e.2).sum + 1 := by
  have hentries : (result.toDto (ids.map DurableId.toDto) publication).entries.map
      ConfirmedBatchEntryDto.json = (ids.zip result.records).map
        fun e => (ConfirmedBatchEntryDto.mk e.1.toDto e.2.toDto).json := by
    simp only [CandidateBatchConfirmation.toDto, List.zip_map, List.map_map]
    rfl
  have hnonempty : (ids.zip result.records).map
      (fun e => (ConfirmedBatchEntryDto.mk e.1.toDto e.2.toDto).json) ≠ [] := by
    rw [Ne, List.map_eq_nil_iff, List.zip_eq_nil_iff, ← List.length_eq_zero_iff,
      ← List.length_eq_zero_iff (l := result.records), hlength, or_self, List.length_eq_zero_iff]
    exact hids
  have hestimated : (result.records.map estimatedBytes).sum =
      ((ids.zip result.records).map fun e => estimatedBytes e.2).sum := by
    conv_lhs => rw [← List.map_snd_zip hlength.le, List.map_map]
    rfl
  rw [hentries, JsonValue.length_ofItems _ hnonempty, List.map_map, hestimated]
  generalize ids.zip result.records = l
  push_cast
  rw [add_left_inj]
  induction l with
  | nil => rfl
  | cons e l ih =>
    have hentry := length_json_entry e.1 e.2
    simp only [List.map_cons, List.sum_cons, Function.comp_apply] at ih ⊢
    push_cast at ih hentry ⊢
    omega

lemma length_encoded (hids : ids ≠ []) (hlength : result.records.length = ids.length)
    (publication : PublicationOutcome) :
    ((result.toDto (ids.map DurableId.toDto) publication).encoded.length : ℤ) =
      256 + (result.records.map estimatedBytes).sum +
        (((ids.zip result.records).map fun e => entrySurplus e.1 e.2).sum +
          envelopeSurplus result.counts ids.length result.createdNodes result.createdRelationKinds
            result.graphChanged publication.toDto.json.text.length) := by
  have hkeys : escapedLength (strBytes "entries") = 7 ∧ escapedLength (strBytes "counts") = 6 ∧
      escapedLength (strBytes "candidates_consumed") = 19 ∧
      escapedLength (strBytes "created_nodes") = 13 ∧
      escapedLength (strBytes "created_relation_kinds") = 22 ∧
      escapedLength (strBytes "graph_changed") = 13 ∧
      escapedLength (strBytes "publication") = 11 :=
    ⟨rfl, rfl, rfl, rfl, rfl, rfl, rfl⟩
  obtain ⟨h₁, h₂, h₃, h₄, h₅, h₆, h₇⟩ := hkeys
  have hentries := length_json_entries hids hlength publication
  have htext : (result.toDto (ids.map DurableId.toDto) publication).encoded.length =
      (JsonValue.ofItems ((result.toDto (ids.map DurableId.toDto) publication).entries.map
        ConfirmedBatchEntryDto.json)).text.length + result.counts.toDto.json.text.length +
      digitCount (printedCount ids.length) + digitCount (printedCount result.createdNodes) +
      digitCount (printedCount result.createdRelationKinds) +
      (if result.graphChanged then 4 else 5) + publication.toDto.json.text.length + 126 := by
    have hdocument : ∀ v : JsonValue, v.document.text = v.text := fun v => List.append_nil _
    rw [ConfirmCandidateBatchResultDto.encoded, hdocument, ConfirmCandidateBatchResultDto.json,
      JsonValue.length_ofMembers _ (List.cons_ne_nil _ _)]
    simp only [List.map_cons, List.map_nil, List.sum_cons, List.sum_nil, h₁, h₂, h₃, h₄, h₅, h₆, h₇,
      CandidateBatchConfirmation.toDto, length_json_countDto, length_json_bool, List.length_map]
    omega
  rw [htext, length_json_counts]
  unfold envelopeSurplus
  push_cast at hentries ⊢
  omega

end Result

/-! ## The longest publication -/

lemma digitCount_printedCount_le (n : ℕ) : digitCount (printedCount n) ≤ 20 := by
  have hmax : digitCount u64Max = 20 := by decide +kernel
  exact hmax ▸ digitCount_mono (min_le_right n u64Max)

lemma length_json_fromU64_le {field : String} (v : U64) :
    (DecimalDto.fromU64 v : DecimalDto field).json.text.length ≤ 22 := by
  have hprinted : printedCount v.val = v.val := min_eq_left (Nat.le_sub_one_of_lt v.isLt)
  have hdigits := digitCount_printedCount_le v.val
  rw [hprinted] at hdigits
  rw [length_json_fromU64]
  exact Nat.add_le_add_right hdigits 2

lemma length_json_duration_le (d : Duration) : d.toDto.json.text.length ≤ 58 := by
  have hseconds : escapedLength (strBytes "seconds") = 7 := rfl
  have hnanoseconds : escapedLength (strBytes "nanoseconds") = 11 := rfl
  have hnumber : (JsonValue.number (.ofNat d.nanoseconds.val)).text.length ≤ 9 :=
    length_text_ofNat_le (by decide) (d.nanoseconds.isLt.trans_eq rfl)
  have hdigits : d.toDto.seconds.json.text.length ≤ 22 := length_json_fromU64_le d.seconds
  rw [DurationDto.json, JsonValue.length_ofMembers _ (List.cons_ne_nil _ _)]
  simp only [List.map_cons, List.map_nil, List.sum_cons, List.sum_nil, hseconds, hnanoseconds]
  have hprinted : (JsonValue.number (.ofNat d.toDto.nanoseconds.val)).text.length ≤ 9 := hnumber
  omega

lemma length_json_limit (tag : String) (required limit : ℕ) :
    (JsonValue.ofMembers [("reason", .ofText tag), ("required", (countDto required).json),
      ("limit", (countDto limit).json)]).text.length =
        escapedLength (strBytes tag) + digitCount (printedCount required) +
          digitCount (printedCount limit) + 38 := by
  have hreason : escapedLength (strBytes "reason") = 6 := rfl
  have hrequired : escapedLength (strBytes "required") = 8 := rfl
  have hlimit : escapedLength (strBytes "limit") = 5 := rfl
  rw [JsonValue.length_ofMembers _ (List.cons_ne_nil _ _)]
  simp only [List.map_cons, List.map_nil, List.sum_cons, List.sum_nil, length_json_countDto,
    JsonValue.length_ofText tag, hreason, hrequired, hlimit]
  omega

/-- No reason is longer than that of a limit. -/
lemma length_json_reason_le (reason : RoutingUnavailableReason) :
    reason.toDto.json.text.length ≤ 92 := by
  have hlimits : ∀ (tag : String) (required limit : ℕ), escapedLength (strBytes tag) = 14 →
      (JsonValue.ofMembers [("reason", .ofText tag), ("required", (countDto required).json),
        ("limit", (countDto limit).json)]).text.length ≤ 92 := by
    intro tag required limit htag
    have hrequired := digitCount_printedCount_le required
    have hlimit := digitCount_printedCount_le limit
    rw [length_json_limit, htag]
    omega
  cases reason with
  | imageCompilation text => exact Nat.le_of_ble_eq_true rfl
  | topologyLimit required limit => exact hlimits "topology_limit" required limit rfl
  | metadataLimit required limit => exact hlimits "metadata_limit" required limit rfl
  | bundle text => exact Nat.le_of_ble_eq_true rfl

lemma length_json_failed (reason : RoutingUnavailableReason) :
    (ImageBuildOutcome.failed reason).toDto.json.text.length =
      reason.toDto.json.text.length + 30 := by
  have houtcome : escapedLength (strBytes "outcome") = 7 := rfl
  have hreason : escapedLength (strBytes "reason") = 6 := rfl
  have htag : (JsonValue.ofText "failed").text.length = 8 := rfl
  rw [ImageBuildOutcome.toDto, ImageBuildOutcomeDto.json,
    JsonValue.length_ofMembers _ (List.cons_ne_nil _ _)]
  simp only [List.map_cons, List.map_nil, List.sum_cons, List.sum_nil, houtcome, hreason, htag]
  omega

lemma length_json_report (r : ImageBuildReport) : r.toDto.json.text.length =
    r.duration.toDto.json.text.length + r.outcome.toDto.json.text.length +
      digitCount (printedCount r.nodeCount) + digitCount (printedCount r.relationKindCount) +
      digitCount (printedCount r.adjacencyCount) +
      (optionalCountJson r.toDto.bundleBytes).text.length +
      (optionalCountJson r.toDto.partitionCount).text.length +
      (optionalCountJson r.toDto.segmentCount).text.length + 138 := by
  have hkeys : escapedLength (strBytes "duration") = 8 ∧ escapedLength (strBytes "outcome") = 7 ∧
      escapedLength (strBytes "node_count") = 10 ∧
      escapedLength (strBytes "relation_kind_count") = 19 ∧
      escapedLength (strBytes "adjacency_count") = 15 ∧
      escapedLength (strBytes "bundle_bytes") = 12 ∧
      escapedLength (strBytes "partition_count") = 15 ∧
      escapedLength (strBytes "segment_count") = 13 :=
    ⟨rfl, rfl, rfl, rfl, rfl, rfl, rfl, rfl⟩
  obtain ⟨h₁, h₂, h₃, h₄, h₅, h₆, h₇, h₈⟩ := hkeys
  rw [ImageBuildReportDto.json, JsonValue.length_ofMembers _ (List.cons_ne_nil _ _)]
  simp only [List.map_cons, List.map_nil, List.sum_cons, List.sum_nil, h₁, h₂, h₃, h₄, h₅, h₆, h₇,
    h₈, ImageBuildReport.toDto, length_json_countDto]
  omega

lemma length_json_metrics_le (metrics : Option BundleBuildMetrics)
    (value : BundleBuildMetrics → U64) :
    (optionalCountJson (metrics.map fun m => .fromU64 (value m))).text.length ≤ 22 := by
  cases metrics with
  | none => exact Nat.le_of_ble_eq_true rfl
  | some m => exact length_json_fromU64_le (value m)

/-- The length of the longest publication: an image that exceeds its metadata limit gives the reason
twice, but no counts. -/
def longestPublication (graphChanged : Bool) : ℕ := if graphChanged then 478 else 26

lemma length_json_publication_published (report : ImageBuildReport) :
    (PublicationOutcome.published report).toDto.json.text.length =
      report.toDto.json.text.length + 33 := by
  have houtcome : escapedLength (strBytes "outcome") = 7 := rfl
  have hreport : escapedLength (strBytes "report") = 6 := rfl
  have htag : (JsonValue.ofText "published").text.length = 11 := rfl
  rw [PublicationOutcome.toDto, PublicationOutcomeDto.json,
    JsonValue.length_ofMembers _ (List.cons_ne_nil _ _)]
  simp only [List.map_cons, List.map_nil, List.sum_cons, List.sum_nil, houtcome, hreport, htag]
  omega

lemma length_json_publication_unavailable (reason : RoutingUnavailableReason)
    (report : ImageBuildReport) :
    (PublicationOutcome.routingUnavailable reason report).toDto.json.text.length =
      reason.toDto.json.text.length + report.toDto.json.text.length + 53 := by
  have houtcome : escapedLength (strBytes "outcome") = 7 := rfl
  have hreason : escapedLength (strBytes "reason") = 6 := rfl
  have hreport : escapedLength (strBytes "report") = 6 := rfl
  have htag : (JsonValue.ofText "routing_unavailable").text.length = 21 := rfl
  rw [PublicationOutcome.toDto, PublicationOutcomeDto.json,
    JsonValue.length_ofMembers _ (List.cons_ne_nil _ _)]
  simp only [List.map_cons, List.map_nil, List.sum_cons, List.sum_nil, houtcome, hreason, hreport,
    htag]
  omega

lemma length_json_publication_le (bundle : BundleBuild) (injected : Option String)
    (duration : Duration) (graphChanged : Bool) :
    ((compileCurrentImage bundle injected duration).publication
      graphChanged).toDto.json.text.length ≤ longestPublication graphChanged := by
  have hduration := length_json_duration_le duration
  cases graphChanged with
  | false => exact Nat.le_of_ble_eq_true rfl
  | true =>
    cases bundle with
    | error reason =>
      -- the reason stands in the outcome and in the report, which counts nothing
      show (PublicationOutcome.routingUnavailable reason
        ⟨duration, .failed reason, 0, 0, 0, none⟩).toDto.json.text.length ≤ 478
      have hreason := length_json_reason_le reason
      have hzero : digitCount (printedCount 0) = 1 := rfl
      have hnull : (optionalCountJson none).text.length = 4 := rfl
      rw [length_json_publication_unavailable, length_json_report, length_json_failed]
      simp only [ImageBuildReport.toDto, Option.map_none, hzero, hnull]
      omega
    | ok built =>
      obtain ⟨⟨nodes, kinds, adjacencies⟩, metrics⟩ := built
      have hnodes := digitCount_printedCount_le nodes
      have hkinds := digitCount_printedCount_le kinds
      have hadjacencies := digitCount_printedCount_le adjacencies
      have hbundle := length_json_metrics_le (some metrics) BundleBuildMetrics.bundleBytes
      have hpartitions := length_json_metrics_le (some metrics) BundleBuildMetrics.partitionCount
      have hsegments := length_json_metrics_le (some metrics) BundleBuildMetrics.segmentCount
      cases injected with
      | none =>
        show (PublicationOutcome.published ⟨duration, .published, nodes, kinds, adjacencies,
          some metrics⟩).toDto.json.text.length ≤ 478
        have houtcome : ImageBuildOutcome.published.toDto.json.text.length = 23 := rfl
        rw [length_json_publication_published, length_json_report, houtcome]
        simp only [ImageBuildReport.toDto]
        omega
      | some text =>
        -- the failure comes after the bundle was built, and the report keeps its counts
        show (PublicationOutcome.routingUnavailable (.bundle text) ⟨duration,
          .failed (.bundle text), nodes, kinds, adjacencies,
            some metrics⟩).toDto.json.text.length ≤ 478
        have hreason : (RoutingUnavailableReason.bundle text).toDto.json.text.length = 19 := rfl
        rw [length_json_publication_unavailable, length_json_report, length_json_failed, hreason]
        simp only [ImageBuildReport.toDto]
        omega

/-- A build that fails with the longest numbers there are. -/
def longestBuild : ImageBuild :=
  compileCurrentImage (.error (.metadataLimit u64Max (u64Max - 1))) none
    ⟨Fin.ofNat _ u64Max, 999999999⟩

lemma length_json_longestBuild (graphChanged : Bool) :
    (longestBuild.publication graphChanged).toDto.json.text.length =
      longestPublication graphChanged := by
  cases graphChanged <;> decide +kernel

/-! ## A confirmed batch and its limit -/

namespace Catalog

/-- The estimate of the response to a selection. -/
def estimatedResponse (c : Catalog) (ids : List CandidateId) : ℕ :=
  256 + ((c.reportedRecords (c.selected ids)).map estimatedBytes).sum

/-- By how much the longest response to a selection exceeds its estimate. -/
def responseSurplus (c : Catalog) (ids : List CandidateId) : ℤ :=
  let cs := c.selected ids
  ((ids.zip (c.reportedRecords cs)).map fun e => entrySurplus e.1 e.2).sum +
    envelopeSurplus (tally cs) ids.length (c.createdNodes cs).length (c.createdRelations cs).length
      (c.changesGraph cs) (longestPublication (c.changesGraph cs))

end Catalog

lemma mapM_ofDto {field : String} (ids : List CandidateId) :
    (ids.map (@DurableId.toDto _ field)).mapM DurableId.ofDto = .ok ids := by
  induction ids with
  | nil => rfl
  | cons id ids ih =>
    rw [List.map_cons, List.mapM_cons, ofDto_toDto, ok_bind, ih]
    rfl

section Confirm

variable {disk : WriteAnswer} {build : ImageBuild} {maximumBatchEntries maximumEncodedBytes : ℕ}
  {ids : List CandidateId} {c c' : Catalog} {dto : ConfirmCandidateBatchResultDto}

/-- The facade confirms what the store confirms. -/
lemma confirmCandidateBatchDto_eq_ok
    (h : confirmCandidateBatchDto disk build maximumBatchEntries maximumEncodedBytes
      (ids.map DurableId.toDto) c = .ok dto c') :
    ∃ result, confirmCandidateBatchWithResponseLimit disk ids maximumEncodedBytes c =
        .ok result c' ∧
      dto = result.toDto (ids.map DurableId.toDto) (build.publication result.graphChanged) := by
  unfold confirmCandidateBatchDto at h
  split_ifs at h
  rw [mapM_ofDto] at h
  dsimp only at h
  rcases hrun : confirmCandidateBatchWithResponseLimit disk ids maximumEncodedBytes c with
    ⟨result, c''⟩ | ⟨error, c''⟩
  · rw [hrun] at h
    cases h
    exact ⟨result, rfl, rfl⟩
  · rw [hrun] at h
    cases h

/-- The image is built after the commit, so the batch is confirmed whatever comes of it. -/
lemma exists_confirmed (h : confirmCandidateBatchDto disk build maximumBatchEntries
      maximumEncodedBytes (ids.map DurableId.toDto) c = .ok dto c') (build' : ImageBuild) :
    ∃ dto', confirmCandidateBatchDto disk build' maximumBatchEntries maximumEncodedBytes
      (ids.map DurableId.toDto) c = .ok dto' c' := by
  obtain ⟨result, hresult, -⟩ := confirmCandidateBatchDto_eq_ok h
  refine ⟨result.toDto (ids.map DurableId.toDto) (build'.publication result.graphChanged), ?_⟩
  unfold confirmCandidateBatchDto at h ⊢
  split_ifs at h ⊢
  rw [mapM_ofDto] at h ⊢
  dsimp only at h ⊢
  rw [hresult]

/-- The length of a response, from what the catalog determines and the publication. -/
lemma length_confirmed {actions : List (CatalogCall × WriteAnswer)}
    {outs : List (CatalogCall × Except CatalogError CallResult)}
    (hrun : catalogMachine.run .fresh actions = some (c, outs))
    (hconfirm : confirmCandidateBatchDto disk build maximumBatchEntries maximumEncodedBytes
      (ids.map DurableId.toDto) c = .ok dto c') :
    (dto.encoded.length : ℤ) = c.estimatedResponse ids + c.responseSurplus ids -
      longestPublication (c.changesGraph (c.selected ids)) +
      (build.publication (c.changesGraph (c.selected ids))).toDto.json.text.length := by
  obtain ⟨t, inv, -⟩ := catalogMachine_evolves fresh_inv hrun
  obtain ⟨result, hresult, rfl⟩ := confirmCandidateBatchDto_eq_ok hconfirm
  obtain ⟨cs, plan, changes, h⟩ := (confirm_spec inv disk ids maximumEncodedBytes).of_ok hresult
  have hencoded := length_encoded h.nonempty h.length_records
    (build.publication result.graphChanged)
  rw [h.records_eq, h.counts, h.createdNodes_eq, h.createdRelationKinds_eq, h.graphChanged_eq]
    at hencoded
  rw [h.graphChanged_eq, Catalog.responseSurplus, Catalog.estimatedResponse, h.selected_eq,
    hencoded]
  unfold envelopeSurplus
  push_cast
  ring

end Confirm

/-- In every reachable state, a batch that is confirmed can be reported within its limit, whatever
comes of the image that is built after it, exactly when the longest response to the selection
exceeds its estimate by no more than the limit does. -/
theorem confirmResponse_fits_iff {c₀ c c' : Catalog} {actions : List (CatalogCall × WriteAnswer)}
    {outs : List (CatalogCall × Except CatalogError CallResult)}
    (hopen : openCatalog .written Database.empty = .ok c₀)
    (hrun : catalogMachine.run c₀ actions = some (c, outs)) {disk : WriteAnswer}
    {build : ImageBuild} {maximumBatchEntries maximumEncodedBytes : ℕ} {ids : List CandidateId}
    {dto : ConfirmCandidateBatchResultDto}
    (hconfirm : confirmCandidateBatchDto disk build maximumBatchEntries maximumEncodedBytes
      (ids.map DurableId.toDto) c = .ok dto c') :
    (∀ (bundle : BundleBuild) (injected : Option String) (duration : Duration) dto' c'',
      confirmCandidateBatchDto disk (compileCurrentImage bundle injected duration)
        maximumBatchEntries maximumEncodedBytes (ids.map DurableId.toDto) c = .ok dto' c'' →
          dto'.encoded.length ≤ maximumEncodedBytes) ↔
      c.responseSurplus ids ≤ (maximumEncodedBytes : ℤ) - c.estimatedResponse ids := by
  obtain rfl : c₀ = .fresh := Except.ok.inj (hopen.symm.trans openCatalog_empty)
  constructor
  · intro hfits
    -- the longest build leaves nothing over
    obtain ⟨dto', hlongest⟩ := exists_confirmed hconfirm longestBuild
    have hle := hfits _ _ _ dto' c' hlongest
    have hlength := length_confirmed hrun hlongest
    rw [length_json_longestBuild] at hlength
    omega
  · intro hsurplus bundle injected duration dto' c'' hconfirm'
    have hlength := length_confirmed hrun hconfirm'
    have hpublication := length_json_publication_le bundle injected duration
      (c.changesGraph (c.selected ids))
    omega

/-- A node with an edge to itself, where the name of the node is escaped. -/
def quotedCalls : List (CatalogCall × WriteAnswer) :=
  [(.insertCandidateBatch [.node ⟨"\"a\""⟩ ⟨[1, 2]⟩, .relationKind ⟨"r"⟩,
    .edge (.batchNode 0) (.batchNode 0) (.batchRelationKind 1) ⟨0, BaseWeight.zeroBits_le⟩],
    .written)]

/-- A build that publishes an image of one node. -/
def oneNodeBuild : ImageBuild := compileCurrentImage (.ok ((1, 0, 0), ⟨512, 1, 1⟩)) none ⟨0, 0⟩

/-- Confirms candidates under a limit. -/
def confirmWithin (maximumEncodedBytes : ℕ) (ids : List CandidateId) :
    EStateM ConfirmFailure Catalog ConfirmCandidateBatchResultDto :=
  confirmCandidateBatchDto .written oneNodeBuild 120000 maximumEncodedBytes
    (ids.map DurableId.toDto)

theorem confirmResponse_fits_iff_quoted : ∃ c outs dto c',
    catalogMachine.run .fresh quotedCalls = some (c, outs) ∧
    confirmWithin 986 [⟨1⟩, ⟨2⟩, ⟨3⟩] c = .ok dto c' ∧
    ∀ (bundle : BundleBuild) (injected : Option String) (duration : Duration) dto' c'',
      confirmCandidateBatchDto .written (compileCurrentImage bundle injected duration) 120000 986
        (([⟨1⟩, ⟨2⟩, ⟨3⟩] : List CandidateId).map DurableId.toDto) c = .ok dto' c'' →
          dto'.encoded.length ≤ 986 := by
  obtain ⟨c, outs, hrun⟩ := catalogMachine_run_total .fresh quotedCalls
  have hfits : (catalogMachine.run .fresh quotedCalls).map (fun s =>
      (((confirmWithin 986 [⟨1⟩, ⟨2⟩, ⟨3⟩]).run' s.1).isSome,
        s.1.responseSurplus [⟨1⟩, ⟨2⟩, ⟨3⟩], s.1.estimatedResponse [⟨1⟩, ⟨2⟩, ⟨3⟩])) =
          some (true, 340, 646) := by
    decide +kernel
  rw [hrun, Option.map_some, Option.some.injEq, Prod.mk.injEq, Prod.mk.injEq] at hfits
  obtain ⟨hsome, hsurplus, hestimate⟩ := hfits
  rcases hconfirm : confirmWithin 986 [⟨1⟩, ⟨2⟩, ⟨3⟩] c with ⟨dto, c'⟩ | ⟨e, c'⟩
  · refine ⟨c, outs, dto, c', hrun, hconfirm, ?_⟩
    apply (confirmResponse_fits_iff openCatalog_empty hrun hconfirm).2
    rw [hsurplus, hestimate]
    decide
  · simp [run'_eq_none hconfirm] at hsome

/-- A node is inserted. -/
def oneNodeCalls : List (CatalogCall × WriteAnswer) :=
  [(.insertCandidateBatch [.node ⟨"n"⟩ ⟨[]⟩], .written)]

/-- The node is confirmed under a limit that its result does not fit. -/
theorem confirmResponse_too_long : ∃ c outs dto c',
    openCatalog .written Database.empty = .ok .fresh ∧
    catalogMachine.run .fresh oneNodeCalls = some (c, outs) ∧
    confirmWithin 385 [⟨1⟩] c = .ok dto c' ∧ 385 < dto.encoded.length := by
  obtain ⟨c, outs, hrun⟩ := catalogMachine_run_total .fresh oneNodeCalls
  have hlong : (catalogMachine.run .fresh oneNodeCalls).map (fun s =>
      ((confirmWithin 385 [⟨1⟩]).run' s.1).map fun dto => decide (385 < dto.encoded.length)) =
        some (some true) := by
    decide +kernel
  rw [hrun, Option.map_some, Option.some.injEq] at hlong
  rcases hconfirm : confirmWithin 385 [⟨1⟩] c with ⟨dto, c'⟩ | ⟨e, c'⟩
  · simp only [run'_eq_some hconfirm, Option.map_some, Option.some.injEq,
      decide_eq_true_eq] at hlong
    exact ⟨c, outs, dto, c', openCatalog_empty, hrun, hconfirm, hlong⟩
  · simp [run'_eq_none hconfirm] at hlong

end PathHydra
