import PathHydra.Construction.Api.Hydration
import PathHydra.Properties.Api.Profile
import PathHydra.Properties.Engine.Hydration

/-!
# Hydrated subgraphs at the API boundary

A hydrated collection has its four lists of identifiers in ascending order, its counts and its
completeness agree, and all its numbers are valid; under limits that cover its sizes only the order
of texts decides whether it passes the check of the boundary (`hydratedSubgraph_boundary_iff`).
-/

namespace PathHydra

/-! ## Sizes of payloads -/

lemma base64Char_of_le {v : ℕ} (h : 64 ≤ v) : base64Char v = 'A' := by
  rw [base64Char, List.getD_eq_getElem?_getD, List.getElem?_eq_none_iff.2 (by simpa using h)]
  rfl

lemma base64Char_ne (v : ℕ) : base64Char v ≠ '=' := by
  have hall : ∀ v : Fin 64, base64Char v.val ≠ '=' := by decide +kernel
  by_cases h : v < 64
  · exact hall ⟨v, h⟩
  · rw [base64Char_of_le (not_lt.1 h)]
    decide

/-- A base64 text is a body without padding, followed by the padding. -/
lemma base64Encode_split (bytes : Bytes) : ∃ body p q, base64Encode bytes =
    body ++ List.replicate p '=' ∧ (∀ c ∈ body, c ≠ '=') ∧
      (base64Encode bytes).length = 4 * q ∧ 3 * q = bytes.length + p := by
  induction bytes using base64Encode.induct with
  | case1 a b c rest ih =>
    obtain ⟨body, p, q, hsplit, hbody, hlength, hsize⟩ := ih
    refine ⟨base64Char (a.toNat / 4) :: base64Char (a.toNat % 4 * 16 + b.toNat / 16) ::
      base64Char (b.toNat % 16 * 4 + c.toNat / 64) :: base64Char (c.toNat % 64) :: body, p, q + 1,
      ?_, ?_, ?_, ?_⟩
    · rw [base64Encode, hsplit]
      rfl
    · simpa [base64Char_ne] using hbody
    · rw [base64Encode]
      simp only [List.length_cons, hlength]
      omega
    · simp only [List.length_cons]
      omega
  | case2 a b =>
    exact ⟨[base64Char (a.toNat / 4), base64Char (a.toNat % 4 * 16 + b.toNat / 16),
      base64Char (b.toNat % 16 * 4)], 1, 1, rfl, by simp [base64Char_ne], rfl, rfl⟩
  | case3 a =>
    exact ⟨[base64Char (a.toNat / 4), base64Char (a.toNat % 4 * 16)], 2, 1, rfl,
      by simp [base64Char_ne], rfl, rfl⟩
  | case4 => exact ⟨[], 0, 0, rfl, nofun, rfl, rfl⟩

/-- The size that is computed from the text is the size of the payload. -/
lemma validatePayload_fromBytes {bytes : Bytes} {limits : ApiLimits}
    (h : bytes.length ≤ limits.maximumPayloadBytes) :
    validatePayload (.fromBytes bytes) limits = .ok () := by
  obtain ⟨body, p, q, hsplit, hbody, hlength, hsize⟩ := base64Encode_split bytes
  have hpadding : ((base64Encode bytes).reverse.takeWhile fun c => decide (c = '=')).length = p := by
    rw [hsplit, List.reverse_append, List.reverse_replicate, List.takeWhile_append_of_pos]
    · have hnone : body.reverse.takeWhile (fun c => decide (c = '=')) = [] := by
        rcases hreverse : body.reverse with _ | ⟨c, rest⟩
        · rfl
        · have hmem : c ∈ body := List.mem_reverse.1 (by rw [hreverse]; exact List.mem_cons_self)
          exact List.takeWhile_cons_of_neg (by simpa using hbody c hmem)
      rw [hnone, List.append_nil, List.length_replicate]
    · intro c hc
      rw [List.eq_of_mem_replicate hc]
      rfl
  rw [validatePayload, PayloadDto.fromBytes, String.toList_ofList, hpadding, hlength, boundedLen,
    if_neg (by omega)]

/-! ## Records -/

section Checks

variable {F : Type} [Binary64 F]

lemma boundedLen_eq_ok {limit : CodecLimit} {maximum observed : ℕ} (h : observed ≤ maximum) :
    boundedLen limit maximum observed = .ok () := if_neg (not_lt.2 h)

lemma dtoValidation_eq_ok {α : Type} {x : Except DtoValidationError α} {a : α} :
    dtoValidation x = .ok a ↔ x = .ok a := mapErr_eq_ok

lemma bits_fromBits (bits : U32) : (Binary32Dto.fromBits bits).bits = .ok bits :=
  parseBinary32_text bits

lemma validateMultiplierDto_fromBits (multiplier : RelationMultiplier) :
    validateMultiplierDto (.fromBits multiplier.toBits) = .ok () := by
  rw [validateMultiplierDto, dtoValidation_eq_ok.2 (bits_fromBits _), ok_bind, dtoValidation_eq_ok,
    validateMultiplier, if_pos multiplier.finite]

lemma NodeRecord.toDto_boundary {record : NodeRecord} {limits : ApiLimits}
    (hname : (strBytes record.name.asStr).length ≤ limits.maximumNameBytes)
    (hpayload : record.payload.asBytes.length ≤ limits.maximumPayloadBytes) :
    record.toDto.validateBoundary limits = .ok () :=
  check_bind_eq_ok.2 ⟨boundedLen_eq_ok hname, validatePayload_fromBytes hpayload⟩

lemma HydratedEdge.toDto_boundary {edge : HydratedEdge F} {limits : ApiLimits}
    (hname : (strBytes edge.relationKind.name.asStr).length ≤ limits.maximumNameBytes)
    (hfinite : edge.evaluation.Finite) : edge.toDto.validateBoundary limits = .ok () := by
  have hweight : edge.edge.toDto.validateBoundary = .ok () := by
    rw [EdgeRecordDto.validateBoundary, EdgeRecord.toDto, dtoValidation_eq_ok.2 (bits_fromBits _),
      ok_bind, dtoValidation_eq_ok, validateBaseWeight, BaseWeight.fromBits_toBits]
    rfl
  have hevaluation : edge.evaluation.toDto.validateBoundary = .ok () := by
    rcases hevaluation : edge.evaluation with _ | _ | ⟨multiplier, weight⟩
    · rfl
    · rfl
    · rw [hevaluation] at hfinite
      refine check_bind_eq_ok.2 ⟨validateMultiplierDto_fromBits multiplier, ?_⟩
      exact dtoValidation_eq_ok.2 (if_pos hfinite)
  exact check_bind_eq_ok.2 ⟨hweight, check_bind_eq_ok.2 ⟨boundedLen_eq_ok hname, hevaluation⟩⟩

/-- A profile passes the check of the boundary exactly when it passes its own. -/
lemma RelationProfile.toDto_boundary {profile : RelationProfile} {limits : ApiLimits}
    (hlength : profile.entries.length ≤ limits.maximumProfileEntries) :
    profile.toDto.validateBoundary limits = .ok () ↔ profile.toDto.validate = .ok () := by
  have huses : (profile.toDto.entries.forM fun entry => entry.relationUse.validateBoundary) =
      .ok () := by
    refine forM_eq_ok _ fun entry hentry => ?_
    rw [toDto_entries] at hentry
    obtain ⟨e, -, rfl⟩ := List.mem_map.1 hentry
    show RelationUseDto.validateBoundary e.2.toDto = .ok ()
    rcases e.2 with _ | multiplier
    · rfl
    · exact validateMultiplierDto_fromBits multiplier
  have hcount : profile.toDto.entries.length ≤ limits.maximumProfileEntries := by
    rw [toDto_entries, List.length_map, profile.byText_perm.length_eq]
    exact hlength
  rw [RelationProfileDto.validateBoundary, boundedLen_eq_ok hcount, ok_bind, huses, ok_bind,
    dtoValidation_eq_ok]

/-! ## Diagnostics -/

lemma asU64_countDto {value : ℕ} (h : value < 2 ^ 64) :
    dtoValidation (countDto value).asU64 = .ok ⟨value, h⟩ := by
  rw [dtoValidation_eq_ok, countDto, dif_pos h]
  exact parseDecimal_toString _ _

lemma validateCount_eq_ok {value : ℕ} (h : value < 2 ^ 64) :
    validateCount (countDto value) value = .ok () := by
  rw [validateCount, asU64_countDto h, ok_bind, if_neg (not_not.2 rfl)]

lemma validateSum_eq_ok {found missing : ℕ} (h : found + missing < 2 ^ 64) :
    validateSum (countDto (found + missing)) (countDto found) (countDto missing) = .ok () := by
  rw [validateSum, asU64_countDto h, ok_bind, asU64_countDto (by omega), ok_bind,
    asU64_countDto (by omega), ok_bind, checkedAdd64_eq_some.2 ⟨h, rfl⟩, okOr_some, ok_bind,
    if_neg (not_not.2 rfl)]

/-- The counts of a conversion agree with each other and with the lists. -/
lemma hydrationDiagnostics_valid {nodes missingNodes edges missingEdges : ℕ}
    (hnodes : nodes + missingNodes < 2 ^ 64) (hedges : edges + missingEdges < 2 ^ 64) :
    (hydrationDiagnostics (nodes + missingNodes) (edges + missingEdges) nodes
        edges).validateBoundary = .ok () ∧
      validateHydrationCounts (hydrationDiagnostics (nodes + missingNodes) (edges + missingEdges)
        nodes edges) (nodes + missingNodes) (edges + missingEdges) nodes edges = .ok () := by
  have hduration : DurationDto.validateBoundary ⟨.fromU64 0, 0⟩ = .ok () := by
    have hseconds : dtoValidation (DecimalDto.fromU64 0 : DecimalU64Dto).asU64 = .ok 0 :=
      dtoValidation_eq_ok.2 (parseDecimal_toString _ _)
    rw [DurationDto.validateBoundary, if_neg (by decide), hseconds]
    rfl
  rw [hydrationDiagnostics, Nat.add_sub_cancel_left, Nat.add_sub_cancel_left]
  constructor
  · exact check_bind_eq_ok.2 ⟨hduration, check_bind_eq_ok.2 ⟨validateSum_eq_ok hnodes,
      validateSum_eq_ok hedges⟩⟩
  · rw [validateHydrationCounts, validateCount_eq_ok hnodes, ok_bind, validateCount_eq_ok hedges,
      ok_bind, validateCount_eq_ok (by omega), ok_bind, validateCount_eq_ok (by omega), ok_bind,
      Nat.add_sub_cancel_left, Nat.add_sub_cancel_left, validateCount_eq_ok (by omega), ok_bind,
      validateCount_eq_ok (by omega)]

end Checks

/-! ## The order of texts -/

/-- Ascending identifiers pass the check of their texts exactly when these ascend. -/
lemma unordered_toDto {k : IdKind} {field : String} {ids : List (DurableId k)}
    (h : ids.Pairwise (· < ·)) :
    unordered (ids.map (·.toDto : DurableId k → DecimalDto field)) = false ↔ TextsAscend ids := by
  have hchain : unordered (ids.map (·.toDto : DurableId k → DecimalDto field)) = false ↔
      ids.Pairwise fun a b => (a.toDto : DecimalDto field) < b.toDto := by
    rw [unordered, anyNeighbours_eq_false]
    simp only [decide_eq_false_iff_not, not_le]
    rw [List.isChain_iff_pairwise, List.pairwise_map]
  rw [hchain, @textsAscend_iff _ field]
  constructor
  · intro htexts a ha b hb hlt
    obtain ⟨i, hi, rfl⟩ := List.mem_iff_getElem.1 ha
    obtain ⟨j, hj, rfl⟩ := List.mem_iff_getElem.1 hb
    rcases lt_trichotomy i j with hij | rfl | hij
    · exact List.pairwise_iff_getElem.1 htexts i j hi hj hij
    · exact absurd hlt (lt_irrefl _)
    · exact absurd (List.pairwise_iff_getElem.1 h j i hj hi hij) (not_lt.2 hlt.le)
  · intro htexts
    exact h.imp_of_mem fun {a b} ha hb hlt => htexts a ha b hb hlt

/-! ## The subgraph -/

variable {F : Type} [Binary64 F]

/-- The limits cover the sizes of a hydrated collection. -/
structure ApiLimits.Cover (limits : ApiLimits) (h : HydratedSubgraph F) : Prop where
  nodes : h.nodes.length ≤ limits.maximumSubgraphNodes
  edges : h.edges.length ≤ limits.maximumSubgraphEdges
  nodeNames : ∀ n ∈ h.nodes, (strBytes n.name.asStr).length ≤ limits.maximumNameBytes
  payloads : ∀ n ∈ h.nodes, n.payload.asBytes.length ≤ limits.maximumPayloadBytes
  relationNames : ∀ e ∈ h.edges,
    (strBytes e.relationKind.name.asStr).length ≤ limits.maximumNameBytes
  profileEntries : ∀ p ∈ h.profile, p.entries.length ≤ limits.maximumProfileEntries

omit [Binary64 F] in
lemma ApiLimits.cover_iff {limits : ApiLimits} {h : HydratedSubgraph F} : limits.Cover h ↔
    h.nodes.length ≤ limits.maximumSubgraphNodes ∧ h.edges.length ≤ limits.maximumSubgraphEdges ∧
      (∀ n ∈ h.nodes, (strBytes n.name.asStr).length ≤ limits.maximumNameBytes) ∧
      (∀ n ∈ h.nodes, n.payload.asBytes.length ≤ limits.maximumPayloadBytes) ∧
      (∀ e ∈ h.edges, (strBytes e.relationKind.name.asStr).length ≤ limits.maximumNameBytes) ∧
      ∀ p ∈ h.profile, p.entries.length ≤ limits.maximumProfileEntries := by
  constructor
  · exact fun c => ⟨c.nodes, c.edges, c.nodeNames, c.payloads, c.relationNames, c.profileEntries⟩
  · rintro ⟨hnodes, hedges, hnodeNames, hpayloads, hrelationNames, hentries⟩
    exact ⟨hnodes, hedges, hnodeNames, hpayloads, hrelationNames, hentries⟩

instance (limits : ApiLimits) (h : HydratedSubgraph F) : Decidable (limits.Cover h) :=
  decidable_of_iff _ ApiLimits.cover_iff.symm

/-- The confirmed and the other nodes and edges of a collection, and the published relation kinds
when a profile is given, have texts in the order of their numbers. -/
structure HydrationView.InTextOrder (engine : HydrationView) (s : Subgraph)
    (profile : Option RelationProfile) : Prop where
  nodes : TextsAscend (s.handles.nodes.filter engine.confirmsNode)
  missingNodes : TextsAscend (s.handles.nodes.filter fun id => !engine.confirmsNode id)
  edges : TextsAscend ((s.handles.edges.map (·.edgeId)).filter engine.confirmsEdge)
  missingEdges : TextsAscend
    ((s.handles.edges.map (·.edgeId)).filter fun id => !engine.confirmsEdge id)
  relationKinds : profile.isSome = true → ∀ ids, engine.execution = .ok ids → TextsAscend ids

/-- Covered sizes and valid numbers pass their checks. -/
lemma toDto_checks {h : HydratedSubgraph F} {limits : ApiLimits} (hlimits : limits.Cover h)
    (hfinite : ∀ e ∈ h.edges, e.evaluation.Finite) :
    boundedLen .subgraphNodes limits.maximumSubgraphNodes h.toDto.nodes.length = .ok () ∧
    boundedLen .subgraphEdges limits.maximumSubgraphEdges h.toDto.edges.length = .ok () ∧
    (h.toDto.nodes.forM fun node => node.validateBoundary limits) = .ok () ∧
    (h.toDto.edges.forM fun edge => edge.validateBoundary limits) = .ok () := by
  refine ⟨boundedLen_eq_ok ?_, boundedLen_eq_ok ?_, forM_eq_ok _ fun n hn => ?_,
    forM_eq_ok _ fun e he => ?_⟩
  · rw [HydratedSubgraph.toDto, List.length_map]
    exact hlimits.nodes
  · rw [HydratedSubgraph.toDto, List.length_map]
    exact hlimits.edges
  · obtain ⟨record, hrecord, rfl⟩ := List.mem_map.1 hn
    exact NodeRecord.toDto_boundary (hlimits.nodeNames record hrecord)
      (hlimits.payloads record hrecord)
  · obtain ⟨edge, hedge, rfl⟩ := List.mem_map.1 he
    exact HydratedEdge.toDto_boundary (hlimits.relationNames edge hedge) (hfinite edge hedge)

/-- The check of the profile of a hydrated collection. -/
lemma profile_boundary_iff {engine : HydrationView} {s : Subgraph} {profile : Option RelationProfile}
    {h : HydratedSubgraph F} (hydrates : engine.Hydrates s profile h) {limits : ApiLimits}
    (hlimits : limits.Cover h) :
    (∀ p ∈ h.profile, p.toDto.validateBoundary limits = .ok ()) ↔
      (profile.isSome = true → ∀ ids, engine.execution = .ok ids → TextsAscend ids) := by
  have hone : ∀ p ∈ h.profile, ∀ ids, engine.execution = .ok ids →
      (p.toDto.validateBoundary limits = .ok () ↔ TextsAscend ids) := by
    intro p hp ids hids
    obtain ⟨ids', hids', hkinds⟩ := hydrates.profile_kinds p hp
    obtain rfl := Except.ok.inj (hids.symm.trans hids')
    have hdistinct : (p.entries.map Prod.fst).Nodup := by
      rw [hkinds]
      exact (engine.ascending ids hids).imp fun hlt => hlt.ne
    rw [RelationProfile.toDto_boundary (hlimits.profileEntries p hp), ← hkinds]
    exact toDto_validate_iff hdistinct
  rw [← hydrates.profile_isSome]
  constructor
  · intro hall hsome ids hids
    obtain ⟨p, hp⟩ := Option.isSome_iff_exists.1 hsome
    exact (hone p hp ids hids).1 (hall p hp)
  · intro htexts p hp
    obtain ⟨ids, hids, -⟩ := hydrates.profile_kinds p hp
    exact (hone p hp ids hids).2 (htexts (Option.isSome_of_mem hp) ids hids)

/-- Under limits that cover it, a hydrated collection passes the check of the boundary exactly when
the texts of its identifiers are ordered as the identifiers. -/
theorem hydratedSubgraph_boundary_iff {engine : HydrationView} {s : Subgraph}
    {profile : Option RelationProfile} {h : HydratedSubgraph F}
    (hrun : engine.hydrateSubgraph s profile = .ok h) {limits : ApiLimits}
    (hlimits : limits.Cover h) :
    h.toDto.validateBoundary limits = .ok () ↔ engine.InTextOrder s profile := by
  have hydrates := HydrationView.hydrateSubgraph_spec hrun
  have hnodesAscend : s.handles.nodes.Pairwise (· < ·) := s.nodes.keys_pairwise
  have hedgesAscend : (s.handles.edges.map (·.edgeId)).Pairwise (· < ·) := by
    rw [List.pairwise_map]
    exact List.pairwise_map.2 s.edges.sorted
  have hnodes : unordered (h.toDto.nodes.map (·.id)) = false ↔
      TextsAscend (s.handles.nodes.filter engine.confirmsNode) := by
    have hids : h.toDto.nodes.map (·.id) = (h.nodes.map (·.id)).map (·.toDto) := by
      simp [HydratedSubgraph.toDto, NodeRecord.toDto]
    rw [hids, hydrates.nodes]
    exact unordered_toDto (hnodesAscend.filter _)
  have hedges : unordered (h.toDto.edges.map (·.edge.id)) = false ↔
      TextsAscend ((s.handles.edges.map (·.edgeId)).filter engine.confirmsEdge) := by
    have hids : h.toDto.edges.map (·.edge.id) = (h.edges.map (·.edge.id)).map (·.toDto) := by
      simp [HydratedSubgraph.toDto, HydratedEdge.toDto, EdgeRecord.toDto]
    rw [hids, hydrates.edges]
    exact unordered_toDto (hedgesAscend.filter _)
  have hmissingNodes : unordered h.toDto.missingNodeIds = false ↔
      TextsAscend (s.handles.nodes.filter fun id => !engine.confirmsNode id) := by
    rw [← hydrates.missingNodes]
    refine unordered_toDto ?_
    rw [hydrates.missingNodes]
    exact hnodesAscend.filter _
  have hmissingEdges : unordered h.toDto.missingEdgeIds = false ↔
      TextsAscend ((s.handles.edges.map (·.edgeId)).filter fun id => !engine.confirmsEdge id) := by
    rw [← hydrates.missingEdges]
    refine unordered_toDto ?_
    rw [hydrates.missingEdges]
    exact hedgesAscend.filter _
  have hprofile : validateOptionalProfile h.toDto.profile limits = .ok () ↔
      (profile.isSome = true → ∀ ids, engine.execution = .ok ids → TextsAscend ids) := by
    rw [← profile_boundary_iff hydrates hlimits]
    rcases hp : h.profile with _ | p
    · simp [validateOptionalProfile, HydratedSubgraph.toDto, hp]
    · simp [validateOptionalProfile, HydratedSubgraph.toDto, hp]
  have hcomplete : h.toDto.complete =
      (h.toDto.missingNodeIds.isEmpty && h.toDto.missingEdgeIds.isEmpty) := by
    rw [HydratedSubgraph.toDto, List.isEmpty_map, List.isEmpty_map]
    exact hydrates.complete
  obtain ⟨hnodeCount, hedgeCount⟩ := hydrates.counts
  have hbounded := hydrates.bounded
  obtain ⟨hsums, hcounts⟩ := hydrationDiagnostics_valid
    (show h.nodes.length + h.missingNodeIds.length < 2 ^ 64 by omega)
    (show h.edges.length + h.missingEdgeIds.length < 2 ^ 64 by omega)
  have hsizes := toDto_checks hlimits hydrates.finite
  rw [HydratedSubgraphDto.validateBoundary, check_bind_eq_ok, check_bind_eq_ok, check_bind_eq_ok,
    check_bind_eq_ok, and_iff_right hsizes.1, and_iff_right hsizes.2.1, and_iff_right hsizes.2.2.1,
    and_iff_right hsizes.2.2.2, if_neg (not_not.2 hcomplete)]
  -- what is left is the order of the texts
  have hrest : (h.toDto.diagnostics.validateBoundary >>= fun _ =>
      validateHydrationCounts h.toDto.diagnostics
        (h.toDto.nodes.length + h.toDto.missingNodeIds.length)
        (h.toDto.edges.length + h.toDto.missingEdgeIds.length) h.toDto.nodes.length
        h.toDto.edges.length) = .ok () := by
    refine check_bind_eq_ok.2 ⟨hsums, ?_⟩
    simp only [HydratedSubgraph.toDto, List.length_map]
    exact hcounts
  split_ifs with hunordered
  · refine iff_of_false nofun fun horder => ?_
    rw [hnodes.2 horder.nodes, hedges.2 horder.edges, hmissingNodes.2 horder.missingNodes,
      hmissingEdges.2 horder.missingEdges] at hunordered
    cases hunordered
  · rw [Bool.not_eq_true, Bool.or_eq_false_iff, Bool.or_eq_false_iff, Bool.or_eq_false_iff]
      at hunordered
    obtain ⟨⟨⟨horderNodes, horderEdges⟩, horderMissingNodes⟩, horderMissingEdges⟩ := hunordered
    rw [check_bind_eq_ok, hprofile, and_iff_left hrest]
    exact ⟨fun hkinds => ⟨hnodes.1 horderNodes, hmissingNodes.1 horderMissingNodes,
      hedges.1 horderEdges, hmissingEdges.1 horderMissingEdges, hkinds⟩,
      fun horder => horder.relationKinds⟩

/-- Two nodes with an edge each way are confirmed. -/
def bothWaysCalls : List (CatalogCall × WriteAnswer) :=
  [(.insertCandidateBatch [.node ⟨"a"⟩ ⟨[]⟩, .node ⟨"b"⟩ ⟨[7]⟩, .relationKind ⟨"r"⟩,
      .edge (.batchNode 0) (.batchNode 1) (.batchRelationKind 2) ⟨0, BaseWeight.zeroBits_le⟩,
      .edge (.batchNode 1) (.batchNode 0) (.batchRelationKind 2) ⟨0, BaseWeight.zeroBits_le⟩],
      .written),
    (.confirmCandidateBatch [⟨1⟩, ⟨2⟩, ⟨3⟩, ⟨4⟩, ⟨5⟩], .written)]

lemma oneKind_ascending (ids : List RelationId)
    (h : (.ok [⟨1⟩] : Except RoutingUnavailableReason (List RelationId)) = .ok ids) :
    ids.Pairwise (· < ·) := by
  cases h
  exact List.pairwise_singleton _ _

/-- An engine over a catalog, with its one relation kind published. -/
def oneKindEngine (c : Catalog) : HydrationView where
  beginRoute := .ok ()
  maxHydrationHandles := 8
  execution := .ok [⟨1⟩]
  db := c.db
  ascending := oneKind_ascending

/-- The two edges, and one more from each node to a node that is not there. -/
def fourEdges : Subgraph :=
  (((Subgraph.new.putEdge ⟨1⟩ ⟨1⟩ ⟨2⟩).putEdge ⟨2⟩ ⟨2⟩ ⟨1⟩).putEdge ⟨3⟩ ⟨1⟩ ⟨3⟩).putEdge
    ⟨4⟩ ⟨2⟩ ⟨4⟩

def allEnabled : RelationProfile := ⟨[(⟨1⟩, .enabled .one)]⟩

/-- Two nodes and two edges, with names and payloads of a byte. -/
def smallLimits : ApiLimits := ⟨2, 2, 1, 1, 1⟩

lemma textsAscend_pair {k : IdKind} {a b : DurableId k} (h : LeadsUpTo a.asU64.val b.asU64.val)
    (hlt : a < b) : TextsAscend [a, b] := by
  simp only [TextsAscend, List.forall_mem_cons, List.not_mem_nil, false_imp_iff, implies_true,
    and_true]
  exact ⟨⟨fun h => absurd h (lt_irrefl _), fun _ => h⟩,
    fun h => absurd h hlt.asymm, fun h => absurd h (lt_irrefl _)⟩

/-- The two nodes and the two edges are found, and the other ends are missing. -/
theorem hydratedSubgraph_boundary_bothWays :
    ∃ c outs, ∃ h : HydratedSubgraph SoftBinary64,
      catalogMachine.run .fresh bothWaysCalls = some (c, outs) ∧
      (oneKindEngine c).hydrateSubgraph fourEdges (some allEnabled) = .ok h ∧
      h.nodes.map (·.id) = [⟨1⟩, ⟨2⟩] ∧ h.edges.map (·.edge.id) = [⟨1⟩, ⟨2⟩] ∧
      h.missingNodeIds = [⟨3⟩, ⟨4⟩] ∧ h.missingEdgeIds = [⟨3⟩, ⟨4⟩] ∧
      h.toDto.validateBoundary smallLimits = .ok () := by
  have hdecided : (catalogMachine.run .fresh bothWaysCalls).bind (fun r =>
      (((oneKindEngine r.1).hydrateSubgraph fourEdges (some allEnabled)).toOption :
        Option (HydratedSubgraph SoftBinary64)).map fun h =>
          decide (h.nodes.map (·.id) = [⟨1⟩, ⟨2⟩] ∧ h.edges.map (·.edge.id) = [⟨1⟩, ⟨2⟩] ∧
            h.missingNodeIds = [⟨3⟩, ⟨4⟩] ∧ h.missingEdgeIds = [⟨3⟩, ⟨4⟩] ∧
            smallLimits.Cover h)) = some true := by
    decide +kernel
  obtain ⟨⟨c, outs⟩, hcalls, hhydrated⟩ := Option.bind_eq_some_iff.1 hdecided
  obtain ⟨h, hoption, hlists⟩ := Option.map_eq_some_iff.1 hhydrated
  obtain ⟨hnodes, hedges, hmissingNodes, hmissingEdges, hcover⟩ := of_decide_eq_true hlists
  have hrun := toOption_eq_some.1 hoption
  have hydrates := HydrationView.hydrateSubgraph_spec hrun
  have htexts : (oneKindEngine c).InTextOrder fourEdges (some allEnabled) := by
    have hone : LeadsUpTo 1 2 := by decide
    have hthree : LeadsUpTo 3 4 := by decide
    refine ⟨?_, ?_, ?_, ?_, fun _ ids hids => ?_⟩
    · rw [← hydrates.nodes, hnodes]
      exact textsAscend_pair hone (by decide)
    · rw [← hydrates.missingNodes, hmissingNodes]
      exact textsAscend_pair hthree (by decide)
    · rw [← hydrates.edges, hedges]
      exact textsAscend_pair hone (by decide)
    · rw [← hydrates.missingEdges, hmissingEdges]
      exact textsAscend_pair hthree (by decide)
    · cases hids
      intro a ha b hb hlt
      rw [List.mem_singleton.1 ha, List.mem_singleton.1 hb] at hlt
      exact absurd hlt (lt_irrefl _)
  exact ⟨c, outs, h, hcalls, hrun, hnodes, hedges, hmissingNodes, hmissingEdges,
    (hydratedSubgraph_boundary_iff hrun hcover).2 htexts⟩

/-- An engine without confirmed records. -/
def emptyEngine : HydrationView where
  beginRoute := .ok ()
  maxHydrationHandles := 100
  execution := .error (.bundle "")
  db := .empty
  ascending := nofun

/-- A collection of two nodes. -/
def twoNodes (a b : NodeId) : Subgraph := ((Subgraph.new.addNode a).1.addNode b).1

/-- What hydrating two absent nodes returns. -/
def twoMissing (a b : NodeId) : HydratedSubgraph SoftBinary64 := ⟨[], [], [a, b], [], none, false⟩

def noLimits : ApiLimits := ⟨0, 0, 0, 0, 0⟩

lemma noLimits_cover (a b : NodeId) : noLimits.Cover (twoMissing a b) where
  nodes := Nat.zero_le _
  edges := Nat.zero_le _
  nodeNames _ h := absurd h List.not_mem_nil
  payloads _ h := absurd h List.not_mem_nil
  relationNames _ h := absurd h List.not_mem_nil
  profileEntries _ h := absurd h (Option.not_mem_none _)

/-- The missing nodes 9 and 10. -/
theorem nine_and_ten_missing_rejected :
    emptyEngine.hydrateSubgraph (twoNodes ⟨9⟩ ⟨10⟩) none = .ok (twoMissing ⟨9⟩ ⟨10⟩) ∧
      noLimits.Cover (twoMissing ⟨9⟩ ⟨10⟩) ∧
      (twoMissing ⟨9⟩ ⟨10⟩).toDto.validateBoundary noLimits = .error .contextualValidation := by
  refine ⟨rfl, noLimits_cover ⟨9⟩ ⟨10⟩, ?_⟩
  decide +kernel

end PathHydra
