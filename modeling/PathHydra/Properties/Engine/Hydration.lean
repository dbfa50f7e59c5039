import PathHydra.Construction.Engine.Hydration
import PathHydra.Properties.Routing.Independence
import PathHydra.Properties.Store.Sound

/-!
# Hydrated subgraphs

A hydrated collection lists its confirmed nodes and edges and the identifiers of the others, each
list in the order of the collection's own handles (`HydrationView.hydrateSubgraph_spec`).
-/

namespace PathHydra

/-! ## Reading a batch -/

section Batch

variable {k : IdKind} {V : Type}

/-- A loop that files what it finds under each identifier. -/
lemma get_of_foldlM_files (look : DurableId k → Option V)
    {f : SortedMap (DurableId k) V → DurableId k →
      Except CatalogError (SortedMap (DurableId k) V)}
    (hstep : ∀ {m id m'}, f m id = .ok m' →
      ∀ id', m'.get id' = if id' = id then (look id).or (m.get id') else m.get id')
    {ids : List (DurableId k)} {m out : SortedMap (DurableId k) V}
    (h : ids.foldlM f m = .ok out) (id : DurableId k) :
    out.get id = if id ∈ ids then (look id).or (m.get id) else m.get id := by
  induction ids generalizing m with
  | nil =>
    cases h
    simp
  | cons first rest ih =>
    rw [List.foldlM_cons, bind_eq_ok] at h
    obtain ⟨mid, hfirst, hrest⟩ := h
    rw [ih hrest, hstep hfirst]
    by_cases hid : id = first
    · subst hid
      rcases look id with _ | v
      · simp
      · simp
    · simp [hid]

end Batch

lemma mem_distinctIds {k : IdKind} {ids : List (DurableId k)} {id : DurableId k} :
    id ∈ distinctIds ids ↔ id ∈ ids := by
  rw [distinctIds, List.mem_insertionSort, List.mem_dedup]

/-- The confirmed node with an identifier. -/
def confirmedNode (db : Database) (id : NodeId) : Option NodeRecord := (getNodeFromDb db id).toOption

/-- The confirmed edge with an identifier. -/
def confirmedEdge (db : Database) (id : EdgeId) : Option EdgeRecord := (getEdgeFromDb db id).toOption

lemma readBatchNode_get {db : Database} {nodes nodes' : SortedMap NodeId NodeRecord} {id : NodeId}
    (h : readBatchNode db nodes id = .ok nodes') (id' : NodeId) :
    nodes'.get id' = if id' = id then (confirmedNode db id).or (nodes.get id')
      else nodes.get id' := by
  rw [readBatchNode] at h
  rcases hread : getNodeFromDb db id with e | record
  · rw [hread] at h
    split at h
    · cases ‹Except.error e = .ok _›
    · obtain rfl := Except.ok.inj h
      simp [confirmedNode, hread, Except.toOption]
    · cases h
  · rw [hread] at h
    obtain rfl := Except.ok.inj h
    rw [SortedMap.get_insert]
    simp [confirmedNode, hread, Except.toOption]

lemma readBatchEdge_get {db : Database} {edges edges' : SortedMap EdgeId EdgeRecord} {id : EdgeId}
    (h : readBatchEdge db edges id = .ok edges') (id' : EdgeId) :
    edges'.get id' = if id' = id then (confirmedEdge db id).or (edges.get id')
      else edges.get id' := by
  rw [readBatchEdge] at h
  rcases hread : getEdgeFromDb db id with e | record
  · rw [hread] at h
    split at h
    · cases ‹Except.error e = .ok _›
    · obtain rfl := Except.ok.inj h
      simp [confirmedEdge, hread, Except.toOption]
    · cases h
  · rw [hread] at h
    obtain ⟨_, -, h⟩ := bind_eq_ok.1 h
    obtain ⟨_, -, h⟩ := bind_eq_ok.1 h
    obtain rfl := Except.ok.inj h
    rw [SortedMap.get_insert]
    simp [confirmedEdge, hread, Except.toOption]

/-- A batch holds the confirmed ones of the requested records. -/
lemma confirmedRecordsById_eq_ok {db : Database} {nodeIds : List NodeId} {edgeIds : List EdgeId}
    {batch : ConfirmedRecordBatch} (h : confirmedRecordsById db nodeIds edgeIds = .ok batch) :
    (∀ id ∈ nodeIds, batch.node id = confirmedNode db id) ∧
      ∀ id ∈ edgeIds, batch.edge id = confirmedEdge db id := by
  obtain ⟨nodes, hnodes, h⟩ := bind_eq_ok.1 h
  obtain ⟨edges, hedges, h⟩ := bind_eq_ok.1 h
  obtain ⟨kinds, -, h⟩ := bind_eq_ok.1 h
  obtain rfl := Except.ok.inj h
  refine ⟨fun id hid => ?_, fun id hid => ?_⟩
  · have hget := get_of_foldlM_files (confirmedNode db)
      (fun hstep => readBatchNode_get hstep) hnodes id
    rw [if_pos (mem_distinctIds.2 hid), SortedMap.get_empty, Option.or_none] at hget
    exact hget
  · have hget := get_of_foldlM_files (confirmedEdge db)
      (fun hstep => readBatchEdge_get hstep) hedges id
    rw [if_pos (mem_distinctIds.2 hid), SortedMap.get_empty, Option.or_none] at hget
    exact hget

/-! ## Identifiers of records -/

lemma toOption_eq_some {ε α : Type} {x : Except ε α} {a : α} :
    x.toOption = some a ↔ x = .ok a := by
  rcases x with e | b
  · simp [Except.toOption]
  · simp [Except.toOption]

lemma confirmedNode_id {db : Database} {id : NodeId} {record : NodeRecord}
    (h : confirmedNode db id = some record) : record.id = id := by
  have hread := toOption_eq_some.1 h
  rw [getNodeFromDb, getRecord] at hread
  split at hread
  · cases hread
  · have hdecode := Reader.complete_eq_ok (mapErr_eq_ok.1 hread)
    obtain ⟨found, _, hid, hdecode⟩ := Reader.bind_eq_ok.1 hdecode
    obtain ⟨_, _, -, hdecode⟩ := Reader.bind_eq_ok.1 hdecode
    obtain ⟨_, _, -, hdecode⟩ := Reader.bind_eq_ok.1 hdecode
    obtain ⟨rfl, -⟩ := Reader.pure_eq_ok.1 hdecode
    rw [(checkedId_eq_ok hid).2]

lemma confirmedEdge_id {db : Database} {id : EdgeId} {record : EdgeRecord}
    (h : confirmedEdge db id = some record) : record.id = id := by
  have hread := toOption_eq_some.1 h
  rw [getEdgeFromDb, getRecord] at hread
  split at hread
  · cases hread
  · have hdecode := Reader.complete_eq_ok (mapErr_eq_ok.1 hread)
    obtain ⟨found, _, hid, hdecode⟩ := Reader.bind_eq_ok.1 hdecode
    iterate 4 obtain ⟨_, _, -, hdecode⟩ := Reader.bind_eq_ok.1 hdecode
    obtain ⟨rfl, -⟩ := Reader.pure_eq_ok.1 hdecode
    rw [(checkedId_eq_ok hid).2]

/-! ## Hydrating a collection -/

variable {F : Type} [Binary64 F]

/-- Every effective weight in the evaluation is finite. -/
def EdgeEvaluation.Finite : EdgeEvaluation F → Prop
  | .enabled _ effectiveWeight => Binary64.isFinite effectiveWeight = true
  | _ => True

lemma hydrateEdge_eq_ok {edge : EdgeRecord} {batch : ConfirmedRecordBatch}
    {uses : Option (SortedMap RelationId RelationUse)} {out : HydratedEdge F}
    (h : hydrateEdge edge batch uses = .ok out) : out.edge = edge ∧ out.evaluation.Finite := by
  obtain ⟨kind, -, h⟩ := bind_eq_ok.1 h
  obtain ⟨evaluation, hevaluation, h⟩ := bind_eq_ok.1 h
  obtain rfl := Except.ok.inj h
  refine ⟨rfl, ?_⟩
  rcases uses with _ | uses
  · obtain rfl := Except.ok.inj hevaluation
    trivial
  · dsimp only [evaluateEdge] at hevaluation
    split at hevaluation
    · cases hevaluation
    · obtain rfl := Except.ok.inj hevaluation
      trivial
    · obtain ⟨weight, hweight, hevaluation⟩ := bind_eq_ok.1 hevaluation
      obtain rfl := Except.ok.inj hevaluation
      have heffective := mapErr_eq_ok.1 hweight
      rw [effectiveWeight] at heffective
      split_ifs at heffective with hfinite
      obtain rfl := Except.ok.inj heffective
      exact hfinite

namespace HydrationView

variable {engine : HydrationView}

lemma hydrateEdgeHandle_eq_ok {batch : ConfirmedRecordBatch}
    {uses : Option (SortedMap RelationId RelationUse)} {id : EdgeId} {out : HydratedEdgeResult F}
    (h : hydrateEdgeHandle batch uses id = .ok out) :
    out.requestedEdgeId = id ∧ out.state.map (·.edge) = batch.edge id ∧
      ∀ edge ∈ out.state, edge.evaluation.Finite := by
  rw [hydrateEdgeHandle] at h
  rcases hedge : batch.edge id with _ | edge
  · rw [hedge] at h
    obtain rfl := Except.ok.inj h
    exact ⟨rfl, rfl, nofun⟩
  · rw [hedge] at h
    obtain ⟨hydrated, hhydrated, h⟩ := bind_eq_ok.1 h
    obtain rfl := Except.ok.inj h
    obtain ⟨hsame, hfinite⟩ := hydrateEdge_eq_ok hhydrated
    refine ⟨rfl, congrArg some hsame, fun edge' hedge' => ?_⟩
    obtain rfl := Option.some.inj hedge'
    exact hfinite

omit [Binary64 F] in
/-- Filing the answers keeps their order. -/
lemma foldlM_fileEdge {evidence : SortedMap EdgeId (NodeId × NodeId)}
    {results : List (HydratedEdgeResult F)} {filed out : List (HydratedEdge F) × List EdgeId}
    (h : results.foldlM (fileEdge evidence) filed = .ok out) :
    out.1 = filed.1 ++ results.filterMap (·.state) ∧
      out.2 = filed.2 ++ (results.filter (·.state.isNone)).map (·.requestedEdgeId) := by
  induction results generalizing filed with
  | nil =>
    cases h
    simp
  | cons result rest ih =>
    rw [List.foldlM_cons, bind_eq_ok] at h
    obtain ⟨mid, hfirst, hrest⟩ := h
    obtain ⟨hfound, hmissing⟩ := ih hrest
    rw [fileEdge] at hfirst
    rcases hstate : result.state with _ | edge
    · rw [hstate] at hfirst
      obtain rfl := Except.ok.inj hfirst
      simp [hfound, hmissing, hstate]
    · rw [hstate] at hfirst
      obtain ⟨_, -, hfirst⟩ := bind_eq_ok.1 hfirst
      obtain rfl := Except.ok.inj hfirst
      simp [hfound, hmissing, hstate]

/-- The profile of an answer lists the published relation kinds. -/
lemma canonicalProfile_eq_ok {profile canonical : Option RelationProfile}
    (h : engine.canonicalProfile profile = .ok canonical) :
    canonical.isSome = profile.isSome ∧ ∀ p ∈ canonical, ∃ ids, engine.execution = .ok ids ∧
      p.entries.map Prod.fst = ids := by
  rcases profile with _ | profile
  · obtain rfl := Except.ok.inj h
    exact ⟨rfl, nofun⟩
  · obtain ⟨ids, hids, h⟩ := bind_eq_ok.1 h
    obtain ⟨packed, hpacked, h⟩ := bind_eq_ok.1 h
    obtain rfl := Except.ok.inj h
    have hexecution := mapErr_eq_ok.1 hids
    have hpack := mapErr_eq_ok.1 hpacked
    have hnodup : ids.Nodup := (engine.ascending ids hexecution).imp fun hlt => hlt.ne
    refine ⟨rfl, fun p hp => ⟨ids, hexecution, ?_⟩⟩
    obtain rfl := Option.some.inj hp
    rw [RelationProfile.packRelationIds_canonical hnodup hpack,
      List.map_fst_zip (RelationProfile.packRelationIds_length hnodup hpack).ge]

/-- The node is confirmed. -/
def confirmsNode (engine : HydrationView) (id : NodeId) : Bool := (confirmedNode engine.db id).isSome

/-- The edge is confirmed. -/
def confirmsEdge (engine : HydrationView) (id : EdgeId) : Bool := (confirmedEdge engine.db id).isSome

/-- What a hydrated collection holds. -/
structure Hydrates (engine : HydrationView) (s : Subgraph) (profile : Option RelationProfile)
    (h : HydratedSubgraph F) : Prop where
  nodes : h.nodes.map (·.id) = s.handles.nodes.filter engine.confirmsNode
  missingNodes : h.missingNodeIds = s.handles.nodes.filter fun id => !engine.confirmsNode id
  edges : h.edges.map (·.edge.id) =
    (s.handles.edges.map (·.edgeId)).filter engine.confirmsEdge
  missingEdges : h.missingEdgeIds =
    (s.handles.edges.map (·.edgeId)).filter fun id => !engine.confirmsEdge id
  finite : ∀ e ∈ h.edges, e.evaluation.Finite
  complete : h.complete = (h.missingNodeIds.isEmpty && h.missingEdgeIds.isEmpty)
  profile_isSome : h.profile.isSome = profile.isSome
  profile_kinds : ∀ p ∈ h.profile, ∃ ids, engine.execution = .ok ids ∧
    p.entries.map Prod.fst = ids
  bounded : s.handles.nodes.length + s.handles.edges.length < 2 ^ 64

/-- Every handle is found or missing. -/
lemma Hydrates.counts {s : Subgraph} {profile : Option RelationProfile} {h : HydratedSubgraph F}
    (hydrates : engine.Hydrates s profile h) :
    h.nodes.length + h.missingNodeIds.length = s.handles.nodes.length ∧
      h.edges.length + h.missingEdgeIds.length = s.handles.edges.length := by
  have hnodes := congrArg List.length hydrates.nodes
  have hedges := congrArg List.length hydrates.edges
  rw [List.length_map] at hnodes hedges
  rw [hnodes, hedges, hydrates.missingNodes, hydrates.missingEdges,
    ← List.length_map (f := EdgeHandle.edgeId)]
  exact ⟨(List.length_eq_length_filter_add _).symm, (List.length_eq_length_filter_add _).symm⟩

/-- Records looked up by identifiers that they carry. -/
lemma map_filterMap_look {k : IdKind} {V : Type} {look : DurableId k → Option V}
    {idOf : V → DurableId k} (hid : ∀ {id v}, look id = some v → idOf v = id)
    (ids : List (DurableId k)) :
    (ids.filterMap look).map idOf = ids.filter fun id => (look id).isSome := by
  induction ids with
  | nil => rfl
  | cons id rest ih =>
    rcases hlook : look id with _ | v
    · simp [hlook, ih]
    · simp [hlook, ih, hid hlook]

/-- Each edge answer is the confirmed edge of its handle. -/
lemma edge_answers {batch : ConfirmedRecordBatch}
    {uses : Option (SortedMap RelationId RelationUse)} {ids : List EdgeId}
    {results : List (HydratedEdgeResult F)}
    (hread : ∀ id ∈ ids, batch.edge id = confirmedEdge engine.db id)
    (hall : List.Forall₂ (fun id out => hydrateEdgeHandle batch uses id = .ok out) ids results) :
    (results.filterMap (·.state)).map (·.edge.id) = ids.filter engine.confirmsEdge ∧
      (results.filter (·.state.isNone)).map (·.requestedEdgeId) =
        (ids.filter fun id => !engine.confirmsEdge id) ∧
      ∀ e ∈ results.filterMap (·.state), e.evaluation.Finite := by
  induction hall with
  | nil => exact ⟨rfl, rfl, nofun⟩
  | @cons id out ids results hout _ ih =>
    obtain ⟨hid, hstate, hfinite⟩ := hydrateEdgeHandle_eq_ok hout
    obtain ⟨ihfound, ihmissing, ihfinite⟩ := ih fun id' hid' => hread id' (by simp [hid'])
    rw [hread id (by simp)] at hstate
    rcases hout : out.state with _ | edge
    · have hnone : engine.confirmsEdge id = false := by
        rw [confirmsEdge, ← hstate, hout]
        rfl
      refine ⟨by simp [hout, hnone, ihfound], by simp [hout, hnone, ihmissing, hid], ?_⟩
      simpa only [List.filterMap_cons, hout] using ihfinite
    · rw [hout, Option.map_some, eq_comm] at hstate
      have hsome : engine.confirmsEdge id = true := by
        rw [confirmsEdge, hstate]
        rfl
      refine ⟨by simp [hout, hsome, ihfound, confirmedEdge_id hstate],
        by simp [hout, hsome, ihmissing], fun e he => ?_⟩
      simp only [List.filterMap_cons, hout, List.mem_cons] at he
      rcases he with rfl | he
      · exact hfinite e hout
      · exact ihfinite e he

/-- What `hydrate_subgraph` returns. -/
lemma hydrateSubgraph_spec {s : Subgraph} {profile : Option RelationProfile}
    {h : HydratedSubgraph F} (hrun : engine.hydrateSubgraph s profile = .ok h) :
    engine.Hydrates s profile h := by
  obtain ⟨_, -, hrun⟩ := bind_eq_ok.1 hrun
  obtain ⟨response, hresponse, hrun⟩ := bind_eq_ok.1 hrun
  obtain ⟨⟨edges, missingEdges⟩, hfiled, hrun⟩ := bind_eq_ok.1 hrun
  obtain rfl := Except.ok.inj hrun
  obtain ⟨_, -, hresponse⟩ := bind_eq_ok.1 hresponse
  obtain ⟨_, hlimit, hresponse⟩ := bind_eq_ok.1 hresponse
  obtain ⟨canonical, hcanonical, hresponse⟩ := bind_eq_ok.1 hresponse
  obtain ⟨batch, hbatch, hresponse⟩ := bind_eq_ok.1 hresponse
  obtain ⟨results, hresults, hresponse⟩ := bind_eq_ok.1 hresponse
  obtain rfl := Except.ok.inj hresponse
  obtain ⟨hbatchNodes, hbatchEdges⟩ := confirmedRecordsById_eq_ok (mapErr_eq_ok.1 hbatch)
  obtain ⟨hedges, hmissing⟩ := foldlM_fileEdge hfiled
  rw [List.nil_append] at hedges hmissing
  dsimp only at hedges hmissing
  obtain ⟨hprofile, hkinds⟩ := canonicalProfile_eq_ok hcanonical
  obtain ⟨hfound, hlost, hfinite⟩ := edge_answers hbatchEdges (mapM_ok_forall₂ hresults)
  have hnodeStates : (s.handles.nodes.map fun id =>
      (⟨id, batch.node id⟩ : HydratedNodeResult)).filterMap (·.state) =
        s.handles.nodes.filterMap (confirmedNode engine.db) := by
    rw [List.filterMap_map]
    exact List.filterMap_congr fun id hid => hbatchNodes id hid
  have hnodesMissing : ((s.handles.nodes.map fun id =>
      (⟨id, batch.node id⟩ : HydratedNodeResult)).filter (·.state.isNone)).map (·.requestedNodeId) =
        s.handles.nodes.filter fun id => !engine.confirmsNode id := by
    rw [List.filter_map, List.map_map]
    have hfilter : s.handles.nodes.filter ((fun r : HydratedNodeResult => r.state.isNone) ∘
        fun id => ⟨id, batch.node id⟩) =
          s.handles.nodes.filter fun id => !engine.confirmsNode id := by
      refine List.filter_congr fun id hid => ?_
      rw [Function.comp_apply, hbatchNodes id hid, confirmsNode, Option.not_isSome]
    rw [hfilter]
    exact List.map_id _
  -- the limit on handles adds up the two counts, and the sum did not overflow
  have hbounded : s.handles.nodes.length + s.handles.edges.length < 2 ^ 64 := by
    obtain ⟨requested, hrequested, -⟩ := bind_eq_ok.1 hlimit
    have := (checkedAdd64_eq_some.1 (okOr_eq_ok.1 hrequested)).1
    rwa [List.length_map] at this
  refine ⟨?_, hnodesMissing, ?_, ?_, ?_, rfl, hprofile, hkinds, hbounded⟩
  · rw [hnodeStates]
    exact map_filterMap_look confirmedNode_id s.handles.nodes
  · exact hedges ▸ hfound
  · exact hmissing.trans hlost
  · exact hedges ▸ hfinite

end HydrationView

end PathHydra
