import PathHydra.Construction.Engine.PathHydration
import PathHydra.Properties.Api.Tally
import PathHydra.Properties.Engine.Layers
import PathHydra.Properties.Routing.Compile
import PathHydra.Properties.Store.Identity
import PathHydra.Properties.Subgraph

/-!
# Hydration after later mutations

A caller keeps an answer while the graph changes.  Each step of a returned path reports a record of
the confirmed graph the route saw (`Tables.Evidences`), and since an identifier never comes to mean
something else, in every later state that record is there as it was or gone.  So hydrating the path
repeats the arithmetic of the route or reports exactly what is gone, and never an integrity error
(`hydration_sound`).  The same holds of a collection built from returned paths.
-/

namespace PathHydra

/-! ## Reading records of a sound catalog -/

variable {c c' : Catalog} {t t' : Tables}

/-- The edges are edges of the tables. -/
def Tables.HoldsEdges (t : Tables) (edges : SortedMap EdgeId EdgeRecord) : Prop :=
  ∀ id e, edges.get id = some e → t.edges.get id = some e

/-- The relation kinds are relation kinds of the tables. -/
def Tables.HoldsRelations (t : Tables) (kinds : SortedMap RelationId RelationRecord) : Prop :=
  ∀ id r, kinds.get id = some r → t.relations.get id = some r

lemma Tables.HoldsRelations.empty (t : Tables) : t.HoldsRelations .empty := by
  intro id r hr
  rw [SortedMap.get_empty] at hr
  cases hr

lemma Tables.HoldsRelations.insert {kinds : SortedMap RelationId RelationRecord} {id : RelationId}
    {r : RelationRecord} (h : t.HoldsRelations kinds) (hr : t.relations.get id = some r) :
    t.HoldsRelations (kinds.insert id r) := by
  intro id' r' hr'
  rw [SortedMap.get_insert] at hr'
  split_ifs at hr' with hid
  · rw [hid, hr, hr']
  · exact h id' r' hr'

/-- The batch holds what the tables hold under the identifiers, and the relation kinds of its
edges. -/
structure ConfirmedRecordBatch.Reads (batch : ConfirmedRecordBatch) (t : Tables)
    (nodeIds : List NodeId) (edgeIds : List EdgeId) : Prop where
  node : ∀ id ∈ nodeIds, batch.node id = t.nodes.get id
  edge : ∀ id ∈ edgeIds, batch.edge id = t.edges.get id
  relationKind : ∀ id e, batch.edge id = some e → ∃ r, batch.relationKind e.relationKind = some r ∧
    t.relations.get e.relationKind = some r

namespace CatalogInv

lemma hasEdge (inv : CatalogInv c t) {id : EdgeId} {e : EdgeRecord} (h : t.edges.get id = some e) :
    t.HasEdge e := by
  rw [Tables.HasEdge, inv.represents.edges.id_eq _ _ h]
  exact h

lemma confirmedNode_eq (inv : CatalogInv c t) (id : NodeId) :
    confirmedNode c.db id = t.nodes.get id := by
  rw [confirmedNode, inv.represents.getNode_eq]
  cases t.nodes.get id with
  | none => rfl
  | some r => rfl

lemma confirmedEdge_eq (inv : CatalogInv c t) (id : EdgeId) :
    confirmedEdge c.db id = t.edges.get id := by
  rw [confirmedEdge, inv.represents.getEdge_eq]
  cases t.edges.get id with
  | none => rfl
  | some r => rfl

lemma readBatchNode_ok (inv : CatalogInv c t) (nodes : SortedMap NodeId NodeRecord) (id : NodeId) :
    ∃ nodes', readBatchNode c.db nodes id = .ok nodes' := by
  rw [readBatchNode, inv.represents.getNode_eq]
  cases t.nodes.get id with
  | none => exact ⟨_, rfl⟩
  | some r => exact ⟨_, rfl⟩

lemma requireBatchEndpoint_ok (inv : CatalogInv c t) (id : EdgeId) {endpoint : NodeId}
    (h : ∃ r, t.nodes.get endpoint = some r) : requireBatchEndpoint c.db id endpoint = .ok () := by
  obtain ⟨r, hr⟩ := h
  rw [requireBatchEndpoint, inv.represents.getNode_eq, hr]
  rfl

/-- Reading an edge succeeds and files edges of the graph only. -/
lemma readBatchEdge_ok (inv : CatalogInv c t) {edges : SortedMap EdgeId EdgeRecord} {id : EdgeId}
    (h : t.HoldsEdges edges) :
    ∃ edges', readBatchEdge c.db edges id = .ok edges' ∧ t.HoldsEdges edges' := by
  rw [readBatchEdge, inv.represents.getEdge_eq]
  cases hedge : t.edges.get id with
  | none => exact ⟨_, rfl, h⟩
  | some e =>
    obtain ⟨hsource, hdestination, -⟩ := inv.consistent.edge e (inv.hasEdge hedge)
    refine ⟨edges.insert id e, ?_, fun id' e' he' => ?_⟩
    · rw [okOr_some]
      simp only [inv.requireBatchEndpoint_ok id hsource, inv.requireBatchEndpoint_ok id hdestination]
      rfl
    · rw [SortedMap.get_insert] at he'
      split_ifs at he' with hid
      · rw [hid, hedge, he']
      · exact h id' e' he'

/-- Records read from a sound catalog are those of its graph, and reading them never fails. -/
lemma confirmedRecordsById_ok (inv : CatalogInv c t) (nodeIds : List NodeId)
    (edgeIds : List EdgeId) : ∃ batch, confirmedRecordsById c.db nodeIds edgeIds = .ok batch ∧
      batch.Reads t nodeIds edgeIds := by
  have hnodes : Ensures ((distinctIds nodeIds).foldlM (readBatchNode c.db) .empty)
      (fun _ => True) fun _ => False := by
    apply ensures_foldlM (I := fun _ _ => True) _ _ trivial
    intro pre id post nodes _ _
    obtain ⟨nodes', hread⟩ := inv.readBatchNode_ok nodes id
    rw [hread]
    trivial
  have hedges : Ensures ((distinctIds edgeIds).foldlM (readBatchEdge c.db) .empty)
      t.HoldsEdges fun _ => False := by
    apply ensures_foldlM (I := fun _ => t.HoldsEdges)
    · intro pre id post edges _ hkept
      obtain ⟨edges', hread, hkept'⟩ := inv.readBatchEdge_ok hkept
      rw [hread]
      exact hkept'
    · intro id e he
      rw [SortedMap.get_empty] at he
      cases he
  have hbatch : Ensures (confirmedRecordsById c.db nodeIds edgeIds)
      (fun batch => t.HoldsRelations batch.relationKinds) fun _ => False := by
    apply hnodes.bind
    intro nodes _
    apply hedges.bind
    intro edges hkept
    refine Ensures.bind (Q := t.HoldsRelations) ?_ fun _ hkinds => ensures_pure hkinds
    apply ensures_foldlM (I := fun _ => t.HoldsRelations) _ _ (.empty t)
    intro pre id post kinds hsplit hkinds
    have hmem : id ∈ edges.entries.map (·.2.relationKind) := by
      apply mem_distinctIds.1
      rw [hsplit]
      exact List.mem_append_right _ List.mem_cons_self
    obtain ⟨⟨edge, e⟩, hentry, rfl⟩ := List.mem_map.1 hmem
    have hedge := hkept edge e (SortedMap.get_of_mem hentry)
    obtain ⟨-, -, r, hr⟩ := inv.consistent.edge e (inv.hasEdge hedge)
    rw [readBatchRelationKind, inv.represents.getRelation_eq, hr]
    exact hkinds.insert hr
  obtain ⟨batch, hread, hkinds⟩ := hbatch.exists_ok
  obtain ⟨hnode, hedge⟩ := confirmedRecordsById_eq_ok hread
  refine ⟨batch, hread, fun id hid => ?_, fun id hid => ?_, fun id e he => ?_⟩
  · rw [hnode id hid, inv.confirmedNode_eq]
  · rw [hedge id hid, inv.confirmedEdge_eq]
  · obtain ⟨r, hr⟩ := Option.isSome_iff_exists.1 (confirmedRecordsById_relationKind hread he)
    exact ⟨r, hr, hkinds _ r hr⟩

end CatalogInv

/-! ## What a returned path reports -/

variable {F : Type} [Binary64 F]

/-- The step reports the data of the edge, and its weight is finite. -/
structure EdgeRecord.ReportedBy (e : EdgeRecord) (step : PathStep F) : Prop where
  source : e.source = step.source
  destination : e.destination = step.destination
  relationKind : e.relationKind = step.relationId
  baseWeight : e.baseWeight = step.baseWeight
  effective : effectiveWeight e.baseWeight step.multiplier = .ok step.effectiveWeight

/-- The steps of the path report edges of the tables, and their weights sum up to its distance. -/
structure Tables.Evidences (t : Tables) (path : RoutePath F) : Prop where
  edges : ∀ step ∈ path.steps, ∃ e, t.edges.get step.edgeId = some e ∧ e.ReportedBy step
  sum_eq : sumSteps path.steps = .ok path.logicalDistance

/-- A genuine step of an image reports one of the records the image denotes. -/
lemma reported_of_genuine {image : RoutingImage} {records : ConfirmedGraphRecords}
    {profile : RelationProfile} {step : PathStep F} (h : step.Genuine image profile)
    (hdenotes : image.Denotes records)
    (hfinite : Binary64.isFinite step.effectiveWeight = true) :
    ∃ e ∈ records.edges, e.id = step.edgeId ∧ e.ReportedBy step := by
  obtain ⟨⟨source, adjacency, edge, hedge, hsource, hdestination, hid, hrelation, hweight⟩, -,
    heffective⟩ := h
  obtain ⟨start, stop, hrange, hstart, hstop, hat⟩ := hedge
  obtain ⟨start', stop', es, hrange', hperm, -, hall⟩ := hdenotes.outgoing source step.source hsource
  obtain ⟨rfl, rfl⟩ : start = start' ∧ stop = stop' := by
    simpa using hrange.symm.trans hrange'
  have hplace : (List.range' start (stop - start))[adjacency - start]? = some adjacency := by
    rw [List.getElem?_range' (by omega)]
    congr 1
    omega
  obtain ⟨e, he, destination, position, hdense, -, hread⟩ := getElem?_of_forall₂ hall.flip hplace
  obtain rfl := Option.some.inj (hat.symm.trans hread)
  have hmem : e ∈ records.edges.filter fun e => decide (e.source = step.source) :=
    hperm.mem_iff.1 (List.mem_of_getElem? he)
  obtain ⟨hrecord, hfrom⟩ := List.mem_filter.1 hmem
  refine ⟨e, hrecord, hid, of_decide_eq_true hfrom, ?_, hrelation, hweight, ?_⟩
  · have hto := (hdenotes.denseNodeId_iff _ _).1 hdense
    exact Option.some.inj (hto.symm.trans hdestination)
  · have hbase : e.baseWeight = step.baseWeight := hweight
    rw [hbase, effectiveWeight, ← heffective, if_pos hfinite]

/-- A compiled image denotes the records it was compiled from. -/
lemma denotes_of_compile {records : ConfirmedGraphRecords} {image : RoutingImage}
    (h : compileRoutingImage records = .ok image) : image.Denotes records := by
  have hcompilable : records.Compilable := (compile_ensures records).of_ok h
  obtain rfl : records.compiledImage = image :=
    Except.ok.inj (hcompilable.compile_eq.symm.trans h)
  exact hcompilable.denotes

/-- The edges of a returned path are edges of the graph its image was compiled from. -/
lemma evidences_of_route (inv : CatalogInv c t) {records : ConfirmedGraphRecords}
    (hgraph : t.Denotes records) {image : RoutingImage}
    (himage : compileRoutingImage records = .ok image) {request : RoutingRequest}
    {signal : CancellationSignal} {response : RoutingResponse F} {search : CpuSearchDiagnostics}
    (hroute : routeControlled image request signal = .ok (response, search))
    {result : DestinationResult F} (hresult : result ∈ response.results) {route : ExactRoute F}
    {path : RoutePath F} (hstate : result.state = .exact route) (hpath : route.path = some path) :
    t.Evidences path ∧ path.logicalDistance = route.logicalDistance := by
  have wf := compileRoutingImage_wellFormed himage
  have hspec := routeControlled_spec (F := F) wf request signal
  rw [hroute] at hspec
  obtain ⟨-, -, hsame, hgenuine⟩ := (hspec.2.1 result hresult).2 route path hstate hpath
  obtain ⟨_, _, _, -, _, -, -, hsteps⟩ := routeControlled_pathSource wf hroute hresult hstate hpath
  refine ⟨⟨fun step hstep => ?_, hgenuine.sum_eq⟩, hsame⟩
  obtain ⟨e, he, hid, hreported⟩ := reported_of_genuine (hgenuine.steps_genuine step hstep)
    (denotes_of_compile himage) (hsteps.finite step hstep)
  rw [hgraph.edges] at he
  obtain ⟨⟨id, e'⟩, hentry, rfl⟩ := List.mem_map.1 he
  have hget := SortedMap.get_of_mem hentry
  refine ⟨e', ?_, hreported⟩
  rw [← hid, inv.represents.edges.id_eq _ _ hget]
  exact hget

/-- What a later state still holds of the edges of a path is what the path reports. -/
lemma Tables.Evidences.later {path : RoutePath F} (h : t.Evidences path) (hcounted : t.Counted)
    (hevolves : t.Evolves t') {step : PathStep F} (hstep : step ∈ path.steps) {e : EdgeRecord}
    (he : t'.edges.get step.edgeId = some e) : e.ReportedBy step := by
  obtain ⟨old, hold, hreported⟩ := h.edges step hstep
  have hkept : t.edges.get step.edgeId = some e := by
    apply (hevolves.edge _ _ he).resolve_right
    exact not_le.2 (hcounted.edge _ _ hold)
  obtain rfl := Option.some.inj (hold.symm.trans hkept)
  exact hreported

/-! ## Repeating a path -/

/-- The record of a step's edge, its relation kind, and the evaluation the route made. -/
structure HydratedEdge.Shows (db : Database) (step : PathStep F) (hydrated : HydratedEdge F) :
    Prop where
  record : getEdgeFromDb db step.edgeId = .ok hydrated.edge
  kind : getRelationFromDb db hydrated.edge.relationKind = .ok hydrated.relationKind
  evaluates : hydrated.evaluation = .enabled step.multiplier step.effectiveWeight

/-- The records of a path in its order, under the distance of the path and the policies and the
profile of the answer it is from. -/
structure HydratedPath.Shows (db : Database) (response : RoutingResponse F) (path : RoutePath F)
    (hydrated : HydratedPath F) : Prop where
  nodes : List.Forall₂ (fun id r => getNodeFromDb db id = .ok r) path.nodeIds hydrated.nodes
  edges : List.Forall₂ (HydratedEdge.Shows db) path.steps hydrated.edges
  distance : hydrated.logicalDistance = path.logicalDistance
  numericPolicy : hydrated.numericPolicy = response.numericPolicy
  tiePolicy : hydrated.tiePolicy = response.tiePolicy
  profile : hydrated.profile = response.profile

/-- The batch holds the edges of the tables, each with its relation kind. -/
structure ConfirmedRecordBatch.HoldsEdge (batch : ConfirmedRecordBatch) (t : Tables) (id : EdgeId)
    (e : EdgeRecord) : Prop where
  edge : batch.edge id = some e
  stored : t.edges.get id = some e
  relationKind : ∃ r, batch.relationKind e.relationKind = some r ∧
    t.relations.get e.relationKind = some r

section Replay

variable {batch : ConfirmedRecordBatch} {step : PathStep F} {e : EdgeRecord}

/-- A step whose edge is as the path reports it is repeated. -/
lemma hydrateStep_ok (inv : CatalogInv c t) (hheld : batch.HoldsEdge t step.edgeId e)
    (hreported : e.ReportedBy step) (acc : F × List (HydratedEdge F)) {sum : F}
    (hsum : accumulateDistance acc.1 step.effectiveWeight = .ok sum) :
    ∃ edge, hydrateStep batch acc step = .ok (sum, acc.2 ++ [edge]) ∧
      HydratedEdge.Shows c.db step edge := by
  obtain ⟨r, hkind, hstored⟩ := hheld.relationKind
  refine ⟨⟨e, r, .enabled step.multiplier step.effectiveWeight⟩, ?_, ?_, ?_, rfl⟩
  · have hmatches : ¬ (e.source ≠ step.source ∨ e.destination ≠ step.destination ∨
        e.relationKind ≠ step.relationId ∨ e.baseWeight ≠ step.baseWeight) := by
      simp [hreported.source, hreported.destination, hreported.relationKind, hreported.baseWeight]
    have heffective := mapErr_eq_ok (f := HydrateError.routing).2 hreported.effective
    have hextended := mapErr_eq_ok (f := HydrateError.routing).2 hsum
    rw [hydrateStep, hheld.edge, okOr_some, ok_bind, if_neg hmatches, heffective, ok_bind,
      if_neg (not_not.2 rfl), hextended, ok_bind, hkind]
    rfl
  · rw [inv.represents.getEdge_eq, hheld.stored]
    rfl
  · rw [inv.represents.getRelation_eq, hstored]
    rfl

/-- Repeating steps whose edges are as the path reports them repeats their sum. -/
lemma foldlM_hydrateStep (inv : CatalogInv c t) {steps : List (PathStep F)}
    (hsteps : ∀ step ∈ steps, ∃ e, batch.HoldsEdge t step.edgeId e ∧ e.ReportedBy step)
    {start sum : F} (edges : List (HydratedEdge F))
    (hsum : steps.foldlM (fun sum step => accumulateDistance sum step.effectiveWeight) start =
      .ok sum) :
    ∃ found, steps.foldlM (hydrateStep batch) (start, edges) = .ok (sum, edges ++ found) ∧
      List.Forall₂ (HydratedEdge.Shows c.db) steps found := by
  induction steps generalizing start edges with
  | nil =>
    cases hsum
    exact ⟨[], by rw [List.append_nil]; rfl, .nil⟩
  | cons step rest ih =>
    rw [List.foldlM_cons, bind_eq_ok] at hsum
    obtain ⟨mid, hfirst, hrest⟩ := hsum
    obtain ⟨e, hheld, hreported⟩ := hsteps step List.mem_cons_self
    obtain ⟨edge, hedge, hshows⟩ := hydrateStep_ok inv hheld hreported (start, edges) hfirst
    obtain ⟨found, hfound, hall⟩ := ih (fun step hstep => hsteps step (List.mem_cons_of_mem _ hstep))
      (edges ++ [edge]) hrest
    refine ⟨edge :: found, ?_, .cons hshows hall⟩
    rw [List.foldlM_cons, hedge, ok_bind, hfound, List.append_assoc]
    rfl

end Replay

/-- An error other than that of integrity. -/
def HydratePathError.NotIntegrity (error : HydratePathError) : Prop :=
  ∀ reason, error ≠ .shared (.hydration (.integrity reason))

lemma HydrateError.NotIntegrity.shared {error : HydrateError} (h : error.NotIntegrity) :
    (HydratePathError.shared error).NotIntegrity := by
  intro reason heq
  exact h reason (HydratePathError.shared.inj heq)

lemma Ensures.mapErr {ε ε' α : Type} {f : ε → ε'} {x : Except ε α} {Q : α → Prop} {E : ε → Prop}
    {E' : ε' → Prop} (h : Ensures x Q E) (hf : ∀ e, E e → E' (f e)) :
    Ensures (PathHydra.mapErr f x) Q E' := by
  cases x with
  | ok a => exact h
  | error e => exact hf e h

namespace HydrationView

variable {engine : HydrationView} {path : RoutePath F}

/-- The nodes of a path that are no longer confirmed, ascending and without repetition. -/
def goneNodes (engine : HydrationView) (path : RoutePath F) : List NodeId :=
  (distinctIds path.nodeIds).filter fun id => !engine.confirmsNode id

/-- The edges of a path that are no longer confirmed, ascending and without repetition. -/
def goneEdges (engine : HydrationView) (path : RoutePath F) : List EdgeId :=
  (distinctIds path.edgeIds).filter fun id => !engine.confirmsEdge id

lemma checkHydrationLimit_ok {nodes edges : ℕ} (h : nodes + edges ≤ engine.maxHydrationHandles.val) :
    engine.checkHydrationLimit nodes edges = .ok () := by
  have hadd : checkedAdd64 nodes edges = some (nodes + edges) :=
    checkedAdd64_eq_some.2 ⟨lt_of_le_of_lt h engine.maxHydrationHandles.isLt, rfl⟩
  rw [checkHydrationLimit, hadd, okOr_some, ok_bind, if_neg (not_lt.2 h)]

lemma checkHydrationLimit_ensures {nodes edges : ℕ} :
    Ensures (engine.checkHydrationLimit nodes edges) (fun _ => True) HydrateError.NotIntegrity := by
  apply (ensures_okOr (Q := fun _ => True) (fun _ _ => trivial) fun _ reason => by simp).bind
  intro requested _
  split_ifs
  · intro reason
    simp
  · trivial

omit [Binary64 F] in
/-- What a batch of the path lacks is what is gone. -/
lemma missingOf_eq (inv : CatalogInv c t) (hdb : engine.db = c.db) {batch : ConfirmedRecordBatch}
    (hreads : batch.Reads t path.nodeIds path.edgeIds) :
    missingOf batch path = (engine.goneNodes path, engine.goneEdges path) := by
  have hnodes : ∀ id ∈ distinctIds path.nodeIds,
      (batch.node id).isNone = !engine.confirmsNode id := by
    intro id hid
    rw [hreads.node id (mem_distinctIds.1 hid), confirmsNode, hdb, inv.confirmedNode_eq,
      Option.not_isSome]
  have hedges : ∀ id ∈ distinctIds path.edgeIds,
      (batch.edge id).isNone = !engine.confirmsEdge id := by
    intro id hid
    rw [hreads.edge id (mem_distinctIds.1 hid), confirmsEdge, hdb, inv.confirmedEdge_eq,
      Option.not_isSome]
  rw [missingOf, goneNodes, goneEdges, List.filter_congr hnodes, List.filter_congr hedges]

/-- A path of which nothing is missing, and whose edges are as it reports them, is repeated. -/
lemma replayPath_ok (inv : CatalogInv c t) {batch : ConfirmedRecordBatch}
    (hreads : batch.Reads t path.nodeIds path.edgeIds)
    (hreported : ∀ step ∈ path.steps, ∀ e, t.edges.get step.edgeId = some e → e.ReportedBy step)
    (hsum : sumSteps path.steps = .ok path.logicalDistance) (response : RoutingResponse F)
    {route : ExactRoute F} (hsame : path.logicalDistance = route.logicalDistance)
    (hmissing : missingOf batch path = ([], [])) :
    ∃ hydrated, replayPath batch response route path = .ok hydrated ∧
      hydrated.Shows c.db response path := by
  obtain ⟨hnodes, hedges⟩ := Prod.mk.inj hmissing
  have hrecords : Ensures (path.nodeIds.mapM fun id => okOr HydrateError.noReturn (batch.node id))
      (List.Forall₂ (fun id r => getNodeFromDb c.db id = .ok r) path.nodeIds) fun _ => False := by
    apply ensures_mapM
    intro id hid
    have hthere := List.filter_eq_nil_iff.1 hnodes id (mem_distinctIds.2 hid)
    obtain ⟨r, hr⟩ : ∃ r, batch.node id = some r :=
      Option.ne_none_iff_exists'.1 (by simpa using hthere)
    rw [hr, inv.represents.getNode_eq, ← hreads.node id hid, hr]
    rfl
  have hsteps : ∀ step ∈ path.steps, ∃ e, batch.HoldsEdge t step.edgeId e ∧ e.ReportedBy step := by
    intro step hstep
    have hid : step.edgeId ∈ path.edgeIds := List.mem_map_of_mem hstep
    have hthere := List.filter_eq_nil_iff.1 hedges _ (mem_distinctIds.2 hid)
    obtain ⟨e, he⟩ : ∃ e, batch.edge step.edgeId = some e :=
      Option.ne_none_iff_exists'.1 (by simpa using hthere)
    have hstored := (hreads.edge _ hid).symm.trans he
    exact ⟨e, ⟨he, hstored, hreads.relationKind _ e he⟩, hreported step hstep e hstored⟩
  obtain ⟨nodes, hnodesRead, hall⟩ := hrecords.exists_ok
  obtain ⟨found, hfound, hshows⟩ := foldlM_hydrateStep inv hsteps [] hsum
  have hfits : ¬ (path.logicalDistance ≠ route.logicalDistance ∨
      path.logicalDistance ≠ path.logicalDistance) := by simp [hsame]
  refine ⟨⟨nodes, found, path.logicalDistance, response.numericPolicy, response.tiePolicy,
    response.profile⟩, ?_, hall, hshows, rfl, rfl, rfl, rfl⟩
  rw [replayPath, hnodesRead, ok_bind, hfound, ok_bind]
  dsimp only
  rw [if_neg hfits]
  rfl

section Path

variable (inv : CatalogInv c t) (hdb : engine.db = c.db)
  (hreported : ∀ step ∈ path.steps, ∀ e, t.edges.get step.edgeId = some e → e.ReportedBy step)
  (hsum : sumSteps path.steps = .ok path.logicalDistance) {response : RoutingResponse F}
  {position : ℕ} {route : ExactRoute F}
  (hexact : response.exactPath position = .ok (route, path))
  (hsame : path.logicalDistance = route.logicalDistance)

include inv hdb hreported hsum hexact hsame

/-- Within the limit, a path is repeated when nothing is gone, and otherwise the answer lists what
is. -/
lemma hydratePath_spec (hbegins : engine.beginRoute = .ok ())
    (hlimit : path.nodeIds.length + path.edgeIds.length ≤ engine.maxHydrationHandles.val) :
    (engine.goneNodes path = [] → engine.goneEdges path = [] → ∃ hydrated,
      engine.hydratePath response position = .ok hydrated ∧
        hydrated.Shows engine.db response path) ∧
    (engine.goneNodes path ≠ [] ∨ engine.goneEdges path ≠ [] →
      engine.hydratePath response position =
        .error (.hydrationUnavailable (engine.goneNodes path) (engine.goneEdges path))) := by
  obtain ⟨batch, hread, hreads⟩ := inv.confirmedRecordsById_ok path.nodeIds path.edgeIds
  rw [← hdb] at hread
  have hmissing := missingOf_eq inv hdb hreads
  have hrun : engine.hydratePath response position =
      if engine.goneNodes path ≠ [] ∨ engine.goneEdges path ≠ [] then
        .error (.hydrationUnavailable (engine.goneNodes path) (engine.goneEdges path))
      else mapErr .shared (replayPath batch response route path) := by
    have hbegin := mapErr_eq_ok
      (f := fun error => HydratePathError.shared (.lifecycle error)).2 hbegins
    have hbound := mapErr_eq_ok (f := HydratePathError.shared).2 (checkHydrationLimit_ok hlimit)
    have hbatch := mapErr_eq_ok (f := fun error => HydratePathError.shared (.catalog error)).2 hread
    rw [hydratePath, hbegin, ok_bind, hexact, ok_bind]
    dsimp only
    rw [hbound, ok_bind, hbatch, ok_bind, hmissing]
  refine ⟨fun hnodes hedges => ?_, fun hgone => by rw [hrun, if_pos hgone]⟩
  rw [hnodes, hedges] at hmissing
  obtain ⟨hydrated, hreplay, hshows⟩ :=
    replayPath_ok inv hreads hreported hsum response hsame hmissing
  refine ⟨hydrated, ?_, hdb ▸ hshows⟩
  rw [hrun, if_neg (by simp [hnodes, hedges])]
  exact mapErr_eq_ok.2 hreplay

/-- Whatever the limit, hydrating the path is no integrity error. -/
lemma hydratePath_ensures : Ensures (engine.hydratePath response position) (fun _ => True)
    HydratePathError.NotIntegrity := by
  obtain ⟨batch, hread, hreads⟩ := inv.confirmedRecordsById_ok path.nodeIds path.edgeIds
  rw [← hdb] at hread
  have hbatch := mapErr_eq_ok (f := fun error => HydratePathError.shared (.catalog error)).2 hread
  apply (ensures_mapErr fun _ _ => by simp).bind
  intro _ _
  rw [hexact, ok_bind]
  apply (checkHydrationLimit_ensures.mapErr fun _ h => h.shared).bind
  intro _ _
  rw [hbatch, ok_bind]
  rcases hmissing : missingOf batch path with ⟨missingNodes, missingEdges⟩
  dsimp only
  split_ifs with hgone
  · intro reason
    simp
  · rw [not_or, not_not, not_not] at hgone
    obtain ⟨rfl, rfl⟩ := hgone
    obtain ⟨hydrated, hreplay, -⟩ :=
      replayPath_ok inv hreads hreported hsum response hsame hmissing
    rw [hreplay]
    trivial

end Path

end HydrationView

omit [Binary64 F] in
lemma RoutingResponse.exactPath_ensures {response : RoutingResponse F} {position : ℕ} :
    Ensures (response.exactPath position) (fun out => ∃ result ∈ response.results,
      result.state = .exact out.1 ∧ out.1.path = some out.2) HydratePathError.NotIntegrity := by
  apply Ensures.bind (ensures_okOr (Q := fun result => response.results[position]? = some result)
    (fun _ h => h) fun _ reason => by simp)
  intro result hresult
  split
  · rename_i route hstate
    apply Ensures.bind (ensures_okOr (Q := fun path => route.path = some path) (fun _ h => h)
      fun _ reason => by simp)
    intro path hpath
    exact ensures_pure ⟨result, List.mem_of_getElem? hresult, hstate, hpath⟩
  · intro reason
    simp

/-! ## Collections -/

/-- The endpoints the collection remembers of its edges are those of the confirmed ones. -/
def Subgraph.Agrees (g : Subgraph) (db : Database) : Prop :=
  ∀ id endpoints e, g.edges.get id = some endpoints → confirmedEdge db id = some e →
    (e.source, e.destination) = endpoints

namespace Subgraph

variable {db : Database} {g g' other : Subgraph}

lemma Agrees.putEdge (h : g.Agrees db) {id : EdgeId} {source destination : NodeId}
    (hedge : ∀ e, confirmedEdge db id = some e → e.source = source ∧ e.destination = destination) :
    (g.putEdge id source destination).Agrees db := by
  intro id' endpoints e hget he
  rw [Subgraph.putEdge, SortedMap.get_insert] at hget
  split_ifs at hget with hid
  · obtain ⟨rfl, rfl⟩ := hedge e (hid ▸ he)
    exact Option.some.inj hget
  · exact h id' endpoints e hget he

lemma Agrees.addPath (h : g.Agrees db) {path : RoutePath F}
    (hsteps : ∀ step ∈ path.steps, ∀ e, confirmedEdge db step.edgeId = some e →
      e.ReportedBy step) (hadd : g.addPath path = .ok g') : g'.Agrees db := by
  obtain ⟨_, -, hadd⟩ := bind_eq_ok.1 hadd
  obtain ⟨_, -, hadd⟩ := bind_eq_ok.1 hadd
  cases hadd
  apply List.foldlRecOn (motive := fun u : Subgraph => u.Agrees db) path.steps
  · exact h
  · intro u hu step hstep
    apply hu.putEdge
    intro e he
    have hreported := hsteps step hstep e he
    exact ⟨hreported.source, hreported.destination⟩

lemma Agrees.union (h : g.Agrees db) (hother : other.Agrees db)
    (hunion : g.union other = .ok g') : g'.Agrees db := by
  obtain ⟨_, -, hunion⟩ := bind_eq_ok.1 hunion
  cases hunion
  intro id endpoints e hget he
  rw [SortedMap.get_foldl_insert] at hget
  rcases Option.or_eq_some_iff.1 hget with hget | ⟨-, hget⟩
  · exact hother id endpoints e hget he
  · exact h id endpoints e hget he

lemma Agrees.removeEdge (h : g.Agrees db) (edge : EdgeId) : (g.removeEdge edge).1.Agrees db := by
  intro id endpoints e hget he
  exact h id endpoints e (SortedMap.get_erase_eq_some.1 hget).1 he

lemma Agrees.removeNode (h : g.Agrees db) (node : NodeId) : (g.removeNode node).1.Agrees db := by
  intro id endpoints e hget he
  obtain ⟨endpoints', hkept, hguard⟩ :=
    Option.bind_eq_some_iff.1 ((SortedMap.get_filterMap _).symm.trans hget)
  obtain ⟨rfl, -⟩ := Option.guard_eq_some_iff.1 hguard
  exact h id endpoints' e hkept he

lemma edgeEvidence_get (g : Subgraph) (id : EdgeId) :
    (HydrationView.edgeEvidence g.handles).get id = g.edges.get id := by
  have hsame : HydrationView.edgeEvidence g.handles =
      g.edges.entries.foldl (fun m e => m.insert e.1 e.2) .empty := by
    rw [HydrationView.edgeEvidence, Subgraph.handles, List.foldl_map]
  rw [hsame, SortedMap.get_foldl_insert, SortedMap.get_empty, Option.or_none]

end Subgraph

namespace HydrationView

variable {engine : HydrationView} {g : Subgraph} {profile : Option RelationProfile}

/-- The answers of a hydration are for the requested edges. -/
lemma hydrate_requested {nodeIds : List NodeId} {edgeIds : List EdgeId}
    {response : HydrationResponse F}
    (h : engine.hydrate nodeIds edgeIds profile = .ok response) :
    ∀ result ∈ response.edges, result.requestedEdgeId ∈ edgeIds := by
  obtain ⟨_, -, h⟩ := bind_eq_ok.1 h
  obtain ⟨_, -, h⟩ := bind_eq_ok.1 h
  obtain ⟨canonical, -, h⟩ := bind_eq_ok.1 h
  obtain ⟨batch, -, h⟩ := bind_eq_ok.1 h
  obtain ⟨results, hresults, h⟩ := bind_eq_ok.1 h
  obtain rfl := Except.ok.inj h
  intro result hresult
  obtain ⟨n, hn⟩ := List.mem_iff_getElem?.1 hresult
  obtain ⟨id, hid, hanswer⟩ := getElem?_of_forall₂ (mapM_ok_forall₂ hresults) hn
  rw [(hydrateEdgeHandle_eq_ok hanswer).1]
  exact List.mem_of_getElem? hid

/-- A profile that names the relation kinds of all confirmed edges. -/
def Names (engine : HydrationView) (profile : Option RelationProfile) : Prop :=
  ∀ p, engine.canonicalProfile profile = .ok (some p) → ∀ id edge,
    confirmedEdge engine.db id = some edge → edge.relationKind ∈ p.entries.map Prod.fst

lemma hydrate_ensures {nodeIds : List NodeId} {edgeIds : List EdgeId}
    (hnames : engine.Names profile) :
    Ensures (engine.hydrate (F := F) nodeIds edgeIds profile) (fun response =>
      ∀ result ∈ response.edges, ∀ edge ∈ result.state,
        confirmedEdge engine.db result.requestedEdgeId = some edge.edge)
      HydrateError.NotIntegrity := by
  rw [hydrate_eq engine ⟨nodeIds, edgeIds, profile⟩]
  apply beginHydration_ensures.bind
  intro _ _
  apply canonicalProfile_ensures.with_eq.bind
  rintro canonical ⟨hcanonical, -⟩
  apply (HydrationCall.finish_ensures (F := F) _).mono
  · exact fun _ _ h => h.2
  · intro p hp
    have hpacked : canonical = some p := hp
    exact hnames p (hpacked ▸ hcanonical)

/-- The edges filed so far are confirmed ones of the collection. -/
def Filed (db : Database) (g : Subgraph) (filed : List (HydratedEdge F) × List EdgeId) : Prop :=
  ∀ e ∈ filed.1, confirmedEdge db e.edge.id = some e.edge ∧
    g.edges.get e.edge.id = some (e.edge.source, e.edge.destination)

omit [Binary64 F] in
lemma fileEdge_ensures {db : Database} {filed : List (HydratedEdge F) × List EdgeId}
    {result : HydratedEdgeResult F} (hagrees : g.Agrees db)
    (hconfirmed : ∀ edge ∈ result.state,
      confirmedEdge db result.requestedEdgeId = some edge.edge)
    (hheld : ∃ endpoints, g.edges.get result.requestedEdgeId = some endpoints)
    (hfiled : Filed db g filed) :
    Ensures (fileEdge (edgeEvidence g.handles) filed result) (Filed db g)
      HydrateError.NotIntegrity := by
  unfold fileEdge
  split
  · exact hfiled
  · rename_i edge hstate
    obtain ⟨endpoints, hget⟩ := hheld
    have hedge := hconfirmed edge hstate
    have hsame := hagrees _ _ _ hget hedge
    have hcheck : checkEndpoints (edgeEvidence g.handles) result.requestedEdgeId edge = .ok () := by
      unfold checkEndpoints
      rw [Subgraph.edgeEvidence_get, hget]
      exact if_neg (not_not.2 hsame)
    rw [hcheck, ok_bind]
    intro e he
    rcases List.mem_append.1 he with he | he
    · exact hfiled e he
    · obtain rfl := List.mem_singleton.1 he
      rw [confirmedEdge_id hedge]
      exact ⟨hedge, hsame ▸ hget⟩

/-- Hydrating a collection whose edges are as it remembers them is no integrity error, and the
endpoints of the edges found are among the nodes found. -/
lemma hydrateSubgraph_ensures (inv : CatalogInv c t) (hdb : engine.db = c.db)
    (hclosed : g.Closed) (hagrees : g.Agrees engine.db) (hnames : engine.Names profile) :
    Ensures (engine.hydrateSubgraph (F := F) g profile) (fun h => engine.Hydrates g profile h ∧
      ∀ e ∈ h.edges, e.edge.source ∈ h.nodes.map (·.id) ∧ e.edge.destination ∈ h.nodes.map (·.id))
      HydrateError.NotIntegrity := by
  have hfiled : Ensures (engine.hydrateSubgraph (F := F) g profile)
      (fun h => Filed engine.db g (h.edges, h.missingEdgeIds)) HydrateError.NotIntegrity := by
    apply (ensures_mapErr fun _ _ => by simp).bind
    intro _ _
    apply (hydrate_ensures hnames).with_eq.bind
    rintro response ⟨hresponse, hconfirmed⟩
    -- every edge found is one of the collection, which remembers its endpoints
    have hedges : Ensures (response.edges.foldlM (fileEdge (edgeEvidence g.handles)) ([], []))
        (Filed engine.db g) HydrateError.NotIntegrity := by
      apply ensures_foldlM (I := fun _ => Filed engine.db g)
      · intro pre result post filed hsplit hfiled
        have hmem : result ∈ response.edges := by
          rw [hsplit]
          exact List.mem_append_right _ List.mem_cons_self
        apply fileEdge_ensures hagrees (hconfirmed result hmem) _ hfiled
        obtain ⟨edge, hedge, hid⟩ := List.mem_map.1 (hydrate_requested hresponse result hmem)
        obtain ⟨entry, hentry, rfl⟩ := List.mem_map.1 hedge
        exact ⟨entry.2, hid ▸ SortedMap.get_of_mem hentry⟩
      · intro e he
        cases he
    apply hedges.bind
    intro filed hfiled
    exact ensures_pure hfiled
  apply hfiled.mono
  intro h hrun hfiled
  have hydrates := hydrateSubgraph_spec hrun
  refine ⟨hydrates, fun e he => ?_⟩
  obtain ⟨hconfirmed, hget⟩ := hfiled e he
  obtain ⟨hsource, hdestination⟩ := hclosed _ _ _ hget
  -- a confirmed edge has confirmed endpoints, and the collection has them among its nodes
  rw [hdb, inv.confirmedEdge_eq] at hconfirmed
  obtain ⟨⟨r, hr⟩, ⟨r', hr'⟩, -⟩ := inv.consistent.edge _ (inv.hasEdge hconfirmed)
  rw [hydrates.nodes]
  constructor
  · apply List.mem_filter.2
    rw [confirmsNode, hdb, inv.confirmedNode_eq, hr]
    exact ⟨SortedMap.mem_keys.2 ⟨(), hsource⟩, rfl⟩
  · apply List.mem_filter.2
    rw [confirmsNode, hdb, inv.confirmedNode_eq, hr']
    exact ⟨SortedMap.mem_keys.2 ⟨(), hdestination⟩, rfl⟩

end HydrationView

/-! ## Over the runs of an engine -/

namespace PublicationSystem

variable {config : PublicationConfig} {s s' : PublicationSystem} {response : RoutingResponse F}

/-- The answer of a route over the image that is published in the state. -/
def publishedAnswer (F : Type) [Binary64 F] (s : PublicationSystem) (request : RoutingRequest)
    (signal : CancellationSignal) : Option (RoutingResponse F) :=
  match s.writer, s.routing with
  | none, .available execution => do
    let image ← (compileRoutingImage execution.bundle.graph).toOption
    let out ← (routeControlled image request signal).toOption
    return out.1
  | _, _ => none

/-- A route over the image that is published in the state returned the answer. -/
def Returns (s : PublicationSystem) (response : RoutingResponse F) : Prop :=
  ∃ request signal, s.publishedAnswer F request signal = some response

lemma publishedAnswer_eq_some {request : RoutingRequest} {signal : CancellationSignal}
    (h : s.publishedAnswer F request signal = some response) :
    ∃ execution image search, s.writer = none ∧ s.routing = .available execution ∧
      compileRoutingImage execution.bundle.graph = .ok image ∧
      routeControlled image request signal = .ok (response, search) := by
  unfold publishedAnswer at h
  split at h
  · rename_i execution hwriter hrouting
    obtain ⟨image, himage, h⟩ := Option.bind_eq_some_iff.1 h
    obtain ⟨out, hout, h⟩ := Option.bind_eq_some_iff.1 h
    obtain rfl := Option.some.inj h
    exact ⟨execution, image, out.2, hwriter, hrouting, toOption_eq_some.1 himage,
      toOption_eq_some.1 hout⟩
  · cases h

/-- The path was returned in the state. -/
def ReturnsPath (s : PublicationSystem) (path : RoutePath F) : Prop :=
  ∃ response : RoutingResponse F, s.Returns response ∧ ∃ result ∈ response.results,
    ∃ route, result.state = .exact route ∧ route.path = some path

lemma Inv.evidences {t : Tables} (hinv : Inv config s t) (h : s.Returns response)
    {result : DestinationResult F} (hresult : result ∈ response.results) {route : ExactRoute F}
    {path : RoutePath F} (hstate : result.state = .exact route) (hpath : route.path = some path) :
    t.Evidences path ∧ path.logicalDistance = route.logicalDistance := by
  obtain ⟨request, signal, hanswer⟩ := h
  obtain ⟨execution, image, search, hwriter, hrouting, himage, hroute⟩ :=
    publishedAnswer_eq_some hanswer
  have hdenotes : t.Denotes execution.bundle.graph := by
    apply hinv.fresh execution (published_eq hrouting)
    intro w hw
    rw [hwriter] at hw
    cases hw
  exact evidences_of_route hinv.catalog hdenotes himage hroute hresult hstate hpath

/-- Along a run of an engine the tables evolve. -/
lemma Inv.evolves {t : Tables} (hinv : Inv config s t) {actions : List PublicationAction}
    {os : List Unit} (hrun : (publication config).run s actions = some (s', os)) :
    ∃ t', CatalogInv s'.catalog t' ∧ t.Evolves t' := by
  obtain ⟨-, calls, outs, hcalls⟩ := (simulates_catalog config).run ⟨t, hinv⟩ hrun
  exact catalogMachine_evolves hinv.catalog hcalls

/-- What a later catalog still holds of the edges of a returned path is what the path reports. -/
lemma Inv.reported {t t' : Tables} (hinv : Inv config s t) (inv' : CatalogInv s'.catalog t')
    (hlater : (publication config).Reaches s s') {path : RoutePath F} (h : t.Evidences path) :
    ∀ step ∈ path.steps, ∀ e, t'.edges.get step.edgeId = some e → e.ReportedBy step := by
  intro step hstep e he
  obtain ⟨actions, os, hrun⟩ := hlater
  obtain ⟨t'', inv'', hevolves⟩ := hinv.evolves hrun
  apply h.later hinv.catalog.counted hevolves hstep
  rw [← inv''.confirmedEdge_eq, inv'.confirmedEdge_eq]
  exact he

variable (F) in
/-- The collections of paths that an engine, since it was started, returned in states before the
given one. -/
inductive PathCollection (config : PublicationConfig) (s₀ s' : PublicationSystem) : Subgraph → Prop
  | new : PathCollection config s₀ s' .new
  | addPath {s : PublicationSystem} {path : RoutePath F} {g g' : Subgraph} :
    PathCollection config s₀ s' g → (publication config).Reaches s₀ s →
      (publication config).Reaches s s' → s.ReturnsPath path → g.addPath path = .ok g' →
        PathCollection config s₀ s' g'
  | union {g other g' : Subgraph} :
    PathCollection config s₀ s' g → PathCollection config s₀ s' other →
      g.union other = .ok g' → PathCollection config s₀ s' g'
  | removeEdge {g : Subgraph} (edge : EdgeId) :
    PathCollection config s₀ s' g → PathCollection config s₀ s' (g.removeEdge edge).1
  | removeNode {g : Subgraph} (node : NodeId) :
    PathCollection config s₀ s' g → PathCollection config s₀ s' (g.removeNode node).1

lemma PathCollection.reachable {s₀ : PublicationSystem} {g : Subgraph}
    (h : PathCollection F config s₀ s' g) : g.Reachable := by
  induction h with
  | new => exact .new
  | addPath _ _ _ _ hadd ih => exact ih.addPath hadd
  | union _ _ hunion ih ih' => exact ih.union ih' hunion
  | removeEdge edge _ ih => exact ih.removeEdge edge
  | removeNode node _ ih => exact ih.removeNode node

lemma PathCollection.agrees {s₀ : PublicationSystem} (hstart : s₀.Initial) {t' : Tables}
    (inv' : CatalogInv s'.catalog t') {g : Subgraph} (h : PathCollection F config s₀ s' g) :
    g.Agrees s'.catalog.db := by
  induction h with
  | new => exact fun _ _ _ hget => by cases hget
  | addPath _ hreached hlater hreturned hadd ih =>
    obtain ⟨actions, os, hrun⟩ := hreached
    obtain ⟨response, hreturns, result, hresult, route, hstate, hpath⟩ := hreturned
    obtain ⟨⟨t, hinv⟩, -⟩ := (simulates_catalog config).run ⟨_, hstart.inv⟩ hrun
    have hreported := hinv.reported inv' hlater
      (hinv.evidences hreturns hresult hstate hpath).1
    apply ih.addPath _ hadd
    intro step hstep e he
    rw [inv'.confirmedEdge_eq] at he
    exact hreported step hstep e he
  | union _ _ hunion ih ih' => exact ih.union ih' hunion
  | removeEdge edge _ ih => exact ih.removeEdge edge
  | removeNode node _ ih => exact ih.removeNode node

/-- Without a writer, a packed profile names the relation kinds of all confirmed edges. -/
lemma Inv.names_profile {t : Tables} (hinv : Inv config s t) (hphase : s.phase = .running)
    (hwriter : s.writer = none) (limit : U64) (admitted : Except LifecycleError Unit)
    (unavailable : RoutingUnavailableReason) (profile : Option RelationProfile) :
    (s.hydrationView limit admitted unavailable).Names profile := by
  intro p hp id edge hedge
  obtain ⟨hsome, hkinds⟩ := HydrationView.canonicalProfile_eq_ok hp
  obtain ⟨ids, hexecution, hids⟩ := hkinds p rfl
  obtain ⟨image, hrouting, rfl⟩ := execution_eq_ok hexecution
  have hcall : HydratingInv config ⟨s, [⟨⟨[], [], profile⟩, some p⟩]⟩ := by
    refine ⟨⟨t, hinv⟩, fun _ => ⟨hphase, hwriter⟩, fun call hcall => ?_, fun call hcall q hq => ?_⟩
    · obtain rfl := List.mem_singleton.1 hcall
      exact hsome
    · obtain rfl := List.mem_singleton.1 hcall
      obtain rfl := Option.some.inj hq
      exact ⟨image, hrouting, hids⟩
  exact hcall.names List.mem_cons_self rfl hedge

end PublicationSystem

/-- Hydration stays sound across mutations.  Let an engine return an answer of its CPU route in some
state and let `s'` be any later one, whatever mutations, rebuilds, failed builds, crashes and
restarts lie in between.  Within the limit, hydrating a path of the answer repeats it record by
record with its own distance when nothing of it is gone, and otherwise lists exactly what is gone;
it is never an integrity error, whatever the limit, the position or the lifecycle.  Nor is hydrating
a collection of such paths while no writer works: it finds the confirmed ones among its handles and
lists the others, and the endpoints of every edge it finds are among the nodes it finds. -/
theorem hydration_sound {config : PublicationConfig} {s₀ s s' : PublicationSystem}
    (hstart : s₀.Initial) (hreached : (publication config).Reaches s₀ s)
    (hlater : (publication config).Reaches s s') {response : RoutingResponse F}
    (hreturns : s.Returns response) (limit : U64) (unavailable : RoutingUnavailableReason) :
    (∀ position route path, response.exactPath position = .ok (route, path) →
      path.nodeIds.length + path.edgeIds.length ≤ limit.val →
      ∀ engine, engine = s'.hydrationView limit (.ok ()) unavailable →
        (engine.goneNodes path = [] → engine.goneEdges path = [] → ∃ hydrated,
          engine.hydratePath response position = .ok hydrated ∧
            hydrated.Shows engine.db response path) ∧
        (engine.goneNodes path ≠ [] ∨ engine.goneEdges path ≠ [] →
          engine.hydratePath response position =
            .error (.hydrationUnavailable (engine.goneNodes path) (engine.goneEdges path)))) ∧
    (∀ admitted position reason,
      (s'.hydrationView limit admitted unavailable).hydratePath response position ≠
        .error (.shared (.hydration (.integrity reason)))) ∧
    (s'.phase = .running → s'.writer = none → ∀ g, PublicationSystem.PathCollection F config s₀ s' g →
      ∀ admitted profile engine, engine = s'.hydrationView limit admitted unavailable →
        (∀ reason, engine.hydrateSubgraph (F := F) g profile ≠
          .error (.hydration (.integrity reason))) ∧
        ∀ hydrated : HydratedSubgraph F, engine.hydrateSubgraph g profile = .ok hydrated →
          engine.Hydrates g profile hydrated ∧ ∀ e ∈ hydrated.edges,
            e.edge.source ∈ hydrated.nodes.map (·.id) ∧
              e.edge.destination ∈ hydrated.nodes.map (·.id)) := by
  obtain ⟨actions, os, hrun⟩ := hreached
  obtain ⟨⟨t, hinv⟩, -⟩ :=
    (PublicationSystem.simulates_catalog config).run ⟨_, hstart.inv⟩ hrun
  obtain ⟨later, os', hrun'⟩ := id hlater
  obtain ⟨⟨t', hinv'⟩, -⟩ := (PublicationSystem.simulates_catalog config).run ⟨_, hinv⟩ hrun'
  -- every path was evident when it was returned, with the sum of its steps as its distance
  have hpaths : ∀ position route path, response.exactPath position = .ok (route, path) →
      t.Evidences path ∧ path.logicalDistance = route.logicalDistance := by
    intro position route path hexact
    obtain ⟨result, hresult, hstate, hpath⟩ :=
      RoutingResponse.exactPath_ensures.of_ok hexact
    exact hinv.evidences hreturns hresult hstate hpath
  refine ⟨?_, ?_, ?_⟩
  · rintro position route path hexact hlimit engine rfl
    obtain ⟨hevidence, hsame⟩ := hpaths position route path hexact
    exact HydrationView.hydratePath_spec hinv'.catalog rfl
      (hinv.reported hinv'.catalog hlater hevidence) hevidence.sum_eq hexact hsame rfl hlimit
  · intro admitted position reason herror
    have hens : Ensures ((s'.hydrationView limit admitted unavailable).hydratePath response position)
        (fun _ => True) HydratePathError.NotIntegrity := by
      rcases hexact : response.exactPath position with e | ⟨route, path⟩
      · apply (ensures_mapErr fun _ _ => by simp).bind
        intro _ _
        rw [hexact]
        exact RoutingResponse.exactPath_ensures.of_error hexact
      · obtain ⟨hevidence, hsame⟩ := hpaths position route path hexact
        exact HydrationView.hydratePath_ensures hinv'.catalog rfl
          (hinv.reported hinv'.catalog hlater hevidence) hevidence.sum_eq hexact hsame
    exact hens.of_error herror reason rfl
  · rintro hphase hwriter g hcollection admitted profile engine rfl
    have hens := HydrationView.hydrateSubgraph_ensures (F := F) hinv'.catalog rfl
      hcollection.reachable.closed (hcollection.agrees hstart hinv'.catalog)
      (hinv'.names_profile hphase hwriter limit admitted unavailable profile)
    refine ⟨fun reason herror => ?_, fun hydrated hrun => hens.of_ok hrun⟩
    exact hens.of_error herror reason rfl

/-- Two nodes with an edge from one to the other are confirmed and published. -/
def edgePublished : List PublicationAction :=
  PublicationSystem.startActions ++
    [.insert [.node ⟨"a"⟩ ⟨[]⟩, .node ⟨"b"⟩ ⟨[]⟩, .relationKind ⟨"r"⟩,
      .edge (.batchNode 0) (.batchNode 1) (.batchRelationKind 2) ⟨0, BaseWeight.zeroBits_le⟩]
        .written,
    .beginMutation (.confirmCandidateBatchWithResponseLimit [⟨1⟩, ⟨2⟩, ⟨3⟩, ⟨4⟩] 10000),
    .awaitCapacity [], .mutate .written] ++ List.replicate 9 (.build .succeeds 1 .written) ++
    [.retire [], .build .succeeds 0 .written]

/-- From one node to the other, with a path. -/
def edgeRequest : RoutingRequest where
  origin := ⟨1⟩
  destinations := [⟨2⟩]
  profile := ⟨[(⟨1⟩, .enabled .one)]⟩
  returnPaths := true
  budget := .unlimited
  tiePolicy := .stablePredecessor

/-- The edge is removed. -/
def edgeRemoved : List PublicationAction :=
  [.beginMutation (.removeEdge ⟨1⟩), .awaitCapacity [], .mutate .written]

/-- The engine as a hydration sees it, with a limit of eight handles. -/
def eightHandles (s : PublicationSystem) : HydrationView :=
  s.hydrationView 8 (.ok ()) (.imageCompilation "")

/-- The answer outlives its edge, and hydrating its path reports the edge. -/
theorem hydration_sound_removedEdge : ∃ s s' os os', ∃ response : RoutingResponse SoftBinary64,
    (publication PublicationSystem.smallConfig).run PublicationSystem.fresh edgePublished =
      some (s, os) ∧
    (publication PublicationSystem.smallConfig).run s edgeRemoved = some (s', os') ∧
    s.Returns response ∧
    (eightHandles s').hydratePath response 0 = .error (.hydrationUnavailable [] [⟨1⟩]) := by
  have hrun : ((publication PublicationSystem.smallConfig).run PublicationSystem.fresh
      edgePublished).bind (fun r =>
        ((publication PublicationSystem.smallConfig).run r.1 edgeRemoved).bind fun r' =>
          (r.1.publishedAnswer SoftBinary64 edgeRequest neverCancelled).bind fun response =>
            (response.exactPath 0).toOption.map fun out =>
              (decide (out.2.nodeIds.length + out.2.edgeIds.length ≤ 8),
                (eightHandles r'.1).goneNodes out.2, (eightHandles r'.1).goneEdges out.2)) =
      some (true, [], [⟨1⟩]) := by
    decide +kernel
  obtain ⟨⟨s, os⟩, hrun, hrest⟩ := Option.bind_eq_some_iff.1 hrun
  obtain ⟨⟨s', os'⟩, hrun', hrest⟩ := Option.bind_eq_some_iff.1 hrest
  obtain ⟨response, hanswer, hrest⟩ := Option.bind_eq_some_iff.1 hrest
  obtain ⟨⟨route, path⟩, hexact, hgone⟩ := Option.map_eq_some_iff.1 hrest
  simp only [Prod.mk.injEq, decide_eq_true_eq] at hgone
  obtain ⟨hlimit, hnodes, hedges⟩ := hgone
  refine ⟨s, s', os, os', response, hrun, hrun', ⟨_, _, hanswer⟩, ?_⟩
  have hsound := (hydration_sound PublicationSystem.fresh_initial ⟨_, _, hrun⟩ ⟨_, _, hrun'⟩
    ⟨_, _, hanswer⟩ 8 (.imageCompilation "")).1 0 route path (toOption_eq_some.1 hexact) hlimit
    (eightHandles s') rfl
  rw [hsound.2 (.inr (by simp [hedges])), hnodes, hedges]

end PathHydra
