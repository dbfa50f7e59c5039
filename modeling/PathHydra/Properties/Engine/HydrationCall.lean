import PathHydra.Construction.Engine.HydrationCall
import PathHydra.Properties.Engine.Freshness
import PathHydra.Properties.Engine.Hydration

/-!
# A profiled hydration knows every relation kind

A call in flight holds the routing read lock, so no writer works and the published image stays the
one its profile was packed against.  That image is of the confirmed graph, and insertions of
candidates, which go on meanwhile, do not change the graph.  So the relation kind of every edge the
call reads is one of its profile, and the call cannot fail with an integrity error.
-/

namespace PathHydra

/-- An error other than that of integrity. -/
def HydrateError.NotIntegrity (error : HydrateError) : Prop :=
  ∀ reason, error ≠ .hydration (.integrity reason)

/-- Identifiers that ascend are listed as they are. -/
lemma distinctIds_of_ascending {k : IdKind} {ids : List (DurableId k)}
    (h : ids.Pairwise (· < ·)) : distinctIds ids = ids := by
  have hnodup : ids.Nodup := h.imp fun hlt => hlt.ne
  rw [distinctIds, hnodup.dedup]
  exact (h.imp fun hlt => hlt.le).insertionSort_eq

/-! ## Reading the catalog -/

/-- A batch holds the relation kind of each edge it holds. -/
lemma confirmedRecordsById_relationKind {db : Database} {nodeIds : List NodeId}
    {edgeIds : List EdgeId} {batch : ConfirmedRecordBatch} {id : EdgeId} {edge : EdgeRecord}
    (h : confirmedRecordsById db nodeIds edgeIds = .ok batch) (hedge : batch.edge id = some edge) :
    (batch.relationKind edge.relationKind).isSome = true := by
  obtain ⟨nodes, -, h⟩ := bind_eq_ok.1 h
  obtain ⟨edges, -, h⟩ := bind_eq_ok.1 h
  obtain ⟨kinds, hkinds, h⟩ := bind_eq_ok.1 h
  obtain rfl := Except.ok.inj h
  have hmem : edge.relationKind ∈ distinctIds (edges.entries.map (·.2.relationKind)) := by
    apply mem_distinctIds.2
    exact List.mem_map.2 ⟨(id, edge), SortedMap.get_eq_some.1 hedge, rfl⟩
  have hstep : ∀ {m m' : SortedMap RelationId RelationRecord} {id : RelationId},
      readBatchRelationKind db m id = .ok m' → ∃ record, m' = m.insert id record := by
    intro m m' id hread
    rw [readBatchRelationKind] at hread
    split at hread
    · exact ⟨_, (Except.ok.inj hread).symm⟩
    · cases hread
    · cases hread
  refine foldlM_reaches (P := fun m : SortedMap RelationId RelationRecord =>
    (m.get edge.relationKind).isSome = true) (fun id _ m m' hread hm => ?_) hmem
    (fun m m' hread => ?_) hkinds
  · obtain ⟨record, rfl⟩ := hstep hread
    rw [SortedMap.get_insert]
    split
    · rfl
    · exact hm
  · obtain ⟨record, rfl⟩ := hstep hread
    rw [SortedMap.get_insert, if_pos rfl]
    rfl

/-- A profile has a use for each relation kind it names. -/
lemma profileUses_isSome {profile : RelationProfile} {id : RelationId}
    (h : id ∈ profile.entries.map Prod.fst) : ((profileUses profile).get id).isSome = true := by
  unfold profileUses
  generalize profile.entries = entries at h ⊢
  suffices hany : ∀ uses : SortedMap RelationId RelationUse,
      (id ∈ entries.map Prod.fst ∨ (uses.get id).isSome = true) →
        ((entries.foldl (fun uses e => uses.insert e.1 e.2) uses).get id).isSome = true from
    hany .empty (.inl h)
  clear h
  induction entries with
  | nil => exact fun uses h => h.resolve_left List.not_mem_nil
  | cons e rest ih =>
    intro uses h
    refine ih _ ?_
    rw [SortedMap.get_insert, List.map_cons, List.mem_cons] at *
    by_cases hid : id = e.1
    · right
      rw [if_pos hid]
      rfl
    · rw [if_neg hid]
      exact h.imp_left fun hmem => hmem.resolve_left hid

/-- The relation kind of a confirmed edge is one of the confirmed graph. -/
lemma CatalogInv.relationKind_mem {c : Catalog} {t : Tables} (inv : CatalogInv c t) {id : EdgeId}
    {edge : EdgeRecord} (h : confirmedEdge c.db id = some edge) :
    edge.relationKind ∈ t.graph.relationKinds.map (·.id) := by
  have hread := toOption_eq_some.1 h
  rw [inv.represents.getEdge_eq, okOr_eq_ok, ← confirmedEdge_id h] at hread
  obtain ⟨-, -, record, hrecord⟩ := inv.consistent.edge edge hread
  refine List.mem_map.2 ⟨record, ?_, inv.represents.relations.id_eq _ _ hrecord⟩
  exact List.mem_map.2 ⟨(edge.relationKind, record), SortedMap.get_eq_some.1 hrecord, rfl⟩

/-- The relation kinds of the confirmed graph ascend. -/
lemma CatalogInv.relationKinds_ascending {c : Catalog} {t : Tables} (inv : CatalogInv c t) :
    (t.graph.relationKinds.map (·.id)).Pairwise (· < ·) := by
  have hids : t.graph.relationKinds.map (·.id) = t.relations.entries.map Prod.fst := by
    show (t.relations.entries.map Prod.snd).map (·.id) = _
    rw [List.map_map]
    refine List.map_congr_left fun e he => ?_
    exact inv.represents.relations.id_eq _ _ (SortedMap.get_of_mem he)
  rw [hids]
  exact t.relations.keys_pairwise

/-- An error that is only wrapped keeps what its wrapping has. -/
lemma ensures_mapErr {ε ε' α : Type} {f : ε → ε'} {x : Except ε α} {E : ε' → Prop}
    (h : ∀ e, E (f e)) : Ensures (mapErr f x) (fun a => x = .ok a) E := by
  rcases x with e | a
  · exact h e
  · exact rfl

variable {F : Type} [Binary64 F]

section Finish

variable {db : Database} {batch : ConfirmedRecordBatch}
  {uses : Option (SortedMap RelationId RelationUse)}

/-- An edge whose relation kind the profile names is evaluated, or its weight is not finite. -/
lemma evaluateEdge_ensures {edge : EdgeRecord}
    (huses : ∀ uses' ∈ uses, (uses'.get edge.relationKind).isSome = true) :
    Ensures (evaluateEdge (F := F) edge uses) (fun _ => True) HydrateError.NotIntegrity := by
  rcases uses with _ | uses
  · trivial
  · obtain ⟨use, huse⟩ := Option.isSome_iff_exists.1 (huses uses rfl)
    simp only [evaluateEdge, huse]
    rcases use with _ | multiplier
    · trivial
    · exact Ensures.bind (ensures_mapErr fun _ _ => nofun) fun _ _ => ensures_pure trivial

/-- The answer for an edge handle is the edge of the batch. -/
lemma hydrateEdgeHandle_ensures {id : EdgeId}
    (hkind : ∀ edge, batch.edge id = some edge →
      (batch.relationKind edge.relationKind).isSome = true ∧
        ∀ uses' ∈ uses, (uses'.get edge.relationKind).isSome = true) :
    Ensures (HydrationView.hydrateEdgeHandle (F := F) batch uses id) (fun _ => True)
      HydrateError.NotIntegrity := by
  rw [HydrationView.hydrateEdgeHandle]
  rcases hedge : batch.edge id with _ | edge
  · trivial
  · obtain ⟨hknown, huses⟩ := hkind edge hedge
    obtain ⟨kind, hkind⟩ := Option.isSome_iff_exists.1 hknown
    have hedge : Ensures (hydrateEdge (F := F) edge batch uses) (fun _ => True)
        HydrateError.NotIntegrity := by
      rw [hydrateEdge, hkind]
      exact (evaluateEdge_ensures huses).bind fun _ _ => ensures_pure trivial
    exact hedge.bind fun _ _ => ensures_pure trivial

namespace HydrationView

variable {engine : HydrationView}

lemma beginHydration_ensures {request : HydrationRequest} :
    Ensures (engine.beginHydration request) (fun _ => True) HydrateError.NotIntegrity := by
  refine (ensures_mapErr fun _ _ => nofun).bind fun _ _ => ?_
  refine (ensures_okOr (fun _ _ => trivial) fun _ _ => nofun).bind fun requested _ => ?_
  split_ifs
  · exact fun _ => nofun
  · trivial

lemma canonicalProfile_ensures {profile : Option RelationProfile} :
    Ensures (engine.canonicalProfile profile) (fun _ => True) HydrateError.NotIntegrity := by
  rcases profile with _ | profile
  · trivial
  · refine (ensures_mapErr fun _ _ => nofun).bind fun ids _ => ?_
    exact (ensures_mapErr fun _ _ => nofun).bind fun _ _ => ensures_pure trivial

end HydrationView

/-- A call whose profile names the relation kinds of all confirmed edges does not fail with an
integrity error, and answers with its profile and with confirmed edges. -/
lemma HydrationCall.finish_ensures {call : HydrationCall}
    (hkinds : ∀ p ∈ call.canonical, ∀ id edge, confirmedEdge db id = some edge →
      edge.relationKind ∈ p.entries.map Prod.fst) :
    Ensures (call.finish F db) (fun response => response.profile = call.canonical ∧
      ∀ result ∈ response.edges, ∀ edge ∈ result.state,
        confirmedEdge db result.requestedEdgeId = some edge.edge) HydrateError.NotIntegrity := by
  unfold HydrationCall.finish
  refine Ensures.bind (ensures_mapErr fun _ _ => nofun) fun batch hbatch => ?_
  obtain ⟨-, hedges⟩ := confirmedRecordsById_eq_ok hbatch
  have hanswers : Ensures (call.request.edgeIds.mapM
      (HydrationView.hydrateEdgeHandle (F := F) batch (call.canonical.map profileUses)))
      (List.Forall₂ (fun id result => HydrationView.hydrateEdgeHandle batch
        (call.canonical.map profileUses) id = .ok result) call.request.edgeIds)
      HydrateError.NotIntegrity := by
    refine ensures_mapM _ fun id hid => ?_
    refine (hydrateEdgeHandle_ensures fun edge hedge => ⟨?_, fun uses huses => ?_⟩).mono
      fun _ hhandle _ => hhandle
    · exact confirmedRecordsById_relationKind hbatch hedge
    · obtain ⟨p, hp, rfl⟩ := Option.map_eq_some_iff.1 huses
      exact profileUses_isSome (hkinds p hp id edge (hedges id hid ▸ hedge))
  refine hanswers.bind fun results hresults => ensures_pure ⟨rfl, ?_⟩
  intro result hresult edge hedge
  obtain ⟨n, hn⟩ := List.mem_iff_getElem?.1 hresult
  obtain ⟨id, hid, hhandle⟩ := getElem?_of_forall₂ hresults hn
  obtain ⟨hrequested, hstate, -⟩ := HydrationView.hydrateEdgeHandle_eq_ok hhandle
  have hbatchEdge : batch.edge id = some edge.edge := by
    rw [← hstate, hedge]
    rfl
  rw [hrequested, ← hedges id (List.mem_of_getElem? hid), hbatchEdge]

end Finish

/-! ## Calls in flight -/

namespace PublicationSystem

variable {config : PublicationConfig} {action : PublicationAction} {s s' : PublicationSystem}

lemma execution_eq_ok {unavailable : RoutingUnavailableReason} {ids : List RelationId}
    (h : s.execution unavailable = .ok ids) :
    ∃ image, s.routing = .available image ∧ image.relationIds = ids := by
  unfold execution at h
  split at h
  · exact ⟨_, ‹_›, Except.ok.inj h⟩
  · cases h
  · cases h

/-- Without the routing write lock an engine keeps its image, and no writer begins. -/
lemma step_of_reading (hphase : s.phase = .running) (hwriter : s.writer = none)
    (hlock : takesRoutingLock action = false) (hcrash : action ≠ .crash)
    (h : (publication config).step s action = some (s', ())) :
    s'.phase = .running ∧ s'.writer = none ∧ s'.routing = s.routing := by
  have hrunning : s.runningStep config action = some s' := by
    rcases action
    case crash => exact absurd rfl hcrash
    all_goals
      simp only [publication, hphase] at h
      obtain ⟨u, hu, heq⟩ := Option.map_eq_some_iff.1 h
      cases heq
      exact hu
  -- the actions that begin a writer or change the routing state take the lock
  unfold runningStep at hrunning
  split at hrunning
  · cases hlock
  · cases hlock
  · split at hrunning
    · cases hrunning
    · split at hrunning
      all_goals
        cases hrunning
        exact ⟨hphase, hwriter, rfl⟩
  · split at hrunning
    · obtain ⟨image, -, rfl⟩ := Option.map_eq_some_iff.1 hrunning
      exact ⟨hphase, hwriter, rfl⟩
    · cases hrunning
  · cases hrunning
    exact ⟨hphase, hwriter, rfl⟩
  · obtain ⟨image, -, rfl⟩ := Option.map_eq_some_iff.1 hrunning
    exact ⟨hphase, hwriter, rfl⟩
  · cases hrunning
    exact ⟨hphase, hwriter, rfl⟩
  · cases hlock
  · cases hrunning
    exact ⟨hphase, hwriter, rfl⟩
  · cases hlock
  · -- every other action is the writer's
    simp only [writerStep, hwriter] at hrunning
    cases hrunning

end PublicationSystem

/-- The invariant of the calls in flight: no writer works while there is one, and a packed profile
names the relation kinds of the published image. -/
structure HydratingInv (config : PublicationConfig) (s : HydratingSystem) : Prop where
  engine : ∃ t, PublicationSystem.Inv config s.engine t
  reading : s.calls ≠ [] → s.engine.phase = .running ∧ s.engine.writer = none
  profiled : ∀ call ∈ s.calls, call.canonical.isSome = call.request.profile.isSome
  packed : ∀ call ∈ s.calls, ∀ p ∈ call.canonical, ∃ image,
    s.engine.routing = .available image ∧ p.entries.map Prod.fst = image.relationIds

namespace HydratingInv

variable {config : PublicationConfig} {limit : U64} {s s' : HydratingSystem}

/-- While a call is in flight the published image is that of the confirmed graph, and the profile of
the call names the relation kinds of that graph. -/
lemma current (h : HydratingInv config s) {call : HydrationCall} (hcall : call ∈ s.calls)
    {p : RelationProfile} (hp : p ∈ call.canonical) :
    ∃ image t, CatalogInv s.engine.catalog t ∧ s.engine.routing = .available image ∧
      s.engine.IsCurrent image.bundle.graph ∧
      image.bundle.graph.relationKinds.map (·.id) = t.graph.relationKinds.map (·.id) ∧
      p.entries.map Prod.fst = image.bundle.graph.relationKinds.map (·.id) := by
  obtain ⟨t, hinv⟩ := h.engine
  obtain ⟨-, hwriter⟩ := h.reading (List.ne_nil_of_mem hcall)
  obtain ⟨image, hrouting, hids⟩ := h.packed call hcall p hp
  have hdenotes : t.Denotes image.bundle.graph :=
    hinv.fresh image (PublicationSystem.published_eq hrouting) fun w hw => by simp [hwriter] at hw
  have hsame : image.bundle.graph.relationKinds.map (·.id) =
      t.graph.relationKinds.map (·.id) := by
    have hfst := congrArg (List.map Prod.fst) hdenotes.relations
    simpa only [List.map_map, Function.comp_def] using hfst
  refine ⟨image, t, hinv.catalog, hrouting, hinv.isCurrent hdenotes, hsame, ?_⟩
  rw [hids, ExecutionImage.relationIds]
  apply distinctIds_of_ascending
  rw [hsame]
  exact hinv.catalog.relationKinds_ascending

/-- The profile of a call names the relation kind of every confirmed edge. -/
lemma names (h : HydratingInv config s) {call : HydrationCall} (hcall : call ∈ s.calls)
    {p : RelationProfile} (hp : p ∈ call.canonical) {id : EdgeId} {edge : EdgeRecord}
    (hedge : confirmedEdge s.engine.catalog.db id = some edge) :
    edge.relationKind ∈ p.entries.map Prod.fst := by
  obtain ⟨image, t, inv, -, -, hsame, hentries⟩ := h.current hcall hp
  rw [hentries, hsame]
  exact inv.relationKind_mem hedge

end HydratingInv

/-- What every answer to a request has: it is no integrity error, and the profile of a response,
which it has when the request has one, names the relation kinds of the edges found. -/
structure KnowsRelations (request : HydrationRequest)
    (result : Except HydrateError (HydrationResponse F)) : Prop where
  notIntegrity : ∀ reason, result ≠ .error (.hydration (.integrity reason))
  profiled : ∀ response, result = .ok response →
    response.profile.isSome = request.profile.isSome
  edges : ∀ response, result = .ok response → ∀ p ∈ response.profile,
    ∀ found ∈ response.edges, ∀ edge ∈ found.state, edge.edge.relationKind ∈ p.entries.map Prod.fst

omit [Binary64 F] in
/-- An error other than that of integrity knows them. -/
lemma knowsRelations_error {request : HydrationRequest} {error : HydrateError}
    (h : error.NotIntegrity) :
    KnowsRelations (F := F) request (.error error) := by
  refine ⟨fun reason heq => ?_, nofun, nofun⟩
  exact h reason (Except.error.inj heq)

namespace HydratingInv

variable {config : PublicationConfig} {limit : U64} {s s' : HydratingSystem}

/-- The engine takes a step while the calls in flight wait. -/
lemma engineStep (h : HydratingInv config s) {action : PublicationAction} {u : PublicationSystem}
    (hcrash : action ≠ .crash)
    (hlock : (PublicationSystem.takesRoutingLock action && !s.calls.isEmpty) = false)
    (hstep : (publication config).step s.engine action = some (u, ())) :
    HydratingInv config { s with engine := u } := by
  obtain ⟨t, hinv⟩ := h.engine
  have hengine := hinv.micros (PublicationSystem.step_micros hstep)
  by_cases hcalls : s.calls = []
  · refine ⟨hengine, fun hne => absurd hcalls hne, fun call hcall => ?_, fun call hcall => ?_⟩
    · simp [hcalls] at hcall
    · simp [hcalls] at hcall
  · obtain ⟨hphase, hwriter⟩ := h.reading hcalls
    have hfree : PublicationSystem.takesRoutingLock action = false := by
      simpa [hcalls] using hlock
    obtain ⟨hphase', hwriter', hrouting⟩ :=
      PublicationSystem.step_of_reading hphase hwriter hfree hcrash hstep
    refine ⟨hengine, fun _ => ⟨hphase', hwriter'⟩, h.profiled, fun call hcall p hp => ?_⟩
    obtain ⟨image, himage, hids⟩ := h.packed call hcall p hp
    exact ⟨image, hrouting.trans himage, hids⟩

omit [Binary64 F] in
/-- A call begins. -/
lemma beginHydrate (h : HydratingInv config s) {admitted : Except LifecycleError Unit}
    {unavailable : RoutingUnavailableReason} {request : HydrationRequest} {o : HydrationAnswer F}
    (hphase : s.engine.phase = .running)
    (hstep : s.beginHydrate F (s.engine.hydrationView limit admitted unavailable) request =
      some (s', o)) :
    HydratingInv config s' ∧ ∀ request result, o = some (request, result) →
      KnowsRelations request result := by
  unfold HydratingSystem.beginHydrate at hstep
  split at hstep
  · rename_i error hadmit
    cases hstep
    refine ⟨h, fun request result heq => ?_⟩
    cases heq
    exact knowsRelations_error (HydrationView.beginHydration_ensures.of_error hadmit)
  · split_ifs at hstep with hwriter
    split at hstep
    · rename_i error hcanonical
      cases hstep
      refine ⟨h, fun request result heq => ?_⟩
      cases heq
      exact knowsRelations_error (HydrationView.canonicalProfile_ensures.of_error hcanonical)
    · rename_i canonical hcanonical
      cases hstep
      obtain ⟨hprofiled, hids⟩ := HydrationView.canonicalProfile_eq_ok hcanonical
      refine ⟨⟨h.engine, fun _ => ⟨hphase, by simpa using hwriter⟩, fun call hcall => ?_,
        fun call hcall p hp => ?_⟩, nofun⟩
      · rcases List.mem_append.1 hcall with hcall | hcall
        · exact h.profiled call hcall
        · obtain rfl := List.mem_singleton.1 hcall
          exact hprofiled
      · rcases List.mem_append.1 hcall with hcall | hcall
        · exact h.packed call hcall p hp
        · obtain rfl := List.mem_singleton.1 hcall
          obtain ⟨ids, hexecution, hentries⟩ := hids p hp
          obtain ⟨image, hrouting, rfl⟩ := PublicationSystem.execution_eq_ok hexecution
          exact ⟨image, hrouting, hentries⟩

/-- A call reads the catalog. -/
lemma readCatalog (h : HydratingInv config s) {index : ℕ} {owned : Bool} {o : HydrationAnswer F}
    (hstep : s.readCatalog F index owned = some (s', o)) :
    HydratingInv config s' ∧ ∀ request result, o = some (request, result) →
      KnowsRelations request result := by
  obtain ⟨call, hindex, heq⟩ := Option.map_eq_some_iff.1 hstep
  cases heq
  have hcall : call ∈ s.calls := List.mem_of_getElem? hindex
  have hleft : ∀ call' ∈ s.calls.eraseIdx index, call' ∈ s.calls :=
    fun _ hmem => List.mem_of_mem_eraseIdx hmem
  refine ⟨⟨h.engine, fun _ => h.reading (List.ne_nil_of_mem hcall),
    fun call' hmem => h.profiled call' (hleft call' hmem),
    fun call' hmem => h.packed call' (hleft call' hmem)⟩, fun request result heq => ?_⟩
  obtain ⟨rfl, rfl⟩ := Prod.mk.inj (Option.some.inj heq)
  rcases owned with _ | _
  · exact knowsRelations_error nofun
  · have hfinish := @HydrationCall.finish_ensures F _ _ call
      fun p hp id edge hedge => h.names hcall hp hedge
    simp only [if_true]
    refine ⟨fun reason herror => hfinish.of_error herror reason rfl, fun response hresponse => ?_,
      fun response hresponse p hp found hfound edge hedge => ?_⟩
    · rw [(hfinish.of_ok hresponse).1]
      exact h.profiled call hcall
    · obtain ⟨hprofile, hedges⟩ := hfinish.of_ok hresponse
      rw [hprofile] at hp
      exact h.names hcall hp (hedges found hfound edge hedge)

/-- Every step keeps the invariant, and every answer knows the relation kinds. -/
lemma step (h : HydratingInv config s) {action : HydratingAction} {o : HydrationAnswer F}
    (hstep : (hydration F config limit).step s action = some (s', o)) :
    HydratingInv config s' ∧ ∀ request result, o = some (request, result) →
      KnowsRelations request result := by
  simp only [hydration] at hstep
  split at hstep
  · cases hstep
    obtain ⟨t, hinv⟩ := h.engine
    exact ⟨⟨⟨t, hinv.crashed⟩, fun hne => absurd rfl hne, nofun, nofun⟩, nofun⟩
  · rename_i action hcrash
    split_ifs at hstep with hlock
    obtain ⟨⟨u, v⟩, hengine, heq⟩ := Option.map_eq_some_iff.1 hstep
    cases heq
    refine ⟨h.engineStep (fun ha => hcrash ha) (by simpa using hlock) hengine, nofun⟩
  · split_ifs at hstep with hphase
    exact h.beginHydrate hphase hstep
  · exact h.readCatalog hstep

end HydratingInv

/-- `hydrate` is made of the parts of a call. -/
lemma HydrationView.hydrate_eq (engine : HydrationView) (request : HydrationRequest) :
    engine.hydrate (F := F) request.nodeIds request.edgeIds request.profile = (do
      engine.beginHydration request
      let canonical ← engine.canonicalProfile request.profile
      HydrationCall.finish F ⟨request, canonical⟩ engine.db) := by
  simp only [hydrate, beginHydration, bind_assoc]
  rfl

/-- Whatever mutations, rebuilds, failed builds, insertions, routes, shutdowns and restarts go on
beside it, a hydration never answers with an integrity error, and its packed profile names the
relation kind of every edge it finds: as long as the call is in flight, the image its profile was
packed against is published, and is that of the confirmed graph. -/
theorem hydration_knowsRelations {config : PublicationConfig} {limit : U64} {s₀ : PublicationSystem}
    {s : HydratingSystem} {actions : List HydratingAction} {os : List (HydrationAnswer F)}
    (hstart : s₀.Initial) (hrun : (hydration F config limit).run ⟨s₀, []⟩ actions = some (s, os)) :
    (∀ request result, some (request, result) ∈ os → KnowsRelations request result) ∧
      ∀ call ∈ s.calls, ∀ p ∈ call.canonical, ∃ image, s.engine.routing = .available image ∧
        s.engine.IsCurrent image.bundle.graph ∧
        p.entries.map Prod.fst = image.bundle.graph.relationKinds.map (·.id) := by
  have hinv : HydratingInv config ⟨s₀, []⟩ := by
    refine ⟨⟨_, hstart.inv⟩, fun hne => absurd rfl hne, nofun, nofun⟩
  obtain ⟨hinv', hos⟩ := Machine.run_outputs (I := HydratingInv config)
    (P := fun o => ∀ request result, o = some (request, result) → KnowsRelations request result)
    (fun s a s' o hs hstep => hs.step hstep) hinv hrun
  refine ⟨fun request result hmem => hos _ hmem request result rfl, fun call hcall p hp => ?_⟩
  obtain ⟨image, t, -, hrouting, hcurrent, -, hentries⟩ := hinv'.current hcall hp
  exact ⟨image, hrouting, hcurrent, hentries⟩

/-- A node with an edge to itself is confirmed and published. -/
def loopPublished : List PublicationAction :=
  PublicationSystem.startActions ++
    [.insert [.node ⟨"a"⟩ ⟨[]⟩, .relationKind ⟨"r"⟩,
      .edge (.batchNode 0) (.batchNode 0) (.batchRelationKind 1) ⟨0, BaseWeight.zeroBits_le⟩] .written,
    .beginMutation (.confirmCandidateBatchWithResponseLimit [⟨1⟩, ⟨2⟩, ⟨3⟩] 10000),
    .awaitCapacity [], .mutate .written] ++ List.replicate 9 (.build .succeeds 1 .written) ++
    [.retire [], .build .succeeds 0 .written]

/-- A call for the edge, with a profile that disables its relation kind. -/
def loopRequest : HydrationRequest := ⟨[⟨1⟩], [⟨1⟩], some ⟨[(⟨1⟩, .disabled)]⟩⟩

/-- The call begins, a candidate is inserted, and the call reads the catalog. -/
def loopActions : List HydratingAction :=
  loopPublished.map .engine ++ [.beginHydrate loopRequest (.ok ()) (.imageCompilation ""),
    .engine (.insert [.node ⟨"b"⟩ ⟨[]⟩] .written), .readCatalog 0 true]

theorem hydration_knowsRelations_loop : ∃ s os result,
    (hydration SoftBinary64 PublicationSystem.smallConfig ⟨8, by decide⟩).run
      ⟨PublicationSystem.fresh, []⟩ loopActions = some (s, os) ∧
    some (loopRequest, result) ∈ os ∧ KnowsRelations loopRequest result ∧
    ∃ response, result = .ok response ∧ (response.edges.map (·.state.isSome)) = [true] := by
  have hfound : ((hydration SoftBinary64 PublicationSystem.smallConfig ⟨8, by decide⟩).run
      ⟨PublicationSystem.fresh, []⟩ loopActions).map (fun r => r.2.getLast?.join.map fun answer =>
        (decide (answer.1 = loopRequest), answer.2.toOption.map fun response =>
          response.edges.map (·.state.isSome))) = some (some (true, some [true])) := by
    decide +kernel
  obtain ⟨⟨s, os⟩, hrun, hlast⟩ := Option.map_eq_some_iff.1 hfound
  obtain ⟨⟨request, result⟩, hanswer, hresult⟩ := Option.map_eq_some_iff.1 hlast
  simp only [Prod.mk.injEq, decide_eq_true_eq, Option.map_eq_some_iff] at hresult
  obtain ⟨rfl, response, hresponse, hedges⟩ := hresult
  have hmem : some (loopRequest, result) ∈ os := by
    apply List.mem_of_getLast?
    rcases hget : os.getLast? with _ | o
    · simp [hget] at hanswer
    · simpa [hget] using hanswer
  refine ⟨s, os, result, hrun, hmem, ?_, response, toOption_eq_some.1 hresponse, hedges⟩
  exact (hydration_knowsRelations PublicationSystem.fresh_initial hrun).1 _ _ hmem

end PathHydra
