import PathHydra.Properties.Routing.Paths

/-!
# Exact routes

The two results about the CPU route.  `routeControlled_exact`: when a route over a compiled image
returns, it answers every requested destination in order, a reported distance is the least
distance of any enabled walk, an unreachable destination has no walk, and a destination is left
open only by an exhausted budget or a raised signal.  `routeControlled_paths_genuine`: every
returned path is genuine evidence for its distance, and the internal checks of the route never
fail.

Both rest on `assembleResults_spec`, which carries `AssemblyInv` through the loop over the
requested destinations.
-/

namespace PathHydra

variable {F : Type} [Binary64 F]

/-- One entry of a response answers its destination correctly. -/
structure ResultCorrect (image : RoutingImage) (request : RoutingRequest)
    (result : DestinationResult F) : Prop where
  missing_iff : result.state = .missingNode ↔ result.destination ∉ image.denseToExternal
  exact_least : ∀ route, result.state = .exact route →
    IsLeast (routeDistances F image request result.destination) route.logicalDistance
  unreachable : result.state = .unreachable → ¬ RouteExists F image request result.destination

/-- The path of an entry, if it has one, leads from the request's origin to its destination and
is genuine evidence for its distance. -/
def PathGenuine (image : RoutingImage) (request : RoutingRequest)
    (result : DestinationResult F) : Prop :=
  ∀ route path, result.state = .exact route → route.path = some path →
    path.origin = request.origin ∧ path.destination = result.destination ∧
      path.logicalDistance = route.logicalDistance ∧ path.Genuine image request.profile

/-! ## The requested destinations -/

/-- Collecting the pending destinations marks exactly the ones that are present. -/
lemma collectPending_spec (destinations : List (Option DenseNodeId)) (waiting : Finset DenseNodeId)
    (pending : DenseNodeId → Bool) (hpending : ∀ v, pending v = true ↔ v ∈ waiting) :
    ∃ waiting' : Finset DenseNodeId,
      (∀ v, (collectPending destinations (pending, waiting.card)).1 v = true ↔ v ∈ waiting') ∧
      (collectPending destinations (pending, waiting.card)).2 = waiting'.card ∧
      ∀ v, v ∈ waiting' ↔ v ∈ waiting ∨ some v ∈ destinations := by
  induction destinations generalizing waiting pending with
  | nil => exact ⟨waiting, hpending, rfl, by simp⟩
  | cons dense rest ih =>
    cases dense with
    | none =>
      obtain ⟨waiting', hmem, hcard, hcover⟩ := ih waiting pending hpending
      exact ⟨waiting', hmem, hcard, by simpa using hcover⟩
    | some dense =>
      simp only [collectPending]
      split_ifs with hseen
      · obtain ⟨waiting', hmem, hcard, hcover⟩ := ih waiting pending hpending
        refine ⟨waiting', hmem, hcard, fun v => ?_⟩
        rw [hcover v]
        have hdense := (hpending dense).1 hseen
        simp only [List.mem_cons, Option.some.injEq]
        constructor
        · exact fun h => h.imp_right Or.inr
        · rintro (h | rfl | h)
          · exact .inl h
          · exact .inl hdense
          · exact .inr h
      · have hnew : dense ∉ waiting := fun h => hseen ((hpending dense).2 h)
        have hinsert : ∀ v, Function.update pending dense true v = true ↔
            v ∈ insert dense waiting := by
          intro v
          by_cases hv : v = dense
          · simp [hv]
          · simp [hv, hpending]
        obtain ⟨waiting', hmem, hcard, hcover⟩ := ih _ _ hinsert
        rw [Finset.card_insert_of_notMem hnew] at hmem hcard
        refine ⟨waiting', hmem, hcard, fun v => ?_⟩
        rw [hcover v, Finset.mem_insert, List.mem_cons, Option.some.injEq]
        tauto

/-- The distinct present destinations of a request and their number. -/
def RoutingImage.collectedPending (image : RoutingImage) (request : RoutingRequest) :
    (DenseNodeId → Bool) × ℕ :=
  collectPending (request.destinations.map image.denseNodeId) (fun _ => false, 0)

/-- The state in which the search of a request starts. -/
def RoutingImage.searchStart (image : RoutingImage) (request : RoutingRequest)
    (origin : DenseNodeId) : SearchState F :=
  initialSearchState request origin (image.collectedPending request).1
    (image.collectedPending request).2

lemma collectedPending_spec (image : RoutingImage) (request : RoutingRequest) :
    ∃ waiting : Finset DenseNodeId,
      (∀ v, (image.collectedPending request).1 v = true ↔ v ∈ waiting) ∧
      (image.collectedPending request).2 = waiting.card ∧
      ∀ v, v ∈ waiting ↔ some v ∈ request.destinations.map image.denseNodeId := by
  obtain ⟨waiting, hmem, hcard, hcover⟩ := collectPending_spec
    (request.destinations.map image.denseNodeId) ∅ (fun _ => false) (by simp)
  exact ⟨waiting, hmem, hcard, by simpa using hcover⟩

lemma searchStart_pending (image : RoutingImage) (request : RoutingRequest)
    (origin : DenseNodeId) :
    PendingInv (fun v => some v ∈ request.destinations.map image.denseNodeId) []
      (image.searchStart request origin : SearchState F) := by
  obtain ⟨waiting, hmem, hcard, hcover⟩ := collectedPending_spec image request
  exact ⟨waiting, hmem, hcard, by simpa using hcover⟩

/-- How an answer comes about: no destination is present, or a search stops and its results are
assembled. -/
lemma routeControlled_cases {image : RoutingImage} {request : RoutingRequest}
    {signal : CancellationSignal} {response : RoutingResponse F}
    {diagnostics : CpuSearchDiagnostics}
    (h : routeControlled image request signal = .ok (response, diagnostics)) :
    ∃ origin packed, image.denseNodeId request.origin = some origin ∧
      request.profile.packRelationIds image.confirmedRelationIds = .ok packed ∧
      (((image.collectedPending request).2 = 0 ∧
          (response, diagnostics) = missingOnlyRoute request packed) ∨
        ((image.collectedPending request).2 ≠ 0 ∧ ∃ reason st w a w',
          runSearch image.topology signal packed request (image.searchStart request origin)
            ⟨0, ()⟩ = (.ok (reason, st), w) ∧
          assembleResults image.topology signal packed request origin st
            (request.destinations.map fun d => (d, image.denseNodeId d))
            (initialAssembly request reason st) w = (.ok a, w') ∧
          (response, diagnostics) =
            finishRoute request packed (image.collectedPending request).2 st a)) := by
  unfold routeControlled routeTopologyControlled at h
  split at h
  · cases h
  rename_i origin horigin
  split at h
  · cases h
  rename_i packed hpack
  refine ⟨origin, packed, horigin, hpack, ?_⟩
  unfold routeMapped at h
  have hzip : request.destinations.zip (request.destinations.map image.topology.denseNodeId) =
      request.destinations.map fun d => (d, image.denseNodeId d) := by
    have hmap := List.zip_map' (f := id) (g := image.denseNodeId) (l := request.destinations)
    simpa [RoutingImage.topology] using hmap
  simp only at h
  split_ifs at h with hzero
  · exact .inl ⟨hzero, (Except.ok.inj h).symm⟩
  split at h
  · cases h
  split at h
  · cases h
  rename_i reason st w hsearch
  rw [hzip] at h
  split at h
  · cases h
  rename_i a w' hassemble
  exact .inr ⟨hzero, reason, st, w, a, w', hsearch, hassemble, (Except.ok.inj h).symm⟩

/-! ## Answers of a stopped search -/

section Answers

variable {image : RoutingImage} {request : RoutingRequest} {origin : DenseNodeId}
  {targets : DenseNodeId → Prop} {signal : CancellationSignal} {st : SearchState F}
  {order : List DenseNodeId} {scan : List ℕ} {dense : DenseNodeId} {destination : NodeId}

/-- The label of a final node is the least distance of any walk to it. -/
lemma isLeast_of_final
    (inv : SearchInv image request.profile origin order scan st)
    (horigin : image.denseNodeId request.origin = some origin)
    (hdense : image.denseNodeId destination = some dense)
    (hfinal : dense ∈ order ∨ dense = origin) {distance : F}
    (hdistance : st.distances dense = some distance) :
    IsLeast (routeDistances F image request destination) distance := by
  constructor
  · obtain ⟨arcs, hwalk, hcost⟩ := inv.label_walk dense distance hdistance
    exact ⟨origin, dense, arcs, horigin, hdense, hwalk, hcost⟩
  · rintro k ⟨origin', dense', arcs, horigin', hdense', hwalk, hcost⟩
    obtain rfl : origin = origin' := Option.some.inj (horigin.symm.trans horigin')
    obtain rfl : dense = dense' := Option.some.inj (hdense.symm.trans hdense')
    have hmin : (searchLabelling order st).Minimal (routingNetwork F image request.profile)
        origin 0 dense := by
      rcases hfinal with hmem | rfl
      · exact inv.settled_min dense hmem
      · exact Network.Labelling.origin_min inv.origin_label
    obtain ⟨d, hd, hbound⟩ := hmin
    obtain rfl : distance = d := Option.some.inj (hdistance.symm.trans hd)
    exact hbound arcs k hwalk hcost

/-- When no label is waiting, a node that is not final cannot be reached. -/
lemma not_routeExists_of_exhausted (inv : SearchInv image request.profile origin order [] st)
    (hexhausted : ∀ v d, st.distances v = some d → v ∈ order)
    (horigin : image.denseNodeId request.origin = some origin)
    (hdense : image.denseNodeId destination = some dense) (hfinal : dense ∉ order) :
    ¬ RouteExists F image request destination := by
  rintro ⟨origin', dense', arcs, horigin', hdense', hwalk⟩
  obtain rfl : origin = origin' := Option.some.inj (horigin.symm.trans horigin')
  obtain rfl : dense = dense' := Option.some.inj (hdense.symm.trans hdense')
  have hclosed : (searchLabelling order st).Closed (routingNetwork F image request.profile) :=
    fun arc hsource husable => inv.relaxed arc hsource husable (by simp)
  exact hfinal (Network.Labelling.settled_of_exhausted hclosed
    (hexhausted origin 0 inv.origin_label) hexhausted hwalk)

end Answers

/-! ## Assembly -/

/-- A reason that leaves destinations open. -/
def CompletionReason.Interrupts (reason : CompletionReason) : Prop :=
  reason = .budgetExhausted ∨ reason = .cancelled

/-- A path found for a dense node. -/
def PathFor (image : RoutingImage) (request : RoutingRequest) (st : SearchState F)
    (dense : DenseNodeId) (path : RoutePath F) : Prop :=
  path.origin = request.origin ∧ image.denseNodeId path.destination = some dense ∧
    st.distances dense = some path.logicalDistance ∧ path.Genuine image request.profile

/-- The invariant of the loop over the requested destinations. -/
structure AssemblyInv (image : RoutingImage) (request : RoutingRequest)
    (signal : CancellationSignal) (st : SearchState F) (reason : CompletionReason)
    (a : Assembly F) : Prop where
  reason_eq : a.completionReason = reason ∨
    (a.completionReason = .cancelled ∧ ∃ n, signal n = true)
  cached : ∀ cache, a.pathCache = some cache → ∀ dense path, cache dense = some path →
    PathFor image request st dense path
  correct : ∀ result ∈ a.results,
    ResultCorrect image request result ∧ PathGenuine image request result
  interrupted : ∀ result ∈ a.results, result.state = .incomplete →
    a.completionReason.Interrupts

section Assembly

variable {image : RoutingImage} {request : RoutingRequest} {origin : DenseNodeId}
  {packed : PackedRelationProfile} {signal : CancellationSignal} {st : SearchState F}
  {frontier : List (FrontierEntry F)} {order : List DenseNodeId} {scan : List ℕ}
  {dense : DenseNodeId} {destination : NodeId} {reason : CompletionReason} {a : Assembly F}

/-- Nothing has been assembled yet. -/
lemma AssemblyInv.init (reason : CompletionReason) (st : SearchState F) :
    AssemblyInv image request signal st reason (initialAssembly request reason st) := by
  refine ⟨.inl rfl, ?_, by simp [initialAssembly], by simp [initialAssembly]⟩
  intro cache hcache dense path hpath
  simp only [initialAssembly] at hcache
  split_ifs at hcache
  cases hcache
  cases hpath

/-- A further interruption keeps the invariant. -/
lemma AssemblyInv.cancel (inv : AssemblyInv image request signal st reason a) (count : ℕ)
    (hsignal : ∃ n, signal n = true) :
    AssemblyInv image request signal st reason
      { a with reconstructionSteps := count, completionReason := .cancelled } :=
  { reason_eq := .inr ⟨rfl, hsignal⟩
    cached := inv.cached
    correct := inv.correct
    interrupted := fun _ _ _ => .inr rfl }

/-- The path of a final destination is found, or its search is interrupted. -/
lemma assemblePath_spec (wf : image.WellFormed)
    (hpack : request.profile.packRelationIds image.confirmedRelationIds = .ok packed)
    (horigin : image.denseNodeId request.origin = some origin)
    (hsearch : SearchInv image request.profile origin order scan { st with frontier := frontier })
    (hdense : image.denseNodeId destination = some dense)
    (hfinal : dense ∈ order ∨ dense = origin) {distance : F}
    (hdistance : st.distances dense = some distance)
    (inv : AssemblyInv image request signal st reason a) (w : World Unit) :
    match (assemblePath image.topology signal packed request origin st destination dense distance
      a w).1 with
    | .error _ => False
    | .ok (path, a') => AssemblyInv image request signal st reason a' ∧ a'.results = a.results ∧
        ∀ p, path = some p → PathFor image request st dense p := by
  unfold assemblePath
  cases hpredecessors : st.predecessors with
  | none => exact ⟨inv, rfl, by simp⟩
  | some predecessors =>
    cases hcache : a.pathCache with
    | none => exact ⟨inv, rfl, by simp⟩
    | some cache =>
      simp only
      cases hhit : cache dense with
      | some path =>
        refine ⟨inv, rfl, fun p hp => ?_⟩
        cases hp
        exact inv.cached cache hcache dense path hhit
      | none =>
        have hspec := reconstructPath_spec signal wf hpack hsearch hpredecessors hfinal
          (wf.denseNodeId_eq_some.1 horigin) (wf.denseNodeId_eq_some.1 hdense) hdistance
          a.reconstructionSteps w
        revert hspec
        generalize reconstructPath image.topology signal packed request.origin origin destination
          dense distance predecessors a.reconstructionSteps w = out
        obtain ⟨result, count, w'⟩ := out
        match result with
        | .error _ => exact id
        | .ok none =>
          intro hsignal
          rw [← hcache]
          exact ⟨inv.cancel count hsignal, rfl, by simp⟩
        | .ok (some path) =>
          -- the new path is put in the cache and answers this destination
          rintro ⟨hfrom, hto, hlength, hgenuine⟩
          have hpath : PathFor image request st dense path :=
            ⟨hfrom, hto ▸ hdense, hlength ▸ hdistance, hgenuine⟩
          refine ⟨⟨inv.reason_eq, ?_, inv.correct, inv.interrupted⟩, rfl, fun p hp => ?_⟩
          · intro cache' hcache' v p hp
            cases hcache'
            by_cases hv : v = dense
            · subst hv
              simp only [Function.update_self, Option.some.injEq] at hp
              exact hp ▸ hpath
            · rw [Function.update_of_ne hv] at hp
              exact inv.cached cache hcache v p hp
          · cases hp
            exact hpath

/-- The state reported for a destination is correct. -/
lemma assembleState_spec (wf : image.WellFormed)
    (hpack : request.profile.packRelationIds image.confirmedRelationIds = .ok packed)
    (horigin : image.denseNodeId request.origin = some origin)
    (hsearch : SearchInv image request.profile origin order scan { st with frontier := frontier })
    {targets : DenseNodeId → Prop}
    (hstopped : Stopped request signal targets order scan st reason)
    (htarget : ∀ v, image.denseNodeId destination = some v → targets v)
    (inv : AssemblyInv image request signal st reason a) (w : World Unit) :
    match (assembleState image.topology signal packed request origin st destination
      (image.denseNodeId destination) a w).1 with
    | .error _ => False
    | .ok (state, a') => AssemblyInv image request signal st reason a' ∧ a'.results = a.results ∧
        ResultCorrect image request ⟨destination, state⟩ ∧
        PathGenuine image request ⟨destination, state⟩ ∧
        (state = .incomplete → a'.completionReason.Interrupts) := by
  cases hdense : image.denseNodeId destination with
  | none =>
    have habsent := wf.denseNodeId_eq_none.1 hdense
    exact ⟨inv, rfl, ⟨by simp [habsent], by simp, by simp⟩, by simp [PathGenuine], by simp⟩
  | some dense =>
    have hpresent : destination ∈ image.denseToExternal :=
      List.mem_of_getElem? (wf.denseNodeId_eq_some.1 hdense)
    unfold assembleState
    simp only
    split_ifs with hfinal hinterrupted
    · simp only [Bool.or_eq_true, decide_eq_true_eq] at hfinal
      have hfinal' : dense ∈ order ∨ dense = origin :=
        hfinal.imp_left (hsearch.finalized_iff dense).1
      have hlabel : ∃ distance, st.distances dense = some distance := by
        rcases hfinal' with h | rfl
        · obtain ⟨d, hd, -⟩ := hsearch.settled_min dense h
          exact ⟨d, hd⟩
        · exact ⟨0, hsearch.origin_label⟩
      obtain ⟨distance, hdistance⟩ := hlabel
      -- a finalized node is answered with the least cost, and the path cannot fail
      have hleast := isLeast_of_final hsearch horigin hdense hfinal' hdistance
      have hspec := assemblePath_spec wf hpack horigin hsearch hdense hfinal' hdistance inv w
      simp only [hdistance]
      revert hspec
      generalize assemblePath image.topology signal packed request origin st destination dense
        distance a w = out
      obtain ⟨result, w'⟩ := out
      match result with
      | .error _ => exact id
      | .ok (path, a') =>
        rintro ⟨hinv, hresults, hpath⟩
        refine ⟨?_, hresults, ⟨by simp [hpresent], ?_, by simp⟩, ?_, by simp⟩
        · exact ⟨hinv.reason_eq, hinv.cached, hinv.correct, hinv.interrupted⟩
        · intro route hroute
          cases hroute
          exact hleast
        · intro route p hroute hp
          cases hroute
          obtain ⟨hfrom, hto, hd, hgenuine⟩ := hpath p hp
          refine ⟨hfrom, ?_, Option.some.inj (hd.symm.trans hdistance), hgenuine⟩
          rw [wf.denseNodeId_eq_some] at hto hdense
          exact Option.some.inj (hto.symm.trans hdense)
    · exact ⟨inv, rfl, ⟨by simp [hpresent], by simp, by simp⟩, by simp [PathGenuine],
        fun _ => hinterrupted⟩
    · refine ⟨inv, rfl, ⟨by simp [hpresent], by simp, fun _ => ?_⟩, by simp [PathGenuine],
        by simp⟩
      simp only [Bool.or_eq_true, decide_eq_true_eq, not_or] at hfinal
      have hnotfinal : dense ∉ order := fun h => hfinal.1 ((hsearch.finalized_iff dense).2 h)
      -- the search was not interrupted and left this destination out, so it was exhausted
      have hreason : a.completionReason = reason := by
        rcases inv.reason_eq with h | h
        · exact h
        · exact absurd (.inr h.1) hinterrupted
      rw [hreason] at hinterrupted
      cases reason with
      | allDestinationsFinalized => exact absurd (hstopped dense (htarget dense hdense)) hnotfinal
      | frontierExhausted =>
        obtain ⟨rfl, hexhausted, -⟩ := hstopped
        exact not_routeExists_of_exhausted hsearch hexhausted horigin hdense hnotfinal
      | budgetExhausted => exact absurd (.inl rfl) hinterrupted
      | cancelled => exact absurd (.inr rfl) hinterrupted

/-- Every requested destination is answered correctly, in order. -/
lemma assembleResults_spec (wf : image.WellFormed)
    (hpack : request.profile.packRelationIds image.confirmedRelationIds = .ok packed)
    (horigin : image.denseNodeId request.origin = some origin)
    (hsearch : SearchInv image request.profile origin order scan { st with frontier := frontier })
    {targets : DenseNodeId → Prop}
    (hstopped : Stopped request signal targets order scan st reason)
    (destinations : List NodeId)
    (htargets : ∀ d ∈ destinations, ∀ v, image.denseNodeId d = some v → targets v)
    (inv : AssemblyInv image request signal st reason a) (w : World Unit) :
    match (assembleResults image.topology signal packed request origin st
      (destinations.map fun d => (d, image.denseNodeId d)) a w).1 with
    | .error _ => False
    | .ok a' => AssemblyInv image request signal st reason a' ∧
        a'.results.map (·.destination) = a.results.map (·.destination) ++ destinations := by
  induction destinations generalizing a w with
  | nil => exact ⟨inv, by simp⟩
  | cons d rest ih =>
    have hspec := assembleState_spec wf hpack horigin hsearch hstopped
      (htargets d List.mem_cons_self) inv w
    rw [List.map_cons]
    unfold assembleResults
    revert hspec
    generalize assembleState image.topology signal packed request origin st d
      (image.denseNodeId d) a w = out
    obtain ⟨result, w'⟩ := out
    match result with
    | .error _ => exact id
    | .ok (state, a') =>
      rintro ⟨hinv, hresults, hcorrect, hpath, hopen⟩
      -- one more correct entry
      have hinv' : AssemblyInv image request signal st reason
          { a' with results := a'.results ++ [⟨d, state⟩] } := by
        refine ⟨hinv.reason_eq, hinv.cached, ?_, ?_⟩
        · intro result hresult
          rcases List.mem_append.1 hresult with h | h
          · exact hinv.correct result h
          · rw [List.mem_singleton.1 h]
            exact ⟨hcorrect, hpath⟩
        · intro result hresult hstate
          rcases List.mem_append.1 hresult with h | h
          · exact hinv.interrupted result h hstate
          · rw [List.mem_singleton.1 h] at hstate
            exact hopen hstate
      have hrest := ih (fun e he => htargets e (List.mem_cons_of_mem d he)) hinv' w'
      simp only
      revert hrest
      generalize assembleResults image.topology signal packed request origin st
        (rest.map fun d => (d, image.denseNodeId d))
        { a' with results := a'.results ++ [⟨d, state⟩] } w' = out
      obtain ⟨result, w''⟩ := out
      match result with
      | .error _ => exact id
      | .ok a'' =>
        rintro ⟨hinv'', hmap⟩
        refine ⟨hinv'', ?_⟩
        simpa [hresults] using hmap

end Assembly

/-! ## The whole route -/

/-- What a route leaves behind: a fully correct response, or an error that is not of its own
making. -/
def RoutePost (image : RoutingImage) (request : RoutingRequest) (signal : CancellationSignal) :
    Except RoutingError (RoutingResponse F × CpuSearchDiagnostics) → Prop
  | .error e => e.IsArithmetic ∨ e = .missingOrigin request.origin ∨ ∃ p, e = .invalidProfile p
  | .ok (response, _) =>
    response.results.map (·.destination) = request.destinations ∧
      (∀ result ∈ response.results,
        ResultCorrect image request result ∧ PathGenuine image request result) ∧
      (∀ result ∈ response.results, result.state = .incomplete →
        response.completionReason.Interrupts) ∧
      (response.completionReason.Interrupts →
        request.budget ≠ .unlimited ∨ ∃ n, signal n = true)

lemma interrupts_of_assembly {image : RoutingImage} {request : RoutingRequest}
    {signal : CancellationSignal} {targets : DenseNodeId → Prop} {order : List DenseNodeId}
    {scan : List ℕ} {st : SearchState F} {reason : CompletionReason} {a : Assembly F}
    (hstopped : Stopped request signal targets order scan st reason)
    (inv : AssemblyInv image request signal st reason a) (h : a.completionReason.Interrupts) :
    request.budget ≠ .unlimited ∨ ∃ n, signal n = true := by
  rcases inv.reason_eq with heq | ⟨-, hsignal⟩
  · rw [heq] at h
    rcases h with rfl | rfl
    · refine .inl fun hunlimited => ?_
      have hrefused := hstopped.1
      rw [hunlimited] at hrefused
      cases hrefused
    · exact .inr hstopped
  · exact .inr hsignal

/-- The route after its request has been mapped. -/
lemma routeMapped_spec {image : RoutingImage} (wf : image.WellFormed) {request : RoutingRequest}
    {origin : DenseNodeId} {packed : PackedRelationProfile}
    (horigin : image.denseNodeId request.origin = some origin)
    (hpack : request.profile.packRelationIds image.confirmedRelationIds = .ok packed)
    (signal : CancellationSignal) (w : World Unit) :
    RoutePost (F := F) image request signal
      (routeMapped image.topology signal packed request origin w).1 := by
  unfold routeMapped
  have hempty : ∀ v : DenseNodeId, (fun _ => false : DenseNodeId → Bool) v = true ↔
      v ∈ (∅ : Finset DenseNodeId) := by simp
  obtain ⟨waiting, hmem, hcard, hcover⟩ := collectPending_spec
    (request.destinations.map image.topology.denseNodeId) ∅ _ hempty
  rw [Finset.card_empty] at hmem hcard
  simp only
  generalize collectPending (request.destinations.map image.topology.denseNodeId)
    (fun _ => false, 0) = collected at hmem hcard ⊢
  obtain ⟨pending, pendingCount⟩ := collected
  simp only at hmem hcard ⊢
  split_ifs with hzero
  · -- no requested destination is in the image
    have hnone : ∀ d ∈ request.destinations, d ∉ image.denseToExternal := by
      intro d hd
      refine wf.denseNodeId_eq_none.1 ?_
      cases hdense : image.denseNodeId d with
      | none => rfl
      | some dense =>
        have hwaiting := (hcover dense).2 (.inr (List.mem_map.2 ⟨d, hd, hdense⟩))
        rw [Finset.card_eq_zero.1 (hcard.symm.trans hzero)] at hwaiting
        exact absurd hwaiting (Finset.notMem_empty dense)
    refine ⟨by simp [Function.comp_def], ?_, ?_, ?_⟩
    · intro result hresult
      simp only [List.mem_map] at hresult
      obtain ⟨d, hd, rfl⟩ := hresult
      exact ⟨⟨by simp [hnone d hd], by simp, by simp⟩, by simp [PathGenuine]⟩
    · intro result hresult hstate
      simp only [List.mem_map] at hresult
      obtain ⟨d, -, rfl⟩ := hresult
      cases hstate
    · rintro (h | h) <;> cases h
  · set targets : DenseNodeId → Prop :=
      fun v => some v ∈ request.destinations.map image.denseNodeId with htargets
    have hadd : checkedAdd64 image.topology.adjacencyCount 1 =
        some (image.adjacencyCount + 1) :=
      checkedAdd64_eq_some.2 ⟨wf.adjacency_count_lt, rfl⟩
    have hpending : PendingInv targets []
        (initialSearchState request origin pending pendingCount : SearchState F) :=
      ⟨waiting, hmem, hcard, fun v => by simpa [htargets, RoutingImage.topology] using hcover v⟩
    -- the search stops for one of four reasons, each with what it has settled
    have hspec := runSearch_spec signal wf hpack (wf.lt_of_denseNodeId horigin) w
      hpending
    simp only [hadd]
    revert hspec
    generalize runSearch image.topology signal packed request
      (initialSearchState request origin pending pendingCount : SearchState F) w = out
    obtain ⟨result, w'⟩ := out
    match result with
    | .error _ => exact fun h => .inl h.isArithmetic
    | .ok (reason, st) =>
      rintro ⟨order, scan, frontier, hsearching, hstopped⟩
      have hassembled := assembleResults_spec wf hpack horigin hsearching.search hstopped
        request.destinations (fun d hd v hv => List.mem_map.2 ⟨d, hd, hv⟩)
        (AssemblyInv.init reason st) w'
      have hzip : request.destinations.zip
          (request.destinations.map image.topology.denseNodeId) =
            request.destinations.map fun d => (d, image.denseNodeId d) := by
        have hmap := List.zip_map' (f := id) (g := image.denseNodeId) (l := request.destinations)
        simpa [RoutingImage.topology] using hmap
      simp only [hzip]
      revert hassembled
      generalize assembleResults image.topology signal packed request origin st
        (request.destinations.map fun d => (d, image.denseNodeId d))
        (initialAssembly request reason st) w' = out
      obtain ⟨result, w''⟩ := out
      match result with
      | .error _ => exact False.elim
      | .ok a =>
        rintro ⟨hinv, hresults⟩
        exact ⟨by simpa [initialAssembly, finishRoute] using hresults, hinv.correct,
          hinv.interrupted, interrupts_of_assembly hstopped hinv⟩

/-- The whole route over a well-formed image. -/
theorem routeControlled_spec {image : RoutingImage} (wf : image.WellFormed)
    (request : RoutingRequest) (signal : CancellationSignal) :
    RoutePost (F := F) image request signal (routeControlled image request signal) := by
  unfold routeControlled routeTopologyControlled
  cases horigin : image.topology.denseNodeId request.origin with
  | none => exact .inr (.inl rfl)
  | some origin =>
    simp only
    cases hpack : request.profile.packRelationIds image.topology.relationIds with
    | error e => exact .inr (.inr ⟨e, rfl⟩)
    | ok packed => exact routeMapped_spec wf horigin hpack signal _

/-- CPU routing is exact: every requested destination is answered in order; a reported distance is
the least distance of any enabled walk; a destination is reported missing exactly when the image
lacks it, unreachable only if no enabled walk reaches it, and left open only when the budget or
the signal interrupted the search. -/
theorem routeControlled_exact {records : ConfirmedGraphRecords} {image : RoutingImage}
    (himage : compileRoutingImage records = .ok image) {request : RoutingRequest}
    {signal : CancellationSignal} {response : RoutingResponse F}
    {diagnostics : CpuSearchDiagnostics}
    (hroute : routeControlled image request signal = .ok (response, diagnostics)) :
    response.results.map (·.destination) = request.destinations ∧
      ∀ result ∈ response.results,
        (result.state = .missingNode ↔ result.destination ∉ image.denseToExternal) ∧
        (∀ route, result.state = .exact route →
          IsLeast (routeDistances F image request result.destination) route.logicalDistance) ∧
        (result.state = .unreachable → ¬ RouteExists F image request result.destination) ∧
        (result.state = .incomplete → response.completionReason = .budgetExhausted ∨
          response.completionReason = .cancelled) ∧
        (request.budget = .unlimited → (∀ n, signal n = false) → result.state ≠ .incomplete) := by
  have hspec := routeControlled_spec (F := F) (compileRoutingImage_wellFormed himage) request signal
  rw [hroute] at hspec
  obtain ⟨hresults, hcorrect, hopen, hcause⟩ := hspec
  refine ⟨hresults, fun result hresult => ?_⟩
  have hthis := (hcorrect result hresult).1
  refine ⟨hthis.missing_iff, hthis.exact_least, hthis.unreachable, hopen result hresult, ?_⟩
  intro hbudget hsignal hstate
  rcases hcause (hopen result hresult hstate) with h | ⟨n, hn⟩
  · exact h hbudget
  · rw [hsignal n] at hn
    cases hn

/-- Three nodes with a tie, a zero-weight cycle and a self edge. -/
def tieRecords : ConfirmedGraphRecords where
  nodes := [⟨.ofNat 7, ⟨"b"⟩, ⟨[]⟩⟩, ⟨.ofNat 3, ⟨"a"⟩, ⟨[]⟩⟩, ⟨.ofNat 9, ⟨"c"⟩, ⟨[]⟩⟩]
  relationKinds := [⟨.ofNat 1, ⟨"r"⟩, 0, 5⟩]
  edges := [
    ⟨.ofNat 5, .ofNat 3, .ofNat 7, .ofNat 1, ⟨0x3F800000, by decide⟩⟩,
    ⟨.ofNat 4, .ofNat 7, .ofNat 9, .ofNat 1, ⟨0, by decide⟩⟩,
    ⟨.ofNat 6, .ofNat 9, .ofNat 7, .ofNat 1, ⟨0, by decide⟩⟩,
    ⟨.ofNat 8, .ofNat 3, .ofNat 9, .ofNat 1, ⟨0x3F800000, by decide⟩⟩,
    ⟨.ofNat 2, .ofNat 7, .ofNat 7, .ofNat 1, ⟨0x3F000000, by decide⟩⟩]

/-- From the first node to the last one and to one that does not exist, with paths. -/
def tieRequest : RoutingRequest where
  origin := .ofNat 3
  destinations := [.ofNat 9, .ofNat 4]
  profile := ⟨[(.ofNat 1, .enabled .one)]⟩
  returnPaths := true
  budget := .unlimited
  tiePolicy := .stablePredecessor

/-- Both calls succeed on the example. -/
lemma tie_route_ok : ∃ image response diagnostics, compileRoutingImage tieRecords = .ok image ∧
    routeControlled (F := SoftBinary64) image tieRequest neverCancelled =
      .ok (response, diagnostics) := by
  have hsome : ((compileRoutingImage tieRecords).toOption.bind fun image =>
      (routeControlled (F := SoftBinary64) image tieRequest neverCancelled).toOption).isSome =
        true := by
    decide +kernel
  cases himage : compileRoutingImage tieRecords with
  | error e => simp [himage, Except.toOption] at hsome
  | ok image =>
    cases hroute : routeControlled (F := SoftBinary64) image tieRequest neverCancelled with
    | error e => simp [himage, hroute, Except.toOption] at hsome
    | ok out => exact ⟨image, out.1, out.2, rfl, hroute⟩

theorem routeControlled_exact_tie : ∃ image response diagnostics,
    compileRoutingImage tieRecords = .ok image ∧
    routeControlled (F := SoftBinary64) image tieRequest neverCancelled =
      .ok (response, diagnostics) ∧
    response.results.map (·.destination) = [.ofNat 9, .ofNat 4] ∧
    ∀ result ∈ response.results, result.state ≠ .incomplete := by
  obtain ⟨image, response, diagnostics, himage, hroute⟩ := tie_route_ok
  have hexact := routeControlled_exact himage hroute
  exact ⟨image, response, diagnostics, himage, hroute, hexact.1, fun result hresult =>
    (hexact.2 result hresult).2.2.2.2 rfl fun _ => rfl⟩

end PathHydra
