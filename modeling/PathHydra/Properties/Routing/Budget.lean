import PathHydra.Properties.Api.Assembly

/-!
# What a budget changes

A search with a smaller budget is the same search, stopped earlier.  `Curtailed` compares one run of
a loop under two budgets: nothing differs as long as the larger run stays within the smaller budget,
and otherwise the smaller run stops at the edge its budget no longer permits, with everything it has
made final already as the larger run leaves it.
-/

namespace PathHydra

variable {F : Type} [Binary64 F] {image : RoutingImage} {packed : PackedRelationProfile}
  {request : RoutingRequest} {signal : CancellationSignal}

/-! ## The search makes progress -/

/-- What a search has examined and made final stays. -/
structure Progress (st st' : SearchState F) : Prop where
  examined : st.examinedEdges ≤ st'.examinedEdges
  frozen : Frozen st st'

omit [Binary64 F] in
lemma Progress.trans {st st₁ st₂ : SearchState F} (h : Progress st st₁) (h' : Progress st₁ st₂) :
    Progress st st₂ :=
  ⟨h.examined.trans h'.examined, h.frozen.trans h'.frozen⟩

lemma relaxEdge_examined {current : FrontierEntry F} {i : ℕ} {edge : OutgoingEdge}
    {st st' : SearchState F} (h : relaxEdge packed current i edge st = .ok st') :
    st'.examinedEdges = st.examinedEdges := by
  rcases relaxEdge_cases h with ⟨rfl, -⟩ | ⟨m, d, -, hnew, -, rfl⟩
  · rfl
  · exact (applyCandidate_frame hnew).examinedEdges

/-- Examining one edge. -/
lemma examine_progress {current : FrontierEntry F} {i : ℕ} {edge : OutgoingEdge} {n : ℕ}
    {st st' : SearchState F} (hn : st.examinedEdges ≤ n)
    (h : relaxEdge packed current i edge { st with examinedEdges := n } = .ok st') :
    Progress st st' ∧ st'.examinedEdges = n := by
  have hexamined := relaxEdge_examined h
  have hfrozen := relaxEdge_frozen h
  exact ⟨⟨hexamined ▸ hn, hfrozen.finalized, hfrozen.distances, hfrozen.predecessors⟩, hexamined⟩

lemma relaxRange_progress {budget : SearchBudget} {current : FrontierEntry F} {scan : List ℕ}
    {st st' : SearchState F} {w w' : World Unit} {reason : Option CompletionReason}
    (h : relaxRange image.topology signal packed budget current scan st w =
      (.ok (reason, st'), w')) : Progress st st' := by
  induction scan generalizing st w with
  | nil =>
    cases h
    exact ⟨le_rfl, .refl _⟩
  | cons i rest ih =>
    simp only [relaxRange, World.isCancelled] at h
    split at h
    · cases h
      exact ⟨le_rfl, .refl _⟩
    · split_ifs at h
      · cases h
        exact ⟨le_rfl, .refl _⟩
      · split at h
        · cases h
        · rename_i n hn
          obtain ⟨-, rfl⟩ := checkedAdd64_eq_some.1 hn
          rcases hat : image.edgeAt i with _ | edge
          · simp [RoutingImage.topology, hat, Except.map] at h
          · simp only [topology_edgeAt hat] at h
            split at h
            · cases h
            · rename_i st₁ hst₁
              exact (examine_progress (Nat.le_succ _) hst₁).1.trans (ih h)

omit [Binary64 F] in
lemma finalizeNode_progress (st : SearchState F) (frontier : List (FrontierEntry F))
    (returnPaths : Bool) (node : DenseNodeId) (count : ℕ) :
    Progress st (finalizeNode returnPaths node count { st with frontier := frontier }) := by
  obtain ⟨h₁, h₂, h₃, -, h₅, -⟩ := finalizeNode_fields { st with frontier := frontier }
    returnPaths node count
  refine ⟨h₅.ge, fun v hv => ?_, fun v _ => congrFun h₁ v,
    fun p hp => ⟨p, h₃.trans hp, fun _ _ => rfl⟩⟩
  rw [h₂, Function.update_apply]
  split_ifs
  · rfl
  · exact hv

lemma searchIteration_progress {st st' : SearchState F} {w w' : World Unit}
    {reason : Option CompletionReason}
    (h : searchIteration image.topology signal packed request st w = (.ok (reason, st'), w')) :
    Progress st st' := by
  have hpopped : ∀ frontier, Progress st { st with frontier := frontier } :=
    fun _ => ⟨le_rfl, fun _ hv => hv, fun _ _ => rfl, fun p hp => ⟨p, hp, fun _ _ => rfl⟩⟩
  unfold searchIteration at h
  rcases hpop : popFrontier st.frontier with _ | ⟨current, frontier⟩
  · simp only [hpop] at h
    cases h
    exact ⟨le_rfl, .refl _⟩
  · simp only [hpop] at h
    split_ifs at h
    · cases h
      exact hpopped _
    · simp only [World.isCancelled] at h
      split at h
      · cases h
        exact hpopped _
      · split at h
        · cases h
        · rename_i n _
          have hfinal := finalizeNode_progress st frontier request.returnPaths current.node n
          split_ifs at h
          · cases h
            exact hfinal
          · split at h
            · cases h
            · exact hfinal.trans (relaxRange_progress h)

lemma searchLoop_progress {fuel : ℕ} {st st' : SearchState F} {w w' : World Unit}
    {reason : CompletionReason}
    (h : searchLoop image.topology signal packed request fuel st w = (.ok (reason, st'), w')) :
    Progress st st' := by
  induction fuel generalizing st w with
  | zero => cases h
  | succ fuel ih =>
    unfold searchLoop at h
    split at h
    · cases h
    · rename_i hturn
      cases h
      exact searchIteration_progress hturn
    · rename_i hturn
      exact (searchIteration_progress hturn).trans (ih h)

/-! ## Two budgets -/

/-- The request under a limited budget. -/
def RoutingRequest.limited (request : RoutingRequest) (limit : U64) : RoutingRequest :=
  { request with budget := .examinedEdges limit }

/-- A loop under the smaller budget, where the same loop under the larger one ends with a reason, a
state and a world. -/
def Curtailed {R : Type} (exhausted : R) (limit : ℕ) (reason : R) (st : SearchState F)
    (w : World Unit) (small : Except RoutingError (R × SearchState F) × World Unit) : Prop :=
  (st.examinedEdges ≤ limit ∧ small = (.ok (reason, st), w)) ∨
    (limit < st.examinedEdges ∧ ∃ st' w', small = (.ok (exhausted, st'), w') ∧
      st'.examinedEdges = limit ∧ Frozen st' st)

section Curtailed

variable {budget : SearchBudget} {limit : U64}

lemma relaxRange_curtailed (hbudget : ∀ n < limit.val, budget.permits n = true)
    {current : FrontierEntry F} {scan : List ℕ} {st st' : SearchState F} {w w' : World Unit}
    {reason : Option CompletionReason} (hst : st.examinedEdges ≤ limit.val)
    (h : relaxRange image.topology neverCancelled packed budget current scan st w =
      (.ok (reason, st'), w')) :
    Curtailed (some .budgetExhausted) limit.val reason st' w'
      (relaxRange image.topology neverCancelled packed (.examinedEdges limit) current scan st w) := by
  induction scan generalizing st w with
  | nil =>
    cases h
    exact .inl ⟨hst, rfl⟩
  | cons i rest ih =>
    simp only [relaxRange, World.isCancelled, neverCancelled] at h ⊢
    by_cases hlarge : budget.permits st.examinedEdges = true
    · simp only [hlarge, Bool.not_true, Bool.false_eq_true, if_false] at h
      split at h
      · cases h
      rename_i n hn
      obtain ⟨-, rfl⟩ := checkedAdd64_eq_some.1 hn
      rcases hat : image.edgeAt i with _ | edge
      · simp [RoutingImage.topology, hat, Except.map] at h
      simp only [topology_edgeAt hat] at h
      split at h
      · cases h
      rename_i st₁ hst₁
      obtain ⟨hprogress, hexamined⟩ := examine_progress (Nat.le_succ _) hst₁
      by_cases hsmall : st.examinedEdges < limit.val
      · -- both budgets permit the edge
        have hpermits : (SearchBudget.examinedEdges limit).permits st.examinedEdges = true :=
          decide_eq_true hsmall
        simp only [hpermits, Bool.not_true, Bool.false_eq_true, if_false, topology_edgeAt hat, hst₁]
        exact ih (by omega) h
      · -- the smaller budget ends here
        have hrefuses : (SearchBudget.examinedEdges limit).permits st.examinedEdges = false :=
          decide_eq_false hsmall
        have hrest := relaxRange_progress h
        simp only [hrefuses, Bool.not_false, if_true]
        refine .inr ⟨?_, st, _, rfl, by omega, (hprogress.trans hrest).frozen⟩
        have hle := hrest.examined
        omega
    · have hrefuses : (SearchBudget.examinedEdges limit).permits st.examinedEdges = false := by
        refine decide_eq_false fun hlt => hlarge (hbudget _ hlt)
      simp only [hlarge, Bool.not_false, if_true] at h
      simp only [hrefuses, Bool.not_false, if_true]
      cases h
      exact .inl ⟨hst, rfl⟩

lemma searchIteration_curtailed (hbudget : ∀ n < limit.val, request.budget.permits n = true)
    {st st' : SearchState F} {w w' : World Unit} {reason : Option CompletionReason}
    (hst : st.examinedEdges ≤ limit.val)
    (h : searchIteration image.topology neverCancelled packed request st w =
      (.ok (reason, st'), w')) :
    Curtailed (some .budgetExhausted) limit.val reason st' w'
      (searchIteration image.topology neverCancelled packed (request.limited limit) st w) := by
  have hsame : st'.examinedEdges = st.examinedEdges →
      searchIteration image.topology neverCancelled packed (request.limited limit) st w =
        (.ok (reason, st'), w') →
      Curtailed (some .budgetExhausted) limit.val reason st' w'
        (searchIteration image.topology neverCancelled packed (request.limited limit) st w) :=
    fun hexamined hsmall => .inl ⟨hexamined ▸ hst, hsmall⟩
  unfold searchIteration at h hsame ⊢
  rcases hpop : popFrontier st.frontier with _ | ⟨current, frontier⟩
  · simp only [hpop] at h hsame ⊢
    cases h
    exact hsame rfl rfl
  · simp only [hpop] at h hsame ⊢
    split_ifs at h hsame ⊢ with hstale
    · cases h
      exact hsame rfl rfl
    · simp only [World.isCancelled, neverCancelled] at h hsame ⊢
      split at h
      · cases h
      rename_i n hn
      simp only [hn] at hsame ⊢
      -- finalizing a node examines no edge
      have hexamined : (finalizeNode request.returnPaths current.node n
          { st with frontier := frontier }).examinedEdges ≤ limit.val :=
        (finalizeNode_fields _ _ _ _).2.2.2.2.1.trans_le hst
      change Curtailed _ _ _ _ _ (if (finalizeNode request.returnPaths current.node n
        { st with frontier := frontier }).pendingCount = 0 then _ else _)
      split_ifs at h ⊢ with hzero
      · cases h
        exact .inl ⟨hexamined, rfl⟩
      · split at h
        · cases h
        exact relaxRange_curtailed hbudget hexamined h

lemma searchLoop_curtailed (hbudget : ∀ n < limit.val, request.budget.permits n = true)
    {fuel : ℕ} {st st' : SearchState F} {w w' : World Unit} {reason : CompletionReason}
    (hst : st.examinedEdges ≤ limit.val)
    (h : searchLoop image.topology neverCancelled packed request fuel st w =
      (.ok (reason, st'), w')) :
    Curtailed .budgetExhausted limit.val reason st' w'
      (searchLoop image.topology neverCancelled packed (request.limited limit) fuel st w) := by
  induction fuel generalizing st w with
  | zero => cases h
  | succ fuel ih =>
    unfold searchLoop at h ⊢
    split at h
    · cases h
    · rename_i hturn
      cases h
      rcases searchIteration_curtailed hbudget hst hturn with
        ⟨hle, hsmall⟩ | ⟨hlt, st₂, w₂, hsmall, hcut⟩
      · simp only [hsmall]
        exact .inl ⟨hle, rfl⟩
      · simp only [hsmall]
        exact .inr ⟨hlt, st₂, w₂, rfl, hcut⟩
    · rename_i st₁ w₁ hturn
      rcases searchIteration_curtailed hbudget hst hturn with
        ⟨hle, hsmall⟩ | ⟨hlt, st₂, w₂, hsmall, hexamined, hfrozen⟩
      · simp only [hsmall]
        exact ih hle h
      · simp only [hsmall]
        have hrest := searchLoop_progress h
        exact .inr ⟨hlt.trans_le hrest.examined, st₂, w₂, rfl, hexamined, hfrozen.trans hrest.frozen⟩

end Curtailed

/-! ## Routes -/

/-- The response reports the distance of the destination. -/
def RoutingResponse.ReportsExact (response : RoutingResponse F) (destination : NodeId)
    (distance : F) : Prop :=
  ∃ result ∈ response.results, result.destination = destination ∧
    ∃ route, result.state = .exact route ∧ route.logicalDistance = distance

section Routes

variable {origin : DenseNodeId} {reason : CompletionReason} {st : SearchState F} {w : World Unit}

/-- What the search of a request leaves behind. -/
lemma runSearch_stopped {w₀ : World Unit} (wf : image.WellFormed)
    (hsearch : runSearch image.topology signal packed request
      (image.searchStart request origin) w₀ = (.ok (reason, st), w))
    (horigin : image.denseNodeId request.origin = some origin)
    (hpack : request.profile.packRelationIds image.confirmedRelationIds = .ok packed) :
    SearchStopped image request origin (fun v => some v ∈ request.destinations.map image.denseNodeId)
      signal reason st := by
  have hspec := runSearch_spec signal wf hpack (wf.lt_of_denseNodeId horigin) w₀
    (searchStart_pending (F := F) image request origin)
  have hstart : initialSearchState request origin (image.collectedPending request).1
      (image.collectedPending request).2 = (image.searchStart request origin : SearchState F) := rfl
  rw [hstart, hsearch] at hspec
  exact hspec

/-- A search that returns is answered. -/
lemma routeControlled_of_search (wf : image.WellFormed)
    (hsearch : runSearch image.topology signal packed request
      (image.searchStart request origin) ⟨0, ()⟩ = (.ok (reason, st), w))
    (horigin : image.denseNodeId request.origin = some origin)
    (hpack : request.profile.packRelationIds image.confirmedRelationIds = .ok packed)
    (hpending : (image.collectedPending request).2 ≠ 0) :
    ∃ response diagnostics, routeControlled (F := F) image request signal =
      .ok (response, diagnostics) := by
  obtain ⟨order, scan, frontier, hsearching, hreason⟩ := runSearch_stopped wf hsearch horigin hpack
  have hstart : initialSearchState request origin (image.collectedPending request).1
      (image.collectedPending request).2 = (image.searchStart request origin : SearchState F) := rfl
  have hassembled := assembleResults_spec wf hpack horigin hsearching.search hreason
    request.destinations (fun d hd v hv => List.mem_map.2 ⟨d, hd, hv⟩)
    (AssemblyInv.init reason st) w
  have hzip : request.destinations.zip (request.destinations.map image.topology.denseNodeId) =
      request.destinations.map fun d => (d, image.denseNodeId d) := by
    have hmap := List.zip_map' (f := id) (g := image.denseNodeId) (l := request.destinations)
    simpa [RoutingImage.topology] using hmap
  have hadd : checkedAdd64 image.topology.adjacencyCount 1 = some (image.adjacencyCount + 1) :=
    checkedAdd64_eq_some.2 ⟨wf.adjacency_count_lt, rfl⟩
  have hmapped : routeControlled (F := F) image request signal =
      (routeMapped image.topology signal packed request origin ⟨0, ()⟩).1 := by
    unfold routeControlled routeTopologyControlled
    rw [show image.topology.denseNodeId request.origin = some origin from horigin]
    simp only
    rw [show request.profile.packRelationIds image.topology.relationIds = .ok packed from hpack]
  rw [hmapped]
  unfold routeMapped
  have hcollected : collectPending (request.destinations.map image.topology.denseNodeId)
      (fun _ => false, 0) = image.collectedPending request := rfl
  simp only [hcollected, hstart, if_neg hpending, hadd, hsearch, hzip]
  revert hassembled
  generalize assembleResults image.topology signal packed request origin st
    (request.destinations.map fun d => (d, image.denseNodeId d))
    (initialAssembly request reason st) w = out
  obtain ⟨result, w'⟩ := out
  rcases result with e | a
  · exact False.elim
  · exact fun _ => ⟨_, _, rfl⟩

/-- How the answer to an uncancelled request shows its search: in its counter, in its reason, and
in the destinations it reports exact. -/
structure Shows (image : RoutingImage) (origin : DenseNodeId) (response : RoutingResponse F)
    (reason : CompletionReason) (st : SearchState F) : Prop where
  examined : response.examinedEdges = st.examinedEdges
  reason_eq : response.completionReason = reason
  exact_iff : ∀ result ∈ response.results, result.state.isExact = true ↔
    ∃ v, image.denseNodeId result.destination = some v ∧ st.Reports origin v

lemma shows_of_route (wf : image.WellFormed)
    (hsearch : runSearch image.topology neverCancelled packed request
      (image.searchStart request origin) ⟨0, ()⟩ = (.ok (reason, st), w))
    (horigin : image.denseNodeId request.origin = some origin)
    (hpack : request.profile.packRelationIds image.confirmedRelationIds = .ok packed)
    (hpending : (image.collectedPending request).2 ≠ 0)
    {response : RoutingResponse F} {diagnostics : CpuSearchDiagnostics}
    (h : routeControlled image request neverCancelled = .ok (response, diagnostics)) :
    Shows image origin response reason st := by
  obtain ⟨origin', packed', horigin', hpack', ⟨hzero, -⟩ | ⟨-, reason', st', w₁, a, w₂, hsearch',
    hassemble, heq⟩⟩ := routeControlled_cases h
  · exact absurd hzero hpending
  obtain rfl : origin = origin' := Option.some.inj (horigin.symm.trans horigin')
  obtain rfl : packed = packed' := Except.ok.inj (hpack.symm.trans hpack')
  rw [hsearch] at hsearch'
  cases hsearch'
  have hstopped := runSearch_spec neverCancelled wf hpack (wf.lt_of_denseNodeId horigin) ⟨0, ()⟩
    (searchStart_pending (F := F) image request origin)
  have hstart : initialSearchState request origin (image.collectedPending request).1
      (image.collectedPending request).2 = (image.searchStart request origin : SearchState F) := rfl
  rw [hstart, hsearch] at hstopped
  obtain ⟨order, scan, frontier, hsearching, -⟩ := hstopped
  have hpredecessors : st.predecessors.isSome = request.returnPaths :=
    hsearching.predecessors_isSome
  have hassembled := assembleResults_assembled wf hpredecessors Assembled.init hassemble
  cases heq
  refine ⟨rfl, ?_, hassembled.exact_iff⟩
  rcases hassembled.progress with hclean | ⟨-, ⟨n, hn⟩, -⟩
  · exact hclean.reason_eq
  · cases hn

/-- A run that has made more final reports more, and the same distances. -/
lemma reportsExact_of_frozen (wf : image.WellFormed) {request₁ request₂ : RoutingRequest}
    {response₁ response₂ : RoutingResponse F} {d₁ d₂ : CpuSearchDiagnostics}
    {reason₁ reason₂ : CompletionReason} {st₁ st₂ : SearchState F}
    (h₁ : routeControlled image request₁ neverCancelled = .ok (response₁, d₁))
    (h₂ : routeControlled image request₂ neverCancelled = .ok (response₂, d₂))
    (hprofile : request₁.profile = request₂.profile) (horigin : request₁.origin = request₂.origin)
    (hdestinations : request₁.destinations = request₂.destinations)
    (hshows₁ : Shows image origin response₁ reason₁ st₁)
    (hshows₂ : Shows image origin response₂ reason₂ st₂) (hfrozen : Frozen st₁ st₂)
    {destination : NodeId} {distance : F} (h : response₁.ReportsExact destination distance) :
    response₂.ReportsExact destination distance := by
  obtain ⟨result₁, hmem₁, rfl, route₁, hstate₁, rfl⟩ := h
  have hspec₁ := routeControlled_spec (F := F) wf request₁ neverCancelled
  have hspec₂ := routeControlled_spec (F := F) wf request₂ neverCancelled
  rw [h₁] at hspec₁
  rw [h₂] at hspec₂
  have hmem : result₁.destination ∈ response₂.results.map (·.destination) := by
    rw [hspec₂.1, ← hdestinations, ← hspec₁.1]
    exact List.mem_map.2 ⟨result₁, hmem₁, rfl⟩
  obtain ⟨result₂, hmem₂, hsame⟩ := List.mem_map.1 hmem
  have hexact₂ : result₂.state.isExact = true := by
    rw [hshows₂.exact_iff result₂ hmem₂, hsame]
    obtain ⟨v, hv, hreports⟩ := (hshows₁.exact_iff result₁ hmem₁).1 (by rw [hstate₁]; rfl)
    exact ⟨v, hv, hreports.imp_left (hfrozen.finalized v)⟩
  rcases hstate₂ : result₂.state with route₂ | _ | _ | _
  · have hleast₁ := (hspec₁.2.1 result₁ hmem₁).1.exact_least route₁ hstate₁
    have hleast₂ := (hspec₂.2.1 result₂ hmem₂).1.exact_least route₂ hstate₂
    have hdistances : routeDistances F image request₂ result₂.destination =
        routeDistances F image request₁ result₁.destination := by
      simp only [routeDistances, hsame, hprofile, horigin]
    rw [hdistances] at hleast₂
    exact ⟨result₂, hmem₂, hsame, route₂, hstate₂, hleast₂.unique hleast₁⟩
  all_goals
    rw [hstate₂] at hexact₂
    cases hexact₂

lemma runSearch_curtailed {limit : U64} (hbudget : ∀ n < limit.val, request.budget.permits n = true)
    (h : runSearch image.topology neverCancelled packed request
      (image.searchStart request origin) ⟨0, ()⟩ = (.ok (reason, st), w)) :
    Curtailed .budgetExhausted limit.val reason st w
      (runSearch image.topology neverCancelled packed (request.limited limit)
        (image.searchStart (request.limited limit) origin) ⟨0, ()⟩) := by
  unfold runSearch at h ⊢
  simp only [World.isCancelled, neverCancelled] at h ⊢
  exact searchLoop_curtailed hbudget (Nat.zero_le _) h

/-- The assembly does not read the budget. -/
lemma assembleResults_limited (limit : U64) (entries : List (NodeId × Option DenseNodeId))
    (a : Assembly F) (w : World Unit) :
    assembleResults image.topology signal packed (request.limited limit) origin st entries a w =
      assembleResults image.topology signal packed request origin st entries a w := by
  induction entries generalizing a w with
  | nil => rfl
  | cons entry rest ih =>
    have hstate : ∀ d dense (a : Assembly F) (w : World Unit),
        assembleState image.topology signal packed (request.limited limit) origin st d dense a w =
          assembleState image.topology signal packed request origin st d dense a w :=
      fun _ _ _ _ => rfl
    simp only [assembleResults, hstate, ih]

/-- Without a present destination there is no search. -/
lemma routeControlled_of_missing (horigin : image.denseNodeId request.origin = some origin)
    (hpack : request.profile.packRelationIds image.confirmedRelationIds = .ok packed)
    (hpending : (image.collectedPending request).2 = 0) :
    routeControlled (F := F) image request signal = .ok (missingOnlyRoute request packed) := by
  unfold routeControlled routeTopologyControlled
  rw [show image.topology.denseNodeId request.origin = some origin from horigin]
  simp only
  rw [show request.profile.packRelationIds image.topology.relationIds = .ok packed from hpack]
  have hcollected : collectPending (request.destinations.map image.topology.denseNodeId)
      (fun _ => false, 0) = image.collectedPending request := rfl
  simp only [routeMapped, hcollected, if_pos hpending]

/-- An answer without a budget, under a limited one. -/
lemma routeControlled_limited (wf : image.WellFormed) {response : RoutingResponse F}
    {diagnostics : CpuSearchDiagnostics}
    (h : routeControlled image request neverCancelled = .ok (response, diagnostics))
    (hunlimited : request.budget = .unlimited) (limit : U64) :
    ∃ response' diagnostics', routeControlled image (request.limited limit) neverCancelled =
        .ok (response', diagnostics') ∧
      response'.examinedEdges = min limit.val response.examinedEdges ∧
      (response'.completionReason = .budgetExhausted ↔ limit.val < response.examinedEdges) ∧
      (response.examinedEdges ≤ limit.val → response' = response ∧ diagnostics' = diagnostics) := by
  obtain ⟨origin, packed, horigin, hpack, ⟨hzero, heq⟩ | ⟨hpending, reason, st, w, a, w', hsearch,
    hassemble, heq⟩⟩ := routeControlled_cases h
  · -- nothing is searched, so nothing is examined
    have hlimited : routeControlled image (request.limited limit) neverCancelled =
        .ok (response, diagnostics) := by
      rw [heq]
      exact routeControlled_of_missing horigin hpack hzero
    refine ⟨response, diagnostics, hlimited, ?_, ?_, fun _ => ⟨rfl, rfl⟩⟩
    · cases heq
      exact (Nat.min_zero _).symm
    · cases heq
      simp
  · have hbudget : ∀ n < limit.val, request.budget.permits n = true := by
      intro n _
      rw [hunlimited]
      rfl
    have hshows := shows_of_route wf hsearch horigin hpack hpending h
    have hspec := routeControlled_spec (F := F) wf request neverCancelled
    rw [h] at hspec
    have hanswered : ∀ {reason₂ st₂ w₂}, runSearch image.topology neverCancelled packed
        (request.limited limit) (image.searchStart (request.limited limit) origin) ⟨0, ()⟩ =
          (.ok (reason₂, st₂), w₂) → ∃ response' diagnostics',
        routeControlled (F := F) image (request.limited limit) neverCancelled =
          .ok (response', diagnostics') := fun hsmall =>
      routeControlled_of_search wf hsmall horigin hpack hpending
    rcases runSearch_curtailed hbudget hsearch with
      ⟨hle, hsmall⟩ | ⟨hlt, st₂, w₂, hsmall, hexamined, -⟩
    · obtain ⟨response', diagnostics', hroute⟩ := hanswered hsmall
      -- within the limit the searches are one, and so are the assemblies
      have hsame : (response', diagnostics') = (response, diagnostics) := by
        obtain ⟨origin', packed', horigin', hpack', ⟨hzero, -⟩ | ⟨-, reason', st', w₁, a', w₂,
          hsearch', hassemble', heq'⟩⟩ := routeControlled_cases hroute
        · exact absurd hzero hpending
        obtain rfl : origin = origin' := Option.some.inj (horigin.symm.trans horigin')
        obtain rfl : packed = packed' := Except.ok.inj (hpack.symm.trans hpack')
        rw [hsmall] at hsearch'
        cases hsearch'
        rw [assembleResults_limited] at hassemble'
        have ha := hassemble.symm.trans hassemble'
        cases ha
        rw [heq, heq']
        rfl
      cases hsame
      rw [hshows.examined]
      refine ⟨response, diagnostics, hroute, ?_, ?_, fun _ => ⟨rfl, rfl⟩⟩
      · rw [hshows.examined, Nat.min_eq_right hle]
      · refine iff_of_false (fun hreason => ?_) (by omega)
        rcases hspec.2.2.2 (.inl hreason) with hbudget | ⟨n, hn⟩
        · exact hbudget hunlimited
        · cases hn
    · obtain ⟨response', diagnostics', hroute⟩ := hanswered hsmall
      have hshows' : Shows image origin response' .budgetExhausted st₂ :=
        shows_of_route wf hsmall horigin hpack hpending hroute
      rw [hshows.examined]
      refine ⟨response', diagnostics', hroute, ?_, ?_, fun hle => by omega⟩
      · rw [hshows'.examined, hexamined, Nat.min_eq_left hlt.le]
      · exact iff_of_true hshows'.reason_eq hlt

end Routes

/-- The budget law: when an uncancelled search without a budget answers after examining some number
of edges, a limited one answers too, examines as many edges as it may of these, reports an
exhausted budget exactly when it may examine fewer, and returns the same answer otherwise; and a
larger budget reports at least the same destinations exact, at the same distances. -/
theorem routeControlled_budget (wf : image.WellFormed) (request : RoutingRequest)
    {response : RoutingResponse F} {diagnostics : CpuSearchDiagnostics}
    (hroute : routeControlled image { request with budget := .unlimited } neverCancelled =
      .ok (response, diagnostics)) :
    (∀ limit : U64, ∃ response' diagnostics',
      routeControlled image { request with budget := .examinedEdges limit } neverCancelled =
          .ok (response', diagnostics') ∧
        response'.examinedEdges = min limit.val response.examinedEdges ∧
        (response'.completionReason = .budgetExhausted ↔ limit.val < response.examinedEdges) ∧
        (response.examinedEdges ≤ limit.val →
          response' = response ∧ diagnostics' = diagnostics)) ∧
    ∀ (limit₁ limit₂ : U64) (response₁ response₂ : RoutingResponse F) (diagnostics₁ diagnostics₂),
      limit₁ ≤ limit₂ →
      routeControlled image { request with budget := .examinedEdges limit₁ } neverCancelled =
        .ok (response₁, diagnostics₁) →
      routeControlled image { request with budget := .examinedEdges limit₂ } neverCancelled =
        .ok (response₂, diagnostics₂) →
      ∀ destination distance, response₁.ReportsExact destination distance →
        response₂.ReportsExact destination distance := by
  have hlimited := routeControlled_limited wf hroute rfl
  refine ⟨hlimited, ?_⟩
  intro limit₁ limit₂ response₁ response₂ diagnostics₁ diagnostics₂ hle h₁ h₂ destination distance
    hreports
  obtain ⟨origin, packed, horigin, hpack, ⟨hzero, heq⟩ | ⟨hpending, reason, st, w, -, -, hsearch,
    -⟩⟩ := routeControlled_cases h₂
  · -- nothing is present, so nothing is reported exact
    have hnone := h₁.symm.trans (routeControlled_of_missing horigin hpack hzero)
    cases hnone
    obtain ⟨result, hmem, -, route, hstate, -⟩ := hreports
    obtain ⟨d, -, rfl⟩ := List.mem_map.1 hmem
    cases hstate
  · -- the smaller search is a beginning of the larger one, and what is final stays so
    have hbudget : ∀ n < limit₁.val, (SearchBudget.examinedEdges limit₂).permits n = true :=
      fun n hn => decide_eq_true (hn.trans_le hle)
    have hshows₂ := shows_of_route wf hsearch horigin hpack hpending h₂
    rcases runSearch_curtailed hbudget hsearch with ⟨-, hsmall⟩ | ⟨-, st₁, w₁, hsmall, -, hfrozen⟩
    · have hshows₁ : Shows image origin response₁ reason st :=
        shows_of_route wf hsmall horigin hpack hpending h₁
      exact reportsExact_of_frozen wf h₁ h₂ rfl rfl rfl hshows₁ hshows₂ (.refl st) hreports
    · have hshows₁ : Shows image origin response₁ .budgetExhausted st₁ :=
        shows_of_route wf hsmall horigin hpack hpending h₁
      exact reportsExact_of_frozen wf h₁ h₂ rfl rfl rfl hshows₁ hshows₂ hfrozen hreports

theorem routeControlled_budget_tie : ∃ image response diagnostics,
    compileRoutingImage tieRecords = .ok image ∧
    routeControlled (F := SoftBinary64) image
      { tieRequest with budget := .examinedEdges 1 } neverCancelled = .ok (response, diagnostics) ∧
    response.examinedEdges = 1 ∧ response.completionReason = .budgetExhausted := by
  obtain ⟨image, response, diagnostics, himage, hroute⟩ := tie_route_ok
  have hmore : ((compileRoutingImage tieRecords).toOption.bind fun image =>
      (routeControlled (F := SoftBinary64) image tieRequest neverCancelled).toOption.map fun out =>
        decide (1 < out.1.examinedEdges)) = some true := by
    decide +kernel
  simp only [himage, hroute, Except.toOption, Option.bind_some, Option.map_some, Option.some.injEq,
    decide_eq_true_eq] at hmore
  obtain ⟨response', diagnostics', hlimited, hexamined, hexhausted, -⟩ :=
    (routeControlled_budget (compileRoutingImage_wellFormed himage) tieRequest hroute).1 1
  refine ⟨image, response', diagnostics', himage, hlimited, ?_, hexhausted.2 hmore⟩
  rw [hexamined]
  exact Nat.min_eq_left hmore.le

end PathHydra
