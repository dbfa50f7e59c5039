import PathHydra.Properties.Api.Assembly

/-!
# CPU answers as evidence

The evidence rules of the API restate, in another crate, how a search may end.  Here they are
compared with the search itself: `Answered` collects what is known about a stopped search and the
entries assembled from it, and `routeControlled_evidence` concludes that its answer passes.

A signal that is raised during a reconstruction breaks the agreement.  The search has ended by then,
its final destinations stay exact, but the one whose path was under way has none, and the answer
turns into a cancelled one after its completion reason was decided
(`RoutingResponse.Interrupted`).
-/

namespace PathHydra

variable {F : Type} [Binary64 F]

/-! ## Answers -/

section Answer

variable {image : RoutingImage} {request : RoutingRequest} {origin : DenseNodeId}
  {st : SearchState F} {reason : CompletionReason} {signal : CancellationSignal} {a : Assembly F}
  {order : List DenseNodeId} {scan : List ℕ} {frontier : List (FrontierEntry F)}

/-- The tally of correct entries exists. -/
lemma exists_tally (wf : image.WellFormed) {results : List (DestinationResult F)}
    (hcorrect : ∀ r ∈ results, ResultCorrect image request r ∧ PathGenuine image request r) :
    ∃ t, tallyResults results = some t := by
  have hcard : image.denseToExternal.toFinset.card ≤ image.nodeCount :=
    List.toFinset_card_le _
  have hshort : ∀ r ∈ results, ∀ route path, r.state = .exact route → route.path = some path →
      path.steps.length ≤ image.nodeCount ∧ r.destination ∈ image.denseToExternal.toFinset := by
    intro r hr route path hstate hpath
    obtain ⟨hresult, hgenuine⟩ := hcorrect r hr
    refine ⟨length_le_of_genuine (hgenuine route path hstate hpath).2.2.2, ?_⟩
    by_contra habsent
    have hmissing := hresult.missing_iff.2 fun h => habsent (List.mem_toFinset.2 h)
    rw [hstate] at hmissing
    cases hmissing
  have hempty : EvidenceTally.empty.reconstructed ⊆ image.denseToExternal.toFinset :=
    Finset.empty_subset _
  obtain ⟨t, ht, -, -⟩ := foldlM_add_some wf.node_count_lt hcard hshort hempty
    (by simp [EvidenceTally.empty])
  exact ⟨t, ht⟩

/-- The present destinations among the entries are the distinct ones the route collected. -/
lemma card_present (wf : image.WellFormed) {results : List (DestinationResult F)}
    (hdestinations : results.map (·.destination) = request.destinations)
    (hmissing : ∀ r ∈ results, r.state = .missingNode ↔ image.denseNodeId r.destination = none)
    {t : EvidenceTally} (ht : tallyResults results = some t) :
    t.present.card = (image.collectedPending request).2 := by
  obtain ⟨waiting, -, hcard, hcover⟩ := collectedPending_spec image request
  have hpresent : ∀ x, x ∈ t.present ↔ x ∈ request.destinations ∧ image.denseNodeId x ≠ none := by
    intro x
    rw [(foldlM_add_counts ht).present, ← hdestinations, presentDestinations]
    simp only [EvidenceTally.empty, Finset.notMem_empty, false_or, List.mem_map, List.mem_filter,
      decide_eq_true_eq]
    constructor
    · rintro ⟨r, ⟨hr, hstate⟩, rfl⟩
      exact ⟨⟨r, hr, rfl⟩, fun h => hstate ((hmissing r hr).2 h)⟩
    · rintro ⟨⟨r, hr, rfl⟩, h⟩
      exact ⟨r, ⟨hr, fun hstate => h ((hmissing r hr).1 hstate)⟩, rfl⟩
  have himage : t.present.image image.denseNodeId = waiting.image some := by
    ext o
    simp only [Finset.mem_image, hpresent, hcover, List.mem_map]
    constructor
    · rintro ⟨x, ⟨hx, hdense⟩, rfl⟩
      obtain ⟨v, hv⟩ := Option.ne_none_iff_exists'.1 hdense
      exact ⟨v, ⟨x, hx, hv⟩, hv.symm⟩
    · rintro ⟨v, ⟨x, hx, hv⟩, rfl⟩
      exact ⟨x, ⟨hx, by simp [hv]⟩, hv⟩
  have hinjective : Set.InjOn image.denseNodeId t.present := by
    intro x hx y _ hxy
    obtain ⟨v, hv⟩ := Option.ne_none_iff_exists'.1 ((hpresent x).1 hx).2
    have hv' := hxy.symm.trans hv
    rw [wf.denseNodeId_eq_some] at hv hv'
    exact Option.some.inj (hv.symm.trans hv')
  rw [hcard, ← Finset.card_image_of_injOn hinjective, himage,
    Finset.card_image_of_injective _ (Option.some_injective _)]

/-- The requested nodes that the image has. -/
def Requested (image : RoutingImage) (request : RoutingRequest) (v : DenseNodeId) : Prop :=
  some v ∈ request.destinations.map image.denseNodeId

omit [Binary64 F] in
/-- Every requested node has an entry. -/
lemma Requested.exists_entry {results : List (DestinationResult F)}
    (hdestinations : results.map (·.destination) = request.destinations) {v : DenseNodeId}
    (h : Requested image request v) : ∃ r ∈ results, image.denseNodeId r.destination = some v := by
  obtain ⟨d, hd, hv⟩ := List.mem_map.1 h
  rw [← hdestinations] at hd
  obtain ⟨r, hr, rfl⟩ := List.mem_map.1 hd
  exact ⟨r, hr, hv⟩

omit [Binary64 F] in
lemma Requested.of_entry {results : List (DestinationResult F)}
    (hdestinations : results.map (·.destination) = request.destinations) {v : DenseNodeId}
    {r : DestinationResult F} (hr : r ∈ results) (hv : image.denseNodeId r.destination = some v) :
    Requested image request v := by
  refine List.mem_map.2 ⟨r.destination, ?_, hv⟩
  rw [← hdestinations]
  exact List.mem_map_of_mem hr

omit [Binary64 F] in
/-- An entry that is open, of whichever kind, belongs to a requested node that is not reported. -/
lemma Assembled.of_open {first : Bool}
    (inv : Assembled image request signal origin st reason first a) {r : DestinationResult F}
    (hr : r ∈ a.results) (hopen : r.state = .incomplete ∨ r.state = .unreachable) :
    ∃ v, image.denseNodeId r.destination = some v ∧ ¬ st.Reports origin v := by
  rcases hdense : image.denseNodeId r.destination with _ | v
  · have hstate := (inv.missing_iff r hr).2 hdense
    rcases hopen with h | h <;> simp [h] at hstate
  · refine ⟨v, rfl, fun hreports => ?_⟩
    have hexact := (inv.exact_iff r hr).2 ⟨v, hdense, hreports⟩
    rcases hopen with h | h <;> simp [h, DestinationState.isExact] at hexact

omit [Binary64 F] in
/-- The entry of a requested node that is not reported is open. -/
lemma Assembled.open_of {first : Bool}
    (inv : Assembled image request signal origin st reason first a) {r : DestinationResult F}
    (hr : r ∈ a.results) {v : DenseNodeId} (hdense : image.denseNodeId r.destination = some v)
    (hopen : ¬ st.Reports origin v) : r.state = .incomplete ∨ r.state = .unreachable := by
  have hmissing := inv.missing_iff r hr
  have hexact := inv.exact_iff r hr
  rcases hstate : r.state with route | _ | _ | _
  · rw [hstate] at hexact
    obtain ⟨v', hv', hreports⟩ := hexact.1 rfl
    obtain rfl : v = v' := Option.some.inj (hdense.symm.trans hv')
    exact absurd hreports hopen
  · exact .inr rfl
  · rw [hmissing.1 hstate] at hdense
    cases hdense
  · exact .inl rfl

/-- The search behind an answer and the entries assembled from it. -/
structure Answered (image : RoutingImage) (request : RoutingRequest) (signal : CancellationSignal)
    (origin : DenseNodeId) (st : SearchState F) (reason : CompletionReason)
    (order : List DenseNodeId) (scan : List ℕ) (frontier : List (FrontierEntry F))
    (a : Assembly F) : Prop where
  searching : Searching image request origin (Requested image request) order scan
    { st with frontier := frontier }
  stopped : Stopped request signal (Requested image request) order scan st reason
  assembled : Assembled image request signal origin st reason
    (initialAssembly request reason st).firstDestination a
  destinations : a.results.map (·.destination) = request.destinations
  requested : ∃ v, Requested image request v

namespace Answered

variable (h : Answered image request signal origin st reason order scan frontier a)

include h

lemma reports_iff {v : DenseNodeId} : st.Reports origin v ↔ v ∈ order ∨ v = origin := by
  have hfinal : st.finalized v = true ↔ v ∈ order := h.searching.search.finalized_iff v
  rw [SearchState.Reports, hfinal]

/-- Unless it was cancelled, a search with a requested origin has made it final. -/
lemma origin_mem (hreason : reason ≠ .cancelled) (horigin : Requested image request origin) :
    origin ∈ order := by
  have hstopped := h.stopped
  rcases reason with _ | _ | _ | _
  · exact hstopped origin horigin
  · exact hstopped.2.1 origin 0 h.searching.search.origin_label
  · exact h.searching.search.origin_mem hstopped.2.2.1
  · exact absurd rfl hreason

/-- A search that was exhausted, or ran out of its budget, leaves a requested node open. -/
lemma exists_open (hreason : reason = .frontierExhausted ∨ reason = .budgetExhausted) :
    ∃ r ∈ a.results, r.state = .incomplete ∨ r.state = .unreachable := by
  have hstopped := h.stopped
  obtain ⟨horigin, v, hv, hopen⟩ : origin ∈ order ∧ ∃ v, Requested image request v ∧ v ∉ order := by
    rcases hreason with rfl | rfl
    · exact ⟨hstopped.2.1 origin 0 h.searching.search.origin_label, hstopped.2.2 h.requested⟩
    · exact ⟨h.searching.search.origin_mem hstopped.2.2.1, hstopped.2.2.2 h.requested⟩
  obtain ⟨r, hr, hdense⟩ := hv.exists_entry h.destinations
  refine ⟨r, hr, h.assembled.open_of hr hdense fun hreports => ?_⟩
  rcases h.reports_iff.1 hreports with hmem | rfl
  · exact hopen hmem
  · exact hopen horigin

/-- Nothing is open once every requested node is final. -/
lemma not_open (hreason : reason = .allDestinationsFinalized) {r : DestinationResult F}
    (hr : r ∈ a.results) : ¬ (r.state = .incomplete ∨ r.state = .unreachable) := by
  intro hopen
  obtain ⟨v, hdense, hreports⟩ := h.assembled.of_open hr hopen
  have hstopped := h.stopped
  rw [hreason] at hstopped
  exact hreports (h.reports_iff.2 (.inl (hstopped v (Requested.of_entry h.destinations hr hdense))))

/-- The entries of a clean answer are what its reason promises. -/
lemma completionStates (hclean : Clean image request reason a) {t : EvidenceTally}
    (ht : tallyResults a.results = some t) : t.completionStatesValid reason = true := by
  have hcounts := foldlM_add_counts ht
  have hunreachable : t.unreachable = 0 ↔ ∀ r ∈ a.results, r.state ≠ .unreachable := by
    rw [hcounts.unreachable]
    simp [EvidenceTally.empty, List.countP_eq_zero]
  have hincomplete : t.incomplete = 0 ↔ ∀ r ∈ a.results, r.state ≠ .incomplete := by
    rw [hcounts.incomplete]
    simp [EvidenceTally.empty, List.countP_eq_zero]
  have hinterrupts : reason.Interrupts → t.unreachable = 0 := fun hreason =>
    hunreachable.2 fun r hr hstate => hclean.unreachable r hr hstate hreason
  rcases reason with _ | _ | _ | _
  · simp only [EvidenceTally.completionStatesValid, Bool.and_eq_true, decide_eq_true_eq]
    exact ⟨hunreachable.2 fun r hr hstate => h.not_open rfl hr (.inr hstate),
      hincomplete.2 fun r hr hstate => h.not_open rfl hr (.inl hstate)⟩
  · have hnone : t.incomplete = 0 := by
      refine hincomplete.2 fun r hr hstate => ?_
      rcases hclean.incomplete r hr hstate with heq | heq <;> cases heq
    obtain ⟨r, hr, hopen⟩ := h.exists_open (.inl rfl)
    simp only [EvidenceTally.completionStatesValid, Bool.and_eq_true, decide_eq_true_eq]
    exact ⟨fun hzero => hunreachable.1 hzero r hr
      (hopen.resolve_left (hincomplete.1 hnone r hr)), hnone⟩
  · have hnone := hinterrupts (.inl rfl)
    obtain ⟨r, hr, hopen⟩ := h.exists_open (.inr rfl)
    simp only [EvidenceTally.completionStatesValid, Bool.and_eq_true, decide_eq_true_eq]
    exact ⟨hnone, fun hzero => hincomplete.1 hzero r hr
      (hopen.resolve_right (hunreachable.1 hnone r hr))⟩
  · simp only [EvidenceTally.completionStatesValid, decide_eq_true_eq]
    exact hinterrupts (.inr rfl)

omit h in
lemma exact_ne_zero {t : EvidenceTally} (ht : tallyResults a.results = some t) :
    t.exact ≠ 0 ↔ ∃ r ∈ a.results, r.state.isExact = true := by
  rw [(foldlM_add_counts ht).exact]
  simp [EvidenceTally.empty]

/-- A requested node that became final has an exact entry. -/
lemma exact_of_final {v : DenseNodeId} (hv : Requested image request v) (hfinal : v ∈ order) :
    ∃ r ∈ a.results, r.state.isExact = true := by
  obtain ⟨r, hr, hdense⟩ := hv.exists_entry h.destinations
  exact ⟨r, hr, (h.assembled.exact_iff r hr).2 ⟨v, hdense, h.reports_iff.2 (.inl hfinal)⟩⟩

/-- When the search has recorded a first destination, an entry is exact, or the search was
exhausted. -/
lemma exact_of_first (hfirst : a.firstDestination = true) :
    (∃ r ∈ a.results, r.state.isExact = true) ∨ reason = .frontierExhausted := by
  rcases h.assembled.first_iff.1 hfirst with hsearch | ⟨-, r, hr, route, hroute, -⟩
  · simp only [initialAssembly, Bool.or_eq_true, Bool.and_eq_true, decide_eq_true_eq] at hsearch
    rcases hsearch with hfound | hexhausted
    · obtain ⟨-, v, hmem, hv⟩ := h.searching.first_iff.1 hfound
      exact .inl (h.exact_of_final hv hmem)
    · exact .inr hexhausted.1
  · exact .inl ⟨r, hr, by simp [hroute, DestinationState.isExact]⟩

/-- The first destination of a clean answer that was not cancelled. -/
lemma first_of_exact (hclean : Clean image request reason a) (hreason : reason ≠ .cancelled)
    {r : DestinationResult F} (hr : r ∈ a.results) (hexact : r.state.isExact = true) :
    a.firstDestination = true := by
  obtain ⟨v, hdense, hreports⟩ := (h.assembled.exact_iff r hr).1 hexact
  have hrequested := Requested.of_entry h.destinations hr hdense
  refine h.assembled.first_iff.2 ?_
  rcases hreturn : request.returnPaths with _ | _
  · refine .inl ?_
    have hmem : v ∈ order := by
      rcases h.reports_iff.1 hreports with hmem | rfl
      · exact hmem
      · exact h.origin_mem hreason hrequested
    have hfirst : st.firstDestination = true := h.searching.first_iff.2 ⟨hreturn, v, hmem, hrequested⟩
    simp [initialAssembly, hfirst]
  · refine .inr ⟨rfl, r, hr, ?_⟩
    rcases hstate : r.state with route | _ | _ | _
    · exact ⟨route, rfl, (hclean.paths r hr route hstate).trans hreturn⟩
    all_goals simp [hstate, DestinationState.isExact] at hexact

lemma first_of_exhausted (hreason : reason = .frontierExhausted) : a.firstDestination = true := by
  have hstopped := h.stopped
  rw [hreason] at hstopped
  obtain ⟨v, hv, hopen⟩ := hstopped.2.2 h.requested
  obtain ⟨waiting, -, hcard, hcover⟩ := h.searching.pending
  have hcount : st.pendingCount ≠ 0 := by
    have hwaiting : st.pendingCount = waiting.card := hcard
    rw [hwaiting]
    exact Finset.card_ne_zero_of_mem ((hcover v).2 ⟨hv, hopen⟩)
  exact h.assembled.first_iff.2 (.inl (by simp [initialAssembly, hreason, hcount]))

lemma firstDestination (hclean : Clean image request reason a) {t : EvidenceTally}
    (ht : tallyResults a.results = some t) :
    t.firstDestinationValid reason a.firstDestination = true := by
  have hexact := exact_ne_zero ht
  unfold EvidenceTally.firstDestinationValid
  split_ifs with hcancelled
  · rw [decide_eq_true_eq, Bool.eq_iff_iff, Bool.or_eq_true, decide_eq_true_eq, decide_eq_true_eq]
    have hstates := h.completionStates hclean ht
    constructor
    · intro hfirst
      rcases h.exact_of_first hfirst with hfound | rfl
      · exact .inl (hexact.2 hfound)
      · simp only [EvidenceTally.completionStatesValid, Bool.and_eq_true,
          decide_eq_true_eq] at hstates
        exact .inr hstates.1
    · rintro (hfound | hunreachable)
      · obtain ⟨r, hr, hstate⟩ := hexact.1 hfound
        exact h.first_of_exact hclean hcancelled hr hstate
      · -- only an exhausted search reports unreachable destinations
        have hexhausted : reason = .frontierExhausted := by
          rcases reason with _ | _ | _ | _
          · simp only [EvidenceTally.completionStatesValid, Bool.and_eq_true,
              decide_eq_true_eq] at hstates
            exact absurd hstates.1 hunreachable
          · rfl
          · simp only [EvidenceTally.completionStatesValid, Bool.and_eq_true,
              decide_eq_true_eq] at hstates
            exact absurd hstates.1 hunreachable
          · exact absurd rfl hcancelled
        exact h.first_of_exhausted hexhausted
  · simp only [Bool.not_eq_true', Bool.and_eq_false_imp, decide_eq_false_iff_not]
    intro hfirst
    rcases h.exact_of_first hfirst with hfound | rfl
    · exact hexact.2 hfound
    · exact absurd (fun h => by cases h) hcancelled

end Answered

end Answer

/-- A requested path is missing: its reconstruction was interrupted. -/
def RoutingResponse.Interrupted (response : RoutingResponse F) : Prop :=
  PathMissing response.pathsRequested response.results

/-- The counters of the search and of the entries agree. -/
structure CountersMatch (tally : EvidenceTally) (search : CpuSearchDiagnostics) : Prop where
  exact : search.exactDestinations = tally.exact
  unreachable : search.unreachableDestinations = tally.unreachable
  missing : search.missingDestinations = tally.missing
  incomplete : search.incompleteDestinations = tally.incomplete
  uniquePresent : search.uniquePresentDestinations = tally.present.card

/-- What an answer establishes: the entries are counted as the search counted them, and either
every rule holds or a requested path is missing and the answer is a cancelled one. -/
structure Evidence (signal : CancellationSignal) (response : RoutingResponse F)
    (search : CpuSearchDiagnostics) : Prop where
  tally : ∃ t, tallyResults response.results = some t ∧ CountersMatch t search ∧
    t.firstDestinationValid response.completionReason search.firstDestination = true
  paths : ∀ result ∈ response.results, ∀ route, result.state = .exact route →
    response.validatePath result.destination route = .ok ()
  clean : ¬ response.Interrupted → validateEvidence response search = true
  interrupted : response.Interrupted →
    response.completionReason = .cancelled ∧ ∃ n, signal n = true

lemma validateEvidence_eq_true {response : RoutingResponse F} {search : CpuSearchDiagnostics}
    {t : EvidenceTally} (hresponse : response.validate = .ok ())
    (ht : tallyResults response.results = some t)
    (hstates : t.completionStatesValid response.completionReason = true)
    (hfirst : t.firstDestinationValid response.completionReason search.firstDestination = true)
    (hcounters : CountersMatch t search)
    (hsteps : search.pathReconstructionSteps = t.reconstructionSteps)
    (hexamined : response.examinedEdges = search.examinedEdges)
    (hfinalized : response.finalizedNodes = search.finalizedNodes) :
    validateEvidence response search = true := by
  simp [validateEvidence, hresponse, ht, hstates, hfirst, EvidenceTally.countersAgree,
    hcounters.exact, hcounters.unreachable, hcounters.missing, hcounters.incomplete,
    hcounters.uniquePresent, hsteps, hexamined, hfinalized]

section Whole

variable {image : RoutingImage} {request : RoutingRequest} {origin : DenseNodeId}
  {st : SearchState F} {reason : CompletionReason} {signal : CancellationSignal} {a : Assembly F}
  {order : List DenseNodeId} {scan : List ℕ} {frontier : List (FrontierEntry F)}
  {packed : PackedRelationProfile}

/-- The answer of a search. -/
lemma Answered.evidence (wf : image.WellFormed)
    (hpack : request.profile.packRelationIds image.confirmedRelationIds = .ok packed)
    (h : Answered image request signal origin st reason order scan frontier a)
    (hcorrect : ∀ r ∈ a.results, ResultCorrect image request r ∧ PathGenuine image request r)
    (hfinite : ∀ r ∈ a.results, ∀ route path, r.state = .exact route → route.path = some path →
      ∀ step ∈ path.steps, Binary64.isFinite step.effectiveWeight = true) :
    Evidence signal (finishRoute request packed (image.collectedPending request).2 st a).1
      (finishRoute request packed (image.collectedPending request).2 st a).2 := by
  obtain ⟨t, ht⟩ := exists_tally wf hcorrect
  have hcounts := foldlM_add_counts ht
  have hmatch : CountersMatch t
      (finishRoute request packed (image.collectedPending request).2 st a).2 := by
    refine ⟨?_, ?_, ?_, ?_, (card_present wf h.destinations h.assembled.missing_iff ht).symm⟩
    · rw [hcounts.exact, EvidenceTally.empty, Nat.zero_add]
      rfl
    · rw [hcounts.unreachable, EvidenceTally.empty, Nat.zero_add]
      rfl
    · rw [hcounts.missing, EvidenceTally.empty, Nat.zero_add]
      rfl
    · rw [hcounts.incomplete, EvidenceTally.empty, Nat.zero_add]
      rfl
  have hpaths : ∀ r ∈ a.results, ∀ route, r.state = .exact route →
      (finishRoute request packed (image.collectedPending request).2 st a).1.validatePath
        r.destination route = .ok () := fun r hr route hstate =>
    validatePath_eq_ok rfl (hcorrect r hr).1 (hcorrect r hr).2 (hfinite r hr) hstate
  -- without a missing path nothing was interrupted, and with one the route was cancelled
  have hcases : ¬ PathMissing request.returnPaths a.results → Clean image request reason a := by
    intro hpresent
    rcases h.assembled.progress with hclean | ⟨-, -, hmissing⟩
    · exact hclean
    · exact absurd hmissing hpresent
  have hbroken : PathMissing request.returnPaths a.results →
      a.completionReason = .cancelled ∧ ∃ n, signal n = true := by
    rintro ⟨hreturn, r, hr, route, hstate, hnone⟩
    rcases h.assembled.progress with hclean | ⟨hreason, hsignal, -⟩
    · have hsome := hclean.paths r hr route hstate
      rw [hnone, hreturn] at hsome
      cases hsome
    · exact ⟨hreason, hsignal⟩
  have hfirst : t.firstDestinationValid a.completionReason a.firstDestination = true := by
    by_cases hmissing : PathMissing request.returnPaths a.results
    · obtain ⟨-, r, hr, route, hstate, -⟩ := id hmissing
      have hexact : t.exact ≠ 0 := (Answered.exact_ne_zero ht).2
        ⟨r, hr, by simp [hstate, DestinationState.isExact]⟩
      simp [EvidenceTally.firstDestinationValid, (hbroken hmissing).1, hexact]
    · have hclean := hcases hmissing
      rw [hclean.reason_eq]
      exact h.firstDestination hclean ht
  refine ⟨⟨t, ht, hmatch, hfirst⟩, hpaths, fun hpresent => ?_, hbroken⟩
  have hclean := hcases hpresent
  refine validateEvidence_eq_true ?_ ht ?_ hfirst hmatch (hclean.steps t ht).1.symm rfl rfl
  · unfold RoutingResponse.validate
    rw [show (finishRoute request packed (image.collectedPending request).2 st a).1.profile =
      packed.canonical from rfl, canonical_validate wf hpack, ok_bind]
    exact forM_eq_ok _ fun r hr => validateResult_eq_ok rfl (hcorrect r hr).1 (hcorrect r hr).2
      (hfinite r hr) (hclean.paths r hr)
  · show t.completionStatesValid a.completionReason = true
    rw [hclean.reason_eq]
    exact h.completionStates hclean ht

end Whole

end PathHydra
