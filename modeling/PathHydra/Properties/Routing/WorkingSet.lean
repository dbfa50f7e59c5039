import PathHydra.Construction.Routing.WorkingSet
import PathHydra.Properties.Routing.Duplicates
import PathHydra.Properties.Routing.Turns

/-!
# The working set is enough

The estimate bounds what a route holds and does: the frontier in every place of the search, the
number of rebuilt paths, and, as long as a raised signal stays raised, the steps of all
reconstructions.  A signal that is lowered again lets a reconstruction be interrupted and repeated,
and its steps are counted twice.
-/

namespace PathHydra

variable {F : Type} [Binary64 F] {image : RoutingImage} {packed : PackedRelationProfile}
  {request : RoutingRequest} {signal : CancellationSignal} {origin : DenseNodeId}
  {st : SearchState F} {a a' : Assembly F} {w w' : World Unit} {d : NodeId}

/-! ## The estimate -/

/-- The distinct nodes of the image among some destinations. -/
def RoutingImage.present (image : RoutingImage) (ds : List NodeId) : Finset DenseNodeId :=
  (ds.filterMap image.denseNodeId).toFinset

lemma RoutingImage.mem_present {ds : List NodeId} {v : DenseNodeId} :
    v ∈ image.present ds ↔ ∃ d ∈ ds, image.denseNodeId d = some v := by
  simp [RoutingImage.present]

/-- The prefix scan counts the nodes that were not among the previous destinations. -/
lemma countUniquePresent_eq (previous ds : List NodeId) :
    countUniquePresent image.topology previous ds =
      (image.present ds \ image.present previous).card := by
  induction ds generalizing previous with
  | nil => simp [countUniquePresent, RoutingImage.present]
  | cons d ds ih =>
    have htopology : image.topology.denseNodeId = image.denseNodeId := rfl
    rw [countUniquePresent]
    rcases hdense : image.denseNodeId d with _ | v
    · have hsame : image.present (d :: ds) \ image.present previous =
          image.present ds \ image.present (previous ++ [d]) := by
        simp [RoutingImage.present, hdense]
      simp only [htopology, hdense]
      rw [hsame, ih]
    · have hseen : (previous.any fun p => decide (image.denseNodeId p = some v)) = true ↔
          v ∈ image.present previous := by
        rw [RoutingImage.mem_present]
        simp
      have hprevious : image.present (previous ++ [d]) = insert v (image.present previous) := by
        ext u
        simp [RoutingImage.present, hdense, eq_comm]
      have hds : image.present (d :: ds) = insert v (image.present ds) := by
        simp [RoutingImage.present, hdense]
      simp only [htopology, hdense]
      rw [ih, hprevious, hds]
      split_ifs with h
      · have hmem := hseen.1 h
        rw [Finset.insert_eq_of_mem hmem, Finset.insert_sdiff_of_mem _ hmem]
      · have hmem : v ∉ image.present previous := fun hmem => h (hseen.2 hmem)
        have hsplit : insert v (image.present ds) \ image.present previous =
            insert v (image.present ds \ insert v (image.present previous)) := by
          ext u
          by_cases hu : u = v
          · simp [hu, hmem]
          · simp [hu]
        rw [hsplit, Finset.card_insert_of_notMem (by simp)]

/-- What an estimate says. -/
lemma estimate_eq_ok {sizes : PayloadSizes} {e : CpuWorkingSetEstimate}
    (h : estimateCpuWorkingSet sizes image request = .ok e) :
    e.frontierEntries = image.adjacencyCount + 1 ∧
      e.maximumPathSteps = if request.returnPaths then
        (image.present request.destinations).card * (image.nodeCount - 1) else 0 := by
  have hunique : countUniquePresent image.topology [] request.destinations =
      (image.present request.destinations).card := by
    rw [countUniquePresent_eq]
    simp [RoutingImage.present]
  unfold estimateCpuWorkingSet estimateTopologyWorkingSet at h
  obtain ⟨frontierEntries, hfrontier, h⟩ := bind_eq_ok.1 h
  obtain ⟨-, rfl⟩ := checkedAdd64_eq_some.1 (okOr_eq_ok.1 hfrontier)
  obtain ⟨steps, hsteps, h⟩ := bind_eq_ok.1 h
  iterate 12
    obtain ⟨_, -, h⟩ := bind_eq_ok.1 h
  cases h
  refine ⟨rfl, ?_⟩
  rw [hunique, maximumPathSteps] at hsteps
  split_ifs at hsteps ⊢
  · exact (checkedMul64_eq_some.1 (okOr_eq_ok.1 hsteps)).2
  · exact (Except.ok.inj hsteps).symm

/-! ## The steps of a reconstruction -/

lemma pathStep_lt {v : DenseNodeId} {q : Predecessor} {edge : OutgoingEdge} {step : PathStep F}
    (h : pathStep image.topology packed v q edge = .ok step) : v.asUsize < image.nodeCount := by
  unfold pathStep at h
  split_ifs at h
  split at h
  · cases h
  · cases h
  · obtain ⟨_, -, h⟩ := bind_eq_ok.1 h
    obtain ⟨_, -, h⟩ := bind_eq_ok.1 h
    obtain ⟨external, hexternal, -⟩ := bind_eq_ok.1 h
    exact (List.getElem?_eq_some_iff.1 (okOr_eq_ok.1 hexternal)).1

/-- A reconstruction visits every node but the origin at most once. -/
lemma reconstructSteps_count_le {p : DenseNodeId → Option Predecessor} {fuel : ℕ}
    {v : DenseNodeId} {visited : DenseNodeId → Bool} {steps : List (PathStep F)} {count count' : ℕ}
    {out : Except RoutingError (Option (List (PathStep F)))} {seen : Finset ℕ}
    (hseen : ∀ u : DenseNodeId, u.asUsize ∈ seen → visited u = true)
    (hbound : seen ⊆ (Finset.range image.nodeCount).erase origin.asUsize)
    (horigin : origin.asUsize < image.nodeCount)
    (h : reconstructSteps image.topology signal packed origin p fuel v visited steps count w =
      (out, count', w')) : count' + seen.card ≤ count + (image.nodeCount - 1) := by
  have hstay : seen.card ≤ image.nodeCount - 1 := by
    have hcard := Finset.card_le_card hbound
    rwa [Finset.card_erase_of_mem (Finset.mem_range.2 horigin), Finset.card_range] at hcard
  -- every turn visits a node other than the origin for the first time
  induction fuel generalizing v visited steps count w seen with
  | zero =>
    cases h
    omega
  | succ fuel ih =>
    unfold reconstructSteps at h
    split_ifs at h with hv hcycle
    · cases h
      omega
    · rcases hpoll : w.isCancelled signal with ⟨_ | _, w₁⟩ <;> simp only [hpoll] at h <;> cases h <;>
        omega
    · rcases hpoll : w.isCancelled signal with ⟨_ | _, w₁⟩
      · simp only [hpoll] at h
        split at h
        · cases h
          omega
        rename_i q hq
        split at h
        · cases h
          omega
        split_ifs at h
        swap
        · cases h
          omega
        rcases hat : image.edgeAt q.adjacency with _ | edge
        · simp only [RoutingImage.topology, hat] at h
          cases h
          omega
        simp only [topology_edgeAt hat] at h
        split at h
        · cases h
          omega
        rename_i step hstep
        simp only [Bool.or_eq_true, decide_eq_true_eq, not_or] at hcycle
        have hnew : v.asUsize ∉ seen := fun hmem => hcycle.1 (hseen v hmem)
        have hne : v.asUsize ≠ origin.asUsize := fun heq =>
          hv (DenseNodeId.asUsize_injective heq)
        have hinsert : insert v.asUsize seen ⊆
            (Finset.range image.nodeCount).erase origin.asUsize := by
          refine Finset.insert_subset ?_ hbound
          exact Finset.mem_erase.2 ⟨hne, Finset.mem_range.2 (pathStep_lt hstep)⟩
        have hcard := Finset.card_le_card hinsert
        rw [Finset.card_erase_of_mem (Finset.mem_range.2 horigin), Finset.card_range] at hcard
        have hrest := ih (fun u hu => ?_) hinsert h hcard
        · rw [Finset.card_insert_of_notMem hnew] at hrest
          have hmin := min_le_left (count + 1) u64Max
          generalize min (count + 1) u64Max = counted at hmin hrest
          omega
        · rcases Finset.mem_insert.1 hu with hu | hu
          · rw [DenseNodeId.asUsize_injective hu, Function.update_self]
          · by_cases huv : u = v
            · rw [huv, Function.update_self]
            · rw [Function.update_of_ne huv]
              exact hseen u hu
      · simp only [hpoll] at h
        cases h
        omega

lemma reconstructPath_count_le {externalOrigin externalDestination : NodeId} {v : DenseNodeId}
    {distance : F} {p : DenseNodeId → Option Predecessor} {count count' : ℕ}
    {out : Except RoutingError (Option (RoutePath F))} (horigin : origin.asUsize < image.nodeCount)
    (h : reconstructPath image.topology signal packed externalOrigin origin externalDestination v
      distance p count w = (out, count', w')) : count' ≤ count + (image.nodeCount - 1) := by
  unfold reconstructPath at h
  split_ifs at h
  · cases h
    omega
  · rcases hsteps : reconstructSteps image.topology signal packed origin p
      (image.topology.nodeCount + 1) v (fun _ => false) ([] : List (PathStep F)) count w with
      ⟨out₁, count₁, w₁⟩
    have hle : count₁ + (∅ : Finset ℕ).card ≤ count + (image.nodeCount - 1) :=
      reconstructSteps_count_le (by simp) (by simp) horigin hsteps
    simp only [hsteps] at h
    have hsame : count' = count₁ := by
      rcases out₁ with e | _ | steps
      · cases h
        rfl
      · cases h
        rfl
      · simp only at h
        split at h
        · cases h
          rfl
        · split_ifs at h <;> cases h <;> rfl
    rw [hsame]
    simpa using hle

/-! ## What the loop over the destinations rebuilds -/

/-- One turn of the loop: nothing is rebuilt, or the path of a node that has none is attempted. -/
lemma assembleState_attempt {state : DestinationState F}
    (h : assembleState image.topology signal packed request origin st d (image.denseNodeId d) a w =
      (.ok (state, a'), w')) :
    (a'.pathCache = a.pathCache ∧ a'.reconstructionSteps = a.reconstructionSteps ∧ w' = w) ∨
      ∃ v distance predecessors path, image.denseNodeId d = some v ∧ a.cached v = none ∧
        a.pathCache.isSome = true ∧
        reconstructPath image.topology signal packed request.origin origin d v distance
          predecessors a.reconstructionSteps w = (.ok path, a'.reconstructionSteps, w') ∧
        ∀ u, a'.cached u = if u = v then path else a.cached u := by
  rcases assembleState_cases h with ⟨-, -, rfl, rfl⟩ | ⟨v, distance, path, a₁, hv, -, -, hpath, -, rfl⟩
  · exact .inl ⟨rfl, rfl, rfl⟩
  · rcases assemblePath_cases hpath with ⟨-, -, rfl, rfl⟩ | ⟨q, cache, -, hcache, hturn⟩
    · exact .inl ⟨rfl, rfl, rfl⟩
    · have hcached : ∀ u, a.cached u = cache u := fun u => by simp [Assembly.cached, hcache]
      rcases hturn with ⟨-, -, rfl, rfl⟩ | ⟨n, hmiss, hbuilt, hturn⟩
      · exact .inl ⟨rfl, rfl, rfl⟩
      · refine .inr ⟨v, distance, q, path, hv, (hcached v).trans hmiss, by simp [hcache], ?_, ?_⟩
        · rcases hturn with ⟨found, rfl, rfl⟩ | ⟨rfl, rfl⟩
          · exact hbuilt
          · exact hbuilt
        · intro u
          rcases hturn with ⟨found, rfl, rfl⟩ | ⟨rfl, rfl⟩
          · simp [Assembly.cached, hcache, Function.update_apply]
          · split_ifs with huv
            · rw [huv]
              exact (hcached v).trans hmiss
            · rfl

/-- The nodes among some destinations whose path has not been rebuilt. -/
def Assembly.unbuilt (image : RoutingImage) (ds : List NodeId) (a : Assembly F) :
    Finset DenseNodeId :=
  (image.present ds).filter fun v => (a.cached v).isNone = true

omit [Binary64 F] in
lemma mem_unbuilt {ds : List NodeId} {v : DenseNodeId} :
    v ∈ a.unbuilt image ds ↔ (∃ d ∈ ds, image.denseNodeId d = some v) ∧ a.cached v = none := by
  rw [Assembly.unbuilt, Finset.mem_filter, RoutingImage.mem_present, Option.isNone_iff_eq_none]

omit [Binary64 F] in
/-- A longer list and an emptier cache leave more to be rebuilt. -/
lemma unbuilt_subset {ds : List NodeId} (h : ∀ u, a'.cached u = none → a.cached u = none) :
    a'.unbuilt image ds ⊆ a.unbuilt image (d :: ds) := by
  intro u hu
  obtain ⟨⟨e, he, heu⟩, hnone⟩ := mem_unbuilt.1 hu
  exact mem_unbuilt.2 ⟨⟨e, List.mem_cons_of_mem d he, heu⟩, h u hnone⟩

omit [Binary64 F] in
/-- A rebuilt node is not rebuilt again. -/
lemma card_unbuilt_lt {ds : List NodeId} {v : DenseNodeId} {path : RoutePath F}
    (hv : image.denseNodeId d = some v) (hmiss : a.cached v = none)
    (hcached : ∀ u, a'.cached u = if u = v then some path else a.cached u) :
    (a'.unbuilt image ds).card + 1 ≤ (a.unbuilt image (d :: ds)).card := by
  have hnew : v ∉ a'.unbuilt image ds := by
    rw [mem_unbuilt, hcached v, if_pos rfl]
    simp
  have hkept : ∀ u, a'.cached u = none → a.cached u = none := by
    intro u hu
    rw [hcached u] at hu
    split_ifs at hu
    exact hu
  have hmem : v ∈ a.unbuilt image (d :: ds) := mem_unbuilt.2 ⟨⟨d, List.mem_cons_self, hv⟩, hmiss⟩
  rw [← Finset.card_insert_of_notMem hnew]
  exact Finset.card_le_card (Finset.insert_subset hmem (unbuilt_subset hkept))

/-- The number of paths the loop over some destinations rebuilds: the turns at which the path of
the destination enters the cache. -/
def rebuiltPaths (image : RoutingImage) (signal : CancellationSignal)
    (packed : PackedRelationProfile) (request : RoutingRequest) (origin : DenseNodeId)
    (st : SearchState F) : List NodeId → Assembly F → World Unit → ℕ
  | [], _, _ => 0
  | d :: ds, a, w =>
    match assembleState image.topology signal packed request origin st d (image.denseNodeId d) a
      w with
    | (.error _, _) => 0
    | (.ok (state, a'), w') =>
      rebuiltPaths image signal packed request origin st ds (a'.push d state) w' +
        if (image.denseNodeId d).any fun v => (a.cached v).isNone && (a'.cached v).isSome
        then 1 else 0

/-- Every rebuilt path belongs to a node of its own. -/
lemma rebuiltPaths_le (ds : List NodeId) (a : Assembly F) (w : World Unit) :
    rebuiltPaths image signal packed request origin st ds a w ≤ (a.unbuilt image ds).card := by
  induction ds generalizing a w with
  | nil => exact Nat.zero_le _
  | cons d ds ih =>
    unfold rebuiltPaths
    rcases hstate : assembleState image.topology signal packed request origin st d
      (image.denseNodeId d) a w with ⟨e | ⟨state, a'⟩, w'⟩
    · exact Nat.zero_le _
    · have hrest := ih (a'.push d state) w'
      simp only
      rcases assembleState_attempt hstate with ⟨hsame, -, -⟩ |
        ⟨v, _, _, path, hv, hmiss, -, -, hcached⟩
      · have hcached : a'.cached = a.cached := by
          funext u
          simp [Assembly.cached, hsame]
        have hnone : ((image.denseNodeId d).any fun v =>
            (a.cached v).isNone && (a'.cached v).isSome) = false := by
          rw [hcached]
          rcases image.denseNodeId d with _ | v
          · rfl
          · rcases hv : a.cached v with _ | path <;> simp [hv]
        rw [hnone]
        refine hrest.trans (Finset.card_le_card (unbuilt_subset fun u hu => ?_))
        rw [← hcached]
        exact hu
      · rcases path with _ | path
        · have hnone : ((image.denseNodeId d).any fun v =>
              (a.cached v).isNone && (a'.cached v).isSome) = false := by
            simp [hv, hcached v]
          rw [hnone]
          refine hrest.trans (Finset.card_le_card (unbuilt_subset fun u hu => ?_))
          have hu' := (hcached u).symm.trans hu
          split_ifs at hu' with huv
          · rw [huv]
            exact hmiss
          · exact hu'
        · have hlt : ((a'.push d state).unbuilt image ds).card + 1 ≤
              (a.unbuilt image (d :: ds)).card := card_unbuilt_lt hv hmiss hcached
          split_ifs <;> omega

/-- Under a raised signal no reconstruction makes a step. -/
lemma assembleResults_raised {ds : List NodeId} (hmono : Monotone signal)
    (hraised : signal w.polls = true)
    (h : assembleResults image.topology signal packed request origin st (image.located ds) a w =
      (.ok a', w')) : a'.reconstructionSteps = a.reconstructionSteps := by
  induction ds generalizing a w with
  | nil =>
    cases h
    rfl
  | cons d ds ih =>
    obtain ⟨state, a₁, w₁, hstate, hrest⟩ := assembleResults_cons h
    obtain ⟨hsteps, hraised₁⟩ : a₁.reconstructionSteps = a.reconstructionSteps ∧
        signal w₁.polls = true := by
      rcases assembleState_attempt hstate with ⟨-, hsteps, rfl⟩ | ⟨v, _, _, path, -, -, -, hbuilt, -⟩
      · exact ⟨hsteps, hraised⟩
      · by_cases hv : v = origin
        · subst hv
          simp only [reconstructPath, if_true] at hbuilt
          obtain ⟨-, hsame⟩ := Prod.mk.inj hbuilt
          obtain ⟨hsteps, rfl⟩ := Prod.mk.inj hsame
          exact ⟨hsteps.symm, hraised⟩
        · rw [reconstructPath_raised hv hraised] at hbuilt
          obtain ⟨-, hsame⟩ := Prod.mk.inj hbuilt
          obtain ⟨hsteps, rfl⟩ := Prod.mk.inj hsame
          exact ⟨hsteps.symm, hmono (Nat.le_succ _) hraised⟩
    exact (ih hraised₁ hrest).trans hsteps

/-- Every node whose path is still to be rebuilt costs the steps of a simple path at most. -/
lemma assembleResults_steps_le {ds : List NodeId} (hmono : Monotone signal)
    (horigin : origin.asUsize < image.nodeCount)
    (h : assembleResults image.topology signal packed request origin st (image.located ds) a w =
      (.ok a', w')) :
    a'.reconstructionSteps ≤
      a.reconstructionSteps + (a.unbuilt image ds).card * (image.nodeCount - 1) := by
  induction ds generalizing a w with
  | nil =>
    cases h
    omega
  | cons d ds ih =>
    obtain ⟨state, a₁, w₁, hstate, hrest⟩ := assembleResults_cons h
    have hpush : (a₁.push d state).reconstructionSteps = a₁.reconstructionSteps := rfl
    have hafter := ih hrest
    rw [hpush] at hafter
    rcases assembleState_attempt hstate with
      ⟨hsame, hsteps, -⟩ | ⟨v, _, _, path, hv, hmiss, -, hbuilt, hcached⟩
    · have hsubset : (a₁.push d state).unbuilt image ds ⊆ a.unbuilt image (d :: ds) := by
        refine unbuilt_subset fun u hu => ?_
        simpa only [Assembly.cached, Assembly.push, hsame] using hu
      calc a'.reconstructionSteps
          ≤ a₁.reconstructionSteps +
              ((a₁.push d state).unbuilt image ds).card * (image.nodeCount - 1) := hafter
        _ ≤ a.reconstructionSteps + (a.unbuilt image (d :: ds)).card * (image.nodeCount - 1) := by
          rw [hsteps]
          exact Nat.add_le_add_left
            (Nat.mul_le_mul_right _ (Finset.card_le_card hsubset)) _
    · have hle := reconstructPath_count_le horigin hbuilt
      rcases path with _ | path
      · -- the interrupted reconstruction is the last one that makes a step
        obtain ⟨n, hn, hraised⟩ := reconstructPath_none hbuilt
        have hlast := assembleResults_raised hmono (hmono hn.le hraised) hrest
        have hpos : 1 ≤ (a.unbuilt image (d :: ds)).card :=
          Finset.card_pos.2 ⟨v, mem_unbuilt.2 ⟨⟨d, List.mem_cons_self, hv⟩, hmiss⟩⟩
        have hone := Nat.mul_le_mul_right (image.nodeCount - 1) hpos
        rw [hlast, hpush]
        omega
      · have hlt : ((a₁.push d state).unbuilt image ds).card + 1 ≤
            (a.unbuilt image (d :: ds)).card := card_unbuilt_lt hv hmiss hcached
        have hmul := Nat.mul_le_mul_right (image.nodeCount - 1) hlt
        rw [Nat.add_mul] at hmul
        omega

/-- Without a cache nothing is rebuilt. -/
lemma assembleResults_no_cache {ds : List NodeId} (hcache : a.pathCache = none)
    (h : assembleResults image.topology signal packed request origin st (image.located ds) a w =
      (.ok a', w')) : a'.reconstructionSteps = a.reconstructionSteps := by
  induction ds generalizing a w with
  | nil =>
    cases h
    rfl
  | cons d ds ih =>
    obtain ⟨state, a₁, w₁, hstate, hrest⟩ := assembleResults_cons h
    rcases assembleState_attempt hstate with ⟨hsame, hsteps, -⟩ | ⟨_, _, _, _, -, -, hsome, -⟩
    · have hcache₁ : (a₁.push d state).pathCache = none := hsame.trans hcache
      exact (ih hcache₁ hrest).trans hsteps
    · rw [hcache] at hsome
      cases hsome

/-! ## The bounds -/

/-- The reconstructions of an answered request make no more steps than estimated, if a raised
signal stays raised. -/
lemma pathReconstructionSteps_le (wf : image.WellFormed) {sizes : PayloadSizes}
    {e : CpuWorkingSetEstimate} (hestimate : estimateCpuWorkingSet sizes image request = .ok e)
    (hmono : Monotone signal) {response : RoutingResponse F} {diagnostics : CpuSearchDiagnostics}
    (hroute : routeControlled image request signal = .ok (response, diagnostics)) :
    diagnostics.pathReconstructionSteps ≤ e.maximumPathSteps := by
  rw [(estimate_eq_ok hestimate).2]
  obtain ⟨origin, packed, horigin, -, ⟨-, heq⟩ | ⟨-, reason, st, w, a, w', -, hassemble, heq⟩⟩ :=
    routeControlled_cases hroute
  · cases heq
    exact Nat.zero_le _
  · have hsteps : diagnostics.pathReconstructionSteps = a.reconstructionSteps := by
      cases heq
      rfl
    have hassemble' : assembleResults image.topology signal packed request origin st
      (image.located request.destinations) (initialAssembly request reason st) w = (.ok a, w') :=
        hassemble
    rw [hsteps]
    split_ifs with hreturn
    · refine (assembleResults_steps_le hmono (wf.lt_of_denseNodeId horigin) hassemble').trans ?_
      have hsubset := Finset.card_le_card (Finset.filter_subset
        (fun v => ((initialAssembly request reason st).cached v).isNone = true)
        (image.present request.destinations))
      have hmul := Nat.mul_le_mul_right (image.nodeCount - 1) hsubset
      have hzero : (initialAssembly request reason st).reconstructionSteps = 0 := rfl
      rw [hzero, Nat.zero_add]
      exact hmul
    · have hcache : (initialAssembly request reason st).pathCache = none := by
        simp [initialAssembly, hreturn]
      exact (assembleResults_no_cache hcache hassemble').le

/-- The working-set estimate bounds the search.  Whatever the signal does, the frontier stays within
the estimate in every place of the search, no edge is examined twice, at most one path is rebuilt
for every distinct node among the destinations, and no counter overflows; and if a raised signal
stays raised, the reconstructions make no more steps than estimated. -/
theorem workingSet_bounds (wf : image.WellFormed) {sizes : PayloadSizes} {request : RoutingRequest}
    {e : CpuWorkingSetEstimate} (hestimate : estimateCpuWorkingSet sizes image request = .ok e)
    (signal : CancellationSignal) :
    (∀ origin packed, image.denseNodeId request.origin = some origin →
      request.profile.packRelationIds image.confirmedRelationIds = .ok packed →
      (∃ turns, searchPlace image.topology signal packed request
          (image.searchStart request origin : SearchState F) ⟨0, ()⟩ turns =
        .ofResult (runSearch image.topology signal packed request
          (image.searchStart request origin) ⟨0, ()⟩)) ∧
      (∀ turns, (searchPlace image.topology signal packed request
          (image.searchStart request origin : SearchState F) ⟨0, ()⟩ turns).frontier.length ≤
            e.frontierEntries ∧
        (examinedIn image.topology signal packed request
          (image.searchStart request origin : SearchState F) ⟨0, ()⟩ turns).Nodup) ∧
      ∀ reason (st : SearchState F) w, runSearch image.topology signal packed request
          (image.searchStart request origin) ⟨0, ()⟩ = (.ok (reason, st), w) →
        rebuiltPaths image signal packed request origin st request.destinations
          (initialAssembly request reason st) w ≤ (image.present request.destinations).card) ∧
    (∀ (response : RoutingResponse F) (diagnostics : CpuSearchDiagnostics),
      routeControlled image request signal = .ok (response, diagnostics) → Monotone signal →
        diagnostics.pathReconstructionSteps ≤ e.maximumPathSteps) ∧
    (routeControlled image request signal :
      Except RoutingError (RoutingResponse F × CpuSearchDiagnostics)) ≠
        .error .resourceEstimateOverflow ∧
    ∀ reason, (routeControlled image request signal :
      Except RoutingError (RoutingResponse F × CpuSearchDiagnostics)) ≠
        .error (.internalInvariant reason) := by
  have hspec := routeControlled_spec (F := F) wf request signal
  refine ⟨fun origin packed horigin hpack => ⟨?_, ?_, ?_⟩, ?_, ?_, ?_⟩
  · have hpost := runSearch_spec signal wf hpack (wf.lt_of_denseNodeId horigin) ⟨0, ()⟩
      (searchStart_pending (F := F) image request origin)
    -- a search that needs more turns than its fuel would be an internal error, and there is none
    refine runSearch_turns fun hnever => ?_
    have hstart : initialSearchState request origin (image.collectedPending request).1
        (image.collectedPending request).2 = (image.searchStart request origin : SearchState F) :=
      rfl
    rw [hstart, hnever] at hpost
    obtain ⟨operation, h⟩ := hpost.isArithmetic
    cases h
  · intro turns
    have hinv : Searching image request origin
        (fun v => some v ∈ request.destinations.map image.denseNodeId) [] []
        (image.searchStart request origin : SearchState F) :=
      .init (wf.lt_of_denseNodeId horigin) (searchStart_pending image request origin)
    have hplace : PlaceWithin image request origin
        (fun v => some v ∈ request.destinations.map image.denseNodeId)
        (examinedIn image.topology signal packed request (image.searchStart request origin)
          ⟨0, ()⟩ turns)
        (searchPlace image.topology signal packed request
          (image.searchStart request origin : SearchState F) ⟨0, ()⟩ turns) :=
      searchPlace_within wf hpack hinv turns
    rw [(estimate_eq_ok hestimate).1]
    exact ⟨hplace.frontier_le wf, hplace.nodup⟩
  · intro reason st w _
    exact (rebuiltPaths_le _ _ _).trans (Finset.card_le_card (Finset.filter_subset _ _))
  · exact fun response diagnostics hroute hmono =>
      pathReconstructionSteps_le wf hestimate hmono hroute
  · intro herror
    rw [herror] at hspec
    rcases hspec with ⟨operation, h⟩ | h | ⟨p, h⟩ <;> cases h
  · intro reason herror
    rw [herror] at hspec
    rcases hspec with ⟨operation, h⟩ | h | ⟨p, h⟩ <;> cases h

/-- Sizes as a 64-bit target has them. -/
def wordSizes : PayloadSizes where
  relationUse := 8
  profileEntry := 16
  denseDestination := 8
  flag := 1
  distance := 16
  predecessor := 32
  sharedPath := 8
  pathStep := 56
  routePath := 48
  frontierEntry := 16
  destinationResult := 40

/-- A path of two edges. -/
def chainRecords : ConfirmedGraphRecords where
  nodes := [⟨.ofNat 3, ⟨"a"⟩, ⟨[]⟩⟩, ⟨.ofNat 7, ⟨"b"⟩, ⟨[]⟩⟩, ⟨.ofNat 9, ⟨"c"⟩, ⟨[]⟩⟩]
  relationKinds := [⟨.ofNat 1, ⟨"r"⟩, 0, 2⟩]
  edges := [
    ⟨.ofNat 5, .ofNat 3, .ofNat 7, .ofNat 1, ⟨0x3F800000, BaseWeight.oneBits_le⟩⟩,
    ⟨.ofNat 6, .ofNat 7, .ofNat 9, .ofNat 1, ⟨0x3F800000, BaseWeight.oneBits_le⟩⟩]

/-- The end of the path, twice. -/
def chainRequest : RoutingRequest where
  origin := .ofNat 3
  destinations := [.ofNat 9, .ofNat 9]
  profile := ⟨[(.ofNat 1, .enabled .one)]⟩
  returnPaths := true
  budget := .unlimited
  tiePolicy := .stablePredecessor

lemma chain_estimate_ok : ∃ image e, compileRoutingImage chainRecords = .ok image ∧
    estimateCpuWorkingSet wordSizes image chainRequest = .ok e ∧ e.maximumPathSteps = 2 := by
  have hsteps : ((compileRoutingImage chainRecords).toOption.bind fun image =>
      (estimateCpuWorkingSet wordSizes image chainRequest).toOption.map fun e =>
        e.maximumPathSteps) = some 2 := by
    decide +kernel
  rcases himage : compileRoutingImage chainRecords with e | image
  · simp [himage, Except.toOption] at hsteps
  · rcases hestimate : estimateCpuWorkingSet wordSizes image chainRequest with e | e
    · simp [himage, hestimate, Except.toOption] at hsteps
    · exact ⟨image, e, rfl, hestimate, by simpa [himage, hestimate, Except.toOption] using hsteps⟩

theorem workingSet_bounds_chain : ∃ image e, compileRoutingImage chainRecords = .ok image ∧
    estimateCpuWorkingSet wordSizes image chainRequest = .ok e ∧
    ∀ (response : RoutingResponse SoftBinary64) (diagnostics : CpuSearchDiagnostics),
      routeControlled image chainRequest searchedSignal = .ok (response, diagnostics) →
        diagnostics.pathReconstructionSteps ≤ 2 := by
  obtain ⟨image, e, himage, hestimate, hsteps⟩ := chain_estimate_ok
  refine ⟨image, e, himage, hestimate, fun response diagnostics hroute => ?_⟩
  rw [← hsteps]
  refine (workingSet_bounds (compileRoutingImage_wellFormed himage) hestimate
    searchedSignal).2.1 response diagnostics hroute fun m n hmn hm => ?_
  exact decide_eq_true ((of_decide_eq_true hm).trans hmn)

/-- Raised for one poll only, in the middle of the first reconstruction. -/
def blinkingSignal : CancellationSignal := fun n => decide (n = 7)

theorem repeated_reconstruction_exceeds_estimate : ∃ image e response diagnostics,
    compileRoutingImage chainRecords = .ok image ∧
    estimateCpuWorkingSet wordSizes image chainRequest = .ok e ∧
    routeControlled (F := SoftBinary64) image chainRequest blinkingSignal =
      .ok (response, diagnostics) ∧
    ¬ diagnostics.pathReconstructionSteps ≤ e.maximumPathSteps := by
  obtain ⟨image, e, himage, hestimate, hsteps⟩ := chain_estimate_ok
  have hmade : ((compileRoutingImage chainRecords).toOption.bind fun image =>
      (routeControlled (F := SoftBinary64) image chainRequest blinkingSignal).toOption.map fun out =>
        out.2.pathReconstructionSteps) = some 3 := by
    decide +kernel
  rcases hroute : routeControlled (F := SoftBinary64) image chainRequest blinkingSignal with e' | out
  · simp [himage, hroute, Except.toOption] at hmade
  · simp only [himage, hroute, Except.toOption, Option.bind_some, Option.map_some,
      Option.some.injEq] at hmade
    refine ⟨image, e, out.1, out.2, himage, hestimate, hroute, ?_⟩
    omega

end PathHydra
