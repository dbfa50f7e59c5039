import PathHydra.Properties.Api.Tally

/-!
# Assembly and tally side by side

The loop that assembles the results and the loop that checks them, turn by turn.  As long as no
reconstruction is interrupted (`Clean`), the entries say what the completion reason promises, and
the steps counted by the one loop are the steps counted by the other.  `PathOutcome` and
`StateOutcome` are everything one turn of the assembly can do.
-/

namespace PathHydra

variable {F : Type} [Binary64 F]

/-! ## The path of one destination -/

/-- A reconstruction counts the steps it returns. -/
lemma reconstructSteps_count {image : RoutingImage} {packed : PackedRelationProfile}
    {signal : CancellationSignal} {origin : DenseNodeId} {p : DenseNodeId → Option Predecessor}
    {fuel : ℕ} {v : DenseNodeId} {visited : DenseNodeId → Bool} {steps out : List (PathStep F)}
    {count count' : ℕ} {w w' : World Unit} (hcount : count ≤ u64Max)
    (h : reconstructSteps image.topology signal packed origin p fuel v visited steps count w =
      (.ok (some out), count', w')) :
    steps.length ≤ out.length ∧ count' = min (count + (out.length - steps.length)) u64Max := by
  induction fuel generalizing v visited steps count w with
  | zero => cases h
  | succ fuel ih =>
    rcases reconstructSteps_succ_ok h with ⟨-, rfl, rfl⟩ | ⟨-, q, edge, step, w₁, -, -, -, hrest⟩
    · exact ⟨le_rfl, by omega⟩
    · obtain ⟨hle, hcount'⟩ := ih (min_le_right _ _) hrest
      rw [List.length_cons] at hle hcount'
      exact ⟨by omega, by omega⟩

/-- What happens to the path of one final destination. -/
inductive PathOutcome (signal : CancellationSignal) (st : SearchState F) (dense : DenseNodeId)
    (a : Assembly F) : Option (RoutePath F) → Assembly F → Prop
  | skipped (h : st.predecessors = none ∨ a.pathCache = none) :
      PathOutcome signal st dense a none a
  | cached {cache : DenseNodeId → Option (RoutePath F)} {path : RoutePath F}
      (hcache : a.pathCache = some cache) (hhit : cache dense = some path) :
      PathOutcome signal st dense a (some path) a
  | found {cache : DenseNodeId → Option (RoutePath F)} {path : RoutePath F} {count : ℕ}
      (hcache : a.pathCache = some cache) (hmiss : cache dense = none)
      (hcount : a.reconstructionSteps ≤ u64Max →
        count = min (a.reconstructionSteps + path.steps.length) u64Max) :
      PathOutcome signal st dense a (some path)
        { a with
          pathCache := some (Function.update cache dense (some path))
          reconstructionSteps := count }
  | interrupted {count : ℕ} (hcache : a.pathCache.isSome = true)
      (hsignal : ∃ n, signal n = true) :
      PathOutcome signal st dense a none
        { a with reconstructionSteps := count, completionReason := .cancelled }

section Outcome

variable {image : RoutingImage} {packed : PackedRelationProfile} {signal : CancellationSignal}
  {request : RoutingRequest} {origin dense : DenseNodeId} {destination : NodeId}
  {st : SearchState F} {a a' : Assembly F} {w w' : World Unit}

lemma reconstructPath_count {externalOrigin externalDestination : NodeId} {distance : F}
    {predecessors : DenseNodeId → Option Predecessor} {count count' : ℕ} (hcount : count ≤ u64Max)
    {path : RoutePath F}
    (h : reconstructPath image.topology signal packed externalOrigin origin externalDestination
      dense distance predecessors count w = (.ok (some path), count', w')) :
    count' = min (count + path.steps.length) u64Max := by
  unfold reconstructPath at h
  split_ifs at h with horigin
  · cases h
    simpa using hcount
  · split at h
    · cases h
    · cases h
    · rename_i steps count₁ w₁ hsteps
      split at h
      · cases h
      · split_ifs at h
        · cases h
        cases h
        exact (reconstructSteps_count hcount hsteps).2

/-- A reconstruction gives up only on a signal it has found raised. -/
lemma reconstructSteps_none {p : DenseNodeId → Option Predecessor} {fuel : ℕ} {v : DenseNodeId}
    {visited : DenseNodeId → Bool} {steps : List (PathStep F)} {count count' : ℕ}
    (h : reconstructSteps image.topology signal packed origin p fuel v visited steps count w =
      (.ok none, count', w')) : ∃ n < w'.polls, signal n = true := by
  induction fuel generalizing v visited steps count w with
  | zero => cases h
  | succ fuel ih =>
    unfold reconstructSteps at h
    split_ifs at h
    · cases h
    · simp only [World.isCancelled] at h
      split at h
      · rename_i hpoll
        obtain ⟨hraised, rfl⟩ := Prod.mk.inj hpoll
        cases h
        exact ⟨_, Nat.lt_succ_self _, hraised⟩
      · cases h
    · simp only [World.isCancelled] at h
      split at h
      · rename_i hpoll
        obtain ⟨hraised, rfl⟩ := Prod.mk.inj hpoll
        cases h
        exact ⟨_, Nat.lt_succ_self _, hraised⟩
      split at h
      · cases h
      rename_i q hq
      split at h
      · cases h
      split_ifs at h
      swap
      · cases h
      rcases hat : image.edgeAt q.adjacency with _ | edge
      · simp [RoutingImage.topology, hat, Except.map] at h
      simp only [topology_edgeAt hat] at h
      split at h
      · cases h
      · exact ih h

lemma reconstructPath_none {externalOrigin externalDestination : NodeId} {distance : F}
    {predecessors : DenseNodeId → Option Predecessor} {count count' : ℕ}
    (h : reconstructPath image.topology signal packed externalOrigin origin externalDestination
      dense distance predecessors count w = (.ok none, count', w')) :
    ∃ n < w'.polls, signal n = true := by
  unfold reconstructPath at h
  split_ifs at h
  · cases h
  split at h
  · cases h
  · rename_i hsteps
    cases h
    exact reconstructSteps_none hsteps
  · split at h
    · cases h
    · split_ifs at h <;> cases h

/-- Everything that can happen to the path of one final destination. -/
lemma assemblePath_cases {distance : F} {path : Option (RoutePath F)}
    (h : assemblePath image.topology signal packed request origin st destination dense distance a
      w = (.ok (path, a'), w')) :
    ((st.predecessors = none ∨ a.pathCache = none) ∧ path = none ∧ a' = a ∧ w' = w) ∨
    ∃ predecessors cache, st.predecessors = some predecessors ∧ a.pathCache = some cache ∧
      ((cache dense = path ∧ path.isSome = true ∧ a' = a ∧ w' = w) ∨
      ∃ count, cache dense = none ∧
        reconstructPath image.topology signal packed request.origin origin destination dense
          distance predecessors a.reconstructionSteps w = (.ok path, count, w') ∧
        ((∃ found, path = some found ∧
          a' = { a with
            pathCache := some (Function.update cache dense (some found))
            reconstructionSteps := count }) ∨
        (path = none ∧
          a' = { a with reconstructionSteps := count, completionReason := .cancelled }))) := by
  unfold assemblePath at h
  split at h
  · rename_i predecessors cache hpredecessors hcache
    refine .inr ⟨predecessors, cache, hpredecessors, hcache, ?_⟩
    split at h
    · rename_i hit hhit
      cases h
      exact .inl ⟨hhit, rfl, rfl, rfl⟩
    · rename_i hmiss
      split at h
      · cases h
      · rename_i found count w₁ hfound
        cases h
        exact .inr ⟨count, hmiss, hfound, .inl ⟨found, rfl, rfl⟩⟩
      · rename_i count w₁ hnone
        cases h
        exact .inr ⟨count, hmiss, hnone, .inr ⟨rfl, rfl⟩⟩
  · rename_i hnone
    cases h
    refine .inl ⟨?_, rfl, rfl, rfl⟩
    rcases hp : st.predecessors with _ | predecessors
    · exact .inl rfl
    · rcases hcache : a.pathCache with _ | cache
      · exact .inr rfl
      · exact absurd hcache (hnone predecessors cache hp)

lemma assemblePath_outcome {distance : F} {path : Option (RoutePath F)}
    (h : assemblePath image.topology signal packed request origin st destination dense distance a
      w = (.ok (path, a'), w')) : PathOutcome signal st dense a path a' := by
  rcases assemblePath_cases h with ⟨hskip, rfl, rfl, -⟩ | ⟨predecessors, cache, -, hcache, hpath⟩
  · exact .skipped hskip
  · rcases hpath with ⟨hhit, hsome, rfl, -⟩ | ⟨count, hmiss, hpath, ⟨found, rfl, rfl⟩ | ⟨rfl, rfl⟩⟩
    · obtain ⟨hit, rfl⟩ := Option.isSome_iff_exists.1 hsome
      exact .cached hcache hhit
    · exact .found hcache hmiss fun hcount => reconstructPath_count hcount hpath
    · obtain ⟨n, -, hn⟩ := reconstructPath_none hpath
      exact .interrupted (by simp [hcache]) ⟨n, hn⟩

/-- A node whose distance is reported: a final one, or the origin. -/
def SearchState.Reports (st : SearchState F) (origin v : DenseNodeId) : Prop :=
  st.finalized v = true ∨ v = origin

/-- What happens to one destination. -/
inductive StateOutcome (signal : CancellationSignal) (st : SearchState F) (origin : DenseNodeId)
    (returnPaths : Bool)
    (dense : Option DenseNodeId) (a : Assembly F) : DestinationState F → Assembly F → Prop
  | missing (h : dense = none) : StateOutcome signal st origin returnPaths dense a .missingNode a
  | final {v : DenseNodeId} {distance : F} {path : Option (RoutePath F)} {a₁ : Assembly F}
      (h : dense = some v) (hfinal : st.Reports origin v) (hpath : PathOutcome signal st v a path a₁) :
      StateOutcome signal st origin returnPaths dense a (.exact ⟨distance, path⟩)
        { a₁ with firstDestination := a₁.firstDestination || (returnPaths && path.isSome) }
  | incomplete {v : DenseNodeId} (h : dense = some v) (hfinal : ¬ st.Reports origin v)
      (hreason : a.completionReason.Interrupts) :
      StateOutcome signal st origin returnPaths dense a .incomplete a
  | unreachable {v : DenseNodeId} (h : dense = some v) (hfinal : ¬ st.Reports origin v)
      (hreason : ¬ a.completionReason.Interrupts) :
      StateOutcome signal st origin returnPaths dense a .unreachable a

lemma assembleState_outcome {dense : Option DenseNodeId} {state : DestinationState F}
    (h : assembleState image.topology signal packed request origin st destination dense a w =
      (.ok (state, a'), w')) :
    StateOutcome signal st origin request.returnPaths dense a state a' := by
  unfold assembleState at h
  split at h
  · cases h
    exact .missing rfl
  · rename_i v
    split_ifs at h with hfinal hreason
    · have hreports : st.Reports origin v := by simpa [SearchState.Reports] using hfinal
      split at h
      · cases h
      · split at h
        · cases h
        · rename_i path a₁ w₁ hpath
          cases h
          exact .final rfl hreports (assemblePath_outcome hpath)
    · cases h
      exact .incomplete rfl (by simpa [SearchState.Reports] using hfinal) hreason
    · cases h
      exact .unreachable rfl (by simpa [SearchState.Reports] using hfinal) hreason

end Outcome

/-! ## Assembly and tally side by side -/

/-- A requested path is missing from an exact entry. -/
def PathMissing (returnPaths : Bool) (results : List (DestinationResult F)) : Prop :=
  returnPaths = true ∧ ∃ r ∈ results, ∃ route, r.state = .exact route ∧ route.path = none

/-- No reconstruction has been interrupted: the entries agree with the reason of the search, and
the steps counted are those of the distinct paths. -/
structure Clean (image : RoutingImage) (request : RoutingRequest) (reason : CompletionReason)
    (a : Assembly F) : Prop where
  reason_eq : a.completionReason = reason
  paths : ∀ r ∈ a.results, ∀ route, r.state = .exact route →
    route.path.isSome = request.returnPaths
  incomplete : ∀ r ∈ a.results, r.state = .incomplete → reason.Interrupts
  unreachable : ∀ r ∈ a.results, r.state = .unreachable → ¬ reason.Interrupts
  steps : ∀ t, tallyResults a.results = some t →
    t.reconstructionSteps = a.reconstructionSteps ∧
      ∀ cache, a.pathCache = some cache → ∀ x v, image.denseNodeId x = some v →
        (x ∈ t.reconstructed ↔ (cache v).isSome = true)

/-- What holds between two destinations. -/
structure Assembled (image : RoutingImage) (request : RoutingRequest)
    (signal : CancellationSignal) (origin : DenseNodeId) (st : SearchState F)
    (reason : CompletionReason)
    (first : Bool) (a : Assembly F) : Prop where
  missing_iff : ∀ r ∈ a.results, r.state = .missingNode ↔ image.denseNodeId r.destination = none
  exact_iff : ∀ r ∈ a.results, r.state.isExact = true ↔
    ∃ v, image.denseNodeId r.destination = some v ∧ st.Reports origin v
  cache_isSome : a.pathCache.isSome = request.returnPaths
  first_iff : a.firstDestination = true ↔ first = true ∨ (request.returnPaths = true ∧
    ∃ r ∈ a.results, ∃ route, r.state = .exact route ∧ route.path.isSome = true)
  progress : Clean image request reason a ∨
    (a.completionReason = .cancelled ∧ (∃ n, signal n = true) ∧
      PathMissing request.returnPaths a.results)

section Step

variable {image : RoutingImage} {request : RoutingRequest} {origin : DenseNodeId}
  {st : SearchState F} {reason : CompletionReason} {first : Bool} {a a' : Assembly F}
  {d : NodeId} {state : DestinationState F} {signal : CancellationSignal}

omit [Binary64 F] in
lemma PathOutcome.frame {v : DenseNodeId} {path : Option (RoutePath F)}
    (h : PathOutcome signal st v a path a') : a'.results = a.results ∧
      a'.firstDestination = a.firstDestination ∧ a'.pathCache.isSome = a.pathCache.isSome := by
  rcases h with _ | _ | ⟨hcache, -, -⟩ | ⟨-, -⟩
  · exact ⟨rfl, rfl, rfl⟩
  · exact ⟨rfl, rfl, rfl⟩
  · exact ⟨rfl, rfl, by simp [hcache]⟩
  · exact ⟨rfl, rfl, rfl⟩

omit [Binary64 F] in
lemma StateOutcome.frame {dense : Option DenseNodeId} {returnPaths : Bool}
    (h : StateOutcome signal st origin returnPaths dense a state a') : a'.results = a.results ∧
      a'.pathCache.isSome = a.pathCache.isSome := by
  rcases h with _ | ⟨-, -, hpath⟩ | _ | _
  · exact ⟨rfl, rfl⟩
  · exact ⟨hpath.frame.1, hpath.frame.2.2⟩
  · exact ⟨rfl, rfl⟩
  · exact ⟨rfl, rfl⟩

omit [Binary64 F] in
lemma tallyResults_snoc {results : List (DestinationResult F)} {r : DestinationResult F}
    {t' : EvidenceTally} (h : tallyResults (results ++ [r]) = some t') :
    ∃ t, tallyResults results = some t ∧ t.add r = some t' := by
  rw [tallyResults, List.foldlM_append] at h
  obtain ⟨t, ht, h⟩ := Option.bind_eq_some_iff.1 h
  rw [List.foldlM_cons] at h
  obtain ⟨t'', ht'', h⟩ := Option.bind_eq_some_iff.1 h
  cases h
  exact ⟨t, ht, ht''⟩

omit [Binary64 F] in
/-- A destination without a path adds no steps. -/
lemma EvidenceTally.add_steps {t t' : EvidenceTally} (h : t.add ⟨d, state⟩ = some t')
    (hpath : ∀ route, state = .exact route → route.path = none) :
    t'.reconstructionSteps = t.reconstructionSteps ∧ t'.reconstructed = t.reconstructed := by
  unfold EvidenceTally.add at h
  rcases state with ⟨distance, path⟩ | _ | _ | _
  · obtain rfl : path = none := hpath _ rfl
    cases h
    exact ⟨rfl, rfl⟩
  all_goals
    cases h
    exact ⟨rfl, rfl⟩

omit [Binary64 F] in
/-- A further destination without a path. -/
lemma Clean.plain (b : Bool) (hclean : Clean image request reason a)
    (hpath : ∀ route, state = .exact route → route.path = none ∧ request.returnPaths = false)
    (hincomplete : state = .incomplete → reason.Interrupts)
    (hunreachable : state = .unreachable → ¬ reason.Interrupts) :
    Clean image request reason
      { a with firstDestination := b, results := a.results ++ [⟨d, state⟩] } := by
  refine ⟨hclean.reason_eq, ?_, ?_, ?_, fun t' ht' => ?_⟩
  · refine List.forall_mem_append.2 ⟨hclean.paths, fun r hr route hroute => ?_⟩
    obtain rfl := List.mem_singleton.1 hr
    obtain ⟨hnone, hreturn⟩ := hpath route hroute
    rw [hnone, hreturn]
    rfl
  · refine List.forall_mem_append.2 ⟨hclean.incomplete, fun r hr hstate => ?_⟩
    obtain rfl := List.mem_singleton.1 hr
    exact hincomplete hstate
  · refine List.forall_mem_append.2 ⟨hclean.unreachable, fun r hr hstate => ?_⟩
    obtain rfl := List.mem_singleton.1 hr
    exact hunreachable hstate
  · obtain ⟨t, ht, hadd⟩ := tallyResults_snoc ht'
    obtain ⟨hsteps, hreconstructed⟩ := EvidenceTally.add_steps hadd fun route hroute =>
      (hpath route hroute).1
    rw [hsteps, hreconstructed]
    exact hclean.steps t ht

omit [Binary64 F] in
/-- A further destination with its path. -/
lemma Clean.withPath (wf : image.WellFormed) (hclean : Clean image request reason a)
    {v : DenseNodeId} (hdense : image.denseNodeId d = some v) {distance : F} {path : RoutePath F}
    (hreturn : request.returnPaths = true) (h : PathOutcome signal st v a (some path) a') :
    Clean image request reason
      { a' with
        firstDestination := a'.firstDestination || (request.returnPaths && (some path).isSome)
        results := a'.results ++ [⟨d, .exact ⟨distance, some path⟩⟩] } := by
  have hresults := h.frame.1
  have hreason : a'.completionReason = a.completionReason := by
    rcases h with _ | _ | _ <;> rfl
  refine ⟨hreason.trans hclean.reason_eq, ?_, ?_, ?_, fun t' ht' => ?_⟩
  · rw [hresults]
    refine List.forall_mem_append.2 ⟨hclean.paths, fun r hr route hroute => ?_⟩
    obtain rfl := List.mem_singleton.1 hr
    cases hroute
    rw [hreturn]
    rfl
  · rw [hresults]
    refine List.forall_mem_append.2 ⟨hclean.incomplete, fun r hr hstate => ?_⟩
    obtain rfl := List.mem_singleton.1 hr
    cases hstate
  · rw [hresults]
    refine List.forall_mem_append.2 ⟨hclean.unreachable, fun r hr hstate => ?_⟩
    obtain rfl := List.mem_singleton.1 hr
    cases hstate
  · simp only [hresults] at ht'
    obtain ⟨t, ht, hadd⟩ := tallyResults_snoc ht'
    obtain ⟨hsteps, hagree⟩ := hclean.steps t ht
    simp only [EvidenceTally.add] at hadd
    rcases h with _ | ⟨hcache, hhit⟩ | @⟨cache, _, count, hcache, hmiss, hcount⟩
    · -- the path was counted when it was found
      have hseen : d ∈ t.reconstructed := (hagree _ hcache d v hdense).2 (by simp [hhit])
      rw [if_pos hseen] at hadd
      cases hadd
      exact ⟨hsteps, hagree⟩
    · -- the path is new to the tally as it was to the cache, so both count it
      have hnew : d ∉ t.reconstructed := fun hseen => by
        simpa [hmiss] using (hagree _ hcache d v hdense).1 hseen
      rw [if_neg hnew] at hadd
      obtain ⟨sum, hsum, rfl⟩ := Option.map_eq_some_iff.1 hadd
      obtain ⟨hlt, rfl⟩ := checkedAdd64_eq_some.1 hsum
      have hcount' := hcount (by simp only [u64Max]; omega)
      refine ⟨?_, fun cache' hcache' x u hu => ?_⟩
      · simp only [u64Max] at hcount'
        simp only
        omega
      · cases hcache'
        rw [Finset.mem_insert, hagree _ hcache x u hu]
        by_cases huv : u = v
        · subst huv
          have hxd : x = d := by
            rw [wf.denseNodeId_eq_some] at hu hdense
            exact Option.some.inj (hu.symm.trans hdense)
          simp [hxd]
        · have hxd : x ≠ d := by
            rintro rfl
            exact huv (Option.some.inj (hu.symm.trans hdense))
          simp [hxd, Function.update_of_ne huv]

omit [Binary64 F] in
/-- One turn of the assembly. -/
lemma Assembled.step (wf : image.WellFormed) (hpredecessors : st.predecessors.isSome =
    request.returnPaths) (inv : Assembled image request signal origin st reason first a)
    (h : StateOutcome signal st origin request.returnPaths (image.denseNodeId d) a state a') :
    Assembled image request signal origin st reason first
      { a' with results := a'.results ++ [⟨d, state⟩] } := by
  obtain ⟨hresults, hkept⟩ := h.frame
  refine
    { missing_iff := ?_
      exact_iff := ?_
      cache_isSome := hkept.trans inv.cache_isSome
      first_iff := ?_
      progress := ?_ }
  · rw [hresults]
    refine List.forall_mem_append.2 ⟨inv.missing_iff, fun r hr => ?_⟩
    obtain rfl := List.mem_singleton.1 hr
    rcases h with h | ⟨h, -, -⟩ | ⟨h, -, -⟩ | ⟨h, -, -⟩ <;> simp [h]
  · rw [hresults]
    refine List.forall_mem_append.2 ⟨inv.exact_iff, fun r hr => ?_⟩
    obtain rfl := List.mem_singleton.1 hr
    rcases h with h | ⟨h, hfinal, -⟩ | ⟨h, hfinal, -⟩ | ⟨h, hfinal, -⟩
    · simp [h, DestinationState.isExact]
    · simp [h, DestinationState.isExact, hfinal]
    · simp [h, DestinationState.isExact, hfinal]
    · simp [h, DestinationState.isExact, hfinal]
  · -- the first destination is the first entry with a path
    have hsplit : (∃ r ∈ a.results ++ [⟨d, state⟩], ∃ route, r.state = .exact route ∧
        route.path.isSome = true) ↔ (∃ r ∈ a.results, ∃ route, r.state = .exact route ∧
        route.path.isSome = true) ∨ ∃ route, state = .exact route ∧ route.path.isSome = true := by
      simp [or_and_right, exists_or]
    rw [hresults, hsplit]
    rcases h with _ | ⟨-, -, hpath⟩ | _ | _
    · simpa using inv.first_iff
    · simp only [hpath.frame.2.1, Bool.or_eq_true, Bool.and_eq_true, inv.first_iff,
        DestinationState.exact.injEq, exists_eq_left', and_or_left, or_assoc]
    · simpa using inv.first_iff
    · simpa using inv.first_iff
  · -- as long as the assembly is clean an entry keeps it so, unless its path is interrupted
    rcases inv.progress with hclean | ⟨hreason, hsignal, hreturn, r, hr, hmissing⟩
    · rcases h with _ | ⟨hdense, -, hpath⟩ | ⟨-, -, hinterrupts⟩ | ⟨-, -, hinterrupts⟩
      · exact .inl (hclean.plain a.firstDestination (by simp) (by simp) (by simp))
      · have hreturn : a.pathCache.isSome = true → request.returnPaths = true := fun hsome =>
          inv.cache_isSome.symm.trans hsome
        rcases hpath with hskip | ⟨hcache, hhit⟩ | ⟨hcache, hmiss, hcount⟩ |
          ⟨hcache, hsignal⟩
        · have hnone : request.returnPaths = false := by
            rcases hskip with hskip | hskip
            · rw [← hpredecessors, hskip]
              rfl
            · rw [← inv.cache_isSome, hskip]
              rfl
          refine .inl (hclean.plain _ (fun route hroute => ?_) (by simp) (by simp))
          cases hroute
          exact ⟨rfl, hnone⟩
        · exact .inl (hclean.withPath wf hdense (hreturn (by simp [hcache]))
            (.cached hcache hhit : PathOutcome signal st _ _ _ _))
        · exact .inl (hclean.withPath wf hdense (hreturn (by simp [hcache]))
            (.found hcache hmiss hcount : PathOutcome signal st _ _ _ _))
        · exact .inr ⟨rfl, hsignal, hreturn hcache, _, List.mem_append_right _ List.mem_cons_self, _,
            rfl,
            rfl⟩
      · rw [hclean.reason_eq] at hinterrupts
        exact .inl (hclean.plain a.firstDestination (by simp) (fun _ => hinterrupts) (by simp))
      · rw [hclean.reason_eq] at hinterrupts
        exact .inl (hclean.plain a.firstDestination (by simp) (by simp) fun _ => hinterrupts)
    · refine .inr ⟨?_, hsignal, hreturn, r, ?_, hmissing⟩
      · rcases h with _ | ⟨-, -, _ | _ | _ | _⟩ | _ | _
        · exact hreason
        · exact hreason
        · exact hreason
        · exact hreason
        · rfl
        · exact hreason
        · exact hreason
      · rw [hresults]
        exact List.mem_append_left _ hr

/-- The whole assembly. -/
lemma assembleResults_assembled (wf : image.WellFormed)
    (hpredecessors : st.predecessors.isSome = request.returnPaths)
    {packed : PackedRelationProfile} {destinations : List NodeId} {w w' : World Unit}
    (inv : Assembled image request signal origin st reason first a)
    (h : assembleResults image.topology signal packed request origin st
      (destinations.map fun d => (d, image.denseNodeId d)) a w = (.ok a', w')) :
    Assembled image request signal origin st reason first a' := by
  induction destinations generalizing a w with
  | nil =>
    cases h
    exact inv
  | cons d rest ih =>
    rw [List.map_cons] at h
    unfold assembleResults at h
    split at h
    · cases h
    · rename_i state a₁ w₁ hstate
      exact ih (inv.step wf hpredecessors (assembleState_outcome hstate)) h

omit [Binary64 F] in
lemma Assembled.init :
    Assembled image request signal origin st reason
      (initialAssembly request reason st).firstDestination
      (initialAssembly request reason st) := by
  refine
    { missing_iff := by simp [initialAssembly]
      exact_iff := by simp [initialAssembly]
      cache_isSome := ?_
      first_iff := by simp [initialAssembly]
      progress := .inl ⟨rfl, by simp [initialAssembly], by simp [initialAssembly],
        by simp [initialAssembly], fun t ht => ?_⟩ }
  · simp only [initialAssembly]
    split_ifs with h <;> simp [h]
  · obtain rfl : EvidenceTally.empty = t := Option.some.inj ht
    refine ⟨rfl, fun cache hcache x v _ => ?_⟩
    simp only [initialAssembly] at hcache
    split_ifs at hcache
    cases hcache
    simp [EvidenceTally.empty]

end Step

end PathHydra
