import PathHydra.Properties.Routing.Polls

/-!
# Destinations that are requested twice

The results are assembled one entry at a time, and an interrupted reconstruction makes the rest of
the answer a cancelled one.  `Settled` is the loop as long as no reconstruction has been
interrupted, `Broken` the loop afterwards: an entry before the interruption is stated under the
reason of the search, one after it as in a cancelled search.  The two disagree about a destination
that the exhausted search proved unreachable, and about no other.
-/

namespace PathHydra

variable {F : Type} [Binary64 F] {image : RoutingImage} {packed : PackedRelationProfile}
  {request : RoutingRequest} {signal : CancellationSignal} {origin : DenseNodeId}
  {st : SearchState F} {a a' : Assembly F} {reason : CompletionReason} {w w' : World Unit}
  {d : NodeId}

/-! ## The state of an entry -/

/-- The cached path of a node. -/
def Assembly.cached (a : Assembly F) (v : DenseNodeId) : Option (RoutePath F) :=
  a.pathCache.bind fun cache => cache v

instance (v : DenseNodeId) : Decidable (st.Reports origin v) :=
  inferInstanceAs (Decidable (_ ∨ _))

/-- What an entry says under a reason, with the paths that have been rebuilt. -/
def entryState (image : RoutingImage) (origin : DenseNodeId) (st : SearchState F)
    (paths : DenseNodeId → Option (RoutePath F)) (reason : CompletionReason) (d : NodeId) :
    DestinationState F :=
  match image.denseNodeId d with
  | none => .missingNode
  | some v =>
    if st.Reports origin v then
      match st.distances v with
      | none => .incomplete
      | some distance => .exact ⟨distance, paths v⟩
    else if reason = .budgetExhausted ∨ reason = .cancelled then .incomplete
    else .unreachable

omit [Binary64 F] in
lemma entryState_of_reports {paths : DenseNodeId → Option (RoutePath F)} {v : DenseNodeId}
    (hdense : image.denseNodeId d = some v) (hreports : st.Reports origin v) {distance : F}
    (hdistance : st.distances v = some distance) :
    entryState image origin st paths reason d = .exact ⟨distance, paths v⟩ := by
  simp only [entryState, hdense, if_pos hreports, hdistance]

omit [Binary64 F] in
/-- Only the path of the entry's own node matters. -/
lemma entryState_congr {paths paths' : DenseNodeId → Option (RoutePath F)}
    (h : ∀ v, image.denseNodeId d = some v → st.Reports origin v → paths' v = paths v) :
    entryState image origin st paths' reason d = entryState image origin st paths reason d := by
  unfold entryState
  split
  · rfl
  · rename_i v hdense
    split_ifs with hreports
    · rw [h v hdense hreports]
    · rfl
    · rfl

omit [Binary64 F] in
/-- Two reasons state an entry differently only if its destination is present and open. -/
lemma entryState_ne {paths : DenseNodeId → Option (RoutePath F)} {reason' : CompletionReason}
    (h : entryState image origin st paths reason d ≠ entryState image origin st paths reason' d) :
    ∃ v, image.denseNodeId d = some v ∧ ¬ st.Reports origin v ∧
      (reason.Interrupts ↔ ¬ reason'.Interrupts) := by
  unfold entryState at h
  split at h
  · exact absurd rfl h
  · rename_i v hdense
    refine ⟨v, hdense, ?_⟩
    unfold CompletionReason.Interrupts
    split_ifs at h with hreports h₁ h₂ h₂
    · exact absurd rfl h
    · exact absurd rfl h
    · exact ⟨hreports, iff_of_true h₁ h₂⟩
    · exact ⟨hreports, iff_of_false h₁ (not_not_intro h₂)⟩
    · exact absurd rfl h

/-- The entries for a list of destinations. -/
def entries (image : RoutingImage) (origin : DenseNodeId) (st : SearchState F)
    (paths : DenseNodeId → Option (RoutePath F)) (reason : CompletionReason) (ds : List NodeId) :
    List (DestinationResult F) :=
  ds.map fun d => ⟨d, entryState image origin st paths reason d⟩

omit [Binary64 F] in
lemma entries_congr {paths paths' : DenseNodeId → Option (RoutePath F)} {ds : List NodeId}
    (h : ∀ d ∈ ds, ∀ v, image.denseNodeId d = some v → st.Reports origin v → paths' v = paths v) :
    entries image origin st paths' reason ds = entries image origin st paths reason ds := by
  refine List.map_congr_left fun d hd => ?_
  rw [entryState_congr (h d hd)]

/-- One turn of the loop: the entry of a node without a distance to report, or one whose path is
looked up or rebuilt. -/
lemma assembleState_cases {state : DestinationState F}
    (h : assembleState image.topology signal packed request origin st d (image.denseNodeId d) a w =
      (.ok (state, a'), w')) :
    ((∀ v, image.denseNodeId d = some v → ¬ st.Reports origin v) ∧
        state = entryState image origin st a.cached a.completionReason d ∧ a' = a ∧ w' = w) ∨
      ∃ v distance path a₁, image.denseNodeId d = some v ∧ st.Reports origin v ∧
        st.distances v = some distance ∧
        assemblePath image.topology signal packed request origin st d v distance a w =
          (.ok (path, a₁), w') ∧
        state = .exact ⟨distance, path⟩ ∧
        a' = { a₁ with
          firstDestination := a₁.firstDestination || (request.returnPaths && path.isSome) } := by
  unfold assembleState at h
  split at h
  · rename_i hdense
    cases h
    refine .inl ⟨by simp [hdense], ?_, rfl, rfl⟩
    simp only [entryState, hdense]
  · rename_i v hdense
    have hiff : (st.finalized v || decide (v = origin)) = true ↔ st.Reports origin v := by
      simp [SearchState.Reports]
    split_ifs at h with hfinal hreason
    · split at h
      · cases h
      · rename_i distance hdistance
        split at h
        · cases h
        · rename_i path a₁ w₁ hpath
          cases h
          exact .inr ⟨v, distance, path, a₁, hdense, hiff.1 hfinal, hdistance, hpath, rfl, rfl⟩
    all_goals
      have hopen : ¬ st.Reports origin v := fun hreports => hfinal (hiff.2 hreports)
      cases h
      refine .inl ⟨fun u hu => ?_, ?_, rfl, rfl⟩
      · obtain rfl : v = u := Option.some.inj (hdense.symm.trans hu)
        exact hopen
      · simp only [entryState, hdense, if_neg hopen]
        simp [hreason]

/-! ## The two phases of the loop -/

/-- Appends an entry to the results. -/
def Assembly.push (a : Assembly F) (d : NodeId) (state : DestinationState F) : Assembly F :=
  { a with results := a.results ++ [⟨d, state⟩] }

/-- No reconstruction has been interrupted: the entries are stated under the reason of the search,
and every path that was asked for is in the cache. -/
structure Settled (image : RoutingImage) (origin : DenseNodeId) (st : SearchState F)
    (reason : CompletionReason) (done : List NodeId) (a : Assembly F) : Prop where
  reason_eq : a.completionReason = reason
  results_eq : a.results = entries image origin st a.cached reason done
  cache_isSome : a.pathCache.isSome = st.predecessors.isSome
  rebuilt : a.pathCache.isSome = true → ∀ d ∈ done, ∀ v, image.denseNodeId d = some v →
    st.Reports origin v → (a.cached v).isSome = true
  asked : ∀ v, (a.cached v).isSome = true → ∃ d ∈ done, image.denseNodeId d = some v

/-- The reconstruction for one destination was interrupted: the entries before it are stated under
the reason of the search, the others as in a cancelled search.  The signal stays raised. -/
structure Broken (image : RoutingImage) (signal : CancellationSignal) (origin : DenseNodeId)
    (st : SearchState F) (reason : CompletionReason) (before : List NodeId) (p : NodeId)
    (after : List NodeId) (a : Assembly F) (w : World Unit) : Prop where
  reason_eq : a.completionReason = .cancelled
  results_eq : a.results = entries image origin st a.cached reason before ++
    entries image origin st a.cached .cancelled (p :: after)
  cache_isSome : a.pathCache.isSome = st.predecessors.isSome
  raised : signal w.polls = true
  origin_cached : ∀ d ∈ before ++ p :: after, image.denseNodeId d = some origin →
    (a.cached origin).isSome = true
  requested : a.pathCache.isSome = true
  fresh : p ∉ before
  interrupted : ∃ v, image.denseNodeId p = some v ∧ st.Reports origin v ∧ v ≠ origin

/-- A raised signal interrupts the reconstruction of every path but the empty one. -/
lemma reconstructPath_raised {externalOrigin externalDestination : NodeId} {v : DenseNodeId}
    {distance : F} {p : DenseNodeId → Option Predecessor} {count : ℕ} (hv : v ≠ origin)
    (hraised : signal w.polls = true) :
    reconstructPath image.topology signal packed externalOrigin origin externalDestination v
      distance p count w = (.ok none, count, { w with polls := w.polls + 1 }) := by
  simp [reconstructPath, reconstructSteps, World.isCancelled, hraised, hv, hv.symm]

omit [Binary64 F] in
lemma cached_update {cache : DenseNodeId → Option (RoutePath F)} {v u : DenseNodeId}
    {path : RoutePath F} (hcache : a.pathCache = some cache)
    (hcache' : a'.pathCache = some (Function.update cache v (some path))) (hne : u ≠ v) :
    a'.cached u = a.cached u := by
  simp [Assembly.cached, hcache, hcache', hne]

omit [Binary64 F] in
lemma entries_append (paths : DenseNodeId → Option (RoutePath F)) (ds ds' : List NodeId) :
    entries image origin st paths reason (ds ++ ds') =
      entries image origin st paths reason ds ++ entries image origin st paths reason ds' := by
  simp [entries]

omit [Binary64 F] in
/-- A further entry in the first phase. -/
lemma Settled.push {done : List NodeId} {state : DestinationState F}
    (h : Settled image origin st reason done a) (hreason : a'.completionReason = a.completionReason)
    (hresults : a'.results = a.results) (hcache : a'.pathCache.isSome = a.pathCache.isSome)
    (hkept : ∀ d ∈ done, ∀ v, image.denseNodeId d = some v → st.Reports origin v →
      a'.cached v = a.cached v)
    (hstate : state = entryState image origin st a'.cached reason d)
    (hrebuilt : a.pathCache.isSome = true → ∀ v, image.denseNodeId d = some v →
      st.Reports origin v → (a'.cached v).isSome = true)
    (hasked : ∀ v, (a'.cached v).isSome = true → (a.cached v).isSome = true ∨
      image.denseNodeId d = some v) :
    Settled image origin st reason (done ++ [d]) (a'.push d state) where
  reason_eq := hreason.trans h.reason_eq
  results_eq := by
    show a'.results ++ [⟨d, state⟩] = entries image origin st a'.cached reason (done ++ [d])
    rw [entries_append, entries_congr hkept, hresults, h.results_eq, hstate]
    rfl
  cache_isSome := hcache.trans h.cache_isSome
  rebuilt := by
    intro hsome e he v hdense hreports
    have hsome' : a.pathCache.isSome = true := hcache ▸ hsome
    rcases List.mem_append.1 he with he | he
    · show (a'.cached v).isSome = true
      rw [hkept e he v hdense hreports]
      exact h.rebuilt hsome' e he v hdense hreports
    · obtain rfl := List.mem_singleton.1 he
      exact hrebuilt hsome' v hdense hreports
  asked := by
    intro v hv
    rcases hasked v hv with hv | hdense
    · obtain ⟨e, he, hev⟩ := h.asked v hv
      exact ⟨e, List.mem_append_left _ he, hev⟩
    · exact ⟨d, by simp, hdense⟩

/-- One turn of the first phase, which it may end. -/
lemma Settled.step {done : List NodeId} {state : DestinationState F} (hmono : Monotone signal)
    (h : Settled image origin st reason done a)
    (hstate : assembleState image.topology signal packed request origin st d
      (image.denseNodeId d) a w = (.ok (state, a'), w')) :
    Settled image origin st reason (done ++ [d]) (a'.push d state) ∨
      Broken image signal origin st reason done d [] (a'.push d state) w' := by
  rcases assembleState_cases hstate with
    ⟨hopen, rfl, rfl, rfl⟩ | ⟨v, distance, path, a₁, hdense, hreports, hdistance, hpath, rfl, rfl⟩
  · refine .inl (h.push rfl rfl rfl (fun _ _ _ _ _ => rfl) ?_ (fun _ v hdense hreports => ?_)
      fun _ => .inl)
    · rw [h.reason_eq]
    · exact absurd hreports (hopen v hdense)
  · have hentry : ∀ (paths : DenseNodeId → Option (RoutePath F)) (r : CompletionReason),
        entryState image origin st paths r d = .exact ⟨distance, paths v⟩ := fun paths r =>
      entryState_of_reports hdense hreports hdistance
    rcases assemblePath_cases hpath with ⟨hskip, rfl, rfl, -⟩ | ⟨q, cache, hq, hcache, hturn⟩
    · have hnone : a₁.pathCache = none := by
        rcases hskip with hnone | hnone
        · rw [← Option.isNone_iff_eq_none, ← Option.not_isSome, h.cache_isSome, hnone]
          rfl
        · exact hnone
      refine .inl (h.push rfl rfl rfl (fun _ _ _ _ _ => rfl) ?_ (fun hsome => ?_) fun _ => .inl)
      · rw [hentry]
        simp [Assembly.cached, hnone]
      · rw [hnone] at hsome
        cases hsome
    · have hsome : a.pathCache.isSome = true := by rw [hcache]; rfl
      have hcached : a.cached v = cache v := by simp [Assembly.cached, hcache]
      rcases hturn with ⟨hhit, hfound, rfl, -⟩ | ⟨n, hmiss, hbuilt, ⟨found, rfl, rfl⟩ | ⟨rfl, rfl⟩⟩
      · -- found in the cache, as the node was rebuilt before
        refine .inl (h.push rfl rfl rfl (fun _ _ _ _ _ => rfl) ?_ (fun _ u hu _ => ?_)
          fun _ => .inl)
        · rw [hentry]
          exact congrArg (fun path => DestinationState.exact ⟨distance, path⟩)
            (hhit.symm.trans hcached.symm)
        · obtain rfl : v = u := Option.some.inj (hdense.symm.trans hu)
          show (a₁.cached v).isSome = true
          rw [hcached, hhit]
          exact hfound
      · -- rebuilt now: no entry before was for the same node, or it would be in the cache
        refine .inl (h.push rfl rfl hsome.symm (fun e he u hu hur => ?_) ?_ (fun _ u hu _ => ?_)
          fun u hu => ?_)
        · refine cached_update hcache rfl ?_
          rintro rfl
          have hearlier := h.rebuilt hsome e he u hu hur
          rw [hcached, hmiss] at hearlier
          cases hearlier
        · rw [hentry]
          simp [Assembly.cached]
        · obtain rfl : v = u := Option.some.inj (hdense.symm.trans hu)
          simp [Assembly.cached]
        · by_cases huv : u = v
          · exact .inr (huv ▸ hdense)
          · rw [cached_update hcache rfl huv] at hu
            exact .inl hu
      · -- the reconstruction is interrupted, and the signal stays raised
        obtain ⟨m, hm, hraised⟩ := reconstructPath_none hbuilt
        have hnew : ∀ e ∈ done, image.denseNodeId e ≠ some v := by
          intro e he hev
          have hearlier := h.rebuilt hsome e he v hev hreports
          rw [hcached, hmiss] at hearlier
          cases hearlier
        have hne : v ≠ origin := by
          rintro rfl
          simp [reconstructPath] at hbuilt
        refine .inr
          { reason_eq := rfl
            results_eq := ?_
            cache_isSome := h.cache_isSome
            raised := hmono hm.le hraised
            origin_cached := fun e he heo => ?_
            requested := hsome
            fresh := fun hd => hnew d hd hdense
            interrupted := ⟨v, hdense, hreports, hne⟩ }
        · show a.results ++ [_] = _
          rw [h.results_eq]
          refine congrArg _ ?_
          show _ = [(⟨d, entryState image origin st a.cached .cancelled d⟩ : DestinationResult F)]
          rw [hentry, hcached, hmiss]
        · rcases List.mem_append.1 he with he | he
          · exact h.rebuilt hsome e he origin heo (.inr rfl)
          · obtain rfl := List.mem_singleton.1 he
            exact absurd (Option.some.inj (hdense.symm.trans heo)) hne

/-- One turn of the second phase. -/
lemma Broken.step {before after : List NodeId} {p : NodeId} {state : DestinationState F}
    (hmono : Monotone signal) (h : Broken image signal origin st reason before p after a w)
    (hstate : assembleState image.topology signal packed request origin st d
      (image.denseNodeId d) a w = (.ok (state, a'), w')) :
    Broken image signal origin st reason before p (after ++ [d]) (a'.push d state) w' := by
  -- what remains to be shown about a turn: its reason, its cache and its entry
  have hpush : a'.completionReason = .cancelled → a'.results = a.results →
      a'.pathCache.isSome = a.pathCache.isSome →
      (∀ e ∈ before ++ p :: after, ∀ v, image.denseNodeId e = some v → a'.cached v = a.cached v) →
      state = entryState image origin st a'.cached .cancelled d →
      (image.denseNodeId d = some origin → (a'.cached origin).isSome = true) →
      signal w'.polls = true →
      Broken image signal origin st reason before p (after ++ [d]) (a'.push d state) w' := by
    intro hreason hresults hcache hkept hentry horigin hraised
    refine
      { reason_eq := hreason
        results_eq := ?_
        cache_isSome := hcache.trans h.cache_isSome
        raised := hraised
        origin_cached := fun e he heo => ?_
        requested := hcache.trans h.requested
        fresh := h.fresh
        interrupted := h.interrupted }
    · show a'.results ++ [⟨d, state⟩] = entries image origin st a'.cached reason before ++
        entries image origin st a'.cached .cancelled ((p :: after) ++ [d])
      rw [entries_append, ← List.append_assoc, hresults, h.results_eq, hentry,
        entries_congr fun e he v hv _ => hkept e (by simp [he]) v hv,
        entries_congr fun e he v hv _ => hkept e (by simp [he]) v hv]
      rfl
    · rw [← List.cons_append, ← List.append_assoc] at he
      rcases List.mem_append.1 he with he | he
      · show (a'.cached origin).isSome = true
        rw [hkept e he origin heo]
        exact h.origin_cached e he heo
      · obtain rfl := List.mem_singleton.1 he
        exact horigin heo
  rcases assembleState_cases hstate with
    ⟨hopen, rfl, rfl, rfl⟩ | ⟨v, distance, path, a₁, hdense, hreports, hdistance, hpath, rfl, rfl⟩
  · refine hpush h.reason_eq rfl rfl (fun _ _ _ _ => rfl) ?_ (fun heo => ?_) h.raised
    · rw [h.reason_eq]
    · exact absurd (.inr rfl) (hopen origin heo)
  · have hentry : ∀ paths : DenseNodeId → Option (RoutePath F),
        entryState image origin st paths .cancelled d = .exact ⟨distance, paths v⟩ := fun paths =>
      entryState_of_reports hdense hreports hdistance
    rcases assemblePath_cases hpath with ⟨hskip, rfl, rfl, -⟩ | ⟨q, cache, hq, hcache, hturn⟩
    · have hsome := h.requested
      have hsome' := h.cache_isSome.symm.trans hsome
      rcases hskip with hnone | hnone
      · rw [hnone] at hsome'
        cases hsome'
      · rw [hnone] at hsome
        cases hsome
    · have hcached : a.cached v = cache v := by simp [Assembly.cached, hcache]
      rcases hturn with
        ⟨hhit, hfound, rfl, rfl⟩ | ⟨n, hmiss, hbuilt, ⟨found, rfl, rfl⟩ | ⟨rfl, rfl⟩⟩
      · -- found in the cache, from before the interruption
        refine hpush h.reason_eq rfl rfl (fun _ _ _ _ => rfl) ?_ (fun heo => ?_) h.raised
        · rw [hentry]
          exact congrArg (fun path => DestinationState.exact ⟨distance, path⟩)
            (hhit.symm.trans hcached.symm)
        · obtain rfl : v = origin := Option.some.inj (hdense.symm.trans heo)
          show (a₁.cached v).isSome = true
          rw [hcached, hhit]
          exact hfound
      · -- only the empty path is still found
        obtain rfl : v = origin := by
          by_contra hne
          rw [reconstructPath_raised hne h.raised] at hbuilt
          cases hbuilt
        have hw : w' = w := by
          simp only [reconstructPath, if_true] at hbuilt
          cases hbuilt
          rfl
        subst hw
        refine hpush h.reason_eq rfl h.requested.symm (fun e he u hu => ?_) ?_ (fun _ => ?_)
          h.raised
        · refine cached_update hcache rfl ?_
          rintro rfl
          have hearlier := h.origin_cached e he hu
          rw [hcached, hmiss] at hearlier
          cases hearlier
        · rw [hentry]
          simp [Assembly.cached]
        · simp [Assembly.cached]
      · -- interrupted again, by the same signal
        have hne : v ≠ origin := by
          rintro rfl
          simp [reconstructPath] at hbuilt
        rw [reconstructPath_raised hne h.raised] at hbuilt
        cases hbuilt
        refine hpush rfl rfl rfl (fun _ _ _ _ => rfl) ?_ (fun heo => ?_)
          (hmono (Nat.le_succ _) h.raised)
        · rw [hentry]
          exact congrArg (fun path => DestinationState.exact ⟨distance, path⟩)
            (hmiss.symm.trans hcached.symm)
        · exact absurd (Option.some.inj (hdense.symm.trans heo)) hne

/-! ## Whole loops -/

/-- The destinations of a request as the loop sees them. -/
def RoutingImage.located (image : RoutingImage) (ds : List NodeId) :
    List (NodeId × Option DenseNodeId) :=
  ds.map fun d => (d, image.denseNodeId d)

lemma assembleResults_cons {ds : List NodeId}
    (h : assembleResults image.topology signal packed request origin st (image.located (d :: ds)) a
      w = (.ok a', w')) :
    ∃ state a₁ w₁, assembleState image.topology signal packed request origin st d
        (image.denseNodeId d) a w = (.ok (state, a₁), w₁) ∧
      assembleResults image.topology signal packed request origin st (image.located ds)
        (a₁.push d state) w₁ = (.ok a', w') := by
  unfold RoutingImage.located at h
  rw [List.map_cons] at h
  unfold assembleResults at h
  split at h
  · cases h
  · rename_i state a₁ w₁ hstate
    exact ⟨state, a₁, w₁, hstate, h⟩

lemma assembleResults_append {ds ds' : List NodeId}
    (h : assembleResults image.topology signal packed request origin st
      (image.located (ds ++ ds')) a w = (.ok a', w')) :
    ∃ a₁ w₁, assembleResults image.topology signal packed request origin st (image.located ds) a
        w = (.ok a₁, w₁) ∧
      assembleResults image.topology signal packed request origin st (image.located ds') a₁ w₁ =
        (.ok a', w') := by
  induction ds generalizing a w with
  | nil => exact ⟨a, w, rfl, h⟩
  | cons d ds ih =>
    obtain ⟨state, a₁, w₁, hstate, hrest⟩ := assembleResults_cons h
    obtain ⟨a₂, w₂, hfirst, hsecond⟩ := ih hrest
    refine ⟨a₂, w₂, ?_, hsecond⟩
    unfold RoutingImage.located at hfirst ⊢
    rw [List.map_cons]
    unfold assembleResults
    simp only [hstate]
    exact hfirst

omit [Binary64 F] in
/-- Nothing has been assembled yet. -/
lemma Settled.init (hpredecessors : st.predecessors.isSome = request.returnPaths) :
    Settled image origin st reason [] (initialAssembly request reason st) where
  reason_eq := rfl
  results_eq := rfl
  cache_isSome := by
    rw [hpredecessors]
    simp only [initialAssembly]
    split_ifs with h <;> simp [h]
  rebuilt := by simp
  asked := by
    intro v hv
    simp only [Assembly.cached, initialAssembly] at hv
    split_ifs at hv <;> cases hv

lemma Broken.run {before after ds : List NodeId} {p : NodeId} (hmono : Monotone signal)
    (h : Broken image signal origin st reason before p after a w)
    (hrun : assembleResults image.topology signal packed request origin st (image.located ds) a
      w = (.ok a', w')) :
    Broken image signal origin st reason before p (after ++ ds) a' w' := by
  induction ds generalizing after a w with
  | nil =>
    cases hrun
    rwa [List.append_nil]
  | cons d ds ih =>
    obtain ⟨state, a₁, w₁, hstate, hrest⟩ := assembleResults_cons hrun
    have hafter := ih (h.step hmono hstate) hrest
    rwa [List.append_assoc] at hafter

/-- The loop ends in its first phase, or at some destination in the second. -/
lemma Settled.run {done : List NodeId} (ds : List NodeId) (hmono : Monotone signal)
    (h : Settled image origin st reason done a)
    (hrun : assembleResults image.topology signal packed request origin st (image.located ds) a
      w = (.ok a', w')) :
    Settled image origin st reason (done ++ ds) a' ∨ ∃ before p after,
      done ++ ds = before ++ p :: after ∧
        Broken image signal origin st reason before p after a' w' := by
  induction ds generalizing done a w with
  | nil =>
    cases hrun
    left
    rwa [List.append_nil]
  | cons d ds ih =>
    obtain ⟨state, a₁, w₁, hstate, hrest⟩ := assembleResults_cons hrun
    rcases h.step hmono hstate with hsettled | hbroken
    · have hafter := ih hsettled hrest
      rwa [List.append_assoc] at hafter
    · exact .inr ⟨done, d, ds, rfl, hbroken.run hmono hrest⟩

/-! ## What the search has proved -/

/-- An enabled walk leads from the request's origin to a node. -/
def Reaches (F : Type) [Binary64 F] (image : RoutingImage) (request : RoutingRequest)
    (v : DenseNodeId) : Prop :=
  ∃ origin arcs, image.denseNodeId request.origin = some origin ∧
    (routingNetwork F image request.profile).Walk origin arcs v

lemma reaches_iff {v : DenseNodeId} (hdense : image.denseNodeId d = some v) :
    RouteExists F image request d ↔ Reaches F image request v := by
  constructor
  · rintro ⟨origin, v', arcs, horigin, hdense', hwalk⟩
    obtain rfl : v = v' := Option.some.inj (hdense.symm.trans hdense')
    exact ⟨origin, arcs, horigin, hwalk⟩
  · rintro ⟨origin, arcs, horigin, hwalk⟩
    exact ⟨origin, v, arcs, horigin, hdense, hwalk⟩

open Classical in
/-- The number of edges that leave a node the origin reaches, enabled or not. -/
noncomputable def reachedEdges (F : Type) [Binary64 F] (image : RoutingImage)
    (request : RoutingRequest) : ℕ :=
  ((((List.range image.nodeCount).map DenseNodeId.ofNat).filter
    fun v => Reaches F image request v).map image.outDegree).sum

/-- The budget permits every edge that leaves a node the origin reaches. -/
def Affords (F : Type) [Binary64 F] (image : RoutingImage) (request : RoutingRequest) : Prop :=
  ∀ limit, request.budget = .examinedEdges limit → reachedEdges F image request ≤ limit.val

section Search

variable {order : List DenseNodeId} {scan : List ℕ}
  {targets : DenseNodeId → Prop}

/-- Final nodes are reached, and so is the origin. -/
lemma SearchInv.reaches (inv : SearchInv image request.profile origin order scan st)
    (horigin : image.denseNodeId request.origin = some origin) {v : DenseNodeId}
    (hv : v ∈ order ∨ v = origin) : Reaches F image request v := by
  rcases hv with hv | rfl
  · obtain ⟨distance, hdistance, -⟩ := inv.settled_min v hv
    obtain ⟨arcs, hwalk, -⟩ := inv.label_walk v distance hdistance
    exact ⟨origin, arcs, horigin, hwalk⟩
  · exact ⟨v, [], horigin, .nil⟩

/-- When no label is waiting, every node that is reached is final. -/
lemma SearchInv.final_of_reaches (inv : SearchInv image request.profile origin order [] st)
    (hexhausted : ∀ v d, st.distances v = some d → v ∈ order)
    (horigin : image.denseNodeId request.origin = some origin) {v : DenseNodeId}
    (hv : Reaches F image request v) : v ∈ order := by
  obtain ⟨origin', arcs, horigin', hwalk⟩ := hv
  obtain rfl : origin = origin' := Option.some.inj (horigin.symm.trans horigin')
  have hclosed : (searchLabelling order st).Closed (routingNetwork F image request.profile) :=
    fun arc hsource husable => inv.relaxed arc hsource husable (by simp)
  exact Network.Labelling.settled_of_exhausted hclosed
    (hexhausted origin 0 inv.origin_label) hexhausted hwalk

open Classical in
/-- The final nodes are among the reached ones. -/
lemma SearchInv.subperm_reached (inv : SearchInv image request.profile origin order scan st)
    (horigin : image.denseNodeId request.origin = some origin) :
    order.Subperm (((List.range image.nodeCount).map DenseNodeId.ofNat).filter
      fun v => Reaches F image request v) := by
  refine List.subperm_of_subset inv.nodup fun v hv => ?_
  refine List.mem_filter.2 ⟨List.mem_map.2 ⟨v.asUsize, List.mem_range.2 (inv.order_lt hv), ?_⟩, ?_⟩
  · exact DenseNodeId.asUsize_injective (DenseNodeId.asUsize_ofNat v.asU32.isLt)
  · exact decide_eq_true (inv.reaches horigin (.inl hv))

lemma sum_outDegree_mono (image : RoutingImage) {l l' : List DenseNodeId} (h : l.Subperm l') :
    (l.map image.outDegree).sum ≤ (l'.map image.outDegree).sum := by
  obtain ⟨m, hperm, hsub⟩ := h
  rw [← (hperm.map image.outDegree).sum_eq]
  exact (hsub.map image.outDegree).sum_le_sum fun _ _ => Nat.zero_le _

/-- A search that exhausts its frontier has examined every edge that leaves a reached node. -/
lemma Searching.affords (wf : image.WellFormed)
    (h : Searching image request origin targets order [] st)
    (hexhausted : ∀ v d, st.distances v = some d → v ∈ order)
    (horigin : image.denseNodeId request.origin = some origin) : Affords F image request := by
  intro limit hlimit
  have hnodup : ((List.range image.nodeCount).map DenseNodeId.ofNat).Nodup := by
    refine List.Nodup.map_on (fun i hi j hj hij => ?_) List.nodup_range
    have hbound := wf.node_count_lt
    rw [List.mem_range] at hi hj
    have hidx := congrArg DenseNodeId.asUsize hij
    rwa [DenseNodeId.asUsize_ofNat (by omega), DenseNodeId.asUsize_ofNat (by omega)] at hidx
  classical
  have hsub : (((List.range image.nodeCount).map DenseNodeId.ofNat).filter
      fun v => Reaches F image request v).Subperm order :=
    List.subperm_of_subset (hnodup.filter _) fun v hv =>
      h.search.final_of_reaches hexhausted horigin (of_decide_eq_true (List.mem_filter.1 hv).2)
  calc reachedEdges F image request
      ≤ (order.map image.outDegree).sum := by
        unfold reachedEdges
        convert sum_outDegree_mono image hsub
    _ = st.examinedEdges := by simpa using h.examined_eq.symm
    _ ≤ limit.val := h.within_budget limit hlimit

/-- A search that stops at its budget cannot afford every edge that leaves a reached node. -/
lemma Searching.not_affords (h : Searching image request origin targets order scan st)
    (hscan : scan ≠ []) (hrefused : request.budget.permits st.examinedEdges = false)
    (horigin : image.denseNodeId request.origin = some origin) : ¬ Affords F image request := by
  intro haffords
  classical
  have hsum := sum_outDegree_mono image (h.search.subperm_reached horigin)
  have hpos := List.length_pos_of_ne_nil hscan
  have hexamined := h.examined_eq
  rcases hbudget : request.budget with _ | limit
  · rw [hbudget] at hrefused
    cases hrefused
  · have hle : limit.val ≤ st.examinedEdges := by
      rw [hbudget] at hrefused
      simpa [SearchBudget.permits] using hrefused
    have hreached := haffords limit hbudget
    unfold reachedEdges at hreached
    have : (order.map image.outDegree).sum ≤ limit.val := by
      refine hsum.trans (le_trans (le_of_eq ?_) hreached)
      congr!
    omega

end Search

/-! ## Agreement -/

/-- Entries for the same destination say the same. -/
def RoutingResponse.DuplicatesAgree (response : RoutingResponse F) : Prop :=
  ∀ r ∈ response.results, ∀ r' ∈ response.results, r.destination = r'.destination →
    r.state = r'.state

/-- Paths are requested, and between two entries of a destination the origin cannot reach stands
the first entry of another one that it can reach. -/
def Straddled (F : Type) [Binary64 F] (image : RoutingImage) (request : RoutingRequest) : Prop :=
  request.returnPaths = true ∧ ∃ before p after u, request.destinations = before ++ p :: after ∧
    p ∉ before ∧ u ∈ before ∧ u ∈ after ∧ u ∈ image.denseToExternal ∧
    ¬ RouteExists F image request u ∧ RouteExists F image request p ∧ p ≠ request.origin

/-- The profile of the request has exactly one use for each relation kind of the image. -/
def Packs (image : RoutingImage) (request : RoutingRequest) : Prop :=
  ∃ packed, request.profile.packRelationIds image.confirmedRelationIds = .ok packed

omit [Binary64 F] in
lemma mem_entries {paths : DenseNodeId → Option (RoutePath F)} {ds : List NodeId}
    {r : DestinationResult F} (h : r ∈ entries image origin st paths reason ds) :
    r.destination ∈ ds ∧ r.state = entryState image origin st paths reason r.destination := by
  obtain ⟨d, hd, rfl⟩ := List.mem_map.1 h
  exact ⟨hd, rfl⟩

section Agreement

variable {order : List DenseNodeId} {scan : List ℕ} {frontier : List (FrontierEntry F)}

/-- The interruption separates two entries of a destination only where the frontier was exhausted
and the destination is straddled. -/
lemma Broken.straddled (wf : image.WellFormed) {before after : List NodeId} {p u : NodeId}
    (h : Broken image signal origin st reason before p after a w)
    (horigin : image.denseNodeId request.origin = some origin)
    (hsearching : Searching image request origin
      (fun v => some v ∈ request.destinations.map image.denseNodeId) order scan
      { st with frontier := frontier })
    (hstopped : Stopped request signal
      (fun v => some v ∈ request.destinations.map image.denseNodeId) order scan st reason)
    (hdestinations : request.destinations = before ++ p :: after) (hbefore : u ∈ before)
    (hafter : u ∈ p :: after)
    (hne : entryState image origin st a.cached reason u ≠
      entryState image origin st a.cached .cancelled u) :
    reason = .frontierExhausted ∧ Straddled F image request ∧ Affords F image request := by
  obtain ⟨v, hv, hopen, hinterrupts⟩ := entryState_ne hne
  obtain ⟨x, hx, hreports, hxo⟩ := h.interrupted
  have hreason : ¬ reason.Interrupts := fun hreason => hinterrupts.1 hreason (.inr rfl)
  have hu : u ∈ request.destinations := by
    rw [hdestinations]
    exact List.mem_append_left _ hbefore
  have hfinal : ∀ y, st.Reports origin y ↔ y ∈ order ∨ y = origin := fun y => by
    rw [SearchState.Reports, ← hsearching.search.finalized_iff y]
  -- two entries of one node differ only if it was left out, so the search did not finalize all
  obtain rfl : reason = .frontierExhausted := by
    rcases reason with _ | _ | _ | _
    · exact absurd ((hfinal v).2 (.inl (hstopped v (List.mem_map.2 ⟨u, hu, hv⟩)))) hopen
    · rfl
    · exact absurd (.inl rfl) hreason
    · exact absurd (.inr rfl) hreason
  obtain ⟨rfl, hexhausted, -⟩ := hstopped
  have hreturn : request.returnPaths = true :=
    hsearching.predecessors_isSome.symm.trans (h.cache_isSome.symm.trans h.requested)
  refine ⟨rfl, ⟨hreturn, before, p, after, u, hdestinations, h.fresh, hbefore, ?_, ?_, ?_, ?_, ?_⟩,
    hsearching.affords wf hexhausted horigin⟩
  · rcases List.mem_cons.1 hafter with rfl | hafter
    · obtain rfl : v = x := Option.some.inj (hv.symm.trans hx)
      exact absurd hreports hopen
    · exact hafter
  · exact List.mem_of_getElem? (wf.denseNodeId_eq_some.1 hv)
  · rw [reaches_iff hv]
    intro hreaches
    exact hopen ((hfinal v).2 (.inl
      (hsearching.search.final_of_reaches hexhausted horigin hreaches)))
  · exact (reaches_iff hx).2 (hsearching.search.reaches horigin ((hfinal x).1 hreports))
  · rintro rfl
    exact hxo (Option.some.inj (hx.symm.trans horigin))

/-- Outside the straddled requests duplicates agree. -/
lemma duplicatesAgree_of_route (wf : image.WellFormed) (hmono : Monotone signal)
    (hfree : ¬ (Straddled F image request ∧ Affords F image request ∧ Packs image request))
    {response : RoutingResponse F} {diagnostics : CpuSearchDiagnostics}
    (hroute : routeControlled image request signal = .ok (response, diagnostics)) :
    response.DuplicatesAgree := by
  obtain ⟨origin, packed, horigin, hpack, ⟨-, heq⟩ | ⟨hpending, reason, st, w, a, w', hsearch,
    hassemble, heq⟩⟩ := routeControlled_cases hroute
  · cases heq
    intro r hr r' hr' _
    obtain ⟨d, -, rfl⟩ := List.mem_map.1 hr
    obtain ⟨d', -, rfl⟩ := List.mem_map.1 hr'
    rfl
  · obtain ⟨order, scan, frontier, hsearching, hstopped⟩ :=
      runSearch_stopped wf hsearch horigin hpack
    have hresults : response.results = a.results := by
      cases heq
      rfl
    have hinit : Settled image origin st reason [] (initialAssembly request reason st) :=
      .init hsearching.predecessors_isSome
    have hphase := hinit.run request.destinations hmono hassemble
    intro r hr r' hr' hsame
    rw [hresults] at hr hr'
    rcases hphase with hsettled | ⟨before, p, after, hdestinations, hbroken⟩
    · rw [hsettled.results_eq] at hr hr'
      rw [(mem_entries hr).2, (mem_entries hr').2, hsame]
    · -- entries of the same phase agree, and across the phases only a straddled one differs
      have hagree : ∀ u ∈ before, u ∈ p :: after → entryState image origin st a.cached reason u =
          entryState image origin st a.cached .cancelled u := by
        intro u hbefore hafter
        by_contra hne
        obtain ⟨rfl, hstraddled, haffords⟩ := hbroken.straddled wf horigin hsearching hstopped
          hdestinations hbefore hafter hne
        exact hfree ⟨hstraddled, haffords, packed, hpack⟩
      rw [hbroken.results_eq] at hr hr'
      rcases List.mem_append.1 hr with hr | hr <;> rcases List.mem_append.1 hr' with hr' | hr' <;>
        obtain ⟨hmem, hstate⟩ := mem_entries hr <;> obtain ⟨hmem', hstate'⟩ := mem_entries hr' <;>
        rw [hstate, hstate', hsame]
      · exact hagree _ (hsame ▸ hmem) hmem'
      · exact (hagree _ hmem' (hsame ▸ hmem)).symm

/-- A path that is not in the cache yet is not rebuilt under a raised signal. -/
lemma assembleState_raised {p : NodeId} {x : DenseNodeId} {state : DestinationState F}
    (hx : image.denseNodeId p = some x) (hreports : st.Reports origin x) (hxo : x ≠ origin)
    (hcache : a.pathCache.isSome = true) (hpredecessors : st.predecessors.isSome = true)
    (hmiss : a.cached x = none) (hraised : signal w.polls = true)
    (h : assembleState image.topology signal packed request origin st p (image.denseNodeId p) a w =
      (.ok (state, a'), w')) : a'.completionReason = .cancelled := by
  rcases assembleState_cases h with
    ⟨hopen, -⟩ | ⟨v, distance, path, a₁, hv, -, -, hpath, -, rfl⟩
  · exact absurd hreports (hopen x hx)
  · obtain rfl : x = v := Option.some.inj (hx.symm.trans hv)
    rcases assemblePath_cases hpath with ⟨hskip, -⟩ | ⟨q, cache, hq, hsome, hturn⟩
    · rcases hskip with hnone | hnone
      · rw [hnone] at hpredecessors
        cases hpredecessors
      · rw [hnone] at hcache
        cases hcache
    · have hcached : a.cached x = cache x := by simp [Assembly.cached, hsome]
      rcases hturn with ⟨hhit, hfound, -⟩ | ⟨n, -, hbuilt, ⟨found, rfl, -⟩ | ⟨-, rfl⟩⟩
      · rw [← hhit, ← hcached, hmiss] at hfound
        cases hfound
      · rw [reconstructPath_raised hxo hraised] at hbuilt
        cases hbuilt
      · rfl

/-- A destination in the image is pending when the search begins. -/
lemma collectedPending_ne_zero {v : DenseNodeId}
    (hv : some v ∈ request.destinations.map image.denseNodeId) :
    (image.collectedPending request).2 ≠ 0 := by
  obtain ⟨waiting, -, hcard, hcover⟩ := collectedPending_spec image request
  rw [hcard]
  exact Finset.card_ne_zero_of_mem ((hcover v).2 hv)

/-- No distance overflows, so a search that is not cancelled is answered. -/
lemma exists_answer [WideRange F] (wf : image.WellFormed)
    (horigin : image.denseNodeId request.origin = some origin)
    (hpack : request.profile.packRelationIds image.confirmedRelationIds = .ok packed)
    (hpending : (image.collectedPending request).2 ≠ 0) :
    ∃ response diagnostics, routeControlled (F := F) image request neverCancelled =
      .ok (response, diagnostics) := by
  have hspec := runSearch_spec neverCancelled wf hpack (wf.lt_of_denseNodeId horigin) ⟨0, ()⟩
    (searchStart_pending (F := F) image request origin)
  rcases hsearch : runSearch image.topology neverCancelled packed request
    (image.searchStart request origin : SearchState F) ⟨0, ()⟩ with ⟨e | ⟨reason, st⟩, w⟩
  · have hstart : initialSearchState request origin (image.collectedPending request).1
        (image.collectedPending request).2 = (image.searchStart request origin : SearchState F) :=
      rfl
    rw [hstart, hsearch] at hspec
    exact absurd hspec e.not_overflows
  · exact routeControlled_of_search wf hsearch horigin hpack hpending

/-- A search that is not cancelled and leaves a destination out exhausts the frontier, if the budget
permits: it reports what the origin reaches. -/
lemma exists_exhausted [WideRange F] (wf : image.WellFormed)
    (horigin : image.denseNodeId request.origin = some origin)
    (hpack : request.profile.packRelationIds image.confirmedRelationIds = .ok packed)
    (haffords : Affords F image request) {u p : NodeId} {v x : DenseNodeId}
    (hudest : u ∈ request.destinations) (hv : image.denseNodeId u = some v)
    (hunreached : ¬ RouteExists F image request u) (hx : image.denseNodeId p = some x)
    (hreached : RouteExists F image request p) :
    ∃ (st : SearchState F) (w : World Unit) (a : Assembly F) (w' : World Unit),
      runSearch image.topology neverCancelled packed request (image.searchStart request origin)
        ⟨0, ()⟩ = (.ok (.frontierExhausted, st), w) ∧
      assembleResults image.topology neverCancelled packed request origin st
        (image.located request.destinations) (initialAssembly request .frontierExhausted st) w =
          (.ok a, w') ∧
      st.predecessors.isSome = request.returnPaths ∧ ¬ st.Reports origin v ∧
      st.Reports origin x := by
  have htarget : some v ∈ request.destinations.map image.denseNodeId :=
    List.mem_map.2 ⟨u, hudest, hv⟩
  have hpending := collectedPending_ne_zero htarget
  obtain ⟨response, diagnostics, hroute⟩ := exists_answer (F := F) wf horigin hpack hpending
  obtain ⟨origin', packed', horigin', hpack', ⟨hzero, -⟩ | ⟨-, reason, st, w, a, w', hsearch,
    hassemble, -⟩⟩ := routeControlled_cases hroute
  · exact absurd hzero hpending
  obtain rfl : origin = origin' := Option.some.inj (horigin.symm.trans horigin')
  obtain rfl : packed = packed' := Except.ok.inj (hpack.symm.trans hpack')
  obtain ⟨order, scan, frontier, hsearching, hstopped⟩ := runSearch_stopped wf hsearch horigin hpack
  have hopen : v ∉ order := fun hmem => hunreached
    ((reaches_iff hv).2 (hsearching.search.reaches horigin (.inl hmem)))
  obtain rfl : reason = .frontierExhausted := by
    rcases reason with _ | _ | _ | _
    · exact absurd (hstopped v htarget) hopen
    · rfl
    · exact absurd haffords (hsearching.not_affords hstopped.2.1 hstopped.1 horigin)
    · obtain ⟨n, hn⟩ := hstopped
      cases hn
  obtain ⟨rfl, hexhausted, -⟩ := hstopped
  have hfinal : ∀ y, st.Reports origin y ↔ y ∈ order ∨ y = origin := fun y => by
    rw [SearchState.Reports, ← hsearching.search.finalized_iff y]
  have horder : origin ∈ order := hexhausted origin 0 hsearching.search.origin_label
  refine ⟨st, w, a, w', hsearch, hassemble, hsearching.predecessors_isSome, ?_, ?_⟩
  · rw [hfinal]
    rintro (hmem | rfl)
    · exact hopen hmem
    · exact hopen horder
  · exact (hfinal x).2 (.inl
      (hsearching.search.final_of_reaches hexhausted horigin ((reaches_iff hx).1 hreached)))

/-- Without cancellation the loop stays settled, and up to the first entry of a destination nothing
asks for its path. -/
lemma settled_before (wf : image.WellFormed) {before : List NodeId} {p : NodeId} {x : DenseNodeId}
    (hx : image.denseNodeId p = some x) (hfresh : p ∉ before)
    (hpredecessors : st.predecessors.isSome = request.returnPaths)
    (h : assembleResults image.topology neverCancelled packed request origin st
      (image.located before) (initialAssembly request reason st) w = (.ok a, w')) :
    Settled image origin st reason before a ∧ a.cached x = none := by
  have hinit : Settled image origin st reason [] (initialAssembly request reason st) :=
    .init hpredecessors
  have hnever : Monotone neverCancelled := monotone_const
  rcases hinit.run _ hnever h with hsettled | ⟨_, _, _, -, hbroken⟩
  · refine ⟨hsettled, ?_⟩
    rcases hcached : a.cached x with _ | path
    · rfl
    · obtain ⟨e, he, hex⟩ := hsettled.asked x (by rw [hcached]; rfl)
      have hsame := (wf.denseNodeId_eq_some.1 hx).symm.trans (wf.denseNodeId_eq_some.1 hex)
      exact absurd (Option.some.inj hsame ▸ he) hfresh
  · cases hbroken.raised

/-- A signal that is raised when the reconstruction of the path of `p` begins makes the entries of
an unreported destination before and after it disagree. -/
lemma disagree_of_raised (hmono : Monotone signal)
    (horigin : image.denseNodeId request.origin = some origin)
    (hpack : request.profile.packRelationIds image.confirmedRelationIds = .ok packed)
    (hsearch : runSearch image.topology signal packed request (image.searchStart request origin)
      ⟨0, ()⟩ = (.ok (.frontierExhausted, st), w))
    {before after : List NodeId} {p u : NodeId} {v x : DenseNodeId}
    (hdestinations : request.destinations = before ++ p :: after) (hbefore : u ∈ before)
    (hafter : u ∈ after) (hv : image.denseNodeId u = some v) (hvreports : ¬ st.Reports origin v)
    (hx : image.denseNodeId p = some x) (hxreports : st.Reports origin x) (hxo : x ≠ origin)
    (hfirst : assembleResults image.topology signal packed request origin st
      (image.located before) (initialAssembly request .frontierExhausted st) w = (.ok a, w'))
    (hsettled : Settled image origin st .frontierExhausted before a)
    (hcache : a.pathCache.isSome = true) (hmiss : a.cached x = none)
    (hraised : signal w'.polls = true) {response : RoutingResponse F}
    {diagnostics : CpuSearchDiagnostics}
    (hroute : routeControlled image request signal = .ok (response, diagnostics)) :
    ¬ response.DuplicatesAgree := by
  intro hagree
  have htarget : some v ∈ request.destinations.map image.denseNodeId :=
    List.mem_map.2 ⟨u, hdestinations ▸ List.mem_append_left _ hbefore, hv⟩
  obtain ⟨origin', packed', horigin', hpack', ⟨hzero, -⟩ | ⟨-, reason, st', w₁, a', w₂, hsearch',
    hassemble, heq⟩⟩ := routeControlled_cases hroute
  · exact absurd hzero (collectedPending_ne_zero htarget)
  obtain rfl : origin = origin' := Option.some.inj (horigin.symm.trans horigin')
  obtain rfl : packed = packed' := Except.ok.inj (hpack.symm.trans hpack')
  have hsame := hsearch.symm.trans hsearch'
  cases hsame
  have hlocated : assembleResults image.topology signal packed request origin st
      (image.located (before ++ p :: after)) (initialAssembly request .frontierExhausted st) w =
        (.ok a', w₂) := by
    rw [← hdestinations]
    exact hassemble
  obtain ⟨a₁, w₃, hfirst', hrest⟩ := assembleResults_append hlocated
  have hsame' := hfirst.symm.trans hfirst'
  cases hsame'
  -- the turn of `p` is interrupted, and no later turn is undone
  obtain ⟨state, a₂, w₄, hstate, hlast⟩ := assembleResults_cons hrest
  have hcancelled := assembleState_raised hx hxreports hxo hcache
    (hsettled.cache_isSome.symm.trans hcache) hmiss hraised hstate
  have hbroken : Broken image signal origin st .frontierExhausted before p [] (a₂.push p state)
      w₄ := by
    rcases hsettled.step hmono hstate with hsettled' | hbroken
    · cases hcancelled.symm.trans hsettled'.reason_eq
    · exact hbroken
  have hend := hbroken.run hmono hlast
  have hresults : response.results = a'.results := by
    cases heq
    rfl
  rw [RoutingResponse.DuplicatesAgree, hresults, hend.results_eq] at hagree
  have hstates := hagree ⟨u, entryState image origin st a'.cached .frontierExhausted u⟩
    (List.mem_append_left _ (List.mem_map.2 ⟨u, hbefore, rfl⟩))
    ⟨u, entryState image origin st a'.cached .cancelled u⟩
    (List.mem_append_right _ (List.mem_map.2 ⟨u, List.mem_cons_of_mem _ hafter, rfl⟩)) rfl
  simp [entryState, hv, hvreports] at hstates

/-- A straddled request has a signal under which its duplicates disagree: the one that is raised
when the reconstruction of the path between them begins. -/
lemma exists_disagreement [WideRange F] (wf : image.WellFormed)
    (hstraddled : Straddled F image request) (haffords : Affords F image request)
    (hpacks : Packs image request) :
    ∃ signal, Monotone signal ∧ ∃ (response : RoutingResponse F)
      (diagnostics : CpuSearchDiagnostics),
        routeControlled image request signal = .ok (response, diagnostics) ∧
          ¬ response.DuplicatesAgree := by
  obtain ⟨hreturn, before, p, after, u, hdestinations, hfresh, hbefore, hafter, hpresent,
    hunreached, hreached, hpo⟩ := hstraddled
  obtain ⟨packed, hpack⟩ := hpacks
  have hudest : u ∈ request.destinations := by
    rw [hdestinations]
    exact List.mem_append_left _ hbefore
  obtain ⟨v, hv⟩ : ∃ v, image.denseNodeId u = some v := by
    rcases hv : image.denseNodeId u with _ | v
    · exact absurd hpresent (wf.denseNodeId_eq_none.1 hv)
    · exact ⟨v, rfl⟩
  obtain ⟨origin, x, _, horigin, hx, _⟩ := id hreached
  have hxo : x ≠ origin := by
    rintro rfl
    have hsame := (wf.denseNodeId_eq_some.1 hx).symm.trans (wf.denseNodeId_eq_some.1 horigin)
    exact hpo (Option.some.inj hsame)
  have hpending := collectedPending_ne_zero
    (show some v ∈ request.destinations.map image.denseNodeId from List.mem_map.2 ⟨u, hudest, hv⟩)
  -- the search and the loop up to the destination in between, without cancellation
  obtain ⟨st, w, a, w', hsearch, hassemble, hpredecessors, hvreports, hxreports⟩ :=
    exists_exhausted wf horigin hpack haffords hudest hv hunreached hx hreached
  rw [hdestinations] at hassemble
  obtain ⟨a₁, w₁, hfirst, -⟩ := assembleResults_append hassemble
  obtain ⟨hsettled, hmiss⟩ := settled_before wf hx hfresh hpredecessors hfirst
  have hcache : a₁.pathCache.isSome = true :=
    hsettled.cache_isSome.trans (hpredecessors.trans hreturn)
  -- the same search and the same first entries under the signal that is raised there
  set signal : CancellationSignal := fun n => decide (w₁.polls ≤ n) with hsignal
  have hmono : Monotone signal := by
    intro m n hmn hm
    exact decide_eq_true ((of_decide_eq_true hm).trans hmn)
  have hfirstQuiet := assembleResults_undisturbed hfirst
  have hsearchQuiet := runSearch_undisturbed hsearch (by simp)
  have hlow : ∀ n < w₁.polls, signal n = false := fun n hn => decide_eq_false (by omega)
  have hsearch' := hsearchQuiet.same signal ⟨hsearchQuiet.unraised.polls_le, fun n _ hn =>
    hlow n (hn.trans_le hfirstQuiet.unraised.polls_le)⟩
  have hfirst' := hfirstQuiet.same signal ⟨hfirstQuiet.unraised.polls_le, fun n _ hn => hlow n hn⟩
  obtain ⟨response, diagnostics, hroute⟩ :=
    routeControlled_of_search wf hsearch' horigin hpack hpending
  exact ⟨signal, hmono, response, diagnostics, hroute, disagree_of_raised hmono horigin hpack
    hsearch' hdestinations hbefore hafter hv hvreports hx hxreports hxo hfirst' hsettled hcache
    hmiss
    (decide_eq_true le_rfl) hroute⟩

end Agreement

/-- The entries for one destination agree under every signal that stays raised, unless paths are
requested, the first entry of a reachable destination stands between two entries of one that the
origin cannot reach, the profile packs, and the budget lets the search find this out. -/
theorem duplicatesAgree_iff [WideRange F] (wf : image.WellFormed) (request : RoutingRequest) :
    (∀ signal, Monotone signal → ∀ (response : RoutingResponse F) (diagnostics),
      routeControlled image request signal = .ok (response, diagnostics) →
        response.DuplicatesAgree) ↔
      ¬ (Straddled F image request ∧ Affords F image request ∧ Packs image request) := by
  constructor
  · rintro h ⟨hstraddled, haffords, hpacks⟩
    obtain ⟨signal, hmono, response, diagnostics, hroute, hdisagree⟩ :=
      exists_disagreement wf hstraddled haffords hpacks
    exact hdisagree (h signal hmono response diagnostics hroute)
  · intro hfree signal hmono response diagnostics hroute
    exact duplicatesAgree_of_route wf hmono hfree hroute

/-- An edge from the first node to the second; the third one is out of reach. -/
def apartRecords : ConfirmedGraphRecords where
  nodes := [⟨.ofNat 3, ⟨"a"⟩, ⟨[]⟩⟩, ⟨.ofNat 7, ⟨"b"⟩, ⟨[]⟩⟩, ⟨.ofNat 9, ⟨"c"⟩, ⟨[]⟩⟩]
  relationKinds := [⟨.ofNat 1, ⟨"r"⟩, 0, 1⟩]
  edges := [⟨.ofNat 5, .ofNat 3, .ofNat 7, .ofNat 1, ⟨0x3F800000, BaseWeight.oneBits_le⟩⟩]

/-- The second node between two entries of the third. -/
def apartRequest : RoutingRequest where
  origin := .ofNat 3
  destinations := [.ofNat 9, .ofNat 7, .ofNat 9]
  profile := ⟨[(.ofNat 1, .enabled .one)]⟩
  returnPaths := true
  budget := .unlimited
  tiePolicy := .stablePredecessor

/-- With the reachable node last, no entry of it stands between the two of the other one. -/
theorem duplicatesAgree_iff_apart : ∃ image, compileRoutingImage apartRecords = .ok image ∧
    ∀ signal, Monotone signal → ∀ (response : RoutingResponse SoftBinary64) (diagnostics),
      routeControlled image { apartRequest with destinations := [.ofNat 9, .ofNat 9, .ofNat 7] }
        signal = .ok (response, diagnostics) → response.DuplicatesAgree := by
  have hsome : (compileRoutingImage apartRecords).toOption.isSome = true := by
    decide +kernel
  rcases himage : compileRoutingImage apartRecords with e | image
  · rw [himage] at hsome
    cases hsome
  · refine ⟨image, rfl, (duplicatesAgree_iff (compileRoutingImage_wellFormed himage) _).2 ?_⟩
    rintro ⟨⟨-, before, p, after, u, hsplit, hfresh, hbefore, hafter, -⟩, -⟩
    -- the split is after one of the three entries
    rcases before with _ | ⟨a, _ | ⟨b, _ | ⟨c, before⟩⟩⟩
    · exact absurd hbefore List.not_mem_nil
    · simp only [List.cons_append, List.nil_append, List.cons.injEq] at hsplit
      obtain ⟨rfl, rfl, -⟩ := hsplit
      exact hfresh List.mem_cons_self
    · simp only [List.cons_append, List.nil_append, List.cons.injEq] at hsplit
      obtain ⟨-, -, -, rfl⟩ := hsplit
      exact absurd hafter List.not_mem_nil
    · simp at hsplit

/-- Raised once the search has exhausted its frontier. -/
def searchedSignal : CancellationSignal := fun n => decide (4 ≤ n)

theorem straddled_duplicates_disagree : ∃ image response diagnostics,
    compileRoutingImage apartRecords = .ok image ∧ Monotone searchedSignal ∧
    routeControlled (F := SoftBinary64) image apartRequest searchedSignal =
      .ok (response, diagnostics) ∧ ¬ response.DuplicatesAgree := by
  have hstates : ((compileRoutingImage apartRecords).toOption.bind fun image =>
      (routeControlled (F := SoftBinary64) image apartRequest searchedSignal).toOption.map
        fun out =>
        decide (⟨.ofNat 9, .unreachable⟩ ∈ out.1.results ∧
          ⟨.ofNat 9, .incomplete⟩ ∈ out.1.results)) = some true := by
    decide +kernel
  rcases himage : compileRoutingImage apartRecords with e | image
  · simp [himage, Except.toOption] at hstates
  · rcases hroute : routeControlled (F := SoftBinary64) image apartRequest searchedSignal
      with e | out
    · simp [himage, hroute, Except.toOption] at hstates
    · simp only [himage, hroute, Except.toOption, Option.bind_some, Option.map_some,
        Option.some.injEq, decide_eq_true_eq] at hstates
      refine ⟨image, out.1, out.2, rfl, fun m n hmn hm => ?_, hroute, fun hagree => ?_⟩
      · exact decide_eq_true ((of_decide_eq_true hm).trans hmn)
      · cases hagree _ hstates.1 _ hstates.2 rfl

end PathHydra
