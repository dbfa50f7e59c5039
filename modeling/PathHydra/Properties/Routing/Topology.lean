import PathHydra.Construction.Routing.Cpu

/-!
# Searches that read the same edges

A topology may keep a state of its own, a cache of edges for one.  `RoutingTopology.Reads` says that
it hands out what another topology hands out, whatever its state, as long as that state keeps an
invariant.  A search that nobody cancels then gives the same answer over either of them
(`routeTopologyControlled_mirrors`), unless the other one runs into a check of its own.
-/

namespace PathHydra

variable {F : Type} [Binary64 F] {κ κ' : Type} {α : Type} {I : κ → Prop}

/-- A failure that only a wrong image or a wrong program leads to. -/
def RoutingError.IsInternal (e : RoutingError) : Prop :=
  e = .noReturn ∨ ∃ reason, e = .internalInvariant reason

/-- The first outcome is an internal failure, or the second one is the same and its state keeps the
invariant. -/
def Mirrors (I : κ → Prop) (x : Except RoutingError α × World κ')
    (y : Except RoutingError α × World κ) : Prop :=
  (∃ e, x.1 = .error e ∧ e.IsInternal) ∨ (y.1 = x.1 ∧ I y.2.store)

lemma mirrors_same {r : Except RoutingError α} {w : World κ} {w' : World κ'} (h : I w.store) :
    Mirrors I (r, w') (r, w) := .inr ⟨rfl, h⟩

lemma mirrors_internal {e : RoutingError} {w' : World κ'} {y : Except RoutingError α × World κ}
    (h : e.IsInternal) : Mirrors I (.error e, w') y := .inl ⟨e, rfl, h⟩

/-- The same of outcomes with a counter. -/
def MirrorsCounted (I : κ → Prop) (x : Except RoutingError α × ℕ × World κ')
    (y : Except RoutingError α × ℕ × World κ) : Prop :=
  (∃ e, x.1 = .error e ∧ e.IsInternal) ∨ (y.1 = x.1 ∧ y.2.1 = x.2.1 ∧ I y.2.2.store)

lemma mirrorsCounted_same {r : Except RoutingError α} {count : ℕ} {w : World κ} {w' : World κ'}
    (h : I w.store) : MirrorsCounted I (r, count, w') (r, count, w) := .inr ⟨rfl, rfl, h⟩

lemma mirrorsCounted_internal {e : RoutingError} {count : ℕ} {w' : World κ'}
    {y : Except RoutingError α × ℕ × World κ} (h : e.IsInternal) :
    MirrorsCounted I (.error e, count, w') y := .inl ⟨e, rfl, h⟩

/-- The topology hands out what another one does, and keeps the invariant of its state. -/
structure RoutingTopology.Reads (T : RoutingTopology κ) (T' : RoutingTopology κ')
    (signal : CancellationSignal) (I : κ → Prop) : Prop where
  nodeCount : T.nodeCount = T'.nodeCount
  adjacencyCount : T.adjacencyCount = T'.adjacencyCount
  denseNodeId : T.denseNodeId = T'.denseNodeId
  externalNodeId : T.externalNodeId = T'.externalNodeId
  relationIds : T.relationIds = T'.relationIds
  outgoingRange : ∀ d, (∃ e, T'.outgoingRange d = .error e ∧ e.IsInternal) ∨
    T.outgoingRange d = T'.outgoingRange d
  edgeAt : ∀ index w w', I w.store →
    Mirrors I (T'.edgeAt signal index w') (T.edgeAt signal index w)

/-- A signal that is never raised is polled in vain. -/
lemma World.isCancelled_of_quiet {signal : CancellationSignal} (hsignal : ∀ n, signal n = false)
    (w : World κ) : w.isCancelled signal = (false, { w with polls := w.polls + 1 }) := by
  rw [World.isCancelled, hsignal]

section Search

variable {T : RoutingTopology κ} {T' : RoutingTopology κ'} {signal : CancellationSignal}
  (h : T.Reads T' signal I) (hsignal : ∀ n, signal n = false)

include h hsignal

lemma relaxRange_mirrors (profile : PackedRelationProfile) (budget : SearchBudget)
    (current : FrontierEntry F) (range : List ℕ) (st : SearchState F) (w : World κ)
    (w' : World κ') (hw : I w.store) :
    Mirrors I (relaxRange T' signal profile budget current range st w')
      (relaxRange T signal profile budget current range st w) := by
  induction range generalizing st w w' with
  | nil => exact mirrors_same hw
  | cons adjacency rest ih =>
    simp only [relaxRange, World.isCancelled_of_quiet hsignal]
    split_ifs
    · exact mirrors_same hw
    cases checkedAdd64 st.examinedEdges 1 with
    | none => exact mirrors_same hw
    | some examinedEdges =>
      have hedge := h.edgeAt adjacency { w with polls := w.polls + 1 }
        { w' with polls := w'.polls + 1 } hw
      dsimp only
      generalize T'.edgeAt signal adjacency _ = x at hedge ⊢
      generalize T.edgeAt signal adjacency _ = y at hedge ⊢
      obtain ⟨x, u'⟩ := x
      obtain ⟨y, u⟩ := y
      obtain ⟨e, hx, he⟩ | ⟨hsame, hu⟩ := hedge
      · obtain rfl : x = .error e := hx
        exact mirrors_internal he
      · obtain rfl : y = x := hsame
        cases y with
        | error e => exact mirrors_same hu
        | ok edge =>
          cases edge with
          | none => exact mirrors_same hu
          | some edge =>
            dsimp only
            cases relaxEdge profile current adjacency edge _ with
            | error e => exact mirrors_same hu
            | ok st => exact ih st u u' hu

lemma searchIteration_mirrors (profile : PackedRelationProfile) (request : RoutingRequest)
    (st : SearchState F) (w : World κ) (w' : World κ') (hw : I w.store) :
    Mirrors I (searchIteration T' signal profile request st w')
      (searchIteration T signal profile request st w) := by
  unfold searchIteration
  cases popFrontier st.frontier with
  | none => exact mirrors_same hw
  | some popped =>
    obtain ⟨current, frontier⟩ := popped
    simp only [World.isCancelled_of_quiet hsignal]
    split_ifs
    · exact mirrors_same hw
    cases checkedAdd64 st.finalizedNodes 1 with
    | none => exact mirrors_same hw
    | some finalizedNodes =>
      dsimp only
      split_ifs
      · exact mirrors_same hw
      obtain ⟨e, hrange, he⟩ | hsame := h.outgoingRange current.node
      · rw [hrange]
        exact mirrors_internal he
      · rw [hsame]
        cases T'.outgoingRange current.node with
        | error e => exact mirrors_same hw
        | ok range => exact relaxRange_mirrors h hsignal profile request.budget current _ _ _ _ hw

lemma searchLoop_mirrors (profile : PackedRelationProfile) (request : RoutingRequest) (fuel : ℕ)
    (st : SearchState F) (w : World κ) (w' : World κ') (hw : I w.store) :
    Mirrors I (searchLoop T' signal profile request fuel st w')
      (searchLoop T signal profile request fuel st w) := by
  induction fuel generalizing st w w' with
  | zero => exact mirrors_same hw
  | succ fuel ih =>
    have hturn := searchIteration_mirrors h hsignal profile request st w w' hw
    simp only [searchLoop]
    generalize searchIteration T' signal profile request st w' = x at hturn ⊢
    generalize searchIteration T signal profile request st w = y at hturn ⊢
    obtain ⟨x, u'⟩ := x
    obtain ⟨y, u⟩ := y
    obtain ⟨e, hx, he⟩ | ⟨hsame, hu⟩ := hturn
    · obtain rfl : x = .error e := hx
      exact mirrors_internal he
    · obtain rfl : y = x := hsame
      cases y with
      | error e => exact mirrors_same hu
      | ok out =>
        obtain ⟨reason, st⟩ := out
        cases reason with
        | none => exact ih st u u' hu
        | some reason => exact mirrors_same hu

lemma runSearch_mirrors (profile : PackedRelationProfile) (request : RoutingRequest)
    (st : SearchState F) (w : World κ) (w' : World κ') (hw : I w.store) :
    Mirrors I (runSearch T' signal profile request st w')
      (runSearch T signal profile request st w) := by
  simp only [runSearch, World.isCancelled_of_quiet hsignal, h.adjacencyCount]
  exact searchLoop_mirrors h hsignal profile request _ _ _ _ hw

omit hsignal in
lemma pathStep_mirrors (profile : PackedRelationProfile) (current : DenseNodeId)
    (predecessor : Predecessor) (edge : OutgoingEdge) :
    (pathStep T profile current predecessor edge : Except RoutingError (PathStep F)) =
      pathStep T' profile current predecessor edge := by
  simp only [pathStep, h.externalNodeId]

lemma reconstructSteps_mirrors (profile : PackedRelationProfile) (origin : DenseNodeId)
    (predecessors : DenseNodeId → Option Predecessor) (fuel : ℕ) (current : DenseNodeId)
    (visited : DenseNodeId → Bool) (steps : List (PathStep F)) (count : ℕ) (w : World κ)
    (w' : World κ') (hw : I w.store) :
    MirrorsCounted I
      (reconstructSteps T' signal profile origin predecessors fuel current visited steps count w')
      (reconstructSteps T signal profile origin predecessors fuel current visited steps count
        w) := by
  induction fuel generalizing current visited steps count w w' with
  | zero => exact mirrorsCounted_same hw
  | succ fuel ih =>
    simp only [reconstructSteps, World.isCancelled_of_quiet hsignal, h.nodeCount]
    split_ifs
    · exact mirrorsCounted_same hw
    · exact mirrorsCounted_same hw
    cases predecessors current with
    | none => exact mirrorsCounted_same hw
    | some predecessor =>
      dsimp only
      obtain ⟨e, hrange, he⟩ | hsame := h.outgoingRange predecessor.source
      · rw [hrange]
        exact mirrorsCounted_internal he
      rw [hsame]
      cases T'.outgoingRange predecessor.source with
      | error e => exact mirrorsCounted_same hw
      | ok range =>
        dsimp only
        split_ifs
        swap
        · exact mirrorsCounted_same hw
        -- the edge is read again here, and this read can fail in the one topology only
        have hedge := h.edgeAt predecessor.adjacency { w with polls := w.polls + 1 }
          { w' with polls := w'.polls + 1 } hw
        generalize T'.edgeAt signal predecessor.adjacency _ = x at hedge ⊢
        generalize T.edgeAt signal predecessor.adjacency _ = y at hedge ⊢
        obtain ⟨x, u'⟩ := x
        obtain ⟨y, u⟩ := y
        obtain ⟨e, hx, he⟩ | ⟨hread, hu⟩ := hedge
        · obtain rfl : x = .error e := hx
          exact mirrorsCounted_internal he
        · obtain rfl : y = x := hread
          cases y with
          | error e => exact mirrorsCounted_same hu
          | ok edge =>
            cases edge with
            | none => exact mirrorsCounted_same hu
            | some edge =>
              simp only [pathStep_mirrors h]
              cases (pathStep T' profile current predecessor edge :
                Except RoutingError (PathStep F)) with
              | error e => exact mirrorsCounted_same hu
              | ok step => exact ih _ _ _ _ u u' hu

lemma reconstructPath_mirrors (profile : PackedRelationProfile) (externalOrigin : NodeId)
    (origin : DenseNodeId) (externalDestination : NodeId) (destination : DenseNodeId) (distance : F)
    (predecessors : DenseNodeId → Option Predecessor) (count : ℕ) (w : World κ) (w' : World κ')
    (hw : I w.store) :
    MirrorsCounted I
      (reconstructPath T' signal profile externalOrigin origin externalDestination destination
        distance predecessors count w')
      (reconstructPath T signal profile externalOrigin origin externalDestination destination
        distance predecessors count w) := by
  simp only [reconstructPath, h.nodeCount]
  split_ifs
  · exact mirrorsCounted_same hw
  have hsteps := reconstructSteps_mirrors (F := F) h hsignal profile origin predecessors
    (T'.nodeCount + 1) destination (fun _ => false) [] count w w' hw
  generalize reconstructSteps (F := F) T' signal profile origin predecessors _ _ _ _ _ _ = x
    at hsteps ⊢
  generalize reconstructSteps (F := F) T signal profile origin predecessors _ _ _ _ _ _ = y
    at hsteps ⊢
  obtain ⟨x, n', u'⟩ := x
  obtain ⟨y, n, u⟩ := y
  obtain ⟨e, hx, he⟩ | ⟨hsame, hcount, hu⟩ := hsteps
  · obtain rfl : x = .error e := hx
    exact mirrorsCounted_internal he
  · obtain rfl : y = x := hsame
    obtain rfl : n = n' := hcount
    cases y with
    | error e => exact mirrorsCounted_same hu
    | ok steps =>
      cases steps with
      | none => exact mirrorsCounted_same hu
      | some steps =>
        dsimp only
        cases sumSteps steps with
        | error e => exact mirrorsCounted_same hu
        | ok sum =>
          dsimp only
          split_ifs
          · exact mirrorsCounted_same hu
          · exact mirrorsCounted_same hu

lemma assemblePath_mirrors (profile : PackedRelationProfile) (request : RoutingRequest)
    (origin : DenseNodeId) (st : SearchState F) (destination : NodeId) (dense : DenseNodeId)
    (distance : F) (a : Assembly F) (w : World κ) (w' : World κ') (hw : I w.store) :
    Mirrors I
      (assemblePath T' signal profile request origin st destination dense distance a w')
      (assemblePath T signal profile request origin st destination dense distance a w) := by
  unfold assemblePath
  cases st.predecessors with
  | none => exact mirrors_same hw
  | some predecessors =>
    cases a.pathCache with
    | none => exact mirrors_same hw
    | some pathCache =>
      dsimp only
      cases pathCache dense with
      | some path => exact mirrors_same hw
      | none =>
        have hpath := reconstructPath_mirrors h hsignal profile request.origin origin destination
          dense distance predecessors a.reconstructionSteps w w' hw
        dsimp only
        generalize reconstructPath (F := F) T' signal _ _ _ _ _ _ _ _ _ = x at hpath ⊢
        generalize reconstructPath (F := F) T signal _ _ _ _ _ _ _ _ _ = y at hpath ⊢
        obtain ⟨x, n', u'⟩ := x
        obtain ⟨y, n, u⟩ := y
        obtain ⟨e, hx, he⟩ | ⟨hsame, hcount, hu⟩ := hpath
        · obtain rfl : x = .error e := hx
          exact mirrors_internal he
        · obtain rfl : y = x := hsame
          obtain rfl : n = n' := hcount
          cases y with
          | error e => exact mirrors_same hu
          | ok path =>
            cases path with
            | none => exact mirrors_same hu
            | some path => exact mirrors_same hu

lemma assembleState_mirrors (profile : PackedRelationProfile) (request : RoutingRequest)
    (origin : DenseNodeId) (st : SearchState F) (destination : NodeId)
    (dense : Option DenseNodeId) (a : Assembly F) (w : World κ) (w' : World κ')
    (hw : I w.store) :
    Mirrors I (assembleState T' signal profile request origin st destination dense a w')
      (assembleState T signal profile request origin st destination dense a w) := by
  unfold assembleState
  cases dense with
  | none => exact mirrors_same hw
  | some dense =>
    dsimp only
    split_ifs
    · cases st.distances dense with
      | none => exact mirrors_same hw
      | some distance =>
        have hpath := assemblePath_mirrors h hsignal profile request origin st destination dense
          distance a w w' hw
        dsimp only
        generalize assemblePath (F := F) T' signal _ _ _ _ _ _ _ _ _ = x at hpath ⊢
        generalize assemblePath (F := F) T signal _ _ _ _ _ _ _ _ _ = y at hpath ⊢
        obtain ⟨x, u'⟩ := x
        obtain ⟨y, u⟩ := y
        obtain ⟨e, hx, he⟩ | ⟨hsame, hu⟩ := hpath
        · obtain rfl : x = .error e := hx
          exact mirrors_internal he
        · obtain rfl : y = x := hsame
          cases y with
          | error e => exact mirrors_same hu
          | ok out => exact mirrors_same hu
    · exact mirrors_same hw
    · exact mirrors_same hw

lemma assembleResults_mirrors (profile : PackedRelationProfile) (request : RoutingRequest)
    (origin : DenseNodeId) (st : SearchState F) (targets : List (NodeId × Option DenseNodeId))
    (a : Assembly F) (w : World κ) (w' : World κ') (hw : I w.store) :
    Mirrors I (assembleResults T' signal profile request origin st targets a w')
      (assembleResults T signal profile request origin st targets a w) := by
  induction targets generalizing a w w' with
  | nil => exact mirrors_same hw
  | cons target rest ih =>
    obtain ⟨destination, dense⟩ := target
    have hstate := assembleState_mirrors h hsignal profile request origin st destination dense a w
      w' hw
    simp only [assembleResults]
    generalize assembleState (F := F) T' signal _ _ _ _ _ _ _ _ = x at hstate ⊢
    generalize assembleState (F := F) T signal _ _ _ _ _ _ _ _ = y at hstate ⊢
    obtain ⟨x, u'⟩ := x
    obtain ⟨y, u⟩ := y
    obtain ⟨e, hx, he⟩ | ⟨hsame, hu⟩ := hstate
    · obtain rfl : x = .error e := hx
      exact mirrors_internal he
    · obtain rfl : y = x := hsame
      cases y with
      | error e => exact mirrors_same hu
      | ok out => exact ih _ u u' hu

lemma routeMapped_mirrors (profile : PackedRelationProfile) (request : RoutingRequest)
    (origin : DenseNodeId) (w : World κ) (w' : World κ') (hw : I w.store) :
    Mirrors I
      (routeMapped (F := F) T' signal profile request origin w')
      (routeMapped (F := F) T signal profile request origin w) := by
  simp only [routeMapped, h.denseNodeId, h.adjacencyCount]
  split_ifs
  · exact mirrors_same hw
  cases checkedAdd64 T'.adjacencyCount 1 with
  | none => exact mirrors_same hw
  | some _ =>
    dsimp only
    have hsearch := runSearch_mirrors (F := F) h hsignal profile request
      (initialSearchState request origin
        (collectPending (request.destinations.map T'.denseNodeId) (fun _ => false, 0)).1
        (collectPending (request.destinations.map T'.denseNodeId) (fun _ => false, 0)).2) w w' hw
    generalize runSearch (F := F) T' signal _ _ _ _ = x at hsearch ⊢
    generalize runSearch (F := F) T signal _ _ _ _ = y at hsearch ⊢
    obtain ⟨x, u'⟩ := x
    obtain ⟨y, u⟩ := y
    obtain ⟨e, hx, he⟩ | ⟨hsame, hu⟩ := hsearch
    · obtain rfl : x = .error e := hx
      exact mirrors_internal he
    · obtain rfl : y = x := hsame
      cases y with
      | error e => exact mirrors_same hu
      | ok stopped =>
        obtain ⟨reason, st⟩ := stopped
        dsimp only
        have hassembled := assembleResults_mirrors h hsignal profile request origin st
          (request.destinations.zip (request.destinations.map T'.denseNodeId))
          (initialAssembly request reason st) u u' hu
        generalize assembleResults (F := F) T' signal _ _ _ _ _ _ _ = x at hassembled ⊢
        generalize assembleResults (F := F) T signal _ _ _ _ _ _ _ = y at hassembled ⊢
        obtain ⟨x, v'⟩ := x
        obtain ⟨y, v⟩ := y
        obtain ⟨e, hx, he⟩ | ⟨hsame, hv⟩ := hassembled
        · obtain rfl : x = .error e := hx
          exact mirrors_internal he
        · obtain rfl : y = x := hsame
          cases y with
          | error e => exact mirrors_same hv
          | ok a => exact mirrors_same hv

/-- A search over a topology that reads the same edges gives the same answer. -/
lemma routeTopologyControlled_mirrors (request : RoutingRequest) (w : World κ) (w' : World κ')
    (hw : I w.store) :
    Mirrors I
      (routeTopologyControlled (F := F) T' request signal w')
      (routeTopologyControlled (F := F) T request signal w) := by
  simp only [routeTopologyControlled, h.denseNodeId, h.relationIds]
  cases T'.denseNodeId request.origin with
  | none => exact mirrors_same hw
  | some origin =>
    dsimp only
    cases request.profile.packRelationIds T'.relationIds with
    | error e => exact mirrors_same hw
    | ok profile => exact routeMapped_mirrors h hsignal profile request origin w w' hw

end Search

end PathHydra
