import PathHydra.Properties.Routing.Walks

/-!
# The search invariant

`SearchInv` is what holds at every point of the search between two edges.  Its ghost `order` lists
the final nodes, the latest first, and its ghost `scan` the adjacency indexes of the latest node
that have not been looked at yet: every other enabled edge that leaves a final node has been
relaxed.  Final nodes carry the least distance of any walk, every other label is the distance of
some walk and waits in the frontier, and the predecessor of a labelled node is a final node whose
edge reproduces the label exactly.

The step lemmas follow the program: `SearchInv.init`, the two outcomes of a pop
(`SearchInv.stale`, `SearchInv.finalize`) and the relaxation of one edge (`relaxEdge_spec`).
`runSearch_spec` assembles them over the whole loop: the search always returns, its counters never
overflow, and the only error it can meet is an overflowing distance.
-/

namespace PathHydra

variable {F : Type} [Binary64 F]

/-! ## The invariant -/

/-- The predecessor that relaxing an arc proposes. -/
def RoutingArc.predecessor (arc : RoutingArc) : Predecessor :=
  ⟨arc.source, arc.edge.edgeId, arc.adjacency⟩

/-- The search state as a labelling of the network. -/
def searchLabelling (order : List DenseNodeId) (st : SearchState F) :
    Network.Labelling DenseNodeId F where
  label := st.distances
  settled v := v ∈ order

/-- Predecessors point backwards in the order of finalization. -/
def Precedes (predecessors : DenseNodeId → Option Predecessor) (origin : DenseNodeId) :
    List DenseNodeId → Prop
  | [] => True
  | v :: rest =>
    (v = origin ∨ ∃ q, predecessors v = some q ∧ q.source ∈ rest) ∧
      Precedes predecessors origin rest

section Invariant

variable (image : RoutingImage) (profile : RelationProfile) (origin : DenseNodeId)

/-- The predecessor of a node names an enabled edge into it that reproduces its distance. -/
def Justifies (distances : DenseNodeId → Option F) (q : Predecessor) (v : DenseNodeId) (d : F) :
    Prop :=
  ∃ arc c, (routingNetwork F image profile).usable arc ∧ arc.source = q.source ∧
    arc.adjacency = q.adjacency ∧ arc.edge.edgeId = q.edge ∧ arc.edge.destination = v ∧
    distances q.source = some c ∧ extendDistance c arc = .ok d

/-- The predecessor table agrees with the labels and with the order of finalization. -/
structure PredecessorInv (order : List DenseNodeId) (distances : DenseNodeId → Option F)
    (predecessors : DenseNodeId → Option Predecessor) : Prop where
  justified : ∀ v d, distances v = some d → v ≠ origin →
    ∃ q, predecessors v = some q ∧ q.source ∈ order ∧
      Justifies image profile distances q v d
  precedes : Precedes predecessors origin order

/-- The invariant of the search. -/
structure SearchInv (order : List DenseNodeId) (scan : List ℕ) (st : SearchState F) : Prop where
  finalized_iff : ∀ v, st.finalized v = true ↔ v ∈ order
  nodup : order.Nodup
  labelled_lt : ∀ v d, st.distances v = some d → v.asUsize < image.nodeCount
  origin_label : st.distances origin = some 0
  origin_mem : order ≠ [] → origin ∈ order
  first_label : order = [] → ∀ v d, st.distances v = some d → v = origin
  label_walk : ∀ v d, st.distances v = some d → ∃ arcs,
    (routingNetwork F image profile).Walk origin arcs v ∧
      (routingNetwork F image profile).cost 0 arcs = some d
  settled_min : ∀ v ∈ order,
    (searchLabelling order st).Minimal (routingNetwork F image profile) origin 0 v
  relaxed : ∀ arc : RoutingArc, arc.source ∈ order → (routingNetwork F image profile).usable arc →
    ¬ (order.head? = some arc.source ∧ arc.adjacency ∈ scan) →
    (searchLabelling order st).Relaxed (routingNetwork F image profile) arc
  frontier_mem : ∀ v d, st.distances v = some d → v ∉ order → ⟨d, v⟩ ∈ st.frontier
  predecessor : ∀ predecessors, st.predecessors = some predecessors →
    PredecessorInv image profile origin order st.distances predecessors

end Invariant

variable {image : RoutingImage} {profile : RelationProfile} {origin : DenseNodeId}
  {order : List DenseNodeId} {scan : List ℕ} {st : SearchState F}

/-- An order in which predecessors point backwards does not see a change at other nodes. -/
lemma Precedes.congr {p p' : DenseNodeId → Option Predecessor}
    (h : Precedes p origin order) (heq : ∀ v ∈ order, p' v = p v) : Precedes p' origin order := by
  induction order with
  | nil => trivial
  | cons v rest ih =>
    refine ⟨?_, ih h.2 fun u hu => heq u (List.mem_cons_of_mem v hu)⟩
    rw [heq v List.mem_cons_self]
    exact h.1

namespace SearchInv

/-- Before the first pop only the origin is labelled. -/
lemma init {request : RoutingRequest} {pending : DenseNodeId → Bool} {pendingCount : ℕ}
    (horigin : origin.asUsize < image.nodeCount) :
    SearchInv image profile origin [] []
      (initialSearchState request origin pending pendingCount : SearchState F) := by
  have hlabel : ∀ (v : DenseNodeId) (d : F),
      (Function.update (fun _ => none) origin (some (0 : F)) : DenseNodeId → Option F) v = some d →
        v = origin ∧ d = 0 := by
    intro v d h
    by_cases hv : v = origin
    · subst hv
      simp only [Function.update_self, Option.some.injEq] at h
      exact ⟨rfl, h.symm⟩
    · simp [Function.update_of_ne hv] at h
  refine
    { finalized_iff := by simp [initialSearchState]
      nodup := List.nodup_nil
      labelled_lt := ?_
      origin_label := by simp [initialSearchState]
      origin_mem := fun h => absurd rfl h
      first_label := fun _ v d h => (hlabel v d h).1
      label_walk := ?_
      settled_min := by simp
      relaxed := by simp
      frontier_mem := ?_
      predecessor := ?_ }
  · intro v d h
    rw [(hlabel v d h).1]
    exact horigin
  · intro v d h
    obtain ⟨rfl, rfl⟩ := hlabel v d h
    exact ⟨[], .nil, rfl⟩
  · intro v d h _
    obtain ⟨rfl, rfl⟩ := hlabel v d h
    simp [initialSearchState]
  · intro predecessors _
    exact ⟨fun v d h hv => absurd (hlabel v d h).1 hv, trivial⟩

variable (inv : SearchInv image profile origin order scan st)

include inv

/-- Final nodes belong to the image. -/
lemma order_lt {v : DenseNodeId} (hv : v ∈ order) : v.asUsize < image.nodeCount := by
  obtain ⟨d, hd, -⟩ := inv.settled_min v hv
  exact inv.labelled_lt v d hd

/-- A frontier that still holds the waiting labels may lose any other entry. -/
lemma stale {frontier : List (FrontierEntry F)}
    (hkeep : ∀ v d, st.distances v = some d → v ∉ order → (⟨d, v⟩ : FrontierEntry F) ∈ frontier) :
    SearchInv image profile origin order scan { st with frontier := frontier } :=
  { finalized_iff := inv.finalized_iff
    nodup := inv.nodup
    labelled_lt := inv.labelled_lt
    origin_label := inv.origin_label
    origin_mem := inv.origin_mem
    first_label := inv.first_label
    label_walk := inv.label_walk
    settled_min := inv.settled_min
    relaxed := inv.relaxed
    frontier_mem := hkeep
    predecessor := inv.predecessor }

/-- The counters and the pending set play no part in the invariant. -/
lemma congr {st' : SearchState F} (hdistances : st'.distances = st.distances)
    (hfinalized : st'.finalized = st.finalized)
    (hpredecessors : st'.predecessors = st.predecessors) (hfrontier : st'.frontier = st.frontier) :
    SearchInv image profile origin order scan st' := by
  have hlabelling : searchLabelling order st' = searchLabelling order st := by
    simp [searchLabelling, hdistances]
  constructor
  · simpa only [hfinalized] using inv.finalized_iff
  · exact inv.nodup
  · simpa only [hdistances] using inv.labelled_lt
  · simpa only [hdistances] using inv.origin_label
  · exact inv.origin_mem
  · simpa only [hdistances] using inv.first_label
  · simpa only [hdistances] using inv.label_walk
  · simpa only [hlabelling] using inv.settled_min
  · simpa only [hlabelling] using inv.relaxed
  · simpa only [hdistances, hfrontier] using inv.frontier_mem
  · simpa only [hdistances, hpredecessors] using inv.predecessor

end SearchInv

/-! ## Popping the frontier -/

lemma FrontierEntry.distance_le {a b : FrontierEntry F} (h : a ≤ b) : a.distance ≤ b.distance := by
  have hlex : a.key ≤ b.key := h
  rw [FrontierEntry.key, FrontierEntry.key, Prod.Lex.toLex_le_toLex] at hlex
  rcases hlex with hlt | ⟨heq, -⟩
  · exact hlt.le
  · exact heq.le

/-- A pop returns a least entry and removes one occurrence of it. -/
lemma popFrontier_eq_some {frontier rest : List (FrontierEntry F)} {current : FrontierEntry F}
    (h : popFrontier frontier = some (current, rest)) :
    current ∈ frontier ∧ (∀ e ∈ frontier, current ≤ e) ∧ rest = frontier.erase current := by
  unfold popFrontier at h
  split at h
  · cases h
  · rename_i least hmin
    cases h
    obtain ⟨hmem, hle⟩ := List.min?_eq_some_iff.1 hmin
    exact ⟨hmem, hle, rfl⟩

lemma popFrontier_eq_none {frontier : List (FrontierEntry F)} :
    popFrontier frontier = none ↔ frontier = [] := by
  unfold popFrontier
  split
  · rename_i hmin
    simpa using List.min?_eq_none_iff.1 hmin
  · rename_i least hmin
    simp only [reduceCtorEq, false_iff]
    rintro rfl
    simp at hmin

namespace SearchInv

variable {current : FrontierEntry F}

/-- The popped node, if its entry is not stale, is final: no walk reaches it for less. -/
lemma minimal_of_pop (inv : SearchInv image profile origin order [] st)
    (hleast : ∀ e ∈ st.frontier, current ≤ e) (hnew : current.node ∉ order)
    (hlabel : st.distances current.node = some current.distance) :
    (searchLabelling order st).Minimal (routingNetwork F image profile) origin 0
      current.node := by
  by_cases horder : order = []
  · have horigin := inv.first_label horder _ _ hlabel
    rw [horigin]
    exact Network.Labelling.origin_min inv.origin_label
  · refine Network.Labelling.settle_min ?_ (inv.origin_mem horder) inv.settled_min hnew hlabel ?_
    · intro arc hsource husable
      exact inv.relaxed arc hsource husable (by simp)
    · intro y d hy hd
      exact FrontierEntry.distance_le (hleast _ (inv.frontier_mem y d hd hy))

/-- Finalizing the popped node leaves exactly its own edges to be relaxed. -/
lemma finalize {st' : SearchState F} {scan : List ℕ}
    (inv : SearchInv image profile origin order [] st)
    (hleast : ∀ e ∈ st.frontier, current ≤ e) (hnew : current.node ∉ order)
    (hlabel : st.distances current.node = some current.distance)
    (hscan : ∀ adjacency edge, image.HasEdge current.node adjacency edge → adjacency ∈ scan)
    (hdistances : st'.distances = st.distances)
    (hfinalized : st'.finalized = Function.update st.finalized current.node true)
    (hpredecessors : st'.predecessors = st.predecessors)
    (hfrontier : st'.frontier = st.frontier.erase current) :
    SearchInv image profile origin (current.node :: order) scan st' := by
  have hmin := inv.minimal_of_pop hleast hnew hlabel
  refine
    { finalized_iff := ?_
      nodup := List.nodup_cons.2 ⟨hnew, inv.nodup⟩
      labelled_lt := by simpa only [hdistances] using inv.labelled_lt
      origin_label := by simpa only [hdistances] using inv.origin_label
      origin_mem := ?_
      first_label := fun h => absurd h (List.cons_ne_nil _ _)
      label_walk := by simpa only [hdistances] using inv.label_walk
      settled_min := ?_
      relaxed := ?_
      frontier_mem := ?_
      predecessor := ?_ }
  · intro v
    rw [hfinalized]
    by_cases hv : v = current.node
    · simp [hv]
    · simp [hv, inv.finalized_iff]
  · intro _
    -- the first node to be popped is the origin, the only one with a label
    by_cases horder : order = []
    · rw [inv.first_label horder _ _ hlabel]
      exact List.mem_cons_self
    · exact List.mem_cons_of_mem _ (inv.origin_mem horder)
  · intro v hv
    -- the labels stay, so what was minimal is minimal
    have hlabels : ∀ u, (searchLabelling order st).Minimal (routingNetwork F image profile)
        origin 0 u → (searchLabelling (current.node :: order) st').Minimal
        (routingNetwork F image profile) origin 0 u := by
      intro u hu
      simpa only [searchLabelling, Network.Labelling.Minimal, hdistances] using hu
    rcases List.mem_cons.1 hv with rfl | hv
    · exact hlabels _ hmin
    · exact hlabels _ (inv.settled_min v hv)
  · intro arc hsource husable hdone
    rcases List.mem_cons.1 hsource with heq | hsource
    · -- the edges of the new node are all waived
      refine absurd ⟨by simp [heq], ?_⟩ hdone
      refine hscan arc.adjacency arc.edge ?_
      rw [← heq]
      exact husable.1
    · rcases inv.relaxed arc hsource husable (by simp) with hsettled | hrelaxed
      · exact .inl (List.mem_cons_of_mem _ hsettled)
      · right
        simpa only [searchLabelling, hdistances] using hrelaxed
  · intro v d hd hv
    rw [hdistances] at hd
    rw [hfrontier]
    simp only [List.mem_cons, not_or] at hv
    refine (List.mem_erase_of_ne ?_).2 (inv.frontier_mem v d hd hv.2)
    rintro rfl
    exact hv.1 rfl
  · intro predecessors hp
    rw [hpredecessors] at hp
    obtain ⟨hjustified, hprecedes⟩ := inv.predecessor predecessors hp
    refine ⟨?_, ?_, hprecedes⟩
    · intro v d hd hv
      rw [hdistances] at hd ⊢
      obtain ⟨q, hq, hsource, hj⟩ := hjustified v d hd hv
      exact ⟨q, hq, List.mem_cons_of_mem _ hsource, hj⟩
    · by_cases horigin : current.node = origin
      · exact .inl horigin
      · obtain ⟨q, hq, hsource, -⟩ := hjustified _ _ hlabel horigin
        exact .inr ⟨q, hq, hsource⟩

/-! ## Relaxing an edge -/

section Relax

variable {arc : RoutingArc} {i : ℕ} {rest : List ℕ} {c d : F}

/-- Once the edge at the head of the scan is relaxed it need not be waived any longer. -/
lemma advance (inv : SearchInv image profile origin order (i :: rest) st)
    (hhead : ∀ arc : RoutingArc, order.head? = some arc.source → arc.adjacency = i →
      (routingNetwork F image profile).usable arc →
      (searchLabelling order st).Relaxed (routingNetwork F image profile) arc) :
    SearchInv image profile origin order rest st :=
  { inv with
    relaxed := by
      intro arc hsource husable hdone
      by_cases hi : order.head? = some arc.source ∧ arc.adjacency = i
      · exact hhead arc hi.1 hi.2 husable
      · refine inv.relaxed arc hsource husable fun hwaived => ?_
        rcases List.mem_cons.1 hwaived.2 with hadj | hadj
        · exact hi ⟨hwaived.1, hadj⟩
        · exact hdone ⟨hwaived.1, hadj⟩ }

/-- A new or smaller label keeps the invariant. -/
lemma improve (inv : SearchInv image profile origin order scan st)
    (husable : (routingNetwork F image profile).usable arc) (hsource : arc.source ∈ order)
    (hlt : arc.edge.destination.asUsize < image.nodeCount)
    (hnew : arc.edge.destination ∉ order) (hc : st.distances arc.source = some c)
    (hd : extendDistance c arc = .ok d)
    (himproves : ∀ d₀, st.distances arc.edge.destination = some d₀ → d < d₀) :
    SearchInv image profile origin order scan
      (improveLabel st arc.edge.destination d arc.predecessor) := by
  have horigin : origin ≠ arc.edge.destination := by
    rintro rfl
    exact hnew (inv.origin_mem (List.ne_nil_of_mem hsource))
  have hold : ∀ v ∈ order, v ≠ arc.edge.destination := fun v hv => by
    rintro rfl
    exact hnew hv
  -- only the label of the destination changes
  have hlabels : ∀ v d', (improveLabel st arc.edge.destination d arc.predecessor).distances v =
      some d' → (v = arc.edge.destination ∧ d' = d) ∨
        (v ≠ arc.edge.destination ∧ st.distances v = some d') := by
    intro v d' h
    by_cases hv : v = arc.edge.destination
    · left
      simpa [improveLabel, hv, eq_comm] using h
    · right
      exact ⟨hv, by simpa [improveLabel, hv] using h⟩
  refine
    { finalized_iff := inv.finalized_iff
      nodup := inv.nodup
      labelled_lt := ?_
      origin_label := by simpa [improveLabel, horigin] using inv.origin_label
      origin_mem := inv.origin_mem
      first_label := fun h => absurd h (List.ne_nil_of_mem hsource)
      label_walk := ?_
      settled_min := ?_
      relaxed := ?_
      frontier_mem := ?_
      predecessor := ?_ }
  · intro v d' h
    rcases hlabels v d' h with ⟨rfl, -⟩ | ⟨-, h⟩
    · exact hlt
    · exact inv.labelled_lt v d' h
  · intro v d' h
    rcases hlabels v d' h with ⟨rfl, rfl⟩ | ⟨-, h⟩
    · obtain ⟨arcs, hwalk, hcost⟩ := inv.label_walk _ _ hc
      refine ⟨arcs ++ [arc], .snoc hwalk husable, ?_⟩
      rw [Network.cost_snoc, hcost, Option.bind_some, routingNetwork_extend_eq_some]
      exact hd
    · exact inv.label_walk v d' h
  · intro v hv
    obtain ⟨d', hd', hbound⟩ := inv.settled_min v hv
    refine ⟨d', ?_, hbound⟩
    simpa [searchLabelling, improveLabel, hold v hv] using hd'
  · intro arc' hsource' husable' hdone
    rcases inv.relaxed arc' hsource' husable' hdone with hs | ⟨a, b, b', ha, hb, hb', hle⟩
    · exact .inl hs
    · right
      -- an edge relaxed before stays so, as the label of its end only gets smaller
      by_cases htarget : arc'.edge.destination = arc.edge.destination
      · refine ⟨a, b, d, ?_, hb, ?_, ?_⟩
        · simpa [searchLabelling, improveLabel, routingNetwork, hold _ hsource'] using ha
        · simp [searchLabelling, improveLabel, routingNetwork, htarget]
        · have hb'' : st.distances arc.edge.destination = some b' := by
            rw [← htarget]
            exact hb'
          exact (himproves b' hb'').le.trans hle
      · refine ⟨a, b, b', ?_, hb, ?_, hle⟩
        · simpa [searchLabelling, improveLabel, routingNetwork, hold _ hsource'] using ha
        · simpa [searchLabelling, improveLabel, routingNetwork, htarget] using hb'
  · intro v d' h hv
    rcases hlabels v d' h with ⟨rfl, rfl⟩ | ⟨-, h⟩
    · simp [improveLabel]
    · exact List.mem_cons_of_mem _ (inv.frontier_mem v d' h hv)
  · intro predecessors hp
    simp only [improveLabel, setPredecessor, Option.map_eq_some_iff] at hp
    obtain ⟨old, hold', rfl⟩ := hp
    obtain ⟨hjustified, hprecedes⟩ := inv.predecessor old hold'
    refine ⟨?_, hprecedes.congr fun v hv => by simp [hold v hv]⟩
    intro v d' h hv
    rcases hlabels v d' h with ⟨rfl, rfl⟩ | ⟨hne, h⟩
    · refine ⟨arc.predecessor, by simp, hsource, arc, c, husable, rfl, rfl, rfl, rfl, ?_, hd⟩
      simpa [improveLabel, RoutingArc.predecessor, hold _ hsource] using hc
    · obtain ⟨q, hq, hqs, arc', c', hu, hs, ha, he, ht, hc', hd'⟩ := hjustified v d' h hv
      refine ⟨q, by simpa [hne] using hq, hqs, arc', c', hu, hs, ha, he, ht, ?_, hd'⟩
      simpa [improveLabel, hold _ hqs] using hc'

/-- Replacing the predecessor on a tie keeps the invariant. -/
lemma tie (inv : SearchInv image profile origin order scan st)
    (husable : (routingNetwork F image profile).usable arc) (hsource : arc.source ∈ order)
    (hnew : arc.edge.destination ∉ order) (hc : st.distances arc.source = some c)
    (hd : extendDistance c arc = .ok d)
    (hlabel : st.distances arc.edge.destination = some d) :
    SearchInv image profile origin order scan { st with
      predecessors := tiePredecessor st.predecessors arc.edge.destination arc.predecessor } :=
  { inv with
    predecessor := by
      intro predecessors hp
      simp only [tiePredecessor, Option.map_eq_some_iff] at hp
      obtain ⟨old, hold, rfl⟩ := hp
      obtain ⟨hjustified, hprecedes⟩ := inv.predecessor old hold
      split_ifs with hreplace
      · have hne : ∀ v ∈ order, v ≠ arc.edge.destination := fun v hv => by
          rintro rfl
          exact hnew hv
        refine ⟨?_, hprecedes.congr fun v hv => by simp [hne v hv]⟩
        intro v d' h hv
        by_cases hdest : v = arc.edge.destination
        · subst hdest
          obtain rfl : d = d' := Option.some.inj (hlabel.symm.trans h)
          exact ⟨arc.predecessor, by simp, hsource, arc, c, husable, rfl, rfl, rfl, rfl, hc, hd⟩
        · obtain ⟨q, hq, hj⟩ := hjustified v d' h hv
          exact ⟨q, by simpa [hdest] using hq, hj⟩
      · exact ⟨hjustified, hprecedes⟩ }

end Relax

end SearchInv

/-! ## Runs of the search -/

/-- The waiting destinations are the requested ones that are not final yet. -/
def PendingInv (targets : DenseNodeId → Prop) (order : List DenseNodeId) (st : SearchState F) :
    Prop :=
  ∃ waiting : Finset DenseNodeId, (∀ v, st.pending v = true ↔ v ∈ waiting) ∧
    st.pendingCount = waiting.card ∧ ∀ v, v ∈ waiting ↔ targets v ∧ v ∉ order

/-- The search goes on only while a requested destination is not final. -/
def Awaits (targets : DenseNodeId → Prop) (order : List DenseNodeId) : Prop :=
  (∃ v, targets v) → ∃ v, targets v ∧ v ∉ order

/-- The search invariant together with the counters, the pending destinations and the presence of
the predecessor table. -/
structure Searching (image : RoutingImage) (request : RoutingRequest) (origin : DenseNodeId)
    (targets : DenseNodeId → Prop) (order : List DenseNodeId) (scan : List ℕ)
    (st : SearchState F) : Prop where
  search : SearchInv image request.profile origin order scan st
  pending : PendingInv targets order st
  finalized_count : st.finalizedNodes = order.length
  examined_eq : st.examinedEdges + scan.length = (order.map image.outDegree).sum
  within_budget : ∀ limit, request.budget = .examinedEdges limit → st.examinedEdges ≤ limit.val
  frontier_le : st.frontier.length ≤ st.frontierHighWaterMark
  highWater_le : st.frontierHighWaterMark ≤ st.examinedEdges + 1
  predecessors_isSome : st.predecessors.isSome = request.returnPaths
  first_iff : st.firstDestination = true ↔ request.returnPaths = false ∧ ∃ v ∈ order, targets v

/-- What the reason of a stopped search means: every requested destination is final, or no label
is waiting, or the budget does not permit the next edge, or the signal was raised.  In the second
and the third case a requested destination is missing. -/
def Stopped (request : RoutingRequest) (signal : CancellationSignal)
    (targets : DenseNodeId → Prop) (order : List DenseNodeId) (scan : List ℕ)
    (st : SearchState F) : CompletionReason → Prop
  | .allDestinationsFinalized => ∀ v, targets v → v ∈ order
  | .frontierExhausted => scan = [] ∧ (∀ v d, st.distances v = some d → v ∈ order) ∧
      Awaits targets order
  | .budgetExhausted => request.budget.permits st.examinedEdges = false ∧ scan ≠ [] ∧
      order ≠ [] ∧ Awaits targets order
  | .cancelled => ∃ n, signal n = true

/-- Relaxing one edge changes labels, predecessors and the frontier only. -/
structure RelaxFrame (st st' : SearchState F) : Prop where
  pending : st'.pending = st.pending
  pendingCount : st'.pendingCount = st.pendingCount
  finalized : st'.finalized = st.finalized
  examinedEdges : st'.examinedEdges = st.examinedEdges
  finalizedNodes : st'.finalizedNodes = st.finalizedNodes
  firstDestination : st'.firstDestination = st.firstDestination
  predecessors_isSome : st'.predecessors.isSome = st.predecessors.isSome
  frontier_length : st'.frontier.length ≤ st.frontier.length + 1
  highWater : st'.frontierHighWaterMark = max st.frontierHighWaterMark st'.frontier.length ∨
    (st'.frontierHighWaterMark = st.frontierHighWaterMark ∧ st'.frontier = st.frontier)
  distances : ∀ v, st.finalized v = true → st'.distances v = st.distances v

omit [Binary64 F] in
lemma RelaxFrame.refl (st : SearchState F) : RelaxFrame st st :=
  ⟨rfl, rfl, rfl, rfl, rfl, rfl, rfl, Nat.le_succ _, .inr ⟨rfl, rfl⟩, fun _ _ => rfl⟩

omit [Binary64 F] in
lemma improveLabel_frame {v : DenseNodeId} {d : F} {q : Predecessor}
    (hv : st.finalized v = false) : RelaxFrame st (improveLabel st v d q) := by
  refine ⟨rfl, rfl, rfl, rfl, rfl, rfl, ?_, by simp [improveLabel], .inl rfl, fun u hu => ?_⟩
  · simp [improveLabel, setPredecessor]
  · have hne : u ≠ v := by
      rintro rfl
      simp [hu] at hv
    simp [improveLabel, hne]

lemma applyCandidate_frame {v : DenseNodeId} {d : F} {q : Predecessor}
    (hv : st.finalized v = false) : RelaxFrame st (applyCandidate st v d q) := by
  unfold applyCandidate
  split
  · exact improveLabel_frame hv
  · split_ifs
    · exact improveLabel_frame hv
    · exact ⟨rfl, rfl, rfl, rfl, rfl, rfl, by simp [tiePredecessor], Nat.le_succ _,
        .inr ⟨rfl, rfl⟩, fun _ _ => rfl⟩
    · exact RelaxFrame.refl st

section Run

variable {packed : PackedRelationProfile}

/-- An edge of the image has a use in the packed profile, and it is the caller's. -/
lemma relationUse_of_edgeAt (wf : image.WellFormed)
    (hpack : profile.packRelationIds image.confirmedRelationIds = .ok packed) {i : ℕ}
    {edge : OutgoingEdge} (hedge : image.edgeAt i = some edge) :
    ∃ use, packed.relationUseIndex edge.relationIndex = some use ∧
      ∀ m, profile.Enables edge.relationId m ↔ use = .enabled m := by
  have hi : i < image.adjacencyCount := by
    simp only [RoutingImage.edgeAt, Option.bind_eq_bind, Option.bind_eq_some_iff] at hedge
    obtain ⟨_, hid, -⟩ := hedge
    exact (List.getElem?_eq_some_iff.1 hid).1
  obtain ⟨edge', hedge', -, hrelation⟩ := wf.edge_at i hi
  obtain rfl : edge = edge' := Option.some.inj (hedge.symm.trans hedge')
  have hlt : edge.relationIndex.val < packed.uses.length := by
    rw [RelationProfile.packRelationIds_length wf.relations_nodup hpack]
    exact (List.getElem?_eq_some_iff.1 hrelation).1
  have huse : packed.relationUseIndex edge.relationIndex = some _ :=
    List.getElem?_eq_getElem hlt
  refine ⟨_, huse, fun m => ?_⟩
  rw [RelationProfile.Enables,
    ← RelationProfile.packRelationIds_uses wf.relations_nodup hpack hrelation]
  unfold PackedRelationProfile.relationUseIndex at huse
  rw [huse, Option.some.injEq]

/-- The comparison of a candidate distance relaxes its edge and keeps the invariant. -/
lemma applyCandidate_inv {arc : RoutingArc} {c d : F}
    (inv : SearchInv image profile origin order scan st)
    (husable : (routingNetwork F image profile).usable arc) (hsource : arc.source ∈ order)
    (hlt : arc.edge.destination.asUsize < image.nodeCount)
    (hnew : arc.edge.destination ∉ order) (hc : st.distances arc.source = some c)
    (hd : extendDistance c arc = .ok d) :
    SearchInv image profile origin order scan
        (applyCandidate st arc.edge.destination d arc.predecessor) ∧
      (searchLabelling order (applyCandidate st arc.edge.destination d arc.predecessor)).Relaxed
        (routingNetwork F image profile) arc := by
  have hne : arc.source ≠ arc.edge.destination := by
    intro heq
    exact hnew (heq ▸ hsource)
  have hextend : (routingNetwork F image profile).extend c arc = some d :=
    routingNetwork_extend_eq_some.2 hd
  have hnewLabel : (searchLabelling order
      (improveLabel st arc.edge.destination d arc.predecessor)).Relaxed
        (routingNetwork F image profile) arc := by
    refine .inr ⟨c, d, d, ?_, hextend, ?_, le_rfl⟩
    · simpa [searchLabelling, improveLabel, routingNetwork, hne] using hc
    · simp [searchLabelling, improveLabel, routingNetwork]
  unfold applyCandidate
  split
  · rename_i hnone
    exact ⟨inv.improve husable hsource hlt hnew hc hd (by simp [hnone]), hnewLabel⟩
  · rename_i existing hexisting
    split_ifs with hless hequal
    · refine ⟨inv.improve husable hsource hlt hnew hc hd fun d₀ hd₀ => ?_, hnewLabel⟩
      obtain rfl : existing = d₀ := Option.some.inj (hexisting.symm.trans hd₀)
      exact hless
    · subst hequal
      exact ⟨inv.tie husable hsource hnew hc hd hexisting,
        .inr ⟨c, d, d, hc, hextend, hexisting, le_rfl⟩⟩
    · exact ⟨inv, .inr ⟨c, d, existing, hc, hextend, hexisting, not_lt.1 hless⟩⟩

/-- Relaxing the edge at the head of the scan. -/
lemma relaxEdge_spec (wf : image.WellFormed)
    (hpack : profile.packRelationIds image.confirmedRelationIds = .ok packed)
    {current : FrontierEntry F} {i : ℕ} {rest : List ℕ} {edge : OutgoingEdge}
    (inv : SearchInv image profile origin (current.node :: order) (i :: rest) st)
    (hlabel : st.distances current.node = some current.distance)
    (hedge : image.HasEdge current.node i edge) :
    match relaxEdge packed current i edge st with
    | .error e => e.Overflows F
    | .ok st' => SearchInv image profile origin (current.node :: order) rest st' ∧
        RelaxFrame st st' := by
  obtain ⟨start, stop, hrange, hstart, hstop, hat⟩ := id hedge
  obtain ⟨use, huse, henables⟩ := relationUse_of_edgeAt wf hpack hat
  have hlt : edge.destination.asUsize < image.nodeCount := by
    obtain ⟨edge', hedge', hdestination, -⟩ := wf.edge_at i
      (hstop.trans_le (wf.outgoingRange_le hrange).2)
    obtain rfl : edge = edge' := Option.some.inj (hat.symm.trans hedge')
    exact hdestination
  -- a usable arc at the head of the scan is this edge under the packed multiplier
  have harc : ∀ arc : RoutingArc, (current.node :: order).head? = some arc.source →
      arc.adjacency = i → (routingNetwork F image profile).usable arc →
      arc = ⟨current.node, i, edge, arc.multiplier⟩ ∧ use = .enabled arc.multiplier := by
    rintro ⟨source, adjacency, edge', multiplier⟩ hhead rfl ⟨⟨_, _, _, _, _, hat'⟩, hen⟩
    obtain rfl : edge = edge' := Option.some.inj (hat.symm.trans hat')
    obtain rfl : current.node = source := Option.some.inj hhead
    exact ⟨rfl, (henables _).1 hen⟩
  unfold relaxEdge
  simp only [huse]
  cases use with
  | disabled =>
    refine ⟨inv.advance fun arc hhead hadj husable => ?_, RelaxFrame.refl st⟩
    cases (harc arc hhead hadj husable).2
  | enabled multiplier =>
    simp only
    split_ifs with hfinal
    · refine ⟨inv.advance fun arc hhead hadj husable => .inl ?_, RelaxFrame.refl st⟩
      rw [(harc arc hhead hadj husable).1]
      exact (inv.finalized_iff _).1 hfinal
    · set arc : RoutingArc := ⟨current.node, i, edge, multiplier⟩ with harcdef
      have husable : (routingNetwork F image profile).usable arc :=
        ⟨hedge, (henables multiplier).2 rfl⟩
      have hnew : arc.edge.destination ∉ current.node :: order := fun h =>
        hfinal ((inv.finalized_iff _).2 h)
      have hfinite : Binary64.isFinite current.distance = true := by
        obtain ⟨arcs, -, hcost⟩ := inv.label_walk _ _ hlabel
        exact isFinite_of_cost hcost
      cases hw : (effectiveWeight edge.baseWeight multiplier : Except RoutingError F) with
      | error e =>
        simp only [error_bind]
        exact ⟨current.distance, arc, hfinite, by simp [extendDistance, harcdef, hw]⟩
      | ok effective =>
        simp only [ok_bind]
        cases hd : accumulateDistance current.distance effective with
        | error e =>
          simp only [error_bind]
          exact ⟨current.distance, arc, hfinite, by simp [extendDistance, harcdef, hw, hd]⟩
        | ok d =>
          have hextend : extendDistance current.distance arc = .ok d := by
            simp [extendDistance, harcdef, hw, hd]
          obtain ⟨hinv, hrelaxed⟩ := applyCandidate_inv inv husable List.mem_cons_self hlt hnew
            hlabel hextend
          refine ⟨hinv.advance fun arc' hhead hadj husable' => ?_,
            applyCandidate_frame (by simpa using hfinal)⟩
          obtain ⟨heq, huse'⟩ := harc arc' hhead hadj husable'
          cases huse'
          rw [heq]
          exact hrelaxed

/-! ## The loops -/

variable {request : RoutingRequest} {targets : DenseNodeId → Prop} {signal : CancellationSignal}

/-- What the inner loop over the edges of the latest final node leaves behind. -/
def RelaxRangePost (image : RoutingImage) (request : RoutingRequest) (origin : DenseNodeId)
    (targets : DenseNodeId → Prop) (signal : CancellationSignal) (order : List DenseNodeId)
    (bound : ℕ) : Except RoutingError (Option CompletionReason × SearchState F) → Prop
  | .error e => e.Overflows F
  | .ok (none, st) => Searching image request origin targets order [] st ∧
      st.frontier.length ≤ bound
  | .ok (some reason, st) => ∃ scan, Searching image request origin targets order scan st ∧
      Stopped request signal targets order scan st reason

lemma RelaxRangePost.mono {bound bound' : ℕ} (hbound : bound ≤ bound')
    {out : Except RoutingError (Option CompletionReason × SearchState F)}
    (h : RelaxRangePost image request origin targets signal order bound out) :
    RelaxRangePost image request origin targets signal order bound' out := by
  match out, h with
  | .error _, h => exact h
  | .ok (none, _), h => exact ⟨h.1, h.2.trans hbound⟩
  | .ok (some _, _), h => exact h

lemma topology_edgeAt {i : ℕ} {edge : OutgoingEdge} (h : image.edgeAt i = some edge)
    (w : World Unit) : image.topology.edgeAt signal i w = (.ok (some edge), w) := by
  simp [RoutingImage.topology, h, Except.map]

omit [Binary64 F] in
lemma PendingInv.congr {st' : SearchState F} (h : PendingInv targets order st)
    (hpending : st'.pending = st.pending) (hcount : st'.pendingCount = st.pendingCount) :
    PendingInv targets order st' := by
  obtain ⟨waiting, hmem, hcard, hcover⟩ := h
  exact ⟨waiting, by simpa [hpending] using hmem, by simpa [hcount] using hcard, hcover⟩

/-- Examining the edge at the head of the scan, which the budget permits: the counter does not
overflow, and the edge is relaxed. -/
lemma Searching.examine (wf : image.WellFormed)
    (hpack : request.profile.packRelationIds image.confirmedRelationIds = .ok packed)
    {current : FrontierEntry F} {i : ℕ} {rest : List ℕ} {edge : OutgoingEdge}
    (inv : Searching image request origin targets (current.node :: order) (i :: rest) st)
    (hlabel : st.distances current.node = some current.distance)
    (hbudget : request.budget.permits st.examinedEdges = true)
    (hedge : image.HasEdge current.node i edge) :
    checkedAdd64 st.examinedEdges 1 = some (st.examinedEdges + 1) ∧
      match relaxEdge packed current i edge
        { st with examinedEdges := st.examinedEdges + 1 } with
      | .error e => e.Overflows F
      | .ok st' => Searching image request origin targets (current.node :: order) rest st' ∧
          st'.distances current.node = some current.distance ∧
          st'.frontier.length ≤ st.frontier.length + 1 := by
  -- the counter stays below the adjacency count
  have htotal := wf.sum_outDegree_le inv.search.nodup fun v hv => inv.search.order_lt hv
  have hexamined := inv.examined_eq
  have hcount := wf.adjacency_count_lt
  simp only [List.length_cons] at hexamined
  refine ⟨checkedAdd64_eq_some.2 ⟨by omega, rfl⟩, ?_⟩
  set st₁ : SearchState F := { st with examinedEdges := st.examinedEdges + 1 } with hst₁
  have hinv₁ : SearchInv image request.profile origin (current.node :: order) (i :: rest) st₁ :=
    inv.search.congr rfl rfl rfl rfl
  have hspec := relaxEdge_spec wf hpack hinv₁ hlabel hedge
  cases hrelax : relaxEdge packed current i edge st₁ with
  | error e =>
    rw [hrelax] at hspec
    exact hspec
  | ok st₂ =>
    rw [hrelax] at hspec
    obtain ⟨hinv, hframe⟩ := hspec
    have hfinal : st₁.finalized current.node = true :=
      (inv.search.finalized_iff _).2 List.mem_cons_self
    have hlength : st₂.frontier.length ≤ st.frontier.length + 1 := hframe.frontier_length
    have hle := inv.frontier_le
    have hhigh := inv.highWater_le
    have hwater : st₂.frontierHighWaterMark = max st.frontierHighWaterMark st₂.frontier.length ∨
        (st₂.frontierHighWaterMark = st.frontierHighWaterMark ∧ st₂.frontier = st.frontier) :=
      hframe.highWater
    have hcounted : st₂.examinedEdges = st.examinedEdges + 1 := hframe.examinedEdges
    refine ⟨?_, (hframe.distances _ hfinal).trans hlabel, hlength⟩
    exact
      { search := hinv
        pending := inv.pending.congr hframe.pending hframe.pendingCount
        finalized_count := hframe.finalizedNodes.trans inv.finalized_count
        examined_eq := by
          rw [hcounted]
          omega
        within_budget := fun limit hlimit => by
          rw [hlimit] at hbudget
          rw [hcounted]
          exact of_decide_eq_true hbudget
        frontier_le := by
          rcases hwater with h | ⟨h, hfrontier⟩
          · rw [h]
            exact le_max_right _ _
          · rw [h, hfrontier]
            exact hle
        highWater_le := by
          rw [hcounted]
          rcases hwater with h | ⟨h, -⟩ <;> omega
        predecessors_isSome := hframe.predecessors_isSome.trans inv.predecessors_isSome
        first_iff := by
          rw [hframe.firstDestination]
          exact inv.first_iff }

lemma relaxRange_spec (wf : image.WellFormed)
    (hpack : request.profile.packRelationIds image.confirmedRelationIds = .ok packed)
    {current : FrontierEntry F} (signal : CancellationSignal) (w : World Unit)
    (inv : Searching image request origin targets (current.node :: order) scan st)
    (hawaits : Awaits targets (current.node :: order))
    (hlabel : st.distances current.node = some current.distance)
    (hscan : ∀ i ∈ scan, ∃ edge, image.HasEdge current.node i edge) :
    RelaxRangePost image request origin targets signal (current.node :: order)
      (st.frontier.length + scan.length)
      (relaxRange image.topology signal packed request.budget current scan st w).1 := by
  induction scan generalizing st w with
  | nil => exact ⟨inv, le_rfl⟩
  | cons i rest ih =>
    unfold relaxRange
    simp only [World.isCancelled]
    cases hpoll : signal w.polls with
    | true => exact ⟨_, inv, _, hpoll⟩
    | false =>
      simp only
      split_ifs with hbudget
      · exact ⟨_, inv, by simpa using hbudget, List.cons_ne_nil _ _, List.cons_ne_nil _ _, hawaits⟩
      · obtain ⟨edge, hedge⟩ := hscan i List.mem_cons_self
        obtain ⟨_, _, _, _, _, hat⟩ := id hedge
        obtain ⟨hadd, hspec⟩ := inv.examine wf hpack hlabel (by simpa using hbudget) hedge
        simp only [hadd, topology_edgeAt hat]
        cases hrelax : relaxEdge packed current i edge
            { st with examinedEdges := st.examinedEdges + 1 } with
        | error e =>
          rw [hrelax] at hspec
          exact hspec
        | ok st₂ =>
          rw [hrelax] at hspec
          obtain ⟨hsearching, hlabel₂, hlength⟩ := hspec
          refine RelaxRangePost.mono ?_ (ih _ hsearching hlabel₂
            fun j hj => hscan j (List.mem_cons_of_mem _ hj))
          simp only [List.length_cons]
          omega

/-- The pops a search may still make: the waiting entries, and one for every edge of a node that
is not final yet. -/
def potential (image : RoutingImage) (order : List DenseNodeId) (st : SearchState F) : ℕ :=
  st.frontier.length + (image.adjacencyCount - (order.map image.outDegree).sum)

/-- A search that has stopped.  Where it is cancelled right after a pop, the popped entry is
missing from the frontier, which no longer matters. -/
def SearchStopped (image : RoutingImage) (request : RoutingRequest) (origin : DenseNodeId)
    (targets : DenseNodeId → Prop) (signal : CancellationSignal) (reason : CompletionReason)
    (st : SearchState F) : Prop :=
  ∃ order scan frontier,
    Searching image request origin targets order scan { st with frontier := frontier } ∧
      Stopped request signal targets order scan st reason

/-- What one turn of the search loop leaves behind. -/
def IterationPost (image : RoutingImage) (request : RoutingRequest) (origin : DenseNodeId)
    (targets : DenseNodeId → Prop) (signal : CancellationSignal) (bound : ℕ) :
    Except RoutingError (Option CompletionReason × SearchState F) → Prop
  | .error e => e.Overflows F
  | .ok (none, st) => ∃ order, Searching image request origin targets order [] st ∧
      Awaits targets order ∧ potential image order st < bound
  | .ok (some reason, st) => SearchStopped image request origin targets signal reason st

lemma RelaxRangePost.iteration {bound bound' : ℕ}
    {out : Except RoutingError (Option CompletionReason × SearchState F)}
    (h : RelaxRangePost image request origin targets signal order bound out)
    (hawaits : Awaits targets order)
    (hbound : bound + (image.adjacencyCount - (order.map image.outDegree).sum) < bound') :
    IterationPost image request origin targets signal bound' out := by
  match out, h with
  | .error _, h => exact h
  | .ok (none, st), ⟨hsearching, hlength⟩ =>
    refine ⟨order, hsearching, hawaits, ?_⟩
    simp only [potential]
    omega
  | .ok (some _, st), ⟨scan, hsearching, hstopped⟩ =>
    exact ⟨order, scan, st.frontier, hsearching, hstopped⟩

omit [Binary64 F] in
/-- Finalizing a node settles it as a destination. -/
lemma PendingInv.finalize (h : PendingInv targets order st) {node : DenseNodeId}
    {returnPaths : Bool} {count : ℕ} :
    PendingInv targets (node :: order) (finalizeNode returnPaths node count st) := by
  obtain ⟨waiting, hmem, hcard, hcover⟩ := h
  unfold finalizeNode
  simp only
  split_ifs with hpending
  · refine ⟨waiting.erase node, fun v => ?_, ?_, fun v => ?_⟩
    · by_cases hv : v = node
      · simp [hv]
      · simp [hv, hmem]
    · rw [Finset.card_erase_of_mem ((hmem node).1 hpending), hcard]
    · rw [Finset.mem_erase, hcover, List.mem_cons, not_or]
      tauto
  · refine ⟨waiting, hmem, hcard, fun v => ?_⟩
    rw [hcover, List.mem_cons, not_or]
    constructor
    · rintro ⟨htarget, hv⟩
      refine ⟨htarget, ?_, hv⟩
      rintro rfl
      exact hpending ((hmem v).2 ((hcover v).2 ⟨htarget, hv⟩))
    · exact fun h => ⟨h.1, h.2.2⟩

omit [Binary64 F] in
/-- No waiting destination means that all of them are final. -/
lemma PendingInv.all_final (h : PendingInv targets order st) (hzero : st.pendingCount = 0)
    (v : DenseNodeId) (hv : targets v) : v ∈ order := by
  obtain ⟨waiting, -, hcard, hcover⟩ := h
  by_contra hfinal
  have hwaiting := (hcover v).2 ⟨hv, hfinal⟩
  rw [Finset.card_eq_zero.1 (hcard.symm.trans hzero)] at hwaiting
  exact absurd hwaiting (Finset.notMem_empty v)

omit [Binary64 F] in
/-- A waiting destination is a requested one that is not final. -/
lemma PendingInv.awaits (h : PendingInv targets order st) (hcount : st.pendingCount ≠ 0) :
    Awaits targets order := by
  obtain ⟨waiting, -, hcard, hcover⟩ := h
  rw [hcard] at hcount
  obtain ⟨v, hv⟩ := Finset.card_ne_zero.1 hcount
  exact fun _ => ⟨v, (hcover v).1 hv⟩

omit [Binary64 F] in
/-- The first destination completes when the first requested node becomes final. -/
lemma finalizeNode_first {returnPaths : Bool} {node : DenseNodeId} {count : ℕ}
    (hpending : PendingInv targets order st) (hnew : node ∉ order)
    (hfirst : st.firstDestination = true ↔ returnPaths = false ∧ ∃ v ∈ order, targets v) :
    (finalizeNode returnPaths node count st).firstDestination = true ↔
      returnPaths = false ∧ ∃ v ∈ node :: order, targets v := by
  obtain ⟨waiting, hmem, -, hcover⟩ := hpending
  have htarget : st.pending node = true ↔ targets node := by
    rw [hmem, hcover]
    exact ⟨fun h => h.1, fun h => ⟨h, hnew⟩⟩
  unfold finalizeNode
  simp only
  split_ifs with hpend
  · simp only [Bool.or_eq_true, Bool.not_eq_true', hfirst, List.mem_cons, exists_eq_or_imp]
    have := htarget.1 hpend
    tauto
  · rw [hfirst]
    simp only [List.mem_cons, exists_eq_or_imp]
    have := fun h => hpend (htarget.2 h)
    tauto

omit [Binary64 F] in
/-- Everything but the pending destinations is what the caller of `finalizeNode` put there. -/
lemma finalizeNode_fields (st : SearchState F) (returnPaths : Bool) (node : DenseNodeId)
    (count : ℕ) :
    (finalizeNode returnPaths node count st).distances = st.distances ∧
      (finalizeNode returnPaths node count st).finalized =
        Function.update st.finalized node true ∧
      (finalizeNode returnPaths node count st).predecessors = st.predecessors ∧
      (finalizeNode returnPaths node count st).frontier = st.frontier ∧
      (finalizeNode returnPaths node count st).examinedEdges = st.examinedEdges ∧
      (finalizeNode returnPaths node count st).finalizedNodes = count ∧
      (finalizeNode returnPaths node count st).frontierHighWaterMark =
        st.frontierHighWaterMark := by
  unfold finalizeNode
  simp only
  split_ifs <;> exact ⟨rfl, rfl, rfl, rfl, rfl, rfl, rfl⟩

/-- Popping an entry that is not stale and finalizing its node. -/
lemma Searching.finalize {current : FrontierEntry F}
    {frontier : List (FrontierEntry F)} {start stop : ℕ}
    (inv : Searching image request origin targets order [] st)
    (hpop : popFrontier st.frontier = some (current, frontier)) (hnew : current.node ∉ order)
    (hlabel : st.distances current.node = some current.distance)
    (hrange : image.outgoingRange current.node = some (start, stop)) :
    Searching image request origin targets (current.node :: order)
      (List.range' start (stop - start))
      (finalizeNode request.returnPaths current.node (order.length + 1)
        { st with frontier := frontier }) := by
  obtain ⟨-, hleast, hfrontier⟩ := popFrontier_eq_some hpop
  obtain ⟨h₁, h₂, h₃, h₄, h₅, h₆, h₇⟩ := finalizeNode_fields { st with frontier := frontier }
    request.returnPaths current.node (order.length + 1)
  refine
    { search := inv.search.finalize hleast hnew hlabel ?_ h₁ h₂ h₃ (h₄.trans hfrontier)
      pending := ?_
      finalized_count := by rw [h₆, List.length_cons]
      examined_eq := ?_
      within_budget := fun limit hlimit => h₅.trans_le (inv.within_budget limit hlimit)
      frontier_le := ?_
      highWater_le := by rw [h₅, h₇]; exact inv.highWater_le
      predecessors_isSome := by rw [h₃]; exact inv.predecessors_isSome
      first_iff := ?_ }
  · rintro adjacency edge ⟨a, b, hab, ha, hb, -⟩
    obtain ⟨rfl, rfl⟩ : start = a ∧ stop = b := by simpa [hrange] using hab
    rw [List.mem_range'_1]
    omega
  · have hpending : PendingInv targets order { st with frontier := frontier } :=
      inv.pending.congr rfl rfl
    exact hpending.finalize
  · have hexamined := inv.examined_eq
    rw [h₅]
    simp only [List.length_range', List.map_cons, List.sum_cons, RoutingImage.outDegree, hrange]
    simp only [List.length_nil] at hexamined
    omega
  · rw [h₄, h₇, hfrontier]
    exact List.length_erase_le.trans inv.frontier_le
  · have hpending : PendingInv targets order { st with frontier := frontier } :=
      inv.pending.congr rfl rfl
    exact finalizeNode_first hpending hnew inv.first_iff

/-- Dropping a stale entry. -/
lemma SearchInv.drop {current : FrontierEntry F} {frontier : List (FrontierEntry F)}
    (inv : SearchInv image profile origin order scan st)
    (hpop : popFrontier st.frontier = some (current, frontier))
    (hstale : current.node ∈ order ∨ st.distances current.node ≠ some current.distance) :
    SearchInv image profile origin order scan { st with frontier := frontier } := by
  obtain ⟨-, -, hfrontier⟩ := popFrontier_eq_some hpop
  refine inv.stale fun v d hd hv => ?_
  rw [hfrontier]
  refine (List.mem_erase_of_ne ?_).2 (inv.frontier_mem v d hd hv)
  rintro rfl
  rcases hstale with h | h
  · exact hv h
  · exact h hd

lemma Searching.stale {current : FrontierEntry F} {frontier : List (FrontierEntry F)}
    (inv : Searching image request origin targets order [] st)
    (hpop : popFrontier st.frontier = some (current, frontier))
    (hstale : current.node ∈ order ∨ st.distances current.node ≠ some current.distance) :
    Searching image request origin targets order [] { st with frontier := frontier } :=
  { search := inv.search.drop hpop hstale
    pending := inv.pending.congr rfl rfl
    finalized_count := inv.finalized_count
    examined_eq := inv.examined_eq
    within_budget := inv.within_budget
    frontier_le := by
      rw [(popFrontier_eq_some hpop).2.2]
      exact List.length_erase_le.trans inv.frontier_le
    highWater_le := inv.highWater_le
    predecessors_isSome := inv.predecessors_isSome
    first_iff := inv.first_iff }

omit [Binary64 F] in
/-- Every index of an outgoing range holds an edge. -/
lemma RoutingImage.WellFormed.hasEdge_of_range (wf : image.WellFormed) {v : DenseNodeId}
    {start stop : ℕ} (hrange : image.outgoingRange v = some (start, stop)) :
    ∀ i ∈ List.range' start (stop - start), ∃ edge, image.HasEdge v i edge := by
  intro i hi
  rw [List.mem_range'_1] at hi
  have hle := wf.outgoingRange_le hrange
  obtain ⟨edge, hedge, -⟩ := wf.edge_at i (by omega)
  exact ⟨edge, start, stop, hrange, hi.1, by omega, hedge⟩

/-- The counter of final nodes does not overflow. -/
lemma Searching.finalized_add {node : DenseNodeId} {scan' : List ℕ} {st' : SearchState F}
    (wf : image.WellFormed) (inv : Searching image request origin targets order scan st)
    (hfinal : Searching image request origin targets (node :: order) scan' st') :
    checkedAdd64 st.finalizedNodes 1 = some (order.length + 1) := by
  have hle := RoutingImage.WellFormed.length_le_nodeCount hfinal.search.nodup
    fun v hv => hfinal.search.order_lt hv
  have hlt := wf.node_count_lt
  rw [List.length_cons] at hle
  rw [inv.finalized_count]
  exact checkedAdd64_eq_some.2 ⟨by omega, rfl⟩

lemma searchIteration_spec (wf : image.WellFormed)
    (hpack : request.profile.packRelationIds image.confirmedRelationIds = .ok packed)
    (signal : CancellationSignal) (w : World Unit)
    (inv : Searching image request origin targets order [] st)
    (hawaits : Awaits targets order) :
    IterationPost image request origin targets signal (potential image order st)
      (searchIteration image.topology signal packed request st w).1 := by
  unfold searchIteration
  cases hpop : popFrontier st.frontier with
  | none =>
    refine ⟨order, [], st.frontier, inv, rfl, fun v d hd => ?_, hawaits⟩
    by_contra hv
    have hmem := inv.search.frontier_mem v d hd hv
    rw [popFrontier_eq_none.1 hpop] at hmem
    exact absurd hmem List.not_mem_nil
  | some popped =>
    obtain ⟨current, frontier⟩ := popped
    obtain ⟨hmem, -, hfrontier⟩ := popFrontier_eq_some hpop
    -- every turn pops an entry, which pays for the entries that its relaxations push
    have hlength : frontier.length + 1 = st.frontier.length := by
      rw [hfrontier, List.length_erase_of_mem hmem]
      have := List.length_pos_of_mem hmem
      omega
    simp only
    split_ifs with hstale
    · simp only [Bool.or_eq_true, decide_eq_true_eq, inv.search.finalized_iff] at hstale
      refine ⟨order, inv.stale hpop hstale, hawaits, ?_⟩
      simp only [potential]
      omega
    · simp only [Bool.or_eq_true, decide_eq_true_eq, inv.search.finalized_iff, not_or,
        not_not] at hstale
      obtain ⟨hnew, hlabel⟩ := hstale
      simp only [World.isCancelled]
      cases hpoll : signal w.polls with
      | true => exact ⟨order, [], st.frontier, inv, _, hpoll⟩
      | false =>
        have hnode := inv.search.labelled_lt _ _ hlabel
        obtain ⟨start, stop, hrange⟩ := wf.outgoingRange_of_lt hnode
        have hfinal := inv.finalize hpop hnew hlabel hrange
        have hcount := inv.finalized_add wf hfinal
        simp only [hcount]
        split_ifs with hzero
        · exact ⟨_, _, _, hfinal, hfinal.pending.all_final hzero⟩
        · have hscan := wf.hasEdge_of_range hrange
          have hfields := finalizeNode_fields { st with frontier := frontier }
            request.returnPaths current.node (order.length + 1)
          have hrange' : image.topology.outgoingRange current.node = .ok (start, stop) := by
            simp [RoutingImage.topology, hrange]
          have hdegrees := wf.sum_outDegree_le hfinal.search.nodup fun v hv =>
            hfinal.search.order_lt hv
          simp only [hrange']
          have hawaits' := hfinal.pending.awaits hzero
          refine (relaxRange_spec wf hpack signal _ hfinal hawaits'
            (by rw [hfields.1]; exact hlabel) hscan).iteration hawaits' ?_
          simp only [List.map_cons, List.sum_cons, RoutingImage.outDegree, hrange] at hdegrees ⊢
          simp only [potential, hfields.2.2.2.1, List.length_range']
          omega

/-- What a whole search leaves behind. -/
def SearchPost (image : RoutingImage) (request : RoutingRequest) (origin : DenseNodeId)
    (targets : DenseNodeId → Prop) (signal : CancellationSignal) :
    Except RoutingError (CompletionReason × SearchState F) → Prop
  | .error e => e.Overflows F
  | .ok (reason, st) => SearchStopped image request origin targets signal reason st

lemma searchLoop_spec (wf : image.WellFormed)
    (hpack : request.profile.packRelationIds image.confirmedRelationIds = .ok packed)
    {fuel : ℕ} (w : World Unit) (inv : Searching image request origin targets order [] st)
    (hawaits : Awaits targets order) (hfuel : potential image order st < fuel) :
    SearchPost image request origin targets signal
      (searchLoop image.topology signal packed request fuel st w).1 := by
  induction fuel generalizing order st w with
  | zero => omega
  | succ fuel ih =>
    have hspec := searchIteration_spec wf hpack signal w inv hawaits
    unfold searchLoop
    revert hspec
    cases searchIteration image.topology signal packed request st w with
    | mk out w' =>
      match out with
      | .error _ => exact id
      | .ok (none, st') =>
        rintro ⟨order', inv', hawaits', hlt⟩
        exact ih w' inv' hawaits' (by omega)
      | .ok (some _, _) => exact id

/-- Before the first pop nothing is final and nothing has been examined. -/
lemma Searching.init (horigin : origin.asUsize < image.nodeCount) {pending : DenseNodeId → Bool}
    {pendingCount : ℕ}
    (hpending : PendingInv targets []
      (initialSearchState request origin pending pendingCount : SearchState F)) :
    Searching image request origin targets [] []
      (initialSearchState request origin pending pendingCount : SearchState F) :=
  { search := SearchInv.init horigin
    pending := hpending
    finalized_count := rfl
    examined_eq := by simp [initialSearchState]
    within_budget := fun _ _ => Nat.zero_le _
    frontier_le := le_rfl
    highWater_le := le_rfl
    predecessors_isSome := by
      simp only [initialSearchState]
      split_ifs with h <;> simp [h]
    first_iff := by simp [initialSearchState] }

/-- The search always returns.  It stops with its invariant intact, or an effective weight or a
distance overflows. -/
theorem runSearch_spec (signal : CancellationSignal) (wf : image.WellFormed)
    (hpack : request.profile.packRelationIds image.confirmedRelationIds = .ok packed)
    (horigin : origin.asUsize < image.nodeCount) {pending : DenseNodeId → Bool}
    {pendingCount : ℕ} (w : World Unit)
    (hpending : PendingInv targets []
      (initialSearchState request origin pending pendingCount : SearchState F)) :
    SearchPost image request origin targets signal
      (runSearch image.topology signal packed request
        (initialSearchState request origin pending pendingCount : SearchState F) w).1 := by
  have inv : Searching image request origin targets [] []
      (initialSearchState request origin pending pendingCount : SearchState F) :=
    .init horigin hpending
  unfold runSearch
  simp only [World.isCancelled]
  cases hpoll : signal w.polls with
  | true => exact ⟨[], [], _, inv, _, hpoll⟩
  | false =>
    refine searchLoop_spec wf hpack _ inv (fun ⟨v, hv⟩ => ⟨v, hv, List.not_mem_nil⟩) ?_
    simp [potential, initialSearchState, RoutingImage.topology]
    omega

end Run

end PathHydra
