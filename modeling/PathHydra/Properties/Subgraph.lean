import PathHydra.Construction.Subgraph

/-!
# The algebra of subgraphs

The endpoints of the edges of a collection are always in it (`Closed`).  Removing a node takes
exactly the node and its edges away, and `union` is the union of the nodes and of the edges.

The methods are statements that change `self`; each comes to the operation it is named after, and
leaves `self` alone when that fails (`SubgraphMethod.call_addEdge` and its siblings).
-/

namespace PathHydra

namespace Subgraph

/-! ## Closed collections -/

/-- The endpoints of the edges are nodes. -/
def Closed (s : Subgraph) : Prop :=
  ∀ edge source destination, s.edges.get edge = some (source, destination) →
    s.nodes.get source = some () ∧ s.nodes.get destination = some ()

lemma get_insert_of_get {nodes : SortedMap NodeId Unit} {node : NodeId} (node' : NodeId)
    (h : nodes.get node = some ()) : (nodes.insert node' ()).get node = some () := by
  rw [SortedMap.get_insert, h, ite_self]

/-- More nodes keep a collection closed. -/
lemma Closed.insert {s : Subgraph} (h : s.Closed) (node : NodeId) :
    Closed { s with nodes := s.nodes.insert node () } := by
  intro edge source destination hedge
  obtain ⟨hsource, hdestination⟩ := h edge source destination hedge
  exact ⟨get_insert_of_get node hsource, get_insert_of_get node hdestination⟩

lemma Closed.putEdge {s : Subgraph} (h : s.Closed) (edge : EdgeId) (source destination : NodeId) :
    (s.putEdge edge source destination).Closed := by
  intro edge' source' destination' hedge
  rw [Subgraph.putEdge, SortedMap.get_insert] at hedge
  split_ifs at hedge with hsame
  · cases hedge
    exact ⟨get_insert_of_get _ (SortedMap.get_insert_self _ _ _), SortedMap.get_insert_self _ _ _⟩
  · obtain ⟨hsource, hdestination⟩ := h edge' source' destination' hedge
    exact ⟨get_insert_of_get _ (get_insert_of_get _ hsource),
      get_insert_of_get _ (get_insert_of_get _ hdestination)⟩

lemma Closed.addEdge {s s' : Subgraph} (h : s.Closed) {edge : EdgeId} {source destination : NodeId}
    {inserted : Bool} (hadd : s.addEdge edge source destination = .ok (s', inserted)) :
    s'.Closed := by
  obtain ⟨_, -, hadd⟩ := bind_eq_ok.1 hadd
  cases hadd
  exact h.putEdge edge source destination

lemma Closed.addPath {F : Type} {s s' : Subgraph} (h : s.Closed) {path : RoutePath F}
    (hadd : s.addPath path = .ok s') : s'.Closed := by
  obtain ⟨_, -, hadd⟩ := bind_eq_ok.1 hadd
  obtain ⟨_, -, hadd⟩ := bind_eq_ok.1 hadd
  cases hadd
  refine List.foldlRecOn (motive := Closed) path.steps _ (h.insert path.origin) ?_
  exact fun s hs step _ => hs.putEdge step.edgeId step.source step.destination

lemma Closed.union {s other s' : Subgraph} (h : s.Closed) (hother : other.Closed)
    (hunion : s.union other = .ok s') : s'.Closed := by
  obtain ⟨_, -, hunion⟩ := bind_eq_ok.1 hunion
  cases hunion
  intro edge source destination hedge
  rw [SortedMap.get_foldl_insert] at hedge
  rw [SortedMap.get_foldl_insert, SortedMap.get_foldl_insert]
  rcases hget : other.edges.get edge with _ | endpoints
  · rw [hget, Option.none_or] at hedge
    obtain ⟨hsource, hdestination⟩ := h edge source destination hedge
    rw [hsource, hdestination]
    have hor : ∀ o : Option Unit, o.or (some ()) = some () := by
      rintro (_ | _) <;> rfl
    exact ⟨hor _, hor _⟩
  · rw [hget, Option.some_or, Option.some.injEq] at hedge
    obtain ⟨hsource, hdestination⟩ := hother edge source destination (hedge ▸ hget)
    rw [hsource, hdestination]
    exact ⟨rfl, rfl⟩

lemma Closed.removeNode {s : Subgraph} (h : s.Closed) (node : NodeId) :
    (s.removeNode node).1.Closed := by
  intro edge source destination hedge
  obtain ⟨endpoints, hget, hguard⟩ :=
    Option.bind_eq_some_iff.1 ((SortedMap.get_filterMap _).symm.trans hedge)
  obtain ⟨rfl, hkept⟩ := Option.guard_eq_some_iff.1 hguard
  simp only [Bool.and_eq_true, decide_eq_true_eq] at hkept
  obtain ⟨hsource, hdestination⟩ := h edge source destination hget
  exact ⟨SortedMap.get_erase_eq_some.2 ⟨hsource, hkept.1⟩,
    SortedMap.get_erase_eq_some.2 ⟨hdestination, hkept.2⟩⟩

/-- Whatever the caller does, the endpoints of the edges are nodes. -/
lemma Reachable.closed {s : Subgraph} (h : s.Reachable) : s.Closed := by
  induction h with
  | new => exact fun _ _ _ hedge => by cases hedge
  | addNode node _ ih => exact ih.insert node
  | addEdge _ hadd ih => exact ih.addEdge hadd
  | addEdgeRecord _ hadd ih => exact ih.addEdge hadd
  | addPath _ hadd ih => exact ih.addPath hadd
  | union _ _ hunion ih ih' => exact ih.union ih' hunion
  | removeEdge edge _ ih =>
    intro edge' source destination hedge
    exact ih edge' source destination (SortedMap.get_erase_eq_some.1 hedge).1
  | removeNode node _ ih => exact ih.removeNode node

/-! ## Unions -/

/-- The nodes of a collection. -/
def nodeSet (s : Subgraph) : Set NodeId := {node | s.nodes.get node = some ()}

/-- The edges of a collection, with their endpoints. -/
def edgeSet (s : Subgraph) : Set EdgeHandle :=
  {e | s.edges.get e.edgeId = some (e.source, e.destination)}

/-- Collections are equal when they have the same nodes and edges. -/
lemma ext_sets {s t : Subgraph} (hnodes : s.nodeSet = t.nodeSet) (hedges : s.edgeSet = t.edgeSet) :
    s = t := by
  have hnode : s.nodes = t.nodes := SortedMap.ext_get fun node => by
    have hiff : s.nodes.get node = some () ↔ t.nodes.get node = some () :=
      Set.ext_iff.1 hnodes node
    refine Option.ext fun u => ?_
    exact hiff
  have hedge : s.edges = t.edges := SortedMap.ext_get fun edge => by
    refine Option.ext fun endpoints => ?_
    exact Set.ext_iff.1 hedges ⟨edge, endpoints.1, endpoints.2⟩
  obtain ⟨nodes, edges⟩ := s
  dsimp only at hnode hedge
  rw [hnode, hedge]

/-- No edge has different endpoints in the two collections. -/
def ConflictFree (s t : Subgraph) : Prop :=
  ∀ edge endpoints endpoints', s.edges.get edge = some endpoints →
    t.edges.get edge = some endpoints' → endpoints = endpoints'

lemma ConflictFree.symm {s t : Subgraph} (h : ConflictFree s t) : ConflictFree t s :=
  fun edge endpoints endpoints' ht hs => (h edge endpoints' endpoints hs ht).symm

lemma conflictFree_self (s : Subgraph) : ConflictFree s s :=
  fun _ _ _ h h' => Option.some.inj (h.symm.trans h')

lemma validateEdge_eq_ok {s : Subgraph} {edge : EdgeId} {source destination : NodeId} :
    s.validateEdge edge source destination = .ok () ↔
      ∀ endpoints, s.edges.get edge = some endpoints → endpoints = (source, destination) := by
  unfold validateEdge
  rcases hget : s.edges.get edge with _ | existing
  · exact iff_of_true rfl nofun
  · dsimp only
    split_ifs with hne
    · exact iff_of_false nofun fun h => hne (h existing rfl)
    · refine iff_of_true rfl fun endpoints heq => ?_
      cases heq
      exact not_not.1 hne

lemma checks_eq_ok {s t : Subgraph} :
    t.edges.entries.forM (fun e => s.validateEdge e.1 e.2.1 e.2.2) = .ok () ↔
      ConflictFree s t := by
  constructor
  · intro h edge endpoints endpoints' hs ht
    exact validateEdge_eq_ok.1 (forM_ok_mem h (SortedMap.get_eq_some.1 ht)) endpoints hs
  · intro h
    refine forM_eq_ok _ fun e he => validateEdge_eq_ok.2 fun endpoints hs => ?_
    exact h e.1 endpoints e.2 hs (SortedMap.get_of_mem he)

lemma ConflictFree.exists_union {s t : Subgraph} (h : ConflictFree s t) :
    ∃ u, s.union t = .ok u := by
  rw [Subgraph.union, checks_eq_ok.2 h]
  exact ⟨_, rfl⟩

lemma union_sets {s t u : Subgraph} (h : s.union t = .ok u) :
    ConflictFree s t ∧ u.nodeSet = s.nodeSet ∪ t.nodeSet ∧ u.edgeSet = s.edgeSet ∪ t.edgeSet := by
  obtain ⟨_, hcheck, h⟩ := bind_eq_ok.1 h
  cases h
  have hfree := checks_eq_ok.1 hcheck
  refine ⟨hfree, ?_, ?_⟩
  · ext node
    simp only [nodeSet, Set.mem_ofPred_eq, Set.mem_union, SortedMap.get_foldl_insert]
    rcases t.nodes.get node with _ | _ <;> simp
  · ext e
    simp only [edgeSet, Set.mem_ofPred_eq, Set.mem_union, SortedMap.get_foldl_insert]
    rcases ht : t.edges.get e.edgeId with _ | endpoints'
    · simp
    · rw [Option.some_or]
      refine ⟨.inr, fun h => h.elim (fun hs => ?_) id⟩
      rw [hfree e.edgeId _ _ hs ht]

/-- A union succeeds exactly when nothing conflicts, and then has the nodes and the edges of
both. -/
lemma union_eq_ok {s t u : Subgraph} :
    s.union t = .ok u ↔ ConflictFree s t ∧ u.nodeSet = s.nodeSet ∪ t.nodeSet ∧
      u.edgeSet = s.edgeSet ∪ t.edgeSet := by
  refine ⟨union_sets, ?_⟩
  rintro ⟨hfree, hnodes, hedges⟩
  obtain ⟨u', hu'⟩ := hfree.exists_union
  obtain ⟨-, hnodes', hedges'⟩ := union_sets hu'
  rw [hu', ext_sets (hnodes'.trans hnodes.symm) (hedges'.trans hedges.symm)]

lemma union_comm {s t u : Subgraph} (h : s.union t = .ok u) : t.union s = .ok u := by
  obtain ⟨hfree, hnodes, hedges⟩ := union_eq_ok.1 h
  exact union_eq_ok.2 ⟨hfree.symm, hnodes.trans (Set.union_comm _ _),
    hedges.trans (Set.union_comm _ _)⟩

lemma union_self (s : Subgraph) : s.union s = .ok s :=
  union_eq_ok.2 ⟨conflictFree_self s, (Set.union_self _).symm, (Set.union_self _).symm⟩

lemma conflictFree_iff {s t : Subgraph} :
    ConflictFree s t ↔ ∀ e ∈ s.edgeSet, ∀ e' ∈ t.edgeSet, e.edgeId = e'.edgeId → e = e' := by
  constructor
  · intro h e he e' he' hid
    have hsame : (e.source, e.destination) = (e'.source, e'.destination) :=
      h e.edgeId _ _ he (by rw [hid]; exact he')
    obtain ⟨hsource, hdestination⟩ := Prod.mk.inj hsame
    obtain ⟨id, source, destination⟩ := e
    dsimp only at hid hsource hdestination
    rw [hid, hsource, hdestination]
  · rintro h edge ⟨source, destination⟩ ⟨source', destination'⟩ hs ht
    have hsame := h ⟨edge, source, destination⟩ hs ⟨edge, source', destination'⟩ ht rfl
    cases hsame
    rfl

/-- What does not conflict with two collections does not conflict with their union. -/
lemma ConflictFree.union {s t u v : Subgraph} (hu : ConflictFree s u) (hv : ConflictFree t u)
    (h : s.union t = .ok v) : ConflictFree v u := by
  rw [conflictFree_iff, (union_sets h).2.2]
  rintro e (he | he)
  · exact conflictFree_iff.1 hu e he
  · exact conflictFree_iff.1 hv e he

lemma union_assoc {s t u st tu : Subgraph} (hst : s.union t = .ok st) (htu : t.union u = .ok tu)
    (hsu : ConflictFree s u) : ∃ all, st.union u = .ok all ∧ s.union tu = .ok all := by
  obtain ⟨hfree, hnodes, hedges⟩ := union_sets hst
  obtain ⟨hfree', hnodes', hedges'⟩ := union_sets htu
  obtain ⟨all, hall⟩ := (hsu.union hfree' hst).exists_union
  obtain ⟨-, hnodes'', hedges''⟩ := union_sets hall
  refine ⟨all, hall, union_eq_ok.2 ⟨?_, ?_, ?_⟩⟩
  · exact (hfree.symm.union hsu.symm htu).symm
  · rw [hnodes'', hnodes, hnodes', Set.union_assoc]
  · rw [hedges'', hedges, hedges', Set.union_assoc]

lemma removeNode_sets (s : Subgraph) (node : NodeId) :
    (s.removeNode node).1.nodeSet = s.nodeSet \ {node} ∧
      (s.removeNode node).1.edgeSet =
        {e ∈ s.edgeSet | e.source ≠ node ∧ e.destination ≠ node} := by
  constructor
  · ext node'
    exact SortedMap.get_erase_eq_some
  · ext e
    show (s.edges.filterMap _).get e.edgeId = _ ↔ _
    rw [SortedMap.get_filterMap, Option.bind_eq_some_iff]
    constructor
    · rintro ⟨endpoints, hget, hguard⟩
      obtain ⟨rfl, hkept⟩ := Option.guard_eq_some_iff.1 hguard
      simp only [Bool.and_eq_true, decide_eq_true_eq] at hkept
      exact ⟨hget, hkept⟩
    · rintro ⟨hget, hkept⟩
      refine ⟨_, hget, Option.guard_eq_some_iff.2 ⟨rfl, ?_⟩⟩
      simpa using hkept

end Subgraph

/-! ## Methods -/

namespace SubgraphMethod

variable {α β : Type} {s : Subgraph}

/-- An operation that fails leaves the collection alone. -/
def outcome (s : Subgraph) : Except SubgraphError (Subgraph × α) → Except SubgraphError α × Subgraph
  | .ok (s', a) => (.ok a, s')
  | .error e => (.error e, s)

lemma call_bind (method : SubgraphMethod α) (next : α → SubgraphMethod β) :
    (method >>= next).call s =
      match method.call s with
      | (.ok a, s') => (next a).call s'
      | (.error e, s') => (.error e, s') := by
  show ExceptT.bindCont next (method.call s).1 (method.call s).2 = _
  rcases method.call s with ⟨e | a, s'⟩
  · rfl
  · rfl

@[simp] lemma call_pure (a : α) : (pure a : SubgraphMethod α).call s = (.ok a, s) := rfl

@[simp] lemma call_insertNode (node : NodeId) : (insertNode node).call s =
    (.ok (s.nodes.get node).isNone, { s with nodes := s.nodes.insert node () }) := rfl

@[simp] lemma call_insertEdge (edge : EdgeId) (source destination : NodeId) :
    (insertEdge edge source destination).call s = (.ok (s.edges.get edge).isNone,
      { s with edges := s.edges.insert edge (source, destination) }) := rfl

lemma call_check (edge : EdgeId) (source destination : NodeId) :
    (check edge source destination).call s = (s.validateEdge edge source destination, s) := by
  have hget : (get : SubgraphMethod Subgraph).call s = (.ok s, s) := rfl
  rw [check, call_bind, hget]
  dsimp only
  rcases s.validateEdge edge source destination with e | _
  · rfl
  · rfl

lemma call_addEdge (edge : EdgeId) (source destination : NodeId) :
    (addEdge edge source destination).call s = outcome s (s.addEdge edge source destination) := by
  unfold addEdge Subgraph.addEdge
  rw [call_bind, call_check]
  rcases s.validateEdge edge source destination with e | _
  · rfl
  · rfl

/-- A loop of checks changes nothing. -/
lemma call_forM_check {γ : Type} (l : List γ) (f : γ → EdgeId × NodeId × NodeId) :
    SubgraphMethod.call (l.forM fun c => check (f c).1 (f c).2.1 (f c).2.2) s =
      (l.forM fun c => s.validateEdge (f c).1 (f c).2.1 (f c).2.2, s) := by
  induction l with
  | nil => rfl
  | cons c l ih =>
    show (check (f c).1 (f c).2.1 (f c).2.2 >>= fun _ =>
        l.forM fun c => check (f c).1 (f c).2.1 (f c).2.2).call s =
      (s.validateEdge (f c).1 (f c).2.1 (f c).2.2 >>= fun _ =>
        l.forM fun c => s.validateEdge (f c).1 (f c).2.1 (f c).2.2, s)
    rw [call_bind, call_check]
    rcases s.validateEdge (f c).1 (f c).2.1 (f c).2.2 with e | _
    · rfl
    · exact ih

/-- A loop whose turns do not fail is a fold. -/
lemma call_forM_of_total {γ : Type} (l : List γ) {body : γ → SubgraphMethod Unit}
    {f : Subgraph → γ → Subgraph} (h : ∀ c s, (body c).call s = (.ok (), f s c)) :
    SubgraphMethod.call (l.forM body) s = (.ok (), l.foldl f s) := by
  induction l generalizing s with
  | nil => rfl
  | cons c l ih =>
    show (body c >>= fun _ => l.forM body).call s = _
    rw [call_bind, h]
    exact ih

lemma call_insertStep {F : Type} (step : PathStep F) (s : Subgraph) :
    (insertStep step).call s = (.ok (), s.putEdge step.edgeId step.source step.destination) := rfl

lemma call_addPath {F : Type} (path : RoutePath F) :
    (addPath path).call s = outcome s ((s.addPath path).map fun s' => (s', ())) := by
  unfold addPath Subgraph.addPath
  rcases Subgraph.validatePath path with e | _
  · rfl
  · dsimp only
    rw [call_bind, call_forM_check path.steps fun step =>
      (step.edgeId, step.source, step.destination)]
    rcases path.steps.forM fun step => s.validateEdge step.edgeId step.source step.destination
      with e | _
    · rfl
    · dsimp only
      rw [call_bind, call_insertNode]
      exact call_forM_of_total path.steps call_insertStep

lemma foldl_nodes (l : List (NodeId × Unit)) (s : Subgraph) :
    l.foldl (fun s e => { s with nodes := s.nodes.insert e.1 () }) s =
      { s with nodes := l.foldl (fun nodes e => nodes.insert e.1 e.2) s.nodes } := by
  induction l generalizing s with
  | nil => rfl
  | cons e l ih => exact ih _

lemma foldl_edges (l : List (EdgeId × NodeId × NodeId)) (s : Subgraph) :
    l.foldl (fun s e => { s with edges := s.edges.insert e.1 (e.2.1, e.2.2) }) s =
      { s with edges := l.foldl (fun edges e => edges.insert e.1 e.2) s.edges } := by
  induction l generalizing s with
  | nil => rfl
  | cons e l ih => exact ih _

lemma call_union (other : Subgraph) :
    (union other).call s = outcome s ((s.union other).map fun s' => (s', ())) := by
  have hnode : ∀ (e : NodeId × Unit) (s : Subgraph),
      (insertNode e.1 >>= fun _ => pure () : SubgraphMethod Unit).call s =
        (.ok (), { s with nodes := s.nodes.insert e.1 () }) := fun _ _ => rfl
  have hedge : ∀ (e : EdgeId × NodeId × NodeId) (s : Subgraph),
      (insertEdge e.1 e.2.1 e.2.2 >>= fun _ => pure () : SubgraphMethod Unit).call s =
        (.ok (), { s with edges := s.edges.insert e.1 (e.2.1, e.2.2) }) := fun _ _ => rfl
  unfold union Subgraph.union
  rw [call_bind, call_forM_check other.edges.entries fun e => (e.1, e.2.1, e.2.2)]
  rcases other.edges.entries.forM fun e => s.validateEdge e.1 e.2.1 e.2.2 with e | _
  · rfl
  · dsimp only
    rw [call_bind, call_forM_of_total other.nodes.entries hnode, foldl_nodes]
    dsimp only
    rw [call_forM_of_total other.edges.entries hedge, foldl_edges]
    rfl

lemma call_removeNode (node : NodeId) :
    (removeNode node).call s = (.ok (s.removeNode node).2, (s.removeNode node).1) := rfl

/-- A failed operation leaves the collection as it was. -/
lemma eq_of_outcome_error {s' : Subgraph} {e : SubgraphError}
    {x : Except SubgraphError (Subgraph × α)} (h : outcome s x = (.error e, s')) : s' = s := by
  rcases x with e' | ⟨t, a⟩
  · cases h
    rfl
  · cases h

lemma closed_outcome (h : s.Closed) {x : Except SubgraphError (Subgraph × α)}
    (hx : ∀ s' a, x = .ok (s', a) → s'.Closed) : (outcome s x).2.Closed := by
  rcases x with e | ⟨t, a⟩
  · exact h
  · exact hx t a rfl

/-- A method keeps collections closed. -/
def KeepsClosed (method : SubgraphMethod α) : Prop :=
  ∀ s : Subgraph, s.Closed → (method.call s).2.Closed

lemma keepsClosed_addNode (node : NodeId) : KeepsClosed (addNode node) :=
  fun _ hs => hs.insert node

lemma keepsClosed_removeNode (node : NodeId) : KeepsClosed (removeNode node) :=
  fun _ hs => hs.removeNode node

lemma keepsClosed_addEdge (edge : EdgeId) (source destination : NodeId) :
    KeepsClosed (addEdge edge source destination) := by
  intro s hs
  rw [call_addEdge]
  exact closed_outcome hs fun s' _ hadd => hs.addEdge hadd

lemma keepsClosed_addPath {F : Type} (path : RoutePath F) : KeepsClosed (addPath path) := by
  intro s hs
  rw [call_addPath]
  refine closed_outcome hs fun s' _ hadd => ?_
  obtain ⟨t, ht, heq⟩ := map_eq_ok.1 hadd
  cases heq
  exact hs.addPath ht

lemma keepsClosed_union {other : Subgraph} (hother : other.Closed) : KeepsClosed (union other) := by
  intro s hs
  rw [call_union]
  refine closed_outcome hs fun s' _ hunion => ?_
  obtain ⟨t, ht, heq⟩ := map_eq_ok.1 hunion
  cases heq
  exact hs.union hother ht

lemma keepsClosed_removeEdge (edge : EdgeId) : KeepsClosed (removeEdge edge) := by
  intro s hs edge' source destination hedge
  exact hs edge' source destination (SortedMap.get_erase_eq_some.1 hedge).1

end SubgraphMethod

/-! ## Programs -/

namespace SubgraphCall

variable {F : Type} {pool pool' : List Subgraph}

lemma closed_on {α : Type} {self : ℕ} {method : SubgraphMethod α} {o : Option SubgraphError}
    (hmethod : SubgraphMethod.KeepsClosed method) (h : ∀ s ∈ pool, s.Closed)
    (hon : on pool self method = some (pool', o)) : ∀ s ∈ pool', s.Closed := by
  unfold on at hon
  split at hon
  · cases hon
  · rename_i s hs
    have hclosed := hmethod s (h s (List.mem_of_getElem? hs))
    have hset : pool' = pool.set self (method.call s).2 := by
      split at hon <;> rename_i hcall <;> cases hon <;> rw [hcall]
    intro t ht
    rw [hset] at ht
    rcases List.mem_or_eq_of_mem_set ht with ht | rfl
    · exact h t ht
    · exact hclosed

/-- Every call keeps all collections closed. -/
lemma closed_step {call : SubgraphCall F} {o : Option SubgraphError}
    (h : ∀ s ∈ pool, s.Closed) (hstep : step pool call = some (pool', o)) :
    ∀ s ∈ pool', s.Closed := by
  unfold step at hstep
  split at hstep
  case h_1 =>
    cases hstep
    intro s hs
    rcases List.mem_append.1 hs with hs | hs
    · exact h s hs
    · rw [List.mem_singleton.1 hs]
      exact Subgraph.Reachable.new.closed
  case h_2 self =>
    split at hstep
    · cases hstep
    · rename_i t ht
      cases hstep
      intro s hs
      rcases List.mem_append.1 hs with hs | hs
      · exact h s hs
      · rw [List.mem_singleton.1 hs]
        exact h t (List.mem_of_getElem? ht)
  case h_3 self node => exact closed_on (SubgraphMethod.keepsClosed_addNode node) h hstep
  case h_4 self edge source destination =>
    exact closed_on (SubgraphMethod.keepsClosed_addEdge edge source destination) h hstep
  case h_5 self edge =>
    exact closed_on (SubgraphMethod.keepsClosed_addEdge edge.id edge.source edge.destination) h
      hstep
  case h_6 self path => exact closed_on (SubgraphMethod.keepsClosed_addPath path) h hstep
  case h_7 self other =>
    split_ifs at hstep
    split at hstep
    · cases hstep
    · rename_i t ht
      exact closed_on (SubgraphMethod.keepsClosed_union (h t (List.mem_of_getElem? ht))) h hstep
  case h_8 self edge => exact closed_on (SubgraphMethod.keepsClosed_removeEdge edge) h hstep
  case h_9 self node => exact closed_on (SubgraphMethod.keepsClosed_removeNode node) h hstep

/-- After any calls, all collections are closed. -/
lemma closed_run {calls : List (SubgraphCall F)} {os : List (Option SubgraphError)}
    (hrun : (subgraphMachine F).run [] calls = some (pool, os)) : ∀ s ∈ pool, s.Closed :=
  Machine.run_invariant (I := fun pool => ∀ s ∈ pool, s.Closed)
    (fun _ _ _ _ hs hstep => closed_step hs hstep) (by simp) hrun

end SubgraphCall

/-- The handles of a closed collection list the endpoints of its edges, and each edge once. -/
lemma Subgraph.Closed.handles {s : Subgraph} (h : s.Closed) :
    (∀ e ∈ s.handles.edges, e.source ∈ s.handles.nodes ∧ e.destination ∈ s.handles.nodes) ∧
      (s.handles.edges.map (·.edgeId)).Nodup := by
  constructor
  · intro e he
    obtain ⟨⟨edge, source, destination⟩, hmem, rfl⟩ := List.mem_map.1 he
    obtain ⟨hsource, hdestination⟩ := h edge source destination (SortedMap.get_of_mem hmem)
    exact ⟨SortedMap.mem_keys.2 ⟨(), hsource⟩, SortedMap.mem_keys.2 ⟨(), hdestination⟩⟩
  · rw [Subgraph.handles, List.map_map]
    exact s.edges.keys_pairwise.imp fun hlt => hlt.ne

lemma SubgraphMethod.call_union_eq {s t u : Subgraph} (h : s.union t = .ok u) :
    (SubgraphMethod.union t).call s = (.ok (), u) := by
  rw [call_union, h]
  rfl

open Subgraph in
/-- After any calls on any collections, each lists the endpoints of its edges and each edge once;
removing a node takes away the node and its edges and nothing else; unions without conflicts are
the unions of the nodes and of the edges, in any order and grouping; and a method that fails leaves
the collection as it was. -/
theorem subgraph_algebra (F : Type) :
    (∀ calls pool os, (subgraphMachine F).run [] calls = some (pool, os) → ∀ s ∈ pool,
      (∀ e ∈ s.handles.edges, e.source ∈ s.handles.nodes ∧ e.destination ∈ s.handles.nodes) ∧
      (s.handles.edges.map (·.edgeId)).Nodup) ∧
    (∀ (s : Subgraph) (node : NodeId), ∃ removed s',
      (SubgraphMethod.removeNode node).call s = (.ok removed, s') ∧
      (removed = true ↔ node ∈ s.nodeSet) ∧ s'.nodeSet = s.nodeSet \ {node} ∧
      s'.edgeSet = {e ∈ s.edgeSet | e.source ≠ node ∧ e.destination ≠ node}) ∧
    (∀ s t : Subgraph, ConflictFree s t → ∃ u,
      (SubgraphMethod.union t).call s = (.ok (), u) ∧
      (SubgraphMethod.union s).call t = (.ok (), u) ∧
      u.nodeSet = s.nodeSet ∪ t.nodeSet ∧ u.edgeSet = s.edgeSet ∪ t.edgeSet) ∧
    (∀ s t u : Subgraph, ConflictFree s t → ConflictFree s u → ConflictFree t u → ∃ st tu all,
      (SubgraphMethod.union t).call s = (.ok (), st) ∧
      (SubgraphMethod.union u).call t = (.ok (), tu) ∧
      (SubgraphMethod.union u).call st = (.ok (), all) ∧
      (SubgraphMethod.union tu).call s = (.ok (), all)) ∧
    (∀ s : Subgraph, (SubgraphMethod.union s).call s = (.ok (), s)) ∧
    ∀ (s s' : Subgraph) (e : SubgraphError),
      (∀ edge source destination,
        (SubgraphMethod.addEdge edge source destination).call s = (.error e, s') → s' = s) ∧
      (∀ path : RoutePath F, (SubgraphMethod.addPath path).call s = (.error e, s') → s' = s) ∧
      ∀ other, (SubgraphMethod.union other).call s = (.error e, s') → s' = s := by
  refine ⟨?_, ?_, ?_, ?_, ?_, ?_⟩
  · intro calls pool os hrun s hs
    exact (SubgraphCall.closed_run hrun s hs).handles
  · intro s node
    refine ⟨_, _, SubgraphMethod.call_removeNode node, ?_, s.removeNode_sets node⟩
    show (s.nodes.get node).isSome = true ↔ s.nodes.get node = some ()
    rcases s.nodes.get node with _ | _ <;> simp
  · intro s t hfree
    obtain ⟨u, hu⟩ := hfree.exists_union
    exact ⟨u, SubgraphMethod.call_union_eq hu, SubgraphMethod.call_union_eq (union_comm hu),
      (union_sets hu).2⟩
  · intro s t u hst hsu htu
    -- pairs without conflict can be joined in either order
    obtain ⟨st, hst⟩ := hst.exists_union
    obtain ⟨tu, htu⟩ := htu.exists_union
    obtain ⟨all, hleft, hright⟩ := union_assoc hst htu hsu
    exact ⟨st, tu, all, SubgraphMethod.call_union_eq hst, SubgraphMethod.call_union_eq htu,
      SubgraphMethod.call_union_eq hleft, SubgraphMethod.call_union_eq hright⟩
  · intro s
    exact SubgraphMethod.call_union_eq s.union_self
  · intro s s' e
    refine ⟨?_, ?_, ?_⟩
    · intro edge source destination h
      rw [SubgraphMethod.call_addEdge] at h
      exact SubgraphMethod.eq_of_outcome_error h
    · intro path h
      rw [SubgraphMethod.call_addPath] at h
      exact SubgraphMethod.eq_of_outcome_error h
    · intro other h
      rw [SubgraphMethod.call_union] at h
      exact SubgraphMethod.eq_of_outcome_error h

/-- Two collections give one edge different endpoints, so their union fails. -/
def conflictingCalls : List (SubgraphCall ℕ) :=
  [.make, .make, .addEdge 0 ⟨1⟩ ⟨1⟩ ⟨2⟩, .addEdge 1 ⟨1⟩ ⟨2⟩ ⟨3⟩, .union 0 1]

theorem subgraph_algebra_conflictingCalls :
    ∃ pool os, (subgraphMachine ℕ).run [] conflictingCalls = some (pool, os) ∧
      os = [none, none, none, none, some (.edgeIdentityConflict ⟨1⟩ ⟨1⟩ ⟨2⟩ ⟨2⟩ ⟨3⟩)] ∧
      ∀ s ∈ pool, ∀ e ∈ s.handles.edges,
        e.source ∈ s.handles.nodes ∧ e.destination ∈ s.handles.nodes := by
  have hsome : ((subgraphMachine ℕ).run [] conflictingCalls).map Prod.snd =
      some [none, none, none, none, some (.edgeIdentityConflict ⟨1⟩ ⟨1⟩ ⟨2⟩ ⟨2⟩ ⟨3⟩)] := by
    decide +kernel
  obtain ⟨⟨pool, os⟩, hrun, rfl⟩ := Option.map_eq_some_iff.1 hsome
  exact ⟨pool, _, hrun, rfl, fun s hs => ((subgraph_algebra ℕ).1 _ _ _ hrun s hs).1⟩

end PathHydra
