import PathHydra.Construction.Api.Handles
import PathHydra.Properties.Api.Profile
import PathHydra.Properties.Subgraph

/-!
# Subgraph handles at the API boundary

Every collection that operations build lists the endpoints of its edges, so its handles are sound:
identifiers ascend and endpoints are listed.  Sound handles are not always accepted.  The search for
an endpoint compares texts at the places it passes (`probesOf`), and finds the endpoint exactly when
at each of these places the order of the texts is the order of the numbers (`InTextOrder`).
-/

namespace PathHydra

/-! ## Wrappers -/

namespace DecimalDto

variable {field : String}

/-- The number of a wrapper. -/
def number (d : DecimalDto field) : U64 :=
  match d.asU64 with
  | .ok v => v
  | .error _ => 0

lemma asU64_eq (d : DecimalDto field) : d.asU64 = .ok d.number := by
  obtain ⟨v, hv⟩ := d.canonical
  have hnumber : d.asU64 = .ok v := hv
  rw [number, hnumber]

lemma eq_fromU64 (d : DecimalDto field) : d = fromU64 d.number :=
  asStr_injective (toString_of_parseDecimal d.asU64_eq)

@[simp] lemma number_fromU64 (v : U64) : (fromU64 v : DecimalDto field).number = v := by
  have hnumber : (fromU64 v : DecimalDto field).asU64 = .ok v := parseDecimal_toString v field
  exact Except.ok.inj ((asU64_eq _).symm.trans hnumber)

/-- Wrappers of ascending numbers ascend exactly when the one leads up to the other. -/
lemma lt_iff {a b : DecimalDto field} (h : a.number < b.number) :
    a < b ↔ LeadsUpTo a.number.val b.number.val := by
  have hids := @toDto_lt_iff .node field _ _
    (show (⟨a.number⟩ : NodeId) < ⟨b.number⟩ from h)
  rw [show ((⟨a.number⟩ : NodeId).toDto : DecimalDto field) = a from a.eq_fromU64.symm,
    show ((⟨b.number⟩ : NodeId).toDto : DecimalDto field) = b from b.eq_fromU64.symm] at hids
  exact hids

end DecimalDto

/-! ## What is accepted -/

namespace SubgraphHandlesDto

/-- The identifiers ascend and the endpoints of the edges are listed. -/
structure Sound (d : SubgraphHandlesDto) : Prop where
  nodes_ascending : d.nodes.Pairwise fun a b => a.number < b.number
  edges_ascending : d.edges.Pairwise fun a b => a.edge.number < b.edge.number
  listed : ∀ e ∈ d.edges, e.source ∈ d.nodes ∧ e.destination ∈ d.nodes

/-- On its way to a node, the search passes only nodes whose texts are ordered as their numbers. -/
def InTextOrder (nodes : List NodeIdDto) (endpoint : NodeIdDto) : Prop :=
  ∀ i, nodes[i]? = some endpoint → ∀ m ∈ probesOf nodes i, ∀ node, nodes[m]? = some node →
    (m < i → LeadsUpTo node.number.val endpoint.number.val) ∧
      (i < m → LeadsUpTo endpoint.number.val node.number.val)

/-- The endpoints of the edges are in text order with the nodes the search passes. -/
def EndpointsInTextOrder (d : SubgraphHandlesDto) : Prop :=
  ∀ e ∈ d.edges, InTextOrder d.nodes e.source ∧ InTextOrder d.nodes e.destination

/-- The check against the previous number. -/
lemma not_any_le {previous : Option U64} {current : U64} :
    ¬ (previous.any fun value => decide (current ≤ value)) = true ↔
      ∀ p ∈ previous, p < current := by
  rcases previous with _ | p
  · simp
  · simp

lemma validateNodes_eq_ok {nodes : List NodeIdDto} {previous : Option U64} :
    validateNodes previous nodes = .ok () ↔ (∀ p ∈ previous, ∀ n ∈ nodes, p < n.number) ∧
      nodes.Pairwise fun a b => a.number < b.number := by
  induction nodes generalizing previous with
  | nil => exact iff_of_true rfl ⟨fun _ _ => nofun, .nil⟩
  | cons node rest ih =>
    rw [validateNodes, node.asU64_eq, ok_bind, List.pairwise_cons]
    split_ifs with hbelow
    · refine iff_of_false nofun fun h => ?_
      exact not_any_le.2 (fun p hp => h.1 p hp node List.mem_cons_self) hbelow
    · have hlt := not_any_le.1 hbelow
      rw [ih]
      constructor
      · rintro ⟨hrest, hpairs⟩
        refine ⟨fun p hp n hn => ?_, fun n hn => hrest node.number rfl n hn, hpairs⟩
        rcases List.mem_cons.1 hn with rfl | hn
        · exact hlt p hp
        · exact (hlt p hp).trans (hrest node.number rfl n hn)
      · rintro ⟨-, hnode, hpairs⟩
        refine ⟨fun p hp n hn => ?_, hpairs⟩
        obtain rfl := Option.some.inj hp
        exact hnode n hn

lemma validateEndpoint_eq_ok {nodes : List NodeIdDto} {edge : EdgeIdDto} {endpoint : NodeIdDto} :
    validateEndpoint nodes edge endpoint = .ok () ↔
      (sliceSearch nodes endpoint).isSome = true := by
  rw [validateEndpoint]
  rcases sliceSearch nodes endpoint with _ | i
  · exact iff_of_false nofun nofun
  · exact iff_of_true rfl rfl

lemma validateEdges_eq_ok {nodes : List NodeIdDto} {edges : List EdgeHandleDto}
    {previous : Option U64} : validateEdges nodes previous edges = .ok () ↔
      (∀ p ∈ previous, ∀ e ∈ edges, p < e.edge.number) ∧
      (edges.Pairwise fun a b => a.edge.number < b.edge.number) ∧
      ∀ e ∈ edges, (sliceSearch nodes e.source).isSome = true ∧
        (sliceSearch nodes e.destination).isSome = true := by
  induction edges generalizing previous with
  | nil => exact iff_of_true rfl ⟨fun _ _ => nofun, .nil, nofun⟩
  | cons edge rest ih =>
    rw [validateEdges, edge.edge.asU64_eq, ok_bind, List.pairwise_cons, List.forall_mem_cons]
    split_ifs with hbelow
    · refine iff_of_false nofun fun h => ?_
      exact not_any_le.2 (fun p hp => h.1 p hp edge List.mem_cons_self) hbelow
    · have hlt := not_any_le.1 hbelow
      rw [check_bind_eq_ok, check_bind_eq_ok, validateEndpoint_eq_ok, validateEndpoint_eq_ok, ih]
      simp only [Option.mem_def, Option.some.injEq, forall_eq']
      constructor
      · rintro ⟨hsource, hdestination, hrest, hpairs, hfound⟩
        refine ⟨fun p hp e he => ?_, ⟨hrest, hpairs⟩, ⟨hsource, hdestination⟩, hfound⟩
        rcases List.mem_cons.1 he with rfl | he
        · exact hlt p hp
        · exact (hlt p hp).trans (hrest e he)
      · rintro ⟨-, ⟨hrest, hpairs⟩, ⟨hsource, hdestination⟩, hfound⟩
        exact ⟨hsource, hdestination, hrest, hpairs, hfound⟩

/-- A listed endpoint is found exactly when the search passes nodes in text order. -/
lemma sliceSearch_isSome_iff_inTextOrder {nodes : List NodeIdDto}
    (hascending : nodes.Pairwise fun a b => a.number < b.number) {endpoint : NodeIdDto}
    (hmem : endpoint ∈ nodes) :
    (sliceSearch nodes endpoint).isSome = true ↔ InTextOrder nodes endpoint := by
  have hnodup : nodes.Nodup := hascending.imp fun {a b} hlt heq => hlt.ne (congrArg _ heq)
  have hnumber : ∀ {i j : ℕ} {a b : NodeIdDto}, nodes[i]? = some a → nodes[j]? = some b → i < j →
      a.number < b.number := by
    intro i j a b hi hj hlt
    obtain ⟨hi', rfl⟩ := List.getElem?_eq_some_iff.1 hi
    obtain ⟨hj', rfl⟩ := List.getElem?_eq_some_iff.1 hj
    exact List.pairwise_iff_getElem.1 hascending i j hi' hj' hlt
  -- the comparisons of texts at a place, read as comparisons of numbers
  have hplace : ∀ {i}, nodes[i]? = some endpoint → ∀ m ∈ probesOf nodes i, ∀ node,
      nodes[m]? = some node → ((m < i → node < endpoint) ∧ (i < m → endpoint < node) ↔
        (m < i → LeadsUpTo node.number.val endpoint.number.val) ∧
          (i < m → LeadsUpTo endpoint.number.val node.number.val)) := by
    intro i hi m _ node hnode
    exact and_congr (forall_congr' fun hlt => DecimalDto.lt_iff (hnumber hnode hi hlt))
      (forall_congr' fun hlt => DecimalDto.lt_iff (hnumber hi hnode hlt))
  obtain ⟨i, hlt, hget⟩ := List.mem_iff_getElem.1 hmem
  have hi : nodes[i]? = some endpoint := List.getElem?_eq_some_iff.2 ⟨hlt, hget⟩
  rw [sliceSearch_isSome_iff hnodup hi]
  constructor
  · intro h j hj m hm node hnode
    obtain rfl : i = j := (List.getElem?_inj hlt hnodup).1 (hi.trans hj.symm)
    exact (hplace hi m hm node hnode).1 (h m hm node hnode)
  · intro h m hm node hnode
    exact (hplace hi m hm node hnode).2 (h i hi m hm node hnode)

/-- Accepted are the sound handles whose endpoints are in text order. -/
lemma validate_eq_ok_iff {d : SubgraphHandlesDto} :
    d.validate = .ok () ↔ d.Sound ∧ d.EndpointsInTextOrder := by
  have hloops : d.validate = .ok () ↔ validateNodes none d.nodes = .ok () ∧
      validateEdges d.nodes none d.edges = .ok () := by
    exact check_bind_eq_ok
  rw [hloops, validateNodes_eq_ok, validateEdges_eq_ok]
  constructor
  · rintro ⟨⟨-, hnodes⟩, -, hedges, hfound⟩
    have hlisted : ∀ e ∈ d.edges, e.source ∈ d.nodes ∧ e.destination ∈ d.nodes := fun e he =>
      ⟨sliceSearch_mem (hfound e he).1, sliceSearch_mem (hfound e he).2⟩
    refine ⟨⟨hnodes, hedges, hlisted⟩, fun e he => ?_⟩
    exact ⟨(sliceSearch_isSome_iff_inTextOrder hnodes (hlisted e he).1).1 (hfound e he).1,
      (sliceSearch_isSome_iff_inTextOrder hnodes (hlisted e he).2).1 (hfound e he).2⟩
  · rintro ⟨hsound, horder⟩
    refine ⟨⟨nofun, hsound.nodes_ascending⟩, nofun, hsound.edges_ascending, fun e he => ?_⟩
    obtain ⟨hsource, hdestination⟩ := hsound.listed e he
    exact ⟨(sliceSearch_isSome_iff_inTextOrder hsound.nodes_ascending hsource).2 (horder e he).1,
      (sliceSearch_isSome_iff_inTextOrder hsound.nodes_ascending hdestination).2 (horder e he).2⟩

end SubgraphHandlesDto

/-! ## The round trip -/

namespace Subgraph

/-- The handles of a collection as they are converted. -/
abbrev dto (s : Subgraph) : SubgraphHandlesDto := s.handles.toDto

lemma number_toDto {k : IdKind} {field : String} (id : DurableId k) :
    (id.toDto : DecimalDto field).number = id.asU64 := DecimalDto.number_fromU64 id.asU64

lemma Closed.dto_sound {s : Subgraph} (h : s.Closed) : s.dto.Sound where
  nodes_ascending := by
    refine List.pairwise_map.2 (s.nodes.keys_pairwise.imp fun hlt => ?_)
    rw [number_toDto, number_toDto]
    exact hlt
  edges_ascending := by
    refine List.pairwise_map.2 (List.pairwise_map.2 (s.edges.sorted.imp fun hlt => ?_))
    rw [number_toDto, number_toDto]
    exact hlt
  listed := by
    intro e he
    obtain ⟨handle, hhandle, rfl⟩ := List.mem_map.1 he
    obtain ⟨⟨edge, source, destination⟩, hentry, rfl⟩ := List.mem_map.1 hhandle
    obtain ⟨hsource, hdestination⟩ := h edge source destination (SortedMap.get_of_mem hentry)
    have hnode : ∀ {node}, s.nodes.get node = some () → node.toDto ∈ s.dto.nodes := fun hget =>
      List.mem_map_of_mem (SortedMap.mem_keys.2 ⟨(), hget⟩)
    exact ⟨hnode hsource, hnode hdestination⟩

/-- The nodes come back. -/
lemma foldlM_tryAddNode (s : Subgraph) :
    s.dto.nodes.foldlM tryAddNode new = .ok ⟨s.nodes, .empty⟩ := by
  have hfold : ∀ (l : List (NodeId × Unit)) (acc : SortedMap NodeId Unit),
      ((l.map (·.1)).map (·.toDto)).foldlM tryAddNode ⟨acc, .empty⟩ =
        .ok ⟨l.foldl (fun m e => m.insert e.1 e.2) acc, .empty⟩ := by
    intro l
    induction l with
    | nil => exact fun acc => rfl
    | cons e l ih =>
      intro acc
      rw [List.map_cons, List.map_cons, List.foldlM_cons, tryAddNode, ofDto_toDto]
      exact ih (acc.insert e.1 ())
  have hnodes := hfold s.nodes.entries .empty
  rw [SortedMap.foldl_insert_entries] at hnodes
  exact hnodes

/-- The edges come back, over the nodes. -/
lemma Closed.foldlM_tryAddEdge {s : Subgraph} (h : s.Closed) :
    s.dto.edges.foldlM tryAddEdge ⟨s.nodes, .empty⟩ = .ok s := by
  -- after some of the edges, these and all nodes are there
  have hfold : ∀ (post pre : List (EdgeId × (NodeId × NodeId))),
      s.edges.entries = pre ++ post →
      ((post.map fun e => (⟨e.1, e.2.1, e.2.2⟩ : EdgeHandle)).map fun e =>
          (⟨e.edgeId.toDto, e.source.toDto, e.destination.toDto⟩ : EdgeHandleDto)).foldlM tryAddEdge
          ⟨s.nodes, pre.foldl (fun m e => m.insert e.1 e.2) .empty⟩ =
        .ok ⟨s.nodes, s.edges.entries.foldl (fun m e => m.insert e.1 e.2) .empty⟩ := by
    intro post
    induction post with
    | nil =>
      intro pre hsplit
      rw [hsplit, List.append_nil]
      rfl
    | cons e post ih =>
      intro pre hsplit
      obtain ⟨edge, source, destination⟩ := e
      have hmem : (edge, source, destination) ∈ s.edges.entries := by simp [hsplit]
      obtain ⟨hsource, hdestination⟩ := h edge source destination (SortedMap.get_of_mem hmem)
      have hnodup : ((pre ++ (edge, source, destination) :: post).map Prod.fst).Nodup := by
        rw [← hsplit]
        exact s.edges.keys_pairwise.imp fun hlt => hlt.ne
      have hfresh : (pre.foldl (fun m e => m.insert e.1 e.2) SortedMap.empty).get edge = none := by
        have hpre : pre.Pairwise fun a b => a.1 < b.1 := by
          have hsorted := s.edges.sorted
          rw [hsplit] at hsorted
          exact (List.pairwise_append.1 hsorted).1
        have hget := SortedMap.get_foldl_insert SortedMap.empty ⟨pre, hpre⟩ edge
        rw [SortedMap.get_empty, Option.or_none] at hget
        rw [hget, Option.eq_none_iff_forall_ne_some]
        intro v hv
        exact key_notMem_earlier hnodup
          (List.mem_map.2 ⟨(edge, v), SortedMap.get_eq_some.1 hv, rfl⟩)
      have hstep : tryAddEdge ⟨s.nodes, pre.foldl (fun m e => m.insert e.1 e.2) .empty⟩
          ⟨edge.toDto, source.toDto, destination.toDto⟩ =
            .ok ⟨s.nodes, (pre ++ [(edge, source, destination)]).foldl
              (fun m e => m.insert e.1 e.2) .empty⟩ := by
        rw [tryAddEdge, ofDto_toDto, ok_bind, ofDto_toDto, ok_bind, ofDto_toDto, ok_bind,
          Subgraph.addEdge,
          validateEdge]
        simp only [hfresh, ok_bind]
        rw [Subgraph.putEdge, SortedMap.insert_eq_self hsource, SortedMap.insert_eq_self hdestination,
          List.foldl_append]
        rfl
      rw [List.map_cons, List.map_cons, List.foldlM_cons, hstep, ok_bind]
      exact ih (pre ++ [(edge, source, destination)]) (by rw [hsplit]; simp)
  have hedges := hfold s.edges.entries [] rfl
  rw [SortedMap.foldl_insert_entries] at hedges
  exact hedges

lemma Closed.tryFrom_dto {s : Subgraph} (h : s.Closed) (hvalid : s.dto.validate = .ok ()) :
    tryFrom s.dto = .ok s := by
  rw [tryFrom, hvalid, ok_bind, foldlM_tryAddNode, ok_bind]
  exact h.foldlM_tryAddEdge

end Subgraph

/-- Handles at the API boundary.  A collection that a caller built is accepted as it is converted
and comes back unchanged exactly when its edge endpoints are in text order with the nodes the search
passes; and acceptance means sound handles exactly when the endpoints of sound handles are so. -/
theorem handles_roundTrip_iff {s : Subgraph} (h : s.Reachable) (d : SubgraphHandlesDto) :
    ((s.dto.validate = .ok () ∧ Subgraph.tryFrom s.dto = .ok s) ↔ s.dto.EndpointsInTextOrder) ∧
    ((d.validate = .ok () ↔ d.Sound) ↔ (d.Sound → d.EndpointsInTextOrder)) := by
  constructor
  · constructor
    · exact fun haccepted => (SubgraphHandlesDto.validate_eq_ok_iff.1 haccepted.1).2
    · intro horder
      have hvalid := SubgraphHandlesDto.validate_eq_ok_iff.2 ⟨h.closed.dto_sound, horder⟩
      exact ⟨hvalid, h.closed.tryFrom_dto hvalid⟩
  · rw [SubgraphHandlesDto.validate_eq_ok_iff]
    exact ⟨fun hiff hsound => (hiff.2 hsound).2,
      fun horder => ⟨And.left, fun hsound => ⟨hsound, horder hsound⟩⟩⟩

/-- One edge between two nodes. -/
def oneEdge (source destination : NodeId) : Subgraph := Subgraph.new.putEdge ⟨1⟩ source destination

lemma oneEdge_reachable (source destination : NodeId) : (oneEdge source destination).Reachable :=
  .addEdge .new
    (show Subgraph.new.addEdge ⟨1⟩ source destination = .ok (oneEdge source destination, true)
      from rfl)

/-- Two nodes of one digit each are in text order, wherever the search passes. -/
lemma oneEdge_inTextOrder (endpoint : NodeIdDto) :
    SubgraphHandlesDto.InTextOrder (oneEdge ⟨1⟩ ⟨2⟩).dto.nodes endpoint := by
  have hnodes : (oneEdge ⟨1⟩ ⟨2⟩).dto.nodes = [.fromU64 1, .fromU64 2] := by decide +kernel
  have hleads : LeadsUpTo 1 2 := by decide
  have hat : ∀ i node, (oneEdge ⟨1⟩ ⟨2⟩).dto.nodes[i]? = some node →
      i = 0 ∧ node = .fromU64 1 ∨ i = 1 ∧ node = .fromU64 2 := by
    intro i node hi
    rw [hnodes] at hi
    rcases i with _ | _ | i
    · exact .inl ⟨rfl, (Option.some.inj hi).symm⟩
    · exact .inr ⟨rfl, (Option.some.inj hi).symm⟩
    · simp at hi
  -- the only comparison is that of 1 with 2, from the one side or from the other
  intro i hi m _ node hm
  rcases hat i endpoint hi with ⟨rfl, rfl⟩ | ⟨rfl, rfl⟩
  · rcases hat m node hm with ⟨rfl, rfl⟩ | ⟨rfl, rfl⟩
    · exact ⟨fun h => by omega, fun h => by omega⟩
    · exact ⟨fun h => by omega, fun _ => hleads⟩
  · rcases hat m node hm with ⟨rfl, rfl⟩ | ⟨rfl, rfl⟩
    · exact ⟨fun _ => hleads, fun h => by omega⟩
    · exact ⟨fun h => by omega, fun h => by omega⟩

/-- Nodes of one digit each. -/
theorem handles_roundTrip_oneDigit :
    (oneEdge ⟨1⟩ ⟨2⟩).dto.validate = .ok () ∧
      Subgraph.tryFrom (oneEdge ⟨1⟩ ⟨2⟩).dto = .ok (oneEdge ⟨1⟩ ⟨2⟩) := by
  have horder : (oneEdge ⟨1⟩ ⟨2⟩).dto.EndpointsInTextOrder := fun e _ =>
    ⟨oneEdge_inTextOrder e.source, oneEdge_inTextOrder e.destination⟩
  exact (handles_roundTrip_iff (oneEdge_reachable ⟨1⟩ ⟨2⟩) (oneEdge ⟨1⟩ ⟨2⟩).dto).1.2 horder

/-- The nodes 9 and 10: sound handles that are rejected. -/
theorem nine_and_ten_endpoint_not_found :
    (oneEdge ⟨9⟩ ⟨10⟩).Reachable ∧ (oneEdge ⟨9⟩ ⟨10⟩).dto.Sound ∧
      (oneEdge ⟨9⟩ ⟨10⟩).dto.validate = .error (.missingSubgraphEndpoint "1" "9") ∧
      Subgraph.tryFrom (oneEdge ⟨9⟩ ⟨10⟩).dto = .error (.missingSubgraphEndpoint "1" "9") := by
  have hreachable := oneEdge_reachable ⟨9⟩ ⟨10⟩
  have hrejected : (oneEdge ⟨9⟩ ⟨10⟩).dto.validate =
      .error (.missingSubgraphEndpoint "1" "9") := by
    decide +kernel
  refine ⟨hreachable, hreachable.closed.dto_sound, hrejected, ?_⟩
  rw [Subgraph.tryFrom, hrejected]
  rfl

end PathHydra
