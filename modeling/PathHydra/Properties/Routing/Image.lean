import Mathlib.Algebra.BigOperators.Group.List.Basic
import Mathlib.Algebra.Order.BigOperators.Group.Finset
import Mathlib.Algebra.BigOperators.Intervals
import Mathlib.Order.Monotone.Basic
import PathHydra.Construction.Routing.Compile

/-!
# Well-formed images

`RoutingImage.WellFormed` collects what a search relies on: the node table is strictly ascending
and its dense numbering is the position in it, the offsets delimit consecutive ranges of the
adjacency arrays, and every adjacency entry can be read and names a node and a relation kind of
the image.  `compileRoutingImage_wellFormed` derives it from a successful compilation.
-/

namespace PathHydra

/-! ## Searching and ordering lists -/

section Lists

variable {α : Type*} [DecidableEq α] {xs : List α} {x : α} {i : ℕ}

lemma getElem?_of_binarySearch (h : binarySearch xs x = some i) : xs[i]? = some x := by
  unfold binarySearch at h
  obtain ⟨hi, hx, -⟩ := List.findIdx?_eq_some_iff_getElem.1 h
  rw [List.getElem?_eq_getElem hi]
  exact congrArg some (of_decide_eq_true hx)

lemma binarySearch_eq_none : binarySearch xs x = none ↔ x ∉ xs := by
  unfold binarySearch
  rw [List.findIdx?_eq_none_iff]
  constructor
  · intro h hx
    simpa using h x hx
  · intro h y hy
    simp only [decide_eq_false_iff_not]
    rintro rfl
    exact h hy

lemma binarySearch_of_getElem? (hxs : xs.Nodup) (h : xs[i]? = some x) :
    binarySearch xs x = some i := by
  cases hb : binarySearch xs x with
  | none => exact absurd (List.mem_of_getElem? h) (binarySearch_eq_none.1 hb)
  | some j =>
    have hj := getElem?_of_binarySearch hb
    obtain ⟨hjl, hjx⟩ := List.getElem?_eq_some_iff.1 hj
    obtain ⟨hil, hix⟩ := List.getElem?_eq_some_iff.1 h
    rw [hxs.getElem_inj_iff.1 (hjx.trans hix.symm)]

lemma binarySearch_of_mem (h : x ∈ xs) : ∃ i, binarySearch xs x = some i := by
  cases hb : binarySearch xs x with
  | none => exact absurd h (binarySearch_eq_none.1 hb)
  | some i => exact ⟨i, rfl⟩

end Lists

lemma anyNeighbours_eq_false {α : Type} {p : α → α → Bool} {xs : List α} :
    anyNeighbours p xs = false ↔ xs.IsChain (fun a b => p a b = false) := by
  induction xs using anyNeighbours.induct with
  | case1 a b rest ih => simp [anyNeighbours, ih, List.isChain_cons_cons]
  | case2 xs h =>
    match xs, h with
    | [], _ => simp [anyNeighbours]
    | [a], _ => simp [anyNeighbours]
    | a :: b :: rest, h => exact absurd rfl (h a b rest)

lemma rejectDuplicate_eq_ok {α : Type} [DecidableEq α] {error : α → CompileError} {xs : List α} :
    rejectDuplicate error xs = .ok () ↔ xs.IsChain (· ≠ ·) := by
  induction xs using rejectDuplicate.induct with
  | case1 b rest => simp [rejectDuplicate, List.isChain_cons_cons]
  | case2 a b rest h ih => simp [rejectDuplicate, List.isChain_cons_cons, h, ih]
  | case3 xs h =>
    match xs, h with
    | [], _ => simp [rejectDuplicate]
    | [a], _ => simp [rejectDuplicate]
    | a :: b :: rest, h => exact absurd rfl (h a b rest)

section SortIds

variable {k : IdKind} {ids : List (DurableId k)}

lemma sortIds_perm : (sortIds ids).Perm ids := List.perm_insertionSort _ _

lemma sortIds_pairwise : (sortIds ids).Pairwise (· ≤ ·) := List.pairwise_insertionSort _ _

/-- Sorted identifiers without equal neighbours are strictly ascending. -/
lemma sortIds_strict {error : DurableId k → CompileError}
    (h : rejectDuplicate error (sortIds ids) = .ok ()) : (sortIds ids).Pairwise (· < ·) := by
  rw [← List.isChain_iff_pairwise]
  have hne := rejectDuplicate_eq_ok.1 h
  have hle : (sortIds ids).IsChain (· ≤ ·) := sortIds_pairwise.isChain
  exact List.isChain_iff_getElem.2 fun i hi =>
    lt_of_le_of_ne (List.isChain_iff_getElem.1 hle i hi) (List.isChain_iff_getElem.1 hne i hi)

end SortIds

/-! ## Well-formedness -/

namespace RoutingImage

/-- The range of adjacency indexes that leaves a node, as a length; zero outside the image. -/
def outDegree (image : RoutingImage) (source : DenseNodeId) : ℕ :=
  match image.outgoingRange source with
  | some (start, stop) => stop - start
  | none => 0

/-- The invariants of a compiled image. -/
structure WellFormed (image : RoutingImage) : Prop where
  nodes_ascending : image.denseToExternal.Pairwise (· < ·)
  node_count_lt : image.nodeCount < 2 ^ 32
  mapping_eq : image.externalToDense = denseMapping image.denseToExternal
  relations_ascending : image.confirmedRelationIds.Pairwise (· < ·)
  offsets_length : image.offsets.length = image.nodeCount + 1
  offsets_head : image.offsets[0]? = some 0
  offsets_last : image.offsets[image.nodeCount]? = some image.adjacencyCount
  offsets_mono : image.offsets.Pairwise (· ≤ ·)
  adjacency_count_lt : image.adjacencyCount + 1 < 2 ^ 64
  edge_at : ∀ i < image.adjacencyCount, ∃ edge, image.edgeAt i = some edge ∧
    edge.destination.asUsize < image.nodeCount ∧
    image.confirmedRelationIds[edge.relationIndex.val]? = some edge.relationId

namespace WellFormed

variable {image : RoutingImage} (wf : image.WellFormed)

include wf

lemma nodes_nodup : image.denseToExternal.Nodup :=
  wf.nodes_ascending.imp fun h => ne_of_lt h

lemma relations_nodup : image.confirmedRelationIds.Nodup :=
  wf.relations_ascending.imp fun h => ne_of_lt h

/-- The two numberings are inverse to each other. -/
lemma denseNodeId_eq_some {external : NodeId} {dense : DenseNodeId} :
    image.denseNodeId external = some dense ↔ image.externalNodeId dense = some external := by
  have hkeys : image.externalToDense.map (·.1) = image.denseToExternal := by
    rw [wf.mapping_eq]
    simp [denseMapping, Function.comp_def]
  have hentry : ∀ i, image.externalToDense[i]? =
      image.denseToExternal[i]?.map fun external => (external, DenseNodeId.ofNat i) := by
    intro i
    rw [wf.mapping_eq]
    simp [denseMapping, List.getElem?_zipIdx, Function.comp_def]
  have hlt : ∀ {i : ℕ} {id : NodeId}, image.denseToExternal[i]? = some id → i < 2 ^ 32 := by
    intro i id h
    exact (List.getElem?_eq_some_iff.1 h).1.trans wf.node_count_lt
  unfold denseNodeId externalNodeId
  rw [hkeys]
  constructor
  · intro h
    obtain ⟨i, hi, hrest⟩ := Option.bind_eq_some_iff.1 h
    obtain ⟨entry, he, hd⟩ := Option.bind_eq_some_iff.1 hrest
    have hx := getElem?_of_binarySearch hi
    rw [hentry, hx] at he
    simp only [Option.map_some, Option.some.injEq] at he
    simp only [Option.pure_def, Option.some.injEq] at hd
    subst he
    subst hd
    rw [DenseNodeId.asUsize_ofNat (hlt hx)]
    exact hx
  · intro h
    have hb := binarySearch_of_getElem? wf.nodes_nodup h
    simp only [Option.bind_eq_bind, hb, Option.bind_some, hentry, h, Option.map_some,
      Option.pure_def, Option.some.injEq]
    exact DenseNodeId.asUsize_injective (DenseNodeId.asUsize_ofNat (hlt h))

omit wf in
lemma externalNodeId_of_lt {dense : DenseNodeId} (h : dense.asUsize < image.nodeCount) :
    ∃ external, image.externalNodeId dense = some external :=
  ⟨_, List.getElem?_eq_getElem h⟩

omit wf in
lemma lt_of_externalNodeId {dense : DenseNodeId} {external : NodeId}
    (h : image.externalNodeId dense = some external) : dense.asUsize < image.nodeCount :=
  (List.getElem?_eq_some_iff.1 h).1

/-- The identifiers without a dense number are those outside the node table. -/
lemma denseNodeId_eq_none {external : NodeId} :
    image.denseNodeId external = none ↔ external ∉ image.denseToExternal := by
  constructor
  · intro h hmem
    obtain ⟨i, hi, rfl⟩ := List.mem_iff_getElem.1 hmem
    have hlt : i < 2 ^ 32 := hi.trans wf.node_count_lt
    have hdense : image.externalNodeId (DenseNodeId.ofNat i) = some image.denseToExternal[i] := by
      simp [externalNodeId, DenseNodeId.asUsize_ofNat hlt]
    rw [wf.denseNodeId_eq_some.2 hdense] at h
    cases h
  · intro h
    cases hd : image.denseNodeId external with
    | none => rfl
    | some dense => exact absurd (List.mem_of_getElem? (wf.denseNodeId_eq_some.1 hd)) h

lemma lt_of_denseNodeId {dense : DenseNodeId} {external : NodeId}
    (h : image.denseNodeId external = some dense) : dense.asUsize < image.nodeCount :=
  lt_of_externalNodeId (wf.denseNodeId_eq_some.1 h)

lemma externalNodeId_inj {a b : DenseNodeId} {external : NodeId}
    (ha : image.externalNodeId a = some external) (hb : image.externalNodeId b = some external) :
    a = b := by
  rw [← wf.denseNodeId_eq_some] at ha hb
  exact Option.some.inj (ha.symm.trans hb)

/-- Every offset up to the node count exists. -/
lemma offset_of_le {n : ℕ} (h : n ≤ image.nodeCount) :
    ∃ offset, image.offsets[n]? = some offset := by
  refine ⟨_, List.getElem?_eq_getElem ?_⟩
  rw [wf.offsets_length]
  omega

lemma offset_mono {m n a b : ℕ} (hmn : m ≤ n) (hm : image.offsets[m]? = some a)
    (hn : image.offsets[n]? = some b) : a ≤ b := by
  obtain ⟨hml, rfl⟩ := List.getElem?_eq_some_iff.1 hm
  obtain ⟨hnl, rfl⟩ := List.getElem?_eq_some_iff.1 hn
  rcases Nat.lt_or_eq_of_le hmn with h | rfl
  · exact List.pairwise_iff_getElem.1 wf.offsets_mono m n hml hnl h
  · exact le_rfl

omit wf in
lemma outgoingRange_eq_some {source : DenseNodeId} {start stop : ℕ} :
    image.outgoingRange source = some (start, stop) ↔
      image.offsets[source.asUsize]? = some start ∧
        image.offsets[source.asUsize + 1]? = some stop := by
  simp only [outgoingRange, Option.bind_eq_bind, Option.pure_def, Option.bind_eq_some_iff,
    Option.some.injEq, Prod.mk.injEq]
  constructor
  · rintro ⟨a, ha, b, hb, rfl, rfl⟩
    exact ⟨ha, hb⟩
  · rintro ⟨ha, hb⟩
    exact ⟨start, ha, stop, hb, rfl, rfl⟩

lemma outgoingRange_of_lt {source : DenseNodeId} (h : source.asUsize < image.nodeCount) :
    ∃ start stop, image.outgoingRange source = some (start, stop) := by
  obtain ⟨start, hstart⟩ := wf.offset_of_le h.le
  obtain ⟨stop, hstop⟩ := wf.offset_of_le h
  exact ⟨start, stop, outgoingRange_eq_some.2 ⟨hstart, hstop⟩⟩

lemma outgoingRange_le {source : DenseNodeId} {start stop : ℕ}
    (h : image.outgoingRange source = some (start, stop)) :
    start ≤ stop ∧ stop ≤ image.adjacencyCount := by
  obtain ⟨hstart, hstop⟩ := outgoingRange_eq_some.1 h
  have hlt : source.asUsize + 1 < image.nodeCount + 1 := by
    rw [← wf.offsets_length]
    exact (List.getElem?_eq_some_iff.1 hstop).1
  exact ⟨wf.offset_mono (Nat.le_succ _) hstart hstop,
    wf.offset_mono (by omega) hstop wf.offsets_last⟩

/-- The ranges of distinct nodes do not overlap, so together they are no longer than the
adjacency arrays. -/
lemma sum_outDegree_le {order : List DenseNodeId} (hnodup : order.Nodup)
    (hlt : ∀ v ∈ order, v.asUsize < image.nodeCount) :
    (order.map image.outDegree).sum ≤ image.adjacencyCount := by
  set offset : ℕ → ℕ := fun n => image.offsets[n]?.getD 0 with hoffset
  have hval : ∀ n ≤ image.nodeCount, image.offsets[n]? = some (offset n) := by
    intro n hn
    obtain ⟨a, ha⟩ := wf.offset_of_le hn
    simp [hoffset, ha]
  have hdegree : ∀ v : DenseNodeId, v.asUsize < image.nodeCount →
      image.outDegree v = offset (v.asUsize + 1) - offset v.asUsize := by
    intro v hv
    have hrange := outgoingRange_eq_some.2 ⟨hval _ hv.le, hval _ hv⟩
    simp [outDegree, hrange]
  have htotal : ∀ n ≤ image.nodeCount,
      ∑ m ∈ Finset.range n, (offset (m + 1) - offset m) = offset n - offset 0 := by
    intro n hn
    induction n with
    | zero => simp
    | succ n ih =>
      rw [Finset.sum_range_succ, ih (by omega)]
      have h₁ := wf.offset_mono (Nat.zero_le n) (hval 0 (by omega)) (hval n (by omega))
      have h₂ := wf.offset_mono (Nat.le_succ n) (hval n (by omega)) (hval (n + 1) hn)
      omega
  have hsum : (order.map image.outDegree).sum =
      ∑ m ∈ (order.map DenseNodeId.asUsize).toFinset, (offset (m + 1) - offset m) := by
    rw [List.sum_toFinset _ (hnodup.map DenseNodeId.asUsize_injective), List.map_map]
    exact congrArg List.sum (List.map_congr_left fun v hv => hdegree v (hlt v hv))
  have hsubset : (order.map DenseNodeId.asUsize).toFinset ⊆ Finset.range image.nodeCount := by
    intro m hm
    simp only [List.mem_toFinset, List.mem_map] at hm
    obtain ⟨v, hv, rfl⟩ := hm
    exact Finset.mem_range.2 (hlt v hv)
  calc (order.map image.outDegree).sum
      = ∑ m ∈ (order.map DenseNodeId.asUsize).toFinset, (offset (m + 1) - offset m) := hsum
    _ ≤ ∑ m ∈ Finset.range image.nodeCount, (offset (m + 1) - offset m) :=
      Finset.sum_le_sum_of_subset hsubset
    _ = offset image.nodeCount - offset 0 := htotal _ le_rfl
    _ ≤ image.adjacencyCount := by
      have hlast := (hval _ le_rfl).symm.trans wf.offsets_last
      have : offset image.nodeCount = image.adjacencyCount := Option.some.inj hlast
      omega

omit wf in
/-- A list of distinct nodes of the image is no longer than the node table. -/
lemma length_le_nodeCount {order : List DenseNodeId} (hnodup : order.Nodup)
    (hlt : ∀ v ∈ order, v.asUsize < image.nodeCount) : order.length ≤ image.nodeCount := by
  have hsubset : order.map DenseNodeId.asUsize ⊆ List.range image.nodeCount := by
    intro m hm
    obtain ⟨v, hv, rfl⟩ := List.mem_map.1 hm
    exact List.mem_range.2 (hlt v hv)
  have := ((hnodup.map DenseNodeId.asUsize_injective).subperm hsubset).length_le
  simpa using this

end WellFormed

/-! ## Compilation -/

/-- What the final validation of a compiled image establishes. -/
lemma validateCompleted_eq_ok {image : RoutingImage} (h : image.validateCompleted = .ok ()) :
    image.offsets.length = image.nodeCount + 1 ∧ image.offsetsBounded = true ∧
      (∀ source < image.nodeCount, image.sourceOrdered source = true) ∧
      ∀ i < image.adjacencyCount, image.adjacencyValid i = true := by
  unfold validateCompleted at h
  obtain ⟨offsetCount, hcount, h⟩ := bind_eq_ok.1 h
  rw [okOr_eq_ok, checkedAdd64_eq_some] at hcount
  split_ifs at h with hlengths hmapping hoffsets hsources hentries
  push Not at hlengths
  simp only [Bool.not_eq_true', Bool.not_eq_false, List.all_eq_true, List.mem_range]
    at hsources hentries
  exact ⟨hlengths.2.1.trans hcount.2, by simpa using hoffsets, hsources, hentries⟩

/-- A valid adjacency entry can be read, and names a node and a relation kind of the image. -/
lemma edgeAt_of_adjacencyValid {image : RoutingImage} {i : ℕ} (hi : i < image.adjacencyCount)
    (h : image.adjacencyValid i = true) :
    ∃ edge, image.edgeAt i = some edge ∧ edge.destination.asUsize < image.nodeCount ∧
      image.confirmedRelationIds[edge.relationIndex.val]? = some edge.relationId := by
  unfold adjacencyValid at h
  split at h
  · rename_i destination relation relationIndex bits hdestination hrelation hindex hbits
    simp only [Bool.and_eq_true, decide_eq_true_eq] at h
    obtain ⟨⟨⟨hlt, -⟩, hid⟩, hweight⟩ := h
    obtain ⟨weight, hweight⟩ := Option.isSome_iff_exists.1 hweight
    have hedge : image.edgeIds[i]? = some (image.edgeIds.get ⟨i, hi⟩) :=
      List.getElem?_eq_getElem hi
    refine ⟨⟨image.edgeIds.get ⟨i, hi⟩, ⟨destination⟩, relation, weight, relationIndex⟩, ?_,
      hlt, hid⟩
    simp only [edgeAt, Option.bind_eq_bind, Option.bind_some, hedge, hdestination, hrelation,
      hbits, hweight, hindex, Option.pure_def]
  · cases h

lemma offsets_of_offsetsBounded {image : RoutingImage} (h : image.offsetsBounded = true)
    (hlength : image.offsets.length = image.nodeCount + 1) :
    image.offsets[0]? = some 0 ∧ image.offsets[image.nodeCount]? = some image.adjacencyCount ∧
      image.offsets.Pairwise (· ≤ ·) := by
  simp only [offsetsBounded, Bool.and_eq_true, decide_eq_true_eq, Bool.not_eq_true',
    anyNeighbours_eq_false] at h
  obtain ⟨⟨hhead, hlast⟩, hchain⟩ := h
  refine ⟨by rw [← List.head?_eq_getElem?]; exact hhead, ?_, ?_⟩
  · rw [List.getLast?_eq_getElem?, hlength] at hlast
    exact hlast
  · rw [← List.isChain_iff_pairwise]
    exact hchain.imp fun a b hab => by simpa using hab

end RoutingImage

/-- The manifest of a compilation bounds the adjacency count. -/
lemma manifest_adjacencyCount_lt {nodeCount relationKindCount adjacencyCount : ℕ}
    {m : RoutingImageManifest}
    (h : manifest nodeCount relationKindCount adjacencyCount = .ok m) :
    adjacencyCount * 8 < 2 ^ 64 := by
  simp only [manifest, manifestBytes, bind_eq_ok, okOr_eq_ok, checkedMul64_eq_some] at h
  obtain ⟨_, -, _, -, _, -, _, -, _, -, _, ⟨hrelations, -⟩, _⟩ := h
  exact hrelations

/-- Filing an edge counts it. -/
lemma fileEdge_count {mapping : List (NodeId × DenseNodeId)} {relationIds : List RelationId}
    {acc out : List (List CompiledEdge) × ℕ} {edge : EdgeRecord}
    (h : fileEdge mapping relationIds acc edge = .ok out) : out.2 = acc.2 + 1 := by
  simp only [fileEdge, bind_eq_ok, okOr_eq_ok, checkedAdd64_eq_some] at h
  obtain ⟨_, -, _, -, _, -, _, -, _, ⟨-, rfl⟩, hout⟩ := h
  cases hout
  rfl

lemma foldlM_fileEdge_count {mapping : List (NodeId × DenseNodeId)}
    {relationIds : List RelationId} {edges : List EdgeRecord}
    {acc out : List (List CompiledEdge) × ℕ}
    (h : edges.foldlM (fileEdge mapping relationIds) acc = .ok out) :
    out.2 = acc.2 + edges.length := by
  induction edges generalizing acc with
  | nil =>
    cases h
    simp
  | cons edge rest ih =>
    rw [List.foldlM_cons, bind_eq_ok] at h
    obtain ⟨mid, hmid, hrest⟩ := h
    rw [ih hrest, fileEdge_count hmid, List.length_cons]
    omega

/-- A compiled image is well formed. -/
theorem compileRoutingImage_wellFormed {records : ConfirmedGraphRecords} {limit : Option ℕ}
    {image : RoutingImage} (h : compileRoutingImageImpl records limit = .ok image) :
    image.WellFormed := by
  unfold compileRoutingImageImpl at h
  obtain ⟨_, hcount, h⟩ := bind_eq_ok.1 h
  obtain ⟨topologyManifest, hmanifest, h⟩ := bind_eq_ok.1 h
  obtain ⟨required, -, h⟩ := bind_eq_ok.1 h
  split at h
  · cases h
  obtain ⟨_, hnodes, h⟩ := bind_eq_ok.1 h
  obtain ⟨_, hrelations, h⟩ := bind_eq_ok.1 h
  obtain ⟨_, -, h⟩ := bind_eq_ok.1 h
  obtain ⟨⟨filed, counted⟩, hfiled, h⟩ := bind_eq_ok.1 h
  obtain ⟨tail, -, h⟩ := bind_eq_ok.1 h
  obtain ⟨relationIndexes, -, h⟩ := bind_eq_ok.1 h
  split_ifs at h with hlengths hlast
  obtain ⟨_, hvalid, h⟩ := bind_eq_ok.1 h
  cases h
  push Not at hlengths
  -- the last check has looked at all offsets and entries; the identifiers were sorted before
  obtain ⟨hoffsets, hbounded, -, hentries⟩ := RoutingImage.validateCompleted_eq_ok hvalid
  obtain ⟨hhead, hend, hmono⟩ := RoutingImage.offsets_of_offsetsBounded hbounded hoffsets
  have hcounted : counted = records.edges.length := by
    simpa using foldlM_fileEdge_count hfiled
  refine
    { nodes_ascending := sortIds_strict hnodes
      node_count_lt := ?_
      mapping_eq := rfl
      relations_ascending := sortIds_strict hrelations
      offsets_length := hoffsets
      offsets_head := hhead
      offsets_last := hend
      offsets_mono := hmono
      adjacency_count_lt := ?_
      edge_at := fun i hi => RoutingImage.edgeAt_of_adjacencyValid hi (hentries i hi) }
  · unfold validateNodeCount at hcount
    split_ifs at hcount with hlt
    have hperm : (sortIds (records.nodes.map (·.id))).length = _ := sortIds_perm.length_eq
    simp only [RoutingImage.nodeCount]
    rw [hperm, List.length_map]
    exact hlt
  · have hbytes := manifest_adjacencyCount_lt hmanifest
    simp only [RoutingImage.adjacencyCount, List.length_map]
    rw [hlengths.1, hcounted]
    omega

end PathHydra
