import PathHydra.Framework.Csr
import PathHydra.Properties.Routing.Image

/-!
# The image compiler is correct

`Compilable` is when the compiler succeeds.  Then it builds `compiledImage`: the edges grouped by
their source in the order of the node table, each group in the order of its edge identifiers, laid
out in compressed sparse rows.  Everything about a compiled image is read off this equation.
-/

namespace PathHydra

/-! ## Identifier tables -/

section Tables

variable {k : IdKind} {ids ids' : List (DurableId k)}

lemma sortIds_strict_of_nodup (h : ids.Nodup) : (sortIds ids).Pairwise (· < ·) := by
  have hne : (sortIds ids).Pairwise (· ≠ ·) := sortIds_perm.nodup_iff.2 h
  exact (sortIds_pairwise.and hne).imp fun ⟨hle, hne⟩ => lt_of_le_of_ne hle hne

lemma mem_sortIds {id : DurableId k} : id ∈ sortIds ids ↔ id ∈ ids := sortIds_perm.mem_iff

lemma sortIds_eq_of_perm (h : ids'.Perm ids) : sortIds ids' = sortIds ids :=
  (sortIds_perm.trans (h.trans sortIds_perm.symm)).eq_of_pairwise
    (fun _ _ _ _ hab hba => le_antisymm hab hba) sortIds_pairwise sortIds_pairwise

lemma rejectDuplicate_sortIds {error : DurableId k → CompileError} :
    rejectDuplicate error (sortIds ids) = .ok () ↔ ids.Nodup := by
  constructor
  · intro h
    exact sortIds_perm.nodup_iff.1 ((sortIds_strict h).imp fun hlt => hlt.ne)
  · intro h
    exact rejectDuplicate_eq_ok.2 ((sortIds_strict_of_nodup h).imp fun hlt => hlt.ne).isChain

/-- In a strictly ascending list the position of an element is the number of smaller ones. -/
lemma length_filter_lt {xs : List (DurableId k)} (hxs : xs.Pairwise (· < ·)) {i : ℕ}
    {x : DurableId k} (h : xs[i]? = some x) :
    (xs.filter fun y => decide (y < x)).length = i := by
  obtain ⟨hi, rfl⟩ := List.getElem?_eq_some_iff.1 h
  have hbefore : (xs.take i).filter (fun y => decide (y < xs[i])) = xs.take i := by
    refine List.filter_eq_self.2 fun y hy => ?_
    obtain ⟨j, hj, rfl⟩ := List.mem_iff_getElem.1 hy
    rw [List.length_take] at hj
    rw [List.getElem_take]
    exact decide_eq_true (List.pairwise_iff_getElem.1 hxs j i (by omega) hi (by omega))
  have hafter : (xs.drop i).filter (fun y => decide (y < xs[i])) = [] := by
    refine List.filter_eq_nil_iff.2 fun y hy => ?_
    obtain ⟨j, hj, rfl⟩ := List.mem_iff_getElem.1 hy
    rw [List.length_drop] at hj
    rw [List.getElem_drop, decide_eq_true_eq, not_lt]
    rcases Nat.eq_zero_or_pos j with rfl | hpos
    · simp
    · exact (List.pairwise_iff_getElem.1 hxs i (i + j) hi (by omega) (by omega)).le
  have hsplit : xs.filter (fun y => decide (y < xs[i])) =
      (xs.take i).filter (fun y => decide (y < xs[i])) ++
        (xs.drop i).filter fun y => decide (y < xs[i]) := by
    rw [← List.filter_append, List.take_append_drop]
  rw [hsplit, hbefore, hafter, List.append_nil, List.length_take_of_le hi.le]

/-- The position of an identifier in its table is the number of smaller identifiers. -/
lemma position_eq (hids : ids.Nodup) {id : DurableId k} {i : ℕ}
    (h : binarySearch (sortIds ids) id = some i) :
    (ids.filter fun id' => decide (id' < id)).length = i := by
  rw [← length_filter_lt (sortIds_strict_of_nodup hids) (getElem?_of_binarySearch h)]
  exact ((sortIds_perm.filter _).length_eq).symm

end Tables

/-- The dense number of a node is its position in the table. -/
lemma findDense_eq_some {nodeIds : List NodeId} (hnodup : nodeIds.Nodup)
    (hlt : nodeIds.length < 2 ^ 32) {id : NodeId} {dense : DenseNodeId} :
    findDense (denseMapping nodeIds) id = some dense ↔ nodeIds[dense.asUsize]? = some id := by
  have hkeys : (denseMapping nodeIds).map (·.1) = nodeIds := by
    simp [denseMapping, Function.comp_def]
  have hentry : ∀ i, (denseMapping nodeIds)[i]? =
      nodeIds[i]?.map fun external => (external, DenseNodeId.ofNat i) := by
    intro i
    simp [denseMapping, List.getElem?_zipIdx, Function.comp_def]
  unfold findDense
  rw [hkeys]
  constructor
  · intro h
    obtain ⟨i, hi, hrest⟩ := Option.bind_eq_some_iff.1 h
    obtain ⟨entry, he, hd⟩ := Option.bind_eq_some_iff.1 hrest
    have hx := getElem?_of_binarySearch hi
    rw [hentry, hx] at he
    cases he
    cases hd
    have hi' := (List.getElem?_eq_some_iff.1 hx).1
    rw [DenseNodeId.asUsize_ofNat (hi'.trans hlt)]
    exact hx
  · intro h
    have hi := (List.getElem?_eq_some_iff.1 h).1
    simp only [Option.bind_eq_bind, binarySearch_of_getElem? hnodup h, Option.bind_some, hentry, h,
      Option.map_some, Option.pure_def, Option.some.injEq]
    exact DenseNodeId.asUsize_injective (DenseNodeId.asUsize_ofNat (hi.trans hlt))

lemma findDense_of_mem {nodeIds : List NodeId} (hnodup : nodeIds.Nodup)
    (hlt : nodeIds.length < 2 ^ 32) {id : NodeId} (h : id ∈ nodeIds) :
    ∃ dense, findDense (denseMapping nodeIds) id = some dense := by
  obtain ⟨i, hi, rfl⟩ := List.mem_iff_getElem.1 h
  refine ⟨.ofNat i, (findDense_eq_some hnodup hlt).2 ?_⟩
  rw [DenseNodeId.asUsize_ofNat (hi.trans hlt), List.getElem?_eq_getElem hi]

lemma mem_of_findDense {nodeIds : List NodeId} (hnodup : nodeIds.Nodup)
    (hlt : nodeIds.length < 2 ^ 32) {id : NodeId} {dense : DenseNodeId}
    (h : findDense (denseMapping nodeIds) id = some dense) : id ∈ nodeIds :=
  List.mem_of_getElem? ((findDense_eq_some hnodup hlt).1 h)

/-! ## When the compiler succeeds -/

namespace ConfirmedGraphRecords

variable (records : ConfirmedGraphRecords)

def nodeIds : List NodeId := records.nodes.map (·.id)

def relationIds : List RelationId := records.relationKinds.map (·.id)

/-- Identifiers are unique, references occur, and counts fit their widths: a node count in 32 bits,
the bytes of the arrays in 64 bits and the position of every relation kind in use in 32 bits. -/
structure Compilable : Prop where
  nodes_nodup : records.nodeIds.Nodup
  relations_nodup : records.relationIds.Nodup
  edges_nodup : (records.edges.map (·.id)).Nodup
  references : ∀ e ∈ records.edges, e.source ∈ records.nodeIds ∧ e.destination ∈ records.nodeIds ∧
    e.relationKind ∈ records.relationIds
  node_count : records.nodes.length < 2 ^ 32
  bytes : 32 * records.nodes.length + 8 + 28 * records.edges.length +
    8 * records.relationKinds.length < 2 ^ 64
  relation_index : ∀ e ∈ records.edges,
    (records.relationIds.filter fun id => decide (id < e.relationKind)).length < 2 ^ 32

end ConfirmedGraphRecords

/-- The manifest of an image with given counts. -/
def exactManifest (n r m : ℕ) : RoutingImageManifest where
  numericPolicy := NUMERIC_POLICY_ID
  tiePolicy := TIE_POLICY_ID
  nodeCount := n
  relationKindCount := r
  adjacencyCount := m
  elementWidths := ⟨4, 8, 8, 8, 4, 4, 8⟩
  byteCounts := ⟨n * 16, n * 8, (n + 1) * 8, m * 4, m * 8, m * 4, m * 4, m * 8, r * 8⟩
  predecessorEdgeIdsPresent := true

lemma manifest_eq {n r m : ℕ} (hn : 16 * n < 2 ^ 64) (hr : 8 * r < 2 ^ 64) (hm : 8 * m < 2 ^ 64) :
    manifest n r m = .ok (exactManifest n r m) := by
  have hmul : ∀ count width, count * width < 2 ^ 64 →
      manifestBytes count width = .ok (count * width) := fun count width hlt => by
    rw [manifestBytes, okOr_eq_ok, checkedMul64_eq_some]
    exact ⟨hlt, rfl⟩
  have hadd : checkedAdd64 n 1 = some (n + 1) := checkedAdd64_eq_some.2 ⟨by omega, rfl⟩
  simp only [manifest, hadd, okOr_some, ok_bind, hmul n 16 (by omega), hmul n 8 (by omega),
    hmul (n + 1) 8 (by omega), hmul m 4 (by omega), hmul m 8 (by omega), hmul r 8 (by omega)]
  rfl

lemma manifest_eq_ok {n r m : ℕ} {t : RoutingImageManifest} (h : manifest n r m = .ok t) :
    t = exactManifest n r m := by
  simp only [manifest, manifestBytes, bind_eq_ok, okOr_eq_ok, checkedMul64_eq_some,
    checkedAdd64_eq_some] at h
  obtain ⟨_, ⟨-, rfl⟩, _, ⟨-, rfl⟩, _, ⟨-, rfl⟩, _, ⟨-, rfl⟩, _, ⟨-, rfl⟩, _, ⟨-, rfl⟩, _,
    ⟨-, rfl⟩, _, ⟨-, rfl⟩, _, ⟨-, rfl⟩, _, ⟨-, rfl⟩, h⟩ := h
  cases h
  rfl

/-- The bytes of the arrays add up exactly when they fit. -/
lemma checkedTotal_exactManifest {n r m required : ℕ} :
    (exactManifest n r m).byteCounts.checkedTotal = some required ↔
      32 * n + 8 + 28 * m + 8 * r < 2 ^ 64 ∧ required = 32 * n + 8 + 28 * m + 8 * r := by
  simp only [exactManifest, ImageByteCounts.checkedTotal, Option.bind_eq_bind,
    Option.bind_eq_some_iff, checkedAdd64_eq_some]
  constructor
  · rintro ⟨_, ⟨-, rfl⟩, _, ⟨-, rfl⟩, _, ⟨-, rfl⟩, _, ⟨-, rfl⟩, _, ⟨-, rfl⟩, _, ⟨-, rfl⟩, _,
      ⟨-, rfl⟩, hlt, rfl⟩
    omega
  · rintro ⟨hlt, rfl⟩
    refine ⟨_, ⟨by omega, rfl⟩, _, ⟨by omega, rfl⟩, _, ⟨by omega, rfl⟩, _, ⟨by omega, rfl⟩, _,
      ⟨by omega, rfl⟩, _, ⟨by omega, rfl⟩, _, ⟨by omega, rfl⟩, by omega, by omega⟩

/-! ## The compiled image -/

namespace ConfirmedGraphRecords

variable (records : ConfirmedGraphRecords)

/-- An edge as it is filed: its destination by dense number. -/
def compileEdge (e : EdgeRecord) : CompiledEdge where
  destination := (findDense (denseMapping (sortIds records.nodeIds)) e.destination).getD ⟨0⟩
  relation := e.relationKind
  baseWeight := e.baseWeight
  edge := e.id

/-- The edges of each node, in the order of the node table, as they are filed. -/
def filedEdges (edges : List EdgeRecord) : List (List CompiledEdge) :=
  (Csr.grouped (sortIds records.nodeIds) (·.source) edges).map (List.map records.compileEdge)

/-- The edges of each node in the order of their identifiers. -/
def sortedEdges : List (List EdgeRecord) :=
  (Csr.grouped (sortIds records.nodeIds) (·.source) records.edges).map
    (List.insertionSort fun a b => a.id ≤ b.id)

/-- The outgoing edges of the image, bucket by bucket. -/
def buckets : List (List CompiledEdge) := records.sortedEdges.map (List.map records.compileEdge)

/-- The position of a relation kind in the relation table. -/
def relationPosition (id : RelationId) : U32 :=
  Fin.ofNat (2 ^ 32) ((binarySearch (sortIds records.relationIds) id).getD 0)

/-- The image of the records. -/
def compiledImage : RoutingImage where
  externalToDense := denseMapping (sortIds records.nodeIds)
  denseToExternal := sortIds records.nodeIds
  offsets := Csr.offsets records.buckets
  destinations := records.buckets.flatten.map (·.destination.asU32)
  relationIds := records.buckets.flatten.map (·.relation)
  relationIndexes := records.buckets.flatten.map fun c => records.relationPosition c.relation
  baseWeightBits := records.buckets.flatten.map (·.baseWeight.toBits)
  edgeIds := records.buckets.flatten.map (·.edge)
  confirmedRelationIds := sortIds records.relationIds
  manifest := exactManifest records.nodes.length records.relationKinds.length records.edges.length

end ConfirmedGraphRecords

section Compilable

variable {records : ConfirmedGraphRecords}

lemma map_sortBucket_filedEdges (records : ConfirmedGraphRecords) :
    (records.filedEdges records.edges).map sortBucket = records.buckets := by
  rw [ConfirmedGraphRecords.filedEdges, ConfirmedGraphRecords.buckets,
    ConfirmedGraphRecords.sortedEdges, List.map_map, List.map_map]
  refine List.map_congr_left fun l _ => ?_
  exact (List.map_insertionSort _ _ records.compileEdge l fun a _ b _ => Iff.rfl).symm

lemma length_nodeTable (records : ConfirmedGraphRecords) :
    (sortIds records.nodeIds).length = records.nodes.length := by
  rw [sortIds_perm.length_eq, ConfirmedGraphRecords.nodeIds, List.length_map]

lemma length_buckets (records : ConfirmedGraphRecords) :
    records.buckets.length = records.nodes.length := by
  rw [ConfirmedGraphRecords.buckets, ConfirmedGraphRecords.sortedEdges, Csr.grouped, List.length_map,
    List.length_map, List.length_map, length_nodeTable]

/-- The edges of the node at a position of the table. -/
lemma getElem?_sortedEdges {i : ℕ} {x : NodeId} (h : (sortIds records.nodeIds)[i]? = some x) :
    records.sortedEdges[i]? = some ((records.edges.filter fun e => decide (e.source = x)).insertionSort
      fun a b => a.id ≤ b.id) := by
  rw [ConfirmedGraphRecords.sortedEdges, List.getElem?_map, Csr.getElem?_grouped h, Option.map_some]

/-- Every edge is in one bucket, once. -/
lemma flatten_sortedEdges_perm (hnodup : records.nodeIds.Nodup)
    (hsources : ∀ e ∈ records.edges, e.source ∈ records.nodeIds) :
    records.sortedEdges.flatten.Perm records.edges := by
  have hnodup' : (sortIds records.nodeIds).Nodup := sortIds_perm.nodup_iff.2 hnodup
  have hgrouped : (Csr.grouped (sortIds records.nodeIds) (fun e : EdgeRecord => e.source)
      records.edges).flatten.Perm records.edges :=
    Csr.flatten_grouped_perm hnodup' fun e he => mem_sortIds.2 (hsources e he)
  refine List.Perm.trans ?_ hgrouped
  rw [ConfirmedGraphRecords.sortedEdges]
  generalize Csr.grouped (sortIds records.nodeIds) (fun e : EdgeRecord => e.source)
    records.edges = groups
  induction groups with
  | nil => rfl
  | cons l groups ih => exact (List.perm_insertionSort _ l).append ih

lemma flatten_buckets (records : ConfirmedGraphRecords) :
    records.buckets.flatten = records.sortedEdges.flatten.map records.compileEdge := by
  rw [ConfirmedGraphRecords.buckets, List.map_flatten]

/-! ## The loops of the compiler -/

/-- Filing one edge appends it to the bucket of its source. -/
lemma modify_filedEdges (hnodup : records.nodeIds.Nodup) {pre : List EdgeRecord} {e : EdgeRecord}
    {i : ℕ} (hi : (sortIds records.nodeIds)[i]? = some e.source) :
    (records.filedEdges pre).modify i (· ++ [records.compileEdge e]) =
      records.filedEdges (pre ++ [e]) := by
  have hnodup' : (sortIds records.nodeIds).Nodup := sortIds_perm.nodup_iff.2 hnodup
  refine List.ext_getElem? fun j => ?_
  simp only [ConfirmedGraphRecords.filedEdges, Csr.grouped, List.getElem?_modify,
    List.getElem?_map, List.filter_append]
  rcases hj : (sortIds records.nodeIds)[j]? with _ | x
  · rfl
  · simp only [Option.map_some]
    by_cases hij : i = j
    · subst hij
      obtain rfl : e.source = x := Option.some.inj (hi.symm.trans hj)
      simp
    · have hne : e.source ≠ x := by
        rintro rfl
        obtain ⟨hil, hix⟩ := List.getElem?_eq_some_iff.1 hi
        obtain ⟨hjl, hjx⟩ := List.getElem?_eq_some_iff.1 hj
        exact hij (hnodup'.getElem_inj_iff.1 (hix.trans hjx.symm))
      simp [hij, hne]

/-- Filing an edge whose references occur. -/
lemma fileEdge_eq_ok (hnodup : records.nodeIds.Nodup) (hcount : records.nodes.length < 2 ^ 32)
    {pre : List EdgeRecord} {e : EdgeRecord} (hsource : e.source ∈ records.nodeIds)
    (hdestination : e.destination ∈ records.nodeIds)
    (hrelation : e.relationKind ∈ records.relationIds) (hlength : pre.length + 1 < 2 ^ 64) :
    fileEdge (denseMapping (sortIds records.nodeIds)) (sortIds records.relationIds)
      (records.filedEdges pre, pre.length) e =
        .ok (records.filedEdges (pre ++ [e]), (pre ++ [e]).length) := by
  have hnodup' : (sortIds records.nodeIds).Nodup := sortIds_perm.nodup_iff.2 hnodup
  have hlt : (sortIds records.nodeIds).length < 2 ^ 32 := by
    rw [length_nodeTable]
    exact hcount
  obtain ⟨source, hs⟩ := findDense_of_mem hnodup' hlt (mem_sortIds.2 hsource)
  obtain ⟨destination, hd⟩ := findDense_of_mem hnodup' hlt (mem_sortIds.2 hdestination)
  obtain ⟨index, hr⟩ := binarySearch_of_mem (mem_sortIds.2 hrelation)
  have hadd : checkedAdd64 pre.length 1 = some (pre.length + 1) :=
    checkedAdd64_eq_some.2 ⟨hlength, rfl⟩
  have hcompiled : records.compileEdge e = ⟨destination, e.relationKind, e.baseWeight, e.id⟩ := by
    simp [ConfirmedGraphRecords.compileEdge, hd]
  have hmodify : (records.filedEdges pre).modify source.asUsize (· ++ [records.compileEdge e]) =
      records.filedEdges (pre ++ [e]) :=
    modify_filedEdges hnodup ((findDense_eq_some hnodup' hlt).1 hs)
  rw [hcompiled] at hmodify
  simp only [fileEdge, hs, hd, hr, okOr_some, ok_bind, BaseWeight.fromBits_toBits, hadd, hmodify,
    List.length_append, List.length_singleton]
  rfl

/-- Filing an edge succeeds only when its references occur. -/
lemma references_of_fileEdge (hnodup : records.nodeIds.Nodup)
    (hcount : records.nodes.length < 2 ^ 32) {acc out : List (List CompiledEdge) × ℕ}
    {e : EdgeRecord} (h : fileEdge (denseMapping (sortIds records.nodeIds))
      (sortIds records.relationIds) acc e = .ok out) :
    e.source ∈ records.nodeIds ∧ e.destination ∈ records.nodeIds ∧
      e.relationKind ∈ records.relationIds := by
  have hnodup' : (sortIds records.nodeIds).Nodup := sortIds_perm.nodup_iff.2 hnodup
  have hlt : (sortIds records.nodeIds).length < 2 ^ 32 := by
    rw [length_nodeTable]
    exact hcount
  simp only [fileEdge, bind_eq_ok, okOr_eq_ok] at h
  obtain ⟨_, hs, _, hd, _, hr, -⟩ := h
  exact ⟨mem_sortIds.1 (mem_of_findDense hnodup' hlt hs),
    mem_sortIds.1 (mem_of_findDense hnodup' hlt hd),
    mem_sortIds.1 (List.mem_of_getElem? (getElem?_of_binarySearch hr))⟩

lemma filedEdges_nil (records : ConfirmedGraphRecords) :
    records.filedEdges [] = List.replicate records.nodes.length [] := by
  simp only [ConfirmedGraphRecords.filedEdges, Csr.grouped, List.filter_nil, List.map_map]
  rw [← length_nodeTable, List.eq_replicate_iff]
  refine ⟨by simp, fun b hb => ?_⟩
  obtain ⟨_, -, rfl⟩ := List.mem_map.1 hb
  rfl

/-- The running offsets are those of the buckets. -/
lemma offsetsFrom_eq_ok {last : ℕ} {bs : List (List CompiledEdge)}
    (h : last + bs.flatten.length < 2 ^ 64) :
    offsetsFrom last bs = .ok ((List.range bs.length).map fun i => last + Csr.offset bs (i + 1)) := by
  induction bs generalizing last with
  | nil => rfl
  | cons b bs ih =>
    rw [List.flatten_cons, List.length_append] at h
    have hadd : checkedAdd64 last b.length = some (last + b.length) :=
      checkedAdd64_eq_some.2 ⟨by omega, rfl⟩
    have hrest : last + b.length + bs.flatten.length < 2 ^ 64 := by omega
    simp only [offsetsFrom, hadd, okOr_some, ok_bind, ih hrest]
    rw [List.length_cons, List.range_succ_eq_map, List.map_cons, List.map_map]
    simp only [Csr.offset_cons, Csr.offset_zero, Nat.add_zero, Function.comp_def]
    refine congrArg (fun l => Except.ok (_ :: l)) (List.map_congr_left fun i _ => ?_)
    exact Nat.add_assoc _ _ _

/-- The position of a relation kind in use. -/
lemma relationIndex_eq_ok {c : CompiledEdge} {i : ℕ}
    (hi : binarySearch (sortIds records.relationIds) c.relation = some i) (hlt : i < 2 ^ 32) :
    relationIndex (sortIds records.relationIds) c = .ok (records.relationPosition c.relation) := by
  have hposition : records.relationPosition c.relation = ⟨i, hlt⟩ := by
    refine Fin.ext ?_
    simp only [ConfirmedGraphRecords.relationPosition, hi, Option.getD_some]
    exact Nat.mod_eq_of_lt hlt
  simp only [relationIndex, hi, okOr_some, ok_bind, dif_pos hlt, hposition]
  rfl

end Compilable

/-! ## A compiled image passes its validation -/

namespace ConfirmedGraphRecords.Compilable

variable {records : ConfirmedGraphRecords} (h : records.Compilable)

include h

lemma table_nodup : (sortIds records.nodeIds).Nodup := sortIds_perm.nodup_iff.2 h.nodes_nodup

lemma table_length_lt : (sortIds records.nodeIds).length < 2 ^ 32 := by
  rw [length_nodeTable]
  exact h.node_count

lemma flatten_perm : records.sortedEdges.flatten.Perm records.edges :=
  flatten_sortedEdges_perm h.nodes_nodup fun e he => (h.references e he).1

lemma length_flatten : records.buckets.flatten.length = records.edges.length := by
  rw [flatten_buckets, List.length_map, h.flatten_perm.length_eq]

lemma of_mem_flatten {c : CompiledEdge} (hc : c ∈ records.buckets.flatten) :
    ∃ e ∈ records.edges, c = records.compileEdge e := by
  rw [flatten_buckets] at hc
  obtain ⟨e, he, rfl⟩ := List.mem_map.1 hc
  exact ⟨e, h.flatten_perm.mem_iff.1 he, rfl⟩

/-- The dense destination of a filed edge. -/
lemma destination_eq {e : EdgeRecord} (he : e ∈ records.edges) :
    findDense (denseMapping (sortIds records.nodeIds)) e.destination =
      some (records.compileEdge e).destination := by
  obtain ⟨dense, hdense⟩ := findDense_of_mem h.table_nodup h.table_length_lt
    (mem_sortIds.2 (h.references e he).2.1)
  simp [compileEdge, hdense]

/-- The position of a relation kind in use. -/
lemma position_of_mem {e : EdgeRecord} (he : e ∈ records.edges) :
    binarySearch (sortIds records.relationIds) e.relationKind =
      some (records.relationPosition e.relationKind).val := by
  obtain ⟨i, hi⟩ := binarySearch_of_mem (mem_sortIds.2 (h.references e he).2.2)
  have hlt : i < 2 ^ 32 := by
    rw [← position_eq h.relations_nodup hi]
    exact h.relation_index e he
  rw [hi, relationPosition, hi, Option.getD_some]
  exact congrArg some (Nat.mod_eq_of_lt hlt).symm

lemma mappingsAgree : records.compiledImage.mappingsAgree = true := by
  refine List.all_eq_true.2 fun entry hentry => ?_
  obtain ⟨⟨external, dense⟩, index⟩ := entry
  have hget := List.mem_zipIdx_iff_getElem?.1 hentry
  simp only [compiledImage, denseMapping, List.getElem?_map, List.getElem?_zipIdx,
    Option.map_map, Option.map_eq_some_iff, Function.comp_apply, Prod.mk.injEq, Nat.zero_add] at hget
  obtain ⟨x, hx, rfl, rfl⟩ := hget
  have hlt := (List.getElem?_eq_some_iff.1 hx).1
  simp only [Bool.and_eq_true, decide_eq_true_eq]
  exact ⟨DenseNodeId.asUsize_ofNat (hlt.trans h.table_length_lt), hx⟩

omit h in
lemma offsetsBounded : records.compiledImage.offsetsBounded = true := by
  have hhead : (Csr.offsets records.buckets).head? = some 0 := by
    rw [List.head?_eq_getElem?]
    exact Csr.getElem?_offsets (Nat.zero_le _)
  have hlast : (Csr.offsets records.buckets).getLast? =
      some (records.buckets.flatten.map (·.edge)).length := by
    rw [List.getLast?_eq_getElem?, Csr.length_offsets, Nat.add_sub_cancel,
      Csr.getElem?_offsets le_rfl, Csr.offset_length, List.length_map]
  have hmono : anyNeighbours (fun a b => decide (b < a)) (Csr.offsets records.buckets) = false := by
    rw [anyNeighbours_eq_false]
    exact ((Csr.offsets_pairwise records.buckets).imp fun hle => by simpa using hle).isChain
  simp only [RoutingImage.offsetsBounded, compiledImage, hhead, hlast, hmono, decide_true,
    Bool.not_false, Bool.and_self]

/-- The edges of a node are strictly ascending. -/
lemma sorted_strict (x : NodeId) :
    ((records.edges.filter fun e => decide (e.source = x)).insertionSort
      fun a b => a.id ≤ b.id).Pairwise fun a b => a.id < b.id := by
  have hle := List.pairwise_insertionSort (fun a b : EdgeRecord => a.id ≤ b.id)
    (records.edges.filter fun e => decide (e.source = x))
  have hne : ((records.edges.filter fun e => decide (e.source = x)).insertionSort
      fun a b => a.id ≤ b.id).Pairwise fun a b => a.id ≠ b.id := by
    have hedges : records.edges.Pairwise fun a b => a.id ≠ b.id :=
      List.pairwise_map.1 h.edges_nodup
    exact (List.perm_insertionSort _ _).symm.pairwise (hedges.filter _) fun hab => hab.symm
  exact (hle.and hne).imp fun ⟨hle, hne⟩ => lt_of_le_of_ne hle hne

omit h in
lemma getElem?_buckets {i : ℕ} {x : NodeId} (hi : (sortIds records.nodeIds)[i]? = some x) :
    records.buckets[i]? = some (((records.edges.filter fun e => decide (e.source = x)).insertionSort
      fun a b => a.id ≤ b.id).map records.compileEdge) := by
  rw [buckets, List.getElem?_map, getElem?_sortedEdges hi, Option.map_some]

lemma sourceOrdered {source : ℕ} (hsource : source < records.nodes.length) :
    records.compiledImage.sourceOrdered source = true := by
  obtain ⟨x, hx⟩ : ∃ x, (sortIds records.nodeIds)[source]? = some x :=
    ⟨_, List.getElem?_eq_getElem (by rw [length_nodeTable]; exact hsource)⟩
  have hbucket := getElem?_buckets hx
  have hlength := length_buckets records
  have hslice : (records.compiledImage.edgeIds.take
      (Csr.offset records.buckets (source + 1))).drop (Csr.offset records.buckets source) =
      ((records.edges.filter fun e => decide (e.source = x)).insertionSort
        fun a b => a.id ≤ b.id).map (·.id) := by
    rw [show records.compiledImage.edgeIds = records.buckets.flatten.map (·.edge) from rfl,
      ← List.map_take, ← List.map_drop, Csr.drop_take_flatten hbucket, List.map_map]
    rfl
  have hstart : records.compiledImage.offsets[source]? =
      some (Csr.offset records.buckets source) := Csr.getElem?_offsets (by omega)
  have hstop : records.compiledImage.offsets[source + 1]? =
      some (Csr.offset records.buckets (source + 1)) := Csr.getElem?_offsets (by omega)
  have hle : Csr.offset records.buckets (source + 1) ≤ records.compiledImage.edgeIds.length := by
    show _ ≤ (records.buckets.flatten.map (·.edge)).length
    rw [List.length_map, ← Csr.offset_length]
    exact Csr.offset_mono _ (by omega)
  have hordered : anyNeighbours (fun a b => decide (b ≤ a))
      (((records.edges.filter fun e => decide (e.source = x)).insertionSort
        fun a b => a.id ≤ b.id).map (·.id)) = false := by
    rw [anyNeighbours_eq_false]
    refine List.Pairwise.isChain (List.pairwise_map.2 ((h.sorted_strict x).imp fun hlt => ?_))
    simpa using hlt
  simp only [RoutingImage.sourceOrdered, hstart, hstop, hslice, hordered, decide_eq_true hle,
    Bool.not_false, Bool.and_self]

lemma adjacencyValid {index : ℕ} (hindex : index < records.buckets.flatten.length) :
    records.compiledImage.adjacencyValid index = true := by
  obtain ⟨c, hc⟩ : ∃ c, records.buckets.flatten[index]? = some c :=
    ⟨_, List.getElem?_eq_getElem hindex⟩
  obtain ⟨e, he, rfl⟩ := h.of_mem_flatten (List.mem_of_getElem? hc)
  have hdestination := (findDense_eq_some h.table_nodup h.table_length_lt).1 (h.destination_eq he)
  have hlt := (List.getElem?_eq_some_iff.1 hdestination).1
  have hposition := h.position_of_mem he
  have htable := getElem?_of_binarySearch hposition
  have hread : ∀ {β : Type} (f : CompiledEdge → β), (records.buckets.flatten.map f)[index]? =
      some (f (records.compileEdge e)) := by
    intro β f
    rw [List.getElem?_map, hc, Option.map_some]
  have hdestinations : records.compiledImage.destinations[index]? = some _ := hread _
  have hrelations : records.compiledImage.relationIds[index]? = some _ := hread _
  have hindexes : records.compiledImage.relationIndexes[index]? = some _ := hread _
  have hbits : records.compiledImage.baseWeightBits[index]? = some _ := hread _
  simp only [RoutingImage.adjacencyValid, hdestinations, hrelations, hindexes, hbits,
    Bool.and_eq_true, decide_eq_true_eq]
  refine ⟨⟨⟨hlt, ?_⟩, htable⟩, ?_⟩
  · show (binarySearch (sortIds records.relationIds) e.relationKind).isSome = true
    rw [hposition]
    rfl
  · rw [BaseWeight.fromBits_toBits]
    rfl

/-- The validation never fails on an image built this way. -/
lemma validateCompleted_eq : records.compiledImage.validateCompleted = .ok () := by
  have hcount := h.node_count
  have hadd : checkedAdd64 records.compiledImage.denseToExternal.length 1 =
      some (records.nodes.length + 1) := by
    rw [checkedAdd64_eq_some, show records.compiledImage.denseToExternal.length =
      records.nodes.length from length_nodeTable records]
    exact ⟨by omega, rfl⟩
  have hlengths : ¬ (records.compiledImage.externalToDense.length ≠
        records.compiledImage.denseToExternal.length ∨
      records.compiledImage.offsets.length ≠ records.nodes.length + 1 ∨
      records.compiledImage.destinations.length ≠ records.compiledImage.edgeIds.length ∨
      records.compiledImage.relationIds.length ≠ records.compiledImage.edgeIds.length ∨
      records.compiledImage.relationIndexes.length ≠ records.compiledImage.edgeIds.length ∨
      records.compiledImage.baseWeightBits.length ≠ records.compiledImage.edgeIds.length) := by
    simp only [compiledImage, denseMapping, List.length_map, List.length_zipIdx,
      Csr.length_offsets, length_buckets, ne_eq, not_true_eq_false, or_self, not_false_eq_true]
  have hsources : (List.range records.compiledImage.denseToExternal.length).all
      records.compiledImage.sourceOrdered = true := by
    refine List.all_eq_true.2 fun source hsource => h.sourceOrdered ?_
    rw [← length_nodeTable]
    exact List.mem_range.1 hsource
  have hentries : (List.range records.compiledImage.edgeIds.length).all
      records.compiledImage.adjacencyValid = true := by
    refine List.all_eq_true.2 fun index hindex => h.adjacencyValid ?_
    have hlt : index < (records.buckets.flatten.map (·.edge)).length := List.mem_range.1 hindex
    rwa [List.length_map] at hlt
  simp only [RoutingImage.validateCompleted, hadd, okOr_some, ok_bind, if_neg hlengths,
    h.mappingsAgree, offsetsBounded, hsources, hentries, Bool.not_true, Bool.false_eq_true,
    if_false]

/-- The compiler builds the image of the records. -/
lemma compile_eq : compileRoutingImageImpl records none = .ok records.compiledImage := by
  have hbytes := h.bytes
  have hnodes : validateNodeCount records.nodes.length = .ok () := if_pos h.node_count
  have htotal := checkedTotal_exactManifest.2 ⟨hbytes, rfl⟩
  -- after each edge the buckets hold the edges filed so far
  have hfiled : records.edges.foldlM (fileEdge (denseMapping (sortIds records.nodeIds))
      (sortIds records.relationIds)) (List.replicate records.nodes.length [], 0) =
      .ok (records.filedEdges records.edges, records.edges.length) := by
    rw [← filedEdges_nil]
    refine foldlM_eq_ok (fun pre => (records.filedEdges pre, pre.length)) records.edges
      fun pre e post hsplit => ?_
    have hmem : e ∈ records.edges := by simp [hsplit]
    obtain ⟨hsource, hdestination, hrelation⟩ := h.references e hmem
    have hlength : pre.length + 1 ≤ records.edges.length := by
      rw [hsplit]
      simp
    exact fileEdge_eq_ok h.nodes_nodup h.node_count hsource hdestination hrelation (by omega)
  have hoffsets : offsetsFrom 0 records.buckets =
      .ok ((List.range records.buckets.length).map fun i =>
        0 + Csr.offset records.buckets (i + 1)) := by
    refine offsetsFrom_eq_ok ?_
    rw [h.length_flatten]
    omega
  have hindexes : records.buckets.flatten.mapM (relationIndex (sortIds records.relationIds)) =
      .ok (records.buckets.flatten.map fun c => records.relationPosition c.relation) := by
    refine mapM_eq_ok _ fun c hc => ?_
    obtain ⟨e, he, rfl⟩ := h.of_mem_flatten hc
    exact relationIndex_eq_ok (h.position_of_mem he) (records.relationPosition _).isLt
  -- the checks at the end compare counts that are equal
  have hlast : ¬ (Csr.offsets records.buckets).getLast? ≠ some records.edges.length := by
    rw [not_not, List.getLast?_eq_getElem?, Csr.length_offsets, Nat.add_sub_cancel,
      Csr.getElem?_offsets le_rfl, Csr.offset_length, h.length_flatten]
  have hlengths : ¬ (records.buckets.flatten.length ≠ records.edges.length ∨
      (Csr.offsets records.buckets).length ≠ records.nodes.length + 1) := by
    rw [not_or, not_not, not_not, Csr.length_offsets, length_buckets]
    exact ⟨h.length_flatten, rfl⟩
  have hids : rejectDuplicate .duplicateNodeId (sortIds records.nodeIds) = .ok () :=
    rejectDuplicate_sortIds.2 h.nodes_nodup
  have hkinds : rejectDuplicate .duplicateRelationId (sortIds records.relationIds) = .ok () :=
    rejectDuplicate_sortIds.2 h.relations_nodup
  have hedges : rejectDuplicate .duplicateEdgeId (sortIds (records.edges.map (·.id))) = .ok () :=
    rejectDuplicate_sortIds.2 h.edges_nodup
  have hnodeIds : records.nodes.map (·.id) = records.nodeIds := rfl
  have hrelationIds : records.relationKinds.map (·.id) = records.relationIds := rfl
  have hmanifest := manifest_eq (n := records.nodes.length) (r := records.relationKinds.length)
    (m := records.edges.length) (by omega) (by omega) (by omega)
  simp only [compileRoutingImageImpl, hnodes, hmanifest, htotal, okOr_some, ok_bind,
    Option.filter_none, hnodeIds, hrelationIds, hids, hkinds, hedges, hfiled,
    map_sortBucket_filedEdges, hoffsets, Csr.zero_cons_offsets, hindexes, if_neg hlengths,
    if_neg hlast]
  have hvalid := h.validateCompleted_eq
  rw [compiledImage] at hvalid
  rw [hvalid]
  rfl

end ConfirmedGraphRecords.Compilable

/-! ## The compiler succeeds only on such records -/

/-- The errors that blame the compiler itself. -/
def CompileError.isInternal : CompileError → Bool
  | .invalidImage _ => true
  | _ => false

section Errors

variable {E : CompileError → Prop} (hE : ∀ e, e.isInternal = false → E e)

include hE

lemma ensures_rejectDuplicate {α : Type} [DecidableEq α] {error : α → CompileError} (xs : List α)
    (herror : ∀ a, (error a).isInternal = false) :
    Ensures (rejectDuplicate error xs) (fun _ => rejectDuplicate error xs = .ok ()) E := by
  fun_induction rejectDuplicate error xs with
  | case1 a rest => exact hE _ (herror a)
  | case2 a b rest _ ih => exact ih
  | case3 xs hxs => exact rfl

lemma ensures_okOr_external {α : Type} {e : CompileError} {o : Option α}
    (he : e.isInternal = false) : Ensures (okOr e o) (fun a => o = some a) E :=
  ensures_okOr (fun _ ho => ho) fun _ => hE e he

lemma ensures_manifest {n r m : ℕ} :
    Ensures (manifest n r m) (fun t => t = exactManifest n r m) E := by
  refine Ensures.mono (Q := fun _ => True) ?_ fun t ht _ => manifest_eq_ok ht
  rw [manifest]
  iterate 10 refine (ensures_okOr_external hE rfl).bind fun _ _ => ?_
  exact trivial

variable {records : ConfirmedGraphRecords}

/-- Filing every edge finds every reference. -/
lemma ensures_fileEdges (hnodup : records.nodeIds.Nodup) (hcount : records.nodes.length < 2 ^ 32)
    (hlength : records.edges.length < 2 ^ 64) :
    Ensures (records.edges.foldlM (fileEdge (denseMapping (sortIds records.nodeIds))
      (sortIds records.relationIds)) (List.replicate records.nodes.length [], 0))
      (fun acc => acc = (records.filedEdges records.edges, records.edges.length) ∧
        ∀ e ∈ records.edges, e.source ∈ records.nodeIds ∧ e.destination ∈ records.nodeIds ∧
          e.relationKind ∈ records.relationIds) E := by
  refine ensures_foldlM (I := fun pre acc => acc = (records.filedEdges pre, pre.length) ∧
    ∀ e ∈ pre, e.source ∈ records.nodeIds ∧ e.destination ∈ records.nodeIds ∧
      e.relationKind ∈ records.relationIds) records.edges (fun pre e post acc hsplit hacc => ?_) ?_
  · obtain ⟨rfl, hpre⟩ := hacc
    have hle : pre.length + 1 ≤ records.edges.length := by
      rw [hsplit]
      simp
    refine Ensures.mono (Q := fun _ => True) ?_ fun out hout _ => ?_
    · rw [fileEdge]
      iterate 5 refine (ensures_okOr_external hE rfl).bind fun _ _ => ?_
      exact trivial
    · have hrefs := references_of_fileEdge hnodup hcount hout
      have heq := fileEdge_eq_ok hnodup hcount hrefs.1 hrefs.2.1 hrefs.2.2
        (show pre.length + 1 < 2 ^ 64 by omega)
      refine ⟨Except.ok.inj (hout.symm.trans heq), fun e' he' => ?_⟩
      rcases List.mem_append.1 he' with he' | he'
      · exact hpre e' he'
      · rw [List.mem_singleton.1 he']
        exact hrefs
  · exact ⟨by rw [filedEdges_nil]; rfl, by simp⟩

/-- The positions of the relation kinds in use fit 32 bits, and the search for them succeeds. -/
lemma ensures_relationIndexes (hnodes : records.nodeIds.Nodup)
    (hrelations : records.relationIds.Nodup)
    (hrefs : ∀ e ∈ records.edges, e.source ∈ records.nodeIds ∧ e.destination ∈ records.nodeIds ∧
      e.relationKind ∈ records.relationIds) :
    Ensures (records.buckets.flatten.mapM (relationIndex (sortIds records.relationIds)))
      (fun _ => ∀ e ∈ records.edges,
        (records.relationIds.filter fun id => decide (id < e.relationKind)).length < 2 ^ 32) E := by
  have hperm := flatten_sortedEdges_perm hnodes fun e he => (hrefs e he).1
  have hmapM : Ensures (records.buckets.flatten.mapM (relationIndex (sortIds records.relationIds)))
      (List.Forall₂ (fun c _ =>
        (records.relationIds.filter fun id => decide (id < c.relation)).length < 2 ^ 32)
        records.buckets.flatten) E := by
    refine ensures_mapM _ fun c hc => ?_
    rw [flatten_buckets] at hc
    obtain ⟨e, he, rfl⟩ := List.mem_map.1 hc
    obtain ⟨i, hi⟩ := binarySearch_of_mem
      (mem_sortIds.2 (hrefs e (hperm.mem_iff.1 he)).2.2)
    have hi' : binarySearch (sortIds records.relationIds) (records.compileEdge e).relation =
      some i := hi
    simp only [relationIndex, hi', okOr_some, ok_bind]
    split_ifs with hlt
    · rw [← position_eq hrelations hi'] at hlt
      exact hlt
    · exact hE _ rfl
  refine hmapM.mono fun out _ hout e he => ?_
  have hc : records.compileEdge e ∈ records.buckets.flatten := by
    rw [flatten_buckets]
    exact List.mem_map_of_mem (hperm.mem_iff.2 he)
  obtain ⟨_, -, hlt⟩ := forall₂_exists_of_mem hout hc
  exact hlt

end Errors

/-- The compiler succeeds, or blames itself, only on records that satisfy the conditions. -/
lemma compile_ensures (records : ConfirmedGraphRecords) :
    Ensures (compileRoutingImageImpl records none) (fun _ => records.Compilable)
      fun e => e.isInternal = true → records.Compilable := by
  have hE : ∀ e : CompileError, e.isInternal = false → e.isInternal = true →
      records.Compilable := fun e he he' => absurd (he.symm.trans he') (by simp)
  rw [compileRoutingImageImpl]
  refine Ensures.bind (Q := fun _ => records.nodes.length < 2 ^ 32) ?_ fun _ hcount => ?_
  · rw [validateNodeCount]
    split_ifs with hlt
    · exact hlt
    · exact hE _ rfl
  refine (ensures_manifest hE).bind fun t ht => ?_
  subst ht
  refine (ensures_okOr_external hE rfl).bind fun required hrequired => ?_
  obtain ⟨hbytes, -⟩ := checkedTotal_exactManifest.1 hrequired
  rw [Option.filter_none]
  refine (ensures_rejectDuplicate hE _ fun _ => rfl).bind fun _ hids => ?_
  refine (ensures_rejectDuplicate hE _ fun _ => rfl).bind fun _ hkinds => ?_
  refine (ensures_rejectDuplicate hE _ fun _ => rfl).bind fun _ hedges => ?_
  have hnodup : records.nodeIds.Nodup := rejectDuplicate_sortIds.1 hids
  have hrelations : records.relationIds.Nodup := rejectDuplicate_sortIds.1 hkinds
  refine (ensures_fileEdges hE hnodup hcount (by omega)).bind fun acc hacc => ?_
  obtain ⟨rfl, hrefs⟩ := hacc
  dsimp only
  have hlength : records.buckets.flatten.length = records.edges.length := by
    rw [flatten_buckets, List.length_map,
      (flatten_sortedEdges_perm hnodup fun e he => (hrefs e he).1).length_eq]
  rw [map_sortBucket_filedEdges, offsetsFrom_eq_ok (by omega), ok_bind]
  refine (ensures_relationIndexes hE hnodup hrelations hrefs).bind fun indexes hindexes => ?_
  have hcompilable : records.Compilable :=
    ⟨hnodup, hrelations, rejectDuplicate_sortIds.1 hedges, hrefs, hcount, hbytes, hindexes⟩
  exact ensures_of_forall (fun _ => hcompilable) fun _ _ => hcompilable

/-! ## What a compiled image says -/

/-- The image denotes the records: its tables are the identifiers in order, and the outgoing edges
of each node are the records with that source in the order of their identifiers. -/
structure RoutingImage.Denotes (image : RoutingImage) (records : ConfirmedGraphRecords) : Prop where
  nodes_ascending : image.denseToExternal.Pairwise (· < ·)
  nodes : image.denseToExternal.Perm records.nodeIds
  denseNodeId_iff : ∀ x d, image.denseNodeId x = some d ↔ image.externalNodeId d = some x
  relations_ascending : image.confirmedRelationIds.Pairwise (· < ·)
  relations : image.confirmedRelationIds.Perm records.relationIds
  offsets_length : image.offsets.length = records.nodes.length + 1
  offsets_head : image.offsets.head? = some 0
  offsets_last : image.offsets.getLast? = some records.edges.length
  offsets_mono : image.offsets.Pairwise (· ≤ ·)
  outgoing : ∀ d x, image.externalNodeId d = some x → ∃ start stop es,
    image.outgoingRange d = some (start, stop) ∧
    es.Perm (records.edges.filter fun e => decide (e.source = x)) ∧
    es.Pairwise (fun a b => a.id < b.id) ∧
    List.Forall₂ (fun i e => ∃ destination position,
      image.denseNodeId e.destination = some destination ∧
      binarySearch image.confirmedRelationIds e.relationKind = some position.val ∧
      image.edgeAt i = some ⟨e.id, destination, e.relationKind, e.baseWeight, position⟩)
      (List.range' start (stop - start)) es

namespace ConfirmedGraphRecords

variable {records records' : ConfirmedGraphRecords}

/-- The adjacency entry of a filed edge. -/
lemma edgeAt_eq {i : ℕ} {e : EdgeRecord}
    (hi : records.buckets.flatten[i]? = some (records.compileEdge e)) :
    records.compiledImage.edgeAt i = some ⟨e.id, (records.compileEdge e).destination,
      e.relationKind, e.baseWeight, records.relationPosition e.relationKind⟩ := by
  have hread : ∀ {β : Type} (f : CompiledEdge → β), (records.buckets.flatten.map f)[i]? =
      some (f (records.compileEdge e)) := by
    intro β f
    rw [List.getElem?_map, hi, Option.map_some]
  have hids : records.compiledImage.edgeIds[i]? = some _ := hread _
  have hdestinations : records.compiledImage.destinations[i]? = some _ := hread _
  have hrelations : records.compiledImage.relationIds[i]? = some _ := hread _
  have hindexes : records.compiledImage.relationIndexes[i]? = some _ := hread _
  have hbits : records.compiledImage.baseWeightBits[i]? = some _ := hread _
  simp only [RoutingImage.edgeAt, hids, hdestinations, hrelations, hindexes, hbits,
    Option.bind_eq_bind, Option.bind_some, BaseWeight.fromBits_toBits]
  rfl

/-- The outgoing edges of one node. -/
lemma Compilable.outgoing (h : records.Compilable) {d : DenseNodeId} {x : NodeId}
    (hd : records.compiledImage.externalNodeId d = some x) : ∃ start stop es,
    records.compiledImage.outgoingRange d = some (start, stop) ∧
    es.Perm (records.edges.filter fun e => decide (e.source = x)) ∧
    es.Pairwise (fun a b => a.id < b.id) ∧
    List.Forall₂ (fun i e => ∃ destination position,
      records.compiledImage.denseNodeId e.destination = some destination ∧
      binarySearch records.compiledImage.confirmedRelationIds e.relationKind =
        some position.val ∧
      records.compiledImage.edgeAt i =
        some ⟨e.id, destination, e.relationKind, e.baseWeight, position⟩)
      (List.range' start (stop - start)) es := by
  have hbucket := getElem?_buckets hd
  have hlt : d.asUsize < records.buckets.length := (List.getElem?_eq_some_iff.1 hbucket).1
  have hrange : records.compiledImage.outgoingRange d = some
      (Csr.offset records.buckets d.asUsize, Csr.offset records.buckets (d.asUsize + 1)) :=
    RoutingImage.WellFormed.outgoingRange_eq_some.2
      ⟨Csr.getElem?_offsets (by omega), Csr.getElem?_offsets (by omega)⟩
  refine ⟨_, _, _, hrange, List.perm_insertionSort _ _, h.sorted_strict x, ?_⟩
  have hstop := Csr.offset_succ hbucket
  rw [List.length_map] at hstop
  rw [hstop, Nat.add_sub_cancel_left]
  refine List.forall₂_iff_get.2 ⟨by rw [List.length_range'], fun i hi hi' => ?_⟩
  rw [List.get_eq_getElem, List.get_eq_getElem, List.getElem_range', Nat.one_mul]
  have hmem : ((records.edges.filter fun e => decide (e.source = x)).insertionSort
      fun a b => a.id ≤ b.id)[i] ∈ records.edges :=
    List.mem_of_mem_filter ((List.perm_insertionSort _ _).mem_iff.1 (List.getElem_mem hi'))
  refine ⟨_, _, h.destination_eq hmem, h.position_of_mem hmem, edgeAt_eq ?_⟩
  rw [Csr.getElem?_flatten hbucket (by simpa using hi'), List.getElem?_map,
    List.getElem?_eq_getElem hi', Option.map_some]

lemma Compilable.denotes (h : records.Compilable) : records.compiledImage.Denotes records := by
  have wf : records.compiledImage.WellFormed := compileRoutingImage_wellFormed h.compile_eq
  have hnodes : records.compiledImage.nodeCount = records.nodes.length := length_nodeTable records
  have hedges : records.compiledImage.adjacencyCount = records.edges.length := by
    show (records.buckets.flatten.map (·.edge)).length = _
    rw [List.length_map, h.length_flatten]
  refine
    { nodes_ascending := wf.nodes_ascending
      nodes := sortIds_perm
      denseNodeId_iff := fun x d => wf.denseNodeId_eq_some
      relations_ascending := wf.relations_ascending
      relations := sortIds_perm
      offsets_length := ?_
      offsets_head := ?_
      offsets_last := ?_
      offsets_mono := wf.offsets_mono
      outgoing := fun d x hd => h.outgoing hd }
  · rw [wf.offsets_length, hnodes]
  · rw [List.head?_eq_getElem?, wf.offsets_head]
  · rw [List.getLast?_eq_getElem?, wf.offsets_length, Nat.add_sub_cancel, wf.offsets_last, hedges]

/-! ## The order of the records -/

/-- The same records in another order. -/
structure Reordered (records' records : ConfirmedGraphRecords) : Prop where
  nodes : records'.nodes.Perm records.nodes
  relationKinds : records'.relationKinds.Perm records.relationKinds
  edges : records'.edges.Perm records.edges

namespace Reordered

variable (h : Reordered records' records)

include h

lemma nodeIds_perm : records'.nodeIds.Perm records.nodeIds := h.nodes.map _

lemma relationIds_perm : records'.relationIds.Perm records.relationIds := h.relationKinds.map _

lemma compilable (hc : records.Compilable) : records'.Compilable where
  nodes_nodup := h.nodeIds_perm.nodup_iff.2 hc.nodes_nodup
  relations_nodup := h.relationIds_perm.nodup_iff.2 hc.relations_nodup
  edges_nodup := (h.edges.map _).nodup_iff.2 hc.edges_nodup
  references e he := by
    obtain ⟨hs, hd, hr⟩ := hc.references e (h.edges.mem_iff.1 he)
    exact ⟨h.nodeIds_perm.mem_iff.2 hs, h.nodeIds_perm.mem_iff.2 hd,
      h.relationIds_perm.mem_iff.2 hr⟩
  node_count := by
    rw [h.nodes.length_eq]
    exact hc.node_count
  bytes := by
    rw [h.nodes.length_eq, h.edges.length_eq, h.relationKinds.length_eq]
    exact hc.bytes
  relation_index e he := by
    rw [(h.relationIds_perm.filter _).length_eq]
    exact hc.relation_index e (h.edges.mem_iff.1 he)

/-- The edges of a node have one ascending order. -/
lemma sortedEdges_eq (hc : records.Compilable) : records'.sortedEdges = records.sortedEdges := by
  rw [sortedEdges, sortedEdges, sortIds_eq_of_perm h.nodeIds_perm, Csr.grouped, Csr.grouped,
    List.map_map, List.map_map]
  refine List.map_congr_left fun x _ => ?_
  have hperm := (List.perm_insertionSort (fun a b : EdgeRecord => a.id ≤ b.id) _).trans
    ((h.edges.filter fun e => decide (e.source = x)).trans
      (List.perm_insertionSort (fun a b : EdgeRecord => a.id ≤ b.id) _).symm)
  exact hperm.eq_of_pairwise (fun a b _ _ hab hba => absurd hba (lt_asymm hab))
    ((h.compilable hc).sorted_strict x) (hc.sorted_strict x)

lemma compiledImage_eq (hc : records.Compilable) :
    records'.compiledImage = records.compiledImage := by
  have hnodes := sortIds_eq_of_perm h.nodeIds_perm
  have hrelations := sortIds_eq_of_perm h.relationIds_perm
  have hcompile : records'.compileEdge = records.compileEdge := by
    funext e
    simp only [compileEdge, hnodes]
  have hposition : records'.relationPosition = records.relationPosition := by
    funext id
    simp only [relationPosition, hrelations]
  have hbuckets : records'.buckets = records.buckets := by
    rw [buckets, buckets, h.sortedEdges_eq hc, hcompile]
  simp only [compiledImage, hnodes, hrelations, hposition, hbuckets, h.nodes.length_eq,
    h.edges.length_eq, h.relationKinds.length_eq]

end Reordered

end ConfirmedGraphRecords

/-- The compiler is correct: it succeeds exactly on the records that satisfy the conditions, never
blames itself, builds an image that denotes the records and does not depend on their order. -/
theorem compileRoutingImage_correct (records : ConfirmedGraphRecords) :
    ((∃ image, compileRoutingImage records = .ok image) ↔ records.Compilable) ∧
    (∀ reason, compileRoutingImage records ≠ .error (.invalidImage reason)) ∧
    (∀ image, compileRoutingImage records = .ok image → image.Denotes records ∧
      ∀ records' : ConfirmedGraphRecords, records'.Reordered records →
        compileRoutingImage records' = .ok image) := by
  have hens := compile_ensures records
  refine ⟨⟨?_, fun h => ⟨_, h.compile_eq⟩⟩, ?_, ?_⟩
  · rintro ⟨image, himage⟩
    exact hens.of_ok himage
  · intro reason hreason
    have h : records.Compilable := hens.of_error hreason rfl
    exact absurd (h.compile_eq.symm.trans hreason) nofun
  · intro image himage
    have h : records.Compilable := hens.of_ok himage
    obtain rfl : records.compiledImage = image := Except.ok.inj (h.compile_eq.symm.trans himage)
    refine ⟨h.denotes, fun records' hreordered => ?_⟩
    rw [← hreordered.compiledImage_eq h]
    exact (hreordered.compilable h).compile_eq

end PathHydra
