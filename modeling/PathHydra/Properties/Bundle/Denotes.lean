import PathHydra.Properties.Bundle.Codec
import PathHydra.Properties.Routing.Compile

/-!
# What an opened bundle denotes

A bundle describes its edges three times: in the source directory, in the segments of each
partition, and by the order in which the partitions hold them.  `RoutingBundle.Sound` says that the
three agree: the indexes of a source show the edges of its segments, in the order of the ordinals
and with ascending edges.

Opening a bundle checks the directory against the segments and not against the order in which they
are stored.  `openBundle_sound_iff` says exactly what is missing: the segments are in the order of
the sources, and the edges of a source ascend from one segment to the next.
-/

namespace PathHydra

/-! ## Stored segments -/

/-- A segment where it is stored, with the edges it holds. -/
structure StoredSegment where
  partition : ℕ
  localSegment : ℕ
  segment : DecodedSegment
  ids : List U64
  deriving DecidableEq

namespace StoredSegment

def source (g : StoredSegment) : ℕ := g.segment.source.val

def count (g : StoredSegment) : ℕ := g.segment.count.val

/-- The places of the edges: their partition and their index there. -/
def places (g : StoredSegment) : List (ℕ × ℕ) :=
  (List.range' g.segment.start.val g.count).map fun i => (g.partition, i)

/-- The order of the ordinals. -/
def ordinalLe (a b : StoredSegment) : Prop := a.segment.firstOrdinal ≤ b.segment.firstOrdinal

instance : DecidableRel ordinalLe := fun a b =>
  inferInstanceAs (Decidable (a.segment.firstOrdinal ≤ b.segment.firstOrdinal))

instance : Std.Total ordinalLe := ⟨fun a b => le_total a.segment.firstOrdinal b.segment.firstOrdinal⟩

instance : IsTrans StoredSegment ordinalLe := ⟨fun _ _ _ hab hbc => le_trans hab hbc⟩

/-- One segment belongs before another. -/
def Before (a b : StoredSegment) : Prop :=
  a.source < b.source ∨ a.source = b.source ∧
    a.ordinalLe b ∧ ∀ x ∈ a.ids, ∀ y ∈ b.ids, x < y

@[simp] lemma length_places (g : StoredSegment) : g.places.length = g.count := by simp [places]

end StoredSegment

/-- The segments of a partition with the given number. -/
def DecodedPartition.stored (d : DecodedPartition) (k : ℕ) : List StoredSegment :=
  d.segments.zipIdx.map fun sj =>
    ⟨k, sj.2, sj.1, (d.edges.drop sj.1.start.val).take sj.1.count.val⟩

namespace RoutingBundle

variable (checksum : Bytes → Digest) (dir : BundleDirectory) (bundle : RoutingBundle)

/-- All segments, partition after partition. -/
def stored : List StoredSegment :=
  bundle.manifest.partitions.zipIdx.flatMap fun pk =>
    match bundle.loadPartition checksum dir pk.1 with
    | .error _ => []
    | .ok d => d.stored pk.2

/-- The segments of a source in the order of their ordinals. -/
def segmentsOf (source : ℕ) : List StoredSegment :=
  ((bundle.stored checksum dir).filter fun g => decide (g.source = source)).insertionSort
    StoredSegment.ordinalLe

/-- The adjacency indexes of a source. -/
def outgoing (source : DenseNodeId) : List ℕ :=
  match bundle.outgoingRange source with
  | none => []
  | some (start, stop) => List.range' start (stop - start)

/-- The bundle denotes one image. -/
structure Sound : Prop where
  /-- A source shows the edges of its segments, in order and ascending. -/
  reads : ∀ source : DenseNodeId, source.asUsize < bundle.nodes.length →
    (bundle.outgoing source).map bundle.locate =
      (bundle.segmentsOf checksum dir source.asUsize).flatMap StoredSegment.places ∧
    ∃ edges : List OutgoingEdge,
      (bundle.outgoing source).map (bundle.edgeAt checksum dir) = edges.map .ok ∧
      edges.Pairwise fun a b => a.edgeId < b.edgeId
  /-- Every edge of a partition belongs to one source. -/
  owned : ∀ k p d, bundle.manifest.partitions[k]? = some p →
    bundle.loadPartition checksum dir p = .ok d → ∀ i < d.edges.length,
    ∃! source : DenseNodeId, source.asUsize < bundle.nodes.length ∧
      ∃ index ∈ bundle.outgoing source, bundle.locate index = (k, i)
  /-- The resident image shows the same edges. -/
  resident : ∃ image, bundle.toResidentImage checksum dir = .ok image ∧
    (∀ source, image.outgoingRange source = bundle.outgoingRange source) ∧
    ∀ index edge, image.edgeAt index = some edge ↔ bundle.edgeAt checksum dir index = .ok edge

/-- The segments are stored in the order of their sources, and of the edges of each source. -/
def InOrder : Prop := (bundle.stored checksum dir).Pairwise StoredSegment.Before

end RoutingBundle

/-! ## The order of the partitions -/

section Opened

variable {checksum : Bytes → Digest} {dir : BundleDirectory} {bundle : RoutingBundle}
  {parts : List DecodedPartition}

namespace Opened

lemma stored_eq (o : Opened checksum dir bundle parts) :
    bundle.stored checksum dir = parts.zipIdx.flatMap fun dk => dk.1.stored dk.2 := by
  have hgeneral : ∀ {ps : List PartitionDescriptor} {ds : List DecodedPartition},
      List.Forall₂ (fun p d => bundle.loadPartition checksum dir p = .ok d) ps ds → ∀ k,
      ((ps.zipIdx k).flatMap fun pk => match bundle.loadPartition checksum dir pk.1 with
        | .error _ => []
        | .ok d => d.stored pk.2) = (ds.zipIdx k).flatMap fun dk => dk.1.stored dk.2 := by
    intro ps ds h
    induction h with
    | nil => intro k; rfl
    | cons hpd _ ih =>
      intro k
      rw [List.zipIdx_cons, List.zipIdx_cons, List.flatMap_cons, List.flatMap_cons, ih (k + 1), hpd]
  exact hgeneral o.loads 0

lemma places_stored {d : DecodedPartition} {p : PartitionDescriptor} {n m : ℕ} (h : d.Valid p n m)
    (k : ℕ) : (d.stored k).flatMap StoredSegment.places =
      (List.range d.edges.length).map fun i => (k, i) := by
  rw [h.edges_length, ← h.tiles, List.map_flatMap, DecodedPartition.stored, List.flatMap_map]
  have hzip : d.segments = d.segments.zipIdx.map (·.1) := by simp
  conv_rhs => rw [hzip, List.flatMap_map]
  rfl

/-- The places of the segments are the indexes in their order. -/
lemma places_eq (o : Opened checksum dir bundle parts) :
    (bundle.stored checksum dir).flatMap StoredSegment.places =
      (List.range bundle.manifest.adjacencyCount.val).map bundle.locate := by
  have hlocate : bundle.locate = Csr.locate (Csr.offsets (parts.map (·.edges))) := by
    rw [← o.partition_offsets]
    rfl
  rw [hlocate, ← o.adjacency, Csr.map_locate, Csr.places, o.stored_eq, List.flatMap_assoc,
    List.zipIdx_map, List.map_map, ← List.flatMap_def]
  refine List.flatMap_congr fun dk hdk => ?_
  obtain ⟨p, hp⟩ := o.valid dk.1 (List.fst_mem_of_mem_zipIdx hdk)
  rw [places_stored hp]
  rfl

/-! ## The edges of each source -/

lemma mem_stored (o : Opened checksum dir bundle parts) {g : StoredSegment} :
    g ∈ bundle.stored checksum dir ↔ ∃ d, parts[g.partition]? = some d ∧
      d.segments[g.localSegment]? = some g.segment ∧
      g.ids = (d.edges.drop g.segment.start.val).take g.segment.count.val := by
  rw [o.stored_eq, List.mem_flatMap]
  constructor
  · rintro ⟨⟨d, k⟩, hd, hg⟩
    obtain ⟨⟨s, j⟩, hs, rfl⟩ := List.mem_map.1 hg
    exact ⟨d, List.mem_zipIdx_iff_getElem?.1 hd, List.mem_zipIdx_iff_getElem?.1 hs, rfl⟩
  · rintro ⟨d, hd, hs, hids⟩
    refine ⟨(d, g.partition), List.mem_zipIdx_iff_getElem?.2 hd, List.mem_map.2
      ⟨(g.segment, g.localSegment), List.mem_zipIdx_iff_getElem?.2 hs, ?_⟩⟩
    rw [← hids]

/-- No two segments are stored at one place. -/
lemma nodup_stored (o : Opened checksum dir bundle parts) :
    ((bundle.stored checksum dir).map fun g => (g.partition, g.localSegment)).Nodup := by
  have hplaces : ((bundle.stored checksum dir).map fun g => (g.partition, g.localSegment)) =
      Csr.places (parts.map (·.segments)) := by
    rw [o.stored_eq, List.map_flatMap, Csr.places, List.zipIdx_map, List.map_map, ← List.flatMap_def]
    refine List.flatMap_congr fun dk _ => ?_
    rw [DecodedPartition.stored, List.map_map, Function.comp_apply, Prod.map_fst, Prod.map_snd, id,
      List.range_eq_range', ← List.zipIdx_map_snd 0 dk.1.segments, List.map_map]
    rfl
  rw [hplaces]
  exact Csr.nodup_places _

/-- The number of edges a source has in the partitions. -/
def storedTotal (stored : List StoredSegment) (t : ℕ) : ℕ :=
  ((stored.filter fun g => decide (g.source = t)).map StoredSegment.count).sum

/-- The directory has every stored segment. -/
lemma storedTotal_le (o : Opened checksum dir bundle parts) (t : ℕ) :
    storedTotal (bundle.stored checksum dir) t ≤
      edgeTotal (bundle.segments.filter fun g => decide (g.source.val = t)) := by
  let storedKey : StoredSegment → (ℕ × ℕ) × ℕ × ℕ :=
    fun g => ((g.partition, g.localSegment), g.source, g.count)
  let listedKey : SegmentDescriptor → (ℕ × ℕ) × ℕ × ℕ :=
    fun g => ((g.partition.val, g.localSegment.val), g.source.val, g.edgeCount.val)
  have hnodup : ((bundle.stored checksum dir).map storedKey).Nodup := by
    refine List.Nodup.of_map Prod.fst ?_
    rw [List.map_map]
    exact o.nodup_stored
  have hsubset : (bundle.stored checksum dir).map storedKey ⊆ bundle.segments.map listedKey := by
    intro key hkey
    obtain ⟨g, hg, rfl⟩ := List.mem_map.1 hkey
    obtain ⟨d, hd, hs, -⟩ := o.mem_stored.1 hg
    obtain ⟨l, hl, hpartition, hlocal, hsource, -, hcount⟩ := o.listed _ d hd _ _ hs
    refine List.mem_map.2 ⟨l, hl, ?_⟩
    simp only [listedKey, storedKey, StoredSegment.source, StoredSegment.count, hpartition, hlocal,
      hsource, hcount]
  obtain ⟨l, hperm, hsublist⟩ :=
    (List.Nodup.subperm hnodup hsubset).filter fun key => decide (key.2.1 = t)
  have hsum := ((hsublist.map fun key => key.2.2).sum_le_sum fun _ _ => Nat.zero_le _)
  rw [(hperm.map fun key => key.2.2).sum_eq, List.filter_map, List.filter_map, List.map_map,
    List.map_map] at hsum
  exact hsum

lemma stored_segment (o : Opened checksum dir bundle parts) {g : StoredSegment}
    (hg : g ∈ bundle.stored checksum dir) : g.source < bundle.nodes.length ∧ 0 < g.count := by
  obtain ⟨d, hd, hs, -⟩ := o.mem_stored.1 hg
  obtain ⟨p, hp⟩ := o.valid d (List.mem_of_getElem? hd)
  exact ⟨hp.source_lt _ (List.mem_of_getElem? hs), hp.count_pos _ (List.mem_of_getElem? hs)⟩

/-- The edges of every source: the places of its segments, as they are stored. -/
def rows (stored : List StoredSegment) (n : ℕ) : List (List (ℕ × ℕ)) :=
  (Csr.grouped (List.range n) StoredSegment.source stored).map (List.flatMap StoredSegment.places)

lemma flatten_rows (stored : List StoredSegment) (n : ℕ) : (rows stored n).flatten =
    (Csr.grouped (List.range n) StoredSegment.source stored).flatten.flatMap
      StoredSegment.places := by
  rw [rows, ← List.flatMap_def, ← List.flatMap_id, List.flatMap_assoc]
  rfl

lemma length_flatMap_places (l : List StoredSegment) :
    (l.flatMap StoredSegment.places).length = (l.map StoredSegment.count).sum := by
  rw [List.length_flatMap]
  exact congrArg List.sum (List.map_congr_left fun g _ => g.length_places)

lemma grouped_perm (o : Opened checksum dir bundle parts) :
    (Csr.grouped (List.range bundle.nodes.length) StoredSegment.source
      (bundle.stored checksum dir)).flatten.Perm (bundle.stored checksum dir) :=
  Csr.flatten_grouped_perm List.nodup_range fun _ hg =>
    List.mem_range.2 (o.stored_segment hg).1

lemma offset_rows (stored : List StoredSegment) {n i : ℕ} (hi : i ≤ n) :
    Csr.offset (rows stored n) i = ((List.range i).map (storedTotal stored)).sum := by
  rw [Csr.offset, rows, Csr.grouped, ← List.map_take, ← List.map_take, List.take_range,
    min_eq_left hi, List.map_map, List.map_map]
  exact congrArg List.sum (List.map_congr_left fun t _ => length_flatMap_places _)

lemma length_rows (o : Opened checksum dir bundle parts) :
    (rows (bundle.stored checksum dir) bundle.nodes.length).flatten.length =
      bundle.manifest.adjacencyCount.val := by
  have hlength := congrArg List.length o.places_eq
  rw [List.length_map, List.length_range, length_flatMap_places] at hlength
  rw [← hlength, flatten_rows, length_flatMap_places]
  exact (o.grouped_perm.map _).sum_eq

/-- Every source has as many edges in the partitions as in the directory. -/
lemma storedTotal_eq (o : Opened checksum dir bundle parts) {t : ℕ} (ht : t < bundle.nodes.length) :
    storedTotal (bundle.stored checksum dir) t =
      edgeTotal (bundle.segments.filter fun g => decide (g.source.val = t)) := by
  refine Csr.eq_of_sum_eq (l := List.range bundle.nodes.length) (fun t _ => o.storedTotal_le t) ?_ t
    (List.mem_range.2 ht)
  rw [o.source_total, ← o.length_rows, ← Csr.offset_length]
  have hlength : (rows (bundle.stored checksum dir) bundle.nodes.length).length =
      bundle.nodes.length := by simp [rows, Csr.grouped]
  rw [hlength, offset_rows _ le_rfl]

/-- The ranges of the sources are those of their stored edges. -/
lemma sourceEdgeOffsets_eq (o : Opened checksum dir bundle parts) :
    bundle.sourceEdgeOffsets =
      Csr.offsets (rows (bundle.stored checksum dir) bundle.nodes.length) := by
  rw [o.source_offsets, Csr.offsets, rows, List.length_map, Csr.grouped, List.length_map,
    List.length_range]
  refine List.map_congr_left fun i hi => ?_
  have hi : i ≤ bundle.nodes.length := by have := List.mem_range.1 hi; omega
  rw [← Csr.grouped, ← rows, offset_rows _ hi]
  refine congrArg List.sum (List.map_congr_left fun t ht => ?_)
  have ht := List.mem_range.1 ht
  rw [o.storedTotal_eq (by omega)]

/-! ## Reading edges -/

/-- An edge as the columns of a partition hold it. -/
structure Holds (bundle : RoutingBundle) (d : DecodedPartition) (i : ℕ) (e : OutgoingEdge) : Prop where
  edge : d.edges[i]? = some e.edgeId.asU64
  destination : d.destinations[i]? = some e.destination.asU32
  relation : d.relations[i]? = some e.relationIndex
  weight : d.weights[i]? = some e.baseWeight.toBits
  relationId : bundle.relations[e.relationIndex.val]? = some e.relationId

/-- Every place of a partition holds an edge. -/
lemma exists_holds {d : DecodedPartition} {p : PartitionDescriptor}
    (h : d.Valid p bundle.nodes.length bundle.relations.length) {i : ℕ} (hi : i < d.edges.length) :
    ∃ e, Holds bundle d i e := by
  have hlength := h.edges_length
  obtain ⟨edge, hedge⟩ : ∃ v, d.edges[i]? = some v := ⟨_, List.getElem?_eq_getElem hi⟩
  obtain ⟨destination, hdestination⟩ : ∃ v, d.destinations[i]? = some v :=
    ⟨_, List.getElem?_eq_getElem (by rw [h.destinations_length]; omega)⟩
  obtain ⟨relation, hrelation⟩ : ∃ v, d.relations[i]? = some v :=
    ⟨_, List.getElem?_eq_getElem (by rw [h.relations_length]; omega)⟩
  obtain ⟨bits, hbits⟩ : ∃ v, d.weights[i]? = some v :=
    ⟨_, List.getElem?_eq_getElem (by rw [h.weights_length]; omega)⟩
  obtain ⟨weight, hweight⟩ :=
    Option.isSome_iff_exists.1 (h.weights_canonical bits (List.mem_of_getElem? hbits))
  have hrelationId := List.getElem?_eq_getElem
    (h.relations_lt relation (List.mem_of_getElem? hrelation))
  refine ⟨⟨⟨edge⟩, ⟨destination⟩, _, weight, relation⟩, hedge, hdestination, hrelation, ?_,
    hrelationId⟩
  rw [hbits, BaseWeight.toBits_of_fromBits hweight]

/-- Reading a place shows the edge it holds. -/
lemma storedEdge_eq (o : Opened checksum dir bundle parts) {k i : ℕ} {d : DecodedPartition}
    {e : OutgoingEdge} (hk : parts[k]? = some d) (he : Holds bundle d i e) :
    bundle.storedEdge checksum dir (k, i) = .ok e := by
  obtain ⟨p, hp, hload⟩ := getElem?_of_forall₂ o.loads hk
  simp only [RoutingBundle.storedEdge, hp, hload, RoutingBundle.edgeOf, he.edge, he.destination,
    he.relation, he.weight, he.relationId, BaseWeight.fromBits_toBits, okOr_some, ok_bind]
  rfl

lemma ids_of_holds {d : DecodedPartition} {start n : ℕ} {es : List OutgoingEdge}
    (h : List.Forall₂ (Holds bundle d) (List.range' start n) es) :
    es.map (·.edgeId.asU64) = (d.edges.drop start).take n := by
  induction n generalizing start es with
  | zero =>
    rcases h
    rfl
  | succ n ih =>
    rw [List.range'_succ] at h
    rcases h with _ | ⟨he, hrest⟩
    obtain ⟨hlt, hget⟩ := List.getElem?_eq_some_iff.1 he.edge
    rw [List.drop_eq_getElem_cons hlt, List.take_succ_cons, hget, List.map_cons, ih hrest]

/-- A segment shows its edges. -/
lemma exists_edges (o : Opened checksum dir bundle parts) {g : StoredSegment}
    (hg : g ∈ bundle.stored checksum dir) : ∃ es : List OutgoingEdge,
      g.places.map (bundle.storedEdge checksum dir) = es.map .ok ∧
      es.map (·.edgeId.asU64) = g.ids := by
  obtain ⟨d, hd, hs, hids⟩ := o.mem_stored.1 hg
  obtain ⟨p, hp⟩ := o.valid d (List.mem_of_getElem? hd)
  have hinside : ∀ i ∈ List.range' g.segment.start.val g.count, i < d.edges.length := by
    intro i hi
    rw [hp.edges_length, ← List.mem_range, ← hp.tiles]
    exact List.mem_flatMap.2 ⟨_, List.mem_of_getElem? hs, hi⟩
  obtain ⟨es, hes⟩ := forall₂_of_forall_exists
    (l := List.range' g.segment.start.val g.count) fun i hi => exists_holds hp (hinside i hi)
  refine ⟨es, ?_, ?_⟩
  · rw [StoredSegment.places, List.map_map]
    exact map_eq_map_ok (hes.imp fun i e he => o.storedEdge_eq hd he)
  · rw [hids]
    exact ids_of_holds hes

/-! ## The resident image -/

/-- The columns of some edges. -/
def columnsOf (es : List OutgoingEdge) : RoutingBundle.ImageColumns :=
  ⟨es.map (·.destination.asU32), es.map (·.relationId), es.map (·.relationIndex),
    es.map (·.baseWeight.toBits), es.map (·.edgeId)⟩

lemma foldlM_pushEdge {d : DecodedPartition} {l : List ℕ} {es : List OutgoingEdge}
    (h : List.Forall₂ (Holds bundle d) l es) (pre : List OutgoingEdge) :
    l.foldlM (bundle.pushEdge d) (columnsOf pre) = .ok (columnsOf (pre ++ es)) := by
  induction h generalizing pre with
  | nil => rw [List.append_nil]; rfl
  | @cons i e l es he _ ih =>
    have hpush : bundle.pushEdge d (columnsOf pre) i = .ok (columnsOf (pre ++ [e])) := by
      simp only [RoutingBundle.pushEdge, he.edge, he.destination, he.relation, he.weight,
        he.relationId, okOr_some, ok_bind, columnsOf, List.map_append, List.map_singleton]
      rfl
    rw [List.foldlM_cons, hpush, ok_bind, ih, List.append_assoc, List.singleton_append]

/-- The edges of a partition, place after place. -/
def Shows (bundle : RoutingBundle) (d : DecodedPartition) (es : List OutgoingEdge) : Prop :=
  List.Forall₂ (Holds bundle d) (List.range d.edges.length) es

lemma foldlM_pushPartition {ps : List PartitionDescriptor} {ds : List DecodedPartition}
    (hloads : List.Forall₂ (fun p d => bundle.loadPartition checksum dir p = .ok d) ps ds)
    {ess : List (List OutgoingEdge)} (hess : List.Forall₂ (Shows bundle) ds ess)
    (pre : List OutgoingEdge) :
    ps.foldlM (bundle.pushPartition checksum dir) (columnsOf pre) =
      .ok (columnsOf (pre ++ ess.flatten)) := by
  induction hloads generalizing ess pre with
  | nil =>
    rcases hess
    rw [List.flatten_nil, List.append_nil]
    rfl
  | cons hload _ ih =>
    rcases hess with _ | ⟨hes, hess⟩
    rw [List.foldlM_cons, RoutingBundle.pushPartition, hload, ok_bind, foldlM_pushEdge hes, ok_bind,
      ih hess, List.flatten_cons, List.append_assoc]

lemma lengths_of_shows {ess : List (List OutgoingEdge)}
    (hess : List.Forall₂ (Shows bundle) parts ess) :
    ess.map List.length = (parts.map (·.edges)).map List.length := by
  induction hess with
  | nil => rfl
  | cons hes _ ih =>
    have hlength := hes.length_eq
    rw [List.length_range] at hlength
    rw [List.map_cons, List.map_cons, List.map_cons, ih, hlength]

/-- The edges of the bundle, index after index. -/
lemma edgeAt_eq_ok (o : Opened checksum dir bundle parts) {ess : List (List OutgoingEdge)}
    (hess : List.Forall₂ (Shows bundle) parts ess) {index : ℕ} {e : OutgoingEdge} :
    bundle.edgeAt checksum dir index = .ok e ↔ ess.flatten[index]? = some e := by
  have hlengths := lengths_of_shows hess
  have hlocate : bundle.locate index = Csr.locate (Csr.offsets (parts.map (·.edges))) index := by
    rw [← o.partition_offsets]
    rfl
  have hlength : ess.flatten.length = (parts.map (·.edges)).flatten.length := by
    rw [List.length_flatten, List.length_flatten, hlengths]
  by_cases hindex : index < (parts.map (·.edges)).flatten.length
  · obtain ⟨k, edges, i, hk, hi, rfl⟩ := Csr.exists_of_lt_flatten hindex
    rw [RoutingBundle.edgeAt, hlocate, Csr.locate_offsets hk hi]
    rw [List.getElem?_map, Option.map_eq_some_iff] at hk
    obtain ⟨d, hd, rfl⟩ := hk
    obtain ⟨es, hes⟩ : ∃ es, ess[k]? = some es := by
      have hlt := (List.getElem?_eq_some_iff.1 hd).1
      exact ⟨_, List.getElem?_eq_getElem (by rw [← hess.length_eq]; exact hlt)⟩
    obtain ⟨d', hd', hshows⟩ := getElem?_of_forall₂ hess hes
    obtain rfl : d = d' := Option.some.inj (hd.symm.trans hd')
    have hoffset : Csr.offset (parts.map (·.edges)) k = Csr.offset ess k := by
      rw [Csr.offset, Csr.offset, List.map_take, List.map_take, hlengths]
    have hilt : i < es.length := by
      rw [← hshows.length_eq, List.length_range]
      exact hi
    obtain ⟨j, hj, hholds⟩ := getElem?_of_forall₂ hshows (List.getElem?_eq_getElem hilt)
    rw [List.getElem?_range hi, Option.some.injEq] at hj
    subst hj
    rw [o.storedEdge_eq hd hholds, hoffset, Csr.getElem?_flatten hes hilt,
      List.getElem?_eq_getElem hilt, Except.ok.injEq, Option.some.injEq]
  · have hnone : ess.flatten[index]? = none := List.getElem?_eq_none_iff.2 (by omega)
    have hpartition : bundle.manifest.partitions[(bundle.locate index).1]? = none := by
      rw [hlocate, Csr.locate_of_le (not_lt.1 hindex), List.length_map, ← o.loads.length_eq]
      exact List.getElem?_eq_none_iff.2 le_rfl
    rw [hnone, RoutingBundle.edgeAt, RoutingBundle.storedEdge, hpartition]
    refine iff_of_false (fun h => ?_) (fun h => ?_)
    · cases h
    · cases h

/-- The image of a bundle with the given edges. -/
def residentImage (bundle : RoutingBundle) (es : List OutgoingEdge) : RoutingImage where
  externalToDense := denseMapping bundle.nodes
  denseToExternal := bundle.nodes
  offsets := bundle.sourceEdgeOffsets
  destinations := es.map (·.destination.asU32)
  relationIds := es.map (·.relationId)
  relationIndexes := es.map (·.relationIndex)
  baseWeightBits := es.map (·.baseWeight.toBits)
  edgeIds := es.map (·.edgeId)
  confirmedRelationIds := bundle.relations
  manifest := exactManifest bundle.nodes.length bundle.relations.length es.length

lemma edgeAt_residentImage (es : List OutgoingEdge) (index : ℕ) :
    (residentImage bundle es).edgeAt index = es[index]? := by
  simp only [RoutingImage.edgeAt, residentImage, List.getElem?_map]
  rcases es[index]? with _ | e
  · rfl
  · simp

lemma exists_shows (o : Opened checksum dir bundle parts) :
    ∃ ess, List.Forall₂ (Shows bundle) parts ess := by
  refine forall₂_of_forall_exists fun d hd => ?_
  obtain ⟨p, hp⟩ := o.valid d hd
  exact forall₂_of_forall_exists fun i hi => exists_holds hp (List.mem_range.1 hi)

lemma toResidentImage_eq (o : Opened checksum dir bundle parts) {ess : List (List OutgoingEdge)}
    (hess : List.Forall₂ (Shows bundle) parts ess) :
    bundle.toResidentImage checksum dir = .ok (residentImage bundle ess.flatten) := by
  have hcolumns := foldlM_pushPartition o.loads hess []
  have hlength : ess.flatten.length = bundle.manifest.adjacencyCount.val := by
    rw [← o.adjacency, List.length_flatten, List.length_flatten, lengths_of_shows hess]
  have hidentities := o.identities_lt
  have hadjacency := o.adjacency_lt
  have hmanifest := manifest_eq (n := bundle.nodes.length) (r := bundle.relations.length)
    (m := ess.flatten.length) (by omega) (by omega) (by omega)
  rw [RoutingBundle.toResidentImage,
    show (⟨[], [], [], [], []⟩ : RoutingBundle.ImageColumns) = columnsOf [] from rfl, hcolumns,
    ok_bind, List.nil_append]
  simp only [columnsOf, List.length_map, hmanifest]
  rfl

/-- The image made of the partitions shows the same edges. -/
lemma resident (o : Opened checksum dir bundle parts) :
    ∃ image, bundle.toResidentImage checksum dir = .ok image ∧
      (∀ source, image.outgoingRange source = bundle.outgoingRange source) ∧
      ∀ index edge, image.edgeAt index = some edge ↔
        bundle.edgeAt checksum dir index = .ok edge := by
  obtain ⟨ess, hess⟩ := o.exists_shows
  refine ⟨_, o.toResidentImage_eq hess, fun source => rfl, fun index e => ?_⟩
  rw [edgeAt_residentImage, o.edgeAt_eq_ok hess]

/-! ## The ranges of the sources -/

lemma locate_eq (o : Opened checksum dir bundle parts) (index : ℕ) :
    bundle.locate index = Csr.locate (Csr.offsets (parts.map (·.edges))) index := by
  rw [← o.partition_offsets]
  rfl

lemma getElem?_rows (stored : List StoredSegment) {n t : ℕ} (ht : t < n) :
    (rows stored n)[t]? = some ((stored.filter fun g => decide (g.source = t)).flatMap
      StoredSegment.places) := by
  rw [rows, List.getElem?_map, Csr.getElem?_grouped (List.getElem?_range ht), Option.map_some]

lemma outgoingRange_eq (o : Opened checksum dir bundle parts) {source : DenseNodeId}
    (hsource : source.asUsize < bundle.nodes.length) :
    bundle.outgoingRange source =
      some (Csr.offset (rows (bundle.stored checksum dir) bundle.nodes.length) source.asUsize,
        Csr.offset (rows (bundle.stored checksum dir) bundle.nodes.length)
          (source.asUsize + 1)) := by
  have hlength : (rows (bundle.stored checksum dir) bundle.nodes.length).length =
      bundle.nodes.length := by simp [rows, Csr.grouped]
  rw [RoutingBundle.outgoingRange, o.sourceEdgeOffsets_eq,
    Csr.getElem?_offsets (by omega), Csr.getElem?_offsets (by omega)]
  rfl

lemma mem_outgoing (o : Opened checksum dir bundle parts) {source : DenseNodeId}
    (hsource : source.asUsize < bundle.nodes.length) {index : ℕ} :
    index ∈ bundle.outgoing source ↔
      Csr.offset (rows (bundle.stored checksum dir) bundle.nodes.length) source.asUsize ≤ index ∧
      index < Csr.offset (rows (bundle.stored checksum dir) bundle.nodes.length)
        (source.asUsize + 1) := by
  rw [RoutingBundle.outgoing, o.outgoingRange_eq hsource]
  simp only [List.mem_range'_1]
  omega

/-- Every edge of a partition lies in the range of one source. -/
lemma owned (o : Opened checksum dir bundle parts) {k i : ℕ} {p : PartitionDescriptor}
    {d : DecodedPartition} (hp : bundle.manifest.partitions[k]? = some p)
    (hload : bundle.loadPartition checksum dir p = .ok d) (hi : i < d.edges.length) :
    ∃! source : DenseNodeId, source.asUsize < bundle.nodes.length ∧
      ∃ index ∈ bundle.outgoing source, bundle.locate index = (k, i) := by
  have hd : parts[k]? = some d := by
    have hlt := (List.getElem?_eq_some_iff.1 hp).1
    rw [o.loads.length_eq] at hlt
    obtain ⟨p', hp', hload'⟩ := getElem?_of_forall₂ o.loads (List.getElem?_eq_getElem hlt)
    rw [hp, Option.some.injEq] at hp'
    rw [← hp', hload, Except.ok.injEq] at hload'
    rw [List.getElem?_eq_getElem hlt, hload']
  have hk : (parts.map (·.edges))[k]? = some d.edges := by rw [List.getElem?_map, hd, Option.map_some]
  have hlt : Csr.offset (parts.map (·.edges)) k + i < (parts.map (·.edges)).flatten.length := by
    have hle := Csr.offset_mono (parts.map (·.edges))
      (show k + 1 ≤ (parts.map (·.edges)).length from (List.getElem?_eq_some_iff.1 hk).1)
    rw [Csr.offset_succ hk, Csr.offset_length] at hle
    omega
  obtain ⟨t, row, j, hrow, hj, hindex⟩ := Csr.exists_of_lt_flatten
    (show Csr.offset (parts.map (·.edges)) k + i <
      (rows (bundle.stored checksum dir) bundle.nodes.length).flatten.length by
    rw [o.length_rows, ← o.adjacency]; exact hlt)
  have ht : t < bundle.nodes.length := by
    simpa [rows, Csr.grouped] using (List.getElem?_eq_some_iff.1 hrow).1
  -- the source of an edge is the source of a segment
  have hdense : t < 2 ^ 32 := by
    rw [getElem?_rows _ ht, Option.some.injEq] at hrow
    obtain ⟨place, hplace⟩ := List.exists_mem_of_length_pos (show 0 < row.length by omega)
    rw [← hrow] at hplace
    obtain ⟨g, hg, -⟩ := List.mem_flatMap.1 hplace
    have hsource : g.source = t := by simpa using (List.mem_filter.1 hg).2
    rw [← hsource]
    exact g.segment.source.isLt
  have hcast := DenseNodeId.asUsize_ofNat hdense
  have hsucc := Csr.offset_succ hrow
  refine ⟨DenseNodeId.ofNat t, ⟨by rw [hcast]; exact ht,
    Csr.offset (parts.map (·.edges)) k + i, ?_, ?_⟩, ?_⟩
  · rw [o.mem_outgoing (by rw [hcast]; exact ht), hcast]
    omega
  · rw [o.locate_eq, Csr.locate_offsets hk hi]
  · rintro source ⟨hsource, index, hmem, hlocate⟩
    rw [o.mem_outgoing hsource] at hmem
    have hbound : index < (parts.map (·.edges)).flatten.length := by
      have hle := Csr.offset_mono (rows (bundle.stored checksum dir) bundle.nodes.length)
        (show source.asUsize + 1 ≤ (rows (bundle.stored checksum dir) bundle.nodes.length).length by
          simp only [rows, Csr.grouped, List.length_map, List.length_range]
          omega)
      rw [Csr.offset_length, o.length_rows, ← o.adjacency] at hle
      omega
    rw [o.locate_eq, ← Csr.locate_offsets hk hi] at hlocate
    have heq := Csr.locate_inj hbound hlt hlocate
    have hunique := Csr.bucket_unique (n := index) hmem.1 hmem.2 (j := t) (by omega) (by omega)
    exact DenseNodeId.asUsize_injective (by rw [hcast, hunique])

lemma mem_segmentsOf {t : ℕ} {g : StoredSegment} :
    g ∈ bundle.segmentsOf checksum dir t ↔ g ∈ bundle.stored checksum dir ∧ g.source = t := by
  rw [RoutingBundle.segmentsOf, List.mem_insertionSort, List.mem_filter, decide_eq_true_eq]

/-- The indexes of a source are a slice of the places. -/
lemma map_locate_outgoing (o : Opened checksum dir bundle parts) {source : DenseNodeId}
    (hsource : source.asUsize < bundle.nodes.length) :
    (bundle.outgoing source).map bundle.locate =
      (((bundle.stored checksum dir).flatMap StoredSegment.places).take
        (Csr.offset (rows (bundle.stored checksum dir) bundle.nodes.length)
          (source.asUsize + 1))).drop
        (Csr.offset (rows (bundle.stored checksum dir) bundle.nodes.length) source.asUsize) := by
  have hle := Csr.offset_mono (rows (bundle.stored checksum dir) bundle.nodes.length)
    (show source.asUsize + 1 ≤ (rows (bundle.stored checksum dir) bundle.nodes.length).length by
      simp only [rows, Csr.grouped, List.length_map, List.length_range]
      omega)
  rw [Csr.offset_length, o.length_rows] at hle
  rw [o.places_eq, ← List.map_take, ← List.map_drop, RoutingBundle.outgoing,
    o.outgoingRange_eq hsource, List.take_range, min_eq_left hle, List.range_eq_range',
    List.drop_range', Nat.mul_one, Nat.zero_add]

/-- The edges of some segments ascend when their identifiers do. -/
lemma ascending_iff (o : Opened checksum dir bundle parts) {indexes : List ℕ}
    {l : List StoredSegment} (hl : ∀ g ∈ l, g ∈ bundle.stored checksum dir)
    (hplaces : indexes.map bundle.locate = l.flatMap StoredSegment.places) :
    (∃ edges : List OutgoingEdge, indexes.map (bundle.edgeAt checksum dir) = edges.map .ok ∧
      edges.Pairwise fun a b => a.edgeId < b.edgeId) ↔
    (l.flatMap StoredSegment.ids).Pairwise (· < ·) := by
  choose! edges hedges hids using fun g => o.exists_edges (g := g)
  have hreads : indexes.map (bundle.edgeAt checksum dir) = (l.flatMap edges).map .ok := by
    have hcompose : indexes.map (bundle.edgeAt checksum dir) =
        (indexes.map bundle.locate).map (bundle.storedEdge checksum dir) := by
      rw [List.map_map]
      rfl
    rw [hcompose, hplaces, List.map_flatMap, List.map_flatMap]
    exact List.flatMap_congr fun g hg => hedges g (hl g hg)
  have hall : l.flatMap StoredSegment.ids = (l.flatMap edges).map (·.edgeId.asU64) := by
    rw [List.map_flatMap]
    exact List.flatMap_congr fun g hg => (hids g (hl g hg)).symm
  rw [hall, List.pairwise_map]
  constructor
  · rintro ⟨es, hes, hpairwise⟩
    rw [hreads] at hes
    have heq := List.map_injective_iff.2 (fun _ _ h => Except.ok.inj h) hes
    rw [heq]
    exact hpairwise
  · intro hpairwise
    exact ⟨_, hreads, hpairwise⟩

/-- Sources beyond the dense identifiers have no segments. -/
lemma segmentsOf_eq_nil {t : ℕ} (ht : 2 ^ 32 ≤ t) : bundle.segmentsOf checksum dir t = [] := by
  refine List.eq_nil_iff_forall_not_mem.2 fun g hg => ?_
  have hlt : g.source < 2 ^ 32 := g.segment.source.isLt
  have hsource := (mem_segmentsOf.1 hg).2
  omega

lemma segmentsOf_perm (o : Opened checksum dir bundle parts) :
    ((List.range bundle.nodes.length).flatMap (bundle.segmentsOf checksum dir)).Perm
      (bundle.stored checksum dir) := by
  refine List.Perm.trans ?_ o.grouped_perm
  rw [Csr.grouped, ← List.flatMap_def]
  exact List.Perm.flatMap_left _ fun t _ => List.perm_insertionSort _ _

lemma nodup_flatMap_places (o : Opened checksum dir bundle parts) :
    ((bundle.stored checksum dir).flatMap StoredSegment.places).Nodup := by
  have hlocate : bundle.locate = Csr.locate (Csr.offsets (parts.map (·.edges))) :=
    funext o.locate_eq
  rw [o.places_eq, hlocate, ← o.adjacency, Csr.map_locate]
  exact Csr.nodup_places _

/-- When every source reads its own segments, these are all there is, source after source. -/
lemma flatMap_segmentsOf_eq (o : Opened checksum dir bundle parts)
    (hreads : ∀ source : DenseNodeId, source.asUsize < bundle.nodes.length →
      (bundle.outgoing source).map bundle.locate =
        (bundle.segmentsOf checksum dir source.asUsize).flatMap StoredSegment.places) :
    (List.range bundle.nodes.length).flatMap (bundle.segmentsOf checksum dir) =
      bundle.stored checksum dir := by
  let bound := Csr.offset (rows (bundle.stored checksum dir) bundle.nodes.length)
  have hslice : ∀ t < bundle.nodes.length,
      (((bundle.stored checksum dir).flatMap StoredSegment.places).take (bound (t + 1))).drop
        (bound t) = (bundle.segmentsOf checksum dir t).flatMap StoredSegment.places := by
    intro t ht
    by_cases hdense : t < 2 ^ 32
    · have hcast := DenseNodeId.asUsize_ofNat hdense
      have hsource := hreads (DenseNodeId.ofNat t) (by rw [hcast]; exact ht)
      rw [o.map_locate_outgoing (by rw [hcast]; exact ht), hcast] at hsource
      exact hsource
    · -- beyond the dense range there is no source, and its slice is empty
      have hempty : bound (t + 1) = bound t := by
        have hsucc := Csr.offset_succ (getElem?_rows (bundle.stored checksum dir) ht)
        have hnil : (bundle.stored checksum dir).filter (fun g => decide (g.source = t)) = [] := by
          refine List.filter_eq_nil_iff.2 fun g _ => ?_
          have hlt : g.source < 2 ^ 32 := g.segment.source.isLt
          simp only [decide_eq_true_eq]
          omega
        rw [hnil] at hsucc
        exact hsucc
      rw [hempty, segmentsOf_eq_nil (not_lt.1 hdense), List.drop_eq_nil_of_le]
      · rfl
      · rw [List.length_take]
        exact min_le_left _ _
  -- the slices make up the whole list of stored places
  have hplaces : ((List.range bundle.nodes.length).flatMap
      (bundle.segmentsOf checksum dir)).flatMap StoredSegment.places =
        (bundle.stored checksum dir).flatMap StoredSegment.places := by
    have hslices := Csr.flatten_slices
      ((bundle.stored checksum dir).flatMap StoredSegment.places) bound rfl
      (n := bundle.nodes.length) fun i _ => Csr.offset_le_succ _ _
    have hend : bound bundle.nodes.length =
        ((bundle.stored checksum dir).flatMap StoredSegment.places).length := by
      have hlength : (rows (bundle.stored checksum dir) bundle.nodes.length).length =
          bundle.nodes.length := by simp [rows, Csr.grouped]
      have hall := o.length_rows
      rw [← Csr.offset_length, hlength] at hall
      rw [o.places_eq, List.length_map, List.length_range]
      exact hall
    rw [hend, List.take_length] at hslices
    rw [← hslices, List.flatMap_assoc, List.flatMap_def]
    refine congrArg List.flatten (List.map_congr_left fun t ht => ?_)
    exact (hslice t (List.mem_range.1 ht)).symm
  refine Csr.eq_of_flatMap_eq o.segmentsOf_perm (fun g hg hnil => ?_) o.nodup_flatMap_places hplaces
  have hpos := (o.stored_segment hg).2
  rw [← g.length_places, hnil] at hpos
  exact absurd hpos (lt_irrefl _)

/-- When every source reads its own segments, these are stored in order. -/
lemma inOrder_of_reads (o : Opened checksum dir bundle parts)
    (hreads : ∀ source : DenseNodeId, source.asUsize < bundle.nodes.length →
      (bundle.outgoing source).map bundle.locate =
        (bundle.segmentsOf checksum dir source.asUsize).flatMap StoredSegment.places)
    (hids : ∀ source : DenseNodeId, source.asUsize < bundle.nodes.length →
      ((bundle.segmentsOf checksum dir source.asUsize).flatMap StoredSegment.ids).Pairwise
        (· < ·)) :
    bundle.InOrder checksum dir := by
  rw [RoutingBundle.InOrder, ← o.flatMap_segmentsOf_eq hreads, List.pairwise_flatMap]
  refine ⟨fun t ht => ?_, List.pairwise_lt_range.imp fun hlt a ha b hb => ?_⟩
  · have hordinals := List.pairwise_insertionSort StoredSegment.ordinalLe
      ((bundle.stored checksum dir).filter fun g => decide (g.source = t))
    by_cases hdense : t < 2 ^ 32
    · have hcast := DenseNodeId.asUsize_ofNat hdense
      have hids := hids (DenseNodeId.ofNat t) (by rw [hcast]; exact List.mem_range.1 ht)
      rw [hcast] at hids
      refine List.Pairwise.imp_of_mem (fun {a b} ha hb hab => ?_)
        (List.Pairwise.and hordinals (List.pairwise_flatMap.1 hids).2)
      exact Or.inr ⟨by rw [(mem_segmentsOf.1 ha).2, (mem_segmentsOf.1 hb).2], hab.1, hab.2⟩
    · rw [segmentsOf_eq_nil (not_lt.1 hdense)]
      exact List.Pairwise.nil
  · left
    rw [(mem_segmentsOf.1 ha).2, (mem_segmentsOf.1 hb).2]
    exact hlt

/-- Segments in order are read by their sources. -/
lemma reads_of_inOrder (o : Opened checksum dir bundle parts) (h : bundle.InOrder checksum dir)
    {source : DenseNodeId} (hsource : source.asUsize < bundle.nodes.length) :
    (bundle.outgoing source).map bundle.locate =
        (bundle.segmentsOf checksum dir source.asUsize).flatMap StoredSegment.places ∧
      ((bundle.segmentsOf checksum dir source.asUsize).flatMap StoredSegment.ids).Pairwise
        (· < ·) := by
  have hfilter : ((bundle.stored checksum dir).filter fun g =>
      decide (g.source = source.asUsize)).Pairwise fun a b =>
        a.ordinalLe b ∧ ∀ x ∈ a.ids, ∀ y ∈ b.ids, x < y := by
    refine List.Pairwise.imp_of_mem (fun {a b} ha hb hab => ?_) (h.filter _)
    have hsa : a.source = source.asUsize := by simpa using (List.mem_filter.1 ha).2
    have hsb : b.source = source.asUsize := by simpa using (List.mem_filter.1 hb).2
    rcases hab with hlt | ⟨-, hrest⟩
    · omega
    · exact hrest
  have hsorted : bundle.segmentsOf checksum dir source.asUsize =
      (bundle.stored checksum dir).filter fun g => decide (g.source = source.asUsize) :=
    List.Pairwise.insertionSort_eq (hfilter.imp fun hab => hab.1)
  constructor
  · have hgroups := Csr.flatten_grouped_of_sorted List.pairwise_lt_range
      (fun g hg => List.mem_range.2 (o.stored_segment hg).1)
      (h.imp (S := fun a b => a.source ≤ b.source) fun hab => by
        rcases hab with hlt | ⟨heq, -⟩
        · exact hlt.le
        · exact heq.le)
    have hslice := Csr.drop_take_flatten (getElem?_rows (bundle.stored checksum dir) hsource)
    rw [flatten_rows, hgroups] at hslice
    rw [o.map_locate_outgoing hsource, hslice, hsorted]
  · rw [hsorted, List.pairwise_flatMap]
    refine ⟨fun g hg => ?_, hfilter.imp fun hab => hab.2⟩
    obtain ⟨d, hd, hs, hids⟩ := o.mem_stored.1 (List.mem_of_mem_filter hg)
    obtain ⟨p, hp⟩ := o.valid d (List.mem_of_getElem? hd)
    rw [hids]
    exact hp.ascending _ (List.mem_of_getElem? hs)

end Opened

end Opened

/-- A bundle that opens denotes an image exactly when its segments are stored in order. -/
theorem openBundle_sound_iff {checksum : Bytes → Digest} {dir : BundleDirectory}
    {bundle : RoutingBundle} (h : openBundle checksum dir = .ok bundle) :
    bundle.Sound checksum dir ↔ bundle.InOrder checksum dir := by
  obtain ⟨parts, o⟩ := openBundle_opened h
  have hascending : ∀ {source : DenseNodeId},
      (bundle.outgoing source).map bundle.locate =
        (bundle.segmentsOf checksum dir source.asUsize).flatMap StoredSegment.places →
      ((∃ edges : List OutgoingEdge,
        (bundle.outgoing source).map (bundle.edgeAt checksum dir) = edges.map .ok ∧
        edges.Pairwise fun a b => a.edgeId < b.edgeId) ↔
      ((bundle.segmentsOf checksum dir source.asUsize).flatMap StoredSegment.ids).Pairwise
        (· < ·)) :=
    fun hplaces => o.ascending_iff (fun g hg => (Opened.mem_segmentsOf.1 hg).1) hplaces
  constructor
  · intro hsound
    refine o.inOrder_of_reads (fun source hsource => (hsound.reads source hsource).1)
      fun source hsource => ?_
    obtain ⟨hplaces, hedges⟩ := hsound.reads source hsource
    exact (hascending hplaces).1 hedges
  · intro hordered
    refine ⟨fun source hsource => ?_, fun k p d hp hload i hi => o.owned hp hload hi, o.resident⟩
    obtain ⟨hplaces, hids⟩ := o.reads_of_inOrder hordered hsource
    exact ⟨hplaces, (hascending hplaces).2 hids⟩

/-! ## Two sources in one partition -/

/-- Two nodes with one edge each, the segments in the order of the sources or not. -/
def twoSources (swapped : Bool) : BundleContents where
  nodes := [⟨1⟩, ⟨2⟩]
  relations := [⟨1⟩]
  sourceOffsets := [0, 1, 2]
  descriptors := if swapped then [⟨0, 0, 1, 0, 1⟩, ⟨1, 0, 0, 0, 1⟩]
    else [⟨0, 0, 0, 0, 1⟩, ⟨1, 0, 1, 0, 1⟩]
  parts := if swapped then
      [⟨[⟨1, 0, 0, 1⟩, ⟨0, 0, 1, 1⟩], [0, 1], [0, 0], [1065353216, 1065353216], [10, 5]⟩]
    else [⟨[⟨0, 0, 0, 1⟩, ⟨1, 0, 1, 1⟩], [1, 0], [0, 0], [1065353216, 1065353216], [5, 10]⟩]
  target := 4194304
  hardMaximum := 8388608

lemma twoSources_readable (swapped : Bool) :
    ∀ d ∈ (twoSources swapped).parts, d.Readable 2 1 := by
  intro d hd
  have hone : (BaseWeight.fromBits 1065353216).isSome = true := by decide
  rcases swapped
  · obtain rfl := List.mem_singleton.1 hd
    exact ⟨⟨by simp, by simp, by simp, by simp, rfl, rfl, rfl, by simp, by simp,
      by simpa using hone⟩, by decide⟩
  · obtain rfl := List.mem_singleton.1 hd
    exact ⟨⟨by simp, by simp, by simp, by simp, rfl, rfl, rfl, by simp, by simp,
      by simpa using hone⟩, by decide⟩

lemma twoSources_listed (swapped : Bool) (k : ℕ) (d : DecodedPartition)
    (hk : (twoSources swapped).parts[k]? = some d) :
    checkPartitionSegments (twoSources swapped).descriptors (Fin.ofNat (2 ^ 32) k)
      d.segments.zipIdx = .ok () := by
  rcases swapped <;> rcases k with _ | k
  · obtain rfl := Option.some.inj hk
    decide
  · cases hk
  · obtain rfl := Option.some.inj hk
    decide
  · cases hk

lemma twoSources_consistent (swapped : Bool) : (twoSources swapped).Consistent [1, 2] where
  nodes_ascending := (by decide : [⟨1⟩, ⟨2⟩].Pairwise ((· < ·) : NodeId → NodeId → Prop))
  relations_ascending := List.pairwise_singleton _ _
  parts_lt := by rcases swapped <;> decide
  parts_storable := fun d hd => (twoSources_readable swapped d hd).toStorable
  parts_readable := twoSources_readable swapped
  offsets_length := rfl
  offsets_head := rfl
  offsets_last := by rcases swapped <;> rfl
  offsets_mono := (by decide : [0, 1, 2].Pairwise ((· ≤ ·) : U64 → U64 → Prop))
  sources := by rcases swapped <;> decide
  sources_last := by rcases swapped <;> rfl
  listed := twoSources_listed swapped

lemma twoSources_fits (swapped : Bool) {bytes : Bytes} (h : bytes.length < 1000) :
    ∀ f ∈ (twoSources swapped).files bytes, f.2.length < 2 ^ 63 := by
  have hsmall : ∀ f ∈ (twoSources swapped).files bytes, f.2.length < 1000 := by
    simp only [BundleContents.files, List.mem_cons, List.not_mem_nil, or_false]
    rintro f (rfl | rfl | rfl | rfl | rfl)
    · rcases swapped <;> decide
    · rcases swapped <;> decide
    · rcases swapped <;> decide
    · rcases swapped <;> decide
    · exact h
  intro f hf
  exact (hsmall f hf).trans (by decide)

/-- The files of one small partition can be written, whatever the checksum is. -/
lemma BundleContents.exists_holding (checksum : Bytes → Digest) {c : BundleContents}
    (hone : c.parts.length = 1) (hfits : ∀ bytes : Bytes, bytes.length < 1000 →
      ∀ f ∈ c.files bytes, f.2.length < 2 ^ 63) :
    ∃ dir manifestBytes, c.Holding checksum dir manifestBytes := by
  have hparts : (c.manifest checksum).partitions.length = 1 := by
    simpa [BundleContents.manifest] using hone
  obtain ⟨bytes, hbytes⟩ := exists_encode (m := c.manifest checksum)
    (by decide : (strBytes NUMERIC_POLICY_ID).length < 2 ^ 32)
    (by decide : (strBytes TIE_POLICY_ID).length < 2 ^ 32) (by rw [hparts]; decide)
  have hlength := length_of_encode hbytes
  have hnumeric : (strBytes NUMERIC_POLICY_ID).length = 38 := by decide
  have htie : (strBytes TIE_POLICY_ID).length = 41 := by decide
  rw [show (c.manifest checksum).numericPolicy = NUMERIC_POLICY_ID from rfl,
    show (c.manifest checksum).tiePolicy = TIE_POLICY_ID from rfl, hnumeric, htie,
    hparts] at hlength
  exact ⟨⟨_, hfits bytes (by omega)⟩, bytes, rfl, hbytes⟩

lemma exists_holding (checksum : Bytes → Digest) (swapped : Bool) :
    ∃ dir manifestBytes, BundleContents.Holding checksum (twoSources swapped) dir manifestBytes := by
  refine BundleContents.exists_holding checksum ?_ fun _ h => twoSources_fits swapped h
  rcases swapped <;> rfl

/-- The stored segments of the written files. -/
lemma stored_twoSources {checksum : Bytes → Digest} {swapped : Bool} {dir : BundleDirectory}
    {bytes : Bytes} (w : BundleContents.Holding checksum (twoSources swapped) dir bytes) :
    ((twoSources swapped).bundle checksum bytes [1, 2]).stored checksum dir =
      (twoSources swapped).parts.zipIdx.flatMap fun dk => dk.1.stored dk.2 := by
  have hload : ∀ d, (twoSources swapped).parts[0]? = some d →
      ((twoSources swapped).bundle checksum bytes [1, 2]).loadPartition checksum dir
        ((twoSources swapped).describe checksum (d, 0)) = .ok d :=
    fun d hd => w.loadPartition_eq (twoSources_consistent swapped) hd
  rcases swapped
  · rw [RoutingBundle.stored]
    show ([_].flatMap _) = [_].flatMap _
    rw [List.flatMap_singleton, List.flatMap_singleton]
    dsimp only
    rw [hload _ rfl]
  · rw [RoutingBundle.stored]
    show ([_].flatMap _) = [_].flatMap _
    rw [List.flatMap_singleton, List.flatMap_singleton]
    dsimp only
    rw [hload _ rfl]

/-- A bundle that opens and denotes its image. -/
theorem openBundle_sound_twoSources : ∃ (dir : (Bytes → Digest) → BundleDirectory)
    (bytes : (Bytes → Digest) → Bytes), ∀ checksum,
    BundleContents.Holding checksum (twoSources false) (dir checksum) (bytes checksum) ∧
      ∃ bundle, openBundle checksum (dir checksum) = .ok bundle ∧
        bundle.Sound checksum (dir checksum) := by
  choose dir bytes hw using fun checksum => exists_holding checksum false
  refine ⟨dir, bytes, fun checksum => ⟨hw checksum, _,
    (hw checksum).openBundle_eq (twoSources_consistent false), ?_⟩⟩
  refine (openBundle_sound_iff ((hw checksum).openBundle_eq (twoSources_consistent false))).2 ?_
  rw [RoutingBundle.InOrder, stored_twoSources (hw checksum)]
  show List.Pairwise _ [_, _]
  refine List.pairwise_pair.2 (Or.inl ?_)
  show (0 : ℕ) < 1
  decide

/-- A bundle that opens and attributes the edges of one source to another. -/
theorem openBundle_not_sound : ∃ (dir : (Bytes → Digest) → BundleDirectory)
    (bytes : (Bytes → Digest) → Bytes), ∀ checksum,
    BundleContents.Holding checksum (twoSources true) (dir checksum) (bytes checksum) ∧
      ∃ bundle, openBundle checksum (dir checksum) = .ok bundle ∧
        ¬ bundle.Sound checksum (dir checksum) := by
  choose dir bytes hw using fun checksum => exists_holding checksum true
  refine ⟨dir, bytes, fun checksum => ⟨hw checksum, _,
    (hw checksum).openBundle_eq (twoSources_consistent true), fun hsound => ?_⟩⟩
  have hreads := (hsound.reads ⟨0⟩ (show 0 < 2 by decide)).1
  have hsegments : ((twoSources true).bundle checksum (bytes checksum) [1, 2]).segmentsOf checksum
      (dir checksum) 0 = [⟨0, 1, ⟨0, 0, 1, 1⟩, [5]⟩] := by
    rw [RoutingBundle.segmentsOf, stored_twoSources (hw checksum)]
    decide
  rw [show (⟨0⟩ : DenseNodeId).asUsize = 0 from rfl, hsegments] at hreads
  have hlocated : (((twoSources true).bundle checksum (bytes checksum) [1, 2]).outgoing ⟨0⟩).map
      ((twoSources true).bundle checksum (bytes checksum) [1, 2]).locate = [(0, 0)] := by
    show ([0].map (Csr.locate (Csr.offsets (twoSources true).edgeLists))) = _
    decide
  rw [hlocated] at hreads
  cases hreads

end PathHydra
