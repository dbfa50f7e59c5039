import PathHydra.Framework.Csr
import PathHydra.Construction.Bundle.Reader
import PathHydra.Properties.Routing.Image

/-!
# What opening a bundle establishes

`Opened` collects what `openBundle` has checked when it succeeds: the identity tables ascend, every
partition loads and its segments tile its edges, the offsets are the running sums of the directory
and of the partitions, and every stored segment is in the directory.
-/

namespace PathHydra

/-! ## Readers -/

section Readers

variable {α : Type} {r : Reader BundleError α} {P : α → Prop}

/-- A loop that reads a number of values. -/
lemma many_eq_ok (hr : ∀ input rest a, r input = .ok (a, rest) → P a) {n : ℕ}
    {input rest : Bytes} {l : List α} (h : Decoder.many r n input = .ok (l, rest)) :
    l.length = n ∧ ∀ a ∈ l, P a := by
  induction n generalizing input rest l with
  | zero =>
    obtain ⟨rfl, -⟩ := Reader.pure_eq_ok.1 h
    exact ⟨rfl, nofun⟩
  | succ n ih =>
    rw [Decoder.many] at h
    obtain ⟨a, mid, ha, h⟩ := Reader.bind_eq_ok.1 h
    obtain ⟨l', mid', hl, hpure⟩ := Reader.bind_eq_ok.1 h
    obtain ⟨rfl, -⟩ := Reader.pure_eq_ok.1 hpure
    obtain ⟨hlength, hall⟩ := ih hl
    refine ⟨by rw [List.length_cons, hlength], fun b hb => ?_⟩
    rcases List.mem_cons.1 hb with rfl | hb
    · exact hr _ _ _ ha
    · exact hall b hb

lemma length_of_many {n : ℕ} {input rest : Bytes} {l : List α}
    (h : Decoder.many r n input = .ok (l, rest)) : l.length = n :=
  (many_eq_ok (P := fun _ => True) (fun _ _ _ _ => trivial) h).1

end Readers

/-- A loop that reads numbers of eight bytes. -/
lemma length_of_many_u64 {n : ℕ} {input rest : Bytes} {l : List U64}
    (h : Decoder.many Decoder.u64 n input = .ok (l, rest)) :
    input.length = 8 * n + rest.length := by
  induction n generalizing input rest l with
  | zero =>
    obtain ⟨-, rfl⟩ := Reader.pure_eq_ok.1 h
    simp
  | succ n ih =>
    rw [Decoder.many] at h
    obtain ⟨a, mid, ha, h⟩ := Reader.bind_eq_ok.1 h
    obtain ⟨l', mid', hl, hpure⟩ := Reader.bind_eq_ok.1 h
    obtain ⟨-, rfl⟩ := Reader.pure_eq_ok.1 hpure
    obtain ⟨b, mid'', hb, hpure⟩ := Reader.bind_eq_ok.1 ha
    obtain ⟨-, rfl⟩ := Reader.pure_eq_ok.1 hpure
    obtain ⟨rfl, hlength⟩ := Reader.take_eq_ok hb
    rw [List.length_append, hlength, ih hl]
    omega

lemma readIndex_eq_ok {bound : ℕ} {reason : String} {input rest : Bytes} {v : U32}
    (h : readIndex bound reason input = .ok (v, rest)) : v.val < bound := by
  obtain ⟨v', mid, -, h⟩ := Reader.bind_eq_ok.1 h
  split_ifs at h with hle
  · cases h
  · obtain ⟨rfl, -⟩ := Reader.pure_eq_ok.1 h
    exact not_le.1 hle

lemma readWeight_eq_ok {input rest : Bytes} {v : U32} (h : readWeight input = .ok (v, rest)) :
    (BaseWeight.fromBits v).isSome = true := by
  obtain ⟨v', mid, -, h⟩ := Reader.bind_eq_ok.1 h
  split_ifs at h with hnone
  · cases h
  · obtain ⟨rfl, -⟩ := Reader.pure_eq_ok.1 h
    simpa [Option.isSome_iff_ne_none] using hnone

/-! ## One partition -/

/-- What decoding a partition establishes. -/
structure DecodedPartition.Valid (d : DecodedPartition) (p : PartitionDescriptor)
    (nodeCount relationCount : ℕ) : Prop where
  edges_length : d.edges.length = p.edgeCount.val
  destinations_length : d.destinations.length = p.edgeCount.val
  relations_length : d.relations.length = p.edgeCount.val
  weights_length : d.weights.length = p.edgeCount.val
  destinations_lt : ∀ v ∈ d.destinations, v.val < nodeCount
  relations_lt : ∀ v ∈ d.relations, v.val < relationCount
  weights_canonical : ∀ v ∈ d.weights, (BaseWeight.fromBits v).isSome = true
  source_lt : ∀ s ∈ d.segments, s.source.val < nodeCount
  count_pos : ∀ s ∈ d.segments, 0 < s.count.val
  tiles : d.segments.flatMap (fun s => List.range' s.start.val s.count.val) =
    List.range p.edgeCount.val
  ascending : ∀ s ∈ d.segments, ((d.edges.drop s.start.val).take s.count.val).Pairwise (· < ·)

/-- The local bounds of the segments. -/
lemma checkSegments_eq_ok {nodeCount : ℕ} {edges : List U64} {segments : List DecodedSegment}
    {start stop : ℕ} (h : checkSegments nodeCount edges segments start = .ok stop) :
    (∀ s ∈ segments, s.source.val < nodeCount ∧ 0 < s.count.val ∧
      ((edges.drop s.start.val).take s.count.val).Pairwise (· < ·)) ∧
    start ≤ stop ∧
    segments.flatMap (fun s => List.range' s.start.val s.count.val) =
      List.range' start (stop - start) := by
  induction segments generalizing start with
  | nil =>
    cases h
    simp
  | cons s rest ih =>
    simp only [checkSegments] at h
    split_ifs at h with hbounds hinside hascending
    push Not at hbounds
    obtain ⟨hsource, hstart, hcount⟩ := hbounds
    have hpos : 0 < s.count.val := Nat.pos_of_ne_zero fun hzero => hcount (Fin.ext hzero)
    obtain ⟨hall, hle, htiles⟩ := ih h
    have hchain : ((edges.drop s.start.val).take s.count.val).Pairwise (· < ·) := by
      refine List.isChain_iff_pairwise.1 ?_
      have hnone := anyNeighbours_eq_false.1 (by simpa using hascending)
      exact hnone.imp fun a b hab => by simpa using hab
    refine ⟨fun s' hs' => ?_, by omega, ?_⟩
    · rcases List.mem_cons.1 hs' with rfl | hs'
      · exact ⟨hsource, hpos, hchain⟩
      · exact hall s' hs'
    · rw [List.flatMap_cons, htiles, hstart]
      rw [List.range'_append_1]
      congr 1
      omega

lemma decodePartition_eq_ok {top ev : Bytes} {p : PartitionDescriptor} {nodeCount relationCount : ℕ}
    {d : DecodedPartition} (h : decodePartition top ev p nodeCount relationCount = .ok d) :
    d.Valid p nodeCount relationCount := by
  unfold decodePartition at h
  obtain ⟨⟨segments, destinations, relations, weights⟩, htop, h⟩ := bind_eq_ok.1 h
  obtain ⟨edges, hev, h⟩ := bind_eq_ok.1 h
  obtain ⟨stop, hcheck, hlast⟩ := bind_eq_ok.1 h
  split_ifs at hlast with hstop
  rw [not_not] at hstop
  cases hlast
  have htop := Reader.complete_eq_ok htop
  unfold readTopology at htop
  obtain ⟨sc, _, -, htop⟩ := Reader.bind_eq_ok.1 htop
  obtain ⟨ec, _, -, htop⟩ := Reader.bind_eq_ok.1 htop
  split_ifs at htop with hheader
  · cases htop
  push Not at hheader
  obtain ⟨-, hec, -, -⟩ := hheader
  obtain ⟨_, _, -, htop⟩ := Reader.bind_eq_ok.1 htop
  obtain ⟨_, _, hdestinations, htop⟩ := Reader.bind_eq_ok.1 htop
  obtain ⟨_, _, hrelations, htop⟩ := Reader.bind_eq_ok.1 htop
  obtain ⟨_, _, hweights, hpure⟩ := Reader.bind_eq_ok.1 htop
  have hfields := (Reader.pure_eq_ok.1 hpure).1
  simp only [Prod.mk.injEq] at hfields
  obtain ⟨rfl, rfl, rfl, rfl⟩ := hfields
  subst hec
  obtain ⟨hdl, hd⟩ := many_eq_ok (fun _ _ _ hv => readIndex_eq_ok hv) hdestinations
  obtain ⟨hrl, hr⟩ := many_eq_ok (fun _ _ _ hv => readIndex_eq_ok hv) hrelations
  obtain ⟨hwl, hw⟩ := many_eq_ok (fun _ _ _ hv => readWeight_eq_ok hv) hweights
  obtain ⟨hall, -, htiles⟩ := checkSegments_eq_ok hcheck
  rw [hstop, Nat.sub_zero, ← List.range_eq_range'] at htiles
  exact
    { edges_length := length_of_many (Reader.complete_eq_ok hev)
      destinations_length := hdl
      relations_length := hrl
      weights_length := hwl
      destinations_lt := hd
      relations_lt := hr
      weights_canonical := hw
      source_lt := fun s hs => (hall s hs).1
      count_pos := fun s hs => (hall s hs).2.1
      tiles := htiles
      ascending := fun s hs => (hall s hs).2.2 }

/-! ## The manifest -/

lemma readPartition_id {expected : ℕ} {input rest : Bytes} {p : PartitionDescriptor}
    (h : BundleManifest.readPartition expected input = .ok (p, rest)) : p.id.val = expected := by
  unfold BundleManifest.readPartition at h
  obtain ⟨id, _, -, h⟩ := Reader.bind_eq_ok.1 h
  split_ifs at h with hid
  · cases h
  iterate 8 obtain ⟨_, _, -, h⟩ := Reader.bind_eq_ok.1 h
  obtain ⟨rfl, -⟩ := Reader.pure_eq_ok.1 h
  exact not_not.1 hid

lemma readPartitions_id {expected n : ℕ} {input rest : Bytes} {ps : List PartitionDescriptor}
    (h : BundleManifest.readPartitions expected n input = .ok (ps, rest)) :
    ps.map (·.id.val) = List.range' expected n := by
  induction n generalizing expected input rest ps with
  | zero =>
    obtain ⟨rfl, -⟩ := Reader.pure_eq_ok.1 h
    rfl
  | succ n ih =>
    rw [BundleManifest.readPartitions] at h
    obtain ⟨p, _, hp, h⟩ := Reader.bind_eq_ok.1 h
    obtain ⟨ps', _, hps, hpure⟩ := Reader.bind_eq_ok.1 h
    obtain ⟨rfl, -⟩ := Reader.pure_eq_ok.1 hpure
    rw [List.map_cons, readPartition_id hp, ih hps, List.range'_succ]

/-- Partitions are numbered densely. -/
lemma decode_id {bytes : Bytes} {m : BundleManifest} (h : BundleManifest.decode bytes = .ok m) :
    m.partitions.map (·.id.val) = List.range m.partitions.length := by
  have h := Reader.complete_eq_ok h
  unfold BundleManifest.read at h
  obtain ⟨_, _, -, h⟩ := Reader.bind_eq_ok.1 h
  obtain ⟨_, _, -, h⟩ := Reader.bind_eq_ok.1 h
  split_ifs at h
  · cases h
  iterate 12 obtain ⟨_, _, -, h⟩ := Reader.bind_eq_ok.1 h
  obtain ⟨ps, _, hps, hpure⟩ := Reader.bind_eq_ok.1 h
  obtain ⟨rfl, -⟩ := Reader.pure_eq_ok.1 hpure
  have hids := readPartitions_id hps
  have hlength := congrArg List.length hids
  rw [List.length_map, List.length_range'] at hlength
  rw [hids, hlength, List.range_eq_range']

/-! ## The source directory -/

/-- The number of edges some segments hold. -/
def edgeTotal (segments : List SegmentDescriptor) : ℕ := (segments.map (·.edgeCount.val)).sum

lemma sourceOrdinal_eq_ok {source : ℕ} {segments : List SegmentDescriptor} {ordinal stop : ℕ}
    (h : sourceOrdinal source segments ordinal = .ok stop) :
    (∀ s ∈ segments, s.source.val = source) ∧ stop = ordinal + edgeTotal segments := by
  induction segments generalizing ordinal with
  | nil =>
    cases h
    exact ⟨nofun, rfl⟩
  | cons s rest ih =>
    simp only [sourceOrdinal] at h
    split_ifs at h with hmismatch
    push Not at hmismatch
    obtain ⟨next, hnext, hrest⟩ := bind_eq_ok.1 h
    obtain ⟨-, rfl⟩ := checkedAdd64_eq_some.1 (okOr_eq_ok.1 hnext)
    obtain ⟨hsources, hstop⟩ := ih hrest
    refine ⟨fun s' hs' => ?_, ?_⟩
    · rcases List.mem_cons.1 hs' with rfl | hs'
      · exact hmismatch.1
      · exact hsources s' hs'
    · rw [hstop, edgeTotal, edgeTotal, List.map_cons, List.sum_cons]
      omega

/-- The segments of one source in the directory. -/
def sourceSlice (offsets : List U64) (segments : List SegmentDescriptor) (source : ℕ) :
    List SegmentDescriptor :=
  (segments.take (offsets.getD (source + 1) 0).val).drop (offsets.getD source 0).val

/-- The adjacency offsets are the running numbers of edges. -/
lemma sourceEdgeOffsetsFrom_eq_ok {offsets : List U64} {segments : List SegmentDescriptor}
    {source last n : ℕ} {out : List ℕ}
    (h : sourceEdgeOffsetsFrom offsets segments source last n = .ok out) :
    (∀ t < n, ∀ s ∈ sourceSlice offsets segments (source + t), s.source.val = source + t) ∧
    out = (List.range n).map fun i => last + ((List.range (i + 1)).map fun t =>
      edgeTotal (sourceSlice offsets segments (source + t))).sum := by
  induction n generalizing source last out with
  | zero =>
    cases h
    exact ⟨nofun, rfl⟩
  | succ n ih =>
    simp only [sourceEdgeOffsetsFrom] at h
    split at h
    · rename_i first stop hfirst hstop
      obtain ⟨slice, hcut, h⟩ := bind_eq_ok.1 h
      obtain ⟨ordinal, hordinal, h⟩ := bind_eq_ok.1 h
      obtain ⟨next, hnext, h⟩ := bind_eq_ok.1 h
      obtain ⟨rest, hrest, hpure⟩ := bind_eq_ok.1 h
      cases hpure
      obtain ⟨-, rfl⟩ := checkedAdd64_eq_some.1 (okOr_eq_ok.1 hnext)
      unfold segmentSlice at hcut
      split_ifs at hcut
      cases hcut
      have hslice : sourceSlice offsets segments source =
          (segments.take stop.val).drop first.val := by
        rw [sourceSlice, List.getD_eq_getElem?_getD, List.getD_eq_getElem?_getD, hfirst, hstop,
          Option.getD_some, Option.getD_some]
      rw [← hslice] at hordinal
      obtain ⟨hsources, rfl⟩ := sourceOrdinal_eq_ok hordinal
      obtain ⟨hall, rfl⟩ := ih hrest
      refine ⟨fun t ht => ?_, ?_⟩
      · rcases t with _ | t
        · exact hsources
        · have hstep := hall t (by omega)
          rw [show source + (t + 1) = source + 1 + t by omega]
          exact hstep
      · rw [List.range_succ_eq_map, List.map_cons, List.map_map]
        refine congrArg₂ List.cons (by simp) (List.map_congr_left fun i _ => ?_)
        rw [Function.comp_apply, List.range_succ_eq_map (n := i + 1), List.map_cons, List.map_map,
          List.sum_cons]
        -- the sums of the rest begin at the next source
        have hshift : (List.range (i + 1)).map ((fun t =>
            edgeTotal (sourceSlice offsets segments (source + t))) ∘ Nat.succ) =
            (List.range (i + 1)).map fun t =>
              edgeTotal (sourceSlice offsets segments (source + 1 + t)) := by
          refine List.map_congr_left fun t _ => ?_
          rw [Function.comp_apply, show source + t.succ = source + 1 + t by omega]
        rw [hshift, Nat.zero_add, Nat.add_assoc]
        rfl
    · cases h

/-! ## The partitions -/

lemma checkPartitionSegments_eq_ok {segments : List SegmentDescriptor} {id : U32}
    {l : List (DecodedSegment × ℕ)} (h : checkPartitionSegments segments id l = .ok ())
    {s : DecodedSegment} {j : ℕ} (hmem : (s, j) ∈ l) :
    ∃ g ∈ segments, g.partition = id ∧ g.localSegment.val = j ∧ g.source = s.source ∧
      g.firstEdgeOrdinal = s.firstOrdinal ∧ g.edgeCount = s.count := by
  induction l with
  | nil => cases hmem
  | cons x rest ih =>
    obtain ⟨s', j'⟩ := x
    simp only [checkPartitionSegments] at h
    split at h
    · cases h
    · rename_i g hfind
      split_ifs at h with hdiffer
      push Not at hdiffer
      rcases List.mem_cons.1 hmem with heq | hmem
      · cases heq
        have hkey := List.find?_some hfind
        simp only [Bool.and_eq_true, decide_eq_true_eq] at hkey
        exact ⟨g, List.mem_of_find?_eq_some hfind, hkey.1, hkey.2, hdiffer⟩
      · exact ih h hmem

/-- Every partition decodes and agrees with the directory, and the offsets are the running numbers
of edges. -/
lemma partitionEdgeOffsetsFrom_eq_ok {dir : BundleDirectory} {m : BundleManifest}
    {segments : List SegmentDescriptor} {last : ℕ} {ps : List PartitionDescriptor} {out : List ℕ}
    (h : partitionEdgeOffsetsFrom dir m segments last ps = .ok out) :
    ∃ parts : List DecodedPartition,
      List.Forall₂ (fun p d => readPartitionData dir m p = .ok d ∧
        checkPartitionSegments segments p.id d.segments.zipIdx = .ok ()) ps parts ∧
      out = (List.range parts.length).map fun i =>
        last + Csr.offset (parts.map (·.edges)) (i + 1) := by
  induction ps generalizing last out with
  | nil =>
    cases h
    exact ⟨[], .nil, rfl⟩
  | cons p rest ih =>
    simp only [partitionEdgeOffsetsFrom] at h
    obtain ⟨d, hd, h⟩ := bind_eq_ok.1 h
    obtain ⟨_, hcheck, h⟩ := bind_eq_ok.1 h
    obtain ⟨next, hnext, h⟩ := bind_eq_ok.1 h
    obtain ⟨tail, htail, hpure⟩ := bind_eq_ok.1 h
    cases hpure
    obtain ⟨-, rfl⟩ := checkedAdd64_eq_some.1 (okOr_eq_ok.1 hnext)
    obtain ⟨parts, hparts, rfl⟩ := ih htail
    have hlength : d.edges.length = p.edgeCount.val := by
      unfold readPartitionData at hd
      iterate 4 obtain ⟨_, -, hd⟩ := bind_eq_ok.1 hd
      exact (decodePartition_eq_ok hd).edges_length
    refine ⟨d :: parts, .cons ⟨hd, hcheck⟩ hparts, ?_⟩
    rw [List.length_cons, List.range_succ_eq_map, List.map_cons, List.map_map]
    refine congrArg₂ List.cons ?_ (List.map_congr_left fun i _ => ?_)
    · rw [List.map_cons, Csr.offset_cons, Csr.offset_zero, hlength, Nat.add_zero]
    · rw [Function.comp_apply, List.map_cons, Csr.offset_cons, hlength, Nat.add_assoc]

/-- A region whose checksum has been validated loads as it was decoded. -/
lemma loadPartition_eq {checksum : Bytes → Digest} {dir : BundleDirectory} {b : RoutingBundle}
    {p : PartitionDescriptor} {ends ends' : ℕ × ℕ}
    (hrange : validateRange checksum dir b.manifest ends p = .ok ends') :
    b.loadPartition checksum dir p = readPartitionData dir b.manifest p := by
  unfold validateRange at hrange
  split_ifs at hrange
  obtain ⟨_, -, hrange⟩ := bind_eq_ok.1 hrange
  obtain ⟨_, -, hrange⟩ := bind_eq_ok.1 hrange
  split_ifs at hrange
  obtain ⟨topologyFile, htopologyFile, hrange⟩ := bind_eq_ok.1 hrange
  obtain ⟨topology, htopology, hrange⟩ := bind_eq_ok.1 hrange
  obtain ⟨evidenceFile, hevidenceFile, hrange⟩ := bind_eq_ok.1 hrange
  obtain ⟨evidence, hevidence, hlast⟩ := bind_eq_ok.1 hrange
  split_ifs at hlast with hchecksum
  simp only [RoutingBundle.loadPartition, readPartitionData, htopologyFile, ok_bind, htopology,
    hevidenceFile, hevidence, if_neg hchecksum]

/-! ## An opened bundle -/

/-- What opening a bundle establishes, for the partitions as they are decoded. -/
structure Opened (checksum : Bytes → Digest) (dir : BundleDirectory) (bundle : RoutingBundle)
    (parts : List DecodedPartition) : Prop where
  nodes_length : bundle.nodes.length = bundle.manifest.nodeCount.val
  nodes_ascending : bundle.nodes.Pairwise (· < ·)
  relations_length : bundle.relations.length = bundle.manifest.relationKindCount.val
  relations_ascending : bundle.relations.Pairwise (· < ·)
  identities_lt : 8 * (bundle.nodes.length + bundle.relations.length) < 2 ^ 63
  loads : List.Forall₂ (fun p d => bundle.loadPartition checksum dir p = .ok d)
    bundle.manifest.partitions parts
  valid : ∀ d ∈ parts, ∃ p, d.Valid p bundle.nodes.length bundle.relations.length
  listed : ∀ k d, parts[k]? = some d → ∀ s j, d.segments[j]? = some s → ∃ g ∈ bundle.segments,
    g.partition.val = k ∧ g.localSegment.val = j ∧ g.source = s.source ∧
      g.firstEdgeOrdinal = s.firstOrdinal ∧ g.edgeCount = s.count
  partition_offsets : bundle.partitionEdgeOffsets = Csr.offsets (parts.map (·.edges))
  adjacency : (parts.map (·.edges)).flatten.length = bundle.manifest.adjacencyCount.val
  adjacency_lt : 8 * bundle.manifest.adjacencyCount.val < 2 ^ 63
  source_offsets : bundle.sourceEdgeOffsets = (List.range (bundle.nodes.length + 1)).map fun i =>
    ((List.range i).map fun t => edgeTotal (bundle.segments.filter fun g =>
      decide (g.source.val = t))).sum
  source_total : ((List.range bundle.nodes.length).map fun t =>
    edgeTotal (bundle.segments.filter fun g => decide (g.source.val = t))).sum =
      bundle.manifest.adjacencyCount.val

lemma BundleDirectory.length_lt {dir : BundleDirectory} {name : String} {bytes : Bytes}
    (h : dir.read name = .ok bytes) : bytes.length < 2 ^ 63 :=
  dir.fits (name, bytes) (List.lookup_eq_some_iff.1 (okOr_eq_ok.1 h) |> fun ⟨l, r, heq, _⟩ => by
    simp [heq])

lemma ascending_of_anyNeighbours {k : IdKind} {ids : List (DurableId k)}
    (h : anyNeighbours (fun a b => decide (b ≤ a)) ids = false) : ids.Pairwise (· < ·) := by
  refine List.isChain_iff_pairwise.1 ((anyNeighbours_eq_false.1 h).imp fun a b hab => ?_)
  simpa using hab

lemma validatedFile_eq_ok {checksum : Bytes → Digest} {dir : BundleDirectory} {name : String}
    {descriptor : FileDescriptor} {bytes : Bytes}
    (h : validatedFile checksum dir name descriptor = .ok bytes) :
    dir.read name = .ok bytes ∧ bytes.length = descriptor.length.val := by
  unfold validatedFile at h
  obtain ⟨b, hb, h⟩ := bind_eq_ok.1 h
  split_ifs at h with hlength
  cases h
  exact ⟨hb, not_not.1 hlength⟩

lemma readIdentities_eq_ok {m : BundleManifest} {identities : Bytes} {nodes : List NodeId}
    {relations : List RelationId} (h : readIdentities m identities = .ok (nodes, relations)) :
    nodes.length = m.nodeCount.val ∧ nodes.Pairwise (· < ·) ∧
      relations.length = m.relationKindCount.val ∧ relations.Pairwise (· < ·) ∧
      8 * (nodes.length + relations.length) = m.identities.length.val := by
  unfold readIdentities at h
  obtain ⟨count, hcount, h⟩ := bind_eq_ok.1 h
  split_ifs at h with hlength
  obtain ⟨⟨ns, rs⟩, hread, h⟩ := bind_eq_ok.1 h
  dsimp only at h
  split_ifs at h with hascending
  cases h
  have hread := Reader.complete_eq_ok hread
  obtain ⟨_, _, hns, hread⟩ := Reader.bind_eq_ok.1 hread
  obtain ⟨_, _, hrs, hpure⟩ := Reader.bind_eq_ok.1 hread
  obtain ⟨hfields, -⟩ := Reader.pure_eq_ok.1 hpure
  simp only [Prod.mk.injEq] at hfields
  obtain ⟨rfl, rfl⟩ := hfields
  simp only [Bool.or_eq_true, not_or, Bool.not_eq_true] at hascending
  have hn := length_of_many hns
  have hr := length_of_many hrs
  obtain ⟨sum, hsum, hmul⟩ := Option.bind_eq_some_iff.1 (okOr_eq_ok.1 hcount)
  obtain ⟨-, rfl⟩ := checkedAdd64_eq_some.1 hsum
  obtain ⟨-, rfl⟩ := checkedMul64_eq_some.1 hmul
  refine ⟨by rw [List.length_map, hn], ascending_of_anyNeighbours hascending.1,
    by rw [List.length_map, hr], ascending_of_anyNeighbours hascending.2, ?_⟩
  rw [List.length_map, List.length_map, hn, hr, ← not_not.1 hlength]
  omega

lemma readDirectory_eq_ok {m : BundleManifest} {directory : Bytes} {offsets : List U64}
    {segments : List SegmentDescriptor} (h : readDirectory m directory = .ok (offsets, segments)) :
    offsets.length = m.nodeCount.val + 1 ∧ segments.length = m.segmentCount.val := by
  unfold readDirectory at h
  obtain ⟨offsetCount, hcount, h⟩ := bind_eq_ok.1 h
  obtain ⟨length, -, h⟩ := bind_eq_ok.1 h
  obtain ⟨-, rfl⟩ := checkedAdd64_eq_some.1 (okOr_eq_ok.1 hcount)
  split_ifs at h
  have hread := Reader.complete_eq_ok h
  obtain ⟨_, _, hoffsets, hread⟩ := Reader.bind_eq_ok.1 hread
  obtain ⟨_, _, hsegments, hpure⟩ := Reader.bind_eq_ok.1 hread
  obtain ⟨hfields, -⟩ := Reader.pure_eq_ok.1 hpure
  simp only [Prod.mk.injEq] at hfields
  obtain ⟨rfl, rfl⟩ := hfields
  exact ⟨length_of_many hoffsets, length_of_many hsegments⟩

lemma validateRange_evidence {checksum : Bytes → Digest} {dir : BundleDirectory}
    {m : BundleManifest} {ends ends' : ℕ × ℕ} {p : PartitionDescriptor}
    (h : validateRange checksum dir m ends p = .ok ends') :
    ends'.2 = ends.2 + p.evidenceLength.val := by
  unfold validateRange at h
  split_ifs at h
  obtain ⟨_, -, h⟩ := bind_eq_ok.1 h
  obtain ⟨ee, hee, h⟩ := bind_eq_ok.1 h
  split_ifs at h
  iterate 4 obtain ⟨_, -, h⟩ := bind_eq_ok.1 h
  split_ifs at h
  cases h
  exact (checkedAdd64_eq_some.1 (okOr_eq_ok.1 hee)).2

/-- The evidence of the partitions fills its file. -/
lemma validateRanges_evidence {checksum : Bytes → Digest} {dir : BundleDirectory}
    {m : BundleManifest} (h : validateRanges checksum dir m = .ok ()) :
    (m.partitions.map (·.evidenceLength.val)).sum = m.evidence.length.val := by
  unfold validateRanges at h
  obtain ⟨⟨te, ee⟩, hfold, h⟩ := bind_eq_ok.1 h
  have hens : Ensures (m.partitions.foldlM (validateRange checksum dir m) (0, 0))
      (fun ends => ends.2 = (m.partitions.map (·.evidenceLength.val)).sum) fun _ => True := by
    have hstep := ensures_foldlM (f := validateRange checksum dir m) (a := ((0 : ℕ), (0 : ℕ)))
      (I := fun pre ends => ends.2 = (pre.map (·.evidenceLength.val)).sum)
      (E := fun _ => True) m.partitions
    refine hstep (fun pre p post ends _ hends => ?_) rfl
    refine (ensures_ok _).mono fun ends' hrange => ?_
    rw [validateRange_evidence hrange, hends]
    simp
  have hsum : ee = _ := hens.of_ok hfold
  dsimp only at h
  split_ifs at h with htrailing
  push Not at htrailing
  rw [← hsum]
  exact htrailing.2

lemma readPartitionData_eq_ok {dir : BundleDirectory} {m : BundleManifest} {p : PartitionDescriptor}
    {d : DecodedPartition} (h : readPartitionData dir m p = .ok d) :
    d.Valid p m.nodeCount.val m.relationKindCount.val ∧
      8 * d.edges.length = p.evidenceLength.val := by
  unfold readPartitionData at h
  obtain ⟨_, -, h⟩ := bind_eq_ok.1 h
  obtain ⟨_, -, h⟩ := bind_eq_ok.1 h
  obtain ⟨_, -, h⟩ := bind_eq_ok.1 h
  obtain ⟨ev, hev, h⟩ := bind_eq_ok.1 h
  have hvalid := decodePartition_eq_ok h
  refine ⟨hvalid, ?_⟩
  have hlength : ev.length = p.evidenceLength.val := by
    unfold readRange at hev
    dsimp only at hev
    split_ifs at hev with heq
    cases hev
    exact heq
  unfold decodePartition at h
  obtain ⟨⟨_, _, _, _⟩, -, h⟩ := bind_eq_ok.1 h
  obtain ⟨edges, hedges, -⟩ := bind_eq_ok.1 h
  have hread := length_of_many_u64 (Reader.complete_eq_ok hedges)
  rw [List.length_nil, hlength] at hread
  rw [hvalid.edges_length, hread, Nat.add_zero]

/-- Eight bytes of evidence for each edge. -/
lemma evidence_of_parts {dir : BundleDirectory} {m : BundleManifest} {ps : List PartitionDescriptor}
    {parts : List DecodedPartition}
    (h : List.Forall₂ (fun p d => readPartitionData dir m p = .ok d) ps parts) :
    8 * (parts.map (·.edges)).flatten.length = (ps.map (·.evidenceLength.val)).sum := by
  induction h with
  | nil => rfl
  | cons hd _ ih =>
    rw [List.map_cons, List.flatten_cons, List.length_append, List.map_cons, List.sum_cons,
      Nat.mul_add, ih, (readPartitionData_eq_ok hd).2]

/-- The slices of the directory are the segments of the sources. -/
lemma sourceSlice_eq_filter {offsets : List U64} {segments : List SegmentDescriptor} {n : ℕ}
    (hlength : offsets.length = n + 1) (hfirst : offsets.head? = some 0)
    (hlast : (offsets.getLast?).map (·.val) = some segments.length)
    (hmono : offsets.Pairwise (· ≤ ·))
    (hsources : ∀ t < n, ∀ s ∈ sourceSlice offsets segments t, s.source.val = t)
    {t : ℕ} (ht : t < n) :
    sourceSlice offsets segments t = segments.filter fun g => decide (g.source.val = t) := by
  have hget : ∀ i (hi : i < offsets.length), offsets.getD i 0 = offsets.get ⟨i, hi⟩ := by
    intro i hi
    simp [List.getD_eq_getElem?_getD, hi]
  have hflat : ((List.range n).map fun i => sourceSlice offsets segments i).flatten = segments := by
    have hslices := Csr.flatten_slices segments (fun i => (offsets.getD i 0).val) ?_
      (n := n) fun i hi => ?_
    · rw [List.getLast?_eq_getElem?, hlength, Nat.add_sub_cancel] at hlast
      have hend : (offsets.getD n 0).val = segments.length := by
        rw [List.getD_eq_getElem?_getD]
        rcases hn : offsets[n]? with _ | v
        · simp [hn] at hlast
        · simpa [hn] using hlast
      rw [hend, List.take_length] at hslices
      exact hslices
    · rw [List.head?_eq_getElem?] at hfirst
      rw [List.getD_eq_getElem?_getD, hfirst]
      rfl
    · have hle := List.pairwise_iff_get.1 hmono ⟨i, by omega⟩ ⟨i + 1, by omega⟩ (by simp)
      rw [hget i (by omega), hget (i + 1) (by omega)]
      exact hle
  conv_rhs => rw [← hflat]
  rw [Csr.filter_flatten_range hsources, if_pos ht]

/-- What `openBundle` has read and checked when it succeeds. -/
lemma openBundle_eq_ok {checksum : Bytes → Digest} {dir : BundleDirectory} {bundle : RoutingBundle}
    (h : openBundle checksum dir = .ok bundle) :
    ∃ manifestBytes identities directory evidence,
      BundleManifest.decode manifestBytes = .ok bundle.manifest ∧
      validatedFile checksum dir "identities.bin" bundle.manifest.identities = .ok identities ∧
      validatedFile checksum dir "evidence.bin" bundle.manifest.evidence = .ok evidence ∧
      readIdentities bundle.manifest identities = .ok (bundle.nodes, bundle.relations) ∧
      readDirectory bundle.manifest directory =
        .ok (bundle.sourceSegmentOffsets, bundle.segments) ∧
      validateRanges checksum dir bundle.manifest = .ok () ∧
      bundle.sourceSegmentOffsets.head? = some 0 ∧
      bundle.sourceSegmentOffsets.getLast? = some bundle.manifest.segmentCount ∧
      bundle.sourceSegmentOffsets.Pairwise (· ≤ ·) ∧
      (∃ sources, sourceEdgeOffsetsFrom bundle.sourceSegmentOffsets bundle.segments 0 0
        bundle.manifest.nodeCount.val = .ok sources ∧ bundle.sourceEdgeOffsets = 0 :: sources) ∧
      bundle.sourceEdgeOffsets.getLast? = some bundle.manifest.adjacencyCount.val ∧
      (∃ partitions, partitionEdgeOffsetsFrom dir bundle.manifest bundle.segments 0
        bundle.manifest.partitions = .ok partitions ∧
        bundle.partitionEdgeOffsets = 0 :: partitions) ∧
      bundle.partitionEdgeOffsets.getLast? = some bundle.manifest.adjacencyCount.val := by
  unfold openBundle at h
  split_ifs at h
  obtain ⟨manifestBytes, -, h⟩ := bind_eq_ok.1 h
  obtain ⟨manifest, hmanifest, h⟩ := bind_eq_ok.1 h
  obtain ⟨identities, hidentities, h⟩ := bind_eq_ok.1 h
  obtain ⟨directory, hdirectory, h⟩ := bind_eq_ok.1 h
  obtain ⟨_, -, h⟩ := bind_eq_ok.1 h
  obtain ⟨evidence, hevidence, h⟩ := bind_eq_ok.1 h
  obtain ⟨⟨nodes, relations⟩, htables, h⟩ := bind_eq_ok.1 h
  obtain ⟨⟨offsets, segments⟩, hread, h⟩ := bind_eq_ok.1 h
  obtain ⟨_, hranges, h⟩ := bind_eq_ok.1 h
  dsimp only at h
  split_ifs at h with hoffsets
  push Not at hoffsets
  obtain ⟨hhead, hlast, hmono⟩ := hoffsets
  obtain ⟨sources, hsources, h⟩ := bind_eq_ok.1 h
  split_ifs at h with htotal
  obtain ⟨partitions, hpartitions, h⟩ := bind_eq_ok.1 h
  split_ifs at h with hcover
  cases h
  refine ⟨manifestBytes, identities, directory, evidence, hmanifest, hidentities, hevidence,
    htables, hread, hranges, hhead, hlast, ?_, ⟨sources, hsources, rfl⟩, not_not.1 htotal,
    ⟨partitions, hpartitions, rfl⟩, not_not.1 hcover⟩
  refine List.isChain_iff_pairwise.1
    ((anyNeighbours_eq_false.1 (by simpa using hmono)).imp fun a b hab => ?_)
  simpa using hab

/-- The last of the running sums. -/
lemma sum_of_getLast {f : ℕ → ℕ} {n total : ℕ}
    (h : ((List.range (n + 1)).map f).getLast? = some total) : f n = total := by
  rw [List.range_succ, List.map_append, List.map_singleton, List.getLast?_append] at h
  simpa using h

theorem openBundle_opened {checksum : Bytes → Digest} {dir : BundleDirectory}
    {bundle : RoutingBundle} (h : openBundle checksum dir = .ok bundle) :
    ∃ parts, Opened checksum dir bundle parts := by
  obtain ⟨_, identities, directory, evidence, hmanifest, hidentities, hevidence, htables, hread,
    hranges, hhead, hlast, hmono, ⟨sources, hsources, hsourceOffsets⟩, htotal,
    ⟨partitions, hpartitions, hpartitionOffsets⟩, hcover⟩ := openBundle_eq_ok h
  obtain ⟨hnodes, hnodesAscending, hrelations, hrelationsAscending, hidentityLength⟩ :=
    readIdentities_eq_ok htables
  obtain ⟨hoffsetsLength, hsegmentsLength⟩ := readDirectory_eq_ok hread
  obtain ⟨hslices, hsources⟩ := sourceEdgeOffsetsFrom_eq_ok hsources
  simp only [Nat.zero_add] at hslices hsources
  obtain ⟨parts, hparts, hpartitions⟩ := partitionEdgeOffsetsFrom_eq_ok hpartitions
  -- the directory is in order, so a slice of it holds all segments of its source
  have hslice : ∀ t < bundle.manifest.nodeCount.val,
      sourceSlice bundle.sourceSegmentOffsets bundle.segments t =
        bundle.segments.filter fun g => decide (g.source.val = t) := fun t ht =>
    sourceSlice_eq_filter hoffsetsLength hhead (by rw [hlast, hsegmentsLength]; rfl) hmono hslices ht
  have hsourceOffsets : bundle.sourceEdgeOffsets =
      (List.range (bundle.nodes.length + 1)).map fun i => ((List.range i).map fun t =>
        edgeTotal (bundle.segments.filter fun g => decide (g.source.val = t))).sum := by
    rw [hsourceOffsets, hsources, hnodes, List.range_succ_eq_map, List.map_cons, List.map_map]
    refine congrArg₂ List.cons rfl (List.map_congr_left fun i hi => ?_)
    rw [Function.comp_apply]
    refine congrArg List.sum (List.map_congr_left fun t ht => ?_)
    have hi := List.mem_range.1 hi
    have ht := List.mem_range.1 ht
    rw [hslice t (by omega)]
  have hpartitionOffsets : bundle.partitionEdgeOffsets = Csr.offsets (parts.map (·.edges)) := by
    rw [hpartitionOffsets, hpartitions, ← Csr.zero_cons_offsets, List.length_map]
  have hadjacency : (parts.map (·.edges)).flatten.length = bundle.manifest.adjacencyCount.val := by
    rw [hpartitionOffsets, Csr.offsets] at hcover
    rw [← Csr.offset_length]
    exact sum_of_getLast hcover
  have hids := decode_id hmanifest
  -- what was read while opening is what a load reads later
  have hloads : List.Forall₂ (fun p d => bundle.loadPartition checksum dir p = .ok d)
      bundle.manifest.partitions parts := by
    have hranged : ∀ p ∈ bundle.manifest.partitions, ∃ ends ends',
        validateRange checksum dir bundle.manifest ends p = .ok ends' := by
      intro p hp
      obtain ⟨_, hfold, -⟩ := bind_eq_ok.1 hranges
      exact foldlM_ok_mem hfold hp
    refine ((List.forall₂_and_left _ _).2 ⟨hranged, hparts⟩).imp fun p d hpd => ?_
    obtain ⟨⟨ends, ends', hends⟩, hd, -⟩ := hpd
    rw [loadPartition_eq hends, hd]
  -- every edge has eight bytes of evidence, and a file is shorter than a word can say
  have hbytes : 8 * (parts.map (·.edges)).flatten.length = evidence.length := by
    rw [(validatedFile_eq_ok hevidence).2, ← validateRanges_evidence hranges]
    exact evidence_of_parts (hparts.imp fun _ _ hpd => hpd.1)
  refine ⟨parts, ?_⟩
  exact
    { nodes_length := hnodes
      nodes_ascending := hnodesAscending
      relations_length := hrelations
      relations_ascending := hrelationsAscending
      identities_lt := by
        rw [hidentityLength, ← (validatedFile_eq_ok hidentities).2]
        exact BundleDirectory.length_lt (validatedFile_eq_ok hidentities).1
      loads := hloads
      valid := by
        intro d hd
        obtain ⟨k, hk⟩ := List.getElem?_of_mem hd
        obtain ⟨p, -, hp, -⟩ := getElem?_of_forall₂ hparts hk
        rw [hnodes, hrelations]
        exact ⟨p, (readPartitionData_eq_ok hp).1⟩
      listed := by
        intro k d hk s j hj
        obtain ⟨p, hpk, -, hcheck⟩ := getElem?_of_forall₂ hparts hk
        have hid : p.id.val = k := by
          have hget := congrArg (·[k]?) hids
          have hlt := (List.getElem?_eq_some_iff.1 hpk).1
          simpa [hpk, List.getElem?_range hlt] using hget
        obtain ⟨g, hg, hpartition, hrest⟩ :=
          checkPartitionSegments_eq_ok hcheck (List.mem_zipIdx_iff_getElem?.2 hj)
        exact ⟨g, hg, by rw [hpartition, hid], hrest⟩
      partition_offsets := hpartitionOffsets
      adjacency := hadjacency
      adjacency_lt := by
        rw [← hadjacency, hbytes]
        exact BundleDirectory.length_lt (validatedFile_eq_ok hevidence).1
      source_offsets := hsourceOffsets
      source_total := by
        rw [hsourceOffsets] at htotal
        exact sum_of_getLast htotal }

end PathHydra
