import Mathlib.Data.String.Basic
import PathHydra.Construction.Bundle.Compiler
import PathHydra.Properties.Bundle.Open

/-!
# Reading back what was written

Every file of a bundle reads back as the values it was written from.
-/

namespace PathHydra

/-! ## Fields -/

lemma reads_decoder_u32 (v : U32) : Reads Decoder.u32 (putU32 v) v := by
  have hread := (reads_take_of_length (ε := BundleError) (.invalid "truncated field")
    (show (putU32 v).length = 4 by simp [putU32])).map fun b => Fin.ofNat (2 ^ 32) (leValue b)
  have hvalue : Fin.ofNat (2 ^ 32) (leValue (putU32 v)) = v := by
    rw [putU32, leValue_leBytes (by simp)]
    exact Fin.ofNat_val_eq_self v
  rw [hvalue] at hread
  exact hread

lemma reads_decoder_u64 (v : U64) : Reads Decoder.u64 (putU64 v) v := by
  have hread := (reads_take_of_length (ε := BundleError) (.invalid "truncated field")
    (show (putU64 v).length = 8 by simp [putU64])).map fun b => Fin.ofNat (2 ^ 64) (leValue b)
  have hvalue : Fin.ofNat (2 ^ 64) (leValue (putU64 v)) = v := by
    rw [putU64, leValue_leBytes (by simp)]
    exact Fin.ofNat_val_eq_self v
  rw [hvalue] at hread
  exact hread

lemma reads_decoder_checksum (digest : Digest) : Reads Decoder.checksum digest.bytes digest := by
  refine (reads_take_of_length _ digest.length_eq).last ?_
  rw [dif_pos digest.length_eq]
  exact reads_pure digest

lemma reads_decoder_string {s : String} {b : Bytes} (h : putString s = .ok b) :
    Reads Decoder.string b s := by
  unfold putString at h
  split_ifs at h with hlength
  cases h
  refine (reads_decoder_u32 ⟨_, hlength⟩).bind ((reads_take_of_length _ rfl).last ?_)
  rw [fromUtf8_strBytes]
  exact reads_pure s

/-- A loop reads what a loop has written. -/
lemma reads_many {α : Type} {r : Reader BundleError α} {write : α → Bytes} {l : List α}
    (h : ∀ a ∈ l, Reads r (write a) a) : Reads (Decoder.many r l.length) (l.map write).flatten l := by
  induction l with
  | nil => exact reads_pure []
  | cons a l ih =>
    refine (h a (by simp)).bind ?_
    exact (ih fun b hb => h b (by simp [hb])).map (a :: ·)

/-! ## The manifest -/

lemma length_flatten_map_of_length {α : Type} {write : α → Bytes} {w : ℕ}
    (h : ∀ a, (write a).length = w) (l : List α) : (l.map write).flatten.length = w * l.length := by
  induction l with
  | nil => rfl
  | cons a l ih =>
    rw [List.map_cons, List.flatten_cons, List.length_append, ih, h, List.length_cons]
    ring

lemma reads_widths (widths : List U32) :
    Reads (BundleManifest.readWidths widths) (widths.map putU32).flatten () := by
  induction widths with
  | nil => exact reads_pure ()
  | cons width rest ih =>
    refine (reads_decoder_u32 width).bind ?_
    rw [if_neg (not_not.2 rfl)]
    exact ih

lemma reads_file (file : FileDescriptor) : Reads BundleManifest.readFile file.encode file :=
  (reads_decoder_u64 file.length).bind
    ((reads_decoder_checksum file.checksum).last (reads_pure file))

lemma reads_partition {p : PartitionDescriptor} {expected : ℕ} (h : p.id.val = expected) :
    Reads (BundleManifest.readPartition expected) p.encode p := by
  unfold BundleManifest.readPartition PartitionDescriptor.encode
  simp only [List.append_assoc]
  refine (reads_decoder_u32 p.id).bind ?_
  rw [if_neg (not_not.2 h)]
  refine (reads_decoder_u64 p.topologyOffset).bind ((reads_decoder_u64 p.topologyLength).bind
    ((reads_decoder_checksum p.topologyChecksum).bind ((reads_decoder_u64 p.evidenceOffset).bind
    ((reads_decoder_u64 p.evidenceLength).bind ((reads_decoder_checksum p.evidenceChecksum).bind
    ((reads_decoder_u32 p.segmentCount).bind ?_))))))
  exact (reads_decoder_u64 p.edgeCount).last (reads_pure p)

lemma reads_partitions {ps : List PartitionDescriptor} {expected : ℕ}
    (h : ps.map (·.id.val) = List.range' expected ps.length) :
    Reads (BundleManifest.readPartitions expected ps.length)
      (ps.map PartitionDescriptor.encode).flatten ps := by
  induction ps generalizing expected with
  | nil => exact reads_pure []
  | cons p ps ih =>
    rw [List.map_cons, List.length_cons, List.range'_succ] at h
    obtain ⟨hid, hrest⟩ := List.cons.inj h
    exact (reads_partition hid).bind ((ih hrest).map (p :: ·))

/-- How long a written manifest is. -/
lemma length_of_encode {m : BundleManifest} {bytes : Bytes} (h : m.encode = .ok bytes) :
    bytes.length = (strBytes m.numericPolicy).length + (strBytes m.tiePolicy).length + 252 +
      112 * m.partitions.length := by
  have hstring : ∀ {s : String} {b : Bytes}, putString s = .ok b →
      b.length = 4 + (strBytes s).length := by
    intro s b hb
    unfold putString at hb
    split_ifs at hb
    cases hb
    simp [putU32]
  have hfile : ∀ file : FileDescriptor, file.encode.length = 40 := by
    intro file
    simp [FileDescriptor.encode, putU64, file.checksum.length_eq]
  have hpartition : ∀ p : PartitionDescriptor, p.encode.length = 112 := by
    intro p
    simp [PartitionDescriptor.encode, putU32, putU64, p.topologyChecksum.length_eq,
      p.evidenceChecksum.length_eq]
  unfold BundleManifest.encode at h
  obtain ⟨numeric, hnumeric, h⟩ := bind_eq_ok.1 h
  obtain ⟨tie, htie, h⟩ := bind_eq_ok.1 h
  split_ifs at h
  cases h
  have hlist := length_flatten_map_of_length hpartition m.partitions
  simp only [List.length_append, hstring hnumeric, hstring htie, hfile, hlist, putU64,
    length_leBytes]
  have hwidths : (bundleWidths.map putU32).flatten.length = 28 :=
    length_flatten_map_of_length (w := 4) (fun _ => by simp [putU32]) bundleWidths
  rw [hwidths]
  omega

lemma exists_encode {m : BundleManifest} (hnumeric : (strBytes m.numericPolicy).length < 2 ^ 32)
    (htie : (strBytes m.tiePolicy).length < 2 ^ 32) (hcount : m.partitions.length < 2 ^ 64) :
    ∃ bytes, m.encode = .ok bytes := by
  rw [BundleManifest.encode, putString, dif_pos hnumeric, ok_bind, putString, dif_pos htie, ok_bind,
    dif_pos hcount]
  exact ⟨_, rfl⟩

/-- The manifest names the current policies and numbers its partitions densely. -/
structure BundleManifest.Current (m : BundleManifest) : Prop where
  numericPolicy_eq : m.numericPolicy = NUMERIC_POLICY_ID
  tiePolicy_eq : m.tiePolicy = TIE_POLICY_ID
  ids : m.partitions.map (·.id.val) = List.range m.partitions.length

lemma reads_manifest {m : BundleManifest} {bytes : Bytes} (h : m.encode = .ok bytes)
    (hm : m.Current) : Reads BundleManifest.read bytes m := by
  obtain ⟨hnumeric, htie, hids⟩ := hm
  unfold BundleManifest.encode at h
  obtain ⟨numeric, hnumericBytes, h⟩ := bind_eq_ok.1 h
  obtain ⟨tie, htieBytes, h⟩ := bind_eq_ok.1 h
  split_ifs at h with hcount
  cases h
  unfold BundleManifest.read
  simp only [List.append_assoc]
  refine (reads_decoder_string hnumericBytes).bind ((reads_decoder_string htieBytes).bind ?_)
  rw [if_neg (by rw [hnumeric, htie]; simp)]
  refine (reads_decoder_u64 m.nodeCount).bind ((reads_decoder_u64 m.relationKindCount).bind
    ((reads_decoder_u64 m.adjacencyCount).bind ((reads_decoder_u64 m.segmentCount).bind
    ((reads_decoder_u64 m.targetPartitionBytes).bind
    ((reads_decoder_u64 m.hardMaximumPartitionBytes).bind ((reads_widths bundleWidths).bind
    ((reads_file m.identities).bind ((reads_file m.sourceDirectory).bind
    ((reads_file m.topology).bind ((reads_file m.evidence).bind
    ((reads_decoder_u64 ⟨m.partitions.length, hcount⟩).bind ?_)))))))))))
  rw [List.range_eq_range'] at hids
  exact (reads_partitions hids).last (reads_pure m)

/-- A written manifest reads back. -/
lemma decode_of_encode {m : BundleManifest} {bytes : Bytes} (h : m.encode = .ok bytes)
    (hm : m.Current) : BundleManifest.decode bytes = .ok m :=
  (reads_manifest h hm).complete _

/-! ## Partitions -/

/-- What a partition must satisfy for its fields to be read back. -/
structure DecodedPartition.Storable (d : DecodedPartition) (nodeCount relationCount : ℕ) : Prop where
  segments_ne : d.segments ≠ []
  edges_ne : d.edges ≠ []
  segments_lt : d.segments.length < 2 ^ 32
  edges_lt : d.edges.length < 2 ^ 64
  destinations_length : d.destinations.length = d.edges.length
  relations_length : d.relations.length = d.edges.length
  weights_length : d.weights.length = d.edges.length
  destinations_lt : ∀ v ∈ d.destinations, v.val < nodeCount
  relations_lt : ∀ v ∈ d.relations, v.val < relationCount
  weights_canonical : ∀ v ∈ d.weights, (BaseWeight.fromBits v).isSome = true

/-- What a partition must satisfy to be accepted: its segments cover its edges besides. -/
structure DecodedPartition.Readable (d : DecodedPartition) (nodeCount relationCount : ℕ) : Prop
    extends d.Storable nodeCount relationCount where
  bounds : checkSegments nodeCount d.edges d.segments 0 = .ok d.edges.length

lemma reads_segment (s : DecodedSegment) : Reads readSegment s.encode s := by
  unfold readSegment DecodedSegment.encode
  simp only [List.append_assoc]
  refine (reads_decoder_u32 s.source).bind ((reads_decoder_u64 s.firstOrdinal).bind
    ((reads_decoder_u32 s.start).bind ((reads_decoder_u32 s.count).bind
    ((reads_decoder_u32 0).last ?_))))
  rw [if_neg (not_not.2 rfl)]
  exact reads_pure s

lemma reads_index {bound : ℕ} {reason : String} {v : U32} (h : v.val < bound) :
    Reads (readIndex bound reason) (putU32 v) v := by
  refine (reads_decoder_u32 v).last ?_
  rw [if_neg (not_le.2 h)]
  exact reads_pure v

lemma reads_weightBits {v : U32} (h : (BaseWeight.fromBits v).isSome = true) :
    Reads readWeight (putU32 v) v := by
  refine (reads_decoder_u32 v).last ?_
  rw [if_neg (by rw [Option.isNone_iff_eq_none]; exact Option.isSome_iff_ne_none.1 h)]
  exact reads_pure v

/-- The fields of a written partition read back, and its segments are checked. -/
lemma decodePartition_stored {d : DecodedPartition} {p : PartitionDescriptor}
    {nodeCount relationCount : ℕ} (h : d.Storable nodeCount relationCount)
    (hsegments : p.segmentCount.val = d.segments.length)
    (hedges : p.edgeCount.val = d.edges.length) :
    decodePartition d.encodeTopology d.encodeEvidence p nodeCount relationCount =
      (checkSegments nodeCount d.edges d.segments 0 >>= fun stop =>
        if stop ≠ p.edgeCount.val then
          .error (.invalid "partition segments do not cover every edge")
        else .ok d) := by
  have hsc : Fin.ofNat (2 ^ 32) d.segments.length = p.segmentCount :=
    Fin.ext ((Nat.mod_eq_of_lt h.segments_lt).trans hsegments.symm)
  have hec : Fin.ofNat (2 ^ 64) d.edges.length = p.edgeCount :=
    Fin.ext ((Nat.mod_eq_of_lt h.edges_lt).trans hedges.symm)
  have hsegmentsPos : 0 < d.segments.length := List.length_pos_of_ne_nil h.segments_ne
  have hedgesPos : 0 < d.edges.length := List.length_pos_of_ne_nil h.edges_ne
  -- the header agrees with the descriptor, and then the arrays are read one after the other
  have htopology : Reads (readTopology p nodeCount relationCount) d.encodeTopology
      (d.segments, d.destinations, d.relations, d.weights) := by
    unfold readTopology DecodedPartition.encodeTopology
    simp only [List.append_assoc, hsc, hec]
    refine (reads_decoder_u32 p.segmentCount).bind ((reads_decoder_u64 p.edgeCount).bind ?_)
    rw [if_neg]
    · rw [hsegments, hedges]
      refine (reads_many fun s _ => reads_segment s).bind ?_
      rw [← h.destinations_length]
      refine (reads_many fun v hv => reads_index (h.destinations_lt v hv)).bind ?_
      rw [h.destinations_length, ← h.relations_length]
      refine (reads_many fun v hv => reads_index (h.relations_lt v hv)).bind ?_
      rw [h.relations_length, ← h.weights_length]
      exact (reads_many fun v hv => reads_weightBits (h.weights_canonical v hv)).last (reads_pure _)
    · rintro (hne | hne | hzero | hzero)
      · exact hne rfl
      · exact hne rfl
      · rw [hzero] at hsegments
        exact hsegmentsPos.ne hsegments
      · rw [hzero] at hedges
        exact hedgesPos.ne hedges
  have hevidence : Reads (Decoder.many Decoder.u64 p.edgeCount.val) d.encodeEvidence d.edges := by
    rw [hedges]
    exact reads_many fun v _ => reads_decoder_u64 v
  rw [decodePartition, Decoder.all, htopology.complete, ok_bind]
  dsimp only
  rw [Decoder.all, hevidence.complete, ok_bind]
  rfl

/-- A written partition reads back. -/
lemma decodePartition_encode {d : DecodedPartition} {p : PartitionDescriptor}
    {nodeCount relationCount : ℕ} (h : d.Readable nodeCount relationCount)
    (hsegments : p.segmentCount.val = d.segments.length)
    (hedges : p.edgeCount.val = d.edges.length) :
    decodePartition d.encodeTopology d.encodeEvidence p nodeCount relationCount = .ok d := by
  rw [decodePartition_stored h.toStorable hsegments hedges, h.bounds, ok_bind, if_neg (by omega)]

/-! ## Identities and the directory -/

lemma length_encodeIdentities (nodes : List NodeId) (relations : List RelationId) :
    (encodeIdentities nodes relations).length = 8 * (nodes.length + relations.length) := by
  rw [encodeIdentities, List.length_append,
    length_flatten_map_of_length (w := 8) fun _ => by simp [putU64],
    length_flatten_map_of_length (w := 8) fun _ => by simp [putU64], Nat.mul_add]

lemma length_encodeDirectory (offsets : List U64) (segments : List SegmentDescriptor) :
    (encodeDirectory offsets segments).length = 8 * offsets.length + 24 * segments.length := by
  rw [encodeDirectory, List.length_append,
    length_flatten_map_of_length (w := 8) fun _ => by simp [putU64],
    length_flatten_map_of_length (w := 24) fun s => by
      simp [SegmentDescriptor.encode, putU32, putU64]]

lemma length_encodeEvidence (d : DecodedPartition) : d.encodeEvidence.length = 8 * d.edges.length :=
  length_flatten_map_of_length (fun _ => by simp [putU64]) _

lemma length_encodeTopology {d : DecodedPartition} {n m : ℕ} (h : d.Storable n m) :
    d.encodeTopology.length = 12 + 24 * d.segments.length + 12 * d.edges.length := by
  rw [DecodedPartition.encodeTopology]
  simp only [List.length_append]
  rw [length_flatten_map_of_length (w := 24) fun s => by
      simp [DecodedSegment.encode, putU32, putU64],
    length_flatten_map_of_length (w := 4) fun _ => by simp [putU32],
    length_flatten_map_of_length (w := 4) fun _ => by simp [putU32],
    length_flatten_map_of_length (w := 4) fun _ => by simp [putU32],
    h.destinations_length, h.relations_length, h.weights_length]
  simp only [putU32, putU64, length_leBytes]
  omega

lemma anyNeighbours_of_pairwise {k : IdKind} {ids : List (DurableId k)}
    (h : ids.Pairwise (· < ·)) : anyNeighbours (fun a b => decide (b ≤ a)) ids = false := by
  refine anyNeighbours_eq_false.2 (h.isChain.imp fun a b hab => ?_)
  simpa using hab

/-- The written identities read back. -/
lemma readIdentities_encode {m : BundleManifest} {nodes : List NodeId} {relations : List RelationId}
    (hnodes : m.nodeCount.val = nodes.length) (hrelations : m.relationKindCount.val = relations.length)
    (hlength : m.identities.length.val = 8 * (nodes.length + relations.length))
    (hfits : 8 * (nodes.length + relations.length) < 2 ^ 64)
    (hnodesAscending : nodes.Pairwise (· < ·)) (hrelationsAscending : relations.Pairwise (· < ·)) :
    readIdentities m (encodeIdentities nodes relations) = .ok (nodes, relations) := by
  have hcount : (checkedAdd64 m.nodeCount.val m.relationKindCount.val).bind (checkedMul64 · 8) =
      some m.identities.length.val := by
    rw [hnodes, hrelations, hlength, checkedAdd64_eq_some.2 ⟨by omega, rfl⟩, Option.bind_some,
      checkedMul64_eq_some]
    omega
  have hreads : Reads (do
      let nodes ← Decoder.many Decoder.u64 m.nodeCount.val
      let relations ← Decoder.many Decoder.u64 m.relationKindCount.val
      return (nodes, relations)) (encodeIdentities nodes relations)
      (nodes.map (·.asU64), relations.map (·.asU64)) := by
    have hn := reads_many (l := nodes.map (·.asU64)) fun v _ => reads_decoder_u64 v
    have hr := reads_many (l := relations.map (·.asU64)) fun v _ => reads_decoder_u64 v
    rw [List.length_map, List.map_map] at hn hr
    rw [hnodes, hrelations]
    exact hn.bind (hr.last (reads_pure _))
  have hback : ∀ {k : IdKind} (ids : List (DurableId k)),
      (ids.map (·.asU64)).map DurableId.mk = ids := by
    intro k ids
    rw [List.map_map]
    exact List.map_id ids
  rw [readIdentities, hcount, okOr_some, ok_bind, if_neg (not_not.2 rfl), Decoder.all,
    hreads.complete, ok_bind]
  dsimp only
  rw [hback, hback, anyNeighbours_of_pairwise hnodesAscending,
    anyNeighbours_of_pairwise hrelationsAscending]
  rfl

lemma reads_segmentDescriptor (s : SegmentDescriptor) : Reads readSegmentDescriptor s.encode s := by
  unfold readSegmentDescriptor SegmentDescriptor.encode
  simp only [List.append_assoc]
  exact (reads_decoder_u32 s.source).bind ((reads_decoder_u32 s.partition).bind
    ((reads_decoder_u32 s.localSegment).bind ((reads_decoder_u64 s.firstEdgeOrdinal).bind
    ((reads_decoder_u32 s.edgeCount).last (reads_pure s)))))

/-- The written directory reads back. -/
lemma readDirectory_encode {m : BundleManifest} {offsets : List U64}
    {segments : List SegmentDescriptor} (hoffsets : offsets.length = m.nodeCount.val + 1)
    (hsegments : m.segmentCount.val = segments.length)
    (hlength : m.sourceDirectory.length.val = 8 * offsets.length + 24 * segments.length) :
    readDirectory m (encodeDirectory offsets segments) = .ok (offsets, segments) := by
  have hlt := m.sourceDirectory.length.isLt
  have hcount : checkedAdd64 m.nodeCount.val 1 = some offsets.length :=
    checkedAdd64_eq_some.2 ⟨by omega, hoffsets⟩
  have htotal : (do
      let a ← checkedMul64 offsets.length 8
      let b ← checkedMul64 m.segmentCount.val 24
      checkedAdd64 a b) = some m.sourceDirectory.length.val := by
    rw [hsegments, checkedMul64_eq_some.2 ⟨by omega, rfl⟩, checkedMul64_eq_some.2 ⟨by omega, rfl⟩]
    exact checkedAdd64_eq_some.2 ⟨by omega, by omega⟩
  have hreads : Reads (do
      let offsets ← Decoder.many Decoder.u64 offsets.length
      let segments ← Decoder.many readSegmentDescriptor m.segmentCount.val
      return (offsets, segments)) (encodeDirectory offsets segments) (offsets, segments) := by
    rw [hsegments]
    exact (reads_many fun v _ => reads_decoder_u64 v).bind
      ((reads_many fun s _ => reads_segmentDescriptor s).last (reads_pure _))
  rw [readDirectory, hcount, okOr_some, ok_bind, htotal, okOr_some, ok_bind, if_neg (not_not.2 rfl),
    Decoder.all, hreads.complete]

/-! ## A written bundle -/

/-- The values a bundle is written from. -/
structure BundleContents where
  nodes : List NodeId
  relations : List RelationId
  sourceOffsets : List U64
  descriptors : List SegmentDescriptor
  parts : List DecodedPartition
  target : U64
  hardMaximum : U64

namespace BundleContents

variable (checksum : Bytes → Digest) (c : BundleContents)

def topologies : List Bytes := c.parts.map DecodedPartition.encodeTopology

def evidences : List Bytes := c.parts.map DecodedPartition.encodeEvidence

def edgeLists : List (List U64) := c.parts.map (·.edges)

/-- The descriptor of a partition with its number. -/
def describe (dk : DecodedPartition × ℕ) : PartitionDescriptor :=
  dk.1.describe checksum dk.2 (Csr.offset c.topologies dk.2) (Csr.offset c.evidences dk.2)

/-- The manifest of the bundle. -/
def manifest : BundleManifest where
  numericPolicy := NUMERIC_POLICY_ID
  tiePolicy := TIE_POLICY_ID
  nodeCount := Fin.ofNat (2 ^ 64) c.nodes.length
  relationKindCount := Fin.ofNat (2 ^ 64) c.relations.length
  adjacencyCount := Fin.ofNat (2 ^ 64) c.edgeLists.flatten.length
  segmentCount := Fin.ofNat (2 ^ 64) c.descriptors.length
  targetPartitionBytes := c.target
  hardMaximumPartitionBytes := c.hardMaximum
  identities := fileDesc checksum (encodeIdentities c.nodes c.relations)
  sourceDirectory := fileDesc checksum (encodeDirectory c.sourceOffsets c.descriptors)
  topology := fileDesc checksum c.topologies.flatten
  evidence := fileDesc checksum c.evidences.flatten
  partitions := c.parts.zipIdx.map (c.describe checksum)

/-- The files in the order in which they are written. -/
def files (manifestBytes : Bytes) : List (String × Bytes) :=
  [("identities.bin", encodeIdentities c.nodes c.relations),
    ("topology.bin", c.topologies.flatten), ("evidence.bin", c.evidences.flatten),
    ("source-directory.bin", encodeDirectory c.sourceOffsets c.descriptors),
    ("manifest.bin", manifestBytes)]

/-- What opening a bundle checks before it decodes the partitions. -/
structure Directed (sourceEdgeOffsets : List ℕ) : Prop where
  nodes_ascending : c.nodes.Pairwise (· < ·)
  relations_ascending : c.relations.Pairwise (· < ·)
  parts_lt : c.parts.length < 2 ^ 32
  parts_storable : ∀ d ∈ c.parts, d.Storable c.nodes.length c.relations.length
  offsets_length : c.sourceOffsets.length = c.nodes.length + 1
  offsets_head : c.sourceOffsets.head? = some 0
  offsets_last : (c.sourceOffsets.getLast?).map (·.val) = some c.descriptors.length
  offsets_mono : c.sourceOffsets.Pairwise (· ≤ ·)
  sources : sourceEdgeOffsetsFrom c.sourceOffsets c.descriptors 0 0 c.nodes.length =
    .ok sourceEdgeOffsets
  sources_last : (0 :: sourceEdgeOffsets).getLast? = some c.edgeLists.flatten.length

/-- What opening a bundle checks. -/
structure Consistent (sourceEdgeOffsets : List ℕ) : Prop extends c.Directed sourceEdgeOffsets where
  parts_readable : ∀ d ∈ c.parts, d.Readable c.nodes.length c.relations.length
  listed : ∀ k d, c.parts[k]? = some d →
    checkPartitionSegments c.descriptors (Fin.ofNat (2 ^ 32) k) d.segments.zipIdx = .ok ()

/-- The bundle that is opened. -/
def bundle (manifestBytes : Bytes) (sourceEdgeOffsets : List ℕ) : RoutingBundle where
  manifest := c.manifest checksum
  manifestChecksum := checksum manifestBytes
  nodes := c.nodes
  relations := c.relations
  sourceSegmentOffsets := c.sourceOffsets
  segments := c.descriptors
  sourceEdgeOffsets := 0 :: sourceEdgeOffsets
  partitionEdgeOffsets := Csr.offsets c.edgeLists

variable {checksum : Bytes → Digest} {c : BundleContents} {dir : BundleDirectory}
  {manifestBytes : Bytes} {sourceEdgeOffsets : List ℕ}

lemma val_ofNat64 {n : ℕ} (h : n < 2 ^ 64) : (Fin.ofNat (2 ^ 64) n).val = n := Nat.mod_eq_of_lt h

lemma val_ofNat32 {n : ℕ} (h : n < 2 ^ 32) : (Fin.ofNat (2 ^ 32) n).val = n := Nat.mod_eq_of_lt h

/-- The directory holds the written files. -/
structure Holding (checksum : Bytes → Digest) (c : BundleContents) (dir : BundleDirectory)
    (manifestBytes : Bytes) : Prop where
  files_eq : dir.files = c.files manifestBytes
  encoded : (c.manifest checksum).encode = .ok manifestBytes

namespace Holding

lemma read_eq (w : Holding checksum c dir manifestBytes) {n : String} {bytes : Bytes}
    (h : (c.files manifestBytes).lookup n = some bytes) :
    dir.read n = .ok bytes ∧ bytes.length < 2 ^ 63 := by
  have hread : dir.read n = .ok bytes := by
    rw [BundleDirectory.read, w.files_eq, h]
    rfl
  exact ⟨hread, BundleDirectory.length_lt hread⟩

lemma topology (w : Holding checksum c dir manifestBytes) :
    dir.read "topology.bin" = .ok c.topologies.flatten ∧ c.topologies.flatten.length < 2 ^ 63 :=
  w.read_eq rfl

lemma evidence (w : Holding checksum c dir manifestBytes) :
    dir.read "evidence.bin" = .ok c.evidences.flatten ∧ c.evidences.flatten.length < 2 ^ 63 :=
  w.read_eq rfl

lemma validatedFile_eq (w : Holding checksum c dir manifestBytes) {n : String} {bytes : Bytes}
    (h : (c.files manifestBytes).lookup n = some bytes) :
    validatedFile checksum dir n (fileDesc checksum bytes) = .ok bytes := by
  obtain ⟨hread, hlt⟩ := w.read_eq h
  have hlength : (fileDesc checksum bytes).length.val = bytes.length := val_ofNat64 (by omega)
  have hchecksum : (fileDesc checksum bytes).checksum = checksum bytes := rfl
  rw [validatedFile, hread, ok_bind, if_neg (not_not.2 hlength.symm), hchecksum,
    if_neg (not_not.2 rfl)]
  rfl

lemma length_edges (c : BundleContents) :
    c.evidences.flatten.length = 8 * c.edgeLists.flatten.length := by
  rw [evidences, edgeLists]
  induction c.parts with
  | nil => rfl
  | cons d ds ih =>
    rw [List.map_cons, List.flatten_cons, List.length_append, ih, List.map_cons, List.flatten_cons,
      List.length_append, length_encodeEvidence, Nat.mul_add]

/-- The counts of the manifest are the lengths of the tables. -/
lemma counts (w : Holding checksum c dir manifestBytes) :
    8 * (c.nodes.length + c.relations.length) < 2 ^ 63 ∧
    8 * c.sourceOffsets.length + 24 * c.descriptors.length < 2 ^ 63 ∧
    8 * c.edgeLists.flatten.length < 2 ^ 63 := by
  have hidentities := (w.read_eq (n := "identities.bin") rfl).2
  have hdirectory := (w.read_eq (n := "source-directory.bin") rfl).2
  have hevidence := w.evidence.2
  rw [length_encodeIdentities] at hidentities
  rw [length_encodeDirectory] at hdirectory
  rw [length_edges] at hevidence
  exact ⟨hidentities, hdirectory, hevidence⟩

/-- The bytes of one of several regions written one after the other. -/
lemma readRange_flatten {buckets : List Bytes} {k : ℕ} {b : Bytes} (h : buckets[k]? = some b) :
    readRange buckets.flatten (Csr.offset buckets k) b.length = .ok b := by
  have hslice := Csr.drop_take_flatten h
  rw [List.drop_take, Csr.offset_succ h, Nat.add_sub_cancel_left] at hslice
  simp only [readRange, hslice, if_true]

/-- What the descriptor of a partition says. -/
lemma describe_eq (w : Holding checksum c dir manifestBytes) {tail : List ℕ}
    (h : c.Directed tail) {k : ℕ} {d : DecodedPartition} (hk : c.parts[k]? = some d) :
    (c.describe checksum (d, k)).id.val = k ∧
    (c.describe checksum (d, k)).topologyOffset.val = Csr.offset c.topologies k ∧
    (c.describe checksum (d, k)).topologyLength.val = d.encodeTopology.length ∧
    (c.describe checksum (d, k)).evidenceOffset.val = Csr.offset c.evidences k ∧
    (c.describe checksum (d, k)).evidenceLength.val = d.encodeEvidence.length ∧
    (c.describe checksum (d, k)).segmentCount.val = d.segments.length ∧
    (c.describe checksum (d, k)).edgeCount.val = d.edges.length := by
  have hlt := (List.getElem?_eq_some_iff.1 hk).1
  have hstorable := h.parts_storable d (List.mem_of_getElem? hk)
  have htop : Csr.offset c.topologies (k + 1) ≤ c.topologies.flatten.length := by
    rw [← Csr.offset_length]
    exact Csr.offset_mono _ (by rw [topologies, List.length_map]; omega)
  have hev : Csr.offset c.evidences (k + 1) ≤ c.evidences.flatten.length := by
    rw [← Csr.offset_length]
    exact Csr.offset_mono _ (by rw [evidences, List.length_map]; omega)
  rw [Csr.offset_succ (show c.topologies[k]? = some d.encodeTopology by simp [topologies, hk])] at htop
  rw [Csr.offset_succ (show c.evidences[k]? = some d.encodeEvidence by simp [evidences, hk])] at hev
  have htopology := w.topology.2
  have hevidence := w.evidence.2
  have hparts := h.parts_lt
  have htopOffset : Csr.offset c.topologies k < 2 ^ 64 := by omega
  have htopLength : d.encodeTopology.length < 2 ^ 64 := by omega
  have hevOffset : Csr.offset c.evidences k < 2 ^ 64 := by omega
  have hevLength : d.encodeEvidence.length < 2 ^ 64 := by omega
  exact ⟨val_ofNat32 (by omega), val_ofNat64 htopOffset, val_ofNat64 htopLength,
    val_ofNat64 hevOffset, val_ofNat64 hevLength, val_ofNat32 hstorable.segments_lt,
    val_ofNat64 hstorable.edges_lt⟩

/-- The bytes of a written partition are decoded. -/
lemma readPartitionData_stored (w : Holding checksum c dir manifestBytes) {tail : List ℕ}
    (h : c.Directed tail) {k : ℕ} {d : DecodedPartition} (hk : c.parts[k]? = some d) :
    readPartitionData dir (c.manifest checksum) (c.describe checksum (d, k)) =
      decodePartition d.encodeTopology d.encodeEvidence (c.describe checksum (d, k))
        c.nodes.length c.relations.length := by
  obtain ⟨-, htopOffset, htopLength, hevOffset, hevLength, -, -⟩ := w.describe_eq h hk
  obtain ⟨hidentities, -, -⟩ := w.counts
  have hnodes : (c.manifest checksum).nodeCount.val = c.nodes.length := val_ofNat64 (by omega)
  have hrelations : (c.manifest checksum).relationKindCount.val = c.relations.length :=
    val_ofNat64 (by omega)
  rw [readPartitionData, w.topology.1, ok_bind, htopOffset, htopLength,
    readRange_flatten (by simp [topologies, hk]), ok_bind, w.evidence.1, ok_bind, hevOffset,
    hevLength, readRange_flatten (by simp [evidences, hk]), ok_bind, hnodes, hrelations]

/-- A written partition reads back. -/
lemma readPartitionData_eq (w : Holding checksum c dir manifestBytes) {tail : List ℕ}
    (h : c.Consistent tail) {k : ℕ} {d : DecodedPartition} (hk : c.parts[k]? = some d) :
    readPartitionData dir (c.manifest checksum) (c.describe checksum (d, k)) = .ok d := by
  obtain ⟨-, -, -, -, -, hsegments, hedges⟩ := w.describe_eq h.toDirected hk
  rw [w.readPartitionData_stored h.toDirected hk]
  exact decodePartition_encode (h.parts_readable d (List.mem_of_getElem? hk)) hsegments hedges

lemma partition_at {pre post : List PartitionDescriptor} {p : PartitionDescriptor}
    (h : (c.manifest checksum).partitions = pre ++ p :: post) :
    ∃ d, c.parts[pre.length]? = some d ∧ p = c.describe checksum (d, pre.length) := by
  have hget : (c.manifest checksum).partitions[pre.length]? = some p := by simp [h]
  simp only [manifest, List.getElem?_map, Option.map_eq_some_iff] at hget
  obtain ⟨⟨d, k⟩, hdk, rfl⟩ := hget
  rw [List.getElem?_zipIdx, Option.map_eq_some_iff] at hdk
  obtain ⟨d', hd', heq⟩ := hdk
  simp only [Prod.mk.injEq, Nat.zero_add] at heq
  obtain ⟨rfl, rfl⟩ := heq
  exact ⟨d', hd', rfl⟩

lemma validateRange_eq (w : Holding checksum c dir manifestBytes) {tail : List ℕ}
    (h : c.Directed tail) {k : ℕ} {d : DecodedPartition} (hk : c.parts[k]? = some d) :
    validateRange checksum dir (c.manifest checksum)
        (Csr.offset c.topologies k, Csr.offset c.evidences k) (c.describe checksum (d, k)) =
      .ok (Csr.offset c.topologies (k + 1), Csr.offset c.evidences (k + 1)) := by
  obtain ⟨-, htopOffset, htopLength, hevOffset, hevLength, -, -⟩ := w.describe_eq h hk
  have hlt := (List.getElem?_eq_some_iff.1 hk).1
  have hstorable := h.parts_storable d (List.mem_of_getElem? hk)
  have htopSucc := Csr.offset_succ
    (show c.topologies[k]? = some d.encodeTopology by simp [topologies, hk])
  have hevSucc := Csr.offset_succ
    (show c.evidences[k]? = some d.encodeEvidence by simp [evidences, hk])
  have htopBound : Csr.offset c.topologies (k + 1) ≤ c.topologies.flatten.length := by
    rw [← Csr.offset_length]
    exact Csr.offset_mono _ (by rw [topologies, List.length_map]; omega)
  have hevBound : Csr.offset c.evidences (k + 1) ≤ c.evidences.flatten.length := by
    rw [← Csr.offset_length]
    exact Csr.offset_mono _ (by rw [evidences, List.length_map]; omega)
  have htopology := w.topology.2
  have hevidence := w.evidence.2
  have htopFile : (c.manifest checksum).topology.length.val = c.topologies.flatten.length :=
    val_ofNat64 (by omega)
  have hevFile : (c.manifest checksum).evidence.length.val = c.evidences.flatten.length :=
    val_ofNat64 (by omega)
  have htopPos : 0 < d.encodeTopology.length := by
    rw [length_encodeTopology hstorable]
    omega
  have hevPos : 0 < d.encodeEvidence.length := by
    rw [length_encodeEvidence]
    have := List.length_pos_of_ne_nil hstorable.edges_ne
    omega
  rw [validateRange, if_neg]
  · rw [htopLength, hevLength, checkedAdd64_eq_some.2 ⟨by omega, htopSucc⟩, okOr_some, ok_bind,
      checkedAdd64_eq_some.2 ⟨by omega, hevSucc⟩, okOr_some, ok_bind, if_neg (by omega),
      w.topology.1, ok_bind, htopOffset, readRange_flatten (by simp [topologies, hk]), ok_bind,
      w.evidence.1, ok_bind, hevOffset, readRange_flatten (by simp [evidences, hk]), ok_bind,
      if_neg]
    · rfl
    · rintro (hne | hne)
      · exact hne rfl
      · exact hne rfl
  · rintro (hne | hne | hzero | hzero)
    · exact hne htopOffset
    · exact hne hevOffset
    · rw [hzero] at htopLength
      exact htopPos.ne htopLength
    · rw [hzero] at hevLength
      exact hevPos.ne hevLength

lemma validateRanges_eq (w : Holding checksum c dir manifestBytes) {tail : List ℕ}
    (h : c.Directed tail) : validateRanges checksum dir (c.manifest checksum) = .ok () := by
  have htopology : (c.manifest checksum).topology.length.val = c.topologies.flatten.length :=
    val_ofNat64 (by have := w.topology.2; omega)
  have hevidence : (c.manifest checksum).evidence.length.val = c.evidences.flatten.length :=
    val_ofNat64 (by have := w.evidence.2; omega)
  have hfold : (c.manifest checksum).partitions.foldlM
      (validateRange checksum dir (c.manifest checksum)) (0, 0) =
        .ok (c.topologies.flatten.length, c.evidences.flatten.length) := by
    have hruns := foldlM_eq_ok (f := validateRange checksum dir (c.manifest checksum))
      (fun pre => (Csr.offset c.topologies pre.length, Csr.offset c.evidences pre.length))
      (c.manifest checksum).partitions fun pre p post heq => ?_
    · have hlength : (c.manifest checksum).partitions.length = c.parts.length := by simp [manifest]
      have htops : c.topologies.length = c.parts.length := List.length_map _
      have hevs : c.evidences.length = c.parts.length := List.length_map _
      rw [hlength] at hruns
      rw [← Csr.offset_length, ← Csr.offset_length, htops, hevs]
      exact hruns
    · obtain ⟨d, hd, rfl⟩ := partition_at heq
      rw [List.length_append, List.length_singleton]
      exact w.validateRange_eq h hd
  rw [validateRanges, hfold, ok_bind]
  dsimp only
  rw [htopology, hevidence, if_neg (by simp), if_neg]
  · rfl
  · rintro ⟨hzero, hne⟩
    -- without edges there is no partition, and both files are empty
    have hnone : c.edgeLists.flatten.length = 0 := by
      obtain ⟨-, -, hlt⟩ := w.counts
      rw [← val_ofNat64 (show c.edgeLists.flatten.length < 2 ^ 64 by omega)]
      exact congrArg Fin.val hzero
    have hempty : c.parts = [] := by
      refine List.eq_nil_iff_forall_not_mem.2 fun d hd => ?_
      have hedges := (h.parts_storable d hd).edges_ne
      rw [List.length_eq_zero_iff, List.flatten_eq_nil_iff] at hnone
      exact hedges (hnone _ (List.mem_map_of_mem hd))
    rcases hne with hne | hne | hne
    · exact hne (by simp [manifest, hempty])
    · exact hne (Fin.ext (by rw [htopology]; simp [topologies, hempty]))
    · exact hne (Fin.ext (by rw [hevidence]; simp [evidences, hempty]))

lemma partitionEdgeOffsetsFrom_eq (w : Holding checksum c dir manifestBytes) {tail : List ℕ}
    (h : c.Consistent tail) : ∀ (pre post : List DecodedPartition), c.parts = pre ++ post →
    partitionEdgeOffsetsFrom dir (c.manifest checksum) c.descriptors
        (Csr.offset c.edgeLists pre.length)
        ((post.zipIdx pre.length).map (c.describe checksum)) =
      .ok ((List.range post.length).map fun i => Csr.offset c.edgeLists (pre.length + i + 1)) := by
  intro pre post
  induction post generalizing pre with
  | nil => exact fun _ => rfl
  | cons d post ih =>
    intro hparts
    have hk : c.parts[pre.length]? = some d := by simp [hparts]
    have hnext := ih (pre ++ [d]) (by rw [hparts, List.append_assoc, List.singleton_append])
    rw [List.length_append, List.length_singleton] at hnext
    obtain ⟨-, -, -, -, -, -, hedges⟩ := w.describe_eq h.toDirected hk
    have hsucc := Csr.offset_succ
      (show c.edgeLists[pre.length]? = some d.edges by simp [edgeLists, hk])
    have hbound : Csr.offset c.edgeLists (pre.length + 1) ≤ c.edgeLists.flatten.length := by
      rw [← Csr.offset_length]
      refine Csr.offset_mono _ ?_
      rw [edgeLists, List.length_map, hparts, List.length_append, List.length_cons]
      omega
    obtain ⟨-, -, hlt⟩ := w.counts
    have hlisted : checkPartitionSegments c.descriptors
        (c.describe checksum (d, pre.length)).id d.segments.zipIdx = .ok () :=
      h.listed _ d hk
    rw [List.zipIdx_cons, List.map_cons, partitionEdgeOffsetsFrom, w.readPartitionData_eq h hk,
      ok_bind, hlisted, ok_bind, hedges, checkedAdd64_eq_some.2 ⟨by omega, hsucc⟩, okOr_some,
      ok_bind, hnext, ok_bind, List.length_cons, List.range_succ_eq_map, List.map_cons,
      List.map_map]
    have hshift : (List.range post.length).map
        (fun i => Csr.offset c.edgeLists (pre.length + 1 + i + 1)) =
        (List.range post.length).map
          ((fun i => Csr.offset c.edgeLists (pre.length + i + 1)) ∘ Nat.succ) := by
      refine List.map_congr_left fun i _ => ?_
      rw [Function.comp_apply]
      congr 1
      omega
    rw [hshift]
    rfl

/-- Opening a written bundle comes to its partitions. -/
lemma openBundle_directed (w : Holding checksum c dir manifestBytes) {tail : List ℕ}
    (h : c.Directed tail) :
    BundleManifest.decode manifestBytes = .ok (c.manifest checksum) ∧
    openBundle checksum dir =
      (partitionEdgeOffsetsFrom dir (c.manifest checksum) c.descriptors 0
          (c.manifest checksum).partitions >>= fun partitionTail =>
        if (0 :: partitionTail).getLast? ≠ some (c.manifest checksum).adjacencyCount.val then
          .error (.invalid "partition adjacency counts disagree")
        else .ok ⟨c.manifest checksum, checksum manifestBytes, c.nodes, c.relations,
          c.sourceOffsets, c.descriptors, 0 :: tail, 0 :: partitionTail⟩) := by
  obtain ⟨hidentities, hdirectory, hedges⟩ := w.counts
  have hnodes : (c.manifest checksum).nodeCount.val = c.nodes.length := val_ofNat64 (by omega)
  have hrelations : (c.manifest checksum).relationKindCount.val = c.relations.length :=
    val_ofNat64 (by omega)
  have hsegments : (c.manifest checksum).segmentCount.val = c.descriptors.length :=
    val_ofNat64 (by omega)
  have hadjacency : (c.manifest checksum).adjacencyCount.val = c.edgeLists.flatten.length :=
    val_ofNat64 (by omega)
  -- every check before the partitions passes, in the order in which opening makes them
  have hfiles : hasBundleFiles dir = true := by
    have hnames : ((c.files manifestBytes).map (·.1)).Perm bundleFiles := by
      simp only [files, bundleFiles, List.map_cons, List.map_nil]
      decide
    rw [hasBundleFiles, w.files_eq, decide_eq_true_eq]
    exact ((List.perm_insertionSort _ _).trans
      (hnames.trans (List.perm_insertionSort _ _).symm)).eq_of_pairwise
      (fun _ _ _ _ hab hba => le_antisymm hab hba) (List.pairwise_insertionSort _ _)
      (List.pairwise_insertionSort _ _)
  have hdecode : BundleManifest.decode manifestBytes = .ok (c.manifest checksum) := by
    refine decode_of_encode w.encoded ⟨rfl, rfl, ?_⟩
    refine List.ext_getElem? fun k => ?_
    rcases hk : c.parts[k]? with _ | d
    · have hle := List.getElem?_eq_none_iff.1 hk
      simp [manifest, hle]
    · have hlt := (List.getElem?_eq_some_iff.1 hk).1
      simp only [manifest, List.getElem?_map, List.getElem?_zipIdx, hk, Option.map_some,
        Nat.zero_add, (w.describe_eq h hk).1, List.length_map, List.length_zipIdx,
        List.getElem?_range hlt]
  have htables : readIdentities (c.manifest checksum) (encodeIdentities c.nodes c.relations) =
      .ok (c.nodes, c.relations) := by
    refine readIdentities_encode hnodes hrelations ?_ (by omega) h.nodes_ascending
      h.relations_ascending
    rw [← length_encodeIdentities]
    exact val_ofNat64 (by rw [length_encodeIdentities]; omega)
  have hsources : readDirectory (c.manifest checksum)
      (encodeDirectory c.sourceOffsets c.descriptors) = .ok (c.sourceOffsets, c.descriptors) := by
    refine readDirectory_encode (by rw [hnodes, h.offsets_length]) hsegments ?_
    rw [← length_encodeDirectory]
    exact val_ofNat64 (by rw [length_encodeDirectory]; omega)
  have hmono : anyNeighbours (fun a b => decide (b < a)) c.sourceOffsets = false := by
    refine anyNeighbours_eq_false.2 (h.offsets_mono.isChain.imp fun a b hab => ?_)
    simpa using hab
  have hend : c.sourceOffsets.getLast? = some (c.manifest checksum).segmentCount := by
    obtain ⟨v, hv, hval⟩ := Option.map_eq_some_iff.1 h.offsets_last
    rw [hv, Option.some.injEq]
    exact Fin.ext (hval.trans hsegments.symm)
  refine ⟨hdecode, ?_⟩
  rw [openBundle, hfiles, if_neg (by simp), (w.read_eq (n := "manifest.bin") rfl).1, ok_bind,
    hdecode, ok_bind]
  rw [show (c.manifest checksum).identities = fileDesc checksum _ from rfl,
    w.validatedFile_eq (n := "identities.bin") rfl, ok_bind,
    show (c.manifest checksum).sourceDirectory = fileDesc checksum _ from rfl,
    w.validatedFile_eq (n := "source-directory.bin") rfl, ok_bind,
    show (c.manifest checksum).topology = fileDesc checksum _ from rfl,
    w.validatedFile_eq (n := "topology.bin") rfl, ok_bind,
    show (c.manifest checksum).evidence = fileDesc checksum _ from rfl,
    w.validatedFile_eq (n := "evidence.bin") rfl, ok_bind, htables, ok_bind]
  dsimp only
  rw [hsources, ok_bind]
  dsimp only
  rw [w.validateRanges_eq h, ok_bind, if_neg, hnodes, h.sources, ok_bind, h.sources_last,
    hadjacency, if_neg (not_not.2 rfl)]
  · rfl
  · rw [h.offsets_head, hend, hmono]
    simp

/-- The written bundle opens. -/
theorem openBundle_eq (w : Holding checksum c dir manifestBytes) {tail : List ℕ}
    (h : c.Consistent tail) :
    openBundle checksum dir = .ok (c.bundle checksum manifestBytes tail) := by
  obtain ⟨-, -, hedges⟩ := w.counts
  have hadjacency : (c.manifest checksum).adjacencyCount.val = c.edgeLists.flatten.length :=
    val_ofNat64 (by omega)
  have hpartitions := w.partitionEdgeOffsetsFrom_eq h [] c.parts rfl
  rw [List.length_nil, Csr.offset_zero] at hpartitions
  have hoffsets : 0 :: (List.range c.parts.length).map
      (fun i => Csr.offset c.edgeLists (0 + i + 1)) = Csr.offsets c.edgeLists := by
    rw [← Csr.zero_cons_offsets, edgeLists, List.length_map]
    simp only [Nat.zero_add]
  have hlast : (Csr.offsets c.edgeLists).getLast? = some c.edgeLists.flatten.length := by
    rw [← Csr.offset_length, Csr.offsets, List.range_succ, List.map_append, List.getLast?_append]
    rfl
  rw [(w.openBundle_directed h.toDirected).2]
  show (partitionEdgeOffsetsFrom dir (c.manifest checksum) c.descriptors 0
    (c.parts.zipIdx.map (c.describe checksum)) >>= _) = _
  rw [hpartitions, ok_bind, hoffsets, hlast, hadjacency, if_neg (not_not.2 rfl)]
  rfl

/-- An opened partition loads as it was written. -/
lemma loadPartition_eq (w : Holding checksum c dir manifestBytes) {tail : List ℕ}
    (h : c.Consistent tail) {k : ℕ} {d : DecodedPartition} (hk : c.parts[k]? = some d) :
    (c.bundle checksum manifestBytes tail).loadPartition checksum dir
      (c.describe checksum (d, k)) = .ok d := by
  rw [PathHydra.loadPartition_eq (b := c.bundle checksum manifestBytes tail)
    (w.validateRange_eq h.toDirected hk)]
  exact w.readPartitionData_eq h hk

end Holding

end BundleContents

end PathHydra
