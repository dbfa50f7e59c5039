import PathHydra.Properties.Bundle.Denotes

/-!
# Malformed bundles

A bundle is read from bytes nobody vouches for.  Every field is read within its input, the source
directory is indexed within its bounds, and what opens loads as an image.  One slice is taken before
it is checked: `decode_partition` takes the edges of a segment by the segment's own count, and only
after the last segment compares the counts with the number of edges.  A segment that passes its own
checks and ends behind the last edge therefore panics, and nothing else does
(`bundle_returns_iff`).
-/

namespace PathHydra

/-- The call returns: with a value or with an error. -/
def Returns {α : Type} (x : Except BundleError α) : Prop := x ≠ .error .noReturn

section Returns

variable {α β : Type}

lemma returns_ok (a : α) : Returns (.ok a) := nofun

lemma returns_io (reason : String) : Returns (.error (.io reason) : Except BundleError α) := nofun

lemma returns_invalid (reason : String) :
    Returns (.error (.invalid reason) : Except BundleError α) := nofun

lemma Returns.bind {x : Except BundleError α} {f : α → Except BundleError β} (h : Returns x)
    (hf : ∀ a, x = .ok a → Returns (f a)) : Returns (x >>= f) := by
  rcases x with e | a
  · intro heq
    exact h (congrArg _ (Except.error.inj heq))
  · exact hf a rfl

lemma returns_okOr (reason : String) (o : Option α) : Returns (okOr (.invalid reason) o) := by
  rcases o with _ | a
  · exact returns_invalid reason
  · exact returns_ok a

lemma returns_ite {p : Prop} [Decidable p] {x y : Except BundleError α} (hx : p → Returns x)
    (hy : ¬ p → Returns y) : Returns (if p then x else y) := by
  split_ifs with h
  · exact hx h
  · exact hy h

/-- A loop whose every turn returns. -/
lemma returns_foldlM {f : β → α → Except BundleError β} (l : List α)
    (h : ∀ c ∈ l, ∀ b, Returns (f b c)) (b : β) : Returns (l.foldlM f b) := by
  induction l generalizing b with
  | nil => exact returns_ok b
  | cons c l ih =>
    rw [List.foldlM_cons]
    refine (h c (by simp) b).bind fun b' _ => ?_
    exact ih (fun c' hc' => h c' (by simp [hc'])) b'

end Returns

/-! ## Readers -/

/-- The reader returns on every input. -/
def Reader.Safe {α : Type} (r : Reader BundleError α) : Prop := ∀ input, Returns (r input)

section Readers

variable {α β : Type} {r : Reader BundleError α}

lemma safe_pure (a : α) : (pure a : Reader BundleError α).Safe := fun _ => returns_ok _

lemma safe_fail (reason : String) : (Reader.fail (.invalid reason) : Reader _ α).Safe :=
  fun _ => returns_invalid reason

lemma Reader.Safe.bind (h : r.Safe) {f : α → Reader BundleError β} (hf : ∀ a, (f a).Safe) :
    (r >>= f).Safe := by
  intro input
  show Returns (r input >>= fun p => f p.1 p.2)
  exact (h input).bind fun p _ => hf p.1 p.2

lemma safe_take (reason : String) (n : ℕ) : (Reader.take (.invalid reason) n).Safe :=
  fun _ => returns_ite (fun _ => returns_ok _) fun _ => returns_invalid reason

lemma safe_u32 : Decoder.u32.Safe := (safe_take _ 4).bind fun _ => safe_pure _

lemma safe_u64 : Decoder.u64.Safe := (safe_take _ 8).bind fun _ => safe_pure _

lemma Reader.Safe.many (h : r.Safe) (n : ℕ) : (Decoder.many r n).Safe := by
  induction n with
  | zero => exact safe_pure []
  | succ n ih => exact h.bind fun a => ih.bind fun rest => safe_pure (a :: rest)

lemma Reader.Safe.all (h : r.Safe) (input : Bytes) : Returns (Decoder.all r input) := by
  refine (h input).bind fun p _ => ?_
  exact returns_ite (fun _ => returns_ok _) fun _ => returns_invalid _

/-- A reader that checks what it read. -/
lemma safe_checked {p : α → Prop} [DecidablePred p] {reason : String} (h : r.Safe)
    {f : α → Reader BundleError β} (hf : ∀ a, (f a).Safe) :
    (do let a ← r; if p a then Reader.fail (.invalid reason) else f a :
      Reader BundleError β).Safe := by
  refine h.bind fun a => ?_
  split_ifs
  · exact safe_fail reason
  · exact hf a

end Readers

lemma safe_readSegment : readSegment.Safe := by
  refine safe_u32.bind fun _ => safe_u64.bind fun _ => safe_u32.bind fun _ => safe_u32.bind fun _ =>
    ?_
  exact safe_checked safe_u32 fun _ => safe_pure _

lemma safe_readIndex (bound : ℕ) (reason : String) : (readIndex bound reason).Safe :=
  safe_checked safe_u32 fun v => safe_pure v

lemma safe_readWeight : readWeight.Safe := safe_checked safe_u32 fun v => safe_pure v

lemma safe_readTopology (p : PartitionDescriptor) (nodeCount relationCount : ℕ) :
    (readTopology p nodeCount relationCount).Safe := by
  refine safe_u32.bind fun sc => safe_checked safe_u64 fun ec => ?_
  refine (safe_readSegment.many _).bind fun segments => ?_
  refine ((safe_readIndex _ _).many _).bind fun destinations => ?_
  refine ((safe_readIndex _ _).many _).bind fun relations => ?_
  exact (safe_readWeight.many _).bind fun weights => safe_pure _

lemma safe_readSegmentDescriptor : readSegmentDescriptor.Safe :=
  safe_u32.bind fun _ => safe_u32.bind fun _ => safe_u32.bind fun _ => safe_u64.bind fun _ =>
    safe_u32.bind fun _ => safe_pure _

/-! ## Partitions -/

/-- A segment that passes its own checks ends behind the last edge, and the segments before it pass
theirs.  The segments start at a position. -/
def SegmentsOverrun (nodeCount : ℕ) (edges : List U64) (first : ℕ) (segments : List DecodedSegment) :
    Prop :=
  ∃ pre s post, segments = pre ++ s :: post ∧
    (∀ k g, (pre ++ [s])[k]? = some g → g.source.val < nodeCount ∧ g.count ≠ 0 ∧
      g.start.val = first + ((pre.take k).map (·.count.val)).sum) ∧
    (∀ g ∈ pre, ((edges.drop g.start.val).take g.count.val).Pairwise (· < ·)) ∧
    edges.length < s.start.val + s.count.val

lemma not_segmentsOverrun_nil (nodeCount : ℕ) (edges : List U64) (first : ℕ) :
    ¬ SegmentsOverrun nodeCount edges first [] := by
  rintro ⟨pre, s, post, hsegments, -⟩
  simp at hsegments

/-- The first segment is inside, or it is the one that overruns. -/
lemma segmentsOverrun_cons {nodeCount : ℕ} {edges : List U64} {first : ℕ} {s : DecodedSegment}
    {rest : List DecodedSegment} : SegmentsOverrun nodeCount edges first (s :: rest) ↔
      (s.source.val < nodeCount ∧ s.start.val = first ∧ s.count ≠ 0) ∧
        (edges.length < s.start.val + s.count.val ∨
          ((edges.drop s.start.val).take s.count.val).Pairwise (· < ·) ∧
            SegmentsOverrun nodeCount edges (first + s.count.val) rest) := by
  constructor
  · rintro ⟨pre, g, post, hsegments, hchecks, hascending, hover⟩
    rcases pre with _ | ⟨a, pre⟩
    · obtain ⟨rfl, rfl⟩ := List.cons.inj hsegments
      obtain ⟨hsource, hcount, hstart⟩ := hchecks 0 s rfl
      exact ⟨⟨hsource, hstart, hcount⟩, .inl hover⟩
    · obtain ⟨rfl, rfl⟩ := List.cons.inj hsegments
      obtain ⟨hsource, hcount, hstart⟩ := hchecks 0 s rfl
      refine ⟨⟨hsource, hstart, hcount⟩, .inr ⟨hascending s (by simp), pre, g, post, rfl, ?_,
        fun g' hg' => hascending g' (by simp [hg']), hover⟩⟩
      intro k g' hg'
      obtain ⟨hsource', hcount', hstart'⟩ := hchecks (k + 1) g' hg'
      refine ⟨hsource', hcount', ?_⟩
      rw [hstart', List.take_succ_cons, List.map_cons, List.sum_cons, Nat.add_assoc]
  · rintro ⟨⟨hsource, hstart, hcount⟩, hover | ⟨hascending, pre, g, post, rfl, hchecks, hpre, hover⟩⟩
    · refine ⟨[], s, rest, rfl, fun k g hg => ?_, nofun, hover⟩
      rcases k with _ | k
      · obtain rfl := Option.some.inj hg
        exact ⟨hsource, hcount, hstart⟩
      · cases hg
    · refine ⟨s :: pre, g, post, rfl, fun k g' hg' => ?_, fun g' hg' => ?_, hover⟩
      · rcases k with _ | k
        · obtain rfl := Option.some.inj hg'
          exact ⟨hsource, hcount, hstart⟩
        · obtain ⟨hsource', hcount', hstart'⟩ := hchecks k g' hg'
          refine ⟨hsource', hcount', ?_⟩
          rw [hstart', List.take_succ_cons, List.map_cons, List.sum_cons, Nat.add_assoc]
      · rcases List.mem_cons.1 hg' with rfl | hg'
        · exact hascending
        · exact hpre g' hg'

lemma checkSegments_noReturn {nodeCount : ℕ} {edges : List U64} {segments : List DecodedSegment}
    {first : ℕ} : checkSegments nodeCount edges segments first = .error .noReturn ↔
      SegmentsOverrun nodeCount edges first segments := by
  induction segments generalizing first with
  | nil =>
    rw [checkSegments]
    exact iff_of_false (by simp) (not_segmentsOverrun_nil nodeCount edges first)
  | cons s rest ih =>
    rw [checkSegments, segmentsOverrun_cons]
    split_ifs with hbounds hover hneighbours
    · refine iff_of_false (by simp) ?_
      rintro ⟨⟨hsource, hstart, hcount⟩, -⟩
      rcases hbounds with hle | hne | hzero
      · exact absurd hsource (not_lt.2 hle)
      · exact hne hstart
      · exact hcount hzero
    · push Not at hbounds
      exact iff_of_true rfl ⟨hbounds, .inl hover⟩
    · refine iff_of_false (by simp) ?_
      rintro ⟨-, hover' | ⟨hascending, -⟩⟩
      · exact hover hover'
      · have hnone := anyNeighbours_eq_false (p := fun a b : U64 => decide (b ≤ a)) |>.2
          (hascending.isChain.imp fun a b hab => by simpa using hab)
        rw [hnone] at hneighbours
        cases hneighbours
    · push Not at hbounds
      rw [ih]
      have hascending : ((edges.drop s.start.val).take s.count.val).Pairwise (· < ·) := by
        refine List.isChain_iff_pairwise.1
          ((anyNeighbours_eq_false.1 (by simpa using hneighbours)).imp fun a b hab => ?_)
        simpa using hab
      constructor
      · exact fun h => ⟨hbounds, .inr ⟨hascending, h⟩⟩
      · rintro ⟨-, hover' | ⟨-, h⟩⟩
        · exact absurd hover' hover
        · exact h

/-- The bytes of a partition hold its fields, and its segments overrun its edges. -/
def PartitionOverruns (top ev : Bytes) (p : PartitionDescriptor) (nodeCount relationCount : ℕ) :
    Prop :=
  ∃ segments destinations relations weights edges,
    Decoder.all (readTopology p nodeCount relationCount) top =
      .ok (segments, destinations, relations, weights) ∧
    Decoder.all (Decoder.many Decoder.u64 p.edgeCount.val) ev = .ok edges ∧
    SegmentsOverrun nodeCount edges 0 segments

/-- A step that returns passes the panics of the next one on. -/
lemma bind_noReturn {α β : Type} {x : Except BundleError α} {f : α → Except BundleError β}
    (h : Returns x) : (x >>= f) = .error .noReturn ↔ ∃ a, x = .ok a ∧ f a = .error .noReturn := by
  rcases x with e | a
  · constructor
    · exact fun heq => absurd (congrArg Except.error (Except.error.inj heq)) h
    · rintro ⟨a, ha, -⟩
      cases ha
  · constructor
    · exact fun heq => ⟨a, rfl, heq⟩
    · rintro ⟨_, ha, hf⟩
      obtain rfl := Except.ok.inj ha
      exact hf

lemma decodePartition_noReturn {top ev : Bytes} {p : PartitionDescriptor}
    {nodeCount relationCount : ℕ} :
    decodePartition top ev p nodeCount relationCount = .error .noReturn ↔
      PartitionOverruns top ev p nodeCount relationCount := by
  have hlast : ∀ {x : Except BundleError ℕ} {d : DecodedPartition},
      (x >>= fun stop => if stop ≠ p.edgeCount.val then
        .error (.invalid "partition segments do not cover every edge") else pure d) =
          .error .noReturn ↔ x = .error .noReturn := by
    intro x d
    rcases x with e | stop
    · rw [error_bind, Except.error.injEq, Except.error.injEq]
    · refine iff_of_false ?_ nofun
      exact returns_ite (fun _ => returns_invalid _) fun _ => returns_ok d
  rw [decodePartition, bind_noReturn ((safe_readTopology _ _ _).all top)]
  constructor
  · rintro ⟨⟨segments, destinations, relations, weights⟩, htop, h⟩
    obtain ⟨edges, hev, h⟩ := (bind_noReturn ((safe_u64.many _).all ev)).1 h
    exact ⟨segments, destinations, relations, weights, edges, htop, hev,
      checkSegments_noReturn.1 (hlast.1 h)⟩
  · rintro ⟨segments, destinations, relations, weights, edges, htop, hev, hover⟩
    refine ⟨_, htop, (bind_noReturn ((safe_u64.many _).all ev)).2 ⟨edges, hev, ?_⟩⟩
    exact hlast.2 (checkSegments_noReturn.2 hover)

lemma returns_read (dir : BundleDirectory) (file : String) : Returns (dir.read file) := by
  rw [BundleDirectory.read]
  rcases dir.files.lookup file with _ | bytes
  · exact returns_io _
  · exact returns_ok bytes

lemma returns_readRange (file : Bytes) (offset length : ℕ) :
    Returns (readRange file offset length) :=
  returns_ite (fun _ => returns_ok _) fun _ => returns_io _

/-- The bytes that the files of a bundle hold for a partition overrun. -/
def RegionOverruns (dir : BundleDirectory) (m : BundleManifest) (p : PartitionDescriptor) : Prop :=
  ∃ topologyFile topology evidenceFile evidence,
    dir.read "topology.bin" = .ok topologyFile ∧
    readRange topologyFile p.topologyOffset.val p.topologyLength.val = .ok topology ∧
    dir.read "evidence.bin" = .ok evidenceFile ∧
    readRange evidenceFile p.evidenceOffset.val p.evidenceLength.val = .ok evidence ∧
    PartitionOverruns topology evidence p m.nodeCount.val m.relationKindCount.val

lemma readPartitionData_noReturn {dir : BundleDirectory} {m : BundleManifest}
    {p : PartitionDescriptor} :
    readPartitionData dir m p = .error .noReturn ↔ RegionOverruns dir m p := by
  rw [readPartitionData, RegionOverruns, bind_noReturn (returns_read dir _)]
  refine exists_congr fun topologyFile => ?_
  rw [bind_noReturn (returns_readRange _ _ _), ← exists_and_left]
  refine exists_congr fun topology => ?_
  rw [bind_noReturn (returns_read dir _), ← exists_and_left, ← exists_and_left]
  refine exists_congr fun evidenceFile => ?_
  rw [bind_noReturn (returns_readRange _ _ _), ← exists_and_left, ← exists_and_left,
    ← exists_and_left]
  refine exists_congr fun evidence => ?_
  rw [decodePartition_noReturn]

/-! ## Opening -/

section Opening

variable {checksum : Bytes → Digest} {dir : BundleDirectory} {m : BundleManifest}

lemma returns_validatedFile (name : String) (descriptor : FileDescriptor) :
    Returns (validatedFile checksum dir name descriptor) := by
  refine (returns_read dir name).bind fun bytes _ => ?_
  refine returns_ite (fun _ => returns_invalid _) fun _ => ?_
  exact returns_ite (fun _ => returns_invalid _) fun _ => returns_ok bytes

lemma returns_validateRange (ends : ℕ × ℕ) (p : PartitionDescriptor) :
    Returns (validateRange checksum dir m ends p) := by
  refine returns_ite (fun _ => returns_invalid _) fun _ => ?_
  refine (returns_okOr _ _).bind fun te _ => (returns_okOr _ _).bind fun ee _ => ?_
  refine returns_ite (fun _ => returns_invalid _) fun _ => ?_
  refine (returns_read dir _).bind fun _ _ => (returns_readRange _ _ _).bind fun _ _ => ?_
  refine (returns_read dir _).bind fun _ _ => (returns_readRange _ _ _).bind fun _ _ => ?_
  exact returns_ite (fun _ => returns_invalid _) fun _ => returns_ok _

lemma returns_validateRanges : Returns (validateRanges checksum dir m) := by
  refine (returns_foldlM _ (fun p _ ends => returns_validateRange ends p) _).bind fun _ _ => ?_
  refine returns_ite (fun _ => returns_invalid _) fun _ => ?_
  exact returns_ite (fun _ => returns_invalid _) fun _ => returns_ok ()

lemma returns_readIdentities (identities : Bytes) : Returns (readIdentities m identities) := by
  refine (returns_okOr _ _).bind fun count _ => ?_
  refine returns_ite (fun _ => returns_invalid _) fun _ => ?_
  refine Returns.bind (Reader.Safe.all ?_ _) fun _ _ => ?_
  · exact (safe_u64.many _).bind fun _ => (safe_u64.many _).bind fun _ => safe_pure _
  · exact returns_ite (fun _ => returns_invalid _) fun _ => returns_ok _

lemma returns_readDirectory (directory : Bytes) : Returns (readDirectory m directory) := by
  refine (returns_okOr _ _).bind fun offsetCount _ => (returns_okOr _ _).bind fun length _ => ?_
  refine returns_ite (fun _ => returns_invalid _) fun _ => Reader.Safe.all ?_ _
  exact (safe_u64.many _).bind fun _ => (safe_readSegmentDescriptor.many _).bind fun _ =>
    safe_pure _

lemma returns_sourceOrdinal (source : ℕ) (segments : List SegmentDescriptor) (ordinal : ℕ) :
    Returns (sourceOrdinal source segments ordinal) := by
  induction segments generalizing ordinal with
  | nil => exact returns_ok ordinal
  | cons s rest ih =>
    rw [sourceOrdinal]
    refine returns_ite (fun _ => returns_invalid _) fun _ => ?_
    exact (returns_okOr _ _).bind fun next _ => ih next

/-- Bounded and ascending offsets index the segments of every source inside. -/
lemma returns_sourceEdgeOffsetsFrom {offsets : List U64} {segments : List SegmentDescriptor}
    (hmono : offsets.Pairwise (· ≤ ·)) (hbound : ∀ v ∈ offsets, v.val ≤ segments.length) {n : ℕ} :
    ∀ {source last : ℕ}, source + n < offsets.length →
      Returns (sourceEdgeOffsetsFrom offsets segments source last n) := by
  induction n with
  | zero => exact fun _ => returns_ok []
  | succ n ih =>
    intro source last hlt
    have hfirst := List.getElem?_eq_getElem (show source < offsets.length by omega)
    have hstop := List.getElem?_eq_getElem (show source + 1 < offsets.length by omega)
    have hle : offsets[source].val ≤ offsets[source + 1].val :=
      List.pairwise_iff_getElem.1 hmono source (source + 1) (by omega) (by omega) (by omega)
    have hend := hbound offsets[source + 1] (List.getElem_mem (by omega))
    rw [sourceEdgeOffsetsFrom, hfirst, hstop]
    dsimp only
    rw [segmentSlice, if_neg (not_or.2 ⟨not_lt.2 hle, not_lt.2 hend⟩), ok_bind]
    refine (returns_sourceOrdinal _ _ _).bind fun ordinal _ => ?_
    refine (returns_okOr _ _).bind fun next _ => ?_
    exact (ih (by omega)).bind fun rest _ => returns_ok (next :: rest)

lemma returns_checkPartitionSegments (segments : List SegmentDescriptor) (id : U32)
    (l : List (DecodedSegment × ℕ)) : Returns (checkPartitionSegments segments id l) := by
  induction l with
  | nil => exact returns_ok ()
  | cons s rest ih =>
    obtain ⟨s, index⟩ := s
    rw [checkPartitionSegments]
    split
    · exact returns_invalid _
    · exact returns_ite (fun _ => returns_invalid _) fun _ => ih

lemma returns_partitionEdgeOffsetsFrom {segments : List SegmentDescriptor}
    {ps : List PartitionDescriptor} (h : ∀ p ∈ ps, Returns (readPartitionData dir m p)) (last : ℕ) :
    Returns (partitionEdgeOffsetsFrom dir m segments last ps) := by
  induction ps generalizing last with
  | nil => exact returns_ok []
  | cons p ps ih =>
    rw [partitionEdgeOffsetsFrom]
    refine (h p (by simp)).bind fun decoded _ => ?_
    refine (returns_checkPartitionSegments _ _ _).bind fun _ _ => ?_
    refine (returns_okOr _ _).bind fun next _ => ?_
    exact (ih (fun p' hp' => h p' (by simp [hp'])) next).bind fun tail _ => returns_ok _

/-- Opening panics at most in its partitions. -/
lemma returns_openBundle {bytes : Bytes} (hfile : dir.read "manifest.bin" = .ok bytes)
    (hmanifest : BundleManifest.decode bytes = .ok m)
    (h : ∀ p ∈ m.partitions, Returns (readPartitionData dir m p)) :
    Returns (openBundle checksum dir) := by
  refine returns_ite (fun _ => returns_invalid _) fun _ => ?_
  rw [hfile, ok_bind, hmanifest, ok_bind]
  refine (returns_validatedFile _ _).bind fun identities _ => ?_
  refine (returns_validatedFile _ _).bind fun directory _ => ?_
  refine (returns_validatedFile _ _).bind fun _ _ => (returns_validatedFile _ _).bind fun _ _ => ?_
  refine (returns_readIdentities identities).bind fun tables _ => ?_
  refine (returns_readDirectory directory).bind fun ⟨offsets, segments⟩ hread => ?_
  refine returns_validateRanges.bind fun _ _ => ?_
  obtain ⟨hoffsets, hsegments⟩ := readDirectory_eq_ok hread
  refine returns_ite (fun _ => returns_invalid _) fun hchecked => ?_
  push Not at hchecked
  obtain ⟨-, hlast, hneighbours⟩ := hchecked
  have hmono : offsets.Pairwise (· ≤ ·) := by
    refine List.isChain_iff_pairwise.1
      ((anyNeighbours_eq_false.1 (by simpa using hneighbours)).imp fun a b hab => ?_)
    simpa using hab
  -- the last offset is the number of segments and bounds all others
  have hbound : ∀ v ∈ offsets, v.val ≤ segments.length := by
    intro v hv
    obtain ⟨pre, rfl⟩ := List.getLast?_eq_some_iff.1 hlast
    rw [hsegments]
    rcases List.mem_append.1 hv with hv | hv
    · exact (List.pairwise_append.1 hmono).2.2 v hv _ (List.mem_singleton.2 rfl)
    · rw [List.mem_singleton.1 hv]
  refine (returns_sourceEdgeOffsetsFrom hmono hbound (by omega)).bind fun sources _ => ?_
  refine returns_ite (fun _ => returns_invalid _) fun _ => ?_
  refine (returns_partitionEdgeOffsetsFrom h 0).bind fun partitions _ => ?_
  exact returns_ite (fun _ => returns_invalid _) fun _ => returns_ok _

end Opening

/-! ## What a bundle can do to its reader -/

/-- Opening the bundle, loading it as an image and decoding each of its partitions return. -/
structure BundleReturns (checksum : Bytes → Digest) (dir : BundleDirectory) (m : BundleManifest) :
    Prop where
  opens : Returns (openBundle checksum dir)
  loads : ∀ bundle, openBundle checksum dir = .ok bundle →
    Returns (bundle.toResidentImage checksum dir)
  decodes : ∀ p ∈ m.partitions, Returns (readPartitionData dir m p)

/-- A bundle with an accepted manifest is read without a panic exactly when no partition has a
segment that passes its own checks and ends behind the last edge. -/
theorem bundle_returns_iff (checksum : Bytes → Digest) {dir : BundleDirectory} {bytes : Bytes}
    {m : BundleManifest} (hfile : dir.read "manifest.bin" = .ok bytes)
    (hmanifest : BundleManifest.decode bytes = .ok m) :
    BundleReturns checksum dir m ↔ ∀ p ∈ m.partitions, ¬ RegionOverruns dir m p := by
  have hdecodes : (∀ p ∈ m.partitions, Returns (readPartitionData dir m p)) ↔
      ∀ p ∈ m.partitions, ¬ RegionOverruns dir m p :=
    forall₂_congr fun p _ => not_congr readPartitionData_noReturn
  rw [← hdecodes]
  constructor
  · exact fun h => h.decodes
  · intro h
    refine ⟨returns_openBundle hfile hmanifest h, fun bundle hopen => ?_, h⟩
    -- what opened has partitions that load
    obtain ⟨parts, o⟩ := openBundle_opened hopen
    obtain ⟨image, himage, -⟩ := o.resident
    rw [himage]
    exact returns_ok image

/-- A bundle that is read without a panic. -/
theorem bundle_returns_twoSources : ∃ (dir : (Bytes → Digest) → BundleDirectory)
    (bytes : (Bytes → Digest) → Bytes), ∀ checksum,
    (dir checksum).read "manifest.bin" = .ok (bytes checksum) ∧
      ∃ m, BundleManifest.decode (bytes checksum) = .ok m ∧
        BundleReturns checksum (dir checksum) m := by
  choose dir bytes hw using fun checksum => exists_holding checksum false
  refine ⟨dir, bytes, fun checksum => ?_⟩
  have hfile : (dir checksum).read "manifest.bin" = .ok (bytes checksum) :=
    ((hw checksum).read_eq rfl).1
  have hmanifest :=
    ((hw checksum).openBundle_directed (twoSources_consistent false).toDirected).1
  refine ⟨hfile, _, hmanifest, (bundle_returns_iff checksum hfile hmanifest).2 fun p hp hover => ?_⟩
  obtain ⟨pre, post, hsplit⟩ := List.append_of_mem hp
  obtain ⟨d, hd, rfl⟩ := BundleContents.Holding.partition_at hsplit
  have hpanic := readPartitionData_noReturn.2 hover
  rw [(hw checksum).readPartitionData_eq (twoSources_consistent false) hd] at hpanic
  cases hpanic

/-- One node with a loop, in a partition whose segment counts two edges. -/
def overrunning : BundleContents where
  nodes := [⟨1⟩]
  relations := [⟨1⟩]
  sourceOffsets := [0, 1]
  descriptors := [⟨0, 0, 0, 0, 1⟩]
  parts := [⟨[⟨0, 0, 0, 2⟩], [0], [0], [1065353216], [5]⟩]
  target := 4194304
  hardMaximum := 8388608

lemma overrunning_storable : ∀ d ∈ overrunning.parts, d.Storable 1 1 := by
  intro d hd
  have hone : (BaseWeight.fromBits 1065353216).isSome = true := by decide
  obtain rfl := List.mem_singleton.1 hd
  exact ⟨by simp, by simp, by simp, by simp, rfl, rfl, rfl, by simp, by simp, by simpa using hone⟩

lemma overrunning_directed : overrunning.Directed [1] where
  nodes_ascending := List.pairwise_singleton _ _
  relations_ascending := List.pairwise_singleton _ _
  parts_lt := by decide
  parts_storable := overrunning_storable
  offsets_length := rfl
  offsets_head := rfl
  offsets_last := rfl
  offsets_mono := (by decide : [0, 1].Pairwise ((· ≤ ·) : U64 → U64 → Prop))
  sources := by decide
  sources_last := rfl

lemma overrunning_fits (bytes : Bytes) (h : bytes.length < 1000) :
    ∀ f ∈ overrunning.files bytes, f.2.length < 2 ^ 63 := by
  have hsmall : ∀ f ∈ overrunning.files bytes, f.2.length < 1000 := by
    simp only [BundleContents.files, List.mem_cons, List.not_mem_nil, or_false]
    rintro f (rfl | rfl | rfl | rfl | rfl)
    · decide
    · decide
    · decide
    · decide
    · exact h
  intro f hf
  exact (hsmall f hf).trans (by decide)

/-- A bundle whose files all match its manifest and whose reader panics. -/
theorem overrunning_bundle_panics : ∃ (dir : (Bytes → Digest) → BundleDirectory)
    (bytes : (Bytes → Digest) → Bytes), ∀ checksum,
    (dir checksum).read "manifest.bin" = .ok (bytes checksum) ∧
      ∃ m, BundleManifest.decode (bytes checksum) = .ok m ∧
        (∀ file ∈ [("identities.bin", m.identities), ("source-directory.bin", m.sourceDirectory),
          ("topology.bin", m.topology), ("evidence.bin", m.evidence)],
          ∃ contents, validatedFile checksum (dir checksum) file.1 file.2 = .ok contents) ∧
        openBundle checksum (dir checksum) = .error .noReturn ∧
        ¬ BundleReturns checksum (dir checksum) m := by
  choose dir bytes hw using fun checksum =>
    BundleContents.exists_holding checksum (show overrunning.parts.length = 1 from rfl)
      overrunning_fits
  refine ⟨dir, bytes, fun checksum => ?_⟩
  have hfile : (dir checksum).read "manifest.bin" = .ok (bytes checksum) :=
    ((hw checksum).read_eq rfl).1
  obtain ⟨hmanifest, hopen⟩ := (hw checksum).openBundle_directed overrunning_directed
  have hpanic : openBundle checksum (dir checksum) = .error .noReturn := by
    obtain ⟨-, -, -, -, -, hsegments, hedges⟩ :=
      (hw checksum).describe_eq overrunning_directed (show overrunning.parts[0]? = some _ from rfl)
    have hdecode := (hw checksum).readPartitionData_stored overrunning_directed
      (show overrunning.parts[0]? = some _ from rfl)
    have hchecks := hdecode.trans
      (decodePartition_stored (overrunning_storable _ (List.mem_singleton.2 rfl)) hsegments hedges)
    rw [hopen]
    show (partitionEdgeOffsetsFrom _ _ _ _ [_] >>= _) = _
    rw [partitionEdgeOffsetsFrom, hchecks]
    rfl
  refine ⟨hfile, _, hmanifest, ?_, hpanic, fun h => h.opens hpanic⟩
  simp only [List.mem_cons, List.not_mem_nil, or_false]
  rintro file (rfl | rfl | rfl | rfl)
  · exact ⟨_, (hw checksum).validatedFile_eq rfl⟩
  · exact ⟨_, (hw checksum).validatedFile_eq rfl⟩
  · exact ⟨_, (hw checksum).validatedFile_eq rfl⟩
  · exact ⟨_, (hw checksum).validatedFile_eq rfl⟩

end PathHydra
