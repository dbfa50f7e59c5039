import PathHydra.Construction.Bundle.Chunked
import PathHydra.Properties.Bundle.Denotes
import PathHydra.Properties.Bundle.Pressure
import PathHydra.Properties.Routing.Results
import PathHydra.Properties.Routing.Topology

/-!
# Routing over a partitioned image is routing over the resident one

Between two calls of `acquire` the cache of a route that runs alone is quiet: nothing is being read
and nothing has failed (`LoneCache.Quiet`).  Over a quiet cache `acquire` returns the decoded
partition and leaves the cache quiet (`acquire_quiet`), so a chunked image reads the edges of its
resident image, whatever is cached, and the two searches agree.
-/

namespace PathHydra

variable {D : Type}

/-! ## Turns -/

section Turns

variable {config : HostCacheConfig} {partitions : List PartitionDescriptor} {decode : ℕ → D}
  {nextAddress : ℕ} {c : CacheState D} {held : ℕ → ℕ} {id : ℕ}

/-- Only an admission queues a read. -/
lemma acquireLocked_queueDepth (h : Accounting config partitions decode nextAddress c)
    {r : AcquireStep D × CacheState D}
    (hr : acquireLocked config partitions held id (requiredOf partitions id) c = r) :
    (r.1 = .admitted ∧ r.2.queueDepth = saturatingAdd64 c.queueDepth 1) ∨
      (r.1 ≠ .admitted ∧ r.2.queueDepth = c.queueDepth) := by
  have hticked : Accounting config partitions decode nextAddress
      { c with tick := saturatingAdd64 c.tick 1 } := h.congr rfl rfl rfl
  subst hr
  unfold acquireLocked
  split
  · exact .inr ⟨by simp, rfl⟩
  · unfold acquireEntry
    split
    · exact .inr ⟨by simp, rfl⟩
    · exact .inr ⟨by simp, rfl⟩
    · exact .inr ⟨by simp, rfl⟩
    · unfold acquireMissing
      split
      · exact .inr ⟨by simp, rfl⟩
      · split_ifs
        · exact .inr ⟨by simp, rfl⟩
        · have hevicts := (makeRoom_spec (requiredOf partitions id)
            (CacheState.entryCount { c with tick := saturatingAdd64 c.tick 1 }
              partitions.length + 1) hticked (Evicts.refl held _)).2.1
          split
          · rename_i c₁ heq
            rw [heq] at hevicts
            exact .inr ⟨by simp, hevicts.queueDepth⟩
          · rename_i c₁ heq
            rw [heq] at hevicts
            exact .inl ⟨rfl, congrArg (saturatingAdd64 · 1) hevicts.queueDepth⟩

/-- A partition that need not wait and finds room is admitted. -/
lemma acquireLocked_admitted (h : Accounting config partitions decode nextAddress c)
    (hintact : c.Intact) (hadmissible : Admissible config partitions id)
    (hnone : c.entries id = none) (hwait : mustWait config (stagingOf partitions id) c = false)
    (hroom : RoomBeside config partitions held c id) :
    (acquireLocked config partitions held id (requiredOf partitions id) c).1 = .admitted := by
  obtain ⟨-, -, p, hp, -, hstaging, -, -⟩ := admission_eq_ok hadmissible
  have hticked : Accounting config partitions decode nextAddress
      { c with tick := saturatingAdd64 c.tick 1 } := h.congr rfl rfl rfl
  have hmade := (makeRoom_eq_true_iff hticked (Nat.lt_succ_self _)).2 hroom
  simp only [hintact.poison] at hmade
  simp only [mustWait] at hwait
  simp only [acquireLocked, hintact.poison, acquireEntry, hnone, hp, Option.bind_some, hstaging,
    acquireMissing, hwait, Bool.false_eq_true, if_false]
  revert hmade
  generalize CacheState.makeRoom config held partitions.length (requiredOf partitions id) _ _ = out
  obtain ⟨made, c₁⟩ := out
  intro hmade
  obtain rfl : made = true := hmade
  rfl

lemma acquireLocked_ready (hpoison : c.poison = none) {data : Arc D} {bytes last : ℕ}
    (he : c.entries id = some (.ready data bytes last)) (required : ℕ) :
    (acquireLocked config partitions held id required c).1 = .hit data := by
  simp only [acquireLocked, hpoison, acquireEntry, he]

/-- A read that ends makes its partition ready. -/
lemma finishLoad_entries (c : CacheState D) (p : PartitionDescriptor) (id : ℕ) (data : Arc D) :
    ∃ bytes, (c.finishLoad p id (.ok data)).entries =
      Function.update c.entries id (some (.ready data bytes c.tick)) := ⟨_, rfl⟩

end Turns

/-! ## A cache used alone -/

section Lone

variable {config : HostCacheConfig} {table : PartitionTable} {decode : ℕ → D} {s : LoneCache D}
  {id : ℕ}

/-- The counts of the cache are right and no load has failed. -/
structure LoneCache.Sound (config : HostCacheConfig) (table : PartitionTable) (decode : ℕ → D)
    (s : LoneCache D) : Prop where
  accounting : Accounting config table.partitions decode s.nextAddress s.cache
  intact : s.cache.Intact

/-- Nothing is being read. -/
structure LoneCache.Quiet (config : HostCacheConfig) (table : PartitionTable) (decode : ℕ → D)
    (s : LoneCache D) : Prop extends s.Sound config table decode where
  not_loading : ∀ i, ¬ s.cache.Loading i
  queueDepth : s.cache.queueDepth = 0

/-- One partition is being read. -/
structure LoneCache.Reading (config : HostCacheConfig) (table : PartitionTable) (decode : ℕ → D)
    (id : ℕ) (s : LoneCache D) : Prop extends s.Sound config table decode where
  loading : ∀ i, s.cache.Loading i ↔ i = id
  queueDepth : s.cache.queueDepth = 1

lemma LoneCache.quiet_new : (LoneCache.new : LoneCache D).Quiet config table decode := by
  have h : CacheInv config table decode (CacheSystem.new : CacheSystem D) := cacheInv_new
  refine ⟨⟨h.accounting, rfl, by simp [LoneCache.new, CacheState.new]⟩, fun i => ?_, rfl⟩
  simp [CacheState.Loading, LoneCache.new, CacheState.new]

lemma LoneCache.Sound.turn (h : s.Sound config table decode)
    (hadmissible : Admissible config table.partitions id) :
    ({ s with cache := (s.turn config table.partitions id).2 } : LoneCache D).Sound config table
        decode ∧
      (s.turn config table.partitions id).1.Leaves id s.cache
        (s.turn config table.partitions id).2 := by
  have hleases : Leases ([] : List (Lease D)) s.cache :=
    fun _ hlease => absurd hlease List.not_mem_nil
  have hturn : acquireLocked config table.partitions (fun _ => 0) id
      (requiredOf table.partitions id) s.cache = s.turn config table.partitions id := rfl
  have hspec := acquireLocked_spec h.accounting hleases hadmissible
    (fun _ hlease => absurd hlease List.not_mem_nil) hturn
  exact ⟨⟨hspec.1, acquireLocked_intact h.accounting h.intact⟩, hspec.2.2.1⟩

namespace LoneCache.Quiet

variable (h : s.Quiet config table decode)

include h

/-- Every entry is ready, and nobody holds it. -/
lemma entries_ready (i : ℕ) : s.cache.entries i = none ∨
    ∃ data bytes last, s.cache.entries i = some (.ready data bytes last) := by
  cases he : s.cache.entries i with
  | none => exact .inl rfl
  | some e =>
    cases e with
    | loading => exact absurd he (h.not_loading i)
    | ready data bytes last => exact .inr ⟨data, bytes, last, rfl⟩
    | failed reason => exact absurd he (h.intact.not_failed i reason)

lemma staying_eq (i : ℕ) : s.cache.staying (fun _ => 0) i = none := by
  obtain hnone | ⟨data, bytes, last, he⟩ := h.entries_ready i
  · simp [CacheState.staying, hnone]
  · simp [CacheState.staying, he, CacheState.evictable]

/-- Eviction can empty the cache. -/
lemma roomBeside (haccepts : openSharedAccepts config table.partitions = true)
    (hadmissible : Admissible config table.partitions id) :
    RoomBeside config table.partitions (fun _ => 0) s.cache id := by
  have hrequired := hadmissible.required_le
  have hentries : config.maximumEntries ≠ 0 := by
    simp only [openSharedAccepts, Bool.and_eq_true, decide_eq_true_eq] at haccepts
    exact haccepts.1.1.1.2
  constructor
  · simp only [h.staying_eq, entryBytes, Finset.sum_const_zero]
    omega
  · simp only [h.staying_eq, entryPresent, Finset.sum_const_zero]
    omega

lemma stagingBytes_eq : s.cache.stagingBytes = 0 := by
  rw [h.accounting.staging_eq]
  refine Finset.sum_eq_zero fun i _ => ?_
  obtain hnone | ⟨data, bytes, last, he⟩ := h.entries_ready i
  · simp only [hnone, entryStaging]
  · simp only [he, entryStaging]

/-- No read is in the way of another. -/
lemma mustWait_eq (haccepts : openSharedAccepts config table.partitions = true)
    (hid : id < table.partitions.length) :
    mustWait config (stagingOf table.partitions id) s.cache = false := by
  simp only [openSharedAccepts, Bool.and_eq_true, decide_eq_true_eq] at haccepts
  obtain ⟨⟨⟨-, hworkers⟩, hreads⟩, hall⟩ := haccepts
  have hp : table.partitions[id]? = some table.partitions[id] := List.getElem?_eq_getElem hid
  have hpartition := List.all_eq_true.1 hall _ (List.getElem_mem hid)
  have hstaging : stagingOf table.partitions id ≤ config.maximumStagingBytes := by
    unfold openSharedPartition at hpartition
    split at hpartition
    · rename_i required staging hrequired hstaging
      simp only [Bool.and_eq_true, decide_eq_true_eq] at hpartition
      simpa [stagingOf, hp, hstaging] using hpartition.2
    · cases hpartition
  simp only [mustWait, h.stagingBytes_eq, h.queueDepth, saturatingAdd64, u64Max,
    Bool.or_eq_false_iff, decide_eq_false_iff_not]
  omega

/-- Over a quiet cache a turn admits a partition without an entry. -/
lemma turn_eq_admitted (haccepts : openSharedAccepts config table.partitions = true)
    (hid : id < table.partitions.length) (hnone : s.cache.entries id = none) :
    s.turn config table.partitions id =
      (.admitted, (s.turn config table.partitions id).2) := by
  have hadmissible := admissible_of_openSharedAccepts haccepts hid
  have hadmitted : (s.turn config table.partitions id).1 = .admitted :=
    acquireLocked_admitted h.accounting h.intact hadmissible hnone
      (h.mustWait_eq haccepts hid) (h.roomBeside haccepts hadmissible)
  rw [← hadmitted]

/-- A hit hands out the decoded partition. -/
lemma turn_hit (hadmissible : Admissible config table.partitions id) {data : Arc D}
    {cache : CacheState D} (hturn : s.turn config table.partitions id = (.hit data, cache)) :
    data.value = decode id ∧
      ({ s with cache := cache } : LoneCache D).Quiet config table decode := by
  obtain ⟨hsound, hleaves⟩ := h.toSound.turn hadmissible
  have hdepth := acquireLocked_queueDepth h.accounting hturn
  rw [hturn] at hsound hleaves
  obtain ⟨-, ⟨bytes, last, he⟩, -, hloading⟩ := hleaves
  refine ⟨(h.accounting.ready id data bytes last he).1, hsound, fun i => ?_, ?_⟩
  · exact fun hi => h.not_loading i ((hloading i).1 hi)
  · obtain ⟨hadmitted, -⟩ | ⟨-, hsame⟩ := hdepth
    · cases hadmitted
    · exact hsame.trans h.queueDepth

/-- An admitted partition is the only one that is being read. -/
lemma turn_admitted (hadmissible : Admissible config table.partitions id) {cache : CacheState D}
    (hturn : s.turn config table.partitions id = (.admitted, cache)) :
    ({ s with cache := cache } : LoneCache D).Reading config table decode id := by
  obtain ⟨hsound, hleaves⟩ := h.toSound.turn hadmissible
  have hdepth := acquireLocked_queueDepth h.accounting hturn
  rw [hturn] at hsound hleaves
  obtain ⟨-, hloading⟩ := hleaves
  refine ⟨hsound, fun i => ?_, ?_⟩
  · rw [hloading, or_iff_right (h.not_loading i)]
  · obtain ⟨-, hone⟩ | ⟨hadmitted, -⟩ := hdepth
    · rw [hone, h.queueDepth]
      rfl
    · exact absurd rfl hadmitted

end LoneCache.Quiet

namespace LoneCache.Reading

/-- A turn waits while the partition is being read. -/
lemma turn (h : s.Reading config table decode id)
    (hadmissible : Admissible config table.partitions id) :
    ({ s with cache := (s.turn config table.partitions id).2 } : LoneCache D).Reading config table
      decode id := by
  obtain ⟨hsound, hleaves⟩ := h.toSound.turn hadmissible
  have hturn : acquireLocked config table.partitions (fun _ => 0) id
      (requiredOf table.partitions id) s.cache = s.turn config table.partitions id := rfl
  have hdepth := acquireLocked_queueDepth h.accounting hturn
  have hwait : (s.turn config table.partitions id).1 = .wait := by
    have hloading : s.cache.entries id = some .loading := (h.loading id).2 rfl
    simp only [LoneCache.turn, acquireLocked, h.intact.poison, acquireEntry, hloading]
  rw [hwait] at hleaves
  refine ⟨hsound, fun i => (hleaves i).trans (h.loading i), ?_⟩
  obtain ⟨hadmitted, -⟩ | ⟨-, hsame⟩ := hdepth
  · cases hwait.symm.trans hadmitted
  · exact hsame.trans h.queueDepth

/-- The read that ends makes the partition ready. -/
lemma load (h : s.Reading config table decode id)
    (hadmissible : Admissible config table.partitions id)
    {read : PartitionDescriptor → Except LoadFailure D}
    (hread : ∀ p, table.partitions[id]? = some p → read p = .ok (decode id)) :
    (s.load table.partitions read id).Quiet config table decode ∧
      ∃ data bytes last,
        (s.load table.partitions read id).cache.entries id = some (.ready data bytes last) := by
  obtain ⟨p, hp⟩ : ∃ p, table.partitions[id]? = some p :=
    ⟨_, List.getElem?_eq_getElem hadmissible.lt⟩
  have hbegun : Accounting config table.partitions decode s.nextAddress s.cache.beginLoad :=
    h.accounting.congr rfl rfl rfl
  have hfinished := hbegun.finishLoad_ok hadmissible hp ((h.loading id).2 rfl)
  obtain ⟨bytes, hentries⟩ := finishLoad_entries s.cache.beginLoad p id
    (⟨decode id, s.nextAddress⟩ : Arc D)
  have hload : s.load table.partitions read id =
      ⟨s.cache.beginLoad.finishLoad p id (.ok ⟨decode id, s.nextAddress⟩), s.nextAddress + 1⟩ := by
    simp only [LoneCache.load, hp, hread p hp, Except.map]
  rw [hload]
  refine ⟨⟨⟨hfinished, h.intact.poison, fun i reason => ?_⟩, fun i => ?_, ?_⟩, ?_⟩
  · rw [hentries, Function.update_apply]
    split_ifs
    · simp
    · exact h.intact.not_failed i reason
  · rw [CacheState.Loading, hentries, Function.update_apply]
    split_ifs with hi
    · simp
    · exact fun hloading => hi ((h.loading i).1 hloading)
  · show s.cache.queueDepth - 1 = 0
    rw [h.queueDepth]
  · exact ⟨_, _, _, by rw [hentries, Function.update_self]⟩

end LoneCache.Reading

variable {signal : CancellationSignal} (hsignal : ∀ n, signal n = false)

include hsignal

lemma awaitLoad_reading (hadmissible : Admissible config table.partitions id) (n : ℕ)
    (w : World (LoneCache D)) (h : w.store.Reading config table decode id) :
    ∃ w', awaitLoad config table.partitions signal id n w = (false, w') ∧
      w'.store.Reading config table decode id := by
  induction n generalizing w with
  | zero => exact ⟨w, rfl, h⟩
  | succ n ih =>
    simp only [awaitLoad, World.isCancelled_of_quiet hsignal]
    exact ih _ (h.turn hadmissible)

variable (haccepts : openSharedAccepts config table.partitions = true)
  (hid : id < table.partitions.length) {read : PartitionDescriptor → Except LoadFailure D}
  (hread : ∀ p, table.partitions[id]? = some p → read p = .ok (decode id)) (waits : ℕ → ℕ)

include haccepts hid

/-- A partition that is ready is handed out at once. -/
lemma acquireLoop_ready (fuel : ℕ) (w : World (LoneCache D))
    (h : w.store.Quiet config table decode) {data : Arc D} {bytes last : ℕ}
    (he : w.store.cache.entries id = some (.ready data bytes last)) :
    ∃ w', acquireLoop config table.partitions read waits signal id (fuel + 1) w =
        (.ok (some data), w') ∧ data.value = decode id ∧ w'.store.Quiet config table decode := by
  have hhit : (w.store.turn config table.partitions id).1 = .hit data :=
    acquireLocked_ready h.intact.poison he _
  have hturn : w.store.turn config table.partitions id =
      (.hit data, (w.store.turn config table.partitions id).2) := by rw [← hhit]
  obtain ⟨hvalue, hquiet⟩ :=
    h.turn_hit (admissible_of_openSharedAccepts haccepts hid) hturn
  simp only [acquireLoop, World.isCancelled_of_quiet hsignal]
  rw [hturn]
  exact ⟨_, rfl, hvalue, hquiet⟩

include hread

/-- A cache used alone hands out what is in the files. -/
lemma acquire_quiet (w : World (LoneCache D)) (h : w.store.Quiet config table decode) :
    ∃ data w', acquire config table.partitions read waits signal id w = (.ok (some data), w') ∧
      data.value = decode id ∧ w'.store.Quiet config table decode := by
  have hadmissible := admissible_of_openSharedAccepts haccepts hid
  have hok : admission config table.partitions id = .ok (requiredOf table.partitions id) :=
    hadmissible
  simp only [acquire, hok]
  obtain hnone | ⟨data, bytes, last, he⟩ := h.entries_ready id
  · have hturn := h.turn_eq_admitted haccepts hid hnone
    have hreading := h.turn_admitted hadmissible hturn
    rw [acquireLoop]
    simp only [World.isCancelled_of_quiet hsignal]
    rw [hturn]
    obtain ⟨w', hawait, hreading'⟩ := awaitLoad_reading hsignal hadmissible
      (waits w.store.nextAddress) ⟨w.polls + 1 + 1, _⟩ hreading
    obtain ⟨hquiet, data, bytes, last, he⟩ := hreading'.load hadmissible hread
    refine ⟨data, ?_⟩
    simp only [World.setCache]
    rw [hawait]
    exact acquireLoop_ready hsignal haccepts hid waits 0
      { w' with store := w'.store.load table.partitions read id } hquiet he
  · exact ⟨data, acquireLoop_ready hsignal haccepts hid waits 1 w h he⟩

end Lone

/-! ## The resident image of a bundle -/

namespace Opened

variable {checksum : Bytes → Digest} {dir : BundleDirectory} {bundle : RoutingBundle}
  {parts : List DecodedPartition} {ess : List (List OutgoingEdge)}

lemma exists_holds_of_mem (hess : List.Forall₂ (Shows bundle) parts ess) {e : OutgoingEdge}
    (he : e ∈ ess.flatten) : ∃ d ∈ parts, ∃ i, Holds bundle d i e := by
  obtain ⟨es, hes, he⟩ := List.mem_flatten.1 he
  obtain ⟨k, hk⟩ := List.mem_iff_getElem?.1 hes
  obtain ⟨j, hj⟩ := List.mem_iff_getElem?.1 he
  obtain ⟨d, hd, hshows⟩ := getElem?_of_forall₂ hess hk
  obtain ⟨i, -, hholds⟩ := getElem?_of_forall₂ hshows hj
  exact ⟨d, List.mem_of_getElem? hd, i, hholds⟩

lemma length_flatten (o : Opened checksum dir bundle parts)
    (hess : List.Forall₂ (Shows bundle) parts ess) :
    ess.flatten.length = bundle.manifest.adjacencyCount.val := by
  rw [← o.adjacency, List.length_flatten, List.length_flatten, lengths_of_shows hess]

/-- The image of a bundle that opens is well formed, whatever the order of its segments. -/
lemma residentImage_wellFormed (o : Opened checksum dir bundle parts)
    (hess : List.Forall₂ (Shows bundle) parts ess) (hnodes : bundle.nodes.length < 2 ^ 32) :
    (residentImage bundle ess.flatten).WellFormed := by
  have hlength : (residentImage bundle ess.flatten).adjacencyCount =
      bundle.manifest.adjacencyCount.val := by
    rw [← o.length_flatten hess]
    exact List.length_map _
  constructor
  · exact o.nodes_ascending
  · exact hnodes
  · rfl
  · exact o.relations_ascending
  · show bundle.sourceEdgeOffsets.length = bundle.nodes.length + 1
    rw [o.source_offsets, List.length_map, List.length_range]
  · show bundle.sourceEdgeOffsets[0]? = some 0
    rw [o.sourceEdgeOffsets_eq, Csr.getElem?_offsets (Nat.zero_le _)]
    rfl
  · show bundle.sourceEdgeOffsets[bundle.nodes.length]? = some _
    rw [o.source_offsets, List.getElem?_map, List.getElem?_range (Nat.lt_succ_self _),
      Option.map_some, o.source_total, hlength]
  · show bundle.sourceEdgeOffsets.Pairwise (· ≤ ·)
    rw [o.sourceEdgeOffsets_eq]
    exact Csr.offsets_pairwise _
  · have hlt := o.adjacency_lt
    omega
  · intro i hi
    rw [hlength, ← o.length_flatten hess] at hi
    have hget := List.getElem?_eq_getElem hi
    obtain ⟨d, hd, j, hholds⟩ := exists_holds_of_mem hess (List.getElem_mem hi)
    obtain ⟨p, hp⟩ := o.valid d hd
    refine ⟨_, (edgeAt_residentImage _ _).trans hget, ?_, hholds.relationId⟩
    exact hp.destinations_lt _ (List.mem_of_getElem? hholds.destination)

end Opened

/-! ## Routes -/

namespace ChunkedRoutingImage

/-- The decoded partitions of a bundle. -/
def decoded (image : ChunkedRoutingImage) (id : ℕ) : DecodedPartition :=
  match image.bundle.manifest.partitions[id]? with
  | none => ⟨[], [], [], [], []⟩
  | some p =>
    match image.bundle.loadPartition image.checksum image.dir p with
    | .error _ => ⟨[], [], [], [], []⟩
    | .ok d => d

variable {image : ChunkedRoutingImage} {table : PartitionTable} {parts : List DecodedPartition}
  {ess : List (List OutgoingEdge)}

lemma read_eq (o : Opened image.checksum image.dir image.bundle parts) {id : ℕ}
    {p : PartitionDescriptor} (hp : image.bundle.manifest.partitions[id]? = some p) :
    image.read p = .ok (image.decoded id) := by
  obtain ⟨d, -, hload⟩ := getElem?_of_forall₂ o.loads.flip hp
  simp only [read, decoded, hp, hload, Except.mapError]

/-- The identifiers of the nodes are searched as in the resident image. -/
lemma denseNodeId_eq (es : List OutgoingEdge) (id : NodeId) :
    image.topology.denseNodeId id = (Opened.residentImage image.bundle es).denseNodeId id := by
  have hkeys : (denseMapping image.bundle.nodes).map (·.1) = image.bundle.nodes := by
    simp [denseMapping, Function.comp_def]
  show (binarySearch image.bundle.nodes id).map DenseNodeId.ofNat = _
  simp only [RoutingImage.denseNodeId, Opened.residentImage, hkeys]
  cases hb : binarySearch image.bundle.nodes id with
  | none => rfl
  | some i =>
    have hx := getElem?_of_binarySearch hb
    simp [denseMapping, List.getElem?_zipIdx, hx]

/-- A chunked image reads the edges of its resident image. -/
lemma reads (o : Opened image.checksum image.dir image.bundle parts)
    (hess : List.Forall₂ (Opened.Shows image.bundle) parts ess)
    (htable : table.partitions = image.bundle.manifest.partitions)
    (haccepts : openSharedAccepts image.config image.bundle.manifest.partitions = true)
    {signal : CancellationSignal} (hsignal : ∀ n, signal n = false) :
    image.topology.Reads (Opened.residentImage image.bundle ess.flatten).topology signal
      (LoneCache.Quiet image.config table image.decoded) := by
  constructor
  · rfl
  · show image.bundle.manifest.adjacencyCount.val = (ess.flatten.map (·.edgeId)).length
    rw [List.length_map, o.length_flatten hess]
  · exact funext fun id => denseNodeId_eq ess.flatten id
  · rfl
  · rfl
  · intro source
    show (∃ e : RoutingError,
        okOr _ (image.bundle.outgoingRange source) = .error e ∧ e.IsInternal) ∨
      okOr _ (image.bundle.outgoingRange source) = okOr _ (image.bundle.outgoingRange source)
    cases image.bundle.outgoingRange source with
    | none => exact .inl ⟨_, rfl, .inr ⟨_, rfl⟩⟩
    | some range => exact .inr rfl
  · intro index w w' hw
    simp only [RoutingImage.topology, Opened.edgeAt_residentImage]
    cases hget : ess.flatten[index]? with
    | none => exact mirrors_internal (.inl rfl)
    | some e =>
      have hstored := (o.edgeAt_eq_ok hess).2 hget
      rw [RoutingBundle.edgeAt, RoutingBundle.storedEdge] at hstored
      cases hp : image.bundle.manifest.partitions[(image.bundle.locate index).1]? with
      | none =>
        rw [hp] at hstored
        cases hstored
      | some p =>
        obtain ⟨d, -, hload⟩ := getElem?_of_forall₂ o.loads.flip hp
        simp only [hp, hload] at hstored
        have hdecoded : image.decoded (image.bundle.locate index).1 = d := by
          simp only [decoded, hp, hload]
        -- alone the cache always has room, and it returns what the file holds
        obtain ⟨data, w₁, hacquire, hvalue, hquiet⟩ := acquire_quiet hsignal
          (by rw [htable]; exact haccepts)
          (by rw [htable]; exact (List.getElem?_eq_some_iff.1 hp).1)
          (fun p hp => read_eq o (by rw [← htable]; exact hp)) image.waits w hw
        rw [htable] at hacquire
        refine .inr ?_
        simp only [topology, edgeAt, hacquire, hvalue, hdecoded, hstored]
        exact ⟨rfl, hquiet⟩

variable {F : Type} [Binary64 F]

/-- A route over a well-formed image fails for its request or for its arithmetic only. -/
lemma routeControlled_error {resident : RoutingImage} (wf : resident.WellFormed)
    {request : RoutingRequest} {signal : CancellationSignal} {e : RoutingError}
    (h : routeControlled (F := F) resident request signal = .error e) :
    ¬ e.IsInternal ∧ ∀ reason, e ≠ .imageAccess reason := by
  have hspec := routeControlled_spec (F := F) wf request signal
  rw [h] at hspec
  obtain ⟨operation, rfl⟩ | rfl | ⟨p, rfl⟩ := hspec
  · simp [RoutingError.IsInternal]
  · simp [RoutingError.IsInternal]
  · simp [RoutingError.IsInternal]

/-- A route over a quiet cache answers as the resident image does, and leaves the cache quiet. -/
lemma route_quiet (o : Opened image.checksum image.dir image.bundle parts)
    (hess : List.Forall₂ (Opened.Shows image.bundle) parts ess)
    (hnodes : image.bundle.nodes.length < 2 ^ 32)
    (htable : table.partitions = image.bundle.manifest.partitions)
    (haccepts : openSharedAccepts image.config image.bundle.manifest.partitions = true)
    (request : RoutingRequest) {s : LoneCache DecodedPartition}
    (hs : s.Quiet image.config table image.decoded) :
    (image.routePartitionedControlled (F := F) request neverCancelled s).1 =
        routeControlled (Opened.residentImage image.bundle ess.flatten) request neverCancelled ∧
      (image.routePartitionedControlled (F := F) request neverCancelled s).2.Quiet image.config
        table image.decoded := by
  have hsignal : ∀ n, neverCancelled n = false := fun _ => rfl
  have hmirrors := routeTopologyControlled_mirrors (F := F)
    (reads o hess htable haccepts hsignal) hsignal request ⟨0, s⟩ ⟨0, ()⟩ hs
  obtain ⟨e, herror, hinternal⟩ | hsame := hmirrors
  · exact absurd hinternal
      (routeControlled_error (o.residentImage_wellFormed hess hnodes) herror).1
  · exact hsame

/-- Routes one after another leave the cache quiet. -/
lemma cacheAfter_quiet (o : Opened image.checksum image.dir image.bundle parts)
    (hess : List.Forall₂ (Opened.Shows image.bundle) parts ess)
    (hnodes : image.bundle.nodes.length < 2 ^ 32)
    (htable : table.partitions = image.bundle.manifest.partitions)
    (haccepts : openSharedAccepts image.config image.bundle.manifest.partitions = true)
    (requests : List RoutingRequest) :
    (image.cacheAfter F requests).Quiet image.config table image.decoded := by
  induction requests using List.reverseRecOn with
  | nil => exact LoneCache.quiet_new
  | append_singleton requests request ih =>
    rw [cacheAfter, List.foldl_append]
    exact (route_quiet (F := F) o hess hnodes htable haccepts request ih).2

end ChunkedRoutingImage

/-- Partitioned routing is resident routing: over every bundle that opens and every cache that
`open_shared` accepts, however many routes came before, the answer is that of the resident image,
and never an access error.  The compiler of bundles refuses more nodes than fit 32 bits. -/
theorem routePartitionedControlled_resident {F : Type} [Binary64 F] (image : ChunkedRoutingImage)
    (hopen : openBundle image.checksum image.dir = .ok image.bundle)
    (hnodes : image.bundle.nodes.length < 2 ^ 32)
    (hfits : (image.bundle.manifest.partitions.map fun p =>
      2 * (p.topologyLength.val + p.evidenceLength.val)).sum < 2 ^ 64)
    (haccepts : openSharedAccepts image.config image.bundle.manifest.partitions = true)
    (earlier : List RoutingRequest) (request : RoutingRequest) :
    ∃ resident, image.bundle.toResidentImage image.checksum image.dir = .ok resident ∧
      (image.routePartitionedControlled (F := F) request neverCancelled
        (image.cacheAfter F earlier)).1 = routeControlled resident request neverCancelled ∧
      ∀ reason, (image.routePartitionedControlled (F := F) request neverCancelled
        (image.cacheAfter F earlier)).1 ≠ .error (.imageAccess reason) := by
  obtain ⟨parts, o⟩ := openBundle_opened hopen
  obtain ⟨ess, hess⟩ := o.exists_shows
  have htable : (⟨image.bundle.manifest.partitions, hfits⟩ : PartitionTable).partitions =
      image.bundle.manifest.partitions := rfl
  have hquiet := ChunkedRoutingImage.cacheAfter_quiet (F := F) o hess hnodes htable haccepts earlier
  have hsame := (ChunkedRoutingImage.route_quiet (F := F) o hess hnodes htable haccepts request
    hquiet).1
  refine ⟨_, o.toResidentImage_eq hess, hsame, fun reason herror => ?_⟩
  have hwf := o.residentImage_wellFormed hess hnodes
  exact (ChunkedRoutingImage.routeControlled_error hwf (hsame.symm.trans herror)).2 reason rfl

/-- One entry, with room for one partition. -/
def oneEntry : HostCacheConfig :=
  { maximumBytes := 200, maximumStagingBytes := 100, maximumEntries := 1, ioWorkerCount := 1,
    maximumQueuedReads := 1 }

def zeroChecksum : Bytes → Digest := fun _ => ⟨List.replicate 32 0, length_zeroDigest⟩

/-- Three nodes in a chain, with the edges of the first two in partitions of their own. -/
def chain : BundleContents where
  nodes := [⟨1⟩, ⟨2⟩, ⟨3⟩]
  relations := [⟨1⟩]
  sourceOffsets := [0, 1, 2, 2]
  descriptors := [⟨0, 0, 0, 0, 1⟩, ⟨1, 1, 0, 0, 1⟩]
  parts := [⟨[⟨0, 0, 0, 1⟩], [1], [0], [1065353216], [5]⟩,
    ⟨[⟨1, 0, 0, 1⟩], [2], [0], [1065353216], [10]⟩]
  target := 4194304
  hardMaximum := 8388608

lemma chain_readable : ∀ d ∈ chain.parts, d.Readable 3 1 := by
  have hone : (BaseWeight.fromBits 1065353216).isSome = true := by decide
  intro d hd
  rcases List.mem_cons.1 hd with rfl | hd
  · exact ⟨⟨by simp, by simp, by simp, by simp, rfl, rfl, rfl, by simp, by simp,
      by simpa using hone⟩, by decide⟩
  · obtain rfl := List.mem_singleton.1 hd
    exact ⟨⟨by simp, by simp, by simp, by simp, rfl, rfl, rfl, by simp, by simp,
      by simpa using hone⟩, by decide⟩

lemma chain_listed (k : ℕ) (d : DecodedPartition) (hk : chain.parts[k]? = some d) :
    checkPartitionSegments chain.descriptors (Fin.ofNat (2 ^ 32) k) d.segments.zipIdx = .ok () := by
  rcases k with _ | _ | k
  · obtain rfl := Option.some.inj hk
    decide
  · obtain rfl := Option.some.inj hk
    decide
  · cases hk

lemma chain_consistent : chain.Consistent [1, 2, 2] where
  nodes_ascending := (by decide : [⟨1⟩, ⟨2⟩, ⟨3⟩].Pairwise ((· < ·) : NodeId → NodeId → Prop))
  relations_ascending := List.pairwise_singleton _ _
  parts_lt := by decide
  parts_storable := fun d hd => (chain_readable d hd).toStorable
  parts_readable := chain_readable
  offsets_length := rfl
  offsets_head := rfl
  offsets_last := rfl
  offsets_mono := (by decide : [0, 1, 2, 2].Pairwise ((· ≤ ·) : U64 → U64 → Prop))
  sources := by decide
  sources_last := rfl
  listed := chain_listed

/-- The manifest of the chain. -/
def chainManifest : Bytes := (chain.manifest zeroChecksum).encode.toOption.getD []

lemma chain_fits : ∀ f ∈ chain.files chainManifest, f.2.length < 2 ^ 63 := by
  have hsmall : ∀ f ∈ chain.files chainManifest, f.2.length < 1000 := by decide +kernel
  intro f hf
  exact (hsmall f hf).trans (by decide)

/-- The chain over a cache with one entry. -/
def chainImage : ChunkedRoutingImage where
  checksum := zeroChecksum
  dir := ⟨chain.files chainManifest, chain_fits⟩
  bundle := chain.bundle zeroChecksum chainManifest [1, 2, 2]
  config := oneEntry
  waits _ := 2

lemma chainImage_opens : openBundle zeroChecksum chainImage.dir = .ok chainImage.bundle := by
  have hsome : (chain.manifest zeroChecksum).encode.toOption.isSome = true := by decide +kernel
  have hencoded : (chain.manifest zeroChecksum).encode = .ok chainManifest := by
    rw [chainManifest]
    rcases hbytes : (chain.manifest zeroChecksum).encode with e | bytes
    · rw [hbytes] at hsome
      cases hsome
    · rfl
  exact BundleContents.Holding.openBundle_eq (c := chain) ⟨rfl, hencoded⟩ chain_consistent

/-- From the first node to the last. -/
def alongChain : RoutingRequest where
  origin := ⟨1⟩
  destinations := [⟨3⟩]
  profile := ⟨[(⟨1⟩, .enabled .one)]⟩
  returnPaths := true
  budget := .unlimited
  tiePolicy := .stablePredecessor

/-- A route reads the partitions in turn, so that each evicts the other; the second of two such
routes still answers as the resident image does. -/
theorem routePartitionedControlled_resident_chain :
    openBundle chainImage.checksum chainImage.dir = .ok chainImage.bundle ∧
    (chainImage.cacheAfter SoftBinary64 [alongChain]).cache.evictions = 2 ∧
    ∃ resident, chainImage.bundle.toResidentImage chainImage.checksum chainImage.dir =
        .ok resident ∧
      (chainImage.routePartitionedControlled (F := SoftBinary64) alongChain neverCancelled
        (chainImage.cacheAfter SoftBinary64 [alongChain])).1 =
          routeControlled resident alongChain neverCancelled ∧
      ∀ reason, (chainImage.routePartitionedControlled (F := SoftBinary64) alongChain neverCancelled
        (chainImage.cacheAfter SoftBinary64 [alongChain])).1 ≠ .error (.imageAccess reason) := by
  have hevictions : (chainImage.cacheAfter SoftBinary64 [alongChain]).cache.evictions = 2 := by
    decide +kernel
  refine ⟨chainImage_opens, hevictions, ?_⟩
  exact routePartitionedControlled_resident chainImage chainImage_opens (by decide)
    (by decide +kernel) (by decide +kernel) [alongChain] alongChain

end PathHydra
