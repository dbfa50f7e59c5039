import PathHydra.Properties.Bundle.Cache

/-!
# Cache pressure

When does a client of an intact bundle fail?  The eviction loop removes what nobody holds, so it
makes room for a partition exactly when the entries that must stay leave room for it
(`makeRoom_eq_true_iff`).  Over an intact bundle this is the only way an `acquire` can fail, and
`hostCache_imageAccess_iff` says so for every interleaving.
-/

namespace PathHydra

variable {D : Type}

/-! ## Room beside the entries that stay -/

/-- The entries an eviction leaves alone: those that are not ready or that a client holds. -/
def CacheState.staying (c : CacheState D) (held : ℕ → ℕ) (id : ℕ) : Option (CacheEntry D) :=
  if (CacheState.evictable held (c.entries id)).isSome then none else c.entries id

/-- The entries that stay leave bytes and a place for the partition. -/
def RoomBeside (config : HostCacheConfig) (partitions : List PartitionDescriptor) (held : ℕ → ℕ)
    (c : CacheState D) (id : ℕ) : Prop :=
  ∑ i ∈ Finset.range partitions.length,
      entryBytes (requiredOf partitions i) (c.staying held i) + requiredOf partitions id ≤
    config.maximumBytes ∧
  ∑ i ∈ Finset.range partitions.length, entryPresent (c.staying held i) < config.maximumEntries

section Room

variable {config : HostCacheConfig} {partitions : List PartitionDescriptor} {decode : ℕ → D}
  {nextAddress : ℕ} {c c' : CacheState D} {held : ℕ → ℕ} {id : ℕ}

lemma evictable_ready {data : Arc D} {bytes last : ℕ} (h : held data.address = 0) :
    CacheState.evictable held (some (.ready data bytes last)) = some (bytes, last) := by
  simp [CacheState.evictable, h]

/-- An eviction does not touch the entries that stay. -/
lemma Evicts.staying_eq (h : Evicts held c c') : c'.staying held = c.staying held := by
  funext i
  unfold CacheState.staying
  rcases h.entries i with heq | ⟨hnone, data, bytes, last, he, hfree⟩
  · rw [heq]
  · rw [hnone, he, evictable_ready hfree]
    simp [CacheState.evictable]

lemma entryBytes_staying_le (required : ℕ) (i : ℕ) :
    entryBytes required (c.staying held i) ≤ entryBytes required (c.entries i) := by
  unfold CacheState.staying
  split
  · exact Nat.zero_le _
  · exact le_rfl

lemma entryPresent_staying_le (i : ℕ) :
    entryPresent (c.staying held i) ≤ entryPresent (c.entries i) := by
  unfold CacheState.staying
  split
  · exact Nat.zero_le _
  · exact le_rfl

/-- Room beside all entries is room beside those that stay. -/
lemma Accounting.roomBeside (h : Accounting config partitions decode nextAddress c)
    (hroom : c.full config partitions.length (requiredOf partitions id) = false) :
    RoomBeside config partitions held c id := by
  simp only [CacheState.full, Bool.or_eq_false_iff, decide_eq_false_iff_not, not_lt, not_le] at hroom
  constructor
  · refine le_trans (Nat.add_le_add_right ?_ _) hroom.1
    rw [h.bytes_eq]
    exact Finset.sum_le_sum fun i _ => entryBytes_staying_le _ i
  · refine lt_of_le_of_lt ?_ hroom.2
    rw [entryCount_eq_sum]
    exact Finset.sum_le_sum fun i _ => entryPresent_staying_le i

/-- With nothing to evict, a full cache has no room. -/
lemma Accounting.not_roomBeside (h : Accounting config partitions decode nextAddress c)
    (hvictim : c.victim held partitions.length = none)
    (hfull : c.full config partitions.length (requiredOf partitions id) = true) :
    ¬ RoomBeside config partitions held c id := by
  have hstay : ∀ i ∈ Finset.range partitions.length, c.staying held i = c.entries i := by
    intro i hi
    have hnone := (victim_spec c held partitions.length).2 hvictim i (Finset.mem_range.1 hi)
    simp [CacheState.staying, hnone]
  have hbytes : ∑ i ∈ Finset.range partitions.length,
      entryBytes (requiredOf partitions i) (c.staying held i) = c.bytes := by
    rw [h.bytes_eq]
    exact Finset.sum_congr rfl fun i hi => by rw [hstay i hi]
  have hcount : ∑ i ∈ Finset.range partitions.length, entryPresent (c.staying held i) =
      c.entryCount partitions.length := by
    rw [entryCount_eq_sum]
    exact Finset.sum_congr rfl fun i hi => by rw [hstay i hi]
  simp only [CacheState.full, Bool.or_eq_true, decide_eq_true_eq] at hfull
  rintro ⟨hroom, hplace⟩
  rw [hbytes] at hroom
  rw [hcount] at hplace
  omega

/-- Evicting an entry leaves one entry less. -/
lemma entryCount_evict {n bytes : ℕ} {e : CacheEntry D} (hid : id < n)
    (he : c.entries id = some e) : (c.evict id bytes).entryCount n + 1 = c.entryCount n := by
  have hsum := sum_range_update (fun _ => entryPresent (D := D)) c.entries none hid
  rw [entryCount_eq_sum, entryCount_eq_sum]
  rw [he] at hsum
  exact hsum

/-- The eviction loop makes room exactly when the entries that stay leave room. -/
lemma makeRoom_eq_true_iff {fuel : ℕ} (h : Accounting config partitions decode nextAddress c)
    (hfuel : c.entryCount partitions.length < fuel) :
    (c.makeRoom config held partitions.length (requiredOf partitions id) fuel).1 = true ↔
      RoomBeside config partitions held c id := by
  induction fuel generalizing c with
  | zero => omega
  | succ fuel ih =>
    unfold CacheState.makeRoom
    by_cases hfull : c.full config partitions.length (requiredOf partitions id) = true
    · rw [if_pos hfull]
      rcases hvictim : c.victim held partitions.length with _ | ⟨victim, bytes⟩
      · simpa using h.not_roomBeside hvictim hfull
      · obtain ⟨hlt, last, hevictable⟩ :=
          (victim_spec c held partitions.length).1 victim bytes hvictim
        obtain ⟨data, he, hheld⟩ := evictable_eq_some hevictable
        have hcount : (c.evict victim bytes).entryCount partitions.length + 1 = _ :=
          entryCount_evict hlt he
        have hstaying := ((Evicts.refl held c).evict he hheld).staying_eq
        rw [ih (h.evict he) (by omega)]
        unfold RoomBeside
        rw [hstaying]
    · rw [if_neg hfull]
      simpa using h.roomBeside (by simpa using hfull)

/-- The entries of a cache that has never failed a load. -/
structure CacheState.Intact (c : CacheState D) : Prop where
  poison : c.poison = none
  not_failed : ∀ id reason, c.entries id ≠ some (.failed reason)

/-- Whether staging or the queue makes a client wait for its partition. -/
def mustWait (config : HostCacheConfig) (staging : ℕ) (c : CacheState D) : Bool :=
  decide (config.maximumStagingBytes < saturatingAdd64 c.stagingBytes staging) ||
    decide (saturatingAdd64 config.maximumQueuedReads config.ioWorkerCount ≤ c.queueDepth)

/-- A client that need not wait for its partition finds room for it. -/
def RoomAtTurn (config : HostCacheConfig) (partitions : List PartitionDescriptor) (held : ℕ → ℕ)
    (c : CacheState D) (id : ℕ) : Prop :=
  c.entries id = none → mustWait config (stagingOf partitions id) c = false →
    RoomBeside config partitions held c id

/-- A missing partition is refused only for want of room. -/
lemma acquireMissing_fail_iff (h : Accounting config partitions decode nextAddress c)
    (hnone : c.entries id = none) (error : RoutingError) :
    (acquireMissing config partitions.length held id (requiredOf partitions id)
        (some (stagingOf partitions id)) c).1 = .fail error ↔
      ¬ RoomAtTurn config partitions held c id ∧ error = cacheFullError := by
  have hiff : (c.makeRoom config held partitions.length (requiredOf partitions id)
      (c.entryCount partitions.length + 1)).1 = true ↔ RoomBeside config partitions held c id :=
    makeRoom_eq_true_iff h (Nat.lt_succ_self _)
  simp only [acquireMissing, RoomAtTurn, hnone, mustWait]
  split_ifs with hwait
  · simp [hwait]
  · revert hiff
    generalize c.makeRoom config held partitions.length (requiredOf partitions id) _ = out
    obtain ⟨ok, c₁⟩ := out
    intro hiff
    cases ok with
    | false =>
      have hroom : ¬ RoomBeside config partitions held c id := by simpa using hiff
      simp [hwait, hroom, eq_comm]
    | true =>
      have hroom : RoomBeside config partitions held c id := by simpa using hiff
      simp [hwait, hroom]

/-- Over an intact cache a turn fails only for want of room, and then with the error that says
so. -/
lemma acquireLocked_fail_iff (h : Accounting config partitions decode nextAddress c)
    (hintact : c.Intact) (hadmissible : Admissible config partitions id) (error : RoutingError) :
    (acquireLocked config partitions held id (requiredOf partitions id) c).1 = .fail error ↔
      ¬ RoomAtTurn config partitions held c id ∧ error = cacheFullError := by
  obtain ⟨-, -, p, hp, -, hstaging, -, -⟩ := admission_eq_ok hadmissible
  have hticked : Accounting config partitions decode nextAddress
      { c with tick := saturatingAdd64 c.tick 1 } := h.congr rfl rfl rfl
  unfold acquireLocked
  split
  · rename_i reason hpoison
    rw [hintact.poison] at hpoison
    cases hpoison
  · simp only [acquireEntry]
    rcases he : c.entries id with _ | _ | ⟨data, bytes, last⟩ | reason
    · simp only [hp, Option.bind_some, hstaging]
      exact acquireMissing_fail_iff hticked he error
    · simp [RoomAtTurn, he]
    · simp [RoomAtTurn, he]
    · exact absurd he (hintact.not_failed id reason)

/-- A turn never records a failure. -/
lemma acquireLocked_intact (h : Accounting config partitions decode nextAddress c)
    (hintact : c.Intact) :
    (acquireLocked config partitions held id (requiredOf partitions id) c).2.Intact := by
  have hupdate : ∀ (c' : CacheState D) (e : Option (CacheEntry D)), c'.Intact →
      (∀ reason, e ≠ some (.failed reason)) →
      ∀ i reason, Function.update c'.entries id e i ≠ some (.failed reason) := by
    intro c' e hc' he i reason
    by_cases hi : i = id
    · simpa [hi] using he reason
    · simpa [hi] using hc'.not_failed i reason
  -- evictions only take entries away
  have hevicted : ∀ fuel, (CacheState.makeRoom config held partitions.length
      (requiredOf partitions id) fuel { c with tick := saturatingAdd64 c.tick 1 }).2.Intact := by
    intro fuel
    have hticked : Accounting config partitions decode nextAddress
        { c with tick := saturatingAdd64 c.tick 1 } := h.congr rfl rfl rfl
    obtain ⟨-, hevicts, -⟩ := makeRoom_spec (requiredOf partitions id) fuel hticked
      (Evicts.refl held _)
    refine ⟨hevicts.poison.trans hintact.poison, fun i reason => ?_⟩
    rcases hevicts.entries i with heq | ⟨hnone, -⟩
    · rw [heq]
      exact hintact.not_failed i reason
    · rw [hnone]
      simp
  unfold acquireLocked
  split
  · exact hintact
  · unfold acquireEntry
    split
    · exact ⟨hintact.poison, hupdate c _ hintact (by simp)⟩
    · exact ⟨hintact.poison, hintact.not_failed⟩
    · exact ⟨hintact.poison, hintact.not_failed⟩
    · unfold acquireMissing
      split
      · exact ⟨hintact.poison, hintact.not_failed⟩
      · split_ifs
        · exact ⟨hintact.poison, hintact.not_failed⟩
        · have hroom := hevicted
            (CacheState.entryCount { c with tick := saturatingAdd64 c.tick 1 } partitions.length + 1)
          split
          · rename_i c₁ heq
            rw [heq] at hroom
            exact hroom
          · rename_i c₁ heq
            rw [heq] at hroom
            exact ⟨hroom.poison, hupdate c₁ _ hroom (by simp)⟩

/-- A configuration that `open_shared` accepts admits every partition of the bundle. -/
lemma admissible_of_openSharedAccepts (haccepts : openSharedAccepts config partitions = true)
    (hid : id < partitions.length) : Admissible config partitions id := by
  have hp : partitions[id]? = some partitions[id] := List.getElem?_eq_getElem hid
  have hall : partitions.all (openSharedPartition config) = true := by
    simp only [openSharedAccepts, Bool.and_eq_true] at haccepts
    exact haccepts.2
  have hpartition := List.all_eq_true.1 hall partitions[id] (List.getElem_mem hid)
  unfold openSharedPartition at hpartition
  split at hpartition
  · rename_i required staging hrequired hstaging
    simp only [Bool.and_eq_true, decide_eq_true_eq] at hpartition
    have hrequiredOf : requiredOf partitions id = required := by
      simp [requiredOf, hp, hrequired]
    rw [Admissible, admission, hp, hrequiredOf]
    simp [okOr, hrequired, hpartition.1]
  · cases hpartition

end Room

/-! ## Runs over an intact bundle -/

/-- The steps of clients that hold one partition at a time, over a bundle whose reads succeed. -/
def OrderlyStep (partitions : List PartitionDescriptor) (s : CacheSystem D) : CacheAction → Prop
  | .start client id => id < partitions.length ∧ ∀ lease ∈ s.leases, lease.client ≠ client
  | .finishLoad _ failure => failure = none
  | _ => True

instance (partitions : List PartitionDescriptor) (s : CacheSystem D) (action : CacheAction) :
    Decidable (OrderlyStep partitions s action) :=
  match action with
  | .start _ _ => inferInstanceAs (Decidable (_ ∧ _))
  | .finishLoad _ failure => decidable_of_iff (failure.isNone = true) Option.isNone_iff_eq_none
  | .poll _ _ | .lock _ | .enqueuePoll _ _ | .send _ | .sendTimeout _ | .withdraw _ | .receive _
  | .beginLoad _ | .dropLease _ _ => .isTrue trivial

/-- A client at its turn that need not wait finds room for its partition. -/
def RoomAtLock (config : HostCacheConfig) (partitions : List PartitionDescriptor)
    (s : CacheSystem D) : CacheAction → Prop
  | .lock client => ∀ id, s.clients client = .locking id →
      RoomAtTurn config partitions s.held s.cache id
  | _ => True

/-- The result is an error. -/
def ReturnsError (out : Option (AcquireReturn D)) (error : RoutingError) : Prop :=
  ∃ client, out = some ⟨client, .error error⟩

/-- The result is an `ImageAccess` error. -/
def ReturnsImageAccess (out : Option (AcquireReturn D)) : Prop :=
  ∃ reason, ReturnsError out (.imageAccess reason)

/-- What a step of the machine reports under a condition that it found room: an error exactly when
it found none, and then that the cache is full. -/
structure ReportsPressure (room : Prop) (out : Option (AcquireReturn D)) : Prop where
  only_full : ∀ error, ReturnsError out error → error = cacheFullError
  iff_room : ¬ ReturnsImageAccess out ↔ room

section Runs

variable {config : HostCacheConfig} {table : PartitionTable} {decode : ℕ → D}
  {s s' : CacheSystem D} {client worker id : ℕ} {out : Option (AcquireReturn D)}

lemma reportsPressure_of_no_error (h : ∀ client error, out ≠ some ⟨client, .error error⟩) :
    ReportsPressure True out := by
  constructor
  · rintro error ⟨client, rfl⟩
    exact absurd rfl (h client error)
  · refine iff_of_true ?_ trivial
    rintro ⟨reason, client, rfl⟩
    exact absurd rfl (h client _)

lemma reportsPressure_none : ReportsPressure True (none : Option (AcquireReturn D)) :=
  reportsPressure_of_no_error (by simp)

/-- The reads of the bundle have succeeded so far. -/
structure IntactInv (config : HostCacheConfig) (table : PartitionTable) (decode : ℕ → D)
    (s : CacheSystem D) : Prop where
  inv : CacheInv config table decode s
  intact : s.cache.Intact

lemma lockStep_intact (h : IntactInv config table decode s) :
    (lockStep config table.partitions s client id).1.cache.Intact := by
  have hturn : (acquireLocked config table.partitions s.held id (requiredOf table.partitions id)
      s.cache).2.Intact := acquireLocked_intact h.inv.accounting h.intact
  revert hturn
  unfold lockStep
  generalize acquireLocked config table.partitions s.held id (requiredOf table.partitions id)
    s.cache = r
  obtain ⟨_ | _ | _ | _, c'⟩ := r
  all_goals exact fun hturn => hturn

/-- A client's turn reports an error exactly when it finds no room. -/
lemma lockStep_reportsPressure (h : IntactInv config table decode s)
    (hadmissible : Admissible config table.partitions id) :
    ReportsPressure (RoomAtTurn config table.partitions s.held s.cache id)
      (lockStep config table.partitions s client id).2 := by
  have hfail : ∀ error, (acquireLocked config table.partitions s.held id
      (requiredOf table.partitions id) s.cache).1 = .fail error ↔ _ :=
    acquireLocked_fail_iff h.inv.accounting h.intact hadmissible
  have hroom : (∀ error, (acquireLocked config table.partitions s.held id
      (requiredOf table.partitions id) s.cache).1 ≠ .fail error) →
      RoomAtTurn config table.partitions s.held s.cache id := by
    intro hstep
    by_contra hno
    exact hstep cacheFullError ((hfail cacheFullError).2 ⟨hno, rfl⟩)
  revert hfail hroom
  unfold lockStep
  generalize acquireLocked config table.partitions s.held id (requiredOf table.partitions id)
    s.cache = r
  obtain ⟨step, c'⟩ := r
  intro hfail hroom
  rcases step with data | _ | error | _
  · rw [eq_true (hroom (by simp))]
    exact reportsPressure_of_no_error (by simp)
  · rw [eq_true (hroom (by simp))]
    exact reportsPressure_none
  · obtain ⟨hno, rfl⟩ := (hfail error).1 rfl
    rw [eq_false hno]
    constructor
    · rintro error ⟨client', heq⟩
      cases heq
      rfl
    · refine iff_of_false ?_ not_false
      rw [not_not]
      exact ⟨_, client, rfl⟩
  · rw [eq_true (hroom (by simp))]
    exact reportsPressure_none

lemma clientStep_reportsPressure (haccepts : openSharedAccepts config table.partitions = true)
    (h : IntactInv config table decode s) {action : CacheAction}
    (hclient : ∀ client' id, action = .start client' id → id < table.partitions.length)
    (hlock : ∀ client', action = .lock client' → client' = client)
    (hstep : clientStep config table.partitions s client action = some (s', out)) :
    s'.cache.Intact ∧ ReportsPressure (RoomAtLock config table.partitions s action) out := by
  unfold clientStep at hstep
  split at hstep
  · rename_i client' id hpc
    have hadmissible := admissible_of_openSharedAccepts haccepts (hclient client' id rfl)
    rw [hadmissible] at hstep
    cases hstep
    exact ⟨h.intact, reportsPressure_none⟩
  · cases hstep
    exact ⟨h.intact, reportsPressure_of_no_error (by simp)⟩
  · cases hstep
    exact ⟨h.intact, reportsPressure_none⟩
  · rename_i client' id hpc
    obtain rfl : client' = client := hlock client' rfl
    have hadmissible := h.inv.target_admissible client' id (by rw [hpc]; rfl)
    -- the only turn that decides about room is the one under the lock
    have hintact : (lockStep config table.partitions s client' id).1.cache.Intact :=
      lockStep_intact h
    have hreports : ReportsPressure _ (lockStep config table.partitions s client' id).2 :=
      lockStep_reportsPressure h hadmissible
    rw [Option.some.inj hstep] at hintact hreports
    refine ⟨hintact, ?_⟩
    have hroom : RoomAtLock config table.partitions s (.lock client') ↔
        RoomAtTurn config table.partitions s.held s.cache id := by
      simp [RoomAtLock, hpc]
    rw [propext hroom]
    exact hreports
  · cases hstep
    exact ⟨h.intact, reportsPressure_none⟩
  · cases hstep
    exact ⟨h.intact, reportsPressure_none⟩
  · split_ifs at hstep
    cases hstep
    exact ⟨h.intact, reportsPressure_none⟩
  · cases hstep
    exact ⟨h.intact, reportsPressure_none⟩
  · rename_i id hpc
    cases hstep
    refine ⟨⟨?_, fun i reason => ?_⟩, reportsPressure_of_no_error (by simp)⟩
    · simp only [CacheSystem.setClient, CacheState.withdraw]
      split <;> exact h.intact.poison
    · have hentries : (s.cache.withdraw id (requiredOf table.partitions id)
          (stagingOf table.partitions id)).entries = Function.update s.cache.entries id none := by
        unfold CacheState.withdraw
        split <;> rfl
      simp only [CacheSystem.setClient, hentries]
      by_cases hi : i = id
      · simp [hi]
      · simpa [hi] using h.intact.not_failed i reason
  · cases hstep

lemma workerStep_reportsPressure (h : IntactInv config table decode s) {action : CacheAction}
    (hread : ∀ worker' failure, action = .finishLoad worker' failure → failure = none)
    (hstep : workerStep config table.partitions decode s worker action = some (s', out)) :
    s'.cache.Intact ∧ ReportsPressure True out := by
  unfold workerStep at hstep
  split_ifs at hstep
  split at hstep
  · split at hstep <;> cases hstep
    exact ⟨h.intact, reportsPressure_none⟩
  · cases hstep
    exact ⟨⟨h.intact.poison, h.intact.not_failed⟩, reportsPressure_none⟩
  · rename_i worker' failure id hpc
    obtain rfl := hread worker' failure rfl
    obtain ⟨p, -, heq⟩ := Option.map_eq_some_iff.1 hstep
    cases heq
    refine ⟨⟨h.intact.poison, fun i reason => ?_⟩, reportsPressure_none⟩
    simp only [finishStep, CacheSystem.setWorker, CacheState.finishLoad]
    by_cases hi : i = id
    · simp [hi]
    · simpa [hi] using h.intact.not_failed i reason
  · cases hstep

/-- An orderly step over an intact bundle reports an error exactly when a client finds no room. -/
lemma orderlyStep_reportsPressure (haccepts : openSharedAccepts config table.partitions = true)
    (h : IntactInv config table decode s) {action : CacheAction}
    (horderly : OrderlyStep table.partitions s action)
    (hstep : (hostCache config table decode).step s action = some (s', out)) :
    IntactInv config table decode s' ∧
      ReportsPressure (RoomAtLock config table.partitions s action) out := by
  have hinv := cacheInv_step h.inv hstep
  suffices hreports : s'.cache.Intact ∧
      ReportsPressure (RoomAtLock config table.partitions s action) out from
    ⟨⟨hinv, hreports.1⟩, hreports.2⟩
  simp only [hostCache, CacheAction.dispatch] at hstep
  split at hstep
  case h_11 =>
    split at hstep
    · split_ifs at hstep
      cases hstep
      exact ⟨h.intact, reportsPressure_none⟩
    · cases hstep
  case h_10 worker failure =>
    obtain rfl : failure = none := horderly
    exact workerStep_reportsPressure h (by simp) hstep
  case h_1 client id =>
    refine clientStep_reportsPressure haccepts h ?_ (by simp) hstep
    rintro client' id' heq
    cases heq
    exact horderly.1
  all_goals first
    | exact clientStep_reportsPressure haccepts h (by simp) (by simp) hstep
    | exact workerStep_reportsPressure h (by simp) hstep

end Runs

/-- Cache pressure over an intact bundle.  In every interleaving of clients that hold one partition
at a time, the only error an `acquire` returns is that the cache is full, and none is returned
exactly when every client at its turn finds room beside the entries that are pinned or loading. -/
theorem hostCache_imageAccess_iff (config : HostCacheConfig) (table : PartitionTable)
    (decode : ℕ → D) (haccepts : openSharedAccepts config table.partitions = true)
    {actions : List CacheAction} {s : CacheSystem D} {outs : List (Option (AcquireReturn D))}
    (horderly : (hostCache config table decode).Guarded (OrderlyStep table.partitions)
      CacheSystem.new actions)
    (hrun : (hostCache config table decode).run CacheSystem.new actions = some (s, outs)) :
    (∀ out ∈ outs, ∀ error, ReturnsError out error → error = cacheFullError) ∧
    ((∀ out ∈ outs, ¬ ReturnsImageAccess out) ↔
      (hostCache config table decode).Guarded (RoomAtLock config table.partitions)
        CacheSystem.new actions) := by
  have hnew : IntactInv config table decode (CacheSystem.new : CacheSystem D) :=
    ⟨cacheInv_new, rfl, by simp [CacheSystem.new, CacheState.new]⟩
  constructor
  · refine (Machine.run_guarded (fun _ _ _ _ hs hguard hstep => ?_) hnew horderly hrun).2
    obtain ⟨hs', hreports⟩ := orderlyStep_reportsPressure haccepts hs hguard hstep
    exact ⟨hs', hreports.only_full⟩
  · refine Machine.run_outputs_iff_guarded (fun _ _ _ _ hs hguard hstep => ?_) hnew horderly hrun
    obtain ⟨hs', hreports⟩ := orderlyStep_reportsPressure haccepts hs hguard hstep
    exact ⟨hs', hreports.iff_room⟩

/-- One client holds its partition while another asks for a second one in a cache of one entry. -/
def fullRun : List CacheAction := smallRun ++ [.start 2 1, .poll 2 false, .lock 2]

theorem hostCache_imageAccess_fullRun :
    openSharedAccepts smallConfig smallTable.partitions = true ∧
      (hostCache smallConfig smallTable id).Guarded (OrderlyStep smallTable.partitions)
        CacheSystem.new fullRun ∧
      ∃ s outs, (hostCache smallConfig smallTable id).run CacheSystem.new fullRun = some (s, outs) ∧
        ∃ out ∈ outs, ReturnsImageAccess out := by
  refine ⟨by decide, by decide, ?_⟩
  have hlast : (((hostCache smallConfig smallTable id).run CacheSystem.new fullRun).bind fun r =>
      r.2.getLast?) = some (some ⟨2, .error cacheFullError⟩) := rfl
  obtain ⟨⟨s, outs⟩, hrun, hout⟩ := Option.bind_eq_some_iff.1 hlast
  exact ⟨s, outs, hrun, _, List.mem_of_getLast? hout, _, 2, rfl⟩

/-- The client that finds the cache full had no room, and without it every client has. -/
theorem hostCache_imageAccess_room :
    (∃ s outs, (hostCache smallConfig smallTable id).run CacheSystem.new fullRun = some (s, outs) ∧
      (∀ out ∈ outs, ∀ error, ReturnsError out error → error = cacheFullError) ∧
      ¬ (hostCache smallConfig smallTable id).Guarded (RoomAtLock smallConfig smallTable.partitions)
        CacheSystem.new fullRun) ∧
    (hostCache smallConfig smallTable id).Guarded (RoomAtLock smallConfig smallTable.partitions)
      CacheSystem.new smallRun := by
  constructor
  · have hlast : (((hostCache smallConfig smallTable id).run CacheSystem.new fullRun).bind fun r =>
        r.2.getLast?) = some (some ⟨2, .error cacheFullError⟩) := rfl
    obtain ⟨⟨s, outs⟩, hrun, hout⟩ := Option.bind_eq_some_iff.1 hlast
    obtain ⟨honly, hroom⟩ := hostCache_imageAccess_iff smallConfig smallTable id (by decide)
      (by decide) hrun
    refine ⟨s, outs, hrun, honly, fun hguarded => ?_⟩
    exact hroom.2 hguarded _ (List.mem_of_getLast? hout) ⟨_, 2, rfl⟩
  · have hreturns : ((hostCache smallConfig smallTable id).run CacheSystem.new smallRun).map
        (fun r => r.2.all fun out => out.all fun answer => answer.result.toOption.isSome) =
          some true := by
      decide
    obtain ⟨⟨s, outs⟩, hrun, hall⟩ := Option.map_eq_some_iff.1 hreturns
    refine (hostCache_imageAccess_iff smallConfig smallTable id (by decide) (by decide) hrun).2.1
      fun out hmem himage => ?_
    obtain ⟨reason, client, rfl⟩ := himage
    have hok := List.all_eq_true.1 hall _ hmem
    cases hok

end PathHydra
