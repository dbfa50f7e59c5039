import PathHydra.Framework.Ownership
import PathHydra.Properties.Bundle.Accounting

/-!
# Cache accounting under concurrency

`CacheInv` is the invariant of the host cache over every interleaving: the counts and the handles
are right (`Accounting`, `Leases`), and the loading entries are exclusively owned by a client about
to queue their job, by the queue, or by a worker (`CacheSystem.Owns`).

`cacheInv_step` preserves it along every step, and `hostCache_accounting` reads it off at the end
of any run.
-/

namespace PathHydra

variable {D : Type}

/-! ## The machine -/

/-- The state in which a client is responsible for a loading entry. -/
def ClientPc.owned : ClientPc → Option ℕ
  | .enqueuing id | .sending id | .abandoning id => some id
  | _ => none

/-- The state in which a worker is responsible for a loading entry. -/
def WorkerPc.owned : WorkerPc → Option ℕ
  | .taken id | .reading id => some id
  | .idle => none

/-- The partition a client is working on. -/
def ClientPc.target : ClientPc → Option ℕ
  | .idle => none
  | .polling id | .locking id | .enqueuing id | .sending id | .abandoning id => some id

/-- Who may be responsible for a loading entry. -/
inductive Owner
  | client (client : ℕ)
  | queue
  | worker (worker : ℕ)
  deriving DecidableEq

/-- A client about to queue the job of the partition, the queue that holds it, or a worker that
runs it. -/
def CacheSystem.Owns (s : CacheSystem D) : Owner → ℕ → Prop
  | .client client, id => (s.clients client).owned = some id
  | .queue, id => id ∈ s.jobs
  | .worker worker, id => (s.workers worker).owned = some id

/-- The invariant of the cache system. -/
structure CacheInv (config : HostCacheConfig) (table : PartitionTable) (decode : ℕ → D)
    (s : CacheSystem D) : Prop where
  accounting : Accounting config table.partitions decode s.nextAddress s.cache
  leases : Leases s.leases s.cache
  ownership : Exclusive s.Owns s.cache.Loading
  jobs_nodup : s.jobs.Nodup
  target_admissible : ∀ client id, (s.clients client).target = some id →
    Admissible config table.partitions id
  owned_admissible : ∀ owner id, s.Owns owner id → Admissible config table.partitions id

section Machine

variable {config : HostCacheConfig} {table : PartitionTable} {decode : ℕ → D}
  {s s' : CacheSystem D} {client worker id : ℕ}

/-- A new cache is empty. -/
lemma cacheInv_new : CacheInv config table decode (CacheSystem.new : CacheSystem D) := by
  have hempty : ∀ i, (CacheState.new : CacheState D).entries i = none := fun _ => rfl
  refine
    { accounting := ?_
      leases := by simp [Leases, CacheSystem.new]
      ownership := ?_
      jobs_nodup := List.nodup_nil
      target_admissible := by simp [CacheSystem.new, ClientPc.target]
      owned_admissible := ?_ }
  · constructor
    · simp [CacheSystem.new, hempty]
    · simp [CacheSystem.new, CacheState.new, entryBytes]
    · simp [CacheSystem.new, CacheState.new]
    · simp [CacheSystem.new, CacheState.new, entryStaging]
    · simp [CacheSystem.new, CacheState.new]
    · simp [CacheSystem.new, CacheState.new, CacheState.entryCount]
    · simp [CacheSystem.new, hempty]
    · simp [CacheSystem.new, hempty]
  · constructor
    · intro i
      simp only [CacheState.Loading, CacheSystem.new, hempty, reduceCtorEq, false_iff, not_exists]
      rintro (c | _ | w) <;> simp [CacheSystem.Owns, ClientPc.owned, WorkerPc.owned]
    · rintro (c | _ | w) <;> simp [CacheSystem.Owns, CacheSystem.new, ClientPc.owned, WorkerPc.owned]
  · rintro (c | _ | w) <;> simp [CacheSystem.Owns, CacheSystem.new, ClientPc.owned, WorkerPc.owned]

/-- A held handle counts. -/
lemma CacheSystem.held_ne_zero {lease : Lease D} (h : lease ∈ s.leases) :
    s.held lease.data.address ≠ 0 := by
  have hpos : 0 < s.held lease.data.address := List.countP_pos_iff.2 ⟨lease, h, by simp⟩
  omega

/-- Ownership after a client has moved. -/
lemma CacheSystem.owns_setClient {pc : ClientPc} {owner : Owner} {i : ℕ} :
    (s.setClient client pc).Owns owner i ↔
      (owner = .client client ∧ pc.owned = some i) ∨ (owner ≠ .client client ∧ s.Owns owner i) := by
  rcases owner with c | _ | w
  · by_cases hc : c = client
    · subst hc
      simp [Owns, setClient]
    · simp [Owns, setClient, hc]
  · simp [Owns, setClient]
  · simp [Owns, setClient]

/-- Ownership after a worker has moved. -/
lemma CacheSystem.owns_setWorker {pc : WorkerPc} {owner : Owner} {i : ℕ} :
    (s.setWorker worker pc).Owns owner i ↔
      (owner = .worker worker ∧ pc.owned = some i) ∨ (owner ≠ .worker worker ∧ s.Owns owner i) := by
  rcases owner with c | _ | w
  · simp [Owns, setWorker]
  · simp [Owns, setWorker]
  · by_cases hw : w = worker
    · subst hw
      simp [Owns, setWorker]
    · simp [Owns, setWorker, hw]

/-- A client moves on without taking or giving up a loading entry. -/
lemma CacheInv.moveClient (inv : CacheInv config table decode s) {cache : CacheState D}
    {leases : List (Lease D)} {pc : ClientPc}
    (haccounting : Accounting config table.partitions decode s.nextAddress cache)
    (hleases : Leases leases cache) (hloading : ∀ i, cache.Loading i ↔ s.cache.Loading i)
    (howned : pc.owned = (s.clients client).owned)
    (htarget : ∀ i, pc.target = some i → Admissible config table.partitions i) :
    CacheInv config table decode
      ({ s with cache := cache, leases := leases }.setClient client pc) := by
  have howns : ∀ owner i, ({ s with cache := cache, leases := leases }.setClient client pc).Owns
      owner i ↔ s.Owns owner i := by
    intro owner i
    rw [CacheSystem.owns_setClient, howned]
    by_cases howner : owner = .client client
    · subst howner
      simp [CacheSystem.Owns]
    · rcases owner with c | _ | w <;> simp [howner, CacheSystem.Owns]
  refine
    { accounting := haccounting
      leases := hleases
      ownership := inv.ownership.congr howns hloading
      jobs_nodup := inv.jobs_nodup
      target_admissible := ?_
      owned_admissible := fun owner i ho => inv.owned_admissible owner i ((howns owner i).1 ho) }
  intro c i hc
  by_cases heq : c = client
  · subst heq
    exact htarget i (by simpa [CacheSystem.setClient] using hc)
  · exact inv.target_admissible c i (by simpa [CacheSystem.setClient, heq] using hc)

/-- A client's turn in the critical section. -/
lemma CacheInv.lock (inv : CacheInv config table decode s)
    (hpc : s.clients client = .locking id) :
    CacheInv config table decode (lockStep config table.partitions s client id).1 := by
  have hadmissible : Admissible config table.partitions id :=
    inv.target_admissible client id (by simp [hpc, ClientPc.target])
  have howned : (s.clients client).owned = none := by simp [hpc, ClientPc.owned]
  obtain ⟨haccounting, hleases, hleaves, -⟩ := acquireLocked_spec inv.accounting inv.leases
    hadmissible (fun lease hl => CacheSystem.held_ne_zero hl) rfl
  unfold lockStep
  revert haccounting hleases hleaves
  generalize acquireLocked config table.partitions s.held id (requiredOf table.partitions id)
    s.cache = r
  obtain ⟨step, cache⟩ := r
  intro haccounting hleases hleaves
  cases step with
  | hit data =>
    obtain ⟨-, -, ⟨bytes, last, he⟩, hloading⟩ := hleaves
    refine inv.moveClient haccounting ?_ hloading (by rw [howned]; rfl) (by simp [ClientPc.target])
    intro lease hlease
    rcases List.mem_cons.1 hlease with rfl | hlease
    · exact ⟨bytes, last, he⟩
    · exact hleases lease hlease
  | wait =>
    refine inv.moveClient haccounting hleases hleaves (by rw [howned]; rfl) fun i hi => ?_
    cases hi
    exact hadmissible
  | fail error =>
    exact inv.moveClient haccounting hleases hleaves (by rw [howned]; rfl)
      (by simp [ClientPc.target])
  | admitted =>
    obtain ⟨hnone, hloading⟩ := hleaves
    -- the partition was absent, so nobody owns it yet and the client becomes its owner
    have hfree : ¬ s.cache.Loading id := by simp [CacheState.Loading, hnone]
    have howns : ∀ owner i, ({ s with cache := cache }.setClient client (.enqueuing id)).Owns
        owner i ↔ s.Owns owner i ∨ (owner = .client client ∧ i = id) := by
      intro owner i
      rw [CacheSystem.owns_setClient]
      by_cases howner : owner = .client client
      · subst howner
        simp [CacheSystem.Owns, ClientPc.owned, hpc, eq_comm]
      · rcases owner with c | _ | w <;> simp [howner, CacheSystem.Owns]
    refine
      { accounting := haccounting
        leases := hleases
        ownership := inv.ownership.take hfree howns hloading
        jobs_nodup := inv.jobs_nodup
        target_admissible := ?_
        owned_admissible := ?_ }
    · intro c i hc
      by_cases heq : c = client
      · subst heq
        have hid : id = i := by simpa [CacheSystem.setClient, ClientPc.target] using hc
        exact hid ▸ hadmissible
      · exact inv.target_admissible c i (by simpa [CacheSystem.setClient, heq] using hc)
    · intro owner i ho
      rcases (howns owner i).1 ho with ho | ⟨-, rfl⟩
      · exact inv.owned_admissible owner i ho
      · exact hadmissible

/-- A client hands its job to the queue. -/
lemma CacheInv.send (inv : CacheInv config table decode s)
    (hpc : s.clients client = .sending id) :
    CacheInv config table decode
      ({ s with jobs := s.jobs ++ [id] }.setClient client (.polling id)) := by
  have hmine : s.Owns (.client client) id := by simp [CacheSystem.Owns, hpc, ClientPc.owned]
  have hadmissible := inv.owned_admissible _ _ hmine
  have hqueue : id ∉ s.jobs := fun h => by
    have := inv.ownership.unique hmine (show s.Owns .queue id from h)
    cases this
  -- the client gives up the partition, and the queue takes it
  have howns : ∀ owner i,
      ({ s with jobs := s.jobs ++ [id] }.setClient client (.polling id)).Owns owner i ↔
        (s.Owns owner i ∧ i ≠ id) ∨ (owner = .queue ∧ i = id) := by
    intro owner i
    rw [CacheSystem.owns_setClient]
    rcases owner with c | _ | w
    · by_cases hc : c = client
      · subst hc
        simp [CacheSystem.Owns, ClientPc.owned, hpc, eq_comm]
      · simp only [CacheSystem.Owns, ne_eq, Owner.client.injEq, hc, false_and, not_false_eq_true,
          true_and, false_or, reduceCtorEq, or_false]
        refine ⟨fun h => ⟨h, ?_⟩, fun h => h.1⟩
        rintro rfl
        exact hc (Owner.client.inj (inv.ownership.unique (show s.Owns (.client c) i from h) hmine))
    · simp only [CacheSystem.Owns, List.mem_append, List.mem_singleton, ne_eq, reduceCtorEq,
        false_and, not_false_eq_true, true_and, false_or]
      constructor
      · rintro (h | rfl)
        · exact .inl ⟨h, fun heq => hqueue (heq ▸ h)⟩
        · exact .inr rfl
      · rintro (h | rfl)
        · exact .inl h.1
        · exact .inr rfl
    · simp only [CacheSystem.Owns, ne_eq, reduceCtorEq, false_and, not_false_eq_true, true_and,
        false_or, or_false]
      refine ⟨fun h => ⟨h, ?_⟩, fun h => h.1⟩
      rintro rfl
      cases inv.ownership.unique (show s.Owns (.worker w) i from h) hmine
  refine
    { accounting := inv.accounting
      leases := inv.leases
      ownership := inv.ownership.handOver hmine howns fun _ => Iff.rfl
      jobs_nodup := ?_
      target_admissible := ?_
      owned_admissible := ?_ }
  · exact List.nodup_append.2 ⟨inv.jobs_nodup, List.nodup_singleton id, fun i hi j hj => by
      rw [List.mem_singleton.1 hj]
      rintro rfl
      exact hqueue hi⟩
  · intro c i hc
    by_cases heq : c = client
    · subst heq
      have hid : id = i := by simpa [CacheSystem.setClient, ClientPc.target] using hc
      exact hid ▸ hadmissible
    · exact inv.target_admissible c i (by simpa [CacheSystem.setClient, heq] using hc)
  · intro owner i ho
    rcases (howns owner i).1 ho with ⟨ho, -⟩ | ⟨-, rfl⟩
    · exact inv.owned_admissible owner i ho
    · exact hadmissible

/-- A partition with a known owner belongs to nobody else. -/
lemma CacheInv.ne_of_owns (inv : CacheInv config table decode s) {owner other : Owner} {i : ℕ}
    (hmine : s.Owns owner id) (hne : other ≠ owner) (h : s.Owns other i) : i ≠ id := by
  rintro rfl
  exact hne (inv.ownership.unique h hmine)

/-- A cancelled client takes its admission back. -/
lemma CacheInv.withdraw (inv : CacheInv config table decode s)
    (hpc : s.clients client = .abandoning id) {cache : CacheState D}
    (hcache : s.cache.withdraw id (requiredOf table.partitions id)
      (stagingOf table.partitions id) = cache) :
    CacheInv config table decode ({ s with cache := cache }.setClient client .idle) := by
  have hmine : s.Owns (.client client) id := by simp [CacheSystem.Owns, hpc, ClientPc.owned]
  have hloading : s.cache.entries id = some .loading := inv.ownership.claimed_of_owns hmine
  have hwithdrawn := inv.accounting.withdraw hloading
  rw [hcache] at hwithdrawn
  have hentries : cache.entries = Function.update s.cache.entries id none := by
    rw [← hcache]
    simp [CacheState.withdraw, hloading]
  -- nobody owns the partition any longer, and nobody claims it
  have howns : ∀ owner i, ({ s with cache := cache }.setClient client .idle).Owns owner i ↔
      s.Owns owner i ∧ i ≠ id := by
    intro owner i
    rw [CacheSystem.owns_setClient]
    by_cases howner : owner = .client client
    · subst howner
      simp [CacheSystem.Owns, ClientPc.owned, hpc, eq_comm]
    · simp only [howner, false_and, not_false_eq_true, ne_eq, true_and, false_or]
      exact ⟨fun h => ⟨h, inv.ne_of_owns hmine howner h⟩, fun h => h.1⟩
  refine
    { accounting := hwithdrawn
      leases := inv.leases.update hentries (inv.leases.unheld (by simp [hloading]))
      ownership := inv.ownership.release howns fun i => ?_
      jobs_nodup := inv.jobs_nodup
      target_admissible := ?_
      owned_admissible := fun owner i ho =>
        inv.owned_admissible owner i ((howns owner i).1 ho).1 }
  · show cache.entries i = some .loading ↔ _
    rw [hentries]
    by_cases hi : i = id
    · simp [hi]
    · simp [hi, CacheState.Loading]
  · intro c i hc
    by_cases heq : c = client
    · subst heq
      simp [CacheSystem.setClient, ClientPc.target] at hc
    · exact inv.target_admissible c i (by simpa [CacheSystem.setClient, heq] using hc)

/-- A worker takes the first job of the queue. -/
lemma CacheInv.receive (inv : CacheInv config table decode s) {rest : List ℕ}
    (hpc : s.workers worker = .idle) (hjobs : s.jobs = id :: rest) :
    CacheInv config table decode ({ s with jobs := rest }.setWorker worker (.taken id)) := by
  have hmine : s.Owns .queue id := by simp [CacheSystem.Owns, hjobs]
  have hnodup := inv.jobs_nodup
  rw [hjobs, List.nodup_cons] at hnodup
  have howns : ∀ owner i, ({ s with jobs := rest }.setWorker worker (.taken id)).Owns owner i ↔
      (s.Owns owner i ∧ i ≠ id) ∨ (owner = .worker worker ∧ i = id) := by
    intro owner i
    rw [CacheSystem.owns_setWorker]
    rcases owner with c | _ | w
    · simp only [ne_eq, reduceCtorEq, false_and, not_false_eq_true, true_and, false_or, or_false]
      exact ⟨fun h => ⟨h, inv.ne_of_owns hmine (by simp) (show s.Owns (.client c) i from h)⟩,
        fun h => h.1⟩
    · simp only [CacheSystem.Owns, hjobs, ne_eq, reduceCtorEq, false_and, not_false_eq_true,
        true_and, false_or, or_false, List.mem_cons]
      constructor
      · exact fun h => ⟨.inr h, fun heq => hnodup.1 (heq ▸ h)⟩
      · rintro ⟨rfl | h, hne⟩
        · exact absurd rfl hne
        · exact h
    · by_cases hw : w = worker
      · subst hw
        simp [CacheSystem.Owns, WorkerPc.owned, hpc, eq_comm]
      · simp only [ne_eq, Owner.worker.injEq, hw, false_and, not_false_eq_true, true_and,
          false_or, or_false]
        exact ⟨fun h => ⟨h, inv.ne_of_owns hmine (by simp) (show s.Owns (.worker w) i from h)⟩,
          fun h => h.1⟩
  refine
    { accounting := inv.accounting
      leases := inv.leases
      ownership := inv.ownership.handOver hmine howns fun _ => Iff.rfl
      jobs_nodup := hnodup.2
      target_admissible := inv.target_admissible
      owned_admissible := ?_ }
  intro owner i ho
  rcases (howns owner i).1 ho with ⟨ho, -⟩ | ⟨-, rfl⟩
  · exact inv.owned_admissible owner i ho
  · exact inv.owned_admissible _ _ hmine

/-- A worker starts to read its partition. -/
lemma CacheInv.beginLoad (inv : CacheInv config table decode s)
    (hpc : s.workers worker = .taken id) :
    CacheInv config table decode
      ({ s with cache := s.cache.beginLoad }.setWorker worker (.reading id)) := by
  have howns : ∀ owner i, ({ s with cache := s.cache.beginLoad }.setWorker worker
      (.reading id)).Owns owner i ↔ s.Owns owner i := by
    intro owner i
    rw [CacheSystem.owns_setWorker]
    by_cases howner : owner = .worker worker
    · subst howner
      simp [CacheSystem.Owns, WorkerPc.owned, hpc]
    · rcases owner with c | _ | w <;> simp [howner, CacheSystem.Owns]
  exact
    { accounting := inv.accounting.congr rfl rfl rfl
      leases := inv.leases.congr rfl
      ownership := inv.ownership.congr howns fun _ => Iff.rfl
      jobs_nodup := inv.jobs_nodup
      target_admissible := inv.target_admissible
      owned_admissible := fun owner i ho => inv.owned_admissible owner i ((howns owner i).1 ho) }

/-- A worker has read its partition, or failed to. -/
lemma CacheInv.finishLoad (inv : CacheInv config table decode s)
    (hpc : s.workers worker = .reading id) {p : PartitionDescriptor}
    (hp : table.partitions[id]? = some p) (failure : Option LoadFailure) :
    CacheInv config table decode (finishStep decode s worker id p failure) := by
  have hmine : s.Owns (.worker worker) id := by simp [CacheSystem.Owns, hpc, WorkerPc.owned]
  have hadmissible := inv.owned_admissible _ _ hmine
  have hloading : s.cache.entries id = some .loading := inv.ownership.claimed_of_owns hmine
  have hunheld : ∀ lease ∈ s.leases, lease.id ≠ id := inv.leases.unheld (by simp [hloading])
  -- either way the entry stops loading and the worker gives it up
  have hstep : ∀ (cache : CacheState D) (next : ℕ) (v : CacheEntry D),
      Accounting config table.partitions decode next cache →
      cache.entries = Function.update s.cache.entries id (some v) → v ≠ .loading →
      CacheInv config table decode
        ({ s with cache := cache, nextAddress := next }.setWorker worker .idle) := by
    intro cache next v haccounting hentries hv
    have howns : ∀ owner i, ({ s with cache := cache, nextAddress := next }.setWorker worker
        .idle).Owns owner i ↔ s.Owns owner i ∧ i ≠ id := by
      intro owner i
      rw [CacheSystem.owns_setWorker]
      by_cases howner : owner = .worker worker
      · subst howner
        simp [CacheSystem.Owns, WorkerPc.owned, hpc, eq_comm]
      · simp only [howner, false_and, not_false_eq_true, ne_eq, true_and, false_or]
        exact ⟨fun h => ⟨h, inv.ne_of_owns hmine howner h⟩, fun h => h.1⟩
    refine
      { accounting := haccounting
        leases := inv.leases.update hentries hunheld
        ownership := inv.ownership.release howns fun i => ?_
        jobs_nodup := inv.jobs_nodup
        target_admissible := inv.target_admissible
        owned_admissible := fun owner i ho =>
          inv.owned_admissible owner i ((howns owner i).1 ho).1 }
    show cache.entries i = some .loading ↔ _
    rw [hentries]
    by_cases hi : i = id
    · simp [hi, hv]
    · simp [hi, CacheState.Loading]
  cases failure with
  | none =>
    exact hstep _ _ _ (inv.accounting.finishLoad_ok hadmissible hp hloading) rfl (by simp)
  | some failure =>
    exact hstep _ _ _ (inv.accounting.finishLoad_error hadmissible hp hloading failure) rfl
      (by simp)

/-- A client drops a handle. -/
lemma CacheInv.dropLease (inv : CacheInv config table decode s) (index : ℕ) :
    CacheInv config table decode { s with leases := s.leases.eraseIdx index } :=
  { accounting := inv.accounting
    leases := fun lease hlease => inv.leases lease (List.mem_of_mem_eraseIdx hlease)
    ownership := inv.ownership.congr (fun _ _ => Iff.rfl) fun _ => Iff.rfl
    jobs_nodup := inv.jobs_nodup
    target_admissible := inv.target_admissible
    owned_admissible := inv.owned_admissible }

/-- A step of a client that leaves the cache alone. -/
lemma CacheInv.setClient (inv : CacheInv config table decode s) {pc : ClientPc}
    (howned : pc.owned = (s.clients client).owned)
    (htarget : ∀ i, pc.target = some i → Admissible config table.partitions i) :
    CacheInv config table decode (s.setClient client pc) :=
  inv.moveClient inv.accounting inv.leases (fun _ => Iff.rfl) howned htarget

lemma cacheInv_clientStep (inv : CacheInv config table decode s) {action : CacheAction}
    {out : Option (AcquireReturn D)}
    (h : clientStep config table.partitions s client action = some (s', out)) :
    CacheInv config table decode s' := by
  unfold clientStep at h
  split at h
  · rename_i id hpc
    cases hadmission : admission config table.partitions id with
    | error e =>
      rw [hadmission] at h
      cases h
      exact inv
    | ok required =>
      rw [hadmission] at h
      cases h
      refine inv.setClient (by rw [hpc]; rfl) fun i hi => ?_
      cases hi
      rw [Admissible, hadmission, (admission_eq_ok hadmission).1]
  · rename_i hpc
    cases h
    exact inv.setClient (by rw [hpc]; rfl) (by simp [ClientPc.target])
  · rename_i id hpc
    cases h
    refine inv.setClient (by rw [hpc]; rfl) fun i hi => ?_
    exact inv.target_admissible client i (by rw [hpc]; exact hi)
  · rename_i id hpc
    have heq : (lockStep config table.partitions s client id).1 = s' :=
      congrArg Prod.fst (Option.some.inj h)
    rw [← heq]
    exact inv.lock hpc
  · rename_i id hpc
    cases h
    refine inv.setClient (by rw [hpc]; rfl) fun i hi => ?_
    exact inv.target_admissible client i (by rw [hpc]; exact hi)
  · rename_i id hpc
    cases h
    refine inv.setClient (by rw [hpc]; rfl) fun i hi => ?_
    exact inv.target_admissible client i (by rw [hpc]; exact hi)
  · rename_i id hpc
    split_ifs at h
    cases h
    exact inv.send hpc
  · rename_i id hpc
    cases h
    refine inv.setClient (by rw [hpc]; rfl) fun i hi => ?_
    exact inv.target_admissible client i (by rw [hpc]; exact hi)
  · rename_i id hpc
    cases h
    exact inv.withdraw hpc rfl
  · cases h

lemma cacheInv_workerStep (inv : CacheInv config table decode s) {action : CacheAction}
    {out : Option (AcquireReturn D)}
    (h : workerStep config table.partitions decode s worker action = some (s', out)) :
    CacheInv config table decode s' := by
  unfold workerStep at h
  split_ifs at h
  split at h
  · rename_i hpc
    split at h
    · cases h
    · rename_i id rest hjobs
      cases h
      exact inv.receive hpc hjobs
  · rename_i id hpc
    cases h
    exact inv.beginLoad hpc
  · rename_i failure id hpc
    obtain ⟨p, hp, heq⟩ := Option.map_eq_some_iff.1 h
    cases heq
    exact inv.finishLoad hpc hp failure
  · cases h

/-- Every step keeps the invariant. -/
lemma cacheInv_step (inv : CacheInv config table decode s) {action : CacheAction}
    {out : Option (AcquireReturn D)}
    (h : (hostCache config table decode).step s action = some (s', out)) :
    CacheInv config table decode s' := by
  simp only [hostCache, CacheAction.dispatch] at h
  split at h
  case h_11 client index =>
    split at h
    · split_ifs at h
      cases h
      exact inv.dropLease index
    · cases h
  all_goals first
    | exact cacheInv_clientStep inv h
    | exact cacheInv_workerStep inv h

/-! ## Poison -/

/-- The result hands data to a client. -/
def ReturnsData (out : Option (AcquireReturn D)) : Prop :=
  ∃ client data, out = some ⟨client, .ok (some data)⟩

lemma not_returnsData_none : ¬ ReturnsData (none : Option (AcquireReturn D)) := by
  rintro ⟨c, data, h⟩
  cases h

lemma not_returnsData_error {e : RoutingError} :
    ¬ ReturnsData (some ⟨client, .error e⟩ : Option (AcquireReturn D)) := by
  rintro ⟨c, data, h⟩
  cases h

lemma not_returnsData_cancelled :
    ¬ ReturnsData (some ⟨client, .ok none⟩ : Option (AcquireReturn D)) := by
  rintro ⟨c, data, h⟩
  cases h

/-- The critical section answers a poisoned cache with an error. -/
lemma lockStep_poisoned (hpoison : s.cache.poison ≠ none) :
    (lockStep config table.partitions s client id).1.cache.poison ≠ none ∧
      ¬ ReturnsData (lockStep config table.partitions s client id).2 := by
  have hlock : acquireLocked config table.partitions s.held id (requiredOf table.partitions id)
      s.cache = (.fail (.imageAccess
        s!"routing bundle is poisoned: {s.cache.poison.getD default}"), s.cache) := by
    obtain ⟨reason, hreason⟩ := Option.ne_none_iff_exists'.1 hpoison
    simp [acquireLocked, hreason]
  unfold lockStep
  rw [hlock]
  exact ⟨hpoison, not_returnsData_error⟩

lemma clientStep_poisoned (hpoison : s.cache.poison ≠ none) {action : CacheAction}
    {out : Option (AcquireReturn D)}
    (h : clientStep config table.partitions s client action = some (s', out)) :
    s'.cache.poison ≠ none ∧ ¬ ReturnsData out := by
  unfold clientStep at h
  split at h
  · split at h <;> cases h
    · exact ⟨hpoison, not_returnsData_error⟩
    · exact ⟨hpoison, not_returnsData_none⟩
  · cases h
    exact ⟨hpoison, not_returnsData_cancelled⟩
  · cases h
    exact ⟨hpoison, not_returnsData_none⟩
  · rename_i id hpc
    have hlock : _ ∧ ¬ ReturnsData (lockStep config table.partitions s client id).2 :=
      lockStep_poisoned hpoison
    rw [Option.some.inj h] at hlock
    exact hlock
  · cases h
    exact ⟨hpoison, not_returnsData_none⟩
  · cases h
    exact ⟨hpoison, not_returnsData_none⟩
  · split_ifs at h
    cases h
    exact ⟨hpoison, not_returnsData_none⟩
  · cases h
    exact ⟨hpoison, not_returnsData_none⟩
  · cases h
    refine ⟨?_, not_returnsData_cancelled⟩
    simp only [CacheSystem.setClient, CacheState.withdraw]
    split <;> exact hpoison
  · cases h

lemma workerStep_poisoned (hpoison : s.cache.poison ≠ none) {action : CacheAction}
    {out : Option (AcquireReturn D)}
    (h : workerStep config table.partitions decode s worker action = some (s', out)) :
    s'.cache.poison ≠ none ∧ ¬ ReturnsData out := by
  unfold workerStep at h
  split_ifs at h
  split at h
  · split at h <;> cases h
    exact ⟨hpoison, not_returnsData_none⟩
  · cases h
    exact ⟨hpoison, not_returnsData_none⟩
  · rename_i failure id hpc
    obtain ⟨p, -, heq⟩ := Option.map_eq_some_iff.1 h
    cases heq
    refine ⟨?_, not_returnsData_none⟩
    cases failure with
    | none => exact hpoison
    | some failure => exact Option.some_ne_none failure.text
  · cases h

/-- A poisoned cache stays poisoned and hands out nothing. -/
lemma poisoned_step (hpoison : s.cache.poison ≠ none) {action : CacheAction}
    {out : Option (AcquireReturn D)}
    (h : (hostCache config table decode).step s action = some (s', out)) :
    s'.cache.poison ≠ none ∧ ¬ ReturnsData out := by
  simp only [hostCache, CacheAction.dispatch] at h
  split at h
  case h_11 =>
    split at h
    · split_ifs at h
      cases h
      exact ⟨hpoison, not_returnsData_none⟩
    · cases h
  all_goals first
    | exact clientStep_poisoned hpoison h
    | exact workerStep_poisoned hpoison h

end Machine

/-- Cache accounting under concurrency: after every interleaving of clients, workers, failing
reads and cancellations, the byte and staging counts are the sums over the entries and within
their limits, a loading entry has exactly one owner and only loading entries have one, a held entry
is still in the cache, a ready entry holds the decoding of its own partition, and a poisoned cache
hands out nothing more. -/
theorem hostCache_accounting (config : HostCacheConfig) (table : PartitionTable) (decode : ℕ → D)
    {actions : List CacheAction} {s : CacheSystem D} {outs : List (Option (AcquireReturn D))}
    (hrun : (hostCache config table decode).run CacheSystem.new actions = some (s, outs)) :
    (s.cache.bytes = ∑ id ∈ Finset.range table.partitions.length,
        entryBytes (requiredOf table.partitions id) (s.cache.entries id) ∧
      s.cache.bytes ≤ config.maximumBytes) ∧
    (s.cache.stagingBytes = ∑ id ∈ Finset.range table.partitions.length,
        entryStaging (stagingOf table.partitions id) (s.cache.entries id) ∧
      s.cache.stagingBytes ≤ config.maximumStagingBytes) ∧
    s.cache.entryCount table.partitions.length ≤ config.maximumEntries ∧
    (∀ id, s.cache.entries id = some .loading → (∃! owner, s.Owns owner id) ∧
      s.jobs.count id ≤ 1) ∧
    (∀ owner id, s.Owns owner id → s.cache.entries id = some .loading) ∧
    (∀ lease ∈ s.leases, ∃ bytes last,
      s.cache.entries lease.id = some (.ready lease.data bytes last)) ∧
    (∀ id data bytes last, s.cache.entries id = some (.ready data bytes last) →
      data.value = decode id) ∧
    (s.cache.poison ≠ none → ∀ later t outs',
      (hostCache config table decode).run s later = some (t, outs') →
      ∀ out ∈ outs', ¬ ReturnsData out) := by
  have inv : CacheInv config table decode s :=
    Machine.run_invariant (fun _ _ _ _ hinv hstep => cacheInv_step hinv hstep) cacheInv_new hrun
  refine ⟨⟨inv.accounting.bytes_eq, inv.accounting.bytes_le⟩,
    ⟨inv.accounting.staging_eq, inv.accounting.staging_le⟩, inv.accounting.count_le, ?_,
    fun _ _ howns => inv.ownership.claimed_of_owns howns, inv.leases, ?_, ?_⟩
  · intro id hloading
    exact ⟨inv.ownership.existsUnique hloading, List.nodup_iff_count_le_one.1 inv.jobs_nodup id⟩
  · intro id data bytes last he
    exact (inv.accounting.ready id data bytes last he).1
  · intro hpoison later t outs' hlater
    exact (Machine.run_outputs (I := fun s => s.cache.poison ≠ none)
      (fun _ _ _ _ hinv hstep => poisoned_step hinv hstep) hpoison hlater).2

/-- A descriptor of a partition with one edge. -/
def smallPartition (id : U32) : PartitionDescriptor :=
  { id := id, topologyOffset := 0, topologyLength := 48,
    topologyChecksum := ⟨List.replicate 32 0, length_zeroDigest⟩,
    evidenceOffset := 0, evidenceLength := 8,
    evidenceChecksum := ⟨List.replicate 32 0, length_zeroDigest⟩, segmentCount := 1, edgeCount := 1 }

/-- Two partitions of one edge each. -/
def smallTable : PartitionTable :=
  { partitions := [smallPartition 0, smallPartition 1], fits := by decide }

/-- A cache with room for one of them. -/
def smallConfig : HostCacheConfig :=
  { maximumBytes := 112, maximumStagingBytes := 56, maximumEntries := 1, ioWorkerCount := 1,
    maximumQueuedReads := 1 }

/-- One client loads a partition and takes its data, and another is cancelled before its turn. -/
def smallRun : List CacheAction :=
  [.start 0 0, .poll 0 false, .lock 0, .enqueuePoll 0 false, .start 1 1, .send 0, .receive 0,
    .beginLoad 0, .poll 1 true, .finishLoad 0 none, .poll 0 false, .lock 0]

theorem hostCache_accounting_smallRun :
    ∃ s outs, (hostCache smallConfig smallTable id).run CacheSystem.new smallRun = some (s, outs) ∧
      s.cache.bytes ≤ smallConfig.maximumBytes := by
  have hsome : ((hostCache smallConfig smallTable id).run CacheSystem.new smallRun).isSome := by
    decide
  obtain ⟨⟨s, outs⟩, hrun⟩ := Option.isSome_iff_exists.1 hsome
  exact ⟨s, outs, hrun, (hostCache_accounting smallConfig smallTable id hrun).1.2⟩

end PathHydra
