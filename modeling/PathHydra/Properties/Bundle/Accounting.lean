import Mathlib.Algebra.BigOperators.Group.Finset.Basic
import Mathlib.Algebra.Order.BigOperators.Group.Finset
import PathHydra.Construction.Bundle.Cache

/-!
# What the cache accounts for

The byte, staging and entry counts of the host cache are those of its entries (`Accounting`), and
every handle a client holds is the one the cache still has (`Leases`).  This file shows that each
critical section keeps both, and says how it leaves the loading entries (`AcquireStep.Leaves`).
-/

namespace PathHydra

variable {D : Type}

/-! ## Sums over the partition table -/

/-- Changing a function at one point changes a sum by the difference there. -/
lemma sum_range_update {α : Type*} (f : ℕ → α → ℕ) (g : ℕ → α) {k n : ℕ} (v : α) (hk : k < n) :
    ∑ i ∈ Finset.range n, f i (Function.update g k v i) + f k (g k) =
      ∑ i ∈ Finset.range n, f i (g i) + f k v := by
  have hmem : k ∈ Finset.range n := Finset.mem_range.2 hk
  rw [← Finset.add_sum_erase _ _ hmem, ← Finset.add_sum_erase _ (fun i => f i (g i)) hmem]
  have hrest : ∑ i ∈ (Finset.range n).erase k, f i (Function.update g k v i) =
      ∑ i ∈ (Finset.range n).erase k, f i (g i) := by
    refine Finset.sum_congr rfl fun i hi => ?_
    rw [Function.update_of_ne (Finset.ne_of_mem_erase hi)]
  rw [hrest, Function.update_self]
  omega

/-- The required bytes an entry accounts for. -/
def entryBytes (required : ℕ) : Option (CacheEntry D) → ℕ
  | some .loading => required
  | some (.ready ..) => required
  | _ => 0

/-- The staged bytes an entry accounts for. -/
def entryStaging (staging : ℕ) : Option (CacheEntry D) → ℕ
  | some .loading => staging
  | _ => 0

/-- An entry counts once. -/
def entryPresent : Option (CacheEntry D) → ℕ
  | some _ => 1
  | none => 0

lemma entryCount_eq_sum (s : CacheState D) (n : ℕ) :
    s.entryCount n = ∑ i ∈ Finset.range n, entryPresent (s.entries i) := by
  unfold CacheState.entryCount
  induction n with
  | zero => simp
  | succ n ih =>
    rw [List.range_succ, List.countP_append, ih, Finset.sum_range_succ]
    congr 1
    cases h : s.entries n <;> simp [entryPresent, h]

/-! ## Admission sizes -/

section Sizes

variable {config : HostCacheConfig} {partitions : List PartitionDescriptor} {id : ℕ}

/-- The partition passes the checks of `acquire`. -/
def Admissible (config : HostCacheConfig) (partitions : List PartitionDescriptor) (id : ℕ) :
    Prop :=
  admission config partitions id = .ok (requiredOf partitions id)

lemma admission_eq_ok {required : ℕ} (h : admission config partitions id = .ok required) :
    required = requiredOf partitions id ∧ required ≤ config.maximumBytes ∧
      ∃ p, partitions[id]? = some p ∧
        stagingOf partitions id = p.topologyLength.val + p.evidenceLength.val ∧
        p.stagingBytes = some (stagingOf partitions id) ∧
        requiredOf partitions id = stagingOf partitions id * 2 ∧
        requiredOf partitions id < 2 ^ 64 := by
  unfold admission at h
  obtain ⟨p, hp, h⟩ := bind_eq_ok.1 h
  obtain ⟨required', hrequired, h⟩ := bind_eq_ok.1 h
  rw [okOr_eq_ok] at hp hrequired
  split_ifs at h with hlimit
  cases h
  simp only [PartitionDescriptor.requiredBytes, PartitionDescriptor.stagingBytes,
    Option.bind_eq_bind, Option.bind_eq_some_iff] at hrequired
  obtain ⟨staging, hstaging, hrequired⟩ := hrequired
  have hstagingOf : stagingOf partitions id = staging := by
    simp [stagingOf, hp, PartitionDescriptor.stagingBytes, hstaging]
  have hrequiredOf : requiredOf partitions id = required := by
    simp [requiredOf, hp, PartitionDescriptor.requiredBytes, PartitionDescriptor.stagingBytes,
      hstaging, hrequired]
  have hsum := (checkedAdd64_eq_some.1 hstaging).2
  obtain ⟨hlt, hmul⟩ := checkedMul64_eq_some.1 hrequired
  refine ⟨hrequiredOf.symm, not_lt.1 hlimit, p, hp, hstagingOf.trans hsum, ?_, ?_, ?_⟩
  · rw [hstagingOf]
    exact hstaging
  · rw [hrequiredOf, hstagingOf, hmul]
  · rw [hrequiredOf, hmul]
    exact hlt

lemma Admissible.lt (h : Admissible config partitions id) : id < partitions.length := by
  obtain ⟨-, -, p, hp, -⟩ := admission_eq_ok h
  exact (List.getElem?_eq_some_iff.1 hp).1

lemma Admissible.required_le (h : Admissible config partitions id) :
    requiredOf partitions id ≤ config.maximumBytes :=
  (admission_eq_ok h).2.1

/-- The saturating sizes `load` computes are the admitted ones. -/
lemma Admissible.load_sizes (h : Admissible config partitions id) {p : PartitionDescriptor}
    (hp : partitions[id]? = some p) :
    saturatingAdd64 p.topologyLength p.evidenceLength = stagingOf partitions id ∧
      saturatingMul64 (stagingOf partitions id) 2 = requiredOf partitions id := by
  obtain ⟨-, -, p', hp', hstaging, -, hrequired, hlt⟩ := admission_eq_ok h
  obtain rfl : p = p' := Option.some.inj (hp.symm.trans hp')
  constructor
  · rw [hstaging]
    refine Nat.min_eq_left ?_
    unfold u64Max
    omega
  · rw [hrequired]
    refine Nat.min_eq_left ?_
    unfold u64Max
    omega

end Sizes

/-! ## The entries -/

/-- The counts of the cache are those of its entries and within the configured limits, and a ready
entry holds the decoding of its own partition under an address of its own. -/
structure Accounting (config : HostCacheConfig) (partitions : List PartitionDescriptor)
    (decode : ℕ → D) (nextAddress : ℕ) (c : CacheState D) : Prop where
  entries_lt : ∀ id e, c.entries id = some e → id < partitions.length
  bytes_eq : c.bytes = ∑ id ∈ Finset.range partitions.length,
    entryBytes (requiredOf partitions id) (c.entries id)
  bytes_le : c.bytes ≤ config.maximumBytes
  staging_eq : c.stagingBytes = ∑ id ∈ Finset.range partitions.length,
    entryStaging (stagingOf partitions id) (c.entries id)
  staging_le : c.stagingBytes ≤ config.maximumStagingBytes
  count_le : c.entryCount partitions.length ≤ config.maximumEntries
  ready : ∀ id data bytes last, c.entries id = some (.ready data bytes last) →
    data.value = decode id ∧ bytes = requiredOf partitions id ∧ data.address < nextAddress
  address_inj : ∀ id id' data data' bytes bytes' last last',
    c.entries id = some (.ready data bytes last) →
    c.entries id' = some (.ready data' bytes' last') → data.address = data'.address → id = id'

/-- A client's handle is the one the cache still holds. -/
def Leases (leases : List (Lease D)) (c : CacheState D) : Prop :=
  ∀ lease ∈ leases, ∃ bytes last, c.entries lease.id = some (.ready lease.data bytes last)

section Entries

variable {config : HostCacheConfig} {partitions : List PartitionDescriptor} {decode : ℕ → D}
  {nextAddress nextAddress' : ℕ} {c c' : CacheState D} {id : ℕ} {leases : List (Lease D)}

/-- The partitions that fit a table do not overflow the staging count. -/
lemma sum_stagingOf_lt (table : PartitionTable) :
    ∑ id ∈ Finset.range table.partitions.length, stagingOf table.partitions id < 2 ^ 63 := by
  have hle : ∀ partitions : List PartitionDescriptor,
      2 * ∑ id ∈ Finset.range partitions.length, stagingOf partitions id ≤
        (partitions.map fun p => 2 * (p.topologyLength.val + p.evidenceLength.val)).sum := by
    intro partitions
    induction partitions with
    | nil => simp
    | cons p rest ih =>
      have hhead : stagingOf (p :: rest) 0 ≤ p.topologyLength.val + p.evidenceLength.val := by
        cases hp : p.stagingBytes with
        | none => simp [stagingOf, hp]
        | some staging =>
          have := (checkedAdd64_eq_some.1 hp).2
          simp [stagingOf, hp, this]
      have htail : ∀ id, stagingOf (p :: rest) (id + 1) = stagingOf rest id := fun id => by
        simp [stagingOf]
      rw [List.length_cons, Finset.sum_range_succ']
      simp only [htail, List.map_cons, List.sum_cons]
      omega
  have := hle table.partitions
  have := table.fits
  omega

/-- Statistics play no part in the accounting. -/
lemma Accounting.congr (h : Accounting config partitions decode nextAddress c)
    (hentries : c'.entries = c.entries) (hbytes : c'.bytes = c.bytes)
    (hstaging : c'.stagingBytes = c.stagingBytes) :
    Accounting config partitions decode nextAddress c' := by
  have hcount : c'.entryCount partitions.length = c.entryCount partitions.length := by
    simp [CacheState.entryCount, hentries]
  constructor
  · simpa only [hentries] using h.entries_lt
  · simpa only [hentries, hbytes] using h.bytes_eq
  · simpa only [hbytes] using h.bytes_le
  · simpa only [hentries, hstaging] using h.staging_eq
  · simpa only [hstaging] using h.staging_le
  · simpa only [hcount] using h.count_le
  · simpa only [hentries] using h.ready
  · simpa only [hentries] using h.address_inj

lemma Leases.congr (h : Leases leases c) (hentries : c'.entries = c.entries) :
    Leases leases c' := by
  simpa only [Leases, hentries] using h

/-- One entry changes and the counts with it. -/
lemma Accounting.update (h : Accounting config partitions decode nextAddress c)
    {v : Option (CacheEntry D)} (hid : id < partitions.length)
    (hentries : c'.entries = Function.update c.entries id v)
    (hbytes : c'.bytes + entryBytes (requiredOf partitions id) (c.entries id) =
      c.bytes + entryBytes (requiredOf partitions id) v)
    (hbytes_le : c'.bytes ≤ config.maximumBytes)
    (hstaging : c'.stagingBytes + entryStaging (stagingOf partitions id) (c.entries id) =
      c.stagingBytes + entryStaging (stagingOf partitions id) v)
    (hstaging_le : c'.stagingBytes ≤ config.maximumStagingBytes)
    (hcount : c.entryCount partitions.length + entryPresent v ≤
      config.maximumEntries + entryPresent (c.entries id))
    (hnext : nextAddress ≤ nextAddress')
    (hready : ∀ data bytes last, v = some (.ready data bytes last) →
      data.value = decode id ∧ bytes = requiredOf partitions id ∧ data.address < nextAddress' ∧
        ∀ id' data' bytes' last', id' ≠ id → c.entries id' = some (.ready data' bytes' last') →
          data'.address ≠ data.address) :
    Accounting config partitions decode nextAddress' c' := by
  have hother : ∀ i, i ≠ id → c'.entries i = c.entries i := fun i hi => by
    rw [hentries, Function.update_of_ne hi]
  have hself : c'.entries id = v := by rw [hentries, Function.update_self]
  refine
    { entries_lt := ?_
      bytes_eq := ?_
      bytes_le := hbytes_le
      staging_eq := ?_
      staging_le := hstaging_le
      count_le := ?_
      ready := ?_
      address_inj := ?_ }
  · intro i e he
    by_cases hi : i = id
    · exact hi ▸ hid
    · exact h.entries_lt i e (hother i hi ▸ he)
  · -- one entry changes, so each sum changes by what that entry weighed and weighs
    have hsum := sum_range_update
      (fun i => entryBytes (D := D) (requiredOf partitions i)) c.entries v hid
    rw [← h.bytes_eq] at hsum
    rw [hentries]
    omega
  · have hsum := sum_range_update
      (fun i => entryStaging (D := D) (stagingOf partitions i)) c.entries v hid
    rw [← h.staging_eq] at hsum
    rw [hentries]
    omega
  · have hsum := sum_range_update (fun _ => entryPresent (D := D)) c.entries v hid
    rw [← entryCount_eq_sum] at hsum
    rw [entryCount_eq_sum, hentries]
    omega
  · intro i data bytes last hi
    by_cases hii : i = id
    · subst hii
      obtain ⟨hvalue, hbytes, hlt, -⟩ := hready data bytes last (hself ▸ hi)
      exact ⟨hvalue, hbytes, hlt⟩
    · obtain ⟨hvalue, hbytes, hlt⟩ := h.ready i data bytes last (hother i hii ▸ hi)
      exact ⟨hvalue, hbytes, hlt.trans_le hnext⟩
  · intro i j data data' bytes bytes' last last' hi hj haddress
    -- the new data has an address of its own
    by_cases hii : i = id <;> by_cases hjj : j = id
    · rw [hii, hjj]
    · subst hii
      obtain ⟨-, -, -, hfresh⟩ := hready data bytes last (hself ▸ hi)
      exact absurd haddress.symm (hfresh j data' bytes' last' hjj (hother j hjj ▸ hj))
    · subst hjj
      obtain ⟨-, -, -, hfresh⟩ := hready data' bytes' last' (hself ▸ hj)
      exact absurd haddress (hfresh i data bytes last hii (hother i hii ▸ hi))
    · exact h.address_inj i j data data' bytes bytes' last last' (hother i hii ▸ hi)
        (hother j hjj ▸ hj) haddress

/-- Handles survive a change at another entry. -/
lemma Leases.update (h : Leases leases c) {v : Option (CacheEntry D)}
    (hentries : c'.entries = Function.update c.entries id v)
    (hunheld : ∀ lease ∈ leases, lease.id ≠ id) : Leases leases c' := by
  intro lease hlease
  obtain ⟨bytes, last, he⟩ := h lease hlease
  refine ⟨bytes, last, ?_⟩
  rw [hentries, Function.update_of_ne (hunheld lease hlease)]
  exact he

/-- No client holds a handle to an entry that is not ready. -/
lemma Leases.unheld (h : Leases leases c)
    (hnot : ∀ data bytes last, c.entries id ≠ some (.ready data bytes last)) :
    ∀ lease ∈ leases, lease.id ≠ id := by
  rintro lease hlease rfl
  obtain ⟨bytes, last, he⟩ := h lease hlease
  exact hnot _ _ _ he

/-! ## Eviction -/

lemma evictable_eq_some {held : ℕ → ℕ} {e : Option (CacheEntry D)} {bytes last : ℕ}
    (h : CacheState.evictable held e = some (bytes, last)) :
    ∃ data, e = some (.ready data bytes last) ∧ held data.address = 0 := by
  unfold CacheState.evictable at h
  split at h
  · rename_i data bytes' last'
    split_ifs at h with hheld
    cases h
    exact ⟨data, rfl, by omega⟩
  · cases h

/-- One turn of the search for a victim. -/
def CacheState.considers (c : CacheState D) (held : ℕ → ℕ) (best : Option (ℕ × ℕ × ℕ)) (id : ℕ) :
    Option (ℕ × ℕ × ℕ) :=
  match evictable held (c.entries id) with
  | none => best
  | some (bytes, last) =>
    match best with
    | none => some (id, bytes, last)
    | some (_, _, bestLast) => if last < bestLast then some (id, bytes, last) else best

/-- The victim is an evictable entry, and there is one as long as any entry is evictable. -/
lemma victim_spec (c : CacheState D) (held : ℕ → ℕ) (n : ℕ) :
    (∀ id bytes, c.victim held n = some (id, bytes) →
      id < n ∧ ∃ last, CacheState.evictable held (c.entries id) = some (bytes, last)) ∧
    (c.victim held n = none → ∀ id < n, CacheState.evictable held (c.entries id) = none) := by
  unfold CacheState.victim
  -- the fold over the first identifiers picks one of them, if any is evictable
  suffices hfold : ∀ m, ∀ best, best = (List.range m).foldl (c.considers held) none →
      (∀ id bytes last, best = some (id, bytes, last) →
        id < m ∧ CacheState.evictable held (c.entries id) = some (bytes, last)) ∧
      (best = none → ∀ id < m, CacheState.evictable held (c.entries id) = none) by
    obtain ⟨hsome, hnone⟩ := hfold n _ rfl
    constructor
    · intro id bytes h
      simp only [Option.map_eq_some_iff] at h
      obtain ⟨⟨id', bytes', last⟩, hbest, heq⟩ := h
      cases heq
      obtain ⟨hlt, he⟩ := hsome _ _ last hbest
      exact ⟨hlt, last, he⟩
    · intro h
      rw [Option.map_eq_none_iff] at h
      exact hnone h
  intro m
  induction m with
  | zero => simp
  | succ m ih =>
    intro best hbest
    rw [List.range_succ, List.foldl_append] at hbest
    obtain ⟨hsome, hnone⟩ := ih _ rfl
    revert hbest hsome hnone
    generalize (List.range m).foldl _ none = before
    intro hbest hsome hnone
    simp only [List.foldl_cons, List.foldl_nil, CacheState.considers] at hbest
    cases hm : CacheState.evictable held (c.entries m) with
    | none =>
      rw [hm] at hbest
      simp only at hbest
      subst hbest
      refine ⟨fun id bytes last h => ?_, fun h id hid => ?_⟩
      · obtain ⟨hlt, he⟩ := hsome id bytes last h
        exact ⟨by omega, he⟩
      · rcases Nat.lt_succ_iff_lt_or_eq.1 hid with hid | rfl
        · exact hnone h id hid
        · exact hm
    | some entry =>
      obtain ⟨bytes, last⟩ := entry
      rw [hm] at hbest
      simp only at hbest
      have hkeep : best = some (m, bytes, last) ∨ (best = before ∧ before ≠ none) := by
        rcases before with _ | ⟨id, bytes', last'⟩
        · exact .inl hbest
        · simp only at hbest
          split_ifs at hbest with hless
          · exact .inl hbest
          · exact .inr ⟨hbest, by simp⟩
      rcases hkeep with rfl | ⟨rfl, hne⟩
      · refine ⟨fun id b l h => ?_, by simp⟩
        cases h
        exact ⟨Nat.lt_succ_self m, hm⟩
      · refine ⟨fun id b l h => ?_, fun h => absurd h hne⟩
        obtain ⟨hlt, he⟩ := hsome id b l h
        exact ⟨by omega, he⟩

/-- What an entry accounts for is part of the total. -/
lemma Accounting.entryBytes_le (h : Accounting config partitions decode nextAddress c)
    (hid : id < partitions.length) :
    entryBytes (requiredOf partitions id) (c.entries id) ≤ c.bytes := by
  rw [h.bytes_eq]
  exact Finset.single_le_sum
    (f := fun i => entryBytes (requiredOf partitions i) (c.entries i))
    (fun _ _ => Nat.zero_le _) (Finset.mem_range.2 hid)

lemma Accounting.entryStaging_le (h : Accounting config partitions decode nextAddress c)
    (hid : id < partitions.length) :
    entryStaging (stagingOf partitions id) (c.entries id) ≤ c.stagingBytes := by
  rw [h.staging_eq]
  exact Finset.single_le_sum
    (f := fun i => entryStaging (stagingOf partitions i) (c.entries i))
    (fun _ _ => Nat.zero_le _) (Finset.mem_range.2 hid)

/-- Evicting a ready entry. -/
lemma Accounting.evict (h : Accounting config partitions decode nextAddress c)
    {data : Arc D} {bytes last : ℕ} (he : c.entries id = some (.ready data bytes last)) :
    Accounting config partitions decode nextAddress (c.evict id bytes) := by
  have hid := h.entries_lt id _ he
  obtain ⟨-, rfl, -⟩ := h.ready id data bytes last he
  have hle := h.entryBytes_le hid
  have hbytes := h.bytes_le
  have hstaging := h.staging_le
  have hcount := h.count_le
  refine h.update (v := none) hid rfl ?_ ?_ ?_ ?_ ?_ le_rfl (by simp)
  · simp only [he, entryBytes, CacheState.evict] at hle ⊢
    omega
  · simp only [CacheState.evict]
    omega
  · simp only [he, entryStaging, CacheState.evict]
  · exact hstaging
  · simp only [he, entryPresent]
    omega

/-- What the eviction loop may do to the cache: remove ready entries that nobody holds. -/
structure Evicts (held : ℕ → ℕ) (c c' : CacheState D) : Prop where
  entries : ∀ i, c'.entries i = c.entries i ∨ (c'.entries i = none ∧
    ∃ data bytes last, c.entries i = some (.ready data bytes last) ∧ held data.address = 0)
  stagingBytes : c'.stagingBytes = c.stagingBytes
  poison : c'.poison = c.poison
  queueDepth : c'.queueDepth = c.queueDepth

lemma Evicts.refl (held : ℕ → ℕ) (c : CacheState D) : Evicts held c c :=
  ⟨fun _ => .inl rfl, rfl, rfl, rfl⟩

lemma Evicts.evict {held : ℕ → ℕ} {c₀ : CacheState D} (h : Evicts held c₀ c) {data : Arc D}
    {bytes last : ℕ} (he : c.entries id = some (.ready data bytes last))
    (hheld : held data.address = 0) : Evicts held c₀ (c.evict id bytes) := by
  refine ⟨fun i => ?_, h.stagingBytes, h.poison, h.queueDepth⟩
  by_cases hi : i = id
  · subst hi
    have hc₀ : c₀.entries i = some (.ready data bytes last) := by
      rcases h.entries i with heq | ⟨hnone, -⟩
      · rw [← heq, he]
      · rw [hnone] at he
        cases he
    exact .inr ⟨by simp [CacheState.evict], data, bytes, last, hc₀, hheld⟩
  · have hsame : (c.evict id bytes).entries i = c.entries i := by simp [CacheState.evict, hi]
    rw [hsame]
    exact h.entries i

/-- A handle pins its entry against eviction. -/
lemma Leases.evict (h : Leases leases c) {held : ℕ → ℕ}
    (hheld : ∀ lease ∈ leases, held lease.data.address ≠ 0) (hevicts : Evicts held c c') :
    Leases leases c' := by
  intro lease hlease
  obtain ⟨bytes, last, he⟩ := h lease hlease
  rcases hevicts.entries lease.id with heq | ⟨-, data, bytes', last', he', hfree⟩
  · exact ⟨bytes, last, heq.trans he⟩
  · rw [he] at he'
    cases he'
    exact absurd hfree (hheld lease hlease)

/-- The eviction loop keeps the accounting, and reports room only when there is room. -/
lemma makeRoom_spec {held : ℕ → ℕ} (required fuel : ℕ) {c₀ : CacheState D}
    (h : Accounting config partitions decode nextAddress c) (hevicts : Evicts held c₀ c) :
    Accounting config partitions decode nextAddress
        (c.makeRoom config held partitions.length required fuel).2 ∧
      Evicts held c₀ (c.makeRoom config held partitions.length required fuel).2 ∧
      ((c.makeRoom config held partitions.length required fuel).1 = true →
        (c.makeRoom config held partitions.length required fuel).2.full config partitions.length
          required = false) := by
  induction fuel generalizing c with
  | zero => exact ⟨h, hevicts, by simp [CacheState.makeRoom]⟩
  | succ fuel ih =>
    unfold CacheState.makeRoom
    by_cases hfull : c.full config partitions.length required = true
    · rw [if_pos hfull]
      cases hvictim : c.victim held partitions.length with
      | none => exact ⟨h, hevicts, by simp⟩
      | some entry =>
        obtain ⟨id, bytes⟩ := entry
        obtain ⟨-, last, he⟩ := (victim_spec c held partitions.length).1 id bytes hvictim
        obtain ⟨data, he, hheld⟩ := evictable_eq_some he
        exact ih (h.evict he) (hevicts.evict he hheld)
    · rw [if_neg hfull]
      exact ⟨h, hevicts, fun _ => by simpa using hfull⟩

/-! ## Critical sections -/

/-- Recording an admitted partition as loading. -/
lemma Accounting.recordLoading (h : Accounting config partitions decode nextAddress c)
    (hid : id < partitions.length) (hnone : c.entries id = none)
    (hroom : c.full config partitions.length (requiredOf partitions id) = false)
    (hstaging : c.stagingBytes + stagingOf partitions id ≤ config.maximumStagingBytes) :
    Accounting config partitions decode nextAddress
      (c.recordLoading id (requiredOf partitions id) (stagingOf partitions id)) := by
  simp only [CacheState.full, Bool.or_eq_false_iff, decide_eq_false_iff_not, not_lt, not_le]
    at hroom
  refine h.update (v := some .loading) hid rfl ?_ hroom.1 ?_ hstaging ?_ le_rfl (by simp)
  · simp only [hnone, entryBytes, CacheState.recordLoading]
    omega
  · simp only [hnone, entryStaging, CacheState.recordLoading]
    omega
  · simp only [hnone, entryPresent]
    omega

/-- Undoing an admission. -/
lemma Accounting.withdraw (h : Accounting config partitions decode nextAddress c)
    (hloading : c.entries id = some .loading) :
    Accounting config partitions decode nextAddress
      (c.withdraw id (requiredOf partitions id) (stagingOf partitions id)) := by
  have hid := h.entries_lt id _ hloading
  have hle := h.entryBytes_le hid
  have hle' := h.entryStaging_le hid
  have hbytes := h.bytes_le
  have hstaging := h.staging_le
  have hcount := h.count_le
  simp only [hloading, entryBytes, entryStaging] at hle hle'
  simp only [CacheState.withdraw, hloading]
  refine h.update (v := none) hid rfl ?_ ?_ ?_ ?_ ?_ le_rfl (by simp)
  · simp only [hloading, entryBytes]
    omega
  · simp only
    omega
  · simp only [hloading, entryStaging]
    omega
  · simp only
    omega
  · simp only [hloading, entryPresent]
    omega

/-- A successful load turns its loading entry into a ready one. -/
lemma Accounting.finishLoad_ok (h : Accounting config partitions decode nextAddress c)
    (hadmissible : Admissible config partitions id) {p : PartitionDescriptor}
    (hp : partitions[id]? = some p) (hloading : c.entries id = some .loading) :
    Accounting config partitions decode (nextAddress + 1)
      (c.finishLoad p id (.ok ⟨decode id, nextAddress⟩)) := by
  have hid := hadmissible.lt
  have hle := h.entryStaging_le hid
  have hstaging := h.staging_le
  have hcount := h.count_le
  obtain ⟨hadd, hmul⟩ := hadmissible.load_sizes hp
  simp only [hloading, entryStaging] at hle
  simp only [CacheState.finishLoad, hadd, hmul]
  refine h.update (v := some (.ready ⟨decode id, nextAddress⟩ (requiredOf partitions id) c.tick))
    hid rfl ?_ h.bytes_le ?_ ?_ ?_ (Nat.le_succ _) ?_
  · simp only [hloading, entryBytes]
  · simp only [hloading, entryStaging]
    omega
  · simp only
    omega
  · simp only [hloading, entryPresent]
    omega
  · intro data bytes last hready
    cases hready
    refine ⟨rfl, rfl, Nat.lt_succ_self _, fun id' data' bytes' last' _ he' haddress => ?_⟩
    have hlt := (h.ready id' data' bytes' last' he').2.2
    rw [haddress] at hlt
    exact absurd hlt (lt_irrefl _)

/-- A failed load turns its loading entry into a failed one. -/
lemma Accounting.finishLoad_error (h : Accounting config partitions decode nextAddress c)
    (hadmissible : Admissible config partitions id) {p : PartitionDescriptor}
    (hp : partitions[id]? = some p) (hloading : c.entries id = some .loading)
    (failure : LoadFailure) :
    Accounting config partitions decode nextAddress (c.finishLoad p id (.error failure)) := by
  have hid := hadmissible.lt
  have hle := h.entryBytes_le hid
  have hle' := h.entryStaging_le hid
  have hbytes := h.bytes_le
  have hstaging := h.staging_le
  have hcount := h.count_le
  obtain ⟨hadd, hmul⟩ := hadmissible.load_sizes hp
  simp only [hloading, entryBytes, entryStaging] at hle hle'
  simp only [CacheState.finishLoad, hadd, hmul]
  refine h.update (v := some (.failed failure.text)) hid rfl ?_ ?_ ?_ ?_ ?_ le_rfl (by simp)
  · simp only [hloading, entryBytes]
    omega
  · simp only
    omega
  · simp only [hloading, entryStaging]
    omega
  · simp only
    omega
  · simp only [hloading, entryPresent]
    omega

/-- The partition is being loaded. -/
def CacheState.Loading (c : CacheState D) (id : ℕ) : Prop := c.entries id = some .loading

lemma Evicts.loading_iff {held : ℕ → ℕ} (h : Evicts held c c') (i : ℕ) :
    c'.Loading i ↔ c.Loading i := by
  unfold CacheState.Loading
  rcases h.entries i with heq | ⟨hnone, data, bytes, last, he, -⟩
  · rw [heq]
  · simp [hnone, he]

/-- How each outcome of the critical section leaves the entries. -/
def AcquireStep.Leaves (id : ℕ) (c c' : CacheState D) : AcquireStep D → Prop
  | .hit data => c.poison = none ∧ (∃ bytes last, c.entries id = some (.ready data bytes last)) ∧
      (∃ bytes last, c'.entries id = some (.ready data bytes last)) ∧
      ∀ i, c'.Loading i ↔ c.Loading i
  | .wait => ∀ i, c'.Loading i ↔ c.Loading i
  | .fail _ => ∀ i, c'.Loading i ↔ c.Loading i
  | .admitted => c.entries id = none ∧ ∀ i, c'.Loading i ↔ c.Loading i ∨ i = id

/-- Staging a partition without an entry never saturates the count. -/
lemma Accounting.staging_lt {table : PartitionTable}
    (h : Accounting config table.partitions decode nextAddress c)
    (hid : id < table.partitions.length) (hnone : c.entries id = none) :
    c.stagingBytes + stagingOf table.partitions id < 2 ^ 63 := by
  have hsum := sum_range_update (fun i => entryStaging (D := D) (stagingOf table.partitions i))
    c.entries (some .loading) hid
  have hle : ∑ i ∈ Finset.range table.partitions.length, entryStaging
      (stagingOf table.partitions i) (Function.update c.entries id (some .loading) i) ≤
        ∑ i ∈ Finset.range table.partitions.length, stagingOf table.partitions i := by
    refine Finset.sum_le_sum fun i _ => ?_
    unfold entryStaging
    split <;> omega
  have hfits := sum_stagingOf_lt table
  rw [← h.staging_eq] at hsum
  simp only [hnone, entryStaging] at hsum hle
  omega

/-- The branch for a missing partition. -/
lemma acquireMissing_spec {table : PartitionTable}
    (h : Accounting config table.partitions decode nextAddress c)
    (hl : Leases leases c) (hadmissible : Admissible config table.partitions id) {held : ℕ → ℕ}
    (hheld : ∀ lease ∈ leases, held lease.data.address ≠ 0) (hnone : c.entries id = none)
    {r : AcquireStep D × CacheState D}
    (hr : acquireMissing config table.partitions.length held id (requiredOf table.partitions id)
      (table.partitions[id]?.bind PartitionDescriptor.stagingBytes) c = r) :
    Accounting config table.partitions decode nextAddress r.2 ∧ Leases leases r.2 ∧
      r.1.Leaves id c r.2 ∧ r.2.poison = c.poison := by
  obtain ⟨-, -, p, hp, -, hstaging, -, -⟩ := admission_eq_ok hadmissible
  simp only [acquireMissing, hp, Option.bind_some, hstaging] at hr
  split_ifs at hr with hwait
  · subst hr
    exact ⟨h.congr rfl rfl rfl, hl.congr rfl, fun _ => Iff.rfl, rfl⟩
  · simp only [Bool.or_eq_true, decide_eq_true_eq, not_or, not_lt, not_le] at hwait
    -- the staging is reserved before anything is evicted
    have hroom : c.stagingBytes + stagingOf table.partitions id ≤ config.maximumStagingBytes := by
      have hlt := h.staging_lt hadmissible.lt hnone
      have hsat := hwait.1
      unfold saturatingAdd64 u64Max at hsat
      omega
    obtain ⟨haccounting, hevicts, hnotfull⟩ := makeRoom_spec
      (requiredOf table.partitions id) (c.entryCount table.partitions.length + 1) h
      (Evicts.refl held c)
    revert haccounting hevicts hnotfull hr
    generalize c.makeRoom config held table.partitions.length (requiredOf table.partitions id)
      (c.entryCount table.partitions.length + 1) = out
    obtain ⟨ok, c₁⟩ := out
    intro hr haccounting hevicts hnotfull
    have hl₁ := hl.evict hheld hevicts
    cases ok with
    | false =>
      subst hr
      exact ⟨haccounting, hl₁, hevicts.loading_iff, hevicts.poison⟩
    | true =>
      subst hr
      have hnone₁ : c₁.entries id = none := by
        rcases hevicts.entries id with heq | ⟨hgone, -⟩
        · exact heq.trans hnone
        · exact hgone
      refine ⟨haccounting.recordLoading hadmissible.lt hnone₁ (hnotfull rfl) ?_, ?_, ⟨hnone, ?_⟩,
        hevicts.poison⟩
      · rw [hevicts.stagingBytes]
        exact hroom
      · exact hl₁.update rfl (hl₁.unheld (by simp [hnone₁]))
      · intro i
        rw [← hevicts.loading_iff i]
        by_cases hi : i = id
        · simp [CacheState.Loading, CacheState.recordLoading, hi]
        · simp [CacheState.Loading, CacheState.recordLoading, hi]

/-- The branches on the entry of the partition. -/
lemma acquireEntry_spec {table : PartitionTable}
    (h : Accounting config table.partitions decode nextAddress c)
    (hl : Leases leases c) (hadmissible : Admissible config table.partitions id) {held : ℕ → ℕ}
    (hheld : ∀ lease ∈ leases, held lease.data.address ≠ 0) (hpoison : c.poison = none)
    {r : AcquireStep D × CacheState D}
    (hr : acquireEntry config table.partitions held id (requiredOf table.partitions id) c = r) :
    Accounting config table.partitions decode nextAddress r.2 ∧ Leases leases r.2 ∧
      r.1.Leaves id c r.2 ∧ r.2.poison = c.poison := by
  unfold acquireEntry at hr
  split at hr
  · -- a ready entry is touched and handed out
    rename_i data bytes last he
    subst hr
    obtain ⟨hvalue, hbytes, hlt⟩ := h.ready id data bytes last he
    refine ⟨?_, ?_, ⟨hpoison, ⟨bytes, last, he⟩, ⟨bytes, c.tick, by simp⟩, ?_⟩, rfl⟩
    · refine h.update (v := some (.ready data bytes c.tick)) hadmissible.lt rfl ?_ h.bytes_le ?_
        h.staging_le ?_ le_rfl ?_
      · simp only [he, entryBytes]
      · simp only [he, entryStaging]
      · have := h.count_le
        simp only [he, entryPresent]
        omega
      · intro data' bytes' last' heq
        cases heq
        refine ⟨hvalue, hbytes, hlt, fun id' data' bytes' last' hne he' haddress => ?_⟩
        exact hne (h.address_inj id' id data' data bytes' bytes last' last he' he haddress)
    · intro lease hlease
      obtain ⟨bytes', last', he'⟩ := hl lease hlease
      by_cases hid : lease.id = id
      · rw [hid, he] at he'
        cases he'
        exact ⟨bytes, c.tick, by simp [hid]⟩
      · exact ⟨bytes', last', by simpa [hid] using he'⟩
    · intro i
      by_cases hi : i = id
      · simp [CacheState.Loading, hi, he]
      · simp [CacheState.Loading, hi]
  · subst hr
    exact ⟨h.congr rfl rfl rfl, hl.congr rfl, fun _ => Iff.rfl, rfl⟩
  · subst hr
    exact ⟨h, hl, fun _ => Iff.rfl, rfl⟩
  · rename_i he
    exact acquireMissing_spec h hl hadmissible hheld he hr

/-- The whole critical section of `acquire`. -/
lemma acquireLocked_spec {table : PartitionTable}
    (h : Accounting config table.partitions decode nextAddress c)
    (hl : Leases leases c) (hadmissible : Admissible config table.partitions id) {held : ℕ → ℕ}
    (hheld : ∀ lease ∈ leases, held lease.data.address ≠ 0) {r : AcquireStep D × CacheState D}
    (hr : acquireLocked config table.partitions held id (requiredOf table.partitions id) c = r) :
    Accounting config table.partitions decode nextAddress r.2 ∧ Leases leases r.2 ∧
      r.1.Leaves id c r.2 ∧ r.2.poison = c.poison := by
  unfold acquireLocked at hr
  split at hr
  · subst hr
    exact ⟨h, hl, fun _ => Iff.rfl, rfl⟩
  · rename_i hpoison
    have hticked : Accounting config table.partitions decode nextAddress
        { c with tick := saturatingAdd64 c.tick 1 } := h.congr rfl rfl rfl
    obtain ⟨haccounting, hleases, hleaves, hsame⟩ :=
      acquireEntry_spec hticked (hl.congr rfl) hadmissible hheld hpoison hr
    refine ⟨haccounting, hleases, ?_, hsame⟩
    obtain ⟨_ | _ | _ | _, c'⟩ := r
    · exact hleaves
    · exact hleaves
    · exact hleaves
    · exact hleaves

end Entries

end PathHydra
