import Mathlib.Logic.Function.Basic
import Mathlib.Order.Interval.Finset.Nat
import PathHydra.Framework.Machine
import PathHydra.Construction.Bundle.Layout
import PathHydra.Construction.Routing.Request

/-!
# The host partition cache

`HostCache` keeps the decoded partitions of one bundle for any number of routes.  Its critical
sections are functions on `CacheState`: `acquireLocked` is the body of the loop of `acquire` under
the lock, `withdraw` what a cancelled client undoes, `beginLoad` and `finishLoad` the two critical
sections of `load`.  `hostCache` puts them together as a machine: clients, the bounded queue of
jobs, and the I/O workers move one critical section, poll or queue operation at a time, in any
order, and the environment chooses the answers of the cancellation signals and which reads fail.

* The keys of the entries map are partition identifiers of the bundle, so the map is a function of
  the identifier and its size is counted over the partition table.
* A handle to decoded data is an `Arc`: the data and the address of its allocation.  The handles
  clients hold are listed in `leases`; the strong count of a cached handle is one more than the
  number of leases with its address.
* Byte counts are naturals.  `PartitionTable` says why they never wrap: the files of a bundle are
  on a disk, and twice their size is far below `2⁶⁴`.

The workers run as long as the machine does, so their shutdown, and the errors that report it, are
not part of it.
-/

namespace PathHydra

variable {D : Type}

/-- `HostCacheConfig`. -/
structure HostCacheConfig where
  maximumBytes : ℕ
  maximumStagingBytes : ℕ
  maximumEntries : ℕ
  ioWorkerCount : ℕ
  maximumQueuedReads : ℕ
  deriving DecidableEq

/-- A shared handle: the value and the address of its allocation. -/
structure Arc (D : Type) where
  value : D
  address : ℕ
  deriving DecidableEq

/-- `CacheEntry`. -/
inductive CacheEntry (D : Type)
  | loading
  | ready (data : Arc D) (bytes last : ℕ)
  | failed (reason : String)

/-- `CacheState`. -/
structure CacheState (D : Type) where
  entries : ℕ → Option (CacheEntry D)
  bytes : ℕ
  high : ℕ
  tick : ℕ
  hits : ℕ
  misses : ℕ
  waits : ℕ
  evictions : ℕ
  readBytes : ℕ
  checksumFailures : ℕ
  queueDepth : ℕ
  queueHighWater : ℕ
  failedLoads : ℕ
  stagingBytes : ℕ
  stagingHigh : ℕ
  shortReads : ℕ
  poison : Option String

/-- The state of a new cache. -/
def CacheState.new : CacheState D :=
  { entries := fun _ => none, bytes := 0, high := 0, tick := 0, hits := 0, misses := 0, waits := 0,
    evictions := 0, readBytes := 0, checksumFailures := 0, queueDepth := 0, queueHighWater := 0,
    failedLoads := 0, stagingBytes := 0, stagingHigh := 0, shortReads := 0, poison := none }

/-- What the cache reads of a failed load: the text of the error, and whether it is a short
read. -/
structure LoadFailure where
  text : String
  unexpectedEof : Bool
  deriving DecidableEq

/-- The partitions of a bundle.  The bytes to hold all of them decoded are countable. -/
structure PartitionTable where
  partitions : List PartitionDescriptor
  fits : (partitions.map fun p => 2 * (p.topologyLength.val + p.evidenceLength.val)).sum < 2 ^ 64

/-! ## Admission sizes -/

/-- The bytes a read of the partition stages. -/
def PartitionDescriptor.stagingBytes (p : PartitionDescriptor) : Option ℕ :=
  checkedAdd64 p.topologyLength p.evidenceLength

/-- The bytes the partition is admitted with. -/
def PartitionDescriptor.requiredBytes (p : PartitionDescriptor) : Option ℕ := do
  let staging ← p.stagingBytes
  checkedMul64 staging 2

/-- The checks of `acquire` before its loop: the bytes the partition requires. -/
def admission (config : HostCacheConfig) (partitions : List PartitionDescriptor) (id : ℕ) :
    Except RoutingError ℕ := do
  let p ← okOr (.imageAccess "partition ID is out of bounds") partitions[id]?
  let required ← okOr (.imageAccess "cache admission size overflow") p.requiredBytes
  if config.maximumBytes < required then
    .error (.imageAccess
      s!"partition requires {required} cache bytes; limit is {config.maximumBytes}")
  else .ok required

/-- The checks of `open_shared` on one partition. -/
def openSharedPartition (config : HostCacheConfig) (p : PartitionDescriptor) : Bool :=
  match p.requiredBytes, p.stagingBytes with
  | some required, some staging =>
    decide (required ≤ config.maximumBytes) && decide (staging ≤ config.maximumStagingBytes)
  | _, _ => false

/-- Whether `open_shared` accepts the configuration for the bundle. -/
def openSharedAccepts (config : HostCacheConfig) (partitions : List PartitionDescriptor) : Bool :=
  decide (config.maximumBytes ≠ 0) && decide (config.maximumStagingBytes ≠ 0) &&
    decide (config.maximumEntries ≠ 0) && decide (config.ioWorkerCount ≠ 0) &&
    decide (config.maximumQueuedReads ≠ 0) &&
    partitions.all (openSharedPartition config)

/-! ## Critical sections -/

namespace CacheState

/-- `entries.len()`, over the identifiers below the size of the partition table. -/
def entryCount (s : CacheState D) (tableSize : ℕ) : ℕ :=
  (List.range tableSize).countP fun id => (s.entries id).isSome

/-- The bytes and the last use of an entry that may be evicted: it is ready and the cache holds
its only handle. -/
def evictable (held : ℕ → ℕ) : Option (CacheEntry D) → Option (ℕ × ℕ)
  | some (.ready data bytes last) => if 1 + held data.address = 1 then some (bytes, last) else none
  | _ => none

/-- The victim of an eviction: among the evictable entries the one used least recently, ties by
identifier, with its bytes. -/
def victim (s : CacheState D) (held : ℕ → ℕ) (tableSize : ℕ) : Option (ℕ × ℕ) :=
  let best := (List.range tableSize).foldl (fun best id =>
    match evictable held (s.entries id) with
    | none => best
    | some (bytes, last) =>
      match best with
      | none => some (id, bytes, last)
      | some (_, _, bestLast) => if last < bestLast then some (id, bytes, last) else best) none
  best.map fun (id, bytes, _) => (id, bytes)

/-- Whether a partition does not fit beside the present entries. -/
def full (s : CacheState D) (config : HostCacheConfig) (tableSize required : ℕ) : Bool :=
  decide (config.maximumBytes < s.bytes + required) ||
    decide (config.maximumEntries ≤ s.entryCount tableSize)

/-- Removes a victim. -/
def evict (s : CacheState D) (id bytes : ℕ) : CacheState D :=
  { s with
    entries := Function.update s.entries id none
    bytes := s.bytes - bytes
    evictions := saturatingAdd64 s.evictions 1 }

/-- The eviction loop: whether it made room, and the state it leaves.  Every turn removes an
entry, so a fuel of one more than their number is never used up. -/
def makeRoom (config : HostCacheConfig) (held : ℕ → ℕ) (tableSize required : ℕ) :
    ℕ → CacheState D → Bool × CacheState D
  | 0, s => (false, s)
  | fuel + 1, s =>
    if s.full config tableSize required then
      match s.victim held tableSize with
      | none => (false, s)
      | some (id, bytes) => makeRoom config held tableSize required fuel (s.evict id bytes)
    else (true, s)

/-- Records the admitted partition as loading. -/
def recordLoading (s : CacheState D) (id required staging : ℕ) : CacheState D :=
  let bytes := s.bytes + required
  let stagingBytes := s.stagingBytes + staging
  let queueDepth := saturatingAdd64 s.queueDepth 1
  { s with
    entries := Function.update s.entries id (some .loading)
    bytes := bytes
    stagingBytes := stagingBytes
    stagingHigh := max s.stagingHigh stagingBytes
    high := max s.high bytes
    misses := saturatingAdd64 s.misses 1
    queueDepth := queueDepth
    queueHighWater := max s.queueHighWater queueDepth }

end CacheState

/-- How a client leaves the critical section of `acquire`. -/
inductive AcquireStep (D : Type)
  | hit (data : Arc D)
  | wait
  | fail (error : RoutingError)
  | admitted

def cacheFullError : RoutingError :=
  .imageAccess "host partition cache is full and every entry is pinned or loading"

/-- The branch of `acquire` for a partition without an entry. -/
def acquireMissing (config : HostCacheConfig) (tableSize : ℕ) (held : ℕ → ℕ)
    (id required : ℕ) (staging : Option ℕ) (s : CacheState D) : AcquireStep D × CacheState D :=
  match staging with
  | none => (.fail (.imageAccess "staging admission overflow"), s)
  | some staging =>
    if decide (config.maximumStagingBytes < saturatingAdd64 s.stagingBytes staging) ||
        decide (saturatingAdd64 config.maximumQueuedReads config.ioWorkerCount ≤ s.queueDepth) then
      (.wait, { s with waits := saturatingAdd64 s.waits 1 })
    else match s.makeRoom config held tableSize required (s.entryCount tableSize + 1) with
      | (false, s) => (.fail cacheFullError, s)
      | (true, s) => (.admitted, s.recordLoading id required staging)

/-- The branches of `acquire` on the entry of the partition, after the tick. -/
def acquireEntry (config : HostCacheConfig) (partitions : List PartitionDescriptor)
    (held : ℕ → ℕ) (id required : ℕ) (s : CacheState D) : AcquireStep D × CacheState D :=
  match s.entries id with
  | some (.ready data bytes _) =>
    (.hit data, { s with
      entries := Function.update s.entries id (some (.ready data bytes s.tick))
      hits := saturatingAdd64 s.hits 1 })
  | some .loading => (.wait, { s with waits := saturatingAdd64 s.waits 1 })
  | some (.failed reason) => (.fail (.imageAccess reason), s)
  | none =>
    acquireMissing config partitions.length held id required
      (partitions[id]?.bind PartitionDescriptor.stagingBytes) s

/-- One turn of the loop of `acquire` under the lock. -/
def acquireLocked (config : HostCacheConfig) (partitions : List PartitionDescriptor)
    (held : ℕ → ℕ) (id required : ℕ) (s : CacheState D) : AcquireStep D × CacheState D :=
  match s.poison with
  | some reason => (.fail (.imageAccess s!"routing bundle is poisoned: {reason}"), s)
  | none =>
    acquireEntry config partitions held id required { s with tick := saturatingAdd64 s.tick 1 }

/-- What a client undoes when it is cancelled before its job is queued. -/
def CacheState.withdraw (s : CacheState D) (id required staging : ℕ) : CacheState D :=
  let s' := { s with
    queueDepth := s.queueDepth - 1
    entries := Function.update s.entries id none }
  match s.entries id with
  | some .loading => { s' with
      bytes := s.bytes - required
      stagingBytes := s.stagingBytes - staging }
  | _ => s'

/-- The first critical section of `load`. -/
def CacheState.beginLoad (s : CacheState D) : CacheState D :=
  { s with queueDepth := s.queueDepth - 1 }

/-- The second critical section of `load`, with the outcome of the read. -/
def CacheState.finishLoad (s : CacheState D) (p : PartitionDescriptor) (id : ℕ)
    (loaded : Except LoadFailure (Arc D)) : CacheState D :=
  let staging := saturatingAdd64 p.topologyLength p.evidenceLength
  let required := saturatingMul64 staging 2
  let s := { s with stagingBytes := s.stagingBytes - staging }
  match loaded with
  | .ok data => { s with
      readBytes := saturatingAdd64 s.readBytes staging
      entries := Function.update s.entries id (some (.ready data required s.tick)) }
  | .error failure => { s with
      bytes := s.bytes - required
      failedLoads := saturatingAdd64 s.failedLoads 1
      checksumFailures := if failure.text.contains "checksum" then
        saturatingAdd64 s.checksumFailures 1 else s.checksumFailures
      shortReads := if failure.unexpectedEof then saturatingAdd64 s.shortReads 1
        else s.shortReads
      poison := some failure.text
      entries := Function.update s.entries id (some (.failed failure.text)) }

/-! ## The machine -/

/-- Where a client stands in `acquire`: before the poll at the head of the loop, before the lock,
before the poll of `enqueue`, before the send, and before the lock that undoes a cancelled
admission. -/
inductive ClientPc
  | idle
  | polling (id : ℕ)
  | locking (id : ℕ)
  | enqueuing (id : ℕ)
  | sending (id : ℕ)
  | abandoning (id : ℕ)
  deriving DecidableEq

/-- Where a worker stands: waiting for a job, before the first critical section of `load`, and
reading the partition. -/
inductive WorkerPc
  | idle
  | taken (id : ℕ)
  | reading (id : ℕ)
  deriving DecidableEq

/-- A handle held by a client. -/
structure Lease (D : Type) where
  client : ℕ
  id : ℕ
  data : Arc D
  deriving DecidableEq

/-- The cache with everything that moves around it. -/
structure CacheSystem (D : Type) where
  cache : CacheState D
  clients : ℕ → ClientPc
  jobs : List ℕ
  workers : ℕ → WorkerPc
  leases : List (Lease D)
  nextAddress : ℕ

namespace CacheSystem

/-- A new cache, idle clients and workers. -/
def new : CacheSystem D :=
  { cache := CacheState.new, clients := fun _ => .idle, jobs := [], workers := fun _ => .idle,
    leases := [], nextAddress := 0 }

/-- The handles clients hold to an allocation. -/
def held (s : CacheSystem D) (address : ℕ) : ℕ :=
  s.leases.countP fun lease => decide (lease.data.address = address)

def setClient (s : CacheSystem D) (client : ℕ) (pc : ClientPc) : CacheSystem D :=
  { s with clients := Function.update s.clients client pc }

def setWorker (s : CacheSystem D) (worker : ℕ) (pc : WorkerPc) : CacheSystem D :=
  { s with workers := Function.update s.workers worker pc }

end CacheSystem

/-- Who moves, and what the environment answers. -/
inductive CacheAction
  | start (client id : ℕ)
  | poll (client : ℕ) (cancelled : Bool)
  | lock (client : ℕ)
  | enqueuePoll (client : ℕ) (cancelled : Bool)
  | send (client : ℕ)
  | sendTimeout (client : ℕ)
  | withdraw (client : ℕ)
  | receive (worker : ℕ)
  | beginLoad (worker : ℕ)
  | finishLoad (worker : ℕ) (failure : Option LoadFailure)
  | dropLease (client : ℕ) (index : ℕ)

/-- A call of `acquire` that returned: the client, and its result. -/
structure AcquireReturn (D : Type) where
  client : ℕ
  result : Except RoutingError (Option (Arc D))

section System

variable (config : HostCacheConfig) (partitions : List PartitionDescriptor) (decode : ℕ → D)

/-- The sizes a partition was admitted with. -/
def requiredOf (id : ℕ) : ℕ := (partitions[id]?.bind PartitionDescriptor.requiredBytes).getD 0

def stagingOf (id : ℕ) : ℕ := (partitions[id]?.bind PartitionDescriptor.stagingBytes).getD 0

/-- A client's turn in the critical section of `acquire`. -/
def lockStep (s : CacheSystem D) (client id : ℕ) : CacheSystem D × Option (AcquireReturn D) :=
  match acquireLocked config partitions s.held id (requiredOf partitions id) s.cache with
  | (.hit data, cache) =>
    ({ s with cache := cache, leases := ⟨client, id, data⟩ :: s.leases }.setClient client .idle,
      some ⟨client, .ok (some data)⟩)
  | (.wait, cache) => ({ s with cache := cache }.setClient client (.polling id), none)
  | (.fail error, cache) =>
    ({ s with cache := cache }.setClient client .idle, some ⟨client, .error error⟩)
  | (.admitted, cache) => ({ s with cache := cache }.setClient client (.enqueuing id), none)

/-- A worker has read the partition, or failed to. -/
def finishStep (s : CacheSystem D) (worker id : ℕ) (p : PartitionDescriptor)
    (failure : Option LoadFailure) : CacheSystem D :=
  match failure with
  | none =>
    { s with
      cache := s.cache.finishLoad p id (.ok ⟨decode id, s.nextAddress⟩)
      nextAddress := s.nextAddress + 1 }.setWorker worker .idle
  | some failure => { s with cache := s.cache.finishLoad p id (.error failure) }.setWorker worker .idle

/-- One step of a client. -/
def clientStep (s : CacheSystem D) (client : ℕ) (action : CacheAction) :
    Option (CacheSystem D × Option (AcquireReturn D)) :=
  match action, s.clients client with
  | .start _ id, .idle =>
    match admission config partitions id with
    | .error e => some (s, some ⟨client, .error e⟩)
    | .ok _ => some (s.setClient client (.polling id), none)
  | .poll _ true, .polling _ => some (s.setClient client .idle, some ⟨client, .ok none⟩)
  | .poll _ false, .polling id => some (s.setClient client (.locking id), none)
  | .lock _, .locking id => some (lockStep config partitions s client id)
  | .enqueuePoll _ true, .enqueuing id => some (s.setClient client (.abandoning id), none)
  | .enqueuePoll _ false, .enqueuing id => some (s.setClient client (.sending id), none)
  | .send _, .sending id =>
    if s.jobs.length < config.maximumQueuedReads then
      some ({ s with jobs := s.jobs ++ [id] }.setClient client (.polling id), none)
    else none
  | .sendTimeout _, .sending id => some (s.setClient client (.enqueuing id), none)
  | .withdraw _, .abandoning id =>
    let cache := s.cache.withdraw id (requiredOf partitions id) (stagingOf partitions id)
    some ({ s with cache := cache }.setClient client .idle, some ⟨client, .ok none⟩)
  | _, _ => none

/-- One step of a worker. -/
def workerStep (s : CacheSystem D) (worker : ℕ) (action : CacheAction) :
    Option (CacheSystem D × Option (AcquireReturn D)) :=
  if worker < config.ioWorkerCount then
    match action, s.workers worker with
    | .receive _, .idle =>
      match s.jobs with
      | [] => none
      | id :: rest => some ({ s with jobs := rest }.setWorker worker (.taken id), none)
    | .beginLoad _, .taken id =>
      some ({ s with cache := s.cache.beginLoad }.setWorker worker (.reading id), none)
    | .finishLoad _ failure, .reading id =>
      partitions[id]?.map fun p => (finishStep decode s worker id p failure, none)
    | _, _ => none
  else none

/-- Who an action belongs to. -/
def CacheAction.dispatch (s : CacheSystem D) (action : CacheAction) :
    Option (CacheSystem D × Option (AcquireReturn D)) :=
  match action with
  | .start client _ | .poll client _ | .lock client | .enqueuePoll client _ | .send client
  | .sendTimeout client | .withdraw client => clientStep config partitions s client action
  | .receive worker | .beginLoad worker | .finishLoad worker _ =>
    workerStep config partitions decode s worker action
  | .dropLease client index =>
    match s.leases[index]? with
    | some lease =>
      if lease.client = client then some ({ s with leases := s.leases.eraseIdx index }, none)
      else none
    | none => none

end System

/-- The cache of a bundle as a machine. -/
def hostCache (config : HostCacheConfig) (table : PartitionTable) (decode : ℕ → D) :
    Machine (CacheSystem D) CacheAction (Option (AcquireReturn D)) where
  step s action := action.dispatch config table.partitions decode s

end PathHydra
