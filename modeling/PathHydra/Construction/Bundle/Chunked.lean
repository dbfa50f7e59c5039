import PathHydra.Construction.Bundle.Cache
import PathHydra.Construction.Bundle.Reader
import PathHydra.Construction.Routing.Cpu

/-!
# Routing over a partitioned image

`ChunkedRoutingImage` as a topology: `edge_at` finds the partition of an adjacency index, acquires
it from the host cache and reads the edge there.  `LoneCache` is the cache of an image that one
route uses at a time.  Its client runs the loop of `acquire` alone: it holds no handle when it
calls, and drops the one it gets when `edge_at` returns.

* The queue of the workers is empty when the client sends its job, so the send does not time out.
* `waits` says how many turns the client waits for a read, by the address the data gets.  A read
  that its client gave up on is finished before the next call.
* A client told to wait while nothing is being read would wait for ever.
-/

namespace PathHydra

variable {D : Type}

/-- The cache and the next address of an allocation. -/
structure LoneCache (D : Type) where
  cache : CacheState D
  nextAddress : ℕ

/-- A new cache. -/
def LoneCache.new : LoneCache D := { cache := CacheState.new, nextAddress := 0 }

/-- The world after a critical section. -/
def World.setCache (w : World (LoneCache D)) (cache : CacheState D) : World (LoneCache D) :=
  { w with store := { w.store with cache := cache } }

section Acquire

variable (config : HostCacheConfig) (partitions : List PartitionDescriptor)
  (read : PartitionDescriptor → Except LoadFailure D) (waits : ℕ → ℕ) (signal : CancellationSignal)
  (id : ℕ)

/-- One turn of the loop under the lock; no handle is held. -/
def LoneCache.turn (s : LoneCache D) : AcquireStep D × CacheState D :=
  acquireLocked config partitions (fun _ => 0) id (requiredOf partitions id) s.cache

/-- The turns of a client that waits for its partition: whether it gave up. -/
def awaitLoad : ℕ → World (LoneCache D) → Bool × World (LoneCache D)
  | 0, w => (false, w)
  | n + 1, w =>
    match w.isCancelled signal with
    | (true, w) => (true, w)
    | (false, w) => awaitLoad n (w.setCache (w.store.turn config partitions id).2)

/-- `load`. -/
def LoneCache.load (s : LoneCache D) : LoneCache D :=
  match partitions[id]? with
  | none => s
  | some p =>
    let loaded := (read p).map fun data => (⟨data, s.nextAddress⟩ : Arc D)
    { cache := s.cache.beginLoad.finishLoad p id loaded, nextAddress := s.nextAddress + 1 }

/-- The loop of `acquire`; after its own read a client finds its partition. -/
def acquireLoop : ℕ → World (LoneCache D) →
    Except RoutingError (Option (Arc D)) × World (LoneCache D)
  | 0, w => (.error .noReturn, w)
  | fuel + 1, w =>
    match w.isCancelled signal with
    | (true, w) => (.ok none, w)
    | (false, w) =>
      match w.store.turn config partitions id with
      | (.hit data, cache) => (.ok (some data), w.setCache cache)
      | (.wait, cache) => (.error .noReturn, w.setCache cache)
      | (.fail e, cache) => (.error e, w.setCache cache)
      | (.admitted, cache) =>
        match (w.setCache cache).isCancelled signal with
        | (true, w) => (.ok none, w.setCache
            (w.store.cache.withdraw id (requiredOf partitions id) (stagingOf partitions id)))
        | (false, w) =>
          match awaitLoad config partitions signal id (waits w.store.nextAddress) w with
          | (true, w) => (.ok none, { w with store := w.store.load partitions read id })
          | (false, w) => acquireLoop fuel { w with store := w.store.load partitions read id }

/-- `acquire`. -/
def acquire (w : World (LoneCache D)) :
    Except RoutingError (Option (Arc D)) × World (LoneCache D) :=
  match admission config partitions id with
  | .error e => (.error e, w)
  | .ok _ => acquireLoop config partitions read waits signal id 2 w

end Acquire

/-- The text of an error of a bundle. -/
def BundleError.text : BundleError → String
  | .io reason => s!"routing bundle I/O failure: {reason}"
  | .invalid reason => s!"invalid routing bundle: {reason}"
  | .limit resource required maximum =>
    s!"routing bundle {resource} requires {required} bytes; limit is {maximum}"
  | .noReturn => ""

/-- What the cache sees of a failed `load_partition`. -/
def BundleError.loadFailure (e : BundleError) : LoadFailure where
  text := e.text
  unexpectedEof := decide (e = .io "failed to fill whole buffer")

/-- A `ChunkedRoutingImage`: the bundle in its files, the configuration of the cache, and how long
reads take. -/
structure ChunkedRoutingImage where
  checksum : Bytes → Digest
  dir : BundleDirectory
  bundle : RoutingBundle
  config : HostCacheConfig
  waits : ℕ → ℕ

namespace ChunkedRoutingImage

variable (image : ChunkedRoutingImage)

/-- `load_partition`, as `load` reads it. -/
def read (p : PartitionDescriptor) : Except LoadFailure DecodedPartition :=
  (image.bundle.loadPartition image.checksum image.dir p).mapError BundleError.loadFailure

/-- `edge_at`. -/
def edgeAt (signal : CancellationSignal) (index : ℕ) (w : World (LoneCache DecodedPartition)) :
    Except RoutingError (Option OutgoingEdge) × World (LoneCache DecodedPartition) :=
  let (partition, i) := image.bundle.locate index
  match acquire image.config image.bundle.manifest.partitions image.read image.waits signal
      partition w with
  | (.error e, w) => (.error e, w)
  | (.ok none, w) => (.ok none, w)
  | (.ok (some data), w) => ((image.bundle.edgeOf data.value i).map some, w)

/-- `RoutingTopology for ChunkedRoutingImage`. -/
def topology : RoutingTopology (LoneCache DecodedPartition) where
  nodeCount := image.bundle.nodes.length
  relationKindCount := image.bundle.relations.length
  adjacencyCount := image.bundle.manifest.adjacencyCount.val
  denseNodeId id := (binarySearch image.bundle.nodes id).map DenseNodeId.ofNat
  externalNodeId id := image.bundle.nodes[id.asUsize]?
  relationIds := image.bundle.relations
  outgoingRange source := okOr .noReturn (image.bundle.outgoingRange source)
  edgeAt := image.edgeAt

/-- `route_partitioned_controlled`: the answer, and the cache it leaves. -/
def routePartitionedControlled {F : Type} [Binary64 F] (request : RoutingRequest)
    (signal : CancellationSignal) (s : LoneCache DecodedPartition) :
    Except RoutingError (RoutingResponse F × CpuSearchDiagnostics) ×
      LoneCache DecodedPartition :=
  let (answer, w) := routeTopologyControlled image.topology request signal ⟨0, s⟩
  (answer, w.store)

/-- The cache after some routes, one after another. -/
def cacheAfter (F : Type) [Binary64 F] (requests : List RoutingRequest) :
    LoneCache DecodedPartition :=
  requests.foldl (fun s request =>
    (image.routePartitionedControlled (F := F) request neverCancelled s).2) LoneCache.new

end ChunkedRoutingImage

end PathHydra
