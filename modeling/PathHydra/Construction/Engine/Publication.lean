import PathHydra.Construction.Store.Catalog
import PathHydra.Construction.Bundle.Cache

/-!
# Publication of routing images

The engine keeps one published routing image, compiled into a bundle directory under the
routing-image root and named by a durable pointer in the catalog.  `publication` is the machine of
everything that changes them: confirmed mutations and rebuilds under the routing write lock, route
leases, the retirement manager, shutdown, and startup after a crash.  An action is one durable step
or one critical section; the environment chooses what fails.

* The catalog is the one of the store.  A bundle directory is complete or not; a complete one holds
  the confirmed graph it was compiled from, and reads back as written.  What publication reads of a
  compiled bundle besides, its size and the checksum of its manifest, are functions of that graph.
* The handles to a bundle are those of the published image, of the leases of routes, of the jobs of
  the CUDA worker, and of the writer that holds the lock; `handles` counts them.
* A deletion of a retired directory that is not performed leaves it in place.

Texts of failures, durations and the counters of waits are left out, and so is the lifecycle: a
writer begins only while the engine is not shut down, and shutdown stops the image between
writers.
-/

namespace PathHydra

/-! ## Names of child directories -/

/-- `starts_with`. -/
def startsWith (pre name : String) : Bool := pre.toList.isPrefixOf name.toList

def temporaryName (process sequence : ℕ) : String :=
  ".tmp-" ++ toString process ++ "-" ++ toString sequence

def bundleName (checksum : Digest) (process suffix : ℕ) : String :=
  "bundle-" ++ bytesId checksum.bytes ++ "-" ++ toString process ++ "-" ++
    toString suffix

/-! ## The state -/

/-- What publication reads of the configuration and of a compiled bundle. -/
structure PublicationConfig where
  maximumRetiredBundleCount : ℕ
  maximumRetiredBundleBytes : ℕ
  requireValidBundle : Bool
  totalBytes : ConfirmedGraphRecords → ℕ
  manifestChecksum : ConfirmedGraphRecords → Digest

/-- A child of the routing-image root, with the graph its files hold once they are complete. -/
structure ChildDirectory where
  name : String
  content : Option ConfirmedGraphRecords
  deriving DecidableEq

/-- A shared handle to an opened bundle. -/
structure BundleHandle where
  root : String
  graph : ConfirmedGraphRecords
  deriving DecidableEq

/-- `PublishedExecutionImage`, with the address of its allocation. -/
structure ExecutionImage where
  address : ℕ
  bundle : BundleHandle
  deriving DecidableEq

/-- `RoutingState`. -/
inductive RoutingState
  | available (image : ExecutionImage)
  | unavailable
  | shutDown
  deriving DecidableEq

/-- `RetiredBundle`; its lease is weak and counts no handle. -/
structure RetiredBundle where
  path : String
  bytes : ℕ
  deriving DecidableEq

/-- What takes the routing write lock to publish, and the build of a startup. -/
inductive WriterKind
  | mutation (call : CatalogCall)
  | rebuild
  | startup

/-- Where a writer stands.  The stages of the build are named after what comes next: the temporary
directory, its files, their validation, the rename, the open, the pointer, the topology; then the
leases are counted, the replaced bundle is retired, and the image is swapped. -/
inductive WriterStage
  | awaitCapacity
  | mutate
  | scan
  | createDirectory (sequence : ℕ)
  | writeFiles (sequence : ℕ)
  | validate (sequence : ℕ) (graph : ConfirmedGraphRecords)
  | rename (sequence : ℕ) (graph : ConfirmedGraphRecords)
  | openFinal (name : String)
  | commitPointer (bundle : BundleHandle)
  | selectTopology (bundle : BundleHandle)
  | countLeases (bundle : BundleHandle)
  | retire (bundle : BundleHandle) (current : BundleHandle) (enforceLimits : Bool)
  | swap (bundle : BundleHandle)

/-- The bundles a writer holds. -/
def WriterStage.bundles : WriterStage → List BundleHandle
  | .commitPointer bundle | .selectTopology bundle | .countLeases bundle | .swap bundle => [bundle]
  | .retire bundle current _ => [bundle, current]
  | _ => []

/-- The holder of the routing write lock. -/
structure Writer where
  kind : WriterKind
  stage : WriterStage

/-- Whether the engine is open: it is down, it removes unreferenced children before or after it
finds its first image, it looks for that image, it builds it, or it runs. -/
inductive EnginePhase
  | down
  | cleaning (final : Bool)
  | reopening
  | building
  | running
  deriving DecidableEq

/-- The catalog, the routing-image root, and the engine over them. -/
structure PublicationSystem where
  catalog : Catalog
  disk : List ChildDirectory
  phase : EnginePhase
  process : ℕ
  sequence : ℕ
  routing : RoutingState
  leases : List ExecutionImage
  jobs : List BundleHandle
  retired : List RetiredBundle
  writer : Option Writer
  nextAddress : ℕ

/-- How the environment answers a stage of a build.  A failed choice of the topology clears the
pointer again, when the catalog lets it. -/
inductive BuildAnswer
  | succeeds
  | fails
  | failsClearing (answer : WriteAnswer)

/-- Who moves, and what the environment answers.  The deletions that fail are listed. -/
inductive PublicationAction
  | beginMutation (call : CatalogCall)
  | beginRebuild
  | awaitCapacity (failing : List String)
  | mutate (answer : WriteAnswer)
  | build (answer : BuildAnswer) (suffix : ℕ) (write : WriteAnswer)
  | retire (failing : List String)
  | insert (entries : List CandidateBatchEntry) (answer : WriteAnswer)
  | lease
  | dropLease (index : ℕ)
  | submitJob (index : ℕ)
  | dropJob (index : ℕ)
  | replaceImage
  | reap (failing : List String)
  | shutdown
  | crash
  | openEngine (process sequence : ℕ) (answer : WriteAnswer)
  | cleanChild (name : String) (fails : Bool)
  | cleaned
  | reopen (opens : Bool) (answer : WriteAnswer)

namespace PublicationSystem

variable (config : PublicationConfig)

/-! ## Reading the state -/

/-- The name the durable pointer gives. -/
def pointerName (s : PublicationSystem) : Option String :=
  match readActiveRoutingImage s.catalog.db with
  | .ok pointer => pointer.map ActiveRoutingImage.relativeBundle
  | .error _ => none

/-- The published image. -/
def published (s : PublicationSystem) : Option ExecutionImage :=
  match s.routing with
  | .available image => some image
  | _ => none

/-- The handles that are alive. -/
def handles (s : PublicationSystem) : List BundleHandle :=
  s.published.toList.map ExecutionImage.bundle ++ s.leases.map ExecutionImage.bundle ++ s.jobs ++
    s.writer.toList.flatMap fun w => w.stage.bundles

/-- Whether the weak lease of a retired bundle still has a strong count. -/
def alive (s : PublicationSystem) (path : String) : Bool :=
  s.handles.any fun bundle => decide (bundle.root = path)

/-- `execution_lease_count`: the published image's own handle and the leases of it. -/
def executionLeaseCount (s : PublicationSystem) : ℕ :=
  match s.published with
  | none => 0
  | some image => 1 + s.leases.countP fun lease => decide (lease.address = image.address)

def hasChild (s : PublicationSystem) (name : String) : Bool :=
  s.disk.any fun child => decide (child.name = name)

/-- `open_bundle`: the child is there and complete. -/
def openBundle (s : PublicationSystem) (name : String) : Option BundleHandle :=
  match s.disk.find? fun child => decide (child.name = name) with
  | some ⟨_, some graph⟩ => some ⟨name, graph⟩
  | _ => none

/-! ## The retirement manager -/

/-- The loop of `reap` over the entries: a bundle with a live handle is retained, and so is one
whose deletion fails. -/
def reapLoop (alive : String → Bool) (failing : List String) :
    List RetiredBundle → List ChildDirectory → List RetiredBundle × List ChildDirectory
  | [], disk => ([], disk)
  | entry :: rest, disk =>
    if alive entry.path || failing.contains entry.path then
      let (retained, disk) := reapLoop alive failing rest disk
      (entry :: retained, disk)
    else reapLoop alive failing rest (disk.filter fun child => decide (child.name ≠ entry.path))

/-- `reap`. -/
def reap (s : PublicationSystem) (failing : List String) : PublicationSystem :=
  let (retired, disk) := reapLoop s.alive failing s.retired s.disk
  { s with retired := retired, disk := disk }

/-- The bytes that are tracked. -/
def retiredBytes (retired : List RetiredBundle) : ℕ :=
  retired.foldl (fun total entry => saturatingAdd64 total entry.bytes) 0

/-- Whether another bundle of so many bytes may be tracked. -/
def admits (retired : List RetiredBundle) (bytes : ℕ) : Bool :=
  decide (retired.length < config.maximumRetiredBundleCount) &&
    match checkedAdd64 (retiredBytes retired) bytes with
    | none => false
    | some total => decide (total ≤ config.maximumRetiredBundleBytes)

/-! ## Steps -/

def setStage (s : PublicationSystem) (kind : WriterKind) (stage : WriterStage) :
    PublicationSystem :=
  { s with writer := some ⟨kind, stage⟩ }

/-- What comes after the wait for capacity. -/
def afterAwait : WriterKind → WriterStage
  | .mutation _ => .mutate
  | _ => .scan

/-- One turn of `await_retirement_capacity`. -/
def awaitCapacityStep (s : PublicationSystem) (kind : WriterKind) (failing : List String) :
    PublicationSystem :=
  match s.published with
  | none => s.setStage kind (afterAwait kind)
  | some image =>
    if s.executionLeaseCount > 1 then
      let s := s.reap failing
      if admits config s.retired (config.totalBytes image.bundle.graph) then
        s.setStage kind (afterAwait kind)
      else s
    else s.setStage kind (afterAwait kind)

/-- Whether a call changed the graph, as the engine reads its result. -/
def graphChanged : CallResult → Bool
  | .confirmed result => result.graphChanged
  | _ => true

/-- The durable part of a confirmed mutation. -/
def mutateStep (s : PublicationSystem) (call : CatalogCall) (answer : WriteAnswer) :
    PublicationSystem :=
  match call.run answer s.catalog with
  | .error _ catalog => { s with catalog := catalog, writer := none }
  | .ok result catalog =>
    let s := { s with catalog := catalog }
    if graphChanged result then s.setStage (.mutation call) .scan
    else { s with writer := none }

/-- A build that failed: a mutation makes routing unavailable, a rebuild keeps what is published,
and a startup goes on without an image. -/
def failBuild (s : PublicationSystem) : WriterKind → PublicationSystem
  | .mutation _ => { s with routing := .unavailable, writer := none }
  | .rebuild => { s with writer := none }
  | .startup => { s with routing := .unavailable, writer := none, phase := .cleaning true }

/-- The first free name of a bundle: the environment gives the suffix, and every smaller one from
the sequence on is taken. -/
def freeSuffix (s : PublicationSystem) (checksum : Digest) (sequence suffix : ℕ) : Bool :=
  decide (sequence ≤ suffix) && !s.hasChild (bundleName checksum s.process suffix) &&
    (List.range (suffix - sequence)).all fun k =>
      s.hasChild (bundleName checksum s.process (sequence + k))

/-- The end of a successful build. -/
def publishBuilt (s : PublicationSystem) (kind : WriterKind) (bundle : BundleHandle) :
    PublicationSystem :=
  match kind with
  | .startup =>
    { s with
      routing := .available ⟨s.nextAddress, bundle⟩
      nextAddress := s.nextAddress + 1
      writer := none
      phase := .cleaning true }
  | kind => s.setStage kind (.countLeases bundle)

/-- `clear_active_routing_image`, whose failure is ignored. -/
def clearPointer (s : PublicationSystem) (answer : WriteAnswer) : PublicationSystem :=
  match clearActiveRoutingImage answer s.catalog with
  | .ok _ catalog => { s with catalog := catalog }
  | .error _ catalog => { s with catalog := catalog }

/-- The files of a child are complete. -/
def complete (disk : List ChildDirectory) (name : String) (graph : ConfirmedGraphRecords) :
    List ChildDirectory :=
  disk.map fun child => if child.name = name then { child with content := some graph } else child

/-- `rename`. -/
def renameChild (disk : List ChildDirectory) (name name' : String) : List ChildDirectory :=
  disk.map fun child => if child.name = name then { child with name := name' } else child

/-- One stage of `build_current_bundle`, and of the swap that follows it.  A failure comes before
the effect of the stage. -/
def buildStep (s : PublicationSystem) (kind : WriterKind) (stage : WriterStage)
    (answer : BuildAnswer) (suffix : ℕ) (write : WriteAnswer) : Option PublicationSystem :=
  match stage, answer with
  | .scan, .succeeds =>
    some ({ s with sequence := s.sequence + 1 }.setStage kind (.createDirectory s.sequence))
  | .createDirectory sequence, .succeeds =>
    let name := temporaryName s.process sequence
    if s.hasChild name then some (s.failBuild kind)
    else some ({ s with disk := ⟨name, none⟩ :: s.disk }.setStage kind (.writeFiles sequence))
  | .writeFiles sequence, .succeeds =>
    match confirmedGraphRecords s.catalog.db with
    | .error _ => some (s.failBuild kind)
    | .ok graph =>
      some ({ s with disk := complete s.disk (temporaryName s.process sequence) graph }.setStage
        kind (.validate sequence graph))
  | .validate sequence graph, .succeeds => some (s.setStage kind (.rename sequence graph))
  | .rename sequence graph, .succeeds =>
    let name := bundleName (config.manifestChecksum graph) s.process suffix
    if s.freeSuffix (config.manifestChecksum graph) sequence suffix then
      some ({ s with disk := renameChild s.disk (temporaryName s.process sequence) name }.setStage
        kind (.openFinal name))
    else none
  | .openFinal name, .succeeds =>
    match s.openBundle name with
    | none => some (s.failBuild kind)
    | some bundle => some (s.setStage kind (.commitPointer bundle))
  | .commitPointer bundle, .succeeds =>
    match setActiveRoutingImage write ⟨bundle.root, config.manifestChecksum bundle.graph⟩
        s.catalog with
    | .error _ catalog => some ({ s with catalog := catalog }.failBuild kind)
    | .ok _ catalog => some ({ s with catalog := catalog }.setStage kind (.selectTopology bundle))
  | .selectTopology bundle, .succeeds => some (s.publishBuilt kind bundle)
  | .selectTopology _, .failsClearing answer => some ((s.clearPointer answer).failBuild kind)
  | .countLeases bundle, .succeeds =>
    match s.published with
    | none => some (s.setStage kind (.swap bundle))
    | some image =>
      -- The count includes the clone that `retire_available_state` itself holds.
      if image.bundle.root = bundle.root then some (s.setStage kind (.swap bundle))
      else
        some (s.setStage kind
          (.retire bundle image.bundle (decide (s.executionLeaseCount + 1 > 2))))
  | .swap bundle, .succeeds =>
    some { s with
      routing := .available ⟨s.nextAddress, bundle⟩
      nextAddress := s.nextAddress + 1
      writer := none }
  | .selectTopology _, .fails =>
    -- Only an injected fault stops between the pointer and the topology; a startup has none.
    match kind with
    | .startup => none
    | kind => some (s.failBuild kind)
  | .scan, _ | .createDirectory _, _ | .writeFiles _, _ | .validate _ _, _ | .rename _ _, _
  | .openFinal _, _ | .commitPointer _, _ | .countLeases _, _ => some (s.failBuild kind)
  | _, _ => none

/-- One turn of the loop of `retire`. -/
def retireStep (s : PublicationSystem) (kind : WriterKind) (bundle current : BundleHandle)
    (enforceLimits : Bool) (failing : List String) : PublicationSystem :=
  let s := s.reap failing
  let bytes := config.totalBytes current.graph
  if s.retired.any fun entry => decide (entry.path = current.root) then
    s.setStage kind (.swap bundle)
  else if admits config s.retired bytes || !enforceLimits then
    { s with retired := s.retired ++ [RetiredBundle.mk current.root bytes] }.setStage kind
      (.swap bundle)
  else s

/-- A step of the writer. -/
def writerStep (s : PublicationSystem) (action : PublicationAction) : Option PublicationSystem :=
  match s.writer with
  | none => none
  | some ⟨kind, stage⟩ =>
    match action, stage, kind with
    | .awaitCapacity failing, .awaitCapacity, kind => some (s.awaitCapacityStep config kind failing)
    | .mutate answer, .mutate, .mutation call => some (s.mutateStep call answer)
    | .retire failing, .retire bundle current enforceLimits, kind =>
      some (s.retireStep config kind bundle current enforceLimits failing)
    | .build answer suffix write, stage, kind => s.buildStep config kind stage answer suffix write
    | _, _, _ => none

/-- Whether a call is a confirmed mutation of the engine. -/
def isMutation : CatalogCall → Bool
  | .confirmCandidateBatchWithResponseLimit _ _ | .removeEdge _ | .removeNode _ => true
  | _ => false

/-- Whether a build holds the guard of the catalog. -/
def scanning (s : PublicationSystem) : Bool :=
  match s.writer with
  | none => false
  | some w => match w.stage with
    | .awaitCapacity | .mutate | .scan | .countLeases _ | .retire _ _ _ | .swap _ => false
    | _ => true

/-- A step of a running engine other than its writer's. -/
def runningStep (s : PublicationSystem) : PublicationAction → Option PublicationSystem
  | .beginMutation call =>
    if s.writer.isNone && decide (s.routing ≠ .shutDown) && isMutation call then
      some (s.setStage (.mutation call) .awaitCapacity)
    else none
  | .beginRebuild =>
    if s.writer.isNone && decide (s.routing ≠ .shutDown) then
      some (s.setStage .rebuild .awaitCapacity)
    else none
  | .insert entries answer =>
    if s.scanning then none
    else match insertCandidateBatch answer entries s.catalog with
      | .ok _ catalog | .error _ catalog => some { s with catalog := catalog }
  | .lease =>
    if s.writer.isNone then s.published.map fun image => { s with leases := image :: s.leases }
    else none
  | .dropLease index => some { s with leases := s.leases.eraseIdx index }
  | .submitJob index =>
    (s.leases[index]?).map fun image => { s with jobs := image.bundle :: s.jobs }
  | .dropJob index => some { s with jobs := s.jobs.eraseIdx index }
  | .replaceImage =>
    -- `rebuild_cuda_residency` and `reinitialize_cuda` publish the same topology anew.
    if s.writer.isNone then
      s.published.map fun image => { s with
        routing := .available ⟨s.nextAddress, image.bundle⟩
        nextAddress := s.nextAddress + 1 }
    else none
  | .reap failing => some (s.reap failing)
  | .shutdown => if s.writer.isNone then some { s with routing := .shutDown } else none
  | action => s.writerStep config action

/-! ## Startup -/

/-- `cleanup_startup_children` removes a child of this name. -/
def positivelyIdentified (current : Option String) (name : String) : Bool :=
  startsWith ".tmp-" name || (startsWith "bundle-" name && decide (some name ≠ current))

/-- The process ends: what is not durable is lost. -/
def crashed (s : PublicationSystem) : PublicationSystem :=
  { s with
    phase := .down, routing := .unavailable, leases := [], jobs := [], retired := [],
    writer := none }

/-- The part of `initial_routing_state` before the build. -/
def reopenStep (s : PublicationSystem) (opens : Bool) (answer : WriteAnswer) :
    Option PublicationSystem :=
  let onFound (bundle : BundleHandle) : PublicationSystem :=
    { s with
      routing := .available ⟨s.nextAddress, bundle⟩
      nextAddress := s.nextAddress + 1
      phase := .cleaning true }
  let rebuild (s : PublicationSystem) : PublicationSystem :=
    if config.requireValidBundle then { s with routing := .unavailable, phase := .cleaning true }
    else { s with phase := .building, writer := some ⟨.startup, .scan⟩ }
  let onMissing : PublicationSystem :=
    match clearActiveRoutingImage answer s.catalog with
    | .ok _ catalog => rebuild { s with catalog := catalog }
    | .error _ catalog => { s with catalog := catalog }.crashed
  match readActiveRoutingImage s.catalog.db with
  | .error _ => some onMissing
  | .ok none => some (rebuild s)
  | .ok (some pointer) =>
    match s.openBundle pointer.relativeBundle with
    | some bundle =>
      if opens && decide (config.manifestChecksum bundle.graph = pointer.manifestChecksum) then
        some (onFound bundle)
      else some onMissing
    | none => some onMissing

/-- A step of an engine that is not running. -/
def startupStep (s : PublicationSystem) (action : PublicationAction) : Option PublicationSystem :=
  match s.phase, action with
  | .down, .openEngine process sequence answer =>
    match openCatalog answer s.catalog.db with
    | .error _ => none
    | .ok catalog =>
      match readActiveRoutingImage catalog.db with
      | .error _ => none
      | .ok _ => some { s with
          catalog := catalog, phase := .cleaning false, process := process
          sequence := sequence }
  | .cleaning _, .cleanChild name fails =>
    if s.hasChild name && positivelyIdentified s.pointerName name then
      if fails then some s.crashed
      else some { s with disk := s.disk.filter fun child => decide (child.name ≠ name) }
    else none
  | .cleaning final, .cleaned =>
    if s.disk.any fun child => positivelyIdentified s.pointerName child.name then none
    else if final then some { s with phase := .running } else some { s with phase := .reopening }
  | .reopening, .reopen opens answer => s.reopenStep config opens answer
  | .building, action@(.build _ _ _) => s.writerStep config action
  | _, _ => none

end PublicationSystem

/-- The engine and everything that publishes, leases and retires its routing images. -/
def publication (config : PublicationConfig) :
    Machine PublicationSystem PublicationAction Unit where
  step s action :=
    match action with
    | .crash => some (s.crashed, ())
    | action =>
      match s.phase with
      | .running => (s.runningStep config action).map fun s => (s, ())
      | _ => (s.startupStep config action).map fun s => (s, ())

end PathHydra
