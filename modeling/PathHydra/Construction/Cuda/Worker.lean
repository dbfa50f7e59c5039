import PathHydra.Framework.Machine
import PathHydra.Construction.Cuda.Output

/-!
# The worker of the device

Clients submit routes to one worker thread, which collects those on the same image and algorithm
into a batch, runs every job of the batch on a lane of its own, and joins the lanes before it
collects the next batch.  `cudaWorker` is the machine of the clients, the worker, its lanes and one
call of `shutdown`; an access of an atomic and of a channel is one step.

* A job is meant by the place of its call in the list of calls, which only grows.
* What the worker still has to do for the jobs it rejects is a list of operations, which it works
  off before it goes on.
* The environment answers whether a delay is over, whether memory and threads can be had, and what
  a lane returns.  After its reply a lane drops what it holds and does not panic.
* A counter is a natural number that wraps below zero; fewer than `2 ^ 64` calls are in flight.
* A call of `shutdown` borrows the worker exclusively, and so meets no `submit`.  No use is made of
  this: the two may overlap in the machine.
-/

namespace PathHydra

namespace CudaWorker

/-- `RouteImage`; an image is meant by its allocation. -/
inductive RouteImage
  | resident (allocation : ℕ)
  | partitioned (allocation : ℕ)
  deriving DecidableEq

/-- `ptr_eq`. -/
def RouteImage.ptrEq (image other : RouteImage) : Bool :=
  match image, other with
  | .resident left, .resident right => decide (left = right)
  | .partitioned left, .partitioned right => decide (left = right)
  | _, _ => false

/-- `worker_error`. -/
def workerError (message : String) : CudaError :=
  ⟨.worker, message⟩

/-- What a call of `submit` or `submit_partitioned` does next. -/
inductive SubmitStage (O : Type)
  | loadStopping
  | count
  | send
  | uncount
  | receive
  | returned (result : Except CudaError O)

/-- A call of `submit`, or of `submit_partitioned`. -/
structure SubmitCall (A O : Type) where
  image : RouteImage
  algorithm : A
  stage : SubmitStage O

/-- `Command`. -/
inductive Command
  | route (job : ℕ)
  | shutdown
  deriving DecidableEq

/-- The job of a command. -/
def Command.job? : Command → Option ℕ
  | .route job => some job
  | .shutdown => none

/-- What the worker owes a job that it rejects, or whose lane gave nothing. -/
inductive WorkerOp
  | retract (failed : Bool)
  | answer (job : ℕ) (error : CudaError)

/-- The place of the worker in `worker_loop`. -/
inductive WorkerStage
  | next
  | checkStopping (first : ℕ)
  | reserveFirst (first : ℕ)
  | collect (batch : List ℕ)
  | collected (batch : List ℕ) (job : ℕ)
  | grow (batch : List ℕ) (job : ℕ)
  | lanes (batch : List ℕ)
  | dispatch (rest : List ℕ)
  | spawn (job : ℕ) (rest : List ℕ)
  | join
  | drain (rejected : ℕ)
  | replyShutdown (rejected : ℕ)
  | leave
  | exited
  deriving DecidableEq

/-- The jobs the worker holds there. -/
def WorkerStage.jobs : WorkerStage → List ℕ
  | .checkStopping first | .reserveFirst first => [first]
  | .collect batch | .lanes batch => batch
  | .collected batch job | .grow batch job => batch ++ [job]
  | .dispatch rest => rest
  | .spawn job rest => job :: rest
  | _ => []

/-- What a lane does next. -/
inductive LaneStage
  | start
  | route
  | dropGuard
  | unwind
  | ended (panicked : Bool)
  deriving DecidableEq

/-- What the route on a lane gives. -/
inductive LaneAnswer (O : Type)
  | returns (output : Except CudaError O)
  | panics

/-- `CudaWorkerShutdown`. -/
structure CudaWorkerShutdown where
  queuedAtRequest : ℕ
  activeAtRequest : ℕ
  queuedRoutesRejected : ℕ
  joined : Bool
  deriving DecidableEq

/-- What the call of `shutdown` does next. -/
inductive ShutdownCallStage
  | idle
  | storeStopping
  | loadQueued
  | loadActive (queued : ℕ)
  | send (queued active : ℕ)
  | receive (queued active : ℕ)
  | join (queued active rejected : ℕ)
  | returned (report : CudaWorkerShutdown)
  deriving DecidableEq

end CudaWorker

open CudaWorker

/-- The worker with its clients and lanes; `replies` are the messages in the reply channel of each
job, and `dropped` the jobs that were in the channel when the worker left. -/
structure CudaWorkerSystem (A O : Type) where
  calls : List (SubmitCall A O)
  replies : ℕ → List (Except CudaError O)
  channel : List Command
  deferred : List Command
  dropped : List ℕ
  stopping : Bool
  stage : WorkerStage
  pending : List WorkerOp
  lanes : List ℕ
  lane : ℕ → LaneStage
  queued : ℕ
  active : ℕ
  peakActive : ℕ
  batches : ℕ
  failures : ℕ
  shutdown : ShutdownCallStage
  shutdownReply : Option ℕ

namespace CudaWorker

/-- Who moves, and what the environment answers. -/
inductive WorkerAction (A O : Type)
  | submit (image : RouteImage) (algorithm : A)
  | call (job : ℕ)
  | worker (answer : Bool)
  | lane (job : ℕ) (answer : LaneAnswer O)
  | callShutdown
  | shutdown

/-- What a step shows: a batch is dispatched, a lane runs the route of a job. -/
inductive WorkerEvent (A : Type)
  | batch (jobs : List ℕ)
  | ran (job : ℕ) (image : RouteImage) (algorithm : A)
  | silent

/-- `fetch_sub(1)`. -/
def fetchSub (counter : ℕ) : ℕ :=
  if counter = 0 then 2 ^ 64 - 1 else counter - 1

/-- `reject_queued`. -/
def rejectQueued (job : ℕ) (message : String) : List WorkerOp :=
  [.retract false, .answer job (workerError message)]

/-- `reject_queued_with_error`. -/
def rejectQueuedWithError (job : ℕ) (error : CudaError) : List WorkerOp :=
  [.retract true, .answer job error]

end CudaWorker

namespace CudaWorkerSystem

variable {A O : Type} [DecidableEq A]

/-- `start`. -/
def start (maximumBatchLanes : ℕ) : Except CudaError (CudaWorkerSystem A O) :=
  if maximumBatchLanes = 0 then
    .error ⟨.admission, "maximum CUDA batch lanes must be nonzero"⟩
  else .ok
    { calls := [], replies := fun _ => [], channel := [], deferred := [], dropped := []
      stopping := false, stage := .next, pending := [], lanes := [], lane := fun _ => .start
      queued := 0, active := 0, peakActive := 0, batches := 0, failures := 0
      shutdown := .idle, shutdownReply := none }

variable (s : CudaWorkerSystem A O)

/-! ## The clients -/

/-- A sender of the reply channel of the job is alive. -/
def holds (job : ℕ) : Bool :=
  decide (job ∈ s.channel.filterMap Command.job?) ||
    decide (job ∈ s.deferred.filterMap Command.job?) || decide (job ∈ s.stage.jobs) ||
    (s.pending.any fun op => match op with
      | .answer job' _ => decide (job' = job)
      | .retract _ => false) ||
    decide (job ∈ s.lanes)

def setCall (job : ℕ) (call : SubmitCall A O) (stage : SubmitStage O) : CudaWorkerSystem A O :=
  { s with calls := s.calls.set job { call with stage := stage } }

/-- One step of a call of `submit`. -/
def callStep (job : ℕ) : Option (CudaWorkerSystem A O × WorkerEvent A) :=
  match s.calls[job]? with
  | none => none
  | some call =>
    match call.stage with
    | .loadStopping =>
      some (s.setCall job call (if s.stopping then
        .returned (.error (workerError "CUDA worker is shutting down")) else .count), .silent)
    | .count => some ({ s with queued := s.queued + 1 }.setCall job call .send, .silent)
    | .send =>
      if s.stage = .exited then some (s.setCall job call .uncount, .silent)
      else some ({ s with channel := s.channel ++ [Command.route job] }.setCall job call .receive,
        .silent)
    | .uncount =>
      some ({ s with queued := fetchSub s.queued }.setCall job call
        (.returned (.error (workerError "CUDA worker channel is closed"))), .silent)
    | .receive =>
      match s.replies job with
      | reply :: rest =>
        some ({ s with replies := Function.update s.replies job rest }.setCall job call
          (.returned reply), .silent)
      | [] =>
        if s.holds job then none
        else some (s.setCall job call (.returned
          (.error (workerError "CUDA worker stopped before returning a route"))), .silent)
    | .returned _ => none

/-! ## The worker -/

/-- The reply channel of the job gets a message. -/
def reply (job : ℕ) (message : Except CudaError O) : CudaWorkerSystem A O :=
  { s with replies := Function.update s.replies job (s.replies job ++ [message]) }

/-- The image and the algorithm of a job. -/
def key (job : ℕ) : Option (RouteImage × A) :=
  (s.calls[job]?).map fun call => (call.image, call.algorithm)

/-- The job is on the image and the algorithm of the first job of the batch. -/
def sharesBatch (batch : List ℕ) (job : ℕ) : Bool :=
  match batch with
  | [] => false
  | first :: _ =>
    match s.key job, s.key first with
    | some (image, algorithm), some (image', algorithm') =>
      image.ptrEq image' && decide (algorithm = algorithm')
    | _, _ => false

/-- One step of `worker_loop`, with nothing pending. -/
def loopStep (maximumBatchLanes : ℕ) (answer : Bool) :
    Option (CudaWorkerSystem A O × WorkerEvent A) :=
  match s.stage with
  | .next =>
    match s.deferred, s.channel with
    | .route job :: rest, _ => some ({ s with deferred := rest, stage := .checkStopping job }, .silent)
    | .shutdown :: rest, _ =>
      let jobs := rest.filterMap Command.job?
      some ({ s with
        deferred := []
        pending := jobs.flatMap fun job => rejectQueued job
          "CUDA worker shut down before admitting the deferred route"
        stage := .drain jobs.length }, .silent)
    | [], .route job :: rest => some ({ s with channel := rest, stage := .checkStopping job }, .silent)
    | [], .shutdown :: rest => some ({ s with channel := rest, stage := .drain 0 }, .silent)
    | [], [] => none
  | .checkStopping first =>
    if s.stopping then
      some ({ s with
        pending := rejectQueued first "CUDA worker rejected a route during shutdown"
        stage := .next }, .silent)
    else some ({ s with stage := .reserveFirst first }, .silent)
  | .reserveFirst first =>
    if answer then some ({ s with stage := .collect [first] }, .silent)
    else
      some ({ s with
        pending := rejectQueuedWithError first
          ⟨.allocation, "the CUDA worker could not allocate its batch queue"⟩
        stage := .next }, .silent)
  | .collect batch =>
    -- The batch is full, or the delay is over.
    if maximumBatchLanes ≤ batch.length ∨ answer = false then
      some ({ s with stage := .lanes batch }, .silent)
    else
      match s.channel with
      | .route job :: rest =>
        some ({ s with channel := rest, stage := .collected batch job }, .silent)
      | .shutdown :: rest =>
        some ({ s with channel := rest, deferred := s.deferred ++ [.shutdown] }, .silent)
      | [] => none
  | .collected batch job =>
    if s.stopping then
      some ({ s with
        pending := rejectQueued job "CUDA worker rejected a collected route during shutdown"
        stage := .collect batch }, .silent)
    else if s.sharesBatch batch job then some ({ s with stage := .grow batch job }, .silent)
    else
      some ({ s with deferred := s.deferred ++ [.route job], stage := .collect batch }, .silent)
  | .grow batch job =>
    if answer then some ({ s with stage := .collect (batch ++ [job]) }, .silent)
    else
      some ({ s with
        pending := rejectQueuedWithError job
          ⟨.allocation, "the CUDA worker could not grow its batch queue"⟩
        stage := .lanes batch }, .silent)
  | .lanes batch =>
    if answer then
      -- No lane runs, so that nobody else writes these counters.
      some ({ s with
        batches := s.batches + 1
        active := batch.length
        peakActive := max s.peakActive batch.length
        stage := .dispatch batch }, .batch batch)
    else
      some ({ s with
        pending := batch.flatMap fun job => rejectQueuedWithError job
          ⟨.allocation, "the CUDA worker could not allocate its lane-join queue"⟩
        stage := .next }, .silent)
  | .dispatch [] => some ({ s with stage := .join }, .silent)
  | .dispatch (job :: rest) =>
    some ({ s with queued := fetchSub s.queued, stage := .spawn job rest }, .silent)
  | .spawn job rest =>
    if answer then
      some ({ s with lanes := s.lanes ++ [job], stage := .dispatch rest }, .silent)
    else
      some ({ s with
        active := fetchSub s.active
        failures := s.failures + 1
        pending := [.answer job (workerError "a CUDA batch lane thread could not be created")]
        stage := .dispatch rest }, .silent)
  | .join =>
    match s.lanes with
    | [] => some ({ s with stage := .next }, .silent)
    | job :: rest =>
      match s.lane job with
      | .ended false => some ({ s with lanes := rest }, .silent)
      | .ended true =>
        some ({ s with
          lanes := rest
          failures := s.failures + 1
          pending :=
            [.answer job (workerError "a CUDA batch lane panicked before returning a route")] },
          .silent)
      | _ => none
  | .drain rejected =>
    match s.channel with
    | .route job :: rest =>
      some ({ s with
        channel := rest
        pending := rejectQueued job "CUDA worker shut down before admitting the queued route"
        stage := .drain (rejected + 1) }, .silent)
    | .shutdown :: rest => some ({ s with channel := rest }, .silent)
    | [] => some ({ s with stage := .replyShutdown rejected }, .silent)
  | .replyShutdown rejected =>
    some ({ s with shutdownReply := some rejected, stage := .leave }, .silent)
  | .leave =>
    -- The receiver is dropped with what is still in the channel.
    some ({ s with
      dropped := s.channel.filterMap Command.job?
      channel := []
      stage := .exited }, .silent)
  | .exited => none

/-- One step of the worker. -/
def workerStep (maximumBatchLanes : ℕ) (answer : Bool) :
    Option (CudaWorkerSystem A O × WorkerEvent A) :=
  match s.pending with
  | .retract failed :: rest =>
    some ({ s with
      queued := fetchSub s.queued
      failures := if failed then s.failures + 1 else s.failures
      pending := rest }, .silent)
  | .answer job error :: rest => some ({ s with pending := rest }.reply job (.error error), .silent)
  | [] => s.loopStep maximumBatchLanes answer

/-! ## The lanes -/

def setLane (job : ℕ) (stage : LaneStage) : CudaWorkerSystem A O :=
  { s with lane := Function.update s.lane job stage }

/-- One step of the lane of a job. -/
def laneStep (job : ℕ) (answer : LaneAnswer O) : Option (CudaWorkerSystem A O × WorkerEvent A) :=
  if job ∈ s.lanes then
    match s.lane job with
    | .start =>
      (s.key job).map fun (image, algorithm) =>
        (s.setLane job .route, .ran job image algorithm)
    | .route =>
      match answer with
      | .returns (.ok output) => some ((s.reply job (.ok output)).setLane job .dropGuard, .silent)
      | .returns (.error error) =>
        some (({ s with failures := s.failures + 1 }.reply job (.error error)).setLane job
          .dropGuard, .silent)
      | .panics => some (s.setLane job .unwind, .silent)
    | .dropGuard => some ({ s with active := fetchSub s.active }.setLane job (.ended false), .silent)
    | .unwind => some ({ s with active := fetchSub s.active }.setLane job (.ended true), .silent)
    | .ended _ => none
  else none

/-! ## Shutdown -/

/-- The sender with which the worker answers `shutdown` is alive. -/
def holdsShutdown : Bool :=
  decide (.shutdown ∈ s.channel) || decide (.shutdown ∈ s.deferred) ||
    match s.stage with
    | .drain _ | .replyShutdown _ => true
    | _ => false

/-- One step of the call of `shutdown`. -/
def shutdownStep : Option (CudaWorkerSystem A O × WorkerEvent A) :=
  match s.shutdown with
  | .idle | .returned _ => none
  | .storeStopping => some ({ s with stopping := true, shutdown := .loadQueued }, .silent)
  | .loadQueued => some ({ s with shutdown := .loadActive s.queued }, .silent)
  | .loadActive queued => some ({ s with shutdown := .send queued s.active }, .silent)
  | .send queued active =>
    if s.stage = .exited then some ({ s with shutdown := .join queued active 0 }, .silent)
    else
      some ({ s with
        channel := s.channel ++ [.shutdown]
        shutdown := .receive queued active }, .silent)
  | .receive queued active =>
    match s.shutdownReply with
    | some rejected =>
      some ({ s with
        shutdownReply := none
        shutdown := .join queued active rejected }, .silent)
    | none =>
      if s.holdsShutdown then none
      else some ({ s with shutdown := .join queued active 0 }, .silent)
  | .join queued active rejected =>
    if s.stage = .exited then
      some ({ s with shutdown := .returned ⟨queued, active, rejected, true⟩ }, .silent)
    else none

end CudaWorkerSystem

/-- The worker, its clients and its lanes. -/
def cudaWorker (A O : Type) [DecidableEq A] (maximumBatchLanes : ℕ) :
    Machine (CudaWorkerSystem A O) (WorkerAction A O) (WorkerEvent A) where
  step s
    | .submit image algorithm =>
      some ({ s with calls := s.calls ++ [⟨image, algorithm, .loadStopping⟩] }, .silent)
    | .call job => s.callStep job
    | .worker answer => s.workerStep maximumBatchLanes answer
    | .lane job answer => s.laneStep job answer
    | .callShutdown =>
      match s.shutdown with
      | .idle => some ({ s with shutdown := .storeStopping }, .silent)
      | _ => none
    | .shutdown => s.shutdownStep

end PathHydra
