import PathHydra.Construction.Cuda.Worker
import Mathlib.Data.List.Nodup

/-!
# What the worker owes

A job whose call waits is in one place: in a queue, with the worker, on a lane that has not replied,
answered, or dropped with the channel.  `Ledger` says so of a state by counting, and `Counters`
reads the two counters off the same places.  A step of the worker is one of few effects on the
places (`Effect`), most of them a move that keeps every count.
-/

namespace PathHydra

open CudaWorker

namespace CudaWorker

/-! ## Jobs of queues and operations -/

/-- The jobs of a queue of commands. -/
def commandJobs (commands : List Command) : List ℕ :=
  commands.filterMap Command.job?

section Commands

variable (job : ℕ) (commands commands' : List Command)

lemma filterMap_job? : commands.filterMap Command.job? = commandJobs commands := rfl

@[simp] lemma commandJobs_nil : commandJobs [] = [] := rfl

@[simp] lemma commandJobs_route :
    commandJobs (.route job :: commands) = job :: commandJobs commands := rfl

@[simp] lemma commandJobs_shutdown :
    commandJobs (.shutdown :: commands) = commandJobs commands := rfl

@[simp] lemma commandJobs_append :
    commandJobs (commands ++ commands') = commandJobs commands ++ commandJobs commands' :=
  List.filterMap_append

end Commands

/-- The jobs that operations answer. -/
def opJobs : List WorkerOp → List ℕ
  | [] => []
  | .answer job _ :: rest => job :: opJobs rest
  | .retract _ :: rest => opJobs rest

/-- How many operations take a job off the counter of queued ones. -/
def retracts : List WorkerOp → ℕ
  | [] => 0
  | .answer _ _ :: rest => retracts rest
  | .retract _ :: rest => retracts rest + 1

section Ops

variable (job : ℕ) (jobs : List ℕ) (message : String) (error : CudaError) (failed : Bool)
  (rest : List WorkerOp)

@[simp] lemma opJobs_nil : opJobs [] = [] := rfl

@[simp] lemma opJobs_answer : opJobs (.answer job error :: rest) = job :: opJobs rest := rfl

@[simp] lemma opJobs_retract : opJobs (.retract failed :: rest) = opJobs rest := rfl

@[simp] lemma retracts_nil : retracts [] = 0 := rfl

@[simp] lemma retracts_answer : retracts (.answer job error :: rest) = retracts rest := rfl

@[simp] lemma retracts_retract : retracts (.retract failed :: rest) = retracts rest + 1 := rfl

@[simp] lemma opJobs_rejectQueued : opJobs (rejectQueued job message) = [job] := rfl

@[simp] lemma retracts_rejectQueued : retracts (rejectQueued job message) = 1 := rfl

@[simp] lemma opJobs_rejectQueuedWithError :
    opJobs (rejectQueuedWithError job error) = [job] := rfl

@[simp] lemma retracts_rejectQueuedWithError :
    retracts (rejectQueuedWithError job error) = 1 := rfl

/-- Rejecting jobs one after another answers and retracts each. -/
@[simp] lemma opJobs_rejectAll :
    opJobs (jobs.flatMap fun job => rejectQueued job message) = jobs := by
  induction jobs with
  | nil => rfl
  | cons job rest ih =>
    show job :: opJobs (rest.flatMap fun job => rejectQueued job message) = job :: rest
    rw [ih]

@[simp] lemma retracts_rejectAll :
    retracts (jobs.flatMap fun job => rejectQueued job message) = jobs.length := by
  induction jobs with
  | nil => rfl
  | cons job rest ih =>
    show retracts (rest.flatMap fun job => rejectQueued job message) + 1 = _
    rw [ih, List.length_cons]

@[simp] lemma opJobs_rejectAllWithError :
    opJobs (jobs.flatMap fun job => rejectQueuedWithError job error) = jobs := by
  induction jobs with
  | nil => rfl
  | cons job rest ih =>
    show job :: opJobs (rest.flatMap fun job => rejectQueuedWithError job error) = job :: rest
    rw [ih]

@[simp] lemma retracts_rejectAllWithError :
    retracts (jobs.flatMap fun job => rejectQueuedWithError job error) = jobs.length := by
  induction jobs with
  | nil => rfl
  | cons job rest ih =>
    show retracts (rest.flatMap fun job => rejectQueuedWithError job error) + 1 = _
    rw [ih, List.length_cons]

end Ops

/-! ## Stages -/

/-- The call waits for its reply. -/
def SubmitStage.receives {O : Type} : SubmitStage O → Bool
  | .receive => true
  | _ => false

/-- The call has counted its job and not sent it. -/
def SubmitStage.counted {O : Type} : SubmitStage O → Bool
  | .send | .uncount => true
  | _ => false

/-- The call may still send its job. -/
def SubmitStage.unsent {O : Type} : SubmitStage O → Bool
  | .loadStopping | .count | .send => true
  | _ => false

attribute [simp] WorkerStage.jobs

/-- The number of jobs the worker holds that still count as queued. -/
@[simp] def WorkerStage.undispatched : WorkerStage → ℕ
  | .spawn _ rest => rest.length
  | stage => stage.jobs.length

/-- The number of jobs that count as active and have no lane yet. -/
@[simp] def WorkerStage.unspawned : WorkerStage → ℕ
  | .dispatch rest => rest.length
  | .spawn _ rest => rest.length + 1
  | _ => 0

/-- Lanes may be running. -/
@[simp] def WorkerStage.batching : WorkerStage → Bool
  | .dispatch _ | .spawn _ _ | .join => true
  | _ => false

/-- The lane has not replied. -/
def LaneStage.owes : LaneStage → Bool
  | .start | .route | .unwind | .ended true => true
  | .dropGuard | .ended false => false

/-- The guard of the lane is alive. -/
def LaneStage.guards : LaneStage → Bool
  | .ended _ => false
  | _ => true

lemma fetchSub_succ (n : ℕ) : fetchSub (n + 1) = n := by
  simp [fetchSub]

lemma fetchSub_eq {n m : ℕ} (h : n = m + 1) : fetchSub n = m := by
  rw [h, fetchSub_succ]

end CudaWorker

namespace CudaWorkerSystem

variable {A O : Type} {s s' : CudaWorkerSystem A O} {o : WorkerEvent A} {job : ℕ}

/-! ## The places of a job -/

def receives (s : CudaWorkerSystem A O) (job : ℕ) : Bool :=
  (s.calls[job]?).any fun call => call.stage.receives

/-- No call has sent the job, and one may still. -/
def unsent (s : CudaWorkerSystem A O) (job : ℕ) : Bool :=
  (s.calls[job]?).all fun call => call.stage.unsent

/-- How often the job waits for its lane. -/
def before (s : CudaWorkerSystem A O) (job : ℕ) : ℕ :=
  (commandJobs s.channel).count job + (commandJobs s.deferred).count job + s.stage.jobs.count job

/-- How often the worker has the job to answer, a lane not counted. -/
def owed (s : CudaWorkerSystem A O) (job : ℕ) : ℕ :=
  s.before job + (opJobs s.pending).count job

/-- How often the job is on a lane that has not replied. -/
def lanesOwe (s : CudaWorkerSystem A O) (job : ℕ) : ℕ :=
  if (s.lane job).owes then s.lanes.count job else 0

/-- The number of jobs that were sent, and that the worker has neither dispatched nor rejected. -/
def undispatched (s : CudaWorkerSystem A O) : ℕ :=
  (commandJobs s.channel).length + (commandJobs s.deferred).length + s.stage.undispatched +
    retracts s.pending

/-- The number of lanes that are alive. -/
def guards (s : CudaWorkerSystem A O) : ℕ :=
  s.lanes.countP fun job => (s.lane job).guards

/-- A job whose call waits is in one place, and any other in none. -/
structure Ledger (s : CudaWorkerSystem A O) : Prop where
  receiving : ∀ job, s.receives job = true →
    s.owed job + s.lanesOwe job + (s.replies job).length + s.dropped.count job = 1
  others : ∀ job, s.receives job = false →
    s.owed job + s.lanesOwe job + (s.replies job).length = 0
  unsent : ∀ job, s.unsent job = true → s.dropped.count job = 0

/-- The counters are those of the places. -/
structure Counters (s : CudaWorkerSystem A O) : Prop where
  queued : s.queued =
    s.calls.countP (fun call => call.stage.counted) + s.undispatched + s.dropped.length
  active : s.active = s.stage.unspawned + s.guards

/-- Lanes run in a batch only, one for a job, and a job whose lane has begun waits nowhere. -/
structure LanesOnce (s : CudaWorkerSystem A O) : Prop where
  nodup : s.lanes.Nodup
  idle : s.stage.batching = false → s.lanes = []
  begun : ∀ job, s.lane job ≠ .start → s.before job = 0 ∧ s.unsent job = false
  dropped : s.stage ≠ .exited → s.dropped = []

/-! ## What a step does -/

/-- Jobs are passed on between the queues and the worker, and nothing else changes. -/
structure Moves (s s' : CudaWorkerSystem A O) : Prop where
  calls : s'.calls = s.calls
  replies : s'.replies = s.replies
  dropped : s'.dropped = s.dropped
  lanes : s'.lanes = s.lanes
  lane : s'.lane = s.lane
  queued : s'.queued = s.queued
  active : s'.active = s.active
  owed : ∀ job, s'.owed job = s.owed job
  before : ∀ job, s'.before job ≤ s.before job
  undispatched : s'.undispatched = s.undispatched
  unspawned : s'.stage.unspawned = s.stage.unspawned
  idle : s'.stage.batching = false → s.stage.batching = false ∨ s.lanes = []
  exited : s'.stage = .exited ↔ s.stage = .exited

/-- What a step of the machine can do. -/
inductive Effect (s : CudaWorkerSystem A O) : CudaWorkerSystem A O → WorkerEvent A → Prop
  | submit (image : RouteImage) (algorithm : A) :
    Effect s { s with calls := s.calls ++ [⟨image, algorithm, .loadStopping⟩] } .silent
  | step {job : ℕ} {call : SubmitCall A O} {stage : SubmitStage O}
    (hcall : s.calls[job]? = some call) (hopen : ∀ result, call.stage ≠ .returned result)
    (hreceives : call.stage.receives = false)
    (hreceives' : stage.receives = false) (hcounted : stage.counted = call.stage.counted)
    (hunsent : stage.unsent = true → call.stage.unsent = true) :
    Effect s (s.setCall job call stage) .silent
  | count {job : ℕ} {call : SubmitCall A O} (hcall : s.calls[job]? = some call)
    (hstage : call.stage = .count) :
    Effect s ({ s with queued := s.queued + 1 }.setCall job call .send) .silent
  | send {job : ℕ} {call : SubmitCall A O} (hcall : s.calls[job]? = some call)
    (hstage : call.stage = .send) (hexited : s.stage ≠ .exited) :
    Effect s ({ s with channel := s.channel ++ [Command.route job] }.setCall job call .receive)
      .silent
  | uncount {job : ℕ} {call : SubmitCall A O} {result : Except CudaError O}
    (hcall : s.calls[job]? = some call) (hstage : call.stage = .uncount) :
    Effect s ({ s with queued := fetchSub s.queued }.setCall job call (.returned result)) .silent
  | receive {job : ℕ} {call : SubmitCall A O} {reply : Except CudaError O}
    {rest : List (Except CudaError O)} (hcall : s.calls[job]? = some call)
    (hstage : call.stage = .receive) (hreplies : s.replies job = reply :: rest) :
    Effect s ({ s with replies := Function.update s.replies job rest }.setCall job call
      (.returned reply)) .silent
  | closed {job : ℕ} {call : SubmitCall A O} {result : Except CudaError O}
    (hcall : s.calls[job]? = some call) (hstage : call.stage = .receive)
    (hreplies : s.replies job = []) (hholds : s.holds job = false) :
    Effect s (s.setCall job call (.returned result)) .silent
  | moves {s' : CudaWorkerSystem A O} (h : Moves s s') : Effect s s' .silent
  | retract {failed : Bool} {rest : List WorkerOp} (failures : ℕ)
    (hpending : s.pending = .retract failed :: rest) :
    Effect s { s with queued := fetchSub s.queued, failures := failures, pending := rest } .silent
  | answer {job : ℕ} {error : CudaError} {rest : List WorkerOp}
    (hpending : s.pending = .answer job error :: rest) :
    Effect s ({ s with pending := rest }.reply job (.error error)) .silent
  | batch {batch : List ℕ} (batches peakActive : ℕ) (hpending : s.pending = [])
    (hstage : s.stage = .lanes batch) :
    Effect s { s with
      batches := batches
      active := batch.length
      peakActive := peakActive
      stage := .dispatch batch } (.batch batch)
  | dispatch {job : ℕ} {rest : List ℕ} (hpending : s.pending = [])
    (hstage : s.stage = .dispatch (job :: rest)) :
    Effect s { s with queued := fetchSub s.queued, stage := .spawn job rest } .silent
  | spawn {job : ℕ} {rest : List ℕ} (hpending : s.pending = [])
    (hstage : s.stage = .spawn job rest) :
    Effect s { s with lanes := s.lanes ++ [job], stage := .dispatch rest } .silent
  | spawnFails {job : ℕ} {rest : List ℕ} (error : CudaError) (hpending : s.pending = [])
    (hstage : s.stage = .spawn job rest) :
    Effect s { s with
      active := fetchSub s.active
      failures := s.failures + 1
      pending := [.answer job error]
      stage := .dispatch rest } .silent
  | joined {job : ℕ} {rest : List ℕ} (hstage : s.stage = .join) (hlanes : s.lanes = job :: rest)
    (hlane : s.lane job = .ended false) : Effect s { s with lanes := rest } .silent
  | joinedPanic {job : ℕ} {rest : List ℕ} (error : CudaError) (hpending : s.pending = [])
    (hstage : s.stage = .join) (hlanes : s.lanes = job :: rest)
    (hlane : s.lane job = .ended true) :
    Effect s { s with
      lanes := rest
      failures := s.failures + 1
      pending := [.answer job error] } .silent
  | leave (hstage : s.stage = .leave) :
    Effect s { s with
      dropped := commandJobs s.channel
      channel := []
      stage := .exited } .silent
  | ran {job : ℕ} {image : RouteImage} {algorithm : A} (hmem : job ∈ s.lanes)
    (hlane : s.lane job = .start) (hkey : s.key job = some (image, algorithm)) :
    Effect s (s.setLane job .route) (.ran job image algorithm)
  | replied {job : ℕ} (failures : ℕ) (message : Except CudaError O) (hmem : job ∈ s.lanes)
    (hlane : s.lane job = .route) :
    Effect s (({ s with failures := failures }.reply job message).setLane job .dropGuard) .silent
  | panicked {job : ℕ} (hmem : job ∈ s.lanes) (hlane : s.lane job = .route) :
    Effect s (s.setLane job .unwind) .silent
  | dropGuard {job : ℕ} {panicked : Bool} (hmem : job ∈ s.lanes)
    (hguards : (s.lane job).guards = true) (hstart : s.lane job ≠ .start)
    (howes : (s.lane job).owes = panicked) :
    Effect s ({ s with active := fetchSub s.active }.setLane job (.ended panicked)) .silent

lemma callStep_effect (h : s.callStep job = some (s', o)) : Effect s s' o := by
  unfold callStep at h
  split at h
  · cases h
  · rename_i call hcall
    split at h
    · rename_i hstage
      cases h
      refine .step hcall (by simp [hstage]) ?_ ?_ ?_ fun _ => ?_
      · rw [hstage]
        rfl
      · split <;> rfl
      · rw [hstage]
        split <;> rfl
      · rw [hstage]
        rfl
    · rename_i hstage
      cases h
      exact .count hcall hstage
    · rename_i hstage
      split at h <;> cases h
      · refine .step hcall (by simp [hstage]) ?_ rfl ?_ fun hunsent => ?_
        · rw [hstage]
          rfl
        · rw [hstage]
          rfl
        · simp [SubmitStage.unsent] at hunsent
      · rename_i hexited
        exact .send hcall hstage hexited
    · rename_i hstage
      cases h
      exact .uncount hcall hstage
    · rename_i hstage
      split at h
      · rename_i hreplies
        cases h
        exact .receive hcall hstage hreplies
      · rename_i hreplies
        split at h <;> cases h
        rename_i hholds
        exact .closed hcall hstage hreplies (Bool.eq_false_iff.2 hholds)
    · cases h

lemma laneStep_effect {answer : LaneAnswer O} (h : s.laneStep job answer = some (s', o)) :
    Effect s s' o := by
  unfold laneStep at h
  split at h
  · rename_i hmem
    split at h
    · rename_i hlane
      obtain ⟨⟨image, algorithm⟩, hkey, heq⟩ := Option.map_eq_some_iff.1 h
      cases heq
      exact .ran hmem hlane hkey
    · rename_i hlane
      split at h <;> cases h
      · exact .replied s.failures _ hmem hlane
      · exact .replied (s.failures + 1) _ hmem hlane
      · exact .panicked hmem hlane
    · rename_i hlane
      cases h
      exact .dropGuard hmem (by rw [hlane]; rfl) (by simp [hlane]) (by rw [hlane]; rfl)
    · rename_i hlane
      cases h
      exact .dropGuard hmem (by rw [hlane]; rfl) (by simp [hlane]) (by rw [hlane]; rfl)
    · cases h
  · cases h

/-! ## Moves of the worker -/

/-- Nothing but the queues, the stage and the pending operations changes. -/
lemma Effect.ofPlaces {channel deferred : List Command} {stage : WorkerStage}
    {pending : List WorkerOp}
    (howed : ∀ job, (commandJobs channel).count job + (commandJobs deferred).count job +
      stage.jobs.count job + (opJobs pending).count job = s.owed job)
    (hbefore : ∀ job, (commandJobs channel).count job + (commandJobs deferred).count job +
      stage.jobs.count job ≤ s.before job)
    (hundispatched : (commandJobs channel).length + (commandJobs deferred).length +
      stage.undispatched + retracts pending = s.undispatched)
    (hunspawned : stage.unspawned = s.stage.unspawned)
    (hidle : stage.batching = false → s.stage.batching = false ∨ s.lanes = [])
    (hexited : stage = .exited ↔ s.stage = .exited) :
    Effect s { s with
      channel := channel, deferred := deferred, stage := stage, pending := pending } .silent :=
  .moves ⟨rfl, rfl, rfl, rfl, rfl, rfl, rfl, howed, hbefore, hundispatched, hunspawned, hidle,
    hexited⟩

/-- A step of `shutdown` sends no job. -/
lemma Effect.ofShutdown {channel : List Command} {stopping : Bool} {shutdown : ShutdownCallStage}
    {shutdownReply : Option ℕ} (hchannel : commandJobs channel = commandJobs s.channel) :
    Effect s { s with
      channel := channel, stopping := stopping, shutdown := shutdown
      shutdownReply := shutdownReply } .silent := by
  refine .moves ⟨rfl, rfl, rfl, rfl, rfl, rfl, rfl, fun _ => ?_, fun _ => ?_, ?_, rfl, .inl, .rfl⟩
  · simp only [owed, before, hchannel]
  · simp only [before, hchannel, le_refl]
  · simp only [undispatched, hchannel]

lemma shutdownStep_effect (h : s.shutdownStep = some (s', o)) : Effect s s' o := by
  unfold shutdownStep at h
  split at h
  · cases h
  · cases h
  · cases h
    exact .ofShutdown rfl
  · cases h
    exact .ofShutdown rfl
  · cases h
    exact .ofShutdown rfl
  · split at h <;> cases h
    · exact .ofShutdown rfl
    · exact .ofShutdown (by simp)
  · split at h
    · cases h
      exact .ofShutdown rfl
    · split at h <;> cases h
      exact .ofShutdown rfl
  · split at h <;> cases h
    exact .ofShutdown rfl

section Loop

variable [DecidableEq A] {maximum : ℕ} {answer : Bool}

lemma loopStep_effect (hpending : s.pending = [])
    (h : s.loopStep maximum answer = some (s', o)) : Effect s s' o := by
  unfold loopStep at h
  split at h
  · rename_i hstage
    split at h
    -- the next command is a deferred one, or else the first of the channel
    · rename_i hdeferred
      cases h
      refine .ofPlaces (fun _ => ?_) (fun _ => ?_) ?_ ?_ ?_ ?_ <;>
        simp [owed, before, undispatched, hstage, hpending, hdeferred, List.count_cons] <;> omega
    · rename_i hdeferred
      cases h
      refine .ofPlaces (fun _ => ?_) (fun _ => ?_) ?_ ?_ ?_ ?_ <;>
        simp [owed, before, undispatched, hstage, hpending, hdeferred, filterMap_job?]
    · rename_i hdeferred hchannel
      cases h
      refine .ofPlaces (fun _ => ?_) (fun _ => ?_) ?_ ?_ ?_ ?_ <;>
        simp [owed, before, undispatched, hstage, hpending, hdeferred, hchannel, List.count_cons]
    · rename_i hdeferred hchannel
      cases h
      refine .ofPlaces (fun _ => ?_) (fun _ => ?_) ?_ ?_ ?_ ?_ <;>
        simp [owed, before, undispatched, hstage, hpending, hdeferred, hchannel]
    · cases h
  · rename_i first hstage
    split at h <;> cases h
    · refine .ofPlaces (fun _ => ?_) (fun _ => ?_) ?_ ?_ ?_ ?_ <;>
        simp [owed, before, undispatched, hstage, hpending]
    · refine .ofPlaces (fun _ => ?_) (fun _ => ?_) ?_ ?_ ?_ ?_ <;>
        simp [owed, before, undispatched, hstage, hpending]
  · rename_i first hstage
    split at h <;> cases h
    · refine .ofPlaces (fun _ => ?_) (fun _ => ?_) ?_ ?_ ?_ ?_ <;>
        simp [owed, before, undispatched, hstage, hpending]
    · refine .ofPlaces (fun _ => ?_) (fun _ => ?_) ?_ ?_ ?_ ?_ <;>
        simp [owed, before, undispatched, hstage, hpending]
  -- the batch is full, or another command is taken from the channel
  · rename_i batch hstage
    split at h
    · cases h
      refine .ofPlaces (fun _ => ?_) (fun _ => ?_) ?_ ?_ ?_ ?_ <;>
        simp [owed, before, undispatched, hstage, hpending]
    · split at h
      · rename_i hchannel
        cases h
        refine .ofPlaces (fun _ => ?_) (fun _ => ?_) ?_ ?_ ?_ ?_ <;>
          simp [owed, before, undispatched, hstage, hpending, hchannel, List.count_cons] <;> omega
      · rename_i hchannel
        cases h
        refine .ofPlaces (fun _ => ?_) (fun _ => ?_) ?_ ?_ ?_ ?_ <;>
          simp [owed, before, undispatched, hstage, hpending, hchannel]
      · cases h
  · rename_i batch job hstage
    split at h
    · cases h
      refine .ofPlaces (fun _ => ?_) (fun _ => ?_) ?_ ?_ ?_ ?_ <;>
        simp [owed, before, undispatched, hstage, hpending, List.count_cons] <;> omega
    · split at h <;> cases h
      · refine .ofPlaces (fun _ => ?_) (fun _ => ?_) ?_ ?_ ?_ ?_ <;>
          simp [owed, before, undispatched, hstage, hpending]
      · refine .ofPlaces (fun _ => ?_) (fun _ => ?_) ?_ ?_ ?_ ?_ <;>
          simp [owed, before, undispatched, hstage, hpending, List.count_cons] <;> omega
  · rename_i batch job hstage
    split at h <;> cases h
    · refine .ofPlaces (fun _ => ?_) (fun _ => ?_) ?_ ?_ ?_ ?_ <;>
        simp [owed, before, undispatched, hstage, hpending]
    · refine .ofPlaces (fun _ => ?_) (fun _ => ?_) ?_ ?_ ?_ ?_ <;>
        simp [owed, before, undispatched, hstage, hpending, List.count_cons] <;> omega
  · rename_i batch hstage
    split at h <;> cases h
    · -- the collected batch is handed over as it is
      exact .batch _ _ hpending hstage
    · refine .ofPlaces (fun _ => ?_) (fun _ => ?_) ?_ ?_ ?_ ?_ <;>
        simp [owed, before, undispatched, hstage, hpending]
  · rename_i hstage
    cases h
    refine .ofPlaces (fun _ => ?_) (fun _ => ?_) ?_ ?_ ?_ ?_ <;>
      simp [owed, before, undispatched, hstage, hpending]
  · rename_i hstage
    cases h
    exact .dispatch hpending hstage
  · rename_i hstage
    split at h <;> cases h
    · exact .spawn hpending hstage
    · exact .spawnFails _ hpending hstage
  · rename_i hstage
    split at h
    -- no lane is left to join
    · rename_i hlanes
      cases h
      refine .ofPlaces (fun _ => ?_) (fun _ => ?_) ?_ ?_ ?_ ?_ <;>
        simp [owed, before, undispatched, hstage, hpending, hlanes]
    · rename_i hlanes
      split at h
      · rename_i hlane
        cases h
        exact .joined hstage hlanes hlane
      · rename_i hlane
        cases h
        exact .joinedPanic _ hpending hstage hlanes hlane
      · cases h
  -- what is left in the channel is rejected, up to its end
  · rename_i rejected hstage
    split at h
    · rename_i hchannel
      cases h
      refine .ofPlaces (fun _ => ?_) (fun _ => ?_) ?_ ?_ ?_ ?_ <;>
        simp [owed, before, undispatched, hstage, hpending, hchannel, List.count_cons] <;> omega
    · rename_i hchannel
      cases h
      refine .ofPlaces (fun _ => ?_) (fun _ => ?_) ?_ ?_ ?_ ?_ <;>
        simp [owed, before, undispatched, hstage, hpending, hchannel]
    · rename_i hchannel
      cases h
      refine .ofPlaces (fun _ => ?_) (fun _ => ?_) ?_ ?_ ?_ ?_ <;>
        simp [owed, before, undispatched, hstage, hpending, hchannel]
  · rename_i rejected hstage
    cases h
    refine .moves ⟨rfl, rfl, rfl, rfl, rfl, rfl, rfl, fun _ => ?_, fun _ => ?_, ?_, ?_, ?_, ?_⟩ <;>
      simp [owed, before, undispatched, hstage, hpending]
  · rename_i hstage
    cases h
    exact .leave hstage
  · cases h

lemma workerStep_effect (h : s.workerStep maximum answer = some (s', o)) : Effect s s' o := by
  unfold workerStep at h
  split at h
  · rename_i hpending
    cases h
    exact .retract _ hpending
  · rename_i hpending
    cases h
    exact .answer hpending
  · rename_i hpending
    exact loopStep_effect hpending h

/-- Every step does one of these things. -/
theorem step_effect {action : WorkerAction A O}
    (hstep : (cudaWorker A O maximum).step s action = some (s', o)) : Effect s s' o := by
  simp only [cudaWorker] at hstep
  split at hstep
  · cases hstep
    exact .submit _ _
  · exact callStep_effect hstep
  · exact workerStep_effect hstep
  · exact laneStep_effect hstep
  · split at hstep <;> cases hstep
    exact .ofShutdown rfl
  · exact shutdownStep_effect hstep

end Loop

/-! ## Calls -/

section Calls

variable {t : CudaWorkerSystem A O} {call : SubmitCall A O} {stage : SubmitStage O}

lemma getElem?_setCall (hcall : s.calls[job]? = some call) (stage : SubmitStage O) (job' : ℕ) :
    (s.calls.set job { call with stage := stage })[job']? =
      if job' = job then some { call with stage := stage } else s.calls[job']? := by
  have hlt : job < s.calls.length := (List.getElem?_eq_some_iff.1 hcall).1
  by_cases heq : job' = job
  · rw [heq, if_pos rfl, List.getElem?_set_self hlt]
  · rw [if_neg heq, List.getElem?_set_ne (Ne.symm heq)]

lemma receives_setCall (hcall : s.calls[job]? = some call)
    (hset : t.calls = s.calls.set job { call with stage := stage }) (job' : ℕ) :
    t.receives job' = if job' = job then stage.receives else s.receives job' := by
  rw [receives, hset, getElem?_setCall hcall]
  split <;> rfl

lemma unsent_setCall (hcall : s.calls[job]? = some call)
    (hset : t.calls = s.calls.set job { call with stage := stage }) (job' : ℕ) :
    t.unsent job' = if job' = job then stage.unsent else s.unsent job' := by
  rw [unsent, hset, getElem?_setCall hcall]
  split <;> rfl

lemma counted_setCall (hcall : s.calls[job]? = some call)
    (hset : t.calls = s.calls.set job { call with stage := stage }) :
    t.calls.countP (fun call => call.stage.counted) + call.stage.counted.toNat =
      s.calls.countP (fun call => call.stage.counted) + stage.counted.toNat := by
  obtain ⟨hlt, hget⟩ := List.getElem?_eq_some_iff.1 hcall
  rw [hset, List.countP_set hlt, hget]
  rcases hcounted : call.stage.counted with _ | _
  · rcases stage.counted with _ | _ <;> simp
  · have hpos : 0 < s.calls.countP fun call => call.stage.counted :=
      List.countP_pos_iff.2 ⟨call, List.mem_of_getElem? hcall, hcounted⟩
    rcases stage.counted with _ | _ <;> simp <;> omega

lemma receives_of_get (hcall : s.calls[job]? = some call) :
    s.receives job = call.stage.receives := by
  rw [receives, hcall]
  rfl

lemma unsent_of_get (hcall : s.calls[job]? = some call) : s.unsent job = call.stage.unsent := by
  rw [unsent, hcall]
  rfl

/-- A call that may still send does not wait. -/
lemma receives_of_unsent (h : s.unsent job = true) : s.receives job = false := by
  rcases hcall : s.calls[job]? with _ | call
  · rw [receives, hcall]
    rfl
  · rw [unsent_of_get hcall] at h
    rw [receives_of_get hcall]
    rcases call with ⟨_, _, _ | _ | _ | _ | _ | _⟩ <;>
      simp [SubmitStage.unsent, SubmitStage.receives] at h ⊢

/-- A new call neither waits nor has sent its job. -/
lemma receives_append {new : SubmitCall A O} (hset : t.calls = s.calls ++ [new])
    (hnew : new.stage.receives = false) (job : ℕ) : t.receives job = s.receives job := by
  rw [receives, receives, hset]
  rcases lt_trichotomy job s.calls.length with hlt | rfl | hgt
  · rw [List.getElem?_append_left hlt]
  · rw [List.getElem?_concat_length, List.getElem?_eq_none le_rfl]
    exact hnew
  · rw [List.getElem?_eq_none (by simp; omega), List.getElem?_eq_none hgt.le]

lemma unsent_append {new : SubmitCall A O} (hset : t.calls = s.calls ++ [new])
    (hnew : new.stage.unsent = true) (job : ℕ) : t.unsent job = s.unsent job := by
  rw [unsent, unsent, hset]
  rcases lt_trichotomy job s.calls.length with hlt | rfl | hgt
  · rw [List.getElem?_append_left hlt]
  · rw [List.getElem?_concat_length, List.getElem?_eq_none le_rfl]
    exact hnew
  · rw [List.getElem?_eq_none (by simp; omega), List.getElem?_eq_none hgt.le]

end Calls

/-- A job no sender is kept for is owed nothing. -/
lemma owed_of_holds (h : s.holds job = false) : s.owed job + s.lanesOwe job = 0 := by
  simp only [holds, Bool.or_eq_false_iff, filterMap_job?] at h
  obtain ⟨⟨⟨⟨hchannel, hdeferred⟩, hstage⟩, hpending⟩, hlanes⟩ := h
  have hops : job ∉ opJobs s.pending := by
    generalize s.pending = pending at hpending
    induction pending with
    | nil => simp
    | cons op rest ih =>
      rw [List.any_cons, Bool.or_eq_false_iff] at hpending
      rcases op with failed | ⟨job', error⟩
      · exact ih hpending.2
      · rw [opJobs_answer, List.mem_cons, not_or]
        exact ⟨fun heq => by simp [heq] at hpending, ih hpending.2⟩
  rw [owed, before, lanesOwe, List.count_eq_zero.2 (of_decide_eq_false hchannel),
    List.count_eq_zero.2 (of_decide_eq_false hdeferred),
    List.count_eq_zero.2 (of_decide_eq_false hstage), List.count_eq_zero.2 hops,
    List.count_eq_zero.2 (of_decide_eq_false hlanes), ite_self]

/-! ## The ledger is kept -/

/-- A step that changes no call and no dropped job keeps the ledger when it keeps what is owed and
replied together. -/
lemma Ledger.transfer (h : Ledger s) (hcalls : s'.calls = s.calls) (hdropped : s'.dropped = s.dropped)
    (hsum : ∀ job, s'.owed job + s'.lanesOwe job + (s'.replies job).length =
      s.owed job + s.lanesOwe job + (s.replies job).length) : Ledger s' := by
  have hreceives (job : ℕ) : s'.receives job = s.receives job := by
    rw [receives, receives, hcalls]
  refine ⟨fun job hjob => ?_, fun job hjob => ?_, fun job hjob => ?_⟩
  · rw [hsum, hdropped]
    exact h.receiving job (hreceives job ▸ hjob)
  · rw [hsum]
    exact h.others job (hreceives job ▸ hjob)
  · have hold : s.unsent job = true := by
      rw [CudaWorkerSystem.unsent, ← hcalls]
      exact hjob
    rw [hdropped]
    exact h.unsent job hold

/-- A call that takes its stage from the ones that do not wait, to one that does not. -/
lemma Ledger.step (h : Ledger s) {call : SubmitCall A O} {stage : SubmitStage O}
    (hcall : s.calls[job]? = some call)
    (hset : s'.calls = s.calls.set job { call with stage := stage })
    (hreceives : call.stage.receives = false) (hreceives' : stage.receives = false)
    (hunsent : stage.unsent = true → call.stage.unsent = true) (hdropped : s'.dropped = s.dropped)
    (hsum : ∀ job, s'.owed job + s'.lanesOwe job + (s'.replies job).length =
      s.owed job + s.lanesOwe job + (s.replies job).length) : Ledger s' := by
  have hsame (job' : ℕ) : s'.receives job' = s.receives job' := by
    rw [receives_setCall hcall hset]
    split
    · rename_i heq
      rw [heq, receives_of_get hcall, hreceives, hreceives']
    · rfl
  refine ⟨fun job' hjob => ?_, fun job' hjob => ?_, fun job' hjob => ?_⟩
  · rw [hsum, hdropped]
    exact h.receiving job' (hsame job' ▸ hjob)
  · rw [hsum]
    exact h.others job' (hsame job' ▸ hjob)
  · rw [hdropped]
    apply h.unsent job'
    rw [unsent_setCall hcall hset] at hjob
    split at hjob
    · rename_i heq
      rw [heq, unsent_of_get hcall]
      exact hunsent hjob
    · exact hjob

/-- A call that stops waiting leaves nothing behind. -/
lemma Ledger.finish (h : Ledger s) {call : SubmitCall A O} {result : Except CudaError O}
    (hcall : s.calls[job]? = some call)
    (hset : s'.calls = s.calls.set job { call with stage := .returned result })
    (hdropped : s'.dropped = s.dropped)
    (howed : ∀ job, s'.owed job + s'.lanesOwe job = s.owed job + s.lanesOwe job)
    (hself : s'.owed job + s'.lanesOwe job + (s'.replies job).length = 0)
    (hreplies : ∀ job', job' ≠ job → s'.replies job' = s.replies job') : Ledger s' := by
  refine ⟨fun job' hjob => ?_, fun job' hjob => ?_, fun job' hjob => ?_⟩
  · rw [receives_setCall hcall hset] at hjob
    split at hjob
    · simp [SubmitStage.receives] at hjob
    · rename_i hne
      rw [howed, hreplies job' hne, hdropped]
      exact h.receiving job' hjob
  · by_cases heq : job' = job
    · rw [heq]
      exact hself
    · rw [receives_setCall hcall hset, if_neg heq] at hjob
      rw [howed, hreplies job' heq]
      exact h.others job' hjob
  · rw [unsent_setCall hcall hset] at hjob
    rw [hdropped]
    split at hjob
    · simp [SubmitStage.unsent] at hjob
    · exact h.unsent job' hjob

lemma lanesOwe_of_mem (h : LanesOnce s) (hmem : job ∈ s.lanes) (howes : (s.lane job).owes = true) :
    s.lanesOwe job = 1 := by
  rw [lanesOwe, if_pos howes]
  exact List.count_eq_one_of_mem h.nodup hmem

/-- A job that waits has no lane yet. -/
lemma LanesOnce.lane_of_waits (h : LanesOnce s) (job : ℕ) (hwaits : s.before job ≠ 0) :
    s.lane job = .start := by
  by_contra hbegun
  exact hwaits (h.begun job hbegun).1

/-- A lane moves on; the others owe what they owed. -/
lemma lanesOwe_setLane (stage : LaneStage) (job' : ℕ) :
    (s.setLane job stage).lanesOwe job' =
      if job' = job then (if stage.owes then s.lanes.count job else 0) else s.lanesOwe job' := by
  by_cases heq : job' = job
  · rw [if_pos heq, heq, lanesOwe]
    simp only [setLane, Function.update_self]
  · rw [if_neg heq, lanesOwe, lanesOwe]
    simp only [setLane, Function.update_of_ne heq]

lemma lanesOwe_setLane_same {stage : LaneStage} (howes : stage.owes = (s.lane job).owes) (job' : ℕ) :
    (s.setLane job stage).lanesOwe job' = s.lanesOwe job' := by
  rw [lanesOwe_setLane]
  split
  · rename_i heq
    rw [heq, lanesOwe, howes]
  · rfl

lemma length_reply (message : Except CudaError O) (job' : ℕ) :
    ((s.reply job message).replies job').length =
      (s.replies job').length + if job' = job then 1 else 0 := by
  by_cases heq : job' = job
  · rw [if_pos heq, heq]
    simp [reply]
  · rw [if_neg heq]
    simp [reply, Function.update_of_ne heq]

lemma Effect.ledger (h : Effect s s' o) (hledger : Ledger s) (hlanes : LanesOnce s) : Ledger s' := by
  cases h with
  | submit image algorithm =>
    have hreceives := receives_append (s := s)
      (t := { s with calls := s.calls ++ [⟨image, algorithm, .loadStopping⟩] }) rfl rfl
    have hunsent := unsent_append (s := s)
      (t := { s with calls := s.calls ++ [⟨image, algorithm, .loadStopping⟩] }) rfl rfl
    exact ⟨fun job hjob => hledger.receiving job (hreceives job ▸ hjob),
      fun job hjob => hledger.others job (hreceives job ▸ hjob),
      fun job hjob => hledger.unsent job (hunsent job ▸ hjob)⟩
  | step hcall _ hreceives hreceives' _ hunsent =>
    exact hledger.step hcall rfl hreceives hreceives' hunsent rfl fun _ => rfl
  | count hcall hstage =>
    exact hledger.step hcall rfl (by rw [hstage]; rfl) rfl (fun _ => by rw [hstage]; rfl) rfl
      fun _ => rfl
  | @send job call hcall hstage =>
    have hset : ({ s with channel := s.channel ++ [Command.route job] }.setCall job call
      .receive).calls = s.calls.set job { call with stage := .receive } := rfl
    have hnone := hledger.others job (by rw [receives_of_get hcall, hstage]; rfl)
    have hfresh := hledger.unsent job (by rw [unsent_of_get hcall, hstage]; rfl)
    -- the channel gains the command of the job, and the job becomes one that is waited for
    have howed (job' : ℕ) : ({ s with channel := s.channel ++ [Command.route job] }.setCall job call
        .receive).owed job' = s.owed job' + if job' = job then 1 else 0 := by
      simp only [owed, before, setCall, commandJobs_append, commandJobs_route, commandJobs_nil,
        List.count_append, List.count_singleton, beq_iff_eq, eq_comm (a := job)]
      omega
    refine ⟨fun job' hjob => ?_, fun job' hjob => ?_, fun job' hjob => ?_⟩
    · rw [receives_setCall hcall hset] at hjob
      rw [howed]
      show _ + s.lanesOwe job' + (s.replies job').length + s.dropped.count job' = 1
      split at hjob
      · rename_i heq
        rw [heq, if_pos rfl]
        omega
      · rename_i hne
        rw [if_neg hne]
        exact hledger.receiving job' hjob
    · rw [receives_setCall hcall hset] at hjob
      split at hjob
      · simp [SubmitStage.receives] at hjob
      · rename_i hne
        rw [howed, if_neg hne]
        exact hledger.others job' hjob
    · rw [unsent_setCall hcall hset] at hjob
      split at hjob
      · simp [SubmitStage.unsent] at hjob
      · exact hledger.unsent job' hjob
  | uncount hcall hstage =>
    exact hledger.step hcall rfl (by rw [hstage]; rfl) rfl nofun rfl fun _ => rfl
  | @receive job call reply rest hcall hstage hreplies =>
    have hone := hledger.receiving job (by rw [receives_of_get hcall, hstage]; rfl)
    rw [hreplies, List.length_cons] at hone
    refine hledger.finish hcall rfl rfl (fun _ => rfl) ?_ fun job' hne => ?_
    · show s.owed job + s.lanesOwe job + (Function.update s.replies job rest job).length = 0
      rw [Function.update_self]
      omega
    · exact Function.update_of_ne hne rest s.replies
  | @closed job call result hcall hstage hreplies hholds =>
    refine hledger.finish hcall rfl rfl (fun _ => rfl) ?_ fun _ _ => rfl
    show s.owed job + s.lanesOwe job + (s.replies job).length = 0
    rw [owed_of_holds hholds, hreplies]
    rfl
  | moves hmoves =>
    refine hledger.transfer hmoves.calls hmoves.dropped fun job => ?_
    rw [hmoves.owed, lanesOwe, hmoves.lane, hmoves.lanes, hmoves.replies]
    rfl
  | retract failures hpending =>
    refine hledger.transfer rfl rfl fun job => ?_
    simp only [owed, hpending, opJobs_retract]
    rfl
  | @answer job error rest hpending =>
    refine hledger.transfer rfl rfl fun job' => ?_
    rw [length_reply]
    have howed : s.owed job' = ({ s with pending := rest }.reply job (.error error)).owed job' +
        if job' = job then 1 else 0 := by
      simp only [owed, hpending, opJobs_answer, List.count_cons, beq_iff_eq, eq_comm (a := job)]
      exact (Nat.add_assoc _ _ _).symm
    rw [howed]
    show _ + s.lanesOwe job' + ((s.replies job').length + _) = _ + _ + s.lanesOwe job' + _
    omega
  | batch batches peakActive hpending hstage =>
    refine hledger.transfer rfl rfl fun job' => ?_
    simp only [owed, before, hstage, WorkerStage.jobs]
    rfl
  | dispatch hpending hstage =>
    refine hledger.transfer rfl rfl fun job' => ?_
    simp only [owed, before, hstage, WorkerStage.jobs]
    rfl
  | @spawn job rest hpending hstage =>
    -- the lane takes over what the worker owed the job
    have hstart := hlanes.lane_of_waits job (by simp [before, hstage])
    refine hledger.transfer rfl rfl fun job' => ?_
    have hlane : ({ s with lanes := s.lanes ++ [job], stage := .dispatch rest }).lanesOwe job' =
        s.lanesOwe job' + if job' = job then 1 else 0 := by
      simp only [lanesOwe, List.count_append, List.count_singleton, beq_iff_eq, eq_comm (a := job)]
      by_cases heq : job' = job
      · simp [heq, hstart, LaneStage.owes]
      · simp [heq]
    have howed : s.owed job' =
        ({ s with lanes := s.lanes ++ [job], stage := .dispatch rest }).owed job' +
          if job' = job then 1 else 0 := by
      simp only [owed, before, hstage, WorkerStage.jobs, List.count_cons, beq_iff_eq,
        eq_comm (a := job)]
      omega
    rw [hlane, howed]
    show _ + (s.lanesOwe job' + _) + (s.replies job').length =
      _ + s.lanesOwe job' + (s.replies job').length
    omega
  | @spawnFails job rest error hpending hstage =>
    refine hledger.transfer rfl rfl fun job' => ?_
    simp only [owed, before, hstage, hpending, WorkerStage.jobs, opJobs_answer, opJobs_nil,
      List.count_cons, List.count_nil, lanesOwe]
    omega
  | @joined job rest hstage heq hlane =>
    refine hledger.transfer rfl rfl fun job' => ?_
    -- a lane that has ended owes nothing, so joining it loses nothing
    have hsame : ({ s with lanes := rest }).lanesOwe job' = s.lanesOwe job' := by
      simp only [lanesOwe, heq, List.count_cons, beq_iff_eq]
      by_cases hjob : job = job'
      · rw [← hjob, hlane]
        rfl
      · simp [hjob]
    rw [hsame]
    rfl
  | @joinedPanic job rest error hpending hstage heq hlane =>
    refine hledger.transfer rfl rfl fun job' => ?_
    -- a lane that panicked still owed its answer, which is now pending
    have hsame : s.lanesOwe job' = ({ s with
        lanes := rest
        failures := s.failures + 1
        pending := [.answer job error] }).lanesOwe job' + if job = job' then 1 else 0 := by
      simp only [lanesOwe, heq, List.count_cons, beq_iff_eq]
      by_cases hjob : job = job'
      · rw [← hjob, hlane]
        rfl
      · simp [hjob]
    rw [hsame]
    simp only [owed, before, hpending, opJobs_answer, opJobs_nil, List.count_cons, List.count_nil,
      beq_iff_eq]
    omega
  | leave hstage =>
    -- the commands left in the channel are dropped with it
    have hnone : s.dropped = [] := hlanes.dropped (by simp [hstage])
    have howed (job' : ℕ) : s.owed job' = (commandJobs s.channel).count job' + ({ s with
        dropped := commandJobs s.channel
        channel := []
        stage := .exited }).owed job' := by
      simp only [owed, before, hstage, WorkerStage.jobs, commandJobs_nil, List.count_nil]
      omega
    refine ⟨fun job' hjob => ?_, fun job' hjob => ?_, fun job' hjob => ?_⟩
    · have hone := hledger.receiving job' hjob
      rw [howed, hnone, List.count_nil] at hone
      show _ + s.lanesOwe job' + (s.replies job').length + (commandJobs s.channel).count job' = 1
      omega
    · have hzero := hledger.others job' hjob
      rw [howed] at hzero
      show _ + s.lanesOwe job' + (s.replies job').length = 0
      omega
    · have hreceives : s.receives job' = false := receives_of_unsent hjob
      have hzero := hledger.others job' hreceives
      rw [howed] at hzero
      show (commandJobs s.channel).count job' = 0
      omega
  | @ran job _ _ hmem hlane =>
    refine hledger.transfer rfl rfl fun job' => ?_
    rw [lanesOwe_setLane_same (by rw [hlane]; rfl)]
    rfl
  | @replied job failures message hmem hlane =>
    refine hledger.transfer rfl rfl fun job' => ?_
    -- the answer moves from what the lane owes to the replies
    have hone := lanesOwe_of_mem hlanes hmem (by rw [hlane]; rfl)
    have hlane' : (({ s with failures := failures }.reply job message).setLane job
        .dropGuard).lanesOwe job' = if job' = job then 0 else s.lanesOwe job' :=
      lanesOwe_setLane .dropGuard job'
    have hreplies : (((({ s with failures := failures }.reply job message).setLane job
        .dropGuard).replies job').length) = (s.replies job').length + if job' = job then 1 else 0 :=
      length_reply message job'
    rw [hlane', hreplies]
    show s.owed job' + _ + _ = s.owed job' + _ + _
    by_cases heq : job' = job
    · rw [if_pos heq, if_pos heq, heq, hone]
      omega
    · rw [if_neg heq, if_neg heq]
      rfl
  | @panicked job hmem hlane =>
    refine hledger.transfer rfl rfl fun job' => ?_
    rw [lanesOwe_setLane_same (by rw [hlane]; rfl)]
    rfl
  | @dropGuard job panicked hmem hguards hstart howes =>
    refine hledger.transfer rfl rfl fun job' => ?_
    have hsame : ({ s with active := fetchSub s.active }.setLane job (.ended panicked)).lanesOwe
        job' = s.lanesOwe job' := by
      apply lanesOwe_setLane_same
      rw [howes]
      rcases panicked with _ | _ <;> rfl
    rw [hsame]
    rfl

/-! ## The lanes -/

/-- A step that leaves lanes and stages of lanes alone, and puts no job before its lane. -/
lemma LanesOnce.keep (h : LanesOnce s) (hlanes : s'.lanes = s.lanes) (hlane : s'.lane = s.lane)
    (hidle : s'.stage.batching = false → s.stage.batching = false ∨ s.lanes = [])
    (hbefore : ∀ job, s'.before job ≤ s.before job)
    (hunsent : ∀ job, s'.unsent job = true → s.unsent job = true)
    (hdropped : s'.stage ≠ .exited → s.stage ≠ .exited ∧ s'.dropped = s.dropped) :
    LanesOnce s' := by
  refine ⟨hlanes ▸ h.nodup, fun hstage => ?_, fun job hjob => ⟨?_, ?_⟩, fun hstage => ?_⟩
  · rw [hlanes]
    exact (hidle hstage).elim h.idle id
  · have hzero := (h.begun job (hlane ▸ hjob)).1
    exact Nat.le_zero.1 ((hbefore job).trans hzero.le)
  · have hsent := (h.begun job (hlane ▸ hjob)).2
    rcases hnew : s'.unsent job with _ | _
    · rfl
    · rw [hunsent job hnew] at hsent
      exact hsent
  · obtain ⟨hold, heq⟩ := hdropped hstage
    rw [heq, h.dropped hold]

/-- A call moves on, and does not send anew. -/
lemma unsent_of_setCall {call : SubmitCall A O} {stage : SubmitStage O} {t : CudaWorkerSystem A O}
    (hcall : s.calls[job]? = some call) (hset : t.calls = s.calls.set job { call with stage := stage })
    (hunsent : stage.unsent = true → call.stage.unsent = true) (job' : ℕ)
    (h : t.unsent job' = true) : s.unsent job' = true := by
  rw [unsent_setCall hcall hset] at h
  split at h
  · rename_i heq
    rw [heq, unsent_of_get hcall]
    exact hunsent h
  · exact h

/-- A job on a lane waits nowhere else. -/
lemma LanesOnce.waits_nowhere (h : LanesOnce s) (hledger : Ledger s) (hmem : job ∈ s.lanes) :
    s.before job = 0 ∧ s.unsent job = false := by
  by_cases hlane : s.lane job = .start
  · have hone := lanesOwe_of_mem h hmem (by rw [hlane]; rfl)
    have howed : s.before job ≤ s.owed job := Nat.le_add_right _ _
    rcases hreceives : s.receives job with _ | _
    · have hzero := hledger.others job hreceives
      omega
    · have hsum := hledger.receiving job hreceives
      refine ⟨by omega, ?_⟩
      rcases hunsent : s.unsent job with _ | _
      · rfl
      · rw [receives_of_unsent hunsent] at hreceives
        exact hreceives.symm
  · exact h.begun job hlane

/-- A lane moves on. -/
lemma LanesOnce.advance (h : LanesOnce s) (hself : s.before job = 0 ∧ s.unsent job = false)
    (stage : LaneStage) : LanesOnce (s.setLane job stage) := by
  refine ⟨h.nodup, h.idle, fun job' hjob => ?_, h.dropped⟩
  show s.before job' = 0 ∧ s.unsent job' = false
  by_cases heq : job' = job
  · rw [heq]
    exact hself
  · have hsame : (s.setLane job stage).lane job' = s.lane job' := Function.update_of_ne heq _ _
    rw [hsame] at hjob
    exact h.begun job' hjob

/-- A lane is joined. -/
lemma LanesOnce.join (h : LanesOnce s) {rest : List ℕ} (hstage : s'.stage = s.stage)
    (hjoin : s.stage = .join) (heq : s.lanes = job :: rest) (hlanes : s'.lanes = rest)
    (hlane : s'.lane = s.lane) (hbefore : ∀ job, s'.before job = s.before job)
    (hunsent : ∀ job, s'.unsent job = s.unsent job) (hdropped : s'.dropped = s.dropped) :
    LanesOnce s' := by
  refine ⟨?_, fun hidle => ?_, fun job' hjob => ?_, fun hexited => ?_⟩
  · rw [hlanes]
    exact (List.nodup_cons.1 (heq ▸ h.nodup)).2
  · rw [hstage, hjoin] at hidle
    simp at hidle
  · rw [hbefore, hunsent]
    exact h.begun job' (hlane ▸ hjob)
  · rw [hdropped]
    exact h.dropped (hstage ▸ hexited)

lemma Effect.lanesOnce (h : Effect s s' o) (hledger : Ledger s) (hlanes : LanesOnce s) :
    LanesOnce s' := by
  cases h with
  | submit image algorithm =>
    refine hlanes.keep rfl rfl .inl (fun _ => le_rfl) (fun job hjob => ?_) fun hstage => ⟨hstage, rfl⟩
    rwa [unsent_append (s := s)
      (t := { s with calls := s.calls ++ [⟨image, algorithm, .loadStopping⟩] }) rfl rfl job] at hjob
  | step hcall _ _ _ _ hunsent =>
    exact hlanes.keep rfl rfl .inl (fun _ => le_rfl) (unsent_of_setCall hcall rfl hunsent)
      fun hstage => ⟨hstage, rfl⟩
  | count hcall hstage =>
    refine hlanes.keep rfl rfl .inl (fun _ => le_rfl) (unsent_of_setCall hcall rfl fun _ => ?_)
      fun hstage => ⟨hstage, rfl⟩
    rw [hstage]
    rfl
  | @send job call hcall hstage hexited =>
    refine ⟨hlanes.nodup, hlanes.idle, fun job' hbegun => ?_, fun _ => hlanes.dropped hexited⟩
    obtain ⟨hbefore, hsent⟩ := hlanes.begun job' hbegun
    -- a lane that has begun is not that of a call still to be sent
    have hne : job' ≠ job := by
      rintro rfl
      rw [unsent_of_get hcall, hstage] at hsent
      simp [SubmitStage.unsent] at hsent
    refine ⟨?_, ?_⟩
    · rw [← hbefore]
      simp [before, setCall, Ne.symm hne]
    · rw [unsent_setCall hcall rfl, if_neg hne]
      exact hsent
  | uncount hcall =>
    exact hlanes.keep rfl rfl .inl (fun _ => le_rfl) (unsent_of_setCall hcall rfl nofun)
      fun hstage => ⟨hstage, rfl⟩
  | receive hcall =>
    exact hlanes.keep rfl rfl .inl (fun _ => le_rfl) (unsent_of_setCall hcall rfl nofun)
      fun hstage => ⟨hstage, rfl⟩
  | closed hcall =>
    exact hlanes.keep rfl rfl .inl (fun _ => le_rfl) (unsent_of_setCall hcall rfl nofun)
      fun hstage => ⟨hstage, rfl⟩
  | moves hmoves =>
    refine hlanes.keep hmoves.lanes hmoves.lane hmoves.idle hmoves.before (fun job hjob => ?_)
      fun hstage => ⟨fun hold => hstage (hmoves.exited.2 hold), hmoves.dropped⟩
    rw [unsent, ← hmoves.calls]
    exact hjob
  | retract =>
    exact hlanes.keep rfl rfl .inl (fun _ => le_rfl) (fun _ => id) fun hstage => ⟨hstage, rfl⟩
  | answer =>
    exact hlanes.keep rfl rfl .inl (fun _ => le_rfl) (fun _ => id) fun hstage => ⟨hstage, rfl⟩
  | batch _ _ _ hstage =>
    refine hlanes.keep rfl rfl nofun (fun job => ?_) (fun _ => id) fun _ => ⟨by simp [hstage], rfl⟩
    simp [before, hstage]
  | dispatch _ hstage =>
    refine hlanes.keep rfl rfl nofun (fun job => ?_) (fun _ => id) fun _ => ⟨by simp [hstage], rfl⟩
    simp [before, hstage]
  | @spawn job rest hpending hstage =>
    -- a job to be spawned is counted before the lanes, so it has none yet
    have hfresh : job ∉ s.lanes := fun hmem => by
      have hzero := (hlanes.waits_nowhere hledger hmem).1
      simp [before, hstage] at hzero
    refine ⟨?_, nofun, fun job' hbegun => ⟨?_, (hlanes.begun job' hbegun).2⟩, fun _ => ?_⟩
    · exact List.nodup_append_comm.1 (List.nodup_cons.2 ⟨hfresh, hlanes.nodup⟩)
    · have hzero := (hlanes.begun job' hbegun).1
      simp only [before, hstage, WorkerStage.jobs, List.count_cons] at hzero ⊢
      omega
    · exact hlanes.dropped (by simp [hstage])
  | spawnFails _ _ hstage =>
    refine hlanes.keep rfl rfl nofun (fun job => ?_) (fun _ => id) fun _ => ⟨by simp [hstage], rfl⟩
    simp [before, hstage, List.count_cons]
  | joined hstage heq =>
    exact hlanes.join rfl hstage heq rfl rfl (fun _ => rfl) (fun _ => rfl) rfl
  | joinedPanic _ _ hstage heq =>
    exact hlanes.join rfl hstage heq rfl rfl (fun _ => rfl) (fun _ => rfl) rfl
  | leave hstage =>
    refine hlanes.keep rfl rfl (fun _ => .inl (by simp [hstage])) (fun job => ?_) (fun _ => id)
      fun hexited => absurd rfl hexited
    simp [before, hstage]
  | ran hmem => exact hlanes.advance (hlanes.waits_nowhere hledger hmem) _
  | @replied job failures message hmem =>
    have hreplied : LanesOnce ({ s with failures := failures }.reply job message) :=
      hlanes.keep rfl rfl .inl (fun _ => le_rfl) (fun _ => id) fun hstage => ⟨hstage, rfl⟩
    exact hreplied.advance (hlanes.waits_nowhere hledger hmem) _
  | panicked hmem => exact hlanes.advance (hlanes.waits_nowhere hledger hmem) _
  | dropGuard hmem =>
    have hdropped : LanesOnce { s with active := fetchSub s.active } :=
      hlanes.keep rfl rfl .inl (fun _ => le_rfl) (fun _ => id) fun hstage => ⟨hstage, rfl⟩
    exact hdropped.advance (hlanes.waits_nowhere hledger hmem) _

/-! ## The counters -/

/-- The living lanes after one has moved on. -/
lemma guards_setLane (h : LanesOnce s) (hmem : job ∈ s.lanes) (stage : LaneStage) :
    (s.setLane job stage).guards + (s.lane job).guards.toNat =
      s.guards + stage.guards.toNat := by
  have hcount {lanes : List ℕ} (hnodup : lanes.Nodup) (hmem : job ∈ lanes) :
      lanes.countP (fun job' => (Function.update s.lane job stage job').guards) +
        (s.lane job).guards.toNat =
      lanes.countP (fun job' => (s.lane job').guards) + stage.guards.toNat := by
    induction lanes with
    | nil => simp at hmem
    | cons first rest ih =>
      obtain ⟨hfirst, hrest⟩ := List.nodup_cons.1 hnodup
      rw [List.countP_cons, List.countP_cons]
      by_cases heq : first = job
      · have hsame : rest.countP (fun job' => (Function.update s.lane job stage job').guards) =
            rest.countP fun job' => (s.lane job').guards := by
          refine List.countP_congr fun job' hjob' => ?_
          have hne : job' ≠ job := by
            rintro rfl
            exact hfirst (heq ▸ hjob')
          rw [Function.update_of_ne hne]
        rw [hsame, heq, Function.update_self]
        rcases stage.guards with _ | _ <;> rcases (s.lane job).guards with _ | _ <;> simp
      · have hcons := ih hrest (List.mem_of_ne_of_mem (Ne.symm heq) hmem)
        rw [Function.update_of_ne heq]
        omega
  exact hcount h.nodup hmem

/-- A step that keeps the counters and what they count. -/
lemma Counters.keep (h : Counters s) (hqueued : s'.queued = s.queued) (hactive : s'.active = s.active)
    (hcalls : s'.calls = s.calls) (hundispatched : s'.undispatched = s.undispatched)
    (hdropped : s'.dropped.length = s.dropped.length)
    (hspawned : s'.stage.unspawned + s'.guards = s.stage.unspawned + s.guards) : Counters s' := by
  refine ⟨?_, ?_⟩
  · rw [hqueued, hcalls, hundispatched, hdropped]
    exact h.queued
  · rw [hactive, hspawned]
    exact h.active

/-- A call moves on, and the counter of queued jobs with it. -/
lemma Counters.step (h : Counters s) {call : SubmitCall A O} {stage : SubmitStage O}
    (hcall : s.calls[job]? = some call)
    (hset : s'.calls = s.calls.set job { call with stage := stage })
    (hqueued : s'.queued + call.stage.counted.toNat + s.undispatched =
      s.queued + stage.counted.toNat + s'.undispatched)
    (hactive : s'.active = s.active) (hdropped : s'.dropped = s.dropped)
    (hspawned : s'.stage.unspawned + s'.guards = s.stage.unspawned + s.guards) : Counters s' := by
  have hcounted := counted_setCall hcall hset
  have hold := h.queued
  refine ⟨?_, ?_⟩
  · rw [hdropped]
    omega
  · rw [hactive, hspawned]
    exact h.active

lemma Effect.counters (h : Effect s s' o) (hlanes : LanesOnce s) (hcounters : Counters s) :
    Counters s' := by
  have hqueued := hcounters.queued
  have hactive := hcounters.active
  cases h with
  | submit image algorithm =>
    refine ⟨?_, hactive⟩
    show s.queued = (s.calls ++ [_]).countP _ + s.undispatched + s.dropped.length
    rw [List.countP_append, hqueued]
    rfl
  | step hcall _ _ _ hcounted =>
    exact hcounters.step hcall rfl (by rw [hcounted]; rfl) rfl rfl rfl
  | count hcall hstage =>
    refine hcounters.step hcall rfl ?_ rfl rfl rfl
    rw [hstage]
    show s.queued + 1 + 0 + s.undispatched = s.queued + 1 + s.undispatched
    omega
  | @send job call hcall hstage =>
    refine hcounters.step hcall rfl ?_ rfl rfl rfl
    rw [hstage]
    simp only [undispatched, setCall, commandJobs_append, commandJobs_route, commandJobs_nil,
      List.length_append, List.length_singleton, SubmitStage.counted, Bool.toNat_true,
      Bool.toNat_false]
    omega
  | @uncount job call result hcall hstage =>
    -- the counter does not wrap: this call is one of those counted
    have hpos : 0 < s.calls.countP fun call => call.stage.counted := by
      refine List.countP_pos_iff.2 ⟨call, List.mem_of_getElem? hcall, ?_⟩
      rw [hstage]
      rfl
    refine hcounters.step hcall rfl ?_ rfl rfl rfl
    rw [hstage]
    show fetchSub s.queued + 1 + s.undispatched = s.queued + 0 + s.undispatched
    rw [fetchSub_eq (m := s.queued - 1) (by omega)]
    omega
  | receive hcall hstage =>
    exact hcounters.step hcall rfl (by rw [hstage]; rfl) rfl rfl rfl
  | closed hcall hstage =>
    exact hcounters.step hcall rfl (by rw [hstage]; rfl) rfl rfl rfl
  | moves hmoves =>
    refine hcounters.keep hmoves.queued hmoves.active hmoves.calls hmoves.undispatched
      (by rw [hmoves.dropped]) ?_
    rw [hmoves.unspawned, guards, guards, hmoves.lanes, hmoves.lane]
  | @retract failed rest failures hpending =>
    refine ⟨?_, hactive⟩
    -- each retraction undoes the count of one job that is not dispatched
    simp only [undispatched, hpending, retracts_retract] at hqueued ⊢
    rw [fetchSub_eq (m := s.queued - 1) (by omega)]
    omega
  | answer hpending =>
    refine hcounters.keep rfl rfl rfl ?_ rfl rfl
    simp only [undispatched, hpending, retracts_answer]
    rfl
  | batch _ _ _ hstage =>
    -- the whole batch becomes active at once, and no lane of an earlier one lives
    have hidle : s.lanes = [] := hlanes.idle (by rw [hstage]; rfl)
    refine ⟨?_, ?_⟩
    · rw [hqueued]
      simp [undispatched, hstage]
    · simp [guards, hidle]
  | dispatch _ hstage =>
    refine ⟨?_, ?_⟩
    · simp only [undispatched, hstage, WorkerStage.undispatched, WorkerStage.jobs,
        List.length_cons] at hqueued ⊢
      rw [fetchSub_eq (m := s.queued - 1) (by omega)]
      omega
    · rw [hstage] at hactive
      exact hactive
  | @spawn job rest _ hstage =>
    have hstart := hlanes.lane_of_waits job (by simp [before, hstage])
    refine ⟨?_, ?_⟩
    · rw [hqueued]
      simp [undispatched, hstage]
    · rw [hstage] at hactive
      -- the guard of the new lane takes over one of the batch's count
      have hguards : (s.lanes ++ [job]).countP (fun job => (s.lane job).guards) = s.guards + 1 := by
        rw [List.countP_append, List.countP_singleton, hstart]
        rfl
      show s.active = rest.length + (s.lanes ++ [job]).countP (fun job => (s.lane job).guards)
      rw [hguards, hactive]
      exact Nat.add_right_comm _ _ _
  | @spawnFails job rest error hpending hstage =>
    refine ⟨?_, ?_⟩
    · rw [hqueued]
      simp [undispatched, hstage, hpending]
    · rw [hstage] at hactive
      exact fetchSub_eq (hactive.trans (Nat.add_right_comm _ _ _))
  | joined hstage heq hlane =>
    refine hcounters.keep rfl rfl rfl rfl rfl ?_
    simp [guards, heq, hlane, LaneStage.guards]
  | joinedPanic error hpending hstage heq hlane =>
    refine hcounters.keep rfl rfl rfl ?_ rfl ?_
    · simp [undispatched, hpending]
    · simp [guards, heq, hlane, LaneStage.guards]
  | leave hstage =>
    have hnone : s.dropped = [] := hlanes.dropped (by simp [hstage])
    refine ⟨?_, ?_⟩
    · rw [hqueued, hnone]
      simp only [undispatched, hstage, WorkerStage.undispatched, WorkerStage.jobs, commandJobs_nil,
        List.length_nil]
      omega
    · rw [hstage] at hactive
      exact hactive
  | @ran job _ _ hmem hlane =>
    have hguards := guards_setLane hlanes hmem .route
    rw [hlane] at hguards
    refine hcounters.keep rfl rfl rfl rfl rfl ?_
    rw [Nat.add_right_cancel hguards]
    rfl
  | @replied job failures message hmem hlane =>
    have hguards := guards_setLane hlanes hmem .dropGuard
    rw [hlane] at hguards
    refine hcounters.keep rfl rfl rfl rfl rfl ?_
    show s.stage.unspawned + (s.setLane job .dropGuard).guards = _
    rw [Nat.add_right_cancel hguards]
  | panicked hmem hlane =>
    have hguards := guards_setLane hlanes hmem .unwind
    rw [hlane] at hguards
    refine hcounters.keep rfl rfl rfl rfl rfl ?_
    rw [Nat.add_right_cancel hguards]
    rfl
  | @dropGuard job panicked hmem halive =>
    have hguards := guards_setLane hlanes hmem (.ended panicked)
    rw [halive] at hguards
    have hone : (s.setLane job (.ended panicked)).guards + 1 = s.guards := hguards
    refine ⟨hqueued, fetchSub_eq ?_⟩
    show s.active = s.stage.unspawned + (s.setLane job (.ended panicked)).guards + 1
    omega

end CudaWorkerSystem

end PathHydra
