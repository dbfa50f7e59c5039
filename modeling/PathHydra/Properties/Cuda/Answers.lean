import Mathlib.Algebra.Order.BigOperators.Group.List
import PathHydra.Properties.Cuda.Worker

/-!
# Every job is answered

The images and algorithms of the jobs stay, so that those of a batch agree and a lane runs its job
on its own.  A result that a call returned stays, too.  Every step but a new call makes the `weight`
of the state smaller, and as long as a call has not returned, some such step is possible: a run that
goes on without new calls ends, and then every call has its result.
-/

namespace PathHydra

open CudaWorker

namespace CudaWorker

/-- The batch the worker collects. -/
def WorkerStage.batch? : WorkerStage → Option (List ℕ)
  | .collect batch | .collected batch _ | .lanes batch => some batch
  | .grow batch job => some (batch ++ [job])
  | _ => none

/-- The worker does not come back to its queues. -/
def WorkerStage.ending : WorkerStage → Bool
  | .drain _ | .replyShutdown _ | .leave | .exited => true
  | _ => false

lemma RouteImage.ptrEq_eq_true {image other : RouteImage} :
    image.ptrEq other = true ↔ image = other := by
  rcases image with _ | _ <;> rcases other with _ | _ <;> simp [RouteImage.ptrEq]

/-- How far a call is from its result. -/
def SubmitStage.weight {O : Type} : SubmitStage O → ℕ
  | .loadStopping => 60
  | .count => 58
  | .send => 56
  | .uncount => 2
  | .receive => 1
  | .returned _ => 0

/-- How much the worker has left to do with what it holds. -/
def WorkerStage.weight : WorkerStage → ℕ
  | .next | .exited => 0
  | .checkStopping _ => 19
  | .reserveFirst _ => 18
  | .collect batch => 10 * batch.length + 5
  | .collected batch _ => 10 * batch.length + 44
  | .grow batch _ => 10 * batch.length + 43
  | .lanes batch => 10 * batch.length + 4
  | .dispatch rest => 10 * rest.length + 3
  | .spawn _ rest => 10 * rest.length + 12
  | .join | .replyShutdown _ => 2
  | .drain _ => 3
  | .leave => 1

/-- How far a lane is from being joined. -/
def LaneStage.weight : LaneStage → ℕ
  | .start => 5
  | .route => 4
  | .dropGuard | .unwind => 3
  | .ended _ => 2

/-- How far the call of `shutdown` is from its report. -/
def ShutdownCallStage.weight : ShutdownCallStage → ℕ
  | .idle | .returned _ => 0
  | .storeStopping => 70
  | .loadQueued => 69
  | .loadActive _ => 68
  | .send _ _ => 67
  | .receive _ _ => 2
  | .join _ _ _ => 1

/-- The action is a step of a call, a lane or the worker that goes on. -/
def WorkerAction.continues {A O : Type} : WorkerAction A O → Bool
  | .submit _ _ | .callShutdown => false
  | _ => true

/-- The lane of the job runs its route. -/
def WorkerEvent.runs {A : Type} (job : ℕ) : WorkerEvent A → Bool
  | .ran job' _ _ => decide (job' = job)
  | _ => false

end CudaWorker

namespace CudaWorkerSystem

variable {A O : Type} {s s' : CudaWorkerSystem A O} {o : WorkerEvent A} {job : ℕ}

/-! ## Images and algorithms -/

lemma key_setCall {call : SubmitCall A O} {stage : SubmitStage O} {t : CudaWorkerSystem A O}
    (hcall : s.calls[job]? = some call) (hset : t.calls = s.calls.set job { call with stage := stage })
    (job' : ℕ) : t.key job' = s.key job' := by
  rw [key, hset, getElem?_setCall hcall]
  split
  · rename_i heq
    rw [heq, key, hcall]
    rfl
  · rfl

/-- The image and the algorithm of a job stay. -/
lemma Effect.key (h : Effect s s' o) {k : RouteImage × A} (hkey : s.key job = some k) :
    s'.key job = some k := by
  cases h with
  | submit image algorithm =>
    obtain ⟨call, hcall, rfl⟩ := Option.map_eq_some_iff.1 hkey
    have hlt : job < s.calls.length := (List.getElem?_eq_some_iff.1 hcall).1
    show ((s.calls ++ [_])[job]?).map _ = _
    rw [List.getElem?_append_left hlt, hcall]
    rfl
  | step hcall => rw [key_setCall hcall rfl, hkey]
  | count hcall => rw [key_setCall hcall rfl, hkey]
  | send hcall => rw [key_setCall hcall rfl, hkey]
  | uncount hcall => rw [key_setCall hcall rfl, hkey]
  | receive hcall => rw [key_setCall hcall rfl, hkey]
  | closed hcall => rw [key_setCall hcall rfl, hkey]
  | moves hmoves =>
    rw [CudaWorkerSystem.key, hmoves.calls]
    exact hkey
  | _ => exact hkey

/-- A job the worker has is that of a call. -/
lemma Ledger.key (h : Ledger s) (job : ℕ) (howed : s.owed job ≠ 0) : ∃ k, s.key job = some k := by
  rcases hcall : s.calls[job]? with _ | call
  · have hzero := h.others job (by rw [receives, hcall]; rfl)
    omega
  · exact ⟨(call.image, call.algorithm), by rw [CudaWorkerSystem.key, hcall]; rfl⟩

/-! ## Results stay -/

/-- The call of the job has returned. -/
def Returned (s : CudaWorkerSystem A O) (job : ℕ) (result : Except CudaError O) : Prop :=
  ∃ call, s.calls[job]? = some call ∧ call.stage = .returned result

lemma returned_setCall {call : SubmitCall A O} {stage : SubmitStage O} {job' : ℕ}
    {t : CudaWorkerSystem A O} {result : Except CudaError O} (hcall : s.calls[job']? = some call)
    (hset : t.calls = s.calls.set job' { call with stage := stage })
    (hopen : ∀ result, call.stage ≠ .returned result) (h : s.Returned job result) :
    t.Returned job result := by
  obtain ⟨old, hold, hstage⟩ := h
  refine ⟨old, ?_, hstage⟩
  rw [hset, getElem?_setCall hcall]
  split
  · rename_i heq
    rw [heq, hcall] at hold
    obtain rfl := Option.some.inj hold
    exact absurd hstage (hopen result)
  · exact hold

lemma Effect.returned (h : Effect s s' o) {result : Except CudaError O}
    (hreturned : s.Returned job result) : s'.Returned job result := by
  cases h with
  | submit image algorithm =>
    obtain ⟨call, hcall, hstage⟩ := hreturned
    refine ⟨call, ?_, hstage⟩
    show (s.calls ++ [_])[job]? = _
    rw [List.getElem?_append_left (List.getElem?_eq_some_iff.1 hcall).1, hcall]
  | step hcall hopen => exact returned_setCall hcall rfl hopen hreturned
  | count hcall hstage => exact returned_setCall hcall rfl (by simp [hstage]) hreturned
  | send hcall hstage => exact returned_setCall hcall rfl (by simp [hstage]) hreturned
  | uncount hcall hstage => exact returned_setCall hcall rfl (by simp [hstage]) hreturned
  | receive hcall hstage => exact returned_setCall hcall rfl (by simp [hstage]) hreturned
  | closed hcall hstage => exact returned_setCall hcall rfl (by simp [hstage]) hreturned
  | moves hmoves =>
    obtain ⟨call, hcall, hstage⟩ := hreturned
    exact ⟨call, by rw [hmoves.calls, hcall], hstage⟩
  | _ => exact hreturned

/-! ## Jobs run once -/

lemma setLane_begun {stage : LaneStage} {job' : ℕ} (hstage : stage ≠ .start)
    (h : s.lane job ≠ .start) : (s.setLane job' stage).lane job ≠ .start := by
  by_cases heq : job = job'
  · rw [heq, show (s.setLane job' stage).lane job' = stage from Function.update_self _ _ _]
    exact hstage
  · rw [show (s.setLane job' stage).lane job = s.lane job from Function.update_of_ne heq _ _]
    exact h

/-- A lane that has begun does not begin again. -/
lemma Effect.begun (h : Effect s s' o) (hbegun : s.lane job ≠ .start) : s'.lane job ≠ .start := by
  cases h with
  | moves hmoves =>
    rw [hmoves.lane]
    exact hbegun
  | ran => exact setLane_begun (by simp) hbegun
  | replied => exact setLane_begun (by simp) hbegun
  | panicked => exact setLane_begun (by simp) hbegun
  | dropGuard => exact setLane_begun (by simp) hbegun
  | _ => exact hbegun

/-- A lane runs the route of its job when it begins. -/
lemma Effect.runs (h : Effect s s' o) (hruns : o.runs job = true) :
    s.lane job = .start ∧ s'.lane job ≠ .start := by
  cases h with
  | @ran job' _ _ _ hlane =>
    obtain rfl : job' = job := of_decide_eq_true hruns
    refine ⟨hlane, ?_⟩
    rw [show (s.setLane job' .route).lane job' = .route from Function.update_self _ _ _]
    simp
  | _ => simp [WorkerEvent.runs] at hruns

/-! ## Batches -/

/-- The jobs of a batch are on one image and algorithm, and fit the lanes. -/
structure Alike (s : CudaWorkerSystem A O) (maximum : ℕ) (batch : List ℕ) : Prop where
  nonempty : batch ≠ []
  fits : batch.length ≤ maximum
  shared : ∃ k, ∀ job ∈ batch, s.key job = some k

lemma Alike.step {maximum : ℕ} {batch : List ℕ} (h : Alike s maximum batch)
    (heffect : Effect s s' o) : Alike s' maximum batch := by
  obtain ⟨k, hk⟩ := h.shared
  exact ⟨h.nonempty, h.fits, k, fun job hjob => heffect.key (hk job hjob)⟩

/-- What the worker collects is a batch, and its queues are empty at the end. -/
structure StageFits (maximum : ℕ) (s : CudaWorkerSystem A O) : Prop where
  batch : ∀ batch, s.stage.batch? = some batch → Alike s maximum batch
  room : ∀ batch job, s.stage = .collected batch job → batch.length < maximum
  grow : ∀ batch job, s.stage = .grow batch job → batch ≠ []
  ending : s.stage.ending = true → s.deferred = []
  exited : s.stage = .exited → s.channel = []

section Fits

variable {maximum : ℕ}

/-- A step that is not one of the worker. -/
lemma StageFits.keep (h : StageFits maximum s) (heffect : Effect s s' o)
    (hstage : s'.stage = s.stage) (hdeferred : s'.deferred = s.deferred)
    (hchannel : s.stage = .exited → s'.channel = s.channel) : StageFits maximum s' := by
  refine ⟨fun batch hbatch => ?_, fun batch job hjob => ?_, fun batch job hjob => ?_,
    fun hending => ?_, fun hexited => ?_⟩
  · exact (h.batch batch (hstage ▸ hbatch)).step heffect
  · exact h.room batch job (hstage ▸ hjob)
  · exact h.grow batch job (hstage ▸ hjob)
  · rw [hdeferred]
    exact h.ending (hstage ▸ hending)
  · rw [hstage] at hexited
    rw [hchannel hexited]
    exact h.exited hexited

/-- The worker goes to a stage without a batch from which it comes back to its queues. -/
lemma StageFits.leave (hbatch : s.stage.batch? = none) (hending : s.stage.ending = false) :
    StageFits maximum s := by
  refine ⟨fun batch hsome => ?_, fun batch job hstage => ?_, fun batch job hstage => ?_,
    fun htrue => ?_, fun hexited => ?_⟩
  · rw [hbatch] at hsome
    simp at hsome
  · rw [hstage] at hbatch
    simp [WorkerStage.batch?] at hbatch
  · rw [hstage] at hbatch
    simp [WorkerStage.batch?] at hbatch
  · rw [hending] at htrue
    simp at htrue
  · rw [hexited] at hending
    simp [WorkerStage.ending] at hending

/-- The worker goes on with a batch that it does not compare a job with. -/
lemma StageFits.ofBatch {batch : List ℕ} (hbatch : s.stage.batch? = some batch)
    (halike : Alike s maximum batch) (hroom : ∀ batch job, s.stage ≠ .collected batch job)
    (hgrow : ∀ batch job, s.stage = .grow batch job → batch ≠ []) : StageFits maximum s := by
  refine ⟨fun batch' hbatch' => ?_, fun batch job hstage => absurd hstage (hroom batch job), hgrow,
    fun hending => ?_, fun hexited => ?_⟩
  · rw [hbatch] at hbatch'
    rw [← Option.some.inj hbatch']
    exact halike
  · cases hstage : s.stage <;>
      simp [hstage, WorkerStage.batch?, WorkerStage.ending] at hbatch hending
  · simp [hexited, WorkerStage.batch?] at hbatch

/-- The worker ends with nothing deferred. -/
lemma StageFits.ofEnding (hbatch : s.stage.batch? = none) (hdeferred : s.deferred = [])
    (hexited : s.stage = .exited → s.channel = []) : StageFits maximum s := by
  refine ⟨fun batch hsome => ?_, fun batch job hstage => ?_, fun batch job hstage => ?_,
    fun _ => hdeferred, hexited⟩
  · rw [hbatch] at hsome
    simp at hsome
  · rw [hstage] at hbatch
    simp [WorkerStage.batch?] at hbatch
  · rw [hstage] at hbatch
    simp [WorkerStage.batch?] at hbatch

variable [DecidableEq A] {answer : Bool}

/-- A job that shares the image and the algorithm of the first one joins the batch. -/
lemma Alike.grow {batch : List ℕ} (h : Alike s maximum batch) (hroom : batch.length < maximum)
    (hshares : s.sharesBatch batch job = true) : Alike s maximum (batch ++ [job]) := by
  obtain ⟨k, hk⟩ := h.shared
  refine ⟨by simp, ?_, k, fun job' hjob' => ?_⟩
  · rw [List.length_append]
    exact hroom
  rcases List.mem_append.1 hjob' with hold | hnew
  · exact hk job' hold
  · rw [List.mem_singleton.1 hnew]
    rcases batch with _ | ⟨first, rest⟩
    · exact absurd rfl h.nonempty
    · simp only [sharesBatch, hk first List.mem_cons_self] at hshares
      rcases hkey : s.key job with _ | ⟨image, algorithm⟩
      · simp [hkey] at hshares
      · rw [hkey] at hshares
        simp only [Bool.and_eq_true, RouteImage.ptrEq_eq_true, decide_eq_true_eq] at hshares
        rw [hshares.1, hshares.2]

lemma loopStep_fits (hpos : 0 < maximum) (hledger : Ledger s) (h : StageFits maximum s)
    (heffect : Effect s s' o) (hstep : s.loopStep maximum answer = some (s', o)) :
    StageFits maximum s' := by
  unfold loopStep at hstep
  split at hstep
  · rename_i hstage
    split at hstep
    · cases hstep
      exact .leave rfl rfl
    · cases hstep
      exact .ofEnding rfl rfl (by simp)
    · cases hstep
      exact .leave rfl rfl
    · rename_i hdeferred _
      cases hstep
      exact .ofEnding rfl hdeferred (by simp)
    · cases hstep
  · split at hstep <;> cases hstep
    · exact .leave rfl rfl
    · exact .leave rfl rfl
  · rename_i first hstage
    split at hstep <;> cases hstep
    · obtain ⟨k, hk⟩ := hledger.key first (by simp [owed, before, hstage])
      -- the first job alone is a batch of one kind, as the bound is positive
      have halike : Alike s maximum [first] := by
        refine ⟨by simp, hpos, k, fun job hjob => ?_⟩
        rw [List.mem_singleton.1 hjob]
        exact hk
      exact .ofBatch rfl (halike.step heffect) (by simp) (by simp)
    · exact .leave rfl rfl
  · rename_i batch hstage
    have halike := (h.batch batch (by rw [hstage]; rfl)).step heffect
    split at hstep
    · cases hstep
      exact .ofBatch rfl halike (by simp) (by simp)
    · rename_i hroom
      split at hstep
      · cases hstep
        refine ⟨fun batch' hbatch => ?_, fun batch' job hcollected => ?_, by simp,
          (fun h => by cases h), (fun h => by cases h)⟩
        · rw [← Option.some.inj hbatch]
          exact halike
        · rw [← (WorkerStage.collected.inj hcollected).1]
          omega
      · cases hstep
        exact .ofBatch (by rw [hstage]; rfl) halike (by simp [hstage]) (by simp [hstage])
      · cases hstep
  · rename_i batch job hstage
    have halike := h.batch batch (by rw [hstage]; rfl)
    split at hstep
    · cases hstep
      exact .ofBatch rfl (halike.step heffect) (by simp) (by simp)
    · split at hstep <;> cases hstep
      · rename_i hshares
        -- the job found room and shares the image and the algorithm of the batch
        have hgrown := (halike.grow (h.room batch job hstage) hshares).step heffect
        refine .ofBatch rfl hgrown (by simp) fun batch' job' heq => ?_
        rw [← (WorkerStage.grow.inj heq).1]
        exact halike.nonempty
      · exact .ofBatch rfl (halike.step heffect) (by simp) (by simp)
  · rename_i batch job hstage
    have halike := (h.batch (batch ++ [job]) (by rw [hstage]; rfl)).step heffect
    split at hstep <;> cases hstep
    · exact .ofBatch rfl halike (by simp) (by simp)
    · -- without memory the job is rejected, and the batch goes on as it was
      have hfits : batch.length + 1 ≤ maximum := by simpa using halike.fits
      obtain ⟨k, hk⟩ := halike.shared
      refine .ofBatch rfl ⟨h.grow batch job hstage, by omega, k, fun job' hjob' => ?_⟩ (by simp)
        (by simp)
      exact hk job' (List.mem_append_left _ hjob')
  · split at hstep <;> cases hstep
    · exact .leave rfl rfl
    · exact .leave rfl rfl
  · cases hstep
    exact .leave rfl rfl
  · cases hstep
    exact .leave rfl rfl
  · split at hstep <;> cases hstep
    · exact .leave rfl rfl
    · exact .leave rfl rfl
  · rename_i hstage
    split at hstep
    · cases hstep
      exact .leave rfl rfl
    · split at hstep
      · cases hstep
        exact .leave (by rw [hstage]; rfl) (by rw [hstage]; rfl)
      · cases hstep
        exact .leave (by rw [hstage]; rfl) (by rw [hstage]; rfl)
      · cases hstep
  · rename_i rejected hstage
    have hdeferred := h.ending (by rw [hstage]; rfl)
    split at hstep
    · cases hstep
      exact .ofEnding rfl hdeferred (by simp)
    · cases hstep
      exact .ofEnding (by rw [hstage]; rfl) hdeferred (by simp [hstage])
    · cases hstep
      exact .ofEnding rfl hdeferred (by simp)
  · rename_i rejected hstage
    cases hstep
    exact .ofEnding rfl (h.ending (by rw [hstage]; rfl)) (by simp)
  · rename_i hstage
    cases hstep
    exact .ofEnding rfl (h.ending (by rw [hstage]; rfl)) fun _ => rfl
  · cases hstep

lemma workerStep_fits (hpos : 0 < maximum) (hledger : Ledger s) (h : StageFits maximum s)
    (heffect : Effect s s' o) (hstep : s.workerStep maximum answer = some (s', o)) :
    StageFits maximum s' := by
  unfold workerStep at hstep
  split at hstep
  · cases hstep
    exact h.keep heffect rfl rfl fun _ => rfl
  · cases hstep
    exact h.keep heffect rfl rfl fun _ => rfl
  · exact loopStep_fits hpos hledger h heffect hstep

omit [DecidableEq A] in
lemma callStep_fits (h : StageFits maximum s) (heffect : Effect s s' o)
    (hstep : s.callStep job = some (s', o)) : StageFits maximum s' := by
  unfold callStep at hstep
  split at hstep
  · cases hstep
  · split at hstep
    · cases hstep
      exact h.keep heffect rfl rfl fun _ => rfl
    · cases hstep
      exact h.keep heffect rfl rfl fun _ => rfl
    · split at hstep <;> cases hstep
      · exact h.keep heffect rfl rfl fun _ => rfl
      · rename_i hexited
        exact h.keep heffect rfl rfl fun hstage => absurd hstage hexited
    · cases hstep
      exact h.keep heffect rfl rfl fun _ => rfl
    · split at hstep
      · cases hstep
        exact h.keep heffect rfl rfl fun _ => rfl
      · split at hstep <;> cases hstep
        exact h.keep heffect rfl rfl fun _ => rfl
    · cases hstep

omit [DecidableEq A] in
lemma laneStep_fits {answer : LaneAnswer O} (h : StageFits maximum s) (heffect : Effect s s' o)
    (hstep : s.laneStep job answer = some (s', o)) : StageFits maximum s' := by
  unfold laneStep at hstep
  split at hstep
  · split at hstep
    · obtain ⟨k, -, heq⟩ := Option.map_eq_some_iff.1 hstep
      cases heq
      exact h.keep heffect rfl rfl fun _ => rfl
    · split at hstep <;> cases hstep
      · exact h.keep heffect rfl rfl fun _ => rfl
      · exact h.keep heffect rfl rfl fun _ => rfl
      · exact h.keep heffect rfl rfl fun _ => rfl
    · cases hstep
      exact h.keep heffect rfl rfl fun _ => rfl
    · cases hstep
      exact h.keep heffect rfl rfl fun _ => rfl
    · cases hstep
  · cases hstep

omit [DecidableEq A] in
lemma shutdownStep_fits (h : StageFits maximum s) (heffect : Effect s s' o)
    (hstep : s.shutdownStep = some (s', o)) : StageFits maximum s' := by
  unfold shutdownStep at hstep
  split at hstep
  · cases hstep
  · cases hstep
  · cases hstep
    exact h.keep heffect rfl rfl fun _ => rfl
  · cases hstep
    exact h.keep heffect rfl rfl fun _ => rfl
  · cases hstep
    exact h.keep heffect rfl rfl fun _ => rfl
  · split at hstep <;> cases hstep
    · exact h.keep heffect rfl rfl fun _ => rfl
    · rename_i hexited
      exact h.keep heffect rfl rfl fun hstage => absurd hstage hexited
  · split at hstep
    · cases hstep
      exact h.keep heffect rfl rfl fun _ => rfl
    · split at hstep <;> cases hstep
      exact h.keep heffect rfl rfl fun _ => rfl
  · split at hstep <;> cases hstep
    exact h.keep heffect rfl rfl fun _ => rfl

lemma step_fits (hpos : 0 < maximum) (hledger : Ledger s) (h : StageFits maximum s)
    {action : WorkerAction A O} (hstep : (cudaWorker A O maximum).step s action = some (s', o)) :
    StageFits maximum s' := by
  have heffect := step_effect hstep
  simp only [cudaWorker] at hstep
  split at hstep
  · cases hstep
    exact h.keep heffect rfl rfl fun _ => rfl
  · exact callStep_fits h heffect hstep
  · exact workerStep_fits hpos hledger h heffect hstep
  · exact laneStep_fits h heffect hstep
  · split at hstep <;> cases hstep
    exact h.keep heffect rfl rfl fun _ => rfl
  · exact shutdownStep_fits h heffect hstep

/-- A batch that is dispatched is the one that was collected. -/
lemma step_batch (h : StageFits maximum s) {action : WorkerAction A O} {batch : List ℕ}
    (hstep : (cudaWorker A O maximum).step s action = some (s', .batch batch)) :
    Alike s' maximum batch := by
  have heffect := step_effect hstep
  refine Alike.step ?_ heffect
  cases heffect with
  | batch _ _ _ hstage => exact h.batch batch (by rw [hstage]; rfl)

end Fits

/-! ## Steps that go on get somewhere -/

/-- What is left to do. -/
def weight (s : CudaWorkerSystem A O) : ℕ :=
  (s.calls.map fun call => call.stage.weight).sum + 40 * s.channel.length +
    20 * s.deferred.length + s.stage.weight + s.pending.length +
    (s.lanes.map fun job => (s.lane job).weight).sum + s.shutdown.weight

lemma sum_weight_set {α : Type} {f : α → ℕ} {l : List α} {i : ℕ} {a b : α} (h : l[i]? = some a) :
    ((l.set i b).map f).sum + f a = (l.map f).sum + f b := by
  induction l generalizing i with
  | nil => simp at h
  | cons first rest ih =>
    rcases i with _ | i
    · obtain rfl : first = a := by simpa using h
      simp only [List.set_cons_zero, List.map_cons, List.sum_cons]
      omega
    · have hrest := ih (i := i) (by simpa using h)
      simp only [List.set_cons_succ, List.map_cons, List.sum_cons]
      omega

/-- The call moves on, and something else may come into the channel. -/
lemma weight_setCall {call : SubmitCall A O} {stage : SubmitStage O} {t : CudaWorkerSystem A O}
    (hcall : s.calls[job]? = some call) (hset : t.calls = s.calls.set job { call with stage := stage })
    (hothers : 40 * t.channel.length + 20 * t.deferred.length + t.stage.weight + t.pending.length +
        (t.lanes.map fun job => (t.lane job).weight).sum + t.shutdown.weight + stage.weight <
      40 * s.channel.length + 20 * s.deferred.length + s.stage.weight + s.pending.length +
        (s.lanes.map fun job => (s.lane job).weight).sum + s.shutdown.weight + call.stage.weight) :
    t.weight < s.weight := by
  have hsum := sum_weight_set (f := fun call : SubmitCall A O => call.stage.weight)
    (b := { call with stage := stage }) hcall
  rw [weight, weight, hset]
  dsimp only at hsum
  omega

lemma callStep_weight (hstep : s.callStep job = some (s', o)) : s'.weight < s.weight := by
  unfold callStep at hstep
  split at hstep
  · cases hstep
  · rename_i call hcall
    split at hstep
    · rename_i hstage
      cases hstep
      refine weight_setCall hcall rfl ?_
      rw [hstage]
      split
      all_goals simp only [setCall, SubmitStage.weight]
      all_goals omega
    · rename_i hstage
      cases hstep
      refine weight_setCall hcall rfl ?_
      simp only [hstage, setCall, SubmitStage.weight]
      omega
    · rename_i hstage
      split at hstep <;> cases hstep
      · refine weight_setCall hcall rfl ?_
        simp only [hstage, setCall, SubmitStage.weight]
        omega
      · refine weight_setCall hcall rfl ?_
        simp only [hstage, setCall, SubmitStage.weight, List.length_append, List.length_singleton]
        omega
    · rename_i hstage
      cases hstep
      refine weight_setCall hcall rfl ?_
      simp only [hstage, setCall, SubmitStage.weight]
      omega
    · rename_i hstage
      split at hstep
      · cases hstep
        refine weight_setCall hcall rfl ?_
        simp only [hstage, setCall, SubmitStage.weight]
        omega
      · split at hstep <;> cases hstep
        refine weight_setCall hcall rfl ?_
        simp only [hstage, setCall, SubmitStage.weight]
        omega
    · cases hstep

/-- The lanes after one has moved on. -/
lemma sum_lanes_lt {lanes : List ℕ} {lane : ℕ → LaneStage} {stage : LaneStage} (hmem : job ∈ lanes)
    (hlt : stage.weight < (lane job).weight) :
    (lanes.map fun job' => (Function.update lane job stage job').weight).sum <
      (lanes.map fun job' => (lane job').weight).sum := by
  refine List.sum_lt_sum _ _ (fun job' _ => ?_) ⟨job, hmem, ?_⟩
  · by_cases heq : job' = job
    · rw [heq, Function.update_self]
      exact hlt.le
    · rw [Function.update_of_ne heq]
  · rw [Function.update_self]
    exact hlt

lemma laneStep_weight {answer : LaneAnswer O} (hstep : s.laneStep job answer = some (s', o)) :
    s'.weight < s.weight := by
  have hlane {t : CudaWorkerSystem A O} {stage : LaneStage} (hmem : job ∈ s.lanes)
      (hcalls : t.calls = s.calls) (hchannel : t.channel = s.channel)
      (hdeferred : t.deferred = s.deferred) (hstage : t.stage = s.stage)
      (hpending : t.pending = s.pending) (hlanes : t.lanes = s.lanes)
      (hshutdown : t.shutdown = s.shutdown) (hlane : t.lane = Function.update s.lane job stage)
      (hlt : stage.weight < (s.lane job).weight) : t.weight < s.weight := by
    have hsum := sum_lanes_lt hmem hlt
    rw [weight, weight, hcalls, hchannel, hdeferred, hstage, hpending, hlanes, hshutdown, hlane]
    omega
  unfold laneStep at hstep
  split at hstep
  · rename_i hmem
    split at hstep
    · rename_i hstart
      obtain ⟨k, -, heq⟩ := Option.map_eq_some_iff.1 hstep
      cases heq
      exact hlane hmem rfl rfl rfl rfl rfl rfl rfl rfl (by rw [hstart]; decide)
    · rename_i hroute
      split at hstep <;> cases hstep
      · exact hlane hmem rfl rfl rfl rfl rfl rfl rfl rfl (by rw [hroute]; decide)
      · exact hlane hmem rfl rfl rfl rfl rfl rfl rfl rfl (by rw [hroute]; decide)
      · exact hlane hmem rfl rfl rfl rfl rfl rfl rfl rfl (by rw [hroute]; decide)
    · rename_i hdrop
      cases hstep
      exact hlane hmem rfl rfl rfl rfl rfl rfl rfl rfl (by rw [hdrop]; decide)
    · rename_i hunwind
      cases hstep
      exact hlane hmem rfl rfl rfl rfl rfl rfl rfl rfl (by rw [hunwind]; decide)
    · cases hstep
  · cases hstep

lemma shutdownStep_weight (hstep : s.shutdownStep = some (s', o)) : s'.weight < s.weight := by
  unfold shutdownStep at hstep
  split at hstep
  · cases hstep
  · cases hstep
  · rename_i hshutdown
    cases hstep
    simp only [weight, hshutdown, ShutdownCallStage.weight]
    omega
  · rename_i hshutdown
    cases hstep
    simp only [weight, hshutdown, ShutdownCallStage.weight]
    omega
  · rename_i hshutdown
    cases hstep
    simp only [weight, hshutdown, ShutdownCallStage.weight]
    omega
  · rename_i hshutdown
    split at hstep <;> cases hstep
    · simp only [weight, hshutdown, ShutdownCallStage.weight]
      omega
    · simp only [weight, hshutdown, ShutdownCallStage.weight, List.length_append,
        List.length_singleton]
      omega
  · rename_i hshutdown
    split at hstep
    · cases hstep
      simp only [weight, hshutdown, ShutdownCallStage.weight]
      omega
    · split at hstep <;> cases hstep
      simp only [weight, hshutdown, ShutdownCallStage.weight]
      omega
  · rename_i hshutdown
    split at hstep <;> cases hstep
    simp only [weight, hshutdown, ShutdownCallStage.weight]
    omega

section Progress

variable [DecidableEq A] {maximum : ℕ} {answer : Bool}

lemma length_rejectAll (message : String) (jobs : List ℕ) :
    (jobs.flatMap fun job => rejectQueued job message).length = 2 * jobs.length := by
  simp [rejectQueued, List.length_flatMap, Nat.mul_comm]

lemma length_rejectAllWithError (error : CudaError) (jobs : List ℕ) :
    (jobs.flatMap fun job => rejectQueuedWithError job error).length = 2 * jobs.length := by
  simp [rejectQueuedWithError, List.length_flatMap, Nat.mul_comm]

omit [DecidableEq A] in
lemma sum_lanes_concat (s : CudaWorkerSystem A O) (job : ℕ) :
    ((s.lanes ++ [job]).map fun job => (s.lane job).weight).sum ≤
      (s.lanes.map fun job => (s.lane job).weight).sum + 5 := by
  rw [List.map_append, List.sum_append]
  have hle : (s.lane job).weight ≤ 5 := by
    rcases s.lane job with _ | _ | _ | _ | _ <;> simp [LaneStage.weight]
  simpa using hle

lemma loopStep_weight (hpending : s.pending = [])
    (hstep : s.loopStep maximum answer = some (s', o)) : s'.weight < s.weight := by
  unfold loopStep at hstep
  split at hstep
  · rename_i hstage
    split at hstep
    · rename_i hdeferred
      cases hstep
      simp only [weight, hstage, hdeferred, WorkerStage.weight, List.length_cons]
      omega
    · rename_i rest hdeferred
      cases hstep
      -- every job left is rejected, for two operations each
      have hjobs : (rest.filterMap Command.job?).length ≤ rest.length := List.length_filterMap_le _ _
      simp only [weight, hstage, hdeferred, hpending, WorkerStage.weight, List.length_cons,
        List.length_nil, length_rejectAll]
      omega
    · rename_i hdeferred hchannel
      cases hstep
      simp only [weight, hstage, hchannel, WorkerStage.weight, List.length_cons]
      omega
    · rename_i hdeferred hchannel
      cases hstep
      simp only [weight, hstage, hchannel, WorkerStage.weight, List.length_cons]
      omega
    · cases hstep
  · rename_i first hstage
    split at hstep <;> cases hstep
    · simp only [weight, hstage, hpending, rejectQueued, WorkerStage.weight, List.length_cons,
        List.length_nil]
      omega
    · simp only [weight, hstage, WorkerStage.weight]
      omega
  · rename_i first hstage
    split at hstep <;> cases hstep
    · simp only [weight, hstage, WorkerStage.weight, List.length_singleton]
      omega
    · simp only [weight, hstage, hpending, rejectQueuedWithError, WorkerStage.weight,
        List.length_cons, List.length_nil]
      omega
  · rename_i batch hstage
    split at hstep
    · cases hstep
      simp only [weight, hstage, WorkerStage.weight]
      omega
    · split at hstep
      · rename_i hchannel
        cases hstep
        simp only [weight, hstage, hchannel, WorkerStage.weight, List.length_cons]
        omega
      · rename_i hchannel
        cases hstep
        simp only [weight, hchannel, List.length_cons, List.length_append, List.length_nil]
        omega
      · cases hstep
  · rename_i batch job hstage
    split at hstep
    · cases hstep
      simp only [weight, hstage, hpending, rejectQueued, WorkerStage.weight, List.length_cons,
        List.length_nil]
      omega
    · split at hstep <;> cases hstep
      · simp only [weight, hstage, WorkerStage.weight]
        omega
      · simp only [weight, hstage, WorkerStage.weight, List.length_append, List.length_singleton]
        omega
  · rename_i batch job hstage
    split at hstep <;> cases hstep
    · simp only [weight, hstage, WorkerStage.weight, List.length_append, List.length_singleton]
      omega
    · simp only [weight, hstage, hpending, rejectQueuedWithError, WorkerStage.weight,
        List.length_cons, List.length_nil]
      omega
  · rename_i batch hstage
    split at hstep <;> cases hstep
    · simp only [weight, hstage, WorkerStage.weight]
      omega
    · simp only [weight, hstage, hpending, WorkerStage.weight, List.length_nil,
        length_rejectAllWithError]
      omega
  · rename_i hstage
    cases hstep
    simp only [weight, hstage, WorkerStage.weight, List.length_nil]
    omega
  · rename_i job rest hstage
    cases hstep
    simp only [weight, hstage, WorkerStage.weight, List.length_cons]
    omega
  · rename_i job rest hstage
    split at hstep <;> cases hstep
    · -- the weight of the lane is below that of a job to be spawned
      have hlanes := sum_lanes_concat s job
      simp only [weight, hstage, WorkerStage.weight]
      omega
    · simp only [weight, hstage, hpending, WorkerStage.weight, List.length_singleton,
        List.length_nil]
      omega
  · rename_i hstage
    split at hstep
    · cases hstep
      simp only [weight, hstage, WorkerStage.weight]
      omega
    · rename_i hlanes
      split at hstep
      · rename_i hlane
        cases hstep
        simp only [weight, hlanes, hlane, LaneStage.weight, List.map_cons, List.sum_cons]
        omega
      · rename_i hlane
        cases hstep
        simp only [weight, hlanes, hlane, hpending, LaneStage.weight, List.map_cons, List.sum_cons,
          List.length_singleton, List.length_nil]
        omega
      · cases hstep
  · rename_i rejected hstage
    split at hstep
    · rename_i hchannel
      cases hstep
      simp only [weight, hstage, hchannel, hpending, rejectQueued, WorkerStage.weight,
        List.length_cons, List.length_nil]
      omega
    · rename_i hchannel
      cases hstep
      simp only [weight, hchannel, List.length_cons]
      omega
    · cases hstep
      simp only [weight, hstage, WorkerStage.weight]
      omega
  · rename_i rejected hstage
    cases hstep
    simp only [weight, hstage, WorkerStage.weight]
    omega
  · rename_i hstage
    cases hstep
    simp only [weight, hstage, WorkerStage.weight, List.length_nil]
    omega
  · cases hstep

lemma workerStep_weight (hstep : s.workerStep maximum answer = some (s', o)) :
    s'.weight < s.weight := by
  unfold workerStep at hstep
  split at hstep
  · rename_i hpending
    cases hstep
    simp only [weight, hpending, List.length_cons]
    omega
  · rename_i hpending
    cases hstep
    simp only [weight, reply, hpending, List.length_cons]
    omega
  · rename_i hpending
    exact loopStep_weight hpending hstep

/-- Every step that goes on leaves less to do. -/
lemma step_weight {action : WorkerAction A O} (hcontinues : action.continues = true)
    (hstep : (cudaWorker A O maximum).step s action = some (s', o)) : s'.weight < s.weight := by
  rcases action with ⟨image, algorithm⟩ | job | answer | ⟨job, answer⟩ | _ | _
  · simp [WorkerAction.continues] at hcontinues
  · exact callStep_weight hstep
  · exact workerStep_weight hstep
  · exact laneStep_weight hstep
  · simp [WorkerAction.continues] at hcontinues
  · exact shutdownStep_weight hstep

/-! ## A call that waits is not stuck -/

/-- Where the worker can be stuck: at empty queues, at a lane that has not ended, or at the end. -/
lemma loopStep_eq_none (hnone : ∀ answer, s.loopStep maximum answer = none) :
    (s.stage = .next ∧ s.deferred = [] ∧ s.channel = []) ∨
      (s.stage = .join ∧ ∃ job ∈ s.lanes, ∀ panicked, s.lane job ≠ .ended panicked) ∨
      s.stage = .exited := by
  have hfalse := hnone false
  rcases hstage : s.stage with _ | first | first | batch | ⟨batch, job⟩ | ⟨batch, job⟩ | batch |
    rest | ⟨job, rest⟩ | _ | rejected | rejected | _ | _
  · rcases hdeferred : s.deferred with _ | ⟨_ | _, rest⟩
    · rcases hchannel : s.channel with _ | ⟨_ | _, rest⟩
      · exact .inl ⟨rfl, rfl, rfl⟩
      · simp [loopStep, hstage, hdeferred, hchannel] at hfalse
      · simp [loopStep, hstage, hdeferred, hchannel] at hfalse
    · simp [loopStep, hstage, hdeferred] at hfalse
    · simp [loopStep, hstage, hdeferred] at hfalse
  · simp only [loopStep, hstage] at hfalse
    split at hfalse <;> cases hfalse
  · simp [loopStep, hstage] at hfalse
  · simp [loopStep, hstage] at hfalse
  · simp only [loopStep, hstage] at hfalse
    split at hfalse
    · cases hfalse
    · split at hfalse <;> cases hfalse
  · simp [loopStep, hstage] at hfalse
  · simp [loopStep, hstage] at hfalse
  · rcases rest with _ | _ <;> simp [loopStep, hstage] at hfalse
  · simp [loopStep, hstage] at hfalse
  · rcases hlanes : s.lanes with _ | ⟨job, rest⟩
    · simp [loopStep, hstage, hlanes] at hfalse
    · refine .inr (.inl ⟨rfl, job, List.mem_cons_self, fun panicked hlane => ?_⟩)
      rcases panicked with _ | _ <;> simp [loopStep, hstage, hlanes, hlane] at hfalse
  · rcases hchannel : s.channel with _ | ⟨_ | _, rest⟩ <;>
      simp [loopStep, hstage, hchannel] at hfalse
  · simp [loopStep, hstage] at hfalse
  · simp [loopStep, hstage] at hfalse
  · exact .inr (.inr rfl)

omit [DecidableEq A] in
/-- A lane that has not ended is not stuck. -/
lemma laneStep_ne_none (hledger : Ledger s) (hlanes : LanesOnce s) (hmem : job ∈ s.lanes)
    (hlane : ∀ panicked, s.lane job ≠ .ended panicked) : s.laneStep job .panics ≠ none := by
  unfold laneStep
  rw [if_pos hmem]
  rcases hstage : s.lane job with _ | _ | _ | _ | panicked
  · have hone := lanesOwe_of_mem hlanes hmem (by rw [hstage]; rfl)
    rcases hcall : s.calls[job]? with _ | call
    · have hzero := hledger.others job (by rw [receives, hcall]; rfl)
      omega
    · simp [key, hcall]
  · simp
  · simp
  · simp
  · exact absurd hstage (hlane panicked)

/-- When no step goes on, every call has returned. -/
lemma all_returned (hledger : Ledger s) (hlanes : LanesOnce s) (hfits : StageFits maximum s)
    (hstuck : ∀ action : WorkerAction A O, action.continues = true →
      (cudaWorker A O maximum).step s action = none) :
    ∀ job < s.calls.length, ∃ result, s.Returned job result := by
  have hworker (answer : Bool) : s.workerStep maximum answer = none := hstuck (.worker answer) rfl
  have hpending : s.pending = [] := by
    rcases hpending : s.pending with _ | ⟨_ | _, rest⟩
    · rfl
    · have hnone := hworker true
      simp [workerStep, hpending] at hnone
    · have hnone := hworker true
      simp [workerStep, hpending] at hnone
  have hloop (answer : Bool) : s.loopStep maximum answer = none := by
    have hnone := hworker answer
    simpa only [workerStep, hpending] using hnone
  -- the worker waits for a command, for a lane, or has ended; a lane could always go on
  have hempty : s.stage.jobs = [] ∧ s.deferred = [] ∧ s.channel = [] ∧ s.lanes = [] := by
    rcases loopStep_eq_none hloop with ⟨hstage, hdeferred, hchannel⟩ | ⟨hstage, job, hmem, hlane⟩ |
      hstage
    · exact ⟨by rw [hstage]; rfl, hdeferred, hchannel, hlanes.idle (by rw [hstage]; rfl)⟩
    · exact absurd (hstuck (.lane job .panics) rfl) (laneStep_ne_none hledger hlanes hmem hlane)
    · exact ⟨by rw [hstage]; rfl, hfits.ending (by rw [hstage]; rfl), hfits.exited hstage,
        hlanes.idle (by rw [hstage]; rfl)⟩
  obtain ⟨hjobs, hdeferred, hchannel, hnolanes⟩ := hempty
  intro job hlt
  obtain ⟨call, hcall⟩ : ∃ call, s.calls[job]? = some call := ⟨_, List.getElem?_eq_getElem hlt⟩
  have hnone : s.callStep job = none := hstuck (.call job) rfl
  simp only [callStep, hcall] at hnone
  rcases hstage : call.stage with _ | _ | _ | _ | _ | result
  · simp [hstage] at hnone
  · simp [hstage] at hnone
  · simp only [hstage] at hnone
    split at hnone <;> cases hnone
  · simp [hstage] at hnone
  · -- nobody holds the job any longer, so the call would see its channel closed
    have hholds : s.holds job = false := by
      simp only [holds, hjobs, hdeferred, hchannel, hnolanes, hpending]
      rfl
    simp only [hstage, hholds] at hnone
    split at hnone <;> simp at hnone
  · exact ⟨result, call, hcall, hstage⟩

end Progress

/-! ## Counters do not wrap -/

lemma fetchSub_le {n : ℕ} (h : 0 < n) : fetchSub n ≤ n := by
  rw [fetchSub_eq (m := n - 1) (by omega)]
  exact Nat.sub_le n 1

/-- A step takes no job off a counter that is zero. -/
lemma Effect.noWrap (h : Effect s s' o) (hcounters : Counters s) :
    s'.queued ≤ s.queued + 1 ∧
      (s'.active ≤ s.active ∨ ∃ batch, o = .batch batch ∧ s'.active = batch.length) := by
  have hqueued := hcounters.queued
  have hactive := hcounters.active
  cases h with
  | count => exact ⟨le_rfl, .inl le_rfl⟩
  | @uncount job call result hcall hstage =>
    have hpos : 0 < s.calls.countP fun call => call.stage.counted := by
      refine List.countP_pos_iff.2 ⟨call, List.mem_of_getElem? hcall, ?_⟩
      rw [hstage]
      rfl
    exact ⟨Nat.le_succ_of_le (fetchSub_le (by omega)), .inl le_rfl⟩
  | moves hmoves =>
    rw [hmoves.queued, hmoves.active]
    exact ⟨Nat.le_succ _, .inl le_rfl⟩
  | retract failures hpending =>
    simp only [undispatched, hpending, retracts_retract] at hqueued
    exact ⟨Nat.le_succ_of_le (fetchSub_le (by omega)), .inl le_rfl⟩
  | batch => exact ⟨Nat.le_succ _, .inr ⟨_, rfl, rfl⟩⟩
  | dispatch _ hstage =>
    simp only [undispatched, hstage, WorkerStage.undispatched, WorkerStage.jobs,
      List.length_cons] at hqueued
    exact ⟨Nat.le_succ_of_le (fetchSub_le (by omega)), .inl le_rfl⟩
  | spawnFails _ _ hstage =>
    simp only [hstage, WorkerStage.unspawned] at hactive
    exact ⟨Nat.le_succ _, .inl (fetchSub_le (by omega))⟩
  | @dropGuard job _ hmem hguards =>
    have hpos : 0 < s.guards := List.countP_pos_iff.2 ⟨job, hmem, hguards⟩
    exact ⟨Nat.le_succ _, .inl (fetchSub_le (by omega))⟩
  | _ => exact ⟨Nat.le_succ _, .inl le_rfl⟩

/-! ## Runs -/

section Runs

variable [DecidableEq A] {maximum : ℕ} {actions : List (WorkerAction A O)} {os : List (WorkerEvent A)}

/-- What every state of the worker keeps. -/
structure Safe (maximum : ℕ) (s : CudaWorkerSystem A O) : Prop where
  ledger : Ledger s
  lanes : LanesOnce s
  counters : Counters s
  fits : StageFits maximum s

lemma step_safe (hpos : 0 < maximum) {action : WorkerAction A O} (h : Safe maximum s)
    (hstep : (cudaWorker A O maximum).step s action = some (s', o)) : Safe maximum s' := by
  have heffect := step_effect hstep
  exact ⟨heffect.ledger h.ledger h.lanes, heffect.lanesOnce h.ledger h.lanes,
    heffect.counters h.lanes h.counters, step_fits hpos h.ledger h.fits hstep⟩

omit [DecidableEq A] in
lemma safe_start {s₀ : CudaWorkerSystem A O} (h : start maximum = .ok s₀) :
    0 < maximum ∧ Safe maximum s₀ := by
  unfold start at h
  split at h
  · cases h
  · rename_i hne
    obtain rfl := Except.ok.inj h
    refine ⟨Nat.pos_of_ne_zero hne, ⟨?_, ?_, ?_, .leave rfl rfl⟩⟩
    · refine ⟨fun job hjob => ?_, fun job _ => rfl, fun _ _ => rfl⟩
      simp [receives] at hjob
    · exact ⟨.nil, fun _ => rfl, fun job hjob => absurd rfl hjob, fun _ => rfl⟩
    · exact ⟨rfl, rfl⟩

/-- A run that goes on without new calls is no longer than what there is to do. -/
lemma run_weight (hcontinues : ∀ action ∈ actions, action.continues = true)
    (hrun : (cudaWorker A O maximum).run s actions = some (s', os)) :
    actions.length + s'.weight ≤ s.weight := by
  induction actions generalizing s os with
  | nil =>
    cases hrun
    exact (Nat.zero_add _).le
  | cons action rest ih =>
    obtain ⟨s₁, o, os', hstep, hrest, rfl⟩ := Machine.run_cons_eq_some hrun
    have hfirst := step_weight (hcontinues action List.mem_cons_self) hstep
    have htail := ih (fun action h => hcontinues action (List.mem_cons_of_mem _ h)) hrest
    rw [List.length_cons]
    omega

lemma run_returned {result : Except CudaError O} (hreturned : s.Returned job result)
    (hrun : (cudaWorker A O maximum).run s actions = some (s', os)) : s'.Returned job result :=
  Machine.run_invariant (I := fun s => s.Returned job result)
    (fun _ _ _ _ h hstep => (step_effect hstep).returned h) hreturned hrun

lemma run_key {k : RouteImage × A} (hkey : s.key job = some k)
    (hrun : (cudaWorker A O maximum).run s actions = some (s', os)) : s'.key job = some k :=
  Machine.run_invariant (I := fun s => s.key job = some k)
    (fun _ _ _ _ h hstep => (step_effect hstep).key h) hkey hrun

/-- A job runs at most once, and not when its lane has begun. -/
lemma run_runs (hrun : (cudaWorker A O maximum).run s actions = some (s', os)) (job : ℕ) :
    (s.lane job ≠ .start → os.countP (·.runs job) = 0) ∧ os.countP (·.runs job) ≤ 1 := by
  induction actions generalizing s os with
  | nil =>
    cases hrun
    exact ⟨fun _ => rfl, Nat.zero_le 1⟩
  | cons action rest ih =>
    obtain ⟨s₁, o, os', hstep, hrest, rfl⟩ := Machine.run_cons_eq_some hrun
    have heffect := step_effect hstep
    obtain ⟨hnone, hone⟩ := ih hrest
    rcases hruns : o.runs job with _ | _
    · rw [List.countP_cons_of_neg (by simp [hruns])]
      exact ⟨fun hbegun => hnone (heffect.begun hbegun), hone⟩
    · obtain ⟨hstart, hbegun⟩ := heffect.runs hruns
      rw [List.countP_cons_of_pos hruns, hnone hbegun]
      exact ⟨fun hne => absurd hstart hne, le_rfl⟩

/-- A job runs on its own image and algorithm, and a batch shares its own. -/
lemma run_events (hpos : 0 < maximum) (h : Safe maximum s)
    (hrun : (cudaWorker A O maximum).run s actions = some (s', os)) :
    (∀ job image algorithm, .ran job image algorithm ∈ os → s'.key job = some (image, algorithm)) ∧
      ∀ batch, .batch batch ∈ os → Alike s' maximum batch := by
  induction actions generalizing s os with
  | nil =>
    cases hrun
    exact ⟨by simp, by simp⟩
  | cons action rest ih =>
    obtain ⟨s₁, o, os', hstep, hrest, rfl⟩ := Machine.run_cons_eq_some hrun
    obtain ⟨hran, hbatch⟩ := ih (step_safe hpos h hstep) hrest
    refine ⟨fun job image algorithm hmem => ?_, fun batch hmem => ?_⟩
    · rcases List.mem_cons.1 hmem with rfl | hmem
      · have heffect := step_effect hstep
        have hkey : s.key job = some (image, algorithm) := by
          cases heffect with
          | ran _ _ hkey => exact hkey
        exact run_key (heffect.key hkey) hrest
      · exact hran job image algorithm hmem
    · rcases List.mem_cons.1 hmem with rfl | hmem
      · have halike := step_batch h.fits hstep
        obtain ⟨k, hk⟩ := halike.shared
        exact ⟨halike.nonempty, halike.fits, k, fun job hjob => run_key (hk job hjob) hrest⟩
      · exact hbatch batch hmem

/-- The worker answers every job once.  In every run, a job whose call waits is in exactly one place
where it is answered; a result that was returned stays; a run that goes on without new calls ends,
and then every call has its result.  A job runs at most once, on its own image and algorithm; a
batch fits the lanes and shares image and algorithm; nothing is deferred when the worker ends.  The
counter of queued jobs is the number of jobs that were counted, and neither dispatched nor rejected
nor uncounted, that of active ones the number of jobs of the batch whose lane has not ended, which
is zero between batches, and neither counter wraps. -/
theorem worker_answersOnce {s₀ : CudaWorkerSystem A O} (hstart : start maximum = .ok s₀)
    (hrun : (cudaWorker A O maximum).run s₀ actions = some (s, os)) :
    (∀ job, s.receives job = true →
        s.owed job + s.lanesOwe job + (s.replies job).length + s.dropped.count job = 1) ∧
      (∀ job result actions' s' os', s.Returned job result →
        (cudaWorker A O maximum).run s actions' = some (s', os') → s'.Returned job result) ∧
      (∀ actions' s' os', (∀ action ∈ actions', action.continues = true) →
        (cudaWorker A O maximum).run s actions' = some (s', os') →
        actions'.length ≤ s.weight ∧
          ((∀ action : WorkerAction A O, action.continues = true →
            (cudaWorker A O maximum).step s' action = none) →
          ∀ job < s'.calls.length, ∃ result, s'.Returned job result)) ∧
      (∀ job, os.countP (·.runs job) ≤ 1 ∧ ∀ image algorithm, .ran job image algorithm ∈ os →
        s.key job = some (image, algorithm)) ∧
      (∀ batch, .batch batch ∈ os → Alike s maximum batch) ∧
      (s.stage.ending = true → s.deferred = []) ∧
      s.queued = s.calls.countP (fun call => call.stage.counted) + s.undispatched +
        s.dropped.length ∧
      s.active = s.stage.unspawned + s.guards ∧
      (s.stage.batching = false → s.active = 0) ∧
      ∀ action s' o, (cudaWorker A O maximum).step s action = some (s', o) →
        s'.queued ≤ s.queued + 1 ∧
          (s'.active ≤ s.active ∨ ∃ batch, o = .batch batch ∧ s'.active = batch.length) := by
  obtain ⟨hpos, hsafe₀⟩ := safe_start hstart
  have hsafe : Safe maximum s :=
    Machine.run_invariant (fun _ _ _ _ h hstep => step_safe hpos h hstep) hsafe₀ hrun
  obtain ⟨hran, hbatch⟩ := run_events hpos hsafe₀ hrun
  refine ⟨hsafe.ledger.receiving, fun job result actions' s' os' => run_returned,
    fun actions' s' os' hcontinues hrun' => ⟨?_, fun hstuck => ?_⟩,
    fun job => ⟨(run_runs hrun job).2, hran job⟩, hbatch, hsafe.fits.ending,
    hsafe.counters.queued, hsafe.counters.active, fun hidle => ?_,
    fun action s' o hstep => (step_effect hstep).noWrap hsafe.counters⟩
  · have hweight := run_weight hcontinues hrun'
    omega
  · have hsafe' : Safe maximum s' :=
      Machine.run_invariant (fun _ _ _ _ h hstep => step_safe hpos h hstep) hsafe hrun'
    exact all_returned hsafe'.ledger hsafe'.lanes hsafe'.fits hstuck
  · rw [hsafe.counters.active, guards, hsafe.lanes.idle hidle]
    cases hstage : s.stage <;>
      simp [hstage] at hidle ⊢

end Runs

/-- Two calls on one image. -/
def submitTwo : List (WorkerAction Bool ℕ) :=
  [.submit (.resident 7) true, .submit (.resident 7) true, .call 0, .call 0, .call 0, .call 1,
    .call 1, .call 1]

/-- The worker collects both, and dispatches them to two lanes. -/
def dispatchTwo : List (WorkerAction Bool ℕ) :=
  List.replicate 13 (.worker true)

/-- The first lane returns, the second panics, and both calls get their results. -/
def answerTwo : List (WorkerAction Bool ℕ) :=
  [.lane 0 .panics, .lane 0 (.returns (.ok 5)), .lane 0 .panics, .lane 1 .panics, .lane 1 .panics,
    .lane 1 .panics, .worker true, .worker true, .worker true, .worker true, .call 0, .call 1]

theorem worker_answersOnce_two : ∃ s₀ s os, start (A := Bool) (O := ℕ) 2 = .ok s₀ ∧
    (cudaWorker Bool ℕ 2).run s₀ (submitTwo ++ dispatchTwo ++ answerTwo) = some (s, os) ∧
    s.Returned 0 (.ok 5) ∧
    s.Returned 1 (.error (workerError "a CUDA batch lane panicked before returning a route")) ∧
    .batch [0, 1] ∈ os ∧ Alike s 2 [0, 1] ∧ os.countP (·.runs 1) ≤ 1 ∧ s.active = 0 := by
  have hends : ∃ s₀ s os, start (A := Bool) (O := ℕ) 2 = .ok s₀ ∧
      (cudaWorker Bool ℕ 2).run s₀ (submitTwo ++ dispatchTwo ++ answerTwo) = some (s, os) ∧
      s.Returned 0 (.ok 5) ∧
      s.Returned 1 (.error (workerError "a CUDA batch lane panicked before returning a route")) ∧
      .batch [0, 1] ∈ os ∧ s.stage.batching = false :=
    ⟨_, _, _, rfl, rfl, ⟨_, rfl, rfl⟩, ⟨_, rfl, rfl⟩, List.mem_of_getElem? (i := 15) rfl, rfl⟩
  obtain ⟨s₀, s, os, hstart, hrun, hfirst, hsecond, hbatch, hidle⟩ := hends
  obtain ⟨-, -, -, hruns, halike, -, -, -, hactive, -⟩ := worker_answersOnce hstart hrun
  exact ⟨s₀, s, os, hstart, hrun, hfirst, hsecond, hbatch, halike _ hbatch, (hruns 1).1,
    hactive hidle⟩

/-- A call counts its job before it sends it: the counter is one, and no job has been sent. -/
theorem queued_before_send : ∃ s₀ s os, start (A := Bool) (O := ℕ) 1 = .ok s₀ ∧
    (cudaWorker Bool ℕ 1).run s₀ [.submit (.resident 7) true, .call 0, .call 0] = some (s, os) ∧
    s.queued = 1 ∧ s.unsent 0 = true ∧ s.calls.length = 1 ∧
    s.undispatched + s.dropped.length = 0 :=
  ⟨_, _, _, rfl, rfl, rfl, rfl, rfl, rfl⟩

end CudaWorkerSystem

end PathHydra
