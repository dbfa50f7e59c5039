import PathHydra.Construction.Api.Requests
import PathHydra.Properties.Engine.Cancellation
import PathHydra.Properties.Routing.Polls

/-!
# Request handles are used once

The identifiers of requests ascend as they are created.  The exchange of the phase lets one call of
`route` pass, the swap of the flag has one winner whichever way a cancellation takes to it, and the
store of the last phase is never undone.
-/

namespace PathHydra

/-! ## Calls in a list -/

lemma getElem?_set_cases {α : Type} {l : List α} {i j : ℕ} {a b : α}
    (h : (l.set i a)[j]? = some b) : (j = i ∧ b = a) ∨ (j ≠ i ∧ l[j]? = some b) := by
  rw [List.getElem?_set] at h
  split_ifs at h with hij hlt
  · exact .inl ⟨hij.symm, (Option.some.inj h).symm⟩
  · exact .inr ⟨Ne.symm hij, h⟩

lemma getElem?_concat_cases {α : Type} {l : List α} {j : ℕ} {a b : α}
    (h : (l ++ [a])[j]? = some b) : (j = l.length ∧ b = a) ∨ l[j]? = some b := by
  rcases lt_trichotomy j l.length with hlt | rfl | hgt
  · rw [List.getElem?_append_left hlt] at h
    exact .inr h
  · rw [List.getElem?_concat_length] at h
    exact .inl ⟨rfl, (Option.some.inj h).symm⟩
  · rw [List.getElem?_eq_none (by simp; omega)] at h
    cases h

/-- The stages of a route past its exchange of the phase. -/
def RequestStage.executes : RequestStage → Bool
  | .loadShuttingDown | .exchange | .refused => false
  | _ => true

/-- The stages of a route past the beginning of its search. -/
def RequestStage.begun : RequestStage → Bool
  | .searching | .deregister _ | .complete | .drop | .returned => true
  | _ => false

/-- The stages of a cancellation that has won the swap of the flag. -/
def CancelStage.owns : CancelStage → Bool
  | .reload newlySignalled => newlySignalled
  | .returned outcome => decide (outcome = .signalled)
  | _ => false

/-- The identifier of a handle that is given. -/
def FacadeEvent.issued : FacadeEvent → Option U64
  | .handle (.ok id) => some id
  | _ => none

/-- A search of the request begins. -/
def FacadeEvent.polls (request : ℕ) : FacadeEvent → Bool
  | .polled request' _ => decide (request' = request)
  | _ => false

namespace FacadeSystem

variable {s s' : FacadeSystem} {o : FacadeEvent}

/-- A call of `route` on the request has passed the exchange of its phase. -/
def Executes (s : FacadeSystem) (call request : ℕ) : Prop :=
  ∃ stage, s.routes[call]? = some ⟨request, stage⟩ ∧ stage.executes = true

/-- A call of `cancel` on the request has won the swap of its flag. -/
def Owns (s : FacadeSystem) (call request : ℕ) : Prop :=
  ∃ entry, s.cancels[call]? = some entry ∧ entry.request = request ∧ entry.stage.owns = true

/-- A call of `cancel` on the request has returned. -/
def Returned (s : FacadeSystem) (call request : ℕ) (outcome : CancellationOutcomeDto) : Prop :=
  ∃ entry, s.cancels[call]? = some entry ∧ entry.request = request ∧
    entry.stage = .returned outcome

/-- The requests are numbered, and whatever refers to one by its number refers to one there is. -/
structure Numbered (s : FacadeSystem) : Prop where
  ascending : s.ids.Pairwise (· < ·)
  highWater : ∀ id ∈ s.ids, ∃ value, s.highWater = some value ∧ id ≤ value
  held : ∀ request, s.held request = true → request < s.ids.length
  phases : ∀ request, s.phases request ≠ .created → request < s.ids.length
  routes : ∀ call ∈ s.routes, call.request < s.ids.length
  cancels : ∀ call ∈ s.cancels, call.request < s.ids.length
  registry : ∀ entry ∈ s.registry, ∃ id, s.ids[entry.2]? = some id ∧ id.val = entry.1

/-- One call of `route` passes, after which the request is not new any more. -/
structure RunsOnce (s : FacadeSystem) : Prop where
  once : ∀ {call call' request}, s.Executes call request → s.Executes call' request → call = call'
  started : ∀ {call request}, s.Executes call request → s.phases request ≠ .created

/-- One call of `cancel` wins the swap of a flag, which is set from then on. -/
structure OneWinner (s : FacadeSystem) : Prop where
  once : ∀ {call call' request}, s.Owns call request → s.Owns call' request → call = call'
  flagged : ∀ {call request}, s.Owns call request → s.flags request = true

/-! ## Identifiers -/

/-- A new identifier is above all others. -/
lemma allocate_eq_ok {highWater : Option U64} {allocation : RequestIdAllocation} {value : U64}
    (h : allocate highWater allocation = .ok value) : ∀ v ∈ highWater, v < value := by
  intro v hv
  obtain rfl : highWater = some v := hv
  rcases allocation with _ | supplied
  · simp only [allocate] at h
    split_ifs at h
    obtain rfl := Except.ok.inj h
    exact Nat.lt_succ_self v.val
  · simp only [allocate, Option.any_some, decide_eq_true_eq] at h
    split_ifs at h with hle
    obtain rfl := Except.ok.inj h
    exact not_le.1 hle

/-- The requests found under an identifier are one. -/
lemma Numbered.request_unique (h : Numbered s) {request request' : ℕ} {id : U64}
    (hid : s.ids[request]? = some id) (hid' : s.ids[request']? = some id) : request = request' := by
  have hnodup : s.ids.Nodup := h.ascending.imp ne_of_lt
  obtain ⟨hlt, rfl⟩ := List.getElem?_eq_some_iff.1 hid
  exact (List.getElem?_inj hlt hnodup).1 (hid.trans hid'.symm)

/-! ## What a step does -/

/-- The facade with one more request. -/
def withRequest (s : FacadeSystem) (value : U64) : FacadeSystem :=
  { s with
    highWater := some value
    ids := s.ids ++ [value]
    flags := Function.update s.flags s.ids.length false
    phases := Function.update s.phases s.ids.length .created
    held := Function.update s.held s.ids.length true }

/-- What a step of the facade can do. -/
inductive Effect (s : FacadeSystem) : FacadeSystem → FacadeEvent → Prop
  | refuse {o : FacadeEvent} (hissued : o.issued = none)
    (hpolls : ∀ request, o.polls request = false) : Effect s s o
  | create {value : U64} (habove : ∀ v ∈ s.highWater, v < value) :
    Effect s (s.withRequest value) (.handle (.ok value))
  | dropHandle (request : ℕ) :
    Effect s { s with held := Function.update s.held request false } .silent
  | shutDown : Effect s { s with shuttingDown := true } .silent
  | callRoute {request : ℕ} (hlt : request < s.ids.length) :
    Effect s { s with routes := s.routes ++ [⟨request, .loadShuttingDown⟩] } .silent
  | callCancel {request : ℕ} (byId : Bool) (hlt : request < s.ids.length) :
    Effect s { s with cancels := s.cancels ++ [⟨request, byId, .loadComplete⟩] } .silent
  | cancelAll {flags : ℕ → Bool}
    (hmono : ∀ request, s.flags request = true → flags request = true) :
    Effect s { s with flags := flags } .silent
  | advance {call request : ℕ} {stage stage' : RequestStage}
    (hcall : s.routes[call]? = some ⟨request, stage⟩)
    (hexecutes : stage'.executes = true → stage.executes = true)
    (hbegun : stage.begun = true → stage'.begun = true) :
    Effect s (s.setRoute call request stage') .silent
  | exchange {call request : ℕ} (hcall : s.routes[call]? = some ⟨request, .exchange⟩)
    (hcreated : s.phases request = .created) :
    Effect s ({ s with phases := Function.update s.phases request .executing }.setRoute call
      request .convert) .silent
  | register {call request : ℕ} {stage stage' : RequestStage} {id : U64}
    {registry : RequestRegistry} (hcall : s.routes[call]? = some ⟨request, stage⟩)
    (hexecutes : stage.executes = true)
    (hbegun : stage.begun = true → stage'.begun = true) (hid : s.ids[request]? = some id)
    (hregistry : ∀ entry ∈ registry, entry = (id.val, request) ∨ entry ∈ s.registry) :
    Effect s ({ s with registry := registry }.setRoute call request stage') .silent
  | search {call request : ℕ} (hcall : s.routes[call]? = some ⟨request, .startSearch⟩) :
    Effect s (s.setRoute call request .searching) (.polled request (s.flags request))
  | complete {call request : ℕ} {stage stage' : RequestStage}
    (hcall : s.routes[call]? = some ⟨request, stage⟩) (hexecutes : stage.executes = true)
    (hbegun : stage'.begun = true) :
    Effect s ({ s with phases := Function.update s.phases request .complete }.setRoute call
      request stage') .silent
  | answer {call : ℕ} {entry : CancelCall} {stage' : CancelStage}
    (hcall : s.cancels[call]? = some entry) (hflight : entry.inFlight = true)
    (howns : stage'.owns = true → entry.stage.owns = true)
    (hcomplete : entry.stage = .loadComplete → s.phases entry.request = .complete →
      stage' = .returned .alreadyCompleted) :
    Effect s (s.setCancel call entry stage') .silent
  | signal {call : ℕ} {entry : CancelCall} {stage' : CancelStage}
    (hcall : s.cancels[call]? = some entry) (hflight : entry.inFlight = true)
    (hstage : entry.stage ≠ .loadComplete)
    (howns : stage'.owns = true → s.flags entry.request = false) :
    Effect s ({ s with flags := Function.update s.flags entry.request true }.setCancel call entry
      stage') .silent

lemma requestHandleStep_effect {allocation : RequestIdAllocation}
    (h : s.requestHandleStep allocation = (s', o)) : Effect s s' o := by
  unfold requestHandleStep at h
  split at h
  · cases h
    exact .refuse rfl fun _ => rfl
  · split at h
    · cases h
      exact .refuse rfl fun _ => rfl
    · rename_i value hallocate
      cases h
      exact .create (allocate_eq_ok hallocate)

lemma routeStep_effect {call : ℕ} {answer : Bool} (h : s.routeStep call answer = some (s', o)) :
    Effect s s' o := by
  unfold routeStep at h
  split at h
  · cases h
  · rename_i request stage hcall
    split at h
    · cases h
      refine .advance hcall (fun hstage => ?_) (fun hbegun => ?_)
      · split at hstage <;> cases hstage
      · cases hbegun
    · split at h <;> cases h
      · rename_i hcreated
        exact .exchange hcall hcreated
      · exact .advance hcall (fun hstage => hstage) (fun hbegun => hbegun)
    · cases h
      exact .advance hcall (fun _ => rfl) (fun hbegun => by cases hbegun)
    · cases h
      exact .advance hcall (fun _ => rfl) (fun hbegun => by cases hbegun)
    · obtain ⟨id, hid, hstep⟩ := Option.map_eq_some_iff.1 h
      split at hstep <;> cases hstep
      · exact .advance hcall (fun _ => rfl) (fun _ => rfl)
      · rename_i registry hregister
        -- the flag is registered once its request has been created
        obtain ⟨rfl, -⟩ := RequestRegistry.registerFlag_eq_some hregister
        refine .register hcall rfl (fun hbegun => by cases hbegun) hid fun entry hentry => ?_
        exact List.mem_cons.1 hentry
    · split at h <;> cases h
      · exact .search hcall
      · exact .advance hcall (fun _ => rfl) (fun _ => rfl)
    · cases h
      exact .advance hcall (fun _ => rfl) (fun _ => rfl)
    · rename_i succeeded
      obtain ⟨id, hid, hstep⟩ := Option.map_eq_some_iff.1 h
      cases hstep
      refine .register hcall rfl (fun _ => ?_) hid fun entry hentry => ?_
      · rcases succeeded with _ | _ <;> rfl
      · exact .inr (List.mem_filter.1 hentry).1
    · cases h
      exact .complete hcall rfl rfl
    · cases h
      exact .complete hcall rfl rfl
    · cases h
    · cases h

/-- What is found in the registry under the identifier of a request is its flag. -/
lemma Numbered.flag_of_find (h : Numbered s) {request : ℕ} {id : U64} {entry : ℕ × ℕ}
    (hid : s.ids[request]? = some id)
    (hfind : (s.registry.find? fun entry => decide (entry.1 = id.val)) = some entry) :
    entry.2 = request := by
  obtain ⟨id', hid', hval⟩ := h.registry entry (List.mem_of_find?_eq_some hfind)
  have hsame : entry.1 = id.val := by simpa using List.find?_some hfind
  obtain rfl : id' = id := Fin.ext (hval.trans hsame)
  exact h.request_unique hid' hid

lemma cancelStep_effect (hnumbered : Numbered s) {call : ℕ}
    (h : s.cancelStep call = some (s', o)) : Effect s s' o := by
  unfold cancelStep at h
  split at h
  · cases h
  · rename_i entry hcall
    have hflight {stage : CancelStage} (hstage : entry.stage = stage)
        (hreturned : ∀ outcome, stage ≠ .returned outcome) : entry.inFlight = true := by
      unfold CancelCall.inFlight
      rw [hstage]
      cases stage with
      | returned outcome => exact absurd rfl (hreturned outcome)
      | _ => rfl
    split at h
    · rename_i hstage
      cases h
      refine .answer hcall (hflight hstage (by simp)) (fun howns => ?_) fun _ hcomplete => ?_
      · split at howns <;> cases howns
      · rw [if_pos hcomplete]
    · rename_i hstage
      cases h
      refine .answer hcall (hflight hstage (by simp)) (fun howns => ?_) fun hload => ?_
      · split at howns <;> cases howns
      · simp [hstage] at hload
    · rename_i hstage
      cases h
      refine .answer hcall (hflight hstage (by simp)) (fun howns => ?_) fun hload => ?_
      · split at howns <;> cases howns
      · simp [hstage] at hload
    · rename_i hstage
      cases h
      refine .answer hcall (hflight hstage (by simp)) (fun howns => ?_) fun hload => ?_
      · split at howns <;> cases howns
      · simp [hstage] at hload
    · rename_i hstage
      obtain ⟨id, hid, hstep⟩ := Option.map_eq_some_iff.1 h
      simp only [RequestRegistry.cancel, RequestRegistry.cancelOutcome] at hstep
      rcases hfind : s.registry.find? fun entry => decide (entry.1 = id.val) with _ | found
      · rw [hfind] at hstep
        cases hstep
        refine .answer hcall (hflight hstage (by simp)) (fun howns => ?_) fun hload => ?_
        · cases howns
        · simp [hstage] at hload
      · -- the entry that is found is that of the request, for identifiers are given out once
        have hfound := hnumbered.flag_of_find hid hfind
        rw [hfind] at hstep
        simp only [hfound] at hstep
        rcases hflag : s.flags entry.request with _ | _
        · simp only [hflag] at hstep
          cases hstep
          exact .signal hcall (hflight hstage (by simp)) (by simp [hstage]) fun _ => hflag
        · simp only [hflag] at hstep
          cases hstep
          refine .signal hcall (hflight hstage (by simp)) (by simp [hstage]) fun howns => ?_
          cases howns
    · rename_i hstage
      cases h
      refine .signal hcall (hflight hstage (by simp)) (by simp [hstage]) fun howns => ?_
      simpa [CancelStage.owns] using howns
    · rename_i newlySignalled hstage
      cases h
      refine .answer hcall (hflight hstage (by simp)) (fun howns => ?_) fun hload => ?_
      · rw [hstage]
        rcases newlySignalled with _ | _
        · split at howns <;> cases howns
        · rfl
      · simp [hstage] at hload
    · cases h

lemma cancelByIdStep_effect {id : U64} {running : Bool}
    (h : s.cancelByIdStep id running = (s', o)) : Effect s s' o := by
  unfold cancelByIdStep at h
  split at h
  · rename_i request hfind
    cases h
    exact .callCancel true (List.mem_range.1 (List.mem_of_find?_eq_some hfind))
  · cases h
    exact .refuse rfl fun _ => rfl

/-- Every step does one of these things. -/
theorem step_effect (h : Numbered s) {action : FacadeAction}
    (hstep : facade.step s action = some (s', o)) : Effect s s' o := by
  simp only [facade] at hstep
  split at hstep
  · exact requestHandleStep_effect (Option.some.inj hstep)
  · rename_i request
    split at hstep <;> cases hstep
    exact .dropHandle request
  · split at hstep <;> cases hstep
    rename_i hheld
    exact .callRoute (h.held _ hheld)
  · exact routeStep_effect hstep
  · split at hstep <;> cases hstep
    rename_i hheld
    exact .callCancel false (h.held _ hheld)
  · exact cancelByIdStep_effect (Option.some.inj hstep)
  · exact cancelStep_effect h hstep
  · cases hstep
    exact .shutDown
  · split at hstep <;> cases hstep
    exact .cancelAll fun _ hflag => RequestRegistry.cancelAll_flags (.inl hflag)

/-! ## The requests stay numbered -/

lemma Effect.ids (h : Effect s s' o) : s'.ids = s.ids ++ o.issued.toList := by
  cases h with
  | refuse hissued => rw [hissued, Option.toList_none, List.append_nil]
  | create => rfl
  | _ => exact (List.append_nil s.ids).symm

lemma Effect.ids_length_le (h : Effect s s' o) : s.ids.length ≤ s'.ids.length := by
  rw [h.ids, List.length_append]
  exact Nat.le_add_right _ _

lemma mem_setRoute {call request : ℕ} {stage stage' : RequestStage} {entry : RequestRoute}
    (hcall : s.routes[call]? = some ⟨request, stage⟩)
    (hmem : entry ∈ s.routes.set call ⟨request, stage'⟩) :
    ∃ old ∈ s.routes, old.request = entry.request := by
  rcases List.mem_or_eq_of_mem_set hmem with hold | rfl
  · exact ⟨entry, hold, rfl⟩
  · exact ⟨_, List.mem_of_getElem? hcall, rfl⟩

lemma mem_setCancel {call : ℕ} {entry entry' : CancelCall} {stage' : CancelStage}
    (hcall : s.cancels[call]? = some entry)
    (hmem : entry' ∈ s.cancels.set call { entry with stage := stage' }) :
    ∃ old ∈ s.cancels, old.request = entry'.request := by
  rcases List.mem_or_eq_of_mem_set hmem with hold | rfl
  · exact ⟨entry', hold, rfl⟩
  · exact ⟨_, List.mem_of_getElem? hcall, rfl⟩

lemma Numbered.route_lt (h : Numbered s) {call request : ℕ} {stage : RequestStage}
    (hcall : s.routes[call]? = some ⟨request, stage⟩) : request < s.ids.length :=
  h.routes _ (List.mem_of_getElem? hcall)

lemma Numbered.moveRoute (h : Numbered s) {call request : ℕ} {stage stage' : RequestStage}
    (hcall : s.routes[call]? = some ⟨request, stage⟩) :
    Numbered (s.setRoute call request stage') :=
  { h with
    routes := fun entry hmem => by
      obtain ⟨old, hold, heq⟩ := mem_setRoute hcall hmem
      rw [← heq]
      exact h.routes old hold }

lemma Numbered.moveCancel (h : Numbered s) {call : ℕ} {entry : CancelCall} {stage' : CancelStage}
    (hcall : s.cancels[call]? = some entry) : Numbered (s.setCancel call entry stage') :=
  { h with
    cancels := fun entry' hmem => by
      obtain ⟨old, hold, heq⟩ := mem_setCancel hcall hmem
      rw [← heq]
      exact h.cancels old hold }

lemma Numbered.setPhase (h : Numbered s) {request : ℕ} (hlt : request < s.ids.length)
    (phase : RequestPhase) :
    Numbered { s with phases := Function.update s.phases request phase } :=
  { h with
    phases := fun request' hphase => by
      by_cases heq : request' = request
      · rw [heq]
        exact hlt
      · have hold : s.phases request' ≠ .created := by
          rw [← Function.update_of_ne heq phase s.phases]
          exact hphase
        exact h.phases request' hold }

lemma Numbered.setFlags (h : Numbered s) (flags : ℕ → Bool) : Numbered { s with flags := flags } :=
  { h with }

lemma Numbered.setRegistry (h : Numbered s) {request : ℕ} {id : U64} {registry : RequestRegistry}
    (hid : s.ids[request]? = some id)
    (hregistry : ∀ entry ∈ registry, entry = (id.val, request) ∨ entry ∈ s.registry) :
    Numbered { s with registry := registry } :=
  { h with
    registry := fun entry hmem => by
      rcases hregistry entry hmem with rfl | hold
      · exact ⟨id, hid, rfl⟩
      · exact h.registry entry hold }

/-- A new request takes the next number. -/
lemma Numbered.create (h : Numbered s) {value : U64} (habove : ∀ v ∈ s.highWater, v < value) :
    Numbered (s.withRequest value) := by
  have hbelow : ∀ id ∈ s.ids, id < value := fun id hid => by
    obtain ⟨v, hv, hle⟩ := h.highWater id hid
    exact hle.trans_lt (habove v hv)
  have hlength : (s.withRequest value).ids.length = s.ids.length + 1 := List.length_append
  refine ⟨?_, fun id hid => ⟨value, rfl, ?_⟩, fun request hheld => ?_, fun request hphase => ?_,
    fun call hmem => ?_, fun call hmem => ?_, fun entry hmem => ?_⟩
  · show (s.ids ++ [value]).Pairwise (· < ·)
    rw [List.pairwise_append]
    refine ⟨h.ascending, List.pairwise_singleton _ _, fun id hid v hv => ?_⟩
    rw [List.mem_singleton.1 hv]
    exact hbelow id hid
  · rcases List.mem_append.1 hid with hold | hnew
    · exact (hbelow id hold).le
    · exact (List.mem_singleton.1 hnew).le
  · rw [hlength]
    by_cases heq : request = s.ids.length
    · omega
    · have hold : s.held request = true := by
        rw [← hheld]
        exact (Function.update_of_ne heq _ _).symm
      exact (h.held request hold).trans (Nat.lt_succ_self _)
  · rw [hlength]
    by_cases heq : request = s.ids.length
    · omega
    · have hold : s.phases request ≠ .created := by
        rw [show s.phases request = (s.withRequest value).phases request from
          (Function.update_of_ne heq _ _).symm]
        exact hphase
      exact (h.phases request hold).trans (Nat.lt_succ_self _)
  · rw [hlength]
    exact (h.routes call hmem).trans (Nat.lt_succ_self _)
  · rw [hlength]
    exact (h.cancels call hmem).trans (Nat.lt_succ_self _)
  · obtain ⟨id, hid, hval⟩ := h.registry entry hmem
    refine ⟨id, ?_, hval⟩
    show (s.ids ++ [value])[entry.2]? = some id
    rw [List.getElem?_append_left (List.getElem?_eq_some_iff.1 hid).1]
    exact hid

lemma Effect.numbered (h : Effect s s' o) (hnumbered : Numbered s) : Numbered s' := by
  cases h with
  | refuse => exact hnumbered
  | create habove => exact hnumbered.create habove
  | dropHandle request =>
    refine { hnumbered with held := fun request' hheld => hnumbered.held request' ?_ }
    have hheld : Function.update s.held request false request' = true := hheld
    by_cases heq : request' = request
    · rw [heq, Function.update_self] at hheld
      simp at hheld
    · rwa [Function.update_of_ne heq] at hheld
  | shutDown => exact { hnumbered with }
  | callRoute hlt =>
    refine { hnumbered with routes := fun call hmem => ?_ }
    rcases List.mem_append.1 hmem with hold | hnew
    · exact hnumbered.routes call hold
    · rw [List.mem_singleton.1 hnew]
      exact hlt
  | callCancel byId hlt =>
    refine { hnumbered with cancels := fun call hmem => ?_ }
    rcases List.mem_append.1 hmem with hold | hnew
    · exact hnumbered.cancels call hold
    · rw [List.mem_singleton.1 hnew]
      exact hlt
  | cancelAll => exact hnumbered.setFlags _
  | advance hcall => exact hnumbered.moveRoute hcall
  | exchange hcall => exact (hnumbered.setPhase (hnumbered.route_lt hcall) _).moveRoute hcall
  | register hcall _ _ hid hregistry => exact (hnumbered.setRegistry hid hregistry).moveRoute hcall
  | search hcall => exact hnumbered.moveRoute hcall
  | complete hcall => exact (hnumbered.setPhase (hnumbered.route_lt hcall) _).moveRoute hcall
  | answer hcall => exact hnumbered.moveCancel hcall
  | signal hcall => exact (hnumbered.setFlags _).moveCancel hcall

/-! ## Flags and phases -/

/-- A flag that is set is never reset. -/
lemma Effect.flags (h : Effect s s' o) {request : ℕ} (hlt : request < s.ids.length)
    (hflag : s.flags request = true) : s'.flags request = true := by
  cases h with
  | create =>
    show Function.update s.flags s.ids.length false request = true
    rw [Function.update_of_ne hlt.ne]
    exact hflag
  | cancelAll hmono => exact hmono request hflag
  | signal => exact RequestRegistry.update_true_of_true _ hflag
  | _ => exact hflag

/-- A request never becomes new again. -/
lemma Effect.started (h : Effect s s' o) {request : ℕ} (hlt : request < s.ids.length)
    (hphase : s.phases request ≠ .created) : s'.phases request ≠ .created := by
  have hupdate (request' : ℕ) {phase : RequestPhase} (hne : phase ≠ .created) :
      Function.update s.phases request' phase request ≠ .created := by
    by_cases heq : request = request'
    · rw [heq, Function.update_self]
      exact hne
    · rw [Function.update_of_ne heq]
      exact hphase
  cases h with
  | create =>
    show Function.update s.phases s.ids.length .created request ≠ .created
    rw [Function.update_of_ne hlt.ne]
    exact hphase
  | exchange => exact hupdate _ (by simp)
  | complete => exact hupdate _ (by simp)
  | _ => exact hphase

/-- A request that is complete stays so. -/
lemma Effect.completed (h : Effect s s' o) {request : ℕ} (hlt : request < s.ids.length)
    (hphase : s.phases request = .complete) : s'.phases request = .complete := by
  cases h with
  | create =>
    show Function.update s.phases s.ids.length .created request = .complete
    rw [Function.update_of_ne hlt.ne]
    exact hphase
  | @exchange _ request' _ hcreated =>
    have hne : request ≠ request' := by
      rintro rfl
      rw [hphase] at hcreated
      simp at hcreated
    show Function.update s.phases request' .executing request = .complete
    rw [Function.update_of_ne hne]
    exact hphase
  | @complete _ request' =>
    show Function.update s.phases request' .complete request = .complete
    by_cases heq : request = request'
    · rw [heq, Function.update_self]
    · rw [Function.update_of_ne heq]
      exact hphase
  | _ => exact hphase

/-! ## One route -/

/-- A call of `route` that has passed after a step has passed before it, or it is the only one that
passes, and the request was new. -/
lemma Effect.executes (h : Effect s s' o) {call request : ℕ}
    (hexecutes : s'.Executes call request) :
    s.Executes call request ∨
      s.phases request = .created ∧ s'.phases request ≠ .created ∧
        ∀ call', s'.Executes call' request → call' ≠ call → s.Executes call' request := by
  obtain ⟨stage, hcall, hstage⟩ := hexecutes
  have hset {call' request' : ℕ} {old new : RequestStage}
      (hold : s.routes[call']? = some ⟨request', old⟩)
      (hexec : new.executes = true → old.executes = true)
      (hcall : (s.routes.set call' ⟨request', new⟩)[call]? = some ⟨request, stage⟩) :
      s.Executes call request := by
    rcases getElem?_set_cases hcall with ⟨rfl, heq⟩ | ⟨-, hother⟩
    · obtain ⟨rfl, rfl⟩ := RequestRoute.mk.inj heq
      exact ⟨old, hold, hexec hstage⟩
    · exact ⟨stage, hother, hstage⟩
  cases h with
  | callRoute =>
    rcases getElem?_concat_cases hcall with ⟨-, heq⟩ | hold
    · obtain ⟨rfl, rfl⟩ := RequestRoute.mk.inj heq
      simp [RequestStage.executes] at hstage
    · exact .inl ⟨stage, hold, hstage⟩
  | advance hold hexec => exact .inl (hset hold hexec hcall)
  | @exchange _ request' hold hcreated =>
    rcases getElem?_set_cases hcall with ⟨rfl, heq⟩ | ⟨-, hother⟩
    · obtain ⟨rfl, rfl⟩ := RequestRoute.mk.inj heq
      refine .inr ⟨hcreated, ?_, fun call' ⟨stage', hcall', hstage'⟩ hne => ?_⟩
      · show Function.update s.phases request .executing request ≠ .created
        rw [Function.update_self]
        simp
      · rcases getElem?_set_cases hcall' with ⟨heq, -⟩ | ⟨-, hother⟩
        · exact absurd heq hne
        · exact ⟨stage', hother, hstage'⟩
    · exact .inl ⟨stage, hother, hstage⟩
  | register hold hexec => exact .inl (hset hold (fun _ => hexec) hcall)
  | search hold => exact .inl (hset hold (fun _ => rfl) hcall)
  | complete hold hexec => exact .inl (hset hold (fun _ => hexec) hcall)
  | _ => exact .inl ⟨stage, hcall, hstage⟩

lemma Executes.lt (h : Numbered s) {call request : ℕ} (hexecutes : s.Executes call request) :
    request < s.ids.length := by
  obtain ⟨stage, hcall, -⟩ := hexecutes
  exact h.route_lt hcall

lemma Effect.runsOnce (h : Effect s s' o) (hnumbered : Numbered s) (honce : RunsOnce s) :
    RunsOnce s' := by
  refine ⟨fun {call call' request} hexec hexec' => ?_, fun {call request} hexec => ?_⟩
  · by_contra hne
    rcases h.executes hexec with hold | ⟨hcreated, -, hothers⟩
    · rcases h.executes hexec' with hold' | ⟨hcreated, -⟩
      · exact hne (honce.once hold hold')
      · exact honce.started hold hcreated
    · exact honce.started (hothers call' hexec' (Ne.symm hne)) hcreated
  · rcases h.executes hexec with hold | ⟨-, hstarted, -⟩
    · exact h.started (hold.lt hnumbered) (honce.started hold)
    · exact hstarted

/-! ## One winner -/

/-- A call of `cancel` that has won after a step has won before it, or it is the only one that wins,
and the flag was not set. -/
lemma Effect.owns (h : Effect s s' o) {call request : ℕ} (howns : s'.Owns call request) :
    s.Owns call request ∨
      s.flags request = false ∧ s'.flags request = true ∧
        ∀ call', s'.Owns call' request → call' ≠ call → s.Owns call' request := by
  obtain ⟨entry, hcall, hrequest, hstage⟩ := howns
  cases h with
  | callCancel =>
    rcases getElem?_concat_cases hcall with ⟨-, rfl⟩ | hold
    · simp [CancelStage.owns] at hstage
    · exact .inl ⟨entry, hold, hrequest, hstage⟩
  | @answer call' old _ hold _ hown =>
    rcases getElem?_set_cases hcall with ⟨rfl, rfl⟩ | ⟨-, hother⟩
    · exact .inl ⟨old, hold, hrequest, hown hstage⟩
    · exact .inl ⟨entry, hother, hrequest, hstage⟩
  | @signal call' old _ hold _ _ hown =>
    rcases getElem?_set_cases hcall with ⟨rfl, rfl⟩ | ⟨-, hother⟩
    · obtain rfl : old.request = request := hrequest
      refine .inr ⟨hown hstage, Function.update_self _ _ _, ?_⟩
      rintro call' ⟨entry', hcall', hrequest', hstage'⟩ hne
      rcases getElem?_set_cases hcall' with ⟨heq, -⟩ | ⟨-, hother⟩
      · exact absurd heq hne
      · exact ⟨entry', hother, hrequest', hstage'⟩
    · exact .inl ⟨entry, hother, hrequest, hstage⟩
  | _ => exact .inl ⟨entry, hcall, hrequest, hstage⟩

lemma Owns.lt (h : Numbered s) {call request : ℕ} (howns : s.Owns call request) :
    request < s.ids.length := by
  obtain ⟨entry, hcall, rfl, -⟩ := howns
  exact h.cancels entry (List.mem_of_getElem? hcall)

lemma Effect.oneWinner (h : Effect s s' o) (hnumbered : Numbered s) (hone : OneWinner s) :
    OneWinner s' := by
  refine ⟨fun {call call' request} howns howns' => ?_, fun {call request} howns => ?_⟩
  · by_contra hne
    rcases h.owns howns with hold | ⟨hflag, -, hothers⟩
    · rcases h.owns howns' with hold' | ⟨hflag, -⟩
      · exact hne (hone.once hold hold')
      · rw [hone.flagged hold] at hflag
        simp at hflag
    · rw [hone.flagged (hothers call' howns' (Ne.symm hne))] at hflag
      simp at hflag
  · rcases h.owns howns with hold | ⟨-, hflag, -⟩
    · exact h.flags (hold.lt hnumbered) (hone.flagged hold)
    · exact hflag

lemma Returned.owns {call request : ℕ} (h : s.Returned call request .signalled) :
    s.Owns call request := by
  obtain ⟨entry, hcall, hrequest, hstage⟩ := h
  refine ⟨entry, hcall, hrequest, ?_⟩
  rw [hstage]
  rfl

/-! ## One search -/

/-- A call of `route` on the request has begun its search, or been kept from it. -/
def Begun (s : FacadeSystem) (request : ℕ) : Prop :=
  ∃ (call : ℕ) (stage : RequestStage), s.routes[call]? = some ⟨request, stage⟩ ∧
    stage.begun = true

lemma Effect.begun (h : Effect s s' o) {request : ℕ} (hbegun : s.Begun request) :
    s'.Begun request := by
  obtain ⟨call, stage, hcall, hstage⟩ := hbegun
  have hlt : call < s.routes.length := (List.getElem?_eq_some_iff.1 hcall).1
  have hset {call' request' : ℕ} {old new : RequestStage}
      (hold : s.routes[call']? = some ⟨request', old⟩)
      (hkeep : old.begun = true → new.begun = true) :
      ∃ (call : ℕ) (stage : RequestStage),
        (s.routes.set call' ⟨request', new⟩)[call]? = some ⟨request, stage⟩ ∧
          stage.begun = true := by
    by_cases heq : call' = call
    · subst heq
      obtain ⟨rfl, rfl⟩ := RequestRoute.mk.inj (Option.some.inj (hold.symm.trans hcall))
      exact ⟨call', new, List.getElem?_set_self hlt, hkeep hstage⟩
    · exact ⟨call, stage, by rw [List.getElem?_set_ne heq, hcall], hstage⟩
  cases h with
  | callRoute =>
    refine ⟨call, stage, ?_, hstage⟩
    show (s.routes ++ [_])[call]? = _
    rw [List.getElem?_append_left hlt, hcall]
  | advance hold _ hkeep => exact hset hold hkeep
  | exchange hold => exact hset hold fun hbegun => by simp [RequestStage.begun] at hbegun
  | register hold _ hkeep => exact hset hold hkeep
  | search hold => exact hset hold fun _ => rfl
  | complete hold _ hnew => exact hset hold fun _ => hnew
  | _ => exact ⟨call, stage, hcall, hstage⟩

/-- A search begins only when none has, and then one has. -/
lemma Effect.polls (h : Effect s s' o) (honce : RunsOnce s) {request : ℕ}
    (hpolls : o.polls request = true) : ¬ s.Begun request ∧ s'.Begun request := by
  cases h with
  | refuse _ hno =>
    rw [hno request] at hpolls
    simp at hpolls
  | @search call request' hold =>
    obtain rfl : request' = request := of_decide_eq_true hpolls
    refine ⟨fun ⟨call', stage, hcall', hstage⟩ => ?_, call, .searching, ?_, rfl⟩
    · have hexecutes : stage.executes = true := by
        cases stage <;> first | rfl | simp [RequestStage.begun] at hstage
      obtain rfl := honce.once ⟨stage, hcall', hexecutes⟩ ⟨.startSearch, hold, rfl⟩
      obtain ⟨-, rfl⟩ := RequestRoute.mk.inj (Option.some.inj (hcall'.symm.trans hold))
      simp [RequestStage.begun] at hstage
    · exact List.getElem?_set_self (List.getElem?_eq_some_iff.1 hold).1
  | _ => simp [FacadeEvent.polls] at hpolls

/-! ## After completion -/

/-- The request is complete, and the calls of `cancel` from a place on see that it is. -/
structure Completed (s : FacadeSystem) (request since : ℕ) : Prop where
  complete : s.phases request = .complete
  answered : ∀ {call entry}, since ≤ call → s.cancels[call]? = some entry →
    entry.request = request →
      entry.stage = .loadComplete ∨ entry.stage = .returned .alreadyCompleted

lemma Effect.completes (h : Effect s s' o) {request since : ℕ} (hlt : request < s.ids.length)
    (hcompleted : Completed s request since) : Completed s' request since := by
  refine ⟨h.completed hlt hcompleted.complete, fun {call entry} hsince hcall hrequest => ?_⟩
  cases h with
  | callCancel =>
    rcases getElem?_concat_cases hcall with ⟨-, rfl⟩ | hold
    · exact .inl rfl
    · exact hcompleted.answered hsince hold hrequest
  | @answer call' old _ hold hflight _ hcomplete =>
    rcases getElem?_set_cases hcall with ⟨rfl, rfl⟩ | ⟨-, hother⟩
    · obtain rfl : old.request = request := hrequest
      rcases hcompleted.answered hsince hold rfl with hload | hreturned
      · exact .inr (hcomplete hload hcompleted.complete)
      · simp [CancelCall.inFlight, hreturned] at hflight
    · exact hcompleted.answered hsince hother hrequest
  | @signal call' old _ hold hflight hstage _ =>
    rcases getElem?_set_cases hcall with ⟨rfl, rfl⟩ | ⟨-, hother⟩
    · rcases hcompleted.answered hsince hold hrequest with hload | hreturned
      · exact absurd hload hstage
      · simp [CancelCall.inFlight, hreturned] at hflight
    · exact hcompleted.answered hsince hother hrequest
  | _ => exact hcompleted.answered hsince hcall hrequest

/-! ## Runs -/

/-- What every state of a facade keeps. -/
structure Safe (s : FacadeSystem) : Prop where
  numbered : Numbered s
  runsOnce : RunsOnce s
  oneWinner : OneWinner s

lemma step_safe {action : FacadeAction} (h : Safe s)
    (hstep : facade.step s action = some (s', o)) : Safe s' := by
  have heffect := step_effect h.numbered hstep
  exact ⟨heffect.numbered h.numbered, heffect.runsOnce h.numbered h.runsOnce,
    heffect.oneWinner h.numbered h.oneWinner⟩

lemma safe_opened : Safe opened where
  numbered := by
    refine ⟨.nil, ?_, ?_, ?_, ?_, ?_, ?_⟩
    all_goals simp [opened]
  runsOnce := by
    refine ⟨?_, ?_⟩
    · rintro _ _ _ ⟨_, hcall, -⟩
      simp [opened] at hcall
    · rintro _ _ ⟨_, hcall, -⟩
      simp [opened] at hcall
  oneWinner := by
    refine ⟨?_, ?_⟩
    · rintro _ _ _ ⟨_, hcall, -⟩
      simp [opened] at hcall
    · rintro _ _ ⟨_, hcall, -⟩
      simp [opened] at hcall

variable {actions : List FacadeAction} {os : List FacadeEvent}

/-- The identifiers of the state are those of the handles that were given. -/
lemma run_ids (h : Safe s) (hrun : facade.run s actions = some (s', os)) :
    s'.ids = s.ids ++ os.filterMap FacadeEvent.issued := by
  induction actions generalizing s os with
  | nil =>
    cases hrun
    rw [List.filterMap_nil, List.append_nil]
  | cons action rest ih =>
    obtain ⟨s₁, o, os', hstep, hrest, rfl⟩ := Machine.run_cons_eq_some hrun
    rw [ih (step_safe h hstep) hrest, (step_effect h.numbered hstep).ids, List.append_assoc]
    rcases hissued : o.issued with _ | id
    · rw [List.filterMap_cons_none hissued]
      rfl
    · rw [List.filterMap_cons_some hissued]
      rfl

/-- At most one search of a request begins, and none when one has. -/
lemma run_polls (h : Safe s) (hrun : facade.run s actions = some (s', os)) (request : ℕ) :
    (s.Begun request → os.countP (·.polls request) = 0) ∧ os.countP (·.polls request) ≤ 1 := by
  induction actions generalizing s os with
  | nil =>
    cases hrun
    exact ⟨fun _ => rfl, Nat.zero_le 1⟩
  | cons action rest ih =>
    obtain ⟨s₁, o, os', hstep, hrest, rfl⟩ := Machine.run_cons_eq_some hrun
    have heffect := step_effect h.numbered hstep
    obtain ⟨hnone, hone⟩ := ih (step_safe h hstep) hrest
    rcases hpolls : o.polls request with _ | _
    · rw [List.countP_cons_of_neg (by simp [hpolls])]
      exact ⟨fun hbegun => hnone (heffect.begun hbegun), hone⟩
    · obtain ⟨hfresh, hbegun⟩ := heffect.polls h.runsOnce hpolls
      rw [List.countP_cons_of_pos hpolls, hnone hbegun]
      exact ⟨fun hbegun => absurd hbegun hfresh, le_rfl⟩

/-- A search that begins after its flag was set sees it. -/
lemma run_polled (h : Safe s) {request : ℕ} (hlt : request < s.ids.length)
    (hflag : s.flags request = true) (hrun : facade.run s actions = some (s', os)) :
    ∀ o ∈ os, ∀ cancelled, o = .polled request cancelled → cancelled = true := by
  refine (Machine.run_outputs
    (I := fun s => Safe s ∧ request < s.ids.length ∧ s.flags request = true) ?_ ⟨h, hlt, hflag⟩
    hrun).2
  rintro s action s' o ⟨h, hlt, hflag⟩ hstep
  have heffect := step_effect h.numbered hstep
  refine ⟨⟨step_safe h hstep, hlt.trans_le heffect.ids_length_le, heffect.flags hlt hflag⟩, ?_⟩
  rintro cancelled rfl
  cases heffect with
  | refuse _ hno =>
    have hpolls := hno request
    simp [FacadeEvent.polls] at hpolls
  | search => exact hflag

/-- The calls of `cancel` that begin after completion see that the request is complete. -/
lemma run_completed (h : Safe s) {request since : ℕ} (hcompleted : Completed s request since)
    (hrun : facade.run s actions = some (s', os)) : Completed s' request since := by
  refine (Machine.run_invariant (I := fun s => Safe s ∧ Completed s request since) ?_
    ⟨h, hcompleted⟩ hrun).2
  rintro s action s' o ⟨h, hcompleted⟩ hstep
  have hlt : request < s.ids.length := by
    apply h.numbered.phases request
    rw [hcompleted.complete]
    simp
  exact ⟨step_safe h hstep, (step_effect h.numbered hstep).completes hlt hcompleted⟩

/-- An identifier leads to the request it was given to, while someone holds that. -/
lemma Numbered.cancelById (h : Numbered s) {request : ℕ} {id : U64}
    (hid : s.ids[request]? = some id) (hup : s.upgradable request = true) (running : Bool) :
    s.cancelByIdStep id running =
      ({ s with cancels := s.cancels ++ [⟨request, true, .loadComplete⟩] }, .silent) := by
  have hlt : request < s.ids.length := (List.getElem?_eq_some_iff.1 hid).1
  unfold cancelByIdStep
  split
  · rename_i request' hfind
    have hfound := List.find?_some hfind
    rw [Bool.and_eq_true, decide_eq_true_eq] at hfound
    rw [h.request_unique hfound.1 hid]
  · rename_i hnone
    have habsent := List.find?_eq_none.1 hnone request (List.mem_range.2 hlt)
    simp [hid, hup] at habsent

/-- Request handles are used once.  In every run of a facade the identifiers ascend and each is
given once, the search of a request begins at most once and in one call of `route`, and one call of
`cancel` at most returns that it signalled.  When one has, a search that begins later finds its
signal raised at the first poll and answers that it was cancelled.  When the request is complete,
every call of `cancel` that begins later, through the handle or by the identifier of one that is
held, returns that it is. -/
theorem handles_oneShot {F κ : Type} [Binary64 F] (T : RoutingTopology κ)
    (hrun : facade.run opened actions = some (s, os)) :
    (s.ids = os.filterMap FacadeEvent.issued ∧ s.ids.Pairwise (· < ·)) ∧
      (∀ request, os.countP (·.polls request) ≤ 1 ∧
        ∀ call call', s.Executes call request → s.Executes call' request → call = call') ∧
      (∀ call call' request, s.Returned call request .signalled →
        s.Returned call' request .signalled → call = call') ∧
      (∀ call request, s.Returned call request .signalled →
        ∀ actions' s' os', facade.run s actions' = some (s', os') →
          ∀ cancelled, .polled request cancelled ∈ os' → cancelled = true ∧
            ∀ (routing : RoutingRequest) (signal : CancellationSignal) (w w' : World κ)
              (response : RoutingResponse F) (diagnostics : CpuSearchDiagnostics),
              signal w.polls = cancelled →
              (∃ destination ∈ routing.destinations, (T.denseNodeId destination).isSome) →
              routeTopologyControlled T routing signal w = (.ok (response, diagnostics), w') →
                response.completionReason = .cancelled) ∧
      (∀ request, s.phases request = .complete →
        ∀ actions' s' os', facade.run s actions' = some (s', os') →
          s'.phases request = .complete ∧ (∀ call outcome, s.cancels.length ≤ call →
            s'.Returned call request outcome → outcome = .alreadyCompleted)) ∧
      ∀ request id running, s.ids[request]? = some id → s.upgradable request = true →
        s.cancelByIdStep id running =
          ({ s with cancels := s.cancels ++ [⟨request, true, .loadComplete⟩] }, .silent) := by
  have hsafe : Safe s :=
    Machine.run_invariant (fun _ _ _ _ h hstep => step_safe h hstep) safe_opened hrun
  refine ⟨⟨run_ids safe_opened hrun, hsafe.numbered.ascending⟩, fun request => ⟨?_, ?_⟩, ?_, ?_, ?_,
    ?_⟩
  · exact (run_polls safe_opened hrun request).2
  · exact fun _ _ => hsafe.runsOnce.once
  · intro call call' request hreturned hreturned'
    exact hsafe.oneWinner.once hreturned.owns hreturned'.owns
  · intro call request hreturned actions' s' os' hrun' cancelled hpolled
    have howns := hreturned.owns
    obtain rfl := run_polled hsafe (howns.lt hsafe.numbered) (hsafe.oneWinner.flagged howns) hrun' _
      hpolled cancelled rfl
    refine ⟨rfl, fun routing signal w w' response diagnostics hsignal hpresent hroute => ?_⟩
    exact routeTopologyControlled_cancelled hsignal hpresent hroute
  · intro request hcomplete actions' s' os' hrun'
    -- no cancellation that begins later finds the request incomplete
    have hcompleted : Completed s request s.cancels.length := by
      refine ⟨hcomplete, fun {call entry} hsince hcall _ => ?_⟩
      rw [List.getElem?_eq_none hsince] at hcall
      simp at hcall
    have hcompleted' := run_completed hsafe hcompleted hrun'
    refine ⟨hcompleted'.complete, ?_⟩
    rintro call outcome hsince ⟨entry, hcall, hrequest, hstage⟩
    rcases hcompleted'.answered hsince hcall hrequest with hload | hreturned
    · rw [hload] at hstage
      simp at hstage
    · exact CancelStage.returned.inj (hstage.symm.trans hreturned)
  · exact fun request id running hid hup => hsafe.numbered.cancelById hid hup running

/-- Two handles are given, and the first is cancelled before it is routed with. -/
def cancelFirst : List FacadeAction :=
  [.requestHandle .automatic, .requestHandle .automatic, .callCancel 0, .cancel 0, .cancel 0,
    .cancel 0, .cancel 0, .cancel 0, .cancel 0]

/-- The first handle is routed with, and cancelled again by its identifier. -/
def routeNext : List FacadeAction :=
  [.callRoute 0, .route 0 true, .route 0 true, .route 0 true, .route 0 true, .route 0 true,
    .route 0 true, .route 0 true, .route 0 true, .route 0 true, .route 0 true, .cancelById 1 true,
    .cancel 1]

/-- A route whose signal is raised from the start succeeds on the example. -/
lemma tie_route_raised : ∃ image response diagnostics w,
    compileRoutingImage tieRecords = .ok image ∧
    (image.denseNodeId (.ofNat 9)).isSome ∧
    routeTopologyControlled (F := SoftBinary64) image.topology tieRequest (fun _ => true) ⟨0, ()⟩ =
      (.ok (response, diagnostics), w) := by
  have hsome : ((compileRoutingImage tieRecords).toOption.bind fun image =>
      if (image.denseNodeId (.ofNat 9)).isSome then
        (routeTopologyControlled (F := SoftBinary64) image.topology tieRequest (fun _ => true)
          ⟨0, ()⟩).1.toOption
      else none).isSome = true := by
    decide +kernel
  rcases himage : compileRoutingImage tieRecords with e | image
  · simp [himage, Except.toOption] at hsome
  · rcases hroute : routeTopologyControlled (F := SoftBinary64) image.topology tieRequest
      (fun _ => true) ⟨0, ()⟩ with ⟨e | out, w⟩
    · simp [himage, hroute, Except.toOption] at hsome
    · simp only [himage, Except.toOption, Option.bind_some] at hsome
      split at hsome
      · rename_i hpresent
        exact ⟨image, out.1, out.2, w, rfl, hpresent, hroute⟩
      · simp at hsome

theorem handles_oneShot_cancelFirst : ∃ image s os s' os',
    compileRoutingImage tieRecords = .ok image ∧ facade.run opened cancelFirst = some (s, os) ∧
    facade.run s routeNext = some (s', os') ∧
    s.ids = [1, 2] ∧ s.ids.Pairwise (· < ·) ∧ s.Returned 0 0 .signalled ∧
    .polled 0 true ∈ os' ∧ (∀ cancelled, .polled 0 cancelled ∈ os' → cancelled = true) ∧
    s'.Returned 1 0 .alreadyCompleted ∧
    ∃ (response : RoutingResponse SoftBinary64) (diagnostics : CpuSearchDiagnostics)
      (w : World Unit),
      routeTopologyControlled image.topology tieRequest (fun _ => true) ⟨0, ()⟩ =
        (.ok (response, diagnostics), w) ∧ response.completionReason = .cancelled := by
  obtain ⟨image, response, diagnostics, w, himage, hpresent, hroute⟩ := tie_route_raised
  have hends : ∃ s os s' os', facade.run opened cancelFirst = some (s, os) ∧
      facade.run s routeNext = some (s', os') ∧ s.ids = [1, 2] ∧ s.Returned 0 0 .signalled ∧
        .polled 0 true ∈ os' ∧ s'.Returned 1 0 .alreadyCompleted :=
    ⟨_, _, _, _, rfl, rfl, rfl, ⟨_, rfl, rfl, rfl⟩, List.mem_of_getElem? (i := 6) rfl,
      ⟨_, rfl, rfl, rfl⟩⟩
  obtain ⟨s, os, s', os', hrun, hrun', hids, hreturned, hpolled, hlater⟩ := hends
  obtain ⟨⟨-, hascending⟩, -, -, hsees, -⟩ :=
    handles_oneShot (F := SoftBinary64) image.topology hrun
  have hcancelled := hsees 0 0 hreturned routeNext s' os' hrun'
  refine ⟨image, s, os, s', os', himage, hrun, hrun', hids, hascending, hreturned, hpolled,
    fun cancelled hmem => (hcancelled cancelled hmem).1, hlater, response, diagnostics, w, hroute,
    ?_⟩
  refine (hcancelled true hpolled).2 tieRequest (fun _ => true) _ w response diagnostics rfl ?_
    hroute
  exact ⟨.ofNat 9, List.mem_cons_self, hpresent⟩

end FacadeSystem

end PathHydra
