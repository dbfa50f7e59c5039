import PathHydra.Construction.Api.Evidence
import PathHydra.Properties.Routing.Independence

/-!
# What the evidence rules count

The loop that checks an answer counts its entries by state, collects the present destinations and
sums the steps of the distinct paths; `EvidenceTally.Counts` says so, and `foldlM_add_some` that the
sum never overflows.  An answer whose entries are correct passes the rules on the response alone as
soon as its paths are present exactly as requested (`validateResult_eq_ok`).
-/

namespace PathHydra

variable {F : Type} [Binary64 F]

/-! ## Counting entries -/

namespace DestinationState

def isExact : DestinationState F → Bool
  | .exact _ => true
  | _ => false

end DestinationState

/-- The present destinations among the entries. -/
def presentDestinations (results : List (DestinationResult F)) : List NodeId :=
  (results.filter fun r => decide (r.state ≠ .missingNode)).map (·.destination)

/-- What the loop over the entries has counted. -/
structure EvidenceTally.Counts (acc t : EvidenceTally) (results : List (DestinationResult F)) :
    Prop where
  exact : t.exact = acc.exact + results.countP fun r => r.state.isExact
  unreachable : t.unreachable = acc.unreachable +
    results.countP fun r => decide (r.state = .unreachable)
  missing : t.missing = acc.missing + results.countP fun r => decide (r.state = .missingNode)
  incomplete : t.incomplete = acc.incomplete +
    results.countP fun r => decide (r.state = .incomplete)
  present : ∀ x, x ∈ t.present ↔ x ∈ acc.present ∨ x ∈ presentDestinations results

lemma EvidenceTally.add_counts {acc t : EvidenceTally} {result : DestinationResult F}
    (h : acc.add result = some t) : acc.Counts t [result] := by
  obtain ⟨destination, state⟩ := result
  unfold EvidenceTally.add at h
  rcases state with route | _ | _ | _
  · simp only at h
    split at h
    · cases h
      constructor <;> simp [DestinationState.isExact, presentDestinations, or_comm]
    · split_ifs at h
      · cases h
        constructor <;> simp [DestinationState.isExact, presentDestinations, or_comm]
      · obtain ⟨steps, -, rfl⟩ := Option.map_eq_some_iff.1 h
        constructor <;> simp [DestinationState.isExact, presentDestinations, or_comm]
  all_goals
    cases h
    constructor <;> simp [DestinationState.isExact, presentDestinations, or_comm]

lemma EvidenceTally.Counts.trans {t₁ t₂ t₃ : EvidenceTally} {xs ys : List (DestinationResult F)}
    (h : t₁.Counts t₂ xs) (h' : t₂.Counts t₃ ys) : t₁.Counts t₃ (xs ++ ys) := by
  constructor
  · rw [h'.exact, h.exact, List.countP_append, Nat.add_assoc]
  · rw [h'.unreachable, h.unreachable, List.countP_append, Nat.add_assoc]
  · rw [h'.missing, h.missing, List.countP_append, Nat.add_assoc]
  · rw [h'.incomplete, h.incomplete, List.countP_append, Nat.add_assoc]
  · intro x
    rw [h'.present, h.present, presentDestinations, presentDestinations, presentDestinations,
      List.filter_append, List.map_append, List.mem_append, or_assoc]

lemma foldlM_add_counts {results : List (DestinationResult F)} {acc t : EvidenceTally}
    (h : results.foldlM EvidenceTally.add acc = some t) : acc.Counts t results := by
  induction results generalizing acc with
  | nil =>
    cases h
    constructor <;> simp [presentDestinations]
  | cons result rest ih =>
    rw [List.foldlM_cons] at h
    obtain ⟨mid, hmid, hrest⟩ := Option.bind_eq_some_iff.1 h
    exact (EvidenceTally.add_counts hmid).trans (ih hrest)

omit [Binary64 F] in
/-- Short paths to few destinations never overflow the sum. -/
lemma foldlM_add_some {results : List (DestinationResult F)} {n : ℕ} (hn : n < 2 ^ 32)
    {nodes : Finset NodeId} (hnodes : nodes.card ≤ n)
    (hshort : ∀ r ∈ results, ∀ route path, r.state = .exact route → route.path = some path →
      path.steps.length ≤ n ∧ r.destination ∈ nodes)
    {acc : EvidenceTally} (hacc : acc.reconstructed ⊆ nodes)
    (hsteps : acc.reconstructionSteps ≤ acc.reconstructed.card * n) :
    ∃ t, results.foldlM EvidenceTally.add acc = some t ∧ t.reconstructed ⊆ nodes ∧
      t.reconstructionSteps ≤ t.reconstructed.card * n := by
  induction results generalizing acc with
  | nil => exact ⟨acc, rfl, hacc, hsteps⟩
  | cons result rest ih =>
    have hrest : ∀ r ∈ rest, ∀ route path, r.state = .exact route → route.path = some path →
        path.steps.length ≤ n ∧ r.destination ∈ nodes := fun r hr =>
      hshort r (List.mem_cons_of_mem _ hr)
    obtain ⟨mid, hmid, hsub, hle⟩ : ∃ mid, acc.add result = some mid ∧
        mid.reconstructed ⊆ nodes ∧ mid.reconstructionSteps ≤ mid.reconstructed.card * n := by
      have hhead := hshort result List.mem_cons_self
      obtain ⟨destination, state⟩ := result
      unfold EvidenceTally.add
      rcases state with ⟨distance, _ | path⟩ | _ | _ | _
      · exact ⟨_, rfl, hacc, hsteps⟩
      · obtain ⟨hlength, hmem⟩ := hhead ⟨distance, some path⟩ path rfl rfl
        simp only
        split_ifs with hseen
        · exact ⟨_, rfl, hacc, hsteps⟩
        · have hinsert : insert destination acc.reconstructed ⊆ nodes :=
            Finset.insert_subset hmem hacc
          have hcard := Finset.card_insert_of_notMem hseen
          have hbound : acc.reconstructionSteps + path.steps.length ≤
              (insert destination acc.reconstructed).card * n := by
            rw [hcard, Nat.add_mul, Nat.one_mul]
            omega
          have hfew : (insert destination acc.reconstructed).card * n ≤ n * n :=
            Nat.mul_le_mul_right _ ((Finset.card_le_card hinsert).trans hnodes)
          have hsquare : n * n < 2 ^ 64 := by
            calc n * n < 2 ^ 32 * 2 ^ 32 := Nat.mul_lt_mul'' hn hn
              _ = 2 ^ 64 := by norm_num
          have hadd : checkedAdd64 acc.reconstructionSteps path.steps.length =
              some (acc.reconstructionSteps + path.steps.length) :=
            checkedAdd64_eq_some.2 ⟨by omega, rfl⟩
          rw [hadd]
          exact ⟨_, rfl, hinsert, hbound⟩
      all_goals exact ⟨_, rfl, hacc, hsteps⟩
    obtain ⟨t, ht, hsub', hle'⟩ := ih hrest hsub hle
    refine ⟨t, ?_, hsub', hle'⟩
    rw [List.foldlM_cons, hmid]
    exact ht

/-! ## The response alone -/

/-- A profile passes its check exactly when its relation kinds ascend. -/
lemma validateProfileEntries_eq_ok {entries : List (RelationId × RelationUse)}
    {previous : Option RelationId} : validateProfileEntries previous entries = .ok () ↔
      (∀ p ∈ previous, ∀ e ∈ entries, p < e.1) ∧ entries.Pairwise fun a b => a.1 < b.1 := by
  induction entries generalizing previous with
  | nil => exact iff_of_true rfl ⟨fun _ _ => nofun, .nil⟩
  | cons entry rest ih =>
    obtain ⟨current, use⟩ := entry
    have hhead : (¬ previous = some current ∧
        ¬ previous.any (fun value => decide (current < value)) = true) ↔
          ∀ p ∈ previous, p < current := by
      rcases previous with _ | p
      · simp
      · simp only [Option.some.injEq, Option.any_some, decide_eq_true_eq, not_lt, Option.mem_def,
          forall_eq']
        exact ⟨fun h => lt_of_le_of_ne h.2 h.1, fun h => ⟨h.ne, h.le⟩⟩
    unfold validateProfileEntries
    rw [List.pairwise_cons]
    split_ifs with hsame hbelow
    · refine iff_of_false nofun fun h => ?_
      exact absurd (hhead.2 fun p hp => h.1 p hp _ List.mem_cons_self).1 (not_not.2 hsame)
    · refine iff_of_false nofun fun h => ?_
      exact (hhead.2 fun p hp => h.1 p hp _ List.mem_cons_self).2 hbelow
    · have hlt := hhead.1 ⟨hsame, hbelow⟩
      rw [ih]
      constructor
      · rintro ⟨hrest, hpairs⟩
        refine ⟨fun p hp e he => ?_, fun e he => hrest current rfl e he, hpairs⟩
        rcases List.mem_cons.1 he with rfl | he
        · exact hlt p hp
        · exact (hlt p hp).trans (hrest current rfl e he)
      · rintro ⟨-, hcurrent, hpairs⟩
        refine ⟨fun p hp e he => ?_, hpairs⟩
        obtain rfl := Option.some.inj hp
        exact hcurrent e he

lemma canonical_validate {image : RoutingImage} (wf : image.WellFormed) {profile : RelationProfile}
    {packed : PackedRelationProfile}
    (hpack : profile.packRelationIds image.confirmedRelationIds = .ok packed) :
    packed.canonical.validate = .ok () := by
  refine validateProfileEntries_eq_ok.2 ⟨nofun, List.pairwise_map.1 ?_⟩
  have hlength := RelationProfile.packRelationIds_length wf.relations_nodup hpack
  rw [RelationProfile.packRelationIds_canonical wf.relations_nodup hpack,
    List.map_fst_zip hlength.ge]
  exact wf.relations_ascending

omit [Binary64 F] in
/-- Connected steps pass the checks of a path's shape. -/
lemma Connects.chain {source destination : NodeId} {steps : List (PathStep F)}
    (h : Connects source steps destination) :
    steps.IsChain (fun a b => a.destination = b.source) ∧
      (∀ step ∈ steps.head?, step.source = source) ∧
      ∀ step ∈ steps.getLast?, step.destination = destination := by
  induction steps generalizing source with
  | nil => simp
  | cons step rest ih =>
    obtain ⟨hsource, hrest⟩ := h
    obtain ⟨hchain, hhead, hlast⟩ := ih hrest
    refine ⟨?_, by simpa using hsource, ?_⟩
    · refine List.isChain_cons.2 ⟨fun next hnext => ?_, hchain⟩
      exact (hhead next hnext).symm
    · rcases rest with _ | ⟨next, rest⟩
      · have hend : step.destination = destination := hrest
        simpa using hend
      · simpa using hlast

omit [Binary64 F] in
lemma RoutePath.validateEndpoints_of_connects {path : RoutePath F}
    (h : Connects path.origin path.steps path.destination) : path.validateEndpoints = .ok () := by
  obtain ⟨origin, destination, distance, steps⟩ := path
  obtain ⟨hchain, hhead, hlast⟩ := h.chain
  unfold RoutePath.validateEndpoints
  rcases steps with _ | ⟨first, rest⟩
  · exact if_neg (not_not.2 h)
  · have hneighbours : anyNeighbours (fun a b => decide (a.destination ≠ b.source))
        (first :: rest) = false := by
      rw [anyNeighbours_eq_false]
      simpa using hchain
    have hend : ((first :: rest).getLast?.any fun step =>
        decide (step.destination ≠ destination)) = false := by
      rcases hget : (first :: rest).getLast? with _ | step
      · rfl
      · simpa using hlast step hget
    simp only [hneighbours, hend, Bool.false_eq_true, if_false]
    exact if_neg (not_not.2 (hhead first rfl))

lemma PathStep.validate_of_finite {step : PathStep F}
    (h : Binary64.isFinite step.effectiveWeight = true) : step.validate = .ok () := by
  have hweight : validateBaseWeight step.baseWeight.toBits = .ok () := by
    simp [validateBaseWeight]
  have hmultiplier : validateMultiplier step.multiplier.toBits = .ok () :=
    if_pos step.multiplier.finite
  unfold PathStep.validate
  rw [hweight, ok_bind, hmultiplier, ok_bind]
  exact if_pos h

lemma pathStep_finite {image : RoutingImage} {packed : PackedRelationProfile} {v : DenseNodeId}
    {q : Predecessor} {edge : OutgoingEdge} {step : PathStep F}
    (h : pathStep image.topology packed v q edge = .ok step) :
    Binary64.isFinite step.effectiveWeight = true := by
  unfold pathStep at h
  split_ifs at h
  split at h
  · cases h
  · cases h
  · obtain ⟨effective, heffective, h⟩ := bind_eq_ok.1 h
    obtain ⟨_, -, h⟩ := bind_eq_ok.1 h
    obtain ⟨_, -, h⟩ := bind_eq_ok.1 h
    cases h
    simp only [effectiveWeight] at heffective
    split_ifs at heffective with hfinite
    cases heffective
    exact hfinite

/-- The steps a reconstruction collects carry finite weights. -/
lemma reconstructSteps_finite {image : RoutingImage} {packed : PackedRelationProfile}
    {signal : CancellationSignal} {origin : DenseNodeId} {p : DenseNodeId → Option Predecessor}
    {fuel : ℕ} {v : DenseNodeId} {visited : DenseNodeId → Bool} {steps out : List (PathStep F)}
    {count count' : ℕ} {w w' : World Unit}
    (h : reconstructSteps image.topology signal packed origin p fuel v visited steps count w =
      (.ok (some out), count', w'))
    (hsteps : ∀ step ∈ steps, Binary64.isFinite step.effectiveWeight = true) :
    ∀ step ∈ out, Binary64.isFinite step.effectiveWeight = true := by
  induction fuel generalizing v visited steps count w with
  | zero => cases h
  | succ fuel ih =>
    rcases reconstructSteps_succ_ok h with ⟨-, rfl, -⟩ | ⟨-, q, edge, step, w₁, -, -, hstep, hrest⟩
    · exact hsteps
    · refine ih hrest fun s hs => ?_
      rcases List.mem_cons.1 hs with rfl | hs
      · exact pathStep_finite hstep
      · exact hsteps s hs

lemma StepsOf.finite {image : RoutingImage} {packed : PackedRelationProfile} {origin : DenseNodeId}
    {st : SearchState F} {dense : DenseNodeId} {steps : List (PathStep F)}
    (h : StepsOf image packed origin st dense steps) :
    ∀ step ∈ steps, Binary64.isFinite step.effectiveWeight = true := by
  obtain ⟨_, -, ⟨-, rfl⟩ | ⟨-, _, _, _, _, _, _, _, hsteps⟩⟩ := h
  · simp
  · exact reconstructSteps_finite hsteps (by simp)

section Response

variable {image : RoutingImage} {request : RoutingRequest} {response : RoutingResponse F}
  {result : DestinationResult F}

lemma validateDistance_eq_ok (hcorrect : ResultCorrect image request result) {route : ExactRoute F}
    (hstate : result.state = .exact route) :
    validateNonnegative route.logicalDistance "logical distance" = .ok () := by
  obtain ⟨_, _, arcs, -, -, -, hcost⟩ := (hcorrect.exact_least route hstate).1
  exact if_pos (isFinite_of_cost hcost)

/-- A genuine path passes its checks. -/
lemma validatePath_eq_ok (horigin : response.origin = request.origin)
    (hcorrect : ResultCorrect image request result) (hgenuine : PathGenuine image request result)
    (hfinite : ∀ route path, result.state = .exact route → route.path = some path →
      ∀ step ∈ path.steps, Binary64.isFinite step.effectiveWeight = true)
    {route : ExactRoute F} (hstate : result.state = .exact route) :
    response.validatePath result.destination route = .ok () := by
  unfold RoutingResponse.validatePath
  split
  · rfl
  rename_i path hpath
  obtain ⟨hfrom, hto, hlength, hpathGenuine⟩ := hgenuine route path hstate hpath
  have hvalid : path.validate = .ok () := by
    unfold RoutePath.validate
    rw [RoutePath.validateEndpoints_of_connects hpathGenuine.connects, ok_bind, hlength,
      validateDistance_eq_ok hcorrect hstate, ok_bind]
    exact forM_eq_ok _ fun step hstep =>
      PathStep.validate_of_finite (hfinite route path hstate hpath step hstep)
  rw [hvalid, ok_bind]
  exact if_neg (by simp [hfrom, hto, hlength, horigin])

/-- An entry passes its checks once a path is present exactly as requested. -/
lemma validateResult_eq_ok (horigin : response.origin = request.origin)
    (hcorrect : ResultCorrect image request result) (hgenuine : PathGenuine image request result)
    (hfinite : ∀ route path, result.state = .exact route → route.path = some path →
      ∀ step ∈ path.steps, Binary64.isFinite step.effectiveWeight = true)
    (hpresent : ∀ route, result.state = .exact route →
      route.path.isSome = response.pathsRequested) :
    response.validateResult result = .ok () := by
  unfold RoutingResponse.validateResult
  split
  swap
  · rfl
  rename_i route hstate
  rw [validateDistance_eq_ok hcorrect hstate, ok_bind,
    validatePath_eq_ok horigin hcorrect hgenuine hfinite hstate, ok_bind]
  exact if_neg (by simp [hpresent route hstate])

/-- A genuine path visits no node twice, so it has fewer steps than the image has nodes. -/
lemma length_le_of_genuine {profile : RelationProfile} {path : RoutePath F}
    (h : path.Genuine image profile) : path.steps.length ≤ image.nodeCount := by
  have hsubset : path.steps.map (·.destination) ⊆ image.denseToExternal := by
    intro x hx
    obtain ⟨step, hstep, rfl⟩ := List.mem_map.1 hx
    obtain ⟨⟨_, _, edge, -, -, hdestination, -⟩, -⟩ := h.steps_genuine step hstep
    exact List.mem_of_getElem? hdestination
  have hle := ((List.nodup_cons.1 h.simple).2.subperm hsubset).length_le
  rw [List.length_map] at hle
  exact hle

end Response

end PathHydra
