import PathHydra.Properties.Routing.Search

/-!
# Path evidence

`RoutePath.Genuine` says what a returned path claims: it is a simple directed walk from the origin
to the destination over edges of the image that the profile enables, every step reports its edge
and its effective weight, and the left fold of the effective weights is the reported distance.
`reconstructPath_spec` shows that walking a predecessor table back from a final node yields such a
path or is interrupted, and never fails: predecessors point backwards in the order of
finalization, so the walk visits each node once and reaches the origin, and each of them
reproduces the distance of its node from the distance of its source.
-/

namespace PathHydra

variable {F : Type} [Binary64 F]

/-! ## Genuine paths -/

/-- The steps lead from one node to another, each starting where the previous one ended. -/
def Connects : NodeId → List (PathStep F) → NodeId → Prop
  | source, [], destination => source = destination
  | source, step :: rest, destination =>
    step.source = source ∧ Connects step.destination rest destination

/-- The step is an enabled edge of the image, reported with its own data. -/
def PathStep.Genuine (image : RoutingImage) (profile : RelationProfile) (step : PathStep F) :
    Prop :=
  (∃ source adjacency edge, image.HasEdge source adjacency edge ∧
    image.externalNodeId source = some step.source ∧
    image.externalNodeId edge.destination = some step.destination ∧
    edge.edgeId = step.edgeId ∧ edge.relationId = step.relationId ∧
    edge.baseWeight = step.baseWeight) ∧
  profile.Enables step.relationId step.multiplier ∧
  step.effectiveWeight =
    Binary64.ofBinary32 step.baseWeight.toBits * Binary64.ofBinary32 step.multiplier.toBits

/-- The path is a simple directed walk over genuine steps whose effective weights fold to its
distance. -/
structure RoutePath.Genuine (image : RoutingImage) (profile : RelationProfile)
    (path : RoutePath F) : Prop where
  connects : Connects path.origin path.steps path.destination
  steps_genuine : ∀ step ∈ path.steps, step.Genuine image profile
  simple : (path.origin :: path.steps.map (·.destination)).Nodup
  sum_eq : sumSteps path.steps = .ok path.logicalDistance

/-! ## Walking back -/

lemma Precedes.of_suffix {predecessors : DenseNodeId → Option Predecessor} {origin : DenseNodeId}
    {front back : List DenseNodeId} (h : Precedes predecessors origin (front ++ back)) :
    Precedes predecessors origin back := by
  induction front with
  | nil => exact h
  | cons v rest ih => exact ih h.2

section Reconstruct

variable {image : RoutingImage} {profile : RelationProfile} {packed : PackedRelationProfile}
  {origin : DenseNodeId} {order : List DenseNodeId} {distances : DenseNodeId → Option F}
  {predecessors : DenseNodeId → Option Predecessor} {signal : CancellationSignal}

lemma effectiveWeight_eq_ok {weight : BaseWeight} {multiplier : RelationMultiplier} {w : F}
    (h : effectiveWeight weight multiplier = .ok w) :
    w = Binary64.ofBinary32 weight.toBits * Binary64.ofBinary32 multiplier.toBits := by
  simp only [effectiveWeight] at h
  split_ifs at h
  exact (Except.ok.inj h).symm

/-- The edge of a justified predecessor passes every check of the reconstruction, and its step
prolongs the distance of its source to that of its node. -/
lemma pathStep_spec (wf : image.WellFormed)
    (hpack : profile.packRelationIds image.confirmedRelationIds = .ok packed)
    {q : Predecessor} {v : DenseNodeId} {d : F} (hv : v.asUsize < image.nodeCount)
    (hsource : q.source.asUsize < image.nodeCount)
    (h : Justifies image profile distances q v d) :
    ∃ start stop edge step c source destination,
      image.outgoingRange q.source = some (start, stop) ∧
      start ≤ q.adjacency ∧ q.adjacency < stop ∧
      image.edgeAt q.adjacency = some edge ∧ pathStep image.topology packed v q edge = .ok step ∧
      step.Genuine image profile ∧ image.externalNodeId q.source = some source ∧
      image.externalNodeId v = some destination ∧ step.source = source ∧
      step.destination = destination ∧ distances q.source = some c ∧
      accumulateDistance c step.effectiveWeight = .ok d := by
  obtain ⟨⟨arcSource, adjacency, edge, multiplier⟩, c, ⟨hedge, henabled⟩, rfl, rfl, hid, rfl, hc,
    hextend⟩ := h
  obtain ⟨start, stop, hrange, hstart, hstop, hat⟩ := id hedge
  obtain ⟨source, hsource'⟩ := RoutingImage.WellFormed.externalNodeId_of_lt hsource
  obtain ⟨destination, hdestination⟩ := RoutingImage.WellFormed.externalNodeId_of_lt hv
  obtain ⟨use, huse, henables⟩ := relationUse_of_edgeAt wf hpack hat
  obtain rfl := (henables multiplier).1 henabled
  simp only [extendDistance, bind_eq_ok] at hextend
  obtain ⟨effective, hweight, hsum⟩ := hextend
  refine ⟨start, stop, edge, ⟨edge.edgeId, source, destination, edge.relationId, edge.baseWeight,
    multiplier, effective⟩, c, source, destination, hrange, hstart, hstop, hat, ?_, ?_, hsource',
    hdestination, rfl, rfl, hc, hsum⟩
  · have hchecks : ¬ (edge.edgeId ≠ q.edge ∨ edge.destination ≠ edge.destination) := by
      simpa using hid
    simp only [pathStep, hchecks, if_false, huse, hweight, ok_bind, RoutingImage.topology,
      hsource', hdestination, okOr_some]
    rfl
  · exact ⟨⟨q.source, q.adjacency, edge, hedge, hsource', hdestination, rfl, rfl, rfl⟩, henabled,
      effectiveWeight_eq_ok hweight⟩

/-- What has been collected when the walk back stands at a node: the steps from there to the
destination, over nodes outside `suffix`, the nodes that were final no later than this one. -/
structure WalkedBack (image : RoutingImage) (profile : RelationProfile)
    (distances : DenseNodeId → Option F) (destination : NodeId) (distance : F)
    (suffix : List DenseNodeId) (current : DenseNodeId) (visited : DenseNodeId → Bool)
    (steps : List (PathStep F)) : Prop where
  connects : ∀ external, image.externalNodeId current = some external →
    Connects external steps destination
  steps_genuine : ∀ step ∈ steps, step.Genuine image profile
  simple : (steps.map (·.destination)).Nodup
  fresh : ∀ v ∈ suffix, ∀ external, image.externalNodeId v = some external →
    external ∉ steps.map (·.destination)
  sum_eq : ∀ c, distances current = some c →
    steps.foldlM (fun sum step => accumulateDistance sum step.effectiveWeight) c = .ok distance
  unvisited : ∀ v ∈ suffix, visited v = false
  length_le : steps.length + suffix.length ≤ image.nodeCount

/-- The outcome of the walk: an interruption, or steps from the origin. -/
def ReconstructPost (image : RoutingImage) (profile : RelationProfile) (origin : DenseNodeId)
    (destination : NodeId) (distance : F) (signal : CancellationSignal) :
    Except RoutingError (Option (List (PathStep F))) → Prop
  | .error _ => False
  | .ok none => ∃ n, signal n = true
  | .ok (some steps) => ∀ external, image.externalNodeId origin = some external →
      (⟨external, destination, distance, steps⟩ : RoutePath F).Genuine image profile

lemma reconstructSteps_spec (signal : CancellationSignal) (wf : image.WellFormed)
    (hpack : profile.packRelationIds image.confirmedRelationIds = .ok packed)
    (hpred : PredecessorInv image profile origin order distances predecessors)
    (horder : ∀ v ∈ order, v.asUsize < image.nodeCount)
    (hlabelled : ∀ v ∈ order, ∃ d, distances v = some d)
    (horigin : distances origin = some 0) {destination : NodeId} {distance : F} {fuel : ℕ}
    {rest : List DenseNodeId} {current : DenseNodeId} {visited : DenseNodeId → Bool}
    {steps : List (PathStep F)} (count : ℕ) (w : World Unit)
    (hsubset : current :: rest ⊆ order) (hnodup : (current :: rest).Nodup)
    (hprecedes : Precedes predecessors origin (current :: rest)) (hfuel : rest.length < fuel)
    (inv : WalkedBack image profile distances destination distance (current :: rest) current
      visited steps) :
    ReconstructPost image profile origin destination distance signal
      (reconstructSteps image.topology signal packed origin predecessors fuel current visited
        steps count w).1 := by
  -- the fuel outlasts the settled nodes before the current one, for every predecessor is earlier
  induction fuel generalizing rest current visited steps count w with
  | zero => omega
  | succ fuel ih =>
    unfold reconstructSteps
    by_cases hdone : current = origin
    · -- back at the origin
      rw [if_pos hdone]
      subst hdone
      intro external hexternal
      refine ⟨inv.connects external hexternal, inv.steps_genuine, ?_, inv.sum_eq 0 horigin⟩
      exact List.nodup_cons.2 ⟨inv.fresh _ List.mem_cons_self _ hexternal, inv.simple⟩
    · rw [if_neg hdone]
      simp only [World.isCancelled]
      cases hpoll : signal w.polls with
      | true => exact ⟨_, hpoll⟩
      | false =>
        -- the guard against cycles does not fire
        have hcurrent : current ∈ order := hsubset List.mem_cons_self
        have hcycle : ¬ (visited current || decide (image.topology.nodeCount ≤ steps.length)) =
            true := by
          have hlength := inv.length_le
          simp only [List.length_cons] at hlength
          have hcount : image.topology.nodeCount = image.nodeCount := rfl
          rw [inv.unvisited _ List.mem_cons_self, Bool.false_or, decide_eq_true_eq, hcount]
          omega
        obtain ⟨d, hd⟩ := hlabelled current hcurrent
        -- the predecessor is recorded, settled before, and its edge is in its own range
        obtain ⟨q, hq, hqorder, hjustifies⟩ := hpred.justified current d hd hdone
        have hqrest : q.source ∈ rest := by
          rcases hprecedes.1 with h | ⟨q', hq', hmem⟩
          · exact absurd h hdone
          · obtain rfl : q = q' := Option.some.inj (hq.symm.trans hq')
            exact hmem
        obtain ⟨start, stop, edge, step, c, source, target, hrange, hstart, hstop, hat, hstep,
          hgenuine, hsource, htarget, rfl, rfl, hc, hsum⟩ :=
          pathStep_spec wf hpack (horder _ hcurrent) (horder _ hqorder) hjustifies
        have hrange' : image.topology.outgoingRange q.source = .ok (start, stop) := by
          simp [RoutingImage.topology, hrange]
        have hbounds : ¬ ¬ (start ≤ q.adjacency ∧ q.adjacency < stop) := by
          simp [hstart, hstop]
        simp only [hcycle, Bool.false_eq_true, if_false, hq, hrange', hbounds,
          topology_edgeAt hat, hstep]
        -- the walk goes on from the predecessor, with the nodes settled before it
        obtain ⟨front, back, rfl⟩ := List.append_of_mem hqrest
        have hsuffix : (q.source :: back) ⊆ current :: (front ++ q.source :: back) :=
          fun v hv => List.mem_cons_of_mem _ (List.mem_append_right _ hv)
        have hnotin : ∀ v ∈ q.source :: back, v ≠ current := by
          rintro v hv rfl
          exact (List.nodup_cons.1 hnodup).1 (List.mem_append_right _ hv)
        refine ih _ _ (fun v hv => hsubset (hsuffix hv)) ?_ hprecedes.2.of_suffix ?_ ?_
        · exact (List.nodup_cons.1 hnodup).2.sublist (List.sublist_append_right _ _)
        · simp only [List.length_append, List.length_cons] at hfuel
          omega
        · refine
            { connects := ?_
              steps_genuine := ?_
              simple := ?_
              fresh := ?_
              sum_eq := ?_
              unvisited := ?_
              length_le := ?_ }
          · intro external hexternal
            rw [hsource] at hexternal
            exact ⟨Option.some.inj hexternal, inv.connects _ htarget⟩
          · intro s hs
            rcases List.mem_cons.1 hs with rfl | hs
            · exact hgenuine
            · exact inv.steps_genuine s hs
          · exact List.nodup_cons.2 ⟨inv.fresh _ List.mem_cons_self _ htarget, inv.simple⟩
          · intro v hv external hexternal
            simp only [List.map_cons, List.mem_cons, not_or]
            refine ⟨?_, inv.fresh v (hsuffix hv) external hexternal⟩
            rintro rfl
            exact hnotin v hv (wf.externalNodeId_inj hexternal htarget)
          · intro c' hc'
            obtain rfl : c = c' := Option.some.inj (hc.symm.trans hc')
            rw [List.foldlM_cons, hsum, ok_bind]
            exact inv.sum_eq d hd
          · intro v hv
            rw [Function.update_of_ne (hnotin v hv)]
            exact inv.unvisited v (hsuffix hv)
          · have hlength := inv.length_le
            simp only [List.length_append, List.length_cons] at hlength ⊢
            omega

/-- Reconstructing the path of a final node never fails, and what it returns is genuine. -/
theorem reconstructPath_spec (signal : CancellationSignal) (wf : image.WellFormed)
    (hpack : profile.packRelationIds image.confirmedRelationIds = .ok packed)
    {st : SearchState F} {scan : List ℕ}
    (inv : SearchInv image profile origin order scan st)
    (hpredecessors : st.predecessors = some predecessors) {externalOrigin destination : NodeId}
    {dense : DenseNodeId} {distance : F} (hdense : dense ∈ order ∨ dense = origin)
    (horigin : image.externalNodeId origin = some externalOrigin)
    (hdestination : image.externalNodeId dense = some destination)
    (hdistance : st.distances dense = some distance) (count : ℕ) (w : World Unit) :
    match (reconstructPath image.topology signal packed externalOrigin origin destination dense
      distance predecessors count w).1 with
    | .error _ => False
    | .ok none => ∃ n, signal n = true
    | .ok (some path) => path.origin = externalOrigin ∧ path.destination = destination ∧
        path.logicalDistance = distance ∧ path.Genuine image profile := by
  unfold reconstructPath
  by_cases heq : origin = dense
  · rw [if_pos heq]
    subst heq
    obtain rfl : externalOrigin = destination :=
      Option.some.inj (horigin.symm.trans hdestination)
    obtain rfl : (0 : F) = distance := Option.some.inj (inv.origin_label.symm.trans hdistance)
    exact ⟨rfl, rfl, rfl, rfl, by simp, by simp, rfl⟩
  · rw [if_neg heq]
    -- the settled nodes up to the destination are what the walk back can pass
    have hmem : dense ∈ order := hdense.resolve_right (Ne.symm heq)
    have hpred := inv.predecessor predecessors hpredecessors
    obtain ⟨front, back, rfl⟩ := List.append_of_mem hmem
    have hlabelled : ∀ v ∈ front ++ dense :: back, ∃ d, st.distances v = some d := fun v hv => by
      obtain ⟨d, hd, -⟩ := inv.settled_min v hv
      exact ⟨d, hd⟩
    have hlength := RoutingImage.WellFormed.length_le_nodeCount inv.nodup
      fun v hv => inv.order_lt hv
    simp only [List.length_append, List.length_cons] at hlength
    have hstart : WalkedBack image profile st.distances destination distance (dense :: back) dense
        (fun _ => false) ([] : List (PathStep F)) :=
      { connects := fun external h => Option.some.inj (h.symm.trans hdestination)
        steps_genuine := by simp
        simple := by simp
        fresh := by simp
        sum_eq := fun c hc => by
          obtain rfl : c = distance := Option.some.inj (hc.symm.trans hdistance)
          rfl
        unvisited := fun _ _ => rfl
        length_le := by
          simp only [List.length_nil, List.length_cons]
          omega }
    have hspec := reconstructSteps_spec signal wf hpack hpred (fun v hv => inv.order_lt hv)
      hlabelled inv.origin_label count w (List.subset_append_right _ _)
      (inv.nodup.sublist (List.sublist_append_right _ _)) hpred.precedes.of_suffix
      (show back.length < image.nodeCount + 1 by omega) hstart
    have hcount : image.topology.nodeCount = image.nodeCount := rfl
    rw [hcount]
    -- the sum is computed once more and compared, which cannot fail either
    revert hspec
    generalize reconstructSteps image.topology signal packed origin predecessors
      (image.nodeCount + 1) dense (fun _ => false) ([] : List (PathStep F)) count w = out
    obtain ⟨result, count', w'⟩ := out
    match result with
    | .error _ => exact id
    | .ok none => exact id
    | .ok (some steps) =>
      intro hspec
      have hgenuine := hspec externalOrigin horigin
      have hsum : sumSteps steps = .ok distance := hgenuine.sum_eq
      simpa [hsum] using hgenuine

end Reconstruct

end PathHydra
