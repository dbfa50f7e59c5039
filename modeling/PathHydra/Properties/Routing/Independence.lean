import Mathlib.Logic.Relation
import PathHydra.Properties.Routing.Results

/-!
# Answers do not depend on what else was asked

A search over an image is a prefix of one canonical run, fixed by the origin and the packed
profile: pop the least entry, finalize its node, relax its edges one by one.  The destinations, the
budget and the signal decide only where a search stops in that run.  Of two searches with the same
origin and profile one is therefore a prefix of the other (`CanonicalStep.rightUnique`), and nothing
about a final node changes later (`CanonicalStep.frozen`).
-/

namespace PathHydra

variable {F : Type} [Binary64 F]

/-! ## Profiles with the same entries -/

namespace RelationProfile

/-- The canonical form of a packed profile lists its uses in relation order. -/
lemma packRelationIds_canonical {ids : List RelationId} (hids : ids.Nodup) {p : RelationProfile}
    {packed : PackedRelationProfile} (h : p.packRelationIds ids = .ok packed) :
    packed.canonical.entries = ids.zip packed.uses := by
  unfold packRelationIds at h
  obtain ⟨byIndex, hfiled, h⟩ := bind_eq_ok.1 h
  obtain ⟨canonical, huses, h⟩ := bind_eq_ok.1 h
  cases h
  obtain ⟨hlength, -⟩ := packEntries_getElem? hids (by simp) hfiled
  have hfst : canonical.map Prod.fst = ids := by
    have hmap := congrArg (List.map Prod.fst) (packUses_eq_ok huses)
    rw [List.map_fst_zip hlength.ge, List.map_map] at hmap
    exact hmap.symm
  show canonical = ids.zip (canonical.map Prod.snd)
  rw [← hfst]
  exact List.zip_of_prod rfl rfl

/-- Packing does not see the order of the entries. -/
lemma packRelationIds_congr {ids : List RelationId} (hids : ids.Nodup) {p p' : RelationProfile}
    (hentries : ∀ e, e ∈ p.entries ↔ e ∈ p'.entries) {packed packed' : PackedRelationProfile}
    (h : p.packRelationIds ids = .ok packed) (h' : p'.packRelationIds ids = .ok packed') :
    packed = packed' := by
  have hlength := packRelationIds_length hids h
  have hlength' := packRelationIds_length hids h'
  have huses : packed.uses = packed'.uses := by
    refine List.ext_getElem? fun i => ?_
    rcases hi : ids[i]? with _ | id
    · have hle := List.getElem?_eq_none_iff.1 hi
      rw [List.getElem?_eq_none_iff.2 (by omega), List.getElem?_eq_none_iff.2 (by omega)]
    · refine Option.ext fun use => ?_
      rw [packRelationIds_uses hids h hi, packRelationIds_uses hids h' hi]
      exact hentries (id, use)
  have hcanonical := packRelationIds_canonical hids h
  rw [huses, ← packRelationIds_canonical hids h'] at hcanonical
  obtain ⟨uses, ⟨entries⟩⟩ := packed
  obtain ⟨uses', ⟨entries'⟩⟩ := packed'
  obtain rfl : uses = uses' := huses
  obtain rfl : entries = entries' := hcanonical
  rfl

end RelationProfile

/-- The network of an image depends on the entries of the profile as a set. -/
lemma routingNetwork_congr (image : RoutingImage) {p p' : RelationProfile}
    (hentries : ∀ e, e ∈ p.entries ↔ e ∈ p'.entries) :
    routingNetwork F image p = routingNetwork F image p' := by
  have hEnables : p.Enables = p'.Enables := by
    funext id multiplier
    exact propext (hentries _)
  simp only [routingNetwork, hEnables]

/-! ## The canonical run -/

/-- A place in the canonical run: the search state, and the edges of the latest final node that
are still to be relaxed. -/
structure RunPlace (F : Type*) where
  search : SearchState F
  scan : List (FrontierEntry F × ℕ)

/-- An entry that no longer describes its node. -/
def SearchState.Stale (st : SearchState F) (current : FrontierEntry F) : Prop :=
  st.finalized current.node = true ∨ st.distances current.node ≠ some current.distance

/-- The edges to relax after a node has become final. -/
def RoutingImage.scan (image : RoutingImage) (current : FrontierEntry F) :
    List (FrontierEntry F × ℕ) :=
  match image.outgoingRange current.node with
  | none => []
  | some (start, stop) => (List.range' start (stop - start)).map fun i => (current, i)

/-- One step of the canonical run. -/
inductive CanonicalStep (image : RoutingImage) (packed : PackedRelationProfile) :
    RunPlace F → RunPlace F → Prop
  | relax {st st' : SearchState F} {current : FrontierEntry F} {i : ℕ}
      {rest : List (FrontierEntry F × ℕ)} {edge : OutgoingEdge}
      (hedge : image.edgeAt i = some edge) (hrelax : relaxEdge packed current i edge st = .ok st') :
      CanonicalStep image packed ⟨st, (current, i) :: rest⟩ ⟨st', rest⟩
  | drop {st : SearchState F} {current : FrontierEntry F} {frontier : List (FrontierEntry F)}
      (hpop : popFrontier st.frontier = some (current, frontier)) (hstale : st.Stale current) :
      CanonicalStep image packed ⟨st, []⟩ ⟨{ st with frontier := frontier }, []⟩
  | finalize {st : SearchState F} {current : FrontierEntry F}
      {frontier : List (FrontierEntry F)}
      (hpop : popFrontier st.frontier = some (current, frontier)) (hfresh : ¬ st.Stale current) :
      CanonicalStep image packed ⟨st, []⟩
        ⟨{ st with frontier := frontier, finalized := Function.update st.finalized current.node true },
          image.scan current⟩

/-- Where the canonical run starts. -/
def RunPlace.start (origin : DenseNodeId) : RunPlace F where
  search :=
    { pending := fun _ => false
      pendingCount := 0
      distances := Function.update (fun _ => none) origin (some 0)
      finalized := fun _ => false
      predecessors := some fun _ => none
      frontier := [⟨0, origin⟩]
      examinedEdges := 0
      finalizedNodes := 0
      relaxationUpdates := 0
      frontierHighWaterMark := 1
      firstDestination := false }
  scan := []

variable {image : RoutingImage} {packed : PackedRelationProfile}

/-- The canonical run never branches. -/
lemma CanonicalStep.rightUnique :
    Relator.RightUnique (CanonicalStep (F := F) image packed) := by
  intro c c₁ c₂ h₁ h₂
  cases h₁ with
  | relax hedge hrelax =>
    cases h₂ with
    | relax hedge' hrelax' =>
      obtain rfl := Option.some.inj (hedge.symm.trans hedge')
      obtain rfl := Except.ok.inj (hrelax.symm.trans hrelax')
      rfl
  | drop hpop hstale =>
    cases h₂ with
    | drop hpop' _ =>
      obtain ⟨rfl, rfl⟩ := Prod.mk.inj (Option.some.inj (hpop.symm.trans hpop'))
      rfl
    | finalize hpop' hfresh' =>
      obtain ⟨rfl, rfl⟩ := Prod.mk.inj (Option.some.inj (hpop.symm.trans hpop'))
      exact absurd hstale hfresh'
  | finalize hpop hfresh =>
    cases h₂ with
    | drop hpop' hstale' =>
      obtain ⟨rfl, rfl⟩ := Prod.mk.inj (Option.some.inj (hpop.symm.trans hpop'))
      exact absurd hstale' hfresh
    | finalize hpop' _ =>
      obtain ⟨rfl, rfl⟩ := Prod.mk.inj (Option.some.inj (hpop.symm.trans hpop'))
      rfl

/-! ## Final nodes are frozen -/

/-- What a search has said about its final nodes stays. -/
structure Frozen (st st' : SearchState F) : Prop where
  finalized : ∀ v, st.finalized v = true → st'.finalized v = true
  distances : ∀ v, st.finalized v = true → st'.distances v = st.distances v
  predecessors : ∀ p, st.predecessors = some p →
    ∃ p', st'.predecessors = some p' ∧ ∀ v, st.finalized v = true → p' v = p v

namespace Frozen

omit [Binary64 F] in
lemma refl (st : SearchState F) : Frozen st st :=
  ⟨fun _ h => h, fun _ _ => rfl, fun p h => ⟨p, h, fun _ _ => rfl⟩⟩

omit [Binary64 F] in
lemma trans {st₁ st₂ st₃ : SearchState F} (h₁ : Frozen st₁ st₂) (h₂ : Frozen st₂ st₃) :
    Frozen st₁ st₃ := by
  refine ⟨fun v hv => h₂.finalized v (h₁.finalized v hv), fun v hv => ?_, fun p hp => ?_⟩
  · rw [h₂.distances v (h₁.finalized v hv), h₁.distances v hv]
  · obtain ⟨p', hp', heq⟩ := h₁.predecessors p hp
    obtain ⟨p'', hp'', heq'⟩ := h₂.predecessors p' hp'
    refine ⟨p'', hp'', fun v hv => ?_⟩
    rw [heq' v (h₁.finalized v hv), heq v hv]

end Frozen

omit [Binary64 F] in
lemma update_of_finalized {st : SearchState F} {α : Type*} {f : DenseNodeId → α} {a : α}
    {u v : DenseNodeId} (hv : st.finalized v = false) (hu : st.finalized u = true) :
    Function.update f v a u = f u := by
  refine Function.update_of_ne ?_ a f
  rintro rfl
  simp [hu] at hv

omit [Binary64 F] in
lemma improveLabel_frozen {st : SearchState F} {v : DenseNodeId} {d : F} {q : Predecessor}
    (hv : st.finalized v = false) : Frozen st (improveLabel st v d q) := by
  refine ⟨fun _ h => h, fun u hu => update_of_finalized hv hu, fun p hp => ?_⟩
  refine ⟨Function.update p v (some q), by simp [improveLabel, setPredecessor, hp], fun u hu => ?_⟩
  exact update_of_finalized hv hu

lemma applyCandidate_frozen {st : SearchState F} {v : DenseNodeId} {d : F} {q : Predecessor}
    (hv : st.finalized v = false) : Frozen st (applyCandidate st v d q) := by
  unfold applyCandidate
  split
  · exact improveLabel_frozen hv
  · split_ifs
    · exact improveLabel_frozen hv
    · refine ⟨fun _ h => h, fun _ _ => rfl, fun p hp => ?_⟩
      have htie : tiePredecessor st.predecessors v q = some
          (if replacesPredecessor (p v) q then Function.update p v (some q) else p) := by
        rw [hp]
        rfl
      refine ⟨_, htie, fun u hu => ?_⟩
      split_ifs
      · exact update_of_finalized hv hu
      · rfl
    · exact Frozen.refl st

/-- Relaxing an edge: nothing happens, or a candidate is applied to a node that is not final. -/
lemma relaxEdge_cases {current : FrontierEntry F} {i : ℕ} {edge : OutgoingEdge}
    {st st' : SearchState F} (h : relaxEdge packed current i edge st = .ok st') :
    (st' = st ∧ (packed.relationUseIndex edge.relationIndex = some .disabled ∨
        (∃ m, packed.relationUseIndex edge.relationIndex = some (.enabled m)) ∧
          st.finalized edge.destination = true)) ∨
      ∃ m d, packed.relationUseIndex edge.relationIndex = some (.enabled m) ∧
        st.finalized edge.destination = false ∧
        (effectiveWeight edge.baseWeight m >>= accumulateDistance current.distance) = .ok d ∧
        st' = applyCandidate st edge.destination d ⟨current.node, edge.edgeId, i⟩ := by
  unfold relaxEdge at h
  split at h
  · cases h
  · rename_i huse
    exact .inl ⟨(Except.ok.inj h).symm, .inl huse⟩
  · rename_i m huse
    split_ifs at h with hfinal
    · exact .inl ⟨(Except.ok.inj h).symm, .inr ⟨⟨m, huse⟩, hfinal⟩⟩
    · obtain ⟨w, hw, h⟩ := bind_eq_ok.1 h
      obtain ⟨d, hd, hst⟩ := bind_eq_ok.1 h
      refine .inr ⟨m, d, huse, by simpa using hfinal, ?_, (Except.ok.inj hst).symm⟩
      rw [hw, ok_bind, hd]

lemma relaxEdge_frozen {current : FrontierEntry F} {i : ℕ} {edge : OutgoingEdge}
    {st st' : SearchState F} (h : relaxEdge packed current i edge st = .ok st') :
    Frozen st st' := by
  rcases relaxEdge_cases h with ⟨rfl, -⟩ | ⟨m, d, -, hnew, -, rfl⟩
  · exact Frozen.refl _
  · exact applyCandidate_frozen hnew

lemma CanonicalStep.frozen {c c' : RunPlace F} (h : CanonicalStep image packed c c') :
    Frozen c.search c'.search := by
  cases h with
  | relax hedge hrelax => exact relaxEdge_frozen hrelax
  | drop hpop hstale => exact ⟨fun _ h => h, fun _ _ => rfl, fun p h => ⟨p, h, fun _ _ => rfl⟩⟩
  | finalize hpop hfresh =>
    refine ⟨fun v hv => ?_, fun _ _ => rfl, fun p h => ⟨p, h, fun _ _ => rfl⟩⟩
    simp only [Function.update_apply]
    split_ifs
    · rfl
    · exact hv

lemma frozen_of_run {c c' : RunPlace F}
    (h : Relation.ReflTransGen (CanonicalStep image packed) c c') : Frozen c.search c'.search := by
  induction h with
  | refl => exact Frozen.refl _
  | tail _ hstep ih => exact ih.trans hstep.frozen

/-! ## A search follows the canonical run -/

/-- The search agrees with a place of the canonical run; a search without paths keeps no
predecessors. -/
structure Follows (st c : SearchState F) : Prop where
  distances : st.distances = c.distances
  finalized : st.finalized = c.finalized
  frontier : st.frontier = c.frontier
  predecessors : ∀ p, st.predecessors = some p → c.predecessors = some p

omit [Binary64 F] in
lemma Follows.congr {st st' c : SearchState F} (h : Follows st c)
    (hdistances : st'.distances = st.distances) (hfinalized : st'.finalized = st.finalized)
    (hfrontier : st'.frontier = st.frontier) (hpredecessors : st'.predecessors = st.predecessors) :
    Follows st' c :=
  ⟨hdistances.trans h.distances, hfinalized.trans h.finalized, hfrontier.trans h.frontier,
    fun p hp => h.predecessors p (hpredecessors ▸ hp)⟩

omit [Binary64 F] in
lemma improveLabel_follows {st c : SearchState F} (h : Follows st c) (v : DenseNodeId) (d : F)
    (q : Predecessor) : Follows (improveLabel st v d q) (improveLabel c v d q) := by
  refine ⟨?_, h.finalized, ?_, fun p hp => ?_⟩
  · simp only [improveLabel, h.distances]
  · simp only [improveLabel, h.frontier]
  · obtain ⟨p₀, hp₀, rfl⟩ := Option.map_eq_some_iff.1 hp
    simp only [improveLabel, setPredecessor, h.predecessors p₀ hp₀, Option.map_some]

lemma applyCandidate_follows {st c : SearchState F} (h : Follows st c) (v : DenseNodeId) (d : F)
    (q : Predecessor) : Follows (applyCandidate st v d q) (applyCandidate c v d q) := by
  have hlabel : st.distances v = c.distances v := congrFun h.distances v
  unfold applyCandidate
  rw [hlabel]
  split
  · exact improveLabel_follows h v d q
  · split_ifs
    · exact improveLabel_follows h v d q
    · refine ⟨h.distances, h.finalized, h.frontier, fun p hp => ?_⟩
      obtain ⟨p₀, hp₀, rfl⟩ := Option.map_eq_some_iff.1 hp
      simp only [tiePredecessor, h.predecessors p₀ hp₀, Option.map_some]
    · exact h

lemma relaxEdge_follows {current : FrontierEntry F} {i : ℕ} {edge : OutgoingEdge}
    {st st' c : SearchState F} (h : Follows st c)
    (hrelax : relaxEdge packed current i edge st = .ok st') :
    ∃ c', relaxEdge packed current i edge c = .ok c' ∧ Follows st' c' := by
  rcases relaxEdge_cases hrelax with ⟨rfl, hskip⟩ | ⟨m, d, huse, hnew, hd, rfl⟩
  · refine ⟨c, ?_, h⟩
    rcases hskip with huse | ⟨⟨m, huse⟩, hfinal⟩
    · simp only [relaxEdge, huse]
    · rw [h.finalized] at hfinal
      simp only [relaxEdge, huse, hfinal, if_true]
  · refine ⟨applyCandidate c edge.destination d ⟨current.node, edge.edgeId, i⟩, ?_,
      applyCandidate_follows h _ _ _⟩
    obtain ⟨w, hw, hd⟩ := bind_eq_ok.1 hd
    rw [h.finalized] at hnew
    simp only [relaxEdge, huse, hnew, hw, hd, ok_bind, Bool.false_eq_true, if_false]
    rfl

/-- A place of the canonical run that a search has reached, up to the frontier: a search that is
cancelled right after a pop has lost the popped entry. -/
def Reached (image : RoutingImage) (packed : PackedRelationProfile) (c : RunPlace F)
    (st : SearchState F) : Prop :=
  ∃ c' frontier, Relation.ReflTransGen (CanonicalStep image packed) c c' ∧
    Follows { st with frontier := frontier } c'.search

lemma Reached.of_run {c c' : RunPlace F} {st : SearchState F}
    (hrun : Relation.ReflTransGen (CanonicalStep image packed) c c')
    (h : Reached image packed c' st) : Reached image packed c st := by
  obtain ⟨c'', frontier, hrest, hfollows⟩ := h
  exact ⟨c'', frontier, hrun.trans hrest, hfollows⟩

lemma Follows.reached {c : RunPlace F} {st : SearchState F} (h : Follows st c.search) :
    Reached image packed c st := ⟨c, st.frontier, .refl, h⟩

/-- The inner loop is a prefix of the canonical scan. -/
lemma relaxRange_follows {signal : CancellationSignal} {budget : SearchBudget}
    {current : FrontierEntry F} {scan : List ℕ} {st st' c : SearchState F} {w w' : World Unit}
    {reason : Option CompletionReason} (h : Follows st c)
    (hrelax : relaxRange image.topology signal packed budget current scan st w =
      (.ok (reason, st'), w')) :
    (reason = none ∧ ∃ c', Relation.ReflTransGen (CanonicalStep image packed)
        ⟨c, scan.map fun i => (current, i)⟩ ⟨c', []⟩ ∧ Follows st' c') ∨
      (reason ≠ none ∧ Reached image packed ⟨c, scan.map fun i => (current, i)⟩ st') := by
  induction scan generalizing st c w with
  | nil =>
    cases hrelax
    exact .inl ⟨rfl, c, .refl, h⟩
  | cons i rest ih =>
    simp only [relaxRange, World.isCancelled] at hrelax
    split at hrelax
    · cases hrelax
      exact .inr ⟨by simp, h.reached⟩
    · split_ifs at hrelax
      · cases hrelax
        exact .inr ⟨by simp, h.reached⟩
      · split at hrelax
        · cases hrelax
        · rename_i examined _
          rcases hat : image.edgeAt i with _ | edge
          · simp [RoutingImage.topology, hat, Except.map] at hrelax
          · simp only [topology_edgeAt hat] at hrelax
            split at hrelax
            · cases hrelax
            · rename_i st₁ hst₁
              have hcounted : Follows { st with examinedEdges := examined } c :=
                h.congr rfl rfl rfl rfl
              obtain ⟨c₁, hc₁, h₁⟩ := relaxEdge_follows hcounted hst₁
              have hstep : Relation.ReflTransGen (CanonicalStep image packed)
                  ⟨c, (i :: rest).map fun i => (current, i)⟩
                  ⟨c₁, rest.map fun i => (current, i)⟩ :=
                .single (.relax hat hc₁)
              rcases ih h₁ hrelax with ⟨hreason, c', hrun, hfollows⟩ | ⟨hreason, hreached⟩
              · exact .inl ⟨hreason, c', hstep.trans hrun, hfollows⟩
              · exact .inr ⟨hreason, hreached.of_run hstep⟩

/-- One turn of the search is a stretch of the canonical run. -/
lemma searchIteration_follows {signal : CancellationSignal} {request : RoutingRequest}
    {st st' c : SearchState F} {w w' : World Unit} {reason : Option CompletionReason}
    (h : Follows st c)
    (hturn : searchIteration image.topology signal packed request st w = (.ok (reason, st'), w')) :
    (reason = none ∧ ∃ c', Relation.ReflTransGen (CanonicalStep image packed) ⟨c, []⟩ ⟨c', []⟩ ∧
        Follows st' c') ∨
      (reason ≠ none ∧ Reached image packed ⟨c, []⟩ st') := by
  unfold searchIteration at hturn
  rcases hpop : popFrontier st.frontier with _ | ⟨current, frontier⟩
  · simp only [hpop] at hturn
    cases hturn
    exact .inr ⟨by simp, h.reached⟩
  · have hpop' : popFrontier c.frontier = some (current, frontier) := by
      rw [← h.frontier]
      exact hpop
    simp only [hpop] at hturn
    split_ifs at hturn with hstale
    · cases hturn
      have hstale' : c.Stale current := by
        rw [SearchState.Stale, ← h.finalized, ← h.distances]
        simpa using hstale
      -- a stale entry is dropped by both
      exact .inl ⟨rfl, _, .single (.drop hpop' hstale'), ⟨h.distances, h.finalized, rfl,
        h.predecessors⟩⟩
    · have hfresh : ¬ c.Stale current := by
        rw [SearchState.Stale, ← h.finalized, ← h.distances]
        simpa using hstale
      simp only [World.isCancelled] at hturn
      split at hturn
      · cases hturn
        exact .inr ⟨by simp, ⟨c, []⟩, c.frontier, .refl, h.distances, h.finalized, rfl,
          h.predecessors⟩
      · split at hturn
        · cases hturn
        · rename_i finalizedNodes _
          obtain ⟨h₁, h₂, h₃, h₄, -, -⟩ := finalizeNode_fields { st with frontier := frontier }
            request.returnPaths current.node finalizedNodes
          -- budget and destinations only stop the turn, they do not change what it does
          have hfollows : Follows (finalizeNode request.returnPaths current.node finalizedNodes
              { st with frontier := frontier })
              { c with frontier := frontier
                       finalized := Function.update c.finalized current.node true } := by
            refine ⟨h₁.trans h.distances, ?_, h₄, fun p hp => h.predecessors p (h₃ ▸ hp)⟩
            rw [h₂, ← h.finalized]
          have hstep : Relation.ReflTransGen (CanonicalStep image packed) ⟨c, []⟩
              ⟨{ c with frontier := frontier
                        finalized := Function.update c.finalized current.node true },
                image.scan current⟩ := .single (.finalize hpop' hfresh)
          split_ifs at hturn with hzero
          · cases hturn
            exact .inr ⟨by simp, hfollows.reached.of_run hstep⟩
          · rcases hrange : image.outgoingRange current.node with _ | ⟨start, stop⟩
            · simp [RoutingImage.topology, hrange] at hturn
            · have hscan : image.scan current =
                  (List.range' start (stop - start)).map fun i => (current, i) := by
                simp only [RoutingImage.scan, hrange]
              have hrange' : image.topology.outgoingRange current.node = .ok (start, stop) := by
                simp [RoutingImage.topology, hrange]
              rw [hscan] at hstep
              simp only [hrange'] at hturn
              rcases relaxRange_follows hfollows hturn with
                ⟨hreason, c', hrun, h'⟩ | ⟨hreason, hreached⟩
              · exact .inl ⟨hreason, c', hstep.trans hrun, h'⟩
              · exact .inr ⟨hreason, hreached.of_run hstep⟩

lemma searchLoop_reached {signal : CancellationSignal} {request : RoutingRequest} {fuel : ℕ}
    {st st' c : SearchState F} {w w' : World Unit} {reason : CompletionReason} (h : Follows st c)
    (hloop : searchLoop image.topology signal packed request fuel st w = (.ok (reason, st'), w')) :
    Reached image packed ⟨c, []⟩ st' := by
  induction fuel generalizing st c w with
  | zero => cases hloop
  | succ fuel ih =>
    unfold searchLoop at hloop
    split at hloop
    · cases hloop
    · rename_i hturn
      cases hloop
      rcases searchIteration_follows h hturn with ⟨hreason, -⟩ | ⟨-, hreached⟩
      · cases hreason
      · exact hreached
    · rename_i hturn
      rcases searchIteration_follows h hturn with ⟨-, c', hrun, h'⟩ | ⟨hreason, -⟩
      · exact (ih h' hloop).of_run hrun
      · exact absurd rfl hreason

/-- Every search from an origin is a prefix of its canonical run. -/
lemma runSearch_reached {signal : CancellationSignal} {request : RoutingRequest}
    {origin : DenseNodeId} {pending : DenseNodeId → Bool} {pendingCount : ℕ} {w w' : World Unit}
    {reason : CompletionReason} {st : SearchState F}
    (h : runSearch image.topology signal packed request
      (initialSearchState request origin pending pendingCount) w = (.ok (reason, st), w')) :
    Reached image packed (RunPlace.start origin) st := by
  have hfollows : Follows (initialSearchState request origin pending pendingCount : SearchState F)
      (RunPlace.start origin).search := by
    refine ⟨rfl, rfl, rfl, fun p hp => ?_⟩
    simp only [initialSearchState] at hp
    split_ifs at hp
    exact hp
  unfold runSearch at h
  simp only [World.isCancelled] at h
  split at h
  · cases h
    exact hfollows.reached
  · exact searchLoop_reached hfollows h

/-! ## Reconstruction reads the final part only -/

/-- A turn of a reconstruction that succeeds: it ends at the origin or follows one predecessor. -/
lemma reconstructSteps_succ_ok {signal : CancellationSignal} {profile : PackedRelationProfile}
    {origin : DenseNodeId} {p : DenseNodeId → Option Predecessor} {fuel : ℕ} {v : DenseNodeId}
    {visited : DenseNodeId → Bool} {steps out : List (PathStep F)} {count count' : ℕ}
    {w w' : World Unit}
    (h : reconstructSteps image.topology signal profile origin p (fuel + 1) v visited steps count w =
      (.ok (some out), count', w')) :
    (v = origin ∧ out = steps ∧ count' = count) ∨
      (v ≠ origin ∧ ∃ q edge step w₁, p v = some q ∧ image.edgeAt q.adjacency = some edge ∧
        pathStep image.topology profile v q edge = .ok step ∧
        reconstructSteps image.topology signal profile origin p fuel q.source
          (Function.update visited v true) (step :: steps) (min (count + 1) u64Max) w₁ =
            (.ok (some out), count', w')) := by
  unfold reconstructSteps at h
  split_ifs at h with horigin hvisited
  · cases h
    exact .inl ⟨horigin, rfl, rfl⟩
  · simp only [World.isCancelled] at h
    split at h <;> cases h
  · refine .inr ⟨horigin, ?_⟩
    simp only [World.isCancelled] at h
    split at h
    · cases h
    split at h
    · cases h
    rename_i q hq
    split at h
    · cases h
    split_ifs at h
    swap
    · cases h
    rcases hat : image.edgeAt q.adjacency with _ | edge
    · simp [RoutingImage.topology, hat, Except.map] at h
    simp only [topology_edgeAt hat] at h
    split at h
    · cases h
    rename_i step hstep
    exact ⟨q, edge, step, _, hq, hat, hstep, h⟩

/-- Two predecessor tables that agree on a closed set of nodes lead back along the same steps. -/
lemma reconstructSteps_congr {profile : PackedRelationProfile} {origin : DenseNodeId}
    {p₁ p₂ : DenseNodeId → Option Predecessor} (closed : DenseNodeId → Prop)
    (hagree : ∀ v, closed v → v ≠ origin → p₁ v = p₂ v)
    (hclosed : ∀ v q, closed v → v ≠ origin → p₁ v = some q → closed q.source)
    {signal₁ signal₂ : CancellationSignal} {fuel₁ fuel₂ : ℕ} {v : DenseNodeId} (hv : closed v)
    {visited₁ visited₂ : DenseNodeId → Bool} {steps out₁ out₂ : List (PathStep F)}
    {count₁ count₂ count₁' count₂' : ℕ} {w₁ w₂ w₁' w₂' : World Unit}
    (h₁ : reconstructSteps image.topology signal₁ profile origin p₁ fuel₁ v visited₁ steps count₁
      w₁ = (.ok (some out₁), count₁', w₁'))
    (h₂ : reconstructSteps image.topology signal₂ profile origin p₂ fuel₂ v visited₂ steps count₂
      w₂ = (.ok (some out₂), count₂', w₂')) : out₁ = out₂ := by
  induction fuel₁ generalizing fuel₂ v visited₁ visited₂ steps count₁ count₂ w₁ w₂ with
  | zero => cases h₁
  | succ fuel₁ ih =>
    rcases fuel₂ with _ | fuel₂
    · cases h₂
    rcases reconstructSteps_succ_ok h₁ with ⟨rfl, rfl, -⟩ | ⟨hne, q, edge, step, _, hq, hat, hs, hr₁⟩
    · rcases reconstructSteps_succ_ok h₂ with ⟨-, rfl, -⟩ | ⟨hne, -⟩
      · rfl
      · exact absurd rfl hne
    · rcases reconstructSteps_succ_ok h₂ with
        ⟨heq, -⟩ | ⟨-, q', edge', step', _, hq', hat', hs', hr₂⟩
      · exact absurd heq hne
      · obtain rfl : q = q' := Option.some.inj (hq.symm.trans ((hagree v hv hne).trans hq'))
        obtain rfl : edge = edge' := Option.some.inj (hat.symm.trans hat')
        obtain rfl : step = step' := Except.ok.inj (hs.symm.trans hs')
        exact ih (hclosed v q hv hne hq) hr₁ hr₂

/-- The steps of a path, as one reconstruction returned them. -/
def StepsOf (image : RoutingImage) (packed : PackedRelationProfile) (origin : DenseNodeId)
    (st : SearchState F) (dense : DenseNodeId) (steps : List (PathStep F)) : Prop :=
  ∃ predecessors, st.predecessors = some predecessors ∧
    ((origin = dense ∧ steps = []) ∨ (origin ≠ dense ∧ ∃ signal fuel visited count w count' w',
      reconstructSteps image.topology signal packed origin predecessors fuel dense visited [] count
        w = (.ok (some steps), count', w')))

section Assembly

variable {signal : CancellationSignal} {request : RoutingRequest} {origin : DenseNodeId}
  {st : SearchState F} {a a' : Assembly F} {w w' : World Unit}

/-- Every cached path was reconstructed from the predecessors of the search. -/
def CachedSteps (image : RoutingImage) (packed : PackedRelationProfile) (origin : DenseNodeId)
    (st : SearchState F) (a : Assembly F) : Prop :=
  ∀ cache, a.pathCache = some cache → ∀ dense path, cache dense = some path →
    StepsOf image packed origin st dense path.steps

lemma reconstructPath_steps {externalOrigin externalDestination : NodeId} {dense : DenseNodeId}
    {distance : F} {predecessors : DenseNodeId → Option Predecessor}
    (hpredecessors : st.predecessors = some predecessors) {count count' : ℕ} {path : RoutePath F}
    (h : reconstructPath image.topology signal packed externalOrigin origin externalDestination
      dense distance predecessors count w = (.ok (some path), count', w')) :
    StepsOf image packed origin st dense path.steps := by
  unfold reconstructPath at h
  split_ifs at h with horigin
  · cases h
    exact ⟨predecessors, hpredecessors, .inl ⟨horigin, rfl⟩⟩
  · split at h
    · cases h
    · cases h
    · rename_i steps count₁ w₁ hsteps
      split at h
      · cases h
      · split_ifs at h
        · cases h
        cases h
        exact ⟨predecessors, hpredecessors, .inr ⟨horigin, _, _, _, _, _, _, _, hsteps⟩⟩

lemma assemblePath_steps {destination : NodeId} {dense : DenseNodeId} {distance : F}
    {path : Option (RoutePath F)} (hcached : CachedSteps image packed origin st a)
    (h : assemblePath image.topology signal packed request origin st destination dense distance a
      w = (.ok (path, a'), w')) :
    CachedSteps image packed origin st a' ∧ a'.results = a.results ∧
      ∀ p, path = some p → StepsOf image packed origin st dense p.steps := by
  unfold assemblePath at h
  split at h
  · rename_i predecessors cache hpredecessors hcache
    split at h
    · rename_i hit hhit
      cases h
      exact ⟨hcached, rfl, fun p hp => Option.some.inj hp ▸ hcached cache hcache dense hit hhit⟩
    · split at h
      · cases h
      · rename_i found count w₁ hfound
        cases h
        have hsteps := reconstructPath_steps hpredecessors hfound
        refine ⟨fun cache' hcache' v p hp => ?_, rfl, fun p hp => Option.some.inj hp ▸ hsteps⟩
        cases hcache'
        by_cases hv : v = dense
        · subst hv
          rw [Function.update_self] at hp
          exact Option.some.inj hp ▸ hsteps
        · rw [Function.update_of_ne hv] at hp
          exact hcached cache hcache v p hp
      · cases h
        exact ⟨fun cache' hcache' => hcached cache' hcache', rfl, nofun⟩
  · cases h
    exact ⟨hcached, rfl, nofun⟩

/-- The entry carries a path only for a final node, with reconstructed steps. -/
def EntrySteps (image : RoutingImage) (packed : PackedRelationProfile) (origin : DenseNodeId)
    (st : SearchState F) (result : DestinationResult F) : Prop :=
  ∀ route path, result.state = .exact route → route.path = some path → ∃ dense,
    image.denseNodeId result.destination = some dense ∧
      (st.finalized dense = true ∨ dense = origin) ∧
      StepsOf image packed origin st dense path.steps

lemma assembleState_steps {destination : NodeId} {state : DestinationState F}
    (hcached : CachedSteps image packed origin st a)
    (h : assembleState image.topology signal packed request origin st destination
      (image.denseNodeId destination) a w = (.ok (state, a'), w')) :
    CachedSteps image packed origin st a' ∧ a'.results = a.results ∧
      EntrySteps image packed origin st ⟨destination, state⟩ := by
  unfold assembleState at h
  split at h
  · cases h
    exact ⟨hcached, rfl, nofun⟩
  · rename_i dense hdense
    split_ifs at h with hfinal
    · split at h
      · cases h
      · split at h
        · cases h
        · rename_i path a₁ w₁ hpath
          cases h
          obtain ⟨hcached', hresults, hsteps⟩ := assemblePath_steps hcached hpath
          refine ⟨fun cache hcache => hcached' cache hcache, hresults, fun route p hroute hp => ?_⟩
          cases hroute
          exact ⟨dense, hdense, by simpa using hfinal, hsteps p hp⟩
    · cases h
      exact ⟨hcached, rfl, nofun⟩
    · cases h
      exact ⟨hcached, rfl, nofun⟩

lemma assembleResults_steps {destinations : List NodeId}
    (hcached : CachedSteps image packed origin st a)
    (hentries : ∀ result ∈ a.results, EntrySteps image packed origin st result)
    (h : assembleResults image.topology signal packed request origin st
      (destinations.map fun d => (d, image.denseNodeId d)) a w = (.ok a', w')) :
    ∀ result ∈ a'.results, EntrySteps image packed origin st result := by
  induction destinations generalizing a w with
  | nil =>
    cases h
    exact hentries
  | cons d rest ih =>
    rw [List.map_cons] at h
    unfold assembleResults at h
    split at h
    · cases h
    · rename_i state a₁ w₁ hstate
      obtain ⟨hcached₁, hresults, hentry⟩ := assembleState_steps hcached hstate
      have hcached₂ : CachedSteps image packed origin st
          { a₁ with results := a₁.results ++ [⟨d, state⟩] } := hcached₁
      refine ih hcached₂ (fun result hresult => ?_) h
      rcases List.mem_append.1 hresult with hold | hnew
      · exact hentries result (hresults ▸ hold)
      · rw [List.mem_singleton.1 hnew]
        exact hentry

end Assembly

/-! ## Two routes -/

/-- Where the paths of a route come from: a search that is a prefix of the canonical run of its
origin and profile, and whose final nodes are closed under their predecessors. -/
structure PathSource (image : RoutingImage) (request : RoutingRequest) (origin : DenseNodeId)
    (packed : PackedRelationProfile) (st : SearchState F) : Prop where
  origin_eq : image.denseNodeId request.origin = some origin
  pack : request.profile.packRelationIds image.confirmedRelationIds = .ok packed
  reached : Reached image packed (RunPlace.start origin) st
  closed : ∀ p, st.predecessors = some p → ∀ v q, st.finalized v = true → v ≠ origin →
    p v = some q → st.finalized q.source = true

lemma SearchStopped.closed {request : RoutingRequest} {origin : DenseNodeId}
    {targets : DenseNodeId → Prop} {signal : CancellationSignal} {reason : CompletionReason}
    {st : SearchState F} (h : SearchStopped image request origin targets signal reason st)
    {p : DenseNodeId → Option Predecessor} (hp : st.predecessors = some p) {v : DenseNodeId}
    {q : Predecessor} (hv : st.finalized v = true) (hne : v ≠ origin) (hq : p v = some q) :
    st.finalized q.source = true := by
  obtain ⟨order, scan, frontier, hsearching, -⟩ := h
  have inv := hsearching.search
  obtain ⟨d, hd, -⟩ := inv.settled_min v ((inv.finalized_iff v).1 hv)
  obtain ⟨q', hq', hmem, -⟩ := (inv.predecessor p hp).justified v d hd hne
  obtain rfl : q' = q := Option.some.inj (hq'.symm.trans hq)
  exact (inv.finalized_iff _).2 hmem

/-- Every path of a route has a source. -/
lemma routeControlled_pathSource (wf : image.WellFormed) {request : RoutingRequest}
    {signal : CancellationSignal} {response : RoutingResponse F}
    {diagnostics : CpuSearchDiagnostics}
    (h : routeControlled image request signal = .ok (response, diagnostics))
    {result : DestinationResult F} (hresult : result ∈ response.results) {route : ExactRoute F}
    {path : RoutePath F} (hroute : result.state = .exact route) (hpath : route.path = some path) :
    ∃ origin packed st, PathSource image request origin packed st ∧
      ∃ dense, image.denseNodeId result.destination = some dense ∧
        (st.finalized dense = true ∨ dense = origin) ∧
        StepsOf image packed origin st dense path.steps := by
  obtain ⟨origin, packed, horigin, hpack, ⟨-, heq⟩ | ⟨-, reason, st, w, a, w', hsearch, hassemble,
    heq⟩⟩ := routeControlled_cases h
  · cases heq
    obtain ⟨d, -, rfl⟩ := List.mem_map.1 hresult
    cases hroute
  cases heq
  have hspec := runSearch_spec signal wf hpack (wf.lt_of_denseNodeId horigin) ⟨0, ()⟩
    (searchStart_pending (F := F) image request origin)
  unfold RoutingImage.searchStart at hsearch
  rw [hsearch] at hspec
  have hcached : CachedSteps image packed origin st (initialAssembly request reason st) := by
    intro cache hcache dense p hp
    simp only [initialAssembly] at hcache
    split_ifs at hcache
    cases hcache
    cases hp
  have hentries := assembleResults_steps hcached (by simp [initialAssembly]) hassemble
  exact ⟨origin, packed, st, ⟨horigin, hpack, runSearch_reached hsearch,
    fun p hp v q hv hne hq => SearchStopped.closed hspec hp hv hne hq⟩,
    hentries result hresult route path hroute hpath⟩

/-- A longer prefix of the canonical run leads back along the same steps. -/
lemma steps_eq_of_run {origin dense : DenseNodeId} {st₁ st₂ : SearchState F}
    {frontier₁ frontier₂ : List (FrontierEntry F)} {c₁ c₂ : RunPlace F}
    (hrun : Relation.ReflTransGen (CanonicalStep image packed) c₁ c₂)
    (hfollows₁ : Follows { st₁ with frontier := frontier₁ } c₁.search)
    (hfollows₂ : Follows { st₂ with frontier := frontier₂ } c₂.search)
    (hclosed : ∀ p, st₁.predecessors = some p → ∀ v q, st₁.finalized v = true → v ≠ origin →
      p v = some q → st₁.finalized q.source = true)
    (hfinal : st₁.finalized dense = true ∨ dense = origin) {steps₁ steps₂ : List (PathStep F)}
    (h₁ : StepsOf image packed origin st₁ dense steps₁)
    (h₂ : StepsOf image packed origin st₂ dense steps₂) : steps₁ = steps₂ := by
  obtain ⟨p₁, hp₁, hsteps₁⟩ := h₁
  obtain ⟨p₂, hp₂, hsteps₂⟩ := h₂
  obtain ⟨p', hp', hagree⟩ := (frozen_of_run hrun).predecessors p₁ (hfollows₁.predecessors p₁ hp₁)
  obtain rfl : p' = p₂ := Option.some.inj (hp'.symm.trans (hfollows₂.predecessors p₂ hp₂))
  rcases hsteps₁ with ⟨heq, rfl⟩ | ⟨hne, signal₁, _, _, _, _, _, _, hr₁⟩
  · rcases hsteps₂ with ⟨-, rfl⟩ | ⟨hne, -⟩
    · rfl
    · exact absurd heq hne
  · rcases hsteps₂ with ⟨heq, -⟩ | ⟨-, signal₂, _, _, _, _, _, _, hr₂⟩
    · exact absurd heq hne
    · have hfinal' : st₁.finalized dense = true := by
        rcases hfinal with h | h
        · exact h
        · exact absurd h.symm hne
      refine reconstructSteps_congr (fun v => st₁.finalized v = true) ?_ (hclosed p₁ hp₁) hfinal'
        hr₁ hr₂
      intro v hv _
      have hv' : c₁.search.finalized v = true := by
        rw [← hfollows₁.finalized]
        exact hv
      exact (hagree v hv').symm

/-- Answers do not depend on what else was asked: two routes over one image with the same origin
and the same profile entries report the same distance and the same path for a node they both report
exactly, and never disagree on whether it can be reached. -/
theorem routeControlled_independent {image : RoutingImage} (wf : image.WellFormed)
    {request₁ request₂ : RoutingRequest} (horigin : request₁.origin = request₂.origin)
    (hprofile : ∀ entry, entry ∈ request₁.profile.entries ↔ entry ∈ request₂.profile.entries)
    {signal₁ signal₂ : CancellationSignal} {response₁ response₂ : RoutingResponse F}
    {diagnostics₁ diagnostics₂ : CpuSearchDiagnostics}
    (hroute₁ : routeControlled image request₁ signal₁ = .ok (response₁, diagnostics₁))
    (hroute₂ : routeControlled image request₂ signal₂ = .ok (response₂, diagnostics₂)) :
    ∀ result₁ ∈ response₁.results, ∀ result₂ ∈ response₂.results,
      result₁.destination = result₂.destination → ∀ route₁, result₁.state = .exact route₁ →
        (∀ route₂, result₂.state = .exact route₂ →
          route₁.logicalDistance = route₂.logicalDistance ∧
          ∀ path₁ path₂, route₁.path = some path₁ → route₂.path = some path₂ → path₁ = path₂) ∧
        result₂.state ≠ .unreachable := by
  intro result₁ hresult₁ result₂ hresult₂ hdestination route₁ hexact₁
  have hnetwork := routingNetwork_congr (F := F) image hprofile
  have hspec₁ := routeControlled_spec (F := F) wf request₁ signal₁
  have hspec₂ := routeControlled_spec (F := F) wf request₂ signal₂
  rw [hroute₁] at hspec₁
  rw [hroute₂] at hspec₂
  obtain ⟨hcorrect₁, hgenuine₁⟩ := hspec₁.2.1 result₁ hresult₁
  obtain ⟨hcorrect₂, hgenuine₂⟩ := hspec₂.2.1 result₂ hresult₂
  have hleast₁ := hcorrect₁.exact_least route₁ hexact₁
  have hdistances : routeDistances F image request₁ result₁.destination =
      routeDistances F image request₂ result₂.destination := by
    simp only [routeDistances, hnetwork, horigin, hdestination]
  refine ⟨fun route₂ hexact₂ => ?_, fun hunreachable => ?_⟩
  · have hdistance : route₁.logicalDistance = route₂.logicalDistance := by
      rw [hdistances] at hleast₁
      exact hleast₁.unique (hcorrect₂.exact_least route₂ hexact₂)
    refine ⟨hdistance, fun path₁ path₂ hpath₁ hpath₂ => ?_⟩
    obtain ⟨o₁, packed₁, st₁, hsource₁, dense, hdense₁, hfinal₁, hsteps₁⟩ :=
      routeControlled_pathSource wf hroute₁ hresult₁ hexact₁ hpath₁
    obtain ⟨o₂, packed₂, st₂, hsource₂, dense₂, hdense₂, hfinal₂, hsteps₂⟩ :=
      routeControlled_pathSource wf hroute₂ hresult₂ hexact₂ hpath₂
    obtain rfl : dense = dense₂ := by
      rw [hdestination, hdense₂] at hdense₁
      exact (Option.some.inj hdense₁).symm
    obtain rfl : o₁ = o₂ := by
      have h := hsource₁.origin_eq
      rw [horigin, hsource₂.origin_eq] at h
      exact (Option.some.inj h).symm
    obtain rfl : packed₁ = packed₂ :=
      RelationProfile.packRelationIds_congr wf.relations_nodup hprofile hsource₁.pack hsource₂.pack
    obtain ⟨c₁, frontier₁, hrun₁, hfollows₁⟩ := hsource₁.reached
    obtain ⟨c₂, frontier₂, hrun₂, hfollows₂⟩ := hsource₂.reached
    -- one of the two searches is a prefix of the other
    have hsteps : path₁.steps = path₂.steps := by
      rcases Relation.ReflTransGen.total_of_right_unique CanonicalStep.rightUnique hrun₁ hrun₂ with
        hrun | hrun
      · exact steps_eq_of_run hrun hfollows₁ hfollows₂ hsource₁.closed hfinal₁ hsteps₁ hsteps₂
      · exact (steps_eq_of_run hrun hfollows₂ hfollows₁ hsource₂.closed hfinal₂ hsteps₂ hsteps₁).symm
    obtain ⟨hfrom₁, hto₁, hlength₁, -⟩ := hgenuine₁ route₁ path₁ hexact₁ hpath₁
    obtain ⟨hfrom₂, hto₂, hlength₂, -⟩ := hgenuine₂ route₂ path₂ hexact₂ hpath₂
    obtain ⟨origin₁, destination₁, distance₁, steps₁⟩ := path₁
    obtain ⟨origin₂, destination₂, distance₂, steps₂⟩ := path₂
    obtain rfl : origin₁ = origin₂ := hfrom₁.trans (horigin.trans hfrom₂.symm)
    obtain rfl : destination₁ = destination₂ := hto₁.trans (hdestination.trans hto₂.symm)
    obtain rfl : distance₁ = distance₂ := hlength₁.trans (hdistance.trans hlength₂.symm)
    obtain rfl : steps₁ = steps₂ := hsteps
    rfl
  · obtain ⟨origin, dense, arcs, ho, hd, hwalk, -⟩ := hleast₁.1
    refine hcorrect₂.unreachable hunreachable ⟨origin, dense, arcs, ?_, ?_, ?_⟩
    · rw [← horigin]
      exact ho
    · rw [← hdestination]
      exact hd
    · rw [← hnetwork]
      exact hwalk

/-- Another question about the same node, under a limited budget. -/
def budgetRequest : RoutingRequest :=
  { tieRequest with
    destinations := [.ofNat 7, .ofNat 9, .ofNat 9]
    budget := .examinedEdges 100 }

theorem routeControlled_independent_tie : ∃ image response₁ diagnostics₁ response₂ diagnostics₂,
    compileRoutingImage tieRecords = .ok image ∧
    routeControlled (F := SoftBinary64) image tieRequest neverCancelled =
      .ok (response₁, diagnostics₁) ∧
    routeControlled (F := SoftBinary64) image budgetRequest neverCancelled =
      .ok (response₂, diagnostics₂) ∧
    ∀ result₁ ∈ response₁.results, ∀ result₂ ∈ response₂.results,
      result₁.destination = result₂.destination → ∀ route₁, result₁.state = .exact route₁ →
        result₂.state ≠ .unreachable := by
  obtain ⟨image, response₁, diagnostics₁, himage, hroute₁⟩ := tie_route_ok
  have hsome : ((compileRoutingImage tieRecords).toOption.bind fun image =>
      (routeControlled (F := SoftBinary64) image budgetRequest neverCancelled).toOption).isSome =
        true := by
    decide +kernel
  rw [himage] at hsome
  rcases hroute₂ : routeControlled (F := SoftBinary64) image budgetRequest neverCancelled with
    e | ⟨response₂, diagnostics₂⟩
  · simp [hroute₂, Except.toOption] at hsome
  · refine ⟨image, response₁, diagnostics₁, response₂, diagnostics₂, himage, hroute₁, hroute₂, ?_⟩
    intro result₁ h₁ result₂ h₂ heq route₁ hexact
    have horigin : tieRequest.origin = budgetRequest.origin := rfl
    have hprofile : ∀ entry, entry ∈ tieRequest.profile.entries ↔
        entry ∈ budgetRequest.profile.entries := fun _ => Iff.rfl
    exact (routeControlled_independent (compileRoutingImage_wellFormed himage) horigin hprofile
      hroute₁ hroute₂ result₁ h₁ result₂ h₂ heq route₁ hexact).2

end PathHydra
