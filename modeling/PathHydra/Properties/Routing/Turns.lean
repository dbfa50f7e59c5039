import Mathlib.Logic.Function.Iterate
import PathHydra.Properties.Routing.Search

/-!
# The search, one turn at a time

The loops of the search cut into single turns, so that one can speak about every state the search
passes through and not only about the one it leaves behind.  `searchTurn` pops one entry or examines
one edge; `runSearch_turns` shows that the search is the iteration of it.  `PlaceWithin` is what
holds in every place: the invariant of the search, and that the edges examined so far are distinct
and none of them is still to be examined.
-/

namespace PathHydra

variable {F : Type} [Binary64 F] {κ : Type}

/-! ## Places and turns -/

/-- Where a search stands: before a pop, inside the outgoing range of a node, or at its end. -/
inductive SearchPlace (F κ : Type)
  | popping (st : SearchState F) (w : World κ)
  | scanning (current : FrontierEntry F) (rest : List ℕ) (st : SearchState F) (w : World κ)
  | stopped (out : Except RoutingError (CompletionReason × SearchState F)) (w : World κ)

namespace SearchPlace

omit [Binary64 F]

/-- The frontier in a place; an error has none. -/
def frontier : SearchPlace F κ → List (FrontierEntry F)
  | .popping st _ => st.frontier
  | .scanning _ _ st _ => st.frontier
  | .stopped (.ok (_, st)) _ => st.frontier
  | .stopped (.error _) _ => []

/-- The end of the search. -/
def ofResult : Except RoutingError (CompletionReason × SearchState F) × World κ → SearchPlace F κ
  | (out, w) => .stopped out w

/-- Where the search stands after one turn of its outer loop. -/
def ofTurn : Except RoutingError (Option CompletionReason × SearchState F) × World κ →
    SearchPlace F κ
  | (.error e, w) => .stopped (.error e) w
  | (.ok (some reason, st), w) => .stopped (.ok (reason, st)) w
  | (.ok (none, st), w) => .popping st w

end SearchPlace

section Turn

variable (T : RoutingTopology κ) (signal : CancellationSignal) (profile : PackedRelationProfile)
  (request : RoutingRequest)

/-- One pop, or one edge of an outgoing range. -/
def searchTurn : SearchPlace F κ → SearchPlace F κ
  | .stopped out w => .stopped out w
  | .popping st w =>
    match popFrontier st.frontier with
    | none => .stopped (.ok (.frontierExhausted, st)) w
    | some (current, frontier) =>
      let st := { st with frontier := frontier }
      if st.finalized current.node ||
          decide (st.distances current.node ≠ some current.distance) then
        .popping st w
      else match w.isCancelled signal with
        | (true, w) => .stopped (.ok (.cancelled, st)) w
        | (false, w) =>
          match checkedAdd64 st.finalizedNodes 1 with
          | none => .stopped (.error (.internalInvariant "finalized-node counter overflow")) w
          | some finalizedNodes =>
            let st := finalizeNode request.returnPaths current.node finalizedNodes st
            if st.pendingCount = 0 then .stopped (.ok (.allDestinationsFinalized, st)) w
            else match T.outgoingRange current.node with
              | .error e => .stopped (.error e) w
              | .ok (start, stop) => .scanning current (List.range' start (stop - start)) st w
  | .scanning _ [] st w => .popping st w
  | .scanning current (adjacency :: rest) st w =>
    match w.isCancelled signal with
    | (true, w) => .stopped (.ok (.cancelled, st)) w
    | (false, w) =>
      if !request.budget.permits st.examinedEdges then .stopped (.ok (.budgetExhausted, st)) w
      else match checkedAdd64 st.examinedEdges 1 with
        | none => .stopped (.error (.internalInvariant "examined-edge counter overflow")) w
        | some examinedEdges =>
          let st := { st with examinedEdges := examinedEdges }
          match T.edgeAt signal adjacency w with
          | (.error e, w) => .stopped (.error e) w
          | (.ok none, w) => .stopped (.ok (.cancelled, st)) w
          | (.ok (some edge), w) =>
            match relaxEdge profile current adjacency edge st with
            | .error e => .stopped (.error e) w
            | .ok st => .scanning current rest st w

/-- The edge the next turn examines. -/
def examines : SearchPlace F κ → Option ℕ
  | .scanning _ (adjacency :: _) st w =>
    if !(w.isCancelled signal).1 && request.budget.permits st.examinedEdges then some adjacency
    else none
  | _ => none

/-- The place before the first pop. -/
def searchEntry (st : SearchState F) (w : World κ) : SearchPlace F κ :=
  match w.isCancelled signal with
  | (true, w) => .stopped (.ok (.cancelled, st)) w
  | (false, w) => .popping st w

/-- The place after a number of turns. -/
def searchPlace (st : SearchState F) (w : World κ) (turns : ℕ) : SearchPlace F κ :=
  (searchTurn T signal profile request)^[turns] (searchEntry signal st w)

/-- The edges examined in a number of turns. -/
def examinedIn (st : SearchState F) (w : World κ) (turns : ℕ) : List ℕ :=
  (List.range turns).filterMap fun n =>
    examines signal request (searchPlace T signal profile request st w n)

end Turn

/-! ## The search is the iteration of its turns -/

section Iteration

variable {T : RoutingTopology κ} {signal : CancellationSignal} {profile : PackedRelationProfile}
  {request : RoutingRequest}

/-- One place leads to another by whole turns. -/
def Leads (T : RoutingTopology κ) (signal : CancellationSignal) (profile : PackedRelationProfile)
    (request : RoutingRequest) (place place' : SearchPlace F κ) : Prop :=
  ∃ n, (searchTurn T signal profile request)^[n] place = place'

lemma Leads.refl (place : SearchPlace F κ) : Leads T signal profile request place place := ⟨0, rfl⟩

lemma Leads.head {place place' : SearchPlace F κ}
    (h : Leads T signal profile request (searchTurn T signal profile request place) place') :
    Leads T signal profile request place place' := by
  obtain ⟨n, hn⟩ := h
  exact ⟨n + 1, hn⟩

lemma Leads.trans {place place' place'' : SearchPlace F κ}
    (h : Leads T signal profile request place place')
    (h' : Leads T signal profile request place' place'') :
    Leads T signal profile request place place'' := by
  obtain ⟨n, rfl⟩ := h
  obtain ⟨m, rfl⟩ := h'
  exact ⟨m + n, Function.iterate_add_apply _ m n place⟩

lemma relaxRange_turns (current : FrontierEntry F) (scan : List ℕ) (st : SearchState F)
    (w : World κ) :
    Leads T signal profile request (.scanning current scan st w)
      (.ofTurn (relaxRange T signal profile request.budget current scan st w)) := by
  induction scan generalizing st w with
  | nil => exact .head (.refl _)
  | cons i rest ih =>
    refine .head ?_
    simp only [searchTurn, relaxRange]
    rcases w.isCancelled signal with ⟨_ | _, w₁⟩
    · simp only
      split_ifs
      · exact .refl _
      · rcases checkedAdd64 st.examinedEdges 1 with _ | n
        · exact .refl _
        · simp only
          rcases T.edgeAt signal i w₁ with ⟨_ | _ | edge, w₂⟩
          · exact .refl _
          · exact .refl _
          · simp only
            rcases relaxEdge profile current i edge { st with examinedEdges := n } with e | st'
            · exact .refl _
            · exact ih st' w₂
    · exact .refl _

lemma searchIteration_turns (st : SearchState F) (w : World κ) :
    Leads T signal profile request (.popping st w)
      (.ofTurn (searchIteration T signal profile request st w)) := by
  refine .head ?_
  simp only [searchTurn, searchIteration]
  rcases popFrontier st.frontier with _ | ⟨current, frontier⟩
  · exact .refl _
  · simp only
    split_ifs
    · exact .refl _
    · rcases w.isCancelled signal with ⟨_ | _, w₁⟩
      · simp only
        rcases checkedAdd64 st.finalizedNodes 1 with _ | n
        · exact .refl _
        · simp only
          split_ifs
          · exact .refl _
          · rcases T.outgoingRange current.node with e | ⟨start, stop⟩
            · exact .refl _
            · exact relaxRange_turns current _ _ w₁
      · exact .refl _

lemma searchLoop_turns {fuel : ℕ} {st : SearchState F} {w : World κ}
    (h : (searchLoop T signal profile request fuel st w).1 ≠ .error .noReturn) :
    Leads T signal profile request (.popping st w)
      (.ofResult (searchLoop T signal profile request fuel st w)) := by
  induction fuel generalizing st w with
  | zero => exact absurd rfl h
  | succ fuel ih =>
    have hturn : Leads T signal profile request (.popping st w)
        (.ofTurn (searchIteration T signal profile request st w)) := searchIteration_turns st w
    unfold searchLoop at h ⊢
    rcases hout : searchIteration T signal profile request st w with ⟨e | ⟨_ | reason, st'⟩, w'⟩
    · rw [hout] at hturn
      exact hturn
    · rw [hout] at hturn h
      exact hturn.trans (ih h)
    · rw [hout] at hturn
      exact hturn

/-- Unless it runs out of fuel, the search ends where its turns lead. -/
lemma runSearch_turns {st : SearchState F} {w : World κ}
    (h : (runSearch T signal profile request st w).1 ≠ .error .noReturn) :
    ∃ turns, searchPlace T signal profile request st w turns =
      .ofResult (runSearch T signal profile request st w) := by
  have hleads : Leads T signal profile request (searchEntry signal st w)
      (.ofResult (runSearch T signal profile request st w)) := by
    revert h
    unfold runSearch searchEntry
    rcases w.isCancelled signal with ⟨_ | _, w₁⟩
    · exact searchLoop_turns
    · exact fun _ => .refl _
  exact hleads

end Iteration

/-! ## Every place of a search -/

section Places

variable {image : RoutingImage} {packed : PackedRelationProfile} {request : RoutingRequest}
  {origin : DenseNodeId} {targets : DenseNodeId → Prop} {order : List DenseNodeId}
  {signal : CancellationSignal} {st : SearchState F} {w : World Unit} {log : List ℕ}

/-- An adjacency index lies in the outgoing range of one node only. -/
lemma RoutingImage.HasEdge.source_eq (wf : image.WellFormed) {u v : DenseNodeId} {i : ℕ}
    {e e' : OutgoingEdge} (h : image.HasEdge u i e) (h' : image.HasEdge v i e') : u = v := by
  -- the range of the smaller node ends before the range of the larger one begins
  have hlt : ∀ {u v : DenseNodeId} {e e' : OutgoingEdge}, image.HasEdge u i e →
      image.HasEdge v i e' → ¬ u < v := by
    rintro u v e e' ⟨_, stop, hu, -, hstop, -⟩ ⟨start, _, hv, hstart, -, -⟩ huv
    have hend := (RoutingImage.WellFormed.outgoingRange_eq_some.1 hu).2
    have hbegin := (RoutingImage.WellFormed.outgoingRange_eq_some.1 hv).1
    have hle : stop ≤ start := by
      obtain ⟨hi, rfl⟩ := List.getElem?_eq_some_iff.1 hend
      obtain ⟨hj, rfl⟩ := List.getElem?_eq_some_iff.1 hbegin
      rcases (Nat.succ_le_of_lt (DenseNodeId.lt_def.1 huv)).lt_or_eq with hij | hij
      · exact List.pairwise_iff_getElem.1 wf.offsets_mono _ _ hi hj hij
      · exact le_of_eq (by simp only [← hij])
    omega
  exact le_antisymm (not_lt.1 (hlt h' h)) (not_lt.1 (hlt h h'))

/-- The edges examined so far are distinct, leave final nodes, and are not still to be scanned. -/
structure Examined (image : RoutingImage) (order : List DenseNodeId) (scan log : List ℕ) :
    Prop where
  nodup : log.Nodup
  scanned : ∀ i ∈ log, ∃ v ∈ order, ∃ edge, image.HasEdge v i edge ∧
    ¬ (order.head? = some v ∧ i ∈ scan)

/-- What holds in every place of a search. -/
inductive PlaceWithin (image : RoutingImage) (request : RoutingRequest) (origin : DenseNodeId)
    (targets : DenseNodeId → Prop) (log : List ℕ) : SearchPlace F Unit → Prop
  | popping {order : List DenseNodeId} {st : SearchState F} {w : World Unit}
      (inv : Searching image request origin targets order [] st)
      (examined : Examined image order [] log) :
      PlaceWithin image request origin targets log (.popping st w)
  | scanning {order : List DenseNodeId} {current : FrontierEntry F} {rest : List ℕ}
      {st : SearchState F} {w : World Unit}
      (inv : Searching image request origin targets (current.node :: order) rest st)
      (hlabel : st.distances current.node = some current.distance)
      (hrest : ∀ i ∈ rest, ∃ edge, image.HasEdge current.node i edge) (hnodup : rest.Nodup)
      (examined : Examined image (current.node :: order) rest log) :
      PlaceWithin image request origin targets log (.scanning current rest st w)
  | answered {reason : CompletionReason} {st : SearchState F} {w : World Unit}
      (hfrontier : st.frontier.length ≤ image.adjacencyCount + 1) (hnodup : log.Nodup) :
      PlaceWithin image request origin targets log (.stopped (.ok (reason, st)) w)
  | failed {e : RoutingError} {w : World Unit} (he : e.IsArithmetic) (hnodup : log.Nodup) :
      PlaceWithin image request origin targets log (.stopped (.error e) w)

/-- The frontier of a search holds at most one entry more than edges have been examined. -/
lemma Searching.frontier_length_le {scan : List ℕ} (wf : image.WellFormed)
    (inv : Searching image request origin targets order scan st) :
    st.frontier.length ≤ image.adjacencyCount + 1 := by
  have hfrontier := inv.frontier_le
  have hhigh := inv.highWater_le
  have hexamined := inv.examined_eq
  have htotal := wf.sum_outDegree_le inv.search.nodup fun v hv => inv.search.order_lt hv
  omega

lemma PlaceWithin.frontier_le (wf : image.WellFormed) {place : SearchPlace F Unit}
    (h : PlaceWithin image request origin targets log place) :
    place.frontier.length ≤ image.adjacencyCount + 1 := by
  rcases h with ⟨inv, -⟩ | ⟨inv, -, -, -, -⟩ | ⟨hfrontier, -⟩ | _
  · exact inv.frontier_length_le wf
  · exact inv.frontier_length_le wf
  · exact hfrontier
  · exact Nat.zero_le _

lemma PlaceWithin.nodup {place : SearchPlace F Unit}
    (h : PlaceWithin image request origin targets log place) : log.Nodup := by
  rcases h with ⟨-, examined⟩ | ⟨-, -, -, -, examined⟩ | ⟨-, hnodup⟩ | ⟨-, hnodup⟩
  · exact examined.nodup
  · exact examined.nodup
  · exact hnodup
  · exact hnodup

omit [Binary64 F] in
/-- A pop examines nothing, and finalizing a node opens its range. -/
lemma Examined.finalize {v : DenseNodeId} {scan : List ℕ} (h : Examined image order [] log)
    (hnew : v ∉ order) : Examined image (v :: order) scan log := by
  refine ⟨h.nodup, fun i hi => ?_⟩
  obtain ⟨u, hu, edge, hedge, -⟩ := h.scanned i hi
  refine ⟨u, List.mem_cons_of_mem v hu, edge, hedge, fun ⟨hhead, _⟩ => ?_⟩
  cases hhead
  exact hnew hu

/-- Examining the head of the scan. -/
lemma Examined.examine (wf : image.WellFormed) {v : DenseNodeId} {i : ℕ} {rest : List ℕ}
    {edge : OutgoingEdge} (h : Examined image (v :: order) (i :: rest) log)
    (hedge : image.HasEdge v i edge) (hnodup : (i :: rest).Nodup) :
    Examined image (v :: order) rest (log ++ [i]) := by
  have hnew : i ∉ log := by
    intro hi
    obtain ⟨u, -, edge', hedge', hopen⟩ := h.scanned i hi
    obtain rfl := hedge'.source_eq wf hedge
    exact hopen ⟨rfl, List.mem_cons_self⟩
  refine ⟨List.nodup_append.2 ⟨h.nodup, List.nodup_singleton i, ?_⟩, fun j hj => ?_⟩
  · rintro j hj _ hi rfl
    rw [List.mem_singleton] at hi
    exact hnew (hi ▸ hj)
  · rcases List.mem_append.1 hj with hj | hj
    · obtain ⟨u, hu, edge', hedge', hopen⟩ := h.scanned j hj
      exact ⟨u, hu, edge', hedge', fun hscan => hopen ⟨hscan.1, List.mem_cons_of_mem i hscan.2⟩⟩
    · obtain rfl := List.mem_singleton.1 hj
      exact ⟨v, List.mem_cons_self, edge, hedge, fun hscan => (List.nodup_cons.1 hnodup).1 hscan.2⟩

omit [Binary64 F] in
/-- A range that has been scanned to its end. -/
lemma Examined.leave {scan : List ℕ} (h : Examined image order scan log) :
    Examined image order [] log :=
  ⟨h.nodup, fun i hi => by
    obtain ⟨u, hu, edge, hedge, -⟩ := h.scanned i hi
    exact ⟨u, hu, edge, hedge, by simp⟩⟩

/-- A turn before a pop. -/
lemma popping_turn (wf : image.WellFormed)
    (inv : Searching image request origin targets order [] st)
    (examined : Examined image order [] log) :
    PlaceWithin image request origin targets log
      (searchTurn image.topology signal packed request (.popping st w)) := by
  simp only [searchTurn]
  rcases hpop : popFrontier st.frontier with _ | ⟨current, frontier⟩
  · exact .answered (inv.frontier_length_le wf) examined.nodup
  · simp only
    have hshorter : frontier.length ≤ image.adjacencyCount + 1 := by
      rw [(popFrontier_eq_some hpop).2.2]
      exact List.length_erase_le.trans (inv.frontier_length_le wf)
    split_ifs with hstale
    · simp only [Bool.or_eq_true, decide_eq_true_eq, inv.search.finalized_iff] at hstale
      exact .popping (inv.stale hpop hstale) examined
    · simp only [Bool.or_eq_true, decide_eq_true_eq, inv.search.finalized_iff, not_or,
        not_not] at hstale
      obtain ⟨hnew, hlabel⟩ := hstale
      simp only [World.isCancelled]
      rcases signal w.polls with _ | _
      · obtain ⟨start, stop, hrange⟩ := wf.outgoingRange_of_lt (inv.search.labelled_lt _ _ hlabel)
        have hfinal := inv.finalize hpop hnew hlabel hrange
        have hcount := inv.finalized_add wf hfinal
        have hfields := finalizeNode_fields { st with frontier := frontier }
          request.returnPaths current.node (order.length + 1)
        have hrange' : image.topology.outgoingRange current.node = .ok (start, stop) := by
          simp [RoutingImage.topology, hrange]
        simp only [hcount]
        split_ifs
        · exact .answered (hfinal.frontier_length_le wf) examined.nodup
        · simp only [hrange']
          exact .scanning hfinal ((congrFun hfields.1 _).trans hlabel) (wf.hasEdge_of_range hrange)
            List.nodup_range' (examined.finalize hnew)
      · exact .answered hshorter examined.nodup

/-- Every turn keeps a search within its bounds, and examines no edge for the second time. -/
lemma PlaceWithin.turn (wf : image.WellFormed)
    (hpack : request.profile.packRelationIds image.confirmedRelationIds = .ok packed)
    {place : SearchPlace F Unit} (h : PlaceWithin image request origin targets log place) :
    PlaceWithin image request origin targets (log ++ (examines signal request place).toList)
      (searchTurn image.topology signal packed request place) := by
  rcases h with ⟨inv, examined⟩ | ⟨inv, hlabel, hrest, hnodup, examined⟩ | ⟨hfrontier, hnodup⟩ |
    ⟨he, hnodup⟩
  · simp only [examines, Option.toList_none, List.append_nil]
    exact popping_turn wf inv examined
  · rename_i order current rest st w
    rcases rest with _ | ⟨i, rest⟩
    · simp only [examines, Option.toList_none, List.append_nil]
      have hnext : PlaceWithin image request origin targets log (.popping st w) :=
        .popping inv examined.leave
      exact hnext
    · rcases Bool.eq_false_or_eq_true (signal w.polls) with hpoll | hpoll
      · simp only [searchTurn, examines, World.isCancelled, hpoll, Bool.not_true, Bool.false_and,
          Bool.false_eq_true, if_false, Option.toList_none, List.append_nil]
        exact .answered (inv.frontier_length_le wf) examined.nodup
      · simp only [searchTurn, examines, World.isCancelled, hpoll]
        obtain ⟨edge, hedge⟩ := hrest i List.mem_cons_self
        obtain ⟨_, _, _, _, _, hat⟩ := id hedge
        by_cases hbudget : request.budget.permits st.examinedEdges = true
        · obtain ⟨hadd, hspec⟩ := inv.examine wf hpack hlabel hbudget hedge
          have hlog := examined.examine wf hedge hnodup
          simp only [hbudget, Bool.not_true, Bool.false_eq_true, if_false, Bool.not_false,
            Bool.and_self, if_true, hadd, topology_edgeAt hat, Option.toList_some]
          rcases hrelax : relaxEdge packed current i edge
              { st with examinedEdges := st.examinedEdges + 1 } with e | st'
          · rw [hrelax] at hspec
            exact .failed hspec.isArithmetic hlog.nodup
          · rw [hrelax] at hspec
            exact .scanning hspec.1 hspec.2.1 (fun j hj => hrest j (List.mem_cons_of_mem i hj))
              (List.nodup_cons.1 hnodup).2 hlog
        · simp only [hbudget, Bool.not_false, if_true, Bool.and_false, Bool.false_eq_true,
            if_false, Option.toList_none, List.append_nil]
          exact .answered (inv.frontier_length_le wf) examined.nodup
  · simp only [examines, Option.toList_none, List.append_nil]
    exact .answered hfrontier hnodup
  · simp only [examines, Option.toList_none, List.append_nil]
    exact .failed he hnodup

/-- Every place of a whole search. -/
lemma searchPlace_within (wf : image.WellFormed)
    (hpack : request.profile.packRelationIds image.confirmedRelationIds = .ok packed)
    (inv : Searching image request origin targets [] [] st) (turns : ℕ) :
    PlaceWithin image request origin targets
      (examinedIn image.topology signal packed request st w turns)
      (searchPlace image.topology signal packed request st w turns) := by
  induction turns with
  | zero =>
    have hempty : Examined image [] [] [] := ⟨List.nodup_nil, by simp⟩
    simp only [searchPlace, Function.iterate_zero, id, searchEntry, World.isCancelled, examinedIn,
      List.range_zero, List.filterMap_nil]
    rcases signal w.polls with _ | _
    · exact .popping inv hempty
    · exact .answered (inv.frontier_length_le wf) List.nodup_nil
  | succ n ih =>
    have hplace : searchPlace image.topology signal packed request st w (n + 1) =
        searchTurn image.topology signal packed request
          (searchPlace image.topology signal packed request st w n) :=
      Function.iterate_succ_apply' _ n _
    have hlog : examinedIn image.topology signal packed request st w (n + 1) =
        examinedIn image.topology signal packed request st w n ++
          (examines signal request
            (searchPlace image.topology signal packed request st w n)).toList := by
      simp only [examinedIn, List.range_succ, List.filterMap_append]
      congr 1
    rw [hplace, hlog]
    exact ih.turn wf hpack

end Places

end PathHydra
