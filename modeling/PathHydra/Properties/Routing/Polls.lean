import Mathlib.Order.Monotone.Basic
import PathHydra.Properties.Routing.Budget

/-!
# What a poll can change

A search asks its signal at numbered polls and sees nothing else of it.  `Undisturbed` says this of
one run: the signal was low at every poll the run made, and every other signal that is low at these
polls gives the same run.  The lemmas follow the program from the inner loop outwards: a loop that
does not end by cancellation is undisturbed, and so is every part of a run that is never cancelled.
-/

namespace PathHydra

variable {F : Type} [Binary64 F] {image : RoutingImage} {packed : PackedRelationProfile}
  {request : RoutingRequest} {signal : CancellationSignal}

/-! ## Undisturbed runs -/

/-- The signal is low at the polls made between two worlds. -/
structure Unraised (signal : CancellationSignal) (w w' : World Unit) : Prop where
  polls_le : w.polls ≤ w'.polls
  low : ∀ n, w.polls ≤ n → n < w'.polls → signal n = false

lemma Unraised.left {w w₁ w' : World Unit} (h : Unraised signal w w') (hle : w.polls ≤ w₁.polls)
    (hle' : w₁.polls ≤ w'.polls) : Unraised signal w w₁ :=
  ⟨hle, fun n hn hlt => h.low n hn (hlt.trans_le hle')⟩

lemma Unraised.right {w w₁ w' : World Unit} (h : Unraised signal w w') (hle : w.polls ≤ w₁.polls)
    (hle' : w₁.polls ≤ w'.polls) : Unraised signal w₁ w' :=
  ⟨hle', fun n hn hlt => h.low n (hle.trans hn) hlt⟩

/-- A run from one world to another finds the signal low, and depends on nothing else of it. -/
structure Undisturbed {α : Type} (run : CancellationSignal → α) (signal : CancellationSignal)
    (w : World Unit) (out : α) (w' : World Unit) : Prop where
  unraised : Unraised signal w w'
  same : ∀ other, Unraised other w w' → run other = out

namespace Undisturbed

variable {α β : Type} {run : CancellationSignal → α} {w w₁ w' : World Unit} {out : α}

/-- A run without a poll. -/
lemma pure (h : ∀ other, run other = out) : Undisturbed run signal w out w :=
  ⟨⟨le_rfl, fun n hn hlt => by omega⟩, fun other _ => h other⟩

/-- One run after another. -/
lemma bind {f : CancellationSignal → β} {out₁ : β} {g : CancellationSignal → α}
    (h₁ : Undisturbed f signal w out₁ w₁)
    (hrun : ∀ other, f other = out₁ → run other = g other)
    (h₂ : Undisturbed g signal w₁ out w') : Undisturbed run signal w out w' := by
  have hle := h₁.unraised.polls_le
  have hle' := h₂.unraised.polls_le
  refine ⟨⟨hle.trans hle', fun n hn hlt => ?_⟩, fun other hother => ?_⟩
  · rcases lt_or_ge n w₁.polls with h | h
    · exact h₁.unraised.low n hn h
    · exact h₂.unraised.low n h hlt
  · rw [hrun other (h₁.same other (hother.left hle hle'))]
    exact h₂.same other (hother.right hle hle')

/-- The outcome of a run is changed without a further poll. -/
lemma map {g : CancellationSignal → β} {out' : β} (h : Undisturbed run signal w out w')
    (hrun : ∀ other, run other = out → g other = out') :
    Undisturbed g signal w out' w' :=
  h.bind (g := fun _ => out') hrun (.pure fun _ => rfl)

end Undisturbed

/-- A poll that finds the signal low. -/
lemma isCancelled_undisturbed {w w₁ : World Unit} (h : w.isCancelled signal = (false, w₁)) :
    Undisturbed (fun other => w.isCancelled other) signal w (false, w₁) w₁ := by
  obtain ⟨hpoll, rfl⟩ := Prod.mk.inj h
  refine ⟨⟨Nat.le_succ _, fun n hn hlt => ?_⟩, fun other hother => ?_⟩
  · obtain rfl : n = w.polls := Nat.le_antisymm (Nat.le_of_lt_succ hlt) hn
    exact hpoll
  · simp only [World.isCancelled, hother.low w.polls le_rfl (Nat.lt_succ_self _)]

/-! ## The search -/

lemma relaxRange_undisturbed {budget : SearchBudget} {current : FrontierEntry F} {scan : List ℕ}
    {st st' : SearchState F} {w w' : World Unit} {reason : Option CompletionReason}
    (h : relaxRange image.topology signal packed budget current scan st w =
      (.ok (reason, st'), w')) (hreason : reason ≠ some .cancelled) :
    Undisturbed (fun other => relaxRange image.topology other packed budget current scan st w)
      signal w (.ok (reason, st'), w') w' := by
  induction scan generalizing st w with
  | nil =>
    cases h
    exact .pure fun _ => rfl
  | cons i rest ih =>
    simp only [relaxRange] at h ⊢
    rcases hpoll : w.isCancelled signal with ⟨_ | _, w₁⟩
    · simp only [hpoll] at h
      refine (isCancelled_undisturbed hpoll).bind (fun other hother => by rw [hother]) ?_
      split_ifs at h ⊢
      · cases h
        exact .pure fun _ => rfl
      · split at h
        · cases h
        rcases hat : image.edgeAt i with _ | edge
        · simp [RoutingImage.topology, hat, Except.map] at h
        simp only [topology_edgeAt hat] at h ⊢
        split at h
        · cases h
        exact ih h
    · simp only [hpoll] at h
      cases h
      exact absurd rfl hreason

lemma searchIteration_undisturbed {st st' : SearchState F} {w w' : World Unit}
    {reason : Option CompletionReason}
    (h : searchIteration image.topology signal packed request st w = (.ok (reason, st'), w'))
    (hreason : reason ≠ some .cancelled) :
    Undisturbed (fun other => searchIteration image.topology other packed request st w) signal w
      (.ok (reason, st'), w') w' := by
  unfold searchIteration at h ⊢
  rcases hpop : popFrontier st.frontier with _ | ⟨current, frontier⟩
  · simp only [hpop] at h ⊢
    cases h
    exact .pure fun _ => rfl
  · simp only [hpop] at h ⊢
    split_ifs at h ⊢
    · cases h
      exact .pure fun _ => rfl
    · rcases hpoll : w.isCancelled signal with ⟨_ | _, w₁⟩
      · simp only [hpoll] at h
        refine (isCancelled_undisturbed hpoll).bind (fun other hother => by rw [hother]) ?_
        split at h
        · cases h
        split_ifs at h ⊢
        · cases h
          exact .pure fun _ => rfl
        · split at h
          · cases h
          exact relaxRange_undisturbed h hreason
      · simp only [hpoll] at h
        cases h
        exact absurd rfl hreason

lemma searchLoop_undisturbed {fuel : ℕ} {st st' : SearchState F} {w w' : World Unit}
    {reason : CompletionReason}
    (h : searchLoop image.topology signal packed request fuel st w = (.ok (reason, st'), w'))
    (hreason : reason ≠ .cancelled) :
    Undisturbed (fun other => searchLoop image.topology other packed request fuel st w) signal w
      (.ok (reason, st'), w') w' := by
  induction fuel generalizing st w with
  | zero => cases h
  | succ fuel ih =>
    unfold searchLoop at h ⊢
    split at h
    · cases h
    · rename_i hturn
      cases h
      exact (searchIteration_undisturbed hturn fun heq => hreason (Option.some.inj heq)).map
        fun other hother => by rw [hother]
    · rename_i st₁ w₁ hturn
      exact (searchIteration_undisturbed hturn (by simp)).bind
        (fun other hother => by rw [hother]) (ih h)

/-- A search that is not cancelled is undisturbed. -/
lemma runSearch_undisturbed {st st' : SearchState F} {w w' : World Unit}
    {reason : CompletionReason}
    (h : runSearch image.topology signal packed request st w = (.ok (reason, st'), w'))
    (hreason : reason ≠ .cancelled) :
    Undisturbed (fun other => runSearch image.topology other packed request st w) signal w
      (.ok (reason, st'), w') w' := by
  unfold runSearch at h ⊢
  rcases hpoll : w.isCancelled signal with ⟨_ | _, w₁⟩
  · simp only [hpoll] at h
    exact (isCancelled_undisturbed hpoll).bind (fun other hother => by rw [hother])
      (searchLoop_undisturbed h hreason)
  · simp only [hpoll] at h
    cases h
    exact absurd rfl hreason

/-! ## Reconstruction and assembly -/

lemma reconstructSteps_undisturbed {origin : DenseNodeId}
    {p : DenseNodeId → Option Predecessor} {fuel : ℕ} {v : DenseNodeId}
    {visited : DenseNodeId → Bool} {steps out : List (PathStep F)} {count count' : ℕ}
    {w w' : World Unit}
    (h : reconstructSteps image.topology signal packed origin p fuel v visited steps count w =
      (.ok (some out), count', w')) :
    Undisturbed (fun other => reconstructSteps image.topology other packed origin p fuel v visited
      steps count w) signal w (.ok (some out), count', w') w' := by
  induction fuel generalizing v visited steps count w with
  | zero => cases h
  | succ fuel ih =>
    unfold reconstructSteps at h ⊢
    split_ifs at h ⊢
    · cases h
      exact .pure fun _ => rfl
    · rcases hpoll : w.isCancelled signal with ⟨_ | _, w₁⟩
      · simp only [hpoll] at h
        cases h
      · simp only [hpoll] at h
        cases h
    · rcases hpoll : w.isCancelled signal with ⟨_ | _, w₁⟩
      · simp only [hpoll] at h
        refine (isCancelled_undisturbed hpoll).bind (fun other hother => by rw [hother]) ?_
        split at h
        · cases h
        rename_i q hq
        split at h
        · cases h
        split_ifs at h ⊢
        swap
        · cases h
        rcases hat : image.edgeAt q.adjacency with _ | edge
        · simp [RoutingImage.topology, hat, Except.map] at h
        simp only [topology_edgeAt hat] at h ⊢
        split at h
        · cases h
        exact ih h
      · simp only [hpoll] at h
        cases h

lemma reconstructPath_undisturbed {externalOrigin externalDestination : NodeId}
    {origin dense : DenseNodeId} {distance : F} {p : DenseNodeId → Option Predecessor}
    {count count' : ℕ} {path : RoutePath F} {w w' : World Unit}
    (h : reconstructPath image.topology signal packed externalOrigin origin externalDestination
      dense distance p count w = (.ok (some path), count', w')) :
    Undisturbed (fun other => reconstructPath image.topology other packed externalOrigin origin
      externalDestination dense distance p count w) signal w (.ok (some path), count', w') w' := by
  unfold reconstructPath at h ⊢
  split_ifs at h ⊢
  · cases h
    exact .pure fun _ => rfl
  · split at h
    · cases h
    · cases h
    · rename_i hsteps
      have hrest := reconstructSteps_undisturbed hsteps
      split at h
      · cases h
      rename_i summed hsummed
      split_ifs at h with hdistance
      · cases h
      cases h
      refine hrest.map fun other hother => ?_
      rw [hother]
      simp only [hsummed, if_neg hdistance]

variable {origin : DenseNodeId} {st : SearchState F} {a a' : Assembly F} {w w' : World Unit}

/-- A run that is never cancelled rebuilds every path it begins. -/
lemma assemblePath_undisturbed {d : NodeId} {dense : DenseNodeId} {distance : F}
    {path : Option (RoutePath F)}
    (h : assemblePath image.topology neverCancelled packed request origin st d dense distance a w =
      (.ok (path, a'), w')) :
    Undisturbed (fun other => assemblePath image.topology other packed request origin st d dense
      distance a w) neverCancelled w (.ok (path, a'), w') w' := by
  unfold assemblePath at h ⊢
  split at h
  · split at h
    · cases h
      exact .pure fun _ => rfl
    · split at h
      · cases h
      · rename_i hfound
        cases h
        exact (reconstructPath_undisturbed hfound).map fun other hother => by rw [hother]
      · rename_i hnone
        obtain ⟨n, -, hn⟩ := reconstructPath_none hnone
        cases hn
  · cases h
    exact .pure fun _ => rfl

lemma assembleState_undisturbed {d : NodeId} {dense : Option DenseNodeId}
    {state : DestinationState F}
    (h : assembleState image.topology neverCancelled packed request origin st d dense a w =
      (.ok (state, a'), w')) :
    Undisturbed (fun other => assembleState image.topology other packed request origin st d dense
      a w) neverCancelled w (.ok (state, a'), w') w' := by
  unfold assembleState at h ⊢
  split at h
  · cases h
    exact .pure fun _ => rfl
  · simp only
    split_ifs at h ⊢
    · split at h
      · cases h
      split at h
      · cases h
      rename_i hpath
      cases h
      exact (assemblePath_undisturbed hpath).map fun other hother => by rw [hother]
    · cases h
      exact .pure fun _ => rfl
    · cases h
      exact .pure fun _ => rfl

lemma assembleResults_undisturbed {destinations : List (NodeId × Option DenseNodeId)}
    (h : assembleResults image.topology neverCancelled packed request origin st destinations a w =
      (.ok a', w')) :
    Undisturbed (fun other => assembleResults image.topology other packed request origin st
      destinations a w) neverCancelled w (.ok a', w') w' := by
  induction destinations generalizing a w with
  | nil =>
    cases h
    exact .pure fun _ => rfl
  | cons entry rest ih =>
    unfold assembleResults at h ⊢
    split at h
    · cases h
    rename_i hstate
    exact (assembleState_undisturbed hstate).bind (fun other hother => by rw [hother]) (ih h)

/-! ## A signal raised before the search -/

section Raised

variable {κ : Type} {T : RoutingTopology κ} {w w' : World κ}

/-- Nothing in the assembly takes a cancellation back. -/
lemma assemblePath_cancelled {destination : NodeId} {dense : DenseNodeId} {distance : F}
    {path : Option (RoutePath F)} (ha : a.completionReason = .cancelled)
    (h : assemblePath T signal packed request origin st destination dense distance a w =
      (.ok (path, a'), w')) : a'.completionReason = .cancelled := by
  unfold assemblePath at h
  split at h
  · split at h
    · cases h
      exact ha
    · split at h <;> cases h
      · exact ha
      · rfl
  · cases h
    exact ha

lemma assembleState_cancelled {destination : NodeId} {dense : Option DenseNodeId}
    {state : DestinationState F} (ha : a.completionReason = .cancelled)
    (h : assembleState T signal packed request origin st destination dense a w =
      (.ok (state, a'), w')) : a'.completionReason = .cancelled := by
  unfold assembleState at h
  split at h
  · cases h
    exact ha
  · split_ifs at h
    · split at h
      · cases h
      split at h
      · cases h
      rename_i assembled _ hpath
      cases h
      show assembled.completionReason = .cancelled
      exact assemblePath_cancelled ha hpath
    · cases h
      exact ha
    · cases h
      exact ha

lemma assembleResults_cancelled {entries : List (NodeId × Option DenseNodeId)}
    (ha : a.completionReason = .cancelled)
    (h : assembleResults T signal packed request origin st entries a w = (.ok a', w')) :
    a'.completionReason = .cancelled := by
  induction entries generalizing a w with
  | nil =>
    cases h
    exact ha
  | cons entry rest ih =>
    unfold assembleResults at h
    split at h
    · cases h
    rename_i assembled _ hstate
    refine ih ?_ h
    show assembled.completionReason = .cancelled
    exact assembleState_cancelled ha hstate

/-- A search that finds its signal raised at the first poll answers that it was cancelled. -/
theorem routeTopologyControlled_cancelled {response : RoutingResponse F}
    {diagnostics : CpuSearchDiagnostics} (hsignal : signal w.polls = true)
    (hpresent : ∃ destination ∈ request.destinations, (T.denseNodeId destination).isSome)
    (h : routeTopologyControlled T request signal w = (.ok (response, diagnostics), w')) :
    response.completionReason = .cancelled := by
  unfold routeTopologyControlled at h
  split at h
  · cases h
  split at h
  · cases h
  rename_i packed _
  obtain ⟨waiting, -, hcard, hcover⟩ := collectPending_spec
    (request.destinations.map T.denseNodeId) ∅ (fun _ => false) (by simp)
  have hcount : waiting.card ≠ 0 := by
    obtain ⟨destination, hmem, hsome⟩ := hpresent
    obtain ⟨dense, hdense⟩ := Option.isSome_iff_exists.1 hsome
    have hwaiting : dense ∈ waiting :=
      (hcover dense).2 (.inr (List.mem_map.2 ⟨destination, hmem, hdense⟩))
    exact Finset.card_ne_zero_of_mem hwaiting
  rw [Finset.card_empty] at hcard
  unfold routeMapped at h
  simp only [hcard, if_neg hcount] at h
  split at h
  · cases h
  simp only [runSearch, World.isCancelled, hsignal] at h
  split at h
  · cases h
  rename_i hassemble
  cases h
  exact assembleResults_cancelled rfl hassemble

end Raised

end PathHydra
