import PathHydra.Construction.Store.Catalog

/-!
# Failed calls change nothing

An operation of the catalog plans first, which only reads, then hands one batch to the disk, and
then updates the exact-name maps, which cannot fail.  `RunEnsures` states what an operation does
from a given state: a property of its result and the state it leaves, or a property of its error
and that the state is the one it started from.  Its rules follow this shape.
-/

namespace PathHydra

variable {α β : Type}

/-- From the state the operation either succeeds with a property, or fails with another and leaves
the state as it was. -/
def RunEnsures (op : CatalogM α) (c : Catalog) (Q : α → Catalog → Prop)
    (E : CatalogError → Prop) : Prop :=
  match op c with
  | .ok a c' => Q a c'
  | .error e c' => c' = c ∧ E e

section Rules

variable {c : Catalog} {Q : α → Catalog → Prop} {E : CatalogError → Prop}

lemma RunEnsures.of_ok {op : CatalogM α} (h : RunEnsures op c Q E) {a : α} {c' : Catalog}
    (hrun : op c = .ok a c') : Q a c' := by
  unfold RunEnsures at h
  rw [hrun] at h
  exact h

lemma RunEnsures.of_error {op : CatalogM α} (h : RunEnsures op c Q E) {e : CatalogError}
    {c' : Catalog} (hrun : op c = .error e c') : c' = c ∧ E e := by
  unfold RunEnsures at h
  rw [hrun] at h
  exact h

lemma RunEnsures.mono {op : CatalogM α} {Q' : α → Catalog → Prop} {E' : CatalogError → Prop}
    (h : RunEnsures op c Q E) (hQ : ∀ a c', Q a c' → Q' a c') (hE : ∀ e, E e → E' e) :
    RunEnsures op c Q' E' := by
  unfold RunEnsures at h ⊢
  rcases hop : op c with ⟨a, c'⟩ | ⟨e, c'⟩
  · rw [hop] at h
    exact hQ a c' h
  · rw [hop] at h
    exact ⟨h.1, hE e h.2⟩

/-- A planning step only reads. -/
lemma runEnsures_planning {x : Except CatalogError β} {f : β → CatalogM α} {P : β → Prop}
    (hx : Ensures x P E) (hf : ∀ b, P b → RunEnsures (f b) c Q E) :
    RunEnsures (planning x >>= f) c Q E := by
  cases x with
  | ok b => exact hf b hx
  | error e => exact ⟨rfl, hx⟩

lemma runEnsures_get {f : Catalog → CatalogM α} (h : RunEnsures (f c) c Q E) :
    RunEnsures (get >>= f) c Q E := h

/-- The batch is refused as a whole, or applied and followed by steps that cannot fail. -/
lemma runEnsures_commit {disk : WriteAnswer} {batch : WriteBatch} {f : Unit → CatalogM α}
    (hnoSpace : disk = .noSpace → E (.storageExhausted "catalog write"))
    (hfailed : ∀ reason, disk = .failed reason → E (.rocksDb reason))
    (hwritten : ∃ a c', f () { c with db := c.db.write batch } = .ok a c' ∧ Q a c') :
    RunEnsures (commitBatch disk batch >>= f) c Q E := by
  cases disk with
  | written =>
    obtain ⟨a, c', hrun, hQ⟩ := hwritten
    show RunEnsures (fun _ => f () { c with db := c.db.write batch }) c Q E
    unfold RunEnsures
    rw [hrun]
    exact hQ
  | noSpace => exact ⟨rfl, hnoSpace rfl⟩
  | failed reason => exact ⟨rfl, hfailed reason rfl⟩

/-- Wrapping the result of an operation. -/
lemma RunEnsures.map {op : CatalogM β} {P : β → Catalog → Prop} (h : RunEnsures op c P E)
    (f : β → α) (hQ : ∀ b c', P b c' → Q (f b) c') :
    RunEnsures (do let b ← op; pure (f b)) c Q E := by
  unfold RunEnsures at h ⊢
  simp only [bind, EStateM.bind, pure, EStateM.pure]
  rcases hop : op c with ⟨b, c'⟩ | ⟨e, c'⟩
  · rw [hop] at h
    exact hQ b c' h
  · rw [hop] at h
    exact h

end Rules

/-! ## Every call is atomic -/

/-- A step of which nothing is known. -/
lemma ensures_true (x : Except CatalogError α) : Ensures x (fun _ => True) fun _ => True := by
  cases x <;> trivial

section Atomic

variable (disk : WriteAnswer) (c : Catalog)

lemma insertCandidateBatch_atomic (entries : List CandidateBatchEntry) :
    RunEnsures (insertCandidateBatch disk entries) c (fun _ _ => True) fun _ => True := by
  refine runEnsures_planning (ensures_true _) fun _ _ => runEnsures_get ?_
  refine runEnsures_planning (ensures_true _) fun _ _ => ?_
  refine runEnsures_planning (ensures_true _) fun _ _ => ?_
  refine runEnsures_planning (ensures_true _) fun _ _ => ?_
  refine runEnsures_planning (ensures_true _) fun _ _ => ?_
  refine runEnsures_planning (ensures_true _) fun _ _ => ?_
  refine runEnsures_planning (ensures_true _) fun _ _ => ?_
  exact runEnsures_commit (fun _ => trivial) (fun _ _ => trivial) ⟨_, _, rfl, trivial⟩

lemma confirmCandidateBatch_atomic (candidateIds : List CandidateId) (maximumResponseBytes : ℕ) :
    RunEnsures (confirmCandidateBatchWithResponseLimit disk candidateIds maximumResponseBytes) c
      (fun _ _ => True) fun _ => True := by
  refine runEnsures_planning (ensures_true _) fun _ _ => runEnsures_get ?_
  refine runEnsures_planning (ensures_true _) fun _ _ => ?_
  refine runEnsures_planning (ensures_true _) fun counted _ => ?_
  obtain ⟨counts, incoming⟩ := counted
  refine runEnsures_planning (ensures_true _) fun _ _ => ?_
  refine runEnsures_planning (ensures_true _) fun _ _ => ?_
  refine runEnsures_planning (ensures_true _) fun _ _ => ?_
  refine runEnsures_planning (ensures_true _) fun _ _ => ?_
  refine runEnsures_planning (ensures_true _) fun _ _ => ?_
  refine runEnsures_planning (ensures_true _) fun _ _ => ?_
  refine runEnsures_planning (ensures_true _) fun _ _ => ?_
  refine runEnsures_planning (ensures_true _) fun _ _ => ?_
  -- the names are added after the commit, by a step that cannot fail
  exact runEnsures_commit (fun _ => trivial) (fun _ _ => trivial) ⟨_, _, rfl, trivial⟩

lemma removeEdge_atomic (id : EdgeId) :
    RunEnsures (removeEdge disk id) c (fun _ _ => True) fun _ => True := by
  refine runEnsures_get (runEnsures_planning (ensures_true _) fun _ _ => ?_)
  refine runEnsures_planning (ensures_true _) fun _ _ => ?_
  refine runEnsures_planning (ensures_true _) fun _ _ => ?_
  refine runEnsures_planning (ensures_true _) fun released _ => ?_
  obtain ⟨updated, removed⟩ := released
  refine runEnsures_planning (ensures_true _) fun _ _ => ?_
  exact runEnsures_commit (fun _ => trivial) (fun _ _ => trivial) ⟨_, _, rfl, trivial⟩

lemma removeNode_atomic (id : NodeId) :
    RunEnsures (removeNode disk id) c (fun _ _ => True) fun _ => True := by
  refine runEnsures_get (runEnsures_planning (ensures_true _) fun _ _ => ?_)
  refine runEnsures_planning (ensures_true _) fun _ _ => ?_
  refine runEnsures_planning (ensures_true _) fun _ _ => ?_
  refine runEnsures_planning (ensures_true _) fun _ _ => ?_
  refine runEnsures_planning (ensures_true _) fun _ _ => ?_
  refine runEnsures_planning (ensures_true _) fun _ _ => ?_
  refine runEnsures_planning (ensures_true _) fun _ _ => ?_
  refine runEnsures_planning (ensures_true _) fun _ _ => ?_
  exact runEnsures_commit (fun _ => trivial) (fun _ _ => trivial) ⟨_, _, rfl, trivial⟩

lemma setActiveRoutingImage_atomic (pointer : ActiveRoutingImage) :
    RunEnsures (setActiveRoutingImage disk pointer) c (fun _ _ => True) fun _ => True := by
  refine runEnsures_planning (ensures_true _) fun _ _ => ?_
  cases disk with
  | written => trivial
  | noSpace => exact ⟨rfl, trivial⟩
  | failed => exact ⟨rfl, trivial⟩

lemma clearActiveRoutingImage_atomic :
    RunEnsures (clearActiveRoutingImage disk) c (fun _ _ => True) fun _ => True := by
  cases disk with
  | written => trivial
  | noSpace => exact ⟨rfl, trivial⟩
  | failed => exact ⟨rfl, trivial⟩

lemma CatalogCall.run_atomic (call : CatalogCall) :
    RunEnsures (call.run disk) c (fun _ _ => True) fun _ => True := by
  rcases call with entries | ids | ⟨ids, limit⟩ | id | id | pointer | _
  · exact (insertCandidateBatch_atomic disk c entries).map _ fun _ _ h => h
  · exact (confirmCandidateBatch_atomic disk c ids u64Max).map _ fun _ _ h => h
  · exact (confirmCandidateBatch_atomic disk c ids limit).map _ fun _ _ h => h
  · exact (removeEdge_atomic disk c id).map _ fun _ _ h => h
  · exact (removeNode_atomic disk c id).map _ fun _ _ h => h
  · exact (setActiveRoutingImage_atomic disk c pointer).map (fun _ => CallResult.done) fun _ _ h => h
  · exact (clearActiveRoutingImage_atomic disk c).map (fun _ => CallResult.done) fun _ _ h => h

end Atomic

end PathHydra
