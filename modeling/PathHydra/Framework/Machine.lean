import Mathlib.Tactic.Common

/-!
# Machines and their runs

A `Machine` is a partial step function: an action that is not possible in a state gives nothing,
any other leads to a state and an output.  A concurrent program becomes one by listing as actions
which party moves and how the environment answers it, so that a run is an interleaving.

`Machine.run_invariant` is the induction every safety result uses; `Machine.Guarded` restricts it
to the runs all of whose steps meet a condition on the state before them.
-/

namespace PathHydra

/-- A partial step function with outputs. -/
structure Machine (S A O : Type*) where
  step : S → A → Option (S × O)

namespace Machine

variable {S A O : Type*} (M : Machine S A O)

/-- The state after a sequence of actions, and the outputs on the way. -/
def run : S → List A → Option (S × List O)
  | s, [] => some (s, [])
  | s, a :: rest =>
    match M.step s a with
    | none => none
    | some (s', o) => (run s' rest).map fun (t, os) => (t, o :: os)

/-- Every step of the run meets a condition on the state before it. -/
def Guarded (guard : S → A → Prop) : S → List A → Prop
  | _, [] => True
  | s, a :: rest => guard s a ∧ ∀ s' o, M.step s a = some (s', o) → Guarded guard s' rest

/-- A guard that can be decided can be decided along a run. -/
instance decidableGuarded (guard : S → A → Prop) [∀ s a, Decidable (guard s a)] :
    ∀ s actions, Decidable (M.Guarded guard s actions)
  | _, [] => .isTrue trivial
  | s, a :: rest =>
    match hstep : M.step s a with
    | none => decidable_of_iff (guard s a) (by simp [Guarded, hstep])
    | some (s', _) =>
      have := decidableGuarded guard s' rest
      decidable_of_iff (guard s a ∧ M.Guarded guard s' rest) (by simp [Guarded, hstep])

variable {M}

lemma run_cons_eq_some {s t : S} {a : A} {rest : List A} {os : List O}
    (h : M.run s (a :: rest) = some (t, os)) :
    ∃ s' o os', M.step s a = some (s', o) ∧ M.run s' rest = some (t, os') ∧ os = o :: os' := by
  simp only [run] at h
  split at h
  · cases h
  · rename_i s' o hstep
    obtain ⟨⟨t', os'⟩, hrest, heq⟩ := Option.map_eq_some_iff.1 h
    cases heq
    exact ⟨s', o, os', hstep, hrest, rfl⟩

/-- A run goes on from where another has ended. -/
lemma run_append {s t u : S} {actions actions' : List A} {os os' : List O}
    (h : M.run s actions = some (t, os)) (h' : M.run t actions' = some (u, os')) :
    M.run s (actions ++ actions') = some (u, os ++ os') := by
  induction actions generalizing s os with
  | nil =>
    cases h
    exact h'
  | cons a rest ih =>
    obtain ⟨s', o, os'', hstep, hrest, rfl⟩ := run_cons_eq_some h
    rw [List.cons_append, run, hstep]
    dsimp only
    rw [ih hrest]
    rfl

/-- What the guarded steps preserve holds after a guarded run, and what they guarantee of their
outputs holds of all its outputs. -/
theorem run_guarded {G : S → A → Prop} {I : S → Prop} {P : O → Prop}
    (hstep : ∀ s a s' o, I s → G s a → M.step s a = some (s', o) → I s' ∧ P o)
    {s t : S} {actions : List A} {os : List O} (hinv : I s) (hguard : M.Guarded G s actions)
    (hrun : M.run s actions = some (t, os)) : I t ∧ ∀ o ∈ os, P o := by
  induction actions generalizing s os with
  | nil =>
    cases hrun
    exact ⟨hinv, by simp⟩
  | cons a rest ih =>
    obtain ⟨s', o, os', ha, hrest, rfl⟩ := run_cons_eq_some hrun
    obtain ⟨hinv', hpost⟩ := hstep s a s' o hinv hguard.1 ha
    obtain ⟨ht, hos⟩ := ih hinv' (hguard.2 s' o ha) hrest
    refine ⟨ht, fun o' ho' => ?_⟩
    rcases List.mem_cons.1 ho' with rfl | ho'
    · exact hpost
    · exact hos o' ho'

/-- When the outputs tell exactly whether a step met a condition, the outputs of a run tell exactly
whether all its steps did. -/
theorem run_outputs_iff_guarded {G H : S → A → Prop} {I : S → Prop} {P : O → Prop}
    (hstep : ∀ s a s' o, I s → G s a → M.step s a = some (s', o) → I s' ∧ (P o ↔ H s a))
    {s t : S} {actions : List A} {os : List O} (hinv : I s) (hguard : M.Guarded G s actions)
    (hrun : M.run s actions = some (t, os)) : (∀ o ∈ os, P o) ↔ M.Guarded H s actions := by
  induction actions generalizing s os with
  | nil =>
    cases hrun
    simp [Guarded]
  | cons a rest ih =>
    obtain ⟨s', o, os', ha, hrest, rfl⟩ := run_cons_eq_some hrun
    obtain ⟨hinv', hpost⟩ := hstep s a s' o hinv hguard.1 ha
    have htail := ih hinv' (hguard.2 s' o ha) hrest
    rw [List.forall_mem_cons, hpost, htail]
    refine and_congr_right fun _ => ⟨fun h s'' o'' ha' => ?_, fun h => h s' o ha⟩
    rw [ha] at ha'
    cases ha'
    exact h

/-- A run is guarded when its actions meet the condition in every state. -/
lemma guarded_of_forall {G : S → A → Prop} {actions : List A} (h : ∀ a ∈ actions, ∀ s, G s a)
    (s : S) : M.Guarded G s actions := by
  induction actions generalizing s with
  | nil => trivial
  | cons a rest ih =>
    refine ⟨h a List.mem_cons_self s, fun s' _ _ => ih (fun b hb => ?_) s'⟩
    exact h b (List.mem_cons_of_mem a hb)

lemma guarded_true (s : S) (actions : List A) : M.Guarded (fun _ _ => True) s actions :=
  guarded_of_forall (fun _ _ _ => trivial) s

/-- What every step preserves holds after every run, with what it guarantees of the outputs. -/
theorem run_outputs {I : S → Prop} {P : O → Prop}
    (hstep : ∀ s a s' o, I s → M.step s a = some (s', o) → I s' ∧ P o) {s t : S}
    {actions : List A} {os : List O} (hinv : I s) (hrun : M.run s actions = some (t, os)) :
    I t ∧ ∀ o ∈ os, P o :=
  run_guarded (fun s a s' o hs _ => hstep s a s' o hs) hinv (guarded_true s actions) hrun

/-- What every step preserves holds after every run. -/
theorem run_invariant {I : S → Prop}
    (hstep : ∀ s a s' o, I s → M.step s a = some (s', o) → I s') {s t : S}
    {actions : List A} {os : List O} (hinv : I s) (hrun : M.run s actions = some (t, os)) : I t :=
  (run_outputs (P := fun _ => True) (fun s a s' o hs ha => ⟨hstep s a s' o hs ha, trivial⟩) hinv
    hrun).1

end Machine

end PathHydra
