import PathHydra.Framework.Machine

/-!
# Simulation between machines

A `Simulation` reads the state of one machine as that of another and answers each step of the first
by a run of the second.  Runs are then answered by runs (`Simulation.run`), and simulations compose
(`Simulation.comp`), so that a property of the reachable states of a small machine carries over to
every machine built around it.
-/

namespace PathHydra

namespace Machine

section Reaches

variable {S A O : Type*} {M : Machine S A O} {s t u : S}

/-- Some run leads from one state to the other. -/
def Reaches (M : Machine S A O) (s t : S) : Prop :=
  ∃ actions os, M.run s actions = some (t, os)

lemma Reaches.refl (s : S) : M.Reaches s s := ⟨[], [], rfl⟩

lemma Reaches.of_step {a : A} {o : O} (h : M.step s a = some (t, o)) : M.Reaches s t := by
  refine ⟨[a], [o], ?_⟩
  rw [run, h]
  rfl

lemma Reaches.trans (h : M.Reaches s t) (h' : M.Reaches t u) : M.Reaches s u := by
  obtain ⟨actions, os, hrun⟩ := h
  obtain ⟨actions', os', hrun'⟩ := h'
  exact ⟨_, _, run_append hrun hrun'⟩

end Reaches

variable {S A O S' A' O' S'' A'' O'' : Type*} {M : Machine S A O} {N : Machine S' A' O'}
  {L : Machine S'' A'' O''} {I : S → Prop} {J : S' → Prop} {abs : S → S'} {abs' : S' → S''}

/-- Under an invariant of the first machine, each of its steps is a run of the second one. -/
structure Simulation (M : Machine S A O) (N : Machine S' A' O') (I : S → Prop) (abs : S → S') :
    Prop where
  keeps : ∀ {s a s' o}, I s → M.step s a = some (s', o) → I s'
  steps : ∀ {s a s' o}, I s → M.step s a = some (s', o) → N.Reaches (abs s) (abs s')

namespace Simulation

lemma run (h : Simulation M N I abs) {s t : S} {actions : List A} {os : List O} (hinv : I s)
    (hrun : M.run s actions = some (t, os)) : I t ∧ N.Reaches (abs s) (abs t) := by
  refine run_invariant (I := fun u => I u ∧ N.Reaches (abs s) (abs u)) ?_ ⟨hinv, .refl _⟩ hrun
  rintro u a u' o ⟨hu, hreached⟩ hstep
  exact ⟨h.keeps hu hstep, hreached.trans (h.steps hu hstep)⟩

lemma comp (h : Simulation M N I abs) (h' : Simulation N L J abs') :
    Simulation M L (fun s => I s ∧ J (abs s)) (abs' ∘ abs) := by
  have hreaches : ∀ {s a s' o}, I s → J (abs s) → M.step s a = some (s', o) →
      J (abs s') ∧ L.Reaches (abs' (abs s)) (abs' (abs s')) := by
    intro s a s' o hs hj hstep
    obtain ⟨actions, os, hrun⟩ := h.steps hs hstep
    exact h'.run hj hrun
  constructor
  · rintro s a s' o ⟨hs, hj⟩ hstep
    exact ⟨h.keeps hs hstep, (hreaches hs hj hstep).1⟩
  · rintro s a s' o ⟨hs, hj⟩ hstep
    exact (hreaches hs hj hstep).2

end Simulation

end Machine

end PathHydra
