import Mathlib.Tactic.Common

/-!
# Exclusive ownership

A resource that is claimed belongs to exactly one party, and nobody owns a resource that is not
claimed.  The rules are the moves a protocol makes: a party takes a free resource, hands it to
another party, or gives it up.
-/

namespace PathHydra

/-- The claimed resources have exactly one owner each, the others none. -/
structure Exclusive {O R : Type*} (owns : O → R → Prop) (claimed : R → Prop) : Prop where
  claimed_iff : ∀ r, claimed r ↔ ∃ o, owns o r
  unique : ∀ {o o' r}, owns o r → owns o' r → o = o'

namespace Exclusive

variable {O R : Type*} {owns owns' : O → R → Prop} {claimed claimed' : R → Prop}

lemma claimed_of_owns (h : Exclusive owns claimed) {o : O} {r : R} (ho : owns o r) : claimed r :=
  (h.claimed_iff r).2 ⟨o, ho⟩

/-- The owner of a claimed resource exists and is unique. -/
lemma existsUnique (h : Exclusive owns claimed) {r : R} (hr : claimed r) : ∃! o, owns o r := by
  obtain ⟨o, ho⟩ := (h.claimed_iff r).1 hr
  exact ⟨o, ho, fun o' ho' => h.unique ho' ho⟩

/-- Nothing changes hands. -/
lemma congr (h : Exclusive owns claimed) (howns : ∀ o r, owns' o r ↔ owns o r)
    (hclaimed : ∀ r, claimed' r ↔ claimed r) : Exclusive owns' claimed' := by
  constructor
  · intro r
    rw [hclaimed, h.claimed_iff]
    exact exists_congr fun o => (howns o r).symm
  · intro o o' r ho ho'
    exact h.unique ((howns o r).1 ho) ((howns o' r).1 ho')

/-- A party takes a free resource. -/
lemma take (h : Exclusive owns claimed) {o : O} {r : R} (hfree : ¬ claimed r)
    (howns : ∀ o' r', owns' o' r' ↔ owns o' r' ∨ (o' = o ∧ r' = r))
    (hclaimed : ∀ r', claimed' r' ↔ claimed r' ∨ r' = r) : Exclusive owns' claimed' := by
  constructor
  · intro r'
    rw [hclaimed, h.claimed_iff]
    constructor
    · rintro (⟨o', ho'⟩ | rfl)
      · exact ⟨o', (howns o' r').2 (.inl ho')⟩
      · exact ⟨o, (howns o r').2 (.inr ⟨rfl, rfl⟩)⟩
    · rintro ⟨o', ho'⟩
      rcases (howns o' r').1 ho' with ho' | ⟨-, rfl⟩
      · exact .inl ⟨o', ho'⟩
      · exact .inr rfl
  · intro o₁ o₂ r' h₁ h₂
    rcases (howns o₁ r').1 h₁ with h₁ | ⟨rfl, rfl⟩ <;>
      rcases (howns o₂ r').1 h₂ with h₂ | ⟨rfl, hr⟩
    · exact h.unique h₁ h₂
    · exact absurd (h.claimed_of_owns (hr ▸ h₁)) hfree
    · exact absurd (h.claimed_of_owns h₂) hfree
    · rfl

/-- A party hands its resource over. -/
lemma handOver (h : Exclusive owns claimed) {o p : O} {r : R} (ho : owns o r)
    (howns : ∀ o' r', owns' o' r' ↔ (owns o' r' ∧ r' ≠ r) ∨ (o' = p ∧ r' = r))
    (hclaimed : ∀ r', claimed' r' ↔ claimed r') : Exclusive owns' claimed' := by
  constructor
  · intro r'
    rw [hclaimed]
    by_cases hr : r' = r
    · subst hr
      exact iff_of_true (h.claimed_of_owns ho) ⟨p, (howns p r').2 (.inr ⟨rfl, rfl⟩)⟩
    · rw [h.claimed_iff]
      exact exists_congr fun o' => by simp [howns, hr]
  · intro o₁ o₂ r' h₁ h₂
    rcases (howns o₁ r').1 h₁ with ⟨h₁, hne⟩ | ⟨rfl, rfl⟩ <;>
      rcases (howns o₂ r').1 h₂ with ⟨h₂, hne'⟩ | ⟨rfl, hr⟩
    · exact h.unique h₁ h₂
    · exact absurd hr hne
    · exact absurd rfl hne'
    · rfl

/-- A party gives its resource up. -/
lemma release (h : Exclusive owns claimed) {r : R}
    (howns : ∀ o' r', owns' o' r' ↔ owns o' r' ∧ r' ≠ r)
    (hclaimed : ∀ r', claimed' r' ↔ claimed r' ∧ r' ≠ r) : Exclusive owns' claimed' := by
  constructor
  · intro r'
    rw [hclaimed, h.claimed_iff]
    constructor
    · rintro ⟨⟨o, ho⟩, hne⟩
      exact ⟨o, (howns o r').2 ⟨ho, hne⟩⟩
    · rintro ⟨o, ho⟩
      obtain ⟨ho, hne⟩ := (howns o r').1 ho
      exact ⟨⟨o, ho⟩, hne⟩
  · intro o₁ o₂ r' h₁ h₂
    exact h.unique ((howns o₁ r').1 h₁).1 ((howns o₂ r').1 h₂).1

end Exclusive

end PathHydra
