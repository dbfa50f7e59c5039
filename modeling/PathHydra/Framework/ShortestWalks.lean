import Mathlib.Order.Lattice
import Mathlib.Data.List.Induction
import Mathlib.Tactic.Common

/-!
# Least-cost walks under a rounding accumulation

A label-setting search is usually justified with the algebra of a totally ordered commutative
monoid.  Costs that are accumulated in floating point have none of that algebra: prolonging a
walk may absorb the arc completely, is not associative, and may overflow.  What survives rounding
is that prolonging is monotone in the cost so far and never lowers it, and this file shows that
nothing else is needed.

A `Network` carries exactly these two laws.  `Network.cost` is the left fold of `extend` along a
walk, undefined as soon as one prolongation overflows.  The two results the search uses are

* `Network.Labelling.settle_min`: in a labelling whose settled vertices are minimal and whose
  outgoing arcs have been relaxed, an unsettled vertex with the least label is minimal too;
* `Network.Labelling.settled_of_exhausted`: when no unsettled vertex carries a label, every walk
  from the origin ends in a settled vertex.
-/

namespace PathHydra

variable {V E C : Type*} [LinearOrder C]

/-- A directed network whose arcs prolong the cost of a walk.  `usable` selects the arcs a walk
may take; `extend c e` is the cost of a walk of cost `c` prolonged by `e`, if it is finite. -/
structure Network (V E C : Type*) [LinearOrder C] where
  source : E → V
  target : E → V
  usable : E → Prop
  extend : C → E → Option C
  extend_mono : ∀ {c c' d' : C} {e : E}, c ≤ c' → extend c' e = some d' →
    ∃ d, extend c e = some d ∧ d ≤ d'
  le_extend : ∀ {c d : C} {e : E}, extend c e = some d → c ≤ d

namespace Network

variable (N : Network V E C)

/-- Walks from `o`, as the list of their arcs in order. -/
inductive Walk (o : V) : List E → V → Prop
  | nil : Walk o [] o
  | snoc {es : List E} {e : E} : Walk o es (N.source e) → N.usable e →
      Walk o (es ++ [e]) (N.target e)

/-- The cost of a walk: the left fold of `extend` from the starting cost. -/
def cost (c₀ : C) (es : List E) : Option C := es.foldlM N.extend c₀

@[simp] lemma cost_nil (c₀ : C) : N.cost c₀ [] = some c₀ := rfl

@[simp] lemma cost_snoc (c₀ : C) (es : List E) (e : E) :
    N.cost c₀ (es ++ [e]) = (N.cost c₀ es).bind (fun c => N.extend c e) := by
  simp [cost, List.foldlM_append]

variable {N}

/-- Accumulation never falls below the starting cost. -/
lemma le_cost {c₀ k : C} {es : List E} (h : N.cost c₀ es = some k) : c₀ ≤ k := by
  induction es using List.reverseRecOn generalizing k with
  | nil => simp only [cost_nil, Option.some.injEq] at h; exact h.le
  | append_singleton es e ih =>
    rw [cost_snoc, Option.bind_eq_some_iff] at h
    obtain ⟨c, hc, hk⟩ := h
    exact (ih hc).trans (N.le_extend hk)

/-- A partial labelling of the vertices together with the set of settled ones. -/
structure Labelling (V C : Type*) where
  label : V → Option C
  settled : V → Prop

namespace Labelling

variable (N) (o : V) (c₀ : C) (L : Labelling V C)

/-- The arc has been relaxed: its target is settled already, or carries a label no larger than
the cost of reaching it through the arc. -/
def Relaxed (e : E) : Prop :=
  L.settled (N.target e) ∨ ∃ c d d', L.label (N.source e) = some c ∧
    N.extend c e = some d ∧ L.label (N.target e) = some d' ∧ d' ≤ d

/-- The vertex is labelled with a lower bound of the cost of every walk that reaches it. -/
def Minimal (v : V) : Prop :=
  ∃ d, L.label v = some d ∧ ∀ es k, N.Walk o es v → N.cost c₀ es = some k → d ≤ k

/-- Every usable arc that leaves a settled vertex has been relaxed. -/
def Closed : Prop := ∀ e, L.settled (N.source e) → N.usable e → L.Relaxed N e

variable {N o c₀ L}

/-- The cut argument: a walk that ends outside the settled set passes an unsettled vertex whose
label is at most the cost of the whole walk. -/
lemma exists_unsettled_label_le (hclosed : L.Closed N) (horigin : L.settled o)
    (hmin : ∀ u, L.settled u → L.Minimal N o c₀ u) {es : List E} {v : V}
    (hw : N.Walk o es v) (hv : ¬ L.settled v) {k : C} (hk : N.cost c₀ es = some k) :
    ∃ y d, ¬ L.settled y ∧ L.label y = some d ∧ d ≤ k := by
  induction hw generalizing k with
  | nil => exact absurd horigin hv
  | @snoc es e hw he ih =>
    rw [cost_snoc, Option.bind_eq_some_iff] at hk
    obtain ⟨p, hp, hpk⟩ := hk
    by_cases hu : L.settled (N.source e)
    · rcases hclosed e hu he with hs | ⟨c, d, d', hc, hd, hd', hle⟩
      · exact absurd hs hv
      · -- the prefix costs at least the label of its last settled vertex
        obtain ⟨c', hc', hbound⟩ := hmin _ hu
        obtain rfl : c = c' := by rw [hc] at hc'; exact Option.some.inj hc'
        obtain ⟨d'', hd'', hd''k⟩ := N.extend_mono (hbound _ _ hw hp) hpk
        obtain rfl : d = d'' := by rw [hd] at hd''; exact Option.some.inj hd''
        exact ⟨_, d', hv, hd', hle.trans hd''k⟩
    · obtain ⟨y, d, hy, hd, hdp⟩ := ih hu hp
      exact ⟨y, d, hy, hd, hdp.trans (N.le_extend hpk)⟩

/-- An unsettled vertex with the least label among the unsettled ones is minimal. -/
theorem settle_min (hclosed : L.Closed N) (horigin : L.settled o)
    (hmin : ∀ u, L.settled u → L.Minimal N o c₀ u) {v : V} (hv : ¬ L.settled v) {d : C}
    (hd : L.label v = some d)
    (hleast : ∀ y d', ¬ L.settled y → L.label y = some d' → d ≤ d') :
    L.Minimal N o c₀ v := by
  refine ⟨d, hd, fun es k hw hk => ?_⟩
  obtain ⟨y, d', hy, hd', hle⟩ := exists_unsettled_label_le hclosed horigin hmin hw hv hk
  exact (hleast y d' hy hd').trans hle

/-- The origin labelled with the starting cost is minimal. -/
lemma origin_min (ho : L.label o = some c₀) : L.Minimal N o c₀ o :=
  ⟨c₀, ho, fun _ _ _ hk => le_cost hk⟩

/-- Once no unsettled vertex is labelled, the settled set contains everything reachable. -/
theorem settled_of_exhausted (hclosed : L.Closed N) (horigin : L.settled o)
    (hexhausted : ∀ y d, L.label y = some d → L.settled y) {es : List E} {v : V}
    (hw : N.Walk o es v) : L.settled v := by
  induction hw with
  | nil => exact horigin
  | @snoc es e _ he ih =>
    rcases hclosed e ih he with hs | ⟨_, _, d', _, _, hd', _⟩
    · exact hs
    · exact hexhausted _ d' hd'

end Labelling

end Network

end PathHydra
