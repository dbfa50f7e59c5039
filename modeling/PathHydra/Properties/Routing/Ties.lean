import PathHydra.Framework.GreedyOrder
import PathHydra.Properties.Routing.Independence

/-!
# Ties are broken by the dense source and the edge

Of the edges that attain the distance of a node, the search records the one with the least dense
source and, from that source, the least edge.  It maintains this choice while the tentative distance
still falls: an improvement resets it, since no earlier edge reaches the node for so little, and a
tie refines it.  The result is a greedy order with stable parents (`Network.Greedy`) and is
therefore determined by the image, the profile and the origin.  In particular it does not depend on
the order in which the edges of a node are relaxed or the entries of the frontier are kept, which a
`ShuffledStep` may change at any moment.
-/

namespace PathHydra

variable {F : Type} [Binary64 F]

/-! ## Ranks -/

/-- What decides between predecessors: the dense source, then the edge. -/
def Predecessor.rank (q : Predecessor) : DenseNodeId ×ₗ EdgeId := toLex (q.source, q.edge)

lemma replacesPredecessor_some {old new : Predecessor} :
    replacesPredecessor (some old) new = true ↔ new.rank < old.rank := by
  simp [replacesPredecessor, Predecessor.rank, Prod.Lex.toLex_lt_toLex]

/-- The recorded choice at every node, as a rank. -/
def predecessorRank (predecessors : DenseNodeId → Option Predecessor) (v : DenseNodeId) :
    Option (DenseNodeId ×ₗ EdgeId) :=
  (predecessors v).map Predecessor.rank

/-- The tie law: the nodes were finalized in ascending order of distance and dense node among the
candidates of the moment, and each records the least dense source and edge among the enabled edges
from earlier nodes that attain its distance. -/
def TieLaw (image : RoutingImage) (profile : RelationProfile) (origin : DenseNodeId)
    (distances : DenseNodeId → Option F) (predecessors : DenseNodeId → Option Predecessor)
    (order : List DenseNodeId) : Prop :=
  (routingNetwork F image profile).Greedy (fun arc => arc.predecessor.rank) origin 0 distances
    (predecessorRank predecessors) order

/-! ## Edges of one source -/

namespace RoutingImage

end RoutingImage

/-! ## Shuffled runs -/

/-- A step of the canonical run, or a rearrangement of the edges still to be relaxed and of the
entries of the frontier. -/
inductive ShuffledStep (image : RoutingImage) (packed : PackedRelationProfile) :
    RunPlace F → RunPlace F → Prop
  | step {c c' : RunPlace F} (h : CanonicalStep image packed c c') : ShuffledStep image packed c c'
  | shuffle {st : SearchState F} {scan scan' : List (FrontierEntry F × ℕ)}
      {frontier : List (FrontierEntry F)} (hscan : scan'.Perm scan)
      (hfrontier : frontier.Perm st.frontier) :
      ShuffledStep image packed ⟨st, scan⟩ ⟨{ st with frontier := frontier }, scan'⟩

/-- What holds between two steps of a shuffled run: the search invariant, the tie law for the final
nodes, and the same law for the waiting nodes as far as edges have been relaxed. -/
structure PlaceInv (image : RoutingImage) (profile : RelationProfile) (origin : DenseNodeId)
    (order : List DenseNodeId) (p : DenseNodeId → Option Predecessor) (c : RunPlace F) : Prop where
  search : SearchInv image profile origin order (c.scan.map Prod.snd) c.search
  scanned : ∀ x ∈ c.scan, order.head? = some x.1.node ∧
    c.search.distances x.1.node = some x.1.distance ∧ ∃ edge, image.HasEdge x.1.node x.2 edge
  predecessors : c.search.predecessors = some p
  waiting : ∀ v d q, v ∉ order → c.search.distances v = some d → p v = some q →
    ∀ arc : RoutingArc, (routingNetwork F image profile).Candidate c.search.distances order arc v d →
      ¬ (order.head? = some arc.source ∧ arc.adjacency ∈ c.scan.map Prod.snd) →
      q.rank ≤ arc.predecessor.rank
  law : TieLaw image profile origin c.search.distances p order

variable {image : RoutingImage} {packed : PackedRelationProfile} {profile : RelationProfile}
  {origin : DenseNodeId} {order : List DenseNodeId}
  {p : DenseNodeId → Option Predecessor}

/-- The waived edges matter as a set. -/
lemma SearchInv.rescan {scan scan' : List ℕ} {st : SearchState F}
    (inv : SearchInv image profile origin order scan st) (hsub : scan ⊆ scan') :
    SearchInv image profile origin order scan' st :=
  { inv with
    relaxed := fun arc hsource husable hdone =>
      inv.relaxed arc hsource husable fun hwaived => hdone ⟨hwaived.1, hsub hwaived.2⟩ }

/-- An edge that has been relaxed leads to its node for no less than the node's label. -/
lemma SearchInv.label_le {scan : List ℕ} {st : SearchState F}
    (inv : SearchInv image profile origin order scan st) {arc : RoutingArc} {v : DenseNodeId} {d : F}
    (hv : v ∉ order) (h : (routingNetwork F image profile).Candidate st.distances order arc v d)
    (hdone : ¬ (order.head? = some arc.source ∧ arc.adjacency ∈ scan)) :
    ∃ d', st.distances v = some d' ∧ d' ≤ d := by
  obtain ⟨c, hc, hd⟩ := h.cost
  rcases inv.relaxed arc h.source h.usable hdone with hsettled | ⟨c', e, d', hc', he, hd', hle⟩
  · rw [h.target] at hsettled
    exact absurd hsettled hv
  · obtain rfl : c = c' := Option.some.inj (hc.symm.trans hc')
    obtain rfl : d = e := Option.some.inj (hd.symm.trans he)
    rw [h.target] at hd'
    exact ⟨d', hd', hle⟩

/-- A recorded predecessor of a labelled node is one of the candidates that attain its label. -/
lemma SearchInv.predecessor_candidate {scan : List ℕ} {st : SearchState F}
    (inv : SearchInv image profile origin order scan st) (hp : st.predecessors = some p)
    {v : DenseNodeId} {d : F} (hd : st.distances v = some d) (hne : v ≠ origin) :
    ∃ q, p v = some q ∧ ∃ arc : RoutingArc, arc.predecessor = q ∧
      (routingNetwork F image profile).Candidate st.distances order arc v d := by
  obtain ⟨q, hq, hmem, arc, c, husable, hsource, hadjacency, hedge, htarget, hc, hext⟩ :=
    (inv.predecessor p hp).justified v d hd hne
  refine ⟨q, hq, arc, ?_, husable, ?_, htarget, c, ?_, routingNetwork_extend_eq_some.2 hext⟩
  · obtain ⟨source, edge, adjacency⟩ := q
    simp only at hsource hadjacency hedge
    simp only [RoutingArc.predecessor, hsource, hadjacency, hedge]
  · show arc.source ∈ order
    rw [hsource]
    exact hmem
  · show st.distances arc.source = some c
    rw [hsource]
    exact hc

lemma applyCandidate_cases (st : SearchState F) (t : DenseNodeId) (d : F) (q : Predecessor) :
    (applyCandidate st t d q = improveLabel st t d q ∧
        ∀ e, st.distances t = some e → d < e) ∨
      (st.distances t = some d ∧ applyCandidate st t d q =
        { st with predecessors := tiePredecessor st.predecessors t q }) ∨
      ∃ e, e < d ∧ st.distances t = some e ∧ applyCandidate st t d q = st := by
  unfold applyCandidate
  split
  · rename_i hnone
    exact .inl ⟨rfl, by simp [hnone]⟩
  · rename_i existing hexisting
    split_ifs with hlt heq
    · refine .inl ⟨rfl, fun e he => ?_⟩
      obtain rfl : existing = e := Option.some.inj (hexisting.symm.trans he)
      exact hlt
    · exact .inr (.inl ⟨heq ▸ hexisting, rfl⟩)
    · exact .inr (.inr ⟨existing, lt_of_le_of_ne (not_lt.1 hlt) fun h => heq h.symm, hexisting, rfl⟩)

/-- What a candidate does to the label and the predecessor of its node: an improvement resets the
choice, a tie refines it, and a longer way changes nothing. -/
lemma applyCandidate_choice {st : SearchState F} (hp : st.predecessors = some p) (t : DenseNodeId)
    (d : F) (q : Predecessor) : ∃ p', (applyCandidate st t d q).predecessors = some p' ∧
      (∀ v ≠ t, (applyCandidate st t d q).distances v = st.distances v ∧ p' v = p v) ∧
      (((∀ e, st.distances t = some e → d < e) ∧
          (applyCandidate st t d q).distances t = some d ∧ p' t = some q) ∨
        (st.distances t = some d ∧ (applyCandidate st t d q).distances t = some d ∧
          p' t = if replacesPredecessor (p t) q then some q else p t) ∨
        ∃ e, e < d ∧ (applyCandidate st t d q).distances t = some e ∧
          st.distances t = some e ∧ p' t = p t) := by
  have himprove : ∀ v ≠ t, (improveLabel st t d q).distances v = st.distances v ∧
      Function.update p t (some q) v = p v := by
    intro v hv
    simp [improveLabel, Function.update_of_ne hv]
  have hset : (improveLabel st t d q).predecessors = some (Function.update p t (some q)) := by
    simp [improveLabel, setPredecessor, hp]
  rcases applyCandidate_cases st t d q with ⟨heq, hless⟩ | ⟨hlabel, heq⟩ | ⟨e, hlt, hlabel, heq⟩
  · rw [heq]
    exact ⟨_, hset, himprove, .inl ⟨hless, by simp [improveLabel], by simp⟩⟩
  · rw [heq]
    have htie : tiePredecessor st.predecessors t q = some
        (if replacesPredecessor (p t) q then Function.update p t (some q) else p) := by
      rw [hp]
      rfl
    refine ⟨_, htie, fun v hv => ⟨rfl, ?_⟩, .inr (.inl ⟨hlabel, hlabel, ?_⟩)⟩
    · split_ifs
      · exact Function.update_of_ne hv _ _
      · rfl
    · by_cases hreplaces : replacesPredecessor (p t) q = true
      · rw [if_pos hreplaces, if_pos hreplaces, Function.update_self]
      · rw [if_neg hreplaces, if_neg hreplaces]
  · rw [heq]
    exact ⟨p, hp, fun v _ => ⟨rfl, rfl⟩, .inr (.inr ⟨e, hlt, hlabel, hlabel, rfl⟩)⟩

namespace PlaceInv

/-- Where every run starts. -/
lemma start {request : RoutingRequest} (hpaths : request.returnPaths = true)
    (horigin : origin.asUsize < image.nodeCount) :
    PlaceInv image profile origin [] (fun _ => none) (RunPlace.start origin : RunPlace F) := by
  have hinit : SearchInv image profile origin [] []
      (initialSearchState request origin (fun _ => false) 0 : SearchState F) :=
    SearchInv.init horigin
  refine
    { search := hinit.congr rfl rfl ?_ rfl
      scanned := by simp [RunPlace.start]
      predecessors := rfl
      waiting := fun v d q _ _ hq => by cases hq
      law := trivial }
  simp [initialSearchState, hpaths, RunPlace.start]

/-- Rearranging the scan and the frontier. -/
lemma shuffle {st : SearchState F} {scan scan' : List (FrontierEntry F × ℕ)}
    {frontier : List (FrontierEntry F)} (hscan : scan'.Perm scan)
    (hfrontier : frontier.Perm st.frontier) (inv : PlaceInv image profile origin order p ⟨st, scan⟩) :
    PlaceInv image profile origin order p ⟨{ st with frontier := frontier }, scan'⟩ := by
  have hmem : ∀ i, i ∈ scan'.map Prod.snd ↔ i ∈ scan.map Prod.snd := fun i =>
    (hscan.map Prod.snd).mem_iff
  have hsearch : SearchInv image profile origin order (scan'.map Prod.snd) st :=
    inv.search.rescan fun i hi => (hmem i).2 hi
  refine
    { search := hsearch.stale fun v d hd hv => hfrontier.mem_iff.2 (hsearch.frontier_mem v d hd hv)
      scanned := fun x hx => inv.scanned x (hscan.mem_iff.1 hx)
      predecessors := inv.predecessors
      waiting := fun v d q hv hd hq arc harc hdone => ?_
      law := inv.law }
  refine inv.waiting v d q hv hd hq arc harc fun hwaived => hdone ⟨hwaived.1, ?_⟩
  exact (hmem _).2 hwaived.2

/-- Dropping a stale entry. -/
lemma drop {st : SearchState F} {current : FrontierEntry F} {frontier : List (FrontierEntry F)}
    (hpop : popFrontier st.frontier = some (current, frontier)) (hstale : st.Stale current)
    (inv : PlaceInv image profile origin order p ⟨st, []⟩) :
    PlaceInv image profile origin order p ⟨{ st with frontier := frontier }, []⟩ := by
  have hstale' : current.node ∈ order ∨ st.distances current.node ≠ some current.distance :=
    hstale.imp_left (inv.search.finalized_iff _).1
  exact
    { search := inv.search.drop hpop hstale'
      scanned := by simp
      predecessors := inv.predecessors
      waiting := inv.waiting
      law := inv.law }

section Relax

variable {st st' : SearchState F} {current : FrontierEntry F} {i : ℕ} {edge : OutgoingEdge}
  {rest : List (FrontierEntry F × ℕ)}

/-- The edge at the head of the scan as an arc of the network. -/
lemma head_arc (wf : image.WellFormed)
    (hpack : profile.packRelationIds image.confirmedRelationIds = .ok packed)
    (hedge : image.edgeAt i = some edge) {arc : RoutingArc}
    (husable : (routingNetwork F image profile).usable arc) (hadjacency : arc.adjacency = i) :
    arc.edge = edge ∧
      packed.relationUseIndex edge.relationIndex = some (.enabled arc.multiplier) := by
  obtain ⟨use, huse, henables⟩ := relationUse_of_edgeAt wf hpack hedge
  obtain ⟨⟨_, _, _, _, _, hat⟩, hen⟩ := husable
  rw [hadjacency] at hat
  obtain rfl : edge = arc.edge := Option.some.inj (hedge.symm.trans hat)
  rw [huse, (henables _).1 hen]
  exact ⟨rfl, rfl⟩

/-- The choice at a waiting node after a candidate has been applied. -/
lemma choice_le {t v : DenseNodeId} {d₀ d : F} {q₀ q : Predecessor}
    {p' : DenseNodeId → Option Predecessor}
    (inv : PlaceInv image profile origin order p ⟨st, (current, i) :: rest⟩)
    (horder : order ≠ [])
    (hother : ∀ v ≠ t, (applyCandidate st t d₀ q₀).distances v = st.distances v ∧ p' v = p v)
    (hchoice : ((∀ e, st.distances t = some e → d₀ < e) ∧
          (applyCandidate st t d₀ q₀).distances t = some d₀ ∧ p' t = some q₀) ∨
        (st.distances t = some d₀ ∧ (applyCandidate st t d₀ q₀).distances t = some d₀ ∧
          p' t = if replacesPredecessor (p t) q₀ then some q₀ else p t) ∨
        ∃ e, e < d₀ ∧ (applyCandidate st t d₀ q₀).distances t = some e ∧
          st.distances t = some e ∧ p' t = p t)
    (hv : v ∉ order) (hd : (applyCandidate st t d₀ q₀).distances v = some d) (hq : p' v = some q)
    {arc : RoutingArc}
    (harc : (routingNetwork F image profile).Candidate st.distances order arc v d)
    (hcase : (v = t ∧ d = d₀ ∧ arc.predecessor = q₀) ∨
      ¬ (order.head? = some arc.source ∧ arc.adjacency ∈ ((current, i) :: rest).map Prod.snd)) :
    q.rank ≤ arc.predecessor.rank := by
  by_cases hvt : v = t
  · subst hvt
    rcases hchoice with ⟨hless, hlabel, hp'⟩ | ⟨hold, hlabel, hp'⟩ | ⟨e, hlt, hlabel, hold, hp'⟩
    · -- an improvement: every edge relaxed before leads here for more
      obtain rfl : d₀ = d := Option.some.inj (hlabel.symm.trans hd)
      obtain rfl : q₀ = q := Option.some.inj (hp'.symm.trans hq)
      rcases hcase with ⟨-, -, heq⟩ | hdone
      · rw [heq]
      · obtain ⟨d', hd', hle⟩ := inv.search.label_le hv harc hdone
        exact absurd hle (not_le.2 (hless d' hd'))
    · -- a tie: the least of the old choice and the new one
      obtain rfl : d₀ = d := Option.some.inj (hlabel.symm.trans hd)
      have hne : v ≠ origin := by
        rintro rfl
        exact hv (inv.search.origin_mem horder)
      obtain ⟨old, hold', -⟩ := inv.search.predecessor_candidate inv.predecessors hold hne
      rw [hp', hold'] at hq
      have hmin : q.rank ≤ old.rank ∧ q.rank ≤ q₀.rank := by
        split_ifs at hq with hreplaces
        · obtain rfl := Option.some.inj hq
          exact ⟨(replacesPredecessor_some.1 hreplaces).le, le_rfl⟩
        · obtain rfl := Option.some.inj hq
          exact ⟨le_rfl, not_lt.1 fun hlt => hreplaces (replacesPredecessor_some.2 hlt)⟩
      rcases hcase with ⟨-, -, heq⟩ | hdone
      · rw [heq]
        exact hmin.2
      · exact hmin.1.trans (inv.waiting v d₀ old hv hold hold' arc harc hdone)
    · obtain rfl : e = d := Option.some.inj (hlabel.symm.trans hd)
      rcases hcase with ⟨-, heq, -⟩ | hdone
      · exact absurd heq hlt.ne
      · exact inv.waiting v e q hv hold (hp'.symm.trans hq) arc harc hdone
  · obtain ⟨hsame, hsame'⟩ := hother v hvt
    rcases hcase with ⟨heq, -⟩ | hdone
    · exact absurd heq hvt
    · exact inv.waiting v d q hv (hsame.symm.trans hd) (hsame'.symm.trans hq) arc harc hdone

/-- Relaxing one edge. -/
lemma relax (wf : image.WellFormed)
    (hpack : profile.packRelationIds image.confirmedRelationIds = .ok packed)
    (hedge : image.edgeAt i = some edge) (hrelax : relaxEdge packed current i edge st = .ok st')
    (inv : PlaceInv image profile origin order p ⟨st, (current, i) :: rest⟩) :
    ∃ p', PlaceInv image profile origin order p' ⟨st', rest⟩ := by
  obtain ⟨hhead, hlabel, edge', hhas⟩ := inv.scanned (current, i) List.mem_cons_self
  obtain rfl : edge = edge' := by
    obtain ⟨_, _, _, _, _, hat⟩ := hhas
    exact Option.some.inj (hedge.symm.trans hat)
  obtain ⟨before, rfl⟩ : ∃ before, order = current.node :: before :=
    ⟨order.tail, (List.cons_head?_tail hhead).symm⟩
  have hspec := relaxEdge_spec wf hpack inv.search hlabel hhas
  rw [hrelax] at hspec
  obtain ⟨hsearch, hframe⟩ := hspec
  have hfinal : ∀ v ∈ current.node :: before, st.finalized v = true := fun v =>
    (inv.search.finalized_iff v).2
  have hkept : ∀ v ∈ current.node :: before, st'.distances v = st.distances v := fun v hv =>
    hframe.distances v (hfinal v hv)
  obtain ⟨p₁, hp₁, hagree⟩ := (relaxEdge_frozen hrelax).predecessors p inv.predecessors
  refine ⟨p₁, ?_⟩
  refine
    { search := hsearch
      scanned := fun x hx => ?_
      predecessors := hp₁
      waiting := fun v d q hv hd hq arc harc hdone => ?_
      law := inv.law.congr hkept fun v hv => congrArg _ (hagree v (hfinal v hv)) }
  · -- the rest of the scan is as it was
    obtain ⟨hx, hdist, hhas'⟩ := inv.scanned x (List.mem_cons_of_mem _ hx)
    refine ⟨hx, ?_, hhas'⟩
    rw [← hdist]
    exact hkept _ (List.mem_of_mem_head? hx)
  have harc' : (routingNetwork F image profile).Candidate st.distances (current.node :: before)
      arc v d := harc.congr fun u hu => (hkept u hu).symm
  -- either the arc is the edge just relaxed, or it was relaxed before
  by_cases hi : arc.source = current.node ∧ arc.adjacency = i
  · obtain ⟨hedge', huse⟩ := head_arc wf hpack hedge harc.usable hi.2
    have htarget : edge.destination = v := by
      rw [← hedge']
      exact harc.target
    rcases relaxEdge_cases hrelax with ⟨-, hskip⟩ | ⟨m, d₀, huse', hnew, hd₀, rfl⟩
    · rcases hskip with hdisabled | ⟨-, hsettled⟩
      · rw [huse] at hdisabled
        cases hdisabled
      · rw [htarget] at hsettled
        exact absurd ((inv.search.finalized_iff v).1 hsettled) hv
    · obtain rfl : arc.multiplier = m := by
        rw [huse] at huse'
        cases huse'
        rfl
      have hd₁ : d = d₀ := by
        obtain ⟨c, hc, hext⟩ := harc'.cost
        have hc' : st.distances arc.source = some c := hc
        rw [hi.1] at hc'
        obtain rfl : current.distance = c := Option.some.inj (hlabel.symm.trans hc')
        have hext' := routingNetwork_extend_eq_some.1 hext
        rw [extendDistance, hedge'] at hext'
        exact Except.ok.inj (hext'.symm.trans hd₀)
      obtain ⟨p₂, hp₂, hother, hchoice⟩ := applyCandidate_choice inv.predecessors
        edge.destination d₀ ⟨current.node, edge.edgeId, i⟩
      obtain rfl : p₂ = p₁ := Option.some.inj (hp₂.symm.trans hp₁)
      refine choice_le inv (List.cons_ne_nil _ _) hother hchoice hv hd hq harc'
        (.inl ⟨htarget.symm, hd₁, ?_⟩)
      rw [RoutingArc.predecessor, hi.1, hi.2, hedge']
  · have hdone' : ¬ ((current.node :: before).head? = some arc.source ∧
        arc.adjacency ∈ ((current, i) :: rest).map Prod.snd) := by
      rintro ⟨hsource, hmem⟩
      rcases List.mem_cons.1 hmem with heq | hmem
      · exact hi ⟨(Option.some.inj hsource).symm, heq⟩
      · exact hdone ⟨hsource, hmem⟩
    rcases relaxEdge_cases hrelax with ⟨rfl, -⟩ | ⟨m, d₀, -, -, -, rfl⟩
    · obtain rfl : p = p₁ := Option.some.inj (inv.predecessors.symm.trans hp₁)
      exact inv.waiting v d q hv hd hq arc harc hdone'
    · obtain ⟨p₂, hp₂, hother, hchoice⟩ := applyCandidate_choice inv.predecessors
        edge.destination d₀ ⟨current.node, edge.edgeId, i⟩
      obtain rfl : p₂ = p₁ := Option.some.inj (hp₂.symm.trans hp₁)
      exact choice_le inv (List.cons_ne_nil _ _) hother hchoice hv hd hq harc' (.inr hdone')

end Relax

/-- The popped node leads the candidates of its moment. -/
lemma chosen {st : SearchState F} {current : FrontierEntry F}
    (inv : PlaceInv image profile origin order p ⟨st, []⟩)
    (hleast : ∀ e ∈ st.frontier, current ≤ e) (hnew : current.node ∉ order)
    (hlabel : st.distances current.node = some current.distance) (hne : current.node ≠ origin) :
    ∃ k, (routingNetwork F image profile).Chosen (fun arc => arc.predecessor.rank) st.distances
      (predecessorRank p) order current.node current.distance k := by
  obtain ⟨q, hq, arc, rfl, harc⟩ :=
    inv.search.predecessor_candidate inv.predecessors hlabel hne
  refine ⟨arc.predecessor.rank, hnew, hlabel, fun e w d' hw he => ?_,
    by simp [predecessorRank, hq], ⟨arc, harc, rfl⟩, fun e he => ?_⟩
  · obtain ⟨d'', hd'', hle⟩ := inv.search.label_le hw he (by simp)
    have hfirst : current.key ≤ FrontierEntry.key ⟨d'', w⟩ :=
      hleast _ (inv.search.frontier_mem w d'' hd'' hw)
    refine hfirst.trans (Prod.Lex.toLex_le_toLex.2 ?_)
    exact hle.lt_or_eq.imp_right fun h => ⟨h, le_rfl⟩
  · exact inv.waiting current.node current.distance _ hnew hlabel hq e he (by simp)

/-- Finalizing the least entry extends the order by the node that leads. -/
lemma finalize (wf : image.WellFormed) {st : SearchState F} {current : FrontierEntry F}
    {frontier : List (FrontierEntry F)}
    (hpop : popFrontier st.frontier = some (current, frontier)) (hfresh : ¬ st.Stale current)
    (inv : PlaceInv image profile origin order p ⟨st, []⟩) :
    PlaceInv image profile origin (current.node :: order) p
      ⟨{ st with frontier := frontier, finalized := Function.update st.finalized current.node true },
        image.scan current⟩ := by
  obtain ⟨-, hleast, hfrontier⟩ := popFrontier_eq_some hpop
  obtain ⟨hfinal, hdistance⟩ := not_or.1 hfresh
  have hlabel : st.distances current.node = some current.distance := not_not.1 hdistance
  have hnew : current.node ∉ order := fun h => hfinal ((inv.search.finalized_iff _).2 h)
  obtain ⟨start, stop, hrange⟩ := wf.outgoingRange_of_lt (inv.search.labelled_lt _ _ hlabel)
  have hscan : image.scan current =
      (List.range' start (stop - start)).map fun i => (current, i) := by
    simp only [RoutingImage.scan, hrange]
  have hwaived : ∀ adjacency edge, image.HasEdge current.node adjacency edge →
      adjacency ∈ (image.scan current).map Prod.snd := by
    rintro adjacency edge ⟨a, b, hab, ha, hb, -⟩
    obtain ⟨rfl, rfl⟩ : start = a ∧ stop = b := by simpa [hrange] using hab
    rw [hscan, List.map_map]
    exact List.mem_map.2 ⟨adjacency, List.mem_range'_1.2 (by omega), rfl⟩
  refine
    { search := inv.search.finalize hleast hnew hlabel hwaived rfl rfl rfl hfrontier
      scanned := fun x hx => ?_
      predecessors := inv.predecessors
      waiting := fun v d q hv hd hq arc harc hdone => ?_
      law := ⟨?_, inv.law⟩ }
  · rw [hscan] at hx
    obtain ⟨i, hi, rfl⟩ := List.mem_map.1 hx
    have hbounds := List.mem_range'_1.1 hi
    obtain ⟨edge, hedge, -⟩ := wf.edge_at i (by have := (wf.outgoingRange_le hrange).2; omega)
    exact ⟨rfl, hlabel, edge, start, stop, hrange, hbounds.1, by omega, hedge⟩
  · simp only [List.mem_cons, not_or] at hv
    have hold : arc.source ∈ order := by
      rcases List.mem_cons.1 harc.source with heq | hmem
      · -- every edge of the new node is still waived
        refine absurd ⟨congrArg some heq.symm, hwaived _ arc.edge ?_⟩ hdone
        have husable : image.HasEdge arc.source arc.adjacency arc.edge := harc.usable.1
        rwa [show arc.source = current.node from heq] at husable
      · exact hmem
    exact inv.waiting v d q hv.2 hd hq arc ⟨harc.usable, hold, harc.target, harc.cost⟩ (by simp)
  · by_cases horder : order = []
    · have horigin := inv.search.first_label horder _ _ hlabel
      refine .inl ⟨horder, horigin, ?_⟩
      rw [horigin]
      exact inv.search.origin_label
    · have hne : current.node ≠ origin := by
        intro heq
        exact hnew (heq ▸ inv.search.origin_mem horder)
      exact .inr ⟨_, inv.chosen hleast hnew hlabel hne⟩

/-- Every step of a shuffled run keeps the invariant. -/
lemma step (wf : image.WellFormed)
    (hpack : profile.packRelationIds image.confirmedRelationIds = .ok packed) {c c' : RunPlace F}
    (h : ShuffledStep image packed c c') (inv : PlaceInv image profile origin order p c) :
    ∃ order' p', PlaceInv image profile origin order' p' c' := by
  rcases h with h | ⟨hscan, hfrontier⟩
  · rcases h with ⟨hedge, hrelax⟩ | ⟨hpop, hstale⟩ | ⟨hpop, hfresh⟩
    · exact ⟨order, inv.relax wf hpack hedge hrelax⟩
    · exact ⟨order, p, inv.drop hpop hstale⟩
    · exact ⟨_, p, inv.finalize wf hpop hfresh⟩
  · exact ⟨order, p, inv.shuffle hscan hfrontier⟩

/-- It holds along every shuffled run from the origin. -/
lemma of_run (wf : image.WellFormed)
    (hpack : profile.packRelationIds image.confirmedRelationIds = .ok packed)
    {request : RoutingRequest} (hpaths : request.returnPaths = true)
    (horigin : origin.asUsize < image.nodeCount) {c : RunPlace F}
    (hrun : Relation.ReflTransGen (ShuffledStep image packed) (RunPlace.start origin) c) :
    ∃ order p, PlaceInv image profile origin order p c := by
  induction hrun with
  | refl => exact ⟨_, _, start hpaths horigin⟩
  | tail _ hstep ih =>
    obtain ⟨order, p, inv⟩ := ih
    exact inv.step wf hpack hstep

variable {order' : List DenseNodeId} {p' : DenseNodeId → Option Predecessor} {c c' : RunPlace F}

/-- The predecessor of a final node other than the origin is final. -/
lemma closed (inv : PlaceInv image profile origin order p c) {v : DenseNodeId} {q : Predecessor}
    (hv : v ∈ order) (hne : v ≠ origin) (hq : p v = some q) : q.source ∈ order := by
  obtain ⟨d, hd, -⟩ := inv.search.settled_min v hv
  obtain ⟨q', hq', arc, rfl, harc⟩ := inv.search.predecessor_candidate inv.predecessors hd hne
  obtain rfl := Option.some.inj (hq'.symm.trans hq)
  exact harc.source

end PlaceInv

/-! ## Reconstruction from another run -/

/-- The search of a path-returning request stands at a place of a shuffled run. -/
lemma Reached.place (wf : image.WellFormed)
    (hpack : profile.packRelationIds image.confirmedRelationIds = .ok packed)
    {request : RoutingRequest} (hpaths : request.returnPaths = true)
    (horigin : origin.asUsize < image.nodeCount) {st : SearchState F}
    (h : Reached image packed (RunPlace.start origin) st) (hp : st.predecessors = some p) :
    ∃ order c, PlaceInv image profile origin order p c ∧ st.distances = c.search.distances ∧
      st.finalized = c.search.finalized ∧ c.search.predecessors = some p := by
  obtain ⟨c, frontier, hrun, hfollows⟩ := h
  have hshuffled : Relation.ReflTransGen (ShuffledStep image packed) (RunPlace.start origin) c :=
    hrun.lift id fun _ _ => ShuffledStep.step
  obtain ⟨order, p', inv⟩ := PlaceInv.of_run wf hpack hpaths horigin hshuffled
  have hp' : c.search.predecessors = some p := hfollows.predecessors p hp
  obtain rfl : p' = p := Option.some.inj (inv.predecessors.symm.trans hp')
  exact ⟨order, c, inv, hfollows.distances, hfollows.finalized, hp'⟩

end PathHydra
