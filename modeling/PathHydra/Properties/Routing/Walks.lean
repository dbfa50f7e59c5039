import Mathlib.Order.Bounds.Defs
import PathHydra.Framework.ShortestWalks
import PathHydra.Construction.Routing.Cpu
import PathHydra.Properties.Routing.Image

/-!
# Walks over an image under a profile

What a route is measured against: the directed walks over an image that use only edges whose
relation kind the profile enables, and their distance, the left fold of `accumulateDistance` over
the effective weights.  `routingNetwork` states this as a `Network`, in terms of the caller's
profile; `packRelationIds_uses` shows that the packed profile a search consults says the same.
-/

namespace PathHydra

/-! ## Packed profiles -/

namespace RelationProfile

/-- The caller enables a relation kind with a multiplier. -/
def Enables (profile : RelationProfile) (id : RelationId) (multiplier : RelationMultiplier) :
    Prop :=
  (id, RelationUse.enabled multiplier) ∈ profile.entries

variable {ids : List RelationId}

/-- Filing the entries leaves under each relation what was there before or what an entry says. -/
lemma packEntries_getElem? (hids : ids.Nodup) {entries : List (RelationId × RelationUse)}
    {acc out : List (Option RelationUse)} (hlength : acc.length = ids.length)
    (h : packEntries ids entries acc = .ok out) :
    out.length = ids.length ∧ ∀ (i : ℕ) (id : RelationId) (use : RelationUse),
      ids[i]? = some id →
        (out[i]? = some (some use) ↔ acc[i]? = some (some use) ∨ (id, use) ∈ entries) := by
  induction entries generalizing acc with
  | nil =>
    cases h
    simp [hlength]
  | cons entry rest ih =>
    obtain ⟨id', use'⟩ := entry
    simp only [packEntries] at h
    split at h
    · cases h
    rename_i j hj
    split_ifs at h with hfree
    obtain ⟨hlen, hrest⟩ := ih (by simpa using hlength) h
    refine ⟨hlen, fun i id use hi => ?_⟩
    rw [hrest i id use hi]
    have hj' := getElem?_of_binarySearch hj
    have hjlt : j < acc.length := by
      rw [hlength]
      exact (List.getElem?_eq_some_iff.1 hj').1
    by_cases hij : j = i
    · subst hij
      obtain rfl : id' = id := Option.some.inj (hj'.symm.trans hi)
      have hnone : acc[j]? ≠ some (some use) := by
        intro hsome
        simp [hsome] at hfree
      rw [or_iff_right hnone, List.getElem?_set_self hjlt]
      simp [eq_comm]
    · have hne : id ≠ id' := by
        rintro rfl
        have hjb := binarySearch_of_getElem? hids hi
        exact hij (Option.some.inj (hj.symm.trans hjb))
      simp [List.getElem?_set_ne hij, hne]

/-- Reading the filed uses back succeeds only when every relation has one. -/
lemma packUses_eq_ok {filed : List (RelationId × Option RelationUse)}
    {out : List (RelationId × RelationUse)} (h : packUses filed = .ok out) :
    filed = out.map fun p => (p.1, some p.2) := by
  induction filed generalizing out with
  | nil =>
    cases h
    rfl
  | cons entry rest ih =>
    obtain ⟨id, _ | use⟩ := entry
    · cases h
    · obtain ⟨tail, htail, rfl⟩ := map_eq_ok.1 h
      simp [ih htail]

/-- The packed use of a relation kind is the one the caller gave it. -/
lemma packRelationIds_uses (hids : ids.Nodup) {profile : RelationProfile}
    {packed : PackedRelationProfile} (h : profile.packRelationIds ids = .ok packed) {i : ℕ}
    {id : RelationId} (hi : ids[i]? = some id) {use : RelationUse} :
    packed.uses[i]? = some use ↔ (id, use) ∈ profile.entries := by
  unfold packRelationIds at h
  obtain ⟨byIndex, hfiled, h⟩ := bind_eq_ok.1 h
  obtain ⟨canonical, huses, h⟩ := bind_eq_ok.1 h
  cases h
  obtain ⟨hlength, hentries⟩ := packEntries_getElem? hids (by simp) hfiled
  have hnone : (ids.map fun _ => (none : Option RelationUse))[i]? ≠ some (some use) := by
    rw [List.getElem?_map, hi]
    simp
  have hzip : byIndex = canonical.map fun p => some p.2 := by
    have := congrArg (List.map Prod.snd) (packUses_eq_ok huses)
    rw [List.map_snd_zip hlength.le] at this
    simpa [Function.comp_def] using this
  have hfile := hentries i id use hi
  rw [or_iff_right hnone, hzip] at hfile
  rw [← hfile]
  simp [List.getElem?_map]

/-- A packed profile has a use for every relation kind. -/
lemma packRelationIds_length {profile : RelationProfile} {packed : PackedRelationProfile}
    (hids : ids.Nodup) (h : profile.packRelationIds ids = .ok packed) :
    packed.uses.length = ids.length := by
  unfold packRelationIds at h
  obtain ⟨byIndex, hfiled, h⟩ := bind_eq_ok.1 h
  obtain ⟨canonical, huses, h⟩ := bind_eq_ok.1 h
  cases h
  obtain ⟨hlength, -⟩ := packEntries_getElem? hids (by simp) hfiled
  have := congrArg List.length (packUses_eq_ok huses)
  simpa [hlength] using this.symm

end RelationProfile

/-! ## The network of an image -/

/-- An edge leaves a node at an adjacency index. -/
def RoutingImage.HasEdge (image : RoutingImage) (source : DenseNodeId) (adjacency : ℕ)
    (edge : OutgoingEdge) : Prop :=
  ∃ start stop, image.outgoingRange source = some (start, stop) ∧ start ≤ adjacency ∧
    adjacency < stop ∧ image.edgeAt adjacency = some edge

/-- An edge of an image at its place, with the multiplier it is followed under. -/
structure RoutingArc where
  source : DenseNodeId
  adjacency : ℕ
  edge : OutgoingEdge
  multiplier : RelationMultiplier

variable {F : Type} [Binary64 F]

/-- One step of the left fold: the effective weight of an arc, accumulated. -/
def extendDistance (distance : F) (arc : RoutingArc) : Except RoutingError F := do
  let effective ← effectiveWeight arc.edge.baseWeight arc.multiplier
  accumulateDistance distance effective

/-- The error is an overflowing distance. -/
def RoutingError.IsArithmetic (e : RoutingError) : Prop := ∃ operation, e = .arithmetic operation

lemma effectiveWeight_eq_error {weight : BaseWeight} {multiplier : RelationMultiplier}
    {e : RoutingError}
    (h : (effectiveWeight weight multiplier : Except RoutingError F) = .error e) :
    e.IsArithmetic := by
  simp only [effectiveWeight] at h
  split_ifs at h
  exact ⟨_, (Except.error.inj h).symm⟩

lemma accumulateDistance_eq_error {current effective : F} {e : RoutingError}
    (h : accumulateDistance current effective = .error e) : e.IsArithmetic := by
  simp only [accumulateDistance] at h
  split_ifs at h
  exact ⟨_, (Except.error.inj h).symm⟩

lemma accumulateDistance_eq_ok {current effective candidate : F} :
    accumulateDistance current effective = .ok candidate ↔
      Binary64.isFinite (current + effective) = true ∧ candidate = current + effective := by
  simp only [accumulateDistance]
  split_ifs with h <;> simp [h, eq_comm]

lemma extendDistance_eq_error {distance : F} {arc : RoutingArc} {e : RoutingError}
    (h : extendDistance distance arc = .error e) : e.IsArithmetic := by
  unfold extendDistance at h
  cases hw : (effectiveWeight arc.edge.baseWeight arc.multiplier : Except RoutingError F) with
  | error e' =>
    rw [hw] at h
    cases h
    exact effectiveWeight_eq_error hw
  | ok w =>
    rw [hw, ok_bind] at h
    exact accumulateDistance_eq_error h

lemma isFinite_of_extendDistance {distance d : F} {arc : RoutingArc}
    (h : extendDistance distance arc = .ok d) : Binary64.isFinite d = true := by
  obtain ⟨w, -, hd⟩ := bind_eq_ok.1 h
  obtain ⟨hfinite, rfl⟩ := accumulateDistance_eq_ok.1 hd
  exact hfinite

/-- The error is that of prolonging a finite distance by an arc. -/
def RoutingError.Overflows (F : Type) [Binary64 F] (e : RoutingError) : Prop :=
  ∃ (distance : F) (arc : RoutingArc), Binary64.isFinite distance = true ∧
    extendDistance distance arc = .error e

lemma RoutingError.Overflows.isArithmetic {e : RoutingError} (h : e.Overflows F) :
    e.IsArithmetic := by
  obtain ⟨distance, arc, -, herror⟩ := h
  exact extendDistance_eq_error herror

/-- In the range of binary64 no distance overflows. -/
lemma RoutingError.not_overflows [WideRange F] (e : RoutingError) : ¬ e.Overflows F := by
  rintro ⟨distance, arc, hfinite, herror⟩
  have hbase : arc.edge.baseWeight.toBits.val < 0x7F800000 :=
    arc.edge.baseWeight.le_one.trans_lt (by decide)
  have hmultiplier := arc.multiplier.finite
  have hproduct := WideRange.isFinite_mul (F := F) hbase hmultiplier
  have hsum := WideRange.isFinite_add_mul hbase hmultiplier hfinite
  simp only [extendDistance, effectiveWeight, hproduct, if_true, ok_bind, accumulateDistance,
    hsum] at herror
  cases herror

/-- The walks over an image that follow enabled edges only, measured by the left fold of
`accumulateDistance` over their effective weights. -/
def routingNetwork (F : Type) [Binary64 F] (image : RoutingImage) (profile : RelationProfile) :
    Network DenseNodeId RoutingArc F where
  source arc := arc.source
  target arc := arc.edge.destination
  usable arc := image.HasEdge arc.source arc.adjacency arc.edge ∧
    profile.Enables arc.edge.relationId arc.multiplier
  extend distance arc := (extendDistance distance arc).toOption
  extend_mono := by
    intro c c' d' arc hc h
    simp only [extendDistance] at h ⊢
    cases hw : (effectiveWeight arc.edge.baseWeight arc.multiplier : Except RoutingError F) with
    | error e => simp [hw, Except.toOption] at h
    | ok w =>
      simp only [hw, ok_bind, accumulateDistance] at h ⊢
      have hle : c + w ≤ c' + w := Binary64.add_le_add hc le_rfl
      split_ifs at h with hfin
      · have hfin' := Binary64.isFinite_of_le hle hfin
        simp only [Except.toOption, Option.some.injEq] at h
        subst h
        exact ⟨c + w, by simp [hfin', Except.toOption], hle⟩
      · simp [Except.toOption] at h
  le_extend := by
    intro c d arc h
    simp only [extendDistance] at h
    cases hw : (effectiveWeight arc.edge.baseWeight arc.multiplier : Except RoutingError F) with
    | error e => simp [hw, Except.toOption] at h
    | ok w =>
      simp only [hw, ok_bind, accumulateDistance] at h
      split_ifs at h with hfin
      · simp only [Except.toOption, Option.some.injEq] at h
        subst h
        exact Binary64.le_self_add c w
      · simp [Except.toOption] at h

lemma routingNetwork_extend_eq_some {image : RoutingImage} {profile : RelationProfile} {c d : F}
    {arc : RoutingArc} :
    (routingNetwork F image profile).extend c arc = some d ↔ extendDistance c arc = .ok d := by
  simp only [routingNetwork]
  cases extendDistance c arc <;> simp [Except.toOption]

/-- The distance of a walk is finite. -/
lemma isFinite_of_cost {image : RoutingImage} {profile : RelationProfile} {arcs : List RoutingArc}
    {d : F} (h : (routingNetwork F image profile).cost 0 arcs = some d) :
    Binary64.isFinite d = true := by
  rcases List.eq_nil_or_concat arcs with rfl | ⟨front, arc, rfl⟩
  · cases h
    exact Binary64.isFinite_zero
  · rw [List.concat_eq_append, Network.cost_snoc, Option.bind_eq_some_iff] at h
    obtain ⟨c, -, hextend⟩ := h
    exact isFinite_of_extendDistance (routingNetwork_extend_eq_some.1 hextend)

/-! ## Routes -/

/-- The distances of the directed enabled walks from the request's origin to a destination. -/
def routeDistances (F : Type) [Binary64 F] (image : RoutingImage) (request : RoutingRequest)
    (destination : NodeId) : Set F :=
  { distance | ∃ origin dense arcs, image.denseNodeId request.origin = some origin ∧
      image.denseNodeId destination = some dense ∧
      (routingNetwork F image request.profile).Walk origin arcs dense ∧
      (routingNetwork F image request.profile).cost 0 arcs = some distance }

/-- A directed enabled walk from the request's origin to a destination exists. -/
def RouteExists (F : Type) [Binary64 F] (image : RoutingImage) (request : RoutingRequest)
    (destination : NodeId) : Prop :=
  ∃ origin dense arcs, image.denseNodeId request.origin = some origin ∧
    image.denseNodeId destination = some dense ∧
    (routingNetwork F image request.profile).Walk origin arcs dense

end PathHydra
