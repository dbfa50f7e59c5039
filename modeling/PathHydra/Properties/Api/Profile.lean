import PathHydra.Construction.Api.Dto
import PathHydra.Properties.Api.Tally
import PathHydra.Properties.Routing.Packing

/-!
# Relation profiles at the API boundary

A profile is converted with its entries sorted by the texts of their relation kinds, and accepted
when the numbers of these ascend.  The two orders agree on the kinds of a profile exactly when each
kind leads up to the greater ones, digit by digit (`LeadsUpTo`); then the profile comes back with
the same entries and packs as before on every image (`survives_iff`).
-/

namespace PathHydra

/-! ## Identifiers as texts -/

section Ids

variable {k : IdKind} {field : String}

@[simp] lemma asU64_toDto (id : DurableId k) :
    (id.toDto : DecimalDto field).asU64 = .ok id.asU64 := parseDecimal_toString id.asU64 field

@[simp] lemma ofDto_toDto (id : DurableId k) :
    DurableId.ofDto (id.toDto : DecimalDto field) = .ok id := by
  rw [DurableId.ofDto, asU64_toDto]
  rfl

lemma toDto_lt_toDto {a b : DurableId k} : (a.toDto : DecimalDto field) < b.toDto ↔
    Nat.toDigits 10 a.asU64.val < Nat.toDigits 10 b.asU64.val := by
  show toString a.asU64.val < toString b.asU64.val ↔ _
  rw [String.lt_iff_toList_lt, Nat.toString_eq_repr, Nat.toString_eq_repr, Nat.toList_repr,
    Nat.toList_repr]

/-- Ascending identifiers have ascending texts exactly when the one leads up to the other. -/
lemma toDto_lt_iff {a b : DurableId k} (h : a < b) : (a.toDto : DecimalDto field) < b.toDto ↔
    LeadsUpTo a.asU64.val b.asU64.val := by
  rw [toDto_lt_toDto, toDigits_lt_iff (DurableId.lt_def.1 h)]

lemma toDto_injective : Function.Injective (DurableId.toDto : DurableId k → DecimalDto field) := by
  intro a b h
  have hnumbers := congrArg DecimalDto.asU64 h
  rw [asU64_toDto, asU64_toDto, Except.ok.injEq] at hnumbers
  exact DurableId.asU64_injective hnumbers

/-- The texts of a list of identifiers are ordered as the identifiers. -/
def TextsAscend (ids : List (DurableId k)) : Prop :=
  ∀ a ∈ ids, ∀ b ∈ ids, a < b → LeadsUpTo a.asU64.val b.asU64.val

lemma textsAscend_iff {ids : List (DurableId k)} : TextsAscend ids ↔
    ∀ a ∈ ids, ∀ b ∈ ids, a < b → (a.toDto : DecimalDto field) < b.toDto :=
  forall₂_congr fun _ _ => forall₂_congr fun _ _ => forall_congr' fun hlt => (toDto_lt_iff hlt).symm

end Ids

/-! ## The conversion -/

@[simp] lemma ofDto_relationUse (relationUse : RelationUse) :
    RelationUse.ofDto relationUse.toDto = .ok relationUse := by
  rcases relationUse with _ | multiplier
  · rfl
  · have hbits : (Binary32Dto.fromBits multiplier.toBits).bits = .ok multiplier.toBits :=
      parseBinary32_text multiplier.toBits
    rw [RelationUse.toDto, RelationUse.ofDto, RelationMultiplier.ofDto, hbits, ok_bind,
      dif_pos multiplier.finite]
    rfl

namespace RelationProfile

/-- One entry as it is converted. -/
def entryDto (e : RelationId × RelationUse) : RelationProfileEntryDto := ⟨e.1.toDto, e.2.toDto⟩

/-- The entries in the order of the texts of their relation kinds. -/
def byText (profile : RelationProfile) : List (RelationId × RelationUse) :=
  profile.entries.insertionSort fun a b => (a.1.toDto : RelationIdDto) ≤ b.1.toDto

lemma toDto_entries (profile : RelationProfile) :
    profile.toDto.entries = profile.byText.map entryDto := by
  have hsort := List.map_insertionSort
    (fun a b : RelationId × RelationUse => (a.1.toDto : RelationIdDto) ≤ b.1.toDto)
    (fun left right : RelationProfileEntryDto => left.relationKind ≤ right.relationKind)
    entryDto profile.entries fun _ _ _ _ => Iff.rfl
  exact hsort.symm

lemma byText_perm (profile : RelationProfile) : profile.byText.Perm profile.entries :=
  List.perm_insertionSort _ _

lemma byText_sorted (profile : RelationProfile) :
    profile.byText.Pairwise fun a b => (a.1.toDto : RelationIdDto) ≤ b.1.toDto :=
  List.pairwise_insertionSort _ _

/-- The check of the converted entries is the check of their numbers. -/
lemma validateFrom_map (previous : Option RelationId) (entries : List (RelationId × RelationUse)) :
    RelationProfileDto.validateFrom (previous.map (·.asU64)) (entries.map entryDto) =
      validateProfileEntries previous entries := by
  induction entries generalizing previous with
  | nil => rfl
  | cons e rest ih =>
    obtain ⟨current, relationUse⟩ := e
    rw [List.map_cons, RelationProfileDto.validateFrom, validateProfileEntries]
    rw [show (entryDto (current, relationUse)).relationKind = current.toDto from rfl, asU64_toDto,
      ok_bind]
    have hsame : previous.map (·.asU64) = some current.asU64 ↔ previous = some current := by
      rcases previous with _ | p
      · simp
      · simp [DurableId.asU64_injective.eq_iff]
    have hbelow : (previous.map (·.asU64)).any (fun value => decide (current.asU64 < value)) =
        previous.any fun value => decide (current < value) := by
      rcases previous with _ | p
      · rfl
      · rfl
    rw [hbelow, ← ih (some current), if_congr hsame rfl rfl]
    rfl

lemma toDto_validate (profile : RelationProfile) :
    profile.toDto.validate = validateProfileEntries none profile.byText := by
  rw [RelationProfileDto.validate, toDto_entries]
  exact validateFrom_map none profile.byText

lemma tryFrom_toDto (profile : RelationProfile) :
    RelationProfile.tryFrom profile.toDto =
      (profile.toDto.validate >>= fun _ => .ok ⟨profile.byText⟩) := by
  have hback : profile.toDto.entries.mapM RelationProfileDto.tryFromEntry = .ok profile.byText := by
    rw [toDto_entries, List.mapM_map]
    refine (mapM_eq_ok (g := id) _ fun e _ => ?_).trans (by rw [List.map_id])
    show (DurableId.ofDto (entryDto e).relationKind >>= fun id =>
      RelationUse.ofDto (entryDto e).relationUse >>= fun relationUse => .ok (id, relationUse)) = _
    rw [show (entryDto e).relationKind = e.1.toDto from rfl, ofDto_toDto, ok_bind,
      show (entryDto e).relationUse = e.2.toDto from rfl, ofDto_relationUse, ok_bind]
    rfl
  rw [RelationProfile.tryFrom, hback]
  rfl

/-- A profile survives the boundary: it is accepted as it is converted, and comes back with the same
entries, which pack as before on every image. -/
structure Survives (profile : RelationProfile) : Prop where
  accepted : profile.toDto.validate = .ok ()
  returned : ∃ profile', RelationProfile.tryFrom profile.toDto = .ok profile' ∧
    (∀ e, e ∈ profile'.entries ↔ e ∈ profile.entries) ∧
    ∀ (image : RoutingImage) (packed : PackedRelationProfile),
      profile'.packRelationIds image.confirmedRelationIds = .ok packed ↔
        profile.packRelationIds image.confirmedRelationIds = .ok packed

/-- What is accepted survives. -/
lemma Survives.of_accepted {profile : RelationProfile} (h : profile.toDto.validate = .ok ()) :
    profile.Survives := by
  refine ⟨h, ⟨profile.byText⟩, ?_, fun e => profile.byText_perm.mem_iff, fun image packed => ?_⟩
  · rw [tryFrom_toDto, h]
    rfl
  · exact packRelationIds_perm profile.byText_perm

/-- The entries in the order of the texts ascend exactly when all texts are in order. -/
lemma byText_ascends_iff {profile : RelationProfile}
    (hdistinct : (profile.entries.map Prod.fst).Nodup) :
    profile.byText.Pairwise (fun a b => a.1 < b.1) ↔
      TextsAscend (profile.entries.map Prod.fst) := by
  have hnodup : (profile.byText.map Prod.fst).Nodup :=
    (profile.byText_perm.map Prod.fst).nodup_iff.2 hdistinct
  have hsorted := profile.byText_sorted
  rw [@textsAscend_iff _ "relation-kind ID"]
  constructor
  · intro hascends a ha b hb hlt
    obtain ⟨ea, hea, rfl⟩ := List.mem_map.1 ((profile.byText_perm.map Prod.fst).mem_iff.2 ha)
    obtain ⟨eb, heb, rfl⟩ := List.mem_map.1 ((profile.byText_perm.map Prod.fst).mem_iff.2 hb)
    obtain ⟨i, hi, rfl⟩ := List.mem_iff_getElem.1 hea
    obtain ⟨j, hj, rfl⟩ := List.mem_iff_getElem.1 heb
    -- the smaller one stands first, and there its text is the smaller one
    rcases lt_trichotomy i j with hij | rfl | hij
    · refine lt_of_le_of_ne (List.pairwise_iff_getElem.1 hsorted i j hi hj hij) fun heq => ?_
      exact hlt.ne (toDto_injective heq)
    · exact absurd hlt (lt_irrefl _)
    · exact absurd (List.pairwise_iff_getElem.1 hascends j i hj hi hij) (not_lt.2 hlt.le)
  · intro htexts
    refine (hsorted.and (List.pairwise_map.1 hnodup)).imp_of_mem fun {a b} ha hb hab => ?_
    obtain ⟨hle, hne⟩ := hab
    have hmem : ∀ {e}, e ∈ profile.byText → e.1 ∈ profile.entries.map Prod.fst := fun he =>
      List.mem_map_of_mem (profile.byText_perm.mem_iff.1 he)
    refine lt_of_le_of_ne (not_lt.1 fun hlt => ?_) hne
    exact absurd (htexts b.1 (hmem hb) a.1 (hmem ha) hlt) (not_lt.2 hle)

end RelationProfile

/-- The converted profile is accepted exactly when the texts of its kinds are in order. -/
lemma toDto_validate_iff {profile : RelationProfile}
    (hdistinct : (profile.entries.map Prod.fst).Nodup) :
    profile.toDto.validate = .ok () ↔ TextsAscend (profile.entries.map Prod.fst) := by
  rw [RelationProfile.toDto_validate, validateProfileEntries_eq_ok,
    RelationProfile.byText_ascends_iff hdistinct]
  simp

/-- A profile of distinct relation kinds survives the API boundary exactly when the decimal texts of
its kinds are ordered as the kinds. -/
theorem survives_iff {profile : RelationProfile}
    (hdistinct : (profile.entries.map Prod.fst).Nodup) :
    profile.Survives ↔ TextsAscend (profile.entries.map Prod.fst) := by
  have hvalidate := toDto_validate_iff hdistinct
  exact ⟨fun h => hvalidate.1 h.accepted, fun h => .of_accepted (hvalidate.2 h)⟩

/-- Relation kinds with as many digits each survive. -/
theorem survives_iff_sameLength : RelationProfile.Survives
    ⟨[(⟨20⟩, .disabled), (⟨10⟩, .enabled .one)]⟩ :=
  (survives_iff (by decide)).2 (by unfold TextsAscend; decide)

/-- The kinds 9 and 10 do not. -/
theorem nine_and_ten_do_not_survive :
    (([(⟨9⟩, .disabled), (⟨10⟩, .disabled)] : List (RelationId × RelationUse)).map Prod.fst).Nodup ∧
    (RelationProfile.toDto ⟨[(⟨9⟩, .disabled), (⟨10⟩, .disabled)]⟩).validate =
      .error .unorderedProfile ∧
    ¬ RelationProfile.Survives ⟨[(⟨9⟩, .disabled), (⟨10⟩, .disabled)]⟩ := by
  have hrejected : (RelationProfile.toDto ⟨[(⟨9⟩, .disabled), (⟨10⟩, .disabled)]⟩).validate =
      .error .unorderedProfile := by
    decide +kernel
  refine ⟨by decide, hrejected, fun h => ?_⟩
  have haccepted := h.accepted
  rw [hrejected] at haccepted
  cases haccepted

end PathHydra
