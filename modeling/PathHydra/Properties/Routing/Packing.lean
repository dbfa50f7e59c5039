import PathHydra.Framework.BinarySearch
import PathHydra.Properties.Routing.Independence

/-!
# Packing a profile

A profile is packed by filing the use of each entry under the position of its relation kind and
reading the uses back in that order.  This succeeds exactly when the entries name the relation kinds
of the image once each, and it does not see the order of the entries.
-/

namespace PathHydra

namespace RelationProfile

/-! ## The order of the entries -/

lemma packEntries_cons_eq_ok {ids : List RelationId} {e : RelationId × RelationUse}
    {rest : List (RelationId × RelationUse)} {acc out : List (Option RelationUse)} :
    packEntries ids (e :: rest) acc = .ok out ↔ ∃ j, binarySearch ids e.1 = some j ∧
      (acc[j]?.join).isSome = false ∧ packEntries ids rest (acc.set j (some e.2)) = .ok out := by
  obtain ⟨id, relationUse⟩ := e
  rw [packEntries]
  rcases hsearch : binarySearch ids id with _ | j
  · simp
  · simp only [Option.some.injEq, exists_eq_left']
    split_ifs with hfiled
    · simp [hfiled]
    · simp [hfiled]

/-- Two entries file alike in both orders. -/
lemma packEntries_swap {ids : List RelationId} {e e' : RelationId × RelationUse}
    {rest : List (RelationId × RelationUse)} {acc out : List (Option RelationUse)}
    (h : packEntries ids (e :: e' :: rest) acc = .ok out) :
    packEntries ids (e' :: e :: rest) acc = .ok out := by
  obtain ⟨j, hj, hfree, h⟩ := packEntries_cons_eq_ok.1 h
  obtain ⟨k, hk, hfree', h⟩ := packEntries_cons_eq_ok.1 h
  rcases eq_or_ne j k with rfl | hne
  · -- the second entry would find the first one filed, or both are outside
    by_cases hlt : j < acc.length
    · simp [List.getElem?_set_self hlt] at hfree'
    · have hset : ∀ v, acc.set j v = acc := fun v => List.set_eq_of_length_le (not_lt.1 hlt)
      simp only [hset] at h
      refine packEntries_cons_eq_ok.2 ⟨j, hk, hfree, packEntries_cons_eq_ok.2 ⟨j, hj, ?_, ?_⟩⟩
      · rw [hset]
        exact hfree
      · rw [hset, hset]
        exact h
  · rw [List.getElem?_set_ne hne] at hfree'
    refine packEntries_cons_eq_ok.2 ⟨k, hk, hfree', packEntries_cons_eq_ok.2 ⟨j, hj, ?_, ?_⟩⟩
    · rw [List.getElem?_set_ne hne.symm]
      exact hfree
    · rw [List.set_comm _ _ hne.symm]
      exact h

lemma packEntries_perm {ids : List RelationId} {l l' : List (RelationId × RelationUse)}
    (hperm : l.Perm l') {acc out : List (Option RelationUse)} :
    packEntries ids l acc = .ok out ↔ packEntries ids l' acc = .ok out := by
  induction hperm generalizing acc with
  | nil => exact Iff.rfl
  | cons e _ ih => simp only [packEntries_cons_eq_ok, ih]
  | swap e e' rest => exact ⟨packEntries_swap, packEntries_swap⟩
  | trans _ _ ih ih' => exact ih.trans ih'

/-- Packing does not see the order of the entries. -/
lemma packRelationIds_perm {ids : List RelationId} {p p' : RelationProfile}
    (hperm : p.entries.Perm p'.entries) {packed : PackedRelationProfile} :
    p.packRelationIds ids = .ok packed ↔ p'.packRelationIds ids = .ok packed := by
  simp only [packRelationIds, bind_eq_ok, packEntries_perm hperm]

/-! ## When packing succeeds -/

variable {ids : List RelationId}

/-- Entries can be filed when they name relation kinds of the list, each once, whose places are
free. -/
lemma packEntries_isOk_iff (hids : ids.Nodup) {entries : List (RelationId × RelationUse)}
    {acc : List (Option RelationUse)} (hlength : acc.length = ids.length) :
    (∃ out, packEntries ids entries acc = .ok out) ↔
      (∀ e ∈ entries, e.1 ∈ ids) ∧ (entries.map Prod.fst).Nodup ∧
        ∀ e ∈ entries, ∀ i : ℕ, ids[i]? = some e.1 → acc[i]? = some none := by
  induction entries generalizing acc with
  | nil => exact iff_of_true ⟨acc, rfl⟩ ⟨nofun, List.nodup_nil, nofun⟩
  | cons e rest ih =>
    simp only [packEntries_cons_eq_ok, List.forall_mem_cons, List.map_cons, List.nodup_cons]
    constructor
    · rintro ⟨out, j, hj, hfree, hout⟩
      have hplace := getElem?_of_binarySearch hj
      have hjlt : j < acc.length := hlength ▸ (List.getElem?_eq_some_iff.1 hplace).1
      obtain ⟨hknown, hnodup, hrest⟩ := (ih (by simpa using hlength)).1 ⟨out, hout⟩
      have hother : ∀ e' ∈ rest, e'.1 ≠ e.1 := by
        intro e' he' heq
        have hnone := hrest e' he' j (by rw [hplace, heq])
        rw [List.getElem?_set_self hjlt] at hnone
        cases hnone
      refine ⟨⟨List.mem_of_getElem? hplace, hknown⟩, ⟨?_, hnodup⟩, fun i hi => ?_,
        fun e' he' i hi => ?_⟩
      · rw [List.mem_map]
        rintro ⟨e', he', heq⟩
        exact hother e' he' heq
      · obtain rfl := (List.getElem?_inj (hlength ▸ hjlt) hids).1 (hplace.trans hi.symm)
        rw [List.getElem?_eq_getElem hjlt] at hfree ⊢
        rcases hvalue : acc[j] with _ | use
        · rfl
        · rw [hvalue] at hfree
          cases hfree
      · have hne : j ≠ i := by
          rintro rfl
          exact hother e' he' (Option.some.inj (hi.symm.trans hplace))
        rw [← hrest e' he' i hi, List.getElem?_set_ne hne]
    · rintro ⟨⟨hknown, hrestKnown⟩, ⟨hnew, hnodup⟩, hfree, hrest⟩
      obtain ⟨j, hplace⟩ := List.mem_iff_getElem?.1 hknown
      have hset : ∃ out, packEntries ids rest (acc.set j (some e.2)) = .ok out := by
        refine (ih (by simpa using hlength)).2 ⟨hrestKnown, hnodup, fun e' he' i hi => ?_⟩
        have hne : j ≠ i := by
          rintro rfl
          have heq : e'.1 = e.1 := Option.some.inj (hi.symm.trans hplace)
          exact hnew (heq ▸ List.mem_map_of_mem he')
        rw [List.getElem?_set_ne hne]
        exact hrest e' he' i hi
      obtain ⟨out, hout⟩ := hset
      refine ⟨out, j, binarySearch_of_getElem? hids hplace, ?_, hout⟩
      rw [hfree j hplace]
      rfl

lemma packUses_isOk {filed : List (RelationId × Option RelationUse)}
    (h : ∀ p ∈ filed, ∃ use, p.2 = some use) : ∃ out, packUses filed = .ok out := by
  induction filed with
  | nil => exact ⟨[], rfl⟩
  | cons p rest ih =>
    obtain ⟨out, hout⟩ := ih fun p' hp' => h p' (List.mem_cons_of_mem _ hp')
    obtain ⟨id, filed⟩ := p
    obtain ⟨use, rfl⟩ := h _ List.mem_cons_self
    exact ⟨_, map_eq_ok.2 ⟨out, hout, rfl⟩⟩

/-- Packing succeeds exactly when the entries name the relation kinds once each. -/
lemma packRelationIds_isOk_iff (hids : ids.Nodup) {profile : RelationProfile} :
    (∃ packed, profile.packRelationIds ids = .ok packed) ↔
      (profile.entries.map Prod.fst).Perm ids := by
  have hfree : ∀ i : ℕ, i < ids.length →
      (ids.map fun _ => (none : Option RelationUse))[i]? = some none := by
    intro i hi
    rw [List.getElem?_map, List.getElem?_eq_getElem hi]
    rfl
  constructor
  · rintro ⟨packed, hpack⟩
    obtain ⟨byIndex, hfiled, -⟩ := bind_eq_ok.1 hpack
    obtain ⟨hknown, hnodup, -⟩ := (packEntries_isOk_iff hids (by simp)).1 ⟨byIndex, hfiled⟩
    refine (List.perm_ext_iff_of_nodup hnodup hids).2 fun id => ⟨fun hid => ?_, fun hid => ?_⟩
    · obtain ⟨e, he, rfl⟩ := List.mem_map.1 hid
      exact hknown e he
    · obtain ⟨i, hi⟩ := List.mem_iff_getElem?.1 hid
      have hlt : i < packed.uses.length := by
        rw [packRelationIds_length hids hpack]
        exact (List.getElem?_eq_some_iff.1 hi).1
      have hentry := (packRelationIds_uses hids hpack hi).1 (List.getElem?_eq_getElem hlt)
      exact List.mem_map.2 ⟨_, hentry, rfl⟩
  · intro hperm
    have hfile : ∃ byIndex, packEntries ids profile.entries (ids.map fun _ => none) = .ok byIndex :=
      (packEntries_isOk_iff hids (by simp)).2
        ⟨fun e he => hperm.subset (List.mem_map_of_mem he), hperm.nodup_iff.2 hids,
          fun e _ i hi => hfree i (List.getElem?_eq_some_iff.1 hi).1⟩
    obtain ⟨byIndex, hfiled⟩ := hfile
    obtain ⟨hlength, hentries⟩ := packEntries_getElem? hids (by simp) hfiled
    have hread : ∃ out, packUses (ids.zip byIndex) = .ok out := by
      refine packUses_isOk fun p hp => ?_
      obtain ⟨i, hi⟩ := List.mem_iff_getElem?.1 hp
      obtain ⟨hid, hvalue⟩ := List.getElem?_zip_eq_some.1 hi
      obtain ⟨⟨id, use⟩, he, heq⟩ := List.mem_map.1 (hperm.symm.subset (List.mem_of_getElem? hid))
      refine ⟨use, Option.some.inj (hvalue.symm.trans ?_)⟩
      exact (hentries i p.1 use hid).2 (.inr (heq ▸ he))
    obtain ⟨out, hout⟩ := hread
    exact ⟨_, bind_eq_ok.2 ⟨byIndex, hfiled, bind_eq_ok.2 ⟨out, hout, rfl⟩⟩⟩

/-- The canonical profile lists the entries in ascending order. -/
lemma packRelationIds_sorted (hids : ids.Pairwise (· < ·)) {profile : RelationProfile}
    {packed : PackedRelationProfile} (hpack : profile.packRelationIds ids = .ok packed) :
    packed.canonical.entries.Perm profile.entries ∧
      packed.canonical.entries.Pairwise fun a b => a.1 < b.1 := by
  have hnodup : ids.Nodup := hids.imp ne_of_lt
  have hlength := packRelationIds_length hnodup hpack
  have hentries := packRelationIds_canonical hnodup hpack
  have hfst : packed.canonical.entries.map Prod.fst = ids := by
    rw [hentries, List.map_fst_zip hlength.ge]
  have hperm := (packRelationIds_isOk_iff hnodup).1 ⟨packed, hpack⟩
  constructor
  · refine (List.perm_ext_iff_of_nodup (List.Nodup.of_map Prod.fst (hfst ▸ hnodup))
      (List.Nodup.of_map Prod.fst (hperm.nodup_iff.2 hnodup))).2 fun e => ?_
    rw [hentries]
    constructor
    · intro he
      obtain ⟨i, hi⟩ := List.mem_iff_getElem?.1 he
      obtain ⟨hid, huse⟩ := List.getElem?_zip_eq_some.1 hi
      exact (packRelationIds_uses hnodup hpack hid).1 huse
    · intro he
      obtain ⟨i, hi⟩ := List.mem_iff_getElem?.1 (hperm.subset (List.mem_map_of_mem he))
      have huse := (packRelationIds_uses hnodup hpack hi).2 he
      exact List.mem_of_getElem? (List.getElem?_zip_eq_some.2 ⟨hi, huse⟩)
  · rw [← List.pairwise_map (f := Prod.fst) (R := (· < ·)), hfst]
    exact hids

end RelationProfile

/-- On the ascending relation kinds of an image, packing succeeds exactly for a profile that names
each of them once.  The packed profile then has for each the use that the profile gives it, its
canonical form lists the entries in ascending order, and the order of the entries does not
matter. -/
theorem packRelationIds_exact {ids : List RelationId} (hids : ids.Pairwise (· < ·)) :
    (∀ profile : RelationProfile, (∃ packed, profile.packRelationIds ids = .ok packed) ↔
      (profile.entries.map Prod.fst).Perm ids) ∧
    (∀ (profile : RelationProfile) (packed : PackedRelationProfile),
      profile.packRelationIds ids = .ok packed →
      (∀ (i : U32) (id : RelationId), ids[i.val]? = some id →
        ∃ use, packed.relationUseIndex i = some use ∧
          ∀ use', (id, use') ∈ profile.entries ↔ use' = use) ∧
      packed.canonical.entries.Perm profile.entries ∧
      packed.canonical.entries.Pairwise fun a b => a.1 < b.1) ∧
    ∀ profile profile' : RelationProfile, profile.entries.Perm profile'.entries → ∀ packed,
      profile.packRelationIds ids = .ok packed ↔ profile'.packRelationIds ids = .ok packed := by
  have hnodup : ids.Nodup := hids.imp ne_of_lt
  refine ⟨fun profile => RelationProfile.packRelationIds_isOk_iff hnodup,
    fun profile packed hpack => ⟨fun i id hi => ?_,
      RelationProfile.packRelationIds_sorted hids hpack⟩,
    fun profile profile' hperm packed => RelationProfile.packRelationIds_perm hperm⟩
  have hlt : i.val < packed.uses.length := by
    rw [RelationProfile.packRelationIds_length hnodup hpack]
    exact (List.getElem?_eq_some_iff.1 hi).1
  have huse : packed.relationUseIndex i = some packed.uses[i.val] := List.getElem?_eq_getElem hlt
  refine ⟨packed.uses[i.val], huse, fun use' => ?_⟩
  rw [← RelationProfile.packRelationIds_uses hnodup hpack hi, List.getElem?_eq_getElem hlt,
    Option.some.injEq, eq_comm]

/-- Two relation kinds, given in the other order. -/
theorem packRelationIds_exact_two :
    ∃ packed, (⟨[(⟨7⟩, .disabled), (⟨3⟩, .disabled)]⟩ : RelationProfile).packRelationIds
      [⟨3⟩, ⟨7⟩] = .ok packed := by
  have hids : ([⟨3⟩, ⟨7⟩] : List RelationId).Pairwise (· < ·) := by decide
  exact ((packRelationIds_exact hids).1 _).2 (List.Perm.swap _ _ _)

end PathHydra
