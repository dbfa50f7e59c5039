import Mathlib.Algebra.BigOperators.Group.List.Basic
import Mathlib.Algebra.Order.Ring.Nat
import Mathlib.Data.List.Induction
import Mathlib.Data.List.Nodup
import Mathlib.Data.List.Perm.Basic
import Mathlib.Order.Lattice
import Mathlib.Tactic.Common

/-!
# Sorted maps

A finite map as the list of its entries in ascending key order, the order in which an ordered
store iterates over it.  `SortedMap` carries the order, so two maps with the same lookups are equal
(`ext_get`) and a map is a permutation of any duplicate-free list of its entries.

`sum` adds up a quantity over the values; an insertion or a removal changes it by the value that
comes or goes (`sum_insert_add`, `sum_erase_add`).
-/

namespace PathHydra

/-- A finite map with its entries in ascending key order. -/
structure SortedMap (K V : Type*) [LinearOrder K] where
  entries : List (K × V)
  sorted : entries.Pairwise fun a b => a.1 < b.1

namespace SortedMap

variable {K V : Type*} [LinearOrder K]

/-- The map without entries. -/
def empty : SortedMap K V := ⟨[], .nil⟩

/-- The value of a key. -/
def get (m : SortedMap K V) (k : K) : Option V :=
  (m.entries.find? fun e => decide (e.1 = k)).map Prod.snd

/-- Puts an entry at its place, over the entry that has its key. -/
def insertEntry (k : K) (v : V) : List (K × V) → List (K × V)
  | [] => [(k, v)]
  | e :: rest =>
    if k < e.1 then (k, v) :: e :: rest
    else if k = e.1 then (k, v) :: rest
    else e :: insertEntry k v rest

lemma mem_insertEntry {k : K} {v : V} {l : List (K × V)} {e : K × V}
    (h : e ∈ insertEntry k v l) : e = (k, v) ∨ e ∈ l := by
  induction l with
  | nil => simpa [insertEntry] using h
  | cons a rest ih =>
    simp only [insertEntry] at h
    split_ifs at h
    · simpa using h
    · rcases List.mem_cons.1 h with rfl | h
      · exact .inl rfl
      · exact .inr (List.mem_cons_of_mem _ h)
    · rcases List.mem_cons.1 h with rfl | h
      · exact .inr (by simp)
      · exact (ih h).imp_right (List.mem_cons_of_mem _)

lemma insertEntry_sorted {k : K} {v : V} {l : List (K × V)}
    (h : l.Pairwise fun a b => a.1 < b.1) :
    (insertEntry k v l).Pairwise fun a b => a.1 < b.1 := by
  induction l with
  | nil => simp [insertEntry]
  | cons a rest ih =>
    obtain ⟨ha, hrest⟩ := List.pairwise_cons.1 h
    simp only [insertEntry]
    split_ifs with hlt heq
    · refine List.pairwise_cons.2 ⟨fun e he => ?_, h⟩
      rcases List.mem_cons.1 he with rfl | he
      · exact hlt
      · exact hlt.trans (ha e he)
    · exact List.pairwise_cons.2 ⟨fun e he => heq ▸ ha e he, hrest⟩
    · refine List.pairwise_cons.2 ⟨fun e he => ?_, ih hrest⟩
      rcases mem_insertEntry he with rfl | he
      · exact lt_of_le_of_ne (not_lt.1 hlt) (Ne.symm heq)
      · exact ha e he

/-- The map with an entry put in. -/
def insert (m : SortedMap K V) (k : K) (v : V) : SortedMap K V :=
  ⟨insertEntry k v m.entries, insertEntry_sorted m.sorted⟩

/-- The map without the entry of a key. -/
def erase (m : SortedMap K V) (k : K) : SortedMap K V :=
  ⟨m.entries.filter fun e => decide (e.1 ≠ k), m.sorted.filter _⟩

/-! ## Lookup -/

variable {m m' : SortedMap K V} {k k' : K} {v v' : V}

lemma key_inj (h : (k, v) ∈ m.entries) (h' : (k, v') ∈ m.entries) : v = v' := by
  have hkeys : (m.entries.map Prod.fst).Nodup :=
    List.pairwise_map.2 (m.sorted.imp fun hlt => hlt.ne)
  exact congrArg Prod.snd (List.inj_on_of_nodup_map hkeys h h' rfl)

/-- The lookup finds exactly the entries. -/
lemma get_eq_some : m.get k = some v ↔ (k, v) ∈ m.entries := by
  unfold get
  constructor
  · intro h
    obtain ⟨e, he, rfl⟩ := Option.map_eq_some_iff.1 h
    have hkey : e.1 = k := by simpa using List.find?_some he
    rw [← hkey]
    exact List.mem_of_find?_eq_some he
  · intro h
    rcases hfind : m.entries.find? fun e => decide (e.1 = k) with _ | e
    · exact absurd (List.find?_eq_none.1 hfind _ h) (by simp)
    · have hkey : e.1 = k := by simpa using List.find?_some hfind
      have hmem : (k, e.2) ∈ m.entries := hkey ▸ List.mem_of_find?_eq_some hfind
      rw [hfind, key_inj h hmem]
      rfl

lemma get_of_mem {e : K × V} (h : e ∈ m.entries) : m.get e.1 = some e.2 := get_eq_some.2 h

@[simp] lemma get_empty : (empty : SortedMap K V).get k = none := rfl

lemma nodup_entries (m : SortedMap K V) : m.entries.Nodup :=
  m.sorted.imp fun hlt heq => hlt.ne (congrArg Prod.fst heq)

/-- Maps with the same lookups are equal. -/
lemma ext_get (h : ∀ k, m.get k = m'.get k) : m = m' := by
  have hmem : ∀ e, e ∈ m.entries ↔ e ∈ m'.entries := fun e => by
    rw [← get_eq_some (m := m), ← get_eq_some (m := m'), h]
  have hperm : m.entries.Perm m'.entries :=
    (List.perm_ext_iff_of_nodup m.nodup_entries m'.nodup_entries).2 hmem
  have heq : m.entries = m'.entries := hperm.eq_of_pairwise
    (fun a b _ _ hab hba => absurd hba hab.not_gt) m.sorted m'.sorted
  obtain ⟨entries, sorted⟩ := m
  obtain ⟨entries', sorted'⟩ := m'
  cases heq
  rfl

lemma mem_keys : k ∈ m.entries.map Prod.fst ↔ ∃ v, m.get k = some v := by
  constructor
  · intro hk
    obtain ⟨e, he, rfl⟩ := List.mem_map.1 hk
    exact ⟨e.2, get_of_mem he⟩
  · rintro ⟨v, hv⟩
    exact List.mem_map.2 ⟨(k, v), get_eq_some.1 hv, rfl⟩

lemma keys_pairwise (m : SortedMap K V) : (m.entries.map Prod.fst).Pairwise (· < ·) :=
  List.pairwise_map.2 m.sorted

/-- Maps with the same domain have the same keys in the same order. -/
lemma keys_eq {V' : Type*} {m' : SortedMap K V'}
    (h : ∀ k, (∃ v, m.get k = some v) ↔ ∃ v, m'.get k = some v) :
    m.entries.map Prod.fst = m'.entries.map Prod.fst := by
  have hperm := (List.perm_ext_iff_of_nodup (m.keys_pairwise.imp fun hlt => hlt.ne)
    (m'.keys_pairwise.imp fun hlt => hlt.ne)).2 fun k => mem_keys.trans ((h k).trans mem_keys.symm)
  exact hperm.eq_of_pairwise (fun a b _ _ hab hba => absurd hba hab.not_gt) m.keys_pairwise
    m'.keys_pairwise

lemma mem_insert_entries {e : K × V} :
    e ∈ (m.insert k v).entries ↔ e = (k, v) ∨ e ∈ m.entries ∧ e.1 ≠ k := by
  have hgeneral : ∀ l : List (K × V), l.Pairwise (fun a b => a.1 < b.1) →
      (e ∈ insertEntry k v l ↔ e = (k, v) ∨ e ∈ l ∧ e.1 ≠ k) := by
    intro l hl
    induction l with
    | nil => simp [insertEntry]
    | cons a rest ih =>
      obtain ⟨ha, hrest⟩ := List.pairwise_cons.1 hl
      simp only [insertEntry]
      split_ifs with hlt heq
      · have hne : ∀ b ∈ a :: rest, b.1 ≠ k := by
          intro b hb
          rcases List.mem_cons.1 hb with rfl | hb
          · exact hlt.ne'
          · exact (hlt.trans (ha b hb)).ne'
        rw [List.mem_cons]
        exact or_congr_right ⟨fun h => ⟨h, hne e h⟩, fun h => h.1⟩
      · have hne : ∀ b ∈ rest, b.1 ≠ k := fun b hb => heq ▸ (ha b hb).ne'
        rw [List.mem_cons, List.mem_cons]
        refine or_congr_right ⟨fun h => ⟨.inr h, hne e h⟩, ?_⟩
        rintro ⟨rfl | h, hk⟩
        · exact absurd heq.symm hk
        · exact h
      · rw [List.mem_cons, ih hrest, List.mem_cons]
        constructor
        · rintro (rfl | rfl | h)
          · exact .inr ⟨.inl rfl, Ne.symm heq⟩
          · exact .inl rfl
          · exact .inr ⟨.inr h.1, h.2⟩
        · rintro (rfl | ⟨rfl | h, hk⟩)
          · exact .inr (.inl rfl)
          · exact .inl rfl
          · exact .inr (.inr ⟨h, hk⟩)
  exact hgeneral m.entries m.sorted

lemma mem_erase_entries {e : K × V} : e ∈ (m.erase k).entries ↔ e ∈ m.entries ∧ e.1 ≠ k := by
  simp [erase]

lemma get_insert (m : SortedMap K V) (k k' : K) (v : V) :
    (m.insert k v).get k' = if k' = k then some v else m.get k' := by
  apply Option.ext
  intro w
  rw [get_eq_some, mem_insert_entries]
  split_ifs with h
  · subst h
    simp [eq_comm]
  · rw [get_eq_some]
    simp [h]

@[simp] lemma get_insert_self (m : SortedMap K V) (k : K) (v : V) : (m.insert k v).get k = some v := by
  simp [get_insert]

lemma get_insert_of_ne (m : SortedMap K V) (v : V) (h : k' ≠ k) :
    (m.insert k v).get k' = m.get k' := by
  simp [get_insert, h]

lemma get_erase (m : SortedMap K V) (k k' : K) :
    (m.erase k).get k' = if k' = k then none else m.get k' := by
  apply Option.ext
  intro w
  rw [get_eq_some, mem_erase_entries]
  split_ifs with h
  · simp [h]
  · rw [get_eq_some]
    simp [h]

lemma get_erase_eq_some : (m.erase k).get k' = some v ↔ m.get k' = some v ∧ k' ≠ k := by
  rw [get_erase]
  split_ifs with h
  · simp [h]
  · simp [h]

lemma get_erase_of_ne (m : SortedMap K V) (h : k' ≠ k) : (m.erase k).get k' = m.get k' := by
  simp [get_erase, h]

/-! ## Selecting and rewriting values -/

/-- The map of the values that are kept, each rewritten. -/
def filterMap {W : Type*} (m : SortedMap K V) (f : V → Option W) : SortedMap K W where
  entries := m.entries.filterMap fun e => (f e.2).map fun w => (e.1, w)
  sorted := by
    refine m.sorted.filterMap _ fun a b hab a' ha' b' hb' => ?_
    obtain ⟨w, -, rfl⟩ := Option.map_eq_some_iff.1 ha'
    obtain ⟨w', -, rfl⟩ := Option.map_eq_some_iff.1 hb'
    exact hab

lemma get_filterMap {W : Type*} (f : V → Option W) : (m.filterMap f).get k = (m.get k).bind f := by
  refine Option.ext fun w => ?_
  rw [get_eq_some, Option.bind_eq_some_iff]
  constructor
  · intro hmem
    obtain ⟨e, he, hw⟩ := List.mem_filterMap.1 hmem
    obtain ⟨w', hw', heq⟩ := Option.map_eq_some_iff.1 hw
    cases heq
    exact ⟨e.2, get_of_mem he, hw'⟩
  · rintro ⟨v, hv, hw⟩
    exact List.mem_filterMap.2 ⟨(k, v), get_eq_some.1 hv, by rw [hw]; rfl⟩

lemma values_filterMap {W : Type*} (m : SortedMap K V) (f : V → Option W) :
    (m.filterMap f).entries.map Prod.snd = (m.entries.map Prod.snd).filterMap f := by
  rw [filterMap, List.map_filterMap, List.filterMap_map]
  refine List.filterMap_congr fun e _ => ?_
  rw [Option.map_map]
  exact Option.map_id'

/-- The values of a map that keeps some of them as they are. -/
lemma values_filter (keep : V → Bool)
    (h : ∀ k v, m'.get k = some v ↔ m.get k = some v ∧ keep v = true) :
    m'.entries.map Prod.snd = (m.entries.map Prod.snd).filter keep := by
  have heq : m' = m.filterMap (Option.guard keep) := by
    refine ext_get fun k => Option.ext fun v => ?_
    rw [h, get_filterMap, Option.bind_eq_some_iff]
    simp only [Option.guard_eq_some_iff]
    constructor
    · exact fun hv => ⟨v, hv.1, rfl, hv.2⟩
    · rintro ⟨v', hv', rfl, hkept⟩
      exact ⟨hv', hkept⟩
  rw [heq, values_filterMap, List.filterMap_eq_filter]

/-! ## Sums over the values -/

/-- The sum of a quantity over the values. -/
def sum (m : SortedMap K V) (f : V → ℕ) : ℕ := (m.entries.map fun e => f e.2).sum

@[simp] lemma sum_empty (f : V → ℕ) : (empty : SortedMap K V).sum f = 0 := rfl

lemma insert_perm (m : SortedMap K V) (k : K) (v : V) :
    (m.insert k v).entries.Perm ((k, v) :: (m.erase k).entries) := by
  refine (List.perm_ext_iff_of_nodup (nodup_entries _) ?_).2 fun e => ?_
  · refine List.nodup_cons.2 ⟨fun h => ?_, nodup_entries _⟩
    exact (mem_erase_entries.1 h).2 rfl
  · rw [mem_insert_entries, List.mem_cons, mem_erase_entries]

lemma perm_erase (h : m.get k = some v) : m.entries.Perm ((k, v) :: (m.erase k).entries) := by
  refine (List.perm_ext_iff_of_nodup (nodup_entries _) ?_).2 fun e => ?_
  · refine List.nodup_cons.2 ⟨fun h => ?_, nodup_entries _⟩
    exact (mem_erase_entries.1 h).2 rfl
  · rw [List.mem_cons, mem_erase_entries]
    constructor
    · intro he
      by_cases hk : e.1 = k
      · obtain ⟨a, b⟩ := e
        cases hk
        exact .inl (by rw [key_inj (get_eq_some.1 h) he])
      · exact .inr ⟨he, hk⟩
    · rintro (rfl | h')
      · exact get_eq_some.1 h
      · exact h'.1

lemma erase_eq_of_get_none (h : m.get k = none) : m.erase k = m := by
  refine ext_get fun k' => ?_
  rw [get_erase]
  split_ifs with hk
  · rw [hk, h]
  · rfl

/-- A removed value leaves the sum. -/
lemma sum_erase_add (f : V → ℕ) (h : m.get k = some v) : (m.erase k).sum f + f v = m.sum f := by
  have hperm := ((perm_erase h).map fun e => f e.2).sum_eq
  simp only [List.map_cons, List.sum_cons] at hperm
  simp only [sum, hperm]
  exact Nat.add_comm _ _

/-- A value of the map is part of the sum. -/
lemma le_sum (f : V → ℕ) (h : m.get k = some v) : f v ≤ m.sum f := by
  rw [← sum_erase_add f h]
  exact Nat.le_add_left _ _

lemma sum_eq_zero {f : V → ℕ} (h : ∀ k v, m.get k = some v → f v = 0) : m.sum f = 0 := by
  refine List.sum_eq_zero fun n hn => ?_
  obtain ⟨e, he, rfl⟩ := List.mem_map.1 hn
  exact h e.1 e.2 (get_of_mem he)

/-! ## Many changes at once -/

/-- The map with another value for a key, or with none. -/
def set (m : SortedMap K V) (k : K) : Option V → SortedMap K V
  | some v => m.insert k v
  | none => m.erase k

lemma get_set (m : SortedMap K V) (k k' : K) (o : Option V) :
    (m.set k o).get k' = if k' = k then o else m.get k' := by
  cases o with
  | some v => exact get_insert m k k' v
  | none => exact get_erase m k k'

/-- Changing one key exchanges its part of the sum. -/
lemma sum_set (m : SortedMap K V) (k : K) (o : Option V) (f : V → ℕ) :
    (m.set k o).sum f + ((m.get k).map f).getD 0 = m.sum f + (o.map f).getD 0 := by
  have herase : (m.erase k).sum f + ((m.get k).map f).getD 0 = m.sum f := by
    rcases hget : m.get k with _ | v
    · rw [erase_eq_of_get_none hget]
      rfl
    · exact sum_erase_add f hget
  cases o with
  | none => exact herase
  | some v =>
    have hinsert := ((insert_perm m k v).map fun e => f e.2).sum_eq
    simp only [List.map_cons, List.sum_cons] at hinsert
    show (m.insert k v).sum f + _ = m.sum f + f v
    unfold sum at herase ⊢
    omega

/-- The map after a list of changes. -/
def setAll (m : SortedMap K V) (l : List (K × Option V)) : SortedMap K V :=
  l.foldl (fun m e => m.set e.1 e.2) m

lemma setAll_append (m : SortedMap K V) (l l' : List (K × Option V)) :
    m.setAll (l ++ l') = (m.setAll l).setAll l' := List.foldl_append

lemma setAll_concat (m : SortedMap K V) (l : List (K × Option V)) (k : K) (o : Option V) :
    m.setAll (l ++ [(k, o)]) = (m.setAll l).set k o := setAll_append m l _

lemma get_setAll_of_notMem {l : List (K × Option V)} (h : k ∉ l.map Prod.fst) :
    (m.setAll l).get k = m.get k := by
  induction l generalizing m with
  | nil => rfl
  | cons e l ih =>
    simp only [List.map_cons, List.mem_cons, not_or] at h
    refine (ih h.2).trans ?_
    rw [get_set, if_neg h.1]

lemma get_setAll_of_mem {l : List (K × Option V)} {o : Option V} (hkeys : (l.map Prod.fst).Nodup)
    (h : (k, o) ∈ l) : (m.setAll l).get k = o := by
  induction l generalizing m with
  | nil => cases h
  | cons e l ih =>
    rw [List.map_cons, List.nodup_cons] at hkeys
    rcases List.mem_cons.1 h with rfl | h
    · refine (get_setAll_of_notMem hkeys.1).trans ?_
      rw [get_set, if_pos rfl]
    · exact ih hkeys.2 h

/-- Putting the entries of one map into another. -/
lemma get_foldl_insert (m m' : SortedMap K V) (k : K) :
    (m'.entries.foldl (fun m e => m.insert e.1 e.2) m).get k = (m'.get k).or (m.get k) := by
  have hall : m'.entries.foldl (fun m e => m.insert e.1 e.2) m =
      m.setAll (m'.entries.map fun e => (e.1, some e.2)) := by
    rw [setAll, List.foldl_map]
    rfl
  have hfst : (m'.entries.map fun e => (e.1, some e.2)).map Prod.fst = m'.entries.map Prod.fst := by
    rw [List.map_map]
    rfl
  rw [hall]
  rcases hget : m'.get k with _ | v
  · rw [get_setAll_of_notMem, Option.none_or]
    rw [hfst, mem_keys]
    simp [hget]
  · rw [get_setAll_of_mem (hfst ▸ m'.keys_pairwise.imp fun hlt => hlt.ne)
      (List.mem_map.2 ⟨(k, v), get_eq_some.1 hget, rfl⟩), Option.some_or]

/-- A map is built from its own entries. -/
lemma foldl_insert_entries (m : SortedMap K V) :
    m.entries.foldl (fun m e => m.insert e.1 e.2) empty = m :=
  ext_get fun k => by rw [get_foldl_insert, get_empty, Option.or_none]

/-- Putting an entry in that is there already. -/
lemma insert_eq_self (h : m.get k = some v) : m.insert k v = m := by
  refine ext_get fun k' => ?_
  rw [get_insert]
  split_ifs with hk
  · rw [hk, h]
  · rfl

/-- A list of changes exchanges the parts of its keys in the sum. -/
lemma sum_setAll {l : List (K × Option V)} (hkeys : (l.map Prod.fst).Nodup) (f : V → ℕ) :
    (m.setAll l).sum f + (l.map fun e => ((m.get e.1).map f).getD 0).sum =
      m.sum f + (l.map fun e => (e.2.map f).getD 0).sum := by
  induction l generalizing m with
  | nil => rfl
  | cons e l ih =>
    rw [List.map_cons, List.nodup_cons] at hkeys
    have hrest := ih (m := m.set e.1 e.2) hkeys.2
    have hone := sum_set m e.1 e.2 f
    have hsame : (l.map fun e' => (((m.set e.1 e.2).get e'.1).map f).getD 0) =
        l.map fun e' => ((m.get e'.1).map f).getD 0 := by
      refine List.map_congr_left fun e' he' => ?_
      rw [get_set, if_neg]
      rintro heq
      exact hkeys.1 (heq ▸ List.mem_map_of_mem he')
    rw [hsame] at hrest
    simp only [List.map_cons, List.sum_cons]
    show ((m.set e.1 e.2).setAll l).sum f + _ = _
    omega

/-! ## Records under their own keys -/

section Records

variable {key : V → K} {l : List V} {ks : List K}

/-- Puts every record under its key. -/
def putAll (key : V → K) (m : SortedMap K V) (l : List V) : SortedMap K V :=
  m.setAll (l.map fun r => (key r, some r))

/-- Removes every key. -/
def dropAll (m : SortedMap K V) (ks : List K) : SortedMap K V := m.setAll (ks.map fun k => (k, none))

lemma putAll_append (m : SortedMap K V) (l l' : List V) :
    putAll key m (l ++ l') = putAll key (putAll key m l) l' := by
  unfold putAll
  rw [List.map_append]
  exact setAll_append m _ _

lemma putAll_concat (m : SortedMap K V) (l : List V) (r : V) :
    putAll key m (l ++ [r]) = (putAll key m l).insert (key r) r := by
  unfold putAll
  rw [List.map_append]
  exact setAll_concat m _ _ _

lemma dropAll_concat (m : SortedMap K V) (ks : List K) (k : K) :
    m.dropAll (ks ++ [k]) = (m.dropAll ks).erase k := by
  unfold dropAll
  rw [List.map_append]
  exact setAll_concat m _ _ _

/-- New records join the map. -/
lemma get_putAll (hkeys : (l.map key).Nodup) (hfresh : ∀ r ∈ l, m.get (key r) = none) :
    (putAll key m l).get k = some v ↔ m.get k = some v ∨ v ∈ l ∧ key v = k := by
  have hfst : (l.map fun r => (key r, some r)).map Prod.fst = l.map key := by simp
  by_cases hk : k ∈ l.map key
  · obtain ⟨r, hr, rfl⟩ := List.mem_map.1 hk
    have hget : (putAll key m l).get (key r) = some r :=
      get_setAll_of_mem (hfst ▸ hkeys) (List.mem_map.2 ⟨r, hr, rfl⟩)
    rw [hget, hfresh r hr]
    constructor
    · intro h
      cases h
      exact .inr ⟨hr, rfl⟩
    · rintro (h | ⟨hv, heq⟩)
      · cases h
      · rw [List.inj_on_of_nodup_map hkeys hv hr heq]
  · have hget : (putAll key m l).get k = m.get k := get_setAll_of_notMem (hfst ▸ hk)
    rw [hget]
    refine ⟨.inl, fun h => h.resolve_right ?_⟩
    rintro ⟨hv, rfl⟩
    exact hk (List.mem_map_of_mem hv)

lemma get_dropAll : (m.dropAll ks).get k = some v ↔ m.get k = some v ∧ k ∉ ks := by
  induction ks using List.reverseRecOn with
  | nil => simp [dropAll, setAll]
  | append_singleton ks k' ih =>
    rw [dropAll_concat, get_erase]
    split_ifs with h
    · simp [h]
    · rw [ih]
      simp [h]

lemma sum_putAll (hkeys : (l.map key).Nodup) (hfresh : ∀ r ∈ l, m.get (key r) = none)
    (f : V → ℕ) : (putAll key m l).sum f = m.sum f + (l.map f).sum := by
  have hsum := sum_setAll (m := m) (l := l.map fun r => (key r, some r))
    (by simpa [Function.comp_def] using hkeys) f
  have hzero : ((l.map fun r => (key r, some r)).map fun e => ((m.get e.1).map f).getD 0).sum = 0 := by
    refine List.sum_eq_zero fun n hn => ?_
    simp only [List.map_map, List.mem_map, Function.comp_apply] at hn
    obtain ⟨r, hr, rfl⟩ := hn
    simp [hfresh r hr]
  rw [hzero, List.map_map] at hsum
  exact hsum

lemma sum_dropAll (hkeys : (l.map key).Nodup) (hhas : ∀ r ∈ l, m.get (key r) = some r)
    (f : V → ℕ) : (m.dropAll (l.map key)).sum f + (l.map f).sum = m.sum f := by
  have hsum := sum_setAll (m := m) (l := (l.map key).map fun k => (k, none))
    (by simpa [Function.comp_def] using hkeys) f
  have hold : (((l.map key).map fun k => (k, (none : Option V))).map
      fun e => ((m.get e.1).map f).getD 0) = l.map f := by
    simp only [List.map_map]
    refine List.map_congr_left fun r hr => ?_
    simp [hhas r hr]
  rw [hold] at hsum
  refine hsum.trans ?_
  simp [Function.comp_def]

end Records

end SortedMap

/-- In a list of different keys the key of an element is not among the earlier ones. -/
lemma key_notMem_earlier {α β : Type*} {f : α → β} {pre post : List α} {a : α}
    (h : ((pre ++ a :: post).map f).Nodup) : f a ∉ pre.map f := by
  rw [List.map_append, List.map_cons, List.nodup_middle, List.nodup_cons] at h
  exact fun hmem => h.1 (List.mem_append_left _ hmem)

/-! ## Scans -/

/-- A scan that skips to a block and stops at its end finds what a filter finds: in an ordered list
the block is contiguous. -/
lemma takeWhile_dropWhile_eq_filter {α : Type*} {R : α → α → Prop} {before inside : α → Bool}
    {l : List α} (hl : l.Pairwise R)
    (hinside : ∀ x, inside x = true → before x = false)
    (hbefore : ∀ x y, R x y → before x = false → before y = false)
    (hstop : ∀ x y, R x y → before x = false → inside x = false → inside y = false) :
    (l.dropWhile before).takeWhile inside = l.filter inside := by
  induction l with
  | nil => rfl
  | cons x l ih =>
    obtain ⟨hx, hl'⟩ := List.pairwise_cons.1 hl
    rcases hb : before x with _ | _
    · -- the scan has reached the block, or passed the place where it would be
      rw [List.dropWhile_cons, hb]
      rcases hi : inside x with _ | _
      · have hnone : l.filter inside = [] := by
          refine List.filter_eq_nil_iff.2 fun y hy => ?_
          simp [hstop x y (hx y hy) hb hi]
        simp [hi, hnone]
      · have hdrop : l.dropWhile before = l := by
          rcases l with _ | ⟨y, l⟩
          · rfl
          · simp [hbefore x y (hx y (by simp)) hb]
        have htake := ih hl'
        rw [hdrop] at htake
        simp [hi, htake]
    · have hi : inside x = false := by
        rcases hi : inside x with _ | _
        · rfl
        · rw [hinside x hi] at hb
          cases hb
      simp [hb, hi, ih hl']

end PathHydra
