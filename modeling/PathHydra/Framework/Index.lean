import Mathlib.Order.Monotone.Defs
import PathHydra.Framework.SortedMap

/-!
# Maps as indexes

A stored map is an index of a collection of things: each thing has a key and a value of its own,
and the map holds exactly those entries.  `Indexes m S key val` says so.  Putting or deleting the
entry of one thing adds it to or removes it from the collection (`Indexes.insert`,
`Indexes.erase`), and an index whose keys keep the order of a typed map lists its entries in the
same order (`Indexes.entries_eq`).

A map kept in memory is a function that is changed at the keys of a list of things
(`foldl_update_of_mem`, `foldl_update_of_notMem`).
-/

namespace PathHydra

variable {K V K' A : Type*} [LinearOrder K] [LinearOrder K']

/-- The map holds exactly the entries of the things in the collection. -/
def Indexes (m : SortedMap K V) (S : A → Prop) (key : A → K) (val : A → V) : Prop :=
  ∀ k v, m.get k = some v ↔ ∃ a, S a ∧ key a = k ∧ val a = v

namespace Indexes

variable {m : SortedMap K V} {S S' : A → Prop} {key : A → K} {val : A → V} {a : A} {k : K}

lemma congr (h : Indexes m S key val) (hS : ∀ a, S' a ↔ S a) : Indexes m S' key val := by
  intro k v
  rw [h k v]
  simp only [hS]

lemma get_key (h : Indexes m S key val) (ha : S a) : m.get (key a) = some (val a) :=
  (h _ _).2 ⟨a, ha, rfl, rfl⟩

lemma get_eq_none (h : Indexes m S key val) (hk : ∀ a, S a → key a ≠ k) : m.get k = none := by
  rcases hget : m.get k with _ | v
  · rfl
  · obtain ⟨a, ha, hkey, -⟩ := (h k v).1 hget
    exact absurd hkey (hk a ha)

lemma of_mem (h : Indexes m S key val) {e : K × V} (he : e ∈ m.entries) :
    ∃ a, S a ∧ key a = e.1 ∧ val a = e.2 := (h e.1 e.2).1 (SortedMap.get_of_mem he)

/-- Putting the entry of a thing replaces whatever had its key. -/
lemma insert (h : Indexes m S key val) (a : A)
    (hS : ∀ b, S' b ↔ b = a ∨ S b ∧ key b ≠ key a) :
    Indexes (m.insert (key a) (val a)) S' key val := by
  intro k v
  rw [SortedMap.get_insert]
  split_ifs with hk
  · constructor
    · intro hv
      exact ⟨a, (hS a).2 (.inl rfl), hk.symm, Option.some.inj hv⟩
    · rintro ⟨b, hb, hkey, rfl⟩
      rcases (hS b).1 hb with rfl | ⟨-, hne⟩
      · rfl
      · exact absurd (hkey.trans hk) hne
  · rw [h k v]
    constructor
    · rintro ⟨b, hb, rfl, rfl⟩
      exact ⟨b, (hS b).2 (.inr ⟨hb, hk⟩), rfl, rfl⟩
    · rintro ⟨b, hb, rfl, rfl⟩
      rcases (hS b).1 hb with rfl | ⟨hb, -⟩
      · exact absurd rfl hk
      · exact ⟨b, hb, rfl, rfl⟩

/-- Deleting a key removes the things that have it. -/
lemma erase (h : Indexes m S key val) (k : K) (hS : ∀ b, S' b ↔ S b ∧ key b ≠ k) :
    Indexes (m.erase k) S' key val := by
  intro k' v
  rw [SortedMap.get_erase]
  split_ifs with hk
  · simp only [false_iff]
    rintro ⟨b, hb, hkey, -⟩
    exact ((hS b).1 hb).2 (hkey.trans hk)
  · rw [h k' v]
    constructor
    · rintro ⟨b, hb, rfl, rfl⟩
      exact ⟨b, (hS b).2 ⟨hb, hk⟩, rfl, rfl⟩
    · rintro ⟨b, hb, rfl, rfl⟩
      exact ⟨b, ((hS b).1 hb).1, rfl, rfl⟩

/-- There is one index of a collection. -/
lemma unique {m' : SortedMap K V} (h : Indexes m S key val) (h' : Indexes m' S key val) : m' = m :=
  SortedMap.ext_get fun k => Option.ext fun v => (h' k v).trans (h k v).symm

/-- An index of listed things whose keys ascend lists its entries in the order of the list. -/
lemma entries_eq_map {l : List A} (h : Indexes m S key val) (hl : ∀ a, a ∈ l ↔ S a)
    (hsorted : l.Pairwise fun a b => key a < key b) :
    m.entries = l.map fun a => (key a, val a) := by
  have hascending : (l.map fun a => (key a, val a)).Pairwise fun a b => a.1 < b.1 :=
    List.pairwise_map.2 hsorted
  have heq : m = ⟨l.map fun a => (key a, val a), hascending⟩ := by
    refine SortedMap.ext_get fun k => Option.ext fun v => ?_
    rw [h k v, SortedMap.get_eq_some, List.mem_map]
    constructor
    · rintro ⟨a, ha, rfl, rfl⟩
      exact ⟨a, (hl a).2 ha, rfl⟩
    · rintro ⟨a, ha, heq⟩
      cases heq
      exact ⟨a, (hl a).1 ha, rfl, rfl⟩
  rw [heq]

/-- An index by order-preserving keys lists its entries in the order of the typed map. -/
lemma entries_eq {t : SortedMap K' A} {idOf : A → K'} {enc : K' → K}
    (h : Indexes m (fun a => t.get (idOf a) = some a) (fun a => enc (idOf a)) val)
    (hid : ∀ k a, t.get k = some a → idOf a = k) (henc : StrictMono enc) :
    m.entries = t.entries.map fun e => (enc e.1, val e.2) := by
  have hids : ∀ e ∈ t.entries, idOf e.2 = e.1 := fun e he => hid _ _ (SortedMap.get_of_mem he)
  have hlisted : ∀ a, a ∈ t.entries.map Prod.snd ↔ t.get (idOf a) = some a := by
    intro a
    rw [List.mem_map]
    constructor
    · rintro ⟨e, he, rfl⟩
      rw [hids e he]
      exact SortedMap.get_of_mem he
    · exact fun ha => ⟨(idOf a, a), SortedMap.get_eq_some.1 ha, rfl⟩
  have hsorted : (t.entries.map Prod.snd).Pairwise fun a b => enc (idOf a) < enc (idOf b) := by
    rw [List.pairwise_map]
    refine t.sorted.imp_of_mem fun {e e'} he he' hlt => ?_
    rw [hids e he, hids e' he']
    exact henc hlt
  rw [h.entries_eq_map hlisted hsorted, List.map_map]
  refine List.map_congr_left fun e he => ?_
  rw [Function.comp_apply, hids e he]

end Indexes

/-! ## Functions changed at many places -/

section Updates

variable {B C : Type*} [DecidableEq B] {key : A → B} {f : A → C} {l : List A} {g : B → C}

lemma foldl_update_of_notMem {b : B} (h : b ∉ l.map key) :
    l.foldl (fun g a => Function.update g (key a) (f a)) g b = g b := by
  induction l generalizing g with
  | nil => rfl
  | cons a l ih =>
    simp only [List.map_cons, List.mem_cons, not_or] at h
    rw [List.foldl_cons, ih h.2]
    exact Function.update_of_ne h.1 _ _

lemma foldl_update_of_mem {a : A} (hkeys : (l.map key).Nodup) (h : a ∈ l) :
    l.foldl (fun g a => Function.update g (key a) (f a)) g (key a) = f a := by
  induction l generalizing g with
  | nil => cases h
  | cons b l ih =>
    rw [List.map_cons, List.nodup_cons] at hkeys
    rw [List.foldl_cons]
    rcases List.mem_cons.1 h with rfl | h
    · rw [foldl_update_of_notMem hkeys.1]
      exact Function.update_self _ _ _
    · exact ih hkeys.2 h

end Updates

end PathHydra
