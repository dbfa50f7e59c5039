import Mathlib.Algebra.Order.BigOperators.Group.List
import Mathlib.Algebra.Order.Group.Nat
import Mathlib.Algebra.Order.Ring.Nat
import Mathlib.Data.List.Nodup
import Mathlib.Data.List.TakeWhile
import Mathlib.Tactic.Common

/-!
# Compressed sparse rows

Buckets laid out one after another, with the offset at which each begins.  A slice between two
neighbouring offsets is a bucket again (`drop_take_flatten`), and each entry is found at the offset
of its bucket plus its position in it (`getElem?_flatten`).

`grouped` files the elements of a list under their keys; with every key present once, this
rearranges the list (`flatten_grouped_perm`).
-/

namespace PathHydra

namespace Csr

variable {α β κ : Type*}

/-! ## Offsets -/

/-- Where a bucket begins: the number of entries before it. -/
def offset (buckets : List (List α)) (i : ℕ) : ℕ := ((buckets.take i).map List.length).sum

/-- The offsets of all buckets, and of the end. -/
def offsets (buckets : List (List α)) : List ℕ :=
  (List.range (buckets.length + 1)).map (offset buckets)

variable {buckets : List (List α)} {b : List α} {i j : ℕ}

@[simp] lemma offset_zero (buckets : List (List α)) : offset buckets 0 = 0 := rfl

lemma offset_succ (h : buckets[i]? = some b) :
    offset buckets (i + 1) = offset buckets i + b.length := by
  obtain ⟨hi, rfl⟩ := List.getElem?_eq_some_iff.1 h
  unfold offset
  rw [List.take_succ_eq_append_getElem hi, List.map_append, List.sum_append]
  simp

@[simp] lemma offset_length (buckets : List (List α)) :
    offset buckets buckets.length = buckets.flatten.length := by
  rw [offset, List.take_length, List.length_flatten]

lemma offset_le_succ (buckets : List (List α)) (i : ℕ) :
    offset buckets i ≤ offset buckets (i + 1) := by
  rcases hget : buckets[i]? with _ | b
  · have hle := List.getElem?_eq_none_iff.1 hget
    rw [offset, offset, List.take_of_length_le hle, List.take_of_length_le (by omega)]
  · rw [offset_succ hget]
    exact Nat.le_add_right _ _

lemma offset_mono (buckets : List (List α)) : Monotone (offset buckets) :=
  monotone_nat_of_le_succ (offset_le_succ buckets)

@[simp] lemma offset_cons (b : List α) (buckets : List (List α)) (i : ℕ) :
    offset (b :: buckets) (i + 1) = b.length + offset buckets i := by
  simp [offset]

@[simp] lemma length_offsets (buckets : List (List α)) :
    (offsets buckets).length = buckets.length + 1 := by simp [offsets]

lemma getElem?_offsets (h : i ≤ buckets.length) :
    (offsets buckets)[i]? = some (offset buckets i) := by
  rw [offsets, List.getElem?_map, List.getElem?_range (by omega), Option.map_some]

lemma offsets_pairwise (buckets : List (List α)) : (offsets buckets).Pairwise (· ≤ ·) := by
  rw [offsets, List.pairwise_map]
  exact List.pairwise_lt_range.imp fun hlt => offset_mono buckets hlt.le

/-- The offsets as a program counts them: zero, then the running sums. -/
lemma zero_cons_offsets (buckets : List (List α)) :
    0 :: (List.range buckets.length).map (fun i => 0 + offset buckets (i + 1)) =
      offsets buckets := by
  rw [offsets, List.range_succ_eq_map, List.map_cons, List.map_map]
  simp [Function.comp_def]

/-! ## Slices -/

/-- The entries before a bucket are the buckets before it. -/
lemma take_flatten (buckets : List (List α)) (i : ℕ) :
    buckets.flatten.take (offset buckets i) = (buckets.take i).flatten := by
  have hsplit : buckets.flatten = (buckets.take i).flatten ++ (buckets.drop i).flatten := by
    rw [← List.flatten_append, List.take_append_drop]
  rw [offset, ← List.length_flatten, hsplit, List.take_left]

/-- The slice between two neighbouring offsets is the bucket. -/
lemma drop_take_flatten (h : buckets[i]? = some b) :
    (buckets.flatten.take (offset buckets (i + 1))).drop (offset buckets i) = b := by
  obtain ⟨hi, rfl⟩ := List.getElem?_eq_some_iff.1 h
  rw [take_flatten, List.take_succ_eq_append_getElem hi, List.flatten_append, offset,
    ← List.length_flatten, List.drop_left, List.flatten_singleton]

lemma getElem?_flatten (h : buckets[i]? = some b) (hj : j < b.length) :
    buckets.flatten[offset buckets i + j]? = b[j]? := by
  rw [← drop_take_flatten h, List.getElem?_drop, List.getElem?_take_of_lt]
  · rw [offset_succ h]
    omega

/-- Slices between neighbouring bounds lie one after another. -/
lemma flatten_slices (l : List α) (bound : ℕ → ℕ) (hzero : bound 0 = 0) {n : ℕ}
    (hmono : ∀ i < n, bound i ≤ bound (i + 1)) :
    ((List.range n).map fun i => (l.take (bound (i + 1))).drop (bound i)).flatten =
      l.take (bound n) := by
  induction n with
  | zero => simp [hzero]
  | succ n ih =>
    rw [List.range_succ, List.map_append, List.flatten_append, ih fun i hi => hmono i (by omega)]
    have htake : l.take (bound n) = (l.take (bound (n + 1))).take (bound n) := by
      rw [List.take_take, min_eq_left (hmono n (by omega))]
    rw [htake, List.map_singleton, List.flatten_singleton, List.take_append_drop]

/-- An entry lies in one bucket. -/
lemma bucket_unique {n : ℕ} (hi : offset buckets i ≤ n) (hi' : n < offset buckets (i + 1))
    (hj : offset buckets j ≤ n) (hj' : n < offset buckets (j + 1)) : i = j := by
  rcases Nat.lt_trichotomy i j with hlt | heq | hgt
  · have hmono := offset_mono buckets (show i + 1 ≤ j by omega)
    omega
  · exact heq
  · have hmono := offset_mono buckets (show j + 1 ≤ i by omega)
    omega

/-! ## Finding an entry -/

/-- The bucket of an entry and its position there, from the offsets. -/
def locate (offsets : List ℕ) (index : ℕ) : ℕ × ℕ :=
  let bucket := (offsets.takeWhile fun v => decide (v ≤ index)).length - 1
  (bucket, index - offsets.getD bucket 0)

/-- Every entry lies in a bucket. -/
lemma exists_of_lt_flatten {n : ℕ} (h : n < buckets.flatten.length) :
    ∃ i b j, buckets[i]? = some b ∧ j < b.length ∧ n = offset buckets i + j := by
  induction buckets generalizing n with
  | nil => simp at h
  | cons b buckets ih =>
    rw [List.flatten_cons, List.length_append] at h
    by_cases hn : n < b.length
    · exact ⟨0, b, n, rfl, hn, by simp⟩
    · obtain ⟨i, b', j, hi, hj, heq⟩ := ih (show n - b.length < buckets.flatten.length by omega)
      refine ⟨i + 1, b', j, hi, hj, ?_⟩
      rw [offset_cons]
      omega

lemma takeWhile_offsets (h : buckets[i]? = some b) (hj : j < b.length) :
    (offsets buckets).takeWhile (fun v => decide (v ≤ offset buckets i + j)) =
      (List.range (i + 1)).map (offset buckets) := by
  have hi : i < buckets.length := (List.getElem?_eq_some_iff.1 h).1
  have hsplit : List.range (buckets.length + 1) =
      List.range (i + 1) ++ List.range' (i + 1) (buckets.length - i) := by
    have happend := @List.range'_append_1 0 (i + 1) (buckets.length - i)
    rw [Nat.zero_add] at happend
    rw [List.range_eq_range', List.range_eq_range', happend]
    congr 1
    omega
  rw [offsets, hsplit, List.map_append, List.takeWhile_append_of_pos]
  · have hnil : ((List.range' (i + 1) (buckets.length - i)).map (offset buckets)).takeWhile
        (fun v => decide (v ≤ offset buckets i + j)) = [] := by
      rw [show buckets.length - i = buckets.length - i - 1 + 1 by omega, List.range'_succ,
        List.map_cons, List.takeWhile_cons_of_neg]
      rw [offset_succ h, decide_eq_true_eq]
      omega
    rw [hnil, List.append_nil]
  · intro v hv
    obtain ⟨k, hk, rfl⟩ := List.mem_map.1 hv
    have hle := offset_mono buckets (show k ≤ i by have := List.mem_range.1 hk; omega)
    rw [decide_eq_true_eq]
    omega

/-- An entry is found at its place. -/
lemma locate_offsets (h : buckets[i]? = some b) (hj : j < b.length) :
    locate (offsets buckets) (offset buckets i + j) = (i, j) := by
  have hi : i < buckets.length := (List.getElem?_eq_some_iff.1 h).1
  have hget : (offsets buckets).getD i 0 = offset buckets i := by
    rw [List.getD_eq_getElem?_getD, getElem?_offsets (by omega), Option.getD_some]
  simp only [locate, takeWhile_offsets h hj, List.length_map, List.length_range,
    Nat.add_sub_cancel, hget, Nat.add_sub_cancel_left]

/-- Every place, bucket after bucket. -/
def places (buckets : List (List α)) : List (ℕ × ℕ) :=
  (buckets.zipIdx.map fun bk => (List.range bk.1.length).map fun j => (bk.2, j)).flatten

/-- Finding the entries one after another visits every place once. -/
lemma map_locate (buckets : List (List α)) :
    (List.range buckets.flatten.length).map (locate (offsets buckets)) = places buckets := by
  let rows := buckets.zipIdx.map fun bk => (List.range bk.1.length).map fun j => (bk.2, j)
  have hrow : ∀ {i : ℕ} {b : List α}, buckets[i]? = some b →
      rows[i]? = some ((List.range b.length).map fun j => (i, j)) := by
    intro i b hi
    simp [rows, hi]
  have hlengths : rows.map List.length = buckets.map List.length := by
    simp only [rows, List.map_map]
    refine List.ext_getElem? fun i => ?_
    rcases hi : buckets[i]? with _ | b
    · simp [hi]
    · simp [hi]
  have hoffset : ∀ i, offset rows i = offset buckets i := by
    intro i
    rw [offset, offset, List.map_take, List.map_take, hlengths]
  have hlength : rows.flatten.length = buckets.flatten.length := by
    rw [List.length_flatten, List.length_flatten, hlengths]
  refine List.ext_getElem? fun n => ?_
  show _ = rows.flatten[n]?
  by_cases hn : n < buckets.flatten.length
  · obtain ⟨i, b, j, hi, hj, rfl⟩ := exists_of_lt_flatten hn
    rw [List.getElem?_map, List.getElem?_range hn, Option.map_some, locate_offsets hi hj,
      ← hoffset, getElem?_flatten (hrow hi) (by simpa using hj)]
    simp [hj]
  · rw [List.getElem?_eq_none_iff.2 (by simpa using hn),
      List.getElem?_eq_none_iff.2 (by rw [hlength]; exact not_lt.1 hn)]

/-- Two entries are not found at one place. -/
lemma locate_inj {n m : ℕ} (hn : n < buckets.flatten.length) (hm : m < buckets.flatten.length)
    (h : locate (offsets buckets) n = locate (offsets buckets) m) : n = m := by
  obtain ⟨i, b, j, hi, hj, rfl⟩ := exists_of_lt_flatten hn
  obtain ⟨i', b', j', hi', hj', rfl⟩ := exists_of_lt_flatten hm
  rw [locate_offsets hi hj, locate_offsets hi' hj', Prod.mk.injEq] at h
  rw [h.1, h.2]

lemma nodup_places (buckets : List (List α)) : (places buckets).Nodup := by
  rw [← map_locate]
  exact List.Nodup.map_on (fun _ hn _ hm => locate_inj (List.mem_range.1 hn) (List.mem_range.1 hm))
    List.nodup_range

/-- An index past the end is found nowhere. -/
lemma locate_of_le {n : ℕ} (h : buckets.flatten.length ≤ n) :
    (locate (offsets buckets) n).1 = buckets.length := by
  have hall : (offsets buckets).takeWhile (fun v => decide (v ≤ n)) = offsets buckets := by
    refine List.takeWhile_eq_self_iff.2 fun v hv => ?_
    obtain ⟨k, hk, rfl⟩ := List.mem_map.1 hv
    have hle := offset_mono buckets (show k ≤ buckets.length by have := List.mem_range.1 hk; omega)
    rw [offset_length] at hle
    rw [decide_eq_true_eq]
    omega
  simp only [locate, hall, length_offsets, Nat.add_sub_cancel]

/-! ## Grouping -/

section Grouped

variable [DecidableEq κ]

/-- The elements of a list under each key. -/
def grouped (keys : List κ) (key : α → κ) (l : List α) : List (List α) :=
  keys.map fun k => l.filter fun a => decide (key a = k)

lemma getElem?_grouped {keys : List κ} {key : α → κ} {l : List α} {i : ℕ} {k : κ}
    (h : keys[i]? = some k) :
    (grouped keys key l)[i]? = some (l.filter fun a => decide (key a = k)) := by
  rw [grouped, List.getElem?_map, h, Option.map_some]

/-- Filing under keys that are all there, once each, keeps every element once. -/
lemma flatten_grouped_perm {keys : List κ} (hkeys : keys.Nodup) {key : α → κ} {l : List α}
    (hl : ∀ a ∈ l, key a ∈ keys) : (grouped keys key l).flatten.Perm l := by
  induction keys generalizing l with
  | nil =>
    have hnil : l = [] := List.eq_nil_iff_forall_not_mem.2 fun a ha => by simpa using hl a ha
    subst hnil
    simp [grouped]
  | cons k keys ih =>
    obtain ⟨hk, hkeys⟩ := List.nodup_cons.1 hkeys
    -- the elements under other keys are those not under the first
    let rest := l.filter fun a => !decide (key a = k)
    have hrest : grouped keys key l = grouped keys key rest := by
      refine List.map_congr_left fun k' hk' => ?_
      rw [List.filter_filter]
      refine List.filter_congr fun a _ => ?_
      by_cases ha : key a = k'
      · have hne : key a ≠ k := fun heq => hk (heq ▸ ha ▸ hk')
        simp [ha, ha ▸ hne]
      · simp [ha]
    have hmem : ∀ a ∈ rest, key a ∈ keys := by
      intro a ha
      obtain ⟨hal, hne⟩ := List.mem_filter.1 ha
      rcases List.mem_cons.1 (hl a hal) with heq | hmem
      · simp [heq] at hne
      · exact hmem
    show ((l.filter fun a => decide (key a = k)) ++ (grouped keys key l).flatten).Perm l
    rw [hrest]
    refine ((ih hkeys hmem).append_left _).trans ?_
    exact List.filter_append_perm _ l

end Grouped

/-- Buckets whose entries carry the number of their bucket. -/
lemma filter_flatten_range {bucket : ℕ → List α} {key : α → ℕ} {n t : ℕ}
    (h : ∀ i < n, ∀ a ∈ bucket i, key a = i) :
    (((List.range n).map bucket).flatten.filter fun a => decide (key a = t)) =
      if t < n then bucket t else [] := by
  induction n with
  | zero => simp
  | succ n ih =>
    rw [List.range_succ, List.map_append, List.flatten_append, List.filter_append,
      ih fun i hi => h i (by omega), List.map_singleton, List.flatten_singleton]
    rcases Nat.lt_trichotomy t n with hlt | rfl | hgt
    · have hnone : (bucket n).filter (fun a => decide (key a = t)) = [] :=
        List.filter_eq_nil_iff.2 fun a ha => by simp [h n (by omega) a ha, hlt.ne']
      rw [hnone, if_pos hlt, if_pos (by omega), List.append_nil]
    · have hall : (bucket t).filter (fun a => decide (key a = t)) = bucket t :=
        List.filter_eq_self.2 fun a ha => by simp [h t (by omega) a ha]
      rw [hall, if_neg (by omega), if_pos (by omega), List.nil_append]
    · have hnone : (bucket n).filter (fun a => decide (key a = t)) = [] :=
        List.filter_eq_nil_iff.2 fun a ha => by simp [h n (by omega) a ha, hgt.ne]
      rw [hnone, if_neg (by omega), if_neg (by omega), List.append_nil]

/-- A list without a smaller key begins with the group of the least one. -/
lemma filter_append_filter_of_sorted {key : α → ℕ} {k : ℕ} {l : List α} (hl : ∀ a ∈ l, k ≤ key a)
    (hsorted : l.Pairwise fun a b => key a ≤ key b) :
    (l.filter fun a => decide (key a = k)) ++ (l.filter fun a => !decide (key a = k)) = l := by
  induction l with
  | nil => rfl
  | cons a l ih =>
    obtain ⟨hhead, htail⟩ := List.pairwise_cons.1 hsorted
    by_cases ha : key a = k
    · simp only [ha, decide_true, List.filter_cons_of_pos, Bool.not_true, Bool.false_eq_true,
        not_false_eq_true, List.filter_cons_of_neg, List.cons_append]
      rw [ih (fun b hb => hl b (by simp [hb])) htail]
    · have hnone : ∀ b ∈ a :: l, key b ≠ k := by
        intro b hb
        have hka := hl a (by simp)
        rcases List.mem_cons.1 hb with rfl | hb
        · exact ha
        · have := hhead b hb
          omega
      rw [List.filter_eq_nil_iff.2 fun b hb => by simpa using hnone b hb, List.nil_append]
      exact List.filter_eq_self.2 fun b hb => by simpa using hnone b hb

/-- A list in the order of its keys is its groups one after another. -/
lemma flatten_grouped_of_sorted {keys : List ℕ} (hkeys : keys.Pairwise (· < ·)) {key : α → ℕ}
    {l : List α} (hl : ∀ a ∈ l, key a ∈ keys) (hsorted : l.Pairwise fun a b => key a ≤ key b) :
    (grouped keys key l).flatten = l := by
  induction keys generalizing l with
  | nil =>
    have hnil : l = [] := List.eq_nil_iff_forall_not_mem.2 fun a ha => by simpa using hl a ha
    subst hnil
    simp [grouped]
  | cons k keys ih =>
    obtain ⟨hleast, hkeys⟩ := List.pairwise_cons.1 hkeys
    have hge : ∀ a ∈ l, k ≤ key a := by
      intro a ha
      rcases List.mem_cons.1 (hl a ha) with heq | hmem
      · exact heq.ge
      · exact (hleast _ hmem).le
    have hrest := ih hkeys (l := l.filter fun a => !decide (key a = k)) ?_ (hsorted.filter _)
    · have hgroups : grouped keys key l =
          grouped keys key (l.filter fun a => !decide (key a = k)) := by
        refine List.map_congr_left fun k' hk' => ?_
        rw [List.filter_filter]
        refine List.filter_congr fun a _ => ?_
        have hne := (hleast k' hk').ne'
        by_cases ha : key a = k'
        · simp [ha, hne]
        · simp [ha]
      show (l.filter fun a => decide (key a = k)) ++ (grouped keys key l).flatten = l
      rw [hgroups, hrest]
      exact filter_append_filter_of_sorted hge hsorted
    · intro a ha
      obtain ⟨hal, hne⟩ := List.mem_filter.1 ha
      rcases List.mem_cons.1 (hl a hal) with heq | hmem
      · simp [heq] at hne
      · exact hmem

/-- Smaller terms with the same sum are the same terms. -/
lemma eq_of_sum_eq {f g : α → ℕ} {l : List α} (hle : ∀ a ∈ l, f a ≤ g a)
    (hsum : (l.map f).sum = (l.map g).sum) : ∀ a ∈ l, f a = g a := by
  induction l with
  | nil => exact nofun
  | cons a l ih =>
    rw [List.map_cons, List.sum_cons, List.map_cons, List.sum_cons] at hsum
    have hrest := List.sum_le_sum (f := f) (g := g) fun b (hb : b ∈ l) => hle b (by simp [hb])
    have hhead := hle a (by simp)
    intro b hb
    rcases List.mem_cons.1 hb with rfl | hb
    · omega
    · exact ih (fun b hb => hle b (by simp [hb])) (by omega) b hb

/-- Two arrangements of the same boxes that show the same items, no item twice, are one. -/
lemma eq_of_flatMap_eq {items : α → List β} {l l' : List α} (hperm : l'.Perm l)
    (hne : ∀ a ∈ l, items a ≠ []) (hnodup : (l.flatMap items).Nodup)
    (h : l'.flatMap items = l.flatMap items) : l' = l := by
  induction l generalizing l' with
  | nil => exact hperm.eq_nil
  | cons a l ih =>
    rcases l' with _ | ⟨a', l'⟩
    · exact absurd hperm.symm.eq_nil (by simp)
    · rw [List.flatMap_cons, List.flatMap_cons] at h
      obtain ⟨x, xs, hx⟩ := List.exists_cons_of_ne_nil (hne a (by simp))
      have hmem : a' ∈ a :: l := hperm.mem_iff.1 (by simp)
      obtain ⟨x', xs', hx'⟩ := List.exists_cons_of_ne_nil (hne a' hmem)
      have hxx : x' = x := by
        rw [hx, hx'] at h
        exact (List.cons.inj h).1
      rw [List.flatMap_cons] at hnodup
      obtain ⟨-, hrest, hdisjoint⟩ := List.nodup_append.1 hnodup
      -- the first item tells the first box
      have haa : a' = a := by
        rcases List.mem_cons.1 hmem with heq | hmem
        · exact heq
        · have hleft : x ∈ items a := by simp [hx]
          have hright : x ∈ l.flatMap items := List.mem_flatMap.2 ⟨a', hmem, by simp [hx', hxx]⟩
          exact absurd rfl (hdisjoint x hleft x hright)
      subst haa
      rw [ih hperm.cons_inv (fun b hb => hne b (by simp [hb])) hrest
        (List.append_cancel_left h)]

end Csr

end PathHydra
