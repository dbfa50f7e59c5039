import Mathlib.Algebra.Order.Ring.Nat
import Mathlib.Data.List.Nodup
import Mathlib.Order.Defs.LinearOrder
import Mathlib.Tactic.Common

/-!
# Binary search

The search of a slice that always halves its window and compares for equality only at the end.
The list need not be sorted: `sliceSearch_eq_some` says exactly when a value is found.  On its way
to a place the search compares at certain other places (`probes`, which depend on the number of
elements alone), and it arrives there if each of these comparisons points towards the place.
-/

namespace PathHydra

/-- Halves a window, towards its front when the element in the middle is greater, until one place
is left. -/
def narrow (greater : ℕ → Bool) : ℕ → ℕ → ℕ → ℕ
  | 0, base, _ => base
  | fuel + 1, base, size =>
    if 1 < size then
      narrow greater fuel (if greater (base + size / 2) then base else base + size / 2)
        (size - size / 2)
    else base

/-- The places in the middle of the windows that hold a place. -/
def probes (i : ℕ) : ℕ → ℕ → ℕ → List ℕ
  | 0, _, _ => []
  | fuel + 1, base, size =>
    if 1 < size then
      (base + size / 2) :: probes i fuel (if i < base + size / 2 then base else base + size / 2)
        (size - size / 2)
    else []

section Narrow

variable {greater : ℕ → Bool}

/-- The place that is left lies in the window, and its element is not greater unless it is the
first one. -/
lemma narrow_bounds {fuel base size : ℕ} (hsize : 0 < size) :
    base ≤ narrow greater fuel base size ∧ narrow greater fuel base size < base + size ∧
      (narrow greater fuel base size = base ∨
        greater (narrow greater fuel base size) = false) := by
  induction fuel generalizing base size with
  | zero => exact ⟨le_rfl, by simp [narrow, hsize], .inl rfl⟩
  | succ fuel ih =>
    rw [narrow]
    split_ifs with hone hmiddle
    · obtain ⟨hle, hlt, hlast⟩ := @ih base _ (show 0 < size - size / 2 by omega)
      exact ⟨hle, by omega, hlast⟩
    · obtain ⟨hle, hlt, hlast⟩ := @ih (base + size / 2) _ (show 0 < size - size / 2 by omega)
      refine ⟨by omega, by omega, .inr ?_⟩
      rcases hlast with heq | hlast
      · rw [heq]
        simpa using hmiddle
      · exact hlast
    · exact ⟨le_rfl, by omega, .inl rfl⟩

/-- The search arrives at a place exactly when every comparison on the way points towards it. -/
lemma narrow_eq_iff {i fuel base size : ℕ} (hle : base ≤ i) (hlt : i < base + size)
    (hfuel : size ≤ fuel + 1) :
    narrow greater fuel base size = i ↔
      ∀ m ∈ probes i fuel base size, greater m = decide (i < m) := by
  induction fuel generalizing base size with
  | zero =>
    have hbase : base = i := by omega
    simp [narrow, probes, hbase]
  | succ fuel ih =>
    rw [narrow, probes]
    split_ifs with hone hmiddle hbefore hbefore
    · rw [ih hle (by omega) (by omega), List.forall_mem_cons]
      simp [hmiddle, hbefore]
    · -- the window moves to the front and the place lies in the back
      obtain ⟨-, hend, hlast⟩ := @narrow_bounds greater fuel base _
        (show 0 < size - size / 2 by omega)
      refine iff_of_false (fun heq => ?_) fun hall => ?_
      · have hplace : i = base + size / 2 := by omega
        rw [heq] at hlast
        rcases hlast with hlast | hlast
        · omega
        · rw [hplace, hmiddle] at hlast
          cases hlast
      · have hfirst := hall (base + size / 2) (by simp)
        rw [hmiddle, eq_comm, decide_eq_true_eq] at hfirst
        exact hbefore hfirst
    · -- the window moves to the back and the place lies in the front
      obtain ⟨hstart, -, -⟩ := @narrow_bounds greater fuel
        (base + size / 2) _ (show 0 < size - size / 2 by omega)
      refine iff_of_false (by omega) fun hall => ?_
      have hfirst := hall (base + size / 2) (by simp)
      rw [decide_eq_true hbefore] at hfirst
      exact hmiddle hfirst
    · rw [ih (by omega) (by omega) (by omega), List.forall_mem_cons]
      simp [hmiddle, hbefore]
    · have hbase : base = i := by omega
      simp [hbase]

end Narrow

/-! ## Lists -/

section Lists

variable {α : Type*} [LinearOrder α]

/-- The element at a place is greater than the value. -/
def greaterAt (xs : List α) (x : α) (m : ℕ) : Bool := xs[m]?.any fun y => decide (x < y)

/-- `binary_search` of a slice. -/
def sliceSearch (xs : List α) (x : α) : Option ℕ :=
  let base := narrow (greaterAt xs x) xs.length 0 xs.length
  if xs[base]? = some x then some base else none

/-- The places that are compared on the way to a place of a list. -/
def probesOf (xs : List α) (i : ℕ) : List ℕ := probes i xs.length 0 xs.length

lemma sliceSearch_eq_some {xs : List α} {x : α} {i : ℕ} :
    sliceSearch xs x = some i ↔
      xs[i]? = some x ∧ ∀ m ∈ probesOf xs i, greaterAt xs x m = decide (i < m) := by
  rw [sliceSearch]
  constructor
  · intro h
    split_ifs at h with hfound
    obtain rfl := Option.some.inj h
    have hlt := (List.getElem?_eq_some_iff.1 hfound).1
    exact ⟨hfound, (narrow_eq_iff (Nat.zero_le _) (by omega) (by omega)).1 rfl⟩
  · rintro ⟨hfound, hall⟩
    have hlt := (List.getElem?_eq_some_iff.1 hfound).1
    have harrives := (narrow_eq_iff (Nat.zero_le i) (by omega) (by omega)).2 hall
    rw [harrives, if_pos hfound]

lemma sliceSearch_mem {xs : List α} {x : α} (h : (sliceSearch xs x).isSome = true) : x ∈ xs := by
  obtain ⟨i, hi⟩ := Option.isSome_iff_exists.1 h
  exact List.mem_of_getElem? (sliceSearch_eq_some.1 hi).1

lemma probes_lt {i fuel base size m : ℕ} (hm : m ∈ probes i fuel base size) : m < base + size := by
  induction fuel generalizing base size with
  | zero => cases hm
  | succ fuel ih =>
    rw [probes] at hm
    split_ifs at hm with hone hbefore
    · rcases List.mem_cons.1 hm with rfl | hm
      · omega
      · have := ih hm
        omega
    · rcases List.mem_cons.1 hm with rfl | hm
      · omega
      · have := ih hm
        omega
    · cases hm

/-- A value of a list without repetitions is found exactly when the elements compared on the way to
it stand on their sides of it. -/
lemma sliceSearch_isSome_iff {xs : List α} (hnodup : xs.Nodup) {x : α} {i : ℕ}
    (hi : xs[i]? = some x) : (sliceSearch xs x).isSome = true ↔
      ∀ m ∈ probesOf xs i, ∀ y, xs[m]? = some y → (m < i → y < x) ∧ (i < m → x < y) := by
  have hplace : (sliceSearch xs x).isSome = true ↔ sliceSearch xs x = some i := by
    refine ⟨fun h => ?_, fun h => by rw [h]; rfl⟩
    obtain ⟨j, hj⟩ := Option.isSome_iff_exists.1 h
    have hsame := (sliceSearch_eq_some.1 hj).1
    rw [hj, (List.getElem?_inj (List.getElem?_eq_some_iff.1 hsame).1 hnodup).1 (hsame.trans hi.symm)]
  rw [hplace, sliceSearch_eq_some, and_iff_right hi]
  refine forall₂_congr fun m hm => ?_
  have hlt : m < xs.length := by
    have := probes_lt hm
    omega
  obtain ⟨y, hy⟩ : ∃ y, xs[m]? = some y := ⟨_, List.getElem?_eq_getElem hlt⟩
  have hne : m ≠ i → y ≠ x := by
    rintro hmi rfl
    exact hmi ((List.getElem?_inj hlt hnodup).1 (hy.trans hi.symm))
  simp only [greaterAt, hy, Option.any_some, Option.some.injEq, forall_eq']
  rcases lt_trichotomy m i with hlt' | rfl | hlt'
  · simp only [hlt', not_lt.2 hlt'.le, decide_false, decide_eq_false_iff_not, not_lt, true_imp_iff,
      false_imp_iff, and_true]
    exact ⟨fun h => lt_of_le_of_ne h (hne hlt'.ne), le_of_lt⟩
  · obtain rfl := Option.some.inj (hy.symm.trans hi)
    simp
  · simp [hlt', not_lt.2 hlt'.le]

end Lists

end PathHydra
