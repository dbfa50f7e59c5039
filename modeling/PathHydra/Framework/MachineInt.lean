import Mathlib.Algebra.Order.Ring.Nat
import Mathlib.Order.Lattice
import Mathlib.Order.Fin.Basic
import Mathlib.Tactic.Common

/-!
# Fixed-width machine integers

The program counts, names and addresses everything with unsigned machine integers.  This file
fixes the two widths it stores (`U32`, `U64`) as bounded naturals, so that a value out of range
cannot be written down, and the checked additions it performs on counters.

A quantity that the program only ever compares or indexes with is a plain `ℕ` in the model;
`checkedAdd64` is the addition such a counter goes through where the program checks for overflow.
-/

namespace PathHydra

/-- A 32-bit unsigned integer. -/
abbrev U32 := Fin (2 ^ 32)

/-- A 64-bit unsigned integer. -/
abbrev U64 := Fin (2 ^ 64)

instance neZeroU32 : NeZero (2 ^ 32) := ⟨by decide⟩

instance neZeroU64 : NeZero (2 ^ 64) := ⟨by decide⟩

/-- The largest 64-bit value; `usize` has the same width on the targets the program supports. -/
def u64Max : ℕ := 2 ^ 64 - 1

/-- `checked_add` on a 64-bit counter kept as a natural. -/
def checkedAdd64 (a b : ℕ) : Option ℕ :=
  if a + b < 2 ^ 64 then some (a + b) else none

/-- `checked_mul` on a 64-bit counter kept as a natural. -/
def checkedMul64 (a b : ℕ) : Option ℕ :=
  if a * b < 2 ^ 64 then some (a * b) else none

/-- `checked_sub` on a 64-bit counter kept as a natural. -/
def checkedSub64 (a b : ℕ) : Option ℕ :=
  if b ≤ a then some (a - b) else none

/-- `saturating_add` on a 64-bit counter. -/
def saturatingAdd64 (a b : ℕ) : ℕ := min (a + b) u64Max

/-- `saturating_mul` on a 64-bit counter. -/
def saturatingMul64 (a b : ℕ) : ℕ := min (a * b) u64Max

lemma checkedAdd64_eq_some {a b c : ℕ} :
    checkedAdd64 a b = some c ↔ a + b < 2 ^ 64 ∧ c = a + b := by
  unfold checkedAdd64
  split <;> rename_i h
  · rw [Option.some.injEq, and_iff_right h, eq_comm]
  · simp only [reduceCtorEq, h, false_and]

lemma checkedAdd64_eq_none {a b : ℕ} : checkedAdd64 a b = none ↔ 2 ^ 64 ≤ a + b := by
  unfold checkedAdd64
  split <;> rename_i h
  · simpa using h
  · simpa using h

lemma checkedMul64_eq_some {a b c : ℕ} :
    checkedMul64 a b = some c ↔ a * b < 2 ^ 64 ∧ c = a * b := by
  unfold checkedMul64
  split <;> rename_i h
  · rw [Option.some.injEq, and_iff_right h, eq_comm]
  · simp only [reduceCtorEq, h, false_and]

/-- `checked_add` on a stored 64-bit counter. -/
def U64.checkedAdd (a b : U64) : Option U64 :=
  if h : a.val + b.val < 2 ^ 64 then some ⟨a.val + b.val, h⟩ else none

/-- `checked_sub` on a stored 64-bit counter. -/
def U64.checkedSub (a b : U64) : Option U64 :=
  if b.val ≤ a.val then some ⟨a.val - b.val, by omega⟩ else none

lemma U64.checkedAdd_eq_some {a b c : U64} :
    a.checkedAdd b = some c ↔ a.val + b.val = c.val := by
  unfold U64.checkedAdd
  split <;> rename_i h
  · simp [Fin.ext_iff]
  · simp only [reduceCtorEq, false_iff]
    have := c.isLt
    omega

lemma U64.checkedSub_eq_some {a b c : U64} :
    a.checkedSub b = some c ↔ b.val + c.val = a.val := by
  unfold U64.checkedSub
  split <;> rename_i h
  · simp only [Option.some.injEq, Fin.ext_iff]
    omega
  · simp only [reduceCtorEq, false_iff]
    omega

end PathHydra
