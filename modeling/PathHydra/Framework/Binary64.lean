import Mathlib.Order.Lattice
import Mathlib.Data.Nat.Log
import Mathlib.Tactic.Common
import Mathlib.Tactic.NormNum
import PathHydra.Framework.MachineInt

/-!
# Nonnegative binary64 arithmetic

`Binary64 F` is what a search over floating-point distances may use of its distance type: a total
order with a least element, a widening of binary32 operands, a product, and a sum that is monotone
in each argument and never below its left argument.  Neither associativity nor strictness is part
of it, because rounding destroys both.  Infinity belongs to the type; `isFinite` tells it apart.
`WideRange F` is the law of the exponents: sums of products of binary32 operands stay finite.

The second half of the file is the arithmetic itself.  Every finite nonnegative binary64 value is
a multiple of `2⁻¹⁰⁷⁴`, so `SoftBinary64` stores the multiple as a natural number, infinity being
`2²⁰⁹⁸`, and rounds to 53 significant bits, ties to even.  The instance at the end shows that the
laws are those of the real format.
-/

namespace PathHydra

/-- Nonnegative binary64 values, infinity included, with the order and the laws that rounding
leaves intact. -/
class Binary64 (F : Type*) extends LinearOrder F, Zero F, Add F, Mul F where
  /-- The exact widening of a nonnegative binary32 bit pattern. -/
  ofBinary32 : U32 → F
  isFinite : F → Bool
  zero_le : ∀ a : F, 0 ≤ a
  isFinite_zero : isFinite 0 = true
  isFinite_of_le : ∀ {a b : F}, a ≤ b → isFinite b = true → isFinite a = true
  add_le_add : ∀ {a b c d : F}, a ≤ b → c ≤ d → a + c ≤ b + d
  le_self_add : ∀ a b : F, a ≤ a + b

/-- The range of binary64 against that of binary32: a product of two finite binary32 values is
finite, and so is a finite value with such a product added to it. -/
class WideRange (F : Type*) [Binary64 F] : Prop where
  isFinite_mul : ∀ {a b : U32}, a.val < 0x7F800000 → b.val < 0x7F800000 →
    Binary64.isFinite (Binary64.ofBinary32 a * Binary64.ofBinary32 b : F) = true
  isFinite_add_mul : ∀ {a b : U32} {c : F}, a.val < 0x7F800000 → b.val < 0x7F800000 →
    Binary64.isFinite c = true →
      Binary64.isFinite (c + Binary64.ofBinary32 a * Binary64.ofBinary32 b) = true

/-! ## Rounding to nearest, ties to even -/

/-- Division rounded to the nearest integer, ties to the even quotient. -/
def rneDiv (n d : ℕ) : ℕ :=
  if 2 * (n % d) < d ∨ (2 * (n % d) = d ∧ n / d % 2 = 0) then n / d else n / d + 1

lemma rneDiv_mono {n m d : ℕ} (h : n ≤ m) : rneDiv n d ≤ rneDiv m d := by
  have hq : n / d ≤ m / d := Nat.div_le_div_right h
  rcases hq.lt_or_eq with hlt | heq
  · unfold rneDiv
    split <;> split <;> omega
  · have hn := Nat.div_add_mod n d
    have hm := Nat.div_add_mod m d
    rw [heq] at hn
    have hr : n % d ≤ m % d := by omega
    unfold rneDiv
    rw [heq]
    split <;> split <;> omega

lemma rneDiv_mul_right {d : ℕ} (hd : 0 < d) (q : ℕ) : rneDiv (q * d) d = q := by
  simp [rneDiv, Nat.mul_div_cancel q hd, hd]

/-- `n · 2⁻ˢ` rounded to 53 significant bits and to a whole number. -/
def roundUnits (s n : ℕ) : ℕ :=
  rneDiv n (2 ^ max s (n.log2 - 52)) * 2 ^ (max s (n.log2 - 52) - s)

/-- Magnitudes with at most 53 significant bits. -/
def Representable (n : ℕ) : Prop := ∃ m q, m ≤ 2 ^ 53 ∧ n = m * 2 ^ q

lemma representable_two_pow (e : ℕ) : Representable (2 ^ e) :=
  ⟨1, e, Nat.one_le_two_pow, (one_mul _).symm⟩

lemma roundUnits_mono (s : ℕ) {n m : ℕ} (h : n ≤ m) : roundUnits s n ≤ roundUnits s m := by
  rcases Nat.eq_zero_or_pos n with rfl | hn
  · simp [roundUnits, rneDiv]
  have hm : m ≠ 0 := by omega
  have hlog : n.log2 ≤ m.log2 := (Nat.le_log2 hm).2 ((Nat.log2_self_le hn.ne').trans h)
  set kn := max s (n.log2 - 52) with hkn
  set km := max s (m.log2 - 52) with hkm
  have hk : kn ≤ km := by omega
  rcases hk.eq_or_lt with heq | hlt
  · unfold roundUnits
    rw [← hkn, ← hkm, heq]
    exact Nat.mul_le_mul_right _ (rneDiv_mono h)
  · -- the two operands lie on either side of the power `2 ^ (km + 52)`
    have hkm' : km = m.log2 - 52 := by omega
    have hnlt : n ≤ 2 ^ (km + 52) := by
      have : n < 2 ^ (n.log2 + 1) := Nat.lt_log2_self
      exact this.le.trans (Nat.pow_le_pow_right (by norm_num) (by omega))
    have hmge : 2 ^ (km + 52) ≤ m := by
      have : 2 ^ m.log2 ≤ m := Nat.log2_self_le hm
      exact (Nat.pow_le_pow_right (by norm_num) (by omega)).trans this
    have hlow : rneDiv n (2 ^ kn) ≤ 2 ^ (km + 52 - kn) := by
      have hsplit : 2 ^ (km + 52) = 2 ^ (km + 52 - kn) * 2 ^ kn := by
        rw [← pow_add]; congr 1; omega
      calc rneDiv n (2 ^ kn) ≤ rneDiv (2 ^ (km + 52)) (2 ^ kn) := rneDiv_mono hnlt
        _ = 2 ^ (km + 52 - kn) := by rw [hsplit, rneDiv_mul_right (Nat.two_pow_pos _)]
    have hhigh : 2 ^ 52 ≤ rneDiv m (2 ^ km) := by
      have hsplit : 2 ^ (km + 52) = 2 ^ 52 * 2 ^ km := by
        rw [← pow_add]; congr 1; omega
      calc 2 ^ 52 = rneDiv (2 ^ (km + 52)) (2 ^ km) := by
            rw [hsplit, rneDiv_mul_right (Nat.two_pow_pos _)]
        _ ≤ rneDiv m (2 ^ km) := rneDiv_mono hmge
    calc roundUnits s n = rneDiv n (2 ^ kn) * 2 ^ (kn - s) := rfl
      _ ≤ 2 ^ (km + 52 - kn) * 2 ^ (kn - s) := Nat.mul_le_mul_right _ hlow
      _ = 2 ^ 52 * 2 ^ (km - s) := by
        rw [← pow_add, ← pow_add]; congr 1; omega
      _ ≤ rneDiv m (2 ^ km) * 2 ^ (km - s) := Nat.mul_le_mul_right _ hhigh
      _ = roundUnits s m := rfl

lemma representable_roundUnits (s n : ℕ) : Representable (roundUnits s n) := by
  refine ⟨rneDiv n (2 ^ max s (n.log2 - 52)), _, ?_, rfl⟩
  set k := max s (n.log2 - 52) with hk
  have hn : n ≤ 2 ^ 53 * 2 ^ k := by
    have : n < 2 ^ (n.log2 + 1) := Nat.lt_log2_self
    rw [← pow_add]
    exact this.le.trans (Nat.pow_le_pow_right (by norm_num) (by omega))
  calc rneDiv n (2 ^ k) ≤ rneDiv (2 ^ 53 * 2 ^ k) (2 ^ k) := rneDiv_mono hn
    _ = 2 ^ 53 := rneDiv_mul_right (Nat.two_pow_pos _) _

/-- A representable magnitude is its own rounding. -/
lemma roundUnits_of_representable {n : ℕ} (h : Representable n) : roundUnits 0 n = n := by
  have hdvd : 2 ^ (n.log2 - 52) ∣ n := by
    obtain ⟨m, q, hm, rfl⟩ := h
    rcases Nat.eq_zero_or_pos m with rfl | hpos
    · simp
    have hlog : (m * 2 ^ q).log2 ≤ 53 + q := by
      have hle : m * 2 ^ q ≤ 2 ^ (53 + q) := by
        rw [pow_add]; exact Nat.mul_le_mul_right _ hm
      have hne : m * 2 ^ q ≠ 0 := (Nat.mul_pos hpos (Nat.two_pow_pos q)).ne'
      exact (Nat.pow_le_pow_iff_right (by norm_num)).1 ((Nat.log2_self_le hne).trans hle)
    rcases hm.lt_or_eq with hlt | rfl
    · have hlog' : (m * 2 ^ q).log2 < 53 + q := by
        have hne : m * 2 ^ q ≠ 0 := (Nat.mul_pos hpos (Nat.two_pow_pos q)).ne'
        rw [Nat.log2_lt hne, pow_add]
        exact Nat.mul_lt_mul_of_pos_right hlt (Nat.two_pow_pos q)
      exact (Nat.pow_dvd_pow 2 (by omega)).trans (Nat.dvd_mul_left _ _)
    · rw [← pow_add] at hlog ⊢
      exact Nat.pow_dvd_pow 2 (by omega)
  have hround : roundUnits 0 n = rneDiv n (2 ^ (n.log2 - 52)) * 2 ^ (n.log2 - 52) := by
    simp [roundUnits]
  obtain ⟨q, hq⟩ := hdvd
  generalize n.log2 - 52 = k at hround hq
  rw [hround, hq, mul_comm (2 ^ k) q, rneDiv_mul_right (Nat.two_pow_pos k)]

/-! ## The format -/

/-- Infinity in units of `2⁻¹⁰⁷⁴`: the first power of two past the finite range. -/
def infinityUnits : ℕ := 2 ^ 2098

lemma infinityUnits_pos : 0 < infinityUnits := by
  unfold infinityUnits
  exact pow_pos (by decide) _

lemma representable_min_infinity {n : ℕ} (h : Representable n) :
    Representable (min n infinityUnits) := by
  rcases min_choice n infinityUnits with hmin | hmin
  · rwa [hmin]
  · rw [hmin]; exact representable_two_pow _

/-- A nonnegative binary64 value: a representable multiple of `2⁻¹⁰⁷⁴`, or infinity. -/
structure SoftBinary64 where
  units : ℕ
  representable : Representable units
  le_infinity : units ≤ infinityUnits

namespace SoftBinary64

/-- Rounds a multiple of `2⁻¹⁰⁷⁴⁻ˢ` into the format, overflowing to infinity. -/
def round (s n : ℕ) : SoftBinary64 where
  units := min (roundUnits s n) infinityUnits
  representable := representable_min_infinity (representable_roundUnits s n)
  le_infinity := min_le_right _ _

lemma units_injective : Function.Injective SoftBinary64.units := by
  rintro ⟨a, _, _⟩ ⟨b, _, _⟩ h
  cases h
  rfl

instance : DecidableEq SoftBinary64 := fun a b =>
  decidable_of_iff (a.units = b.units) units_injective.eq_iff

instance : LinearOrder SoftBinary64 := LinearOrder.lift' units units_injective

lemma le_def {a b : SoftBinary64} : a ≤ b ↔ a.units ≤ b.units := Iff.rfl

instance : Zero SoftBinary64 := ⟨⟨0, ⟨0, 0, by simp⟩, Nat.zero_le _⟩⟩

instance : Add SoftBinary64 := ⟨fun a b => round 0 (a.units + b.units)⟩

instance : Mul SoftBinary64 := ⟨fun a b => round 1074 (a.units * b.units)⟩

/-- The value of a nonnegative binary32 bit pattern: 23 fraction bits below 8 exponent bits,
with the smallest subnormal `2⁻¹⁴⁹` at `2⁹²⁵` units. -/
def ofBinary32 (bits : U32) : SoftBinary64 :=
  let exponent := bits.val / 2 ^ 23 % 256
  let fraction := bits.val % 2 ^ 23
  if exponent = 0 then round 0 (fraction * 2 ^ 925)
  else if exponent = 255 then round 0 infinityUnits
  else round 0 ((2 ^ 23 + fraction) * 2 ^ (exponent - 1 + 925))

/-- The finite values are those below the first power of two past the range. -/
def isFinite (a : SoftBinary64) : Bool := decide (a.units < infinityUnits)

instance : Binary64 SoftBinary64 where
  ofBinary32 := ofBinary32
  isFinite := isFinite
  zero_le a := Nat.zero_le a.units
  isFinite_zero := decide_eq_true infinityUnits_pos
  isFinite_of_le {a b} hab hb := by
    simp only [isFinite, decide_eq_true_eq] at hb ⊢
    exact lt_of_le_of_lt (le_def.1 hab) hb
  add_le_add {a b c d} hab hcd :=
    min_le_min_right _ (roundUnits_mono 0 (Nat.add_le_add (le_def.1 hab) (le_def.1 hcd)))
  le_self_add a b := by
    refine le_min ?_ a.le_infinity
    calc a.units = roundUnits 0 a.units := (roundUnits_of_representable a.representable).symm
      _ ≤ roundUnits 0 (a.units + b.units) := roundUnits_mono 0 (Nat.le_add_right _ _)

/-! ## Its range -/

lemma units_round_le {s n m : ℕ} (h : n ≤ m) : (round s n).units ≤ roundUnits s m :=
  (min_le_left _ _).trans (roundUnits_mono s h)

lemma two_pow_mul_le {a b c : ℕ} (h : a + b ≤ c) : 2 ^ a * 2 ^ b ≤ 2 ^ c := by
  rw [← pow_add]
  exact Nat.pow_le_pow_right (by norm_num) h

/-- A finite binary32 value is at most `2¹²⁸`. -/
lemma units_ofBinary32_le {bits : U32} (h : bits.val < 0x7F800000) :
    (ofBinary32 bits).units ≤ 2 ^ 1202 := by
  have hround : ∀ n ≤ 2 ^ 1202, (round 0 n).units ≤ 2 ^ 1202 := fun n hn =>
    (units_round_le hn).trans (roundUnits_of_representable (representable_two_pow _)).le
  have hexponent : bits.val / 2 ^ 23 % 256 ≤ 254 := by omega
  have hfraction : bits.val % 2 ^ 23 < 2 ^ 23 := Nat.mod_lt _ (by norm_num)
  unfold ofBinary32
  dsimp only
  generalize bits.val / 2 ^ 23 % 256 = exponent at hexponent ⊢
  generalize bits.val % 2 ^ 23 = fraction at hfraction ⊢
  split_ifs with h₁ h₂
  · apply hround
    calc fraction * 2 ^ 925 ≤ 2 ^ 23 * 2 ^ 925 := Nat.mul_le_mul_right _ hfraction.le
      _ ≤ 2 ^ 1202 := two_pow_mul_le (by norm_num)
  · omega
  · apply hround
    calc (2 ^ 23 + fraction) * 2 ^ (exponent - 1 + 925) ≤ 2 ^ 24 * 2 ^ 1178 :=
          Nat.mul_le_mul (by omega) (Nat.pow_le_pow_right (by norm_num) (by omega))
      _ ≤ 2 ^ 1202 := two_pow_mul_le (by norm_num)

/-- The product of two finite binary32 values is at most `2²⁵⁶`. -/
lemma units_mul_le {a b : U32} (ha : a.val < 0x7F800000) (hb : b.val < 0x7F800000) :
    (ofBinary32 a * ofBinary32 b).units ≤ 2 ^ 1330 := by
  have hround : roundUnits 1074 (2 ^ 2404) = 2 ^ 1330 := by decide +kernel
  have hle : (ofBinary32 a).units * (ofBinary32 b).units ≤ 2 ^ 2404 :=
    calc (ofBinary32 a).units * (ofBinary32 b).units ≤ 2 ^ 1202 * 2 ^ 1202 :=
          Nat.mul_le_mul (units_ofBinary32_le ha) (units_ofBinary32_le hb)
      _ ≤ 2 ^ 2404 := two_pow_mul_le (by norm_num)
  rw [← hround]
  exact units_round_le hle

lemma isFinite_iff {a : SoftBinary64} :
    Binary64.isFinite a = true ↔ a.units < infinityUnits := by
  show isFinite a = true ↔ _
  rw [isFinite, decide_eq_true_eq]

/-- The largest finite value. -/
def largestUnits : ℕ := (2 ^ 53 - 1) * 2 ^ 2045

lemma le_largestUnits {n : ℕ} (hn : Representable n) (hfinite : n < infinityUnits) :
    n ≤ largestUnits := by
  obtain ⟨m, q, hm, rfl⟩ := hn
  rcases le_or_gt 2045 q with hq | hq
  · obtain ⟨r, rfl⟩ := Nat.exists_eq_add_of_le hq
    have hsplit : m * 2 ^ (2045 + r) = m * 2 ^ r * 2 ^ 2045 := by
      rw [pow_add, ← mul_assoc, mul_right_comm]
    have hlimit : infinityUnits = 2 ^ 53 * 2 ^ 2045 := by
      rw [infinityUnits, ← pow_add]
    rw [hsplit, hlimit] at hfinite
    rw [hsplit]
    have hlt := lt_of_mul_lt_mul_right hfinite (Nat.zero_le _)
    exact Nat.mul_le_mul_right _ (by omega)
  · calc m * 2 ^ q ≤ 2 ^ 53 * 2 ^ 2044 :=
          Nat.mul_le_mul hm (Nat.pow_le_pow_right (by norm_num) (by omega))
      _ = 2 ^ 52 * 2 ^ 2045 := by decide +kernel
      _ ≤ largestUnits := Nat.mul_le_mul_right _ (by norm_num)

/-- A product of binary32 values is less than half of what separates the largest finite value from
infinity. -/
instance : WideRange SoftBinary64 where
  isFinite_mul ha hb := by
    rw [isFinite_iff]
    have hlimit : 2 ^ 1330 < infinityUnits := by decide +kernel
    exact (units_mul_le ha hb).trans_lt hlimit
  isFinite_add_mul {a b c} ha hb hc := by
    rw [isFinite_iff] at hc ⊢
    have hround : roundUnits 0 (largestUnits + 2 ^ 1330) = largestUnits := by decide +kernel
    have hlimit : largestUnits < infinityUnits := by decide +kernel
    have hle : c.units + (ofBinary32 a * ofBinary32 b).units ≤ largestUnits + 2 ^ 1330 :=
      Nat.add_le_add (le_largestUnits c.representable hc) (units_mul_le ha hb)
    refine lt_of_le_of_lt ?_ hlimit
    rw [← hround]
    exact units_round_le hle

end SoftBinary64

-- `1.0 + 2⁻⁵³` is a tie that rounds back to `1.0`, so an addition may absorb its right operand.
example : (SoftBinary64.round 0 (2 ^ 1074 + 2 ^ 1021)).units = 2 ^ 1074 := by decide +kernel

end PathHydra
