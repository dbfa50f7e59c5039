import Mathlib.Data.String.Basic
import Mathlib.Data.List.Lex
import Mathlib.Algebra.Order.Ring.Nat
import Mathlib.Tactic.Common
import Mathlib.Tactic.Ring

/-!
# Numerals as texts

Decimal numerals compared as texts.  Numerals of one length are ordered as their numbers; of two
numerals the longer one is cut to the length of the shorter one first (`toDigits_lt_iff`).  So the
order of texts agrees with the order of numbers exactly on the pairs `a < b` where `a` is at most
the number its own number of leading digits of `b` stands for (`LeadsUpTo`).

`hexDigits w n` is the hexadecimal numeral of a fixed width, which reads back
(`hexValue_hexDigits`).
-/

namespace PathHydra

/-! ## Digits -/

/-- The number a digit stands for is below ten. -/
lemma digit_lt {c : Char} (h : c.isDigit = true) : c.toNat - 48 < 10 := by
  simp only [Char.isDigit, Bool.and_eq_true, decide_eq_true_eq, ge_iff_le, UInt32.le_iff_toNat_le]
    at h
  have hle : c.toNat ≤ 57 := h.2
  omega

lemma digit_lt_digit {c d : Char} (hc : c.isDigit = true) : c < d → c.toNat - 48 < d.toNat - 48 := by
  simp only [Char.isDigit, Bool.and_eq_true, decide_eq_true_eq, ge_iff_le, UInt32.le_iff_toNat_le]
    at hc
  intro h
  have hle : 48 ≤ c.toNat := hc.1
  have hlt : c.toNat < d.toNat := h
  omega

lemma ofDigitChars_cons_zero (c : Char) (l : List Char) :
    Nat.ofDigitChars 10 (c :: l) 0 =
      10 ^ l.length * (c.toNat - 48) + Nat.ofDigitChars 10 l 0 := by
  rw [Nat.ofDigitChars_cons, Nat.ofDigitChars_eq_ofDigitChars_zero, Nat.mul_zero, Nat.zero_add]
  simp

lemma ofDigitChars_lt {l : List Char} (h : ∀ c ∈ l, c.isDigit = true) :
    Nat.ofDigitChars 10 l 0 < 10 ^ l.length := by
  induction l with
  | nil => simp
  | cons c l ih =>
    have hc := digit_lt (h c (by simp))
    have hl := ih fun d hd => h d (by simp [hd])
    rw [ofDigitChars_cons_zero, List.length_cons, pow_succ]
    calc 10 ^ l.length * (c.toNat - 48) + Nat.ofDigitChars 10 l 0
        < 10 ^ l.length * (c.toNat - 48) + 10 ^ l.length := by omega
      _ = 10 ^ l.length * (c.toNat - 48 + 1) := by ring
      _ ≤ 10 ^ l.length * 10 := Nat.mul_le_mul_left _ (by omega)

/-- Digit strings of one length are ordered as their numbers. -/
lemma ofDigitChars_lt_of_lt {l l' : List Char} (hlength : l.length = l'.length)
    (h : ∀ c ∈ l, c.isDigit = true) (h' : ∀ c ∈ l', c.isDigit = true) (hlt : l < l') :
    Nat.ofDigitChars 10 l 0 < Nat.ofDigitChars 10 l' 0 := by
  induction l generalizing l' with
  | nil =>
    rw [List.length_nil, eq_comm, List.length_eq_zero_iff] at hlength
    exact absurd hlt (by simp [hlength])
  | cons c l ih =>
    rcases l' with _ | ⟨d, l'⟩
    · simp at hlength
    have hlength' : l.length = l'.length := by simpa using hlength
    rw [ofDigitChars_cons_zero, ofDigitChars_cons_zero, hlength']
    rcases List.cons_lt_cons_iff.1 hlt with hcd | ⟨rfl, htail⟩
    · have hdigit := digit_lt_digit (h c (by simp)) hcd
      have hl : Nat.ofDigitChars 10 l 0 < 10 ^ l'.length := by
        rw [← hlength']
        exact ofDigitChars_lt fun e he => h e (by simp [he])
      calc 10 ^ l'.length * (c.toNat - 48) + Nat.ofDigitChars 10 l 0
          < 10 ^ l'.length * (c.toNat - 48) + 10 ^ l'.length := by omega
        _ = 10 ^ l'.length * (c.toNat - 48 + 1) := by ring
        _ ≤ 10 ^ l'.length * (d.toNat - 48) := Nat.mul_le_mul_left _ (by omega)
        _ ≤ _ := Nat.le_add_right _ _
    · have hrest := ih hlength' (fun e he => h e (by simp [he])) (fun e he => h' e (by simp [he]))
        htail
      omega

/-! ## Decimal numerals -/

/-- The number of decimal digits. -/
def digitCount (n : ℕ) : ℕ := (Nat.toDigits 10 n).length

lemma digitCount_pos (n : ℕ) : 0 < digitCount n := Nat.length_toDigits_pos

lemma isDigit_of_mem {n : ℕ} {c : Char} (h : c ∈ Nat.toDigits 10 n) : c.isDigit = true :=
  Nat.isDigit_of_mem_toDigits (by decide) (by decide) h

lemma toDigits_inj {a b : ℕ} (h : Nat.toDigits 10 a = Nat.toDigits 10 b) : a = b := by
  have hvalue := congrArg (Nat.ofDigitChars 10 · 0) h
  simpa using hvalue

lemma digitCount_mono {a b : ℕ} (h : a ≤ b) : digitCount a ≤ digitCount b := by
  rw [digitCount, Nat.length_toDigits_le_iff (by decide) (digitCount_pos b)]
  exact h.trans_lt ((Nat.length_toDigits_le_iff (by decide) (digitCount_pos b)).1 le_rfl)

/-- Numerals of one length are ordered as their numbers. -/
lemma toDigits_lt_iff_of_count {a b : ℕ} (h : digitCount a = digitCount b) :
    Nat.toDigits 10 a < Nat.toDigits 10 b ↔ a < b := by
  have hvalue : ∀ {a b : ℕ}, digitCount a = digitCount b →
      Nat.toDigits 10 a < Nat.toDigits 10 b → a < b := by
    intro a b h hlt
    have := ofDigitChars_lt_of_lt h (fun c hc => isDigit_of_mem hc) (fun c hc => isDigit_of_mem hc)
      hlt
    simpa using this
  refine ⟨hvalue h, fun hlt => ?_⟩
  rcases lt_trichotomy (Nat.toDigits 10 a) (Nat.toDigits 10 b) with hdigits | heq | hdigits
  · exact hdigits
  · exact absurd (toDigits_inj heq) hlt.ne
  · exact absurd (hvalue h.symm hdigits) (not_lt.2 hlt.le)

/-- The leading digits of a numeral are the numeral of the quotient. -/
lemma toDigits_div {b k : ℕ} (h : k < digitCount b) :
    ∃ rest : List Char, rest.length = k ∧
      Nat.toDigits 10 b = Nat.toDigits 10 (b / 10 ^ k) ++ rest := by
  induction k with
  | zero => exact ⟨[], rfl, by simp⟩
  | succ k ih =>
    obtain ⟨rest, hrest, hdigits⟩ := ih (by omega)
    have hcount : digitCount (b / 10 ^ k) = digitCount b - k := by
      rw [digitCount, digitCount, hdigits, List.length_append, hrest]
      omega
    -- more than one digit is left
    have hten : 10 ≤ b / 10 ^ k := by
      by_contra hlt
      have hone := (Nat.length_toDigits_le_iff (n := b / 10 ^ k) (b := 10) (k := 1) (by decide)
        (by decide)).2 (by omega)
      rw [← digitCount, hcount] at hone
      omega
    refine ⟨Nat.digitChar (b / 10 ^ k % 10) :: rest, by simp [hrest], ?_⟩
    rw [hdigits, Nat.toDigits_of_base_le (by decide) hten, Nat.div_div_eq_div_mul, ← pow_succ,
      List.append_assoc, List.singleton_append]

/-- The number is at most what the leading digits of the other, as many as it has, stand for. -/
def LeadsUpTo (a b : ℕ) : Prop := a ≤ b / 10 ^ (digitCount b - digitCount a)

instance (a b : ℕ) : Decidable (LeadsUpTo a b) := inferInstanceAs (Decidable (_ ≤ _))

lemma append_lt_append_iff {l l' r : List Char} (h : l.length = l'.length) :
    l < l' ++ r ↔ l < l' ∨ l = l' ∧ r ≠ [] := by
  induction l generalizing l' with
  | nil =>
    rw [List.length_nil, eq_comm, List.length_eq_zero_iff] at h
    subst h
    rcases r with _ | ⟨c, r⟩ <;> simp
  | cons c l ih =>
    rcases l' with _ | ⟨d, l'⟩
    · simp at h
    rw [List.cons_append, List.cons_lt_cons_iff, List.cons_lt_cons_iff, ih (by simpa using h),
      List.cons.injEq]
    tauto

/-- Ascending numbers have ascending numerals exactly when the one leads up to the other. -/
lemma toDigits_lt_iff {a b : ℕ} (h : a < b) :
    Nat.toDigits 10 a < Nat.toDigits 10 b ↔ LeadsUpTo a b := by
  have hle := digitCount_mono h.le
  have hpos := digitCount_pos a
  obtain ⟨rest, hrest, hdigits⟩ := toDigits_div (b := b) (k := digitCount b - digitCount a)
    (by omega)
  have hcount : digitCount a = digitCount (b / 10 ^ (digitCount b - digitCount a)) := by
    have hlength := congrArg List.length hdigits
    rw [List.length_append, ← digitCount, ← digitCount] at hlength
    omega
  rw [hdigits, append_lt_append_iff hcount, toDigits_lt_iff_of_count hcount, LeadsUpTo,
    le_iff_lt_or_eq]
  refine or_congr_right ⟨fun heq => toDigits_inj heq.1, fun heq => ⟨congrArg _ heq, ?_⟩⟩
  -- equal leading digits leave a rest, for the numbers differ
  intro hnil
  rw [hnil, List.length_nil] at hrest
  rw [← hrest, pow_zero, Nat.div_one] at heq
  exact h.ne heq

/-! ## Hexadecimal numerals -/

/-- The number a hexadecimal digit stands for. -/
def hexDigit (c : Char) : ℕ := if c.isDigit then c.toNat - 48 else c.toNat - 87

/-- The hexadecimal numeral of a number, of a fixed width. -/
def hexDigits : ℕ → ℕ → List Char
  | 0, _ => []
  | w + 1, n => Nat.digitChar (n / 16 ^ w) :: hexDigits w (n % 16 ^ w)

/-- The number a hexadecimal numeral stands for. -/
def hexValue (l : List Char) : ℕ := l.foldl (fun acc c => acc * 16 + hexDigit c) 0

/-- A lower-case hexadecimal digit. -/
def isHexDigit (c : Char) : Bool := c.isDigit || (decide ('a' ≤ c) && decide (c ≤ 'f'))

@[simp] lemma length_hexDigits (w n : ℕ) : (hexDigits w n).length = w := by
  induction w generalizing n with
  | zero => rfl
  | succ w ih => simp [hexDigits, ih]

lemma hexDigit_digitChar {d : ℕ} (h : d < 16) :
    hexDigit (Nat.digitChar d) = d ∧ isHexDigit (Nat.digitChar d) = true := by
  have hall : ∀ d : Fin 16,
      hexDigit (Nat.digitChar d.val) = d.val ∧ isHexDigit (Nat.digitChar d.val) = true := by decide
  exact hall ⟨d, h⟩

lemma div_lt_sixteen {w n : ℕ} (h : n < 16 ^ (w + 1)) : n / 16 ^ w < 16 := by
  rw [Nat.div_lt_iff_lt_mul (Nat.pow_pos (by decide))]
  rw [pow_succ, Nat.mul_comm] at h
  exact h

lemma isHexDigit_of_mem {w n : ℕ} (h : n < 16 ^ w) : ∀ c ∈ hexDigits w n, isHexDigit c = true := by
  induction w generalizing n with
  | zero => exact nofun
  | succ w ih =>
    intro c hc
    rcases List.mem_cons.1 hc with rfl | hc
    · exact (hexDigit_digitChar (div_lt_sixteen h)).2
    · exact ih (Nat.mod_lt _ (Nat.pow_pos (by decide))) c hc

lemma foldl_hexDigits {w n : ℕ} (acc : ℕ) (h : n < 16 ^ w) :
    (hexDigits w n).foldl (fun acc c => acc * 16 + hexDigit c) acc = acc * 16 ^ w + n := by
  induction w generalizing n acc with
  | zero =>
    have hzero : n = 0 := by simpa using h
    simp [hexDigits, hzero]
  | succ w ih =>
    rw [hexDigits, List.foldl_cons, ih _ (Nat.mod_lt _ (Nat.pow_pos (by decide))),
      (hexDigit_digitChar (div_lt_sixteen h)).1]
    calc (acc * 16 + n / 16 ^ w) * 16 ^ w + n % 16 ^ w
        = acc * (16 ^ w * 16) + (16 ^ w * (n / 16 ^ w) + n % 16 ^ w) := by ring
      _ = acc * 16 ^ (w + 1) + n := by rw [Nat.div_add_mod, pow_succ]

lemma hexValue_hexDigits {w n : ℕ} (h : n < 16 ^ w) : hexValue (hexDigits w n) = n := by
  rw [hexValue, foldl_hexDigits 0 h, Nat.zero_mul, Nat.zero_add]

end PathHydra
