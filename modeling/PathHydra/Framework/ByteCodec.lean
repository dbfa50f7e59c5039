import Mathlib.Algebra.Order.Ring.Nat
import Mathlib.Data.List.Lex
import Mathlib.Tactic.Common
import Mathlib.Tactic.Ring
import PathHydra.Framework.Outcome

/-!
# Byte codecs

Fixed-width numerals and readers over byte strings.

`beBytes w n` is the big-endian numeral of width `w`; it reads back (`beValue_beBytes`) and keeps
the order of the numbers (`beBytes_lt_iff`), which is why a store with ordered byte keys iterates
over numbers in ascending order.  `leBytes` is its reverse.

A `Reader` takes what it needs off the front of its input.  `Reads r b a` says that `r` turns `b`,
with anything after it, into `a`; an encoder and a decoder round trip when the encoding of each
field is read back, field by field (`Reads.bind`).  In the other direction a reader that succeeded
is peeled apart step by step (`Reader.bind_eq_ok`), and what it took off its input is the encoding
of what it read (`beBytes_beValue`, `strBytes_of_fromUtf8`).
-/

namespace PathHydra

/-- Byte strings, as keys, values and files hold them. -/
abbrev Bytes := List UInt8

instance linearOrderUInt8 : LinearOrder UInt8 where
  le_refl := UInt8.le_refl
  le_trans _ _ _ := UInt8.le_trans
  le_antisymm _ _ := UInt8.le_antisymm
  le_total := UInt8.le_total
  lt_iff_le_not_ge a b := by
    rw [UInt8.lt_iff_toNat_lt, UInt8.le_iff_toNat_le, UInt8.le_iff_toNat_le]
    omega
  toDecidableLE := inferInstance

/-! ## Numerals -/

/-- The big-endian numeral of a number, of a fixed width. -/
def beBytes : ℕ → ℕ → Bytes
  | 0, _ => []
  | w + 1, n => UInt8.ofNat (n / 256 ^ w) :: beBytes w (n % 256 ^ w)

/-- The number a big-endian numeral stands for. -/
def beValue (b : Bytes) : ℕ := b.foldl (fun acc byte => acc * 256 + byte.toNat) 0

/-- The little-endian numeral of a number, of a fixed width. -/
def leBytes (w n : ℕ) : Bytes := (beBytes w n).reverse

/-- The number a little-endian numeral stands for. -/
def leValue (b : Bytes) : ℕ := beValue b.reverse

@[simp] lemma length_beBytes (w n : ℕ) : (beBytes w n).length = w := by
  induction w generalizing n with
  | zero => rfl
  | succ w ih => simp [beBytes, ih]

@[simp] lemma length_leBytes (w n : ℕ) : (leBytes w n).length = w := by simp [leBytes]

lemma foldl_beBytes (w n acc : ℕ) (h : n < 256 ^ w) :
    (beBytes w n).foldl (fun acc byte => acc * 256 + byte.toNat) acc = acc * 256 ^ w + n := by
  induction w generalizing n acc with
  | zero =>
    have : n = 0 := by simpa using h
    simp [beBytes, this]
  | succ w ih =>
    have hpos : 0 < 256 ^ w := Nat.pow_pos (by decide)
    have hdiv : n / 256 ^ w < 256 := by
      rw [Nat.div_lt_iff_lt_mul hpos]
      rw [pow_succ, Nat.mul_comm] at h
      omega
    have hbyte : (UInt8.ofNat (n / 256 ^ w)).toNat = n / 256 ^ w := by
      simp [Nat.mod_eq_of_lt hdiv]
    simp only [beBytes, List.foldl_cons]
    rw [ih _ _ (Nat.mod_lt _ hpos), hbyte]
    have hsplit := Nat.div_add_mod n (256 ^ w)
    rw [pow_succ]
    calc (acc * 256 + n / 256 ^ w) * 256 ^ w + n % 256 ^ w
        = acc * (256 ^ w * 256) + (256 ^ w * (n / 256 ^ w) + n % 256 ^ w) := by ring
      _ = acc * (256 ^ w * 256) + n := by rw [hsplit]

@[simp] lemma beValue_beBytes {w n : ℕ} (h : n < 256 ^ w) : beValue (beBytes w n) = n := by
  rw [beValue, foldl_beBytes w n 0 h]
  omega

@[simp] lemma leValue_leBytes {w n : ℕ} (h : n < 256 ^ w) : leValue (leBytes w n) = n := by
  rw [leValue, leBytes, List.reverse_reverse, beValue_beBytes h]

lemma beBytes_inj {w a b : ℕ} (ha : a < 256 ^ w) (hb : b < 256 ^ w)
    (h : beBytes w a = beBytes w b) : a = b := by
  rw [← beValue_beBytes ha, ← beValue_beBytes hb, h]

lemma foldl_beValue (b : Bytes) (acc : ℕ) :
    b.foldl (fun acc byte => acc * 256 + byte.toNat) acc = acc * 256 ^ b.length + beValue b := by
  induction b generalizing acc with
  | nil => simp [beValue]
  | cons x b ih =>
    rw [beValue, List.foldl_cons, List.foldl_cons, ih, ih (0 * 256 + x.toNat), List.length_cons,
      pow_succ]
    ring

lemma beValue_cons (x : UInt8) (b : Bytes) :
    beValue (x :: b) = x.toNat * 256 ^ b.length + beValue b := by
  rw [beValue, List.foldl_cons, foldl_beValue]
  ring

lemma beValue_lt (b : Bytes) : beValue b < 256 ^ b.length := by
  induction b with
  | nil => simp [beValue]
  | cons x b ih =>
    have hx : x.toNat + 1 ≤ 256 := x.toNat_lt
    rw [beValue_cons, List.length_cons, pow_succ]
    calc x.toNat * 256 ^ b.length + beValue b < x.toNat * 256 ^ b.length + 256 ^ b.length := by omega
      _ = (x.toNat + 1) * 256 ^ b.length := by ring
      _ ≤ 256 * 256 ^ b.length := Nat.mul_le_mul_right _ hx
      _ = 256 ^ b.length * 256 := by ring

/-- Every byte string is the numeral of its number. -/
lemma beBytes_beValue {w : ℕ} {b : Bytes} (h : b.length = w) : beBytes w (beValue b) = b := by
  subst h
  induction b with
  | nil => rfl
  | cons x b ih =>
    have hpos : 0 < 256 ^ b.length := Nat.pow_pos (by decide)
    have hdiv : beValue (x :: b) / 256 ^ b.length = x.toNat := by
      rw [beValue_cons, Nat.mul_comm, Nat.mul_add_div hpos, Nat.div_eq_of_lt (beValue_lt b)]
      rfl
    have hmod : beValue (x :: b) % 256 ^ b.length = beValue b := by
      rw [beValue_cons, Nat.mul_comm, Nat.mul_add_mod, Nat.mod_eq_of_lt (beValue_lt b)]
    rw [List.length_cons, beBytes, hdiv, hmod, ih, UInt8.ofNat_toNat]

lemma leValue_lt (b : Bytes) : leValue b < 256 ^ b.length := by
  rw [leValue, ← List.length_reverse]
  exact beValue_lt b.reverse

lemma leBytes_leValue {w : ℕ} {b : Bytes} (h : b.length = w) : leBytes w (leValue b) = b := by
  rw [leBytes, leValue, beBytes_beValue (by rw [List.length_reverse, h]), List.reverse_reverse]

/-- Big-endian numerals are ordered as their numbers. -/
lemma beBytes_lt {w a b : ℕ} (h : a < b) (hb : b < 256 ^ w) : beBytes w a < beBytes w b := by
  induction w generalizing a b with
  | zero =>
    have : b = 0 := by simpa using hb
    omega
  | succ w ih =>
    have hpos : 0 < 256 ^ w := Nat.pow_pos (by decide)
    have hdivb : b / 256 ^ w < 256 := by
      rw [Nat.div_lt_iff_lt_mul hpos]
      rw [pow_succ, Nat.mul_comm] at hb
      omega
    have hle : a / 256 ^ w ≤ b / 256 ^ w := Nat.div_le_div_right h.le
    simp only [beBytes]
    rcases hle.lt_or_eq with hlt | heq
    · refine List.cons_lt_cons_iff.2 (.inl ?_)
      rw [UInt8.lt_iff_toNat_lt]
      simpa [UInt8.toNat_ofNat, Nat.mod_eq_of_lt hdivb, Nat.mod_eq_of_lt (hlt.trans hdivb)]
        using hlt
    · refine List.cons_lt_cons_iff.2 (.inr ⟨by rw [heq], ih ?_ (Nat.mod_lt _ hpos)⟩)
      have hsplita := Nat.div_add_mod a (256 ^ w)
      have hsplitb := Nat.div_add_mod b (256 ^ w)
      rw [heq] at hsplita
      omega

lemma beBytes_lt_iff {w a b : ℕ} (ha : a < 256 ^ w) (hb : b < 256 ^ w) :
    beBytes w a < beBytes w b ↔ a < b := by
  refine ⟨fun hlt => ?_, fun hlt => beBytes_lt hlt hb⟩
  by_contra hge
  rcases (not_lt.1 hge).lt_or_eq with hgt | rfl
  · exact lt_asymm hlt (beBytes_lt hgt ha)
  · exact lt_irrefl _ hlt

/-- Keys of several fields of fixed width are compared field by field. -/
lemma fields_lt_iff {p q s t : Bytes} (h : p.length = q.length) :
    p ++ s < q ++ t ↔ p < q ∨ (p = q ∧ s < t) := by
  induction p generalizing q with
  | nil =>
    obtain rfl := List.eq_nil_of_length_eq_zero h.symm
    simp
  | cons a p ih =>
    rcases q with _ | ⟨b, q⟩
    · simp at h
    · rw [List.cons_append, List.cons_append, List.cons_lt_cons_iff, ih (by simpa using h),
        List.cons_lt_cons_iff, List.cons.injEq]
      tauto

lemma take_le_self (n : ℕ) (k : Bytes) : k.take n ≤ k := by
  induction k generalizing n with
  | nil => simp
  | cons a k ih =>
    rcases n with _ | n
    · exact (List.nil_lt_cons a k).le
    · exact List.cons_le_cons a (ih n)

/-- Between a byte string and its extensions there are only extensions of it. -/
lemma take_eq_of_between {p k s : Bytes} (hle : p ≤ k) (hge : k ≤ p ++ s) : k.take p.length = p := by
  induction p generalizing k with
  | nil => rfl
  | cons a p ih =>
    rcases k with _ | ⟨b, k⟩
    · exact absurd hle (not_le.2 (List.nil_lt_cons a p))
    · rcases lt_or_eq_of_le hle with hlt | heq
      · rcases List.cons_lt_cons_iff.1 hlt with hab | ⟨rfl, htail⟩
        · refine absurd hge (not_le.2 ?_)
          exact List.cons_lt_cons_iff.2 (.inl hab)
        · have hge' : k ≤ p ++ s := by
            by_contra hnot
            exact absurd hge (not_le.2 (List.cons_lt_cons_iff.2 (.inr ⟨rfl, not_le.1 hnot⟩)))
          simp [ih htail.le hge']
      · simp [← heq]

/-! ## Strings -/

/-- The UTF-8 bytes of a string. -/
def strBytes (s : String) : Bytes := s.toUTF8.data.toList

/-- The string that UTF-8 bytes stand for, if they stand for one. -/
def fromUtf8 (b : Bytes) : Option String := String.fromUTF8? ⟨b.toArray⟩

@[simp] lemma fromUtf8_strBytes (s : String) : fromUtf8 (strBytes s) = some s := by
  have hbytes : (⟨(strBytes s).toArray⟩ : ByteArray) = s.toUTF8 := by
    rw [strBytes, Array.toArray_toList]
  rw [fromUtf8, hbytes, String.fromUTF8?, dif_pos]
  rfl

lemma strBytes_append (s t : String) : strBytes (s ++ t) = strBytes s ++ strBytes t := by
  simp [strBytes]

lemma strBytes_inj {s t : String} (h : strBytes s = strBytes t) : s = t := by
  have hs := fromUtf8_strBytes s
  rw [h, fromUtf8_strBytes] at hs
  exact (Option.some.inj hs).symm

/-- What bytes stand for is written with these bytes. -/
lemma strBytes_of_fromUtf8 {b : Bytes} {s : String} (h : fromUtf8 b = some s) : strBytes s = b := by
  unfold fromUtf8 String.fromUTF8? at h
  split at h
  · cases h
    show (⟨b.toArray⟩ : ByteArray).data.toList = b
    rw [List.toList_toArray]
  · cases h

/-! ## Readers -/

/-- Reads a value off the front of a byte string. -/
abbrev Reader (ε : Type) (α : Type) := StateT Bytes (Except ε) α

namespace Reader

variable {ε α β : Type}

/-- The next bytes, or an error when there are fewer. -/
def take (short : ε) (length : ℕ) : Reader ε Bytes := fun input =>
  if length ≤ input.length then .ok (input.take length, input.drop length) else .error short

/-- Stops with an error. -/
def fail (e : ε) : Reader ε α := fun _ => .error e

/-- Reads a value that the whole input stands for. -/
def complete (trailing : ε) (r : Reader ε α) (input : Bytes) : Except ε α := do
  let (a, rest) ← r input
  if rest.isEmpty then .ok a else .error trailing

lemma bind_eq_ok {r : Reader ε α} {f : α → Reader ε β} {input rest : Bytes} {b : β} :
    (r >>= f) input = .ok (b, rest) ↔
      ∃ a mid, r input = .ok (a, mid) ∧ f a mid = .ok (b, rest) := by
  show (r input >>= fun p => f p.1 p.2) = _ ↔ _
  rw [PathHydra.bind_eq_ok]
  constructor
  · rintro ⟨⟨a, mid⟩, hr, hf⟩
    exact ⟨a, mid, hr, hf⟩
  · rintro ⟨a, mid, hr, hf⟩
    exact ⟨(a, mid), hr, hf⟩

lemma pure_eq_ok {a b : α} {input rest : Bytes} :
    (pure a : Reader ε α) input = .ok (b, rest) ↔ a = b ∧ input = rest := by
  show Except.ok (a, input) = _ ↔ _
  rw [Except.ok.injEq, Prod.mk.injEq]

lemma take_eq_ok {short : ε} {n : ℕ} {input rest b : Bytes}
    (h : take short n input = .ok (b, rest)) : input = b ++ rest ∧ b.length = n := by
  unfold take at h
  split_ifs at h with hle
  cases h
  exact ⟨(List.take_append_drop n input).symm, List.length_take_of_le hle⟩

lemma complete_eq_ok {trailing : ε} {r : Reader ε α} {input : Bytes} {a : α}
    (h : complete trailing r input = .ok a) : r input = .ok (a, []) := by
  obtain ⟨⟨b, rest⟩, hr, hrest⟩ := PathHydra.bind_eq_ok.1 h
  dsimp only at hrest
  split_ifs at hrest with hempty
  cases hrest
  rw [hr, List.isEmpty_iff.1 hempty]

end Reader

/-- The reader turns the bytes, whatever follows them, into the value. -/
def Reads {ε α : Type} (r : Reader ε α) (b : Bytes) (a : α) : Prop :=
  ∀ rest, r (b ++ rest) = .ok (a, rest)

section Reads

variable {ε α β : Type} {r : Reader ε α} {b b' : Bytes} {a : α}

lemma reads_pure (a : α) : Reads (pure a : Reader ε α) [] a := fun _ => rfl

lemma Reads.bind (h : Reads r b a) {f : α → Reader ε β} {c : β} (hf : Reads (f a) b' c) :
    Reads (r >>= f) (b ++ b') c := by
  intro rest
  show (r (b ++ b' ++ rest) >>= fun p => f p.1 p.2) = _
  rw [List.append_assoc, h (b' ++ rest)]
  exact hf rest

/-- The last step of a reader takes nothing more off its input. -/
lemma Reads.last (h : Reads r b a) {f : α → Reader ε β} {c : β} (hf : Reads (f a) [] c) :
    Reads (r >>= f) b c := by
  have hbind := h.bind hf
  rwa [List.append_nil] at hbind

/-- The last step of a reader only computes. -/
lemma Reads.map (h : Reads r b a) (f : α → β) : Reads (do let x ← r; pure (f x)) b (f a) :=
  h.last (reads_pure (f a))

lemma reads_take (short : ε) (b : Bytes) : Reads (Reader.take short b.length) b b := by
  intro rest
  simp [Reader.take]

lemma reads_take_of_length (short : ε) {n : ℕ} (h : b.length = n) :
    Reads (Reader.take short n) b b := h ▸ reads_take short b

/-- A reader of exactly the given bytes reads all of them. -/
lemma Reads.complete (h : Reads r b a) (trailing : ε) : Reader.complete trailing r b = .ok a := by
  have hall := h []
  rw [List.append_nil] at hall
  simp only [Reader.complete, hall, ok_bind]
  rfl

/-- Bytes after what a reader reads are trailing. -/
lemma Reads.complete_append (h : Reads r b a) (trailing : ε) {rest : Bytes} (hrest : rest ≠ []) :
    Reader.complete trailing r (b ++ rest) = .error trailing := by
  simp only [Reader.complete, h rest, ok_bind]
  rw [if_neg]
  simpa using hrest

end Reads

end PathHydra
