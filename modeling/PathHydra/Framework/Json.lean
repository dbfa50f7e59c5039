import Mathlib.Data.Nat.Digits.Lemmas
import Mathlib.Order.Lattice
import PathHydra.Framework.ByteCodec
import PathHydra.Framework.Decimal

/-!
# JSON texts

The grammar of JSON as a concrete syntax: a tree keeps the white space between its tokens, so the
well-formed texts are exactly the texts of the trees.  Strings are kept by the bytes between their
quotes; a character outside ASCII is a run of plain bytes.

Beside the text of a tree stand its nesting depth and the number of its values, where the keys of
an object are no values.
-/

namespace PathHydra

/-! ## Bytes -/

namespace JsonByte

def quote : UInt8 := 0x22
def backslash : UInt8 := 0x5C
def comma : UInt8 := 0x2C
def colon : UInt8 := 0x3A
def openBrace : UInt8 := 0x7B
def closeBrace : UInt8 := 0x7D
def openBracket : UInt8 := 0x5B
def closeBracket : UInt8 := 0x5D
def minus : UInt8 := 0x2D
def plus : UInt8 := 0x2B
def dot : UInt8 := 0x2E

/-- A decimal digit. -/
def digit (d : Fin 10) : UInt8 := UInt8.ofNat (0x30 + d.val)

/-- Space, tab, line feed and carriage return. -/
def isSpace (b : UInt8) : Bool := b = 0x20 || b = 0x09 || b = 0x0A || b = 0x0D

/-- A hexadecimal digit. -/
def isHex (b : UInt8) : Bool :=
  (0x30 ≤ b && b ≤ 0x39) || (0x41 ≤ b && b ≤ 0x46) || (0x61 ≤ b && b ≤ 0x66)

/-- What may stand after a backslash, apart from a code point. -/
def isEscape (b : UInt8) : Bool :=
  [0x22, 0x5C, 0x2F, 0x62, 0x66, 0x6E, 0x72, 0x74].contains b

lemma isEscape_quote : isEscape 0x22 = true := by decide

/-- What may stand in a string as it is. -/
def isPlain (b : UInt8) : Bool := 0x20 ≤ b && b ≠ quote && b ≠ backslash

end JsonByte

open JsonByte

/-! ## Tokens -/

/-- White space between tokens. -/
structure JsonSpace where
  bytes : Bytes
  spaces : ∀ b ∈ bytes, isSpace b = true

/-- No white space. -/
def JsonSpace.none : JsonSpace := ⟨[], nofun⟩

inductive JsonLiteral
  | null
  | true
  | false
  deriving DecidableEq

def JsonLiteral.text : JsonLiteral → Bytes
  | .null => [0x6E, 0x75, 0x6C, 0x6C]
  | .true => [0x74, 0x72, 0x75, 0x65]
  | .false => [0x66, 0x61, 0x6C, 0x73, 0x65]

/-- The exponent of a number; a sign is `true` for plus. -/
structure JsonExponent where
  upper : Bool
  sign : Option Bool
  first : Fin 10
  rest : List (Fin 10)

def JsonExponent.text (e : JsonExponent) : Bytes :=
  (if e.upper then 0x45 else 0x65) ::
    ((e.sign.map fun positive => if positive then plus else minus).toList ++
      digit e.first :: e.rest.map digit)

/-- A number: a leading zero stands alone, and an empty fraction is not written. -/
structure JsonNumber where
  negative : Bool
  first : Fin 10
  rest : List (Fin 10)
  leading : first = 0 → rest = []
  fraction : List (Fin 10)
  exponent : Option JsonExponent

def JsonNumber.text (n : JsonNumber) : Bytes :=
  (if n.negative then [minus] else []) ++ digit n.first :: n.rest.map digit ++
    (if n.fraction = [] then [] else dot :: n.fraction.map digit) ++
    (n.exponent.map JsonExponent.text).getD []

/-- One unit of a string. -/
inductive JsonChar
  | plain (byte : UInt8) (h : isPlain byte = true)
  | escape (byte : UInt8) (h : isEscape byte = true)
  | unicode (a b c d : UInt8) (h : (isHex a && isHex b && isHex c && isHex d) = true)

def JsonChar.text : JsonChar → Bytes
  | .plain byte _ => [byte]
  | .escape byte _ => [backslash, byte]
  | .unicode a b c d _ => [backslash, 0x75, a, b, c, d]

/-- The content of a string. -/
abbrev JsonString := List JsonChar

/-- A string between its quotes. -/
def JsonString.text (s : JsonString) : Bytes := quote :: s.flatMap JsonChar.text ++ [quote]

/-! ## Trees -/

mutual

/-- A value. -/
inductive JsonValue
  | literal (l : JsonLiteral)
  | number (n : JsonNumber)
  | string (s : JsonString)
  | emptyArray (space : JsonSpace)
  | array (items : JsonItems)
  | emptyObject (space : JsonSpace)
  | object (members : JsonMembers)

/-- The items of an array that has some. -/
inductive JsonItems
  | last (before : JsonSpace) (value : JsonValue) (after : JsonSpace)
  | more (before : JsonSpace) (value : JsonValue) (after : JsonSpace) (rest : JsonItems)

/-- The members of an object that has some. -/
inductive JsonMembers
  | last (before : JsonSpace) (key : JsonString) (beforeColon afterColon : JsonSpace)
      (value : JsonValue) (after : JsonSpace)
  | more (before : JsonSpace) (key : JsonString) (beforeColon afterColon : JsonSpace)
      (value : JsonValue) (after : JsonSpace) (rest : JsonMembers)

end

mutual

def JsonValue.text : JsonValue → Bytes
  | .literal l => l.text
  | .number n => n.text
  | .string s => s.text
  | .emptyArray space => openBracket :: (space.bytes ++ [closeBracket])
  | .array items => openBracket :: (items.text ++ [closeBracket])
  | .emptyObject space => openBrace :: (space.bytes ++ [closeBrace])
  | .object members => openBrace :: (members.text ++ [closeBrace])

def JsonItems.text : JsonItems → Bytes
  | .last before value after => before.bytes ++ (value.text ++ after.bytes)
  | .more before value after rest =>
    before.bytes ++ (value.text ++ (after.bytes ++ comma :: rest.text))

def JsonMembers.text : JsonMembers → Bytes
  | .last before key beforeColon afterColon value after =>
    before.bytes ++ (key.text ++ (beforeColon.bytes ++ colon :: (afterColon.bytes ++
      (value.text ++ after.bytes))))
  | .more before key beforeColon afterColon value after rest =>
    before.bytes ++ (key.text ++ (beforeColon.bytes ++ colon :: (afterColon.bytes ++
      (value.text ++ (after.bytes ++ comma :: rest.text)))))

end

mutual

/-- How deep containers are nested. -/
def JsonValue.depth : JsonValue → ℕ
  | .literal _ | .number _ | .string _ => 0
  | .emptyArray _ | .emptyObject _ => 1
  | .array items => items.depth + 1
  | .object members => members.depth + 1

def JsonItems.depth : JsonItems → ℕ
  | .last _ value _ => value.depth
  | .more _ value _ rest => max value.depth rest.depth

def JsonMembers.depth : JsonMembers → ℕ
  | .last _ _ _ _ value _ => value.depth
  | .more _ _ _ _ value _ rest => max value.depth rest.depth

end

mutual

/-- How many values there are, with the value itself. -/
def JsonValue.values : JsonValue → ℕ
  | .literal _ | .number _ | .string _ => 1
  | .emptyArray _ | .emptyObject _ => 1
  | .array items => items.values + 1
  | .object members => members.values + 1

def JsonItems.values : JsonItems → ℕ
  | .last _ value _ => value.values
  | .more _ value _ rest => value.values + rest.values

def JsonMembers.values : JsonMembers → ℕ
  | .last _ _ _ _ value _ => value.values
  | .more _ _ _ _ value _ rest => value.values + rest.values

end

/-- A whole text: a value with white space around it. -/
structure JsonText where
  before : JsonSpace
  value : JsonValue
  after : JsonSpace

def JsonText.text (t : JsonText) : Bytes := t.before.bytes ++ (t.value.text ++ t.after.bytes)

/-! ## Compact trees

The trees a printer writes: no white space, and only the escapes a string needs. -/

/-- A lower case hexadecimal digit. -/
def JsonByte.hexDigit (d : Fin 16) : UInt8 :=
  if d.val < 10 then UInt8.ofNat (0x30 + d.val) else UInt8.ofNat (0x57 + d.val)

lemma JsonByte.isHex_hexDigit (d : Fin 16) : isHex (hexDigit d) = true := by
  revert d
  decide

/-- A byte as a printer writes it into a string. -/
def JsonChar.ofByte (b : UInt8) : JsonChar :=
  if h : isPlain b = true then .plain b h
  else if b = quote then .escape 0x22 (by decide)
  else if b = backslash then .escape 0x5C (by decide)
  else if b = 0x08 then .escape 0x62 (by decide)
  else if b = 0x0C then .escape 0x66 (by decide)
  else if b = 0x0A then .escape 0x6E (by decide)
  else if b = 0x0D then .escape 0x72 (by decide)
  else if b = 0x09 then .escape 0x74 (by decide)
  else
    .unicode 0x30 0x30 (JsonByte.hexDigit (Fin.ofNat 16 (b.toNat / 16)))
      (JsonByte.hexDigit (Fin.ofNat 16 (b.toNat % 16))) (by
        rw [isHex_hexDigit, isHex_hexDigit]
        decide)

/-- A natural number as a printer writes it. -/
def JsonNumber.ofNat (n : ℕ) : JsonNumber :=
  if h : n = 0 then ⟨false, 0, [], fun _ => rfl, [], none⟩
  else
    have hdigits : Nat.digits 10 n ≠ [] := Nat.digits_ne_nil_iff_ne_zero.2 h
    { negative := false
      first := Fin.ofNat 10 ((Nat.digits 10 n).getLast hdigits)
      rest := (Nat.digits 10 n).dropLast.reverse.map (Fin.ofNat 10)
      leading := by
        intro hzero
        have hlt := Nat.digits_lt_base (b := 10) (by decide) (List.getLast_mem hdigits)
        have hlast := Nat.getLast_digit_ne_zero 10 h
        rw [Fin.ext_iff, Fin.val_ofNat, Nat.mod_eq_of_lt hlt] at hzero
        exact absurd hzero hlast
      fraction := []
      exponent := none }

def JsonString.ofBytes (l : Bytes) : JsonString := l.map JsonChar.ofByte

namespace JsonValue

/-- A text as a value. -/
def ofText (s : String) : JsonValue := .string (.ofBytes (strBytes s))

def ofBool (b : Bool) : JsonValue := .literal (if b then .true else .false)

def null : JsonValue := .literal .null

end JsonValue

def JsonItems.compact : JsonValue → List JsonValue → JsonItems
  | v, [] => .last .none v .none
  | v, w :: rest => .more .none v .none (compact w rest)

def JsonMembers.compact : String × JsonValue → List (String × JsonValue) → JsonMembers
  | (key, v), [] => .last .none (.ofBytes (strBytes key)) .none .none v .none
  | (key, v), m :: rest =>
    .more .none (.ofBytes (strBytes key)) .none .none v .none (compact m rest)

namespace JsonValue

/-- An array. -/
def ofItems : List JsonValue → JsonValue
  | [] => .emptyArray .none
  | v :: rest => .array (.compact v rest)

/-- An object. -/
def ofMembers : List (String × JsonValue) → JsonValue
  | [] => .emptyObject .none
  | m :: rest => .object (.compact m rest)

/-- A document without white space around it. -/
def document (v : JsonValue) : JsonText := ⟨.none, v, .none⟩

end JsonValue

/-! ## Lengths -/

/-- How many bytes a printer writes for a byte of a string. -/
def escapedSize (b : UInt8) : ℕ :=
  if isPlain b then 1
  else if [quote, backslash, 0x08, 0x0C, 0x0A, 0x0D, 0x09].contains b then 2
  else 6

/-- How many bytes a printer writes between the quotes of a string. -/
def escapedLength (l : Bytes) : ℕ := (l.map escapedSize).sum

lemma length_text_ofByte (b : UInt8) : (JsonChar.ofByte b).text.length = escapedSize b := by
  rw [JsonChar.ofByte, escapedSize]
  split_ifs <;> simp_all [JsonChar.text]

lemma length_text_ofBytes (l : Bytes) :
    (JsonString.ofBytes l).text.length = escapedLength l + 2 := by
  have hchars : ((JsonString.ofBytes l).flatMap JsonChar.text).length = escapedLength l := by
    induction l with
    | nil => rfl
    | cons b l ih =>
      rw [JsonString.ofBytes, List.map_cons, List.flatMap_cons, List.length_append,
        length_text_ofByte, escapedLength, List.map_cons, List.sum_cons]
      exact congrArg (escapedSize b + ·) ih
  rw [JsonString.text, List.length_append, List.length_cons, hchars]
  rfl

lemma escapedLength_of_plain {l : Bytes} (h : ∀ b ∈ l, isPlain b = true) :
    escapedLength l = l.length := by
  induction l with
  | nil => rfl
  | cons b l ih =>
    rw [escapedLength, List.map_cons, List.sum_cons, List.length_cons,
      show escapedSize b = 1 from if_pos (h b List.mem_cons_self)]
    have hrest : (l.map escapedSize).sum = l.length :=
      ih fun b' hb' => h b' (List.mem_cons_of_mem b hb')
    omega

/-- A number below a power of ten is written with as many digits at most. -/
lemma length_text_ofNat_le {n k : ℕ} (hk : 0 < k) (h : n < 10 ^ k) :
    (JsonNumber.ofNat n).text.length ≤ k := by
  rw [JsonNumber.ofNat]
  split_ifs with hzero
  · exact hk
  · have hlength := (Nat.digits_length_le_iff (b := 10) (by decide) n).2 h
    have hpos := List.length_pos_of_ne_nil (Nat.digits_ne_nil_iff_ne_zero (b := 10).2 hzero)
    simp only [JsonNumber.text, Bool.false_eq_true, if_false, if_true, List.nil_append,
      List.length_append, List.length_cons, List.length_map, List.length_reverse,
      List.length_dropLast, Option.map_none, Option.getD_none, List.length_nil]
    omega

/-- A character that a printer writes as it is, in one byte. -/
def JsonByte.isPlainChar (c : Char) : Bool :=
  decide (c.toNat < 0x80) && isPlain (UInt8.ofNat c.toNat)

lemma strBytes_ofList (l : List Char) :
    strBytes (String.ofList l) = l.flatMap String.utf8EncodeChar := by
  simp [strBytes, List.utf8Encode]

lemma utf8EncodeChar_of_lt {c : Char} (h : c.toNat < 0x80) :
    String.utf8EncodeChar c = [UInt8.ofNat c.toNat] := by
  have hle : c.val.toNat ≤ 0x7f := by
    show c.toNat ≤ 0x7f
    omega
  rw [String.utf8EncodeChar, if_pos hle]
  rfl

lemma strBytes_ofList_of_plain {l : List Char} (h : ∀ c ∈ l, isPlainChar c = true) :
    strBytes (String.ofList l) = l.map fun c => UInt8.ofNat c.toNat := by
  rw [strBytes_ofList]
  induction l with
  | nil => rfl
  | cons c l ih =>
    have hc := of_decide_eq_true (Bool.and_eq_true_iff.1 (h c List.mem_cons_self)).1
    rw [List.flatMap_cons, utf8EncodeChar_of_lt hc,
      ih fun c' hc' => h c' (List.mem_cons_of_mem c hc')]
    rfl

lemma isPlain_of_mem_strBytes {l : List Char} (h : ∀ c ∈ l, isPlainChar c = true) :
    ∀ b ∈ strBytes (String.ofList l), isPlain b = true := by
  rw [strBytes_ofList_of_plain h]
  intro b hb
  obtain ⟨c, hc, rfl⟩ := List.mem_map.1 hb
  exact (Bool.and_eq_true_iff.1 (h c hc)).2

lemma escapedLength_ofList {l : List Char} (h : ∀ c ∈ l, isPlainChar c = true) :
    escapedLength (strBytes (String.ofList l)) = l.length := by
  rw [escapedLength_of_plain (isPlain_of_mem_strBytes h), strBytes_ofList_of_plain h,
    List.length_map]

/-- The hexadecimal digits are written as they are, and so are the decimal ones. -/
lemma isPlainChar_of_isHexDigit {c : Char} (h : isHexDigit c = true) : isPlainChar c = true := by
  have hall : ∀ n : Fin 128, 48 ≤ n.val ∧ n.val ≤ 57 ∨ 97 ≤ n.val ∧ n.val ≤ 102 →
      isPlain (UInt8.ofNat n.val) = true := by decide +kernel
  have hrange : 48 ≤ c.toNat ∧ c.toNat ≤ 57 ∨ 97 ≤ c.toNat ∧ c.toNat ≤ 102 := by
    simp only [isHexDigit, Char.isDigit, Bool.or_eq_true, Bool.and_eq_true, decide_eq_true_eq] at h
    exact h
  have hlt : c.toNat < 128 := by omega
  rw [isPlainChar, decide_eq_true hlt, Bool.true_and]
  exact hall ⟨c.toNat, hlt⟩ hrange

/-- Plain bytes stand between the quotes as they are. -/
lemma text_ofBytes_of_plain {l : Bytes} (h : ∀ b ∈ l, isPlain b = true) :
    (JsonString.ofBytes l).text = quote :: (l ++ [quote]) := by
  have hchars : (JsonString.ofBytes l).flatMap JsonChar.text = l := by
    induction l with
    | nil => rfl
    | cons b l ih =>
      rw [JsonString.ofBytes, List.map_cons, List.flatMap_cons, JsonChar.ofByte,
        dif_pos (h b List.mem_cons_self)]
      exact congrArg (b :: ·) (ih fun b' hb' => h b' (List.mem_cons_of_mem b hb'))
  rw [JsonString.text, List.cons_append, hchars]

namespace JsonValue

lemma length_ofText (s : String) : (ofText s).text.length = escapedLength (strBytes s) + 2 :=
  length_text_ofBytes (strBytes s)

lemma length_ofItems (l : List JsonValue) (hl : l ≠ []) :
    (ofItems l).text.length = (l.map fun v => v.text.length + 1).sum + 1 := by
  obtain ⟨v, rest, rfl⟩ := List.exists_cons_of_ne_nil hl
  have hitems : ∀ (v : JsonValue) (rest : List JsonValue),
      (JsonItems.compact v rest).text.length + 1 =
        ((v :: rest).map fun v => v.text.length + 1).sum := by
    intro v rest
    induction rest generalizing v with
    | nil => simp [JsonItems.compact, JsonItems.text, JsonSpace.none]
    | cons w rest ih =>
      rw [List.map_cons, List.sum_cons, ← ih]
      simp [JsonItems.compact, JsonItems.text, JsonSpace.none]
      omega
  rw [ofItems, JsonValue.text, List.length_cons, List.length_append, ← hitems]
  rfl

lemma length_ofMembers (l : List (String × JsonValue)) (hl : l ≠ []) :
    (ofMembers l).text.length =
      (l.map fun m => escapedLength (strBytes m.1) + m.2.text.length + 4).sum + 1 := by
  obtain ⟨m, rest, rfl⟩ := List.exists_cons_of_ne_nil hl
  have hmembers : ∀ (m : String × JsonValue) (rest : List (String × JsonValue)),
      (JsonMembers.compact m rest).text.length + 1 =
        ((m :: rest).map fun m => escapedLength (strBytes m.1) + m.2.text.length + 4).sum := by
    intro m rest
    induction rest generalizing m with
    | nil =>
      simp [JsonMembers.compact, JsonMembers.text, JsonSpace.none, length_text_ofBytes]
      omega
    | cons m' rest ih =>
      rw [List.map_cons, List.sum_cons, ← ih]
      simp [JsonMembers.compact, JsonMembers.text, JsonSpace.none, length_text_ofBytes]
      omega
  rw [ofMembers, JsonValue.text, List.length_cons, List.length_append, ← hmembers]
  rfl

end JsonValue

end PathHydra
