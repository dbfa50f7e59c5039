import PathHydra.Construction.Api.Evidence
import PathHydra.Framework.BinarySearch
import PathHydra.Framework.Decimal

/-!
# Transfer objects

Identifiers cross the API as decimal texts and binary numbers as hexadecimal ones.  A wrapper can
only be made from a number or by parsing, so its text is canonical; wrappers are compared by their
texts, as the derived order of a struct over a `String` compares them.

`RelationProfile.toDto` converts a profile and `RelationProfile.tryFrom` converts it back.
-/

namespace PathHydra

/-! ## Decimal wrappers -/

/-- `parse_decimal`. -/
def parseDecimal (value field : String) : Except DtoValidationError U64 :=
  let digits := value.toList
  if digits.isEmpty || (decide (1 < digits.length) && decide (digits.head? = some '0')) ||
      !digits.all Char.isDigit then
    .error (.nonCanonicalDecimal field)
  else
    let parsed := Nat.ofDigitChars 10 digits 0
    if h : parsed < 2 ^ 64 then
      if toString parsed ≠ value then .error (.nonCanonicalDecimal field) else .ok ⟨parsed, h⟩
    else .error (.nonCanonicalDecimal field)

/-- A numeral of several digits does not start with a zero. -/
lemma head?_toDigits {n : ℕ} (h : 1 < (Nat.toDigits 10 n).length) :
    (Nat.toDigits 10 n).head? ≠ some '0' := by
  intro hhead
  rcases hdigits : Nat.toDigits 10 n with _ | ⟨c, rest⟩
  · simp at hdigits
  rw [hdigits, List.head?_cons, Option.some.injEq] at hhead
  rw [hdigits, List.length_cons] at h
  subst hhead
  -- the rest alone would be a numeral of the number
  have hvalue : n = Nat.ofDigitChars 10 rest 0 := by
    rw [← Nat.ofDigitChars_ten_toDigits (n := n), hdigits, ofDigitChars_cons_zero]
    simp
  have hlt : n < 10 ^ rest.length := by
    rw [hvalue]
    refine ofDigitChars_lt fun c hc => isDigit_of_mem (n := n) ?_
    rw [hdigits]
    exact List.mem_cons_of_mem _ hc
  have hle := (Nat.length_toDigits_le_iff (by decide) (by omega)).2 hlt
  rw [hdigits, List.length_cons] at hle
  omega

lemma parseDecimal_toString (v : U64) (field : String) :
    parseDecimal (toString v.val) field = .ok v := by
  have hdigits : (toString v.val).toList = Nat.toDigits 10 v.val := Nat.toList_repr
  have hall : (Nat.toDigits 10 v.val).all Char.isDigit = true :=
    List.all_eq_true.2 fun c hc => isDigit_of_mem hc
  have hzero : (decide (1 < (Nat.toDigits 10 v.val).length) &&
      decide ((Nat.toDigits 10 v.val).head? = some '0')) = false := by
    rw [Bool.and_eq_false_iff, decide_eq_false_iff_not, decide_eq_false_iff_not]
    by_cases h : 1 < (Nat.toDigits 10 v.val).length
    · exact .inr (head?_toDigits h)
    · exact .inl h
  rw [parseDecimal, hdigits]
  dsimp only
  rw [hzero, hall, if_neg (by simp), Nat.ofDigitChars_ten_toDigits, dif_pos v.isLt,
    if_neg (not_not.2 rfl)]

lemma toString_of_parseDecimal {value field : String} {v : U64}
    (h : parseDecimal value field = .ok v) : value = toString v.val := by
  unfold parseDecimal at h
  dsimp only at h
  split_ifs at h with hform hrange hsame
  obtain rfl := Except.ok.inj h
  exact (not_not.1 hsame).symm

/-- `decimal_wrapper!`: a canonical decimal text. -/
structure DecimalDto (field : String) where
  asStr : String
  canonical : ∃ v, parseDecimal asStr field = .ok v

namespace DecimalDto

variable {field : String}

lemma asStr_injective : Function.Injective (asStr : DecimalDto field → String) := by
  rintro ⟨a, _⟩ ⟨b, _⟩ h
  cases h
  rfl

/-- The derived order. -/
instance : LinearOrder (DecimalDto field) := LinearOrder.lift' asStr asStr_injective

/-- `from_u64`. -/
def fromU64 (value : U64) : DecimalDto field :=
  ⟨toString value.val, value, parseDecimal_toString value field⟩

/-- `as_u64`. -/
def asU64 (d : DecimalDto field) : Except DtoValidationError U64 := parseDecimal d.asStr field

end DecimalDto

abbrev DecimalU64Dto := DecimalDto "decimal value"
abbrev NodeIdDto := DecimalDto "node ID"
abbrev RelationIdDto := DecimalDto "relation-kind ID"
abbrev EdgeIdDto := DecimalDto "edge ID"

/-- `id_conversions!`, to the wrapper. -/
def DurableId.toDto {k : IdKind} {field : String} (id : DurableId k) : DecimalDto field :=
  .fromU64 id.asU64

/-- `id_conversions!`, from the wrapper. -/
def DurableId.ofDto {k : IdKind} {field : String} (d : DecimalDto field) :
    Except DtoValidationError (DurableId k) :=
  return ⟨← d.asU64⟩

/-! ## Hexadecimal wrappers -/

/-- `Binary32Dto::from_bits`: the text it holds. -/
def binary32Text (bits : U32) : String := String.ofList ('0' :: 'x' :: hexDigits 8 bits.val)

/-- `parse_hex::<8>` and the conversion to 32 bits. -/
def parseBinary32 (value : String) : Except DtoValidationError U32 :=
  match value.toList with
  | '0' :: 'x' :: hex =>
    if hex.length ≠ 8 ∨ !hex.all isHexDigit then .error (.nonCanonicalHex "binary32 bits")
    else if h : hexValue hex < 2 ^ 32 then .ok ⟨hexValue hex, h⟩
    else .error (.nonCanonicalHex "binary32 bits")
  | _ => .error (.nonCanonicalHex "binary32 bits")

lemma parseBinary32_text (bits : U32) : parseBinary32 (binary32Text bits) = .ok bits := by
  have hbits : bits.val < 16 ^ 8 := bits.isLt
  have hall : (hexDigits 8 bits.val).all isHexDigit = true :=
    List.all_eq_true.2 (isHexDigit_of_mem hbits)
  have hvalue := hexValue_hexDigits hbits
  simp only [parseBinary32, binary32Text, String.toList_ofList, length_hexDigits, hall, ne_eq,
    not_true_eq_false, Bool.not_true, Bool.false_eq_true, or_self, if_false, hvalue, bits.isLt,
    dite_true]

/-- `Binary32Dto`: a canonical hexadecimal text. -/
structure Binary32Dto where
  asStr : String
  canonical : ∃ bits, asStr = binary32Text bits

/-- `Binary32Dto::from_bits`. -/
def Binary32Dto.fromBits (bits : U32) : Binary32Dto := ⟨binary32Text bits, bits, rfl⟩

/-- `Binary32Dto::bits`. -/
def Binary32Dto.bits (d : Binary32Dto) : Except DtoValidationError U32 := parseBinary32 d.asStr

/-! ## Relation profiles -/

/-- `RelationUseDto`. -/
inductive RelationUseDto
  | disabled
  | enabled (multiplier : Binary32Dto)

/-- `RelationProfileEntryDto`. -/
structure RelationProfileEntryDto where
  relationKind : RelationIdDto
  relationUse : RelationUseDto

/-- `RelationProfileDto`. -/
structure RelationProfileDto where
  entries : List RelationProfileEntryDto

/-- `RelationUseDto::from`. -/
def RelationUse.toDto : RelationUse → RelationUseDto
  | .disabled => .disabled
  | .enabled multiplier => .enabled (.fromBits multiplier.toBits)

/-- `RelationMultiplier::try_from`. -/
def RelationMultiplier.ofDto (d : Binary32Dto) : Except DtoValidationError RelationMultiplier := do
  let bits ← d.bits
  if h : bits.val < 0x7F800000 then return ⟨bits, h⟩
  else .error (.invalidNumericEvidence "relation multiplier")

/-- `RelationUse::try_from`. -/
def RelationUse.ofDto : RelationUseDto → Except DtoValidationError RelationUse
  | .disabled => .ok .disabled
  | .enabled multiplier => return .enabled (← RelationMultiplier.ofDto multiplier)

namespace RelationProfileDto

/-- The loop of `validate`. -/
def validateFrom : Option U64 → List RelationProfileEntryDto → Except DtoValidationError Unit
  | _, [] => .ok ()
  | previous, entry :: rest => do
    let current ← entry.relationKind.asU64
    if previous = some current then .error (.duplicateProfileRelation ⟨current⟩)
    else if previous.any fun value => decide (current < value) then .error .unorderedProfile
    else validateFrom (some current) rest

/-- `RelationProfileDto::validate`. -/
def validate (d : RelationProfileDto) : Except DtoValidationError Unit := validateFrom none d.entries

/-- One entry of `RelationProfile::try_from`. -/
def tryFromEntry (entry : RelationProfileEntryDto) :
    Except DtoValidationError (RelationId × RelationUse) := do
  let id ← DurableId.ofDto entry.relationKind
  let relationUse ← RelationUse.ofDto entry.relationUse
  return (id, relationUse)

end RelationProfileDto

/-- `RelationProfileDto::from`: the entries sorted by their relation kinds, as the wrappers compare
them. -/
def RelationProfile.toDto (profile : RelationProfile) : RelationProfileDto where
  entries := (profile.entries.map fun e => ⟨e.1.toDto, e.2.toDto⟩).insertionSort
    fun left right => left.relationKind ≤ right.relationKind

/-- `RelationProfile::try_from`. -/
def RelationProfile.tryFrom (d : RelationProfileDto) :
    Except DtoValidationError RelationProfile := do
  d.validate
  let entries ← d.entries.mapM RelationProfileDto.tryFromEntry
  return ⟨entries⟩

end PathHydra
