import PathHydra.Framework.Json
import PathHydra.Framework.MachineInt

/-!
# The scan before a document is parsed

`scanBeforeDeserialize` bounds the length, the nesting and the number of values of a document in one
pass over its bytes, before the parser allocates anything for it.

Every loop runs on fuel and every access is checked: `JsonCodecError.unfinished` and
`JsonCodecError.outOfRange` are the model's own, for a loop that goes on and for an index that
panics.
-/

namespace PathHydra

/-- `CodecLimit`, as far as the scan meets one. -/
inductive SyntaxLimit
  | encodedBytes
  | nestingDepth
  | jsonValues
  deriving DecidableEq

/-- `MalformedKind`. -/
inductive MalformedKind
  | invalidUtf8
  | byteOrderMark
  | jsonSyntax
  | duplicateField
  | unknownField
  | trailingDocument
  | nonCanonical
  | contextualValidation
  deriving DecidableEq

/-- `CodecError` of the API, as far as the scan raises it. -/
inductive JsonCodecError
  | limitExceeded (limit : SyntaxLimit) (maximum observedAtLeast : ℕ)
  | malformed (kind : MalformedKind) (line column : Option ℕ)
  | outOfRange
  | unfinished
  deriving DecidableEq

/-- The limits of `ApiLimits` that the scan reads. -/
structure SyntaxLimits where
  maximumEncodedBytes : U64
  maximumNestingDepth : U64
  maximumJsonValues : U64
  deriving DecidableEq

namespace Scan

open JsonByte

/-- A syntax error without a position. -/
def syntaxError : JsonCodecError := .malformed .jsonSyntax none none

/-- `bytes[index]`. -/
def byteAt (bytes : Bytes) (index : ℕ) : Except JsonCodecError UInt8 :=
  match bytes[index]? with
  | some b => .ok b
  | none => .error .outOfRange

/-- `is_ascii_whitespace`. -/
def isAsciiWhitespace (b : UInt8) : Bool :=
  b = 0x20 || b = 0x09 || b = 0x0A || b = 0x0C || b = 0x0D

/-- The loop of `scan_string`. -/
def scanStringFrom (bytes : Bytes) : ℕ → ℕ → Bool → Except JsonCodecError ℕ
  | 0, _, _ => .error .unfinished
  | fuel + 1, index, escaped =>
    if index < bytes.length then do
      let byte ← byteAt bytes index
      if escaped then scanStringFrom bytes fuel (index + 1) false
      else if byte = backslash then scanStringFrom bytes fuel (index + 1) true
      else if byte = quote then return index + 1
      else scanStringFrom bytes fuel (index + 1) false
    else .error syntaxError

/-- `scan_string`: the index after the closing quote. -/
def scanString (bytes : Bytes) (start : ℕ) : Except JsonCodecError ℕ :=
  scanStringFrom bytes (bytes.length + 1) (start + 1) false

/-- A loop that passes over bytes. -/
def skipWhile (passed : UInt8 → Bool) (bytes : Bytes) : ℕ → ℕ → Except JsonCodecError ℕ
  | 0, _ => .error .unfinished
  | fuel + 1, index =>
    if index < bytes.length then do
      let byte ← byteAt bytes index
      if passed byte then skipWhile passed bytes fuel (index + 1) else return index
    else return index

/-- The loop that passes over white space. -/
def skipWhitespace (bytes : Bytes) (after : ℕ) : Except JsonCodecError ℕ :=
  skipWhile isAsciiWhitespace bytes (bytes.length + 1) after

/-- What a number or a literal goes on with. -/
def inScalar (b : UInt8) : Bool :=
  !(b = comma || b = closeBracket || b = closeBrace) && !isAsciiWhitespace b

/-- The loop that passes over the rest of a number or a literal. -/
def skipScalar (bytes : Bytes) (index : ℕ) : Except JsonCodecError ℕ :=
  skipWhile inScalar bytes (bytes.length + 1) index

/-- `increment_values`. -/
def incrementValues (values : ℕ) (limits : SyntaxLimits) : Except JsonCodecError ℕ :=
  let values := saturatingAdd64 values 1
  if limits.maximumJsonValues.val < values then
    .error (.limitExceeded .jsonValues limits.maximumJsonValues.val values)
  else .ok values

/-- Whether the string that ends before `stop` is followed by a colon. -/
def isKey (bytes : Bytes) (stop : ℕ) : Except JsonCodecError Bool := do
  let after ← skipWhitespace bytes stop
  if after < bytes.length then do
    let byte ← byteAt bytes after
    return byte = colon
  else return false

/-- What starts a number or a literal. -/
def startsScalar (b : UInt8) : Bool :=
  b = minus || (0x30 ≤ b && b ≤ 0x39) || b = 0x74 || b = 0x66 || b = 0x6E

/-- The main loop. -/
def scanFrom (bytes : Bytes) (limits : SyntaxLimits) : ℕ → ℕ → ℕ → ℕ → Except JsonCodecError Unit
  | 0, _, _, _ => .error .unfinished
  | fuel + 1, index, depth, values =>
    if index < bytes.length then do
      let byte ← byteAt bytes index
      if byte = quote then do
        let stop ← scanString bytes index
        let key ← isKey bytes stop
        let values ← if key then .ok values else incrementValues values limits
        scanFrom bytes limits fuel stop depth values
      else if byte = openBrace ∨ byte = openBracket then do
        let values ← incrementValues values limits
        let depth := saturatingAdd64 depth 1
        if limits.maximumNestingDepth.val < depth then
          .error (.limitExceeded .nestingDepth limits.maximumNestingDepth.val depth)
        else scanFrom bytes limits fuel (index + 1) depth values
      else if byte = closeBrace ∨ byte = closeBracket then
        match checkedSub64 depth 1 with
        | none => .error syntaxError
        | some depth => scanFrom bytes limits fuel (index + 1) depth values
      else if startsScalar byte then do
        let values ← incrementValues values limits
        let index ← skipScalar bytes (index + 1)
        scanFrom bytes limits fuel index depth values
      else scanFrom bytes limits fuel (index + 1) depth values
    else if depth ≠ 0 then .error syntaxError else return ()

end Scan

/-- The bytes of a byte order mark. -/
def byteOrderMark : Bytes := [0xEF, 0xBB, 0xBF]

/-- `scan_before_deserialize`. -/
def scanBeforeDeserialize (input : Bytes) (limits : SyntaxLimits) : Except JsonCodecError Unit :=
  if limits.maximumEncodedBytes.val < input.length then
    .error (.limitExceeded .encodedBytes limits.maximumEncodedBytes.val input.length)
  else if fromUtf8 input = none then .error (.malformed .invalidUtf8 none none)
  else if byteOrderMark.isPrefixOf input then
    .error (.malformed .byteOrderMark (some 1) (some 1))
  else Scan.scanFrom input limits (input.length + 1) 0 0 0

end PathHydra
