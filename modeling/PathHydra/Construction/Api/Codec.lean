import PathHydra.Construction.Api.Hydration
import PathHydra.Construction.Api.Scan

/-!
# The canonical codec

`encodeCanonical` checks a DTO against the limits of its fields and prints it through a writer that
holds only so many bytes.  `decodeAndReencode` scans the input, parses it, checks the fields and
prints what it has read.

A DTO is given by what is printed of it, by its parser and by the checks of its fields.  Failed
allocations are left out.
-/

namespace PathHydra

/-- `CodecError`: of the syntax, or of the fields of a DTO. -/
inductive CodecFailure
  | json (error : JsonCodecError)
  | boundary (error : ApiCodecError)
  deriving DecidableEq

/-- `CanonicalDto`: the pieces that `Serialize` writes one after the other, what `Deserialize` and
`end` make of an input, and `validate_boundary` against the limits of fields. -/
structure CanonicalDto (T L : Type) where
  pieces : T → List Bytes
  deserialize : Bytes → Except JsonCodecError T
  validateBoundary : T → L → Except ApiCodecError Unit

/-- `ApiLimits`: the limits of fields, and those of the syntax. -/
structure CodecLimits (L : Type) where
  fields : L
  document : SyntaxLimits

/-- `BoundedWriter::write` on what was written so far.  Two buffers in memory have lengths whose sum
does not saturate. -/
def boundedWrite (maximum : ℕ) (bytes buffer : Bytes) : Except JsonCodecError Bytes :=
  let attempted := bytes.length + buffer.length
  if maximum < attempted then .error (.limitExceeded .encodedBytes maximum attempted)
  else .ok (bytes ++ buffer)

/-- `CanonicalDocument`. -/
structure CanonicalDocument (T : Type) where
  value : T
  canonicalBytes : Bytes
  inputWasCanonical : Bool

section

variable {T L : Type} (dto : CanonicalDto T L)

/-- `encode_canonical`. -/
def encodeCanonical (value : T) (limits : CodecLimits L) : Except CodecFailure Bytes := do
  mapErr .boundary (dto.validateBoundary value limits.fields)
  mapErr .json ((dto.pieces value).foldlM (boundedWrite limits.document.maximumEncodedBytes.val) [])

/-- `decode_and_reencode`. -/
def decodeAndReencode (input : Bytes) (limits : CodecLimits L) :
    Except CodecFailure (CanonicalDocument T) := do
  mapErr .json (scanBeforeDeserialize input limits.document)
  let value ← mapErr .json (dto.deserialize input)
  mapErr .boundary (dto.validateBoundary value limits.fields)
  let canonicalBytes ← encodeCanonical dto value limits
  return ⟨value, canonicalBytes, canonicalBytes = input⟩

/-- `decode_strict_canonical`. -/
def decodeStrictCanonical (input : Bytes) (limits : CodecLimits L) : Except CodecFailure T := do
  let document ← decodeAndReencode dto input limits
  if !document.inputWasCanonical then .error (.json (.malformed .nonCanonical none none))
  else return document.value

end

end PathHydra
