import PathHydra.Construction.Core

/-!
# The durable codec

How keys and records are written as bytes and read back.  Integers are big-endian, strings and
payloads are preceded by their length in four bytes, and a decoder rejects what is left over.
-/

namespace PathHydra

/-- `CodecError`. -/
inductive CodecError
  | truncated
  | trailingGarbage
  | invalidLength (length : ℕ)
  | invalidUtf8
  | invalidCandidateKind (kind : UInt8)
  | invalidCandidateReferenceKind (kind : UInt8)
  | invalidBaseWeight (bits : U32)
  | idMismatch (expected found : U64)
  | nameTooLong (length : ℕ)
  | payloadTooLong (length : ℕ)
  deriving DecidableEq

/-- The eight hexadecimal digits of a 32-bit value. -/
def hex32 (bits : U32) : String :=
  String.ofList ((List.range 8).reverse.map fun i => Nat.digitChar (bits.val / 16 ^ i % 16))

instance : ToString CodecError where
  toString
    | .truncated => "truncated input"
    | .trailingGarbage => "trailing garbage"
    | .invalidLength length => s!"invalid byte length {length}"
    | .invalidUtf8 => "invalid UTF-8"
    | .invalidCandidateKind kind => s!"unknown candidate kind {kind}"
    | .invalidCandidateReferenceKind kind => s!"unknown candidate reference kind {kind}"
    | .invalidBaseWeight bits => s!"invalid base-weight bits 0x{hex32 bits}"
    | .idMismatch expected found =>
      s!"record ID {found.val} does not match key ID {expected.val}"
    | .nameTooLong length => s!"name is too long: {length} bytes"
    | .payloadTooLong length => s!"node payload is too long: {length} bytes"

/-! ## Fields -/

/-- `u32::to_be_bytes`. -/
def beBytes32 (n : U32) : Bytes := beBytes 4 n.val

/-- `u64::to_be_bytes`. -/
def beBytes64 (n : U64) : Bytes := beBytes 8 n.val

namespace Reader

/-- `Reader::byte`. -/
def byte : Reader CodecError UInt8 := fun input =>
  match input with
  | [] => .error .truncated
  | b :: rest => .ok (b, rest)

/-- `Reader::u32`. -/
def u32 : Reader CodecError U32 := do
  let b ← take .truncated 4
  return Fin.ofNat (2 ^ 32) (beValue b)

/-- `Reader::u64`. -/
def u64 : Reader CodecError U64 := do
  let b ← take .truncated 8
  return Fin.ofNat (2 ^ 64) (beValue b)

/-- `Reader::bytes`: a length and as many bytes. -/
def bytes : Reader CodecError Bytes := do
  let length ← u32
  take .truncated length.val

/-- `Reader::payload`. -/
def payload : Reader CodecError NodePayload := do
  let b ← bytes
  if MAX_NODE_PAYLOAD_BYTES < b.length then fail (.payloadTooLong b.length) else return ⟨b⟩

/-- `Reader::string`. -/
def string : Reader CodecError String := do
  let b ← bytes
  match fromUtf8 b with
  | none => fail .invalidUtf8
  | some s => return s

/-- `Reader::weight`. -/
def weight : Reader CodecError BaseWeight := do
  let bits ← u32
  match BaseWeight.fromBits bits with
  | none => fail (.invalidBaseWeight bits)
  | some w => return w

end Reader

/-- `push_bytes`: what it appends. -/
def pushBytes (value : Bytes) : Except CodecError Bytes :=
  if MAX_NODE_PAYLOAD_BYTES < value.length then .error (.payloadTooLong value.length)
  else if h : value.length < 2 ^ 32 then .ok (beBytes32 ⟨value.length, h⟩ ++ value)
  else .error (.payloadTooLong value.length)

/-- `push_string`: what it appends. -/
def pushString (value : String) : Except CodecError Bytes :=
  if h : (strBytes value).length < 2 ^ 32 then
    .ok (beBytes32 ⟨(strBytes value).length, h⟩ ++ strBytes value)
  else .error (.nameTooLong (strBytes value).length)

/-! ## Keys -/

def encodeIdKey (id : U64) : Bytes := beBytes64 id

def decodeIdKey (b : Bytes) : Except CodecError U64 := Reader.u64.complete .trailingGarbage b

def encodeAdjacencyKey (node : NodeId) (edge : EdgeId) : Bytes :=
  beBytes64 node.asU64 ++ beBytes64 edge.asU64

def decodeAdjacencyKey (b : Bytes) : Except CodecError (NodeId × EdgeId) :=
  Reader.complete .trailingGarbage (do
    let node ← Reader.u64
    let edge ← Reader.u64
    return (⟨node⟩, ⟨edge⟩)) b

def encodeU64Record (value : U64) : Bytes := beBytes64 value

def decodeU64Record (b : Bytes) : Except CodecError U64 := decodeIdKey b

def encodeAdjacencyValue (edge : EdgeId) : Bytes := encodeU64Record edge.asU64

def decodeAdjacencyValue (b : Bytes) (expectedEdge : EdgeId) : Except CodecError Unit := do
  let found ← decodeU64Record b
  if found = expectedEdge.asU64 then .ok () else .error (.idMismatch expectedEdge.asU64 found)

def encodeNameKey (name : String) : Except CodecError Bytes := pushString name

def decodeNameKey (b : Bytes) : Except CodecError String :=
  Reader.string.complete .trailingGarbage b

/-- The popularity key orders relation kinds by falling usage. -/
def encodePopularityKey (record : RelationRecord) : Except CodecError Bytes :=
  match record.totalReferenceCount with
  | none => .error (.invalidLength (2 ^ 32 - 1))
  | some total =>
    .ok (beBytes64 total.rev ++ beBytes64 record.confirmedEdgeCount.rev ++
      beBytes64 record.id.asU64)

def decodePopularityKey (b : Bytes) : Except CodecError (U64 × U64 × RelationId) :=
  Reader.complete .trailingGarbage (do
    let total ← Reader.u64
    let confirmed ← Reader.u64
    let id ← Reader.u64
    return (total.rev, confirmed.rev, ⟨id⟩)) b

/-! ## Records -/

/-- `checked_id`. -/
def checkedId (expected : U64) : Reader CodecError U64 := do
  let found ← Reader.u64
  if found = expected then return found else Reader.fail (.idMismatch expected found)

def encodeNodeReference : CandidateNodeReference → Bytes
  | .confirmed id => 1 :: beBytes64 id.asU64
  | .candidate id => 2 :: beBytes64 id.asU64

def decodeNodeReference : Reader CodecError CandidateNodeReference := do
  let kind ← Reader.byte
  if kind = 1 then
    let id ← Reader.u64
    return .confirmed ⟨id⟩
  else if kind = 2 then
    let id ← Reader.u64
    return .candidate ⟨id⟩
  else Reader.fail (.invalidCandidateReferenceKind kind)

def encodeRelationReference : CandidateRelationReference → Bytes
  | .confirmed id => 1 :: beBytes64 id.asU64
  | .candidate id => 2 :: beBytes64 id.asU64

def decodeRelationReference : Reader CodecError CandidateRelationReference := do
  let kind ← Reader.byte
  if kind = 1 then
    let id ← Reader.u64
    return .confirmed ⟨id⟩
  else if kind = 2 then
    let id ← Reader.u64
    return .candidate ⟨id⟩
  else Reader.fail (.invalidCandidateReferenceKind kind)

def encodeCandidate : Candidate → Except CodecError Bytes
  | .node id name payload incomingReferenceCount => do
    let name ← pushString name.asStr
    let payload ← pushBytes payload.asBytes
    return 1 :: (beBytes64 id.asU64 ++ name ++ payload ++ beBytes64 incomingReferenceCount)
  | .relation id name incomingReferenceCount => do
    let name ← pushString name.asStr
    return 2 :: (beBytes64 id.asU64 ++ name ++ beBytes64 incomingReferenceCount)
  | .edge id source destination relationKind baseWeight =>
    return 3 :: (beBytes64 id.asU64 ++ encodeNodeReference source ++
      encodeNodeReference destination ++ encodeRelationReference relationKind ++
      beBytes32 baseWeight.toBits)

/-- The fields of a candidate after its kind and identifier. -/
def decodeCandidateFields (kind : UInt8) (id : CandidateId) : Reader CodecError Candidate :=
  if kind = 1 then do
    let name ← Reader.string
    let payload ← Reader.payload
    let incomingReferenceCount ← Reader.u64
    return .node id ⟨name⟩ payload incomingReferenceCount
  else if kind = 2 then do
    let name ← Reader.string
    let incomingReferenceCount ← Reader.u64
    return .relation id ⟨name⟩ incomingReferenceCount
  else if kind = 3 then do
    let source ← decodeNodeReference
    let destination ← decodeNodeReference
    let relationKind ← decodeRelationReference
    let baseWeight ← Reader.weight
    return .edge id source destination relationKind baseWeight
  else Reader.fail (.invalidCandidateKind kind)

def decodeCandidate (b : Bytes) (expectedId : U64) : Except CodecError Candidate :=
  Reader.complete .trailingGarbage (do
    let kind ← Reader.byte
    let id ← checkedId expectedId
    decodeCandidateFields kind ⟨id⟩) b

def encodeNode (record : NodeRecord) : Except CodecError Bytes := do
  let name ← pushString record.name.asStr
  let payload ← pushBytes record.payload.asBytes
  return beBytes64 record.id.asU64 ++ name ++ payload

def decodeNode (b : Bytes) (expectedId : U64) : Except CodecError NodeRecord :=
  Reader.complete .trailingGarbage (do
    let id ← checkedId expectedId
    let name ← Reader.string
    let payload ← Reader.payload
    return ⟨⟨id⟩, ⟨name⟩, payload⟩) b

def encodeRelation (record : RelationRecord) : Except CodecError Bytes := do
  let name ← pushString record.name.asStr
  return beBytes64 record.id.asU64 ++ name ++ beBytes64 record.provisionalReferenceCount ++
    beBytes64 record.confirmedEdgeCount

def decodeRelation (b : Bytes) (expectedId : U64) : Except CodecError RelationRecord := do
  let record : RelationRecord ← Reader.complete .trailingGarbage (do
    let id ← checkedId expectedId
    let name ← Reader.string
    let provisionalReferenceCount ← Reader.u64
    let confirmedEdgeCount ← Reader.u64
    return ⟨⟨id⟩, ⟨name⟩, provisionalReferenceCount, confirmedEdgeCount⟩) b
  match record.totalReferenceCount with
  | none => .error (.invalidLength (2 ^ 32 - 1))
  | some _ => .ok record

def encodeEdge (record : EdgeRecord) : Bytes :=
  beBytes64 record.id.asU64 ++ beBytes64 record.source.asU64 ++
    beBytes64 record.destination.asU64 ++ beBytes64 record.relationKind.asU64 ++
    beBytes32 record.baseWeight.toBits

def decodeEdge (b : Bytes) (expectedId : U64) : Except CodecError EdgeRecord :=
  Reader.complete .trailingGarbage (do
    let id ← checkedId expectedId
    let source ← Reader.u64
    let destination ← Reader.u64
    let relationKind ← Reader.u64
    let baseWeight ← Reader.weight
    return ⟨⟨id⟩, ⟨source⟩, ⟨destination⟩, ⟨relationKind⟩, baseWeight⟩) b

end PathHydra
