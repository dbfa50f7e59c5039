import PathHydra.Construction.Routing.Image
import PathHydra.Construction.Bundle.Layout

/-!
# The manifest of a routing bundle

The little-endian field codec of the bundle files, and the manifest: the counts, the files and the
partitions of a bundle.  `BundleManifest.decode` rejects unknown policies, unsupported widths,
partitions that are not numbered densely and anything left over.
-/

namespace PathHydra

/-- `BundleError`.  `noReturn` is the model's own: the outcome where an index panics. -/
inductive BundleError
  | io (reason : String)
  | invalid (reason : String)
  | limit (resource : String) (required limit : ℕ)
  | noReturn
  deriving DecidableEq

/-! ## Fields -/

/-- `put_u32`: what it appends. -/
def putU32 (value : U32) : Bytes := leBytes 4 value.val

/-- `put_u64`: what it appends. -/
def putU64 (value : U64) : Bytes := leBytes 8 value.val

/-- `put_string`: what it appends. -/
def putString (value : String) : Except BundleError Bytes :=
  if h : (strBytes value).length < 2 ^ 32 then
    .ok (putU32 ⟨(strBytes value).length, h⟩ ++ strBytes value)
  else .error (.invalid "policy identifier is too long")

namespace Decoder

/-- `Decoder::u32`. -/
def u32 : Reader BundleError U32 := do
  let b ← Reader.take (.invalid "truncated field") 4
  return Fin.ofNat (2 ^ 32) (leValue b)

/-- `Decoder::u64`. -/
def u64 : Reader BundleError U64 := do
  let b ← Reader.take (.invalid "truncated field") 8
  return Fin.ofNat (2 ^ 64) (leValue b)

/-- `Decoder::checksum`. -/
def checksum : Reader BundleError Digest := do
  let b ← Reader.take (.invalid "truncated field") 32
  if h : b.length = 32 then return ⟨b, h⟩ else Reader.fail .noReturn

/-- `Decoder::string`. -/
def string : Reader BundleError String := do
  let length ← u32
  let b ← Reader.take (.invalid "truncated field") length.val
  match fromUtf8 b with
  | none => Reader.fail (.invalid "policy identifier is not UTF-8")
  | some s => return s

/-- A loop that reads one value after the other. -/
def many {α : Type} (r : Reader BundleError α) : ℕ → Reader BundleError (List α)
  | 0 => pure []
  | n + 1 => do
    let a ← r
    let rest ← many r n
    return a :: rest

/-- A reader followed by `finish`. -/
def all {α : Type} (r : Reader BundleError α) (input : Bytes) : Except BundleError α :=
  Reader.complete (.invalid "manifest has trailing bytes") r input

end Decoder

/-! ## The manifest -/

/-- `FileDescriptor`. -/
structure FileDescriptor where
  length : U64
  checksum : Digest
  deriving DecidableEq

/-- `BundleManifest`. -/
structure BundleManifest where
  numericPolicy : String
  tiePolicy : String
  nodeCount : U64
  relationKindCount : U64
  adjacencyCount : U64
  segmentCount : U64
  targetPartitionBytes : U64
  hardMaximumPartitionBytes : U64
  identities : FileDescriptor
  sourceDirectory : FileDescriptor
  topology : FileDescriptor
  evidence : FileDescriptor
  partitions : List PartitionDescriptor
  deriving DecidableEq

/-- The widths of the stored elements. -/
def bundleWidths : List U32 := [8, 8, 8, 4, 4, 4, 8]

def FileDescriptor.encode (file : FileDescriptor) : Bytes :=
  putU64 file.length ++ file.checksum.bytes

def PartitionDescriptor.encode (p : PartitionDescriptor) : Bytes :=
  putU32 p.id ++ putU64 p.topologyOffset ++ putU64 p.topologyLength ++
    p.topologyChecksum.bytes ++ putU64 p.evidenceOffset ++ putU64 p.evidenceLength ++
    p.evidenceChecksum.bytes ++ putU32 p.segmentCount ++ putU64 p.edgeCount

namespace BundleManifest

/-- `BundleManifest::encode`. -/
def encode (m : BundleManifest) : Except BundleError Bytes := do
  let numericPolicy ← putString m.numericPolicy
  let tiePolicy ← putString m.tiePolicy
  if h : m.partitions.length < 2 ^ 64 then
    return numericPolicy ++ tiePolicy ++
      putU64 m.nodeCount ++ putU64 m.relationKindCount ++ putU64 m.adjacencyCount ++
      putU64 m.segmentCount ++ putU64 m.targetPartitionBytes ++
      putU64 m.hardMaximumPartitionBytes ++
      (bundleWidths.map putU32).flatten ++
      m.identities.encode ++ m.sourceDirectory.encode ++ m.topology.encode ++
      m.evidence.encode ++ putU64 ⟨m.partitions.length, h⟩ ++
      (m.partitions.map PartitionDescriptor.encode).flatten
  else .error (.invalid "partition count overflow")

/-- Reads the expected widths one by one. -/
def readWidths : List U32 → Reader BundleError Unit
  | [] => pure ()
  | width :: rest => do
    let found ← Decoder.u32
    if found ≠ width then Reader.fail (.invalid "unsupported element width") else readWidths rest

def readFile : Reader BundleError FileDescriptor := do
  let length ← Decoder.u64
  let checksum ← Decoder.checksum
  return ⟨length, checksum⟩

/-- Reads one partition, which must have the expected number. -/
def readPartition (expected : ℕ) : Reader BundleError PartitionDescriptor := do
  let id ← Decoder.u32
  if id.val ≠ expected then Reader.fail (.invalid "partition IDs are not dense")
  else do
    let topologyOffset ← Decoder.u64
    let topologyLength ← Decoder.u64
    let topologyChecksum ← Decoder.checksum
    let evidenceOffset ← Decoder.u64
    let evidenceLength ← Decoder.u64
    let evidenceChecksum ← Decoder.checksum
    let segmentCount ← Decoder.u32
    let edgeCount ← Decoder.u64
    return ⟨id, topologyOffset, topologyLength, topologyChecksum, evidenceOffset, evidenceLength,
      evidenceChecksum, segmentCount, edgeCount⟩

/-- Reads the remaining partitions. -/
def readPartitions (expected : ℕ) : ℕ → Reader BundleError (List PartitionDescriptor)
  | 0 => pure []
  | n + 1 => do
    let p ← readPartition expected
    let rest ← readPartitions (expected + 1) n
    return p :: rest

/-- The fields of a manifest in their order. -/
def read : Reader BundleError BundleManifest := do
  let numericPolicy ← Decoder.string
  let tiePolicy ← Decoder.string
  if numericPolicy ≠ NUMERIC_POLICY_ID ∨ tiePolicy ≠ TIE_POLICY_ID then
    Reader.fail (.invalid "unknown numeric or tie policy")
  else do
    let nodeCount ← Decoder.u64
    let relationKindCount ← Decoder.u64
    let adjacencyCount ← Decoder.u64
    let segmentCount ← Decoder.u64
    let targetPartitionBytes ← Decoder.u64
    let hardMaximumPartitionBytes ← Decoder.u64
    readWidths bundleWidths
    let identities ← readFile
    let sourceDirectory ← readFile
    let topology ← readFile
    let evidence ← readFile
    let count ← Decoder.u64
    let partitions ← readPartitions 0 count.val
    return ⟨numericPolicy, tiePolicy, nodeCount, relationKindCount, adjacencyCount, segmentCount,
      targetPartitionBytes, hardMaximumPartitionBytes, identities, sourceDirectory, topology,
      evidence, partitions⟩

/-- `BundleManifest::decode`. -/
def decode (bytes : Bytes) : Except BundleError BundleManifest := Decoder.all read bytes

end BundleManifest

end PathHydra
