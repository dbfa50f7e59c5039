import Mathlib.Order.Lattice
import Mathlib.Tactic.Common
import PathHydra.Framework.ByteCodec
import PathHydra.Framework.MachineInt

/-!
# Graph domain types

The dependency-free types every other part of the program speaks: durable identifiers, exact
names, opaque payloads, base weights, and the candidate and confirmed records built from them.

The four identifier types are one construction, `DurableId`, at four kinds, so that an identifier
of one kind is never taken for another.  A `BaseWeight` carries the canonicity of its bits and a
`RelationMultiplier` its finiteness, so no consumer re-checks them.
-/

namespace PathHydra

/-! ## Identifiers -/

/-- What an identifier names. -/
inductive IdKind
  | candidate | node | relation | edge
  deriving DecidableEq, Repr

/-- A durable 64-bit identifier of one kind. -/
structure DurableId (k : IdKind) where
  asU64 : U64
  deriving DecidableEq, Repr

abbrev CandidateId := DurableId .candidate
abbrev NodeId := DurableId .node
abbrev RelationId := DurableId .relation
abbrev EdgeId := DurableId .edge

namespace DurableId

variable {k : IdKind}

lemma asU64_injective : Function.Injective (asU64 : DurableId k → U64) := by
  rintro ⟨a⟩ ⟨b⟩ h
  cases h
  rfl

instance : LinearOrder (DurableId k) := LinearOrder.lift' asU64 asU64_injective

lemma lt_def {a b : DurableId k} : a < b ↔ a.asU64.val < b.asU64.val := Iff.rfl

lemma ext_val {a b : DurableId k} (h : a.asU64.val = b.asU64.val) : a = b :=
  asU64_injective (Fin.ext h)

/-- The identifier with a given number, wrapped to 64 bits. -/
def ofNat (n : ℕ) : DurableId k := ⟨Fin.ofNat (2 ^ 64) n⟩

end DurableId

/-! ## Names, payloads and weights -/

/-- An exact, case-sensitive node name. -/
structure NodeName where
  asStr : String
  deriving DecidableEq, Repr

/-- An exact, case-sensitive relation-kind name. -/
structure RelationName where
  asStr : String
  deriving DecidableEq, Repr

/-- Opaque caller-owned bytes stored with a node. -/
structure NodePayload where
  asBytes : Bytes
  deriving DecidableEq, Repr

/-- The largest node payload the durable store accepts (16 MiB). -/
def MAX_NODE_PAYLOAD_BYTES : ℕ := 16 * 1024 * 1024

/-- A canonical binary32 weight in `[0, 1]`, held as its bits.  Nonnegative binary32 values are
ordered like their bit patterns, `0x3F800000` being `1.0`, so the bound excludes the negative
values, the values above one, the infinities and the NaNs at once; it also excludes `-0.0`, whose
pattern the program canonicalizes to `+0.0`. -/
structure BaseWeight where
  toBits : U32
  le_one : toBits.val ≤ 0x3F800000

namespace BaseWeight

@[ext] lemma ext {a b : BaseWeight} (h : a.toBits = b.toBits) : a = b := by
  cases a
  cases b
  cases h
  rfl

instance : DecidableEq BaseWeight := fun a b =>
  decidable_of_iff (a.toBits = b.toBits) ⟨ext, fun h => h ▸ rfl⟩

lemma zeroBits_le : (0 : U32).val ≤ 0x3F800000 := by decide

lemma leastBits_le : (1 : U32).val ≤ 0x3F800000 := by decide

lemma oneBits_le : (0x3F800000 : U32).val ≤ 0x3F800000 := by decide

/-- `BaseWeight::from_bits`: the bits are accepted when they are canonical. -/
def fromBits (bits : U32) : Option BaseWeight :=
  if h : bits.val ≤ 0x3F800000 then some ⟨bits, h⟩ else none

@[simp] lemma fromBits_toBits (w : BaseWeight) : fromBits w.toBits = some w := by
  simp [fromBits, w.le_one]

lemma toBits_of_fromBits {bits : U32} {w : BaseWeight} (h : fromBits bits = some w) :
    w.toBits = bits := by
  unfold fromBits at h
  split at h
  · cases h
    rfl
  · cases h

end BaseWeight

/-- A canonical finite nonnegative binary32 multiplier, held as its bits. -/
structure RelationMultiplier where
  toBits : U32
  finite : toBits.val < 0x7F800000

namespace RelationMultiplier

@[ext] lemma ext {a b : RelationMultiplier} (h : a.toBits = b.toBits) : a = b := by
  cases a
  cases b
  cases h
  rfl

instance : DecidableEq RelationMultiplier := fun a b =>
  decidable_of_iff (a.toBits = b.toBits) ⟨ext, fun h => h ▸ rfl⟩

/-- The multiplier `1.0`. -/
def one : RelationMultiplier := ⟨⟨0x3F800000, by decide⟩, by decide⟩

end RelationMultiplier

/-! ## Digests -/

/-- A 32-byte digest. -/
structure Digest where
  bytes : Bytes
  length_eq : bytes.length = 32

lemma length_zeroDigest : (List.replicate 32 (0 : UInt8)).length = 32 := List.length_replicate

@[ext] lemma Digest.ext {a b : Digest} (h : a.bytes = b.bytes) : a = b := by
  cases a
  cases b
  cases h
  rfl

instance : DecidableEq Digest := fun a b =>
  decidable_of_iff (a.bytes = b.bytes) ⟨Digest.ext, fun h => h ▸ rfl⟩

/-! ## Records -/

/-- The identity a provisional edge endpoint refers to. -/
inductive CandidateNodeReference
  | confirmed (id : NodeId)
  | candidate (id : CandidateId)
  deriving DecidableEq

/-- The identity a provisional edge's relation kind refers to. -/
inductive CandidateRelationReference
  | confirmed (id : RelationId)
  | candidate (id : CandidateId)
  deriving DecidableEq

/-- Stored proposed graph material that is not visible through confirmed lookup. -/
inductive Candidate
  | node (id : CandidateId) (name : NodeName) (payload : NodePayload)
      (incomingReferenceCount : U64)
  | relation (id : CandidateId) (name : RelationName) (incomingReferenceCount : U64)
  | edge (id : CandidateId) (source destination : CandidateNodeReference)
      (relationKind : CandidateRelationReference) (baseWeight : BaseWeight)
  deriving DecidableEq

/-- The identifier a candidate is stored under. -/
def Candidate.id : Candidate → CandidateId
  | .node id .. | .relation id .. | .edge id .. => id

/-- A confirmed node identity record. -/
structure NodeRecord where
  id : NodeId
  name : NodeName
  payload : NodePayload
  deriving DecidableEq

/-- A confirmed relation kind with its usage counters. -/
structure RelationRecord where
  id : RelationId
  name : RelationName
  provisionalReferenceCount : U64
  confirmedEdgeCount : U64
  deriving DecidableEq

namespace RelationRecord

/-- A relation kind nothing refers to yet. -/
def new (id : RelationId) (name : RelationName) : RelationRecord := ⟨id, name, 0, 0⟩

/-- The sum of the two usage counters, if it fits. -/
def totalReferenceCount (r : RelationRecord) : Option U64 :=
  r.provisionalReferenceCount.checkedAdd r.confirmedEdgeCount

end RelationRecord

/-- One confirmed, typed, directed, weighted edge. -/
structure EdgeRecord where
  id : EdgeId
  source : NodeId
  destination : NodeId
  relationKind : RelationId
  baseWeight : BaseWeight
  deriving DecidableEq

/-- The stable record created by confirming a candidate. -/
inductive ConfirmedRecord
  | node (record : NodeRecord)
  | relation (record : RelationRecord)
  | edge (record : EdgeRecord)
  deriving DecidableEq

/-- A self-contained read of every confirmed graph record. -/
structure ConfirmedGraphRecords where
  nodes : List NodeRecord
  relationKinds : List RelationRecord
  edges : List EdgeRecord
  deriving DecidableEq

end PathHydra
