import PathHydra.Properties.Bundle.Codec

/-!
# The manifest has one encoding

A catalog refers to its bundle by the checksum of the manifest bytes, so the bytes must be
determined by what they say.  `BundleManifest.decode` accepts exactly the encodings of the current
manifests: what it accepts it would write again (`encode_of_decode`), and what is written reads
back (`decode_of_encode`).

`reservedBytes` are the bytes that all manifests with the same number of partitions share: the
policies, the widths, the number of partitions and the numbers of the partitions.
-/

namespace PathHydra

/-! ## What was read off the input -/

namespace Decoder

open Reader (take_eq_ok pure_eq_ok complete_eq_ok)

variable {input rest : Bytes}

lemma u32_eq_ok {n : U32} (h : u32 input = .ok (n, rest)) : input = putU32 n ++ rest := by
  obtain ⟨b, mid, htake, hpure⟩ := Reader.bind_eq_ok.1 h
  obtain ⟨rfl, rfl⟩ := pure_eq_ok.1 hpure
  obtain ⟨rfl, hlength⟩ := take_eq_ok htake
  have hval : (Fin.ofNat (2 ^ 32) (leValue b)).val = leValue b := by
    have hlt := leValue_lt b
    rw [hlength] at hlt
    exact Nat.mod_eq_of_lt (by simpa using hlt)
  rw [putU32, hval, leBytes_leValue hlength]

lemma u64_eq_ok {n : U64} (h : u64 input = .ok (n, rest)) : input = putU64 n ++ rest := by
  obtain ⟨b, mid, htake, hpure⟩ := Reader.bind_eq_ok.1 h
  obtain ⟨rfl, rfl⟩ := pure_eq_ok.1 hpure
  obtain ⟨rfl, hlength⟩ := take_eq_ok htake
  have hval : (Fin.ofNat (2 ^ 64) (leValue b)).val = leValue b := by
    have hlt := leValue_lt b
    rw [hlength] at hlt
    exact Nat.mod_eq_of_lt (by simpa using hlt)
  rw [putU64, hval, leBytes_leValue hlength]

lemma checksum_eq_ok {digest : Digest} (h : checksum input = .ok (digest, rest)) :
    input = digest.bytes ++ rest := by
  obtain ⟨b, mid, htake, hdigest⟩ := Reader.bind_eq_ok.1 h
  obtain ⟨rfl, hlength⟩ := take_eq_ok htake
  rw [dif_pos hlength] at hdigest
  obtain ⟨rfl, rfl⟩ := pure_eq_ok.1 hdigest
  rfl

lemma string_eq_ok {s : String} (h : string input = .ok (s, rest)) :
    ∃ b, putString s = .ok b ∧ input = b ++ rest := by
  obtain ⟨length, mid, hlengthBytes, h⟩ := Reader.bind_eq_ok.1 h
  obtain ⟨b, mid', htake, hs⟩ := Reader.bind_eq_ok.1 h
  obtain rfl := u32_eq_ok hlengthBytes
  obtain ⟨rfl, hlength⟩ := take_eq_ok htake
  rcases hutf : fromUtf8 b with _ | s'
  · rw [hutf] at hs
    cases hs
  · rw [hutf] at hs
    obtain ⟨rfl, rfl⟩ := pure_eq_ok.1 hs
    have hbytes : strBytes s' = b := strBytes_of_fromUtf8 hutf
    have hlt : (strBytes s').length < 2 ^ 32 := by
      rw [hbytes, hlength]
      exact length.isLt
    refine ⟨_, dif_pos hlt, ?_⟩
    have hfin : (⟨(strBytes s').length, hlt⟩ : U32) = length :=
      Fin.ext ((congrArg List.length hbytes).trans hlength)
    rw [hfin, hbytes, List.append_assoc]

end Decoder

namespace BundleManifest

open Reader (pure_eq_ok complete_eq_ok)

variable {input rest : Bytes}

lemma readWidths_eq_ok {widths : List U32} (h : readWidths widths input = .ok ((), rest)) :
    input = (widths.map putU32).flatten ++ rest := by
  induction widths generalizing input with
  | nil => exact (pure_eq_ok.1 h).2
  | cons width widths ih =>
    obtain ⟨found, mid, hfound, hrest⟩ := Reader.bind_eq_ok.1 h
    obtain rfl := Decoder.u32_eq_ok hfound
    by_cases heq : found = width
    · rw [if_neg (not_not.2 heq)] at hrest
      rw [ih hrest, heq, List.map_cons, List.flatten_cons, List.append_assoc]
    · rw [if_pos heq] at hrest
      cases hrest

lemma readFile_eq_ok {file : FileDescriptor} (h : readFile input = .ok (file, rest)) :
    input = file.encode ++ rest := by
  obtain ⟨length, mid, hlength, h⟩ := Reader.bind_eq_ok.1 h
  obtain ⟨digest, mid', hdigest, h⟩ := Reader.bind_eq_ok.1 h
  obtain ⟨rfl, rfl⟩ := pure_eq_ok.1 h
  rw [Decoder.u64_eq_ok hlength, Decoder.checksum_eq_ok hdigest, FileDescriptor.encode,
    List.append_assoc]

lemma readPartition_eq_ok {expected : ℕ} {p : PartitionDescriptor}
    (h : readPartition expected input = .ok (p, rest)) :
    input = p.encode ++ rest ∧ p.id.val = expected := by
  obtain ⟨id, mid₀, hid, h⟩ := Reader.bind_eq_ok.1 h
  by_cases heq : id.val = expected
  · rw [if_neg (not_not.2 heq)] at h
    obtain ⟨topologyOffset, mid₁, h₁, h⟩ := Reader.bind_eq_ok.1 h
    obtain ⟨topologyLength, mid₂, h₂, h⟩ := Reader.bind_eq_ok.1 h
    obtain ⟨topologyChecksum, mid₃, h₃, h⟩ := Reader.bind_eq_ok.1 h
    obtain ⟨evidenceOffset, mid₄, h₄, h⟩ := Reader.bind_eq_ok.1 h
    obtain ⟨evidenceLength, mid₅, h₅, h⟩ := Reader.bind_eq_ok.1 h
    obtain ⟨evidenceChecksum, mid₆, h₆, h⟩ := Reader.bind_eq_ok.1 h
    obtain ⟨segmentCount, mid₇, h₇, h⟩ := Reader.bind_eq_ok.1 h
    obtain ⟨edgeCount, mid₈, h₈, h⟩ := Reader.bind_eq_ok.1 h
    obtain ⟨rfl, rfl⟩ := pure_eq_ok.1 h
    refine ⟨?_, heq⟩
    rw [Decoder.u32_eq_ok hid, Decoder.u64_eq_ok h₁, Decoder.u64_eq_ok h₂,
      Decoder.checksum_eq_ok h₃, Decoder.u64_eq_ok h₄, Decoder.u64_eq_ok h₅,
      Decoder.checksum_eq_ok h₆, Decoder.u32_eq_ok h₇, Decoder.u64_eq_ok h₈]
    simp only [PartitionDescriptor.encode, List.append_assoc]
  · rw [if_pos heq] at h
    cases h

lemma readPartitions_eq_ok {expected n : ℕ} {ps : List PartitionDescriptor}
    (h : readPartitions expected n input = .ok (ps, rest)) :
    input = (ps.map PartitionDescriptor.encode).flatten ++ rest ∧ ps.length = n ∧
      ps.map (·.id.val) = List.range' expected ps.length := by
  induction n generalizing expected input ps with
  | zero =>
    obtain ⟨rfl, rfl⟩ := pure_eq_ok.1 h
    exact ⟨rfl, rfl, rfl⟩
  | succ n ih =>
    obtain ⟨p, mid, hp, h⟩ := Reader.bind_eq_ok.1 h
    obtain ⟨tail, mid', htail, h⟩ := Reader.bind_eq_ok.1 h
    obtain ⟨rfl, rfl⟩ := pure_eq_ok.1 h
    obtain ⟨rfl, hid⟩ := readPartition_eq_ok hp
    obtain ⟨rfl, hlength, hids⟩ := ih htail
    refine ⟨?_, ?_, ?_⟩
    · rw [List.map_cons, List.flatten_cons, List.append_assoc]
    · rw [List.length_cons, hlength]
    · rw [List.map_cons, List.length_cons, List.range'_succ, hid, hids]

/-- What is accepted is the encoding of a current manifest. -/
lemma encode_of_decode {bytes : Bytes} {m : BundleManifest} (h : decode bytes = .ok m) :
    m.encode = .ok bytes ∧ m.Current := by
  obtain ⟨numeric, mid₀, h₀, h⟩ := Reader.bind_eq_ok.1 (complete_eq_ok h)
  obtain ⟨tie, mid₁, h₁, h⟩ := Reader.bind_eq_ok.1 h
  by_cases hpolicy : numeric ≠ NUMERIC_POLICY_ID ∨ tie ≠ TIE_POLICY_ID
  · rw [if_pos hpolicy] at h
    cases h
  · rw [if_neg hpolicy] at h
    rw [not_or, not_not, not_not] at hpolicy
    obtain ⟨nodeCount, mid₂, h₂, h⟩ := Reader.bind_eq_ok.1 h
    obtain ⟨relationKindCount, mid₃, h₃, h⟩ := Reader.bind_eq_ok.1 h
    obtain ⟨adjacencyCount, mid₄, h₄, h⟩ := Reader.bind_eq_ok.1 h
    obtain ⟨segmentCount, mid₅, h₅, h⟩ := Reader.bind_eq_ok.1 h
    obtain ⟨targetPartitionBytes, mid₆, h₆, h⟩ := Reader.bind_eq_ok.1 h
    obtain ⟨hardMaximumPartitionBytes, mid₇, h₇, h⟩ := Reader.bind_eq_ok.1 h
    obtain ⟨u, mid₈, h₈, h⟩ := Reader.bind_eq_ok.1 h
    obtain ⟨identities, mid₉, h₉, h⟩ := Reader.bind_eq_ok.1 h
    obtain ⟨sourceDirectory, mid₁₀, h₁₀, h⟩ := Reader.bind_eq_ok.1 h
    obtain ⟨topology, mid₁₁, h₁₁, h⟩ := Reader.bind_eq_ok.1 h
    obtain ⟨evidence, mid₁₂, h₁₂, h⟩ := Reader.bind_eq_ok.1 h
    obtain ⟨count, mid₁₃, h₁₃, h⟩ := Reader.bind_eq_ok.1 h
    obtain ⟨partitions, mid₁₄, h₁₄, h⟩ := Reader.bind_eq_ok.1 h
    obtain ⟨rfl, rfl⟩ := pure_eq_ok.1 h
    obtain ⟨numericBytes, hnumeric, rfl⟩ := Decoder.string_eq_ok h₀
    obtain ⟨tieBytes, htie, rfl⟩ := Decoder.string_eq_ok h₁
    obtain ⟨rfl, hlength, hids⟩ := readPartitions_eq_ok h₁₄
    have hcount : partitions.length < 2 ^ 64 := hlength ▸ count.isLt
    have hfin : (⟨partitions.length, hcount⟩ : U64) = count := Fin.ext hlength
    refine ⟨?_, hpolicy.1, hpolicy.2, by rw [List.range_eq_range']; exact hids⟩
    unfold encode
    dsimp only
    rw [hnumeric, ok_bind, htie, ok_bind, dif_pos hcount, hfin, Decoder.u64_eq_ok h₂,
      Decoder.u64_eq_ok h₃, Decoder.u64_eq_ok h₄, Decoder.u64_eq_ok h₅, Decoder.u64_eq_ok h₆,
      Decoder.u64_eq_ok h₇, readWidths_eq_ok h₈, readFile_eq_ok h₉, readFile_eq_ok h₁₀,
      readFile_eq_ok h₁₁, readFile_eq_ok h₁₂, Decoder.u64_eq_ok h₁₃]
    simp only [List.append_assoc, List.append_nil]
    rfl

/-- Partitions are numbered with four bytes, so there are not too many to be counted. -/
lemma Current.exists_encode {m : BundleManifest} (hm : m.Current) :
    ∃ bytes, m.encode = .ok bytes := by
  obtain ⟨hnumeric, htie, hids⟩ := hm
  refine PathHydra.exists_encode (by rw [hnumeric]; decide +kernel)
    (by rw [htie]; decide +kernel) ?_
  by_contra hlong
  have hlast : 2 ^ 64 - 1 ∈ m.partitions.map (·.id.val) := by
    rw [hids, List.mem_range]
    omega
  obtain ⟨p, -, hp⟩ := List.mem_map.1 hlast
  have hlt := p.id.isLt
  omega

/-! ## Reserved bytes -/

/-- The bytes that all current manifests with `n` partitions share, at their positions. -/
def reservedBytes (n : ℕ) : List (Option UInt8) :=
  (leBytes 4 (strBytes NUMERIC_POLICY_ID).length ++ strBytes NUMERIC_POLICY_ID ++
      (leBytes 4 (strBytes TIE_POLICY_ID).length ++ strBytes TIE_POLICY_ID)).map some ++
    List.replicate 48 none ++ (bundleWidths.map putU32).flatten.map some ++
    List.replicate 160 none ++ (leBytes 8 n).map some ++
    ((List.range n).map fun id => (leBytes 4 id).map some ++ List.replicate 108 none).flatten

/-- The bytes are the reserved ones where there are any. -/
def Keeps (reserved : List (Option UInt8)) (b : Bytes) : Prop :=
  List.Forall₂ (fun r x => ∀ v, r = some v → x = v) reserved b

lemma keeps_some (b : Bytes) : Keeps (b.map some) b := by
  induction b with
  | nil => exact .nil
  | cons x b ih => exact .cons (fun v hv => Option.some.inj hv) ih

lemma keeps_none {b : Bytes} {n : ℕ} (h : b.length = n) : Keeps (List.replicate n none) b := by
  subst h
  induction b with
  | nil => exact .nil
  | cons x b ih => exact .cons (fun v hv => by cases hv) ih

lemma Keeps.append {r r' : List (Option UInt8)} {b b' : Bytes} (h : Keeps r b) (h' : Keeps r' b') :
    Keeps (r ++ r') (b ++ b') :=
  List.rel_append h h'

lemma keeps_partition (p : PartitionDescriptor) :
    Keeps ((leBytes 4 p.id.val).map some ++ List.replicate 108 none) p.encode := by
  unfold PartitionDescriptor.encode
  simp only [List.append_assoc]
  refine (keeps_some (putU32 p.id)).append (keeps_none ?_)
  simp [putU32, putU64, p.topologyChecksum.length_eq, p.evidenceChecksum.length_eq]

lemma keeps_partitions {ps : List PartitionDescriptor} {ids : List ℕ}
    (h : ps.map (·.id.val) = ids) :
    Keeps (ids.map fun id => (leBytes 4 id).map some ++ List.replicate 108 none).flatten
      (ps.map PartitionDescriptor.encode).flatten := by
  subst h
  induction ps with
  | nil => exact .nil
  | cons p ps ih => exact (keeps_partition p).append ih

lemma keeps_reservedBytes {m : BundleManifest} {bytes : Bytes} (hm : m.Current)
    (h : m.encode = .ok bytes) : Keeps (reservedBytes m.partitions.length) bytes := by
  obtain ⟨hnumeric, htie, hids⟩ := hm
  have hstring : ∀ {s : String} {b : Bytes}, putString s = .ok b →
      b = leBytes 4 (strBytes s).length ++ strBytes s := by
    intro s b hb
    unfold putString at hb
    split_ifs at hb
    cases hb
    rfl
  unfold encode at h
  obtain ⟨numeric, hnumericBytes, h⟩ := PathHydra.bind_eq_ok.1 h
  obtain ⟨tie, htieBytes, h⟩ := PathHydra.bind_eq_ok.1 h
  split_ifs at h with hcount
  cases h
  rw [hstring hnumericBytes, hstring htieBytes, hnumeric, htie]
  have hpolicies := keeps_some (leBytes 4 (strBytes NUMERIC_POLICY_ID).length ++
    strBytes NUMERIC_POLICY_ID ++ (leBytes 4 (strBytes TIE_POLICY_ID).length ++
    strBytes TIE_POLICY_ID))
  have hcounts : Keeps (List.replicate 48 none) (putU64 m.nodeCount ++ putU64 m.relationKindCount ++
      putU64 m.adjacencyCount ++ putU64 m.segmentCount ++ putU64 m.targetPartitionBytes ++
      putU64 m.hardMaximumPartitionBytes) := keeps_none (by simp [putU64])
  have hfiles : Keeps (List.replicate 160 none) (m.identities.encode ++ m.sourceDirectory.encode ++
      m.topology.encode ++ m.evidence.encode) :=
    keeps_none (by simp [FileDescriptor.encode, putU64, Digest.length_eq])
  have hall := ((((hpolicies.append hcounts).append
    (keeps_some (bundleWidths.map putU32).flatten)).append hfiles).append
    (keeps_some (leBytes 8 m.partitions.length))).append (keeps_partitions hids)
  simp only [List.append_assoc] at hall ⊢
  unfold reservedBytes
  simp only [List.append_assoc]
  exact hall

lemma Keeps.getElem?_eq {reserved : List (Option UInt8)} {b : Bytes} (h : Keeps reserved b) {i : ℕ}
    {v : UInt8} (hi : reserved[i]? = some (some v)) : b[i]? = some v := by
  induction h generalizing i with
  | nil => simp at hi
  | cons hx _ ih =>
    rcases i with _ | i
    · rw [List.getElem?_cons_zero, Option.some.injEq] at hi
      rw [List.getElem?_cons_zero, hx v hi]
    · rw [List.getElem?_cons_succ] at hi ⊢
      exact ih hi

/-! ## Rejected encodings -/

/-- An accepted manifest with something after it is rejected. -/
lemma decode_append {bytes rest : Bytes} {m : BundleManifest} (h : decode bytes = .ok m)
    (hrest : rest ≠ []) :
    decode (bytes ++ rest) = .error (.invalid "manifest has trailing bytes") := by
  obtain ⟨hencode, hm⟩ := encode_of_decode h
  exact (reads_manifest hencode hm).complete_append _ hrest

/-- Accepted manifests of one length agree on the reserved bytes. -/
lemma getElem?_eq_of_reserved {bytes altered : Bytes} {m m' : BundleManifest}
    (h : decode bytes = .ok m) (h' : decode altered = .ok m')
    (hlength : altered.length = bytes.length) {i : ℕ} {v : UInt8}
    (hi : (reservedBytes m.partitions.length)[i]? = some (some v)) : altered[i]? = bytes[i]? := by
  obtain ⟨hencode, hm⟩ := encode_of_decode h
  obtain ⟨hencode', hm'⟩ := encode_of_decode h'
  have hcount : m'.partitions.length = m.partitions.length := by
    have hbytes := length_of_encode hencode
    have haltered := length_of_encode hencode'
    rw [hm.numericPolicy_eq, hm.tiePolicy_eq] at hbytes
    rw [hm'.numericPolicy_eq, hm'.tiePolicy_eq] at haltered
    omega
  have hkeeps' := keeps_reservedBytes hm' hencode'
  rw [hcount] at hkeeps'
  rw [(keeps_reservedBytes hm hencode).getElem?_eq hi, hkeeps'.getElem?_eq hi]

lemma exists_error_of_ne_ok {bytes : Bytes} (h : ∀ m, decode bytes ≠ .ok m) :
    ∃ e, decode bytes = .error e := by
  rcases hdecode : decode bytes with e | m
  · exact ⟨e, rfl⟩
  · exact absurd hdecode (h m)

end BundleManifest

open BundleManifest in
/-- The manifest codec is exact: a current manifest is written and reads back; what is accepted is
what would be written, so what two accepted manifests say decides whether their checksums agree;
and a manifest that is cut off, continued or altered in a reserved byte is rejected. -/
theorem manifestCodec_exact (checksum : Bytes → Digest) :
    (∀ m : BundleManifest, m.Current → ∃ bytes, m.encode = .ok bytes ∧ decode bytes = .ok m) ∧
    (∀ bytes m, decode bytes = .ok m → m.encode = .ok bytes) ∧
    (∀ bytes bytes' m, decode bytes = .ok m → decode bytes' = .ok m →
      checksum bytes = checksum bytes') ∧
    ∀ bytes m, decode bytes = .ok m →
      (∀ k < bytes.length, ∃ e, decode (bytes.take k) = .error e) ∧
      (∀ rest, rest ≠ [] → ∃ e, decode (bytes ++ rest) = .error e) ∧
      ∀ (altered : Bytes) (i : ℕ) (v : UInt8), altered.length = bytes.length →
        (reservedBytes m.partitions.length)[i]? = some (some v) → altered[i]? ≠ bytes[i]? →
        ∃ e, decode altered = .error e := by
  refine ⟨?_, ?_, ?_, ?_⟩
  · intro m hm
    obtain ⟨bytes, hbytes⟩ := hm.exists_encode
    exact ⟨bytes, hbytes, decode_of_encode hbytes hm⟩
  · intro bytes m h
    exact (encode_of_decode h).1
  · intro bytes bytes' m h h'
    have heq := (encode_of_decode h).1.symm.trans (encode_of_decode h').1
    rw [Except.ok.inj heq]
  · intro bytes m h
    refine ⟨?_, ?_, ?_⟩
    · intro k hk
      -- were the part accepted, the whole would have trailing bytes
      refine exists_error_of_ne_ok fun m' hpart => ?_
      have hrest : bytes.drop k ≠ [] := by simpa using hk
      have htrailing := decode_append hpart hrest
      rw [List.take_append_drop, h] at htrailing
      cases htrailing
    · intro rest hrest
      exact ⟨_, decode_append h hrest⟩
    · intro altered i v hlength hi hne
      exact exists_error_of_ne_ok fun m' h' => hne (getElem?_eq_of_reserved h h' hlength hi)

/-- A digest of zeros. -/
def zeroDigest : Digest := ⟨List.replicate 32 0, rfl⟩

/-- A manifest of one partition. -/
def onePartitionManifest : BundleManifest where
  numericPolicy := NUMERIC_POLICY_ID
  tiePolicy := TIE_POLICY_ID
  nodeCount := 2
  relationKindCount := 1
  adjacencyCount := 1
  segmentCount := 1
  targetPartitionBytes := 4096
  hardMaximumPartitionBytes := 8192
  identities := ⟨24, zeroDigest⟩
  sourceDirectory := ⟨32, zeroDigest⟩
  topology := ⟨16, zeroDigest⟩
  evidence := ⟨8, zeroDigest⟩
  partitions := [⟨0, 0, 16, zeroDigest, 0, 8, zeroDigest, 1, 1⟩]

open BundleManifest in
theorem manifestCodec_exact_onePartition :
    onePartitionManifest.Current ∧
    (∃ bytes, onePartitionManifest.encode = .ok bytes ∧ decode bytes = .ok onePartitionManifest ∧
      (∀ k < bytes.length, ∃ e, decode (bytes.take k) = .error e) ∧
      ∃ e, decode (bytes ++ [0]) = .error e) := by
  have hcurrent : onePartitionManifest.Current := ⟨rfl, rfl, rfl⟩
  obtain ⟨hwritten, -, -, hrejected⟩ := manifestCodec_exact fun _ => zeroDigest
  obtain ⟨bytes, hencode, hdecode⟩ := hwritten _ hcurrent
  obtain ⟨htruncated, hextended, -⟩ := hrejected bytes _ hdecode
  exact ⟨hcurrent, bytes, hencode, hdecode, htruncated, hextended [0] (by simp)⟩

end PathHydra
