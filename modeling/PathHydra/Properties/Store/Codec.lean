import PathHydra.Construction.Store.Codec

/-!
# The codec round trips

Every key and record that can be encoded is read back as it was written.  For each encoder the
bytes are named (`nodeBytes`, `relationBytes`, ...), the encoder is shown to produce them when the
name and the payload fit, and the decoder to invert them.  Keys are injective, and those made of
identifiers keep the order of the identifiers.

The encoding is canonical: what a decoder accepts are the bytes of what it returns
(`decodeNode_eq_ok` and its siblings).
-/

namespace PathHydra

/-! ## Fields -/

/-- The name can be written with a four-byte length. -/
def NameFits (s : String) : Prop := (strBytes s).length < 2 ^ 32

/-- The payload is within the limit of the store. -/
def PayloadFits (p : NodePayload) : Prop := p.asBytes.length ≤ MAX_NODE_PAYLOAD_BYTES

def nameBytes (s : String) : Bytes := beBytes 4 (strBytes s).length ++ strBytes s

def payloadBytes (p : NodePayload) : Bytes := beBytes 4 p.asBytes.length ++ p.asBytes

lemma pushString_eq {s : String} (h : NameFits s) : pushString s = .ok (nameBytes s) :=
  dif_pos h

lemma PayloadFits.lt {p : NodePayload} (h : PayloadFits p) : p.asBytes.length < 2 ^ 32 := by
  unfold PayloadFits MAX_NODE_PAYLOAD_BYTES at h
  omega

lemma pushBytes_eq {p : NodePayload} (h : PayloadFits p) :
    pushBytes p.asBytes = .ok (payloadBytes p) := by
  have hle : ¬ MAX_NODE_PAYLOAD_BYTES < p.asBytes.length := not_lt.2 h
  rw [pushBytes, if_neg hle, dif_pos h.lt]
  rfl

lemma reads_u64 (n : U64) : Reads Reader.u64 (beBytes64 n) n := by
  have hread := (reads_take_of_length (ε := CodecError) .truncated
    (show (beBytes64 n).length = 8 by simp [beBytes64])).map
    fun b => Fin.ofNat (2 ^ 64) (beValue b)
  have hvalue : Fin.ofNat (2 ^ 64) (beValue (beBytes64 n)) = n := by
    rw [beBytes64, beValue_beBytes (by simp)]
    exact Fin.ofNat_val_eq_self n
  rw [hvalue] at hread
  exact hread

lemma reads_u32 (n : U32) : Reads Reader.u32 (beBytes32 n) n := by
  have hread := (reads_take_of_length (ε := CodecError) .truncated
    (show (beBytes32 n).length = 4 by simp [beBytes32])).map
    fun b => Fin.ofNat (2 ^ 32) (beValue b)
  have hvalue : Fin.ofNat (2 ^ 32) (beValue (beBytes32 n)) = n := by
    rw [beBytes32, beValue_beBytes (by simp)]
    exact Fin.ofNat_val_eq_self n
  rw [hvalue] at hread
  exact hread

lemma reads_byte (b : UInt8) : Reads Reader.byte [b] b := fun _ => rfl

lemma reads_bytes {b : Bytes} (h : b.length < 2 ^ 32) :
    Reads Reader.bytes (beBytes 4 b.length ++ b) b :=
  (reads_u32 ⟨b.length, h⟩).bind (reads_take _ b)

lemma reads_string {s : String} (h : NameFits s) : Reads Reader.string (nameBytes s) s := by
  refine (reads_bytes h).last ?_
  rw [fromUtf8_strBytes]
  exact reads_pure s

lemma reads_payload {p : NodePayload} (h : PayloadFits p) :
    Reads Reader.payload (payloadBytes p) p := by
  refine (reads_bytes h.lt).last ?_
  rw [if_neg (not_lt.2 h)]
  exact reads_pure p

lemma reads_weight (w : BaseWeight) : Reads Reader.weight (beBytes32 w.toBits) w := by
  refine (reads_u32 w.toBits).last ?_
  rw [BaseWeight.fromBits_toBits]
  exact reads_pure w

lemma reads_checkedId (id : U64) : Reads (checkedId id) (beBytes64 id) id := by
  refine (reads_u64 id).last ?_
  rw [if_pos rfl]
  exact reads_pure id

lemma reads_nodeReference (r : CandidateNodeReference) :
    Reads decodeNodeReference (encodeNodeReference r) r := by
  cases r with
  | confirmed id =>
    refine (reads_byte 1).bind ?_
    rw [if_pos rfl]
    exact (reads_u64 id.asU64).map fun n => CandidateNodeReference.confirmed ⟨n⟩
  | candidate id =>
    refine (reads_byte 2).bind ?_
    rw [if_neg (by decide), if_pos rfl]
    exact (reads_u64 id.asU64).map fun n => CandidateNodeReference.candidate ⟨n⟩

lemma reads_relationReference (r : CandidateRelationReference) :
    Reads decodeRelationReference (encodeRelationReference r) r := by
  cases r with
  | confirmed id =>
    refine (reads_byte 1).bind ?_
    rw [if_pos rfl]
    exact (reads_u64 id.asU64).map fun n => CandidateRelationReference.confirmed ⟨n⟩
  | candidate id =>
    refine (reads_byte 2).bind ?_
    rw [if_neg (by decide), if_pos rfl]
    exact (reads_u64 id.asU64).map fun n => CandidateRelationReference.candidate ⟨n⟩

/-! ## Keys -/

@[simp] lemma decodeIdKey_encodeIdKey (id : U64) : decodeIdKey (encodeIdKey id) = .ok id :=
  (reads_u64 id).complete _

@[simp] lemma decodeU64Record_encodeU64Record (n : U64) :
    decodeU64Record (encodeU64Record n) = .ok n := decodeIdKey_encodeIdKey n

@[simp] lemma decodeAdjacencyValue_encodeAdjacencyValue (edge : EdgeId) :
    decodeAdjacencyValue (encodeAdjacencyValue edge) edge = .ok () := by
  simp [decodeAdjacencyValue, encodeAdjacencyValue]

@[simp] lemma decodeAdjacencyKey_encodeAdjacencyKey (node : NodeId) (edge : EdgeId) :
    decodeAdjacencyKey (encodeAdjacencyKey node edge) = .ok (node, edge) :=
  ((reads_u64 node.asU64).bind ((reads_u64 edge.asU64).map fun e =>
    ((⟨node.asU64⟩, ⟨e⟩) : NodeId × EdgeId))).complete _

lemma decodeNameKey_nameBytes {s : String} (h : NameFits s) : decodeNameKey (nameBytes s) = .ok s :=
  (reads_string h).complete _

lemma encodeIdKey_injective : Function.Injective encodeIdKey := by
  intro a b h
  have ha := decodeIdKey_encodeIdKey a
  rw [h, decodeIdKey_encodeIdKey] at ha
  exact (Except.ok.inj ha).symm

lemma idKey_inj {k : IdKind} {a b : DurableId k} (h : encodeIdKey a.asU64 = encodeIdKey b.asU64) :
    a = b :=
  DurableId.asU64_injective (encodeIdKey_injective h)

lemma adjacencyKey_inj {n n' : NodeId} {e e' : EdgeId}
    (h : encodeAdjacencyKey n e = encodeAdjacencyKey n' e') : n = n' ∧ e = e' := by
  have hdecode := decodeAdjacencyKey_encodeAdjacencyKey n e
  rw [h, decodeAdjacencyKey_encodeAdjacencyKey] at hdecode
  cases Except.ok.inj hdecode
  exact ⟨rfl, rfl⟩

lemma nameBytes_inj {s t : String} (hs : NameFits s) (ht : NameFits t)
    (h : nameBytes s = nameBytes t) : s = t := by
  have hdecode := decodeNameKey_nameBytes hs
  rw [h, decodeNameKey_nameBytes ht] at hdecode
  exact (Except.ok.inj hdecode).symm

/-- The counters of the relation kind can be added. -/
def RelationRecord.UsageFits (r : RelationRecord) : Prop :=
  r.provisionalReferenceCount.val + r.confirmedEdgeCount.val < 2 ^ 64

lemma RelationRecord.UsageFits.total {r : RelationRecord} (h : r.UsageFits) :
    ∃ total, r.totalReferenceCount = some total :=
  ⟨⟨_, h⟩, U64.checkedAdd_eq_some.2 rfl⟩

/-- The popularity key of a relation kind whose counters can be added. -/
def popularityBytes (r : RelationRecord) : Bytes :=
  beBytes64 (r.totalReferenceCount.getD 0).rev ++ beBytes64 r.confirmedEdgeCount.rev ++
    beBytes64 r.id.asU64

lemma encodePopularityKey_eq {r : RelationRecord} (h : r.UsageFits) :
    encodePopularityKey r = .ok (popularityBytes r) := by
  obtain ⟨total, htotal⟩ := h.total
  simp [encodePopularityKey, popularityBytes, htotal]

lemma decodePopularityKey_popularityBytes (r : RelationRecord) :
    decodePopularityKey (popularityBytes r) =
      .ok (r.totalReferenceCount.getD 0, r.confirmedEdgeCount, r.id) := by
  refine Reads.complete ?_ _
  rw [popularityBytes, List.append_assoc]
  refine (reads_u64 _).bind ((reads_u64 _).bind ?_)
  have hlast := (reads_u64 r.id.asU64).map fun id =>
    (((r.totalReferenceCount.getD 0).rev.rev, r.confirmedEdgeCount.rev.rev, ⟨id⟩) :
      U64 × U64 × RelationId)
  simp only [Fin.rev_rev] at hlast ⊢
  exact hlast

lemma popularityBytes_id {r r' : RelationRecord} (h : popularityBytes r = popularityBytes r') :
    r.id = r'.id := by
  have hdecode := decodePopularityKey_popularityBytes r
  rw [h, decodePopularityKey_popularityBytes] at hdecode
  exact (congrArg (fun p => p.2.2) (Except.ok.inj hdecode)).symm

/-! ## Records -/

def nodeBytes (r : NodeRecord) : Bytes :=
  beBytes64 r.id.asU64 ++ nameBytes r.name.asStr ++ payloadBytes r.payload

/-- The name and the payload of the node can be written. -/
structure NodeRecord.Fits (r : NodeRecord) : Prop where
  name : NameFits r.name.asStr
  payload : PayloadFits r.payload

lemma encodeNode_eq {r : NodeRecord} (h : r.Fits) : encodeNode r = .ok (nodeBytes r) := by
  simp only [encodeNode, pushString_eq h.name, pushBytes_eq h.payload, ok_bind]
  rfl

lemma decodeNode_nodeBytes {r : NodeRecord} (h : r.Fits) :
    decodeNode (nodeBytes r) r.id.asU64 = .ok r := by
  refine Reads.complete ?_ _
  rw [nodeBytes, List.append_assoc]
  exact (reads_checkedId _).bind ((reads_string h.name).bind ((reads_payload h.payload).map _))

def relationBytes (r : RelationRecord) : Bytes :=
  beBytes64 r.id.asU64 ++ nameBytes r.name.asStr ++ beBytes64 r.provisionalReferenceCount ++
    beBytes64 r.confirmedEdgeCount

/-- The name of the relation kind can be written and its counters added. -/
structure RelationRecord.Fits (r : RelationRecord) : Prop where
  name : NameFits r.name.asStr
  usage : r.UsageFits

lemma encodeRelation_eq {r : RelationRecord} (h : r.Fits) :
    encodeRelation r = .ok (relationBytes r) := by
  simp only [encodeRelation, pushString_eq h.name, ok_bind]
  rfl

lemma decodeRelation_relationBytes {r : RelationRecord} (h : r.Fits) :
    decodeRelation (relationBytes r) r.id.asU64 = .ok r := by
  obtain ⟨total, htotal⟩ := h.usage.total
  have hcomplete : Reader.complete CodecError.trailingGarbage (do
      let id ← checkedId r.id.asU64
      let name ← Reader.string
      let provisionalReferenceCount ← Reader.u64
      let confirmedEdgeCount ← Reader.u64
      return (⟨⟨id⟩, ⟨name⟩, provisionalReferenceCount, confirmedEdgeCount⟩ : RelationRecord))
      (relationBytes r) = .ok r := by
    refine Reads.complete ?_ _
    rw [relationBytes, List.append_assoc, List.append_assoc]
    exact (reads_checkedId _).bind ((reads_string h.name).bind ((reads_u64 _).bind
      ((reads_u64 _).map _)))
  simp only [decodeRelation, hcomplete, ok_bind, htotal]

@[simp] lemma decodeEdge_encodeEdge (r : EdgeRecord) :
    decodeEdge (encodeEdge r) r.id.asU64 = .ok r := by
  refine Reads.complete ?_ _
  rw [encodeEdge, List.append_assoc, List.append_assoc, List.append_assoc]
  exact (reads_checkedId _).bind ((reads_u64 _).bind ((reads_u64 _).bind ((reads_u64 _).bind
    ((reads_weight _).map _))))

def candidateBytes : Candidate → Bytes
  | .node id name payload count =>
    1 :: (beBytes64 id.asU64 ++ nameBytes name.asStr ++ payloadBytes payload ++ beBytes64 count)
  | .relation id name count => 2 :: (beBytes64 id.asU64 ++ nameBytes name.asStr ++ beBytes64 count)
  | .edge id source destination relationKind baseWeight =>
    3 :: (beBytes64 id.asU64 ++ encodeNodeReference source ++ encodeNodeReference destination ++
      encodeRelationReference relationKind ++ beBytes32 baseWeight.toBits)

/-- The name and the payload of the candidate can be written. -/
def Candidate.Fits : Candidate → Prop
  | .node _ name payload _ => NameFits name.asStr ∧ PayloadFits payload
  | .relation _ name _ => NameFits name.asStr
  | .edge .. => True

lemma encodeCandidate_eq {c : Candidate} (h : c.Fits) :
    encodeCandidate c = .ok (candidateBytes c) := by
  cases c with
  | node id name payload count =>
    simp only [encodeCandidate, pushString_eq h.1, pushBytes_eq h.2, ok_bind]
    rfl
  | relation id name count =>
    have hname : pushString name.asStr = .ok (nameBytes name.asStr) := pushString_eq h
    simp only [encodeCandidate, hname, ok_bind]
    rfl
  | edge => rfl

lemma decodeCandidate_candidateBytes {c : Candidate} (h : c.Fits) :
    decodeCandidate (candidateBytes c) c.id.asU64 = .ok c := by
  refine Reads.complete ?_ _
  cases c with
  | node id name payload count =>
    rw [candidateBytes, List.append_assoc, List.append_assoc]
    refine (reads_byte 1).bind ((reads_checkedId _).bind ?_)
    rw [decodeCandidateFields, if_pos rfl]
    exact (reads_string h.1).bind ((reads_payload h.2).bind ((reads_u64 count).map _))
  | relation id name count =>
    rw [candidateBytes, List.append_assoc]
    refine (reads_byte 2).bind ((reads_checkedId _).bind ?_)
    rw [decodeCandidateFields, if_neg (by decide), if_pos rfl]
    exact (reads_string h).bind ((reads_u64 count).map _)
  | edge id source destination relationKind baseWeight =>
    rw [candidateBytes, List.append_assoc, List.append_assoc, List.append_assoc]
    refine (reads_byte 3).bind ((reads_checkedId _).bind ?_)
    rw [decodeCandidateFields, if_neg (by decide), if_neg (by decide), if_pos rfl]
    exact (reads_nodeReference source).bind ((reads_nodeReference destination).bind
      ((reads_relationReference relationKind).bind ((reads_weight baseWeight).map _)))

/-! ## Accepted bytes -/

section Accepted

open Reader

variable {input rest b : Bytes}

lemma u64_eq_ok {n : U64} (h : u64 input = .ok (n, rest)) : input = beBytes64 n ++ rest := by
  obtain ⟨b, mid, htake, hpure⟩ := Reader.bind_eq_ok.1 h
  obtain ⟨rfl, rfl⟩ := pure_eq_ok.1 hpure
  obtain ⟨rfl, hlength⟩ := take_eq_ok htake
  have hval : (Fin.ofNat (2 ^ 64) (beValue b)).val = beValue b := by
    have hlt := beValue_lt b
    rw [hlength] at hlt
    exact Nat.mod_eq_of_lt (by simpa using hlt)
  rw [beBytes64, hval, beBytes_beValue hlength]

lemma u32_eq_ok {n : U32} (h : u32 input = .ok (n, rest)) : input = beBytes32 n ++ rest := by
  obtain ⟨b, mid, htake, hpure⟩ := Reader.bind_eq_ok.1 h
  obtain ⟨rfl, rfl⟩ := pure_eq_ok.1 hpure
  obtain ⟨rfl, hlength⟩ := take_eq_ok htake
  have hval : (Fin.ofNat (2 ^ 32) (beValue b)).val = beValue b := by
    have hlt := beValue_lt b
    rw [hlength] at hlt
    exact Nat.mod_eq_of_lt (by simpa using hlt)
  rw [beBytes32, hval, beBytes_beValue hlength]

lemma byte_eq_ok {x : UInt8} (h : byte input = .ok (x, rest)) : input = x :: rest := by
  unfold byte at h
  split at h
  · cases h
  · cases h
    rfl

lemma bytes_eq_ok (h : bytes input = .ok (b, rest)) :
    input = beBytes 4 b.length ++ b ++ rest ∧ b.length < 2 ^ 32 := by
  obtain ⟨n, mid, hn, htake⟩ := Reader.bind_eq_ok.1 h
  obtain rfl := u32_eq_ok hn
  obtain ⟨rfl, hlength⟩ := take_eq_ok htake
  rw [beBytes32, hlength, List.append_assoc]
  exact ⟨rfl, n.isLt⟩

lemma string_eq_ok {s : String} (h : string input = .ok (s, rest)) :
    input = nameBytes s ++ rest ∧ NameFits s := by
  obtain ⟨b, mid, hb, hs⟩ := Reader.bind_eq_ok.1 h
  obtain ⟨rfl, hlt⟩ := bytes_eq_ok hb
  rcases hutf : fromUtf8 b with _ | s'
  · rw [hutf] at hs
    cases hs
  · rw [hutf] at hs
    obtain ⟨rfl, rfl⟩ := pure_eq_ok.1 hs
    rw [nameBytes, NameFits, strBytes_of_fromUtf8 hutf]
    exact ⟨rfl, hlt⟩

lemma payload_eq_ok {p : NodePayload} (h : payload input = .ok (p, rest)) :
    input = payloadBytes p ++ rest ∧ PayloadFits p := by
  obtain ⟨b, mid, hb, hp⟩ := Reader.bind_eq_ok.1 h
  obtain ⟨rfl, -⟩ := bytes_eq_ok hb
  by_cases hlong : MAX_NODE_PAYLOAD_BYTES < b.length
  · rw [if_pos hlong] at hp
    cases hp
  · rw [if_neg hlong] at hp
    obtain ⟨rfl, rfl⟩ := pure_eq_ok.1 hp
    exact ⟨rfl, not_lt.1 hlong⟩

lemma weight_eq_ok {w : BaseWeight} (h : weight input = .ok (w, rest)) :
    input = beBytes32 w.toBits ++ rest := by
  obtain ⟨bits, mid, hbits, hw⟩ := Reader.bind_eq_ok.1 h
  obtain rfl := u32_eq_ok hbits
  rcases hweight : BaseWeight.fromBits bits with _ | w'
  · rw [hweight] at hw
    cases hw
  · rw [hweight] at hw
    obtain ⟨rfl, rfl⟩ := pure_eq_ok.1 hw
    rw [BaseWeight.toBits_of_fromBits hweight]

lemma checkedId_eq_ok {expected found : U64} (h : checkedId expected input = .ok (found, rest)) :
    input = beBytes64 expected ++ rest ∧ found = expected := by
  obtain ⟨n, mid, hn, hfound⟩ := Reader.bind_eq_ok.1 h
  obtain rfl := u64_eq_ok hn
  by_cases heq : n = expected
  · rw [if_pos heq] at hfound
    obtain ⟨rfl, rfl⟩ := pure_eq_ok.1 hfound
    exact ⟨by rw [heq], heq⟩
  · rw [if_neg heq] at hfound
    cases hfound

lemma nodeReference_eq_ok {r : CandidateNodeReference}
    (h : decodeNodeReference input = .ok (r, rest)) : input = encodeNodeReference r ++ rest := by
  obtain ⟨kind, mid, hkind, hr⟩ := Reader.bind_eq_ok.1 h
  obtain rfl := byte_eq_ok hkind
  split_ifs at hr with hconfirmed hcandidate
  · obtain ⟨id, mid', hid, hpure⟩ := Reader.bind_eq_ok.1 hr
    obtain rfl := u64_eq_ok hid
    obtain ⟨rfl, rfl⟩ := pure_eq_ok.1 hpure
    rw [hconfirmed, encodeNodeReference, List.cons_append]
  · obtain ⟨id, mid', hid, hpure⟩ := Reader.bind_eq_ok.1 hr
    obtain rfl := u64_eq_ok hid
    obtain ⟨rfl, rfl⟩ := pure_eq_ok.1 hpure
    rw [hcandidate, encodeNodeReference, List.cons_append]
  · cases hr

lemma relationReference_eq_ok {r : CandidateRelationReference}
    (h : decodeRelationReference input = .ok (r, rest)) :
    input = encodeRelationReference r ++ rest := by
  obtain ⟨kind, mid, hkind, hr⟩ := Reader.bind_eq_ok.1 h
  obtain rfl := byte_eq_ok hkind
  split_ifs at hr with hconfirmed hcandidate
  · obtain ⟨id, mid', hid, hpure⟩ := Reader.bind_eq_ok.1 hr
    obtain rfl := u64_eq_ok hid
    obtain ⟨rfl, rfl⟩ := pure_eq_ok.1 hpure
    rw [hconfirmed, encodeRelationReference, List.cons_append]
  · obtain ⟨id, mid', hid, hpure⟩ := Reader.bind_eq_ok.1 hr
    obtain rfl := u64_eq_ok hid
    obtain ⟨rfl, rfl⟩ := pure_eq_ok.1 hpure
    rw [hcandidate, encodeRelationReference, List.cons_append]
  · cases hr

lemma decodeIdKey_eq_ok {id : U64} (h : decodeIdKey b = .ok id) : b = encodeIdKey id := by
  rw [u64_eq_ok (complete_eq_ok h), List.append_nil]
  rfl

lemma decodeU64Record_eq_ok {n : U64} (h : decodeU64Record b = .ok n) : b = encodeU64Record n :=
  decodeIdKey_eq_ok h

lemma decodeAdjacencyKey_eq_ok {node : NodeId} {edge : EdgeId}
    (h : decodeAdjacencyKey b = .ok (node, edge)) : b = encodeAdjacencyKey node edge := by
  obtain ⟨n, mid, hn, h⟩ := Reader.bind_eq_ok.1 (complete_eq_ok h)
  obtain ⟨e, mid', he, h⟩ := Reader.bind_eq_ok.1 h
  obtain ⟨hpair, rfl⟩ := pure_eq_ok.1 h
  cases hpair
  rw [u64_eq_ok hn, u64_eq_ok he, List.append_nil]
  rfl

lemma decodeAdjacencyValue_eq_ok {edge : EdgeId} (h : decodeAdjacencyValue b edge = .ok ()) :
    b = encodeAdjacencyValue edge := by
  obtain ⟨found, hfound, h⟩ := PathHydra.bind_eq_ok.1 h
  split_ifs at h with heq
  rw [decodeU64Record_eq_ok hfound, heq]
  rfl

lemma decodeNameKey_eq_ok {s : String} (h : decodeNameKey b = .ok s) :
    b = nameBytes s ∧ NameFits s := by
  obtain ⟨heq, hfits⟩ := string_eq_ok (complete_eq_ok h)
  rw [List.append_nil] at heq
  exact ⟨heq, hfits⟩

lemma decodePopularityKey_eq_ok {total confirmed : U64} {id : RelationId}
    (h : decodePopularityKey b = .ok (total, confirmed, id)) :
    b = beBytes64 total.rev ++ beBytes64 confirmed.rev ++ beBytes64 id.asU64 := by
  obtain ⟨t, mid, ht, h⟩ := Reader.bind_eq_ok.1 (complete_eq_ok h)
  obtain ⟨c, mid', hc, h⟩ := Reader.bind_eq_ok.1 h
  obtain ⟨i, mid'', hi, h⟩ := Reader.bind_eq_ok.1 h
  obtain ⟨hpair, rfl⟩ := pure_eq_ok.1 h
  cases hpair
  rw [u64_eq_ok ht, u64_eq_ok hc, u64_eq_ok hi, List.append_nil, Fin.rev_rev, Fin.rev_rev,
    List.append_assoc]

lemma decodeNode_eq_ok {id : U64} {r : NodeRecord} (h : decodeNode b id = .ok r) :
    b = nodeBytes r ∧ r.id = ⟨id⟩ ∧ r.Fits := by
  obtain ⟨found, mid, hid, h⟩ := Reader.bind_eq_ok.1 (complete_eq_ok h)
  obtain ⟨name, mid', hname, h⟩ := Reader.bind_eq_ok.1 h
  obtain ⟨payload, mid'', hpayload, h⟩ := Reader.bind_eq_ok.1 h
  obtain ⟨rfl, rfl⟩ := pure_eq_ok.1 h
  obtain ⟨rfl, rfl⟩ := checkedId_eq_ok hid
  obtain ⟨rfl, hnameFits⟩ := string_eq_ok hname
  obtain ⟨rfl, hpayloadFits⟩ := payload_eq_ok hpayload
  refine ⟨?_, rfl, hnameFits, hpayloadFits⟩
  rw [nodeBytes, List.append_nil, List.append_assoc]

lemma decodeRelation_eq_ok {id : U64} {r : RelationRecord} (h : decodeRelation b id = .ok r) :
    b = relationBytes r ∧ r.id = ⟨id⟩ ∧ r.Fits := by
  obtain ⟨record, hrecord, hchecked⟩ := PathHydra.bind_eq_ok.1 h
  obtain ⟨found, mid, hid, hrecord⟩ := Reader.bind_eq_ok.1 (complete_eq_ok hrecord)
  obtain ⟨name, mid', hname, hrecord⟩ := Reader.bind_eq_ok.1 hrecord
  obtain ⟨provisional, mid'', hprovisional, hrecord⟩ := Reader.bind_eq_ok.1 hrecord
  obtain ⟨confirmed, mid₃, hconfirmed, hrecord⟩ := Reader.bind_eq_ok.1 hrecord
  obtain ⟨rfl, rfl⟩ := pure_eq_ok.1 hrecord
  obtain ⟨rfl, rfl⟩ := checkedId_eq_ok hid
  obtain ⟨rfl, hnameFits⟩ := string_eq_ok hname
  obtain rfl := u64_eq_ok hprovisional
  obtain rfl := u64_eq_ok hconfirmed
  rcases htotal : RelationRecord.totalReferenceCount
      ⟨⟨found⟩, ⟨name⟩, provisional, confirmed⟩ with _ | total
  · rw [htotal] at hchecked
    cases hchecked
  · rw [htotal] at hchecked
    cases hchecked
    refine ⟨?_, rfl, hnameFits, ?_⟩
    · rw [relationBytes, List.append_nil, List.append_assoc, List.append_assoc]
    · show provisional.val + confirmed.val < 2 ^ 64
      have hsum : provisional.val + confirmed.val = total.val := U64.checkedAdd_eq_some.1 htotal
      rw [hsum]
      exact total.isLt

lemma decodeEdge_eq_ok {id : U64} {r : EdgeRecord} (h : decodeEdge b id = .ok r) :
    b = encodeEdge r ∧ r.id = ⟨id⟩ := by
  obtain ⟨found, mid, hid, h⟩ := Reader.bind_eq_ok.1 (complete_eq_ok h)
  obtain ⟨source, mid', hsource, h⟩ := Reader.bind_eq_ok.1 h
  obtain ⟨destination, mid'', hdestination, h⟩ := Reader.bind_eq_ok.1 h
  obtain ⟨relation, mid₃, hrelation, h⟩ := Reader.bind_eq_ok.1 h
  obtain ⟨w, mid₄, hw, h⟩ := Reader.bind_eq_ok.1 h
  obtain ⟨rfl, rfl⟩ := pure_eq_ok.1 h
  obtain ⟨rfl, rfl⟩ := checkedId_eq_ok hid
  obtain rfl := u64_eq_ok hsource
  obtain rfl := u64_eq_ok hdestination
  obtain rfl := u64_eq_ok hrelation
  obtain rfl := weight_eq_ok hw
  refine ⟨?_, rfl⟩
  rw [encodeEdge, List.append_nil, List.append_assoc, List.append_assoc, List.append_assoc]

lemma decodeCandidate_eq_ok {id : U64} {c : Candidate} (h : decodeCandidate b id = .ok c) :
    b = candidateBytes c ∧ c.id = ⟨id⟩ ∧ c.Fits := by
  obtain ⟨kind, mid, hkind, h⟩ := Reader.bind_eq_ok.1 (complete_eq_ok h)
  obtain ⟨found, mid', hid, hfields⟩ := Reader.bind_eq_ok.1 h
  obtain rfl := byte_eq_ok hkind
  obtain ⟨rfl, rfl⟩ := checkedId_eq_ok hid
  unfold decodeCandidateFields at hfields
  split_ifs at hfields with hnode hrelation hedge
  · obtain ⟨name, mid₁, hname, h⟩ := Reader.bind_eq_ok.1 hfields
    obtain ⟨payload, mid₂, hpayload, h⟩ := Reader.bind_eq_ok.1 h
    obtain ⟨count, mid₃, hcount, h⟩ := Reader.bind_eq_ok.1 h
    obtain ⟨rfl, rfl⟩ := pure_eq_ok.1 h
    obtain ⟨rfl, hnameFits⟩ := string_eq_ok hname
    obtain ⟨rfl, hpayloadFits⟩ := payload_eq_ok hpayload
    obtain rfl := u64_eq_ok hcount
    refine ⟨?_, rfl, hnameFits, hpayloadFits⟩
    rw [hnode, candidateBytes, List.append_nil, List.append_assoc, List.append_assoc]
  · obtain ⟨name, mid₁, hname, h⟩ := Reader.bind_eq_ok.1 hfields
    obtain ⟨count, mid₂, hcount, h⟩ := Reader.bind_eq_ok.1 h
    obtain ⟨rfl, rfl⟩ := pure_eq_ok.1 h
    obtain ⟨rfl, hnameFits⟩ := string_eq_ok hname
    obtain rfl := u64_eq_ok hcount
    refine ⟨?_, rfl, hnameFits⟩
    rw [hrelation, candidateBytes, List.append_nil, List.append_assoc]
  · obtain ⟨source, mid₁, hsource, h⟩ := Reader.bind_eq_ok.1 hfields
    obtain ⟨destination, mid₂, hdestination, h⟩ := Reader.bind_eq_ok.1 h
    obtain ⟨relation, mid₃, hrelationKind, h⟩ := Reader.bind_eq_ok.1 h
    obtain ⟨w, mid₄, hw, h⟩ := Reader.bind_eq_ok.1 h
    obtain ⟨rfl, rfl⟩ := pure_eq_ok.1 h
    obtain rfl := nodeReference_eq_ok hsource
    obtain rfl := nodeReference_eq_ok hdestination
    obtain rfl := relationReference_eq_ok hrelationKind
    obtain rfl := weight_eq_ok hw
    refine ⟨?_, rfl, trivial⟩
    rw [hedge, candidateBytes, List.append_nil, List.append_assoc, List.append_assoc,
      List.append_assoc]
  · cases hfields

end Accepted

end PathHydra
