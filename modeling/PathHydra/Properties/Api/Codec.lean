import PathHydra.Construction.Api.Codec
import PathHydra.Properties.Api.Handles
import PathHydra.Properties.Api.Scan

/-!
# What is encoded can be decoded

The decoder bounds the nesting and the number of values of its input before it parses, the encoder
only the fields and the number of bytes.  So what was encoded is decoded again exactly when its
document is within those two limits.
-/

namespace PathHydra

section

variable {T L : Type} {dto : CanonicalDto T L}

/-- The printer writes the document of a value and the parser inverts it. -/
structure CanonicalDto.Serde (dto : CanonicalDto T L) (document : T → JsonText) : Prop where
  pieces_eq : ∀ v, (dto.pieces v).flatten = (document v).text
  utf8 : ∀ v, (fromUtf8 (document v).text).isSome = true
  inverts : ∀ v, dto.deserialize (document v).text = .ok v

/-- The document is within the limits of the decoder's scan. -/
def JsonText.Within (t : JsonText) (limits : SyntaxLimits) : Prop :=
  t.value.depth ≤ limits.maximumNestingDepth.val ∧ t.value.values ≤ limits.maximumJsonValues.val

/-- The bounded writer holds all pieces, or it fails. -/
lemma boundedWrite_foldlM {maximum : ℕ} {pieces : List Bytes} {written b : Bytes}
    (hwritten : written.length ≤ maximum) :
    pieces.foldlM (boundedWrite maximum) written = .ok b ↔
      b = written ++ pieces.flatten ∧ b.length ≤ maximum := by
  induction pieces generalizing written with
  | nil =>
    rw [List.foldlM_nil, List.flatten_nil, List.append_nil]
    constructor
    · intro h
      cases h
      exact ⟨rfl, hwritten⟩
    · rintro ⟨rfl, -⟩
      rfl
  | cons piece pieces ih =>
    rw [List.foldlM_cons, List.flatten_cons, ← List.append_assoc, boundedWrite]
    split_ifs with hover
    · refine iff_of_false nofun ?_
      rintro ⟨rfl, hle⟩
      simp only [List.length_append] at hle
      omega
    · rw [ok_bind]
      exact ih (by rw [List.length_append]; omega)

variable {document : T → JsonText} {limits : CodecLimits L} {v : T} {b : Bytes}

lemma encodeCanonical_eq_ok (h : dto.Serde document) :
    encodeCanonical dto v limits = .ok b ↔ dto.validateBoundary v limits.fields = .ok () ∧
      b = (document v).text ∧ b.length ≤ limits.document.maximumEncodedBytes.val := by
  rw [encodeCanonical, check_bind_eq_ok, mapErr_eq_ok, mapErr_eq_ok,
    boundedWrite_foldlM (Nat.zero_le _), List.nil_append, h.pieces_eq]

/-- What was encoded passes the scan exactly when it is within its limits. -/
lemma scan_of_encode (h : dto.Serde document) (hb : encodeCanonical dto v limits = .ok b) :
    scanBeforeDeserialize b limits.document = .ok () ↔ (document v).Within limits.document := by
  obtain ⟨-, rfl, hlength⟩ := (encodeCanonical_eq_ok h).1 hb
  rw [scanBeforeDeserialize_text (h.utf8 v), and_iff_right hlength]
  rfl

/-- What was encoded is read back together with the same bytes, exactly when it is within the limits
of the scan. -/
lemma decodeAndReencode_of_encode (h : dto.Serde document)
    (hb : encodeCanonical dto v limits = .ok b) :
    decodeAndReencode dto b limits = .ok ⟨v, b, true⟩ ↔ (document v).Within limits.document := by
  rw [decodeAndReencode, check_bind_eq_ok, mapErr_eq_ok, scan_of_encode h hb]
  refine and_iff_left ?_
  obtain ⟨hboundary, htext, -⟩ := (encodeCanonical_eq_ok h).1 hb
  rw [htext, h.inverts, mapErr, ok_bind, hboundary, mapErr, ok_bind, ← htext, hb, ok_bind]
  simp
  rfl

lemma decodeStrictCanonical_of_encode (h : dto.Serde document)
    (hb : encodeCanonical dto v limits = .ok b) :
    decodeStrictCanonical dto b limits = .ok v ↔ (document v).Within limits.document := by
  constructor
  · intro hstrict
    obtain ⟨doc, hdoc, -⟩ := bind_eq_ok.1 hstrict
    exact (scan_of_encode h hb).1 (mapErr_eq_ok.1 (check_bind_eq_ok.1 hdoc).1)
  · intro hwithin
    rw [decodeStrictCanonical, (decodeAndReencode_of_encode h hb).2 hwithin, ok_bind]
    rfl

/-- What a decoded document holds is what was parsed and what it encodes to. -/
lemma decodeAndReencode_eq_ok {input : Bytes} {doc : CanonicalDocument T}
    (hv : dto.deserialize input = .ok v) (hdoc : decodeAndReencode dto input limits = .ok doc) :
    doc.value = v ∧ encodeCanonical dto v limits = .ok doc.canonicalBytes := by
  obtain ⟨-, hdoc⟩ := check_bind_eq_ok.1 hdoc
  rw [hv, mapErr, ok_bind] at hdoc
  obtain ⟨-, hdoc⟩ := check_bind_eq_ok.1 hdoc
  obtain ⟨canonical, hcanonical, hdoc⟩ := bind_eq_ok.1 hdoc
  cases hdoc
  exact ⟨rfl, hcanonical⟩

/-- What the API encodes it decodes, and what it has made canonical stays so, exactly when the
document is within the two limits that only the decoder checks. -/
theorem codec_decodes_iff (h : dto.Serde document) (limits : CodecLimits L) :
    (∀ v b, encodeCanonical dto v limits = .ok b →
      (decodeStrictCanonical dto b limits = .ok v ↔ (document v).Within limits.document)) ∧
    ∀ input v doc, dto.deserialize input = .ok v →
      decodeAndReencode dto input limits = .ok doc →
      (decodeAndReencode dto doc.canonicalBytes limits =
          .ok ⟨doc.value, doc.canonicalBytes, true⟩ ↔ (document v).Within limits.document) := by
  constructor
  · intro v b hb
    exact decodeStrictCanonical_of_encode h hb
  · intro input v doc hv hdoc
    obtain ⟨hvalue, hbytes⟩ := decodeAndReencode_eq_ok hv hdoc
    rw [hvalue]
    exact decodeAndReencode_of_encode h hbytes

end

/-- What the printer writes of a string without escapes. -/
def stringPieces (s : String) : List Bytes := [[JsonByte.quote], strBytes s, [JsonByte.quote]]

/-- `EdgeHandleDto`, for a parser of it. -/
def edgeHandleCodec (deserialize : Bytes → Except JsonCodecError EdgeHandleDto) :
    CanonicalDto EdgeHandleDto Unit where
  pieces d :=
    [[JsonByte.openBrace]] ++
      stringPieces "edge" ++ [[JsonByte.colon]] ++ stringPieces d.edge.asStr ++
      [[JsonByte.comma]] ++
      stringPieces "source" ++ [[JsonByte.colon]] ++ stringPieces d.source.asStr ++
      [[JsonByte.comma]] ++
      stringPieces "destination" ++ [[JsonByte.colon]] ++ stringPieces d.destination.asStr ++
      [[JsonByte.closeBrace]]
  deserialize := deserialize
  validateBoundary _ _ := .ok ()

/-- The document of an edge handle. -/
def EdgeHandleDto.document (d : EdgeHandleDto) : JsonText :=
  (JsonValue.ofMembers [("edge", .ofText d.edge.asStr), ("source", .ofText d.source.asStr),
    ("destination", .ofText d.destination.asStr)]).document

/-- What stands after a text that is given, up to the next quotation mark, and what follows. -/
def readText (before input : Bytes) : Option (Bytes × Bytes) :=
  if before.isPrefixOf input then
    let rest := input.drop before.length
    some (rest.takeWhile fun b => decide (b ≠ JsonByte.quote),
      rest.dropWhile fun b => decide (b ≠ JsonByte.quote))
  else none

lemma readText_append {p text q : Bytes} (h : ∀ b ∈ text, JsonByte.isPlain b = true)
    (hq : q.head? = some JsonByte.quote) : readText p (p ++ (text ++ q)) = some (text, q) := by
  have hquote : JsonByte.isPlain JsonByte.quote = false := by decide
  have hne : ∀ b ∈ text, decide (b ≠ JsonByte.quote) = true := by
    intro b hb
    refine decide_eq_true fun heq => ?_
    rw [heq] at hb
    rw [h _ hb] at hquote
    cases hquote
  obtain ⟨rest, rfl⟩ := List.head?_eq_some_iff.1 hq
  have htake : (text ++ JsonByte.quote :: rest).takeWhile
      (fun b => decide (b ≠ JsonByte.quote)) = text := by
    rw [List.takeWhile_append_of_pos hne]
    simp
  have hdrop : (text ++ JsonByte.quote :: rest).dropWhile
      (fun b => decide (b ≠ JsonByte.quote)) = JsonByte.quote :: rest := by
    rw [List.dropWhile_append_of_pos hne]
    simp
  simp only [readText, List.isPrefixOf_iff_prefix, List.prefix_append, if_true, List.drop_left,
    htake, hdrop]

/-- The wrapper of a text. -/
def readDecimal {field : String} (text : Bytes) : Option (DecimalDto field) :=
  (fromUtf8 text).bind fun s =>
    match h : parseDecimal s field with
    | .ok v => some ⟨s, v, h⟩
    | .error _ => none

lemma readDecimal_strBytes {field : String} (d : DecimalDto field) :
    readDecimal (strBytes d.asStr) = some d := by
  obtain ⟨v, hv⟩ := d.canonical
  rw [readDecimal, fromUtf8_strBytes, Option.bind_some]
  split
  · rfl
  · rename_i e he
    rw [hv] at he
    cases he

lemma isPlain_of_mem_asStr {field : String} (d : DecimalDto field) :
    ∀ b ∈ strBytes d.asStr, JsonByte.isPlain b = true := by
  have htext : d.asStr = String.ofList (Nat.toDigits 10 d.number.val) := by
    conv_lhs => rw [d.eq_fromU64]
    show toString d.number.val = _
    rw [← Nat.toList_repr, String.ofList_toList]
    rfl
  rw [htext]
  refine isPlain_of_mem_strBytes fun c hc => isPlainChar_of_isHexDigit ?_
  rw [isHexDigit, isDigit_of_mem hc, Bool.true_or]

/-- A parser of the documents of edge handles, with white space after them. -/
def parseEdgeHandle (input : Bytes) : Except JsonCodecError EdgeHandleDto :=
  okOr (.malformed .jsonSyntax (some 1) (some 1)) (do
    let (edge, rest) ← readText (strBytes "\x7b\"edge\":\"") input
    let (source, rest) ← readText (strBytes "\",\"source\":\"") rest
    let (destination, rest) ← readText (strBytes "\",\"destination\":\"") rest
    if rest.filter (fun b => !JsonByte.isSpace b) = strBytes "\"\x7d" then
      return ⟨← readDecimal edge, ← readDecimal source, ← readDecimal destination⟩
    else none)

/-- The texts between the handles, around the quotation marks. -/
lemma edgeHandle_texts :
    strBytes "\x7b\"edge\":\"" = JsonByte.openBrace :: JsonByte.quote ::
      (strBytes "edge" ++ [JsonByte.quote, JsonByte.colon, JsonByte.quote]) ∧
    strBytes "\",\"source\":\"" = JsonByte.quote :: JsonByte.comma :: JsonByte.quote ::
      (strBytes "source" ++ [JsonByte.quote, JsonByte.colon, JsonByte.quote]) ∧
    strBytes "\",\"destination\":\"" = JsonByte.quote :: JsonByte.comma :: JsonByte.quote ::
      (strBytes "destination" ++ [JsonByte.quote, JsonByte.colon, JsonByte.quote]) ∧
    strBytes "\"\x7d" = [JsonByte.quote, JsonByte.closeBrace] := by
  decide +kernel

lemma EdgeHandleDto.text_document (d : EdgeHandleDto) : d.document.text =
    strBytes "\x7b\"edge\":\"" ++ (strBytes d.edge.asStr ++ (strBytes "\",\"source\":\"" ++
      (strBytes d.source.asStr ++ (strBytes "\",\"destination\":\"" ++
        (strBytes d.destination.asStr ++ strBytes "\"\x7d"))))) := by
  have hkeys : (JsonString.ofBytes (strBytes "edge")).text =
        JsonByte.quote :: (strBytes "edge" ++ [JsonByte.quote]) ∧
      (JsonString.ofBytes (strBytes "source")).text =
        JsonByte.quote :: (strBytes "source" ++ [JsonByte.quote]) ∧
      (JsonString.ofBytes (strBytes "destination")).text =
        JsonByte.quote :: (strBytes "destination" ++ [JsonByte.quote]) := by
    decide +kernel
  simp only [document, JsonValue.document, JsonText.text, JsonValue.ofMembers,
    JsonMembers.compact, JsonValue.text, JsonMembers.text, JsonValue.ofText, hkeys,
    text_ofBytes_of_plain (isPlain_of_mem_asStr _), edgeHandle_texts]
  simp [JsonSpace.none]

lemma parseEdgeHandle_document (d : EdgeHandleDto) (space : JsonSpace) :
    parseEdgeHandle (d.document.text ++ space.bytes) = .ok d := by
  have hsource : (strBytes "\",\"source\":\"").head? = some JsonByte.quote := by
    rw [edgeHandle_texts.2.1]
    rfl
  have hdestination : (strBytes "\",\"destination\":\"").head? = some JsonByte.quote := by
    rw [edgeHandle_texts.2.2.1]
    rfl
  have hclose : (strBytes "\"\x7d" ++ space.bytes).head? = some JsonByte.quote := by
    rw [edgeHandle_texts.2.2.2]
    rfl
  have hspace : (strBytes "\"\x7d" ++ space.bytes).filter (fun b => !JsonByte.isSpace b) =
      strBytes "\"\x7d" := by
    have hnone : space.bytes.filter (fun b => !JsonByte.isSpace b) = [] :=
      List.filter_eq_nil_iff.2 fun b hb => by simp [space.spaces b hb]
    rw [edgeHandle_texts.2.2.2, List.filter_append, hnone]
    decide
  -- each text is read up to the quotation mark with which what is given next begins
  rw [parseEdgeHandle, d.text_document]
  simp only [List.append_assoc]
  rw [readText_append (isPlain_of_mem_asStr d.edge) (by simp [List.head?_append, hsource])]
  simp only [Option.bind_eq_bind, Option.bind_some]
  rw [readText_append (isPlain_of_mem_asStr d.source) (by simp [List.head?_append, hdestination])]
  simp only [Option.bind_some]
  rw [readText_append (isPlain_of_mem_asStr d.destination) hclose]
  simp only [Option.bind_some, hspace, if_true, readDecimal_strBytes]
  rfl

lemma edgeHandleCodec_serde : (edgeHandleCodec parseEdgeHandle).Serde EdgeHandleDto.document where
  pieces_eq d := by
    rw [d.text_document]
    simp [edgeHandleCodec, stringPieces, edgeHandle_texts]
  utf8 d := by
    rw [d.text_document]
    simp only [← strBytes_append, fromUtf8_strBytes, Option.isSome_some]
  inverts d := by
    have hparse := parseEdgeHandle_document d .none
    rwa [JsonSpace.none, List.append_nil] at hparse

/-- A handle of the edge 1 from 2 to 3. -/
def edgeHandle : EdgeHandleDto := ⟨.fromU64 1, .fromU64 2, .fromU64 3⟩

/-- Its document. -/
def edgeHandleBytes : Bytes :=
  strBytes "\x7b\"edge\":\"1\",\"source\":\"2\",\"destination\":\"3\"\x7d"

lemma text_edgeHandle : edgeHandle.document.text = edgeHandleBytes := by
  decide +kernel

lemma encodeCanonical_edgeHandle {limits : SyntaxLimits}
    (h : edgeHandleBytes.length ≤ limits.maximumEncodedBytes.val) :
    encodeCanonical (edgeHandleCodec parseEdgeHandle) edgeHandle ⟨(), limits⟩ =
      .ok edgeHandleBytes := by
  refine (encodeCanonical_eq_ok edgeHandleCodec_serde).2 ⟨rfl, text_edgeHandle.symm, h⟩

/-- The four values of an edge handle, with a line feed after them. -/
theorem codec_decodes_iff_edgeHandle :
    encodeCanonical (edgeHandleCodec parseEdgeHandle) edgeHandle ⟨(), ⟨1024, 8, 4⟩⟩ =
        .ok edgeHandleBytes ∧
      decodeStrictCanonical (edgeHandleCodec parseEdgeHandle) edgeHandleBytes
        ⟨(), ⟨1024, 8, 4⟩⟩ = .ok edgeHandle ∧
      decodeAndReencode (edgeHandleCodec parseEdgeHandle) (edgeHandleBytes ++ [0x0A])
        ⟨(), ⟨1024, 8, 4⟩⟩ = .ok ⟨edgeHandle, edgeHandleBytes, false⟩ ∧
      decodeAndReencode (edgeHandleCodec parseEdgeHandle) edgeHandleBytes
        ⟨(), ⟨1024, 8, 4⟩⟩ = .ok ⟨edgeHandle, edgeHandleBytes, true⟩ := by
  have hwithin : edgeHandle.document.Within ⟨1024, 8, 4⟩ :=
    ⟨by decide +kernel, by decide +kernel⟩
  have hencoded : encodeCanonical (edgeHandleCodec parseEdgeHandle) edgeHandle
      ⟨(), ⟨1024, 8, 4⟩⟩ = .ok edgeHandleBytes := encodeCanonical_edgeHandle (by decide +kernel)
  have hscan : scanBeforeDeserialize (edgeHandleBytes ++ [0x0A]) ⟨1024, 8, 4⟩ = .ok () := by
    decide +kernel
  have hparsed : (edgeHandleCodec parseEdgeHandle).deserialize (edgeHandleBytes ++ [0x0A]) =
      .ok edgeHandle := by
    rw [← text_edgeHandle]
    exact parseEdgeHandle_document edgeHandle ⟨[0x0A], by simp [JsonByte.isSpace]⟩
  have hdocument : decodeAndReencode (edgeHandleCodec parseEdgeHandle)
      (edgeHandleBytes ++ [0x0A]) ⟨(), ⟨1024, 8, 4⟩⟩ =
        .ok ⟨edgeHandle, edgeHandleBytes, false⟩ := by
    have hboundary : (edgeHandleCodec parseEdgeHandle).validateBoundary edgeHandle () = .ok () :=
      rfl
    rw [decodeAndReencode, hscan, mapErr, ok_bind, hparsed, mapErr, ok_bind, hboundary, mapErr,
      ok_bind, hencoded, ok_bind]
    simp
    rfl
  obtain ⟨hstrict, hcanonical⟩ := codec_decodes_iff edgeHandleCodec_serde ⟨(), ⟨1024, 8, 4⟩⟩
  exact ⟨hencoded, (hstrict _ _ hencoded).2 hwithin, hdocument,
    (hcanonical (edgeHandleBytes ++ [0x0A]) edgeHandle _ hparsed hdocument).2 hwithin⟩

/-- An edge handle is encoded under limits of three values, and its four values are then too
many for the decoder, whatever the parser does. -/
lemma decode_edgeHandleBytes (deserialize : Bytes → Except JsonCodecError EdgeHandleDto) :
    encodeCanonical (edgeHandleCodec deserialize) edgeHandle ⟨(), ⟨1024, 8, 3⟩⟩ =
        .ok edgeHandleBytes ∧
      decodeStrictCanonical (edgeHandleCodec deserialize) edgeHandleBytes ⟨(), ⟨1024, 8, 3⟩⟩ =
        .error (.json (.limitExceeded .jsonValues 3 4)) := by
  have hwritten : ((edgeHandleCodec fun _ => .error .unfinished).pieces edgeHandle).foldlM
      (boundedWrite 1024) [] = .ok edgeHandleBytes := by decide +kernel
  have hscan : scanBeforeDeserialize edgeHandleBytes ⟨1024, 8, 3⟩ =
      .error (.limitExceeded .jsonValues 3 4) := by decide +kernel
  constructor
  · show mapErr .json (((edgeHandleCodec fun _ => .error .unfinished).pieces edgeHandle).foldlM
      (boundedWrite 1024) []) = _
    rw [hwritten]
    rfl
  · rw [decodeStrictCanonical, decodeAndReencode, hscan]
    rfl

theorem edgeHandle_not_decoded :
    encodeCanonical (edgeHandleCodec parseEdgeHandle) edgeHandle ⟨(), ⟨1024, 8, 3⟩⟩ =
        .ok edgeHandleBytes ∧
      parseEdgeHandle edgeHandleBytes = .ok edgeHandle ∧
      decodeStrictCanonical (edgeHandleCodec parseEdgeHandle) edgeHandleBytes
        ⟨(), ⟨1024, 8, 3⟩⟩ = .error (.json (.limitExceeded .jsonValues 3 4)) := by
  obtain ⟨hencoded, hdecoded⟩ := decode_edgeHandleBytes parseEdgeHandle
  refine ⟨hencoded, ?_, hdecoded⟩
  rw [← text_edgeHandle]
  exact edgeHandleCodec_serde.inverts edgeHandle

end PathHydra
