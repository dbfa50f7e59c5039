import PathHydra.Construction.Api.Scan

/-!
# The scan is exact

The loops over indices come to functions of the bytes that are left (`scanList`), which no access
leaves and which end.  On a well-formed text, scanning past a value is one step: the document is
accepted exactly when the depth and the number of values at this place are within the limits and
what follows is accepted (`accepts_value`).
-/

namespace PathHydra

namespace Scan

open JsonByte

variable {bytes : Bytes} {limits : SyntaxLimits} {depth values : ℕ}

/-! ## What is left of the bytes -/

lemma byteAt_eq {index : ℕ} (h : index < bytes.length) : byteAt bytes index = .ok bytes[index] := by
  rw [byteAt, List.getElem?_eq_getElem h]

/-- How many bytes of a string there are, up to its closing quote. -/
def stringEnd : Bytes → Bool → Option ℕ
  | [], _ => none
  | byte :: rest, escaped =>
    if escaped then (stringEnd rest false).map (· + 1)
    else if byte = backslash then (stringEnd rest true).map (· + 1)
    else if byte = quote then some 1
    else (stringEnd rest false).map (· + 1)

lemma scanStringFrom_eq {fuel index : ℕ} {escaped : Bool} (hindex : index ≤ bytes.length)
    (hfuel : bytes.length < index + fuel) :
    scanStringFrom bytes fuel index escaped =
      okOr syntaxError ((stringEnd (bytes.drop index) escaped).map (index + ·)) := by
  induction fuel generalizing index escaped with
  | zero => omega
  | succ fuel ih =>
    rw [scanStringFrom]
    by_cases hlt : index < bytes.length
    · have hnext : ∀ escaped, scanStringFrom bytes fuel (index + 1) escaped =
          okOr syntaxError (((stringEnd (bytes.drop (index + 1)) escaped).map (· + 1)).map
            (index + ·)) := by
        intro escaped
        rw [ih (by omega) (by omega), Option.map_map]
        congr 2
        funext k
        show index + 1 + k = index + (k + 1)
        omega
      rw [if_pos hlt, byteAt_eq hlt, ok_bind, List.drop_eq_getElem_cons hlt, stringEnd, hnext,
        hnext]
      split_ifs
      · rfl
      · rfl
      · rfl
      · rfl
    · rw [if_neg hlt, List.drop_eq_nil_of_le (not_lt.1 hlt)]
      rfl

lemma skipWhile_eq (passed : UInt8 → Bool) {fuel index : ℕ} (hindex : index ≤ bytes.length)
    (hfuel : bytes.length < index + fuel) :
    skipWhile passed bytes fuel index =
      .ok (index + ((bytes.drop index).takeWhile passed).length) := by
  induction fuel generalizing index with
  | zero => omega
  | succ fuel ih =>
    rw [skipWhile]
    by_cases hlt : index < bytes.length
    · rw [if_pos hlt, byteAt_eq hlt, ok_bind, List.drop_eq_getElem_cons hlt, List.takeWhile_cons]
      split_ifs
      · rw [ih (by omega) (by omega), List.length_cons]
        congr 1
        omega
      · rfl
    · rw [if_neg hlt, List.drop_eq_nil_of_le (not_lt.1 hlt)]
      rfl

lemma isKey_eq {stop : ℕ} (hstop : stop ≤ bytes.length) :
    isKey bytes stop =
      .ok (decide (((bytes.drop stop).dropWhile isAsciiWhitespace).head? = some colon)) := by
  have hpassed := List.takeWhile_append_dropWhile (p := isAsciiWhitespace) (l := bytes.drop stop)
  set passed := (bytes.drop stop).takeWhile isAsciiWhitespace with hdef
  have hhead : ((bytes.drop stop).dropWhile isAsciiWhitespace).head? =
      bytes[stop + passed.length]? := by
    have hget : (passed ++ (bytes.drop stop).dropWhile isAsciiWhitespace)[passed.length]? =
        ((bytes.drop stop).dropWhile isAsciiWhitespace)[0]? := by
      rw [List.getElem?_append_right le_rfl, Nat.sub_self]
    rw [hpassed, List.getElem?_drop] at hget
    rw [hget, List.head?_eq_getElem?]
  rw [isKey, skipWhitespace, skipWhile_eq _ hstop (by omega), ok_bind, hhead]
  by_cases hlt : stop + passed.length < bytes.length
  · rw [if_pos hlt, byteAt_eq hlt, ok_bind, List.getElem?_eq_getElem hlt]
    simp
    rfl
  · rw [if_neg hlt, List.getElem?_eq_none (not_lt.1 hlt)]
    rfl

/-! ## The loop over what is left -/

lemma stringEnd_le {l : Bytes} {escaped : Bool} {k : ℕ} (h : stringEnd l escaped = some k) :
    1 ≤ k ∧ k ≤ l.length := by
  induction l generalizing escaped k with
  | nil => cases h
  | cons byte rest ih =>
    have hnext : ∀ {escaped : Bool}, (stringEnd rest escaped).map (· + 1) = some k →
        1 ≤ k ∧ k ≤ rest.length + 1 := by
      intro escaped h
      obtain ⟨j, hj, rfl⟩ := Option.map_eq_some_iff.1 h
      have := ih hj
      omega
    rw [stringEnd] at h
    rw [List.length_cons]
    split_ifs at h
    · exact hnext h
    · exact hnext h
    · cases h
      omega
    · exact hnext h

/-- One value more, unless there are too many. -/
def countValue (limits : SyntaxLimits) (values : ℕ) : Except JsonCodecError ℕ :=
  if limits.maximumJsonValues.val < values + 1 then
    .error (.limitExceeded .jsonValues limits.maximumJsonValues.val (values + 1))
  else .ok (values + 1)

/-- The main loop on the bytes that are left. -/
def scanList (limits : SyntaxLimits) : Bytes → ℕ → ℕ → Except JsonCodecError Unit
  | [], depth, _ => if depth ≠ 0 then .error syntaxError else .ok ()
  | byte :: rest, depth, values =>
    if byte = quote then
      match stringEnd rest false with
      | none => .error syntaxError
      | some k =>
        (if ((rest.drop k).dropWhile isAsciiWhitespace).head? = some colon then .ok values
          else countValue limits values) >>= scanList limits (rest.drop k) depth
    else if byte = openBrace ∨ byte = openBracket then
      countValue limits values >>= fun values =>
        if limits.maximumNestingDepth.val < depth + 1 then
          .error (.limitExceeded .nestingDepth limits.maximumNestingDepth.val (depth + 1))
        else scanList limits rest (depth + 1) values
    else if byte = closeBrace ∨ byte = closeBracket then
      if depth = 0 then .error syntaxError else scanList limits rest (depth - 1) values
    else if startsScalar byte then
      countValue limits values >>= scanList limits (rest.dropWhile inScalar) depth
    else scanList limits rest depth values
termination_by l => l.length
decreasing_by
  · rw [List.length_drop, List.length_cons]
    omega
  · simp
  · simp
  · exact Nat.lt_succ_of_le (List.dropWhile_sublist inScalar).length_le
  · simp

lemma incrementValues_eq {values : ℕ} (h : values + 1 ≤ u64Max) :
    incrementValues values limits = countValue limits values := by
  rw [incrementValues, saturatingAdd64, min_eq_left h, countValue]

lemma drop_length_takeWhile (passed : UInt8 → Bool) (l : Bytes) :
    l.drop (l.takeWhile passed).length = l.dropWhile passed := by
  calc l.drop (l.takeWhile passed).length
      = (l.takeWhile passed ++ l.dropWhile passed).drop (l.takeWhile passed).length := by
        rw [List.takeWhile_append_dropWhile]
    _ = l.dropWhile passed := List.drop_left

/-- The loop over indices comes to the loop over what is left; the counters stay below their range
since every turn takes a byte. -/
lemma scanFrom_eq {fuel index depth values : ℕ} (hindex : index ≤ bytes.length)
    (hfuel : bytes.length < index + fuel) (hdepth : depth + bytes.length ≤ u64Max + index)
    (hvalues : values + bytes.length ≤ u64Max + index) :
    scanFrom bytes limits fuel index depth values =
      scanList limits (bytes.drop index) depth values := by
  induction fuel generalizing index depth values with
  | zero => omega
  | succ fuel ih =>
    rw [scanFrom]
    by_cases hlt : index < bytes.length
    · -- a value is counted, and the scan goes on behind it
      have hcount : ∀ {next k d : ℕ}, index < next → next ≤ bytes.length →
          d ≤ depth + 1 → k = next → countValue limits values >>= (fun values =>
            scanFrom bytes limits fuel k d values) =
          countValue limits values >>= scanList limits (bytes.drop next) d := by
        rintro next k d hnext hle hd rfl
        unfold countValue
        split_ifs
        · rfl
        · exact ih hle (by omega) (by omega) (by omega)
      rw [if_pos hlt, byteAt_eq hlt, ok_bind, List.drop_eq_getElem_cons hlt, scanList,
        incrementValues_eq (show values + 1 ≤ u64Max by omega)]
      by_cases hquote : bytes[index] = quote
      · rw [if_pos hquote, if_pos hquote, scanString,
          scanStringFrom_eq (by omega) (show bytes.length < index + 1 + (bytes.length + 1) by omega)]
        rcases hend : stringEnd (bytes.drop (index + 1)) false with _ | k
        · rfl
        · have hle := stringEnd_le hend
          rw [List.length_drop] at hle
          rw [Option.map_some, okOr_some, ok_bind, isKey_eq (by omega), ok_bind]
          dsimp only
          rw [List.drop_drop]
          -- a string before a colon is a key and not a value
          by_cases hkey : ((bytes.drop (index + 1 + k)).dropWhile isAsciiWhitespace).head? =
              some colon
          · rw [if_pos hkey, decide_eq_true hkey, if_pos rfl, ok_bind, ok_bind]
            exact ih (by omega) (by omega) (by omega) (by omega)
          · rw [if_neg hkey, decide_eq_false hkey, if_neg (by simp)]
            exact hcount (by omega) (by omega) (by omega) rfl
      · rw [if_neg hquote, if_neg hquote]
        by_cases hopen : bytes[index] = openBrace ∨ bytes[index] = openBracket
        · rw [if_pos hopen, if_pos hopen, saturatingAdd64, min_eq_left (by omega)]
          by_cases hmany : limits.maximumJsonValues.val < values + 1
          · rw [countValue, if_pos hmany]
            rfl
          · rw [countValue, if_neg hmany, ok_bind, ok_bind]
            dsimp only
            split_ifs
            · rfl
            · exact ih (by omega) (by omega) (by omega) (by omega)
        · rw [if_neg hopen, if_neg hopen]
          by_cases hclose : bytes[index] = closeBrace ∨ bytes[index] = closeBracket
          · rw [if_pos hclose, if_pos hclose, checkedSub64]
            by_cases hzero : depth = 0
            · rw [if_pos hzero, if_neg (by omega)]
            · rw [if_neg hzero, if_pos (by omega)]
              exact ih (by omega) (by omega) (by omega) (by omega)
          · rw [if_neg hclose, if_neg hclose]
            by_cases hscalar : startsScalar bytes[index] = true
            · rw [if_pos hscalar, if_pos hscalar]
              -- a scalar is passed as a whole
              have hle := (List.takeWhile_sublist (l := bytes.drop (index + 1)) inScalar).length_le
              rw [List.length_drop] at hle
              simp only [skipScalar, skipWhile_eq inScalar (show index + 1 ≤ bytes.length by omega)
                (show bytes.length < index + 1 + (bytes.length + 1) by omega), ok_bind]
              rw [← drop_length_takeWhile, List.drop_drop]
              exact hcount (by omega) (by omega) (by omega) rfl
            · rw [if_neg hscalar, if_neg hscalar]
              exact ih (by omega) (by omega) (by omega) (by omega)
    · rw [if_neg hlt, List.drop_eq_nil_of_le (not_lt.1 hlt), scanList]
      split_ifs <;> rfl

/-- A result that the program can return: no loop goes on and no access is past the end. -/
def Returns {α : Type} (x : Except JsonCodecError α) : Prop :=
  x ≠ .error .outOfRange ∧ x ≠ .error .unfinished

lemma returns_ok {α : Type} (a : α) : Returns (.ok a) := ⟨nofun, nofun⟩

lemma Returns.bind {α β : Type} {x : Except JsonCodecError α} {f : α → Except JsonCodecError β}
    (hx : Returns x) (hf : ∀ a, Returns (f a)) : Returns (x >>= f) := by
  rcases x with e | a
  · exact ⟨fun h => hx.1 (by cases h; rfl), fun h => hx.2 (by cases h; rfl)⟩
  · exact hf a

lemma returns_countValue : Returns (countValue limits values) := by
  unfold countValue
  split_ifs
  · exact ⟨nofun, nofun⟩
  · exact returns_ok _

lemma returns_scanList (l : Bytes) (depth values : ℕ) : Returns (scanList limits l depth values) := by
  fun_induction scanList limits l depth values with
  | case1 | case3 | case6 => exact ⟨nofun, nofun⟩
  | case2 => exact returns_ok ()
  | case4 depth values rest k hend ih =>
    refine Returns.bind ?_ ih
    split_ifs
    · exact returns_ok _
    · exact returns_countValue
  | case5 depth values byte rest hquote hopen ih =>
    refine returns_countValue.bind fun values => ?_
    split_ifs
    · exact ⟨nofun, nofun⟩
    · exact ih values
  | case7 _ _ _ _ _ _ _ _ ih => exact ih
  | case8 _ _ _ _ _ _ _ _ ih => exact returns_countValue.bind ih
  | case9 _ _ _ _ _ _ _ _ ih => exact ih

/-! ## Tokens -/

/-- The rest of a document is accepted. -/
def Accepts (limits : SyntaxLimits) (l : Bytes) (depth values : ℕ) : Prop :=
  scanList limits l depth values = .ok ()

variable {rest : Bytes} {byte : UInt8}

lemma countValue_bind_eq_ok {f : ℕ → Except JsonCodecError Unit} :
    countValue limits values >>= f = .ok () ↔
      values + 1 ≤ limits.maximumJsonValues.val ∧ f (values + 1) = .ok () := by
  unfold countValue
  split_ifs with hmany
  · exact iff_of_false nofun fun h => absurd h.1 (not_le.2 hmany)
  · exact (and_iff_right (not_lt.1 hmany)).symm

lemma accepts_nil : Accepts limits [] depth values ↔ depth = 0 := by
  rw [Accepts, scanList]
  split_ifs with h
  · exact iff_of_false nofun h
  · exact iff_of_true rfl (not_not.1 h)

lemma accepts_open (h : byte = openBrace ∨ byte = openBracket) :
    Accepts limits (byte :: rest) depth values ↔
      values + 1 ≤ limits.maximumJsonValues.val ∧ depth + 1 ≤ limits.maximumNestingDepth.val ∧
        Accepts limits rest (depth + 1) (values + 1) := by
  have hquote : byte ≠ quote := by
    rcases h with rfl | rfl <;> decide
  rw [Accepts, scanList, if_neg hquote, if_pos h, countValue_bind_eq_ok]
  refine and_congr_right fun _ => ?_
  split_ifs with hdeep
  · exact iff_of_false nofun fun h => absurd h.1 (not_le.2 hdeep)
  · exact (and_iff_right (not_lt.1 hdeep)).symm

lemma accepts_close (h : byte = closeBrace ∨ byte = closeBracket) :
    Accepts limits (byte :: rest) (depth + 1) values ↔ Accepts limits rest depth values := by
  have hquote : byte ≠ quote := by
    rcases h with rfl | rfl <;> decide
  have hopen : ¬ (byte = openBrace ∨ byte = openBracket) := by
    rcases h with rfl | rfl <;> decide
  rw [Accepts, scanList, if_neg hquote, if_neg hopen, if_pos h, if_neg (Nat.succ_ne_zero depth)]
  rfl

/-- The bytes that the scan passes over. -/
def isPassed (b : UInt8) : Bool := isSpace b || b = comma || b = colon

lemma accepts_passed (h : isPassed byte = true) :
    Accepts limits (byte :: rest) depth values ↔ Accepts limits rest depth values := by
  have hcases : byte = 0x20 ∨ byte = 0x09 ∨ byte = 0x0A ∨ byte = 0x0D ∨ byte = comma ∨
      byte = colon := by
    simpa [isPassed, isSpace, or_assoc] using h
  have hother : byte ≠ quote ∧ ¬ (byte = openBrace ∨ byte = openBracket) ∧
      ¬ (byte = closeBrace ∨ byte = closeBracket) ∧ startsScalar byte = false := by
    rcases hcases with rfl | rfl | rfl | rfl | rfl | rfl <;> decide
  obtain ⟨hquote, hopen, hclose, hscalar⟩ := hother
  rw [Accepts, scanList, if_neg hquote, if_neg hopen, if_neg hclose, if_neg (by simp [hscalar])]
  rfl

lemma accepts_space (space : JsonSpace) :
    Accepts limits (space.bytes ++ rest) depth values ↔ Accepts limits rest depth values := by
  obtain ⟨l, hl⟩ := space
  induction l with
  | nil => rfl
  | cons b l ih =>
    have hb : isPassed b = true := by simp [isPassed, hl b List.mem_cons_self]
    rw [List.cons_append, accepts_passed hb]
    exact ih fun b' hb' => hl b' (List.mem_cons_of_mem b hb')

/-! ## Strings and scalars -/

lemma stringEnd_text (s : JsonString) (rest : Bytes) :
    stringEnd (s.flatMap JsonChar.text ++ quote :: rest) false =
      some ((s.flatMap JsonChar.text).length + 1) := by
  induction s with
  | nil => rfl
  | cons c s ih =>
    rw [List.flatMap_cons, List.append_assoc]
    have hplain : ∀ {b : UInt8} {l : Bytes}, b ≠ quote → b ≠ backslash →
        stringEnd (b :: l) false = (stringEnd l false).map (· + 1) := by
      intro b l hquote hbackslash
      rw [stringEnd, if_neg (by simp), if_neg hbackslash, if_neg hquote]
    have hescaped : ∀ (b : UInt8) (l : Bytes), stringEnd (backslash :: b :: l) false =
        ((stringEnd l false).map (· + 1)).map (· + 1) := by
      intro b l
      rw [stringEnd, if_neg (by simp), if_pos rfl, stringEnd, if_pos rfl]
    have hhex : ∀ {b : UInt8}, isHex b = true → b ≠ quote ∧ b ≠ backslash := by
      rintro b hb
      constructor <;> rintro rfl <;> exact absurd hb (by decide)
    rcases c with ⟨b, hb⟩ | ⟨b, hb⟩ | ⟨a, b, c, d, h⟩
    · simp only [isPlain, Bool.and_eq_true, decide_eq_true_eq] at hb
      simp only [JsonChar.text, List.cons_append, List.nil_append]
      rw [hplain hb.1.2 hb.2, ih]
      simp [Nat.add_comm]
    · simp only [JsonChar.text, List.cons_append, List.nil_append]
      rw [hescaped, ih]
      simp
    · simp only [Bool.and_eq_true] at h
      obtain ⟨⟨⟨ha, hb⟩, hc⟩, hd⟩ := h
      simp only [JsonChar.text, List.cons_append, List.nil_append]
      rw [hescaped, hplain (hhex ha).1 (hhex ha).2, hplain (hhex hb).1 (hhex hb).2,
        hplain (hhex hc).1 (hhex hc).2, hplain (hhex hd).1 (hhex hd).2, ih]
      simp

/-- A string is a key exactly when a colon follows. -/
lemma accepts_string (s : JsonString) :
    Accepts limits (s.text ++ rest) depth values ↔
      if (rest.dropWhile isAsciiWhitespace).head? = some colon then
        Accepts limits rest depth values
      else values + 1 ≤ limits.maximumJsonValues.val ∧ Accepts limits rest depth (values + 1) := by
  have htext : s.text ++ rest = quote :: (s.flatMap JsonChar.text ++ quote :: rest) := by
    simp [JsonString.text]
  have hdrop : (s.flatMap JsonChar.text ++ quote :: rest).drop
      ((s.flatMap JsonChar.text).length + 1) = rest := by
    rw [List.drop_append]
    simp
  rw [htext, Accepts, scanList, if_pos rfl, stringEnd_text]
  dsimp only
  rw [hdrop]
  split_ifs with hkey
  · rfl
  · exact countValue_bind_eq_ok

/-- What may follow a value: white space, and then a comma, the end of a container, or nothing. -/
def Follows (rest : Bytes) : Prop :=
  ∀ b, (rest.dropWhile isAsciiWhitespace).head? = some b →
    b = comma ∨ b = closeBracket ∨ b = closeBrace

lemma Follows.dropWhile_inScalar (h : Follows rest) : rest.dropWhile inScalar = rest := by
  rcases rest with _ | ⟨b, l⟩
  · rfl
  · rw [List.dropWhile_cons, if_neg]
    by_cases hspace : isAsciiWhitespace b = true
    · simp [inScalar, hspace]
    · have hend := h b (by rw [List.dropWhile_cons, if_neg hspace]; rfl)
      rcases hend with rfl | rfl | rfl <;> decide

lemma accepts_scalar {tail : Bytes} (hbyte : startsScalar byte = true)
    (htail : ∀ b ∈ tail, inScalar b = true) (hrest : Follows rest) :
    Accepts limits (byte :: tail ++ rest) depth values ↔
      values + 1 ≤ limits.maximumJsonValues.val ∧ Accepts limits rest depth (values + 1) := by
  have hother : byte ≠ quote ∧ ¬ (byte = openBrace ∨ byte = openBracket) ∧
      ¬ (byte = closeBrace ∨ byte = closeBracket) := by
    refine ⟨?_, ?_, ?_⟩
    · rintro rfl
      exact absurd hbyte (by decide)
    · rintro (rfl | rfl) <;> exact absurd hbyte (by decide)
    · rintro (rfl | rfl) <;> exact absurd hbyte (by decide)
  obtain ⟨hquote, hopen, hclose⟩ := hother
  have hdrop : (tail ++ rest).dropWhile inScalar = rest := by
    rw [List.dropWhile_append_of_pos htail, hrest.dropWhile_inScalar]
  rw [List.cons_append, Accepts, scanList, if_neg hquote, if_neg hopen, if_neg hclose,
    if_pos hbyte, hdrop]
  exact countValue_bind_eq_ok

lemma literal_text (l : JsonLiteral) : ∃ byte tail, l.text = byte :: tail ∧
    startsScalar byte = true ∧ ∀ b ∈ tail, inScalar b = true := by
  rcases l with _ | _ | _
  · exact ⟨_, _, rfl, by decide, by decide +kernel⟩
  · exact ⟨_, _, rfl, by decide, by decide +kernel⟩
  · exact ⟨_, _, rfl, by decide, by decide +kernel⟩

lemma startsScalar_digit (d : Fin 10) : startsScalar (digit d) = true := by
  revert d
  decide

lemma inScalar_digit (d : Fin 10) : inScalar (digit d) = true := by
  revert d
  decide

lemma inScalar_digits (l : List (Fin 10)) : ∀ b ∈ l.map digit, inScalar b = true := by
  intro b hb
  obtain ⟨d, -, rfl⟩ := List.mem_map.1 hb
  exact inScalar_digit d

lemma inScalar_exponent (e : JsonExponent) : ∀ b ∈ e.text, inScalar b = true := by
  intro b hb
  unfold JsonExponent.text at hb
  rcases List.mem_cons.1 hb with rfl | hb
  · split_ifs <;> decide
  · rcases List.mem_append.1 hb with hb | hb
    · rcases hsign : e.sign with _ | positive
      · simp [hsign] at hb
      · rw [hsign] at hb
        rcases positive with _ | _
        · simp at hb
          subst hb
          decide
        · simp at hb
          subst hb
          decide
    · rcases List.mem_cons.1 hb with rfl | hb
      · exact inScalar_digit e.first
      · exact inScalar_digits e.rest b hb

lemma number_text (n : JsonNumber) : ∃ byte tail, n.text = byte :: tail ∧
    startsScalar byte = true ∧ ∀ b ∈ tail, inScalar b = true := by
  obtain ⟨tail, htail⟩ : ∃ tail, tail = n.rest.map digit ++ ((if n.fraction = [] then [] else
      dot :: n.fraction.map digit) ++ (n.exponent.map JsonExponent.text).getD []) := ⟨_, rfl⟩
  have htext : n.text = (if n.negative then [minus] else []) ++ digit n.first :: tail := by
    simp [JsonNumber.text, htail]
  have hin : ∀ b ∈ tail, inScalar b = true := by
    intro b hb
    rw [htail] at hb
    rcases List.mem_append.1 hb with hb | hb
    · exact inScalar_digits n.rest b hb
    · rcases List.mem_append.1 hb with hb | hb
      · split_ifs at hb
        · cases hb
        · rcases List.mem_cons.1 hb with rfl | hb
          · decide
          · exact inScalar_digits n.fraction b hb
      · rcases hexponent : n.exponent with _ | e
        · simp [hexponent] at hb
        · rw [hexponent] at hb
          exact inScalar_exponent e b hb
  rcases hnegative : n.negative with _ | _
  · refine ⟨digit n.first, tail, ?_, startsScalar_digit n.first, hin⟩
    rw [htext, hnegative]
    rfl
  · refine ⟨minus, digit n.first :: tail, ?_, by decide, ?_⟩
    · rw [htext, hnegative]
      rfl
    · intro b hb
      rcases List.mem_cons.1 hb with rfl | hb
      · exact inScalar_digit n.first
      · exact hin b hb

/-! ## Values -/

lemma dropWhile_space (space : JsonSpace) (l : Bytes) :
    (space.bytes ++ l).dropWhile isAsciiWhitespace = l.dropWhile isAsciiWhitespace := by
  refine List.dropWhile_append_of_pos fun b hb => ?_
  have hcases : b = 0x20 ∨ b = 0x09 ∨ b = 0x0A ∨ b = 0x0D := by
    simpa [isSpace, or_assoc] using space.spaces b hb
  rcases hcases with rfl | rfl | rfl | rfl <;> decide

lemma follows_cons (l : Bytes) (h : byte = comma ∨ byte = closeBracket ∨ byte = closeBrace) :
    Follows (byte :: l) := by
  have hspace : ¬ isAsciiWhitespace byte = true := by
    rcases h with rfl | rfl | rfl <;> decide
  intro b hb
  rw [List.dropWhile_cons, if_neg hspace, List.head?_cons, Option.some.injEq] at hb
  exact hb ▸ h

lemma Follows.space (h : Follows rest) (space : JsonSpace) : Follows (space.bytes ++ rest) := by
  intro b hb
  rw [dropWhile_space] at hb
  exact h b hb

lemma Follows.not_key (h : Follows rest) :
    (rest.dropWhile isAsciiWhitespace).head? ≠ some colon := by
  intro hcolon
  rcases h colon hcolon with hb | hb | hb <;> exact absurd hb (by decide)

/-- A key with its colon is passed over. -/
lemma accepts_key (key : JsonString) (beforeColon afterColon : JsonSpace) :
    Accepts limits (key.text ++ (beforeColon.bytes ++ colon :: (afterColon.bytes ++ rest))) depth
      values ↔ Accepts limits rest depth values := by
  have hcolon : ((beforeColon.bytes ++ colon :: (afterColon.bytes ++ rest)).dropWhile
      isAsciiWhitespace).head? = some colon := by
    rw [dropWhile_space]
    rfl
  rw [accepts_string, if_pos hcolon, accepts_space, accepts_passed (by decide), accepts_space]

/-- The parts of a container one level down. -/
lemma accepts_container {first last : UInt8} {inner : Bytes} {innerDepth innerValues : ℕ}
    (hfirst : first = openBrace ∨ first = openBracket)
    (hlast : last = closeBrace ∨ last = closeBracket)
    (hinner : depth + 1 ≤ limits.maximumNestingDepth.val →
      (Accepts limits (inner ++ last :: rest) (depth + 1) (values + 1) ↔
        depth + 1 + innerDepth ≤ limits.maximumNestingDepth.val ∧
          values + 1 + innerValues ≤ limits.maximumJsonValues.val ∧
          Accepts limits (last :: rest) (depth + 1) (values + 1 + innerValues))) :
    Accepts limits (first :: (inner ++ [last]) ++ rest) depth values ↔
      depth + (innerDepth + 1) ≤ limits.maximumNestingDepth.val ∧
        values + (innerValues + 1) ≤ limits.maximumJsonValues.val ∧
        Accepts limits rest depth (values + (innerValues + 1)) := by
  rw [List.cons_append, List.append_assoc, List.singleton_append, accepts_open hfirst,
    show values + (innerValues + 1) = values + 1 + innerValues by omega]
  constructor
  · rintro ⟨hvalues, hdeep, haccepts⟩
    rw [hinner hdeep, accepts_close hlast] at haccepts
    exact ⟨by omega, haccepts.2⟩
  · rintro ⟨hdeep, hcount, haccepts⟩
    refine ⟨by omega, by omega, ?_⟩
    rw [hinner (by omega), accepts_close hlast]
    exact ⟨by omega, hcount, haccepts⟩

lemma accepts_empty {first last : UInt8} (space : JsonSpace)
    (hfirst : first = openBrace ∨ first = openBracket)
    (hlast : last = closeBrace ∨ last = closeBracket) :
    Accepts limits (first :: (space.bytes ++ [last]) ++ rest) depth values ↔
      depth + 1 ≤ limits.maximumNestingDepth.val ∧ values + 1 ≤ limits.maximumJsonValues.val ∧
        Accepts limits rest depth (values + 1) := by
  rw [List.cons_append, List.append_assoc, List.singleton_append, accepts_open hfirst,
    accepts_space, accepts_close hlast, and_left_comm]

/-- A value and what comes after the comma. -/
lemma accepts_more {firstDepth firstValues restDepth restValues : ℕ} {l : Bytes} :
    (depth + firstDepth ≤ limits.maximumNestingDepth.val ∧
      values + firstValues ≤ limits.maximumJsonValues.val ∧
      depth + restDepth ≤ limits.maximumNestingDepth.val ∧
      values + firstValues + restValues ≤ limits.maximumJsonValues.val ∧
      Accepts limits l depth (values + firstValues + restValues)) ↔
    depth + max firstDepth restDepth ≤ limits.maximumNestingDepth.val ∧
      values + (firstValues + restValues) ≤ limits.maximumJsonValues.val ∧
      Accepts limits l depth (values + (firstValues + restValues)) := by
  rw [Nat.add_assoc values]
  constructor
  · rintro ⟨hfirst, -, hrest, hcount, haccepts⟩
    exact ⟨by omega, hcount, haccepts⟩
  · rintro ⟨hdeep, hcount, haccepts⟩
    exact ⟨by omega, by omega, by omega, hcount, haccepts⟩

mutual

/-- Scanning past a value is one step. -/
lemma accepts_value (v : JsonValue) {rest : Bytes} {depth values : ℕ} (hrest : Follows rest)
    (hdepth : depth ≤ limits.maximumNestingDepth.val) :
    Accepts limits (v.text ++ rest) depth values ↔
      depth + v.depth ≤ limits.maximumNestingDepth.val ∧
        values + v.values ≤ limits.maximumJsonValues.val ∧
        Accepts limits rest depth (values + v.values) := by
  match v with
  | .literal l =>
    obtain ⟨byte, tail, htext, hbyte, htail⟩ := literal_text l
    rw [JsonValue.text, htext, accepts_scalar hbyte htail hrest]
    exact (and_iff_right hdepth).symm
  | .number n =>
    obtain ⟨byte, tail, htext, hbyte, htail⟩ := number_text n
    rw [JsonValue.text, htext, accepts_scalar hbyte htail hrest]
    exact (and_iff_right hdepth).symm
  | .string s =>
    rw [JsonValue.text, accepts_string, if_neg hrest.not_key]
    exact (and_iff_right hdepth).symm
  | .emptyArray space =>
    exact accepts_empty space (.inr rfl) (.inr rfl)
  | .array items =>
    refine accepts_container (.inr rfl) (.inr rfl) fun hdeep => ?_
    exact accepts_items items (follows_cons rest (.inr (.inl rfl))) hdeep
  | .emptyObject space =>
    exact accepts_empty space (.inl rfl) (.inl rfl)
  | .object members =>
    refine accepts_container (.inl rfl) (.inl rfl) fun hdeep => ?_
    exact accepts_members members (follows_cons rest (.inr (.inr rfl))) hdeep

/-- Scanning past the items of an array. -/
lemma accepts_items (items : JsonItems) {rest : Bytes} {depth values : ℕ} (hrest : Follows rest)
    (hdepth : depth ≤ limits.maximumNestingDepth.val) :
    Accepts limits (items.text ++ rest) depth values ↔
      depth + items.depth ≤ limits.maximumNestingDepth.val ∧
        values + items.values ≤ limits.maximumJsonValues.val ∧
        Accepts limits rest depth (values + items.values) := by
  match items with
  | .last before v after =>
    rw [JsonItems.text, List.append_assoc, List.append_assoc, accepts_space,
      accepts_value v (hrest.space after) hdepth, accepts_space]
    rfl
  | .more before v after more =>
    have hcomma : Follows (comma :: (more.text ++ rest)) := follows_cons _ (.inl rfl)
    rw [JsonItems.text, List.append_assoc, List.append_assoc, List.append_assoc,
      List.cons_append, accepts_space, accepts_value v (hcomma.space after) hdepth, accepts_space,
      accepts_passed (by decide), accepts_items more hrest hdepth]
    exact accepts_more

/-- Scanning past the members of an object. -/
lemma accepts_members (members : JsonMembers) {rest : Bytes} {depth values : ℕ}
    (hrest : Follows rest) (hdepth : depth ≤ limits.maximumNestingDepth.val) :
    Accepts limits (members.text ++ rest) depth values ↔
      depth + members.depth ≤ limits.maximumNestingDepth.val ∧
        values + members.values ≤ limits.maximumJsonValues.val ∧
        Accepts limits rest depth (values + members.values) := by
  match members with
  | .last before key beforeColon afterColon v after =>
    simp only [JsonMembers.text, List.append_assoc, List.cons_append]
    rw [accepts_space, accepts_key, accepts_value v (hrest.space after) hdepth, accepts_space]
    rfl
  | .more before key beforeColon afterColon v after more =>
    have hcomma : Follows (comma :: (more.text ++ rest)) := follows_cons _ (.inl rfl)
    simp only [JsonMembers.text, List.append_assoc, List.cons_append]
    rw [accepts_space, accepts_key, accepts_value v (hcomma.space after) hdepth, accepts_space,
      accepts_passed (by decide), accepts_members more hrest hdepth]
    exact accepts_more

end

/-- A document is accepted when its one value is within the limits. -/
lemma accepts_text (t : JsonText) :
    Accepts limits t.text 0 0 ↔ t.value.depth ≤ limits.maximumNestingDepth.val ∧
      t.value.values ≤ limits.maximumJsonValues.val := by
  have hfollows : Follows t.after.bytes := by
    have hend : Follows [] := nofun
    simpa using hend.space t.after
  rw [JsonText.text, accepts_space, accepts_value t.value hfollows (Nat.zero_le _)]
  have hafter : Accepts limits (t.after.bytes ++ []) 0 (0 + t.value.values) ↔
      Accepts limits [] 0 (0 + t.value.values) := accepts_space t.after
  rw [List.append_nil] at hafter
  rw [hafter, accepts_nil, Nat.zero_add, Nat.zero_add]
  tauto

/-- No document starts with a byte order mark. -/
lemma head?_text_ne (t : JsonText) : t.text.head? ≠ some 0xEF := by
  have hvalue : t.value.text.head? ≠ none ∧ t.value.text.head? ≠ some 0xEF := by
    rcases t.value with l | n | s | _ | _ | _ | _
    · rcases l with _ | _ | _ <;> exact ⟨by decide, by decide⟩
    · obtain ⟨byte, tail, htext, hbyte, -⟩ := number_text n
      rw [JsonValue.text, htext]
      refine ⟨by simp, fun h => ?_⟩
      cases h
      exact absurd hbyte (by decide)
    all_goals
      simp only [JsonValue.text, JsonString.text, List.cons_append, List.head?_cons]
      exact ⟨by simp, by decide⟩
  obtain ⟨hne, hmark⟩ := hvalue
  rw [JsonText.text]
  rcases hbefore : t.before.bytes with _ | ⟨b, l⟩
  · rw [List.nil_append, List.head?_append]
    rcases hhead : t.value.text.head? with _ | b
    · exact absurd hhead hne
    · rw [hhead] at hmark
      exact hmark
  · rw [List.cons_append, List.head?_cons]
    intro h
    cases h
    exact absurd (t.before.spaces 0xEF (by rw [hbefore]; exact List.mem_cons_self)) (by decide)

end Scan

open Scan in
lemma scanFrom_eq_scanList {limits : SyntaxLimits} {input : Bytes}
    (h : input.length ≤ limits.maximumEncodedBytes.val) :
    scanFrom input limits (input.length + 1) 0 0 0 = scanList limits input 0 0 := by
  have hmax : limits.maximumEncodedBytes.val ≤ u64Max :=
    Nat.le_of_lt_succ limits.maximumEncodedBytes.isLt
  exact scanFrom_eq (Nat.zero_le _) (by omega) (by omega) (by omega)

open Scan in
lemma scanBeforeDeserialize_text {t : JsonText} (hutf : (fromUtf8 t.text).isSome = true)
    (limits : SyntaxLimits) :
    scanBeforeDeserialize t.text limits = .ok () ↔
      t.text.length ≤ limits.maximumEncodedBytes.val ∧
      t.value.depth ≤ limits.maximumNestingDepth.val ∧
      t.value.values ≤ limits.maximumJsonValues.val := by
  unfold scanBeforeDeserialize
  by_cases hlength : t.text.length ≤ limits.maximumEncodedBytes.val
  · have hmark : ¬ byteOrderMark.isPrefixOf t.text = true := by
      intro h
      obtain ⟨rest, hrest⟩ := List.isPrefixOf_iff_prefix.1 h
      exact head?_text_ne t (by rw [← hrest]; rfl)
    rw [if_neg (not_lt.2 hlength), if_neg (by simpa [Option.isSome_iff_ne_none] using hutf),
      if_neg hmark, scanFrom_eq_scanList hlength, and_iff_right hlength]
    exact accepts_text t
  · rw [if_pos (not_le.1 hlength)]
    exact iff_of_false nofun fun h => hlength h.1

open Scan in
lemma returns_scanBeforeDeserialize (input : Bytes) (limits : SyntaxLimits) :
    Returns (scanBeforeDeserialize input limits) := by
  unfold scanBeforeDeserialize
  split_ifs with hlength
  · exact ⟨nofun, nofun⟩
  · exact ⟨nofun, nofun⟩
  · exact ⟨nofun, nofun⟩
  · rw [scanFrom_eq_scanList (not_lt.1 hlength)]
    exact returns_scanList input 0 0

/-- On a well-formed text the scan accepts exactly what is within the limits, and on all bytes it
ends without an access past the end. -/
theorem scanBeforeDeserialize_exact (limits : SyntaxLimits) :
    (∀ t : JsonText, (fromUtf8 t.text).isSome = true →
      (scanBeforeDeserialize t.text limits = .ok () ↔
        t.text.length ≤ limits.maximumEncodedBytes.val ∧
        t.value.depth ≤ limits.maximumNestingDepth.val ∧
        t.value.values ≤ limits.maximumJsonValues.val)) ∧
    ∀ input : Bytes, scanBeforeDeserialize input limits ≠ .error .outOfRange ∧
      scanBeforeDeserialize input limits ≠ .error .unfinished :=
  ⟨fun _ hutf => scanBeforeDeserialize_text hutf limits,
    fun input => returns_scanBeforeDeserialize input limits⟩

/-- An object with one member, whose value is an array: three values, nested twice, and a key with
an escaped quote. -/
def nestedText : JsonText where
  before := .none
  value := .object (.last .none [.plain 0x6B (by decide), .escape 0x22 JsonByte.isEscape_quote]
    ⟨[0x20], by decide +kernel⟩ .none (.array (.last .none (.literal .true) .none)) .none)
  after := ⟨[0x0A], by decide +kernel⟩

theorem scanBeforeDeserialize_exact_nestedText :
    (fromUtf8 nestedText.text).isSome = true ∧
    scanBeforeDeserialize nestedText.text ⟨16, 2, 3⟩ = .ok () ∧
    scanBeforeDeserialize nestedText.text ⟨16, 1, 3⟩ ≠ .ok () := by
  have hutf : (fromUtf8 nestedText.text).isSome = true := by decide +kernel
  refine ⟨hutf, ?_, ?_⟩
  · exact ((scanBeforeDeserialize_exact ⟨16, 2, 3⟩).1 nestedText hutf).2 (by decide +kernel)
  · intro h
    have hlimits := ((scanBeforeDeserialize_exact ⟨16, 1, 3⟩).1 nestedText hutf).1 h
    exact absurd hlimits.2.1 (by decide +kernel)

end PathHydra
