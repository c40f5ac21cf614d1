import CWebFramework.HttpClient.RequestLine
import CWebFramework.HttpClient.UrlParts

/-!
# Canonical targets

The form in which a path and a query are signed: every byte that is not plain
is escaped with upper-case digits, and the pairs of a query are sorted by name
and value.  A text is its own canonical form when it is encoded that way
already.
-/

namespace CWebFramework.HttpClient

open Http

def escape (byte : UInt8) : Bytes := [Byte.percent, byteToHex (byte >>> 4), byteToHex (byte &&& 15)]

def encodeBy (plain : UInt8 → Bool) (text : Bytes) : Bytes :=
  text.flatMap fun byte => if plain byte then [byte] else escape byte

/-- The canonical form of a text that may have escapes. -/
def canonicalBy (plain : UInt8 → Bool) (text : Bytes) : Bytes :=
  encodeBy plain (percentDecoded text)

/-- Plain bytes and upper-case escapes of the others. -/
def isEncoded (plain : UInt8 → Bool) : Bytes → Bool
  | [] => true
  | byte :: rest =>
    if byte = Byte.percent then
      match rest with
      | high :: low :: tail =>
        match hexCharToInt high, hexCharToInt low with
        | some hi, some lo =>
          !plain (hi <<< 4 ||| lo) && escape (hi <<< 4 ||| lo) == [byte, high, low] &&
            isEncoded plain tail
        | _, _ => false
      | _ => false
    else plain byte && isEncoded plain rest

def plainInPath (byte : UInt8) : Bool := isUnreserved byte || byte == Byte.slash

section Encoding

variable {plain : UInt8 → Bool}

theorem percentDecoded_escape {high low hi lo : UInt8}
    (isHigh : hexCharToInt high = some hi) (isLow : hexCharToInt low = some lo)
    (tail : Bytes) :
    percentDecoded (Byte.percent :: high :: low :: tail) =
      (hi <<< 4 ||| lo) :: percentDecoded tail := by
  rw [percentDecoded.eq_def]
  simp only [↓reduceIte, isHigh, isLow]

theorem percentDecoded_plain {byte : UInt8} (notPercent : byte ≠ Byte.percent) (rest : Bytes) :
    percentDecoded (byte :: rest) = byte :: percentDecoded rest := by
  rw [percentDecoded.eq_def]
  exact if_neg notPercent

theorem percentDecoded_noHex {high low : UInt8} (noHex : ∀ hi lo, hexCharToInt high = some hi →
      hexCharToInt low = some lo → False) (tail : Bytes) :
    percentDecoded (Byte.percent :: high :: low :: tail) =
      Byte.percent :: percentDecoded (high :: low :: tail) := by
  rw [percentDecoded.eq_def]
  simp only [↓reduceIte]

private theorem percentDecoded_short {short : Bytes}
    (notLong : ∀ high low tail, short = high :: low :: tail → False) :
    percentDecoded (Byte.percent :: short) = Byte.percent :: percentDecoded short := by
  rw [percentDecoded.eq_def]
  simp only [↓reduceIte]

theorem encodeBy_plain {byte : UInt8} (isPlain : plain byte = true)
    (text : Bytes) : encodeBy plain (byte :: text) = byte :: encodeBy plain text := by
  rw [encodeBy, List.flatMap_cons, if_pos isPlain]
  rfl

theorem encodeBy_escape {byte : UInt8} (notPlain : plain byte = false) (text : Bytes) :
    encodeBy plain (byte :: text) = escape byte ++ encodeBy plain text := by
  rw [encodeBy, List.flatMap_cons, if_neg (Bool.eq_false_iff.mp notPlain)]
  rfl

theorem isEncoded_cons {byte : UInt8} (notPercent : byte ≠ Byte.percent) (rest : Bytes) :
    isEncoded plain (byte :: rest) = (plain byte && isEncoded plain rest) := by
  rw [isEncoded.eq_def]
  exact if_neg notPercent

private theorem false_of_digit {digit : UInt8} {rest other : Bytes}
    (isDigit : (hexCharToInt digit).isSome = true)
    (noDigit : ∀ byte ∈ other.head?, hexCharToInt byte = none)
    (same : digit :: rest = other) : False := by
  subst same
  rw [noDigit digit rfl] at isDigit
  cases isDigit

/-- A text that goes on as its canonical form does is encoded. -/
theorem isEncoded_of_append (percent : plain Byte.percent = false) {text rest other : Bytes}
    (noDigit : ∀ byte ∈ other.head?, hexCharToInt byte = none)
    (same : canonicalBy plain text ++ rest = text ++ other) :
    isEncoded plain text = true := by
  -- Where the text is not encoded, its canonical form has another byte.
  rw [canonicalBy] at same
  induction text using percentDecoded.induct with
  | case1 => rfl
  | case2 high low tail hi lo isLow isHigh ih =>
    rw [percentDecoded_escape isHigh isLow] at same
    cases isPlain : plain (hi <<< 4 ||| lo) with
    | true =>
      rw [encodeBy_plain isPlain] at same
      obtain ⟨isPercent, -⟩ := List.cons.inj same
      rw [isPercent, percent] at isPlain
      cases isPlain
    | false =>
      rw [encodeBy_escape isPlain, List.append_assoc] at same
      have parts : escape (hi <<< 4 ||| lo) ++ (encodeBy plain (percentDecoded tail) ++ rest) =
            [Byte.percent, high, low] ++ (tail ++ other) := same
      obtain ⟨isEscape, later⟩ := List.append_inj parts rfl
      rw [isEncoded.eq_def]
      simp only [↓reduceIte, isHigh, isLow, isPlain, isEscape, ih later,
        Bool.not_false, beq_self_eq_true, Bool.and_self]
  | case3 high low tail noHex ih =>
    rw [percentDecoded_noHex noHex, encodeBy_escape percent] at same
    obtain ⟨-, later⟩ := List.cons.inj same
    obtain ⟨isHigh, later⟩ := List.cons.inj later
    obtain ⟨isLow, -⟩ := List.cons.inj later
    exact (noHex 2 5 (by rw [← isHigh]; rfl) (by rw [← isLow]; rfl)).elim
  | case4 short notLong ih =>
    rw [percentDecoded_short notLong, encodeBy_escape percent] at same
    obtain ⟨-, later⟩ := List.cons.inj same
    match short with
    | [] => exact (false_of_digit rfl noDigit later).elim
    | [high] =>
      obtain ⟨-, later⟩ := List.cons.inj later
      exact (false_of_digit rfl noDigit later).elim
    | high :: low :: tail => exact (notLong high low tail rfl).elim
  | case5 byte text notPercent ih =>
    rw [percentDecoded_plain notPercent] at same
    cases isPlain : plain byte with
    | true =>
      rw [encodeBy_plain isPlain] at same
      rw [isEncoded_cons notPercent, isPlain, Bool.true_and]
      exact ih (List.cons.inj same).2
    | false =>
      rw [encodeBy_escape isPlain] at same
      exact absurd (List.cons.inj same).1.symm notPercent

theorem canonicalBy_eq_self {text : Bytes} (encoded : isEncoded plain text = true) :
    canonicalBy plain text = text := by
  rw [canonicalBy]
  induction text using percentDecoded.induct with
  | case1 => rfl
  | case2 high low tail hi lo isLow isHigh ih =>
    rw [isEncoded.eq_def] at encoded
    simp only [↓reduceIte, isHigh, isLow, Bool.and_eq_true,
      Bool.not_eq_true', beq_iff_eq] at encoded
    rw [percentDecoded_escape isHigh isLow, encodeBy_escape encoded.1.1, encoded.1.2, ih encoded.2]
    rfl
  | case3 high low tail noHex ih =>
    rw [isEncoded.eq_def] at encoded
    simp only [↓reduceIte] at encoded
    cases encoded
  | case4 short notLong ih =>
    rw [isEncoded.eq_def] at encoded
    simp only [↓reduceIte] at encoded
    cases encoded
  | case5 byte text notPercent ih =>
    rw [isEncoded_cons notPercent, Bool.and_eq_true] at encoded
    rw [percentDecoded_plain notPercent, encodeBy_plain encoded.1, ih encoded.2]

private theorem canonicalBy_eq_iff (percent : plain Byte.percent = false) (text : Bytes) :
    canonicalBy plain text = text ↔ isEncoded plain text = true := by
  refine ⟨fun same => ?_, canonicalBy_eq_self⟩
  apply @isEncoded_of_append plain percent text [] [] nofun
  rw [List.append_nil, List.append_nil]
  exact same

theorem isEncoded_escape_append {byte : UInt8} (notPlain : plain byte = false)
    {text : Bytes} :
    isEncoded plain (escape byte ++ text) = isEncoded plain text := by
  obtain ⟨-, isHigh, isLow, isByte⟩ := urlencodeByte_facts byte
  rw [escape, isEncoded.eq_def]
  simp only [List.cons_append, List.nil_append, ↓reduceIte, isHigh, isLow,
    isByte, notPlain, escape, Bool.not_false, beq_self_eq_true,
    Bool.true_and]

private theorem isEncoded_encodeBy (percent : plain Byte.percent = false)
    (text : Bytes) : isEncoded plain (encodeBy plain text) = true := by
  induction text with
  | nil => rfl
  | cons byte text ih =>
    cases isPlain : plain byte with
    | true =>
      have notPercent : byte ≠ Byte.percent := by
        intro isPercent
        rw [isPercent, percent] at isPlain
        cases isPlain
      rw [encodeBy_plain isPlain, isEncoded_cons notPercent, isPlain, ih, Bool.and_self]
    | false => rw [encodeBy_escape isPlain, isEncoded_escape_append isPlain, ih]

end Encoding

/-! ## The pairs of a query -/

def joinPairs : List (Bytes × Bytes) → Bytes
  | [] => []
  | [pair] => pair.1 ++ Byte.equal :: pair.2
  | pair :: next :: rest =>
    pair.1 ++ Byte.equal :: pair.2 ++ Byte.ampersand :: joinPairs (next :: rest)

def readPairs (text : Bytes) : List (Bytes × Bytes) :=
  (text.splitOn Byte.ampersand).map fun piece =>
    (piece.takeWhile (· != Byte.equal), (piece.dropWhile (· != Byte.equal)).tail)

def canonicalPair (pair : Bytes × Bytes) : Bytes × Bytes :=
  (canonicalBy isUnreserved pair.1, canonicalBy isUnreserved pair.2)

def PairLe (left right : Bytes × Bytes) : Prop :=
  left.1 < right.1 ∨ left.1 = right.1 ∧ left.2 ≤ right.2

/-- The canonical pairs of a query, sorted; `none` stands for no query. -/
def IsCanonicalQuery (query : Option Bytes) (text : Bytes) : Prop :=
  match query with
  | none => text = []
  | some written => ∃ pairs, pairs.Perm ((readPairs written).map canonicalPair) ∧
      pairs.Pairwise PairLe ∧ text = joinPairs pairs

/-- A pair as `query_stringify` writes it. -/
def writtenPair (query : Query) : Bytes × Bytes :=
  (urlencodel (cstring query.key), urlencodel (cstring query.value))

/-- The separators are no part of the texts. -/
def ClearPair (pair : Bytes × Bytes) : Prop :=
  Byte.ampersand ∉ pair.1 ∧ Byte.equal ∉ pair.1 ∧ Byte.ampersand ∉ pair.2

section Pairs

variable {pairs : List (Bytes × Bytes)}

theorem queryStringifyLoop_eq (queries : List Query) :
    queryStringifyLoop queries = joinPairs (queries.map writtenPair) := by
  fun_induction queryStringifyLoop queries with
  | case1 => rfl
  | case2 query => rfl
  | case3 query next rest ih =>
    rw [ih]
    rfl

private theorem readPair_eq {pair : Bytes × Bytes} (clear : ClearPair pair) :
    ((pair.1 ++ Byte.equal :: pair.2).takeWhile (· != Byte.equal),
      ((pair.1 ++ Byte.equal :: pair.2).dropWhile (· != Byte.equal)).tail) =
      pair := by
  have isName : ∀ byte ∈ pair.1, (byte != Byte.equal) = true := by
    intro byte isIn
    rw [bne_iff_ne]
    exact ne_of_mem_of_not_mem isIn clear.2.1
  rw [List.takeWhile_append_of_pos isName, List.dropWhile_append_of_pos isName,
    List.takeWhile_cons_of_neg (by decide),
    List.dropWhile_cons_of_neg (by decide), List.append_nil, List.tail_cons]

private theorem ampersand_notMem {pair : Bytes × Bytes} (clear : ClearPair pair) :
    Byte.ampersand ∉ pair.1 ++ Byte.equal :: pair.2 := by
  rw [List.mem_append, List.mem_cons, not_or, not_or]
  exact ⟨clear.1, by decide, clear.2.2⟩

theorem readPairs_joinPairs (nonempty : pairs ≠ []) (clear : ∀ pair ∈ pairs, ClearPair pair) :
    readPairs (joinPairs pairs) = pairs := by
  induction pairs with
  | nil => exact absurd rfl nonempty
  | cons pair rest ih =>
    rw [List.forall_mem_cons] at clear
    cases rest with
    | nil =>
      rw [joinPairs, readPairs, splitOn_plain (ampersand_notMem clear.1),
        List.map_singleton, readPair_eq clear.1]
    | cons next rest =>
      rw [joinPairs, readPairs, splitOn_append_ampersand (ampersand_notMem clear.1),
        List.map_cons, readPair_eq clear.1]
      exact congrArg (List.cons pair) (ih (List.cons_ne_nil next rest)
        clear.2)

/-- The bytes of an encoded text. -/
theorem encodedByte_clear : ∀ byte : UInt8,
    ∀ letter ∈ if isUnreserved byte then [byte] else escape byte,
      letter ≠ Byte.ampersand ∧ letter ≠ Byte.equal ∧ letter ≠ Byte.lf := by
  intro byte
  apply forall_mem_of_all
  revert byte
  exact forall_byte (by decide +kernel)

private theorem canonicalPair_clear (pair : Bytes × Bytes) : ClearPair (canonicalPair pair) := by
  have clear : ∀ text : Bytes, ∀ letter ∈ canonicalBy isUnreserved text,
      letter ≠ Byte.ampersand ∧ letter ≠ Byte.equal ∧ letter ≠ Byte.lf := by
    intro text letter isIn
    obtain ⟨byte, -, isLetter⟩ := List.mem_flatMap.mp isIn
    exact encodedByte_clear byte letter isLetter
  exact ⟨fun isIn => (clear _ _ isIn).1 rfl,
    fun isIn => (clear _ _ isIn).2.1 rfl, fun isIn => (clear _ _ isIn).1 rfl⟩

private theorem writtenPair_clear (query : Query) : ClearPair (writtenPair query) :=
  ⟨fun isIn => (urlencodel_free _ _ isIn).2.2.1 rfl,
    fun isIn => (urlencodel_free _ _ isIn).2.2.2.1 rfl,
    fun isIn => (urlencodel_free _ _ isIn).2.2.1 rfl⟩

private theorem canonicalPair_idem (pair : Bytes × Bytes) :
    canonicalPair (canonicalPair pair) = canonicalPair pair := by
  have idem : ∀ text, canonicalBy isUnreserved (canonicalBy isUnreserved text) =
      canonicalBy isUnreserved text := fun text =>
    canonicalBy_eq_self (isEncoded_encodeBy (by decide) _)
  exact Prod.ext (idem pair.1) (idem pair.2)

/-- Only a space is not written as it is signed. -/
theorem isEncoded_urlencodel (text : Bytes) :
    isEncoded isUnreserved (urlencodel text) = true ↔ Byte.space ∉ text := by
  induction text with
  | nil => exact iff_of_true rfl List.not_mem_nil
  | cons byte text ih =>
    rw [urlencodel_cons, urlencodeByte, List.mem_cons, not_or]
    cases isPlain : isUnreserved byte with
    | true =>
      have notPercent := ((urlencodeByte_facts byte).1 isPlain).1
      have notSpace : Byte.space ≠ byte := by
        rintro rfl
        cases isPlain
      rw [if_pos rfl, List.singleton_append, isEncoded_cons notPercent,
        isPlain, Bool.true_and, ih, and_iff_right notSpace]
    | false =>
      rw [if_neg Bool.false_ne_true]
      by_cases isSpace : byte = Byte.space
      · rw [if_pos isSpace, List.singleton_append, isEncoded_cons (by decide), Bool.and_eq_true]
        exact iff_of_false (fun both => absurd both.1 (by decide)) (fun both => both.1 isSpace.symm)
      · rw [if_neg isSpace]
        refine (iff_of_eq (congrArg (· = true) (isEncoded_escape_append isPlain))).trans ?_
        rw [ih, and_iff_right (Ne.symm isSpace)]

private theorem canonicalPair_writtenPair_iff (query : Query) :
    canonicalPair (writtenPair query) = writtenPair query ↔
      Byte.space ∉ cstring query.key ∧ Byte.space ∉ cstring query.value := by
  rw [← isEncoded_urlencodel, ← isEncoded_urlencodel,
    ← canonicalBy_eq_iff (by decide), ← canonicalBy_eq_iff (by decide)]
  exact Prod.ext_iff

/-- A query as it is written is signed exactly when no text has a space and
the pairs are sorted. -/
theorem isCanonicalQuery_iff {queries : List Query} (nonempty : queries ≠ []) :
    IsCanonicalQuery (some (queryStringifyLoop queries)) (queryStringifyLoop queries) ↔
      (∀ query ∈ queries, Byte.space ∉ cstring query.key ∧ Byte.space ∉ cstring query.value) ∧
      (queries.map writtenPair).Pairwise PairLe := by
  have isRead : readPairs (queryStringifyLoop queries) =
      queries.map writtenPair := by
    rw [queryStringifyLoop_eq]
    refine readPairs_joinPairs (by simpa using nonempty) ?_
    exact List.forall_mem_map.mpr fun query _ => writtenPair_clear query
  rw [IsCanonicalQuery, isRead]
  constructor
  · intro sorted
    obtain ⟨pairs, isPerm, isSorted, same⟩ := sorted
    have areCanonical : ∀ pair ∈ pairs, canonicalPair pair = pair ∧
        ClearPair pair := by
      intro pair isIn
      obtain ⟨other, -, rfl⟩ := List.mem_map.mp (isPerm.mem_iff.mp isIn)
      exact ⟨canonicalPair_idem other, canonicalPair_clear other⟩
    have samePairs : pairs = queries.map writtenPair := by
      rw [← isRead, same]
      refine (readPairs_joinPairs ?_ fun pair isIn =>
        (areCanonical pair isIn).2).symm
      rintro rfl
      have noPairs := isPerm.nil_eq
      simp only [List.nil_eq, List.map_eq_nil_iff] at noPairs
      exact nonempty noPairs
    rw [samePairs] at isSorted areCanonical
    refine ⟨fun query isIn => ?_, isSorted⟩
    exact (canonicalPair_writtenPair_iff query).mp (areCanonical _ (List.mem_map_of_mem isIn)).1
  · intro both
    obtain ⟨noSpace, isSorted⟩ := both
    refine ⟨queries.map writtenPair, ?_, isSorted, queryStringifyLoop_eq queries⟩
    rw [List.map_map]
    refine List.Perm.of_eq (List.map_congr_left fun query isIn => ?_)
    exact ((canonicalPair_writtenPair_iff query).mpr (noSpace query isIn)).symm

end Pairs

end CWebFramework.HttpClient
