import CWebFramework.Http.FormData
import Mathlib.Data.FinEnum

/-!
# Quoted parameters of a header value

What `formdataparser_parse` makes of a header value whose parameters are
written in quotes.  A name that ends with a star is taken for that of an
extended parameter, and a name may consist of letters, hyphens and stars only.
-/

namespace CWebFramework.Http

open FormdataParser

/-! ## Header values -/

def quotedText : Bytes → Bytes
  | [] => []
  | byte :: rest =>
    if byte = Byte.quote ∨ byte = Byte.backslash then
      Byte.backslash :: byte :: quotedText rest
    else byte :: quotedText rest

def parameterText (field : PayloadField) : Bytes :=
  Byte.semicolon :: Byte.space :: field.key ++
    Byte.equal :: Byte.quote :: quotedText field.value ++ [Byte.quote]

def dispositionText (dispositionType : Bytes) (fields : List PayloadField) :
    Bytes :=
  dispositionType ++ fields.flatMap parameterText

structure PlainName (name : Bytes) : Prop where
  nonempty : name ≠ []
  letters : ∀ byte ∈ name, isFormdataKey byte = true
  noStar : name.getLast? ≠ some Byte.star

/-! ## One parameter -/

def between (stage : FormdataStage) (fields : List PayloadField) :
    FormdataParser :=
  { formdataparserInit with stage := stage, fields := fields }

def IsBetween (stage : FormdataStage) : Prop := stage = .semicolon ∨ stage = .afterValue

variable {stage : FormdataStage} {fields : List PayloadField}
  {field : PayloadField} {name value buffer rest : Bytes}

private theorem byte_separator (isBetween : IsBetween stage) (rest : Bytes) :
    (Byte.semicolon :: Byte.space :: rest).foldlM FormdataParser.byte (between stage fields) =
      rest.foldlM FormdataParser.byte (between .skip fields) := by
  cases isBetween with
  | inl semicolon =>
    rw [semicolon]
    rfl
  | inr afterValue =>
    rw [afterValue]
    rfl

def inName (fields : List PayloadField) (buffer : Bytes) : FormdataParser :=
  { between .key fields with buffer := buffer }

def inQuotes (fields : List PayloadField) (buffer : Bytes) : FormdataParser :=
  { between .value fields with quote := true, buffer := buffer }

theorem ne_of_class {kind : UInt8 → Bool} {byte other : UInt8}
    (isIn : kind byte = true) (notIn : kind other = false) : byte ≠ other := by
  intro same
  rw [same, notIn] at isIn
  cases isIn

/-- A character of a token does not end a name. -/
theorem keyByte_token {byte : UInt8} (isToken : isTokenByte byte = true) (parser : FormdataParser) :
    parser.keyByte byte =
      if isFormdataKey byte then .ok (parser.push byte)
      else parser.fail "formdataparser: get invalid character in key" := by
  have noEqual : byte ≠ Byte.equal := ne_of_class isToken (by decide)
  have noSemicolon : byte ≠ Byte.semicolon := ne_of_class isToken (by decide)
  have noSpace : byte ≠ Byte.space := ne_of_class isToken (by decide)
  simp [FormdataParser.keyByte, noEqual, noSemicolon, noSpace]

/-- A name, up to the quotes. -/
theorem byte_name (isToken : ∀ byte ∈ name, isTokenByte byte = true) (given : buffer ≠ []) :
    (name ++ Byte.equal :: Byte.quote :: rest).foldlM FormdataParser.byte (inName fields buffer) =
      if ∀ byte ∈ name, isFormdataKey byte = true then
        rest.foldlM FormdataParser.byte
          (inQuotes (fields ++ [{ key := buffer ++ name, value := [] }]) [])
      else
        (inName fields (buffer ++ name.takeWhile isFormdataKey)).fail
          "formdataparser: get invalid character in key" := by
  induction name generalizing buffer with
  | nil =>
    have saved : (inName fields buffer).byte Byte.equal =
        .ok (between .value (fields ++ [{ key := buffer, value := [] }])) :=
      if_neg given
    rw [List.nil_append, List.foldlM_cons, saved, if_pos fun _ => (nomatch ·), List.append_nil]
    rfl
  | cons byte name ih =>
    have first : (inName fields buffer).byte byte = (inName fields buffer).keyByte byte := rfl
    rw [List.cons_append, List.foldlM_cons, first, keyByte_token (isToken byte List.mem_cons_self)]
    cases isLetter : isFormdataKey byte with
    | false =>
      rw [List.takeWhile_cons_of_neg (by simp [isLetter]),
        List.append_nil, if_neg Bool.false_ne_true, if_neg]
      · rfl
      · intro letters
        rw [letters byte List.mem_cons_self] at isLetter
        cases isLetter
    | true =>
      have behind := @ih (buffer ++ [byte])
        (fun other member => isToken other (List.mem_cons_of_mem _ member))
        (by simp)
      rw [List.takeWhile_cons_of_pos isLetter]
      simp only [List.append_assoc, List.cons_append, List.nil_append] at behind
      simp only [List.forall_mem_cons, isLetter, true_and]
      exact behind

/-- The first character of a name. -/
theorem byte_firstName {byte : UInt8} (isToken : isTokenByte byte = true) :
    (between .skip fields).byte byte =
      if isFormdataKey byte then .ok (inName fields [byte])
      else (between .skip fields).fail "formdataparser: get invalid character after semicolon" := by
  have noSpace : byte ≠ Byte.space := ne_of_class isToken (by decide)
  exact if_neg noSpace

theorem foldlM_byte {parser next : FormdataParser} {byte : UInt8}
    (taken : parser.byte byte = .ok next) (rest : Bytes) :
    (byte :: rest).foldlM FormdataParser.byte parser = rest.foldlM FormdataParser.byte next := by
  rw [List.foldlM_cons, taken]
  rfl

theorem byte_quotedText (fields : List PayloadField) (buffer : Bytes) :
    (quotedText value ++ rest).foldlM FormdataParser.byte (inQuotes fields buffer) =
      rest.foldlM FormdataParser.byte (inQuotes fields (buffer ++ value)) := by
  induction value generalizing buffer with
  | nil => rw [quotedText, List.nil_append, List.append_nil]
  | cons byte value ih =>
    have behind := ih (buffer ++ [byte])
    rw [List.append_assoc, List.singleton_append] at behind
    rw [← behind, quotedText]
    split_ifs with special
    · have opened : (inQuotes fields buffer).byte Byte.backslash =
          .ok { inQuotes fields buffer with escaped := true } := rfl
      have taken : FormdataParser.byte
          { inQuotes fields buffer with escaped := true } byte =
            .ok (inQuotes fields (buffer ++ [byte])) := if_pos special
      rw [List.cons_append, List.cons_append, foldlM_byte opened, foldlM_byte taken]
    · have noQuote : byte ≠ Byte.quote := fun same => special (Or.inl same)
      have noBackslash : byte ≠ Byte.backslash := fun same => special (Or.inr same)
      have taken : (inQuotes fields buffer).byte byte = .ok (inQuotes fields (buffer ++ [byte])) :=
        (if_neg noBackslash).trans (if_neg noQuote)
      rw [List.cons_append, foldlM_byte taken]

/-- The value that the parser saves. -/
def savedValue (name value : Bytes) : Option Bytes :=
  if name.getLast? = some Byte.star then
    if extendedValue value = [] then none
    else
      let decoded := formdataparserPercentDecode (extendedValue value)
      if decoded.2 then some decoded.1 else none
  else some value

/-- The closing quote. -/
theorem byte_closing (fields : List PayloadField) (name value : Bytes) :
    match savedValue name value with
    | some saved =>
      (inQuotes (fields ++ [{ key := name, value := [] }]) value).byte Byte.quote =
        .ok (between .afterValue (fields ++ [{ key := name, value := saved }]))
    | none =>
      ∃ failed, (inQuotes (fields ++ [{ key := name, value := [] }]) value).byte
          Byte.quote = .error failed := by
  have isByte : ∀ parser : FormdataParser, parser.stage = .value →
      parser.quote = true → parser.escaped = false →
      parser.byte Byte.quote = (do
        let parser ← parser.saveValue
        return { parser with stage := .afterValue, quote := false }) := by
    intro parser isValue isQuoted notEscaped
    simp only [FormdataParser.byte, isValue, isQuoted, if_true, quotedByte, notEscaped]
    rfl
  rw [isByte _ rfl rfl rfl]
  simp only [savedValue, saveValue, inQuotes, between, List.getLast?_concat,
    withValue, List.dropLast_concat]
  by_cases isStar : name.getLast? = some Byte.star
  · by_cases missing : extendedValue value = []
    · simp only [isStar, missing, if_true]
      exact ⟨_, rfl⟩
    · cases isAll : (formdataparserPercentDecode (extendedValue value)).2 with
      | true =>
        simp only [isStar, missing, if_true, if_false]
        rfl
      | false =>
        simp only [isStar, missing, if_true, if_false, Bool.false_eq_true]
        exact ⟨_, rfl⟩
  · simp only [isStar, if_false]
    rfl

def readField (field : PayloadField) : Option PayloadField :=
  if field.key ≠ [] ∧ ∀ byte ∈ field.key, isFormdataKey byte = true then
    (savedValue field.key field.value).map fun value =>
      { field with value := value }
  else none

theorem byte_parameter (isBetween : IsBetween stage)
    (isToken : ∀ byte ∈ field.key, isTokenByte byte = true) (rest : Bytes) :
    match readField field with
    | some saved =>
      (parameterText field ++ rest).foldlM FormdataParser.byte (between stage fields) =
        rest.foldlM FormdataParser.byte (between .afterValue (fields ++ [saved]))
    | none =>
      ∃ failed, (parameterText field ++ rest).foldlM FormdataParser.byte
        (between stage fields) = .error failed := by
  obtain ⟨key, value⟩ := field
  simp only [parameterText, List.cons_append, byte_separator isBetween, List.append_assoc]
  cases key with
  | nil => exact ⟨_, rfl⟩
  | cons byte name =>
    have firstToken := isToken byte List.mem_cons_self
    have nameToken := fun other member =>
      isToken other (List.mem_cons_of_mem byte member)
    have first := @byte_firstName fields byte firstToken
    by_cases letters : ∀ other ∈ byte :: name, isFormdataKey other = true
    · obtain ⟨isFirst, isName⟩ := List.forall_mem_cons.mp letters
      rw [if_pos isFirst] at first
      rw [List.cons_append, foldlM_byte first,
        byte_name nameToken (List.cons_ne_nil _ _), if_pos isName,
        byte_quotedText, List.nil_append, List.singleton_append]
      have closing := byte_closing fields (byte :: name) value
      rw [readField, if_pos ⟨List.cons_ne_nil _ _, letters⟩]
      cases saved : savedValue (byte :: name) value with
      | some result =>
        rw [saved] at closing
        exact foldlM_byte closing rest
      | none =>
        rw [saved] at closing
        obtain ⟨failed, isFailed⟩ := closing
        refine ⟨failed, ?_⟩
        rw [List.foldlM_cons]
        exact congrArg (· >>= _) isFailed
    · rw [readField, if_neg fun both => letters both.2]
      cases isFirst : isFormdataKey byte with
      | false =>
        rw [isFirst, if_neg Bool.false_ne_true] at first
        rw [List.cons_append, List.foldlM_cons, first]
        exact ⟨_, rfl⟩
      | true =>
        have noName : ¬∀ other ∈ name, isFormdataKey other = true := by
          intro isName
          exact letters (List.forall_mem_cons.mpr ⟨isFirst, isName⟩)
        rw [isFirst, if_pos rfl] at first
        rw [List.cons_append, foldlM_byte first,
          byte_name nameToken (List.cons_ne_nil _ _), if_neg noName]
        exact ⟨_, rfl⟩

/-! ## All parameters -/

theorem byte_parameters {given : List PayloadField} (isBetween : IsBetween stage)
    (tokens : ∀ field ∈ given, ∀ byte ∈ field.key, isTokenByte byte = true) :
    match given.mapM readField with
    | some saved =>
      ∃ after, IsBetween after ∧ (given.flatMap parameterText).foldlM FormdataParser.byte
          (between stage fields) = .ok (between after (fields ++ saved))
    | none =>
      ∃ failed, (given.flatMap parameterText).foldlM FormdataParser.byte
        (between stage fields) = .error failed := by
  induction given generalizing stage fields with
  | nil =>
    refine ⟨stage, isBetween, ?_⟩
    rw [List.reverse_nil, List.append_nil]
    rfl
  | cons field given ih =>
    obtain ⟨isToken, others⟩ := List.forall_mem_cons.mp tokens
    have first := @byte_parameter stage fields field isBetween isToken (given.flatMap parameterText)
    rw [List.mapM_cons, List.flatMap_cons]
    cases isRead : readField field with
    | none =>
      rw [isRead] at first
      exact first
    | some saved =>
      rw [isRead] at first
      have behind := @ih .afterValue (fields ++ [saved]) (Or.inr rfl) others
      cases areRead : given.mapM readField with
      | none =>
        rw [areRead] at behind
        obtain ⟨failed, isFailed⟩ := behind
        exact ⟨failed, first.trans isFailed⟩
      | some rest =>
        rw [areRead] at behind
        obtain ⟨after, isAfter, isRest⟩ := behind
        rw [List.append_assoc, List.singleton_append] at isRest
        exact ⟨after, isAfter, first.trans isRest⟩

private theorem finish_between {after : FormdataStage} (isAfter : IsBetween after) :
    (between after fields).finish = .ok (between after fields) := by
  cases isAfter with
  | inl semicolon =>
    rw [semicolon]
    rfl
  | inr afterValue =>
    rw [afterValue]
    rfl

private theorem mapM_eq_self_iff {α : Type} {read : α → Option α} {items : List α} :
    items.mapM read = some items ↔ ∀ item ∈ items, read item = some item := by
  induction items with
  | nil => simp
  | cons item items ih =>
    rw [List.forall_mem_cons, ← ih, List.mapM_cons]
    cases read item <;> cases items.mapM read <;> simp

private theorem length_tail_dropWhile (bytes : Bytes) :
    ((bytes.dropWhile (· != Byte.apostrophe)).tail).length ≤ bytes.length - 1 := by
  have shorter := (List.dropWhile_suffix (l := bytes) (· != Byte.apostrophe)).length_le
  rw [List.length_tail]
  exact Nat.sub_le_sub_right shorter 1

private theorem length_percentDecode_le (bytes : Bytes) :
    (formdataparserPercentDecode bytes).1.length ≤ bytes.length := by
  fun_induction formdataparserPercentDecode bytes <;> simp_all
  omega

/-- The value of an extended parameter is shorter than its text. -/
theorem savedValue_eq_self_iff :
    savedValue name value = some value ↔ name.getLast? ≠ some Byte.star := by
  rw [savedValue]
  by_cases isStar : name.getLast? = some Byte.star
  · rw [if_pos isStar]
    refine ⟨fun saved => ?_, fun noStar => absurd isStar noStar⟩
    split_ifs at saved with missing
    dsimp only at saved
    split_ifs at saved
    have same := congrArg List.length (Option.some.inj saved)
    have decoded := length_percentDecode_le (extendedValue value)
    have positive := List.length_pos_of_ne_nil missing
    have second := length_tail_dropWhile (value.dropWhile (· != Byte.apostrophe)).tail
    have first := length_tail_dropWhile value
    have isExtended : (extendedValue value).length ≤ value.length - 1 - 1 :=
      second.trans (Nat.sub_le_sub_right first 1)
    omega
  · rw [if_neg isStar]
    exact ⟨fun _ => isStar, fun _ => rfl⟩

private theorem readField_eq_self_iff : readField field = some field ↔ PlainName field.key := by
  rw [readField]
  split_ifs with readable
  · refine ⟨fun saved => ?_, fun plain => ?_⟩
    · have isSaved : savedValue field.key field.value = some field.value := by
        obtain ⟨value, isValue, same⟩ := Option.map_eq_some_iff.mp saved
        rw [isValue, ← same]
      exact ⟨readable.1, readable.2, savedValue_eq_self_iff.mp isSaved⟩
    · rw [savedValue_eq_self_iff.mpr plain.noStar]
      rfl
  · refine ⟨nofun, fun plain => ?_⟩
    exact absurd ⟨plain.nonempty, plain.letters⟩ readable

theorem formdataparserParse_dispositionText (dispositionType : Bytes) (fields : List PayloadField)
    (nonempty : dispositionText dispositionType fields ≠ [])
    (fits : (dispositionText dispositionType fields).length ≤ formdatabufsiz) :
    formdataparserParse dispositionType (dispositionText dispositionType fields) = (do
      let parser ← (fields.flatMap parameterText).foldlM FormdataParser.byte formdataparserInit
      parser.finish) := by
  have starts : (dispositionText dispositionType fields).take dispositionType.length =
        dispositionType.take (dispositionText dispositionType fields).length := by
    rw [dispositionText, List.take_left, List.take_of_length_le]
    rw [List.length_append]
    exact Nat.le_add_right _ _
  rw [formdataparserParse, if_neg nonempty, if_neg (Nat.not_lt.mpr fits),
    if_neg (not_not.mpr starts), dispositionText, List.drop_left]

/-- The parser returns the parameters that are written in quotes if and only
if their names are plain and the text fits into the buffer. -/
theorem formdataparser_dispositionText {fields : List PayloadField} (dispositionType : Bytes)
    (tokens : ∀ field ∈ fields, ∀ byte ∈ field.key, isTokenByte byte = true) :
    (∃ parser, formdataparserParse dispositionType
          (dispositionText dispositionType fields) = .ok parser ∧
        parser.fields = fields) ↔
      dispositionText dispositionType fields ≠ [] ∧
        (dispositionText dispositionType fields).length ≤ formdatabufsiz ∧
        ∀ field ∈ fields, PlainName field.key := by
  by_cases empty : dispositionText dispositionType fields = []
  · refine ⟨?_, fun both => absurd empty both.1⟩
    rintro ⟨parser, parsed, _⟩
    rw [formdataparserParse, if_pos empty] at parsed
    cases parsed
  by_cases fits : (dispositionText dispositionType fields).length ≤ formdatabufsiz
  · have read := @byte_parameters .semicolon [] fields (Or.inl rfl) tokens
    simp only [empty, fits, ne_eq, not_false_eq_true, true_and,
      formdataparserParse_dispositionText dispositionType fields empty fits,
      ← readField_eq_self_iff, ← mapM_eq_self_iff]
    cases saved : fields.mapM readField with
    | none =>
      rw [saved] at read
      obtain ⟨failed, isFailed⟩ := read
      refine ⟨?_, nofun⟩
      rintro ⟨parser, parsed, _⟩
      cases (congrArg (· >>= finish) isFailed).symm.trans parsed
    | some result =>
      rw [saved] at read
      obtain ⟨after, isAfter, isResult⟩ := read
      have parsed := (congrArg (· >>= finish) isResult).trans (finish_between isAfter)
      refine ⟨?_, fun same => ?_⟩
      · rintro ⟨parser, isParser, areFields⟩
        cases parsed.symm.trans isParser
        exact congrArg some areFields
      · exact ⟨_, parsed, Option.some.inj same⟩
  · refine ⟨?_, fun both => absurd both.2.1 fits⟩
    rintro ⟨parser, parsed, _⟩
    rw [formdataparserParse, if_neg empty, if_pos (Nat.not_le.mp fits)] at parsed
    cases parsed

theorem formdataparser_dispositionText_name : ∃ parser, formdataparserParse (ascii "form-data")
          (ascii "form-data; name=\"a\\\"b\"") = .ok parser ∧
        parser.fields = [{ key := ascii "name", value := ascii "a\"b" }] := by
  refine (@formdataparser_dispositionText
    [{ key := ascii "name", value := ascii "a\"b" }] (ascii "form-data")
    fun field member => ?_).mpr ⟨by decide, by decide, fun field member => ?_⟩
  · rw [List.mem_singleton.mp member]
    exact forall_mem_of_all (by decide)
  rw [List.mem_singleton.mp member]
  exact ⟨by decide, forall_mem_of_all (by decide), by decide⟩

/-- A digit in a name. -/
theorem formdataparser_digit_name : (∀ byte ∈ ascii "size2", isTokenByte byte = true) ∧
      ∀ parser, formdataparserParse (ascii "form-data") (dispositionText (ascii "form-data")
          [{ key := ascii "size2", value := ascii "1" }]) ≠ .ok parser := by
  refine ⟨forall_mem_of_all (by decide), fun parser parsed => ?_⟩
  have failed : (formdataparserParse (ascii "form-data") (dispositionText (ascii "form-data")
        [{ key := ascii "size2", value := ascii "1" }])).isOk = false := by
    decide
  rw [parsed] at failed
  cases failed

end CWebFramework.Http
