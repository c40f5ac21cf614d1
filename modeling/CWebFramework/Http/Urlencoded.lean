import CWebFramework.Misc.UrlCoding

/-!
# The urlencoded payload

`urlencodedparser.c` with its driver `httprequest_payload_parse_urlencoded`.

The parser is given the payload block by block.  It keeps the place of the part
in progress and reads the part from the payload file when it is complete, so what
it finds does not depend on the blocks: it is given by `urlencodedFields`.
-/

namespace CWebFramework.Http

structure PayloadField where
  key : Bytes
  value : Bytes
  deriving DecidableEq, Repr

/-! ## The parser -/

def urlencodedparserMaxParts : Nat := 256

/-- `urlencodedparser_t` without the payload file. A field that was added has an
empty value until it is set. A parser that has failed is cleared, so the mark of
a failed one is not kept. -/
structure UrlencodedParser where
  payloadSize : Nat
  payloadOffset : Nat
  offset : Nat
  size : Nat
  fields : List PayloadField
  findAmp : Bool
  deriving DecidableEq, Repr

def urlencodedparserInit (payloadSize : Nat) : UrlencodedParser where
  payloadSize := payloadSize
  payloadOffset := 0
  offset := 0
  size := 0
  fields := []
  findAmp := true

def tooManyFields : String := "urlencoded parser: maximum number of fields exceeded"

section Parser

variable (payload : Bytes)

/-- `__urlencodedparser_set_field`: the decoded part in progress. -/
def UrlencodedParser.part (parser : UrlencodedParser) : Bytes :=
  urldecodel ((payload.drop parser.offset).take parser.size)

/-- `__urlencodedparser_add_field` with `__urlencodedparser_set_field_key`. -/
def urlencodedparserAddField (parser : UrlencodedParser) : Except String UrlencodedParser :=
  if urlencodedparserMaxParts ≤ parser.fields.length then
    .error tooManyFields
  else
    .ok { parser with
      fields := parser.fields ++ [{ key := parser.part payload, value := [] }]
      offset := parser.payloadOffset + 1
      size := 0 }

def urlencodedparserSetFieldValue (parser : UrlencodedParser) : List PayloadField :=
  match parser.fields.getLast? with
  | some last =>
    parser.fields.dropLast ++ [{ last with value := parser.part payload }]
  | none => []

/-- `__urlencodedparser_flush`. A field that is added here keeps its empty
value. -/
def urlencodedparserFlush (parser : UrlencodedParser) : Except String UrlencodedParser :=
  if parser.findAmp then
    if parser.size = 0 then
      .ok { parser with offset := parser.payloadOffset + 1, size := 0 }
    else urlencodedparserAddField payload parser
  else
    .ok { parser with
      fields := urlencodedparserSetFieldValue payload parser
      offset := parser.payloadOffset + 1
      size := 0
      findAmp := true }

/-- The body of the loop of `urlencodedparser_parse`, but for the step to the
next byte. -/
def urlencodedparserByte (parser : UrlencodedParser) (byte : UInt8) :
    Except String UrlencodedParser :=
  if byte = Byte.equal then
    if parser.findAmp then
      urlencodedparserAddField payload { parser with findAmp := false }
    else .ok { parser with size := parser.size + 1 }
  else if byte = Byte.ampersand then urlencodedparserFlush payload parser
  else .ok { parser with size := parser.size + 1 }

def urlencodedparserLoop : Bytes → UrlencodedParser → Except String UrlencodedParser
  | [], parser => .ok parser
  | byte :: buffer, parser =>
    if parser.payloadOffset < parser.payloadSize then do
      let parser ← urlencodedparserByte payload parser byte
      urlencodedparserLoop buffer
        { parser with payloadOffset := parser.payloadOffset + 1 }
    else .ok parser

def urlencodedparserParse (parser : UrlencodedParser) (buffer : Bytes) :
    Except String UrlencodedParser := do
  let parser ← urlencodedparserLoop payload buffer parser
  if parser.payloadSize ≤ parser.payloadOffset then
    urlencodedparserFlush payload parser
  else .ok parser

/-- The loop of `httprequest_payload_parse_urlencoded` over the blocks that
`pread` gives. -/
def urlencodedReads : List Bytes → UrlencodedParser → Except String UrlencodedParser
  | [], parser => .ok parser
  | block :: blocks, parser => do
      let parser ← urlencodedparserParse payload parser block
      urlencodedReads blocks parser

end Parser

/-- `httprequest_payload_parse_urlencoded`, for a payload file that is read in
the given blocks. -/
def httprequestPayloadParseUrlencoded (blocks : List Bytes) :
    Except String (List PayloadField) := do
  let parser ← urlencodedReads blocks.flatten blocks (urlencodedparserInit blocks.flatten.length)
  return parser.fields

/-! ## What the parser finds -/

/-- The field of a part between two `&`. -/
def urlencodedField (part : Bytes) : Option PayloadField :=
  if Byte.equal ∈ part then
    some {
      key := urldecodel (part.takeWhile (· != Byte.equal))
      value := urldecodel (part.dropWhile (· != Byte.equal)).tail }
  else if part = [] then none
  else some { key := urldecodel part, value := [] }

def urlencodedFields (payload : Bytes) : List PayloadField :=
  (payload.splitOn Byte.ampersand).filterMap urlencodedField

theorem urlencodedFields_plain {part : Bytes} (plain : Byte.ampersand ∉ part) :
    urlencodedFields part = (urlencodedField part).toList := by
  have alone : part.splitOn Byte.ampersand = [part] := by
    refine List.splitOnP_eq_singleton fun byte isIn => ?_
    rw [beq_eq_false_iff_ne]
    rintro rfl
    exact plain isIn
  rw [urlencodedFields, alone]
  cases field : urlencodedField part with
  | none => simp [field]
  | some found => simp [field]

theorem urlencodedFields_append (before rest : Bytes) :
    urlencodedFields (before ++ Byte.ampersand :: rest) =
      urlencodedFields before ++ urlencodedFields rest := by
  have split : (before ++ Byte.ampersand :: rest).splitOn Byte.ampersand =
      before.splitOn Byte.ampersand ++ rest.splitOn Byte.ampersand :=
    List.splitOnP_append_cons before rest (by simp)
  rw [urlencodedFields, split, List.filterMap_append]
  rfl

theorem urlencodedField_pair {key : Bytes} (plain : Byte.equal ∉ key) (value : Bytes) :
    urlencodedField (key ++ Byte.equal :: value) =
      some { key := urldecodel key, value := urldecodel value } := by
  have isKey : ∀ byte ∈ key, (byte != Byte.equal) = true := by
    intro byte isIn
    rw [bne_iff_ne]
    rintro rfl
    exact plain isIn
  have front : (key ++ Byte.equal :: value).takeWhile (· != Byte.equal) =
      key := by
    rw [List.takeWhile_append_of_pos isKey, List.takeWhile_cons_of_neg (by simp), List.append_nil]
  have back : (key ++ Byte.equal :: value).dropWhile (· != Byte.equal) = Byte.equal :: value := by
    rw [List.dropWhile_append_of_pos isKey, List.dropWhile_cons_of_neg (by simp)]
  rw [urlencodedField, if_pos (by simp), front, back, List.tail_cons]

/-- A payload with `=` has a field. -/
theorem urlencodedFields_ne_nil {payload : Bytes}
    (isIn : Byte.equal ∈ payload) : urlencodedFields payload ≠ [] := by
  by_cases split : Byte.ampersand ∈ payload
  · obtain ⟨before, rest, whole, plain⟩ := List.eq_append_cons_of_mem split
    rw [whole, urlencodedFields_append, urlencodedFields_plain plain]
    by_cases first : Byte.equal ∈ before
    · rw [urlencodedField, if_pos first]
      simp
    · have later : Byte.equal ∈ rest := by
        rw [whole] at isIn
        simpa [first, show Byte.equal ≠ Byte.ampersand by decide] using isIn
      have shorter : rest.length < payload.length := by
        rw [whole, List.length_append, List.length_cons]
        omega
      exact List.append_ne_nil_of_right_ne_nil _ (urlencodedFields_ne_nil later)
  · rw [urlencodedFields_plain split, urlencodedField, if_pos isIn]
    simp
termination_by payload.length

/-! ## The parser in progress -/

/-- The bytes of a part of which the key and perhaps a part of the value were
read. -/
def partInProgress (key : Bytes) : Option Bytes → Bytes
  | none => key
  | some value => key ++ Byte.equal :: value

def fieldInProgress (key : Bytes) : Option Bytes → List PayloadField
  | none => []
  | some _ => [{ key := urldecodel key, value := [] }]

/-- The parser has read the payload up to `rest`, and will have found the fields
`total` in the end. -/
structure UrlencodedParser.Reading (payload rest : Bytes)
    (total : List PayloadField) (parser : UrlencodedParser)
    (before found : _) (key : Bytes) (value : Option Bytes) : Prop where
  payloadSize : parser.payloadSize = payload.length
  whole : payload = before ++ value.getD key ++ rest
  position : parser.payloadOffset = (before ++ value.getD key).length
  offset : parser.offset = before.length
  size : parser.size = (value.getD key).length
  findAmp : parser.findAmp = value.isNone
  fields : parser.fields = found ++ fieldInProgress key value
  few : parser.fields.length ≤ urlencodedparserMaxParts
  noEqual : Byte.equal ∉ key
  noAmpersand : Byte.ampersand ∉ partInProgress key value
  total : found ++ urlencodedFields (partInProgress key value ++ rest) = total

/-- The parser has read the payload up to `rest`. -/
def UrlencodedParser.Reads (payload rest : Bytes)
    (total : List PayloadField) (parser : UrlencodedParser) : Prop :=
  ∃ before found key value, parser.Reading payload rest total before found key value

section Reading

variable {payload rest : Bytes} {total : List PayloadField}
  {parser : UrlencodedParser} {before : Bytes} {found : List PayloadField}
  {key : Bytes} {value : Option Bytes}

theorem UrlencodedParser.Reading.part_eq
    (reading : parser.Reading payload rest total before found key value) :
    parser.part payload = urldecodel (value.getD key) := by
  rw [UrlencodedParser.part, reading.offset, reading.size, reading.whole,
    List.append_assoc, List.drop_left, List.take_left]

theorem UrlencodedParser.Reading.flush
    (reading : parser.Reading payload rest total before found key value)
    (count : urlencodedparserMaxParts < (found ++
          (urlencodedField (partInProgress key value)).toList).length →
      urlencodedparserMaxParts < total.length) :
    (urlencodedparserFlush payload parser = .error tooManyFields ∧
        urlencodedparserMaxParts < total.length) ∨
      ∃ after, urlencodedparserFlush payload parser = .ok after ∧ after = {
          payloadSize := parser.payloadSize
          payloadOffset := parser.payloadOffset
          offset := parser.payloadOffset + 1
          size := 0
          fields := found ++ (urlencodedField (partInProgress key value)).toList
          findAmp := true } ∧
        after.fields.length ≤ urlencodedparserMaxParts := by
  have part := reading.part_eq
  have few := reading.few
  have fields := reading.fields
  have size := reading.size
  unfold urlencodedparserFlush
  cases value with
  | some text =>
    have findAmp : ¬ parser.findAmp = true := by
      rw [reading.findAmp]
      simp
    have field := urlencodedField_pair reading.noEqual text
    rw [partInProgress, field]
    rw [if_neg findAmp]
    rw [fields, fieldInProgress, List.length_append] at few
    have values : urlencodedparserSetFieldValue payload parser =
        found ++ [{ key := urldecodel key, value := urldecodel text }] := by
      rw [urlencodedparserSetFieldValue, fields, fieldInProgress, part]
      simp
    refine .inr ⟨_, rfl, ?_, ?_⟩
    · rw [values]
      rfl
    · rw [values, List.length_append]
      exact few
  | none =>
    have findAmp : parser.findAmp = true := reading.findAmp
    rw [if_pos findAmp]
    simp only [fieldInProgress, List.append_nil] at fields
    by_cases empty : key = []
    · have nothing : parser.size = 0 := by
        rw [size, empty]
        rfl
      have noField : urlencodedField (partInProgress key none) = none := by
        rw [partInProgress, empty]
        decide
      rw [if_pos nothing, noField]
      refine .inr ⟨_, rfl, ?_, few⟩
      rw [Option.toList_none, List.append_nil, ← fields, ← findAmp]
    · have some : ¬ parser.size = 0 := by
        rw [size]
        exact fun none => empty (List.eq_nil_of_length_eq_zero none)
      have field : urlencodedField (partInProgress key none) =
          .some { key := urldecodel key, value := [] } := by
        rw [partInProgress, urlencodedField, if_neg reading.noEqual, if_neg empty]
      rw [field] at count ⊢
      rw [if_neg some, urlencodedparserAddField, fields]
      by_cases many : urlencodedparserMaxParts ≤ found.length
      · rw [if_pos many]
        refine .inl ⟨rfl, count ?_⟩
        rw [List.length_append]
        exact Nat.lt_succ_of_le many
      · rw [if_neg many]
        refine .inr ⟨_, rfl, ?_, ?_⟩
        · rw [part, ← findAmp]
          rfl
        · rw [List.length_append]
          exact Nat.lt_of_not_le many

theorem UrlencodedParser.Reading.extend {byte : UInt8} (reading :
      parser.Reading payload (byte :: rest) total before found key value)
    (plain : byte ≠ Byte.ampersand)
    (inPart : byte ≠ Byte.equal ∨ value.isSome = true) :
    UrlencodedParser.Reads payload rest total
      { parser with
        size := parser.size + 1
        payloadOffset := parser.payloadOffset + 1 } := by
  obtain ⟨payloadSize, whole, position, offset, size, findAmp, fields, few,
    noEqual, noAmpersand, isTotal⟩ := reading
  cases value with
  | none =>
    have notEqual : byte ≠ Byte.equal := inPart.resolve_right (by simp)
    refine ⟨before, found, key ++ [byte], none, payloadSize, ?_, ?_, offset,
      ?_, findAmp, fields, few, ?_, ?_, ?_⟩
    · simpa using whole
    · simpa [← Nat.add_assoc] using position
    · simpa using size
    · simpa [notEqual.symm] using noEqual
    · simpa [partInProgress, plain.symm] using noAmpersand
    · simpa [partInProgress] using isTotal
  | some text =>
    refine ⟨before, found, key, some (text ++ [byte]), payloadSize, ?_, ?_,
      offset, ?_, findAmp, fields, few, noEqual, ?_, ?_⟩
    · simpa using whole
    · simpa [← Nat.add_assoc] using position
    · simpa using size
    · simpa [partInProgress, plain.symm] using noAmpersand
    · simpa [partInProgress] using isTotal

/-- The `=` behind a key is read. -/
theorem UrlencodedParser.Reading.equal (reading :
      parser.Reading payload (Byte.equal :: rest) total before found key none)
    (few : found.length < urlencodedparserMaxParts) :
    UrlencodedParser.Reads payload rest total
      { payloadSize := parser.payloadSize
        payloadOffset := parser.payloadOffset + 1
        offset := parser.payloadOffset + 1
        size := 0
        fields := parser.fields ++ [{ key := parser.part payload, value := [] }]
        findAmp := false } := by
  have part := reading.part_eq
  obtain ⟨payloadSize, whole, position, offset, size, findAmp, fields, -,
    noEqual, noAmpersand, isTotal⟩ := reading
  simp only [fieldInProgress, List.append_nil] at fields
  refine ⟨before ++ key ++ [Byte.equal], found, key, some [], payloadSize,
    ?_, ?_, ?_, rfl, rfl, ?_, ?_, noEqual, ?_, ?_⟩
  · simpa using whole
  · simpa [← Nat.add_assoc] using position
  · simpa [← Nat.add_assoc] using position
  · simpa [fieldInProgress, fields] using part
  · rw [fields, List.length_append]
    exact few
  · simpa [partInProgress, show Byte.ampersand ≠ Byte.equal by decide] using
      noAmpersand
  · simpa [partInProgress] using isTotal

/-- The parser goes on behind a `&`. -/
theorem UrlencodedParser.Reading.next {after : UrlencodedParser}
    (reading : parser.Reading payload (Byte.ampersand :: rest) total before found key value)
    (flushed : after = {
      payloadSize := parser.payloadSize
      payloadOffset := parser.payloadOffset
      offset := parser.payloadOffset + 1
      size := 0
      fields := found ++ (urlencodedField (partInProgress key value)).toList
      findAmp := true })
    (few : after.fields.length ≤ urlencodedparserMaxParts) :
    UrlencodedParser.Reads payload rest total
      { after with payloadOffset := after.payloadOffset + 1 } := by
  obtain ⟨payloadSize, whole, position, offset, size, findAmp, fields, -,
    noEqual, noAmpersand, isTotal⟩ := reading
  subst flushed
  refine ⟨before ++ value.getD key ++ [Byte.ampersand], _, [], none,
    payloadSize, ?_, ?_, ?_, rfl, rfl, (List.append_nil _).symm, few, ?_, ?_,
    ?_⟩
  · simpa using whole
  · simpa [← Nat.add_assoc] using position
  · simpa [← Nat.add_assoc] using position
  · exact List.not_mem_nil
  · exact List.not_mem_nil
  · rw [urlencodedFields_append, urlencodedFields_plain noAmpersand] at isTotal
    rw [List.append_assoc]
    exact isTotal

end Reading

variable {payload : Bytes} {total : List PayloadField}
  {parser : UrlencodedParser}

theorem urlencodedparserByte_reads {rest : Bytes} {byte : UInt8}
    (reads : parser.Reads payload (byte :: rest) total) :
    (urlencodedparserByte payload parser byte = .error tooManyFields ∧
        urlencodedparserMaxParts < total.length) ∨
      ∃ after, urlencodedparserByte payload parser byte = .ok after ∧
        UrlencodedParser.Reads payload rest total
          { after with payloadOffset := after.payloadOffset + 1 } := by
  obtain ⟨before, found, key, value, reading⟩ := reads
  unfold urlencodedparserByte
  by_cases isEqual : byte = Byte.equal
  · subst isEqual
    rw [if_pos rfl]
    cases value with
    | some text =>
      have findAmp : ¬ parser.findAmp = true := by
        rw [reading.findAmp]
        simp
      rw [if_neg findAmp]
      exact .inr ⟨_, rfl, reading.extend (by decide) (.inr rfl)⟩
    | none =>
      have findAmp : parser.findAmp = true := reading.findAmp
      have fields := reading.fields
      simp only [fieldInProgress, List.append_nil] at fields
      rw [if_pos findAmp, urlencodedparserAddField, fields]
      by_cases many : urlencodedparserMaxParts ≤ found.length
      · rw [if_pos many]
        refine .inl ⟨rfl, ?_⟩
        have isTotal := reading.total
        have isField : Byte.equal ∈ key ++ Byte.equal :: rest := by simp
        have some := urlencodedFields_ne_nil isField
        rw [← isTotal, List.length_append]
        have positive := List.length_pos_of_ne_nil some
        exact Nat.lt_of_le_of_lt many (Nat.lt_add_of_pos_right positive)
      · rw [if_neg many]
        refine .inr ⟨_, rfl, ?_⟩
        have next := reading.equal (Nat.lt_of_not_le many)
        rw [fields] at next
        exact next
  · rw [if_neg isEqual]
    by_cases isAmpersand : byte = Byte.ampersand
    · subst isAmpersand
      rw [if_pos rfl]
      have isTotal := reading.total
      rw [urlencodedFields_append, urlencodedFields_plain reading.noAmpersand] at isTotal
      have count : urlencodedparserMaxParts < (found ++
            (urlencodedField (partInProgress key value)).toList).length →
          urlencodedparserMaxParts < total.length := by
        intro many
        rw [← isTotal, ← List.append_assoc, List.length_append]
        exact Nat.lt_add_right _ many
      rcases reading.flush count with failed | ⟨after, run, flushed, few⟩
      · exact .inl failed
      · exact .inr ⟨after, run, reading.next flushed few⟩
    · rw [if_neg isAmpersand]
      exact .inr ⟨_, rfl, reading.extend isAmpersand (.inl isEqual)⟩

theorem urlencodedparserLoop_reads {later : Bytes} (buffer : Bytes)
    (reads : parser.Reads payload (buffer ++ later) total) :
    (urlencodedparserLoop payload buffer parser = .error tooManyFields ∧
        urlencodedparserMaxParts < total.length) ∨
      ∃ after, urlencodedparserLoop payload buffer parser = .ok after ∧
        after.Reads payload later total := by
  induction buffer generalizing parser with
  | nil => exact .inr ⟨parser, rfl, reads⟩
  | cons byte buffer ih =>
    have inside : parser.payloadOffset < parser.payloadSize := by
      obtain ⟨before, found, key, value, reading⟩ := reads
      rw [reading.payloadSize, reading.position, reading.whole]
      simp
    rcases urlencodedparserByte_reads reads with
      ⟨failed, many⟩ | ⟨after, run, next⟩
    · refine .inl ⟨?_, many⟩
      rw [urlencodedparserLoop, if_pos inside, failed]
      rfl
    · have tail := ih next
      have unfolded : urlencodedparserLoop payload (byte :: buffer) parser =
          urlencodedparserLoop payload buffer
            { after with payloadOffset := after.payloadOffset + 1 } := by
        rw [urlencodedparserLoop, if_pos inside, run]
        rfl
      rw [unfolded]
      exact tail

private theorem urlencodedparserFlush_reads (reads : parser.Reads payload [] total) :
    (urlencodedparserFlush payload parser = .error tooManyFields ∧
        urlencodedparserMaxParts < total.length) ∨
      ∃ after, urlencodedparserFlush payload parser = .ok after ∧
        after.fields = total ∧ total.length ≤ urlencodedparserMaxParts := by
  obtain ⟨before, found, key, value, reading⟩ := reads
  have isTotal := reading.total
  rw [List.append_nil, urlencodedFields_plain reading.noAmpersand] at isTotal
  rcases reading.flush (fun many => isTotal ▸ many) with
    failed | ⟨after, run, flushed, few⟩
  · exact .inl failed
  · have fields : after.fields = total := by
      rw [flushed]
      exact isTotal
    exact .inr ⟨after, run, fields, fields ▸ few⟩

theorem urlencodedReads_reads (blocks : List Bytes) (some : blocks ≠ [])
    (full : ∀ block ∈ blocks, block ≠ [])
    (reads : parser.Reads payload blocks.flatten total) :
    (urlencodedReads payload blocks parser = .error tooManyFields ∧
        urlencodedparserMaxParts < total.length) ∨
      ∃ after, urlencodedReads payload blocks parser = .ok after ∧
        after.fields = total ∧ total.length ≤ urlencodedparserMaxParts := by
  induction blocks generalizing parser with
  | nil => exact absurd rfl some
  | cons block blocks ih =>
    rw [List.flatten_cons] at reads
    have later : ∀ block ∈ blocks, block ≠ [] := fun block isIn =>
      full block (List.mem_cons_of_mem _ isIn)
    unfold urlencodedReads urlencodedparserParse
    rcases urlencodedparserLoop_reads block reads with
      ⟨failed, many⟩ | ⟨after, run, next⟩
    · refine .inl ⟨?_, many⟩
      rw [failed]
      rfl
    · rw [run]
      change ((if after.payloadSize ≤ after.payloadOffset then _ else _ :
        Except String UrlencodedParser) >>= _ = _ ∧ _) ∨
          ∃ _, (if after.payloadSize ≤ after.payloadOffset then _ else _ :
            Except String UrlencodedParser) >>= _ = _ ∧ _
      cases blocks with
      | nil =>
        have atEnd : after.payloadSize ≤ after.payloadOffset := by
          obtain ⟨before, found, key, value, reading⟩ := next
          rw [reading.payloadSize, reading.position, reading.whole]
          simp
        rw [if_pos atEnd]
        rcases urlencodedparserFlush_reads next with
          ⟨failed, many⟩ | ⟨flushed, run, fields, few⟩
        · refine .inl ⟨?_, many⟩
          rw [failed]
          rfl
        · refine .inr ⟨flushed, ?_, fields, few⟩
          rw [run]
          rfl
      | cons first rest =>
        have inside : ¬ after.payloadSize ≤ after.payloadOffset := by
          obtain ⟨before, found, key, value, reading⟩ := next
          have positive := List.length_pos_of_ne_nil (later first (List.mem_cons_self ..))
          rw [reading.payloadSize, reading.position, reading.whole, List.flatten_cons]
          simp only [List.length_append]
          omega
        rw [if_neg inside]
        exact ih (List.cons_ne_nil first rest) later next

private theorem urlencodedparserInit_reads (payload : Bytes) :
    (urlencodedparserInit payload.length).Reads payload payload (urlencodedFields payload) :=
  ⟨[], [], [], none, rfl, rfl, rfl, rfl, rfl, rfl, rfl, Nat.zero_le _,
    List.not_mem_nil, List.not_mem_nil, rfl⟩

/-- However the payload is divided into blocks, its fields are found, if they
are not too many. -/
theorem httprequestPayloadParseUrlencoded_eq (blocks : List Bytes)
    (full : ∀ block ∈ blocks, block ≠ []) :
    httprequestPayloadParseUrlencoded blocks =
      if (urlencodedFields blocks.flatten).length ≤ urlencodedparserMaxParts
      then .ok (urlencodedFields blocks.flatten)
      else .error tooManyFields := by
  unfold httprequestPayloadParseUrlencoded
  by_cases none : blocks = []
  · subst none
    rfl
  · rcases urlencodedReads_reads blocks none full (urlencodedparserInit_reads blocks.flatten) with
        ⟨failed, many⟩ | ⟨after, run, fields, few⟩
    · rw [failed, if_neg (Nat.not_le_of_lt many)]
      rfl
    · rw [run, if_pos few, ← fields]
      rfl

/-- The pair of a piece that is split at its first `=`. -/
def pieceField (piece : Bytes) : PayloadField where
  key := urldecodel (piece.takeWhile (· != Byte.equal))
  value := urldecodel (piece.dropWhile (· != Byte.equal)).tail

private theorem urlencodedField_eq (piece : Bytes) : urlencodedField piece =
      if piece = [] then none else some (pieceField piece) := by
  rw [urlencodedField]
  by_cases isPair : Byte.equal ∈ piece
  · rw [if_pos isPair, if_neg (List.ne_nil_of_mem isPair)]
    rfl
  · have plain : ∀ byte ∈ piece, (byte != Byte.equal) = true := by
      intro byte isIn
      exact bne_iff_ne.mpr fun isEqual => isPair (isEqual ▸ isIn)
    rw [if_neg isPair, pieceField, List.takeWhile_eq_self_iff.mpr plain,
      List.dropWhile_eq_nil_iff.mpr plain]
    rfl

/-- However the payload is divided into chunks, the pairs of its pieces are
returned in order, the empty pieces left out, if they are not too many. -/
theorem urlencodedparser_pairs (blocks : List Bytes) (full : ∀ block ∈ blocks, block ≠ []) :
    httprequestPayloadParseUrlencoded blocks =
      let pieces := (blocks.flatten.splitOn Byte.ampersand).filter (· ≠ [])
      if pieces.length ≤ urlencodedparserMaxParts then
        .ok (pieces.map pieceField)
      else .error tooManyFields := by
  have isMap : urlencodedFields blocks.flatten =
      ((blocks.flatten.splitOn Byte.ampersand).filter (· ≠ [])).map
        pieceField := by
    rw [urlencodedFields, ← List.filterMap_eq_map, List.filterMap_filter]
    apply List.filterMap_congr
    intro piece _
    rw [urlencodedField_eq]
    by_cases isEmpty : piece = []
    · rw [if_pos isEmpty, if_neg (by simpa using isEmpty)]
    · rw [if_neg isEmpty, if_pos (by simpa using isEmpty)]
      rfl
  rw [httprequestPayloadParseUrlencoded_eq blocks full, isMap, List.length_map]

theorem urlencodedparser_pairs_cut : httprequestPayloadParseUrlencoded [ascii "a=", ascii "1&b"] =
      .ok [⟨ascii "a", ascii "1"⟩, ⟨ascii "b", []⟩] :=
  (urlencodedparser_pairs [ascii "a=", ascii "1&b"]
    (forall_mem_of_all (by decide))).trans (by decide)

/-- An empty piece makes no pair. -/
theorem urlencodedparser_empty_piece :
    (ascii "a&&b").splitOn Byte.ampersand = [ascii "a", [], ascii "b"] ∧
      httprequestPayloadParseUrlencoded [ascii "a&&b"] =
        .ok [⟨ascii "a", []⟩, ⟨ascii "b", []⟩] := by
  decide

end CWebFramework.Http
