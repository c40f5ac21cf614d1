import CWebFramework.Http.Redirect
import CWebFramework.Http.RouteTemplate

/-!
# The destination of a redirect

`redirect_create` and `redirect_get_uri`: the parser of a destination notes
where the numbers of capture groups stand, one pass over these places computes
the length of the target and another one writes it.  A read outside of the
vector of `pcre_exec` has no result.
-/

namespace CWebFramework.Http

/-- The local state of `redirect_parse_token`: `start_pos` and the digits that
have been passed. -/
structure RedirectToken where
  start : Nat
  digits : Bytes
  deriving DecidableEq, Repr

/-- The case of `redirect_parse_destination` for a byte. -/
def redirectOpen (pos : Nat) (byte : UInt8) : Option RedirectToken :=
  if byte = Template.openBrace then some { start := pos, digits := [] }
  else none

/-- The loops of `redirect_parse_destination` and, inside of a token, of
`redirect_parse_token` with `redirect_fill_param`. -/
def redirectParse : Nat → Option RedirectToken → Bytes → Option (List RedirectParam)
  | _, _, [] => some []
  | pos, none, byte :: rest =>
    redirectParse (pos + 1) (redirectOpen pos byte) rest
  | pos, some token, byte :: rest =>
    if byte = Template.closeBrace then
      if token.digits = [] then redirectParse (pos + 1) none rest
      else if 2 < token.digits.length then none
      else
        (redirectParse (pos + 1) none rest).map fun params =>
          { number := digitsValue token.digits
            start := token.start
            stop := pos + 1 } :: params
    else if byte = Template.openBrace ∨ isdigit byte = false then
      -- the position goes back, so the outer loop sees this byte again
      redirectParse (pos + 1) (redirectOpen pos byte) rest
    else
      redirectParse (pos + 1) (some { token with digits := token.digits ++ [byte] }) rest

/-- `redirect_create` with `redirect_check_params`. The first argument gives
the number of groups of a pattern that compiles. -/
def redirectCreate (captureCount : Bytes → Option Nat)
    (location destination : Bytes) : Option Redirect :=
  let template := cstring destination
  if template = [] then none
  else
    match redirectParse 0 none template, captureCount location with
    | some params, some count =>
      if count ≠ params.length then none
      else if params.any (fun param => decide (count < param.number)) then
        none
      else
        some { location := location, template := template, param := params }
    | _, _ => none

/-- `strncpy`: the copy is filled up with NUL bytes. -/
def strncpy (source : Bytes) (length : Nat) : Bytes :=
  ((cstring source).take length).rightpad length 0

def redirectParamStringLength (vector : List Int) (number : Nat) :
    Option Nat := do
  let matchStart ← vector[number * 2]?
  let matchEnd ← vector[number * 2 + 1]?
  if matchStart < 0 ∨ matchEnd < matchStart then some 0
  else some (matchEnd - matchStart).toNat

/-- The first loop of `redirect_get_uri` with the text behind the last
parameter. -/
def redirectLength (templateLength : Nat) (vector : List Int) :
    Nat → List RedirectParam → Option Nat
  | startPos, [] => some (templateLength - startPos)
  | startPos, param :: rest => do
      let paramStringLength ← redirectParamStringLength vector param.number
      let behind ← redirectLength templateLength vector param.stop rest
      some (param.start - startPos + (paramStringLength + behind))

/-- The second loop of `redirect_get_uri`: what `redirect_append_uri` writes. -/
def redirectCopy (template string : Bytes) (vector : List Int) :
    Nat → List RedirectParam → Option Bytes
  | startPos, [] =>
    some (strncpy (template.drop startPos) (template.length - startPos))
  | startPos, param :: rest => do
      let paramStringLength ← redirectParamStringLength vector param.number
      let matchStart ← vector[param.number * 2]?
      let behind ← redirectCopy template string vector param.stop rest
      some (strncpy (template.drop startPos) (param.start - startPos) ++
        ((if 0 < paramStringLength then
            strncpy (string.drop matchStart.toNat) paramStringLength
          else []) ++ behind))

/-- The number of bytes that `redirect_get_uri` allocates, without the NUL. -/
def Redirect.uriLength (redirect : Redirect) (vector : List Int) : Option Nat :=
  redirectLength redirect.template.length vector 0 redirect.param

/-- The bytes that `redirect_get_uri` writes, without the NUL at the end. -/
def Redirect.uriWritten (redirect : Redirect) (string : Bytes) (vector : List Int) : Option Bytes :=
  redirectCopy redirect.template string vector 0 redirect.param

/-! ## What a destination stands for -/

/-- The number `{n}` at the front of a text, and the text behind it. -/
def placeholder : Bytes → Option (Nat × Bytes)
  | [] => none
  | byte :: rest =>
    if byte = Template.openBrace ∧ rest.takeWhile isdigit ≠ [] ∧
        (rest.dropWhile isdigit).head? = some Template.closeBrace then
      some (digitsValue (rest.takeWhile isdigit), (rest.dropWhile isdigit).tail)
    else none

private theorem length_placeholder {text behind : Bytes} {number : Nat}
    (read : placeholder text = some (number, behind)) :
    behind.length < text.length := by
  cases text with
  | nil => cases read
  | cons byte rest =>
    rw [placeholder] at read
    split_ifs at read with isPlaceholder
    obtain ⟨-, rfl⟩ := Prod.mk.inj (Option.some.inj read)
    have shorter := (List.dropWhile_suffix (l := rest) isdigit).length_le
    rw [List.length_tail, List.length_cons]
    omega

private theorem mem_of_placeholder {byte other : UInt8} {rest behind : Bytes}
    {number : Nat} (read : placeholder (byte :: rest) = some (number, behind))
    (isIn : other ∈ behind) : other ∈ rest := by
  rw [placeholder] at read
  split_ifs at read with isPlaceholder
  obtain ⟨-, rfl⟩ := Prod.mk.inj (Option.some.inj read)
  exact (List.dropWhile_suffix isdigit).subset (List.mem_of_mem_tail isIn)

/-- A destination with each number replaced by the capture. -/
def expandTemplate (capture : Nat → Bytes) : Bytes → Bytes
  | [] => []
  | byte :: rest =>
    match _read : placeholder (byte :: rest) with
    | some (number, behind) =>
      capture number ++ expandTemplate capture behind
    | none => byte :: expandTemplate capture rest
termination_by text => text.length
decreasing_by
  · exact length_placeholder _read
  · exact Nat.lt_succ_self _

section Expansion

variable {capture : Nat → Bytes} {digits rest : Bytes}

theorem expandTemplate_number
    (areDigits : ∀ byte ∈ digits, isdigit byte = true) (isNumber : digits ≠ [])
    (rest : Bytes) :
    expandTemplate capture (Template.openBrace :: (digits ++ Template.closeBrace :: rest)) =
      capture (digitsValue digits) ++ expandTemplate capture rest := by
  have read : placeholder (Template.openBrace :: (digits ++ Template.closeBrace :: rest)) =
      some (digitsValue digits, rest) := by
    have stops : isdigit Template.closeBrace = false := rfl
    have front : (digits ++ Template.closeBrace :: rest).takeWhile isdigit =
        digits := by
      rw [List.takeWhile_append_of_pos areDigits,
        List.takeWhile_cons_of_neg (by rw [stops]; exact Bool.noConfusion),
        List.append_nil]
    have behind : (digits ++ Template.closeBrace :: rest).dropWhile isdigit =
        Template.closeBrace :: rest := by
      rw [List.dropWhile_append_of_pos areDigits,
        List.dropWhile_cons_of_neg (by rw [stops]; exact Bool.noConfusion)]
    rw [placeholder, front, behind]
    exact if_pos ⟨rfl, isNumber, rfl⟩
  rw [expandTemplate.eq_def]
  dsimp only
  rw [read]

theorem expandTemplate_literal {byte : UInt8} (isLiteral : placeholder (byte :: rest) = none) :
    expandTemplate capture (byte :: rest) = byte :: expandTemplate capture rest := by
  rw [expandTemplate.eq_def]
  dsimp only
  rw [isLiteral]

theorem expandTemplate_plain {byte : UInt8} (plain : byte ≠ Template.openBrace) :
    expandTemplate capture (byte :: rest) = byte :: expandTemplate capture rest := by
  apply expandTemplate_literal
  rw [placeholder, if_neg]
  exact fun isPlaceholder => plain isPlaceholder.1

theorem expandTemplate_digits (areDigits : ∀ byte ∈ digits, isdigit byte = true) (rest : Bytes) :
    expandTemplate capture (digits ++ rest) = digits ++ expandTemplate capture rest := by
  induction digits with
  | nil => rfl
  | cons digit digits ih =>
    have plain : digit ≠ Template.openBrace := by
      rintro rfl
      cases areDigits _ List.mem_cons_self
    rw [List.cons_append, expandTemplate_plain plain, ih, List.cons_append]
    exact fun byte isIn => areDigits byte (List.mem_cons_of_mem _ isIn)

/-- A brace that does not open a number. -/
theorem expandTemplate_open (areDigits : ∀ byte ∈ digits, isdigit byte = true)
    (stops : ∀ byte ∈ rest.head?, isdigit byte = false ∧
      (byte = Template.closeBrace → digits = [])) :
    expandTemplate capture (Template.openBrace :: (digits ++ rest)) =
      Template.openBrace :: (digits ++ expandTemplate capture rest) := by
  rw [expandTemplate_literal, expandTemplate_digits areDigits]
  rw [placeholder, List.takeWhile_append_of_pos areDigits,
    List.dropWhile_append_of_pos areDigits, if_neg]
  rintro ⟨-, isNumber, isClosed⟩
  cases rest with
  | nil => cases isClosed
  | cons byte behind =>
    obtain ⟨noDigit, isEmpty⟩ := stops byte rfl
    have noDigit : ¬ isdigit byte = true := by
      rw [noDigit]
      exact Bool.noConfusion
    rw [List.dropWhile_cons_of_neg noDigit] at isClosed
    rw [List.takeWhile_cons_of_neg noDigit, List.append_nil] at isNumber
    exact isNumber (isEmpty (Option.some.inj isClosed))

end Expansion

/-! ## What the parser has noted -/

/-- The part of a token that has been passed. -/
def pendingText : Option RedirectToken → Bytes
  | none => []
  | some token => Template.openBrace :: token.digits

/-- The state of the parser behind a text and the part of a token. -/
def Fits (front : Bytes) (pos : Nat) : Option RedirectToken → Prop
  | none => pos = front.length
  | some token =>
    token.start = front.length ∧ pos = front.length + (token.digits.length + 1) ∧
      ∀ byte ∈ token.digits, isdigit byte = true

/-- The places of the parameters, one behind the other. -/
def Spans (limit : Nat) : Nat → List RedirectParam → Prop
  | startPos, [] => startPos ≤ limit
  | startPos, param :: rest =>
    startPos ≤ param.start ∧ param.start ≤ limit ∧ Spans limit param.stop rest

/-- The parameters stand for a text behind a part that is copied. -/
structure Denotes (template : Bytes) (startPos : Nat)
    (params : List RedirectParam) (before text : Bytes) : Prop where
  spans : Spans template.length startPos params
  appended (string : Bytes) (result : PcreMatch) :
    redirectAppend template string result startPos params =
      before ++ expandTemplate (capturedString string result) text

section Parser

variable {template front before moved text behind : Bytes} {startPos : Nat}
  {params : List RedirectParam}

theorem Denotes.move (denotes : Denotes template startPos params (before ++ moved) behind)
    (isMoved : ∀ capture, expandTemplate capture text = moved ++ expandTemplate capture behind) :
    Denotes template startPos params before text := by
  refine ⟨denotes.spans, fun string result => ?_⟩
  rw [denotes.appended, isMoved, List.append_assoc]

theorem denotes_nil (isTemplate : template = front ++ text) (isBefore : startPos ≤ front.length)
    (isPlain : ∀ capture, expandTemplate capture text = text) :
    Denotes template startPos [] (front.drop startPos) text := by
  refine ⟨?_, fun string result => ?_⟩
  · rw [Spans, isTemplate, List.length_append]
    omega
  · rw [redirectAppend, isPlain, isTemplate, List.drop_append_of_le_length isBefore]

theorem Denotes.cons {digits : Bytes} {stop : Nat}
    (denotes : Denotes template stop params [] behind)
    (isTemplate : template = front ++ text) (isBefore : startPos ≤ front.length)
    (isNumber : ∀ capture, expandTemplate capture text =
      capture (digitsValue digits) ++ expandTemplate capture behind) :
    Denotes template startPos
      ({ number := digitsValue digits, start := front.length, stop := stop } ::
        params) (front.drop startPos) text := by
  refine ⟨⟨isBefore, ?_, denotes.spans⟩, fun string result => ?_⟩
  · rw [isTemplate, List.length_append]
    exact Nat.le_add_right ..
  · have copied : (template.drop startPos).take (front.length - startPos) =
        front.drop startPos := by
      rw [isTemplate, List.drop_append_of_le_length isBefore,
        List.take_append_of_le_length (by rw [List.length_drop])]
      rw [List.take_of_length_le (by rw [List.length_drop])]
    rw [redirectAppend, copied, denotes.appended, isNumber, List.append_assoc, List.nil_append]

/-- The parser notes exactly the numbers of a destination. The induction is
over the rest of the destination; a token that is given up is read again from
the byte that ended it. -/
theorem redirectParse_denotes (text : Bytes) {front : Bytes} {pos startPos : Nat}
    {token : Option RedirectToken} {params : List RedirectParam}
    (parsed : redirectParse pos token text = some params) (fits : Fits front pos token)
    (isTemplate : template = front ++ (pendingText token ++ text))
    (isBefore : startPos ≤ front.length) :
    Denotes template startPos params (front.drop startPos) (pendingText token ++ text) := by
  induction text generalizing front pos startPos token params with
  | nil =>
    rw [redirectParse] at parsed
    cases parsed
    apply denotes_nil isTemplate isBefore
    intro capture
    cases token with
    | none => exact expandTemplate.eq_def ..
    | some token =>
      have literal := @expandTemplate_open capture token.digits [] fits.2.2 nofun
      rwa [show expandTemplate capture [] = [] from
        expandTemplate.eq_def ..] at literal
  | cons byte rest ih =>
    have outer {front : Bytes} {pos startPos : Nat}
        {params : List RedirectParam}
        (parsed : redirectParse (pos + 1) (redirectOpen pos byte) rest = some params)
        (isPos : pos = front.length)
        (isTemplate : template = front ++ byte :: rest)
        (isBefore : startPos ≤ front.length) :
        Denotes template startPos params (front.drop startPos) (byte :: rest) := by
      rw [redirectOpen] at parsed
      split_ifs at parsed with isOpen
      · rw [isOpen] at isTemplate ⊢
        exact ih parsed ⟨isPos, congrArg (· + 1) isPos, nofun⟩ isTemplate isBefore
      · have passed := @ih (front ++ [byte]) (pos + 1) startPos none params
          parsed (by rw [Fits, isPos, List.length_append]; rfl)
          (by rw [isTemplate, List.append_assoc]; rfl)
          (by rw [List.length_append]; omega)
        rw [List.drop_append_of_le_length isBefore] at passed
        apply passed.move
        intro capture
        exact expandTemplate_plain isOpen
    cases token with
    | none =>
      rw [redirectParse] at parsed
      exact outer parsed fits isTemplate isBefore
    | some token =>
      obtain ⟨isStart, isPos, areDigits⟩ := fits
      rw [pendingText, List.cons_append] at isTemplate ⊢
      -- the parser behind the closing brace
      have closed {startPos : Nat} {params : List RedirectParam}
          (parsed : redirectParse (pos + 1) none rest = some params)
          (isClose : byte = Template.closeBrace)
          (isBefore : startPos ≤ pos + 1) :
          Denotes template startPos params
            ((front ++ Template.openBrace :: (token.digits ++ [byte])).drop startPos) rest := by
        apply ih parsed
        · simp only [Fits, List.length_append, List.length_cons, List.length_nil]
          omega
        · rw [isTemplate]
          simp [pendingText]
        · simp only [List.length_append, List.length_cons, List.length_nil]
          omega
      rw [redirectParse] at parsed
      split_ifs at parsed with isClose noNumber tooLong givenUp
      · have passed := closed parsed isClose (show startPos ≤ _ by omega)
        rw [List.drop_append_of_le_length isBefore] at passed
        apply passed.move
        intro capture
        rw [expandTemplate_open areDigits, noNumber, isClose, expandTemplate_plain (by decide)]
        · rfl
        · rintro byte isHead
          rw [isClose] at isHead
          obtain rfl := Option.some.inj isHead
          exact ⟨rfl, fun _ => noNumber⟩
      · obtain ⟨others, isOthers, rfl⟩ := Option.map_eq_some_iff.mp parsed
        have passed := closed isOthers isClose le_rfl
        rw [List.drop_of_length_le (by
          simp only [List.length_append, List.length_cons, List.length_nil]
          omega)] at passed
        rw [isStart]
        apply passed.cons isTemplate isBefore
        intro capture
        rw [isClose, expandTemplate_number areDigits noNumber]
      · have isFront : pos = (front ++ Template.openBrace :: token.digits).length := by
          rw [List.length_append, List.length_cons, isPos]
        have passed := outer parsed isFront
          (by rw [isTemplate, List.append_assoc, List.cons_append])
          (show startPos ≤ _ by omega)
        rw [List.drop_append_of_le_length isBefore] at passed
        apply passed.move
        intro capture
        rw [expandTemplate_open areDigits, List.cons_append]
        intro head isHead
        obtain rfl := Option.some.inj isHead
        refine ⟨?_, fun isBrace => absurd isBrace isClose⟩
        rcases givenUp with isOpen | noDigit
        · rw [isOpen]
          rfl
        · exact noDigit
      · have isDigit : isdigit byte = true := by
          rw [not_or] at givenUp
          exact eq_true_of_ne_false givenUp.2
        have passed := ih parsed ⟨isStart, by simp only [List.length_append, isPos]; rfl, ?_⟩
          (by rw [isTemplate]; simp [pendingText]) isBefore
        · simpa [pendingText] using passed
        · intro digit isIn
          rcases List.mem_append.mp isIn with earlier | isLast
          · exact areDigits digit earlier
          · rw [List.mem_singleton.mp isLast]
            exact isDigit

end Parser

/-! ## The two passes -/

/-- What `strncpy` leaves of a text: the rest behind a NUL is not copied. -/
structure CopyOf (written text : Bytes) : Prop where
  length : written.length = text.length
  same : cstring written = cstring text
  plain : 0 ∉ text → written = text

theorem CopyOf.append {written text behind rest : Bytes}
    (first : CopyOf written text) (second : CopyOf behind rest) :
    CopyOf (written ++ behind) (text ++ rest) := by
  refine ⟨?_, ?_, fun noNul => ?_⟩
  · rw [List.length_append, List.length_append, first.length, second.length]
  · by_cases isIn : 0 ∈ text
    · have copied : 0 ∈ written := by
        by_contra noNul
        have shorter := length_cstring_append_lt isIn []
        rw [List.append_nil, ← first.same, cstring_of_notMem noNul,
          first.length] at shorter
        exact absurd shorter (lt_irrefl _)
      rw [cstring_append_of_mem copied, cstring_append_of_mem isIn, first.same]
    · rw [first.plain isIn, cstring_append isIn, cstring_append isIn, second.same]
  · rw [List.mem_append, not_or] at noNul
    rw [first.plain noNul.1, second.plain noNul.2]

theorem length_strncpy (source : Bytes) (length : Nat) :
    (strncpy source length).length = length := by
  have shorter := List.length_take_le length (cstring source)
  rw [strncpy, List.length_rightpad]
  omega

theorem copyOf_strncpy {source : Bytes} {length : Nat} (isInside : length ≤ source.length) :
    CopyOf (strncpy source length) (source.take length) := by
  have plain (noNul : 0 ∉ source.take length) : strncpy source length = source.take length := by
    have front : (cstring source).take length = source.take length := by
      rw [← List.take_append_drop length source, cstring_append noNul]
      simp [isInside]
    rw [strncpy, front, List.rightpad, List.length_take_of_le isInside, Nat.sub_self]
    exact List.append_nil _
  refine ⟨?_, ?_, plain⟩
  · rw [length_strncpy, List.length_take_of_le isInside]
  · by_cases isIn : 0 ∈ source.take length
    · obtain ⟨before, rest, isFront, noNul⟩ := List.eq_append_cons_of_mem isIn
      have isSource : source = before ++ 0 :: (rest ++ source.drop length) := by
        rw [← List.cons_append, ← List.append_assoc, ← isFront, List.take_append_drop]
      have isShort : before.length < length := by
        have sizes := congrArg List.length isFront
        rw [List.length_take_of_le isInside, List.length_append, List.length_cons] at sizes
        omega
      have copied : cstring source = before := by
        rw [isSource, cstring_append noNul]
        simp [cstring]
      rw [strncpy, copied, List.take_of_length_le isShort.le, isFront,
        List.rightpad, cstring_append noNul, cstring_append noNul,
        ← Nat.succ_pred_eq_of_pos (Nat.sub_pos_of_lt isShort)]
      rfl
    · rw [plain isIn]

/-- The vector of `pcre_exec` as pairs of offsets. -/
def vectorPairs : List Int → List (Int × Int)
  | start :: stop :: rest => (start, stop) :: vectorPairs rest
  | _ => []

private theorem group_vectorPairs {vector : List Int} {number : Nat} {start stop : Int}
    (isStart : vector[number * 2]? = some start)
    (isStop : vector[number * 2 + 1]? = some stop) (count : Int) :
    PcreMatch.group { count := count, vector := vectorPairs vector } number = (start, stop) := by
  induction number generalizing vector with
  | zero =>
    match vector, isStart, isStop with
    | _ :: _ :: _, rfl, rfl => rfl
  | succ number ih =>
    match vector, isStart, isStop with
    | _ :: _ :: rest, isStart, isStop =>
      rw [show (number + 1) * 2 = number * 2 + 1 + 1 by omega] at isStart isStop
      exact ih isStart isStop

/-- The groups up to a number have no match or lie inside of the subject. -/
def CapturesOf (subject : Bytes) (vector : List Int) (count : Nat) : Prop :=
  ∀ number ≤ count, ∀ start ∈ vector[number * 2]?, ∀ stop ∈ vector[number * 2 + 1]?,
      start < 0 ∨ stop < start ∨ stop ≤ subject.length

section Passes

variable {template subject : Bytes} {vector : List Int} {count : Nat}

theorem copyOf_capture (captures : CapturesOf subject vector count)
    {number : Nat} (isNumber : number ≤ count)
    (isRead : number * 2 + 1 < vector.length) (matched : Int) :
    ∃ length matchStart, redirectParamStringLength vector number = some length ∧
      vector[number * 2]? = some matchStart ∧
      CopyOf (if 0 < length then strncpy (subject.drop matchStart.toNat) length
        else []) (capturedString subject
          { count := matched, vector := vectorPairs vector } number) ∧
      length = (capturedString subject
        { count := matched, vector := vectorPairs vector } number).length := by
  obtain ⟨start, isStart⟩ : ∃ start, vector[number * 2]? = some start :=
    ⟨_, List.getElem?_eq_getElem (Nat.lt_of_succ_lt isRead)⟩
  obtain ⟨stop, isStop⟩ : ∃ stop, vector[number * 2 + 1]? = some stop :=
    ⟨_, List.getElem?_eq_getElem isRead⟩
  have inside := captures number isNumber start isStart stop isStop
  have isLength : redirectParamStringLength vector number =
      if start < 0 ∨ stop < start then some 0
      else some (stop - start).toNat := by
    rw [redirectParamStringLength, isStart, isStop]
    rfl
  rw [capturedString, group_vectorPairs isStart isStop, isLength]
  by_cases isUnset : start < 0 ∨ stop < start
  · rw [if_pos isUnset, if_pos isUnset]
    exact ⟨0, start, rfl, isStart, ⟨rfl, rfl, fun _ => rfl⟩, rfl⟩
  · rw [if_neg isUnset, if_neg isUnset]
    have isInside : (stop - start).toNat ≤ (subject.drop start.toNat).length := by
      rw [List.length_drop]
      omega
    refine ⟨_, start, rfl, isStart, ?_, (List.length_take_of_le isInside).symm⟩
    split_ifs with isPositive
    · exact copyOf_strncpy isInside
    · rw [Nat.eq_zero_of_not_pos isPositive]
      exact ⟨rfl, rfl, fun _ => rfl⟩

/-- Both passes read the groups inside of the vector, and the second one
writes as many bytes as the first one has counted. -/
theorem redirectCopy_copies (noNul : 0 ∉ template) (captures : CapturesOf subject vector count)
    (isRead : count * 2 + 1 < vector.length) (matched : Int) {params : List RedirectParam}
    {startPos : Nat} (spans : Spans template.length startPos params)
    (numbers : ∀ param ∈ params, param.number ≤ count) :
    ∃ written, redirectCopy template subject vector startPos params = some written ∧
      redirectLength template.length vector startPos params = some written.length ∧
      CopyOf written (redirectAppend template subject
        { count := matched, vector := vectorPairs vector } startPos
        params) := by
  -- the parts of the template
  have copied {startPos length : Nat} (isInside : length ≤ (template.drop startPos).length) :
      strncpy (template.drop startPos) length = (template.drop startPos).take length := by
    apply (copyOf_strncpy isInside).plain
    exact fun isIn => noNul (List.mem_of_mem_drop (List.mem_of_mem_take isIn))
  induction params generalizing startPos with
  | nil =>
    have whole : strncpy (template.drop startPos)
        (template.length - startPos) = template.drop startPos := by
      rw [copied (by rw [List.length_drop]), List.take_of_length_le (by rw [List.length_drop])]
    refine ⟨_, rfl, ?_, ?_⟩
    · rw [redirectLength, length_strncpy]
    · rw [whole, redirectAppend]
      exact ⟨rfl, rfl, fun _ => rfl⟩
  | cons param rest ih =>
    obtain ⟨isBefore, isLimit, spans⟩ := spans
    have isNumber := numbers param List.mem_cons_self
    obtain ⟨behind, isBehind, isCounted, isCopy⟩ :=
      ih spans fun other isIn => numbers other (List.mem_cons_of_mem _ isIn)
    obtain ⟨length, matchStart, isLength, isStart, isCapture, sameLength⟩ :=
      copyOf_capture captures isNumber (by omega) matched
    have front : strncpy (template.drop startPos) (param.start - startPos) =
        (template.drop startPos).take (param.start - startPos) := by
      apply copied
      rw [List.length_drop]
      omega
    refine ⟨strncpy (template.drop startPos) (param.start - startPos) ++
      ((if 0 < length then strncpy (subject.drop matchStart.toNat) length
        else []) ++ behind), ?_, ?_, ?_⟩
    · rw [redirectCopy, isLength, isStart, isBehind]
      rfl
    · rw [redirectLength, isLength, isCounted, List.length_append,
        List.length_append, length_strncpy, isCapture.length, sameLength]
      rfl
    · rw [redirectAppend, front, List.append_assoc]
      exact .append ⟨rfl, rfl, fun _ => rfl⟩ (isCapture.append isCopy)

end Passes

theorem zero_notMem_expandTemplate {capture : Nat → Bytes}
    (captures : ∀ number, 0 ∉ capture number) {text : Bytes}
    (noNul : 0 ∉ text) : 0 ∉ expandTemplate capture text := by
  induction text using expandTemplate.induct with
  | case1 => rwa [expandTemplate.eq_def]
  | case2 byte rest number behind read ih =>
    rw [expandTemplate.eq_def]
    dsimp only
    rw [read]
    dsimp only
    rw [List.mem_append, not_or]
    refine ⟨captures number, ih fun isIn => noNul ?_⟩
    exact List.mem_cons_of_mem _ (mem_of_placeholder read isIn)
  | case3 byte rest isLiteral ih =>
    rw [List.mem_cons, not_or] at noNul
    rw [expandTemplate_literal isLiteral, List.mem_cons, not_or]
    exact ⟨noNul.1, ih noNul.2⟩

private theorem zero_notMem_capturedString {string : Bytes} (noNul : 0 ∉ string)
    (result : PcreMatch) (number : Nat) :
    0 ∉ capturedString string result number := by
  rw [capturedString]
  split_ifs
  · exact List.not_mem_nil
  · exact fun isIn => noNul (List.mem_of_mem_drop (List.mem_of_mem_take isIn))

/-- The parts of an accepted redirect. -/
theorem redirectCreate_eq {captureCount : Bytes → Option Nat}
    {location destination : Bytes} {redirect : Redirect}
    (created : redirectCreate captureCount location destination = some redirect) :
    redirect.template = cstring destination ∧
      redirectParse 0 none (cstring destination) = some redirect.param ∧
      ∀ param ∈ redirect.param, param.number ≤ redirect.param.length := by
  rw [redirectCreate] at created
  split_ifs at created with isEmpty
  split at created
  · rename_i params count isParsed isCount
    split_ifs at created with sameCount numbers
    cases created
    rw [not_not] at sameCount
    refine ⟨rfl, isParsed, fun param isIn => ?_⟩
    by_contra exceeds
    rw [not_le, ← sameCount] at exceeds
    exact numbers (List.any_eq_true.mpr ⟨param, isIn, decide_eq_true exceeds⟩)
  · cases created

/-- For every accepted destination, both passes of `redirect_get_uri` read
only inside of a vector of `(params_count + 1) * 3` offsets, the length that
is allocated is the number of bytes written, and the target is the destination
with each number replaced by the capture. -/
theorem uriWritten_expands {captureCount : Bytes → Option Nat} {location destination : Bytes}
    {redirect : Redirect}
    (created : redirectCreate captureCount location destination = some redirect) (subject : Bytes)
    {vector : List Int} (size : vector.length = (redirect.param.length + 1) * 3)
    (captures : CapturesOf subject vector redirect.param.length)
    (matched : Int) :
    ∃ written, redirect.uriWritten subject vector = some written ∧
      redirect.uriLength vector = some written.length ∧
      redirectGetUri redirect subject
        { count := matched, vector := vectorPairs vector } = cstring written ∧
      cstring written = cstring (expandTemplate (capturedString subject
        { count := matched, vector := vectorPairs vector })
        (cstring destination)) ∧
      (0 ∉ subject → written = expandTemplate (capturedString subject
        { count := matched, vector := vectorPairs vector })
        (cstring destination)) := by
  obtain ⟨isTemplate, isParsed, numbers⟩ := redirectCreate_eq created
  have noNul : 0 ∉ redirect.template := by
    rw [isTemplate]
    exact zero_notMem_cstring destination
  have denotes : Denotes redirect.template 0 redirect.param [] (cstring destination) :=
    @redirectParse_denotes redirect.template _ [] 0 0 none _ isParsed rfl
      isTemplate le_rfl
  obtain ⟨written, isWritten, isCounted, isCopy⟩ :=
    redirectCopy_copies noNul captures (by omega) matched denotes.spans numbers
  rw [denotes.appended, List.nil_append] at isCopy
  refine ⟨written, isWritten, isCounted, ?_, isCopy.same, fun plain => ?_⟩
  · rw [redirectGetUri, denotes.appended, List.nil_append, isCopy.same]
  · apply isCopy.plain
    apply zero_notMem_expandTemplate
    · exact zero_notMem_capturedString plain _
    · exact zero_notMem_cstring destination

def oldRedirect : Redirect where
  location := ascii "^/old/(.*)$"
  template := ascii "/new/{1}"
  param := [{ number := 1, start := 5, stop := 8 }]

theorem uriWritten_expands_old : redirectCreate (fun _ => some 1) oldRedirect.location
        oldRedirect.template = some oldRedirect ∧
      ∃ written, oldRedirect.uriWritten (ascii "/old/x") [0, 6, 5, 6, 0, 0] = some written ∧
        cstring written = cstring (expandTemplate (capturedString
          (ascii "/old/x") ⟨2, vectorPairs [0, 6, 5, 6, 0, 0]⟩)
          (cstring oldRedirect.template)) := by
  have created : redirectCreate (fun _ => some 1) oldRedirect.location
      oldRedirect.template = some oldRedirect := by decide +kernel
  have captures : CapturesOf (ascii "/old/x") [0, 6, 5, 6, 0, 0] 1 := by
    intro number isNumber start isStart stop isStop
    have isInside : stop = 6 := by
      obtain rfl | rfl : number = 0 ∨ number = 1 := by omega
      · exact (Option.some.inj isStop).symm
      · exact (Option.some.inj isStop).symm
    rw [isInside]
    exact .inr (.inr (by decide))
  obtain ⟨written, isWritten, -, -, same, -⟩ :=
    @uriWritten_expands _ _ _ _ created (ascii "/old/x") [0, 6, 5, 6, 0, 0] rfl captures 2
  exact ⟨created, written, isWritten, same⟩

end CWebFramework.Http
