import CWebFramework.Text.Quoted

/-!
# Identifiers for MySQL

`__escape_identifier` of `framework/database/mysql.c` cuts a name at the dots
outside of backticks and quotes every part.  The text is read back as MySQL
reads it: a backtick opens an identifier, two backticks are one, and a single
one ends it.  That is right for a `charset` of the connection in which no byte
of a longer character is a backtick, such as the default `utf8mb4`.
-/

namespace CWebFramework.Mysql

open Quoted

abbrev backtick : UInt8 := 96

/-! ## Writing -/

def escapeContent (unescapePairs : Bool) : Bytes → Bytes
  | [] => []
  | [c] => if c = backtick then [c, backtick] else [c]
  | c :: next :: rest =>
    if c = backtick then
      if unescapePairs ∧ next = backtick then
        c :: backtick :: escapeContent unescapePairs rest
      else c :: backtick :: escapeContent unescapePairs (next :: rest)
    else c :: escapeContent unescapePairs (next :: rest)

def isQuoted (part : Bytes) : Bool :=
  2 ≤ part.length && part.head? == some backtick && part.getLast? == some backtick

/-- What stands between the first and the last character. -/
def inner (part : Bytes) : Bytes := part.tail.dropLast

def escapeIdentifierPart (part : Bytes) : Option Bytes :=
  if part.length = 0 then none
  else if isQuoted part then
    if (inner part).length = 0 then none
    else some (backtick :: (escapeContent true (inner part) ++ [backtick]))
  else some (backtick :: (escapeContent false part ++ [backtick]))

/-- The end of a part in the loop of `__escape_identifier`. -/
def addPart (firstPart : Bool) (result part : Bytes) : Option Bytes :=
  if part.length = 0 then none
  else
    (escapeIdentifierPart part).map fun escaped =>
      result ++ (if firstPart then [] else [Byte.dot]) ++ escaped

/-- The loop of `__escape_identifier`; `part` are the characters from
`part_start` on. -/
def escapeLoop (inQuotes firstPart : Bool) (result part : Bytes) : Bytes → Option Bytes
  | [] => if inQuotes then none else addPart firstPart result part
  | c :: rest =>
    if c = backtick then
      match inQuotes, rest with
      | true, next :: rest =>
        if next = backtick then
          escapeLoop true firstPart result (part ++ [c, next]) rest
        else escapeLoop false firstPart result (part ++ [c]) (next :: rest)
      | _, rest =>
        escapeLoop (!inQuotes) firstPart result (part ++ [c]) rest
    else if c = Byte.dot ∧ ! inQuotes then
      (addPart firstPart result part).bind fun result =>
        escapeLoop inQuotes false result [] rest
    else escapeLoop inQuotes firstPart result (part ++ [c]) rest

def escapeIdentifier (str : Bytes) : Option Bytes :=
  if str = [] then none else escapeLoop false true [] [] str

/-! ## Reading -/

/-- A text that is quoted identifiers with dots between them. -/
inductive Lexes : Bytes → List Bytes → Prop
  | last {text name : Bytes} (isName : readQuoted backtick text = some (name, [])) :
      Lexes (backtick :: text) [name]
  | more {text name rest : Bytes} {names : List Bytes}
      (isName : readQuoted backtick text = some (name, Byte.dot :: rest))
      (later : Lexes rest names) : Lexes (backtick :: text) (name :: names)

/-! ## Parts -/

/-- The pieces between the dots that have an even number of backticks in front
of them. -/
def identifierParts (quoted : Bool) (part : Bytes) : Bytes → List Bytes
  | [] => [part]
  | c :: rest =>
    if c = Byte.dot ∧ quoted = false then
      part :: identifierParts false [] rest
    else identifierParts (quoted ^^ (c == backtick)) (part ++ [c]) rest

/-- Two backticks become one. -/
def unpair : Bytes → Bytes
  | [] => []
  | [c] => [c]
  | c :: next :: rest =>
    if c = backtick ∧ next = backtick then backtick :: unpair rest
    else c :: unpair (next :: rest)

/-- A part in backticks stands for what is between them, and every other part
for itself. -/
def partName (part : Bytes) : Bytes :=
  if isQuoted part then unpair (inner part) else part

private theorem escapeContent_false (content : Bytes) :
    escapeContent false content = double backtick content := by
  fun_induction escapeContent false content <;> simp_all [double]

private theorem escapeContent_true (content : Bytes) :
    escapeContent true content = double backtick (unpair content) := by
  fun_induction escapeContent true content <;> simp_all [double, unpair]

/-! ## Whole identifiers -/

def quoteName (name : Bytes) : Bytes := backtick :: (double backtick name ++ [backtick])

def joinNames : List Bytes → Bytes
  | [] => []
  | [name] => quoteName name
  | name :: rest => quoteName name ++ Byte.dot :: joinNames rest

theorem joinNames_cons (name : Bytes) {rest : List Bytes} (some : rest ≠ []) :
    joinNames (name :: rest) = quoteName name ++ Byte.dot :: joinNames rest := by
  cases rest with
  | nil => exact absurd rfl some
  | cons next rest => rfl

private theorem lexes_joinNames {names : List Bytes} (some : names ≠ []) :
    Lexes (joinNames names) names := by
  induction names with
  | nil => exact absurd rfl some
  | cons name rest ih =>
    by_cases isLast : rest = []
    · rw [isLast]
      apply Lexes.last
      exact readQuoted_double name (by simp)
    · rw [joinNames_cons name isLast, quoteName, List.cons_append,
        List.append_assoc, List.singleton_append]
      apply Lexes.more _ (ih isLast)
      exact readQuoted_double name (fun isDot => absurd (Option.some.inj isDot) (by decide))

private theorem escapeIdentifierPart_eq {part escaped : Bytes}
    (accepted : escapeIdentifierPart part = some escaped) :
    escaped = quoteName (partName part) := by
  rw [escapeIdentifierPart] at accepted
  unfold partName quoteName
  split_ifs at accepted with isEmpty quoted noContent
  · cases accepted
    rw [if_pos quoted, escapeContent_true]
  · cases accepted
    rw [if_neg quoted, escapeContent_false]

private theorem addPart_eq {firstPart : Bool} {result part output : Bytes}
    (accepted : addPart firstPart result part = some output) :
    output = result ++ (if firstPart then [] else [Byte.dot]) ++ quoteName (partName part) := by
  unfold addPart at accepted
  split at accepted
  next => cases accepted
  obtain ⟨escaped, isEscaped, rfl⟩ := Option.map_eq_some_iff.mp accepted
  rw [escapeIdentifierPart_eq isEscaped]

theorem identifierParts_ne_nil (quoted : Bool) (part str : Bytes) :
    identifierParts quoted part str ≠ [] := by
  fun_induction identifierParts quoted part str <;> simp_all

/-- A backtick opens or closes the quotes, unless it is the first of two inside
of them. -/
theorem escapeLoop_toggle {inQuotes : Bool} {rest : Bytes}
    (alone : ¬ (inQuotes = true ∧ rest.head? = some backtick))
    (firstPart : Bool) (result part : Bytes) :
    escapeLoop inQuotes firstPart result part (backtick :: rest) =
      escapeLoop (!inQuotes) firstPart result (part ++ [backtick]) rest := by
  rw [escapeLoop.eq_def]
  dsimp only
  rw [if_pos rfl]
  cases inQuotes with
  | false => rfl
  | true =>
    cases rest with
    | nil => rfl
    | cons next rest =>
      have other : next ≠ backtick := fun isNext =>
        alone ⟨rfl, by rw [isNext]; rfl⟩
      exact if_neg other

private theorem identifierParts_backtick (quoted : Bool) (part rest : Bytes) :
    identifierParts quoted part (backtick :: rest) =
      identifierParts (!quoted) (part ++ [backtick]) rest := by
  rw [identifierParts, if_neg (fun isDot => absurd isDot.1 (by decide))]
  simp

/-- The text that has been written, with the parts that are left. -/
theorem escapeLoop_eq (str : Bytes) {inQuotes firstPart : Bool} {result part output : Bytes}
    (accepted : escapeLoop inQuotes firstPart result part str = some output) :
    output = result ++ (if firstPart then [] else [Byte.dot]) ++
      joinNames ((identifierParts inQuotes part str).map partName) := by
  match str, accepted with
  | [], accepted =>
    rw [escapeLoop] at accepted
    split at accepted
    next => cases accepted
    next => exact addPart_eq accepted
  | c :: rest, accepted =>
    by_cases isTick : c = backtick
    · subst isTick
      by_cases paired : inQuotes = true ∧ rest.head? = some backtick
      · obtain ⟨rfl, isPair⟩ := paired
        match rest, isPair, accepted with
        | next :: rest, isPair, accepted =>
          obtain rfl := Option.some.inj isPair
          rw [escapeLoop, if_pos rfl, if_pos rfl] at accepted
          rw [identifierParts_backtick, identifierParts_backtick, List.append_assoc part]
          exact escapeLoop_eq rest accepted
      · rw [escapeLoop_toggle paired] at accepted
        rw [identifierParts_backtick]
        exact escapeLoop_eq rest accepted
    · have sameQuotes : (inQuotes ^^ (c == backtick)) = inQuotes := by
        rw [beq_eq_false_iff_ne.mpr isTick, Bool.xor_false]
      rw [escapeLoop.eq_def] at accepted
      dsimp only at accepted
      rw [if_neg isTick] at accepted
      rw [identifierParts, sameQuotes]
      by_cases isDot : c = Byte.dot ∧ inQuotes = false
      · obtain ⟨-, rfl⟩ := id isDot
        rw [if_pos ⟨isDot.1, rfl⟩] at accepted
        obtain ⟨written, isWritten, later⟩ := Option.bind_eq_some_iff.mp accepted
        rw [escapeLoop_eq rest later, addPart_eq isWritten, if_pos isDot,
          List.map_cons, joinNames_cons]
        · simp
        · simp [identifierParts_ne_nil]
      · rw [if_neg (by simpa using isDot)] at accepted
        rw [if_neg isDot]
        exact escapeLoop_eq rest accepted

/-- Nothing is lost between the parts. -/
theorem intercalate_identifierParts (quoted : Bool) (part str : Bytes) :
    List.intercalate [Byte.dot] (identifierParts quoted part str) = part ++ str := by
  fun_induction identifierParts quoted part str with
  | case1 quoted part => simp
  | case2 quoted part c rest isDot ih =>
    obtain ⟨next, later, isParts⟩ :=
      List.exists_cons_of_ne_nil (identifierParts_ne_nil false [] rest)
    rw [isParts] at ih
    rw [isParts, List.intercalate_cons_cons, ih, isDot.1]
    simp
  | case3 quoted part c rest notDot ih =>
    rw [ih]
    simp

theorem unpair_double (name : Bytes) : unpair (double backtick name) = name := by
  induction name with
  | nil => rfl
  | cons c name ih =>
    rw [double_cons]
    by_cases isTick : c = backtick
    · rw [if_pos isTick, isTick]
      simp [unpair, ih]
    · rw [if_neg isTick, List.singleton_append]
      cases isDouble : double backtick name with
      | nil =>
        rw [isDouble] at ih
        rw [← ih]
        rfl
      | cons first rest =>
        rw [unpair, if_neg fun both => isTick both.1, ← isDouble, ih]

/-- A part that MySQL reads as one identifier stands for its name. -/
theorem partName_lexed {text name : Bytes} (isName : readQuoted backtick text = some (name, [])) :
    partName (backtick :: text) = name := by
  rw [readQuoted_eq isName]
  have quoted : isQuoted (backtick :: (double backtick name ++ [backtick])) = true := by
    rw [isQuoted, ← List.cons_append, List.getLast?_concat]
    simp
  rw [partName, if_pos quoted, inner, List.tail_cons, List.dropLast_concat, unpair_double]

/-- What the escaper accepts is written as quoted identifiers for the parts of
the name. -/
theorem escapeIdentifier_lexes (str output : Bytes)
    (accepted : escapeIdentifier str = some output) :
    List.intercalate [Byte.dot] (identifierParts false [] str) = str ∧
    Lexes output ((identifierParts false [] str).map partName) ∧
    ∀ text name, backtick :: text ∈ identifierParts false [] str →
      readQuoted backtick text = some (name, []) →
      partName (backtick :: text) = name := by
  have some : (identifierParts false [] str).map partName ≠ [] := by
    simp [identifierParts_ne_nil]
  refine ⟨intercalate_identifierParts false [] str, ?_,
    fun text name _ isName => partName_lexed isName⟩
  rw [escapeIdentifier] at accepted
  split at accepted
  next => cases accepted
  next =>
    rw [escapeLoop_eq str accepted]
    exact lexes_joinNames some

theorem escapeIdentifier_lexes_dotted :
    Lexes (ascii "`t`.`c``d.e`") [ascii "t", ascii "c`d.e"] := by
  have lexes := (escapeIdentifier_lexes (ascii "t.`c``d.e`")
    (ascii "`t`.`c``d.e`") (by decide +kernel)).2.1
  have names : (identifierParts false [] (ascii "t.`c``d.e`")).map partName =
      [ascii "t", ascii "c`d.e"] := by decide +kernel
  rw [names] at lexes
  exact lexes

end CWebFramework.Mysql
