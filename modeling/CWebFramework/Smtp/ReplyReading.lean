import CWebFramework.Smtp.Reply

/-!
# Reading whole replies

A reply has a line with a dash behind its code for every line but the last; the
last line may be the code alone.  The parser waits for the space behind the
code: of the replies whose lines fit its buffer, it reports the end of those
that have one in their last line.
-/

namespace CWebFramework.Smtp

/-! ## Reads -/

/-- The calls of `smtpresponseparser_run` for the reads of a reply. -/
def readsVerdict (parser : ReplyParser) (status : Nat) : List Bytes → Verdict
  | [] => .goesOn parser status
  | chunk :: rest =>
    match smtpresponseparserRun parser status chunk with
    | .goesOn next code => readsVerdict next code rest
    | verdict => verdict

theorem smtpresponseparserRun_append (parser : ReplyParser) (status : Nat) (front behind : Bytes) :
    smtpresponseparserRun parser status (front ++ behind) =
      match smtpresponseparserRun parser status front with
      | .goesOn next code => smtpresponseparserRun next code behind
      | verdict => verdict := by
  induction front generalizing parser status with
  | nil => rfl
  | cons ch rest ih =>
    rw [List.cons_append, smtpresponseparserRun, smtpresponseparserRun]
    cases replyByte parser status ch with
    | error => rfl
    | goesOn next code => exact ih next code
    | complete code => rfl

private theorem readsVerdict_eq (parser : ReplyParser) (status : Nat) (reads : List Bytes) :
    readsVerdict parser status reads = smtpresponseparserRun parser status reads.flatten := by
  induction reads generalizing parser status with
  | nil => rfl
  | cons chunk rest ih =>
    rw [readsVerdict, List.flatten_cons, smtpresponseparserRun_append]
    cases smtpresponseparserRun parser status chunk with
    | error => rfl
    | goesOn next code => exact ih next code
    | complete code => rfl

/-- The verdict is given at the last byte of the text. -/
inductive Reads : ReplyParser → Nat → Bytes → Verdict → Prop
  | nil (parser : ReplyParser) (status : Nat) : Reads parser status [] (.goesOn parser status)
  | last (parser : ReplyParser) (status : Nat) (ch : UInt8) :
      Reads parser status [ch] (replyByte parser status ch)
  | more {parser next : ReplyParser} {status code : Nat} {ch : UInt8}
      {rest : Bytes} {verdict : Verdict}
      (goesOn : replyByte parser status ch = .goesOn next code)
      (reads : Reads next code rest verdict) :
      Reads parser status (ch :: rest) verdict

variable {parser next : ReplyParser} {status code : Nat} {text : Bytes}
  {verdict : Verdict}

theorem Reads.append {front behind : Bytes} (first : Reads parser status front (.goesOn next code))
    (second : Reads next code behind verdict) :
    Reads parser status (front ++ behind) verdict := by
  generalize isMiddle : Verdict.goesOn next code = middle at first
  induction first with
  | nil parser status =>
    cases isMiddle
    exact second
  | last parser status ch => exact .more isMiddle.symm second
  | more goesOn reads ih => exact .more goesOn (ih isMiddle)

theorem Reads.run (reads : Reads parser status text verdict) :
    smtpresponseparserRun parser status text = verdict := by
  induction reads with
  | nil => rfl
  | last parser status ch =>
    rw [smtpresponseparserRun]
    cases replyByte parser status ch <;> rfl
  | more goesOn reads ih =>
    rw [smtpresponseparserRun, goesOn]
    exact ih

theorem Reads.run_front (reads : Reads parser status text verdict)
    {front : Bytes} (leads : front <+: text) (shorter : front ≠ text) :
    ∃ reached later, smtpresponseparserRun parser status front = .goesOn reached later := by
  induction reads generalizing front with
  | nil parser status => exact absurd (List.prefix_nil.mp leads) shorter
  | last parser status ch =>
    rcases List.prefix_cons_iff.mp leads with rfl | ⟨rest, rfl, isRest⟩
    · exact ⟨parser, status, rfl⟩
    · exact absurd (by rw [List.prefix_nil.mp isRest]) shorter
  | @more parser next status code ch rest verdict goesOn reads ih =>
    rcases List.prefix_cons_iff.mp leads with rfl | ⟨begun, rfl, isBegun⟩
    · exact ⟨parser, status, rfl⟩
    · rw [smtpresponseparserRun, goesOn]
      exact ih isBegun (fun same => shorter (by rw [same]))

/-! ## Lines -/

/-- The characters of a text: a tab and what is printed. -/
def isTextByte (byte : UInt8) : Bool := byte == 9 || decide (32 ≤ byte ∧ byte ≤ 126)

def line (digits : Bytes) (separator : UInt8) (text : Bytes) : Bytes :=
  digits ++ separator :: (text ++ [Byte.cr, Byte.lf])

def lastLine (digits : Bytes) : Option Bytes → Bytes
  | none => digits ++ [Byte.cr, Byte.lf]
  | some text => line digits Byte.space text

/-- A reply with the texts of its continued lines and of the last. -/
def replyText (digits : Bytes) (continued : List Bytes) (last : Option Bytes) : Bytes :=
  continued.flatMap (line digits dash) ++ lastLine digits last

def IsText (text : Bytes) : Prop := ∀ ch ∈ text, isTextByte ch = true

instance (text : Bytes) : Decidable (IsText text) :=
  decidable_of_iff (text.all isTextByte = true) List.all_eq_true

/-- The line of a text is no longer than the parser allows. -/
def Fitting (text : Bytes) : Prop := text.length ≤ 1019

instance (text : Bytes) : Decidable (Fitting text) := inferInstanceAs (Decidable (_ ≤ _))

/-- A character that is kept in a stage. -/
theorem replyByte_keep {ch : UInt8} (notNul : ch ≠ 0)
    (kept : if parser.stage = .status then ch ≠ Byte.space ∧ ch ≠ dash
      else ch ≠ Byte.lf) :
    replyByte parser status ch = parser.keep status ch := by
  obtain ⟨stage, buf, lineSize⟩ := parser
  cases stage with
  | status =>
    simp only [if_true] at kept
    simp only [replyByte]
    rw [if_neg notNul, if_neg (not_or.mpr kept)]
  | continueMessage =>
    simp only [replyByte]
    rw [if_neg kept, if_neg notNul]
  | message =>
    simp only [replyByte]
    rw [if_neg kept, if_neg notNul]

/-- Characters that are kept while the line fits. -/
theorem reads_kept {bytes : Bytes} (parser : ReplyParser) (status : Nat)
    (kept : ∀ ch ∈ bytes, ch ≠ 0 ∧
      if parser.stage = .status then ch ≠ Byte.space ∧ ch ≠ dash
      else ch ≠ Byte.lf)
    (fits : parser.lineSize + bytes.length ≤ messageSize) :
    Reads parser status bytes (.goesOn
      ⟨parser.stage, parser.buf ++ bytes, parser.lineSize + bytes.length⟩
      status) := by
  induction bytes generalizing parser with
  | nil =>
    rw [List.append_nil]
    exact .nil parser status
  | cons ch rest ih =>
    obtain ⟨isKept, areKept⟩ := List.forall_mem_cons.mp kept
    rw [List.length_cons] at fits
    have goesOn : replyByte parser status ch = .goesOn (parser.push ch) status := by
      rw [replyByte_keep isKept.1 isKept.2, ReplyParser.keep, if_neg (by omega)]
    have reads := ih (parser.push ch) areKept (by rw [ReplyParser.push]; dsimp only; omega)
    simp only [ReplyParser.push, List.append_assoc, List.singleton_append] at reads
    rw [List.length_cons, Nat.add_comm rest.length, ← Nat.add_assoc]
    exact .more goesOn reads

/-- A line that does not fit. -/
theorem run_overlong {bytes : Bytes} (parser : ReplyParser) (status : Nat) (behind : Bytes)
    (notStatus : parser.stage ≠ .status) (kept : ∀ ch ∈ bytes, ch ≠ 0 ∧ ch ≠ Byte.lf)
    (started : parser.lineSize ≤ messageSize)
    (long : messageSize < parser.lineSize + bytes.length) :
    smtpresponseparserRun parser status (bytes ++ behind) = .error := by
  induction bytes generalizing parser with
  | nil => exact absurd long (Nat.not_lt.mpr started)
  | cons ch rest ih =>
    obtain ⟨isKept, areKept⟩ := List.forall_mem_cons.mp kept
    rw [List.length_cons] at long
    rw [List.cons_append, smtpresponseparserRun,
      replyByte_keep isKept.1 (by rw [if_neg notStatus]; exact isKept.2),
      ReplyParser.keep]
    by_cases full : messageSize - 1 < parser.lineSize
    · rw [if_pos full]
    · rw [if_neg full]
      apply ih (parser.push ch) notStatus areKept
      · exact Nat.succ_le_of_lt (Nat.lt_of_not_le fun isFull =>
          full (Nat.lt_of_lt_of_le (by decide) isFull))
      · rw [ReplyParser.push]
        dsimp only
        omega

theorem IsText.kept (isText : IsText text) : ∀ ch ∈ text ++ [Byte.cr], ch ≠ 0 ∧ ch ≠ Byte.lf := by
  have plain : ∀ byte, isTextByte byte = true → byte ≠ 0 ∧ byte ≠ Byte.lf :=
    forall_byte (by decide +kernel)
  intro ch isIn
  rcases List.mem_append.mp isIn with inText | isEnd
  · exact plain ch (isText ch inText)
  · rw [List.mem_singleton.mp isEnd]
    decide

/-- The stage behind the code of a line. -/
def textStage (separator : UInt8) : Stage :=
  if separator = Byte.space then .message else .continueMessage

theorem textStage_ne (separator : UInt8) : textStage separator ≠ .status := by
  unfold textStage
  split <;> nofun

section Lines

variable {digits : Bytes} (isCode : setStatus digits = some code)

include isCode

theorem digits_kept : digits.length = 3 ∧ ∀ ch ∈ digits, ch ≠ 0 ∧ ch ≠ Byte.space ∧ ch ≠ dash := by
  have plain : ∀ byte, isdigit byte = true → byte ≠ 0 ∧ byte ≠ Byte.space ∧ byte ≠ dash :=
    forall_byte (by decide +kernel)
  match digits, isCode with
  | [first, second, third], isCode =>
    rw [setStatus] at isCode
    split_ifs at isCode with areDigits
    refine ⟨rfl, ?_⟩
    simp only [List.forall_mem_cons]
    exact ⟨plain _ areDigits.1, plain _ areDigits.2.1, plain _ areDigits.2.2, List.forall_mem_nil _⟩

private theorem reads_digits (status : Nat) :
    Reads .init status digits (.goesOn ⟨.status, digits, 3⟩ status) := by
  obtain ⟨length, kept⟩ := digits_kept isCode
  have reads := reads_kept .init status kept (by rw [length]; decide)
  rw [length] at reads
  exact reads

/-- The code and the character behind it. -/
theorem reads_code (status : Nat) {separator : UInt8}
    (separates : separator = Byte.space ∨ separator = dash) :
    Reads .init status (digits ++ [separator]) (.goesOn ⟨textStage separator,
        digits ++ [separator], 4⟩ code) := by
  refine (reads_digits isCode status).append ?_
  have separated : replyByte ⟨.status, digits, 3⟩ status separator = .goesOn ⟨textStage separator,
        digits ++ [separator], 4⟩ code := by
    have notNul : separator ≠ 0 := by
      rintro rfl
      exact absurd separates (by decide)
    simp only [replyByte, isCode]
    rw [if_neg notNul, if_pos separates]
    rfl
  rw [← separated]
  exact .last _ _ _

variable {separator : UInt8} (separates : separator = Byte.space ∨ separator = dash)

include separates

/-- A line without its line feed. -/
theorem reads_line (status : Nat) (isText : IsText text) (fits : Fitting text) :
    Reads .init status (digits ++ separator :: (text ++ [Byte.cr])) (.goesOn ⟨textStage separator,
        digits ++ separator :: (text ++ [Byte.cr]), text.length + 5⟩ code) := by
  have short : 4 + (text ++ [Byte.cr]).length ≤ messageSize := by
    rw [List.length_append, List.length_singleton, messageSize]
    exact Nat.add_le_add_left (Nat.succ_le_succ fits) 4
  have kept := reads_kept ⟨textStage separator, digits ++ [separator], 4⟩ code (fun ch isIn => by
      rw [if_neg (textStage_ne separator)]
      exact isText.kept ch isIn) short
  have reads := (reads_code isCode status separates).append kept
  rw [List.append_assoc, List.singleton_append, List.length_append, Nat.add_comm 4] at reads
  exact reads

private theorem run_line_overlong (status : Nat) (isText : IsText text)
    (long : ¬ Fitting text) (behind : Bytes) :
    smtpresponseparserRun .init status (line digits separator text ++ behind) =
      .error := by
  have split : line digits separator text ++ behind =
      (digits ++ [separator]) ++ ((text ++ [Byte.cr]) ++ Byte.lf :: behind) := by
    simp [line]
  rw [split, smtpresponseparserRun_append, (reads_code isCode status separates).run]
  apply run_overlong _ _ _ (textStage_ne separator) isText.kept (Nat.le_of_ble_eq_true rfl)
  rw [List.length_append, List.length_singleton, messageSize]
  dsimp only
  unfold Fitting at long
  omega

end Lines

section Replies

variable {digits : Bytes} (isCode : setStatus digits = some code)

include isCode

theorem reads_continued (status : Nat) (isText : IsText text) (fits : Fitting text) :
    Reads .init status (line digits dash text) (.goesOn .init code) := by
  have reads := (reads_line isCode (Or.inr rfl) status isText fits).append (.last _ _ Byte.lf)
  rw [List.append_assoc, List.cons_append, List.append_assoc] at reads
  exact reads

private theorem reads_last (status : Nat) (isText : IsText text) (fits : Fitting text) :
    Reads .init status (line digits Byte.space text) (.complete code) := by
  have reads := (reads_line isCode (Or.inl rfl) status isText fits).append (.last _ _ Byte.lf)
  have completed : replyByte ⟨textStage Byte.space,
      digits ++ Byte.space :: (text ++ [Byte.cr]), text.length + 5⟩ code
        Byte.lf = .complete code := by
    have ended : [Byte.cr] <:+ digits ++ Byte.space :: (text ++ [Byte.cr]) :=
      ⟨digits ++ Byte.space :: text, by simp⟩
    exact if_pos ended
  rw [completed, List.append_assoc, List.cons_append, List.append_assoc] at reads
  exact reads

/-- The reply ends at its last byte. -/
theorem reads_reply (status : Nat) {continued : List Bytes}
    (areTexts : ∀ text ∈ continued, IsText text)
    (fitting : ∀ text ∈ continued, Fitting text) (isText : IsText text)
    (fits : Fitting text) :
    Reads .init status (replyText digits continued (some text)) (.complete code) := by
  induction continued generalizing status with
  | nil => exact reads_last isCode status isText fits
  | cons first rest ih =>
    rw [List.forall_mem_cons] at areTexts fitting
    rw [replyText, List.flatMap_cons, List.append_assoc]
    exact (reads_continued isCode status areTexts.1 fitting.1).append (ih code areTexts.2 fitting.2)

/-- A reply that is reported has a space in its last line, and its lines fit. -/
theorem fitting_of_complete (status : Nat) {continued : List Bytes}
    {last : Option Bytes} (areTexts : ∀ text ∈ continued, IsText text)
    (isText : ∀ text ∈ last, IsText text) {reported : Nat}
    (complete : smtpresponseparserRun .init status
      (replyText digits continued last) = .complete reported) :
    last.isSome ∧ (∀ text ∈ continued, Fitting text) ∧ ∀ text ∈ last, Fitting text := by
  induction continued generalizing status with
  | nil =>
    cases last with
    | none =>
      -- the line is kept as if it were the code of the next
      obtain ⟨length, kept⟩ := digits_kept isCode
      have reads := @reads_kept (digits ++ [Byte.cr, Byte.lf]) .init status (by
          intro ch isIn
          rcases List.mem_append.mp isIn with inDigits | isEnd
          · exact kept ch inDigits
          · have ends : ∀ ch ∈ [Byte.cr, Byte.lf], ch ≠ 0 ∧ ch ≠ Byte.space ∧ ch ≠ dash :=
              forall_mem_of_all (by decide)
            exact ends ch isEnd)
        (by rw [List.length_append, length]; decide)
      rw [replyText, List.flatMap_nil, List.nil_append, lastLine, reads.run] at complete
      cases complete
    | some text =>
      refine ⟨rfl, nofun, ?_⟩
      rintro other isOther
      cases isOther
      by_contra long
      have failed := run_line_overlong isCode (Or.inl rfl) status (isText text rfl) long []
      rw [List.append_nil] at failed
      rw [replyText, List.flatMap_nil, List.nil_append, lastLine, failed] at complete
      cases complete
  | cons first rest ih =>
    rw [List.forall_mem_cons] at areTexts
    rw [replyText, List.flatMap_cons, List.append_assoc] at complete
    have fits : Fitting first := by
      by_contra long
      rw [run_line_overlong isCode (Or.inr rfl) status areTexts.1 long] at complete
      cases complete
    rw [smtpresponseparserRun_append,
      (reads_continued isCode status areTexts.1 fits).run] at complete
    obtain ⟨spaced, fitting, lastFits⟩ := ih code areTexts.2 complete
    exact ⟨spaced, List.forall_mem_cons.mpr ⟨fits, fitting⟩, lastFits⟩

end Replies

/-- However it is cut into reads, the end of a reply is reported at its last
byte, and with its code, if and only if the last line has a space behind the
code and no line is too long for the parser. -/
theorem reply_reported_iff (digits : Bytes) (code status : Nat)
    (isCode : setStatus digits = some code) (continued : List Bytes) (last : Option Bytes)
    (areTexts : ∀ text ∈ continued ++ last.toList, IsText text) :
    (∀ reads : List Bytes, reads.flatten <+: replyText digits continued last →
      if reads.flatten = replyText digits continued last then
        readsVerdict .init status reads = .complete code
      else ∃ parser reached, readsVerdict .init status reads = .goesOn parser reached) ↔
      last.isSome ∧ ∀ text ∈ continued ++ last.toList, Fitting text := by
  rw [List.forall_mem_append] at areTexts
  have isText : ∀ text ∈ last, IsText text := fun text isLast =>
    areTexts.2 text (Option.mem_toList.mpr isLast)
  constructor
  · intro reported
    have whole : [replyText digits continued last].flatten =
        replyText digits continued last := List.flatten_singleton ..
    have complete := reported [replyText digits continued last] ⟨[], by rw [whole, List.append_nil]⟩
    rw [if_pos whole, readsVerdict_eq, whole] at complete
    obtain ⟨spaced, fitting, lastFits⟩ :=
      fitting_of_complete isCode status areTexts.1 isText complete
    exact ⟨spaced, List.forall_mem_append.mpr ⟨fitting,
      fun text isLast => lastFits text (Option.mem_toList.mp isLast)⟩⟩
  · rintro ⟨spaced, fitting⟩ reads leads
    obtain ⟨text, rfl⟩ := Option.isSome_iff_exists.mp spaced
    rw [List.forall_mem_append] at fitting
    have readsAll := reads_reply isCode status areTexts.1 fitting.1
      (isText text rfl) (fitting.2 text (List.mem_singleton_self text))
    rw [readsVerdict_eq]
    split
    next isWhole =>
      rw [isWhole]
      exact readsAll.run
    next shorter => exact readsAll.run_front leads shorter

theorem reply_reported_twoLines : readsVerdict .init 0 [ascii "250-mx\r\n25", ascii "0 ok\r\n"] =
      .complete 250 := by
  have reported := (reply_reported_iff (ascii "250") 250 0
    (by decide +kernel) [ascii "mx"] (some (ascii "ok"))
    (forall_mem_of_all (by decide +kernel))).mpr
    ⟨rfl, forall_mem_of_all (by decide +kernel)⟩
    [ascii "250-mx\r\n25", ascii "0 ok\r\n"] (by decide +kernel)
  rw [if_pos (by decide +kernel)] at reported
  exact reported

/-- A reply that is the code alone. -/
theorem reply_bare_code : replyText (ascii "250") [] none = ascii "250\r\n" ∧
    ∃ parser, readsVerdict .init 0 [ascii "250\r\n"] = .goesOn parser 0 :=
  ⟨by decide +kernel, ⟨.status, ascii "250\r\n", 5⟩, by rfl⟩

end CWebFramework.Smtp
