import CWebFramework.Smtp.Dkim

/-!
# Mail

`__mail_send_mail` of `protocols/smtp/mail.c` sends the commands `MAIL FROM`,
`RCPT TO` and `DATA` and then the message.  What the server answers and where
the connection breaks is a parameter.  The reader of a message cuts its header
block into fields; it has to find the fields that the library means to write.
-/

namespace CWebFramework.Smtp

open Base64

/-! ## Sending -/

/-- What the setters of a mail are given. -/
structure Payload where
  sender : Bytes
  senderName : Bytes
  recipient : Bytes
  subject : Bytes
  data : Bytes

/-- The texts that the setters leave. -/
structure Mail where
  fromWithName : Bytes
  sender : Bytes
  recipient : Bytes
  subject : Bytes
  data : Bytes

/-- `__mail_set_from`, `__mail_set_to`, `__mail_set_subject`. -/
def Payload.mail (payload : Payload) : Mail where
  fromWithName := ascii "=?UTF-8?B?" ++ base64Encode payload.senderName ++
    ascii "?= <" ++ payload.sender ++ ascii ">"
  sender := ascii "<" ++ payload.sender ++ ascii ">"
  recipient := ascii "<" ++ payload.recipient ++ ascii ">"
  subject := ascii "=?UTF-8?B?" ++ base64Encode payload.subject ++ ascii "?="
  data := payload.data

def Unbroken (text : Bytes) : Prop := ∀ byte ∈ text, byte ≠ Byte.cr ∧ byte ≠ Byte.lf

instance (text : Bytes) : Decidable (Unbroken text) := List.decidableBAll _ text

/-- The texts of a message that do not come from the payload.  The clock and
the configuration of the server give texts in one line; `tags` is the signature
before it is folded. -/
structure Surroundings where
  date : Bytes
  messageId : Bytes
  tags : Bytes
  date_unbroken : Unbroken date
  messageId_unbroken : Unbroken messageId
  tags_unbroken : Unbroken tags

def headers (around : Surroundings) (signature : Bytes) (mail : Mail) : List (Bytes × Bytes) :=
  [(ascii "From", mail.fromWithName), (ascii "To", mail.recipient),
    (ascii "Subject", mail.subject), (ascii "Date", around.date),
    (ascii "Message-Id", around.messageId),
    (ascii "DKIM-Signature", signature),
    (ascii "MIME-Version", ascii "1.0"),
    (ascii "Content-Transfer-Encoding", ascii "base64"),
    (ascii "Content-Type", ascii "text/html; charset=utf-8")]

def crlf : Bytes := [Byte.cr, Byte.lf]

def headerLine (header : Bytes × Bytes) : Bytes := header.1 ++ ascii ": " ++ header.2 ++ crlf

def mailBuildContent (around : Surroundings) (mail : Mail) : Bytes :=
  (headers around (dkimWrap around.tags) mail).flatMap headerLine ++ crlf ++
    (mail.data ++ ascii "\r\n.\r\n")

def commandSize : Nat := 1024

/-- How a step ends: the text cannot be written, the answer is missing or not
the required one, or the step succeeds. -/
inductive Outcome where
  | unwritten
  | refused
  | accepted

structure Sent where
  commands : List Bytes
  content : Option Bytes

/-- A step with `__mail_send_command`, and what follows it. -/
def mailSendCommand (outcome : Outcome) (text : Bytes) (next : Sent) : Sent :=
  if commandSize ≤ text.length then ⟨[], none⟩
  else match outcome with
    | .unwritten => ⟨[], none⟩
    | .refused => ⟨[text], none⟩
    | .accepted => { next with commands := text :: next.commands }

/-- The outcomes of the steps of a mail; `built` says that the content could be
built. -/
structure Outcomes where
  sender : Outcome
  recipient : Outcome
  data : Outcome
  built : Bool
  content : Outcome

def mailSendMail (around : Surroundings) (outcomes : Outcomes) (mail : Mail) :
    Sent :=
  mailSendCommand outcomes.sender (ascii "MAIL FROM: " ++ mail.sender ++ crlf) <|
  mailSendCommand outcomes.recipient (ascii "RCPT TO: " ++ mail.recipient ++ crlf) <|
  mailSendCommand outcomes.data (ascii "DATA" ++ crlf)
    { commands := []
      content := match outcomes.built, outcomes.content with
        | false, _ | _, .unwritten => none
        | true, _ => some (mailBuildContent around mail) }

/-! ## Reading a message -/

/-- A field of a header block without its line breaks, and what follows its
line end.  White space at the start of a line continues the field. -/
def readField : Bytes → Option (Bytes × Bytes)
  | [] => none
  | byte :: rest =>
    if byte = Byte.cr then
      match rest with
      | next :: blank :: more =>
        if next ≠ Byte.lf then none
        else if isOws blank then readField (blank :: more)
        else some ([], blank :: more)
      | _ => none
    else if byte = Byte.lf then none
    else (readField rest).map fun (text, behind) => (byte :: text, behind)

/-- The fields of a header block and the body behind its empty line. -/
def readFields : Nat → Bytes → Option (List (Bytes × Bytes) × Bytes)
  | 0, _ => none
  | fuel + 1, text =>
    if text.take 2 = crlf then some ([], text.drop 2)
    else do
      let (line, behind) ← readField text
      let (fields, body) ← readFields fuel behind
      return ((line.takeWhile (· != Byte.colon),
        (line.dropWhile (· != Byte.colon)).drop 2) :: fields, body)

/-- What has been written follows a list of expected lines, and the message is
as it is meant. -/
structure Sent.Follows (expected : List Bytes) (meant : Bytes → Prop) (sent : Sent) : Prop where
  commands : ∃ lines, sent.commands = lines.map (· ++ crlf) ∧
    (∀ line ∈ lines, Unbroken line) ∧ lines <+: expected
  content : ∀ content ∈ sent.content, meant content

/-- Each command is the one line that carries its address, and the reader of
the message finds the fields of the mail in front of the body. -/
def Sent.Exact (around : Surroundings) (payload : Payload) : Sent → Prop :=
  Sent.Follows [ascii "MAIL FROM: " ++ payload.mail.sender,
      ascii "RCPT TO: " ++ payload.mail.recipient, ascii "DATA"]
    fun content => readFields content.length content =
      some (headers around (tabbed 0 around.tags) payload.mail, payload.data ++ ascii "\r\n.\r\n")

/-! ## Fields -/

theorem unfoldLines_append {front : Bytes} (unbroken : Unbroken front) (text : Bytes) :
    unfoldLines (front ++ text) = (unfoldLines text).map (front ++ ·) := by
  induction front with
  | nil => simp
  | cons byte front ih =>
    obtain ⟨⟨noReturn, noFeed⟩, others⟩ := List.forall_mem_cons.mp unbroken
    rw [List.cons_append, unfoldLines_letter noReturn noFeed, ih others]
    simp [Function.comp_def]

private theorem unfoldLines_unbroken {text : Bytes} (unbroken : Unbroken text) :
    unfoldLines text = some text := by
  have whole := unfoldLines_append unbroken []
  rw [List.append_nil] at whole
  simpa [unfoldLines] using whole

theorem readField_append {text unfolded : Bytes}
    (unfolds : unfoldLines text = some unfolded) {next : UInt8}
    (letter : isOws next = false) (rest : Bytes) :
    readField (text ++ (crlf ++ next :: rest)) = some (unfolded, next :: rest) := by
  fun_induction unfoldLines text generalizing unfolded with
  | case1 =>
    cases unfolds
    simp [crlf, readField, letter]
  | case2 feed blank more isFold ih =>
    have folded := ih unfolds
    rw [List.cons_append] at folded
    simp [readField, isFold, folded]
  | case3 | case4 | case5 => cases unfolds
  | case6 byte rest noReturn noFeed ih =>
    obtain ⟨inner, isInner, rfl⟩ := Option.map_eq_some_iff.mp unfolds
    rw [List.cons_append, readField.eq_def]
    simp only [if_neg noReturn, if_neg noFeed, ih isInner]
    rfl

def IsKey (key : Bytes) : Prop :=
  key ≠ [] ∧ ∀ byte ∈ key, byte ≠ Byte.colon ∧ byte ≠ Byte.cr ∧ byte ≠ Byte.lf ∧ isOws byte = false

instance (key : Bytes) : Decidable (IsKey key) := @instDecidableAnd _ _ _ (List.decidableBAll _ key)

/-- The value of a field without its line breaks. -/
def unfolded (value : Bytes) : Bytes := (unfoldLines value).getD []

theorem IsKey.head {key : Bytes} (isKey : IsKey key) :
    ∃ first more, key = first :: more ∧ first ≠ Byte.cr ∧ isOws first = false := by
  obtain ⟨nonempty, plain⟩ := isKey
  obtain ⟨first, more, rfl⟩ := List.exists_cons_of_ne_nil nonempty
  have isPlain := plain first List.mem_cons_self
  exact ⟨first, more, rfl, isPlain.2.1, isPlain.2.2.2⟩

private theorem flatMap_headerLine_head {fields : List (Bytes × Bytes)}
    (keys : ∀ field ∈ fields, IsKey field.1) (body : Bytes) :
    ∃ next rest, fields.flatMap headerLine ++ crlf ++ body = next :: rest ∧ isOws next = false := by
  cases fields with
  | nil => exact ⟨Byte.cr, Byte.lf :: body, rfl, by decide⟩
  | cons field fields =>
    obtain ⟨first, more, isKey, -, letter⟩ := (keys field List.mem_cons_self).head
    simp [List.flatMap_cons, headerLine, isKey, letter]

/-- A reader finds the fields that were written. -/
theorem readFields_flatMap {fields : List (Bytes × Bytes)} (keys : ∀ field ∈ fields, IsKey field.1)
    (values : ∀ field ∈ fields, (unfoldLines field.2).isSome = true)
    {fuel : Nat} (enough : fields.length < fuel) (body : Bytes) :
    readFields fuel (fields.flatMap headerLine ++ crlf ++ body) =
      some (fields.map fun field => (field.1, unfolded field.2), body) := by
  induction fields generalizing fuel with
  | nil =>
    obtain ⟨fuel, rfl⟩ := Nat.exists_eq_succ_of_ne_zero (by omega : fuel ≠ 0)
    rfl
  | cons field fields ih =>
    obtain ⟨fuel, rfl⟩ := Nat.exists_eq_succ_of_ne_zero (by omega : fuel ≠ 0)
    obtain ⟨isKey, otherKeys⟩ := List.forall_mem_cons.mp keys
    obtain ⟨isValue, otherValues⟩ := List.forall_mem_cons.mp values
    obtain ⟨value, unfolds⟩ := Option.isSome_iff_exists.mp isValue
    have behind := ih otherKeys otherValues (Nat.lt_of_succ_lt_succ enough)
    obtain ⟨next, rest, isRest, letter⟩ := flatMap_headerLine_head otherKeys body
    have front : Unbroken (field.1 ++ ascii ": ") := by
      refine List.forall_mem_append.mpr ⟨fun byte isIn => ?_, forall_mem_of_all (by decide)⟩
      exact ⟨(isKey.2 byte isIn).2.1, (isKey.2 byte isIn).2.2.1⟩
    have line : readField ((field :: fields).flatMap headerLine ++ crlf ++
        body) = some (field.1 ++ ascii ": " ++ value,
          fields.flatMap headerLine ++ crlf ++ body) := by
      have unfoldsAll := unfoldLines_append front field.2
      rw [unfolds] at unfoldsAll
      have read := readField_append unfoldsAll letter rest
      rw [← isRest] at read
      simpa [headerLine] using read
    have noEnd : ((field :: fields).flatMap headerLine ++ crlf ++ body).take 2 ≠ crlf := by
      obtain ⟨first, more, isFirst, noReturn, -⟩ := isKey.head
      intro same
      rw [List.flatMap_cons, headerLine, isFirst] at same
      exact noReturn (List.cons.inj same).1
    have stops : ∀ byte ∈ field.1, (byte != Byte.colon) = true :=
      fun byte isIn => bne_iff_ne.mpr (isKey.2 byte isIn).1
    have spelled : ascii ": " = [Byte.colon, Byte.space] := by decide
    rw [readFields, if_neg noEnd, line]
    simp only [Option.bind_eq_bind, Option.bind_some, behind]
    simp [spelled, List.takeWhile_append_of_pos stops,
      List.dropWhile_append_of_pos stops, unfolded, unfolds]

/-! ## Messages -/

theorem unbroken_append {first second : Bytes} :
    Unbroken (first ++ second) ↔ Unbroken first ∧ Unbroken second :=
  List.forall_mem_append

private theorem unbroken_base64Encode (bytes : Bytes) : Unbroken (base64Encode bytes) := by
  intro byte isIn
  have large := (base64Encode_plain isIn).1
  constructor <;> rintro rfl <;> exact absurd large (by decide)

theorem mailBuildContent_fields (around : Surroundings) {payload : Payload}
    (sender : Unbroken payload.sender)
    (recipient : Unbroken payload.recipient) :
    readFields (mailBuildContent around payload.mail).length
        (mailBuildContent around payload.mail) =
      some (headers around (tabbed 0 around.tags) payload.mail,
        payload.data ++ ascii "\r\n.\r\n") := by
  have folded := unfoldLines_wrap around.tags_unbroken 0
  have fromValue : Unbroken payload.mail.fromWithName := by
    simp only [Payload.mail, unbroken_append, unbroken_base64Encode, sender]
    decide
  have toValue : Unbroken payload.mail.recipient := by
    simp only [Payload.mail, unbroken_append, recipient]
    decide
  have subject : Unbroken payload.mail.subject := by
    simp only [Payload.mail, unbroken_append, unbroken_base64Encode]
    decide
  have version : Unbroken (ascii "1.0") := by decide
  have encoding : Unbroken (ascii "base64") := by decide
  have type : Unbroken (ascii "text/html; charset=utf-8") := by decide
  have keys : ∀ field ∈ headers around (dkimWrap around.tags) payload.mail, IsKey field.1 := by
    simp only [headers, List.forall_mem_cons]
    decide
  have values : ∀ field ∈ headers around (dkimWrap around.tags) payload.mail,
      (unfoldLines field.2).isSome = true := by
    simp [headers, unfoldLines_unbroken, fromValue, toValue, subject,
      around.date_unbroken, around.messageId_unbroken, dkimWrap, folded,
      version, encoding, type]
  have meant : (headers around (dkimWrap around.tags) payload.mail).map
      (fun field => (field.1, unfolded field.2)) =
        headers around (tabbed 0 around.tags) payload.mail := by
    simp [headers, unfolded, unfoldLines_unbroken, fromValue, toValue,
      subject, around.date_unbroken, around.messageId_unbroken, dkimWrap,
      folded, version, encoding, type]
  have enough : (headers around (dkimWrap around.tags) payload.mail).length <
      (mailBuildContent around payload.mail).length := by
    simp only [mailBuildContent, headers, List.flatMap_cons, headerLine, crlf,
      List.length_append, List.length_cons]
    omega
  have read := readFields_flatMap keys values enough (payload.data ++ ascii "\r\n.\r\n")
  rw [meant] at read
  exact read

/-! ## Commands -/

/-- What a step leaves is as expected exactly if it writes nothing, or writes
one line and then goes on as expected. -/
theorem follows_mailSendCommand (line : Bytes) (outcome : Outcome)
    (expected : List Bytes) (meant : Bytes → Prop) (next : Sent) :
    (mailSendCommand outcome (line ++ crlf) next).Follows (line :: expected) meant ↔
      (commandSize ≤ line.length + 2 ∨ outcome = .unwritten) ∨ Unbroken line ∧
          (outcome = .accepted → next.Follows expected meant) := by
  have nothing : (⟨[], none⟩ : Sent).Follows (line :: expected) meant :=
    ⟨⟨[], rfl, by simp, List.nil_prefix⟩, by simp⟩
  have size : (line ++ crlf).length = line.length + 2 := by simp [crlf]
  have first {lines : List Bytes} {others : List Bytes}
      (same : (line ++ crlf) :: others = lines.map (· ++ crlf)) :
      ∃ rest, lines = line :: rest ∧ others = rest.map (· ++ crlf) := by
    cases lines with
    | nil => cases same
    | cons other rest =>
      rw [List.map_cons, List.cons.injEq, List.append_left_inj] at same
      exact ⟨rest, by rw [same.1], same.2⟩
  simp only [mailSendCommand, size]
  by_cases long : commandSize ≤ line.length + 2
  · simp [long, nothing]
  · cases outcome with
    | unwritten => simp [long, nothing]
    | refused =>
      simp only [long, if_false, false_or, reduceCtorEq, false_imp_iff, and_true]
      constructor
      · rintro ⟨⟨lines, same, unbroken, -⟩, -⟩
        obtain ⟨rest, rfl, -⟩ := first same
        exact unbroken line List.mem_cons_self
      · intro unbroken
        exact ⟨⟨[line], rfl, by simpa using unbroken, by simp⟩, by simp⟩
    | accepted =>
      simp only [long, if_false, false_or, reduceCtorEq, true_imp_iff]
      constructor
      · rintro ⟨⟨lines, same, unbroken, isFront⟩, content⟩
        obtain ⟨rest, rfl, isRest⟩ := first same
        rw [List.forall_mem_cons] at unbroken
        exact ⟨unbroken.1, ⟨rest, isRest, unbroken.2,
          (List.prefix_cons_inj line).mp isFront⟩, content⟩
      · rintro ⟨unbroken, ⟨lines, same, others, isFront⟩, content⟩
        refine ⟨⟨line :: lines, ?_, ?_, ?_⟩, content⟩
        · rw [same, List.map_cons]
        · exact List.forall_mem_cons.mpr ⟨unbroken, others⟩
        · exact (List.prefix_cons_inj line).mpr isFront

/-- The addresses have no line breaks, as far as their commands are short
enough to be written. -/
def Payload.Harmless (payload : Payload) : Prop :=
  commandSize ≤ payload.sender.length + 15 ∨ Unbroken payload.sender ∧
    (commandSize ≤ payload.recipient.length + 13 ∨ Unbroken payload.recipient)

/-- Nothing can be injected into a mail exactly if the addresses have no line
breaks. -/
theorem mailSendMail_exact_iff (around : Surroundings) (payload : Payload) :
    (∀ outcomes, (mailSendMail around outcomes payload.mail).Exact around
      payload) ↔ payload.Harmless := by
  have constant : Unbroken (ascii "MAIL FROM: ") ∧
      Unbroken (ascii "RCPT TO: ") ∧ Unbroken (ascii "<") ∧
        Unbroken (ascii ">") ∧ Unbroken (ascii "DATA") := by decide
  have senderLine : Unbroken (ascii "MAIL FROM: " ++ payload.mail.sender) ↔
      Unbroken payload.sender := by
    simp only [Payload.mail, unbroken_append, constant, true_and, and_true]
  have recipientLine : Unbroken (ascii "RCPT TO: " ++ payload.mail.recipient) ↔
      Unbroken payload.recipient := by
    simp only [Payload.mail, unbroken_append, constant, true_and, and_true]
  have senderSize : (ascii "MAIL FROM: " ++ payload.mail.sender).length + 2 =
      payload.sender.length + 15 := by
    simp [Payload.mail, ascii]
  have recipientSize : (ascii "RCPT TO: " ++ payload.mail.recipient).length + 2 =
        payload.recipient.length + 13 := by
    simp [Payload.mail, ascii]
  simp only [Sent.Exact, mailSendMail, follows_mailSendCommand, senderLine,
    recipientLine, senderSize, recipientSize]
  constructor
  · intro exact
    have accepted := exact ⟨.accepted, .accepted, .accepted, true, .accepted⟩
    simp only [reduceCtorEq, or_false, true_imp_iff] at accepted
    exact accepted.imp_right fun sent => ⟨sent.1, sent.2.imp_right And.left⟩
  · rintro (long | ⟨sender, long | recipient⟩) outcomes
    · exact .inl (.inl long)
    · exact .inr ⟨sender, fun _ => .inl (.inl long)⟩
    · refine .inr ⟨sender, fun _ => .inr ⟨recipient, fun _ =>
        .inr ⟨constant.2.2.2.2, fun _ => ⟨⟨[], rfl, by simp, by simp⟩, ?_⟩⟩⟩⟩
      intro content isContent
      dsimp only at isContent
      split at isContent
      · cases isContent
      · cases isContent
      · cases isContent
        exact mailBuildContent_fields around sender recipient

def injecting : Payload where
  sender := ascii "a@b>\r\nRCPT TO: <c@d"
  senderName := []
  recipient := ascii "e@f"
  subject := []
  data := []

def sampleSurroundings : Surroundings where
  date := ascii "Mon, 01 Jan 2024 00:00:00 +0000"
  messageId := ascii "<20240101000000@f>"
  tags := ascii "v=1; b="
  date_unbroken := by decide
  messageId_unbroken := by decide
  tags_unbroken := by decide

/-- The sender adds a recipient to the mail. -/
theorem mailSendMail_injects : ¬(mailSendMail sampleSurroundings
        ⟨.accepted, .accepted, .accepted, true, .accepted⟩
        injecting.mail).Exact sampleSurroundings injecting := by
  rw [Sent.Exact, mailSendMail, follows_mailSendCommand]
  rintro ((long | unwritten) | ⟨unbroken, -⟩)
  · exact absurd long (by decide)
  · cases unwritten
  · exact absurd unbroken (by decide)

end CWebFramework.Smtp
