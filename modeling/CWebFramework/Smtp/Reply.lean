import CWebFramework.Misc.Bytes
import CWebFramework.Transition.Runs

/-!
# Replies

`smtpresponseparser_run`, `smtp_client_read` and the steps of sending a mail
that wait for a reply.  The reads of a client are given as a list of chunks;
behind them the server closes the connection, or a read fails.  What follows a
complete reply in its chunk is dropped.
-/

namespace CWebFramework.Smtp

abbrev dash : UInt8 := 45

/-! ## The parser -/

inductive Stage where
  | status
  | continueMessage
  | message
  deriving DecidableEq

structure ReplyParser where
  stage : Stage
  buf : Bytes
  lineSize : Nat
  deriving DecidableEq

def ReplyParser.init : ReplyParser := ⟨.status, [], 0⟩

def messageSize : Nat := 1024

inductive Verdict where
  | error
  | goesOn (parser : ReplyParser) (status : Nat)
  | complete (status : Nat)

def setStatus : Bytes → Option Nat
  | [first, second, third] =>
    if isdigit first ∧ isdigit second ∧ isdigit third then
      some ((first - 48).toNat * 100 + (second - 48).toNat * 10 + (third - 48).toNat)
    else none
  | _ => none

def ReplyParser.push (parser : ReplyParser) (ch : UInt8) : ReplyParser :=
  { parser with buf := parser.buf ++ [ch], lineSize := parser.lineSize + 1 }

/-- The branch of each stage that keeps a character of a line. -/
def ReplyParser.keep (parser : ReplyParser) (status : Nat) (ch : UInt8) :
    Verdict :=
  if messageSize - 1 < parser.lineSize then .error
  else .goesOn (parser.push ch) status

/-- A round of the loop of `smtpresponseparser_run`. -/
def replyByte (parser : ReplyParser) (status : Nat) (ch : UInt8) : Verdict :=
  match parser.stage with
  | .status =>
    if ch = 0 then .error
    else if ch = Byte.space ∨ ch = dash then
      match setStatus parser.buf with
      | none => .error
      | some code =>
        .goesOn { parser.push ch with
          stage := if ch = Byte.space then .message
            else .continueMessage } code
    else parser.keep status ch
  | .continueMessage =>
    if ch = Byte.lf then .goesOn .init status
    else if ch = 0 then .error
    else parser.keep status ch
  | .message =>
    if ch = Byte.lf then
      -- `__smtpresponseparser_set_message`
      if [Byte.cr] <:+ parser.buf then .complete status else .error
    else if ch = 0 then .error
    else parser.keep status ch

def smtpresponseparserRun (parser : ReplyParser) (status : Nat) : Bytes → Verdict
  | [] => .goesOn parser status
  | ch :: rest =>
    match replyByte parser status ch with
    | .goesOn next code => smtpresponseparserRun next code rest
    | verdict => verdict

/-! ## The steps -/

structure Client where
  parser : ReplyParser
  status : Nat
  incoming : List Bytes
  closes : Bool

inductive Command where
  | greeting
  | hello
  | startTls
  | sender
  | recipient
  | data
  | content
  | reset
  | quit
  deriving DecidableEq

/-- The test of the status behind each step. -/
def Command.accepts : Command → Nat → Bool
  | .greeting, status => status = 220 ∨ status = 250
  | .startTls, status => status = 220
  | .sender, status | .recipient, status | .content, status => status = 250
  | .data, status => status = 354
  | .hello, _ | .reset, _ | .quit, _ => true

def Client.start (incoming : List Bytes) (closes : Bool) : Client := ⟨.init, 0, incoming, closes⟩

/-! ## Complete replies -/

structure IsCode (digits : Bytes) (code : Nat) : Prop where
  set : setStatus digits = some code
  length : digits.length = 3
  plain : ∀ byte ∈ digits, byte ≠ Byte.lf

/-- A reply: lines with a dash behind their code, and a last line with a
space. -/
inductive IsReply (code : Nat) : Bytes → Prop
  | last {digits body : Bytes} (isCode : IsCode digits code) (noFeed : Byte.lf ∉ body) :
      IsReply code (digits ++ Byte.space :: (body ++ [Byte.cr, Byte.lf]))
  | continued {digits body reply : Bytes} {other : Nat}
      (isCode : IsCode digits other) (noFeed : Byte.lf ∉ body)
      (behind : IsReply code reply) :
      IsReply code (digits ++ dash :: (body ++ Byte.lf :: reply))

inductive Progress : Bytes → ReplyParser → Nat → Prop
  | status {buf : Bytes} (size status : Nat)
      (noSeparator : ∀ byte ∈ buf, byte ≠ Byte.space ∧ byte ≠ dash) :
      Progress buf ⟨.status, buf, size⟩ status
  | continuing {digits body : Bytes} {other : Nat} (size status : Nat)
      (isCode : IsCode digits other) (noFeed : Byte.lf ∉ body) :
      Progress (digits ++ dash :: body) ⟨.continueMessage, digits ++ dash :: body, size⟩ status
  | message {digits body : Bytes} {code : Nat} (size : Nat)
      (isCode : IsCode digits code) (noFeed : Byte.lf ∉ body) :
      Progress (digits ++ Byte.space :: body) ⟨.message, digits ++ Byte.space :: body, size⟩ code
  | behind {digits body rest : Bytes} {other status : Nat}
      {parser : ReplyParser} (isCode : IsCode digits other)
      (noFeed : Byte.lf ∉ body) (progress : Progress rest parser status) :
      Progress (digits ++ dash :: (body ++ Byte.lf :: rest)) parser status

def Verdict.Fits (text : Bytes) : Verdict → Prop
  | .error => True
  | .goesOn parser status => Progress text parser status
  | .complete status => IsReply status text

variable {text : Bytes} {parser : ReplyParser} {status : Nat}

variable {code : Nat} {reply : Bytes}

variable {client next : Client} {step : Step}

end CWebFramework.Smtp
