import CWebFramework.Http.QueryString

/-!
# The URLs of the HTTP client

`httpclientparser.c`: a URL is split into the scheme, the host, the port and the
target of the request.  The loop looks at one character after the other; a
character that ends a part in front of the target is read again as the first one
of the target.

Allocations are assumed to succeed.
-/

namespace CWebFramework.HttpClient

open Http

inductive UrlStage where
  | protocol
  | protocolSlash1
  | protocolSlash2
  | host
  | port
  | uri
  deriving DecidableEq, Repr

inductive UrlError where
  | badProtocol
  | badProtocolSeparator
  | badHost
  | badPort
  | badUri
  deriving DecidableEq, Repr

/-- `httpclientparser_t`. A pointer that is `NULL` is `none`; a query that is
`NULL` is the empty list. -/
structure UrlParser where
  stage : UrlStage
  buf : Bytes
  useSsl : Bool
  port : Nat
  host : Option Bytes
  uri : Option Bytes
  path : Option Bytes
  query : List Query
  deriving DecidableEq, Repr

/-- `httpclientparser_reset` and the flag that `__httpclient_set_url` takes over
from the client. -/
def httpclientparserReset (useSsl : Bool) : UrlParser where
  stage := .protocol
  buf := []
  useSsl := useSsl
  port := 0
  host := none
  uri := none
  path := none
  query := []

/-! ## The parts of a URL -/

def UrlParser.setProtocol (parser : UrlParser) : Option UrlParser :=
  if (ascii "https").isPrefixOf parser.buf then
    some { parser with useSsl := true, port := 443 }
  else if (ascii "http").isPrefixOf parser.buf then
    some { parser with useSsl := false, port := 80 }
  else none

def UrlParser.setHost (parser : UrlParser) : Option UrlParser :=
  if parser.buf = [] then none
  else some { parser with host := some parser.buf }

def UrlParser.setPort (parser : UrlParser) : Option UrlParser :=
  if parser.buf = [] ∨ parser.buf.all isdigit = false then none
  else if digitsValue parser.buf = 0 ∨ 65535 < digitsValue parser.buf then
    none
  else some { parser with port := digitsValue parser.buf }

/-- `__httpclientparser_set_uri` with `__httpclientparser_set_query` and
`__httpclientparser_set_path`. The uri is put together from the decoded path and
the pairs of the query. -/
def UrlParser.setUri (parser : UrlParser) : Option UrlParser :=
  let string := if parser.buf = [] then [Byte.slash] else parser.buf
  let query :=
    match string.dropWhile (! isPathEnd ·) with
    | byte :: text =>
      if byte = Byte.question then queryparserParse text else parser.query
    | [] => parser.query
  let before := string.takeWhile (! isPathEnd ·)
  let path := urldecodel (if before = [] then [Byte.slash] else before)
  if isPathTraversal path then none
  else
    some { parser with
      path := some path
      query := query
      uri := some (path ++ (if query = [] then [] else [Byte.question]) ++
        (queryStringify query).getD []) }

/-! ## The loop -/

/-- The label `start_uri`: a character of the target. The last one ends it. -/
def UrlParser.startUri (parser : UrlParser) (byte : UInt8) (last : Bool) :
    Except UrlError UrlParser :=
  let pushed := { parser with buf := parser.buf ++ [byte] }
  if last then
    match pushed.setUri with
    | none => .error .badUri
    | some done => .ok { done with buf := [] }
  else .ok pushed

def startsTarget (byte : UInt8) : Bool :=
  byte == Byte.slash || byte == Byte.question || byte == Byte.hash

def protocolByte (parser : UrlParser) (byte : UInt8) (last : Bool) : Except UrlError UrlParser :=
  if byte = Byte.slash then
    if parser.buf ≠ [] then .error .badProtocol
    else UrlParser.startUri { parser with stage := .uri } byte last
  else if byte = Byte.colon then
    match parser.setProtocol with
    | none => .error .badProtocol
    | some named => .ok { named with stage := .protocolSlash1, buf := [] }
  else if last then .error .badProtocol
  else if 5 ≤ parser.buf.length then .error .badProtocol
  else .ok { parser with buf := parser.buf ++ [byte] }

def slashByte (parser : UrlParser) (next : UrlStage) (byte : UInt8) : Except UrlError UrlParser :=
  if byte = Byte.slash then .ok { parser with stage := next }
  else .error .badProtocolSeparator

/-- `CLIENTPARSER_HOST`. A colon at the end of the URL goes on to the target
with the stage of a port. -/
def hostByte (parser : UrlParser) (byte : UInt8) (last : Bool) : Except UrlError UrlParser :=
  if byte = Byte.colon then
    match parser.setHost with
    | none => .error .badHost
    | some hosted =>
      let behind := { hosted with stage := .port, buf := [] }
      if last then behind.startUri Byte.slash last else .ok behind
  else if startsTarget byte then
    match parser.setHost with
    | none => .error .badHost
    | some hosted =>
      UrlParser.startUri { hosted with stage := .uri, buf := [] } byte last
  else if last then
    match UrlParser.setHost { parser with buf := parser.buf ++ [byte] } with
    | none => .error .badHost
    | some hosted =>
      UrlParser.startUri { hosted with stage := .uri, buf := [] } Byte.slash last
  else .ok { parser with buf := parser.buf ++ [byte] }

def portByte (parser : UrlParser) (byte : UInt8) (last : Bool) : Except UrlError UrlParser :=
  if startsTarget byte then
    match parser.setPort with
    | none => .error .badPort
    | some numbered =>
      UrlParser.startUri { numbered with stage := .uri, buf := [] } byte last
  else if last then
    match UrlParser.setPort { parser with buf := parser.buf ++ [byte] } with
    | none => .error .badPort
    | some numbered =>
      UrlParser.startUri { numbered with stage := .uri, buf := [] } Byte.slash last
  else if 5 ≤ parser.buf.length then .error .badPort
  else .ok { parser with buf := parser.buf ++ [byte] }

def UrlParser.byte (parser : UrlParser) (byte : UInt8) (last : Bool) : Except UrlError UrlParser :=
  match parser.stage with
  | .protocol => protocolByte parser byte last
  | .protocolSlash1 => slashByte parser .protocolSlash2 byte
  | .protocolSlash2 => slashByte parser .host byte
  | .host => hostByte parser byte last
  | .port => portByte parser byte last
  | .uri => parser.startUri byte last

def UrlParser.loop (parser : UrlParser) : Bytes → Except UrlError UrlParser
  | [] => .ok parser
  | byte :: rest =>
    match parser.byte byte rest.isEmpty with
    | .error error => .error error
    | .ok next => next.loop rest

/-- `httpclientparser_parse` behind `httpclientparser_reset`. -/
def httpclientparserParse (useSsl : Bool) (url : Bytes) : Except UrlError UrlParser :=
  if cstring url = [] then .error .badProtocol
  else
    match (httpclientparserReset useSsl).loop (cstring url) with
    | .error error => .error error
    | .ok parser =>
      match parser.stage with
      | .protocolSlash1 | .protocolSlash2 => .error .badProtocolSeparator
      | .host => .error .badHost
      | .port => .error .badPort
      | .protocol | .uri => .ok parser

/-! ## Accepted URLs -/

def targetPath (target : Bytes) : Bytes :=
  let before := target.takeWhile (! isPathEnd ·)
  urldecodel (if before = [] then [Byte.slash] else before)

def targetQuery (target : Bytes) : List Query :=
  match target.dropWhile (! isPathEnd ·) with
  | byte :: text => if byte = Byte.question then queryparserParse text else []
  | [] => []

def joinUri (path : Bytes) (query : List Query) : Bytes :=
  path ++ (if query = [] then [] else [Byte.question]) ++ (queryStringify query).getD []

def IsTarget (target : Bytes) : Prop :=
  ∃ byte rest, target = byte :: rest ∧ startsTarget byte = true

/-- The parser has taken a path, a query and a uri from a target. -/
structure UrlParser.Takes (parser : UrlParser) (target : Bytes) : Prop where
  isTarget : IsTarget target
  path : parser.path = some (targetPath target)
  query : parser.query = targetQuery target
  uri : parser.uri = some (joinUri (targetPath target) (targetQuery target))
  inside : isPathTraversal (targetPath target) = false

/-- What holds in front of the last character. -/
structure UrlParser.Waits (parser : UrlParser) : Prop where
  noQuery : parser.query = []
  target : parser.stage = .uri → IsTarget parser.buf

private theorem isTarget_concat {target : Bytes} (isTarget : IsTarget target)
    (byte : UInt8) : IsTarget (target ++ [byte]) := by
  obtain ⟨first, rest, rfl, starts⟩ := isTarget
  exact ⟨first, rest ++ [byte], rfl, starts⟩

variable {parser : UrlParser}

theorem UrlParser.setUri_eq (noQuery : parser.query = []) (nonempty : parser.buf ≠ []) :
    parser.setUri =
      if isPathTraversal (targetPath parser.buf) then none
      else
        some { parser with
          path := some (targetPath parser.buf)
          query := targetQuery parser.buf
          uri := some (joinUri (targetPath parser.buf) (targetQuery parser.buf)) } := by
  rw [UrlParser.setUri, if_neg nonempty, noQuery]
  rfl

theorem UrlParser.setUri_takes {done : UrlParser}
    (noQuery : parser.query = []) (isTarget : IsTarget parser.buf)
    (isSet : parser.setUri = some done) :
    done.Takes parser.buf ∧ done.stage = parser.stage := by
  have nonempty : parser.buf ≠ [] := by
    obtain ⟨byte, rest, same, _⟩ := isTarget
    rw [same]
    exact List.cons_ne_nil byte rest
  rw [UrlParser.setUri_eq noQuery nonempty] at isSet
  split_ifs at isSet with traversal
  cases isSet
  exact ⟨⟨isTarget, rfl, rfl, rfl, Bool.not_eq_true _ ▸ traversal⟩, rfl⟩

/-- A part of the URL that could be set. -/
theorem ok_of_set {part : Option UrlParser} {error : UrlError}
    {go : UrlParser → Except UrlError UrlParser} {next : UrlParser}
    (step : (match part with
      | none => Except.error error
      | some found => go found) = .ok next) :
    ∃ found, part = some found ∧ go found = .ok next := by
  cases part with
  | none => cases step
  | some found => exact ⟨found, rfl, step⟩

section Step

variable {parser next : UrlParser}

theorem UrlParser.startUri_last {byte : UInt8}
    (noQuery : parser.query = []) (isTarget : IsTarget (parser.buf ++ [byte]))
    (step : parser.startUri byte true = .ok next) :
    next.stage = parser.stage ∧ ∃ target, next.Takes target := by
  unfold UrlParser.startUri at step
  rw [if_pos rfl] at step
  split at step
  · cases step
  · rename_i done isSet
    cases step
    obtain ⟨takes, sameStage⟩ := UrlParser.setUri_takes (by exact noQuery) (by exact isTarget) isSet
    exact ⟨sameStage, _, takes.isTarget, takes.path, takes.query, takes.uri, takes.inside⟩

theorem UrlParser.startUri_waits {byte : UInt8}
    (noQuery : parser.query = []) (isTarget : IsTarget (parser.buf ++ [byte]))
    (step : parser.startUri byte false = .ok next) : next.Waits := by
  cases step
  exact ⟨noQuery, fun _ => isTarget⟩

end Step

theorem UrlParser.setProtocol_query {named : UrlParser} (isSet : parser.setProtocol = some named) :
    named.query = parser.query := by
  unfold UrlParser.setProtocol at isSet
  split_ifs at isSet <;> cases isSet <;> rfl

theorem UrlParser.setHost_query {hosted : UrlParser}
    (isSet : parser.setHost = some hosted) : hosted.query = parser.query := by
  unfold UrlParser.setHost at isSet
  split_ifs at isSet
  cases isSet
  rfl

theorem UrlParser.setPort_query {numbered : UrlParser} (isSet : parser.setPort = some numbered) :
    numbered.query = parser.query := by
  unfold UrlParser.setPort at isSet
  split_ifs at isSet
  cases isSet
  rfl

/-- What a character does: it belongs to a part in front of the target, or to
the target. -/
inductive UrlStep (parser : UrlParser) (last : Bool) (next : UrlParser) : Prop where
  | before (query : next.query = parser.query) (notUri : next.stage ≠ .uri)
      (incomplete : last = true → next.stage ≠ .protocol) :
      UrlStep parser last next
  | target (start : UrlParser) (byte : UInt8) (query : start.query = parser.query)
      (stage : start.stage = .uri ∨ last = true ∧ start.stage = .port)
      (isTarget : IsTarget (start.buf ++ [byte]))
      (step : start.startUri byte last = .ok next) :
      UrlStep parser last next

section Cases

variable {parser next : UrlParser} {byte : UInt8} {last : Bool}

theorem isTarget_singleton (starts : startsTarget byte = true) : IsTarget ([] ++ [byte]) :=
  ⟨byte, [], rfl, starts⟩

theorem protocolByte_step (stage : parser.stage = .protocol)
    (step : protocolByte parser byte last = .ok next) :
    UrlStep parser last next := by
  unfold protocolByte at step
  split_ifs at step with slash collected colon atEnd long
  · rw [not_ne_iff] at collected
    refine .target { parser with stage := .uri } byte rfl (Or.inl rfl) ?_ step
    rw [collected, slash]
    exact isTarget_singleton rfl
  · obtain ⟨named, isSet, step⟩ := ok_of_set step
    have sameQuery := UrlParser.setProtocol_query isSet
    cases step
    exact .before sameQuery nofun nofun
  · cases step
    refine .before rfl ?_ fun isLast => absurd isLast atEnd
    rw [stage]
    exact nofun

theorem slashByte_step {stage : UrlStage} (notUri : stage ≠ .uri) (notProtocol : stage ≠ .protocol)
    (step : slashByte parser stage byte = .ok next) :
    UrlStep parser last next := by
  unfold slashByte at step
  split_ifs at step
  cases step
  exact .before rfl notUri fun _ => notProtocol

theorem hostByte_step (stage : parser.stage = .host) (step : hostByte parser byte last = .ok next) :
    UrlStep parser last next := by
  unfold hostByte at step
  split_ifs at step with colon colonLast starts atEnd
  · obtain ⟨hosted, isSet, step⟩ := ok_of_set step
    have sameQuery := UrlParser.setHost_query isSet
    exact .target { hosted with stage := .port, buf := [] } Byte.slash
      sameQuery (Or.inr ⟨colonLast, rfl⟩) (isTarget_singleton rfl) step
  · obtain ⟨hosted, isSet, step⟩ := ok_of_set step
    have sameQuery := UrlParser.setHost_query isSet
    cases step
    exact .before sameQuery nofun nofun
  · obtain ⟨hosted, isSet, step⟩ := ok_of_set step
    have sameQuery := UrlParser.setHost_query isSet
    exact .target { hosted with stage := .uri, buf := [] } byte sameQuery
      (Or.inl rfl) (isTarget_singleton starts) step
  · obtain ⟨hosted, isSet, step⟩ := ok_of_set step
    have sameQuery := UrlParser.setHost_query isSet
    exact .target { hosted with stage := .uri, buf := [] } Byte.slash
      sameQuery (Or.inl rfl) (isTarget_singleton rfl) step
  · cases step
    refine .before rfl ?_ fun isLast => absurd isLast atEnd
    rw [stage]
    exact nofun

theorem portByte_step (stage : parser.stage = .port) (step : portByte parser byte last = .ok next) :
    UrlStep parser last next := by
  unfold portByte at step
  split_ifs at step with starts atEnd long
  · obtain ⟨numbered, isSet, step⟩ := ok_of_set step
    have sameQuery := UrlParser.setPort_query isSet
    exact .target { numbered with stage := .uri, buf := [] } byte sameQuery
      (Or.inl rfl) (isTarget_singleton starts) step
  · obtain ⟨numbered, isSet, step⟩ := ok_of_set step
    have sameQuery := UrlParser.setPort_query isSet
    exact .target { numbered with stage := .uri, buf := [] } Byte.slash
      sameQuery (Or.inl rfl) (isTarget_singleton rfl) step
  · cases step
    refine .before rfl ?_ fun isLast => absurd isLast atEnd
    rw [stage]
    exact nofun

theorem UrlParser.byte_step (waits : parser.Waits)
    (step : parser.byte byte last = .ok next) : UrlStep parser last next := by
  unfold UrlParser.byte at step
  cases stage : parser.stage with
  | protocol =>
    rw [stage] at step
    exact protocolByte_step stage step
  | protocolSlash1 =>
    rw [stage] at step
    dsimp only at step
    exact slashByte_step (by decide) (by decide) step
  | protocolSlash2 =>
    rw [stage] at step
    dsimp only at step
    exact slashByte_step (by decide) (by decide) step
  | host =>
    rw [stage] at step
    exact hostByte_step stage step
  | port =>
    rw [stage] at step
    exact portByte_step stage step
  | uri =>
    rw [stage] at step
    exact .target parser byte rfl (Or.inl stage) (isTarget_concat (waits.target stage) byte) step

theorem UrlParser.byte_waits (waits : parser.Waits)
    (step : parser.byte byte false = .ok next) : next.Waits := by
  cases UrlParser.byte_step waits step with
  | before query notUri =>
    exact ⟨query.trans waits.noQuery, fun isUri => absurd isUri notUri⟩
  | target start first query _ isTarget started =>
    exact UrlParser.startUri_waits (query.trans waits.noQuery) isTarget started

theorem UrlParser.byte_last (waits : parser.Waits) (step : parser.byte byte true = .ok next)
    (complete : next.stage = .protocol ∨ next.stage = .uri) :
    ∃ target, next.Takes target := by
  cases UrlParser.byte_step waits step with
  | before _ notUri notProtocol =>
    rcases complete with isProtocol | isUri
    · exact absurd isProtocol (notProtocol rfl)
    · exact absurd isUri notUri
  | target start first query _ isTarget started =>
    exact (UrlParser.startUri_last (query.trans waits.noQuery) isTarget started).2

end Cases

theorem UrlParser.loop_takes {final : UrlParser} {text : Bytes} (waits : parser.Waits)
    (nonempty : text ≠ []) (run : parser.loop text = .ok final)
    (complete : final.stage = .protocol ∨ final.stage = .uri) :
    ∃ target, final.Takes target := by
  induction text generalizing parser with
  | nil => exact absurd rfl nonempty
  | cons byte rest ih =>
    rw [UrlParser.loop] at run
    cases step : parser.byte byte rest.isEmpty with
    | error error =>
      rw [step] at run
      cases run
    | ok next =>
      rw [step] at run
      cases rest with
      | nil =>
        cases run
        exact UrlParser.byte_last waits step complete
      | cons following others =>
        exact ih (UrlParser.byte_waits waits step) (List.cons_ne_nil _ _) run

theorem httpclientparserParse_loop {useSsl : Bool} {url : Bytes}
    (accepted : httpclientparserParse useSsl url = .ok parser) :
    cstring url ≠ [] ∧ (httpclientparserReset useSsl).loop (cstring url) = .ok parser ∧
      (parser.stage = .protocol ∨ parser.stage = .uri) := by
  unfold httpclientparserParse at accepted
  split_ifs at accepted with empty
  split at accepted
  · cases accepted
  · rename_i final run
    cases stage : final.stage <;> rw [stage] at accepted <;> cases accepted
    · exact ⟨empty, run, Or.inl stage⟩
    · exact ⟨empty, run, Or.inr stage⟩

/-- An accepted URL has a target, from which the path, the query and the uri are
taken. -/
theorem httpclientparserParse_takes {useSsl : Bool} {url : Bytes}
    (accepted : httpclientparserParse useSsl url = .ok parser) :
    ∃ target, parser.Takes target := by
  obtain ⟨nonempty, run, complete⟩ := httpclientparserParse_loop accepted
  have fresh : (httpclientparserReset useSsl).Waits := ⟨rfl, nofun⟩
  exact UrlParser.loop_takes fresh nonempty run complete

end CWebFramework.HttpClient
