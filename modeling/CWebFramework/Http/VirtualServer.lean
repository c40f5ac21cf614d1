import CWebFramework.Http.ConnectionPhases
import CWebFramework.Http.ParserSteps

/-!
# The virtual server of a request

The parser selects the server of a request by its `Host` header and stores it
in the connection.  `__handle` uses it at once: the server that a request is
dispatched with depends on its own `Host` header only.  A queued handler reads
the field again when a worker runs it, and by then the parser may have replaced
it for a later request.
-/

namespace CWebFramework.Http

open Transition

/-! ## The server that a `Host` header selects -/

/-- The server for a `Host` value. `initial` is the server of the connection
before its first request; with SNI no other one is possible. -/
def hostServer (env : Env) (initial : Server) (value : Bytes) :
    Option Server := do
  let domain ← hostDomain value
  let asciiDomain ← idnToAscii env domain
  selectServer env initial asciiDomain

/-- The server is the one that the `Host` headers of the request select. -/
def OwnServer (env : Env) (initial : Server) (request : Request) (server : Server) : Prop :=
  ∀ header ∈ request.headers, headerIsHost header = true →
    hostServer env initial header.value = some server

def Entry.UsesOwnServer (env : Env) (initial : Server) : Entry → Prop
  | .dispatched request server | .ran (some request) server =>
    OwnServer env initial request server
  | _ => True

/-- The condition on the steps: when a worker takes a request from the queue,
`ctx->server` still has the value with which the request was dispatched, since
the reader has not replaced it for another one. -/
def KeepsServer (connection : Connection) : Action → Prop
  | .work =>
    ∀ item ∈ connection.ctx.queue.head?, ∀ request ∈ item.origin,
      .dispatched request connection.parser.connection.server ∈ connection.ctx.log
  | _ => True

/-- The server of a TLS connection with SNI is fixed. -/
def KeepsSni (env : Env) (initial : Server) (connection : ParserConnection) :
    Prop :=
  (env.ssl && env.servername) = true → connection.server = initial

theorem KeepsSni.selectServer {env : Env} {initial : Server}
    {connection : ParserConnection} (keeps : KeepsSni env initial connection)
    (host : Bytes) :
    selectServer env connection.server host =
      selectServer env initial host := by
  unfold Http.selectServer
  split
  · rename_i sni
    rw [keeps sni]
  · rfl

variable {env : Env}

private theorem selectServer_sni {current server : Server} {host : Bytes}
    (sni : (env.ssl && env.servername) = true)
    (selected : selectServer env current host = some server) :
    server = current := by
  unfold selectServer at selected
  rw [if_pos sni] at selected
  split at selected
  · exact (Option.some.inj selected).symm
  · cases selected

/-! ## The parser -/

def ParserState.completedHeaders (state : ParserState) : List Header :=
  if state.stage = .headerSpace ∨ state.stage = .headerValue then
    state.currentRequest.headers.dropLast
  else
    state.currentRequest.headers

/-- The server in the parser state is the one that the `Host` header of the
message selects, once it is complete. -/
structure HostFollows (env : Env) (initial : Server) (state : ParserState) : Prop where
  sni : KeepsSni env initial state.connection
  unseen : state.hostHeaderSeen = false →
    ∀ header ∈ state.completedHeaders, headerIsHost header = false
  selected : ∀ header ∈ state.completedHeaders, headerIsHost header = true →
    hostServer env initial header.value = some state.connection.server

section HostFollows

variable {env : Env} {initial : Server} {state next : ParserState}

/-- The part of the state that `HostFollows` speaks about. -/
theorem HostFollows.congr (follows : HostFollows env initial state)
    (sameServer : next.connection.server = state.connection.server)
    (sameSeen : next.hostHeaderSeen = state.hostHeaderSeen)
    (sameHeaders : next.completedHeaders = state.completedHeaders) :
    HostFollows env initial next where
  sni := fun sni => sameServer.trans (follows.sni sni)
  unseen := by
    rw [sameSeen, sameHeaders]
    exact follows.unseen
  selected := by
    rw [sameServer, sameHeaders]
    exact follows.selected

theorem httpparserInit_hostFollows {connection : ParserConnection}
    (keeps : KeepsSni env initial connection) :
    HostFollows env initial (httpparserInit env connection) where
  sni := keeps
  unseen := fun _ _ member => by cases member
  selected := fun _ member => by cases member

/-- An accepted value completes a header; a `Host` header is the first one and
selects the server. -/
theorem HeaderAccepted.hostFollows {valued : ParserState} {request : Request} {header : Header}
    (accepted : HeaderAccepted env state request header valued)
    (follows : HostFollows env initial state)
    (sameServer : next.connection.server = valued.connection.server)
    (sameSeen : next.hostHeaderSeen = valued.hostHeaderSeen)
    (headers : ∀ candidate ∈ next.completedHeaders,
      candidate ∈ state.completedHeaders ∨ candidate = header) :
    HostFollows env initial next := by
  have seen : next.hostHeaderSeen = (state.hostHeaderSeen || headerIsHost header) := by
    rw [sameSeen]
    obtain ⟨hostFound, server, contentLength, rfl⟩ := accepted.unchanged
    rfl
  cases isHost : headerIsHost header with
  | false =>
    have same := sameServer.trans (accepted.otherServer isHost)
    rw [isHost, Bool.or_false] at seen
    exact {
      sni := fun sni => same.trans (follows.sni sni)
      unseen := by
        intro unseen candidate member
        rcases headers candidate member with earlier | rfl
        · exact follows.unseen (seen ▸ unseen) candidate earlier
        · exact isHost
      selected := by
        intro candidate member candidateHost
        rcases headers candidate member with earlier | rfl
        · rw [same]
          exact follows.selected candidate earlier candidateHost
        · rw [isHost] at candidateHost
          cases candidateHost }
  | true =>
    obtain ⟨domain, asciiDomain, domainRead, converted, selected⟩ := accepted.selectedServer isHost
    rw [← sameServer] at selected
    have first := follows.unseen (accepted.hostFresh isHost)
    exact {
      sni := fun sni =>
        (selectServer_sni sni selected).trans (follows.sni sni)
      unseen := by simp [seen, isHost]
      selected := by
        intro candidate member candidateHost
        rcases headers candidate member with earlier | rfl
        · rw [first candidate earlier] at candidateHost
          cases candidateHost
        · rw [follows.sni.selectServer] at selected
          simp [hostServer, domainRead, converted, selected] }

private theorem completedHeader_mem {request : Request} {value : Bytes} {candidate : Header}
    (member : candidate ∈ setLastValue request.headers value) :
    candidate ∈ request.headers.dropLast ∨ candidate = completedHeader request value := by
  unfold completedHeader
  unfold setLastValue at member ⊢
  split at member
  · rename_i last present
    rcases List.mem_append.mp member with earlier | latest
    · exact .inl earlier
    · refine .inr ?_
      rw [List.mem_singleton.mp latest]
      simp
  · cases member

theorem HeadStep.hostFollows {byte : UInt8} (step : HeadStep env state byte next)
    (follows : HostFollows env initial state) :
    HostFollows env initial next := by
  cases step with
  | blank => exact follows
  | pad => exact follows
  | methodChar stage => exact follows.congr rfl rfl rfl
  | methodEnd stage =>
    refine follows.congr rfl rfl ?_
    simp [ParserState.completedHeaders, stage, ParserState.currentRequest]
  | uriChar stage => exact follows.congr rfl rfl rfl
  | uriEnd stage token =>
    refine follows.congr rfl rfl ?_
    have headers := (httpparserSetUri_some token).2.2.1
    simpa [ParserState.completedHeaders, stage, ParserState.currentRequest] using headers
  | protocolChar stage => exact follows.congr rfl rfl rfl
  | protocolEnd stage =>
    refine follows.congr rfl rfl ?_
    simp [ParserState.completedHeaders, stage, ParserState.currentRequest]
  | lineEnd stage =>
    refine follows.congr rfl rfl ?_
    rcases stage with stage | stage <;>
      simp [ParserState.completedHeaders, stage, ParserState.currentRequest]
  | keyChar stage => exact follows.congr rfl rfl rfl
  | keyEnd stage =>
    refine follows.congr rfl rfl ?_
    simp [ParserState.completedHeaders, stage, ParserState.currentRequest]
  | blockEnd stage =>
    refine follows.congr rfl rfl ?_
    simp [ParserState.completedHeaders, stage, ParserState.currentRequest]
  | valueChar stage =>
    refine follows.congr rfl rfl ?_
    rcases stage with ⟨stage, -⟩ | stage <;>
      simp [ParserState.completedHeaders, stage, ParserState.currentRequest]
  | @valueEnd valued stage accepted =>
    have before : HostFollows env initial
        { state with
          stage := .headerValue
          buf := bufferdataComplete state.buf } := by
      refine follows.congr rfl rfl ?_
      rcases stage with stage | stage <;>
        simp [ParserState.completedHeaders, stage, ParserState.currentRequest]
    refine accepted.hostFollows before rfl rfl ?_
    intro candidate member
    have latest : candidate ∈ setLastValue state.currentRequest.headers
        (state.buf.contents.rdropWhile isOws) := by
      obtain ⟨hostFound, server, contentLength, rfl⟩ := accepted.unchanged
      rw [← completedHeader_value state.currentRequest (state.buf.contents.rdropWhile isOws)]
      rw [← (requestWithValue_fields state.currentRequest _).2.2.2.2]
      exact member
    exact completedHeader_mem latest
  | bodyStart stage =>
    refine follows.congr rfl rfl ?_
    simp [ParserState.completedHeaders, stage, ParserState.currentRequest]

private theorem hostFollows_invariant (env : Env) (initial : Server) :
    ParserInvariant env (HostFollows env initial) where
  step := fun step follows => step.hostFollows follows
  headEnd := by
    intro state stage follows
    refine follows.congr rfl rfl ?_
    simp [ParserState.completedHeaders, stage, ParserState.currentRequest]
  clear := fun follows => httpparserInit_hostFollows follows.sni
  payload := by
    intro state request piece savedLength started follows
    refine follows.congr rfl rfl ?_
    simp [ParserState.completedHeaders, ParserState.currentRequest, started]

theorem HostFollows.ownServer (follows : HostFollows env initial state)
    (stage : state.stage = .payload) :
    OwnServer env initial state.currentRequest state.connection.server := by
  have selected := follows.selected
  simp only [ParserState.completedHeaders, stage, reduceCtorEq, or_self, if_false] at selected
  exact selected

end HostFollows

/-! ## The connection -/

/-- Every request of the log uses its own server. -/
def LogUsesOwnServer (env : Env) (initial : Server) (log : List Entry) :
    Prop :=
  ∀ entry ∈ log, entry.UsesOwnServer env initial

variable {initial : Server}

theorem LogUsesOwnServer.concat {log : List Entry}
    (uses : LogUsesOwnServer env initial log) {entry : Entry}
    (last : entry.UsesOwnServer env initial) :
    LogUsesOwnServer env initial (log ++ [entry]) := by
  intro candidate member
  rcases List.mem_append.mp member with earlier | latest
  · exact uses candidate earlier
  · rw [List.mem_singleton.mp latest]
    exact last

private theorem handleRequest_ownServer (app : Application) (mode : PostMode)
    {request : Request} {connection : ParserConnection} {ctx : ServerCtx}
    (own : OwnServer env initial request connection.server)
    (uses : LogUsesOwnServer env initial ctx.log) :
    LogUsesOwnServer env initial (handleRequest app mode request connection ctx).1.log := by
  rw [handleRequest_log]
  exact uses.concat own

theorem serverLayer_ownServer (env : Env) (app : Application) (initial : Server) :
    LoopInvariant env (serverLayer app) (HostFollows env initial) (fun request connection =>
        OwnServer env initial request connection.server)
      (fun ctx => LogUsesOwnServer env initial ctx.log)
      (fun ctx => LogUsesOwnServer env initial ctx.log) where
  complete := by
    intro parser next status follows run ends
    have kept := (hostFollows_invariant env initial).httpparserRun follows
    rw [run] at kept
    exact ⟨kept.holds.ownServer (kept.stage ends), fun _ =>
      httpparserInit_hostFollows kept.holds.sni⟩
  unfinished := by
    intro parser next status follows run _ _
    have kept := (hostFollows_invariant env initial).httpparserRun follows
    rw [run] at kept
    exact kept.holds
  deferred := fun own uses => handleRequest_ownServer app .deferred own uses
  direct := fun own uses => handleRequest_ownServer app .direct own uses
  rejected := by
    intro status connection ctx uses
    show LogUsesOwnServer env initial (rejectMessage app status connection ctx).log
    rw [(rejectMessage_frame app status connection ctx).1]
    exact uses.concat trivial

structure Connection.Faithful (env : Env) (initial : Server) (connection : Connection) : Prop where
  sound : connection.Sound
  follows : HostFollows env initial connection.parser
  uses : LogUsesOwnServer env initial connection.ctx.log

theorem workerTurn_uses (app : Application) {connection : Connection}
    (scheduled : connection.ctx.scheduled ≠ 0) (keeps : KeepsServer connection .work)
    (faithful : connection.Faithful env initial) :
    LogUsesOwnServer env initial (workerTurn app connection).ctx.log := by
  cases destroyed : connection.destroyed with
  | true => simpa [workerTurn, destroyed] using faithful.uses
  | false =>
    have waiting := (faithful.sound.live destroyed).isScheduled scheduled
    obtain ⟨item, queue, response, log, queued, turned, logged⟩ :=
      workerTurn_frame app destroyed waiting
    have sameLog : (workerTurn app connection).ctx.log = log := by
      rw [turned]
    rw [sameLog]
    rcases logged with rfl | rfl
    · exact faithful.uses
    · refine faithful.uses.concat ?_
      cases origin : item.origin with
      | none => trivial
      | some request =>
        -- The dispatch used the own server, and the worker uses the same.
        have own := faithful.uses _ (keeps item (by simp [queued]) request (by simp [origin]))
        exact own

private theorem writerTurn_uses {connection : Connection} {staged : Staged}
    (count : Nat) (present : connection.ctx.staged = some staged)
    (uses : LogUsesOwnServer env initial connection.ctx.log) :
    LogUsesOwnServer env initial (writerTurn staged count connection).ctx.log := by
  rcases writerTurn_frame count present with
    ⟨log, -⟩ | ⟨log, -⟩ | ⟨log, -⟩
  · rw [log]
    exact uses
  · rw [log]
    exact uses.concat trivial
  · rw [log]
    exact uses.concat trivial

theorem Turn.faithful {env : Env} {app : Application} {initial : Server}
    {connection next : Connection} {action : Action} (turn : Turn env app connection action next)
    (keeps : KeepsServer connection action)
    (faithful : connection.Faithful env initial) :
    next.Faithful env initial := by
  have nextSound := turn.sound faithful.sound
  cases turn with
  | @read buffers result alive mask cut used =>
    have satisfied := readConnection_satisfies
      (serverLayer_ownServer env app initial) buffers connection.parser
      { connection.ctx with
        log := connection.ctx.log ++ [.received buffers] }
      faithful.follows (faithful.uses.concat trivial)
    rw [used] at satisfied
    have reached : LogUsesOwnServer env initial result.ext.log := by
      cases ret : result.ret with
      | readData => exact satisfied.reading (.inl ret)
      | closed => exact satisfied.reading (.inr ret)
      | complete => exact satisfied.answered (.inl ret)
      | rejected => exact satisfied.answered (.inr ret)
    refine ⟨nextSound, ?_, ?_⟩
    · split <;> exact satisfied.parser
    · split <;> exact reached
  | work scheduled =>
    refine ⟨nextSound, ?_, workerTurn_uses app scheduled keeps faithful⟩
    rw [(workerTurn_keeps app connection).1]
    exact faithful.follows
  | @write staged count alive present fits =>
    refine ⟨nextSound, ?_, writerTurn_uses count present faithful.uses⟩
    rw [writerTurn_keeps]
    exact faithful.follows
  | writeNothing _ _ _ =>
    exact ⟨nextSound, faithful.follows, faithful.uses⟩
  | close => exact ⟨nextSound, faithful.follows, faithful.uses⟩
  | hangUp => exact ⟨nextSound, faithful.follows, faithful.uses⟩

/-- Every request with a `Host` header is dispatched with the server that this
header selects, and run with it as long as the reader has not replaced the
server of the connection between the dispatch and the run. -/
theorem served_by_own_host (env : Env) (app : Application)
    (server : Server) {actions : List Action} {reached : Connection}
    (keeps : (connectionSystem env app).Meets KeepsServer (connectionCreate env server) actions)
    (run : (connectionSystem env app).exec (connectionCreate env server) actions = some reached) :
    ∀ entry ∈ reached.ctx.log, entry.UsesOwnServer env server := by
  have start : (connectionCreate env server).Faithful env server :=
    ⟨connectionCreate_sound env server, httpparserInit_hostFollows fun _ => rfl,
      fun _ member => by cases member⟩
  have faithful : reached.Faithful env server :=
    (connectionSystem env app).exec_invariant
      (fun condition step => (perform_turn step).faithful condition)
      keeps run start
  exact faithful.uses

def ranServers (log : List Entry) : List (Option Request × Server) :=
  log.filterMap fun entry =>
    match entry with
    | .ran origin server => some (origin, server)
    | _ => none

def twoServers : List Server := [.plain (ascii "a") (ascii "/") 0, .plain (ascii "b") (ascii "/") 1]

theorem served_by_own_host_one_request : ∃ reached,
      (connectionSystem (.plain twoServers) .plain).exec (connectionCreate (.plain twoServers)
            (.plain (ascii "a") (ascii "/") 0))
          [.read [ascii "GET / HTTP/1.1\r\nHost: b\r\n\r\n"], .work] =
          some reached ∧
        (ranServers reached.ctx.log).map Prod.snd = [.plain (ascii "b") (ascii "/") 1] ∧
        ∀ entry ∈ reached.ctx.log, entry.UsesOwnServer (.plain twoServers)
          (.plain (ascii "a") (ascii "/") 0) := by
  have keeps : (connectionSystem (.plain twoServers) .plain).Meets KeepsServer
        (connectionCreate (.plain twoServers) (.plain (ascii "a") (ascii "/") 0))
        [.read [ascii "GET / HTTP/1.1\r\nHost: b\r\n\r\n"], .work] := by
    refine ⟨trivial, fun next step => ?_⟩
    cases step
    refine ⟨?_, fun _ _ => trivial⟩
    intro item taken request origin
    cases taken
    cases origin
    decide
  exact ⟨_, rfl, by decide, served_by_own_host _ _ _ keeps rfl⟩

/-- The first request is the same in both runs, and only the `Host` header of
the second one differs. It decides which server runs the first request. -/
theorem later_host_changes_server : ∃ left right, (connectionSystem (.plain twoServers) .plain).exec
          (connectionCreate (.plain twoServers) (.plain (ascii "a") (ascii "/") 0))
          [.read [ascii "GET / HTTP/1.1\r\nHost: a\r\n\r\n" ++
            ascii "GET / HTTP/1.1\r\nHost: a\r\n\r\n"], .work] = some left ∧
        (connectionSystem (.plain twoServers) .plain).exec (connectionCreate (.plain twoServers)
            (.plain (ascii "a") (ascii "/") 0))
          [.read [ascii "GET / HTTP/1.1\r\nHost: a\r\n\r\n" ++
            ascii "GET / HTTP/1.1\r\nHost: b\r\n\r\n"], .work] =
          some right ∧
        (ranServers left.ctx.log).map Prod.fst = (ranServers right.ctx.log).map Prod.fst ∧
        (ranServers left.ctx.log).map Prod.snd = [.plain (ascii "a") (ascii "/") 0] ∧
        (ranServers right.ctx.log).map Prod.snd = [.plain (ascii "b") (ascii "/") 1] :=
  ⟨_, _, rfl, rfl, by decide, by decide, by decide⟩

end CWebFramework.Http
