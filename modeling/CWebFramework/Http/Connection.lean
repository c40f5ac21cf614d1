import CWebFramework.Http.Dispatch
import CWebFramework.Http.ReadLoop
import CWebFramework.Transition.Runs

/-!
# The server side of one connection

The reader, the worker threads and the writer of a connection share the fields
of `connection_server_ctx_t` under the connection lock.  One action of the
system is one turn under that lock: a call of `__read`, of the item that a
worker takes from the queue, or of `__write`.  The event mask decides which of
the reader and the writer the event loop may call.

The messages of other connections, broadcasts and the switch to another
protocol are left out.  The log is not part of the program: it records what
happened, for the statements about runs.
-/

namespace CWebFramework.Http

/-- The masks that `control_mod` is called with: `MPXIN | MPXRDHUP`,
`MPXOUT | MPXRDHUP`, `MPXONESHOT` and `MPXOUT | MPXIN | MPXHUP`. -/
inductive Mask where
  | input
  | output
  | oneshot
  | closing
  deriving DecidableEq, Repr

/-- What happened on a connection. A response without a request answers a
message that the parser has rejected. -/
inductive Entry where
  | received (buffers : List Bytes)
  | dispatched (request : Request) (server : Server)
  | rejected (status : Nat)
  | ran (origin : Option Request) (server : Server)
  | completed (origin : Option Request) (response : Bytes)
  deriving DecidableEq, Repr

/-- What a queue item does when a worker runs it: `__queue_request_handler`
or `__queue_response_handler`. -/
inductive Task where
  | run (handler : HandlerPtr) (ratelimiter : Option RatelimiterPtr)
  | send (response : Bytes)
  deriving DecidableEq, Repr

/-- `connection_queue_item_t` with its data. `origin` is the request as it was
parsed and stands for the identity of the request object, `request` its
content after redirects and route parameters. -/
structure QueueItem where
  origin : Option Request
  request : Option Request
  task : Task
  deriving DecidableEq, Repr

/-- `ctx->request` and `ctx->response` with the number of bytes that are
written. -/
structure Staged where
  origin : Option Request
  response : Bytes
  written : Nat
  deriving DecidableEq, Repr

/-- `connection_server_ctx_t`. `scheduled` counts the entries of the connection
in the queue of the worker threads. -/
structure ServerCtx where
  queue : List QueueItem
  staged : Option Staged
  needWrite : Bool
  broadcastRefCount : Nat
  mask : Mask
  scheduled : Nat
  log : List Entry
  deriving DecidableEq, Repr

/-- What the server runs: the surroundings may change with the history, the
handlers and middlewares are those of the application, and `render` stands for
the response filters. -/
structure Application where
  around : List Entry → Surroundings
  render : Reply → Option Request → Bool → Bytes
  /-- `run_middlewares`; a middleware that stops the request leaves its
  response. -/
  middlewares : List MiddlewarePtr → Request → Option Bytes
  handler : HandlerPtr → Server → Request → Bool → Bytes

/-- An application without files whose responses and handlers send one
letter. -/
def Application.plain : Application where
  around _ := {
    pcreExec := fun template path =>
      if template = path then { count := 1, vector := [(0, path.length)] }
      else { count := -1, vector := [] }
    fileFullPath := fun _ _ => (.notFound, [])
    ratelimiterAllow := fun _ => true }
  render _ _ _ := ascii "r"
  middlewares _ _ := none
  handler _ _ _ _ := ascii "h"

/-! ## Queueing -/

/-- `__deferred_handler` with `connection_queue_append`. -/
def deferredHandler (item : QueueItem) (ctx : ServerCtx) : ServerCtx :=
  let appended := { ctx with queue := ctx.queue ++ [item] }
  if ctx.queue ≠ [] then appended
  else if ctx.broadcastRefCount = 1 then
    { appended with
      broadcastRefCount := 2
      mask := .oneshot
      scheduled := ctx.scheduled + 1 }
  else
    appended

def postResponse (origin request : Option Request) (response : Bytes)
    (ctx : ServerCtx) : ServerCtx :=
  if ctx.queue = [] then
    { ctx with
      staged := some { origin := origin, response := response, written := 0 }
      needWrite := true
      mask := .output }
  else
    deferredHandler
      { origin := origin, request := request, task := .send response } ctx

/-- `__handle` with the post function. -/
def handleRequest (app : Application) (mode : PostMode) (request : Request)
    (connection : ParserConnection) (ctx : ServerCtx) : ServerCtx × Bool :=
  let decision := decideService (app.around ctx.log) connection.server request connection.keepalive
  let ctx :=
    { ctx with log := ctx.log ++ [.dispatched request connection.server] }
  let item (task : Task) : QueueItem :=
    { origin := some request, request := some decision.request, task := task }
  let render (reply : Reply) : Bytes := app.render reply (some decision.request) decision.keepalive
  match decision.service, mode with
  | .queue (.request handler ratelimiter), _ =>
    (deferredHandler (item (.run handler ratelimiter)) ctx, decision.keepalive)
  | .queue (.response reply), _ =>
    (deferredHandler (item (.send (render reply))) ctx, decision.keepalive)
  | .post reply, .deferred =>
    (deferredHandler (item (.send (render reply))) ctx, decision.keepalive)
  | .post reply, .direct =>
    (postResponse (some request) (some decision.request) (render reply) ctx, decision.keepalive)

/-- `__post_response_default` for a message that the parser rejects. -/
def rejectMessage (app : Application) (status : Nat)
    (connection : ParserConnection) (ctx : ServerCtx) : ServerCtx :=
  postResponse none none (app.render (.default status) none connection.keepalive)
    { ctx with log := ctx.log ++ [.rejected status] }

def serverLayer (app : Application) : ConnectionLayer ServerCtx where
  handle := handleRequest app
  postResponseDefault := rejectMessage app

/-! ## The connection -/

structure Connection where
  parser : ParserState
  ctx : ServerCtx
  destroyed : Bool
  closed : Bool
  sent : Bytes
  deriving DecidableEq

/-- `connection_s_alloc` and `set_http`: the server is the first one of the
listener, unless the handshake has selected another. -/
def connectionCreate (env : Env) (server : Server) : Connection where
  parser := httpparserInit env { keepalive := false, server := server }
  ctx := {
    queue := []
    staged := none
    needWrite := false
    broadcastRefCount := 1
    mask := .input
    scheduled := 0
    log := [] }
  destroyed := false
  closed := false
  sent := []

inductive Action where
  /-- The event loop calls `__read`, which uses up these buffers. -/
  | read (buffers : List Bytes)
  /-- A worker takes the connection from the queue of the workers. -/
  | work
  /-- The event loop calls `__write`, which writes this number of bytes. -/
  | write (count : Nat)
  /-- The event loop closes a connection that is marked as destroyed. -/
  | close
  /-- The event loop closes a connection because of its socket. -/
  | hangUp
  deriving DecidableEq, Repr

def connectionClose (connection : Connection) : Connection :=
  { connection with destroyed := true, closed := true }

def connectionAfterWrite (connection : Connection) : Connection :=
  let ctx := connection.ctx
  if ! connection.parser.connection.keepalive then
    { connection with
      destroyed := true
      ctx := { ctx with mask := .closing } }
  else
    let ctx := { ctx with staged := none, needWrite := false }
    if ctx.queue ≠ [] then
      { connection with
        ctx := { ctx with
          scheduled := ctx.scheduled + 1
          mask := .oneshot } }
    else
      { connection with
        ctx := { ctx with
          broadcastRefCount :=
            if ctx.broadcastRefCount = 2 then 1 else ctx.broadcastRefCount
          mask := .input } }

/-- Set `ctx->request` and `ctx->response`, and `connection_after_read`. -/
def stageResponse (origin : Option Request) (response : Bytes) (ctx : ServerCtx) : ServerCtx :=
  { ctx with
    staged := some { origin := origin, response := response, written := 0 }
    mask := .output }

def runRequest (app : Application) (connection : ParserConnection)
    (handler : HandlerPtr) (request : Request) : Bytes :=
  match app.middlewares connection.server.middleware request with
  | some response => response
  | none =>
    app.handler handler connection.server request connection.keepalive

def runItem (app : Application) (connection : ParserConnection)
    (item : QueueItem) (ctx : ServerCtx) : ServerCtx :=
  let request := item.request.getD httprequestCreate
  match item.task with
  | .send response => stageResponse item.origin response ctx
  | .run handler ratelimiter =>
    if ! (app.around ctx.log).ratelimiterAllow ratelimiter then
      stageResponse item.origin (app.render .limited (some request) connection.keepalive) ctx
    else
      stageResponse item.origin (runRequest app connection handler request)
        { ctx with
          log := ctx.log ++ [.ran item.origin connection.server] }

/-- `thread_handler` for one connection. -/
def workerTurn (app : Application) (connection : Connection) : Connection :=
  let ctx :=
    { connection.ctx with scheduled := connection.ctx.scheduled - 1 }
  if connection.destroyed then { connection with ctx := ctx }
  else
    match ctx.queue with
    | [] => { connection with ctx := ctx }
    | item :: queue =>
      { connection with
        ctx := runItem app connection.parser.connection item
          { ctx with queue := queue } }

/-- `__write` when it writes the given number of bytes. -/
def writerTurn (staged : Staged) (count : Nat) (connection : Connection) :
    Connection :=
  let connection :=
    { connection with
      sent := connection.sent ++ (staged.response.drop staged.written).take count }
  if staged.written + count = staged.response.length then
    connectionAfterWrite
      { connection with
        ctx := { connection.ctx with
          log := connection.ctx.log ++ [.completed staged.origin staged.response] } }
  else
    { connection with
      ctx := { connection.ctx with
        staged := some { staged with written := staged.written + count } } }

/-- `__read` over buffers that it uses up. -/
def readerTurn (env : Env) (app : Application) (buffers : List Bytes)
    (connection : Connection) : Option Connection :=
  let ctx :=
    { connection.ctx with
      log := connection.ctx.log ++ [.received buffers] }
  match readConnection env (serverLayer app) connection.parser ctx buffers with
  | (result, []) =>
    let reached :=
      { connection with parser := result.state, ctx := result.ext }
    some (if result.ret = .closed then connectionClose reached else reached)
  | (_, _ :: _) => none

def connectionSystem (env : Env) (app : Application) : Transition.System Connection Action where
  perform connection
    | .read buffers =>
      if connection.destroyed ∨ connection.ctx.mask ≠ .input ∨ ¬ IsReadCut buffers then none
      else readerTurn env app buffers connection
    | .work =>
      if connection.ctx.scheduled = 0 then none
      else some (workerTurn app connection)
    | .write count =>
      if connection.destroyed ∨ ¬ (connection.ctx.mask = .output ∨ connection.ctx.needWrite) then
        none
      else
        match connection.ctx.staged with
        | none => some (connectionClose connection)
        | some staged =>
          if staged.response.length < staged.written + count then none
          else some (writerTurn staged count connection)
    | .close =>
      if connection.destroyed ∧ ¬ connection.closed then
        some (connectionClose connection)
      else none
    | .hangUp =>
      if connection.closed then none else some (connectionClose connection)

end CWebFramework.Http
