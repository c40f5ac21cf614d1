import CWebFramework.Http.Redirect

/-!
# Serving a request

`__handle` and `__handler_added_to_queue`: a request is answered by a redirect,
by a route of the virtual server, or by a file below the document root.  All of
them read `ctx->server`.

The result is a `Service`: a response that is given to one of the post
functions, or an item for the queue of the connection.  What a response looks
like on the wire is not decided here.
-/

namespace CWebFramework.Http

inductive FileStatus where
  | ok
  | forbidden
  | notFound
  deriving DecidableEq, Repr

/-- A response that the server prepares without running a handler. -/
inductive Reply where
  | default (status : Nat)
  /-- `429` with `Retry-After`. -/
  | limited
  | redirect (location : Bytes) (status : Nat)
  | file (path : Bytes)
  deriving DecidableEq, Repr

/-- The `run` function of a queue item: `__queue_request_handler` with the
handler and the rate limiter of its data, or `__queue_response_handler`. -/
inductive Runner where
  | request (handler : HandlerPtr) (ratelimiter : Option RatelimiterPtr)
  | response (reply : Reply)
  deriving DecidableEq, Repr

/-- What `__handle` does with a request: the reply goes to the post function,
or the item goes to the queue. -/
inductive Service where
  | post (reply : Reply)
  | queue (runner : Runner)
  deriving DecidableEq, Repr

/-- The surroundings of `__handle`: PCRE, the file system and the state of the
rate limiters. -/
structure Surroundings where
  pcreExec : Bytes → Bytes → PcreMatch
  /-- `http_get_file_full_path` with the path that it writes. -/
  fileFullPath : (root path : Bytes) → FileStatus × Bytes
  ratelimiterAllow : Option RatelimiterPtr → Bool

def routeComparePrimitive (route : Route) (path : Bytes) : Bool := route.path == path

def ratelimiterFind (server : Server) (route : Route) : Option RatelimiterPtr :=
  match route.ratelimiter with
  | some ratelimiter => some ratelimiter
  | none => server.ratelimiter

/-- The loop that appends the captured parameters to the query. An empty
capture has no value and ends the search for a route; the parameters before it
stay in the request. -/
def appendRouteParams (path : Bytes) (result : PcreMatch) :
    Nat → List Bytes → Request → Request × Bool
  | _, [], request => (request, true)
  | number, name :: rest, request =>
    let value := capturedString path result number
    if name = [] ∨ value = [] then (request, false)
    else
      appendRouteParams path result (number + 1) rest
        { request with
          query := request.query ++ [{ key := cstring name, value := cstring value }] }

/-- `__prepare_static_file_response`. The path is assumed to fit its
buffer. -/
def staticFilePath (server : Server) (file : Bytes) : Bytes :=
  server.root ++ (if server.root.getLast? = some Byte.slash then [] else [Byte.slash]) ++
    (if file.head? = some Byte.slash then file.tail else file)

/-- The tail of the three branches of `__handler_added_to_queue`: the static
file or the handler of the route for the method. -/
def routeRunner (server : Server) (route : Route) (method : Method) : Option Runner :=
  match route.staticFile.lookup method with
  | some file => some (.response (.file (staticFilePath server file)))
  | none =>
    match route.handler.lookup method with
    | some handler =>
      some (.request handler (ratelimiterFind server route))
    | none => none

/-- `__handler_added_to_queue`: the loop over the routes. The request keeps the
parameters that were appended on the way. -/
def handlerAddedToQueue (around : Surroundings) (server : Server) :
    List Route → Request → Request × Option Runner
  | [], request => (request, none)
  | route :: rest, request =>
    if route.isPrimitive && routeComparePrimitive route request.path then
      match routeRunner server route request.method with
      | some runner => (request, some runner)
      | none => handlerAddedToQueue around server rest request
    else
      let result := around.pcreExec route.location request.path
      if 1 < result.count then
        match appendRouteParams request.path result 1 route.param request with
        | (extended, false) => (extended, none)
        | (extended, true) =>
          match routeRunner server route request.method with
          | some runner => (extended, some runner)
          | none => handlerAddedToQueue around server rest extended
      else if result.count = 1 then
        match routeRunner server route request.method with
        | some runner => (request, some runner)
        | none => handlerAddedToQueue around server rest request
      else
        handlerAddedToQueue around server rest request

def fileReply (around : Surroundings) (server : Server) (path : Bytes) :
    Reply :=
  match around.fileFullPath server.root path with
  | (.ok, file) =>
    if around.ratelimiterAllow server.ratelimiter then .file file
    else .limited
  | (.forbidden, _) => .default 403
  | (.notFound, _) => .default 404

/-- What `__handle` decides for a request: the request object as it leaves it,
the keep-alive flag, and how the request is served. -/
structure Decision where
  request : Request
  keepalive : Bool
  service : Service

/-- `__handle` with `__apply_redirect`, up to the call of the post
function. -/
def decideService (around : Surroundings) (server : Server)
    (request : Request) (keepalive : Bool) : Decision :=
  let redirected := getRedirect around.pcreExec server.redirect request keepalive
  let answer (reply : Reply) : Decision :=
    { request := redirected.request
      keepalive := redirected.keepalive
      service := .post reply }
  match redirected.status with
  | .badRequest => answer (.default 400)
  | .loopCycle => answer (.default 508)
  | .found => answer (.redirect redirected.request.uri 301)
  | .notFound =>
    match handlerAddedToQueue around server server.route redirected.request with
    | (routed, some runner) =>
      { request := routed
        keepalive := redirected.keepalive
        service := .queue runner }
    | (routed, none) =>
      { request := routed
        keepalive := redirected.keepalive
        service := .post (fileReply around server routed.path) }

end CWebFramework.Http
