import CWebFramework.Http.Request

/-!
# Virtual servers

The part of `server_t` that the HTTP server reads: the names that select a
server, its redirects, its routes, its middlewares, its rate limiter and its
document root.  Function pointers and pointers to rate limiters are modeled by
their addresses, compiled regular expressions by their source.
-/

namespace CWebFramework.Http

abbrev HandlerPtr := Nat

abbrev MiddlewarePtr := Nat

abbrev RatelimiterPtr := Nat

/-- What `pcre_exec` returns and the offsets that it writes: a pair for each
capture group, `-1` for a group without a match. -/
structure PcreMatch where
  count : Int
  vector : List (Int × Int)
  deriving DecidableEq, Repr

def PcreMatch.group (result : PcreMatch) (number : Nat) : Int × Int :=
  result.vector.getD number (-1, -1)

/-- `redirect_param_t`: the capture group `number` goes into the place of the
template between `start` and `stop`. -/
structure RedirectParam where
  number : Nat
  start : Nat
  stop : Nat
  deriving DecidableEq, Repr

structure Redirect where
  location : Bytes
  template : Bytes
  param : List RedirectParam
  deriving DecidableEq, Repr

/-- `route_t`. The arrays indexed by the method are association lists;
`param` holds the names of the parameters. -/
structure Route where
  isPrimitive : Bool
  path : Bytes
  location : Bytes
  param : List Bytes
  handler : List (Method × HandlerPtr)
  staticFile : List (Method × Bytes)
  ratelimiter : Option RatelimiterPtr
  deriving DecidableEq, Repr

/-- `server_t`. A domain is given by its PCRE template. -/
structure Server where
  ip : Nat
  port : Nat
  domain : List Bytes
  redirect : List Redirect := []
  route : List Route := []
  middleware : List MiddlewarePtr := []
  ratelimiter : Option RatelimiterPtr := none
  root : Bytes := []
  deriving DecidableEq, Repr

def Server.plain (name path : Bytes) (handler : HandlerPtr) : Server where
  ip := 0
  port := 80
  domain := [name]
  route := [{
    isPrimitive := true
    path := path
    location := path
    param := []
    handler := [(.get, handler)]
    staticFile := []
    ratelimiter := none }]

end CWebFramework.Http
