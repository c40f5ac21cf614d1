import CWebFramework.Http.PrimitiveRoute
import CWebFramework.HttpClient.RequestLine

/-!
# Requests to the own server

`__httpclient_self_invoke`: a request of the client to a host of its own process
is not sent, its handler is called directly.  The loop over the routes is not the
one of the dispatcher: it stops at the first route that matches the path, never
runs the pattern of a primitive route, does not look at static files and leaves
the captured groups aside.
-/

namespace CWebFramework.HttpClient

open Http

/-- What `__httpclient_self_invoke` does: it sets the status of the response, or
calls a handler with the request. -/
inductive SelfResult where
  | status (code : Nat)
  | runs (handler : HandlerPtr) (request : Request)
  deriving DecidableEq, Repr

/-- The test of the loop over the routes. Whether `pcre_exec` finds a match does
not depend on the size of the vector, in which the two loops differ. -/
def selfMatches (pcreExec : Bytes → Bytes → PcreMatch) (path : Bytes) (route : Route) : Bool :=
  if route.isPrimitive then routeComparePrimitive route path
  else decide (0 ≤ (pcreExec route.location path).count)

/-- `__httpclient_self_invoke` behind `__httpclient_set_request_uri`. -/
def httpclientSelfInvoke (pcreExec : Bytes → Bytes → PcreMatch)
    (server : Server) (request : Request) : SelfResult :=
  match server.route.find? (selfMatches pcreExec request.path) with
  | none => .status 404
  | some route =>
    match route.handler.lookup request.method with
    | none => .status 405
    | some handler => .runs handler request

def SelfResult.served : SelfResult → Option (HandlerPtr × List Query)
  | .status _ => none
  | .runs handler request => some (handler, request.query)

def dispatched (around : Surroundings) (server : Server) (request : Request) :
    Option (HandlerPtr × List Query) :=
  match handlerAddedToQueue around server server.route request with
  | (routed, some (.request handler _)) => some (handler, routed.query)
  | _ => none

/-! ## The two searches -/

def acceptedHandler (pcreExec : Bytes → Bytes → PcreMatch) (server : Server)
    (method : Method) (path : Bytes) : Option HandlerPtr :=
  (server.route.find? (selfMatches pcreExec path)).bind fun route =>
    route.handler.lookup method

def Runner.handler? : Runner → Option HandlerPtr
  | .request handler _ => some handler
  | .response _ => none

def servingHandler (around : Surroundings) (server : Server)
    (method : Method) (path : Bytes) : Option HandlerPtr :=
  (findServing around server method path server.route).bind fun found =>
    (routeRunner server found.2 method).bind Runner.handler?

private theorem served_httpclientSelfInvoke (pcreExec : Bytes → Bytes → PcreMatch)
    (server : Server) (request : Request) :
    (httpclientSelfInvoke pcreExec server request).served =
      (acceptedHandler pcreExec server request.method request.path).map
        fun handler => (handler, request.query) := by
  unfold httpclientSelfInvoke acceptedHandler
  cases server.route.find? (selfMatches pcreExec request.path) with
  | none => rfl
  | some route =>
    rw [Option.bind_some]
    dsimp only
    cases route.handler.lookup request.method with
    | none => rfl
    | some handler => rfl

/-- The dispatcher runs the handler of the serving route with the pairs of the
routes up to it. -/
theorem dispatched_eq (around : Surroundings) (server : Server) (request : Request) :
    (servingHandler around server request.method request.path = none ∧
        dispatched around server request = none) ∨
      ∃ before route handler, findServing around server request.method request.path server.route =
            some (before, route) ∧
          servingHandler around server request.method request.path = some handler ∧
          dispatched around server request = some (handler, request.query ++
              (before.flatMap (Route.pairs around request.path) ++
                route.pairs around request.path)) := by
  have loop := handlerAddedToQueue_eq around server server.route request
  unfold servingHandler dispatched
  cases found : findServing around server request.method request.path server.route with
  | none =>
    rw [found] at loop
    refine Or.inl ⟨rfl, ?_⟩
    generalize handlerAddedToQueue around server server.route request = result at loop ⊢
    obtain ⟨routed, runner⟩ := result
    cases loop
    rfl
  | some parts =>
    obtain ⟨before, route⟩ := parts
    rw [found] at loop
    dsimp only at loop
    rw [loop.1, Option.bind_some]
    dsimp only
    cases runner : routeRunner server route request.method with
    | none => exact Or.inl ⟨rfl, rfl⟩
    | some first =>
      cases first with
      | request handler ratelimiter =>
        exact Or.inr ⟨before, route, handler, rfl, rfl, rfl⟩
      | response reply => exact Or.inl ⟨rfl, rfl⟩

def NoParameters (around : Surroundings) (path : Bytes) (before : List Route)
    (route : Route) : Prop :=
  ∀ tried ∈ before ++ [route], tried.Captures around path → tried.param = []

private theorem noParameters_iff {around : Surroundings} {path : Bytes}
    {before : List Route} {route : Route} :
    NoParameters around path before route ↔ before.flatMap (Route.pairs around path) ++
        route.pairs around path = [] := by
  rw [List.append_eq_nil_iff, List.flatMap_eq_nil_iff,
    Route.pairs_eq_nil_iff, NoParameters, List.forall_mem_append,
    List.forall_mem_singleton]
  simp only [Route.pairs_eq_nil_iff]

/-- The two searches run the same handler with the same query exactly if they
find the same handler and no captured group went into the query. -/
theorem served_eq_dispatched_iff (around : Surroundings) (server : Server)
    {request received : Request} (sameMethod : received.method = request.method)
    (sameQuery : received.query = request.query) :
    (httpclientSelfInvoke around.pcreExec server request).served =
        dispatched around server received ↔
      acceptedHandler around.pcreExec server request.method request.path =
          servingHandler around server request.method received.path ∧
        ∀ before route, findServing around server request.method received.path server.route =
              some (before, route) →
            servingHandler around server request.method received.path ≠ none →
              NoParameters around received.path before route := by
  rw [served_httpclientSelfInvoke, ← sameMethod, ← sameQuery]
  rcases dispatched_eq around server received with
    ⟨noHandler, nothing⟩ | ⟨before, route, handler, found, isHandler, result⟩
  · rw [noHandler, nothing, Option.map_eq_none_iff]
    exact ⟨fun same => ⟨same, fun _ _ _ isSome => absurd rfl isSome⟩, And.left⟩
  · rw [isHandler, result, found]
    constructor
    · intro same
      obtain ⟨other, isOther, pair⟩ := Option.map_eq_some_iff.mp same
      obtain ⟨sameHandler, sameList⟩ := Prod.mk.inj pair
      rw [isOther, sameHandler]
      refine ⟨rfl, ?_⟩
      rintro _ _ ⟨⟩ -
      exact noParameters_iff.mpr (List.append_right_eq_self.mp sameList.symm)
    · rintro ⟨isAccepted, nothing⟩
      have none := noParameters_iff.mp (nothing before route rfl (Option.some_ne_none handler))
      rw [isAccepted, none, List.append_nil]
      rfl

/-! ## The table of routes -/

/-- The first route of a table that meets a test. -/
structure IsFirst (test : Route → Prop) (table before : List Route) (route : Route) : Prop where
  isSplit : ∃ after, table = before ++ route :: after
  isMet : test route
  others : ∀ tried ∈ before, ¬test tried

/-- The dispatcher does not go on behind the route: the route matches the path
and has a file or a handler for the method, or a group is empty. -/
def Takes (around : Surroundings) (server : Server) (method : Method)
    (path : Bytes) (route : Route) : Prop :=
  route.turn around server method path ≠ .passes

private theorem find?_isFirst {test : Route → Bool} {table : List Route}
    {route : Route} :
    table.find? test = some route ↔ ∃ before, IsFirst (test · = true) table before route := by
  rw [List.find?_eq_some_iff_append]
  constructor
  · rintro ⟨isMet, before, after, isSplit, others⟩
    exact ⟨before, ⟨after, isSplit⟩, isMet, fun tried isIn isTrue => by
      simpa [isTrue] using others tried isIn⟩
  · rintro ⟨before, ⟨after, isSplit⟩, isMet, others⟩
    exact ⟨isMet, before, after, isSplit, fun tried isIn => by
      simpa using others tried isIn⟩

theorem findServing_isFirst {around : Surroundings} {server : Server}
    {method : Method} {path : Bytes} {table before : List Route}
    {route : Route} :
    findServing around server method path table = some (before, route) ↔
      IsFirst (Takes around server method path) table before route ∧
        route.turn around server method path = .serves := by
  constructor
  · intro found
    obtain ⟨after, isSplit, passed, serves⟩ := findServing_eq_some around server found
    refine ⟨⟨⟨after, isSplit⟩, ?_, fun tried isIn takes =>
      takes (passed tried isIn)⟩, serves⟩
    rw [Takes, serves]
    exact nofun
  · rintro ⟨⟨⟨after, rfl⟩, -, others⟩, serves⟩
    exact findServing_append around server
      (fun tried isIn => not_not.mp (others tried isIn)) serves after

section Table

variable (around : Surroundings) (server : Server) (method : Method) (path : Bytes)

/-- Where a request to the own server runs what the dispatcher would run. -/
inductive SameRun : Prop
  /-- The first route that the client accepts has no handler for the method; the
  dispatcher arrives at no route, or at one with a file. -/
  | noHandler (accepted : ∀ before route,
        IsFirst (selfMatches around.pcreExec (cstring path) · = true)
          server.route before route → route.handler.lookup method = none)
      (taken : ∀ before route, IsFirst (Takes around server method path) server.route before route →
          route.turn around server method path = .serves → route.staticFile.lookup method ≠ none)
  /-- Both loops pass the same routes, without parameters, and end at one that
  has a handler and no file. -/
  | oneRoute {before : List Route} {route : Route} {handler : HandlerPtr}
      (accepted : IsFirst (selfMatches around.pcreExec (cstring path) · = true)
        server.route before route)
      (taken : IsFirst (Takes around server method path) server.route before route)
      (serves : route.turn around server method path = .serves)
      (noFile : route.staticFile.lookup method = none)
      (isHandler : route.handler.lookup method = some handler)
      (noParameters : NoParameters around path before route)
  /-- The loops end at different routes that have the same function. -/
  | twoRoutes {front before : List Route} {first route : Route}
      {handler : HandlerPtr}
      (accepted : IsFirst (selfMatches around.pcreExec (cstring path) · = true)
        server.route front first)
      (taken : IsFirst (Takes around server method path) server.route before route)
      (different : front ≠ before)
      (serves : route.turn around server method path = .serves)
      (noFile : route.staticFile.lookup method = none)
      (isFirst : first.handler.lookup method = some handler)
      (isHandler : route.handler.lookup method = some handler)
      (noParameters : NoParameters around path before route)

variable {around server method path}

theorem acceptedHandler_eq_some_iff {handler : HandlerPtr} :
    acceptedHandler around.pcreExec server method (cstring path) = some handler ↔ ∃ before route,
        IsFirst (selfMatches around.pcreExec (cstring path) · = true) server.route before route ∧
          route.handler.lookup method = some handler := by
  rw [acceptedHandler, Option.bind_eq_some_iff]
  simp only [find?_isFirst]
  constructor
  · rintro ⟨route, ⟨before, isFirst⟩, isHandler⟩
    exact ⟨before, route, isFirst, isHandler⟩
  · rintro ⟨before, route, isFirst, isHandler⟩
    exact ⟨route, ⟨before, isFirst⟩, isHandler⟩

private theorem routeRunner_handler_iff {route : Route} {handler : HandlerPtr} :
    (routeRunner server route method).bind Runner.handler? = some handler ↔
      route.staticFile.lookup method = none ∧ route.handler.lookup method = some handler := by
  unfold routeRunner
  cases route.staticFile.lookup method with
  | some file => simp [Runner.handler?]
  | none =>
    cases route.handler.lookup method with
    | none => simp
    | some other => simp [Runner.handler?]

theorem servingHandler_eq_some_iff {handler : HandlerPtr} :
    servingHandler around server method path = some handler ↔ ∃ before route,
        IsFirst (Takes around server method path) server.route before route ∧
          route.turn around server method path = .serves ∧
          route.staticFile.lookup method = none ∧
          route.handler.lookup method = some handler := by
  rw [servingHandler, Option.bind_eq_some_iff]
  constructor
  · rintro ⟨⟨before, route⟩, found, runs⟩
    obtain ⟨isFirst, serves⟩ := findServing_isFirst.mp found
    exact ⟨before, route, isFirst, serves, routeRunner_handler_iff.mp runs⟩
  · rintro ⟨before, route, isFirst, serves, runs⟩
    exact ⟨(before, route), findServing_isFirst.mpr ⟨isFirst, serves⟩,
      routeRunner_handler_iff.mpr runs⟩

private theorem acceptedHandler_eq_none (noHandler : ∀ before route,
      IsFirst (selfMatches around.pcreExec (cstring path) · = true)
        server.route before route → route.handler.lookup method = none) :
    acceptedHandler around.pcreExec server method (cstring path) = none := by
  apply Option.eq_none_iff_forall_ne_some.mpr
  intro handler isAccepted
  obtain ⟨before, route, isFirst, isHandler⟩ := acceptedHandler_eq_some_iff.mp isAccepted
  rw [noHandler before route isFirst] at isHandler
  cases isHandler

private theorem servingHandler_eq_none (onlyFiles : ∀ before route,
      IsFirst (Takes around server method path) server.route before route →
        route.turn around server method path = .serves → route.staticFile.lookup method ≠ none) :
    servingHandler around server method path = none := by
  apply Option.eq_none_iff_forall_ne_some.mpr
  intro handler isServing
  obtain ⟨before, route, isFirst, serves, noFile, -⟩ := servingHandler_eq_some_iff.mp isServing
  exact onlyFiles before route isFirst serves noFile

/-- A route that serves a method without a file has a handler for it. -/
theorem exists_handler_of_serves {route : Route}
    (serves : route.turn around server method path = .serves)
    (noFile : route.staticFile.lookup method = none) :
    ∃ handler, route.handler.lookup method = some handler := by
  cases isHandler : route.handler.lookup method with
  | some handler => exact ⟨handler, rfl⟩
  | none =>
    have noRunner : routeRunner server route method = none := by
      rw [routeRunner, noFile, isHandler]
    rw [Route.turn, noRunner] at serves
    cases answer : route.answer around path with
    | whole => simp [answer] at serves
    | refused => simp [answer] at serves
    | captured result =>
      simp only [answer, Option.isSome_none, Bool.false_eq_true, if_false] at serves
      split_ifs at serves

/-- What both loops run is the handler of the routes at which they end. -/
theorem SameRun.of_eq (same : acceptedHandler around.pcreExec server method (cstring path) =
      servingHandler around server method path)
    (plain : ∀ before route, findServing around server method path server.route =
          some (before, route) →
        servingHandler around server method path ≠ none → NoParameters around path before route) :
    SameRun around server method path := by
  cases isServing : servingHandler around server method path with
  | none =>
    rw [isServing] at same
    refine .noHandler (fun before route isFirst => ?_) fun before route isFirst serves noFile => ?_
    · apply Option.eq_none_iff_forall_ne_some.mpr
      intro handler isHandler
      rw [acceptedHandler_eq_some_iff.mpr ⟨before, route, isFirst, isHandler⟩] at same
      cases same
    · obtain ⟨handler, isHandler⟩ := exists_handler_of_serves serves noFile
      rw [servingHandler_eq_some_iff.mpr
        ⟨before, route, isFirst, serves, noFile, isHandler⟩] at isServing
      cases isServing
  | some handler =>
    rw [isServing] at same plain
    obtain ⟨front, first, accepted, isFirst⟩ := acceptedHandler_eq_some_iff.mp same
    obtain ⟨before, route, taken, serves, noFile, isHandler⟩ :=
      servingHandler_eq_some_iff.mp isServing
    have noParameters := plain before route (findServing_isFirst.mpr ⟨taken, serves⟩)
      (Option.some_ne_none handler)
    by_cases different : front = before
    · obtain ⟨_, isSplit⟩ := accepted.isSplit
      obtain ⟨_, isOther⟩ := taken.isSplit
      have sameRest := List.append_cancel_left ((different ▸ isSplit).symm.trans isOther)
      cases different
      cases sameRest
      exact .oneRoute accepted taken serves noFile isHandler noParameters
    · exact .twoRoutes accepted taken different serves noFile isFirst isHandler noParameters

theorem SameRun.eq (run : SameRun around server method path) :
    acceptedHandler around.pcreExec server method (cstring path) =
        servingHandler around server method path ∧
      ∀ before route, findServing around server method path server.route = some (before, route) →
          servingHandler around server method path ≠ none →
            NoParameters around path before route := by
  cases run with
  | noHandler accepted taken =>
    have noServing := servingHandler_eq_none taken
    rw [acceptedHandler_eq_none accepted, noServing]
    exact ⟨rfl, fun _ _ _ isSome => absurd rfl isSome⟩
  | oneRoute accepted taken serves noFile isHandler noParameters =>
    rw [acceptedHandler_eq_some_iff.mpr ⟨_, _, accepted, isHandler⟩, servingHandler_eq_some_iff.mpr
        ⟨_, _, taken, serves, noFile, isHandler⟩,
      findServing_isFirst.mpr ⟨taken, serves⟩]
    refine ⟨rfl, ?_⟩
    rintro _ _ ⟨⟩ -
    exact noParameters
  | twoRoutes accepted taken _ serves noFile isFirst isHandler noParameters =>
    rw [acceptedHandler_eq_some_iff.mpr ⟨_, _, accepted, isFirst⟩, servingHandler_eq_some_iff.mpr
        ⟨_, _, taken, serves, noFile, isHandler⟩,
      findServing_isFirst.mpr ⟨taken, serves⟩]
    refine ⟨rfl, ?_⟩
    rintro _ _ ⟨⟩ -
    exact noParameters

end Table

/-- A request of the client to the own server runs the handler that the
dispatcher would run, with the same query, exactly under this condition on the
table of routes, the method and the decoded path of the URL. -/
theorem httpclientSelfInvoke_dispatched_iff (around : Surroundings)
    (server : Server) (useSsl : Bool) (url : Bytes) (parser : UrlParser)
    (accepted : httpclientparserParse useSsl url = .ok parser)
    (method : Method) (previous : Request) :
    ∃ path request rest, parser.path = some path ∧
        setRequestUri method previous parser = some (request, rest) ∧
        ((httpclientSelfInvoke around.pcreExec server request).served =
            dispatched around server { request with path := path } ↔
          SameRun around server method path) := by
  obtain ⟨target, takes⟩ := httpclientparserParse_takes accepted
  have moved := setRequestUri_takes takes method previous
  refine ⟨_, _, _, takes.path, moved, ?_⟩
  refine (served_eq_dispatched_iff around server ?_ ?_).trans
    ⟨fun both => .of_eq both.1 both.2, SameRun.eq⟩
  · rfl
  · rfl

/-- The URL `http://h/users/7?sort=name`. -/
def userUrl : UrlParser :=
  parsedUrl (ascii "/users/7?sort=name") (ascii "/users/7")
    [{ key := ascii "sort", value := ascii "name" }]

def plainTable : List Route :=
  [(plainRoute (ascii "/about")).serving [(.get, 1)] [] none,
    (plainRoute (ascii "/users/7")).serving [(.get, 2)] [] none]

/-- Both loops pass the first route and run the handler of the second one. -/
theorem httpclientSelfInvoke_dispatched_plain :
    httpclientparserParse false (ascii "http://h/users/7?sort=name") = .ok userUrl ∧
      ∃ path request rest, userUrl.path = some path ∧ setRequestUri .get httprequestCreate userUrl =
            some (request, rest) ∧
          (httpclientSelfInvoke plainAround.pcreExec (sampleServer plainTable) request).served =
            dispatched plainAround (sampleServer plainTable)
              { request with path := path } ∧
          dispatched plainAround (sampleServer plainTable)
              { request with path := path } =
            some (2, [{ key := ascii "sort", value := ascii "name" }]) := by
  have accepted : httpclientparserParse false
      (ascii "http://h/users/7?sort=name") = .ok userUrl := by
    decide +kernel
  obtain ⟨path, request, rest, isPath, moved, agrees⟩ :=
    httpclientSelfInvoke_dispatched_iff plainAround (sampleServer plainTable)
      false (ascii "http://h/users/7?sort=name") userUrl accepted .get
      httprequestCreate
  cases isPath
  refine ⟨accepted, _, request, rest, rfl, moved, agrees.mpr ?_, ?_⟩
  · have isSplit : ∃ after, plainTable =
        [(plainRoute (ascii "/about")).serving [(.get, 1)] [] none] ++
          (plainRoute (ascii "/users/7")).serving [(.get, 2)] [] none ::
            after := ⟨[], rfl⟩
    have serves : ((plainRoute (ascii "/users/7")).serving [(.get, 2)] []
        none).turn plainAround (sampleServer plainTable) .get (ascii "/users/7") = .serves := by
      decide +kernel
    refine .oneRoute ⟨isSplit, ?_, ?_⟩ ⟨isSplit, ?_, ?_⟩ serves rfl rfl ?_
    · decide +kernel
    · exact List.forall_mem_singleton.mpr (by decide +kernel)
    · rw [Takes, serves]
      decide
    · exact List.forall_mem_singleton.mpr fun takes => takes (by decide +kernel)
    · exact List.forall_mem_cons.mpr ⟨fun _ => rfl, List.forall_mem_singleton.mpr fun _ => rfl⟩
  · cases moved
    decide +kernel

/-- The handler does not see the parameter of its route, and a route without a
handler for the method ends the search. -/
theorem httpclientSelfInvoke_differs : ((httpclientSelfInvoke sampleAround.pcreExec
          (sampleServer [userRoute [(.get, 2)]])
          (sampleRequest (ascii "/users/7"))).served =
        some (2, [{ key := ascii "sort", value := ascii "name" }]) ∧
      dispatched sampleAround (sampleServer [userRoute [(.get, 2)]])
          (sampleRequest (ascii "/users/7")) =
        some (2, [{ key := ascii "sort", value := ascii "name" },
          { key := ascii "id", value := ascii "7" }])) ∧
    httpclientSelfInvoke sampleAround.pcreExec
          (sampleServer [userRoute [(.post, 1)], userRoute [(.get, 2)]])
          (sampleRequest (ascii "/users/7")) = .status 405 ∧
      ((dispatched sampleAround (sampleServer [userRoute [(.post, 1)], userRoute [(.get, 2)]])
          (sampleRequest (ascii "/users/7"))).map Prod.fst = some 2) := by
  decide +kernel

end CWebFramework.HttpClient
