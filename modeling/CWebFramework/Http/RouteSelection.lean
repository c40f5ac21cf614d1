import CWebFramework.Http.RouteTemplate
import CWebFramework.Http.StaticFile

/-!
# The selected route

The loop of `__handler_added_to_queue` over the routes, as a search for the
first route that answers to the path and serves the method.  The parameters of a
route are appended to the query when its pattern matches, before it is known
whether the route serves the method.
-/

namespace CWebFramework.Http

/-- How a route answers to a path: as a whole, with captured groups, or not at
all. -/
inductive RouteAnswer where
  | whole
  | captured (result : PcreMatch)
  | refused
  deriving DecidableEq, Repr

/-- The tests of a route in the loop of `__handler_added_to_queue`. -/
def Route.answer (around : Surroundings) (route : Route) (path : Bytes) :
    RouteAnswer :=
  if route.isPrimitive && routeComparePrimitive route path then .whole
  else if 1 < (around.pcreExec route.location path).count then
    .captured (around.pcreExec route.location path)
  else if (around.pcreExec route.location path).count = 1 then .whole
  else .refused

/-- The parameters from a number on, with what their groups have captured. -/
def capturedPairs (path : Bytes) (result : PcreMatch) : Nat → List Bytes → List Query
  | _, [] => []
  | number, name :: rest =>
    { key := cstring name
      value := cstring (capturedString path result number) } ::
        capturedPairs path result (number + 1) rest

/-- Every parameter has a name and has captured something. -/
def allCaptured (path : Bytes) (result : PcreMatch) : Nat → List Bytes → Bool
  | _, [] => true
  | number, name :: rest =>
    decide (name ≠ [] ∧ capturedString path result number ≠ []) &&
      allCaptured path result (number + 1) rest

theorem appendRouteParams_true {path : Bytes} {result : PcreMatch}
    {number : Nat} {names : List Bytes}
    (all : allCaptured path result number names = true) (request : Request) :
    appendRouteParams path result number names request = ({ request with
          query := request.query ++ capturedPairs path result number names },
        true) := by
  induction names generalizing number request with
  | nil => simp [appendRouteParams, capturedPairs]
  | cons name rest ih =>
    rw [allCaptured, Bool.and_eq_true, decide_eq_true_iff] at all
    obtain ⟨⟨named, captured⟩, others⟩ := all
    have both : ¬ (name = [] ∨ capturedString path result number = []) :=
      not_or.mpr ⟨named, captured⟩
    rw [appendRouteParams, if_neg both, ih others]
    simp [capturedPairs]

private theorem appendRouteParams_false {path : Bytes} {result : PcreMatch} {number : Nat}
    {names : List Bytes} (missing : allCaptured path result number names = false)
    (request : Request) :
    (appendRouteParams path result number names request).2 = false := by
  induction names generalizing number request with
  | nil => cases missing
  | cons name rest ih =>
    rw [appendRouteParams]
    by_cases either : name = [] ∨ capturedString path result number = []
    · rw [if_pos either]
    · rw [if_neg either]
      rw [not_or] at either
      rw [allCaptured, decide_eq_true either, Bool.true_and] at missing
      exact ih missing _

def Route.pairs (around : Surroundings) (path : Bytes) (route : Route) : List Query :=
  match route.answer around path with
  | .captured result => capturedPairs path result 1 route.param
  | _ => []

inductive RouteTurn where
  | serves
  | stops
  | passes
  deriving DecidableEq, Repr

/-- A route with a captured group that is empty ends the search. -/
def Route.turn (around : Surroundings) (server : Server) (method : Method)
    (path : Bytes) (route : Route) : RouteTurn :=
  let turn :=
    if (routeRunner server route method).isSome then RouteTurn.serves
    else .passes
  match route.answer around path with
  | .whole => turn
  | .captured result =>
    if allCaptured path result 1 route.param then turn else .stops
  | .refused => .passes

/-- The first route that serves a request, behind the routes that were tried
before it. -/
def findServing (around : Surroundings) (server : Server) (method : Method)
    (path : Bytes) : List Route → Option (List Route × Route)
  | [] => none
  | route :: rest =>
    match route.turn around server method path with
    | .serves => some ([], route)
    | .stops => none
    | .passes =>
      (findServing around server method path rest).map fun found =>
        (route :: found.1, found.2)

section Loop

variable (around : Surroundings) (server : Server)

theorem handlerAddedToQueue_cons (route : Route) (rest : List Route) (request : Request) :
    handlerAddedToQueue around server (route :: rest) request =
      match route.answer around request.path with
      | .whole =>
        match routeRunner server route request.method with
        | some runner => (request, some runner)
        | none => handlerAddedToQueue around server rest request
      | .captured result =>
        match appendRouteParams request.path result 1 route.param request with
        | (extended, false) => (extended, none)
        | (extended, true) =>
          match routeRunner server route request.method with
          | some runner => (extended, some runner)
          | none => handlerAddedToQueue around server rest extended
      | .refused => handlerAddedToQueue around server rest request := by
  rw [handlerAddedToQueue, Route.answer]
  dsimp only
  split_ifs <;> rfl

variable {route : Route} {request : Request}

theorem handlerAddedToQueue_passes
    (passes : route.turn around server request.method request.path = .passes)
    (rest : List Route) :
    handlerAddedToQueue around server (route :: rest) request =
      handlerAddedToQueue around server rest
        { request with
          query := request.query ++ route.pairs around request.path } := by
  rw [handlerAddedToQueue_cons]
  unfold Route.turn at passes
  unfold Route.pairs
  cases answer : route.answer around request.path with
  | whole =>
    cases runner : routeRunner server route request.method with
    | none => simp
    | some runner => simp [answer, runner] at passes
  | captured result =>
    cases all : allCaptured request.path result 1 route.param with
    | false => simp [answer, all] at passes
    | true =>
      cases runner : routeRunner server route request.method with
      | none => simp [appendRouteParams_true all]
      | some runner => simp [answer, all, runner] at passes
  | refused => simp

theorem handlerAddedToQueue_stops
    (stops : route.turn around server request.method request.path = .stops)
    (rest : List Route) :
    (handlerAddedToQueue around server (route :: rest) request).2 = none := by
  rw [handlerAddedToQueue_cons]
  unfold Route.turn at stops
  cases answer : route.answer around request.path with
  | whole =>
    cases runner : routeRunner server route request.method <;>
      simp [answer, runner] at stops
  | captured result =>
    cases all : allCaptured request.path result 1 route.param with
    | false =>
      have missing := appendRouteParams_false all request
      dsimp only
      generalize appendRouteParams request.path result 1 route.param request = appended at missing ⊢
      obtain ⟨extended, flag⟩ := appended
      cases missing
      rfl
    | true =>
      cases runner : routeRunner server route request.method <;>
        simp [answer, all, runner] at stops
  | refused => simp [answer] at stops

theorem handlerAddedToQueue_serves
    (serves : route.turn around server request.method request.path = .serves)
    (rest : List Route) :
    handlerAddedToQueue around server (route :: rest) request = ({ request with
            query := request.query ++ route.pairs around request.path },
          routeRunner server route request.method) ∧
      (routeRunner server route request.method).isSome = true := by
  rw [handlerAddedToQueue_cons]
  unfold Route.turn at serves
  unfold Route.pairs
  cases answer : route.answer around request.path with
  | whole =>
    cases runner : routeRunner server route request.method with
    | none => simp [answer, runner] at serves
    | some runner => simp
  | captured result =>
    cases all : allCaptured request.path result 1 route.param with
    | false => simp [answer, all] at serves
    | true =>
      cases runner : routeRunner server route request.method with
      | none => simp [answer, all, runner] at serves
      | some runner => simp [appendRouteParams_true all]
  | refused => simp [answer] at serves

/-- The loop finds the first route that serves the request, with the pairs of all
routes up to it. -/
theorem handlerAddedToQueue_eq (routes : List Route) (request : Request) :
    match findServing around server request.method request.path routes with
    | none => (handlerAddedToQueue around server routes request).2 = none
    | some (before, route) =>
      handlerAddedToQueue around server routes request = ({ request with
              query := request.query ++ (before.flatMap (Route.pairs around request.path) ++
                  route.pairs around request.path) },
            routeRunner server route request.method) ∧
        (routeRunner server route request.method).isSome = true := by
  induction routes generalizing request with
  | nil => rfl
  | cons route rest ih =>
    rw [findServing]
    cases turn : route.turn around server request.method request.path with
    | serves =>
      exact handlerAddedToQueue_serves around server turn rest
    | stops =>
      exact handlerAddedToQueue_stops around server turn rest
    | passes =>
      have later := ih
        { request with
          query := request.query ++ route.pairs around request.path }
      rw [handlerAddedToQueue_passes around server turn]
      dsimp only at later ⊢
      cases found : findServing around server request.method request.path rest with
      | none =>
        rw [found] at later
        exact later
      | some parts =>
        rw [found] at later
        simpa using later

theorem handlerAddedToQueue_append {before : List Route} (passed : ∀ tried ∈ before,
      tried.turn around server request.method request.path = .passes)
    (rest : List Route) :
    handlerAddedToQueue around server (before ++ rest) request =
      handlerAddedToQueue around server rest
        { request with
          query := request.query ++ before.flatMap (Route.pairs around request.path) } := by
  induction before generalizing request with
  | nil => simp
  | cons tried before ih =>
    have first := handlerAddedToQueue_passes around server
      (passed tried List.mem_cons_self) (before ++ rest)
    have others := @ih
      { request with
        query := request.query ++ tried.pairs around request.path }
      fun other member =>
        passed other (List.mem_cons_of_mem tried member)
    rw [List.cons_append, first, others]
    simp only [List.flatMap_cons, List.append_assoc]

theorem findServing_eq_some {method : Method} {path : Bytes} {routes before : List Route}
    (found : findServing around server method path routes = some (before, route)) :
    ∃ after, routes = before ++ route :: after ∧ (∀ tried ∈ before,
          tried.turn around server method path = .passes) ∧
        route.turn around server method path = .serves := by
  induction routes generalizing before with
  | nil => cases found
  | cons first rest ih =>
    rw [findServing] at found
    cases turn : first.turn around server method path with
    | serves =>
      rw [turn] at found
      cases found
      exact ⟨rest, rfl, List.forall_mem_nil _, turn⟩
    | stops =>
      rw [turn] at found
      cases found
    | passes =>
      rw [turn] at found
      obtain ⟨⟨later, last⟩, foundLater, same⟩ := Option.map_eq_some_iff.mp found
      cases same
      obtain ⟨after, split, passed, serves⟩ := ih foundLater
      refine ⟨after, congrArg (first :: ·) split, ?_, serves⟩
      exact List.forall_mem_cons.mpr ⟨turn, passed⟩

end Loop

/-! ## The query of a dispatched request -/

/-- The groups of the route have captured something of the path. -/
def Route.Captures (around : Surroundings) (path : Bytes) (route : Route) :
    Prop :=
  route.answer around path = .captured (around.pcreExec route.location path)

/-- The name of each parameter with what its own group has captured, from a
number on. `groupOf` gives the number of the group of a parameter. -/
def parameterPairs (path : Bytes) (result : PcreMatch) (groupOf : Nat → Nat) :
    Nat → List Bytes → List Query
  | _, [] => []
  | number, name :: rest =>
    { key := cstring name
      value := capturedString path result (groupOf number) } ::
        parameterPairs path result groupOf (number + 1) rest

/-- The pairs that belong to the parameters of a route. PCRE counts the groups
of a pattern by their opening parentheses, so that a group inside the
expression of one parameter moves the groups of the parameters behind it. -/
def Route.parameterPairs (around : Surroundings)
    (groupOf : Route → Nat → Nat) (path : Bytes) (route : Route) :
    List Query :=
  Http.parameterPairs path (around.pcreExec route.location path) (groupOf route) 1 route.param

/-- The group with the position of a parameter has captured what the group of
the parameter has captured, without a NUL. -/
def Route.ReadsGroups (around : Surroundings) (groupOf : Route → Nat → Nat)
    (path : Bytes) (route : Route) : Prop :=
  ∀ number, 1 ≤ number → number < 1 + route.param.length →
    cstring (capturedString path (around.pcreExec route.location path) number) =
      capturedString path (around.pcreExec route.location path) (groupOf route number)

private theorem capturedPairs_eq_nil_iff (path : Bytes) (result : PcreMatch)
    (number : Nat) (names : List Bytes) :
    capturedPairs path result number names = [] ↔ names = [] := by
  cases names with
  | nil => exact iff_of_true rfl rfl
  | cons name rest => exact iff_of_false nofun nofun

/-- The first group of a range and the others. -/
theorem forall_group_succ_iff {property : Nat → Prop} (number count : Nat) :
    (∀ group, number ≤ group → group < number + (count + 1) → property group) ↔
      property number ∧ ∀ group, number + 1 ≤ group →
        group < number + 1 + count → property group := by
  constructor
  · intro all
    exact ⟨all number (Nat.le_refl _) (by omega),
      fun group least most => all group (by omega) (by omega)⟩
  · rintro ⟨first, others⟩ group least most
    rcases Nat.eq_or_lt_of_le least with rfl | later
    · exact first
    · exact others group later (by omega)

private theorem capturedPairs_eq_iff (path : Bytes) (result : PcreMatch)
    (groupOf : Nat → Nat) (number : Nat) (names : List Bytes) :
    capturedPairs path result number names = parameterPairs path result groupOf number names ↔
      ∀ group, number ≤ group → group < number + names.length →
        cstring (capturedString path result group) =
          capturedString path result (groupOf group) := by
  induction names generalizing number with
  | nil =>
    refine ⟨fun _ group least most => ?_, fun _ => rfl⟩
    exact absurd least (Nat.not_le.mpr most)
  | cons name rest ih =>
    rw [capturedPairs, parameterPairs, List.cons.injEq,
      ih (number + 1), Query.mk.injEq, and_iff_right rfl,
      List.length_cons, forall_group_succ_iff]

section Pairs

variable {around : Surroundings} {path : Bytes} {route : Route}

theorem Route.pairs_of_captures (captures : route.Captures around path) : route.pairs around path =
      capturedPairs path (around.pcreExec route.location path) 1
        route.param := by
  rw [Route.pairs, show route.answer around path = _ from captures]

theorem Route.pairs_of_not_captures (none : ¬ route.Captures around path) :
    route.pairs around path = [] := by
  unfold Route.Captures at none
  unfold Route.pairs
  unfold Route.answer at none ⊢
  split_ifs at none ⊢ with whole several one
  · rfl
  · exact absurd rfl none
  · rfl
  · rfl

theorem Route.pairs_eq_nil_iff : route.pairs around path = [] ↔
      (route.Captures around path → route.param = []) := by
  by_cases captures : route.Captures around path
  · rw [Route.pairs_of_captures captures, capturedPairs_eq_nil_iff]
    exact ⟨fun empty _ => empty, fun empty => empty captures⟩
  · rw [Route.pairs_of_not_captures captures]
    exact iff_of_true rfl fun captured => absurd captured captures

theorem Route.pairs_eq_parameterPairs_iff (groupOf : Route → Nat → Nat) :
    route.pairs around path = route.parameterPairs around groupOf path ↔ route.param = [] ∨
        route.Captures around path ∧
          route.ReadsGroups around groupOf path := by
  by_cases captures : route.Captures around path
  · rw [Route.pairs_of_captures captures, Route.parameterPairs, capturedPairs_eq_iff]
    constructor
    · exact fun same => Or.inr ⟨captures, same⟩
    · rintro (empty | ⟨_, same⟩)
      · rw [empty]
        exact fun group least most => absurd least (Nat.not_le.mpr most)
      · exact same
  · rw [Route.pairs_of_not_captures captures, Route.parameterPairs]
    cases names : route.param with
    | nil => exact iff_of_true rfl (Or.inl rfl)
    | cons name rest =>
      refine iff_of_false nofun ?_
      rintro (empty | ⟨captured, _⟩)
      · cases empty
      · exact captures captured

end Pairs

/-- A request is queued by a route of the server that it was dispatched to,
without a redirect. -/
theorem decideService_queue {around : Surroundings} {server : Server}
    {request : Request} {keepalive : Bool} {runner : Runner}
    (queued : (decideService around server request keepalive).service = .queue runner) :
    handlerAddedToQueue around server server.route request =
      ((decideService around server request keepalive).request, some runner) := by
  have unchanged : (getRedirect around.pcreExec server.redirect request
      keepalive).status = .notFound → (getRedirect around.pcreExec server.redirect request
          keepalive).request = request :=
    getRedirectLoop_notFound 9
  unfold decideService at queued ⊢
  dsimp only at queued ⊢
  cases status : (getRedirect around.pcreExec server.redirect request keepalive).status with
  | badRequest => simp [status] at queued
  | loopCycle => simp [status] at queued
  | found => simp [status] at queued
  | notFound =>
    simp only [status, unchanged status] at queued ⊢
    cases routed : handlerAddedToQueue around server server.route request with
    | mk final found =>
      rw [routed] at queued
      cases found with
      | none => cases queued
      | some first =>
        cases queued
        rfl

/-- The query of a dispatched request is that of the URI with the parameters of
the selected route exactly if no other route was tried whose groups had captured
something, and the selected route reads the groups of its parameters. -/
theorem decideService_query_iff (around : Surroundings) (groupOf : Route → Nat → Nat)
    (server : Server) (request : Request) (keepalive : Bool) (runner : Runner)
    (queued : (decideService around server request keepalive).service = .queue runner) :
    ∃ before route after, server.route = before ++ route :: after ∧ (∀ tried ∈ before,
          tried.turn around server request.method request.path = .passes) ∧
        route.turn around server request.method request.path = .serves ∧
        routeRunner server route request.method = some runner ∧
        ((decideService around server request keepalive).request.query = request.query ++
                route.parameterPairs around groupOf request.path ∧
            (handlerAddedToQueue around server before request).1.query = request.query ↔
          (∀ tried ∈ before, tried.Captures around request.path → tried.param = []) ∧
            (route.param = [] ∨ route.Captures around request.path ∧
                route.ReadsGroups around groupOf request.path)) := by
  have routed := decideService_queue queued
  have found := handlerAddedToQueue_eq around server server.route request
  cases serving : findServing around server request.method request.path server.route with
  | none =>
    rw [serving, routed] at found
    cases found
  | some parts =>
    obtain ⟨before, route⟩ := parts
    rw [serving, routed] at found
    obtain ⟨after, split, passed, serves⟩ := findServing_eq_some around server serving
    obtain ⟨same, _⟩ := found
    obtain ⟨final, isRunner⟩ := Prod.mk.inj same
    have alone := handlerAddedToQueue_append around server passed []
    rw [List.append_nil] at alone
    refine ⟨before, route, after, split, passed, serves, isRunner.symm, ?_⟩
    rw [final, alone]
    simp only [handlerAddedToQueue, List.append_right_inj,
      List.append_right_eq_self, List.flatMap_eq_nil_iff,
      ← Route.pairs_eq_nil_iff,
      ← Route.pairs_eq_parameterPairs_iff groupOf]
    constructor
    · rintro ⟨both, nothing⟩
      rw [List.flatMap_eq_nil_iff.mpr nothing, List.nil_append] at both
      exact ⟨nothing, both⟩
    · rintro ⟨nothing, own⟩
      rw [List.flatMap_eq_nil_iff.mpr nothing, List.nil_append]
      exact ⟨own, nothing⟩

def userRoute (handler : List (Method × HandlerPtr)) : Route where
  isPrimitive := false
  path := ascii "/users/([0-9]+)"
  location := ascii "^/users/([0-9]+)$"
  param := [ascii "id"]
  handler := handler
  staticFile := []
  ratelimiter := none

def nestedRoute (handler : List (Method × HandlerPtr)) : Route where
  isPrimitive := false
  path := ascii "/((x))/(y)"
  location := ascii "^/((x))/(y)$"
  param := [ascii "a", ascii "b"]
  handler := handler
  staticFile := []
  ratelimiter := none

/-- PCRE on the patterns of the two routes, for one path each. -/
def sampleExec (location path : Bytes) : PcreMatch :=
  if location = ascii "^/users/([0-9]+)$" ∧ path = ascii "/users/7" then
    { count := 2, vector := [(0, 8), (7, 8)] }
  else if location = ascii "^/((x))/(y)$" ∧ path = ascii "/x/y" then
    { count := 4, vector := [(0, 4), (1, 2), (1, 2), (3, 4)] }
  else { count := -1, vector := [] }

def sampleAround : Surroundings where
  pcreExec := sampleExec
  fileFullPath := fun _ _ => (.notFound, [])
  ratelimiterAllow := fun _ => true

def sampleServer (routes : List Route) : Server where
  ip := 0
  port := 80
  domain := []
  route := routes

def sampleRequest (path : Bytes) : Request :=
  { httprequestCreate with
    method := .get
    path := path
    query := [{ key := ascii "sort", value := ascii "name" }] }

/-- A route behind one that does not match. -/
theorem decideService_query_user : (decideService sampleAround
        (sampleServer [nestedRoute [(.get, 1)], userRoute [(.get, 2)]])
        (sampleRequest (ascii "/users/7")) true).request.query =
      [{ key := ascii "sort", value := ascii "name" },
        { key := ascii "id", value := ascii "7" }] ∧
    ∃ before route after, [nestedRoute [(.get, 1)], userRoute [(.get, 2)]] =
          before ++ route :: after ∧
        (∀ tried ∈ before, tried.turn sampleAround
            (sampleServer [nestedRoute [(.get, 1)], userRoute [(.get, 2)]])
            .get (ascii "/users/7") = .passes) := by
  obtain ⟨before, route, after, split, passed, _⟩ :=
    decideService_query_iff sampleAround (fun _ number => number)
      (sampleServer [nestedRoute [(.get, 1)], userRoute [(.get, 2)]])
      (sampleRequest (ascii "/users/7")) true (.request 2 none)
      (by decide +kernel)
  exact ⟨by decide +kernel, before, route, after, split, passed⟩

/-- The handler of the second route sees the parameter of the first one, which
has no handler for the method. The second parameter of a route gets what a group
inside of the first one has captured. -/
theorem decideService_query_tried : (routeCreate (fun _ => true) (ascii "/users/{id|[0-9]+}") =
        .ok (userRoute []) ∧
      (decideService sampleAround (sampleServer [userRoute [(.post, 1)], userRoute [(.get, 2)]])
          (sampleRequest (ascii "/users/7")) true).service =
        .queue (.request 2 none) ∧
      (decideService sampleAround (sampleServer [userRoute [(.post, 1)], userRoute [(.get, 2)]])
          (sampleRequest (ascii "/users/7")) true).request.query =
        [{ key := ascii "sort", value := ascii "name" },
          { key := ascii "id", value := ascii "7" },
          { key := ascii "id", value := ascii "7" }] ∧
      (userRoute [(.get, 2)]).parameterPairs sampleAround
          (fun _ number => number) (ascii "/users/7") =
        [{ key := ascii "id", value := ascii "7" }]) ∧
    routeCreate (fun _ => true) (ascii "/{a|(x)}/{b|y}") = .ok (nestedRoute []) ∧
      (decideService sampleAround (sampleServer [nestedRoute [(.get, 1)]])
          (sampleRequest (ascii "/x/y")) true).request.query =
        [{ key := ascii "sort", value := ascii "name" },
          { key := ascii "a", value := ascii "x" },
          { key := ascii "b", value := ascii "x" }] ∧
      (nestedRoute [(.get, 1)]).parameterPairs sampleAround
          (fun _ number => if number = 2 then 3 else 1) (ascii "/x/y") =
        [{ key := ascii "a", value := ascii "x" },
          { key := ascii "b", value := ascii "y" }] := by
  decide +kernel

end CWebFramework.Http
