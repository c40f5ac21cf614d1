import CWebFramework.Http.RouteSelection

/-!
# Primitive routes

A primitive route is compared with the path byte for byte, and when they differ
the dispatcher goes on to the pattern that was compiled from its template.  The
dot and the question mark do not make a template a regular expression, `$` also
matches before a line feed at the end of the path, and the pattern of a template
of more than 65533 bytes matches every path.
-/

namespace CWebFramework.Http

/-! ## The selection of a route -/

section Selection

variable (around : Surroundings) (server : Server) {method : Method}
  {path : Bytes}

theorem findServing_append {before : List Route} (passed : ∀ tried ∈ before,
      tried.turn around server method path = .passes)
    {route : Route}
    (serves : route.turn around server method path = .serves)
    (after : List Route) :
    findServing around server method path (before ++ route :: after) = some (before, route) := by
  induction before with
  | nil => rw [List.nil_append, findServing, serves]
  | cons tried before ih =>
    obtain ⟨first, others⟩ := List.forall_mem_cons.mp passed
    rw [List.cons_append, findServing, first, ih others]
    rfl

/-- The route at which the search arrives is selected if it serves the
request. -/
theorem findServing_reached_iff {before : List Route} (passed : ∀ tried ∈ before,
      tried.turn around server method path = .passes)
    (route : Route) (after : List Route) :
    findServing around server method path (before ++ route :: after) = some (before, route) ↔
      route.turn around server method path = .serves := by
  constructor
  · intro found
    obtain ⟨_, _, _, serves⟩ := findServing_eq_some around server found
    exact serves
  · intro serves
    exact findServing_append around server passed serves after

theorem Route.turn_serves_iff {route : Route} (noParams : route.param = [])
    (runs : (routeRunner server route method).isSome = true) :
    route.turn around server method path = .serves ↔ route.answer around path ≠ .refused := by
  unfold Route.turn
  rw [if_pos runs]
  cases route.answer around path with
  | whole => exact iff_of_true rfl nofun
  | captured result =>
    rw [noParams]
    exact iff_of_true rfl nofun
  | refused => exact iff_of_false nofun fun impossible => impossible rfl

end Selection

theorem Route.answer_primitive_iff {around : Surroundings} {route : Route}
    (primitive : route.isPrimitive = true) (path : Bytes) :
    route.answer around path ≠ .refused ↔ path = route.path ∨
        1 ≤ (around.pcreExec route.location path).count := by
  have compared : (route.isPrimitive && routeComparePrimitive route path) =
      true ↔ path = route.path := by
    rw [primitive, Bool.true_and, routeComparePrimitive, beq_iff_eq]
    exact eq_comm
  unfold Route.answer
  split_ifs with whole several one
  · exact iff_of_true nofun (Or.inl (compared.mp whole))
  · exact iff_of_true nofun (Or.inr (by omega))
  · exact iff_of_true nofun (Or.inr (by omega))
  · refine iff_of_false (fun impossible => impossible rfl) ?_
    rintro (same | matched)
    · exact whole (compared.mpr same)
    · omega

/-! ## Patterns of dots and of bytes that stand for themselves -/

def metacharacters : Bytes := ascii "\\?*[]()+^|${}"

/-- A text matches a whole path, with a dot for any byte other than a line
feed. -/
def dotMatches : Bytes → Bytes → Bool
  | [], [] => true
  | symbol :: text, byte :: path =>
    (symbol == byte || symbol == Byte.dot && byte != Byte.lf) && dotMatches text path
  | _, _ => false

/-- The text between `^` and `$` matches a path. -/
def anchoredMatches (text path : Bytes) : Bool :=
  dotMatches text path || path.getLast? == some Byte.lf && dotMatches text path.dropLast

/-- What PCRE documents for a pattern of dots and of bytes that stand for
themselves, compiled without options: the dot matches any byte other than a line
feed, and `$` the end of the subject or the place before a line feed at its
end.  The empty pattern and `$` alone are found in every subject. -/
structure PlainPatterns (pcreExec : Bytes → Bytes → PcreMatch) : Prop where
  empty : ∀ path, (pcreExec [] path).count = 1
  atEnd : ∀ path, (pcreExec (ascii "$") path).count = 1
  count_eq : ∀ text path : Bytes, (∀ byte ∈ text, byte ∉ metacharacters) →
      (pcreExec (anchored text) path).count =
        if anchoredMatches text path then 1 else -1

private theorem dotMatches_eq_iff {text : Bytes} (noDot : Byte.dot ∉ text)
    (path : Bytes) : dotMatches text path = true ↔ path = text := by
  induction text generalizing path with
  | nil => cases path <;> simp [dotMatches]
  | cons symbol text ih =>
    rw [List.mem_cons, not_or] at noDot
    obtain ⟨first, others⟩ := noDot
    cases path with
    | nil => exact iff_of_false nofun nofun
    | cons byte path =>
      have different : (symbol == Byte.dot) = false := by
        simpa using Ne.symm first
      rw [dotMatches, Bool.and_eq_true, ih others,
        different, Bool.false_and, Bool.or_false, beq_iff_eq,
        List.cons.injEq, eq_comm]

private theorem anchoredMatches_iff {text : Bytes} (noDot : Byte.dot ∉ text) (path : Bytes) :
    anchoredMatches text path = true ↔ path = text ∨ path = text ++ [Byte.lf] := by
  rw [anchoredMatches, Bool.or_eq_true, Bool.and_eq_true, beq_iff_eq,
    dotMatches_eq_iff noDot, dotMatches_eq_iff noDot]
  refine or_congr_right ⟨?_, ?_⟩
  · rintro ⟨isLast, rfl⟩
    exact (List.dropLast_append_getLast? Byte.lf isLast).symm
  · rintro rfl
    simp

/-! ## The selection of a primitive route -/

/-- A route behind the calls that set its handlers, its static files and its
rate limiter. -/
def Route.serving (created : Route) (handler : List (Method × HandlerPtr))
    (staticFile : List (Method × Bytes))
    (ratelimiter : Option RatelimiterPtr) : Route :=
  { created with
    handler := handler
    staticFile := staticFile
    ratelimiter := ratelimiter }

/-- A primitive route that the search arrives at is selected for its template and
for what the pattern of the template matches. -/
theorem findServing_primitive {compiles : Bytes → Bool} {template : Bytes} {created : Route}
    (isCreated : routeCreate compiles template = .ok created)
    (primitive : created.isPrimitive = true) {around : Surroundings} {server : Server}
    {handler : List (Method × HandlerPtr)} {staticFile : List (Method × Bytes)}
    {ratelimiter : Option RatelimiterPtr} {before : List Route} {method : Method} {path : Bytes}
    (reached : ∀ tried ∈ before, tried.turn around server method path = .passes)
    (runs : (routeRunner server
      (created.serving handler staticFile ratelimiter) method).isSome = true)
    (after : List Route) :
    findServing around server method path (before ++
            created.serving handler staticFile ratelimiter :: after) =
        some (before, created.serving handler staticFile ratelimiter) ↔
      path = template ∨ 1 ≤ (around.pcreExec (anchoredString template) path).count := by
  obtain ⟨-, isPath, isLocation, noParams⟩ := routeCreate_primitive isCreated primitive
  have samePath : (created.serving handler staticFile ratelimiter).path =
      template := isPath
  have sameLocation : (created.serving handler staticFile ratelimiter).location =
        anchoredString template := isLocation
  have sameParams : (created.serving handler staticFile ratelimiter).param = [] := noParams
  have stillPrimitive : (created.serving handler staticFile ratelimiter).isPrimitive = true :=
    primitive
  rw [findServing_reached_iff around server reached,
    Route.turn_serves_iff around server sameParams runs,
    Route.answer_primitive_iff stillPrimitive, samePath, sameLocation]

/-- A primitive route is selected for its template alone exactly if the pattern
of the template matches no other path. Without a dot or another symbol of a
pattern the one such path is the template with a line feed; behind 65533 bytes
all paths are. -/
theorem findServing_primitive_iff (compiles : Bytes → Bool) (around : Surroundings)
    (server : Server) (template : Bytes) (created : Route)
    (isCreated : routeCreate compiles template = .ok created)
    (primitive : created.isPrimitive = true) (handler : List (Method × HandlerPtr))
    (staticFile : List (Method × Bytes)) (ratelimiter : Option RatelimiterPtr)
    (before after : List Route) (method : Method) (path : Bytes)
    (reached : ∀ tried ∈ before, tried.turn around server method path = .passes)
    (runs : (routeRunner server (created.serving handler staticFile ratelimiter) method).isSome =
        true) :
    let selected : Prop :=
      findServing around server method path (before ++
            created.serving handler staticFile ratelimiter :: after) =
        some (before, created.serving handler staticFile ratelimiter)
    ((selected ↔ path = template) ↔ path = template ∨
          ¬ 1 ≤ (around.pcreExec (anchoredString template) path).count) ∧
      (PlainPatterns around.pcreExec → 65534 ≤ template.length →
        ((selected ↔ path = template) ↔ path = template)) ∧
      (PlainPatterns around.pcreExec → template.length < 65534 →
        (∀ byte ∈ template, byte ∉ metacharacters) → ((selected ↔ path = template) ↔
              path = template ∨ anchoredMatches template path = false) ∧
            (Byte.dot ∉ template → ((selected ↔ path = template) ↔
                path ≠ template ++ [Byte.lf]))) := by
  intro selected
  have isSelected : selected ↔ _ := findServing_primitive isCreated primitive reached runs after
  refine ⟨by tauto, fun plain long => ?_, fun plain short allPlain => ?_⟩
  · have bounded := (routeCreate_primitive isCreated primitive).1
    have found : (around.pcreExec (anchoredString template) path).count = 1 := by
      rw [anchoredString]
      split_ifs
      · exact plain.empty path
      · exact plain.atEnd path
      · omega
    rw [found] at isSelected
    tauto
  have counted : 1 ≤ (around.pcreExec (anchoredString template) path).count ↔
        anchoredMatches template path = true := by
    rw [anchoredString, if_neg (by omega), if_neg (by omega), plain.count_eq template path allPlain]
    split_ifs with isMatch
    · exact iff_of_true (by decide) isMatch
    · exact iff_of_false (by decide) isMatch
  rw [counted] at isSelected
  constructor
  · rw [← Bool.not_eq_true]
    tauto
  · intro noDot
    rw [anchoredMatches_iff noDot] at isSelected
    have longer : template ≠ template ++ [Byte.lf] := by simp
    constructor
    · rintro onlyTemplate rfl
      exact longer (onlyTemplate.mp (isSelected.mpr (by simp))).symm
    · tauto

/-- A matcher for the patterns of dots and of bytes that stand for
themselves. -/
def plainExec (location path : Bytes) : PcreMatch :=
  if location = [] ∨ location = ascii "$" ∨ anchoredMatches location.tail.dropLast path = true then
    { count := 1, vector := [(0, path.length)] }
  else { count := -1, vector := [] }

private theorem plainExec_plain : PlainPatterns plainExec where
  empty _ := rfl
  atEnd _ := rfl
  count_eq := by
    intro text path _
    have inner : (anchored text).tail.dropLast = text := by
      simp [anchored, ascii]
    have some_text : anchored text ≠ [] := by simp [anchored, ascii]
    have notEnd : anchored text ≠ ascii "$" := by simp [anchored, ascii]
    rw [plainExec, inner]
    simp only [some_text, notEnd, false_or]
    split_ifs <;> rfl

def plainAround : Surroundings where
  pcreExec := plainExec
  fileFullPath := fun _ _ => (.notFound, [])
  ratelimiterAllow := fun _ => true

/-- The route of a template without parameters. -/
def plainRoute (template : Bytes) : Route where
  isPrimitive := true
  path := template
  location := anchored template
  param := []
  handler := []
  staticFile := []
  ratelimiter := none

/-- `/health` behind `/about`, for the path `/health`. -/
theorem findServing_primitive_health :
    (∀ tried ∈ [(plainRoute (ascii "/about")).serving [(.get, 1)] [] none],
        tried.turn plainAround (sampleServer []) .get (ascii "/health") = .passes) ∧
      ((findServing plainAround (sampleServer []) .get (ascii "/health")
            ([(plainRoute (ascii "/about")).serving [(.get, 1)] [] none] ++
              (plainRoute (ascii "/health")).serving [(.get, 2)] [] none :: []) =
          some ([(plainRoute (ascii "/about")).serving [(.get, 1)] [] none],
            (plainRoute (ascii "/health")).serving [(.get, 2)] [] none) ↔
        ascii "/health" = ascii "/health") ↔
        ascii "/health" ≠ ascii "/health" ++ [Byte.lf]) := by
  have passed : ∀ tried ∈ [(plainRoute (ascii "/about")).serving [(.get, 1)] [] none],
        tried.turn plainAround (sampleServer []) .get (ascii "/health") =
          .passes :=
    forall_mem_of_all (by decide)
  have isCreated : routeCreate (fun _ => true) (ascii "/health") =
      .ok (plainRoute (ascii "/health")) := by decide +kernel
  have allPlain : ∀ byte ∈ ascii "/health", byte ∉ metacharacters := forall_mem_of_all (by decide)
  have instantiated := findServing_primitive_iff (fun _ => true) plainAround
    (sampleServer []) (ascii "/health") (plainRoute (ascii "/health"))
    isCreated rfl [(.get, 2)] [] none
    [(plainRoute (ascii "/about")).serving [(.get, 1)] [] none] [] .get
    (ascii "/health") passed rfl
  exact ⟨passed, (instantiated.2.2 plainExec_plain (by decide) allPlain).2 (by decide)⟩

/-- The route of `/robots.txt` is selected for `/robots-txt`, that of `/health`
for the path with a line feed at its end. -/
theorem findServing_primitive_dot : (routeCreate (fun _ => true) (ascii "/robots.txt") =
        .ok (plainRoute (ascii "/robots.txt")) ∧
      ascii "/robots-txt" ≠ ascii "/robots.txt" ∧
      findServing plainAround (sampleServer []) .get (ascii "/robots-txt")
          [(plainRoute (ascii "/robots.txt")).serving [(.get, 1)] [] none] =
        some ([], (plainRoute (ascii "/robots.txt")).serving [(.get, 1)] [] none)) ∧
    routeCreate (fun _ => true) (ascii "/health") = .ok (plainRoute (ascii "/health")) ∧
      ascii "/health\n" ≠ ascii "/health" ∧
      findServing plainAround (sampleServer []) .get (ascii "/health\n")
          [(plainRoute (ascii "/health")).serving [(.get, 1)] [] none] =
        some ([], (plainRoute (ascii "/health")).serving [(.get, 1)] [] none) := by
  decide +kernel

end CWebFramework.Http
