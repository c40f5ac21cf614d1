import CWebFramework.Http.Server

/-!
# Route templates

`route_create`: the template of a route is turned into the pattern that PCRE
compiles.  A parameter `{name|expression}` becomes a group, a template with
neither parameters nor the symbols of a regular expression is primitive.  The
loops of `route_parse_location` and `route_parse_token` are one loop over the
bytes of the template, with a token while it is inside of a parameter.

Allocations are assumed to succeed.
-/

namespace CWebFramework.Http

namespace Template

abbrev openParen : UInt8 := 40
abbrev closeParen : UInt8 := 41
abbrev backslash : UInt8 := 92
abbrev openBrace : UInt8 := 123
abbrev bar : UInt8 := 124
abbrev closeBrace : UInt8 := 125

end Template

inductive RouteError where
  | emptyPath
  | emptyToken
  | unopenedToken
  | unclosedToken
  | emptyParamName
  | emptyParamExpression
  | paramOneWord
  | regexAndParams
  /-- PCRE refuses the pattern; nothing is logged. -/
  | location
  /-- The positions of the parser have 16 bits and never get to the end of the
  template: `route_create` does not return a route. -/
  | endless
  deriving DecidableEq, Repr

/-- `route_parser_t`. The text up to `pos` is the list `location`, and `param`
holds the names of the parameters. -/
structure RouteParser where
  isPrimitive : Bool
  hasRegexSymbols : Bool
  location : Bytes
  param : List Bytes
  deriving DecidableEq, Repr

structure RouteToken where
  start : Nat
  separatorFound : Bool
  bracketsCount : Nat
  symbolFinded : Bool
  deriving DecidableEq, Repr

def RouteParser.insert (parser : RouteParser) (symbol : UInt8) : RouteParser :=
  { parser with location := parser.location ++ [symbol] }

/-- `route_fill_param` at the separator of a token, and the opening parenthesis
that takes the place of the name. -/
def RouteParser.fillParam (parser : RouteParser) (start : Nat) : Except RouteError RouteParser :=
  let name := parser.location.drop start
  if name = [] then .error .emptyParamName
  else
    .ok { parser with
      location := parser.location.take start ++ [Template.openParen]
      param := parser.param ++ [name] }

/-- A turn of the loop of `route_parse_token`. The second component is the
token behind the byte, or nothing at its end. -/
def routeParseToken (parser : RouteParser) (token : RouteToken)
    (byte next : UInt8) : Except RouteError (RouteParser × Option RouteToken) :=
  if byte = Template.openBrace then
    if token.separatorFound = false then .error .emptyToken
    else
      .ok (parser.insert byte, some { token with bracketsCount := token.bracketsCount + 1 })
  else if byte = Template.closeBrace then
    if token.separatorFound = false then .error .emptyToken
    else if parser.location.length - token.start ≤ 1 then
      .error .emptyParamExpression
    else if token.bracketsCount = 0 then
      .ok ({ parser.insert Template.closeParen with isPrimitive := false }, none)
    else
      .ok (parser.insert byte, some { token with bracketsCount := token.bracketsCount - 1 })
  else if byte = Template.backslash then
    if next = Template.closeBrace then .error .emptyParamExpression
    else if token.separatorFound then .ok (parser.insert byte, some token)
    else .ok (parser, some token)
  else if byte ∈ [Byte.ht, Byte.cr, Byte.lf, Byte.space] then
    if token.separatorFound = false ∧ token.symbolFinded = true ∧
        next ∉ [Byte.ht, Byte.cr, Byte.lf, Byte.space, Template.bar] then
      .error .paramOneWord
    else .ok (parser, some token)
  else if byte = Template.bar then
    if token.separatorFound then .ok (parser.insert byte, some token)
    else
      (parser.fillParam token.start).map fun filled =>
        (filled, some { token with separatorFound := true, symbolFinded := false })
  else .ok (parser.insert byte, some { token with symbolFinded := true })

def regexSymbols : Bytes := ascii "*[]()+^|$"

/-- The loops of `route_parse_location` and, inside of a token, of
`route_parse_token`. -/
def routeParse : RouteParser → Option RouteToken → Bytes → Except RouteError RouteParser
  | parser, none, [] => .ok parser
  | _, some _, [] => .error .unclosedToken
  | parser, some token, byte :: rest =>
    match routeParseToken parser token byte (rest.headD 0) with
    | .error error => .error error
    | .ok (behind, inside) => routeParse behind inside rest
  | parser, none, byte :: rest =>
    if byte = Template.openBrace then
      routeParse parser (some {
          start := parser.location.length
          separatorFound := false
          bracketsCount := 0
          symbolFinded := false })
        rest
    else if byte = Template.backslash then
      match rest with
      | [] => routeParse (parser.insert byte) none []
      | next :: others =>
        if next = Template.openBrace ∨ next = Template.closeBrace then
          routeParse ((parser.insert byte).insert next) none others
        else routeParse (parser.insert byte) none (next :: others)
    else if byte = Template.closeBrace then .error .unopenedToken
    else if byte ∈ regexSymbols then
      routeParse
        { parser.insert byte with
          hasRegexSymbols := true
          isPrimitive := false }
        none rest
    else routeParse (parser.insert byte) none rest

def anchored (location : Bytes) : Bytes := ascii "^" ++ location ++ ascii "$"

/-- The string that is left of the anchored text: `pos` has 16 bits, and behind
65534 characters the `$` or the terminating byte is written to the front. -/
def anchoredString (location : Bytes) : Bytes :=
  if location.length = 65534 then []
  else if location.length = 65535 then ascii "$"
  else anchored location

/-- `route_create`. `compiles` says whether PCRE accepts a pattern. -/
def routeCreate (compiles : Bytes → Bool) (dirtyLocation : Bytes) : Except RouteError Route :=
  if dirtyLocation = [] then .error .emptyPath
  else if 65536 ≤ dirtyLocation.length then .error .endless
  else
    match routeParse
      { isPrimitive := true
        hasRegexSymbols := false
        location := []
        param := [] } none dirtyLocation with
    | .error error => .error error
    | .ok parser =>
      let location :=
        if parser.isPrimitive ∨ parser.param ≠ [] then
          anchoredString parser.location
        else parser.location
      if parser.param ≠ [] ∧ parser.hasRegexSymbols then
        .error .regexAndParams
      else if compiles location then
        .ok {
          isPrimitive := parser.isPrimitive
          path := parser.location
          location := location
          param := parser.param
          handler := []
          staticFile := []
          ratelimiter := none }
      else .error .location

/-! ## Primitive templates -/

private theorem routeParseToken_inside {parser behind : RouteParser}
    {token : RouteToken} {inside : Option RouteToken} {byte next : UInt8}
    (turn : routeParseToken parser token byte next = .ok (behind, inside)) :
    inside ≠ none ∨ behind.isPrimitive = false := by
  unfold routeParseToken at turn
  cases filled : parser.fillParam token.start with
  | error error =>
    rw [filled] at turn
    split_ifs at turn <;> cases turn <;> simp
  | ok parser =>
    rw [filled] at turn
    split_ifs at turn <;> cases turn <;> simp

theorem routeParse_primitive {parser final : RouteParser} {token : Option RouteToken} {text : Bytes}
    (parsed : routeParse parser token text = .ok final)
    (primitive : final.isPrimitive = true) :
    (token = none ∧ parser.isPrimitive = true) ∧ final.location = parser.location ++ text ∧
      final.param = parser.param := by
  fun_induction routeParse parser token text with
  | case1 parser =>
    cases parsed
    exact ⟨⟨rfl, primitive⟩, (List.append_nil _).symm, rfl⟩
  | case2 parser token => cases parsed
  | case3 parser token byte rest error turn => cases parsed
  | case4 parser token byte rest behind inside turn ih =>
    obtain ⟨⟨closed, still⟩, _⟩ := ih parsed
    rcases routeParseToken_inside turn with opened | regular
    · exact absurd closed opened
    · rw [regular] at still
      cases still
  | case5 parser rest ih =>
    obtain ⟨⟨impossible, _⟩, _⟩ := ih parsed
    cases impossible
  | case6 parser _ ih =>
    obtain ⟨⟨_, still⟩, taken, params⟩ := ih parsed
    exact ⟨⟨rfl, still⟩, by simpa [RouteParser.insert] using taken, params⟩
  | case7 parser next others _ _ ih =>
    obtain ⟨⟨_, still⟩, taken, params⟩ := ih parsed
    exact ⟨⟨rfl, still⟩, by simpa [RouteParser.insert] using taken, params⟩
  | case8 parser next others _ _ ih =>
    obtain ⟨⟨_, still⟩, taken, params⟩ := ih parsed
    exact ⟨⟨rfl, still⟩, by simpa [RouteParser.insert] using taken, params⟩
  | case9 parser rest => cases parsed
  | case10 parser byte rest _ _ _ _ ih =>
    obtain ⟨⟨_, impossible⟩, _⟩ := ih parsed
    cases impossible
  | case11 parser byte rest _ _ _ _ ih =>
    obtain ⟨⟨_, still⟩, taken, params⟩ := ih parsed
    exact ⟨⟨rfl, still⟩, by simpa [RouteParser.insert] using taken, params⟩

theorem routeCreate_primitive {compiles : Bytes → Bool} {dirtyLocation : Bytes} {route : Route}
    (created : routeCreate compiles dirtyLocation = .ok route)
    (primitive : route.isPrimitive = true) :
    dirtyLocation.length < 65536 ∧ route.path = dirtyLocation ∧
      route.location = anchoredString dirtyLocation ∧
      route.param = [] := by
  unfold routeCreate at created
  split_ifs at created with isEmpty isLong
  refine ⟨Nat.lt_of_not_le isLong, ?_⟩
  split at created
  · cases created
  · rename_i parser parsed
    dsimp only at created
    split_ifs at created <;> cases created
    all_goals
      obtain ⟨_, taken, params⟩ := routeParse_primitive parsed primitive
      rw [List.nil_append] at taken
      simp_all

end CWebFramework.Http
