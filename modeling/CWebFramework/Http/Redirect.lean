import CWebFramework.Http.RequestParser

/-!
# Redirects

`redirect_get_uri` and `__get_redirect`: the redirects of a server are applied
to the path of a request until none of them matches.  An external target ends
the rewriting and closes the connection after the response; nine rewritings in
a row are a cycle.
-/

namespace CWebFramework.Http

/-- `redirect_status`. Allocations are assumed to succeed. -/
inductive RedirectStatus where
  | loopCycle
  | found
  | notFound
  | badRequest
  deriving DecidableEq, Repr

/-- The part of the subject that a capture group has matched, empty for a
group without a match. -/
def capturedString (string : Bytes) (result : PcreMatch) (number : Nat) :
    Bytes :=
  let offsets := result.group number
  if offsets.1 < 0 ∨ offsets.2 < offsets.1 then []
  else (string.drop offsets.1.toNat).take (offsets.2 - offsets.1).toNat

/-- The loop of `redirect_get_uri` over the parameters, from a position of the
template on. -/
def redirectAppend (template string : Bytes) (result : PcreMatch) : Nat → List RedirectParam → Bytes
  | startPos, [] => template.drop startPos
  | startPos, param :: rest =>
    (template.drop startPos).take (param.start - startPos) ++
      capturedString string result param.number ++
      redirectAppend template string result param.stop rest

/-- `redirect_get_uri`. The result is a C string, so it ends at the first NUL
that a decoded path brings in. -/
def redirectGetUri (redirect : Redirect) (string : Bytes) (result : PcreMatch) : Bytes :=
  cstring (redirectAppend redirect.template string result 0 redirect.param)

def redirectIsExternal (url : Bytes) : Bool :=
  decide (8 ≤ url.length) && ((ascii "http://").isPrefixOf url || (ascii "https://").isPrefixOf url)

/-- What `__get_redirect` returns and what it leaves behind. -/
structure RedirectResult where
  status : RedirectStatus
  request : Request
  keepalive : Bool

def findRedirect (pcreExec : Bytes → Bytes → PcreMatch) (redirects : List Redirect) (path : Bytes) :
    Option (Redirect × PcreMatch) :=
  redirects.findSome? fun redirect =>
    let result := pcreExec redirect.location path
    if result.count < 0 then none else some (redirect, result)

/-- The loop of `__get_redirect`. The first argument counts the rewritings
that are left before `loop_cycle` reaches its bound. -/
def getRedirectLoop (pcreExec : Bytes → Bytes → PcreMatch) (redirects : List Redirect) :
    Nat → Bool → Request → Bool → RedirectResult
  | 0, _, request, keepalive =>
    { status := .loopCycle, request := request, keepalive := keepalive }
  | cycles + 1, findNewLocation, request, keepalive =>
    match findRedirect pcreExec redirects request.path with
    | none =>
      { status := if findNewLocation then .found else .notFound
        request := request
        keepalive := keepalive }
    | some (redirect, result) =>
      let newUri := redirectGetUri redirect request.path result
      if redirectIsExternal newUri then
        { status := .found
          request := { request with uri := newUri, path := [] }
          keepalive := false }
      else
        match httpparserSetUri { request with uri := [], path := [] } newUri with
        | none =>
          { status := .badRequest
            request := { request with uri := [], path := [] }
            keepalive := keepalive }
        | some rewritten =>
          getRedirectLoop pcreExec redirects cycles true rewritten keepalive

def getRedirect (pcreExec : Bytes → Bytes → PcreMatch)
    (redirects : List Redirect) (request : Request) (keepalive : Bool) :
    RedirectResult :=
  getRedirectLoop pcreExec redirects 9 false request keepalive

/-! ## Resolution -/

section Resolution

variable (pcreExec : Bytes → Bytes → PcreMatch) (redirects : List Redirect)

def Unmatched (path : Bytes) : Prop :=
  ∀ redirect ∈ redirects, (pcreExec redirect.location path).count < 0

/-- A rewriting of the request by the first rule that matches: to an external
target, to a path of the server, or to a target that is refused. -/
inductive Rewrite (first : Request) : Request → Prop where
  | external {redirect : Redirect} {result : PcreMatch}
      (found : findRedirect pcreExec redirects first.path = some (redirect, result))
      (isExternal : redirectIsExternal (redirectGetUri redirect first.path result) = true) :
      Rewrite first { first with
        uri := redirectGetUri redirect first.path result, path := [] }
  | internal {redirect : Redirect} {result : PcreMatch} {next : Request}
      (found : findRedirect pcreExec redirects first.path = some (redirect, result))
      (accepted : httpparserSetUri { first with uri := [], path := [] }
        (redirectGetUri redirect first.path result) = some next) :
      Rewrite first next
  | refused {redirect : Redirect} {result : PcreMatch}
      (found : findRedirect pcreExec redirects first.path = some (redirect, result))
      (isRefused : httpparserSetUri { first with uri := [], path := [] }
        (redirectGetUri redirect first.path result) = none) :
      Rewrite first { first with uri := [], path := [] }

/-- A number of rewritings in a row. -/
inductive Rewrites : Nat → Request → Request → Prop where
  | zero (request : Request) : Rewrites 0 request request
  | succ {count : Nat} {first next last : Request} (step : Rewrite pcreExec redirects first next)
      (rest : Rewrites count next last) : Rewrites (count + 1) first last

variable {pcreExec redirects}

theorem Rewrite.once {first last : Request} (step : Rewrite pcreExec redirects first last) :
    Rewrites pcreExec redirects 1 first last :=
  .succ step (.zero last)

theorem Rewrites.eq_of_zero {first last : Request}
    (chain : Rewrites pcreExec redirects 0 first last) : last = first := by
  cases chain with
  | zero => rfl

private theorem unmatched_of_findRedirect {path : Bytes}
    (notFound : findRedirect pcreExec redirects path = none) :
    Unmatched pcreExec redirects path := by
  intro redirect isRule
  have passed := List.findSome?_eq_none_iff.mp notFound redirect isRule
  by_contra isMatch
  rw [if_neg isMatch] at passed
  cases passed

/-- What a result of the loop says about the rewritings before it. -/
structure Resolved (request : Request) (findNewLocation : Bool)
    (result : RedirectResult) (count : Nat) : Prop where
  rewritten : Rewrites pcreExec redirects count request result.request
  found : result.status = .found → (findNewLocation = true ∨ 0 < count) ∧
      (redirectIsExternal result.request.uri = true ∨
        Unmatched pcreExec redirects result.request.path)
  notFound : result.status = .notFound → findNewLocation = false ∧ count = 0 ∧
      Unmatched pcreExec redirects request.path

theorem getRedirectLoop_resolved (cycles : Nat) (findNewLocation : Bool)
    (request : Request) (keepalive : Bool) :
    ∃ count ≤ cycles, @Resolved pcreExec redirects request findNewLocation
      (getRedirectLoop pcreExec redirects cycles findNewLocation request keepalive) count := by
  induction cycles generalizing findNewLocation request with
  | zero => exact ⟨0, le_rfl, .zero request, nofun, nofun⟩
  | succ cycles ih =>
    unfold getRedirectLoop
    cases search : findRedirect pcreExec redirects request.path with
    | none =>
      have unmatched := unmatched_of_findRedirect search
      refine ⟨0, Nat.zero_le _, .zero request, ?_, ?_⟩
      · cases findNewLocation with
        | false => exact nofun
        | true => exact fun _ => ⟨.inl rfl, .inr unmatched⟩
      · cases findNewLocation with
        | false => exact fun _ => ⟨rfl, rfl, unmatched⟩
        | true => exact nofun
    | some both =>
      obtain ⟨redirect, result⟩ := both
      dsimp only
      split_ifs with isExternal
      · refine ⟨1, by omega, (Rewrite.external search isExternal).once, ?_, nofun⟩
        exact fun _ => ⟨.inr Nat.one_pos, .inl isExternal⟩
      · cases parsed : httpparserSetUri
          { request with uri := [], path := [] }
          (redirectGetUri redirect request.path result) with
        | none =>
          exact ⟨1, by omega, (Rewrite.refused search parsed).once, nofun, nofun⟩
        | some next =>
          -- the scan starts again at the first rule
          obtain ⟨count, isBounded, resolved⟩ := ih true next
          refine ⟨count + 1, by omega, .succ (.internal search parsed) resolved.rewritten, ?_, ?_⟩
          · intro isFound
            exact ⟨.inr count.succ_pos, (resolved.found isFound).2⟩
          · intro isNotFound
            cases (resolved.notFound isNotFound).1

/-- Whatever the rules are, `__get_redirect` ends after at most nine
rewritings.  It reports a new location only behind a rewriting, and then the
target is external or no rule matches its path; it reports none only if no
rule matches the path of the request, which it leaves as it is. -/
theorem getRedirect_resolved (pcreExec : Bytes → Bytes → PcreMatch)
    (redirects : List Redirect) (request : Request) (keepalive : Bool) :
    ∃ count ≤ 9, Rewrites pcreExec redirects count request
        (getRedirect pcreExec redirects request keepalive).request ∧
      ((getRedirect pcreExec redirects request keepalive).status = .found → 0 < count ∧
          (redirectIsExternal (getRedirect pcreExec redirects request
              keepalive).request.uri = true ∨
            Unmatched pcreExec redirects (getRedirect pcreExec redirects
              request keepalive).request.path)) ∧
      ((getRedirect pcreExec redirects request keepalive).status = .notFound →
        Unmatched pcreExec redirects request.path ∧
          (getRedirect pcreExec redirects request keepalive).request = request) := by
  obtain ⟨count, isBounded, rewritten, found, notFound⟩ :=
    @getRedirectLoop_resolved pcreExec redirects 9 false request keepalive
  refine ⟨count, isBounded, rewritten, ?_, ?_⟩
  · intro isFound
    obtain ⟨isApplied | applied, final⟩ := found isFound
    · cases isApplied
    · exact ⟨applied, final⟩
  · intro isNotFound
    obtain ⟨-, rfl, unmatched⟩ := notFound isNotFound
    exact ⟨unmatched, rewritten.eq_of_zero⟩

end Resolution

end CWebFramework.Http
