import CWebFramework.HttpClient.Url

/-!
# The parts of an absolute URL

What `httpclientparser.c` takes from an absolute URL, compared with the parts
that its text has: the scheme up to the first colon, the authority up to the
next `/`, `?` or `#`, without a user name, and so on.  The parser looks only at
the first characters of the scheme, takes a user name for a part of the host
and reads `+` in the path as a space.
-/

namespace CWebFramework.HttpClient

open Http

/-! ## The parts of a text -/

abbrev atSign : UInt8 := 64

structure UrlParts where
  useSsl : Bool
  host : Bytes
  port : Nat
  path : Bytes
  query : List Query
  deriving DecidableEq, Repr

def portText (authority : Bytes) : Bytes := (authority.dropWhile (· != Byte.colon)).tail

section Parts

variable (url : Bytes)

def urlScheme : Bytes := url.takeWhile (· != Byte.colon)

def behindScheme : Bytes := (url.dropWhile (· != Byte.colon)).drop 3

def urlAuthority : Bytes := (behindScheme url).takeWhile (! startsTarget ·)

def urlTarget : Bytes := (behindScheme url).dropWhile (! startsTarget ·)

def hostPort : Bytes :=
  if atSign ∈ urlAuthority url then
    ((urlAuthority url).dropWhile (· != atSign)).tail
  else urlAuthority url

def urlHost : Bytes := (hostPort url).takeWhile (· != Byte.colon)

def urlPort : Nat :=
  if portText (hostPort url) = [] then
    if urlScheme url = ascii "https" then 443 else 80
  else digitsValue (portText (hostPort url))

/-- The path as it is written; an empty one is `/`. -/
def urlPathText : Bytes :=
  let text := (urlTarget url).takeWhile (! isPathEnd ·)
  if text = [] then [Byte.slash] else text

def percentDecoded : Bytes → Bytes
  | [] => []
  | byte :: rest =>
    if byte = Byte.percent then
      match rest with
      | high :: low :: tail =>
        match hexCharToInt high, hexCharToInt low with
        | some hi, some lo => (hi <<< 4 ||| lo) :: percentDecoded tail
        | _, _ => byte :: percentDecoded (high :: low :: tail)
      | short => byte :: percentDecoded short
    else byte :: percentDecoded rest

def decodedPair (piece : Bytes) : Query where
  key := urldecodel (piece.takeWhile (· != Byte.equal))
  value := urldecodel (piece.dropWhile (· != Byte.equal)).tail

/-- The pieces between the `?` and the fragment. -/
def queryPieces : List Bytes :=
  match (urlTarget url).dropWhile (! isPathEnd ·) with
  | byte :: text =>
    if byte = Byte.question then
      (text.takeWhile (· != Byte.hash)).splitOn Byte.ampersand
    else []
  | [] => []

def urlQuery : List Query := (queryPieces url).map decodedPair

def urlParts : UrlParts where
  useSsl := urlScheme url = ascii "https"
  host := urlHost url
  port := urlPort url
  path := percentDecoded (urlPathText url)
  query := urlQuery url

end Parts

def UrlParser.parts (parser : UrlParser) : Option UrlParts := do
  let host ← parser.host
  let path ← parser.path
  return ⟨parser.useSsl, host, parser.port, path, parser.query⟩

/-! ## The pairs of a query -/

def finishedPair (piece : Bytes) : Query where
  key := cstring (decodedPair piece).key
  value := cstring (decodedPair piece).value

def pairText (key : Bytes) : Option Bytes → Bytes
  | none => key
  | some value => key ++ Byte.equal :: value

theorem finishedPair_pairText {key : Bytes} (plain : Byte.equal ∉ key) (value : Option Bytes) :
    finishedPair (pairText key value) = finishPair key value := by
  have isKey : ∀ byte ∈ key, (byte != Byte.equal) = true := by
    intro byte isIn
    rw [bne_iff_ne]
    exact ne_of_mem_of_not_mem isIn plain
  cases value with
  | none =>
    have whole : key.takeWhile (· != Byte.equal) = key := List.takeWhile_eq_self_iff.mpr isKey
    have nothing : key.dropWhile (· != Byte.equal) = [] := List.dropWhile_eq_nil_iff.mpr isKey
    simp only [finishedPair, decodedPair, pairText, whole, nothing]
    rfl
  | some value =>
    have front : (key ++ Byte.equal :: value).takeWhile (· != Byte.equal) =
        key := by
      rw [List.takeWhile_append_of_pos isKey, List.takeWhile_cons_of_neg (by simp), List.append_nil]
    have back : (key ++ Byte.equal :: value).dropWhile (· != Byte.equal) = Byte.equal :: value := by
      rw [List.dropWhile_append_of_pos isKey, List.dropWhile_cons_of_neg (by simp)]
    simp only [finishedPair, decodedPair, pairText, front, back]
    rfl

theorem splitOn_plain {piece : Bytes} (plain : Byte.ampersand ∉ piece) :
    piece.splitOn Byte.ampersand = [piece] := by
  refine List.splitOnP_eq_singleton fun byte isIn => ?_
  rw [beq_eq_false_iff_ne]
  exact ne_of_mem_of_not_mem isIn plain

theorem splitOn_append_ampersand {piece : Bytes} (plain : Byte.ampersand ∉ piece) (text : Bytes) :
    (piece ++ Byte.ampersand :: text).splitOn Byte.ampersand =
      piece :: text.splitOn Byte.ampersand := by
  have split : (piece ++ Byte.ampersand :: text).splitOn Byte.ampersand =
      piece.splitOn Byte.ampersand ++ text.splitOn Byte.ampersand :=
    List.splitOnP_append_cons piece text (by simp)
  rw [split, splitOn_plain plain, List.singleton_append]

private theorem pairText_push (key : Bytes) (value : Option Bytes) (byte : UInt8) :
    pairText key value ++ [byte] =
      match value with
      | none => pairText (key ++ [byte]) none
      | some given => pairText key (some (given ++ [byte])) := by
  cases value with
  | none => rfl
  | some given => simp [pairText]

private theorem finishPair_pieces {key : Bytes} {value : Option Bytes} (plainKey : Byte.equal ∉ key)
    (plain : Byte.ampersand ∉ pairText key value) :
    [finishPair key value] = ((pairText key value).splitOn Byte.ampersand).map finishedPair := by
  rw [splitOn_plain plain, List.map_singleton, finishedPair_pairText plainKey]

/-- The loop of `queryparser_parse` splits at every `&` in front of the
fragment. -/
theorem queryparserScan_eq {key : Bytes} {value : Option Bytes} (text : Bytes)
    (plainKey : Byte.equal ∉ key)
    (plain : Byte.ampersand ∉ pairText key value) :
    queryparserScan key value text =
      ((pairText key value ++ text.takeWhile (· != Byte.hash)).splitOn
        Byte.ampersand).map finishedPair := by
  induction text generalizing key value with
  | nil =>
    rw [queryparserScan, List.takeWhile_nil, List.append_nil]
    exact finishPair_pieces plainKey plain
  | cons byte text ih =>
    rw [queryparserScan.eq_def]
    dsimp only
    split_ifs with separates ampersand hash
    · obtain ⟨rfl, rfl⟩ := separates
      have opened : Byte.ampersand ∉ pairText key (some []) := by
        simpa [pairText, show Byte.ampersand ≠ Byte.equal by decide] using plain
      rw [ih plainKey opened, List.takeWhile_cons_of_pos (by decide)]
      simp [pairText]
    · subst ampersand
      have fresh : queryparserScan [] none text = ((text.takeWhile (· != Byte.hash)).splitOn
            Byte.ampersand).map finishedPair :=
        ih List.not_mem_nil List.not_mem_nil
      rw [fresh, List.takeWhile_cons_of_pos (by decide),
        splitOn_append_ampersand plain, List.map_cons,
        finishedPair_pairText plainKey]
    · subst hash
      rw [List.takeWhile_cons_of_neg (by simp), List.append_nil]
      exact finishPair_pieces plainKey plain
    · have kept : (byte :: text).takeWhile (· != Byte.hash) =
          byte :: text.takeWhile (· != Byte.hash) :=
        List.takeWhile_cons_of_pos (bne_iff_ne.mpr hash)
      have pushed : Byte.ampersand ∉ pairText key value ++ [byte] := by
        simpa [Ne.symm ampersand] using plain
      rw [kept, List.append_cons (pairText key value)]
      rw [pairText_push] at pushed ⊢
      cases value with
      | none =>
        refine ih ?_ pushed
        have notEqual : byte ≠ Byte.equal := fun same => separates ⟨same, rfl⟩
        simpa [Ne.symm notEqual] using plainKey
      | some given => exact ih plainKey pushed

private theorem queryparserParse_eq (text : Bytes) : queryparserParse text =
      ((text.takeWhile (· != Byte.hash)).splitOn Byte.ampersand).map
        finishedPair :=
  queryparserScan_eq text List.not_mem_nil List.not_mem_nil

/-! ## The stages -/

/-- The parser goes on to the target and ends with it. -/
structure UrlParser.Ends (parser final : UrlParser) (target : Bytes) : Prop where
  useSsl : final.useSsl = parser.useSsl
  host : final.host = parser.host
  port : final.port = parser.port
  path : final.path = some (targetPath target)
  query : final.query = targetQuery target

variable {parser final : UrlParser} {text : Bytes}

theorem UrlParser.loop_cons {byte : UInt8} {rest : Bytes}
    (run : parser.loop (byte :: rest) = .ok final) :
    ∃ next, parser.byte byte rest.isEmpty = .ok next ∧
      next.loop rest = .ok final := by
  rw [UrlParser.loop] at run
  cases step : parser.byte byte rest.isEmpty with
  | error error =>
    rw [step] at run
    cases run
  | ok next =>
    rw [step] at run
    exact ⟨next, rfl, run⟩

/-- The last character of the target. -/
theorem UrlParser.startUri_last_ends {byte : UInt8} (noQuery : parser.query = [])
    (step : parser.startUri byte true = .ok final) :
    parser.Ends final (parser.buf ++ [byte]) := by
  have nonempty : parser.buf ++ [byte] ≠ [] :=
    List.append_ne_nil_of_right_ne_nil _ (List.cons_ne_nil _ _)
  rw [UrlParser.startUri, if_pos rfl,
    UrlParser.setUri_eq (by exact noQuery) (by exact nonempty)] at step
  by_cases traversal : isPathTraversal (targetPath (parser.buf ++ [byte]))
  · rw [if_pos traversal] at step
    cases step
  · rw [if_neg traversal] at step
    cases step
    exact ⟨rfl, rfl, rfl, rfl, rfl⟩

theorem UrlParser.startUri_ends {byte : UInt8} {rest : Bytes} {next : UrlParser}
    (stage : parser.stage = .uri) (noQuery : parser.query = [])
    (step : parser.startUri byte rest.isEmpty = .ok next)
    (later : next.loop rest = .ok final) :
    parser.Ends final (parser.buf ++ byte :: rest) := by
  induction rest generalizing parser byte next with
  | nil =>
    cases later
    exact UrlParser.startUri_last_ends noQuery step
  | cons following others ih =>
    cases step
    obtain ⟨next, step, later⟩ := UrlParser.loop_cons later
    rw [UrlParser.byte, stage] at step
    have ends := ih rfl (by exact noQuery) step later
    rw [List.append_cons]
    exact ⟨ends.useSsl, ends.host, ends.port, ends.path, ends.query⟩

/-- An added `/` stands for an empty target. -/
theorem UrlParser.Ends.ofSlash (ends : parser.Ends final [Byte.slash]) : parser.Ends final [] :=
  ⟨ends.useSsl, ends.host, ends.port, ends.path, ends.query⟩

theorem UrlParser.setPort_eq {numbered : UrlParser} (isSet : parser.setPort = some numbered) :
    parser.buf ≠ [] ∧ parser.buf.all isdigit = true ∧
      numbered = { parser with port := digitsValue parser.buf } := by
  unfold UrlParser.setPort at isSet
  split_ifs at isSet with noDigits outside
  rw [not_or, Bool.not_eq_false] at noDigits
  cases isSet
  exact ⟨noDigits.1, noDigits.2, rfl⟩

theorem UrlParser.setHost_eq {hosted : UrlParser} (isSet : parser.setHost = some hosted) :
    hosted = { parser with host := some parser.buf } := by
  unfold UrlParser.setHost at isSet
  split_ifs at isSet
  cases isSet
  rfl

/-- From the port on, with the digits that the buffer has. -/
theorem UrlParser.loop_port (stage : parser.stage = .port) (noQuery : parser.query = [])
    (complete : final.stage = .protocol ∨ final.stage = .uri)
    (run : parser.loop text = .ok final) :
    parser.buf ++ text.takeWhile (! startsTarget ·) ≠ [] ∧
      (parser.buf ++ text.takeWhile (! startsTarget ·)).all isdigit = true ∧
      UrlParser.Ends
        { parser with
          port := digitsValue (parser.buf ++ text.takeWhile (! startsTarget ·)) }
        final (text.dropWhile (! startsTarget ·)) := by
  induction text generalizing parser with
  | nil =>
    cases run
    rw [stage] at complete
    simp at complete
  | cons byte rest ih =>
    obtain ⟨next, step, later⟩ := UrlParser.loop_cons run
    rw [UrlParser.byte, stage] at step
    dsimp only at step
    unfold portByte at step
    split_ifs at step with starts atEnd long
    · rw [List.takeWhile_cons_of_neg (by simp [starts]),
        List.dropWhile_cons_of_neg (by simp [starts]), List.append_nil]
      obtain ⟨numbered, isSet, step⟩ := ok_of_set step
      obtain ⟨nonempty, digits, rfl⟩ := UrlParser.setPort_eq isSet
      have ends := UrlParser.startUri_ends (by rfl) (by exact noQuery) step later
      exact ⟨nonempty, digits, ends.useSsl, ends.host, ends.port, ends.path, ends.query⟩
    · have nothing : rest = [] := List.isEmpty_iff.mp atEnd
      subst nothing
      rw [List.takeWhile_cons_of_pos (by simp [starts]),
        List.dropWhile_cons_of_pos (by simp [starts])]
      cases later
      obtain ⟨numbered, isSet, step⟩ := ok_of_set step
      obtain ⟨nonempty, digits, rfl⟩ := UrlParser.setPort_eq isSet
      have ends := UrlParser.Ends.ofSlash (UrlParser.startUri_last_ends (by exact noQuery) step)
      exact ⟨nonempty, digits, ends.useSsl, ends.host, ends.port, ends.path, ends.query⟩
    · cases step
      rw [List.takeWhile_cons_of_pos (by simp [starts]),
        List.dropWhile_cons_of_pos (by simp [starts]),
        List.append_cons parser.buf]
      have result := ih (by exact stage) (by exact noQuery) later
      exact ⟨result.1, result.2.1, result.2.2.useSsl, result.2.2.host,
        result.2.2.port, result.2.2.path, result.2.2.query⟩

/-- From the host on, with the characters that the buffer has. -/
theorem UrlParser.loop_host (stage : parser.stage = .host) (noQuery : parser.query = [])
    (complete : final.stage = .protocol ∨ final.stage = .uri)
    (run : parser.loop text = .ok final) :
    (portText (text.takeWhile (! startsTarget ·))).all isdigit = true ∧ UrlParser.Ends
        { parser with
          host := some (parser.buf ++
            (text.takeWhile (! startsTarget ·)).takeWhile (· != Byte.colon))
          port :=
            if portText (text.takeWhile (! startsTarget ·)) = [] then
              parser.port
            else digitsValue (portText (text.takeWhile (! startsTarget ·))) }
        final (text.dropWhile (! startsTarget ·)) := by
  induction text generalizing parser with
  | nil =>
    cases run
    rw [stage] at complete
    simp at complete
  | cons byte rest ih =>
    obtain ⟨next, step, later⟩ := UrlParser.loop_cons run
    rw [UrlParser.byte, stage] at step
    dsimp only at step
    unfold hostByte at step
    split_ifs at step with colon colonLast starts atEnd
    · -- A colon at the end leaves the stage of a port.
      have nothing : rest = [] := List.isEmpty_iff.mp colonLast
      subst nothing
      cases later
      obtain ⟨hosted, isSet, step⟩ := ok_of_set step
      cases UrlParser.setHost_eq isSet
      have sameStage := (UrlParser.startUri_last (by exact noQuery) (isTarget_singleton rfl) step).1
      rw [sameStage] at complete
      simp at complete
    · subst colon
      obtain ⟨hosted, isSet, step⟩ := ok_of_set step
      cases UrlParser.setHost_eq isSet
      cases step
      obtain ⟨nonempty, digits, ends⟩ := UrlParser.loop_port (by rfl)
        (by exact noQuery) complete later
      have isPort : portText (Byte.colon :: rest.takeWhile (! startsTarget ·)) =
          rest.takeWhile (! startsTarget ·) := rfl
      rw [List.takeWhile_cons_of_pos (by decide), List.dropWhile_cons_of_pos (by decide),
        List.takeWhile_cons_of_neg (by simp), isPort,
        if_neg (by exact nonempty), List.append_nil]
      exact ⟨digits, ends.useSsl, ends.host, ends.port, ends.path, ends.query⟩
    · rw [List.takeWhile_cons_of_neg (by simp [starts]),
        List.dropWhile_cons_of_neg (by simp [starts]), List.takeWhile_nil,
        List.append_nil]
      obtain ⟨hosted, isSet, step⟩ := ok_of_set step
      cases UrlParser.setHost_eq isSet
      have ends := UrlParser.startUri_ends (by rfl) (by exact noQuery) step later
      exact ⟨rfl, ends.useSsl, ends.host, ends.port, ends.path, ends.query⟩
    · have nothing : rest = [] := List.isEmpty_iff.mp atEnd
      subst nothing
      rw [List.takeWhile_cons_of_pos (by simp [starts]),
        List.dropWhile_cons_of_pos (by simp [starts]), List.takeWhile_nil,
        List.takeWhile_cons_of_pos (by simp [colon])]
      cases later
      obtain ⟨hosted, isSet, step⟩ := ok_of_set step
      cases UrlParser.setHost_eq isSet
      have ends := UrlParser.Ends.ofSlash (UrlParser.startUri_last_ends (by exact noQuery) step)
      have noPort : portText [byte] = [] := by
        simp [portText, colon]
      rw [noPort, if_pos rfl]
      exact ⟨rfl, ends.useSsl, ends.host, ends.port, ends.path, ends.query⟩
    · cases step
      have result := ih (by exact stage) (by exact noQuery) later
      have samePort (authority : Bytes) : portText (byte :: authority) = portText authority := by
        rw [portText, List.dropWhile_cons_of_pos (by simp [colon])]
        rfl
      rw [List.takeWhile_cons_of_pos (by simp [starts]),
        List.dropWhile_cons_of_pos (by simp [starts]), samePort,
        List.takeWhile_cons_of_pos (by simp [colon]),
        List.append_cons parser.buf]
      exact ⟨result.1, result.2.useSsl, result.2.host, result.2.port, result.2.path, result.2.query⟩

theorem UrlParser.loop_slashes (stage : parser.stage = .protocolSlash1)
    (complete : final.stage = .protocol ∨ final.stage = .uri)
    (run : parser.loop text = .ok final) :
    ∃ rest, text = Byte.slash :: Byte.slash :: rest ∧
      UrlParser.loop { parser with stage := .host } rest = .ok final := by
  cases text with
  | nil =>
    cases run
    rw [stage] at complete
    simp at complete
  | cons first text =>
    obtain ⟨next, step, later⟩ := UrlParser.loop_cons run
    rw [UrlParser.byte, stage] at step
    dsimp only at step
    unfold slashByte at step
    split_ifs at step with isSlash
    cases step
    cases text with
    | nil =>
      cases later
      simp at complete
    | cons second rest =>
      obtain ⟨next, step, later⟩ := UrlParser.loop_cons later
      rw [UrlParser.byte] at step
      dsimp only at step
      unfold slashByte at step
      split_ifs at step with isSecond
      cases step
      exact ⟨rest, by rw [isSlash, isSecond], later⟩

/-- From the scheme on, with the characters that the buffer has. -/
theorem UrlParser.loop_protocol (stage : parser.stage = .protocol) (noQuery : parser.query = [])
    (noHost : parser.host = none) (complete : final.stage = .protocol ∨ final.stage = .uri)
    (absolute : final.host ≠ none)
    (run : parser.loop text = .ok final) :
    ∃ named rest, UrlParser.setProtocol { parser with
        buf := parser.buf ++ text.takeWhile (· != Byte.colon) } = some named ∧
      text.dropWhile (· != Byte.colon) = Byte.colon :: Byte.slash :: Byte.slash :: rest ∧
      UrlParser.loop { named with stage := .host, buf := [] } rest =
        .ok final := by
  induction text generalizing parser with
  | nil =>
    cases run
    exact absurd noHost absolute
  | cons byte rest ih =>
    obtain ⟨next, step, later⟩ := UrlParser.loop_cons run
    rw [UrlParser.byte, stage] at step
    dsimp only at step
    unfold protocolByte at step
    split_ifs at step with slash collected colon atEnd long
    · have ends := UrlParser.startUri_ends (by rfl) (by exact noQuery) step later
      exact absurd (ends.host.trans noHost) absolute
    · subst colon
      rw [List.takeWhile_cons_of_neg (by simp),
        List.dropWhile_cons_of_neg (by simp), List.append_nil]
      obtain ⟨named, isSet, step⟩ := ok_of_set step
      cases step
      obtain ⟨behind, whole, last⟩ := UrlParser.loop_slashes (by rfl) complete later
      exact ⟨named, behind, isSet, by rw [whole], last⟩
    · cases step
      rw [List.takeWhile_cons_of_pos (by simp [colon]),
        List.dropWhile_cons_of_pos (by simp [colon]),
        List.append_cons parser.buf]
      exact ih (by exact stage) (by exact noQuery) (by exact noHost) later

/-- A scheme without further characters decides the flag and the port. -/
theorem UrlParser.setProtocol_exact {named : UrlParser} (isSet : parser.setProtocol = some named)
    (scheme : parser.buf = ascii "http" ∨ parser.buf = ascii "https") :
    named.useSsl = decide (parser.buf = ascii "https") ∧
      named.port = if parser.buf = ascii "https" then 443 else 80 := by
  rw [UrlParser.setProtocol] at isSet
  rcases scheme with plain | secure
  · rw [plain] at isSet ⊢
    cases isSet
    exact ⟨rfl, rfl⟩
  · rw [secure] at isSet ⊢
    cases isSet
    exact ⟨rfl, rfl⟩

/-- What the parser has taken from an absolute URL. -/
theorem httpclientparserParse_ends {useSsl : Bool} {url : Bytes}
    (accepted : httpclientparserParse useSsl url = .ok parser)
    (absolute : parser.host ≠ none) :
    ∃ named, UrlParser.setProtocol { httpclientparserReset useSsl with
        buf := urlScheme (cstring url) } = some named ∧
      (portText (urlAuthority (cstring url))).all isdigit = true ∧
      UrlParser.Ends
        { named with
          host := some ((urlAuthority (cstring url)).takeWhile (· != Byte.colon))
          port :=
            if portText (urlAuthority (cstring url)) = [] then named.port
            else digitsValue (portText (urlAuthority (cstring url))) }
        parser (urlTarget (cstring url)) := by
  obtain ⟨_, run, complete⟩ := httpclientparserParse_loop accepted
  obtain ⟨named, rest, isSet, behind, later⟩ := UrlParser.loop_protocol
    rfl rfl rfl complete absolute run
  have noQuery := UrlParser.setProtocol_query isSet
  obtain ⟨digits, ends⟩ := UrlParser.loop_host (by rfl) (by exact noQuery) complete later
  have isRest : behindScheme (cstring url) = rest := by
    rw [behindScheme, behind]
    rfl
  refine ⟨named, isSet, ?_⟩
  rw [urlAuthority, urlTarget, isRest]
  exact ⟨digits, ends.useSsl, ends.host, ends.port, ends.path, ends.query⟩

/-! ## Where the parts are those of the text -/

theorem urldecodel_eq_iff (text : Bytes) :
    urldecodel text = percentDecoded text ↔ Byte.plus ∉ text := by
  have percent : Byte.plus ≠ Byte.percent := by decide
  have space : Byte.space ≠ Byte.plus := by decide
  have noHexPlus : hexCharToInt Byte.plus = none := rfl
  induction text using urldecodel.induct with
  | case1 => exact iff_of_true rfl List.not_mem_nil
  | case2 high low tail hi lo isLow isHigh ih =>
    have notHigh : Byte.plus ≠ high := by
      rintro rfl
      cases noHexPlus.symm.trans isHigh
    have notLow : Byte.plus ≠ low := by
      rintro rfl
      cases noHexPlus.symm.trans isLow
    rw [urldecodel.eq_def, percentDecoded.eq_def]
    simpa [isHigh, isLow, notHigh, notLow, percent] using ih
  | case3 high low tail noHex ih =>
    rw [urldecodel.eq_def, percentDecoded.eq_def]
    simp only [↓reduceIte]
    rw [List.cons_inj_right, List.mem_cons, not_or, and_iff_right percent]
    exact ih
  | case4 short notLong ih =>
    rw [urldecodel.eq_def, percentDecoded.eq_def]
    simp only [↓reduceIte]
    rw [List.cons_inj_right, List.mem_cons, not_or, and_iff_right percent]
    exact ih
  | case5 rest notPercent ih =>
    rw [urldecodel.eq_def, percentDecoded.eq_def]
    simp [notPercent, space]
  | case6 byte rest notPercent notPlus ih =>
    rw [urldecodel.eq_def, percentDecoded.eq_def]
    simpa [notPercent, Ne.symm notPlus, notPlus] using ih

private theorem targetQuery_eq (url : Bytes) :
    targetQuery (urlTarget url) = (queryPieces url).map finishedPair := by
  unfold targetQuery queryPieces
  cases (urlTarget url).dropWhile (! isPathEnd ·) with
  | nil => rfl
  | cons byte text =>
    dsimp only
    by_cases question : byte = Byte.question
    · rw [if_pos question, if_pos question, queryparserParse_eq]
    · rw [if_neg question, if_neg question, List.map_nil]

private theorem targetQuery_eq_iff (url : Bytes) : targetQuery (urlTarget url) = urlQuery url ↔
      ∀ query ∈ urlQuery url, 0 ∉ query.key ∧ 0 ∉ query.value := by
  rw [targetQuery_eq, urlQuery, List.map_inj_left, List.forall_mem_map]
  refine forall₂_congr fun piece _ => ?_
  rw [← cstring_eq_self_iff, ← cstring_eq_self_iff]
  constructor
  · intro same
    exact ⟨congrArg Query.key same, congrArg Query.value same⟩
  · intro ⟨sameKey, sameValue⟩
    rw [finishedPair, sameKey, sameValue]

theorem takeWhile_dropWhile_colon (authority : Bytes) :
    (authority.dropWhile (· != Byte.colon)).takeWhile (· != Byte.colon) = [] := by
  induction authority with
  | nil => rfl
  | cons byte rest ih =>
    by_cases colon : byte = Byte.colon
    · rw [List.dropWhile_cons_of_neg (by simp [colon]),
        List.takeWhile_cons_of_neg (by simp [colon])]
    · rw [List.dropWhile_cons_of_pos (by simp [colon])]
      exact ih

/-- With digits behind the colon a user name is in front of it. -/
theorem atSign_mem_host {authority : Bytes} (digits : (portText authority).all isdigit = true)
    (isIn : atSign ∈ authority) :
    atSign ∈ authority.takeWhile (· != Byte.colon) := by
  have parts := List.takeWhile_append_dropWhile (p := (· != Byte.colon)) (l := authority)
  rw [← parts, List.mem_append] at isIn
  refine isIn.resolve_right fun behind => ?_
  unfold portText at digits
  cases rest : authority.dropWhile (· != Byte.colon) with
  | nil =>
    rw [rest] at behind
    cases behind
  | cons first text =>
    have isColon := takeWhile_dropWhile_colon authority
    rw [rest] at behind digits isColon
    have firstColon : first = Byte.colon := by
      by_contra other
      rw [List.takeWhile_cons_of_pos (by simp [other])] at isColon
      cases isColon
    rw [firstColon, List.mem_cons] at behind
    have inDigits := behind.resolve_left (by decide)
    exact absurd (List.all_eq_true.mp digits atSign inDigits) (by decide)

theorem urlHost_eq_iff {url : Bytes} (digits : (portText (urlAuthority url)).all isdigit = true) :
    (urlAuthority url).takeWhile (· != Byte.colon) = urlHost url ↔ atSign ∉ urlAuthority url := by
  constructor
  · intro same isIn
    obtain ⟨user, host, whole, plain⟩ := List.eq_append_cons_of_mem (atSign_mem_host digits isIn)
    have noColon : ∀ byte ∈ host, (byte != Byte.colon) = true := by
      intro byte inHost
      have inFront : byte ∈ (urlAuthority url).takeWhile (· != Byte.colon) := by
        rw [whole]
        exact List.mem_append_right _ (List.mem_cons_of_mem _ inHost)
      have colonFree := List.mem_takeWhile_imp inFront
      exact colonFree
    have isUser : ∀ byte ∈ user, (byte != atSign) = true := by
      intro byte inUser
      rw [bne_iff_ne]
      exact ne_of_mem_of_not_mem inUser plain
    have authority : urlAuthority url = user ++ atSign :: (host ++
        (urlAuthority url).dropWhile (· != Byte.colon)) := by
      have parts := List.takeWhile_append_dropWhile (p := (· != Byte.colon)) (l := urlAuthority url)
      rw [whole] at parts
      simpa using parts.symm
    have behindUser : hostPort url = host ++ (urlAuthority url).dropWhile (· != Byte.colon) := by
      rw [hostPort, if_pos isIn]
      conv_lhs => rw [authority]
      rw [List.dropWhile_append_of_pos isUser, List.dropWhile_cons_of_neg (by simp), List.tail_cons]
    rw [urlHost, behindUser, List.takeWhile_append_of_pos noColon,
      takeWhile_dropWhile_colon, List.append_nil, whole] at same
    have lengths := congrArg List.length same
    rw [List.length_append, List.length_cons] at lengths
    omega
  · intro noUser
    rw [urlHost, hostPort, if_neg noUser]

/-- For an accepted absolute URL the scheme and the parts are those of its
text where the scheme has no further characters, no user name is given, the
path has no `+` and no pair of the query has a NUL. -/
theorem httpclientparserParse_parts_iff {useSsl : Bool} {url : Bytes}
    (accepted : httpclientparserParse useSsl url = .ok parser)
    (absolute : parser.host ≠ none) :
    ((urlScheme (cstring url) = ascii "http" ∨ urlScheme (cstring url) = ascii "https") ∧
        parser.parts = some (urlParts (cstring url))) ↔
      (urlScheme (cstring url) = ascii "http" ∨ urlScheme (cstring url) = ascii "https") ∧
        atSign ∉ urlAuthority (cstring url) ∧
        Byte.plus ∉ urlPathText (cstring url) ∧
        ∀ query ∈ urlQuery (cstring url), 0 ∉ query.key ∧ 0 ∉ query.value := by
  refine and_congr_right fun scheme => ?_
  obtain ⟨named, isSet, digits, ends⟩ := httpclientparserParse_ends accepted absolute
  obtain ⟨sameSsl, samePort⟩ := UrlParser.setProtocol_exact isSet scheme
  have taken : parser.parts = some {
      useSsl := decide (urlScheme (cstring url) = ascii "https")
      host := (urlAuthority (cstring url)).takeWhile (· != Byte.colon)
      port :=
        if portText (urlAuthority (cstring url)) = [] then
          if urlScheme (cstring url) = ascii "https" then 443 else 80
        else digitsValue (portText (urlAuthority (cstring url)))
      path := urldecodel (urlPathText (cstring url))
      query := targetQuery (urlTarget (cstring url)) } := by
    rw [UrlParser.parts, ends.host, ends.path, ends.useSsl, ends.port,
      ends.query, sameSsl, samePort]
    rfl
  rw [taken, Option.some_inj, ← urlHost_eq_iff digits, ← urldecodel_eq_iff, ← targetQuery_eq_iff]
  constructor
  · intro same
    exact ⟨congrArg UrlParts.host same, congrArg UrlParts.path same, congrArg UrlParts.query same⟩
  · intro ⟨sameHost, samePath, sameQuery⟩
    have noUser := (urlHost_eq_iff digits).mp sameHost
    rw [urlParts, ← sameHost, ← samePath, ← sameQuery, urlPort, hostPort, if_neg noUser]

def portUrl : UrlParser where
  stage := .uri
  buf := []
  useSsl := true
  port := 8080
  host := some (ascii "h")
  uri := some (ascii "/a?b=c+d")
  path := some (ascii "/a")
  query := [{ key := ascii "b", value := ascii "c d" }]

/-- A URL with a port, a query and a fragment. -/
theorem httpclientparserParse_parts_port :
    httpclientparserParse false (ascii "https://h:8080/%61?b=c+d#e") = .ok portUrl ∧
      portUrl.host ≠ none ∧
      portUrl.parts = some (urlParts (cstring (ascii "https://h:8080/%61?b=c+d#e"))) := by
  have accepted : httpclientparserParse false
      (ascii "https://h:8080/%61?b=c+d#e") = .ok portUrl := by
    decide +kernel
  have plain := (httpclientparserParse_parts_iff accepted nofun).mpr (by decide +kernel)
  exact ⟨accepted, nofun, plain.2⟩

/-- A scheme that only starts with `http`, a user name and a `+` in the
path. -/
theorem httpclientparserParse_user : (httpclientparserParse false (ascii "httpx://u@h/a+b")).map
        UrlParser.parts =
      .ok (some {
        useSsl := false
        host := ascii "u@h"
        port := 80
        path := ascii "/a b"
        query := [] }) ∧
      urlScheme (ascii "httpx://u@h/a+b") = ascii "httpx" ∧
      urlHost (ascii "httpx://u@h/a+b") = ascii "h" ∧
      percentDecoded (urlPathText (ascii "httpx://u@h/a+b")) = ascii "/a+b" := by
  decide +kernel

end CWebFramework.HttpClient
