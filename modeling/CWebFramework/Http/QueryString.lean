import CWebFramework.Http.Request
import CWebFramework.Misc.UrlCoding

/-!
# Query strings

`query_stringify` writes the pairs of a query, and `queryparser_parse` reads
them.  What was written is read back.
-/

namespace CWebFramework.Http

/-- One pair, as `query_stringify` writes it. -/
def queryPair (query : Query) : Bytes :=
  urlencodel (cstring query.key) ++ Byte.equal :: urlencodel (cstring query.value)

def queryStringifyLoop : List Query → Bytes
  | [] => []
  | [query] => queryPair query
  | query :: next :: rest =>
    queryPair query ++ Byte.ampersand :: queryStringifyLoop (next :: rest)

/-- `query_stringify`. There is no string for an empty list. -/
def queryStringify (queries : List Query) : Option Bytes :=
  if queries = [] then none else some (queryStringifyLoop queries)

/-! ## Reading a pair -/

private theorem queryparserScan_key {text : Bytes}
    (plain : ∀ byte ∈ text, byte ≠ Byte.equal ∧ byte ≠ Byte.ampersand ∧
      byte ≠ Byte.hash) (key rest : Bytes) :
    queryparserScan key none (text ++ rest) = queryparserScan (key ++ text) none rest := by
  induction text generalizing key with
  | nil => rw [List.nil_append, List.append_nil]
  | cons byte text ih =>
    obtain ⟨notEqual, notAmpersand, notHash⟩ := plain byte (List.mem_cons_self ..)
    have later := ih (fun byte isIn => plain byte (List.mem_cons_of_mem _ isIn)) (key ++ [byte])
    rw [List.append_assoc] at later
    simpa [queryparserScan, notEqual, notAmpersand, notHash] using later

/-- In a value `=` does not separate. -/
theorem queryparserScan_value {text : Bytes}
    (plain : ∀ byte ∈ text, byte ≠ Byte.ampersand ∧ byte ≠ Byte.hash)
    (key value rest : Bytes) :
    queryparserScan key (some value) (text ++ rest) =
      queryparserScan key (some (value ++ text)) rest := by
  induction text generalizing value with
  | nil => rw [List.nil_append, List.append_nil]
  | cons byte text ih =>
    obtain ⟨notAmpersand, notHash⟩ := plain byte (List.mem_cons_self ..)
    have later := ih (fun byte isIn => plain byte (List.mem_cons_of_mem _ isIn)) (value ++ [byte])
    rw [List.append_assoc] at later
    simpa [queryparserScan, notAmpersand, notHash] using later

private theorem queryparserScan_queryPair (query : Query) (rest : Bytes) :
    queryparserScan [] none (queryPair query ++ rest) =
      queryparserScan (urlencodel (cstring query.key))
        (some (urlencodel (cstring query.value))) rest := by
  have keyFree := urlencodel_free (cstring query.key)
  have valueFree := urlencodel_free (cstring query.value)
  rw [queryPair, List.append_assoc, queryparserScan_key fun byte isIn =>
    ⟨(keyFree byte isIn).2.2.2.1, (keyFree byte isIn).2.2.1, (keyFree byte isIn).2.1⟩]
  rw [List.nil_append, List.cons_append, queryparserScan,
    if_pos ⟨rfl, rfl⟩, queryparserScan_value fun byte isIn =>
      ⟨(valueFree byte isIn).2.2.1, (valueFree byte isIn).2.1⟩,
    List.nil_append]

private theorem finishPair_urlencodel {query : Query} (keyText : 0 ∉ query.key)
    (valueText : 0 ∉ query.value) :
    finishPair (urlencodel (cstring query.key))
      (some (urlencodel (cstring query.value))) = query := by
  rw [finishPair, Option.getD_some, urldecodel_urlencodel,
    urldecodel_urlencodel, cstring_of_notMem keyText,
    cstring_of_notMem keyText, cstring_of_notMem valueText,
    cstring_of_notMem valueText]

theorem queryparserParse_queryStringifyLoop {queries : List Query} (nonempty : queries ≠ [])
    (texts : ∀ query ∈ queries, 0 ∉ query.key ∧ 0 ∉ query.value) :
    queryparserParse (queryStringifyLoop queries) = queries := by
  induction queries with
  | nil => exact absurd rfl nonempty
  | cons query queries ih =>
    obtain ⟨keyText, valueText⟩ := texts query (List.mem_cons_self ..)
    have pair := finishPair_urlencodel keyText valueText
    unfold queryparserParse at ih ⊢
    cases queries with
    | nil =>
      have alone := queryparserScan_queryPair query []
      rw [List.append_nil] at alone
      rw [queryStringifyLoop, alone, queryparserScan, pair]
    | cons next rest =>
      have later := ih (List.cons_ne_nil next rest)
        fun query isIn => texts query (List.mem_cons_of_mem _ isIn)
      rw [queryStringifyLoop, queryparserScan_queryPair, queryparserScan,
        if_neg (by simp), if_pos rfl, later, pair]

/-- Parsing what `query_stringify` has written gives the pairs in their
order. -/
theorem queryparserParse_queryStringify (queries : List Query) (nonempty : queries ≠ [])
    (texts : ∀ query ∈ queries, 0 ∉ query.key ∧ 0 ∉ query.value) :
    ∃ text, queryStringify queries = some text ∧ queryparserParse text = queries :=
  ⟨queryStringifyLoop queries, if_neg nonempty, queryparserParse_queryStringifyLoop nonempty texts⟩

/-- Two pairs with separators in the keys and in the values. -/
theorem queryparserParse_queryStringify_separators : ∃ text, queryStringify
          [{ key := ascii "a&b", value := ascii "1+2=3 #%41" },
            { key := ascii "c", value := [] }] = some text ∧
        queryparserParse text = [{ key := ascii "a&b", value := ascii "1+2=3 #%41" },
            { key := ascii "c", value := [] }] :=
  queryparserParse_queryStringify _ (by decide) (by decide)

end CWebFramework.Http
