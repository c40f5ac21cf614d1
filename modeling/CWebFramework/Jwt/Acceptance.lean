import CWebFramework.Jwt.Decode

/-!
# What is accepted

`jwt_verify` stops behind the signature; `jwt_decode` goes on with the payload.
Up to there both report the same.  The signature covers the text up to the
second dot as it stands.  The text behind it counts only by its decoded bytes.
-/

namespace CWebFramework.Jwt

open Json Base64

variable {Pkey : Type} (crypto : Crypto Pkey) (numerals : Numerals LongDouble) (key : Key Pkey)

theorem ok_bind {ε α β : Type} (value : α) (next : α → Except ε β) :
    (Except.ok value >>= next) = next value := rfl

/-! ## Segments -/

theorem splitDot_eq_some {text before behind : Bytes}
    (split : splitDot text = some (before, behind)) :
    text = before ++ Byte.dot :: behind ∧ Byte.dot ∉ before := by
  induction text generalizing before with
  | nil => cases split
  | cons byte rest ih =>
    rw [splitDot] at split
    split_ifs at split with isDot
    · cases split
      exact ⟨by rw [isDot]; rfl, List.not_mem_nil⟩
    · obtain ⟨⟨first, second⟩, isSplit, same⟩ := Option.map_eq_some_iff.mp split
      cases same
      obtain ⟨rfl, noDot⟩ := ih isSplit
      refine ⟨rfl, ?_⟩
      rw [List.mem_cons, not_or]
      exact ⟨Ne.symm isDot, noDot⟩

private theorem splitDot_append {before : Bytes} (noDot : Byte.dot ∉ before) (behind : Bytes) :
    splitDot (before ++ Byte.dot :: behind) = some (before, behind) := by
  induction before with
  | nil => exact if_pos rfl
  | cons byte before ih =>
    rw [List.mem_cons, not_or] at noDot
    rw [List.cons_append, splitDot, if_neg (Ne.symm noDot.1), ih noDot.2]
    rfl

structure Segments (token header payload signature : Bytes) : Prop where
  whole : cstring token = header ++ Byte.dot :: (payload ++ Byte.dot :: signature)
  inHeader : Byte.dot ∉ header
  inPayload : Byte.dot ∉ payload

theorem Segments.unique {token header payload signature : Bytes}
    (segments : Segments token header payload signature) {header' payload' signature' : Bytes}
    (others : Segments token header' payload' signature') :
    header = header' ∧ payload = payload' ∧ signature = signature' := by
  have split := splitDot_append segments.inHeader (payload ++ Byte.dot :: signature)
  rw [← segments.whole, others.whole, splitDot_append others.inHeader,
    Option.some.injEq, Prod.mk.injEq] at split
  have splitBehind := splitDot_append segments.inPayload signature
  rw [← split.2, splitDot_append others.inPayload, Option.some.injEq, Prod.mk.injEq] at splitBehind
  exact ⟨split.1.symm, splitBehind.1.symm, splitBehind.2.symm⟩

private theorem decodeSegment_eq (segment : Bytes) :
    decodeSegment segment = base64Decode (base64urlToBase64 segment) := by
  unfold decodeSegment base64Decode
  dsimp only
  rw [← length_decodeLoop _ (base64urlToBase64 segment), List.take_length]

def segmentDocument (segment : Bytes) : Option (Document LongDouble) :=
  (jsonParse numerals (decodeSegment segment)).toOption

/-- The signature belongs to the text up to the second dot. -/
structure Signed (token header payload signature : Bytes) : Prop
    extends Segments token header payload signature where
  valid : jwtVerifyInternal crypto key (header ++ Byte.dot :: payload)
    (decodeSegment signature) = true

/-! ## The common part -/

/-- Both functions fail in the same way, or the token is signed and
`jwt_decode` goes on with the payload. -/
theorem token_cases (token : Bytes) : (∃ error, error ≠ .ok ∧
      verifyToken crypto numerals key token = .error error ∧
      decodeToken crypto numerals key token = .error error) ∨
    ∃ header payload signature document, Signed crypto key token header payload signature ∧
      verifyToken crypto numerals key token = .ok () ∧
      decodeToken crypto numerals key token =
        (orInvalid (segmentDocument numerals payload)).map (document, ·) := by
  unfold verifyToken decodeToken
  dsimp only
  cases isSplit : splitDot (cstring token) with
  | none => exact .inl ⟨.invalidToken, by decide, rfl, rfl⟩
  | some parts =>
    obtain ⟨header, behind⟩ := parts
    obtain ⟨whole, inHeader⟩ := splitDot_eq_some isSplit
    simp only [orInvalid, ok_bind]
    cases isSecond : splitDot behind with
    | none => exact .inl ⟨.invalidToken, by decide, rfl, rfl⟩
    | some parts =>
      obtain ⟨payload, signature⟩ := parts
      obtain ⟨rfl, inPayload⟩ := splitDot_eq_some isSecond
      simp only [ok_bind]
      have input : (cstring token).take (header.length + 1 + payload.length) =
          header ++ Byte.dot :: payload := by
        rw [whole, show header ++ Byte.dot :: (payload ++ Byte.dot :: signature) =
          (header ++ Byte.dot :: payload) ++ Byte.dot :: signature
          by simp]
        apply List.take_left'
        simp only [List.length_append, List.length_cons]
        omega
      rw [input]
      cases (jsonParse numerals (decodeSegment header)).toOption with
      | none => exact .inl ⟨.invalidToken, by decide, rfl, rfl⟩
      | some document =>
        simp only [ok_bind]
        split
        · split_ifs with mismatch invalid
          · exact .inl ⟨.algMismatch, by decide, rfl, rfl⟩
          · exact .inl ⟨.invalidSignature, by decide, rfl, rfl⟩
          · refine .inr ⟨header, payload, signature, document,
              ⟨⟨whole, inHeader, inPayload⟩, by simpa using invalid⟩,
              rfl, ?_⟩
            unfold segmentDocument
            cases (jsonParse numerals (decodeSegment payload)).toOption <;> rfl
        · exact .inl ⟨.invalidToken, by decide, rfl, rfl⟩

/-! ## Sample tokens -/

def sampleKey : Key Unit where
  alg := .hs256
  pkey := none
  secret := ascii "secret"

/-- HMAC-SHA256 of the texts that the sample tokens sign. -/
def sampleCrypto : Crypto Unit where
  hmac := fun _ _ data =>
    if data = ascii "eyJhbGciOiJIUzI1NiJ9.e30" then
      [94, 99, 74, 220, 106, 71, 221, 139, 63, 239, 11, 24, 5, 250, 184, 11,
        115, 58, 130, 140, 251, 212, 142, 221, 78, 5, 36, 184, 134, 185, 151,
        36]
    else if data = ascii "eyJhbGciOiJIUzI1NiJ9.eyJleHAiOjF9" then
      [52, 64, 251, 20, 58, 207, 36, 43, 64, 190, 18, 126, 59, 16, 30, 229,
        251, 116, 72, 138, 166, 13, 181, 26, 120, 169, 187, 219, 125, 208, 27,
        112]
    else
      [150, 28, 212, 208, 170, 61, 93, 79, 62, 253, 147, 106, 246, 74, 136,
        103, 10, 255, 244, 191, 251, 144, 14, 71, 224, 28, 226, 50, 108, 18,
        196, 74]
  digestVerify := fun _ _ _ _ => false
  ecdsaRawToDer := fun _ _ => none

def digitNumerals : Numerals LongDouble where
  strtold := fun text => .finite ((text.headD 0).toNat - 48)

/-- The payload is `{}`. -/
def emptyToken : Bytes :=
  ascii ("eyJhbGciOiJIUzI1NiJ9.e30." ++ "XmNK3GpH3Ys_7wsYBfq4C3M6goz71I7dTgUkuIa5lyQ")

/-- The payload is `{"exp":1}`. -/
def expToken : Bytes :=
  ascii ("eyJhbGciOiJIUzI1NiJ9.eyJleHAiOjF9." ++ "NED7FDrPJCtAvhJ-OxAe5ft0SIqmDbUaeKm7233QG3A")

/-- The payload is `{"nbf":9}`. -/
def nbfToken : Bytes :=
  ascii ("eyJhbGciOiJIUzI1NiJ9.eyJuYmYiOjl9." ++ "lhzU0Ko9XU8-_ZNq9kqIZwr_9L_7kA5H4BziMmwSxEo")

theorem sampleToken_results : (∀ token ∈ [emptyToken, emptyToken ++ ascii ".?", expToken, nbfToken],
      jwtVerify sampleCrypto digitNumerals sampleKey token = .ok) ∧
      (jwtDecode sampleCrypto digitNumerals sampleKey 2 expToken).error = .expired ∧
      ∀ token ∈ [emptyToken, emptyToken ++ ascii ".?", nbfToken],
        (jwtDecode sampleCrypto digitNumerals sampleKey 2 token).error =
          .ok := by
  decide +kernel

/-! ## Results -/

/-- A signed token and what `jwt_decode` reports of its payload, or the error
that both functions report. -/
theorem result_cases (now : Int) (token : Bytes) : jwtVerify crypto numerals key token ≠ .ok ∧
      (jwtDecode crypto numerals key now token).error = jwtVerify crypto numerals key token ∨
    ∃ header payload signature, Signed crypto key token header payload signature ∧
      jwtVerify crypto numerals key token = .ok ∧
      (jwtDecode crypto numerals key now token).error =
        match segmentDocument numerals payload with
        | none => .invalidToken
        | some document => if isExpired now document then .expired else .ok := by
  unfold jwtVerify jwtDecode
  rcases token_cases crypto numerals key token with
    ⟨error, isError, verified, decoded⟩ |
    ⟨header, payload, signature, document, signed, verified, decoded⟩
  · rw [verified, decoded]
    exact .inl ⟨isError, rfl⟩
  · rw [verified, decoded]
    refine .inr ⟨header, payload, signature, signed, rfl, ?_⟩
    cases segmentDocument numerals payload <;> rfl

/-- The two functions report the same, except for a token that `jwt_verify`
accepts: `jwt_decode` reports a payload that is no JSON text and an `exp` claim
in the past. -/
theorem jwtDecode_error (now : Int) (token : Bytes) : (jwtVerify crypto numerals key token ≠ .ok →
      (jwtDecode crypto numerals key now token).error = jwtVerify crypto numerals key token) ∧
    (jwtVerify crypto numerals key token = .ok →
      ∃ header payload signature, Segments token header payload signature ∧
        (jwtDecode crypto numerals key now token).error =
          match segmentDocument numerals payload with
          | none => .invalidToken
          | some document =>
            if isExpired now document then .expired else .ok) := by
  rcases result_cases crypto numerals key now token with
    ⟨isError, same⟩ | ⟨header, payload, signature, signed, isOk, decoded⟩
  · exact ⟨fun _ => same, fun isOk => absurd isOk isError⟩
  · exact ⟨fun isError => absurd isOk isError,
      fun _ => ⟨header, payload, signature, signed.toSegments, decoded⟩⟩

/-- `{}` is verified and decoded. -/
theorem jwtDecode_error_empty : ∃ header payload signature,
      Segments emptyToken header payload signature ∧
      (jwtDecode sampleCrypto digitNumerals sampleKey 2 emptyToken).error =
        match segmentDocument digitNumerals payload with
        | none => .invalidToken
        | some document => if isExpired 2 document then .expired else .ok :=
  (jwtDecode_error sampleCrypto digitNumerals sampleKey 2
    emptyToken).2 (sampleToken_results.1 _ (by simp))

/-- `{"exp":1}` is verified, but reported as expired. -/
theorem jwtVerify_expired : jwtVerify sampleCrypto digitNumerals sampleKey expToken = .ok ∧
      (jwtDecode sampleCrypto digitNumerals sampleKey 2 expToken).error = .expired :=
  ⟨sampleToken_results.1 _ (by simp), sampleToken_results.2.1⟩

/-- A token is accepted by one of the two functions. -/
def Accepted (now : Int) (token : Bytes) : Prop :=
  jwtVerify crypto numerals key token = .ok ∨ (jwtDecode crypto numerals key now token).error = .ok

theorem Accepted.signed {now : Int} {token : Bytes}
    (accepted : Accepted crypto numerals key now token) :
    ∃ header payload signature,
      Signed crypto key token header payload signature := by
  rcases result_cases crypto numerals key now token with
    ⟨isError, same⟩ | ⟨header, payload, signature, signed, -⟩
  · rcases accepted with isOk | isOk
    · exact absurd isOk isError
    · rw [same] at isOk
      exact absurd isOk isError
  · exact ⟨header, payload, signature, signed⟩

/-- The base64url text that `jwt_encode` writes for some bytes. -/
def IsCanonical (segment : Bytes) : Prop :=
  ∃ bytes, segment = base64ToBase64url (base64Encode bytes)

theorem IsCanonical.decode_inj {left right : Bytes}
    (isLeft : IsCanonical left) (isRight : IsCanonical right)
    (same : decodeSegment left = decodeSegment right) : left = right := by
  obtain ⟨bytes, rfl⟩ := isLeft
  obtain ⟨others, rfl⟩ := isRight
  rw [decodeSegment_eq, decodeSegment_eq, base64Decode_base64url, base64Decode_base64url] at same
  rw [same]

/-- An accepted token has two dots, and the signature covers the text up to the
second one as it stands.  Two accepted tokens with the same text there, the same
signature and canonical third segments are equal. -/
theorem accepted_segments (now : Int) (token : Bytes)
    (accepted : Accepted crypto numerals key now token) :
    ∃ header payload signature, Signed crypto key token header payload signature ∧
      ∀ (other otherSignature : Bytes), Accepted crypto numerals key now other →
        Segments other header payload otherSignature →
        IsCanonical signature → IsCanonical otherSignature →
        decodeSegment signature = decodeSegment otherSignature →
        cstring token = cstring other := by
  obtain ⟨header, payload, signature, signed⟩ := accepted.signed
  refine ⟨header, payload, signature, signed, ?_⟩
  intro other otherSignature _ segments isCanonical isOther same
  rw [signed.whole, segments.whole, isCanonical.decode_inj isOther same]

theorem accepted_segments_empty : ∃ header payload signature,
      Signed sampleCrypto sampleKey emptyToken header payload signature ∧
      ∀ (other otherSignature : Bytes), Accepted sampleCrypto digitNumerals sampleKey 2 other →
        Segments other header payload otherSignature →
        IsCanonical signature → IsCanonical otherSignature →
        decodeSegment signature = decodeSegment otherSignature →
        cstring emptyToken = cstring other :=
  accepted_segments sampleCrypto digitNumerals sampleKey 2 emptyToken
    (.inl (sampleToken_results.1 _ (by simp)))

/-- Both functions accept a token in which something stands behind the
signature, with a dot of its own. -/
theorem accepted_trailing : jwtVerify sampleCrypto digitNumerals sampleKey emptyToken = .ok ∧
      jwtVerify sampleCrypto digitNumerals sampleKey (emptyToken ++ ascii ".?") = .ok ∧
      (jwtDecode sampleCrypto digitNumerals sampleKey 2 emptyToken).error = .ok ∧
      (jwtDecode sampleCrypto digitNumerals sampleKey 2 (emptyToken ++ ascii ".?")).error = .ok ∧
      (emptyToken ++ ascii ".?").count Byte.dot = 3 :=
  ⟨sampleToken_results.1 _ (by simp), sampleToken_results.1 _ (by simp),
    sampleToken_results.2.2 _ (by simp), sampleToken_results.2.2 _ (by simp),
    by decide⟩

/-- A token whose `exp` claim is an integer in the past and not below the range
of `long long` is not accepted by `jwt_decode`. -/
theorem jwtDecode_expired (now : Int) (isClock : now ≤ llongMax)
    (token header payload signature : Bytes) (segments : Segments token header payload signature)
    (document : Document LongDouble) (isPayload : segmentDocument numerals payload = some document)
    (exp : Int) (isExp : member document (ascii "exp") = some (.number (.finite exp)))
    (isPast : exp < now) (inRange : llongMin ≤ exp) :
    (jwtDecode crypto numerals key now token).error ≠ .ok := by
  rcases result_cases crypto numerals key now token with
    ⟨isError, same⟩ | ⟨header', payload', signature', signed, -, decoded⟩
  · rw [same]
    exact isError
  · obtain ⟨-, samePayload, -⟩ := segments.unique signed.toSegments
    have converted : jsonLlong (.finite exp) = (exp, true) := by
      have notAbove : ¬ (llongMax : Rat) < exp := by
        rw [Int.cast_lt]
        omega
      have notBelow : ¬ (exp : Rat) < llongMin := by
        rw [Int.cast_lt]
        omega
      rw [jsonLlong, if_neg notAbove, if_neg notBelow]
      simp
    have expired : isExpired now document = true := by
      rw [isExpired, isExp]
      dsimp only
      rw [converted]
      exact decide_eq_true isPast
    rw [decoded, ← samePayload, isPayload]
    dsimp only
    rw [expired]
    decide

theorem jwtDecode_expired_one : (jwtDecode sampleCrypto digitNumerals sampleKey 2
      expToken).error ≠ .ok := by
  obtain ⟨document, isPayload⟩ : ∃ document,
      segmentDocument digitNumerals (ascii "eyJleHAiOjF9") = some document :=
    Option.isSome_iff_exists.mp (by decide +kernel)
  have isExp : (segmentDocument digitNumerals (ascii "eyJleHAiOjF9")).bind
      (member · (ascii "exp")) = some (.number (.finite (1 : Int))) := by
    decide +kernel
  rw [isPayload] at isExp
  exact jwtDecode_expired sampleCrypto digitNumerals sampleKey 2 (by decide) _
    (ascii "eyJhbGciOiJIUzI1NiJ9") (ascii "eyJleHAiOjF9") 
    (ascii "NED7FDrPJCtAvhJ-OxAe5ft0SIqmDbUaeKm7233QG3A")
    ⟨by decide +kernel, by decide +kernel, by decide +kernel⟩ document
    isPayload 1 isExp (by decide) (by decide)

/-- The token with `{"nbf":9}` is accepted at the time 2. -/
theorem accepted_notBefore : (segmentDocument digitNumerals (ascii "eyJuYmYiOjl9")).bind
        (member · (ascii "nbf")) = some (.number (.finite 9)) ∧
      jwtVerify sampleCrypto digitNumerals sampleKey nbfToken = .ok ∧
      (jwtDecode sampleCrypto digitNumerals sampleKey 2 nbfToken).error = .ok :=
  ⟨by decide +kernel, sampleToken_results.1 _ (by simp), sampleToken_results.2.2 _ (by simp)⟩

end CWebFramework.Jwt
