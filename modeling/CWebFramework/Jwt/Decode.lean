import CWebFramework.Json.Parser
import CWebFramework.Misc.Base64

/-!
# JSON Web Tokens

`jwt_decode` and `jwt_verify` of `misc/jwt.c`.  The functions of OpenSSL, the
conversion of `strtold` and the clock are parameters.
-/

namespace CWebFramework.Jwt

open Json Base64

/-! ## Numbers -/

/-- The value of a `long double`. -/
inductive LongDouble where
  | nan
  | infinite (negative : Bool)
  | finite (value : Rat)
  deriving DecidableEq

def llongMax : Int := 2 ^ 63 - 1

def llongMin : Int := -2 ^ 63

/-- `json_llong` on a number, and `ok`. -/
def jsonLlong : LongDouble → Int × Bool
  | .nan => (0, false)
  | .infinite negative => (if negative then llongMin else llongMax, false)
  | .finite value =>
    if (llongMax : Rat) < value then (llongMax, false)
    else if value < (llongMin : Rat) then (llongMin, false)
    else (value.num.tdiv value.den, true)

/-! ## Keys and signatures -/

inductive Result where
  | ok
  | invalidToken
  | invalidSignature
  | invalidKey
  | algMismatch
  | expired
  | memory
  | encoding
  | openssl
  deriving DecidableEq, Repr

inductive Alg where
  | none
  | hs256
  | hs384
  | hs512
  | rs256
  | rs384
  | rs512
  | es256
  | es384
  | es512
  | eddsa
  deriving DecidableEq, Repr

def algNames : List (Alg × Bytes) :=
  [(.none, ascii "none"), (.hs256, ascii "HS256"), (.hs384, ascii "HS384"),
    (.hs512, ascii "HS512"), (.rs256, ascii "RS256"), (.rs384, ascii "RS384"),
    (.rs512, ascii "RS512"), (.es256, ascii "ES256"), (.es384, ascii "ES384"),
    (.es512, ascii "ES512"), (.eddsa, ascii "EdDSA")]

def jwtAlgFromName (name : Bytes) : Alg :=
  match algNames.find? fun entry => cmpstrnLower entry.2 name with
  | some entry => entry.1
  | none => .none

/-- The digests of `get_md_for_alg`. -/
inductive Digest where
  | sha256
  | sha384
  | sha512
  deriving DecidableEq, Repr

def getMdForAlg : Alg → Option Digest
  | .hs256 | .rs256 | .es256 => some .sha256
  | .hs384 | .rs384 | .es384 => some .sha384
  | .hs512 | .rs512 | .es512 => some .sha512
  | .eddsa | .none => none

def getEcdsaSigSize : Alg → Nat
  | .es256 => 64
  | .es384 => 96
  | .es512 => 132
  | _ => 0

def getEcdsaComponentSize : Alg → Nat
  | .es256 => 32
  | .es384 => 48
  | .es512 => 66
  | _ => 0

structure Key (Pkey : Type) where
  alg : Alg
  pkey : Option Pkey
  secret : Bytes

/-- `HMAC`, `EVP_DigestVerify` with a digest or without, and
`ecdsa_raw_to_der`. -/
structure Crypto (Pkey : Type) where
  hmac : Digest → Bytes → Bytes → Bytes
  digestVerify : Pkey → Option Digest → Bytes → Bytes → Bool
  ecdsaRawToDer : Bytes → Nat → Option Bytes

section Verify

variable {Pkey : Type} (crypto : Crypto Pkey) (key : Key Pkey) (data signature : Bytes)

def difference (expected provided : Bytes) : UInt8 :=
  (expected.zip provided).foldl (fun diff pair => diff ||| (pair.1 ^^^ pair.2)) 0

def verifyHmac : Bool :=
  match getMdForAlg key.alg with
  | none => false
  | some digest =>
    let expected := crypto.hmac digest key.secret data
    if expected.length ≠ signature.length then false
    else difference expected signature == 0

def verifyRsa : Bool :=
  match getMdForAlg key.alg, key.pkey with
  | some digest, some pkey =>
    crypto.digestVerify pkey (some digest) data signature
  | _, _ => false

def verifyEcdsa : Bool :=
  match getMdForAlg key.alg, key.pkey with
  | some digest, some pkey =>
    if signature.length ≠ getEcdsaSigSize key.alg then false
    else
      match crypto.ecdsaRawToDer signature (getEcdsaComponentSize key.alg) with
      | none => false
      | some der => crypto.digestVerify pkey (some digest) data der
  | _, _ => false

def verifyEddsa : Bool :=
  match key.pkey with
  | none => false
  | some pkey => crypto.digestVerify pkey none data signature

def jwtVerifyInternal : Bool :=
  match key.alg with
  | .hs256 | .hs384 | .hs512 => verifyHmac crypto key data signature
  | .rs256 | .rs384 | .rs512 => verifyRsa crypto key data signature
  | .es256 | .es384 | .es512 => verifyEcdsa crypto key data signature
  | .eddsa => verifyEddsa crypto key data signature
  | .none => false

end Verify

/-! ## Tokens -/

def splitDot : Bytes → Option (Bytes × Bytes)
  | [] => none
  | byte :: rest =>
    if byte = Byte.dot then some ([], rest)
    else (splitDot rest).map fun parts => (byte :: parts.1, parts.2)

def decodeSegment (segment : Bytes) : Bytes :=
  let standard := base64urlToBase64 segment
  (base64Decode standard).take (decodedSize (codedCount standard))

def member (document : Document LongDouble) (name : Bytes) : Option (Kind LongDouble) := do
  let root ← document.root
  let token ← jsonObjectGet document.tokens root name
  some (document.tokens.node token).data

def isExpired (now : Int) (payload : Document LongDouble) : Bool :=
  match member payload (ascii "exp") with
  | some (.number value) =>
    let (exp, ok) := jsonLlong value
    ok && exp < now
  | _ => false

def orInvalid {α : Type} : Option α → Except Result α
  | none => .error .invalidToken
  | some value => .ok value

structure Decoded where
  header : Option (Document LongDouble)
  payload : Option (Document LongDouble)
  error : Result

section Tokens

variable {Pkey : Type} (crypto : Crypto Pkey) (numerals : Numerals LongDouble) (key : Key Pkey)

/-- `jwt_decode` up to the check of the claims. -/
def decodeToken (token : Bytes) : Except Result (Document LongDouble × Document LongDouble) := do
  let text := cstring token
  let (headerB64, behind) ← orInvalid (splitDot text)
  let (payloadB64, signatureB64) ← orInvalid (splitDot behind)
  let header ← orInvalid (jsonParse numerals (decodeSegment headerB64)).toOption
  match member header (ascii "alg") with
  | some (.string algStr) =>
    if jwtAlgFromName (cstring algStr) ≠ key.alg then .error .algMismatch
    else
      let signingInputLen := headerB64.length + 1 + payloadB64.length
      let providedSig := decodeSegment signatureB64
      if !jwtVerifyInternal crypto key (text.take signingInputLen) providedSig then
        .error .invalidSignature
      else do
        let payload ← orInvalid (jsonParse numerals (decodeSegment payloadB64)).toOption
        .ok (header, payload)
  | _ => .error .invalidToken

def jwtDecode (now : Int) (token : Bytes) : Decoded :=
  match decodeToken crypto numerals key token with
  | .error error => ⟨none, none, error⟩
  | .ok (header, payload) =>
    ⟨some header, some payload,
      if isExpired now payload then .expired else .ok⟩

/-- `jwt_verify`, an error or nothing. -/
def verifyToken (token : Bytes) : Except Result Unit := do
  let text := cstring token
  let (headerB64, behind) ← orInvalid (splitDot text)
  let (payloadB64, signatureB64) ← orInvalid (splitDot behind)
  let header ← orInvalid (jsonParse numerals (decodeSegment headerB64)).toOption
  match member header (ascii "alg") with
  | some (.string algStr) =>
    if jwtAlgFromName (cstring algStr) ≠ key.alg then .error .algMismatch
    else
      let signingInputLen := headerB64.length + 1 + payloadB64.length
      let sig := decodeSegment signatureB64
      if !jwtVerifyInternal crypto key (text.take signingInputLen) sig then
        .error .invalidSignature
      else .ok ()
  | _ => .error .invalidToken

def jwtVerify (token : Bytes) : Result :=
  match verifyToken crypto numerals key token with
  | .error error => error
  | .ok () => .ok

end Tokens

end CWebFramework.Jwt
