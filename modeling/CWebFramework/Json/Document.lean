import CWebFramework.Json.Strings
import CWebFramework.Linked.Forest

/-!
# Documents

The tokens of `misc/json.c` and the lookup in an object.
Tokens are nodes of a pool; the blocks and free lists behind
`json_token_alloc` are left out, and freed addresses are not used again.
-/

namespace CWebFramework.Json

open Forest

variable {Number : Type}

/-- `json_token_type_t` with the member of the union that belongs to it. -/
inductive Kind (Number : Type) where
  | object
  | array
  | string (text : Bytes)
  | bool (value : Bool)
  | null
  | number (value : Number)
  deriving DecidableEq, Repr

def Kind.isContainer : Kind Number → Bool
  | object | array => true
  | _ => false

def Kind.isObject : Kind Number → Bool
  | object => true
  | _ => false

def Kind.isArray : Kind Number → Bool
  | array => true
  | _ => false

inductive Container where
  | object
  | array
  deriving DecidableEq, Repr

def Container.kind : Container → Kind Number
  | object => .object
  | array => .array

def Container.includes : Container → Kind Number → Bool
  | object => Kind.isObject
  | array => Kind.isArray

abbrev Tokens (Number : Type) := Pool (Kind Number)

def noTokens : Tokens Number where
  node := fun _ => Node.single .null
  next := 0

structure Document (Number : Type) where
  tokens : Tokens Number
  root : Option Nat
  asciiMode : Bool

def setChildOrSibling (tokens : Tokens Number) (source target : Nat) : Tokens Number :=
  tokens.append Kind.isContainer source target

/-! ## Objects -/

/-- The comparison of a token with a key by `strcmp`. -/
def hasKey (tokens : Tokens Number) (key : Bytes) (token : Nat) : Bool :=
  match (tokens.node token).data with
  | .string text => cstring text == cstring key
  | _ => false

def jsonObjectGet (tokens : Tokens Number) (object : Nat) (key : Bytes) : Option Nat :=
  match (tokens.children object).find? (hasKey tokens key) with
  | none => none
  | some token => (tokens.node token).child

end CWebFramework.Json
