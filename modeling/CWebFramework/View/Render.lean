import CWebFramework.Json.Iterator

/-!
# Rendering views

The renderer of `framework/view/view.c` with the copies of the loop tags, and
the variables of `viewexpr.c`.  A loop over an object keeps the key of the
current member in a buffer of `VIEWPARSER_VARIABLE_ITEM_NAME_SIZE` bytes.
-/

namespace CWebFramework.View

open Json

variable {Number : Type}

/-! ## Expressions -/

/-- `viewexpr_value_t`; a string ends in front of its first `NUL`. -/
inductive Value (Number : Type) where
  | null
  | bool (value : Bool)
  | number (value : Number)
  | string (text : Bytes)
  | token (token : Nat)
  deriving DecidableEq, Repr

def valueFromToken (tokens : Tokens Number) : Option Nat → Value Number
  | none => .null
  | some token =>
    match (tokens.node token).data with
    | .string text => .string (cstring text)
    | .number value => .number value
    | .bool value => .bool value
    | .object | .array => .token token
    | .null => .null

/-- `viewexpr_op_e` of unary and binary nodes. -/
inductive Op where
  | not | neg | or | and | eq | ne | lt | le | gt | ge
  | add | sub | mul | div | mod
  deriving DecidableEq, Repr

/-- The numbers and the operators of expressions. -/
structure Arithmetic (Number : Type) where
  ofIndex : Int → Number
  position : Number → Option Nat
  isTrue : Number → Bool
  format : Number → Bytes
  unary : Op → Value Number → Value Number
  binary : Op → Value Number → Value Number → Value Number

mutual

inductive Node (Number : Type) where
  | literal (value : Value Number)
  | variable (name : Bytes) (path : Path Number)
  | unary (op : Op) (node : Node Number)
  | binary (op : Op) (left right : Node Number)

/-- `viewexpr_segment_t`, the segments behind the first one. -/
inductive Path (Number : Type) where
  | nil
  | name (name : Bytes) (next : Path Number)
  | index (node : Node Number) (next : Path Number)

end

variable (arithmetic : Arithmetic Number) (tokens : Tokens Number)

def memberToken (name : Bytes) : Value Number → Option Nat
  | .token token =>
    match (tokens.node token).data with
    | .object => jsonObjectGet tokens token name
    | _ => none
  | _ => none

def indexToken (index : Value Number) : Value Number → Option Nat
  | .token token =>
    match (tokens.node token).data, index with
    | .array, .number number =>
      (arithmetic.position number).bind fun position =>
        (tokens.children token)[position]?
    | .object, .string text => jsonObjectGet tokens token text
    | _, _ => none
  | _ => none

mutual

def evalNode (resolve : Bytes → Value Number) : Node Number → Value Number
  | .literal value => value
  | .variable name path => evalVariable resolve path (resolve name)
  | .unary op node => arithmetic.unary op (evalNode resolve node)
  | .binary op left right =>
    arithmetic.binary op (evalNode resolve left) (evalNode resolve right)

def evalVariable (resolve : Bytes → Value Number) : Path Number → Value Number → Value Number
  | .nil, value => value
  | .name name next, value =>
    match memberToken tokens name value with
    | none => .null
    | some token =>
      evalVariable resolve next (valueFromToken tokens (some token))
  | .index node next, value =>
    match indexToken arithmetic tokens (evalNode resolve node) value with
    | none => .null
    | some token =>
      evalVariable resolve next (valueFromToken tokens (some token))

end

def valueIsTrue : Value Number → Bool
  | .null => false
  | .bool value => value
  | .number value => arithmetic.isTrue value
  | .string text => !text.isEmpty
  | .token token => 0 < (tokens.node token).size

/-! ## The copies of the loop tags -/

def itemNameSize : Nat := 80

structure LoopTag where
  address : Nat
  elementName : Bytes
  keyName : Bytes
  deriving DecidableEq, Repr

/-- `view_loop_copy_t`.  A loop tag is given by itself and the loops around it:
its `data_parent` is the rest of the list. -/
structure LoopCopy where
  source : List LoopTag
  keyValue : Bytes
  keyIndex : Int
  keyIsIndex : Bool
  token : Option Nat
  deriving DecidableEq, Repr

def copyLoopTagGet (copies : List LoopCopy) (tag : List LoopTag) : Option LoopCopy :=
  copies.find? fun copy => copy.source == tag

def copyLoopTagAdd (copies : List LoopCopy) (tag : List LoopTag) : List LoopCopy :=
  copies ++ [⟨tag, [], 0, false, none⟩]

/-- The copy of a loop tag is changed in its place. -/
def copyLoopTagSet (copies : List LoopCopy) (changed : LoopCopy) : List LoopCopy :=
  copies.map fun copy => if copy.source == changed.source then changed else copy

def scopeResolve (root : Option Nat) (copies : List LoopCopy) : List LoopTag → Bytes → Value Number
  | [], name => document name
  | loop :: around, name =>
    match copyLoopTagGet copies (loop :: around) with
    | none => document name
    | some copy =>
      if name = loop.keyName then
        if copy.keyIsIndex then .number (arithmetic.ofIndex copy.keyIndex)
        else .string copy.keyValue
      else if name = loop.elementName then valueFromToken tokens copy.token
      else scopeResolve root copies around name
where
  document (name : Bytes) : Value Number :=
    match root with
    | none => .null
    | some object =>
      valueFromToken tokens (memberToken tokens name (.token object))

/-! ## The renderer -/

structure Place where
  offset : Nat
  size : Nat
  deriving DecidableEq, Repr

/-- `view_tag_t` with its links to the first child and to the next tag. -/
inductive Tag (Number : Type) where
  | none
  | var (place : Place) (expr : Node Number) (next : Tag Number)
  | cond (place : Place) (child next : Tag Number)
  | condItem (alwaysTrue : Bool) (expr : Node Number) (content : Bytes) (child next : Tag Number)
  | loop (place : Place) (tag : LoopTag) (expr : Node Number)
      (content : Bytes) (child next : Tag Number)
  | inc (place : Place) (content : Bytes) (child next : Tag Number)

def Tag.isNone : Tag Number → Bool
  | none => true
  | _ => false

/-- The text around tags; the items of a condition stand at the place of the
condition. -/
structure Around where
  content : Bytes
  place : Place
  last : Bool

/-- The text inside a tag. -/
def Around.inside (content : Bytes) : Around where
  content := content
  place := ⟨0, 0⟩
  last := false

def Around.before (around : Around) (place : Place) : Bytes :=
  (around.content.drop place.offset).take place.size

def Around.behind (around : Around) (place : Place) (last : Bool) : Bytes :=
  if last then around.content.drop (place.offset + place.size) else []

/-- The iterator in each round of a loop. -/
def iterationsFrom : Nat → It Number → List (It Number)
  | 0, _ => []
  | bound + 1, it =>
    if jsonEndIt tokens it then []
    else
      it :: match jsonNextIt tokens it with
        | none => []
        | some next => iterationsFrom bound next

def iterations (owner : Nat) : List (It Number) :=
  iterationsFrom tokens ((tokens.node owner).size + 1) (jsonInitIt tokens owner)

structure Frame (Number : Type) where
  tag : LoopTag
  owner : Nat
  it : It Number

def loopTags (frames : List (Frame Number)) : List LoopTag := frames.map Frame.tag

/-- What `json_it_key` gives for an object. -/
def itKey (it : It Number) : Bytes :=
  match it.key.bind (jsonString tokens) with
  | none => []
  | some text => cstring text

/-- The copy of the loop tag in a round; `snprintf` cuts the key. -/
def frameCopy (frame : Frame Number) (around : List LoopTag) : LoopCopy :=
  match frame.it.type with
  | .object =>
    ⟨frame.tag :: around, (itKey tokens frame.it).take (itemNameSize - 1), 0, false, frame.it.value⟩
  | _ =>
    ⟨frame.tag :: around, (longText frame.it.index).take (itemNameSize - 1), frame.it.index,
      true, frame.it.value⟩

structure Scope (Number : Type) where
  copies : List LoopCopy
  frames : List (Frame Number)

/-- The state of the renderer; `scopes` has the scope of every round and of
every expression. -/
structure Render (Number : Type) where
  copies : List LoopCopy
  output : Bytes
  scopes : List (Scope Number)

def Render.write (state : Render Number) (text : Bytes) : Render Number :=
  { state with output := state.output ++ text }

def Render.note (state : Render Number) (frames : List (Frame Number)) : Render Number :=
  { state with scopes := state.scopes ++ [⟨state.copies, frames⟩] }

def valueText : Value Number → Bytes
  | .string text => text
  | .number value => arithmetic.format value
  | .bool true => ascii "true"
  | .bool false => ascii "false"
  | _ => []

def evalTag (root : Option Nat) (frames : List (Frame Number))
    (copies : List LoopCopy) (expr : Node Number) : Value Number :=
  evalNode arithmetic tokens (scopeResolve arithmetic tokens root copies (loopTags frames)) expr

/-- The copy of a loop tag is looked for and made if there is none. -/
def Render.copyTag (state : Render Number) (tag : List LoopTag) : Render Number :=
  if (copyLoopTagGet state.copies tag).isNone then
    { state with copies := copyLoopTagAdd state.copies tag }
  else state

def Render.enter (state : Render Number) (frame : Frame Number)
    (frames : List (Frame Number)) : Render Number :=
  let copies := copyLoopTagSet state.copies (frameCopy tokens frame (loopTags frames))
  Render.note { state with copies := copies } (frame :: frames)

/-- A tag without children is its text. -/
def Render.plain (state : Render Number) (child : Tag Number) (content : Bytes) : Render Number :=
  if child.isNone then state.write content else state

def buildContent (root : Option Nat) :
    Tag Number → Around → List (Frame Number) → Render Number → Render Number
  | .none, _, _, state => state
  | .var place expr next, around, frames, state =>
    let value := evalTag arithmetic tokens root frames state.copies expr
    let state := ((state.write (around.before place)).note frames).write
      (valueText arithmetic value)
    buildContent root next around frames (state.write (around.behind place next.isNone))
  | .cond place child next, around, frames, state =>
    buildContent root next around frames
      (buildContent root child ⟨around.content, place, next.isNone⟩ frames state)
  | .condItem alwaysTrue expr content child next, around, frames, state =>
    let isTrue := alwaysTrue || valueIsTrue arithmetic tokens
      (evalTag arithmetic tokens root frames state.copies expr)
    let state := if alwaysTrue then state else state.note frames
    if isTrue then
      let state := state.write (around.before around.place)
      let state := buildContent root child (.inside content) frames (state.plain child content)
      state.write (around.behind around.place around.last)
    else if next.isNone then
      let state := state.write (around.before around.place)
      state.write (around.behind around.place around.last)
    else buildContent root next around frames state
  | .loop place tag expr content child next, around, frames, state =>
    let state := state.copyTag (tag :: loopTags frames)
    let value := evalTag arithmetic tokens root frames state.copies expr
    let state := (state.write (around.before place)).note frames
    let state :=
      match value with
      | .token owner =>
        if (tokens.node owner).data.isContainer then
          (iterations tokens owner).foldl (fun (state : Render Number) it =>
            let state := state.enter tokens ⟨tag, owner, it⟩ frames
            buildContent root child (.inside content)
              (⟨tag, owner, it⟩ :: frames) (state.plain child content))
            state
        else state
      | _ => state
    buildContent root next around frames (state.write (around.behind place next.isNone))
  | .inc place content child next, around, frames, state =>
    let state := state.write (around.before place)
    let state := buildContent root child (.inside content) frames (state.plain child content)
    buildContent root next around frames (state.write (around.behind place next.isNone))

/-- `__view_make_content` for the first tag and the text of the root tag. -/
def makeContent (root : Option Nat) (tag : Tag Number) (content : Bytes) : Render Number :=
  let state : Render Number := ⟨[], [], []⟩
  buildContent arithmetic tokens root tag (.inside content) [] (state.plain tag content)

end CWebFramework.View
