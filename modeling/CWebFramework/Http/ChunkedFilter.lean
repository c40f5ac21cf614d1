import CWebFramework.Misc.Bufo
import CWebFramework.Misc.Numerals
import CWebFramework.Streaming.Delivery
import CWebFramework.Text.Separator

/-!
# The chunked filter

`http_chunked_filter.c`: every buffer that the filter is offered becomes one
chunk, and the last one is followed by the last chunk.  The encoder fills a
buffer of its own, so the head of a chunk, its data and the line ends may each
be cut anywhere.

A parent buffer is given by its bytes behind the position.  A line end that
does not fit into the buffer any more is left over for the next parent buffer.
-/

namespace CWebFramework.Http

open Streaming

/-! ## The encoder -/

inductive ChunkedState where
  | size
  | data
  | sep
  | «end»
  deriving DecidableEq, Repr

/-- `http_module_chunked_t`; `buf` is what has been put into the buffer. -/
structure ChunkedModule where
  done : Bool
  buf : Bytes
  state : ChunkedState
  statePos : Nat
  chunkHead : Bytes
  currentChunkSize : Nat
  deriving DecidableEq, Repr

def httpChunkedCreate : ChunkedModule where
  done := false
  buf := []
  state := .size
  statePos := 0
  chunkHead := []
  currentChunkSize := 0

/-- `sep` in `chunked_process`. -/
def chunkSep : Bytes := [Byte.cr, Byte.lf]

/-- `value` in `chunked_process`. -/
def chunkEnd : Bytes := ascii "0\r\n\r\n"

def chunkHeadText (size : Nat) : Bytes := hexadecimal size ++ chunkSep

def chunkHeadMaxSize : Nat := 24

def chunkHeadSet (module : ChunkedModule) (parent : Chunk UInt8) : Option ChunkedModule :=
  let head := chunkHeadText parent.symbols.length
  if chunkHeadMaxSize ≤ head.length then none
  else
    some { module with
      chunkHead := head
      currentChunkSize := parent.symbols.length }

/-- What a pass through the loop of `chunked_process` comes to. -/
inductive ChunkedStep where
  | next (module : ChunkedModule) (parent : Chunk UInt8)
  | stop (module : ChunkedModule) (parent : Chunk UInt8)
  | fail

section Encoder

variable (capacity : Nat)

/-- `bufo_append` of a text from `state_pos` on. -/
def chunkedAppend (module : ChunkedModule) (text : Bytes) : ChunkedModule :=
  let written := (text.drop module.statePos).take (capacity - module.buf.length)
  { module with
    buf := module.buf ++ written
    statePos := module.statePos + written.length }

/-- The second part of `HTTP_MODULE_CHUNKED_SIZE`. -/
def chunkedHead (module : ChunkedModule) (parent : Chunk UInt8) :
    ChunkedStep :=
  let module := chunkedAppend capacity module module.chunkHead
  if module.statePos < module.chunkHead.length then .stop module parent
  else .next { module with state := .data, statePos := 0 } parent

def chunkedSize (module : ChunkedModule) (parent : Chunk UInt8) :
    ChunkedStep :=
  if module.statePos = 0 then
    if parent.symbols = [] then
      if parent.isLast then .next { module with state := .end } parent
      else .stop module parent
    else
      match chunkHeadSet module parent with
      | none => .fail
      | some module => chunkedHead capacity module parent
  else chunkedHead capacity module parent

def chunkedData (module : ChunkedModule) (parent : Chunk UInt8) :
    ChunkedStep :=
  let chunkRemaining := module.currentChunkSize - module.statePos
  let data := parent.symbols.take chunkRemaining
  if data = [] then
    if parent.isLast then .fail else .stop module parent
  else
    let written := data.take (capacity - module.buf.length)
    let module :=
      { module with
        buf := module.buf ++ written
        statePos := module.statePos + written.length }
    let parent :=
      { parent with symbols := parent.symbols.drop written.length }
    if module.statePos < module.currentChunkSize then .stop module parent
    else .next { module with state := .sep, statePos := 0 } parent

def chunkedSep (module : ChunkedModule) (parent : Chunk UInt8) :
    ChunkedStep :=
  let module := chunkedAppend capacity module chunkSep
  if module.statePos < chunkSep.length then .stop module parent
  else if parent.isLast then
    .next { module with state := .end, statePos := 0 } parent
  else
    let module := { module with state := .size, statePos := 0 }
    if parent.symbols ≠ [] then .next module parent else .stop module parent

def chunkedEnd (module : ChunkedModule) (parent : Chunk UInt8) :
    ChunkedStep :=
  let module := chunkedAppend capacity module chunkEnd
  if module.statePos < chunkEnd.length then .stop module parent
  else .stop { module with done := true, statePos := 0 } parent

def chunkedSwitch (module : ChunkedModule) (parent : Chunk UInt8) :
    ChunkedStep :=
  match module.state with
  | .size => chunkedSize capacity module parent
  | .data => chunkedData capacity module parent
  | .sep => chunkedSep capacity module parent
  | .end => chunkedEnd capacity module parent

/-- The loop of `chunked_process`. The first argument bounds the number of
passes. -/
def chunkedLoop : Nat → ChunkedModule → Chunk UInt8 → Option (ChunkedModule × Chunk UInt8)
  | 0, _, _ => none
  | fuel + 1, module, parent =>
    match chunkedSwitch capacity module parent with
    | .next module parent => chunkedLoop fuel module parent
    | .stop module parent => some (module, parent)
    | .fail => none

/-- `chunked_process`: at most five states are passed through. -/
def chunkedProcess (module : ChunkedModule) (parent : Chunk UInt8) :
    Option (ChunkedModule × Chunk UInt8) :=
  chunkedLoop capacity 6 { module with buf := [] } parent

/-- The filter, the parent buffer that it is offered, and those that the
filter in front has still to offer. -/
structure ChunkedSource where
  module : ChunkedModule
  parent : Chunk UInt8
  behind : List Bytes

/-- A parent buffer that is used up and not the last one is returned to the
filter in front, which offers the next one. -/
def chunkedAdvance (module : ChunkedModule) (parent : Chunk UInt8)
    (behind : List Bytes) : ChunkedSource :=
  match parent.symbols, behind with
  | [], next :: behind => ⟨module, ⟨next, behind.isEmpty⟩, behind⟩
  | _, behind => ⟨module, parent, behind⟩

/-- The loop of `http_chunked_body` between two calls of the next filter. -/
def chunkedFill (source : ChunkedSource) : Option (Chunk UInt8 × ChunkedSource) :=
  (chunkedProcess capacity source.module source.parent).map
    fun (module, parent) =>
      (⟨module.buf, module.done⟩, chunkedAdvance module parent source.behind)

end Encoder

def chunkedSource : List Bytes → ChunkedSource
  | [] => ⟨httpChunkedCreate, ⟨[], true⟩, []⟩
  | first :: behind => ⟨httpChunkedCreate, ⟨first, behind.isEmpty⟩, behind⟩

/-! ## What the encoder has still to write -/

/-- A chunk from a position in its head on. There is no chunk without data. -/
def frameFrom (pos : Nat) (data : Bytes) : Bytes :=
  if data = [] then []
  else (chunkHeadText data.length).drop pos ++ (data ++ chunkSep)

/-- What follows the chunk of a buffer. -/
def closing (isLast : Bool) : Bytes := if isLast then chunkEnd else []

/-- What the encoder writes before it needs another buffer.  Behind a line end
that was left over, the data of a last buffer is skipped. -/
def ChunkedModule.owed (module : ChunkedModule) (parent : Chunk UInt8) :
    Bytes :=
  match module.state with
  | .size => frameFrom module.statePos parent.symbols ++ closing parent.isLast
  | .data => parent.symbols ++ (chunkSep ++ closing parent.isLast)
  | .sep =>
    chunkSep.drop module.statePos ++
      if parent.isLast then chunkEnd else frameFrom 0 parent.symbols
  | .end => chunkEnd.drop module.statePos

/-- The head is that of the chunk of the buffer. -/
structure Headed (head : Bytes) (size : Nat) (parent : Chunk UInt8) : Prop where
  nonempty : parent.symbols ≠ []
  head : head = chunkHeadText parent.symbols.length
  size : size = parent.symbols.length

def ChunkedModule.Agrees (module : ChunkedModule) (parent : Chunk UInt8) :
    Prop :=
  match module.state with
  | .size =>
    module.statePos = 0 ∨ module.statePos < module.chunkHead.length ∧
        Headed module.chunkHead module.currentChunkSize parent
  | .data =>
    parent.symbols ≠ [] ∧ module.currentChunkSize = module.statePos + parent.symbols.length
  | .sep => module.statePos < chunkSep.length
  | .end => module.statePos < chunkEnd.length ∧ parent.isLast = true

/-- The encoder at work; `whole` is what it has put into its buffer and what it
still owes. -/
structure Encoding (capacity : Nat) (whole : Bytes) (module : ChunkedModule)
    (parent : Chunk UInt8) : Prop where
  undone : module.done = false
  agrees : module.Agrees parent
  sized : parent.symbols.length ≤ bufoMaxCapacity
  fits : module.buf.length ≤ capacity
  content : module.buf ++ module.owed parent = whole

/-- How many states may follow. -/
def ChunkedModule.rank (module : ChunkedModule) (parent : Chunk UInt8) : Nat :=
  match module.state with
  | .size => 3
  | .data => 2
  | .sep => if parent.symbols = [] then 1 else 4
  | .end => 0

/-- What `chunked_process` leaves behind. -/
inductive Processed (capacity : Nat) (whole : Bytes) (module : ChunkedModule)
    (parent : Chunk UInt8) : Prop where
  | paused (encoding : Encoding capacity whole module parent)
      (isFull : module.buf.length = capacity ∨ module.owed parent = [])
  | done (isDone : module.done = true) (isLast : parent.isLast = true)
      (content : module.buf = whole)

/-- What a pass through the loop leaves behind. -/
inductive Passed (capacity : Nat) (whole : Bytes) (isLast : Bool)
    (rank : Nat) : ChunkedStep → Prop where
  | next {module : ChunkedModule} {parent : Chunk UInt8}
      (encoding : Encoding capacity whole module parent)
      (sameLast : parent.isLast = isLast) (lower : module.rank parent < rank) :
      Passed capacity whole isLast rank (.next module parent)
  | stop {module : ChunkedModule} {parent : Chunk UInt8}
      (processed : Processed capacity whole module parent)
      (sameLast : parent.isLast = isLast) :
      Passed capacity whole isLast rank (.stop module parent)

structure Appended (capacity : Nat) (text : Bytes) (module after : ChunkedModule) : Prop where
  fits : after.buf.length ≤ capacity
  content : after.buf ++ text.drop after.statePos = module.buf ++ text.drop module.statePos
  inside : after.statePos ≤ text.length
  isFull : after.statePos < text.length → after.buf.length = capacity

theorem take_append_drop_length (count : Nat) (text : Bytes) :
    text.take count ++ text.drop (text.take count).length = text :=
  (List.prefix_iff_eq_append.mp (List.take_prefix count text))

section Passes

variable {capacity : Nat} {whole : Bytes} {module : ChunkedModule}
  {parent : Chunk UInt8}

theorem chunkedAppend_appended (fits : module.buf.length ≤ capacity)
    {text : Bytes} (inside : module.statePos ≤ text.length) :
    Appended capacity text module (chunkedAppend capacity module text) := by
  have length : ((text.drop module.statePos).take (capacity - module.buf.length)).length =
        min (capacity - module.buf.length) (text.length - module.statePos) := by
    rw [List.length_take, List.length_drop]
  constructor
  · show (module.buf ++ _).length ≤ capacity
    rw [List.length_append, length]
    omega
  · show module.buf ++ _ ++ text.drop (module.statePos + _) = _
    rw [← List.drop_drop, List.append_assoc, take_append_drop_length]
  · show module.statePos + _ ≤ text.length
    rw [length]
    omega
  · show module.statePos + _ < text.length → (module.buf ++ _).length = capacity
    rw [List.length_append, length]
    omega

/-- A text that is followed by others has been written, or the buffer is
full. -/
theorem Appended.rest {text behind : Bytes} {after : ChunkedModule}
    (appended : Appended capacity text module after)
    (isWhole : module.buf ++ (text.drop module.statePos ++ behind) = whole) :
    after.buf ++ (text.drop after.statePos ++ behind) = whole := by
  rw [← isWhole, ← List.append_assoc, appended.content, List.append_assoc]

theorem Appended.through {text behind : Bytes} {after : ChunkedModule}
    (appended : Appended capacity text module after)
    (isWhole : module.buf ++ (text.drop module.statePos ++ behind) = whole)
    (isEnd : ¬ after.statePos < text.length) :
    after.buf ++ behind = whole := by
  have rest := appended.rest isWhole
  rwa [List.drop_eq_nil_of_le (Nat.le_of_not_lt isEnd), List.nil_append] at rest

private theorem length_chunkHeadText_lt {size : Nat} (sized : size ≤ bufoMaxCapacity) :
    (chunkHeadText size).length < chunkHeadMaxSize := by
  have small : size < 16 ^ 6 := Nat.lt_of_le_of_lt sized (by decide)
  have length : (hexadecimal size).length ≤ 6 := length_numeral_le (by decide) (by decide) small
  rw [chunkHeadText, List.length_append]
  show _ + 2 < 24
  omega

private theorem chunkHeadSet_eq (sized : parent.symbols.length ≤ bufoMaxCapacity) :
    chunkHeadSet module parent = some { module with
        chunkHead := chunkHeadText parent.symbols.length
        currentChunkSize := parent.symbols.length } := by
  rw [chunkHeadSet, if_neg (Nat.not_le_of_lt (length_chunkHeadText_lt sized))]

variable {buf head : Bytes} {pos size : Nat}

theorem chunkedHead_passed (headed : Headed head size parent)
    (sized : parent.symbols.length ≤ bufoMaxCapacity)
    (fits : buf.length ≤ capacity) (inside : pos ≤ head.length)
    (content : buf ++ (head.drop pos ++ (parent.symbols ++
      (chunkSep ++ closing parent.isLast))) = whole) :
    Passed capacity whole parent.isLast 3
      (chunkedHead capacity ⟨false, buf, .size, pos, head, size⟩ parent) := by
  have appended :=
    @chunkedAppend_appended capacity ⟨false, buf, .size, pos, head, size⟩ fits head inside
  rw [chunkedHead]
  split_ifs with isShort
  · refine .stop (.paused ⟨rfl, .inr ⟨isShort, headed⟩, sized, appended.fits,
      ?_⟩ (.inl (appended.isFull isShort))) rfl
    have rest := appended.rest content
    rw [ChunkedModule.owed]
    simp only [chunkedAppend, frameFrom, if_neg headed.nonempty,
      ← headed.head, List.append_assoc] at rest ⊢
    exact rest
  · refine .next ⟨rfl, ⟨headed.nonempty, ?_⟩, sized, appended.fits,
      appended.through content isShort⟩ rfl (Nat.lt_succ_self 2)
    rw [Nat.zero_add]
    exact headed.size

theorem chunkedSize_passed (encoding : Encoding capacity whole
      ⟨false, buf, .size, pos, head, size⟩ parent) :
    Passed capacity whole parent.isLast 3
      (chunkedSize capacity ⟨false, buf, .size, pos, head, size⟩ parent) := by
  have content : buf ++ (frameFrom pos parent.symbols ++
      closing parent.isLast) = whole := encoding.content
  rw [chunkedSize]
  dsimp only
  split_ifs with atStart isEmpty isLast
  · -- an empty last buffer
    subst atStart
    rw [isEmpty, isLast] at content
    exact .next ⟨rfl, ⟨Nat.succ_pos 4, isLast⟩, encoding.sized, encoding.fits,
      content⟩ rfl (Nat.succ_pos 2)
  · refine .stop (.paused encoding (.inr ?_)) rfl
    rw [ChunkedModule.owed]
    simp only [frameFrom, isEmpty, closing, isLast, if_true, if_false,
      Bool.false_eq_true, List.append_nil]
  · rw [chunkHeadSet_eq encoding.sized]
    rw [frameFrom, if_neg isEmpty, List.append_assoc, List.append_assoc] at content
    exact chunkedHead_passed ⟨isEmpty, rfl, rfl⟩ encoding.sized encoding.fits
      (by rw [atStart]; exact Nat.zero_le _) content
  · have ⟨inside, headed⟩ := encoding.agrees.resolve_left atStart
    rw [frameFrom, if_neg headed.nonempty, ← headed.head, List.append_assoc,
      List.append_assoc] at content
    exact chunkedHead_passed headed encoding.sized encoding.fits (Nat.le_of_lt inside) content

theorem chunkedData_passed (encoding : Encoding capacity whole
      ⟨false, buf, .data, pos, head, size⟩ parent) :
    Passed capacity whole parent.isLast 2
      (chunkedData capacity ⟨false, buf, .data, pos, head, size⟩ parent) := by
  have fits : buf.length ≤ capacity := encoding.fits
  obtain ⟨nonempty, isSize⟩ := encoding.agrees
  change size = pos + parent.symbols.length at isSize
  have content : buf ++ (parent.symbols ++ (chunkSep ++
      closing parent.isLast)) = whole := encoding.content
  have remaining : parent.symbols.take (size - pos) = parent.symbols := by
    apply List.take_of_length_le
    omega
  have length := @List.length_take UInt8 (capacity - buf.length) parent.symbols
  have rest := take_append_drop_length (capacity - buf.length) parent.symbols
  rw [chunkedData]
  dsimp only
  rw [remaining, if_neg nonempty]
  generalize parent.symbols.take (capacity - buf.length) = written at *
  have sized : (parent.symbols.drop written.length).length ≤
      bufoMaxCapacity := by
    rw [List.length_drop]
    exact (Nat.sub_le _ _).trans encoding.sized
  have filled : (buf ++ written).length ≤ capacity := by
    rw [List.length_append]
    omega
  split_ifs with isShort
  · change pos + written.length < size at isShort
    refine .stop (.paused ⟨rfl, ⟨?_, ?_⟩, sized, filled, ?_⟩ (.inl ?_)) rfl
    · rw [ne_eq, List.drop_eq_nil_iff]
      omega
    · show size = pos + written.length + (parent.symbols.drop _).length
      rw [List.length_drop]
      omega
    · rw [ChunkedModule.owed, ← content, List.append_assoc, ← List.append_assoc written, rest]
    · show (buf ++ written).length = capacity
      rw [List.length_append]
      omega
  · change ¬ pos + written.length < size at isShort
    have isEmpty : parent.symbols.drop written.length = [] := by
      rw [List.drop_eq_nil_iff]
      omega
    rw [isEmpty] at sized rest ⊢
    rw [List.append_nil] at rest
    refine .next ⟨rfl, Nat.succ_pos 1, sized, filled, ?_⟩ rfl
      (Nat.lt_succ_self 1)
    rw [ChunkedModule.owed, ← content, List.append_assoc, rest]
    rfl

theorem chunkedSep_passed (encoding : Encoding capacity whole
      ⟨false, buf, .sep, pos, head, size⟩ parent) :
    Passed capacity whole parent.isLast
      (ChunkedModule.rank ⟨false, buf, .sep, pos, head, size⟩ parent)
      (chunkedSep capacity ⟨false, buf, .sep, pos, head, size⟩ parent) := by
  have inside : pos < chunkSep.length := encoding.agrees
  have appended :=
    @chunkedAppend_appended capacity ⟨false, buf, .sep, pos, head, size⟩
      encoding.fits chunkSep (Nat.le_of_lt inside)
  have content : buf ++ (chunkSep.drop pos ++
      if parent.isLast then chunkEnd else frameFrom 0 parent.symbols) =
        whole := encoding.content
  have isOwed : ¬ parent.isLast = true → frameFrom 0 parent.symbols ++
      closing parent.isLast = frameFrom 0 parent.symbols := by
    intro notLast
    rw [closing, if_neg notLast, List.append_nil]
  rw [chunkedSep]
  dsimp only
  split_ifs with isShort isLast isFilled
  · exact .stop (.paused ⟨rfl, isShort, encoding.sized, appended.fits,
      appended.rest content⟩ (.inl (appended.isFull isShort))) rfl
  · have through := appended.through content isShort
    rw [if_pos isLast] at through
    refine .next ⟨rfl, ⟨Nat.succ_pos 4, isLast⟩, encoding.sized, appended.fits, through⟩ rfl ?_
    show 0 < if parent.symbols = [] then 1 else 4
    split_ifs
    · exact Nat.succ_pos _
    · exact Nat.succ_pos _
  · have through := appended.through content isShort
    rw [if_neg isLast, ← isOwed isLast] at through
    refine .next ⟨rfl, .inl rfl, encoding.sized, appended.fits, through⟩ rfl ?_
    rw [ChunkedModule.rank, ChunkedModule.rank, if_neg isFilled]
    exact Nat.lt_succ_self 3
  · have through := appended.through content isShort
    rw [if_neg isLast, ← isOwed isLast] at through
    exact .stop (.paused ⟨rfl, .inl rfl, encoding.sized, appended.fits,
      through⟩ (.inr ((isOwed isLast).trans (if_pos (not_not.mp isFilled)))))
      rfl

theorem chunkedEnd_passed (encoding : Encoding capacity whole
      ⟨false, buf, .end, pos, head, size⟩ parent) :
    Passed capacity whole parent.isLast 0
      (chunkedEnd capacity ⟨false, buf, .end, pos, head, size⟩ parent) := by
  obtain ⟨inside, isLast⟩ := encoding.agrees
  have appended :=
    @chunkedAppend_appended capacity ⟨false, buf, .end, pos, head, size⟩
      encoding.fits chunkEnd (Nat.le_of_lt inside)
  have content : buf ++ (chunkEnd.drop pos ++ []) = whole := by
    rw [List.append_nil]
    exact encoding.content
  rw [chunkedEnd]
  split_ifs with isShort
  · have rest := appended.rest content
    rw [List.append_nil] at rest
    exact .stop (.paused ⟨rfl, ⟨isShort, isLast⟩, encoding.sized,
      appended.fits, rest⟩ (.inl (appended.isFull isShort))) rfl
  · have through := appended.through content isShort
    rw [List.append_nil] at through
    exact .stop (.done rfl isLast through) rfl

private theorem chunkedSwitch_passed (encoding : Encoding capacity whole module parent) :
    Passed capacity whole parent.isLast (module.rank parent)
      (chunkedSwitch capacity module parent) := by
  obtain ⟨done, buf, state, pos, head, size⟩ := module
  have undone : done = false := encoding.undone
  subst undone
  cases state with
  | size => exact chunkedSize_passed encoding
  | data => exact chunkedData_passed encoding
  | sep => exact chunkedSep_passed encoding
  | «end» => exact chunkedEnd_passed encoding

theorem chunkedLoop_processed {fuel : Nat} (encoding : Encoding capacity whole module parent)
    (enough : module.rank parent < fuel) :
    ∃ after rest, chunkedLoop capacity fuel module parent =
        some (after, rest) ∧ rest.isLast = parent.isLast ∧
      Processed capacity whole after rest := by
  induction fuel generalizing module parent with
  | zero => cases enough
  | succ fuel ih =>
    have passed := chunkedSwitch_passed encoding
    rw [chunkedLoop]
    generalize chunkedSwitch capacity module parent = step at passed ⊢
    cases passed with
    | next encoding sameLast lower =>
      obtain ⟨after, rest, run, isLast, processed⟩ :=
        ih encoding (Nat.lt_of_lt_of_le lower (Nat.le_of_lt_succ enough))
      exact ⟨after, rest, run, isLast.trans sameLast, processed⟩
    | stop processed sameLast => exact ⟨_, _, rfl, sameLast, processed⟩

theorem chunkedProcess_processed (undone : module.done = false) (agrees : module.Agrees parent)
    (sized : parent.symbols.length ≤ bufoMaxCapacity) :
    ∃ after rest, chunkedProcess capacity module parent =
        some (after, rest) ∧ rest.isLast = parent.isLast ∧
      Processed capacity (module.owed parent) after rest := by
  have encoding : Encoding capacity (module.owed parent)
      { module with buf := [] } parent :=
    ⟨undone, agrees, sized, Nat.zero_le _, rfl⟩
  apply chunkedLoop_processed encoding
  rw [ChunkedModule.rank]
  split
  · decide
  · decide
  · split_ifs
    · decide
    · decide
  · decide

end Passes

/-! ## The stream of all buffers -/

/-- How much of the line end of a text is left over.  The buffers are filled
one after the other until all that is in front of the line end is written. -/
def lineEndLeft (capacity length : Nat) : Nat := length - capacity * ((length - 3) / capacity + 1)

/-- What is written for the buffers that are still to be offered. -/
def following (capacity : Nat) : Nat → List Bytes → Bytes
  | _, [] => []
  | left, [last] => (if left = 0 then frameFrom 0 last else []) ++ chunkEnd
  | left, data :: next :: behind =>
    frameFrom 0 data ++ following capacity (lineEndLeft capacity (left + (frameFrom 0 data).length))
        (next :: behind)

def ChunkedSource.pending (capacity : Nat) (source : ChunkedSource) : Bytes :=
  if source.module.done then []
  else
    let owed := source.module.owed source.parent
    owed ++ following capacity (lineEndLeft capacity owed.length) source.behind

structure ChunkedSource.Valid (source : ChunkedSource) : Prop where
  undone : source.module.done = false
  agrees : source.module.Agrees source.parent
  isLast : source.parent.isLast = source.behind.isEmpty
  sized : ∀ data ∈ source.parent.symbols :: source.behind, data.length ≤ bufoMaxCapacity
  filled : ∀ data ∈ (source.parent.symbols :: source.behind).dropLast, data ≠ []

section Lengths

variable {capacity : Nat}

private theorem lineEndLeft_of_le {length : Nat} (fits : length ≤ capacity) :
    lineEndLeft capacity length = 0 := by
  apply Nat.sub_eq_zero_of_le
  exact fits.trans (Nat.le_mul_of_pos_right _ (Nat.succ_pos _))

private theorem lineEndLeft_full {left : Nat} (short : left ≤ 2)
    (long : 3 ≤ capacity + left) : lineEndLeft capacity (capacity + left) =
      left := by
  have none : (capacity + left - 3) / capacity = 0 := Nat.div_eq_of_lt (by omega)
  rw [lineEndLeft, none]
  omega

private theorem lineEndLeft_more (positive : 0 < capacity) {length : Nat} (long : 3 ≤ length) :
    lineEndLeft capacity (capacity + length) =
      lineEndLeft capacity length := by
  have shift : capacity + length - 3 = length - 3 + capacity := by omega
  rw [lineEndLeft, lineEndLeft, shift, Nat.add_div_right _ positive,
    Nat.mul_add, Nat.mul_one, Nat.add_comm, Nat.add_sub_add_right]

theorem length_frameFrom {pos : Nat} {data : Bytes} (nonempty : data ≠ []) :
    3 ≤ (frameFrom pos data).length := by
  have positive := List.length_pos_of_ne_nil nonempty
  rw [frameFrom, if_neg nonempty, List.length_append, List.length_append]
  show 3 ≤ _ + (data.length + 2)
  omega

variable {module : ChunkedModule} {parent : Chunk UInt8}

theorem three_le_owed (agrees : module.Agrees parent)
    (nonempty : parent.symbols ≠ []) (notLast : parent.isLast = false) :
    3 ≤ (module.owed parent).length := by
  have positive := List.length_pos_of_ne_nil nonempty
  have length := @length_frameFrom
  rw [ChunkedModule.Agrees] at agrees
  rw [ChunkedModule.owed]
  split at agrees
  · rw [List.length_append]
    exact Nat.le_add_right_of_le (length nonempty)
  · rw [List.length_append, List.length_append]
    show 3 ≤ _ + (2 + _)
    omega
  · rw [notLast, List.length_append]
    exact Nat.le_add_left_of_le (length nonempty)
  · cases notLast.symm.trans agrees.2

private theorem owed_ne_nil (agrees : module.Agrees parent)
    (isLast : parent.isLast = true) : module.owed parent ≠ [] := by
  have ending : chunkEnd ≠ [] := by decide
  rw [ChunkedModule.Agrees] at agrees
  rw [ChunkedModule.owed]
  split at agrees
  · rw [isLast]
    exact List.append_ne_nil_of_right_ne_nil _ ending
  · rw [isLast]
    exact List.append_ne_nil_of_right_ne_nil _ (List.append_ne_nil_of_right_ne_nil _ ending)
  · rw [isLast]
    exact List.append_ne_nil_of_right_ne_nil _ ending
  · rw [ne_eq, List.drop_eq_nil_iff, Nat.not_le]
    exact agrees.1

/-- What is written of a line end that is left over, and with the next
buffer. -/
structure Carried (capacity : Nat) (module : ChunkedModule) : Prop where
  short : (module.owed ⟨[], false⟩).length ≤ 2
  agrees : ∀ parent : Chunk UInt8, module.Agrees parent
  following : ∀ next behind, module.owed ⟨next, behind.isEmpty⟩ ++ following capacity
        (lineEndLeft capacity (module.owed ⟨next, behind.isEmpty⟩).length)
        behind =
      module.owed ⟨[], false⟩ ++ following capacity
        (module.owed ⟨[], false⟩).length (next :: behind)

theorem carried_of_drained (agrees : module.Agrees ⟨[], false⟩) :
    Carried capacity module := by
  obtain ⟨done, buf, state, pos, head, size⟩ := module
  cases state with
  | size =>
    have isStart : pos = 0 :=
      agrees.resolve_right fun headed => headed.2.nonempty rfl
    subst isStart
    refine ⟨Nat.zero_le _, fun _ => .inl rfl, fun next behind => ?_⟩
    cases behind with
    | nil => exact List.append_nil _
    | cons other behind =>
      show (frameFrom 0 next ++ []) ++ following capacity (lineEndLeft
        capacity (frameFrom 0 next ++ []).length) _ = frameFrom 0 next ++
          following capacity (lineEndLeft capacity (0 + _)) _
      rw [List.append_nil, Nat.zero_add]
  | data => exact absurd rfl agrees.1
  | sep =>
    have isCarried : ChunkedModule.owed ⟨done, buf, .sep, pos, head, size⟩
        ⟨[], false⟩ = chunkSep.drop pos := List.append_nil _
    have length : (chunkSep.drop pos).length = 2 - pos := List.length_drop
    have inside : pos < 2 := agrees
    refine ⟨by rw [isCarried]; omega, fun _ => inside, fun next behind => ?_⟩
    rw [isCarried]
    cases behind with
    | nil =>
      rw [following, following, if_neg (by omega)]
      exact List.append_nil _
    | cons other behind =>
      rw [following, ← List.length_append, ← List.append_assoc]
      rfl
  | «end» => cases agrees.2

end Lengths

section Stream

variable {capacity : Nat}

theorem ChunkedSource.Valid.pending {source : ChunkedSource} (valid : source.Valid) :
    source.pending capacity = source.module.owed source.parent ++ following capacity
        (lineEndLeft capacity (source.module.owed source.parent).length)
        source.behind := by
  rw [ChunkedSource.pending, valid.undone]
  rfl

theorem chunkedAdvance_kept {parent : Chunk UInt8} {behind : List Bytes}
    (kept : parent.symbols ≠ [] ∨ behind = []) (module : ChunkedModule) :
    chunkedAdvance module parent behind = ⟨module, parent, behind⟩ := by
  rw [chunkedAdvance]
  intro next others isEmpty isCons
  cases kept with
  | inl nonempty => exact nonempty isEmpty
  | inr isNil => cases isNil.symm.trans isCons

/-- The buffers that the filter fills for the last parent buffer. -/
theorem chunkedFill_last (positive : 0 < capacity) {module : ChunkedModule}
    {parent : Chunk UInt8} (valid : ChunkedSource.Valid ⟨module, parent, []⟩) :
    ∃ chunk next, chunkedFill capacity ⟨module, parent, []⟩ = some (chunk, next) ∧
      chunk.symbols ++ next.pending capacity = ChunkedSource.pending capacity ⟨module, parent, []⟩ ∧
      (chunk.isLast = true → next.pending capacity = []) ∧
      (chunk.isLast = false → chunk.symbols ≠ [] ∧ next.Valid) := by
  obtain ⟨after, rest, run, sameLast, processed⟩ :=
    @chunkedProcess_processed capacity _ _ valid.undone valid.agrees
      (valid.sized _ List.mem_cons_self)
  have isLast : rest.isLast = true := sameLast.trans valid.isLast
  have fills : chunkedFill capacity ⟨module, parent, []⟩ =
      some (⟨after.buf, after.done⟩, ⟨after, rest, []⟩) := by
    rw [chunkedFill, run]
    exact congrArg (fun next => some (_, next)) (chunkedAdvance_kept (.inr rfl) after)
  refine ⟨_, _, fills, ?_⟩
  rw [valid.pending]
  cases processed with
  | done isDone _ content =>
    have none : ChunkedSource.pending capacity ⟨after, rest, []⟩ = [] := if_pos isDone
    rw [none]
    refine ⟨?_, fun _ => rfl, fun isOpen => ?_⟩
    · rw [content]
      exact (List.append_nil _).trans (List.append_nil _).symm
    · cases isDone.symm.trans isOpen
  | paused encoding isFull =>
    have full := isFull.resolve_right (owed_ne_nil encoding.agrees isLast)
    have next : ChunkedSource.Valid ⟨after, rest, []⟩ :=
      ⟨encoding.undone, encoding.agrees, isLast,
        List.forall_mem_singleton.mpr encoding.sized, nofun⟩
    rw [next.pending, ← List.append_assoc]
    refine ⟨congrArg (· ++ []) encoding.content, fun isEnd => ?_, fun _ => ⟨?_, next⟩⟩
    · cases encoding.undone.symm.trans isEnd
    · apply List.ne_nil_of_length_pos
      rwa [full]

/-- The buffers that the filter fills for a parent buffer that is followed by
others. -/
theorem chunkedFill_more (positive : 0 < capacity) {module : ChunkedModule}
    {parent : Chunk UInt8} {next : Bytes} {behind : List Bytes}
    (valid : ChunkedSource.Valid ⟨module, parent, next :: behind⟩) :
    ∃ chunk source, chunkedFill capacity ⟨module, parent, next :: behind⟩ = some (chunk, source) ∧
      chunk.symbols ++ source.pending capacity =
        ChunkedSource.pending capacity ⟨module, parent, next :: behind⟩ ∧
      chunk.isLast = false ∧ chunk.symbols ≠ [] ∧ source.Valid := by
  have notLast : parent.isLast = false := valid.isLast
  have ⟨nonempty, filled⟩ := List.forall_mem_cons.mp valid.filled
  have ⟨sized, sizedBehind⟩ := List.forall_mem_cons.mp valid.sized
  obtain ⟨after, rest, run, sameLast, processed⟩ :=
    @chunkedProcess_processed capacity _ _ valid.undone valid.agrees sized
  have long := three_le_owed valid.agrees nonempty notLast
  rw [valid.pending]
  cases processed with
  | done _ isLast _ => cases (notLast.symm.trans sameLast.symm).trans isLast
  | paused encoding isFull =>
    have isOpen : rest.isLast = false := sameLast.trans notLast
    have content := encoding.content
    have fits := encoding.fits
    have length := congrArg List.length content
    rw [List.length_append] at length
    have isFilled : after.buf ≠ [] := by
      intro isNil
      rw [isNil, List.length_nil] at isFull length
      rcases isFull with isFull | isFull
      · omega
      · rw [isFull, List.length_nil] at length
        omega
    by_cases isEmpty : rest.symbols = []
    · have isRest : rest = ⟨[], false⟩ := by
        rw [← isEmpty, ← isOpen]
      subst isRest
      have carried := @carried_of_drained capacity _ encoding.agrees
      have short := carried.short
      have left : lineEndLeft capacity (module.owed parent).length =
          (after.owed ⟨[], false⟩).length := by
        rw [← length] at long ⊢
        rcases isFull with isFull | isFull
        · rw [isFull] at long ⊢
          exact lineEndLeft_full short long
        · rw [isFull]
          exact lineEndLeft_of_le fits
      have nextValid : ChunkedSource.Valid ⟨after, ⟨next, behind.isEmpty⟩, behind⟩ :=
        ⟨encoding.undone, carried.agrees _, rfl, sizedBehind, filled⟩
      have fills : chunkedFill capacity ⟨module, parent, next :: behind⟩ =
          some (⟨after.buf, after.done⟩, ⟨after, ⟨next, behind.isEmpty⟩, behind⟩) := by
        rw [chunkedFill, run]
        rfl
      refine ⟨_, _, fills, ?_, encoding.undone, isFilled, nextValid⟩
      rw [nextValid.pending, left, ← content, List.append_assoc]
      exact congrArg _ (carried.following next behind)
    · have full := isFull.resolve_right fun isNil => by
        have more := three_le_owed encoding.agrees isEmpty isOpen
        rw [isNil] at more
        cases more
      have nextValid : ChunkedSource.Valid ⟨after, rest, next :: behind⟩ :=
        ⟨encoding.undone, encoding.agrees, isOpen,
          List.forall_mem_cons.mpr ⟨encoding.sized, sizedBehind⟩,
          List.forall_mem_cons.mpr ⟨isEmpty, filled⟩⟩
      have fills : chunkedFill capacity ⟨module, parent, next :: behind⟩ =
          some (⟨after.buf, after.done⟩, ⟨after, rest, next :: behind⟩) := by
        rw [chunkedFill, run]
        exact congrArg (fun next => some (_, next)) (chunkedAdvance_kept (.inl isEmpty) after)
      refine ⟨_, _, fills, ?_, encoding.undone, isFilled, nextValid⟩
      rw [nextValid.pending, ← List.append_assoc, ← length, full, lineEndLeft_more positive
          (three_le_owed encoding.agrees isEmpty isOpen)]
      exact congrArg (· ++ _) content

private theorem chunkedFill_produces (positive : 0 < capacity) :
    Produces (chunkedFill capacity) ChunkedSource.Valid (ChunkedSource.pending capacity) where
  step := by
    intro source valid
    obtain ⟨module, parent, behind⟩ := source
    cases behind with
    | nil => exact chunkedFill_last positive valid
    | cons next behind =>
      obtain ⟨chunk, source, fills, content, isOpen, isFilled, nextValid⟩ :=
        chunkedFill_more positive valid
      refine ⟨chunk, source, fills, content, fun isLast => ?_, fun _ => ⟨isFilled, nextValid⟩⟩
      cases isOpen.symm.trans isLast

end Stream

/-! ## The coding -/

/-- The content of a chunked body without extensions and trailers. The first
argument bounds the number of chunks. -/
def decodeChunks : Nat → Bytes → Option Bytes
  | 0, _ => none
  | fuel + 1, text => do
      let (digits, rest) ← Text.splitPair Byte.cr Byte.lf text
      if digits = [] ∨ ¬ digits.all fun digit => (hexCharToInt digit).isSome then
        none
      else
        let size := hexValue digits
        if size = 0 then if rest = chunkSep then some [] else none
        else
          let behind := rest.drop size
          if rest.length < size ∨ behind.take 2 ≠ chunkSep then none
          else (decodeChunks fuel (behind.drop 2)).map (rest.take size ++ ·)

def decodeChunked (text : Bytes) : Option Bytes := decodeChunks text.length text

theorem hexadecimal_digits (size : Nat) :
    ∀ digit ∈ hexadecimal size, (hexCharToInt digit).isSome = true :=
  forall_mem_numeral (by decide) (fun _ small => (digitChar_hexadecimal small).2) size

/-- One step of the decoder, for a size line as the filter writes it. -/
theorem decodeChunks_head (fuel size : Nat) (rest : Bytes) :
    decodeChunks (fuel + 1) (chunkHeadText size ++ rest) =
      if size = 0 then if rest = chunkSep then some [] else none
      else
        let behind := rest.drop size
        if rest.length < size ∨ behind.take 2 ≠ chunkSep then none
        else (decodeChunks fuel (behind.drop 2)).map (rest.take size ++ ·) := by
  have isHexadecimal := hexadecimal_digits size
  have free : ¬ [Byte.cr, Byte.lf] <:+: hexadecimal size := by
    intro inside
    have impossible := isHexadecimal Byte.cr (inside.subset List.mem_cons_self)
    revert impossible
    decide
  have split := Text.splitPair_append (by decide) free rest
  have isText : chunkHeadText size ++ rest = hexadecimal size ++ Byte.cr :: Byte.lf :: rest :=
    List.append_assoc _ _ _
  have isSize : ¬ (hexadecimal size = [] ∨
      ¬ (hexadecimal size).all fun digit => (hexCharToInt digit).isSome) := by
    rw [not_or, not_not, List.all_eq_true]
    exact ⟨numeral_ne_nil 16 size, isHexadecimal⟩
  rw [decodeChunks, isText, split]
  show (if _ then none else _) = _
  rw [if_neg isSize, hexValue_hexadecimal]

theorem decodeChunks_frames {pieces : List Bytes} (filled : ∀ data ∈ pieces, data ≠ []) {fuel : Nat}
    (enough : pieces.length < fuel) :
    decodeChunks fuel (pieces.flatMap (frameFrom 0) ++ chunkEnd) = some pieces.flatten := by
  induction pieces generalizing fuel with
  | nil =>
    cases fuel with
    | zero => cases enough
    | succ fuel =>
      have isEnd : chunkEnd = chunkHeadText 0 ++ chunkSep := by decide
      rw [List.flatMap_nil, List.nil_append, isEnd, decodeChunks_head]
      rfl
  | cons data pieces ih =>
    cases fuel with
    | zero => cases enough
    | succ fuel =>
      have ⟨nonempty, others⟩ := List.forall_mem_cons.mp filled
      have rest := ih others (Nat.lt_of_succ_lt_succ enough)
      have isText : (data :: pieces).flatMap (frameFrom 0) ++ chunkEnd =
          chunkHeadText data.length ++ (data ++ (chunkSep ++
            (pieces.flatMap (frameFrom 0) ++ chunkEnd))) := by
        rw [List.flatMap_cons, frameFrom, if_neg nonempty]
        simp only [List.drop_zero, List.append_assoc]
      have isSome : data.length ≠ 0 := Nat.ne_of_gt (List.length_pos_of_ne_nil nonempty)
      have isLong : ¬ ((data ++ (chunkSep ++ (pieces.flatMap (frameFrom 0) ++ chunkEnd))).length <
            data.length ∨ chunkSep ≠ chunkSep) := by
        rw [List.length_append, not_or]
        exact ⟨Nat.not_lt.mpr (Nat.le_add_right _ _), not_not_intro rfl⟩
      rw [isText, decodeChunks_head, if_neg isSome, List.drop_left, List.take_left]
      exact (if_neg isLong).trans (congrArg (Option.map (data ++ ·)) rest)

private theorem length_lt_frames {pieces : List Bytes} (filled : ∀ data ∈ pieces, data ≠ []) :
    pieces.length < (pieces.flatMap (frameFrom 0) ++ chunkEnd).length := by
  induction pieces with
  | nil => decide
  | cons data pieces ih =>
    have ⟨nonempty, others⟩ := List.forall_mem_cons.mp filled
    have rest := ih others
    have first := @length_frameFrom 0 data nonempty
    rw [List.flatMap_cons, List.append_assoc, List.length_append, List.length_cons]
    omega

theorem decodeChunked_frames {pieces : List Bytes} (filled : ∀ data ∈ pieces, data ≠ []) :
    decodeChunked (pieces.flatMap (frameFrom 0) ++ chunkEnd) = some pieces.flatten :=
  decodeChunks_frames filled (length_lt_frames filled)

/-- How much of a line end is left over for the next buffer. -/
def lineEndsLeft (capacity : Nat) (buffers : List Bytes) : Nat :=
  buffers.foldl (fun left data =>
      lineEndLeft capacity (left + (frameFrom 0 data).length)) 0

/-- The buffers whose data is written. -/
def written (capacity : Nat) (init : List Bytes) (last : Bytes) : List Bytes :=
  if lineEndsLeft capacity init = 0 then init ++ [last] else init

private theorem following_eq (capacity left : Nat) (init : List Bytes) (last : Bytes) :
    following capacity left (init ++ [last]) =
      init.flatMap (frameFrom 0) ++ ((if init.foldl (fun left data =>
          lineEndLeft capacity (left + (frameFrom 0 data).length)) left = 0
        then frameFrom 0 last else []) ++ chunkEnd) := by
  induction init generalizing left with
  | nil => rfl
  | cons data init ih =>
    rw [List.flatMap_cons, List.foldl_cons, List.append_assoc, ← ih]
    cases init with
    | nil => rfl
    | cons next init => rfl

section Coding

variable {capacity : Nat} (positive : 0 < capacity) {init : List Bytes}
  {last : Bytes} (filled : ∀ data ∈ init, data ≠ [])
  (sized : ∀ data ∈ init ++ [last], data.length ≤ bufoMaxCapacity)

include positive filled sized

/-- The filter writes the chunks of the buffers and the last chunk, however it
is interrupted. -/
theorem chunkedFilter_delivers (answers : List Nat) :
    Delivers (deliver (chunkedFill capacity) answers (chunkedSource (init ++ [last])))
      ((written capacity init last).flatMap (frameFrom 0) ++ chunkEnd) ∧
    ((∀ taken ∈ answers, 0 < taken) →
      ((written capacity init last).flatMap (frameFrom 0) ++ chunkEnd).length < answers.length →
      (deliver (chunkedFill capacity) answers
        (chunkedSource (init ++ [last]))).ending = .finished) := by
  have isText : (written capacity init last).flatMap (frameFrom 0) ++
      chunkEnd = following capacity 0 (init ++ [last]) := by
    rw [following_eq, ← lineEndsLeft, written]
    split_ifs
    · simp only [List.flatMap_append, List.flatMap_singleton, List.append_assoc]
    · rw [List.nil_append]
  obtain ⟨first, behind, isCons⟩ :=
    List.exists_cons_of_ne_nil (List.append_ne_nil_of_right_ne_nil init (List.cons_ne_nil last []))
  have inner : ∀ data ∈ (first :: behind).dropLast, data ≠ [] := by
    rw [← isCons, List.dropLast_concat]
    exact filled
  rw [isText]
  rw [isCons] at sized ⊢
  have valid : (chunkedSource (first :: behind)).Valid := ⟨rfl, .inl rfl, rfl, sized, inner⟩
  have carried := @carried_of_drained capacity httpChunkedCreate (.inl rfl)
  have isPending : (chunkedSource (first :: behind)).pending capacity =
      following capacity 0 (first :: behind) :=
    valid.pending.trans (carried.following first behind)
  rw [← isPending]
  exact (chunkedFill_produces positive).deliver_delivers valid answers

end Coding

/-- For all buffers that are not empty and every room in the buffer of the
filter, the filter comes to its end, and the bytes are a chunked body with the
content of the buffers exactly if no line end is left over for the last one. -/
theorem chunkedFilter_coding {capacity : Nat} (positive : 0 < capacity) {init : List Bytes}
    {last : Bytes} (filled : ∀ data ∈ init ++ [last], data ≠ [])
    (sized : ∀ data ∈ init ++ [last], data.length ≤ bufoMaxCapacity) :
    ∃ text, (∀ answers, Delivers (deliver (chunkedFill capacity) answers
          (chunkedSource (init ++ [last]))) text ∧
        ((∀ taken ∈ answers, 0 < taken) → text.length < answers.length →
          (deliver (chunkedFill capacity) answers
            (chunkedSource (init ++ [last]))).ending = .finished)) ∧
      (decodeChunked text = some (init ++ [last]).flatten ↔ lineEndsLeft capacity init = 0) := by
  have ⟨filledInit, filledLast⟩ := List.forall_mem_append.mp filled
  refine ⟨_, chunkedFilter_delivers positive filledInit sized, ?_⟩
  rw [written]
  split_ifs with isNone
  · exact iff_of_true (decodeChunked_frames filled) isNone
  · refine iff_of_false ?_ isNone
    rw [decodeChunked_frames filledInit, Option.some.injEq,
      List.flatten_append, List.flatten_singleton, List.self_eq_append_right]
    exact filledLast last List.mem_cons_self

theorem chunkedFilter_coding_letters :
    ∃ text, (∀ answers, Delivers (deliver (chunkedFill 10) answers
        (chunkedSource [ascii "ab", ascii "c"])) text) ∧
      decodeChunked text = some (ascii "abc") := by
  obtain ⟨text, delivers, coding⟩ := @chunkedFilter_coding 10 (by decide)
    [ascii "ab"] (ascii "c") (forall_mem_of_all (by decide))
    (forall_mem_of_all (by decide))
  exact ⟨text, fun answers => (delivers answers).1, coding.mpr (by decide)⟩

def chunkedBufSize : Nat := 16384

/-- A chunk of 16377 bytes leaves one byte of its line end over. -/
theorem lineEndsLeft_chunkedBufSize :
    lineEndsLeft chunkedBufSize [List.replicate 16377 97] = 1 := by
  have head : (chunkHeadText 16377).length = 6 := by decide
  rw [lineEndsLeft, List.foldl_cons, List.foldl_nil, frameFrom,
    if_neg (by rw [List.replicate_eq_nil_iff]; decide),
    List.length_replicate, List.drop_zero, List.length_append, head,
    List.length_append, List.length_replicate]
  decide

theorem longBuffer_ne_nil : ∀ data ∈ [List.replicate 16377 (97 : UInt8)], data ≠ [] := by
  rw [List.forall_mem_singleton, ne_eq, List.replicate_eq_nil_iff]
  decide

theorem longBuffer_sized : ∀ data ∈ [List.replicate 16377 97] ++ [ascii "c"],
    data.length ≤ bufoMaxCapacity := by
  rw [List.forall_mem_append, List.forall_mem_singleton,
    List.forall_mem_singleton, List.length_replicate]
  decide

/-- The last buffer is lost. -/
theorem chunkedFilter_loses_last : lineEndsLeft chunkedBufSize [List.replicate 16377 97] = 1 ∧
    ∃ text, decodeChunked text = some (List.replicate 16377 97) ∧
      ∀ answers, Delivers (deliver (chunkedFill chunkedBufSize) answers
        (chunkedSource [List.replicate 16377 97, ascii "c"])) text := by
  have delivers := @chunkedFilter_delivers chunkedBufSize (by decide) _ _
    longBuffer_ne_nil longBuffer_sized
  rw [written, lineEndsLeft_chunkedBufSize, if_neg Nat.one_ne_zero] at delivers
  have decoded := decodeChunked_frames longBuffer_ne_nil
  rw [List.flatten_singleton] at decoded
  exact ⟨lineEndsLeft_chunkedBufSize, _, decoded, fun answers => (delivers answers).1⟩

end CWebFramework.Http
