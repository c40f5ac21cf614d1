import CWebFramework.Http.RequestParser
import CWebFramework.Http.ResponseHead
import CWebFramework.Misc.Numerals
import CWebFramework.Streaming.Delivery

/-!
# The range filter

`range_handler_header` turns the ranges of a request into a plan for the body,
and `range_handler_body` produces the body chunk by chunk: the bytes of one
range, or a `multipart/byteranges` text in which headers and data are woven.
The representation is the body of the response or a file.  Allocations succeed,
and the file does not shrink while it is sent.
-/

namespace CWebFramework.Http

open Streaming Text

/-! ## Ranges of a representation -/

structure RangePart where
  start : Nat
  size : Nat
  deriving DecidableEq, Repr

/-- The bounds of a range, the second one exclusive. -/
def rangeBounds (sourceStart sourceEnd : Int) (dataSize : Nat) : Nat × Nat :=
  if sourceStart = -1 then
    (dataSize - min sourceEnd.toNat dataSize, dataSize)
  else
    (sourceStart.toNat,
      if sourceEnd = -1 then dataSize
      else min (sourceEnd.toNat + 1) dataSize)

/-- `range_resolve`: `none` is a malformed range, `some none` an unsatisfiable
one. -/
def rangeResolve (sourceStart sourceEnd : Int) (dataSize : Nat) : Option (Option RangePart) :=
  if sourceStart < -1 ∨ sourceEnd < -1 then none
  else
    let (start, stop) := rangeBounds sourceStart sourceEnd dataSize
    if stop ≤ start then some none
    else some (some { start := start, size := stop - start })

/-- A range that has been clamped to the representation. -/
structure ResolvedPart (dataSize : Nat) (part : RangePart) : Prop where
  positive : 0 < part.size
  inside : part.start + part.size ≤ dataSize

/-- The positions that a range selects: the last `stop` of them when there is no
`start`, otherwise those from `start` to `stop`, or to the end. -/
def Range.Selects (range : Range) (dataSize position : Nat) : Prop :=
  position < dataSize ∧
    if range.start = -1 then (dataSize : Int) ≤ position + range.stop
    else range.start ≤ position ∧ (range.stop = -1 ∨ position ≤ range.stop)

/-- The part has the positions that the range selects; there is none when it
selects nothing. -/
def Range.Resolves (dataSize : Nat) (range : Range) (result : Option RangePart) : Prop :=
  (∀ position, range.Selects dataSize position ↔ ∃ part ∈ result,
    part.start ≤ position ∧ position < part.start + part.size) ∧
  ∀ part ∈ result, ResolvedPart dataSize part

theorem rangeResolve_resolves {range : Range} {dataSize : Nat} {result : Option RangePart}
    (resolves : rangeResolve range.start range.stop dataSize = some result) :
    range.Resolves dataSize result := by
  rw [rangeResolve] at resolves
  split at resolves
  · cases resolves
  rename_i wellFormed
  have selects (position : Nat) : range.Selects dataSize position ↔
      (rangeBounds range.start range.stop dataSize).1 ≤ position ∧
        position < (rangeBounds range.start range.stop dataSize).2 := by
    rw [Range.Selects, rangeBounds]
    split_ifs <;> dsimp only <;> omega
  generalize rangeBounds range.start range.stop dataSize = bounds at *
  obtain ⟨start, stop⟩ := bounds
  dsimp only at resolves selects
  simp only [Range.Resolves, selects]
  split_ifs at resolves with order <;> cases resolves
  · exact ⟨fun position => iff_of_false (by omega) nofun, nofun⟩
  · have inside := ((selects (stop - 1)).mpr (by omega)).1
    simp only [Option.mem_some_iff, exists_eq_left', forall_eq']
    refine ⟨fun position => by omega, Nat.sub_pos_of_lt (by omega), ?_⟩
    dsimp only
    omega

/-- The loop over the ranges of a request: unsatisfiable ones are dropped. -/
def resolveRanges (dataSize : Nat) : List Range → Option (List RangePart)
  | [] => some []
  | range :: ranges => do
      let part ← rangeResolve range.start range.stop dataSize
      let parts ← resolveRanges dataSize ranges
      return part.toList ++ parts

theorem resolveRanges_resolves {dataSize : Nat} {ranges : List Range} {parts : List RangePart}
    (resolves : resolveRanges dataSize ranges = some parts) :
    ∃ results, List.Forall₂ (Range.Resolves dataSize) ranges results ∧
      parts = results.reduceOption ∧
      ∀ part ∈ parts, ResolvedPart dataSize part := by
  induction ranges generalizing parts with
  | nil =>
    cases resolves
    exact ⟨[], .nil, rfl, nofun⟩
  | cons range ranges ih =>
    rw [resolveRanges] at resolves
    obtain ⟨first, isFirst, isRest⟩ := Option.bind_eq_some_iff.mp resolves
    obtain ⟨rest, isOthers, isParts⟩ := Option.bind_eq_some_iff.mp isRest
    obtain ⟨results, others, rfl, resolved⟩ := ih isOthers
    have resolvesFirst := rangeResolve_resolves isFirst
    refine ⟨first :: results, .cons resolvesFirst others, ?_⟩
    cases isParts
    cases first with
    | none => exact ⟨rfl, resolved⟩
    | some part =>
      exact ⟨rfl, List.forall_mem_cons.mpr ⟨resolvesFirst.2 part rfl, resolved⟩⟩

/-- The served representation.  A read from a file may stop early, but not
before the first byte; `readLimit` says where each read stops. -/
structure Representation where
  content : Bytes
  readLimit : Option (Nat → Nat)

def Representation.slice (representation : Representation) (part : RangePart) : Bytes :=
  (representation.content.drop part.start).take part.size

def rangeReadData (representation : Representation) (reads offset size : Nat) :
    Bytes :=
  (representation.content.drop offset).take (match representation.readLimit with
      | none => size
      | some limit => min size (limit reads + 1))

/-! ## The module -/

inductive MpState where
  | text
  | data
  | done
  deriving DecidableEq, Repr

/-- The fields of `http_module_range_t` that are fixed before the body. -/
structure RangePlan where
  capacity : Nat
  rangeStart : Nat
  rangeSize : Nat
  unsatisfiable : Bool
  mpActive : Bool
  parts : List RangePart
  mpTotal : Nat
  partCtype : Bytes
  boundary : Bytes
  deriving DecidableEq, Repr

/-- `http_module_range_t`.  An empty text is a `NULL` pointer; `reads` counts
the reads from the representation. -/
structure RangeModule where
  plan : RangePlan
  rangePos : Nat
  partIndex : Nat
  mpState : MpState
  dataPos : Nat
  text : Bytes
  textPos : Nat
  reads : Nat
  deriving DecidableEq, Repr

def RangePlan.start (plan : RangePlan) : RangeModule where
  plan := plan
  rangePos := 0
  partIndex := 0
  mpState := .text
  dataPos := 0
  text := []
  textPos := 0
  reads := 0

def rangeGetChunk (representation : Representation) (module : RangeModule) :
    Option (Chunk UInt8 × RangeModule) :=
  if module.plan.rangeSize < module.rangePos then none
  else
    let remaining := module.plan.rangeSize - module.rangePos
    let take := min remaining module.plan.capacity
    let data := rangeReadData representation module.reads
      (module.plan.rangeStart + module.rangePos) take
    let rangePos := module.rangePos + data.length
    some (
      { symbols := data
        isLast := rangePos == module.plan.rangeSize || (data.isEmpty && 0 < take) },
      { module with rangePos := rangePos, reads := module.reads + 1 })

/-- `mp_generate_boundary`, with what `rand` gives. -/
def mpGenerateBoundary (rand : Nat → Nat) : Bytes :=
  let chars := ascii "0123456789abcdefghijklmnopqrstuvwxyzABCDEFGHIJKLMNOPQRSTUVWXYZ"
  (List.range 16).map fun index => chars.getD (rand index % chars.length) 0

theorem length_mpGenerateBoundary (rand : Nat → Nat) : (mpGenerateBoundary rand).length = 16 := by
  rw [mpGenerateBoundary, List.length_map, List.length_range]

def mpPartHeader (plan : RangePlan) (part : RangePart) : Bytes :=
  ascii "--" ++ plan.boundary ++ ascii "\r\nContent-Type: " ++
    plan.partCtype ++ ascii "\r\nContent-Range: bytes " ++
    decimal part.start ++ ascii "-" ++
    decimal (part.start + part.size - 1) ++ ascii "/" ++
    decimal plan.mpTotal ++ ascii "\r\n\r\n"

def mpClose (plan : RangePlan) : Bytes :=
  ascii "--" ++ plan.boundary ++ ascii "--\r\n"

/-- The number that `snprintf` returns; `none` is a negative one. -/
def snprintfLength (text : Bytes) : Option Nat :=
  if text.length ≤ intMax then some text.length else none

def mpPartHeaderLength (plan : RangePlan) (part : RangePart) : Option Nat :=
  snprintfLength (mpPartHeader plan part)

def mpStageText (module : RangeModule) (leadCrlf : Bool) :
    Option RangeModule := do
  let body :=
    match module.plan.parts[module.partIndex]? with
    | none => mpClose module.plan
    | some part => mpPartHeader module.plan part
  let _ ← snprintfLength body
  return { module with
    text := (if leadCrlf then ascii "\r\n" else []) ++ body
    textPos := 0 }

/-- The loop of `mp_setup` over the parts. -/
def mpContentLength (plan : RangePlan) : List RangePart → Nat → Option Nat
  | [], contentLength => some contentLength
  | part :: parts, contentLength => do
      let headerLength ← mpPartHeaderLength plan part
      let partLength := (headerLength + part.size + 2) % 2 ^ 64
      if partLength < part.size ∨ sizeMax - partLength < contentLength then
        none
      else
        mpContentLength plan parts (contentLength + partLength)

/-- The headers that announce a body, and the module that produces it. -/
structure RangeAnswer where
  statusCode : Nat
  contentRange : Option Bytes
  contentType : Option Bytes
  contentLength : Nat
  module : RangeModule
  deriving DecidableEq, Repr

/-- The plan that `mp_setup` makes; `origin` is the content type of the
response. -/
def mpPlan (capacity dataSize : Nat) (parts : List RangePart)
    (origin : Option Bytes) (rand : Nat → Nat) : RangePlan where
  capacity := capacity
  rangeStart := 0
  rangeSize := 0
  unsatisfiable := false
  mpActive := true
  parts := parts
  mpTotal := dataSize
  partCtype := cstring (origin.getD (ascii "application/octet-stream"))
  boundary := mpGenerateBoundary rand

def mpSetup (capacity dataSize : Nat) (parts : List RangePart)
    (origin : Option Bytes) (rand : Nat → Nat) : Option RangeAnswer :=
  let plan := mpPlan capacity dataSize parts origin rand
  let contentType := ascii "multipart/byteranges; boundary=" ++ plan.boundary
  if 64 ≤ contentType.length then none
  else do
    let contentLength ← mpContentLength plan parts (plan.boundary.length + 6)
    let module ← mpStageText plan.start false
    return {
      statusCode := 206
      contentRange := none
      contentType := some contentType
      contentLength := contentLength
      module := module }

def singleAnswer (capacity dataSize : Nat) (part : RangePart) : RangeAnswer where
  statusCode := 206
  contentRange := some (ascii "bytes " ++ decimal part.start ++ ascii "-" ++
    decimal (part.start + part.size - 1) ++ ascii "/" ++ decimal dataSize)
  contentType := none
  contentLength := part.size
  module := RangePlan.start
    { capacity := capacity
      rangeStart := part.start
      rangeSize := part.size
      unsatisfiable := false
      mpActive := false
      parts := []
      mpTotal := 0
      partCtype := []
      boundary := [] }

def unsatisfiableAnswer (capacity dataSize : Nat) : RangeAnswer :=
  let single := singleAnswer capacity dataSize ⟨0, 0⟩
  { single with
    statusCode := 416
    contentRange := some (ascii "bytes */" ++ decimal dataSize)
    module := RangePlan.start
      { single.module.plan with unsatisfiable := true } }

def rangeMaxParts : Nat := 64

def rangeBufSize : Nat := 16384

inductive RangeOutcome where
  | passed
  | failed
  | answered (answer : RangeAnswer)
  deriving DecidableEq, Repr

/-- `range_handler_header` for a response without `last_modified`. -/
def rangeHandlerHeader (ranges : List Range) (statusCode : Nat)
    (representation : Representation) (origin : Option Bytes)
    (rand : Nat → Nat) : RangeOutcome :=
  let dataSize := representation.content.length
  if ranges = [] ∨ statusCode < 200 ∨ 300 ≤ statusCode ∨ rangeMaxParts < ranges.length then .passed
  else
    match resolveRanges dataSize ranges with
    | none => .passed
    | some [] => .answered (unsatisfiableAnswer rangeBufSize dataSize)
    | some (part :: parts) =>
      if ranges.length = 1 then
        .answered (singleAnswer rangeBufSize dataSize part)
      else
        match mpSetup rangeBufSize dataSize (part :: parts) origin rand with
        | none => .failed
        | some answer => .answered answer

/-! ## The body -/

/-- One turn of the loop of `mp_fill_chunk`: the bytes that it puts into a
buffer with the given space. -/
def mpFillStep (representation : Representation) (space : Nat)
    (module : RangeModule) : Option (Bytes × RangeModule) :=
  match module.mpState with
  | .text =>
    if module.text = [] then none
    else
      let bytes := (module.text.drop module.textPos).take space
      let textPos := module.textPos + bytes.length
      if textPos = module.text.length then
        some (bytes, { module with
          textPos := textPos
          mpState :=
            if module.partIndex < module.plan.parts.length then .data
            else .done
          dataPos := 0 })
      else
        some (bytes, { module with textPos := textPos })
  | .data => do
      let part ← module.plan.parts[module.partIndex]?
      let take := min (part.size - module.dataPos) space
      let bytes := rangeReadData representation module.reads (part.start + module.dataPos) take
      if bytes = [] ∧ 0 < take then none
      else
        let dataPos := module.dataPos + bytes.length
        let read :=
          { module with dataPos := dataPos, reads := module.reads + 1 }
        if dataPos = part.size then
          let staged ← mpStageText
            { read with partIndex := module.partIndex + 1 } true
          return (bytes, { staged with mpState := .text })
        else
          return (bytes, read)
  | .done => some ([], module)

def mpFill (representation : Representation) :
    Nat → Nat → RangeModule → Option (Bytes × RangeModule)
  | 0, _, module => some ([], module)
  | turns + 1, space, module =>
    if space = 0 ∨ module.mpState = .done then some ([], module)
    else do
      let (bytes, module) ← mpFillStep representation space module
      let (more, module) ← mpFill representation turns (space - bytes.length) module
      return (bytes ++ more, module)

/-- `mp_fill_chunk`.  A turn that puts nothing into the buffer is followed by
one that does. -/
def mpFillChunk (representation : Representation) (module : RangeModule) :
    Option (Chunk UInt8 × RangeModule) := do
  let (bytes, module) ← mpFill representation (2 * module.plan.capacity + 1)
    module.plan.capacity module
  return ({ symbols := bytes, isLast := module.mpState == .done }, module)

/-- `range_handler_body`, with what the next filter takes of the buffer at each
of its calls. -/
def rangeHandlerBody (isHead : Bool) (representation : Representation)
    (module : RangeModule) (answers : List Nat) : Delivery UInt8 :=
  if module.plan.unsatisfiable || isHead then ⟨[], .finished⟩
  else if module.plan.mpActive then
    deliver (mpFillChunk representation) answers module
  else
    deliver (rangeGetChunk representation) answers module

/-! ## What the body is -/

section Bodies

variable (representation : Representation) (plan : RangePlan)

/-- Each part behind its header, and the closing delimiter. -/
def multipartBody : List RangePart → Bytes
  | [] => mpClose plan
  | part :: parts =>
    mpPartHeader plan part ++ representation.slice part ++ ascii "\r\n" ++ multipartBody parts

/-- The text in front of the parts that are left. -/
def stagedText (parts : List RangePart) : Bytes :=
  match parts.head? with
  | none => mpClose plan
  | some part => mpPartHeader plan part

/-- What follows the text in front of the parts that are left. -/
def behindText : List RangePart → Bytes
  | [] => []
  | part :: parts =>
    representation.slice part ++ (ascii "\r\n" ++ multipartBody representation plan parts)

theorem stagedText_append_behindText (parts : List RangePart) :
    stagedText plan parts ++ behindText representation plan parts =
      multipartBody representation plan parts := by
  cases parts with
  | nil => exact List.append_nil _
  | cons part parts =>
    simp only [stagedText, List.head?_cons, behindText, multipartBody, List.append_assoc]

end Bodies

variable {representation : Representation}

/-! ## Reading -/

section Reading

variable {part : RangePart} (resolved : ResolvedPart representation.content.length part)

include resolved

theorem ResolvedPart.length_slice : (representation.slice part).length = part.size := by
  have inside := resolved.inside
  rw [Representation.slice, List.length_take, List.length_drop]
  omega

/-- A read gives a front of what is left of the range, and something unless
nothing is asked for. -/
theorem ResolvedPart.read (reads position size : Nat)
    (inside : position + size ≤ part.size) (some : 0 < size) :
    let bytes := rangeReadData representation reads (part.start + position) size
    bytes <+: (representation.slice part).drop position ∧ bytes ≠ [] ∧ bytes.length ≤ size := by
  have fits := resolved.inside
  obtain ⟨count, positive, least, isRead⟩ : ∃ count, 0 < count ∧ count ≤ size ∧
      rangeReadData representation reads (part.start + position) size =
        (representation.content.drop (part.start + position)).take count := by
    rw [rangeReadData]
    cases representation.readLimit with
    | none => exact ⟨size, some, Nat.le_refl size, rfl⟩
    | some limit =>
      refine ⟨_, ?_, Nat.min_le_left size (limit reads + 1), rfl⟩
      exact Nat.lt_min.mpr ⟨some, Nat.succ_pos _⟩
  rw [isRead]
  refine ⟨?_, ?_, ?_⟩
  · rw [Representation.slice, List.drop_take, List.drop_drop]
    apply List.take_prefix_take_left
    omega
  · apply List.ne_nil_of_length_pos
    rw [List.length_take, List.length_drop]
    omega
  · rw [List.length_take]
    omega

end Reading

/-! ## A single range -/

def rangePending (representation : Representation) (module : RangeModule) :
    Bytes :=
  (representation.slice ⟨module.plan.rangeStart, module.plan.rangeSize⟩).drop module.rangePos

structure SingleReady (representation : Representation) (module : RangeModule) : Prop where
  capacity : 0 < module.plan.capacity
  resolved : ResolvedPart representation.content.length
    ⟨module.plan.rangeStart, module.plan.rangeSize⟩
  left : module.rangePos < module.plan.rangeSize

theorem rangeGetChunk_produces (representation : Representation) :
    Produces (rangeGetChunk representation) (SingleReady representation)
      (rangePending representation) := by
  refine ⟨fun module ready => ?_⟩
  have left := ready.left
  have capacity := ready.capacity
  obtain ⟨isFront, some, short⟩ := ready.resolved.read module.reads module.rangePos
    (min (module.plan.rangeSize - module.rangePos) module.plan.capacity)
    (by dsimp only; omega) (by omega)
  dsimp only at some short
  have notEmpty := List.isEmpty_eq_false_iff.mpr some
  rw [rangeGetChunk, if_neg (by omega)]
  refine ⟨_, _, rfl, ?_, fun isLast => ?_, fun isMore => ⟨some, ?_⟩⟩
  · rw [rangePending, rangePending, ← List.drop_drop]
    exact List.prefix_iff_eq_append.mp isFront
  · rw [notEmpty, Bool.false_and, Bool.or_false, beq_iff_eq] at isLast
    rw [rangePending, List.drop_eq_nil_iff, ready.resolved.length_slice]
    exact Nat.le_of_eq isLast.symm
  · rw [notEmpty, Bool.false_and, Bool.or_false, beq_eq_false_iff_ne] at isMore
    refine ⟨capacity, ready.resolved, ?_⟩
    show _ + _ < module.plan.rangeSize
    omega

/-! ## Several ranges -/

/-- What has to be known of a plan with several ranges. -/
structure Planned (representation : Representation) (plan : RangePlan) : Prop where
  capacity : 0 < plan.capacity
  resolved : ∀ part ∈ plan.parts, ResolvedPart representation.content.length part
  headers : ∀ part ∈ plan.parts, (mpPartHeader plan part).length ≤ intMax
  close : (mpClose plan).length ≤ intMax

def mpPending (representation : Representation) (module : RangeModule) :
    Bytes :=
  let behind := behindText representation module.plan (module.plan.parts.drop module.partIndex)
  match module.mpState with
  | .text => module.text.drop module.textPos ++ behind
  | .data => behind.drop module.dataPos
  | .done => []

structure MpReady (representation : Representation) (module : RangeModule) : Prop where
  planned : Planned representation module.plan
  text : module.mpState = .text → module.textPos < module.text.length
  data : module.mpState = .data → ∃ part, module.plan.parts[module.partIndex]? = some part ∧
      module.dataPos < part.size

theorem Planned.stageText {module : RangeModule}
    (planned : Planned representation module.plan) (leadCrlf : Bool) :
    mpStageText module leadCrlf = some { module with
      text := (if leadCrlf then ascii "\r\n" else []) ++
        stagedText module.plan (module.plan.parts.drop module.partIndex)
      textPos := 0 } := by
  rw [mpStageText, stagedText, List.head?_drop]
  cases found : module.plan.parts[module.partIndex]? with
  | none =>
    rw [snprintfLength, if_pos planned.close]
    rfl
  | some part =>
    have short := planned.headers part (List.mem_of_getElem? found)
    rw [snprintfLength, if_pos short]
    rfl

private theorem stagedText_ne_nil (plan : RangePlan) (parts : List RangePart) :
    stagedText plan parts ≠ [] := by
  cases parts with
  | nil => exact nofun
  | cons part parts => exact nofun

/-- One turn of the loop goes on by some bytes. -/
structure Advances (representation : Representation) (module : RangeModule)
    (bytes : Bytes) (next : RangeModule) : Prop where
  ready : MpReady representation next
  plan : next.plan = module.plan
  pending : bytes ++ mpPending representation next = mpPending representation module

theorem mpFillStep_text {module : RangeModule}
    (ready : MpReady representation module) (isText : module.mpState = .text)
    {space : Nat} (some : 0 < space) :
    ∃ bytes next, mpFillStep representation space module = .some (bytes, next) ∧
      bytes ≠ [] ∧ bytes.length ≤ space ∧
      Advances representation module bytes next := by
  have left := ready.text isText
  have isFront : (module.text.drop module.textPos).take space ++
      (module.text.drop module.textPos).drop _ = _ :=
    List.prefix_iff_eq_append.mp (List.take_prefix space _)
  have isPending : mpPending representation module =
      module.text.drop module.textPos ++ behindText representation module.plan
        (module.plan.parts.drop module.partIndex) := by
    rw [mpPending, isText]
  have length : ((module.text.drop module.textPos).take space).length =
      min space (module.text.length - module.textPos) := by
    rw [List.length_take, List.length_drop]
  have isSome : module.text ≠ [] := by
    rintro isEmpty
    rw [isEmpty] at left
    cases left
  rw [mpFillStep, isText]
  dsimp only
  rw [if_neg isSome]
  have filled : (module.text.drop module.textPos).take space ≠ [] := by
    apply List.ne_nil_of_length_pos
    omega
  rw [List.drop_drop] at isFront
  by_cases isEnd : module.textPos + ((module.text.drop module.textPos).take space).length =
      module.text.length
  · rw [if_pos isEnd]
    rw [isEnd, List.drop_length, List.append_nil] at isFront
    by_cases isPart : module.partIndex < module.plan.parts.length
    · rw [if_pos isPart]
      have resolved := ready.planned.resolved _ (List.getElem_mem isPart)
      refine ⟨_, _, rfl, filled, List.length_take_le _ _, ⟨ready.planned, nofun, fun _ =>
          ⟨_, List.getElem?_eq_getElem isPart, resolved.positive⟩⟩, rfl, ?_⟩
      rw [isPending]
      exact congrArg (· ++ _) isFront
    · rw [if_neg isPart]
      refine ⟨_, _, rfl, filled, List.length_take_le _ _, ⟨ready.planned, nofun, nofun⟩, rfl, ?_⟩
      rw [isPending, List.drop_eq_nil_of_le (Nat.le_of_not_lt isPart)]
      exact congrArg (· ++ _) isFront
  · rw [if_neg isEnd]
    refine ⟨_, _, rfl, filled, List.length_take_le _ _,
      ⟨ready.planned, fun _ => ?_, nofun⟩, rfl, ?_⟩
    · dsimp only
      omega
    · rw [isPending, mpPending]
      dsimp only
      rw [← List.append_assoc, isFront]

theorem mpFillStep_data {module : RangeModule}
    (ready : MpReady representation module) (isData : module.mpState = .data)
    {space : Nat} (some : 0 < space) :
    ∃ bytes next, mpFillStep representation space module = .some (bytes, next) ∧
      bytes ≠ [] ∧ bytes.length ≤ space ∧
      Advances representation module bytes next := by
  obtain ⟨part, isPart, left⟩ := ready.data isData
  have resolved := ready.planned.resolved part (List.mem_of_getElem? isPart)
  obtain ⟨isFront, filled, short⟩ := resolved.read module.reads module.dataPos
    (min (part.size - module.dataPos) space) (by omega) (by omega)
  generalize isBytes : rangeReadData representation module.reads
    (part.start + module.dataPos) (min (part.size - module.dataPos) space) =
    bytes at isFront filled short
  have isBehind : behindText representation module.plan
      (module.plan.parts.drop module.partIndex) = representation.slice part ++
        (ascii "\r\n" ++ multipartBody representation module.plan
          (module.plan.parts.drop (module.partIndex + 1))) := by
    rw [List.drop_eq_getElem?_toList_append, isPart]
    rfl
  have isPending : mpPending representation module = (behindText representation module.plan
        (module.plan.parts.drop module.partIndex)).drop module.dataPos := by
    rw [mpPending, isData]
  have whole : bytes ++ (mpPending representation module).drop bytes.length =
      mpPending representation module := by
    apply List.prefix_iff_eq_append.mp (isFront.trans _)
    rw [isPending, isBehind, List.drop_append_of_le_length]
    · exact List.prefix_append _ _
    · rw [resolved.length_slice]
      exact Nat.le_of_lt left
  have room := Nat.le_trans short (Nat.min_le_right _ _)
  rw [mpFillStep, isData]
  simp only [isPart, Option.bind_eq_bind, Option.bind_some, isBytes]
  rw [if_neg fun isEmpty => filled isEmpty.1]
  by_cases isEnd : module.dataPos + bytes.length = part.size
  · have staged := @Planned.stageText representation
      { module with
        mpState := .data
        dataPos := module.dataPos + bytes.length
        reads := module.reads + 1
        partIndex := module.partIndex + 1 } ready.planned true
    rw [if_pos isEnd, staged]
    refine ⟨_, _, rfl, filled, room, ⟨ready.planned, fun _ => ?_, nofun⟩, rfl, ?_⟩
    · exact Nat.succ_pos _
    · rw [isPending, List.drop_drop, isEnd, isBehind,
        List.drop_left' resolved.length_slice, ← isBehind, ← isPending,
        ← stagedText_append_behindText,
        ← List.append_assoc (ascii "\r\n")] at whole
      exact whole
  · rw [if_neg isEnd]
    refine ⟨_, _, rfl, filled, room, ⟨ready.planned, nofun, fun _ => ⟨part, isPart, ?_⟩⟩, rfl, ?_⟩
    · dsimp only
      omega
    · rw [isPending, List.drop_drop, ← isPending] at whole
      exact whole

/-- The loop fills the buffer or ends with the closing delimiter. -/
theorem mpFill_advances {module : RangeModule}
    (ready : MpReady representation module) {turns space : Nat}
    (enough : space ≤ turns) :
    ∃ bytes next, mpFill representation turns space module =
        some (bytes, next) ∧ Advances representation module bytes next ∧
      (next.mpState ≠ .done → bytes.length = space) := by
  induction turns generalizing space module with
  | zero =>
    exact ⟨[], module, rfl, ⟨ready, rfl, rfl⟩, fun _ => (Nat.le_zero.mp enough).symm⟩
  | succ turns ih =>
    by_cases isOver : space = 0 ∨ module.mpState = .done
    · rw [mpFill, if_pos isOver]
      refine ⟨[], module, rfl, ⟨ready, rfl, rfl⟩, fun isLeft => ?_⟩
      exact (isOver.resolve_right isLeft).symm
    · rw [not_or] at isOver
      obtain ⟨bytes, middle, isStep, filled, short, advances⟩ :
          ∃ bytes next, mpFillStep representation space module =
              some (bytes, next) ∧ bytes ≠ [] ∧ bytes.length ≤ space ∧
            Advances representation module bytes next := by
        cases isState : module.mpState with
        | text =>
          exact mpFillStep_text ready isState (Nat.pos_of_ne_zero isOver.1)
        | data =>
          exact mpFillStep_data ready isState (Nat.pos_of_ne_zero isOver.1)
        | done => exact absurd isState isOver.2
      have positive := List.length_pos_of_ne_nil filled
      obtain ⟨more, next, isRest, further, whole⟩ :=
        @ih middle advances.ready (space - bytes.length) (by omega)
      rw [mpFill, if_neg (not_or.mpr isOver), isStep]
      simp only [Option.bind_eq_bind, Option.bind_some, isRest]
      refine ⟨_, _, rfl, ⟨further.ready, further.plan.trans advances.plan, ?_⟩, fun isLeft => ?_⟩
      · rw [List.append_assoc, further.pending, advances.pending]
      · rw [List.length_append, whole isLeft]
        omega

private theorem mpFillChunk_produces (representation : Representation) :
    Produces (mpFillChunk representation) (MpReady representation) (mpPending representation) := by
  refine ⟨fun module ready => ?_⟩
  obtain ⟨bytes, next, isFill, advances, whole⟩ := mpFill_advances ready
    (show module.plan.capacity ≤ 2 * module.plan.capacity + 1 by omega)
  rw [mpFillChunk, isFill]
  refine ⟨_, _, rfl, advances.pending, fun isLast => ?_, fun isMore => ?_⟩
  · rw [mpPending, beq_iff_eq.mp isLast]
  · refine ⟨List.ne_nil_of_length_pos ?_, advances.ready⟩
    rw [whole (beq_eq_false_iff_ne.mp isMore)]
    exact ready.planned.capacity

/-- The module in front of the first part. -/
theorem Planned.staged {plan : RangePlan} (planned : Planned representation plan) :
    ∃ module, mpStageText plan.start false = some module ∧
      module.plan = plan ∧ MpReady representation module ∧
      mpPending representation module = multipartBody representation plan plan.parts := by
  have isStaged := @Planned.stageText representation plan.start planned false
  refine ⟨_, isStaged, rfl, ⟨planned, fun _ => ?_, nofun⟩, ?_⟩
  · exact List.length_pos_of_ne_nil (stagedText_ne_nil plan plan.parts)
  · rw [← stagedText_append_behindText]
    rfl

/-! ## The announced length -/

theorem length_mpClose (plan : RangePlan) : (mpClose plan).length = plan.boundary.length + 6 := by
  rw [mpClose, List.length_append, List.length_append]
  show 2 + _ + 4 = _
  omega

/-- The loop of `mp_setup` adds up the length of the body. -/
theorem mpContentLength_eq {plan : RangePlan} {parts : List RangePart} {contentLength total : Nat}
    (resolved : ∀ part ∈ parts, ResolvedPart representation.content.length part)
    (announced : mpContentLength plan parts contentLength = some total) :
    (∀ part ∈ parts, (mpPartHeader plan part).length ≤ intMax) ∧ total + (mpClose plan).length =
        contentLength + (multipartBody representation plan parts).length := by
  induction parts generalizing contentLength with
  | nil =>
    cases announced
    exact ⟨nofun, rfl⟩
  | cons part parts ih =>
    rw [List.forall_mem_cons] at resolved
    rw [mpContentLength, mpPartHeaderLength, snprintfLength] at announced
    by_cases short : (mpPartHeader plan part).length ≤ intMax
    · rw [if_pos short] at announced
      simp only [Option.bind_eq_bind, Option.bind_some] at announced
      split at announced
      · cases announced
      · rename_i fits
        obtain ⟨headers, sum⟩ := ih resolved.2 announced
        rw [List.forall_mem_cons]
        refine ⟨⟨short, headers⟩, ?_⟩
        rw [sum, multipartBody, List.length_append, List.length_append,
          List.length_append, resolved.1.length_slice]
        show _ = contentLength + (_ + _ + 2 + _)
        rw [not_or, Nat.not_lt] at fits
        rw [intMax] at short
        omega
    · rw [if_neg short] at announced
      cases announced

/-- The body of an answer is delivered, whatever the next filter takes of the
buffer at each of its calls; a `HEAD` request gets its length only. -/
def Serves (representation : Representation) (answer : RangeAnswer) (body : Bytes) : Prop :=
  answer.contentLength = body.length ∧
  ∀ answers, rangeHandlerBody true representation answer.module answers = ⟨[], .finished⟩ ∧
    let delivery := rangeHandlerBody false representation answer.module answers
    Delivers delivery body ∧ ((∀ taken ∈ answers, 0 < taken) → body.length < answers.length →
        delivery.ending = .finished)

/-! ## What a client finds in the body -/

/-- The headers and the content of the parts behind a delimiter.  The content
ends where the next delimiter is found. -/
inductive ReadsParts (boundary : Bytes) : Bytes → List (List Header × Bytes) → Prop
  | close : ReadsParts boundary (ascii "--\r\n") []
  | part {fuel : Nat} {text rest behind content : Bytes}
      {headers : List Header} {parts : List (List Header × Bytes)}
      (head : readHeaders fuel text = some (headers, rest))
      (cut : splitText (ascii "\r\n--" ++ boundary) rest =
        some (content, behind))
      (later : ReadsParts boundary behind parts) :
      ReadsParts boundary (crlf ++ text) ((headers, content) :: parts)

def ReadsMultipart (boundary body : Bytes) (parts : List (List Header × Bytes)) : Prop :=
  ∃ rest, body = ascii "--" ++ boundary ++ rest ∧ ReadsParts boundary rest parts

/-- The headers that a part of a representation should have. -/
def partHeaders (contentType : Bytes) (total : Nat) (part : RangePart) : List Header :=
  [{ key := ascii "Content-Type", value := contentType },
    { key := ascii "Content-Range"
      value := ascii "bytes " ++ decimal part.start ++ ascii "-" ++
        decimal (part.start + part.size - 1) ++ ascii "/" ++ decimal total }]

/-- A client finds one part for each range, if the content type is one line and
no range contains the delimiter. -/
def HasParts (representation : Representation) (contentType boundary : Bytes)
    (parts : List RangePart) (body : Bytes) : Prop :=
  ¬ [Byte.cr, Byte.lf] <:+: contentType →
  (∀ part ∈ parts,
    ¬ ascii "\r\n--" ++ boundary <:+: representation.slice part) →
  ReadsMultipart boundary body (parts.map fun part =>
    (partHeaders contentType representation.content.length part, representation.slice part))

theorem cr_notMem_mpGenerateBoundary (rand : Nat → Nat) : Byte.cr ∉ mpGenerateBoundary rand := by
  intro isIn
  obtain ⟨index, -, isChar⟩ := List.mem_map.mp isIn
  have notCr : ∀ char ∈ ascii "0123456789abcdefghijklmnopqrstuvwxyzABCDEFGHIJKLMNOPQRSTUVWXYZ",
      char ≠ Byte.cr := forall_mem_of_all (by decide)
  have inside : rand index % (ascii
      "0123456789abcdefghijklmnopqrstuvwxyzABCDEFGHIJKLMNOPQRSTUVWXYZ").length <
      _ := Nat.mod_lt _ (by decide)
  rw [List.getD, List.getElem?_eq_getElem inside, Option.getD_some] at isChar
  exact notCr _ (List.getElem_mem inside) isChar

theorem clean_partHeaders {contentType : Bytes}
    (oneLine : ¬ [Byte.cr, Byte.lf] <:+: contentType) (total : Nat)
    (part : RangePart) :
    ∀ header ∈ partHeaders contentType total part, CleanHeader header := by
  have noCr : ∀ number, Byte.cr ∉ decimal number := fun number isIn =>
    absurd (isdigit_decimal number _ isIn) (by decide)
  have plainKey : ∀ key ∈ [ascii "Content-Type", ascii "Content-Range"],
      ¬ [Byte.colon, Byte.space] <:+: key ∧ Byte.cr ∉ key ++ [Byte.colon, Byte.space] :=
    forall_mem_of_all (by decide)
  rw [List.forall_mem_cons, List.forall_mem_singleton] at plainKey
  rw [partHeaders, List.forall_mem_cons, List.forall_mem_singleton]
  refine ⟨⟨?_, plainKey.1.1⟩, ⟨?_, plainKey.2.1⟩⟩
  · rw [headerLine, pair_isInfix_append_iff plainKey.1.2]
    exact oneLine
  · rw [headerLine, pair_isInfix_append_iff plainKey.2.2]
    intro isIn
    have isCr := isIn.subset List.mem_cons_self
    simp only [List.mem_append, noCr, or_false] at isCr
    revert isCr
    decide

/-- What stands behind the delimiter in front of the parts that are left. -/
theorem multipartBody_reads {plan : RangePlan}
    (isTotal : plan.mpTotal = representation.content.length)
    (noCr : Byte.cr ∉ plan.boundary) (parts : List RangePart) :
    HasParts representation plan.partCtype plan.boundary parts
      (multipartBody representation plan parts) := by
  intro oneLine free
  induction parts with
  | nil => exact ⟨_, List.append_assoc .., .close⟩
  | cons part parts ih =>
    rw [List.forall_mem_cons] at free
    obtain ⟨rest, isRest, later⟩ := ih free.2
    have headers := (readHeaders_iff (partHeaders plan.partCtype representation.content.length part)
      (representation.slice part ++
        (ascii "\r\n--" ++ plan.boundary ++ rest)) (by decide : 2 < 3)).mpr
      (clean_partHeaders oneLine _ part)
    have once : Byte.cr ∉ [Byte.lf, 45, 45] ++ plan.boundary := by
      rw [List.mem_append, not_or]
      exact ⟨by decide, noCr⟩
    refine ⟨_, ?_, .part headers (splitText_append once free.1 rest) later⟩
    have isType : ascii "\r\nContent-Type: " =
      crlf ++ ascii "Content-Type" ++ [Byte.colon, Byte.space] := by decide
    have isRange : ascii "\r\nContent-Range: bytes " = crlf ++
      ascii "Content-Range" ++ [Byte.colon, Byte.space] ++ ascii "bytes " := by
      decide
    have isEnd : ascii "\r\n\r\n" = crlf ++ crlf := by decide
    have isNext : ascii "\r\n--" = ascii "\r\n" ++ ascii "--" := by decide
    rw [multipartBody, isRest, mpPartHeader, isType, isRange, isEnd, isTotal, isNext]
    simp only [partHeaders, headerLines, headerLine, List.flatMap_cons,
      List.flatMap_nil, List.append_nil, List.append_assoc]


section Setup

variable {capacity : Nat} (isBuffer : 0 < capacity)

include isBuffer

theorem mpSetup_serves {parts : List RangePart} {origin : Option Bytes}
    {rand : Nat → Nat} {answer : RangeAnswer}
    (resolved : ∀ part ∈ parts, ResolvedPart representation.content.length part)
    (setup : mpSetup capacity representation.content.length parts origin rand = some answer) :
    answer.contentType = some (ascii "multipart/byteranges; boundary=" ++ mpGenerateBoundary rand) ∧
      ∃ body, Serves representation answer body ∧ HasParts representation
          (cstring (origin.getD (ascii "application/octet-stream")))
          (mpGenerateBoundary rand) parts body := by
  simp only [mpSetup] at setup
  split at setup
  · cases setup
  · cases announced : mpContentLength (mpPlan capacity
        representation.content.length parts origin rand) parts
        ((mpPlan capacity representation.content.length parts origin rand).boundary.length + 6) with
    | none =>
      rw [announced] at setup
      cases setup
    | some total =>
      obtain ⟨headers, sum⟩ := mpContentLength_eq resolved announced
      have close := length_mpClose (mpPlan capacity representation.content.length parts origin rand)
      have planned : Planned representation (mpPlan capacity
          representation.content.length parts origin rand) := by
        refine ⟨isBuffer, resolved, headers, ?_⟩
        rw [close]
        show (mpGenerateBoundary rand).length + 6 ≤ _
        rw [length_mpGenerateBoundary]
        decide
      obtain ⟨module, isStaged, isPlan, ready, isBody⟩ := planned.staged
      rw [announced, isStaged] at setup
      cases setup
      refine ⟨rfl, _, ⟨?_, fun answers => ⟨?_, ?_⟩⟩,
        @multipartBody_reads representation (mpPlan capacity
          representation.content.length parts origin rand) rfl
          (cr_notMem_mpGenerateBoundary rand) parts⟩
      · show total = _
        omega
      · rw [rangeHandlerBody, Bool.or_true]
        rfl
      · have delivered := (mpFillChunk_produces representation).deliver_delivers ready answers
        rw [isBody] at delivered
        show Delivers (rangeHandlerBody false representation module answers)
          _ ∧ _
        rw [rangeHandlerBody, isPlan]
        exact delivered

theorem singleAnswer_serves {part : RangePart}
    (resolved : ResolvedPart representation.content.length part) :
    Serves representation (singleAnswer capacity representation.content.length part)
      (representation.slice part) := by
  refine ⟨resolved.length_slice.symm, fun answers => ⟨rfl, ?_⟩⟩
  have ready : SingleReady representation (singleAnswer capacity
      representation.content.length part).module :=
    ⟨isBuffer, resolved, resolved.positive⟩
  exact (rangeGetChunk_produces representation).deliver_delivers ready answers

end Setup

/-- Every answer of the header phase is about the ranges that select something,
in their order: it announces the body that is then served, or that there is
none. -/
theorem rangeHandlerHeader_serves (representation : Representation) {ranges : List Range}
    {statusCode : Nat} {origin : Option Bytes} {rand : Nat → Nat} {answer : RangeAnswer}
    (answered : rangeHandlerHeader ranges statusCode representation origin
      rand = .answered answer) :
    ∃ results, List.Forall₂ (Range.Resolves representation.content.length) ranges results ∧
      resolveRanges representation.content.length ranges = some results.reduceOption ∧
      match results.reduceOption with
      | [] => answer = unsatisfiableAnswer rangeBufSize representation.content.length
      | part :: parts => ∃ body, Serves representation answer body ∧
          if ranges.length = 1 then body = representation.slice part
          else
            answer.contentType = some (ascii "multipart/byteranges; boundary=" ++
                  mpGenerateBoundary rand) ∧
              HasParts representation (cstring (origin.getD (ascii "application/octet-stream")))
                (mpGenerateBoundary rand) (part :: parts) body := by
  simp only [rangeHandlerHeader] at answered
  split at answered
  · cases answered
  split at answered
  · cases answered
  · rename_i resolves
    obtain ⟨results, selected, isParts, -⟩ := resolveRanges_resolves resolves
    cases answered
    exact ⟨results, selected, by rw [resolves, isParts], by rw [← isParts]⟩
  rename_i part parts resolves
  obtain ⟨results, selected, isParts, resolved⟩ := resolveRanges_resolves resolves
  refine ⟨results, selected, by rw [resolves, isParts], ?_⟩
  rw [← isParts]
  dsimp only
  by_cases isSingle : ranges.length = 1
  · rw [if_pos isSingle] at answered
    cases answered
    refine ⟨_, singleAnswer_serves (by decide) (resolved part List.mem_cons_self), ?_⟩
    rw [if_pos isSingle]
  · rw [if_neg isSingle] at answered
    split at answered
    · cases answered
    · rename_i setup
      cases answered
      obtain ⟨isType, body, serves, reads⟩ := mpSetup_serves (by decide) resolved setup
      refine ⟨body, serves, ?_⟩
      rw [if_neg isSingle]
      exact ⟨isType, reads⟩

theorem rangeHandlerHeader_serves_letters :
    ∃ answer body, rangeHandlerHeader [⟨1, 2⟩, ⟨9, -1⟩, ⟨-1, 3⟩] 200
        ⟨ascii "abcdef", none⟩ none (fun _ => 0) = .answered answer ∧
      Serves ⟨ascii "abcdef", none⟩ answer body ∧
      ReadsMultipart (List.replicate 16 48) body
        [(partHeaders (ascii "application/octet-stream") 6 ⟨1, 2⟩, ascii "bc"),
          (partHeaders (ascii "application/octet-stream") 6 ⟨3, 3⟩, ascii "def")] := by
  obtain ⟨results, -, areParts, served⟩ := rangeHandlerHeader_serves ⟨ascii "abcdef", none⟩
    (show rangeHandlerHeader [⟨1, 2⟩, ⟨9, -1⟩, ⟨-1, 3⟩] 200 _ none (fun _ => 0) = _ from rfl)
  have isList : results.reduceOption = [⟨1, 2⟩, ⟨3, 3⟩] := (Option.some.inj areParts).symm
  rw [isList] at served
  obtain ⟨body, serves, -, reads⟩ := served
  exact ⟨_, body, rfl, serves, reads (by decide) (forall_mem_of_all (by decide))⟩

/-- For every representation, all resolved ranges and every buffer, the body is
as long as announced; a client that reads it by the delimiter that the content
type announces finds one part for each range, or it is the single range. -/
theorem rangeFilter_body (representation : Representation) {capacity : Nat}
    (isBuffer : 0 < capacity) :
    (∀ parts origin rand answer, (∀ part ∈ parts, ResolvedPart representation.content.length part) →
      mpSetup capacity representation.content.length parts origin rand = some answer →
      answer.contentType = some (ascii "multipart/byteranges; boundary=" ++
        mpGenerateBoundary rand) ∧
      ∃ body, Serves representation answer body ∧ HasParts representation
          (cstring (origin.getD (ascii "application/octet-stream")))
          (mpGenerateBoundary rand) parts body) ∧
    ∀ part, ResolvedPart representation.content.length part → Serves representation
        (singleAnswer capacity representation.content.length part)
        (representation.slice part) :=
  ⟨fun _ _ _ _ resolved setup => mpSetup_serves isBuffer resolved setup,
    fun _ resolved => singleAnswer_serves isBuffer resolved⟩

theorem rangeFilter_body_letters : ∃ answer body,
      mpSetup 1 6 [⟨0, 2⟩, ⟨3, 3⟩] none (fun _ => 0) = some answer ∧
      Serves ⟨ascii "abcdef", none⟩ answer body ∧
      ReadsMultipart (List.replicate 16 48) body
        [(partHeaders (ascii "application/octet-stream") 6 ⟨0, 2⟩, ascii "ab"),
          (partHeaders (ascii "application/octet-stream") 6 ⟨3, 3⟩, ascii "def")] := by
  have isSome : (mpSetup 1 6 [⟨0, 2⟩, ⟨3, 3⟩] none fun _ => 0).isSome = true := by
    decide
  obtain ⟨answer, setup⟩ := Option.isSome_iff_exists.mp isSome
  have resolved : ∀ part ∈ [RangePart.mk 0 2, ⟨3, 3⟩], ResolvedPart 6 part := by
    rw [List.forall_mem_cons, List.forall_mem_singleton]
    exact ⟨⟨by decide, by decide⟩, ⟨by decide, by decide⟩⟩
  obtain ⟨-, body, serves, reads⟩ :=
    (rangeFilter_body ⟨ascii "abcdef", none⟩ Nat.one_pos).1 _ _ _ _ resolved setup
  exact ⟨answer, body, setup, serves, reads (by decide) (forall_mem_of_all (by decide))⟩

end CWebFramework.Http
