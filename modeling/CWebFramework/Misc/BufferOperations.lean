import CWebFramework.Misc.BufferData
import CWebFramework.Transition.Machine

/-!
# Runs of the growable buffer

The operations of `bufferdata.c` as a machine, compared with the machine of a
plain byte list.  `bufferdata_get` returns a pointer that its callers read as
a C string, so the machine also tracks whether the heap block ends in a
terminator.
-/

namespace CWebFramework

open Transition

inductive BufferOperation where
  | push (byte : UInt8)
  | popBack
  | back
  | complete
  | get
  | copy
  | reset
  | moveDataToStart (offset size : Nat) (behind : Bytes)
  deriving DecidableEq

inductive BufferAnswer where
  | done
  | refused
  | byte (byte : UInt8)
  /-- A pointer to these bytes, and whether a terminator stands behind
  them. -/
  | string (bytes : Bytes) (terminated : Bool)
  deriving DecidableEq

/-- A buffer and whether its heap block has a terminator at
`offset_dbuffer`. -/
structure HeldBuffer where
  data : BufferData
  closed : Bool
  deriving DecidableEq

namespace HeldBuffer

/-- `offset_dbuffer` has been set to 0 and nothing written there. -/
def closedAtStart (held : HeldBuffer) : Bool :=
  match held.data.dynamicBuffer with
  | [] => held.closed
  | first :: _ => first == 0

/-- `bufferdata_move` writes the terminator of the heap block. -/
def flush (held : HeldBuffer) : HeldBuffer where
  data := bufferdataMove held.data
  closed := held.closed || held.data.type == .dynamic

def got (held : HeldBuffer) : HeldBuffer :=
  if 0 < held.data.staticBuffer.length then held.flush else held

def perform (held : HeldBuffer) : BufferOperation → HeldBuffer × BufferAnswer
  | .push byte =>
    let full := bufferdataCapacity ≤ held.data.staticBuffer.length
    (⟨bufferdataPush held.data byte, held.closed || full⟩, .done)
  | .popBack =>
    let fromBlock := held.data.staticBuffer = [] ∧ held.data.dynamicBuffer ≠ []
    (⟨bufferdataPopBack held.data, held.closed || fromBlock⟩, .byte (bufferdataBack held.data))
  | .back => (held, .byte (bufferdataBack held.data))
  | .complete => (⟨bufferdataComplete held.data, held.flush.closed⟩, .done)
  | .get =>
    (held.got, .string (bufferdataGet held.data) (held.data.type = .static ∨ held.got.closed))
  | .copy => (held.got, .string (bufferdataGet held.data) true)
  | .reset => (⟨bufferdataReset held.data, held.closedAtStart⟩, .done)
  | .moveDataToStart offset size behind =>
    match bufferdataMoveDataToStart held.data offset size behind with
    | none => (held, .refused)
    | some data =>
      (⟨data, if size = 0 then held.closedAtStart else true⟩, .done)

end HeldBuffer

def bufferMachine : Machine HeldBuffer BufferOperation BufferAnswer where
  perform := HeldBuffer.perform

/-- The bytes pushed and not popped, as a list. -/
def listMachine : Machine Bytes BufferOperation BufferAnswer where
  perform bytes
    | .push byte => (bytes ++ [byte], .done)
    | .popBack => (bytes.dropLast, .byte (bytes.getLastD 0))
    | .back => (bytes, .byte (bytes.getLastD 0))
    | .complete => (bytes, .done)
    | .get => (bytes, .string bytes true)
    | .copy => (bytes, .string bytes true)
    | .reset => ([], .done)
    | .moveDataToStart offset size _ =>
      ((bytes.drop offset).take size, .done)

/-- A slice lies within the bytes written. -/
def InRange (bytes : Bytes) : BufferOperation → Prop
  | .moveDataToStart offset size _ => offset + size ≤ bytes.length
  | _ => True

instance (bytes : Bytes) (operation : BufferOperation) : Decidable (InRange bytes operation) :=
  match operation with
  | .moveDataToStart offset size _ =>
    inferInstanceAs (Decidable (offset + size ≤ bytes.length))
  | .push _ | .popBack | .back | .complete | .get | .copy | .reset =>
    isTrue trivial

/-- A slice that is moved reaches no byte that is still in the static array,
and a block that is read has its terminator. -/
def Flushed (held : HeldBuffer) : BufferOperation → Prop
  | .moveDataToStart offset size _ =>
    held.data.type = .static ∨ offset + size ≤ held.data.dynamicBuffer.length
  | .get => held.data.type = .static ∨ held.got.closed
  | _ => True

instance (held : HeldBuffer) (operation : BufferOperation) : Decidable (Flushed held operation) :=
  match operation with
  | .moveDataToStart offset size _ =>
    inferInstanceAs (Decidable (held.data.type = .static ∨
      offset + size ≤ held.data.dynamicBuffer.length))
  | .get => inferInstanceAs (Decidable (held.data.type = .static ∨ held.got.closed))
  | .push _ | .popBack | .back | .complete | .copy | .reset => isTrue trivial

/-! ## One operation -/

namespace HeldBuffer

variable {held : HeldBuffer} {bytes : Bytes}

private theorem contents_got (held : HeldBuffer) : held.got.data.contents = held.data.contents := by
  rw [got]
  split
  next =>
    rw [flush]
    dsimp only
    rw [bufferdataMove]
    split
    · rfl
    · exact BufferData.contents_moveDynamic held.data
  next => rfl

private theorem slice_append {front : Bytes} {offset size : Nat}
    (within : offset + size ≤ front.length) (rest : Bytes) :
    ((front ++ rest).drop offset).take size = (front.drop offset).take size := by
  rw [List.drop_append_of_le_length (by omega),
    List.take_append_of_le_length (by rw [List.length_drop]; omega)]

/-- Moving a slice that has been flushed leaves the slice. -/
theorem moveDataToStart_flushed {buffer : BufferData} {offset size : Nat}
    (inRange : offset + size ≤ buffer.contents.length)
    (flushed : buffer.type = .static ∨
      offset + size ≤ buffer.dynamicBuffer.length) (behind : Bytes) :
    ∃ moved, bufferdataMoveDataToStart buffer offset size behind = some moved ∧
      moved.contents = (buffer.contents.drop offset).take size := by
  have whole : buffer.contents = buffer.dynamicBuffer ++ buffer.staticBuffer := rfl
  cases isType : buffer.type with
  | static =>
    have noBlock := buffer.dynamic_nil isType
    have fits := buffer.static_le
    rw [whole, noBlock, List.nil_append] at inRange ⊢
    unfold bufferdataCapacity at fits
    have accepted : ¬ (bufferdataSize ≤ offset ∨ bufferdataSize ≤ size ∨
        bufferdataSize ≤ offset + size) := by
      unfold bufferdataSize
      omega
    rw [bufferdataMoveDataToStart, isType]
    dsimp only
    rw [dif_neg accepted]
    refine ⟨_, rfl, ?_⟩
    rw [BufferData.contents, List.nil_append]
    exact slice_append inRange behind
  | dynamic =>
    have within := flushed.resolve_left (by rw [isType]; decide)
    rw [bufferdataMoveDataToStart, isType]
    dsimp only
    by_cases empty : size = 0
    · rw [if_pos empty, if_neg (by omega)]
      exact ⟨_, rfl, by rw [empty, List.take_zero]; rfl⟩
    · rw [if_neg empty, if_neg (by omega), if_neg (by omega)]
      refine ⟨_, rfl, ?_⟩
      rw [whole, BufferData.contents, List.append_nil]
      exact (slice_append within _).symm

/-- A slice with bytes that have not been flushed is refused. -/
theorem moveDataToStart_pending {buffer : BufferData} {offset size : Nat}
    (dynamic : buffer.type = .dynamic) (pending : buffer.dynamicBuffer.length < offset + size)
    (behind : Bytes) :
    bufferdataMoveDataToStart buffer offset size behind = none := by
  rw [bufferdataMoveDataToStart, dynamic]
  dsimp only
  split
  next empty => rw [if_pos (by omega)]
  next =>
    split
    next => rfl
    next => rw [if_pos (by omega)]

/-- The relation of the two machines. -/
def Holds (held : HeldBuffer) (bytes : Bytes) : Prop := held.data.contents = bytes

theorem perform_holds {operation : BufferOperation}
    (holds : held.Holds bytes) (inRange : InRange bytes operation)
    (flushed : Flushed held operation) :
    (bufferMachine.perform held operation).1.Holds (listMachine.perform bytes operation).1 := by
  subst holds
  cases operation with
  | push byte => exact BufferData.contents_push held.data byte
  | popBack => exact BufferData.contents_popBack held.data
  | back => rfl
  | complete => exact BufferData.contents_complete held.data
  | get => exact contents_got held
  | copy => exact contents_got held
  | reset => rfl
  | moveDataToStart offset size behind =>
    obtain ⟨moved, isMoved, contents⟩ := moveDataToStart_flushed inRange flushed behind
    dsimp only [bufferMachine, perform]
    rw [isMoved]
    exact contents

theorem perform_answer_iff {operation : BufferOperation}
    (holds : held.Holds bytes) (inRange : InRange bytes operation) :
    (bufferMachine.perform held operation).2 = (listMachine.perform bytes operation).2 ↔
      Flushed held operation := by
  subst holds
  cases operation with
  | push byte => exact iff_of_true rfl trivial
  | popBack =>
    exact iff_of_true (congrArg BufferAnswer.byte (BufferData.back_eq held.data)) trivial
  | back =>
    exact iff_of_true (congrArg BufferAnswer.byte (BufferData.back_eq held.data)) trivial
  | complete => exact iff_of_true rfl trivial
  | get =>
    dsimp only [bufferMachine, listMachine, perform, Flushed]
    rw [BufferData.get_eq, BufferAnswer.string.injEq, decide_eq_true_iff]
    exact and_iff_right rfl
  | copy =>
    exact iff_of_true (congrArg (BufferAnswer.string · true) (BufferData.get_eq held.data)) trivial
  | reset => exact iff_of_true rfl trivial
  | moveDataToStart offset size behind =>
    dsimp only [bufferMachine, listMachine, perform]
    by_cases flushed : Flushed held (.moveDataToStart offset size behind)
    · obtain ⟨moved, isMoved, -⟩ := moveDataToStart_flushed inRange flushed behind
      rw [isMoved]
      exact iff_of_true rfl flushed
    · obtain ⟨dynamic, pending⟩ := not_or.mp flushed
      have isDynamic : held.data.type = .dynamic := by
        cases isType : held.data.type with
        | static => exact absurd isType dynamic
        | dynamic => rfl
      rw [moveDataToStart_pending isDynamic (Nat.lt_of_not_le pending)]
      exact iff_of_false nofun flushed

end HeldBuffer

/-! ## Runs -/

def heldInit : HeldBuffer := ⟨bufferdataInit, true⟩

theorem heldInit_holds : heldInit.Holds [] := rfl

theorem answers_iff {operations : List BufferOperation}
    (inRange : listMachine.Meets InRange [] operations) :
    bufferMachine.answers heldInit operations = listMachine.answers [] operations ↔
      bufferMachine.Meets Flushed heldInit operations :=
  Machine.answers_eq_iff HeldBuffer.perform_holds
    HeldBuffer.perform_answer_iff heldInit_holds inRange

/-- Along every run in which only slices of the written bytes are moved, the
buffer answers as the list of the bytes pushed and not popped exactly when
every slice has been flushed and every block that is read is terminated.  Then
it also holds the bytes of the list. -/
theorem buffer_refines_iff (operations : List BufferOperation)
    (inRange : listMachine.Meets InRange [] operations) :
    (bufferMachine.answers heldInit operations = listMachine.answers [] operations ↔
      bufferMachine.Meets Flushed heldInit operations) ∧
    (bufferMachine.Meets Flushed heldInit operations →
      (bufferMachine.after heldInit operations).data.contents =
        listMachine.after [] operations) := by
  refine ⟨answers_iff inRange, fun flushed => ?_⟩
  exact Machine.after_simulates HeldBuffer.perform_holds heldInit_holds inRange flushed

theorem buffer_refines_slice : bufferMachine.answers heldInit
        [.push 1, .push 2, .push 3, .popBack, .moveDataToStart 1 1 [9], .get] =
      listMachine.answers [] [.push 1, .push 2, .push 3, .popBack, .moveDataToStart 1 1 [9],
          .get] :=
  (buffer_refines_iff _ (by decide)).1.mpr (by decide)

/-- As long as there is room the bytes stay in the static array. -/
theorem after_pushes (byte : UInt8) {count : Nat} (room : count ≤ bufferdataCapacity) :
    ∃ held, bufferMachine.after heldInit (List.replicate count (.push byte)) = held ∧
      held.data.staticBuffer.length = count ∧ held.data.type = .static := by
  induction count with
  | zero => exact ⟨_, rfl, rfl, rfl⟩
  | succ count ih =>
    obtain ⟨held, isHeld, isLength, isStatic⟩ := ih (Nat.le_of_succ_le room)
    refine ⟨_, by rw [List.replicate_succ', Machine.after_append, isHeld], ?_⟩
    dsimp only [Machine.after, List.foldl, bufferMachine, HeldBuffer.perform]
    have fits : held.data.staticBuffer.length < bufferdataCapacity := by
      omega
    rw [bufferdataPush, dif_pos fits]
    refine ⟨?_, isStatic⟩
    rw [bufferdataStore, List.length_append, List.length_singleton]
    exact congrArg (· + 1) isLength

private theorem list_pushes (byte : UInt8) (count : Nat) (bytes : Bytes) :
    listMachine.Meets InRange bytes (List.replicate count (.push byte)) ∧
      (listMachine.after bytes (List.replicate count (.push byte))).length =
        bytes.length + count := by
  induction count generalizing bytes with
  | zero => exact ⟨trivial, rfl⟩
  | succ count ih =>
    obtain ⟨inRange, isLength⟩ := ih (bytes ++ [byte])
    rw [List.length_append, List.length_singleton] at isLength
    rw [List.replicate_succ]
    exact ⟨⟨trivial, inRange⟩, isLength.trans (by omega)⟩

/-- The byte that does not fit into the static array is pending when all bytes
are moved. -/
theorem move_pending_refused : bufferMachine.answers heldInit
        (List.replicate 4096 (.push 97) ++ [.moveDataToStart 0 4096 []]) ≠
      listMachine.answers [] (List.replicate 4096 (.push 97) ++ [.moveDataToStart 0 4096 []]) := by
  intro same
  obtain ⟨pushes, isLength⟩ := list_pushes 97 4096 []
  have inRange : listMachine.Meets InRange []
      (List.replicate 4096 (.push 97) ++ [.moveDataToStart 0 4096 []]) :=
    Machine.meets_append_iff.mpr ⟨pushes, isLength.ge, trivial⟩
  rw [answers_iff inRange, Machine.meets_append_iff] at same
  obtain ⟨held, isHeld, isFull, isStatic⟩ := after_pushes 97 (Nat.le_refl bufferdataCapacity)
  rw [show (4096 : Nat) = bufferdataCapacity + 1 from rfl,
    List.replicate_succ', Machine.after_append, isHeld] at same
  have flushed := same.2.1
  dsimp only [Machine.after, List.foldl, bufferMachine, HeldBuffer.perform, Flushed] at flushed
  rw [bufferdataPush, dif_neg (by omega)] at flushed
  rcases flushed with static | within
  · cases static
  · dsimp only [bufferdataStore, bufferdataMoveDynamic] at within
    rw [held.data.dynamic_nil isStatic, List.nil_append, isFull] at within
    omega

end CWebFramework
