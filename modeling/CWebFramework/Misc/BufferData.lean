import CWebFramework.Misc.Bytes

/-!
# The growable token buffer

`bufferdata_t` collects the characters of one token.  Characters go to a
static array first; once that is full they move to a heap block.  The arrays
are modeled by the bytes below their write offsets, and `realloc` is assumed
to succeed.

The invariants of the two arrays are fields of the structure, so that every
operation carries them.  `contents` is the byte string that the buffer stands
for; each operation is described by what it does to `contents`.
-/

namespace CWebFramework

/-- `BUFFERDATA_CAPACITY`: one byte of `BUFFERDATA_SIZE` is kept for the
terminator. -/
def bufferdataCapacity : Nat := 4095

inductive BufferDataType where
  | static
  | dynamic
  deriving DecidableEq, Repr

structure BufferData where
  /-- `static_buffer` below `offset_sbuffer`. -/
  staticBuffer : Bytes
  /-- `dynamic_buffer` below `offset_dbuffer`. -/
  dynamicBuffer : Bytes
  dbufferSize : Nat
  type : BufferDataType
  static_le : staticBuffer.length ≤ bufferdataCapacity
  dynamic_nil : type = .static → dynamicBuffer = []
  deriving DecidableEq

namespace BufferData

def contents (buffer : BufferData) : Bytes := buffer.dynamicBuffer ++ buffer.staticBuffer

end BufferData

def bufferdataInit : BufferData where
  staticBuffer := []
  dynamicBuffer := []
  dbufferSize := 0
  type := .static
  static_le := Nat.zero_le _
  dynamic_nil := fun _ => rfl

/-- `bufferdata_reset`: the heap block is kept. -/
def bufferdataReset (buffer : BufferData) : BufferData where
  staticBuffer := []
  dynamicBuffer := []
  dbufferSize := buffer.dbufferSize
  type := .static
  static_le := Nat.zero_le _
  dynamic_nil := fun _ => rfl

/-- `bufferdata_clear`: the heap block is freed. -/
def bufferdataClear (buffer : BufferData) : BufferData :=
  { bufferdataReset buffer with dbufferSize := 0 }

/-- The part of `bufferdata_move` that runs for a dynamic buffer. -/
def bufferdataMoveDynamic (buffer : BufferData) : BufferData where
  staticBuffer := []
  dynamicBuffer := buffer.dynamicBuffer ++ buffer.staticBuffer
  dbufferSize :=
    let dbufferLength := buffer.dynamicBuffer.length + buffer.staticBuffer.length
    if buffer.dbufferSize ≤ dbufferLength then dbufferLength + 1
    else buffer.dbufferSize
  type := .dynamic
  static_le := Nat.zero_le _
  dynamic_nil := by simp

def bufferdataMove (buffer : BufferData) : BufferData :=
  match buffer.type with
  | .static => buffer
  | .dynamic => bufferdataMoveDynamic buffer

def bufferdataWrited (buffer : BufferData) : Nat :=
  match buffer.type with
  | .static => buffer.staticBuffer.length
  | .dynamic => buffer.dynamicBuffer.length + buffer.staticBuffer.length

def bufferdataComplete (buffer : BufferData) : BufferData :=
  match buffer.type with
  | .static => buffer
  | .dynamic => bufferdataMove buffer

/-- `bufferdata_get`: the bytes behind the returned pointer. -/
def bufferdataGet (buffer : BufferData) : Bytes :=
  match buffer.type with
  | .static => buffer.staticBuffer
  | .dynamic =>
    if 0 < buffer.staticBuffer.length then
      (bufferdataMove buffer).dynamicBuffer
    else
      buffer.dynamicBuffer

/-- The tail of `bufferdata_push`, after the full static array has been moved
away. -/
def bufferdataStore (buffer : BufferData) (byte : UInt8)
    (room : buffer.staticBuffer.length < bufferdataCapacity) :
    BufferData where
  staticBuffer := buffer.staticBuffer ++ [byte]
  dynamicBuffer := buffer.dynamicBuffer
  dbufferSize := buffer.dbufferSize
  type := buffer.type
  static_le := by
    simpa using Nat.succ_le_of_lt room
  dynamic_nil := buffer.dynamic_nil

def bufferdataPush (buffer : BufferData) (byte : UInt8) : BufferData :=
  if room : buffer.staticBuffer.length < bufferdataCapacity then
    bufferdataStore buffer byte room
  else
    bufferdataStore (bufferdataMoveDynamic buffer) byte (Nat.zero_lt_succ _)

def bufferdataBack (buffer : BufferData) : UInt8 :=
  if bufferdataWrited buffer = 0 then 0
  else if 0 < buffer.staticBuffer.length then buffer.staticBuffer.getLastD 0
  else buffer.dynamicBuffer.getLastD 0

/-- `bufferdata_pop_back`, without the character that it returns. -/
def bufferdataPopBack (buffer : BufferData) : BufferData :=
  if bufferdataWrited buffer = 0 then buffer
  else if 0 < buffer.staticBuffer.length then
    { buffer with
      staticBuffer := buffer.staticBuffer.dropLast
      static_le := by
        rw [List.length_dropLast]
        exact (Nat.sub_le _ 1).trans buffer.static_le }
  else
    { buffer with
      dynamicBuffer := buffer.dynamicBuffer.dropLast
      dynamic_nil := fun static => by
        rw [buffer.dynamic_nil static, List.dropLast_nil] }

def bufferdataSize : Nat := 4096

/-- `bufferdata_move_data_to_start`; `none` is the result 0.  `behind` are the
bytes of the static array behind the written ones. -/
def bufferdataMoveDataToStart (buffer : BufferData) (offset size : Nat)
    (behind : Bytes) : Option BufferData :=
  match buffer.type with
  | .static =>
    if refused : bufferdataSize ≤ offset ∨ bufferdataSize ≤ size ∨
        bufferdataSize ≤ offset + size then
      none
    else
      some
        { staticBuffer := ((buffer.staticBuffer ++ behind).drop offset).take size
          dynamicBuffer := []
          dbufferSize := buffer.dbufferSize
          type := .static
          static_le := by
            rw [List.length_take]
            unfold bufferdataSize at refused
            unfold bufferdataCapacity
            omega
          dynamic_nil := fun _ => rfl }
  | .dynamic =>
    let currentSize := buffer.dynamicBuffer.length
    if size = 0 then
      if currentSize < offset then none
      else
        some
          { staticBuffer := []
            dynamicBuffer := []
            dbufferSize := buffer.dbufferSize
            type := .dynamic
            static_le := Nat.zero_le _
            dynamic_nil := fun _ => rfl }
    else if currentSize ≤ offset then none
    else if currentSize - offset < size then none
    else
      some
        { staticBuffer := []
          dynamicBuffer := (buffer.dynamicBuffer.drop offset).take size
          dbufferSize := size + 1
          type := .dynamic
          static_le := Nat.zero_le _
          dynamic_nil := nofun }

namespace BufferData

@[simp]
theorem contents_init : bufferdataInit.contents = [] := rfl

@[simp]
theorem contents_reset (buffer : BufferData) : (bufferdataReset buffer).contents = [] := rfl

@[simp]
theorem contents_clear (buffer : BufferData) : (bufferdataClear buffer).contents = [] := rfl

@[simp]
theorem contents_moveDynamic (buffer : BufferData) :
    (bufferdataMoveDynamic buffer).contents = buffer.contents := by
  simp [contents, bufferdataMoveDynamic]

@[simp]
theorem contents_complete (buffer : BufferData) :
    (bufferdataComplete buffer).contents = buffer.contents := by
  unfold bufferdataComplete bufferdataMove
  cases bufferType : buffer.type with
  | static => rfl
  | dynamic => exact contents_moveDynamic buffer

@[simp]
theorem contents_push (buffer : BufferData) (byte : UInt8) :
    (bufferdataPush buffer byte).contents = buffer.contents ++ [byte] := by
  unfold bufferdataPush
  split
  · simp [contents, bufferdataStore]
  · simp [contents, bufferdataStore, bufferdataMoveDynamic]

@[simp]
theorem writed_eq (buffer : BufferData) : bufferdataWrited buffer = buffer.contents.length := by
  unfold bufferdataWrited
  split
  · rename_i static
    simp [contents, buffer.dynamic_nil static]
  · simp [contents]

@[simp]
theorem get_eq (buffer : BufferData) : bufferdataGet buffer = buffer.contents := by
  unfold bufferdataGet
  split
  · rename_i static
    simp [contents, buffer.dynamic_nil static]
  · rename_i dynamic
    split
    · simp [contents, bufferdataMove, dynamic, bufferdataMoveDynamic]
    · rename_i empty
      have staticEmpty : buffer.staticBuffer = [] := by
        simpa using empty
      simp [contents, staticEmpty]

@[simp]
theorem back_eq (buffer : BufferData) : bufferdataBack buffer = buffer.contents.getLastD 0 := by
  rw [bufferdataBack, writed_eq]
  split
  next empty => rw [List.length_eq_zero_iff.mp empty, List.getLastD_nil]
  next =>
    rcases List.eq_nil_or_concat buffer.staticBuffer with none | ⟨_, _, some⟩
    · simp [contents, none]
    · simp [contents, some, ← List.append_assoc]

@[simp]
theorem contents_popBack (buffer : BufferData) :
    (bufferdataPopBack buffer).contents = buffer.contents.dropLast := by
  rw [bufferdataPopBack, writed_eq]
  split
  next empty => rw [List.length_eq_zero_iff.mp empty, List.dropLast_nil]
  next =>
    rcases List.eq_nil_or_concat buffer.staticBuffer with none | ⟨_, _, some⟩
    · simp [contents, none]
    · simp [contents, some, ← List.append_assoc]

end BufferData

end CWebFramework
