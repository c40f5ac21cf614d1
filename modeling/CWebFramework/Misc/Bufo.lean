import CWebFramework.Misc.Bytes

/-!
# Output buffers

`bufo.c`: a buffer with a capacity, a fill size and a position.  The position is
where data is appended while a buffer is being filled, and where data is taken
from while it is being drained.

`data` holds the bytes below `size`; the memory behind them is not modeled.  A
buffer whose memory is not allocated has capacity zero.  The proxy buffer of the
data filter points into the body of the response and is modeled as a buffer
that has just been filled with these bytes.
-/

namespace CWebFramework

structure Bufo where
  data : Bytes
  capacity : Nat
  pos : Nat
  isLast : Bool
  deriving DecidableEq, Repr

def bufoInit : Bufo where
  data := []
  capacity := 0
  pos := 0
  isLast := false

def Bufo.size (buf : Bufo) : Nat := buf.data.length

/-- `max_capacity` of `bufo_alloc`: 10 MiB. -/
def bufoMaxCapacity : Nat := 10 * 1024 * 1024

/-- `bufo_alloc`. A buffer that is allocated keeps its memory. -/
def bufoAlloc (buf : Bufo) (capacity : Nat) : Option Bufo :=
  if buf.capacity ≠ 0 then some buf
  else if bufoMaxCapacity < capacity then none
  else some { buf with capacity := capacity }

/-- `bufo_append`: the buffer and the number of bytes that fit, or the error
for a buffer without memory. -/
def bufoAppend (buf : Bufo) (bytes : Bytes) : Option (Bufo × Nat) :=
  if bytes = [] then some (buf, 0)
  else if buf.capacity = 0 then none
  else
    let piece := bytes.take (buf.capacity - buf.pos)
    some ({ buf with
        data := buf.data.take buf.pos ++ piece ++ buf.data.drop (buf.pos + piece.length)
        pos := buf.pos + piece.length }, piece.length)

def bufoResetPos (buf : Bufo) : Bufo := { buf with pos := 0 }

/-! ## Filling -/

/-- A buffer that is being filled: the position is at the end of the data. -/
structure Bufo.Filling (buf : Bufo) : Prop where
  allocated : buf.capacity ≠ 0
  position : buf.pos = buf.data.length
  fits : buf.data.length ≤ buf.capacity

def Bufo.room (buf : Bufo) : Nat := buf.capacity - buf.data.length

def Bufo.push (buf : Bufo) (bytes : Bytes) : Bufo :=
  { buf with
    data := buf.data ++ bytes
    pos := buf.data.length + bytes.length }

theorem Bufo.Filling.push {buf : Bufo} (filling : buf.Filling)
    {bytes : Bytes} (fits : bytes.length ≤ buf.room) :
    (buf.push bytes).Filling where
  allocated := filling.allocated
  position := by simp [Bufo.push]
  fits := by
    have bounded := filling.fits
    simp only [Bufo.push, List.length_append, Bufo.room] at fits ⊢
    omega

theorem Bufo.room_push (buf : Bufo) (bytes : Bytes) :
    (buf.push bytes).room = buf.room - bytes.length := by
  simp [room, push, Nat.sub_sub]

theorem Bufo.push_push (buf : Bufo) (first second : Bytes) :
    (buf.push first).push second = buf.push (first ++ second) := by
  simp [push, Nat.add_assoc]

theorem bufoAppend_filling {buf : Bufo} (filling : buf.Filling) (bytes : Bytes) :
    bufoAppend buf bytes = some (buf.push (bytes.take buf.room), (bytes.take buf.room).length) := by
  by_cases empty : bytes = []
  · simp [bufoAppend, empty, Bufo.push, ← filling.position]
  · simp [bufoAppend, empty, filling.allocated, filling.position, Bufo.push, Bufo.room]

end CWebFramework
