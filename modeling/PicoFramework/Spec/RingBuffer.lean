import PicoFramework.Lib.Interleave
import PicoFramework.Spec.Basic

/-! `ring_buffer.c`. Each function is the program of its accesses to the shared memory, in
the order the source makes them; `storage` and `size` never change, so they are read with an
index. The tests of a pointer against NULL are left out. -/

namespace Pico

open Lib.Interleave

structure RingBuffer where
  storage : Bytes
  head : ℕ
  tail : ℕ
deriving DecidableEq

def RingBuffer.size (rb : RingBuffer) : ℕ := rb.storage.length

/-- The loop of `advance`. -/
def wrapDown (size : ℕ) : ℕ → ℕ → ℕ
  | 0, index => index
  | fuel + 1, index => if index ≥ size then wrapDown size fuel (index - size) else index

def advance (size index by_ : ℕ) : ℕ := wrapDown size (index + by_) (index + by_)

def ringBufferInit (storage : Option Bytes) : Option RingBuffer := do
  let storage ← storage
  if storage.length < 2 then none else some ⟨storage, 0, 0⟩

section programs

/-- A copy into the storage, one byte at a time. -/
def copyIn : ℕ → Bytes → Prog RingBuffer PUnit
  | _, [] => pure ⟨⟩
  | pos, c :: cs => do
      .store fun rb => { rb with storage := rb.storage.set pos c }
      copyIn (pos + 1) cs

/-- A copy out of the storage. -/
def copyOut : ℕ → ℕ → Prog RingBuffer Bytes
  | _, 0 => pure []
  | pos, n + 1 => do
      let c ← .load fun rb => rb.storage.getD pos 0
      let cs ← copyOut (pos + 1) n
      pure (c :: cs)

def setHead (head : ℕ) : Prog RingBuffer PUnit := .store fun rb => { rb with head := head }

def setTail (tail : ℕ) : Prog RingBuffer PUnit := .store fun rb => { rb with tail := tail }

def ringBufferCapacity : Prog RingBuffer ℕ := .load fun rb => rb.size - 1

def ringBufferCount : Prog RingBuffer ℕ := do
  let head ← .load RingBuffer.head
  let (tail, size) ← .load fun rb => (rb.tail, rb.size)
  pure (if head ≥ tail then head - tail else size - tail + head)

def ringBufferFree : Prog RingBuffer ℕ := do
  let capacity ← ringBufferCapacity
  let count ← ringBufferCount
  pure (capacity - count)

def ringBufferIsEmpty : Prog RingBuffer Bool := do
  let head ← .load RingBuffer.head
  let tail ← .load RingBuffer.tail
  pure (head = tail)

/-- `ring_buffer_push`; the barrier keeps the two stores in this order. -/
def ringBufferPush (byte : UInt8) : Prog RingBuffer Bool := do
  let (head, size) ← .load fun rb => (rb.head, rb.size)
  let next := advance size head 1
  let tail ← .load RingBuffer.tail
  if next = tail then pure false
  else do
    copyIn head [byte]
    setHead next
    pure true

/-- `ring_buffer_write` of `len` bytes at `data`. -/
def ringBufferWrite (data : Bytes) : Prog RingBuffer ℕ := do
  let free ← ringBufferFree
  let writable := if data.length < free then data.length else free
  if writable = 0 then pure 0
  else do
    let (head, size) ← .load fun rb => (rb.head, rb.size)
    let untilEnd := size - head
    let first := if writable < untilEnd then writable else untilEnd
    copyIn head (data.take first)
    if writable > first then copyIn 0 ((data.drop first).take (writable - first)) else pure ⟨⟩
    setHead (advance size head writable)
    pure writable

/-- `ring_buffer_peek`; `none` is `false`. -/
def ringBufferPeek : Prog RingBuffer (Option UInt8) := do
  let empty ← ringBufferIsEmpty
  if empty then pure none
  else do
    let tail ← .load RingBuffer.tail
    let byte ← .load fun rb => rb.storage.getD tail 0
    pure (some byte)

def ringBufferPop : Prog RingBuffer (Option UInt8) := do
  let empty ← ringBufferIsEmpty
  if empty then pure none
  else do
    let (tail, size) ← .load fun rb => (rb.tail, rb.size)
    let byte ← .load fun rb => rb.storage.getD tail 0
    setTail (advance size tail 1)
    pure (some byte)

/-- `ring_buffer_peek_bytes`: the bytes copied, whose number it returns. -/
def ringBufferPeekBytes (len : ℕ) : Prog RingBuffer Bytes := do
  let count ← ringBufferCount
  let readable := if len < count then len else count
  if readable = 0 then pure []
  else do
    let (tail, size) ← .load fun rb => (rb.tail, rb.size)
    let untilEnd := size - tail
    let first := if readable < untilEnd then readable else untilEnd
    let bytes ← copyOut tail first
    let more ← if readable > first then copyOut 0 (readable - first) else pure []
    pure (bytes ++ more)

def ringBufferDiscard (len : ℕ) : Prog RingBuffer ℕ := do
  let count ← ringBufferCount
  let dropped := if len < count then len else count
  if dropped = 0 then pure 0
  else do
    let (tail, size) ← .load fun rb => (rb.tail, rb.size)
    setTail (advance size tail dropped)
    pure dropped

/-- `ring_buffer_read`: what it copied, and the number that it returns. -/
def ringBufferRead (len : ℕ) : Prog RingBuffer (Bytes × ℕ) := do
  let taken ← ringBufferPeekBytes len
  let dropped ← ringBufferDiscard taken.length
  pure (taken, dropped)

def ringBufferClear : Prog RingBuffer PUnit := do
  let head ← .load RingBuffer.head
  setTail head

end programs

end Pico
