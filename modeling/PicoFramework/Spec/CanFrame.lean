import PicoFramework.Lib.Wire
import PicoFramework.Spec.RingBuffer

/-! `can_frame.c`: frames, identifiers, acceptance filters, the records that frames are queued as,
and the queue between the interrupt and the main loop. -/

namespace Pico

open Lib.Interleave Lib.Wire

def CAN_MAX_DATA_LENGTH : ℕ := 8
def CAN_STANDARD_ID_MAX : UInt32 := 0x7FF
def CAN_EXTENDED_ID_MAX : UInt32 := 0x1FFFFFFF
def CAN_FLAG_RTR : UInt32 := 0x40000000
def CAN_FLAG_EXTENDED : UInt32 := 0x80000000
def CAN_QUEUE_RECORD_SIZE : ℕ := 16

def OFFSET_ID : ℕ := 0
def OFFSET_LENGTH : ℕ := 4
def OFFSET_FLAGS : ℕ := 5
def OFFSET_DATA : ℕ := 6

def FLAG_EXTENDED : UInt8 := 0x01
def FLAG_REMOTE : UInt8 := 0x02

@[ext] structure CanMessage where
  id : UInt32
  length : UInt8
  extended : Bool
  remote : Bool
  data : Bytes
  data_length : data.length = CAN_MAX_DATA_LENGTH
deriving DecidableEq

def canIdIsValid (id : UInt32) (extended : Bool) : Bool :=
  id ≤ (if extended then CAN_EXTENDED_ID_MAX else CAN_STANDARD_ID_MAX)

def canMessageIsValid (message : CanMessage) : Bool :=
  message.length.toNat ≤ CAN_MAX_DATA_LENGTH && canIdIsValid message.id message.extended

def canDlcToLength (dlc : ℕ) : UInt8 :=
  if dlc > CAN_MAX_DATA_LENGTH then UInt8.ofNat CAN_MAX_DATA_LENGTH else UInt8.ofNat dlc

section identifiers

def canIdIsExtended (packed : UInt32) : Bool := packed &&& CAN_FLAG_EXTENDED ≠ 0

def canIdIsRemote (packed : UInt32) : Bool := packed &&& CAN_FLAG_RTR ≠ 0

def canIdValue (packed : UInt32) : UInt32 :=
  if canIdIsExtended packed then packed &&& CAN_EXTENDED_ID_MAX else packed &&& CAN_STANDARD_ID_MAX

def canIdPack (id : UInt32) (extended remote : Bool) : UInt32 :=
  let packed := if extended then id &&& CAN_EXTENDED_ID_MAX else id &&& CAN_STANDARD_ID_MAX
  let packed := if extended then packed ||| CAN_FLAG_EXTENDED else packed
  if remote then packed ||| CAN_FLAG_RTR else packed

/-- The identifier word of a message. -/
def CanMessage.packed (message : CanMessage) : UInt32 :=
  canIdPack message.id message.extended message.remote

end identifiers

section filters

structure CanFilter where
  id : UInt32
  mask : UInt32
deriving DecidableEq

def canFilterMatches (filter : CanFilter) (packedId : UInt32) : Bool :=
  packedId &&& filter.mask = filter.id &&& filter.mask

/-- NULL is no filters. -/
def canFiltersAccept (filters : List CanFilter) (packedId : UInt32) : Bool :=
  filters.length = 0 || filters.any fun filter => canFilterMatches filter packedId

end filters

/-- Bytes put at the start of an array that was cleared. -/
def cleared (size : ℕ) (bytes : Bytes) : Bytes := (bytes ++ List.replicate size 0).take size

theorem length_cleared (size : ℕ) (bytes : Bytes) : (cleared size bytes).length = size := by
  rw [cleared, List.length_take, List.length_append, List.length_replicate]
  omega

/-- The record `can_queue_push` writes. -/
def encodeRecord (message : CanMessage) : Bytes :=
  cleared CAN_QUEUE_RECORD_SIZE (le32 message.id ++ [message.length,
    (if message.extended then FLAG_EXTENDED else 0) ||| (if message.remote then FLAG_REMOTE else 0)]
      ++ (if message.remote then [] else message.data.take message.length.toNat))

/-- The message `can_queue_pop` makes of a record. -/
def decodeRecord (record : Bytes) : CanMessage where
  id := ofLe32 record OFFSET_ID
  length := canDlcToLength (record.getD OFFSET_LENGTH 0).toNat
  extended := record.getD OFFSET_FLAGS 0 &&& FLAG_EXTENDED ≠ 0
  remote := record.getD OFFSET_FLAGS 0 &&& FLAG_REMOTE ≠ 0
  data := cleared CAN_MAX_DATA_LENGTH ((record.drop OFFSET_DATA).take
    (canDlcToLength (record.getD OFFSET_LENGTH 0).toNat).toNat)
  data_length := length_cleared _ _

structure CanQueue where
  buffer : RingBuffer
  dropped : UInt32
  initialised : Bool
deriving DecidableEq

def canQueueInit (storage : Option Bytes) : Option CanQueue := do
  let buffer ← ringBufferInit storage
  if (ringBufferCapacity.run buffer).1 < CAN_QUEUE_RECORD_SIZE then none
  else some ⟨buffer, 0, true⟩

/-- A call on `queue->buffer`. -/
def onBuffer {α : Type} : Prog RingBuffer α → Prog CanQueue α :=
  .focus CanQueue.buffer fun buffer queue => { queue with buffer := buffer }

def canQueuePush (message : CanMessage) : Prog CanQueue Bool := do
  let initialised ← .load CanQueue.initialised
  if !initialised || !canMessageIsValid message then pure false
  else do
    let free ← onBuffer ringBufferFree
    if free < CAN_QUEUE_RECORD_SIZE then do
      .store fun queue => { queue with dropped := queue.dropped + 1 }
      pure false
    else do
      let n ← onBuffer (ringBufferWrite (encodeRecord message))
      pure (n = CAN_QUEUE_RECORD_SIZE)

/-- `can_queue_pop`, with the byte count that it goes by. -/
def canQueuePopCounting : Prog CanQueue (ℕ × Option CanMessage) := do
  let initialised ← .load CanQueue.initialised
  if !initialised then pure (0, none)
  else do
    let count ← onBuffer ringBufferCount
    if count < CAN_QUEUE_RECORD_SIZE then pure (count, none)
    else do
      let read ← onBuffer (ringBufferRead CAN_QUEUE_RECORD_SIZE)
      if read.2 ≠ CAN_QUEUE_RECORD_SIZE then pure (count, none)
      else pure (count, some (decodeRecord read.1))

def canQueuePop : Prog CanQueue (Option CanMessage) := do
  let popped ← canQueuePopCounting
  pure popped.2

end Pico
