import PicoFramework.Spec.RingBuffer

/-! The body that `tcp_stream_write` and `bt_stream_write` share. -/

namespace Pico

open Lib.Interleave

/-- The number of bytes accepted, the outgoing buffer and the counter of those dropped. With
no peer nothing is buffered; a buffer that fills up loses the tail. -/
def streamWrite (connected : Bool) (outgoing : RingBuffer) (dropped : UInt32) (data : Bytes) :
    ℕ × RingBuffer × UInt32 :=
  if !connected then (0, outgoing, dropped + UInt32.ofNat data.length)
  else
    let (written, outgoing) := (ringBufferWrite data).run outgoing
    if written < data.length then
      (written, outgoing, dropped + UInt32.ofNat (data.length - written))
    else (written, outgoing, dropped)

end Pico
