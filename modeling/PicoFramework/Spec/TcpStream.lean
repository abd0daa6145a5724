import PicoFramework.Spec.Stream

/-! `tcp_stream.c`, and `tcp.h`'s link as the answers its send callback gives. A stream is
called from one place at a time, so its ring buffers are run without interference. -/

namespace Pico

open Lib.Interleave

def TCP_STREAM_SEGMENT_MAX : ℕ := 512

/-- `tcp_stream_t`, initialised. -/
structure TcpStream where
  incoming : RingBuffer
  outgoing : RingBuffer
  connected : Bool
  bytesSent : UInt32
  bytesReceived : UInt32
  droppedOutgoing : UInt32
deriving DecidableEq

def tcpStreamInit (incoming outgoing : Option Bytes) : Option TcpStream := do
  let incoming ← ringBufferInit incoming
  let outgoing ← ringBufferInit outgoing
  some ⟨incoming, outgoing, false, 0, 0, 0⟩

namespace TcpStream

def setConnected (stream : TcpStream) (connected : Bool) : TcpStream :=
  let stream :=
    if connected then { stream with incoming := (ringBufferClear.run stream.incoming).2 }
    else { stream with outgoing := (ringBufferClear.run stream.outgoing).2 }
  { stream with connected := connected }

def write (stream : TcpStream) (data : Bytes) : ℕ × TcpStream :=
  let (written, outgoing, dropped) :=
    streamWrite stream.connected stream.outgoing stream.droppedOutgoing data
  (written, { stream with outgoing := outgoing, droppedOutgoing := dropped })

/-- `ring_buffer_count(&stream->outgoing)`. -/
def pending (stream : TcpStream) : ℕ := (ringBufferCount.run stream.outgoing).1

/-- The loop of `tcp_stream_flush`: what it returns, and each segment offered with what the
link said it took. Every turn takes at least one byte of the room. -/
def flushLoop (answers : ℕ → UInt16) : ℕ → ℕ → TcpStream → Bool × List (Bytes × UInt16) × TcpStream
  | 0, _, stream => (stream.pending > 0, [], stream)
  | fuel + 1, room, stream =>
      if room = 0 then (stream.pending > 0, [], stream)
      else
        let pending := stream.pending
        if pending = 0 then (false, [], stream)
        else
          let chunk := if room < pending then room else pending
          let chunk := if chunk > TCP_STREAM_SEGMENT_MAX then TCP_STREAM_SEGMENT_MAX else chunk
          let segment := ((ringBufferPeekBytes chunk).run stream.outgoing).1
          let staged := segment.length
          if staged = 0 then (false, [], stream)
          else
            let accepted := answers 0
            let taken := if accepted.toNat < staged then accepted.toNat else staged
            let stream := { stream with
              outgoing := ((ringBufferDiscard taken).run stream.outgoing).2
              bytesSent := stream.bytesSent + UInt32.ofNat taken }
            if taken < staged then (stream.pending > 0, [(segment, accepted)], stream)
            else
              let rest := flushLoop (fun i => answers (i + 1)) fuel (room - taken) stream
              (rest.1, (segment, accepted) :: rest.2.1, rest.2.2)

def flush (stream : TcpStream) (room : ℕ) (answers : ℕ → UInt16) :
    Bool × List (Bytes × UInt16) × TcpStream :=
  if !stream.connected then (false, [], stream) else flushLoop answers room room stream

def canAccept (stream : TcpStream) (length : ℕ) : Bool :=
  (ringBufferFree.run stream.incoming).1 ≥ length

def onReceived (stream : TcpStream) (data : Bytes) : ℕ × TcpStream :=
  if !stream.canAccept data.length then (0, stream)
  else
    let (stored, incoming) := (ringBufferWrite data).run stream.incoming
    (stored, { stream with
      incoming := incoming, bytesReceived := stream.bytesReceived + UInt32.ofNat stored })

/-- `tcp_stream_read`; `none` is -1. -/
def read (stream : TcpStream) : Option UInt8 × TcpStream :=
  let (byte, incoming) := ringBufferPop.run stream.incoming
  (byte, { stream with incoming := incoming })

def readBytes (stream : TcpStream) (length : ℕ) : (Bytes × ℕ) × TcpStream :=
  let (bytes, incoming) := (ringBufferRead length).run stream.incoming
  (bytes, { stream with incoming := incoming })

end TcpStream

end Pico
