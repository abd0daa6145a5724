import PicoFramework.Spec.Stream

/-! `bt_stream.c`, with the answer of the send callback as an argument. -/

namespace Pico

open Lib.Interleave

/-- The size of the array a packet is staged in. -/
def BT_PACKET_SIZE : ℕ := 512

/-- `bt_stream_t`, initialised. -/
structure BtStream where
  incoming : RingBuffer
  outgoing : RingBuffer
  mtu : UInt16
  maySend : Bool
  connected : Bool
  droppedOutgoing : UInt32
  droppedIncoming : UInt32
deriving DecidableEq

def btStreamInit (incoming outgoing : Option Bytes) : Option BtStream := do
  let incoming ← ringBufferInit incoming
  let outgoing ← ringBufferInit outgoing
  some ⟨incoming, outgoing, 0, false, false, 0, 0⟩

namespace BtStream

def setConnected (stream : BtStream) (connected : Bool) : BtStream :=
  let stream :=
    if !connected then
      { stream with
        incoming := (ringBufferClear.run stream.incoming).2
        outgoing := (ringBufferClear.run stream.outgoing).2
        maySend := false
        mtu := 0 }
    else stream
  { stream with connected := connected }

def write (stream : BtStream) (data : Bytes) : ℕ × BtStream :=
  let (written, outgoing, dropped) :=
    streamWrite stream.connected stream.outgoing stream.droppedOutgoing data
  (written, { stream with outgoing := outgoing, droppedOutgoing := dropped })

/-- `bt_stream_on_can_send`: what it returns, and the packet offered, if any. -/
def onCanSend (stream : BtStream) (mtu accepted : UInt16) : Bool × Option Bytes × BtStream :=
  if !stream.connected then (false, none, stream)
  else
    let stream := { stream with mtu := mtu, maySend := true }
    let pending := (ringBufferCount.run stream.outgoing).1
    if pending = 0 ∨ mtu = 0 then (false, none, stream)
    else
      let room := if mtu.toNat < BT_PACKET_SIZE then mtu.toNat else BT_PACKET_SIZE
      let room := if room > pending then pending else room
      let packet := ((ringBufferPeekBytes room).run stream.outgoing).1
      let staged := packet.length
      if staged = 0 then (false, none, stream)
      else
        let taken := if accepted.toNat < staged then accepted.toNat else staged
        let stream := { stream with
          maySend := false
          outgoing := ((ringBufferDiscard taken).run stream.outgoing).2 }
        ((ringBufferCount.run stream.outgoing).1 > 0, some packet, stream)

def onReceived (stream : BtStream) (data : Bytes) : ℕ × BtStream :=
  let (stored, incoming) := (ringBufferWrite data).run stream.incoming
  let stream := { stream with incoming := incoming }
  if stored < data.length then
    (stored, { stream with
      droppedIncoming := stream.droppedIncoming + UInt32.ofNat (data.length - stored) })
  else (stored, stream)

/-- `bt_stream_read`; `none` is -1. -/
def read (stream : BtStream) : Option UInt8 × BtStream :=
  let (byte, incoming) := ringBufferPop.run stream.incoming
  (byte, { stream with incoming := incoming })

end BtStream

end Pico

/-! `bt_console.c`: the stream over one RFCOMM channel. Of BTstack there is what it has been asked
for: an event for each channel that is to hear when it may send. Pairing, the service record and
what the radio is told at the start are left out. -/

namespace Pico

open Lib.Interleave

/-- `bt_console_t` with `g_rfcomm_channel_id`, which is zero when there is no channel; and the
channels that BTstack owes an event. -/
structure BtConsole where
  stream : BtStream
  channelId : UInt16
  requests : List UInt16
  initialised : Bool
deriving DecidableEq

/-- The end of `bt_console_init`, on a radio that started. -/
def btConsoleInit (incoming outgoing : Option Bytes) : Option BtConsole :=
  (btStreamInit incoming outgoing).map fun stream => ⟨stream, 0, [], true⟩

namespace BtConsole

/-- `rfcomm_request_can_send_now_event`, for the channel there is. -/
def requestCanSend (console : BtConsole) : BtConsole :=
  { console with requests := console.requests.insert console.channelId }

def hasOutput (console : BtConsole) : Bool :=
  decide ((ringBufferCount.run console.stream.outgoing).1 > 0)

/-- `send_over_rfcomm`, of a packet of this length: the link takes it or refuses it. -/
def sendOverRfcomm (channelId : UInt16) (length : ℕ) (taken : Bool) : UInt16 :=
  if channelId = 0 then 0 else if !taken then 0 else UInt16.ofNat length

/-- How long the packet is that `bt_stream_on_can_send` offers. -/
def offered (console : BtConsole) (mtu : UInt16) : ℕ :=
  ((console.stream.onCanSend mtu 0).2.1.getD []).length

/-- `RFCOMM_EVENT_CHANNEL_OPENED`. -/
def channelOpened (console : BtConsole) (status : UInt8) (channel : UInt16) : BtConsole :=
  if status ≠ 0 then
    { console with channelId := 0, stream := console.stream.setConnected false }
  else { console with channelId := channel, stream := console.stream.setConnected true }

/-- `RFCOMM_EVENT_CAN_SEND_NOW`, which is owed no more: the packet sent, if any. -/
def canSendNow (console : BtConsole) (channel mtu : UInt16) (taken : Bool) :
    Option Bytes × BtConsole :=
  let answer := sendOverRfcomm console.channelId (console.offered mtu) taken
  let (more, packet, stream) := console.stream.onCanSend mtu answer
  let console := { console with
    stream := stream
    requests := console.requests.filter (· ≠ channel) }
  (if answer = 0 then none else packet, if more then console.requestCanSend else console)

/-- `RFCOMM_EVENT_CHANNEL_CLOSED`, of a channel that BTstack forgets. -/
def channelClosed (console : BtConsole) (channel : UInt16) : BtConsole :=
  { console with
    requests := console.requests.filter (· ≠ channel)
    channelId := 0
    stream := console.stream.setConnected false }

/-- `RFCOMM_DATA_PACKET`. -/
def dataPacket (console : BtConsole) (packet : Bytes) : BtConsole :=
  { console with stream := (console.stream.onReceived packet).2 }

/-- The events of `handle_packet` that concern the stream. -/
inductive Event where
  | channelOpened (status : UInt8) (channel : UInt16)
  | canSendNow (channel mtu : UInt16) (taken : Bool)
  | channelClosed (channel : UInt16)
  | data (packet : Bytes)

def handlePacket (console : BtConsole) : Event → Option Bytes × BtConsole
  | .channelOpened status channel => (none, console.channelOpened status channel)
  | .canSendNow channel mtu taken => console.canSendNow channel mtu taken
  | .channelClosed channel => (none, console.channelClosed channel)
  | .data packet => (none, console.dataPacket packet)

/-- `stream_read`. -/
def read (console : BtConsole) : Option UInt8 × BtConsole :=
  let (byte, stream) := console.stream.read
  (byte, { console with stream := stream })

/-- `stream_write`. -/
def write (console : BtConsole) (data : Bytes) : BtConsole :=
  let console := { console with stream := (console.stream.write data).2 }
  if console.channelId ≠ 0 && console.hasOutput then console.requestCanSend else console

/-- `bt_console_poll`; what BTstack does in its turn are events of their own. -/
def poll (console : BtConsole) : BtConsole :=
  if !console.initialised then console
  else if console.channelId ≠ 0 && console.hasOutput then console.requestCanSend
  else console

end BtConsole

end Pico
