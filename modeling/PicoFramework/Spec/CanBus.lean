import PicoFramework.Lib.Broadcast
import PicoFramework.Spec.CanFrame

/-! `can.c`: a bus between the callback of its controller, in an interrupt, and the main loop; and
the nodes of one bus together, whose controllers put the frames that they were given on the wire.
What is common to all nodes on a wire is not the source's; of the controller it is what the source
says of it. -/

namespace Pico

open Lib.Interleave Lib.Broadcast

def CAN_NO_TX_PIN : ℤ := -1

/-- The transmit slots of the controller. -/
def CAN2040_TX_SLOTS : ℕ := 4

inductive CanResult where
  | ok
  | errInvalidArg
  | errPioInUse
  | errIrqInUse
  | errNotInitialised
  | errMonitorMode
  | errTxFull
  | errRxEmpty
deriving DecidableEq

/-- `struct can2040_msg`. -/
structure Can2040Msg where
  id : UInt32
  dlc : UInt32
  data : Bytes
  data_length : data.length = CAN_MAX_DATA_LENGTH

inductive Can2040Notify where
  | rx
  | tx
  | error
deriving DecidableEq

structure CanBusConfig where
  pio : ℕ
  rxPin : ℤ
  txPin : ℤ
  bitrate : UInt32
  filters : List CanFilter
  rxStorage : Option Bytes
  irqPriority : UInt8

/-- `can_bus_t`, less the controller. -/
structure CanBus where
  rxQueue : CanQueue
  pio : ℕ
  filters : List CanFilter
  bitrate : UInt32
  filtered : UInt32
  controllerErrors : UInt32
  rxPin : ℤ
  txPin : ℤ
  initialised : Bool
deriving DecidableEq

/-- A bus as `can_bus_init` leaves it. -/
def CanBusConfig.opened (config : CanBusConfig) (bitrate : UInt32) (rxQueue : CanQueue) : CanBus where
  rxQueue := rxQueue
  pio := config.pio
  filters := config.filters
  bitrate := bitrate
  filtered := 0
  controllerErrors := 0
  rxPin := config.rxPin
  txPin := config.txPin
  initialised := true

/-- A call on `bus->rx_queue`. -/
def onRxQueue {α : Type} : Prog CanQueue α → Prog CanBus α :=
  .focus CanBus.rxQueue fun queue bus => { bus with rxQueue := queue }

/-- The message `can2040_callback` makes of a frame. -/
def Can2040Msg.received (message : Can2040Msg) : CanMessage where
  id := canIdValue message.id
  length := canDlcToLength message.dlc.toNat
  extended := canIdIsExtended message.id
  remote := canIdIsRemote message.id
  data := cleared CAN_MAX_DATA_LENGTH (if canIdIsRemote message.id then []
    else message.data.take (canDlcToLength message.dlc.toNat).toNat)
  data_length := length_cleared _ _

inductive CallbackEnd where
  | error
  | ignored
  | filtered
  | queued (ok : Bool)
deriving DecidableEq

/-- `can2040_callback`, with how it ended. -/
def can2040Callback (notify : Can2040Notify) (message : Option Can2040Msg) :
    Prog CanBus CallbackEnd :=
  if notify = .error then do
    .store fun bus => { bus with controllerErrors := bus.controllerErrors + 1 }
    pure .error
  else if notify ≠ .rx then pure .ignored
  else message.elim (pure .ignored) fun message => do
    let filters ← .load CanBus.filters
    if !canFiltersAccept filters message.id then do
      .store fun bus => { bus with filtered := bus.filtered + 1 }
      pure .filtered
    else do
      let ok ← onRxQueue (canQueuePush message.received)
      pure (.queued ok)

/-- The bytes that a frame carries. -/
def CanMessage.carried (message : CanMessage) : Bytes :=
  if message.remote then [] else message.data.take message.length.toNat

/-- The frame `can_bus_send` makes of a message. -/
def CanMessage.outgoing (message : CanMessage) : Can2040Msg where
  id := message.packed
  dlc := message.length.toUInt32
  data := cleared CAN_MAX_DATA_LENGTH message.carried
  data_length := length_cleared _ _

/-- A frame goes to a free transmit slot, if there is one. -/
def can2040Transmit (slots : List Can2040Msg) (message : Can2040Msg) : Option (List Can2040Msg) :=
  if slots.length < CAN2040_TX_SLOTS then some (slots ++ [message]) else none

def canBusSend (active : Bool) (bus : CanBus) (slots : List Can2040Msg) (message : CanMessage) :
    CanResult × List Can2040Msg :=
  if !canMessageIsValid message then (.errInvalidArg, slots)
  else if !active then (.errNotInitialised, slots)
  else if bus.txPin = CAN_NO_TX_PIN then (.errMonitorMode, slots)
  else (can2040Transmit slots message.outgoing).elim (.errTxFull, slots) fun slots => (.ok, slots)

def canBusReceive (active : Bool) : Prog CanBus (CanResult × Option CanMessage) :=
  if !active then pure (.errNotInitialised, none)
  else do
    let message ← onRxQueue canQueuePop
    pure (if message.isSome then .ok else .errRxEmpty, message)

section nodes

/-- What the controller calls back with. -/
structure Can2040Call where
  notify : Can2040Notify
  message : Option Can2040Msg

/-- The frame that a call brings. -/
def Can2040Call.frame (call : Can2040Call) : List Can2040Msg :=
  if call.notify = .rx then call.message.toList else []

/-- What has come of the calls on one bus: the frames whose calls have returned, those that were
queued and those that were received, and the numbers of the others. -/
structure CanBusLog where
  frames : List Can2040Msg
  pushed : List CanMessage
  received : List CanMessage
  dropped : ℕ
  filtered : ℕ
  errors : ℕ

def CanBusLog.ended (call : Can2040Call) (log : CanBusLog) : CallbackEnd → CanBusLog
  | .error => { log with errors := log.errors + 1 }
  | .ignored => log
  | .filtered => { log with filtered := log.filtered + 1 }
  | .queued true => { log with pushed := log.pushed ++ call.frame.map Can2040Msg.received }
  | .queued false => { log with dropped := log.dropped + 1 }

def canCallback : Party CanBus CanBusLog Can2040Call CallbackEnd where
  program call := can2040Callback call.notify call.message
  commit call ending log := ({ log with frames := log.frames ++ call.frame }).ended call ending

def canReceiver : Party CanBus CanBusLog PUnit (CanResult × Option CanMessage) where
  program _ := canBusReceive true
  commit _ answer log := { log with received := log.received ++ answer.2.toList }

/-- A bus between its two sides, and what its controller has to tell it of still. -/
structure CanNode where
  sides : System CanBus CanBusLog Can2040Call CallbackEnd PUnit (CanResult × Option CanMessage)
  incoming : List Can2040Msg

def CanNode.quiet (bus : CanBus) : CanNode := ⟨.idle bus ⟨[], [], [], 0, 0, 0⟩, []⟩

def CanNode.move (m : Move Can2040Call PUnit) (node : CanNode) : CanNode :=
  { node with sides := node.sides.move canCallback canReceiver m }

/-- A copy of a frame: bytes that the frame does not carry may be anything. -/
structure Can2040Msg.Like (message copy : Can2040Msg) : Prop where
  id : copy.id = message.id
  dlc : copy.dlc = message.dlc
  data : canIdIsRemote message.id = false →
    copy.data.take message.dlc.toNat = message.data.take message.dlc.toNat

end nodes

section network

variable {ι : Type} [DecidableEq ι]

structure CanNetwork (ι : Type) where
  medium : Medium ι CanMessage Can2040Msg
  node : ι → CanNode

def CanNetwork.quiet (bus : ι → CanBus) : CanNetwork ι := ⟨.silent, fun i => .quiet (bus i)⟩

def CanNetwork.update (j : ι) (f : CanNode → CanNode) (net : CanNetwork ι) : CanNetwork ι :=
  { net with node := Function.update net.node j (f (net.node j)) }

/-- After a call of `can_bus_send`. -/
def CanNetwork.posted (i : ι) (message : CanMessage) (answer : CanResult × List Can2040Msg)
    (net : CanNetwork ι) : CanNetwork ι :=
  { net with
    medium := { net.medium with
      sent := if answer.1 = .ok then
        Function.update net.medium.sent i (net.medium.sent i ++ [message]) else net.medium.sent
      outgoing := Function.update net.medium.outgoing i answer.2 } }

inductive CanEvent (ι : Type) where
  | send (i : ι) (message : CanMessage)
  | speak (i : ι) (copies : ι → Option Can2040Msg)
  | arrive (j : ι)
  | notify (j : ι) (call : Can2040Call)
  | interrupt (j : ι)
  | receive (j : ι)
  | mainLoop (j : ι)

/-- What may happen next, at any node. The controllers call back with frames in order, one at a
time; a frame that goes out may fail to reach some of the others. -/
inductive CanStep : CanNetwork ι → CanEvent ι → CanNetwork ι → Prop
  | send (net : CanNetwork ι) (i : ι) (message : CanMessage) :
      CanStep net (.send i message) (net.posted i message
        (canBusSend true (net.node i).sides.memory (net.medium.outgoing i) message))
  | speak (net : CanNetwork ι) (i : ι) (x : Can2040Msg) (rest : List Can2040Msg)
      (copies : ι → Option Can2040Msg) (hfirst : net.medium.outgoing i = x :: rest)
      (hcopies : ∀ j y, copies j = some y → i ≠ j ∧ x.Like y) :
      CanStep net (.speak i copies)
        { medium := net.medium.speak i x rest copies
          node := fun j =>
            { net.node j with incoming := (net.node j).incoming ++ (copies j).toList } }
  | arrive (net : CanNetwork ι) (j : ι) (x : Can2040Msg) (rest : List Can2040Msg)
      (hincoming : (net.node j).incoming = x :: rest) (hidle : (net.node j).sides.left = none) :
      CanStep net (.arrive j) (net.update j fun node =>
        CanNode.move (.startLeft ⟨.rx, some x⟩) { node with incoming := rest })
  | notify (net : CanNetwork ι) (j : ι) (call : Can2040Call) (hcall : call.frame = [])
      (hidle : (net.node j).sides.left = none) :
      CanStep net (.notify j call) (net.update j (CanNode.move (.startLeft call)))
  | interrupt (net : CanNetwork ι) (j : ι) :
      CanStep net (.interrupt j) (net.update j (CanNode.move .stepLeft))
  | receive (net : CanNetwork ι) (j : ι) :
      CanStep net (.receive j) (net.update j (CanNode.move (.startRight ⟨⟩)))
  | mainLoop (net : CanNetwork ι) (j : ι) :
      CanStep net (.mainLoop j) (net.update j (CanNode.move .stepRight))

end network

end Pico
