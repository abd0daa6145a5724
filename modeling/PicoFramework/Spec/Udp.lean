import PicoFramework.Spec.TcpClient
import PicoFramework.Spec.UdpPolicy

/-! `udp.c`, on top of an lwIP that answers each call as it likes. The world keeps a record of
every datagram that lwIP was handed. -/

namespace Pico

def UDP_MAX_DATAGRAM : ℕ := 512

/-- `udp_result_t`, but for the board without a network. -/
inductive UdpResult where
  | ok
  | errInvalidArg
  | errNotOpen
  | errNoMemory
  | errTooLong
  | errResolving
  | errUnsupportedAddress
  | errFailed
deriving DecidableEq

structure UdpEndpoint where
  address : Ipv4
  port : UInt16
deriving DecidableEq

/-- `udp_socket_config_t`; of the callback only whether it is there. -/
structure UdpSocketConfig where
  localPort : UInt16
  broadcast : Bool
  onDatagram : Bool
deriving DecidableEq

/-- `udp_socket_t`; of the PCB only whether there is one. -/
structure UdpSocket where
  config : UdpSocketConfig
  pcb : Bool
  buffer : Bytes
  datagramsSent : UInt32
  datagramsReceived : UInt32
  datagramsDropped : UInt32
  isOpen : Bool
  initialised : Bool
deriving DecidableEq

/-- A call of `udp_sendto`, and the configuration of the socket it was made for. -/
structure UdpHanded where
  dest : UdpEndpoint
  payload : Bytes
  config : UdpSocketConfig
deriving DecidableEq

structure UdpWorld where
  socket : UdpSocket
  handed : List UdpHanded
  /-- What `on_datagram` was called with. -/
  delivered : List (UdpEndpoint × Bytes)
deriving DecidableEq

inductive LwipSendErr where
  | ok
  | mem
  | other
deriving DecidableEq

inductive LwipBindErr where
  | ok
  | use
  | other
deriving DecidableEq

/-- What `dns_gethostbyname` answers. -/
inductive UdpDnsAnswer where
  | found (address : Ipv4)
  | inProgress
  | failed
deriving DecidableEq

/-- What lwIP answers while a datagram is sent. -/
structure UdpAnswers where
  dns : UdpDnsAnswer
  allocOk : Bool
  send : LwipSendErr
deriving DecidableEq

def udpSocketInit : UdpWorld where
  socket :=
    { config := ⟨0, false, false⟩, pcb := false, buffer := List.replicate UDP_MAX_DATAGRAM 0
      datagramsSent := 0, datagramsReceived := 0, datagramsDropped := 0, isOpen := false
      initialised := true }
  handed := []
  delivered := []

namespace UdpWorld

def setSocket (w : UdpWorld) (f : UdpSocket → UdpSocket) : UdpWorld := { w with socket := f w.socket }

/-- `on_recv`, with the payloads of a pbuf chain. -/
def onRecv (p : Pbuf) (sender : UdpEndpoint) (w : UdpWorld) : UdpWorld :=
  if p.totLen > UDP_MAX_DATAGRAM then
    w.setSocket fun s => { s with datagramsDropped := s.datagramsDropped + 1 }
  else
    let data := p.payloads.flatten
    let w := w.setSocket fun s =>
      { s with
        buffer := data ++ s.buffer.drop data.length
        datagramsReceived := s.datagramsReceived + 1 }
    if w.socket.config.onDatagram then { w with delivered := w.delivered ++ [(sender, data)] } else w

def sendDatagram (dest : UdpEndpoint) (data : Bytes) (a : UdpAnswers) (w : UdpWorld) :
    UdpResult × UdpWorld :=
  if !udpPayloadFits data.length then (.errTooLong, w)
  else if udpIpv4IsMulticast dest.address then (.errUnsupportedAddress, w)
  else if dest.port = 0 then (.errInvalidArg, w)
  else if !a.allocOk then (.errNoMemory, w)
  else
    let w := { w with handed := w.handed ++ [⟨dest, data, w.socket.config⟩] }
    match a.send with
    | .mem => (.errNoMemory, w)
    | .other => (.errFailed, w)
    | .ok => (.ok, w.setSocket fun s => { s with datagramsSent := s.datagramsSent + 1 })

def udpSocketClose (w : UdpWorld) : UdpResult × UdpWorld :=
  if !w.socket.initialised then (.errInvalidArg, w)
  else (.ok, w.setSocket fun s => { s with pcb := false, isOpen := false })

def udpSocketDeinit (w : UdpWorld) : UdpWorld :=
  if !w.socket.initialised then w
  else w.udpSocketClose.2.setSocket fun s => { s with initialised := false }

def udpSocketOpen (config : UdpSocketConfig) (newOk : Bool) (bind : LwipBindErr) (w : UdpWorld) :
    UdpResult × UdpWorld :=
  if !w.socket.initialised then (.errInvalidArg, w)
  else
    let w := w.udpSocketClose.2
    if !newOk then (.errNoMemory, w)
    else
      match bind with
      | .use => (.errInvalidArg, w)
      | .other => (.errFailed, w)
      | .ok => (.ok, w.setSocket fun s => { s with config := config, pcb := true, isOpen := true })

/-- `udp_socket_send_to`; a payload of no bytes may be NULL, which is `some []` here. -/
def udpSocketSendTo (host : Option CString) (port : UInt16) (data : Option Bytes) (a : UdpAnswers)
    (w : UdpWorld) : UdpResult × UdpWorld :=
  match data with
  | none => (.errInvalidArg, w)
  | some data =>
      if !w.socket.initialised then (.errInvalidArg, w)
      else if udpCheckEndpoint host port ≠ .ok then (.errInvalidArg, w)
      else if !w.socket.isOpen then (.errNotOpen, w)
      else
        match udpIpv4Parse host with
        | some address => w.sendDatagram ⟨address, port⟩ data a
        | none =>
            match a.dns with
            | .found address => w.sendDatagram ⟨address, port⟩ data a
            | .inProgress => (.errResolving, w)
            | .failed => (.errFailed, w)

def udpSocketSendToEndpoint (dest : Option UdpEndpoint) (data : Option Bytes) (a : UdpAnswers)
    (w : UdpWorld) : UdpResult × UdpWorld :=
  match dest, data with
  | some dest, some data =>
      if !w.socket.initialised then (.errInvalidArg, w)
      else if !w.socket.isOpen then (.errNotOpen, w)
      else if udpIpv4IsBroadcast dest.address && !w.socket.config.broadcast then (.errInvalidArg, w)
      else w.sendDatagram dest data a
  | _, _ => (.errInvalidArg, w)

def everyone : Ipv4 := ⟨255, 255, 255, 255⟩

def udpSocketBroadcast (port : UInt16) (data : Option Bytes) (a : UdpAnswers) (w : UdpWorld) :
    UdpResult × UdpWorld :=
  match data with
  | none => (.errInvalidArg, w)
  | some data =>
      if !w.socket.initialised then (.errInvalidArg, w)
      else if !w.socket.isOpen then (.errNotOpen, w)
      else if !w.socket.config.broadcast then (.errInvalidArg, w)
      else w.sendDatagram ⟨everyone, port⟩ data a

end UdpWorld

/-- A call of the application, or a datagram that arrives. -/
inductive UdpMove where
  | openSocket (config : UdpSocketConfig) (newOk : Bool) (bind : LwipBindErr)
  | close
  | deinit
  | sendTo (host : Option CString) (port : UInt16) (data : Option Bytes) (a : UdpAnswers)
  | sendToEndpoint (dest : Option UdpEndpoint) (data : Option Bytes) (a : UdpAnswers)
  | broadcast (port : UInt16) (data : Option Bytes) (a : UdpAnswers)
  | recv (p : Pbuf) (sender : UdpEndpoint)

/-- A datagram that arrives at no PCB is nobody's. -/
def UdpWorld.step (w : UdpWorld) : UdpMove → UdpWorld
  | .openSocket config newOk bind => (w.udpSocketOpen config newOk bind).2
  | .close => w.udpSocketClose.2
  | .deinit => w.udpSocketDeinit
  | .sendTo host port data a => (w.udpSocketSendTo host port data a).2
  | .sendToEndpoint dest data a => (w.udpSocketSendToEndpoint dest data a).2
  | .broadcast port data a => (w.udpSocketBroadcast port data a).2
  | .recv p sender => if w.socket.pcb then w.onRecv p sender else w

end Pico
