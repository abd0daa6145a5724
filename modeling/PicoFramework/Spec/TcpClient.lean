import PicoFramework.Spec.TcpStream
import PicoFramework.Spec.WifiRetry

/-! `tcp.c`, on top of an lwIP that answers each call as it likes and calls back whenever it
likes. A function of the source is one from world to world: the client, the PCBs and lookups
that lwIP holds for it, and which callback of the application is running. -/

namespace Pico

def TCP_DEFAULT_CONNECT_TIMEOUT_MS : UInt32 := 10000

/-- `tcp_result_t`, as far as these functions return it. -/
inductive TcpResult where
  | ok
  | errInvalidArg
  | errNoMemory
  | errFailed
deriving DecidableEq

inductive TcpState where
  | idle
  | resolving
  | connecting
  | connected
  | waiting
  | gaveUp
deriving DecidableEq

/-- `tcp_client_config_t`; of the callbacks only whether they are there. -/
structure TcpClientConfig where
  host : Option CString
  port : UInt16
  rxBuffer : Option Bytes
  txBuffer : Option Bytes
  connectTimeoutMs : UInt32
  onConnect : Bool
  onClosed : Bool
  autoReconnect : Bool
  retry : WifiRetryConfig
deriving DecidableEq

/-- `tcp_client_t`; a stream that is not initialised is `none`. -/
structure TcpClient where
  config : TcpClientConfig
  state : TcpState
  retry : WifiRetry
  stream : Option TcpStream
  pcb : Option ℕ
  hostIpv4 : UInt32
  attemptStartedMs : UInt32
  sessions : UInt32
  initialised : Bool
deriving DecidableEq

/-- An application callback, running. -/
inductive AppCallback where
  | onConnect
  | onClosed
deriving DecidableEq

structure TcpWorld where
  client : TcpClient
  /-- The PCBs that `tcp_new` gave out and that were neither closed, aborted nor freed by lwIP. -/
  live : List ℕ
  /-- How many PCBs `tcp_new` has given out. -/
  issued : ℕ
  /-- The DNS lookups that lwIP has yet to answer. -/
  lookups : ℕ
  inside : Option AppCallback
  /-- The PCB of the last connection reported. -/
  reported : Option ℕ
  /-- Between an open that starts a connection and the next close or deinit. -/
  isOpen : Bool
  /-- A connection attempt was started while the client was not open. -/
  strayed : Bool
deriving DecidableEq

inductive DnsAnswer where
  | found (ip : UInt32)
  | inProgress
  | failed
deriving DecidableEq

/-- What lwIP and the clock answer during one call. -/
structure LwipAnswers where
  /-- `now_ms()`, first and when an attempt is given up. -/
  now : UInt32
  later : UInt32
  dns : DnsAnswer
  newOk : Bool
  connectOk : Bool
  closeOk : Bool
deriving DecidableEq

/-- A segment as lwIP hands it over: the payloads of a pbuf chain. -/
structure Pbuf where
  payloads : List Bytes
  nonempty : payloads ≠ []
  totLen_lt : (payloads.map List.length).sum < 2 ^ 16

/-- `p->tot_len`. -/
def Pbuf.totLen (p : Pbuf) : ℕ := (p.payloads.map List.length).sum

/-- `tcp_client_init`: everything cleared. -/
def tcpClientInit : TcpWorld where
  client :=
    { config := ⟨none, 0, none, none, 0, false, false, false, ⟨0, 0, 0⟩⟩, state := .idle
      retry := ⟨⟨0, 0, 0⟩, 0, 0, false⟩, stream := none, pcb := none, hostIpv4 := 0
      attemptStartedMs := 0, sessions := 0, initialised := true }
  live := []
  issued := 0
  lookups := 0
  inside := none
  reported := none
  isOpen := false
  strayed := false

namespace TcpWorld

def setClient (w : TcpWorld) (f : TcpClient → TcpClient) : TcpWorld := { w with client := f w.client }

def setState (w : TcpWorld) (state : TcpState) : TcpWorld :=
  w.setClient fun c => { c with state := state }

/-- `tcp_stream_set_connected(&client->stream, ..)`. -/
def setConnected (w : TcpWorld) (connected : Bool) : TcpWorld :=
  w.setClient fun c => { c with stream := c.stream.map (·.setConnected connected) }

/-- `release_pcb`: true when the PCB was aborted. -/
def releasePcb (graceful closeOk : Bool) (w : TcpWorld) : Bool × TcpWorld :=
  match w.client.pcb with
  | none => (false, w)
  | some pcb =>
      let w := { w with live := w.live.erase pcb }
      (!(graceful && closeOk), w.setClient fun c => { c with pcb := none })

def handleFailure (now : UInt32) (w : TcpWorld) : TcpWorld :=
  let w := w.setConnected false
  if !w.client.config.autoReconnect && w.client.sessions > 0 then w.setState .idle
  else if w.client.retry.exhausted then w.setState .gaveUp
  else w.setClient fun c => { c with retry := c.retry.fail now, state := .waiting }

/-- The note that a connection attempt was started. -/
def attempted (w : TcpWorld) : TcpWorld := { w with strayed := w.strayed || !w.isOpen }

def startConnect (a : LwipAnswers) (w : TcpWorld) : TcpResult × TcpWorld :=
  if !a.newOk then (.errNoMemory, w)
  else
    let w := { w with live := w.live ++ [w.issued], issued := w.issued + 1 }.setClient fun c =>
      { c with pcb := some w.issued, attemptStartedMs := a.now, state := .connecting }
    let w := w.attempted
    if a.connectOk then (.ok, w) else (.errFailed, (w.releasePcb false a.closeOk).2)

def onDns (ip : Option UInt32) (a : LwipAnswers) (w : TcpWorld) : TcpWorld :=
  match ip with
  | none => w.handleFailure a.later
  | some ip =>
      let w := w.setClient fun c => { c with hostIpv4 := ip }
      let (result, w) := w.startConnect a
      if result ≠ .ok then w.handleFailure a.later else w

def beginAttempt (a : LwipAnswers) (w : TcpWorld) : TcpWorld :=
  let w := w.attempted
  match a.dns with
  | .found ip =>
      let w := w.setClient fun c => { c with hostIpv4 := ip }
      let (result, w) := w.startConnect a
      if result ≠ .ok then w.handleFailure a.later else w
  | .inProgress =>
      { w with lookups := w.lookups + 1 }.setClient fun c =>
        { c with attemptStartedMs := a.now, state := .resolving }
  | .failed => w.handleFailure a.later

/-- The link as `tcp_stream_flush` sees it: `tcp_sndbuf`, and what `stream_send` returned for
each segment. -/
structure Link where
  room : UInt16
  answers : ℕ → UInt16

def pumpOutput (link : Link) (w : TcpWorld) : TcpWorld :=
  if w.client.state ≠ .connected ∨ w.client.pcb = none then w
  else
    match w.client.stream with
    | none => w
    | some stream =>
        if stream.pending = 0 then w
        else w.setClient fun c =>
          { c with stream := some (stream.flush link.room.toNat link.answers).2.2 }

/-- `on_recv` with no data: the peer closed. The application hears of it before the failure
is dealt with. -/
def onRecvClosed (a : LwipAnswers) (w : TcpWorld) : TcpWorld :=
  let w := (w.releasePcb true a.closeOk).2.setState .idle
  if w.client.config.onClosed then { w with inside := some .onClosed } else w.handleFailure a.later

/-- `err_t` of `on_recv` with data. -/
inductive LwipErr where
  | ok
  | mem
deriving DecidableEq

/-- `on_recv` with data: declined whole, or stored payload by payload. -/
def onRecv (p : Pbuf) (w : TcpWorld) : LwipErr × TcpWorld :=
  match w.client.stream with
  | none => (.mem, w)
  | some stream =>
      if !stream.canAccept p.totLen then (.mem, w)
      else
        (.ok, w.setClient fun c => { c with
          stream := some (p.payloads.foldl (fun s payload => (s.onReceived payload).2) stream) })

/-- `on_error`; lwIP has freed the PCB. -/
def onError (pcb : ℕ) (a : LwipAnswers) (w : TcpWorld) : TcpWorld :=
  let wasConnected := w.client.state = .connected
  let w := { w with live := w.live.erase pcb }.setClient fun c => { c with pcb := none }
  if wasConnected ∧ w.client.config.onClosed then { w with inside := some .onClosed }
  else w.handleFailure a.later

def onConnected (pcb : ℕ) (err : Bool) (a : LwipAnswers) (link : Link) (w : TcpWorld) : TcpWorld :=
  if err then
    -- lwIP frees the PCB of a connection that failed
    ({ w with live := w.live.erase pcb }.setClient fun c => { c with pcb := none }).handleFailure
      a.later
  else
    let w := { w with reported := some pcb }.setClient fun c =>
      { c with retry := c.retry.reset, state := .connected, sessions := c.sessions + 1 }
    let w := w.setConnected true
    if w.client.config.onConnect then { w with inside := some .onConnect } else w.pumpOutput link

/-- What is left to do when the application returns from a callback. -/
def afterCallback (a : LwipAnswers) (link : Link) (w : TcpWorld) : TcpWorld :=
  match w.inside with
  | none => w
  | some .onClosed => { w with inside := none }.handleFailure a.later
  | some .onConnect => { w with inside := none }.pumpOutput link

def tcpClientDeinit (a : LwipAnswers) (w : TcpWorld) : TcpWorld :=
  if !w.client.initialised then w
  else
    let w := (w.releasePcb true a.closeOk).2.setConnected false
    { w with isOpen := false }.setClient fun c => { c with initialised := false, state := .idle }

def tcpClientOpen (config : TcpClientConfig) (a : LwipAnswers) (w : TcpWorld) :
    TcpResult × TcpWorld :=
  if !w.client.initialised then (.errInvalidArg, w)
  else if (config.host.map CString.length).getD 0 = 0 ∨ config.port = 0 then (.errInvalidArg, w)
  else
    let w := (w.releasePcb true a.closeOk).2
    match tcpStreamInit config.rxBuffer config.txBuffer with
    | none => (.errInvalidArg, w.setClient fun c => { c with stream := none })
    | some stream =>
        let config :=
          { config with
            connectTimeoutMs :=
              if config.connectTimeoutMs = 0 then TCP_DEFAULT_CONNECT_TIMEOUT_MS
              else config.connectTimeoutMs }
        let w := w.setClient fun c =>
          { c with
            stream := some stream, config := config, retry := wifiRetryInit config.retry
            sessions := 0 }
        (.ok, { w with isOpen := true }.beginAttempt a)

def tcpClientClose (a : LwipAnswers) (w : TcpWorld) : TcpResult × TcpWorld :=
  if !w.client.initialised then (.errInvalidArg, w)
  else
    let w := (w.releasePcb true a.closeOk).2.setConnected false
    (.ok, { w with isOpen := false }.setClient fun c =>
      { c with retry := c.retry.reset, state := .idle })

def tcpClientPoll (a : LwipAnswers) (link : Link) (w : TcpWorld) : TcpWorld :=
  if !w.client.initialised then w
  else
    match w.client.state with
    | .resolving | .connecting =>
        if a.now - w.client.attemptStartedMs ≥ w.client.config.connectTimeoutMs then
          (w.releasePcb false a.closeOk).2.handleFailure a.later
        else w
    | .waiting => if w.client.retry.due a.now then w.beginAttempt a else w
    | .connected => w.pumpOutput link
    | _ => w

def tcpClientWrite (data : Bytes) (link : Link) (w : TcpWorld) : TcpWorld :=
  match w.client.initialised, w.client.stream with
  | true, some stream =>
      let (accepted, stream) := stream.write data
      let w := w.setClient fun c => { c with stream := some stream }
      if accepted > 0 then w.pumpOutput link else w
  | _, _ => w

/-- `tcp_client_read_bytes`; `tcp_client_read` takes one. -/
def tcpClientReadBytes (length : ℕ) (w : TcpWorld) : TcpWorld :=
  match w.client.initialised, w.client.stream with
  | true, some stream => w.setClient fun c => { c with stream := some (stream.readBytes length).2 }
  | _, _ => w

end TcpWorld

/-- A call of the application, or a callback of lwIP. -/
inductive TcpMove where
  | openClient (config : TcpClientConfig) (a : LwipAnswers)
  | close (a : LwipAnswers)
  | deinit (a : LwipAnswers)
  | poll (a : LwipAnswers) (link : TcpWorld.Link)
  | write (data : Bytes) (link : TcpWorld.Link)
  | readBytes (length : ℕ)
  | dns (ip : Option UInt32) (a : LwipAnswers)
  | connected (pcb : ℕ) (err : Bool) (a : LwipAnswers) (link : TcpWorld.Link)
  | recv (pcb : ℕ) (p : Pbuf)
  | recvClosed (pcb : ℕ) (a : LwipAnswers)
  | sent (pcb : ℕ) (link : TcpWorld.Link)
  | error (pcb : ℕ) (a : LwipAnswers)
  /-- The application returns from its callback. -/
  | afterCallback (a : LwipAnswers) (link : TcpWorld.Link)

/-- lwIP calls back while no callback is running, about a PCB or a lookup of the client's. -/
def TcpMove.enabled (w : TcpWorld) : TcpMove → Bool
  | .dns _ _ => w.inside = none ∧ 0 < w.lookups
  | .connected pcb _ _ _ | .recv pcb _ | .recvClosed pcb _ | .sent pcb _ | .error pcb _ =>
      w.inside = none ∧ pcb ∈ w.live
  | .afterCallback _ _ => w.inside ≠ none
  | _ => true

def TcpWorld.perform (w : TcpWorld) : TcpMove → TcpWorld
  | .openClient config a => (w.tcpClientOpen config a).2
  | .close a => (w.tcpClientClose a).2
  | .deinit a => w.tcpClientDeinit a
  | .poll a link => w.tcpClientPoll a link
  | .write data link => w.tcpClientWrite data link
  | .readBytes length => w.tcpClientReadBytes length
  | .dns ip a => { w with lookups := w.lookups - 1 }.onDns ip a
  | .connected pcb err a link => w.onConnected pcb err a link
  | .recv _ p => (w.onRecv p).2
  | .recvClosed _ a => w.onRecvClosed a
  | .sent _ link => w.pumpOutput link
  | .error pcb a => w.onError pcb a
  | .afterCallback a link => w.afterCallback a link

/-- A move that is not enabled does nothing. -/
def TcpWorld.step (w : TcpWorld) (move : TcpMove) : TcpWorld :=
  if move.enabled w then w.perform move else w

end Pico
