import PicoFramework.Spec.Basic
import PicoFramework.Spec.WifiRetry

/-! `wifi.c`, on top of a radio that answers each call as it likes. The address is kept as the
number that the source writes in dotted form, and is zero when there is none. -/

namespace Pico

def WIFI_SSID_MIN_LENGTH : ℕ := 1
def WIFI_SSID_MAX_LENGTH : ℕ := 32
def WIFI_PASSWORD_MIN_LENGTH : ℕ := 8
def WIFI_PASSWORD_MAX_LENGTH : ℕ := 63
def WIFI_DEFAULT_ATTEMPT_TIMEOUT_MS : UInt32 := 15000
def CYW43_LINK_UP : ℤ := 3

inductive WifiCredentialsResult where
  | ok
  | noSsid
  | ssidTooLong
  | passwordTooShort
  | passwordTooLong
deriving DecidableEq

def wifiCheckCredentials (ssid password : Option CString) : WifiCredentialsResult :=
  match ssid with
  | none => .noSsid
  | some ssid =>
      if ssid.length < WIFI_SSID_MIN_LENGTH then .noSsid
      else if ssid.length > WIFI_SSID_MAX_LENGTH then .ssidTooLong
      else
        match password with
        | none => .ok
        | some password =>
            if password.length = 0 then .ok
            else if password.length < WIFI_PASSWORD_MIN_LENGTH then .passwordTooShort
            else if password.length > WIFI_PASSWORD_MAX_LENGTH then .passwordTooLong
            else .ok

/-- `wifi_result_t`, as far as these functions return it. -/
inductive WifiResult where
  | ok
  | errInvalidArg
  | errRadio
  | errCredentials
deriving DecidableEq

inductive WifiState where
  | idle
  | connecting
  | connected
  | waiting
  | gaveUp
deriving DecidableEq

structure WifiConfig where
  ssid : Option CString
  password : Option CString
  hostname : Option CString
  attemptTimeoutMs : UInt32
  retry : WifiRetryConfig
deriving DecidableEq

structure Wifi where
  config : WifiConfig
  retry : WifiRetry
  state : WifiState
  attemptStartedMs : UInt32
  address : UInt32
  radioStarted : Bool
  initialised : Bool
deriving DecidableEq

structure WifiWorld where
  wifi : Wifi
  /-- Since the last `wifi_connect`: how often an attempt was begun, and how often one failed. -/
  attempts : ℕ
  failures : ℕ
deriving DecidableEq

/-- What the radio, lwIP and the clock answer during one call. -/
structure WifiAnswers where
  /-- `cyw43_tcpip_link_status`. -/
  link : ℤ
  /-- `now_ms()`: in the poll, as an attempt starts, and as one is given up. -/
  now : UInt32
  started : UInt32
  later : UInt32
  radioOk : Bool
  ip : UInt32
deriving DecidableEq

def wifiInit (radioOk : Bool) : WifiResult × WifiWorld :=
  let wifi : Wifi :=
    { config := ⟨none, none, none, 0, ⟨0, 0, 0⟩⟩, retry := ⟨⟨0, 0, 0⟩, 0, 0, false⟩, state := .idle
      attemptStartedMs := 0, address := 0, radioStarted := radioOk, initialised := radioOk }
  (if radioOk then .ok else .errRadio, ⟨wifi, 0, 0⟩)

namespace WifiWorld

def setWifi (w : WifiWorld) (f : Wifi → Wifi) : WifiWorld := { w with wifi := f w.wifi }

def beginAttempt (a : WifiAnswers) (w : WifiWorld) : WifiResult × WifiWorld :=
  let w := { w with attempts := w.attempts + 1 }
  if !a.radioOk then (.errRadio, w)
  else (.ok, w.setWifi fun m => { m with attemptStartedMs := a.started, state := .connecting })

def wifiConnect (config : WifiConfig) (a : WifiAnswers) (w : WifiWorld) : WifiResult × WifiWorld :=
  if !w.wifi.initialised then (.errInvalidArg, w)
  else if wifiCheckCredentials config.ssid config.password ≠ .ok then (.errCredentials, w)
  else
    let config :=
      { config with
        attemptTimeoutMs :=
          if config.attemptTimeoutMs = 0 then WIFI_DEFAULT_ATTEMPT_TIMEOUT_MS
          else config.attemptTimeoutMs }
    let w := { w with attempts := 0, failures := 0 }.setWifi fun m =>
      { m with config := config, retry := wifiRetryInit config.retry, address := 0 }
    w.beginAttempt a

def wifiDisconnect (w : WifiWorld) : WifiResult × WifiWorld :=
  if !w.wifi.initialised then (.errInvalidArg, w)
  else (.ok, w.setWifi fun m => { m with retry := m.retry.reset, address := 0, state := .idle })

def handleFailure (now : UInt32) (w : WifiWorld) : WifiWorld :=
  let w := { w with failures := w.failures + 1 }.setWifi fun m => { m with address := 0 }
  if w.wifi.retry.exhausted then w.setWifi fun m => { m with state := .gaveUp }
  else w.setWifi fun m => { m with retry := m.retry.fail now, state := .waiting }

def wifiPoll (a : WifiAnswers) (w : WifiWorld) : WifiWorld :=
  if !w.wifi.initialised then w
  else
    match w.wifi.state with
    | .connecting =>
        if a.link = CYW43_LINK_UP then
          w.setWifi fun m =>
            { m with address := a.ip, retry := m.retry.reset, state := .connected }
        else if a.link < 0 then w.handleFailure a.later
        else if a.now - w.wifi.attemptStartedMs ≥ w.wifi.config.attemptTimeoutMs then
          w.handleFailure a.later
        else w
    | .connected =>
        if a.link ≠ CYW43_LINK_UP then w.handleFailure a.later
        else w.setWifi fun m => { m with address := a.ip }
    | .waiting =>
        if w.wifi.retry.due a.now then
          let (result, w) := w.beginAttempt a
          if result ≠ .ok then w.handleFailure a.later else w
        else w
    | .idle | .gaveUp => w

end WifiWorld

end Pico
