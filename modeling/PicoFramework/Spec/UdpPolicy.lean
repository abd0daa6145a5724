import PicoFramework.Spec.Basic

/-! `udp_policy.c`: addresses as text and as bytes, and which of them a datagram may be sent to. -/

namespace Pico

def UDP_ADDRESS_LENGTH : ℕ := 16
def UDP_MAX_PAYLOAD : ℕ := 1472

inductive UdpEndpointResult where
  | ok
  | noHost
  | noPort
deriving DecidableEq

/-- An IPv4 address, first octet first. -/
structure Ipv4 where
  a : UInt8
  b : UInt8
  c : UInt8
  d : UInt8
deriving DecidableEq

def udpCheckEndpoint (host : Option CString) (port : UInt16) : UdpEndpointResult :=
  match host with
  | none => .noHost
  | some host =>
      if host.length = 0 then .noHost
      else if port = 0 then .noPort
      else .ok

def isDigit (c : UInt8) : Bool := 0x30 ≤ c && c ≤ 0x39

/-- The digits that a text starts with, and what follows them. -/
def spanDigits (text : Bytes) : Bytes × Bytes := (text.takeWhile isDigit, text.dropWhile isDigit)

def digitsValue (digits : Bytes) : ℕ :=
  digits.foldl (fun value c => value * 10 + (c - 0x30).toNat) 0

/-- One octet of `udp_ipv4_parse`: its value, and the text behind it. -/
def parseOctet (text : Bytes) : Option (UInt8 × Bytes) :=
  let (digits, rest) := spanDigits text
  if digits = [] then none
  else if digits.head? = some 0x30 ∧ digits.length > 1 then none
  else if digits.length > 3 then none
  else if digitsValue digits > 255 then none
  else some (UInt8.ofNat (digitsValue digits), rest)

/-- A dot, and the octet behind it. -/
def parseDotOctet (text : Bytes) : Option (UInt8 × Bytes) :=
  match text with
  | [] => none
  | c :: text => if c = 0x2E then parseOctet text else none

def udpIpv4Parse (text : Option CString) : Option Ipv4 := do
  let text ← text
  let (a, text) ← parseOctet text.bytes
  let (b, text) ← parseDotOctet text
  let (c, text) ← parseDotOctet text
  let (d, text) ← parseDotOctet text
  if text = [] then some ⟨a, b, c, d⟩ else none

/-- `udp_ipv4_parse` with the memory at `out`, which only the last step writes. -/
def udpIpv4ParseInto (text : Option CString) (out : Ipv4) : Bool × Ipv4 :=
  match udpIpv4Parse text with
  | some octets => (true, octets)
  | none => (false, out)

/-- An octet as `%u` prints it. -/
def octetText (octet : UInt8) : Bytes :=
  (Nat.toDigits 10 octet.toNat).map fun c => UInt8.ofNat c.toNat

def ipv4Text (address : Ipv4) : Bytes :=
  octetText address.a ++ 0x2E :: (octetText address.b ++ 0x2E ::
    (octetText address.c ++ 0x2E :: octetText address.d))

/-- What `snprintf` leaves in a buffer: as much of the text as there is room for with a terminator
behind it. -/
def printInto (text out : Bytes) : Bytes :=
  let kept := text.take (out.length - 1)
  kept ++ 0 :: out.drop (kept.length + 1)

/-- `udp_ipv4_format` into a buffer of `out.length` bytes: what it returns, and the buffer. -/
def udpIpv4Format (address : Ipv4) (out : Bytes) : ℕ × Bytes :=
  if out.length = 0 then (0, out)
  else
    let text := ipv4Text address
    let printed := printInto text out
    if text.length ≥ out.length then (0, printed.set 0 0) else (text.length, printed)

def udpIpv4IsBroadcast (address : Ipv4) : Bool :=
  address.a = 255 && address.b = 255 && address.c = 255 && address.d = 255

def udpIpv4IsMulticast (address : Ipv4) : Bool := address.a &&& 0xF0 = 224

def udpPayloadFits (length : ℕ) : Bool := length ≤ UDP_MAX_PAYLOAD

end Pico
