import PicoFramework.Lib.Run
import PicoFramework.Spec.Udp

/-! What a UDP socket hands to lwIP, over every run of calls and every answer of the resolver. -/

namespace Pico

open Lib.Run UdpWorld

theorem udpIpv4IsBroadcast_iff (address : Ipv4) :
    udpIpv4IsBroadcast address = true ↔ address = everyone := by
  obtain ⟨a, b, c, d⟩ := address
  simp [udpIpv4IsBroadcast, everyone, and_assoc]

theorem udpIpv4IsMulticast_iff (address : Ipv4) :
    udpIpv4IsMulticast address = true ↔ 224 ≤ address.a.toNat ∧ address.a.toNat < 240 := by
  have hoctet : ∀ a : UInt8, (decide (a &&& 0xF0 = 224) = true) ↔ 224 ≤ a.toNat ∧ a.toNat < 240 := by
    intro a
    obtain ⟨⟨n, hn⟩⟩ := a
    revert hn n
    decide +kernel
  exact hoctet address.a

namespace UdpHanded

/-- The destination is one host, at a port that there is, and the payload fits in one datagram. -/
structure Addressed (d : UdpHanded) : Prop where
  host : ¬ (224 ≤ d.dest.address.a.toNat ∧ d.dest.address.a.toNat < 240)
  port : d.dest.port ≠ 0
  payload : d.payload.length ≤ UDP_MAX_PAYLOAD

/-- A datagram to everyone was asked for when the socket was opened. -/
def OptedIn (d : UdpHanded) : Prop := d.dest.address = everyone → d.config.broadcast = true

end UdpHanded

namespace UdpWorld

/-- `send_datagram` comes to `udp_sendto`. -/
structure Sends (dest : UdpEndpoint) (data : Bytes) (a : UdpAnswers) : Prop where
  payload : data.length ≤ UDP_MAX_PAYLOAD
  host : udpIpv4IsMulticast dest.address = false
  port : dest.port ≠ 0
  alloc : a.allocOk = true

variable {w : UdpWorld} {dest : UdpEndpoint} {data : Bytes} {a : UdpAnswers}

theorem sendDatagram_handed :
    (Sends dest data a ∧
      (w.sendDatagram dest data a).2.handed = w.handed ++ [⟨dest, data, w.socket.config⟩]) ∨
    (¬ Sends dest data a ∧ (w.sendDatagram dest data a).2.handed = w.handed) := by
  unfold sendDatagram
  split
  · rename_i hlong
    exact .inr ⟨fun h => (by simp [udpPayloadFits, h.payload] at hlong), rfl⟩
  split
  · rename_i hmulticast
    exact .inr ⟨fun h => Bool.false_ne_true (h.host.symm.trans hmulticast), rfl⟩
  split
  · rename_i hport
    exact .inr ⟨fun h => h.port hport, rfl⟩
  split
  · rename_i halloc
    exact .inr ⟨fun h => (by rw [h.alloc] at halloc; cases halloc), rfl⟩
  rename_i hfits hhost hport halloc
  have hsends : Sends dest data a := by
    refine ⟨?_, by simpa using hhost, hport, by simpa using halloc⟩
    simpa [udpPayloadFits] using hfits
  refine .inl ⟨hsends, ?_⟩
  cases a.send <;> rfl

/-- Where `udp_socket_send_to` sends, when the host is an address or the resolver knows one. -/
def resolves (host : Option CString) (a : UdpAnswers) : Option Ipv4 :=
  match udpIpv4Parse host, a.dns with
  | some address, _ => some address
  | none, .found address => some address
  | none, _ => none

/-- The call of `send_datagram` that `udp_socket_send_to` comes to. -/
def comesTo (w : UdpWorld) (host : Option CString) (port : UInt16) (data : Option Bytes)
    (a : UdpAnswers) : Option (UdpEndpoint × Bytes) :=
  if w.socket.initialised = true ∧ udpCheckEndpoint host port = .ok ∧ w.socket.isOpen = true then
    data.bind fun bytes => (resolves host a).map fun address => (⟨address, port⟩, bytes)
  else none

theorem comesTo_port {host : Option CString} {port : UInt16} {payload : Option Bytes}
    (h : w.comesTo host port payload a = some (dest, data)) : dest.port ≠ 0 := by
  unfold comesTo at h
  split at h
  · rename_i hready
    obtain ⟨bytes, rfl, hresolved⟩ := Option.bind_eq_some_iff.mp h
    obtain ⟨address, -, hpair⟩ := Option.map_eq_some_iff.mp hresolved
    cases hpair
    intro hport
    have hcheck := hready.2.1
    unfold udpCheckEndpoint at hcheck
    split at hcheck
    · cases hcheck
    · rw [if_pos (show port = 0 from hport)] at hcheck
      split at hcheck <;> cases hcheck
  · cases h

theorem udpSocketSendTo_eq (host : Option CString) (port : UInt16) (data : Option Bytes) :
    (w.udpSocketSendTo host port data a).2 =
      match w.comesTo host port data a with
      | some (dest, bytes) => (w.sendDatagram dest bytes a).2
      | none => w := by
  unfold udpSocketSendTo comesTo
  cases data with
  | none => simp
  | some bytes =>
    by_cases hready : w.socket.initialised = true ∧ udpCheckEndpoint host port = .ok ∧
        w.socket.isOpen = true
    · obtain ⟨hinit, hcheck, hopen⟩ := hready
      simp only [hinit, hcheck, hopen, resolves, Option.bind_some]
      cases udpIpv4Parse host with
      | some address => rfl
      | none => cases a.dns <;> rfl
    · rw [if_neg hready]
      simp only [not_and_or] at hready
      rcases hready with hinit | hcheck | hopen
      · simp [hinit]
      · simp only [if_pos hcheck]
        split <;> rfl
      · simp only [Bool.not_eq_true] at hopen
        simp only [hopen]
        split
        · rfl
        split
        · rfl
        · rfl

theorem udpSocketSendToEndpoint_cases (dest : Option UdpEndpoint) (data : Option Bytes) :
    (w.udpSocketSendToEndpoint dest data a).2 = w ∨
    ∃ dest' bytes, (dest'.address = everyone → w.socket.config.broadcast = true) ∧
      (w.udpSocketSendToEndpoint dest data a).2 = (w.sendDatagram dest' bytes a).2 := by
  unfold udpSocketSendToEndpoint
  split
  · rename_i dest' bytes
    split
    · exact .inl rfl
    split
    · exact .inl rfl
    split
    · exact .inl rfl
    · rename_i hallowed
      refine .inr ⟨dest', bytes, fun heveryone => ?_, rfl⟩
      simpa [(udpIpv4IsBroadcast_iff _).mpr heveryone] using hallowed
  · exact .inl rfl

theorem udpSocketBroadcast_cases (port : UInt16) (data : Option Bytes) :
    (w.udpSocketBroadcast port data a).2 = w ∨
    ∃ dest bytes, w.socket.config.broadcast = true ∧
      (w.udpSocketBroadcast port data a).2 = (w.sendDatagram dest bytes a).2 := by
  unfold udpSocketBroadcast
  split
  · exact .inl rfl
  split
  · exact .inl rfl
  split
  · exact .inl rfl
  split
  · exact .inl rfl
  · rename_i hallowed
    exact .inr ⟨_, _, by simpa using hallowed, rfl⟩

theorem udpSocketClose_handed : w.udpSocketClose.2.handed = w.handed := by
  unfold udpSocketClose
  split <;> rfl

theorem udpSocketOpen_handed (config : UdpSocketConfig) (newOk : Bool) (bind : LwipBindErr) :
    (w.udpSocketOpen config newOk bind).2.handed = w.handed := by
  unfold udpSocketOpen
  split
  · rfl
  dsimp only
  split
  · exact udpSocketClose_handed
  cases bind <;> exact udpSocketClose_handed

theorem udpSocketDeinit_handed : w.udpSocketDeinit.handed = w.handed := by
  unfold udpSocketDeinit
  split
  · rfl
  · exact udpSocketClose_handed

theorem onRecv_handed (p : Pbuf) (sender : UdpEndpoint) : (w.onRecv p sender).handed = w.handed := by
  unfold onRecv
  split
  · rfl
  dsimp only
  split <;> rfl

/-- The step is no call of `udp_socket_send_to` whose host stands for everyone, on a socket that
was opened without broadcast and that lwIP has a buffer for. -/
def Deliberate (w : UdpWorld) : UdpMove → Prop
  | .sendTo host port data a =>
      ∀ dest bytes, w.comesTo host port data a = some (dest, bytes) → dest.address = everyone →
        bytes.length ≤ UDP_MAX_PAYLOAD → a.allocOk = true → w.socket.config.broadcast = true
  | _ => True

/-- What a step hands to lwIP. -/
structure Hands (w : UdpWorld) (move : UdpMove) (new : List UdpHanded) : Prop where
  handed_eq : (w.step move).handed = w.handed ++ new
  addressed : ∀ d ∈ new, d.Addressed
  optedIn : (∀ d ∈ new, d.OptedIn) ↔ w.Deliberate move

theorem Hands.nothing {move : UdpMove} (hhanded : (w.step move).handed = w.handed)
    (hdeliberate : w.Deliberate move) : Hands w move [] where
  handed_eq := by rw [hhanded, List.append_nil]
  addressed := nofun
  optedIn := ⟨fun _ => hdeliberate, fun _ => nofun⟩

theorem Sends.addressed (h : Sends dest data a) (config : UdpSocketConfig) :
    UdpHanded.Addressed ⟨dest, data, config⟩ where
  host := by
    rw [← udpIpv4IsMulticast_iff, h.host]
    exact Bool.false_ne_true
  port := h.port
  payload := h.payload

/-- A step that does what `send_datagram` does. -/
theorem Hands.of_send {move : UdpMove} (hstep : w.step move = (w.sendDatagram dest data a).2)
    (hdeliberate : (Sends dest data a → dest.address = everyone →
      w.socket.config.broadcast = true) ↔ w.Deliberate move) : ∃ new, Hands w move new := by
  have hsent : (Sends dest data a ∧
      (w.sendDatagram dest data a).2.handed = w.handed ++ [⟨dest, data, w.socket.config⟩]) ∨
      (¬ Sends dest data a ∧ (w.sendDatagram dest data a).2.handed = w.handed) := sendDatagram_handed
  rcases hsent with ⟨hsends, hhanded⟩ | ⟨hnot, hhanded⟩
  · refine ⟨[⟨dest, data, w.socket.config⟩], by rw [hstep, hhanded], ?_, ?_⟩
    · intro d hd
      rw [List.mem_singleton.mp hd]
      exact hsends.addressed _
    · rw [← hdeliberate]
      constructor
      · intro hnew _
        exact hnew _ (List.mem_singleton_self _)
      · intro hopted d hd
        rw [List.mem_singleton.mp hd]
        exact hopted hsends
  · refine ⟨[], by rw [hstep, hhanded, List.append_nil], nofun, ?_⟩
    rw [← hdeliberate]
    exact ⟨fun _ hsends => absurd hsends hnot, fun _ => nofun⟩

theorem step_hands (w : UdpWorld) (move : UdpMove) : ∃ new, Hands w move new := by
  cases move with
  | openSocket config newOk bind => exact ⟨[], .nothing (udpSocketOpen_handed ..) trivial⟩
  | close => exact ⟨[], .nothing udpSocketClose_handed trivial⟩
  | deinit => exact ⟨[], .nothing udpSocketDeinit_handed trivial⟩
  | recv p sender =>
    refine ⟨[], .nothing ?_ trivial⟩
    change (if w.socket.pcb then w.onRecv p sender else w).handed = w.handed
    split
    · exact onRecv_handed ..
    · rfl
  | sendToEndpoint dest data a =>
    rcases udpSocketSendToEndpoint_cases (w := w) (a := a) dest data with
      hsame | ⟨dest', bytes, hallowed, hsend⟩
    · exact ⟨[], .nothing (congrArg UdpWorld.handed hsame) trivial⟩
    · exact Hands.of_send hsend ⟨fun _ => trivial, fun _ _ => hallowed⟩
  | broadcast port data a =>
    rcases udpSocketBroadcast_cases (w := w) (a := a) port data with
      hsame | ⟨dest, bytes, hallowed, hsend⟩
    · exact ⟨[], .nothing (congrArg UdpWorld.handed hsame) trivial⟩
    · exact Hands.of_send hsend ⟨fun _ => trivial, fun _ _ _ => hallowed⟩
  | sendTo host port data a =>
    have hstep := udpSocketSendTo_eq (w := w) (a := a) host port data
    cases hcomes : w.comesTo host port data a with
    | none =>
      rw [hcomes] at hstep
      refine ⟨[], .nothing (congrArg UdpWorld.handed hstep) ?_⟩
      intro dest bytes hcomes'
      rw [hcomes] at hcomes'
      cases hcomes'
    | some call =>
      obtain ⟨dest, bytes⟩ := call
      rw [hcomes] at hstep
      refine Hands.of_send hstep ?_
      constructor
      · intro hallowed dest' bytes' hcomes' heveryone hfits halloc
        rw [hcomes] at hcomes'
        cases hcomes'
        refine hallowed ⟨hfits, ?_, ?_, halloc⟩ heveryone
        · rw [heveryone]
          rfl
        · exact comesTo_port hcomes
      · intro hdeliberate hsends heveryone
        exact hdeliberate dest bytes hcomes heveryone hsends.payload hsends.alloc

end UdpWorld

/-- Every datagram that lwIP is handed has a destination and a payload that it may have, and the
runs without an unasked broadcast are those whose calls of `udp_socket_send_to` are deliberate. -/
theorem udp_broadcast_opt_in (moves : List UdpMove) :
    (∀ d ∈ (moves.foldl UdpWorld.step udpSocketInit).handed, d.Addressed) ∧
    ((∀ d ∈ (moves.foldl UdpWorld.step udpSocketInit).handed, d.OptedIn) ↔
      Meets UdpWorld.step Deliberate udpSocketInit moves) := by
  constructor
  · have hkeeps : ∀ (w : UdpWorld) (move : UdpMove), (∀ d ∈ w.handed, d.Addressed) →
        ∀ d ∈ (w.step move).handed, d.Addressed := by
      intro w move h d hd
      obtain ⟨new, hnew⟩ := step_hands w move
      rw [hnew.handed_eq] at hd
      rcases List.mem_append.mp hd with hold | hd
      · exact h d hold
      · exact hnew.addressed d hd
    exact foldl_invariant hkeeps moves nofun
  · have hgrows : ∀ (w : UdpWorld) (move : UdpMove), (∀ d ∈ (w.step move).handed, d.OptedIn) →
        ∀ d ∈ w.handed, d.OptedIn := by
      intro w move h d hd
      obtain ⟨new, hnew⟩ := step_hands w move
      exact h d (hnew.handed_eq ▸ List.mem_append_left new hd)
    have hstep : ∀ (w : UdpWorld) (move : UdpMove), (∀ d ∈ w.handed, d.OptedIn) →
        (Deliberate w move → ∀ d ∈ (w.step move).handed, d.OptedIn) ∧
        ((∀ d ∈ (w.step move).handed, d.OptedIn) → Deliberate w move) := by
      intro w move h
      obtain ⟨new, hnew⟩ := step_hands w move
      rw [hnew.handed_eq, ← hnew.optedIn]
      constructor
      · intro hopted d hd
        exact (List.mem_append.mp hd).elim (h d) (hopted d)
      · intro hopted d hd
        exact hopted d (List.mem_append_right _ hd)
    exact Meets.iff_shown_last hgrows (fun _ h => h) hstep nofun

/-- The text `255.255.255.255`, on a socket that was opened without broadcast. -/
theorem udp_broadcasts_unasked : ¬ ∀ moves : List UdpMove,
    ∀ d ∈ (moves.foldl UdpWorld.step udpSocketInit).handed,
      d.config.broadcast = false → d.dest.address ≠ everyone := by
  intro hclaim
  have hother := hclaim [.openSocket ⟨0, false, true⟩ true .ok,
    .sendTo (some ⟨[50, 53, 53, 46, 50, 53, 53, 46, 50, 53, 53, 46, 50, 53, 53], by decide⟩) 9
      (some [1]) ⟨.failed, true, .ok⟩]
    ⟨⟨everyone, 9⟩, [1], ⟨0, false, true⟩⟩ (by decide) rfl
  exact hother rfl

end Pico
