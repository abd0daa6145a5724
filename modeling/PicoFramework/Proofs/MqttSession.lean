import PicoFramework.Lib.Run
import PicoFramework.Proofs.MqttSteps

/-! The client beside the session that lwIP has: what the client is worth while there is a session,
and what a close is worth. Both come down to which answers and calls the client takes at face
value, whatever it is doing when they arrive. -/

namespace Pico

open Lib.Run

namespace MqttWorld

/-- While there is a session the client is connected. -/
def Agrees (w : MqttWorld) : Prop := w.link = .session → w.mqtt.state = .connected

/-- The client's own state, and that lwIP has no connection of a client that was never made. -/
structure Sound (w : MqttWorld) : Prop where
  initialised : w.mqtt.initialised = true
  unmade : w.mqtt.client = false → w.link = .disconnected

structure Live (w : MqttWorld) : Prop where
  sound : Sound w
  agrees : Agrees w

end MqttWorld

open MqttWorld

/-- The step leaves a session alone: it is no connect, and no answer to a lookup. -/
def SparesSession (w : MqttWorld) (move : MqttMove) : Prop :=
  move.enabled w = true → w.link = .session →
    match move with
    | .connect config _ => configIsUsable config = false
    | .dns _ _ => False
    | _ => True

instance (w : MqttWorld) : (move : MqttMove) → Decidable (SparesSession w move)
  | .connect .. | .close | .poll .. | .dns .. | .status .. | .incomingPublish ..
  | .incomingData .. => by
      unfold SparesSession
      infer_instance

section steps

variable {w w' : MqttWorld}

theorem MqttWorld.Sound.of_same (h : MqttWorld.Sound w) (hsame : SameClient w w') (hlink : w'.link = w.link) :
    MqttWorld.Sound w' where
  initialised := hsame.initialised_eq.trans h.initialised
  unmade := by
    intro hclient
    cases hbefore : w.mqtt.client with
    | false => exact hlink.trans (h.unmade hbefore)
    | true => exact absurd ((hsame.client_kept hbefore).symm.trans hclient) nofun

theorem MqttWorld.Sound.of_dials (h : MqttWorld.Sound w) (hdials : Dials w w') : MqttWorld.Sound w' where
  initialised := hdials.same.initialised_eq.trans h.initialised
  unmade := fun hclient => absurd (hdials.client_eq.symm.trans hclient) nofun

theorem MqttWorld.Fails.not_connected (h : Fails w w') :
    w'.mqtt.state ≠ .connected ∧ w'.mqtt.state ≠ .idle := by
  rcases h.outcome with ⟨-, hstate, -⟩ | ⟨-, hstate, -⟩
  · rw [hstate]
    exact ⟨nofun, nofun⟩
  · rw [hstate]
    exact ⟨nofun, nofun⟩

theorem onDns_leaves (h : MqttWorld.Sound w) (ip : Option UInt32) (a : MqttAnswers) :
    MqttWorld.Sound (w.onDns ip a) ∧
    (w.link ≠ .session → (w.onDns ip a).link ≠ .session) ∧
    (w.link = .session → (w.onDns ip a).link = .session) ∧
    (w.onDns ip a).mqtt.state ≠ .connected ∧ (w.onDns ip a).mqtt.state ≠ .idle := by
  rcases w.onDns_tries a ip with hfails | hdials
  · refine ⟨h.of_same hfails.same hfails.link_eq, ?_, ?_, hfails.not_connected⟩
    · rw [hfails.link_eq]
      exact id
    · rw [hfails.link_eq]
      exact id
  · refine ⟨h.of_dials hdials, fun _ => ?_, fun hsession => ?_, ?_, ?_⟩
    · rw [hdials.link_eq]
      exact nofun
    · exact absurd (hdials.free.symm.trans hsession) nofun
    · rw [hdials.state_eq]
      exact nofun
    · rw [hdials.state_eq]
      exact nofun

theorem beginAttempt_leaves (h : MqttWorld.Sound w) (a : MqttAnswers) :
    MqttWorld.Sound (w.beginAttempt a) ∧
    (w.link ≠ .session → (w.beginAttempt a).link ≠ .session) ∧
    (w.link = .session → (w.beginAttempt a).link = .session) ∧
    (w.beginAttempt a).mqtt.state ≠ .connected := by
  have hbegun : MqttWorld.Sound w.attempting := ⟨h.initialised, h.unmade⟩
  rcases w.beginAttempt_tries a with hfails | hdials | hresolves
  · refine ⟨hbegun.of_same hfails.same hfails.link_eq, ?_, ?_, hfails.not_connected.1⟩
    · rw [hfails.link_eq]
      exact id
    · rw [hfails.link_eq]
      exact id
  · refine ⟨hbegun.of_dials hdials, fun _ => ?_, fun hsession => ?_, ?_⟩
    · rw [hdials.link_eq]
      exact nofun
    · exact absurd (hdials.free.symm.trans hsession) nofun
    · rw [hdials.state_eq]
      exact nofun
  · refine ⟨hbegun.of_same hresolves.same hresolves.link_eq, ?_, ?_, ?_⟩
    · rw [hresolves.link_eq]
      exact id
    · rw [hresolves.link_eq]
      exact id
    · rw [hresolves.state_eq]
      exact nofun

theorem mqttConnect_leaves (h : MqttWorld.Sound w) (config : MqttConfig) (a : MqttAnswers)
    (hconfig : configIsUsable config = true) :
    MqttWorld.Sound (w.mqttConnect config a).2 ∧
    (w.link ≠ .session → (w.mqttConnect config a).2.link ≠ .session) ∧
    (w.link = .session → (w.mqttConnect config a).2.link = .session) ∧
    (w.mqttConnect config a).2.mqtt.state ≠ .connected := by
  have hconfigured : MqttWorld.Sound (w.configured config) := ⟨h.initialised, h.unmade⟩
  rw [w.mqttConnect_eq a config h.initialised hconfig]
  exact beginAttempt_leaves hconfigured a

theorem mqttConnect_refused (config : MqttConfig) (a : MqttAnswers)
    (hconfig : configIsUsable config = false) : (w.mqttConnect config a).2 = w := by
  unfold mqttConnect
  rw [hconfig]
  split
  · rfl
  · rfl

theorem mqttPoll_cases (h : MqttWorld.Sound w) (a : MqttAnswers) :
    w.mqttPoll a = w ∨ (w.mqtt.state = .waiting ∧ w.mqttPoll a = w.beginAttempt a) := by
  unfold mqttPoll
  rw [h.initialised, if_neg nofun]
  split
  · rename_i hdue
    exact .inr ⟨hdue.1, rfl⟩
  · exact .inl rfl

/-- A close leaves lwIP without a connection, and the client idle. -/
theorem mqttClose_leaves (h : MqttWorld.Sound w) :
    MqttWorld.Sound w.mqttClose.2 ∧ w.mqttClose.2.link = .disconnected ∧ w.mqttClose.2.mqtt.state = .idle := by
  unfold mqttClose
  rw [h.initialised, if_neg nofun]
  dsimp only
  cases hclient : w.mqtt.client with
  | false =>
    refine ⟨⟨h.initialised, h.unmade⟩, ?_, rfl⟩
    exact h.unmade hclient
  | true => exact ⟨⟨h.initialised, fun _ => rfl⟩, rfl, rfl⟩

theorem MqttWorld.Sound.step (h : MqttWorld.Sound w) (move : MqttMove) : MqttWorld.Sound (w.step move) := by
  unfold MqttWorld.step
  split
  swap
  · exact h
  rename_i henabled
  cases move with
  | connect config a =>
    change MqttWorld.Sound (w.mqttConnect config a).2
    cases hconfig : configIsUsable config with
    | false =>
      rw [mqttConnect_refused config a hconfig]
      exact h
    | true => exact (mqttConnect_leaves h config a hconfig).1
  | close => exact (mqttClose_leaves h).1
  | poll a =>
    change MqttWorld.Sound (w.mqttPoll a)
    rcases mqttPoll_cases h a with heq | ⟨-, heq⟩
    · rw [heq]
      exact h
    · rw [heq]
      exact (beginAttempt_leaves h a).1
  | dns ip a =>
    have hanswered : MqttWorld.Sound { w with lookups := w.lookups - 1 } := ⟨h.initialised, h.unmade⟩
    exact (onDns_leaves hanswered ip a).1
  | status accepted a =>
    cases accepted with
    | true =>
      have hlink : w.link = .connecting := of_decide_eq_true henabled
      refine ⟨h.initialised, fun hclient => ?_⟩
      exact absurd (hlink.symm.trans (h.unmade hclient)) nofun
    | false =>
      have hlost : MqttWorld.Sound { w with link := .disconnected } := ⟨h.initialised, fun _ => rfl⟩
      have hfails := handleFailure_fails { w with link := .disconnected } a.later
      exact hlost.of_same hfails.same hfails.link_eq
  | incomingPublish topic => exact ⟨h.initialised, h.unmade⟩
  | incomingData data last =>
    obtain ⟨hsame, -⟩ := w.onIncomingData_unmoved data last
    exact h.of_same hsame.same hsame.link_eq

theorem MqttWorld.Live.step (h : Live w) (move : MqttMove) (hmove : SparesSession w move) :
    Live (w.step move) := by
  refine ⟨h.sound.step move, ?_⟩
  obtain ⟨hsound, hagrees⟩ := h
  unfold MqttWorld.step
  split
  swap
  · exact hagrees
  rename_i henabled
  have hspares := hmove henabled
  cases move with
  | connect config a =>
    change Agrees (w.mqttConnect config a).2
    cases hconfig : configIsUsable config with
    | false =>
      rw [mqttConnect_refused config a hconfig]
      exact hagrees
    | true =>
      obtain ⟨-, hlink, -⟩ := mqttConnect_leaves hsound config a hconfig
      refine fun hsession => absurd hsession (hlink fun hnow => ?_)
      exact absurd (hconfig.symm.trans (hspares hnow)) nofun
  | close =>
    obtain ⟨-, hlink, -⟩ := mqttClose_leaves hsound
    exact fun hsession => absurd (hlink.symm.trans hsession) nofun
  | poll a =>
    change Agrees (w.mqttPoll a)
    rcases mqttPoll_cases hsound a with heq | ⟨hwaiting, heq⟩
    · rw [heq]
      exact hagrees
    · rw [heq]
      obtain ⟨-, hlink, -⟩ := beginAttempt_leaves hsound a
      refine fun hsession => absurd hsession (hlink fun hnow => ?_)
      exact absurd (hwaiting.symm.trans (hagrees hnow)) nofun
  | dns ip a =>
    have hanswered : MqttWorld.Sound { w with lookups := w.lookups - 1 } := ⟨hsound.initialised, hsound.unmade⟩
    obtain ⟨-, hlink, -⟩ := onDns_leaves hanswered ip a
    exact fun hsession => absurd hsession (hlink hspares)
  | status accepted a =>
    cases accepted with
    | true => exact fun _ => rfl
    | false =>
      have hfails := handleFailure_fails { w with link := .disconnected } a.later
      exact fun hsession => absurd (hfails.link_eq.symm.trans hsession) nofun
  | incomingPublish topic => exact hagrees
  | incomingData data last =>
    obtain ⟨hsame, hstate⟩ := w.onIncomingData_unmoved data last
    change Agrees (w.onIncomingData data last)
    rw [MqttWorld.Agrees, hsame.link_eq, hstate]
    exact hagrees

theorem spares_of_agrees (h : Live w) (move : MqttMove) (hafter : Agrees (w.step move)) :
    SparesSession w move := by
  intro henabled hsession
  have hstep : w.step move = w.perform move := if_pos henabled
  rw [hstep] at hafter
  cases move with
  | connect config a =>
    change configIsUsable config = false
    rw [← Bool.not_eq_true]
    intro hconfig
    obtain ⟨-, -, hlink, hstate⟩ := mqttConnect_leaves h.sound config a hconfig
    exact hstate (hafter (hlink hsession))
  | dns ip a =>
    have hanswered : MqttWorld.Sound { w with lookups := w.lookups - 1 } :=
      ⟨h.sound.initialised, h.sound.unmade⟩
    obtain ⟨-, -, hlink, hstate, -⟩ := onDns_leaves hanswered ip a
    exact hstate (hafter (hlink hsession))
  | close => trivial
  | poll a => trivial
  | status accepted a => trivial
  | incomingPublish topic => trivial
  | incomingData data last => trivial

end steps

theorem live_mqttInit : Live mqttInit := ⟨⟨rfl, fun _ => rfl⟩, nofun⟩

/-- The client is connected from the moment a session is accepted until it is closed or lost, in
the runs in which no connect is called and no lookup answered while there is a session, and in
no others. -/
theorem mqtt_agrees_with_session (moves : List MqttMove) :
    (∀ pre, pre <+: moves → (pre.foldl MqttWorld.step mqttInit).Agrees) ↔
      Meets MqttWorld.step SparesSession mqttInit moves := by
  refine Meets.iff_shown (fun w (h : Live w) => h.agrees) ?_ live_mqttInit
  intro move _ w h
  exact ⟨h.step move, spares_of_agrees h move⟩

/-- A broker's address, and what the application asks for. -/
def brokerConfig : MqttConfig :=
  ⟨some (cstr "b"), 0, some (cstr "p"), none, none, 0, none, none, 0, false, true,
    true, ⟨0, 0, 0⟩⟩

def goodMqttAnswers : MqttAnswers := ⟨0, 0, .found 1, true, true⟩

/-- A second connect, while there is a session. -/
theorem mqtt_disagrees_with_session : ¬ ∀ moves : List MqttMove,
    (moves.foldl MqttWorld.step mqttInit).link = .session →
      (moves.foldl MqttWorld.step mqttInit).mqtt.state = .connected := by
  intro hclaim
  have hconnected := hclaim [.connect brokerConfig goodMqttAnswers, .status true goodMqttAnswers,
    .connect brokerConfig goodMqttAnswers] (by decide)
  exact absurd hconnected (by decide)

section closing

/-- Since it was closed, the client has stayed idle and begun nothing. -/
def MqttWorld.StaysClosed (closed w : MqttWorld) : Prop :=
  w.mqtt.state = .idle ∧ w.dialed = closed.dialed ∧ w.attempts = closed.attempts

/-- The step is no answer to a lookup. -/
def Unanswered (w : MqttWorld) (move : MqttMove) : Prop :=
  move.enabled w = true →
    match move with
    | .dns _ _ => False
    | _ => True

instance (w : MqttWorld) (move : MqttMove) : Decidable (Unanswered w move) := by
  unfold Unanswered
  cases move <;> infer_instance

def MqttMove.isConnect : MqttMove → Bool
  | .connect _ _ => true
  | _ => false

structure MqttWorld.Closed (closed w : MqttWorld) : Prop where
  sound : MqttWorld.Sound w
  link_eq : w.link = .disconnected
  stays : StaysClosed closed w

variable {closed w : MqttWorld}

theorem mqttClose_stays (h : MqttWorld.Sound w) (hstays : StaysClosed closed w) :
    StaysClosed closed w.mqttClose.2 := by
  obtain ⟨-, -, hidle⟩ := mqttClose_leaves h
  obtain ⟨-, hdialed, hattempts⟩ := hstays
  refine ⟨hidle, ?_⟩
  unfold mqttClose
  rw [h.initialised, if_neg nofun]
  dsimp only
  split
  · exact ⟨hdialed, hattempts⟩
  · exact ⟨hdialed, hattempts⟩

theorem MqttWorld.Closed.step (h : Closed closed w) (move : MqttMove)
    (hconnect : move.isConnect = false) (hmove : Unanswered w move) :
    Closed closed (w.step move) := by
  cases henabled : move.enabled w with
  | false =>
    have hstep : w.step move = w := if_neg (by rw [henabled]; exact nofun)
    rw [hstep]
    exact h
  | true =>
    have hstep : w.step move = w.perform move := if_pos henabled
    rw [hstep]
    cases move with
    | connect config a => exact absurd hconnect nofun
    | close =>
      obtain ⟨hsound, hlink, -⟩ := mqttClose_leaves h.sound
      exact ⟨hsound, hlink, mqttClose_stays h.sound h.stays⟩
    | poll a =>
      rcases mqttPoll_cases h.sound a with heq | ⟨hwaiting, -⟩
      · change Closed closed (w.mqttPoll a)
        rw [heq]
        exact h
      · exact absurd (hwaiting.symm.trans h.stays.1) nofun
    | dns ip a => exact absurd (hmove henabled) id
    | status accepted a =>
      cases accepted with
      | true =>
        have hlink : w.link = .connecting := of_decide_eq_true henabled
        exact absurd (hlink.symm.trans h.link_eq) nofun
      | false =>
        have hlink : w.link ≠ .disconnected := of_decide_eq_true henabled
        exact absurd h.link_eq hlink
    | incomingPublish topic =>
      have hlink : w.link = .session := of_decide_eq_true henabled
      exact absurd (hlink.symm.trans h.link_eq) nofun
    | incomingData data last =>
      have hlink : w.link = .session := of_decide_eq_true henabled
      exact absurd (hlink.symm.trans h.link_eq) nofun

theorem unanswered_of_stays (h : Closed closed w) (move : MqttMove)
    (hafter : StaysClosed closed (w.step move)) : Unanswered w move := by
  intro henabled
  have hstep : w.step move = w.perform move := if_pos henabled
  rw [hstep] at hafter
  cases move with
  | dns ip a =>
    have hanswered : MqttWorld.Sound { w with lookups := w.lookups - 1 } :=
      ⟨h.sound.initialised, h.sound.unmade⟩
    obtain ⟨-, -, -, -, hidle⟩ := onDns_leaves hanswered ip a
    exact hidle hafter.1
  | connect config a => trivial
  | close => trivial
  | poll a => trivial
  | status accepted a => trivial
  | incomingPublish topic => trivial
  | incomingData data last => trivial

end closing

/-- A closed client stays idle and begins nothing until the next connect, in the runs in which no
lookup is answered meanwhile, and in no others. -/
theorem mqtt_stays_closed (before after : List MqttMove)
    (hafter : ∀ move ∈ after, move.isConnect = false) :
    let closed := (before ++ [MqttMove.close]).foldl MqttWorld.step mqttInit
    (∀ pre, pre <+: after → StaysClosed closed (pre.foldl MqttWorld.step closed)) ↔
      Meets MqttWorld.step Unanswered closed after := by
  intro closed
  have hsound : MqttWorld.Sound (before.foldl MqttWorld.step mqttInit) :=
    foldl_invariant (fun w move (h : MqttWorld.Sound w) => h.step move) before live_mqttInit.sound
  have hclosed : Closed closed closed := by
    have hclose : closed = (before.foldl MqttWorld.step mqttInit).mqttClose.2 := by
      change (before ++ [MqttMove.close]).foldl MqttWorld.step mqttInit = _
      rw [List.foldl_append]
      rfl
    obtain ⟨hsound', hlink, hidle⟩ := mqttClose_leaves hsound
    rw [← hclose] at hsound' hlink hidle
    exact ⟨hsound', hlink, hidle, rfl, rfl⟩
  refine Meets.iff_shown (fun w (h : Closed closed w) => h.stays) ?_ hclosed
  intro move hmem w h
  exact ⟨h.step move (hafter move hmem), unanswered_of_stays h move⟩

/-- A session closed, and the client polled. -/
theorem mqtt_stays_closed_polled :
    let closed := [.connect brokerConfig goodMqttAnswers, .status true goodMqttAnswers,
      MqttMove.close].foldl MqttWorld.step mqttInit
    ∀ pre, pre <+: [.poll goodMqttAnswers] →
      StaysClosed closed (pre.foldl MqttWorld.step closed) :=
  (mqtt_stays_closed [.connect brokerConfig goodMqttAnswers, .status true goodMqttAnswers]
    [.poll goodMqttAnswers] (by decide)).mpr ⟨by decide, trivial⟩

/-- The broker is being looked up when the client is closed, and the answer is dialed. -/
theorem mqtt_reopens : ¬ ∀ before after : List MqttMove,
    (∀ move ∈ after, move.isConnect = false) →
    StaysClosed ((before ++ [MqttMove.close]).foldl MqttWorld.step mqttInit)
      ((before ++ [MqttMove.close] ++ after).foldl MqttWorld.step mqttInit) := by
  intro hclaim
  have hstays := hclaim [.connect brokerConfig ⟨0, 0, .inProgress, true, true⟩]
    [.dns (some 1) goodMqttAnswers] (by decide)
  exact absurd hstays.1 (by decide)

end Pico
