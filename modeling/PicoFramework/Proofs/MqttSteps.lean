import PicoFramework.Spec.Mqtt

/-! What each function of the MQTT client can do, said once. -/

namespace Pico

namespace MqttWorld

/-- The client is the same one, and no attempt was begun. -/
structure SameClient (w w' : MqttWorld) : Prop where
  initialised_eq : w'.mqtt.initialised = w.mqtt.initialised
  client_kept : w.mqtt.client = true → w'.mqtt.client = true
  attempts_eq : w'.attempts = w.attempts

theorem SameClient.refl (w : MqttWorld) : SameClient w w := ⟨rfl, id, rfl⟩

theorem SameClient.trans {w w' w'' : MqttWorld} (h : SameClient w w') (h' : SameClient w' w'') :
    SameClient w w'' where
  initialised_eq := h'.initialised_eq.trans h.initialised_eq
  client_kept := fun hclient => h'.client_kept (h.client_kept hclient)
  attempts_eq := h'.attempts_eq.trans h.attempts_eq

/-- An attempt has failed: the client waits for the next one, or gives up. -/
structure Fails (w w' : MqttWorld) : Prop where
  same : SameClient w w'
  link_eq : w'.link = w.link
  failures_eq : w'.failures = w.failures + 1
  outcome :
    (w.mqtt.retry.exhausted = true ∧ w'.mqtt.state = .gaveUp ∧ w'.mqtt.retry = w.mqtt.retry) ∨
    (w.mqtt.retry.exhausted = false ∧ w'.mqtt.state = .waiting ∧
      ∃ now, w'.mqtt.retry = w.mqtt.retry.fail now)

/-- lwIP is making a connection, which it was free to. -/
structure Dials (w w' : MqttWorld) : Prop where
  same : SameClient w w'
  free : w.link = .disconnected
  link_eq : w'.link = .connecting
  client_eq : w'.mqtt.client = true
  state_eq : w'.mqtt.state = .connecting
  retry_eq : w'.mqtt.retry = w.mqtt.retry
  failures_eq : w'.failures = w.failures

/-- lwIP is looking the host up. -/
structure Resolves (w w' : MqttWorld) : Prop where
  same : SameClient w w'
  link_eq : w'.link = w.link
  state_eq : w'.mqtt.state = .resolving
  retry_eq : w'.mqtt.retry = w.mqtt.retry
  failures_eq : w'.failures = w.failures

variable (w : MqttWorld) (a : MqttAnswers)

theorem handleFailure_fails (now : UInt32) : Fails w (w.handleFailure now) := by
  unfold handleFailure
  dsimp only
  split
  · rename_i hexhausted
    exact ⟨⟨rfl, id, rfl⟩, rfl, rfl, .inl ⟨hexhausted, rfl, rfl⟩⟩
  · rename_i hexhausted
    rw [Bool.not_eq_true] at hexhausted
    exact ⟨⟨rfl, id, rfl⟩, rfl, rfl, .inr ⟨hexhausted, rfl, now, rfl⟩⟩

theorem Fails.of_same {w w' w'' : MqttWorld} (h : Fails w' w'') (hsame : SameClient w w')
    (hlink : w'.link = w.link) (hretry : w'.mqtt.retry = w.mqtt.retry)
    (hfailures : w'.failures = w.failures) : Fails w w'' where
  same := hsame.trans h.same
  link_eq := h.link_eq.trans hlink
  failures_eq := by rw [h.failures_eq, hfailures]
  outcome := hretry ▸ h.outcome

/-- Neither the client nor its connection has changed. -/
structure Unmoved (w w' : MqttWorld) : Prop where
  same : SameClient w w'
  link_eq : w'.link = w.link
  retry_eq : w'.mqtt.retry = w.mqtt.retry
  failures_eq : w'.failures = w.failures

theorem Unmoved.then_failure {w w' : MqttWorld} (h : Unmoved w w') (now : UInt32) :
    Fails w (w'.handleFailure now) :=
  (handleFailure_fails w' now).of_same h.same h.link_eq h.retry_eq h.failures_eq

theorem startConnect_tries :
    ((w.startConnect a).1 = .ok ∧ Dials w (w.startConnect a).2) ∨
      ((w.startConnect a).1 ≠ .ok ∧ Unmoved w (w.startConnect a).2) := by
  unfold startConnect mqttClientConnect
  split
  · exact .inr ⟨nofun, ⟨SameClient.refl w, rfl, rfl, rfl⟩⟩
  dsimp only
  split
  · exact .inr ⟨nofun, ⟨⟨rfl, fun _ => rfl, rfl⟩, rfl, rfl, rfl⟩⟩
  rename_i hfree
  split
  · exact .inl ⟨rfl, ⟨⟨rfl, fun _ => rfl, rfl⟩, not_not.mp hfree, rfl, rfl, rfl, rfl, rfl⟩⟩
  · exact .inr ⟨nofun, ⟨⟨rfl, fun _ => rfl, rfl⟩, rfl, rfl, rfl⟩⟩

theorem onDns_tries (ip : Option UInt32) : Fails w (w.onDns ip a) ∨ Dials w (w.onDns ip a) := by
  cases ip with
  | none => exact .inl (handleFailure_fails w a.later)
  | some ip =>
    unfold onDns
    dsimp only
    rcases (w.setMqtt fun m => { m with brokerIpv4 := ip }).startConnect_tries a with
      ⟨hok, hdials⟩ | ⟨hfailed, hsame⟩
    · rw [if_neg (not_not.mpr hok)]
      obtain ⟨⟨hinit, hclient, hattempts⟩, hfree, hlink, hnow, hstate, hretry, hfailures⟩ := hdials
      exact .inr ⟨⟨hinit, hclient, hattempts⟩, hfree, hlink, hnow, hstate, hretry, hfailures⟩
    · rw [if_pos hfailed]
      obtain ⟨⟨hinit, hclient, hattempts⟩, hlink, hretry, hfailures⟩ := hsame
      have hunmoved : Unmoved w _ := ⟨⟨hinit, hclient, hattempts⟩, hlink, hretry, hfailures⟩
      exact .inl (hunmoved.then_failure a.later)

/-- The world in which one more attempt is begun. -/
def attempting (w : MqttWorld) : MqttWorld := { w with attempts := w.attempts + 1 }

theorem beginAttempt_tries : Fails w.attempting (w.beginAttempt a) ∨
    Dials w.attempting (w.beginAttempt a) ∨ Resolves w.attempting (w.beginAttempt a) := by
  unfold beginAttempt
  cases a.dns with
  | found ip =>
    rcases w.attempting.onDns_tries a (some ip) with hfails | hdials
    · exact .inl hfails
    · exact .inr (.inl hdials)
  | inProgress => exact .inr (.inr ⟨⟨rfl, id, rfl⟩, rfl, rfl, rfl, rfl⟩)
  | failed => exact .inl (handleFailure_fails _ a.later)

theorem onIncomingData_unmoved (data : Bytes) (last : Bool) :
    Unmoved w (w.onIncomingData data last) ∧
    (w.onIncomingData data last).mqtt.state = w.mqtt.state := by
  unfold onIncomingData
  dsimp only
  split
  · exact ⟨⟨⟨rfl, id, rfl⟩, rfl, rfl, rfl⟩, rfl⟩
  split
  · exact ⟨⟨⟨rfl, id, rfl⟩, rfl, rfl, rfl⟩, rfl⟩
  split
  · exact ⟨⟨⟨rfl, id, rfl⟩, rfl, rfl, rfl⟩, rfl⟩
  · exact ⟨⟨⟨rfl, id, rfl⟩, rfl, rfl, rfl⟩, rfl⟩

/-- What the configuration of a connect is kept as. -/
def kept (config : MqttConfig) : MqttConfig :=
  { config with
    brokerPort := if config.brokerPort = 0 then MQTT_DEFAULT_PORT else config.brokerPort
    keepAliveS := if config.keepAliveS = 0 then MQTT_DEFAULT_KEEP_ALIVE_S else config.keepAliveS }

/-- The world in which a connect begins its first attempt. -/
def configured (w : MqttWorld) (config : MqttConfig) : MqttWorld :=
  { w with attempts := 0, failures := 0 }.setMqtt fun m =>
    { m with
      config := kept config
      retry := wifiRetryInit config.retry
      messageBuffer := []
      messageOverflowed := false }

theorem mqttConnect_eq (config : MqttConfig) (hinit : w.mqtt.initialised = true)
    (hconfig : configIsUsable config = true) :
    w.mqttConnect config a = (.ok, (w.configured config).beginAttempt a) := by
  unfold mqttConnect
  rw [hinit, hconfig]
  rfl

end MqttWorld

end Pico
