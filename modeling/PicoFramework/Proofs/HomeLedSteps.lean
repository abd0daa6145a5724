import PicoFramework.Proofs.LightReport
import PicoFramework.Spec.HomeLed

/-! What the parts of the `home_led` application can do to each other: the light and the range are
counted as they change, MQTT comes to a session only as it reports one, and the rest is quiet. -/

namespace Pico

section models

theorem haApplyCommand_counts (command : HaCommand) (light : Light) (nowMs : UInt32) :
    ∃ n ≤ 5, Light.Counts light (haApplyCommand command light nowMs) n := by
  have hoptional : ∀ {α : Type} (value : Option α) (call : α → Light → Light),
      (∀ value light, ∃ n ≤ 1, Light.Counts light (call value light) n) → ∀ light,
      ∃ n ≤ 1, Light.Counts light (value.elim light (call · light)) n := by
    intro α value call hcall light
    cases value with
    | none => exact ⟨0, by omega, .refl light⟩
    | some value => exact hcall value light
  unfold haApplyCommand
  obtain ⟨n, hn, h⟩ := hoptional command.brightness (fun value light => light.setBrightness value nowMs)
    (fun value light => light.setBrightness_counts value nowMs) light
  obtain ⟨m, hm, h'⟩ := hoptional command.color (fun value light => light.setColor value)
    (fun value light => light.setColor_counts value) _
  obtain ⟨k, hk, h''⟩ := hoptional command.mireds (fun value light => light.setMireds value nowMs)
    (fun value light => light.setMireds_counts value nowMs) _
  obtain ⟨i, hi, h3⟩ := hoptional command.effect (fun value light => (light.setEffect value).2)
    (fun value light => light.setEffect_counts value) _
  obtain ⟨j, hj, h4⟩ := hoptional command.power (fun value light => light.setPower value nowMs)
    (fun value light => light.setPower_counts value nowMs) _
  exact ⟨n + m + k + i + j, by omega, (((h.trans h').trans h'').trans h3).trans h4⟩

/-- The generation has counted `changes` changes, and without one the range is the same. -/
structure LedRange.Counts (range range' : LedRange) (changes : ℕ) : Prop where
  generation_eq : range'.generation = range.generation + UInt32.ofNat changes
  still : changes = 0 → range' = range

theorem LedRange.moved_counts (range : LedRange) (first last : UInt16) :
    ∃ n ≤ 1, Counts range (range.moved first last) n := by
  unfold LedRange.moved
  split
  · exact ⟨1, le_rfl, rfl, nofun⟩
  · exact ⟨0, by omega, by simp, fun _ => rfl⟩

theorem LedRange.Counts.refl (range : LedRange) : Counts range range 0 := ⟨by simp, fun _ => rfl⟩

theorem LedRange.set_counts (range : LedRange) (first last : UInt16) :
    ∃ n ≤ 1, Counts range (range.set first last).2 n := by
  unfold LedRange.set
  split
  · exact ⟨0, by omega, .refl range⟩
  · exact range.moved_counts _ _

theorem LedRange.setFirst_counts (range : LedRange) (first : UInt32) :
    ∃ n ≤ 1, Counts range (range.setFirst first) n := by
  unfold LedRange.setFirst
  split
  · exact ⟨0, by omega, .refl range⟩
  · exact range.moved_counts _ _

theorem LedRange.setLast_counts (range : LedRange) (last : UInt32) :
    ∃ n ≤ 1, Counts range (range.setLast last) n := by
  unfold LedRange.setLast
  split
  · exact ⟨0, by omega, .refl range⟩
  · exact range.moved_counts _ _

theorem LedRange.step_counts (range : LedRange) (move : RangeMove) :
    ∃ n ≤ 1, Counts range (range.step move) n := by
  cases move with
  | set first last => exact range.set_counts first last
  | setFirst first => exact range.setFirst_counts first
  | setLast last => exact range.setLast_counts last

theorem ledRangeRestore_generation (limit first last : UInt16) :
    (ledRangeRestore limit first last).generation = 1 := by
  unfold ledRangeRestore
  dsimp only
  split
  · rfl
  split <;> rfl

end models

namespace MqttWorld

/-- The application's callbacks are the same ones, and no session has been reported. -/
structure Settles (w w' : MqttWorld) : Prop where
  onConnect_eq : w'.mqtt.config.onConnect = w.mqtt.config.onConnect
  connected : w'.mqtt.isConnected = true → w.mqtt.isConnected = true

variable {w w' w'' : MqttWorld}

theorem Settles.refl (w : MqttWorld) : Settles w w := ⟨rfl, id⟩

theorem Settles.trans (h : Settles w w') (h' : Settles w' w'') : Settles w w'' :=
  ⟨h'.onConnect_eq.trans h.onConnect_eq, fun hconnected => h.connected (h'.connected hconnected)⟩

theorem Settles.after (h : Settles w' w'') (hconfig : w'.mqtt.config = w.mqtt.config)
    (hstate : w'.mqtt.state = w.mqtt.state) : Settles w w'' where
  onConnect_eq := h.onConnect_eq.trans (congrArg MqttConfig.onConnect hconfig)
  connected := fun hconnected => by
    have hbefore := h.connected hconnected
    unfold Mqtt.isConnected at hbefore ⊢
    rwa [hstate] at hbefore

theorem handleFailure_settles (now : UInt32) (w : MqttWorld) : Settles w (w.handleFailure now) := by
  unfold handleFailure
  dsimp only
  split
  · exact ⟨rfl, nofun⟩
  · exact ⟨rfl, nofun⟩

theorem startConnect_settles (a : MqttAnswers) (w : MqttWorld) : Settles w (w.startConnect a).2 := by
  unfold startConnect mqttClientConnect
  split
  · exact .refl w
  dsimp only
  split
  · exact ⟨rfl, id⟩
  split
  · exact ⟨rfl, nofun⟩
  · exact ⟨rfl, id⟩

/-- The address is known: the end of `begin_attempt` and of `on_dns`. -/
theorem dial_settles (ip : UInt32) (a : MqttAnswers) (w : MqttWorld) :
    let w' := w.setMqtt fun m => { m with brokerIpv4 := ip }
    Settles w (if (w'.startConnect a).1 ≠ .ok then (w'.startConnect a).2.handleFailure a.later
      else (w'.startConnect a).2) := by
  intro w'
  have hstart : Settles w (w'.startConnect a).2 := (startConnect_settles a w').after rfl rfl
  split
  · exact hstart.trans (handleFailure_settles _ _)
  · exact hstart

theorem beginAttempt_settles (a : MqttAnswers) (w : MqttWorld) : Settles w (w.beginAttempt a) := by
  unfold beginAttempt
  dsimp only
  cases a.dns with
  | found ip => exact (dial_settles ip a { w with attempts := w.attempts + 1 }).after rfl rfl
  | inProgress => exact ⟨rfl, nofun⟩
  | failed => exact (handleFailure_settles a.later { w with attempts := w.attempts + 1 }).after rfl rfl

theorem onDns_settles (ip : Option UInt32) (a : MqttAnswers) (w : MqttWorld) :
    Settles w (w.onDns ip a) := by
  cases ip with
  | none => exact handleFailure_settles _ _
  | some ip => exact dial_settles ip a w

theorem mqttPoll_settles (a : MqttAnswers) (w : MqttWorld) : Settles w (w.mqttPoll a) := by
  unfold mqttPoll
  split
  · exact .refl w
  split
  · exact beginAttempt_settles a w
  · exact .refl w

theorem mqttClose_settles (w : MqttWorld) : Settles w w.mqttClose.2 := by
  unfold mqttClose
  split
  · exact .refl w
  · dsimp only
    split <;> exact ⟨rfl, nofun⟩

theorem onIncoming_settles (w : MqttWorld) (topic : CString) (data : Bytes) (last : Bool) :
    Settles w (w.onIncomingPublish topic) ∧ Settles w (w.onIncomingData data last) := by
  refine ⟨⟨rfl, id⟩, ?_⟩
  unfold onIncomingData
  dsimp only
  split
  · exact ⟨rfl, id⟩
  split
  · exact ⟨rfl, id⟩
  split <;> exact ⟨rfl, id⟩

theorem mqttConnect_settles (config : MqttConfig) (a : MqttAnswers) (w : MqttWorld)
    (hconnect : config.onConnect = true) :
    ((w.mqttConnect config a).2.mqtt.config.onConnect = true ∨ (w.mqttConnect config a).2 = w) ∧
      ((w.mqttConnect config a).2.mqtt.isConnected = true → w.mqtt.isConnected = true) := by
  unfold mqttConnect
  split
  · exact ⟨.inr rfl, id⟩
  split
  · exact ⟨.inr rfl, id⟩
  · refine ⟨.inl ?_, fun hconnected => ?_⟩
    · exact (beginAttempt_settles a _).onConnect_eq.trans hconnect
    · dsimp only at hconnected
      have hbefore := (beginAttempt_settles a _).connected hconnected
      exact hbefore

/-- Before the first connect nothing has begun, and afterwards there is the callback. -/
def Called (w : MqttWorld) : Prop :=
  w.mqtt.config.onConnect = true ∨ w.link = .disconnected ∧ w.lookups = 0 ∧ w.mqtt.state = .idle

theorem Called.connect (h : Called w) (config : MqttConfig) (a : MqttAnswers)
    (hconnect : config.onConnect = true) : Called (w.mqttConnect config a).2 := by
  rcases (mqttConnect_settles config a w hconnect).1 with hcalled | hsame
  · exact .inl hcalled
  · rw [hsame]
    exact h

theorem Called.poll (h : Called w) (a : MqttAnswers) : Called (w.mqttPoll a) := by
  rcases h with hcalled | ⟨hlink, hlookups, hidle⟩
  · exact .inl ((mqttPoll_settles a w).onConnect_eq.trans hcalled)
  · have hsame : w.mqttPoll a = w := by
      unfold mqttPoll
      rw [hidle]
      split <;> rfl
    rw [hsame]
    exact .inr ⟨hlink, hlookups, hidle⟩

theorem Called.close (h : Called w) : Called w.mqttClose.2 := by
  rcases h with hcalled | ⟨hlink, hlookups, hidle⟩
  · exact .inl ((mqttClose_settles w).onConnect_eq.trans hcalled)
  · right
    unfold mqttClose
    split
    · exact ⟨hlink, hlookups, hidle⟩
    · dsimp only
      split
      · exact ⟨rfl, hlookups, rfl⟩
      · exact ⟨hlink, hlookups, rfl⟩

theorem step_settles (w : MqttWorld) {move : MqttMove}
    (hmove : match move with
      | .dns _ _ | .status false _ | .incomingPublish _ | .incomingData _ _ => True
      | _ => False) : Settles w (w.step move) := by
  unfold step
  split
  · cases move with
    | dns ip a => exact (onDns_settles ip a { w with lookups := w.lookups - 1 }).after rfl rfl
    | status accepted a =>
      cases accepted with
      | true => exact hmove.elim
      | false =>
        exact (handleFailure_settles a.later { w with link := .disconnected }).after rfl rfl
    | incomingPublish topic => exact (onIncoming_settles w topic [] false).1
    | incomingData data last => exact (onIncoming_settles w ⟨[], by simp⟩ data last).2
    | connect | close | poll => exact hmove.elim
  · exact .refl w

theorem Called.callback (h : Called w) {move : MqttMove}
    (hmove : match move with
      | .dns _ _ | .status _ _ | .incomingPublish _ | .incomingData _ _ => True
      | _ => False) : Called (w.step move) := by
  rcases h with hcalled | ⟨hlink, hlookups, hidle⟩
  · left
    rw [← hcalled]
    cases move with
    | status accepted a =>
      cases accepted with
      | true =>
        unfold step
        split <;> rfl
      | false => exact (step_settles w trivial).onConnect_eq
    | dns ip a => exact (step_settles w trivial).onConnect_eq
    | incomingPublish topic => exact (step_settles w trivial).onConnect_eq
    | incomingData data last => exact (step_settles w trivial).onConnect_eq
    | connect | close | poll => exact hmove.elim
  · have hdisabled : move.enabled w = false := by
      cases move with
      | status accepted a => cases accepted <;> simp [MqttMove.enabled, hlink]
      | dns ip a => simp [MqttMove.enabled, hlookups]
      | incomingPublish topic => simp [MqttMove.enabled, hlink]
      | incomingData data last => simp [MqttMove.enabled, hlink]
      | connect | close | poll => exact hmove.elim
    have hsame : w.step move = w := by
      unfold step
      rw [hdisabled]
      rfl
    rw [hsame]
    exact .inr ⟨hlink, hlookups, hidle⟩

end MqttWorld

namespace App

/-- What the application says with, and has said. -/
structure Talk where
  ha : Ha
  ledCount : UInt16
  log : List HaEvent
  announcePending : Bool
  announceStep : ℕ
  statePublishPending : Bool
  statePublishStep : ℕ
  statePublishGeneration : UInt32
  statePublishRangeGeneration : UInt32
  publishedGeneration : UInt32
  publishedRangeGeneration : UInt32

def talk (app : App) : Talk :=
  ⟨app.ha, app.ledCount, app.log, app.announcePending, app.announceStep, app.statePublishPending,
    app.statePublishStep, app.statePublishGeneration, app.statePublishRangeGeneration,
    app.publishedGeneration, app.publishedRangeGeneration⟩

/-- Nothing was said and no session begun; the light and the range may have changed. -/
structure Quiet (app app' : App) : Prop where
  talk_eq : app'.talk = app.talk
  called : app.mqtt.Called → app'.mqtt.Called
  connected : app'.isConnected = true → app.isConnected = true
  light : ∃ n, Light.Counts app.light app'.light n ∧ app'.lightChanges = app.lightChanges + n
  range : ∃ n, LedRange.Counts app.range app'.range n ∧ app'.rangeChanges = app.rangeChanges + n

variable {app app' app'' : App}

theorem Quiet.refl (app : App) : Quiet app app where
  talk_eq := rfl
  called := id
  connected := id
  light := ⟨0, .refl _, rfl⟩
  range := ⟨0, .refl _, rfl⟩

theorem Quiet.trans (h : Quiet app app') (h' : Quiet app' app'') : Quiet app app'' where
  talk_eq := h'.talk_eq.trans h.talk_eq
  called := fun hcalled => h'.called (h.called hcalled)
  connected := fun hconnected => h.connected (h'.connected hconnected)
  light := by
    obtain ⟨n, hcounts, hchanges⟩ := h.light
    obtain ⟨m, hcounts', hchanges'⟩ := h'.light
    exact ⟨n + m, hcounts.trans hcounts', by rw [hchanges', hchanges, Nat.add_assoc]⟩
  range := by
    obtain ⟨n, hcounts, hchanges⟩ := h.range
    obtain ⟨m, hcounts', hchanges'⟩ := h'.range
    refine ⟨n + m, ⟨?_, ?_⟩, by rw [hchanges', hchanges, Nat.add_assoc]⟩
    · rw [hcounts'.generation_eq, hcounts.generation_eq, UInt32.add_assoc, UInt32.ofNat_add]
    · intro hzero
      rw [hcounts'.still (by omega), hcounts.still (by omega)]

theorem setLight_quiet (app : App) {light : Light} (h : ∃ n ≤ 5, Light.Counts app.light light n) :
    Quiet app (app.setLight light) := by
  obtain ⟨n, hn, hcounts⟩ := h
  refine ⟨rfl, id, id, ⟨n, hcounts, ?_⟩, ⟨0, .refl _, rfl⟩⟩
  change app.lightChanges + (light.generation - app.light.generation).toNat = _
  rw [hcounts.generation_eq, UInt32.add_comm, UInt32.add_sub_cancel,
    UInt32.toNat_ofNat_of_lt' (by rw [UInt32.size]; omega)]

theorem setRange_quiet (app : App) {range : LedRange}
    (h : ∃ n ≤ 1, LedRange.Counts app.range range n) : Quiet app (app.setRange range) := by
  obtain ⟨n, hn, hcounts⟩ := h
  refine ⟨rfl, id, id, ⟨0, .refl _, rfl⟩, ⟨n, hcounts, ?_⟩⟩
  change app.rangeChanges + (range.generation - app.range.generation).toNat = _
  rw [hcounts.generation_eq, UInt32.add_comm, UInt32.add_sub_cancel,
    UInt32.toNat_ofNat_of_lt' (by rw [UInt32.size]; omega)]

theorem mqtt_quiet (app : App) {mqtt : MqttWorld} (hcalled : app.mqtt.Called → mqtt.Called)
    (hconnected : mqtt.mqtt.isConnected = true → app.mqtt.mqtt.isConnected = true) :
    Quiet app { app with mqtt := mqtt } :=
  ⟨rfl, hcalled, hconnected, ⟨0, .refl _, rfl⟩, ⟨0, .refl _, rfl⟩⟩

theorem onBrokerMessage_quiet (topic payload : Bytes) (now : UInt32) (app : App) :
    Quiet app (app.onBrokerMessage topic payload now) := by
  unfold onBrokerMessage
  split
  · split
    · exact .refl app
    split
    · exact setRange_quiet app (app.range.setFirst_counts _)
    · exact setRange_quiet app (app.range.setLast_counts _)
  split
  · exact .refl app
  split
  · exact .refl app
  · exact setLight_quiet app (haApplyCommand_counts _ app.light now)

theorem mqttStep_quiet (app : App) {move : MqttMove}
    (hmove : match move with
      | .dns _ _ | .status false _ | .incomingPublish _ | .incomingData _ _ => True
      | _ => False) : Quiet app (app.mqttStep move) := by
  refine mqtt_quiet app (fun hcalled => hcalled.callback ?_)
    (MqttWorld.step_settles app.mqtt hmove).connected
  cases move with
  | status accepted a => trivial
  | dns | incomingPublish | incomingData => trivial
  | connect | close | poll => exact hmove.elim

theorem onData_quiet (data : Bytes) (last : Bool) (now : UInt32) (app : App) :
    Quiet app (app.onData data last now) := by
  have hmessages : ∀ (messages : List (Bytes × Bytes)) (app : App), Quiet app
      (messages.foldl (fun app message => app.onBrokerMessage message.1 message.2 now) app) := by
    intro messages
    induction messages with
    | nil => exact fun app => .refl app
    | cons message messages ih =>
      intro app
      exact (onBrokerMessage_quiet message.1 message.2 now app).trans (ih _)
  have hdata : Quiet app (app.mqttStep (.incomingData data last)) := mqttStep_quiet app trivial
  exact hdata.trans (hmessages _ _)

theorem associate_quiet (wa : WifiAnswers) (ma : MqttAnswers) (app : App) :
    Quiet app (app.associate wa ma) := by
  unfold associate
  split
  · exact .refl app
  dsimp only
  split
  · have hconnect := MqttWorld.mqttConnect_settles (mqttConfigOf app.stored app.ha) ma app.mqtt rfl
    have hcalled : app.mqtt.Called →
        ((app.mqtt.mqttConnect (mqttConfigOf app.stored app.ha) ma).2).Called :=
      fun h => h.connect _ ma rfl
    have hquiet := mqtt_quiet app hcalled hconnect.2
    exact ⟨hquiet.talk_eq, hquiet.called, hquiet.connected, hquiet.light, hquiet.range⟩
  · exact ⟨rfl, id, id, ⟨0, .refl _, rfl⟩, ⟨0, .refl _, rfl⟩⟩

theorem cmdDisconnect_quiet (app : App) : Quiet app app.cmdDisconnect := by
  have hquiet := mqtt_quiet app (fun h => h.close) (MqttWorld.mqttClose_settles app.mqtt).connected
  exact ⟨hquiet.talk_eq, hquiet.called, hquiet.connected, hquiet.light, hquiet.range⟩

theorem setStored_quiet (stored : StoredSettings) (app : App) : Quiet app (app.setStored stored) :=
  ⟨rfl, id, id, ⟨0, .refl _, rfl⟩, ⟨0, .refl _, rfl⟩⟩

theorem polled_quiet (a : NetAnswers) (app : App) :
    Quiet app { app with wifi := app.wifi.wifiPoll a.wifi, mqtt := app.mqtt.mqttPoll a.mqtt } := by
  have hquiet := mqtt_quiet app (fun h => h.poll a.mqtt)
    (MqttWorld.mqttPoll_settles a.mqtt app.mqtt).connected
  exact ⟨hquiet.talk_eq, hquiet.called, hquiet.connected, hquiet.light, hquiet.range⟩

end App

end Pico
