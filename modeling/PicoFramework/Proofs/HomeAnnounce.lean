import PicoFramework.Proofs.HomeLed

/-! The announcement in every run: what a session has to establish again is established when the
announcement is over, once its subscribes were accepted. -/

namespace Pico

open Lib.Run

namespace App

section subscribing

variable {app app' : App}

/-- The topics on which Home Assistant commands the light. -/
def commandTopics (app : App) : List CString :=
  [app.ha.topicCommand, app.ha.topicRangeFirstCommand, app.ha.topicRangeLastCommand]

/-- The subscribes of the last announcement were accepted, all three. -/
def Subscribed (app : App) : Prop :=
  ∀ topic ∈ app.commandTopics, .subscribe topic .ok ∈ app.sinceRequest

/-- In this session, and since the announcement was requested, MQTT has accepted the three
subscriptions, the three documents, the availability, and the three states. -/
structure Announced (app : App) : Prop where
  requested : .requested ∈ app.log
  session : .session ∉ app.sinceRequest
  subscribed : app.Subscribed
  announced : ∀ message ∈ app.announcement, app.Accepted message
  states : ∀ topic ∈ app.stateTopics, app.AcceptedOn topic

/-- MQTT accepts the subscribes of a call of `net_announce`. -/
def Accepts (subscribed : SubscribeAnswers) (app : App) : Prop :=
  app.mqtt.mqtt.subscribeTopic (some app.ha.topicCommand) 1 subscribed.command = .ok ∧
  app.mqtt.mqtt.subscribeTopic (some app.ha.topicRangeFirstCommand) 1 subscribed.first = .ok ∧
  app.mqtt.mqtt.subscribeTopic (some app.ha.topicRangeLastCommand) 1 subscribed.last = .ok

/-- The step calls `net_announce` only to have its subscribes accepted. -/
def SubscribesAccepted (app : App) : HomeLedMove → Prop
  | .announce subscribed => app.isConnected = true → app.Accepts subscribed
  | .status true a subscribed => (MqttMove.status true a).enabled app.mqtt = true →
      (app.mqttStep (.status true a)).Accepts subscribed
  | _ => True

/-- What was said since the request still was, and no session has begun. -/
structure Continues (app app' : App) : Prop where
  ha_eq : app'.ha = app.ha
  said : ∀ event ∈ app.sinceRequest, event ∈ app'.sinceRequest
  connected : app'.isConnected = true → app.isConnected = true

theorem Continues.refl (app : App) : Continues app app := ⟨rfl, fun _ => id, id⟩

theorem Quiet.continues (h : Quiet app app') : Continues app app' where
  ha_eq := congrArg Talk.ha h.talk_eq
  said := by
    rw [h.sinceRequest_eq]
    exact fun _ => id
  connected := h.connected

theorem say_continues {event : HaEvent} (hcall : event.IsCall) : Continues app (app.say event) where
  ha_eq := rfl
  said := by
    rw [say_sinceRequest hcall]
    exact fun _ => List.mem_cons_of_mem event
  connected := id

theorem Continues.subscribed (h : Continues app app')
    (hsubscribed : app.isConnected = true → app.Subscribed) :
    app'.isConnected = true → app'.Subscribed := by
  intro hup topic htopic
  unfold commandTopics at htopic
  rw [h.ha_eq] at htopic
  exact h.said _ (hsubscribed (h.connected hup) topic htopic)

theorem netPublishState_continues (app : App) : Continues app app.netPublishState := by
  unfold netPublishState
  split
  · exact .refl app
  · exact ⟨rfl, fun _ => id, id⟩

theorem announced_continues (topic : CString) (payload : Bytes) (sent : Bool) (app : App) :
    Continues app (App.announced (app.publish topic payload sent)) := by
  have hsaid : Continues app (app.say (.publish topic payload (app.answer topic payload sent))) :=
    say_continues (isCall_publish _ _ _)
  rw [publish_eq]
  unfold App.announced
  dsimp only
  split
  · exact ⟨hsaid.ha_eq, hsaid.said, hsaid.connected⟩
  · exact hsaid

theorem publishDiscovery_continues (entity : DiscoveryEntity) (sent : Bool) (app : App) :
    Continues app (App.announced (app.publishDiscovery entity sent)) := by
  unfold publishDiscovery
  split
  · exact .refl app
  · exact announced_continues _ _ _ app

theorem pollAnnouncement_continues (sent : Bool) (app : App) :
    Continues app (app.pollAnnouncement sent) := by
  unfold pollAnnouncement
  split
  · exact .refl app
  split
  · exact publishDiscovery_continues _ _ app
  · exact publishDiscovery_continues _ _ app
  · exact publishDiscovery_continues _ _ app
  · exact announced_continues _ _ _ app
  · have hstate := netPublishState_continues app
    dsimp only
    split
    · exact ⟨hstate.ha_eq, hstate.said, hstate.connected⟩
    · exact hstate
  · split
    · exact .refl app
    · exact ⟨rfl, fun _ => id, id⟩

theorem publishState_continues (topic : CString) (payload : Option Bytes) (sent : Bool) (app : App) :
    Continues app (app.publishState topic payload sent) := by
  unfold publishState
  split
  · exact .refl app
  · rename_i payload
    have hsaid : Continues app (app.say (.publish topic payload (app.answer topic payload sent))) :=
      say_continues (isCall_publish _ _ _)
    rw [publish_eq]
    dsimp only
    split
    · exact ⟨hsaid.ha_eq, hsaid.said, hsaid.connected⟩
    · exact hsaid

theorem pollStatePublish_continues (sent : Bool) (now : UInt32) (app : App) :
    Continues app (app.pollStatePublish sent now) := by
  unfold pollStatePublish
  split
  · exact .refl app
  split
  · exact publishState_continues _ _ _ app
  · exact publishState_continues _ _ _ app
  · exact publishState_continues _ _ _ app
  · exact ⟨rfl, fun _ => id, id⟩

theorem netAnnounce_subscribed {subscribed : SubscribeAnswers} (h : app.Accepts subscribed) :
    (app.netAnnounce subscribed).Subscribed := by
  obtain ⟨hcommand, hfirst, hlast⟩ := h
  have hsince : (app.netAnnounce subscribed).sinceRequest =
      [.subscribe app.ha.topicRangeLastCommand .ok, .subscribe app.ha.topicRangeFirstCommand .ok,
        .subscribe app.ha.topicCommand .ok] := by
    rw [← congrArg (HaEvent.subscribe app.ha.topicCommand) hcommand,
      ← congrArg (HaEvent.subscribe app.ha.topicRangeFirstCommand) hfirst,
      ← congrArg (HaEvent.subscribe app.ha.topicRangeLastCommand) hlast]
    rfl
  intro topic htopic
  rw [hsince]
  have hmem : topic ∈ [app.ha.topicCommand, app.ha.topicRangeFirstCommand,
    app.ha.topicRangeLastCommand] := htopic
  simp only [List.mem_cons, List.not_mem_nil, or_false] at hmem ⊢
  rcases hmem with rfl | rfl | rfl
  · exact .inr (.inr rfl)
  · exact .inr (.inl rfl)
  · exact .inl rfl

/-- The session has its subscriptions. -/
structure Attached (app : App) : Prop extends Conversation app where
  subscribed : app.isConnected = true → app.Subscribed

theorem Attached.step (h : Attached app) {move : HomeLedMove} (hmove : app.SubscribesAccepted move) :
    Attached (app.step move) := by
  refine ⟨h.toConversation.step move, ?_⟩
  rcases step_cases h.called move with hquiet | ⟨subscribed, rfl, hup, heq⟩ |
    ⟨a, subscribed, rfl, henabled, heq⟩ | ⟨app', a, hquiet, heq⟩ | ⟨app', hquiet, heq⟩
  · exact hquiet.continues.subscribed h.subscribed
  · rw [heq]
    exact fun _ => netAnnounce_subscribed (hmove hup)
  · rw [heq]
    have haccepts : (app.opened a).Accepts subscribed := hmove henabled
    exact fun _ => netAnnounce_subscribed haccepts
  · rw [heq]
    have hpolled := hquiet.continues.subscribed h.subscribed
    have hannounced := (pollAnnouncement_continues a.announcementSent app').subscribed hpolled
    exact (pollStatePublish_continues a.stateSent a.now _).subscribed hannounced
  · rw [heq]
    exact (netPublishState_continues app').subscribed (hquiet.continues.subscribed h.subscribed)

theorem boot_isConnected (boot : Boot) : boot.app.isConnected = false := by
  rw [← Bool.not_eq_true]
  intro hup
  have hinit : mqttInit.mqtt.isConnected = true := by
    revert hup
    unfold Boot.app netStartIfConfigured
    dsimp only
    split
    · exact id
    · exact (associate_quiet boot.wifi boot.mqtt _).connected
  exact Bool.false_ne_true hinit

theorem run_attached (boot : Boot) {moves : List HomeLedMove}
    (hmoves : Meets App.step SubscribesAccepted boot.app moves) :
    Attached (moves.foldl App.step boot.app) := by
  apply hmoves.invariant fun _ _ hmove h => Attached.step h hmove
  refine ⟨boot_conversation boot, fun hup => ?_⟩
  have hdown : boot.app.isConnected = false := boot_isConnected boot
  exact absurd (hdown.symm.trans hup) (by decide)

/-- An announcement that is over has been accepted but for the subscribes, which it does not look
at. -/
theorem Conversation.announced_iff (h : Conversation app) (hup : app.isConnected = true)
    (hover : app.announcePending = false) : app.Announced ↔ app.Subscribed := by
  refine ⟨Announced.subscribed, fun hsubscribed => ?_⟩
  obtain ⟨hrequested, hsession, hannounced, -, hstates⟩ := h.progress hup
  have hstage : app.stage = 6 := if_neg (by rw [hover]; exact Bool.false_ne_true)
  rw [hstage] at hannounced hstates
  refine ⟨hrequested, hsession, hsubscribed, hannounced, ?_⟩
  refine (hstates (by decide)).resolve_left fun hpending => ?_
  exact absurd (hover.symm.trans hpending.1) (by decide)

end subscribing

end App

/-- In every run whose subscribes are accepted an announcement that is over is complete. In every
other one it is so exactly where the subscribes of the last announcement were accepted. -/
theorem homeLed_announces (boot : Boot) (moves : List HomeLedMove) :
    let app := moves.foldl App.step boot.app
    (Meets App.step App.SubscribesAccepted boot.app moves →
      app.isConnected = true → app.announcePending = false → app.Announced) ∧
    (app.isConnected = true → app.announcePending = false → (app.Announced ↔ app.Subscribed)) := by
  have h := App.run_conversation boot moves
  refine ⟨fun hmoves hup hover => ?_, h.announced_iff⟩
  exact (h.announced_iff hup hover).mpr ((App.run_attached boot hmoves).subscribed hup)

/-- All is accepted in a session, and the announcement is complete. -/
theorem homeLed_announces_subscribed :
    let app := (session true).foldl App.step settledBoard.app
    app.isConnected = true ∧ app.announcePending = false ∧ app.Announced := by
  obtain ⟨hup, hover, -⟩ := session_over true
  refine ⟨hup, hover, (homeLed_announces settledBoard (session true)).1 ?_ hup hover⟩
  have haccepts : App.Accepts ⟨true, true, true⟩
      (settledBoard.app.mqttStep (.status true ⟨0, 0, .found 1, true, true⟩)) :=
    ⟨by decide, by decide, by decide⟩
  exact ⟨fun _ => haccepts, trivial, trivial, trivial, trivial, trivial, trivial, trivial, trivial,
    trivial, trivial⟩

/-- The subscribe of the command topic is refused, and the announcement goes on to its end. -/
theorem homeLed_announces_unsubscribed :
    let app := firstSession.foldl App.step settledBoard.app
    app.isConnected = true ∧ app.announcePending = false ∧ ¬ app.Announced := by
  unfold firstSession
  obtain ⟨hup, hover, -, -, -, -, hsubscribed⟩ := session_over false
  refine ⟨hup, hover, fun h => absurd (hsubscribed.mp ?_) Bool.false_ne_true⟩
  exact (List.takeWhile_prefix _).mem (h.subscribed _ List.mem_cons_self)

end Pico
