import PicoFramework.Lib.Run
import PicoFramework.Proofs.HaDiscovery
import PicoFramework.Proofs.HaTopics
import PicoFramework.Proofs.HomeLedSteps

/-! What holds of the conversation with Home Assistant in every run: what has been accepted so far
of an announcement and of a set of states, and that a state which counts as published is the
present one. -/

namespace Pico

open Lib.Run

section said

/-- The payload of an accepted message on a topic. -/
def HaEvent.acceptedOn (topic : CString) : HaEvent → Option Bytes
  | .publish other payload .ok => if other = topic then some payload else none
  | _ => none

/-- The payload last accepted on a topic. -/
def lastAccepted (log : List HaEvent) (topic : CString) : Option Bytes :=
  log.findSome? (HaEvent.acceptedOn topic)

/-- The event neither starts a session nor requests an announcement. -/
def HaEvent.IsCall (event : HaEvent) : Prop := event ≠ .session ∧ event ≠ .requested

variable {event : HaEvent} {log : List HaEvent} {topic : CString} {payload : Bytes}

theorem lastAccepted_of_none (h : event.acceptedOn topic = none) :
    lastAccepted (event :: log) topic = lastAccepted log topic := by
  rw [lastAccepted, List.findSome?_cons, h]
  rfl

theorem lastAccepted_publish :
    lastAccepted (.publish topic payload .ok :: log) topic = some payload := by
  simp [lastAccepted, HaEvent.acceptedOn]

end said

namespace App

/-- What has been said since an announcement was last requested. -/
def sinceRequest (app : App) : List HaEvent := app.log.takeWhile (· ≠ .requested)

/-- The state of the light, on its topic. -/
def lightMessage (app : App) : CString × Option Bytes :=
  (app.ha.topicState, haBuildState app.light HA_STATE_BUFFER_SIZE)

def firstMessage (app : App) : CString × Option Bytes :=
  (app.ha.topicRangeFirstState, haBuildRangeState app.range .first HA_NUMBER_STATE_BUFFER_SIZE)

def lastMessage (app : App) : CString × Option Bytes :=
  (app.ha.topicRangeLastState, haBuildRangeState app.range .last HA_NUMBER_STATE_BUFFER_SIZE)

/-- The topics of the states, in the order in which they are published. -/
def stateTopics (app : App) : List CString :=
  [app.ha.topicState, app.ha.topicRangeFirstState, app.ha.topicRangeLastState]

/-- The first messages of an announcement: the documents, and that the light is there. -/
def announcement (app : App) : List (CString × Option Bytes) :=
  [(discoveryTopic app.ha .light, discoveryDocument app.ha app.ledCount .light),
    (discoveryTopic app.ha .rangeFirst, discoveryDocument app.ha app.ledCount .rangeFirst),
    (discoveryTopic app.ha .rangeLast, discoveryDocument app.ha app.ledCount .rangeLast),
    (app.ha.topicAvailability, some HA_AVAILABLE.bytes)]

/-- How far the announcement has come: its step, and 6 when it is over. -/
def stage (app : App) : ℕ := if app.announcePending then app.announceStep else 6

/-- The payload last accepted on a topic is the present one. -/
def UpToDate (app : App) (message : CString × Option Bytes) : Prop :=
  lastAccepted app.log message.1 = message.2

/-- A recorded generation is one that the model has had; if it still has it, `current` holds. -/
def Behind (recorded : UInt32) (changes : ℕ) (current : Prop) : Prop :=
  ∃ n ≤ changes, recorded = UInt32.ofNat (n + 1) ∧ (n = changes → current)

/-- The states that the set under way has published are present, as far as the generations that
it has captured are. -/
structure InCycle (app : App) : Prop where
  light : Behind app.statePublishGeneration app.lightChanges
    (1 ≤ app.statePublishStep → app.UpToDate app.lightMessage)
  range : Behind app.statePublishRangeGeneration app.rangeChanges
    ((2 ≤ app.statePublishStep → app.UpToDate app.firstMessage) ∧
      (3 ≤ app.statePublishStep → app.UpToDate app.lastMessage))

/-- The states are present, as far as the published generations are. -/
structure Settled (app : App) : Prop where
  light : Behind app.publishedGeneration app.lightChanges (app.UpToDate app.lightMessage)
  range : Behind app.publishedRangeGeneration app.rangeChanges
    (app.UpToDate app.firstMessage ∧ app.UpToDate app.lastMessage)

/-- A message of these has been accepted since the announcement was requested. -/
def Accepted (app : App) (message : CString × Option Bytes) : Prop :=
  ∃ payload, message.2 = some payload ∧ .publish message.1 payload .ok ∈ app.sinceRequest

/-- Whatever its payload was. -/
def AcceptedOn (app : App) (topic : CString) : Prop :=
  ∃ payload, .publish topic payload .ok ∈ app.sinceRequest

/-- The announcement has been requested in this session, and its steps so far were accepted. -/
structure Progress (app : App) : Prop where
  requested : .requested ∈ app.log
  session : .session ∉ app.sinceRequest
  announced : ∀ message ∈ app.announcement.take app.stage, app.Accepted message
  cycle : app.statePublishPending = true →
    ∀ topic ∈ app.stateTopics.take app.statePublishStep, app.AcceptedOn topic
  states : 5 ≤ app.stage → (app.announcePending = true ∧ app.statePublishPending = true) ∨
    ∀ topic ∈ app.stateTopics, app.AcceptedOn topic

/-- The generations count the changes, and the topics are different ones. -/
structure Grounded (app : App) : Prop where
  called : app.mqtt.Called
  topics : app.ha = haCleared ∨ app.ha.topics.Nodup
  light : app.light.generation = UInt32.ofNat (app.lightChanges + 1)
  range : app.range.generation = UInt32.ofNat (app.rangeChanges + 1)

structure Conversation (app : App) : Prop extends Grounded app where
  cycle : app.statePublishPending = true → app.InCycle
  settled : app.isConnected = true →
    app.stage ≤ 4 ∨ app.statePublishPending = true ∨ app.Settled
  progress : app.isConnected = true → app.Progress

section generations

variable {recorded : UInt32} {changes more : ℕ} {current current' : Prop}

theorem Behind.mono (h : Behind recorded changes current)
    (hcurrent : more = 0 → current → current') : Behind recorded (changes + more) current' := by
  obtain ⟨n, hle, hrecorded, hnow⟩ := h
  refine ⟨n, by omega, hrecorded, fun hsame => ?_⟩
  exact hcurrent (by omega) (hnow (by omega))

theorem Behind.imp (h : Behind recorded changes current) (hcurrent : current → current') :
    Behind recorded changes current' := by
  obtain ⟨n, hle, hrecorded, hnow⟩ := h
  exact ⟨n, hle, hrecorded, fun hsame => hcurrent (hnow hsame)⟩

theorem behind_now (hrecorded : recorded = UInt32.ofNat (changes + 1)) (hcurrent : current) :
    Behind recorded changes current :=
  ⟨changes, le_rfl, hrecorded, fun _ => hcurrent⟩

theorem Behind.isCurrent (h : Behind recorded changes current)
    (hrecorded : recorded = UInt32.ofNat (changes + 1)) (hfew : changes < 2 ^ 32) : current := by
  obtain ⟨n, hle, hn, hnow⟩ := h
  refine hnow ?_
  have hsame := congrArg UInt32.toNat (hn.symm.trans hrecorded)
  simp only [UInt32.toNat_ofNat'] at hsame
  omega

end generations

section quiet

variable {app app' : App}

theorem Grounded.quiet (h : Grounded app) (hquiet : Quiet app app') : Grounded app' := by
  obtain ⟨n, hlight, hlightChanges⟩ := hquiet.light
  obtain ⟨m, hrange, hrangeChanges⟩ := hquiet.range
  have hha : app'.ha = app.ha := congrArg Talk.ha hquiet.talk_eq
  refine ⟨hquiet.called h.called, hha ▸ h.topics, ?_, ?_⟩
  · rw [hlight.generation_eq, hlightChanges, h.light, ← UInt32.ofNat_add]
    congr 1
    omega
  · rw [hrange.generation_eq, hrangeChanges, h.range, ← UInt32.ofNat_add]
    congr 1
    omega

/-- A state that was present still is, unless its model has changed. -/
theorem Quiet.upToDate_light (hquiet : Quiet app app') :
    ∃ n, app'.lightChanges = app.lightChanges + n ∧
      (n = 0 → app.UpToDate app.lightMessage → app'.UpToDate app'.lightMessage) := by
  obtain ⟨n, hlight, hchanges⟩ := hquiet.light
  refine ⟨n, hchanges, fun hzero hcurrent => ?_⟩
  have hha : app'.ha = app.ha := congrArg Talk.ha hquiet.talk_eq
  have hlog : app'.log = app.log := congrArg Talk.log hquiet.talk_eq
  unfold UpToDate lightMessage at hcurrent ⊢
  rw [hha, hlog, haBuildState_congr (hlight.still hzero)]
  exact hcurrent

theorem Quiet.upToDate_range (hquiet : Quiet app app') :
    ∃ n, app'.rangeChanges = app.rangeChanges + n ∧
      (n = 0 → (app.UpToDate app.firstMessage → app'.UpToDate app'.firstMessage) ∧
        (app.UpToDate app.lastMessage → app'.UpToDate app'.lastMessage)) := by
  obtain ⟨n, hrange, hchanges⟩ := hquiet.range
  refine ⟨n, hchanges, fun hzero => ?_⟩
  have hha : app'.ha = app.ha := congrArg Talk.ha hquiet.talk_eq
  have hlog : app'.log = app.log := congrArg Talk.log hquiet.talk_eq
  unfold UpToDate firstMessage lastMessage
  rw [hha, hlog, hrange.still hzero]
  exact ⟨id, id⟩

theorem Quiet.inCycle (hquiet : Quiet app app') (h : InCycle app) : InCycle app' := by
  have hstep : app'.statePublishStep = app.statePublishStep :=
    congrArg Talk.statePublishStep hquiet.talk_eq
  have hgeneration : app'.statePublishGeneration = app.statePublishGeneration :=
    congrArg Talk.statePublishGeneration hquiet.talk_eq
  have hrangeGeneration : app'.statePublishRangeGeneration = app.statePublishRangeGeneration :=
    congrArg Talk.statePublishRangeGeneration hquiet.talk_eq
  obtain ⟨n, hlight, hkeepsLight⟩ := hquiet.upToDate_light
  obtain ⟨m, hrange, hkeepsRange⟩ := hquiet.upToDate_range
  constructor
  · rw [hgeneration, hlight, hstep]
    exact h.light.mono fun hzero hcurrent hone => hkeepsLight hzero (hcurrent hone)
  · rw [hrangeGeneration, hrange, hstep]
    refine h.range.mono fun hzero hcurrent => ⟨fun htwo => ?_, fun hthree => ?_⟩
    · exact (hkeepsRange hzero).1 (hcurrent.1 htwo)
    · exact (hkeepsRange hzero).2 (hcurrent.2 hthree)

theorem Quiet.settled (hquiet : Quiet app app') (h : Settled app) : Settled app' := by
  have hgeneration : app'.publishedGeneration = app.publishedGeneration :=
    congrArg Talk.publishedGeneration hquiet.talk_eq
  have hrangeGeneration : app'.publishedRangeGeneration = app.publishedRangeGeneration :=
    congrArg Talk.publishedRangeGeneration hquiet.talk_eq
  obtain ⟨n, hlight, hkeepsLight⟩ := hquiet.upToDate_light
  obtain ⟨m, hrange, hkeepsRange⟩ := hquiet.upToDate_range
  constructor
  · rw [hgeneration, hlight]
    exact h.light.mono hkeepsLight
  · rw [hrangeGeneration, hrange]
    refine h.range.mono fun hzero hcurrent => ?_
    exact ⟨(hkeepsRange hzero).1 hcurrent.1, (hkeepsRange hzero).2 hcurrent.2⟩

theorem Quiet.stage_eq (hquiet : Quiet app app') : app'.stage = app.stage := by
  have hpending : app'.announcePending = app.announcePending :=
    congrArg Talk.announcePending hquiet.talk_eq
  have hstep : app'.announceStep = app.announceStep := congrArg Talk.announceStep hquiet.talk_eq
  unfold stage
  rw [hpending, hstep]

theorem Quiet.sinceRequest_eq (hquiet : Quiet app app') : app'.sinceRequest = app.sinceRequest := by
  have hlog : app'.log = app.log := congrArg Talk.log hquiet.talk_eq
  unfold sinceRequest
  rw [hlog]

theorem Quiet.progress (hquiet : Quiet app app') (h : Progress app) : Progress app' := by
  have hha : app'.ha = app.ha := congrArg Talk.ha hquiet.talk_eq
  have hled : app'.ledCount = app.ledCount := congrArg Talk.ledCount hquiet.talk_eq
  have hlog : app'.log = app.log := congrArg Talk.log hquiet.talk_eq
  have hpending : app'.announcePending = app.announcePending :=
    congrArg Talk.announcePending hquiet.talk_eq
  have hcycle : app'.statePublishPending = app.statePublishPending :=
    congrArg Talk.statePublishPending hquiet.talk_eq
  have hstep : app'.statePublishStep = app.statePublishStep :=
    congrArg Talk.statePublishStep hquiet.talk_eq
  have hsince := hquiet.sinceRequest_eq
  refine ⟨hlog ▸ h.requested, hsince ▸ h.session, ?_, ?_, ?_⟩
  · unfold announcement Accepted
    rw [hquiet.stage_eq, hsince, hha, hled]
    exact h.announced
  · unfold stateTopics AcceptedOn
    rw [hcycle, hstep, hsince, hha]
    exact h.cycle
  · unfold stateTopics AcceptedOn
    rw [hquiet.stage_eq, hpending, hcycle, hsince, hha]
    exact h.states

theorem Conversation.quiet (h : Conversation app) (hquiet : Quiet app app') : Conversation app' where
  toGrounded := h.toGrounded.quiet hquiet
  cycle := by
    rw [show app'.statePublishPending = app.statePublishPending from
      congrArg Talk.statePublishPending hquiet.talk_eq]
    exact fun hpending => hquiet.inCycle (h.cycle hpending)
  settled := by
    intro hconnected
    rw [hquiet.stage_eq, show app'.statePublishPending = app.statePublishPending from
      congrArg Talk.statePublishPending hquiet.talk_eq]
    exact (h.settled (hquiet.connected hconnected)).imp id (Or.imp id hquiet.settled)
  progress := fun hconnected => hquiet.progress (h.progress (hquiet.connected hconnected))

end quiet

section saying

variable {app : App} {event : HaEvent}

/-- The application with an event in its log. -/
def say (event : HaEvent) (app : App) : App := { app with log := event :: app.log }

theorem say_sinceRequest (hcall : event.IsCall) :
    (app.say event).sinceRequest = event :: app.sinceRequest := by
  have hne : decide (event ≠ .requested) = true := decide_eq_true hcall.2
  exact List.takeWhile_cons_of_pos hne

theorem Accepted.say {message : CString × Option Bytes} (h : app.Accepted message)
    (hcall : event.IsCall) : (app.say event).Accepted message := by
  obtain ⟨payload, hpayload, hmem⟩ := h
  refine ⟨payload, hpayload, ?_⟩
  rw [say_sinceRequest hcall]
  exact List.mem_cons_of_mem event hmem

theorem AcceptedOn.say {topic : CString} (h : app.AcceptedOn topic) (hcall : event.IsCall) :
    (app.say event).AcceptedOn topic := by
  obtain ⟨payload, hmem⟩ := h
  refine ⟨payload, ?_⟩
  rw [say_sinceRequest hcall]
  exact List.mem_cons_of_mem event hmem

theorem Progress.say (h : Progress app) (hcall : event.IsCall) : Progress (app.say event) where
  requested := List.mem_cons_of_mem event h.requested
  session := by
    rw [say_sinceRequest hcall, List.mem_cons, not_or]
    exact ⟨hcall.1.symm, h.session⟩
  announced := fun message hmessage => (h.announced message hmessage).say hcall
  cycle := fun hpending topic htopic => (h.cycle hpending topic htopic).say hcall
  states := fun hstage => (h.states hstage).imp id fun hall topic htopic => (hall topic htopic).say hcall

/-- A state that is present stays so: the event is none of its topic, or carries it again. -/
structure Spares (event : HaEvent) (app : App) : Prop where
  light : app.UpToDate app.lightMessage → (app.say event).UpToDate app.lightMessage
  first : app.UpToDate app.firstMessage → (app.say event).UpToDate app.firstMessage
  last : app.UpToDate app.lastMessage → (app.say event).UpToDate app.lastMessage

theorem Conversation.say (h : Conversation app) (hcall : event.IsCall) (hspares : Spares event app) :
    Conversation (app.say event) where
  toGrounded := ⟨h.called, h.topics, h.light, h.range⟩
  cycle := by
    intro hpending
    obtain ⟨hlight, hrange⟩ := h.cycle hpending
    constructor
    · exact hlight.imp fun hcurrent hone => hspares.light (hcurrent hone)
    · refine hrange.imp fun hcurrent => ⟨fun htwo => ?_, fun hthree => ?_⟩
      · exact hspares.first (hcurrent.1 htwo)
      · exact hspares.last (hcurrent.2 hthree)
  settled := by
    intro hconnected
    refine (h.settled hconnected).imp id (Or.imp id fun hsettled => ?_)
    constructor
    · exact hsettled.light.imp hspares.light
    · exact hsettled.range.imp fun hcurrent =>
        ⟨hspares.first hcurrent.1, hspares.last hcurrent.2⟩
  progress := fun hconnected => (h.progress hconnected).say hcall

theorem spares_of_none
    (h : ∀ topic ∈ app.stateTopics, event.acceptedOn topic = none) : Spares event app := by
  have hkeeps : ∀ message : CString × Option Bytes, message.1 ∈ app.stateTopics →
      app.UpToDate message → (app.say event).UpToDate message := by
    intro message hmem hcurrent
    unfold UpToDate App.say
    rw [lastAccepted_of_none (h message.1 hmem)]
    exact hcurrent
  exact ⟨hkeeps _ (by simp [stateTopics, lightMessage]), hkeeps _ (by simp [stateTopics, firstMessage]),
    hkeeps _ (by simp [stateTopics, lastMessage])⟩

end saying

section publishing

variable {app : App}

/-- What MQTT answers to a publish of the application. -/
def answer (topic : CString) (payload : Bytes) (sent : Bool) (app : App) : MqttResult :=
  app.mqtt.mqtt.publishMessage (some topic) (some payload) (UInt16.ofNat payload.length) 1 sent

theorem publish_eq (topic : CString) (payload : Bytes) (sent : Bool) (app : App) :
    app.publish topic payload sent = (decide (app.answer topic payload sent = .ok),
      app.say (.publish topic payload (app.answer topic payload sent))) := rfl

theorem answer_blank {topic : CString} {payload : Bytes} {sent : Bool}
    (h : app.answer topic payload sent = .ok) : topic.length ≠ 0 := by
  intro hblank
  have hempty : mqttCheckPublishTopic (some topic) = .empty := by
    simp [mqttCheckPublishTopic, hblank]
  have hrefused : app.answer topic payload sent = .errInvalidArg := by
    unfold answer Mqtt.publishMessage
    rw [hempty]
    split <;> rfl
  rw [hrefused] at h
  cases h

theorem Grounded.topics_nodup (h : Grounded app) {i : ℕ} {topic : CString}
    (htopic : app.ha.topics[i]? = some topic) (hlength : topic.length ≠ 0) :
    app.ha.topics.Nodup := by
  refine h.topics.resolve_left fun hcleared => hlength ?_
  have hmem := List.mem_of_getElem? htopic
  rw [hcleared] at hmem
  have hblank : ∀ other ∈ haCleared.topics, other.length = 0 := by decide
  exact hblank topic hmem

theorem Grounded.spares_other (h : Grounded app) {i : ℕ} {topic : CString}
    (htopic : app.ha.topics[i]? = some topic) (hother : i ≠ 2 ∧ i ≠ 5 ∧ i ≠ 7) (payload : Bytes)
    (sent : Bool) : Spares (.publish topic payload (app.answer topic payload sent)) app := by
  apply spares_of_none
  intro state hstate
  cases hanswer : app.answer topic payload sent with
  | ok =>
    have hnodup := h.topics_nodup htopic (answer_blank hanswer)
    have hne : topic ≠ state := by
      simp only [stateTopics, List.mem_cons, List.not_mem_nil, or_false] at hstate
      rcases hstate with rfl | rfl | rfl
      · exact topic_ne hnodup hother.1 htopic rfl
      · exact topic_ne hnodup hother.2.1 htopic rfl
      · exact topic_ne hnodup hother.2.2 htopic rfl
    exact if_neg hne
  | _ => rfl

theorem UpToDate.publish {state message : CString × Option Bytes} (h : app.UpToDate state)
    {payload : Bytes} (hpayload : message.2 = some payload) {result : MqttResult}
    (hsame : result = .ok → message.1 = state.1 → message = state) :
    (app.say (.publish message.1 payload result)).UpToDate state := by
  by_cases hhere : result = .ok ∧ message.1 = state.1
  · obtain ⟨rfl, htopic⟩ := hhere
    obtain rfl := hsame rfl htopic
    exact lastAccepted_publish.trans hpayload.symm
  · have hnone : (HaEvent.publish message.1 payload result).acceptedOn state.1 = none := by
      cases result with
      | ok => exact if_neg fun htopic => hhere ⟨rfl, htopic⟩
      | _ => rfl
    exact (lastAccepted_of_none hnone).trans h

theorem Grounded.spares_state (h : Grounded app) {message : CString × Option Bytes}
    (hmessage : message ∈ [app.lightMessage, app.firstMessage, app.lastMessage]) {payload : Bytes}
    (hpayload : message.2 = some payload) (sent : Bool) :
    Spares (.publish message.1 payload (app.answer message.1 payload sent)) app := by
  have hsame : ∀ state ∈ [app.lightMessage, app.firstMessage, app.lastMessage],
      app.answer message.1 payload sent = .ok → message.1 = state.1 → message = state := by
    intro state hstate hok htopic
    have hstates : ([app.lightMessage, app.firstMessage, app.lastMessage].map Prod.fst).Nodup := by
      have hnodup : app.ha.topics.Nodup := by
        simp only [List.mem_cons, List.not_mem_nil, or_false] at hmessage
        rcases hmessage with rfl | rfl | rfl
        · exact h.topics_nodup (i := 2) rfl (answer_blank hok)
        · exact h.topics_nodup (i := 5) rfl (answer_blank hok)
        · exact h.topics_nodup (i := 7) rfl (answer_blank hok)
      have hlight : app.ha.topicState ≠ app.ha.topicRangeFirstState :=
        topic_ne hnodup (i := 2) (j := 5) (by decide) rfl rfl
      have hfirst : app.ha.topicRangeFirstState ≠ app.ha.topicRangeLastState :=
        topic_ne hnodup (i := 5) (j := 7) (by decide) rfl rfl
      have hlast : app.ha.topicState ≠ app.ha.topicRangeLastState :=
        topic_ne hnodup (i := 2) (j := 7) (by decide) rfl rfl
      simp [lightMessage, firstMessage, lastMessage, hlight, hfirst, hlast]
    exact List.inj_on_of_nodup_map hstates hmessage hstate htopic
  exact ⟨fun hcurrent => hcurrent.publish hpayload (hsame _ (by simp)),
    fun hcurrent => hcurrent.publish hpayload (hsame _ (by simp)),
    fun hcurrent => hcurrent.publish hpayload (hsame _ (by simp))⟩

theorem isCall_publish (topic : CString) (payload : Bytes) (result : MqttResult) :
    (HaEvent.publish topic payload result).IsCall := ⟨nofun, nofun⟩

theorem accepted_publish {message : CString × Option Bytes} {payload : Bytes}
    (hpayload : message.2 = some payload) :
    (app.say (.publish message.1 payload .ok)).Accepted message := by
  refine ⟨payload, hpayload, ?_⟩
  rw [say_sinceRequest (isCall_publish message.1 payload .ok)]
  exact List.mem_cons_self

theorem acceptedOn_publish (topic : CString) (payload : Bytes) :
    (app.say (.publish topic payload .ok)).AcceptedOn topic := by
  refine ⟨payload, ?_⟩
  rw [say_sinceRequest (isCall_publish topic payload .ok)]
  exact List.mem_cons_self

theorem netPublishState_conversation (h : Conversation app) : Conversation app.netPublishState := by
  unfold netPublishState
  split
  · exact h
  · rename_i hfree
    rw [Bool.or_eq_true, not_or, Bool.not_eq_true', Bool.not_eq_false, Bool.not_eq_true] at hfree
    obtain ⟨hconnected, hidle⟩ := hfree
    refine ⟨⟨h.called, h.topics, h.light, h.range⟩, fun _ => ?_, fun _ => .inr (.inl rfl), fun _ => ?_⟩
    · exact ⟨behind_now h.light nofun, behind_now h.range ⟨nofun, nofun⟩⟩
    · obtain ⟨hrequested, hsession, hannounced, -, hstates⟩ := h.progress hconnected
      refine ⟨hrequested, hsession, hannounced, fun _ => nofun, fun hstage => .inr ?_⟩
      refine (hstates hstage).resolve_left fun hpending => ?_
      rw [hidle] at hpending
      exact Bool.false_ne_true hpending.2

theorem Conversation.advance (h : Conversation app) (hpending : app.announcePending = true)
    (hstep : app.announceStep < 4) {message : CString × Option Bytes}
    (hmessage : app.announcement[app.announceStep]? = some message)
    (haccepted : app.Accepted message) :
    Conversation { app with announceStep := app.announceStep + 1 } := by
  have hstage : app.stage = app.announceStep := if_pos hpending
  have hstage' : stage { app with announceStep := app.announceStep + 1 } = app.announceStep + 1 :=
    if_pos hpending
  refine ⟨⟨h.called, h.topics, h.light, h.range⟩, fun hcycle => ?_, fun _ => .inl ?_, fun hup => ?_⟩
  · obtain ⟨hlight, hrange⟩ := h.cycle hcycle
    exact ⟨hlight, hrange⟩
  · rw [hstage']
    exact hstep
  · obtain ⟨hrequested, hsession, hannounced, hcycle, -⟩ := h.progress hup
    refine ⟨hrequested, hsession, fun other hmem => ?_, hcycle, fun hlate => ?_⟩
    · rw [hstage'] at hmem
      have hsplit : other ∈ app.announcement.take app.announceStep ++ [message] := by
        rw [List.take_add_one] at hmem
        change other ∈ _ ++ app.announcement[app.announceStep]?.toList at hmem
        rw [hmessage] at hmem
        exact hmem
      rcases List.mem_append.mp hsplit with hbefore | hnow
      · exact hannounced other (hstage ▸ hbefore)
      · rw [List.mem_singleton.mp hnow]
        exact haccepted
    · rw [hstage'] at hlate
      omega

theorem Conversation.announced (h : Conversation app) (hpending : app.announcePending = true)
    (hstep : app.announceStep < 4) {message : CString × Option Bytes}
    (hmessage : app.announcement[app.announceStep]? = some message) {i : ℕ}
    (htopic : app.ha.topics[i]? = some message.1) (hother : i ≠ 2 ∧ i ≠ 5 ∧ i ≠ 7)
    {payload : Bytes} (hpayload : message.2 = some payload) (sent : Bool) :
    Conversation (App.announced (app.publish message.1 payload sent)) := by
  have hsaid := h.say (isCall_publish message.1 payload (app.answer message.1 payload sent))
    (h.spares_other htopic hother payload sent)
  rw [publish_eq]
  unfold App.announced
  dsimp only
  split
  · rename_i hanswer
    rw [of_decide_eq_true hanswer] at hsaid ⊢
    exact hsaid.advance hpending hstep hmessage (accepted_publish hpayload)
  · exact hsaid

theorem Conversation.discovery (h : Conversation app) (hpending : app.announcePending = true)
    (hstep : app.announceStep < 4) (entity : DiscoveryEntity)
    (hmessage : app.announcement[app.announceStep]? =
      some (discoveryTopic app.ha entity, discoveryDocument app.ha app.ledCount entity))
    {i : ℕ} (htopic : app.ha.topics[i]? = some (discoveryTopic app.ha entity))
    (hother : i ≠ 2 ∧ i ≠ 5 ∧ i ≠ 7) (sent : Bool) :
    Conversation (App.announced (app.publishDiscovery entity sent)) := by
  unfold publishDiscovery
  split
  · exact h
  · rename_i document hdocument
    exact h.announced hpending hstep hmessage htopic hother hdocument sent

theorem Conversation.awaits (h : Conversation app) (hpending : app.announcePending = true)
    (hstep : app.announceStep = 4) (hcycle : app.statePublishPending = true) :
    Conversation { app with announceStep := app.announceStep + 1 } := by
  have hstage : app.stage = 4 := (if_pos hpending).trans hstep
  have hstage' : stage { app with announceStep := app.announceStep + 1 } = app.announceStep + 1 :=
    if_pos hpending
  refine ⟨⟨h.called, h.topics, h.light, h.range⟩, fun _ => ?_, fun _ => .inr (.inl hcycle),
    fun hup => ?_⟩
  · obtain ⟨hlight, hrange⟩ := h.cycle hcycle
    exact ⟨hlight, hrange⟩
  · obtain ⟨hrequested, hsession, hannounced, hstates, -⟩ := h.progress hup
    refine ⟨hrequested, hsession, fun message hmem => ?_, hstates, fun _ => .inl ⟨hpending, hcycle⟩⟩
    rw [hstage', hstep] at hmem
    rw [hstage] at hannounced
    exact hannounced message hmem

theorem Conversation.over (h : Conversation app) (hpending : app.announcePending = true)
    (hstep : 5 ≤ app.announceStep) (hcycle : app.statePublishPending = false) :
    Conversation { app with announcePending := false } := by
  have hstage : app.stage = app.announceStep := if_pos hpending
  refine ⟨⟨h.called, h.topics, h.light, h.range⟩, fun hlate => ?_, fun hup => ?_, fun hup => ?_⟩
  · exact absurd (hcycle.symm.trans hlate) (by decide)
  · rcases h.settled hup with hearly | hlate | hsettled
    · omega
    · exact absurd (hcycle.symm.trans hlate) (by decide)
    · exact .inr (.inr ⟨hsettled.light, hsettled.range⟩)
  · obtain ⟨hrequested, hsession, hannounced, hstates, hall⟩ := h.progress hup
    refine ⟨hrequested, hsession, fun message hmem => ?_, hstates, fun _ => .inr ?_⟩
    · refine hannounced message ?_
      rw [hstage, List.take_of_length_le (by exact Nat.le_of_succ_le hstep)]
      exact List.mem_of_mem_take hmem
    · refine (hall (by omega)).resolve_left fun hlate => ?_
      exact absurd (hcycle.symm.trans hlate.2) (by decide)

theorem pollAnnouncement_conversation (h : Conversation app) (sent : Bool) :
    Conversation (app.pollAnnouncement sent) := by
  unfold pollAnnouncement
  split
  · exact h
  · rename_i hbusy
    rw [Bool.or_eq_true, not_or, Bool.not_eq_true', Bool.not_eq_false, Bool.not_eq_true',
      Bool.not_eq_false] at hbusy
    obtain ⟨hpending, -⟩ := hbusy
    split
    · rename_i hstep
      exact h.discovery hpending (by omega) .light (by rw [hstep]; rfl) (i := 0) rfl (by decide) sent
    · rename_i hstep
      exact h.discovery hpending (by omega) .rangeFirst (by rw [hstep]; rfl) (i := 8) rfl (by decide)
        sent
    · rename_i hstep
      exact h.discovery hpending (by omega) .rangeLast (by rw [hstep]; rfl) (i := 9) rfl (by decide)
        sent
    · rename_i hstep
      have hmessage : app.announcement[app.announceStep]? =
          some (app.ha.topicAvailability, some HA_AVAILABLE.bytes) := by
        rw [hstep]
        rfl
      exact h.announced hpending (by omega) hmessage (i := 3) rfl (by decide) rfl sent
    · rename_i hstep
      have hstate := netPublishState_conversation h
      have hsame : app.netPublishState.announcePending = app.announcePending ∧
          app.netPublishState.announceStep = app.announceStep := by
        unfold netPublishState
        split <;> exact ⟨rfl, rfl⟩
      dsimp only
      split
      · rename_i hcycle
        exact hstate.awaits (hsame.1.trans hpending) (hsame.2.trans hstep) hcycle
      · exact hstate
    · rename_i hzero hone htwo hthree hfour
      split
      · exact h
      · rename_i hcycle
        refine h.over hpending ?_ (by simpa using hcycle)
        have hlate : ∀ n, n ≤ 4 → app.announceStep ≠ n := by
          intro n hn
          interval_cases n
          · exact hzero
          · exact hone
          · exact htwo
          · exact hthree
          · exact hfour
        by_contra hearly
        exact hlate app.announceStep (by omega) rfl

theorem Conversation.nextState (h : Conversation app) (hcycle : app.statePublishPending = true)
    {topic : CString} (htopic : app.stateTopics[app.statePublishStep]? = some topic)
    (haccepted : app.AcceptedOn topic)
    (hlight : app.statePublishStep = 0 → app.UpToDate app.lightMessage)
    (hfirst : app.statePublishStep = 1 → app.UpToDate app.firstMessage)
    (hlast : app.statePublishStep = 2 → app.UpToDate app.lastMessage) :
    Conversation { app with statePublishStep := app.statePublishStep + 1 } := by
  refine ⟨⟨h.called, h.topics, h.light, h.range⟩, fun _ => ?_, fun _ => .inr (.inl hcycle),
    fun hup => ?_⟩
  · obtain ⟨hlightBehind, hrangeBehind⟩ := h.cycle hcycle
    constructor
    · refine hlightBehind.imp fun hcurrent _ => ?_
      rcases Nat.eq_zero_or_pos app.statePublishStep with hzero | hlater
      · exact hlight hzero
      · exact hcurrent hlater
    · refine hrangeBehind.imp fun hcurrent => ⟨fun htwo => ?_, fun hthree => ?_⟩
      · rcases Nat.eq_or_lt_of_le (Nat.le_of_succ_le_succ htwo) with hone | hlater
        · exact hfirst hone.symm
        · exact hcurrent.1 hlater
      · rcases Nat.eq_or_lt_of_le (Nat.le_of_succ_le_succ hthree) with htwo | hlater
        · exact hlast htwo.symm
        · exact hcurrent.2 hlater
  · obtain ⟨hrequested, hsession, hannounced, hstates, hall⟩ := h.progress hup
    refine ⟨hrequested, hsession, hannounced, fun _ other hmem => ?_, hall⟩
    have hsplit : other ∈ app.stateTopics.take app.statePublishStep ++ [topic] := by
      rw [List.take_add_one] at hmem
      change other ∈ _ ++ app.stateTopics[app.statePublishStep]?.toList at hmem
      rw [htopic] at hmem
      exact hmem
    rcases List.mem_append.mp hsplit with hbefore | hnow
    · exact hstates hcycle other hbefore
    · rw [List.mem_singleton.mp hnow]
      exact haccepted

theorem Conversation.complete (h : Conversation app) (hcycle : app.statePublishPending = true)
    (hstep : 3 ≤ app.statePublishStep) (now : UInt32) :
    Conversation
      { app with
        publishedGeneration := app.statePublishGeneration
        publishedRangeGeneration := app.statePublishRangeGeneration
        lastPublishMs := now
        statePublishPending := false } := by
  obtain ⟨hlight, hrange⟩ := h.cycle hcycle
  refine ⟨⟨h.called, h.topics, h.light, h.range⟩, nofun, fun _ => .inr (.inr ⟨?_, ?_⟩), fun hup => ?_⟩
  · exact hlight.imp fun hcurrent => hcurrent (by omega)
  · exact hrange.imp fun hcurrent => ⟨hcurrent.1 (by omega), hcurrent.2 hstep⟩
  · obtain ⟨hrequested, hsession, hannounced, hstates, -⟩ := h.progress hup
    refine ⟨hrequested, hsession, hannounced, nofun, fun _ => .inr fun topic hmem => ?_⟩
    refine hstates hcycle topic ?_
    rw [List.take_of_length_le (by exact hstep)]
    exact hmem

theorem Conversation.publishState (h : Conversation app) (hcycle : app.statePublishPending = true)
    {topic : CString} {document : Option Bytes}
    (hmessage : [app.lightMessage, app.firstMessage, app.lastMessage][app.statePublishStep]? =
      some (topic, document)) (sent : Bool) :
    Conversation (app.publishState topic document sent) := by
  unfold App.publishState
  cases document with
  | none => exact h
  | some payload =>
    have hsaid := h.say (isCall_publish topic payload (app.answer topic payload sent))
      (h.spares_state (List.mem_of_getElem? hmessage) rfl sent)
    dsimp only
    rw [publish_eq]
    dsimp only
    split
    · rename_i hanswer
      rw [of_decide_eq_true hanswer] at hsaid ⊢
      have hcurrent : ∀ state, [app.lightMessage, app.firstMessage, app.lastMessage][
          app.statePublishStep]? = some state →
          (app.say (.publish topic payload .ok)).UpToDate state := by
        intro state hstate
        obtain rfl := Option.some.inj (hmessage.symm.trans hstate)
        exact lastAccepted_publish
      have htopic : app.stateTopics[app.statePublishStep]? = some topic := by
        have hmap := congrArg (Option.map Prod.fst) hmessage
        rwa [← List.getElem?_map] at hmap
      refine hsaid.nextState hcycle htopic (acceptedOn_publish topic payload) ?_ ?_ ?_
      · exact fun hzero => hcurrent _ (congrArg (_[·]?) hzero)
      · exact fun hone => hcurrent _ (congrArg (_[·]?) hone)
      · exact fun htwo => hcurrent _ (congrArg (_[·]?) htwo)
    · exact hsaid

theorem pollStatePublish_conversation (h : Conversation app) (sent : Bool) (now : UInt32) :
    Conversation (app.pollStatePublish sent now) := by
  unfold pollStatePublish
  split
  · exact h
  · rename_i hbusy
    rw [Bool.or_eq_true, not_or, Bool.not_eq_true', Bool.not_eq_false, Bool.not_eq_true',
      Bool.not_eq_false] at hbusy
    obtain ⟨hcycle, -⟩ := hbusy
    split
    · rename_i hstep
      have hmessage : [app.lightMessage, app.firstMessage, app.lastMessage][app.statePublishStep]? =
          some (app.ha.topicState, haBuildState app.light HA_STATE_BUFFER_SIZE) := by
        rw [hstep]
        rfl
      exact h.publishState hcycle hmessage sent
    · rename_i hstep
      have hmessage : [app.lightMessage, app.firstMessage, app.lastMessage][app.statePublishStep]? =
          some (app.ha.topicRangeFirstState,
            haBuildRangeState app.range .first HA_NUMBER_STATE_BUFFER_SIZE) := by
        rw [hstep]
        rfl
      exact h.publishState hcycle hmessage sent
    · rename_i hstep
      have hmessage : [app.lightMessage, app.firstMessage, app.lastMessage][app.statePublishStep]? =
          some (app.ha.topicRangeLastState,
            haBuildRangeState app.range .last HA_NUMBER_STATE_BUFFER_SIZE) := by
        rw [hstep]
        rfl
      exact h.publishState hcycle hmessage sent
    · rename_i hzero hone htwo
      refine h.complete hcycle ?_ now
      have hlate : app.statePublishStep ≠ 0 ∧ app.statePublishStep ≠ 1 ∧ app.statePublishStep ≠ 2 :=
        ⟨hzero, hone, htwo⟩
      omega

end publishing

section runs

variable {app : App}

theorem netAnnounce_log (app : App) (subscribed : SubscribeAnswers) :
    ∃ a b c : MqttResult, (app.netAnnounce subscribed).log =
      .subscribe app.ha.topicRangeLastCommand a :: .subscribe app.ha.topicRangeFirstCommand b ::
        .subscribe app.ha.topicCommand c :: .requested :: app.log := by
  unfold netAnnounce subscribe
  dsimp only
  exact ⟨_, _, _, rfl⟩

theorem netAnnounce_frame (subscribed : SubscribeAnswers) :
    (app.netAnnounce subscribed).mqtt = app.mqtt ∧ (app.netAnnounce subscribed).ha = app.ha ∧
      (app.netAnnounce subscribed).light = app.light ∧
      (app.netAnnounce subscribed).lightChanges = app.lightChanges ∧
      (app.netAnnounce subscribed).range = app.range ∧
      (app.netAnnounce subscribed).rangeChanges = app.rangeChanges := by
  unfold App.netAnnounce subscribe
  dsimp only
  exact ⟨rfl, rfl, rfl, rfl, rfl, rfl⟩

theorem Grounded.netAnnounce (h : Grounded app) (subscribed : SubscribeAnswers) :
    Grounded (app.netAnnounce subscribed) := by
  obtain ⟨hmqtt, hha, hlight, hlights, hrange, hranges⟩ := @netAnnounce_frame app subscribed
  constructor
  · rw [hmqtt]
    exact h.called
  · rw [hha]
    exact h.topics
  · rw [hlight, hlights]
    exact h.light
  · rw [hrange, hranges]
    exact h.range

theorem netAnnounce_stage (subscribed : SubscribeAnswers) :
    (app.netAnnounce subscribed).stage = 0 := by
  unfold stage App.netAnnounce
  simp only [if_true]

theorem netAnnounce_idle (subscribed : SubscribeAnswers) :
    (app.netAnnounce subscribed).statePublishPending = false := by
  unfold App.netAnnounce
  simp only

theorem netAnnounce_said (subscribed : SubscribeAnswers) :
    .requested ∈ (app.netAnnounce subscribed).log ∧
      .session ∉ (app.netAnnounce subscribed).sinceRequest := by
  obtain ⟨a, b, c, hlog⟩ := netAnnounce_log app subscribed
  rw [sinceRequest, hlog]
  simp

theorem netAnnounce_conversation (h : Grounded app) (subscribed : SubscribeAnswers) :
    Conversation (app.netAnnounce subscribed) := by
  have hidle : ¬ (app.netAnnounce subscribed).statePublishPending = true := by
    rw [netAnnounce_idle subscribed]
    exact Bool.false_ne_true
  have hearly : (app.netAnnounce subscribed).stage ≤ 4 := by
    rw [netAnnounce_stage]
    exact Nat.zero_le 4
  have hprogress : Progress (app.netAnnounce subscribed) := by
    obtain ⟨hrequested, hsession⟩ := @netAnnounce_said app subscribed
    refine ⟨hrequested, hsession, ?_,
      fun hpending => absurd hpending hidle, fun hlate => absurd hlate (by omega)⟩
    intro message hmessage
    rw [netAnnounce_stage, List.take_zero] at hmessage
    exact absurd hmessage List.not_mem_nil
  exact ⟨h.netAnnounce subscribed, fun hpending => absurd hpending hidle, fun _ => .inl hearly,
    fun _ => hprogress⟩

/-- What a session is to be announced in. -/
def opened (a : MqttAnswers) (app : App) : App :=
  { app.mqttStep (.status true a) with log := .session :: (app.mqttStep (.status true a)).log }

theorem Grounded.opened (h : Grounded app) (a : MqttAnswers) : Grounded (app.opened a) :=
  ⟨h.called.callback trivial, h.topics, h.light, h.range⟩

theorem onStatus_cases (h : app.mqtt.Called) (accepted : Bool) (a : MqttAnswers)
    (subscribed : SubscribeAnswers) :
    Quiet app (app.onStatus accepted a subscribed) ∨
    (accepted = true ∧ (MqttMove.status true a).enabled app.mqtt = true ∧
      app.onStatus accepted a subscribed = (app.opened a).netAnnounce subscribed) := by
  unfold onStatus
  dsimp only
  split
  · exact .inl (.refl app)
  rename_i henabled
  rw [Bool.not_eq_true', Bool.not_eq_false] at henabled
  cases accepted with
  | false => exact .inl (mqttStep_quiet app trivial)
  | true =>
    have hcalled : (app.mqtt.step (.status true a)).Called := h.callback trivial
    refine .inr ⟨rfl, henabled, ?_⟩
    rw [if_neg (by decide)]
    refine if_pos ?_
    rcases hcalled with hthere | ⟨hlink, -⟩
    · exact hthere
    · have hsession : (app.mqtt.step (.status true a)).link = .session := by
        unfold MqttWorld.step
        rw [if_pos henabled]
        rfl
      rw [hsession] at hlink
      cases hlink

/-- What a step may do: nothing to the conversation, begin an announcement, or say a part of it. -/
theorem step_cases (h : app.mqtt.Called) (move : HomeLedMove) :
    Quiet app (app.step move) ∨
    (∃ subscribed, move = .announce subscribed ∧ app.isConnected = true ∧
      app.step move = app.netAnnounce subscribed) ∨
    (∃ a subscribed, move = .status true a subscribed ∧
      (MqttMove.status true a).enabled app.mqtt = true ∧
      app.step move = (app.opened a).netAnnounce subscribed) ∨
    (∃ app', ∃ a : NetAnswers, Quiet app app' ∧ app.step move =
      (app'.pollAnnouncement a.announcementSent).pollStatePublish a.stateSent a.now) ∨
    (∃ app', Quiet app app' ∧ app.step move = app'.netPublishState) := by
  cases move with
  | light move =>
    obtain ⟨n, hn, hcounts⟩ := app.light.step_counts move
    exact .inl (setLight_quiet app ⟨n, by omega, hcounts⟩)
  | range move => exact .inl (setRange_quiet app (app.range.step_counts move))
  | settings stored => exact .inl (setStored_quiet stored app)
  | connect wa ma => exact .inl (associate_quiet wa ma app)
  | disconnect => exact .inl (cmdDisconnect_quiet app)
  | announce subscribed =>
    by_cases hup : app.isConnected = true
    · refine .inr (.inl ⟨subscribed, rfl, hup, if_neg ?_⟩)
      rw [hup]
      exact Bool.false_ne_true
    · have hsame : app.step (.announce subscribed) = app := if_pos (by simpa using hup)
      rw [hsame]
      exact .inl (.refl app)
  | dns ip a => exact .inl (mqttStep_quiet app trivial)
  | status accepted a subscribed =>
    rcases onStatus_cases h accepted a subscribed with hquiet | ⟨rfl, henabled, heq⟩
    · exact .inl hquiet
    · exact .inr (.inr (.inl ⟨a, subscribed, rfl, henabled, heq⟩))
  | incomingPublish topic => exact .inl (mqttStep_quiet app trivial)
  | incomingData data last now => exact .inl (onData_quiet data last now app)
  | poll a => exact .inr (.inr (.inr (.inl ⟨_, a, polled_quiet a app, rfl⟩)))
  | loop now =>
    have hticked := setLight_quiet app ⟨0, by omega, app.light.tick_counts now⟩
    change Quiet app (if _ then App.netPublishState _ else _) ∨ _
    by_cases hdue : ((app.light.tick now).generation ≠ app.publishedGeneration ∨
        app.range.generation ≠ app.publishedRangeGeneration) ∧
        now - app.lastPublishMs ≥ PUBLISH_INTERVAL_MS
    · exact .inr (.inr (.inr (.inr ⟨_, hticked, if_pos hdue⟩)))
    · left
      rw [if_neg (by exact hdue)]
      exact hticked

theorem Conversation.step (h : Conversation app) (move : HomeLedMove) :
    Conversation (app.step move) := by
  rcases step_cases h.called move with hquiet | ⟨subscribed, -, -, heq⟩ |
    ⟨a, subscribed, -, -, heq⟩ | ⟨app', a, hquiet, heq⟩ | ⟨app', hquiet, heq⟩
  · exact h.quiet hquiet
  · rw [heq]
    exact netAnnounce_conversation h.toGrounded subscribed
  · rw [heq]
    exact netAnnounce_conversation (h.toGrounded.opened a) subscribed
  · rw [heq]
    exact pollStatePublish_conversation (pollAnnouncement_conversation (h.quiet hquiet) _) _ _
  · rw [heq]
    exact netPublishState_conversation (h.quiet hquiet)

theorem boot_conversation (boot : Boot) : Conversation boot.app := by
  have hrange : (loadRange boot.ledCount boot.rangeFirst boot.rangeLast).generation = 1 :=
    ledRangeRestore_generation _ _ _
  have hground : ∀ app : App, app.mqtt = mqttInit →
      app.ha = (haInit (some boot.stored.deviceId) (some boot.stored.haPrefix) haCleared).2 →
      app.light = loadLight boot.brightness boot.rgb →
      app.range = loadRange boot.ledCount boot.rangeFirst boot.rangeLast →
      app.lightChanges = 0 → app.rangeChanges = 0 → app.statePublishPending = false →
      Conversation app := by
    intro app hmqtt hha hlight hrange' hlights hranges hidle
    have hdown : ¬ app.isConnected = true := by
      rw [isConnected, hmqtt]
      exact Bool.false_ne_true
    refine ⟨⟨?_, ?_, ?_, ?_⟩, fun hcycle => ?_, fun hup => absurd hup hdown,
      fun hup => absurd hup hdown⟩
    · rw [hmqtt]
      exact .inr ⟨rfl, rfl, rfl⟩
    · rw [hha]
      exact haInit_topics _ _
    · rw [hlight, hlights]
      rfl
    · rw [hrange', hrange, hranges]
      rfl
    · exact absurd (hidle.symm.trans hcycle) (by decide)
  have hstarted := fun app : App => associate_quiet boot.wifi boot.mqtt app
  unfold Boot.app netStartIfConfigured
  dsimp only
  split
  · exact hground _ rfl rfl rfl rfl rfl rfl rfl
  · exact (hground _ rfl rfl rfl rfl rfl rfl rfl).quiet (hstarted _)

theorem run_conversation (boot : Boot) (moves : List HomeLedMove) :
    Conversation (moves.foldl App.step boot.app) :=
  foldl_invariant (fun _ move h => h.step move) moves (boot_conversation boot)

end runs

section documents

variable {app : App} {a : NetAnswers} {entity : DiscoveryEntity} {document : Bytes}

/-- A poll on which a document goes out. -/
theorem netPoll_document (hmqtt : app.mqtt.mqttPoll a.mqtt = app.mqtt)
    (hup : app.isConnected = true) (hpending : app.announcePending = true)
    (hidle : app.statePublishPending = false) (hsent : a.announcementSent = true)
    (hstep : (app.announceStep, entity) ∈
      [(0, DiscoveryEntity.light), (1, .rangeFirst), (2, .rangeLast)])
    (hdocument : discoveryDocument app.ha app.ledCount entity = some document)
    (haccepted : app.mqtt.mqtt.publishMessage (some (discoveryTopic app.ha entity)) (some document)
      (UInt16.ofNat document.length) 1 true = .ok) :
    app.netPoll a =
      { app with
        wifi := app.wifi.wifiPoll a.wifi
        announceStep := app.announceStep + 1
        log := .publish (discoveryTopic app.ha entity) document .ok :: app.log } := by
  have hpublish : ({ app with wifi := app.wifi.wifiPoll a.wifi } : App).pollAnnouncement true =
      { app with
        wifi := app.wifi.wifiPoll a.wifi
        announceStep := app.announceStep + 1
        log := .publish (discoveryTopic app.ha entity) document .ok :: app.log } := by
    have hup' : app.mqtt.mqtt.isConnected = true := hup
    simp only [List.mem_cons, Prod.mk.injEq, List.not_mem_nil, or_false] at hstep
    unfold pollAnnouncement
    rcases hstep with ⟨hstep, rfl⟩ | ⟨hstep, rfl⟩ | ⟨hstep, rfl⟩ <;>
      simp [isConnected, hup', hpending, hstep, publishDiscovery, hdocument, publish, haccepted, announced]
  unfold netPoll
  dsimp only
  rw [hmqtt, hsent, hpublish, pollStatePublish, hidle]
  rfl

end documents

end App

/-- Over every run of less changes than a generation counts: with a session whose announcement is
over, no set of states under way and the present generations published, the payloads last accepted
on the topics of the states are the present ones. -/
theorem homeLed_published_states (boot : Boot) (moves : List HomeLedMove) :
    let app := moves.foldl App.step boot.app
    app.lightChanges + app.rangeChanges < 2 ^ 32 → app.isConnected = true →
      app.announcePending = false → app.statePublishPending = false →
      app.publishedGeneration = app.light.generation →
      app.publishedRangeGeneration = app.range.generation →
      lastAccepted app.log app.ha.topicState = haBuildState app.light HA_STATE_BUFFER_SIZE ∧
      lastAccepted app.log app.ha.topicRangeFirstState =
        haBuildRangeState app.range .first HA_NUMBER_STATE_BUFFER_SIZE ∧
      lastAccepted app.log app.ha.topicRangeLastState =
        haBuildRangeState app.range .last HA_NUMBER_STATE_BUFFER_SIZE := by
  intro app hfew hup hannounced hidle hlight hrange
  have h : app.Conversation := App.run_conversation boot moves
  have hstage : app.stage = 6 := if_neg (by rw [hannounced]; exact Bool.false_ne_true)
  rcases h.settled hup with hearly | hlate | hsettled
  · omega
  · exact absurd (hidle.symm.trans hlate) (by decide)
  · have hlights := hsettled.light.isCurrent (hlight.trans h.light) (by omega)
    have hranges := hsettled.range.isCurrent (hrange.trans h.range) (by omega)
    simp only [App.UpToDate, App.lightMessage, App.firstMessage, App.lastMessage] at hlights hranges
    exact ⟨hlights, hranges.1, hranges.2⟩

/-- A board with thirty LEDs whose network is there when it starts. -/
def settledBoard : Boot where
  ledCount := 30
  stored :=
    ⟨cstr "home", cstr "password", cstr "", cstr "broker", cstr "1883", cstr "", cstr "",
      cstr "pico1", cstr "ha"⟩
  brightness := 128
  rgb := 0
  rangeFirst := 0
  rangeLast := 29
  radioOk := true
  wifi := ⟨0, 0, 0, 0, true, 0⟩
  mqtt := ⟨0, 0, .found 1, true, true⟩

/-- What a poll finds in a session. -/
def polled : NetAnswers := ⟨⟨0, 0, 0, 0, true, 0⟩, ⟨0, 0, .found 1, true, true⟩, true, true, 0⟩

/-- The broker opens a session, and all is accepted until the announcement is over but perhaps the
subscribe of the command topic. -/
def session (command : Bool) : List HomeLedMove :=
  .status true ⟨0, 0, .found 1, true, true⟩ ⟨command, true, true⟩ ::
    List.replicate 9 (.poll polled)

/-- A session in which it is not. -/
def firstSession : List HomeLedMove := session false

/-- The session has been opened. -/
def openedBoard (command : Bool) : App :=
  settledBoard.app.step (.status true ⟨0, 0, .found 1, true, true⟩ ⟨command, true, true⟩)

def documentOf (command : Bool) (entity : DiscoveryEntity) : Bytes :=
  (JsonTree.object
    (discoveryTree (openedBoard command).ha (openedBoard command).ledCount entity)).text

theorem openedBoard_document (command : Bool) (entity : DiscoveryEntity) :
    discoveryDocument (openedBoard command).ha (openedBoard command).ledCount entity =
      some (documentOf command entity) := by
  have hfits : ∀ command entity, (JsonTree.object
      (discoveryTree (openedBoard command).ha (openedBoard command).ledCount entity)).text.length <
        HA_DISCOVERY_BUFFER_SIZE := by
    intro command entity
    cases command <;> cases entity <;> decide +kernel
  exact discoveryDocument_text (by cases command <;> decide) (by cases command <;> decide)
    (hfits command entity)

/-- The board after the poll on which a document went out. -/
def describedOn (command : Bool) (step : ℕ) (entity : DiscoveryEntity) (app : App) : App :=
  { app with
    wifi := app.wifi.wifiPoll polled.wifi
    announceStep := step
    log := .publish (discoveryTopic app.ha entity) (documentOf command entity) .ok :: app.log }

def describedBoard (command : Bool) : App :=
  describedOn command 3 .rangeLast
    (describedOn command 2 .rangeFirst (describedOn command 1 .light (openedBoard command)))

theorem described_light (command : Bool) :
    (openedBoard command).netPoll polled = describedOn command 1 .light (openedBoard command) := by
  have hdocument := openedBoard_document command .light
  cases command
  all_goals
    exact App.netPoll_document (by decide) (by decide) (by decide) (by decide) rfl (by decide)
      hdocument (by decide)

theorem described_rangeFirst (command : Bool) :
    (describedOn command 1 .light (openedBoard command)).netPoll polled =
      describedOn command 2 .rangeFirst (describedOn command 1 .light (openedBoard command)) := by
  have hdocument := openedBoard_document command .rangeFirst
  cases command
  all_goals
    exact App.netPoll_document (by decide) (by decide) (by decide) (by decide) rfl (by decide)
      hdocument (by decide)

theorem described (command : Bool) :
    (((openedBoard command).netPoll polled).netPoll polled).netPoll polled =
      describedBoard command := by
  have htwo := (congrArg (App.netPoll polled) (described_light command)).trans
    (described_rangeFirst command)
  refine (congrArg (App.netPoll polled) htwo).trans ?_
  have hdocument := openedBoard_document command .rangeLast
  cases command
  all_goals
    exact App.netPoll_document (by decide) (by decide) (by decide) (by decide) rfl (by decide)
      hdocument (by decide)

theorem session_over (command : Bool) :
    let app := (session command).foldl App.step settledBoard.app
    app.isConnected = true ∧ app.announcePending = false ∧ app.statePublishPending = false ∧
    app.lightChanges + app.rangeChanges < 2 ^ 32 ∧
    app.publishedGeneration = app.light.generation ∧
    app.publishedRangeGeneration = app.range.generation ∧
    (.subscribe app.ha.topicCommand .ok ∈ app.log ↔ command = true) := by
  -- the documents stay unevaluated, so that the kernel has only the later polls to run
  have hrun : (session command).foldl App.step settledBoard.app =
      (List.replicate 6 (HomeLedMove.poll polled)).foldl App.step (describedBoard command) := by
    rw [← described, session, List.foldl_cons, List.replicate_succ, List.replicate_succ,
      List.replicate_succ, List.foldl_cons, List.foldl_cons, List.foldl_cons]
    rfl
  rw [hrun]
  cases command <;> decide +kernel

theorem homeLed_published_states_firstSession :
    let app := firstSession.foldl App.step settledBoard.app
    lastAccepted app.log app.ha.topicState = haBuildState app.light HA_STATE_BUFFER_SIZE ∧
    lastAccepted app.log app.ha.topicRangeFirstState =
      haBuildRangeState app.range .first HA_NUMBER_STATE_BUFFER_SIZE ∧
    lastAccepted app.log app.ha.topicRangeLastState =
      haBuildRangeState app.range .last HA_NUMBER_STATE_BUFFER_SIZE := by
  obtain ⟨hup, hover, hidle, hfew, hlight, hrange, -⟩ := session_over false
  unfold firstSession
  exact homeLed_published_states settledBoard (session false) hfew hup hover hidle hlight hrange

end Pico
