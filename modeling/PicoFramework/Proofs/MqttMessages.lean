import PicoFramework.Lib.Reassembly
import PicoFramework.Spec.Mqtt

/-! A publish that comes in reaches the application whole or not at all. lwIP gives its topic,
then its payload in parts of any length, the last one flagged. -/

namespace Pico

open Lib.Reassembly

/-- A publish as lwIP hands it over. -/
structure MqttMessage where
  topic : CString
  topic_fits : topic.length ≤ MQTT_TOPIC_MAX_LENGTH
  /-- All parts of the payload but the last. -/
  parts : List Bytes
  last : Bytes

namespace MqttMessage

def payload (message : MqttMessage) : Bytes := message.parts.flatten ++ message.last

/-- The callbacks that it makes. -/
def moves (message : MqttMessage) : List MqttMove :=
  .incomingPublish message.topic ::
    (message.parts.map (.incomingData · false) ++ [.incomingData message.last true])

/-- The message buffer has room for its payload. -/
def Fits (message : MqttMessage) : Prop := message.payload.length ≤ MQTT_MAX_MESSAGE_LENGTH

instance (message : MqttMessage) : Decidable message.Fits := inferInstanceAs (Decidable (_ ≤ _))

/-- The call of `on_message` that it is owed. -/
def delivery (message : MqttMessage) : Bytes × Bytes := (message.topic.bytes, message.payload)

end MqttMessage

/-- What the application may know of the messages that came: the calls of `on_message`, and
`mqtt_messages_dropped`. -/
@[ext]
structure Inbox where
  delivered : List (Bytes × Bytes)
  dropped : UInt32

/-- A message is delivered to an application that listens, or else counted. -/
def Inbox.receive (listens : Bool) (inbox : Inbox) (message : MqttMessage) : Inbox :=
  if message.Fits then
    if listens then { inbox with delivered := inbox.delivered ++ [message.delivery] } else inbox
  else { inbox with dropped := inbox.dropped + 1 }

theorem Inbox.foldl_receive (listens : Bool) (inbox : Inbox) (messages : List MqttMessage) :
    messages.foldl (Inbox.receive listens) inbox =
      { delivered := inbox.delivered ++
          if listens then (messages.filter (·.Fits)).map (·.delivery) else []
        dropped := inbox.dropped + UInt32.ofNat (messages.countP (¬ ·.Fits)) } := by
  induction messages generalizing inbox with
  | nil => cases listens <;> simp
  | cons message messages ih =>
    rw [List.foldl_cons, ih]
    by_cases hfits : message.Fits
    · cases listens <;> simp [receive, hfits]
    · have hcount : UInt32.ofNat (messages.countP (¬ ·.Fits) + 1) =
          1 + UInt32.ofNat (messages.countP (¬ ·.Fits)) := by
        rw [UInt32.ofNat_add, UInt32.add_comm, UInt32.ofNat_one]
      simp only [decide_not] at hcount
      simp [receive, hfits, hcount, UInt32.add_assoc]

namespace MqttWorld

def inbox (w : MqttWorld) : Inbox := ⟨w.delivered, w.mqtt.messagesDropped⟩

/-- The message buffer, as far as it is filled. -/
def incoming (w : MqttWorld) : Buffer UInt8 := ⟨w.mqtt.messageBuffer, w.mqtt.messageOverflowed⟩

/-- What the part of a message leaves alone. -/
structure Between (w w' : MqttWorld) : Prop where
  inbox_eq : w'.inbox = w.inbox
  topic_eq : w'.mqtt.messageTopic = w.mqtt.messageTopic
  onMessage_eq : w'.mqtt.config.onMessage = w.mqtt.config.onMessage

theorem Between.trans {a b c : MqttWorld} (h : Between a b) (h' : Between b c) : Between a c :=
  ⟨h'.inbox_eq.trans h.inbox_eq, h'.topic_eq.trans h.topic_eq,
    h'.onMessage_eq.trans h.onMessage_eq⟩

theorem onIncomingData_part (w : MqttWorld) (part : Bytes) :
    (w.onIncomingData part false).incoming = w.incoming.add MQTT_MAX_MESSAGE_LENGTH part ∧
      Between w (w.onIncomingData part false) :=
  ⟨rfl, rfl, rfl, rfl⟩

theorem foldl_parts (w : MqttWorld) (parts : List Bytes) :
    let w' := (parts.map (MqttMove.incomingData · false)).foldl perform w
    w'.incoming = parts.foldl (Buffer.add MQTT_MAX_MESSAGE_LENGTH) w.incoming ∧ Between w w' := by
  induction parts generalizing w with
  | nil => exact ⟨rfl, rfl, rfl, rfl⟩
  | cons part parts ih =>
    obtain ⟨hbuffer, hbetween⟩ := onIncomingData_part w part
    obtain ⟨hrest, hend⟩ := ih (w.onIncomingData part false)
    refine ⟨?_, hbetween.trans hend⟩
    rw [List.foldl_cons, ← hbuffer]
    exact hrest

theorem onIncomingData_last (w : MqttWorld) (part : Bytes) :
    (w.onIncomingData part true).inbox =
      match (w.incoming.add MQTT_MAX_MESSAGE_LENGTH part).whole with
      | some payload =>
          if w.mqtt.config.onMessage then
            ⟨w.delivered ++ [(w.mqtt.messageTopic, payload)], w.mqtt.messagesDropped⟩
          else w.inbox
      | none => ⟨w.delivered, w.mqtt.messagesDropped + 1⟩ := by
  unfold Buffer.whole
  cases hlost : (w.incoming.add MQTT_MAX_MESSAGE_LENGTH part).overflowed with
  | true =>
    have hdropped : (w.mqtt.messageOverflowed ||
        decide (part.length > MQTT_MAX_MESSAGE_LENGTH - w.mqtt.messageBuffer.length)) = true := hlost
    simp [onIncomingData, setMqtt, inbox, hdropped]
  | false =>
    have hkept : (w.mqtt.messageOverflowed ||
        decide (part.length > MQTT_MAX_MESSAGE_LENGTH - w.mqtt.messageBuffer.length)) = false := hlost
    cases hlistens : w.mqtt.config.onMessage with
    | true => simp [onIncomingData, setMqtt, inbox, hkept, hlistens, Buffer.add, incoming]
    | false => simp [onIncomingData, setMqtt, inbox, hkept, hlistens]

theorem onIncomingData_onMessage (w : MqttWorld) (part : Bytes) (last : Bool) :
    (w.onIncomingData part last).mqtt.config.onMessage = w.mqtt.config.onMessage := by
  unfold onIncomingData setMqtt
  dsimp only
  split_ifs <;> rfl

theorem foldl_moves (w : MqttWorld) (message : MqttMessage) :
    let w' := message.moves.foldl perform w
    w'.inbox = w.inbox.receive w.mqtt.config.onMessage message ∧
      w'.mqtt.config.onMessage = w.mqtt.config.onMessage := by
  have htopic : message.topic.bytes.take MQTT_TOPIC_MAX_LENGTH = message.topic.bytes :=
    List.take_of_length_le message.topic_fits
  obtain ⟨hbuffer, hinbox, hsame, hlistens⟩ :=
    foldl_parts (w.onIncomingPublish message.topic) message.parts
  set before := (message.parts.map (MqttMove.incomingData · false)).foldl perform
    (w.onIncomingPublish message.topic)
  have hmoves : message.moves.foldl perform w = before.onIncomingData message.last true := by
    simp only [MqttMessage.moves, List.foldl_cons, List.foldl_append, List.foldl_nil]
    rfl
  have hfresh : (w.onIncomingPublish message.topic).incoming =
      Buffer.ofPayload MQTT_MAX_MESSAGE_LENGTH [] := Buffer.ofPayload_nil _ |>.symm
  have hwhole : (before.incoming.add MQTT_MAX_MESSAGE_LENGTH message.last).whole =
      if message.Fits then some message.payload else none := by
    rw [hbuffer, hfresh, Buffer.foldl_add, Buffer.add_ofPayload, Buffer.whole_ofPayload]
    rfl
  have hdelivered : before.delivered = w.delivered := congrArg Inbox.delivered hinbox
  have hdropped : before.mqtt.messagesDropped = w.mqtt.messagesDropped :=
    congrArg Inbox.dropped hinbox
  have htopic' : before.mqtt.messageTopic = message.topic.bytes := hsame.trans htopic
  have hlistens' : before.mqtt.config.onMessage = w.mqtt.config.onMessage := hlistens
  rw [hmoves]
  refine ⟨?_, (onIncomingData_onMessage _ _ _).trans hlistens'⟩
  rw [onIncomingData_last, hwhole, Inbox.receive, hdelivered, hdropped, htopic', hlistens']
  by_cases hfits : message.Fits
  · simp only [if_pos hfits]
    rw [hinbox]
    rfl
  · simp only [if_neg hfits]
    rfl

theorem foldl_messages (w : MqttWorld) (messages : List MqttMessage) :
    ((messages.flatMap (·.moves)).foldl perform w).inbox =
      messages.foldl (Inbox.receive w.mqtt.config.onMessage) w.inbox := by
  induction messages generalizing w with
  | nil => rfl
  | cons message messages ih =>
    obtain ⟨hinbox, hlistens⟩ := foldl_moves w message
    rw [List.flatMap_cons, List.foldl_append, ih, hlistens, hinbox]
    rfl

end MqttWorld

/-- Messages are reassembled whole or dropped whole, each for itself: whatever came before, and
however lwIP cuts the payloads, the messages that fit are delivered once each and in order, and
each of the others is counted once. -/
theorem mqtt_messages_whole (w : MqttWorld) (messages : List MqttMessage) :
    (∀ message : MqttMessage,
      (message.moves.foldl MqttWorld.perform w).inbox =
        w.inbox.receive w.mqtt.config.onMessage message) ∧
      let w' := (messages.flatMap (·.moves)).foldl MqttWorld.perform w
      w'.delivered = w.delivered ++
          (if w.mqtt.config.onMessage then
            (messages.filter (·.payload.length ≤ MQTT_MAX_MESSAGE_LENGTH)).map
              fun message => (message.topic.bytes, message.payload)
          else []) ∧
        w'.mqtt.messagesDropped = w.mqtt.messagesDropped +
          UInt32.ofNat (messages.countP fun message =>
            MQTT_MAX_MESSAGE_LENGTH < message.payload.length) := by
  have hrun := (w.foldl_messages messages).trans (Inbox.foldl_receive _ _ _)
  have hcount : messages.countP (¬ ·.Fits) = messages.countP fun message =>
      MQTT_MAX_MESSAGE_LENGTH < message.payload.length := by
    simp only [MqttMessage.Fits, not_le]
  refine ⟨fun message => (w.foldl_moves message).1, congrArg Inbox.delivered hrun, ?_⟩
  rw [← hcount]
  exact congrArg Inbox.dropped hrun

end Pico
