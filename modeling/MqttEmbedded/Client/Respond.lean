import MqttEmbedded.Client.Cycle
import MqttEmbedded.Packet.Inbound

/-!
# What a packet leads to

The switch of `cycle` works on the bytes of the receive buffer. When they are
those of a well-formed packet, it does what `respond` says in the terms of the
packet: deliver the message, send the acknowledgement.
-/

namespace MqttEmbedded

open Region Hoare

/-- What a handler can learn from the message it is called with. -/
structure MessageContent where
  topic : List UInt8
  payload : List UInt8
  payloadlen : ℕ
  qos : ℕ
  retained : ℕ
  dup : ℕ
  id : Option UInt16
  deriving DecidableEq

/-- The topic and the payload are the bytes their lengths allow to read. -/
def MessageData.content (md : MessageData) : MessageContent where
  topic := md.topicName.text
  payload := md.message.payload.take md.message.payloadlen
  payloadlen := md.message.payloadlen
  qos := md.message.qos
  retained := md.message.retained
  dup := md.message.dup
  id := md.message.id

/-- The bytes of an acknowledgement as the clients send it. -/
def ackBytes (packettype : MsgType) (id : UInt16) : List UInt8 :=
  frameBytes (ackHeader packettype.code 0) (intBytes id.toNat)

theorem length_ackBytes (packettype : MsgType) (id : UInt16) :
    (ackBytes packettype id).length = 4 := by
  simp [ackBytes, frameBytes]
  decide

/-- What the message of a PUBLISH is. -/
def publishContent (dup : Bool) (qos : ℕ) (retained : Bool) (topic : List UInt8) (id : UInt16)
    (payload : List UInt8) : MessageContent where
  topic := topic
  payload := payload
  payloadlen := payload.length
  qos := qos
  retained := retained.toNat
  dup := dup.toNat
  id := if 0 < qos then some id else none

namespace Inbound

/-- The acknowledgement a packet asks for. -/
def reply : Inbound → Option (MsgType × UInt16)
  | publish _ qos _ _ id _ =>
    if qos = 1 then some (.puback, id) else if qos = 2 then some (.pubrec, id) else none
  | pubrec id => some (.pubrel, id)
  | pubrel id => some (.pubcomp, id)
  | _ => none

/-- What handlers are to learn of the message a packet carries. -/
def content : Inbound → Option MessageContent
  | publish dup qos retained topic id payload =>
    some (publishContent dup qos retained topic id payload)
  | _ => none

end Inbound

/-- The calls a packet leads to, with the handlers that `handlers` has for a topic. -/
def deliveries {H : Type} (handlers : List UInt8 → List H) (packet : Inbound) :
    List (H × MessageContent) :=
  match packet.content with
  | some content => (handlers content.topic).map fun fp => (fp, content)
  | none => []

namespace WirePacket

def bytes (w : WirePacket) : List UInt8 := w.frame.bytes

theorem type_frame (w : WirePacket) : w.frame.type = w.packet.type.code := w.packet.type_header

end WirePacket

variable {χ ω τ H : Type}

/-- The name and the message of a PUBLISH, as slices of a buffer that ends in `tail`. -/
def publishData (dup : Bool) (qos : ℕ) (retained : Bool) (topic : List UInt8) (id : UInt16)
    (payload tail : List UInt8) : MessageData where
  message :=
    { qos := qos
      retained := retained.toNat
      dup := dup.toNat
      id := if 0 < qos then some id else none
      payload := payload ++ tail
      payloadlen := payload.length }
  topicName := ⟨none, ⟨topic.length,
    some (topic ++ ((if 0 < qos then intBytes id.toNat else []) ++ (payload ++ tail)))⟩⟩

theorem content_publishData (dup : Bool) (qos : ℕ) (retained : Bool) (topic : List UInt8)
    (id : UInt16) (payload tail : List UInt8) :
    (publishData dup qos retained topic id payload tail).content =
      publishContent dup qos retained topic id payload := by
  simp [MessageData.content, publishData, publishContent, MQTTString.text]

namespace Variant

variable (v : Variant χ ω τ H)

/-- Answer a PUBREC or PUBREL. -/
def respondAck (received packettype : MsgType) (id : UInt16) (timer : τ) :
    Prog (Session χ ω τ H) Outcome := do
  let rc ← v.sendAck packettype id timer
  if rc ≠ success then pure ⟨failure, true⟩
  else
    v.answered received id
    pure ⟨success, false⟩

/-- Answer a PUBLISH that asks for it. -/
def respondPublish (reply : Option (MsgType × UInt16)) (timer : τ) :
    Prog (Session χ ω τ H) Outcome :=
  match reply with
  | some (packettype, id) => do
    let rc ← v.sendAck packettype id timer
    pure ⟨rc, rc = failure⟩
  | none => pure ⟨success, false⟩

def respond (packet : Inbound) (tail : List UInt8) (timer : τ) : Prog (Session χ ω τ H) Outcome :=
  match packet with
  | .publish dup qos retained topic id payload => do
    let md := publishData dup qos retained topic id payload tail
    v.deliver md.topicName md.message
    v.respondPublish packet.reply timer
  | .pubrec id => v.respondAck .pubrec .pubrel id timer
  | .pubrel id => v.respondAck .pubrel .pubcomp id timer
  | .pingresp => do
    modifyClient fun c => { c with pingOutstanding := false }
    pure ⟨success, false⟩
  | _ => pure ⟨success, false⟩

theorem casePublish_eq {dup retained : Bool} {qos : ℕ} {topic payload tail : List UInt8}
    {id : UInt16} (h : (Inbound.publish dup qos retained topic id payload).WellFormed)
    {s : Session χ ω τ H} {timer : τ}
    (hbuf : s.client.readbuf = frameBytes (Inbound.publish dup qos retained topic id payload).header
      (publishBody qos id topic payload) ++ tail) :
    v.casePublish timer s =
      v.respond (.publish dup qos retained topic id payload) tail timer s := by
  have hpublish := mqttDeserializePublish_eq tail h
  rw [← hbuf] at hpublish
  obtain ⟨hbody, hqos, -⟩ := h
  have hlen : payload.length ≤ maxRemainingLength := by
    apply le_trans _ hbody
    simp [Inbound.body, publishBody]
    omega
  unfold maxRemainingLength at hlen
  have hpayloadlen : ((payload.length : ℤ) % 2 ^ 32).toNat = payload.length := by omega
  unfold casePublish respond
  rw [getClient_bind, hpublish]
  simp only [ofOption_some, pure_bind, handOver, bind_assoc, ne_eq, not_true_eq_false, if_false,
    PublishFields.message, hpayloadlen, publishData]
  have hid : Option.map UInt16.ofNat (if 0 < qos then some id.toNat else none) =
      if 0 < qos then some id else none := by
    split_ifs <;> simp
  rw [hid]
  rcases Nat.eq_zero_or_pos qos with rfl | hpos
  · simp [Inbound.reply, respondPublish]
  · obtain rfl | rfl : qos = 1 ∨ qos = 2 := by omega
    · simp [Inbound.reply, respondPublish, acknowledge]
    · simp [Inbound.reply, respondPublish, acknowledge]

theorem caseAck_eq {packetType : MsgType} {id : UInt16} {tail : List UInt8} {header : UInt8}
    {s : Session χ ω τ H} {timer : τ}
    (hbuf : s.client.readbuf = frameBytes header (intBytes id.toNat) ++ tail) :
    v.caseAck packetType timer s = v.respondAck packetType
      (if packetType = .pubrec then .pubrel else .pubcomp) id timer s := by
  have hack : mqttDeserializeAck (frameBytes header (intBytes id.toNat ++ []) ++ tail) =
      some (1, ⟨MQTTHeader.type header, MQTTHeader.dup header, some id.toNat⟩) :=
    mqttDeserializeAck_eq tail (by simp [maxRemainingLength])
  rw [List.append_nil, ← hbuf] at hack
  unfold caseAck respondAck
  rw [getClient_bind, hack]
  simp

/-- An acknowledgement is four bytes of the send buffer, if there is room for them. -/
theorem wp_sendAck {packettype : MsgType} {id : UInt16} {timer : τ}
    {Q : ℤ → Session χ ω τ H → Prop} {E : Fault → Session χ ω τ H → Prop} {s : Session χ ω τ H} :
    wp (v.sendAck packettype id timer) Q E s ↔
      (4 ≤ s.client.buf.length → wp (v.sendPacket 4 timer) Q E { s with
        client := { s.client with buf := overwrite s.client.buf 0 (ackBytes packettype id) } }) ∧
      (¬ 4 ≤ s.client.buf.length → Q failure s) := by
  have hlen := length_ackBytes packettype id
  unfold sendAck
  rw [wp_bind, wp_serialize, mqttSerializeAck_eq]
  by_cases hroom : s.client.buf.length < 4
  · have hnot : ¬ 4 ≤ s.client.buf.length := by omega
    simp [hroom, hnot, mqttpacketBufferTooShort]
  · have hsome : serialized s.client.buf (frameBytes (ackHeader packettype.code 0)
        (intBytes id.toNat)) = some (4, overwrite s.client.buf 0 (ackBytes packettype id)) :=
      serialized_eq_some_iff.mpr ⟨by rw [← ackBytes]; omega, by rw [← ackBytes, hlen]; rfl, rfl⟩
    have hle : 4 ≤ s.client.buf.length := by omega
    simp [hroom, hsome, hle]

/-- On a buffer that holds a packet the switch does what the packet asks for. -/
theorem handlePacket_eq (w : WirePacket) {tail : List UInt8} {timer : τ} {s : Session χ ω τ H}
    (hbuf : s.client.readbuf = w.frame.stored ++ tail) :
    v.handlePacket w.frame.type timer s = v.respond w.packet tail timer s := by
  have htype := w.type_frame
  have hcode := w.packet.type.code_pos
  have hwell := w.wellFormed
  change s.client.readbuf = frameBytes w.packet.header w.packet.body ++ tail at hbuf
  rw [htype]
  unfold handlePacket
  rw [if_neg (by omega), MsgType.ofCode_code]
  generalize w.packet = packet at *
  cases packet with
  | publish dup qos retained topic id payload => exact v.casePublish_eq hwell hbuf
  | pubrec id => exact v.caseAck_eq hbuf
  | pubrel id => exact v.caseAck_eq hbuf
  | connack _ _ => rfl
  | puback _ => rfl
  | pubcomp _ => rfl
  | suback _ _ => rfl
  | unsuback _ => rfl
  | pingresp => rfl

end Variant
end MqttEmbedded
