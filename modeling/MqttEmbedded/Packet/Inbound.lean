import MqttEmbedded.Packet.AckCodec
import MqttEmbedded.Packet.PublishCodec

/-!
# The packets a client receives

The well-formed packets of a server, in the terms of the protocol, with the
bytes they are on the wire. A packet on the wire chooses its length field, which
need not be the shortest one; in the receive buffer the field always is.
-/

namespace MqttEmbedded

open Region

inductive Inbound where
  | connack (sessionPresent : Bool) (connackRc : UInt8)
  | publish (dup : Bool) (qos : ℕ) (retained : Bool) (topic : List UInt8) (id : UInt16)
      (payload : List UInt8)
  | puback (id : UInt16)
  | pubrec (id : UInt16)
  | pubrel (id : UInt16)
  | pubcomp (id : UInt16)
  | suback (id : UInt16) (codes : List UInt8)
  | unsuback (id : UInt16)
  | pingresp
  deriving DecidableEq

namespace Inbound

def type : Inbound → MsgType
  | connack .. => .connack
  | publish .. => .publish
  | puback _ => .puback
  | pubrec _ => .pubrec
  | pubrel _ => .pubrel
  | pubcomp _ => .pubcomp
  | suback .. => .suback
  | unsuback _ => .unsuback
  | pingresp => .pingresp

/-- PUBREL carries the flags 0010. -/
def header : Inbound → UInt8
  | publish dup qos retained .. =>
    MQTTHeader.ofBits MsgType.publish.code dup.toNat qos retained.toNat
  | pubrel _ => MQTTHeader.ofBits MsgType.pubrel.code 0 1 0
  | packet => MQTTHeader.ofBits packet.type.code 0 0 0

def body : Inbound → List UInt8
  | connack sessionPresent connackRc => [UInt8.ofNat sessionPresent.toNat, connackRc]
  | publish _ qos _ topic id payload => publishBody qos id topic payload
  | puback id | pubrec id | pubrel id | pubcomp id | unsuback id => intBytes id.toNat
  | suback id codes => intBytes id.toNat ++ codes
  | pingresp => []

/-- The quality of service is one of the three and the topic's length can be written. -/
def LegalPublish : Inbound → Prop
  | publish _ qos _ topic .. => qos ≤ 2 ∧ topic.length < 65536
  | _ => True

instance : (packet : Inbound) → Decidable packet.LegalPublish
  | publish _ qos _ topic .. => inferInstanceAs (Decidable (qos ≤ 2 ∧ topic.length < 65536))
  | connack .. | puback _ | pubrec _ | pubrel _ | pubcomp _ | suback .. | unsuback _ | pingresp =>
    .isTrue trivial

def WellFormed (packet : Inbound) : Prop :=
  packet.body.length ≤ maxRemainingLength ∧ packet.LegalPublish

instance (packet : Inbound) : Decidable packet.WellFormed :=
  inferInstanceAs (Decidable (_ ∧ _))

theorem pingresp_wellFormed : pingresp.WellFormed := by decide

theorem type_header (packet : Inbound) : MQTTHeader.type packet.header = packet.type.code := by
  cases packet <;> simp [header, type, MsgType.code]

end Inbound

/-- A well-formed packet with the length field it has on the wire. -/
structure WirePacket where
  packet : Inbound
  wellFormed : packet.WellFormed
  field : List UInt8
  isField : Leb128.Field field packet.body.length
  length_field : field.length ≤ 4
  deriving DecidableEq

namespace WirePacket

def frame (w : WirePacket) : WireFrame :=
  ⟨w.packet.header, w.field, w.packet.body, w.isField, w.length_field⟩

/-- The packet with its shortest length field. -/
def ofInbound (packet : Inbound) (h : packet.WellFormed) : WirePacket where
  packet := packet
  wellFormed := h
  field := Leb128.encode packet.body.length
  isField := Leb128.encode_field _
  length_field := (Frame.mk packet.header packet.body h.1).field_length_le

end WirePacket

section

variable (tail : List UInt8)

/-- A frame that starts with an identifier gives it, whatever its type. -/
theorem mqttDeserializeAck_eq {header : UInt8} {id : UInt16} {more : List UInt8}
    (h : (intBytes id.toNat ++ more).length ≤ maxRemainingLength) :
    mqttDeserializeAck (frameBytes header (intBytes id.toNat ++ more) ++ tail) =
      some (1, ⟨MQTTHeader.type header, MQTTHeader.dup header, some id.toNat⟩) := by
  obtain ⟨high, low, hbytes, hvalue⟩ := exists_of_intBytes id.toNat id.toNat_lt
  have hbody : (frameOf header (intBytes id.toNat ++ more) h).body = high :: low :: more := by
    change intBytes id.toNat ++ more = _
    rw [hbytes]
    rfl
  have hread := mqttDeserializeAck_frame hbody tail
  rwa [hvalue] at hread

theorem mqttDeserializeConnack_frame {w : WireFrame} {high low : UInt8} {rest : List UInt8}
    (htype : w.type = MsgType.connack.code) (hbody : w.body = high :: low :: rest) :
    mqttDeserializeConnack (w.bytes ++ tail) = some (1, some (connackOf high low)) := by
  have htype' : MQTTHeader.type w.header = MsgType.connack.code := htype
  have hlong : ¬ w.body.length < 2 := by
    rw [hbody, List.length_cons, List.length_cons]
    omega
  have hdrop := w.drop_body tail
  rw [hbody] at hdrop
  have hflags := getElem?_of_drop hdrop
  have hcode := getElem?_of_drop
    (drop_of_drop (show _ = [high] ++ (low :: (rest ++ tail)) from hdrop))
  rw [List.length_singleton] at hcode
  simp only [mqttDeserializeConnack, w.head_bytes, w.decodeBuf, htype', hlong, hflags, hcode,
    ne_eq, not_true_eq_false, if_false, Option.bind_eq_bind, Option.bind_some]
  rfl

theorem mqttDeserializePublish_eq {dup retained : Bool} {qos : ℕ} {topic payload : List UInt8}
    {id : UInt16} (h : (Inbound.publish dup qos retained topic id payload).WellFormed) :
    mqttDeserializePublish (frameBytes (Inbound.publish dup qos retained topic id payload).header
      (publishBody qos id topic payload) ++ tail) = some (1, .whole {
        dup := dup.toNat
        qos := qos
        retained := retained.toNat
        packetid := if 0 < qos then some id.toNat else none
        topicName := ⟨none, ⟨topic.length,
          some (topic ++ ((if 0 < qos then intBytes id.toNat else []) ++ (payload ++ tail)))⟩⟩
        payload := payload ++ tail
        payloadlen := payload.length }) := by
  obtain ⟨hlen, hqos, htopic⟩ := h
  have hread := mqttDeserializePublish_packet
    (publishPacket (UInt8.ofNat dup.toNat) (UInt8.ofNat retained.toNat) id hqos htopic hlen) tail
  have hbit (b : Bool) : (UInt8.ofNat b.toNat).toNat = b.toNat := by cases b <;> rfl
  have hle (b : Bool) : (UInt8.ofNat b.toNat).toNat ≤ 1 := (hbit b).trans_le (Bool.toNat_le b)
  have hheader : (Inbound.publish dup qos retained topic id payload).header =
      publishHeader (UInt8.ofNat dup.toNat) qos (UInt8.ofNat retained.toNat) := by
    rw [publishHeader, hbit, hbit]
    rfl
  rw [publishPacket_fields hqos htopic hlen (hle dup) (hle retained), hbit, hbit,
    List.append_assoc] at hread
  rw [hheader]
  exact hread

end
end MqttEmbedded
