import MqttEmbedded.Client.Duty
import MqttEmbedded.Lib.Channels

/-!
# A conforming broker

The broker takes the packets of the client in their order and owes one answer
for each request. It reads a request with the deserialisers of the repository.
Its own PUBLISH, PUBREL and PINGRESP may come at any point.
-/

namespace MqttEmbedded

/-- What answers a request. -/
inductive Ack where
  | connack
  | puback (id : UInt16)
  | pubrec (id : UInt16)
  | pubcomp (id : UInt16)
  | suback (id : UInt16)
  | unsuback (id : UInt16)
  deriving DecidableEq

namespace Ack

def type : Ack → MsgType
  | connack => .connack
  | puback _ => .puback
  | pubrec _ => .pubrec
  | pubcomp _ => .pubcomp
  | suback _ => .suback
  | unsuback _ => .unsuback

/-- The type of the answer that ends the exchange. -/
def final : Ack → MsgType
  | pubrec _ => .pubcomp
  | a => a.type

theorem exists_type_eq_final (a : Ack) : ∃ b : Ack, b.type = a.final := by
  cases a with
  | pubrec id => exact ⟨.pubcomp id, rfl⟩
  | connack => exact ⟨.connack, rfl⟩
  | puback id => exact ⟨.puback id, rfl⟩
  | pubcomp id => exact ⟨.pubcomp id, rfl⟩
  | suback id => exact ⟨.suback id, rfl⟩
  | unsuback id => exact ⟨.unsuback id, rfl⟩

end Ack

namespace Inbound

/-- What a packet answers; the others are the broker's own. -/
def ack : Inbound → Option Ack
  | connack .. => some .connack
  | puback id => some (.puback id)
  | pubrec id => some (.pubrec id)
  | pubcomp id => some (.pubcomp id)
  | suback id _ => some (.suback id)
  | unsuback id => some (.unsuback id)
  | publish .. | pubrel _ | pingresp => none

theorem ack_of_type {packet : Inbound} {a : Ack} (h : packet.type = a.type) :
    ∃ b, packet.ack = some b ∧ b.type = a.type := by
  cases packet with
  | publish | pubrel | pingresp => cases a <;> cases h
  | connack | puback | pubrec | pubcomp | suback | unsuback => exact ⟨_, rfl, h⟩

end Inbound

/-- The identifier that a packet starts with. -/
def packetidOf (bytes : List UInt8) : Option UInt16 := do
  let result ← mqttDeserializeAck bytes
  let packetid ← result.2.packetid
  some (UInt16.ofNat packetid)

def publishAnswer (bytes : List UInt8) : Option Ack := do
  match ← mqttDeserializePublish bytes with
  | (_, .whole fields) =>
    let packetid ← fields.packetid
    if fields.qos = 1 then some (.puback (UInt16.ofNat packetid))
    else if fields.qos = 2 then some (.pubrec (UInt16.ofNat packetid))
    else none
  | _ => none

def answerOfType (packetType : MsgType) (bytes : List UInt8) : Option Ack :=
  match packetType with
  | .connect => some .connack
  | .publish => publishAnswer bytes
  | .pubrel => (packetidOf bytes).map .pubcomp
  | .subscribe => (packetidOf bytes).map .suback
  | .unsubscribe => (packetidOf bytes).map .unsuback
  | _ => none

/-- The answer a packet of the client asks for. -/
def answerTo (bytes : List UInt8) : Option Ack :=
  (MsgType.ofCode (MQTTHeader.type (bytes.headD 0))).bind fun packetType =>
    answerOfType packetType bytes

theorem answerTo_frameBytes {header : UInt8} {packetType : MsgType}
    (h : MQTTHeader.type header = packetType.code) (body : List UInt8) :
    answerTo (frameBytes header body) = answerOfType packetType (frameBytes header body) := by
  change (MsgType.ofCode (MQTTHeader.type header)).bind _ = _
  rw [h, MsgType.ofCode_code, Option.bind_some]

theorem packetidOf_frameBytes {header : UInt8} {id : UInt16} {more : List UInt8}
    (h : (intBytes id.toNat ++ more).length ≤ maxRemainingLength) :
    packetidOf (frameBytes header (intBytes id.toNat ++ more)) = some id := by
  have hack : mqttDeserializeAck (frameBytes header (intBytes id.toNat ++ more) ++ []) =
      some (1, ⟨MQTTHeader.type header, MQTTHeader.dup header, some id.toNat⟩) :=
    mqttDeserializeAck_eq [] h
  rw [List.append_nil] at hack
  simp [packetidOf, hack]

theorem type_ackHeader (packetType : MsgType) (dup : UInt8) :
    MQTTHeader.type (ackHeader packetType.code dup) = packetType.code := by
  rw [ackHeader, MQTTHeader.type_ofBits, Nat.mod_eq_of_lt packetType.code_lt]

/-- Of the acknowledgements a client sends, the PUBREL asks for an answer. -/
theorem answerTo_ackBytes (packetType : MsgType) (id : UInt16)
    (h : packetType = .puback ∨ packetType = .pubrec ∨ packetType = .pubcomp) :
    answerTo (ackBytes packetType id) = none := by
  unfold ackBytes
  rw [answerTo_frameBytes (type_ackHeader packetType 0)]
  rcases h with rfl | rfl | rfl <;> rfl

theorem answerTo_pubrel (id : UInt16) : answerTo (ackBytes .pubrel id) = some (.pubcomp id) := by
  have hid : packetidOf (frameBytes (ackHeader MsgType.pubrel.code 0) (intBytes id.toNat ++ [])) =
      some id := packetidOf_frameBytes (by simp [maxRemainingLength])
  rw [List.append_nil] at hid
  unfold ackBytes
  rw [answerTo_frameBytes (type_ackHeader .pubrel 0), answerOfType, hid]
  rfl

theorem answerTo_pingBytes : answerTo pingBytes = none := by
  decide

def mqtt : Protocol (List UInt8) WirePacket Ack where
  answerTo := answerTo
  answerOf := fun w => w.packet.ack

/-- What the broker notes in the trace. -/
inductive BrokerStep where
  | took (bytes : List UInt8)
  | answered (w : WirePacket)
  | published (w : WirePacket)

namespace BrokerStep

def step : BrokerStep → Protocol.Step (List UInt8) WirePacket
  | took bytes => .take bytes
  | answered w => .answer w
  | published w => .send w

theorem byServer_step (b : BrokerStep) : b.step.byServer := by
  cases b <;> trivial

end BrokerStep

variable {H : Type}

/-- The steps of the network in a trace. -/
def networkSteps (trace : List (Event H BrokerStep)) :
    List (Protocol.Step (List UInt8) WirePacket) :=
  trace.filterMap fun
    | .received w => some (.deliver w)
    | .sent bytes => some (.post bytes)
    | .called _ _ => none
    | .renewed => some .renew
    | .note b => some b.step

theorem networkSteps_append (evs evs' : List (Event H BrokerStep)) :
    networkSteps (evs ++ evs') = networkSteps evs ++ networkSteps evs' :=
  List.filterMap_append

/-- The network and the broker can behave as the trace has it. -/
def Conforms (trace : List (Event H BrokerStep)) : Prop :=
  (mqtt.run .fresh (networkSteps trace)).isSome

instance (trace : List (Event H BrokerStep)) : Decidable (Conforms trace) :=
  inferInstanceAs (Decidable (_ = true))

/-- The packets the broker has taken, in their order. -/
def takenPackets (trace : List (Event H BrokerStep)) : List (List UInt8) :=
  trace.filterMap fun
    | .note (.took bytes) => some bytes
    | _ => none

/-- The acknowledgements that were received. -/
def receivedAcks (trace : List (Event H BrokerStep)) : List Ack :=
  (receivedPackets trace).filterMap fun w => w.packet.ack

theorem receivedAcks_getLast? {trace : List (Event H BrokerStep)} {packetType : MsgType}
    (h : LastReceived trace packetType.code) {a : Ack} (ha : a.type = packetType) :
    ∃ b, (receivedAcks trace).getLast? = some b ∧ b.type = packetType := by
  obtain ⟨w, hlast, htype⟩ := h
  obtain ⟨before, hpackets⟩ := List.getLast?_eq_some_iff.mp hlast
  have hcode : w.packet.type = a.type := by
    rw [ha]
    exact MsgType.code_injective (by exact_mod_cast htype)
  obtain ⟨b, hb, hbtype⟩ := Inbound.ack_of_type hcode
  refine ⟨b, ?_, hbtype.trans ha⟩
  simp [receivedAcks, hpackets, hb]

/-- Those packets that ask for an answer. -/
def requests (packets : List (List UInt8)) : List (List UInt8) :=
  packets.filter fun bytes => (answerTo bytes).isSome

theorem outstanding_sent {net net' : Protocol.Net (List UInt8) WirePacket Ack} {bytes : List UInt8}
    (h : mqtt.step net (.post bytes) = some net') :
    mqtt.outstanding net' = mqtt.outstanding net ++ (answerTo bytes).toList :=
  Protocol.outstanding_post h

theorem requests_none {bytes : List UInt8} (h : answerTo bytes = none) : requests [bytes] = [] := by
  simp [requests, h]

theorem requests_some {bytes : List UInt8} {a : Ack} (h : answerTo bytes = some a) :
    requests [bytes] = [bytes] := by
  simp [requests, h]

theorem requests_cons (bytes : List UInt8) (packets : List (List UInt8)) :
    requests (bytes :: packets) = requests [bytes] ++ requests packets := by
  simp [requests, List.filter_cons]
  split_ifs <;> rfl

theorem receivedAcks_cons (w : WirePacket) (evs : List (Event H BrokerStep)) :
    receivedAcks (.received w :: evs) = w.packet.ack.toList ++ receivedAcks evs := by
  cases hack : w.packet.ack <;> simp [receivedAcks, hack]

theorem posted_networkSteps (evs : List (Event H BrokerStep)) :
    (networkSteps evs).flatMap Protocol.posted = sentPackets evs := by
  induction evs with
  | nil => rfl
  | cons e evs ih =>
    cases e with
    | sent bytes => exact congrArg (bytes :: ·) ih
    | note b =>
      cases b with
      | took _ => exact ih
      | answered _ => exact ih
      | published _ => exact ih
    | received _ => exact ih
    | called _ _ => exact ih
    | renewed => exact ih

theorem taken_networkSteps (evs : List (Event H BrokerStep)) :
    (networkSteps evs).flatMap Protocol.taken = takenPackets evs := by
  induction evs with
  | nil => rfl
  | cons e evs ih =>
    cases e with
    | note b =>
      cases b with
      | took bytes => exact congrArg (bytes :: ·) ih
      | answered _ => exact ih
      | published _ => exact ih
    | sent _ => exact ih
    | received _ => exact ih
    | called _ _ => exact ih
    | renewed => exact ih

/-- When nothing is outstanding before and after, the broker has taken the requests
that were sent. -/
theorem requests_takenPackets {net net' : Protocol.Net (List UInt8) WirePacket Ack}
    {evs : List (Event H BrokerStep)} (hrun : mqtt.run net (networkSteps evs) = some net')
    (hsteps : Event.renewed ∉ evs) (hnet : mqtt.outstanding net = [])
    (hnet' : mqtt.outstanding net' = []) :
    requests (takenPackets evs) = requests (sentPackets evs) := by
  have hnone {net : Protocol.Net (List UInt8) WirePacket Ack} (h : mqtt.outstanding net = []) :
      requests net.toServer = [] := by
    have hserver : net.toServer.filterMap answerTo = [] :=
      (List.append_eq_nil_iff.mp (List.append_eq_nil_iff.mp h).2).2
    rw [List.filterMap_eq_nil_iff] at hserver
    refine List.filter_eq_nil_iff.mpr fun bytes hbytes => ?_
    rw [hserver bytes hbytes]
    simp
  have hrenew : ∀ e ∈ networkSteps evs, e ≠ .renew := by
    intro e he hrenew
    subst hrenew
    obtain ⟨ev, hev, hstep⟩ := List.mem_filterMap.mp he
    cases ev with
    | renewed => exact hsteps hev
    | note b => cases b <;> cases hstep
    | sent _ | received _ | called _ _ => cases hstep
  have hfifo := congrArg requests (Protocol.run_toServer hrun hrenew)
  rw [posted_networkSteps, taken_networkSteps] at hfifo
  simp only [requests, List.filter_append] at hfifo
  have hbefore := hnone hnet
  have hafter := hnone hnet'
  simp only [requests] at hbefore hafter
  rw [hbefore, hafter, List.nil_append, List.append_nil] at hfifo
  exact hfifo.symm

end MqttEmbedded
