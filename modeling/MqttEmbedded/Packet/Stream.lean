import MqttEmbedded.Packet.SerializeSession
import MqttEmbedded.Packet.Read

/-!
# Streams of packets

A serialiser call is data here, so that a list of calls of any kinds can be laid
end to end and read back. Every successful call leaves a frame of its own
packet type, and reading takes one frame at a time off the stream; the round
trip is the induction over the list.
-/

namespace MqttEmbedded

open Region Hoare

/-- A call of one of the serialisers, less the buffer it writes to. -/
inductive SerializeCall where
  | connect (options : ConnectData)
  | publish (dup : UInt8) (qos : ℕ) (retained : UInt8) (packetid : UInt16)
      (topicName : MQTTString) (payload : List UInt8) (payloadlen : ℕ)
  | subscribe (dup : UInt8) (packetid : UInt16) (topicFilters : List MQTTString)
      (requestedQoSs : List ℤ)
  | unsubscribe (dup : UInt8) (packetid : UInt16) (topicFilters : List MQTTString)
  | suback (packetid : UInt16) (grantedQoSs : List ℕ)
  | connack (connackRc sessionPresent : UInt8)
  | unsuback (packetid : UInt16)
  | ack (packettype : MsgType) (dup : UInt8) (packetid : UInt16)
  | pingreq
  | disconnect

namespace SerializeCall

def run (buf : List UInt8) : SerializeCall → Option (ℤ × List UInt8)
  | connect options => mqttSerializeConnect buf options
  | publish dup qos retained packetid topicName payload payloadlen =>
    mqttSerializePublish buf dup qos retained packetid topicName payload payloadlen
  | subscribe dup packetid topicFilters requestedQoSs =>
    mqttSerializeSubscribe buf dup packetid topicFilters requestedQoSs
  | unsubscribe dup packetid topicFilters =>
    mqttSerializeUnsubscribe buf dup packetid topicFilters
  | suback packetid grantedQoSs => mqttSerializeSuback buf packetid grantedQoSs
  | connack connackRc sessionPresent => mqttSerializeConnack buf connackRc sessionPresent
  | unsuback packetid => mqttSerializeUnsuback buf packetid
  | ack packettype dup packetid => mqttSerializeAck buf packettype.code dup packetid
  | pingreq => mqttSerializePingreq buf
  | disconnect => mqttSerializeDisconnect buf

def type : SerializeCall → MsgType
  | connect .. => .connect
  | publish .. => .publish
  | subscribe .. => .subscribe
  | unsubscribe .. => .unsubscribe
  | suback .. => .suback
  | connack .. => .connack
  | unsuback .. => .unsuback
  | ack packettype .. => packettype
  | pingreq => .pingreq
  | disconnect => .disconnect

def remainingLength : SerializeCall → ℕ
  | connect options => mqttSerializeConnectLength options
  | publish _ qos _ _ topicName _ payloadlen =>
    mqttSerializePublishLength qos topicName payloadlen
  | subscribe _ _ topicFilters _ => mqttSerializeSubscribeLength topicFilters
  | unsubscribe _ _ topicFilters => mqttSerializeUnsubscribeLength topicFilters
  | suback _ grantedQoSs => 2 + grantedQoSs.length
  | connack .. | unsuback .. | ack .. => 2
  | pingreq | disconnect => 0

/-- The arguments are what the caller has to supply: strings given once, arrays
as long as their counts, a protocol version the library knows and, for an
acknowledgement, one of the four packet types of that form. -/
def WellFormed : SerializeCall → Prop
  | connect options =>
    options.OneForm ∧ (options.mqttVersion = 3 ∨ options.mqttVersion = 4)
  | publish _ _ _ _ topicName payload payloadlen =>
    topicName.OneForm ∧ payloadlen ≤ payload.length
  | subscribe _ _ topicFilters requestedQoSs =>
    (∀ filter ∈ topicFilters, filter.OneForm) ∧ topicFilters.length ≤ requestedQoSs.length
  | unsubscribe _ _ topicFilters => ∀ filter ∈ topicFilters, filter.OneForm
  | ack packettype .. =>
    packettype = .puback ∨ packettype = .pubrec ∨ packettype = .pubrel ∨ packettype = .pubcomp
  | _ => True

def header : SerializeCall → UInt8
  | connect _ => connectHeader
  | publish dup qos retained .. => publishHeader dup qos retained
  | subscribe dup .. => subscribeHeader dup
  | unsubscribe dup .. => unsubscribeHeader dup
  | ack packettype dup _ => ackHeader packettype.code dup
  | call => MQTTHeader.ofBits call.type.code 0 0 0

def body : SerializeCall → List UInt8
  | connect options => options.body
  | publish _ qos _ packetid topicName payload payloadlen =>
    publishBody qos packetid topicName.text (payload.take payloadlen)
  | subscribe _ packetid topicFilters requestedQoSs =>
    intBytes packetid.toNat ++ subscribeEntries topicFilters requestedQoSs
  | unsubscribe _ packetid topicFilters =>
    intBytes packetid.toNat ++ unsubscribeEntries topicFilters
  | suback packetid grantedQoSs =>
    intBytes packetid.toNat ++ grantedQoSs.map fun qos => UInt8.ofNat qos
  | connack connackRc sessionPresent =>
    [UInt8.ofNat (sessionPresent.toNat % 2), connackRc]
  | unsuback packetid | ack _ _ packetid => intBytes packetid.toNat
  | pingreq | disconnect => []

/-- The length that goes into the header is the length of what follows it. -/
theorem length_body {call : SerializeCall} (h : call.WellFormed) :
    call.body.length = call.remainingLength := by
  cases call with
  | connect options => exact ConnectData.length_body h.1 h.2
  | publish dup qos retained packetid topicName payload payloadlen =>
    exact length_publishBody h.1 h.2
  | subscribe dup packetid topicFilters requestedQoSs =>
    have hentries := length_subscribeEntries topicFilters requestedQoSs 2 h.1 h.2
    simp [body, remainingLength, mqttSerializeSubscribeLength, hentries]
  | unsubscribe dup packetid topicFilters =>
    have hentries := length_unsubscribeEntries topicFilters 2 h
    simp [body, remainingLength, mqttSerializeUnsubscribeLength, hentries]
  | suback packetid grantedQoSs => simp [body, remainingLength]
  | connack | unsuback | ack | pingreq | disconnect => rfl

theorem type_header (call : SerializeCall) : MQTTHeader.type call.header = call.type.code := by
  have hcode := Nat.mod_eq_of_lt call.type.code_lt
  cases call <;> simpa [header, connectHeader, publishHeader, subscribeHeader, unsubscribeHeader,
    ackHeader, type] using hcode

/-- A call either refuses the buffer or lays down the packet's frame. -/
theorem run_eq {call : SerializeCall} (h : call.WellFormed)
    (hlen : call.remainingLength ≤ maxRemainingLength) (buf : List UInt8) :
    call.run buf = some (mqttpacketBufferTooShort, buf) ∨
      call.run buf = serialized buf (frameBytes call.header call.body) := by
  have hsmall : call.remainingLength < 2 ^ 31 :=
    hlen.trans_lt (by unfold maxRemainingLength; norm_num)
  cases call with
  | connect options =>
    rw [run, mqttSerializeConnect_eq buf h.1 h.2 hsmall]
    exact ite_eq_or_eq _ _ _
  | publish dup qos retained packetid topicName payload payloadlen =>
    rw [run, mqttSerializePublish_eq buf h.1 h.2 hsmall]
    exact ite_eq_or_eq _ _ _
  | subscribe dup packetid topicFilters requestedQoSs =>
    rw [run, mqttSerializeSubscribe_eq buf h.1 h.2 hsmall]
    exact ite_eq_or_eq _ _ _
  | unsubscribe dup packetid topicFilters =>
    rw [run, mqttSerializeUnsubscribe_eq buf h hsmall]
    exact ite_eq_or_eq _ _ _
  | suback packetid grantedQoSs =>
    rw [run, mqttSerializeSuback_eq buf hsmall]
    exact ite_eq_or_eq _ _ _
  | connack connackRc sessionPresent =>
    rw [run, mqttSerializeConnack_eq]
    exact ite_eq_or_eq _ _ _
  | unsuback packetid =>
    rw [run, mqttSerializeUnsuback_eq]
    exact ite_eq_or_eq _ _ _
  | ack packettype dup packetid =>
    rw [run, mqttSerializeAck_eq]
    exact ite_eq_or_eq _ _ _
  | pingreq =>
    rw [run, mqttSerializePingreq, mqttSerializeZero_eq]
    exact ite_eq_or_eq _ _ _
  | disconnect =>
    rw [run, mqttSerializeDisconnect, mqttSerializeZero_eq]
    exact ite_eq_or_eq _ _ _

end SerializeCall

/-- A serialiser call that succeeded, with the buffer it was given. -/
structure SuccessfulCall where
  call : SerializeCall
  wellFormed : call.WellFormed
  bounded : call.remainingLength ≤ maxRemainingLength
  buf : List UInt8
  result : ℤ × List UInt8
  ran : call.run buf = some result
  positive : 0 < result.1

namespace SuccessfulCall

def type (s : SuccessfulCall) : ℕ := s.call.type.code

def packet (s : SuccessfulCall) : List UInt8 := written s.result

def frame (s : SuccessfulCall) : Frame :=
  ⟨s.call.header, s.call.body, (SerializeCall.length_body s.wellFormed).trans_le s.bounded⟩

theorem packet_eq (s : SuccessfulCall) : s.packet = s.frame.bytes := by
  rcases SerializeCall.run_eq s.wellFormed s.bounded s.buf with h | h
  · have hpos := s.positive
    rw [s.ran, Option.some.injEq] at h
    rw [h] at hpos
    exact absurd hpos (by simp [mqttpacketBufferTooShort])
  · exact written_eq (h.symm.trans s.ran)

theorem type_eq (s : SuccessfulCall) : s.type = s.frame.type := (s.call.type_header).symm

end SuccessfulCall

/-- All the bytes asked for, or none of them and an error. -/
def exactGetfn : Getfn (List UInt8) := fun count stream =>
  if count ≤ stream.length then
    (.arrived (stream.take count) (List.length_take_le _ _), stream.drop count)
  else (.failed (-1) Delivery.error_nonpos, stream)

def exactSource : Source (List UInt8) where
  getfn := exactGetfn
  pending := id
  delivers := by
    intro count stream h
    simp only [id] at h
    simp [exactGetfn, h, Delivery.arrived]

/-- `count` calls of the reader, with the value each returned and the state it left. -/
def mqttPacketReads {σ : Type} (getfn : Getfn σ) : ℕ → Prog (Reader σ) (List (ℤ × Reader σ))
  | 0 => pure []
  | count + 1 => do
    let rc ← mqttPacketRead getfn
    let r ← get
    let later ← mqttPacketReads getfn count
    pure ((rc, r) :: later)

/-- Reading takes the packets off the stream one by one. -/
theorem mqttPacketReads_frames {σ : Type} (src : Source σ) : ∀ (frames : List Frame)
    {r : Reader σ} {rest : List UInt8},
    src.pending r.source = frames.flatMap Frame.bytes ++ rest →
    (∀ f ∈ frames, f.size ≤ r.buf.length) →
    wp (mqttPacketReads src.getfn frames.length)
      (fun log t => List.Forall₂ (fun f entry => entry.1 = f.type ∧
          entry.2.buf.take f.size = f.bytes) frames log ∧
        (∀ k (hk : k < log.length), src.pending log[k].2.source =
          (frames.drop (k + 1)).flatMap Frame.bytes ++ rest) ∧
        src.pending t.source = rest)
      (fun _ _ => False) r
  | [], r, rest, hp, _ => by
    simpa [mqttPacketReads] using hp
  | f :: frames, r, rest, hp, hroom => by
    have hf := hroom f List.mem_cons_self
    have hstream : src.pending r.source = f.header :: (Leb128.encode f.body.length ++
        (f.body ++ (frames.flatMap Frame.bytes ++ rest))) := by
      simpa [Frame.bytes, frameBytes] using hp
    rw [List.length_cons, mqttPacketReads, wp_bind]
    apply wp_imp (mqttPacketRead_packet src (Leb128.encode_field _) f.field_length_le hstream hf)
    rintro rc t ⟨hrc, hbuf, ht⟩
    have hlen : t.buf.length = r.buf.length := by
      rw [hbuf]
      exact length_overwrite (by simpa [Frame.size, Frame.bytes] using hf)
    have hlater := mqttPacketReads_frames src frames ht fun g hg =>
      hlen ▸ hroom g (List.mem_cons_of_mem _ hg)
    simp only [wp_bind, wp_get]
    apply wp_imp hlater
    rintro later u ⟨heach, hrest, hu⟩
    refine ⟨.cons ⟨hrc, ?_⟩ heach, ?_, hu⟩
    · rw [hbuf]
      exact take_overwrite_zero _ _
    · intro k hk
      cases k with
      | zero => simpa using ht
      | succ k => simpa using hrest k (by simpa using hk)

/-- Whatever was serialised is read back: the k-th call of the reader returns
the k-th packet's type, leaves its bytes in front of the buffer and stops where
the next packet begins. -/
theorem mqttPacketReads_roundTrip {σ : Type} (src : Source σ) (packets : List SuccessfulCall)
    {r : Reader σ} {rest : List UInt8}
    (hstream : src.pending r.source = packets.flatMap SuccessfulCall.packet ++ rest)
    (hroom : ∀ p ∈ packets, p.packet.length ≤ r.buf.length) :
    ∃ log t, mqttPacketReads src.getfn packets.length r = .ok log t ∧
      ∃ hlen : log.length = packets.length, ∀ k (hk : k < packets.length),
        log[k].1 = packets[k].type ∧
        log[k].2.buf.take packets[k].packet.length = packets[k].packet ∧
        src.pending log[k].2.source =
          (packets.drop (k + 1)).flatMap SuccessfulCall.packet ++ rest := by
  have hflat (l : List SuccessfulCall) : (l.map SuccessfulCall.frame).flatMap Frame.bytes =
      l.flatMap SuccessfulCall.packet := by
    simp only [List.flatMap_map, ← SuccessfulCall.packet_eq]
  have hframes : src.pending r.source =
      (packets.map SuccessfulCall.frame).flatMap Frame.bytes ++ rest := by rw [hflat, hstream]
  have hread := mqttPacketReads_frames src (packets.map SuccessfulCall.frame) hframes (by
      intro f hf
      obtain ⟨p, hp, rfl⟩ := List.mem_map.mp hf
      simpa [Frame.size, p.packet_eq] using hroom p hp)
  rw [List.length_map] at hread
  obtain ⟨log, t, hrun, heach, hrest, -⟩ := wp_total hread
  have hlen : log.length = packets.length := by simpa using heach.length_eq.symm
  refine ⟨log, t, hrun, hlen, fun k hk => ?_⟩
  obtain ⟨htype, hbuf⟩ := heach.get (by simpa using hk) (by omega)
  simp only [List.get_eq_getElem, List.getElem_map] at htype hbuf
  refine ⟨htype.trans (by rw [SuccessfulCall.type_eq]), ?_, ?_⟩
  · simpa [SuccessfulCall.packet_eq, Frame.size] using hbuf
  · have := hrest k (by omega)
    rwa [← List.map_drop, hflat] at this

def subackCall : SuccessfulCall where
  call := .suback 7 [2, 1]
  wellFormed := trivial
  bounded := by decide
  buf := List.replicate 6 0
  result := (6, [0x90, 4, 0, 7, 2, 1])
  ran := by decide
  positive := by decide

def pubrelCall : SuccessfulCall where
  call := .ack .pubrel 0 513
  wellFormed := .inr (.inr (.inl rfl))
  bounded := by decide
  buf := List.replicate 9 255
  result := (4, [0x62, 2, 2, 1, 255, 255, 255, 255, 255])
  ran := by decide
  positive := by decide

theorem mqttPacketReads_suback_pubrel :
    ∃ log t, mqttPacketReads exactSource.getfn 2
        ⟨List.replicate 6 0, [0x90, 4, 0, 7, 2, 1, 0x62, 2, 2, 1]⟩ = .ok log t ∧
      ∃ hlen : log.length = 2, ∀ k (hk : k < 2),
        log[k].1 = [subackCall, pubrelCall][k].type ∧
        log[k].2.buf.take [subackCall, pubrelCall][k].packet.length =
          [subackCall, pubrelCall][k].packet ∧
        log[k].2.source =
          ([subackCall, pubrelCall].drop (k + 1)).flatMap SuccessfulCall.packet ++ [] :=
  mqttPacketReads_roundTrip exactSource [subackCall, pubrelCall] (by decide) (by decide)

end MqttEmbedded
