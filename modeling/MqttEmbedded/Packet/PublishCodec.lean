import MqttEmbedded.Packet.Grammar
import MqttEmbedded.Packet.SerializeBounds

/-!
# PUBLISH, encoded and decoded

A PUBLISH is a frame whose body is a topic, an identifier if its quality of service
asks for one, and a payload. The deserialiser takes such a packet apart, and what the
serialiser makes of the parts is the packet again. What is not such a packet is not
always refused.
-/

namespace MqttEmbedded

open Region

/-- The identifier as it stands in the body. -/
def idBytes : Option UInt16 → List UInt8
  | some id => intBytes id.toNat
  | none => []

/-- A PUBLISH on the wire, with its length field and the parts of its body. -/
structure PublishPacket where
  frame : WireFrame
  topic : Text
  id : Option UInt16
  payload : List UInt8
  isPublish : frame.type = MsgType.publish.code
  isSome_id : id.isSome = true ↔ 0 < MQTTHeader.qos frame.header
  body : frame.body = stringBytes topic.bytes ++ (idBytes id ++ payload)

namespace PublishPacket

variable (packet : PublishPacket)

/-- The parts, where `tail` comes after the packet in the buffer. -/
def fields (tail : List UInt8) : PublishFields where
  dup := MQTTHeader.dup packet.frame.header
  qos := MQTTHeader.qos packet.frame.header
  retained := MQTTHeader.retain packet.frame.header
  packetid := packet.id.map UInt16.toNat
  topicName := packet.topic.slice (idBytes packet.id ++ packet.payload ++ tail)
  payload := packet.payload ++ tail
  payloadlen := packet.payload.length

theorem nextText_body : nextText packet.frame.body =
    some (packet.topic, idBytes packet.id ++ packet.payload) :=
  (nextText_eq_some _ _ _).mpr packet.body

theorem readTopic (tail : List UInt8) :
    readMQTTLenString (packet.frame.bytes ++ tail) (1 + packet.frame.field.length)
        (1 + packet.frame.field.length + packet.frame.body.length) =
      some (.read (packet.topic.slice (idBytes packet.id ++ packet.payload ++ tail))
        (1 + packet.frame.field.length + 2 + packet.topic.bytes.length)) := by
  rw [readMQTTLenString_next (packet.frame.drop_body tail) rfl,
    textRead_of_some packet.nextText_body]

theorem drop_topic (tail : List UInt8) :
    (packet.frame.bytes ++ tail).drop
        (1 + packet.frame.field.length + 2 + packet.topic.bytes.length) =
      idBytes packet.id ++ (packet.payload ++ tail) := by
  rw [drop_of_nextText (packet.frame.drop_body tail) packet.nextText_body, List.append_assoc]

theorem readId (tail : List UInt8) :
    readIdIf (0 < MQTTHeader.qos packet.frame.header) (packet.frame.bytes ++ tail)
        (1 + packet.frame.field.length + 2 + packet.topic.bytes.length) =
      some (packet.id.map UInt16.toNat, 1 + packet.frame.field.length + 2 +
        packet.topic.bytes.length + (idBytes packet.id).length) := by
  have hdrop := packet.drop_topic tail
  have hsome := packet.isSome_id
  unfold readIdIf
  cases hid : packet.id with
  | none =>
    rw [hid] at hsome
    have hzero : ¬ 0 < MQTTHeader.qos packet.frame.header :=
      fun h => Bool.false_ne_true (hsome.mpr h)
    simp [hzero, idBytes]
  | some id =>
    rw [hid] at hsome hdrop
    have hpos : 0 < MQTTHeader.qos packet.frame.header := hsome.mp rfl
    have hread := readInt_eq id.toNat_lt hdrop
    simp [hpos, hread, idBytes]

end PublishPacket

theorem mqttDeserializePublish_packet (packet : PublishPacket) (tail : List UInt8) :
    mqttDeserializePublish (packet.frame.bytes ++ tail) =
      some (1, .whole (packet.fields tail)) := by
  have htype : MQTTHeader.type packet.frame.header = MsgType.publish.code := packet.isPublish
  have hbody := length_of_nextText packet.nextText_body
  rw [List.length_append] at hbody
  have hinside : ¬ 1 + packet.frame.field.length + packet.frame.body.length <
      1 + packet.frame.field.length + 2 + packet.topic.bytes.length := by omega
  have hpayload := drop_of_drop (packet.drop_topic tail)
  unfold mqttDeserializePublish
  simp only [packet.frame.head_bytes, htype, ne_eq, not_true_eq_false, if_false,
    packet.frame.decodeBuf, packet.readTopic, packet.readId, if_neg hinside, hpayload,
    Option.bind_eq_bind, Option.bind_some, Option.some.injEq, Prod.mk.injEq, true_and]
  have hlen : ((1 + packet.frame.field.length + packet.frame.body.length : ℕ) : ℤ) -
      ((1 + packet.frame.field.length + 2 + packet.topic.bytes.length +
        (idBytes packet.id).length : ℕ) : ℤ) = packet.payload.length := by
    rw [hbody]
    push_cast
    ring
  rw [hlen, PublishPacket.fields]

namespace MQTTHeader

theorem ofBits_bits (byte : UInt8) :
    ofBits (type byte) (dup byte) (qos byte) (retain byte) = byte := by
  have hlt := byte.toNat_lt
  rw [← UInt8.toNat_inj, toNat_ofBits, type, dup, qos, retain]
  omega

end MQTTHeader

theorem isSome_id_iff (dup retained : UInt8) {qos : ℕ} (packetid : UInt16) (hqos : qos ≤ 2) :
    (if 0 < qos then some packetid else none).isSome = true ↔
      0 < MQTTHeader.qos (publishHeader dup qos retained) := by
  have hmod := Nat.mod_eq_of_lt (show qos < 4 by omega)
  simp only [publishHeader, MQTTHeader.qos_ofBits, hmod]
  split_ifs with hpos
  · simp [hpos]
  · simp [hpos]

/-- The packet that the arguments of `MQTTSerialize_publish` describe. -/
def publishPacket (dup retained : UInt8) {qos : ℕ} (packetid : UInt16) {topic : List UInt8}
    {payload : List UInt8} (hqos : qos ≤ 2) (htopic : topic.length < 65536)
    (hlen : (publishBody qos packetid topic payload).length ≤ maxRemainingLength) :
    PublishPacket where
  frame := frameOf (publishHeader dup qos retained) (publishBody qos packetid topic payload) hlen
  topic := ⟨topic, htopic⟩
  id := if 0 < qos then some packetid else none
  payload := payload
  isPublish := MQTTHeader.type_ofBits_code _ _ _ _
  isSome_id := isSome_id_iff dup retained packetid hqos
  body := by
    unfold publishBody
    split_ifs
    · rfl
    · rfl

theorem publishPacket_fields {dup retained : UInt8} {qos : ℕ} {packetid : UInt16}
    {topic payload : List UInt8} (hqos : qos ≤ 2) (htopic : topic.length < 65536)
    (hlen : (publishBody qos packetid topic payload).length ≤ maxRemainingLength)
    (hdup : dup.toNat ≤ 1) (hretained : retained.toNat ≤ 1) (tail : List UInt8) :
    (publishPacket dup retained packetid hqos htopic hlen).fields tail = {
      dup := dup.toNat
      qos := qos
      retained := retained.toNat
      packetid := if 0 < qos then some packetid.toNat else none
      topicName := Text.slice ⟨topic, htopic⟩
        ((if 0 < qos then intBytes packetid.toNat else []) ++ payload ++ tail)
      payload := payload ++ tail
      payloadlen := payload.length } := by
  have hid : idBytes (if 0 < qos then some packetid else none) =
      if 0 < qos then intBytes packetid.toNat else [] := by
    split_ifs
    · rfl
    · rfl
  have hpacketid : (if 0 < qos then some packetid else none).map UInt16.toNat =
      if 0 < qos then some packetid.toNat else none := by
    split_ifs
    · rfl
    · rfl
  simp only [PublishPacket.fields, publishPacket, frameOf, publishHeader, MQTTHeader.dup_ofBits,
    MQTTHeader.qos_ofBits, MQTTHeader.retain_ofBits, hid, hpacketid,
    Nat.mod_eq_of_lt (show dup.toNat < 2 by omega), Nat.mod_eq_of_lt (show qos < 4 by omega),
    Nat.mod_eq_of_lt (show retained.toNat < 2 by omega)]

/-- The serialiser makes of the parts of a packet its body. -/
theorem PublishPacket.body_eq (packet : PublishPacket) {packetid : UInt16}
    (hid : ∀ id, packet.id = some id → packetid = id) :
    packet.frame.body = publishBody (MQTTHeader.qos packet.frame.header) packetid
      packet.topic.bytes packet.payload := by
  have hsome := packet.isSome_id
  rw [packet.body, publishBody]
  cases hcase : packet.id with
  | none =>
    rw [hcase] at hsome
    rw [if_neg fun h => Bool.false_ne_true (hsome.mpr h)]
    rfl
  | some id =>
    rw [hcase] at hsome
    rw [if_pos (hsome.mp rfl), hid id hcase]
    rfl

theorem PublishPacket.header_eq (packet : PublishPacket) :
    publishHeader (UInt8.ofNat (MQTTHeader.dup packet.frame.header))
      (MQTTHeader.qos packet.frame.header) (UInt8.ofNat (MQTTHeader.retain packet.frame.header)) =
      packet.frame.header := by
  have htype : MQTTHeader.type packet.frame.header = MsgType.publish.code := packet.isPublish
  have hdup : MQTTHeader.dup packet.frame.header < 256 := by
    unfold MQTTHeader.dup
    omega
  have hretain : MQTTHeader.retain packet.frame.header < 256 := by
    unfold MQTTHeader.retain
    omega
  rw [publishHeader, ← htype, UInt8.toNat_ofNat', UInt8.toNat_ofNat',
    Nat.mod_eq_of_lt hdup, Nat.mod_eq_of_lt hretain]
  exact MQTTHeader.ofBits_bits _

/-- What has been encoded is decoded to the same, also with something after it in the
buffer. -/
def DecodesEncoded : Prop :=
  ∀ (dup retained : UInt8) (qos : ℕ) (packetid : UInt16) (topicName : MQTTString)
    (payload buf : List UInt8) (payloadlen : ℕ),
    dup.toNat ≤ 1 → retained.toNat ≤ 1 → qos ≤ 2 → topicName.OneForm →
    mqttStrlen topicName < 65536 → payloadlen ≤ payload.length →
    mqttSerializePublishLength qos topicName payloadlen ≤ maxRemainingLength →
    mqttPacketLen (mqttSerializePublishLength qos topicName payloadlen) ≤ buf.length →
    ∃ result, mqttSerializePublish buf dup qos retained packetid topicName payload payloadlen =
      some result ∧ ∀ tail, ∃ fields,
        mqttDeserializePublish (written result ++ tail) = some (1, .whole fields) ∧
        fields.dup = dup.toNat ∧ fields.qos = qos ∧ fields.retained = retained.toNat ∧
        fields.topicName.text = topicName.text ∧ fields.payloadlen = payloadlen ∧
        fields.payload.take payloadlen = payload.take payloadlen ∧
        (0 < qos → fields.packetid = some packetid.toNat)

/-- What has been decoded is encoded to the same; the identifier matters only to a packet
that has one. -/
def EncodesDecoded : Prop :=
  ∀ (packet : PublishPacket) (tail buf : List UInt8) (packetid : UInt16),
    MQTTHeader.qos packet.frame.header ≤ 2 →
    packet.frame.field = Leb128.encode packet.frame.body.length →
    mqttPacketLen packet.frame.body.length ≤ buf.length →
    ∃ fields, mqttDeserializePublish (packet.frame.bytes ++ tail) = some (1, .whole fields) ∧
      ((∀ id, fields.packetid = some id → packetid.toNat = id) →
      ∃ result, mqttSerializePublish buf (UInt8.ofNat fields.dup) fields.qos
        (UInt8.ofNat fields.retained) packetid fields.topicName fields.payload
        fields.payloadlen.toNat = some result ∧ written result = packet.frame.bytes)

theorem decodesEncoded : DecodesEncoded := by
  intro dup retained qos packetid topicName payload buf payloadlen hdup hretained hqos htopic
    hshort hpayload hlen hroom
  have hbody : (publishBody qos packetid topicName.text (payload.take payloadlen)).length =
      mqttSerializePublishLength qos topicName payloadlen := length_publishBody htopic hpayload
  have hcall :
      mqttSerializePublish buf dup qos retained packetid topicName payload payloadlen = _ :=
    mqttSerializePublish_eq buf htopic hpayload (lt_of_le_maxRemainingLength hlen)
  obtain ⟨result, hresult, hwritten⟩ := written_of_eq hlen hbody hroom hcall
  rw [← htopic.length_text] at hshort
  rw [← hbody] at hlen
  refine ⟨result, hresult, fun tail => ?_⟩
  have hdecoded := mqttDeserializePublish_packet
    (publishPacket dup retained packetid hqos hshort hlen) tail
  have hbytes : (publishPacket dup retained packetid hqos hshort hlen).frame.bytes =
      written result := hwritten.symm
  rw [hbytes, publishPacket_fields hqos hshort hlen hdup hretained] at hdecoded
  refine ⟨_, hdecoded, rfl, rfl, rfl, Text.text_slice _ _, ?_, ?_, ?_⟩
  · simp [hpayload]
  · have hlength : payloadlen ≤ (payload.take payloadlen).length := by
      rw [List.length_take, Nat.min_eq_left hpayload]
    simp only [List.take_append_of_le_length hlength, List.take_take, Nat.min_self]
  · exact fun hpos => if_pos hpos

theorem encodesDecoded : EncodesDecoded := by
  intro packet tail buf packetid hqos hfield hroom
  refine ⟨_, mqttDeserializePublish_packet packet tail, fun hid => ?_⟩
  have hid' : ∀ id, packet.id = some id → packetid = id := by
    intro id hcase
    apply UInt16.toNat_inj.mp
    apply hid
    simp only [PublishPacket.fields, hcase, Option.map_some]
  have hbody := packet.body_eq hid'
  have htake : (packet.payload ++ tail).take packet.payload.length = packet.payload :=
    List.take_left
  have hpayload : packet.payload.length ≤ (packet.payload ++ tail).length := by
    rw [List.length_append]
    omega
  obtain ⟨topicName, htopicName⟩ : ∃ topicName, topicName =
    packet.topic.slice (idBytes packet.id ++ packet.payload ++ tail) := ⟨_, rfl⟩
  have htopic : topicName.OneForm := htopicName ▸ packet.topic.oneForm_slice _
  have htext : topicName.text = packet.topic.bytes := htopicName ▸ packet.topic.text_slice _
  have hlength : (publishBody (MQTTHeader.qos packet.frame.header) packetid topicName.text
      ((packet.payload ++ tail).take packet.payload.length)).length =
      mqttSerializePublishLength (MQTTHeader.qos packet.frame.header) topicName
        packet.payload.length := length_publishBody htopic hpayload
  rw [htext, htake, ← hbody] at hlength
  have hmax : packet.frame.body.length ≤ maxRemainingLength := by
    have hlt := packet.frame.length_body_lt
    unfold maxRemainingLength
    omega
  rw [hlength] at hmax hroom
  have hcall : mqttSerializePublish buf (UInt8.ofNat (MQTTHeader.dup packet.frame.header))
      (MQTTHeader.qos packet.frame.header) (UInt8.ofNat (MQTTHeader.retain packet.frame.header))
      packetid topicName (packet.payload ++ tail) packet.payload.length = _ :=
    mqttSerializePublish_eq buf htopic hpayload (lt_of_le_maxRemainingLength hmax)
  rw [htext, htake, ← hbody, packet.header_eq, htopicName] at hcall
  rw [htopicName] at hlength hmax hroom
  obtain ⟨result, hresult, hwritten⟩ := written_of_eq hmax hlength hroom hcall
  refine ⟨result, hresult, ?_⟩
  rw [hwritten, frameBytes, ← hfield]
  rfl

/-- Encoding and decoding a PUBLISH are inverse to each other. -/
theorem publish_inverse : DecodesEncoded ∧ EncodesDecoded := ⟨decodesEncoded, encodesDecoded⟩

/-- The call reads inside the buffer, and returns 1 exactly for a buffer that begins with
a PUBLISH, whose parts it has then stored. -/
def AcceptsPublish (buf : List UInt8) : Prop :=
  ∃ rc stored, mqttDeserializePublish buf = some (rc, stored) ∧
    (rc = 1 → ∃ (packet : PublishPacket) (tail : List UInt8),
      buf = packet.frame.bytes ++ tail ∧ stored = .whole (packet.fields tail)) ∧
    ((∃ (packet : PublishPacket) (tail : List UInt8), buf = packet.frame.bytes ++ tail) → rc = 1)

/-- `topic` is what has been read after a length field of `k` bytes. One that does not fit
is told from success by `k`; nothing else has been tested of one that does. -/
def TopicTold (buf : List UInt8) (header : UInt8) (k mylen : ℕ) : StringRead → Prop
  | .refused _ => k ≠ 1
  | .read _ curdata => k ≤ 4 ∧ 1 + k + mylen ≤ buf.length ∧
      (0 < MQTTHeader.qos header → curdata + 2 ≤ 1 + k + mylen)

/-- The buffer is not empty and, if it is a PUBLISH, holds its length field and the length
of its topic. -/
def PublishTold (buf : List UInt8) : Prop :=
  ∃ header, buf[0]? = some header ∧ (MQTTHeader.type header = MsgType.publish.code →
    ∃ k mylen topic, mqttPacketDecodeBuf buf 1 = some (k, mylen) ∧
      readMQTTLenString buf (1 + k) (1 + k + mylen) = some topic ∧
      TopicTold buf header k mylen topic)

section

variable {buf : List UInt8} {header : UInt8} {k mylen curdata : ℕ} {topicName : MQTTString}

theorem mqttDeserializePublish_other (hhead : buf[0]? = some header)
    (htype : MQTTHeader.type header ≠ MsgType.publish.code) :
    mqttDeserializePublish buf = some (0, .nothing) := by
  simp only [mqttDeserializePublish, hhead, Option.bind_eq_bind, Option.bind_some, if_pos htype]

theorem mqttDeserializePublish_unfit {len : Option ℕ} (hhead : buf[0]? = some header)
    (htype : MQTTHeader.type header = MsgType.publish.code)
    (hdecode : mqttPacketDecodeBuf buf 1 = some (k, mylen))
    (htopic : readMQTTLenString buf (1 + k) (1 + k + mylen) = some (.refused len)) :
    mqttDeserializePublish buf = some ((k : ℤ), .headerOnly (MQTTHeader.dup header)
      (MQTTHeader.qos header) (MQTTHeader.retain header) (.refused len)) := by
  simp only [mqttDeserializePublish, hhead, hdecode, htopic, htype, ne_eq, not_true_eq_false,
    if_false, Option.bind_eq_bind, Option.bind_some]

theorem exists_publishPacket (hhead : buf[0]? = some header)
    (htype : MQTTHeader.type header = MsgType.publish.code)
    (hdecode : mqttPacketDecodeBuf buf 1 = some (k, mylen))
    (htopic : readMQTTLenString buf (1 + k) (1 + k + mylen) = some (.read topicName curdata))
    (htold : TopicTold buf header k mylen (.read topicName curdata)) :
    ∃ (packet : PublishPacket) (tail : List UInt8), buf = packet.frame.bytes ++ tail := by
  obtain ⟨hk, hlen, hid⟩ := htold
  obtain ⟨frame, tail, rfl, rfl, rfl, rfl⟩ := exists_frame hhead hdecode hk hlen
  rw [readMQTTLenString_next (frame.drop_body tail) rfl] at htopic
  have htopic := Option.some.inj htopic
  cases hnext : nextText frame.body with
  | none =>
    rw [textRead_of_none hnext] at htopic
    cases htopic
  | some next =>
    obtain ⟨topic, rest⟩ := next
    rw [textRead_of_some hnext] at htopic
    obtain ⟨-, rfl⟩ := StringRead.read.inj htopic
    have hbody := (nextText_eq_some _ topic rest).mp hnext
    by_cases hpos : 0 < MQTTHeader.qos frame.header
    · have hroom := hid hpos
      have hcount := length_of_nextText hnext
      obtain ⟨id, hrest⟩ := exists_id (show 2 ≤ rest.length by omega)
      rw [hrest] at hbody
      exact ⟨⟨frame, topic, some id, rest.drop 2, htype, ⟨fun _ => hpos, fun _ => rfl⟩, hbody⟩,
        tail, rfl⟩
    · have hnone : (none : Option UInt16).isSome = true ↔ 0 < MQTTHeader.qos frame.header := by
        simpa using hpos
      exact ⟨⟨frame, topic, none, rest, htype, hnone, hbody⟩, tail, rfl⟩

theorem readMQTTLenString_le {enddata : ℕ}
    (h : readMQTTLenString buf curdata enddata = some (.read topicName k)) : k ≤ enddata := by
  unfold readMQTTLenString at h
  split_ifs at h
  · obtain ⟨len, -, h⟩ := Option.bind_eq_some_iff.mp h
    dsimp only at h
    split_ifs at h with hlen
    · obtain ⟨-, rfl⟩ := StringRead.read.inj (Option.some.inj h)
      exact hlen
    · cases Option.some.inj h
  · cases Option.some.inj h

theorem readIdIf_curdata {given : Bool} {packetid : Option ℕ}
    (h : readIdIf given buf curdata = some (packetid, k)) (hgiven : given = true) :
    k = curdata + 2 := by
  rw [readIdIf, if_pos hgiven] at h
  obtain ⟨id, -, h⟩ := Option.bind_eq_some_iff.mp h
  exact (Prod.mk.inj (Option.some.inj h)).2.symm

theorem AcceptsPublish.told (h : AcceptsPublish buf) : PublishTold buf := by
  obtain ⟨rc, fields, hresult, haccepted, -⟩ := h
  unfold mqttDeserializePublish at hresult
  obtain ⟨header, hhead, hresult⟩ := Option.bind_eq_some_iff.mp hresult
  refine ⟨header, hhead, fun htype => ?_⟩
  rw [if_neg (not_not.mpr htype)] at hresult
  obtain ⟨⟨k, mylen⟩, hdecode, hresult⟩ := Option.bind_eq_some_iff.mp hresult
  obtain ⟨topic, htopic, hresult⟩ := Option.bind_eq_some_iff.mp hresult
  refine ⟨k, mylen, topic, hdecode, htopic, ?_⟩
  cases topic with
  | refused len =>
    obtain ⟨rfl, rfl⟩ := Prod.mk.inj (Option.some.inj hresult)
    intro hone
    obtain ⟨_, _, _, hfields⟩ := haccepted (by rw [hone]; rfl)
    exact nomatch hfields
  | read topicName curdata =>
    have hle := readMQTTLenString_le htopic
    have hresult := (if_neg (not_lt.mpr hle)).symm.trans hresult
    obtain ⟨⟨packetid, curdata'⟩, hid, hresult⟩ := Option.bind_eq_some_iff.mp hresult
    obtain ⟨rfl, rfl⟩ := Prod.mk.inj (Option.some.inj hresult)
    obtain ⟨packet, tail, rfl, hfields⟩ := haccepted rfl
    rw [packet.frame.decodeBuf] at hdecode
    obtain ⟨rfl, rfl⟩ := Prod.mk.inj (Option.some.inj hdecode)
    obtain rfl : packet.frame.header = header := Option.some.inj hhead
    refine ⟨packet.frame.length_field, ?_, fun hpos => ?_⟩
    · rw [List.length_append, packet.frame.length_bytes]
      omega
    · -- the length of the payload is not below 0
      have hlen := congrArg PublishFields.payloadlen (PublishStored.whole.inj hfields)
      rw [readIdIf_curdata hid (decide_eq_true hpos)] at hlen
      simp only [PublishPacket.fields] at hlen
      omega

theorem PublishTold.accepts (h : PublishTold buf) : AcceptsPublish buf := by
  obtain ⟨header, hhead, htold⟩ := h
  by_cases htype : MQTTHeader.type header = MsgType.publish.code
  · obtain ⟨k, mylen, topic, hdecode, htopic, htold⟩ := htold htype
    cases topic with
    | refused len =>
      have hresult := mqttDeserializePublish_unfit hhead htype hdecode htopic
      refine ⟨k, _, hresult, fun hone => absurd (Int.ofNat.inj hone) htold, ?_⟩
      rintro ⟨packet, tail, rfl⟩
      rw [mqttDeserializePublish_packet] at hresult
      exact nomatch (Prod.mk.inj (Option.some.inj hresult)).2
    | read topicName curdata =>
      obtain ⟨packet, tail, rfl⟩ := exists_publishPacket hhead htype hdecode htopic htold
      exact ⟨1, _, mqttDeserializePublish_packet packet tail, fun _ => ⟨packet, tail, rfl, rfl⟩,
        fun _ => rfl⟩
  · refine ⟨0, _, mqttDeserializePublish_other hhead htype, fun h => absurd h (by decide), ?_⟩
    rintro ⟨packet, tail, rfl⟩
    obtain rfl : packet.frame.header = header := Option.some.inj hhead
    exact absurd packet.isPublish htype

end

/-- The parts of a PUBLISH are stored and everything else is refused for those buffers in
which the tests that are made tell the two apart. -/
theorem mqttDeserializePublish_accepts (buf : List UInt8) :
    AcceptsPublish buf ↔ PublishTold buf :=
  ⟨AcceptsPublish.told, PublishTold.accepts⟩

/-- A PUBLISH without a body is accepted, and neither topic nor payload is stored. -/
theorem mqttDeserializePublish_not_accepts :
    mqttDeserializePublish [0x30, 0] = some (1, .headerOnly 0 0 0 (.refused none)) ∧
      ¬ AcceptsPublish [0x30, 0] := by
  have hresult : mqttDeserializePublish [0x30, 0] =
      some (1, .headerOnly 0 0 0 (.refused none)) := rfl
  refine ⟨hresult, ?_⟩
  rintro ⟨rc, stored, hresult', haccepted, -⟩
  rw [hresult] at hresult'
  obtain ⟨rfl, rfl⟩ := Prod.mk.inj (Option.some.inj hresult')
  obtain ⟨_, _, _, hstored⟩ := haccepted rfl
  exact nomatch hstored

end MqttEmbedded
