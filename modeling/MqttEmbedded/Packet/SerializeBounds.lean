import MqttEmbedded.Packet.Serialize

/-!
# The serialisers stay inside the buffer

Nothing is tested while a packet is written: the room is estimated beforehand, from
lengths that are added up apart from the writing. The estimate is never too small, so
a packet is laid down whole or not at all.
-/

namespace MqttEmbedded

open Region

/-- The buffer holds the packet from its start on, what comes after the packet is as it
was, and the length of the packet is returned. -/
def Wrote (buf packet : List UInt8) (result : Option (ℤ × List UInt8)) : Prop :=
  packet.length ≤ buf.length ∧
    result = some ((packet.length : ℤ), packet ++ buf.drop packet.length)

theorem wrote_serialized_iff (buf packet : List UInt8) :
    Wrote buf packet (serialized buf packet) ↔ packet.length ≤ buf.length := by
  constructor
  · exact And.left
  · intro hroom
    refine ⟨hroom, ?_⟩
    rw [serialized_eq_some_iff.mpr ⟨hroom, rfl, rfl⟩, overwrite_zero]

/-- The buffer is refused and left as it was, or the packet is written, a header byte, the
length field and what that counts. -/
def LaysDown (buf packet : List UInt8) (remLen : ℕ) (result : Option (ℤ × List UInt8)) : Prop :=
  result = some (mqttpacketBufferTooShort, buf) ∨
    packet.length = 1 + (Leb128.encode remLen).length + remLen ∧ 0 < packet.length ∧
      Wrote buf packet result

section

variable {buf body : List UInt8} {header : UInt8} {remLen : ℕ} {result : Option (ℤ × List UInt8)}

theorem length_frameBytes (header : UInt8) (body : List UInt8) :
    (frameBytes header body).length =
      1 + (Leb128.encode body.length).length + body.length := by
  simp [frameBytes]
  omega

theorem le_maxRemainingLength (hbuf : buf.length ≤ maxRemainingLength)
    (hroom : ¬ buf.length < mqttPacketLen remLen) : remLen ≤ maxRemainingLength := by
  have hle : remLen ≤ mqttPacketLen remLen := by
    unfold mqttPacketLen
    dsimp only
    split_ifs <;> omega
  omega

theorem laysDown_of_eq (hbuf : buf.length ≤ maxRemainingLength) (hbody : body.length = remLen)
    (h : result = if buf.length < mqttPacketLen remLen then some (mqttpacketBufferTooShort, buf)
      else serialized buf (frameBytes header body)) :
    LaysDown buf (frameBytes header body) remLen result := by
  split_ifs at h with hshort
  · exact .inl h
  · have hmax := le_maxRemainingLength hbuf hshort
    have hlen := length_frameBytes header body
    rw [hbody] at hlen
    have hroom : (frameBytes header body).length ≤ buf.length := by
      have hle := le_mqttPacketLen hmax
      omega
    exact .inr ⟨hlen, by omega, h ▸ (wrote_serialized_iff _ _).mpr hroom⟩

theorem written_of_eq (hmax : remLen ≤ maxRemainingLength) (hbody : body.length = remLen)
    (hroom : mqttPacketLen remLen ≤ buf.length)
    (h : result = if buf.length < mqttPacketLen remLen then some (mqttpacketBufferTooShort, buf)
      else serialized buf (frameBytes header body)) :
    ∃ packet, result = some packet ∧ written packet = frameBytes header body := by
  have hle := le_mqttPacketLen hmax
  have hlen := length_frameBytes header body
  rw [hbody] at hlen
  have hserialized : serialized buf (frameBytes header body) =
      some (((frameBytes header body).length : ℤ), overwrite buf 0 (frameBytes header body)) :=
    serialized_eq_some_iff.mpr ⟨by omega, rfl, rfl⟩
  rw [if_neg (not_lt.mpr hroom), hserialized] at h
  exact ⟨_, h, written_eq hserialized⟩

theorem lt_of_mqttPacketLen_lt (h : mqttPacketLen remLen < 2 ^ 31) : remLen < 2 ^ 31 := by
  unfold mqttPacketLen at h
  dsimp only at h
  split_ifs at h <;> omega

end

/-- Whatever the arguments are, as long as every string is given once and the lengths add
up within an `int`. -/
theorem serializers_layDown (buf : List UInt8) (hbuf : buf.length ≤ maxRemainingLength) :
    (∀ (dup : UInt8) (qos : ℤ) (retained : UInt8) (packetid : UInt16) (topicName : MQTTString)
      (payload : List UInt8) (payloadlen : ℕ), topicName.OneForm → payloadlen ≤ payload.length →
      mqttPacketLen (mqttSerializePublishLength qos topicName payloadlen) < 2 ^ 31 →
      LaysDown buf
        (frameBytes (publishHeader dup (qos % 4).toNat retained)
          (publishBody qos.toNat packetid topicName.text (payload.take payloadlen)))
        (mqttSerializePublishLength qos topicName payloadlen)
        (mqttSerializePublish buf dup qos retained packetid topicName payload payloadlen)) ∧
    (∀ (dup : UInt8) (packetid : UInt16) (topicFilters : List MQTTString)
      (requestedQoSs : List ℤ), (∀ filter ∈ topicFilters, filter.OneForm) →
      requestedQoSs.length = topicFilters.length →
      mqttPacketLen (mqttSerializeSubscribeLength topicFilters) < 2 ^ 31 →
      LaysDown buf
        (frameBytes (subscribeHeader dup)
          (intBytes packetid.toNat ++ subscribeEntries topicFilters requestedQoSs))
        (mqttSerializeSubscribeLength topicFilters)
        (mqttSerializeSubscribe buf dup packetid topicFilters requestedQoSs)) ∧
    (∀ (dup : UInt8) (packetid : UInt16) (topicFilters : List MQTTString),
      (∀ filter ∈ topicFilters, filter.OneForm) →
      mqttPacketLen (mqttSerializeUnsubscribeLength topicFilters) < 2 ^ 31 →
      LaysDown buf
        (frameBytes (unsubscribeHeader dup)
          (intBytes packetid.toNat ++ unsubscribeEntries topicFilters))
        (mqttSerializeUnsubscribeLength topicFilters)
        (mqttSerializeUnsubscribe buf dup packetid topicFilters)) := by
  refine ⟨?_, ?_, ?_⟩
  · intro dup qos retained packetid topicName payload payloadlen htopic hpayload hlen
    exact laysDown_of_eq hbuf (length_publishBody_toNat htopic hpayload)
      (mqttSerializePublish_toNat buf htopic hpayload (lt_of_mqttPacketLen_lt hlen))
  · intro dup packetid topicFilters requestedQoSs hone hqos hlen
    refine laysDown_of_eq hbuf ?_
      (mqttSerializeSubscribe_eq buf hone hqos.ge (lt_of_mqttPacketLen_lt hlen))
    rw [List.length_append, length_intBytes]
    exact (length_subscribeEntries topicFilters requestedQoSs 2 hone hqos.ge).symm
  · intro dup packetid topicFilters hone hlen
    refine laysDown_of_eq hbuf ?_
      (mqttSerializeUnsubscribe_eq buf hone (lt_of_mqttPacketLen_lt hlen))
    rw [List.length_append, length_intBytes]
    exact (length_unsubscribeEntries topicFilters 2 hone).symm

/-- A filter that ends in a zero byte, and one whose length is given. -/
def filtersOfBothForms : List MQTTString :=
  [MQTTString.ofCString ⟨[97], by decide⟩, ⟨none, ⟨3, some [98, 99, 100, 101]⟩⟩]

/-- Two filters in a buffer that has room for them. -/
theorem serializers_layDown_twoFilters :
    LaysDown (List.replicate 16 0) [0xA2, 10, 0, 7, 0, 1, 97, 0, 3, 98, 99, 100] 10
      (mqttSerializeUnsubscribe (List.replicate 16 0) 0 7 filtersOfBothForms) := by
  have hbuf : (List.replicate 16 (0 : UInt8)).length ≤ maxRemainingLength := by decide
  have hlaid := (serializers_layDown (List.replicate 16 0) hbuf).2.2 0 7 filtersOfBothForms
    (by decide) (by decide)
  have hpacket : frameBytes (unsubscribeHeader 0)
      (intBytes (7 : UInt16).toNat ++ unsubscribeEntries filtersOfBothForms) =
      [0xA2, 10, 0, 7, 0, 1, 97, 0, 3, 98, 99, 100] := by decide +kernel
  rw [hpacket] at hlaid
  exact hlaid

end MqttEmbedded
