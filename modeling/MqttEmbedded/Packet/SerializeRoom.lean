import MqttEmbedded.Packet.SerializeBounds
import MqttEmbedded.Packet.SerializeSession

/-!
# How much room the serialisers ask for

The room is worked out before anything is written, and not by the code that writes. At
the sizes where the length field grows the estimate is a byte above the packet; the
replies of a server count their packet two bytes short or more; and the length of a
CONNECT leaves the name of the protocol out when the version is an unknown one.
-/

namespace MqttEmbedded

open Region

/-- The bytes of a packet: the header, the length field and the remaining length. -/
def packetSize (remLen : ℕ) : ℕ := 1 + (Leb128.encode remLen).length + remLen

/-- The lengths for which a byte too many is asked for. -/
def overestimated : List ℕ := [127, 16383, 2097150, 2097151]

theorem length_encode {remLen : ℕ} (hmax : remLen ≤ maxRemainingLength) :
    (Leb128.encode remLen).length =
      if remLen < 128 then 1 else if remLen < 16384 then 2
      else if remLen < 2097152 then 3 else 4 := by
  unfold maxRemainingLength at hmax
  split_ifs with h₁ h₂ h₃
  · rw [Leb128.encode_small h₁]
    rfl
  · have hle : (Leb128.encode remLen).length ≤ 1 + 1 := Leb128.encode_length_le (by norm_num; omega)
    have hlt : 1 < (Leb128.encode remLen).length := Leb128.lt_encode_length (by norm_num; omega)
    omega
  · have hle : (Leb128.encode remLen).length ≤ 2 + 1 := Leb128.encode_length_le (by norm_num; omega)
    have hlt : 2 < (Leb128.encode remLen).length := Leb128.lt_encode_length (by norm_num; omega)
    omega
  · have hle : (Leb128.encode remLen).length ≤ 3 + 1 := Leb128.encode_length_le (by norm_num; omega)
    have hlt : 3 < (Leb128.encode remLen).length := Leb128.lt_encode_length (by norm_num; omega)
    omega

theorem mqttPacketLen_eq {remLen : ℕ} (hmax : remLen ≤ maxRemainingLength) :
    mqttPacketLen remLen =
      if remLen ∈ overestimated then packetSize remLen + 1 else packetSize remLen := by
  have hencode := length_encode hmax
  simp only [overestimated, List.mem_cons, List.not_mem_nil, or_false]
  unfold packetSize mqttPacketLen
  rw [hencode]
  dsimp only
  split_ifs <;> omega

theorem mqttPacketLen_eq_packetSize_iff {remLen : ℕ} (hmax : remLen ≤ maxRemainingLength) :
    mqttPacketLen remLen = packetSize remLen ↔ remLen ∉ overestimated := by
  rw [mqttPacketLen_eq hmax]
  split_ifs with h
  · exact iff_of_false (by omega) (not_not.mpr h)
  · exact iff_of_true rfl h

section

variable {buf bytes : List UInt8} {remLen least : ℕ} {result : Option (ℤ × List UInt8)}

/-- The buffer is refused if and only if the packet does not fit into it. -/
def RefusesOnlyShort (buf : List UInt8) (remLen : ℕ) (result : Option (ℤ × List UInt8)) : Prop :=
  (∃ buf', result = some (mqttpacketBufferTooShort, buf')) ↔ buf.length < packetSize remLen

theorem refuses_iff
    (h : result = if buf.length < least then some (mqttpacketBufferTooShort, buf)
      else serialized buf bytes) :
    (∃ buf', result = some (mqttpacketBufferTooShort, buf')) ↔ buf.length < least := by
  constructor
  · intro hrefused
    obtain ⟨buf', hbuf'⟩ := hrefused
    by_contra hroom
    rw [if_neg hroom, hbuf'] at h
    obtain ⟨-, hrc, -⟩ := serialized_eq_some_iff.mp h.symm
    have hneg : mqttpacketBufferTooShort < 0 := by decide
    omega
  · intro hshort
    rw [if_pos hshort] at h
    exact ⟨buf, h⟩

theorem refusesOnlyShort_iff (hmax : remLen ≤ maxRemainingLength)
    (h : result = if buf.length < mqttPacketLen remLen then some (mqttpacketBufferTooShort, buf)
      else serialized buf bytes) :
    RefusesOnlyShort buf remLen result ↔
      remLen ∉ overestimated ∨ buf.length ≠ packetSize remLen := by
  unfold RefusesOnlyShort
  rw [refuses_iff h, mqttPacketLen_eq hmax]
  split_ifs with hover
  · have hnot : ¬ remLen ∉ overestimated := not_not.mpr hover
    constructor
    · intro hiff
      exact .inr fun hexact => by omega
    · intro hor
      have hne := hor.resolve_left hnot
      omega
  · exact iff_of_true Iff.rfl (.inl hover)

end

/-- A buffer that is large enough is refused only if it fits a packet of one of the four
lengths exactly. -/
theorem serializers_refuseOnlyShort (buf : List UInt8) :
    (∀ remLen ≤ maxRemainingLength,
      mqttPacketLen remLen = packetSize remLen ↔ remLen ∉ overestimated) ∧
    (∀ (dup : UInt8) (qos : ℤ) (retained : UInt8) (packetid : UInt16) (topicName : MQTTString)
      (payload : List UInt8) (payloadlen remLen : ℕ), topicName.OneForm →
      payloadlen ≤ payload.length →
      remLen = mqttSerializePublishLength qos topicName payloadlen →
      remLen ≤ maxRemainingLength →
      (RefusesOnlyShort buf remLen
          (mqttSerializePublish buf dup qos retained packetid topicName payload payloadlen) ↔
        remLen ∉ overestimated ∨ buf.length ≠ packetSize remLen)) ∧
    (∀ (dup : UInt8) (packetid : UInt16) (topicFilters : List MQTTString)
      (requestedQoSs : List ℤ) (remLen : ℕ), (∀ filter ∈ topicFilters, filter.OneForm) →
      topicFilters.length ≤ requestedQoSs.length →
      remLen = mqttSerializeSubscribeLength topicFilters → remLen ≤ maxRemainingLength →
      (RefusesOnlyShort buf remLen
          (mqttSerializeSubscribe buf dup packetid topicFilters requestedQoSs) ↔
        remLen ∉ overestimated ∨ buf.length ≠ packetSize remLen)) ∧
    (∀ (dup : UInt8) (packetid : UInt16) (topicFilters : List MQTTString) (remLen : ℕ),
      (∀ filter ∈ topicFilters, filter.OneForm) →
      remLen = mqttSerializeUnsubscribeLength topicFilters → remLen ≤ maxRemainingLength →
      (RefusesOnlyShort buf remLen (mqttSerializeUnsubscribe buf dup packetid topicFilters) ↔
        remLen ∉ overestimated ∨ buf.length ≠ packetSize remLen)) ∧
    (∀ (options : ConnectData) (remLen : ℕ), options.OneForm →
      (options.mqttVersion = 3 ∨ options.mqttVersion = 4) →
      remLen = mqttSerializeConnectLength options → remLen ≤ maxRemainingLength →
      (RefusesOnlyShort buf remLen (mqttSerializeConnect buf options) ↔
        remLen ∉ overestimated ∨ buf.length ≠ packetSize remLen)) := by
  refine ⟨?_, ?_, ?_, ?_, ?_⟩
  · intro remLen hmax
    exact mqttPacketLen_eq_packetSize_iff hmax
  · intro dup qos retained packetid topicName payload payloadlen remLen htopic hpayload hlen hmax
    subst hlen
    exact refusesOnlyShort_iff hmax
      (mqttSerializePublish_toNat buf htopic hpayload (lt_of_le_maxRemainingLength hmax))
  · intro dup packetid topicFilters requestedQoSs remLen hone hqos hlen hmax
    subst hlen
    exact refusesOnlyShort_iff hmax
      (mqttSerializeSubscribe_eq buf hone hqos (lt_of_le_maxRemainingLength hmax))
  · intro dup packetid topicFilters remLen hone hlen hmax
    subst hlen
    exact refusesOnlyShort_iff hmax
      (mqttSerializeUnsubscribe_eq buf hone (lt_of_le_maxRemainingLength hmax))
  · intro options remLen hone hversion hlen hmax
    subst hlen
    exact refusesOnlyShort_iff hmax
      (mqttSerializeConnect_eq buf hone hversion (lt_of_le_maxRemainingLength hmax))

/-- A CONNECT in a buffer that fits it exactly. -/
theorem serializers_refuseOnlyShort_connect :
    RefusesOnlyShort (List.replicate 14 0) 12
      (mqttSerializeConnect (List.replicate 14 0) connectDataInitializer) :=
  ((serializers_refuseOnlyShort (List.replicate 14 0)).2.2.2.2 connectDataInitializer 12
    ⟨by decide, by decide, by decide, by decide, by decide⟩ (by decide) (by decide)
    (by decide)).mpr (by decide)

/-- A PUBLISH of 129 bytes is refused a buffer of 129 bytes. -/
theorem serializers_not_refuseOnlyShort :
    mqttPacketLen 127 ≠ packetSize 127 ∧
      ¬ RefusesOnlyShort (List.replicate 129 0) 127
        (mqttSerializePublish (List.replicate 129 0) 0 0 0 0 mqttStringInitializer
          (List.replicate 125 0) 125) := by
  constructor
  · decide
  · intro hiff
    have hrefused : mqttSerializePublish (List.replicate 129 0) 0 0 0 0 mqttStringInitializer
        (List.replicate 125 0) 125 = some (mqttpacketBufferTooShort, List.replicate 129 0) := by
      unfold mqttSerializePublish
      rw [List.length_replicate]
      exact if_pos (by decide)
    have hshort := hiff.mp ⟨_, hrefused⟩
    rw [List.length_replicate] at hshort
    exact absurd hshort (by decide)

def subackReply (packetid : UInt16) (grantedQoSs : List ℕ) : List UInt8 :=
  frameBytes (MQTTHeader.ofBits MsgType.suback.code 0 0 0)
    (intBytes packetid.toNat ++ grantedQoSs.map fun qos => UInt8.ofNat qos)

def unsubackReply (packetid : UInt16) : List UInt8 :=
  frameBytes (MQTTHeader.ofBits MsgType.unsuback.code 0 0 0) (intBytes packetid.toNat)

def connackReply (connackRc sessionPresent : UInt8) : List UInt8 :=
  frameBytes (MQTTHeader.ofBits MsgType.connack.code 0 0 0)
    [UInt8.ofNat (sessionPresent.toNat % 2), connackRc]

theorem length_subackReply (packetid : UInt16) (grantedQoSs : List ℕ) :
    (subackReply packetid grantedQoSs).length = packetSize (2 + grantedQoSs.length) := by
  have hbody : (intBytes packetid.toNat ++ grantedQoSs.map fun qos => UInt8.ofNat qos).length =
      2 + grantedQoSs.length := by
    rw [List.length_append, length_intBytes, List.length_map]
  rw [subackReply, length_frameBytes, hbody, packetSize]

/-- The buffer is refused and left as it was, or the reply is written into it. -/
def StaysInside (buf reply : List UInt8) (result : Option (ℤ × List UInt8)) : Prop :=
  result = some (mqttpacketBufferTooShort, buf) ∨ Wrote buf reply result

theorem not_staysInside_none (buf reply : List UInt8) : ¬ StaysInside buf reply none := by
  rintro (hrefused | ⟨-, hwrote⟩)
  · cases hrefused
  · cases hwrote

theorem staysInside_iff {buf reply : List UInt8} {least : ℕ} {result : Option (ℤ × List UInt8)}
    (h : result = if buf.length < least then some (mqttpacketBufferTooShort, buf)
      else serialized buf reply) :
    StaysInside buf reply result ↔ buf.length < least ∨ reply.length ≤ buf.length := by
  by_cases hshort : buf.length < least
  · rw [if_pos hshort] at h
    exact iff_of_true (.inl h) (.inl hshort)
  · rw [if_neg hshort] at h
    rw [h, StaysInside, wrote_serialized_iff]
    constructor
    · intro hinside
      refine .inr (hinside.elim (fun hrefused => ?_) id)
      exact (serialized_eq_some_iff.mp hrefused).1
    · exact fun hroom => .inr (hroom.resolve_left hshort)

/-- A reply does not leave the buffer as long as the buffer is not between the bytes that are
asked for and the bytes that are stored. -/
theorem replies_stayInside (buf : List UInt8) :
    (∀ (packetid : UInt16) (grantedQoSs : List ℕ), 2 + grantedQoSs.length < 2 ^ 31 →
      (StaysInside buf (subackReply packetid grantedQoSs)
          (mqttSerializeSuback buf packetid grantedQoSs) ↔
        buf.length < 2 + grantedQoSs.length ∨
          packetSize (2 + grantedQoSs.length) ≤ buf.length)) ∧
    (∀ packetid : UInt16,
      StaysInside buf (unsubackReply packetid) (mqttSerializeUnsuback buf packetid) ↔
        buf.length < 2 ∨ 4 ≤ buf.length) ∧
    (∀ connackRc sessionPresent : UInt8,
      StaysInside buf (connackReply connackRc sessionPresent)
          (mqttSerializeConnack buf connackRc sessionPresent) ↔
        buf.length < 2 ∨ 4 ≤ buf.length) := by
  refine ⟨?_, ?_, ?_⟩
  · intro packetid grantedQoSs hlen
    have hcall : mqttSerializeSuback buf packetid grantedQoSs =
        if buf.length < 2 + grantedQoSs.length then some (mqttpacketBufferTooShort, buf)
        else serialized buf (subackReply packetid grantedQoSs) := mqttSerializeSuback_eq buf hlen
    rw [staysInside_iff hcall, length_subackReply]
  · intro packetid
    exact staysInside_iff (mqttSerializeUnsuback_eq buf packetid)
  · intro connackRc sessionPresent
    exact staysInside_iff (mqttSerializeConnack_eq buf connackRc sessionPresent)

/-- Two codes in a buffer that has room for them. -/
theorem replies_stayInside_twoCodes :
    StaysInside (List.replicate 6 0) [0x90, 4, 0, 7, 0, 1]
      (mqttSerializeSuback (List.replicate 6 0) 7 [0, 1]) := by
  have hinside := ((replies_stayInside (List.replicate 6 0)).1 7 [0, 1] (by decide)).mpr
    (.inr (by decide))
  have hreply : subackReply 7 [0, 1] = [0x90, 4, 0, 7, 0, 1] := by decide +kernel
  rw [hreply] at hinside
  exact hinside

/-- Buffers that are as long as what is asked for, and shorter than the reply. -/
theorem replies_not_stayInside :
    ¬ StaysInside [0, 0, 0] (subackReply 7 [1]) (mqttSerializeSuback [0, 0, 0] 7 [1]) ∧
      ¬ StaysInside [0, 0] (unsubackReply 7) (mqttSerializeUnsuback [0, 0] 7) ∧
      ¬ StaysInside [0, 0, 0] (connackReply 0 1) (mqttSerializeConnack [0, 0, 0] 0 1) := by
  refine ⟨?_, ?_, ?_⟩
  · have hrun : mqttSerializeSuback [0, 0, 0] 7 [1] = none := by decide
    rw [hrun]
    exact not_staysInside_none _ _
  · have hrun : mqttSerializeUnsuback [0, 0] 7 = none := by decide
    rw [hrun]
    exact not_staysInside_none _ _
  · have hrun : mqttSerializeConnack [0, 0, 0] 0 1 = none := by decide
    rw [hrun]
    exact not_staysInside_none _ _

/-- There is an error and nothing is written, or the packet is written. -/
def WritesMeasured (buf packet : List UInt8) (result : Option (ℤ × List UInt8)) : Prop :=
  (∃ rc < 0, result = some (rc, buf)) ∨ Wrote buf packet result

/-- The number of bytes after the length field is another than the one in it. -/
theorem not_writesMeasured {buf body : List UInt8} {header : UInt8} {remLen : ℕ}
    (hbody : body.length ≠ remLen) :
    ¬ WritesMeasured buf (frameBytes header body)
      (serialized buf (header :: (Leb128.encode remLen ++ body))) := by
  intro hmeasured
  obtain ⟨rc, hneg, hresult⟩ | ⟨-, hresult⟩ := hmeasured
  · obtain ⟨-, hrc, -⟩ := serialized_eq_some_iff.mp hresult
    omega
  · obtain ⟨-, hrc, hbuf⟩ := serialized_eq_some_iff.mp hresult
    rw [overwrite_zero] at hbuf
    obtain ⟨hbytes, -⟩ := List.append_inj hbuf (by omega)
    obtain ⟨-, htail⟩ := List.cons.inj hbytes
    obtain ⟨-, hlen, -⟩ :=
      (Leb128.encode_field body.length).unique (Leb128.encode_field remLen) htail
    exact hbody hlen

/-- Nothing is wrong with a version that is measured, nor with a buffer that is refused. -/
theorem mqttSerializeConnect_writesMeasured (options : ConnectData) (hone : options.OneForm)
    (buf : List UInt8) (hbuf : buf.length ≤ maxRemainingLength) :
    WritesMeasured buf (frameBytes connectHeader options.body)
        (mqttSerializeConnect buf options) ↔
      options.mqttVersion = 3 ∨ options.mqttVersion = 4 ∨
        buf.length < mqttPacketLen (mqttSerializeConnectLength options) := by
  by_cases hshort : buf.length < mqttPacketLen (mqttSerializeConnectLength options)
  · have hresult : mqttSerializeConnect buf options = some (mqttpacketBufferTooShort, buf) :=
      if_pos hshort
    exact iff_of_true (.inl ⟨_, by decide, hresult⟩) (.inr (.inr hshort))
  · have hmax := le_maxRemainingLength hbuf hshort
    have hresult := mqttSerializeConnect_body buf hone (lt_of_le_maxRemainingLength hmax)
    rw [if_neg hshort] at hresult
    rw [hresult]
    by_cases hversion : options.mqttVersion = 3 ∨ options.mqttVersion = 4
    · have hlen := ConnectData.length_body hone hversion
      have hsize : (frameBytes connectHeader options.body).length ≤ buf.length := by
        have hle := le_mqttPacketLen hmax
        rw [length_frameBytes, hlen]
        omega
      rw [← hlen, ← frameBytes]
      exact iff_of_true (.inr ((wrote_serialized_iff _ _).mpr hsize)) (hversion.imp_right .inl)
    · have hlen := ConnectData.length_body_other hone hversion
      refine iff_of_false (not_writesMeasured (by omega)) fun hor => ?_
      exact hversion (or_assoc.mpr hor |>.resolve_right hshort)

/-- A packet with a will, a user name and a password. -/
theorem mqttSerializeConnect_writesMeasured_full :
    WritesMeasured (List.replicate 40 0)
      [0x10, 32, 0, 4, 77, 81, 84, 84, 4, 0xF4, 1, 44, 0, 2, 99, 49, 0, 3, 119, 47, 116,
        0, 2, 0, 255, 0, 2, 109, 101, 0, 3, 0, 1, 2]
      (mqttSerializeConnect (List.replicate 40 0) fullRequest) := by
  have hbuf : (List.replicate 40 (0 : UInt8)).length ≤ maxRemainingLength := by decide
  have hmeasured := (mqttSerializeConnect_writesMeasured fullRequest
    ⟨by decide, by decide, by decide, by decide, by decide⟩ (List.replicate 40 0) hbuf).mpr
    (.inr (.inl rfl))
  have hpacket : frameBytes connectHeader fullRequest.body =
      [0x10, 32, 0, 4, 77, 81, 84, 84, 4, 0xF4, 1, 44, 0, 2, 99, 49, 0, 3, 119, 47, 116,
        0, 2, 0, 255, 0, 2, 109, 101, 0, 3, 0, 1, 2] := by decide +kernel
  rw [hpacket] at hmeasured
  exact hmeasured

/-- The initial options with a version that is not measured. -/
def unmeasuredOptions : ConnectData := { connectDataInitializer with mqttVersion := 5 }

/-- Sixteen bytes go into a buffer of four. -/
theorem mqttSerializeConnect_not_writesMeasured :
    unmeasuredOptions.OneForm ∧
      ¬ WritesMeasured (List.replicate 4 0) (frameBytes connectHeader unmeasuredOptions.body)
        (mqttSerializeConnect (List.replicate 4 0) unmeasuredOptions) := by
  refine ⟨⟨by decide, by decide, by decide, by decide, by decide⟩, ?_⟩
  have hrun : mqttSerializeConnect (List.replicate 4 0) unmeasuredOptions = none := by decide
  rw [hrun]
  rintro (⟨_, -, hrefused⟩ | ⟨-, hwrote⟩)
  · cases hrefused
  · cases hwrote

end MqttEmbedded
