import MqttEmbedded.Packet.FirstByte
import MqttEmbedded.Packet.SerializeBounds

/-!
# Strings that are too long for their prefix

A string goes out with its length in two bytes, and a packet with its length in a field that
four bytes are allowed for. The two writers take any number; all that a serialiser tests is
the room in the buffer. A packet that the format has no form for is therefore refused exactly
when the buffer is too short for it.
-/

namespace MqttEmbedded

open Region

/-- The bytes that `writeMQTTString` copies: the length-delimited ones if there are any. -/
def MQTTString.copied (s : MQTTString) : List UInt8 :=
  if 0 < s.lenstring.len then (s.lenstring.data.getD []).take s.lenstring.len
  else match s.cstring with
    | some c => c.bytes
    | none => []

theorem MQTTString.copied_of_empty {s : MQTTString} (h : s.lenstring.len = 0) :
    s.copied = s.text := by
  cases hc : s.cstring with
  | some c => simp [copied, text, hc, h]
  | none => simp [copied, text, hc, h]

theorem writeMQTTString_copied {s : MQTTString}
    (h : s.lenstring.len ≤ (s.lenstring.data.getD []).length) (ptr : Ptr) :
    writeMQTTString s ptr = ptr.put (stringBytes s.copied) := by
  by_cases hlen : 0 < s.lenstring.len
  · have hone : MQTTString.OneForm ⟨none, s.lenstring⟩ := ⟨fun hc => by simp at hc, h⟩
    have hforget : writeMQTTString s ptr = writeMQTTString ⟨none, s.lenstring⟩ ptr := by
      simp only [writeMQTTString, if_pos hlen]
    have hcopied : s.copied = MQTTString.text ⟨none, s.lenstring⟩ := if_pos hlen
    rw [hforget, writeMQTTString_eq hone, hcopied]
  · have hone : s.OneForm := ⟨fun _ => Nat.eq_zero_of_not_pos hlen, h⟩
    rw [writeMQTTString_eq hone, MQTTString.copied_of_empty (Nat.eq_zero_of_not_pos hlen)]

/-- There is a result only if the bytes can be read. -/
theorem readable_of_writeMQTTString {s : MQTTString} {ptr ptr' : Ptr}
    (h : writeMQTTString s ptr = some ptr') :
    s.lenstring.len ≤ (s.lenstring.data.getD []).length := by
  by_cases hlen : 0 < s.lenstring.len
  · rw [writeMQTTString, if_pos hlen] at h
    obtain ⟨ptr₁, -, h⟩ := Option.bind_eq_some_iff.mp h
    obtain ⟨data, hdata, h⟩ := Option.bind_eq_some_iff.mp h
    obtain ⟨bytes, hread, -⟩ := Option.bind_eq_some_iff.mp h
    unfold Region.read at hread
    split_ifs at hread with hle
    rw [hdata, Option.getD_some]
    omega
  · omega

theorem intBytes_value (n : ℕ) :
    256 * (UInt8.ofNat (n / 256)).toNat + (UInt8.ofNat (n % 256)).toNat = n % 65536 := by
  rw [UInt8.toNat_ofNat', UInt8.toNat_ofNat']
  omega

/-- The prefix and the bytes after it go together up to 65535 bytes, and no further. -/
theorem writeMQTTString_prefix {s : MQTTString} {ptr ptr' : Ptr}
    (h : writeMQTTString s ptr = some ptr') :
    ∃ high low : UInt8, ptr.put (high :: low :: s.copied) = some ptr' ∧
      (256 * high.toNat + low.toNat = s.copied.length ↔ s.copied.length ≤ 65535) := by
  rw [writeMQTTString_copied (readable_of_writeMQTTString h)] at h
  refine ⟨_, _, h, ?_⟩
  rw [intBytes_value]
  omega

/-- In one of its forms the string has more bytes than two bytes can count. -/
def MQTTString.Long (s : MQTTString) : Prop :=
  65535 < s.lenstring.len ∨ ∃ c, s.cstring = some c ∧ 65535 < strlen c

theorem MQTTString.length_copied_le {s : MQTTString} (h : ¬ s.Long) :
    s.copied.length ≤ 65535 := by
  obtain ⟨hlen, hc⟩ := not_or.mp h
  unfold MQTTString.copied
  split_ifs
  · rw [List.length_take]
    omega
  · cases hs : s.cstring with
    | none => exact Nat.zero_le _
    | some c => exact not_lt.mp fun hlong => hc ⟨c, hs, hlong⟩

/-- There is no packet with these strings and this remaining length. -/
def Unrepresentable (strings : List MQTTString) (remLen : ℕ) : Prop :=
  (∃ s ∈ strings, s.Long) ∨ maxRemainingLength < remLen

/-- The lengths are added up in an `int`; a sum that leaves it has no meaning. -/
def addedUp (remLen : ℕ) (result : Option (ℤ × List UInt8)) : Option (ℤ × List UInt8) :=
  if mqttPacketLen remLen < 2 ^ 31 then result else none

/-- The call returns 0 or less, and the buffer is as it was. -/
def Refused (buf : List UInt8) (result : Option (ℤ × List UInt8)) : Prop :=
  ∃ rc ≤ 0, result = some (rc, buf)

def RefusesUnrepresentable (strings : List MQTTString) (remLen : ℕ) (buf : List UInt8)
    (result : Option (ℤ × List UInt8)) : Prop :=
  Unrepresentable strings remLen → Refused buf (addedUp remLen result)

/-- There is a packet for it, or the buffer is too short for what has been added up. -/
def HasFormOrNoRoom (strings : List MQTTString) (remLen : ℕ) (buf : List UInt8) : Prop :=
  ¬ Unrepresentable strings remLen ∨
    mqttPacketLen remLen < 2 ^ 31 ∧ buf.length < mqttPacketLen remLen

namespace Serializes

variable {header : UInt8} {remLen : ℕ} {f : List UInt8 → Option (ℤ × List UInt8)}

/-- Once a serialiser has begun to write, it returns the number of bytes that it has written. -/
theorem refused_iff (hf : Serializes header (mqttPacketLen remLen) f) (buf : List UInt8) :
    Refused buf (addedUp remLen (f buf)) ↔
      mqttPacketLen remLen < 2 ^ 31 ∧ buf.length < mqttPacketLen remLen := by
  obtain ⟨k, hk, heq⟩ := hf
  unfold addedUp
  by_cases hint : mqttPacketLen remLen < 2 ^ 31
  · rw [if_pos hint, heq]
    by_cases hshort : buf.length < mqttPacketLen remLen
    · rw [if_pos hshort]
      exact ⟨fun _ => ⟨hint, hshort⟩, fun _ => ⟨mqttpacketBufferTooShort, by decide, rfl⟩⟩
    · rw [if_neg hshort]
      constructor
      · intro h
        obtain ⟨rc, hrc, hresult⟩ := h
        obtain ⟨bytes, ptr', hput, rfl, -⟩ := put_header hk hresult
        obtain ⟨-, -, hposition⟩ := Cursor.put_eq_some_iff.mp hput
        rw [List.length_cons] at hposition
        omega
      · exact fun h => absurd h.2 hshort
  · rw [if_neg hint]
    constructor
    · intro h
      obtain ⟨rc, -, hresult⟩ := h
      cases hresult
    · exact fun h => absurd h.1 hint

theorem refusesUnrepresentable_iff (hf : Serializes header (mqttPacketLen remLen) f)
    (strings : List MQTTString) (buf : List UInt8) :
    RefusesUnrepresentable strings remLen buf (f buf) ↔ HasFormOrNoRoom strings remLen buf := by
  rw [RefusesUnrepresentable, HasFormOrNoRoom, hf.refused_iff, imp_iff_not_or]

end Serializes

/-- The strings that the packet carries. -/
def ConnectData.strings (options : ConnectData) : List MQTTString :=
  [options.clientID] ++
    (if options.willFlag ≠ 0 then [options.will.topicName, options.will.message] else []) ++
    (if options.username.Given then [options.username] else []) ++
    (if options.password.Given then [options.password] else [])

/-- A call refuses what the format has no form for if and only if the sum of the lengths is an
`int` and larger than the buffer. What it writes for a string has the right prefix if and only
if the string has at most 65535 bytes. -/
theorem serializers_refuseUnrepresentable (buf : List UInt8) :
    (∀ (dup : UInt8) (qos : ℤ) (retained : UInt8) (packetid : UInt16) (topicName : MQTTString)
      (payload : List UInt8) (payloadlen : ℕ),
      RefusesUnrepresentable [topicName] (mqttSerializePublishLength qos topicName payloadlen) buf
        (mqttSerializePublish buf dup qos retained packetid topicName payload payloadlen) ↔
      HasFormOrNoRoom [topicName] (mqttSerializePublishLength qos topicName payloadlen) buf) ∧
    (∀ (dup : UInt8) (packetid : UInt16) (topicFilters : List MQTTString)
      (requestedQoSs : List ℤ),
      RefusesUnrepresentable topicFilters (mqttSerializeSubscribeLength topicFilters) buf
        (mqttSerializeSubscribe buf dup packetid topicFilters requestedQoSs) ↔
      HasFormOrNoRoom topicFilters (mqttSerializeSubscribeLength topicFilters) buf) ∧
    (∀ (dup : UInt8) (packetid : UInt16) (topicFilters : List MQTTString),
      RefusesUnrepresentable topicFilters (mqttSerializeUnsubscribeLength topicFilters) buf
        (mqttSerializeUnsubscribe buf dup packetid topicFilters) ↔
      HasFormOrNoRoom topicFilters (mqttSerializeUnsubscribeLength topicFilters) buf) ∧
    (∀ options : ConnectData,
      RefusesUnrepresentable options.strings (mqttSerializeConnectLength options) buf
        (mqttSerializeConnect buf options) ↔
      HasFormOrNoRoom options.strings (mqttSerializeConnectLength options) buf) ∧
    (∀ (s : MQTTString) (ptr ptr' : Ptr), writeMQTTString s ptr = some ptr' →
      (65535 < s.copied.length → s.Long) ∧
      ∃ high low : UInt8, ptr.put (high :: low :: s.copied) = some ptr' ∧
        (256 * high.toNat + low.toNat = s.copied.length ↔ s.copied.length ≤ 65535)) := by
  refine ⟨?_, ?_, ?_, ?_, ?_⟩
  · intro dup qos retained packetid topicName payload payloadlen
    exact (mqttSerializePublish_serializes dup qos retained packetid topicName payload
      payloadlen).refusesUnrepresentable_iff [topicName] buf
  · intro dup packetid topicFilters requestedQoSs
    exact (mqttSerializeSubscribe_serializes dup packetid topicFilters
      requestedQoSs).refusesUnrepresentable_iff topicFilters buf
  · intro dup packetid topicFilters
    exact (mqttSerializeUnsubscribe_serializes dup packetid
      topicFilters).refusesUnrepresentable_iff topicFilters buf
  · intro options
    exact (mqttSerializeConnect_serializes options).refusesUnrepresentable_iff options.strings buf
  · intro s ptr ptr' h
    exact ⟨fun hlong => by_contra fun hnot => absurd (s.length_copied_le hnot) (not_le.mpr hlong),
      writeMQTTString_prefix h⟩

def longTopic : MQTTString := ⟨none, ⟨65536, some (List.replicate 65536 97)⟩⟩

theorem longTopic_oneForm : longTopic.OneForm :=
  ⟨fun _ => by contradiction, (List.length_replicate ..).ge⟩

theorem longTopic_text : longTopic.text = List.replicate 65536 97 :=
  List.take_of_length_le (List.length_replicate ..).le

/-- In three bytes there is no room for it. -/
theorem serializers_refuseUnrepresentable_noRoom :
    RefusesUnrepresentable [longTopic] (mqttSerializePublishLength 0 longTopic 0) [0, 0, 0]
      (mqttSerializePublish [0, 0, 0] 0 0 0 0 longTopic [] 0) :=
  ((serializers_refuseUnrepresentable [0, 0, 0]).1 0 0 0 0 longTopic [] 0).mpr
    (.inr (by decide))

/-- A topic of 65536 bytes goes out after the length 0, and the number returned is that of a
packet. -/
theorem mqttSerializePublish_not_refusesUnrepresentable :
    ¬ RefusesUnrepresentable [longTopic] (mqttSerializePublishLength 0 longTopic 0)
        (List.replicate 65542 0)
        (mqttSerializePublish (List.replicate 65542 0) 0 0 0 0 longTopic [] 0) ∧
      ∃ packet, mqttSerializePublish (List.replicate 65542 0) 0 0 0 0 longTopic [] 0 =
        some packet ∧ written packet =
          [0x30, 0x82, 0x80, 0x04] ++ ([0, 0] ++ List.replicate 65536 97) := by
  have hlen : mqttSerializePublishLength 0 longTopic 0 = 65538 := rfl
  have hsize : mqttPacketLen 65538 = 65542 := by decide
  have hlong : longTopic.Long := .inl (by decide)
  constructor
  · intro h
    have hrefused := h (.inl ⟨longTopic, List.mem_singleton_self _, hlong⟩)
    rw [(mqttSerializePublish_serializes 0 0 0 0 longTopic [] 0).refused_iff, hlen, hsize,
      List.length_replicate] at hrefused
    exact absurd hrefused.2 (by decide)
  · have hbody : (publishBody 0 0 longTopic.text []).length = 65538 := by
      rw [longTopic_text, publishBody, List.length_append, length_stringBytes,
        List.length_replicate]
      rfl
    have heq : mqttSerializePublish (List.replicate 65542 0) 0 0 0 0 longTopic [] 0 = _ :=
      mqttSerializePublish_toNat _ longTopic_oneForm (Nat.zero_le _)
        (show mqttSerializePublishLength 0 longTopic 0 < 2 ^ 31 by decide)
    rw [hlen] at heq
    obtain ⟨packet, hpacket, hwritten⟩ := written_of_eq (by decide) hbody
      (by rw [hsize, List.length_replicate]) heq
    have hfield : Leb128.encode 65538 = [0x82, 0x80, 0x04] := by
      rw [Leb128.encode_large (by norm_num), Leb128.encode_large (by norm_num),
        Leb128.encode_small (by norm_num)]
      rfl
    refine ⟨packet, hpacket, ?_⟩
    rw [hwritten, frameBytes, hbody, hfield, longTopic_text, publishBody, stringBytes,
      List.length_replicate]
    simp only [lt_irrefl, if_false, List.append_nil]
    rfl

end MqttEmbedded
