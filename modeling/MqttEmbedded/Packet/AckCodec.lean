import MqttEmbedded.Packet.Grammar

/-!
# Acknowledgements, accepted and refused

The three deserialisers keep the size of the length field and the code they return in one
variable. A body that is too short for what they want leaves the size in it, and a size of
one means success; for an UNSUBACK the success is set whatever has been read.
-/

namespace MqttEmbedded

open Region

theorem exists_two {bytes : List UInt8} (h : 2 ≤ bytes.length) :
    ∃ high low rest, bytes = high :: low :: rest := by
  match bytes, h with
  | high :: low :: rest, _ => exact ⟨high, low, rest, rfl⟩

section

variable {w : WireFrame}

theorem decodeBuf_bytes (w : WireFrame) :
    mqttPacketDecodeBuf w.bytes 1 = some (w.field.length, w.body.length) := by
  have hdecode := w.decodeBuf []
  rwa [List.append_nil] at hdecode

/-- With a body of less than two bytes `rc` is the size of the length field. -/
theorem mqttDeserializeAck_short (hshort : w.body.length < 2) :
    mqttDeserializeAck w.bytes =
      some ((w.field.length : ℤ), ⟨w.type, MQTTHeader.dup w.header, none⟩) := by
  have hfirst : w.bytes[0]? = some w.header := rfl
  simp only [mqttDeserializeAck, hfirst, decodeBuf_bytes, Option.bind_eq_bind, Option.bind_some]
  exact if_pos hshort

theorem mqttDeserializeAck_frame {high low : UInt8} {rest : List UInt8}
    (hbody : w.body = high :: low :: rest) (tail : List UInt8) :
    mqttDeserializeAck (w.bytes ++ tail) = some (1,
      ⟨w.type, MQTTHeader.dup w.header, some (256 * high.toNat + low.toNat)⟩) := by
  have hlong : ¬ w.body.length < 2 := by
    rw [hbody, List.length_cons, List.length_cons]
    omega
  have hdrop := w.drop_body tail
  rw [hbody] at hdrop
  simp only [mqttDeserializeAck, w.head_bytes, w.decodeBuf, readInt_bytes hdrop,
    Option.bind_eq_bind, Option.bind_some]
  exact if_neg hlong

theorem mqttDeserializeAck_two {high low : UInt8} {rest : List UInt8}
    (hbody : w.body = high :: low :: rest) :
    mqttDeserializeAck w.bytes = some (1,
      ⟨w.type, MQTTHeader.dup w.header, some (256 * high.toNat + low.toNat)⟩) := by
  have hread := mqttDeserializeAck_frame hbody []
  rwa [List.append_nil] at hread

theorem mqttDeserializeConnack_other (htype : w.type ≠ MsgType.connack.code) :
    mqttDeserializeConnack w.bytes = some (0, none) := by
  have hfirst : w.bytes[0]? = some w.header := rfl
  simp only [mqttDeserializeConnack, hfirst, Option.bind_eq_bind, Option.bind_some]
  exact if_pos htype

theorem mqttDeserializeConnack_short (htype : w.type = MsgType.connack.code)
    (hshort : w.body.length < 2) :
    mqttDeserializeConnack w.bytes = some ((w.field.length : ℤ), none) := by
  have hfirst : w.bytes[0]? = some w.header := rfl
  simp only [mqttDeserializeConnack, hfirst, decodeBuf_bytes, Option.bind_eq_bind,
    Option.bind_some]
  rw [if_neg (show ¬ MQTTHeader.type w.header ≠ MsgType.connack.code from not_not.mpr htype),
    if_pos hshort]

theorem mqttDeserializeConnack_two (htype : w.type = MsgType.connack.code) {high low : UInt8}
    {rest : List UInt8} (hbody : w.body = high :: low :: rest) :
    mqttDeserializeConnack w.bytes =
      some (1, some ⟨UInt8.ofNat (high.toNat % 2), low⟩) := by
  have hfirst : w.bytes[0]? = some w.header := rfl
  have hlong : ¬ w.body.length < 2 := by
    rw [hbody, List.length_cons, List.length_cons]
    omega
  have hdrop := w.drop_body []
  rw [List.append_nil, List.append_nil, hbody] at hdrop
  have hflags := getElem?_of_drop hdrop
  have hcode := getElem?_of_drop
    (drop_of_drop (show _ = [high] ++ (low :: rest) from hdrop))
  rw [List.length_singleton] at hcode
  simp only [mqttDeserializeConnack, hfirst, decodeBuf_bytes, hflags, hcode, Option.bind_eq_bind,
    Option.bind_some]
  rw [if_neg (show ¬ MQTTHeader.type w.header ≠ MsgType.connack.code from not_not.mpr htype),
    if_neg hlong]

end

/-- The return code is 1 for the packets that are meant and for no others, and what has been
stored then comes from the first two bytes of the body. -/
def Tells {β : Type} (w : WireFrame) (meant : Prop) (stored : UInt8 → UInt8 → β)
    (result : Option (ℤ × Option β)) : Prop :=
  ∃ rc fields, result = some (rc, fields) ∧ (rc = 1 ↔ meant) ∧
    (rc = 1 → ∃ high low rest, w.body = high :: low :: rest ∧ fields = some (stored high low))

section

variable {β : Type} {w : WireFrame} {meant : Prop} {stored : UInt8 → UInt8 → β}
  {result : Option (ℤ × Option β)}

/-- The packet identifier, its high byte first. -/
def idOf (high low : UInt8) : ℕ := 256 * high.toNat + low.toNat

/-- The flag is the low bit of the first byte. -/
def connackOf (flags connackRc : UInt8) : ConnackFields :=
  ⟨UInt8.ofNat (flags.toNat % 2), connackRc⟩

theorem tells_of_refused {rc : ℤ} {fields : Option β} (h : result = some (rc, fields))
    (hmeant : ¬ meant) : Tells w meant stored result ↔ rc ≠ 1 := by
  constructor
  · intro htells hone
    obtain ⟨rc', fields', hresult, hiff, -⟩ := htells
    rw [h] at hresult
    obtain ⟨rfl, -⟩ := Prod.mk.inj (Option.some.inj hresult)
    exact hmeant (hiff.mp hone)
  · intro hne
    exact ⟨rc, fields, h, iff_of_false hne hmeant, fun hone => absurd hone hne⟩

theorem tells_of_accepted {high low : UInt8} {rest : List UInt8}
    (hbody : w.body = high :: low :: rest) (h : result = some (1, some (stored high low)))
    (hmeant : meant) : Tells w meant stored result :=
  ⟨1, some (stored high low), h, iff_of_true rfl hmeant,
    fun _ => ⟨high, low, rest, hbody, rfl⟩⟩

/-- A code of 1 that is not meant. -/
theorem not_tells_of_accepted {fields : Option β} (h : result = some (1, fields))
    (hmeant : ¬ meant) : ¬ Tells w meant stored result := by
  rw [tells_of_refused h hmeant]
  exact not_not.mpr rfl

end

/-- Its type and its flag aside. -/
def ackId (result : Option (ℤ × AckFields)) : Option (ℤ × Option ℕ) :=
  result.map fun (rc, fields) => (rc, fields.packetid)

section

variable (w : WireFrame)

theorem length_field_ne_one : ((w.field.length : ℤ) ≠ 1) ↔ w.field.length ≠ 1 := by
  omega

theorem mqttDeserializeAck_tells :
    Tells w (2 ≤ w.body.length) idOf (ackId (mqttDeserializeAck w.bytes)) ↔
      2 ≤ w.body.length ∨ w.field.length ≠ 1 := by
  by_cases hlen : 2 ≤ w.body.length
  · obtain ⟨high, low, rest, hbody⟩ := exists_two hlen
    have hresult := congrArg ackId (mqttDeserializeAck_two hbody)
    exact iff_of_true (tells_of_accepted hbody hresult hlen) (.inl hlen)
  · have hresult := congrArg ackId (mqttDeserializeAck_short (not_le.mp hlen))
    rw [tells_of_refused hresult hlen, length_field_ne_one]
    constructor
    · exact .inr
    · exact fun hor => hor.resolve_left hlen

theorem mqttDeserializeConnack_tells :
    Tells w (2 ≤ w.body.length ∧ w.type = MsgType.connack.code) connackOf
        (mqttDeserializeConnack w.bytes) ↔
      (w.type = MsgType.connack.code → 2 ≤ w.body.length ∨ w.field.length ≠ 1) := by
  by_cases htype : w.type = MsgType.connack.code
  · by_cases hlen : 2 ≤ w.body.length
    · obtain ⟨high, low, rest, hbody⟩ := exists_two hlen
      have hresult := mqttDeserializeConnack_two htype hbody
      exact iff_of_true (tells_of_accepted hbody hresult ⟨hlen, htype⟩) fun _ => .inl hlen
    · have hresult := mqttDeserializeConnack_short htype (not_le.mp hlen)
      rw [tells_of_refused hresult fun hmeant => hlen hmeant.1, length_field_ne_one]
      constructor
      · exact fun hfield _ => .inr hfield
      · exact fun hor => (hor htype).resolve_left hlen
  · have hresult := mqttDeserializeConnack_other htype
    rw [tells_of_refused hresult fun hmeant => htype hmeant.2]
    exact iff_of_true (by decide) fun hmeant => absurd hmeant htype

theorem mqttDeserializeUnsuback_tells :
    Tells w (2 ≤ w.body.length ∧ w.type = MsgType.unsuback.code) idOf
        (mqttDeserializeUnsuback w.bytes) ↔
      if w.type = MsgType.unsuback.code then 2 ≤ w.body.length
      else w.body.length < 2 ∧ w.field.length ≠ 1 := by
  by_cases hlen : 2 ≤ w.body.length
  · obtain ⟨high, low, rest, hbody⟩ := exists_two hlen
    have hresult : mqttDeserializeUnsuback w.bytes = some (1, some (idOf high low)) := by
      rw [mqttDeserializeUnsuback, mqttDeserializeAck_two hbody]
      simp only [Option.bind_eq_bind, Option.bind_some, ite_self]
      rfl
    split_ifs with htype
    · exact iff_of_true (tells_of_accepted hbody hresult ⟨hlen, htype⟩) hlen
    · exact iff_of_false (not_tells_of_accepted hresult fun hmeant => htype hmeant.2)
        fun hshort => absurd hshort.1 (not_lt.mpr hlen)
  · have hresult : mqttDeserializeUnsuback w.bytes =
        some (if w.type = MsgType.unsuback.code then 1 else (w.field.length : ℤ), none) := by
      rw [mqttDeserializeUnsuback, mqttDeserializeAck_short (not_le.mp hlen)]
      rfl
    rw [tells_of_refused hresult fun hmeant => hlen hmeant.1]
    split_ifs with htype
    · exact iff_of_false (not_not.mpr rfl) hlen
    · rw [length_field_ne_one]
      constructor
      · exact fun hfield => ⟨not_le.mp hlen, hfield⟩
      · exact fun hshort => hshort.2

end

/-- What has to hold of a packet for each of the three to tell whether it is complete and of
the right type. -/
theorem acknowledgements_tell (w : WireFrame) :
    (Tells w (2 ≤ w.body.length) idOf (ackId (mqttDeserializeAck w.bytes)) ↔
      2 ≤ w.body.length ∨ w.field.length ≠ 1) ∧
    (Tells w (2 ≤ w.body.length ∧ w.type = MsgType.connack.code) connackOf
        (mqttDeserializeConnack w.bytes) ↔
      (w.type = MsgType.connack.code → 2 ≤ w.body.length ∨ w.field.length ≠ 1)) ∧
    (Tells w (2 ≤ w.body.length ∧ w.type = MsgType.unsuback.code) idOf
        (mqttDeserializeUnsuback w.bytes) ↔
      if w.type = MsgType.unsuback.code then 2 ≤ w.body.length
      else w.body.length < 2 ∧ w.field.length ≠ 1) :=
  ⟨mqttDeserializeAck_tells w, mqttDeserializeConnack_tells w, mqttDeserializeUnsuback_tells w⟩

/-- A packet of this type that has no body. -/
def emptyPacket (header : UInt8) : WireFrame := frameOf header [] (Nat.zero_le _)

/-- A PUBACK that acknowledges packet 7. -/
def pubackPacket : WireFrame := frameOf 0x40 [0, 7] (by decide)

/-- Acknowledgements without a body are accepted, and a PUBACK as an UNSUBACK. -/
theorem acknowledgements_not_tell :
    ¬ Tells (emptyPacket 0x40) (2 ≤ (emptyPacket 0x40).body.length) idOf
        (ackId (mqttDeserializeAck (emptyPacket 0x40).bytes)) ∧
      ¬ Tells (emptyPacket 0x20)
        (2 ≤ (emptyPacket 0x20).body.length ∧ (emptyPacket 0x20).type = MsgType.connack.code)
        connackOf (mqttDeserializeConnack (emptyPacket 0x20).bytes) ∧
      ¬ Tells (emptyPacket 0xB0)
        (2 ≤ (emptyPacket 0xB0).body.length ∧ (emptyPacket 0xB0).type = MsgType.unsuback.code)
        idOf (mqttDeserializeUnsuback (emptyPacket 0xB0).bytes) ∧
      ¬ Tells pubackPacket
        (2 ≤ pubackPacket.body.length ∧ pubackPacket.type = MsgType.unsuback.code)
        idOf (mqttDeserializeUnsuback pubackPacket.bytes) := by
  refine ⟨?_, ?_, ?_, ?_⟩
  · exact not_tells_of_accepted (show _ = some (1, none) from rfl) (by decide)
  · exact not_tells_of_accepted (show _ = some (1, none) from rfl) (by decide)
  · exact not_tells_of_accepted (show _ = some (1, none) from rfl) (by decide)
  · exact not_tells_of_accepted (show _ = some (1, some 7) from rfl) (by decide)

end MqttEmbedded
