import MqttEmbedded.Client.Delivery
import MqttEmbedded.Packet.WrittenStrings

/-!
# The two forms of a string

A string may be set in both forms at once. `MQTTstrlen` and `MQTTPacket_equals` take the C
string then, `writeMQTTString` the length-delimited one, so the room is measured for one
string and the other one is written.
-/

namespace MqttEmbedded

open Region

theorem mqttPacketEquals_text {s : MQTTString}
    (h : s.lenstring.len ≤ (s.lenstring.data.getD []).length) (b : CString) :
    mqttPacketEquals s b = true ↔ s.text = b.bytes := by
  obtain ⟨cstring, len, data⟩ := s
  cases cstring with
  | some c =>
    have hforget : mqttPacketEquals ⟨some c, ⟨len, data⟩⟩ b =
        mqttPacketEquals ⟨none, ⟨c.bytes.length, some (c.bytes ++ [])⟩⟩ b := by
      rw [List.append_nil]
      rfl
    rw [hforget]
    exact mqttPacketEquals_iff rfl b
  | none =>
    have hforget : mqttPacketEquals ⟨none, ⟨len, data⟩⟩ b = mqttPacketEquals
        ⟨none, ⟨len, some ((data.getD []).take len ++ (data.getD []).drop len)⟩⟩ b := by
      rw [List.take_append_drop]
      rfl
    rw [hforget]
    exact mqttPacketEquals_iff (List.length_take_of_le h) b

/-- Where there is room for the prefix and for as many bytes as `MQTTstrlen` says, the pointer
advances by that much, the prefix says the same, and the bytes are those that
`MQTTPacket_equals` compares. -/
def FormsAgree (s : MQTTString) : Prop :=
  ∀ ptr : Ptr, ptr.position + (2 + mqttStrlen s) ≤ ptr.cells.length →
    ∃ (ptr' : Ptr) (high low : UInt8) (text : List UInt8),
      writeMQTTString s ptr = some ptr' ∧ ptr.put (high :: low :: text) = some ptr' ∧
      ptr'.position = ptr.position + (2 + mqttStrlen s) ∧
      256 * high.toNat + low.toNat = mqttStrlen s ∧
      text = s.text ∧ ∀ b : CString, mqttPacketEquals s b = true ↔ text = b.bytes

theorem formsAgree_of_copied {s : MQTTString}
    (hread : s.lenstring.len ≤ (s.lenstring.data.getD []).length)
    (htext : s.copied = s.text) (hlen : s.text.length = mqttStrlen s)
    (hsmall : mqttStrlen s ≤ 65535) : FormsAgree s := by
  intro ptr hroom
  have hput := writeMQTTString_copied hread ptr
  have hsize : (stringBytes s.text).length = 2 + mqttStrlen s := by
    rw [length_stringBytes, hlen]
  rw [htext] at hput
  obtain ⟨ptr', hptr'⟩ := Option.isSome_iff_exists.mp
    (Cursor.put_isSome_iff.mpr (show _ + (stringBytes s.text).length ≤ _ by rwa [hsize]))
  obtain ⟨-, -, hposition⟩ := Cursor.put_eq_some_iff.mp hptr'
  refine ⟨ptr', _, _, s.text, hput.trans hptr', hptr', by rw [hposition, hsize], ?_, rfl,
    mqttPacketEquals_text hread⟩
  rw [intBytes_value, hlen]
  omega

/-- The string is not given as length-delimited, or it can be read and is the C string if
there is one. -/
def MQTTString.SameForms (s : MQTTString) : Prop :=
  s.lenstring.len = 0 ∨ ∃ data, s.lenstring.data = some data ∧ s.lenstring.len ≤ data.length ∧
    ∀ c, s.cstring = some c → c.bytes = data.take s.lenstring.len

namespace MQTTString

variable {s : MQTTString} {data : List UInt8}

theorem text_of_same (hdata : s.lenstring.data = some data)
    (hsame : ∀ c, s.cstring = some c → c.bytes = data.take s.lenstring.len) :
    s.text = data.take s.lenstring.len := by
  cases hc : s.cstring with
  | some c =>
    rw [← hsame c hc]
    simp only [text, hc]
  | none => simp only [text, hc, hdata, Option.getD_some]

theorem length_text_of_same (hdata : s.lenstring.data = some data)
    (hread : s.lenstring.len ≤ data.length)
    (hsame : ∀ c, s.cstring = some c → c.bytes = data.take s.lenstring.len) :
    s.text.length = mqttStrlen s := by
  cases hc : s.cstring with
  | some c => simp only [text, mqttStrlen, hc, strlen]
  | none =>
    rw [text_of_same hdata hsame, List.length_take_of_le hread]
    simp only [mqttStrlen, hc]

end MQTTString

theorem mqttStrlen_le {s : MQTTString} {bound : ℕ} (hlen : s.lenstring.len ≤ bound)
    (hc : ∀ c, s.cstring = some c → strlen c ≤ bound) : mqttStrlen s ≤ bound := by
  unfold mqttStrlen
  cases hs : s.cstring with
  | some c => exact hc c hs
  | none => exact hlen

/-- Measuring, writing and comparing agree just when the string does not have two forms that
differ. -/
theorem writeMQTTString_formsAgree_iff {s : MQTTString} (hlen : s.lenstring.len ≤ 65535)
    (hc : ∀ c, s.cstring = some c → strlen c ≤ 65535) : FormsAgree s ↔ s.SameForms := by
  constructor
  · intro h
    rw [MQTTString.SameForms, or_iff_not_imp_left]
    intro hpos
    obtain ⟨ptr', high, low, text, hwrite, hput, -, -, htext, -⟩ :=
      h (.start (List.replicate (2 + mqttStrlen s) 0)) (by simp [Cursor.start])
    have hread := readable_of_writeMQTTString hwrite
    rw [writeMQTTString_copied hread] at hwrite
    have hcopied : s.copied = text := by
      have hbytes := Cursor.put_inj hwrite hput
      simp only [stringBytes, intBytes, List.cons_append, List.nil_append, List.cons.injEq]
        at hbytes
      exact hbytes.2.2
    have hpos : 0 < s.lenstring.len := Nat.pos_of_ne_zero hpos
    cases hdata : s.lenstring.data with
    | none =>
      rw [hdata, Option.getD_none, List.length_nil] at hread
      omega
    | some data =>
      rw [hdata, Option.getD_some] at hread
      refine ⟨data, rfl, hread, fun c hcstring => ?_⟩
      have htext' : s.text = c.bytes := by rw [MQTTString.text, hcstring]
      rw [← htext', ← htext, ← hcopied, MQTTString.copied, if_pos hpos, hdata, Option.getD_some]
  · intro h
    have hsmall := mqttStrlen_le hlen hc
    obtain hzero | ⟨data, hdata, hread, hsame⟩ := h
    · have hone : s.OneForm := ⟨fun _ => hzero, by omega⟩
      exact formsAgree_of_copied (by omega) (MQTTString.copied_of_empty hzero) hone.length_text
        hsmall
    · have htext := MQTTString.text_of_same hdata hsame
      have hcopied : s.copied = s.text := by
        by_cases hpos : 0 < s.lenstring.len
        · rw [htext, MQTTString.copied, if_pos hpos, hdata, Option.getD_some]
        · exact MQTTString.copied_of_empty (Nat.eq_zero_of_not_pos hpos)
      refine formsAgree_of_copied (by rwa [hdata, Option.getD_some]) hcopied ?_ hsmall
      exact MQTTString.length_text_of_same hdata hread hsame

/-- A topic that a decoder has filled in, written as it is. -/
theorem writeMQTTString_formsAgree_decoded :
    FormsAgree ⟨none, ⟨2, some [97, 98, 99]⟩⟩ :=
  (writeMQTTString_formsAgree_iff (by decide) (fun c hc => by cases hc)).mpr
    (.inr ⟨[97, 98, 99], rfl, by decide, fun c hc => by cases hc⟩)

/-- A C string of one byte is measured and the two bytes of the other form are written: in a
buffer of three bytes there is no result. -/
theorem writeMQTTString_not_formsAgree :
    ¬ FormsAgree ⟨some ⟨[97], unterminated_a⟩, ⟨2, some [98, 99]⟩⟩ ∧
      mqttStrlen ⟨some ⟨[97], unterminated_a⟩, ⟨2, some [98, 99]⟩⟩ = 1 ∧
      (writeMQTTString ⟨some ⟨[97], unterminated_a⟩, ⟨2, some [98, 99]⟩⟩
        (.start [0, 0, 0, 0])).map (·.cells) = some [0, 2, 98, 99] := by
  refine ⟨?_, rfl, by decide⟩
  intro h
  obtain ⟨ptr', high, low, text, hwrite, -⟩ := h (.start [0, 0, 0]) (by decide)
  have hnone : writeMQTTString ⟨some ⟨[97], unterminated_a⟩, ⟨2, some [98, 99]⟩⟩
      (.start [0, 0, 0]) = none := by decide
  rw [hnone] at hwrite
  cases hwrite

end MqttEmbedded
