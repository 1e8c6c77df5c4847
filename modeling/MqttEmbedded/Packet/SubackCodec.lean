import MqttEmbedded.Packet.FilterLists
import MqttEmbedded.Packet.SerializeSession

/-!
# The codes of a SUBACK

After the identifier comes one code for each filter of the request. The codes go
through a `char` that is signed, and the loop that stores them lets one more pass than
there may be; so it is not every SUBACK that is read as it was written.
-/

namespace MqttEmbedded

open Region Entries

theorem subackReadLoop_codes {buf codes tail : List UInt8} {maxcount curdata : ℕ}
    (grantedQoSs : List ℤ) (h : buf.drop curdata = codes ++ tail)
    (hcount : grantedQoSs.length ≤ maxcount) :
    subackReadLoop buf maxcount maxcount codes.length curdata grantedQoSs =
      if grantedQoSs.length + codes.length ≤ maxcount then
        some (1, grantedQoSs ++ codes.map signedChar)
      else none := by
  induction codes generalizing curdata grantedQoSs with
  | nil => simp [subackReadLoop, hcount]
  | cons code codes ih =>
    rw [List.length_cons, subackReadLoop, if_neg (not_lt.mpr hcount)]
    by_cases hroom : grantedQoSs.length < maxcount
    · have hdrop : buf.drop (curdata + 1) = codes ++ tail :=
        drop_of_drop (show _ = [code] ++ (codes ++ tail) from h)
      have hstored : (grantedQoSs ++ [signedChar code]).length = grantedQoSs.length + 1 := by simp
      have hcomm : grantedQoSs.length + 1 + codes.length =
          grantedQoSs.length + (codes.length + 1) := by omega
      rw [if_pos hroom, readChar_eq h]
      refine (ih _ hdrop (by omega)).trans ?_
      rw [hstored, hcomm, List.append_assoc, List.map_cons, List.singleton_append]
    · rw [if_neg hroom, if_neg (by omega)]

section

variable {w : WireFrame} {id : UInt16} {codes : List UInt8} (maxcount : ℕ)

theorem mqttDeserializeSuback_frame (htype : w.type = MsgType.suback.code)
    (hbody : w.body = intBytes id.toNat ++ codes) (tail : List UInt8) :
    mqttDeserializeSuback (w.bytes ++ tail) maxcount maxcount =
      if codes.length ≤ maxcount then some (1, some id.toNat, codes.map signedChar) else none := by
  obtain ⟨hid, hdrop, -⟩ := readInt_id hbody tail
  have htype' : MQTTHeader.type w.header = MsgType.suback.code := htype
  have hlength := congrArg List.length hbody
  rw [List.length_append, length_intBytes] at hlength
  have hlong : ¬ w.body.length < 2 := by omega
  have hleft : w.body.length - 2 = codes.length := by omega
  have hloop := subackReadLoop_codes [] hdrop (Nat.zero_le maxcount)
  rw [List.length_nil, Nat.zero_add, List.nil_append] at hloop
  unfold mqttDeserializeSuback
  simp only [w.head_bytes, htype', ne_eq, not_true_eq_false, if_false, w.decodeBuf, hlong, hid,
    hleft, hloop, Option.bind_eq_bind, Option.bind_some]
  split_ifs <;> rfl

theorem mqttDeserializeSuback_short (htype : w.type = MsgType.suback.code)
    (hlen : w.body.length < 2) (tail : List UInt8) :
    mqttDeserializeSuback (w.bytes ++ tail) maxcount maxcount =
      some ((w.field.length : ℤ), none, []) := by
  have htype' : MQTTHeader.type w.header = MsgType.suback.code := htype
  unfold mqttDeserializeSuback
  simp only [w.head_bytes, htype', ne_eq, not_true_eq_false, if_false, w.decodeBuf, hlen, if_true,
    Option.bind_eq_bind, Option.bind_some]

end

/-- The body is an identifier and at most `maxcount` codes. -/
def Grants (w : WireFrame) (maxcount : ℕ) (id : UInt16) (codes : List UInt8) : Prop :=
  w.body = intBytes id.toNat ++ codes ∧ codes.length ≤ maxcount

/-- The codes are accepted and stored as numbers, and nothing else is accepted. -/
def AcceptsCodes (w : WireFrame) (maxcount : ℕ) : Prop :=
  ∃ rc packetid grantedQoSs,
    mqttDeserializeSuback w.bytes maxcount maxcount = some (rc, packetid, grantedQoSs) ∧
    (rc = 1 ↔ ∃ id codes, Grants w maxcount id codes) ∧
    ∀ id codes, Grants w maxcount id codes →
      packetid = some id.toNat ∧ grantedQoSs = codes.map fun code => (code.toNat : ℤ)

/-- A body without an identifier is told by the size of the length field; one with an
identifier has as many codes as there may be, none of them above 127. -/
def CodesTold (w : WireFrame) (maxcount : ℕ) : Prop :=
  (w.body.length < 2 ∧ w.field.length ≠ 1) ∨
    (2 ≤ w.body.length ∧ w.body.length - 2 ≤ maxcount ∧ ∀ code ∈ w.body.drop 2, code.toNat < 128)

theorem signedChar_eq_iff (code : UInt8) : signedChar code = code.toNat ↔ code.toNat < 128 := by
  have hlt := code.toNat_lt
  unfold signedChar
  split_ifs <;> omega

theorem map_signedChar_iff (codes : List UInt8) :
    codes.map signedChar = codes.map (fun code => (code.toNat : ℤ)) ↔
      ∀ code ∈ codes, code.toNat < 128 := by
  rw [List.map_inj_left]
  constructor
  · exact fun h code hmem => (signedChar_eq_iff code).mp (h code hmem)
  · exact fun h code hmem => (signedChar_eq_iff code).mpr (h code hmem)

theorem acceptsCodes_iff {w : WireFrame} {maxcount : ℕ} (htype : w.type = MsgType.suback.code) :
    AcceptsCodes w maxcount ↔ CodesTold w maxcount := by
  by_cases hlen : 2 ≤ w.body.length
  · obtain ⟨id, hbody⟩ := exists_id hlen
    have hcall := mqttDeserializeSuback_frame maxcount htype hbody []
    rw [List.append_nil, List.length_drop] at hcall
    by_cases hcount : w.body.length - 2 ≤ maxcount
    · rw [if_pos hcount] at hcall
      have hgrants : Grants w maxcount id (w.body.drop 2) :=
        ⟨hbody, by rwa [List.length_drop]⟩
      constructor
      · rintro ⟨rc, packetid, grantedQoSs, hresult, -, hstored⟩
        rw [hcall] at hresult
        obtain ⟨-, hresult⟩ := Prod.mk.inj (Option.some.inj hresult)
        obtain ⟨-, rfl⟩ := Prod.mk.inj hresult
        exact .inr ⟨hlen, hcount, (map_signedChar_iff _).mp (hstored _ _ hgrants).2⟩
      · intro htold
        obtain ⟨-, -, hsmall⟩ := htold.resolve_left fun h => absurd h.1 (not_lt.mpr hlen)
        refine ⟨1, _, _, hcall, iff_of_true rfl ⟨_, _, hgrants⟩, fun id' codes hgrants' => ?_⟩
        obtain ⟨rfl, rfl⟩ := id_unique (hgrants'.1.symm.trans hbody)
        exact ⟨rfl, (map_signedChar_iff _).mpr hsmall⟩
    · rw [if_neg hcount] at hcall
      constructor
      · rintro ⟨rc, packetid, grantedQoSs, hresult, -⟩
        rw [hcall] at hresult
        exact nomatch hresult
      · intro htold
        exact absurd (htold.resolve_left fun h => absurd h.1 (not_lt.mpr hlen)).2.1 hcount
  · have hcall := mqttDeserializeSuback_short maxcount htype (not_le.mp hlen) []
    rw [List.append_nil] at hcall
    have hnone : ¬ ∃ id codes, Grants w maxcount id codes := by
      rintro ⟨id, codes, hbody, -⟩
      have hlength := congrArg List.length hbody
      rw [List.length_append, length_intBytes] at hlength
      omega
    constructor
    · rintro ⟨rc, packetid, grantedQoSs, hresult, haccepted, -⟩
      rw [hcall] at hresult
      obtain ⟨rfl, -⟩ := Prod.mk.inj (Option.some.inj hresult)
      refine .inl ⟨not_le.mp hlen, fun hone => hnone (haccepted.mp ?_)⟩
      rw [hone]
      rfl
    · intro htold
      obtain ⟨-, hfield⟩ := htold.resolve_right fun h => hlen h.1
      refine ⟨_, _, _, hcall, iff_of_false (by omega) hnone, fun id codes hgrants => ?_⟩
      exact absurd ⟨id, codes, hgrants⟩ hnone

/-- What has been encoded is decoded to the same codes. -/
def CodesInverse (codes : List ℕ) : Prop :=
  ∀ (packetid : UInt16) (buf : List UInt8) (maxcount : ℕ),
    mqttPacketLen (2 + codes.length) ≤ buf.length → codes.length ≤ maxcount →
    ∃ result, mqttSerializeSuback buf packetid codes = some result ∧
      mqttDeserializeSuback (written result) maxcount maxcount =
        some (1, some packetid.toNat, codes.map fun code : ℕ => (code : ℤ))

theorem suback_decode_encode {codes : List ℕ} (hmax : 2 + codes.length ≤ maxRemainingLength)
    (packetid : UInt16) {buf : List UInt8} {maxcount : ℕ}
    (hroom : mqttPacketLen (2 + codes.length) ≤ buf.length) (hcount : codes.length ≤ maxcount) :
    ∃ result, mqttSerializeSuback buf packetid codes = some result ∧
      mqttDeserializeSuback (written result) maxcount maxcount = some (1, some packetid.toNat,
        codes.map fun code => signedChar (UInt8.ofNat code)) := by
  have hbody : (intBytes packetid.toNat ++ codes.map fun code => UInt8.ofNat code).length =
      2 + codes.length := by
    rw [List.length_append, length_intBytes, List.length_map]
  have hlong : ¬ buf.length < 2 + codes.length := by
    have hle : 2 + codes.length ≤ mqttPacketLen (2 + codes.length) := by
      unfold mqttPacketLen
      dsimp only
      split_ifs <;> omega
    omega
  have hcall : mqttSerializeSuback buf packetid codes = _ :=
    (mqttSerializeSuback_eq buf (lt_of_le_maxRemainingLength hmax)).trans (if_neg hlong)
  obtain ⟨result, hresult, hwritten⟩ :=
    written_of_eq hmax hbody hroom (hcall.trans (if_neg (not_lt.mpr hroom)).symm)
  rw [← hbody] at hmax
  have hread := mqttDeserializeSuback_frame (w := frameOf _ _ hmax) maxcount
    (MQTTHeader.type_ofBits_code .suback 0 0 0) rfl []
  have hbytes : (frameOf _ _ hmax).bytes = written result := hwritten.symm
  rw [hbytes, List.append_nil, List.length_map, if_pos hcount, List.map_map] at hread
  exact ⟨result, hresult, hread⟩

theorem signedChar_small {code : ℕ} (h : code < 128) :
    signedChar (UInt8.ofNat code) = code := by
  have hvalue : (UInt8.ofNat code).toNat = code := by
    rw [UInt8.toNat_ofNat', Nat.mod_eq_of_lt (by omega)]
  have hsmall : (UInt8.ofNat code).toNat < 128 := by omega
  rw [(signedChar_eq_iff _).mpr hsmall, hvalue]

theorem codesInverse_iff {codes : List ℕ} (hcodes : ∀ code ∈ codes, code ∈ [0, 1, 2, 0x80])
    (hmax : 2 + codes.length ≤ maxRemainingLength) : CodesInverse codes ↔ 0x80 ∉ codes := by
  constructor
  · intro hinverse hmem
    have hroom : mqttPacketLen (2 + codes.length) ≤
        (List.replicate (mqttPacketLen (2 + codes.length)) (0 : UInt8)).length := by
      rw [List.length_replicate]
    obtain ⟨result, hresult, hread⟩ := hinverse 0 _ codes.length hroom le_rfl
    obtain ⟨result', hresult', hread'⟩ := suback_decode_encode hmax 0 hroom le_rfl
    obtain rfl := Option.some.inj (hresult.symm.trans hresult')
    have hstored := (Prod.mk.inj (Prod.mk.inj (Option.some.inj (hread.symm.trans hread'))).2).2
    have hcode := List.map_inj_left.mp hstored 0x80 hmem
    exact absurd hcode (by decide)
  · intro hmem packetid buf maxcount hroom hcount
    obtain ⟨result, hresult, hread⟩ := suback_decode_encode hmax packetid hroom hcount
    refine ⟨result, hresult, hread.trans ?_⟩
    have hstored : codes.map (fun code => signedChar (UInt8.ofNat code)) =
        codes.map fun code : ℕ => (code : ℤ) := by
      refine List.map_inj_left.mpr fun code hcode => signedChar_small ?_
      have hone := hcodes code hcode
      have hne : code ≠ 0x80 := fun h => hmem (h ▸ hcode)
      simp only [List.mem_cons, List.not_mem_nil, or_false] at hone
      omega
    rw [hstored]

/-- Codes are read as they were written as long as none of them is above 127 and there are
not more than there may be. -/
theorem mqttDeserializeSuback_accepts (w : WireFrame) (maxcount : ℕ)
    (htype : w.type = MsgType.suback.code) : (AcceptsCodes w maxcount ↔ CodesTold w maxcount) ∧
      ∀ codes : List ℕ, (∀ code ∈ codes, code ∈ [0, 1, 2, 0x80]) →
        2 + codes.length ≤ maxRemainingLength → (CodesInverse codes ↔ 0x80 ∉ codes) := by
  constructor
  · exact acceptsCodes_iff htype
  · intro codes hcodes hmax
    exact codesInverse_iff hcodes hmax

/-- One answer, that a filter has been granted QoS 1. -/
def oneAnswer : WireFrame := ⟨0x90, [3], [0, 1, 1], .last (by decide), by decide⟩

theorem mqttDeserializeSuback_accepts_one : AcceptsCodes oneAnswer 1 ∧ CodesInverse [0, 1, 2] := by
  obtain ⟨haccepts, hinverse⟩ := mqttDeserializeSuback_accepts oneAnswer 1 rfl
  have htold : CodesTold oneAnswer 1 := by
    refine .inr ⟨?_, ?_, ?_⟩
    · decide
    · decide
    · intro code hcode
      rw [List.mem_singleton.mp (show code ∈ [1] from hcode)]
      decide
  exact ⟨haccepts.mpr htold, (hinverse [0, 1, 2] (by decide) (by decide)).mpr (by decide)⟩

/-- The answer that a filter has been refused. -/
def refusal : WireFrame := ⟨0x90, [3], [0, 1, 0x80], .last (by decide), by decide⟩

/-- Two answers where one is expected. -/
def twoAnswers : WireFrame := ⟨0x90, [4], [0, 1, 0, 0], .last (by decide), by decide⟩

/-- The refusal is stored as a number below 0, and the second answer after the end of the
array. -/
theorem mqttDeserializeSuback_not_accepts :
    (refusal.type = MsgType.suback.code ∧ ¬ AcceptsCodes refusal 1) ∧
      (twoAnswers.type = MsgType.suback.code ∧ ¬ AcceptsCodes twoAnswers 1) := by
  refine ⟨⟨rfl, ?_⟩, rfl, ?_⟩
  · rintro ⟨rc, packetid, grantedQoSs, hresult, -, hstored⟩
    have hcall : mqttDeserializeSuback refusal.bytes 1 1 = some (1, some 1, [-128]) := rfl
    rw [hcall] at hresult
    obtain ⟨-, hresult⟩ := Prod.mk.inj (Option.some.inj hresult)
    obtain ⟨-, rfl⟩ := Prod.mk.inj hresult
    exact absurd (hstored 1 [0x80] ⟨rfl, by decide⟩).2 (by decide)
  · rintro ⟨rc, packetid, grantedQoSs, hresult, -⟩
    have hcall : mqttDeserializeSuback twoAnswers.bytes 1 1 = none := rfl
    rw [hcall] at hresult
    exact nomatch hresult

end MqttEmbedded
