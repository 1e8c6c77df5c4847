import MqttEmbedded.Packet.Deserialize

/-!
# The codec of the remaining length

Encoder and decoder stop by different tests, the one when no digit is left, the other at
the continuation bit or after four bytes. Read together they are a bijection between the
numbers of four digits and the shortest fields.
-/

namespace MqttEmbedded

open Region Hoare

variable {σ : Type}

/-- A value that an `int` holds; signed overflow is undefined. -/
def inInt (n : ℕ) : Prog σ ℕ := if n < 2 ^ 31 then pure n else throw .undefined

theorem inInt_eq {n : ℕ} (h : n < 2 ^ 31) : (inInt n : Prog σ ℕ) = pure n := if_pos h

/-- The loop of `MQTTPacket_decode` with each of its products and sums held in an `int`. -/
def decodeIntLoop (getchar : Prog σ (Delivery 1)) : ℕ → ℕ → ℕ → ℕ → Prog σ (ℕ × ℕ)
  | 0, len, value, _ => pure (len + 1, value)
  | room + 1, len, value, multiplier => do
    let d ← getchar
    if d.rc ≠ 1 then pure (len + 1, value)
    else
      let c := d.data.headD 0
      let product ← inInt ((c &&& 127).toNat * multiplier)
      let value ← inInt (value + product)
      let multiplier ← inInt (multiplier * 128)
      if c &&& 128 ≠ 0 then decodeIntLoop getchar room (len + 1) value multiplier
      else pure (len + 1, value)

def mqttPacketDecodeInt (getcharfn : Prog σ (Delivery 1)) : Prog σ (ℕ × ℕ) :=
  decodeIntLoop getcharfn maxNoOfRemainingLengthBytes 0 0 1

/-- The value is below the weight of the next digit, and that weight below `2 ^ 28`. -/
theorem decodeIntLoop_eq (getchar : Prog σ (Delivery 1)) :
    ∀ {room len value multiplier : ℕ}, value < multiplier → multiplier * 128 ^ room ≤ 2 ^ 28 →
    decodeIntLoop getchar room len value multiplier = decodeLoop getchar room len value multiplier
  | 0, _, _, _, _, _ => rfl
  | room + 1, len, value, multiplier, hvalue, hroom => by
    have hstep : multiplier * 128 ^ (room + 1) = multiplier * 128 * 128 ^ room := by ring
    rw [hstep] at hroom
    have hweight : multiplier * 128 ≤ 2 ^ 28 :=
      (Nat.le_mul_of_pos_right _ (Nat.pow_pos (by norm_num))).trans hroom
    simp only [decodeIntLoop, decodeLoop]
    congr 1
    funext d
    have hdigit : (d.data.headD 0 &&& 127).toNat * multiplier ≤ 127 * multiplier := by
      rw [Leb128.toNat_and_127]
      exact Nat.mul_le_mul_right _ (by omega)
    split_ifs
    · rfl
    · rw [inInt_eq (by omega), pure_bind, inInt_eq (by omega), pure_bind, inInt_eq (by omega),
        pure_bind, decodeIntLoop_eq getchar (by omega) hroom]
    · rw [inInt_eq (by omega), pure_bind, inInt_eq (by omega), pure_bind, inInt_eq (by omega),
        pure_bind]

theorem mqttPacketDecodeInt_eq (getcharfn : Prog σ (Delivery 1)) :
    mqttPacketDecodeInt getcharfn = mqttPacketDecode getcharfn :=
  decodeIntLoop_eq getcharfn Nat.one_pos (by decide)

/-- As long as the bytes say that another one follows, the decoder reads on until it may read
no more. -/
theorem decodeLoop_feeds_begun {getchar : Prog σ (Delivery 1)} {pending : σ → List UInt8}
    {R : σ → σ → Prop} [Std.Refl R] [IsTrans σ R]
    (hget : Feeds getchar pending (fun _ => False) R) {begun : List UInt8} {n : ℕ}
    (hbegun : Leb128.Begun begun n) : ∀ (len value multiplier : ℕ) {s : σ} {rest : List UInt8},
    pending s = begun ++ rest →
    wp (decodeLoop getchar begun.length len value multiplier)
      (fun decoded t => decoded = (len + begun.length + 1, value + n * multiplier) ∧
        pending t = rest ∧ R s t) (fun _ _ => False) s := by
  induction hbegun with
  | nil =>
    intro len value multiplier s rest hp
    have hvalue : value + 0 * multiplier = value := by omega
    rw [hvalue]
    exact ⟨rfl, hp, Std.Refl.refl s⟩
  | @more b bs n hb _ ih =>
    intro len value multiplier s rest hp
    have hflag : b &&& 128 ≠ 0 := (Leb128.and_128_ne_zero_iff b).mpr hb
    rw [List.length_cons, decodeLoop, wp_bind]
    apply wp_imp (hget.takes s b (bs ++ rest) hp)
    intro d t hd
    obtain ⟨hrc, hdata, hnext, hR⟩ := hd.resolve_left id
    rw [if_neg (not_not.mpr hrc), hdata, List.headD_cons, if_pos hflag]
    apply wp_imp (ih _ _ _ hnext)
    intro decoded u h
    obtain ⟨rfl, hrest, hR'⟩ := h
    refine ⟨?_, hrest, IsTrans.trans s t u hR hR'⟩
    rw [Leb128.toNat_and_127, Prod.mk.injEq]
    exact ⟨by omega, by ring⟩

/-- Reading characters moves the pointer forwards, and never past the end of the buffer. -/
def ForwardIn (buf : List UInt8) (bufptr bufptr' : ℕ) : Prop :=
  bufptr ≤ bufptr' ∧ (bufptr ≤ buf.length → bufptr' ≤ buf.length)

instance (buf : List UInt8) : Std.Refl (ForwardIn buf) := ⟨fun _ => ⟨le_rfl, id⟩⟩

instance (buf : List UInt8) : IsTrans ℕ (ForwardIn buf) where
  trans _ _ _ h h' := ⟨h.1.trans h'.1, h'.2 ∘ h.2⟩

theorem feeds_bufchar_forward (buf : List UInt8) :
    Feeds (bufchar buf) (fun bufptr => buf.drop bufptr) (fun _ => False) (ForwardIn buf) where
  stays := fun _ h => h.elim
  takes := by
    intro bufptr b rest h
    have hb := getElem?_of_drop h
    have hok : bufchar buf bufptr = .ok (.arrived [b] le_rfl) (bufptr + 1) := by
      simp only [bufchar, hb]
    obtain ⟨hlt, -⟩ := List.getElem?_eq_some_iff.mp hb
    rw [wp_ok hok]
    exact .inr ⟨rfl, rfl, drop_of_drop (show _ = [b] ++ rest from h), Nat.le_succ _, fun _ => hlt⟩

/-- Whatever delivers the characters, with these bytes next the decoder takes them and no
others, and gives `decoded`. -/
def DecodesTo (bytes : List UInt8) (decoded : ℕ × ℕ) : Prop :=
  ∀ (σ : Type) (getcharfn : Prog σ (Delivery 1)) (pending : σ → List UInt8) (R : σ → σ → Prop),
    Std.Refl R → IsTrans σ R → Feeds getcharfn pending (fun _ => False) R →
    ∀ s rest, pending s = bytes ++ rest →
    ∃ t, mqttPacketDecode getcharfn s = .ok decoded t ∧ pending t = rest ∧ R s t

theorem decodesTo_field {field : List UInt8} {n : ℕ} (hfield : Leb128.Field field n)
    (hlen : field.length ≤ 4) : DecodesTo field (field.length, n) := by
  intro σ getcharfn pending R hrefl htrans hget s rest hp
  obtain ⟨decoded, t, hrun, hdecoded⟩ := wp_total (mqttPacketDecode_field hget hfield hlen hp)
  obtain ⟨rfl, hrest, hR⟩ := hdecoded.resolve_left id
  exact ⟨t, hrun, hrest, hR⟩

theorem decodesTo_begun {begun : List UInt8} {n : ℕ} (hbegun : Leb128.Begun begun n)
    (hlen : begun.length = maxNoOfRemainingLengthBytes) : DecodesTo begun (5, n) := by
  intro σ getcharfn pending R hrefl htrans hget s rest hp
  have hloop := decodeLoop_feeds_begun hget hbegun 0 0 1 hp
  rw [hlen] at hloop
  obtain ⟨decoded, t, hrun, rfl, hrest, hR⟩ := wp_total hloop
  refine ⟨t, ?_, hrest, hR⟩
  unfold mqttPacketDecode
  rw [hrun, maxNoOfRemainingLengthBytes, Nat.mul_one, Nat.zero_add, Nat.zero_add]

/-- In a buffer the pointer stops right behind them. -/
theorem DecodesTo.buffer {bytes : List UInt8} {decoded : ℕ × ℕ} (h : DecodesTo bytes decoded)
    (hne : bytes ≠ []) {buf rest : List UInt8} {curdata : ℕ}
    (hbuf : buf.drop curdata = bytes ++ rest) :
    mqttPacketDecodeBuf buf curdata = some decoded ∧
      mqttPacketDecode (bufchar buf) curdata = .ok decoded (curdata + bytes.length) := by
  obtain ⟨bufptr, hrun, hrest, hforward⟩ := h ℕ (bufchar buf) (fun bufptr => buf.drop bufptr)
    (ForwardIn buf) inferInstance inferInstance (feeds_bufchar_forward buf) curdata rest hbuf
  have hlen := congrArg List.length hbuf
  have hlen' := congrArg List.length hrest
  have hpos := List.length_pos_iff.mpr hne
  rw [List.length_drop, List.length_append] at hlen
  rw [List.length_drop] at hlen'
  have hwithin := hforward.2 (by omega)
  obtain rfl : bufptr = curdata + bytes.length := by omega
  refine ⟨?_, hrun⟩
  simp only [mqttPacketDecodeBuf, hrun]

theorem maxRemainingLength_lt {n : ℕ} : n ≤ maxRemainingLength ↔ n < 128 ^ 4 := by
  unfold maxRemainingLength
  norm_num
  omega

theorem Field.le_maxRemainingLength {field : List UInt8} {n : ℕ} (hfield : Leb128.Field field n)
    (hlen : field.length ≤ 4) : n ≤ maxRemainingLength :=
  maxRemainingLength_lt.mpr
    (hfield.value_lt.trans_le (Nat.pow_le_pow_right (by norm_num) hlen))

/-- The field that the encoder writes is the shortest one, and the decoder takes it back. -/
theorem encoded_decodes {n : ℕ} (hn : n ≤ maxRemainingLength) :
    ∃ field, Leb128.Field field n ∧ Leb128.Shortest field n ∧
      1 ≤ field.length ∧ field.length ≤ 4 ∧
      (∀ ptr, mqttPacketEncode n ptr = ptr.put field) ∧ DecodesTo field (field.length, n) := by
  have hfield := Leb128.encode_field n
  have hlen : (Leb128.encode n).length ≤ 4 :=
    Leb128.encode_length_le (maxRemainingLength_lt.mp hn)
  exact ⟨Leb128.encode n, hfield, Leb128.shortest_encode n, hfield.length_pos, hlen,
    mqttPacketEncode_eq (lt_of_le_maxRemainingLength hn), decodesTo_field hfield hlen⟩

/-- What the decoder takes is encoded again as it was, or in fewer bytes. -/
theorem decoded_encodes {field : List UInt8} {n : ℕ} (hfield : Leb128.Field field n)
    (hlen : field.length ≤ 4) :
    n ≤ maxRemainingLength ∧ DecodesTo field (field.length, n) ∧
      ∃ again, (∀ ptr, mqttPacketEncode n ptr = ptr.put again) ∧
        (Leb128.Shortest field n → again = field) ∧
        (¬ Leb128.Shortest field n → again.length < field.length) := by
  have hn := Field.le_maxRemainingLength hfield hlen
  exact ⟨hn, decodesTo_field hfield hlen, Leb128.encode n,
    mqttPacketEncode_eq (lt_of_le_maxRemainingLength hn), hfield.eq_encode,
    hfield.encode_length_lt⟩

/-- Every number of at most four digits has its shortest field, which the encoder writes and
the decoder takes; every field of at most four bytes is taken whole, and encoded again as it
was if it was the shortest, else in fewer bytes; four bytes that each ask for another one are
refused after the fourth. No value on the way leaves an `int`, and in a buffer the pointer
stops right behind the bytes taken. -/
theorem lengthCodec_canonical :
    (∀ n ≤ maxRemainingLength, ∃ field, Leb128.Field field n ∧ Leb128.Shortest field n ∧
      1 ≤ field.length ∧ field.length ≤ 4 ∧
      (∀ ptr, mqttPacketEncode n ptr = ptr.put field) ∧ DecodesTo field (field.length, n)) ∧
    (∀ field n, Leb128.Field field n → field.length ≤ 4 →
      n ≤ maxRemainingLength ∧ DecodesTo field (field.length, n) ∧
      ∃ again, (∀ ptr, mqttPacketEncode n ptr = ptr.put again) ∧
        (Leb128.Shortest field n → again = field) ∧
        (¬ Leb128.Shortest field n → again.length < field.length)) ∧
    (∀ begun n, Leb128.Begun begun n → begun.length = 4 → DecodesTo begun (5, n)) ∧
    (∀ (σ : Type) (getcharfn : Prog σ (Delivery 1)),
      mqttPacketDecodeInt getcharfn = mqttPacketDecode getcharfn) ∧
    (∀ bytes decoded, DecodesTo bytes decoded → bytes ≠ [] → ∀ (buf rest : List UInt8) curdata,
      buf.drop curdata = bytes ++ rest → mqttPacketDecodeBuf buf curdata = some decoded ∧
        mqttPacketDecode (bufchar buf) curdata = .ok decoded (curdata + bytes.length)) := by
  refine ⟨fun n hn => encoded_decodes hn, fun field n hfield hlen => decoded_encodes hfield hlen,
    fun begun n hbegun hlen => decodesTo_begun hbegun hlen,
    fun σ getcharfn => mqttPacketDecodeInt_eq getcharfn, ?_⟩
  intro bytes decoded h hne buf rest curdata hbuf
  exact h.buffer hne hbuf

/-- Three bytes for the number one are taken whole. -/
theorem lengthCodec_canonical_padded :
    mqttPacketDecodeBuf [0x81, 0x80, 0x00, 0xff] 0 = some (3, 1) := by
  have hfield : Leb128.Field [0x81, 0x80, 0x00] 1 :=
    .more (by decide) (.more (by decide) (.last (by decide)))
  have htaken := (lengthCodec_canonical.2.1 _ _ hfield (by decide)).2.1
  exact (lengthCodec_canonical.2.2.2.2 _ _ htaken (by decide) [0x81, 0x80, 0x00, 0xff] [0xff] 0
    rfl).1

end MqttEmbedded
