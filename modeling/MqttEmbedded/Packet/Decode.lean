import MqttEmbedded.Packet.Frame

/-!
# Deliveries and the length decoder

What a transport function is allowed to answer, and `MQTTPacket_decode`. The
same loop stands three times in the source: here, over a buffer, and in the
`decodePacket` of the two clients; it is one definition over the function that
gets a character, and one lemma says what it does on a complete field.
-/

namespace MqttEmbedded

open Region Hoare

/-- The answer to a request for `count` bytes: the value returned and the bytes
stored. A transport never stores more than it was asked for, and a positive
value is the number of bytes it stored. -/
structure Delivery (count : ℕ) where
  rc : ℤ
  data : List UInt8
  fits : data.length ≤ count
  exact : 0 < rc → rc = data.length

namespace Delivery

variable {count : ℕ}

/-- The bytes `data` arrived and their number is returned; no byte means zero. -/
def arrived (data : List UInt8) (h : data.length ≤ count) : Delivery count :=
  ⟨data.length, data, h, fun _ => rfl⟩

/-- Nothing was stored and `rc` says why. -/
def failed (rc : ℤ) (h : rc ≤ 0) : Delivery count :=
  ⟨rc, [], Nat.zero_le _, fun hp => absurd hp (by omega)⟩

theorem none_nonpos : (0 : ℤ) ≤ 0 := le_refl 0

theorem error_nonpos : (-1 : ℤ) ≤ 0 := by decide

end Delivery

/-- `MAX_NO_OF_REMAINING_LENGTH_BYTES`. -/
def maxNoOfRemainingLengthBytes : ℕ := 4

variable {σ : Type}

/-- The loop of `MQTTPacket_decode`, by the number of bytes it may still read.
The result is `len` with the value. -/
def decodeLoop (getchar : Prog σ (Delivery 1)) : ℕ → ℕ → ℕ → ℕ → Prog σ (ℕ × ℕ)
  | 0, len, value, _ => pure (len + 1, value) -- bad data
  | room + 1, len, value, multiplier => do
    let d ← getchar
    if d.rc ≠ 1 then pure (len + 1, value)
    else
      let c := d.data.headD 0
      let value := value + (c &&& 127).toNat * multiplier
      if c &&& 128 ≠ 0 then decodeLoop getchar room (len + 1) value (multiplier * 128)
      else pure (len + 1, value)

def mqttPacketDecode (getcharfn : Prog σ (Delivery 1)) : Prog σ (ℕ × ℕ) :=
  decodeLoop getcharfn maxNoOfRemainingLengthBytes 0 0 1

/-- Getting a character takes the next pending byte and nothing else of the
state, unless the byte is lost; and what is lost stays lost. -/
structure Feeds (getchar : Prog σ (Delivery 1)) (pending : σ → List UInt8) (lost : σ → Prop)
    (R : σ → σ → Prop) : Prop where
  stays : ∀ s, lost s → wp getchar (fun _ => lost) (fun _ _ => False) s
  takes : ∀ s b rest, pending s = b :: rest → wp getchar
    (fun d t => lost t ∨ (d.rc = 1 ∧ d.data = [b] ∧ pending t = rest ∧ R s t))
    (fun _ _ => False) s

section Loop

variable {getchar : Prog σ (Delivery 1)}

theorem decodeLoop_keeps {I : σ → Prop} {E : Fault → σ → Prop}
    (hget : ∀ s, I s → wp getchar (fun _ => I) E s) :
    ∀ (room len value multiplier : ℕ) (s : σ), I s →
    wp (decodeLoop getchar room len value multiplier) (fun _ => I) E s
  | 0, _, _, _, _, hs => hs
  | room + 1, len, value, multiplier, s, hs => by
    rw [decodeLoop, wp_bind]
    apply wp_imp (hget s hs)
    intro d t ht
    simp only [wp_ite, wp_pure]
    exact ⟨fun _ => ht, fun _ => ⟨fun _ => decodeLoop_keeps hget room _ _ _ t ht, fun _ => ht⟩⟩

theorem decodeLoop_moves {R : σ → σ → Prop} [Std.Refl R] [IsTrans σ R] (hget : Moves R getchar) :
    ∀ room len value multiplier : ℕ, Moves R (decodeLoop getchar room len value multiplier)
  | 0, _, _, _ => .pure _
  | room + 1, _, _, _ => .bind hget fun _ => .ite (.pure _)
      (.ite (decodeLoop_moves hget room _ _ _) (.pure _))

variable {pending : σ → List UInt8} {lost : σ → Prop} {R : σ → σ → Prop} [IsTrans σ R]

/-- A complete field is read to its last byte and no further. -/
theorem decodeLoop_field (hget : Feeds getchar pending lost R) {field : List UInt8} {n : ℕ}
    (hfield : Leb128.Field field n) : ∀ {room : ℕ} (len value multiplier : ℕ) {s : σ}
    {rest : List UInt8}, field.length ≤ room → pending s = field ++ rest →
    wp (decodeLoop getchar room len value multiplier)
      (fun r t => lost t ∨
        (r = (len + field.length, value + n * multiplier) ∧ pending t = rest ∧ R s t))
      (fun _ _ => False) s := by
  induction hfield with
  | @last b hb =>
    intro room len value multiplier s rest hroom hs
    obtain ⟨room, rfl⟩ : ∃ k, room = k + 1 := ⟨room - 1, by simp at hroom; omega⟩
    have hmask : (b &&& 127).toNat = b.toNat := by
      rw [Leb128.toNat_and_127, Nat.mod_eq_of_lt hb]
    have hflag : b &&& 128 = 0 := by
      by_contra h
      have := (Leb128.and_128_ne_zero_iff b).mp h
      omega
    rw [decodeLoop, wp_bind]
    apply wp_imp (hget.takes s b rest hs)
    rintro d t (hlost | ⟨hrc, hdata, hrest, hR⟩)
    · have hkeep := decodeLoop_keeps (fun s => hget.stays s) room
      simp only [wp_ite, wp_pure]
      exact ⟨fun _ => .inl hlost, fun _ => ⟨fun _ => wp_imp (hkeep _ _ _ t hlost)
        fun _ _ h => .inl h, fun _ => .inl hlost⟩⟩
    · simp [hrc, hdata, hmask, hflag, hrest, hR]
  | @more b bs n hb _ ih =>
    intro room len value multiplier s rest hroom hs
    obtain ⟨room, rfl⟩ : ∃ k, room = k + 1 := ⟨room - 1, by simp at hroom; omega⟩
    have hflag : b &&& 128 ≠ 0 := (Leb128.and_128_ne_zero_iff b).mpr hb
    rw [decodeLoop, wp_bind]
    apply wp_imp (hget.takes s b (bs ++ rest) hs)
    rintro d t (hlost | ⟨hrc, hdata, hrest, hR⟩)
    · have hkeep := decodeLoop_keeps (fun s => hget.stays s) room
      simp only [wp_ite, wp_pure]
      exact ⟨fun _ => .inl hlost, fun _ => ⟨fun _ => wp_imp (hkeep _ _ _ t hlost)
        fun _ _ h => .inl h, fun _ => .inl hlost⟩⟩
    · simp only [hrc, hdata, ne_eq, not_true_eq_false, if_false, List.headD_cons, hflag,
        not_false_eq_true, if_true]
      have hroom : bs.length ≤ room := by simpa using hroom
      apply wp_imp (ih _ _ _ hroom hrest)
      rintro r u (hlost | ⟨rfl, hdone, hR'⟩)
      · exact .inl hlost
      · refine .inr ⟨?_, hdone, IsTrans.trans s t u hR hR'⟩
        rw [Leb128.toNat_and_127, Prod.mk.injEq, List.length_cons]
        exact ⟨by omega, by ring⟩

theorem mqttPacketDecode_field (hget : Feeds getchar pending lost R) {field : List UInt8} {n : ℕ}
    (hfield : Leb128.Field field n) (hlen : field.length ≤ 4) {s : σ} {rest : List UInt8}
    (hs : pending s = field ++ rest) :
    wp (mqttPacketDecode getchar)
      (fun r t => lost t ∨ (r = (field.length, n) ∧ pending t = rest ∧ R s t))
      (fun _ _ => False) s := by
  simpa [mqttPacketDecode, maxNoOfRemainingLengthBytes] using
    decodeLoop_field hget hfield 0 0 1 hlen hs

end Loop

/-- Whatever the transport answers, the value stays below the weight of the
digits that were allowed, and only the character getter can go wrong. -/
theorem decodeLoop_bound {getchar : Prog σ (Delivery 1)} {I : σ → Prop}
    {E : Fault → σ → Prop} (hget : ∀ s, I s → wp getchar (fun _ => I) E s) :
    ∀ (room len value multiplier : ℕ) (s : σ), I s →
    wp (decodeLoop getchar room len value multiplier)
      (fun r t => r.2 + multiplier ≤ value + multiplier * 128 ^ room ∧ I t) E s
  | 0, len, value, multiplier, s, hs => by
    simpa [decodeLoop] using hs
  | room + 1, len, value, multiplier, s, hs => by
    have hpos : 1 ≤ 128 ^ room := Nat.one_le_pow _ _ (by norm_num)
    have hstep : multiplier * 128 ^ (room + 1) = multiplier * 128 * 128 ^ room := by ring
    have hmono : multiplier * 128 ≤ multiplier * 128 * 128 ^ room :=
      Nat.le_mul_of_pos_right _ hpos
    rw [decodeLoop, wp_bind]
    apply wp_imp (hget s hs)
    intro d t ht
    have hmask : (d.data.headD 0 &&& 127).toNat * multiplier ≤ 127 * multiplier := by
      rw [Leb128.toNat_and_127]
      exact Nat.mul_le_mul_right _ (by omega)
    simp only [wp_ite, wp_pure]
    refine ⟨fun _ => ⟨by omega, ht⟩, fun _ => ⟨fun _ => ?_, fun _ => ⟨by omega, ht⟩⟩⟩
    apply wp_imp (decodeLoop_bound hget room _ _ _ t ht)
    rintro r u ⟨hr, hu⟩
    exact ⟨by omega, hu⟩

theorem mqttPacketDecode_bound {getchar : Prog σ (Delivery 1)} {I : σ → Prop}
    {E : Fault → σ → Prop} (hget : ∀ s, I s → wp getchar (fun _ => I) E s) {s : σ}
    (hs : I s) :
    wp (mqttPacketDecode getchar) (fun r t => r.2 ≤ maxRemainingLength ∧ I t) E s := by
  apply wp_imp (decodeLoop_bound hget 4 0 0 1 s hs)
  rintro r t ⟨hr, ht⟩
  refine ⟨?_, ht⟩
  norm_num at hr
  unfold maxRemainingLength
  omega

end MqttEmbedded
