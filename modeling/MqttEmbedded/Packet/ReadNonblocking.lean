import MqttEmbedded.Packet.Read

/-!
# The non-blocking packet reader

`MQTTPacket_readnb` keeps what it has to remember between calls in an
`MQTTTransport`. The cases of its `switch` fall through, so each is a
definition that ends in the next one. The transport function and the
identification `sck` of its transport are the reader's `source`.
-/

namespace MqttEmbedded

open Region Hoare

/-- What a `getfn` must return: -1 for an error, 0 for call again, or the number
of bytes read. -/
structure DeliveryNb (count : ℕ) extends Delivery count where
  answer : -1 ≤ rc

abbrev GetfnNb (σ : Type) := (count : ℕ) → σ → DeliveryNb count × σ

@[ext] structure MQTTTransport where
  multiplier : ℕ
  remLen : ℕ
  len : ℕ
  state : ℕ

/-- The receive buffer, the transport structure and what lies behind it. -/
@[ext] structure ReaderNb (σ : Type) where
  buf : List UInt8
  trp : MQTTTransport
  source : σ

variable {σ : Type} (getfn : GetfnNb σ)

/-- `(*trp->getfn)(trp->sck, buf + position, count)`. -/
def getIntoNb (position count : ℕ) : Prog (ReaderNb σ) (DeliveryNb count) := fun r =>
  if position + count ≤ r.buf.length then
    let answer := getfn count r.source
    .ok answer.1 ⟨overwrite r.buf position answer.1.data, r.trp, answer.2⟩
  else .error .undefined r

/-- `(*trp->getfn)(trp->sck, &c, 1)`. -/
def getCharNb : Prog (ReaderNb σ) (DeliveryNb 1) := fun r =>
  let answer := getfn 1 r.source
  .ok answer.1 ⟨r.buf, r.trp, answer.2⟩

def encodeIntoNb (position length : ℕ) : Prog (ReaderNb σ) ℕ := fun r =>
  match encodeAt r.buf position length with
  | some (n, buf) => .ok n ⟨buf, r.trp, r.source⟩
  | none => .error .undefined r

def updateTrp (f : MQTTTransport → MQTTTransport) : Prog (ReaderNb σ) PUnit :=
  modify fun r => { r with trp := f r.trp }

/-- The loop of `MQTTPacket_decodenb`, by the number of bytes it may still read. -/
def decodenbLoop : ℕ → Prog (ReaderNb σ) ℤ
  | 0 => pure mqttpacketReadError
  | room + 1 => do
    let d ← getCharNb getfn
    if d.rc = -1 then pure mqttpacketReadError
    else if d.rc = 0 then pure 0
    else
      let c := d.data.headD 0
      updateTrp fun trp => { trp with
        len := trp.len + 1
        remLen := trp.remLen + (c &&& 127).toNat * trp.multiplier
        multiplier := trp.multiplier * 128 }
      if c &&& 128 ≠ 0 then decodenbLoop room
      else
        let r ← get
        pure r.trp.len

/-- Initialize on first call. -/
def initOnFirstCall (trp : MQTTTransport) : MQTTTransport :=
  if trp.len = 0 then { trp with multiplier := 1, remLen := 0 } else trp

def mqttPacketDecodenb : Prog (ReaderNb σ) ℤ := do
  updateTrp initOnFirstCall
  let r ← get
  decodenbLoop getfn (maxNoOfRemainingLengthBytes - r.trp.len)

/-- `exit`: the next call starts with a new packet. -/
def exitNb (rc : ℤ) : Prog (ReaderNb σ) ℤ := do
  updateTrp fun trp => { trp with state := 0 }
  pure rc

def exitWithType : Prog (ReaderNb σ) ℤ := do
  let r ← get
  exitNb (MQTTHeader.type (r.buf.headD 0))

/-- `case 2`: read the rest of the buffer. -/
def readnbBody : Prog (ReaderNb σ) ℤ := do
  let r ← get
  if r.trp.remLen ≠ 0 then
    let d ← getIntoNb getfn r.trp.len r.trp.remLen
    if d.rc = -1 then exitNb (-1)
    else if d.rc = 0 then pure 0
    else
      updateTrp fun trp => { trp with
        remLen := trp.remLen - d.rc.toNat
        len := trp.len + d.rc.toNat }
      let r ← get
      if r.trp.remLen ≠ 0 then pure 0
      else exitWithType
  else exitWithType

/-- `case 1`: read the remaining length and put it back into the buffer. -/
def readnbLength : Prog (ReaderNb σ) ℤ := do
  let frc ← mqttPacketDecodenb getfn
  if frc = mqttpacketReadError then exitNb (-1)
  else if frc = 0 then pure 0
  else
    let r ← get
    let n ← encodeIntoNb 1 r.trp.remLen
    updateTrp fun trp => { trp with len := 1 + n }
    let r ← get
    if r.buf.length < r.trp.remLen + r.trp.len then exitNb (-1)
    else
      updateTrp fun trp => { trp with state := trp.state + 1 }
      readnbBody getfn

/-- `case 0`: read the header byte. -/
def readnbHeader : Prog (ReaderNb σ) ℤ := do
  let d ← getIntoNb getfn 0 1
  if d.rc = -1 then exitNb (-1)
  else if d.rc = 0 then pure 0
  else
    updateTrp fun trp => { trp with len := 0, state := trp.state + 1 }
    readnbLength getfn

def mqttPacketReadnb : Prog (ReaderNb σ) ℤ := do
  let r ← get
  match r.trp.state with
  | 0 => readnbHeader getfn
  | 1 => readnbLength getfn
  | 2 => readnbBody getfn
  | _ => do
    updateTrp fun trp => { trp with state := 0 }
    readnbHeader getfn

/-- What the caller does with the buffer before its `k`-th call: anything that
leaves it a buffer of that length. -/
structure Caller where
  reuse : ℕ → MQTTTransport → List UInt8 → List UInt8
  length_reuse : ∀ k trp buf, (reuse k trp buf).length = buf.length

/-- `count` calls, the `k`-th first, with the value each returned and the state it left. -/
def mqttPacketReadnbs (caller : Caller) : ℕ → ℕ → Prog (ReaderNb σ) (List (ℤ × ReaderNb σ))
  | _, 0 => pure []
  | k, count + 1 => do
    modify fun r => { r with buf := caller.reuse k r.trp r.buf }
    let rc ← mqttPacketReadnb getfn
    let r ← get
    let later ← mqttPacketReadnbs caller (k + 1) count
    pure ((rc, r) :: later)

section

variable {Q : PUnit → ReaderNb σ → Prop} {E : Fault → ReaderNb σ → Prop} {r : ReaderNb σ}

@[simp] theorem wp_updateTrp (f : MQTTTransport → MQTTTransport) :
    wp (updateTrp f) Q E r ↔ Q ⟨⟩ { r with trp := f r.trp } := Iff.rfl

@[simp] theorem wp_exitNb {Q : ℤ → ReaderNb σ → Prop} (rc : ℤ) :
    wp (exitNb rc) Q E r ↔ Q rc { r with trp := { r.trp with state := 0 } } := Iff.rfl

@[simp] theorem wp_exitWithType {Q : ℤ → ReaderNb σ → Prop} :
    wp exitWithType Q E r ↔
      Q (MQTTHeader.type (r.buf.headD 0)) { r with trp := { r.trp with state := 0 } } := Iff.rfl

theorem wp_getCharNb {Q : DeliveryNb 1 → ReaderNb σ → Prop} :
    wp (getCharNb getfn) Q E r ↔
      Q (getfn 1 r.source).1 { r with source := (getfn 1 r.source).2 } := Iff.rfl

theorem wp_getIntoNb {position count : ℕ} {Q : DeliveryNb count → ReaderNb σ → Prop}
    (h : position + count ≤ r.buf.length) :
    wp (getIntoNb getfn position count) Q E r ↔ Q (getfn count r.source).1
      ⟨overwrite r.buf position (getfn count r.source).1.data, r.trp,
        (getfn count r.source).2⟩ :=
  wp_ok (by simp only [getIntoNb, if_pos h])

theorem wp_encodeIntoNb {position n : ℕ} {Q : ℕ → ReaderNb σ → Prop} (hn : n < 2 ^ 31)
    (h : position + (Leb128.encode n).length ≤ r.buf.length) :
    wp (encodeIntoNb position n) Q E r ↔ Q (Leb128.encode n).length
      { r with buf := overwrite r.buf position (Leb128.encode n) } :=
  wp_ok (by simp only [encodeIntoNb, encodeAt_eq hn h])

end

/-- The length field read so far: `multiplier` is the weight of the next digit. -/
def Digits (trp : MQTTTransport) : Prop :=
  trp.len ≤ 4 ∧ trp.multiplier = 128 ^ trp.len ∧ trp.remLen < 128 ^ trp.len

/-- What a suspended reader may have left in the transport structure. -/
structure Saved (buflen : ℕ) (r : ReaderNb σ) : Prop where
  length_buf : r.buf.length = buflen
  digits : r.trp.state = 1 → r.trp.len = 0 ∨ Digits r.trp
  body : r.trp.state = 2 → r.trp.len + r.trp.remLen ≤ buflen

theorem Digits.next {trp : MQTTTransport} (h : Digits trp) (hroom : trp.len < 4) (c : UInt8) :
    Digits { trp with
      len := trp.len + 1
      remLen := trp.remLen + (c &&& 127).toNat * trp.multiplier
      multiplier := trp.multiplier * 128 } := by
  obtain ⟨-, hmul, hrem⟩ := h
  have hdigit : (c &&& 127).toNat ≤ 127 := by
    rw [Leb128.toNat_and_127]
    omega
  refine ⟨hroom, ?_, ?_⟩
  · simp only [hmul, pow_succ]
  · calc trp.remLen + (c &&& 127).toNat * trp.multiplier
        < 128 ^ trp.len + 127 * 128 ^ trp.len := by
          rw [hmul]
          exact Nat.add_lt_add_of_lt_of_le hrem (Nat.mul_le_mul_right _ hdigit)
      _ = 128 ^ (trp.len + 1) := by ring

theorem Digits.remLen_le {trp : MQTTTransport} (h : Digits trp) :
    trp.remLen ≤ maxRemainingLength := by
  obtain ⟨hlen, -, hrem⟩ := h
  have : 128 ^ trp.len ≤ 128 ^ 4 := Nat.pow_le_pow_right (by norm_num) hlen
  unfold maxRemainingLength
  omega

theorem decodenbLoop_digits : ∀ (room : ℕ) {r : ReaderNb σ}, Digits r.trp →
    r.trp.len + room = 4 → wp (decodenbLoop getfn room)
      (fun _ t => t.buf = r.buf ∧ t.trp.state = r.trp.state ∧ Digits t.trp)
      (fun _ _ => False) r
  | 0, r, hdigits, _ => ⟨rfl, rfl, hdigits⟩
  | room + 1, r, hdigits, hroom => by
    rw [decodenbLoop, wp_bind, wp_getCharNb]
    simp only [wp_ite, wp_pure, wp_bind, wp_updateTrp, wp_get]
    have hnext := hdigits.next (by omega) ((getfn 1 r.source).1.data.headD 0)
    refine ⟨fun _ => ⟨trivial, trivial, hdigits⟩, fun _ => ⟨fun _ => ⟨trivial, trivial, hdigits⟩,
      fun _ => ⟨fun _ => ?_, fun _ => ⟨trivial, trivial, hnext⟩⟩⟩⟩
    exact decodenbLoop_digits room hnext (by dsimp only; omega)

theorem Digits.init {trp : MQTTTransport} (h : trp.len = 0 ∨ Digits trp) :
    Digits (initOnFirstCall trp) := by
  unfold initOnFirstCall
  split_ifs with hzero
  · simp [Digits, hzero]
  · exact h.resolve_left hzero

@[simp] theorem len_initOnFirstCall (trp : MQTTTransport) :
    (initOnFirstCall trp).len = trp.len := by
  unfold initOnFirstCall
  split_ifs <;> rfl

@[simp] theorem state_initOnFirstCall (trp : MQTTTransport) :
    (initOnFirstCall trp).state = trp.state := by
  unfold initOnFirstCall
  split_ifs <;> rfl

theorem mqttPacketDecodenb_digits {r : ReaderNb σ} (h : r.trp.len = 0 ∨ Digits r.trp) :
    wp (mqttPacketDecodenb getfn)
      (fun _ t => t.buf = r.buf ∧ t.trp.state = r.trp.state ∧ Digits t.trp)
      (fun _ _ => False) r := by
  have hdigits := Digits.init h
  unfold mqttPacketDecodenb
  simp only [wp_bind, wp_updateTrp, wp_get]
  apply wp_imp (decodenbLoop_digits getfn (r := { r with trp := initOnFirstCall r.trp }) _ hdigits
    (Nat.add_sub_cancel' hdigits.1))
  rintro rc t ⟨hbuf, hstate, ht⟩
  exact ⟨hbuf, hstate.trans (state_initOnFirstCall _), ht⟩

variable {buflen : ℕ}

theorem readnbBody_saved {r : ReaderNb σ} (hbuf : r.buf.length = buflen)
    (hstate : r.trp.state = 2) (hbody : r.trp.len + r.trp.remLen ≤ buflen) :
    wp (readnbBody getfn) (fun _ => Saved buflen) (fun _ _ => False) r := by
  have hsaved {b : List UInt8} {trp : MQTTTransport} {s : σ} (hb : b.length = buflen)
      (hs : trp.state = 0 ∨ trp.state = 2 ∧ trp.len + trp.remLen ≤ buflen) :
      Saved buflen (⟨b, trp, s⟩ : ReaderNb σ) := by
    refine ⟨hb, fun h1 => ?_, fun h2 => ?_⟩ <;> rcases hs with h | h <;> simp_all
  unfold readnbBody
  simp only [wp_bind, wp_get, wp_ite, wp_exitWithType]
  refine ⟨fun _ => ?_, fun _ => hsaved hbuf (.inl rfl)⟩
  rw [wp_getIntoNb getfn (by omega)]
  have hfits := (getfn r.trp.remLen r.source).1.fits
  have hexact := (getfn r.trp.remLen r.source).1.exact
  have hlow := (getfn r.trp.remLen r.source).1.answer
  have hlen : (overwrite r.buf r.trp.len (getfn r.trp.remLen r.source).1.data).length = buflen :=
    (length_overwrite (by omega)).trans hbuf
  simp only [wp_exitNb, wp_pure, wp_updateTrp]
  refine ⟨fun _ => hsaved hlen (.inl rfl), fun _ => ⟨fun _ => hsaved hlen (.inr ⟨hstate, hbody⟩),
    fun _ => ⟨fun _ => hsaved hlen (.inr ⟨hstate, ?_⟩), fun _ => hsaved hlen (.inl rfl)⟩⟩⟩
  dsimp only
  omega

theorem readnbLength_saved (hfive : 5 ≤ buflen) {r : ReaderNb σ} (hbuf : r.buf.length = buflen)
    (hstate : r.trp.state = 1) (hdigits : r.trp.len = 0 ∨ Digits r.trp) :
    wp (readnbLength getfn) (fun _ => Saved buflen) (fun _ _ => False) r := by
  unfold readnbLength
  rw [wp_bind]
  apply wp_imp (mqttPacketDecodenb_digits getfn hdigits)
  rintro frc t ⟨htbuf, htstate, htdigits⟩
  have hrem := htdigits.remLen_le
  have hfield : (Leb128.encode t.trp.remLen).length ≤ 4 := by
    apply Leb128.encode_length_le
    unfold maxRemainingLength at hrem
    norm_num
    omega
  have hsmall : t.trp.remLen < 2 ^ 31 := hrem.trans_lt (by unfold maxRemainingLength; norm_num)
  have htlen : t.buf.length = buflen := by rw [htbuf, hbuf]
  have hlen : (overwrite t.buf 1 (Leb128.encode t.trp.remLen)).length = buflen :=
    (length_overwrite (by omega)).trans htlen
  simp only [wp_ite, wp_bind, wp_exitNb, wp_pure, wp_get]
  refine ⟨fun _ => ⟨htlen, by simp, by simp⟩, fun _ => ⟨fun _ => ⟨htlen, fun _ => .inr htdigits,
    fun h => by omega⟩, fun _ => ?_⟩⟩
  rw [wp_encodeIntoNb hsmall (by omega)]
  simp only [wp_updateTrp]
  refine ⟨fun _ => ⟨hlen, by simp, by simp⟩, fun hroom => ?_⟩
  exact readnbBody_saved getfn hlen (by dsimp only; omega) (by dsimp only; omega)

theorem readnbHeader_saved (hfive : 5 ≤ buflen) {r : ReaderNb σ} (hbuf : r.buf.length = buflen)
    (hstate : r.trp.state = 0) :
    wp (readnbHeader getfn) (fun _ => Saved buflen) (fun _ _ => False) r := by
  unfold readnbHeader
  rw [wp_bind, wp_getIntoNb getfn (by omega)]
  have hfits := (getfn 1 r.source).1.fits
  have hlen : (overwrite r.buf 0 (getfn 1 r.source).1.data).length = buflen :=
    (length_overwrite (by omega)).trans hbuf
  simp only [wp_ite, wp_bind, wp_exitNb, wp_pure, wp_updateTrp]
  refine ⟨fun _ => ⟨hlen, by simp, by simp⟩, fun _ => ⟨fun _ => ⟨hlen, by simp [hstate],
    by simp [hstate]⟩, fun _ => ?_⟩⟩
  exact readnbLength_saved getfn hfive hlen (by simp [hstate]) (.inl rfl)

/-- One call keeps the bound, whatever the transport answers. -/
theorem mqttPacketReadnb_saved (hfive : 5 ≤ buflen) {r : ReaderNb σ} (h : Saved buflen r) :
    wp (mqttPacketReadnb getfn) (fun _ => Saved buflen) (fun _ _ => False) r := by
  obtain ⟨hbuf, hdigits, hbody⟩ := h
  unfold mqttPacketReadnb
  simp only [wp_bind, wp_get]
  split
  · exact readnbHeader_saved getfn hfive hbuf ‹_›
  · exact readnbLength_saved getfn hfive hbuf ‹_› (hdigits ‹_›)
  · exact readnbBody_saved getfn hbuf ‹_› (hbody ‹_›)
  · simp only [wp_bind, wp_updateTrp]
    exact readnbHeader_saved getfn hfive hbuf rfl

theorem Saved.of_start {r : ReaderNb σ} (hbuf : r.buf.length = buflen) (hstate : r.trp.state = 0) :
    Saved buflen r :=
  ⟨hbuf, by simp [hstate], by simp [hstate]⟩

theorem mqttPacketReadnbs_saved (hfive : 5 ≤ buflen) (caller : Caller) : ∀ (count k : ℕ)
    {r : ReaderNb σ}, Saved buflen r →
    wp (mqttPacketReadnbs getfn caller k count) (fun _ => Saved buflen) (fun _ _ => False) r
  | 0, k, r, h => h
  | count + 1, k, r, h => by
    rw [mqttPacketReadnbs]
    simp only [wp_bind, wp_modify, wp_get, wp_pure]
    have hturn : Saved buflen { r with buf := caller.reuse k r.trp r.buf } :=
      ⟨(caller.length_reuse _ _ _).trans h.length_buf, h.digits, h.body⟩
    apply wp_imp (mqttPacketReadnb_saved getfn hfive hturn)
    intro rc t ht
    exact mqttPacketReadnbs_saved hfive caller count (k + 1) ht

end MqttEmbedded
