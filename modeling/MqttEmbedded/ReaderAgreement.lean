import MqttEmbedded.ClientC.Operations
import MqttEmbedded.ClientCpp.Accounts

/-!
# The three blocking readers agree

`MQTTPacket_read` and the `readPacket` of the two clients, each on a transport that
brings every byte asked for of one stream. What a stream holds from a position on is
said once, and each of the readers is shown to do that; so they do the same, also with
length fields that go on for too long and with packets that do not fit.
-/

namespace MqttEmbedded

open Region Hoare

variable (stream : ℕ → UInt8)

/-- The `count` bytes from `position` on. -/
def chunk (position count : ℕ) : List UInt8 := (List.range' position count).map stream

@[simp] theorem length_chunk (position count : ℕ) :
    (chunk stream position count).length = count := by
  simp [chunk]

/-- The position after the length field, of at most `room` bytes, with its value. -/
def lengthAt : ℕ → ℕ → ℕ → ℕ → ℕ × ℕ
  | 0, value, _, position => (position, value)
  | room + 1, value, multiplier, position =>
    let c := stream position
    let value := value + (c &&& 127).toNat * multiplier
    if c &&& 128 ≠ 0 then lengthAt room value (multiplier * 128) (position + 1)
    else (position + 1, value)

theorem lengthAt_bound (room value multiplier position : ℕ) :
    (lengthAt stream room value multiplier position).2 + multiplier ≤
      value + multiplier * 128 ^ room := by
  induction room generalizing value multiplier position with
  | zero => simp [lengthAt]
  | succ room ih =>
    have hpos : 1 ≤ 128 ^ room := Nat.one_le_pow _ _ (by norm_num)
    have hstep : multiplier * 128 ^ (room + 1) = multiplier * 128 * 128 ^ room := by ring
    have hmono : multiplier * 128 ≤ multiplier * 128 * 128 ^ room :=
      Nat.le_mul_of_pos_right _ hpos
    have hmask : (stream position &&& 127).toNat * multiplier ≤ 127 * multiplier := by
      rw [Leb128.toNat_and_127]
      exact Nat.mul_le_mul_right _ (by omega)
    rw [lengthAt]
    split_ifs
    · have hrest := ih (value + (stream position &&& 127).toNat * multiplier) (multiplier * 128)
        (position + 1)
      omega
    · dsimp only
      omega

/-- What a packet at `position` is as far as a reader can tell. -/
def fieldEnd (position : ℕ) : ℕ := (lengthAt stream 4 0 1 (position + 1)).1

def remLenAt (position : ℕ) : ℕ := (lengthAt stream 4 0 1 (position + 1)).2

def bodyAt (position : ℕ) : List UInt8 :=
  chunk stream (fieldEnd stream position) (remLenAt stream position)

/-- The packet with its length in the shortest length field. -/
def packetAt (position : ℕ) : List UInt8 := frameBytes (stream position) (bodyAt stream position)

theorem remLenAt_le (position : ℕ) : remLenAt stream position ≤ maxRemainingLength := by
  have hbound := lengthAt_bound stream 4 0 1 (position + 1)
  rw [remLenAt]
  unfold maxRemainingLength
  omega

/-- What a reader that began at `position` with `size` bytes of buffer has done. -/
def ReadsPacket (position size : ℕ) (rc : ℤ) (position' : ℕ) (buf : List UInt8) : Prop :=
  if (packetAt stream position).length ≤ size then
    rc = MQTTHeader.type (stream position) ∧
      position' = fieldEnd stream position + remLenAt stream position ∧
      buf.take (packetAt stream position).length = packetAt stream position
  else rc < 0 ∧ position' = fieldEnd stream position

section

variable {stream} {σ : Type} {position : σ → ℕ} {getchar : Prog σ (Delivery 1)}
  {R : σ → σ → Prop} [Std.Refl R] [IsTrans σ R]

theorem decodeLoop_lengthAt
    (hget : ∀ s, wp getchar (fun d t => d.rc = 1 ∧ d.data = [stream (position s)] ∧
      position t = position s + 1 ∧ R s t) (fun _ _ => False) s)
    (room len value multiplier : ℕ) (s : σ) :
    wp (decodeLoop getchar room len value multiplier) (fun decoded t =>
      (position t, decoded.2) = lengthAt stream room value multiplier (position s) ∧ R s t)
      (fun _ _ => False) s := by
  induction room generalizing len value multiplier s with
  | zero => exact ⟨rfl, Std.Refl.refl s⟩
  | succ room ih =>
    rw [decodeLoop, wp_bind]
    apply wp_imp (hget s)
    intro d t h
    obtain ⟨hrc, hdata, hposition, hR⟩ := h
    simp only [hrc, hdata, List.headD_cons, ne_eq, not_true_eq_false, if_false, lengthAt]
    split_ifs with hlast
    · exact ⟨by rw [hposition], hR⟩
    · apply wp_imp (ih (len + 1) _ (multiplier * 128) t)
      intro decoded u h
      obtain ⟨hdecoded, hR'⟩ := h
      rw [hposition] at hdecoded
      exact ⟨hdecoded, IsTrans.trans _ _ _ hR hR'⟩

end

/-- A transport function from which every read brings all the bytes. -/
structure Tap {σ : Type} (getfn : Getfn σ) where
  position : σ → ℕ
  brings : ∀ count s, (getfn count s).1.rc = count ∧
    (getfn count s).1.data = chunk stream (position s) count ∧
    position (getfn count s).2 = position s + count

section

variable {stream} {σ : Type} {getfn : Getfn σ} (tap : Tap stream getfn)

theorem Tap.getChar_next (r : Reader σ) : wp (getChar getfn) (fun d t => d.rc = 1 ∧
    d.data = [stream (tap.position r.source)] ∧
    tap.position t.source = tap.position r.source + 1 ∧ t.buf = r.buf) (fun _ _ => False) r := by
  obtain ⟨hrc, hdata, hposition⟩ := tap.brings 1 r.source
  exact ⟨hrc, hdata, hposition, rfl⟩

theorem Tap.getBody_next {len remLen : ℕ} {r : Reader σ} (h : len + remLen ≤ r.buf.length) :
    wp (getBody getfn len remLen) (fun complete t => complete = true ∧
      t.buf = overwrite r.buf len (chunk stream (tap.position r.source) remLen) ∧
      tap.position t.source = tap.position r.source + remLen) (fun _ _ => False) r := by
  unfold getBody
  simp only [wp_ite, wp_pure, wp_bind]
  constructor
  · intro hzero
    subst hzero
    exact ⟨trivial, (overwrite_nil _ _).symm, rfl⟩
  · intro hpos
    obtain ⟨hrc, hdata, hposition⟩ := tap.brings remLen r.source
    rw [wp_ok (by simp only [getInto, if_pos h]; rfl)]
    exact ⟨by simp [hrc], by rw [hdata], hposition⟩

theorem length_packetAt (stream : ℕ → UInt8) (position : ℕ) :
    (packetAt stream position).length = 1 + (Leb128.encode (remLenAt stream position)).length +
      remLenAt stream position := by
  simp only [packetAt, bodyAt, frameBytes, List.length_cons, List.length_append, length_chunk]
  omega

theorem length_field_le (stream : ℕ → UInt8) (position : ℕ) :
    (Leb128.encode (remLenAt stream position)).length ≤ 4 := by
  apply Leb128.encode_length_le
  have hle := remLenAt_le stream position
  unfold maxRemainingLength at hle
  norm_num
  omega

theorem take_packetAt {buf : List UInt8} {position : ℕ}
    (h : (packetAt stream position).length ≤ buf.length) :
    (overwrite (overwrite (overwrite buf 0 [stream position]) 1
      (Leb128.encode (remLenAt stream position)))
      (1 + (Leb128.encode (remLenAt stream position)).length) (bodyAt stream position)).take
      (packetAt stream position).length = packetAt stream position := by
  have hbody : (bodyAt stream position).length = remLenAt stream position := length_chunk _ _ _
  rw [length_packetAt] at h
  rw [← hbody, overwrite_frame (by rw [hbody]; exact h)]
  exact take_overwrite_zero buf (packetAt stream position)

theorem readsPacket_stored {buf buf' : List UInt8} {position position' : ℕ}
    (hroom : (packetAt stream position).length ≤ buf.length)
    (hbuf : buf' = overwrite (overwrite (overwrite buf 0 [stream position]) 1
      (Leb128.encode (remLenAt stream position)))
      (1 + (Leb128.encode (remLenAt stream position)).length) (bodyAt stream position))
    (hposition : position' = fieldEnd stream position + remLenAt stream position) :
    ReadsPacket stream position buf.length (MQTTHeader.type (buf'.headD 0)) position' buf' := by
  have hstored : buf'.take (packetAt stream position).length = packetAt stream position := by
    rw [hbuf]
    exact take_packetAt hroom
  rw [ReadsPacket, if_pos hroom]
  exact ⟨by rw [headD_of_take hstored], hposition, hstored⟩

theorem mqttPacketRead_reads {r : Reader σ} (hfive : 5 ≤ r.buf.length) :
    wp (mqttPacketRead getfn) (fun rc t => ReadsPacket stream (tap.position r.source) r.buf.length
      rc (tap.position t.source) t.buf) (fun _ _ => False) r := by
  have hfield := length_field_le stream (tap.position r.source)
  have hsmall := lt_of_le_maxRemainingLength (remLenAt_le stream (tap.position r.source))
  have hpacket := length_packetAt stream (tap.position r.source)
  obtain ⟨hrc, hdata, hposition⟩ := tap.brings 1 r.source
  have hheader : (overwrite r.buf 0 [stream (tap.position r.source)]).length = r.buf.length :=
    length_overwrite (by simp; omega)
  have : Std.Refl fun r t : Reader σ => t.buf = r.buf := ⟨fun _ => rfl⟩
  have : IsTrans (Reader σ) fun r t : Reader σ => t.buf = r.buf := ⟨fun _ _ _ h h' => h'.trans h⟩
  unfold mqttPacketRead
  rw [wp_bind, wp_ok (by simp only [getInto, if_pos (show 0 + 1 ≤ r.buf.length by omega)]; rfl)]
  simp only [hrc, hdata, Nat.cast_one, ne_eq, not_true_eq_false, if_false, wp_bind]
  apply wp_imp (decodeLoop_lengthAt tap.getChar_next 4 0 0 1 _)
  intro decoded t h
  obtain ⟨hdecoded, hbuf⟩ := h
  rw [hposition] at hdecoded
  obtain ⟨hend, hremLen⟩ := Prod.mk.inj hdecoded
  change tap.position t.source = fieldEnd stream (tap.position r.source) at hend
  change decoded.2 = remLenAt stream (tap.position r.source) at hremLen
  change t.buf = overwrite r.buf 0 [stream (tap.position r.source)] at hbuf
  have hroom : 1 + (Leb128.encode (remLenAt stream (tap.position r.source))).length ≤
      t.buf.length := by
    rw [hbuf, hheader]
    omega
  have hlength : (overwrite t.buf 1
      (Leb128.encode (remLenAt stream (tap.position r.source)))).length = r.buf.length := by
    rw [length_overwrite hroom, hbuf, hheader]
  rw [hremLen]
  apply wp_encodeInto hsmall hroom
  simp only [wp_get, wp_ite, wp_pure, wp_bind, hlength]
  constructor
  · intro hlong
    rw [ReadsPacket, if_neg (by omega)]
    exact ⟨by decide, hend⟩
  · intro hfits
    apply wp_imp (tap.getBody_next (by rw [hlength]; omega))
    intro complete u h
    obtain ⟨hcomplete, hbuf', hposition'⟩ := h
    rw [hend] at hbuf' hposition'
    rw [hbuf] at hbuf'
    exact ⟨fun _ => readsPacket_stored (by omega) hbuf' hposition', fun h => absurd hcomplete h⟩

end

/-- A platform whose network brings all the bytes, while the timers leave it alone. -/
structure Platform.Tap {ω τ H : Type} (p : Platform ω τ H) where
  position : ω → ℕ
  brings : ∀ count timeout w, (p.mqttread count timeout w).1.rc = count ∧
    (p.mqttread count timeout w).1.data = chunk stream (position w) count ∧
    position (p.mqttread count timeout w).2 = position w + count
  timerLeftMS : ∀ timer w, position (p.timerLeftMS timer w).2 = position w
  timerCountdown : ∀ timer seconds w, position (p.timerCountdown timer seconds w).2 = position w

section

variable {stream} {χ ω τ H : Type} {p : Platform ω τ H} (tap : Platform.Tap stream p)

theorem Platform.Tap.ask_next (timeout : ℤ) (s : Session χ ω τ H) :
    wp (ask (p.mqttread 1 timeout)) (fun d t => d.rc = 1 ∧
      d.data = [stream (tap.position s.world)] ∧
      tap.position t.world = tap.position s.world + 1 ∧ t.client = s.client)
      (fun _ _ => False) s := by
  obtain ⟨hrc, hdata, hposition⟩ := tap.brings 1 timeout s.world
  exact ⟨hrc, hdata, hposition, rfl⟩

theorem Platform.Tap.readBody_next {len remLen : ℕ} {timer : τ} {s : Session χ ω τ H}
    (h : len + remLen ≤ s.client.readbuf.length) :
    wp (readBody p len remLen timer) (fun complete t => complete = true ∧
      t.client.readbuf = overwrite s.client.readbuf len
        (chunk stream (tap.position s.world) remLen) ∧
      tap.position t.world = tap.position s.world + remLen) (fun _ _ => False) s := by
  unfold readBody
  simp only [wp_ite, wp_pure, wp_bind, wp_ask]
  constructor
  · intro hzero
    subst hzero
    exact ⟨trivial, (overwrite_nil _ _).symm, rfl⟩
  · intro hpos
    have htimer := tap.timerLeftMS timer s.world
    obtain ⟨hrc, hdata, hposition⟩ := tap.brings remLen (p.timerLeftMS timer s.world).1
      (p.timerLeftMS timer s.world).2
    rw [htimer] at hdata hposition
    rw [wp_readInto p (s := { s with world := (p.timerLeftMS timer s.world).2 }) h]
    exact ⟨by simp [hrc], by rw [hdata], hposition⟩

theorem readPacketWith_reads {tooLong : ℕ → ℕ → ℕ → Bool} {shortBody : ℤ} {timer : τ}
    {s : Session χ ω τ H} (hfive : 5 ≤ s.client.readbuf.length)
    (htest : ∀ len remLen, len ≤ 5 → (tooLong s.client.readbuf.length len remLen = true ↔
      s.client.readbuf.length < len + remLen)) :
    wp (readPacketWith p tooLong shortBody timer) (fun rc t => ReadsPacket stream
      (tap.position s.world) s.client.readbuf.length rc (tap.position t.world) t.client.readbuf)
      (fun _ _ => False) s := by
  have hfield := length_field_le stream (tap.position s.world)
  have hsmall := lt_of_le_maxRemainingLength (remLenAt_le stream (tap.position s.world))
  have hpacket := length_packetAt stream (tap.position s.world)
  have htimer := tap.timerLeftMS timer s.world
  obtain ⟨hrc, hdata, hposition⟩ := tap.brings 1 (p.timerLeftMS timer s.world).1
    (p.timerLeftMS timer s.world).2
  rw [htimer] at hdata hposition
  have hheader : (overwrite s.client.readbuf 0 [stream (tap.position s.world)]).length =
      s.client.readbuf.length := length_overwrite (by simp; omega)
  have : Std.Refl fun s t : Session χ ω τ H => t.client = s.client := ⟨fun _ => rfl⟩
  have : IsTrans (Session χ ω τ H) fun s t => t.client = s.client :=
    ⟨fun _ _ _ h h' => h'.trans h⟩
  unfold readPacketWith readRest decodePacket
  rw [wp_bind, wp_ask, wp_bind, wp_readInto p (by dsimp only; omega)]
  simp only [hrc, hdata, Nat.cast_one, ne_eq, not_true_eq_false, if_false, wp_bind, wp_ask]
  apply wp_imp (decodeLoop_lengthAt (tap.ask_next _) 4 0 0 1 _)
  intro decoded t h
  obtain ⟨hdecoded, hclient⟩ := h
  rw [tap.timerLeftMS, hposition] at hdecoded
  obtain ⟨hend, hremLen⟩ := Prod.mk.inj hdecoded
  change tap.position t.world = fieldEnd stream (tap.position s.world) at hend
  change decoded.2 = remLenAt stream (tap.position s.world) at hremLen
  have hbuf : t.client.readbuf = overwrite s.client.readbuf 0 [stream (tap.position s.world)] :=
    congrArg MQTTClient.readbuf hclient
  have hroom : 1 + (Leb128.encode (remLenAt stream (tap.position s.world))).length ≤
      t.client.readbuf.length := by
    rw [hbuf, hheader]
    omega
  have hlength : (overwrite t.client.readbuf 1
      (Leb128.encode (remLenAt stream (tap.position s.world)))).length =
      s.client.readbuf.length := by
    rw [length_overwrite hroom, hbuf, hheader]
  have hlong := htest (1 + (Leb128.encode (remLenAt stream (tap.position s.world))).length)
    (remLenAt stream (tap.position s.world)) (by omega)
  rw [hremLen]
  unfold readRemaining
  rw [wp_bind, wp_encodeIntoReadbuf hsmall hroom]
  simp only [wp_ite, wp_pure, wp_bind, wp_getClient, hlength, hlong]
  constructor
  · intro hlong
    rw [ReadsPacket, if_neg (by omega)]
    exact ⟨by decide, hend⟩
  · intro hfits
    apply wp_imp (tap.readBody_next (by dsimp only; omega))
    intro complete u h
    obtain ⟨hcomplete, hbuf', hposition'⟩ := h
    dsimp only at hbuf' hposition'
    rw [hend] at hbuf' hposition'
    rw [hbuf] at hbuf'
    have hcountdown := tap.timerCountdown u.client.lastReceived u.client.keepAliveInterval u.world
    constructor
    · intro _
      rw [wp_recordReceived]
      constructor
      · exact fun _ => readsPacket_stored (by omega) hbuf' (hcountdown.trans hposition')
      · exact fun _ => readsPacket_stored (by omega) hbuf' hposition'
    · exact fun h => absurd hcomplete h

end

theorem ClientC.readPacket_reads {ω τ H : Type} {p : Platform ω τ H}
    (tap : Platform.Tap stream p) (timer : τ) {s : ClientC.Client ω τ H}
    (hfive : 5 ≤ s.client.readbuf.length) :
    wp (ClientC.readPacket p timer) (fun rc t => ReadsPacket stream (tap.position s.world)
      s.client.readbuf.length rc (tap.position t.world) t.client.readbuf) (fun _ _ => False) s := by
  apply readPacketWith_reads tap hfive
  intro len remLen hlen
  have hle : len ≤ s.client.readbuf.length := by omega
  simp only [ClientC.tooLong, ClientC.sizeSub, if_pos hle, decide_eq_true_eq]
  omega

theorem ClientCpp.readPacket_reads {ω τ H : Type} {p : Platform ω τ H}
    (tap : Platform.Tap stream p) (timer : τ) {s : ClientCpp.Client ω τ H}
    (hfive : 5 ≤ s.client.readbuf.length) :
    wp (ClientCpp.readPacket p timer) (fun rc t => ReadsPacket stream (tap.position s.world)
      s.client.readbuf.length rc (tap.position t.world) t.client.readbuf) (fun _ _ => False) s := by
  unfold ClientCpp.readPacket
  rw [wp_bind]
  refine wp_imp (readPacketWith_reads tap hfive fun len remLen _ => ?_) fun _ _ h => h
  rw [ClientCpp.tooLong, decide_eq_true_eq]
  omega

/-- Two readers that do what the stream says leave their streams at the same position, fail
together, and otherwise return the same type with the same packet. -/
theorem ReadsPacket.agree {position size : ℕ} {rc rc' : ℤ} {end1 end2 : ℕ} {buf buf' : List UInt8}
    (h : ReadsPacket stream position size rc end1 buf)
    (h' : ReadsPacket stream position size rc' end2 buf') :
    end2 = end1 ∧ (rc' < 0 ↔ rc < 0) ∧ (¬ rc < 0 → rc' = rc ∧
      buf.take (packetAt stream position).length = packetAt stream position ∧
      buf'.take (packetAt stream position).length = packetAt stream position) := by
  unfold ReadsPacket at h h'
  split_ifs at h h'
  · obtain ⟨rfl, rfl, hbuf⟩ := h
    obtain ⟨rfl, rfl, hbuf'⟩ := h'
    exact ⟨rfl, Iff.rfl, fun _ => ⟨rfl, hbuf, hbuf'⟩⟩
  · obtain ⟨hneg, rfl⟩ := h
    obtain ⟨hneg', rfl⟩ := h'
    exact ⟨rfl, iff_of_true hneg' hneg, fun hnot => absurd hneg hnot⟩

/-- What each of the three readers does with the packet at `position` of the stream. -/
theorem readers_agree (position size : ℕ) (hfive : 5 ≤ size) {σ ω τ H ω' τ' H' : Type}
    {getfn : Getfn σ} (tap : Tap stream getfn) {p : Platform ω τ H}
    (tapC : Platform.Tap stream p) {p' : Platform ω' τ' H'} (tapCpp : Platform.Tap stream p')
    (timer : τ) (timer' : τ') (r : Reader σ) (s : ClientC.Client ω τ H)
    (s' : ClientCpp.Client ω' τ' H') (hr : r.buf.length = size)
    (hs : s.client.readbuf.length = size) (hs' : s'.client.readbuf.length = size)
    (hp : tap.position r.source = position) (hpC : tapC.position s.world = position)
    (hpCpp : tapCpp.position s'.world = position) :
    ∃ rc t rcC tC rcCpp tCpp, mqttPacketRead getfn r = .ok rc t ∧
      ClientC.readPacket p timer s = .ok rcC tC ∧
      ClientCpp.readPacket p' timer' s' = .ok rcCpp tCpp ∧
      tapC.position tC.world = tap.position t.source ∧
      tapCpp.position tCpp.world = tap.position t.source ∧
      (rcC < 0 ↔ rc < 0) ∧ (rcCpp < 0 ↔ rc < 0) ∧
      (¬ rc < 0 → rcC = rc ∧ rcCpp = rc ∧ t.buf.take (packetAt stream position).length =
          packetAt stream position ∧
        tC.client.readbuf.take (packetAt stream position).length = packetAt stream position ∧
        tCpp.client.readbuf.take (packetAt stream position).length = packetAt stream position) := by
  subst hr hp
  obtain ⟨rc, t, hread, hreads⟩ := wp_total (mqttPacketRead_reads tap hfive)
  obtain ⟨rcC, tC, hreadC, hreadsC⟩ :=
    wp_total (ClientC.readPacket_reads stream tapC timer (hfive.trans hs.ge))
  obtain ⟨rcCpp, tCpp, hreadCpp, hreadsCpp⟩ :=
    wp_total (ClientCpp.readPacket_reads stream tapCpp timer' (hfive.trans hs'.ge))
  rw [hs, hpC] at hreadsC
  rw [hs', hpCpp] at hreadsCpp
  obtain ⟨hend, hneg, hsame⟩ := hreads.agree stream hreadsC
  obtain ⟨hend', hneg', hsame'⟩ := hreads.agree stream hreadsCpp
  refine ⟨rc, t, rcC, tC, rcCpp, tCpp, hread, hreadC, hreadCpp, hend, hend', hneg, hneg', ?_⟩
  intro hnot
  obtain ⟨htype, hbuf, hbufC⟩ := hsame hnot
  obtain ⟨htype', -, hbufCpp⟩ := hsame' hnot
  exact ⟨htype, htype', hbuf, hbufC, hbufCpp⟩

/-- A PUBACK for the message 7, and nothing but zeros after it. -/
def pubackStream (position : ℕ) : UInt8 := [0x40, 0x02, 0x00, 0x07].getD position 0

def pubackGetfn : Getfn ℕ := fun count position =>
  (.arrived (chunk pubackStream position count) (length_chunk _ _ _).le, position + count)

def pubackPlatform : Platform ℕ Unit Unit where
  mqttread := fun count _ position => pubackGetfn count position
  mqttwrite := fun _ len _ position => (len, position)
  timerInit := fun position => ((), position)
  timerIsExpired := fun _ position => (false, position)
  timerCountdownMS := fun _ _ position => ((), position)
  timerCountdown := fun _ _ position => ((), position)
  timerLeftMS := fun _ position => (1000, position)
  invoke := fun _ _ position => position

theorem pubackGetfn_brings (count position : ℕ) :
    (pubackGetfn count position).1.rc = count ∧
      (pubackGetfn count position).1.data = chunk pubackStream position count ∧
      (pubackGetfn count position).2 = position + count := by
  refine ⟨?_, rfl, rfl⟩
  simp [pubackGetfn, Delivery.arrived]

def pubackTap : Tap pubackStream pubackGetfn := ⟨id, pubackGetfn_brings⟩

def pubackPlatformTap : Platform.Tap pubackStream pubackPlatform where
  position := id
  brings := fun count _ => pubackGetfn_brings count
  timerLeftMS := fun _ _ => rfl
  timerCountdown := fun _ _ _ => rfl

theorem readers_agree_puback :
    ∃ rc t rcC tC rcCpp tCpp,
      mqttPacketRead pubackGetfn ⟨List.replicate 16 0, 0⟩ = .ok rc t ∧
      ClientC.readPacket pubackPlatform () ⟨(ClientCpp.beforehand []).client, (), 0⟩ =
        .ok rcC tC ∧
      ClientCpp.readPacket pubackPlatform () ⟨(ClientCpp.beforehand []).client,
        (ClientCpp.beforehand []).own, 0⟩ = .ok rcCpp tCpp ∧
      tC.world = t.source ∧ tCpp.world = t.source ∧ (rcC < 0 ↔ rc < 0) ∧ (rcCpp < 0 ↔ rc < 0) ∧
      rc = 4 ∧ rcC = 4 ∧ rcCpp = 4 ∧ t.buf.take 4 = [0x40, 0x02, 0x00, 0x07] ∧
      tC.client.readbuf.take 4 = [0x40, 0x02, 0x00, 0x07] ∧
      tCpp.client.readbuf.take 4 = [0x40, 0x02, 0x00, 0x07] := by
  obtain ⟨rc, t, rcC, tC, rcCpp, tCpp, hread, hreadC, hreadCpp, hend, hend', hneg, hneg', hsame⟩ :=
    readers_agree pubackStream 0 16 (by decide) pubackTap pubackPlatformTap
      pubackPlatformTap () () ⟨List.replicate 16 0, 0⟩ ⟨(ClientCpp.beforehand []).client, (), 0⟩
      ⟨(ClientCpp.beforehand []).client, (ClientCpp.beforehand []).own, 0⟩ rfl rfl rfl rfl rfl rfl
  have hpacket : packetAt pubackStream 0 = [0x40, 0x02, 0x00, 0x07] := by decide +kernel
  obtain ⟨rc', t', hvalue, rfl⟩ : ∃ rc' t',
      mqttPacketRead pubackGetfn ⟨List.replicate 16 0, 0⟩ = .ok rc' t' ∧ rc' = 4 :=
    wp_total (by decide +kernel)
  obtain ⟨rfl, rfl⟩ := EStateM.Result.ok.inj (hvalue.symm.trans hread)
  rw [hpacket] at hsame
  obtain ⟨hC, hCpp, hbuf, hbufC, hbufCpp⟩ := hsame (by decide)
  exact ⟨_, _, rcC, tC, rcCpp, tCpp, hread, hreadC, hreadCpp, hend, hend', hneg, hneg', rfl, hC,
    hCpp, hbuf, hbufC, hbufCpp⟩

end MqttEmbedded
