import MqttEmbedded.Client.Platform

/-!
# Reading a packet off the network

`decodePacket` and `readPacket` of the two clients. `readPacket` is the same
code twice but for the test that the packet fits and for what is returned when
the rest of the packet does not arrive; these are its parameters.
-/

namespace MqttEmbedded

open Region Hoare

variable {χ ω τ H : Type} (p : Platform ω τ H)

/-- `mqttread(ipstack, readbuf + position, count, timeout)`. -/
def readInto (position count : ℕ) (timeout : ℤ) : Prog (Session χ ω τ H) ℤ := fun s =>
  if position + count ≤ s.client.readbuf.length then
    let answer := p.mqttread count timeout s.world
    .ok answer.1.rc { s with
      client := { s.client with readbuf := overwrite s.client.readbuf position answer.1.data }
      world := answer.2 }
  else .error .undefined s

def decodePacket (timeout : ℤ) : Prog (Session χ ω τ H) (ℕ × ℕ) :=
  decodeLoop (ask (p.mqttread 1 timeout)) 4 0 0 1

/-- `MQTTPacket_encode(readbuf + position, length)`. -/
def encodeIntoReadbuf (position length : ℕ) : Prog (Session χ ω τ H) ℕ := do
  let c ← getClient
  let (n, readbuf) ← ofOption (encodeAt c.readbuf position length)
  modifyClient fun c => { c with readbuf := readbuf }
  pure n

/-- Whether the rest of the packet, if there is any, has arrived. -/
def readBody (len remLen : ℕ) (timer : τ) : Prog (Session χ ω τ H) Bool := do
  if remLen = 0 then pure true
  else
    let left ← ask (p.timerLeftMS timer)
    let rc ← readInto p len remLen left
    pure (rc = remLen)

/-- Record the fact that we have successfully received a packet. -/
def recordReceived : Prog (Session χ ω τ H) PUnit := do
  let c ← getClient
  if 0 < c.keepAliveInterval then
    let lastReceived ← ask (p.timerCountdown c.lastReceived c.keepAliveInterval)
    modifyClient fun c => { c with lastReceived := lastReceived }
  else pure ⟨⟩

/-- `readPacket` once the remaining length is known. -/
def readRemaining (tooLong : (size len remLen : ℕ) → Bool) (shortBody : ℤ) (timer : τ)
    (remLen : ℕ) : Prog (Session χ ω τ H) ℤ := do
  -- put the original remaining length back into the buffer
  let n ← encodeIntoReadbuf 1 remLen
  let len := 1 + n
  let c ← getClient
  if tooLong c.readbuf.length len remLen then pure bufferOverflow
  else
    -- 3. read the rest of the buffer using a callback to supply the rest of the data
    let complete ← readBody p len remLen timer
    if complete then
      let c ← getClient
      recordReceived p
      pure (MQTTHeader.type (c.readbuf.headD 0))
    else pure shortBody

/-- `readPacket` from the remaining length on. -/
def readRest (tooLong : (size len remLen : ℕ) → Bool) (shortBody : ℤ) (timer : τ) :
    Prog (Session χ ω τ H) ℤ := do
  -- 2. read the remaining length. This is variable in itself
  let left ← ask (p.timerLeftMS timer)
  let decoded ← decodePacket p left
  readRemaining p tooLong shortBody timer decoded.2

def readPacketWith (tooLong : (size len remLen : ℕ) → Bool) (shortBody : ℤ) (timer : τ) :
    Prog (Session χ ω τ H) ℤ := do
  -- 1. read the header byte. This has the packet type in it
  let left ← ask (p.timerLeftMS timer)
  let rc ← readInto p 0 1 left
  if rc ≠ 1 then pure rc
  else readRest p tooLong shortBody timer

section Rules

variable {E : Fault → Session χ ω τ H → Prop} {s : Session χ ω τ H}

theorem wp_readInto {position count : ℕ} {timeout : ℤ} {Q : ℤ → Session χ ω τ H → Prop}
    (h : position + count ≤ s.client.readbuf.length) :
    wp (readInto p position count timeout) Q E s ↔
      Q (p.mqttread count timeout s.world).1.rc { s with
        client := { s.client with
          readbuf := overwrite s.client.readbuf position (p.mqttread count timeout s.world).1.data }
        world := (p.mqttread count timeout s.world).2 } :=
  wp_ok (by simp only [readInto, if_pos h])

theorem wp_encodeIntoReadbuf {position n : ℕ} {Q : ℕ → Session χ ω τ H → Prop} (hn : n < 2 ^ 31)
    (h : position + (Leb128.encode n).length ≤ s.client.readbuf.length) :
    wp (encodeIntoReadbuf position n) Q E s ↔ Q (Leb128.encode n).length { s with
      client := { s.client with
        readbuf := overwrite s.client.readbuf position (Leb128.encode n) } } := by
  simp only [encodeIntoReadbuf, wp_bind, wp_getClient, encodeAt_eq hn h, ofOption_some, wp_pure,
    wp_modifyClient]

@[simp] theorem wp_recordReceived {Q : PUnit → Session χ ω τ H → Prop} :
    wp (recordReceived p) Q E s ↔
      (0 < s.client.keepAliveInterval → Q ⟨⟩ { s with
        client := { s.client with lastReceived :=
          (p.timerCountdown s.client.lastReceived s.client.keepAliveInterval s.world).1 }
        world :=
          (p.timerCountdown s.client.lastReceived s.client.keepAliveInterval s.world).2 }) ∧
      (¬ 0 < s.client.keepAliveInterval → Q ⟨⟩ s) := by
  simp only [recordReceived, wp_bind, wp_getClient, wp_ite, wp_ask, wp_modifyClient, wp_pure]

end Rules

/-- `R` allows what `readPacket` does. -/
structure Platform.Inward (R : Session χ ω τ H → Session χ ω τ H → Prop) : Prop where
  mqttread : ∀ len timeout, Moves R (ask (p.mqttread len timeout))
  timerLeftMS : ∀ timer, Moves R (ask (p.timerLeftMS timer))
  timerCountdown : ∀ timer seconds, Moves R (ask (p.timerCountdown timer seconds))
  readbuf : ∀ s readbuf, R s { s with client := { s.client with readbuf := readbuf } }
  lastReceived : ∀ s lastReceived,
    R s { s with client := { s.client with lastReceived := lastReceived } }

theorem inward_of_world {R : Session χ ω τ H → Session χ ω τ H → Prop}
    (hworld : ∀ s world, R s { s with world := world })
    (hreadbuf : ∀ s readbuf, R s { s with client := { s.client with readbuf := readbuf } })
    (hlastReceived : ∀ s lastReceived,
      R s { s with client := { s.client with lastReceived := lastReceived } }) : p.Inward R where
  mqttread := fun _ _ s => hworld s _
  timerLeftMS := fun _ s => hworld s _
  timerCountdown := fun _ _ s => hworld s _
  readbuf := hreadbuf
  lastReceived := hlastReceived

section Moves

variable {p} {R : Session χ ω τ H → Session χ ω τ H → Prop} [Std.Refl R]
  [IsTrans (Session χ ω τ H) R] (inward : p.Inward R)
include inward

theorem readInto_moves (position count : ℕ) (timeout : ℤ) :
    Moves R (readInto p position count timeout : Prog (Session χ ω τ H) ℤ) := by
  intro s
  unfold wp readInto
  split_ifs
  · exact IsTrans.trans _ _ _ (inward.mqttread count timeout s) (inward.readbuf _ _)
  · exact Std.Refl.refl s

theorem encodeIntoReadbuf_moves (position length : ℕ) :
    Moves R (encodeIntoReadbuf position length : Prog (Session χ ω τ H) ℕ) := by
  refine .bind getClient_moves fun c => .bind (ofOption_moves _) fun encoded => ?_
  exact .bind (fun s => inward.readbuf s _) fun _ => .pure _

theorem readBody_moves (len remLen : ℕ) (timer : τ) :
    Moves R (readBody p len remLen timer : Prog (Session χ ω τ H) Bool) := by
  refine .ite (.pure true) (.bind (inward.timerLeftMS timer) fun left => ?_)
  exact .bind (readInto_moves inward len remLen left) fun rc => .pure _

theorem recordReceived_moves : Moves R (recordReceived p : Prog (Session χ ω τ H) PUnit) := by
  refine .bind getClient_moves fun c => .ite ?_ (.pure _)
  refine .bind (inward.timerCountdown c.lastReceived c.keepAliveInterval) fun lastReceived => ?_
  exact fun s => inward.lastReceived s lastReceived

theorem readRemaining_moves (tooLong : ℕ → ℕ → ℕ → Bool) (shortBody : ℤ) (timer : τ)
    (remLen : ℕ) :
    Moves R (readRemaining p tooLong shortBody timer remLen : Prog (Session χ ω τ H) ℤ) := by
  refine .bind (encodeIntoReadbuf_moves inward 1 remLen) fun n => .bind getClient_moves fun c => ?_
  refine .ite (.pure _) (.bind (readBody_moves inward _ remLen timer) fun complete => ?_)
  refine .ite (.bind getClient_moves fun c => ?_) (.pure _)
  exact .bind (recordReceived_moves inward) fun _ => .pure _

theorem readRest_moves (tooLong : ℕ → ℕ → ℕ → Bool) (shortBody : ℤ) (timer : τ) :
    Moves R (readRest p tooLong shortBody timer : Prog (Session χ ω τ H) ℤ) := by
  refine .bind (inward.timerLeftMS timer) fun left => ?_
  refine .bind (decodeLoop_moves (inward.mqttread 1 left) 4 0 0 1) fun decoded => ?_
  exact readRemaining_moves inward tooLong shortBody timer decoded.2

theorem readPacketWith_moves (tooLong : ℕ → ℕ → ℕ → Bool) (shortBody : ℤ) (timer : τ) :
    Moves R (readPacketWith p tooLong shortBody timer : Prog (Session χ ω τ H) ℤ) := by
  refine .bind (inward.timerLeftMS timer) fun left => ?_
  refine .bind (readInto_moves inward 0 1 left) fun rc => ?_
  exact .ite (.pure rc) (readRest_moves inward tooLong shortBody timer)

end Moves

/-- Nothing outside the receive buffer is stored to or asked for, whatever the
network answers, when a packet that passes the test fits. -/
theorem readPacketWith_inBounds {tooLong : ℕ → ℕ → ℕ → Bool} {shortBody : ℤ} {timer : τ}
    (htest : ∀ size len remLen, len ≤ 5 → 5 ≤ size → tooLong size len remLen = false →
      len + remLen ≤ size) {s : Session χ ω τ H} (h : 5 ≤ s.client.readbuf.length) :
    wp (readPacketWith p tooLong shortBody timer)
      (fun _ t => t.client.readbuf.length = s.client.readbuf.length) (fun _ _ => False) s := by
  unfold readPacketWith
  simp only [wp_bind, wp_ask]
  rw [wp_readInto p (by dsimp only; omega)]
  have hd (d : Delivery 1) : (overwrite s.client.readbuf 0 d.data).length =
      s.client.readbuf.length := length_overwrite (by have := d.fits; omega)
  simp only [wp_ite, wp_pure]
  refine ⟨fun _ => hd _, fun _ => ?_⟩
  unfold readRest
  simp only [wp_bind, wp_ask]
  have hchar (timeout : ℤ) : ∀ t : Session χ ω τ H,
      t.client.readbuf.length = s.client.readbuf.length →
      wp (ask (p.mqttread 1 timeout)) (fun (_ : Delivery 1) (t : Session χ ω τ H) =>
        t.client.readbuf.length = s.client.readbuf.length) (fun _ _ => False) t := fun t ht => ht
  apply wp_imp (mqttPacketDecode_bound (I := fun t : Session χ ω τ H =>
    t.client.readbuf.length = s.client.readbuf.length) (hchar _) (hd _))
  rintro ⟨len, remLen⟩ t ⟨hrem, ht⟩
  dsimp only at hrem ⊢
  unfold readRemaining
  rw [wp_bind]
  have hfield : (Leb128.encode remLen).length ≤ 4 := by
    apply Leb128.encode_length_le
    unfold maxRemainingLength at hrem
    norm_num
    omega
  rw [wp_encodeIntoReadbuf (hrem.trans_lt (by unfold maxRemainingLength; norm_num)) (by omega)]
  have hu : (overwrite t.client.readbuf 1 (Leb128.encode remLen)).length =
      s.client.readbuf.length := (length_overwrite (by omega)).trans ht
  simp only [wp_ite, wp_pure, wp_bind, wp_getClient, hu]
  refine ⟨fun _ => trivial, fun hroom => ?_⟩
  have hfits := htest _ _ _ (by omega) h (Bool.not_eq_true _ ▸ hroom)
  unfold readBody
  simp only [wp_ite, wp_pure, wp_bind, wp_ask, wp_recordReceived]
  refine ⟨fun _ => ⟨fun _ => ⟨fun _ => hu, fun _ => hu⟩, fun _ => hu⟩, fun _ => ?_⟩
  rw [wp_readInto p (by dsimp only; omega)]
  have hv (d : Delivery remLen) : (overwrite (overwrite t.client.readbuf 1 (Leb128.encode remLen))
      (1 + (Leb128.encode remLen).length) d.data).length = s.client.readbuf.length :=
    (length_overwrite (by have := d.fits; omega)).trans hu
  exact ⟨fun _ => ⟨fun _ => hv _, fun _ => hv _⟩, fun _ => hv _⟩

/-- What the reader needs of a network inside a packet: the bytes asked for are
the next ones pending, unless some are lost; `R` says how far the rest of the
world moves meanwhile. -/
structure Supply (p : Platform ω τ H) where
  pending : ω → List UInt8
  lost : ω → Prop
  R : ω → ω → Prop
  refl : ∀ w, R w w
  trans : ∀ {u v w}, R u v → R v w → R u w
  timerLeft : ∀ timer w, pending (p.timerLeftMS timer w).2 = pending w ∧
    (lost w → lost (p.timerLeftMS timer w).2) ∧ R w (p.timerLeftMS timer w).2
  countdown : ∀ timer n w, pending (p.timerCountdown timer n w).2 = pending w ∧
    (lost w → lost (p.timerCountdown timer n w).2) ∧ R w (p.timerCountdown timer n w).2
  stays : ∀ len timeout w, lost w → lost (p.mqttread len timeout w).2
  takes : ∀ timeout w bytes rest, bytes ≠ [] → pending w = bytes ++ rest →
    lost (p.mqttread bytes.length timeout w).2 ∨
      ((p.mqttread bytes.length timeout w).1.rc = bytes.length ∧
        (p.mqttread bytes.length timeout w).1.data = bytes ∧
        pending (p.mqttread bytes.length timeout w).2 = rest ∧
        R w (p.mqttread bytes.length timeout w).2)

namespace Supply

variable {p} (net : Supply p)

theorem feeds (timeout : ℤ) : Feeds (ask (p.mqttread 1 timeout))
    (fun s : Session χ ω τ H => net.pending s.world) (fun s => net.lost s.world)
    (fun s t => t.client = s.client ∧ t.own = s.own ∧ net.R s.world t.world) where
  stays := fun s h => net.stays 1 timeout s.world h
  takes := by
    intro s b rest h
    rcases net.takes timeout s.world [b] rest (by simp) h with hlost | ⟨hrc, hdata, hrest, hR⟩
    · exact .inl hlost
    · exact .inr ⟨hrc, hdata, hrest, rfl, rfl, hR⟩

/-- What is lost stays lost. -/
abbrev StaysLost (s t : Session χ ω τ H) : Prop := net.lost s.world → net.lost t.world

instance : Std.Refl (net.StaysLost (χ := χ)) := ⟨fun _ h => h⟩

instance : IsTrans (Session χ ω τ H) net.StaysLost := ⟨fun _ _ _ h h' hs => h' (h hs)⟩

theorem inward_staysLost : p.Inward (net.StaysLost : Session χ ω τ H → _ → Prop) where
  mqttread := fun len timeout s => net.stays len timeout s.world
  timerLeftMS := fun timer s => (net.timerLeft timer s.world).2.1
  timerCountdown := fun timer n s => (net.countdown timer n s.world).2.1
  readbuf := fun _ _ => id
  lastReceived := fun _ _ => id

theorem readRemaining_staysLost (tooLong : ℕ → ℕ → ℕ → Bool) (shortBody : ℤ) (timer : τ)
    (remLen : ℕ) : Moves net.StaysLost
      (readRemaining p tooLong shortBody timer remLen : Prog (Session χ ω τ H) ℤ) :=
  readRemaining_moves net.inward_staysLost tooLong shortBody timer remLen

theorem readPacketWith_staysLost (tooLong : ℕ → ℕ → ℕ → Bool) (shortBody : ℤ) (timer : τ) :
    Moves net.StaysLost (readPacketWith p tooLong shortBody timer : Prog (Session χ ω τ H) ℤ) :=
  readPacketWith_moves net.inward_staysLost tooLong shortBody timer

theorem readBody_frame {len : ℕ} {timer : τ} {body rest : List UInt8} {s : Session χ ω τ H}
    (hroom : len + body.length ≤ s.client.readbuf.length)
    (hp : net.pending s.world = body ++ rest) :
    wp (readBody p len body.length timer)
      (fun complete t => net.lost t.world ∨ (complete = true ∧ t.own = s.own ∧
        net.pending t.world = rest ∧ net.R s.world t.world ∧
        t.client = { s.client with readbuf := overwrite s.client.readbuf len body }))
      (fun _ _ => False) s := by
  unfold readBody
  simp only [wp_ite, wp_pure, wp_bind, wp_ask]
  refine ⟨fun hzero => ?_, fun hpos => ?_⟩
  · obtain rfl : body = [] := List.length_eq_zero_iff.mp hzero
    exact .inr ⟨trivial, trivial, hp, net.refl _, by rw [overwrite_nil]⟩
  · rw [wp_readInto p (s := { s with world := (p.timerLeftMS timer s.world).2 }) hroom]
    obtain ⟨hpending, -, hR⟩ := net.timerLeft timer s.world
    rcases net.takes (p.timerLeftMS timer s.world).1 (p.timerLeftMS timer s.world).2 body rest
      (by simpa using hpos) (hpending.trans hp) with hlost | ⟨hrc, hdata, hrest, hR'⟩
    · exact .inl hlost
    · exact .inr ⟨by simp [hrc], rfl, hrest, net.trans hR hR', by rw [hdata]⟩

/-- The body of a frame, when it fits, is read to its last byte and no further. -/
theorem readRemaining_frame {tooLong : ℕ → ℕ → ℕ → Bool} {shortBody : ℤ} {timer : τ}
    {w : WireFrame} {old rest : List UInt8} {s : Session χ ω τ H}
    (hfits : w.stored.length ≤ old.length) (hbuf : s.client.readbuf = overwrite old 0 [w.header])
    (htest : tooLong old.length (1 + (Leb128.encode w.body.length).length) w.body.length = false)
    (hp : net.pending s.world = w.body ++ rest) :
    wp (readRemaining p tooLong shortBody timer w.body.length)
      (fun rc t => net.lost t.world ∨ (rc = w.type ∧ t.own = s.own ∧
        net.pending t.world = rest ∧ net.R s.world t.world ∧
        ∃ lastReceived, t.client = { s.client with
          readbuf := overwrite old 0 w.stored
          lastReceived := lastReceived }))
      (fun _ _ => False) s := by
  have hsize := w.length_stored
  have hsmall := w.length_body_lt
  have hall : overwrite (overwrite (overwrite old 0 [w.header]) 1 (Leb128.encode w.body.length))
      (1 + (Leb128.encode w.body.length).length) w.body = overwrite old 0 w.stored :=
    overwrite_frame (by omega)
  have hl1 : (overwrite old 0 [w.header]).length = old.length :=
    length_overwrite (by simp; omega)
  have hl2 : (overwrite (overwrite old 0 [w.header]) 1 (Leb128.encode w.body.length)).length =
      old.length := (length_overwrite (by omega)).trans hl1
  unfold readRemaining
  rw [wp_bind, wp_encodeIntoReadbuf (by omega) (by rw [hbuf]; omega)]
  simp only [wp_bind, wp_getClient, wp_ite, wp_pure, hbuf, hl2, htest]
  refine ⟨fun h => absurd h Bool.false_ne_true, fun _ => ?_⟩
  apply wp_imp (net.readBody_frame (s := { s with
    client := { s.client with
      readbuf := overwrite (overwrite old 0 [w.header]) 1 (Leb128.encode w.body.length) } })
    (by dsimp only; omega) hp)
  rintro complete t (hlost | ⟨rfl, hown, hrest, hR, hclient⟩)
  · simp only [wp_recordReceived]
    exact ⟨fun _ => ⟨fun _ => .inl ((net.countdown _ _ t.world).2.1 hlost), fun _ => .inl hlost⟩,
      fun _ => .inl hlost⟩
  · have htype : MQTTHeader.type (t.client.readbuf.headD 0) = w.type := by
      rw [hclient, hall]
      simp [overwrite_zero, WireFrame.stored, frameBytes, WireFrame.type]
    rw [hall] at hclient
    refine ⟨fun _ => ?_, fun h => absurd rfl h⟩
    obtain ⟨hpending, -, hR'⟩ := net.countdown t.client.lastReceived t.client.keepAliveInterval
      t.world
    rw [wp_recordReceived]
    refine ⟨fun _ => .inr ⟨by rw [htype], hown, hpending.trans hrest, net.trans hR hR', _,
      by rw [hclient]⟩, fun _ => .inr ⟨by rw [htype], hown, hrest, hR, _, hclient⟩⟩

/-- After the header of a frame that fits, the rest is read to its last byte and
no further, unless bytes are lost. -/
theorem readRest_frame {tooLong : ℕ → ℕ → ℕ → Bool} {shortBody : ℤ} {timer : τ}
    {w : WireFrame} {old rest : List UInt8} {s : Session χ ω τ H}
    (hfits : w.stored.length ≤ old.length) (hbuf : s.client.readbuf = overwrite old 0 [w.header])
    (htest : tooLong old.length (1 + (Leb128.encode w.body.length).length) w.body.length = false)
    (hp : net.pending s.world = w.field ++ (w.body ++ rest)) :
    wp (readRest p tooLong shortBody timer)
      (fun rc t => net.lost t.world ∨ (rc = w.type ∧ t.own = s.own ∧
        net.pending t.world = rest ∧ net.R s.world t.world ∧
        ∃ lastReceived, t.client = { s.client with
          readbuf := overwrite old 0 w.stored
          lastReceived := lastReceived }))
      (fun _ t => net.lost t.world) s := by
  have : IsTrans (Session χ ω τ H)
      fun s t => t.client = s.client ∧ t.own = s.own ∧ net.R s.world t.world :=
    ⟨fun _ _ _ h h' => ⟨h'.1.trans h.1, h'.2.1.trans h.2.1, net.trans h.2.2 h'.2.2⟩⟩
  obtain ⟨hpending, -, hR⟩ := net.timerLeft timer s.world
  unfold readRest decodePacket
  simp only [wp_bind, wp_ask]
  apply wp_mono (mqttPacketDecode_field (net.feeds _) w.isField w.length_field
    (hpending.trans hp))
  · rintro decoded t (hlost | ⟨rfl, ht, hclient, hown, hR'⟩)
    · apply wp_mono (net.readRemaining_staysLost tooLong shortBody timer decoded.2 t)
      · exact fun rc u hu => .inl (hu hlost)
      · exact fun e u hu => hu hlost
    · have hbuf' : t.client.readbuf = overwrite old 0 [w.header] := hclient ▸ hbuf
      apply wp_mono (net.readRemaining_frame hfits hbuf' htest ht)
      · rintro rc u (hlost | ⟨hrc, hu, hrest, hR'', lastReceived, hlast⟩)
        · exact .inl hlost
        · exact .inr ⟨hrc, hu.trans hown, hrest, net.trans hR (net.trans hR' hR''), lastReceived,
            by rw [hlast, hclient]⟩
      · exact fun _ _ h => h.elim
  · exact fun _ _ h => h.elim

/-- A frame that fails the test is left where it is, after the length field. -/
theorem readRest_overflow {tooLong : ℕ → ℕ → ℕ → Bool} {shortBody : ℤ} {timer : τ}
    {w : WireFrame} {rest : List UInt8} {s : Session χ ω τ H}
    (htest : 1 + (Leb128.encode w.body.length).length ≤ s.client.readbuf.length →
      tooLong s.client.readbuf.length (1 + (Leb128.encode w.body.length).length) w.body.length =
        true)
    (hp : net.pending s.world = w.field ++ (w.body ++ rest)) :
    wp (readRest p tooLong shortBody timer)
      (fun rc t => net.lost t.world ∨ (rc = bufferOverflow ∧ t.own = s.own ∧
        net.R s.world t.world ∧ ∃ readbuf, readbuf.length = s.client.readbuf.length ∧
          t.client = { s.client with readbuf := readbuf }))
      (fun _ _ => True) s := by
  have : IsTrans (Session χ ω τ H)
      fun s t => t.client = s.client ∧ t.own = s.own ∧ net.R s.world t.world :=
    ⟨fun _ _ _ h h' => ⟨h'.1.trans h.1, h'.2.1.trans h.2.1, net.trans h.2.2 h'.2.2⟩⟩
  obtain ⟨hpending, -, hR⟩ := net.timerLeft timer s.world
  have hsmall := w.length_body_lt
  unfold readRest decodePacket
  simp only [wp_bind, wp_ask]
  apply wp_mono (mqttPacketDecode_field (net.feeds _) w.isField w.length_field
    (hpending.trans hp))
  · rintro decoded t (hlost | ⟨rfl, -, hclient, hown, hR'⟩)
    · apply wp_mono (net.readRemaining_staysLost tooLong shortBody timer decoded.2 t)
      · exact fun _ _ hu => .inl (hu hlost)
      · exact fun _ _ _ => trivial
    · dsimp only at hclient
      unfold readRemaining
      rw [wp_bind]
      by_cases hroom : 1 + (Leb128.encode w.body.length).length ≤ t.client.readbuf.length
      · have hlen : (overwrite t.client.readbuf 1 (Leb128.encode w.body.length)).length =
            t.client.readbuf.length := length_overwrite hroom
        rw [wp_encodeIntoReadbuf (by omega) hroom]
        rw [hclient] at hroom hlen
        simp only [wp_bind, wp_getClient, wp_ite, wp_pure, hclient, hlen, htest hroom]
        exact ⟨fun _ => .inr ⟨trivial, hown, net.trans hR hR', _, hlen, rfl⟩,
          fun h => absurd trivial h⟩
      · have hnone := encodeAt_eq_none (n := w.body.length) (by omega) hroom
        simp only [encodeIntoReadbuf, wp_bind, wp_getClient, hnone, ofOption_none, wp_throw]
  · exact fun _ _ _ => trivial

end Supply
end MqttEmbedded
