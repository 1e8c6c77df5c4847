import MqttEmbedded.Client.Duty
import MqttEmbedded.ClientC.Operations

/-!
# The conduct of the C client

What the functions of the C client add to the trace of a network of whole
packets, whatever the network answers. The results are about runs that end; a
run that the model does not follow to its end has none.
-/

namespace MqttEmbedded.ClientC

open Region Hoare

variable {ν τ H β : Type} {env : PacketEnv ν τ H β}

/-- From `s` to `t` the client has added `evs` to the trace, sent `asks` for the
application and owes `d`, which is no call when all packets fit. -/
structure Did (s t : Client (PacketWorld ν H β) τ H) (asks : List (List UInt8))
    (evs : List (Event H β)) (d : Duty H) : Prop where
  trace : t.world.trace = s.world.trace ++ evs
  works : Works (handlersFor s.client) .idle evs asks d
  length_readbuf : t.client.readbuf.length = s.client.readbuf.length
  settled : (∀ w, Event.received w ∈ evs →
    w.frame.stored.length ≤ s.client.readbuf.length) → d.calls = [] ∧ t.world.reading = []

/-- The client has done so and owes nothing; the next packet is still to come. -/
structure Rests (s t : Client (PacketWorld ν H β) τ H) (asks : List (List UInt8))
    (evs : List (Event H β)) : Prop where
  did : Did s t asks evs .idle
  reading : t.world.reading = []
  handlers : handlersFor t.client = handlersFor s.client

/-- `t` differs from `s` in buffers for sending, timers and flags only. -/
structure Alike (s t : Client (PacketWorld ν H β) τ H) : Prop where
  reading : t.world.reading = s.world.reading
  length_readbuf : t.client.readbuf.length = s.client.readbuf.length
  messageHandlers : t.client.messageHandlers = s.client.messageHandlers
  defaultMessageHandler : t.client.defaultMessageHandler = s.client.defaultMessageHandler

variable {s t u : Client (PacketWorld ν H β) τ H} {asks asks' : List (List UInt8)}
  {evs evs' : List (Event H β)} {d : Duty H}

namespace Alike

theorem handlers (h : Alike s t) : handlersFor t.client = handlersFor s.client := by
  funext topic
  simp only [handlersFor, h.messageHandlers, h.defaultMessageHandler]

theorem refl (s : Client (PacketWorld ν H β) τ H) : Alike s s := ⟨rfl, rfl, rfl, rfl⟩

theorem trans (h : Alike s t) (h' : Alike t u) : Alike s u :=
  ⟨h'.reading.trans h.reading, h'.length_readbuf.trans h.length_readbuf,
    h'.messageHandlers.trans h.messageHandlers,
    h'.defaultMessageHandler.trans h.defaultMessageHandler⟩

theorem rests (h : Alike s t) (hreading : s.world.reading = [])
    (htrace : t.world.trace = s.world.trace ++ evs)
    (hworks : Works (handlersFor s.client) .idle evs asks .idle) : Rests s t asks evs :=
  ⟨⟨htrace, hworks, h.length_readbuf, fun _ => ⟨rfl, h.reading.trans hreading⟩⟩,
    h.reading.trans hreading, h.handlers⟩

end Alike

namespace Rests

theorem refl (hreading : s.world.reading = []) : Rests s s [] [] :=
  (Alike.refl s).rests hreading (List.append_nil _).symm .done

theorem did_trans (h : Rests s t asks evs) (h' : Did t u asks' evs' d) :
    Did s u (asks ++ asks') (evs ++ evs') d where
  trace := by rw [h'.trace, h.did.trace, List.append_assoc]
  works := h.did.works.append (h.handlers ▸ h'.works)
  length_readbuf := h'.length_readbuf.trans h.did.length_readbuf
  settled := by
    intro hfits
    refine h'.settled fun w hw => ?_
    rw [h.did.length_readbuf]
    exact hfits w (List.mem_append_right _ hw)

theorem trans (h : Rests s t asks evs) (h' : Rests t u asks' evs') :
    Rests s u (asks ++ asks') (evs ++ evs') :=
  ⟨h.did_trans h'.did, h'.reading, h'.handlers.trans h.handlers⟩

theorem alike (h : Rests s t asks evs) (h' : Alike t u) (htrace : u.world.trace = t.world.trace) :
    Rests s u asks evs := by
  simpa using h.trans (h'.rests h.reading (htrace.trans (List.append_nil _).symm) .done)

end Rests

theorem Did.same_world (h : Did s t asks evs d) (hworld : u.world = t.world)
    (hlen : u.client.readbuf.length = t.client.readbuf.length) : Did s u asks evs d :=
  ⟨by rw [hworld, h.trace], h.works, hlen.trans h.length_readbuf, by
    rw [hworld]
    exact h.settled⟩

section Sending

variable (fuel : ℕ) {timer : τ}

/-- A packet is sent whole, after however many refusals, or not at all. -/
theorem sendLoop_conduct {length : ℕ} (hpos : 0 < length) :
    ∀ {fuel : ℕ} {s : Client (PacketWorld ν H β) τ H},
    wp (sendLoop env.platform length timer fuel 0)
      (fun sent t => t.client = s.client ∧ t.world.reading = s.world.reading ∧
        ∃ notes : List β, (sent = length ∧ t.world.trace = s.world.trace ++
            (notes.map .note ++ [.sent (s.client.buf.take length)])) ∨
          (sent = 0 ∧ t.world.trace = s.world.trace ++ notes.map .note))
      (fun _ _ => True) s
  | 0, s => trivial
  | fuel + 1, s => by
    rw [sendLoop, if_pos hpos, wp_bind, wp_ask, wp_ite, wp_pure]
    refine ⟨fun _ => ⟨rfl, rfl, [], .inr ⟨rfl, (List.append_nil _).symm⟩⟩, fun _ => ?_⟩
    simp only [wp_bind, wp_ask, wp_getClient]
    generalize hleft : env.platform.timerLeftMS timer
      (env.platform.timerIsExpired timer s.world).2 = left
    have hworld : left.2.reading = s.world.reading ∧ left.2.trace = s.world.trace := by
      rw [← hleft]
      exact ⟨rfl, rfl⟩
    obtain ⟨notes, hreading, ⟨hrc, htrace⟩ | ⟨hrc, htrace⟩⟩ :=
      PacketEnv.mqttwrite_offer (s.client.buf.drop 0) length left.1 left.2
    · rw [hrc, if_neg (by omega)]
      cases fuel with
      | zero => trivial
      | succ fuel =>
        rw [sendLoop, if_neg (by simp)]
        refine ⟨rfl, hreading.trans hworld.1, notes, .inl ⟨by simp, ?_⟩⟩
        rw [htrace, hworld.2, List.drop_zero]
    · rw [wp_ite]
      refine ⟨fun _ => ⟨rfl, hreading.trans hworld.1, notes, .inr ⟨rfl, ?_⟩⟩, fun hzero => ?_⟩
      · rw [htrace, hworld.2]
      · have hsent : 0 + ((env.platform.mqttwrite (s.client.buf.drop 0) length left.1
            left.2).1).toNat = 0 := by omega
        rw [hsent]
        apply wp_imp (sendLoop_conduct hpos)
        rintro sent t ⟨hclient, hreading', later, hlater⟩
        dsimp only at hclient hreading' hlater
        refine ⟨hclient, hreading'.trans (hreading.trans hworld.1), notes ++ later, ?_⟩
        rw [htrace, hworld.2] at hlater
        simpa [List.append_assoc] using hlater

theorem sendPacket_conduct {length : ℕ} (hpos : 0 < length) :
    wp (sendPacket env.platform fuel length timer)
      (fun rc t => Alike s t ∧ t.client.buf = s.client.buf ∧
        ∃ notes : List β, (rc = success ∧ t.world.trace = s.world.trace ++
            (notes.map .note ++ [.sent (s.client.buf.take length)])) ∨
          (rc = failure ∧ t.world.trace = s.world.trace ++ notes.map .note))
      (fun _ _ => True) s := by
  unfold sendPacket
  rw [wp_bind]
  apply wp_imp (sendLoop_conduct hpos)
  rintro sent t ⟨hclient, hreading, notes, hsent⟩
  simp only [wp_ite, wp_bind, wp_getClient, wp_ask, wp_modifyClient, wp_pure, hclient]
  refine ⟨fun h => ⟨⟨hreading, rfl, rfl, rfl⟩, trivial, notes, ?_⟩,
    fun h => ⟨⟨hreading, by rw [hclient], by rw [hclient], by rw [hclient]⟩, trivial, notes, ?_⟩⟩
  · exact hsent.imp (fun h => ⟨trivial, h.2⟩) fun h' => by omega
  · exact .inr ⟨trivial, (hsent.resolve_left fun h' => h h'.1).2⟩

theorem serialize_conduct {f : List UInt8 → Option (ℤ × List UInt8)} {bytes : List UInt8}
    (hf : Writes f bytes) :
    wp (serialize f) (fun len t => Alike s t ∧ t.world = s.world ∧
        (len < 0 ∨ (len = bytes.length ∧ t.client.buf.take bytes.length = bytes)))
      (fun _ _ => True) s := by
  apply wp_serialize_of_writes hf
  · exact ⟨Alike.refl s, rfl, .inl (by decide)⟩
  · exact fun _ => ⟨⟨rfl, rfl, rfl, rfl⟩, rfl, .inr ⟨rfl, take_overwrite_zero _ _⟩⟩

theorem newTimer_conduct (ms : ℕ) :
    wp (newTimer env.platform ms)
      (fun _ t => Alike s t ∧ t.client = s.client ∧ t.world.trace = s.world.trace)
      (fun _ _ => True) s :=
  ⟨⟨rfl, rfl, rfl, rfl⟩, rfl, rfl⟩

theorem writes_pingreq : Writes mqttSerializePingreq pingBytes :=
  writes_of_eq fun buf => mqttSerializeZero_eq buf _

theorem sendPing_conduct (hreading : s.world.reading = []) :
    wp (sendPing env.platform fuel)
      (fun _ t => ∃ evs : List (Event H β), Rests s t [] evs ∧ receivedPackets evs = [])
      (fun _ _ => True) s := by
  unfold sendPing
  rw [wp_bind]
  apply wp_imp (newTimer_conduct 1000)
  rintro timer t ⟨hlike, -, htrace⟩
  have hrest : Rests s t [] [] :=
    hlike.rests hreading (by rw [htrace, List.append_nil]) .done
  rw [wp_bind]
  apply wp_imp (serialize_conduct writes_pingreq)
  rintro len u ⟨hlike, hworld, hlen | ⟨rfl, hbuf⟩⟩
  · rw [if_pos (by omega), wp_pure]
    exact ⟨[], hrest.alike hlike (by rw [hworld]), rfl⟩
  · rw [if_neg (by decide), wp_bind]
    apply wp_imp (sendPacket_conduct fuel (by decide))
    rintro rc v ⟨hlike', -, notes, ⟨rfl, htrace'⟩ | ⟨rfl, htrace'⟩⟩
    · rw [Int.toNat_natCast, hbuf] at htrace'
      have hsent : Rests u v [] (notes.map .note ++ [.sent pingBytes]) :=
        hlike'.rests (hlike.reading.trans hrest.reading) htrace'
          (.after_notes notes (.pinged .done))
      simp only [if_true, wp_bind, wp_modifyClient, wp_pure]
      refine ⟨_, ((hrest.alike hlike (by rw [hworld])).trans hsent).alike ⟨rfl, rfl, rfl, rfl⟩ rfl,
        by simp⟩
    · have hrefused : Rests u v [] (notes.map .note) :=
        hlike'.rests (hlike.reading.trans hrest.reading) htrace' (.notes notes)
      rw [if_neg (by decide), wp_pure]
      exact ⟨_, (hrest.alike hlike (by rw [hworld])).trans hrefused, by simp⟩

theorem keepaliveDue_conduct :
    wp (keepaliveDue env.platform)
      (fun _ t => Alike s t ∧ t.world.trace = s.world.trace) (fun _ _ => True) s := by
  unfold keepaliveDue
  simp only [wp_bind, wp_getClient, wp_ite, wp_pure, wp_ask]
  exact ⟨fun _ => ⟨⟨rfl, rfl, rfl, rfl⟩, rfl⟩, fun _ => ⟨⟨rfl, rfl, rfl, rfl⟩, rfl⟩⟩

theorem keepalive_conduct (hreading : s.world.reading = []) :
    wp (keepalive env.platform fuel)
      (fun _ t => ∃ evs : List (Event H β), Rests s t [] evs ∧ receivedPackets evs = [])
      (fun _ _ => True) s := by
  have hstart := Rests.refl hreading
  unfold keepalive
  rw [wp_bind, wp_getClient, wp_ite, wp_pure, wp_bind]
  refine ⟨fun _ => ⟨[], hstart, rfl⟩, fun _ => ?_⟩
  apply wp_imp keepaliveDue_conduct
  rintro due t ⟨hlike, htrace⟩
  have hrest := hstart.alike hlike htrace
  simp only [wp_ite, wp_pure]
  refine ⟨fun _ => ⟨fun _ => ⟨[], hrest, rfl⟩, fun _ => ?_⟩, fun _ => ⟨[], hrest, rfl⟩⟩
  apply wp_imp (sendPing_conduct fuel hrest.reading)
  rintro _ u ⟨evs, hu, hsilent⟩
  exact ⟨_, hrest.trans hu, by simpa using hsilent⟩

theorem mqttCloseSession_conduct :
    wp (mqttCloseSession : Prog (Client (PacketWorld ν H β) τ H) PUnit)
      (fun _ t => t.world = s.world ∧ t.client.readbuf.length = s.client.readbuf.length)
      (fun _ _ => True) s := by
  unfold mqttCloseSession mqttCleanSession
  simp only [wp_bind, wp_modifyClient, wp_getClient, wp_ite, wp_pure]
  exact ⟨fun _ => ⟨trivial, trivial⟩, fun _ => ⟨trivial, trivial⟩⟩

/-- From `s`, where `d` is owed, the switch did this much. -/
structure Answers (handlers : List UInt8 → List H) (d : Duty H)
    (s t : Client (PacketWorld ν H β) τ H) (outcome : Outcome) : Prop where
  alike : Alike s t
  work : ∃ evs : List (Event H β), t.world.trace = s.world.trace ++ evs ∧ receivedPackets evs = [] ∧
    ((outcome = ⟨success, false⟩ ∧ Works handlers d evs [] .idle) ∨
      (outcome.exits = true ∧ outcome.rc < 0 ∧ ∃ d', d'.calls = [] ∧ Works handlers d evs [] d'))

/-- The acknowledgement is sent, or it stays owed. -/
theorem sendAck_conduct (handlers : List UInt8 → List H) (packettype : MsgType) (id : UInt16) :
    wp ((variant env.platform fuel).sendAck packettype id timer)
      (fun rc t => Alike s t ∧ ∃ evs : List (Event H β), t.world.trace = s.world.trace ++ evs ∧
        receivedPackets evs = [] ∧
        ((rc = success ∧ Works handlers ⟨[], some (ackBytes packettype id)⟩ evs [] .idle) ∨
          (rc = failure ∧ ∃ d' : Duty H, d'.calls = [] ∧
            Works handlers ⟨[], some (ackBytes packettype id)⟩ evs [] d')))
      (fun _ _ => True) s := by
  have hlen := length_ackBytes packettype id
  rw [Variant.wp_sendAck]
  refine ⟨fun hroom => ?_, fun _ => ⟨.refl s, [], (List.append_nil _).symm, rfl,
    .inr ⟨rfl, _, rfl, .done⟩⟩⟩
  apply wp_imp (sendPacket_conduct fuel (by norm_num))
  rintro rc t ⟨hlike, -, notes, ⟨rfl, htrace⟩ | ⟨rfl, htrace⟩⟩
  · dsimp only at htrace
    rw [← hlen, take_overwrite_zero] at htrace
    refine ⟨⟨hlike.1, hlike.2, hlike.3, hlike.4⟩, _, htrace, by simp, .inl ⟨rfl, ?_⟩⟩
    exact .after_notes notes (.answered .done)
  · exact ⟨⟨hlike.1, hlike.2, hlike.3, hlike.4⟩, _, htrace, by simp,
      .inr ⟨rfl, _, rfl, .notes notes⟩⟩

theorem respondPublish_conduct (handlers : List UInt8 → List H)
    (reply : Option (MsgType × UInt16)) :
    wp ((variant env.platform fuel).respondPublish reply timer)
      (fun outcome t => Answers handlers
        ⟨[], reply.map fun reply => ackBytes reply.1 reply.2⟩ s t outcome)
      (fun _ _ => True) s := by
  cases reply with
  | none => exact ⟨.refl s, [], (List.append_nil _).symm, rfl, .inl ⟨rfl, .done⟩⟩
  | some reply =>
    rw [Variant.respondPublish, wp_bind]
    apply wp_imp (sendAck_conduct fuel handlers reply.1 reply.2)
    rintro rc t ⟨hlike, evs, htrace, hsilent, ⟨rfl, hworks⟩ | ⟨rfl, hworks⟩⟩
    · exact ⟨hlike, evs, htrace, hsilent, .inl ⟨rfl, hworks⟩⟩
    · exact ⟨hlike, evs, htrace, hsilent, .inr ⟨rfl, (by decide), hworks⟩⟩

theorem respondAck_conduct (handlers : List UInt8 → List H) (received packettype : MsgType)
    (id : UInt16) :
    wp ((variant env.platform fuel).respondAck received packettype id timer)
      (fun outcome t => Answers handlers ⟨[], some (ackBytes packettype id)⟩ s t outcome)
      (fun _ _ => True) s := by
  rw [Variant.respondAck, wp_bind]
  apply wp_imp (sendAck_conduct fuel handlers packettype id)
  rintro rc t ⟨hlike, evs, htrace, hsilent, ⟨rfl, hworks⟩ | ⟨rfl, hworks⟩⟩
  · exact ⟨hlike, evs, htrace, hsilent, .inl ⟨rfl, hworks⟩⟩
  · exact ⟨hlike, evs, htrace, hsilent, .inr ⟨rfl, (by decide), hworks⟩⟩

/-- The switch does the duty of the packet, or fails to send its acknowledgement. -/
theorem respond_conduct (packet : Inbound) (tail : List UInt8) :
    wp ((variant env.platform fuel).respond packet tail timer)
      (fun outcome t => Answers (handlersFor s.client)
        (.of (handlersFor s.client) packet) s t outcome)
      (fun _ _ => True) s := by
  have hsilent : Answers (handlersFor s.client) ⟨[], none⟩ s s ⟨success, false⟩ :=
    ⟨.refl s, [], (List.append_nil _).symm, rfl, .inl ⟨rfl, .done⟩⟩
  cases packet with
  | publish dup qos retained topic id payload =>
    unfold Variant.respond
    rw [wp_bind]
    change wp (deliverMessage _ _ _ >>= fun _ => pure PUnit.unit) _ _ s
    rw [wp_bind]
    apply wp_deliverMessage
    intro _
    rw [wp_pure]
    apply wp_imp (respondPublish_conduct fuel (handlersFor s.client) _)
    rintro outcome t ⟨hlike, evs, htrace, hsilent, hwork⟩
    refine ⟨⟨hlike.1.trans (PacketEnv.reading_invokeAll _ _ _), hlike.2, hlike.3, hlike.4⟩,
      (deliveries (handlersFor s.client) (.publish dup qos retained topic id payload)).map
        (fun call => .called call.1 call.2) ++ evs, ?_, by simpa using hsilent, ?_⟩
    · rw [htrace]
      exact (congrArg (· ++ evs) (PacketEnv.trace_invokeAll_publish _ _)).trans
        (List.append_assoc _ _ _)
    · exact hwork.imp (fun h => ⟨h.1, (Works.calls _ _).append h.2⟩)
        fun ⟨hexits, hrc, d', hd, hworks⟩ => ⟨hexits, hrc, d', hd, (Works.calls _ _).append hworks⟩
  | pubrec id => exact respondAck_conduct fuel _ _ _ id
  | pubrel id => exact respondAck_conduct fuel _ _ _ id
  | pingresp => exact ⟨⟨rfl, rfl, rfl, rfl⟩, [], (List.append_nil _).symm, rfl, .inl ⟨rfl, .done⟩⟩
  | connack _ _ => exact hsilent
  | puback _ => exact hsilent
  | pubcomp _ => exact hsilent
  | suback _ _ => exact hsilent
  | unsuback _ => exact hsilent

/-- A receive that got nothing, one that got a packet, and one that could not hold it. -/
theorem readPacket_conduct (hreading : s.world.reading = []) :
    wp (readPacket env.platform timer)
      (fun rc t => ∃ notes : List β,
        (rc ≤ 0 ∧ Alike s t ∧ t.world.trace = s.world.trace ++ notes.map .note) ∨
          ∃ w : WirePacket, t.world.trace = s.world.trace ++ (notes.map .note ++ [.received w]) ∧
            t.client.readbuf.length = s.client.readbuf.length ∧
            ((rc = w.frame.type ∧ Alike s t ∧
                ∃ tail, t.client.readbuf = w.frame.stored ++ tail) ∨
              (rc = bufferOverflow ∧ s.client.readbuf.length < w.frame.stored.length)))
      (fun _ _ => True) s := by
  by_cases hroom : 1 ≤ s.client.readbuf.length
  · cases hnext : (arrivalAt env timer s.world.state).1 with
    | nothing rc h =>
      apply wp_mono (readPacketWith_nothing hreading hroom hnext)
      · rintro _ t ⟨rfl, -, hclient, hreading', htrace, -⟩
        exact ⟨_, .inl ⟨h, ⟨hreading'.trans hreading.symm, by rw [hclient], by rw [hclient],
          by rw [hclient]⟩, htrace⟩⟩
      · exact fun _ _ => False.elim
    | packet w =>
      by_cases hfits : w.frame.stored.length ≤ s.client.readbuf.length
      · apply wp_mono (readPacketWith_packet env.steady_any hreading hfits (tooLong_stored hfits)
          hnext)
        · rintro _ t ⟨rfl, -, hreading', htrace, -, lastReceived, hclient⟩
          have hlen : t.client.readbuf.length = s.client.readbuf.length := by
            rw [hclient]
            exact length_overwrite (by omega)
          refine ⟨_, .inr ⟨w, htrace, hlen, .inl ⟨rfl, ⟨hreading'.trans hreading.symm, hlen,
            by rw [hclient], by rw [hclient]⟩, s.client.readbuf.drop w.frame.stored.length, ?_⟩⟩⟩
          rw [hclient, overwrite_zero]
        · exact fun _ _ => False.elim
      · have hlong := not_le.mp hfits
        apply wp_imp (readPacketWith_overflow hreading hroom (tooLong_of_lt hlong) hnext)
        rintro _ t ⟨rfl, -, htrace, readbuf, hlen, hclient⟩
        exact ⟨_, .inr ⟨w, htrace, by rw [hclient, hlen], .inr ⟨rfl, hlong⟩⟩⟩
  · have hstop : wp (readInto env.platform 0 1 (env.platform.timerLeftMS timer s.world).1)
        (fun _ _ => False) (fun _ _ => True)
        { s with world := (env.platform.timerLeftMS timer s.world).2 } := by
      unfold wp readInto
      rw [if_neg (by simpa using hroom)]
      trivial
    unfold readPacket readPacketWith
    rw [wp_bind, wp_ask, wp_bind]
    exact wp_imp hstop fun _ _ => False.elim

theorem closeIfConnected_conduct :
    wp ((variant env.platform fuel).closeIfConnected)
      (fun _ t => t.world = s.world ∧ t.client.readbuf.length = s.client.readbuf.length)
      (fun _ _ => True) s := by
  rw [Variant.closeIfConnected, wp_bind, wp_getClient, wp_ite]
  exact ⟨fun _ => mqttCloseSession_conduct, fun _ => ⟨rfl, rfl⟩⟩

/-- `cycle` after the switch. -/
def afterSwitch (v : Variant Unit (PacketWorld ν H β) τ H) (packetType : ℤ) (outcome : Outcome) :
    Prog (Client (PacketWorld ν H β) τ H) ℤ := do
  let rc ← v.checkKeepalive outcome
  if rc = success then pure packetType
  else
    v.closeIfConnected
    pure rc

theorem afterSwitch_exits {packetType : ℤ} {outcome : Outcome} (hexits : outcome.exits = true)
    (hrc : outcome.rc < 0) :
    wp (afterSwitch (variant env.platform fuel) packetType outcome)
      (fun rc t => rc < 0 ∧ t.world = s.world ∧
        t.client.readbuf.length = s.client.readbuf.length)
      (fun _ _ => True) s := by
  have hnot : outcome.rc ≠ success := by
    unfold success
    omega
  rw [afterSwitch, Variant.checkKeepalive, if_pos hexits, wp_bind, wp_pure, if_neg hnot, wp_bind]
  apply wp_imp (closeIfConnected_conduct fuel)
  exact fun _ t h => ⟨hrc, h⟩

theorem afterSwitch_goesOn {packetType : ℤ} (hreading : s.world.reading = []) :
    wp (afterSwitch (variant env.platform fuel) packetType ⟨success, false⟩)
      (fun rc t => ∃ evs : List (Event H β), receivedPackets evs = [] ∧
        ((rc = packetType ∧ Rests s t [] evs) ∨ (rc < 0 ∧ Did s t [] evs .idle)))
      (fun _ _ => True) s := by
  rw [afterSwitch, Variant.checkKeepalive, if_neg Bool.false_ne_true, wp_bind, wp_bind]
  apply wp_imp (keepalive_conduct fuel hreading)
  rintro rc t ⟨evs, hrest, hsilent⟩
  rw [wp_pure]
  by_cases hrc : rc = success
  · simp only [hrc, ne_eq, not_true_eq_false, if_false, if_true, wp_pure]
    exact ⟨evs, hsilent, .inl ⟨trivial, hrest⟩⟩
  · have hfailure : ¬ failure = success := by decide
    simp only [hrc, hfailure, ne_eq, not_false_eq_true, if_true, if_false, wp_bind, wp_pure]
    apply wp_imp (closeIfConnected_conduct fuel)
    rintro _ u ⟨hworld, hlen⟩
    exact ⟨evs, hsilent, .inr ⟨by decide, hrest.did.same_world hworld hlen⟩⟩

/-- A cycle fails, or it ends with nothing owed and returns the type of the packet
it has received, if it has received one. -/
theorem cycle_conduct (hreading : s.world.reading = []) :
    wp (cycle env.platform fuel timer)
      (fun rc t => ∃ evs : List (Event H β), (rc < 0 ∧ ∃ d, Did s t [] evs d) ∨
        (0 ≤ rc ∧ Rests s t [] evs ∧ (0 < rc → LastReceived evs rc)))
      (fun _ _ => True) s := by
  unfold cycle Variant.cycle
  rw [wp_bind]
  apply wp_imp (readPacket_conduct hreading)
  rintro packetType t ⟨notes, ⟨hrc, hlike, htrace⟩ |
    ⟨w, htrace, hlen, ⟨rfl, hlike, tail, hbuf⟩ | ⟨rfl, hlong⟩⟩⟩
  · have hrest : Rests s t [] (notes.map .note) := hlike.rests hreading htrace (.notes notes)
    rcases hrc.lt_or_eq with hneg | rfl
    · rw [Variant.handlePacket_neg _ hneg, wp_bind, wp_pure]
      apply wp_imp (afterSwitch_exits fuel rfl hneg)
      rintro rc u ⟨hrc, hworld, hlen⟩
      exact ⟨_, .inl ⟨hrc, _, hrest.did.same_world hworld hlen⟩⟩
    · rw [Variant.handlePacket, if_pos rfl, wp_bind, wp_pure]
      apply wp_imp (afterSwitch_goesOn fuel hrest.reading)
      rintro rc u ⟨evs, -, ⟨rfl, hu⟩ | ⟨hrc, hu⟩⟩
      · exact ⟨_, .inr ⟨le_rfl, hrest.trans hu, fun h => absurd h (lt_irrefl 0)⟩⟩
      · exact ⟨_, .inl ⟨hrc, _, hrest.did_trans hu⟩⟩
  · rw [wp_bind, wp_congr (Variant.handlePacket_eq _ w hbuf)]
    apply wp_imp (respond_conduct fuel w.packet tail)
    rintro outcome u ⟨hlike', evs, htrace', hsilent, hwork⟩
    rw [hlike.handlers] at hwork
    have hboth : u.world.trace = s.world.trace ++ (notes.map .note ++ (.received w :: evs)) := by
      rw [htrace', htrace]
      simp
    rcases hwork with ⟨rfl, hworks⟩ | ⟨hexits, hrc, d, hd, hworks⟩
    · have hrest : Rests s u [] (notes.map .note ++ (.received w :: evs)) :=
        (hlike.trans hlike').rests hreading hboth (.after_notes notes (.received hworks))
      apply wp_imp (afterSwitch_goesOn fuel hrest.reading)
      rintro rc v ⟨later, hlater, ⟨rfl, hv⟩ | ⟨hrc, hv⟩⟩
      · refine ⟨_, .inr ⟨Int.natCast_nonneg _, hrest.trans hv, fun _ => ?_⟩⟩
        exact ⟨w, by simp [hsilent, hlater], by rw [w.type_frame]⟩
      · exact ⟨_, .inl ⟨hrc, _, hrest.did_trans hv⟩⟩
    · apply wp_imp (afterSwitch_exits fuel hexits hrc)
      rintro rc v ⟨hrc, hworld, hlen'⟩
      refine ⟨_, .inl ⟨hrc, d, ⟨by rw [hworld, hboth], .after_notes notes (.received hworks),
        hlen'.trans (hlike'.length_readbuf.trans hlen), fun _ => ⟨hd, ?_⟩⟩⟩⟩
      rw [hworld, hlike'.reading, hlike.reading, hreading]
  · rw [Variant.handlePacket_neg _ (by decide), wp_bind, wp_pure]
    apply wp_imp (afterSwitch_exits fuel rfl (by decide))
    rintro rc u ⟨hrc, hworld, hlen'⟩
    refine ⟨_, .inl ⟨hrc, .of (handlersFor s.client) w.packet, ⟨by rw [hworld, htrace],
      .after_notes notes (.received .done), hlen'.trans hlen, fun hfits => ?_⟩⟩⟩
    have := hfits w (by simp)
    omega

/-- A wait that gets what it waits for ends with that packet and nothing owed. -/
theorem waitforLoop_conduct (packetType : MsgType) :
    ∀ {rounds : ℕ} {rc : ℤ} {s : Client (PacketWorld ν H β) τ H}, s.world.reading = [] →
    rc ≠ packetType.code →
    wp ((variant env.platform fuel).waitforLoop env.platform packetType timer rounds rc)
      (fun rc t => ∃ (evs : List (Event H β)) (d : Duty H), Did s t [] evs d ∧
        (rc = packetType.code → Rests s t [] evs ∧ LastReceived evs packetType.code))
      (fun _ _ => True) s
  | 0, _, _, _, _ => trivial
  | rounds + 1, rc, s, hreading, hrc => by
    have hcode : (0 : ℤ) < packetType.code := by exact_mod_cast packetType.code_pos
    rw [Variant.waitforLoop, wp_bind, wp_ask, wp_ite, wp_pure, wp_bind]
    have hasked : Rests s
        { s with world := (env.platform.timerIsExpired timer s.world).2 } [] [] :=
      (Rests.refl hreading).alike ⟨rfl, rfl, rfl, rfl⟩ rfl
    refine ⟨fun _ => ⟨[], _, hasked.did, fun h => absurd h hrc⟩, fun _ => ?_⟩
    apply wp_imp (cycle_conduct fuel hasked.reading)
    rintro rc' t ⟨evs, ⟨hneg, d, ht⟩ | ⟨hle, ht, hlast⟩⟩
    · rw [if_neg (by omega), wp_pure]
      exact ⟨evs, d, hasked.did_trans ht, fun h => by omega⟩
    · rw [wp_ite, wp_pure]
      refine ⟨fun hmore => ?_, fun hdone => ?_⟩
      · apply wp_imp (waitforLoop_conduct packetType ht.reading hmore.1)
        rintro rc'' u ⟨evs', d, hu, hgot⟩
        refine ⟨evs ++ evs', d, (hasked.trans ht).did_trans hu, fun h => ?_⟩
        exact ⟨(hasked.trans ht).trans (hgot h).1, (hgot h).2.append evs⟩
      · exact ⟨evs, _, (hasked.trans ht).did, fun h => ⟨hasked.trans ht, h ▸ hlast (h ▸ hcode)⟩⟩

theorem waitfor_conduct (packetType : MsgType) (hreading : s.world.reading = []) :
    wp (waitfor env.platform fuel packetType timer)
      (fun rc t => ∃ (evs : List (Event H β)) (d : Duty H), Did s t [] evs d ∧
        (rc = packetType.code → Rests s t [] evs ∧ LastReceived evs packetType.code))
      (fun _ _ => True) s := by
  have hfailure : failure ≠ packetType.code := by
    have : (0 : ℤ) < packetType.code := by exact_mod_cast packetType.code_pos
    unfold failure
    omega
  exact waitforLoop_conduct fuel packetType hreading hfailure

theorem yieldLoop_conduct : ∀ {rounds : ℕ} {s : Client (PacketWorld ν H β) τ H},
    s.world.reading = [] →
    wp (yieldLoop env.platform fuel timer rounds)
      (fun rc t => ∃ (evs : List (Event H β)) (d : Duty H), Did s t [] evs d ∧
        (rc = success → Rests s t [] evs))
      (fun _ _ => True) s
  | 0, _, _ => trivial
  | rounds + 1, s, hreading => by
    rw [yieldLoop, wp_bind]
    apply wp_imp (cycle_conduct fuel hreading)
    rintro rc t ⟨evs, ⟨hneg, d, ht⟩ | ⟨hle, ht, -⟩⟩
    · rw [if_pos hneg, wp_pure]
      exact ⟨evs, d, ht, fun h => absurd h (by decide)⟩
    · rw [if_neg (by omega), wp_bind, wp_ask, wp_ite, wp_pure]
      have hasked : Rests s
          { t with world := (env.platform.timerIsExpired timer t.world).2 } [] evs :=
        ht.alike ⟨rfl, rfl, rfl, rfl⟩ rfl
      refine ⟨fun _ => ⟨evs, _, hasked.did, fun _ => hasked⟩, fun _ => ?_⟩
      apply wp_imp (yieldLoop_conduct hasked.reading)
      rintro rc' u ⟨evs', d, hu, hgood⟩
      exact ⟨evs ++ evs', d, hasked.did_trans hu, fun h => hasked.trans (hgood h)⟩

end Sending
end MqttEmbedded.ClientC
