import MqttEmbedded.Client.Duty
import MqttEmbedded.ClientC.Operations

/-!
# Inbound traffic is answered and delivered

In an environment where everything completes, the trace of a run is determined
by the packets that come in: each is followed by the calls of its handlers and
by its acknowledgement.
-/

namespace MqttEmbedded.ClientC

open Region Hoare

variable {ν τ H β : Type}

/-- The packets of the inbox arrive one after another, what is offered is taken, no
timer expires and nothing else happens. -/
structure Prompt (env : PacketEnv ν τ H β) (inbox : ν → List WirePacket) : Prop where
  next : ∀ timeout state w rest, inbox state = w :: rest →
    (env.next timeout state).1 = .packet w ∧ (env.next timeout state).2.1 = [] ∧
      inbox (env.next timeout state).2.2 = rest
  offer : ∀ bytes timeout state, (env.offer bytes timeout state).1 = .taken ∧
    (env.offer bytes timeout state).2.1 = [] ∧
      inbox (env.offer bytes timeout state).2.2 = inbox state
  unexpired : ∀ timer state, (env.base.timerIsExpired timer state).1 = false
  steady : env.Steady fun u v => inbox v = inbox u
  invoke : ∀ fp md state, inbox (env.base.invoke fp md state) = inbox state

/-- What a packet leads to. -/
def exchange (c : MQTTClient τ H) (w : WirePacket) : List (Event H β) :=
  .received w :: ((deliveries (handlersFor c) w.packet).map (fun call => .called call.1 call.2) ++
    (w.packet.reply.map fun reply => .sent (ackBytes reply.1 reply.2)).toList)

/-- What the next packet finds as the last one did. -/
structure SameReceiver (c d : MQTTClient τ H) : Prop where
  length_buf : d.buf.length = c.buf.length
  length_readbuf : d.readbuf.length = c.readbuf.length
  messageHandlers : d.messageHandlers = c.messageHandlers
  defaultMessageHandler : d.defaultMessageHandler = c.defaultMessageHandler

namespace SameReceiver

variable {c d e : MQTTClient τ H}

theorem trans (h : SameReceiver c d) (h' : SameReceiver d e) : SameReceiver c e :=
  ⟨h'.length_buf.trans h.length_buf, h'.length_readbuf.trans h.length_readbuf,
    h'.messageHandlers.trans h.messageHandlers,
    h'.defaultMessageHandler.trans h.defaultMessageHandler⟩

theorem handlersFor (h : SameReceiver c d) :
    MqttEmbedded.handlersFor d = MqttEmbedded.handlersFor c := by
  funext topic
  simp only [MqttEmbedded.handlersFor, h.messageHandlers, h.defaultMessageHandler]

theorem exchange (h : SameReceiver c d) :
    (ClientC.exchange d : WirePacket → List (Event H β)) = ClientC.exchange c := by
  funext w
  simp only [ClientC.exchange, h.handlersFor]

end SameReceiver

namespace Prompt

variable {env : PacketEnv ν τ H β} {inbox : ν → List WirePacket} (prompt : Prompt env inbox)
  (fuel : ℕ) {timer : τ} {s : Client (PacketWorld ν H β) τ H}
include prompt

theorem sendLoop_taken {length : ℕ} (hpos : 0 < length) :
    wp (sendLoop env.platform length timer (fuel + 2) 0)
      (fun sent t => sent = length ∧ t.client = s.client ∧ t.world.reading = s.world.reading ∧
        t.world.trace = s.world.trace ++ [.sent (s.client.buf.take length)] ∧
        inbox t.world.state = inbox s.world.state)
      (fun _ _ => False) s := by
  have hexpired : (env.platform.timerIsExpired timer s.world).1 = false :=
    prompt.unexpired timer s.world.state
  have hwrite (timeout : ℤ) (w : PacketWorld ν H β) :
      (env.platform.mqttwrite (s.client.buf.drop 0) length timeout w).1 = length ∧
      (env.platform.mqttwrite (s.client.buf.drop 0) length timeout w).2.reading =
        w.reading ∧
      (env.platform.mqttwrite (s.client.buf.drop 0) length timeout w).2.trace =
        w.trace ++ [.sent (s.client.buf.take length)] ∧
      inbox (env.platform.mqttwrite (s.client.buf.drop 0) length timeout w).2.state =
        inbox w.state := by
    obtain ⟨htaken, hnotes, hinbox⟩ := prompt.offer (s.client.buf.take length) timeout w.state
    simp [PacketEnv.platform, PacketWorld.mqttwrite, htaken, hnotes, hinbox, Reception.rc,
      Reception.events]
  rw [sendLoop, if_pos hpos, wp_bind, wp_ask, if_neg (by simp [hexpired])]
  simp only [wp_bind, wp_ask, wp_getClient]
  obtain ⟨hrc, hreading, htrace, hinbox⟩ := hwrite
    (env.platform.timerLeftMS timer
      (env.platform.timerIsExpired timer s.world).2).1
    (env.platform.timerLeftMS timer (env.platform.timerIsExpired timer s.world).2).2
  rw [hrc, if_neg (by omega), sendLoop, if_neg (by simp)]
  refine ⟨by simp, rfl, hreading, htrace, hinbox.trans ?_⟩
  exact (prompt.steady.timerLeftMS _ _).trans (prompt.steady.timerIsExpired timer s.world.state)

theorem sendPacket_taken {length : ℕ} (hpos : 0 < length) :
    wp (sendPacket env.platform (fuel + 2) length timer)
      (fun rc t => rc = success ∧ t.world.reading = s.world.reading ∧
        t.world.trace = s.world.trace ++ [.sent (s.client.buf.take length)] ∧
        inbox t.world.state = inbox s.world.state ∧
        ∃ lastSent, t.client = { s.client with lastSent := lastSent })
      (fun _ _ => False) s := by
  unfold sendPacket
  rw [wp_bind]
  apply wp_imp (prompt.sendLoop_taken fuel hpos)
  rintro sent t ⟨rfl, hclient, hreading, htrace, hinbox⟩
  rw [if_pos rfl]
  simp only [wp_bind, wp_getClient, wp_ask, wp_modifyClient, wp_pure]
  exact ⟨trivial, hreading, htrace, (prompt.steady.timerCountdown _ _ _).trans hinbox, _,
    by rw [hclient]⟩

theorem sendAck_taken {packettype : MsgType} {id : UInt16} (hbuf : 4 ≤ s.client.buf.length) :
    wp ((variant env.platform (fuel + 2)).sendAck packettype id timer)
      (fun rc t => rc = success ∧ t.world.reading = s.world.reading ∧
        t.world.trace = s.world.trace ++ [.sent (ackBytes packettype id)] ∧
        inbox t.world.state = inbox s.world.state ∧ SameReceiver s.client t.client)
      (fun _ _ => False) s := by
  have hlen := length_ackBytes packettype id
  rw [Variant.wp_sendAck]
  refine ⟨fun _ => ?_, fun h => absurd hbuf h⟩
  apply wp_imp (prompt.sendPacket_taken fuel (by norm_num))
  rintro rc t ⟨rfl, hreading, htrace, hinbox, lastSent, hclient⟩
  refine ⟨rfl, hreading, ?_, hinbox, ?_⟩
  · rw [htrace]
    dsimp only
    rw [← hlen, take_overwrite_zero]
  · rw [hclient]
    exact ⟨length_overwrite (by omega), rfl, rfl, rfl⟩

theorem keepalive_unexpired :
    wp (keepalive env.platform fuel)
      (fun rc t => rc = success ∧ t.client = s.client ∧ t.world.reading = s.world.reading ∧
        t.world.trace = s.world.trace ∧ inbox t.world.state = inbox s.world.state)
      (fun _ _ => False) s := by
  have hexpired (timer : τ) (w : PacketWorld ν H β) :
      (env.platform.timerIsExpired timer w).1 = false := prompt.unexpired timer w.state
  unfold keepalive keepaliveDue
  simp only [wp_bind, wp_getClient, wp_ite, wp_pure, wp_ask, hexpired, Bool.false_eq_true,
    false_implies, not_false_eq_true, true_implies, true_and]
  refine ⟨fun _ => trivial, fun _ => ⟨rfl, rfl, ?_⟩⟩
  exact (prompt.steady.timerIsExpired _ _).trans (prompt.steady.timerIsExpired _ _)

theorem respondPublish_taken (reply : Option (MsgType × UInt16)) (hbuf : 4 ≤ s.client.buf.length) :
    wp ((variant env.platform (fuel + 2)).respondPublish reply timer)
      (fun outcome t => outcome = ⟨success, false⟩ ∧ t.world.reading = s.world.reading ∧
        t.world.trace = s.world.trace ++
          (reply.map fun reply => .sent (ackBytes reply.1 reply.2)).toList ∧
        inbox t.world.state = inbox s.world.state ∧ SameReceiver s.client t.client)
      (fun _ _ => False) s := by
  cases reply with
  | none => exact ⟨rfl, rfl, (List.append_nil _).symm, rfl, rfl, rfl, rfl, rfl⟩
  | some reply =>
    rw [Variant.respondPublish, wp_bind]
    apply wp_imp (prompt.sendAck_taken fuel hbuf)
    rintro rc t ⟨rfl, ht⟩
    exact ⟨rfl, ht⟩

theorem respondAck_taken {received packettype : MsgType} {id : UInt16}
    (hbuf : 4 ≤ s.client.buf.length) :
    wp ((variant env.platform (fuel + 2)).respondAck received packettype id timer)
      (fun outcome t => outcome = ⟨success, false⟩ ∧ t.world.reading = s.world.reading ∧
        t.world.trace = s.world.trace ++ [.sent (ackBytes packettype id)] ∧
        inbox t.world.state = inbox s.world.state ∧ SameReceiver s.client t.client)
      (fun _ _ => False) s := by
  rw [Variant.respondAck, wp_bind]
  apply wp_imp (prompt.sendAck_taken fuel hbuf)
  rintro rc t ⟨rfl, ht⟩
  exact ⟨rfl, ht⟩

theorem inbox_invokeAll (md : MessageData) (fps : List H) (w : PacketWorld ν H β) :
    inbox (invokeAll env.platform md fps w).state = inbox w.state := by
  induction fps generalizing w with
  | nil => rfl
  | cons fp fps ih =>
    simp only [invokeAll] at ih ⊢
    rw [List.foldl_cons, ih]
    exact prompt.invoke fp md w.state

theorem respond_taken (packet : Inbound) (tail : List UInt8) (hbuf : 4 ≤ s.client.buf.length) :
    wp ((variant env.platform (fuel + 2)).respond packet tail timer)
      (fun outcome t => outcome = ⟨success, false⟩ ∧ t.world.reading = s.world.reading ∧
        t.world.trace = s.world.trace ++
          ((deliveries (handlersFor s.client) packet).map (fun call => .called call.1 call.2) ++
            (packet.reply.map fun reply => .sent (ackBytes reply.1 reply.2)).toList) ∧
        inbox t.world.state = inbox s.world.state ∧ SameReceiver s.client t.client)
      (fun _ _ => False) s := by
  have hsilent : SameReceiver s.client s.client := ⟨rfl, rfl, rfl, rfl⟩
  cases packet with
  | publish dup qos retained topic id payload =>
    unfold Variant.respond
    rw [wp_bind]
    change wp (deliverMessage _ _ _ >>= fun _ => pure PUnit.unit) _ _ s
    rw [wp_bind]
    apply wp_deliverMessage
    intro _
    rw [wp_pure]
    apply wp_imp (prompt.respondPublish_taken fuel _ (by exact hbuf))
    rintro outcome t ⟨houtcome, hreading, htrace, hinbox, hsame⟩
    refine ⟨houtcome, hreading.trans (PacketEnv.reading_invokeAll _ _ _), ?_,
      hinbox.trans (prompt.inbox_invokeAll _ _ _), hsame⟩
    rw [htrace]
    exact (congrArg₂ (· ++ ·) (PacketEnv.trace_invokeAll_publish _ _) rfl).trans
      (List.append_assoc _ _ _)
  | pubrec id => exact prompt.respondAck_taken fuel hbuf
  | pubrel id => exact prompt.respondAck_taken fuel hbuf
  | pingresp => exact ⟨rfl, rfl, (List.append_nil _).symm, rfl, rfl, rfl, rfl, rfl⟩
  | connack _ _ => exact ⟨rfl, rfl, (List.append_nil _).symm, rfl, hsilent⟩
  | puback _ => exact ⟨rfl, rfl, (List.append_nil _).symm, rfl, hsilent⟩
  | pubcomp _ => exact ⟨rfl, rfl, (List.append_nil _).symm, rfl, hsilent⟩
  | suback _ _ => exact ⟨rfl, rfl, (List.append_nil _).symm, rfl, hsilent⟩
  | unsuback _ => exact ⟨rfl, rfl, (List.append_nil _).symm, rfl, hsilent⟩

theorem cycle_taken {w : WirePacket} {rest : List WirePacket}
    (hinbox : inbox s.world.state = w :: rest) (hreading : s.world.reading = [])
    (hfits : w.frame.stored.length ≤ s.client.readbuf.length) (hbuf : 4 ≤ s.client.buf.length) :
    wp (cycle env.platform (fuel + 2) timer)
      (fun rc t => rc = w.packet.type.code ∧ inbox t.world.state = rest ∧ t.world.reading = [] ∧
        t.world.trace = s.world.trace ++ exchange s.client w ∧ SameReceiver s.client t.client)
      (fun _ _ => False) s := by
  have hleft : inbox (env.base.timerLeftMS timer s.world.state).2 = w :: rest :=
    (prompt.steady.timerLeftMS timer s.world.state).trans hinbox
  obtain ⟨hnext, hnotes, hrest⟩ := prompt.next (env.base.timerLeftMS timer s.world.state).1 _ w rest
    hleft
  unfold cycle Variant.cycle
  rw [wp_bind]
  apply wp_imp (readPacketWith_packet prompt.steady hreading hfits (tooLong_stored hfits) hnext)
  rintro rc t ⟨rfl, -, hreading', htrace, hstate, lastReceived, hclient⟩
  have hread : t.client.readbuf =
      w.frame.stored ++ s.client.readbuf.drop w.frame.stored.length := by
    rw [hclient, overwrite_zero]
  rw [wp_bind, wp_congr (Variant.handlePacket_eq _ w hread)]
  apply wp_imp (prompt.respond_taken fuel w.packet _ (by rw [hclient]; exact hbuf))
  rintro _ u ⟨rfl, hreading'', htrace', hinbox', hsame⟩
  have hreceiver : SameReceiver s.client t.client := by
    rw [hclient]
    refine ⟨rfl, ?_, rfl, rfl⟩
    rw [w.frame.length_stored] at hfits
    exact length_overwrite (by rw [w.frame.length_stored]; omega)
  rw [Variant.checkKeepalive, if_neg Bool.false_ne_true, wp_bind, wp_bind]
  apply wp_imp (prompt.keepalive_unexpired (fuel + 2))
  rintro _ v ⟨rfl, hclient'', hreading''', htrace'', hinbox''⟩
  rw [if_neg (by simp), wp_pure, if_pos rfl, wp_pure]
  refine ⟨?_, ?_, ?_, ?_, ?_⟩
  · simp [w.type_frame]
  · exact (hinbox''.trans (hinbox'.trans hstate)).trans hrest
  · exact hreading'''.trans (hreading''.trans hreading')
  · rw [htrace'', htrace', htrace, hreceiver.handlersFor, arrivalAt, hnotes]
    simp [exchange]
  · rw [hclient'']
    exact hreceiver.trans hsame

theorem cycles_taken (timers : ℕ → τ) {rest : List WirePacket} : ∀ {packets : List WirePacket}
    {s : Client (PacketWorld ν H β) τ H}, inbox s.world.state = packets ++ rest →
    s.world.reading = [] → (∀ w ∈ packets, w.frame.stored.length ≤ s.client.readbuf.length) →
    4 ≤ s.client.buf.length →
    wp (cycles env.platform (fuel + 2) timers packets.length)
      (fun _ t => t.world.trace = s.world.trace ++ packets.flatMap (exchange s.client) ∧
        inbox t.world.state = rest)
      (fun _ _ => False) s
  | [], s, hinbox, _, _, _ => ⟨by simp, hinbox⟩
  | w :: packets, s, hinbox, hreading, hfits, hbuf => by
    rw [List.length_cons, cycles]
    simp only [wp_bind, wp_get, wp_pure]
    apply wp_imp (prompt.cycle_taken fuel hinbox hreading (hfits w List.mem_cons_self) hbuf)
    rintro _ t ⟨-, hinbox', hreading', htrace, hsame⟩
    have hfits' : ∀ w ∈ packets, w.frame.stored.length ≤ t.client.readbuf.length := by
      intro w hw
      rw [hsame.length_readbuf]
      exact hfits w (List.mem_cons_of_mem _ hw)
    apply wp_imp (cycles_taken timers hinbox' hreading' hfits' (by rwa [hsame.length_buf]))
    rintro _ u ⟨htrace', hrest⟩
    refine ⟨?_, hrest⟩
    rw [htrace', htrace, List.flatMap_cons, List.append_assoc, hsame.exchange]

end Prompt

/-- A packet's exchange sends its acknowledgement and nothing else. -/
theorem sentPackets_exchange (c : MQTTClient τ H) (w : WirePacket) :
    sentPackets (exchange c w : List (Event H β)) =
      (w.packet.reply.map fun reply => ackBytes reply.1 reply.2).toList := by
  simp only [sentPackets, exchange, List.filterMap_cons, List.filterMap_append, List.filterMap_map]
  cases w.packet.reply <;> simp

theorem sentPackets_flatMap_exchange (c : MQTTClient τ H) (packets : List WirePacket) :
    sentPackets (packets.flatMap (exchange c) : List (Event H β)) =
      packets.filterMap fun w => w.packet.reply.map fun reply => ackBytes reply.1 reply.2 := by
  induction packets with
  | nil => rfl
  | cons w packets ih =>
    rw [List.flatMap_cons, sentPackets, List.filterMap_append]
    change sentPackets _ ++ sentPackets _ = _
    rw [sentPackets_exchange, ih]
    cases hreply : w.packet.reply <;> simp [hreply]

/-- The inbound packets are handled one by one: the handlers of a message are called
with what the packet encodes, then the packet is answered. -/
theorem cycles_exchange {env : PacketEnv ν τ H β} {inbox : ν → List WirePacket}
    (prompt : Prompt env inbox) (fuel : ℕ) (timers : ℕ → τ)
    {packets rest : List WirePacket} {s : Client (PacketWorld ν H β) τ H}
    (hinbox : inbox s.world.state = packets ++ rest) (hreading : s.world.reading = [])
    (hfits : ∀ w ∈ packets, w.frame.stored.length ≤ s.client.readbuf.length)
    (hbuf : 4 ≤ s.client.buf.length) :
    ∃ starts t, cycles env.platform (fuel + 2) timers packets.length s = .ok starts t ∧
      inbox t.world.state = rest ∧ ∃ events, t.world.trace = s.world.trace ++ events ∧
        events = packets.flatMap (exchange s.client) ∧
        sentPackets events =
          packets.filterMap fun w => w.packet.reply.map fun reply => ackBytes reply.1 reply.2 := by
  obtain ⟨starts, t, hrun, htrace, hrest⟩ :=
    wp_total (prompt.cycles_taken fuel timers hinbox hreading hfits hbuf)
  exact ⟨starts, t, hrun, hrest, _, htrace, rfl, sentPackets_flatMap_exchange s.client packets⟩

/-- An environment in which the packets of a list arrive. -/
def arriving : PacketEnv (List WirePacket) Unit Unit Unit where
  base :=
    { mqttread := fun _ _ inbox => (.failed 0 Delivery.none_nonpos, inbox)
      mqttwrite := fun _ len _ inbox => (len, inbox)
      timerInit := fun inbox => ((), inbox)
      timerIsExpired := fun _ inbox => (false, inbox)
      timerCountdownMS := fun _ _ inbox => ((), inbox)
      timerCountdown := fun _ _ inbox => ((), inbox)
      timerLeftMS := fun _ inbox => (1000, inbox)
      invoke := fun _ _ inbox => inbox }
  next := fun _ inbox =>
    match inbox with
    | w :: rest => (.packet w, [], rest)
    | [] => (.nothing 0 Delivery.none_nonpos, [], [])
  offer := fun _ _ inbox => (.taken, [], inbox)
  renew := id

theorem prompt_arriving : Prompt arriving id where
  next := by
    rintro _ _ w rest rfl
    exact ⟨rfl, rfl, rfl⟩
  offer := fun _ _ _ => ⟨rfl, rfl, rfl⟩
  unexpired := fun _ _ => rfl
  steady := ⟨fun _ => rfl, fun h h' => h'.trans h, fun _ => rfl, fun _ _ => rfl, fun _ _ _ => rfl,
    fun _ _ _ => rfl, fun _ _ => rfl⟩
  invoke := fun _ _ _ => rfl

/-- A PUBLISH of quality 1 for the topic "a", a PUBREL and a PINGRESP. -/
def publishPubrelPingresp : List WirePacket :=
  [.ofInbound (.publish false 1 false [97] 7 [1, 2]) (by decide),
    .ofInbound (.pubrel 9) (by decide), .ofInbound .pingresp Inbound.pingresp_wellFormed]

/-- A connected client with a default handler. -/
def receiver : Client (PacketWorld (List WirePacket) Unit Unit) Unit Unit where
  client :=
    { nextPacketid := 1
      commandTimeoutMs := 1000
      buf := List.replicate 8 0
      readbuf := List.replicate 16 0
      keepAliveInterval := 60
      pingOutstanding := false
      isconnected := true
      cleansession := false
      messageHandlers := []
      defaultMessageHandler := some ()
      lastSent := ()
      lastReceived := () }
  own := ()
  world := .fresh publishPubrelPingresp

theorem cycles_exchange_publishPubrelPingresp :
    ∃ starts t, cycles arriving.platform 2 (fun _ => ()) 3 receiver =
      .ok starts t ∧ sentPackets t.world.trace = [[0x40, 2, 0, 7], [0x70, 2, 0, 9]] := by
  have hfits : ∀ w ∈ publishPubrelPingresp,
      w.frame.stored.length ≤ receiver.client.readbuf.length := by decide
  obtain ⟨starts, t, hrun, -, events, htrace, -, hsent⟩ := cycles_exchange prompt_arriving 0
    (fun _ => ()) (s := receiver) (List.append_nil _).symm rfl hfits (by decide)
  refine ⟨starts, t, hrun, ?_⟩
  rw [htrace]
  exact hsent.trans (by decide)

end MqttEmbedded.ClientC
