import MqttEmbedded.Client.Dialogue
import MqttEmbedded.ClientC.History

/-!
# Agreement with a conforming broker

The client never compares the identifier in an acknowledgement. It need not: at
most one answer is outstanding while the connection lasts, and the connection is
replaced after every call that fails, so that what is received in a call answers
what was sent in it.
-/

namespace MqttEmbedded.ClientC

open Hoare

variable {ν τ H : Type}

theorem publishHeader_eq (qos retained : ℕ) : publishHeader 0 qos (UInt8.ofNat retained) =
    MQTTHeader.ofBits MsgType.publish.code false.toNat qos (decide (retained % 2 = 1)).toNat := by
  have hbit : (UInt8.ofNat retained).toNat % 2 = (decide (retained % 2 = 1)).toNat % 2 := by
    rw [UInt8.toNat_ofNat']
    by_cases h : retained % 2 = 1
    · rw [decide_eq_true h, Bool.toNat_true]
      omega
    · rw [decide_eq_false h, Bool.toNat_false]
      omega
  unfold publishHeader MQTTHeader.ofBits
  rw [hbit]
  rfl

theorem answerTo_publishBytes {topicName : CString} {message : MQTTMessage}
    (h : (Call.publish topicName message : Call H).Legal) (id : UInt16) :
    answerTo (publishBytes topicName message id) =
      if message.qos = 1 then some (.puback id)
      else if message.qos = 2 then some (.pubrec id) else none := by
  obtain ⟨htopic, hqos, hpayload, hlen⟩ := h
  generalize hbytes : message.payload.take message.payloadlen = payload
  have hwell : (Inbound.publish false message.qos (decide (message.retained % 2 = 1))
      topicName.bytes id payload).WellFormed := by
    refine ⟨?_, hqos, htopic⟩
    subst hbytes
    change (publishBody message.qos id (MQTTString.ofCString topicName).text _).length ≤ _
    rwa [length_publishBody (oneForm_ofCString topicName) hpayload]
  have hread := mqttDeserializePublish_eq [] hwell
  rw [List.append_nil, Inbound.header, ← publishHeader_eq] at hread
  have htype : MQTTHeader.type (publishHeader 0 message.qos (UInt8.ofNat message.retained)) =
      MsgType.publish.code := by
    rw [publishHeader, MQTTHeader.type_ofBits]
    rfl
  unfold publishBytes
  rw [answerTo_frameBytes htype, hbytes, answerOfType, publishAnswer, hread]
  obtain hzero | hone | htwo : message.qos = 0 ∨ message.qos = 1 ∨ message.qos = 2 := by omega
  · simp [hzero]
  · simp [hone]
  · simp [htwo]

theorem answerTo_subscribeBytes {topicFilter : CString} (h : topicFilter.bytes.length < 65536)
    (qos : ℕ) (id : UInt16) : answerTo (subscribeBytes topicFilter qos id) = some (.suback id) := by
  have htype : MQTTHeader.type (subscribeHeader 0) = MsgType.subscribe.code := by
    rw [subscribeHeader, MQTTHeader.type_ofBits]
    rfl
  have hlen : (intBytes id.toNat ++
      subscribeEntries [MQTTString.ofCString topicFilter] [qos]).length ≤ maxRemainingLength := by
    have htext : (MQTTString.ofCString topicFilter).text = topicFilter.bytes := rfl
    simp [subscribeEntries, htext, maxRemainingLength]
    omega
  unfold subscribeBytes
  rw [answerTo_frameBytes htype, answerOfType, packetidOf_frameBytes hlen]
  rfl

theorem answerTo_unsubscribeBytes {topicFilter : CString} (h : topicFilter.bytes.length < 65536)
    (id : UInt16) : answerTo (unsubscribeBytes topicFilter id) = some (.unsuback id) := by
  have htype : MQTTHeader.type (unsubscribeHeader 0) = MsgType.unsubscribe.code := by
    rw [unsubscribeHeader, MQTTHeader.type_ofBits]
    rfl
  have hlen : (intBytes id.toNat ++ unsubscribeEntries [MQTTString.ofCString topicFilter]).length ≤
      maxRemainingLength := by
    have htext : (MQTTString.ofCString topicFilter).text = topicFilter.bytes := rfl
    simp [unsubscribeEntries, htext, maxRemainingLength]
    omega
  unfold unsubscribeBytes
  rw [answerTo_frameBytes htype, answerOfType, packetidOf_frameBytes hlen]
  rfl

theorem answerTo_connectBytes (options : ConnectData) :
    answerTo (connectBytes options) = some .connack := by
  have htype : MQTTHeader.type connectHeader = MsgType.connect.code := by decide
  exact answerTo_frameBytes htype _

/-- What a legal call waits for is the end of what its packet begins. -/
theorem Call.awaited_eq {call : Call H} (h : call.Legal) {id : UInt16} {bytes : List UInt8}
    (hbytes : call.packet id = some bytes) {a : Ack} (ha : answerTo bytes = some a) :
    call.awaited = some a.final := by
  cases call with
  | connect options =>
    cases hbytes
    rw [answerTo_connectBytes] at ha
    cases ha
    rfl
  | publish topicName message =>
    cases hbytes
    rw [answerTo_publishBytes h] at ha
    split_ifs at ha with hone htwo
    · cases ha
      exact if_pos hone
    · cases ha
      exact (if_neg hone).trans (if_pos htwo)
  | subscribe topicFilter qos messageHandler =>
    cases hbytes
    rw [answerTo_subscribeBytes h] at ha
    cases ha
    rfl
  | unsubscribe topicFilter =>
    cases hbytes
    rw [answerTo_unsubscribeBytes h] at ha
    cases ha
    rfl
  | disconnect =>
    cases hbytes
    have hnone : answerTo disconnectBytes = none := by decide
    cases hnone.symm.trans ha
  | yield _ | setMessageHandler _ _ => cases hbytes

/-- The acknowledgements received in a call answer packets sent in it, one each. A
publish that succeeds has been received by the broker, and answered. -/
structure Entry.Agreed (e : Entry τ H BrokerStep) : Prop where
  acks : receivedAcks e.events <+: (sentPackets e.events).filterMap answerTo
  qos1 : ∀ topicName message, e.call = .publish topicName message → message.qos = 1 →
    e.reply.rc = success → ∃ id, e.reply.id = some id ∧
      requests (takenPackets e.events) = [publishBytes topicName message id] ∧
      receivedAcks e.events = [.puback id]
  qos2 : ∀ topicName message, e.call = .publish topicName message → message.qos = 2 →
    e.reply.rc = success → ∃ id, e.reply.id = some id ∧
      requests (takenPackets e.events) =
        [publishBytes topicName message id, ackBytes .pubrel id] ∧
      receivedAcks e.events = [.pubrec id, .pubcomp id]

section

variable {e : Entry τ H BrokerStep} {id : UInt16} {asks : List (List UInt8)} {d : Duty H}
  {net net' : Protocol.Net (List UInt8) WirePacket Ack}

/-- A call that starts with nothing outstanding is a dialogue. -/
theorem Entry.Conducted.dialogue (h : e.Conducted id asks d) (hnet : mqtt.outstanding net = [])
    (hrun : mqtt.run net (networkSteps e.events) = some net') :
    Dialogue (requests asks) [] d.answer (requests (sentPackets e.events)) (receivedAcks e.events)
      (mqtt.outstanding net') := by
  have hone : asks.length ≤ 1 := by
    apply h.sends.length_le.trans
    cases e.call.packet id <;> simp
  have hstart : Dialogue (requests asks) asks none [] [] (mqtt.outstanding net) := by
    rw [hnet]
    exact .silent rfl hone rfl
  exact h.works.dialogue hrun hstart

theorem filterMap_requests (packets : List (List UInt8)) :
    (requests packets).filterMap answerTo = packets.filterMap answerTo := by
  induction packets with
  | nil => rfl
  | cons bytes packets ih =>
    rw [requests_cons, List.filterMap_append, ih]
    cases ha : answerTo bytes with
    | none => simp [requests_none ha, ha]
    | some a => simp [requests_some ha, ha]

/-- After a call that succeeds nothing is outstanding, and its exchange is complete. -/
theorem Entry.Conducted.succeeded (hlegal : e.call.Legal) (h : e.Conducted id asks d)
    (hrc : e.reply.rc = success) (hnet : mqtt.outstanding net = [])
    (hrun : mqtt.run net (networkSteps e.events) = some net') :
    mqtt.outstanding net' = [] ∧
    ∀ bytes a, e.call.packet id = some bytes → answerTo bytes = some a →
      (requests (takenPackets e.events) = [bytes] ∧ receivedAcks e.events = [a]) ∧
        (∀ id, a ≠ .pubrec id) ∨
      ∃ id, a = .pubrec id ∧ requests (takenPackets e.events) = [bytes, ackBytes .pubrel id] ∧
        receivedAcks e.events = [.pubrec id, .pubcomp id] := by
  obtain ⟨rfl, rfl, hlast⟩ := h.complete hrc
  have hd := h.dialogue hnet hrun
  have hconcluded := hd.concluded fun bytes a hbytes ha => by
    have hmem : bytes ∈ requests (e.call.packet id).toList := by
      rw [hbytes]
      exact List.mem_singleton_self bytes
    have hpacket : e.call.packet id = some bytes :=
      Option.mem_toList.mp (List.mem_of_mem_filter hmem)
    have hawaited := hlast _ (Call.awaited_eq hlegal hpacket ha)
    obtain ⟨b, hb⟩ := a.exists_type_eq_final
    exact receivedAcks_getLast? hawaited hb
  obtain ⟨hout, hexchange⟩ := hconcluded
  rw [← requests_takenPackets hrun h.works.not_renewed hnet hout] at hexchange
  exact ⟨hout, fun bytes a hbytes ha => hexchange bytes a (by
    rw [hbytes]
    exact requests_some ha) ha⟩

theorem Entry.Conducted.agreed (hlegal : e.call.Legal) (h : e.Conducted id asks d)
    (hnet : mqtt.outstanding net = [])
    (hrun : mqtt.run net (networkSteps e.events) = some net') : e.Agreed := by
  have hbalance := (h.dialogue hnet hrun).balance
  rw [filterMap_requests] at hbalance
  refine ⟨⟨_, hbalance.symm⟩, ?_, ?_⟩
  · intro topicName message hcall hqos hrc
    have hnumbered := h.numbered topicName message hcall (by omega) hrc
    obtain ⟨-, hexchange⟩ := h.succeeded hlegal hrc hnet hrun
    rw [hcall] at hlegal hexchange
    have hanswer := answerTo_publishBytes hlegal id
    rw [if_pos hqos] at hanswer
    rcases hexchange _ _ rfl hanswer with ⟨hdone, -⟩ | ⟨_, hpubrec, -⟩
    · exact ⟨id, hnumbered, hdone⟩
    · cases hpubrec
  · intro topicName message hcall hqos hrc
    have hnumbered := h.numbered topicName message hcall (by omega) hrc
    obtain ⟨-, hexchange⟩ := h.succeeded hlegal hrc hnet hrun
    rw [hcall] at hlegal hexchange
    have hanswer := answerTo_publishBytes hlegal id
    rw [if_neg (by omega), if_pos hqos] at hanswer
    rcases hexchange _ _ rfl hanswer with ⟨-, hne⟩ | ⟨_, hpubrec, hdone⟩
    · exact absurd rfl (hne id)
    · cases hpubrec
      exact ⟨id, hnumbered, hdone⟩

/-- After any call, with the new connection it may need, nothing is outstanding. -/
theorem Entry.Conducted.outstanding (hlegal : e.call.Legal) (h : e.Conducted id asks d)
    (hnet : mqtt.outstanding net = [])
    (hrun : mqtt.run net (networkSteps e.trace) = some net') :
    mqtt.outstanding net' = [] ∧
      ∃ mid, mqtt.run net (networkSteps e.events) = some mid := by
  unfold Entry.trace at hrun
  rw [networkSteps_append, Protocol.run_append, Option.bind_eq_some_iff] at hrun
  obtain ⟨mid, hevents, hrest⟩ := hrun
  refine ⟨?_, mid, hevents⟩
  split_ifs at hrest with hrc
  · cases hrest
    exact (h.succeeded hlegal hrc hnet hevents).1
  · cases hrest
    rfl

end

/-- From a network where nothing is outstanding every call of a run agrees with the
broker. -/
theorem agreed_of_run : ∀ {entries : List (Entry τ H BrokerStep)}
    {net net' : Protocol.Net (List UInt8) WirePacket Ack},
    (∀ e ∈ entries, e.call.Legal ∧ ∃ id asks d, e.Conducted id asks d) →
    mqtt.outstanding net = [] →
    mqtt.run net (networkSteps (entries.flatMap Entry.trace)) = some net' →
    ∀ e ∈ entries, e.Agreed
  | [], _, _, _, _, _ => by simp
  | e :: entries, net, net', hentries, hnet, hrun => by
    rw [List.flatMap_cons, networkSteps_append, Protocol.run_append,
      Option.bind_eq_some_iff] at hrun
    obtain ⟨mid, hfirst, hrest⟩ := hrun
    obtain ⟨hlegal, id, asks, d, hconducted⟩ := hentries e List.mem_cons_self
    obtain ⟨hmid, _, hevents⟩ := hconducted.outstanding hlegal hnet hfirst
    rintro e' (_ | ⟨_, he'⟩)
    · exact hconducted.agreed hlegal hnet hevents
    · exact agreed_of_run (fun e he => hentries e (List.mem_cons_of_mem _ he)) hmid hrest e' he'

/-- Whatever the application calls and whenever packets, broker steps and timeouts
come: what a publish that succeeds says about the broker is so, and no acknowledgement
is taken for that of another request. -/
theorem runCalls_agreement (env : PacketEnv ν τ H BrokerStep) (fuel : ℕ) {calls : List (Call H)}
    {s t : Client (PacketWorld ν H BrokerStep) τ H} {entries : List (Entry τ H BrokerStep)}
    (hlegal : ∀ call ∈ calls, call.Legal) (hreading : s.world.reading = [])
    (htrace : s.world.trace = []) (hrun : runCalls env fuel calls s = .ok entries t)
    (hbroker : Conforms t.world.trace) : ∀ e ∈ entries, e.Agreed := by
  obtain ⟨hwhole, hentries⟩ := wp_result (runCalls_conduct fuel hlegal hreading) hrun
  rw [htrace, List.nil_append] at hwhole
  rw [Conforms, hwhole] at hbroker
  obtain ⟨net, hnet⟩ := Option.isSome_iff_exists.mp hbroker
  refine agreed_of_run (fun e he => ?_) rfl hnet
  obtain ⟨hcall, hconducted⟩ := hentries e he
  exact ⟨hlegal _ hcall, hconducted⟩

/-- The packet of an answer. -/
def answerPacket : Ack → Inbound
  | .connack => .connack false 0
  | .puback id => .puback id
  | .pubrec id => .pubrec id
  | .pubcomp id => .pubcomp id
  | .suback id => .suback id [0]
  | .unsuback id => .unsuback id

theorem answerPacket_wellFormed (a : Ack) : (answerPacket a).WellFormed := by
  cases a <;>
    simp [answerPacket, Inbound.WellFormed, Inbound.body, Inbound.LegalPublish, maxRemainingLength]

/-- Its state is what it has been sent and not yet looked at. -/
def promptBroker : PacketEnv (List (List UInt8)) Unit Unit BrokerStep where
  base :=
    { mqttread := fun _ _ inbox => (.failed 0 Delivery.none_nonpos, inbox)
      mqttwrite := fun _ len _ inbox => (len, inbox)
      timerInit := fun inbox => ((), inbox)
      timerIsExpired := fun _ inbox => (false, inbox)
      timerCountdownMS := fun _ _ inbox => ((), inbox)
      timerCountdown := fun _ _ inbox => ((), inbox)
      timerLeftMS := fun _ inbox => (1000, inbox)
      invoke := fun _ _ inbox => inbox }
  next := fun _ inbox =>
    match inbox with
    | [] => (.nothing 0 Delivery.none_nonpos, [], [])
    | bytes :: rest =>
      match answerTo bytes with
      | none => (.nothing 0 Delivery.none_nonpos, [.took bytes], rest)
      | some a =>
        let w := WirePacket.ofInbound (answerPacket a) (answerPacket_wellFormed a)
        (.packet w, [.took bytes, .answered w], rest)
  offer := fun bytes _ inbox => (.taken, [], inbox ++ [bytes])
  renew := fun _ => []

def publisher : Client (PacketWorld (List (List UInt8)) Unit BrokerStep) Unit Unit where
  client :=
    { nextPacketid := 1
      commandTimeoutMs := 1000
      buf := List.replicate 16 0
      readbuf := List.replicate 16 0
      keepAliveInterval := 0
      pingOutstanding := false
      isconnected := true
      cleansession := false
      messageHandlers := []
      defaultMessageHandler := none
      lastSent := ()
      lastReceived := () }
  own := ()
  world := .fresh []

/-- Publish one byte under the topic "a". -/
def publishByte (qos : ℕ) : Call Unit :=
  .publish ⟨[97], unterminated_a⟩
    { qos := qos, retained := 0, dup := 0, id := none, payload := [1], payloadlen := 1 }

theorem runCalls_agreement_publisher :
    ∃ entries t, runCalls promptBroker 4 [publishByte 1, publishByte 2] publisher = .ok entries t ∧
      entries.map (fun e => e.reply) = [⟨success, some 2⟩, ⟨success, some 3⟩] ∧
      ∀ e ∈ entries, e.Agreed := by
  have hlegal : ∀ call ∈ [publishByte 1, publishByte 2], call.Legal := by
    intro call hcall
    rcases List.mem_pair.mp hcall with rfl | rfl
    · exact ⟨by decide, by decide, by decide, by decide⟩
    · exact ⟨by decide, by decide, by decide, by decide⟩
  obtain ⟨entries, t, hrun, hbroker, hreplies⟩ : ∃ entries t,
      runCalls promptBroker 4 [publishByte 1, publishByte 2] publisher = .ok entries t ∧
        Conforms t.world.trace ∧
        entries.map (fun e => e.reply) = [⟨success, some 2⟩, ⟨success, some 3⟩] :=
    wp_total (by decide +kernel)
  exact ⟨entries, t, hrun, hreplies, runCalls_agreement promptBroker 4 hlegal rfl rfl hrun hbroker⟩

end MqttEmbedded.ClientC
