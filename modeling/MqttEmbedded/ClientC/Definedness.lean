import MqttEmbedded.ClientC.Closing
import MqttEmbedded.ClientC.History
import MqttEmbedded.ClientC.InboundTraffic
import MqttEmbedded.ClientC.ReaderBounds
import MqttEmbedded.Packet.SerializeBounds
import MqttEmbedded.Packet.SubackCodec

/-!
# What is undefined

In the models a read or a store that the C code makes outside of a buffer, or through a
pointer that is null, is a fault. Against a peer that keeps to the format of the packets a
run of the client makes none, but for one: the array for the answers of a SUBACK has one
element, and the loop that fills it stops after the second.
-/

namespace MqttEmbedded.ClientC

open Region Hoare

/-- From any state, nothing undefined is done. -/
abbrev Defined {σ α : Type} (x : Prog σ α) : Prop := Spares (fun _ => True) Fault.undefined x

section Sending

variable {ω τ H α : Type} {p : Platform ω τ H} {fuel : ℕ}

theorem outOfFuel_ne_undefined : Fault.outOfFuel ≠ Fault.undefined := by decide

theorem ask_defined (f : ω → α × ω) : Defined (ask f : Prog (Client ω τ H) α) :=
  fun _ _ => trivial

theorem getClient_defined : Defined (getClient : Prog (Client ω τ H) (MQTTClient τ H)) :=
  fun _ _ => trivial

theorem modifyClient_defined (f : MQTTClient τ H → MQTTClient τ H) :
    Defined (modifyClient f : Prog (Client ω τ H) PUnit) :=
  fun _ _ => trivial

theorem newTimer_defined (ms : ℕ) : Defined (newTimer p ms : Prog (Client ω τ H) τ) :=
  .bind (ask_defined _) fun _ => ask_defined _

theorem serialize_defined {f : List UInt8 → Option (ℤ × List UInt8)} (h : ∀ buf, f buf ≠ none) :
    Defined (serialize f : Prog (Client ω τ H) ℤ) := by
  intro s _
  rw [wp_serialize]
  cases hf : f s.client.buf with
  | none => exact absurd hf (h _)
  | some result => trivial

theorem ne_none_of_eq {f : List UInt8 → Option (ℤ × List UInt8)} {bytes : List UInt8} {size : ℕ}
    (hsize : bytes.length ≤ size)
    (h : ∀ buf, f buf = if buf.length < size then some (mqttpacketBufferTooShort, buf)
      else serialized buf bytes) (buf : List UInt8) : f buf ≠ none := by
  rw [h]
  split_ifs with hshort
  · exact Option.some_ne_none _
  · rw [serialized_eq_some_iff.mpr ⟨hsize.trans (not_lt.mp hshort), rfl, rfl⟩]
    exact Option.some_ne_none _

theorem ne_none_of_measured {f : List UInt8 → Option (ℤ × List UInt8)} {header : UInt8}
    {body : List UInt8} {remLen : ℕ} (hbody : body.length = remLen)
    (hmax : remLen ≤ maxRemainingLength)
    (h : ∀ buf, f buf = if buf.length < mqttPacketLen remLen then
        some (mqttpacketBufferTooShort, buf)
      else serialized buf (frameBytes header body)) : ∀ buf, f buf ≠ none := by
  have hle := le_mqttPacketLen hmax
  have hlen := length_frameBytes header body
  rw [hbody] at hlen
  exact ne_none_of_eq (by omega) h

theorem mqttSerializeZero_ne_none (packettype : ℕ) :
    ∀ buf, mqttSerializeZero buf packettype ≠ none :=
  ne_none_of_eq ((length_frameBytes _ []).trans_le (by decide)) fun buf =>
    mqttSerializeZero_eq buf packettype

theorem mqttSerializeConnect_ne_none {options : ConnectData} (h : options.Legal) :
    ∀ buf, mqttSerializeConnect buf options ≠ none := by
  obtain ⟨hone, hversion, hmax⟩ := h
  have hbody := ConnectData.length_body hone hversion
  rw [hbody] at hmax
  exact ne_none_of_measured hbody hmax fun buf =>
    mqttSerializeConnect_eq buf hone hversion (lt_of_le_maxRemainingLength hmax)

theorem mqttSerializePublish_ne_none {topicName : CString} {message : MQTTMessage}
    (h : (Call.publish topicName message : Call H).Legal) (id : UInt16) :
    ∀ buf, mqttSerializePublish buf 0 message.qos (UInt8.ofNat message.retained) id
      (MQTTString.ofCString topicName) message.payload message.payloadlen ≠ none := by
  obtain ⟨-, -, hpay, hmax⟩ := h
  have hone := oneForm_ofCString topicName
  exact ne_none_of_measured (length_publishBody hone hpay) hmax fun buf =>
    mqttSerializePublish_eq buf hone hpay (lt_of_le_maxRemainingLength hmax)

theorem oneForm_singleton (topicFilter : CString) :
    ∀ filter ∈ [MQTTString.ofCString topicFilter], filter.OneForm :=
  fun _ hfilter => List.mem_singleton.mp hfilter ▸ oneForm_ofCString topicFilter

theorem mqttSerializeSubscribe_ne_none {topicFilter : CString}
    (h : topicFilter.bytes.length < 65536) (qos : ℕ) (id : UInt16) :
    ∀ buf,
      mqttSerializeSubscribe buf 0 id [MQTTString.ofCString topicFilter] [(qos : ℤ)] ≠ none := by
  have hmax : mqttSerializeSubscribeLength [MQTTString.ofCString topicFilter] ≤
      maxRemainingLength := by
    change 2 + (2 + topicFilter.bytes.length + 1) ≤ maxRemainingLength
    unfold maxRemainingLength
    omega
  refine ne_none_of_measured ?_ hmax fun buf => mqttSerializeSubscribe_eq buf
    (oneForm_singleton topicFilter) le_rfl (lt_of_le_maxRemainingLength hmax)
  rw [List.length_append, length_intBytes]
  exact (length_subscribeEntries _ _ 2 (oneForm_singleton topicFilter) le_rfl).symm

theorem mqttSerializeUnsubscribe_ne_none {topicFilter : CString}
    (h : topicFilter.bytes.length < 65536) (id : UInt16) :
    ∀ buf, mqttSerializeUnsubscribe buf 0 id [MQTTString.ofCString topicFilter] ≠ none := by
  have hmax : mqttSerializeUnsubscribeLength [MQTTString.ofCString topicFilter] ≤
      maxRemainingLength := by
    change 2 + (2 + topicFilter.bytes.length) ≤ maxRemainingLength
    unfold maxRemainingLength
    omega
  refine ne_none_of_measured ?_ hmax fun buf => mqttSerializeUnsubscribe_eq buf
    (oneForm_singleton topicFilter) (lt_of_le_maxRemainingLength hmax)
  rw [List.length_append, length_intBytes]
  exact (length_unsubscribeEntries _ 2 (oneForm_singleton topicFilter)).symm

theorem sendLoop_defined (length : ℕ) (timer : τ) (sent : ℕ) :
    Defined (sendLoop p length timer fuel sent : Prog (Client ω τ H) ℕ) := by
  induction fuel generalizing sent with
  | zero => exact .throw outOfFuel_ne_undefined
  | succ fuel ih =>
    refine .ite (fun _ => .bind (ask_defined _) fun expired => ?_) fun _ => .pure sent
    refine .ite (fun _ => .pure sent) fun _ => .bind (ask_defined _) fun left => ?_
    refine .bind getClient_defined fun c => .bind (ask_defined _) fun rc => ?_
    exact .ite (fun _ => .pure sent) fun _ => ih _

theorem sendPacket_defined (length : ℕ) (timer : τ) :
    Defined (sendPacket p fuel length timer : Prog (Client ω τ H) ℤ) := by
  refine .bind (sendLoop_defined length timer 0) fun sent => ?_
  refine .ite (fun _ => .bind getClient_defined fun c => ?_) fun _ => .pure failure
  refine .bind (ask_defined _) fun lastSent => ?_
  exact .bind (modifyClient_defined _) fun _ => .pure success

theorem sendPing_defined : Defined (sendPing p fuel : Prog (Client ω τ H) ℤ) := by
  have hserialize : Defined (serialize mqttSerializePingreq : Prog (Client ω τ H) ℤ) :=
    serialize_defined (mqttSerializeZero_ne_none _)
  refine .bind (newTimer_defined 1000) fun timer => .bind hserialize fun len => ?_
  refine .ite (fun _ => .pure success) fun _ => ?_
  refine .bind (sendPacket_defined len.toNat timer) fun rc => ?_
  refine .ite (fun _ => ?_) fun _ => .pure rc
  exact .bind (modifyClient_defined _) fun _ => .pure success

theorem keepaliveDue_defined : Defined (keepaliveDue p : Prog (Client ω τ H) Bool) := by
  refine .bind getClient_defined fun c => .bind (ask_defined _) fun expired => ?_
  exact .ite (fun _ => .pure true) fun _ => ask_defined _

theorem keepalive_defined : Defined (keepalive p fuel : Prog (Client ω τ H) ℤ) := by
  refine .bind getClient_defined fun c => .ite (fun _ => .pure success) fun _ => ?_
  refine .bind keepaliveDue_defined fun due => .ite (fun _ => ?_) fun _ => .pure success
  exact .ite (fun _ => .pure failure) fun _ => sendPing_defined

theorem mqttCloseSession_defined : Defined (mqttCloseSession : Prog (Client ω τ H) PUnit) := by
  refine .bind (modifyClient_defined _) fun _ => .bind getClient_defined fun c => ?_
  exact .ite (fun _ => modifyClient_defined _) fun _ => .pure _

theorem closeOnFailure_defined (rc : ℤ) :
    Defined (closeOnFailure rc : Prog (Client ω τ H) PUnit) :=
  .ite (fun _ => mqttCloseSession_defined) fun _ => .pure _

theorem getNextPacketId_defined : Defined (getNextPacketId : Prog (Client ω τ H) UInt16) :=
  .bind getClient_defined fun _ => .bind (modifyClient_defined _) fun _ => .pure _

theorem mqttSetMessageHandler_defined (topicFilter : CString) (messageHandler : Option H) :
    Defined (mqttSetMessageHandler topicFilter messageHandler : Prog (Client ω τ H) ℤ) :=
  .bind getClient_defined fun _ => .bind (modifyClient_defined _) fun _ => .pure _

theorem sendAck_defined (packettype : MsgType) (id : UInt16) (timer : τ) :
    Defined ((variant p fuel).sendAck packettype id timer) := by
  intro s hs
  rw [Variant.wp_sendAck]
  exact ⟨fun _ => sendPacket_defined 4 timer _ trivial, fun _ => trivial⟩

theorem respondAck_defined (received packettype : MsgType) (id : UInt16) (timer : τ) :
    Defined ((variant p fuel).respondAck received packettype id timer) := by
  refine .bind (sendAck_defined packettype id timer) fun rc => .ite (fun _ => .pure _) fun _ => ?_
  exact .bind (.pure _) fun _ => .pure _

/-- What a packet asks for is done whatever the rest of the receive buffer holds. -/
theorem respond_defined (packet : Inbound) (tail : List UInt8) (timer : τ) :
    Defined ((variant p fuel).respond packet tail timer) := by
  cases packet with
  | publish dup qos retained topic id payload =>
    refine .bind (.bind (fun s _ => ?_) fun _ => .pure _) fun _ => ?_
    · rw [wp_ok (deliverMessage_called _ _ s)]
      trivial
    · cases (Inbound.publish dup qos retained topic id payload).reply with
      | none => exact .pure _
      | some reply => exact .bind (sendAck_defined reply.1 reply.2 timer) fun _ => .pure _
  | pubrec id => exact respondAck_defined _ _ id timer
  | pubrel id => exact respondAck_defined _ _ id timer
  | pingresp => exact .bind (modifyClient_defined _) fun _ => .pure _
  | connack _ _ | puback _ | pubcomp _ | suback _ _ | unsuback _ => exact .pure _

theorem afterSwitch_defined {ν β : Type} {env : PacketEnv ν τ H β} (packetType : ℤ)
    (outcome : Outcome) :
    Defined (afterSwitch (variant env.platform fuel) packetType outcome) := by
  have hclose : Defined ((variant env.platform fuel).closeIfConnected) := by
    refine .bind getClient_defined fun c => .ite (fun _ => ?_) fun _ => .pure _
    exact mqttCloseSession_defined
  refine .bind ?_ fun rc => .ite (fun _ => .pure packetType) fun _ => ?_
  · exact .ite (fun _ => .pure _) fun _ => .bind keepalive_defined fun rc => .pure _
  · exact .bind hclose fun _ => .pure rc

end Sending

section Waiting

variable {ν τ H β α δ : Type} {env : PacketEnv ν τ H β} {fuel : ℕ} {timer : τ}
  {s t : Client (PacketWorld ν H β) τ H}

/-- Nothing is left of the packet before, and there is room for a length field. -/
structure Ready (s : Client (PacketWorld ν H β) τ H) : Prop where
  reading : s.world.reading = []
  roomy : 5 ≤ s.client.readbuf.length

/-- What has been received stays where it is, and no more of the network is read. -/
structure Onward (s t : Client (PacketWorld ν H β) τ H) : Prop where
  readbuf : t.client.readbuf = s.client.readbuf
  reading : t.world.reading = s.world.reading
  received : receivedPackets t.world.trace = receivedPackets s.world.trace

instance : Std.Refl (Onward : Client (PacketWorld ν H β) τ H → _ → Prop) :=
  ⟨fun _ => ⟨rfl, rfl, rfl⟩⟩

instance : IsTrans (Client (PacketWorld ν H β) τ H) Onward :=
  ⟨fun _ _ _ h h' => ⟨h'.readbuf.trans h.readbuf, h'.reading.trans h.reading,
    h'.received.trans h.received⟩⟩

theorem receivedPackets_reception (answer : Reception) (bytes : List UInt8) :
    receivedPackets (answer.events bytes : List (Event H β)) = [] := by
  cases answer with
  | taken => rfl
  | refused _ _ => rfl

theorem onward_quiet (env : PacketEnv ν τ H β) :
    env.platform.Quiet (Onward : Client (PacketWorld ν H β) τ H → _ → Prop) where
  client := fun _ _ h => ⟨h, rfl, rfl⟩
  mqttwrite := fun _ _ _ _ => ⟨rfl, rfl, by
    simp [PacketEnv.platform, PacketWorld.mqttwrite, receivedPackets_reception]⟩
  timerInit := fun _ => ⟨rfl, rfl, rfl⟩
  timerIsExpired := fun _ _ => ⟨rfl, rfl, rfl⟩
  timerCountdownMS := fun _ _ _ => ⟨rfl, rfl, rfl⟩
  timerCountdown := fun _ _ _ => ⟨rfl, rfl, rfl⟩
  timerLeftMS := fun _ _ => ⟨rfl, rfl, rfl⟩
  invoke := fun _ _ _ => ⟨rfl, rfl, by simp⟩

theorem Ready.onward (h : Ready s) (h' : Onward s t) : Ready t :=
  ⟨h'.reading.trans h.reading, h'.readbuf ▸ h.roomy⟩

/-- The receive buffer starts with this packet, the last that has been received. -/
structure Holds (w : WirePacket) (t : Client (PacketWorld ν H β) τ H) : Prop where
  received : (receivedPackets t.world.trace).getLast? = some w
  readbuf : ∃ tail, t.client.readbuf = w.frame.stored ++ tail

theorem Holds.onward {w : WirePacket} (h : Holds w s) (h' : Onward s t) : Holds w t :=
  ⟨h'.received ▸ h.received, h'.readbuf ▸ h.readbuf⟩

/-- After a read: there was nothing, or there is a packet, or it did not fit. -/
theorem readPacket_held (h : Ready s) :
    wp (readPacket env.platform timer)
      (fun rc t => 5 ≤ t.client.readbuf.length ∧
        ((rc ≤ 0 ∧ (rc = 0 → Ready t)) ∨ ∃ w, rc = w.packet.type.code ∧ Ready t ∧ Holds w t))
      (fun _ _ => False) s := by
  apply wp_mono (wp_and (readPacket_conduct h.reading)
    (readPacket_inBounds env.platform timer h.roomy))
  · rintro rc t ⟨⟨notes, ⟨hrc, hlike, -⟩ | ⟨w, htrace, -, ⟨rfl, hlike, htail⟩ | ⟨rfl, -⟩⟩⟩, hlen⟩
    · have hroomy : 5 ≤ t.client.readbuf.length := h.roomy.trans hlen.ge
      exact ⟨hroomy, .inl ⟨hrc, fun _ => ⟨hlike.reading.trans h.reading, hroomy⟩⟩⟩
    · have hroomy : 5 ≤ t.client.readbuf.length := h.roomy.trans hlen.ge
      refine ⟨hroomy, .inr ⟨w, congrArg Nat.cast w.type_frame,
        ⟨hlike.reading.trans h.reading, hroomy⟩, ?_, htail⟩⟩
      rw [htrace, receivedPackets_append]
      simp
    · exact ⟨h.roomy.trans hlen.ge, .inl ⟨by decide, fun hzero => absurd hzero (by decide)⟩⟩
  · exact fun _ _ h => h.2

theorem handlePacket_defined {packetType : ℤ}
    (h : packetType ≤ 0 ∨ ∃ w, packetType = w.packet.type.code ∧ Holds w t) :
    wp ((variant env.platform fuel).handlePacket packetType timer) (fun _ _ => True)
      (fun e _ => e ≠ .undefined) t := by
  rcases h with hle | ⟨w, rfl, -, tail, hbuf⟩
  · rcases hle.lt_or_eq with hneg | rfl
    · rw [Variant.handlePacket_neg _ hneg]
      trivial
    · rw [Variant.handlePacket, if_pos rfl]
      trivial
  · rw [← w.type_frame, wp_congr (Variant.handlePacket_eq _ w hbuf)]
    exact respond_defined w.packet tail timer t trivial

/-- A cycle does nothing undefined, and the type it returns is that of the packet in the
receive buffer. -/
theorem cycle_defined (h : Ready s) :
    wp (cycle env.platform fuel timer)
      (fun rc t => (0 ≤ rc → Ready t) ∧ (0 < rc → ∃ w, rc = w.packet.type.code ∧ Holds w t))
      (fun e _ => e ≠ .undefined) s := by
  unfold cycle Variant.cycle
  rw [wp_bind]
  apply wp_mono (readPacket_held h)
  · rintro packetType t ⟨hroomy, hread⟩
    have hdefined : wp (do
        let outcome ← (variant env.platform fuel).handlePacket packetType timer
        afterSwitch (variant env.platform fuel) packetType outcome) (fun _ _ => True)
        (fun e _ => e ≠ .undefined) t := by
      rw [wp_bind]
      apply wp_imp (handlePacket_defined (hread.imp And.left fun ⟨w, hw, _, hholds⟩ =>
        ⟨w, hw, hholds⟩))
      exact fun outcome u _ => afterSwitch_defined packetType outcome u trivial
    have hstays := (variant_stays fuel (onward_quiet env)).afterRead packetType timer t
    apply wp_mono (wp_and hdefined (wp_and hstays (afterRead_worked packetType)))
    · rintro rc u ⟨-, honward, hrc⟩
      have hrc' : 0 ≤ rc → rc = packetType := by
        intro hle
        rcases hrc with ⟨hrc, -⟩ | ⟨hfailed | ⟨hrc, -⟩, -⟩
        · exact hrc
        · rw [hfailed] at hle
          exact absurd hle (by decide)
        · exact hrc
      rcases hread with ⟨hle, hzero⟩ | ⟨w, hw, hready, hholds⟩
      · refine ⟨fun hrc => ?_, fun hpos => ?_⟩
        · have htype := hrc' hrc
          exact (hzero (by omega)).onward honward
        · have htype := hrc' hpos.le
          omega
      · exact ⟨fun _ => hready.onward honward, fun hpos =>
          ⟨w, (hrc' hpos.le).trans hw, hholds.onward honward⟩⟩
    · exact fun _ _ he => he.1
  · exact fun _ _ => False.elim

theorem waitforLoop_defined (packetType : MsgType) {rounds : ℕ} {rc : ℤ}
    (h : Ready s) (hrc : rc ≠ packetType.code) :
    wp ((variant env.platform fuel).waitforLoop env.platform packetType timer rounds rc)
      (fun rc t => rc = packetType.code → ∃ w, w.packet.type = packetType ∧ Holds w t)
      (fun e _ => e ≠ .undefined) s := by
  induction rounds generalizing rc s with
  | zero => exact outOfFuel_ne_undefined
  | succ rounds ih =>
    rw [Variant.waitforLoop, wp_bind, wp_ask, wp_ite, wp_pure, wp_bind]
    refine ⟨fun _ hgot => absurd hgot hrc, fun _ => ?_⟩
    have hasked : Onward s { s with world := (env.platform.timerIsExpired timer s.world).2 } :=
      (onward_quiet env).timerIsExpired timer s
    apply wp_imp (cycle_defined (h.onward hasked))
    rintro rc' t ⟨hready, hholds⟩
    rw [wp_ite, wp_pure]
    refine ⟨fun hgone => ih (hready hgone.2) hgone.1, fun _ hgot => ?_⟩
    have hcode : (0 : ℤ) < packetType.code := by exact_mod_cast packetType.code_pos
    obtain ⟨w, hw, hheld⟩ := hholds (hgot ▸ hcode)
    exact ⟨w, MsgType.code_injective (by exact_mod_cast hw.symm.trans hgot), hheld⟩

/-- A SUBACK with more than one answer. -/
def SeveralAnswers (w : WirePacket) : Prop :=
  ∃ id codes, w.packet = .suback id codes ∧ 1 < codes.length

/-- When something undefined has been done, such a SUBACK has been received last. -/
def Blames (e : Fault) (t : Client (PacketWorld ν H β) τ H) : Prop :=
  e = .undefined → ∃ w, (receivedPackets t.world.trace).getLast? = some w ∧ SeveralAnswers w

/-- From a client that is ready nothing else undefined is done. -/
def Blaming (x : Prog (Client (PacketWorld ν H β) τ H) α) : Prop :=
  ∀ s, Ready s → wp x (fun _ _ => True) Blames s

theorem blames_of_ne {e : Fault} (h : e ≠ .undefined) : Blames e t := fun he => absurd he h

namespace Blaming

variable {x : Prog (Client (PacketWorld ν H β) τ H) α}
  {f : α → Prog (Client (PacketWorld ν H β) τ H) δ}

theorem of_defined (h : Defined x) : Blaming x :=
  fun s _ => wp_mono (h s trivial) (fun _ _ h => h) fun _ _ => blames_of_ne

protected theorem pure (a : α) : Blaming (pure a : Prog (Client (PacketWorld ν H β) τ H) α) :=
  of_defined (.pure a)

protected theorem ite {c : Prop} [Decidable c] {y : Prog (Client (PacketWorld ν H β) τ H) α}
    (hx : Blaming x) (hy : Blaming y) : Blaming (if c then x else y) := by
  split_ifs
  · exact hx
  · exact hy

theorem after (hx : Defined x) (honward : Moves Onward x) (hf : ∀ a, Blaming (f a)) :
    Blaming (x >>= f) := by
  intro s hs
  rw [wp_bind]
  apply wp_mono (wp_and (hx s trivial) (honward s))
  · exact fun a t h => hf a t (hs.onward h.2)
  · exact fun _ _ h => blames_of_ne h.1

theorem before (hx : Blaming x) (hf : ∀ a, Defined (f a)) : Blaming (x >>= f) := by
  intro s hs
  rw [wp_bind]
  apply wp_imp (hx s hs)
  exact fun a t _ => wp_mono (hf a t trivial) (fun _ _ h => h) fun _ _ => blames_of_ne

end Blaming

theorem await_blaming (packetType : MsgType)
    {got : Prog (Client (PacketWorld ν H β) τ H) α} {missed : α}
    (hgot : ∀ w t, w.packet.type = packetType → Holds w t →
      wp got (fun _ _ => True) Blames t) :
    Blaming (do
      let rc ← waitfor env.platform fuel packetType timer
      if rc = packetType.code then got else pure missed) := by
  intro s hs
  have hfailure : failure ≠ packetType.code := by
    have : (0 : ℤ) < packetType.code := by exact_mod_cast packetType.code_pos
    unfold failure
    omega
  rw [wp_bind]
  apply wp_mono (waitforLoop_defined packetType hs hfailure)
  · intro rc t hwaited
    rw [wp_ite, wp_pure]
    refine ⟨fun hrc => ?_, fun _ => trivial⟩
    obtain ⟨w, htype, hholds⟩ := hwaited hrc
    exact hgot w t htype hholds
  · exact fun _ _ => blames_of_ne

/-- Only a PINGRESP has no two bytes of its own. -/
theorem two_le_length_body {packet : Inbound} (h : packet.type ≠ .pingresp) :
    2 ≤ packet.body.length := by
  cases packet with
  | publish dup qos retained topic id payload =>
    simp [Inbound.body, publishBody]
    omega
  | suback id codes => simp [Inbound.body]
  | pingresp => exact absurd rfl h
  | connack _ _ | puback _ | pubrec _ | pubrel _ | pubcomp _ | unsuback _ =>
    simp [Inbound.body]

theorem Holds.exists_frame {w : WirePacket} (h : Holds w t) (htype : w.packet.type ≠ .pingresp) :
    ∃ frame : WireFrame, ∃ tail high low rest, t.client.readbuf = frame.bytes ++ tail ∧
      frame.type = w.packet.type.code ∧ frame.body = w.packet.body ∧
      frame.body = high :: low :: rest := by
  obtain ⟨tail, hbuf⟩ := h.readbuf
  obtain ⟨high, low, rest, hbody⟩ := exists_two (two_le_length_body htype)
  exact ⟨frameOf w.packet.header w.packet.body w.wellFormed.1, tail, high, low, rest, hbuf,
    w.packet.type_header, rfl, hbody⟩

theorem awaitAck_blaming {packetType : MsgType} (h : packetType ≠ .pingresp) :
    Blaming (awaitAck env.platform fuel packetType timer) := by
  refine await_blaming packetType fun w t htype hholds => ?_
  obtain ⟨frame, tail, high, low, rest, hbuf, -, -, hbody⟩ := hholds.exists_frame (htype ▸ h)
  rw [wp_bind, wp_getClient, hbuf, mqttDeserializeAck_frame hbody tail]
  trivial

theorem awaitPublished_blaming (qos : ℕ) :
    Blaming (awaitPublished env.platform fuel qos timer) :=
  .ite (awaitAck_blaming (by decide)) (.ite (awaitAck_blaming (by decide)) (.pure _))

theorem awaitConnack_blaming (data : ConnackFields) :
    Blaming (awaitConnack env.platform fuel timer data) := by
  refine await_blaming .connack fun w t htype hholds => ?_
  obtain ⟨frame, tail, high, low, rest, hbuf, hframe, -, hbody⟩ :=
    hholds.exists_frame (htype ▸ by decide)
  rw [htype] at hframe
  rw [wp_bind, wp_getClient, hbuf, mqttDeserializeConnack_frame tail hframe hbody]
  trivial

theorem awaitUnsuback_blaming (topicFilter : CString) :
    Blaming (awaitUnsuback env.platform fuel topicFilter timer) := by
  refine await_blaming .unsuback fun w t htype hholds => ?_
  obtain ⟨frame, tail, high, low, rest, hbuf, -, -, hbody⟩ :=
    hholds.exists_frame (htype ▸ by decide)
  rw [wp_bind, wp_getClient, hbuf, mqttDeserializeUnsuback, mqttDeserializeAck_frame hbody tail]
  simp only [Option.bind_eq_bind, Option.bind_some, ofOption_some, pure_bind, wp_ite, wp_bind,
    wp_pure]
  exact ⟨fun _ => trivial, fun _ => trivial⟩

theorem awaitSuback_blaming (topicFilter : CString) (messageHandler : Option H) (data : ℤ) :
    Blaming (awaitSuback env.platform fuel topicFilter messageHandler timer data) := by
  refine await_blaming .suback fun w t htype hholds => ?_
  obtain ⟨frame, tail, -, -, -, hbuf, hframe, hpacket, -⟩ :=
    hholds.exists_frame (htype ▸ by decide)
  obtain ⟨id, codes, hsuback⟩ : ∃ id codes, w.packet = .suback id codes := by
    cases hw : w.packet with
    | suback id codes => exact ⟨id, codes, rfl⟩
    | connack _ _ | publish _ _ _ _ _ _ | puback _ | pubrec _ | pubrel _ | pubcomp _ | unsuback _
    | pingresp =>
      rw [hw] at htype
      cases htype
  rw [htype] at hframe
  rw [hsuback] at hpacket
  rw [wp_bind, wp_getClient, hbuf, mqttDeserializeSuback_frame 1 hframe hpacket tail, wp_bind]
  split_ifs with hcodes
  · simp only [ofOption_some, wp_pure, wp_ite, wp_bind]
    exact ⟨fun _ => trivial, fun _ => trivial⟩
  · exact fun _ => ⟨w, hholds.received, id, codes, hsuback, not_le.mp hcodes⟩

theorem transmit_blaming {len : ℤ} {short : α} {refused : ℤ → α}
    {next : Prog (Client (PacketWorld ν H β) τ H) α} (hnext : Blaming next) :
    Blaming (if len ≤ 0 then pure short
      else do
        let rc ← sendPacket env.platform fuel len.toNat timer
        if rc ≠ success then pure (refused rc) else next) :=
  .ite (.pure _) (.after (sendPacket_defined _ _)
    (sendPacket_moves fuel (gentle_sends (onward_quiet env).gentle) _ _) fun _ =>
      .ite (.pure _) hnext)

theorem mqttConnect_blaming {options : Option ConnectData}
    (hlegal : (options.getD connectDataInitializer).Legal) :
    Blaming (perform env.platform fuel (.connect options)) := by
  have hquiet := onward_quiet env
  refine .before (.before (.before ?_ fun result => ?_) fun _ => .pure _) fun _ => .pure _
  · refine .after getClient_defined getClient_moves fun c => .ite (.pure _) ?_
    have htimer := newTimer_moves hquiet.gentle.toDiscreet c.commandTimeoutMs
    refine .after (newTimer_defined c.commandTimeoutMs) htimer fun timer => ?_
    refine .after (modifyClient_defined _) (fun s => hquiet.client s _ rfl) fun _ => ?_
    refine .after getClient_defined getClient_moves fun c => ?_
    refine .after (ask_defined _) (hquiet.timerCountdown _ _) fun lastReceived => ?_
    refine .after (modifyClient_defined _) (fun s => hquiet.client s _ rfl) fun _ => ?_
    exact .after (serialize_defined (mqttSerializeConnect_ne_none hlegal))
      (serialize_moves (fun s _ => hquiet.client s _ rfl) _) fun _ =>
        transmit_blaming (awaitConnack_blaming _)
  · exact .ite (fun _ => .bind (modifyClient_defined _) fun _ => .pure _) fun _ => .pure _

theorem numberedRequest_blaming {f : UInt16 → List UInt8 → Option (ℤ × List UInt8)}
    (hf : ∀ id buf, f id buf ≠ none) {short : α} {refused : ℤ → α}
    {next : τ → Prog (Client (PacketWorld ν H β) τ H) α} (hnext : ∀ timer, Blaming (next timer)) :
    Blaming (do
      let c ← getClient
      if c.isconnected then
        let timer ← newTimer env.platform c.commandTimeoutMs
        let id ← getNextPacketId
        let len ← serialize (f id)
        if len ≤ 0 then pure short
        else
          let rc ← sendPacket env.platform fuel len.toNat timer
          if rc ≠ success then pure (refused rc) else next timer
      else pure short) := by
  have hquiet := onward_quiet env
  refine .after getClient_defined getClient_moves fun c => .ite ?_ (.pure _)
  have htimer := newTimer_moves hquiet.gentle.toDiscreet c.commandTimeoutMs
  refine .after (newTimer_defined c.commandTimeoutMs) htimer fun timer => ?_
  refine .after getNextPacketId_defined (fun s => hquiet.client s _ rfl) fun id => ?_
  exact .after (serialize_defined (hf id)) (serialize_moves (fun s _ => hquiet.client s _ rfl) _)
    fun _ => transmit_blaming (hnext timer)

theorem mqttPublish_blaming {topicName : CString} {message : MQTTMessage}
    (hlegal : (Call.publish topicName message : Call H).Legal) :
    Blaming (perform env.platform fuel (.publish topicName message)) := by
  have hquiet := onward_quiet env
  refine .before (.before ?_ fun _ => .bind (closeOnFailure_defined _) fun _ => .pure _)
    fun _ => .pure _
  refine .after getClient_defined getClient_moves fun c => .ite ?_ (.pure _)
  have htimer := newTimer_moves hquiet.gentle.toDiscreet c.commandTimeoutMs
  refine .after (newTimer_defined c.commandTimeoutMs) htimer fun timer => ?_
  have hnumbered (number : Option UInt16) : Blaming (do
      let len ← serialize fun buf => mqttSerializePublish buf 0 message.qos
        (UInt8.ofNat message.retained) (number.getD 0) (MQTTString.ofCString topicName)
        message.payload message.payloadlen
      if len ≤ 0 then pure (failure, { message with id := number })
      else
        let rc ← sendPacket env.platform fuel len.toNat timer
        if rc ≠ success then pure (rc, { message with id := number })
        else
          let rc ← awaitPublished env.platform fuel message.qos timer
          pure (rc, { message with id := number })) :=
    .after (serialize_defined (mqttSerializePublish_ne_none hlegal _))
      (serialize_moves (fun s _ => hquiet.client s _ rfl) _) fun _ =>
        transmit_blaming (.before (awaitPublished_blaming _) fun _ => .pure _)
  unfold numberMessage
  split_ifs
  · rw [bind_assoc]
    exact .after getNextPacketId_defined (fun s => hquiet.client s _ rfl) fun id =>
      hnumbered (some id)
  · exact hnumbered message.id

theorem yieldLoop_blaming : ∀ rounds : ℕ, Blaming (yieldLoop env.platform fuel timer rounds)
  | 0 => fun _ _ => blames_of_ne outOfFuel_ne_undefined
  | rounds + 1 => by
    intro s hs
    rw [yieldLoop, wp_bind]
    apply wp_mono (cycle_defined hs)
    · rintro rc t ⟨hready, -⟩
      rw [wp_ite, wp_pure, wp_bind, wp_ask, wp_ite, wp_pure]
      refine ⟨fun _ => trivial, fun hle => ⟨fun _ => trivial, fun _ => ?_⟩⟩
      exact yieldLoop_blaming rounds _
        ((hready (not_lt.mp hle)).onward ((onward_quiet env).timerIsExpired timer t))
    · exact fun _ _ => blames_of_ne

theorem mqttDisconnect_defined {ω : Type} {p : Platform ω τ H} :
    Defined (mqttDisconnect p fuel) := by
  refine .bind getClient_defined fun c => .bind (newTimer_defined _) fun timer => ?_
  refine .bind (serialize_defined (mqttSerializeZero_ne_none _)) fun len => ?_
  refine .ite (fun _ => ?_) fun _ => ?_
  · refine .bind (sendPacket_defined len.toNat timer) fun rc => ?_
    exact .bind mqttCloseSession_defined fun _ => .pure rc
  · exact .bind mqttCloseSession_defined fun _ => .pure failure

theorem perform_blaming {call : Call H} (hlegal : call.Legal) :
    Blaming (perform env.platform fuel call) := by
  cases call with
  | connect options => exact mqttConnect_blaming hlegal
  | publish topicName message => exact mqttPublish_blaming hlegal
  | subscribe topicFilter qos messageHandler =>
    refine .before (.before (.before ?_ fun _ => .bind (closeOnFailure_defined _) fun _ => .pure _)
      fun _ => .pure _) fun _ => .pure _
    exact numberedRequest_blaming (mqttSerializeSubscribe_ne_none hlegal qos) fun _ =>
      awaitSuback_blaming topicFilter messageHandler 0
  | unsubscribe topicFilter =>
    refine .before (.before ?_ fun _ => .bind (closeOnFailure_defined _) fun _ => .pure _)
      fun _ => .pure _
    exact numberedRequest_blaming (mqttSerializeUnsubscribe_ne_none hlegal) fun _ =>
      awaitUnsuback_blaming topicFilter
  | yield timeoutMs =>
    have htimer := newTimer_moves (onward_quiet env).gentle.toDiscreet timeoutMs
    refine .before (.after (newTimer_defined timeoutMs) htimer fun timer => ?_) fun _ => .pure _
    exact yieldLoop_blaming fuel
  | disconnect => exact .of_defined (.bind mqttDisconnect_defined fun _ => .pure _)
  | setMessageHandler topicFilter messageHandler =>
    exact .of_defined (.bind (mqttSetMessageHandler_defined _ _) fun _ => .pure _)

/-- A client that has made a call, and a new connection if it was in vain, is ready for the
next. -/
theorem renewOnFailure_ready {call : Call H} {reply : Reply} {id : UInt16}
    {asks : List (List UInt8)} {evs : List (Event H β)} (hready : Ready s)
    (h : Performed call reply s t id asks evs) :
    wp (renewOnFailure env reply.rc) (fun _ u => Ready u) Blames t := by
  obtain ⟨d, hdid⟩ := h.ends.did
  have hroomy : 5 ≤ t.client.readbuf.length := hready.roomy.trans hdid.length_readbuf.ge
  unfold renewOnFailure
  rw [wp_ite, wp_pure, wp_modify]
  exact ⟨fun hrc => ⟨(h.ends.settled hrc).2.1, hroomy⟩, fun _ => ⟨rfl, hroomy⟩⟩

theorem runCalls_blaming : ∀ {calls : List (Call H)}, (∀ call ∈ calls, call.Legal) →
    Blaming (runCalls env fuel calls)
  | [], _ => .pure _
  | call :: calls, hlegal => by
    have hcall := hlegal call List.mem_cons_self
    intro s hs
    rw [runCalls]
    simp only [wp_bind, wp_get, wp_pure]
    apply wp_mono (wp_and (perform_blaming hcall s hs) (perform_conduct fuel hcall hs.reading))
    · rintro reply t ⟨-, id, asks, evs, hperformed⟩
      apply wp_imp (renewOnFailure_ready hs hperformed)
      intro _ u hu
      exact runCalls_blaming (fun c hc => hlegal c (List.mem_cons_of_mem _ hc)) u hu
    · exact fun _ _ h => h.1

/-- Whatever the network and the handlers answer, and however late: a run does something
undefined only with a SUBACK that has more than one answer, right after it has received it. -/
theorem runCalls_undefined (env : PacketEnv ν τ H β) (fuel : ℕ) {calls : List (Call H)}
    (hlegal : ∀ call ∈ calls, call.Legal) (hreading : s.world.reading = [])
    (hroomy : 5 ≤ s.client.readbuf.length)
    (hrun : runCalls env fuel calls s = .error .undefined t) :
    ∃ w, (receivedPackets t.world.trace).getLast? = some w ∧ SeveralAnswers w :=
  (wp_error hrun).mp (runCalls_blaming hlegal s ⟨hreading, hroomy⟩) rfl

end Waiting

/-- The answer to a SUBSCRIBE for one filter, with one code more. -/
def grantedTwice : WirePacket := .ofInbound (.suback 2 [0, 0]) (by decide)

/-- A client to which this answer comes. -/
def expecting : Client (PacketWorld (List WirePacket) Unit Unit) Unit Unit :=
  { receiver with world := .fresh [grantedTwice] }

def subscribeOnce : Call Unit := .subscribe ⟨[97], unterminated_a⟩ 0 (some ())

theorem subscribeOnce_legal : ∀ call ∈ [subscribeOnce], call.Legal := by
  intro call hcall
  rw [List.mem_singleton.mp hcall]
  simp [subscribeOnce, Call.Legal]

/-- The second code is stored after the end of the array. -/
theorem runCalls_undefined_grantedTwice : ∃ t,
    runCalls arriving 4 [subscribeOnce] expecting = .error .undefined t ∧
      ∃ w, (receivedPackets t.world.trace).getLast? = some w ∧ SeveralAnswers w := by
  obtain ⟨t, hrun⟩ : ∃ t, runCalls arriving 4 [subscribeOnce] expecting =
      .error .undefined t := wp_fails (by decide +kernel)
  exact ⟨t, hrun, runCalls_undefined arriving 4 subscribeOnce_legal rfl (by decide) hrun⟩

end MqttEmbedded.ClientC
