import MqttEmbedded.Client.Termination
import MqttEmbedded.ClientCpp.Steps

/-!
# The calls of the C++ client return

As in the C client every loop asks the timer of its call. `sendPacket` writes before it
asks, and a reconnect may send twice and wait twice on the one timer of the call.
-/

namespace MqttEmbedded.ClientCpp

open Hoare

variable {ω τ H α : Type} {p : Platform ω τ H} {clock : ω → ℕ} {deadline : τ → ℕ}
  {rate start limit fuel : ℕ} {timer : τ} {s : Client ω τ H}

theorem note_finishes (o : Occurrence) :
    Finishes clock start limit (note o : Prog (Client ω τ H) PUnit) :=
  modifyOwn_finishes _

theorem cleanSession_finishes :
    Finishes clock start limit (cleanSession : Prog (Client ω τ H) PUnit) :=
  .bind (modifyClient_finishes fun _ => rfl) fun _ => modifyOwn_finishes _

theorem closeSession_finishes :
    Finishes clock start limit (closeSession : Prog (Client ω τ H) PUnit) := by
  refine .bind (modifyClient_finishes fun _ => rfl) fun _ => .bind getClient_finishes fun c => ?_
  exact .ite (fun _ => cleanSession_finishes) fun _ => .pure _

theorem closeUnlessSuccess_finishes (rc : ℤ) :
    Finishes clock start limit (closeUnlessSuccess rc : Prog (Client ω τ H) PUnit) :=
  .ite (fun _ => closeSession_finishes) fun _ => .pure _

theorem closeOnFailure_finishes (rc : ℤ) :
    Finishes clock start limit (closeOnFailure rc : Prog (Client ω τ H) PUnit) :=
  .ite (fun _ => closeSession_finishes) fun _ => .pure _

section Sending

variable (ticking : Ticking p clock deadline rate)
include ticking

theorem sendLoop_finishes (length sent : ℕ) (htimer : deadline timer - start < fuel) :
    Finishes clock start limit
      (sendLoop p length timer fuel sent : Prog (Client ω τ H) ℕ) := by
  intro s hs
  apply wp_rounds (sendLoop p length timer) (I := Within clock start limit)
    (m := fun t => deadline timer - clock t.world)
  · intro rounds sent s hs hnext
    have hnow : Within clock (clock s.world) limit s := ⟨le_rfl, hs.limited⟩
    rw [sendLoop, wp_ite, wp_pure, wp_bind]
    refine ⟨fun _ => ?_, fun _ => hs⟩
    apply wp_imp (ask_finishes (ticking.timerLeftMS timer) s hnow)
    intro left t ht
    rw [wp_bind, wp_getClient, wp_bind]
    apply wp_imp (ask_finishes (ticking.mqttwrite _ _ left) t ht)
    intro rc u hu
    rw [wp_ite, wp_pure, wp_bind]
    refine ⟨fun _ => ⟨hs.started.trans hu.started, hu.limited⟩, fun _ => ?_⟩
    apply wp_imp (timerIsExpired_ticks ticking hu)
    rintro expired v ⟨hv, hstart, hlt, hleft⟩
    have hlater : Within clock start limit v := ⟨hs.started.trans hstart, hv.limited⟩
    rw [wp_ite, wp_pure]
    refine ⟨fun _ => hlater, fun hunexpired => ?_⟩
    have hbefore := hleft hunexpired
    have htime := hu.started
    exact hnext _ v hlater (by omega)
  · exact hs
  · have hstarted := hs.started
    omega

theorem recordSent_finishes :
    Finishes clock start limit (recordSent p : Prog (Client ω τ H) PUnit) := by
  refine .bind getClient_finishes fun c => .ite (fun _ => ?_) fun _ => .pure _
  have hcountdown := ticking.timerCountdown c.lastSent c.keepAliveInterval
  exact .bind (ask_finishes hcountdown) fun lastSent => modifyClient_finishes fun _ => rfl

theorem transmit_finishes (length : ℕ) (htimer : deadline timer - start < fuel) :
    Finishes clock start limit (transmit p fuel length timer : Prog (Client ω τ H) ℤ) := by
  refine .bind (sendLoop_finishes ticking length 0 htimer) fun sent => ?_
  refine .ite (fun _ => ?_) fun _ => .pure failure
  exact .bind (recordSent_finishes ticking) fun _ => .pure success

theorem sendPacket_finishes (length : ℕ) (htimer : deadline timer - start < fuel) :
    Finishes clock start limit (sendPacket p fuel length timer : Prog (Client ω τ H) ℤ) := by
  refine .bind getClient_finishes fun c => ?_
  refine .bind (transmit_finishes ticking length htimer) fun rc => ?_
  exact .bind (note_finishes _) fun _ => .pure rc

theorem timerIsExpired_finishes (timer : τ) :
    Finishes clock start limit (ask (p.timerIsExpired timer) : Prog (Client ω τ H) Bool) :=
  ask_finishes fun w => (ticking.timerIsExpired timer w).le

theorem keepaliveDue_finishes :
    Finishes clock start limit (keepaliveDue p : Prog (Client ω τ H) Bool) := by
  refine .bind getClient_finishes fun c => ?_
  refine .bind (timerIsExpired_finishes ticking c.lastSent) fun expired => ?_
  exact .ite (fun _ => .pure true) fun _ => timerIsExpired_finishes ticking c.lastReceived

variable (hping : rate * 1000 < fuel)
include hping

theorem sendPing_finishes :
    Finishes clock start limit (sendPing p fuel : Prog (Client ω τ H) ℤ) := by
  refine newTimer_finishes ticking fun timer now _ hdeadline => ?_
  refine .bind (serialize_finishes mqttSerializePingreq) fun len => ?_
  refine .ite (fun _ => .pure success) fun _ => ?_
  have hsend : deadline timer - now < fuel := by omega
  refine .bind (sendPacket_finishes ticking len.toNat hsend) fun rc => ?_
  refine .ite (fun _ => ?_) fun _ => .pure rc
  refine .bind (modifyClient_finishes fun _ => rfl) fun _ => ?_
  refine .bind getClient_finishes fun c => .bind getOwn_finishes fun own => ?_
  have hcountdown := ticking.timerCountdown own.pingSent c.keepAliveInterval
  refine .bind (ask_finishes hcountdown) fun pingSent => ?_
  exact .bind (modifyOwn_finishes _) fun _ => .pure success

theorem checkPing_finishes :
    Finishes clock start limit (checkPing p fuel : Prog (Client ω τ H) ℤ) := by
  refine .bind getClient_finishes fun c => .ite (fun _ => ?_) fun _ => ?_
  · refine .bind getOwn_finishes fun own => ?_
    exact .bind (timerIsExpired_finishes ticking own.pingSent) fun expired => .pure _
  · refine .bind (keepaliveDue_finishes ticking) fun due => ?_
    exact .ite (fun _ => sendPing_finishes ticking hping) fun _ => .pure success

theorem keepalive_finishes :
    Finishes clock start limit (keepalive p fuel : Prog (Client ω τ H) ℤ) := by
  have hping : Finishes clock start limit (pingIfDue p fuel : Prog (Client ω τ H) ℤ) := by
    refine .bind getClient_finishes fun c => .ite (fun _ => .pure success) fun _ => ?_
    exact checkPing_finishes ticking hping
  refine .bind getClient_finishes fun before => .bind hping fun rc => ?_
  refine .bind getClient_finishes fun after => ?_
  exact .bind (note_finishes _) fun _ => .pure rc

end Sending

section Waiting

variable (ticking : Ticking p clock deadline rate)
include ticking

theorem deliver_finishes (topicName : MQTTString) (msg : MQTTMessage) :
    Finishes clock start limit (deliver p topicName msg : Prog (Client ω τ H) PUnit) := by
  have hdeliver : Finishes clock start limit (do
      note (.delivered msg.qos msg.id)
      let _ ← deliverMessage p topicName msg
      pure ⟨⟩ : Prog (Client ω τ H) PUnit) := by
    refine .bind (note_finishes _) fun _ => ?_
    exact .bind (deliverMessage_finishes ticking topicName msg) fun _ => .pure _
  refine .ite (fun _ => hdeliver) fun _ => .bind (ofOption_finishes msg.id) fun id => ?_
  refine .bind getOwn_finishes fun own => .ite (fun _ => ?_) fun _ => .pure _
  cases useQoS2msgid own.incomingQoS2messages id with
  | none => exact .pure _
  | some slots => exact .bind (modifyOwn_finishes _) fun _ => hdeliver

theorem deliverUnread_finishes (topic : StringRead) (msg : MQTTMessage) :
    Finishes clock start limit (deliverUnread p topic msg : Prog (Client ω τ H) PUnit) := by
  refine .bind getClient_finishes fun c => .ite (fun _ => .throw undefined_ne_outOfFuel) fun _ => ?_
  exact deliver_finishes ticking (topic.stored mqttStringInitializer) msg

theorem readPacket_finishes (timer : τ) :
    Finishes clock start limit (readPacket p timer : Prog (Client ω τ H) ℤ) := by
  refine .bind (readPacketWith_finishes ticking tooLong 1 timer) fun packetType => ?_
  refine .bind getClient_finishes fun c => ?_
  exact .bind (note_finishes _) fun _ => .pure packetType

variable (hping : rate * 1000 < fuel)
include hping

theorem variant_finishing (htimer : deadline timer - start < fuel) :
    (variant p fuel).Finishing clock start limit timer where
  readPacket := readPacket_finishes ticking timer
  sendPacket := fun length => sendPacket_finishes ticking length htimer
  keepalive := keepalive_finishes ticking hping
  closeSession := closeSession_finishes
  deliver := deliver_finishes ticking
  deliverUnread := deliverUnread_finishes ticking
  answered := fun _ _ => .ite (fun _ => modifyOwn_finishes _) fun _ => .pure _

theorem cycle_finishes (htimer : deadline timer - start < fuel) :
    Finishes clock start limit (cycle p fuel timer) :=
  (variant_finishing ticking hping htimer).cycle

theorem waitfor_finishes (packetType : MsgType) (htimer : deadline timer - start < fuel) :
    Finishes clock start limit (waitfor p fuel packetType timer) :=
  Variant.waitforLoop_finishes ticking
    (fun _ _ => cycle_finishes ticking hping (by omega)) htimer packetType failure

theorem yieldLoop_finishes (htimer : deadline timer - start < fuel) :
    Finishes clock start limit (yieldLoop p fuel timer fuel) := by
  intro s hs
  apply wp_rounds (fun rounds (_ : Unit) => yieldLoop p fuel timer rounds)
    (I := Within clock start limit) (m := fun t => deadline timer - clock t.world)
  · intro rounds _ s hs hnext
    rw [yieldLoop, wp_bind]
    apply wp_imp (timerIsExpired_ticks ticking hs)
    rintro expired t ⟨ht, hstart, hlt, hleft⟩
    rw [wp_ite, wp_pure, wp_bind]
    refine ⟨fun _ => ⟨hstart, ht.limited⟩, fun hunexpired => ?_⟩
    have hcycle : Finishes clock (clock t.world) limit (cycle p fuel timer) :=
      cycle_finishes ticking hping (by omega)
    apply wp_imp (hcycle t ht)
    intro rc u hu
    have hlater : Within clock start limit u := ⟨hstart.trans hu.started, hu.limited⟩
    have hbefore := hleft hunexpired
    have htime := hu.started
    rw [wp_ite, wp_pure]
    exact ⟨fun _ => hlater, fun _ => hnext () u hlater (by omega)⟩
  · exact ()
  · exact hs
  · have hstarted := hs.started
    omega

theorem awaitAck_finishes (packetType : MsgType) (htimer : deadline timer - start < fuel) :
    Finishes clock start limit (awaitAck p fuel packetType timer) := by
  have htake : Finishes clock start limit (takeAck : Prog (Client ω τ H) ℤ) := by
    refine .bind getClient_finishes fun c => .bind (ofOption_finishes _) fun result => ?_
    refine .ite (fun _ => .pure failure) fun _ => ?_
    refine .bind (ofOption_finishes _) fun mypacketid => ?_
    exact .bind (modifyOwn_finishes _) fun _ => .pure success
  refine .bind (note_finishes _) fun _ => ?_
  refine .bind (waitfor_finishes ticking hping packetType htimer) fun rc => ?_
  refine .bind (note_finishes _) fun _ => ?_
  exact .ite (fun _ => htake) fun _ => .pure failure

theorem awaitPublished_finishes (qos : ℕ) (htimer : deadline timer - start < fuel) :
    Finishes clock start limit (awaitPublished p fuel qos timer) := by
  refine .ite (fun _ => awaitAck_finishes ticking hping .puback htimer) fun _ => ?_
  exact .ite (fun _ => awaitAck_finishes ticking hping .pubcomp htimer) fun _ => .pure success

theorem publishPacket_finishes (len qos : ℕ) (htimer : deadline timer - start < fuel) :
    Finishes clock start limit (publishPacket p fuel len timer qos) := by
  refine .bind (sendPacket_finishes ticking len htimer) fun rc => ?_
  refine .ite (fun _ => ?_) fun _ => ?_
  · exact .bind closeSession_finishes fun _ => .pure rc
  · refine .bind (awaitPublished_finishes ticking hping qos htimer) fun rc => ?_
    exact .bind (closeUnlessSuccess_finishes rc) fun _ => .pure rc

theorem await_finishes (packetType : MsgType) (htimer : deadline timer - start < fuel)
    {got : MQTTClient τ H → Prog (Client ω τ H) ℤ}
    (hgot : ∀ c, Finishes clock start limit (got c)) :
    Finishes clock start limit (do
      let rc ← waitfor p fuel packetType timer
      if rc = packetType.code then do
        let c ← getClient
        got c
      else pure failure) := by
  refine .bind (waitfor_finishes ticking hping packetType htimer) fun rc => ?_
  exact .ite (fun _ => .bind getClient_finishes hgot) fun _ => .pure failure

end Waiting

theorem getNext_finishes :
    Finishes clock start limit (getNext : Prog (Client ω τ H) UInt16) := by
  refine .bind getClient_finishes fun c => ?_
  exact .bind (modifyClient_finishes fun _ => rfl) fun _ => .pure _

theorem publishId_finishes (id : UInt16) (qos : ℕ) :
    Finishes clock start limit (publishId id qos : Prog (Client ω τ H) UInt16) :=
  .ite (fun _ => getNext_finishes) fun _ => .pure id

theorem setHandler_finishes (topicFilter : CString) (messageHandler : Option H) :
    Finishes clock start limit
      (setHandler topicFilter messageHandler : Prog (Client ω τ H) ℤ) := by
  refine .bind getClient_finishes fun c => ?_
  exact .bind (modifyClient_finishes fun _ => rfl) fun _ => .pure _

theorem storePublish_finishes (len : ℕ) (id : UInt16) (qos : ℕ) :
    Finishes clock start limit (storePublish len id qos : Prog (Client ω τ H) PUnit) := by
  refine .bind getClient_finishes fun c => .bind (note_finishes _) fun _ => ?_
  exact .ite (fun _ => .pure _) fun _ => modifyOwn_finishes _

section Calls

variable (ticking : Ticking p clock deadline rate)
include ticking

section Requests

variable (hlimit : rate * limit < fuel)
include hlimit

theorem request_finishes {f : UInt16 → List UInt8 → Option (ℤ × List UInt8)}
    {next : τ → Prog (Client ω τ H) ℤ}
    (hnext : ∀ timer now, deadline timer - now < fuel → Finishes clock now limit (next timer)) :
    Finishes clock start limit (do
      let c ← getClient
      let timer ← newTimer p c.commandTimeoutMs
      if c.isconnected then
        let id ← getNext
        let len ← serialize (f id)
        if len ≤ 0 then pure failure
        else
          let rc ← sendPacket p fuel len.toNat timer
          if rc ≠ success then pure rc else next timer
      else pure failure) := by
  refine bind_getClient_finishes fun c hc => ?_
  refine commandTimer_finishes ticking hlimit hc fun timer now htimer => ?_
  refine .ite (fun _ => ?_) fun _ => .pure failure
  refine .bind getNext_finishes fun id => .bind (serialize_finishes (f id)) fun len => ?_
  refine .ite (fun _ => .pure failure) fun _ => ?_
  refine .bind (sendPacket_finishes ticking len.toNat htimer) fun rc => ?_
  exact .ite (fun _ => .pure rc) fun _ => hnext timer now htimer

theorem disconnect_finishes :
    Finishes clock start limit (disconnect p fuel : Prog (Client ω τ H) ℤ) := by
  refine bind_getClient_finishes fun c hc => ?_
  refine commandTimer_finishes ticking hlimit hc fun timer now htimer => ?_
  have hsend : Finishes clock now limit (sendDisconnect p fuel timer : Prog (Client ω τ H) ℤ) := by
    refine .bind (serialize_finishes mqttSerializeDisconnect) fun len => ?_
    exact .ite (fun _ => sendPacket_finishes ticking len.toNat htimer) fun _ => .pure failure
  exact .bind hsend fun rc => .bind closeSession_finishes fun _ => .pure rc

end Requests

variable (hping : rate * 1000 < fuel)
include hping

theorem resend_finishes (len qos : ℕ) (htimer : deadline timer - start < fuel) :
    Finishes clock start limit (resend p fuel len timer qos) := by
  refine .bind getClient_finishes fun c => .bind (note_finishes _) fun _ => ?_
  exact publishPacket_finishes ticking hping len qos htimer

theorem resume_finishes (rc : ℤ) (htimer : deadline timer - start < fuel) :
    Finishes clock start limit (resume p fuel timer rc) := by
  refine .bind (note_finishes _) fun _ => .bind getOwn_finishes fun own => ?_
  refine .ite (fun _ => ?_) fun _ => .ite (fun _ => ?_) fun _ => .pure rc
  · refine .bind (serialize_finishes _) fun len => .ite (fun _ => .pure failure) fun _ => ?_
    exact resend_finishes ticking hping len.toNat own.inflightQoS htimer
  · refine .bind (modifyClient_finishes fun _ => rfl) fun _ => ?_
    exact resend_finishes ticking hping own.inflightLen own.inflightQoS htimer

theorem awaitConnack_finishes (htimer : deadline timer - start < fuel) :
    Finishes clock start limit (awaitConnack p fuel timer) := by
  refine await_finishes ticking hping .connack htimer fun c => ?_
  exact .bind (ofOption_finishes _) fun result => .pure _

theorem awaitSuback_finishes (topicFilter : CString) (messageHandler : Option H)
    (htimer : deadline timer - start < fuel) :
    Finishes clock start limit (awaitSuback p fuel topicFilter messageHandler timer) := by
  refine await_finishes ticking hping .suback htimer fun c => ?_
  refine .bind (ofOption_finishes _) fun result => ?_
  exact .ite (fun _ => setHandler_finishes topicFilter messageHandler) fun _ => .pure success

theorem awaitUnsuback_finishes (topicFilter : CString) (htimer : deadline timer - start < fuel) :
    Finishes clock start limit (awaitUnsuback p fuel topicFilter timer) := by
  refine await_finishes ticking hping .unsuback htimer fun c => ?_
  refine .bind (ofOption_finishes _) fun result => .ite (fun _ => ?_) fun _ => .pure success
  exact .bind (setHandler_finishes topicFilter none) fun _ => .pure success

variable (hlimit : rate * limit < fuel)
include hlimit

theorem connectExchange_finishes (options : ConnectData) :
    Finishes clock start limit (connectExchange p fuel options) := by
  refine bind_getClient_finishes fun c hc => ?_
  refine commandTimer_finishes ticking hlimit hc fun timer now htimer => ?_
  refine .ite (fun _ => .pure failure) fun _ => ?_
  refine .bind (modifyClient_finishes fun _ => rfl) fun _ => ?_
  refine .bind (serialize_finishes _) fun len => .ite (fun _ => .pure failure) fun _ => ?_
  refine .bind (sendPacket_finishes ticking len.toNat htimer) fun rc => ?_
  refine .ite (fun _ => .pure rc) fun _ => .bind (recordReceived_finishes ticking) fun _ => ?_
  refine .bind (awaitConnack_finishes ticking hping htimer) fun rc => ?_
  exact resume_finishes ticking hping rc htimer

theorem connect_finishes (options : ConnectData) :
    Finishes clock start limit (connect p fuel options) := by
  refine .bind (connectExchange_finishes ticking hping hlimit options) fun rc => ?_
  refine .ite (fun _ => ?_) fun _ => .pure rc
  exact .bind (modifyClient_finishes fun _ => rfl) fun _ => .pure rc

theorem publish_finishes (topicName : CString) (payload : List UInt8) (payloadlen : ℕ)
    (id : UInt16) (qos : ℕ) (retained : Bool) : Finishes clock start limit
      (publish p fuel topicName payload payloadlen id qos retained) := by
  refine bind_getClient_finishes fun c hc => ?_
  refine commandTimer_finishes ticking hlimit hc fun timer now htimer => ?_
  refine .ite (fun _ => .bind (publishId_finishes id qos) fun id => ?_) fun _ => .pure _
  refine .bind (serialize_finishes _) fun len => .ite (fun _ => .pure _) fun _ => ?_
  refine .bind (storePublish_finishes len.toNat id qos) fun _ => ?_
  exact .bind (publishPacket_finishes ticking hping len.toNat qos htimer) fun rc => .pure _

theorem subscribe_finishes (topicFilter : CString) (qos : ℕ) (messageHandler : Option H) :
    Finishes clock start limit (subscribe p fuel topicFilter qos messageHandler) := by
  refine .bind (request_finishes ticking hlimit fun timer now htimer => ?_) fun rc => ?_
  · exact awaitSuback_finishes ticking hping topicFilter messageHandler htimer
  · exact .bind (closeOnFailure_finishes rc) fun _ => .pure rc

theorem unsubscribe_finishes (topicFilter : CString) :
    Finishes clock start limit (unsubscribe p fuel topicFilter) := by
  refine .bind (request_finishes ticking hlimit fun timer now htimer => ?_) fun rc => ?_
  · exact awaitUnsuback_finishes ticking hping topicFilter htimer
  · exact .bind (closeUnlessSuccess_finishes rc) fun _ => .pure rc

omit hlimit in
theorem yield_finishes {timeoutMs : ℕ} (hyield : rate * timeoutMs < fuel) :
    Finishes clock start limit (yield p fuel timeoutMs) := by
  refine newTimer_finishes ticking fun timer now _ hdeadline => ?_
  exact yieldLoop_finishes ticking hping (by omega)

end Calls

/-- How long the call may wait besides the command timeout and the second for a ping. -/
def Call.waits : Call H → ℕ
  | .yield timeoutMs => timeoutMs
  | .connect _ | .publish .. | .publishWithoutId .. | .publishMessage .. | .subscribe ..
  | .unsubscribe _ | .disconnect | .setMessageHandler .. | .setDefaultMessageHandler _ => 0

theorem perform_finishes (ticking : Ticking p clock deadline rate) (hping : rate * 1000 < fuel)
    (hlimit : rate * limit < fuel) (call : Call H) (hwaits : rate * call.waits < fuel) :
    Finishes clock start limit (perform p fuel call) := by
  cases call with
  | connect options => exact connect_finishes ticking hping hlimit _
  | publish topicName payload payloadlen id qos retained =>
    refine .bind ?_ fun result => .pure result.1
    exact publish_finishes ticking hping hlimit topicName payload payloadlen id qos retained
  | publishWithoutId topicName payload payloadlen qos retained =>
    refine .bind ?_ fun result => .pure result.1
    exact publish_finishes ticking hping hlimit topicName payload payloadlen 0 qos retained
  | publishMessage topicName message =>
    refine .bind ?_ fun result => .pure result.1
    exact publish_finishes ticking hping hlimit topicName message.payload message.payloadlen 0
      message.qos (message.retained ≠ 0)
  | subscribe topicFilter qos messageHandler =>
    exact subscribe_finishes ticking hping hlimit topicFilter qos messageHandler
  | unsubscribe topicFilter => exact unsubscribe_finishes ticking hping hlimit topicFilter
  | yield timeoutMs => exact yield_finishes ticking hping hwaits
  | disconnect => exact disconnect_finishes ticking hlimit
  | setMessageHandler topicFilter messageHandler =>
    exact setHandler_finishes topicFilter messageHandler
  | setDefaultMessageHandler messageHandler =>
    exact .bind (modifyClient_finishes fun _ => rfl) fun _ => .pure success

theorem runCalls_finishes (ticking : Ticking p clock deadline rate) (hping : rate * 1000 < fuel)
    (hlimit : rate * limit < fuel) {calls : List (Call H)}
    (hwaits : ∀ call ∈ calls, rate * call.waits < fuel) :
    Finishes clock start limit (runCalls p fuel calls) := by
  induction calls with
  | nil => exact .pure _
  | cons call calls ih =>
    rw [List.forall_mem_cons] at hwaits
    refine .bind .get fun before => ?_
    refine .bind (perform_finishes ticking hping hlimit call hwaits.1) fun rc => ?_
    refine .bind .get fun after => ?_
    exact .bind (ih hwaits.2) fun later => .pure _

section Approximates

variable {fuel' : ℕ} (h : fuel ≤ fuel')
include h

theorem sendLoop_approximates (length : ℕ) (timer : τ) (sent : ℕ) :
    Approximates .outOfFuel (sendLoop p length timer fuel sent : Prog (Client ω τ H) ℕ)
      (sendLoop p length timer fuel' sent) := by
  induction fuel generalizing fuel' sent with
  | zero => exact .throw _ _
  | succ fuel ih =>
    obtain ⟨fuel', rfl⟩ : ∃ n, fuel' = n + 1 := ⟨fuel' - 1, by omega⟩
    refine .ite (.bind (.refl _ _) fun left => .bind (.refl _ _) fun c => ?_) (.refl _ _)
    refine .bind (.refl _ _) fun rc => .ite (.refl _ _) ?_
    refine .bind (.refl _ _) fun expired => .ite (.refl _ _) ?_
    exact ih (Nat.le_of_succ_le_succ h) _

theorem sendPacket_approximates (length : ℕ) (timer : τ) :
    Approximates .outOfFuel (sendPacket p fuel length timer : Prog (Client ω τ H) ℤ)
      (sendPacket p fuel' length timer) := by
  have htransmit : Approximates .outOfFuel
      (transmit p fuel length timer : Prog (Client ω τ H) ℤ) (transmit p fuel' length timer) :=
    .bind (sendLoop_approximates h length timer 0) fun sent => .refl _ _
  refine .bind (.refl _ _) fun c => ?_
  exact .bind htransmit fun rc => .refl _ _

theorem sendPing_approximates :
    Approximates .outOfFuel (sendPing p fuel : Prog (Client ω τ H) ℤ) (sendPing p fuel') := by
  refine .bind (.refl _ _) fun timer => .bind (.refl _ _) fun len => .ite (.refl _ _) ?_
  exact .bind (sendPacket_approximates h len.toNat timer) fun rc => .refl _ _

theorem checkPing_approximates :
    Approximates .outOfFuel (checkPing p fuel : Prog (Client ω τ H) ℤ) (checkPing p fuel') := by
  refine .bind (.refl _ _) fun c => .ite (.refl _ _) ?_
  refine .bind (.refl _ _) fun due => ?_
  exact .ite (sendPing_approximates h) (.refl _ _)

theorem keepalive_approximates :
    Approximates .outOfFuel (keepalive p fuel : Prog (Client ω τ H) ℤ) (keepalive p fuel') := by
  have hping : Approximates .outOfFuel (pingIfDue p fuel : Prog (Client ω τ H) ℤ)
      (pingIfDue p fuel') :=
    .bind (.refl _ _) fun c => .ite (.refl _ _) (checkPing_approximates h)
  refine .bind (.refl _ _) fun before => ?_
  exact .bind hping fun rc => .refl _ _

theorem variant_approximates : (variant p fuel).Approximates (variant p fuel') where
  readPacket := rfl
  sendPacket := sendPacket_approximates h
  keepalive := keepalive_approximates h
  closeSession := rfl
  deliver := rfl
  deliverUnread := rfl
  answered := rfl

theorem waitfor_approximates (packetType : MsgType) (timer : τ) :
    Approximates .outOfFuel (waitfor p fuel packetType timer) (waitfor p fuel' packetType timer) :=
  (variant_approximates h).waitforLoop timer p packetType h failure

theorem yieldLoop_approximates (timer : τ) {rounds rounds' : ℕ} (hrounds : rounds ≤ rounds') :
    Approximates .outOfFuel (yieldLoop p fuel timer rounds) (yieldLoop p fuel' timer rounds') := by
  induction rounds generalizing rounds' with
  | zero => exact .throw _ _
  | succ rounds ih =>
    obtain ⟨rounds', rfl⟩ : ∃ n, rounds' = n + 1 := ⟨rounds' - 1, by omega⟩
    refine .bind (.refl _ _) fun expired => .ite (.refl _ _) ?_
    refine .bind ((variant_approximates h).cycle timer) fun rc => .ite (.refl _ _) ?_
    exact ih (Nat.le_of_succ_le_succ hrounds)

theorem publishPacket_approximates (len : ℕ) (timer : τ) (qos : ℕ) :
    Approximates .outOfFuel (publishPacket p fuel len timer qos)
      (publishPacket p fuel' len timer qos) := by
  have hack (packetType : MsgType) : Approximates .outOfFuel (awaitAck p fuel packetType timer)
      (awaitAck p fuel' packetType timer) := by
    refine .bind (.refl _ _) fun _ => ?_
    exact .bind (waitfor_approximates h packetType timer) fun rc => .refl _ _
  have hawait : Approximates .outOfFuel (awaitPublished p fuel qos timer)
      (awaitPublished p fuel' qos timer) :=
    .ite (hack .puback) (.ite (hack .pubcomp) (.refl _ _))
  refine .bind (sendPacket_approximates h len timer) fun rc => .ite (.refl _ _) ?_
  exact .bind hawait fun rc => .refl _ _

theorem resend_approximates (len : ℕ) (timer : τ) (qos : ℕ) :
    Approximates .outOfFuel (resend p fuel len timer qos) (resend p fuel' len timer qos) := by
  refine .bind (.refl _ _) fun c => .bind (.refl _ _) fun _ => ?_
  exact publishPacket_approximates h len timer qos

theorem resume_approximates (timer : τ) (rc : ℤ) :
    Approximates .outOfFuel (resume p fuel timer rc) (resume p fuel' timer rc) := by
  refine .bind (.refl _ _) fun _ => .bind (.refl _ _) fun own => .ite ?_ (.ite ?_ (.refl _ _))
  · refine .bind (.refl _ _) fun len => .ite (.refl _ _) ?_
    exact resend_approximates h len.toNat timer own.inflightQoS
  · refine .bind (.refl _ _) fun _ => ?_
    exact resend_approximates h own.inflightLen timer own.inflightQoS

theorem publish_approximates (topicName : CString) (payload : List UInt8) (payloadlen : ℕ)
    (id : UInt16) (qos : ℕ) (retained : Bool) : Approximates .outOfFuel
      (publish p fuel topicName payload payloadlen id qos retained)
      (publish p fuel' topicName payload payloadlen id qos retained) := by
  refine .bind (.refl _ _) fun c => .bind (.refl _ _) fun timer => .ite ?_ (.refl _ _)
  refine .bind (.refl _ _) fun id => .bind (.refl _ _) fun len => .ite (.refl _ _) ?_
  refine .bind (.refl _ _) fun _ => ?_
  exact .bind (publishPacket_approximates h len.toNat timer qos) fun rc => .refl _ _

theorem connect_approximates (options : ConnectData) :
    Approximates .outOfFuel (connect p fuel options) (connect p fuel' options) := by
  have hawait (timer : τ) : Approximates .outOfFuel (awaitConnack p fuel timer)
      (awaitConnack p fuel' timer) :=
    .bind (waitfor_approximates h .connack timer) fun rc => .refl _ _
  have hexchange : Approximates .outOfFuel (connectExchange p fuel options)
      (connectExchange p fuel' options) := by
    refine .bind (.refl _ _) fun c => .bind (.refl _ _) fun timer => .ite (.refl _ _) ?_
    refine .bind (.refl _ _) fun _ => .bind (.refl _ _) fun len => .ite (.refl _ _) ?_
    refine .bind (sendPacket_approximates h len.toNat timer) fun rc => .ite (.refl _ _) ?_
    refine .bind (.refl _ _) fun _ => .bind (hawait timer) fun rc => ?_
    exact resume_approximates h timer rc
  exact .bind hexchange fun rc => .refl _ _

theorem request_approximates {f : UInt16 → List UInt8 → Option (ℤ × List UInt8)}
    {next next' : τ → Prog (Client ω τ H) ℤ}
    (hnext : ∀ timer, Approximates .outOfFuel (next timer) (next' timer)) :
    Approximates .outOfFuel
      (do
        let c ← getClient
        let timer ← newTimer p c.commandTimeoutMs
        if c.isconnected then
          let id ← getNext
          let len ← serialize (f id)
          if len ≤ 0 then pure failure
          else
            let rc ← sendPacket p fuel len.toNat timer
            if rc ≠ success then pure rc else next timer
        else pure failure)
      (do
        let c ← getClient
        let timer ← newTimer p c.commandTimeoutMs
        if c.isconnected then
          let id ← getNext
          let len ← serialize (f id)
          if len ≤ 0 then pure failure
          else
            let rc ← sendPacket p fuel' len.toNat timer
            if rc ≠ success then pure rc else next' timer
        else pure failure) := by
  refine .bind (.refl _ _) fun c => .bind (.refl _ _) fun timer => .ite ?_ (.refl _ _)
  refine .bind (.refl _ _) fun id => .bind (.refl _ _) fun len => .ite (.refl _ _) ?_
  refine .bind (sendPacket_approximates h len.toNat timer) fun rc => ?_
  exact .ite (.refl _ _) (hnext timer)

theorem subscribe_approximates (topicFilter : CString) (qos : ℕ) (messageHandler : Option H) :
    Approximates .outOfFuel (subscribe p fuel topicFilter qos messageHandler)
      (subscribe p fuel' topicFilter qos messageHandler) := by
  refine .bind (request_approximates h fun timer => ?_) fun rc => .refl _ _
  exact .bind (waitfor_approximates h .suback timer) fun rc => .refl _ _

theorem unsubscribe_approximates (topicFilter : CString) :
    Approximates .outOfFuel (unsubscribe p fuel topicFilter)
      (unsubscribe p fuel' topicFilter) := by
  refine .bind (request_approximates h fun timer => ?_) fun rc => .refl _ _
  exact .bind (waitfor_approximates h .unsuback timer) fun rc => .refl _ _

theorem disconnect_approximates :
    Approximates .outOfFuel (disconnect p fuel : Prog (Client ω τ H) ℤ) (disconnect p fuel') := by
  have hsend (timer : τ) : Approximates .outOfFuel
      (sendDisconnect p fuel timer : Prog (Client ω τ H) ℤ) (sendDisconnect p fuel' timer) := by
    refine .bind (.refl _ _) fun len => ?_
    exact .ite (sendPacket_approximates h len.toNat timer) (.refl _ _)
  refine .bind (.refl _ _) fun c => .bind (.refl _ _) fun timer => ?_
  exact .bind (hsend timer) fun rc => .refl _ _

/-- With more fuel a call does the same, or goes on. -/
theorem perform_approximates (call : Call H) :
    Approximates .outOfFuel (perform p fuel call) (perform p fuel' call) := by
  cases call with
  | connect options => exact connect_approximates h _
  | publish topicName payload payloadlen id qos retained =>
    refine .bind ?_ fun result => .refl _ _
    exact publish_approximates h topicName payload payloadlen id qos retained
  | publishWithoutId topicName payload payloadlen qos retained =>
    refine .bind ?_ fun result => .refl _ _
    exact publish_approximates h topicName payload payloadlen 0 qos retained
  | publishMessage topicName message =>
    refine .bind ?_ fun result => .refl _ _
    exact publish_approximates h topicName message.payload message.payloadlen 0 message.qos
      (message.retained ≠ 0)
  | subscribe topicFilter qos messageHandler =>
    exact subscribe_approximates h topicFilter qos messageHandler
  | unsubscribe topicFilter => exact unsubscribe_approximates h topicFilter
  | yield timeoutMs => exact .bind (.refl _ _) fun timer => yieldLoop_approximates h timer h
  | disconnect => exact disconnect_approximates h
  | setMessageHandler topicFilter messageHandler => exact .refl _ _
  | setDefaultMessageHandler messageHandler => exact .refl _ _

theorem runCalls_approximates (calls : List (Call H)) :
    Approximates .outOfFuel (runCalls p fuel calls) (runCalls p fuel' calls) := by
  induction calls with
  | nil => exact .refl _ _
  | cons call calls ih =>
    refine .bind (.refl _ _) fun before => .bind (perform_approximates h call) fun rc => ?_
    refine .bind (.refl _ _) fun after => ?_
    exact .bind ih fun later => .refl _ _

end Approximates

/-- The milliseconds that a run may have to wait for at once. -/
def longestWaits (c : MQTTClient τ H) (calls : List (Call H)) : List ℕ :=
  1000 :: c.commandTimeoutMs :: calls.map Call.waits

/-- Fuel for the longest wait is enough. -/
theorem runCalls_finishes_longest (ticking : Ticking p clock deadline rate)
    {calls : List (Call H)} {c : MQTTClient τ H} {fuel : ℕ}
    (hfuel : ∀ ms ∈ longestWaits c calls, rate * ms < fuel) :
    Finishes clock 0 c.commandTimeoutMs (runCalls p fuel calls) := by
  have hping : rate * 1000 < fuel := hfuel 1000 (by simp [longestWaits])
  have hlimit : rate * c.commandTimeoutMs < fuel := hfuel _ (by simp [longestWaits])
  refine runCalls_finishes ticking hping hlimit fun call hcall => ?_
  exact hfuel call.waits (by simp [longestWaits, List.mem_map_of_mem hcall])

/-- Whatever the application calls and whatever the network answers, the calls return: the
run has one result, which any fuel for its longest wait leads to. -/
theorem runCalls_returns (ticking : Ticking p clock deadline rate) (calls : List (Call H))
    (s : Client ω τ H) : ∃ result, (∀ t, result ≠ .error .outOfFuel t) ∧
      ∀ fuel, (∀ ms ∈ longestWaits s.client calls, rate * ms < fuel) →
        runCalls p fuel calls s = result := by
  apply Approximates.settles fun h => runCalls_approximates h calls
  · exact exists_fuel rate (longestWaits s.client calls)
  · intro fuel hfuel
    exact runCalls_finishes_longest ticking hfuel s ⟨Nat.zero_le _, le_rfl⟩

/-- A client that has 30 milliseconds for a command, and a message in flight. -/
def stalledClient : Client ℕ ℕ Unit where
  client :=
    { nextPacketid := 1
      commandTimeoutMs := 30
      buf := List.replicate 32 0
      readbuf := List.replicate 32 0
      keepAliveInterval := 60
      pingOutstanding := false
      isconnected := false
      cleansession := false
      messageHandlers := []
      defaultMessageHandler := none
      lastSent := 60000
      lastReceived := 60000 }
  own :=
    { pubbuf := List.replicate 32 0
      inflightLen := 8
      inflightMsgid := 1
      inflightQoS := 1
      pubrel := false
      incomingQoS2messages := List.replicate maxIncomingQoS2Messages 0
      pingSent := 0
      history := [] }
  world := 0

/-- Connecting and then waiting for packets. -/
theorem runCalls_returns_stalled : ∃ result, (∀ t, result ≠ .error .outOfFuel t) ∧
    ∀ fuel, (∀ ms ∈ longestWaits stalledClient.client [.connect none, .yield 50],
      1 * ms < fuel) →
      runCalls stalledPlatform fuel [.connect none, .yield 50] stalledClient = result :=
  runCalls_returns stalledPlatform_ticking _ _

end MqttEmbedded.ClientCpp
