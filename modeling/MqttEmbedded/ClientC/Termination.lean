import MqttEmbedded.Client.Termination
import MqttEmbedded.ClientC.Requests
import MqttEmbedded.ClientC.Upkeep

/-!
# The calls of the C client return

Every loop asks the timer of its call, and a ping has a second of its own. A call is
therefore followed to its end with fuel for the ticks of the longest of these, whatever
the network answers.
-/

namespace MqttEmbedded.ClientC

open Hoare

variable {ω τ H α : Type} {p : Platform ω τ H} {clock : ω → ℕ} {deadline : τ → ℕ}
  {rate start limit fuel : ℕ} {timer : τ} {s : Client ω τ H}

section Sending

variable (ticking : Ticking p clock deadline rate)
include ticking

theorem sendLoop_finishes (length sent : ℕ) (htimer : deadline timer - start < fuel) :
    Finishes clock start limit
      (sendLoop p length timer fuel sent : Prog (Client ω τ H) ℕ) := by
  intro s hs
  apply wp_rounds (sendLoop p length timer) (I := Within clock start limit)
    (m := fun t => deadline timer - clock t.world)
  · intro rounds sent s hs hnext
    rw [sendLoop, wp_ite, wp_pure, wp_bind]
    refine ⟨fun _ => ?_, fun _ => hs⟩
    apply wp_imp (timerIsExpired_ticks ticking hs)
    rintro expired t ⟨ht, hstart, hlt, hleft⟩
    rw [wp_ite, wp_pure]
    refine ⟨fun _ => ⟨hstart, ht.limited⟩, fun hunexpired => ?_⟩
    simp only [wp_bind, wp_ask, wp_getClient, wp_ite, wp_pure]
    have hbefore := hleft hunexpired
    have htime := (ticking.timerLeftMS timer t.world).trans
      (ticking.mqttwrite (t.client.buf.drop sent) length (p.timerLeftMS timer t.world).1 _)
    refine ⟨fun _ => ⟨hstart.trans htime, ht.limited⟩, fun _ => ?_⟩
    exact hnext _ _ ⟨hstart.trans htime, ht.limited⟩ (by dsimp only; omega)
  · exact hs
  · have hstarted := hs.started
    omega

theorem sendPacket_finishes (length : ℕ) (htimer : deadline timer - start < fuel) :
    Finishes clock start limit (sendPacket p fuel length timer : Prog (Client ω τ H) ℤ) := by
  refine .bind (sendLoop_finishes ticking length 0 htimer) fun sent => ?_
  refine .ite (fun _ => .bind getClient_finishes fun c => ?_) fun _ => .pure failure
  have hcountdown := ticking.timerCountdown c.lastSent c.keepAliveInterval
  refine .bind (ask_finishes hcountdown) fun lastSent => ?_
  exact .bind (modifyClient_finishes fun _ => rfl) fun _ => .pure success

theorem timerIsExpired_finishes (timer : τ) :
    Finishes clock start limit (ask (p.timerIsExpired timer) : Prog (Client ω τ H) Bool) :=
  ask_finishes fun w => (ticking.timerIsExpired timer w).le

theorem keepaliveDue_finishes :
    Finishes clock start limit (keepaliveDue p : Prog (Client ω τ H) Bool) := by
  refine .bind getClient_finishes fun c => ?_
  refine .bind (timerIsExpired_finishes ticking c.lastSent) fun expired => ?_
  exact .ite (fun _ => .pure true) fun _ => timerIsExpired_finishes ticking c.lastReceived

variable (hping : rate * 1000 < fuel)
include hping

theorem sendPing_finishes :
    Finishes clock start limit (sendPing p fuel : Prog (Client ω τ H) ℤ) := by
  refine newTimer_finishes ticking fun timer now _ hdeadline => ?_
  refine .bind (serialize_finishes mqttSerializePingreq) fun len => ?_
  refine .ite (fun _ => .pure success) fun _ => ?_
  have hsend : deadline timer - now < fuel := by omega
  refine .bind (sendPacket_finishes ticking len.toNat hsend) fun rc => ?_
  refine .ite (fun _ => ?_) fun _ => .pure rc
  exact .bind (modifyClient_finishes fun _ => rfl) fun _ => .pure success

theorem keepalive_finishes :
    Finishes clock start limit (keepalive p fuel : Prog (Client ω τ H) ℤ) := by
  refine .bind getClient_finishes fun c => .ite (fun _ => .pure success) fun _ => ?_
  refine .bind (keepaliveDue_finishes ticking) fun due => ?_
  refine .ite (fun _ => ?_) fun _ => .pure success
  exact .ite (fun _ => .pure failure) fun _ => sendPing_finishes ticking hping

end Sending

theorem mqttCloseSession_finishes :
    Finishes clock start limit (mqttCloseSession : Prog (Client ω τ H) PUnit) := by
  refine .bind (modifyClient_finishes fun _ => rfl) fun _ => .bind getClient_finishes fun c => ?_
  exact .ite (fun _ => modifyClient_finishes fun _ => rfl) fun _ => .pure _

theorem deliver_finishes (ticking : Ticking p clock deadline rate) (topicName : MQTTString)
    (msg : MQTTMessage) :
    Finishes clock start limit (deliver p topicName msg : Prog (Client ω τ H) PUnit) :=
  .bind (deliverMessage_finishes ticking topicName msg) fun _ => .pure _

theorem deliverUnread_finishes (ticking : Ticking p clock deadline rate) (topic : StringRead)
    (msg : MQTTMessage) :
    Finishes clock start limit (deliverUnread p topic msg : Prog (Client ω τ H) PUnit) := by
  cases topic with
  | read topicName curdata => exact deliver_finishes ticking topicName msg
  | refused len =>
    refine .bind getClient_finishes fun c => ?_
    exact .ite (fun _ => .throw undefined_ne_outOfFuel) fun _ => .pure _

section Waiting

variable (ticking : Ticking p clock deadline rate) (hping : rate * 1000 < fuel)
include ticking hping

theorem variant_finishing (htimer : deadline timer - start < fuel) :
    (variant p fuel).Finishing clock start limit timer where
  readPacket := readPacketWith_finishes ticking _ _ timer
  sendPacket := fun length => sendPacket_finishes ticking length htimer
  keepalive := keepalive_finishes ticking hping
  closeSession := mqttCloseSession_finishes
  deliver := deliver_finishes ticking
  deliverUnread := deliverUnread_finishes ticking
  answered := fun _ _ => .pure _

theorem cycle_finishes (htimer : deadline timer - start < fuel) :
    Finishes clock start limit (cycle p fuel timer) :=
  (variant_finishing ticking hping htimer).cycle

theorem waitfor_finishes (packetType : MsgType) (htimer : deadline timer - start < fuel) :
    Finishes clock start limit (waitfor p fuel packetType timer) :=
  Variant.waitforLoop_finishes ticking
    (fun _ _ => cycle_finishes ticking hping (by omega)) htimer packetType failure

theorem yieldLoop_finishes (htimer : deadline timer - start < fuel) :
    Finishes clock start limit (yieldLoop p fuel timer fuel) := by
  intro s hs
  apply wp_rounds (fun rounds (_ : Unit) => yieldLoop p fuel timer rounds)
    (I := Within clock start limit) (m := fun t => deadline timer - clock t.world)
  · intro rounds _ s hs hnext
    rw [yieldLoop, wp_bind]
    have hnow : Within clock (clock s.world) limit s := ⟨le_rfl, hs.limited⟩
    have hcycle : Finishes clock (clock s.world) limit (cycle p fuel timer) :=
      cycle_finishes ticking hping (by have := hs.started; omega)
    apply wp_imp (hcycle s hnow)
    intro rc t ht
    have hlater : Within clock start limit t := ⟨hs.started.trans ht.started, ht.limited⟩
    rw [wp_ite, wp_pure, wp_bind]
    refine ⟨fun _ => hlater, fun _ => ?_⟩
    apply wp_imp (timerIsExpired_ticks ticking hlater)
    rintro expired u ⟨hu, hstart, hlt, hleft⟩
    have hlast : Within clock start limit u := ⟨hstart, hu.limited⟩
    rw [wp_ite, wp_pure]
    refine ⟨fun _ => hlast, fun hunexpired => ?_⟩
    have hbefore := hleft hunexpired
    have htime := ht.started
    exact hnext () u hlast (by omega)
  · exact ()
  · exact hs
  · have hstarted := hs.started
    omega

omit hping in
theorem transmit_finishes {len : ℤ} {short : α} {refused : ℤ → α}
    {next : Prog (Client ω τ H) α} (htimer : deadline timer - start < fuel)
    (hnext : Finishes clock start limit next) :
    Finishes clock start limit (if len ≤ 0 then pure short
      else do
        let rc ← sendPacket p fuel len.toNat timer
        if rc ≠ success then pure (refused rc) else next) := by
  refine .ite (fun _ => .pure short) fun _ => ?_
  refine .bind (sendPacket_finishes ticking len.toNat htimer) fun rc => ?_
  exact .ite (fun _ => .pure (refused rc)) fun _ => hnext

theorem await_finishes (packetType : MsgType) (htimer : deadline timer - start < fuel)
    {got : MQTTClient τ H → Prog (Client ω τ H) α} {missed : α}
    (hgot : ∀ c, Finishes clock start limit (got c)) :
    Finishes clock start limit (do
      let rc ← waitfor p fuel packetType timer
      if rc = packetType.code then do
        let c ← getClient
        got c
      else pure missed) := by
  refine .bind (waitfor_finishes ticking hping packetType htimer) fun rc => ?_
  exact .ite (fun _ => .bind getClient_finishes hgot) fun _ => .pure missed

end Waiting

theorem mqttSetMessageHandler_finishes (topicFilter : CString) (messageHandler : Option H) :
    Finishes clock start limit
      (mqttSetMessageHandler topicFilter messageHandler : Prog (Client ω τ H) ℤ) := by
  refine .bind getClient_finishes fun c => ?_
  exact .bind (modifyClient_finishes fun _ => rfl) fun _ => .pure _

theorem getNextPacketId_finishes :
    Finishes clock start limit (getNextPacketId : Prog (Client ω τ H) UInt16) := by
  refine .bind getClient_finishes fun c => ?_
  exact .bind (modifyClient_finishes fun _ => rfl) fun _ => .pure _

theorem numberMessage_finishes (message : MQTTMessage) :
    Finishes clock start limit (numberMessage message : Prog (Client ω τ H) MQTTMessage) := by
  refine .ite (fun _ => ?_) fun _ => .pure message
  exact .bind getNextPacketId_finishes fun id => .pure _

theorem closeOnFailure_finishes (rc : ℤ) :
    Finishes clock start limit (closeOnFailure rc : Prog (Client ω τ H) PUnit) :=
  .ite (fun _ => mqttCloseSession_finishes) fun _ => .pure _

section Calls

variable (ticking : Ticking p clock deadline rate) (hping : rate * 1000 < fuel)
include ticking hping

theorem awaitConnack_finishes (data : ConnackFields) (htimer : deadline timer - start < fuel) :
    Finishes clock start limit (awaitConnack p fuel timer data) := by
  refine await_finishes ticking hping .connack htimer fun c => ?_
  exact .bind (ofOption_finishes _) fun result => .pure _

theorem awaitAck_finishes (packetType : MsgType) (htimer : deadline timer - start < fuel) :
    Finishes clock start limit (awaitAck p fuel packetType timer) := by
  refine await_finishes ticking hping packetType htimer fun c => ?_
  exact .bind (ofOption_finishes _) fun result => .pure _

theorem awaitSuback_finishes (topicFilter : CString) (messageHandler : Option H) (data : ℤ)
    (htimer : deadline timer - start < fuel) :
    Finishes clock start limit (awaitSuback p fuel topicFilter messageHandler timer data) := by
  refine await_finishes ticking hping .suback htimer fun c => ?_
  refine .bind (ofOption_finishes _) fun result => .ite (fun _ => ?_) fun _ => .pure _
  exact .bind (mqttSetMessageHandler_finishes topicFilter messageHandler) fun rc => .pure _

theorem awaitUnsuback_finishes (topicFilter : CString) (htimer : deadline timer - start < fuel) :
    Finishes clock start limit (awaitUnsuback p fuel topicFilter timer) := by
  refine await_finishes ticking hping .unsuback htimer fun c => ?_
  refine .bind (ofOption_finishes _) fun result => .ite (fun _ => ?_) fun _ => .pure _
  exact .bind (mqttSetMessageHandler_finishes topicFilter none) fun _ => .pure _

theorem awaitPublished_finishes (qos : ℕ) (htimer : deadline timer - start < fuel) :
    Finishes clock start limit (awaitPublished p fuel qos timer) := by
  refine .ite (fun _ => awaitAck_finishes ticking hping .puback htimer) fun _ => ?_
  exact .ite (fun _ => awaitAck_finishes ticking hping .pubcomp htimer) fun _ => .pure _

variable (hlimit : rate * limit < fuel)
include hlimit

theorem connectExchange_finishes (options : ConnectData) (data : ConnackFields) :
    Finishes clock start limit (connectExchange p fuel options data) := by
  refine bind_getClient_finishes fun c hc => .ite (fun _ => .pure _) fun _ => ?_
  refine commandTimer_finishes ticking hlimit hc fun timer now htimer => ?_
  refine .bind (modifyClient_finishes fun _ => rfl) fun _ => .bind getClient_finishes fun c => ?_
  have hcountdown := ticking.timerCountdown c.lastReceived c.keepAliveInterval
  refine .bind (ask_finishes hcountdown) fun lastReceived => ?_
  refine .bind (modifyClient_finishes fun _ => rfl) fun _ => ?_
  refine .bind (serialize_finishes _) fun len => ?_
  exact transmit_finishes ticking htimer (awaitConnack_finishes ticking hping data htimer)

theorem subscribeExchange_finishes (topicFilter : CString) (qos : ℕ) (messageHandler : Option H)
    (data : ℤ) :
    Finishes clock start limit (subscribeExchange p fuel topicFilter qos messageHandler data) := by
  refine bind_getClient_finishes fun c hc => .ite (fun _ => ?_) fun _ => .pure _
  refine commandTimer_finishes ticking hlimit hc fun timer now htimer => ?_
  refine .bind getNextPacketId_finishes fun id => .bind (serialize_finishes _) fun len => ?_
  refine transmit_finishes ticking htimer ?_
  exact awaitSuback_finishes ticking hping topicFilter messageHandler data htimer

theorem unsubscribeExchange_finishes (topicFilter : CString) :
    Finishes clock start limit (unsubscribeExchange p fuel topicFilter) := by
  refine bind_getClient_finishes fun c hc => .ite (fun _ => ?_) fun _ => .pure _
  refine commandTimer_finishes ticking hlimit hc fun timer now htimer => ?_
  refine .bind getNextPacketId_finishes fun id => .bind (serialize_finishes _) fun len => ?_
  exact transmit_finishes ticking htimer (awaitUnsuback_finishes ticking hping topicFilter htimer)

theorem publishExchange_finishes (topicName : CString) (message : MQTTMessage) :
    Finishes clock start limit (publishExchange p fuel topicName message) := by
  refine bind_getClient_finishes fun c hc => .ite (fun _ => ?_) fun _ => .pure _
  refine commandTimer_finishes ticking hlimit hc fun timer now htimer => ?_
  refine .bind (numberMessage_finishes message) fun message => ?_
  refine .bind (serialize_finishes _) fun len => transmit_finishes ticking htimer ?_
  exact .bind (awaitPublished_finishes ticking hping message.qos htimer) fun rc => .pure _

theorem mqttConnect_finishes (options : Option ConnectData) :
    Finishes clock start limit (mqttConnect p fuel options) := by
  refine .bind (.bind (connectExchange_finishes ticking hping hlimit _ _) fun result => ?_)
    fun result => .pure result.1
  refine .ite (fun _ => ?_) fun _ => .pure result
  exact .bind (modifyClient_finishes fun _ => rfl) fun _ => .pure result

theorem mqttPublish_finishes (topicName : CString) (message : MQTTMessage) :
    Finishes clock start limit (mqttPublish p fuel topicName message) := by
  refine .bind (publishExchange_finishes ticking hping hlimit topicName message) fun result => ?_
  exact .bind (closeOnFailure_finishes result.1) fun _ => .pure result

theorem mqttSubscribe_finishes (topicFilter : CString) (qos : ℕ) (messageHandler : Option H) :
    Finishes clock start limit (mqttSubscribe p fuel topicFilter qos messageHandler) := by
  refine .bind (.bind ?_ fun result => ?_) fun result => .pure result.1
  · exact subscribeExchange_finishes ticking hping hlimit topicFilter qos messageHandler 0
  · exact .bind (closeOnFailure_finishes result.1) fun _ => .pure result

theorem mqttUnsubscribe_finishes (topicFilter : CString) :
    Finishes clock start limit (mqttUnsubscribe p fuel topicFilter) := by
  refine .bind (unsubscribeExchange_finishes ticking hping hlimit topicFilter) fun rc => ?_
  exact .bind (closeOnFailure_finishes rc) fun _ => .pure rc

omit hping in
theorem mqttDisconnect_finishes :
    Finishes clock start limit (mqttDisconnect p fuel) := by
  refine bind_getClient_finishes fun c hc => ?_
  refine commandTimer_finishes ticking hlimit hc fun timer now htimer => ?_
  refine .bind (serialize_finishes mqttSerializeDisconnect) fun len => ?_
  refine .ite (fun _ => ?_) fun _ => ?_
  · refine .bind (sendPacket_finishes ticking len.toNat htimer) fun rc => ?_
    exact .bind mqttCloseSession_finishes fun _ => .pure rc
  · exact .bind mqttCloseSession_finishes fun _ => .pure failure

omit hlimit in
theorem mqttYield_finishes {timeoutMs : ℕ} (hyield : rate * timeoutMs < fuel) :
    Finishes clock start limit (mqttYield p fuel timeoutMs) := by
  refine newTimer_finishes ticking fun timer now _ hdeadline => ?_
  exact yieldLoop_finishes ticking hping (by omega)

end Calls

/-- How long the call may wait besides the command timeout and the second for a ping. -/
def Call.waits : Call H → ℕ
  | .yield timeoutMs => timeoutMs
  | .connect _ | .publish .. | .subscribe .. | .unsubscribe _ | .disconnect
  | .setMessageHandler .. => 0

theorem perform_finishes (ticking : Ticking p clock deadline rate) (hping : rate * 1000 < fuel)
    (hlimit : rate * limit < fuel) (call : Call H) (hwaits : rate * call.waits < fuel) :
    Finishes clock start limit (perform p fuel call) := by
  cases call with
  | connect options =>
    exact .bind (mqttConnect_finishes ticking hping hlimit options) fun rc => .pure _
  | publish topicName message =>
    exact .bind (mqttPublish_finishes ticking hping hlimit topicName message) fun result => .pure _
  | subscribe topicFilter qos messageHandler =>
    refine .bind ?_ fun rc => .pure _
    exact mqttSubscribe_finishes ticking hping hlimit topicFilter qos messageHandler
  | unsubscribe topicFilter =>
    exact .bind (mqttUnsubscribe_finishes ticking hping hlimit topicFilter) fun rc => .pure _
  | yield timeoutMs => exact .bind (mqttYield_finishes ticking hping hwaits) fun rc => .pure _
  | disconnect => exact .bind (mqttDisconnect_finishes ticking hlimit) fun rc => .pure _
  | setMessageHandler topicFilter messageHandler =>
    exact .bind (mqttSetMessageHandler_finishes topicFilter messageHandler) fun rc => .pure _

/-- One call after the other, whatever they return. -/
def performCalls (p : Platform ω τ H) (fuel : ℕ) :
    List (Call H) → Prog (Client ω τ H) (List Reply)
  | [] => pure []
  | call :: calls => do
    let reply ← perform p fuel call
    let later ← performCalls p fuel calls
    pure (reply :: later)

theorem performCalls_finishes (ticking : Ticking p clock deadline rate) (hping : rate * 1000 < fuel)
    (hlimit : rate * limit < fuel) {calls : List (Call H)}
    (hwaits : ∀ call ∈ calls, rate * call.waits < fuel) :
    Finishes clock start limit (performCalls p fuel calls) := by
  induction calls with
  | nil => exact .pure _
  | cons call calls ih =>
    rw [List.forall_mem_cons] at hwaits
    refine .bind (perform_finishes ticking hping hlimit call hwaits.1) fun reply => ?_
    exact .bind (ih hwaits.2) fun later => .pure _

section Approximates

variable {fuel' : ℕ} (h : fuel ≤ fuel')
include h

theorem sendLoop_approximates (length : ℕ) (timer : τ) (sent : ℕ) :
    Approximates .outOfFuel (sendLoop p length timer fuel sent : Prog (Client ω τ H) ℕ)
      (sendLoop p length timer fuel' sent) := by
  induction fuel generalizing fuel' sent with
  | zero => exact .throw _ _
  | succ fuel ih =>
    obtain ⟨fuel', rfl⟩ : ∃ n, fuel' = n + 1 := ⟨fuel' - 1, by omega⟩
    refine .ite (.bind (.refl _ _) fun expired => .ite (.refl _ _) ?_) (.refl _ _)
    refine .bind (.refl _ _) fun left => .bind (.refl _ _) fun c => ?_
    refine .bind (.refl _ _) fun rc => .ite (.refl _ _) ?_
    exact ih (Nat.le_of_succ_le_succ h) _

theorem sendPacket_approximates (length : ℕ) (timer : τ) :
    Approximates .outOfFuel (sendPacket p fuel length timer : Prog (Client ω τ H) ℤ)
      (sendPacket p fuel' length timer) :=
  .bind (sendLoop_approximates h length timer 0) fun _ => .refl _ _

theorem sendPing_approximates :
    Approximates .outOfFuel (sendPing p fuel : Prog (Client ω τ H) ℤ) (sendPing p fuel') := by
  refine .bind (.refl _ _) fun timer => .bind (.refl _ _) fun len => .ite (.refl _ _) ?_
  exact .bind (sendPacket_approximates h len.toNat timer) fun rc => .refl _ _

theorem keepalive_approximates :
    Approximates .outOfFuel (keepalive p fuel : Prog (Client ω τ H) ℤ) (keepalive p fuel') := by
  refine .bind (.refl _ _) fun c => .ite (.refl _ _) ?_
  refine .bind (.refl _ _) fun due => .ite ?_ (.refl _ _)
  exact .ite (.refl _ _) (sendPing_approximates h)

theorem variant_approximates : (variant p fuel).Approximates (variant p fuel') where
  readPacket := rfl
  sendPacket := sendPacket_approximates h
  keepalive := keepalive_approximates h
  closeSession := rfl
  deliver := rfl
  deliverUnread := rfl
  answered := rfl

theorem waitfor_approximates (packetType : MsgType) (timer : τ) :
    Approximates .outOfFuel (waitfor p fuel packetType timer) (waitfor p fuel' packetType timer) :=
  (variant_approximates h).waitforLoop timer p packetType h failure

theorem yieldLoop_approximates (timer : τ) {rounds rounds' : ℕ} (hrounds : rounds ≤ rounds') :
    Approximates .outOfFuel (yieldLoop p fuel timer rounds) (yieldLoop p fuel' timer rounds') := by
  induction rounds generalizing rounds' with
  | zero => exact .throw _ _
  | succ rounds ih =>
    obtain ⟨rounds', rfl⟩ : ∃ n, rounds' = n + 1 := ⟨rounds' - 1, by omega⟩
    refine .bind ((variant_approximates h).cycle timer) fun rc => .ite (.refl _ _) ?_
    refine .bind (.refl _ _) fun expired => .ite (.refl _ _) ?_
    exact ih (Nat.le_of_succ_le_succ hrounds)

theorem transmit_approximates {len : ℤ} {timer : τ} {short : α} {refused : ℤ → α}
    {next next' : Prog (Client ω τ H) α} (hnext : Approximates .outOfFuel next next') :
    Approximates .outOfFuel
      (if len ≤ 0 then pure short
        else do
          let rc ← sendPacket p fuel len.toNat timer
          if rc ≠ success then pure (refused rc) else next)
      (if len ≤ 0 then pure short
        else do
          let rc ← sendPacket p fuel' len.toNat timer
          if rc ≠ success then pure (refused rc) else next') := by
  refine .ite (.refl _ _) (.bind (sendPacket_approximates h len.toNat timer) fun rc => ?_)
  exact .ite (.refl _ _) hnext

theorem awaitPublished_approximates (qos : ℕ) (timer : τ) :
    Approximates .outOfFuel (awaitPublished p fuel qos timer)
      (awaitPublished p fuel' qos timer) := by
  refine .ite ?_ (.ite ?_ (.refl _ _))
  · exact .bind (waitfor_approximates h .puback timer) fun rc => .refl _ _
  · exact .bind (waitfor_approximates h .pubcomp timer) fun rc => .refl _ _

theorem connectExchange_approximates (options : ConnectData) (data : ConnackFields) :
    Approximates .outOfFuel (connectExchange p fuel options data)
      (connectExchange p fuel' options data) := by
  refine .bind (.refl _ _) fun c => .ite (.refl _ _) ?_
  refine .bind (.refl _ _) fun timer => .bind (.refl _ _) fun _ => .bind (.refl _ _) fun c => ?_
  refine .bind (.refl _ _) fun lastReceived => .bind (.refl _ _) fun _ => ?_
  refine .bind (.refl _ _) fun len => transmit_approximates h ?_
  exact .bind (waitfor_approximates h .connack timer) fun rc => .refl _ _

theorem publishExchange_approximates (topicName : CString) (message : MQTTMessage) :
    Approximates .outOfFuel (publishExchange p fuel topicName message)
      (publishExchange p fuel' topicName message) := by
  refine .bind (.refl _ _) fun c => .ite ?_ (.refl _ _)
  refine .bind (.refl _ _) fun timer => .bind (.refl _ _) fun message => ?_
  refine .bind (.refl _ _) fun len => transmit_approximates h ?_
  exact .bind (awaitPublished_approximates h message.qos timer) fun rc => .refl _ _

theorem subscribeExchange_approximates (topicFilter : CString) (qos : ℕ)
    (messageHandler : Option H) (data : ℤ) :
    Approximates .outOfFuel (subscribeExchange p fuel topicFilter qos messageHandler data)
      (subscribeExchange p fuel' topicFilter qos messageHandler data) := by
  refine .bind (.refl _ _) fun c => .ite ?_ (.refl _ _)
  refine .bind (.refl _ _) fun timer => .bind (.refl _ _) fun id => ?_
  refine .bind (.refl _ _) fun len => transmit_approximates h ?_
  exact .bind (waitfor_approximates h .suback timer) fun rc => .refl _ _

theorem unsubscribeExchange_approximates (topicFilter : CString) :
    Approximates .outOfFuel (unsubscribeExchange p fuel topicFilter)
      (unsubscribeExchange p fuel' topicFilter) := by
  refine .bind (.refl _ _) fun c => .ite ?_ (.refl _ _)
  refine .bind (.refl _ _) fun timer => .bind (.refl _ _) fun id => ?_
  refine .bind (.refl _ _) fun len => transmit_approximates h ?_
  exact .bind (waitfor_approximates h .unsuback timer) fun rc => .refl _ _

theorem mqttDisconnect_approximates :
    Approximates .outOfFuel (mqttDisconnect p fuel : Prog (Client ω τ H) ℤ)
      (mqttDisconnect p fuel') := by
  refine .bind (.refl _ _) fun c => .bind (.refl _ _) fun timer => ?_
  refine .bind (.refl _ _) fun len => .ite ?_ (.refl _ _)
  exact .bind (sendPacket_approximates h len.toNat timer) fun rc => .refl _ _

/-- With more fuel a call does the same, or goes on. -/
theorem perform_approximates (call : Call H) :
    Approximates .outOfFuel (perform p fuel call) (perform p fuel' call) := by
  cases call with
  | connect options =>
    refine .bind (.bind (.bind ?_ fun result => .refl _ _) fun result => .refl _ _) fun rc =>
      .refl _ _
    exact connectExchange_approximates h _ _
  | publish topicName message =>
    have hexchange := publishExchange_approximates (p := p) h topicName message
    exact .bind (.bind hexchange fun result => .refl _ _) fun result => .refl _ _
  | subscribe topicFilter qos messageHandler =>
    refine .bind (.bind (.bind ?_ fun result => .refl _ _) fun result => .refl _ _) fun rc =>
      .refl _ _
    exact subscribeExchange_approximates h topicFilter qos messageHandler 0
  | unsubscribe topicFilter =>
    have hexchange := unsubscribeExchange_approximates (p := p) h topicFilter
    exact .bind (.bind hexchange fun rc => .refl _ _) fun rc => .refl _ _
  | yield timeoutMs =>
    refine .bind (.bind (.refl _ _) fun timer => ?_) fun rc => .refl _ _
    exact yieldLoop_approximates h timer h
  | disconnect => exact .bind (mqttDisconnect_approximates h) fun rc => .refl _ _
  | setMessageHandler topicFilter messageHandler => exact .refl _ _

theorem performCalls_approximates (calls : List (Call H)) :
    Approximates .outOfFuel (performCalls p fuel calls) (performCalls p fuel' calls) := by
  induction calls with
  | nil => exact .refl _ _
  | cons call calls ih =>
    refine .bind (perform_approximates h call) fun reply => ?_
    exact .bind ih fun later => .refl _ _

end Approximates

/-- The milliseconds that a run may have to wait for at once. -/
def longestWaits (c : MQTTClient τ H) (calls : List (Call H)) : List ℕ :=
  1000 :: c.commandTimeoutMs :: calls.map Call.waits

/-- Fuel for the longest wait is enough. -/
theorem performCalls_finishes_longest (ticking : Ticking p clock deadline rate)
    {calls : List (Call H)} {c : MQTTClient τ H} {fuel : ℕ}
    (hfuel : ∀ ms ∈ longestWaits c calls, rate * ms < fuel) :
    Finishes clock 0 c.commandTimeoutMs (performCalls p fuel calls) := by
  have hping : rate * 1000 < fuel := hfuel 1000 (by simp [longestWaits])
  have hlimit : rate * c.commandTimeoutMs < fuel := hfuel _ (by simp [longestWaits])
  refine performCalls_finishes ticking hping hlimit fun call hcall => ?_
  exact hfuel call.waits (by simp [longestWaits, List.mem_map_of_mem hcall])

/-- Whatever the application calls and whatever the network answers, the calls return: the
run has one result, which any fuel for its longest wait leads to. -/
theorem performCalls_returns (ticking : Ticking p clock deadline rate) (calls : List (Call H))
    (s : Client ω τ H) : ∃ result, (∀ t, result ≠ .error .outOfFuel t) ∧
      ∀ fuel, (∀ ms ∈ longestWaits s.client calls, rate * ms < fuel) →
        performCalls p fuel calls s = result := by
  apply Approximates.settles fun h => performCalls_approximates h calls
  · exact exists_fuel rate (longestWaits s.client calls)
  · intro fuel hfuel
    exact performCalls_finishes_longest ticking hfuel s ⟨Nat.zero_le _, le_rfl⟩

/-- A client that has 30 milliseconds for a command. -/
def stalledClient : Client ℕ ℕ Unit where
  client :=
    { nextPacketid := 1
      commandTimeoutMs := 30
      buf := List.replicate 16 0
      readbuf := List.replicate 16 0
      keepAliveInterval := 60
      pingOutstanding := false
      isconnected := true
      cleansession := true
      messageHandlers := []
      defaultMessageHandler := none
      lastSent := 60000
      lastReceived := 60000 }
  own := ()
  world := 0

/-- Waiting for packets and then disconnecting. -/
theorem performCalls_returns_stalled : ∃ result, (∀ t, result ≠ .error .outOfFuel t) ∧
    ∀ fuel, (∀ ms ∈ longestWaits stalledClient.client [.yield 50, .disconnect], 1 * ms < fuel) →
      performCalls stalledPlatform fuel [.yield 50, .disconnect] stalledClient = result :=
  performCalls_returns stalledPlatform_ticking _ _

end MqttEmbedded.ClientC
