import MqttEmbedded.Client.TwoPlatforms
import MqttEmbedded.ClientC.Termination

/-!
# The C client on two platforms

Function by function, in the order of the source: on platforms that answer alike each of
them returns the same and leaves the same client.
-/

namespace MqttEmbedded.ClientC

open Hoare

variable {ω ω' τ H : Type} {p : Platform ω τ H} {p' : Platform ω' τ H} {W : ω → ω' → Prop}
  {size : ℕ}

theorem getNextPacketId_parallel :
    Parallel W size (getNextPacketId : Prog (Client ω τ H) UInt16) getNextPacketId := by
  refine .bind .getClient fun c => ?_
  exact .bind (.modifyClient fun _ => rfl) fun _ => .pure _

theorem mqttSetMessageHandler_parallel (topicFilter : CString) (messageHandler : Option H) :
    Parallel W size (mqttSetMessageHandler topicFilter messageHandler : Prog (Client ω τ H) ℤ)
      (mqttSetMessageHandler topicFilter messageHandler) := by
  refine .bind .getClient fun c => ?_
  exact .bind (.modifyClient fun _ => rfl) fun _ => .pure _

theorem mqttCloseSession_parallel :
    Parallel W size (mqttCloseSession : Prog (Client ω τ H) PUnit) mqttCloseSession := by
  refine .bind (.modifyClient fun _ => rfl) fun _ => .bind .getClient fun c => ?_
  exact .ite (.modifyClient fun _ => rfl) (.pure _)

theorem closeOnFailure_parallel (rc : ℤ) :
    Parallel W size (closeOnFailure rc : Prog (Client ω τ H) PUnit) (closeOnFailure rc) :=
  .ite mqttCloseSession_parallel (.pure _)

section Alike

variable (alike : p.Alike p' W) (fuel : ℕ)
include alike

theorem sendLoop_parallel (length : ℕ) (timer : τ) (sent : ℕ) :
    Parallel W size (sendLoop p length timer fuel sent : Prog (Client ω τ H) ℕ)
      (sendLoop p' length timer fuel sent) := by
  induction fuel generalizing sent with
  | zero => exact .throw _
  | succ fuel ih =>
    refine .ite (.bind (.ask (alike.timerIsExpired timer)) fun expired => ?_) (.pure sent)
    refine .ite (.pure sent) (.bind (.ask (alike.timerLeftMS timer)) fun left => ?_)
    refine .bind .getClient fun c => ?_
    refine .bind (.ask (alike.mqttwrite (c.buf.drop sent) length left)) fun rc => ?_
    exact .ite (.pure sent) (ih _)

theorem sendPacket_parallel (length : ℕ) (timer : τ) :
    Parallel W size (sendPacket p fuel length timer : Prog (Client ω τ H) ℤ)
      (sendPacket p' fuel length timer) := by
  refine .bind (sendLoop_parallel alike fuel length timer 0) fun sent => ?_
  refine .ite (.bind .getClient fun c => ?_) (.pure failure)
  refine .bind (.ask (alike.timerCountdown c.lastSent c.keepAliveInterval)) fun lastSent => ?_
  exact .bind (.modifyClient fun _ => rfl) fun _ => .pure success

theorem keepaliveDue_parallel :
    Parallel W size (keepaliveDue p : Prog (Client ω τ H) Bool) (keepaliveDue p') := by
  refine .bind .getClient fun c => .bind (.ask (alike.timerIsExpired c.lastSent)) fun expired => ?_
  exact .ite (.pure true) (.ask (alike.timerIsExpired c.lastReceived))

theorem sendPing_parallel :
    Parallel W size (sendPing p fuel : Prog (Client ω τ H) ℤ) (sendPing p' fuel) := by
  refine .bind (newTimer_parallel alike 1000) fun timer => ?_
  refine .bind (.serialize mqttSerializePingreq) fun len => .ite (.pure success) ?_
  refine .bind (sendPacket_parallel alike fuel len.toNat timer) fun rc => .ite ?_ (.pure rc)
  exact .bind (.modifyClient fun _ => rfl) fun _ => .pure success

theorem keepalive_parallel :
    Parallel W size (keepalive p fuel : Prog (Client ω τ H) ℤ) (keepalive p' fuel) := by
  refine .bind .getClient fun c => .ite (.pure success) ?_
  refine .bind (keepaliveDue_parallel alike) fun due => .ite ?_ (.pure success)
  exact .ite (.pure failure) (sendPing_parallel alike fuel)

/-- A packet is sent, unless it could not be serialised, and then it is gone on with. -/
theorem transmit_parallel {α : Type} {len : ℤ} {timer : τ} {short : α} {refused : ℤ → α}
    {next : Prog (Client ω τ H) α} {next' : Prog (Client ω' τ H) α}
    (hnext : Parallel W size next next') :
    Parallel W size
      (if len ≤ 0 then pure short
        else do
          let rc ← sendPacket p fuel len.toNat timer
          if rc ≠ success then pure (refused rc) else next)
      (if len ≤ 0 then pure short
        else do
          let rc ← sendPacket p' fuel len.toNat timer
          if rc ≠ success then pure (refused rc) else next') := by
  refine .ite (.pure short) (.bind (sendPacket_parallel alike fuel len.toNat timer) fun rc => ?_)
  exact .ite (.pure (refused rc)) hnext

omit fuel

theorem deliver_parallel (topicName : MQTTString) (msg : MQTTMessage) :
    Parallel W size (deliver p topicName msg : Prog (Client ω τ H) PUnit)
      (deliver p' topicName msg) :=
  .bind (deliverMessage_parallel alike topicName msg) fun _ => .pure _

theorem deliverUnread_parallel (topic : StringRead) (msg : MQTTMessage) :
    Parallel W size (deliverUnread p topic msg : Prog (Client ω τ H) PUnit)
      (deliverUnread p' topic msg) := by
  cases topic with
  | read topicName curdata => exact deliver_parallel alike topicName msg
  | refused len => exact .bind .getClient fun c => .ite (.throw _) (.pure _)

end Alike

section Calls

variable (alike : p.Alike p' W)
  (reads : ∀ timer, Parallel W size (readPacket p timer : Prog (Client ω τ H) ℤ)
    (readPacket p' timer)) (fuel : ℕ)
include alike reads

theorem variant_parallel : (variant p fuel).Parallel (variant p' fuel) W size where
  readPacket := reads
  sendPacket := sendPacket_parallel alike fuel
  keepalive := keepalive_parallel alike fuel
  closeSession := mqttCloseSession_parallel
  deliver := deliver_parallel alike
  deliverUnread := deliverUnread_parallel alike
  answered := fun _ _ => .pure _

theorem waitfor_parallel (packetType : MsgType) (timer : τ) :
    Parallel W size (waitfor p fuel packetType timer) (waitfor p' fuel packetType timer) :=
  (variant_parallel alike reads fuel).waitfor alike fuel packetType timer

theorem yieldLoop_parallel (timer : τ) (rounds : ℕ) :
    Parallel W size (yieldLoop p fuel timer rounds) (yieldLoop p' fuel timer rounds) := by
  induction rounds with
  | zero => exact .throw _
  | succ rounds ih =>
    have hcycle := (variant_parallel alike reads fuel).cycle timer
    refine .bind hcycle fun rc => .ite (.pure failure) ?_
    refine .bind (.ask (alike.timerIsExpired timer)) fun expired => ?_
    exact .ite (.pure success) ih

theorem mqttYield_parallel (timeoutMs : ℕ) :
    Parallel W size (mqttYield p fuel timeoutMs) (mqttYield p' fuel timeoutMs) := by
  refine .bind (newTimer_parallel alike timeoutMs) fun timer => ?_
  exact yieldLoop_parallel alike reads fuel timer fuel

theorem await_parallel {α : Type} (packetType : MsgType) (timer : τ) {missed : α}
    {got : MQTTClient τ H → Prog (Client ω τ H) α} {got' : MQTTClient τ H → Prog (Client ω' τ H) α}
    (hgot : ∀ c, Parallel W size (got c) (got' c)) :
    Parallel W size
      (do
        let rc ← waitfor p fuel packetType timer
        if rc = packetType.code then do
          let c ← getClient
          got c
        else pure missed)
      (do
        let rc ← waitfor p' fuel packetType timer
        if rc = packetType.code then do
          let c ← getClient
          got' c
        else pure missed) := by
  refine .bind (waitfor_parallel alike reads fuel packetType timer) fun rc => ?_
  exact .ite (.bind .getClient hgot) (.pure missed)

theorem awaitConnack_parallel (timer : τ) (data : ConnackFields) :
    Parallel W size (awaitConnack p fuel timer data) (awaitConnack p' fuel timer data) := by
  refine await_parallel alike reads fuel .connack timer fun c => ?_
  exact .bind (.ofOption _) fun result => .pure _

theorem awaitSuback_parallel (topicFilter : CString) (messageHandler : Option H) (timer : τ)
    (data : ℤ) : Parallel W size (awaitSuback p fuel topicFilter messageHandler timer data)
      (awaitSuback p' fuel topicFilter messageHandler timer data) := by
  refine await_parallel alike reads fuel .suback timer fun c => ?_
  refine .bind (.ofOption _) fun result => .ite ?_ (.pure _)
  exact .bind (mqttSetMessageHandler_parallel topicFilter messageHandler) fun rc => .pure _

theorem awaitUnsuback_parallel (topicFilter : CString) (timer : τ) :
    Parallel W size (awaitUnsuback p fuel topicFilter timer)
      (awaitUnsuback p' fuel topicFilter timer) := by
  refine await_parallel alike reads fuel .unsuback timer fun c => ?_
  refine .bind (.ofOption _) fun result => .ite ?_ (.pure _)
  exact .bind (mqttSetMessageHandler_parallel topicFilter none) fun _ => .pure _

theorem awaitAck_parallel (packetType : MsgType) (timer : τ) :
    Parallel W size (awaitAck p fuel packetType timer) (awaitAck p' fuel packetType timer) := by
  refine await_parallel alike reads fuel packetType timer fun c => ?_
  exact .bind (.ofOption _) fun result => .pure _

theorem awaitPublished_parallel (qos : ℕ) (timer : τ) :
    Parallel W size (awaitPublished p fuel qos timer) (awaitPublished p' fuel qos timer) := by
  have hpuback := awaitAck_parallel alike reads fuel .puback timer
  have hpubcomp := awaitAck_parallel alike reads fuel .pubcomp timer
  exact .ite hpuback (.ite hpubcomp (.pure success))

theorem connectExchange_parallel (options : ConnectData) (data : ConnackFields) :
    Parallel W size (connectExchange p fuel options data)
      (connectExchange p' fuel options data) := by
  refine .bind .getClient fun c => .ite (.pure _) ?_
  refine .bind (newTimer_parallel alike c.commandTimeoutMs) fun timer => ?_
  refine .bind (.modifyClient fun _ => rfl) fun _ => .bind .getClient fun c => ?_
  have hcountdown := alike.timerCountdown c.lastReceived c.keepAliveInterval
  refine .bind (.ask hcountdown) fun lastReceived => .bind (.modifyClient fun _ => rfl) fun _ => ?_
  refine .bind (.serialize _) fun len => ?_
  exact transmit_parallel alike fuel (awaitConnack_parallel alike reads fuel timer data)

theorem subscribeExchange_parallel (topicFilter : CString) (qos : ℕ)
    (messageHandler : Option H) (data : ℤ) :
    Parallel W size (subscribeExchange p fuel topicFilter qos messageHandler data)
      (subscribeExchange p' fuel topicFilter qos messageHandler data) := by
  refine .bind .getClient fun c => .ite ?_ (.pure _)
  refine .bind (newTimer_parallel alike c.commandTimeoutMs) fun timer => ?_
  refine .bind getNextPacketId_parallel fun id => .bind (.serialize _) fun len => ?_
  have hawait := awaitSuback_parallel alike reads fuel topicFilter messageHandler timer data
  exact transmit_parallel alike fuel hawait

theorem unsubscribeExchange_parallel (topicFilter : CString) :
    Parallel W size (unsubscribeExchange p fuel topicFilter)
      (unsubscribeExchange p' fuel topicFilter) := by
  refine .bind .getClient fun c => .ite ?_ (.pure _)
  refine .bind (newTimer_parallel alike c.commandTimeoutMs) fun timer => ?_
  refine .bind getNextPacketId_parallel fun id => .bind (.serialize _) fun len => ?_
  exact transmit_parallel alike fuel (awaitUnsuback_parallel alike reads fuel topicFilter timer)

omit alike reads in
theorem numberMessage_parallel (message : MQTTMessage) :
    Parallel W size (numberMessage message : Prog (Client ω τ H) MQTTMessage)
      (numberMessage message) := by
  refine .ite ?_ (.pure message)
  exact .bind getNextPacketId_parallel fun id => .pure _

theorem publishExchange_parallel (topicName : CString) (message : MQTTMessage) :
    Parallel W size (publishExchange p fuel topicName message)
      (publishExchange p' fuel topicName message) := by
  refine .bind .getClient fun c => .ite ?_ (.pure _)
  refine .bind (newTimer_parallel alike c.commandTimeoutMs) fun timer => ?_
  refine .bind (numberMessage_parallel message) fun message => .bind (.serialize _) fun len => ?_
  refine transmit_parallel alike fuel ?_
  exact .bind (awaitPublished_parallel alike reads fuel message.qos timer) fun rc => .pure _

theorem mqttConnect_parallel (options : Option ConnectData) :
    Parallel W size (mqttConnect p fuel options) (mqttConnect p' fuel options) := by
  refine .bind (.bind ?_ fun result => ?_) fun result => .pure result.1
  · exact connectExchange_parallel alike reads fuel _ _
  refine .ite ?_ (.pure result)
  exact .bind (.modifyClient fun _ => rfl) fun _ => .pure result

theorem mqttPublish_parallel (topicName : CString) (message : MQTTMessage) :
    Parallel W size (mqttPublish p fuel topicName message)
      (mqttPublish p' fuel topicName message) := by
  refine .bind (publishExchange_parallel alike reads fuel topicName message) fun result => ?_
  exact .bind (closeOnFailure_parallel result.1) fun _ => .pure result

theorem mqttSubscribe_parallel (topicFilter : CString) (qos : ℕ) (messageHandler : Option H) :
    Parallel W size (mqttSubscribe p fuel topicFilter qos messageHandler)
      (mqttSubscribe p' fuel topicFilter qos messageHandler) := by
  have hexchange := subscribeExchange_parallel alike reads fuel topicFilter qos messageHandler 0
  refine .bind (.bind hexchange fun result => ?_) fun result => .pure result.1
  exact .bind (closeOnFailure_parallel result.1) fun _ => .pure result

theorem mqttUnsubscribe_parallel (topicFilter : CString) :
    Parallel W size (mqttUnsubscribe p fuel topicFilter)
      (mqttUnsubscribe p' fuel topicFilter) := by
  refine .bind (unsubscribeExchange_parallel alike reads fuel topicFilter) fun rc => ?_
  exact .bind (closeOnFailure_parallel rc) fun _ => .pure rc

omit reads in
theorem mqttDisconnect_parallel :
    Parallel W size (mqttDisconnect p fuel : Prog (Client ω τ H) ℤ) (mqttDisconnect p' fuel) := by
  refine .bind .getClient fun c => ?_
  refine .bind (newTimer_parallel alike c.commandTimeoutMs) fun timer => ?_
  refine .bind (.serialize mqttSerializeDisconnect) fun len => .ite ?_ ?_
  · refine .bind (sendPacket_parallel alike fuel len.toNat timer) fun rc => ?_
    exact .bind mqttCloseSession_parallel fun _ => .pure rc
  · exact .bind mqttCloseSession_parallel fun _ => .pure failure

theorem perform_parallel (call : Call H) :
    Parallel W size (perform p fuel call) (perform p' fuel call) := by
  cases call with
  | connect options =>
    exact .bind (mqttConnect_parallel alike reads fuel options) fun rc => .pure _
  | publish topicName message =>
    exact .bind (mqttPublish_parallel alike reads fuel topicName message) fun result => .pure _
  | subscribe topicFilter qos messageHandler =>
    have hsubscribe := mqttSubscribe_parallel alike reads fuel topicFilter qos messageHandler
    exact .bind hsubscribe fun rc => .pure _
  | unsubscribe topicFilter =>
    exact .bind (mqttUnsubscribe_parallel alike reads fuel topicFilter) fun rc => .pure _
  | yield timeoutMs =>
    exact .bind (mqttYield_parallel alike reads fuel timeoutMs) fun rc => .pure _
  | disconnect => exact .bind (mqttDisconnect_parallel alike fuel) fun rc => .pure _
  | setMessageHandler topicFilter messageHandler =>
    exact .bind (mqttSetMessageHandler_parallel topicFilter messageHandler) fun rc => .pure _

theorem performCalls_parallel (calls : List (Call H)) :
    Parallel W size (performCalls p fuel calls) (performCalls p' fuel calls) := by
  induction calls with
  | nil => exact .pure _
  | cons call calls ih =>
    refine .bind (perform_parallel alike reads fuel call) fun reply => ?_
    exact .bind ih fun later => .pure _

end Calls

/-- The application replaces a connection on which a call has not succeeded. -/
def renewUnlessSuccess (renew : ω → ω) (rc : ℤ) : Prog (Client ω τ H) PUnit :=
  if rc = success then pure ⟨⟩ else modify fun s => { s with world := renew s.world }

/-- One call after the other, and a new connection after each that does not succeed. -/
def converse (p : Platform ω τ H) (renew : ω → ω) (fuel : ℕ) :
    List (Call H) → Prog (Client ω τ H) (List Reply)
  | [] => pure []
  | call :: calls => do
    let reply ← perform p fuel call
    renewUnlessSuccess renew reply.rc
    let later ← converse p renew fuel calls
    pure (reply :: later)

theorem renewUnlessSuccess_parallel {renew : ω → ω} {renew' : ω' → ω'}
    (hrenew : ∀ w w', W w w' → W (renew w) (renew' w')) (rc : ℤ) :
    Parallel W size (renewUnlessSuccess renew rc : Prog (Client ω τ H) PUnit)
      (renewUnlessSuccess renew' rc) := by
  refine .ite (.pure _) ?_
  intro s s' hs
  exact .ok ⟨hs.client, hs.own, hrenew s.world s'.world hs.world, hs.size⟩

theorem converse_parallel {renew : ω → ω} {renew' : ω' → ω'} (alike : p.Alike p' W)
    (hrenew : ∀ w w', W w w' → W (renew w) (renew' w'))
    (reads : ∀ timer, Parallel W size (readPacket p timer : Prog (Client ω τ H) ℤ)
      (readPacket p' timer)) (fuel : ℕ) (calls : List (Call H)) :
    Parallel W size (converse p renew fuel calls) (converse p' renew' fuel calls) := by
  induction calls with
  | nil => exact .pure _
  | cons call calls ih =>
    refine .bind (perform_parallel alike reads fuel call) fun reply => ?_
    refine .bind (renewUnlessSuccess_parallel hrenew reply.rc) fun _ => ?_
    exact .bind ih fun later => .pure _

end MqttEmbedded.ClientC
