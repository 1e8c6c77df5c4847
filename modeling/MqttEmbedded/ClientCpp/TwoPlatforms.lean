import MqttEmbedded.Client.TwoPlatforms
import MqttEmbedded.ClientCpp.Operations

/-!
# The C++ client on two platforms

Function by function, in the order of the source: on platforms that answer alike each of
them returns the same and leaves the same client.
-/

namespace MqttEmbedded.ClientCpp

open Hoare

variable {ω ω' τ H : Type} {p : Platform ω τ H} {p' : Platform ω' τ H} {W : ω → ω' → Prop}
  {size : ℕ}

theorem note_parallel (o : Occurrence) :
    Parallel W size (note o : Prog (Client ω τ H) PUnit) (note o) := .modifyOwn _

theorem getNext_parallel :
    Parallel W size (getNext : Prog (Client ω τ H) UInt16) getNext := by
  refine .bind .getClient fun c => ?_
  exact .bind (.modifyClient fun _ => rfl) fun _ => .pure _

theorem setHandler_parallel (topicFilter : CString) (messageHandler : Option H) :
    Parallel W size (setHandler topicFilter messageHandler : Prog (Client ω τ H) ℤ)
      (setHandler topicFilter messageHandler) := by
  refine .bind .getClient fun c => ?_
  exact .bind (.modifyClient fun _ => rfl) fun _ => .pure _

theorem cleanSession_parallel :
    Parallel W size (cleanSession : Prog (Client ω τ H) PUnit) cleanSession :=
  .bind (.modifyClient fun _ => rfl) fun _ => .modifyOwn _

theorem closeSession_parallel :
    Parallel W size (closeSession : Prog (Client ω τ H) PUnit) closeSession := by
  refine .bind (.modifyClient fun _ => rfl) fun _ => .bind .getClient fun c => ?_
  exact .ite cleanSession_parallel (.pure _)

theorem closeOnFailure_parallel (rc : ℤ) :
    Parallel W size (closeOnFailure rc : Prog (Client ω τ H) PUnit) (closeOnFailure rc) :=
  .ite closeSession_parallel (.pure _)

theorem closeUnlessSuccess_parallel (rc : ℤ) :
    Parallel W size (closeUnlessSuccess rc : Prog (Client ω τ H) PUnit) (closeUnlessSuccess rc) :=
  .ite closeSession_parallel (.pure _)

theorem answered_parallel (packetType : MsgType) (id : UInt16) :
    Parallel W size (answered packetType id : Prog (Client ω τ H) PUnit)
      (answered packetType id) :=
  .ite (.modifyOwn _) (.pure _)

theorem storePublish_parallel (len : ℕ) (id : UInt16) (qos : ℕ) :
    Parallel W size (storePublish len id qos : Prog (Client ω τ H) PUnit)
      (storePublish len id qos) := by
  refine .bind .getClient fun c => .bind (note_parallel _) fun _ => ?_
  exact .ite (.pure _) (.modifyOwn _)

theorem takeAck_parallel :
    Parallel W size (takeAck : Prog (Client ω τ H) ℤ) takeAck := by
  refine .bind .getClient fun c => .bind (.ofOption _) fun result => .ite (.pure failure) ?_
  refine .bind (.ofOption _) fun mypacketid => ?_
  exact .bind (.modifyOwn _) fun _ => .pure success

theorem publishId_parallel (id : UInt16) (qos : ℕ) :
    Parallel W size (publishId id qos : Prog (Client ω τ H) UInt16) (publishId id qos) :=
  .ite getNext_parallel (.pure id)

section Alike

variable (alike : p.Alike p' W) (fuel : ℕ)
include alike

theorem deliver_parallel (topicName : MQTTString) (msg : MQTTMessage) :
    Parallel W size (deliver p topicName msg : Prog (Client ω τ H) PUnit)
      (deliver p' topicName msg) := by
  have hdeliver : Parallel W size
      (do
        note (.delivered msg.qos msg.id)
        let _ ← deliverMessage p topicName msg
        pure ⟨⟩ : Prog (Client ω τ H) PUnit)
      (do
        note (.delivered msg.qos msg.id)
        let _ ← deliverMessage p' topicName msg
        pure ⟨⟩) := by
    refine .bind (note_parallel _) fun _ => ?_
    exact .bind (deliverMessage_parallel alike topicName msg) fun _ => .pure _
  refine .ite hdeliver (.bind (.ofOption msg.id) fun id => .bind .getOwn fun own => ?_)
  refine .ite ?_ (.pure _)
  cases useQoS2msgid own.incomingQoS2messages id with
  | none => exact .pure _
  | some slots => exact .bind (.modifyOwn _) fun _ => hdeliver

theorem deliverUnread_parallel (topic : StringRead) (msg : MQTTMessage) :
    Parallel W size (deliverUnread p topic msg : Prog (Client ω τ H) PUnit)
      (deliverUnread p' topic msg) := by
  refine .bind .getClient fun c => .ite (.throw _) ?_
  exact deliver_parallel alike (topic.stored mqttStringInitializer) msg

theorem sendLoop_parallel (length : ℕ) (timer : τ) (sent : ℕ) :
    Parallel W size (sendLoop p length timer fuel sent : Prog (Client ω τ H) ℕ)
      (sendLoop p' length timer fuel sent) := by
  induction fuel generalizing sent with
  | zero => exact .throw _
  | succ fuel ih =>
    refine .ite (.bind (.ask (alike.timerLeftMS timer)) fun left => ?_) (.pure sent)
    refine .bind .getClient fun c => ?_
    have hwrite := alike.mqttwrite (c.buf.drop sent) (length - sent) left
    refine .bind (.ask hwrite) fun rc => .ite (.pure sent) ?_
    refine .bind (.ask (alike.timerIsExpired timer)) fun expired => ?_
    exact .ite (.pure _) (ih _)

theorem recordSent_parallel :
    Parallel W size (recordSent p : Prog (Client ω τ H) PUnit) (recordSent p') := by
  refine .bind .getClient fun c => .ite ?_ (.pure _)
  refine .bind (.ask (alike.timerCountdown c.lastSent c.keepAliveInterval)) fun lastSent => ?_
  exact .modifyClient fun _ => rfl

theorem transmit_parallel (length : ℕ) (timer : τ) :
    Parallel W size (transmit p fuel length timer : Prog (Client ω τ H) ℤ)
      (transmit p' fuel length timer) := by
  refine .bind (sendLoop_parallel alike fuel length timer 0) fun sent => .ite ?_ (.pure failure)
  exact .bind (recordSent_parallel alike) fun _ => .pure success

theorem sendPacket_parallel (length : ℕ) (timer : τ) :
    Parallel W size (sendPacket p fuel length timer : Prog (Client ω τ H) ℤ)
      (sendPacket p' fuel length timer) := by
  refine .bind .getClient fun c => .bind (transmit_parallel alike fuel length timer) fun rc => ?_
  exact .bind (note_parallel _) fun _ => .pure rc

theorem keepaliveDue_parallel :
    Parallel W size (keepaliveDue p : Prog (Client ω τ H) Bool) (keepaliveDue p') := by
  refine .bind .getClient fun c => .bind (.ask (alike.timerIsExpired c.lastSent)) fun expired => ?_
  exact .ite (.pure true) (.ask (alike.timerIsExpired c.lastReceived))

theorem sendPing_parallel :
    Parallel W size (sendPing p fuel : Prog (Client ω τ H) ℤ) (sendPing p' fuel) := by
  refine .bind (newTimer_parallel alike 1000) fun timer => ?_
  refine .bind (.serialize mqttSerializePingreq) fun len => .ite (.pure success) ?_
  refine .bind (sendPacket_parallel alike fuel len.toNat timer) fun rc => .ite ?_ (.pure rc)
  refine .bind (.modifyClient fun _ => rfl) fun _ => .bind .getClient fun c => ?_
  refine .bind .getOwn fun own => ?_
  refine .bind (.ask (alike.timerCountdown own.pingSent c.keepAliveInterval)) fun pingSent => ?_
  exact .bind (.modifyOwn _) fun _ => .pure success

theorem checkPing_parallel :
    Parallel W size (checkPing p fuel : Prog (Client ω τ H) ℤ) (checkPing p' fuel) := by
  refine .bind .getClient fun c => .ite ?_ ?_
  · refine .bind .getOwn fun own => ?_
    exact .bind (.ask (alike.timerIsExpired own.pingSent)) fun expired => .pure _
  · refine .bind (keepaliveDue_parallel alike) fun due => ?_
    exact .ite (sendPing_parallel alike fuel) (.pure success)

theorem keepalive_parallel :
    Parallel W size (keepalive p fuel : Prog (Client ω τ H) ℤ) (keepalive p' fuel) := by
  have hping : Parallel W size (pingIfDue p fuel : Prog (Client ω τ H) ℤ) (pingIfDue p' fuel) :=
    .bind .getClient fun c => .ite (.pure success) (checkPing_parallel alike fuel)
  refine .bind .getClient fun before => .bind hping fun rc => .bind .getClient fun after => ?_
  exact .bind (note_parallel _) fun _ => .pure rc

end Alike

section Calls

variable (alike : p.Alike p' W)
  (reads : ∀ timer, Parallel W size (readPacketWith p tooLong 1 timer : Prog (Client ω τ H) ℤ)
    (readPacketWith p' tooLong 1 timer)) (fuel : ℕ)
include alike reads

omit alike in
theorem readPacket_parallel (timer : τ) :
    Parallel W size (readPacket p timer : Prog (Client ω τ H) ℤ) (readPacket p' timer) := by
  refine .bind (reads timer) fun packetType => .bind .getClient fun c => ?_
  exact .bind (note_parallel _) fun _ => .pure packetType

theorem variant_parallel : (variant p fuel).Parallel (variant p' fuel) W size where
  readPacket := readPacket_parallel reads
  sendPacket := sendPacket_parallel alike fuel
  keepalive := keepalive_parallel alike fuel
  closeSession := closeSession_parallel
  deliver := deliver_parallel alike
  deliverUnread := deliverUnread_parallel alike
  answered := answered_parallel

theorem waitfor_parallel (packetType : MsgType) (timer : τ) :
    Parallel W size (waitfor p fuel packetType timer) (waitfor p' fuel packetType timer) :=
  (variant_parallel alike reads fuel).waitfor alike fuel packetType timer

theorem yieldLoop_parallel (timer : τ) (rounds : ℕ) :
    Parallel W size (yieldLoop p fuel timer rounds) (yieldLoop p' fuel timer rounds) := by
  induction rounds with
  | zero => exact .throw _
  | succ rounds ih =>
    refine .bind (.ask (alike.timerIsExpired timer)) fun expired => .ite (.pure success) ?_
    refine .bind ((variant_parallel alike reads fuel).cycle timer) fun rc => ?_
    exact .ite (.pure failure) ih

theorem yield_parallel (timeoutMs : ℕ) :
    Parallel W size (yield p fuel timeoutMs) (yield p' fuel timeoutMs) := by
  refine .bind (newTimer_parallel alike timeoutMs) fun timer => ?_
  exact yieldLoop_parallel alike reads fuel timer fuel

theorem awaitAck_parallel (packetType : MsgType) (timer : τ) :
    Parallel W size (awaitAck p fuel packetType timer) (awaitAck p' fuel packetType timer) := by
  refine .bind (note_parallel _) fun _ => ?_
  refine .bind (waitfor_parallel alike reads fuel packetType timer) fun rc => ?_
  refine .bind (note_parallel _) fun _ => ?_
  exact .ite takeAck_parallel (.pure failure)

theorem awaitPublished_parallel (qos : ℕ) (timer : τ) :
    Parallel W size (awaitPublished p fuel qos timer) (awaitPublished p' fuel qos timer) := by
  have hpuback := awaitAck_parallel alike reads fuel .puback timer
  have hpubcomp := awaitAck_parallel alike reads fuel .pubcomp timer
  exact .ite hpuback (.ite hpubcomp (.pure success))

theorem publishPacket_parallel (len : ℕ) (timer : τ) (qos : ℕ) :
    Parallel W size (publishPacket p fuel len timer qos) (publishPacket p' fuel len timer qos) := by
  refine .bind (sendPacket_parallel alike fuel len timer) fun rc => .ite ?_ ?_
  · exact .bind closeSession_parallel fun _ => .pure rc
  · refine .bind (awaitPublished_parallel alike reads fuel qos timer) fun rc => ?_
    exact .bind (closeUnlessSuccess_parallel rc) fun _ => .pure rc

theorem publish_parallel (topicName : CString) (payload : List UInt8) (payloadlen : ℕ)
    (id : UInt16) (qos : ℕ) (retained : Bool) :
    Parallel W size (publish p fuel topicName payload payloadlen id qos retained)
      (publish p' fuel topicName payload payloadlen id qos retained) := by
  refine .bind .getClient fun c => ?_
  refine .bind (newTimer_parallel alike c.commandTimeoutMs) fun timer => .ite ?_ (.pure _)
  refine .bind (publishId_parallel id qos) fun id => ?_
  refine .bind (.serialize _) fun len => .ite (.pure _) ?_
  refine .bind (storePublish_parallel len.toNat id qos) fun _ => ?_
  exact .bind (publishPacket_parallel alike reads fuel len.toNat timer qos) fun rc => .pure _

theorem resend_parallel (len : ℕ) (timer : τ) (qos : ℕ) :
    Parallel W size (resend p fuel len timer qos) (resend p' fuel len timer qos) := by
  refine .bind .getClient fun c => .bind (note_parallel _) fun _ => ?_
  exact publishPacket_parallel alike reads fuel len timer qos

theorem resume_parallel (timer : τ) (rc : ℤ) :
    Parallel W size (resume p fuel timer rc) (resume p' fuel timer rc) := by
  refine .bind (note_parallel _) fun _ => .bind .getOwn fun own => .ite ?_ (.ite ?_ (.pure rc))
  · refine .bind (.serialize _) fun len => .ite (.pure failure) ?_
    exact resend_parallel alike reads fuel len.toNat timer own.inflightQoS
  · refine .bind (.modifyClient fun _ => rfl) fun _ => ?_
    exact resend_parallel alike reads fuel own.inflightLen timer own.inflightQoS

theorem await_parallel (packetType : MsgType) (timer : τ)
    {got : MQTTClient τ H → Prog (Client ω τ H) ℤ} {got' : MQTTClient τ H → Prog (Client ω' τ H) ℤ}
    (hgot : ∀ c, Parallel W size (got c) (got' c)) :
    Parallel W size
      (do
        let rc ← waitfor p fuel packetType timer
        if rc = packetType.code then do
          let c ← getClient
          got c
        else pure failure)
      (do
        let rc ← waitfor p' fuel packetType timer
        if rc = packetType.code then do
          let c ← getClient
          got' c
        else pure failure) := by
  refine .bind (waitfor_parallel alike reads fuel packetType timer) fun rc => ?_
  exact .ite (.bind .getClient hgot) (.pure failure)

theorem awaitConnack_parallel (timer : τ) :
    Parallel W size (awaitConnack p fuel timer) (awaitConnack p' fuel timer) := by
  refine await_parallel alike reads fuel .connack timer fun c => ?_
  exact .bind (.ofOption _) fun result => .pure _

theorem awaitSuback_parallel (topicFilter : CString) (messageHandler : Option H) (timer : τ) :
    Parallel W size (awaitSuback p fuel topicFilter messageHandler timer)
      (awaitSuback p' fuel topicFilter messageHandler timer) := by
  refine await_parallel alike reads fuel .suback timer fun c => ?_
  refine .bind (.ofOption _) fun result => ?_
  exact .ite (setHandler_parallel topicFilter messageHandler) (.pure success)

theorem awaitUnsuback_parallel (topicFilter : CString) (timer : τ) :
    Parallel W size (awaitUnsuback p fuel topicFilter timer)
      (awaitUnsuback p' fuel topicFilter timer) := by
  refine await_parallel alike reads fuel .unsuback timer fun c => ?_
  refine .bind (.ofOption _) fun result => .ite ?_ (.pure success)
  exact .bind (setHandler_parallel topicFilter none) fun _ => .pure success

omit reads in
theorem request_parallel {f : UInt16 → List UInt8 → Option (ℤ × List UInt8)}
    {next : τ → Prog (Client ω τ H) ℤ} {next' : τ → Prog (Client ω' τ H) ℤ}
    (hnext : ∀ timer, Parallel W size (next timer) (next' timer)) :
    Parallel W size
      (do
        let c ← getClient
        let timer ← newTimer p c.commandTimeoutMs
        if c.isconnected then
          let id ← getNext
          let len ← serialize (f id)
          if len ≤ 0 then pure failure
          else
            let rc ← sendPacket p fuel len.toNat timer
            if rc ≠ success then pure rc else next timer
        else pure failure)
      (do
        let c ← getClient
        let timer ← newTimer p' c.commandTimeoutMs
        if c.isconnected then
          let id ← getNext
          let len ← serialize (f id)
          if len ≤ 0 then pure failure
          else
            let rc ← sendPacket p' fuel len.toNat timer
            if rc ≠ success then pure rc else next' timer
        else pure failure) := by
  refine .bind .getClient fun c => ?_
  refine .bind (newTimer_parallel alike c.commandTimeoutMs) fun timer => .ite ?_ (.pure failure)
  refine .bind getNext_parallel fun id => .bind (.serialize (f id)) fun len => ?_
  refine .ite (.pure failure) ?_
  refine .bind (sendPacket_parallel alike fuel len.toNat timer) fun rc => ?_
  exact .ite (.pure rc) (hnext timer)

theorem connectExchange_parallel (options : ConnectData) :
    Parallel W size (connectExchange p fuel options) (connectExchange p' fuel options) := by
  refine .bind .getClient fun c => ?_
  refine .bind (newTimer_parallel alike c.commandTimeoutMs) fun timer => .ite (.pure failure) ?_
  refine .bind (.modifyClient fun _ => rfl) fun _ => ?_
  refine .bind (.serialize _) fun len => .ite (.pure failure) ?_
  refine .bind (sendPacket_parallel alike fuel len.toNat timer) fun rc => .ite (.pure rc) ?_
  refine .bind (recordReceived_parallel alike) fun _ => ?_
  refine .bind (awaitConnack_parallel alike reads fuel timer) fun rc => ?_
  exact resume_parallel alike reads fuel timer rc

theorem connect_parallel (options : ConnectData) :
    Parallel W size (connect p fuel options) (connect p' fuel options) := by
  refine .bind (connectExchange_parallel alike reads fuel options) fun rc => .ite ?_ (.pure rc)
  exact .bind (.modifyClient fun _ => rfl) fun _ => .pure rc

theorem subscribe_parallel (topicFilter : CString) (qos : ℕ) (messageHandler : Option H) :
    Parallel W size (subscribe p fuel topicFilter qos messageHandler)
      (subscribe p' fuel topicFilter qos messageHandler) := by
  have hawait := awaitSuback_parallel alike reads fuel topicFilter messageHandler
  refine .bind (request_parallel alike fuel hawait) fun rc => ?_
  exact .bind (closeOnFailure_parallel rc) fun _ => .pure rc

theorem unsubscribe_parallel (topicFilter : CString) :
    Parallel W size (unsubscribe p fuel topicFilter) (unsubscribe p' fuel topicFilter) := by
  have hawait := awaitUnsuback_parallel alike reads fuel topicFilter
  refine .bind (request_parallel alike fuel hawait) fun rc => ?_
  exact .bind (closeUnlessSuccess_parallel rc) fun _ => .pure rc

omit reads in
theorem disconnect_parallel :
    Parallel W size (disconnect p fuel : Prog (Client ω τ H) ℤ) (disconnect p' fuel) := by
  have hsend (timer : τ) : Parallel W size
      (sendDisconnect p fuel timer : Prog (Client ω τ H) ℤ) (sendDisconnect p' fuel timer) := by
    refine .bind (.serialize mqttSerializeDisconnect) fun len => ?_
    exact .ite (sendPacket_parallel alike fuel len.toNat timer) (.pure failure)
  refine .bind .getClient fun c => ?_
  refine .bind (newTimer_parallel alike c.commandTimeoutMs) fun timer => ?_
  refine .bind (hsend timer) fun rc => ?_
  exact .bind closeSession_parallel fun _ => .pure rc

theorem perform_parallel (call : Call H) :
    Parallel W size (perform p fuel call) (perform p' fuel call) := by
  cases call with
  | connect options => exact connect_parallel alike reads fuel _
  | publish topicName payload payloadlen id qos retained =>
    refine .bind ?_ fun result => .pure result.1
    exact publish_parallel alike reads fuel topicName payload payloadlen id qos retained
  | publishWithoutId topicName payload payloadlen qos retained =>
    refine .bind ?_ fun result => .pure result.1
    exact publish_parallel alike reads fuel topicName payload payloadlen 0 qos retained
  | publishMessage topicName message =>
    refine .bind ?_ fun result => .pure result.1
    exact publish_parallel alike reads fuel topicName message.payload message.payloadlen 0
      message.qos (message.retained ≠ 0)
  | subscribe topicFilter qos messageHandler =>
    exact subscribe_parallel alike reads fuel topicFilter qos messageHandler
  | unsubscribe topicFilter => exact unsubscribe_parallel alike reads fuel topicFilter
  | yield timeoutMs => exact yield_parallel alike reads fuel timeoutMs
  | disconnect => exact disconnect_parallel alike fuel
  | setMessageHandler topicFilter messageHandler =>
    exact setHandler_parallel topicFilter messageHandler
  | setDefaultMessageHandler messageHandler =>
    exact .bind (.modifyClient fun _ => rfl) fun _ => .pure success

end Calls

/-- One call after the other, whatever they return. -/
def performCalls (p : Platform ω τ H) (fuel : ℕ) : List (Call H) → Prog (Client ω τ H) (List ℤ)
  | [] => pure []
  | call :: calls => do
    let rc ← perform p fuel call
    let later ← performCalls p fuel calls
    pure (rc :: later)

theorem performCalls_parallel (alike : p.Alike p' W)
    (reads : ∀ timer, Parallel W size (readPacketWith p tooLong 1 timer : Prog (Client ω τ H) ℤ)
      (readPacketWith p' tooLong 1 timer)) (fuel : ℕ) (calls : List (Call H)) :
    Parallel W size (performCalls p fuel calls) (performCalls p' fuel calls) := by
  induction calls with
  | nil => exact .pure _
  | cons call calls ih =>
    refine .bind (perform_parallel alike reads fuel call) fun rc => ?_
    exact .bind ih fun later => .pure _

end MqttEmbedded.ClientCpp
