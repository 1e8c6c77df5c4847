import MqttEmbedded.Client.Cycle
import MqttEmbedded.Packet.SerializeSession

/-!
# The C client

The functions of `MQTTClient.c`, in the order of the source. A loop that only a
timer or the network ends is followed for `fuel` rounds; a run that needs more
has no result, and says so. A function of the API is its work up to the label `exit`,
and then what stands there.
-/

namespace MqttEmbedded.ClientC

open Region Hoare

variable {ω τ H : Type}

/-- The C client has no more than the shared fields. -/
abbrev Client (ω τ H : Type) := Session Unit ω τ H

variable (p : Platform ω τ H) (fuel : ℕ)

def maxPacketId : ℕ := 65535

def getNextPacketId : Prog (Client ω τ H) UInt16 := do
  let c ← getClient
  let next := if c.nextPacketid = maxPacketId then 1 else c.nextPacketid + 1
  modifyClient fun c => { c with nextPacketid := next }
  pure (UInt16.ofNat next)

/-- The loop of `sendPacket`; the result is `sent`. The whole of `length` is asked
for in every round. -/
def sendLoop (length : ℕ) (timer : τ) : ℕ → ℕ → Prog (Client ω τ H) ℕ
  | 0, _ => throw .outOfFuel
  | fuel + 1, sent =>
    if sent < length then do
      let expired ← ask (p.timerIsExpired timer)
      if expired then pure sent
      else
        let left ← ask (p.timerLeftMS timer)
        let c ← getClient
        let rc ← ask (p.mqttwrite (c.buf.drop sent) length left)
        if rc < 0 then pure sent -- there was an error writing the data
        else sendLoop length timer fuel (sent + rc.toNat)
    else pure sent

def sendPacket (length : ℕ) (timer : τ) : Prog (Client ω τ H) ℤ := do
  let sent ← sendLoop p length timer fuel 0
  if sent = length then
    -- record the fact that we have successfully sent the packet
    let c ← getClient
    let lastSent ← ask (p.timerCountdown c.lastSent c.keepAliveInterval)
    modifyClient fun c => { c with lastSent := lastSent }
    pure success
  else pure failure

/-- The fields that `MQTTClientInit` leaves alone are those of `old`. -/
def mqttClientInit (old : MQTTClient τ H) (commandTimeoutMs : ℕ) (sendbuf readbuf : List UInt8)
    (world : ω) : Client ω τ H :=
  let (lastSent, world) := p.timerInit world
  let (lastReceived, world) := p.timerInit world
  { client :=
      { old with
        messageHandlers := clearHandlers old.messageHandlers
        commandTimeoutMs := commandTimeoutMs
        buf := sendbuf
        readbuf := readbuf
        isconnected := false
        cleansession := false
        pingOutstanding := false
        defaultMessageHandler := none
        nextPacketid := 1
        lastSent := lastSent
        lastReceived := lastReceived }
    own := ()
    world := world }

/-- Subtraction of `size_t`; below zero it wraps. -/
def sizeSub (a b : ℕ) : ℕ := if b ≤ a then a - b else a + 2 ^ 64 - b

def tooLong (readbufSize len remLen : ℕ) : Bool := sizeSub readbufSize len < remLen

theorem tooLong_stored {w : WireFrame} {size : ℕ} (h : w.stored.length ≤ size) :
    tooLong size (1 + (Leb128.encode w.body.length).length) w.body.length = false := by
  rw [w.length_stored] at h
  have hle : 1 + (Leb128.encode w.body.length).length ≤ size := by omega
  simp only [tooLong, sizeSub, if_pos hle, decide_eq_false_iff_not, not_lt]
  omega

theorem tooLong_of_lt {w : WireFrame} {size : ℕ} (h : size < w.stored.length)
    (hle : 1 + (Leb128.encode w.body.length).length ≤ size) :
    tooLong size (1 + (Leb128.encode w.body.length).length) w.body.length = true := by
  rw [w.length_stored] at h
  simp only [tooLong, sizeSub, if_pos hle, decide_eq_true_eq]
  omega

def readPacket (timer : τ) : Prog (Client ω τ H) ℤ := readPacketWith p tooLong 0 timer

/-- `TimerIsExpired(&c->last_sent) || TimerIsExpired(&c->last_received)`. -/
def keepaliveDue : Prog (Client ω τ H) Bool := do
  let c ← getClient
  let expired ← ask (p.timerIsExpired c.lastSent)
  if expired then pure true else ask (p.timerIsExpired c.lastReceived)

def sendPing : Prog (Client ω τ H) ℤ := do
  let timer ← newTimer p 1000
  let len ← serialize mqttSerializePingreq
  if len ≤ 0 then pure success
  else
    let rc ← sendPacket p fuel len.toNat timer -- send the ping packet
    if rc = success then
      modifyClient fun c => { c with pingOutstanding := true }
      pure success
    else pure rc

def keepalive : Prog (Client ω τ H) ℤ := do
  let c ← getClient
  if c.keepAliveInterval = 0 then pure success
  else
    let due ← keepaliveDue p
    if due then
      if c.pingOutstanding then pure failure -- PINGRESP not received in keepalive interval
      else sendPing p fuel
    else pure success

def mqttCleanSession : Prog (Client ω τ H) PUnit :=
  modifyClient fun c => { c with messageHandlers := clearHandlers c.messageHandlers }

def mqttCloseSession : Prog (Client ω τ H) PUnit := do
  modifyClient fun c => { c with pingOutstanding := false, isconnected := false }
  let c ← getClient
  if c.cleansession then mqttCleanSession else pure ⟨⟩

def deliver (topicName : MQTTString) (msg : MQTTMessage) : Prog (Client ω τ H) PUnit := do
  let _ ← deliverMessage p topicName msg
  pure ⟨⟩

/-- Where the topic was refused `topicName` is not set; a filter would be compared with it and
the default handler given it. -/
def deliverUnread : StringRead → MQTTMessage → Prog (Client ω τ H) PUnit
  | .read topicName _, msg => deliver p topicName msg
  | .refused _, _ => do
    let c ← getClient
    if c.messageHandlers.any (·.topicFilter.isSome) || c.defaultMessageHandler.isSome then
      throw .undefined
    else pure ⟨⟩

def variant : Variant Unit ω τ H where
  readPacket := readPacket p
  sendPacket := sendPacket p fuel
  keepalive := keepalive p fuel
  closeSession := mqttCloseSession
  deliver := deliver p
  deliverUnread := deliverUnread p
  answered := fun _ _ => pure ⟨⟩

def cycle (timer : τ) : Prog (Client ω τ H) ℤ := (variant p fuel).cycle timer

/-- `count` calls of `cycle`, with the sessions they start in. -/
def cycles (timers : ℕ → τ) : ℕ → Prog (Client ω τ H) (List (Client ω τ H))
  | 0 => pure []
  | count + 1 => do
    let start ← get
    let _ ← cycle p fuel (timers count)
    let later ← cycles timers count
    pure (start :: later)

/-- `R` allows what sending a packet does: the packet is laid into the buffer, and the
time it was sent at and an outstanding ping are noted. -/
structure Sends (R : Client ω τ H → Client ω τ H → Prop) : Prop extends p.Outward R where
  buf : ∀ s buf, R s { s with client := { s.client with buf := buf } }
  lastSent : ∀ s lastSent, R s { s with client := { s.client with lastSent := lastSent } }
  pingOutstanding : ∀ s pingOutstanding,
    R s { s with client := { s.client with pingOutstanding := pingOutstanding } }

section Moves

variable {p} {R : Client ω τ H → Client ω τ H → Prop}

theorem gentle_sends (gentle : p.Gentle R) : Sends p R where
  toOutward := gentle.toOutward
  buf := fun s _ => gentle.client s _ rfl ⟨rfl, rfl, rfl⟩
  lastSent := fun s _ => gentle.client s _ rfl ⟨rfl, rfl, rfl⟩
  pingOutstanding := fun s _ => gentle.client s _ rfl ⟨rfl, rfl, rfl⟩

variable [Std.Refl R] [IsTrans (Client ω τ H) R]

section

variable (outward : p.Outward R)
include outward

theorem sendLoop_moves (length : ℕ) (timer : τ) (sent : ℕ) :
    Moves R (sendLoop p length timer fuel sent : Prog (Client ω τ H) ℕ) := by
  induction fuel generalizing sent with
  | zero => exact .throw _
  | succ fuel ih =>
    refine .ite (.bind (outward.timerIsExpired timer) fun expired => .ite (.pure _) ?_) (.pure _)
    refine .bind (outward.timerLeftMS timer) fun left => .bind getClient_moves fun c => ?_
    refine .bind (outward.mqttwrite _ length left) fun rc => ?_
    exact .ite (.pure _) (ih _)

theorem keepaliveDue_moves : Moves R (keepaliveDue p : Prog (Client ω τ H) Bool) := by
  refine .bind getClient_moves fun c => .bind (outward.timerIsExpired c.lastSent) fun expired => ?_
  exact .ite (.pure _) (outward.timerIsExpired c.lastReceived)

theorem deliver_moves (topicName : MQTTString) (msg : MQTTMessage) :
    Moves R (deliver p topicName msg : Prog (Client ω τ H) PUnit) :=
  .bind (deliverMessage_moves outward topicName msg) fun _ => .pure _

theorem deliverUnread_moves (topic : StringRead) (msg : MQTTMessage) :
    Moves R (deliverUnread p topic msg : Prog (Client ω τ H) PUnit) := by
  cases topic with
  | read topicName curdata => exact deliver_moves outward topicName msg
  | refused len => exact .bind getClient_moves fun c => .ite (.throw _) (.pure _)

end

section

variable (sends : Sends p R)
include sends

theorem sendPacket_moves (length : ℕ) (timer : τ) :
    Moves R (sendPacket p fuel length timer : Prog (Client ω τ H) ℤ) := by
  refine .bind (sendLoop_moves fuel sends.toOutward length timer 0) fun sent => ?_
  refine .ite (.bind getClient_moves fun c => ?_) (.pure _)
  refine .bind (sends.timerCountdown c.lastSent c.keepAliveInterval) fun lastSent => ?_
  have hlastSent : Moves R (modifyClient fun c => { c with lastSent := lastSent }) :=
    fun s => sends.lastSent s lastSent
  exact .bind hlastSent fun _ => .pure _

theorem sendPing_moves : Moves R (sendPing p fuel : Prog (Client ω τ H) ℤ) := by
  refine .bind (newTimer_moves sends.toDiscreet 1000) fun timer => ?_
  refine .bind (serialize_moves sends.buf _) fun len => .ite (.pure _) ?_
  refine .bind (sendPacket_moves fuel sends len.toNat timer) fun rc => .ite ?_ (.pure _)
  have hping : Moves R (modifyClient fun c => { c with pingOutstanding := true }) :=
    fun s => sends.pingOutstanding s true
  exact .bind hping fun _ => .pure _

theorem keepalive_moves : Moves R (keepalive p fuel : Prog (Client ω τ H) ℤ) := by
  refine .bind getClient_moves fun c => .ite (.pure _) ?_
  refine .bind (keepaliveDue_moves sends.toOutward) fun due => .ite ?_ (.pure _)
  exact .ite (.pure _) (sendPing_moves fuel sends)

end

section

variable (quiet : p.Quiet R)
include quiet

theorem mqttCloseSession_moves :
    Moves R (mqttCloseSession : Prog (Client ω τ H) PUnit) := by
  have hclosed : Moves R (modifyClient fun c =>
      { c with pingOutstanding := false, isconnected := false }) :=
    fun s => quiet.client s _ rfl
  have hclean : Moves R (mqttCleanSession : Prog (Client ω τ H) PUnit) :=
    fun s => quiet.client s _ rfl
  exact .bind hclosed fun _ => .bind getClient_moves fun c => .ite hclean (.pure _)

theorem variant_stays : (variant p fuel).Stays R where
  buf := fun s _ => quiet.client s _ rfl
  pingresp := fun s => quiet.client s _ rfl
  sendPacket := sendPacket_moves fuel (gentle_sends quiet.gentle)
  deliver := deliver_moves quiet.gentle.toOutward
  deliverUnread := deliverUnread_moves quiet.gentle.toOutward
  answered := fun _ _ => .pure _
  keepalive := keepalive_moves fuel (gentle_sends quiet.gentle)
  closeSession := mqttCloseSession_moves quiet

end

end Moves

/-- The `do … while` of `MQTTYield`. -/
def yieldLoop (timer : τ) : ℕ → Prog (Client ω τ H) ℤ
  | 0 => throw .outOfFuel
  | rounds + 1 => do
    let rc ← cycle p fuel timer
    if rc < 0 then pure failure
    else
      let expired ← ask (p.timerIsExpired timer)
      if expired then pure success else yieldLoop timer rounds

def mqttYield (timeoutMs : ℕ) : Prog (Client ω τ H) ℤ := do
  let timer ← newTimer p timeoutMs
  yieldLoop p fuel timer fuel

def waitfor (packetType : MsgType) (timer : τ) : Prog (Client ω τ H) ℤ :=
  (variant p fuel).waitfor p fuel packetType timer

def awaitConnack (timer : τ) (data : ConnackFields) :
    Prog (Client ω τ H) (ℤ × ConnackFields) := do
  -- this will be a blocking call, wait for the connack
  let rc ← waitfor p fuel .connack timer
  if rc = MsgType.connack.code then
    let c ← getClient
    let result ← ofOption (mqttDeserializeConnack c.readbuf)
    let data := result.2.getD ⟨0, 0⟩
    pure (if result.1 = 1 then data.connackRc.toNat else failure, data)
  else pure (failure, data)

def connectExchange (options : ConnectData) (data : ConnackFields) :
    Prog (Client ω τ H) (ℤ × ConnackFields) := do
  let c ← getClient
  if c.isconnected then pure (failure, data) -- don't send connect packet again
  else
    let timer ← newTimer p c.commandTimeoutMs
    modifyClient fun c => { c with
      keepAliveInterval := options.keepAliveInterval.toNat
      cleansession := options.cleansession ≠ 0 }
    let c ← getClient
    let lastReceived ← ask (p.timerCountdown c.lastReceived c.keepAliveInterval)
    modifyClient fun c => { c with lastReceived := lastReceived }
    let len ← serialize fun buf => mqttSerializeConnect buf options
    if len ≤ 0 then pure (failure, data)
    else
      let rc ← sendPacket p fuel len.toNat timer -- send the connect packet
      if rc ≠ success then pure (rc, data) -- there was a problem
      else awaitConnack p fuel timer data

/-- `options` may be null, and the defaults are used. -/
def mqttConnectWithResults (options : Option ConnectData) (data : ConnackFields) :
    Prog (Client ω τ H) (ℤ × ConnackFields) := do
  let result ← connectExchange p fuel (options.getD connectDataInitializer) data
  if result.1 = success then
    modifyClient fun c => { c with isconnected := true, pingOutstanding := false }
    pure result
  else pure result

def mqttConnect (options : Option ConnectData) : Prog (Client ω τ H) ℤ := do
  let result ← mqttConnectWithResults p fuel options ⟨0, 0⟩
  pure result.1

def mqttSetMessageHandler (topicFilter : CString) (messageHandler : Option H) :
    Prog (Client ω τ H) ℤ := do
  let c ← getClient
  let result := setMessageHandler c.messageHandlers topicFilter messageHandler
  modifyClient fun c => { c with messageHandlers := result.2 }
  pure result.1

/-- `if (rc == FAILURE) MQTTCloseSession(c)`. -/
def closeOnFailure (rc : ℤ) : Prog (Client ω τ H) PUnit :=
  if rc = failure then mqttCloseSession else pure ⟨⟩

/-- A refusal is compared with 0x80, but the byte was read as a signed `char`. -/
def awaitSuback (topicFilter : CString) (messageHandler : Option H) (timer : τ) (data : ℤ) :
    Prog (Client ω τ H) (ℤ × ℤ) := do
  let rc ← waitfor p fuel .suback timer -- wait for suback
  if rc = MsgType.suback.code then
    let c ← getClient
    let (rc, _, grantedQoSs) ← ofOption (mqttDeserializeSuback c.readbuf 1 1)
    let data := grantedQoSs.headD 0
    if rc = 1 ∧ data ≠ 0x80 then
      let rc ← mqttSetMessageHandler topicFilter messageHandler
      pure (rc, data)
    else pure (success, data)
  else pure (failure, data)

def subscribeExchange (topicFilter : CString) (qos : ℕ) (messageHandler : Option H) (data : ℤ) :
    Prog (Client ω τ H) (ℤ × ℤ) := do
  let c ← getClient
  if c.isconnected then
    let timer ← newTimer p c.commandTimeoutMs
    let id ← getNextPacketId
    let len ← serialize fun buf =>
      mqttSerializeSubscribe buf 0 id [MQTTString.ofCString topicFilter] [qos]
    if len ≤ 0 then pure (failure, data)
    else
      let rc ← sendPacket p fuel len.toNat timer -- send the subscribe packet
      if rc ≠ success then pure (rc, data) -- there was a problem
      else awaitSuback p fuel topicFilter messageHandler timer data
  else pure (failure, data)

/-- The second result is `data->grantedQoS`. -/
def mqttSubscribeWithResults (topicFilter : CString) (qos : ℕ) (messageHandler : Option H)
    (data : ℤ) : Prog (Client ω τ H) (ℤ × ℤ) := do
  let result ← subscribeExchange p fuel topicFilter qos messageHandler data
  closeOnFailure result.1
  pure result

def mqttSubscribe (topicFilter : CString) (qos : ℕ) (messageHandler : Option H) :
    Prog (Client ω τ H) ℤ := do
  let result ← mqttSubscribeWithResults p fuel topicFilter qos messageHandler 0
  pure result.1

def awaitUnsuback (topicFilter : CString) (timer : τ) : Prog (Client ω τ H) ℤ := do
  let rc ← waitfor p fuel .unsuback timer
  if rc = MsgType.unsuback.code then
    let c ← getClient
    let result ← ofOption (mqttDeserializeUnsuback c.readbuf)
    if result.1 = 1 then
      -- remove the subscription message handler associated with this topic, if there is one
      let _ ← mqttSetMessageHandler topicFilter none
      pure success
    else pure success
  else pure failure

def unsubscribeExchange (topicFilter : CString) : Prog (Client ω τ H) ℤ := do
  let c ← getClient
  if c.isconnected then
    let timer ← newTimer p c.commandTimeoutMs
    let id ← getNextPacketId
    let len ← serialize fun buf =>
      mqttSerializeUnsubscribe buf 0 id [MQTTString.ofCString topicFilter]
    if len ≤ 0 then pure failure
    else
      let rc ← sendPacket p fuel len.toNat timer
      if rc ≠ success then pure rc -- there was a problem
      else awaitUnsuback p fuel topicFilter timer
  else pure failure

def mqttUnsubscribe (topicFilter : CString) : Prog (Client ω τ H) ℤ := do
  let rc ← unsubscribeExchange p fuel topicFilter
  closeOnFailure rc
  pure rc

/-- Wait for the last acknowledgement of a publish and look into it. -/
def awaitAck (packetType : MsgType) (timer : τ) : Prog (Client ω τ H) ℤ := do
  let rc ← waitfor p fuel packetType timer
  if rc = packetType.code then
    let c ← getClient
    let result ← ofOption (mqttDeserializeAck c.readbuf)
    pure (if result.1 ≠ 1 then failure else success)
  else pure failure

def awaitPublished (qos : ℕ) (timer : τ) : Prog (Client ω τ H) ℤ :=
  if qos = 1 then awaitAck p fuel .puback timer
  else if qos = 2 then awaitAck p fuel .pubcomp timer
  else pure success

/-- `if (message->qos == QOS1 || message->qos == QOS2) message->id = getNextPacketId(c)`. -/
def numberMessage (message : MQTTMessage) : Prog (Client ω τ H) MQTTMessage :=
  if message.qos = 1 ∨ message.qos = 2 then do
    let id ← getNextPacketId
    pure { message with id := some id }
  else pure message

def publishExchange (topicName : CString) (message : MQTTMessage) :
    Prog (Client ω τ H) (ℤ × MQTTMessage) := do
  let c ← getClient
  if c.isconnected then
    let timer ← newTimer p c.commandTimeoutMs
    let message ← numberMessage message
    let len ← serialize fun buf => mqttSerializePublish buf 0 message.qos
      (UInt8.ofNat message.retained) (message.id.getD 0) (MQTTString.ofCString topicName)
      message.payload message.payloadlen
    if len ≤ 0 then pure (failure, message)
    else
      let rc ← sendPacket p fuel len.toNat timer
      if rc ≠ success then pure (rc, message) -- there was a problem
      else
        let rc ← awaitPublished p fuel message.qos timer
        pure (rc, message)
  else pure (failure, message)

/-- The second result is the message with the identifier it was given. -/
def mqttPublish (topicName : CString) (message : MQTTMessage) :
    Prog (Client ω τ H) (ℤ × MQTTMessage) := do
  let result ← publishExchange p fuel topicName message
  closeOnFailure result.1
  pure result

def mqttDisconnect : Prog (Client ω τ H) ℤ := do
  let c ← getClient
  -- we might wait for incomplete incoming publishes to complete
  let timer ← newTimer p c.commandTimeoutMs
  let len ← serialize mqttSerializeDisconnect
  if 0 < len then
    let rc ← sendPacket p fuel len.toNat timer -- send the disconnect packet
    mqttCloseSession
    pure rc
  else
    mqttCloseSession
    pure failure

end MqttEmbedded.ClientC
