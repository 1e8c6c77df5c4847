import MqttEmbedded.Lib.VacantSlots
import MqttEmbedded.Client.Cycle
import MqttEmbedded.Packet.SerializeSession

/-!
# The C++ client

The functions of `MQTTClient.h` with support for QoS 1 and QoS 2, in the order of
the source. A loop that only a timer or the network ends is followed for `fuel`
rounds. The functions write down what they do in a history that none of them reads.
-/

namespace MqttEmbedded.ClientCpp

open Region Hoare

variable {ω τ H : Type}

/-- What is written into the history. -/
inductive Occurrence where
  /-- `readPacket` has returned this, with this in the receive buffer. -/
  | received (packetType : ℤ) (readbuf : List UInt8)
  /-- A message is handed to `deliverMessage`. -/
  | delivered (qos : ℕ) (id : Option UInt16)
  /-- `sendPacket` has returned `rc` for this packet. -/
  | sent (packet : List UInt8) (rc : ℤ)
  /-- The identifier is no longer among those of incoming QoS 2 messages. -/
  | released (id : UInt16)
  /-- `keepalive` has returned `rc`, and has sent a PINGREQ or not. -/
  | keptAlive (rc : ℤ) (pinged : Bool)
  /-- `publish` is about to send a new message. -/
  | publishing (id : UInt16) (qos : ℕ) (packet : List UInt8)
  /-- The wait for the acknowledgement of a publish begins, or is over. -/
  | awaiting (packetType : MsgType)
  | awaited
  /-- `connect` has come to the message in flight. -/
  | resuming
  /-- It is about to send this packet again. -/
  | resending (packet : List UInt8)
  deriving DecidableEq

/-- The fields that the C client has not. `ping_sent` is a static variable of
`keepalive`; the history is not in the source. -/
structure Extras (τ : Type) where
  pubbuf : List UInt8
  inflightLen : ℕ
  inflightMsgid : UInt16
  inflightQoS : ℕ
  pubrel : Bool
  incomingQoS2messages : List UInt16
  pingSent : τ
  /-- The latest occurrence comes first. -/
  history : List Occurrence

abbrev Client (ω τ H : Type) := Session (Extras τ) ω τ H

def note (o : Occurrence) : Prog (Client ω τ H) PUnit :=
  modifyOwn fun own => { own with history := o :: own.history }

def maxPacketId : ℕ := 65535

/-- `packetid.getNext()`. -/
def getNext : Prog (Client ω τ H) UInt16 := do
  let c ← getClient
  let next := if c.nextPacketid = maxPacketId then 1 else c.nextPacketid + 1
  modifyClient fun c => { c with nextPacketid := next }
  pure (UInt16.ofNat next)

/-- The identifiers that a table holds; a slot with 0 is free. -/
def held (incomingQoS2messages : List UInt16) : List UInt16 :=
  incomingQoS2messages.filter (· ≠ 0)

def cleanSession : Prog (Client ω τ H) PUnit := do
  modifyClient fun c => { c with messageHandlers := clearHandlers c.messageHandlers }
  modifyOwn fun own => { own with
    inflightMsgid := 0
    inflightQoS := 0
    pubrel := false
    incomingQoS2messages := own.incomingQoS2messages.map fun _ => 0
    history := (held own.incomingQoS2messages).map .released ++ own.history }

def closeSession : Prog (Client ω τ H) PUnit := do
  modifyClient fun c => { c with pingOutstanding := false, isconnected := false }
  let c ← getClient
  if c.cleansession then cleanSession else pure ⟨⟩

/-- `MAX_INCOMING_QOS2_MESSAGES`. -/
def maxIncomingQoS2Messages : ℕ := 10

/-- The constructor; the fields that it does not set are those of `old`. -/
def construct (old : Client ω τ H) (commandTimeoutMs : ℕ) : Client ω τ H where
  client :=
    { old.client with
      messageHandlers := clearHandlers old.client.messageHandlers
      commandTimeoutMs := commandTimeoutMs
      nextPacketid := 0
      isconnected := false
      cleansession := true
      pingOutstanding := false
      defaultMessageHandler := none }
  own :=
    { old.own with
      inflightMsgid := 0
      inflightQoS := 0
      pubrel := false
      incomingQoS2messages := List.replicate maxIncomingQoS2Messages 0
      history := [] }
  world := old.world

def isQoS2msgidFree (incomingQoS2messages : List UInt16) (id : UInt16) : Bool :=
  !incomingQoS2messages.contains id

/-- Nothing when there is no free slot. -/
def useQoS2msgid : List UInt16 → UInt16 → Option (List UInt16)
  | [], _ => none
  | slot :: slots, id =>
    if slot = 0 then some (id :: slots) else (useQoS2msgid slots id).map (slot :: ·)

def freeQoS2msgid : List UInt16 → UInt16 → List UInt16
  | [], _ => []
  | slot :: slots, id => if slot = id then 0 :: slots else slot :: freeQoS2msgid slots id

/-- The array is one of `VacantSlots`, with 0 for vacant. -/
theorem held_eq : held = VacantSlots.occupied 0 := rfl

theorem useQoS2msgid_eq (slots : List UInt16) (id : UInt16) :
    useQoS2msgid slots id = VacantSlots.claim 0 slots id := by
  induction slots with
  | nil => rfl
  | cons slot slots ih => rw [useQoS2msgid, VacantSlots.claim, ih]

theorem freeQoS2msgid_eq (slots : List UInt16) (id : UInt16) :
    freeQoS2msgid slots id = VacantSlots.vacate 0 slots id := by
  induction slots with
  | nil => rfl
  | cons slot slots ih => rw [freeQoS2msgid, VacantSlots.vacate, ih]

theorem isQoS2msgidFree_iff {slots : List UInt16} {id : UInt16} :
    isQoS2msgidFree slots id = true ↔ id ∉ slots := by
  simp [isQoS2msgidFree]

/-- The part of `case PUBLISH` before the acknowledgement. -/
def deliver (p : Platform ω τ H) (topicName : MQTTString) (msg : MQTTMessage) :
    Prog (Client ω τ H) PUnit := do
  if msg.qos ≠ 2 then
    note (.delivered msg.qos msg.id)
    let _ ← deliverMessage p topicName msg
    pure ⟨⟩
  else
    let id ← ofOption msg.id
    let own ← getOwn
    if isQoS2msgidFree own.incomingQoS2messages id then
      match useQoS2msgid own.incomingQoS2messages id with
      | some slots =>
        modifyOwn fun own => { own with incomingQoS2messages := slots }
        note (.delivered msg.qos msg.id)
        let _ ← deliverMessage p topicName msg
        pure ⟨⟩
      | none => pure ⟨⟩ -- Maximum number of incoming QoS2 messages exceeded
    else pure ⟨⟩

/-- Where the topic was refused `topicName` is still the initializer, but for a length that may
have been stored; a filter would be compared with that many bytes behind a null pointer. -/
def deliverUnread (p : Platform ω τ H) (topic : StringRead) (msg : MQTTMessage) :
    Prog (Client ω τ H) PUnit := do
  let topicName := topic.stored mqttStringInitializer
  let c ← getClient
  if topicName.lenstring.data.isNone && 0 < topicName.lenstring.len &&
      c.messageHandlers.any (·.topicFilter.isSome) then throw .undefined
  else deliver p topicName msg

/-- A PUBREL that has been answered frees its identifier. -/
def answered (packetType : MsgType) (id : UInt16) : Prog (Client ω τ H) PUnit :=
  if packetType = .pubrel then
    modifyOwn fun own => { own with
      incomingQoS2messages := freeQoS2msgid own.incomingQoS2messages id
      history :=
        if id ∈ held own.incomingQoS2messages then .released id :: own.history else own.history }
  else pure ⟨⟩

variable (p : Platform ω τ H) (fuel : ℕ)

/-- The loop of `sendPacket`; the result is `sent`. -/
def sendLoop (length : ℕ) (timer : τ) : ℕ → ℕ → Prog (Client ω τ H) ℕ
  | 0, _ => throw .outOfFuel
  | fuel + 1, sent =>
    if sent < length then do
      let left ← ask (p.timerLeftMS timer)
      let c ← getClient
      let rc ← ask (p.mqttwrite (c.buf.drop sent) (length - sent) left)
      if rc < 0 then pure sent -- there was an error writing the data
      else
        -- only check expiry after at least one attempt to write
        let expired ← ask (p.timerIsExpired timer)
        if expired then pure (sent + rc.toNat)
        else sendLoop length timer fuel (sent + rc.toNat)
    else pure sent

/-- Record the fact that we have successfully sent the packet. -/
def recordSent : Prog (Client ω τ H) PUnit := do
  let c ← getClient
  if 0 < c.keepAliveInterval then
    let lastSent ← ask (p.timerCountdown c.lastSent c.keepAliveInterval)
    modifyClient fun c => { c with lastSent := lastSent }
  else pure ⟨⟩

def transmit (length : ℕ) (timer : τ) : Prog (Client ω τ H) ℤ := do
  let sent ← sendLoop p length timer fuel 0
  if sent = length then
    recordSent p
    pure success
  else pure failure

def sendPacket (length : ℕ) (timer : τ) : Prog (Client ω τ H) ℤ := do
  let c ← getClient
  let rc ← transmit p fuel length timer
  note (.sent (c.buf.take length) rc)
  pure rc

/-- `rem_len > MAX_MQTT_PACKET_SIZE - len`, all of them `int`. -/
def tooLong (readbufSize len remLen : ℕ) : Bool := (readbufSize : ℤ) - len < remLen

/-- When the rest of the packet does not arrive, `rc` is still the one byte of the header. -/
def readPacket (timer : τ) : Prog (Client ω τ H) ℤ := do
  let packetType ← readPacketWith p tooLong 1 timer
  let c ← getClient
  note (.received packetType c.readbuf)
  pure packetType

/-- `last_sent.expired() || last_received.expired()`. -/
def keepaliveDue : Prog (Client ω τ H) Bool := do
  let c ← getClient
  let expired ← ask (p.timerIsExpired c.lastSent)
  if expired then pure true else ask (p.timerIsExpired c.lastReceived)

def sendPing : Prog (Client ω τ H) ℤ := do
  let timer ← newTimer p 1000
  let len ← serialize mqttSerializePingreq
  if len ≤ 0 then pure success
  else
    let rc ← sendPacket p fuel len.toNat timer -- send the ping packet
    if rc = success then
      modifyClient fun c => { c with pingOutstanding := true }
      let c ← getClient
      let own ← getOwn
      let pingSent ← ask (p.timerCountdown own.pingSent c.keepAliveInterval)
      modifyOwn fun own => { own with pingSent := pingSent }
      pure success
    else pure rc

/-- The ping that is outstanding, or the next one if it is due. -/
def checkPing : Prog (Client ω τ H) ℤ := do
  let c ← getClient
  if c.pingOutstanding then
    let own ← getOwn
    let expired ← ask (p.timerIsExpired own.pingSent)
    pure (if expired then failure else success) -- session failure
  else
    let due ← keepaliveDue p
    if due then sendPing p fuel else pure success

def pingIfDue : Prog (Client ω τ H) ℤ := do
  let c ← getClient
  if c.keepAliveInterval = 0 then pure success else checkPing p fuel

def keepalive : Prog (Client ω τ H) ℤ := do
  let before ← getClient
  let rc ← pingIfDue p fuel
  let after ← getClient
  note (.keptAlive rc (!before.pingOutstanding && after.pingOutstanding))
  pure rc

def variant : Variant (Extras τ) ω τ H where
  readPacket := readPacket p
  sendPacket := sendPacket p fuel
  keepalive := keepalive p fuel
  closeSession := closeSession
  deliver := deliver p
  deliverUnread := deliverUnread p
  answered := answered

def cycle (timer : τ) : Prog (Client ω τ H) ℤ := (variant p fuel).cycle timer

/-- The `while` of `yield`. -/
def yieldLoop (timer : τ) : ℕ → Prog (Client ω τ H) ℤ
  | 0 => throw .outOfFuel
  | rounds + 1 => do
    let expired ← ask (p.timerIsExpired timer)
    if expired then pure success
    else
      let rc ← cycle p fuel timer
      if rc < 0 then pure failure else yieldLoop timer rounds

def yield (timeoutMs : ℕ) : Prog (Client ω τ H) ℤ := do
  let timer ← newTimer p timeoutMs
  yieldLoop p fuel timer fuel

def waitfor (packetType : MsgType) (timer : τ) : Prog (Client ω τ H) ℤ :=
  (variant p fuel).waitfor p fuel packetType timer

def closeUnlessSuccess (rc : ℤ) : Prog (Client ω τ H) PUnit :=
  if rc ≠ success then closeSession else pure ⟨⟩

/-- `if (inflightMsgid == mypacketid) inflightMsgid = 0`. -/
def clearInflight (mypacketid : UInt16) : Prog (Client ω τ H) PUnit :=
  modifyOwn fun own =>
    if own.inflightMsgid = mypacketid then { own with inflightMsgid := 0 } else own

/-- What `publish` makes of the packet it has waited for. -/
def takeAck : Prog (Client ω τ H) ℤ := do
  let c ← getClient
  let result ← ofOption (mqttDeserializeAck c.readbuf)
  if result.1 ≠ 1 then pure failure
  else
    let mypacketid ← ofOption result.2.packetid
    clearInflight (UInt16.ofNat mypacketid)
    pure success

def awaitAck (packetType : MsgType) (timer : τ) : Prog (Client ω τ H) ℤ := do
  note (.awaiting packetType)
  let rc ← waitfor p fuel packetType timer
  note .awaited
  if rc = packetType.code then takeAck else pure failure

def awaitPublished (qos : ℕ) (timer : τ) : Prog (Client ω τ H) ℤ :=
  if qos = 1 then awaitAck p fuel .puback timer
  else if qos = 2 then awaitAck p fuel .pubcomp timer
  else pure success

/-- `publish(len, timer, qos)`. -/
def publishPacket (len : ℕ) (timer : τ) (qos : ℕ) : Prog (Client ω τ H) ℤ := do
  let rc ← sendPacket p fuel len timer -- send the publish packet
  if rc ≠ success then
    closeSession -- there was a problem
    pure rc
  else
    let rc ← awaitPublished p fuel qos timer
    closeUnlessSuccess rc
    pure rc

/-- The message is kept for sending on reconnect. -/
def storePublish (len : ℕ) (id : UInt16) (qos : ℕ) : Prog (Client ω τ H) PUnit := do
  let c ← getClient
  note (.publishing id qos (c.buf.take len))
  if c.cleansession then pure ⟨⟩
  else modifyOwn fun own => { own with
    pubbuf := overwrite own.pubbuf 0 (c.buf.take len)
    inflightMsgid := id
    inflightLen := len
    inflightQoS := qos
    pubrel := false }

/-- The identifier that a message is published with; `id` is the argument. -/
def publishId (id : UInt16) (qos : ℕ) : Prog (Client ω τ H) UInt16 :=
  if qos = 1 ∨ qos = 2 then getNext else pure id

/-- `publish(topicName, payload, payloadlen, id, qos, retained)`; the second result is `id`. -/
def publish (topicName : CString) (payload : List UInt8) (payloadlen : ℕ) (id : UInt16) (qos : ℕ)
    (retained : Bool) : Prog (Client ω τ H) (ℤ × UInt16) := do
  let c ← getClient
  let timer ← newTimer p c.commandTimeoutMs
  if c.isconnected then
    let id ← publishId id qos
    let len ← serialize fun buf => mqttSerializePublish buf 0 qos (UInt8.ofNat retained.toNat) id
      (MQTTString.ofCString topicName) payload payloadlen
    if len ≤ 0 then pure (failure, id)
    else
      storePublish len.toNat id qos
      let rc ← publishPacket p fuel len.toNat timer qos
      pure (rc, id)
  else pure (failure, id)

def resend (len : ℕ) (timer : τ) (qos : ℕ) : Prog (Client ω τ H) ℤ := do
  let c ← getClient
  note (.resending (c.buf.take len))
  publishPacket p fuel len timer qos

/-- Resend any inflight publish; `rc` is what the CONNACK has led to. -/
def resume (timer : τ) (rc : ℤ) : Prog (Client ω τ H) ℤ := do
  note .resuming
  let own ← getOwn
  if 0 < own.inflightMsgid ∧ own.inflightQoS = 2 ∧ own.pubrel then
    let len ← serialize fun buf => mqttSerializeAck buf MsgType.pubrel.code 0 own.inflightMsgid
    if len ≤ 0 then pure failure else resend p fuel len.toNat timer own.inflightQoS
  else if 0 < own.inflightMsgid then
    modifyClient fun c => { c with buf := own.pubbuf }
    resend p fuel own.inflightLen timer own.inflightQoS
  else pure rc

def awaitConnack (timer : τ) : Prog (Client ω τ H) ℤ := do
  -- this will be a blocking call, wait for the connack
  let rc ← waitfor p fuel .connack timer
  if rc = MsgType.connack.code then
    let c ← getClient
    let result ← ofOption (mqttDeserializeConnack c.readbuf)
    -- data.rc is 0 where nothing is stored into it
    pure (if result.1 = 1 then (result.2.getD ⟨0, 0⟩).connackRc.toNat else failure)
  else pure failure

/-- `connect` up to the label `exit`. -/
def connectExchange (options : ConnectData) : Prog (Client ω τ H) ℤ := do
  let c ← getClient
  let timer ← newTimer p c.commandTimeoutMs
  if c.isconnected then pure failure -- don't send connect packet again
  else
    modifyClient fun c => { c with
      keepAliveInterval := options.keepAliveInterval.toNat
      cleansession := options.cleansession ≠ 0 }
    let len ← serialize fun buf => mqttSerializeConnect buf options
    if len ≤ 0 then pure failure
    else
      let rc ← sendPacket p fuel len.toNat timer -- send the connect packet
      if rc ≠ success then pure rc -- there was a problem
      else
        recordReceived p
        let rc ← awaitConnack p fuel timer
        resume p fuel timer rc

def connect (options : ConnectData) : Prog (Client ω τ H) ℤ := do
  let rc ← connectExchange p fuel options
  if rc = success then
    modifyClient fun c => { c with isconnected := true, pingOutstanding := false }
    pure rc
  else pure rc

def setHandler (topicFilter : CString) (messageHandler : Option H) : Prog (Client ω τ H) ℤ := do
  let c ← getClient
  let result := setMessageHandler c.messageHandlers topicFilter messageHandler
  modifyClient fun c => { c with messageHandlers := result.2 }
  pure result.1

/-- `if (rc == FAILURE) closeSession()`. -/
def closeOnFailure (rc : ℤ) : Prog (Client ω τ H) PUnit :=
  if rc = failure then closeSession else pure ⟨⟩

def awaitSuback (topicFilter : CString) (messageHandler : Option H) (timer : τ) :
    Prog (Client ω τ H) ℤ := do
  let rc ← waitfor p fuel .suback timer -- wait for suback
  if rc = MsgType.suback.code then
    let c ← getClient
    let (rc, _, grantedQoSs) ← ofOption (mqttDeserializeSuback c.readbuf 1 1)
    if rc = 1 ∧ grantedQoSs.headD 0 ≠ 0x80 then setHandler topicFilter messageHandler
    else pure success
  else pure failure

def subscribeExchange (topicFilter : CString) (qos : ℕ) (messageHandler : Option H) :
    Prog (Client ω τ H) ℤ := do
  let c ← getClient
  let timer ← newTimer p c.commandTimeoutMs
  if c.isconnected then
    let id ← getNext
    let len ← serialize fun buf =>
      mqttSerializeSubscribe buf 0 id [MQTTString.ofCString topicFilter] [qos]
    if len ≤ 0 then pure failure
    else
      let rc ← sendPacket p fuel len.toNat timer -- send the subscribe packet
      if rc ≠ success then pure rc -- there was a problem
      else awaitSuback p fuel topicFilter messageHandler timer
  else pure failure

def subscribe (topicFilter : CString) (qos : ℕ) (messageHandler : Option H) :
    Prog (Client ω τ H) ℤ := do
  let rc ← subscribeExchange p fuel topicFilter qos messageHandler
  closeOnFailure rc
  pure rc

def awaitUnsuback (topicFilter : CString) (timer : τ) : Prog (Client ω τ H) ℤ := do
  let rc ← waitfor p fuel .unsuback timer
  if rc = MsgType.unsuback.code then
    let c ← getClient
    let result ← ofOption (mqttDeserializeUnsuback c.readbuf)
    if result.1 = 1 then
      -- remove the subscription message handler associated with this topic, if there is one
      let _ ← setHandler topicFilter none
      pure success
    else pure success
  else pure failure

def unsubscribeExchange (topicFilter : CString) : Prog (Client ω τ H) ℤ := do
  let c ← getClient
  let timer ← newTimer p c.commandTimeoutMs
  if c.isconnected then
    let id ← getNext
    let len ← serialize fun buf =>
      mqttSerializeUnsubscribe buf 0 id [MQTTString.ofCString topicFilter]
    if len ≤ 0 then pure failure
    else
      let rc ← sendPacket p fuel len.toNat timer -- send the unsubscribe packet
      if rc ≠ success then pure rc -- there was a problem
      else awaitUnsuback p fuel topicFilter timer
  else pure failure

def unsubscribe (topicFilter : CString) : Prog (Client ω τ H) ℤ := do
  let rc ← unsubscribeExchange p fuel topicFilter
  closeUnlessSuccess rc
  pure rc

/-- Send the disconnect packet. -/
def sendDisconnect (timer : τ) : Prog (Client ω τ H) ℤ := do
  let len ← serialize mqttSerializeDisconnect
  if 0 < len then sendPacket p fuel len.toNat timer else pure failure

def disconnect : Prog (Client ω τ H) ℤ := do
  let c ← getClient
  -- we might wait for incomplete incoming publishes to complete
  let timer ← newTimer p c.commandTimeoutMs
  let rc ← sendDisconnect p fuel timer
  closeSession
  pure rc

inductive Call (H : Type) where
  | connect (options : Option ConnectData)
  | publish (topicName : CString) (payload : List UInt8) (payloadlen : ℕ) (id : UInt16) (qos : ℕ)
    (retained : Bool)
  | publishWithoutId (topicName : CString) (payload : List UInt8) (payloadlen : ℕ) (qos : ℕ)
    (retained : Bool)
  | publishMessage (topicName : CString) (message : MQTTMessage)
  | subscribe (topicFilter : CString) (qos : ℕ) (messageHandler : Option H)
  | unsubscribe (topicFilter : CString)
  | yield (timeoutMs : ℕ)
  | disconnect
  | setMessageHandler (topicFilter : CString) (messageHandler : Option H)
  | setDefaultMessageHandler (messageHandler : Option H)

/-- Without options `connect` uses the defaults; without an identifier `publish` has a
variable of its own for it, set to 0. -/
def perform : Call H → Prog (Client ω τ H) ℤ
  | .connect options => connect p fuel (options.getD connectDataInitializer)
  | .publish topicName payload payloadlen id qos retained => do
    let result ← publish p fuel topicName payload payloadlen id qos retained
    pure result.1
  | .publishWithoutId topicName payload payloadlen qos retained => do
    let result ← publish p fuel topicName payload payloadlen 0 qos retained
    pure result.1
  | .publishMessage topicName message => do
    let result ← publish p fuel topicName message.payload message.payloadlen 0 message.qos
      (message.retained ≠ 0)
    pure result.1
  | .subscribe topicFilter qos messageHandler => subscribe p fuel topicFilter qos messageHandler
  | .unsubscribe topicFilter => unsubscribe p fuel topicFilter
  | .yield timeoutMs => yield p fuel timeoutMs
  | .disconnect => disconnect p fuel
  | .setMessageHandler topicFilter messageHandler => setHandler topicFilter messageHandler
  | .setDefaultMessageHandler messageHandler => do
    modifyClient fun c => { c with defaultMessageHandler := messageHandler }
    pure success

end MqttEmbedded.ClientCpp
