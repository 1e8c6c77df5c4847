import MqttEmbedded.Client.Reader
import MqttEmbedded.Client.Delivery
import MqttEmbedded.Packet.Serialize

/-!
# One packet of work

`cycle` and `waitfor` of the two clients. The switch over the packet type is the
same; what the clients do differently at its branches is a `Variant`.
-/

namespace MqttEmbedded

open Hoare

variable {χ ω τ H : Type}

structure Variant (χ ω τ H : Type) where
  readPacket : τ → Prog (Session χ ω τ H) ℤ
  sendPacket : (length : ℕ) → τ → Prog (Session χ ω τ H) ℤ
  keepalive : Prog (Session χ ω τ H) ℤ
  closeSession : Prog (Session χ ω τ H) PUnit
  /-- What is done with a PUBLISH before it is acknowledged. -/
  deliver : MQTTString → MQTTMessage → Prog (Session χ ω τ H) PUnit
  /-- The same when its topic has not been read. -/
  deliverUnread : StringRead → MQTTMessage → Prog (Session χ ω τ H) PUnit
  /-- What is done after a PUBREC or PUBREL has been answered. -/
  answered : MsgType → UInt16 → Prog (Session χ ω τ H) PUnit

/-- The message of a PUBLISH; its length is stored as an `int` in the low half of
a `size_t` that was zero. -/
def PublishFields.message (fields : PublishFields) : MQTTMessage where
  qos := fields.qos
  retained := fields.retained
  dup := fields.dup
  id := fields.packetid.map UInt16.ofNat
  payload := fields.payload
  payloadlen := (fields.payloadlen % 2 ^ 32).toNat

/-- The message of which the header has been stored; the length is as set before, and neither
identifier nor payload is set. -/
def headerMessage (dup qos retained : ℕ) : MQTTMessage where
  qos := qos
  retained := retained
  dup := dup
  id := none
  payload := []
  payloadlen := 0

/-- How the switch is left: with this `rc`, to the exit or to the end of `cycle`. -/
structure Outcome where
  rc : ℤ
  exits : Bool

namespace Variant

variable (v : Variant χ ω τ H)

def sendAck (packettype : MsgType) (id : UInt16) (timer : τ) : Prog (Session χ ω τ H) ℤ := do
  let len ← serialize fun buf => mqttSerializeAck buf packettype.code 0 id
  if len ≤ 0 then pure failure
  else v.sendPacket len.toNat timer

/-- A quality of service of 3 leaves the length of the answer at 0. -/
def acknowledge (msg : MQTTMessage) (timer : τ) : Prog (Session χ ω τ H) ℤ :=
  if msg.qos = 1 then do
    let id ← ofOption msg.id
    v.sendAck .puback id timer
  else if msg.qos = 2 then do
    let id ← ofOption msg.id
    v.sendAck .pubrec id timer
  else pure failure

/-- What has been stored is delivered, as the message that is acknowledged afterwards. -/
def handOver : PublishStored → Prog (Session χ ω τ H) MQTTMessage
  | .nothing => throw .undefined
  | .headerOnly dup qos retained topicName => do
    let msg := headerMessage dup qos retained
    v.deliverUnread topicName msg
    pure msg
  | .whole fields => do
    let msg := fields.message
    v.deliver fields.topicName msg
    pure msg

/-- `case PUBLISH`. -/
def casePublish (timer : τ) : Prog (Session χ ω τ H) Outcome := do
  let c ← getClient
  let result ← ofOption (mqttDeserializePublish c.readbuf)
  if result.1 ≠ 1 then pure ⟨success, true⟩
  else
    let msg ← v.handOver result.2
    if msg.qos ≠ 0 then
      let rc ← v.acknowledge msg timer
      pure ⟨rc, rc = failure⟩ -- there was a problem
    else pure ⟨success, false⟩

/-- `case PUBREC` and `case PUBREL`. -/
def caseAck (packetType : MsgType) (timer : τ) : Prog (Session χ ω τ H) Outcome := do
  let c ← getClient
  let result ← ofOption (mqttDeserializeAck c.readbuf)
  if result.1 ≠ 1 then pure ⟨failure, true⟩
  else
    let packetid ← ofOption result.2.packetid
    let id := UInt16.ofNat packetid
    let rc ← v.sendAck (if packetType = .pubrec then .pubrel else .pubcomp) id timer
    if rc ≠ success then pure ⟨failure, true⟩ -- there was a problem
    else
      v.answered packetType id
      pure ⟨success, false⟩

/-- `switch (packet_type)`. -/
def handlePacket (packetType : ℤ) (timer : τ) : Prog (Session χ ω τ H) Outcome :=
  if packetType = 0 then pure ⟨success, false⟩ -- timed out reading packet
  else match MsgType.ofCode packetType with
    | some .connack | some .puback | some .suback | some .unsuback | some .pubcomp =>
      pure ⟨success, false⟩
    | some .publish => v.casePublish timer
    | some .pubrec => v.caseAck .pubrec timer
    | some .pubrel => v.caseAck .pubrel timer
    | some .pingresp => do
      modifyClient fun c => { c with pingOutstanding := false }
      pure ⟨success, false⟩
    -- no more data to read, unrecoverable
    | _ => pure ⟨packetType, true⟩

theorem handlePacket_neg {packetType : ℤ} (h : packetType < 0) (timer : τ) :
    v.handlePacket packetType timer = pure ⟨packetType, true⟩ := by
  rw [handlePacket, if_neg h.ne, MsgType.ofCode_neg h]

/-- Check only keepalive failure status so that previous failure status can be
considered as fault. -/
def checkKeepalive (outcome : Outcome) : Prog (Session χ ω τ H) ℤ :=
  if outcome.exits then pure outcome.rc
  else do
    let rc ← v.keepalive
    pure (if rc ≠ success then failure else outcome.rc)

def closeIfConnected : Prog (Session χ ω τ H) PUnit := do
  let c ← getClient
  if c.isconnected then v.closeSession else pure ⟨⟩

def cycle (timer : τ) : Prog (Session χ ω τ H) ℤ := do
  -- read the socket, see what work is due
  let packetType ← v.readPacket timer
  let outcome ← v.handlePacket packetType timer
  let rc ← v.checkKeepalive outcome
  if rc = success then pure packetType
  else
    v.closeIfConnected
    pure rc

/-- The loop of `waitfor`, by the rounds it may make, with the `rc` so far. -/
def waitforLoop (p : Platform ω τ H) (packetType : MsgType) (timer : τ) :
    ℕ → ℤ → Prog (Session χ ω τ H) ℤ
  | 0, _ => throw .outOfFuel
  | fuel + 1, rc => do
    let expired ← ask (p.timerIsExpired timer)
    if expired then pure rc -- we timed out
    else
      let rc ← v.cycle timer
      if rc ≠ packetType.code ∧ 0 ≤ rc then waitforLoop p packetType timer fuel rc
      else pure rc

def waitfor (p : Platform ω τ H) (fuel : ℕ) (packetType : MsgType) (timer : τ) :
    Prog (Session χ ω τ H) ℤ :=
  v.waitforLoop p packetType timer fuel failure

section Moves

omit v in
theorem waitforLoop_moves {v : Variant χ ω τ H} {R : Session χ ω τ H → Session χ ω τ H → Prop}
    [Std.Refl R] [IsTrans (Session χ ω τ H) R] {p : Platform ω τ H} {timer : τ}
    (hexpired : Moves R (ask (p.timerIsExpired timer))) (hcycle : Moves R (v.cycle timer))
    (packetType : MsgType) (fuel : ℕ) (rc : ℤ) :
    Moves R (v.waitforLoop p packetType timer fuel rc) := by
  induction fuel generalizing rc with
  | zero => exact .throw _
  | succ fuel ih =>
    refine .bind hexpired fun expired => .ite (.pure _) ?_
    refine .bind hcycle fun rc => ?_
    exact .ite (ih rc) (.pure _)

variable {v} {R : Session χ ω τ H → Session χ ω τ H → Prop} [Std.Refl R]
  [IsTrans (Session χ ω τ H) R]

/-- Steps that may be made between reading a packet and the end of `cycle`. -/
structure Stays (v : Variant χ ω τ H) (R : Session χ ω τ H → Session χ ω τ H → Prop) : Prop where
  buf : ∀ s buf, R s { s with client := { s.client with buf := buf } }
  pingresp : ∀ s, R s { s with client := { s.client with pingOutstanding := false } }
  sendPacket : ∀ length timer, Moves R (v.sendPacket length timer)
  deliver : ∀ topicName msg, Moves R (v.deliver topicName msg)
  deliverUnread : ∀ topicName msg, Moves R (v.deliverUnread topicName msg)
  answered : ∀ packetType id, Moves R (v.answered packetType id)
  keepalive : Moves R v.keepalive
  closeSession : Moves R v.closeSession

variable (h : v.Stays R)
include h

theorem Stays.sendAck (packettype : MsgType) (id : UInt16) (timer : τ) :
    Moves R (v.sendAck packettype id timer) := by
  refine .bind (serialize_moves h.buf _) fun len => ?_
  exact .ite (.pure _) (h.sendPacket _ timer)

theorem Stays.acknowledge (msg : MQTTMessage) (timer : τ) :
    Moves R (v.acknowledge msg timer) := by
  refine .ite ?_ (.ite ?_ (.pure _))
  · exact .bind (ofOption_moves _) fun id => h.sendAck .puback id timer
  · exact .bind (ofOption_moves _) fun id => h.sendAck .pubrec id timer

theorem Stays.handOver (stored : PublishStored) : Moves R (v.handOver stored) := by
  cases stored with
  | nothing => exact .throw _
  | headerOnly dup qos retained topicName =>
    exact .bind (h.deliverUnread topicName _) fun _ => .pure _
  | whole fields => exact .bind (h.deliver fields.topicName _) fun _ => .pure _

theorem Stays.casePublish (timer : τ) : Moves R (v.casePublish timer) := by
  refine .bind getClient_moves fun c => .bind (ofOption_moves _) fun result => ?_
  refine .ite (.pure _) (.bind (h.handOver result.2) fun msg => ?_)
  exact .ite (.bind (h.acknowledge msg timer) fun rc => .pure _) (.pure _)

theorem Stays.caseAck (packetType : MsgType) (timer : τ) :
    Moves R (v.caseAck packetType timer) := by
  refine .bind getClient_moves fun c => .bind (ofOption_moves _) fun result => ?_
  refine .ite (.pure _) (.bind (ofOption_moves _) fun packetid => ?_)
  refine .bind (h.sendAck _ _ timer) fun rc => .ite (.pure _) ?_
  exact .bind (h.answered packetType _) fun _ => .pure _

theorem Stays.handlePacket (packetType : ℤ) (timer : τ) :
    Moves R (v.handlePacket packetType timer) := by
  refine .ite (.pure _) ?_
  cases MsgType.ofCode packetType with
  | none => exact .pure _
  | some type =>
    cases type with
    | publish => exact h.casePublish timer
    | pubrec => exact h.caseAck .pubrec timer
    | pubrel => exact h.caseAck .pubrel timer
    | pingresp => exact .bind h.pingresp fun _ => .pure _
    | connect | connack | puback | pubcomp | subscribe | suback | unsubscribe | unsuback |
      pingreq | disconnect => exact .pure _

theorem Stays.checkKeepalive (outcome : Outcome) : Moves R (v.checkKeepalive outcome) :=
  .ite (.pure _) (.bind h.keepalive fun _ => .pure _)

theorem Stays.closeIfConnected : Moves R v.closeIfConnected :=
  .bind getClient_moves fun _ => .ite h.closeSession (.pure _)

/-- After a packet has been read `cycle` makes such steps only. -/
theorem Stays.afterRead (packetType : ℤ) (timer : τ) : Moves R (do
    let outcome ← v.handlePacket packetType timer
    let rc ← v.checkKeepalive outcome
    if rc = success then pure packetType
    else
      v.closeIfConnected
      pure rc) := by
  refine .bind (h.handlePacket packetType timer) fun outcome => ?_
  refine .bind (h.checkKeepalive outcome) fun rc => .ite (.pure _) ?_
  exact .bind h.closeIfConnected fun _ => .pure _

end Moves

end Variant
end MqttEmbedded
