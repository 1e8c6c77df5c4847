import MqttEmbedded.Lib.Lockstep
import MqttEmbedded.Client.Cycle

/-!
# Two runs of what the clients share

A client that has the same record and the same world does the same, whatever differs
in what only one of the clients has.
-/

namespace MqttEmbedded

open Hoare

variable {χ ω τ H α : Type} {R : Session χ ω τ H → Session χ ω τ H → Prop}
  {p : Platform ω τ H} {v : Variant χ ω τ H}

/-- `R` relates sessions with the same record and the same world. Both may change, in the
same way, as long as no ping becomes outstanding. -/
structure Abreast (R : Session χ ω τ H → Session χ ω τ H → Prop) : Prop where
  same : ∀ {s s'}, R s s' → ∃ own', s' = { s with own := own' }
  moved : ∀ {s s'} (c : MQTTClient τ H) (w : ω), R s s' →
    (c.pingOutstanding = true → s.client.pingOutstanding = true) →
    R { s with client := c, world := w } { s' with client := c, world := w }

theorem ofOption_uniform (result : Option α) :
    Uniform R (ofOption result : Prog (Session χ ω τ H) α) := by
  cases result with
  | none => exact .throw _
  | some a => exact .pure a

theorem decodeLoop_uniform {getchar : Prog (Session χ ω τ H) (Delivery 1)}
    (hget : Uniform R getchar) :
    ∀ room len value multiplier : ℕ, Uniform R (decodeLoop getchar room len value multiplier)
  | 0, _, _, _ => .pure _
  | room + 1, len, value, multiplier => by
    refine .bind hget fun c => .ite (.pure _) ?_
    exact .ite (decodeLoop_uniform hget room _ _ _) (.pure _)

namespace Abreast

variable (h : Abreast R)
include h

theorem ask (f : ω → α × ω) : Uniform R (ask f) := by
  intro s s' hs
  obtain ⟨own', rfl⟩ := h.same hs
  exact .ok (h.moved s.client (f s.world).2 hs id)

theorem getClient : Uniform R (getClient : Prog (Session χ ω τ H) (MQTTClient τ H)) := by
  intro s s' hs
  obtain ⟨own', rfl⟩ := h.same hs
  exact .ok hs

theorem modifyClient {f : MQTTClient τ H → MQTTClient τ H}
    (hf : ∀ c, (f c).pingOutstanding = true → c.pingOutstanding = true) :
    Uniform R (modifyClient f) := by
  intro s s' hs
  obtain ⟨own', rfl⟩ := h.same hs
  exact .ok (h.moved (f s.client) s.world hs (hf s.client))

theorem invoke (fp : H) (md : MessageData) : Uniform R (invoke p fp md) := by
  intro s s' hs
  obtain ⟨own', rfl⟩ := h.same hs
  exact .ok (h.moved s.client (p.invoke fp md s.world) hs id)

theorem serialize (f : List UInt8 → Option (ℤ × List UInt8)) : Uniform R (serialize f) := by
  refine .bind h.getClient fun c => .bind (ofOption_uniform _) fun result => ?_
  exact .bind (h.modifyClient fun _ => id) fun _ => .pure _

theorem newTimer (ms : ℕ) : Uniform R (newTimer p ms) :=
  .bind (h.ask _) fun timer => h.ask (p.timerCountdownMS timer ms)

theorem readInto (position count : ℕ) (timeout : ℤ) :
    Uniform R (readInto p position count timeout) := by
  intro s s' hs
  obtain ⟨own', rfl⟩ := h.same hs
  unfold MqttEmbedded.readInto
  split_ifs
  · exact .ok (h.moved _ _ hs id)
  · exact .error hs

theorem recordReceived : Uniform R (recordReceived p) := by
  refine .bind h.getClient fun c => .ite ?_ (.pure _)
  exact .bind (h.ask _) fun lastReceived => h.modifyClient fun _ => id

theorem readBody (len remLen : ℕ) (timer : τ) : Uniform R (readBody p len remLen timer) := by
  refine .ite (.pure _) (.bind (h.ask _) fun left => ?_)
  exact .bind (h.readInto len remLen left) fun rc => .pure _

theorem encodeIntoReadbuf (position length : ℕ) :
    Uniform R (encodeIntoReadbuf position length : Prog (Session χ ω τ H) ℕ) := by
  refine .bind h.getClient fun c => .bind (ofOption_uniform _) fun encoded => ?_
  exact .bind (h.modifyClient fun _ => id) fun _ => .pure _

theorem readRemaining (tooLong : ℕ → ℕ → ℕ → Bool) (shortBody : ℤ) (timer : τ) (remLen : ℕ) :
    Uniform R (readRemaining p tooLong shortBody timer remLen) := by
  refine .bind (h.encodeIntoReadbuf 1 remLen) fun n => .bind h.getClient fun c => ?_
  refine .ite (.pure _) (.bind (h.readBody _ remLen timer) fun complete => ?_)
  refine .ite (.bind h.getClient fun c => ?_) (.pure _)
  exact .bind h.recordReceived fun _ => .pure _

theorem readPacketWith (tooLong : ℕ → ℕ → ℕ → Bool) (shortBody : ℤ) (timer : τ) :
    Uniform R (readPacketWith p tooLong shortBody timer) := by
  refine .bind (h.ask _) fun left => .bind (h.readInto 0 1 left) fun rc => .ite (.pure _) ?_
  refine .bind (h.ask _) fun left => ?_
  refine .bind (decodeLoop_uniform (h.ask _) 4 0 0 1) fun decoded => ?_
  exact h.readRemaining tooLong shortBody timer decoded.2

theorem callHandlers (md : MessageData) : ∀ (slots : List (MessageHandler H)) (rc : ℤ),
    Uniform R (callHandlers p md slots rc)
  | [], rc => .pure rc
  | ⟨some _, some fp⟩ :: slots, rc =>
    .ite (.bind (h.invoke fp md) fun _ => callHandlers md slots success) (callHandlers md slots rc)
  | ⟨none, _⟩ :: slots, rc => callHandlers md slots rc
  | ⟨some _, none⟩ :: slots, rc => callHandlers md slots rc

theorem deliverMessage (topicName : MQTTString) (message : MQTTMessage) :
    Uniform R (deliverMessage p topicName message) := by
  refine .bind h.getClient fun c => .bind (h.callHandlers _ _ _) fun rc => ?_
  cases c.defaultMessageHandler with
  | none => exact .pure rc
  | some fp => exact .ite (.bind (h.invoke fp _) fun _ => .pure _) (.pure _)

end Abreast

/-- What the client does at the branches, it does in the same way in both runs. -/
structure Variant.Alike (v : Variant χ ω τ H)
    (R : Session χ ω τ H → Session χ ω τ H → Prop) : Prop where
  abreast : Abreast R
  readPacket : ∀ timer, Uniform R (v.readPacket timer)
  sendPacket : ∀ length timer, Uniform R (v.sendPacket length timer)
  keepalive : Uniform R v.keepalive
  closeSession : Uniform R v.closeSession
  deliver : ∀ topicName msg, Uniform R (v.deliver topicName msg)
  deliverUnread : ∀ topicName msg, Uniform R (v.deliverUnread topicName msg)
  answered : ∀ packetType id, Uniform R (v.answered packetType id)

namespace Variant.Alike

variable (h : v.Alike R)
include h

theorem sendAck (packettype : MsgType) (id : UInt16) (timer : τ) :
    Uniform R (v.sendAck packettype id timer) := by
  refine .bind (h.abreast.serialize _) fun len => ?_
  exact .ite (.pure _) (h.sendPacket _ timer)

theorem acknowledge (msg : MQTTMessage) (timer : τ) : Uniform R (v.acknowledge msg timer) := by
  refine .ite ?_ (.ite ?_ (.pure _))
  · exact .bind (ofOption_uniform _) fun id => h.sendAck .puback id timer
  · exact .bind (ofOption_uniform _) fun id => h.sendAck .pubrec id timer

theorem handOver (stored : PublishStored) : Uniform R (v.handOver stored) := by
  cases stored with
  | nothing => exact .throw _
  | headerOnly dup qos retained topicName =>
    exact .bind (h.deliverUnread topicName _) fun _ => .pure _
  | whole fields => exact .bind (h.deliver fields.topicName _) fun _ => .pure _

theorem casePublish (timer : τ) : Uniform R (v.casePublish timer) := by
  refine .bind h.abreast.getClient fun c => .bind (ofOption_uniform _) fun result => ?_
  refine .ite (.pure _) (.bind (h.handOver result.2) fun msg => ?_)
  exact .ite (.bind (h.acknowledge msg timer) fun rc => .pure _) (.pure _)

theorem caseAck (packetType : MsgType) (timer : τ) :
    Uniform R (v.caseAck packetType timer) := by
  refine .bind h.abreast.getClient fun c => .bind (ofOption_uniform _) fun result => ?_
  refine .ite (.pure _) (.bind (ofOption_uniform _) fun packetid => ?_)
  refine .bind (h.sendAck _ _ timer) fun rc => .ite (.pure _) ?_
  exact .bind (h.answered packetType _) fun _ => .pure _

theorem handlePacket (packetType : ℤ) (timer : τ) :
    Uniform R (v.handlePacket packetType timer) := by
  refine .ite (.pure _) ?_
  cases MsgType.ofCode packetType with
  | none => exact .pure _
  | some type =>
    cases type with
    | publish => exact h.casePublish timer
    | pubrec => exact h.caseAck .pubrec timer
    | pubrel => exact h.caseAck .pubrel timer
    | pingresp =>
      exact .bind (h.abreast.modifyClient fun _ h => absurd h Bool.false_ne_true) fun _ => .pure _
    | connect | connack | puback | pubcomp | subscribe | suback | unsubscribe | unsuback |
      pingreq | disconnect => exact .pure _

theorem checkKeepalive (outcome : Outcome) : Uniform R (v.checkKeepalive outcome) :=
  .ite (.pure _) (.bind h.keepalive fun _ => .pure _)

theorem closeIfConnected : Uniform R v.closeIfConnected :=
  .bind h.abreast.getClient fun _ => .ite h.closeSession (.pure _)

theorem cycle (timer : τ) : Uniform R (v.cycle timer) := by
  refine .bind (h.readPacket timer) fun packetType => ?_
  refine .bind (h.handlePacket packetType timer) fun outcome => ?_
  refine .bind (h.checkKeepalive outcome) fun rc => .ite (.pure _) ?_
  exact .bind h.closeIfConnected fun _ => .pure _

theorem waitforLoop (p : Platform ω τ H) (packetType : MsgType) (timer : τ) (fuel : ℕ) (rc : ℤ) :
    Uniform R (v.waitforLoop p packetType timer fuel rc) := by
  induction fuel generalizing rc with
  | zero => exact .throw _
  | succ fuel ih =>
    refine .bind (h.abreast.ask _) fun expired => .ite (.pure _) ?_
    exact .bind (h.cycle timer) fun rc => .ite (ih rc) (.pure _)

end Variant.Alike

end MqttEmbedded
