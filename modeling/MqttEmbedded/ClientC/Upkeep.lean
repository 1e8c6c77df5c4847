import MqttEmbedded.ClientC.Operations

/-!
# What calls have in common

All the calls send and read packets and may close the session. A relation that allows
this holds between the states before and after a call, however it ends, if it allows
what that call does besides.
-/

namespace MqttEmbedded.ClientC

open Hoare

variable {ω τ H : Type}

/-- `R` allows to send, to read and to close the session. -/
structure Upkeep (p : Platform ω τ H) (R : Client ω τ H → Client ω τ H → Prop) : Prop
    extends Sends p R, p.Inward R where
  closeSession : Moves R (mqttCloseSession : Prog (Client ω τ H) PUnit)

section Moves

variable {p : Platform ω τ H} {fuel : ℕ} {R : Client ω τ H → Client ω τ H → Prop} [Std.Refl R]

theorem closeOnFailure_moves (hclose : Moves R (mqttCloseSession : Prog (Client ω τ H) PUnit))
    (rc : ℤ) : Moves R (closeOnFailure rc : Prog (Client ω τ H) PUnit) :=
  .ite hclose (.pure _)

variable [IsTrans (Client ω τ H) R] (upkeep : Upkeep p R)
include upkeep

theorem variant_upkeep : (variant p fuel).Stays R where
  buf := upkeep.buf
  pingresp := fun s => upkeep.pingOutstanding s false
  sendPacket := sendPacket_moves fuel upkeep.toSends
  deliver := deliver_moves upkeep.toOutward
  deliverUnread := deliverUnread_moves upkeep.toOutward
  answered := fun _ _ => .pure _
  keepalive := keepalive_moves fuel upkeep.toSends
  closeSession := upkeep.closeSession

theorem cycle_moves (timer : τ) : Moves R (cycle p fuel timer) :=
  .bind (readPacketWith_moves upkeep.toInward tooLong 0 timer) fun packetType =>
    (variant_upkeep upkeep).afterRead packetType timer

theorem waitfor_moves (packetType : MsgType) (timer : τ) :
    Moves R (waitfor p fuel packetType timer) :=
  Variant.waitforLoop_moves (upkeep.timerIsExpired timer) (cycle_moves upkeep timer) packetType fuel
    failure

theorem yieldLoop_moves (timer : τ) (rounds : ℕ) : Moves R (yieldLoop p fuel timer rounds) := by
  induction rounds with
  | zero => exact .throw _
  | succ rounds ih =>
    refine .bind (cycle_moves upkeep timer) fun rc => .ite (.pure failure) ?_
    refine .bind (upkeep.timerIsExpired timer) fun expired => ?_
    exact .ite (.pure success) ih

theorem transmit_moves {α : Type} {len : ℤ} {timer : τ} {short : α} {refused : ℤ → α}
    {next : Prog (Client ω τ H) α} (hnext : Moves R next) :
    Moves R (if len ≤ 0 then pure short
      else do
        let rc ← sendPacket p fuel len.toNat timer
        if rc ≠ success then pure (refused rc) else next) := by
  have hsend := sendPacket_moves fuel upkeep.toSends len.toNat timer
  refine .ite (.pure short) (.bind hsend fun rc => ?_)
  exact .ite (.pure (refused rc)) hnext

theorem await_moves {α : Type} (packetType : MsgType) (timer : τ) {missed : α}
    {got : MQTTClient τ H → Prog (Client ω τ H) α} (hgot : ∀ c, Moves R (got c)) :
    Moves R (do
      let rc ← waitfor p fuel packetType timer
      if rc = packetType.code then do
        let c ← getClient
        got c
      else pure missed) := by
  refine .bind (waitfor_moves upkeep packetType timer) fun rc => ?_
  exact .ite (.bind getClient_moves hgot) (.pure missed)

theorem awaitConnack_moves (timer : τ) (data : ConnackFields) :
    Moves R (awaitConnack p fuel timer data) := by
  refine await_moves upkeep .connack timer fun c => ?_
  exact .bind (ofOption_moves _) fun result => .pure _

theorem awaitAck_moves (packetType : MsgType) (timer : τ) :
    Moves R (awaitAck p fuel packetType timer) := by
  refine await_moves upkeep packetType timer fun c => ?_
  exact .bind (ofOption_moves _) fun result => .pure _

theorem awaitPublished_moves (qos : ℕ) (timer : τ) : Moves R (awaitPublished p fuel qos timer) := by
  refine .ite (awaitAck_moves upkeep .puback timer) ?_
  exact .ite (awaitAck_moves upkeep .pubcomp timer) (.pure success)

theorem awaitSuback_moves {topicFilter : CString} {messageHandler : Option H}
    (hset : Moves R (mqttSetMessageHandler topicFilter messageHandler : Prog (Client ω τ H) ℤ))
    (timer : τ) (data : ℤ) :
    Moves R (awaitSuback p fuel topicFilter messageHandler timer data) := by
  refine await_moves upkeep .suback timer fun c => .bind (ofOption_moves _) fun result => ?_
  exact .ite (.bind hset fun rc => .pure _) (.pure _)

theorem awaitUnsuback_moves {topicFilter : CString}
    (hset : Moves R (mqttSetMessageHandler topicFilter none : Prog (Client ω τ H) ℤ)) (timer : τ) :
    Moves R (awaitUnsuback p fuel topicFilter timer) := by
  refine await_moves upkeep .unsuback timer fun c => .bind (ofOption_moves _) fun result => ?_
  exact .ite (.bind hset fun rc => .pure success) (.pure success)

theorem mqttYield_moves (timeoutMs : ℕ) : Moves R (mqttYield p fuel timeoutMs) := by
  refine .bind (newTimer_moves upkeep.toDiscreet timeoutMs) fun timer => ?_
  exact yieldLoop_moves upkeep timer fuel

theorem mqttDisconnect_moves : Moves R (mqttDisconnect p fuel) := by
  refine .bind getClient_moves fun c => .bind (newTimer_moves upkeep.toDiscreet _) fun timer => ?_
  refine .bind (serialize_moves upkeep.buf _) fun len => .ite ?_ ?_
  · refine .bind (sendPacket_moves fuel upkeep.toSends len.toNat timer) fun rc => ?_
    exact .bind upkeep.closeSession fun _ => .pure rc
  · exact .bind upkeep.closeSession fun _ => .pure failure

/-- A connect sets what its options ask for, and opens the session. -/
theorem mqttConnect_moves {options : Option ConnectData}
    (hoptions : ∀ s keepAliveInterval, R s { s with client := { s.client with
      keepAliveInterval := keepAliveInterval
      cleansession := (options.getD connectDataInitializer).cleansession ≠ 0 } })
    (hopens : ∀ s, R s { s with client := { s.client with
      isconnected := true, pingOutstanding := false } }) :
    Moves R (mqttConnect p fuel options) := by
  refine .bind (.bind ?_ fun result => .ite ?_ (.pure result)) fun result => .pure result.1
  · refine .bind getClient_moves fun c => .ite (.pure _) ?_
    refine .bind (newTimer_moves upkeep.toDiscreet _) fun timer => ?_
    refine .bind (fun s => hoptions s _) fun _ => .bind getClient_moves fun c => ?_
    refine .bind (upkeep.toOutward.timerCountdown c.lastReceived c.keepAliveInterval) fun t => ?_
    have hreceived : Moves R (modifyClient fun c => { c with lastReceived := t }) :=
      fun s => upkeep.lastReceived s t
    refine .bind hreceived fun _ => .bind (serialize_moves upkeep.buf _) fun len => ?_
    exact transmit_moves upkeep (awaitConnack_moves upkeep timer _)
  · exact .bind (fun s => hopens s) fun _ => .pure result

end Moves

end MqttEmbedded.ClientC
