import Mathlib.Logic.Relation
import MqttEmbedded.Client.Respond

/-!
# The course of a session

A network and an application are free in what they answer. What can be said of a
call on any platform is how it goes on from the packets that `readPacket` has
returned on the way. A course of a session is made of such receipts and of steps
that do not read from the network.
-/

namespace MqttEmbedded

open Region Hoare

variable {χ ω τ H : Type}

/-- A step that leaves the receive buffer and the incoming network alone. -/
inductive StillStep (p : Platform ω τ H) : Session χ ω τ H → Session χ ω τ H → Prop
  | client s c : c.readbuf = s.client.readbuf → StillStep p s { s with client := c }
  | own s x : StillStep p s { s with own := x }
  | mqttwrite buffer len timeout s :
    StillStep p s { s with world := (p.mqttwrite buffer len timeout s.world).2 }
  | timerInit s : StillStep p s { s with world := (p.timerInit s.world).2 }
  | timerIsExpired timer s :
    StillStep p s { s with world := (p.timerIsExpired timer s.world).2 }
  | timerCountdownMS timer ms s :
    StillStep p s { s with world := (p.timerCountdownMS timer ms s.world).2 }
  | timerCountdown timer seconds s :
    StillStep p s { s with world := (p.timerCountdown timer seconds s.world).2 }
  | timerLeftMS timer s : StillStep p s { s with world := (p.timerLeftMS timer s.world).2 }
  | invoke fp md s : StillStep p s { s with world := p.invoke fp md s.world }

def Still (p : Platform ω τ H) : Session χ ω τ H → Session χ ω τ H → Prop :=
  Relation.ReflTransGen (StillStep p)

instance (p : Platform ω τ H) : Std.Refl (Still p : Session χ ω τ H → _ → Prop) :=
  inferInstanceAs (Std.Refl (Relation.ReflTransGen _))

instance (p : Platform ω τ H) : IsTrans (Session χ ω τ H) (Still p) :=
  inferInstanceAs (IsTrans _ (Relation.ReflTransGen _))

theorem still_quiet (p : Platform ω τ H) : p.Quiet (Still p : Session χ ω τ H → _ → Prop) where
  client := fun s c h => .single (.client s c h)
  mqttwrite := fun buffer len timeout s => .single (.mqttwrite buffer len timeout s)
  timerInit := fun s => .single (.timerInit s)
  timerIsExpired := fun timer s => .single (.timerIsExpired timer s)
  timerCountdownMS := fun timer ms s => .single (.timerCountdownMS timer ms s)
  timerCountdown := fun timer seconds s => .single (.timerCountdown timer seconds s)
  timerLeftMS := fun timer s => .single (.timerLeftMS timer s)
  invoke := fun fp md s => .single (.invoke fp md s)

theorem Still.readbuf {p : Platform ω τ H} {s t : Session χ ω τ H} (h : Still p s t) :
    t.client.readbuf = s.client.readbuf := by
  induction h with
  | refl => rfl
  | tail _ hstep ih =>
    cases hstep with
    | client _ _ hbuf => exact hbuf.trans ih
    | own | mqttwrite | timerInit | timerIsExpired | timerCountdownMS | timerCountdown |
      timerLeftMS | invoke => exact ih

/-- What `readPacket` has returned, and the receive buffer it has left. -/
structure Receipt where
  packetType : ℤ
  readbuf : List UInt8
  deriving DecidableEq

/-- The session has gone from one state to the other with these receipts. -/
inductive Course (p : Platform ω τ H) (readPacket : τ → Prog (Session χ ω τ H) ℤ) :
    Session χ ω τ H → List Receipt → Session χ ω τ H → Prop
  | still {s t} : Still p s t → Course p readPacket s [] t
  | read {s t timer packetType} : readPacket timer s = .ok packetType t →
      Course p readPacket s [⟨packetType, t.client.readbuf⟩] t
  | trans {s t u receipts receipts'} : Course p readPacket s receipts t →
      Course p readPacket t receipts' u → Course p readPacket s (receipts ++ receipts') u

namespace Course

variable {p : Platform ω τ H} {readPacket : τ → Prog (Session χ ω τ H) ℤ}
  {s t u : Session χ ω τ H} {receipts : List Receipt}

theorem then_still (h : Course p readPacket s receipts t) (h' : Still p t u) :
    Course p readPacket s receipts u := by
  have h'' := h.trans (.still h')
  rwa [List.append_nil] at h''

theorem after_still (h : Still p s t) (h' : Course p readPacket t receipts u) :
    Course p readPacket s receipts u :=
  (Course.still h).trans h'

end Course

/-- `switch (packet_type)` has a case for it. -/
def HasCase (packetType : ℤ) : Prop :=
  packetType = 0 ∨ ∃ type ∈ [MsgType.connack, .publish, .puback, .pubrec, .pubrel, .pubcomp,
    .suback, .unsuback, .pingresp], packetType = type.code

instance (packetType : ℤ) : Decidable (HasCase packetType) :=
  inferInstanceAs (Decidable (_ ∨ _))

theorem HasCase.nonneg {packetType : ℤ} (h : HasCase packetType) : 0 ≤ packetType := by
  rcases h with rfl | ⟨type, -, rfl⟩
  · exact le_rfl
  · exact Int.natCast_nonneg _

theorem same_inward (p : Platform ω τ H) :
    p.Inward (SameSession : Session χ ω τ H → Session χ ω τ H → Prop) :=
  inward_of_world p (fun _ _ => ⟨rfl, rfl, rfl⟩) (fun _ _ => ⟨rfl, rfl, rfl⟩)
    fun _ _ => ⟨rfl, rfl, rfl⟩

/-- How a case of the switch ends: well, or with a failure and to the exit. -/
def Outcome.Regular (outcome : Outcome) : Prop :=
  outcome.rc = success ∨ outcome = ⟨failure, true⟩

namespace Variant

variable {v : Variant χ ω τ H} {s : Session χ ω τ H} {timer : τ} {packetType : ℤ}

theorem handlePacket_unknown (h : ¬ HasCase packetType) :
    v.handlePacket packetType timer = pure ⟨packetType, true⟩ := by
  have hzero : packetType ≠ 0 := fun hzero => h (.inl hzero)
  rw [handlePacket, if_neg hzero]
  cases htype : MsgType.ofCode packetType with
  | none => rfl
  | some type =>
    have hcode := MsgType.code_of_ofCode htype
    cases type with
    | connect | subscribe | unsubscribe | pingreq | disconnect => rfl
    | connack | publish | puback | pubrec | pubrel | pubcomp | suback | unsuback | pingresp =>
      exact absurd (.inr ⟨_, by decide, hcode⟩) h

/-- The packets of the client are sent or they are not. -/
def SendsOrFails (v : Variant χ ω τ H) : Prop :=
  ∀ length timer s, wp (v.sendPacket length timer) (fun rc _ => rc = success ∨ rc = failure)
    (fun _ _ => True) s

theorem sendAck_result (h : v.SendsOrFails) (packettype : MsgType) (id : UInt16) :
    wp (v.sendAck packettype id timer) (fun rc _ => rc = success ∨ rc = failure)
      (fun _ _ => True) s := by
  rw [wp_sendAck]
  exact ⟨fun _ => h _ _ _, fun _ => .inr rfl⟩

theorem acknowledge_result (h : v.SendsOrFails) (msg : MQTTMessage) :
    wp (v.acknowledge msg timer) (fun rc _ => rc = success ∨ rc = failure) (fun _ _ => True) s := by
  unfold acknowledge
  simp only [wp_ite, wp_bind, wp_pure]
  refine ⟨fun _ => ?_, fun _ => ⟨fun _ => ?_, fun _ => .inr trivial⟩⟩
  · exact wp_ofOption fun id _ => sendAck_result h _ id
  · exact wp_ofOption fun id _ => sendAck_result h _ id

theorem casePublish_regular (h : v.SendsOrFails) :
    wp (v.casePublish timer) (fun outcome _ => Outcome.Regular outcome) (fun _ _ => True) s := by
  unfold casePublish
  rw [wp_bind, wp_getClient, wp_bind]
  refine wp_ofOption fun result _ => ?_
  rw [wp_ite, wp_pure, wp_bind]
  refine ⟨fun _ => .inl rfl, fun _ => ?_⟩
  apply wp_imp (wp_true _)
  intro msg t _
  rw [wp_ite, wp_pure, wp_bind]
  refine ⟨fun _ => ?_, fun _ => .inl rfl⟩
  apply wp_imp (acknowledge_result h msg)
  rintro rc u (rfl | rfl)
  · exact .inl rfl
  · exact .inr rfl

theorem caseAck_regular (h : v.SendsOrFails) (type : MsgType) :
    wp (v.caseAck type timer) (fun outcome _ => Outcome.Regular outcome) (fun _ _ => True) s := by
  unfold caseAck
  rw [wp_bind, wp_getClient, wp_bind]
  refine wp_ofOption fun result _ => ?_
  rw [wp_ite, wp_pure, wp_bind]
  refine ⟨fun _ => .inr rfl, fun _ => wp_ofOption fun id _ => ?_⟩
  rw [wp_bind]
  apply wp_imp (sendAck_result h _ _)
  intro rc t _
  rw [wp_ite, wp_pure, wp_bind]
  refine ⟨fun _ => .inr rfl, fun _ => ?_⟩
  apply wp_imp (wp_true _)
  exact fun _ _ _ => .inl rfl

theorem handlePacket_known (h : v.SendsOrFails)
    (hcase : HasCase packetType) :
    wp (v.handlePacket packetType timer) (fun outcome _ => Outcome.Regular outcome)
      (fun _ _ => True) s := by
  rcases hcase with rfl | ⟨type, hmem, rfl⟩
  · exact .inl rfl
  · have hcode := type.code_pos
    rw [handlePacket, if_neg (by omega), MsgType.ofCode_code]
    simp only [List.mem_cons, List.not_mem_nil, or_false] at hmem
    rcases hmem with rfl | rfl | rfl | rfl | rfl | rfl | rfl | rfl | rfl
    · exact .inl rfl
    · exact casePublish_regular h
    · exact .inl rfl
    · exact caseAck_regular h .pubrec
    · exact caseAck_regular h .pubrel
    · exact .inl rfl
    · exact .inl rfl
    · exact .inl rfl
    · exact .inl rfl

end Variant
end MqttEmbedded
