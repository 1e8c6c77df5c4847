import MqttEmbedded.Client.Cycle
import MqttEmbedded.Lib.Approximation

/-!
# Every wait is bounded by a timer

The loops of the clients have no bound of their own: a packet is sent, or waited for, until
a timer expires. When the clock runs while timers are asked, a loop makes no more rounds
than there are ticks left, so that a run that is followed for so many rounds is followed
to its end, whatever the network does.
-/

namespace MqttEmbedded

open Hoare

variable {χ ω τ H α β : Type}

/-- No function turns the clock back, and asking a timer takes time. A timer that has not
expired is asked before its deadline, and that is at most as far away as the timer was
set to; there are `rate` ticks in a millisecond. -/
structure Ticking (p : Platform ω τ H) (clock : ω → ℕ) (deadline : τ → ℕ) (rate : ℕ) : Prop where
  mqttread : ∀ len timeout w, clock w ≤ clock (p.mqttread len timeout w).2
  mqttwrite : ∀ buffer len timeout w, clock w ≤ clock (p.mqttwrite buffer len timeout w).2
  timerInit : ∀ w, clock w ≤ clock (p.timerInit w).2
  timerIsExpired : ∀ timer w, clock w < clock (p.timerIsExpired timer w).2
  timerCountdownMS : ∀ timer ms w, clock w ≤ clock (p.timerCountdownMS timer ms w).2
  timerCountdown : ∀ timer seconds w, clock w ≤ clock (p.timerCountdown timer seconds w).2
  timerLeftMS : ∀ timer w, clock w ≤ clock (p.timerLeftMS timer w).2
  invoke : ∀ fp md w, clock w ≤ clock (p.invoke fp md w)
  unexpired : ∀ timer w, (p.timerIsExpired timer w).1 = false → clock w < deadline timer
  deadlineMS : ∀ timer ms w, deadline (p.timerCountdownMS timer ms w).1 ≤
    clock (p.timerCountdownMS timer ms w).2 + rate * ms

/-- The clock shows `start` at least, and a command takes at most `limit` milliseconds. -/
structure Within (clock : ω → ℕ) (start limit : ℕ) (s : Session χ ω τ H) : Prop where
  started : start ≤ clock s.world
  limited : s.client.commandTimeoutMs ≤ limit

/-- Started so, the program is followed to its end. -/
abbrev Finishes (clock : ω → ℕ) (start limit : ℕ) (x : Prog (Session χ ω τ H) α) : Prop :=
  Spares (Within clock start limit) Fault.outOfFuel x

section Rules

variable {p : Platform ω τ H} {clock : ω → ℕ} {deadline : τ → ℕ} {rate start limit : ℕ}

theorem undefined_ne_outOfFuel : Fault.undefined ≠ Fault.outOfFuel := by decide

theorem ask_finishes {f : ω → α × ω} (h : ∀ w, clock w ≤ clock (f w).2) :
    Finishes clock start limit (ask f : Prog (Session χ ω τ H) α) :=
  fun s hs => ⟨hs.started.trans (h s.world), hs.limited⟩

theorem modifyClient_finishes {f : MQTTClient τ H → MQTTClient τ H}
    (h : ∀ c, (f c).commandTimeoutMs = c.commandTimeoutMs) :
    Finishes clock start limit (modifyClient f : Prog (Session χ ω τ H) PUnit) :=
  fun s hs => ⟨hs.started, (h s.client).trans_le hs.limited⟩

theorem modifyOwn_finishes (f : χ → χ) :
    Finishes clock start limit (modifyOwn f : Prog (Session χ ω τ H) PUnit) :=
  fun _ hs => ⟨hs.started, hs.limited⟩

theorem getClient_finishes :
    Finishes clock start limit (getClient : Prog (Session χ ω τ H) (MQTTClient τ H)) :=
  fun _ hs => hs

theorem getOwn_finishes : Finishes clock start limit (getOwn : Prog (Session χ ω τ H) χ) :=
  fun _ hs => hs

theorem ofOption_finishes (result : Option α) :
    Finishes clock start limit (ofOption result : Prog (Session χ ω τ H) α) := by
  cases result with
  | none => exact .throw undefined_ne_outOfFuel
  | some a => exact .pure a

theorem serialize_finishes (f : List UInt8 → Option (ℤ × List UInt8)) :
    Finishes clock start limit (serialize f : Prog (Session χ ω τ H) ℤ) := by
  refine .bind getClient_finishes fun c => .bind (ofOption_finishes _) fun result => ?_
  exact .bind (modifyClient_finishes fun _ => rfl) fun _ => .pure _

theorem encodeIntoReadbuf_finishes (position length : ℕ) :
    Finishes clock start limit
      (encodeIntoReadbuf position length : Prog (Session χ ω τ H) ℕ) := by
  refine .bind getClient_finishes fun c => .bind (ofOption_finishes _) fun encoded => ?_
  exact .bind (modifyClient_finishes fun _ => rfl) fun _ => .pure _

theorem bind_getClient_finishes {f : MQTTClient τ H → Prog (Session χ ω τ H) α}
    (h : ∀ c, c.commandTimeoutMs ≤ limit → Finishes clock start limit (f c)) :
    Finishes clock start limit (getClient >>= f) :=
  fun s hs => h s.client hs.limited s hs

/-- There is fuel for all of a list of waits. -/
theorem exists_fuel (rate : ℕ) (waits : List ℕ) : ∃ fuel, ∀ ms ∈ waits, rate * ms < fuel :=
  ⟨rate * waits.sum + 1, fun ms hms =>
    Nat.lt_succ_of_le (Nat.mul_le_mul_left rate (List.single_le_sum (by simp) ms hms))⟩

variable (ticking : Ticking p clock deadline rate)
include ticking

theorem newTimer_finishes {ms : ℕ} {f : τ → Prog (Session χ ω τ H) α}
    (h : ∀ timer now, start ≤ now → deadline timer ≤ now + rate * ms →
      Finishes clock now limit (f timer)) :
    Finishes clock start limit (newTimer p ms >>= f) := by
  intro s hs
  simp only [newTimer, wp_bind, wp_ask]
  generalize hinit : p.timerInit s.world = fresh
  generalize hset : p.timerCountdownMS fresh.1 ms fresh.2 = timer
  have hstart : start ≤ clock timer.2 := by
    have hfresh := ticking.timerInit s.world
    have htimer := ticking.timerCountdownMS fresh.1 ms fresh.2
    rw [hinit] at hfresh
    rw [hset] at htimer
    exact hs.started.trans (hfresh.trans htimer)
  have hdeadline := ticking.deadlineMS fresh.1 ms fresh.2
  rw [hset] at hdeadline
  have hnow : Within clock (clock timer.2) limit { s with world := timer.2 } :=
    ⟨le_rfl, hs.limited⟩
  apply wp_mono (h timer.1 (clock timer.2) hstart hdeadline _ hnow)
  · exact fun _ t ht => ⟨hstart.trans ht.started, ht.limited⟩
  · exact fun _ _ he => he

theorem commandTimer_finishes {fuel : ℕ} (hlimit : rate * limit < fuel) {c : MQTTClient τ H}
    (hc : c.commandTimeoutMs ≤ limit) {f : τ → Prog (Session χ ω τ H) α}
    (h : ∀ timer now, deadline timer - now < fuel → Finishes clock now limit (f timer)) :
    Finishes clock start limit (newTimer p c.commandTimeoutMs >>= f) := by
  refine newTimer_finishes ticking fun timer now _ hdeadline => h timer now ?_
  have hle : rate * c.commandTimeoutMs ≤ rate * limit := Nat.mul_le_mul_left rate hc
  omega

/-- Asking a timer takes time, and there is time left before one that has not expired. -/
theorem timerIsExpired_ticks {timer : τ} {s : Session χ ω τ H}
    {E : Fault → Session χ ω τ H → Prop} (hs : Within clock start limit s) :
    wp (ask (p.timerIsExpired timer)) (fun expired t => Within clock (clock t.world) limit t ∧
      start ≤ clock t.world ∧ clock s.world < clock t.world ∧
      (¬ expired = true → clock s.world < deadline timer)) E s := by
  have hlt := ticking.timerIsExpired timer s.world
  rw [wp_ask]
  refine ⟨⟨le_rfl, hs.limited⟩, hs.started.trans hlt.le, hlt, fun h => ?_⟩
  exact ticking.unexpired timer s.world (by simpa using h)

theorem readInto_finishes (position count : ℕ) (timeout : ℤ) :
    Finishes clock start limit (readInto p position count timeout : Prog (Session χ ω τ H) ℤ) := by
  intro s hs
  unfold wp readInto
  split_ifs
  · exact ⟨hs.started.trans (ticking.mqttread count timeout s.world), hs.limited⟩
  · exact undefined_ne_outOfFuel

theorem readBody_finishes (len remLen : ℕ) (timer : τ) :
    Finishes clock start limit (readBody p len remLen timer : Prog (Session χ ω τ H) Bool) := by
  refine .ite (fun _ => .pure _) fun _ => ?_
  refine .bind (ask_finishes (ticking.timerLeftMS timer)) fun left => ?_
  exact .bind (readInto_finishes ticking len remLen left) fun rc => .pure _

theorem recordReceived_finishes :
    Finishes clock start limit (recordReceived p : Prog (Session χ ω τ H) PUnit) := by
  refine .bind getClient_finishes fun c => .ite (fun _ => ?_) fun _ => .pure _
  refine .bind (ask_finishes (ticking.timerCountdown _ _)) fun lastReceived => ?_
  exact modifyClient_finishes fun _ => rfl

theorem readRemaining_finishes (tooLong : ℕ → ℕ → ℕ → Bool) (shortBody : ℤ) (timer : τ)
    (remLen : ℕ) : Finishes clock start limit
      (readRemaining p tooLong shortBody timer remLen : Prog (Session χ ω τ H) ℤ) := by
  refine .bind (encodeIntoReadbuf_finishes 1 remLen) fun n => .bind getClient_finishes fun c => ?_
  refine .ite (fun _ => .pure _) fun _ => ?_
  refine .bind (readBody_finishes ticking _ remLen timer) fun complete => ?_
  refine .ite (fun _ => .bind getClient_finishes fun c => ?_) fun _ => .pure _
  exact .bind (recordReceived_finishes ticking) fun _ => .pure _

theorem readPacketWith_finishes (tooLong : ℕ → ℕ → ℕ → Bool) (shortBody : ℤ) (timer : τ) :
    Finishes clock start limit
      (readPacketWith p tooLong shortBody timer : Prog (Session χ ω τ H) ℤ) := by
  refine .bind (ask_finishes (ticking.timerLeftMS timer)) fun left => ?_
  refine .bind (readInto_finishes ticking 0 1 left) fun rc => .ite (fun _ => .pure _) fun _ => ?_
  refine .bind (ask_finishes (ticking.timerLeftMS timer)) fun left => ?_
  refine .bind (decodeLoop_keeps (ask_finishes (ticking.mqttread 1 left)) 4 0 0 1) fun decoded => ?_
  exact readRemaining_finishes ticking tooLong shortBody timer decoded.2

theorem clock_invokeAll (md : MessageData) (fps : List H) (w : ω) :
    clock w ≤ clock (invokeAll p md fps w) := by
  induction fps generalizing w with
  | nil => exact le_rfl
  | cons fp fps ih => exact (ticking.invoke fp md w).trans (ih _)

theorem deliverMessage_finishes (topicName : MQTTString) (message : MQTTMessage) :
    Finishes clock start limit
      (deliverMessage p topicName message : Prog (Session χ ω τ H) ℤ) := by
  intro s hs
  rw [wp_ok (deliverMessage_called topicName message s)]
  exact ⟨hs.started.trans (clock_invokeAll ticking _ _ _), hs.limited⟩

end Rules

namespace Variant

variable {p : Platform ω τ H} {clock : ω → ℕ} {deadline : τ → ℕ} {rate start limit fuel : ℕ}

/-- What is different between the clients is followed to its end while this timer runs. -/
structure Finishing (v : Variant χ ω τ H) (clock : ω → ℕ) (start limit : ℕ) (timer : τ) :
    Prop where
  readPacket : Finishes clock start limit (v.readPacket timer)
  sendPacket : ∀ length, Finishes clock start limit (v.sendPacket length timer)
  keepalive : Finishes clock start limit v.keepalive
  closeSession : Finishes clock start limit v.closeSession
  deliver : ∀ topicName msg, Finishes clock start limit (v.deliver topicName msg)
  deliverUnread : ∀ topicName msg, Finishes clock start limit (v.deliverUnread topicName msg)
  answered : ∀ packetType id, Finishes clock start limit (v.answered packetType id)

namespace Finishing

variable {v : Variant χ ω τ H} {timer : τ} (h : v.Finishing clock start limit timer)
include h

theorem sendAck (packettype : MsgType) (id : UInt16) :
    Finishes clock start limit (v.sendAck packettype id timer) := by
  refine .bind (serialize_finishes _) fun len => ?_
  exact .ite (fun _ => .pure _) fun _ => h.sendPacket _

theorem acknowledge (msg : MQTTMessage) :
    Finishes clock start limit (v.acknowledge msg timer) := by
  refine .ite (fun _ => ?_) fun _ => .ite (fun _ => ?_) fun _ => .pure _
  · exact .bind (ofOption_finishes _) fun id => h.sendAck .puback id
  · exact .bind (ofOption_finishes _) fun id => h.sendAck .pubrec id

theorem handOver (stored : PublishStored) :
    Finishes clock start limit (v.handOver stored) := by
  cases stored with
  | nothing => exact .throw undefined_ne_outOfFuel
  | headerOnly dup qos retained topicName =>
    exact .bind (h.deliverUnread topicName _) fun _ => .pure _
  | whole fields => exact .bind (h.deliver fields.topicName _) fun _ => .pure _

theorem casePublish : Finishes clock start limit (v.casePublish timer) := by
  refine .bind getClient_finishes fun c => .bind (ofOption_finishes _) fun result => ?_
  refine .ite (fun _ => .pure _) fun _ => .bind (h.handOver result.2) fun msg => ?_
  exact .ite (fun _ => .bind (h.acknowledge msg) fun rc => .pure _) fun _ => .pure _

theorem caseAck (packetType : MsgType) :
    Finishes clock start limit (v.caseAck packetType timer) := by
  refine .bind getClient_finishes fun c => .bind (ofOption_finishes _) fun result => ?_
  refine .ite (fun _ => .pure _) fun _ => .bind (ofOption_finishes _) fun packetid => ?_
  refine .bind (h.sendAck _ _) fun rc => .ite (fun _ => .pure _) fun _ => ?_
  exact .bind (h.answered packetType _) fun _ => .pure _

theorem handlePacket (packetType : ℤ) :
    Finishes clock start limit (v.handlePacket packetType timer) := by
  refine .ite (fun _ => .pure _) fun _ => ?_
  cases MsgType.ofCode packetType with
  | none => exact .pure _
  | some type =>
    cases type with
    | publish => exact h.casePublish
    | pubrec => exact h.caseAck .pubrec
    | pubrel => exact h.caseAck .pubrel
    | pingresp => exact .bind (modifyClient_finishes fun _ => rfl) fun _ => .pure _
    | connect | connack | puback | pubcomp | subscribe | suback | unsubscribe | unsuback |
      pingreq | disconnect => exact .pure _

theorem cycle : Finishes clock start limit (v.cycle timer) := by
  have hkeepalive (outcome : Outcome) : Finishes clock start limit (v.checkKeepalive outcome) :=
    .ite (fun _ => .pure _) fun _ => .bind h.keepalive fun _ => .pure _
  have hclose : Finishes clock start limit v.closeIfConnected :=
    .bind getClient_finishes fun _ => .ite (fun _ => h.closeSession) fun _ => .pure _
  refine .bind h.readPacket fun packetType => .bind (h.handlePacket packetType) fun outcome => ?_
  refine .bind (hkeepalive outcome) fun rc => .ite (fun _ => .pure _) fun _ => ?_
  exact .bind hclose fun _ => .pure _

end Finishing

/-- A loop that asks the timer in every round, and goes on while it has not expired, makes
at most as many rounds as there are ticks left. -/
theorem waitforLoop_finishes {v : Variant χ ω τ H} (ticking : Ticking p clock deadline rate)
    {timer : τ} (hcycle : ∀ now, start ≤ now → Finishes clock now limit (v.cycle timer))
    (htimer : deadline timer - start < fuel) (packetType : MsgType) (rc : ℤ) :
    Finishes clock start limit (v.waitforLoop p packetType timer fuel rc) := by
  intro s hs
  apply wp_rounds (v.waitforLoop p packetType timer) (I := Within clock start limit)
    (m := fun t => deadline timer - clock t.world)
  · intro rounds rc s hs hnext
    rw [waitforLoop, wp_bind]
    apply wp_imp (timerIsExpired_ticks ticking hs)
    rintro expired t ⟨ht, hstart, hlt, hleft⟩
    rw [wp_ite, wp_pure, wp_bind]
    refine ⟨fun _ => ⟨hstart, ht.limited⟩, fun hunexpired => ?_⟩
    apply wp_imp (hcycle _ hstart t ht)
    intro rc u hu
    have hlater : Within clock start limit u := ⟨hstart.trans hu.started, hu.limited⟩
    have htime := hu.started
    have hbefore := hleft hunexpired
    rw [wp_ite, wp_pure]
    exact ⟨fun _ => hnext rc u hlater (by omega), fun _ => hlater⟩
  · exact hs
  · have hstarted := hs.started
    omega

/-- `v` gives up before `v'` does, and is otherwise the same. -/
structure Approximates (v v' : Variant χ ω τ H) : Prop where
  readPacket : v'.readPacket = v.readPacket
  sendPacket : ∀ length timer,
    Hoare.Approximates .outOfFuel (v.sendPacket length timer) (v'.sendPacket length timer)
  keepalive : Hoare.Approximates .outOfFuel v.keepalive v'.keepalive
  closeSession : v'.closeSession = v.closeSession
  deliver : v'.deliver = v.deliver
  deliverUnread : v'.deliverUnread = v.deliverUnread
  answered : v'.answered = v.answered

namespace Approximates

variable {v v' : Variant χ ω τ H} (h : v.Approximates v') (timer : τ)
include h

theorem sendAck (packettype : MsgType) (id : UInt16) :
    Hoare.Approximates .outOfFuel (v.sendAck packettype id timer)
      (v'.sendAck packettype id timer) := by
  refine .bind (.refl _ _) fun len => ?_
  exact .ite (.refl _ _) (h.sendPacket _ timer)

theorem acknowledge (msg : MQTTMessage) :
    Hoare.Approximates .outOfFuel (v.acknowledge msg timer) (v'.acknowledge msg timer) := by
  refine .ite ?_ (.ite ?_ (.refl _ _))
  · exact .bind (.refl _ _) fun id => h.sendAck timer .puback id
  · exact .bind (.refl _ _) fun id => h.sendAck timer .pubrec id

theorem handOver : v'.handOver = v.handOver := by
  funext stored
  cases stored with
  | nothing => rfl
  | headerOnly dup qos retained topicName =>
    rw [Variant.handOver, Variant.handOver, h.deliverUnread]
  | whole fields => rw [Variant.handOver, Variant.handOver, h.deliver]

theorem casePublish :
    Hoare.Approximates .outOfFuel (v.casePublish timer) (v'.casePublish timer) := by
  unfold Variant.casePublish
  rw [h.handOver]
  refine .bind (.refl _ _) fun c => .bind (.refl _ _) fun result => .ite (.refl _ _) ?_
  refine .bind (.refl _ _) fun msg => .ite ?_ (.refl _ _)
  exact .bind (h.acknowledge timer msg) fun rc => .refl _ _

theorem caseAck (packetType : MsgType) :
    Hoare.Approximates .outOfFuel (v.caseAck packetType timer) (v'.caseAck packetType timer) := by
  unfold Variant.caseAck
  rw [h.answered]
  refine .bind (.refl _ _) fun c => .bind (.refl _ _) fun result => .ite (.refl _ _) ?_
  refine .bind (.refl _ _) fun packetid => ?_
  exact .bind (h.sendAck timer _ _) fun rc => .refl _ _

theorem handlePacket (packetType : ℤ) :
    Hoare.Approximates .outOfFuel (v.handlePacket packetType timer)
      (v'.handlePacket packetType timer) := by
  refine .ite (.refl _ _) ?_
  cases MsgType.ofCode packetType with
  | none => exact .refl _ _
  | some type =>
    cases type with
    | publish => exact h.casePublish timer
    | pubrec => exact h.caseAck timer .pubrec
    | pubrel => exact h.caseAck timer .pubrel
    | connect | connack | puback | pubcomp | subscribe | suback | unsubscribe | unsuback |
      pingreq | pingresp | disconnect => exact .refl _ _

theorem cycle : Hoare.Approximates .outOfFuel (v.cycle timer) (v'.cycle timer) := by
  unfold Variant.cycle Variant.closeIfConnected
  rw [h.readPacket, h.closeSession]
  have hkeepalive (outcome : Outcome) : Hoare.Approximates .outOfFuel
      (v.checkKeepalive outcome) (v'.checkKeepalive outcome) :=
    .ite (.refl _ _) (.bind h.keepalive fun _ => .refl _ _)
  refine .bind (.refl _ _) fun packetType => ?_
  refine .bind (h.handlePacket timer packetType) fun outcome => ?_
  exact .bind (hkeepalive outcome) fun rc => .refl _ _

theorem waitforLoop (p : Platform ω τ H) (packetType : MsgType) : ∀ {fuel fuel' : ℕ},
    fuel ≤ fuel' → ∀ rc : ℤ, Hoare.Approximates .outOfFuel
      (v.waitforLoop p packetType timer fuel rc) (v'.waitforLoop p packetType timer fuel' rc)
  | 0, _, _, _ => .throw _ _
  | _ + 1, 0, hle, _ => absurd hle (Nat.not_succ_le_zero _)
  | fuel + 1, fuel' + 1, hle, _ => by
    refine .bind (.refl _ _) fun expired => .ite (.refl _ _) ?_
    refine .bind (h.cycle timer) fun rc => .ite ?_ (.refl _ _)
    exact waitforLoop p packetType (Nat.le_of_succ_le_succ hle) rc

end Approximates

end Variant

/-- A network that takes nothing and sends nothing, and never says that it has failed. The
world is the clock, and asking a timer takes a millisecond. -/
def stalledPlatform : Platform ℕ ℕ Unit where
  mqttread := fun _ _ now => (.failed 0 Delivery.none_nonpos, now)
  mqttwrite := fun _ _ _ now => (0, now)
  timerInit := fun now => (0, now)
  timerIsExpired := fun timer now => (timer ≤ now, now + 1)
  timerCountdownMS := fun _ ms now => (now + ms, now)
  timerCountdown := fun _ seconds now => (now + 1000 * seconds, now)
  timerLeftMS := fun timer now => (timer - now, now)
  invoke := fun _ _ now => now

theorem stalledPlatform_ticking : Ticking stalledPlatform id id 1 where
  mqttread := fun _ _ _ => le_rfl
  mqttwrite := fun _ _ _ _ => le_rfl
  timerInit := fun _ => le_rfl
  timerIsExpired := fun _ => Nat.lt_succ_self
  timerCountdownMS := fun _ _ _ => le_rfl
  timerCountdown := fun _ _ _ => le_rfl
  timerLeftMS := fun _ _ => le_rfl
  invoke := fun _ _ _ => le_rfl
  unexpired := fun _ _ h => not_le.mp (of_decide_eq_false h)
  deadlineMS := fun _ ms now => (congrArg (now + ·) (Nat.one_mul ms)).ge

end MqttEmbedded
