import MqttEmbedded.ClientC.Operations

/-!
# The keepalive interval

The timers of the client are deadlines on a clock. `keepalive` is called at any
time, with packets sent and received in between, and fails when a PINGREQ is
outstanding and one of its two timers has expired. The history of a client tells
whether the broker had the whole interval to answer in.
-/

namespace MqttEmbedded.ClientC

open Hoare

variable {ω H : Type}

/-- Timers are deadlines in milliseconds, on a clock that does not run backwards. Any
function may take its time; what it reads is the clock when it returns. -/
structure OnClock (p : Platform ω ℕ H) (clock : ω → ℕ) : Prop where
  mqttread : ∀ len timeout w, clock w ≤ clock (p.mqttread len timeout w).2
  mqttwrite : ∀ buffer len timeout w, clock w ≤ clock (p.mqttwrite buffer len timeout w).2
  timerInit : ∀ w, clock w ≤ clock (p.timerInit w).2
  timerIsExpired : ∀ timer w, clock w ≤ clock (p.timerIsExpired timer w).2
  timerCountdownMS : ∀ timer ms w, clock w ≤ clock (p.timerCountdownMS timer ms w).2
  timerCountdown : ∀ timer seconds w, clock w ≤ clock (p.timerCountdown timer seconds w).2
  timerLeftMS : ∀ timer w, clock w ≤ clock (p.timerLeftMS timer w).2
  invoke : ∀ fp md w, clock w ≤ clock (p.invoke fp md w)
  expired : ∀ timer w,
    (p.timerIsExpired timer w).1 = true ↔ timer ≤ clock (p.timerIsExpired timer w).2
  deadlineMS : ∀ timer ms w,
    (p.timerCountdownMS timer ms w).1 = clock (p.timerCountdownMS timer ms w).2 + ms
  deadline : ∀ timer seconds w, (p.timerCountdown timer seconds w).1 =
    clock (p.timerCountdown timer seconds w).2 + 1000 * seconds

/-- Time has passed, a PINGREQ has not been sent, and `last_sent` has at most been
restarted. -/
structure Later (clock : ω → ℕ) (s t : Client ω ℕ H) : Prop where
  time : clock s.world ≤ clock t.world
  interval : t.client.keepAliveInterval = s.client.keepAliveInterval
  ping : t.client.pingOutstanding = true → s.client.pingOutstanding = true
  lastSent : t.client.lastSent = s.client.lastSent ∨
    clock s.world + 1000 * s.client.keepAliveInterval ≤ t.client.lastSent

variable {p : Platform ω ℕ H} {fuel : ℕ} {clock : ω → ℕ} {s t u : Client ω ℕ H}

namespace Later

theorem refl (s : Client ω ℕ H) : Later clock s s := ⟨le_rfl, rfl, id, .inl rfl⟩

theorem trans (h : Later clock s t) (h' : Later clock t u) : Later clock s u := by
  refine ⟨h.time.trans h'.time, h'.interval.trans h.interval, h.ping ∘ h'.ping, ?_⟩
  have htime := h.time
  rcases h'.lastSent with hlast | hlast
  · rw [hlast]
    exact h.lastSent
  · rw [h.interval] at hlast
    exact .inr (by omega)

instance : Std.Refl (Later clock : Client ω ℕ H → _ → Prop) := ⟨refl⟩

instance : IsTrans (Client ω ℕ H) (Later clock) := ⟨fun _ _ _ => trans⟩

theorem ask {α : Type} {f : ω → α × ω} (h : ∀ w, clock w ≤ clock (f w).2) :
    Moves (Later clock) (MqttEmbedded.ask f : Prog (Client ω ℕ H) α) :=
  fun s => ⟨h s.world, rfl, id, .inl rfl⟩

end Later

section Steps

variable (hclock : OnClock p clock)
include hclock

theorem OnClock.outward : p.Outward (Later clock : Client ω ℕ H → _ → Prop) where
  mqttwrite := fun _ _ _ => Later.ask (hclock.mqttwrite _ _ _)
  timerInit := Later.ask hclock.timerInit
  timerIsExpired := fun _ => Later.ask (hclock.timerIsExpired _)
  timerCountdownMS := fun _ _ => Later.ask (hclock.timerCountdownMS _ _)
  timerCountdown := fun _ _ => Later.ask (hclock.timerCountdown _ _)
  timerLeftMS := fun _ => Later.ask (hclock.timerLeftMS _)
  invoke := fun fp md s => ⟨hclock.invoke fp md s.world, rfl, id, .inl rfl⟩

theorem OnClock.inward : p.Inward (Later clock : Client ω ℕ H → _ → Prop) where
  mqttread := fun _ _ => Later.ask (hclock.mqttread _ _)
  timerLeftMS := fun _ => Later.ask (hclock.timerLeftMS _)
  timerCountdown := fun _ _ => Later.ask (hclock.timerCountdown _ _)
  readbuf := fun _ _ => ⟨le_rfl, rfl, id, .inl rfl⟩
  lastReceived := fun _ _ => ⟨le_rfl, rfl, id, .inl rfl⟩

theorem sendPacket_restarts (length timer : ℕ) :
    wp (sendPacket p fuel length timer) (fun rc t => Later clock s t ∧
      (rc = success → t.client.lastSent = clock t.world + 1000 * s.client.keepAliveInterval))
      (fun _ t => Later clock s t) s := by
  unfold sendPacket
  rw [wp_bind]
  apply wp_imp (sendLoop_moves fuel hclock.outward length timer 0 s)
  intro sent t hst
  simp only [wp_ite, wp_bind, wp_getClient, wp_ask, wp_modifyClient, wp_pure]
  have hle := hclock.timerCountdown t.client.lastSent t.client.keepAliveInterval t.world
  have hdeadline := hclock.deadline t.client.lastSent t.client.keepAliveInterval t.world
  constructor
  · refine fun _ => ⟨hst.trans ⟨hle, rfl, id, .inr ?_⟩, fun _ => ?_⟩
    · rw [hdeadline]
      exact Nat.add_le_add_right hle _
    · rw [hdeadline, hst.interval]
  · exact fun _ => ⟨hst, fun h => absurd h (by decide)⟩

theorem sendPacket_later (length timer : ℕ) :
    Moves (Later clock) (sendPacket p fuel length timer : Prog (Client ω ℕ H) ℤ) :=
  fun _ => wp_imp (sendPacket_restarts hclock length timer) fun _ _ h => h.1

theorem handlePacket_later (packetType : ℤ) (timer : ℕ) :
    Moves (Later clock) ((variant p fuel).handlePacket packetType timer) := by
  have hstays : ({ variant p fuel with
      keepalive := pure success
      closeSession := pure ⟨⟩ } : Variant Unit ω ℕ H).Stays (Later clock) :=
    { buf := fun _ _ => ⟨le_rfl, rfl, id, .inl rfl⟩
      pingresp := fun _ => ⟨le_rfl, rfl, fun h => absurd h (by simp), .inl rfl⟩
      sendPacket := sendPacket_later hclock
      deliver := deliver_moves hclock.outward
      deliverUnread := deliverUnread_moves hclock.outward
      answered := fun _ _ => .pure _
      keepalive := .pure _
      closeSession := .pure _ }
  exact hstays.handlePacket packetType timer

theorem keepaliveDue_expired : wp (keepaliveDue p) (fun due t => t.client = s.client ∧
    clock s.world ≤ clock t.world ∧
    (due = true → s.client.lastSent ≤ clock t.world ∨ s.client.lastReceived ≤ clock t.world) ∧
    (s.client.lastReceived ≤ clock t.world → clock t.world < s.client.lastSent → due = true))
    (fun _ _ => True) s := by
  unfold keepaliveDue
  simp only [wp_bind, wp_getClient, wp_ask, wp_ite, wp_pure]
  have hsent := hclock.expired s.client.lastSent s.world
  have hle := hclock.timerIsExpired s.client.lastSent s.world
  have hreceived := hclock.expired s.client.lastReceived
    (p.timerIsExpired s.client.lastSent s.world).2
  have hle' := hclock.timerIsExpired s.client.lastReceived
    (p.timerIsExpired s.client.lastSent s.world).2
  constructor
  · exact fun h => ⟨trivial, hle, fun _ => .inl (hsent.mp h), fun _ _ => trivial⟩
  · exact fun _ => ⟨trivial, hle.trans hle', fun h => .inr (hreceived.mp h), fun h _ =>
      hreceived.mpr h⟩

/-- What `keepalive` may change: it sends a PINGREQ and sets `ping_outstanding`, and then
`last_sent` has just been restarted. -/
structure Pinged (clock : ω → ℕ) (s t : Client ω ℕ H) : Prop where
  time : clock s.world ≤ clock t.world
  interval : t.client.keepAliveInterval = s.client.keepAliveInterval
  ping : t.client.pingOutstanding = true →
    t.client.lastSent = clock t.world + 1000 * s.client.keepAliveInterval

theorem sendPing_pinged (hping : s.client.pingOutstanding = false) :
    wp (sendPing p fuel) (fun _ t => Pinged clock s t) (fun _ _ => True) s := by
  have hnone (t : Client ω ℕ H) (h : Later clock s t) : ¬ t.client.pingOutstanding = true :=
    fun hset => absurd (h.ping hset) (by simp [hping])
  have hserialize : Moves (Later clock)
      (serialize mqttSerializePingreq : Prog (Client ω ℕ H) ℤ) :=
    serialize_moves (fun _ _ => ⟨le_rfl, rfl, id, .inl rfl⟩) _
  unfold sendPing
  rw [wp_bind]
  apply wp_mono (newTimer_moves hclock.outward.toDiscreet 1000 s)
  · intro timer t hst
    rw [wp_bind]
    apply wp_mono (hserialize t)
    · intro len u htu
      have hsu := hst.trans htu
      rw [wp_ite, wp_pure, wp_bind]
      refine ⟨fun _ => ⟨hsu.time, hsu.interval, fun h => absurd h (hnone u hsu)⟩, fun _ => ?_⟩
      apply wp_mono (sendPacket_restarts hclock len.toNat timer)
      · rintro rc v ⟨huv, hrestarted⟩
        have hsv := hsu.trans huv
        rw [wp_ite, wp_bind, wp_modifyClient]
        refine ⟨fun hrc => ⟨hsv.time, hsv.interval, fun _ => ?_⟩,
          fun _ => ⟨hsv.time, hsv.interval, fun h => absurd h (hnone v hsv)⟩⟩
        rw [← hsu.interval]
        exact hrestarted hrc
      · exact fun _ _ _ => trivial
    · exact fun _ _ _ => trivial
  · exact fun _ _ _ => trivial

theorem keepalive_pinged (hping : s.client.pingOutstanding = false) :
    wp (keepalive p fuel) (fun _ t => Pinged clock s t) (fun _ _ => True) s := by
  have hidle (t : Client ω ℕ H) (hclient : t.client = s.client)
      (htime : clock s.world ≤ clock t.world) : Pinged clock s t :=
    ⟨htime, by rw [hclient], fun h => absurd h (by simp [hclient, hping])⟩
  unfold keepalive
  rw [wp_bind, wp_getClient, wp_ite, wp_pure, wp_bind]
  refine ⟨fun _ => hidle s rfl le_rfl, fun _ => ?_⟩
  apply wp_imp (keepaliveDue_expired hclock)
  rintro due t ⟨hclient, htime, -⟩
  simp only [wp_ite, wp_pure, hping, Bool.false_eq_true, false_implies, true_and, not_false_iff,
    forall_const]
  refine ⟨fun _ => ?_, fun _ => hidle t hclient htime⟩
  have hping' : t.client.pingOutstanding = false := by rw [hclient, hping]
  apply wp_imp (sendPing_pinged hclock hping')
  intro _ u h
  exact ⟨htime.trans h.time, by rw [h.interval, hclient], by rw [← hclient]; exact h.ping⟩

/-- With a PINGREQ outstanding, `keepalive` fails when one of the timers has expired. -/
theorem keepalive_outstanding (hK : 0 < s.client.keepAliveInterval)
    (hping : s.client.pingOutstanding = true) :
    wp (keepalive p fuel) (fun rc t => t.client = s.client ∧ clock s.world ≤ clock t.world ∧
      (rc = failure → s.client.lastSent ≤ clock t.world ∨ s.client.lastReceived ≤ clock t.world) ∧
      (s.client.lastReceived ≤ clock t.world → clock t.world < s.client.lastSent → rc = failure))
      (fun _ _ => True) s := by
  unfold keepalive
  rw [wp_bind, wp_getClient, if_neg hK.ne', wp_bind]
  apply wp_imp (keepaliveDue_expired hclock)
  rintro due t ⟨hclient, htime, hdue, hdue'⟩
  rw [wp_ite, if_pos hping, wp_pure, wp_pure]
  refine ⟨fun h => ⟨hclient, htime, fun _ => hdue h, fun _ _ => rfl⟩, fun h => ?_⟩
  exact ⟨hclient, htime, fun h' => absurd h' (by decide), fun hr hs => absurd (hdue' hr hs) h⟩

end Steps

/-- What is observed of a step. -/
inductive Doing where
  | received (packetType : ℤ)
  | keepalive (rc : ℤ)
  | other
  deriving DecidableEq

/-- A packet is read and handled, as `cycle` does. -/
def receive (p : Platform ω ℕ H) (fuel timer : ℕ) : Prog (Client ω ℕ H) ℤ := do
  let packetType ← readPacket p timer
  let _ ← (variant p fuel).handlePacket packetType timer
  pure packetType

/-- What the functions of the client do with the timers and the ping, one at a time. -/
inductive Step (p : Platform ω ℕ H) (fuel : ℕ) (clock : ω → ℕ) (s : Client ω ℕ H) :
    Doing → Client ω ℕ H → Prop
  | receive {timer packetType} {t : Client ω ℕ H} : receive p fuel timer s = .ok packetType t →
      Step p fuel clock s (.received packetType) t
  | keepalive {rc} {t : Client ω ℕ H} : keepalive p fuel s = .ok rc t →
      Step p fuel clock s (.keepalive rc) t
  | sendPacket {length timer rc} {t : Client ω ℕ H} :
      sendPacket p fuel length timer s = .ok rc t → Step p fuel clock s .other t
  | closeSession {t : Client ω ℕ H} : mqttCloseSession s = .ok ⟨⟩ t → Step p fuel clock s .other t
  /-- `MQTTConnect` restarts `last_received` before it sends the packet. -/
  | connecting : Step p fuel clock s .other { s with
      client := { s.client with lastReceived :=
        (p.timerCountdown s.client.lastReceived s.client.keepAliveInterval s.world).1 }
      world := (p.timerCountdown s.client.lastReceived s.client.keepAliveInterval s.world).2 }
  | connected : Step p fuel clock s .other { s with
      client := { s.client with isconnected := true, pingOutstanding := false } }
  /-- Everything else leaves these fields alone, and takes its time. -/
  | elsewhere {t : Client ω ℕ H} : clock s.world ≤ clock t.world →
      t.client.keepAliveInterval = s.client.keepAliveInterval →
      t.client.pingOutstanding = s.client.pingOutstanding →
      t.client.lastSent = s.client.lastSent → t.client.lastReceived = s.client.lastReceived →
      Step p fuel clock s .other t

structure Turn (ω H : Type) where
  before : Client ω ℕ H
  doing : Doing
  after : Client ω ℕ H

/-- From the first state to the last, with the latest turn in front. -/
inductive Run (p : Platform ω ℕ H) (fuel : ℕ) (clock : ω → ℕ) (s : Client ω ℕ H) :
    List (Turn ω H) → Client ω ℕ H → Prop
  | start : Run p fuel clock s [] s
  | step {history doing} {t u : Client ω ℕ H} : Run p fuel clock s history t →
      Step p fuel clock t doing u →
      Run p fuel clock s (⟨t, doing, u⟩ :: history) u


namespace Turn

/-- The PINGREQ that sets `ping_outstanding` is sent. -/
def SendsPing (e : Turn ω H) : Prop :=
  e.before.client.pingOutstanding = false ∧ e.after.client.pingOutstanding = true

instance (e : Turn ω H) : Decidable e.SendsPing := inferInstanceAs (Decidable (_ ∧ _))

/-- `keepalive` fails because of an outstanding ping. -/
def TimesOut (e : Turn ω H) : Prop :=
  e.doing = .keepalive failure ∧ e.before.client.pingOutstanding = true

end Turn

/-- When the last PINGREQ was sent, unless a PINGRESP has been received since. -/
def awaiting (clock : ω → ℕ) : List (Turn ω H) → Option ℕ
  | [] => none
  | e :: earlier =>
    if e.SendsPing then some (clock e.after.world)
    else if e.doing = .received MsgType.pingresp.code then none
    else awaiting clock earlier

/-- Whenever `keepalive` fails because of an outstanding ping, the PINGREQ was sent `K`
seconds ago and no PINGRESP has been received since. -/
def FullInterval (clock : ω → ℕ) (K : ℕ) (history : List (Turn ω H)) : Prop :=
  ∀ e earlier, e :: earlier <:+ history → e.TimesOut →
    ∃ time, awaiting clock earlier = some time ∧ time + 1000 * K ≤ clock e.after.world

/-- Whenever `keepalive` is called less than `K` seconds after the PINGREQ that is
outstanding was sent, `last_received` has not expired. -/
def Heard (clock : ω → ℕ) (K : ℕ) (history : List (Turn ω H)) : Prop :=
  ∀ e earlier, e :: earlier <:+ history → (∃ rc, e.doing = .keepalive rc) →
    e.before.client.pingOutstanding = true →
    (∀ time, awaiting clock earlier = some time → clock e.after.world < time + 1000 * K) →
    clock e.after.world < e.before.client.lastReceived

/-- A ping is outstanding only while its answer is awaited, and `last_sent` does not
expire before the interval is over. -/
structure Timely (clock : ω → ℕ) (K : ℕ) (history : List (Turn ω H)) (s : Client ω ℕ H) :
    Prop where
  interval : s.client.keepAliveInterval = K
  past : ∀ time, awaiting clock history = some time → time ≤ clock s.world
  outstanding : s.client.pingOutstanding = true →
    ∃ time, awaiting clock history = some time ∧ time + 1000 * K ≤ s.client.lastSent

section

variable {K : ℕ} {history : List (Turn ω H)} {doing : Doing}

theorem awaiting_of_not_sendsPing {e : Turn ω H} (h : ¬ e.SendsPing) {time : ℕ}
    (htime : awaiting clock (e :: history) = some time) : awaiting clock history = some time := by
  rw [awaiting, if_neg h] at htime
  split_ifs at htime
  exact htime

theorem Timely.later (h : Timely clock K history s) (hst : Later clock s t)
    (hanswered : doing = .received MsgType.pingresp.code → t.client.pingOutstanding = false) :
    Timely clock K (⟨s, doing, t⟩ :: history) t := by
  have hping : ¬ (⟨s, doing, t⟩ : Turn ω H).SendsPing := by
    rintro ⟨hs, ht⟩
    rw [hst.ping ht] at hs
    contradiction
  refine ⟨hst.interval.trans h.interval, fun time htime => ?_, fun ht => ?_⟩
  · exact (h.past time (awaiting_of_not_sendsPing hping htime)).trans hst.time
  · obtain ⟨time, htime, hle⟩ := h.outstanding (hst.ping ht)
    have hdoing : doing ≠ .received MsgType.pingresp.code := by
      intro hdoing
      rw [hanswered hdoing] at ht
      contradiction
    refine ⟨time, ?_, ?_⟩
    · rw [awaiting, if_neg hping, if_neg hdoing, htime]
    · have hpast := h.past time htime
      have hinterval := h.interval
      rcases hst.lastSent with hlast | hlast
      · omega
      · rw [hinterval] at hlast
        omega

theorem Timely.pinged (h : Timely clock K history s) (hst : Pinged clock s t)
    (hs : s.client.pingOutstanding = false) {rc : ℤ} :
    Timely clock K (⟨s, .keepalive rc, t⟩ :: history) t := by
  refine ⟨hst.interval.trans h.interval, fun time htime => ?_, fun ht => ?_⟩
  · unfold awaiting at htime
    split_ifs at htime
    · exact (Option.some.inj htime).ge
    · exact (h.past time htime).trans hst.time
  · refine ⟨clock t.world, if_pos ⟨hs, ht⟩, ?_⟩
    rw [hst.ping ht, h.interval]

theorem receive_later (hclock : OnClock p clock) (timer : ℕ) :
    wp (receive p fuel timer) (fun packetType t => Later clock s t ∧
      (packetType = MsgType.pingresp.code → t.client.pingOutstanding = false))
      (fun _ _ => True) s := by
  unfold receive
  rw [wp_bind]
  apply wp_mono (readPacketWith_moves hclock.inward tooLong 0 timer s)
  · intro packetType t hst
    rw [wp_bind]
    have hpingresp : wp ((variant p fuel).handlePacket packetType timer) (fun _ u =>
        packetType = MsgType.pingresp.code → u.client.pingOutstanding = false)
        (fun _ _ => True) t := by
      by_cases htype : packetType = MsgType.pingresp.code
      · subst htype
        exact fun _ => rfl
      · exact wp_imp (wp_true _) fun _ _ _ h => absurd h htype
    apply wp_mono (wp_and (handlePacket_later hclock packetType timer t) hpingresp)
    · exact fun _ u h => ⟨hst.trans h.1, h.2⟩
    · exact fun _ _ _ => trivial
  · exact fun _ _ _ => trivial

theorem mqttCloseSession_later :
    Moves (Later clock) (mqttCloseSession : Prog (Client ω ℕ H) PUnit) := by
  have hclosed : Moves (Later clock) (modifyClient fun c =>
      { c with pingOutstanding := false, isconnected := false } : Prog (Client ω ℕ H) PUnit) :=
    fun _ => ⟨le_rfl, rfl, fun h => absurd h (by simp), .inl rfl⟩
  refine .bind hclosed fun _ => .bind getClient_moves fun c => .ite ?_ (.pure _)
  exact fun _ => ⟨le_rfl, rfl, id, .inl rfl⟩

theorem keepalive_timely (hclock : OnClock p clock) (hK : 0 < K) (h : Timely clock K history s)
    {rc : ℤ} (hrun : keepalive p fuel s = .ok rc t) :
    Timely clock K (⟨s, .keepalive rc, t⟩ :: history) t := by
  cases hping : s.client.pingOutstanding with
  | false =>
    have hpinged := wp_result (keepalive_pinged hclock hping) hrun
    exact h.pinged hpinged hping
  | true =>
    have hpos : 0 < s.client.keepAliveInterval := h.interval ▸ hK
    obtain ⟨hclient, htime, -⟩ := wp_result (keepalive_outstanding hclock hpos hping) hrun
    apply h.later ⟨htime, by rw [hclient], by rw [hclient]; exact id, .inl (by rw [hclient])⟩
    exact fun hdoing => nomatch hdoing

/-- Every step keeps `ping_outstanding` true to the history. -/
theorem Step.timely (hclock : OnClock p clock) (hK : 0 < K) (h : Timely clock K history s)
    (hstep : Step p fuel clock s doing t) : Timely clock K (⟨s, doing, t⟩ :: history) t := by
  cases hstep with
  | receive hrun =>
    obtain ⟨hlater, hanswered⟩ := wp_result (receive_later hclock _) hrun
    exact h.later hlater fun hdoing => hanswered (Doing.received.inj hdoing)
  | keepalive hrun => exact keepalive_timely hclock hK h hrun
  | sendPacket hrun =>
    have hlater := wp_result (sendPacket_later hclock _ _ s) hrun
    exact h.later hlater fun hdoing => nomatch hdoing
  | closeSession hrun =>
    have hmoves : Moves (Later clock) (mqttCloseSession : Prog (Client ω ℕ H) PUnit) :=
      mqttCloseSession_later
    have hlater := wp_result (hmoves s) hrun
    exact h.later hlater fun hdoing => nomatch hdoing
  | connecting =>
    exact h.later ⟨hclock.timerCountdown _ _ _, rfl, id, .inl rfl⟩ fun hdoing => nomatch hdoing
  | connected =>
    refine h.later ⟨le_rfl, rfl, fun ht => ?_, .inl rfl⟩ fun hdoing => nomatch hdoing
    exact absurd ht (by simp)
  | elsewhere htime hinterval hping hsent _ =>
    exact h.later ⟨htime, hinterval, by rw [hping]; exact id, .inl hsent⟩ fun hdoing =>
      nomatch hdoing

/-- A call of `keepalive` with a PINGREQ outstanding is fair to the broker if and only if
`last_received` has not expired or the interval is over. -/
theorem keepalive_fair (hclock : OnClock p clock) (hK : 0 < K) (h : Timely clock K history s)
    {rc : ℤ} (hrun : keepalive p fuel s = .ok rc t) (hping : s.client.pingOutstanding = true) :
    (rc = failure → ∃ time, awaiting clock history = some time ∧
      time + 1000 * K ≤ clock t.world) ↔
    ((∀ time, awaiting clock history = some time → clock t.world < time + 1000 * K) →
      clock t.world < s.client.lastReceived) := by
  have hpos : 0 < s.client.keepAliveInterval := h.interval ▸ hK
  obtain ⟨-, -, hexpired, hfails⟩ := wp_result (keepalive_outstanding hclock hpos hping) hrun
  obtain ⟨time, htime, hle⟩ := h.outstanding hping
  simp only [htime, Option.some.injEq, forall_eq', exists_eq_left']
  constructor
  · intro hfair hshort
    by_contra hreceived
    have := hfair (hfails (by omega) (by omega))
    omega
  · intro hheard hrc
    by_contra hshort
    have := hheard (by omega)
    rcases hexpired hrc with hsent | hreceived
    · omega
    · omega

theorem Run.trans {later : List (Turn ω H)} (h : Run p fuel clock s history t)
    (h' : Run p fuel clock t later u) : Run p fuel clock s (later ++ history) u := by
  induction h' with
  | start => exact h
  | step _ hstep ih => exact ih.step hstep

theorem Run.timely (hclock : OnClock p clock) (hK : 0 < s.client.keepAliveInterval)
    (hping : s.client.pingOutstanding = false) (hrun : Run p fuel clock s history t) :
    Timely clock s.client.keepAliveInterval history t := by
  induction hrun with
  | start =>
    refine ⟨rfl, fun _ h => ?_, fun h => ?_⟩
    · exact absurd h (by simp [awaiting])
    · exact absurd h (by simp [hping])
  | step _ hstep ih => exact hstep.timely hclock hK ih

/-- Every turn of a history is a step from where the history before it has led. -/
theorem Run.turn (hrun : Run p fuel clock s history t) {e : Turn ω H} {earlier : List (Turn ω H)}
    (h : e :: earlier <:+ history) :
    Run p fuel clock s earlier e.before ∧ Step p fuel clock e.before e.doing e.after := by
  induction hrun with
  | start => exact absurd h (by simp)
  | step hrun hstep ih =>
    rcases List.suffix_cons_iff.mp h with heq | hsuffix
    · obtain ⟨rfl, rfl⟩ := List.cons.inj heq
      exact ⟨hrun, hstep⟩
    · exact ih hsuffix

/-- The broker has the whole interval to answer a ping exactly in the histories in which
`last_received` does not expire while it has. -/
theorem run_fullInterval (p : Platform ω ℕ H) (fuel : ℕ) (hclock : OnClock p clock)
    (hK : 0 < s.client.keepAliveInterval) (hping : s.client.pingOutstanding = false)
    (hrun : Run p fuel clock s history t) :
    FullInterval clock s.client.keepAliveInterval history ↔
      Heard clock s.client.keepAliveInterval history := by
  refine forall_congr' fun e => forall_congr' fun earlier => forall_congr' fun hsuffix => ?_
  obtain ⟨hrun, hstep⟩ := hrun.turn hsuffix
  have htimely := hrun.timely hclock hK hping
  obtain ⟨before, doing, after⟩ := e
  constructor
  · rintro hfull ⟨rc, rfl⟩ houtstanding
    cases hstep with
    | keepalive hkeepalive =>
      apply (keepalive_fair hclock hK htimely hkeepalive houtstanding).mp
      rintro rfl
      exact hfull ⟨rfl, houtstanding⟩
  · rintro hheard ⟨rfl, houtstanding⟩
    cases hstep with
    | keepalive hkeepalive =>
      exact (keepalive_fair hclock hK htimely hkeepalive houtstanding).mpr
        (hheard ⟨_, rfl⟩ houtstanding) rfl

/-- A call of `cycle` receives one packet, and after it calls `keepalive` and closes the
session at most once. -/
theorem cycle_run (timer : ℕ) : wp (cycle p fuel timer) (fun _ t =>
    ∃ history packetType rc, Run p fuel clock s history t ∧ ∃ doings,
      history.map Turn.doing = doings ++ [.received packetType] ∧
      doings.Sublist [.other, .keepalive rc]) (fun _ _ => True) s := by
  have hclose (t : Client ω ℕ H) : wp ((variant p fuel).closeIfConnected)
      (fun _ u => u = t ∨ Step p fuel clock t .other u) (fun _ _ => True) t := by
    unfold Variant.closeIfConnected
    rw [wp_bind, wp_getClient, wp_ite]
    exact ⟨fun _ => wp_of_ok fun _ u hrun => .inr (.closeSession hrun), fun _ => .inl rfl⟩
  unfold cycle Variant.cycle
  rw [wp_bind]
  refine wp_of_ok fun packetType t hread => ?_
  rw [wp_bind]
  refine wp_of_ok fun outcome u hhandle => ?_
  have hreceive : receive p fuel timer s = .ok packetType u := by
    change readPacket p timer s = .ok packetType t at hread
    simp only [receive, bind, EStateM.bind, hread, hhandle, pure, EStateM.pure]
  have hreceived := Run.step (.start : Run p fuel clock s [] s) (.receive hreceive)
  rw [wp_bind]
  unfold Variant.checkKeepalive
  rw [wp_ite, wp_pure, wp_bind]
  constructor
  · intro _
    rw [wp_ite, wp_pure, wp_bind]
    refine ⟨fun _ => ⟨_, packetType, 0, hreceived, [], rfl, List.nil_sublist _⟩, fun _ => ?_⟩
    apply wp_imp (hclose u)
    rintro _ v (rfl | hstep)
    · exact ⟨_, packetType, 0, hreceived, [], rfl, List.nil_sublist _⟩
    · exact ⟨_, packetType, 0, hreceived.step hstep, [.other], rfl, by simp⟩
  · intro _
    refine wp_of_ok fun rc v hkeepalive => ?_
    have hkept := hreceived.step (.keepalive hkeepalive)
    rw [wp_pure, wp_ite, wp_pure, wp_bind]
    refine ⟨fun _ => ⟨_, packetType, rc, hkept, [.keepalive rc], rfl, by simp⟩, fun _ => ?_⟩
    apply wp_imp (hclose v)
    rintro _ w (rfl | hstep)
    · exact ⟨_, packetType, rc, hkept, [.keepalive rc], rfl, by simp⟩
    · exact ⟨_, packetType, rc, hkept.step hstep, [.other, .keepalive rc], rfl, List.Sublist.refl _⟩

/-- The packets that are received in a history. -/
def receptions (history : List (Turn ω H)) : List Doing :=
  (history.map Turn.doing).filter fun doing => doing matches .received _

theorem length_receptions_append (later history : List (Turn ω H)) :
    (receptions (later ++ history)).length =
      (receptions later).length + (receptions history).length := by
  simp [receptions]

theorem length_receptions_cycle {packetType rc : ℤ} {doings : List Doing}
    (h : history.map Turn.doing = doings ++ [.received packetType])
    (hdoings : doings.Sublist [.other, .keepalive rc]) : (receptions history).length = 1 := by
  have hnone : doings.filter (fun doing => doing matches .received _) = [] := by
    rw [List.filter_eq_nil_iff]
    intro doing hdoing
    have hmem := hdoings.subset hdoing
    simp only [List.mem_cons, List.not_mem_nil, or_false] at hmem
    rcases hmem with rfl | rfl
    · simp
    · simp
  rw [receptions, h, List.filter_append, hnone]
  rfl

theorem cycles_run (timers : ℕ → ℕ) (count : ℕ) : wp (cycles p fuel timers count) (fun _ t =>
    ∃ history, Run p fuel clock s history t ∧ (receptions history).length = count)
    (fun _ _ => True) s := by
  induction count generalizing s with
  | zero => exact ⟨[], .start, rfl⟩
  | succ count ih =>
    rw [cycles, wp_bind, wp_get, wp_bind]
    apply wp_mono (cycle_run (timers count))
    · rintro _ t ⟨history, packetType, rc, hrun, doings, hmap, hdoings⟩
      rw [wp_bind]
      apply wp_imp (ih (s := t))
      rintro _ u ⟨later, hlater, hcount⟩
      rw [wp_pure]
      refine ⟨later ++ history, hrun.trans hlater, ?_⟩
      rw [length_receptions_append, hcount, length_receptions_cycle hmap hdoings]
    · exact fun _ _ _ => trivial

/-- Calls of `cycle` make a history in which they receive a packet each, and afterwards a ping
is outstanding only while its answer is awaited. -/
theorem cycles_timely (hclock : OnClock p clock) (hK : 0 < s.client.keepAliveInterval)
    (hping : s.client.pingOutstanding = false) (timers : ℕ → ℕ) (count : ℕ) :
    wp (cycles p fuel timers count) (fun _ t => ∃ history, Run p fuel clock s history t ∧
      (receptions history).length = count ∧ Timely clock s.client.keepAliveInterval history t)
      (fun _ _ => True) s := by
  apply wp_imp (cycles_run timers count)
  rintro _ t ⟨history, hrun, hcount⟩
  exact ⟨history, hrun, hcount, hrun.timely hclock hK hping⟩

/-- A network on which nothing arrives: every read waits for half a second. -/
def silentPlatform : Platform ℕ ℕ Unit where
  mqttread := fun _ _ now => (.arrived [] (Nat.zero_le _), now + 500)
  mqttwrite := fun _ len _ now => (len, now)
  timerInit := fun now => (0, now)
  timerIsExpired := fun timer now => (timer ≤ now, now)
  timerCountdownMS := fun _ ms now => (now + ms, now)
  timerCountdown := fun _ seconds now => (now + 1000 * seconds, now)
  timerLeftMS := fun timer now => (timer - now, now)
  invoke := fun _ _ now => now

theorem silentPlatform_onClock : OnClock silentPlatform id where
  mqttread := fun _ _ _ => Nat.le_add_right _ _
  mqttwrite := fun _ _ _ _ => le_rfl
  timerInit := fun _ => le_rfl
  timerIsExpired := fun _ _ => le_rfl
  timerCountdownMS := fun _ _ _ => le_rfl
  timerCountdown := fun _ _ _ => le_rfl
  timerLeftMS := fun _ _ => le_rfl
  invoke := fun _ _ _ => le_rfl
  expired := fun _ _ => decide_eq_true_iff
  deadlineMS := fun _ _ _ => rfl
  deadline := fun _ _ _ => rfl

/-- A client with an interval of a second that has received a packet a second ago. -/
def silentClient (buf : List UInt8) (pingOutstanding : Bool) (lastSent now : ℕ) :
    Client ℕ ℕ Unit where
  client :=
    { nextPacketid := 1
      commandTimeoutMs := 1000
      buf := buf
      readbuf := List.replicate 5 0
      keepAliveInterval := 1
      pingOutstanding := pingOutstanding
      isconnected := true
      cleansession := true
      messageHandlers := []
      defaultMessageHandler := none
      lastSent := lastSent
      lastReceived := 1000 }
  own := ()
  world := now

/-- What the silent client looks like before its ping, and after it. -/
def unpinged (now : ℕ) : Client ℕ ℕ Unit := silentClient [0, 0] false 1000 now

def pinged (now : ℕ) : Client ℕ ℕ Unit := silentClient [0xC0, 0] true 2500 now

/-- The client waits, sends a PINGREQ at 1500, and waits again. -/
def silence : List (Turn ℕ Unit) :=
  [⟨pinged 1500, .received 0, pinged 2000⟩, ⟨unpinged 1500, .keepalive success, pinged 1500⟩,
    ⟨unpinged 1000, .received 0, unpinged 1500⟩]

theorem silence_run : Run silentPlatform 4 id (unpinged 1000) silence (pinged 2000) :=
  have hreceived : receive silentPlatform 4 0 (unpinged 1000) = .ok 0 (unpinged 1500) := rfl
  have hkept : keepalive silentPlatform 4 (unpinged 1500) = .ok success (pinged 1500) := rfl
  have hwaited : receive silentPlatform 4 0 (pinged 1500) = .ok 0 (pinged 2000) := rfl
  ((Run.start.step (.receive hreceived)).step (.keepalive hkept)).step (.receive hwaited)

/-- The call after that is half a second after the PINGREQ, and fails. -/
theorem run_not_fullInterval : ∃ history t,
    Run silentPlatform 4 id (unpinged 1000) history t ∧
      ¬ FullInterval id (unpinged 1000).client.keepAliveInterval history := by
  have hfails : keepalive silentPlatform 4 (pinged 2000) = .ok failure (pinged 2000) := rfl
  refine ⟨_, _, silence_run.step (.keepalive hfails), fun hfull => ?_⟩
  obtain ⟨time, htime, hle⟩ := hfull _ _ (List.suffix_refl _) ⟨rfl, rfl⟩
  obtain rfl : 1500 = time := Option.some.inj htime
  exact absurd hle (by decide)

/-- Another half a second later the interval is over. -/
theorem run_fullInterval_silence : ∃ history t,
    Run silentPlatform 4 id (unpinged 1000) history t ∧
      FullInterval id (unpinged 1000).client.keepAliveInterval history := by
  have hwaited : receive silentPlatform 4 0 (pinged 2000) = .ok 0 (pinged 2500) := rfl
  have hfails : keepalive silentPlatform 4 (pinged 2500) = .ok failure (pinged 2500) := rfl
  have hrun := (silence_run.step (.receive hwaited)).step (.keepalive hfails)
  refine ⟨_, _, hrun, ?_⟩
  apply (run_fullInterval silentPlatform 4 silentPlatform_onClock Nat.one_pos rfl hrun).mpr
  rintro e earlier hsuffix ⟨rc, hdoing⟩ hping hshort
  simp only [silence, List.suffix_cons_iff, List.suffix_nil, List.cons.injEq, reduceCtorEq,
    or_false] at hsuffix
  rcases hsuffix with ⟨rfl, rfl⟩ | ⟨rfl, rfl⟩ | ⟨rfl, rfl⟩ | ⟨rfl, rfl⟩ | ⟨rfl, rfl⟩
  · exact absurd (hshort 1500 rfl) (by decide)
  · exact nomatch hdoing
  · exact nomatch hdoing
  · exact nomatch hping
  · exact nomatch hdoing

end

end MqttEmbedded.ClientC
