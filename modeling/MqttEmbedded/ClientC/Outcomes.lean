import MqttEmbedded.ClientC.Exchange

/-!
# What a result says of the session

A call that returns failure leaves the session closed and, if it was a clean one,
without subscriptions. A call that returns success does not say that the session
is still open: for a packet that a client is not sent `cycle` closes the session
and returns the type of the packet, which its callers take for progress.
-/

namespace MqttEmbedded.ClientC

open Region Hoare

variable {ω τ H : Type} {p : Platform ω τ H} {fuel : ℕ} {s t : Client ω τ H}

namespace Call

/-- A call that sends a request and waits for what answers it. -/
def IsRequest : Call H → Prop
  | publish .. | subscribe .. | unsubscribe _ => True
  | connect _ | yield _ | disconnect | setMessageHandler .. => False

/-- A call that works in an open session. -/
def InSession : Call H → Prop
  | publish .. | subscribe .. | unsubscribe _ | yield _ => True
  | connect _ | disconnect | setMessageHandler .. => False

end Call

/-- What holds when a call in an open session returns. -/
structure Replied (p : Platform ω τ H) (call : Call H) (s t : Client ω τ H) (rc : ℤ)
    (receipts : List Receipt) : Prop where
  course : Course p (readPacket p) s receipts t
  binary : Binary rc
  opened : t.client.isconnected = true → s.client.isconnected = true
  tornDown : s.client.isconnected = true → rc = failure → TornDown s t
  settled : rc = success →
    (s.client.isconnected = true →
      (t.client.isconnected = true ↔ ∀ r ∈ receipts, HasCase r.packetType)) ∧
    ∀ packetType ∈ call.awaited, ∃ last, EndsWith packetType receipts last t.client.readbuf

theorem closeOnFailure_replied (call : Call H) {rc : ℤ} {receipts : List Receipt}
    (h : Exchanged p Binary call.awaited s t rc receipts) :
    wp (closeOnFailure rc : Prog (Client ω τ H) PUnit)
      (fun _ u => Replied p call s u rc receipts) (fun _ _ => True) t := by
  unfold closeOnFailure
  rw [wp_ite, wp_pure]
  constructor
  · rintro rfl
    apply wp_mono (wp_and mqttCloseSession_tornDown (mqttCloseSession_moves (still_quiet p) t))
    · rintro _ u ⟨htorn, hstill⟩
      refine ⟨h.course.then_still hstill, h.results, fun hopen => ?_, fun _ _ => ?_,
        fun hrc => absurd hrc failure_ne_success⟩
      · rw [htorn.isconnected] at hopen
        exact absurd hopen Bool.false_ne_true
      · exact ⟨htorn.isconnected, htorn.cleansession.trans h.cleansession, fun hclean =>
          htorn.forgotten (h.cleansession.trans hclean)⟩
    · exact fun _ _ _ => trivial
  · exact fun hrc => ⟨h.course, h.results, h.opened, fun _ h' => absurd h' hrc, h.settled⟩

theorem yield_replied (timeoutMs : ℕ) :
    wp (mqttYield p fuel timeoutMs)
      (fun rc t => ∃ receipts, Replied p (.yield timeoutMs) s t rc receipts)
      (fun _ _ => True) s := by
  unfold mqttYield
  rw [wp_bind]
  apply wp_imp (newTimer_still timeoutMs)
  rintro timer t ⟨hclient, hstill⟩
  have hsame : SameSession s t := by constructor <;> rw [hclient]
  apply wp_imp yieldLoop_continued
  rintro rc u ⟨receipts, hcourse, ⟨rfl, hcontinued⟩ | ⟨rfl, hclosed⟩⟩
  · have hall := (Continued.same hsame).trans hcontinued
    exact ⟨receipts, hcourse.after_still hstill, binary_success, hall.opened,
      fun _ h => absurd h.symm failure_ne_success,
      fun _ => ⟨hall.isconnected_iff, fun _ h => by cases h⟩⟩
  · have hall := hclosed.after hsame
    refine ⟨receipts, hcourse.after_still hstill, binary_failure, fun hopen => ?_,
      fun hopen _ => hall.1 hopen, fun h => absurd h failure_ne_success⟩
    rw [hall.isconnected] at hopen
    exact absurd hopen Bool.false_ne_true

theorem perform_replied {call : Call H} (hcall : call.InSession) :
    wp (perform p fuel call)
      (fun reply t => ∃ receipts, Replied p call s t reply.rc receipts) (fun _ _ => True) s := by
  cases call with
  | publish topicName message =>
    rw [perform, wp_bind, mqttPublish, wp_bind]
    apply wp_imp (publishExchange_exchanged topicName message)
    rintro result t ⟨receipts, h⟩
    rw [wp_bind]
    apply wp_imp (closeOnFailure_replied _ h)
    exact fun _ u hu => ⟨receipts, hu⟩
  | subscribe topicFilter qos messageHandler =>
    rw [perform, wp_bind, mqttSubscribe, wp_bind, mqttSubscribeWithResults, wp_bind]
    apply wp_imp (subscribeExchange_exchanged topicFilter qos messageHandler 0)
    rintro result t ⟨receipts, h⟩
    rw [wp_bind]
    apply wp_imp (closeOnFailure_replied (.subscribe topicFilter qos messageHandler) h)
    exact fun _ u hu => ⟨receipts, hu⟩
  | unsubscribe topicFilter =>
    rw [perform, wp_bind, mqttUnsubscribe, wp_bind]
    apply wp_imp (unsubscribeExchange_exchanged topicFilter)
    rintro rc t ⟨receipts, h⟩
    rw [wp_bind]
    apply wp_imp (closeOnFailure_replied (.unsubscribe topicFilter) h)
    exact fun _ u hu => ⟨receipts, hu⟩
  | yield timeoutMs =>
    rw [perform, wp_bind]
    exact yield_replied timeoutMs
  | connect _ | disconnect | setMessageHandler _ _ => exact hcall.elim

theorem replied_of_run {call : Call H} {reply : Reply} (hcall : call.InSession)
    (hrun : perform p fuel call s = .ok reply t) :
    ∃ receipts, Replied p call s t reply.rc receipts :=
  wp_result (perform_replied hcall) hrun

theorem disconnect_tornDown :
    wp (mqttDisconnect p fuel) (fun _ t => TornDown s t) (fun _ _ => True) s := by
  have hclose (rc : ℤ) (t : Client ω τ H) (hsame : SameSession s t) : wp (do
      mqttCloseSession
      pure rc) (fun _ u => TornDown s u) (fun _ _ => True) t := by
    rw [wp_bind]
    apply wp_imp mqttCloseSession_tornDown
    exact fun _ u h => h.after hsame
  unfold mqttDisconnect
  rw [wp_bind, wp_getClient, wp_bind]
  apply wp_imp (newTimer_still _)
  rintro timer t ⟨hclient, -⟩
  have hsame : SameSession s t := by constructor <;> rw [hclient]
  rw [wp_bind]
  apply wp_mono (serialize_moves (R := SameSession) (fun _ _ => ⟨rfl, rfl, rfl⟩) _ t)
  · intro len u hsame'
    rw [wp_ite, wp_bind]
    refine ⟨fun _ => ?_, fun _ => hclose failure u (hsame.trans hsame')⟩
    apply wp_mono (sendPacket_same _ timer u)
    · exact fun rc v hsame'' => hclose rc v ((hsame.trans hsame').trans hsame'')
    · exact fun _ _ _ => trivial
  · exact fun _ _ _ => trivial

/-- A call that fails leaves the session closed, and forgotten if it was a clean one;
requests have no other result than success and failure. -/
theorem perform_failed (p : Platform ω τ H) (fuel : ℕ) {call : Call H} {reply : Reply}
    (hcall : call.InSession ∨ call = .disconnect) (hopen : s.client.isconnected = true)
    (hrun : perform p fuel call s = .ok reply t) :
    (reply.rc = failure → t.client.isconnected = false ∧ (t.client.cleansession = true →
      ∀ slot ∈ t.client.messageHandlers, slot.topicFilter = none)) ∧
    (call.IsRequest → reply.rc = success ∨ reply.rc = failure) := by
  rcases hcall with hcall | rfl
  · obtain ⟨receipts, h⟩ := replied_of_run hcall hrun
    refine ⟨fun hrc => ?_, fun _ => h.binary⟩
    have htorn := h.tornDown hopen hrc
    exact ⟨htorn.isconnected, fun hclean => htorn.forgotten (htorn.cleansession ▸ hclean)⟩
  · have htorn : wp (perform p fuel .disconnect) (fun _ t => TornDown s t) (fun _ _ => True) s := by
      rw [perform, wp_bind]
      exact disconnect_tornDown
    have htorn := wp_result htorn hrun
    refine ⟨fun _ => ⟨htorn.isconnected, fun hclean => ?_⟩, False.elim⟩
    exact htorn.forgotten (htorn.cleansession ▸ hclean)

/-- A call that succeeds leaves the session open if and only if every packet that came
in meanwhile has a case in `cycle`. -/
theorem perform_succeeded (p : Platform ω τ H) (fuel : ℕ) {call : Call H} {reply : Reply}
    (hcall : call.InSession) (hopen : s.client.isconnected = true)
    (hrun : perform p fuel call s = .ok reply t) (hsuccess : reply.rc = success) :
    ∃ receipts, Course p (readPacket p) s receipts t ∧
      (t.client.isconnected = true ↔ ∀ r ∈ receipts, HasCase r.packetType) := by
  obtain ⟨receipts, h⟩ := replied_of_run hcall hrun
  exact ⟨receipts, h.course, (h.settled hsuccess).1 hopen⟩

/-- A network on which the bytes of a list arrive; the time is up when they have. -/
def inboxPlatform : Platform (List UInt8) Unit Unit where
  mqttread := fun len _ inbox =>
    (.arrived (inbox.take len) (List.length_take_le _ _), inbox.drop len)
  mqttwrite := fun _ len _ inbox => (len, inbox)
  timerInit := fun inbox => ((), inbox)
  timerIsExpired := fun _ inbox => (inbox.isEmpty, inbox)
  timerCountdownMS := fun _ _ inbox => ((), inbox)
  timerCountdown := fun _ _ inbox => ((), inbox)
  timerLeftMS := fun _ inbox => (1000, inbox)
  invoke := fun _ _ inbox => inbox

def inboxClient (isconnected : Bool) (inbox : List UInt8) : Client (List UInt8) Unit Unit where
  client :=
    { nextPacketid := 1
      commandTimeoutMs := 1000
      buf := List.replicate 24 0
      readbuf := List.replicate 16 0
      keepAliveInterval := 0
      pingOutstanding := false
      isconnected := isconnected
      cleansession := true
      messageHandlers := [⟨some ⟨[97], unterminated_a⟩, some ()⟩]
      defaultMessageHandler := none
      lastSent := ()
      lastReceived := () }
  own := ()
  world := inbox

/-- Publish one byte under the topic "a". -/
def publishOne (qos : ℕ) : Call Unit :=
  .publish ⟨[97], unterminated_a⟩
    { qos := qos, retained := 0, dup := 0, id := none, payload := [1], payloadlen := 1 }

/-- The time is up before the PUBLISH is written. -/
theorem perform_failed_publish : ∃ reply t,
    perform inboxPlatform 8 (publishOne 1) (inboxClient true []) = .ok reply t ∧
      reply.rc = failure ∧ t.client.isconnected = false := by
  have hcall : (publishOne 1).InSession ∨ publishOne 1 = .disconnect := .inl trivial
  obtain ⟨reply, t, hrun, hrc⟩ : ∃ reply t,
      perform inboxPlatform 8 (publishOne 1) (inboxClient true []) = .ok reply t ∧
        reply.rc = failure :=
    wp_total (by decide +kernel)
  exact ⟨reply, t, hrun, hrc, ((perform_failed inboxPlatform 8 hcall rfl hrun).1 hrc).1⟩

/-- A PINGREQ arrives, `cycle` closes the session, and `MQTTYield` returns success. -/
theorem perform_succeeded_closed : ∃ reply t,
    perform inboxPlatform 8 (.yield 1000) (inboxClient true [0xC0, 0]) = .ok reply t ∧
      reply.rc = success ∧ t.client.isconnected = false :=
  wp_total (by decide +kernel)

theorem perform_succeeded_pingresp : ∃ reply t,
    perform inboxPlatform 8 (.yield 1000) (inboxClient true [0xD0, 0]) = .ok reply t ∧
      ∃ receipts, Course inboxPlatform (readPacket inboxPlatform) (inboxClient true [0xD0, 0])
        receipts t ∧ (t.client.isconnected = true ↔ ∀ r ∈ receipts, HasCase r.packetType) := by
  have hcall : (Call.yield 1000 : Call Unit).InSession := trivial
  obtain ⟨reply, t, hrun, hrc⟩ : ∃ reply t,
      perform inboxPlatform 8 (.yield 1000) (inboxClient true [0xD0, 0]) = .ok reply t ∧
        reply.rc = success :=
    wp_total (by decide +kernel)
  exact ⟨reply, t, hrun, perform_succeeded inboxPlatform 8 hcall rfl hrun hrc⟩

end MqttEmbedded.ClientC
