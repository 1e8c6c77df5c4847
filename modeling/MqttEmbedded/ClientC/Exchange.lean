import MqttEmbedded.ClientC.Closing

/-!
# How the calls end on any network

Whatever the network answers, a call returns one of the results that the source
gives it, and when that is success the packet it has waited for is the last one
that was read.
-/

namespace MqttEmbedded.ClientC

open Region Hoare

variable {ω τ H α : Type} {p : Platform ω τ H} {fuel : ℕ} {timer : τ} {s t u : Client ω τ H}
  {rc : ℤ} {receipts : List Receipt} {awaited : Option MsgType} {Results : ℤ → Prop}

/-- A call that has got so far, and may still have to close the session. -/
structure Exchanged (p : Platform ω τ H) (Results : ℤ → Prop) (awaited : Option MsgType)
    (s t : Client ω τ H) (rc : ℤ) (receipts : List Receipt) : Prop where
  course : Course p (readPacket p) s receipts t
  cleansession : t.client.cleansession = s.client.cleansession
  results : Results rc
  opened : t.client.isconnected = true → s.client.isconnected = true
  settled : rc = success →
    (s.client.isconnected = true →
      (t.client.isconnected = true ↔ ∀ r ∈ receipts, HasCase r.packetType)) ∧
    ∀ packetType ∈ awaited, ∃ last, EndsWith packetType receipts last t.client.readbuf

/-- `SUCCESS` or `FAILURE`. -/
def Binary (rc : ℤ) : Prop := rc = success ∨ rc = failure

theorem binary_success : Binary success := .inl rfl

theorem binary_failure : Binary failure := .inr rfl

theorem Closed.cleansession (h : Closed s t) :
    t.client.cleansession = s.client.cleansession := by
  cases hopen : s.client.isconnected with
  | true => exact (h.1 hopen).cleansession
  | false => exact (h.2 hopen).cleansession

namespace Continued

theorem cleansession (h : Continued s t receipts) :
    t.client.cleansession = s.client.cleansession := by
  rcases h with ⟨hsame, -⟩ | ⟨hclosed, -⟩
  · exact hsame.cleansession
  · exact hclosed.cleansession

theorem opened (h : Continued s t receipts) (hopen : t.client.isconnected = true) :
    s.client.isconnected = true := by
  rcases h with ⟨hsame, -⟩ | ⟨hclosed, -⟩
  · exact hsame.isconnected.symm.trans hopen
  · rw [hclosed.isconnected] at hopen
    exact absurd hopen Bool.false_ne_true

end Continued

namespace Exchanged

theorem failed (hstill : Still p s t) (hsame : SameSession s t) (hresults : Results rc)
    (hrc : rc ≠ success) : Exchanged p Results awaited s t rc [] :=
  ⟨.still hstill, hsame.cleansession, hresults, fun h => hsame.isconnected ▸ h,
    fun h => absurd h hrc⟩

theorem after (hstill : Still p s t) (hsame : SameSession s t)
    (h : Exchanged p Results awaited t u rc receipts) :
    Exchanged p Results awaited s u rc receipts where
  course := h.course.after_still hstill
  cleansession := h.cleansession.trans hsame.cleansession
  results := h.results
  opened := fun hopen => hsame.isconnected ▸ h.opened hopen
  settled := by
    rw [← hsame.isconnected]
    exact h.settled

end Exchanged

theorem await_exchanged (rcOf : α → ℤ) (packetType : MsgType) {got : Prog (Client ω τ H) α}
    {missed : α} (hmissed : Results (rcOf missed)) (hfailed : rcOf missed ≠ success)
    (hgot : ∀ t, wp got (fun a u => Still p t u ∧ Results (rcOf a) ∧
      u.client.isconnected = t.client.isconnected ∧
      u.client.cleansession = t.client.cleansession) (fun _ _ => True) t) :
    wp (do
        let rc ← waitfor p fuel packetType timer
        if rc = packetType.code then got else pure missed)
      (fun a t => ∃ receipts, Exchanged p Results (some packetType) s t (rcOf a) receipts)
      (fun _ _ => True) s := by
  rw [wp_bind]
  apply wp_imp (waitfor_waited packetType)
  rintro rc t ⟨receipts, hcourse, hwaited⟩
  have hcode : (0 : ℤ) < packetType.code := by exact_mod_cast packetType.code_pos
  cases hwaited with
  | failed hneg hclosed =>
    rw [if_neg (by omega), wp_pure]
    refine ⟨receipts, hcourse, hclosed.cleansession, hmissed, ?_, fun h => absurd h hfailed⟩
    intro h
    rw [hclosed.isconnected] at h
    exact absurd h Bool.false_ne_true
  | expired hne hcontinued =>
    rw [if_neg hne, wp_pure]
    exact ⟨receipts, hcourse, hcontinued.cleansession, hmissed, hcontinued.opened,
      fun h => absurd h hfailed⟩
  | @got last hcontinued hends =>
    rw [if_pos rfl]
    apply wp_imp (hgot t)
    rintro a u ⟨hstill, hresults, hconnected, hclean⟩
    refine ⟨receipts, hcourse.then_still hstill, hclean.trans hcontinued.cleansession, hresults,
      fun h => hcontinued.opened (hconnected ▸ h), fun _ => ⟨fun hopen => ?_, ?_⟩⟩
    · rw [hconnected]
      exact hcontinued.isconnected_iff hopen
    · rintro _ ⟨⟩
      rw [hstill.readbuf]
      exact ⟨last, hends⟩

theorem request_exchanged (awaited : Option MsgType) (Results : ℤ → Prop) (rcOf : α → ℤ)
    {f : List UInt8 → Option (ℤ × List UInt8)} {short : α} {refused : ℤ → α}
    {next : Prog (Client ω τ H) α} (hshort : rcOf short = failure)
    (hrefused : ∀ rc, rcOf (refused rc) = rc) (hresults : Results failure)
    (hnext : ∀ t : Client ω τ H, wp next
      (fun a u => ∃ receipts, Exchanged p Results awaited t u (rcOf a) receipts)
      (fun _ _ => True) t) :
    wp (do
        let len ← serialize f
        if len ≤ 0 then pure short
        else
          let rc ← sendPacket p fuel len.toNat timer
          if rc ≠ success then pure (refused rc) else next)
      (fun a u => ∃ receipts, Exchanged p Results awaited s u (rcOf a) receipts)
      (fun _ _ => True) s := by
  have hserialize (R : Client ω τ H → Client ω τ H → Prop) [Std.Refl R] (hgentle : p.Gentle R) :
      Moves R (serialize f : Prog (Client ω τ H) ℤ) :=
    serialize_moves (fun s _ => hgentle.client s _ rfl ⟨rfl, rfl, rfl⟩) f
  rw [wp_bind]
  apply wp_mono (wp_and (hserialize _ (still_quiet p).gentle s) (hserialize _ (same_gentle p) s))
  · rintro len t ⟨hstill, hsame⟩
    rw [wp_ite, wp_pure, wp_bind]
    refine ⟨fun _ => ⟨[], .failed hstill hsame (hshort ▸ hresults) ?_⟩, fun _ => ?_⟩
    · rw [hshort]
      exact failure_ne_success
    · apply wp_mono (wp_and (wp_and
        (sendPacket_moves fuel (gentle_sends (still_quiet p).gentle) len.toNat timer t)
        (sendPacket_same len.toNat timer t)) (sendPacket_result len.toNat timer))
      · rintro rc u ⟨⟨hstill', hsame'⟩, hrc⟩
        have hstill'' := IsTrans.trans (r := Still p) _ _ _ hstill hstill'
        rw [wp_ite, wp_pure]
        refine ⟨fun hne => ⟨[], ?_⟩, fun _ => ?_⟩
        · rw [hrefused]
          exact .failed hstill'' (hsame.trans hsame')
            ((hrc.resolve_left hne) ▸ hresults) hne
        · apply wp_imp (hnext u)
          rintro a v ⟨receipts, h⟩
          exact ⟨receipts, .after hstill'' (hsame.trans hsame') h⟩
      · exact fun _ _ _ => trivial
  · exact fun _ _ _ => trivial

/-- The identifier that `getNextPacketId` gives next. -/
def nextId (c : MQTTClient τ H) : UInt16 :=
  UInt16.ofNat (if c.nextPacketid = maxPacketId then 1 else c.nextPacketid + 1)

theorem getNextPacketId_still :
    wp (getNextPacketId : Prog (Client ω τ H) UInt16)
      (fun id t => id = nextId s.client ∧ Still p s t ∧ SameSession s t) (fun _ _ => True) s :=
  ⟨rfl, (still_quiet p).client s _ rfl, rfl, rfl, rfl⟩

theorem newTimer_still (ms : ℕ) :
    wp (newTimer p ms : Prog (Client ω τ H) τ)
      (fun _ t => t.client = s.client ∧ Still p s t) (fun _ _ => True) s :=
  ⟨rfl, newTimer_moves (still_quiet p).gentle.toDiscreet ms s⟩

theorem numberMessage_still (message : MQTTMessage) :
    wp (numberMessage message : Prog (Client ω τ H) MQTTMessage)
      (fun message' t => Still p s t ∧ SameSession s t ∧ message'.qos = message.qos ∧
        (message.qos = 1 ∨ message.qos = 2 → message'.id = some (nextId s.client)))
      (fun _ _ => True) s := by
  unfold numberMessage
  rw [wp_ite, wp_bind]
  refine ⟨fun _ => ?_, fun h => ⟨Std.Refl.refl s, .refl s, rfl, fun h' => absurd h' h⟩⟩
  apply wp_imp getNextPacketId_still
  rintro id t ⟨rfl, hstill, hsame⟩
  exact ⟨hstill, hsame, rfl, fun _ => rfl⟩

theorem ifConnected_exchanged (rcOf : α → ℤ) {missed : α} (hmissed : rcOf missed = failure)
    (hresults : Results failure) {next : τ → Prog (Client ω τ H) α}
    (hnext : ∀ (timer : τ) (t : Client ω τ H), t.client = s.client → wp (next timer)
      (fun a u => ∃ receipts, Exchanged p Results awaited t u (rcOf a) receipts)
      (fun _ _ => True) t) :
    wp (do
        let c ← getClient
        if c.isconnected then
          let timer ← newTimer p c.commandTimeoutMs
          next timer
        else pure missed)
      (fun a u => ∃ receipts, Exchanged p Results awaited s u (rcOf a) receipts)
      (fun _ _ => True) s := by
  rw [wp_bind, wp_getClient, wp_ite, wp_pure, wp_bind]
  constructor
  · intro _
    apply wp_imp (newTimer_still _)
    rintro timer t ⟨hclient, hstill⟩
    apply wp_imp (hnext timer t hclient)
    rintro a u ⟨receipts, h⟩
    exact ⟨receipts, .after hstill (by constructor <;> rw [hclient]) h⟩
  · intro _
    refine ⟨[], .failed (Std.Refl.refl s) (.refl s) (hmissed ▸ hresults) ?_⟩
    rw [hmissed]
    exact failure_ne_success

theorem awaitAck_exchanged (packetType : MsgType) :
    wp (awaitAck p fuel packetType timer)
      (fun rc t => ∃ receipts, Exchanged p Binary (some packetType) s t rc receipts)
      (fun _ _ => True) s := by
  refine await_exchanged id packetType binary_failure failure_ne_success fun t => ?_
  rw [wp_bind, wp_getClient, wp_bind]
  refine wp_ofOption fun result _ => ?_
  rw [wp_pure]
  refine ⟨Std.Refl.refl t, ?_, rfl, rfl⟩
  rw [id]
  split_ifs
  · exact binary_failure
  · exact binary_success

theorem awaitPublished_exchanged (topicName : CString) (message : MQTTMessage) :
    wp (awaitPublished p fuel message.qos timer)
      (fun rc t => ∃ receipts,
        Exchanged p Binary (Call.publish topicName message : Call H).awaited s t rc receipts)
      (fun _ _ => True) s := by
  have hawaited : (Call.publish topicName message : Call H).awaited =
      if message.qos = 1 then some .puback
      else if message.qos = 2 then some .pubcomp else none := rfl
  rw [hawaited, awaitPublished]
  split_ifs
  · exact awaitAck_exchanged .puback
  · exact awaitAck_exchanged .pubcomp
  · refine ⟨[], .still (Std.Refl.refl s), rfl, binary_success, id, fun _ => ⟨fun hopen => ?_, ?_⟩⟩
    · simp [hopen]
    · exact fun _ h => by cases h

theorem publishExchange_exchanged (topicName : CString) (message : MQTTMessage) :
    wp (publishExchange p fuel topicName message)
      (fun result t => ∃ receipts, Exchanged p Binary
        (Call.publish topicName message : Call H).awaited s t result.1 receipts)
      (fun _ _ => True) s := by
  refine ifConnected_exchanged Prod.fst rfl binary_failure fun timer t _ => ?_
  rw [wp_bind]
  apply wp_imp (numberMessage_still message)
  rintro message' u ⟨hstill, hsame, hqos, -⟩
  have hawait (v : Client ω τ H) : wp (do
      let rc ← awaitPublished p fuel message'.qos timer
      pure (rc, message'))
      (fun result w => ∃ receipts, Exchanged p Binary
        (Call.publish topicName message : Call H).awaited v w result.1 receipts)
      (fun _ _ => True) v := by
    rw [wp_bind, hqos]
    exact awaitPublished_exchanged topicName message
  apply wp_imp (request_exchanged _ _ Prod.fst rfl (fun _ => rfl)
    binary_failure hawait)
  rintro result v ⟨receipts, h⟩
  exact ⟨receipts, .after hstill hsame h⟩

theorem setMessageHandler_binary (slots : List (MessageHandler H)) (topicFilter : CString)
    (messageHandler : Option H) :
    Binary (setMessageHandler slots topicFilter messageHandler).1 := by
  unfold setMessageHandler
  split
  · split
    · exact binary_success
    · exact binary_success
  · split
    · exact binary_success
    · exact binary_failure

theorem mqttSetMessageHandler_still (topicFilter : CString) (messageHandler : Option H) :
    wp (mqttSetMessageHandler topicFilter messageHandler : Prog (Client ω τ H) ℤ)
      (fun rc t => Still p s t ∧ Binary rc ∧ t.client.isconnected = s.client.isconnected ∧
        t.client.cleansession = s.client.cleansession) (fun _ _ => True) s :=
  ⟨(still_quiet p).client s _ rfl, setMessageHandler_binary _ _ _, rfl, rfl⟩

theorem awaitSuback_exchanged (topicFilter : CString) (messageHandler : Option H) (data : ℤ) :
    wp (awaitSuback p fuel topicFilter messageHandler timer data)
      (fun result t => ∃ receipts, Exchanged p Binary (some .suback) s t result.1 receipts)
      (fun _ _ => True) s := by
  refine await_exchanged Prod.fst .suback binary_failure failure_ne_success fun t => ?_
  rw [wp_bind, wp_getClient, wp_bind]
  refine wp_ofOption fun result _ => ?_
  dsimp only
  rw [wp_ite, wp_pure, wp_bind]
  refine ⟨fun _ => ?_, fun _ => ⟨Std.Refl.refl t, binary_success, rfl, rfl⟩⟩
  exact mqttSetMessageHandler_still topicFilter messageHandler

theorem awaitUnsuback_exchanged (topicFilter : CString) :
    wp (awaitUnsuback p fuel topicFilter timer)
      (fun rc t => ∃ receipts, Exchanged p Binary (some .unsuback) s t rc receipts)
      (fun _ _ => True) s := by
  refine await_exchanged id .unsuback binary_failure failure_ne_success fun t => ?_
  rw [wp_bind, wp_getClient, wp_bind]
  refine wp_ofOption fun result _ => ?_
  rw [wp_ite, wp_pure, wp_bind]
  refine ⟨fun _ => ?_, fun _ => ⟨Std.Refl.refl t, binary_success, rfl, rfl⟩⟩
  apply wp_imp (mqttSetMessageHandler_still topicFilter none)
  rintro rc u ⟨hstill, -, hconnected, hclean⟩
  exact ⟨hstill, binary_success, hconnected, hclean⟩

theorem subscribeExchange_exchanged (topicFilter : CString) (qos : ℕ) (messageHandler : Option H)
    (data : ℤ) :
    wp (subscribeExchange p fuel topicFilter qos messageHandler data)
      (fun result t => ∃ receipts, Exchanged p Binary (some .suback) s t result.1 receipts)
      (fun _ _ => True) s := by
  refine ifConnected_exchanged Prod.fst rfl binary_failure fun timer t _ => ?_
  rw [wp_bind]
  apply wp_imp getNextPacketId_still
  rintro id u ⟨-, hstill, hsame⟩
  apply wp_imp (request_exchanged _ _ Prod.fst rfl (fun _ => rfl)
    binary_failure fun v => awaitSuback_exchanged topicFilter messageHandler data)
  rintro result v ⟨receipts, h⟩
  exact ⟨receipts, .after hstill hsame h⟩

theorem unsubscribeExchange_exchanged (topicFilter : CString) :
    wp (unsubscribeExchange p fuel topicFilter)
      (fun rc t => ∃ receipts, Exchanged p Binary (some .unsuback) s t rc receipts)
      (fun _ _ => True) s := by
  refine ifConnected_exchanged id rfl binary_failure fun timer t _ => ?_
  rw [wp_bind]
  apply wp_imp getNextPacketId_still
  rintro packetid u ⟨-, hstill, hsame⟩
  apply wp_imp (request_exchanged _ _ id rfl (fun _ => rfl)
    binary_failure fun v => awaitUnsuback_exchanged topicFilter)
  rintro result v ⟨receipts, h⟩
  exact ⟨receipts, .after hstill hsame h⟩

end MqttEmbedded.ClientC
