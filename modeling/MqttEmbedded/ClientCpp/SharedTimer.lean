import MqttEmbedded.Client.Lockstep
import MqttEmbedded.ClientCpp.Connecting

/-!
# Clients that share `ping_sent`

`keepalive` keeps the time of its PINGREQ in a static variable, which all clients of one
instantiation of the template have in common. A client that finds another time there
than the one it has left does the same as before, as long as it has no ping outstanding.
-/

namespace MqttEmbedded.ClientCpp

open Hoare

variable {ω τ H : Type} {p : Platform ω τ H} {fuel : ℕ} {timer pingSent : τ}
  {s s' t u : Client ω τ H} {history log : List Occurrence}

/-- A timer that is set to count down forgets what it was set to before. -/
def CountsAfresh (p : Platform ω τ H) : Prop :=
  ∀ timer timer' seconds w, p.timerCountdown timer seconds w = p.timerCountdown timer' seconds w

/-- A PINGREQ has been sent. -/
def Occurrence.Pings : Occurrence → Prop
  | .keptAlive _ pinged => pinged = true
  | .received .. | .delivered .. | .sent .. | .released _ | .publishing .. | .awaiting _
  | .awaited | .resuming | .resending _ => False

instance : DecidablePred Occurrence.Pings
  | .keptAlive _ pinged => inferInstanceAs (Decidable (pinged = true))
  | .received .. | .delivered .. | .sent .. | .released _ | .publishing .. | .awaiting _
  | .awaited | .resuming | .resending _ => .isFalse id

/-- The clients are the same but for the time of a ping that is not outstanding. -/
structure SameButPing (s s' : Client ω τ H) : Prop where
  same : ∃ v, s' = { s with own := { s.own with pingSent := v } }
  ping : s.client.pingOutstanding = true → s'.own.pingSent = s.own.pingSent

/-- Since `history` the time has been left at `pingSent`, or a PINGREQ has been sent. -/
def Since (history : List Occurrence) (pingSent : τ) (s : Client ω τ H) : Prop :=
  ∃ log, s.own.history = log ++ history ∧ ((∃ o ∈ log, o.Pings) ∨ s.own.pingSent = pingSent)

structure Twin (history : List Occurrence) (pingSent : τ) (s s' : Client ω τ H) : Prop
    extends SameButPing s s' where
  since : Since history pingSent s

theorem Since.noted (h : Since history pingSent s) (o : Occurrence) :
    Since history pingSent (noted s o) := by
  obtain ⟨log, hlog, h⟩ := h
  refine ⟨o :: log, congrArg (o :: ·) hlog, ?_⟩
  rcases h with ⟨o', ho', hpings⟩ | hsame
  · exact .inl ⟨o', List.mem_cons_of_mem _ ho', hpings⟩
  · exact .inr hsame

theorem Twin.abreast : Abreast (Twin history pingSent : Client ω τ H → _ → Prop) where
  same := by
    intro s s' h
    obtain ⟨v, rfl⟩ := h.same
    exact ⟨_, rfl⟩
  moved := by
    intro s s' c w h hping
    obtain ⟨v, rfl⟩ := h.same
    exact ⟨⟨⟨v, rfl⟩, fun hc => h.ping (hping hc)⟩, h.since⟩

theorem modifyOwn_uniform {f : Extras τ → Extras τ}
    (hf : ∀ own v, f { own with pingSent := v } = { f own with pingSent := v })
    (hhistory : ∀ own, ∃ log, (f own).history = log ++ own.history) :
    Uniform (Twin history pingSent) (modifyOwn f : Prog (Client ω τ H) PUnit) := by
  intro s s' h
  obtain ⟨v, rfl⟩ := h.same
  have hsame : (f s.own).pingSent = s.own.pingSent := by
    have heq := hf s.own s.own.pingSent
    rw [show { s.own with pingSent := s.own.pingSent } = s.own from rfl] at heq
    rw [heq]
  refine .ok ⟨⟨⟨v, ?_⟩, fun hc => ?_⟩, ?_⟩
  · exact congrArg (fun own => { s with own := own }) (hf s.own v)
  · have hping : v = s.own.pingSent := h.ping hc
    change (f { s.own with pingSent := v }).pingSent = (f s.own).pingSent
    rw [hf, hsame]
    exact hping
  · obtain ⟨log, hlog, hsince⟩ := h.since
    obtain ⟨later, hlater⟩ := hhistory s.own
    refine ⟨later ++ log, ?_, ?_⟩
    · change (f s.own).history = _
      rw [hlater, hlog, List.append_assoc]
    · change _ ∨ (f s.own).pingSent = pingSent
      rw [hsame]
      rcases hsince with ⟨o, ho, hpings⟩ | hkept
      · exact .inl ⟨o, List.mem_append_right _ ho, hpings⟩
      · exact .inr hkept

theorem getOwn_bind_uniform {α : Type} {f : Extras τ → Prog (Client ω τ H) α}
    (hf : ∀ own v, f { own with pingSent := v } = f own)
    (huniform : ∀ own, Uniform (Twin history pingSent) (f own)) :
    Uniform (Twin history pingSent) (getOwn >>= f) := by
  intro s s' h
  obtain ⟨v, rfl⟩ := h.same
  change EndAlike _ _ (f s.own s) (f { s.own with pingSent := v } _)
  rw [hf s.own v]
  exact huniform s.own s _ h

theorem note_uniform (o : Occurrence) :
    Uniform (Twin history pingSent) (note o : Prog (Client ω τ H) PUnit) :=
  modifyOwn_uniform (fun _ _ => rfl) fun _ => ⟨[o], rfl⟩

theorem sendLoop_uniform (fuel length : ℕ) (timer : τ) (sent : ℕ) :
    Uniform (Twin history pingSent)
      (sendLoop p length timer fuel sent : Prog (Client ω τ H) ℕ) := by
  induction fuel generalizing sent with
  | zero => exact .throw _
  | succ fuel ih =>
    refine .ite (.bind (Twin.abreast.ask _) fun left => ?_) (.pure sent)
    refine .bind Twin.abreast.getClient fun c => ?_
    refine .bind (Twin.abreast.ask _) fun rc => .ite (.pure sent) ?_
    refine .bind (Twin.abreast.ask _) fun expired => ?_
    exact .ite (.pure _) (ih _)

theorem recordSent_uniform :
    Uniform (Twin history pingSent) (recordSent p : Prog (Client ω τ H) PUnit) := by
  refine .bind Twin.abreast.getClient fun c => .ite ?_ (.pure _)
  refine .bind (Twin.abreast.ask _) fun lastSent => ?_
  exact Twin.abreast.modifyClient fun _ => id

theorem transmit_uniform (length : ℕ) (timer : τ) :
    Uniform (Twin history pingSent) (transmit p fuel length timer : Prog (Client ω τ H) ℤ) := by
  refine .bind (sendLoop_uniform fuel length timer 0) fun sent => .ite ?_ (.pure failure)
  exact .bind recordSent_uniform fun _ => .pure success

theorem sendPacket_uniform (length : ℕ) (timer : τ) :
    Uniform (Twin history pingSent) (sendPacket p fuel length timer : Prog (Client ω τ H) ℤ) := by
  refine .bind Twin.abreast.getClient fun c => .bind (transmit_uniform length timer) fun rc => ?_
  exact .bind (note_uniform _) fun _ => .pure rc

theorem readPacket_uniform (timer : τ) :
    Uniform (Twin history pingSent) (readPacket p timer : Prog (Client ω τ H) ℤ) := by
  refine .bind (Twin.abreast.readPacketWith tooLong 1 timer) fun packetType => ?_
  refine .bind Twin.abreast.getClient fun c => ?_
  exact .bind (note_uniform _) fun _ => .pure packetType

/-- In the course of `keepalive` a PINGREQ may have been sent that is not written down yet. -/
structure Pinging (before : MQTTClient τ H) (history : List Occurrence) (pingSent : τ)
    (s s' : Client ω τ H) : Prop extends SameButPing s s' where
  since : (before.pingOutstanding = false ∧ s.client.pingOutstanding = true ∧
    history <:+ s.own.history) ∨ Since history pingSent s

variable {before : MQTTClient τ H}

theorem Twin.pinging (h : Twin history pingSent s s') : Pinging before history pingSent s s' :=
  ⟨h.toSameButPing, .inr h.since⟩

theorem getClient_lockstep {R E : Client ω τ H → Client ω τ H → Prop}
    (hsame : ∀ {s s'}, R s s' → s'.client = s.client) :
    Lockstep R (fun c s s' => R s s' ∧ s.client = c) E getClient getClient := by
  intro s s' h
  have hclient := hsame h
  change EndAlike _ _ (.ok s.client s) (.ok s'.client s')
  rw [hclient]
  exact .ok ⟨h, rfl⟩

theorem SameButPing.client (h : SameButPing s s') : s'.client = s.client := by
  obtain ⟨v, rfl⟩ := h.same
  rfl

theorem sendPing_lockstep (hafresh : CountsAfresh p) (hbefore : before.pingOutstanding = false) :
    Lockstep (Twin history pingSent) (fun _ => Pinging before history pingSent)
      (Twin history pingSent) (sendPing p fuel : Prog (Client ω τ H) ℤ) (sendPing p fuel) := by
  have hnewTimer : Uniform (Twin history pingSent) (newTimer p 1000 : Prog (Client ω τ H) τ) :=
    Twin.abreast.newTimer 1000
  have hserialize : Uniform (Twin history pingSent)
      (serialize mqttSerializePingreq : Prog (Client ω τ H) ℤ) := Twin.abreast.serialize _
  refine .bind hnewTimer fun timer => .bind hserialize fun len => ?_
  refine .ite (fun _ => .pure fun _ _ => Twin.pinging) fun _ => ?_
  refine .bind (sendPacket_uniform len.toNat timer) fun rc => ?_
  refine .ite (fun _ => ?_) fun _ => .pure fun _ _ => Twin.pinging
  intro s s' h
  obtain ⟨v, rfl⟩ := h.same
  obtain ⟨log, hlog, -⟩ := h.since
  have hcountdown := hafresh v s.own.pingSent s.client.keepAliveInterval s.world
  refine .ok ⟨⟨⟨(p.timerCountdown v s.client.keepAliveInterval s.world).1, ?_⟩, fun _ => ?_⟩, ?_⟩
  · simp only [hcountdown]
  · exact congrArg Prod.fst hcountdown
  · exact .inl ⟨hbefore, rfl, hlog ▸ List.suffix_append _ _⟩

/-- With a ping outstanding the time is the same in both runs. -/
theorem checkPing_lockstep (hafresh : CountsAfresh p) :
    Lockstep (fun s s' => Twin history pingSent s s' ∧ s.client = before)
      (fun _ => Pinging before history pingSent) (Twin history pingSent)
      (checkPing p fuel : Prog (Client ω τ H) ℤ) (checkPing p fuel) := by
  intro s s' h
  obtain ⟨htwin, rfl⟩ := h
  unfold checkPing
  rw [getClient_bind, getClient_bind, htwin.client]
  by_cases houtstanding : s.client.pingOutstanding = true
  · rw [if_pos houtstanding]
    obtain ⟨v, rfl⟩ := htwin.same
    obtain rfl : v = s.own.pingSent := htwin.ping houtstanding
    have hasked := Twin.abreast.moved s.client (p.timerIsExpired s.own.pingSent s.world).2 htwin id
    exact .ok hasked.pinging
  · rw [if_neg houtstanding]
    have hdue : Uniform (Twin history pingSent) (keepaliveDue p : Prog (Client ω τ H) Bool) := by
      refine .bind Twin.abreast.getClient fun c => .bind (Twin.abreast.ask _) fun expired => ?_
      exact .ite (.pure true) (Twin.abreast.ask _)
    have hidle := Bool.eq_false_iff.mpr houtstanding
    refine Lockstep.bind hdue (fun due => ?_) s s' htwin
    refine .ite (fun _ => sendPing_lockstep hafresh hidle) fun _ => ?_
    exact .pure fun _ _ => Twin.pinging

theorem pingIfDue_lockstep (hafresh : CountsAfresh p) :
    Lockstep (fun s s' => Twin history pingSent s s' ∧ s.client = before)
      (fun _ => Pinging before history pingSent) (Twin history pingSent)
      (pingIfDue p fuel : Prog (Client ω τ H) ℤ) (pingIfDue p fuel) := by
  intro s s' h
  unfold pingIfDue
  rw [getClient_bind, getClient_bind, h.1.client]
  by_cases hzero : s.client.keepAliveInterval = 0
  · rw [if_pos hzero]
    exact .ok h.1.pinging
  · rw [if_neg hzero]
    exact checkPing_lockstep hafresh s s' h

/-- What `keepalive` writes down says whether it has set the time. -/
theorem Pinging.noted {rc : ℤ} (h : Pinging before history pingSent s s') :
    Twin history pingSent
      (noted s (.keptAlive rc (!before.pingOutstanding && s.client.pingOutstanding)))
      (noted s' (.keptAlive rc (!before.pingOutstanding && s.client.pingOutstanding))) := by
  refine ⟨⟨?_, h.ping⟩, ?_⟩
  · obtain ⟨v, rfl⟩ := h.same
    exact ⟨v, rfl⟩
  · rcases h.since with ⟨hbefore, hafter, log, hlog⟩ | hsince
    · refine ⟨_ :: log, congrArg (_ :: ·) hlog.symm, .inl ⟨_, List.mem_cons_self, ?_⟩⟩
      change (!before.pingOutstanding && s.client.pingOutstanding) = true
      rw [hbefore, hafter]
      rfl
    · exact hsince.noted _

theorem keepalive_uniform (hafresh : CountsAfresh p) :
    Uniform (Twin history pingSent) (keepalive p fuel : Prog (Client ω τ H) ℤ) := by
  have hread : Lockstep (Twin history pingSent)
      (fun c s s' => Twin history pingSent s s' ∧ s.client = c) (Twin history pingSent)
      (getClient : Prog (Client ω τ H) _) getClient := getClient_lockstep fun h => h.client
  refine Lockstep.bind hread fun before => Lockstep.bind (pingIfDue_lockstep hafresh) fun rc => ?_
  refine Lockstep.bind (Q := fun c s s' => Pinging before history pingSent s s' ∧ s.client = c)
    (getClient_lockstep fun h => h.client) fun after => ?_
  intro s s' h
  obtain ⟨hpinging, rfl⟩ := h
  exact .ok hpinging.noted

theorem cleanSession_uniform :
    Uniform (Twin history pingSent) (cleanSession : Prog (Client ω τ H) PUnit) := by
  refine .bind (Twin.abreast.modifyClient fun _ => id) fun _ => ?_
  exact modifyOwn_uniform (fun _ _ => rfl) fun _ => ⟨_, rfl⟩

theorem closeSession_uniform :
    Uniform (Twin history pingSent) (closeSession : Prog (Client ω τ H) PUnit) := by
  refine .bind (Twin.abreast.modifyClient fun _ h => absurd h Bool.false_ne_true) fun _ => ?_
  refine .bind Twin.abreast.getClient fun c => ?_
  exact .ite cleanSession_uniform (.pure _)

theorem closeUnlessSuccess_uniform (rc : ℤ) :
    Uniform (Twin history pingSent) (closeUnlessSuccess rc : Prog (Client ω τ H) PUnit) :=
  .ite closeSession_uniform (.pure _)

theorem closeOnFailure_uniform (rc : ℤ) :
    Uniform (Twin history pingSent) (closeOnFailure rc : Prog (Client ω τ H) PUnit) :=
  .ite closeSession_uniform (.pure _)

theorem deliver_uniform (topicName : MQTTString) (msg : MQTTMessage) :
    Uniform (Twin history pingSent) (deliver p topicName msg : Prog (Client ω τ H) PUnit) := by
  have hdeliver : Uniform (Twin history pingSent) (do
      note (.delivered msg.qos msg.id)
      let _ ← deliverMessage p topicName msg
      pure ⟨⟩ : Prog (Client ω τ H) PUnit) := by
    refine .bind (note_uniform _) fun _ => ?_
    exact .bind (Twin.abreast.deliverMessage topicName msg) fun _ => .pure _
  refine .ite hdeliver (.bind (ofOption_uniform msg.id) fun id => ?_)
  refine getOwn_bind_uniform (fun _ _ => rfl) fun own => .ite ?_ (.pure _)
  cases useQoS2msgid own.incomingQoS2messages id with
  | none => exact .pure _
  | some slots =>
    exact .bind (modifyOwn_uniform (fun _ _ => rfl) fun _ => ⟨[], rfl⟩) fun _ => hdeliver

theorem deliverUnread_uniform (topic : StringRead) (msg : MQTTMessage) :
    Uniform (Twin history pingSent) (deliverUnread p topic msg : Prog (Client ω τ H) PUnit) := by
  refine .bind Twin.abreast.getClient fun c => .ite (.throw _) ?_
  exact deliver_uniform (topic.stored mqttStringInitializer) msg

theorem answered_uniform (packetType : MsgType) (id : UInt16) :
    Uniform (Twin history pingSent) (answered packetType id : Prog (Client ω τ H) PUnit) := by
  refine .ite (modifyOwn_uniform (fun _ _ => rfl) fun own => ?_) (.pure _)
  by_cases hmem : id ∈ held own.incomingQoS2messages
  · exact ⟨[.released id], if_pos hmem⟩
  · exact ⟨[], if_neg hmem⟩

theorem variant_alike (hafresh : CountsAfresh p) :
    (variant p fuel : Variant _ ω τ H).Alike (Twin history pingSent) where
  abreast := Twin.abreast
  readPacket := readPacket_uniform
  sendPacket := sendPacket_uniform
  keepalive := keepalive_uniform hafresh
  closeSession := closeSession_uniform
  deliver := deliver_uniform
  deliverUnread := deliverUnread_uniform
  answered := answered_uniform

section Calls

variable (hafresh : CountsAfresh p)
include hafresh

theorem waitfor_uniform (packetType : MsgType) (timer : τ) :
    Uniform (Twin history pingSent)
      (waitfor p fuel packetType timer : Prog (Client ω τ H) ℤ) :=
  (variant_alike hafresh).waitforLoop p packetType timer fuel failure

theorem yieldLoop_uniform (timer : τ) (rounds : ℕ) :
    Uniform (Twin history pingSent)
      (yieldLoop p fuel timer rounds : Prog (Client ω τ H) ℤ) := by
  induction rounds with
  | zero => exact .throw _
  | succ rounds ih =>
    refine .bind (Twin.abreast.ask _) fun expired => .ite (.pure success) ?_
    refine .bind ((variant_alike hafresh).cycle timer) fun rc => ?_
    exact .ite (.pure failure) ih

theorem yield_uniform (timeoutMs : ℕ) :
    Uniform (Twin history pingSent) (yield p fuel timeoutMs : Prog (Client ω τ H) ℤ) := by
  refine .bind (Twin.abreast.newTimer timeoutMs) fun timer => ?_
  exact yieldLoop_uniform hafresh timer fuel

omit hafresh in
theorem getNext_uniform :
    Uniform (Twin history pingSent) (getNext : Prog (Client ω τ H) UInt16) := by
  refine .bind Twin.abreast.getClient fun c => ?_
  exact .bind (Twin.abreast.modifyClient fun _ => id) fun _ => .pure _

omit hafresh in
theorem clearInflight_uniform (mypacketid : UInt16) :
    Uniform (Twin history pingSent) (clearInflight mypacketid : Prog (Client ω τ H) PUnit) := by
  refine modifyOwn_uniform (fun own v => ?_) fun own => ⟨[], ?_⟩
  · split_ifs <;> rfl
  · split_ifs <;> rfl

omit hafresh in
theorem takeAck_uniform :
    Uniform (Twin history pingSent) (takeAck : Prog (Client ω τ H) ℤ) := by
  refine .bind Twin.abreast.getClient fun c => .bind (ofOption_uniform _) fun result => ?_
  refine .ite (.pure failure) (.bind (ofOption_uniform _) fun mypacketid => ?_)
  exact .bind (clearInflight_uniform _) fun _ => .pure success

theorem awaitAck_uniform (packetType : MsgType) (timer : τ) :
    Uniform (Twin history pingSent)
      (awaitAck p fuel packetType timer : Prog (Client ω τ H) ℤ) := by
  refine .bind (note_uniform _) fun _ => ?_
  refine .bind (waitfor_uniform hafresh packetType timer) fun rc => ?_
  refine .bind (note_uniform _) fun _ => ?_
  exact .ite takeAck_uniform (.pure failure)

theorem awaitPublished_uniform (qos : ℕ) (timer : τ) :
    Uniform (Twin history pingSent)
      (awaitPublished p fuel qos timer : Prog (Client ω τ H) ℤ) := by
  refine .ite ?_ (.ite ?_ (.pure success))
  · exact awaitAck_uniform hafresh .puback timer
  · exact awaitAck_uniform hafresh .pubcomp timer

theorem publishPacket_uniform (len : ℕ) (timer : τ) (qos : ℕ) :
    Uniform (Twin history pingSent)
      (publishPacket p fuel len timer qos : Prog (Client ω τ H) ℤ) := by
  refine .bind (sendPacket_uniform len timer) fun rc => .ite ?_ ?_
  · exact .bind closeSession_uniform fun _ => .pure rc
  · refine .bind (awaitPublished_uniform hafresh qos timer) fun rc => ?_
    exact .bind (closeUnlessSuccess_uniform rc) fun _ => .pure rc

omit hafresh in
theorem storePublish_uniform (len : ℕ) (id : UInt16) (qos : ℕ) :
    Uniform (Twin history pingSent) (storePublish len id qos : Prog (Client ω τ H) PUnit) := by
  refine .bind Twin.abreast.getClient fun c => .bind (note_uniform _) fun _ => .ite (.pure _) ?_
  exact modifyOwn_uniform (fun _ _ => rfl) fun _ => ⟨[], rfl⟩

theorem publish_uniform (topicName : CString) (payload : List UInt8) (payloadlen : ℕ)
    (id : UInt16) (qos : ℕ) (retained : Bool) :
    Uniform (Twin history pingSent) (publish p fuel topicName payload payloadlen id qos retained :
      Prog (Client ω τ H) (ℤ × UInt16)) := by
  have hid : Uniform (Twin history pingSent) (publishId id qos : Prog (Client ω τ H) UInt16) :=
    .ite getNext_uniform (.pure id)
  refine .bind Twin.abreast.getClient fun c => ?_
  refine .bind (Twin.abreast.newTimer c.commandTimeoutMs) fun timer => .ite ?_ (.pure _)
  refine .bind hid fun id => .bind (Twin.abreast.serialize _) fun len => .ite (.pure _) ?_
  refine .bind (storePublish_uniform len.toNat id qos) fun _ => ?_
  exact .bind (publishPacket_uniform hafresh len.toNat timer qos) fun rc => .pure _

theorem resend_uniform (len : ℕ) (timer : τ) (qos : ℕ) :
    Uniform (Twin history pingSent) (resend p fuel len timer qos : Prog (Client ω τ H) ℤ) := by
  refine .bind Twin.abreast.getClient fun c => .bind (note_uniform _) fun _ => ?_
  exact publishPacket_uniform hafresh len timer qos

theorem resume_uniform (timer : τ) (rc : ℤ) :
    Uniform (Twin history pingSent) (resume p fuel timer rc : Prog (Client ω τ H) ℤ) := by
  refine .bind (note_uniform _) fun _ => getOwn_bind_uniform (fun _ _ => rfl) fun own => ?_
  refine .ite ?_ (.ite ?_ (.pure rc))
  · refine .bind (Twin.abreast.serialize _) fun len => .ite (.pure failure) ?_
    exact resend_uniform hafresh len.toNat timer own.inflightQoS
  · refine .bind (Twin.abreast.modifyClient fun _ => id) fun _ => ?_
    exact resend_uniform hafresh own.inflightLen timer own.inflightQoS

theorem await_uniform (packetType : MsgType) (timer : τ)
    {got : MQTTClient τ H → Prog (Client ω τ H) ℤ}
    (hgot : ∀ c, Uniform (Twin history pingSent) (got c)) :
    Uniform (Twin history pingSent) (do
      let rc ← waitfor p fuel packetType timer
      if rc = packetType.code then do
        let c ← getClient
        got c
      else pure failure) := by
  refine .bind (waitfor_uniform hafresh packetType timer) fun rc => ?_
  exact .ite (.bind Twin.abreast.getClient hgot) (.pure failure)

theorem awaitConnack_uniform (timer : τ) :
    Uniform (Twin history pingSent) (awaitConnack p fuel timer : Prog (Client ω τ H) ℤ) := by
  refine await_uniform hafresh .connack timer fun c => ?_
  exact .bind (ofOption_uniform _) fun result => .pure _

theorem connectExchange_uniform (options : ConnectData) :
    Uniform (Twin history pingSent)
      (connectExchange p fuel options : Prog (Client ω τ H) ℤ) := by
  refine .bind Twin.abreast.getClient fun c => ?_
  refine .bind (Twin.abreast.newTimer c.commandTimeoutMs) fun timer => .ite (.pure failure) ?_
  refine .bind (Twin.abreast.modifyClient fun _ => id) fun _ => ?_
  refine .bind (Twin.abreast.serialize _) fun len => .ite (.pure failure) ?_
  refine .bind (sendPacket_uniform len.toNat timer) fun rc => .ite (.pure rc) ?_
  refine .bind Twin.abreast.recordReceived fun _ => ?_
  refine .bind (awaitConnack_uniform hafresh timer) fun rc => ?_
  exact resume_uniform hafresh timer rc

theorem connect_uniform (options : ConnectData) :
    Uniform (Twin history pingSent) (connect p fuel options : Prog (Client ω τ H) ℤ) := by
  have hopened : Uniform (Twin history pingSent) (modifyClient fun c =>
      { c with isconnected := true, pingOutstanding := false } : Prog (Client ω τ H) PUnit) :=
    Twin.abreast.modifyClient fun _ h => absurd h Bool.false_ne_true
  refine .bind (connectExchange_uniform hafresh options) fun rc => .ite ?_ (.pure rc)
  exact .bind hopened fun _ => .pure rc

omit hafresh in
theorem setHandler_uniform (topicFilter : CString) (messageHandler : Option H) :
    Uniform (Twin history pingSent)
      (setHandler topicFilter messageHandler : Prog (Client ω τ H) ℤ) := by
  refine .bind Twin.abreast.getClient fun c => ?_
  exact .bind (Twin.abreast.modifyClient fun _ => id) fun _ => .pure _

omit hafresh in
theorem request_uniform {f : UInt16 → List UInt8 → Option (ℤ × List UInt8)}
    {next : τ → Prog (Client ω τ H) ℤ}
    (hnext : ∀ timer, Uniform (Twin history pingSent) (next timer)) :
    Uniform (Twin history pingSent) (do
      let c ← getClient
      let timer ← newTimer p c.commandTimeoutMs
      if c.isconnected then
        let id ← getNext
        let len ← serialize (f id)
        if len ≤ 0 then pure failure
        else
          let rc ← sendPacket p fuel len.toNat timer
          if rc ≠ success then pure rc else next timer
      else pure failure) := by
  refine .bind Twin.abreast.getClient fun c => ?_
  refine .bind (Twin.abreast.newTimer c.commandTimeoutMs) fun timer => .ite ?_ (.pure failure)
  refine .bind getNext_uniform fun id => .bind (Twin.abreast.serialize (f id)) fun len => ?_
  refine .ite (.pure failure) (.bind (sendPacket_uniform len.toNat timer) fun rc => ?_)
  exact .ite (.pure rc) (hnext timer)

theorem awaitSuback_uniform (topicFilter : CString) (messageHandler : Option H) (timer : τ) :
    Uniform (Twin history pingSent)
      (awaitSuback p fuel topicFilter messageHandler timer : Prog (Client ω τ H) ℤ) := by
  refine await_uniform hafresh .suback timer fun c => .bind (ofOption_uniform _) fun result => ?_
  exact .ite (setHandler_uniform topicFilter messageHandler) (.pure success)

theorem subscribe_uniform (topicFilter : CString) (qos : ℕ) (messageHandler : Option H) :
    Uniform (Twin history pingSent)
      (subscribe p fuel topicFilter qos messageHandler : Prog (Client ω τ H) ℤ) := by
  refine .bind (request_uniform ?_) fun rc => ?_
  · exact awaitSuback_uniform hafresh topicFilter messageHandler
  · exact .bind (closeOnFailure_uniform rc) fun _ => .pure rc

theorem awaitUnsuback_uniform (topicFilter : CString) (timer : τ) :
    Uniform (Twin history pingSent)
      (awaitUnsuback p fuel topicFilter timer : Prog (Client ω τ H) ℤ) := by
  refine await_uniform hafresh .unsuback timer fun c => .bind (ofOption_uniform _) fun result => ?_
  refine .ite ?_ (.pure success)
  exact .bind (setHandler_uniform topicFilter none) fun _ => .pure success

theorem unsubscribe_uniform (topicFilter : CString) :
    Uniform (Twin history pingSent)
      (unsubscribe p fuel topicFilter : Prog (Client ω τ H) ℤ) := by
  refine .bind (request_uniform ?_) fun rc => ?_
  · exact awaitUnsuback_uniform hafresh topicFilter
  · exact .bind (closeUnlessSuccess_uniform rc) fun _ => .pure rc

omit hafresh in
theorem disconnect_uniform :
    Uniform (Twin history pingSent) (disconnect p fuel : Prog (Client ω τ H) ℤ) := by
  have hsend (timer : τ) : Uniform (Twin history pingSent)
      (sendDisconnect p fuel timer : Prog (Client ω τ H) ℤ) := by
    refine .bind (Twin.abreast.serialize mqttSerializeDisconnect) fun len => ?_
    exact .ite (sendPacket_uniform len.toNat timer) (.pure failure)
  refine .bind Twin.abreast.getClient fun c => ?_
  refine .bind (Twin.abreast.newTimer c.commandTimeoutMs) fun timer => ?_
  exact .bind (hsend timer) fun rc => .bind closeSession_uniform fun _ => .pure rc

theorem perform_uniform (fuel : ℕ) (call : Call H) :
    Uniform (Twin history pingSent) (perform p fuel call : Prog (Client ω τ H) ℤ) := by
  cases call with
  | connect options => exact connect_uniform hafresh _
  | publish topicName payload payloadlen id qos retained =>
    refine .bind ?_ fun result => .pure result.1
    exact publish_uniform hafresh topicName payload payloadlen id qos retained
  | publishWithoutId topicName payload payloadlen qos retained =>
    refine .bind ?_ fun result => .pure result.1
    exact publish_uniform hafresh topicName payload payloadlen 0 qos retained
  | publishMessage topicName message =>
    refine .bind ?_ fun result => .pure result.1
    exact publish_uniform hafresh topicName message.payload message.payloadlen 0 message.qos
      (message.retained ≠ 0)
  | subscribe topicFilter qos messageHandler =>
    exact subscribe_uniform hafresh topicFilter qos messageHandler
  | unsubscribe topicFilter => exact unsubscribe_uniform hafresh topicFilter
  | yield timeoutMs => exact yield_uniform hafresh timeoutMs
  | disconnect => exact disconnect_uniform
  | setMessageHandler topicFilter messageHandler =>
    exact setHandler_uniform topicFilter messageHandler
  | setDefaultMessageHandler messageHandler =>
    exact .bind (Twin.abreast.modifyClient fun _ => id) fun _ => .pure success

end Calls

end MqttEmbedded.ClientCpp
