import MqttEmbedded.ClientCpp.Accounts

/-!
# What `cycle` and `waitfor` write down

A cycle begins with what has been received, which stays in the receive buffer, and
goes on with what is done for it. `waitfor` makes cycles until one of them returns
the awaited type, or fails.
-/

namespace MqttEmbedded.ClientCpp

open Region Hoare

variable {ω τ H : Type} {p : Platform ω τ H} {fuel : ℕ} {timer : τ} {s t u : Client ω τ H}
  {packetType rc : ℤ} {log : List Occurrence}

/-- What is written down after a packet has been received and before the next one is. -/
def Occurrence.Working : Occurrence → Prop
  | .delivered .. | .sent .. | .released _ | .keptAlive .. => True
  | .received .. | .publishing .. | .awaiting _ | .awaited | .resuming | .resending _ => False

/-- The packet stays in the buffer while work is done for it. -/
structure Handled (s t : Client ω τ H) : Prop where
  readbuf : t.client.readbuf = s.client.readbuf
  history : ∃ log, t.own.history = log ++ s.own.history ∧ ∀ o ∈ log, o.Working

namespace Handled

theorem refl (s : Client ω τ H) : Handled s s :=
  ⟨rfl, [], rfl, fun _ h => absurd h List.not_mem_nil⟩

theorem trans (h : Handled s t) (h' : Handled t u) : Handled s u := by
  obtain ⟨log, hlog, hall⟩ := h.history
  obtain ⟨log', hlog', hall'⟩ := h'.history
  refine ⟨h'.readbuf.trans h.readbuf, log' ++ log, ?_, ?_⟩
  · rw [hlog', hlog, List.append_assoc]
  · intro o ho
    rcases List.mem_append.mp ho with ho | ho
    · exact hall' o ho
    · exact hall o ho

instance : Std.Refl (Handled : Client ω τ H → _ → Prop) := ⟨refl⟩

instance : IsTrans (Client ω τ H) Handled := ⟨fun _ _ _ => trans⟩

theorem silent (hbuf : t.client.readbuf = s.client.readbuf)
    (hhistory : t.own.history = s.own.history) : Handled s t :=
  ⟨hbuf, [], hhistory, fun _ h => absurd h List.not_mem_nil⟩

theorem noted {o : Occurrence} (ho : o.Working) :
    Moves Handled (note o : Prog (Client ω τ H) _) := by
  intro s
  refine ⟨rfl, [o], rfl, fun o' ho' => ?_⟩
  rw [List.mem_singleton.mp ho']
  exact ho

theorem outward (p : Platform ω τ H) : p.Outward (Handled : Client ω τ H → _ → Prop) :=
  outward_of_world p fun _ _ => silent rfl rfl

end Handled

theorem sendPacket_handled (length : ℕ) (timer : τ) :
    Moves Handled (sendPacket p fuel length timer : Prog (Client ω τ H) ℤ) := by
  have htransmit : Moves Handled (transmit p fuel length timer : Prog (Client ω τ H) ℤ) :=
    transmit_moves (Handled.outward p).toDiscreet (fun _ _ => .silent rfl rfl) length timer
  refine .bind getClient_moves fun c => .bind htransmit fun rc => ?_
  exact .bind (.noted trivial) fun _ => .pure _

theorem deliver_handled (topicName : MQTTString) (msg : MQTTMessage) :
    Moves Handled (deliver p topicName msg : Prog (Client ω τ H) PUnit) := by
  have hdeliver : Moves Handled (do
      note (.delivered msg.qos msg.id)
      let _ ← deliverMessage p topicName msg
      pure ⟨⟩ : Prog (Client ω τ H) PUnit) := by
    refine .bind (.noted trivial) fun _ => ?_
    exact .bind (deliverMessage_moves (Handled.outward p) topicName msg) fun _ => .pure _
  refine .ite hdeliver (.bind (ofOption_moves msg.id) fun id => .bind getOwn_moves fun own => ?_)
  refine .ite ?_ (.pure _)
  cases useQoS2msgid own.incomingQoS2messages id with
  | none => exact .pure _
  | some slots => exact .bind (fun _ => .silent rfl rfl) fun _ => hdeliver

theorem deliverUnread_handled (topic : StringRead) (msg : MQTTMessage) :
    Moves Handled (deliverUnread p topic msg : Prog (Client ω τ H) PUnit) := by
  refine .bind getClient_moves fun c => .ite (.throw _) ?_
  exact deliver_handled (topic.stored mqttStringInitializer) msg

theorem handled_released (hbuf : t.client.readbuf = s.client.readbuf) (ids : List UInt16)
    (hhistory : t.own.history = ids.map .released ++ s.own.history) : Handled s t := by
  refine ⟨hbuf, _, hhistory, fun o ho => ?_⟩
  obtain ⟨id, -, rfl⟩ := List.mem_map.mp ho
  trivial

theorem answered_handled (packetType : MsgType) (id : UInt16) :
    Moves Handled (answered packetType id : Prog (Client ω τ H) PUnit) := by
  refine .ite (fun s => ?_) (.pure _)
  by_cases hmem : id ∈ held s.own.incomingQoS2messages
  · exact handled_released rfl [id] (if_pos hmem)
  · exact .silent rfl (if_neg hmem)

theorem sendPing_handled : Moves Handled (sendPing p fuel : Prog (Client ω τ H) ℤ) := by
  refine .bind (newTimer_moves (Handled.outward p).toDiscreet 1000) fun timer => ?_
  refine .bind (serialize_moves (fun _ _ => .silent rfl rfl) _) fun len => .ite (.pure _) ?_
  refine .bind (sendPacket_handled len.toNat timer) fun rc => .ite ?_ (.pure _)
  refine .bind (fun _ => .silent rfl rfl) fun _ => .bind getClient_moves fun c => ?_
  refine .bind getOwn_moves fun own => ?_
  refine .bind ((Handled.outward p).timerCountdown own.pingSent c.keepAliveInterval) fun _ => ?_
  exact .bind (fun _ => .silent rfl rfl) fun _ => .pure _

theorem checkPing_handled : Moves Handled (checkPing p fuel : Prog (Client ω τ H) ℤ) := by
  refine .bind getClient_moves fun c => .ite ?_ ?_
  · refine .bind getOwn_moves fun own => ?_
    exact .bind ((Handled.outward p).timerIsExpired own.pingSent) fun expired => .pure _
  · refine .bind (keepaliveDue_moves (Handled.outward p).toDiscreet) fun due => ?_
    exact .ite sendPing_handled (.pure _)

theorem pingIfDue_handled : Moves Handled (pingIfDue p fuel : Prog (Client ω τ H) ℤ) :=
  .bind getClient_moves fun _ => .ite (.pure _) checkPing_handled

theorem keepalive_handled : Moves Handled (keepalive p fuel : Prog (Client ω τ H) ℤ) := by
  refine .bind getClient_moves fun before => .bind pingIfDue_handled fun rc => ?_
  refine .bind getClient_moves fun after => ?_
  exact .bind (.noted trivial) fun _ => .pure _

theorem closeSession_handled : Moves Handled (closeSession : Prog (Client ω τ H) PUnit) := by
  intro s
  rw [wp_closeSession]
  unfold closed
  split_ifs
  · exact handled_released rfl _ rfl
  · exact .silent rfl rfl

theorem variant_handled : (variant p fuel).Stays (Handled : Client ω τ H → _ → Prop) where
  buf := fun _ _ => .silent rfl rfl
  pingresp := fun _ => .silent rfl rfl
  sendPacket := sendPacket_handled
  deliver := deliver_handled
  deliverUnread := deliverUnread_handled
  answered := answered_handled
  keepalive := keepalive_handled
  closeSession := closeSession_handled

/-- What is written down in cycles. -/
def Occurrence.Routine : Occurrence → Prop
  | .received .. | .delivered .. | .sent .. | .released _ | .keptAlive .. => True
  | .publishing .. | .awaiting _ | .awaited | .resuming | .resending _ => False

/-- The session and the message in flight are kept. -/
structure Keeps (s t : Client ω τ H) : Prop where
  isconnected : s.client.isconnected = false → t.client.isconnected = false
  cleansession : t.client.cleansession = s.client.cleansession
  nextPacketid : s.client.nextPacketid ≤ maxPacketId → t.client.nextPacketid ≤ maxPacketId
  own : t.own = { s.own with
    pingSent := t.own.pingSent
    incomingQoS2messages := t.own.incomingQoS2messages
    history := t.own.history }

namespace Keeps

theorem refl (s : Client ω τ H) : Keeps s s := ⟨id, rfl, id, rfl⟩

theorem trans (h : Keeps s t) (h' : Keeps t u) : Keeps s u := by
  refine ⟨fun hs => h'.isconnected (h.isconnected hs), h'.cleansession.trans h.cleansession,
    fun hs => h'.nextPacketid (h.nextPacketid hs), ?_⟩
  rw [h'.own, h.own]

theorem inflightMsgid (h : Keeps s t) : t.own.inflightMsgid = s.own.inflightMsgid := by rw [h.own]

end Keeps

theorem Same.keeps (h : Same s t) : Keeps s t := by
  refine ⟨fun hs => h.isconnected.trans hs, h.cleansession, h.nextPacketid, ?_⟩
  rw [h.own]

/-- A session that is open and clean is forgotten when it is closed. -/
def Lasting (s : Client ω τ H) : Prop :=
  s.client.isconnected = false ∨ s.client.cleansession = false

theorem Keeps.lasting (h : Keeps s t) (hs : Lasting s) : Lasting t :=
  hs.imp h.isconnected fun hclean => h.cleansession.trans hclean

theorem closed_keeps (h : s.client.cleansession = false) : Keeps s (closed s) := by
  unfold closed
  rw [h]
  exact ⟨fun _ => rfl, rfl, id, rfl⟩

theorem Deed.keeps (h : Deed s t) (hs : Lasting s) : Keeps s t := by
  cases h with
  | still hsame => exact hsame.keeps
  | closed hopen =>
    rcases hs with hnot | hclean
    · rw [hnot] at hopen
      exact absurd hopen Bool.false_ne_true
    · exact closed_keeps hclean
  | received | delivered | taken | freed | sent | keptAlive => exact ⟨id, rfl, id, rfl⟩

theorem Did.keeps (h : Did s t) (hs : Lasting s) : Keeps s t := by
  induction h with
  | refl => exact .refl s
  | tail _ hdeed ih => exact ih.trans (hdeed.keeps (ih.lasting hs))

theorem Deed.routine (h : Deed s t) :
    ∃ log, t.own.history = log ++ s.own.history ∧ ∀ o ∈ log, o.Routine := by
  have hone {o : Occurrence} (ho : o.Routine) : ∀ o' ∈ [o], o'.Routine := by
    intro o' ho'
    rw [List.mem_singleton.mp ho']
    exact ho
  have hreleased (ids : List UInt16) : ∀ o ∈ ids.map Occurrence.released, o.Routine := by
    intro o ho
    obtain ⟨id, -, rfl⟩ := List.mem_map.mp ho
    trivial
  cases h with
  | still hsame => exact ⟨[], hsame.history, fun _ ho => absurd ho List.not_mem_nil⟩
  | freed id =>
    dsimp only [ClientCpp.freed]
    split_ifs
    · exact ⟨[.released id], rfl, hone trivial⟩
    · exact ⟨[], rfl, fun _ ho => absurd ho List.not_mem_nil⟩
  | closed _ =>
    unfold ClientCpp.closed
    split_ifs
    · exact ⟨_, rfl, hreleased _⟩
    · exact ⟨[], rfl, fun _ ho => absurd ho List.not_mem_nil⟩
  | received packetType readbuf => exact ⟨[_], rfl, hone trivial⟩
  | delivered id _ => exact ⟨[_], rfl, hone trivial⟩
  | taken _ _ => exact ⟨[_], rfl, hone trivial⟩
  | sent rc _ => exact ⟨[_], rfl, hone trivial⟩
  | keptAlive rc pinged => exact ⟨[_], rfl, hone trivial⟩

theorem Did.routine (h : Did s t) :
    ∃ log, t.own.history = log ++ s.own.history ∧ ∀ o ∈ log, o.Routine := by
  induction h with
  | refl => exact ⟨[], rfl, fun _ ho => absurd ho List.not_mem_nil⟩
  | tail _ hdeed ih =>
    obtain ⟨log, hlog, hall⟩ := ih
    obtain ⟨log', hlog', hall'⟩ := hdeed.routine
    refine ⟨log' ++ log, ?_, ?_⟩
    · rw [hlog', hlog, List.append_assoc]
    · intro o ho
      rcases List.mem_append.mp ho with ho | ho
      · exact hall' o ho
      · exact hall o ho

theorem sendPacket_result (length : ℕ) (timer : τ) :
    wp (sendPacket p fuel length timer) (fun rc _ => rc = success ∨ rc = failure)
      (fun _ _ => True) s := by
  unfold sendPacket transmit
  rw [wp_bind, wp_getClient, wp_bind, wp_bind]
  apply wp_mono (wp_true _)
  · intro sent t _
    rw [wp_ite, wp_bind, wp_pure]
    constructor
    · intro _
      apply wp_imp (wp_true _)
      exact fun _ _ _ => .inl rfl
    · exact fun _ => .inr rfl
  · exact fun _ _ _ => trivial

theorem variant_sendsOrFails : (variant p fuel).SendsOrFails :=
  fun length timer _ => sendPacket_result length timer

/-- The types of the packets for which `cycle` does nothing but check the keepalive. -/
def Plain (packetType : ℤ) : Prop :=
  ∃ type ∈ [MsgType.connack, .puback, .pubcomp, .suback, .unsuback], packetType = type.code

/-- One round of `cycle`: the packet it has received, what it has done, what it returns. -/
structure Cycled (s : Client ω τ H) (packetType : ℤ) (log : List Occurrence) (rc : ℤ)
    (t : Client ω τ H) : Prop where
  did : Did s t
  history : t.own.history = log ++ .received packetType t.client.readbuf :: s.own.history
  working : ∀ o ∈ log, o.Working
  result : rc = packetType ∨ rc = failure
  /-- Only a failing keepalive makes such a packet a failure. -/
  plain : Plain packetType →
    rc = packetType ∨ ∃ rc' pinged, rc' ≠ success ∧ .keptAlive rc' pinged ∈ log
  /-- A PUBREL that is answered releases its identifier. -/
  pubrel : packetType = MsgType.pubrel.code → 0 ≤ rc → ∀ id,
    acknowledgedId t.client.readbuf = some id → id ∈ held s.own.incomingQoS2messages →
    .released id ∈ log

theorem handlePacket_plain (h : Plain packetType) :
    (variant p fuel).handlePacket packetType timer = pure ⟨success, false⟩ := by
  obtain ⟨type, hmem, rfl⟩ := h
  have hcode := type.code_pos
  rw [Variant.handlePacket, if_neg (by omega), MsgType.ofCode_code]
  simp only [List.mem_cons, List.not_mem_nil, or_false] at hmem
  rcases hmem with rfl | rfl | rfl | rfl | rfl
  · rfl
  · rfl
  · rfl
  · rfl
  · rfl

theorem handlePacket_result (packetType : ℤ) :
    wp ((variant p fuel).handlePacket packetType timer)
      (fun outcome _ => outcome.rc = success ∨ outcome = ⟨failure, true⟩ ∨
        outcome = ⟨packetType, true⟩) (fun _ _ => True) s := by
  by_cases hcase : HasCase packetType
  · apply wp_imp (Variant.handlePacket_known variant_sendsOrFails hcase)
    rintro outcome _ (hrc | hfailed)
    · exact .inl hrc
    · exact .inr (.inl hfailed)
  · rw [Variant.handlePacket_unknown hcase]
    exact .inr (.inr rfl)

theorem Handled.suffix (h : Handled s t) : s.own.history <:+ t.own.history := by
  obtain ⟨log, hlog, -⟩ := h.history
  rw [hlog]
  exact List.suffix_append log _

/-- A keepalive that fails has been written down since `s`. -/
def KeepaliveFailed (s t : Client ω τ H) : Prop :=
  ∃ rc pinged earlier, rc ≠ success ∧ .keptAlive rc pinged :: earlier <:+ t.own.history ∧
    s.own.history <:+ earlier

theorem KeepaliveFailed.mem (h : KeepaliveFailed s t)
    (hhistory : t.own.history = log ++ s.own.history) :
    ∃ rc pinged, rc ≠ success ∧ .keptAlive rc pinged ∈ log := by
  obtain ⟨rc, pinged, earlier, hrc, ⟨later, hlater⟩, ⟨middle, rfl⟩⟩ := h
  refine ⟨rc, pinged, hrc, ?_⟩
  have hlog : later ++ .keptAlive rc pinged :: middle = log := by
    refine List.append_cancel_right (?_ : _ ++ s.own.history = _ ++ s.own.history)
    rw [← hhistory, ← hlater, List.append_assoc, List.cons_append]
  rw [← hlog]
  simp

theorem keepalive_noted : wp (keepalive p fuel)
    (fun rc t => rc = success ∨ KeepaliveFailed s t) (fun _ _ => True) s := by
  have hping : Moves Handled (pingIfDue p fuel : Prog (Client ω τ H) ℤ) :=
    pingIfDue_handled
  unfold keepalive
  rw [wp_bind, wp_getClient, wp_bind]
  apply wp_mono (hping s)
  · intro rc t hhandled
    rw [wp_bind, wp_getClient, wp_bind, wp_note, wp_pure]
    by_cases hrc : rc = success
    · exact .inl hrc
    · exact .inr ⟨rc, _, t.own.history, hrc, List.suffix_refl _, hhandled.suffix⟩
  · exact fun _ _ _ => trivial

theorem checkKeepalive_result (outcome : Outcome) :
    wp ((variant p fuel).checkKeepalive outcome)
      (fun rc t => rc = outcome.rc ∨ rc = failure ∧ KeepaliveFailed s t) (fun _ _ => True) s := by
  unfold Variant.checkKeepalive
  rw [wp_ite, wp_pure, wp_bind]
  refine ⟨fun _ => .inl rfl, fun _ => ?_⟩
  apply wp_imp keepalive_noted
  intro rc t hkept
  rw [wp_pure]
  split_ifs with hrc
  · exact .inr ⟨rfl, hkept.resolve_left hrc⟩
  · exact .inl rfl

/-- The identifier has been released since `s`. -/
def ReleasedSince (s t : Client ω τ H) (id : UInt16) : Prop :=
  ∃ earlier, .released id :: earlier <:+ t.own.history ∧ s.own.history <:+ earlier

theorem ReleasedSince.mem {id : UInt16} (h : ReleasedSince s t id)
    (hhistory : t.own.history = log ++ s.own.history) : .released id ∈ log := by
  obtain ⟨earlier, ⟨later, hlater⟩, ⟨middle, rfl⟩⟩ := h
  have hlog : later ++ .released id :: middle = log := by
    refine List.append_cancel_right (?_ : _ ++ s.own.history = _ ++ s.own.history)
    rw [← hhistory, ← hlater, List.append_assoc, List.cons_append]
  rw [← hlog]
  simp

theorem sendAck_slots (packettype : MsgType) (id : UInt16) (timer : τ) :
    wp ((variant p fuel).sendAck packettype id timer) (fun _ t => Handled s t ∧
      t.own.incomingQoS2messages = s.own.incomingQoS2messages) (fun _ _ => True) s := by
  have hslots : wp ((variant p fuel).sendAck packettype id timer)
      (fun _ t => t.own.incomingQoS2messages = s.own.incomingQoS2messages)
      (fun _ _ => True) s := by
    rw [Variant.wp_sendAck]
    refine ⟨fun _ => ?_, fun _ => rfl⟩
    apply wp_mono (sendPacket_sent _ timer)
    · rintro rc _ ⟨u, hsame, rfl⟩
      exact hsame.slots
    · exact fun _ _ _ => trivial
  apply wp_mono (wp_and (variant_handled.sendAck packettype id timer s) hslots)
  · exact fun _ _ h => h
  · exact fun _ _ _ => trivial

/-- A PUBREL that is answered releases its identifier. -/
theorem caseAck_released (timer : τ) : wp ((variant p fuel).caseAck .pubrel timer)
    (fun outcome t => outcome = ⟨failure, true⟩ ∨ ∀ id, acknowledgedId s.client.readbuf = some id →
      id ∈ held s.own.incomingQoS2messages → ReleasedSince s t id) (fun _ _ => True) s := by
  unfold Variant.caseAck
  rw [wp_bind, wp_getClient, wp_bind]
  refine wp_ofOption fun result hresult => ?_
  rw [wp_ite, wp_pure, wp_bind]
  refine ⟨fun _ => .inl rfl, fun hrc => wp_ofOption fun packetid hpacketid => ?_⟩
  rw [wp_bind]
  apply wp_imp (sendAck_slots _ _ timer)
  rintro rc t ⟨hhandled, hslots⟩
  rw [wp_ite, wp_pure, wp_bind]
  refine ⟨fun _ => .inl rfl, fun _ => .inr fun id hid hmem => ?_⟩
  have hid' : UInt16.ofNat packetid = id := by
    obtain ⟨rc', fields⟩ := result
    obtain rfl : rc' = 1 := not_not.mp hrc
    have hpacketid : fields.packetid = some packetid := hpacketid
    simpa [acknowledgedId, hresult, hpacketid] using hid
  rw [hid']
  rw [← hslots] at hmem
  exact ⟨t.own.history, by simp [hmem], hhandled.suffix⟩

theorem closeIfConnected_handled :
    Moves Handled ((variant p fuel).closeIfConnected : Prog (Client ω τ H) PUnit) :=
  .bind getClient_moves fun _ => .ite closeSession_handled (.pure _)

theorem finish_result (hrc : rc = success ∨ rc = packetType ∨ rc = failure) :
    wp (if rc = success then pure packetType
      else do
        (variant p fuel).closeIfConnected
        pure rc)
      (fun rc' t => Handled s t ∧ rc' = if rc = failure then failure else packetType)
      (fun _ _ => True) s := by
  rw [wp_ite, wp_pure, wp_bind]
  constructor
  · rintro rfl
    exact ⟨.refl s, rfl⟩
  · intro hne
    apply wp_mono (closeIfConnected_handled s)
    · intro _ t hhandled
      refine ⟨hhandled, ?_⟩
      split_ifs with hfailed
      · exact hfailed
      · exact (hrc.resolve_left hne).resolve_right hfailed
    · exact fun _ _ _ => trivial

theorem afterRead_result (packetType : ℤ) (timer : τ) :
    wp (do
      let outcome ← (variant p fuel).handlePacket packetType timer
      let rc ← (variant p fuel).checkKeepalive outcome
      if rc = success then pure packetType
      else
        (variant p fuel).closeIfConnected
        pure rc)
      (fun rc t => (rc = packetType ∨ rc = failure) ∧
        (Plain packetType → rc = packetType ∨ KeepaliveFailed s t)) (fun _ _ => True) s := by
  rw [wp_bind]
  by_cases hplain : Plain packetType
  · rw [handlePacket_plain hplain, wp_pure, wp_bind]
    apply wp_imp (checkKeepalive_result ⟨success, false⟩)
    intro rc t hrc
    have hrc' : rc = success ∨ rc = packetType ∨ rc = failure :=
      hrc.imp_right fun hfailed => .inr hfailed.1
    apply wp_imp (finish_result hrc')
    rintro rc' u ⟨hhandled, rfl⟩
    split_ifs with hfailed
    · refine ⟨.inr rfl, fun _ => .inr ?_⟩
      have hne : rc ≠ success := by
        rw [hfailed]
        decide
      obtain ⟨-, rc'', pinged, earlier, hkept, hsuffix, hearlier⟩ := hrc.resolve_left hne
      exact ⟨rc'', pinged, earlier, hkept, hsuffix.trans hhandled.suffix, hearlier⟩
    · exact ⟨.inl rfl, fun _ => .inl rfl⟩
  · apply wp_imp (handlePacket_result packetType)
    intro outcome t houtcome
    rw [wp_bind]
    apply wp_imp (checkKeepalive_result outcome)
    intro rc u hrc
    have hrc' : rc = success ∨ rc = packetType ∨ rc = failure := by
      rcases hrc with rfl | ⟨hfailed, -⟩
      · rcases houtcome with hsuccess | rfl | rfl
        · exact .inl hsuccess
        · exact .inr (.inr rfl)
        · exact .inr (.inl rfl)
      · exact .inr (.inr hfailed)
    apply wp_imp (finish_result hrc')
    rintro rc' v ⟨-, rfl⟩
    refine ⟨?_, fun h => absurd h hplain⟩
    split_ifs
    · exact .inr rfl
    · exact .inl rfl

theorem afterRead_released (timer : τ) :
    wp (do
      let outcome ← (variant p fuel).handlePacket MsgType.pubrel.code timer
      let rc ← (variant p fuel).checkKeepalive outcome
      if rc = success then pure (MsgType.pubrel.code : ℤ)
      else
        (variant p fuel).closeIfConnected
        pure rc)
      (fun rc t => 0 ≤ rc → ∀ id, acknowledgedId s.client.readbuf = some id →
        id ∈ held s.own.incomingQoS2messages → ReleasedSince s t id) (fun _ _ => True) s := by
  have hcase : (variant p fuel).handlePacket MsgType.pubrel.code timer =
      (variant p fuel).caseAck .pubrel timer := rfl
  rw [wp_bind, hcase]
  apply wp_imp (caseAck_released timer)
  intro outcome t houtcome
  have hrest : Moves Handled (do
      let rc ← (variant p fuel).checkKeepalive outcome
      if rc = success then pure (MsgType.pubrel.code : ℤ)
      else
        (variant p fuel).closeIfConnected
        pure rc) := by
    refine .bind (.ite (.pure _) (.bind keepalive_handled fun rc => .pure _)) fun rc => ?_
    exact .ite (.pure _) (.bind closeIfConnected_handled fun _ => .pure rc)
  rcases houtcome with rfl | hreleased
  · rw [wp_bind, Variant.checkKeepalive, if_pos rfl, wp_pure]
    apply wp_imp (finish_result (.inr (.inr rfl)))
    rintro rc u ⟨-, rfl⟩ hle
    exact absurd hle (by decide)
  · apply wp_mono (hrest t)
    · intro rc u hhandled _ id hid hmem
      obtain ⟨earlier, hsuffix, hearlier⟩ := hreleased id hid hmem
      exact ⟨earlier, hsuffix.trans hhandled.suffix, hearlier⟩
    · exact fun _ _ _ => trivial

theorem afterRead_pubrel (packetType : ℤ) (timer : τ) :
    wp (do
      let outcome ← (variant p fuel).handlePacket packetType timer
      let rc ← (variant p fuel).checkKeepalive outcome
      if rc = success then pure packetType
      else
        (variant p fuel).closeIfConnected
        pure rc)
      (fun rc t => packetType = MsgType.pubrel.code → 0 ≤ rc → ∀ id,
        acknowledgedId s.client.readbuf = some id → id ∈ held s.own.incomingQoS2messages →
        ReleasedSince s t id) (fun _ _ => True) s := by
  by_cases htype : packetType = MsgType.pubrel.code
  · subst htype
    apply wp_imp (afterRead_released timer)
    exact fun _ _ h _ => h
  · apply wp_mono (wp_true _)
    · exact fun _ _ _ h => absurd h htype
    · exact fun _ _ _ => trivial

theorem cycle_cycled (timer : τ) : wp (cycle p fuel timer)
    (fun rc t => ∃ packetType log, Cycled s packetType log rc t) (fun _ t => Did s t) s := by
  have hdid : wp (cycle p fuel timer) (fun _ t => Did s t) (fun _ t => Did s t) s :=
    cycle_did timer s
  have hcycled : wp (cycle p fuel timer) (fun rc t => ∃ packetType log,
      t.own.history = log ++ .received packetType t.client.readbuf :: s.own.history ∧
      (∀ o ∈ log, o.Working) ∧ (rc = packetType ∨ rc = failure) ∧ (Plain packetType →
        rc = packetType ∨ ∃ rc' pinged, rc' ≠ success ∧ .keptAlive rc' pinged ∈ log) ∧
      (packetType = MsgType.pubrel.code → 0 ≤ rc → ∀ id,
        acknowledgedId t.client.readbuf = some id → id ∈ held s.own.incomingQoS2messages →
        .released id ∈ log))
      (fun _ _ => True) s := by
    unfold cycle Variant.cycle
    rw [wp_bind]
    apply wp_mono (readPacket_received timer)
    · rintro packetType _ ⟨u, hsame, rfl⟩
      apply wp_mono (wp_and (variant_handled.afterRead packetType timer _)
        (wp_and (afterRead_result packetType timer) (afterRead_pubrel packetType timer)))
      · rintro rc t ⟨hhandled, ⟨hresult, hplain⟩, hpubrel⟩
        obtain ⟨log, hlog, hworking⟩ := hhandled.history
        refine ⟨packetType, log, ?_, hworking, hresult, fun h => (hplain h).imp_right fun hfailed =>
          hfailed.mem hlog, fun htype hrc id hid hmem => ?_⟩
        · rw [hlog, hhandled.readbuf, noted, ← hsame.history]
        · rw [hhandled.readbuf] at hid
          rw [← hsame.slots] at hmem
          exact (hpubrel htype hrc id hid hmem).mem hlog
      · exact fun _ _ _ => trivial
    · exact fun _ _ _ => trivial
  apply wp_mono (wp_and hdid hcycled)
  · rintro rc t ⟨hdid, packetType, log, hhistory, hworking, hresult, hplain, hpubrel⟩
    exact ⟨packetType, log, hdid, hhistory, hworking, hresult, hplain, hpubrel⟩
  · exact fun _ _ h => h.1

/-- How `waitfor` ends: when the time is up, after a cycle that fails or returns the
awaited type, or later than a cycle that does neither. -/
inductive Waited (packetType : MsgType) : Client ω τ H → ℤ → Client ω τ H → Prop
  | expired {s t : Client ω τ H} {rc : ℤ} : Same s t → rc ≠ packetType.code →
      Waited packetType s rc t
  | last {s t : Client ω τ H} {rc packetType' : ℤ} {log : List Occurrence} :
      Cycled s packetType' log rc t → rc = packetType.code ∨ rc < 0 → Waited packetType s rc t
  | more {s t u : Client ω τ H} {rc rc' packetType' : ℤ} {log : List Occurrence} :
      Cycled s packetType' log rc t → rc ≠ packetType.code → 0 ≤ rc →
      Waited packetType t rc' u → Waited packetType s rc' u

theorem Cycled.after (hsame : Same s t) (h : Cycled t packetType log rc u) :
    Cycled s packetType log rc u where
  did := hsame.did.trans h.did
  history := by rw [h.history, hsame.history]
  working := h.working
  result := h.result
  plain := h.plain
  pubrel := fun htype hrc id hid hmem => h.pubrel htype hrc id hid (hsame.slots ▸ hmem)

theorem waitforLoop_waited (packetType : MsgType) (timer : τ) : ∀ {rounds : ℕ} {rc : ℤ}
    {s : Client ω τ H}, rc ≠ packetType.code →
    wp ((variant p fuel).waitforLoop p packetType timer rounds rc)
      (fun rc t => Waited packetType s rc t) (fun _ t => Did s t) s
  | 0, _, _, _ => .refl
  | rounds + 1, rc, s, hrc => by
    rw [Variant.waitforLoop, wp_bind, wp_ask, wp_ite, wp_pure, wp_bind]
    have hasked : Same s { s with world := (p.timerIsExpired timer s.world).2 } :=
      ⟨rfl, rfl, id, rfl⟩
    refine ⟨fun _ => .expired hasked hrc, fun _ => ?_⟩
    apply wp_mono (cycle_cycled timer)
    · rintro rc' t ⟨packetType', log, hcycled⟩
      have hcycled := hcycled.after hasked
      rw [wp_ite, wp_pure]
      constructor
      · rintro ⟨hne, hle⟩
        apply wp_mono (waitforLoop_waited packetType timer hne)
        · exact fun _ _ hwaited => .more hcycled hne hle hwaited
        · exact fun _ _ hdid => hcycled.did.trans hdid
      · intro hdone
        refine .last hcycled ?_
        by_contra hnot
        rw [not_or, not_lt] at hnot
        exact hdone hnot
    · exact fun _ _ hdid => hasked.did.trans hdid

theorem code_ne_failure (packetType : MsgType) : failure ≠ packetType.code := by
  have hcode : (0 : ℤ) < packetType.code := by exact_mod_cast packetType.code_pos
  unfold failure
  omega

theorem waitfor_waited (packetType : MsgType) (timer : τ) : wp (waitfor p fuel packetType timer)
    (fun rc t => Waited packetType s rc t) (fun _ t => Did s t) s :=
  waitforLoop_waited packetType timer (code_ne_failure packetType)

theorem Cycled.released_of_mem {id : UInt16} {o : Occurrence}
    (h : Cycled s packetType log rc t) (hrc : 0 ≤ rc)
    (hid : id ∈ held s.own.incomingQoS2messages)
    (ho : o ∈ log ++ [.received packetType t.client.readbuf]) (hack : o.Acknowledges .pubrel id) :
    .released id ∈ log := by
  obtain ⟨readbuf, rfl, hreadbuf⟩ := hack
  rcases List.mem_append.mp ho with ho | ho
  · exact (h.working _ ho).elim
  · obtain ⟨htype, rfl⟩ := Occurrence.received.inj (List.mem_singleton.mp ho)
    exact h.pubrel htype.symm hrc id hreadbuf hid

namespace Waited

theorem did {packetType : MsgType} (h : Waited packetType s rc t) : Did s t := by
  induction h with
  | expired hsame _ => exact hsame.did
  | last hcycled _ => exact hcycled.did
  | more hcycled _ _ _ ih => exact hcycled.did.trans ih

theorem received {packetType : MsgType} (h : Waited packetType s rc t)
    (hrc : rc = packetType.code) : ∃ log, t.own.history = log ++ s.own.history ∧
      .received packetType.code t.client.readbuf ∈ log := by
  induction h with
  | expired _ hne => exact absurd hrc hne
  | @last _ _ _ _ log hcycled _ =>
    have htype := hcycled.result.resolve_right fun h =>
      code_ne_failure packetType (h.symm.trans hrc)
    refine ⟨_, hcycled.history.trans (List.append_cons log _ _), ?_⟩
    rw [← htype, hrc]
    simp
  | @more _ _ _ _ _ _ log' hcycled _ _ _ ih =>
    obtain ⟨log, hlog, hmem⟩ := ih hrc
    have hboth := hlog.trans
      (congrArg (log ++ ·) (hcycled.history.trans (List.append_cons log' _ _)))
    rw [← List.append_assoc] at hboth
    exact ⟨_, hboth, List.mem_append_left _ hmem⟩

/-- While the client waits, a PUBREL that comes in releases its identifier. -/
theorem released {packetType : MsgType} {id : UInt16} (h : Waited packetType s rc t)
    (haccount : Account s) (hid : id ∈ held s.own.incomingQoS2messages) (hrc : 0 ≤ rc) :
    ∃ log, t.own.history = log ++ s.own.history ∧
      ((∃ o ∈ log, o.Acknowledges .pubrel id) → .released id ∈ log) := by
  induction h with
  | expired hsame _ => exact ⟨[], hsame.history, fun ⟨_, ho, _⟩ => absurd ho List.not_mem_nil⟩
  | @last s t rc packetType' log hcycled _ =>
    refine ⟨_, hcycled.history.trans (List.append_cons log _ _), ?_⟩
    rintro ⟨o, ho, hack⟩
    exact List.mem_append_left _ (hcycled.released_of_mem hrc hid ho hack)
  | @more s t u rc rc' packetType' log hcycled _ hle hwaited ih =>
    have hfirst := hcycled.history.trans (List.append_cons log _ _)
    have hafter : Account t := haccount.steps hcycled.did.steps
    have hmem : id ∈ outstanding s.own.history := haccount.held.mem_iff.mpr hid
    rcases outstanding_append hmem (log ++ [.received packetType' t.client.readbuf]) with
      hreleased | hheld
    · obtain ⟨log', hlater, -⟩ := hwaited.did.routine
      refine ⟨log' ++ (log ++ [.received packetType' t.client.readbuf]), ?_, fun _ => ?_⟩
      · rw [hlater, hfirst, List.append_assoc log']
      · exact List.mem_append_right _ hreleased
    · rw [← hfirst, hafter.held.mem_iff] at hheld
      obtain ⟨log', hlater, hreleased⟩ := ih hafter hheld hrc
      refine ⟨log' ++ (log ++ [.received packetType' t.client.readbuf]), ?_, ?_⟩
      · rw [hlater, hfirst, List.append_assoc log']
      · rintro ⟨o, ho, hack⟩
        rcases List.mem_append.mp ho with ho | ho
        · exact List.mem_append_left _ (hreleased ⟨o, ho, hack⟩)
        · have hmem' := hcycled.released_of_mem hle hid ho hack
          exact List.mem_append_right _ (List.mem_append_left _ hmem')

end Waited

end MqttEmbedded.ClientCpp
