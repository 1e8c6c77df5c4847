import MqttEmbedded.Client.Course
import MqttEmbedded.Packet.FirstByte
import MqttEmbedded.ClientCpp.Operations

/-!
# What the C++ client does

Between two entries of the history the client changes nothing that outlives a packet.
A deed is one entry with what goes with it, and `cycle` is made of deeds.
-/

namespace MqttEmbedded.ClientCpp

open Region Hoare

variable {ω τ H : Type} {p : Platform ω τ H} {fuel : ℕ} {timer : τ} {s t u : Client ω τ H}

/-- The same but for buffers, timers, handlers, the ping and the identifier. -/
structure Same (s t : Client ω τ H) : Prop where
  isconnected : t.client.isconnected = s.client.isconnected
  cleansession : t.client.cleansession = s.client.cleansession
  nextPacketid : s.client.nextPacketid ≤ maxPacketId → t.client.nextPacketid ≤ maxPacketId
  own : t.own = { s.own with pingSent := t.own.pingSent }

namespace Same

theorem refl (s : Client ω τ H) : Same s s := ⟨rfl, rfl, id, rfl⟩

theorem trans (h : Same s t) (h' : Same t u) : Same s u := by
  refine ⟨h'.isconnected.trans h.isconnected, h'.cleansession.trans h.cleansession,
    fun hs => h'.nextPacketid (h.nextPacketid hs), ?_⟩
  rw [h'.own, h.own]

theorem history (h : Same s t) : t.own.history = s.own.history := by rw [h.own]

theorem slots (h : Same s t) : t.own.incomingQoS2messages = s.own.incomingQoS2messages := by
  rw [h.own]

instance : Std.Refl (Same : Client ω τ H → _ → Prop) := ⟨refl⟩

instance : IsTrans (Client ω τ H) Same := ⟨fun _ _ _ => trans⟩

theorem ask {α : Type} (f : ω → α × ω) :
    Moves Same (MqttEmbedded.ask f : Prog (Client ω τ H) α) := fun _ => ⟨rfl, rfl, id, rfl⟩

theorem outward (p : Platform ω τ H) : p.Outward (Same : Client ω τ H → _ → Prop) :=
  outward_of_world p fun _ _ => ⟨rfl, rfl, id, rfl⟩

theorem inward (p : Platform ω τ H) : p.Inward (Same : Client ω τ H → _ → Prop) :=
  inward_of_world p (fun _ _ => ⟨rfl, rfl, id, rfl⟩) (fun _ _ => ⟨rfl, rfl, id, rfl⟩)
    fun _ _ => ⟨rfl, rfl, id, rfl⟩

end Same

def noted (s : Client ω τ H) (o : Occurrence) : Client ω τ H :=
  { s with own := { s.own with history := o :: s.own.history } }

/-- The session is closed, and forgotten if it was a clean one. -/
def closed (s : Client ω τ H) : Client ω τ H :=
  if s.client.cleansession then
    { s with
      client := { s.client with
        pingOutstanding := false
        isconnected := false
        messageHandlers := clearHandlers s.client.messageHandlers }
      own := { s.own with
        inflightMsgid := 0
        inflightQoS := 0
        pubrel := false
        incomingQoS2messages := s.own.incomingQoS2messages.map fun _ => 0
        history := (held s.own.incomingQoS2messages).map .released ++ s.own.history } }
  else { s with client := { s.client with pingOutstanding := false, isconnected := false } }

@[simp] theorem wp_closeSession {Q : PUnit → Client ω τ H → Prop}
    {E : Fault → Client ω τ H → Prop} : wp closeSession Q E s ↔ Q ⟨⟩ (closed s) := by
  unfold closeSession cleanSession closed
  simp only [wp_bind, wp_modifyClient, wp_getClient, wp_ite, wp_modifyOwn, wp_pure]
  split_ifs with hclean
  · simp only [hclean, forall_const, not_true_eq_false, false_implies, and_true]
  · simp only [hclean, Bool.false_eq_true, false_implies, not_false_eq_true, forall_const, true_and]

def freed (s : Client ω τ H) (id : UInt16) : Client ω τ H :=
  { s with own := { s.own with
      incomingQoS2messages := freeQoS2msgid s.own.incomingQoS2messages id
      history := if id ∈ held s.own.incomingQoS2messages then .released id :: s.own.history
        else s.own.history } }

@[simp] theorem wp_note {Q : PUnit → Client ω τ H → Prop} {E : Fault → Client ω τ H → Prop}
    (o : Occurrence) : wp (note o) Q E s ↔ Q ⟨⟩ (noted s o) := Iff.rfl

/-- The identifier of a QoS 2 PUBLISH. -/
def publishedId (readbuf : List UInt8) : Option UInt16 := do
  match ← mqttDeserializePublish readbuf with
  | (rc, .whole fields) =>
    if rc = 1 ∧ fields.qos = 2 then fields.packetid.map UInt16.ofNat else none
  | _ => none

/-- The identifier of an acknowledgement. -/
def acknowledgedId (readbuf : List UInt8) : Option UInt16 := do
  let (rc, fields) ← mqttDeserializeAck readbuf
  if rc = 1 then fields.packetid.map UInt16.ofNat else none

namespace Occurrence

/-- A QoS 2 PUBLISH with this identifier is received. -/
def Brings (id : UInt16) (o : Occurrence) : Prop :=
  ∃ readbuf, o = .received MsgType.publish.code readbuf ∧ publishedId readbuf = some id

/-- An acknowledgement of this type with this identifier is received. -/
def Acknowledges (packetType : MsgType) (id : UInt16) (o : Occurrence) : Prop :=
  ∃ readbuf, o = .received packetType.code readbuf ∧ acknowledgedId readbuf = some id

end Occurrence

/-- What is sent in the course of `cycle`, and after what. -/
inductive Reply (slots : List UInt16) (history : List Occurrence) : List UInt8 → Prop
  | puback (id : UInt16) : Reply slots history (ackBytes .puback id)
  /-- The message has been delivered, or there was no slot for its identifier. -/
  | pubrec {id : UInt16} : (∃ o ∈ history, o.Brings id) →
      (id ∈ slots ∨ 0 ∉ slots ∧ ∃ o earlier, history = o :: earlier ∧ o.Brings id) →
      Reply slots history (ackBytes .pubrec id)
  | pubrel {id : UInt16} {o : Occurrence} {earlier : List Occurrence} :
      history = o :: earlier → o.Acknowledges .pubrec id → Reply slots history (ackBytes .pubrel id)
  | pubcomp (id : UInt16) : Reply slots history (ackBytes .pubcomp id)
  | pingreq (bytes : List UInt8) :
      Reply slots history (MQTTHeader.ofBits MsgType.pingreq.code 0 0 0 :: bytes)

inductive Deed (s : Client ω τ H) : Client ω τ H → Prop
  | still {t : Client ω τ H} : Same s t → Deed s t
  | received (packetType : ℤ) (readbuf : List UInt8) :
      Deed s (noted s (.received packetType readbuf))
  | delivered {qos : ℕ} (id : Option UInt16) : qos ≠ 2 → Deed s (noted s (.delivered qos id))
  | taken {id : UInt16} {slots : List UInt16} :
      isQoS2msgidFree s.own.incomingQoS2messages id = true →
      useQoS2msgid s.own.incomingQoS2messages id = some slots →
      Deed s (noted { s with own := { s.own with incomingQoS2messages := slots } }
        (.delivered 2 (some id)))
  | freed (id : UInt16) : Deed s (freed s id)
  | sent {packet : List UInt8} (rc : ℤ) :
      Reply s.own.incomingQoS2messages s.own.history packet → Deed s (noted s (.sent packet rc))
  | keptAlive (rc : ℤ) (pinged : Bool) : Deed s (noted s (.keptAlive rc pinged))
  | closed : s.client.isconnected = true → Deed s (closed s)

def Did : Client ω τ H → Client ω τ H → Prop := Relation.ReflTransGen Deed

instance : Std.Refl (Did : Client ω τ H → _ → Prop) :=
  inferInstanceAs (Std.Refl (Relation.ReflTransGen _))

instance : IsTrans (Client ω τ H) Did := inferInstanceAs (IsTrans _ (Relation.ReflTransGen _))

theorem Same.did (h : Same s t) : Did s t := .single (.still h)

section

variable {R : Client ω τ H → Client ω τ H → Prop} [Std.Refl R] [IsTrans (Client ω τ H) R]
  (discreet : p.Discreet R)
include discreet

theorem sendLoop_moves (fuel length : ℕ) (timer : τ) (sent : ℕ) :
    Moves R (sendLoop p length timer fuel sent : Prog (Client ω τ H) ℕ) := by
  induction fuel generalizing sent with
  | zero => exact .throw _
  | succ fuel ih =>
    refine .ite (.bind (discreet.timerLeftMS timer) fun left => ?_) (.pure _)
    refine .bind getClient_moves fun c => ?_
    refine .bind (discreet.mqttwrite _ (length - sent) left) fun rc => .ite (.pure _) ?_
    refine .bind (discreet.timerIsExpired timer) fun expired => ?_
    exact .ite (.pure _) (ih _)

theorem keepaliveDue_moves : Moves R (keepaliveDue p : Prog (Client ω τ H) Bool) := by
  refine .bind getClient_moves fun c => .bind (discreet.timerIsExpired c.lastSent) fun expired => ?_
  exact .ite (.pure _) (discreet.timerIsExpired c.lastReceived)

theorem transmit_moves
    (hlastSent : ∀ s lastSent, R s { s with client := { s.client with lastSent := lastSent } })
    (length : ℕ) (timer : τ) :
    Moves R (transmit p fuel length timer : Prog (Client ω τ H) ℤ) := by
  have hrecord : Moves R (recordSent p : Prog (Client ω τ H) PUnit) := by
    refine .bind getClient_moves fun c => .ite ?_ (.pure _)
    refine .bind (discreet.timerCountdown c.lastSent c.keepAliveInterval) fun lastSent => ?_
    exact fun s => hlastSent s lastSent
  refine .bind (sendLoop_moves discreet fuel length timer 0) fun sent => .ite ?_ (.pure _)
  exact .bind hrecord fun _ => .pure _

end

theorem transmit_same (length : ℕ) (timer : τ) :
    Moves Same (transmit p fuel length timer : Prog (Client ω τ H) ℤ) :=
  transmit_moves (Same.outward p).toDiscreet (fun _ _ => ⟨rfl, rfl, id, rfl⟩) length timer

/-- What is in the send buffer is sent, and nothing else is done. -/
theorem sendPacket_sent (length : ℕ) (timer : τ) :
    wp (sendPacket p fuel length timer) (fun rc t => ∃ u, Same s u ∧
      t = noted u (.sent (s.client.buf.take length) rc)) (fun _ t => Same s t) s := by
  unfold sendPacket
  rw [wp_bind, wp_getClient, wp_bind]
  apply wp_imp (transmit_same length timer s)
  intro rc u hsame
  exact ⟨u, hsame, rfl⟩

theorem sendPacket_did {length : ℕ}
    (h : Reply s.own.incomingQoS2messages s.own.history (s.client.buf.take length)) :
    wp (sendPacket p fuel length timer) (fun _ t => Did s t) (fun _ t => Did s t) s := by
  apply wp_mono (sendPacket_sent length timer)
  · rintro rc _ ⟨u, hsame, rfl⟩
    rw [← hsame.history, ← hsame.slots] at h
    exact (hsame.did).tail (.sent rc h)
  · exact fun _ _ hsame => hsame.did

theorem sendAck_did {packettype : MsgType} {id : UInt16}
    (h : Reply s.own.incomingQoS2messages s.own.history (ackBytes packettype id)) :
    wp ((variant p fuel).sendAck packettype id timer) (fun _ t => Did s t) (fun _ t => Did s t)
      s := by
  rw [Variant.wp_sendAck]
  constructor
  · intro _
    have hbuf : Same s { s with
        client := { s.client with buf := overwrite s.client.buf 0 (ackBytes packettype id) } } :=
      ⟨rfl, rfl, fun h => h, rfl⟩
    have htake := take_overwrite_zero s.client.buf (ackBytes packettype id)
    rw [length_ackBytes] at htake
    rw [← htake] at h
    apply wp_mono (sendPacket_did h)
    · exact fun _ _ hdid => hbuf.did.trans hdid
    · exact fun _ _ hdid => hbuf.did.trans hdid
  · exact fun _ => .refl

theorem deliverMessage_same (topicName : MQTTString) (msg : MQTTMessage) :
    Moves Same (deliverMessage p topicName msg : Prog (Client ω τ H) ℤ) :=
  deliverMessage_moves (Same.outward p) topicName msg

/-- Afterwards the message has its identifier among those held, unless there was no slot. -/
theorem deliver_did (topicName : MQTTString) (msg : MQTTMessage) :
    wp (deliver p topicName msg) (fun _ t => Did s t ∧ ∀ id, msg.id = some id → msg.qos = 2 →
      (∃ earlier, t.own.history = earlier ++ s.own.history) ∧
      (id ∈ t.own.incomingQoS2messages ∨
        0 ∉ t.own.incomingQoS2messages ∧ t.own.history = s.own.history))
      (fun _ t => Did s t) s := by
  unfold deliver
  rw [wp_ite]
  constructor
  · intro hqos
    simp only [wp_bind, wp_note]
    have hdid : Did s (noted s (.delivered msg.qos msg.id)) := .single (.delivered msg.id hqos)
    apply wp_mono (deliverMessage_same topicName msg _)
    · exact fun _ t hsame => ⟨hdid.trans hsame.did, fun _ _ hqos' => absurd hqos' hqos⟩
    · exact fun _ t hsame => hdid.trans hsame.did
  · intro hqos
    rw [wp_bind]
    cases hid : msg.id with
    | none => exact .refl
    | some id =>
      rw [ofOption_some, wp_pure, wp_bind, wp_getOwn, wp_ite]
      constructor
      · intro hfree
        cases huse : useQoS2msgid s.own.incomingQoS2messages id with
        | none =>
          refine ⟨.refl, fun id' hid' _ => ⟨⟨[], rfl⟩, .inr ⟨?_, rfl⟩⟩⟩
          rw [useQoS2msgid_eq] at huse
          exact VacantSlots.claim_eq_none.mp huse
        | some slots =>
          simp only [wp_bind, wp_modifyOwn, wp_note]
          have hqos' : msg.qos = 2 := not_not.mp hqos
          rw [hqos']
          have hdid : Did s _ := .single (.taken hfree huse)
          apply wp_mono (deliverMessage_same topicName msg _)
          · intro _ t hsame
            refine ⟨hdid.trans hsame.did, fun id' hid' _ => ?_⟩
            refine ⟨⟨[.delivered 2 (some id)], ?_⟩, .inl ?_⟩
            · exact hsame.history
            · rw [hsame.slots, ← Option.some.inj hid']
              rw [useQoS2msgid_eq] at huse
              exact VacantSlots.mem_of_claim huse
          · exact fun _ t hsame => hdid.trans hsame.did
      · intro hfree
        refine ⟨.refl, fun id' hid' _ => ⟨⟨[], rfl⟩, .inl ?_⟩⟩
        rw [← Option.some.inj hid']
        exact not_not.mp fun h => hfree (isQoS2msgidFree_iff.mpr h)

theorem deliverUnread_did (topic : StringRead) (msg : MQTTMessage) :
    Moves Did (deliverUnread p topic msg : Prog (Client ω τ H) PUnit) := by
  refine .bind getClient_moves fun c => .ite (.throw _) fun s => ?_
  exact wp_imp (deliver_did (topic.stored mqttStringInitializer) msg) fun _ _ h => h.1

/-- A message with an identifier is one that has been read whole. -/
theorem handOver_did (stored : PublishStored) :
    wp ((variant p fuel).handOver stored) (fun msg t => Did s t ∧ ∀ id, msg.id = some id →
      msg.qos = 2 → (∃ fields, stored = .whole fields ∧ msg = fields.message) ∧
      (∃ earlier, t.own.history = earlier ++ s.own.history) ∧
      (id ∈ t.own.incomingQoS2messages ∨
        0 ∉ t.own.incomingQoS2messages ∧ t.own.history = s.own.history))
      (fun _ t => Did s t) s := by
  cases stored with
  | nothing => exact .refl
  | headerOnly dup qos retained topicName =>
    rw [Variant.handOver, wp_bind]
    apply wp_imp (deliverUnread_did topicName (headerMessage dup qos retained) s)
    intro _ t hdid
    refine ⟨hdid, fun id hid => ?_⟩
    cases hid
  | whole fields =>
    rw [Variant.handOver, wp_bind]
    apply wp_imp (deliver_did fields.topicName fields.message)
    rintro _ t ⟨hdid, hheld⟩
    exact ⟨hdid, fun id hid hqos => ⟨⟨fields, rfl, rfl⟩, hheld id hid hqos⟩⟩

theorem acknowledge_did {msg : MQTTMessage} (h : ∀ id, msg.id = some id → msg.qos = 2 →
      (∃ o ∈ s.own.history, o.Brings id) ∧ (id ∈ s.own.incomingQoS2messages ∨
        0 ∉ s.own.incomingQoS2messages ∧ ∃ o earlier, s.own.history = o :: earlier ∧ o.Brings id)) :
    wp ((variant p fuel).acknowledge msg timer) (fun _ t => Did s t) (fun _ t => Did s t) s := by
  unfold Variant.acknowledge
  rw [wp_ite, wp_bind, wp_ite, wp_bind, wp_pure]
  refine ⟨fun _ => ?_, fun _ => ⟨fun hqos => ?_, fun _ => .refl⟩⟩
  · exact wp_ofOption_iff.mpr ⟨fun id _ => sendAck_did (.puback id), fun _ => .refl⟩
  · refine wp_ofOption_iff.mpr ⟨fun id hid => ?_, fun _ => .refl⟩
    obtain ⟨hbrings, hheld⟩ := h id hid hqos
    exact sendAck_did (.pubrec hbrings hheld)

theorem publishedId_eq {readbuf : List UInt8} {result : ℤ × PublishStored}
    {fields : PublishFields} {id : UInt16} (hresult : mqttDeserializePublish readbuf = some result)
    (hrc : result.1 = 1) (hfields : result.2 = .whole fields) (hid : fields.message.id = some id)
    (hqos : fields.message.qos = 2) : publishedId readbuf = some id := by
  obtain ⟨rc, _⟩ := result
  subst hfields
  subst hrc
  change fields.packetid.map UInt16.ofNat = some id at hid
  change fields.qos = 2 at hqos
  simp [publishedId, hresult, hqos, hid]

theorem casePublish_did {earlier : List Occurrence}
    (h : s.own.history = .received MsgType.publish.code s.client.readbuf :: earlier) :
    wp ((variant p fuel).casePublish timer) (fun _ t => Did s t) (fun _ t => Did s t) s := by
  unfold Variant.casePublish
  rw [wp_bind, wp_getClient, wp_bind]
  refine wp_ofOption_iff.mpr ⟨fun result hresult => ?_, fun _ => .refl⟩
  rw [wp_ite, wp_pure, wp_bind]
  refine ⟨fun _ => .refl, fun hrc => ?_⟩
  apply wp_imp (handOver_did result.2)
  rintro msg t ⟨hdid, hheld⟩
  rw [wp_ite, wp_bind, wp_pure]
  refine ⟨fun _ => ?_, fun _ => hdid⟩
  have hacknowledge : wp ((variant p fuel).acknowledge msg timer)
      (fun _ u => Did t u) (fun _ u => Did t u) t := by
    refine acknowledge_did fun id hid hqos => ?_
    obtain ⟨⟨fields, hfields, rfl⟩, ⟨later, hlater⟩, hslot⟩ := hheld id hid hqos
    have hbrings : (Occurrence.received MsgType.publish.code s.client.readbuf).Brings id :=
      ⟨_, rfl, publishedId_eq hresult (not_not.mp hrc) hfields hid hqos⟩
    refine ⟨⟨_, ?_, hbrings⟩, hslot.imp_right ?_⟩
    · rw [hlater, h]
      exact List.mem_append_right _ List.mem_cons_self
    · rintro ⟨hfull, hsame⟩
      refine ⟨hfull, _, earlier, ?_, hbrings⟩
      rw [hsame, h]
  apply wp_mono hacknowledge
  · exact fun _ _ hdid' => hdid.trans hdid'
  · exact fun _ _ hdid' => hdid.trans hdid'

theorem caseAck_did {packetType : MsgType} (htype : packetType = .pubrec ∨ packetType = .pubrel)
    {earlier : List Occurrence}
    (h : s.own.history = .received packetType.code s.client.readbuf :: earlier) :
    wp ((variant p fuel).caseAck packetType timer) (fun _ t => Did s t) (fun _ t => Did s t)
      s := by
  unfold Variant.caseAck
  rw [wp_bind, wp_getClient, wp_bind]
  refine wp_ofOption_iff.mpr ⟨fun result hresult => ?_, fun _ => .refl⟩
  rw [wp_ite, wp_pure, wp_bind]
  refine ⟨fun _ => .refl, fun hrc => wp_ofOption_iff.mpr ⟨fun id hid => ?_, fun _ => .refl⟩⟩
  rw [wp_bind]
  have hack : wp ((variant p fuel).sendAck (if packetType = .pubrec then .pubrel else .pubcomp)
      (UInt16.ofNat id) timer) (fun _ t => Did s t) (fun _ t => Did s t) s := by
    rcases htype with rfl | rfl
    · refine sendAck_did (.pubrel h ⟨_, rfl, ?_⟩)
      obtain ⟨rc, fields⟩ := result
      simp only [ne_eq, not_not] at hrc
      change fields.packetid = some id at hid
      simp [acknowledgedId, hresult, hrc, hid]
    · exact sendAck_did (.pubcomp _)
  apply wp_imp hack
  intro rc t hdid
  rw [wp_ite, wp_pure, wp_bind]
  refine ⟨fun _ => hdid, fun _ => ?_⟩
  change wp (answered packetType (UInt16.ofNat id)) _ _ t
  unfold answered
  rw [wp_ite, wp_modifyOwn, wp_pure]
  exact ⟨fun _ => hdid.tail (.freed _), fun _ => hdid⟩

/-- A packet that has just been received is handled by deeds. -/
theorem handlePacket_did {packetType : ℤ} {earlier : List Occurrence}
    (h : s.own.history = .received packetType s.client.readbuf :: earlier) :
    wp ((variant p fuel).handlePacket packetType timer) (fun _ t => Did s t) (fun _ t => Did s t)
      s := by
  by_cases hcase : HasCase packetType
  · rcases hcase with rfl | ⟨type, hmem, rfl⟩
    · exact .refl
    · have hcode := type.code_pos
      rw [Variant.handlePacket, if_neg (by omega), MsgType.ofCode_code]
      simp only [List.mem_cons, List.not_mem_nil, or_false] at hmem
      rcases hmem with rfl | rfl | rfl | rfl | rfl | rfl | rfl | rfl | rfl
      · exact .refl
      · exact casePublish_did h
      · exact .refl
      · exact caseAck_did (.inl rfl) h
      · exact caseAck_did (.inr rfl) h
      · exact .refl
      · exact .refl
      · exact .refl
      · exact Same.did ⟨rfl, rfl, id, rfl⟩
  · rw [Variant.handlePacket_unknown hcase]
    exact .refl

theorem serialize_beginsWith {header : UInt8} {f : List UInt8 → Option (ℤ × List UInt8)}
    (h : BeginsWith header f) :
    wp (serialize f) (fun len t => Same s t ∧
      (0 < len → ∃ bytes, t.client.buf.take len.toNat = header :: bytes ∧
        (header :: bytes).length = len.toNat))
      (fun _ t => Same s t) s := by
  rw [wp_serialize]
  cases hresult : f s.client.buf with
  | none => exact .refl s
  | some result => exact ⟨⟨rfl, rfl, id, rfl⟩, h _ _ _ hresult⟩

theorem sendPing_did : wp (sendPing p fuel) (fun _ t => Did s t) (fun _ t => Did s t) s := by
  unfold sendPing
  rw [wp_bind]
  apply wp_mono (newTimer_moves (Same.outward p).toDiscreet 1000 s)
  · intro timer t hst
    rw [wp_bind]
    apply wp_mono (serialize_beginsWith (mqttSerializeZero_beginsWith MsgType.pingreq.code))
    · rintro len u ⟨htu, hpacket⟩
      have hsu := (hst.trans htu).did
      rw [wp_ite, wp_pure, wp_bind]
      refine ⟨fun _ => hsu, fun hlen => ?_⟩
      obtain ⟨bytes, hbytes, -⟩ := hpacket (by omega)
      have hreply : Reply u.own.incomingQoS2messages u.own.history _ := .pingreq bytes
      rw [← hbytes] at hreply
      apply wp_mono (sendPacket_did hreply)
      · intro rc v huv
        rw [wp_ite, wp_bind, wp_modifyClient, wp_bind, wp_getClient, wp_bind, wp_getOwn, wp_bind,
          wp_ask, wp_bind, wp_modifyOwn, wp_pure]
        refine ⟨fun _ => (hsu.trans huv).trans ?_, fun _ => hsu.trans huv⟩
        exact Same.did ⟨rfl, rfl, id, rfl⟩
      · exact fun _ _ huv => hsu.trans huv
    · exact fun _ u htu => (hst.trans htu).did
  · exact fun _ t hst => hst.did

theorem checkPing_did : wp (checkPing p fuel) (fun _ t => Did s t) (fun _ t => Did s t) s := by
  unfold checkPing
  rw [wp_bind, wp_getClient, wp_ite, wp_bind, wp_getOwn, wp_bind, wp_ask, wp_bind]
  refine ⟨fun _ => Same.did ⟨rfl, rfl, id, rfl⟩, fun _ => ?_⟩
  apply wp_mono (keepaliveDue_moves (Same.outward p).toDiscreet s)
  · intro due t hst
    rw [wp_ite, wp_pure]
    refine ⟨fun _ => ?_, fun _ => hst.did⟩
    apply wp_mono sendPing_did
    · exact fun _ _ htu => hst.did.trans htu
    · exact fun _ _ htu => hst.did.trans htu
  · exact fun _ t hst => hst.did

theorem keepalive_did : Moves Did (keepalive p fuel : Prog (Client ω τ H) ℤ) := by
  refine .bind getClient_moves fun before => .bind ?_ fun rc => .bind getClient_moves fun after =>
    .bind (fun s => ?_) fun _ => .pure _
  · exact .bind getClient_moves fun c => .ite (.pure _) fun s => checkPing_did
  · exact .single (.keptAlive _ _)

theorem closeIfConnected_did :
    Moves Did ((variant p fuel).closeIfConnected : Prog (Client ω τ H) PUnit) := by
  intro s
  unfold Variant.closeIfConnected
  rw [wp_bind, wp_getClient, wp_ite, wp_pure]
  exact ⟨fun hopen => wp_closeSession.mpr (.single (.closed hopen)), fun _ => .refl⟩

theorem readPacket_received (timer : τ) : wp (readPacket p timer)
    (fun packetType t => ∃ u, Same s u ∧ t = noted u (.received packetType u.client.readbuf))
    (fun _ t => Same s t) s := by
  unfold readPacket
  rw [wp_bind]
  apply wp_imp (readPacketWith_moves (Same.inward p) tooLong 1 timer s)
  exact fun packetType u hsame => ⟨u, hsame, rfl⟩

theorem cycle_did (timer : τ) : Moves Did (cycle p fuel timer : Prog (Client ω τ H) ℤ) := by
  intro s
  unfold cycle Variant.cycle
  rw [wp_bind]
  apply wp_mono (readPacket_received timer)
  · rintro packetType _ ⟨u, hsame, rfl⟩
    have hreceived : Did s (noted u (.received packetType u.client.readbuf)) :=
      hsame.did.tail (.received _ _)
    rw [wp_bind]
    apply wp_mono (handlePacket_did rfl)
    · intro outcome t hdid
      have hrest : Moves Did (do
          let rc ← (variant p fuel).checkKeepalive outcome
          if rc = success then pure packetType
          else
            (variant p fuel).closeIfConnected
            pure rc) :=
        .bind (.ite (.pure _) (.bind keepalive_did fun _ => .pure _)) fun rc =>
          .ite (.pure _) (.bind closeIfConnected_did fun _ => .pure _)
      apply wp_mono (hrest t)
      · exact fun _ _ h => (hreceived.trans hdid).trans h
      · exact fun _ _ h => (hreceived.trans hdid).trans h
    · exact fun _ _ hdid => hreceived.trans hdid
  · exact fun _ _ hsame => hsame.did

theorem waitfor_did (packetType : MsgType) (timer : τ) :
    Moves Did (waitfor p fuel packetType timer : Prog (Client ω τ H) ℤ) :=
  Variant.waitforLoop_moves (fun _ => (Same.ask _ _).did) (cycle_did timer) packetType fuel failure

end MqttEmbedded.ClientCpp
