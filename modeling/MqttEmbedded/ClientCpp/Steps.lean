import MqttEmbedded.ClientCpp.Deeds
import MqttEmbedded.Lib.CyclicCounter

/-!
# The calls of an application on the C++ client

A call is made of the deeds of `cycle` and of steps of its own. A PUBLISH is sent
after the history has said what is being published, or what `connect` sends again.
-/

namespace MqttEmbedded.ClientCpp

open Region Hoare CyclicCounter

variable {ω τ H : Type} {p : Platform ω τ H} {fuel : ℕ} {timer : τ} {s t u : Client ω τ H}

/-- A new message is about to be sent, and kept if the session is not clean. -/
def stored (s : Client ω τ H) (packet : List UInt8) (id : UInt16) (qos : ℕ) : Client ω τ H :=
  if s.client.cleansession then noted s (.publishing id qos packet)
  else noted { s with own := { s.own with
    pubbuf := overwrite s.own.pubbuf 0 packet
    inflightMsgid := id
    inflightLen := packet.length
    inflightQoS := qos
    pubrel := false } } (.publishing id qos packet)

def cleared (s : Client ω τ H) (id : UInt16) : Client ω τ H :=
  { s with own :=
      if s.own.inflightMsgid = id then { s.own with inflightMsgid := 0 } else s.own }

/-- The packet is the one that the history says is to be sent. -/
def Announced (history : List Occurrence) (packet : List UInt8) : Prop :=
  ∃ earlier, (∃ id qos, history = .publishing id qos packet :: earlier) ∨
    history = .resending packet :: earlier

inductive Step (s : Client ω τ H) : Client ω τ H → Prop
  | deed {t : Client ω τ H} : Deed s t → Step s t
  | requested {type : MsgType} {header : UInt8} (bytes : List UInt8) (rc : ℤ) :
      type ∈ [MsgType.connect, .subscribe, .unsubscribe, .disconnect] →
      MQTTHeader.type header = type.code → Step s (noted s (.sent (header :: bytes) rc))
  | stored {header : UInt8} (bytes : List UInt8) (id : UInt16) (qos : ℕ) :
      MQTTHeader.type header = MsgType.publish.code →
      Step s (ClientCpp.stored s (header :: bytes) id qos)
  | resuming : Step s (noted s .resuming)
  | resending {packet : List UInt8} {earlier : List Occurrence} :
      s.own.history = .resuming :: earlier → s.own.inflightMsgid ≠ 0 →
      (packet = s.own.pubbuf.take s.own.inflightLen ∨
        s.own.pubrel = true ∧ packet = ackBytes .pubrel s.own.inflightMsgid) →
      Step s (noted s (.resending packet))
  | transmitted {packet : List UInt8} (rc : ℤ) : Announced s.own.history packet →
      Step s (noted s (.sent packet rc))
  | awaiting (packetType : MsgType) : Step s (noted s (.awaiting packetType))
  | awaited : Step s (noted s .awaited)
  | cleared (id : UInt16) : Step s (ClientCpp.cleared s id)
  | closed : Step s (ClientCpp.closed s)
  | connecting (keepAliveInterval : ℕ) (cleansession : Bool) : s.client.isconnected = false →
      Step s { s with client := { s.client with
        keepAliveInterval := keepAliveInterval
        cleansession := cleansession } }
  | connected : Step s { s with client := { s.client with
      isconnected := true
      pingOutstanding := false } }

def Steps : Client ω τ H → Client ω τ H → Prop := Relation.ReflTransGen Step

instance : Std.Refl (Steps : Client ω τ H → _ → Prop) :=
  inferInstanceAs (Std.Refl (Relation.ReflTransGen _))

instance : IsTrans (Client ω τ H) Steps := inferInstanceAs (IsTrans _ (Relation.ReflTransGen _))

theorem Did.steps (h : Did s t) : Steps s t := h.lift id fun _ _ => .deed

theorem Same.steps (h : Same s t) : Steps s t := h.did.steps

theorem same_steps {α : Type} {x : Prog (Client ω τ H) α} (h : Moves Same x) : Moves Steps x :=
  h.mono fun _ _ => Same.steps

theorem newTimer_steps (ms : ℕ) : Moves Steps (newTimer p ms : Prog (Client ω τ H) τ) :=
  same_steps (newTimer_moves (Same.outward p).toDiscreet ms)

theorem waitfor_steps (packetType : MsgType) (timer : τ) :
    Moves Steps (waitfor p fuel packetType timer : Prog (Client ω τ H) ℤ) :=
  (waitfor_did packetType timer).mono fun _ _ => Did.steps

theorem closeSession_steps : Moves Steps (closeSession : Prog (Client ω τ H) PUnit) :=
  fun _ => wp_closeSession.mpr (.single .closed)

theorem closeUnlessSuccess_steps (rc : ℤ) :
    Moves Steps (closeUnlessSuccess rc : Prog (Client ω τ H) PUnit) :=
  .ite closeSession_steps (.pure _)

theorem closeOnFailure_steps (rc : ℤ) :
    Moves Steps (closeOnFailure rc : Prog (Client ω τ H) PUnit) :=
  .ite closeSession_steps (.pure _)

/-- Identifiers are counted from 1 to the highest, and again from 1. -/
theorem getNext_counts : wp getNext (fun id t => Same s t ∧
    (s.client.nextPacketid ≤ maxPacketId → id ≠ 0)) (fun _ _ => False) s := by
  unfold getNext
  rw [wp_bind, wp_getClient, wp_bind, wp_modifyClient, wp_pure]
  have hnext (hle : s.client.nextPacketid ≤ maxPacketId) := next_bounds (by decide) hle
  refine ⟨⟨rfl, rfl, fun hle => (hnext hle).2, rfl⟩, fun hle hzero => ?_⟩
  obtain ⟨hpos, hle⟩ := hnext hle
  have hvalue : next maxPacketId s.client.nextPacketid % 2 ^ 16 = 0 := by
    rw [← UInt16.toNat_ofNat']
    exact congrArg UInt16.toNat hzero
  rw [Nat.mod_eq_of_lt (hle.trans_lt (by decide))] at hvalue
  omega

theorem getNext_same : Moves Same (getNext : Prog (Client ω τ H) UInt16) :=
  fun _ => wp_mono getNext_counts (fun _ _ h => h.1) fun _ _ h => h.elim

theorem setHandler_same (topicFilter : CString) (messageHandler : Option H) :
    Moves Same (setHandler topicFilter messageHandler : Prog (Client ω τ H) ℤ) :=
  .bind getClient_moves fun _ => .bind (fun _ => ⟨rfl, rfl, id, rfl⟩) fun _ => .pure _

/-- Nothing in the history is forgotten. -/
theorem Step.suffix (h : Step s t) : s.own.history <:+ t.own.history := by
  have hclosed : s.own.history <:+ (ClientCpp.closed s).own.history := by
    unfold ClientCpp.closed
    split_ifs
    · exact List.suffix_append _ _
    · exact List.suffix_rfl
  cases h with
  | deed hdeed =>
    cases hdeed with
    | still hsame => rw [hsame.history]
    | freed id =>
      dsimp only [freed]
      split_ifs
      · exact List.suffix_cons _ _
      · exact List.suffix_rfl
    | closed _ => exact hclosed
    | received | delivered | taken | sent | keptAlive => exact List.suffix_cons _ _
  | stored bytes id qos _ =>
    unfold ClientCpp.stored
    split_ifs
    · exact List.suffix_cons _ _
    · exact List.suffix_cons _ _
  | cleared id =>
    unfold ClientCpp.cleared
    split_ifs
    · exact List.suffix_rfl
    · exact List.suffix_rfl
  | closed => exact hclosed
  | connecting | connected => exact List.suffix_rfl
  | requested | resuming | resending | transmitted | awaiting | awaited =>
    exact List.suffix_cons _ _

theorem Steps.suffix (h : Steps s t) : s.own.history <:+ t.own.history := by
  induction h with
  | refl => exact List.suffix_rfl
  | tail _ hstep ih => exact ih.trans hstep.suffix

theorem request_steps {α : Type} (type : MsgType) {header : UInt8}
    {f : List UInt8 → Option (ℤ × List UInt8)} (hf : BeginsWith header f)
    (hmem : type ∈ [MsgType.connect, .subscribe, .unsubscribe, .disconnect])
    (htype : MQTTHeader.type header = type.code) {x : Prog (Client ω τ H) α}
    {k : ℤ → Prog (Client ω τ H) α} (hx : Moves Steps x) (hk : ∀ rc, Moves Steps (k rc)) :
    Moves Steps (do
      let len ← serialize f
      if len ≤ 0 then x
      else
        let rc ← sendPacket p fuel len.toNat timer
        k rc) := by
  intro s
  rw [wp_bind]
  apply wp_mono (serialize_beginsWith hf)
  · rintro len t ⟨hst, hpacket⟩
    rw [wp_ite, wp_bind]
    constructor
    · intro _
      apply wp_mono (hx t)
      · exact fun _ _ h => hst.steps.trans h
      · exact fun _ _ h => hst.steps.trans h
    · intro hlen
      obtain ⟨bytes, hbytes, -⟩ := hpacket (by omega)
      apply wp_mono (sendPacket_sent len.toNat timer)
      · rintro rc _ ⟨u, htu, rfl⟩
        rw [hbytes]
        have hsent : Steps s (noted u (.sent (header :: bytes) rc)) :=
          (hst.trans htu).steps.tail (.requested bytes rc hmem htype)
        apply wp_mono (hk rc _)
        · exact fun _ _ h => hsent.trans h
        · exact fun _ _ h => hsent.trans h
      · exact fun _ _ htu => (hst.trans htu).steps
  · exact fun _ _ hst => hst.steps

/-- A request with an identifier needs an open session. -/
theorem numberedRequest_steps (type : MsgType) {header : UInt8}
    {f : UInt16 → List UInt8 → Option (ℤ × List UInt8)} (hf : ∀ id, BeginsWith header (f id))
    (hmem : type ∈ [MsgType.connect, .subscribe, .unsubscribe, .disconnect])
    (htype : MQTTHeader.type header = type.code) {next : τ → Prog (Client ω τ H) ℤ}
    (hnext : ∀ timer, Moves Steps (next timer)) :
    Moves Steps (do
      let c ← getClient
      let timer ← newTimer p c.commandTimeoutMs
      if c.isconnected then
        let id ← getNext
        let len ← serialize (f id)
        if len ≤ 0 then pure failure
        else
          let rc ← sendPacket p fuel len.toNat timer
          if rc ≠ success then pure rc else next timer
      else pure failure) := by
  refine .bind getClient_moves fun c => .bind (newTimer_steps _) fun timer => ?_
  refine .ite (.bind (same_steps getNext_same) fun id => ?_) (.pure failure)
  exact request_steps type (hf id) hmem htype (.pure _) fun rc => .ite (.pure _) (hnext timer)

theorem await_steps (packetType : MsgType) (timer : τ)
    {got : MQTTClient τ H → Prog (Client ω τ H) ℤ} (hgot : ∀ c, Moves Steps (got c)) :
    Moves Steps (do
      let rc ← waitfor p fuel packetType timer
      if rc = packetType.code then do
        let c ← getClient
        got c
      else pure failure) := by
  refine .bind (waitfor_steps packetType timer) fun rc => ?_
  exact .ite (.bind getClient_moves hgot) (.pure failure)

theorem awaitSuback_steps (topicFilter : CString) (messageHandler : Option H) (timer : τ) :
    Moves Steps (awaitSuback p fuel topicFilter messageHandler timer) := by
  refine await_steps .suback timer fun c => .bind (ofOption_moves _) fun result => ?_
  exact .ite (same_steps (setHandler_same topicFilter messageHandler)) (.pure success)

theorem subscribe_steps (topicFilter : CString) (qos : ℕ) (messageHandler : Option H) :
    Moves Steps (subscribe p fuel topicFilter qos messageHandler) := by
  refine .bind ?_ fun rc => .bind (closeOnFailure_steps rc) fun _ => .pure _
  exact numberedRequest_steps .subscribe (fun _ => mqttSerializeSubscribe_beginsWith _ _ _ _)
    (by simp) (MQTTHeader.type_ofBits_code _ _ _ _) (awaitSuback_steps topicFilter messageHandler)

theorem awaitUnsuback_steps (topicFilter : CString) (timer : τ) :
    Moves Steps (awaitUnsuback p fuel topicFilter timer : Prog (Client ω τ H) ℤ) := by
  refine await_steps .unsuback timer fun c => .bind (ofOption_moves _) fun result => ?_
  refine .ite ?_ (.pure success)
  exact .bind (same_steps (setHandler_same topicFilter none)) fun _ => .pure success

theorem unsubscribe_steps (topicFilter : CString) :
    Moves Steps (unsubscribe p fuel topicFilter : Prog (Client ω τ H) ℤ) := by
  refine .bind ?_ fun rc => .bind (closeUnlessSuccess_steps rc) fun _ => .pure _
  exact numberedRequest_steps .unsubscribe (fun _ => mqttSerializeUnsubscribe_beginsWith _ _ _)
    (by simp) (MQTTHeader.type_ofBits_code _ _ _ _) (awaitUnsuback_steps topicFilter)

theorem disconnect_steps : Moves Steps (disconnect p fuel : Prog (Client ω τ H) ℤ) := by
  have hsend (timer : τ) : Moves Steps (sendDisconnect p fuel timer : Prog (Client ω τ H) ℤ) := by
    intro s
    unfold sendDisconnect
    rw [wp_bind]
    apply wp_mono (serialize_beginsWith (mqttSerializeZero_beginsWith MsgType.disconnect.code))
    · rintro len t ⟨hst, hpacket⟩
      rw [wp_ite, wp_pure]
      refine ⟨fun hlen => ?_, fun _ => hst.steps⟩
      obtain ⟨bytes, hbytes, -⟩ := hpacket hlen
      apply wp_mono (sendPacket_sent len.toNat timer)
      · rintro rc _ ⟨u, htu, rfl⟩
        rw [hbytes]
        exact (hst.trans htu).steps.tail (.requested bytes rc (by simp)
          (MQTTHeader.type_ofBits_code .disconnect 0 0 0))
      · exact fun _ _ htu => (hst.trans htu).steps
    · exact fun _ _ hst => hst.steps
  refine .bind getClient_moves fun c => .bind (newTimer_steps _) fun timer => ?_
  exact .bind (hsend timer) fun rc => .bind closeSession_steps fun _ => .pure rc

theorem yield_did (timeoutMs : ℕ) : Moves Did (yield p fuel timeoutMs : Prog (Client ω τ H) ℤ) := by
  have hloop (timer : τ) (rounds : ℕ) :
      Moves Did (yieldLoop p fuel timer rounds : Prog (Client ω τ H) ℤ) := by
    induction rounds with
    | zero => exact .throw _
    | succ rounds ih =>
      refine .bind ((Same.ask _).mono fun _ _ => Same.did) fun expired => .ite (.pure success) ?_
      exact .bind (cycle_did timer) fun rc => .ite (.pure failure) ih
  have hnewTimer := newTimer_moves (Same.outward p).toDiscreet timeoutMs
  exact .bind (hnewTimer.mono fun _ _ => Same.did) fun timer => hloop timer fuel

theorem yield_steps (timeoutMs : ℕ) :
    Moves Steps (yield p fuel timeoutMs : Prog (Client ω τ H) ℤ) :=
  (yield_did timeoutMs).mono fun _ _ => Did.steps

theorem takeAck_steps : Moves Steps (takeAck : Prog (Client ω τ H) ℤ) := by
  refine .bind getClient_moves fun c => .bind (ofOption_moves _) fun result => ?_
  refine .ite (.pure failure) (.bind (ofOption_moves _) fun mypacketid => ?_)
  have hclear : Moves Steps (clearInflight (UInt16.ofNat mypacketid) : Prog (Client ω τ H) PUnit) :=
    fun _ => .single (.cleared (UInt16.ofNat mypacketid))
  exact .bind hclear fun _ => .pure success

theorem awaitAck_steps (packetType : MsgType) (timer : τ) :
    Moves Steps (awaitAck p fuel packetType timer : Prog (Client ω τ H) ℤ) := by
  refine .bind (fun _ => .single (.awaiting packetType)) fun _ => ?_
  refine .bind (waitfor_steps packetType timer) fun rc => ?_
  refine .bind (fun _ => .single .awaited) fun _ => ?_
  exact .ite takeAck_steps (.pure failure)

theorem awaitPublished_steps (qos : ℕ) (timer : τ) :
    Moves Steps (awaitPublished p fuel qos timer : Prog (Client ω τ H) ℤ) :=
  .ite (awaitAck_steps _ _) (.ite (awaitAck_steps _ _) (.pure _))

theorem publishPacket_steps {len qos : ℕ}
    (h : Announced s.own.history (s.client.buf.take len)) :
    wp (publishPacket p fuel len timer qos) (fun _ t => Steps s t) (fun _ t => Steps s t) s := by
  unfold publishPacket
  rw [wp_bind]
  apply wp_mono (sendPacket_sent len timer)
  · rintro rc _ ⟨u, hsu, rfl⟩
    rw [← hsu.history] at h
    have hsent : Steps s (noted u (.sent (s.client.buf.take len) rc)) :=
      hsu.steps.tail (.transmitted rc h)
    have hrest : Moves Steps (if rc ≠ success then do
          closeSession
          pure rc
        else do
          let rc ← awaitPublished p fuel qos timer
          closeUnlessSuccess rc
          pure rc : Prog (Client ω τ H) ℤ) :=
      .ite (.bind closeSession_steps fun _ => .pure _) (.bind (awaitPublished_steps _ _) fun rc =>
        .bind (closeUnlessSuccess_steps rc) fun _ => .pure _)
    apply wp_mono (hrest _)
    · exact fun _ _ h => hsent.trans h
    · exact fun _ _ h => hsent.trans h
  · exact fun _ _ hsu => hsu.steps

theorem wp_storePublish {len qos : ℕ} {id : UInt16} {Q : PUnit → Client ω τ H → Prop}
    {E : Fault → Client ω τ H → Prop} (hlen : (s.client.buf.take len).length = len) :
    wp (storePublish len id qos) Q E s ↔ Q ⟨⟩ (stored s (s.client.buf.take len) id qos) := by
  unfold storePublish stored
  simp only [wp_bind, wp_getClient, wp_note, wp_ite, wp_pure, wp_modifyOwn, hlen]
  split_ifs with hclean
  · simp only [noted, hclean, forall_const, not_true_eq_false, false_implies, and_true]
  · simp only [noted, hclean, Bool.false_eq_true, false_implies, not_false_eq_true, forall_const,
      true_and]

theorem publishId_same (id : UInt16) (qos : ℕ) :
    Moves Same (publishId id qos : Prog (Client ω τ H) UInt16) :=
  .ite getNext_same (.pure _)

theorem stored_history (s : Client ω τ H) (packet : List UInt8) (id : UInt16) (qos : ℕ) :
    (stored s packet id qos).own.history = .publishing id qos packet :: s.own.history := by
  unfold stored
  split_ifs
  · rfl
  · rfl

theorem stored_client (s : Client ω τ H) (packet : List UInt8) (id : UInt16) (qos : ℕ) :
    (stored s packet id qos).client = s.client := by
  unfold stored
  split_ifs
  · rfl
  · rfl

theorem publishStored_steps {header : UInt8} {bytes : List UInt8} {len : ℕ}
    (htype : MQTTHeader.type header = MsgType.publish.code)
    (hbytes : s.client.buf.take len = header :: bytes) (hlength : (header :: bytes).length = len)
    (id : UInt16) (qos : ℕ) :
    wp (do
      storePublish len id qos
      let rc ← publishPacket p fuel len timer qos
      pure (rc, id)) (fun _ t => Steps s t) (fun _ t => Steps s t) s := by
  rw [wp_bind, wp_storePublish (by rw [hbytes, hlength]), hbytes, wp_bind]
  have hstored : Steps s (stored s (header :: bytes) id qos) := .single (.stored bytes id qos htype)
  have hannounced : Announced (stored s (header :: bytes) id qos).own.history
      ((stored s (header :: bytes) id qos).client.buf.take len) := by
    rw [stored_history, stored_client, hbytes]
    exact ⟨_, .inl ⟨id, qos, rfl⟩⟩
  apply wp_mono (publishPacket_steps hannounced)
  · exact fun _ _ h => hstored.trans h
  · exact fun _ _ h => hstored.trans h

theorem publish_steps (topicName : CString) (payload : List UInt8) (payloadlen : ℕ) (id : UInt16)
    (qos : ℕ) (retained : Bool) :
    Moves Steps (publish p fuel topicName payload payloadlen id qos retained :
      Prog (Client ω τ H) (ℤ × UInt16)) := by
  refine .bind getClient_moves fun c => .bind (newTimer_steps _) fun timer => .ite
    (.bind (same_steps (publishId_same id qos)) fun id => ?_) (.pure _)
  intro s
  rw [wp_bind]
  apply wp_mono (serialize_beginsWith (mqttSerializePublish_beginsWith _ _ _ _ _ _ _))
  · rintro len t ⟨hst, hpacket⟩
    rw [wp_ite, wp_pure]
    refine ⟨fun _ => hst.steps, fun hlen => ?_⟩
    obtain ⟨bytes, hbytes, hlength⟩ := hpacket (by omega)
    have htype := MQTTHeader.type_ofBits_code .publish (UInt8.toNat 0) qos
      (UInt8.ofNat retained.toNat).toNat
    apply wp_mono (publishStored_steps htype hbytes hlength id qos)
    · exact fun _ _ h => hst.steps.trans h
    · exact fun _ _ h => hst.steps.trans h
  · exact fun _ _ hst => hst.steps

theorem resend_steps {len qos : ℕ} {earlier : List Occurrence} (hsteps : Steps s t)
    (hhistory : t.own.history = .resuming :: earlier) (hinflight : 0 < t.own.inflightMsgid)
    (h : t.client.buf.take len = t.own.pubbuf.take t.own.inflightLen ∨
      t.own.pubrel = true ∧ t.client.buf.take len = ackBytes .pubrel t.own.inflightMsgid) :
    wp (resend p fuel len timer qos) (fun _ u => Steps s u) (fun _ u => Steps s u) t := by
  unfold resend
  rw [wp_bind, wp_getClient, wp_bind, wp_note]
  have hresending : Steps s (noted t (.resending (t.client.buf.take len))) :=
    hsteps.tail (.resending hhistory (UInt16.pos_iff_ne_zero.mp hinflight) h)
  apply wp_mono (publishPacket_steps ⟨_, .inr rfl⟩)
  · exact fun _ _ h => hresending.trans h
  · exact fun _ _ h => hresending.trans h

theorem wp_serializeAck {packettype : MsgType} {id : UInt16} {Q : ℤ → Client ω τ H → Prop}
    {E : Fault → Client ω τ H → Prop}
    (hshort : s.client.buf.length < 4 → Q mqttpacketBufferTooShort s)
    (hdone : 4 ≤ s.client.buf.length → Q 4 { s with
      client := { s.client with buf := overwrite s.client.buf 0 (ackBytes packettype id) } }) :
    wp (serialize fun buf => mqttSerializeAck buf packettype.code 0 id) Q E s := by
  have hlen := length_ackBytes packettype id
  rw [wp_serialize, mqttSerializeAck_eq]
  by_cases hroom : s.client.buf.length < 4
  · rw [if_pos hroom]
    exact hshort hroom
  · have hsome : serialized s.client.buf (frameBytes (ackHeader packettype.code 0)
        (intBytes id.toNat)) = some (4, overwrite s.client.buf 0 (ackBytes packettype id)) :=
      serialized_eq_some_iff.mpr ⟨by rw [← ackBytes]; omega, by rw [← ackBytes, hlen]; rfl, rfl⟩
    rw [if_neg hroom, hsome]
    exact hdone (by omega)

theorem resume_steps (rc : ℤ) : Moves Steps (resume p fuel timer rc : Prog (Client ω τ H) ℤ) := by
  intro s
  unfold resume
  rw [wp_bind, wp_note, wp_bind, wp_getOwn, wp_ite]
  have hresuming : Steps s (noted s .resuming) := .single .resuming
  constructor
  · rintro ⟨hpos, -, hpubrel⟩
    rw [wp_bind]
    apply wp_serializeAck
    · intro _
      rw [wp_ite, wp_pure]
      exact ⟨fun _ => hresuming, fun h => absurd (by decide) h⟩
    · intro _
      rw [wp_ite]
      refine ⟨fun h => absurd h (by decide), fun _ => ?_⟩
      have htake := take_overwrite_zero s.client.buf (ackBytes .pubrel s.own.inflightMsgid)
      rw [length_ackBytes] at htake
      have hbuf : Steps s { noted s .resuming with client := { s.client with
          buf := overwrite s.client.buf 0 (ackBytes .pubrel s.own.inflightMsgid) } } :=
        hresuming.trans (Same.steps ⟨rfl, rfl, id, rfl⟩)
      exact resend_steps hbuf rfl hpos (.inr ⟨hpubrel, htake⟩)
  · intro _
    rw [wp_ite, wp_bind, wp_modifyClient, wp_pure]
    refine ⟨fun hpos => ?_, fun _ => hresuming⟩
    have hbuf : Steps s { noted s .resuming with
        client := { s.client with buf := s.own.pubbuf } } :=
      hresuming.trans (Same.steps ⟨rfl, rfl, id, rfl⟩)
    exact resend_steps hbuf rfl hpos (.inl rfl)

theorem recordReceived_same : Moves Same (recordReceived p : Prog (Client ω τ H) PUnit) :=
  recordReceived_moves (Same.inward p)

theorem awaitConnack_steps (timer : τ) :
    Moves Steps (awaitConnack p fuel timer : Prog (Client ω τ H) ℤ) := by
  refine await_steps .connack timer fun c => ?_
  exact .bind (ofOption_moves _) fun result => .pure _

theorem connectExchange_steps (options : ConnectData) :
    Moves Steps (connectExchange p fuel options : Prog (Client ω τ H) ℤ) := by
  intro s
  unfold connectExchange
  rw [wp_bind, wp_getClient, wp_bind]
  apply wp_mono (newTimer_moves (Same.outward p).toDiscreet _ s)
  · intro timer t hst
    rw [wp_ite, wp_pure, wp_bind, wp_modifyClient]
    refine ⟨fun _ => hst.steps, fun hclosed => ?_⟩
    have hnot : t.client.isconnected = false := hst.isconnected.trans (by simpa using hclosed)
    have hconnecting := hst.steps.tail (.connecting options.keepAliveInterval.toNat
      (decide (options.cleansession ≠ 0)) hnot)
    have hanswered (rc : ℤ) : Moves Steps (if rc ≠ success then pure rc
        else do
          recordReceived p
          let rc ← awaitConnack p fuel timer
          resume p fuel timer rc : Prog (Client ω τ H) ℤ) := by
      refine .ite (.pure rc) (.bind (same_steps recordReceived_same) fun _ => ?_)
      exact .bind (awaitConnack_steps timer) fun rc => resume_steps rc
    apply wp_mono (request_steps .connect (mqttSerializeConnect_beginsWith options) (by simp)
      (MQTTHeader.type_ofBits_code _ _ _ _) (.pure failure) hanswered _)
    · exact fun _ _ h => hconnecting.trans h
    · exact fun _ _ h => hconnecting.trans h
  · exact fun _ _ hst => hst.steps

theorem connect_steps (options : ConnectData) :
    Moves Steps (connect p fuel options : Prog (Client ω τ H) ℤ) := by
  refine .bind (connectExchange_steps options) fun rc => .ite ?_ (.pure rc)
  exact .bind (fun _ => .single .connected) fun _ => .pure rc

/-- Whatever the application calls, the client makes these steps. -/
theorem perform_steps (p : Platform ω τ H) (fuel : ℕ) (call : Call H) :
    Moves Steps (perform p fuel call : Prog (Client ω τ H) ℤ) := by
  cases call with
  | connect options => exact connect_steps _
  | publish topicName payload payloadlen id qos retained =>
    exact .bind (publish_steps _ _ _ _ _ _) fun _ => .pure _
  | publishWithoutId topicName payload payloadlen qos retained =>
    exact .bind (publish_steps _ _ _ _ _ _) fun _ => .pure _
  | publishMessage topicName message => exact .bind (publish_steps _ _ _ _ _ _) fun _ => .pure _
  | subscribe topicFilter qos messageHandler => exact subscribe_steps _ _ _
  | unsubscribe topicFilter => exact unsubscribe_steps _
  | yield timeoutMs => exact yield_steps _
  | disconnect => exact disconnect_steps
  | setMessageHandler topicFilter messageHandler => exact same_steps (setHandler_same _ _)
  | setDefaultMessageHandler messageHandler =>
    exact same_steps (.bind (fun _ => ⟨rfl, rfl, id, rfl⟩) fun _ => .pure _)

/-- A call with the client before and after it, and what it has returned. -/
structure Entry (ω τ H : Type) where
  before : Client ω τ H
  call : Call H
  rc : ℤ
  after : Client ω τ H

/-- An application makes one call after the other. -/
def runCalls (p : Platform ω τ H) (fuel : ℕ) :
    List (Call H) → Prog (Client ω τ H) (List (Entry ω τ H))
  | [] => pure []
  | call :: calls => do
    let before ← get
    let rc ← perform p fuel call
    let after ← get
    let later ← runCalls p fuel calls
    pure (⟨before, call, rc, after⟩ :: later)

theorem runCalls_steps (p : Platform ω τ H) (fuel : ℕ) (calls : List (Call H)) :
    Moves Steps (runCalls p fuel calls : Prog (Client ω τ H) (List (Entry ω τ H))) := by
  induction calls with
  | nil => exact .pure _
  | cons call calls ih =>
    refine .bind .get fun before => .bind (perform_steps p fuel call) fun rc => ?_
    exact .bind .get fun after => .bind ih fun later => .pure _

theorem runCalls_cons {call : Call H} {calls : List (Call H)} {rc : ℤ}
    {entries : List (Entry ω τ H)} (hperform : perform p fuel call s = .ok rc t)
    (hrun : runCalls p fuel calls t = .ok entries u) :
    runCalls p fuel (call :: calls) s = .ok (⟨s, call, rc, t⟩ :: entries) u := by
  have hlater : (perform p fuel call >>= fun rc => do
      let after ← get
      let later ← runCalls p fuel calls
      pure (⟨s, call, rc, after⟩ :: later) : Prog (Client ω τ H) (List (Entry ω τ H))) s =
        .ok (⟨s, call, rc, t⟩ :: entries) u := by
    rw [bind_of_ok hperform]
    exact bind_of_ok hrun _
  exact hlater

/-- What a call of a run starts from is where the calls before it have ended. -/
theorem runCalls_entry {calls : List (Call H)} {entries : List (Entry ω τ H)} {e : Entry ω τ H}
    (hrun : runCalls p fuel calls s = .ok entries t) (he : e ∈ entries) :
    ∃ calls' entries', runCalls p fuel calls' s = .ok entries' e.before ∧
      perform p fuel e.call e.before = .ok e.rc e.after := by
  induction calls generalizing s entries with
  | nil =>
    obtain rfl : [] = entries := (EStateM.Result.ok.inj hrun).1
    exact absurd he List.not_mem_nil
  | cons call calls ih =>
    have hwp : wp (runCalls p fuel (call :: calls)) (fun entries t => ∃ rc u later,
        perform p fuel call s = .ok rc u ∧ runCalls p fuel calls u = .ok later t ∧
        entries = ⟨s, call, rc, u⟩ :: later) (fun _ _ => True) s := by
      rw [runCalls, wp_bind, wp_get, wp_bind]
      refine wp_of_ok fun rc u hperform => ?_
      rw [wp_bind, wp_get, wp_bind]
      refine wp_of_ok fun later v hlater => ?_
      exact ⟨rc, u, later, hperform, hlater, rfl⟩
    obtain ⟨rc, u, later, hperform, hlater, rfl⟩ := wp_result hwp hrun
    rcases List.mem_cons.mp he with rfl | he
    · exact ⟨[], [], rfl, hperform⟩
    · obtain ⟨calls', entries', hrun', hperform'⟩ := ih hlater he
      exact ⟨call :: calls', _, runCalls_cons hperform hrun', hperform'⟩

/-- The calls end in `t`, after the last of them or with a fault. -/
def Run (p : Platform ω τ H) (fuel : ℕ) (calls : List (Call H)) (s t : Client ω τ H) : Prop :=
  ∃ entries, Ends (runCalls p fuel calls) s entries t

theorem Run.done {calls : List (Call H)} {entries : List (Entry ω τ H)}
    (h : runCalls p fuel calls s = .ok entries t) : Run p fuel calls s t :=
  ⟨_, .value h⟩

theorem Run.post {calls : List (Call H)} {Q : Client ω τ H → Prop} (h : Run p fuel calls s t)
    (hwp : wp (runCalls p fuel calls) (fun _ t => Q t) (fun _ t => Q t) s) : Q t := by
  obtain ⟨entries, hends⟩ := h
  exact hends.post (Q := fun _ t => Q t) hwp

end MqttEmbedded.ClientCpp
