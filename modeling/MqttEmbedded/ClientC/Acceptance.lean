import MqttEmbedded.ClientC.Outcomes

/-!
# What success rests on

A wait ends with the first packet of its type. What the packet says is looked at
less closely than the result suggests: a CONNACK without its two bytes counts as
one that accepts, because the return code was set to 0 beforehand and the decoder
returns the size of the length field, and the identifier of an acknowledgement is
not compared with that of the request.
-/

namespace MqttEmbedded

/-- A CONNACK whose body has its two bytes, the second of them 0. -/
def Receipt.Accepts (r : Receipt) : Prop :=
  r.packetType = MsgType.connack.code ∧ ∃ len mylen flags,
    mqttPacketDecodeBuf r.readbuf 1 = some (len, mylen) ∧ 2 ≤ mylen ∧
      r.readbuf[1 + len]? = some flags ∧ r.readbuf[1 + len + 1]? = some 0

/-- A CONNACK whose body is too short for its two bytes. -/
def Receipt.Truncated (r : Receipt) : Prop :=
  r.packetType = MsgType.connack.code ∧ ∃ len mylen,
    mqttPacketDecodeBuf r.readbuf 1 = some (len, mylen) ∧ mylen < 2

/-- The identifier a packet begins with, if its body has room for one. -/
def Receipt.packetid (r : Receipt) : Option ℕ := do
  let (len, mylen) ← mqttPacketDecodeBuf r.readbuf 1
  if mylen < 2 then none else readInt r.readbuf (1 + len)

/-- An acknowledgement of this type with this identifier. -/
def Receipt.Acknowledges (packetType : MsgType) (id : UInt16) (r : Receipt) : Prop :=
  r.packetType = packetType.code ∧ r.packetid = some id.toNat

theorem Receipt.Accepts.not_truncated {r : Receipt} (h : r.Accepts) : ¬ r.Truncated := by
  rintro ⟨-, len, mylen, hdecode, hshort⟩
  obtain ⟨-, len', mylen', flags, hdecode', hlong, -⟩ := h
  rw [hdecode] at hdecode'
  cases hdecode'
  omega

namespace ClientC

open Region Hoare

variable {ω τ H : Type} {p : Platform ω τ H} {fuel : ℕ} {timer : τ} {s t : Client ω τ H}

theorem accepts_or_truncated {readbuf : List UInt8} {fields : Option ConnackFields}
    (hdecode : mqttDeserializeConnack readbuf = some (1, fields))
    (haccepted : (fields.getD ⟨0, 0⟩).connackRc = 0) {r : Receipt} (hbuf : readbuf = r.readbuf)
    (htype : r.packetType = MsgType.connack.code) : r.Accepts ∨ r.Truncated := by
  subst hbuf
  unfold mqttDeserializeConnack at hdecode
  cases hheader : r.readbuf[0]? with
  | none => simp [hheader] at hdecode
  | some header =>
    cases hfield : mqttPacketDecodeBuf r.readbuf 1 with
    | none => simp [hheader, hfield] at hdecode
    | some field =>
      obtain ⟨len, mylen⟩ := field
      simp only [hheader, hfield, Option.bind_eq_bind, Option.bind_some] at hdecode
      split_ifs at hdecode with hconnack hshort
      · exact absurd (Prod.mk.inj (Option.some.inj hdecode)).1 (by decide)
      · exact .inr ⟨htype, len, mylen, hfield, hshort⟩
      · obtain ⟨flags, hflags, hrest⟩ := Option.bind_eq_some_iff.mp hdecode
        obtain ⟨connackRc, hrc, hfields⟩ := Option.bind_eq_some_iff.mp hrest
        obtain ⟨-, rfl⟩ := Prod.mk.inj (Option.some.inj hfields)
        have hzero : connackRc = 0 := haccepted
        exact .inl ⟨htype, len, mylen, flags, hfield, not_lt.mp hshort, hflags, hzero ▸ hrc⟩

/-- A buffer of which `MQTTConnectWithResults` takes the CONNACK for one that accepts. -/
def TakenForAccepted (readbuf : List UInt8) : Prop :=
  ∃ fields, mqttDeserializeConnack readbuf = some (1, fields) ∧
    (fields.getD ⟨0, 0⟩).connackRc = 0

theorem awaitConnack_taken (data : ConnackFields) :
    wp (awaitConnack p fuel timer data)
      (fun result t => result.1 = success → TakenForAccepted t.client.readbuf)
      (fun _ _ => True) s := by
  unfold awaitConnack
  rw [wp_bind]
  apply wp_mono (wp_true _)
  · intro rc t _
    rw [wp_ite, wp_pure, wp_bind, wp_getClient, wp_bind]
    refine ⟨fun _ => wp_ofOption fun result hresult => ?_,
      fun _ h => absurd h failure_ne_success⟩
    rw [wp_pure]
    intro hrc
    dsimp only at hrc
    split_ifs at hrc with hone
    · obtain ⟨one, fields⟩ := result
      cases hone
      refine ⟨fields, hresult, ?_⟩
      have hzero : ((fields.getD ⟨0, 0⟩).connackRc.toNat : ℤ) = 0 := hrc
      exact UInt8.toNat_inj.mp (by exact_mod_cast hzero)
    · exact absurd hrc failure_ne_success
  · exact fun _ _ _ => trivial

theorem connectExchange_taken (options : ConnectData) (data : ConnackFields) :
    wp (connectExchange p fuel options data)
      (fun result t => result.1 = success → TakenForAccepted t.client.readbuf)
      (fun _ _ => True) s := by
  have hnot {t : Client ω τ H} (h : failure = success) : TakenForAccepted t.client.readbuf :=
    absurd h failure_ne_success
  have hsend (len : ℕ) (timer : τ) (t : Client ω τ H) : wp (do
      let rc ← sendPacket p fuel len timer
      if rc ≠ success then pure (rc, data) else awaitConnack p fuel timer data)
      (fun result t => result.1 = success → TakenForAccepted t.client.readbuf)
      (fun _ _ => True) t := by
    rw [wp_bind]
    apply wp_mono (wp_true _)
    · intro rc u _
      rw [wp_ite, wp_pure]
      exact ⟨fun hne h => absurd h hne, fun _ => awaitConnack_taken data⟩
    · exact fun _ _ _ => trivial
  unfold connectExchange
  rw [wp_bind, wp_getClient, wp_ite, wp_pure, wp_bind]
  refine ⟨fun _ => hnot, fun _ => ?_⟩
  apply wp_imp (newTimer_still _)
  intro timer t _
  rw [wp_bind, wp_modifyClient, wp_bind, wp_getClient, wp_bind, wp_ask, wp_bind, wp_modifyClient,
    wp_bind]
  apply wp_mono (wp_true _)
  · intro len u _
    rw [wp_ite, wp_pure]
    exact ⟨fun _ => hnot, fun _ => hsend _ timer u⟩
  · exact fun _ _ _ => trivial

theorem awaitConnack_exchanged (data : ConnackFields) :
    wp (awaitConnack p fuel timer data)
      (fun result t => ∃ receipts,
        Exchanged p (fun _ => True) (some .connack) s t result.1 receipts)
      (fun _ _ => True) s := by
  refine await_exchanged Prod.fst .connack trivial failure_ne_success fun t => ?_
  rw [wp_bind, wp_getClient, wp_bind]
  exact wp_ofOption fun result _ => ⟨Std.Refl.refl t, trivial, rfl, rfl⟩

theorem connectExchange_exchanged (options : ConnectData) (data : ConnackFields) :
    wp (connectExchange p fuel options data)
      (fun result t => ∃ receipts, Course p (readPacket p) s receipts t ∧
        (t.client.isconnected = true → s.client.isconnected = true) ∧
        (result.1 = success → ∃ last, EndsWith .connack receipts last t.client.readbuf))
      (fun _ _ => True) s := by
  unfold connectExchange
  rw [wp_bind, wp_getClient, wp_ite, wp_pure, wp_bind]
  refine ⟨fun _ => ⟨[], .still (Std.Refl.refl s), id, fun h => absurd h failure_ne_success⟩,
    fun _ => ?_⟩
  apply wp_imp (newTimer_still _)
  rintro timer t ⟨hclient, hstill⟩
  rw [wp_bind, wp_modifyClient, wp_bind, wp_getClient, wp_bind, wp_ask, wp_bind, wp_modifyClient]
  have hquiet := still_quiet (χ := Unit) p
  have hset := hquiet.client t { t.client with
    keepAliveInterval := options.keepAliveInterval.toNat
    cleansession := options.cleansession ≠ 0 } rfl
  have hcounted := hquiet.timerCountdown t.client.lastReceived options.keepAliveInterval.toNat
    { t with client := { t.client with
      keepAliveInterval := options.keepAliveInterval.toNat
      cleansession := options.cleansession ≠ 0 } }
  generalize hstate : ({ client := _, own := _, world := _ } : Client ω τ H) = u
  have hready : Still p s u ∧ u.client.isconnected = s.client.isconnected := by
    rw [← hstate, ← hclient]
    exact ⟨(hstill.trans hset).trans (hcounted.trans (hquiet.client _ _ rfl)), rfl⟩
  apply wp_imp (request_exchanged (some .connack) (fun _ => True) Prod.fst rfl
    (fun _ => rfl) trivial fun v => awaitConnack_exchanged data)
  rintro result v ⟨receipts, h⟩
  refine ⟨receipts, h.course.after_still hready.1, fun hopen => ?_, fun hrc => ?_⟩
  · rw [← hready.2]
    exact h.opened hopen
  · exact (h.settled hrc).2 _ rfl

/-- The CONNACK that ends the wait is one that accepts if none is too short. -/
theorem accepted_iff {receipts : List Receipt} {last : Receipt} {readbuf : List UInt8}
    (hend : EndsWith .connack receipts last readbuf) (htaken : TakenForAccepted readbuf) :
    (∃ r ∈ receipts, r.Accepts) ↔ ∀ r ∈ receipts, ¬ r.Truncated := by
  constructor
  · rintro ⟨r, hr, haccepts⟩ r' hr' htruncated
    rw [hend.eq_last hr' htruncated.1, ← hend.eq_last hr haccepts.1] at htruncated
    exact haccepts.not_truncated htruncated
  · intro hnone
    obtain ⟨fields, hdecode, hzero⟩ := htaken
    rcases accepts_or_truncated hdecode hzero hend.readbuf_eq hend.packetType_eq with h | h
    · exact ⟨last, hend.last_mem, h⟩
    · exact absurd h (hnone last hend.last_mem)

theorem mqttConnectWithResults_accepted {options : Option ConnectData} {data : ConnackFields}
    (hclosed : s.client.isconnected = false) :
    wp (mqttConnectWithResults p fuel options data)
      (fun result t => (t.client.isconnected = true ↔ result.1 = success) ∧
        ∃ receipts, Course p (readPacket p) s receipts t ∧ (result.1 = success →
          (∃ last, EndsWith .connack receipts last t.client.readbuf) ∧
            ((∃ r ∈ receipts, r.Accepts) ↔ ∀ r ∈ receipts, ¬ r.Truncated)))
      (fun _ _ => True) s := by
  unfold mqttConnectWithResults
  rw [wp_bind]
  apply wp_mono (wp_and (connectExchange_exchanged _ data) (connectExchange_taken _ data))
  · rintro result t ⟨⟨receipts, hcourse, hopened, hends⟩, htaken⟩
    simp only [wp_ite, wp_bind, wp_modifyClient, wp_pure]
    constructor
    · intro hrc
      obtain ⟨last, hend⟩ := hends hrc
      refine ⟨⟨fun _ => hrc, fun _ => trivial⟩, receipts,
        hcourse.then_still ((still_quiet p).client _ _ rfl), fun _ => ⟨⟨last, hend⟩, ?_⟩⟩
      exact accepted_iff hend (htaken hrc)
    · intro hrc
      refine ⟨⟨fun hopen => ?_, fun h => absurd h hrc⟩, receipts, hcourse, fun h => absurd h hrc⟩
      rw [hclosed] at hopened
      exact absurd (hopened hopen) Bool.false_ne_true
  · exact fun _ _ _ => trivial

theorem accepted_of_run {options : Option ConnectData} {data : ConnackFields}
    {result : ℤ × ConnackFields} (hclosed : s.client.isconnected = false)
    (hrun : mqttConnectWithResults p fuel options data s = .ok result t) :
    (t.client.isconnected = true ↔ result.1 = success) ∧
      ∃ receipts, Course p (readPacket p) s receipts t ∧ (result.1 = success →
        (∃ last, EndsWith .connack receipts last t.client.readbuf) ∧
          ((∃ r ∈ receipts, r.Accepts) ↔ ∀ r ∈ receipts, ¬ r.Truncated)) :=
  (wp_ok hrun).mp (mqttConnectWithResults_accepted hclosed)

theorem perform_opened {call : Call H} (hcall : ∀ options, call ≠ .connect options) :
    wp (perform p fuel call)
      (fun _ t => t.client.isconnected = true → s.client.isconnected = true)
      (fun _ _ => True) s := by
  cases call with
  | connect options => exact absurd rfl (hcall options)
  | publish _ _ | subscribe _ _ _ | unsubscribe _ | yield _ =>
    apply wp_imp (perform_replied (by trivial))
    rintro reply t ⟨receipts, h⟩
    exact h.opened
  | disconnect =>
    rw [perform, wp_bind]
    apply wp_imp disconnect_tornDown
    intro rc t htorn hopen
    rw [htorn.isconnected] at hopen
    exact absurd hopen Bool.false_ne_true
  | setMessageHandler _ _ => exact id

/-- A session is opened by connecting only, when that returns success; and then a CONNACK
that accepts has been read if and only if none has been read that is too short. -/
theorem session_accepted (p : Platform ω τ H) (fuel : ℕ) :
    (∀ (call : Call H) (reply : Reply) (s t : Client ω τ H), (∀ options, call ≠ .connect options) →
      perform p fuel call s = .ok reply t → t.client.isconnected = true →
        s.client.isconnected = true) ∧
    ∀ (options : Option ConnectData) (data : ConnackFields) (result : ℤ × ConnackFields)
      (s t : Client ω τ H), s.client.isconnected = false →
      mqttConnectWithResults p fuel options data s = .ok result t →
      (t.client.isconnected = true ↔ result.1 = success) ∧
        ∃ receipts, Course p (readPacket p) s receipts t ∧ (result.1 = success →
          ((∃ r ∈ receipts, r.Accepts) ↔ ∀ r ∈ receipts, ¬ r.Truncated)) := by
  constructor
  · intro call reply s t hcall hrun
    exact (wp_ok hrun).mp (perform_opened hcall)
  · intro options data result s t hclosed hrun
    obtain ⟨hopened, receipts, hcourse, h⟩ := accepted_of_run hclosed hrun
    exact ⟨hopened, receipts, hcourse, fun hrc => (h hrc).2⟩

/-- Options without a keepalive interval. -/
def unhurried : ConnectData := { connectDataInitializer with keepAliveInterval := 0 }

/-- A CONNACK without a body arrives, and the client is connected. -/
theorem session_accepted_truncated : ∃ result t receipts,
    mqttConnectWithResults inboxPlatform 8 (some unhurried) ⟨0, 0⟩ (inboxClient false [0x20, 0]) =
        .ok result t ∧ t.client.isconnected = true ∧
      Course inboxPlatform (readPacket inboxPlatform) (inboxClient false [0x20, 0]) receipts t ∧
      ¬ ∃ r ∈ receipts, r.Accepts := by
  obtain ⟨result, t, hrun, hrc, hreadbuf⟩ : ∃ result t,
      mqttConnectWithResults inboxPlatform 8 (some unhurried) ⟨0, 0⟩ (inboxClient false [0x20, 0]) =
          .ok result t ∧ result.1 = success ∧
        t.client.readbuf = [0x20, 0] ++ List.replicate 14 0 :=
    wp_total (by decide +kernel)
  have hdecode : mqttPacketDecodeBuf t.client.readbuf 1 = some (1, 0) := by
    rw [hreadbuf]
    decide
  obtain ⟨hopened, receipts, hcourse, h⟩ := accepted_of_run rfl hrun
  obtain ⟨⟨last, hend⟩, hiff⟩ := h hrc
  rw [hend.readbuf_eq] at hdecode
  refine ⟨result, t, receipts, hrun, hopened.mpr hrc, hcourse, fun haccepts => ?_⟩
  exact hiff.mp haccepts last hend.last_mem ⟨hend.packetType_eq, 1, 0, hdecode, by decide⟩

theorem session_accepted_connack : ∃ result t,
    mqttConnectWithResults inboxPlatform 8 (some unhurried) ⟨0, 0⟩
        (inboxClient false [0x20, 2, 0, 0]) = .ok result t ∧ result.1 = success ∧
      ∃ receipts, Course inboxPlatform (readPacket inboxPlatform)
        (inboxClient false [0x20, 2, 0, 0]) receipts t ∧
        ((∃ r ∈ receipts, r.Accepts) ↔ ∀ r ∈ receipts, ¬ r.Truncated) := by
  obtain ⟨result, t, hrun, hrc⟩ : ∃ result t,
      mqttConnectWithResults inboxPlatform 8 (some unhurried) ⟨0, 0⟩
        (inboxClient false [0x20, 2, 0, 0]) = .ok result t ∧ result.1 = success :=
    wp_total (by decide +kernel)
  obtain ⟨-, receipts, hcourse, h⟩ :=
    (session_accepted inboxPlatform 8).2 (some unhurried) ⟨0, 0⟩ result _ t rfl hrun
  exact ⟨result, t, hrun, hrc, receipts, hcourse, h hrc⟩

/-- From `s` the bytes have come into the send buffer and have been sent. -/
def Sent (p : Platform ω τ H) (fuel : ℕ) (s : Client ω τ H) (bytes : List UInt8) : Prop :=
  ∃ timer u v, Still p s u ∧ u.client.buf.take bytes.length = bytes ∧
    sendPacket p fuel bytes.length timer u = .ok success v

theorem Sent.after {bytes : List UInt8} (hstill : Still p s t) (h : Sent p fuel t bytes) :
    Sent p fuel s bytes := by
  obtain ⟨timer, u, v, hu, hbuf, hsent⟩ := h
  exact ⟨timer, u, v, hstill.trans hu, hbuf, hsent⟩

theorem request_sent {α : Type} (rcOf : α → ℤ) {f : List UInt8 → Option (ℤ × List UInt8)}
    {bytes : List UInt8} (hf : Writes f bytes) (hpos : 0 < bytes.length) {short : α}
    {refused : ℤ → α} {next : Prog (Client ω τ H) α} (hshort : rcOf short ≠ success)
    (hrefused : ∀ rc, rc ≠ success → rcOf (refused rc) ≠ success) :
    wp (do
        let len ← serialize f
        if len ≤ 0 then pure short
        else
          let rc ← sendPacket p fuel len.toNat timer
          if rc ≠ success then pure (refused rc) else next)
      (fun a _ => rcOf a = success → Sent p fuel s bytes) (fun _ _ => True) s := by
  rw [wp_bind]
  apply wp_serialize_of_writes hf
  · exact fun h => absurd h hshort
  · intro hroom
    rw [if_neg (by omega), Int.toNat_natCast, wp_bind]
    refine wp_of_ok fun rc v hsend => ?_
    rw [wp_ite, wp_pure]
    refine ⟨fun hne h => absurd h (hrefused rc hne), fun hrc => ?_⟩
    rw [not_not.mp hrc] at hsend
    have hsent : Sent p fuel s bytes :=
      ⟨timer, _, v, (still_quiet p).client s { s.client with
        buf := overwrite s.client.buf 0 bytes } rfl, take_overwrite_zero _ _, hsend⟩
    apply wp_mono (wp_true _)
    · exact fun _ _ _ _ => hsent
    · exact fun _ _ _ => trivial

theorem ifConnected_sent {α : Type} (rcOf : α → ℤ) {bytes : List UInt8} {missed : α}
    (hmissed : rcOf missed ≠ success) {next : τ → Prog (Client ω τ H) α}
    (hnext : ∀ (timer : τ) (t : Client ω τ H), t.client = s.client → wp (next timer)
      (fun a _ => rcOf a = success → Sent p fuel t bytes) (fun _ _ => True) t) :
    wp (do
        let c ← getClient
        if c.isconnected then
          let timer ← newTimer p c.commandTimeoutMs
          next timer
        else pure missed)
      (fun a _ => rcOf a = success → Sent p fuel s bytes) (fun _ _ => True) s := by
  rw [wp_bind, wp_getClient, wp_ite, wp_pure, wp_bind]
  refine ⟨fun _ => ?_, fun _ h => absurd h hmissed⟩
  apply wp_imp (newTimer_still _)
  rintro timer t ⟨hclient, hstill⟩
  apply wp_imp (hnext timer t hclient)
  exact fun _ _ h hrc => .after hstill (h hrc)

theorem numberedRequest_sent {α : Type} (rcOf : α → ℤ)
    {f : UInt16 → List UInt8 → Option (ℤ × List UInt8)} {header : UInt8}
    {body : UInt16 → List UInt8} (hf : ∀ id, Writes (f id) (frameBytes header (body id)))
    {short : α} {refused : ℤ → α} {next : τ → Prog (Client ω τ H) α}
    (hshort : rcOf short ≠ success)
    (hrefused : ∀ rc, rc ≠ success → rcOf (refused rc) ≠ success) :
    wp (do
        let c ← getClient
        if c.isconnected then
          let timer ← newTimer p c.commandTimeoutMs
          let id ← getNextPacketId
          let len ← serialize (f id)
          if len ≤ 0 then pure short
          else
            let rc ← sendPacket p fuel len.toNat timer
            if rc ≠ success then pure (refused rc) else next timer
        else pure short)
      (fun a _ => rcOf a = success → Sent p fuel s (frameBytes header (body (nextId s.client))))
      (fun _ _ => True) s := by
  refine ifConnected_sent rcOf hshort fun timer t hclient => ?_
  rw [wp_bind]
  apply wp_imp getNextPacketId_still
  rintro id u ⟨rfl, hstill, -⟩
  rw [hclient]
  apply wp_imp (request_sent rcOf (hf _) (length_frameBytes_pos _ _) hshort hrefused)
  exact fun _ _ h hrc => .after hstill (h hrc)

theorem publishExchange_sent {topicName : CString} {message : MQTTMessage}
    (hlegal : (Call.publish topicName message : Call H).Legal) (hqos : 0 < message.qos) :
    wp (publishExchange p fuel topicName message)
      (fun result _ => result.1 = success →
        Sent p fuel s (publishBytes topicName message (nextId s.client)))
      (fun _ _ => True) s := by
  have hnumbered : message.qos = 1 ∨ message.qos = 2 := by
    obtain ⟨-, hle, -⟩ := hlegal
    omega
  refine ifConnected_sent Prod.fst failure_ne_success fun timer t hclient => ?_
  rw [wp_bind, numberMessage, if_pos hnumbered, wp_bind]
  apply wp_imp getNextPacketId_still
  rintro id u ⟨rfl, hstill, -⟩
  rw [wp_pure, hclient]
  apply wp_imp (request_sent Prod.fst (writes_publish hlegal _) (length_frameBytes_pos _ _)
    failure_ne_success fun _ h => h)
  exact fun _ _ h hrc => .after hstill (h hrc)

/-- A request that succeeds has been sent, with the identifier that was next. -/
theorem perform_sent {call : Call H} (hlegal : call.Legal) (hcall : call.IsRequest)
    {packetType : MsgType} (hawaited : packetType ∈ call.awaited) {bytes : List UInt8}
    (hbytes : call.packet (nextId s.client) = some bytes) :
    wp (perform p fuel call) (fun reply _ => reply.rc = success → Sent p fuel s bytes)
      (fun _ _ => True) s := by
  have hclose {rc : ℤ} {t : Client ω τ H} (h : rc = success → Sent p fuel s bytes) :
      wp (closeOnFailure rc : Prog (Client ω τ H) PUnit)
        (fun _ _ => rc = success → Sent p fuel s bytes) (fun _ _ => True) t :=
    wp_mono (wp_true _) (fun _ _ _ => h) fun _ _ _ => trivial
  cases call with
  | publish topicName message =>
    obtain rfl := Option.some.inj hbytes
    have hqos : 0 < message.qos := by
      rcases Nat.eq_zero_or_pos message.qos with hzero | hpos
      · simp [Call.awaited, hzero] at hawaited
      · exact hpos
    rw [perform, wp_bind, mqttPublish, wp_bind]
    apply wp_imp (publishExchange_sent hlegal hqos)
    intro result t h
    rw [wp_bind]
    exact hclose h
  | subscribe topicFilter qos messageHandler =>
    obtain rfl := Option.some.inj hbytes
    rw [perform, wp_bind, mqttSubscribe, wp_bind, mqttSubscribeWithResults, wp_bind]
    apply wp_imp (numberedRequest_sent Prod.fst (writes_subscribe hlegal qos) failure_ne_success
      fun _ h => h)
    intro result t h
    rw [wp_bind]
    exact hclose h
  | unsubscribe topicFilter =>
    obtain rfl := Option.some.inj hbytes
    rw [perform, wp_bind, mqttUnsubscribe, wp_bind]
    apply wp_imp (numberedRequest_sent id (writes_unsubscribe hlegal) failure_ne_success
      fun _ h => h)
    intro rc t h
    rw [wp_bind]
    exact hclose h
  | connect _ | yield _ | disconnect | setMessageHandler _ _ => exact hcall.elim

/-- A request that succeeds has received the acknowledgement with its identifier if and
only if the first packet of that type that it has read carries it. -/
theorem perform_acknowledged (p : Platform ω τ H) (fuel : ℕ) {call : Call H} {reply : Reply}
    (hlegal : call.Legal) (hcall : call.IsRequest) {packetType : MsgType}
    (hawaited : packetType ∈ call.awaited) (hrun : perform p fuel call s = .ok reply t)
    (hsuccess : reply.rc = success) :
    (∀ bytes, call.packet (nextId s.client) = some bytes → Sent p fuel s bytes) ∧
    ∃ receipts, Course p (readPacket p) s receipts t ∧
      ((∃ r ∈ receipts, r.Acknowledges packetType (nextId s.client)) ↔
        ∀ r, receipts.find? (·.packetType = (packetType.code : ℤ)) = some r →
          r.packetid = some (nextId s.client).toNat) := by
  have hsession : call.InSession := by
    cases call with
    | publish _ _ | subscribe _ _ _ | unsubscribe _ => trivial
    | connect _ | yield _ | disconnect | setMessageHandler _ _ => exact hcall.elim
  obtain ⟨receipts, h⟩ := replied_of_run hsession hrun
  obtain ⟨last, hend⟩ := (h.settled hsuccess).2 packetType hawaited
  refine ⟨fun bytes hbytes => ?_, receipts, h.course, ?_, ?_⟩
  · exact (wp_ok hrun).mp (perform_sent hlegal hcall hawaited hbytes) hsuccess
  · rintro ⟨r, hr, htype, hid⟩ r' hfirst
    have htype' : r'.packetType = packetType.code := by simpa using List.find?_some hfirst
    rw [hend.eq_last (List.mem_of_find?_eq_some hfirst) htype',
      ← hend.eq_last hr htype]
    exact hid
  · intro hfirst
    cases hfind : receipts.find? (·.packetType = (packetType.code : ℤ)) with
    | none =>
      have hnone := List.find?_eq_none.mp hfind last hend.last_mem
      exact absurd (decide_eq_true hend.packetType_eq) hnone
    | some r =>
      have htype : r.packetType = packetType.code := by simpa using List.find?_some hfind
      exact ⟨r, List.mem_of_find?_eq_some hfind, htype, hfirst r hfind⟩

theorem publishOne_legal {qos : ℕ} (hqos : qos ≤ 2) : (publishOne qos).Legal := by
  refine ⟨by decide, hqos, le_rfl, ?_⟩
  change mqttSerializePublishLength qos (MQTTString.ofCString ⟨[97], unterminated_a⟩) 1 ≤ _
  interval_cases qos
  · decide
  · decide
  · decide

/-- The PUBLISH has identifier 2, the PUBACK that arrives has 9. -/
theorem perform_acknowledged_mismatch : ∃ reply t receipts,
    perform inboxPlatform 8 (publishOne 1) (inboxClient true [0x40, 2, 0, 9]) = .ok reply t ∧
      reply = ⟨success, some 2⟩ ∧
      Course inboxPlatform (readPacket inboxPlatform) (inboxClient true [0x40, 2, 0, 9])
        receipts t ∧
      ¬ ∃ r ∈ receipts, r.Acknowledges .puback 2 := by
  have hsession : (publishOne 1).InSession := trivial
  obtain ⟨reply, t, hrun, hreply, hreadbuf⟩ : ∃ reply t,
      perform inboxPlatform 8 (publishOne 1) (inboxClient true [0x40, 2, 0, 9]) = .ok reply t ∧
        reply = ⟨success, some 2⟩ ∧
        t.client.readbuf = [0x40, 2, 0, 9] ++ List.replicate 12 0 :=
    wp_total (by decide +kernel)
  obtain ⟨receipts, h⟩ := replied_of_run hsession hrun
  obtain ⟨last, hend⟩ := (h.settled (by rw [hreply])).2 .puback rfl
  refine ⟨reply, t, receipts, hrun, hreply, h.course, ?_⟩
  rintro ⟨r, hr, htype, hid⟩
  have hbuf := hend.readbuf_eq
  rw [hreadbuf, ← hend.eq_last hr htype] at hbuf
  rw [Receipt.packetid, ← hbuf] at hid
  exact absurd hid (by decide)

theorem perform_acknowledged_puback : ∃ reply t,
    perform inboxPlatform 8 (publishOne 1) (inboxClient true [0x40, 2, 0, 2]) = .ok reply t ∧
      ∃ receipts, Course inboxPlatform (readPacket inboxPlatform)
        (inboxClient true [0x40, 2, 0, 2]) receipts t ∧
        ((∃ r ∈ receipts, r.Acknowledges .puback 2) ↔
          ∀ r, receipts.find? (·.packetType = (MsgType.puback.code : ℤ)) = some r →
            r.packetid = some 2) := by
  obtain ⟨reply, t, hrun, hrc⟩ : ∃ reply t,
      perform inboxPlatform 8 (publishOne 1) (inboxClient true [0x40, 2, 0, 2]) = .ok reply t ∧
        reply.rc = success :=
    wp_total (by decide +kernel)
  have hawaited : MsgType.puback ∈ (publishOne 1).awaited := rfl
  obtain ⟨-, receipts, h⟩ := perform_acknowledged inboxPlatform 8 (publishOne_legal (by decide))
    (by trivial) hawaited hrun hrc
  exact ⟨reply, t, hrun, receipts, h⟩

end ClientC
end MqttEmbedded
