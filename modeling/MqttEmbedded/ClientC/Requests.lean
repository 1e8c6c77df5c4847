import MqttEmbedded.ClientC.Conduct

/-!
# The calls of an application

Every function of the interface sends at most one packet of its own, and those
that return success have sent it and have received last what they wait for. What
they do meanwhile is the conduct of `cycle`.
-/

namespace MqttEmbedded.ClientC

open Region Hoare

variable {ν τ H β : Type}

inductive Call (H : Type) where
  | connect (options : Option ConnectData)
  | publish (topicName : CString) (message : MQTTMessage)
  | subscribe (topicFilter : CString) (qos : ℕ) (messageHandler : Option H)
  | unsubscribe (topicFilter : CString)
  | yield (timeoutMs : ℕ)
  | disconnect
  | setMessageHandler (topicFilter : CString) (messageHandler : Option H)

/-- `id` is the identifier the message of a publish has been given. -/
structure Reply where
  rc : ℤ
  id : Option UInt16
  deriving DecidableEq

def perform {ω : Type} (p : Platform ω τ H) (fuel : ℕ) : Call H → Prog (Client ω τ H) Reply
  | .connect options => do
    let rc ← mqttConnect p fuel options
    pure ⟨rc, none⟩
  | .publish topicName message => do
    let result ← mqttPublish p fuel topicName message
    pure ⟨result.1, result.2.id⟩
  | .subscribe topicFilter qos messageHandler => do
    let rc ← mqttSubscribe p fuel topicFilter qos messageHandler
    pure ⟨rc, none⟩
  | .unsubscribe topicFilter => do
    let rc ← mqttUnsubscribe p fuel topicFilter
    pure ⟨rc, none⟩
  | .yield timeoutMs => do
    let rc ← mqttYield p fuel timeoutMs
    pure ⟨rc, none⟩
  | .disconnect => do
    let rc ← mqttDisconnect p fuel
    pure ⟨rc, none⟩
  | .setMessageHandler topicFilter messageHandler => do
    let rc ← mqttSetMessageHandler topicFilter messageHandler
    pure ⟨rc, none⟩

/-- A PUBLISH with this identifier, if its quality of service asks for one. -/
def publishBytes (topicName : CString) (message : MQTTMessage) (id : UInt16) : List UInt8 :=
  frameBytes (publishHeader 0 message.qos (UInt8.ofNat message.retained))
    (publishBody message.qos id topicName.bytes (message.payload.take message.payloadlen))

def subscribeBytes (topicFilter : CString) (qos : ℕ) (id : UInt16) : List UInt8 :=
  frameBytes (subscribeHeader 0)
    (intBytes id.toNat ++ subscribeEntries [MQTTString.ofCString topicFilter] [qos])

def unsubscribeBytes (topicFilter : CString) (id : UInt16) : List UInt8 :=
  frameBytes (unsubscribeHeader 0)
    (intBytes id.toNat ++ unsubscribeEntries [MQTTString.ofCString topicFilter])

def connectBytes (options : ConnectData) : List UInt8 := frameBytes connectHeader options.body

def disconnectBytes : List UInt8 :=
  frameBytes (MQTTHeader.ofBits MsgType.disconnect.code 0 0 0) []

namespace Call

/-- The packet the call sends, with the identifier it takes. -/
def packet (id : UInt16) : Call H → Option (List UInt8)
  | connect options => some (connectBytes (options.getD connectDataInitializer))
  | publish topicName message => some (publishBytes topicName message id)
  | subscribe topicFilter qos _ => some (subscribeBytes topicFilter qos id)
  | unsubscribe topicFilter => some (unsubscribeBytes topicFilter id)
  | disconnect => some disconnectBytes
  | yield _ | setMessageHandler .. => none

/-- The type of the packet that ends the call. -/
def awaited : Call H → Option MsgType
  | connect _ => some .connack
  | publish _ message =>
    if message.qos = 1 then some .puback else if message.qos = 2 then some .pubcomp else none
  | subscribe .. => some .suback
  | unsubscribe _ => some .unsuback
  | yield _ | disconnect | setMessageHandler .. => none

/-- The arguments make an MQTT packet: strings have at most 65535 bytes, the payload
can be read, the quality of service is one of the three. -/
def Legal : Call H → Prop
  | connect options => (options.getD connectDataInitializer).Legal
  | publish topicName message => topicName.bytes.length < 65536 ∧ message.qos ≤ 2 ∧
      message.payloadlen ≤ message.payload.length ∧
      mqttSerializePublishLength message.qos (MQTTString.ofCString topicName)
        message.payloadlen ≤ maxRemainingLength
  | subscribe topicFilter _ _ | unsubscribe topicFilter => topicFilter.bytes.length < 65536
  | yield _ | disconnect | setMessageHandler .. => True

end Call

theorem oneForm_ofCString (s : CString) : (MQTTString.ofCString s).OneForm :=
  ⟨fun _ => rfl, Nat.zero_le _⟩

theorem writes_publish {topicName : CString} {message : MQTTMessage}
    (h : (Call.publish topicName message : Call H).Legal) (id : UInt16) :
    Writes (fun buf => mqttSerializePublish buf 0 message.qos (UInt8.ofNat message.retained) id
      (MQTTString.ofCString topicName) message.payload message.payloadlen)
      (publishBytes topicName message id) :=
  writes_of_eq fun buf => mqttSerializePublish_eq buf (oneForm_ofCString topicName) h.2.2.1
    (lt_of_le_maxRemainingLength h.2.2.2)

theorem writes_subscribe {topicFilter : CString} (h : topicFilter.bytes.length < 65536) (qos : ℕ)
    (id : UInt16) : Writes (fun buf =>
      mqttSerializeSubscribe buf 0 id [MQTTString.ofCString topicFilter] [qos])
      (subscribeBytes topicFilter qos id) := by
  refine writes_of_eq fun buf => mqttSerializeSubscribe_eq buf ?_ le_rfl ?_
  · exact fun filter hfilter => List.mem_singleton.mp hfilter ▸ oneForm_ofCString topicFilter
  · change 2 + (2 + topicFilter.bytes.length + 1) < 2 ^ 31
    omega

theorem writes_unsubscribe {topicFilter : CString} (h : topicFilter.bytes.length < 65536)
    (id : UInt16) : Writes (fun buf =>
      mqttSerializeUnsubscribe buf 0 id [MQTTString.ofCString topicFilter])
      (unsubscribeBytes topicFilter id) := by
  refine writes_of_eq fun buf => mqttSerializeUnsubscribe_eq buf ?_ ?_
  · exact fun filter hfilter => List.mem_singleton.mp hfilter ▸ oneForm_ofCString topicFilter
  · change 2 + (2 + topicFilter.bytes.length) < 2 ^ 31
    omega

theorem writes_connect {options : ConnectData} (h : options.Legal) :
    Writes (fun buf => mqttSerializeConnect buf options) (connectBytes options) := by
  obtain ⟨hone, hversion, hlen⟩ := h
  rw [ConnectData.length_body hone hversion] at hlen
  exact writes_of_eq fun buf =>
    mqttSerializeConnect_eq buf hone hversion (lt_of_le_maxRemainingLength hlen)

theorem writes_disconnect : Writes mqttSerializeDisconnect disconnectBytes :=
  writes_of_eq fun buf => mqttSerializeZero_eq buf _

theorem failure_ne_success : failure ≠ success := by decide

theorem length_frameBytes_pos (header : UInt8) (body : List UInt8) :
    0 < (frameBytes header body).length := by
  simp [frameBytes]

section Conduct

variable {env : PacketEnv ν τ H β} {s t u : Client (PacketWorld ν H β) τ H}
  {asks : List (List UInt8)} {evs : List (Event H β)} {rc : ℤ} {awaited : Option MsgType}

/-- A call has done so much and returns `rc`. When that is success nothing is owed,
and the packet it waited for is the last that was received. -/
structure Ends (s t : Client (PacketWorld ν H β) τ H) (rc : ℤ) (asks : List (List UInt8))
    (evs : List (Event H β)) (awaited : Option MsgType) : Prop where
  did : ∃ d, Did s t asks evs d
  settled : rc = success → Did s t asks evs .idle ∧ t.world.reading = [] ∧
    ∀ packetType ∈ awaited, LastReceived evs packetType.code

namespace Ends

theorem failed (h : ∃ d, Did s t asks evs d) (hrc : rc ≠ success) : Ends s t rc asks evs awaited :=
  ⟨h, fun h => absurd h hrc⟩

theorem of_rests (h : Rests s t asks evs)
    (hawaited : ∀ packetType ∈ awaited, LastReceived evs packetType.code) :
    Ends s t rc asks evs awaited :=
  ⟨⟨_, h.did⟩, fun _ => ⟨h.did, h.reading, hawaited⟩⟩

theorem after {asks' : List (List UInt8)} {evs' : List (Event H β)} (h : Rests s t asks evs)
    (h' : Ends t u rc asks' evs' awaited) : Ends s u rc (asks ++ asks') (evs ++ evs') awaited := by
  obtain ⟨⟨d, hdid⟩, hsettled⟩ := h'
  refine ⟨⟨d, h.did_trans hdid⟩, fun hrc => ?_⟩
  obtain ⟨hdid', hreading, hlast⟩ := hsettled hrc
  exact ⟨h.did_trans hdid', hreading, fun packetType hp => (hlast packetType hp).append evs⟩

theorem same_world (h : Ends s t rc asks evs awaited) (hworld : u.world = t.world)
    (hlen : u.client.readbuf.length = t.client.readbuf.length) : Ends s u rc asks evs awaited := by
  obtain ⟨⟨d, hdid⟩, hsettled⟩ := h
  refine ⟨⟨d, hdid.same_world hworld hlen⟩, fun hrc => ?_⟩
  obtain ⟨hdid', hreading, hlast⟩ := hsettled hrc
  exact ⟨hdid'.same_world hworld hlen, hworld ▸ hreading, hlast⟩

end Ends

variable (fuel : ℕ) {timer : τ}

theorem await_conduct {α : Type} (rcOf : α → ℤ) (packetType : MsgType)
    {got : Prog (Client (PacketWorld ν H β) τ H) α} {missed : α} (hmissed : rcOf missed ≠ success)
    (hgot : ∀ t, wp got (fun _ u => u.world = t.world ∧
      u.client.readbuf.length = t.client.readbuf.length) (fun _ _ => True) t)
    (hreading : s.world.reading = []) :
    wp (do
        let rc ← waitfor env.platform fuel packetType timer
        if rc = packetType.code then got else pure missed)
      (fun a t => ∃ evs : List (Event H β), Ends s t (rcOf a) [] evs (some packetType))
      (fun _ _ => True) s := by
  rw [wp_bind]
  apply wp_imp (waitfor_conduct fuel packetType hreading)
  rintro rc t ⟨evs, d, hdid, hdone⟩
  rw [wp_ite, wp_pure]
  refine ⟨fun hrc => ?_, fun _ => ⟨evs, .failed ⟨d, hdid⟩ hmissed⟩⟩
  apply wp_imp (hgot t)
  rintro a u ⟨hworld, hlen⟩
  obtain ⟨hrest, hlast⟩ := hdone hrc
  refine ⟨evs, Ends.same_world (.of_rests hrest fun type htype => ?_) hworld hlen⟩
  cases htype
  exact hlast

theorem request_conduct {α : Type} (rcOf : α → ℤ) (Q : α → Prop)
    {f : List UInt8 → Option (ℤ × List UInt8)} {header : UInt8} {body : List UInt8}
    (hf : Writes f (frameBytes header body)) {short : α} {refused : ℤ → α}
    {next : Prog (Client (PacketWorld ν H β) τ H) α}
    (hshort : rcOf short ≠ success) (hrefused : ∀ rc, rc ≠ success → rcOf (refused rc) ≠ success)
    (hreading : s.world.reading = [])
    (hnext : ∀ t : Client (PacketWorld ν H β) τ H, t.world.reading = [] → wp next
      (fun a u => Q a ∧ ∃ evs : List (Event H β), Ends t u (rcOf a) [] evs awaited)
      (fun _ _ => True) t) :
    wp (do
        let len ← serialize f
        if len ≤ 0 then pure short
        else
          let rc ← sendPacket env.platform fuel len.toNat timer
          if rc ≠ success then pure (refused rc) else next)
      (fun a u => ∃ (asks : List (List UInt8)) (evs : List (Event H β)),
        asks <+: [frameBytes header body] ∧ Ends s u (rcOf a) asks evs awaited ∧
        (rcOf a = success → asks = [frameBytes header body] ∧ Q a))
      (fun _ _ => True) s := by
  have hpos := length_frameBytes_pos header body
  have hstart := Rests.refl hreading
  rw [wp_bind]
  apply wp_imp (serialize_conduct hf)
  rintro len t ⟨hlike, hworld, hlen | ⟨rfl, hbuf⟩⟩
  · rw [if_pos hlen.le, wp_pure]
    exact ⟨[], [], List.nil_prefix, .failed ⟨_, (hstart.alike hlike (by rw [hworld])).did⟩ hshort,
      fun h => absurd h hshort⟩
  · have hwritten := hstart.alike hlike (by rw [hworld])
    rw [if_neg (by omega), wp_bind]
    apply wp_imp (sendPacket_conduct fuel (by simpa using hpos))
    rintro rc u ⟨hlike', -, notes, ⟨rfl, htrace⟩ | ⟨rfl, htrace⟩⟩
    · rw [Int.toNat_natCast, hbuf] at htrace
      have hsent : Rests t u [frameBytes header body]
          (notes.map .note ++ [.sent (frameBytes header body)]) :=
        hlike'.rests hwritten.reading htrace (.after_notes notes (.asked .done))
      rw [if_neg (by simp)]
      apply wp_imp (hnext u hsent.reading)
      rintro a v ⟨hQ, evs, hends⟩
      exact ⟨_, _, List.prefix_rfl, .after (hwritten.trans hsent) hends, fun _ => ⟨rfl, hQ⟩⟩
    · have hrefusal : Rests t u [] (notes.map .note) :=
        hlike'.rests hwritten.reading htrace (.notes notes)
      have hbad := hrefused failure (by decide)
      rw [if_pos (by decide), wp_pure]
      exact ⟨[], _, List.nil_prefix, .failed ⟨_, (hwritten.trans hrefusal).did⟩ hbad,
        fun h => absurd h hbad⟩

/-- What a call has done when it returns `reply`. -/
structure Performed (call : Call H) (reply : Reply) (s t : Client (PacketWorld ν H β) τ H)
    (id : UInt16) (asks : List (List UInt8)) (evs : List (Event H β)) : Prop where
  ends : Ends s t reply.rc asks evs call.awaited
  sends : asks <+: (call.packet id).toList
  complete : reply.rc = success → asks = (call.packet id).toList
  numbered : ∀ topicName message, call = .publish topicName message → 0 < message.qos →
    reply.rc = success → reply.id = some id

theorem closeOnFailure_conduct (rc : ℤ) :
    wp (closeOnFailure rc : Prog (Client (PacketWorld ν H β) τ H) PUnit)
      (fun _ t => t.world = s.world ∧ t.client.readbuf.length = s.client.readbuf.length)
      (fun _ _ => True) s := by
  unfold closeOnFailure
  rw [wp_ite]
  exact ⟨fun _ => mqttCloseSession_conduct, fun _ => ⟨rfl, rfl⟩⟩

theorem getNextPacketId_conduct :
    wp (getNextPacketId : Prog (Client (PacketWorld ν H β) τ H) UInt16)
      (fun _ t => Alike s t ∧ t.world = s.world) (fun _ _ => True) s :=
  ⟨⟨rfl, rfl, rfl, rfl⟩, rfl⟩

theorem numberMessage_conduct (message : MQTTMessage) :
    wp (numberMessage message : Prog (Client (PacketWorld ν H β) τ H) MQTTMessage)
      (fun message' t => Alike s t ∧ t.world = s.world ∧
        (∃ id, message' = { message with id := id }) ∧
        (message.qos = 1 ∨ message.qos = 2 → message'.id = some (message'.id.getD 0)))
      (fun _ _ => True) s := by
  unfold numberMessage
  rw [wp_ite, wp_bind]
  refine ⟨fun _ => ?_, fun h => ⟨Alike.refl s, rfl, ⟨message.id, rfl⟩, fun h' => absurd h' h⟩⟩
  apply wp_imp getNextPacketId_conduct
  rintro id t ⟨hlike, hworld⟩
  exact ⟨hlike, hworld, ⟨some id, rfl⟩, fun _ => rfl⟩

theorem awaitAck_conduct (packetType : MsgType) (hreading : s.world.reading = []) :
    wp (awaitAck env.platform fuel packetType timer)
      (fun rc t => ∃ evs : List (Event H β), Ends s t rc [] evs (some packetType))
      (fun _ _ => True) s := by
  refine await_conduct fuel id packetType failure_ne_success (fun t => ?_) hreading
  rw [wp_bind, wp_getClient, wp_bind]
  cases mqttDeserializeAck t.client.readbuf with
  | none => trivial
  | some result => exact ⟨rfl, rfl⟩

theorem awaitPublished_conduct (message : MQTTMessage) (hqos : message.qos ≤ 2)
    (hreading : s.world.reading = []) :
    wp (do
        let rc ← awaitPublished env.platform fuel message.qos timer
        pure (rc, message))
      (fun result t => result.2 = message ∧ ∃ evs : List (Event H β), Ends s t result.1 [] evs
        (if message.qos = 1 then some .puback else if message.qos = 2 then some .pubcomp else none))
      (fun _ _ => True) s := by
  rw [wp_bind, awaitPublished]
  obtain hzero | hone | htwo : message.qos = 0 ∨ message.qos = 1 ∨ message.qos = 2 := by omega
  · simp only [hzero, zero_ne_one, OfNat.zero_ne_ofNat, if_false, wp_pure]
    exact ⟨trivial, [], .of_rests (.refl hreading) (by simp)⟩
  · simp only [hone, if_true, wp_pure, true_and]
    exact awaitAck_conduct fuel .puback hreading
  · simp only [htwo, OfNat.ofNat_ne_one, if_false, if_true, wp_pure, true_and]
    exact awaitAck_conduct fuel .pubcomp hreading

theorem publishExchange_conduct {topicName : CString} {message : MQTTMessage}
    (hlegal : (Call.publish topicName message : Call H).Legal) (hreading : s.world.reading = []) :
    wp (publishExchange env.platform fuel topicName message)
      (fun result t => ∃ id asks evs,
        Performed (.publish topicName message) ⟨result.1, result.2.id⟩ s t id asks evs)
      (fun _ _ => True) s := by
  have hstart := Rests.refl hreading
  unfold publishExchange
  rw [wp_bind, wp_getClient, wp_ite, wp_pure, wp_bind]
  refine ⟨fun _ => ?_, fun _ => ⟨0, [], [], .failed ⟨_, hstart.did⟩ failure_ne_success,
    List.nil_prefix, fun h => absurd h failure_ne_success,
    fun _ _ _ _ h => absurd h failure_ne_success⟩⟩
  apply wp_imp (newTimer_conduct _)
  rintro timer t ⟨hlike, -, htrace⟩
  rw [wp_bind]
  apply wp_imp (numberMessage_conduct message)
  rintro _ u ⟨hlike', hworld, ⟨number, rfl⟩, hnumber⟩
  have hnumbered := hstart.alike (hlike.trans hlike') (by rw [hworld, htrace])
  have hwrites : Writes _ (publishBytes topicName { message with id := number } (number.getD 0)) :=
    writes_publish (H := H) hlegal (number.getD 0)
  apply wp_imp (request_conduct fuel Prod.fst
    (fun result => result.2 = { message with id := number }) hwrites failure_ne_success
    (fun _ => id) hnumbered.reading fun v hv =>
      awaitPublished_conduct fuel _ (by exact hlegal.2.1) hv)
  rintro result v ⟨asks, evs, hasks, hends, hdone⟩
  refine ⟨number.getD 0, asks, evs, .after hnumbered hends, hasks, fun h => (hdone h).1, ?_⟩
  rintro _ _ ⟨⟩ hpos hrc
  obtain ⟨-, hqos, -⟩ := hlegal
  rw [(hdone hrc).2]
  exact hnumber (by omega)

theorem mqttPublish_conduct {topicName : CString} {message : MQTTMessage}
    (hlegal : (Call.publish topicName message : Call H).Legal) (hreading : s.world.reading = []) :
    wp (perform env.platform fuel (.publish topicName message))
      (fun reply t => ∃ id asks evs, Performed (.publish topicName message) reply s t id asks evs)
      (fun _ _ => True) s := by
  rw [perform, wp_bind, mqttPublish, wp_bind]
  apply wp_imp (publishExchange_conduct fuel hlegal hreading)
  rintro result t ⟨id, asks, evs, hdone⟩
  rw [wp_bind]
  apply wp_imp (closeOnFailure_conduct result.1)
  rintro _ u ⟨hworld, hlen⟩
  exact ⟨id, asks, evs, { hdone with ends := hdone.ends.same_world hworld hlen }⟩

theorem mqttSetMessageHandler_conduct (topicFilter : CString) (messageHandler : Option H) :
    wp (mqttSetMessageHandler topicFilter messageHandler : Prog (Client (PacketWorld ν H β) τ H) ℤ)
      (fun _ t => t.world = s.world ∧ t.client.readbuf.length = s.client.readbuf.length)
      (fun _ _ => True) s :=
  ⟨rfl, rfl⟩

theorem awaitSuback_conduct (topicFilter : CString) (messageHandler : Option H) (data : ℤ)
    (hreading : s.world.reading = []) :
    wp (awaitSuback env.platform fuel topicFilter messageHandler timer data)
      (fun result t => ∃ evs : List (Event H β), Ends s t result.1 [] evs (some .suback))
      (fun _ _ => True) s := by
  refine await_conduct fuel Prod.fst .suback failure_ne_success (fun t => ?_) hreading
  rw [wp_bind, wp_getClient, wp_bind]
  cases mqttDeserializeSuback t.client.readbuf 1 1 with
  | none => trivial
  | some result =>
    simp only [ofOption_some, wp_pure, wp_ite, wp_bind]
    exact ⟨fun _ => mqttSetMessageHandler_conduct topicFilter messageHandler,
      fun _ => ⟨trivial, trivial⟩⟩

theorem awaitUnsuback_conduct (topicFilter : CString) (hreading : s.world.reading = []) :
    wp (awaitUnsuback env.platform fuel topicFilter timer)
      (fun rc t => ∃ evs : List (Event H β), Ends s t rc [] evs (some .unsuback))
      (fun _ _ => True) s := by
  refine await_conduct fuel id .unsuback failure_ne_success (fun t => ?_) hreading
  rw [wp_bind, wp_getClient, wp_bind]
  cases mqttDeserializeUnsuback t.client.readbuf with
  | none => trivial
  | some result =>
    simp only [ofOption_some, wp_pure, wp_ite, wp_bind]
    exact ⟨fun _ => mqttSetMessageHandler_conduct topicFilter none, fun _ => ⟨trivial, trivial⟩⟩

theorem awaitConnack_conduct (data : ConnackFields) (hreading : s.world.reading = []) :
    wp (awaitConnack env.platform fuel timer data)
      (fun result t => ∃ evs : List (Event H β), Ends s t result.1 [] evs (some .connack))
      (fun _ _ => True) s := by
  refine await_conduct fuel Prod.fst .connack failure_ne_success (fun t => ?_) hreading
  rw [wp_bind, wp_getClient, wp_bind]
  cases mqttDeserializeConnack t.client.readbuf with
  | none => trivial
  | some result => exact ⟨rfl, rfl⟩

theorem numberedRequest_conduct {α : Type} (rcOf : α → ℤ) (call : Call H)
    {f : UInt16 → List UInt8 → Option (ℤ × List UInt8)} {header : UInt8}
    {body : UInt16 → List UInt8} (hf : ∀ id, Writes (f id) (frameBytes header (body id)))
    (hpacket : ∀ id, call.packet id = some (frameBytes header (body id)))
    (hcall : ∀ topicName message, call ≠ .publish topicName message)
    {short : α} {refused : ℤ → α} {next : τ → Prog (Client (PacketWorld ν H β) τ H) α}
    (hshort : rcOf short ≠ success) (hrefused : ∀ rc, rc ≠ success → rcOf (refused rc) ≠ success)
    (hreading : s.world.reading = [])
    (hnext : ∀ (timer : τ) (t : Client (PacketWorld ν H β) τ H), t.world.reading = [] →
      wp (next timer) (fun a u => ∃ evs : List (Event H β), Ends t u (rcOf a) [] evs call.awaited)
        (fun _ _ => True) t) :
    wp (do
        let c ← getClient
        if c.isconnected then
          let timer ← newTimer env.platform c.commandTimeoutMs
          let id ← getNextPacketId
          let len ← serialize (f id)
          if len ≤ 0 then pure short
          else
            let rc ← sendPacket env.platform fuel len.toNat timer
            if rc ≠ success then pure (refused rc) else next timer
        else pure short)
      (fun a t => ∃ id asks evs, Performed call ⟨rcOf a, none⟩ s t id asks evs)
      (fun _ _ => True) s := by
  have hstart := Rests.refl hreading
  rw [wp_bind, wp_getClient, wp_ite, wp_pure, wp_bind]
  refine ⟨fun _ => ?_, fun _ => ⟨0, [], [], .failed ⟨_, hstart.did⟩ hshort, List.nil_prefix,
    fun h => absurd h hshort, fun _ _ h => absurd h (hcall _ _)⟩⟩
  apply wp_imp (newTimer_conduct _)
  rintro timer t ⟨hlike, -, htrace⟩
  rw [wp_bind]
  apply wp_imp getNextPacketId_conduct
  rintro id u ⟨hlike', hworld⟩
  have hnumbered := hstart.alike (hlike.trans hlike') (by rw [hworld, htrace])
  apply wp_imp (request_conduct fuel rcOf (fun _ => True) (hf id) hshort hrefused
    hnumbered.reading fun v hv => wp_imp (hnext timer v hv) fun _ _ h => ⟨trivial, h⟩)
  rintro result v ⟨asks, evs, hasks, hends, hdone⟩
  refine ⟨id, asks, evs, .after hnumbered hends, ?_, fun h => ?_, fun _ _ h => absurd h (hcall _ _)⟩
  · rwa [hpacket]
  · rw [hpacket]
    exact (hdone h).1

theorem mqttSubscribe_conduct {topicFilter : CString} {qos : ℕ} {messageHandler : Option H}
    (hlegal : topicFilter.bytes.length < 65536) (hreading : s.world.reading = []) :
    wp (perform env.platform fuel (.subscribe topicFilter qos messageHandler))
      (fun reply t => ∃ id asks evs,
        Performed (.subscribe topicFilter qos messageHandler) reply s t id asks evs)
      (fun _ _ => True) s := by
  rw [perform, wp_bind, mqttSubscribe, wp_bind, mqttSubscribeWithResults, wp_bind]
  apply wp_imp (numberedRequest_conduct fuel Prod.fst
    (.subscribe topicFilter qos messageHandler) (writes_subscribe hlegal qos)
    (fun _ => rfl) (fun _ _ h => by cases h) failure_ne_success (fun _ h => h) hreading
    fun timer t ht => awaitSuback_conduct fuel topicFilter messageHandler 0 ht)
  rintro result t ⟨id, asks, evs, hdone⟩
  rw [wp_bind]
  apply wp_imp (closeOnFailure_conduct result.1)
  rintro _ u ⟨hworld, hlen⟩
  exact ⟨id, asks, evs, { hdone with ends := hdone.ends.same_world hworld hlen }⟩

theorem mqttUnsubscribe_conduct {topicFilter : CString}
    (hlegal : topicFilter.bytes.length < 65536) (hreading : s.world.reading = []) :
    wp (perform env.platform fuel (.unsubscribe topicFilter))
      (fun reply t => ∃ id asks evs, Performed (.unsubscribe topicFilter) reply s t id asks evs)
      (fun _ _ => True) s := by
  rw [perform, wp_bind, mqttUnsubscribe, wp_bind]
  apply wp_imp (numberedRequest_conduct fuel id (.unsubscribe topicFilter)
    (writes_unsubscribe hlegal) (fun _ => rfl) (fun _ _ h => by cases h) failure_ne_success
    (fun _ h => h) hreading fun timer t ht => awaitUnsuback_conduct fuel topicFilter ht)
  rintro rc t ⟨id, asks, evs, hdone⟩
  rw [wp_bind]
  apply wp_imp (closeOnFailure_conduct rc)
  rintro _ u ⟨hworld, hlen⟩
  exact ⟨id, asks, evs, { hdone with ends := hdone.ends.same_world hworld hlen }⟩

theorem connectExchange_conduct {options : ConnectData} (hlegal : options.Legal)
    (data : ConnackFields) (hreading : s.world.reading = []) :
    wp (connectExchange env.platform fuel options data)
      (fun result t => ∃ asks evs, asks <+: [connectBytes options] ∧
        Ends s t result.1 asks evs (some .connack) ∧
        (result.1 = success → asks = [connectBytes options]))
      (fun _ _ => True) s := by
  have hstart := Rests.refl hreading
  unfold connectExchange
  rw [wp_bind, wp_getClient, wp_ite, wp_pure, wp_bind]
  refine ⟨fun _ => ⟨[], [], List.nil_prefix, .failed ⟨_, hstart.did⟩ failure_ne_success,
    fun h => absurd h failure_ne_success⟩, fun _ => ?_⟩
  apply wp_imp (newTimer_conduct _)
  rintro timer t ⟨hlike, -, htrace⟩
  rw [wp_bind, wp_modifyClient, wp_bind, wp_getClient, wp_bind, wp_ask, wp_bind, wp_modifyClient]
  have hset := hstart.alike hlike htrace
  generalize hstate : ({ client := _, own := _, world := _ } : Client (PacketWorld ν H β) τ H) = u
  have hready : Rests s u [] [] := by
    rw [← hstate]
    exact hset.alike ⟨rfl, rfl, rfl, rfl⟩ rfl
  apply wp_imp (request_conduct fuel Prod.fst (fun _ => True) (writes_connect hlegal)
    failure_ne_success (fun _ h => h) hready.reading
    fun v hv => wp_imp (awaitConnack_conduct fuel data hv) fun _ _ h => ⟨trivial, h⟩)
  rintro result v ⟨asks, evs, hasks, hends, hdone⟩
  exact ⟨asks, evs, hasks, .after hready hends, fun h => (hdone h).1⟩

theorem mqttConnect_conduct {options : Option ConnectData}
    (hlegal : (options.getD connectDataInitializer).Legal) (hreading : s.world.reading = []) :
    wp (perform env.platform fuel (.connect options))
      (fun reply t => ∃ id asks evs, Performed (.connect options) reply s t id asks evs)
      (fun _ _ => True) s := by
  rw [perform, wp_bind, mqttConnect, wp_bind, mqttConnectWithResults, wp_bind]
  apply wp_imp (connectExchange_conduct fuel hlegal _ hreading)
  rintro result t ⟨asks, evs, hasks, hends, hdone⟩
  have hperformed (u : Client (PacketWorld ν H β) τ H) (hu : Ends s u result.1 asks evs _) :
      Performed (.connect options) ⟨result.1, none⟩ s u 0 asks evs :=
    ⟨hu, hasks, hdone, fun _ _ h => by cases h⟩
  simp only [wp_ite, wp_bind, wp_modifyClient, wp_pure]
  exact ⟨fun _ => ⟨0, asks, evs, hperformed _ (hends.same_world rfl rfl)⟩,
    fun _ => ⟨0, asks, evs, hperformed _ hends⟩⟩

theorem mqttYield_conduct (timeoutMs : ℕ) (hreading : s.world.reading = []) :
    wp (perform env.platform fuel (.yield timeoutMs))
      (fun reply t => ∃ id asks evs, Performed (.yield timeoutMs) reply s t id asks evs)
      (fun _ _ => True) s := by
  rw [perform, wp_bind, mqttYield, wp_bind]
  apply wp_imp (newTimer_conduct _)
  rintro timer t ⟨hlike, -, htrace⟩
  have hready := (Rests.refl hreading).alike hlike htrace
  apply wp_imp (yieldLoop_conduct fuel hready.reading)
  rintro rc u ⟨evs, d, hdid, hgood⟩
  refine ⟨0, [], evs, ⟨⟨d, hready.did_trans hdid⟩, fun h => ?_⟩, List.nil_prefix, fun _ => rfl,
    fun _ _ h => by cases h⟩
  have hrest := hready.trans (hgood h)
  exact ⟨hrest.did, hrest.reading, fun _ h => by cases h⟩

theorem mqttDisconnect_conduct (hreading : s.world.reading = []) :
    wp (perform env.platform fuel .disconnect)
      (fun reply t => ∃ id asks evs, Performed .disconnect reply s t id asks evs)
      (fun _ _ => True) s := by
  have hstart := Rests.refl hreading
  have hperformed {rc : ℤ} {asks : List (List UInt8)} {t u : Client (PacketWorld ν H β) τ H}
      {evs : List (Event H β)} (h : Rests s t asks evs) (hasks : asks <+: [disconnectBytes])
      (hdone : rc = success → asks = [disconnectBytes]) (hworld : u.world = t.world)
      (hlen : u.client.readbuf.length = t.client.readbuf.length) :
      ∃ id asks evs, Performed .disconnect ⟨rc, none⟩ s u id asks evs :=
    ⟨0, asks, evs, .same_world (.of_rests h fun _ h => by cases h) hworld hlen, hasks, hdone,
      fun _ _ h => by cases h⟩
  rw [perform, wp_bind, mqttDisconnect, wp_bind, wp_getClient, wp_bind]
  apply wp_imp (newTimer_conduct _)
  rintro timer t ⟨hlike, -, htrace⟩
  have hready := hstart.alike hlike htrace
  rw [wp_bind]
  apply wp_imp (serialize_conduct writes_disconnect)
  rintro len u ⟨hlike', hworld, hlen | ⟨rfl, hbuf⟩⟩
  · have hrest := hready.alike hlike' (by rw [hworld])
    rw [if_neg (by omega), wp_bind]
    apply wp_imp mqttCloseSession_conduct
    rintro _ v ⟨hworld', hlen'⟩
    exact hperformed hrest List.nil_prefix (fun h => absurd h failure_ne_success) hworld' hlen'
  · have hrest := hready.alike hlike' (by rw [hworld])
    rw [if_pos (by decide), wp_bind]
    apply wp_imp (sendPacket_conduct fuel (by decide))
    rintro rc v ⟨hlike'', -, notes, hsent⟩
    rw [wp_bind]
    apply wp_imp mqttCloseSession_conduct
    rintro _ x ⟨hworld', hlen'⟩
    rw [Int.toNat_natCast, hbuf] at hsent
    rcases hsent with ⟨rfl, htrace'⟩ | ⟨rfl, htrace'⟩
    · have hv : Rests u v [disconnectBytes] (notes.map .note ++ [.sent disconnectBytes]) :=
        hlike''.rests hrest.reading htrace' (.after_notes notes (.asked .done))
      exact hperformed (hrest.trans hv) List.prefix_rfl (fun _ => rfl) hworld' hlen'
    · have hv : Rests u v [] (notes.map .note) :=
        hlike''.rests hrest.reading htrace' (.notes notes)
      exact hperformed (hrest.trans hv) List.nil_prefix (fun h => absurd h failure_ne_success)
        hworld' hlen'

/-- What any call does. -/
theorem perform_conduct {call : Call H} (hlegal : call.Legal) (hreading : s.world.reading = []) :
    wp (perform env.platform fuel call)
      (fun reply t => ∃ id asks evs, Performed call reply s t id asks evs)
      (fun _ _ => True) s := by
  cases call with
  | connect options => exact mqttConnect_conduct fuel hlegal hreading
  | publish topicName message => exact mqttPublish_conduct fuel hlegal hreading
  | subscribe topicFilter qos messageHandler => exact mqttSubscribe_conduct fuel hlegal hreading
  | unsubscribe topicFilter => exact mqttUnsubscribe_conduct fuel hlegal hreading
  | yield timeoutMs => exact mqttYield_conduct fuel timeoutMs hreading
  | disconnect => exact mqttDisconnect_conduct fuel hreading
  | setMessageHandler topicFilter messageHandler =>
    have hrest := Rests.refl hreading
    rw [perform, wp_bind]
    apply wp_imp (mqttSetMessageHandler_conduct topicFilter messageHandler)
    rintro rc t ⟨hworld, hlen⟩
    exact ⟨0, [], [], .same_world (.of_rests hrest fun _ h => by cases h) hworld hlen,
      List.nil_prefix, fun _ => rfl, fun _ _ h => by cases h⟩

end Conduct
end MqttEmbedded.ClientC
