import MqttEmbedded.Lib.Lockstep
import MqttEmbedded.Client.Cycle

/-!
# One client on two platforms

A client knows its platform by the answers alone. On two platforms that answer alike it does
the same, whatever their worlds are made of.
-/

namespace MqttEmbedded

open Region Hoare

variable {χ ω ω' τ H α β : Type} {W : ω → ω' → Prop} {size : ℕ}

/-- Asked in related worlds, both give the same answer and leave related worlds. -/
def AnswersAlike (W : ω → ω' → Prop) (f : ω → α × ω) (g : ω' → α × ω') : Prop :=
  ∀ w w', W w w' → (g w').1 = (f w).1 ∧ W (f w).2 (g w').2

/-- The platforms answer alike, as far as they are not read from. -/
structure Platform.Alike (p : Platform ω τ H) (p' : Platform ω' τ H) (W : ω → ω' → Prop) :
    Prop where
  mqttwrite : ∀ buffer len timeout,
    AnswersAlike W (p.mqttwrite buffer len timeout) (p'.mqttwrite buffer len timeout)
  timerInit : AnswersAlike W p.timerInit p'.timerInit
  timerIsExpired : ∀ timer, AnswersAlike W (p.timerIsExpired timer) (p'.timerIsExpired timer)
  timerCountdownMS : ∀ timer ms,
    AnswersAlike W (p.timerCountdownMS timer ms) (p'.timerCountdownMS timer ms)
  timerCountdown : ∀ timer seconds,
    AnswersAlike W (p.timerCountdown timer seconds) (p'.timerCountdown timer seconds)
  timerLeftMS : ∀ timer, AnswersAlike W (p.timerLeftMS timer) (p'.timerLeftMS timer)
  invoke : ∀ fp md w w', W w w' → W (p.invoke fp md w) (p'.invoke fp md w')

/-- The same client in related worlds, with `size` bytes of receive buffer. -/
structure Together (W : ω → ω' → Prop) (size : ℕ) (s : Session χ ω τ H) (s' : Session χ ω' τ H) :
    Prop where
  client : s'.client = s.client
  own : s'.own = s.own
  world : W s.world s'.world
  size : s.client.readbuf.length = size

/-- Started together the programs end alike, and together. -/
def Parallel (W : ω → ω' → Prop) (size : ℕ) (x : Prog (Session χ ω τ H) α)
    (y : Prog (Session χ ω' τ H) α) : Prop :=
  Lockstep (Together W size) (fun _ => Together W size) (Together W size) x y

theorem length_encodeLoop {rounds n : ℕ} {ptr ptr' : Ptr}
    (h : encodeLoop rounds n ptr = some ptr') : ptr'.cells.length = ptr.cells.length := by
  induction rounds generalizing n ptr with
  | zero => rw [← Option.some.inj h]
  | succ rounds ih =>
    rw [encodeLoop] at h
    obtain ⟨next, hnext, hrest⟩ := Option.bind_eq_some_iff.mp h
    obtain ⟨hroom, hcells, -⟩ := Cursor.put_eq_some_iff.mp hnext
    have hlen : next.cells.length = ptr.cells.length := by rw [hcells, length_overwrite hroom]
    split_ifs at hrest
    · exact (ih hrest).trans hlen
    · rw [← Option.some.inj hrest, hlen]

theorem length_encodeAt {buf buf' : List UInt8} {position length n : ℕ}
    (h : encodeAt buf position length = some (n, buf')) : buf'.length = buf.length := by
  unfold encodeAt at h
  split_ifs at h
  obtain ⟨ptr, hptr, heq⟩ := Option.map_eq_some_iff.mp h
  rw [← (Prod.mk.inj heq).2]
  exact length_encodeLoop hptr

namespace Parallel

variable {x x' : Prog (Session χ ω τ H) α} {y y' : Prog (Session χ ω' τ H) α}

protected theorem pure (a : α) :
    Parallel W size (pure a : Prog (Session χ ω τ H) α) (pure a) := Lockstep.pure fun _ _ h => h

protected theorem throw (e : Fault) :
    Parallel W size (throw e : Prog (Session χ ω τ H) α) (throw e) := fun _ _ h => .error h

protected theorem bind {f : α → Prog (Session χ ω τ H) β} {g : α → Prog (Session χ ω' τ H) β}
    (h : Parallel W size x y) (hf : ∀ a, Parallel W size (f a) (g a)) :
    Parallel W size (x >>= f) (y >>= g) := Lockstep.bind h hf

protected theorem ite {c : Prop} [Decidable c] (h : Parallel W size x y)
    (h' : Parallel W size x' y') :
    Parallel W size (if c then x else x') (if c then y else y') :=
  Lockstep.ite (fun _ => h) fun _ => h'

theorem ask {f : ω → α × ω} {g : ω' → α × ω'} (h : AnswersAlike W f g) :
    Parallel W size (MqttEmbedded.ask f : Prog (Session χ ω τ H) α) (MqttEmbedded.ask g) := by
  intro s s' hs
  obtain ⟨hanswer, hworld⟩ := h s.world s'.world hs.world
  simp only [MqttEmbedded.ask, hanswer]
  exact .ok ⟨hs.client, hs.own, hworld, hs.size⟩

theorem getClient : Parallel W size
    (MqttEmbedded.getClient : Prog (Session χ ω τ H) (MQTTClient τ H)) MqttEmbedded.getClient := by
  intro s s' hs
  simp only [MqttEmbedded.getClient, hs.client]
  exact .ok hs

theorem getOwn : Parallel W size (MqttEmbedded.getOwn : Prog (Session χ ω τ H) χ)
    MqttEmbedded.getOwn := by
  intro s s' hs
  simp only [MqttEmbedded.getOwn, hs.own]
  exact .ok hs

theorem modifyClient {f : MQTTClient τ H → MQTTClient τ H}
    (hf : ∀ c, (f c).readbuf.length = c.readbuf.length) :
    Parallel W size (MqttEmbedded.modifyClient f : Prog (Session χ ω τ H) PUnit)
      (MqttEmbedded.modifyClient f) :=
  fun _ _ hs => .ok ⟨congrArg f hs.client, hs.own, hs.world, (hf _).trans hs.size⟩

theorem modifyOwn (f : χ → χ) :
    Parallel W size (MqttEmbedded.modifyOwn f : Prog (Session χ ω τ H) PUnit)
      (MqttEmbedded.modifyOwn f) :=
  fun _ _ hs => .ok ⟨hs.client, congrArg f hs.own, hs.world, hs.size⟩

theorem ofOption (result : Option α) :
    Parallel W size (MqttEmbedded.ofOption result : Prog (Session χ ω τ H) α)
      (MqttEmbedded.ofOption result) := by
  cases result with
  | none => exact .throw _
  | some a => exact .pure a

theorem serialize (f : List UInt8 → Option (ℤ × List UInt8)) :
    Parallel W size (MqttEmbedded.serialize f : Prog (Session χ ω τ H) ℤ)
      (MqttEmbedded.serialize f) := by
  refine .bind getClient fun c => .bind (ofOption (f c.buf)) fun result => ?_
  exact .bind (modifyClient fun _ => rfl) fun _ => .pure _

end Parallel

variable {p : Platform ω τ H} {p' : Platform ω' τ H}

section Alike

variable (alike : p.Alike p' W)
include alike

theorem newTimer_parallel (ms : ℕ) :
    Parallel W size (newTimer p ms : Prog (Session χ ω τ H) τ) (newTimer p' ms) :=
  .bind (.ask alike.timerInit) fun timer => .ask (alike.timerCountdownMS timer ms)

theorem invoke_parallel (fp : H) (md : MessageData) :
    Parallel W size (invoke p fp md : Prog (Session χ ω τ H) PUnit) (invoke p' fp md) :=
  fun _ _ hs => .ok ⟨hs.client, hs.own, alike.invoke fp md _ _ hs.world, hs.size⟩

theorem recordReceived_parallel : Parallel W size
    (recordReceived p : Prog (Session χ ω τ H) PUnit) (recordReceived p') := by
  refine .bind .getClient fun c => .ite ?_ (.pure _)
  have hcountdown := alike.timerCountdown c.lastReceived c.keepAliveInterval
  exact .bind (.ask hcountdown) fun lastReceived => .modifyClient fun _ => rfl

theorem callHandlers_parallel (md : MessageData) (slots : List (MessageHandler H)) (rc : ℤ) :
    Parallel W size (callHandlers p md slots rc : Prog (Session χ ω τ H) ℤ)
      (callHandlers p' md slots rc) := by
  induction slots generalizing rc with
  | nil => exact .pure rc
  | cons slot slots ih =>
    obtain ⟨topicFilter, fp⟩ := slot
    cases topicFilter with
    | none => exact ih rc
    | some topicFilter =>
      cases fp with
      | none => exact ih rc
      | some fp =>
        refine .ite ?_ (ih rc)
        exact .bind (invoke_parallel alike fp md) fun _ => ih success

theorem deliverMessage_parallel (topicName : MQTTString) (message : MQTTMessage) :
    Parallel W size (deliverMessage p topicName message : Prog (Session χ ω τ H) ℤ)
      (deliverMessage p' topicName message) := by
  refine .bind .getClient fun c => .bind (callHandlers_parallel alike _ _ _) fun rc => ?_
  cases c.defaultMessageHandler with
  | none => exact .pure rc
  | some fp =>
    refine .ite ?_ (.pure rc)
    exact .bind (invoke_parallel alike fp _) fun _ => .pure _

end Alike

/-- They are read from alike, as long as no more than the buffer is asked for. -/
def Platform.ReadAlike (p : Platform ω τ H) (p' : Platform ω' τ H) (W : ω → ω' → Prop)
    (size : ℕ) : Prop :=
  ∀ len timeout, len ≤ max size 1 →
    AnswersAlike W (p.mqttread len timeout) (p'.mqttread len timeout)

theorem encodeIntoReadbuf_parallel (position n : ℕ) : Parallel W size
    (encodeIntoReadbuf position n : Prog (Session χ ω τ H) ℕ) (encodeIntoReadbuf position n) := by
  intro s s' hs
  unfold encodeIntoReadbuf
  rw [getClient_bind, getClient_bind, hs.client]
  cases hencoded : encodeAt s.client.readbuf position n with
  | none => exact .error hs
  | some encoded =>
    refine .ok ⟨?_, hs.own, hs.world, (length_encodeAt hencoded).trans hs.size⟩
    simp only [hs.client]

/-- The same bytes are stored, and what is true of the worlds then may depend on what was
returned. -/
theorem readInto_lockstep {T : ℤ → ω → ω' → Prop} {position count : ℕ} {timeout : ℤ}
    (hread : position + count ≤ size → ∀ w w', W w w' →
      (p'.mqttread count timeout w').1 = (p.mqttread count timeout w).1 ∧
        T (p.mqttread count timeout w).1.rc (p.mqttread count timeout w).2
          (p'.mqttread count timeout w').2) :
    Lockstep (Together W size) (fun rc => Together (T rc) size) (Together W size)
      (readInto p position count timeout : Prog (Session χ ω τ H) ℤ)
      (readInto p' position count timeout) := by
  intro s s' hs
  unfold readInto
  rw [hs.client]
  split_ifs with hroom
  · obtain ⟨hanswer, hworld⟩ := hread (hs.size ▸ hroom) _ _ hs.world
    simp only [hanswer]
    refine .ok ⟨rfl, hs.own, hworld, ?_⟩
    have hfits := (p.mqttread count timeout s.world).1.fits
    exact (length_overwrite (by omega)).trans hs.size
  · exact .error hs

theorem decodePacket_parallel {timeout : ℤ}
    (reads : AnswersAlike W (p.mqttread 1 timeout) (p'.mqttread 1 timeout)) :
    Parallel W size (decodePacket p timeout : Prog (Session χ ω τ H) (ℕ × ℕ))
      (decodePacket p' timeout) := by
  have hloop (room len value multiplier : ℕ) :
      Parallel W size (decodeLoop (ask (p.mqttread 1 timeout) : Prog (Session χ ω τ H) _)
        room len value multiplier)
        (decodeLoop (ask (p'.mqttread 1 timeout)) room len value multiplier) := by
    induction room generalizing len value multiplier with
    | zero => exact .pure _
    | succ room ih =>
      refine .bind (.ask reads) fun c => .ite (.pure _) ?_
      exact .ite (ih _ _ _) (.pure _)
  exact hloop 4 0 0 1

section Reading

variable (reads : p.ReadAlike p' W size)
include reads

theorem readInto_parallel (position count : ℕ) (timeout : ℤ) :
    Parallel W size (readInto p position count timeout : Prog (Session χ ω τ H) ℤ)
      (readInto p' position count timeout) :=
  readInto_lockstep fun hroom => reads count timeout (by omega)

variable (alike : p.Alike p' W)
include alike

theorem readBody_parallel (len remLen : ℕ) (timer : τ) : Parallel W size
    (readBody p len remLen timer : Prog (Session χ ω τ H) Bool) (readBody p' len remLen timer) := by
  refine .ite (.pure true) (.bind (.ask (alike.timerLeftMS timer)) fun left => ?_)
  exact .bind (readInto_parallel reads len remLen left) fun rc => .pure _

theorem readRemaining_parallel (tooLong : ℕ → ℕ → ℕ → Bool) (shortBody : ℤ) (timer : τ)
    (remLen : ℕ) : Parallel W size
      (readRemaining p tooLong shortBody timer remLen : Prog (Session χ ω τ H) ℤ)
      (readRemaining p' tooLong shortBody timer remLen) := by
  refine .bind (encodeIntoReadbuf_parallel 1 remLen) fun n => .bind .getClient fun c => ?_
  refine .ite (.pure bufferOverflow) ?_
  refine .bind (readBody_parallel reads alike (1 + n) remLen timer) fun complete => ?_
  refine .ite (.bind .getClient fun c => ?_) (.pure shortBody)
  exact .bind (recordReceived_parallel alike) fun _ => .pure _

theorem readRest_parallel (tooLong : ℕ → ℕ → ℕ → Bool) (shortBody : ℤ) (timer : τ) :
    Parallel W size (readRest p tooLong shortBody timer : Prog (Session χ ω τ H) ℤ)
      (readRest p' tooLong shortBody timer) := by
  refine .bind (.ask (alike.timerLeftMS timer)) fun left => ?_
  have hbyte := reads 1 left (le_max_right size 1)
  refine .bind (decodePacket_parallel hbyte) fun decoded => ?_
  exact readRemaining_parallel reads alike tooLong shortBody timer decoded.2

theorem readPacketWith_parallel (tooLong : ℕ → ℕ → ℕ → Bool) (shortBody : ℤ) (timer : τ) :
    Parallel W size (readPacketWith p tooLong shortBody timer : Prog (Session χ ω τ H) ℤ)
      (readPacketWith p' tooLong shortBody timer) := by
  refine .bind (.ask (alike.timerLeftMS timer)) fun left => ?_
  refine .bind (readInto_parallel reads 0 1 left) fun rc => .ite (.pure rc) ?_
  exact readRest_parallel reads alike tooLong shortBody timer

end Reading

/-- What the client does at the branches, it does alike on both platforms. -/
structure Variant.Parallel (v : Variant χ ω τ H) (v' : Variant χ ω' τ H) (W : ω → ω' → Prop)
    (size : ℕ) : Prop where
  readPacket : ∀ timer, MqttEmbedded.Parallel W size (v.readPacket timer) (v'.readPacket timer)
  sendPacket : ∀ length timer,
    MqttEmbedded.Parallel W size (v.sendPacket length timer) (v'.sendPacket length timer)
  keepalive : MqttEmbedded.Parallel W size v.keepalive v'.keepalive
  closeSession : MqttEmbedded.Parallel W size v.closeSession v'.closeSession
  deliver : ∀ topicName msg,
    MqttEmbedded.Parallel W size (v.deliver topicName msg) (v'.deliver topicName msg)
  deliverUnread : ∀ topicName msg,
    MqttEmbedded.Parallel W size (v.deliverUnread topicName msg) (v'.deliverUnread topicName msg)
  answered : ∀ packetType id,
    MqttEmbedded.Parallel W size (v.answered packetType id) (v'.answered packetType id)

namespace Variant.Parallel

variable {v : Variant χ ω τ H} {v' : Variant χ ω' τ H} (h : v.Parallel v' W size)
include h

theorem sendAck (packettype : MsgType) (id : UInt16) (timer : τ) :
    MqttEmbedded.Parallel W size (v.sendAck packettype id timer)
      (v'.sendAck packettype id timer) := by
  refine .bind (.serialize _) fun len => .ite (.pure failure) ?_
  exact h.sendPacket len.toNat timer

theorem acknowledge (msg : MQTTMessage) (timer : τ) :
    MqttEmbedded.Parallel W size (v.acknowledge msg timer) (v'.acknowledge msg timer) := by
  refine .ite ?_ (.ite ?_ (.pure failure))
  · exact .bind (.ofOption msg.id) fun id => h.sendAck .puback id timer
  · exact .bind (.ofOption msg.id) fun id => h.sendAck .pubrec id timer

theorem handOver (stored : PublishStored) :
    MqttEmbedded.Parallel W size (v.handOver stored) (v'.handOver stored) := by
  cases stored with
  | nothing => exact .throw _
  | headerOnly dup qos retained topicName =>
    exact .bind (h.deliverUnread topicName _) fun _ => .pure _
  | whole fields => exact .bind (h.deliver fields.topicName fields.message) fun _ => .pure _

theorem casePublish (timer : τ) :
    MqttEmbedded.Parallel W size (v.casePublish timer) (v'.casePublish timer) := by
  refine .bind .getClient fun c => .bind (.ofOption _) fun result => ?_
  refine .ite (.pure _) (.bind (h.handOver result.2) fun msg => ?_)
  refine .ite ?_ (.pure _)
  exact .bind (h.acknowledge msg timer) fun rc => .pure _

theorem caseAck (packetType : MsgType) (timer : τ) :
    MqttEmbedded.Parallel W size (v.caseAck packetType timer) (v'.caseAck packetType timer) := by
  refine .bind .getClient fun c => .bind (.ofOption _) fun result => ?_
  refine .ite (.pure _) (.bind (.ofOption _) fun packetid => ?_)
  refine .bind (h.sendAck _ _ timer) fun rc => .ite (.pure _) ?_
  exact .bind (h.answered packetType _) fun _ => .pure _

theorem handlePacket (packetType : ℤ) (timer : τ) :
    MqttEmbedded.Parallel W size (v.handlePacket packetType timer)
      (v'.handlePacket packetType timer) := by
  refine .ite (.pure _) ?_
  cases MsgType.ofCode packetType with
  | none => exact .pure _
  | some type =>
    cases type with
    | publish => exact h.casePublish timer
    | pubrec => exact h.caseAck .pubrec timer
    | pubrel => exact h.caseAck .pubrel timer
    | pingresp => exact .bind (.modifyClient fun _ => rfl) fun _ => .pure _
    | connect | connack | puback | pubcomp | subscribe | suback | unsubscribe | unsuback |
      pingreq | disconnect => exact .pure _

theorem checkKeepalive (outcome : Outcome) :
    MqttEmbedded.Parallel W size (v.checkKeepalive outcome) (v'.checkKeepalive outcome) := by
  refine .ite (.pure outcome.rc) ?_
  exact .bind h.keepalive fun rc => .pure _

theorem closeIfConnected :
    MqttEmbedded.Parallel W size v.closeIfConnected v'.closeIfConnected := by
  refine .bind .getClient fun c => ?_
  exact .ite h.closeSession (.pure _)

theorem cycle (timer : τ) : MqttEmbedded.Parallel W size (v.cycle timer) (v'.cycle timer) := by
  refine .bind (h.readPacket timer) fun packetType => ?_
  refine .bind (h.handlePacket packetType timer) fun outcome => ?_
  refine .bind (h.checkKeepalive outcome) fun rc => .ite (.pure packetType) ?_
  exact .bind h.closeIfConnected fun _ => .pure rc

theorem waitforLoop (alike : p.Alike p' W) (packetType : MsgType) (timer : τ) (fuel : ℕ) (rc : ℤ) :
    MqttEmbedded.Parallel W size (v.waitforLoop p packetType timer fuel rc)
      (v'.waitforLoop p' packetType timer fuel rc) := by
  induction fuel generalizing rc with
  | zero => exact .throw _
  | succ fuel ih =>
    refine .bind (.ask (alike.timerIsExpired timer)) fun expired => .ite (.pure rc) ?_
    refine .bind (h.cycle timer) fun rc => ?_
    exact .ite (ih rc) (.pure rc)

theorem waitfor (alike : p.Alike p' W) (fuel : ℕ) (packetType : MsgType) (timer : τ) :
    MqttEmbedded.Parallel W size (v.waitfor p fuel packetType timer)
      (v'.waitfor p' fuel packetType timer) :=
  h.waitforLoop alike packetType timer fuel failure

end Variant.Parallel

end MqttEmbedded
