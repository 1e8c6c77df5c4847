import Mathlib.Data.Finset.Card
import MqttEmbedded.ClientC.InboundTraffic
import MqttEmbedded.ClientCpp.Operations

/-!
# The two clients on the same traffic

When everything completes, the packets that come in determine the trace of the C++ client
as they do that of the C client. What it does with a message at quality of service 2
depends on a set of identifiers besides; the array it keeps stands for that set. While no
message is sent again and there is room for those outstanding, the two clients cannot be
told apart.
-/

namespace MqttEmbedded.ClientCpp

open Region Hoare
open ClientC (Prompt SameReceiver)

variable {ω ν τ H β : Type}

theorem tooLong_stored {w : WireFrame} {size : ℕ} (h : w.stored.length ≤ size) :
    tooLong size (1 + (Leb128.encode w.body.length).length) w.body.length = false := by
  rw [w.length_stored] at h
  simp only [tooLong, decide_eq_false_iff_not, not_lt]
  omega

/-- `count` calls of `cycle`. -/
def cycles (p : Platform ω τ H) (fuel : ℕ) (timers : ℕ → τ) : ℕ → Prog (Client ω τ H) PUnit
  | 0 => pure ⟨⟩
  | count + 1 => do
    let _ ← cycle p fuel (timers count)
    cycles p fuel timers count

/-- Whether the message of a packet is handed to its handlers, by the array. -/
def handsOver (slots : List UInt16) : Inbound → Bool
  | .publish _ qos _ _ id _ =>
    qos ≠ 2 || (isQoS2msgidFree slots id && (useQoS2msgid slots id).isSome)
  | _ => true

/-- The array after the packet. -/
def slotsAfter (slots : List UInt16) : Inbound → List UInt16
  | .publish _ qos _ _ id _ =>
    if qos = 2 ∧ isQoS2msgidFree slots id then (useQoS2msgid slots id).getD slots else slots
  | .pubrel id => freeQoS2msgid slots id
  | _ => slots

/-- The calls of handlers that a packet leads to. -/
def calls (c : MQTTClient τ H) (handed : Bool) (packet : Inbound) : List (Event H β) :=
  if handed then (deliveries (handlersFor c) packet).map fun call => .called call.1 call.2 else []

/-- The acknowledgement that a packet asks for. -/
def answer (packet : Inbound) : List (Event H β) :=
  (packet.reply.map fun reply => .sent (ackBytes reply.1 reply.2)).toList

/-- What a packet leads to. -/
def exchange (c : MQTTClient τ H) (handed : Bool) (w : WirePacket) : List (Event H β) :=
  .received w :: (calls c handed w.packet ++ answer w.packet)

/-- The identifiers that the array stands for. -/
def heldIds (slots : List UInt16) : Finset UInt16 := (held slots).toFinset

/-- Whether the message of a packet is handed over when `ids` are outstanding and there is
room for `capacity` of them. -/
def admits (capacity : ℕ) (ids : Finset UInt16) : Inbound → Bool
  | .publish _ qos _ _ id _ => qos ≠ 2 || (id ≠ 0 ∧ id ∉ ids ∧ ids.card < capacity)
  | _ => true

def idsAfter (capacity : ℕ) (ids : Finset UInt16) (packet : Inbound) : Finset UInt16 :=
  match packet with
  | .publish _ qos _ _ id _ => if qos = 2 ∧ admits capacity ids packet then insert id ids else ids
  | .pubrel id => ids.erase id
  | _ => ids

/-- What the packets lead to. -/
def exchanges (c : MQTTClient τ H) (capacity : ℕ) :
    Finset UInt16 → List WirePacket → List (Event H β)
  | _, [] => []
  | ids, w :: packets => exchange c (admits capacity ids w.packet) w ++
    exchanges c capacity (idsAfter capacity ids w.packet) packets

section Set

variable {slots : List UInt16} {packet : Inbound}

theorem card_heldIds (hnodup : (held slots).Nodup) : (heldIds slots).card = (held slots).length :=
  List.toFinset_card_of_nodup hnodup

theorem mem_heldIds {id : UInt16} : id ∈ heldIds slots ↔ id ∈ slots ∧ id ≠ 0 := by
  rw [heldIds, List.mem_toFinset, held_eq, VacantSlots.mem_occupied]

/-- There is a vacant slot exactly while the set has room. -/
theorem zero_mem_iff (hnodup : (held slots).Nodup) :
    0 ∈ slots ↔ (heldIds slots).card < slots.length := by
  rw [card_heldIds hnodup, held_eq, VacantSlots.length_occupied_lt]

/-- A message is taken in by the array as it is by the set. -/
theorem takes_iff (hnodup : (held slots).Nodup) (id : UInt16) :
    (isQoS2msgidFree slots id = true ∧ ∃ slots', useQoS2msgid slots id = some slots') ↔
      id ≠ 0 ∧ id ∉ heldIds slots ∧ (heldIds slots).card < slots.length := by
  rw [isQoS2msgidFree_iff, ← Option.ne_none_iff_exists', useQoS2msgid_eq, ne_eq,
    VacantSlots.claim_eq_none, not_not, mem_heldIds, ← zero_mem_iff hnodup]
  constructor
  · rintro ⟨hid, hzero⟩
    exact ⟨fun h => hid (h ▸ hzero), fun h => hid h.1, hzero⟩
  · rintro ⟨hid, hnot, hzero⟩
    exact ⟨fun h => hnot ⟨h, hid⟩, hzero⟩

theorem handsOver_eq (hnodup : (held slots).Nodup) :
    handsOver slots packet = admits slots.length (heldIds slots) packet := by
  cases packet with
  | publish dup qos retained topic id payload =>
    have htakes := takes_iff hnodup id
    rw [← Option.isSome_iff_exists, ← Bool.and_eq_true] at htakes
    rw [handsOver, admits, Bool.eq_iff_iff, Bool.or_eq_true, Bool.or_eq_true, htakes,
      decide_eq_true_eq, decide_eq_true_eq]
  | _ => rfl

theorem useQoS2msgid_held {slots' : List UInt16} {id : UInt16} (hid : id ≠ 0)
    (h : useQoS2msgid slots id = some slots') : (held slots').Perm (id :: held slots) := by
  rw [useQoS2msgid_eq] at h
  exact VacantSlots.occupied_of_claim hid h

theorem freeQoS2msgid_held (slots : List UInt16) (id : UInt16) :
    held (freeQoS2msgid slots id) = (held slots).erase id := by
  rw [freeQoS2msgid_eq, held_eq, VacantSlots.occupied_vacate]

theorem length_slotsAfter : (slotsAfter slots packet).length = slots.length := by
  cases packet with
  | publish dup qos retained topic id payload =>
    rw [slotsAfter]
    split_ifs
    · cases hslots : useQoS2msgid slots id with
      | none => rfl
      | some slots' =>
        rw [useQoS2msgid_eq] at hslots
        exact VacantSlots.length_of_claim hslots
    · rfl
  | pubrel id => rw [slotsAfter, freeQoS2msgid_eq, VacantSlots.length_vacate]
  | _ => rfl

/-- What the packet does to the array is what it does to the set. -/
theorem slotsAfter_held (hnodup : (held slots).Nodup) :
    (held (slotsAfter slots packet)).Nodup ∧
      heldIds (slotsAfter slots packet) = idsAfter slots.length (heldIds slots) packet := by
  cases packet with
  | publish dup qos retained topic id payload =>
    rw [slotsAfter, idsAfter, admits]
    have htakes := takes_iff hnodup id
    by_cases hqos : qos = 2
    · by_cases hfree : isQoS2msgidFree slots id = true
      · rw [if_pos ⟨hqos, hfree⟩]
        cases hslots : useQoS2msgid slots id with
        | none =>
          have hnot := htakes.not.mp (by simp [hslots])
          simp [hqos, hnodup, hnot]
        | some slots' =>
          have hadmitted := htakes.mp ⟨hfree, slots', hslots⟩
          have hperm := useQoS2msgid_held hadmitted.1 hslots
          have hnew : id ∉ held slots := fun h => hadmitted.2.1 (List.mem_toFinset.mpr h)
          refine ⟨hperm.nodup_iff.mpr (List.nodup_cons.mpr ⟨hnew, hnodup⟩), ?_⟩
          rw [if_pos ⟨hqos, by simp [hadmitted]⟩, heldIds, Option.getD_some,
            List.toFinset_eq_of_perm _ _ hperm, List.toFinset_cons, heldIds]
      · have hnot := htakes.not.mp (fun h => hfree h.1)
        simp [hqos, hfree, hnodup, hnot]
    · simp [hqos, hnodup]
  | pubrel id =>
    rw [slotsAfter, idsAfter, heldIds, freeQoS2msgid_held]
    refine ⟨hnodup.erase id, ?_⟩
    ext x
    rw [List.mem_toFinset, hnodup.mem_erase_iff, Finset.mem_erase, heldIds, List.mem_toFinset]
  | _ => exact ⟨hnodup, rfl⟩

theorem exchanges_congr {c d : MQTTClient τ H} (hsame : SameReceiver c d) (capacity : ℕ)
    (ids : Finset UInt16) (packets : List WirePacket) :
    (exchanges d capacity ids packets : List (Event H β)) = exchanges c capacity ids packets := by
  induction packets generalizing ids with
  | nil => rfl
  | cons w packets ih => rw [exchanges, exchanges, ih, exchange, exchange, calls, calls,
      hsame.handlersFor]

end Set

/-- From `s` to `t` the trace has grown by `evs`, and the array is now `slots`. -/
structure Took (inbox : ν → List WirePacket) (s t : Client (PacketWorld ν H β) τ H)
    (evs : List (Event H β)) (slots : List UInt16) : Prop where
  reading : t.world.reading = s.world.reading
  trace : t.world.trace = s.world.trace ++ evs
  inbox : inbox t.world.state = inbox s.world.state
  receiver : SameReceiver s.client t.client
  slots : t.own.incomingQoS2messages = slots

section Taken

variable {env : PacketEnv ν τ H β} {inbox : ν → List WirePacket}
  {s t u : Client (PacketWorld ν H β) τ H}

theorem Took.refl (s : Client (PacketWorld ν H β) τ H) :
    Took inbox s s [] s.own.incomingQoS2messages :=
  ⟨rfl, (List.append_nil _).symm, rfl, ⟨rfl, rfl, rfl, rfl⟩, rfl⟩

theorem Took.trans {evs evs' : List (Event H β)} {slots slots' : List UInt16}
    (h : Took inbox s t evs slots) (h' : Took inbox t u evs' slots') :
    Took inbox s u (evs ++ evs') slots' :=
  ⟨h'.reading.trans h.reading, by rw [h'.trace, h.trace, List.append_assoc],
    h'.inbox.trans h.inbox, h.receiver.trans h'.receiver, h'.slots⟩

variable (prompt : Prompt env inbox) (fuel : ℕ) {timer : τ}
include prompt

theorem sendLoop_taken {length : ℕ} (hpos : 0 < length) :
    wp (sendLoop env.platform length timer (fuel + 2) 0)
      (fun sent t => sent = length ∧
        Took inbox s t [.sent (s.client.buf.take length)] s.own.incomingQoS2messages)
      (fun _ _ => False) s := by
  have hwrite (timeout : ℤ) (w : PacketWorld ν H β) :
      (env.platform.mqttwrite (s.client.buf.drop 0) (length - 0) timeout w).1 = length ∧
      (env.platform.mqttwrite (s.client.buf.drop 0) (length - 0) timeout w).2.reading =
        w.reading ∧
      (env.platform.mqttwrite (s.client.buf.drop 0) (length - 0) timeout w).2.trace =
        w.trace ++ [.sent (s.client.buf.take length)] ∧
      inbox (env.platform.mqttwrite (s.client.buf.drop 0) (length - 0) timeout w).2.state =
        inbox w.state := by
    obtain ⟨htaken, hnotes, hinbox⟩ := prompt.offer (s.client.buf.take length) timeout w.state
    simp [PacketEnv.platform, PacketWorld.mqttwrite, htaken, hnotes, hinbox, Reception.rc,
      Reception.events]
  have hexpired (w : PacketWorld ν H β) : (env.platform.timerIsExpired timer w).1 = false :=
    prompt.unexpired timer w.state
  rw [sendLoop, if_pos hpos]
  simp only [wp_bind, wp_ask, wp_getClient]
  obtain ⟨hrc, hreading, htrace, hinbox⟩ := hwrite (env.platform.timerLeftMS timer s.world).1
    (env.platform.timerLeftMS timer s.world).2
  have hnonneg : ¬ (length : ℤ) < 0 := by omega
  rw [hrc, if_neg hnonneg, wp_bind, wp_ask, hexpired, if_neg Bool.false_ne_true, sendLoop,
    if_neg (by simp)]
  refine ⟨by simp, hreading, htrace, ?_, ⟨rfl, rfl, rfl, rfl⟩, rfl⟩
  exact (prompt.steady.timerIsExpired _ _).trans (hinbox.trans (prompt.steady.timerLeftMS _ _))

theorem sendPacket_taken {length : ℕ} (hpos : 0 < length) :
    wp (sendPacket env.platform (fuel + 2) length timer)
      (fun rc t => rc = success ∧
        Took inbox s t [.sent (s.client.buf.take length)] s.own.incomingQoS2messages)
      (fun _ _ => False) s := by
  unfold sendPacket transmit recordSent note
  simp only [wp_bind, wp_getClient]
  apply wp_imp (sendLoop_taken prompt fuel hpos)
  rintro sent t ⟨rfl, htook⟩
  rw [if_pos rfl]
  simp only [wp_bind, wp_getClient, wp_ask, wp_modifyClient, wp_modifyOwn, wp_pure, wp_ite]
  refine ⟨fun _ => ⟨trivial, ?_⟩, fun _ => ⟨trivial, { htook with }⟩⟩
  have hinbox := prompt.steady.timerCountdown t.client.lastSent t.client.keepAliveInterval
    t.world.state
  exact ⟨htook.reading, htook.trace, hinbox.trans htook.inbox,
    htook.receiver.trans ⟨rfl, rfl, rfl, rfl⟩, htook.slots⟩

theorem sendAck_taken {packettype : MsgType} {id : UInt16} (hbuf : 4 ≤ s.client.buf.length) :
    wp ((variant env.platform (fuel + 2)).sendAck packettype id timer)
      (fun rc t => rc = success ∧
        Took inbox s t [.sent (ackBytes packettype id)] s.own.incomingQoS2messages)
      (fun _ _ => False) s := by
  have hlen := length_ackBytes packettype id
  rw [Variant.wp_sendAck]
  refine ⟨fun _ => ?_, fun h => absurd hbuf h⟩
  apply wp_imp (sendPacket_taken prompt fuel (by norm_num))
  rintro rc t ⟨rfl, htook⟩
  have hreceiver : SameReceiver s.client
      { s.client with buf := overwrite s.client.buf 0 (ackBytes packettype id) } :=
    ⟨length_overwrite (by omega), rfl, rfl, rfl⟩
  refine ⟨rfl, htook.reading, ?_, htook.inbox, hreceiver.trans htook.receiver, htook.slots⟩
  rw [htook.trace]
  dsimp only
  rw [← hlen, take_overwrite_zero]

theorem keepalive_unexpired :
    wp (keepalive env.platform fuel)
      (fun rc t => rc = success ∧ Took inbox s t [] s.own.incomingQoS2messages)
      (fun _ _ => False) s := by
  have hexpired (timer : τ) (w : PacketWorld ν H β) :
      (env.platform.timerIsExpired timer w).1 = false := prompt.unexpired timer w.state
  have htook (t : Client (PacketWorld ν H β) τ H) (hclient : t.client = s.client)
      (hslots : t.own.incomingQoS2messages = s.own.incomingQoS2messages)
      (hreading : t.world.reading = s.world.reading) (htrace : t.world.trace = s.world.trace)
      (hinbox : inbox t.world.state = inbox s.world.state) :
      Took inbox s t [] s.own.incomingQoS2messages :=
    ⟨hreading, htrace.trans (List.append_nil _).symm, hinbox, hclient ▸ ⟨rfl, rfl, rfl, rfl⟩,
      hslots⟩
  unfold keepalive pingIfDue checkPing keepaliveDue note
  simp only [wp_bind, wp_getClient, wp_getOwn, wp_ite, wp_pure, wp_ask, wp_modifyOwn, hexpired,
    Bool.false_eq_true, false_implies, not_false_eq_true, true_implies, if_false, true_and]
  refine ⟨fun _ => htook _ rfl rfl rfl rfl rfl, fun _ => ⟨fun _ => htook _ rfl rfl rfl rfl ?_,
    fun _ => htook _ rfl rfl rfl rfl ?_⟩⟩
  · exact prompt.steady.timerIsExpired _ _
  · exact (prompt.steady.timerIsExpired _ _).trans (prompt.steady.timerIsExpired _ _)

theorem respondPublish_taken (packet : Inbound) (hbuf : 4 ≤ s.client.buf.length) :
    wp ((variant env.platform (fuel + 2)).respondPublish packet.reply timer)
      (fun outcome t => outcome = ⟨success, false⟩ ∧
        Took inbox s t (answer packet) s.own.incomingQoS2messages)
      (fun _ _ => False) s := by
  unfold answer
  cases packet.reply with
  | none => exact ⟨rfl, .refl s⟩
  | some reply =>
    rw [Variant.respondPublish, wp_bind]
    apply wp_imp (sendAck_taken prompt fuel hbuf)
    rintro rc t ⟨rfl, ht⟩
    exact ⟨rfl, ht⟩

/-- A PUBREL frees its identifier once it has been answered. -/
theorem respondAck_taken {received packettype : MsgType} {id : UInt16}
    (hbuf : 4 ≤ s.client.buf.length) :
    wp ((variant env.platform (fuel + 2)).respondAck received packettype id timer)
      (fun outcome t => outcome = ⟨success, false⟩ ∧
        Took inbox s t [.sent (ackBytes packettype id)]
          (if received = .pubrel then freeQoS2msgid s.own.incomingQoS2messages id
            else s.own.incomingQoS2messages))
      (fun _ _ => False) s := by
  rw [Variant.respondAck, wp_bind]
  apply wp_imp (sendAck_taken prompt fuel hbuf)
  rintro rc t ⟨rfl, ht⟩
  rw [if_neg (by simp), wp_bind]
  change wp (answered received id) _ _ t
  unfold answered
  rw [wp_ite, wp_modifyOwn, wp_pure, wp_pure, wp_pure]
  refine ⟨fun h => ⟨rfl, ?_⟩, fun h => ⟨rfl, ?_⟩⟩
  · rw [if_pos h, ← ht.slots]
    exact ⟨ht.reading, ht.trace, ht.inbox, ht.receiver, rfl⟩
  · rw [if_neg h]
    exact ht

theorem invoked_taken (handed : Bool) {dup : Bool} {qos : ℕ} {retained : Bool}
    {topic : List UInt8} {id : UInt16} {payload tail : List UInt8} {slots : List UInt16}
    {own : Extras τ} (hslots : own.incomingQoS2messages = slots) :
    Took inbox s { s with
        own := own
        world := if handed then invokeAll env.platform
          (publishData dup qos retained topic id payload tail) (handlersFor s.client topic) s.world
          else s.world }
      (calls s.client handed (.publish dup qos retained topic id payload)) slots := by
  cases handed with
  | false => exact ⟨rfl, (List.append_nil _).symm, rfl, ⟨rfl, rfl, rfl, rfl⟩, hslots⟩
  | true =>
    exact ⟨PacketEnv.reading_invokeAll _ _ _, PacketEnv.trace_invokeAll_publish _ _,
      prompt.inbox_invokeAll _ _ _, ⟨rfl, rfl, rfl, rfl⟩, hslots⟩

/-- A message at quality of service 2 is handed over when its identifier is new and there
is room for it. -/
theorem deliver_taken (dup : Bool) (qos : ℕ) (retained : Bool) (topic : List UInt8) (id : UInt16)
    (payload tail : List UInt8) :
    wp ((variant env.platform fuel).deliver
        (publishData dup qos retained topic id payload tail).topicName
        (publishData dup qos retained topic id payload tail).message)
      (fun _ t => Took inbox s t
        (calls s.client
          (handsOver s.own.incomingQoS2messages (.publish dup qos retained topic id payload))
          (.publish dup qos retained topic id payload))
        (slotsAfter s.own.incomingQoS2messages (.publish dup qos retained topic id payload)))
      (fun _ _ => False) s := by
  have hinvoked (own : Extras τ) (handed : Bool) (slots : List UInt16)
      (hslots : own.incomingQoS2messages = slots) :
      Took inbox s { s with
          own := own
          world := if handed then invokeAll env.platform
            (publishData dup qos retained topic id payload tail) (handlersFor s.client topic)
            s.world else s.world }
        (calls s.client handed (.publish dup qos retained topic id payload)) slots :=
    invoked_taken prompt handed hslots
  change wp (deliver _ _ _) _ _ s
  unfold deliver note
  by_cases hqos : qos = 2
  · subst hqos
    have htwo : ¬ (publishData dup 2 retained topic id payload tail).message.qos ≠ 2 :=
      not_not.mpr rfl
    have hid : (publishData dup 2 retained topic id payload tail).message.id = some id := rfl
    rw [if_neg htwo, hid, ofOption_some, pure_bind, wp_bind, wp_getOwn]
    by_cases hfree : isQoS2msgidFree s.own.incomingQoS2messages id = true
    · rw [if_pos hfree]
      cases hslots : useQoS2msgid s.own.incomingQoS2messages id with
      | none => simpa [handsOver, slotsAfter, hfree, hslots] using hinvoked s.own false _ rfl
      | some slots =>
        simp only [wp_bind, wp_modifyOwn]
        apply wp_deliverMessage
        intro _
        have hhands : handsOver s.own.incomingQoS2messages
            (.publish dup 2 retained topic id payload) = true := by
          simp [handsOver, hfree, hslots]
        have hafter : slotsAfter s.own.incomingQoS2messages
            (.publish dup 2 retained topic id payload) = slots := by
          simp [slotsAfter, hfree, hslots]
        rw [hhands, hafter]
        exact hinvoked _ true slots rfl
    · rw [if_neg hfree]
      simpa [handsOver, slotsAfter, hfree] using hinvoked s.own false _ rfl
  · have hnot : (publishData dup qos retained topic id payload tail).message.qos ≠ 2 := hqos
    rw [if_pos hnot]
    simp only [wp_bind, wp_modifyOwn]
    apply wp_deliverMessage
    intro _
    have hhands : handsOver s.own.incomingQoS2messages
        (.publish dup qos retained topic id payload) = true := by
      simp [handsOver, hqos]
    have hafter : slotsAfter s.own.incomingQoS2messages
        (.publish dup qos retained topic id payload) = s.own.incomingQoS2messages := by
      simp [slotsAfter, hqos]
    rw [hhands, hafter]
    exact hinvoked _ true _ rfl

theorem respond_taken (packet : Inbound) (tail : List UInt8) (hbuf : 4 ≤ s.client.buf.length) :
    wp ((variant env.platform (fuel + 2)).respond packet tail timer)
      (fun outcome t => outcome = ⟨success, false⟩ ∧ Took inbox s t
        (calls s.client (handsOver s.own.incomingQoS2messages packet) packet ++ answer packet)
        (slotsAfter s.own.incomingQoS2messages packet))
      (fun _ _ => False) s := by
  cases packet with
  | publish dup qos retained topic id payload =>
    unfold Variant.respond
    rw [wp_bind]
    apply wp_imp (deliver_taken prompt (fuel + 2) dup qos retained topic id payload tail)
    intro _ t ht
    have hroom : 4 ≤ t.client.buf.length := by rwa [ht.receiver.length_buf]
    apply wp_imp (respondPublish_taken prompt fuel (.publish dup qos retained topic id payload)
      hroom)
    rintro outcome u ⟨rfl, hu⟩
    exact ⟨rfl, ht.slots ▸ ht.trans hu⟩
  | pubrec id => exact respondAck_taken prompt fuel hbuf
  | pubrel id => exact respondAck_taken prompt fuel hbuf
  | pingresp =>
    exact ⟨rfl, rfl, (List.append_nil _).symm, rfl, ⟨rfl, rfl, rfl, rfl⟩, rfl⟩
  | connack _ _ | puback _ | pubcomp _ | suback _ _ | unsuback _ => exact ⟨rfl, .refl s⟩

theorem cycle_taken {w : WirePacket} {rest : List WirePacket}
    (hinbox : inbox s.world.state = w :: rest) (hreading : s.world.reading = [])
    (hfits : w.frame.stored.length ≤ s.client.readbuf.length) (hbuf : 4 ≤ s.client.buf.length) :
    wp (cycle env.platform (fuel + 2) timer)
      (fun rc t => rc = w.packet.type.code ∧ inbox t.world.state = rest ∧ t.world.reading = [] ∧
        t.world.trace = s.world.trace ++
          exchange s.client (handsOver s.own.incomingQoS2messages w.packet) w ∧
        SameReceiver s.client t.client ∧
        t.own.incomingQoS2messages = slotsAfter s.own.incomingQoS2messages w.packet)
      (fun _ _ => False) s := by
  have hleft : inbox (env.base.timerLeftMS timer s.world.state).2 = w :: rest :=
    (prompt.steady.timerLeftMS timer s.world.state).trans hinbox
  obtain ⟨hnext, hnotes, hrest⟩ := prompt.next (env.base.timerLeftMS timer s.world.state).1 _ w rest
    hleft
  unfold cycle Variant.cycle
  rw [wp_bind]
  change wp (readPacket _ _) _ _ s
  unfold readPacket note
  rw [wp_bind]
  apply wp_imp (readPacketWith_packet prompt.steady hreading hfits (tooLong_stored hfits) hnext)
  rintro rc t ⟨rfl, hown, hreading', htrace, hstate, lastReceived, hclient⟩
  simp only [wp_bind, wp_getClient, wp_modifyOwn, wp_pure]
  generalize hnoted : ({ client := _, own := _, world := _ } : Client (PacketWorld ν H β) τ H) = n
  have hread : n.client.readbuf =
      w.frame.stored ++ s.client.readbuf.drop w.frame.stored.length := by
    rw [← hnoted, hclient, overwrite_zero]
  have hreceiver : SameReceiver s.client n.client := by
    rw [← hnoted, hclient]
    refine ⟨rfl, ?_, rfl, rfl⟩
    exact length_overwrite (by rw [Nat.zero_add]; exact hfits)
  have hslots : n.own.incomingQoS2messages = s.own.incomingQoS2messages := by
    rw [← hnoted, hown]
  have hworld : n.world = t.world := by rw [← hnoted]
  rw [wp_congr (Variant.handlePacket_eq _ w hread)]
  apply wp_imp (respond_taken prompt fuel w.packet _ (by rwa [hreceiver.length_buf]))
  rintro _ u ⟨rfl, hu⟩
  rw [Variant.checkKeepalive, if_neg Bool.false_ne_true, wp_bind]
  apply wp_imp (keepalive_unexpired prompt (fuel + 2))
  rintro _ v ⟨rfl, hv⟩
  rw [if_neg (by simp), wp_pure, if_pos rfl, wp_pure]
  have hboth := hu.trans hv
  refine ⟨?_, ?_, ?_, ?_, hreceiver.trans hboth.receiver, ?_⟩
  · simp [w.type_frame]
  · rw [hboth.inbox, hworld]
    exact hstate.trans hrest
  · rw [hboth.reading, hworld, hreading']
  · rw [hboth.trace, hworld, htrace, arrivalAt, hnotes, hslots]
    simp [exchange, calls, hreceiver.handlersFor]
  · rw [hboth.slots, hu.slots, hslots]

/-- `packets.length` calls of `cycle` for the packets that `packets` holds. -/
theorem cycles_taken (timers : ℕ → τ) {rest : List WirePacket} : ∀ {packets : List WirePacket}
    {s : Client (PacketWorld ν H β) τ H}, inbox s.world.state = packets ++ rest →
    s.world.reading = [] → (∀ w ∈ packets, w.frame.stored.length ≤ s.client.readbuf.length) →
    4 ≤ s.client.buf.length → (held s.own.incomingQoS2messages).Nodup →
    wp (cycles env.platform (fuel + 2) timers packets.length)
      (fun _ t => inbox t.world.state = rest ∧ t.world.trace = s.world.trace ++
        exchanges s.client s.own.incomingQoS2messages.length
          (heldIds s.own.incomingQoS2messages) packets)
      (fun _ _ => False) s
  | [], s, hinbox, _, _, _, _ => ⟨hinbox, (List.append_nil _).symm⟩
  | w :: packets, s, hinbox, hreading, hfits, hbuf, hnodup => by
    rw [List.length_cons, cycles]
    simp only [wp_bind]
    apply wp_imp (cycle_taken prompt fuel hinbox hreading (hfits w List.mem_cons_self) hbuf)
    rintro _ t ⟨-, hinbox', hreading', htrace, hsame, hslots⟩
    have hfits' : ∀ w ∈ packets, w.frame.stored.length ≤ t.client.readbuf.length := by
      intro w hw
      rw [hsame.length_readbuf]
      exact hfits w (List.mem_cons_of_mem _ hw)
    have hnodup' : (held t.own.incomingQoS2messages).Nodup := by
      rw [hslots]
      exact (slotsAfter_held hnodup).1
    apply wp_imp (cycles_taken timers hinbox' hreading' hfits' (by rwa [hsame.length_buf]) hnodup')
    rintro _ u ⟨hrest, htrace'⟩
    refine ⟨hrest, ?_⟩
    rw [htrace', htrace, hslots, length_slotsAfter, (slotsAfter_held hnodup).2,
      handsOver_eq hnodup, exchanges, List.append_assoc, exchanges_congr hsame]

end Taken

/-- The packets that come in determine the trace: a message at quality of service 2 is
handed to its handlers when its identifier is not 0 and not outstanding and there is room
for it, and any packet is answered whether its message has been handed over or not. -/
theorem cycles_exchanges {env : PacketEnv ν τ H β} {inbox : ν → List WirePacket}
    (prompt : Prompt env inbox) (fuel : ℕ) (timers : ℕ → τ)
    {packets rest : List WirePacket} {s : Client (PacketWorld ν H β) τ H}
    (hinbox : inbox s.world.state = packets ++ rest) (hreading : s.world.reading = [])
    (hfits : ∀ w ∈ packets, w.frame.stored.length ≤ s.client.readbuf.length)
    (hbuf : 4 ≤ s.client.buf.length) (hnodup : (held s.own.incomingQoS2messages).Nodup) :
    ∃ t, cycles env.platform (fuel + 2) timers packets.length s = .ok ⟨⟩ t ∧
      inbox t.world.state = rest ∧ t.world.trace = s.world.trace ++
        exchanges s.client s.own.incomingQoS2messages.length
          (heldIds s.own.incomingQoS2messages) packets := by
  obtain ⟨_, t, hrun, hrest, htrace⟩ :=
    wp_total (cycles_taken prompt fuel timers hinbox hreading hfits hbuf hnodup)
  exact ⟨t, hrun, hrest, htrace⟩

/-- A message at quality of service 2 for the topic "a", the same once more, and its PUBREL. -/
def publishTwicePubrel : List WirePacket :=
  [.ofInbound (.publish false 2 false [97] 7 [1]) (by decide),
    .ofInbound (.publish true 2 false [97] 7 [1]) (by decide), .ofInbound (.pubrel 7) (by decide)]

/-- The connected client of the C library, with room for ten identifiers. -/
def receiver : Client (PacketWorld (List WirePacket) Unit Unit) Unit Unit where
  client := ClientC.receiver.client
  own :=
    { pubbuf := []
      inflightLen := 0
      inflightMsgid := 0
      inflightQoS := 0
      pubrel := false
      incomingQoS2messages := List.replicate maxIncomingQoS2Messages 0
      pingSent := ()
      history := [] }
  world := .fresh publishTwicePubrel

theorem cycles_exchanges_publishTwicePubrel :
    ∃ t, cycles ClientC.arriving.platform 2 (fun _ => ()) 3 receiver = .ok ⟨⟩ t ∧
      handlerCalls t.world.trace = deliveries (handlersFor receiver.client)
        (.publish false 2 false [97] 7 [1]) ∧
      sentPackets t.world.trace = [[0x50, 2, 0, 7], [0x50, 2, 0, 7], [0x70, 2, 0, 7]] := by
  have hfits : ∀ w ∈ publishTwicePubrel,
      w.frame.stored.length ≤ receiver.client.readbuf.length := by decide
  obtain ⟨t, hrun, -, htrace⟩ := cycles_exchanges ClientC.prompt_arriving 0 (fun _ => ())
    (s := receiver) (List.append_nil _).symm rfl hfits (by decide) (by decide)
  refine ⟨t, hrun, ?_⟩
  rw [htrace]
  exact ⟨by decide, by decide⟩

/-- Whatever is not handed over has no handlers. -/
def Unnoticed (c : MQTTClient τ H) (capacity : ℕ) : Finset UInt16 → List WirePacket → Prop
  | _, [] => True
  | ids, w :: packets =>
    (admits capacity ids w.packet = true ∨ deliveries (handlersFor c) w.packet = []) ∧
      Unnoticed c capacity (idsAfter capacity ids w.packet) packets

theorem exchange_true (c : MQTTClient τ H) (w : WirePacket) :
    (exchange c true w : List (Event H β)) = ClientC.exchange c w := by
  rw [exchange, ClientC.exchange, calls, if_pos rfl, answer]

theorem exchange_false {c : MQTTClient τ H} {w : WirePacket}
    (h : deliveries (handlersFor c) w.packet = []) (handed : Bool) :
    (exchange c handed w : List (Event H β)) = ClientC.exchange c w := by
  rw [exchange, ClientC.exchange, calls, answer, h, List.map_nil, ite_self]

theorem head_ne_called (c : MQTTClient τ H) (capacity : ℕ) (ids : Finset UInt16)
    (packet : Inbound) (packets : List WirePacket) (fp : H) (content : MessageContent) :
    (answer packet ++ exchanges c capacity ids packets : List (Event H β)).head? ≠
      some (.called fp content) := by
  rw [answer]
  cases packet.reply with
  | some reply => simp
  | none => cases packets <;> simp [exchanges, exchange]

theorem exchanges_eq_iff (c : MQTTClient τ H) (capacity : ℕ) (ids : Finset UInt16)
    (packets : List WirePacket) :
    (exchanges c capacity ids packets : List (Event H β)) =
      packets.flatMap (ClientC.exchange c) ↔ Unnoticed c capacity ids packets := by
  induction packets generalizing ids with
  | nil => exact iff_of_true rfl trivial
  | cons w packets ih =>
    rw [exchanges, List.flatMap_cons, Unnoticed, ← ih]
    by_cases hseen : admits capacity ids w.packet = true ∨
        deliveries (handlersFor c) w.packet = []
    · have hsame : (exchange c (admits capacity ids w.packet) w : List (Event H β)) =
          ClientC.exchange c w := by
        rcases hseen with hadmits | hnone
        · rw [hadmits, exchange_true]
        · exact exchange_false hnone _
      rw [hsame, List.append_cancel_left_eq]
      exact (and_iff_right hseen).symm
    · refine iff_of_false (fun heq => ?_) (fun h => hseen h.1)
      obtain ⟨hadmits, hsome⟩ := not_or.mp hseen
      obtain ⟨⟨fp, content⟩, later, hdeliveries⟩ := List.exists_cons_of_ne_nil hsome
      rw [exchange, calls, if_neg hadmits, ClientC.exchange, hdeliveries] at heq
      refine head_ne_called c capacity _ w.packet packets fp content
        (congrArg List.head? (List.cons.inj heq).2)

theorem sentPackets_exchange (c : MQTTClient τ H) (handed : Bool) (w : WirePacket) :
    sentPackets (exchange c handed w : List (Event H β)) =
      sentPackets (ClientC.exchange c w : List (Event H β)) := by
  rw [← exchange_true]
  cases handed <;> simp [exchange, calls, sentPackets, List.filterMap_append, List.filterMap_map]

/-- The packets that are sent do not depend on what is handed over. -/
theorem sentPackets_exchanges (c : MQTTClient τ H) (capacity : ℕ) (ids : Finset UInt16)
    (packets : List WirePacket) :
    sentPackets (exchanges c capacity ids packets : List (Event H β)) =
      sentPackets (packets.flatMap (ClientC.exchange c) : List (Event H β)) := by
  induction packets generalizing ids with
  | nil => rfl
  | cons w packets ih =>
    have hfirst := sentPackets_exchange (β := β) c (admits capacity ids w.packet) w
    have hrest := ih (idsAfter capacity ids w.packet)
    simp only [exchanges, List.flatMap_cons, sentPackets, List.filterMap_append] at *
    rw [hfirst, hrest]

/-- Both clients read the same packets and send the same answers. Their handlers are called
alike if and only if whatever the C++ client does not hand over has no handlers. -/
theorem cycles_agree_iff {env : PacketEnv ν τ H β} {inbox : ν → List WirePacket}
    (prompt : Prompt env inbox) (fuel : ℕ) (timers : ℕ → τ)
    {packets rest : List WirePacket} {s : ClientC.Client (PacketWorld ν H β) τ H}
    {t : Client (PacketWorld ν H β) τ H} (hclient : SameReceiver s.client t.client)
    (hworld : t.world = s.world) (hinbox : inbox s.world.state = packets ++ rest)
    (hreading : s.world.reading = [])
    (hfits : ∀ w ∈ packets, w.frame.stored.length ≤ s.client.readbuf.length)
    (hbuf : 4 ≤ s.client.buf.length) (hnodup : (held t.own.incomingQoS2messages).Nodup) :
    ∃ starts s' t', ClientC.cycles env.platform (fuel + 2) timers packets.length s =
        .ok starts s' ∧
      cycles env.platform (fuel + 2) timers packets.length t = .ok ⟨⟩ t' ∧
      sentPackets t'.world.trace = sentPackets s'.world.trace ∧
      (t'.world.trace = s'.world.trace ↔ Unnoticed s.client t.own.incomingQoS2messages.length
        (heldIds t.own.incomingQoS2messages) packets) := by
  obtain ⟨starts, s', hruns, htraces, -⟩ :=
    wp_total (prompt.cycles_taken fuel timers hinbox hreading hfits hbuf)
  have hfitt : ∀ w ∈ packets, w.frame.stored.length ≤ t.client.readbuf.length := by
    intro w hw
    rw [hclient.length_readbuf]
    exact hfits w hw
  obtain ⟨_, t', hrunt, -, htracet⟩ := wp_total (cycles_taken prompt fuel timers
    (by rwa [hworld]) (by rwa [hworld]) hfitt (by rwa [hclient.length_buf]) hnodup)
  rw [exchanges_congr hclient, hworld] at htracet
  refine ⟨starts, s', t', hruns, hrunt, ?_, ?_⟩
  · rw [htraces, htracet]
    simp only [sentPackets, List.filterMap_append]
    exact congrArg (_ ++ ·) (sentPackets_exchanges _ _ _ _)
  · rw [htraces, htracet, List.append_cancel_left_eq]
    exact exchanges_eq_iff _ _ _ _

theorem cycles_agree_iff_publishTwicePubrel :
    ∃ starts s' t', ClientC.cycles ClientC.arriving.platform 2 (fun _ => ()) 3
        { receiver with own := () } = .ok starts s' ∧
      cycles ClientC.arriving.platform 2 (fun _ => ()) 3 receiver = .ok ⟨⟩ t' ∧
      sentPackets t'.world.trace = sentPackets s'.world.trace ∧
      t'.world.trace ≠ s'.world.trace := by
  have hfits : ∀ w ∈ publishTwicePubrel,
      w.frame.stored.length ≤ receiver.client.readbuf.length := by decide
  obtain ⟨starts, s', t', hruns, hrunt, hsent, hiff⟩ := cycles_agree_iff ClientC.prompt_arriving 0
    (fun _ => ()) (s := { receiver with own := () }) (t := receiver) ⟨rfl, rfl, rfl, rfl⟩ rfl
    (List.append_nil _).symm rfl hfits (by decide) (by decide)
  refine ⟨starts, s', t', hruns, hrunt, hsent, hiff.not.mpr ?_⟩
  rintro ⟨-, hsecond, -⟩
  exact absurd hsecond (by decide)

end MqttEmbedded.ClientCpp
