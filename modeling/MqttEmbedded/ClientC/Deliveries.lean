import MqttEmbedded.ClientC.History
import MqttEmbedded.ClientC.InboundTraffic

/-!
# Deliveries of a message of quality 2

The C client keeps no record of the messages it has acknowledged with a PUBREC.
Between a PUBLISH and the PUBREL of its identifier the handlers are called for
every PUBLISH with that identifier, also for one that the broker sends again. The
C++ client looks the identifier up first.
-/

namespace MqttEmbedded

/-- The identifier of a PUBLISH of quality 2. -/
def Inbound.qos2Id : Inbound → Option UInt16
  | .publish _ qos _ _ id _ => if qos = 2 then some id else none
  | _ => none

/-- The message is one of quality 2 with this identifier. -/
def MessageContent.IsQos2 (id : UInt16) (content : MessageContent) : Prop :=
  content.qos = 2 ∧ content.id = some id

instance (id : UInt16) (content : MessageContent) : Decidable (content.IsQos2 id) :=
  inferInstanceAs (Decidable (_ ∧ _))

theorem content_isQos2_iff {packet : Inbound} {content : MessageContent}
    (h : packet.content = some content) (id : UInt16) :
    content.IsQos2 id ↔ packet.qos2Id = some id := by
  cases packet with
  | publish dup qos retained topic id' payload =>
    cases h
    simp only [MessageContent.IsQos2, publishContent, Inbound.qos2Id]
    by_cases hqos : qos = 2
    · simp [hqos]
    · simp [hqos]
  | connack | puback | pubrec | pubrel | pubcomp | suback | unsuback | pingresp => cases h

namespace ClientC

open Hoare

variable {ν τ H β : Type}

/-- What was seen in the calls of a run, with the client whose handlers were in force. -/
def history (entries : List (Entry τ H β)) : List (MQTTClient τ H × Event H β) :=
  entries.flatMap fun e => e.events.map fun ev => (e.client, ev)

/-- The packets received, and the handlers called, in a part of the history. -/
def receipts (part : List (MQTTClient τ H × Event H β)) : List (MQTTClient τ H × WirePacket) :=
  part.filterMap fun
    | (c, .received w) => some (c, w)
    | _ => none

def callsIn (part : List (MQTTClient τ H × Event H β)) : List (H × MessageContent) :=
  handlerCalls (part.map Prod.snd)

/-- The calls that the packets lead to. -/
def dueCalls (receipts : List (MQTTClient τ H × WirePacket)) : List (H × MessageContent) :=
  receipts.flatMap fun receipt => deliveries (handlersFor receipt.1) receipt.2.packet

theorem receipts_map (c : MQTTClient τ H) (evs : List (Event H β)) :
    receipts (evs.map fun ev => (c, ev)) = (receivedPackets evs).map fun w => (c, w) := by
  induction evs with
  | nil => rfl
  | cons e evs ih =>
    cases e with
    | received w => exact congrArg ((c, w) :: ·) ih
    | sent _ | called _ _ | renewed | note _ => exact ih

theorem receipts_append (part part' : List (MQTTClient τ H × Event H β)) :
    receipts (part ++ part') = receipts part ++ receipts part' :=
  List.filterMap_append

theorem callsIn_append (part part' : List (MQTTClient τ H × Event H β)) :
    callsIn (part ++ part') = callsIn part ++ callsIn part' := by
  simp [callsIn, handlerCalls]

/-- In a call that ends with no handler owed its due, all the calls were made. -/
theorem callsIn_eq_dueCalls {c : MQTTClient τ H} {evs : List (Event H β)} {asks : List (List UInt8)}
    {d : Duty H} (h : Works (handlersFor c) .idle evs asks d) (hd : d.calls = []) :
    callsIn (evs.map fun ev => (c, ev)) = dueCalls (receipts (evs.map fun ev => (c, ev))) := by
  have hcalls := h.handlerCalls_eq
  rw [hd, List.append_nil] at hcalls
  rw [receipts_map, dueCalls, List.flatMap_map, callsIn, List.map_map]
  exact (congrArg handlerCalls (List.map_id evs)).trans hcalls.symm

/-- Before a packet is received the packets before it have led to all their calls. -/
theorem callsIn_before_received {c : MQTTClient τ H} {w : WirePacket}
    {after : List (MQTTClient τ H × Event H β)} : ∀ {entries : List (Entry τ H β)}
    {before : List (MQTTClient τ H × Event H β)},
    (∀ e ∈ entries, ∃ asks d, Works (handlersFor e.client) .idle e.events asks d ∧ d.calls = []) →
    history entries = before ++ (c, .received w) :: after →
    callsIn before = dueCalls (receipts before)
  | [], before, _, hsplit => by simp [history] at hsplit
  | e :: entries, before, hentries, hsplit => by
    obtain ⟨asks, d, hworks, hd⟩ := hentries e List.mem_cons_self
    rw [history, List.flatMap_cons] at hsplit
    rcases List.append_eq_append_iff.mp hsplit with ⟨later, rfl, hlater⟩ | ⟨rest, hfirst, hrest⟩
    · have hentries' : ∀ e ∈ entries, _ := fun e he => hentries e (List.mem_cons_of_mem _ he)
      have hih := callsIn_before_received hentries' hlater
      rw [callsIn_append, receipts_append, callsIn_eq_dueCalls hworks hd, hih]
      simp [dueCalls]
    · cases rest with
      | nil =>
        rw [List.append_nil] at hfirst
        rw [← hfirst]
        exact callsIn_eq_dueCalls hworks hd
      | cons x rest =>
        obtain ⟨rfl, -⟩ := List.cons_eq_cons.mp hrest
        obtain ⟨evs, evs', hevs, rfl, hrest'⟩ := List.map_eq_append_iff.mp hfirst
        obtain ⟨ev, evs'', rfl, hev, -⟩ := List.map_eq_cons_iff.mp hrest'
        cases hev
        rw [hevs] at hworks
        obtain ⟨asks', hbefore⟩ := hworks.before_received
        exact callsIn_eq_dueCalls hbefore rfl

/-- From a PUBLISH of quality 2 to a PUBREL of its identifier. -/
structure Window (id : UInt16) (history : List (MQTTClient τ H × Event H β)) where
  before : List (MQTTClient τ H × Event H β)
  client : MQTTClient τ H
  publish : WirePacket
  middle : List (MQTTClient τ H × Event H β)
  releaser : MQTTClient τ H
  pubrel : WirePacket
  after : List (MQTTClient τ H × Event H β)
  split : history = before ++ (client, .received publish) ::
    (middle ++ (releaser, .received pubrel) :: after)
  opens : publish.packet.qos2Id = some id
  closes : pubrel.packet = .pubrel id

namespace Window

variable {id : UInt16} {part : List (MQTTClient τ H × Event H β)}

/-- The calls for messages of the identifier from the PUBLISH to the PUBREL. -/
def calls (w : Window id part) : List (H × MessageContent) :=
  (callsIn w.middle).filter fun call => call.2.IsQos2 id

/-- One call of each handler of the first PUBLISH. -/
def once (w : Window id part) : List (H × MessageContent) :=
  deliveries (handlersFor w.client) w.publish.packet

end Window

/-- Of the calls for a packet all or none are for messages of the identifier. -/
theorem filter_deliveries (handlers : List UInt8 → List H) (packet : Inbound) (id : UInt16) :
    (deliveries handlers packet).filter (fun call => call.2.IsQos2 id) =
      if packet.qos2Id = some id then deliveries handlers packet else [] := by
  unfold deliveries
  cases hcontent : packet.content with
  | none => simp
  | some content =>
    have hid := content_isQos2_iff hcontent id
    split_ifs with h
    · exact List.filter_eq_self.mpr fun call hcall => by
        obtain ⟨fp, -, rfl⟩ := List.mem_map.mp hcall
        exact decide_eq_true (hid.mpr h)
    · refine List.filter_eq_nil_iff.mpr fun call hcall => ?_
      obtain ⟨fp, -, rfl⟩ := List.mem_map.mp hcall
      simpa using fun h' => h (hid.mp h')

theorem filter_dueCalls_eq_nil_iff (id : UInt16)
    (packets : List (MQTTClient τ H × WirePacket)) :
    (dueCalls packets).filter (fun call => call.2.IsQos2 id) = [] ↔
      ∀ c w, (c, w) ∈ packets → w.packet.qos2Id = some id →
        deliveries (handlersFor c) w.packet = [] := by
  rw [dueCalls, List.filter_flatMap, List.flatMap_eq_nil_iff]
  simp only [filter_deliveries, ite_eq_right_iff, Prod.forall]

/-- The calls from the PUBLISH to the PUBREL are those for the PUBLISH and those for
every other packet received meanwhile. -/
theorem Window.callsIn_middle {entries : List (Entry τ H β)} {id : UInt16}
    (window : Window id (history entries)) (hentries : ∀ e ∈ entries,
      ∃ asks d, Works (handlersFor e.client) .idle e.events asks d ∧ d.calls = []) :
    callsIn window.middle = window.once ++ dueCalls (receipts window.middle) := by
  have hbefore := callsIn_before_received hentries window.split
  have hsplit : history entries =
      (window.before ++ (window.client, .received window.publish) :: window.middle) ++
        (window.releaser, .received window.pubrel) :: window.after :=
    window.split.trans (by rw [List.append_assoc, List.cons_append])
  have hwhole := callsIn_before_received hentries hsplit
  rw [callsIn_append, receipts_append, hbefore] at hwhole
  unfold dueCalls at hwhole
  rw [List.flatMap_append] at hwhole
  exact List.append_cancel_left hwhole

/-- From the PUBLISH to the PUBREL every handler is called once, if and only if no other
PUBLISH of quality 2 with the identifier that comes meanwhile finds a handler. -/
theorem runCalls_deliveredOnce (env : PacketEnv ν τ H β) (fuel : ℕ) {calls : List (Call H)}
    {s t : Client (PacketWorld ν H β) τ H} {entries : List (Entry τ H β)}
    (hlegal : ∀ call ∈ calls, call.Legal) (hreading : s.world.reading = [])
    (hrun : runCalls env fuel calls s = .ok entries t)
    (hfits : ∀ e ∈ entries, ∀ w, Event.received w ∈ e.events →
      w.frame.stored.length ≤ e.client.readbuf.length)
    {id : UInt16} (window : Window id (history entries)) :
    window.calls = window.once ↔ ∀ c w, (c, w) ∈ receipts window.middle →
      w.packet.qos2Id = some id → deliveries (handlersFor c) w.packet = [] := by
  obtain ⟨-, hentries⟩ := wp_result (runCalls_conduct fuel hlegal hreading) hrun
  have hmiddle := window.callsIn_middle fun e he => by
    obtain ⟨-, _, asks, d, hconducted⟩ := hentries e he
    exact ⟨asks, d, hconducted.works, hconducted.settled (hfits e he)⟩
  have honce : window.once.filter (fun call => call.2.IsQos2 id) = window.once := by
    rw [Window.once, filter_deliveries, if_pos window.opens]
  rw [Window.calls, hmiddle, List.filter_append, honce, List.append_right_eq_self]
  exact filter_dueCalls_eq_nil_iff id _

/-- The window that two places of the history open and close. -/
def windowAt (id : UInt16) (part : List (MQTTClient τ H × Event H β)) (opening length : ℕ) :
    Option (Window id part) :=
  match hopen : part.drop opening with
  | (client, .received publish) :: rest =>
    match hclose : rest.drop length with
    | (releaser, .received pubrel) :: after =>
      if h : publish.packet.qos2Id = some id ∧ pubrel.packet = .pubrel id then
        some
          { before := part.take opening
            client := client
            publish := publish
            middle := rest.take length
            releaser := releaser
            pubrel := pubrel
            after := after
            split := by rw [← hclose, List.take_append_drop, ← hopen, List.take_append_drop]
            opens := h.1
            closes := h.2 }
      else none
    | _ => none
  | _ => none

/-- As in `arriving`, but a timer expires when nothing more is to come. -/
def ending : PacketEnv (List WirePacket) Unit Unit Unit where
  base := { arriving.base with timerIsExpired := fun _ inbox => (inbox.isEmpty, inbox) }
  next := arriving.next
  offer := arriving.offer
  renew := arriving.renew

def publishQos2 (dup : Bool) (id : UInt16) : WirePacket :=
  .ofInbound (.publish dup 2 false [97] id [1]) (by
    simp [Inbound.WellFormed, Inbound.body, Inbound.LegalPublish, publishBody, stringBytes,
      maxRemainingLength])

def release (id : UInt16) : WirePacket :=
  .ofInbound (.pubrel id) (by
    simp [Inbound.WellFormed, Inbound.body, Inbound.LegalPublish, maxRemainingLength])

def ping : WirePacket := .ofInbound .pingresp Inbound.pingresp_wellFormed

/-- A client with a default handler and no keepalive, to which these packets come. -/
def subscriber (inbox : List WirePacket) :
    Client (PacketWorld (List WirePacket) Unit Unit) Unit Unit where
  client := { receiver.client with keepAliveInterval := 0 }
  own := ()
  world := .fresh inbox

/-- The second PUBLISH is the first one sent again; the handler is called for both. -/
theorem runCalls_not_deliveredOnce :
    ∃ entries t, runCalls ending 8 [.yield 1000]
        (subscriber [publishQos2 false 7, publishQos2 true 7, release 7, ping]) = .ok entries t ∧
      ∃ window ∈ windowAt 7 (history entries) 0 5, window.calls ≠ window.once :=
  wp_total (by decide +kernel)

theorem runCalls_deliveredOnce_twoMessages :
    ∃ entries t, runCalls ending 8 [.yield 1000]
        (subscriber [publishQos2 false 7, publishQos2 false 8, release 7, ping]) = .ok entries t ∧
      ∃ window ∈ windowAt 7 (history entries) 0 5, window.calls = window.once := by
  obtain ⟨entries, t, hrun, hfits, window, hwindow, hothers⟩ : ∃ entries t,
      runCalls ending 8 [.yield 1000]
          (subscriber [publishQos2 false 7, publishQos2 false 8, release 7, ping]) =
        .ok entries t ∧
      (∀ e ∈ entries, ∀ w ∈ receivedPackets e.events,
        w.frame.stored.length ≤ e.client.readbuf.length) ∧
      ∃ window ∈ windowAt 7 (history entries) 0 5, ∀ receipt ∈ receipts window.middle,
        receipt.2.packet.qos2Id = some 7 →
          deliveries (handlersFor receipt.1) receipt.2.packet = [] :=
    wp_total (by decide +kernel)
  refine ⟨entries, t, hrun, window, hwindow, ?_⟩
  have hlegal : ∀ call ∈ [Call.yield 1000], (call : Call Unit).Legal := by
    intro call hcall
    rw [List.mem_singleton.mp hcall]
    trivial
  refine (runCalls_deliveredOnce ending 8 hlegal rfl hrun (fun e he w hw => ?_) window).mpr
    fun c w hmem => hothers (c, w) hmem
  exact hfits e he w (mem_receivedPackets.mpr hw)

end ClientC
end MqttEmbedded
