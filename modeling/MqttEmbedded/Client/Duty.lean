import MqttEmbedded.Client.PacketWorld

/-!
# What a client owes for a packet

The traces that a client of whole packets may add to a network. A packet that is
received imposes a duty: the calls of its handlers, then its acknowledgement. No
other packet is taken before the duty is done. Apart from acknowledgements and
pings the client sends what its application asks for.
-/

namespace MqttEmbedded

/-- What is left to be done for the packet received last. -/
structure Duty (H : Type) where
  calls : List (H × MessageContent)
  answer : Option (List UInt8)

variable {H β : Type}

namespace Duty

def idle : Duty H := ⟨[], none⟩

def of (handlers : List UInt8 → List H) (packet : Inbound) : Duty H :=
  ⟨deliveries handlers packet, packet.reply.map fun reply => ackBytes reply.1 reply.2⟩

end Duty

def pingBytes : List UInt8 := frameBytes (MQTTHeader.ofBits MsgType.pingreq.code 0 0 0) []

/-- From one duty to another; `asks` are the packets that were sent for the application. -/
inductive Works (handlers : List UInt8 → List H) :
    Duty H → List (Event H β) → List (List UInt8) → Duty H → Prop
  | done {d} : Works handlers d [] [] d
  | note {b d d' evs asks} : Works handlers d evs asks d' →
      Works handlers d (.note b :: evs) asks d'
  | received {w d' evs asks} : Works handlers (.of handlers w.packet) evs asks d' →
      Works handlers .idle (.received w :: evs) asks d'
  | called {fp content calls answer d' evs asks} : Works handlers ⟨calls, answer⟩ evs asks d' →
      Works handlers ⟨(fp, content) :: calls, answer⟩ (.called fp content :: evs) asks d'
  | answered {bytes d' evs asks} : Works handlers .idle evs asks d' →
      Works handlers ⟨[], some bytes⟩ (.sent bytes :: evs) asks d'
  | pinged {d' evs asks} : Works handlers .idle evs asks d' →
      Works handlers .idle (.sent pingBytes :: evs) asks d'
  | asked {bytes d' evs asks} : Works handlers .idle evs asks d' →
      Works handlers .idle (.sent bytes :: evs) (bytes :: asks) d'

namespace Works

variable {handlers : List UInt8 → List H} {d d' d'' : Duty H} {evs evs' : List (Event H β)}
  {asks asks' : List (List UInt8)}

theorem append (h : Works handlers d evs asks d') (h' : Works handlers d' evs' asks' d'') :
    Works handlers d (evs ++ evs') (asks ++ asks') d'' := by
  induction h with
  | done => exact h'
  | note _ ih => exact .note (ih h')
  | received _ ih => exact .received (ih h')
  | called _ ih => exact .called (ih h')
  | answered _ ih => exact .answered (ih h')
  | pinged _ ih => exact .pinged (ih h')
  | asked _ ih => exact .asked (ih h')

theorem notes (bs : List β) : Works handlers d (bs.map Event.note) [] d := by
  induction bs with
  | nil => exact .done
  | cons b bs ih => exact .note ih

theorem after_notes (bs : List β) (h : Works handlers d evs asks d') :
    Works handlers d (bs.map Event.note ++ evs) asks d' :=
  (notes bs).append h

theorem calls (calls : List (H × MessageContent)) (answer : Option (List UInt8)) :
    Works (β := β) handlers ⟨calls, answer⟩ (calls.map fun call => .called call.1 call.2) []
      ⟨[], answer⟩ := by
  induction calls with
  | nil => exact .done
  | cons call calls ih => exact .called ih

theorem not_renewed (h : Works handlers d evs asks d') : Event.renewed ∉ evs := by
  induction h with
  | done => exact List.not_mem_nil
  | note _ ih | received _ ih | called _ ih | answered _ ih | pinged _ ih | asked _ ih =>
    rw [List.mem_cons, not_or]
    exact ⟨nofun, ih⟩

end Works

/-- The packets received in a trace. -/
def receivedPackets (trace : List (Event H β)) : List WirePacket :=
  trace.filterMap fun
    | .received w => some w
    | _ => none

theorem mem_receivedPackets {w : WirePacket} {trace : List (Event H β)} :
    w ∈ receivedPackets trace ↔ .received w ∈ trace := by
  constructor
  · intro h
    obtain ⟨e, he, hw⟩ := List.mem_filterMap.mp h
    cases e with
    | received w' =>
      cases hw
      exact he
    | sent _ | called _ _ | renewed | note _ => cases hw
  · exact fun h => List.mem_filterMap.mpr ⟨_, h, rfl⟩

@[simp] theorem receivedPackets_append (evs evs' : List (Event H β)) :
    receivedPackets (evs ++ evs') = receivedPackets evs ++ receivedPackets evs' :=
  List.filterMap_append

@[simp] theorem receivedPackets_notes (bs : List β) :
    receivedPackets (bs.map Event.note : List (Event H β)) = [] := by
  simp [receivedPackets]

@[simp] theorem receivedPackets_cons_received (w : WirePacket) (evs : List (Event H β)) :
    receivedPackets (.received w :: evs) = w :: receivedPackets evs := rfl

@[simp] theorem receivedPackets_calls (calls : List (H × MessageContent)) :
    receivedPackets (calls.map fun call => (.called call.1 call.2 : Event H β)) = [] := by
  simp [receivedPackets]

@[simp] theorem receivedPackets_cons_sent (bytes : List UInt8) (evs : List (Event H β)) :
    receivedPackets (.sent bytes :: evs) = receivedPackets evs := rfl

@[simp] theorem receivedPackets_cons_called (fp : H) (content : MessageContent)
    (evs : List (Event H β)) : receivedPackets (.called fp content :: evs) = receivedPackets evs :=
  rfl

@[simp] theorem receivedPackets_cons_note (b : β) (evs : List (Event H β)) :
    receivedPackets (.note b :: evs) = receivedPackets evs := rfl

@[simp] theorem receivedPackets_nil : receivedPackets ([] : List (Event H β)) = [] := rfl

/-- The packets the client has sent, in their order. -/
def sentPackets (trace : List (Event H β)) : List (List UInt8) :=
  trace.filterMap fun
    | .sent bytes => some bytes
    | _ => none

@[simp] theorem sentPackets_nil : sentPackets ([] : List (Event H β)) = [] := rfl

@[simp] theorem sentPackets_cons_sent (bytes : List UInt8) (evs : List (Event H β)) :
    sentPackets (.sent bytes :: evs) = bytes :: sentPackets evs := rfl

@[simp] theorem sentPackets_cons_received (w : WirePacket) (evs : List (Event H β)) :
    sentPackets (.received w :: evs) = sentPackets evs := rfl

@[simp] theorem sentPackets_cons_called (fp : H) (content : MessageContent)
    (evs : List (Event H β)) : sentPackets (.called fp content :: evs) = sentPackets evs := rfl

@[simp] theorem sentPackets_cons_note (b : β) (evs : List (Event H β)) :
    sentPackets (.note b :: evs) = sentPackets evs := rfl

/-- The calls of the handlers, in their order. -/
def handlerCalls (trace : List (Event H β)) : List (H × MessageContent) :=
  trace.filterMap fun
    | .called fp content => some (fp, content)
    | _ => none

/-- Every packet leads to the calls of its handlers; what has not been called yet is
still owed. -/
theorem Works.handlerCalls_eq {handlers : List UInt8 → List H} {d d' : Duty H}
    {evs : List (Event H β)} {asks : List (List UInt8)} (h : Works handlers d evs asks d') :
    d.calls ++ (receivedPackets evs).flatMap (fun w => deliveries handlers w.packet) =
      handlerCalls evs ++ d'.calls := by
  induction h with
  | done => simp [handlerCalls]
  | note _ ih => exact ih
  | received _ ih => exact ih
  | called _ ih => exact congrArg (_ :: ·) ih
  | answered _ ih => exact ih
  | pinged _ ih => exact ih
  | asked _ ih => exact ih

/-- A packet is received when nothing is owed. -/
theorem Works.before_received {handlers : List UInt8 → List H} {w : WirePacket}
    {evs' : List (Event H β)} {d' : Duty H} : ∀ {evs : List (Event H β)} {d : Duty H}
    {asks : List (List UInt8)}, Works handlers d (evs ++ .received w :: evs') asks d' →
    ∃ asks', Works handlers d evs asks' .idle
  | [], _, _, h => by
    cases h
    exact ⟨[], .done⟩
  | e :: evs, d, asks, h => by
    cases h with
    | note h =>
      obtain ⟨asks', h'⟩ := before_received h
      exact ⟨asks', .note h'⟩
    | received h =>
      obtain ⟨asks', h'⟩ := before_received h
      exact ⟨asks', .received h'⟩
    | called h =>
      obtain ⟨asks', h'⟩ := before_received h
      exact ⟨asks', .called h'⟩
    | answered h =>
      obtain ⟨asks', h'⟩ := before_received h
      exact ⟨asks', .answered h'⟩
    | pinged h =>
      obtain ⟨asks', h'⟩ := before_received h
      exact ⟨asks', .pinged h'⟩
    | asked h =>
      obtain ⟨asks', h'⟩ := before_received h
      exact ⟨_, .asked h'⟩

/-- The packet received last is of this type. -/
def LastReceived (evs : List (Event H β)) (packetType : ℤ) : Prop :=
  ∃ w, (receivedPackets evs).getLast? = some w ∧ (w.packet.type.code : ℤ) = packetType

theorem LastReceived.append {evs' : List (Event H β)} {packetType : ℤ}
    (evs : List (Event H β)) (h : LastReceived evs' packetType) :
    LastReceived (evs ++ evs') packetType := by
  obtain ⟨w, hlast, htype⟩ := h
  exact ⟨w, by simp [List.getLast?_append, hlast], htype⟩

end MqttEmbedded
