import MqttEmbedded.Client.Respond

/-!
# Networks of whole packets

The peer and the client exchange whole packets: a header is there or it is not,
inside a packet nothing is missing, and what the client writes is taken whole or
refused. The environment is otherwise free in when and what it answers, and it
may note steps of its own in the trace, which holds everything both sides can see
of a run.
-/

namespace MqttEmbedded

open Region Hoare

/-- `renewed` is a new connection; the notes are the environment's. -/
inductive Event (H β : Type) where
  | received (w : WirePacket)
  | sent (bytes : List UInt8)
  | called (fp : H) (content : MessageContent)
  | renewed
  | note (b : β)

/-- What a client that waits for a header gets. -/
inductive Arrival where
  | packet (w : WirePacket)
  | nothing (rc : ℤ) (h : rc ≤ 0)

/-- What becomes of a packet that is offered to the network. -/
inductive Reception where
  | taken
  | refused (rc : ℤ) (h : rc ≤ 0)

/-- The timers and the handlers are those of `base`. -/
structure PacketEnv (ν τ H β : Type) where
  base : Platform ν τ H
  next : (timeout : ℤ) → ν → Arrival × List β × ν
  offer : (bytes : List UInt8) → (timeout : ℤ) → ν → Reception × List β × ν
  renew : ν → ν

variable {χ ν τ H β : Type}

namespace Arrival

def delivery (len : ℕ) : Arrival → Delivery len
  | packet w => .arrived (w.bytes.take len) (by simp)
  | nothing rc h => .failed rc h

/-- What is left of the packet when `len` bytes have been read. -/
def unread (len : ℕ) : Arrival → List UInt8
  | packet w => w.bytes.drop len
  | nothing _ _ => []

def events : Arrival → List (Event H β)
  | packet w => [.received w]
  | nothing _ _ => []

end Arrival

namespace Reception

def rc (len : ℕ) : Reception → ℤ
  | taken => len
  | refused rc _ => rc

def events (bytes : List UInt8) : Reception → List (Event H β)
  | taken => [.sent bytes]
  | refused _ _ => []

end Reception

/-- `reading` is what is left of the packet whose header has been read. -/
structure PacketWorld (ν H β : Type) where
  reading : List UInt8
  trace : List (Event H β)
  state : ν

namespace PacketWorld

/-- The first thing that happens to a client. -/
def fresh (state : ν) : PacketWorld ν H β := ⟨[], [], state⟩

variable (env : PacketEnv ν τ H β)

def mqttread (len : ℕ) (timeout : ℤ) (w : PacketWorld ν H β) :
    Delivery len × PacketWorld ν H β :=
  if w.reading = [] then
    let answer := env.next timeout w.state
    (answer.1.delivery len,
      { reading := answer.1.unread len
        trace := w.trace ++ (answer.2.1.map .note ++ answer.1.events)
        state := answer.2.2 })
  else
    (.arrived (w.reading.take len) (by simp), { w with reading := w.reading.drop len })

def mqttwrite (buffer : List UInt8) (len : ℕ) (timeout : ℤ) (w : PacketWorld ν H β) :
    ℤ × PacketWorld ν H β :=
  let answer := env.offer (buffer.take len) timeout w.state
  (answer.1.rc len,
    { w with
      trace := w.trace ++ (answer.2.1.map .note ++ answer.1.events (buffer.take len))
      state := answer.2.2 })

def invoke (fp : H) (md : MessageData) (w : PacketWorld ν H β) : PacketWorld ν H β :=
  { w with
    trace := w.trace ++ [.called fp md.content]
    state := env.base.invoke fp md w.state }

/-- A new connection: what was on the way in either direction is gone. -/
def renew (w : PacketWorld ν H β) : PacketWorld ν H β where
  reading := []
  trace := w.trace ++ [.renewed]
  state := env.renew w.state

end PacketWorld

namespace PacketEnv

variable (env : PacketEnv ν τ H β)

/-- A timer does not touch the network. -/
def onState {α : Type} (f : ν → α × ν) (w : PacketWorld ν H β) : α × PacketWorld ν H β :=
  ((f w.state).1, { w with state := (f w.state).2 })

def platform : Platform (PacketWorld ν H β) τ H where
  mqttread := PacketWorld.mqttread env
  mqttwrite := PacketWorld.mqttwrite env
  timerInit := onState env.base.timerInit
  timerIsExpired timer := onState (env.base.timerIsExpired timer)
  timerCountdownMS timer ms := onState (env.base.timerCountdownMS timer ms)
  timerCountdown timer seconds := onState (env.base.timerCountdown timer seconds)
  timerLeftMS timer := onState (env.base.timerLeftMS timer)
  invoke := PacketWorld.invoke env

/-- `K` allows what the timers do to the environment. -/
structure Steady (K : ν → ν → Prop) : Prop where
  refl : ∀ state, K state state
  trans : ∀ {u v w}, K u v → K v w → K u w
  timerInit : ∀ state, K state (env.base.timerInit state).2
  timerIsExpired : ∀ timer state, K state (env.base.timerIsExpired timer state).2
  timerCountdownMS : ∀ timer ms state, K state (env.base.timerCountdownMS timer ms state).2
  timerCountdown : ∀ timer seconds state, K state (env.base.timerCountdown timer seconds state).2
  timerLeftMS : ∀ timer state, K state (env.base.timerLeftMS timer state).2

theorem steady_any : env.Steady fun _ _ => True where
  refl := fun _ => trivial
  trans := fun _ _ => trivial
  timerInit := fun _ => trivial
  timerIsExpired := fun _ _ => trivial
  timerCountdownMS := fun _ _ _ => trivial
  timerCountdown := fun _ _ _ => trivial
  timerLeftMS := fun _ _ => trivial

variable {env} in
/-- Inside a packet nothing is ever missing. -/
def Steady.supply {K : ν → ν → Prop} (steady : env.Steady K) : Supply env.platform where
  pending := PacketWorld.reading
  lost := fun _ => False
  R := fun w t => t.trace = w.trace ∧ K w.state t.state
  refl := fun _ => ⟨rfl, steady.refl _⟩
  trans := fun h h' => ⟨h'.1.trans h.1, steady.trans h.2 h'.2⟩
  timerLeft := fun timer w => ⟨rfl, id, rfl, steady.timerLeftMS timer w.state⟩
  countdown := fun timer n w => ⟨rfl, id, rfl, steady.timerCountdown timer n w.state⟩
  stays := fun _ _ _ => id
  takes := by
    intro timeout w bytes rest hne h
    have hreading : w.reading ≠ [] := by
      rw [h]
      simp [hne]
    right
    have hread : env.platform.mqttread bytes.length timeout w =
        (.arrived (w.reading.take bytes.length) (by simp),
          { w with reading := w.reading.drop bytes.length }) := if_neg hreading
    rw [hread]
    simp [Delivery.arrived, h, steady.refl]

variable {env}

@[simp] theorem reading_invoke (fp : H) (md : MessageData) (w : PacketWorld ν H β) :
    (env.platform.invoke fp md w).reading = w.reading := rfl

@[simp] theorem trace_invoke (fp : H) (md : MessageData) (w : PacketWorld ν H β) :
    (env.platform.invoke fp md w).trace = w.trace ++ [.called fp md.content] := rfl

theorem mqttwrite_offer (buffer : List UInt8) (len : ℕ) (timeout : ℤ) (w : PacketWorld ν H β) :
    ∃ notes : List β, (env.platform.mqttwrite buffer len timeout w).2.reading = w.reading ∧
      (((env.platform.mqttwrite buffer len timeout w).1 = len ∧
        (env.platform.mqttwrite buffer len timeout w).2.trace =
          w.trace ++ (notes.map .note ++ [.sent (buffer.take len)])) ∨
      ((env.platform.mqttwrite buffer len timeout w).1 ≤ 0 ∧
        (env.platform.mqttwrite buffer len timeout w).2.trace =
          w.trace ++ notes.map .note)) := by
  refine ⟨(env.offer (buffer.take len) timeout w.state).2.1, rfl, ?_⟩
  simp only [platform, PacketWorld.mqttwrite]
  cases (env.offer (buffer.take len) timeout w.state).1 with
  | taken => exact .inl ⟨rfl, rfl⟩
  | refused rc h => exact .inr ⟨h, by simp [Reception.events]⟩

theorem trace_invokeAll (md : MessageData) (fps : List H) (w : PacketWorld ν H β) :
    (invokeAll env.platform md fps w).trace =
      w.trace ++ fps.map fun fp => .called fp md.content := by
  induction fps generalizing w with
  | nil => simp [invokeAll]
  | cons fp fps ih =>
    simp only [invokeAll] at ih ⊢
    rw [List.foldl_cons, ih, trace_invoke]
    simp

/-- The calls for a PUBLISH in the buffer are those that the packet leads to. -/
theorem trace_invokeAll_publish (handlers : List UInt8 → List H) {dup : Bool} {qos : ℕ}
    {retained : Bool} {topic : List UInt8} {id : UInt16} {payload tail : List UInt8}
    (w : PacketWorld ν H β) :
    (invokeAll env.platform (publishData dup qos retained topic id payload tail)
        (handlers topic) w).trace =
      w.trace ++ (deliveries handlers (.publish dup qos retained topic id payload)).map
        fun call => .called call.1 call.2 := by
  rw [trace_invokeAll, content_publishData]
  simp only [deliveries, Inbound.content, List.map_map, Function.comp_def]
  rfl

theorem reading_invokeAll (md : MessageData) (fps : List H) (w : PacketWorld ν H β) :
    (invokeAll env.platform md fps w).reading = w.reading := by
  induction fps generalizing w with
  | nil => rfl
  | cons fp fps ih =>
    simp only [invokeAll] at ih ⊢
    rw [List.foldl_cons, ih, reading_invoke]

end PacketEnv

section Reading

variable {env : PacketEnv ν τ H β} {s : Session χ (PacketWorld ν H β) τ H}
  {tooLong : ℕ → ℕ → ℕ → Bool} {shortBody : ℤ} {timer : τ}

/-- What the environment answers to `readPacket`. -/
def arrivalAt (env : PacketEnv ν τ H β) (timer : τ) (state : ν) : Arrival × List β × ν :=
  env.next (env.base.timerLeftMS timer state).1 (env.base.timerLeftMS timer state).2

/-- The session and the world once the environment has answered. -/
def afterHeader (env : PacketEnv ν τ H β) (timeout : ℤ)
    (s : Session χ (PacketWorld ν H β) τ H) :
    Session χ (PacketWorld ν H β) τ H where
  client :=
    { s.client with
      readbuf := overwrite s.client.readbuf 0
        ((env.next timeout s.world.state).1.delivery 1).data }
  own := s.own
  world :=
    { reading := (env.next timeout s.world.state).1.unread 1
      trace := s.world.trace ++ ((env.next timeout s.world.state).2.1.map .note ++
        (env.next timeout s.world.state).1.events)
      state := (env.next timeout s.world.state).2.2 }

theorem wp_readHeader {Q : ℤ → Session χ (PacketWorld ν H β) τ H → Prop}
    {E : Fault → Session χ (PacketWorld ν H β) τ H → Prop} (timeout : ℤ)
    (hreading : s.world.reading = []) (hroom : 1 ≤ s.client.readbuf.length) :
    wp (readInto env.platform 0 1 timeout) Q E s ↔
      Q ((env.next timeout s.world.state).1.delivery 1).rc (afterHeader env timeout s) := by
  have hread : env.platform.mqttread 1 timeout s.world =
      ((env.next timeout s.world.state).1.delivery 1, (afterHeader env timeout s).world) :=
    if_pos hreading
  rw [wp_readInto _ (by omega), hread]
  rfl

theorem wp_readPacketWith {Q : ℤ → Session χ (PacketWorld ν H β) τ H → Prop}
    {E : Fault → Session χ (PacketWorld ν H β) τ H → Prop}
    (hreading : s.world.reading = []) (hroom : 1 ≤ s.client.readbuf.length) :
    wp (readPacketWith env.platform tooLong shortBody timer) Q E s ↔
      wp (if ((arrivalAt env timer s.world.state).1.delivery 1).rc ≠ 1 then
          pure ((arrivalAt env timer s.world.state).1.delivery 1).rc
        else readRest env.platform tooLong shortBody timer) Q E
        (afterHeader env (env.base.timerLeftMS timer s.world.state).1 { s with
          world := (env.platform.timerLeftMS timer s.world).2 }) := by
  unfold readPacketWith
  rw [wp_bind, wp_ask, wp_bind, wp_readHeader (s := { s with
    world := (env.platform.timerLeftMS timer s.world).2 }) _ hreading hroom]
  rfl

theorem afterHeader_packet {timeout : ℤ} {w : WirePacket}
    (hnext : (env.next timeout s.world.state).1 = .packet w) :
    (afterHeader env timeout s).client =
        { s.client with readbuf := overwrite s.client.readbuf 0 [w.packet.header] } ∧
      (afterHeader env timeout s).world.reading = w.frame.field ++ (w.frame.body ++ []) ∧
      (afterHeader env timeout s).world.trace = s.world.trace ++
        ((env.next timeout s.world.state).2.1.map .note ++ [.received w]) := by
  simp [afterHeader, hnext, Arrival.delivery, Delivery.arrived, Arrival.unread, Arrival.events,
    WirePacket.bytes, WireFrame.bytes, WirePacket.frame]

theorem readPacketWith_nothing {rc : ℤ} {h : rc ≤ 0} (hreading : s.world.reading = [])
    (hroom : 1 ≤ s.client.readbuf.length)
    (hnext : (arrivalAt env timer s.world.state).1 = .nothing rc h) :
    wp (readPacketWith env.platform tooLong shortBody timer)
      (fun rc' t => rc' = rc ∧ t.own = s.own ∧ t.client = s.client ∧ t.world.reading = [] ∧
        t.world.trace = s.world.trace ++ (arrivalAt env timer s.world.state).2.1.map .note ∧
        t.world.state = (arrivalAt env timer s.world.state).2.2)
      (fun _ _ => False) s := by
  have hrc : ((Arrival.nothing rc h).delivery 1).rc ≠ 1 := by
    change rc ≠ 1
    omega
  rw [wp_readPacketWith hreading hroom, hnext, if_pos hrc, wp_pure]
  unfold arrivalAt at *
  simp only [afterHeader, PacketEnv.platform, PacketEnv.onState, hnext, Arrival.delivery,
    Delivery.failed, Arrival.unread, Arrival.events, overwrite_nil, List.append_nil]
  exact ⟨trivial, trivial, trivial, trivial, trivial, trivial⟩

theorem readPacketWith_packet {K : ν → ν → Prop} (steady : env.Steady K) {w : WirePacket}
    (hreading : s.world.reading = []) (hfits : w.frame.stored.length ≤ s.client.readbuf.length)
    (htest : tooLong s.client.readbuf.length (1 + (Leb128.encode w.packet.body.length).length)
      w.packet.body.length = false)
    (hnext : (arrivalAt env timer s.world.state).1 = .packet w) :
    wp (readPacketWith env.platform tooLong shortBody timer)
      (fun rc t => rc = w.frame.type ∧ t.own = s.own ∧ t.world.reading = [] ∧
        t.world.trace = s.world.trace ++
          ((arrivalAt env timer s.world.state).2.1.map .note ++ [.received w]) ∧
        K (arrivalAt env timer s.world.state).2.2 t.world.state ∧
        ∃ lastReceived, t.client = { s.client with
          readbuf := overwrite s.client.readbuf 0 w.frame.stored
          lastReceived := lastReceived })
      (fun _ _ => False) s := by
  have hroom : 1 ≤ s.client.readbuf.length := by
    rw [w.frame.length_stored] at hfits
    omega
  rw [wp_readPacketWith hreading hroom, hnext]
  have hone : ¬ ((Arrival.packet w).delivery 1).rc ≠ 1 := by
    simp [Arrival.delivery, Delivery.arrived, WirePacket.bytes, WireFrame.bytes]
  rw [if_neg hone]
  unfold arrivalAt at *
  obtain ⟨hclient, hpending, htrace⟩ := afterHeader_packet (s := { s with
    world := (env.platform.timerLeftMS timer s.world).2 }) hnext
  have hbuf := congrArg MQTTClient.readbuf hclient
  apply wp_mono (steady.supply.readRest_frame hfits hbuf htest hpending)
  · rintro rc t (hlost | ⟨rfl, hown, hrest, ⟨htrace', hstate⟩, lastReceived, hclient'⟩)
    · exact hlost.elim
    · rw [hclient] at hclient'
      exact ⟨rfl, hown, hrest, htrace'.trans htrace, hstate, lastReceived, hclient'⟩
  · exact fun _ _ => id

/-- A packet that does not fit is left where it is. -/
theorem readPacketWith_overflow {w : WirePacket} (hreading : s.world.reading = [])
    (hroom : 1 ≤ s.client.readbuf.length)
    (htest : 1 + (Leb128.encode w.packet.body.length).length ≤ s.client.readbuf.length →
      tooLong s.client.readbuf.length (1 + (Leb128.encode w.packet.body.length).length)
        w.packet.body.length = true)
    (hnext : (arrivalAt env timer s.world.state).1 = .packet w) :
    wp (readPacketWith env.platform tooLong shortBody timer)
      (fun rc t => rc = bufferOverflow ∧ t.own = s.own ∧
        t.world.trace = s.world.trace ++
          ((arrivalAt env timer s.world.state).2.1.map .note ++ [.received w]) ∧
        ∃ readbuf, readbuf.length = s.client.readbuf.length ∧
          t.client = { s.client with readbuf := readbuf })
      (fun _ _ => True) s := by
  rw [wp_readPacketWith hreading hroom, hnext]
  have hone : ¬ ((Arrival.packet w).delivery 1).rc ≠ 1 := by
    simp [Arrival.delivery, Delivery.arrived, WirePacket.bytes, WireFrame.bytes]
  rw [if_neg hone]
  unfold arrivalAt at *
  obtain ⟨hclient, hpending, htrace⟩ := afterHeader_packet (s := { s with
    world := (env.platform.timerLeftMS timer s.world).2 }) hnext
  have hlen : (overwrite s.client.readbuf 0 [w.packet.header]).length = s.client.readbuf.length :=
    length_overwrite (by simpa using hroom)
  generalize hafter : afterHeader env (env.base.timerLeftMS timer s.world.state).1 { s with
    world := (env.platform.timerLeftMS timer s.world).2 } = u at *
  have htest' : 1 + (Leb128.encode w.frame.body.length).length ≤ u.client.readbuf.length →
      tooLong u.client.readbuf.length (1 + (Leb128.encode w.frame.body.length).length)
        w.frame.body.length = true := by
    rw [hclient]
    dsimp only
    rw [hlen]
    exact htest
  apply wp_imp (env.steady_any.supply.readRest_overflow htest' hpending)
  rintro rc t (hlost | ⟨rfl, hown, ⟨htrace', -⟩, readbuf, hlength, hclient'⟩)
  · exact hlost.elim
  · rw [hclient] at hclient' hlength
    exact ⟨rfl, hown.trans (hafter ▸ rfl), htrace'.trans htrace, readbuf, hlength.trans hlen,
      hclient'⟩

end Reading
end MqttEmbedded
