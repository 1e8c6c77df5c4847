import MqttEmbedded.Client.PacketWorld
import MqttEmbedded.Linux.Runs

/-!
# Whole packets over Linux sockets

A peer that sends well-formed packets and takes a write whole or refuses it. On the sockets it
is a stream of bytes, and nothing in the stream says where a packet ends; the clients find
their way in it, and what they do there is what they do in a network of whole packets.
-/

namespace MqttEmbedded.Linux

open Region Hoare

variable {ν σ H β χ : Type} {size : ℕ}

/-- A packet that is on its way, and what the peer did before it sent the packet. -/
structure Parcel (β : Type) where
  notes : List β
  packet : WirePacket

def Parcel.bytes (parcel : Parcel β) : List UInt8 := parcel.packet.bytes

/-- The peer and the system clock, as `Peer`, when whole packets come; `renew` is a new
connection. -/
structure PacketPeer (ν H β : Type) where
  gettimeofday : ν → Timeval × ν
  pause : (timeout : Timeval) → ν → Pause × List β × List (Parcel β) × ν
  offer : (bytes : List UInt8) → (timeout : Timeval) → ν → Reception × List β × List (Parcel β) × ν
  invoke : H → MessageData → ν → ν
  renew : ν → ν

/-- The packets that come before the next pause. -/
structure Queue (ν β : Type) where
  parcels : List (Parcel β)
  state : ν

def Pause.arrival : Pause → Arrival
  | again => .nothing 0 Delivery.none_nonpos
  | closed => .nothing 0 Delivery.none_nonpos
  | failed => .nothing (-1) Delivery.error_nonpos

namespace PacketPeer

variable (peer : PacketPeer ν H β)

/-- What there is of it on the sockets. -/
def stream : Peer ν H where
  gettimeofday := peer.gettimeofday
  pause := fun timeout state =>
    let answer := peer.pause timeout state
    (answer.1, answer.2.2.1.flatMap Parcel.bytes, answer.2.2.2)
  write := fun bytes len timeout state =>
    let answer := peer.offer bytes timeout state
    (answer.1.rc len, answer.2.2.1.flatMap Parcel.bytes, answer.2.2.2)
  invoke := peer.invoke

def time (q : Queue ν β) : Timeval × Queue ν β :=
  ((peer.gettimeofday q.state).1, { q with state := (peer.gettimeofday q.state).2 })

def next (timeoutMs : ℤ) (q : Queue ν β) : Arrival × List β × Queue ν β :=
  match q.parcels with
  | [] =>
    let answer := peer.pause (rcvTimeout timeoutMs) q.state
    (answer.1.arrival, answer.2.1, ⟨answer.2.2.1, answer.2.2.2⟩)
  | parcel :: parcels => (.packet parcel.packet, parcel.notes, { q with parcels := parcels })

def accept (bytes : List UInt8) (timeoutMs : ℤ) (q : Queue ν β) :
    Reception × List β × Queue ν β :=
  let answer := peer.offer bytes (sndTimeout timeoutMs) q.state
  (answer.1, answer.2.1, ⟨q.parcels ++ answer.2.2.1, answer.2.2.2⟩)

/-- The network of whole packets; the timers are those of the sockets. -/
def env (base : Platform (Queue ν β) Timeval H) : PacketEnv (Queue ν β) Timeval H β where
  base := base
  next := peer.next
  offer := peer.accept
  renew := fun q => ⟨[], peer.renew q.state⟩

/-- The timers of `MQTTLinux.c`; of the network nothing is asked here. -/
def timers : Platform (Queue ν β) Timeval H where
  mqttread := fun _ _ q => (.failed (-1) Delivery.error_nonpos, q)
  mqttwrite := fun _ _ _ q => (-1, q)
  timerInit := timerInit
  timerIsExpired := timerIsExpired peer.time
  timerCountdownMS := fun _ => timerCountdownMS peer.time
  timerCountdown := fun _ => timerCountdown peer.time
  timerLeftMS := timerLeftMS peer.time
  invoke := fun fp md q => { q with state := peer.invoke fp md q.state }

/-- The timers of `linux.cpp`. -/
def timersCpp (stale : Timeval) : Platform (Queue ν β) Timeval H where
  mqttread := fun _ _ q => (.failed (-1) Delivery.error_nonpos, q)
  mqttwrite := fun _ _ _ q => (-1, q)
  timerInit := fun q => (stale, q)
  timerIsExpired := Countdown.expired peer.time
  timerCountdownMS := fun _ => Countdown.countdownMs peer.time
  timerCountdown := fun _ => Countdown.countdown peer.time
  timerLeftMS := Countdown.leftMs peer.time
  invoke := fun fp md q => { q with state := peer.invoke fp md q.state }

/-- No packet is longer than the receive buffer. -/
structure Fits (size : ℕ) : Prop where
  pause : ∀ timeout state, ∀ parcel ∈ (peer.pause timeout state).2.2.1,
    parcel.packet.frame.stored.length ≤ size
  offer : ∀ bytes timeout state, ∀ parcel ∈ (peer.offer bytes timeout state).2.2.1,
    parcel.packet.frame.stored.length ≤ size

end PacketPeer

/-- `rest` is what is left of the packet that is being read. -/
structure Carries (size : ℕ) (rest : List UInt8) (i : Incoming ν)
    (w : PacketWorld (Queue ν β) H β) : Prop where
  reading : w.reading = rest
  pending : i.pending = rest ++ w.state.parcels.flatMap Parcel.bytes
  state : i.state = w.state.state
  fits : ∀ parcel ∈ w.state.parcels, parcel.packet.frame.stored.length ≤ size

/-- Somewhere in a packet or between two. -/
def CarriesSome (size : ℕ) (i : Incoming ν) (w : PacketWorld (Queue ν β) H β) : Prop :=
  ∃ rest, Carries size rest i w

/-- One byte has been returned, the first of a packet, or nothing has come. -/
def Headed (size : ℕ) (rc : ℤ) (i : Incoming ν) (w : PacketWorld (Queue ν β) H β) : Prop :=
  (rc = 1 ∧ ∃ packet : WirePacket,
      Carries size (packet.frame.field ++ packet.frame.body) i w) ∨
    (rc ≠ 1 ∧ Carries size [] i w)

section Carries

variable {peer : PacketPeer ν H β} {base : Platform (Queue ν β) Timeval H}
  {i : Incoming ν} {w : PacketWorld (Queue ν β) H β}

theorem Headed.carriesSome {rc : ℤ} (h : Headed size rc i w) : CarriesSome size i w := by
  rcases h with ⟨-, _, h⟩ | ⟨-, h⟩
  · exact ⟨_, h⟩
  · exact ⟨_, h⟩

theorem fill_headed (base : Platform (Queue ν β) Timeval H) {closed : Filled 1 → Delivery 1}
    (fits : peer.Fits size)
    (hclosed : closed (.empty 1) = .failed 0 Delivery.none_nonpos) (timeoutMs : ℤ)
    (h : Carries size [] i w) :
    (PacketWorld.mqttread (peer.env base) 1 timeoutMs w).1 =
        (peer.stream.fill closed (rcvTimeout timeoutMs) (.empty 1) i).1 ∧
      Headed size (peer.stream.fill closed (rcvTimeout timeoutMs) (.empty 1) i).1.rc
        (peer.stream.fill closed (rcvTimeout timeoutMs) (.empty 1) i).2
        (PacketWorld.mqttread (peer.env base) 1 timeoutMs w).2 := by
  obtain ⟨bytes, state⟩ := i
  obtain ⟨reading, trace, parcels, state'⟩ := w
  obtain ⟨rfl, hpending, rfl, hfits⟩ := h
  change bytes = [] ++ parcels.flatMap Parcel.bytes at hpending
  cases parcels with
  | nil =>
    obtain rfl : bytes = [] := hpending
    have hmore := fits.pause (rcvTimeout timeoutMs) state
    unfold Peer.fill
    rw [dif_pos (show ([] : List UInt8).length < (Filled.empty 1).room by decide)]
    simp only [PacketWorld.mqttread, PacketPeer.env, PacketPeer.next, PacketPeer.stream]
    generalize peer.pause (rcvTimeout timeoutMs) state = answer at hmore
    obtain ⟨pause, notes, more, state'⟩ := answer
    cases pause with
    | again => exact ⟨rfl, .inr ⟨zero_ne_one, rfl, rfl, rfl, hmore⟩⟩
    | closed =>
      change _ = closed (.empty 1) ∧ Headed size (closed (.empty 1)).rc _ _
      rw [hclosed]
      exact ⟨rfl, .inr ⟨zero_ne_one, rfl, rfl, rfl, hmore⟩⟩
    | failed =>
      have hrc : (-1 : ℤ) ≠ 1 := by decide
      exact ⟨rfl, .inr ⟨hrc, rfl, rfl, rfl, hmore⟩⟩
  | cons parcel parcels =>
    obtain rfl : bytes = parcel.packet.frame.header :: (parcel.packet.frame.field ++
        parcel.packet.frame.body ++ parcels.flatMap Parcel.bytes) := hpending
    unfold Peer.fill
    rw [dif_neg (by simp [Filled.room, Filled.empty])]
    exact ⟨rfl, .inl ⟨rfl, parcel.packet, rfl, rfl, rfl, fun parcel' h' =>
      hfits parcel' (List.mem_cons_of_mem parcel h')⟩⟩

theorem fill_within (base : Platform (Queue ν β) Timeval H) (data : List UInt8)
    {rest : List UInt8} (closed : Filled data.length → Delivery data.length) (timeoutMs : ℤ)
    (hdata : data ≠ []) (h : Carries size (data ++ rest) i w) :
    (PacketWorld.mqttread (peer.env base) data.length timeoutMs w).1 =
        (peer.stream.fill closed (rcvTimeout timeoutMs) (.empty data.length) i).1 ∧
      Carries size rest
        (peer.stream.fill closed (rcvTimeout timeoutMs) (.empty data.length) i).2
        (PacketWorld.mqttread (peer.env base) data.length timeoutMs w).2 := by
  have hreading : w.reading ≠ [] := by simp [h.reading, hdata]
  have hroom : (Filled.empty data.length).room = data.length := by simp [Filled.room, Filled.empty]
  have hnot : ¬ i.pending.length < (Filled.empty data.length).room := by
    rw [hroom, h.pending]
    simp
  have htaken : w.reading.take data.length =
      [] ++ i.pending.take (Filled.empty data.length).room := by
    simp [hroom, h.reading, h.pending]
  unfold Peer.fill PacketWorld.mqttread
  rw [dif_neg hnot, if_neg hreading]
  refine ⟨?_, ?_, ?_, h.state, h.fits⟩
  · simp only [htaken]
    rfl
  · simp [h.reading]
  · simp [hroom, h.pending]

theorem fill_one {closed : Filled 1 → Delivery 1} (fits : peer.Fits size)
    (hclosed : closed (.empty 1) = .failed 0 Delivery.none_nonpos) (timeoutMs : ℤ)
    (h : CarriesSome size i w) :
    (PacketWorld.mqttread (peer.env base) 1 timeoutMs w).1 =
        (peer.stream.fill closed (rcvTimeout timeoutMs) (.empty 1) i).1 ∧
      CarriesSome size (peer.stream.fill closed (rcvTimeout timeoutMs) (.empty 1) i).2
        (PacketWorld.mqttread (peer.env base) 1 timeoutMs w).2 := by
  obtain ⟨rest, h⟩ := h
  cases rest with
  | nil =>
    obtain ⟨hanswer, hheaded⟩ := fill_headed base fits hclosed timeoutMs h
    exact ⟨hanswer, hheaded.carriesSome⟩
  | cons b rest =>
    obtain ⟨hanswer, hcarries⟩ :=
      fill_within base [b] closed timeoutMs (List.cons_ne_nil b []) h
    exact ⟨hanswer, rest, hcarries⟩

end Carries

/-- The platforms that the two clients rely on, as far as the stream is concerned. -/
structure PacketPeer.Serves (peer : PacketPeer ν H β) (base : Platform (Queue ν β) Timeval H)
    (p : Platform (Incoming ν) Timeval H) (size : ℕ) : Prop where
  alike : ∀ rest, p.Alike (peer.env base).platform (Carries size rest)
  mqttread : ∀ len timeoutMs, ∃ closed : Filled len → Delivery len,
    closed (.empty len) = .failed 0 Delivery.none_nonpos ∧
      ∀ i, p.mqttread len timeoutMs i =
        peer.stream.fill closed (rcvTimeout timeoutMs) (.empty len) i

section Reading

variable {peer : PacketPeer ν H β} {base : Platform (Queue ν β) Timeval H}
  {p : Platform (Incoming ν) Timeval H} {tooLong : ℕ → ℕ → ℕ → Bool} {shortBody : ℤ}
  {timer : Timeval}

/-- The two sessions somewhere in the stream. -/
abbrev Along (χ : Type) (size : ℕ) (s : Session χ (Incoming ν) Timeval H)
    (s' : Session χ (PacketWorld (Queue ν β) H β) Timeval H) : Prop :=
  Together (CarriesSome size) size s s'

theorem along {rest : List UInt8} {s : Session χ (Incoming ν) Timeval H}
    {s' : Session χ (PacketWorld (Queue ν β) H β) Timeval H}
    (h : Together (Carries size rest) size s s') : Along χ size s s' :=
  ⟨h.client, h.own, ⟨rest, h.world⟩, h.size⟩

theorem carries_of_reading {rest : List UInt8} {s : Session χ (Incoming ν) Timeval H}
    {s' : Session χ (PacketWorld (Queue ν β) H β) Timeval H} (h : Along χ size s s')
    (hrest : s'.world.reading = rest) : Together (Carries size rest) size s s' := by
  obtain ⟨hclient, hown, ⟨rest', hcarries⟩, hsize⟩ := h
  obtain rfl : rest' = rest := hcarries.reading.symm.trans hrest
  exact ⟨hclient, hown, hcarries, hsize⟩

theorem lockstep_along {α : Type} {rest : List UInt8}
    {x : Prog (Session χ (Incoming ν) Timeval H) α}
    {y : Prog (Session χ (PacketWorld (Queue ν β) H β) Timeval H) α}
    (h : Parallel (Carries size rest) size x y) :
    Lockstep (Together (Carries size rest) size) (fun _ => Together (Carries size rest) size)
      (Along χ size) x y :=
  h.imp (fun _ _ => id) (fun _ _ _ => id) fun _ _ => along

/-- In the network of packets a length field that has come whole is read. -/
theorem decodePacket_reading (frame : WireFrame) (timeout : ℤ)
    (s : Session χ (PacketWorld (Queue ν β) H β) Timeval H)
    (hreading : s.world.reading = frame.field ++ frame.body) :
    wp (decodePacket (peer.env base).platform timeout)
      (fun decoded t => decoded.2 = frame.body.length ∧ t.world.reading = frame.body)
      (fun _ _ => False) s := by
  let supply := (peer.env base).steady_any.supply
  have : IsTrans (Session χ (PacketWorld (Queue ν β) H β) Timeval H)
      fun s t => t.client = s.client ∧ t.own = s.own ∧ supply.R s.world t.world :=
    ⟨fun _ _ _ h h' => ⟨h'.1.trans h.1, h'.2.1.trans h.2.1, supply.trans h.2.2 h'.2.2⟩⟩
  apply wp_imp (mqttPacketDecode_field (supply.feeds timeout) frame.isField frame.length_field
    hreading)
  rintro decoded t (hlost | ⟨rfl, hrest, -⟩)
  · exact hlost.elim
  · exact ⟨rfl, hrest⟩

variable (serves : peer.Serves base p size) (fits : peer.Fits size)
include serves

theorem readBody_lockstep (len : ℕ) (body : List UInt8) :
    Lockstep (Together (Carries size body) size) (fun _ => Together (Carries size []) size)
      (Along χ size) (readBody p len body.length timer)
      (readBody (peer.env base).platform len body.length timer) := by
  unfold readBody
  refine Lockstep.ite (fun hzero => ?_) fun hpos => ?_
  · obtain rfl := List.length_eq_zero_iff.mp hzero
    exact Lockstep.pure fun _ _ h => h
  · refine Lockstep.bind (lockstep_along (.ask ((serves.alike body).timerLeftMS timer)))
      fun left => ?_
    have hread : Lockstep (Together (Carries size body) size)
        (fun _ => Together (Carries size []) size) (Together (Carries size body) size)
        (readInto p len body.length left : Prog (Session χ (Incoming ν) Timeval H) ℤ)
        (readInto (peer.env base).platform len body.length left) := by
      refine readInto_lockstep fun _ i w h => ?_
      obtain ⟨closed, -, heq⟩ := serves.mqttread body.length left
      rw [heq]
      exact fill_within base body closed left (fun hnil => hpos (List.length_eq_zero_iff.mpr hnil))
        (by rwa [List.append_nil])
    refine (hread.imp (fun _ _ => id) (fun _ _ _ => id) fun _ _ => along).bind fun rc => ?_
    exact Lockstep.pure fun _ _ => id

theorem readRemaining_lockstep (body : List UInt8) :
    Lockstep (Together (Carries size body) size) (fun _ => Along χ size) (Along χ size)
      (readRemaining p tooLong shortBody timer body.length)
      (readRemaining (peer.env base).platform tooLong shortBody timer body.length) := by
  have hrecord : Lockstep (Together (Carries size []) size)
      (fun _ => Together (Carries size []) size) (Along χ size)
      (recordReceived p : Prog (Session χ (Incoming ν) Timeval H) PUnit)
      (recordReceived (peer.env base).platform) :=
    lockstep_along (recordReceived_parallel (serves.alike []))
  refine Lockstep.bind (lockstep_along (encodeIntoReadbuf_parallel 1 _)) fun n => ?_
  refine Lockstep.bind (lockstep_along .getClient) fun c => ?_
  refine Lockstep.ite (fun _ => Lockstep.pure fun _ _ => along) fun _ => ?_
  refine Lockstep.bind (readBody_lockstep serves (1 + n) body) fun complete => ?_
  refine Lockstep.ite (fun _ => ?_) fun _ => Lockstep.pure fun _ _ => along
  refine Lockstep.bind (lockstep_along .getClient) fun c => ?_
  exact Lockstep.bind hrecord fun _ => Lockstep.pure fun _ _ => along

include fits

theorem readRest_lockstep (frame : WireFrame) :
    Lockstep (Together (Carries size (frame.field ++ frame.body)) size) (fun _ => Along χ size)
      (Along χ size) (readRest p tooLong shortBody timer)
      (readRest (peer.env base).platform tooLong shortBody timer) := by
  refine Lockstep.bind (lockstep_along (.ask ((serves.alike _).timerLeftMS timer))) fun left => ?_
  have hone : AnswersAlike (CarriesSome size) (p.mqttread 1 left)
      ((peer.env base).platform.mqttread 1 left) := by
    intro i w h
    obtain ⟨closed, hclosed, heq⟩ := serves.mqttread 1 left
    rw [heq]
    exact fill_one fits hclosed left h
  have hdecode : Lockstep (Together (Carries size (frame.field ++ frame.body)) size)
      (fun _ => Along χ size) (Along χ size) (decodePacket p left)
      (decodePacket (peer.env base).platform left) :=
    (decodePacket_parallel hone).imp (fun _ _ => along) (fun _ _ _ => id) fun _ _ => id
  refine Lockstep.bind ((hdecode.and_wp fun s s' h =>
    decodePacket_reading frame left s' h.world.reading).imp (fun _ _ => id) (fun _ _ _ => id)
      fun _ _ h => h.1) ?_
  rintro ⟨count, remLen⟩ t t' ⟨h, hlength, hreading⟩
  obtain rfl : remLen = frame.body.length := hlength
  exact readRemaining_lockstep serves frame.body t t' (carries_of_reading h hreading)

theorem readPacketWith_along :
    Lockstep (Together (Carries size []) size) (fun _ => Along χ size) (Along χ size)
      (readPacketWith p tooLong shortBody timer)
      (readPacketWith (peer.env base).platform tooLong shortBody timer) := by
  refine Lockstep.bind (lockstep_along (.ask ((serves.alike []).timerLeftMS timer)))
    fun left => ?_
  have hheader : Lockstep (Together (Carries size []) size)
      (fun rc => Together (Headed size rc) size) (Together (Carries size []) size)
      (readInto p 0 1 left : Prog (Session χ (Incoming ν) Timeval H) ℤ)
      (readInto (peer.env base).platform 0 1 left) := by
    refine readInto_lockstep fun _ i w h => ?_
    obtain ⟨closed, hclosed, heq⟩ := serves.mqttread 1 left
    rw [heq]
    exact fill_headed base fits hclosed left h
  refine Lockstep.bind (hheader.imp (fun _ _ => id) (fun _ _ _ => id) fun _ _ => along) fun rc =>
    Lockstep.ite (fun _ => Lockstep.pure fun s s' h => ?_) fun hrc s s' h => ?_
  · exact ⟨h.client, h.own, h.world.carriesSome, h.size⟩
  · obtain ⟨-, packet, hcarries⟩ := h.world.resolve_right fun hnot => hrc hnot.1
    exact readRest_lockstep serves fits packet.frame s s' ⟨h.client, h.own, hcarries, h.size⟩

omit fits in
/-- In the network of packets nothing is left of a packet that fits. -/
theorem readPacketWith_whole (htest : ∀ frame : WireFrame, frame.stored.length ≤ size →
      tooLong size (1 + (Leb128.encode frame.body.length).length) frame.body.length = false)
    {s : Session χ (Incoming ν) Timeval H}
    {s' : Session χ (PacketWorld (Queue ν β) H β) Timeval H}
    (h : Together (Carries size []) size s s') :
    wp (readPacketWith (peer.env base).platform tooLong shortBody timer)
      (fun _ t => t.world.reading = []) (fun _ t => t.world.reading = []) s' := by
  have hsize : s'.client.readbuf.length = size := h.client ▸ h.size
  obtain ⟨-, hleft⟩ := (serves.alike []).timerLeftMS timer s.world s'.world h.world
  by_cases hroom : 1 ≤ s'.client.readbuf.length
  · generalize hanswer : (arrivalAt (peer.env base) timer s'.world.state).1 = arrival
    cases arrival with
    | nothing rc hrc =>
      apply wp_mono (readPacketWith_nothing h.world.reading hroom hanswer)
      · rintro _ t ⟨-, -, -, hreading, -⟩
        exact hreading
      · exact fun _ _ => False.elim
    | packet w =>
      have hfits : w.frame.stored.length ≤ size := by
        change (peer.next _ (base.timerLeftMS timer s'.world.state).2).1 = .packet w at hanswer
        unfold PacketPeer.next at hanswer
        split at hanswer
        · generalize peer.pause _ _ = answer at hanswer
          obtain ⟨pause, notes, more, state⟩ := answer
          cases pause <;> cases hanswer
        · rename_i parcel parcels heq
          rw [← Arrival.packet.inj hanswer]
          exact hleft.fits parcel (heq ▸ List.mem_cons_self)
      rw [← hsize] at hfits
      apply wp_mono (readPacketWith_packet (peer.env base).steady_any h.world.reading hfits
        (by rw [hsize] at hfits ⊢; exact htest w.frame hfits) hanswer)
      · rintro _ t ⟨-, -, hreading, -⟩
        exact hreading
      · exact fun _ _ => False.elim
  · have hno : ¬ 0 + 1 ≤ s'.client.readbuf.length := by omega
    unfold readPacketWith
    rw [wp_bind, wp_ask, wp_bind]
    simp only [wp, readInto, if_neg hno]
    exact h.world.reading

/-- Reading a packet out of the stream is reading it in the network of packets. -/
theorem readPacketWith_packets (htest : ∀ frame : WireFrame, frame.stored.length ≤ size →
      tooLong size (1 + (Leb128.encode frame.body.length).length) frame.body.length = false) :
    Parallel (Carries size []) size
      (readPacketWith p tooLong shortBody timer : Prog (Session χ (Incoming ν) Timeval H) ℤ)
      (readPacketWith (peer.env base).platform tooLong shortBody timer) := by
  refine ((readPacketWith_along serves fits).and_wp fun _ _ =>
    readPacketWith_whole serves htest).imp ?_ ?_ ?_
  · exact fun _ _ => id
  · rintro rc s s' ⟨halong, hread⟩
    exact carries_of_reading halong hread
  · rintro s s' ⟨halong, rc, hread⟩
    exact carries_of_reading halong hread

end Reading

end MqttEmbedded.Linux
