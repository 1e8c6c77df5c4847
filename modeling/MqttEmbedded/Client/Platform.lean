import MqttEmbedded.Packet.Read
import MqttEmbedded.Packet.Deserialize

/-!
# What the clients run on

The platform header supplies the network and the timers, the application its
message handlers. They are the functions of `Platform`, on a world `ω` that
only they look into; a handler is a name in `H` for a function pointer. A client
is run in a session: its record, what one client has and the other has not, and
the world.
-/

namespace MqttEmbedded

open Region Hoare

/-- `enum returnCode`, the same in both clients. -/
def bufferOverflow : ℤ := -2
def failure : ℤ := -1
def success : ℤ := 0

/-- `MQTTMessage` and `Message`. The identifier is missing while it is unset, and
`payload` is what can be read from the pointer on. -/
structure MQTTMessage where
  qos : ℕ
  retained : ℕ
  dup : ℕ
  id : Option UInt16
  payload : List UInt8
  payloadlen : ℕ

structure MessageData where
  message : MQTTMessage
  topicName : MQTTString

/-- The functions of the platform header and of the application. -/
structure Platform (ω τ H : Type) where
  mqttread : (len : ℕ) → (timeout : ℤ) → ω → Delivery len × ω
  /-- `buffer` is what can be read from the pointer on; `len` is what is asked for. -/
  mqttwrite : (buffer : List UInt8) → (len : ℕ) → (timeout : ℤ) → ω → ℤ × ω
  timerInit : ω → τ × ω
  timerIsExpired : τ → ω → Bool × ω
  timerCountdownMS : τ → ℕ → ω → τ × ω
  timerCountdown : τ → ℕ → ω → τ × ω
  timerLeftMS : τ → ω → ℤ × ω
  invoke : H → MessageData → ω → ω

/-- A slot of `messageHandlers`. -/
structure MessageHandler (H : Type) where
  topicFilter : Option CString
  fp : Option H

/-- The fields that the `MQTTClient` of the C client and the `Client` of the C++
client share. The sizes of the two buffers are their lengths. -/
structure MQTTClient (τ H : Type) where
  nextPacketid : ℕ
  commandTimeoutMs : ℕ
  buf : List UInt8
  readbuf : List UInt8
  keepAliveInterval : ℕ
  pingOutstanding : Bool
  isconnected : Bool
  cleansession : Bool
  messageHandlers : List (MessageHandler H)
  defaultMessageHandler : Option H
  lastSent : τ
  lastReceived : τ

/-- `own` is what one client has and the other has not. -/
structure Session (χ ω τ H : Type) where
  client : MQTTClient τ H
  own : χ
  world : ω

variable {χ ω τ H α : Type}

/-- Ask the world. -/
def ask (f : ω → α × ω) : Prog (Session χ ω τ H) α := fun s =>
  .ok (f s.world).1 { s with world := (f s.world).2 }

def modifyClient (f : MQTTClient τ H → MQTTClient τ H) : Prog (Session χ ω τ H) PUnit :=
  modify fun s => { s with client := f s.client }

def modifyOwn (f : χ → χ) : Prog (Session χ ω τ H) PUnit :=
  modify fun s => { s with own := f s.own }

def getClient : Prog (Session χ ω τ H) (MQTTClient τ H) := fun s => .ok s.client s

def getOwn : Prog (Session χ ω τ H) χ := fun s => .ok s.own s

def invoke (p : Platform ω τ H) (fp : H) (md : MessageData) : Prog (Session χ ω τ H) PUnit :=
  modify fun s => { s with world := p.invoke fp md s.world }

theorem getClient_bind (f : MQTTClient τ H → Prog (Session χ ω τ H) α) (s : Session χ ω τ H) :
    (getClient >>= f) s = f s.client s := rfl

/-- Call a serialiser on the send buffer. -/
def serialize (f : List UInt8 → Option (ℤ × List UInt8)) : Prog (Session χ ω τ H) ℤ := do
  let c ← getClient
  let (len, buf) ← ofOption (f c.buf)
  modifyClient fun c => { c with buf := buf }
  pure len

/-- A fresh timer set to so many milliseconds. -/
def newTimer (p : Platform ω τ H) (ms : ℕ) : Prog (Session χ ω τ H) τ := do
  let timer ← ask p.timerInit
  ask (p.timerCountdownMS timer ms)

section Rules

variable {Q : PUnit → Session χ ω τ H → Prop} {E : Fault → Session χ ω τ H → Prop}
  {s : Session χ ω τ H}

@[simp] theorem wp_ask {Q : α → Session χ ω τ H → Prop} (f : ω → α × ω) :
    wp (ask f) Q E s ↔ Q (f s.world).1 { s with world := (f s.world).2 } := Iff.rfl

@[simp] theorem wp_modifyClient (f : MQTTClient τ H → MQTTClient τ H) :
    wp (modifyClient f) Q E s ↔ Q ⟨⟩ { s with client := f s.client } := Iff.rfl

@[simp] theorem wp_modifyOwn (f : χ → χ) :
    wp (modifyOwn f) Q E s ↔ Q ⟨⟩ { s with own := f s.own } := Iff.rfl

@[simp] theorem wp_getClient {Q : MQTTClient τ H → Session χ ω τ H → Prop} :
    wp getClient Q E s ↔ Q s.client s := Iff.rfl

@[simp] theorem wp_getOwn {Q : χ → Session χ ω τ H → Prop} :
    wp getOwn Q E s ↔ Q s.own s := Iff.rfl

@[simp] theorem wp_invoke (p : Platform ω τ H) (fp : H) (md : MessageData) :
    wp (invoke p fp md) Q E s ↔ Q ⟨⟩ { s with world := p.invoke fp md s.world } := Iff.rfl

theorem wp_ofOption_iff {result : Option α} {Q : α → Session χ ω τ H → Prop} :
    wp (ofOption result) Q E s ↔
      (∀ a, result = some a → Q a s) ∧ (result = none → E .undefined s) := by
  cases result with
  | none => simp
  | some a => simp

theorem wp_ofOption {result : Option α} {Q : α → Session χ ω τ H → Prop}
    (h : ∀ a, result = some a → Q a s) : wp (ofOption result) Q (fun _ _ => True) s := by
  cases result with
  | none => trivial
  | some a => exact h a rfl

theorem wp_serialize {Q : ℤ → Session χ ω τ H → Prop}
    {f : List UInt8 → Option (ℤ × List UInt8)} :
    wp (serialize f) Q E s ↔ match f s.client.buf with
      | some (len, buf) => Q len { s with client := { s.client with buf := buf } }
      | none => E .undefined s := by
  simp only [serialize, wp_bind, wp_getClient]
  cases f s.client.buf with
  | none => simp
  | some result => simp

/-- The serialiser lays the bytes down in front of the buffer, or says that it is too
short for them. -/
def Writes (f : List UInt8 → Option (ℤ × List UInt8)) (bytes : List UInt8) : Prop :=
  ∀ buf, f buf = some (mqttpacketBufferTooShort, buf) ∨ f buf = serialized buf bytes

theorem writes_of_eq {f : List UInt8 → Option (ℤ × List UInt8)} {bytes : List UInt8} {size : ℕ}
    (h : ∀ buf, f buf = if buf.length < size then some (mqttpacketBufferTooShort, buf)
      else serialized buf bytes) : Writes f bytes := by
  intro buf
  rw [h]
  split_ifs
  · exact .inl rfl
  · exact .inr rfl

theorem wp_serialize_of_writes {Q : ℤ → Session χ ω τ H → Prop}
    {f : List UInt8 → Option (ℤ × List UInt8)} {bytes : List UInt8} (h : Writes f bytes)
    (hshort : Q mqttpacketBufferTooShort s)
    (hdone : bytes.length ≤ s.client.buf.length → Q bytes.length { s with
      client := { s.client with buf := overwrite s.client.buf 0 bytes } }) :
    wp (serialize f) Q (fun _ _ => True) s := by
  rw [wp_serialize]
  rcases h s.client.buf with hf | hf
  · rw [hf]
    exact hshort
  · cases hresult : serialized s.client.buf bytes with
    | none =>
      rw [hf, hresult]
      trivial
    | some result =>
      obtain ⟨rc, buf⟩ := result
      obtain ⟨hroom, rfl, rfl⟩ := serialized_eq_some_iff.mp hresult
      rw [hf, hresult]
      exact hdone hroom

end Rules

/-- `R` allows whatever leaves the receive buffer and the incoming network alone. -/
structure Platform.Quiet (p : Platform ω τ H) (R : Session χ ω τ H → Session χ ω τ H → Prop) :
    Prop where
  client : ∀ s c, c.readbuf = s.client.readbuf → R s { s with client := c }
  mqttwrite : ∀ buffer len timeout s,
    R s { s with world := (p.mqttwrite buffer len timeout s.world).2 }
  timerInit : ∀ s, R s { s with world := (p.timerInit s.world).2 }
  timerIsExpired : ∀ timer s, R s { s with world := (p.timerIsExpired timer s.world).2 }
  timerCountdownMS : ∀ timer ms s, R s { s with world := (p.timerCountdownMS timer ms s.world).2 }
  timerCountdown : ∀ timer seconds s,
    R s { s with world := (p.timerCountdown timer seconds s.world).2 }
  timerLeftMS : ∀ timer s, R s { s with world := (p.timerLeftMS timer s.world).2 }
  invoke : ∀ fp md s, R s { s with world := p.invoke fp md s.world }

/-- Everything of a client but its buffers, its timers, the ping and the identifier. -/
structure SameSession (s t : Session χ ω τ H) : Prop where
  isconnected : t.client.isconnected = s.client.isconnected
  cleansession : t.client.cleansession = s.client.cleansession
  messageHandlers : t.client.messageHandlers = s.client.messageHandlers

namespace SameSession

variable {s t u : Session χ ω τ H}

theorem refl (s : Session χ ω τ H) : SameSession s s := ⟨rfl, rfl, rfl⟩

theorem trans (h : SameSession s t) (h' : SameSession t u) : SameSession s u :=
  ⟨h'.isconnected.trans h.isconnected, h'.cleansession.trans h.cleansession,
    h'.messageHandlers.trans h.messageHandlers⟩

instance : Std.Refl (SameSession : Session χ ω τ H → _ → Prop) := ⟨refl⟩

instance : IsTrans (Session χ ω τ H) SameSession := ⟨fun _ _ _ => trans⟩

end SameSession

/-- `R` allows the calls of the platform that neither read from the network nor call a handler. -/
structure Platform.Discreet (p : Platform ω τ H)
    (R : Session χ ω τ H → Session χ ω τ H → Prop) : Prop where
  mqttwrite : ∀ buffer len timeout, Moves R (ask (p.mqttwrite buffer len timeout))
  timerInit : Moves R (ask p.timerInit)
  timerIsExpired : ∀ timer, Moves R (ask (p.timerIsExpired timer))
  timerCountdownMS : ∀ timer ms, Moves R (ask (p.timerCountdownMS timer ms))
  timerCountdown : ∀ timer seconds, Moves R (ask (p.timerCountdown timer seconds))
  timerLeftMS : ∀ timer, Moves R (ask (p.timerLeftMS timer))

/-- `R` allows the calls of the platform that do not read from the network. -/
structure Platform.Outward (p : Platform ω τ H)
    (R : Session χ ω τ H → Session χ ω τ H → Prop) : Prop extends p.Discreet R where
  invoke : ∀ fp md, Moves R (MqttEmbedded.invoke p fp md)

/-- `R` allows what is done for a packet that has been read: serialising and sending,
the timers, the handlers. -/
structure Platform.Gentle (p : Platform ω τ H)
    (R : Session χ ω τ H → Session χ ω τ H → Prop) : Prop extends p.Outward R where
  client : ∀ s c, c.readbuf = s.client.readbuf → SameSession s { s with client := c } →
    R s { s with client := c }

theorem Platform.Quiet.gentle {p : Platform ω τ H} {R : Session χ ω τ H → Session χ ω τ H → Prop}
    (h : p.Quiet R) : p.Gentle R where
  client := fun s c hbuf _ => h.client s c hbuf
  mqttwrite := h.mqttwrite
  timerInit := h.timerInit
  timerIsExpired := h.timerIsExpired
  timerCountdownMS := h.timerCountdownMS
  timerCountdown := h.timerCountdown
  timerLeftMS := h.timerLeftMS
  invoke := h.invoke

theorem outward_of_world (p : Platform ω τ H) {R : Session χ ω τ H → Session χ ω τ H → Prop}
    (hworld : ∀ s world, R s { s with world := world }) : p.Outward R where
  mqttwrite := fun _ _ _ s => hworld s _
  timerInit := fun s => hworld s _
  timerIsExpired := fun _ s => hworld s _
  timerCountdownMS := fun _ _ s => hworld s _
  timerCountdown := fun _ _ s => hworld s _
  timerLeftMS := fun _ s => hworld s _
  invoke := fun _ _ s => hworld s _

theorem same_gentle (p : Platform ω τ H) :
    p.Gentle (SameSession : Session χ ω τ H → Session χ ω τ H → Prop) where
  toOutward := outward_of_world p fun _ _ => ⟨rfl, rfl, rfl⟩
  client := fun _ _ _ h => h

section Moves

variable {R : Session χ ω τ H → Session χ ω τ H → Prop} [Std.Refl R]

theorem getClient_moves : Moves R (getClient : Prog (Session χ ω τ H) (MQTTClient τ H)) :=
  fun s => Std.Refl.refl s

theorem getOwn_moves : Moves R (getOwn : Prog (Session χ ω τ H) χ) := fun s => Std.Refl.refl s

theorem ofOption_moves (result : Option α) :
    Moves R (ofOption result : Prog (Session χ ω τ H) α) := by
  cases result with
  | none => exact .throw _
  | some a => exact .pure a

theorem serialize_moves (hbuf : ∀ s buf, R s { s with client := { s.client with buf := buf } })
    (f : List UInt8 → Option (ℤ × List UInt8)) : Moves R (serialize f) := by
  intro s
  rw [wp_serialize]
  cases f s.client.buf with
  | none => exact Std.Refl.refl s
  | some result => exact hbuf s result.2

omit [Std.Refl R] in
theorem newTimer_moves [IsTrans (Session χ ω τ H) R] {p : Platform ω τ H}
    (discreet : p.Discreet R) (ms : ℕ) : Moves R (newTimer p ms : Prog (Session χ ω τ H) τ) :=
  .bind discreet.timerInit fun timer => discreet.timerCountdownMS timer ms

end Moves
end MqttEmbedded
