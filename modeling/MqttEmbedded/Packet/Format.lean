import MqttEmbedded.Lib.Snprintf
import MqttEmbedded.Packet.AckCodec
import MqttEmbedded.Packet.ConnectAcceptance
import MqttEmbedded.Packet.FilterLists
import MqttEmbedded.Packet.PublishCodec

/-!
# Tracing packets

The formatters of `MQTTFormat.c` and the function that chooses one for a packet a client has
sent. What they do to the buffer of the caller is kept as a log of stores, so that a store
outside it is not lost.
-/

namespace MqttEmbedded

open Region Hoare Entries Snprintf

/-- `MQTTPacket_names`. -/
def mqttPacketNames : List String :=
  ["RESERVED", "CONNECT", "CONNACK", "PUBLISH", "PUBACK", "PUBREC", "PUBREL", "PUBCOMP",
    "SUBSCRIBE", "SUBACK", "UNSUBSCRIBE", "UNSUBACK", "PINGREQ", "PINGRESP", "DISCONNECT"]

/-- `snprintf(&strbuf[strindex], size, format, …)`. It returns the length of the whole text. -/
def snprintf (strindex : ℕ) (size : ℤ) (format : String) (args : List Arg) : Prog Stores ℕ := do
  let text ← ofOption (Snprintf.text format args)
  modify (· ++ stored strindex (sizeT size) text)
  pure text.length

/-- `strbuf[strindex] = c`. -/
def store (strindex : ℕ) (c : UInt8) : Prog Stores PUnit := modify (· ++ [(c, strindex)])

/-- `if (c) strindex += snprintf(&strbuf[strindex], strbuflen - strindex, format, …)`. -/
def snprintfIf (c : Prop) [Decidable c] (strbuflen : ℕ) (format : String) (args : List Arg)
    (strindex : ℕ) : Prog Stores ℕ :=
  if c then do
    let n ← snprintf strindex (strbuflen - strindex) format args
    pure (strindex + n)
  else pure strindex

section

variable (strbuflen : ℕ)

/-- The two arguments of a `%.*s`. -/
def lenStringArg (s : MQTTString) : Arg := .chars s.lenstring.len s.lenstring.data

def nameArg (name : String) : Arg := .string (some (charBytes name.toList ++ [0]))

def mqttStringFormatConnect (data : ConnectData) : Prog Stores ℕ := do
  let strindex ← snprintf 0 strbuflen
    "CONNECT MQTT version %d, client id %.*s, clean session %d, keep alive %d"
    [.int data.mqttVersion.toNat, lenStringArg data.clientID, .int data.cleansession.toNat,
      .int data.keepAliveInterval.toNat]
  let strindex ← snprintfIf (data.willFlag ≠ 0) strbuflen
    ", will QoS %d, will retain %d, will topic %.*s, will message %.*s"
    [.int data.will.qos.toNat, .int data.will.retained.toNat, lenStringArg data.will.topicName,
      lenStringArg data.will.message] strindex
  let strindex ← snprintfIf (data.username.lenstring.data.isSome ∧ 0 < data.username.lenstring.len)
    strbuflen ", user name %.*s" [lenStringArg data.username] strindex
  snprintfIf (data.password.lenstring.data.isSome ∧ 0 < data.password.lenstring.len)
    strbuflen ", password %.*s" [lenStringArg data.password] strindex

def mqttStringFormatPublish (dup qos retained packetid : ℕ) (topicName : MQTTString)
    (payload : List UInt8) (payloadlen : ℤ) : Prog Stores ℕ :=
  snprintf 0 strbuflen
    "PUBLISH dup %d, QoS %d, retained %d, packet id %d, topic %.*s, payload length %d, payload %.*s"
    [.int dup, .int qos, .int retained, .int packetid,
      .chars (if topicName.lenstring.len < 20 then topicName.lenstring.len else 20)
        topicName.lenstring.data,
      .int payloadlen, .chars (if payloadlen < 20 then payloadlen else 20) (some payload)]

def mqttStringFormatAck (packettype dup packetid : ℕ) : Prog Stores ℕ := do
  let name ← ofOption mqttPacketNames[packettype]?
  let strindex ← snprintf 0 strbuflen "%s, packet id %d" [nameArg name, .int packetid]
  snprintfIf (dup ≠ 0) strbuflen ", dup %d" [.int dup] strindex

def mqttStringFormatSubscribe (dup packetid count : ℕ) (topicFilter : MQTTString)
    (requestedQoS : ℤ) : Prog Stores ℕ :=
  snprintf 0 strbuflen "SUBSCRIBE dup %d, packet id %d count %d topic %.*s qos %d"
    [.int dup, .int packetid, .int count, lenStringArg topicFilter, .int requestedQoS]

def mqttStringFormatUnsubscribe (dup packetid count : ℕ) (topicFilter : MQTTString) :
    Prog Stores ℕ :=
  snprintf 0 strbuflen "UNSUBSCRIBE dup %d, packet id %d count %d topic %.*s"
    [.int dup, .int packetid, .int count, lenStringArg topicFilter]

/-- What the local variables of the tracer hold before a deserialiser has filled them in. -/
structure Stale where
  data : ConnectData
  packetid : ℕ
  topicFilter : MQTTString
  requestedQoS : ℤ

/-- The `switch` over the type. The arrays for the filters have one member. -/
def formatServerPacket (stale : Stale) (type : ℕ) (buf : List UInt8) : Prog Stores PUnit :=
  match MsgType.ofCode type with
  | some .connect => do
    let (rc, data) ← ofOption (mqttDeserializeConnect stale.data buf buf.length)
    if rc = 1 then discard (mqttStringFormatConnect strbuflen data)
  | some .publish => do
    match ← ofOption (mqttDeserializePublish buf) with
    | (1, .whole f) => discard (mqttStringFormatPublish strbuflen f.dup f.qos f.retained
        (f.packetid.getD stale.packetid) f.topicName f.payload f.payloadlen)
    | (1, _) => throw .undefined -- neither identifier nor payload is set
    | _ => pure ⟨⟩
  | some .puback | some .pubrec | some .pubrel | some .pubcomp => do
    let (rc, f) ← ofOption (mqttDeserializeAck buf)
    if rc = 1 then discard (mqttStringFormatAck strbuflen f.packettype f.dup
      (f.packetid.getD stale.packetid))
  | some .subscribe => do
    match ← ofOption (mqttDeserializeSubscribe buf 1 1) with
    | (1, some f) =>
      let entry := f.entries.headD (stale.topicFilter, stale.requestedQoS)
      discard (mqttStringFormatSubscribe strbuflen f.dup (f.packetid.getD stale.packetid)
        f.entries.length entry.1 entry.2)
    | _ => pure ⟨⟩
  | some .unsubscribe => do
    match ← ofOption (mqttDeserializeUnsubscribe buf 1 1) with
    | (1, some f) => discard (mqttStringFormatUnsubscribe strbuflen f.dup
        (f.packetid.getD stale.packetid) f.entries.length (f.entries.headD stale.topicFilter))
    | _ => pure ⟨⟩
  | some .pingreq | some .pingresp | some .disconnect => do
    let name ← ofOption mqttPacketNames[type]?
    discard (snprintf 0 strbuflen "%s" [nameArg name])
  | _ => pure ⟨⟩

def mqttFormatToServerString (stale : Stale) (buf : List UInt8) : Prog Stores PUnit := do
  let header ← ofOption buf[0]?
  let _ ← ofOption (mqttPacketDecodeBuf buf 1)
  formatServerPacket strbuflen stale (MQTTHeader.type header) buf
  store strbuflen 0

end

section

variable {strbuflen strindex : ℕ}

/-- The formatter appends the chain of these texts from `strindex` on, and returns the index
after them. -/
def Prints (strbuflen strindex : ℕ) (formatter : Prog Stores ℕ) (texts : List (List UInt8)) :
    Prop :=
  ∀ stores, formatter stores =
    .ok (strindex + (texts.map List.length).sum) (stores ++ chain strbuflen strindex texts)

/-- Whatever the index is, the chain goes on from it. -/
def GoesOn (strbuflen : ℕ) (next : ℕ → Prog Stores ℕ) : Prop :=
  ∀ strindex, ∃ texts, Prints strbuflen strindex (next strindex) texts

theorem Prints.bind {formatter : Prog Stores ℕ} {next : ℕ → Prog Stores ℕ}
    {xs : List (List UInt8)} (h : Prints strbuflen strindex formatter xs)
    (hnext : GoesOn strbuflen next) :
    ∃ ys, Prints strbuflen strindex (formatter >>= next) (xs ++ ys) := by
  obtain ⟨ys, hys⟩ := hnext (strindex + (xs.map List.length).sum)
  refine ⟨ys, fun stores => ?_⟩
  rw [bind_of_ok (h stores), hys, chain_append, List.append_assoc, List.map_append,
    List.sum_append, Nat.add_assoc]

theorem GoesOn.bind {first next : ℕ → Prog Stores ℕ} (h : GoesOn strbuflen first)
    (hnext : GoesOn strbuflen next) : GoesOn strbuflen fun strindex => first strindex >>= next := by
  intro strindex
  obtain ⟨xs, hxs⟩ := h strindex
  obtain ⟨ys, hys⟩ := hxs.bind hnext
  exact ⟨xs ++ ys, hys⟩

end

section

variable {strbuflen : ℕ}

/-- A name or a password that would be printed can be read. -/
def MQTTString.Printable (s : MQTTString) : Prop :=
  s.lenstring.data.isSome ∧ 0 < s.lenstring.len → (lenStringArg s).Readable

/-- The strings that are printed can be read. -/
structure ConnectData.Printable (data : ConnectData) : Prop where
  clientID : (lenStringArg data.clientID).Readable
  will : data.willFlag ≠ 0 → (lenStringArg data.will.topicName).Readable ∧
    (lenStringArg data.will.message).Readable
  username : data.username.Printable
  password : data.password.Printable

end

section

variable {flags : UInt8} {buf : List UInt8} {curdata curdata' : ℕ} {data data' : ConnectData}

end

/-- The tracer returns, and has stored nothing at an index of `strbuflen` or more. -/
def TracesInside (strbuflen : ℕ) (stale : Stale) (buf : List UInt8) : Prop :=
  ∃ stores, mqttFormatToServerString strbuflen stale buf [] = .ok ⟨⟩ stores ∧
    Inside strbuflen stores

/-- A packet that a client sends, exactly framed. -/
inductive ClientPacket : List UInt8 → Prop
  | connect (w : WireFrame) (name : Text) (version flags high low : UInt8) (strings : List UInt8)
      (htype : w.type = MsgType.connect.code)
      (hbody : w.body = stringBytes name.bytes ++ version :: flags :: high :: low :: strings) :
      ClientPacket w.bytes
  | publish (packet : PublishPacket) : ClientPacket packet.frame.bytes
  | subscribe (w : WireFrame) (id : UInt16) (entry : Text × UInt8)
      (htype : w.type = MsgType.subscribe.code)
      (hlists : Lists w 1 subscription id [entry]) : ClientPacket w.bytes
  | ack (w : WireFrame) (type : MsgType) (high low : UInt8)
      (hack : type ∈ [.puback, .pubrec, .pubrel, .pubcomp]) (htype : w.type = type.code)
      (hbody : w.body = [high, low]) : ClientPacket w.bytes
  | bare (w : WireFrame) (type : MsgType) (hbare : type ∈ [.pingreq, .disconnect])
      (htype : w.type = type.code) (hbody : w.body = []) : ClientPacket w.bytes

/-- A name or a password that the packet does not have, and that is printed all the same if the
local variable happens to hold one, can be read. -/
def Stale.Printable (stale : Stale) : Prop :=
  stale.data.username.Printable ∧ stale.data.password.Printable

section

variable (strbuflen : ℕ) (stale : Stale) {w : WireFrame}

end

/-- Locals that hold no string. -/
def staleInitializer : Stale := ⟨connectDataInitializer, 0, mqttStringInitializer, 0⟩

/-- For a PINGREQ and a buffer of eight bytes, the name and its terminator fill the buffer, and
another terminator goes behind it. -/
theorem mqttFormatToServerString_not_tracesInside :
    ClientPacket [0xc0, 0] ∧ ¬ TracesInside 8 staleInitializer [0xc0, 0] ∧
      mqttFormatToServerString 8 staleInitializer [0xc0, 0] [] =
        .ok ⟨⟩ ((charBytes "PINGREQ".toList ++ [0, 0]).zipIdx) := by
  have hrun : mqttFormatToServerString 8 staleInitializer [0xc0, 0] [] =
      .ok ⟨⟩ ((charBytes "PINGREQ".toList ++ [0, 0]).zipIdx) := rfl
  refine ⟨?_, ?_, hrun⟩
  · exact .bare ⟨0xc0, [0], [], .last (by decide), by decide⟩ .pingreq (by decide) rfl rfl
  · intro h
    obtain ⟨stores, hstores, hinside⟩ := h
    rw [hrun] at hstores
    cases hstores
    exact absurd hinside (by decide)

end MqttEmbedded
