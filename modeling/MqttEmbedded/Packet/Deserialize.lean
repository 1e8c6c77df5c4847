import MqttEmbedded.Packet.Decode

/-!
# The deserialisers

`curdata` is a position in the buffer, and a read past the end of the buffer has
no result. A deserialiser returns its `rc` and the fields it has stored; where
the source leaves a field unset the field is missing here, whatever the `rc`.
-/

namespace MqttEmbedded

open Region Hoare

/-- `bufchar`, with `bufptr` as its state. -/
def bufchar (buf : List UInt8) : Prog ℕ (Delivery 1) := fun bufptr =>
  match buf[bufptr]? with
  | some b => .ok (.arrived [b] le_rfl) (bufptr + 1)
  | none => .error .undefined bufptr

def mqttPacketDecodeBuf (buf : List UInt8) (curdata : ℕ) : Option (ℕ × ℕ) :=
  match mqttPacketDecode (bufchar buf) curdata with
  | .ok decoded _ => some decoded
  | .error _ _ => none

def readInt (buf : List UInt8) (curdata : ℕ) : Option ℕ := do
  let high ← buf[curdata]?
  let low ← buf[curdata + 1]?
  some (256 * high.toNat + low.toNat)

/-- A `char` read back as an `int`; it is signed on the targets modelled. -/
def readChar (buf : List UInt8) (curdata : ℕ) : Option ℤ := do
  let c ← buf[curdata]?
  some (if c.toNat < 128 then c.toNat else c.toNat - 256)

/-- The string is read, or there is no room for it; `lenstring.len` may have been stored
before that was found. -/
inductive StringRead where
  | read (mqttstring : MQTTString) (curdata : ℕ)
  | refused (len : Option ℕ)

/-- What the string holds afterwards that held `mqttstring` before. -/
def StringRead.stored (mqttstring : MQTTString) : StringRead → MQTTString
  | read mqttstring _ => mqttstring
  | refused len => ⟨none, ⟨len.getD mqttstring.lenstring.len, mqttstring.lenstring.data⟩⟩

def readMQTTLenString (buf : List UInt8) (curdata enddata : ℕ) : Option StringRead :=
  if curdata + 1 < enddata then do
    let len ← readInt buf curdata
    let curdata := curdata + 2
    if curdata + len ≤ enddata then
      some (.read ⟨none, ⟨len, some (buf.drop curdata)⟩⟩ (curdata + len))
    else some (.refused (some len))
  else some (.refused none)

structure PublishFields where
  dup : ℕ
  qos : ℕ
  retained : ℕ
  packetid : Option ℕ
  topicName : MQTTString
  payload : List UInt8
  payloadlen : ℤ

/-- `if (*qos > 0) *packetid = readInt(&curdata)`. -/
def readIdIf (given : Bool) (buf : List UInt8) (curdata : ℕ) : Option (Option ℕ × ℕ) :=
  if given then do
    let id ← readInt buf curdata
    some (some id, curdata + 2)
  else some (none, curdata)

/-- What is stored: nothing of another packet, and neither identifier nor payload where the
topic does not fit. -/
inductive PublishStored where
  | nothing
  | headerOnly (dup qos retained : ℕ) (topicName : StringRead)
  | whole (fields : PublishFields)

/-- On its way out for a topic that does not fit, `rc` is still the size of the
length field. -/
def mqttDeserializePublish (buf : List UInt8) : Option (ℤ × PublishStored) := do
  let header ← buf[0]?
  if MQTTHeader.type header ≠ MsgType.publish.code then some (0, .nothing)
  else
    let dup := MQTTHeader.dup header
    let qos := MQTTHeader.qos header
    let retained := MQTTHeader.retain header
    let (rc, mylen) ← mqttPacketDecodeBuf buf 1
    let curdata := 1 + rc
    let enddata := curdata + mylen
    match ← readMQTTLenString buf curdata enddata with
    | .refused len => some (rc, .headerOnly dup qos retained (.refused len))
    | .read topicName curdata =>
      if enddata < curdata then some (rc, .headerOnly dup qos retained (.read topicName curdata))
      else
        let (packetid, curdata) ← readIdIf (0 < qos) buf curdata
        some (1, .whole {
          dup := dup
          qos := qos
          retained := retained
          packetid := packetid
          topicName := topicName
          payload := buf.drop curdata
          payloadlen := (enddata : ℤ) - curdata })

structure AckFields where
  packettype : ℕ
  dup : ℕ
  packetid : Option ℕ

/-- `rc` is the size of the length field when there is no room for an identifier. -/
def mqttDeserializeAck (buf : List UInt8) : Option (ℤ × AckFields) := do
  let header ← buf[0]?
  let packettype := MQTTHeader.type header
  let dup := MQTTHeader.dup header
  let (rc, mylen) ← mqttPacketDecodeBuf buf 1
  if mylen < 2 then some (rc, ⟨packettype, dup, none⟩)
  else
    let packetid ← readInt buf (1 + rc)
    some (1, ⟨packettype, dup, some packetid⟩)

def mqttDeserializeUnsuback (buf : List UInt8) : Option (ℤ × Option ℕ) := do
  let (rc, fields) ← mqttDeserializeAck buf
  some (if fields.packettype = MsgType.unsuback.code then 1 else rc, fields.packetid)

structure ConnackFields where
  sessionPresent : UInt8
  connackRc : UInt8
  deriving DecidableEq

def mqttDeserializeConnack (buf : List UInt8) : Option (ℤ × Option ConnackFields) := do
  let header ← buf[0]?
  if MQTTHeader.type header ≠ MsgType.connack.code then some (0, none)
  else
    let (rc, mylen) ← mqttPacketDecodeBuf buf 1
    if mylen < 2 then some (rc, none)
    else
      let flags ← buf[1 + rc]?
      let connackRc ← buf[1 + rc + 1]?
      -- flags.bits.sessionpresent is the low bit
      some (1, some ⟨UInt8.ofNat (flags.toNat % 2), connackRc⟩)

/-- The loop of `MQTTDeserialize_suback`, by the bytes left before `enddata`. The
array has `capacity` members; it is left as it was from `grantedQoSs.length` on. -/
def subackReadLoop (buf : List UInt8) (maxcount capacity : ℕ) :
    ℕ → ℕ → List ℤ → Option (ℤ × List ℤ)
  | 0, _, grantedQoSs => some (1, grantedQoSs)
  | left + 1, curdata, grantedQoSs =>
    if maxcount < grantedQoSs.length then some (-1, grantedQoSs)
    else if grantedQoSs.length < capacity then do
      let qos ← readChar buf curdata
      subackReadLoop buf maxcount capacity left (curdata + 1) (grantedQoSs ++ [qos])
    else none

def mqttDeserializeSuback (buf : List UInt8) (maxcount capacity : ℕ) :
    Option (ℤ × Option ℕ × List ℤ) := do
  let header ← buf[0]?
  if MQTTHeader.type header ≠ MsgType.suback.code then some (0, none, [])
  else
    let (rc, mylen) ← mqttPacketDecodeBuf buf 1
    if mylen < 2 then some (rc, none, [])
    else
      let packetid ← readInt buf (1 + rc)
      let (rc, grantedQoSs) ← subackReadLoop buf maxcount capacity (mylen - 2) (1 + rc + 2) []
      some (rc, some packetid, grantedQoSs)

section

variable {buf rest : List UInt8} {curdata : ℕ}

theorem getElem?_of_drop {b : UInt8} (h : buf.drop curdata = b :: rest) :
    buf[curdata]? = some b := by
  have hb : (buf.drop curdata)[0]? = some b := by rw [h]; rfl
  simpa using hb

theorem drop_of_drop {bytes : List UInt8} (h : buf.drop curdata = bytes ++ rest) :
    buf.drop (curdata + bytes.length) = rest := by
  rw [← List.drop_drop, h, List.drop_left]

theorem readInt_eq {n : ℕ} (hn : n < 65536) (h : buf.drop curdata = intBytes n ++ rest) :
    readInt buf curdata = some n := by
  have hhigh := getElem?_of_drop (b := UInt8.ofNat (n / 256)) h
  have hsecond : buf.drop (curdata + 1) = UInt8.ofNat (n % 256) :: rest :=
    drop_of_drop (show _ = [UInt8.ofNat (n / 256)] ++ (UInt8.ofNat (n % 256) :: rest) from h)
  have hlow := getElem?_of_drop hsecond
  simp only [readInt, hhigh, hlow, Option.bind_eq_bind, Option.bind_some, UInt8.toNat_ofNat',
    Option.some.injEq]
  omega

theorem feeds_bufchar : Feeds (bufchar buf) (fun bufptr => buf.drop bufptr) (fun _ => False)
    (fun _ _ => True) where
  stays := fun _ h => h.elim
  takes := by
    intro bufptr b rest h
    have hb := getElem?_of_drop h
    have hok : bufchar buf bufptr = .ok (.arrived [b] le_rfl) (bufptr + 1) := by
      simp only [bufchar, hb]
    rw [wp_ok hok]
    exact .inr ⟨rfl, rfl, drop_of_drop (show _ = [b] ++ rest from h), trivial⟩

theorem mqttPacketDecodeBuf_eq {field : List UInt8} {n : ℕ} (hfield : Leb128.Field field n)
    (hlen : field.length ≤ 4) (h : buf.drop curdata = field ++ rest) :
    mqttPacketDecodeBuf buf curdata = some (field.length, n) := by
  have : IsTrans ℕ fun _ _ => True := ⟨fun _ _ _ _ _ => trivial⟩
  obtain ⟨decoded, bufptr, hrun, hdecoded⟩ :=
    wp_total (mqttPacketDecode_field feeds_bufchar hfield hlen h)
  obtain ⟨rfl, -, -⟩ := hdecoded.resolve_left id
  simp only [mqttPacketDecodeBuf, hrun]

end
end MqttEmbedded
