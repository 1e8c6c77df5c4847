import MqttEmbedded.Packet.Serialize

/-!
# Session packets and the server's replies

CONNECT and the zero-length packets of `MQTTConnectClient.c`, and what a server
sends back: `MQTTConnectServer.c`, `MQTTSubscribeServer.c` and
`MQTTUnsubscribeServer.c`. The replies check a buffer length that is smaller
than what they store, so their theorems keep `serialized`, which has no result
for a buffer that is too short.
-/

namespace MqttEmbedded

open Region

/-- `MQTTConnectFlags`; bit 0 is unused. -/
def connectFlags (username password willRetain willQoS will cleansession : ℕ) : UInt8 :=
  UInt8.ofNat (username % 2 * 128 + password % 2 * 64 + willRetain % 2 * 32 + willQoS % 4 * 8 +
    will % 2 * 4 + cleansession % 2 * 2)

/-- `MQTTPacket_willOptions`, less the eyecatcher and version that nothing reads. -/
structure WillOptions where
  topicName : MQTTString
  message : MQTTString
  retained : UInt8
  qos : UInt8

/-- `MQTTPacket_connectData`, less the eyecatcher and version that nothing reads. -/
structure ConnectData where
  mqttVersion : UInt8
  clientID : MQTTString
  keepAliveInterval : UInt16
  cleansession : UInt8
  willFlag : UInt8
  will : WillOptions
  username : MQTTString
  password : MQTTString

/-- `MQTTPacket_connectData_initializer`. -/
def connectDataInitializer : ConnectData where
  mqttVersion := 4
  clientID := mqttStringInitializer
  keepAliveInterval := 60
  cleansession := 1
  willFlag := 0
  will := ⟨mqttStringInitializer, mqttStringInitializer, 0, 0⟩
  username := mqttStringInitializer
  password := mqttStringInitializer

/-- A request that gives everything: a will with a message of bytes, a user name, and a
password that holds a zero byte. -/
def fullRequest : ConnectData where
  mqttVersion := 4
  clientID := MQTTString.ofCString ⟨[99, 49], by decide⟩
  keepAliveInterval := 300
  cleansession := 0
  willFlag := 1
  will := ⟨MQTTString.ofCString ⟨[119, 47, 116], by decide⟩, ⟨none, ⟨2, some [0, 255, 7]⟩⟩, 1, 2⟩
  username := MQTTString.ofCString ⟨[109, 101], by decide⟩
  password := ⟨none, ⟨3, some [0, 1, 2]⟩⟩

/-- The test the source makes before it counts or writes an optional string. -/
def MQTTString.Given (s : MQTTString) : Prop :=
  s.cstring.isSome ∨ s.lenstring.data.isSome

instance (s : MQTTString) : Decidable s.Given :=
  inferInstanceAs (Decidable (_ ∨ _))

variable (buf : List UInt8)

def mqttSerializeConnectLength (options : ConnectData) : ℕ :=
  let len := if options.mqttVersion = 3 then 12 -- variable depending on MQTT or MQIsdp
    else if options.mqttVersion = 4 then 10 else 0
  let len := len + (mqttStrlen options.clientID + 2)
  let len := if options.willFlag ≠ 0 then
    len + (mqttStrlen options.will.topicName + 2 + mqttStrlen options.will.message + 2) else len
  let len := if options.username.Given then len + (mqttStrlen options.username + 2) else len
  if options.password.Given then len + (mqttStrlen options.password + 2) else len

def mqttName : CString := ⟨"MQTT".toList.map fun c => UInt8.ofNat c.toNat, by decide⟩
def mqisdpName : CString := ⟨"MQIsdp".toList.map fun c => UInt8.ofNat c.toNat, by decide⟩

def writeProtocol (mqttVersion : UInt8) (ptr : Ptr) : Option Ptr :=
  if mqttVersion = 4 then do
    let ptr ← writeCString mqttName ptr
    writeChar 4 ptr
  else do
    let ptr ← writeCString mqisdpName ptr
    writeChar 3 ptr

def connectFlagsOf (options : ConnectData) : UInt8 :=
  let will := options.willFlag ≠ 0
  connectFlags (if options.username.Given then 1 else 0) (if options.password.Given then 1 else 0)
    (if will then options.will.retained.toNat else 0) (if will then options.will.qos.toNat else 0)
    (if will then 1 else 0) options.cleansession.toNat

def writeWill (will : WillOptions) (ptr : Ptr) : Option Ptr := do
  let ptr ← writeMQTTString will.topicName ptr
  writeMQTTString will.message ptr

def mqttSerializeConnect (options : ConnectData) : Option (ℤ × List UInt8) :=
  let len := mqttSerializeConnectLength options
  if buf.length < mqttPacketLen len then some (mqttpacketBufferTooShort, buf)
  else do
    let header := MQTTHeader.ofBits MsgType.connect.code 0 0 0
    let ptr ← writeChar header (.start buf)
    let ptr ← mqttPacketEncode len ptr
    let ptr ← writeProtocol options.mqttVersion ptr
    let ptr ← writeChar (connectFlagsOf options) ptr
    let ptr ← writeInt options.keepAliveInterval.toNat ptr
    let ptr ← writeMQTTString options.clientID ptr
    let ptr ← writeIf (options.willFlag ≠ 0) (writeWill options.will) ptr
    let ptr ← writeIf options.username.Given (writeMQTTString options.username) ptr
    let ptr ← writeIf options.password.Given (writeMQTTString options.password) ptr
    ptrMinusBuf ptr

namespace ConnectData

/-- Every string that the packet will carry is given once. -/
def OneForm (options : ConnectData) : Prop :=
  options.clientID.OneForm ∧ options.will.topicName.OneForm ∧ options.will.message.OneForm ∧
    options.username.OneForm ∧ options.password.OneForm

def protocol (options : ConnectData) : List UInt8 :=
  if options.mqttVersion = 4 then stringBytes mqttName.bytes ++ [4]
  else stringBytes mqisdpName.bytes ++ [3]

def body (options : ConnectData) : List UInt8 :=
  options.protocol ++ ([connectFlagsOf options] ++ (intBytes options.keepAliveInterval.toNat ++
    (stringBytes options.clientID.text ++
    ((if options.willFlag ≠ 0 then
      stringBytes options.will.topicName.text ++ stringBytes options.will.message.text else []) ++
    ((if options.username.Given then stringBytes options.username.text else []) ++
    (if options.password.Given then stringBytes options.password.text else []))))))

/-- The options make a packet of one of the two versions. -/
def Legal (options : ConnectData) : Prop :=
  options.OneForm ∧ (options.mqttVersion = 3 ∨ options.mqttVersion = 4) ∧
    options.body.length ≤ maxRemainingLength

/-- The packet is as long as measured, if the version is one of the two that are measured. -/
theorem length_body_add {options : ConnectData} (hone : options.OneForm) :
    options.body.length + (if options.mqttVersion = 3 then 12
        else if options.mqttVersion = 4 then 10 else 0) =
      mqttSerializeConnectLength options + (options.protocol.length + 3) := by
  obtain ⟨hid, htopic, hmessage, huser, hpass⟩ := hone
  unfold mqttSerializeConnectLength
  simp only [body, List.length_append, length_stringBytes, length_intBytes, List.length_singleton,
    hid.length_text]
  generalize (if options.mqttVersion = 3 then 12 else if options.mqttVersion = 4 then 10 else 0) =
    measured
  split_ifs <;>
    simp only [List.length_append, length_stringBytes, htopic.length_text, hmessage.length_text,
      huser.length_text, hpass.length_text, List.length_nil] <;> omega

theorem length_body {options : ConnectData} (hone : options.OneForm)
    (hversion : options.mqttVersion = 3 ∨ options.mqttVersion = 4) :
    options.body.length = mqttSerializeConnectLength options := by
  have hadd := length_body_add hone
  have hprotocol : options.protocol.length + 3 =
      if options.mqttVersion = 3 then 12 else if options.mqttVersion = 4 then 10 else 0 := by
    rcases hversion with h | h
    · rw [protocol, h]
      rfl
    · rw [protocol, h]
      rfl
  omega

/-- Of another version there are twelve bytes more than measured. -/
theorem length_body_other {options : ConnectData} (hone : options.OneForm)
    (hversion : ¬ (options.mqttVersion = 3 ∨ options.mqttVersion = 4)) :
    options.body.length = mqttSerializeConnectLength options + 12 := by
  obtain ⟨hthree, hfour⟩ := not_or.mp hversion
  have hadd := length_body_add hone
  rw [if_neg hthree, if_neg hfour] at hadd
  have hprotocol : options.protocol.length = 9 := by
    rw [protocol, if_neg hfour]
    rfl
  omega

end ConnectData

theorem writeProtocol_eq (options : ConnectData) (ptr : Ptr) :
    writeProtocol options.mqttVersion ptr = ptr.put options.protocol := by
  unfold writeProtocol ConnectData.protocol
  split_ifs
  · simp only [writeCString_eq, writeChar, Option.bind_eq_bind, Cursor.put_append]
  · simp only [writeCString_eq, writeChar, Option.bind_eq_bind, Cursor.put_append]

def connectHeader : UInt8 := MQTTHeader.ofBits MsgType.connect.code 0 0 0

/-- The body goes after the length that was measured, whatever its own length is. -/
theorem mqttSerializeConnect_body {options : ConnectData} (hone : options.OneForm)
    (hlen : mqttSerializeConnectLength options < 2 ^ 31) :
    mqttSerializeConnect buf options =
      if buf.length < mqttPacketLen (mqttSerializeConnectLength options) then
        some (mqttpacketBufferTooShort, buf)
      else serialized buf (connectHeader ::
        (Leb128.encode (mqttSerializeConnectLength options) ++ options.body)) := by
  obtain ⟨hid, htopic, hmessage, huser, hpass⟩ := hone
  have hwritten (ptr : Ptr) : writeWill options.will ptr = ptr.put
      (stringBytes options.will.topicName.text ++ stringBytes options.will.message.text) := by
    simp only [writeWill, writeMQTTString_eq htopic, writeMQTTString_eq hmessage,
      Option.bind_eq_bind, Cursor.put_append]
  have hwill (ptr : Ptr) := writeIf_eq (c := options.willFlag ≠ 0) ptr fun _ => hwritten ptr
  have hname (ptr : Ptr) := writeIf_eq (c := options.username.Given) ptr
    fun _ => writeMQTTString_eq huser ptr
  have hword (ptr : Ptr) := writeIf_eq (c := options.password.Given) ptr
    fun _ => writeMQTTString_eq hpass ptr
  unfold mqttSerializeConnect
  simp only [writeChar, mqttPacketEncode_eq hlen, writeProtocol_eq, writeInt_eq,
    writeMQTTString_eq hid, hwill, hname, hword, Option.bind_eq_bind, put_bind_put,
    put_ptrMinusBuf]
  rw [ConnectData.body, connectHeader, List.singleton_append]

theorem mqttSerializeConnect_eq {options : ConnectData} (hone : options.OneForm)
    (hversion : options.mqttVersion = 3 ∨ options.mqttVersion = 4)
    (hlen : mqttSerializeConnectLength options < 2 ^ 31) :
    mqttSerializeConnect buf options =
      if buf.length < mqttPacketLen (mqttSerializeConnectLength options) then
        some (mqttpacketBufferTooShort, buf)
      else serialized buf (frameBytes connectHeader options.body) := by
  rw [mqttSerializeConnect_body buf hone hlen, frameBytes, ConnectData.length_body hone hversion]

def mqttSerializeZero (packettype : ℕ) : Option (ℤ × List UInt8) :=
  if buf.length < 2 then some (mqttpacketBufferTooShort, buf)
  else do
    let header := MQTTHeader.ofBits packettype 0 0 0
    let ptr ← writeChar header (.start buf)
    let ptr ← mqttPacketEncode 0 ptr
    ptrMinusBuf ptr

def mqttSerializeDisconnect : Option (ℤ × List UInt8) :=
  mqttSerializeZero buf MsgType.disconnect.code

def mqttSerializePingreq : Option (ℤ × List UInt8) :=
  mqttSerializeZero buf MsgType.pingreq.code

theorem mqttSerializeZero_eq (packettype : ℕ) :
    mqttSerializeZero buf packettype =
      if buf.length < 2 then some (mqttpacketBufferTooShort, buf)
      else serialized buf (frameBytes (MQTTHeader.ofBits packettype 0 0 0) []) := by
  unfold mqttSerializeZero
  simp only [writeChar, mqttPacketEncode_eq (show 0 < 2 ^ 31 by norm_num), Option.bind_eq_bind,
    put_bind_put, put_ptrMinusBuf]
  simp [frameBytes]

def mqttSerializeConnack (connackRc sessionPresent : UInt8) : Option (ℤ × List UInt8) :=
  if buf.length < 2 then some (mqttpacketBufferTooShort, buf)
  else do
    let header := MQTTHeader.ofBits MsgType.connack.code 0 0 0
    let ptr ← writeChar header (.start buf)
    let ptr ← mqttPacketEncode 2 ptr
    -- flags.bits.sessionpresent is the low bit
    let flags := UInt8.ofNat (sessionPresent.toNat % 2)
    let ptr ← writeChar flags ptr
    let ptr ← writeChar connackRc ptr
    ptrMinusBuf ptr

theorem mqttSerializeConnack_eq (connackRc sessionPresent : UInt8) :
    mqttSerializeConnack buf connackRc sessionPresent =
      if buf.length < 2 then some (mqttpacketBufferTooShort, buf)
      else serialized buf (frameBytes (MQTTHeader.ofBits MsgType.connack.code 0 0 0)
        [UInt8.ofNat (sessionPresent.toNat % 2), connackRc]) := by
  unfold mqttSerializeConnack
  simp only [writeChar, mqttPacketEncode_eq (show 2 < 2 ^ 31 by norm_num), Option.bind_eq_bind,
    put_bind_put, put_ptrMinusBuf]
  simp [frameBytes]

def subackLoop : List ℕ → Ptr → Option Ptr
  | [], ptr => some ptr
  | qos :: qoss, ptr => do
    let ptr ← writeChar (UInt8.ofNat qos) ptr
    subackLoop qoss ptr

def mqttSerializeSuback (packetid : UInt16) (grantedQoSs : List ℕ) : Option (ℤ × List UInt8) :=
  let count := grantedQoSs.length
  if buf.length < 2 + count then some (mqttpacketBufferTooShort, buf)
  else do
    let header := MQTTHeader.ofBits MsgType.suback.code 0 0 0
    let ptr ← writeChar header (.start buf)
    let ptr ← mqttPacketEncode (2 + count) ptr
    let ptr ← writeInt packetid.toNat ptr
    let ptr ← subackLoop grantedQoSs ptr
    ptrMinusBuf ptr

theorem subackLoop_eq (qoss : List ℕ) (ptr : Ptr) :
    subackLoop qoss ptr = ptr.put (qoss.map fun qos => UInt8.ofNat qos) := by
  induction qoss generalizing ptr with
  | nil => simp [subackLoop]
  | cons qos qoss ih =>
    simp only [subackLoop, writeChar, ih, Option.bind_eq_bind, Cursor.put_append]
    rfl

theorem mqttSerializeSuback_eq {packetid : UInt16} {grantedQoSs : List ℕ}
    (hlen : 2 + grantedQoSs.length < 2 ^ 31) :
    mqttSerializeSuback buf packetid grantedQoSs =
      if buf.length < 2 + grantedQoSs.length then some (mqttpacketBufferTooShort, buf)
      else serialized buf (frameBytes (MQTTHeader.ofBits MsgType.suback.code 0 0 0)
        (intBytes packetid.toNat ++ grantedQoSs.map fun qos => UInt8.ofNat qos)) := by
  unfold mqttSerializeSuback
  simp only [writeChar, mqttPacketEncode_eq hlen, writeInt_eq, subackLoop_eq, Option.bind_eq_bind,
    put_bind_put, put_ptrMinusBuf]
  simp [frameBytes]

def mqttSerializeUnsuback (packetid : UInt16) : Option (ℤ × List UInt8) :=
  if buf.length < 2 then some (mqttpacketBufferTooShort, buf)
  else do
    let header := MQTTHeader.ofBits MsgType.unsuback.code 0 0 0
    let ptr ← writeChar header (.start buf)
    let ptr ← mqttPacketEncode 2 ptr
    let ptr ← writeInt packetid.toNat ptr
    ptrMinusBuf ptr

theorem mqttSerializeUnsuback_eq (packetid : UInt16) :
    mqttSerializeUnsuback buf packetid =
      if buf.length < 2 then some (mqttpacketBufferTooShort, buf)
      else serialized buf (frameBytes (MQTTHeader.ofBits MsgType.unsuback.code 0 0 0)
        (intBytes packetid.toNat)) := by
  unfold mqttSerializeUnsuback
  simp only [writeChar, mqttPacketEncode_eq (show 2 < 2 ^ 31 by norm_num), writeInt_eq,
    Option.bind_eq_bind, put_bind_put, put_ptrMinusBuf]
  simp [frameBytes]

end MqttEmbedded
