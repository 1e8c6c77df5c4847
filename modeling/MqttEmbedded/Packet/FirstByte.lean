import MqttEmbedded.Packet.Serialize
import MqttEmbedded.Packet.SerializeSession

/-!
# The first byte of a packet

Whatever the arguments are, a serialiser puts its bytes down one after the other,
and the first of them is the header. The type of a packet can be read off it.
-/

namespace MqttEmbedded

open Region

/-- All that the writer does is to put some bytes. -/
def Puts (writer : Ptr → Option Ptr) : Prop :=
  ∀ ptr ptr', writer ptr = some ptr' → ∃ bytes, ptr.put bytes = some ptr'

/-- The writer puts some bytes, and gives their number and the buffer. -/
def Fills (writer : Ptr → Option (ℤ × List UInt8)) : Prop :=
  ∀ ptr result, writer ptr = some result →
    ∃ bytes ptr', ptr.put bytes = some ptr' ∧ result = ((ptr'.position : ℤ), ptr'.cells)

namespace Puts

variable {writer k : Ptr → Option Ptr}

protected theorem put (bytes : List UInt8) : Puts fun ptr => ptr.put bytes :=
  fun _ _ h => ⟨bytes, h⟩

protected theorem some : Puts some := by
  intro ptr ptr' h
  exact ⟨[], (Cursor.put_nil ptr).trans h⟩

protected theorem none : Puts fun _ => none := fun _ _ h => nomatch h

protected theorem bind (hw : Puts writer) (hk : Puts k) : Puts fun ptr => writer ptr >>= k := by
  intro ptr ptr'' h
  obtain ⟨ptr', hptr', hk'⟩ := Option.bind_eq_some_iff.mp h
  obtain ⟨xs, hxs⟩ := hw ptr ptr' hptr'
  obtain ⟨ys, hys⟩ := hk ptr' ptr'' hk'
  refine ⟨xs ++ ys, ?_⟩
  rw [← Cursor.put_append, hxs]
  exact hys

protected theorem writeIf {c : Prop} [Decidable c] (hw : Puts writer) :
    Puts (writeIf c writer) := by
  intro ptr ptr' h
  unfold MqttEmbedded.writeIf at h
  split_ifs at h
  · exact hw ptr ptr' h
  · exact Puts.some ptr ptr' h

end Puts

theorem Fills.bind {writer : Ptr → Option Ptr} {k : Ptr → Option (ℤ × List UInt8)}
    (hw : Puts writer) (hk : Fills k) : Fills fun ptr => writer ptr >>= k := by
  intro ptr result h
  obtain ⟨ptr', hptr', hk'⟩ := Option.bind_eq_some_iff.mp h
  obtain ⟨xs, hxs⟩ := hw ptr ptr' hptr'
  obtain ⟨ys, ptr'', hys, hresult⟩ := hk ptr' result hk'
  refine ⟨xs ++ ys, ptr'', ?_, hresult⟩
  rw [← Cursor.put_append, hxs]
  exact hys

theorem fills_ptrMinusBuf : Fills ptrMinusBuf := by
  intro ptr result h
  exact ⟨[], ptr, Cursor.put_nil ptr, (Option.some.inj h).symm⟩

theorem puts_writeInt (n : ℕ) : Puts (writeInt n) := fun ptr _ h =>
  ⟨intBytes n, (writeInt_eq n ptr).symm.trans h⟩

theorem puts_memcpy (src : List UInt8) (count : ℕ) : Puts (memcpy src count) := by
  intro ptr _ h
  obtain ⟨bytes, -, hput⟩ := Option.bind_eq_some_iff.mp h
  exact ⟨bytes, hput⟩

theorem puts_writeCString (string : CString) : Puts (writeCString string) :=
  .bind (puts_writeInt _) (puts_memcpy _ _)

theorem puts_writeMQTTString (mqttstring : MQTTString) : Puts (writeMQTTString mqttstring) := by
  unfold writeMQTTString
  split_ifs
  · refine .bind (puts_writeInt _) ?_
    cases mqttstring.lenstring.data with
    | none => exact .none
    | some data => exact puts_memcpy _ _
  · cases mqttstring.cstring with
    | none => exact puts_writeInt 0
    | some string => exact puts_writeCString string

theorem puts_encodeLoop : ∀ rounds length : ℕ, Puts (encodeLoop rounds length)
  | 0, _ => .some
  | rounds + 1, length => by
    refine .bind (.put _) ?_
    split_ifs
    · exact puts_encodeLoop rounds (length / 128)
    · exact .some

theorem puts_subscribeLoop : ∀ (filters : List MQTTString) (qoss : List ℤ),
    Puts (subscribeLoop filters qoss)
  | [], _ => .some
  | _ :: _, [] => .none
  | filter :: filters, _ :: qoss =>
    .bind (puts_writeMQTTString filter) (.bind (.put _) (puts_subscribeLoop filters qoss))

theorem puts_unsubscribeLoop : ∀ filters : List MQTTString, Puts (unsubscribeLoop filters)
  | [] => .some
  | filter :: filters => .bind (puts_writeMQTTString filter) (puts_unsubscribeLoop filters)

theorem puts_writeProtocol (mqttVersion : UInt8) : Puts (writeProtocol mqttVersion) := by
  unfold writeProtocol
  split_ifs
  · exact .bind (puts_writeCString _) (.put _)
  · exact .bind (puts_writeCString _) (.put _)

/-- A buffer shorter than the estimate is refused; in any other the header is put, and more
bytes after it. -/
def Serializes (header : UInt8) (size : ℕ) (f : List UInt8 → Option (ℤ × List UInt8)) : Prop :=
  ∃ k, Fills k ∧ ∀ buf, f buf =
    if buf.length < size then some (mqttpacketBufferTooShort, buf)
    else writeChar header (.start buf) >>= k

theorem mqttSerializeConnect_serializes (options : ConnectData) :
    Serializes (MQTTHeader.ofBits MsgType.connect.code 0 0 0)
      (mqttPacketLen (mqttSerializeConnectLength options))
      fun buf => mqttSerializeConnect buf options := by
  refine ⟨_, ?_, fun _ => rfl⟩
  refine .bind (puts_encodeLoop _ _) (.bind (puts_writeProtocol _) ?_)
  refine .bind (.put _) (.bind (puts_writeInt _) (.bind (puts_writeMQTTString _) ?_))
  have hwill := (puts_writeMQTTString options.will.topicName).bind
    (puts_writeMQTTString options.will.message)
  refine .bind (.writeIf hwill) (.bind (.writeIf (puts_writeMQTTString _)) ?_)
  exact .bind (.writeIf (puts_writeMQTTString _)) fills_ptrMinusBuf

theorem mqttSerializePublish_serializes (dup : UInt8) (qos : ℤ) (retained : UInt8)
    (packetid : UInt16) (topicName : MQTTString) (payload : List UInt8) (payloadlen : ℕ) :
    Serializes (MQTTHeader.ofBits MsgType.publish.code dup.toNat (qos % 4).toNat retained.toNat)
      (mqttPacketLen (mqttSerializePublishLength qos topicName payloadlen))
      fun buf =>
        mqttSerializePublish buf dup qos retained packetid topicName payload payloadlen := by
  refine ⟨_, ?_, fun _ => rfl⟩
  refine .bind (puts_encodeLoop _ _) (.bind (puts_writeMQTTString topicName) ?_)
  exact .bind (.writeIf (puts_writeInt _)) (.bind (puts_memcpy _ _) fills_ptrMinusBuf)

theorem mqttSerializeSubscribe_serializes (dup : UInt8) (packetid : UInt16)
    (topicFilters : List MQTTString) (requestedQoSs : List ℤ) :
    Serializes (MQTTHeader.ofBits MsgType.subscribe.code dup.toNat 1 0)
      (mqttPacketLen (mqttSerializeSubscribeLength topicFilters))
      fun buf => mqttSerializeSubscribe buf dup packetid topicFilters requestedQoSs :=
  ⟨_, .bind (puts_encodeLoop _ _) (.bind (puts_writeInt _)
    (.bind (puts_subscribeLoop _ _) fills_ptrMinusBuf)), fun _ => rfl⟩

theorem mqttSerializeUnsubscribe_serializes (dup : UInt8) (packetid : UInt16)
    (topicFilters : List MQTTString) :
    Serializes (MQTTHeader.ofBits MsgType.unsubscribe.code dup.toNat 1 0)
      (mqttPacketLen (mqttSerializeUnsubscribeLength topicFilters))
      fun buf => mqttSerializeUnsubscribe buf dup packetid topicFilters :=
  ⟨_, .bind (puts_encodeLoop _ _) (.bind (puts_writeInt _)
    (.bind (puts_unsubscribeLoop _) fills_ptrMinusBuf)), fun _ => rfl⟩

theorem mqttSerializeZero_serializes (packettype : ℕ) :
    Serializes (MQTTHeader.ofBits packettype 0 0 0) 2
      fun buf => mqttSerializeZero buf packettype :=
  ⟨_, .bind (puts_encodeLoop _ _) fills_ptrMinusBuf, fun _ => rfl⟩

/-- When the serialiser has a packet, it is in the buffer and begins with this header. -/
def BeginsWith (header : UInt8) (f : List UInt8 → Option (ℤ × List UInt8)) : Prop :=
  ∀ buf len buf', f buf = some (len, buf') → 0 < len →
    ∃ bytes, buf'.take len.toNat = header :: bytes ∧ (header :: bytes).length = len.toNat

namespace Serializes

variable {header : UInt8} {size : ℕ} {f : List UInt8 → Option (ℤ × List UInt8)}

theorem put_header {k : Ptr → Option (ℤ × List UInt8)} (hk : Fills k) {buf buf' : List UInt8}
    {len : ℤ} (h : writeChar header (.start buf) >>= k = some (len, buf')) :
    ∃ bytes ptr', (Cursor.start buf).put (header :: bytes) = some ptr' ∧
      len = ptr'.position ∧ buf' = ptr'.cells := by
  obtain ⟨ptr, hptr, hk'⟩ := Option.bind_eq_some_iff.mp h
  obtain ⟨bytes, ptr', hput, hresult⟩ := hk ptr (len, buf') hk'
  obtain ⟨hlen, hbuf⟩ := Prod.mk.inj hresult
  refine ⟨bytes, ptr', ?_, hlen, hbuf⟩
  have happend := Cursor.put_append (Cursor.start buf) [header] bytes
  rw [← List.singleton_append, ← happend]
  unfold writeChar at hptr
  rw [hptr]
  exact hput

theorem beginsWith (hf : Serializes header size f) : BeginsWith header f := by
  intro buf len buf' h hpos
  obtain ⟨k, hk, heq⟩ := hf
  rw [heq] at h
  split_ifs at h
  · obtain ⟨rfl, -⟩ := Prod.mk.inj (Option.some.inj h)
    exact absurd hpos (by decide)
  · obtain ⟨bytes, ptr', hall, rfl, rfl⟩ := put_header hk h
    obtain ⟨-, hcells, hposition⟩ := Cursor.put_eq_some_iff.mp hall
    have hzero : (Cursor.start buf).position = 0 := rfl
    rw [Int.toNat_natCast, hposition, hzero, Nat.zero_add, hcells, hzero]
    exact ⟨bytes, take_overwrite_zero buf (header :: bytes), rfl⟩

end Serializes

theorem mqttSerializeConnect_beginsWith (options : ConnectData) :
    BeginsWith (MQTTHeader.ofBits MsgType.connect.code 0 0 0)
      fun buf => mqttSerializeConnect buf options :=
  (mqttSerializeConnect_serializes options).beginsWith

theorem mqttSerializePublish_beginsWith (dup : UInt8) (qos : ℕ) (retained : UInt8)
    (packetid : UInt16) (topicName : MQTTString) (payload : List UInt8) (payloadlen : ℕ) :
    BeginsWith (MQTTHeader.ofBits MsgType.publish.code dup.toNat qos retained.toNat)
      fun buf => mqttSerializePublish buf dup qos retained packetid topicName payload
        payloadlen := by
  have hheader := publishHeader_mod dup qos retained
  unfold publishHeader at hheader
  rw [← hheader]
  exact (mqttSerializePublish_serializes _ _ _ _ _ _ _).beginsWith

theorem mqttSerializeSubscribe_beginsWith (dup : UInt8) (packetid : UInt16)
    (topicFilters : List MQTTString) (requestedQoSs : List ℤ) :
    BeginsWith (MQTTHeader.ofBits MsgType.subscribe.code dup.toNat 1 0)
      fun buf => mqttSerializeSubscribe buf dup packetid topicFilters requestedQoSs :=
  (mqttSerializeSubscribe_serializes dup packetid topicFilters requestedQoSs).beginsWith

theorem mqttSerializeUnsubscribe_beginsWith (dup : UInt8) (packetid : UInt16)
    (topicFilters : List MQTTString) :
    BeginsWith (MQTTHeader.ofBits MsgType.unsubscribe.code dup.toNat 1 0)
      fun buf => mqttSerializeUnsubscribe buf dup packetid topicFilters :=
  (mqttSerializeUnsubscribe_serializes dup packetid topicFilters).beginsWith

theorem mqttSerializeZero_beginsWith (packettype : ℕ) :
    BeginsWith (MQTTHeader.ofBits packettype 0 0 0) fun buf => mqttSerializeZero buf packettype :=
  (mqttSerializeZero_serializes packettype).beginsWith

end MqttEmbedded
