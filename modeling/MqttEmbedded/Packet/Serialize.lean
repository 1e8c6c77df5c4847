import MqttEmbedded.Packet.Frame

/-!
# The serialisers

One definition for each `MQTTSerialize_…` function, in the order of the source.
The buffer is the list of its `buflen` bytes; a result is the return code with
the buffer as the call leaves it, and there is none where the source would store
past the end of the buffer. The theorem after each definition says that a call
that is not refused lays down the frame of its header and body.
-/

namespace MqttEmbedded

open Region

variable (buf : List UInt8)

/-- The end of every serialiser: `rc = ptr - buf`. -/
def ptrMinusBuf (ptr : Ptr) : Option (ℤ × List UInt8) := some ((ptr.position : ℤ), ptr.cells)

theorem put_ptrMinusBuf (bytes : List UInt8) :
    ((Cursor.start buf).put bytes).bind ptrMinusBuf = serialized buf bytes := by
  unfold serialized
  cases (Cursor.start buf).put bytes <;> rfl

def mqttSerializePublishLength (qos : ℤ) (topicName : MQTTString) (payloadlen : ℕ) : ℕ :=
  let len := 2 + mqttStrlen topicName + payloadlen
  if 0 < qos then len + 2 else len

/-- An `int` in a bit field of two keeps its remainder by 4. -/
def mqttSerializePublish (dup : UInt8) (qos : ℤ) (retained : UInt8) (packetid : UInt16)
    (topicName : MQTTString) (payload : List UInt8) (payloadlen : ℕ) :
    Option (ℤ × List UInt8) :=
  let remLen := mqttSerializePublishLength qos topicName payloadlen
  if buf.length < mqttPacketLen remLen then some (mqttpacketBufferTooShort, buf)
  else do
    let header := MQTTHeader.ofBits MsgType.publish.code dup.toNat (qos % 4).toNat retained.toNat
    let ptr ← writeChar header (.start buf)
    let ptr ← mqttPacketEncode remLen ptr
    let ptr ← writeMQTTString topicName ptr
    let ptr ← writeIf (0 < qos) (writeInt packetid.toNat) ptr
    let ptr ← memcpy payload payloadlen ptr
    ptrMinusBuf ptr

def publishHeader (dup : UInt8) (qos : ℕ) (retained : UInt8) : UInt8 :=
  MQTTHeader.ofBits MsgType.publish.code dup.toNat qos retained.toNat

def publishBody (qos : ℕ) (packetid : UInt16) (topic payload : List UInt8) : List UInt8 :=
  stringBytes topic ++ ((if 0 < qos then intBytes packetid.toNat else []) ++ payload)

theorem publishHeader_mod (dup : UInt8) (qos : ℕ) (retained : UInt8) :
    publishHeader dup ((qos : ℤ) % 4).toNat retained = publishHeader dup qos retained := by
  have hqos : ((qos : ℤ) % 4).toNat % 4 = qos % 4 := by omega
  rw [publishHeader, publishHeader, MQTTHeader.ofBits, MQTTHeader.ofBits, hqos]

theorem length_publishBody_toNat {qos : ℤ} {packetid : UInt16} {topicName : MQTTString}
    {payload : List UInt8} {payloadlen : ℕ} (htopic : topicName.OneForm)
    (hpay : payloadlen ≤ payload.length) :
    (publishBody qos.toNat packetid topicName.text (payload.take payloadlen)).length =
      mqttSerializePublishLength qos topicName payloadlen := by
  simp only [publishBody, mqttSerializePublishLength, List.length_append, length_stringBytes,
    htopic.length_text, List.length_take, Nat.min_eq_left hpay, Int.lt_toNat, Nat.cast_zero]
  split_ifs
  · simp
    omega
  · simp

theorem length_publishBody {qos : ℕ} {packetid : UInt16} {topicName : MQTTString}
    {payload : List UInt8} {payloadlen : ℕ} (htopic : topicName.OneForm)
    (hpay : payloadlen ≤ payload.length) :
    (publishBody qos packetid topicName.text (payload.take payloadlen)).length =
      mqttSerializePublishLength qos topicName payloadlen := by
  rw [← length_publishBody_toNat htopic hpay, Int.toNat_natCast]

/-- A quality of service below 0 gives a packet without an identifier. -/
theorem mqttSerializePublish_toNat {dup retained : UInt8} {qos : ℤ} {packetid : UInt16}
    {topicName : MQTTString} {payload : List UInt8} {payloadlen : ℕ}
    (htopic : topicName.OneForm) (hpay : payloadlen ≤ payload.length)
    (hlen : mqttSerializePublishLength qos topicName payloadlen < 2 ^ 31) :
    mqttSerializePublish buf dup qos retained packetid topicName payload payloadlen =
      if buf.length < mqttPacketLen (mqttSerializePublishLength qos topicName payloadlen) then
        some (mqttpacketBufferTooShort, buf)
      else serialized buf (frameBytes (publishHeader dup (qos % 4).toNat retained)
        (publishBody qos.toNat packetid topicName.text (payload.take payloadlen))) := by
  have hbody : (publishBody qos.toNat packetid topicName.text (payload.take payloadlen)).length =
      mqttSerializePublishLength qos topicName payloadlen := length_publishBody_toNat htopic hpay
  have hid (ptr : Ptr) : writeIf (0 < qos) (writeInt packetid.toNat) ptr =
      ptr.put (if 0 < qos then intBytes packetid.toNat else []) :=
    writeIf_eq ptr fun _ => writeInt_eq _ _
  unfold mqttSerializePublish
  simp only [writeChar, mqttPacketEncode_eq hlen, writeMQTTString_eq htopic, hid, memcpy_eq hpay,
    Option.bind_eq_bind, put_bind_put, put_ptrMinusBuf]
  simp only [frameBytes, hbody]
  simp [publishBody, publishHeader]

theorem mqttSerializePublish_eq {dup retained : UInt8} {qos : ℕ} {packetid : UInt16}
    {topicName : MQTTString} {payload : List UInt8} {payloadlen : ℕ}
    (htopic : topicName.OneForm) (hpay : payloadlen ≤ payload.length)
    (hlen : mqttSerializePublishLength qos topicName payloadlen < 2 ^ 31) :
    mqttSerializePublish buf dup qos retained packetid topicName payload payloadlen =
      if buf.length < mqttPacketLen (mqttSerializePublishLength qos topicName payloadlen) then
        some (mqttpacketBufferTooShort, buf)
      else serialized buf (frameBytes (publishHeader dup qos retained)
        (publishBody qos packetid topicName.text (payload.take payloadlen))) := by
  rw [mqttSerializePublish_toNat buf htopic hpay hlen, publishHeader_mod, Int.toNat_natCast]

def mqttSerializeAck (packettype : ℕ) (dup : UInt8) (packetid : UInt16) :
    Option (ℤ × List UInt8) :=
  if buf.length < 4 then some (mqttpacketBufferTooShort, buf)
  else do
    let header := MQTTHeader.ofBits packettype dup.toNat
      (if packettype = MsgType.pubrel.code then 1 else 0) 0
    let ptr ← writeChar header (.start buf)
    let ptr ← mqttPacketEncode 2 ptr
    let ptr ← writeInt packetid.toNat ptr
    ptrMinusBuf ptr

def ackHeader (packettype : ℕ) (dup : UInt8) : UInt8 :=
  MQTTHeader.ofBits packettype dup.toNat (if packettype = MsgType.pubrel.code then 1 else 0) 0

theorem mqttSerializeAck_eq (packettype : ℕ) (dup : UInt8) (packetid : UInt16) :
    mqttSerializeAck buf packettype dup packetid =
      if buf.length < 4 then some (mqttpacketBufferTooShort, buf)
      else serialized buf (frameBytes (ackHeader packettype dup) (intBytes packetid.toNat)) := by
  unfold mqttSerializeAck
  simp only [writeChar, mqttPacketEncode_eq (show 2 < 2 ^ 31 by norm_num), writeInt_eq,
    Option.bind_eq_bind, put_bind_put, put_ptrMinusBuf]
  simp [frameBytes, ackHeader]

def mqttSerializeSubscribeLength (topicFilters : List MQTTString) : ℕ :=
  topicFilters.foldl (fun len filter => len + (2 + mqttStrlen filter + 1)) 2

/-- The two arrays run in step; a missing QoS is a read past its array. -/
def subscribeLoop : List MQTTString → List ℤ → Ptr → Option Ptr
  | [], _, ptr => some ptr
  | _ :: _, [], _ => none
  | filter :: filters, qos :: qoss, ptr => do
    let ptr ← writeMQTTString filter ptr
    let ptr ← writeChar (UInt8.ofInt qos) ptr
    subscribeLoop filters qoss ptr

def mqttSerializeSubscribe (dup : UInt8) (packetid : UInt16) (topicFilters : List MQTTString)
    (requestedQoSs : List ℤ) : Option (ℤ × List UInt8) :=
  let remLen := mqttSerializeSubscribeLength topicFilters
  if buf.length < mqttPacketLen remLen then some (mqttpacketBufferTooShort, buf)
  else do
    let header := MQTTHeader.ofBits MsgType.subscribe.code dup.toNat 1 0
    let ptr ← writeChar header (.start buf)
    let ptr ← mqttPacketEncode remLen ptr
    let ptr ← writeInt packetid.toNat ptr
    let ptr ← subscribeLoop topicFilters requestedQoSs ptr
    ptrMinusBuf ptr

def subscribeEntries : List MQTTString → List ℤ → List UInt8
  | filter :: filters, qos :: qoss =>
    stringBytes filter.text ++ (UInt8.ofInt qos :: subscribeEntries filters qoss)
  | _, _ => []

theorem subscribeLoop_eq : ∀ (filters : List MQTTString) (qoss : List ℤ) (ptr : Ptr),
    (∀ filter ∈ filters, filter.OneForm) → filters.length ≤ qoss.length →
    subscribeLoop filters qoss ptr = ptr.put (subscribeEntries filters qoss)
  | [], qoss, ptr, _, _ => by simp [subscribeLoop, subscribeEntries]
  | _ :: _, [], _, _, hlen => by simp at hlen
  | filter :: filters, qos :: qoss, ptr, hone, hlen => by
    have ih (p : Ptr) := subscribeLoop_eq filters qoss p
      (fun f hf => hone f (List.mem_cons_of_mem _ hf)) (by simpa using hlen)
    have hf := hone filter List.mem_cons_self
    simp only [subscribeLoop, subscribeEntries, writeMQTTString_eq hf, writeChar, ih,
      Option.bind_eq_bind, put_bind_put]
    rw [Cursor.put_append]
    simp

theorem length_subscribeEntries : ∀ (filters : List MQTTString) (qoss : List ℤ) (len : ℕ),
    (∀ filter ∈ filters, filter.OneForm) → filters.length ≤ qoss.length →
    filters.foldl (fun len filter => len + (2 + mqttStrlen filter + 1)) len =
      len + (subscribeEntries filters qoss).length
  | [], qoss, len, _, _ => by simp [subscribeEntries]
  | _ :: _, [], _, _, hlen => by simp at hlen
  | filter :: filters, qos :: qoss, len, hone, hlen => by
    have hf := hone filter List.mem_cons_self
    rw [List.foldl_cons, length_subscribeEntries filters qoss _
      (fun f hf => hone f (List.mem_cons_of_mem _ hf)) (by simpa using hlen)]
    simp only [subscribeEntries, List.length_append, length_stringBytes, hf.length_text,
      List.length_cons]
    omega

def subscribeHeader (dup : UInt8) : UInt8 :=
  MQTTHeader.ofBits MsgType.subscribe.code dup.toNat 1 0

theorem mqttSerializeSubscribe_eq {dup : UInt8} {packetid : UInt16}
    {topicFilters : List MQTTString} {requestedQoSs : List ℤ}
    (hone : ∀ filter ∈ topicFilters, filter.OneForm)
    (hqos : topicFilters.length ≤ requestedQoSs.length)
    (hlen : mqttSerializeSubscribeLength topicFilters < 2 ^ 31) :
    mqttSerializeSubscribe buf dup packetid topicFilters requestedQoSs =
      if buf.length < mqttPacketLen (mqttSerializeSubscribeLength topicFilters) then
        some (mqttpacketBufferTooShort, buf)
      else serialized buf (frameBytes (subscribeHeader dup)
        (intBytes packetid.toNat ++ subscribeEntries topicFilters requestedQoSs)) := by
  have hbody := length_subscribeEntries topicFilters requestedQoSs 2 hone hqos
  unfold mqttSerializeSubscribe
  simp only [writeChar, mqttPacketEncode_eq hlen, writeInt_eq,
    subscribeLoop_eq topicFilters requestedQoSs _ hone hqos, Option.bind_eq_bind, put_bind_put,
    put_ptrMinusBuf]
  simp only [mqttSerializeSubscribeLength] at hbody ⊢
  simp [frameBytes, hbody, subscribeHeader]

def mqttSerializeUnsubscribeLength (topicFilters : List MQTTString) : ℕ :=
  topicFilters.foldl (fun len filter => len + (2 + mqttStrlen filter)) 2

def unsubscribeLoop : List MQTTString → Ptr → Option Ptr
  | [], ptr => some ptr
  | filter :: filters, ptr => do
    let ptr ← writeMQTTString filter ptr
    unsubscribeLoop filters ptr

def mqttSerializeUnsubscribe (dup : UInt8) (packetid : UInt16)
    (topicFilters : List MQTTString) : Option (ℤ × List UInt8) :=
  let remLen := mqttSerializeUnsubscribeLength topicFilters
  if buf.length < mqttPacketLen remLen then some (mqttpacketBufferTooShort, buf)
  else do
    let header := MQTTHeader.ofBits MsgType.unsubscribe.code dup.toNat 1 0
    let ptr ← writeChar header (.start buf)
    let ptr ← mqttPacketEncode remLen ptr
    let ptr ← writeInt packetid.toNat ptr
    let ptr ← unsubscribeLoop topicFilters ptr
    ptrMinusBuf ptr

def unsubscribeEntries (filters : List MQTTString) : List UInt8 :=
  filters.flatMap fun filter => stringBytes filter.text

theorem unsubscribeLoop_eq (filters : List MQTTString) (ptr : Ptr)
    (hone : ∀ filter ∈ filters, filter.OneForm) :
    unsubscribeLoop filters ptr = ptr.put (unsubscribeEntries filters) := by
  induction filters generalizing ptr with
  | nil => simp [unsubscribeLoop, unsubscribeEntries]
  | cons filter filters ih =>
    have hf := hone filter List.mem_cons_self
    have ih (p : Ptr) := ih p (fun f hf => hone f (List.mem_cons_of_mem _ hf))
    simp only [unsubscribeLoop, writeMQTTString_eq hf, ih, Option.bind_eq_bind]
    rw [Cursor.put_append]
    simp [unsubscribeEntries]

theorem length_unsubscribeEntries (filters : List MQTTString) (len : ℕ)
    (hone : ∀ filter ∈ filters, filter.OneForm) :
    filters.foldl (fun len filter => len + (2 + mqttStrlen filter)) len =
      len + (unsubscribeEntries filters).length := by
  induction filters generalizing len with
  | nil => simp [unsubscribeEntries]
  | cons filter filters ih =>
    have hf := hone filter List.mem_cons_self
    rw [List.foldl_cons, ih _ (fun f hf => hone f (List.mem_cons_of_mem _ hf))]
    simp only [unsubscribeEntries, List.flatMap_cons, List.length_append, length_stringBytes,
      hf.length_text]
    omega

def unsubscribeHeader (dup : UInt8) : UInt8 :=
  MQTTHeader.ofBits MsgType.unsubscribe.code dup.toNat 1 0

theorem mqttSerializeUnsubscribe_eq {dup : UInt8} {packetid : UInt16}
    {topicFilters : List MQTTString} (hone : ∀ filter ∈ topicFilters, filter.OneForm)
    (hlen : mqttSerializeUnsubscribeLength topicFilters < 2 ^ 31) :
    mqttSerializeUnsubscribe buf dup packetid topicFilters =
      if buf.length < mqttPacketLen (mqttSerializeUnsubscribeLength topicFilters) then
        some (mqttpacketBufferTooShort, buf)
      else serialized buf (frameBytes (unsubscribeHeader dup)
        (intBytes packetid.toNat ++ unsubscribeEntries topicFilters)) := by
  have hbody := length_unsubscribeEntries topicFilters 2 hone
  unfold mqttSerializeUnsubscribe
  simp only [writeChar, mqttPacketEncode_eq hlen, writeInt_eq,
    unsubscribeLoop_eq topicFilters _ hone, Option.bind_eq_bind, put_bind_put, put_ptrMinusBuf]
  simp only [mqttSerializeUnsubscribeLength] at hbody ⊢
  simp [frameBytes, hbody, unsubscribeHeader]

end MqttEmbedded
