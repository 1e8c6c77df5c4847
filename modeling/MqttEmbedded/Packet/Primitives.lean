import MqttEmbedded.Packet.Types
import MqttEmbedded.Lib.Leb128

/-!
# Reading and writing the fields of a packet

The helpers of `MQTTPacket.c`. A writer takes the cursor `ptr` and gives the
cursor moved past what it wrote, or nothing where the source would store
outside the buffer. Each writer is shown to be one `put` of a list of bytes,
which is all that its callers use.
-/

namespace MqttEmbedded

open Region

abbrev Ptr := Cursor UInt8

def writeChar (c : UInt8) (ptr : Ptr) : Option Ptr := ptr.put [c]

def writeInt (anInt : ℕ) (ptr : Ptr) : Option Ptr := do
  let ptr ← writeChar (UInt8.ofNat (anInt / 256)) ptr
  writeChar (UInt8.ofNat (anInt % 256)) ptr

/-- `memcpy` from the front of `src`, which must hold `count` bytes. -/
def memcpy (src : List UInt8) (count : ℕ) (ptr : Ptr) : Option Ptr := do
  let bytes ← Region.read src 0 count
  ptr.put bytes

def writeCString (string : CString) (ptr : Ptr) : Option Ptr := do
  let len := strlen string
  let ptr ← writeInt len ptr
  memcpy string.bytes len ptr

def writeMQTTString (mqttstring : MQTTString) (ptr : Ptr) : Option Ptr :=
  if 0 < mqttstring.lenstring.len then do
    let ptr ← writeInt mqttstring.lenstring.len ptr
    let data ← mqttstring.lenstring.data
    memcpy data mqttstring.lenstring.len ptr
  else
    match mqttstring.cstring with
    | some string => writeCString string ptr
    | none => writeInt 0 ptr

/-- A field that the source writes under an `if`. -/
def writeIf (c : Prop) [Decidable c] (writer : Ptr → Option Ptr) (ptr : Ptr) : Option Ptr :=
  if c then writer ptr else some ptr

/-- The two bytes `writeInt` emits. -/
def intBytes (n : ℕ) : List UInt8 := [UInt8.ofNat (n / 256), UInt8.ofNat (n % 256)]

@[simp] theorem length_intBytes (n : ℕ) : (intBytes n).length = 2 := rfl

/-- A string as `writeMQTTString` emits it. -/
def stringBytes (text : List UInt8) : List UInt8 := intBytes text.length ++ text

@[simp] theorem length_stringBytes (text : List UInt8) :
    (stringBytes text).length = 2 + text.length := by
  simp [stringBytes]

theorem put_bind_put {β : Type} (ptr : Ptr) (xs ys : List UInt8) (k : Ptr → Option β) :
    (ptr.put xs).bind (fun p => (p.put ys).bind k) = (ptr.put (xs ++ ys)).bind k := by
  rw [← Cursor.put_append, Option.bind_assoc]

theorem writeIf_eq {c : Prop} [Decidable c] {writer : Ptr → Option Ptr} {bytes : List UInt8}
    (ptr : Ptr) (h : c → writer ptr = ptr.put bytes) :
    writeIf c writer ptr = ptr.put (if c then bytes else []) := by
  unfold writeIf
  split_ifs with hc
  · exact h hc
  · exact (Cursor.put_nil ptr).symm

theorem writeInt_eq (n : ℕ) (ptr : Ptr) : writeInt n ptr = ptr.put (intBytes n) :=
  Cursor.put_append ptr [UInt8.ofNat (n / 256)] [UInt8.ofNat (n % 256)]

theorem memcpy_eq {src : List UInt8} {count : ℕ} (h : count ≤ src.length) (ptr : Ptr) :
    memcpy src count ptr = ptr.put (src.take count) := by
  simp [memcpy, Region.read_eq (show 0 + count ≤ src.length by omega)]

theorem writeCString_eq (string : CString) (ptr : Ptr) :
    writeCString string ptr = ptr.put (stringBytes string.bytes) := by
  have hcopy (p : Ptr) : memcpy string.bytes (strlen string) p = p.put string.bytes := by
    rw [strlen, memcpy_eq le_rfl, List.take_length]
  simp only [writeCString, writeInt_eq, hcopy, Option.bind_eq_bind]
  exact Cursor.put_append ptr _ _

theorem writeMQTTString_eq {s : MQTTString} (h : s.OneForm) (ptr : Ptr) :
    writeMQTTString s ptr = ptr.put (stringBytes s.text) := by
  obtain ⟨hone, hlen⟩ := h
  unfold writeMQTTString
  split_ifs with hpos
  · have hc : s.cstring = none := by
      cases hs : s.cstring with
      | none => rfl
      | some c =>
        have := hone (by simp [hs])
        omega
    cases hd : s.lenstring.data with
    | none =>
      rw [hd] at hlen
      simp at hlen
      omega
    | some data =>
      rw [hd, Option.getD_some] at hlen
      have htext : s.text = data.take s.lenstring.len := by simp [MQTTString.text, hc, hd]
      have htl : s.text.length = s.lenstring.len := by simp [htext, hlen]
      simp only [writeInt_eq, memcpy_eq hlen, Option.bind_eq_bind, Option.bind_some, stringBytes,
        htl]
      rw [← htext]
      exact Cursor.put_append ptr _ _
  · cases hs : s.cstring with
    | some c =>
      have htext : s.text = c.bytes := by simp [MQTTString.text, hs]
      simp only [writeCString_eq, htext]
    | none =>
      have htext : s.text = [] := by
        simp only [MQTTString.text, hs]
        rw [show s.lenstring.len = 0 by omega, List.take_zero]
      simp [writeInt_eq, htext, stringBytes]

/-- The `do … while` of `MQTTPacket_encode`; an `int` has at most five
base-128 digits. -/
def encodeLoop : ℕ → ℕ → Ptr → Option Ptr
  | 0, _, ptr => some ptr
  | rounds + 1, length, ptr => do
    let d := UInt8.ofNat (length % 128)
    let length := length / 128
    -- if there are more digits to encode, set the top bit of this digit
    let d := if 0 < length then d ||| 128 else d
    let ptr ← writeChar d ptr
    if 0 < length then encodeLoop rounds length ptr else some ptr

def mqttPacketEncode (length : ℕ) (ptr : Ptr) : Option Ptr := encodeLoop 5 length ptr

theorem encodeLoop_eq : ∀ (rounds n : ℕ) (ptr : Ptr), n < 128 ^ (rounds + 1) →
    encodeLoop (rounds + 1) n ptr = ptr.put (Leb128.encode n)
  | rounds, n, ptr, hn => by
    by_cases hs : n < 128
    · have hd : n / 128 = 0 := Nat.div_eq_of_lt hs
      simp [encodeLoop, writeChar, Leb128.encode_small hs, hd, Nat.mod_eq_of_lt hs]
    · have hd : 0 < n / 128 := Nat.div_pos (by omega) (by norm_num)
      cases rounds with
      | zero => simp at hn; omega
      | succ rounds =>
        have hlt : n / 128 < 128 ^ (rounds + 1) := by
          rw [Nat.div_lt_iff_lt_mul (by norm_num), ← pow_succ]
          exact hn
        have hor : UInt8.ofNat (n % 128) ||| 128 = UInt8.ofNat (n % 128 + 128) :=
          Leb128.ofNat_or_128 (Nat.mod_lt _ (by norm_num))
        rw [encodeLoop]
        simp only [hd, if_true, hor, writeChar, Option.bind_eq_bind,
          encodeLoop_eq rounds (n / 128) _ hlt, Leb128.encode_large (show 128 ≤ n by omega)]
        exact Cursor.put_append ptr _ _

theorem mqttPacketEncode_eq {n : ℕ} (h : n < 2 ^ 31) (ptr : Ptr) :
    mqttPacketEncode n ptr = ptr.put (Leb128.encode n) :=
  encodeLoop_eq 4 n ptr (h.trans (by norm_num))

/-- `MQTTPacket_len`: the fixed header and `rem_len` together. -/
def mqttPacketLen (remLen : ℕ) : ℕ :=
  let remLen := remLen + 1 -- header byte
  -- now remaining_length field
  if remLen < 128 then remLen + 1
  else if remLen < 16384 then remLen + 2
  else if remLen < 2097151 then remLen + 3
  else remLen + 4

/-- The largest remaining length of four bytes. -/
def maxRemainingLength : ℕ := 268435455

theorem le_mqttPacketLen {n : ℕ} (h : n ≤ maxRemainingLength) :
    1 + (Leb128.encode n).length + n ≤ mqttPacketLen n := by
  unfold maxRemainingLength at h
  have h1 : n < 128 → (Leb128.encode n).length ≤ 1 := fun h => Leb128.encode_length_le (by simpa)
  have h2 : n < 16384 → (Leb128.encode n).length ≤ 2 := fun h =>
    Leb128.encode_length_le (by norm_num; exact h)
  have h3 : n < 2097152 → (Leb128.encode n).length ≤ 3 := fun h =>
    Leb128.encode_length_le (by norm_num; exact h)
  have h4 : (Leb128.encode n).length ≤ 4 := Leb128.encode_length_le (by norm_num; omega)
  simp only [mqttPacketLen]
  split_ifs <;> omega

end MqttEmbedded
