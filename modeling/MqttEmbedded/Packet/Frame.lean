import MqttEmbedded.Packet.Primitives

/-!
# Frames

What the wire format is for, independent of any code: a packet is a header
byte, the length of a body in the shortest length field, and the body. A frame
carries the bound that makes the length field at most four bytes.
-/

namespace MqttEmbedded

open Region

def frameBytes (header : UInt8) (body : List UInt8) : List UInt8 :=
  header :: (Leb128.encode body.length ++ body)

theorem lt_of_le_maxRemainingLength {remLen : ℕ} (h : remLen ≤ maxRemainingLength) :
    remLen < 2 ^ 31 := by
  unfold maxRemainingLength at h
  omega

structure Frame where
  header : UInt8
  body : List UInt8
  bounded : body.length ≤ maxRemainingLength

namespace Frame

def bytes (f : Frame) : List UInt8 := frameBytes f.header f.body

def type (f : Frame) : ℕ := MQTTHeader.type f.header

def size (f : Frame) : ℕ := f.bytes.length

theorem size_eq (f : Frame) :
    f.size = 1 + (Leb128.encode f.body.length).length + f.body.length := by
  simp [size, bytes, frameBytes]
  omega

theorem field_length_le (f : Frame) : (Leb128.encode f.body.length).length ≤ 4 := by
  apply Leb128.encode_length_le
  have := f.bounded
  unfold maxRemainingLength at this
  norm_num
  omega

end Frame

/-- A packet as it comes over the wire, where its length field need not be the
shortest one; a reader puts the shortest one into the buffer. -/
structure WireFrame where
  header : UInt8
  field : List UInt8
  body : List UInt8
  isField : Leb128.Field field body.length
  length_field : field.length ≤ 4

namespace WireFrame

variable (w : WireFrame)

def bytes : List UInt8 := w.header :: (w.field ++ w.body)

def stored : List UInt8 := frameBytes w.header w.body

def type : ℕ := MQTTHeader.type w.header

theorem length_body_lt : w.body.length < 128 ^ 4 :=
  w.isField.value_lt.trans_le (Nat.pow_le_pow_right (by norm_num) w.length_field)

theorem length_stored :
    w.stored.length = 1 + (Leb128.encode w.body.length).length + w.body.length := by
  simp [stored, frameBytes]
  omega

end WireFrame

/-- The frame of what a serialiser has written. -/
def frameOf (header : UInt8) (body : List UInt8) (h : body.length ≤ maxRemainingLength) :
    WireFrame where
  header := header
  field := Leb128.encode body.length
  body := body
  isField := Leb128.encode_field _
  length_field := (Frame.mk header body h).field_length_le

/-- The outcome of writing `bytes` from the start of `buf`: their number, and
the buffer with them in front. -/
def serialized (buf bytes : List UInt8) : Option (ℤ × List UInt8) :=
  ((Cursor.start buf).put bytes).map fun ptr => ((ptr.position : ℤ), ptr.cells)

theorem serialized_eq_some_iff {buf bytes buf' : List UInt8} {rc : ℤ} :
    serialized buf bytes = some (rc, buf') ↔
      bytes.length ≤ buf.length ∧ rc = bytes.length ∧ buf' = overwrite buf 0 bytes := by
  unfold serialized
  by_cases h : bytes.length ≤ buf.length
  · rw [Cursor.put_start h]
    simp only [Option.map_some, Option.some.injEq, Prod.mk.injEq, h, true_and]
    constructor
    · rintro ⟨hrc, hbuf⟩
      exact ⟨hrc.symm, hbuf.symm⟩
    · rintro ⟨hrc, hbuf⟩
      exact ⟨hrc.symm, hbuf.symm⟩
  · have hnone : (Cursor.start buf).put bytes = none := by
      rw [← Option.not_isSome_iff_eq_none, Cursor.put_isSome_iff]
      simpa [Cursor.start] using h
    simp [hnone, h]

/-- The packet a successful serialiser call leaves: the `rc` bytes in front of
the buffer. -/
def written (result : ℤ × List UInt8) : List UInt8 := result.2.take result.1.toNat

theorem written_eq {buf bytes : List UInt8} {result : ℤ × List UInt8}
    (h : serialized buf bytes = some result) : written result = bytes := by
  obtain ⟨rc, buf'⟩ := result
  obtain ⟨-, rfl, rfl⟩ := serialized_eq_some_iff.mp h
  simp [written, take_overwrite_zero]

end MqttEmbedded
