import MqttEmbedded.Lib.Hoare
import MqttEmbedded.Lib.Region

/-!
# Packet types, header bits and strings

The data of `MQTTPacket.h` and `MQTTConnect.h`. A C string is kept with the
proof that it has no inner terminator; a length-delimited string keeps its
length apart from the bytes its pointer leads to, as the source does, so that
the two can disagree.
-/

namespace MqttEmbedded

/-- Why a run has no result: it did something the language leaves undefined,
or the model was told to follow a loop for a bounded number of rounds only. -/
inductive Fault where
  | undefined
  | outOfFuel
  deriving DecidableEq, Repr

abbrev Prog (σ α : Type) := EStateM Fault σ α

/-- Undefined behaviour in a computation that has no state of its own. -/
def ofOption {σ α : Type} : Option α → Prog σ α
  | some a => pure a
  | none => throw .undefined

@[simp] theorem ofOption_some {σ α : Type} (a : α) : (ofOption (some a) : Prog σ α) = pure a := rfl

@[simp] theorem ofOption_none {σ α : Type} :
    (ofOption none : Prog σ α) = throw .undefined := rfl

/-- `enum msgTypes`. -/
inductive MsgType where
  | connect | connack | publish | puback | pubrec | pubrel | pubcomp
  | subscribe | suback | unsubscribe | unsuback | pingreq | pingresp | disconnect
  deriving DecidableEq, Repr

namespace MsgType

def code : MsgType → ℕ
  | connect => 1
  | connack => 2
  | publish => 3
  | puback => 4
  | pubrec => 5
  | pubrel => 6
  | pubcomp => 7
  | subscribe => 8
  | suback => 9
  | unsubscribe => 10
  | unsuback => 11
  | pingreq => 12
  | pingresp => 13
  | disconnect => 14

def ofCode : ℤ → Option MsgType
  | 1 => some connect
  | 2 => some connack
  | 3 => some publish
  | 4 => some puback
  | 5 => some pubrec
  | 6 => some pubrel
  | 7 => some pubcomp
  | 8 => some subscribe
  | 9 => some suback
  | 10 => some unsubscribe
  | 11 => some unsuback
  | 12 => some pingreq
  | 13 => some pingresp
  | 14 => some disconnect
  | _ => none

@[simp] theorem ofCode_code (t : MsgType) : ofCode (t.code : ℤ) = some t := by
  cases t <;> rfl

theorem code_injective {t u : MsgType} (h : t.code = u.code) : t = u := by
  have hcode := ofCode_code t
  rw [h, ofCode_code] at hcode
  exact (Option.some.inj hcode).symm

theorem code_of_ofCode {code : ℤ} {t : MsgType} (h : ofCode code = some t) : code = t.code := by
  unfold ofCode at h
  split at h <;> cases h <;> rfl

theorem ofCode_neg {code : ℤ} (h : code < 0) : ofCode code = none := by
  cases code with
  | ofNat n => exact absurd h (Int.natCast_nonneg n).not_gt
  | negSucc n => rfl

theorem code_lt (t : MsgType) : t.code < 16 := by
  cases t <;> decide

theorem code_pos (t : MsgType) : 0 < t.code := by
  cases t <;> decide

end MsgType

/-- `MQTTPACKET_READ_ERROR` and `MQTTPACKET_BUFFER_TOO_SHORT`. -/
def mqttpacketReadError : ℤ := -1
def mqttpacketBufferTooShort : ℤ := -2

namespace MQTTHeader

/-- `MQTTHeader` is a union of the byte and its bit fields; on the targets without `REVERSED`
the first field takes the low bits. Assigning a field keeps the low bits of the value only. -/
def ofBits (type dup qos retain : ℕ) : UInt8 :=
  UInt8.ofNat (type % 16 * 16 + dup % 2 * 8 + qos % 4 * 2 + retain % 2)

def type (byte : UInt8) : ℕ := byte.toNat / 16
def dup (byte : UInt8) : ℕ := byte.toNat / 8 % 2
def qos (byte : UInt8) : ℕ := byte.toNat / 2 % 4
def retain (byte : UInt8) : ℕ := byte.toNat % 2

variable (t d q r : ℕ)

theorem toNat_ofBits :
    (ofBits t d q r).toNat = t % 16 * 16 + d % 2 * 8 + q % 4 * 2 + r % 2 := by
  rw [ofBits, UInt8.toNat_ofNat']
  omega

@[simp] theorem type_ofBits : type (ofBits t d q r) = t % 16 := by
  rw [type, toNat_ofBits]
  omega

@[simp] theorem dup_ofBits : dup (ofBits t d q r) = d % 2 := by
  rw [dup, toNat_ofBits]
  omega

@[simp] theorem qos_ofBits : qos (ofBits t d q r) = q % 4 := by
  rw [qos, toNat_ofBits]
  omega

@[simp] theorem retain_ofBits : retain (ofBits t d q r) = r % 2 := by
  rw [retain, toNat_ofBits]
  omega

theorem type_ofBits_code (type : MsgType) (d q r : ℕ) :
    MQTTHeader.type (ofBits type.code d q r) = type.code := by
  rw [type_ofBits, Nat.mod_eq_of_lt type.code_lt]

end MQTTHeader

/-- The characters of a C string before its terminator. -/
@[ext] structure CString where
  bytes : List UInt8
  unterminated : 0 ∉ bytes
  deriving DecidableEq

theorem unterminated_a : (0 : UInt8) ∉ [97] := by decide

def strlen (s : CString) : ℕ := s.bytes.length

/-- `data` is what can be read from the pointer on, `none` the null pointer. -/
structure MQTTLenString where
  len : ℕ
  data : Option (List UInt8)
  deriving DecidableEq

structure MQTTString where
  cstring : Option CString
  lenstring : MQTTLenString
  deriving DecidableEq

/-- `MQTTString_initializer`. -/
def mqttStringInitializer : MQTTString := ⟨none, ⟨0, none⟩⟩

def MQTTString.ofCString (s : CString) : MQTTString := ⟨some s, ⟨0, none⟩⟩

def mqttStrlen (s : MQTTString) : ℕ :=
  match s.cstring with
  | some c => strlen c
  | none => s.lenstring.len

namespace MQTTString

/-- The string is given once: as a C string, as that many bytes behind the
data pointer, or not at all. -/
def OneForm (s : MQTTString) : Prop :=
  (s.cstring.isSome → s.lenstring.len = 0) ∧
    s.lenstring.len ≤ (s.lenstring.data.getD []).length

instance (s : MQTTString) : Decidable s.OneForm :=
  inferInstanceAs (Decidable (_ ∧ _))

/-- The bytes of a string given once. -/
def text (s : MQTTString) : List UInt8 :=
  match s.cstring with
  | some c => c.bytes
  | none => (s.lenstring.data.getD []).take s.lenstring.len

theorem OneForm.length_text {s : MQTTString} (h : s.OneForm) : s.text.length = mqttStrlen s := by
  obtain ⟨-, hlen⟩ := h
  unfold text mqttStrlen
  cases s.cstring with
  | some c => rfl
  | none => simpa using hlen

end MQTTString
end MqttEmbedded
