import MqttEmbedded.Lib.Entries
import MqttEmbedded.Packet.Deserialize

/-!
# The grammar of strings and length fields

A string on the wire is two bytes of length and as many bytes of text. What
`readMQTTLenString` makes of the bytes before `enddata` is what the grammar makes of
them, and a length field that the decoder has read with four bytes at most is one.
-/

namespace MqttEmbedded

open Region Hoare Entries

/-- A text whose length can be written in two bytes. -/
structure Text where
  bytes : List UInt8
  short : bytes.length < 65536
  deriving DecidableEq

/-- The text that the bytes begin with, if it is complete. -/
def nextText : List UInt8 → Option (Text × List UInt8)
  | high :: low :: rest =>
    if 256 * high.toNat + low.toNat ≤ rest.length then
      some (⟨rest.take (256 * high.toNat + low.toNat), by
        have hhigh := high.toNat_lt
        have hlow := low.toNat_lt
        rw [List.length_take]
        omega⟩, rest.drop (256 * high.toNat + low.toNat))
    else none
  | _ => none

theorem intBytes_toNat (high low : UInt8) :
    intBytes (256 * high.toNat + low.toNat) = [high, low] := by
  have hhigh := high.toNat_lt
  have hlow := low.toNat_lt
  have hdiv : (256 * high.toNat + low.toNat) / 256 = high.toNat := by omega
  have hmod : (256 * high.toNat + low.toNat) % 256 = low.toNat := by omega
  rw [intBytes, hdiv, hmod, UInt8.ofNat_toNat, UInt8.ofNat_toNat]

theorem exists_of_intBytes (n : ℕ) (hn : n < 65536) :
    ∃ high low : UInt8, intBytes n = [high, low] ∧ 256 * high.toNat + low.toNat = n := by
  refine ⟨_, _, rfl, ?_⟩
  simp only [UInt8.toNat_ofNat']
  omega

theorem exists_id {bytes : List UInt8} (h : 2 ≤ bytes.length) :
    ∃ id : UInt16, bytes = intBytes id.toNat ++ bytes.drop 2 := by
  match bytes, h with
  | high :: low :: rest, _ =>
    have hhigh := high.toNat_lt
    have hlow := low.toNat_lt
    have hvalue : (UInt16.ofNat (256 * high.toNat + low.toNat)).toNat =
        256 * high.toNat + low.toNat := by
      rw [UInt16.toNat_ofNat', Nat.mod_eq_of_lt (by omega)]
    refine ⟨UInt16.ofNat (256 * high.toNat + low.toNat), ?_⟩
    rw [hvalue, intBytes_toNat]
    rfl

theorem id_unique {id id' : UInt16} {xs ys : List UInt8}
    (h : intBytes id.toNat ++ xs = intBytes id'.toNat ++ ys) : id = id' ∧ xs = ys := by
  obtain ⟨hid, hrest⟩ := List.append_inj h rfl
  have hlt := id.toNat_lt
  have hlt' := id'.toNat_lt
  have hread : readInt (intBytes id.toNat ++ xs) 0 = some id.toNat := readInt_eq hlt rfl
  have hread' : readInt (intBytes id.toNat ++ xs) 0 = some id'.toNat := readInt_eq hlt' h
  rw [hread] at hread'
  exact ⟨UInt16.toNat_inj.mp (Option.some.inj hread'), hrest⟩

theorem nextText_eq_some (xs : List UInt8) (t : Text) (rest : List UInt8) :
    nextText xs = some (t, rest) ↔ xs = stringBytes t.bytes ++ rest := by
  constructor
  · intro h
    match xs, h with
    | high :: low :: xs, h =>
      rw [nextText] at h
      split_ifs at h with hlen
      obtain ⟨rfl, rfl⟩ := Prod.mk.inj (Option.some.inj h)
      simp only [stringBytes, List.length_take, Nat.min_eq_left hlen, intBytes_toNat]
      simp
  · rintro rfl
    obtain ⟨high, low, hbytes, hvalue⟩ := exists_of_intBytes t.bytes.length t.short
    obtain ⟨bytes, hshort⟩ := t
    simp only at hbytes hvalue
    simp [stringBytes, hbytes, nextText, hvalue]

/-- Texts, one after the other. -/
def textFormat : Format UInt8 Text where
  write := fun t => stringBytes t.bytes
  next := nextText
  next_eq_some := nextText_eq_some
  write_ne_nil := fun t h => absurd (congrArg List.length h) (by simp)

/-- The text as a deserialiser leaves it, with what comes after it in the buffer. -/
def Text.slice (t : Text) (after : List UInt8) : MQTTString :=
  ⟨none, ⟨t.bytes.length, some (t.bytes ++ after)⟩⟩

theorem Text.text_slice (t : Text) (after : List UInt8) : (t.slice after).text = t.bytes := by
  simp [slice, MQTTString.text]

theorem Text.oneForm_slice (t : Text) (after : List UInt8) : (t.slice after).OneForm := by
  constructor
  · exact fun h => nomatch h
  · simp [slice]

/-- A string that can be written with its length. -/
def Sendable (string : MQTTString) : Prop := string.OneForm ∧ mqttStrlen string < 65536

instance (string : MQTTString) : Decidable (Sendable string) := inferInstanceAs (Decidable (_ ∧ _))

theorem exists_text {string : MQTTString} (h : Sendable string) :
    ∃ t : Text, t.bytes = string.text := by
  obtain ⟨hone, hshort⟩ := h
  rw [← hone.length_text] at hshort
  exact ⟨⟨string.text, hshort⟩, rfl⟩

/-- The value of a `char` that is signed. -/
def signedChar (c : UInt8) : ℤ := if c.toNat < 128 then c.toNat else c.toNat - 256

theorem readChar_eq {buf rest : List UInt8} {curdata : ℕ} {c : UInt8}
    (h : buf.drop curdata = c :: rest) : readChar buf curdata = some (signedChar c) := by
  rw [readChar, getElem?_of_drop h]
  rfl

theorem signedChar_ofInt {value : ℤ} (hle : -128 ≤ value) (hlt : value < 128) :
    signedChar (UInt8.ofInt value) = value := by
  have hvalue : ((UInt8.ofInt value).toNat : ℤ) = value % 256 := by
    simp [UInt8.ofInt, UInt8.toNat_ofNat']
    omega
  unfold signedChar
  split_ifs <;> omega

theorem signedChar_eq_natCast {c : UInt8} {n : ℕ} (h : n < 128) :
    signedChar c = n ↔ c = UInt8.ofNat n := by
  have hlt := c.toNat_lt
  rw [← UInt8.toNat_inj, UInt8.toNat_ofNat', signedChar]
  split_ifs <;> omega

section

variable {buf xs tail : List UInt8} {curdata enddata : ℕ}

theorem readInt_bytes {high low : UInt8} (h : buf.drop curdata = high :: low :: tail) :
    readInt buf curdata = some (256 * high.toNat + low.toNat) := by
  have hlt : 256 * high.toNat + low.toNat < 65536 := by
    have hhigh := high.toNat_lt
    have hlow := low.toNat_lt
    omega
  have hbytes : buf.drop curdata = intBytes (256 * high.toNat + low.toNat) ++ tail := by
    rw [h, intBytes_toNat]
    rfl
  exact readInt_eq hlt hbytes

theorem drop_of_nextText {t : Text} {rest : List UInt8} (h : buf.drop curdata = xs ++ tail)
    (hnext : nextText xs = some (t, rest)) :
    buf.drop (curdata + 2 + t.bytes.length) = rest ++ tail := by
  rw [(nextText_eq_some xs t rest).mp hnext, List.append_assoc] at h
  have hdrop := drop_of_drop h
  rwa [length_stringBytes, ← Nat.add_assoc] at hdrop

theorem length_of_nextText {t : Text} {rest : List UInt8} (hnext : nextText xs = some (t, rest)) :
    xs.length = 2 + t.bytes.length + rest.length := by
  rw [(nextText_eq_some xs t rest).mp hnext, List.length_append, length_stringBytes]

/-- The length that bytes begin with which may hold no text of that length. -/
def statedLength : List UInt8 → Option ℕ
  | high :: low :: _ => some (256 * high.toNat + low.toNat)
  | _ => none

/-- The text that `xs` begins with, as it is read at `curdata` in a buffer where `tail` comes
after `xs`. -/
def textRead (xs tail : List UInt8) (curdata : ℕ) : StringRead :=
  match nextText xs with
  | some (t, rest) => .read (t.slice (rest ++ tail)) (curdata + 2 + t.bytes.length)
  | none => .refused (statedLength xs)

theorem textRead_of_some {t : Text} {rest : List UInt8} (hnext : nextText xs = some (t, rest)) :
    textRead xs tail curdata = .read (t.slice (rest ++ tail)) (curdata + 2 + t.bytes.length) := by
  rw [textRead, hnext]

theorem textRead_of_none (hnext : nextText xs = none) :
    textRead xs tail curdata = .refused (statedLength xs) := by
  rw [textRead, hnext]

/-- `readMQTTLenString` reads the text that the bytes before `enddata` begin with. -/
theorem readMQTTLenString_next (h : buf.drop curdata = xs ++ tail)
    (hend : enddata = curdata + xs.length) :
    readMQTTLenString buf curdata enddata = some (textRead xs tail curdata) := by
  match xs, h, hend with
  | [], h, hend => simp [readMQTTLenString, textRead, nextText, statedLength, hend]
  | [_], h, hend => simp [readMQTTLenString, textRead, nextText, statedLength, hend]
  | high :: low :: xs, h, hend =>
    have hlt : curdata + 1 < enddata := by
      simp only [List.length_cons] at hend
      omega
    have hrest : buf.drop (curdata + 2) = xs ++ tail :=
      drop_of_drop (show _ = [high, low] ++ (xs ++ tail) from h)
    rw [readMQTTLenString, if_pos hlt, readInt_bytes h, textRead, nextText]
    simp only [Option.bind_eq_bind, Option.bind_some, hrest]
    by_cases hlen : 256 * high.toNat + low.toNat ≤ xs.length
    · have hle : curdata + 2 + (256 * high.toNat + low.toNat) ≤ enddata := by
        simp only [List.length_cons] at hend
        omega
      rw [if_pos hlen, if_pos hle]
      simp [Text.slice, Nat.min_eq_left hlen, ← List.append_assoc]
    · have hgt : ¬ curdata + 2 + (256 * high.toNat + low.toNat) ≤ enddata := by
        simp only [List.length_cons] at hend
        omega
      rw [if_neg hlen, if_neg hgt]
      rfl

end

/-- The decoder has read a field, or has used up the bytes that it may read. -/
theorem decodeLoop_bufchar (buf : List UInt8) : ∀ (room len value multiplier curdata : ℕ),
    wp (decodeLoop (bufchar buf) room len value multiplier)
      (fun decoded _ => decoded.1 = len + room + 1 ∨ ∃ field rest n,
        buf.drop curdata = field ++ rest ∧ Leb128.Field field n ∧ field.length ≤ room ∧
        decoded = (len + field.length, value + n * multiplier))
      (fun _ _ => True) curdata
  | 0, len, _, _, _ => .inl rfl
  | room + 1, len, value, multiplier, curdata => by
    rw [decodeLoop, wp_bind]
    cases hb : buf[curdata]? with
    | none =>
      have herror : bufchar buf curdata = .error .undefined curdata := by simp only [bufchar, hb]
      exact (wp_error herror).mpr trivial
    | some b =>
      have hok : bufchar buf curdata = .ok (.arrived [b] le_rfl) (curdata + 1) := by
        simp only [bufchar, hb]
      have hdrop : buf.drop curdata = b :: buf.drop (curdata + 1) := by
        obtain ⟨hlt, hget⟩ := List.getElem?_eq_some_iff.mp hb
        rw [List.drop_eq_getElem_cons hlt, hget]
      have hone : (Delivery.arrived [b] le_rfl : Delivery 1).rc = 1 := rfl
      have hdata : (Delivery.arrived [b] le_rfl : Delivery 1).data.headD 0 = b := rfl
      rw [wp_ok hok, hone, hdata, wp_ite, wp_ite, wp_pure, wp_pure]
      refine ⟨fun h => absurd rfl h, fun _ => ⟨fun hflag => ?_, fun hflag => .inr ?_⟩⟩
      · have hge := (Leb128.and_128_ne_zero_iff b).mp hflag
        apply wp_imp (decodeLoop_bufchar buf room (len + 1) _ (multiplier * 128) (curdata + 1))
        rintro decoded _ (hlong | ⟨field, rest, n, hrest, hfield, hroom, rfl⟩)
        · exact .inl (by omega)
        · refine .inr ⟨b :: field, rest, _, ?_, .more hge hfield, ?_, ?_⟩
          · rw [hdrop, hrest, List.cons_append]
          · simp only [List.length_cons]
            omega
          · rw [Leb128.toNat_and_127, Prod.mk.injEq, List.length_cons]
            exact ⟨by omega, by ring⟩
      · have hlt : b.toNat < 128 :=
          not_le.mp fun hge => hflag ((Leb128.and_128_ne_zero_iff b).mpr hge)
        refine ⟨[b], buf.drop (curdata + 1), _, hdrop, .last hlt, ?_, ?_⟩
        · simp
        · rw [Leb128.toNat_and_127, Nat.mod_eq_of_lt hlt]
          rfl

theorem decodeBuf_field {buf : List UInt8} {curdata k n : ℕ}
    (h : mqttPacketDecodeBuf buf curdata = some (k, n)) (hk : k ≤ 4) :
    ∃ field rest, buf.drop curdata = field ++ rest ∧ Leb128.Field field n ∧ field.length = k := by
  have hloop := decodeLoop_bufchar buf 4 0 0 1 curdata
  unfold mqttPacketDecodeBuf at h
  cases hrun : mqttPacketDecode (bufchar buf) curdata with
  | error e t =>
    rw [hrun] at h
    exact nomatch h
  | ok decoded t =>
    rw [hrun] at h
    obtain rfl := Option.some.inj h
    rcases wp_result hloop hrun with hlong | ⟨field, rest, m, hdrop, hfield, -, hdecoded⟩
    · exact absurd hlong (by dsimp only; omega)
    · obtain ⟨hlen, hvalue⟩ := Prod.mk.inj hdecoded
      rw [Nat.zero_add, Nat.mul_one] at hvalue
      rw [Nat.zero_add] at hlen
      exact ⟨field, rest, hdrop, hvalue ▸ hfield, hlen.symm⟩

theorem WireFrame.decodeBuf (w : WireFrame) (tail : List UInt8) :
    mqttPacketDecodeBuf (w.bytes ++ tail) 1 = some (w.field.length, w.body.length) := by
  have hdrop : (w.bytes ++ tail).drop 1 = w.field ++ (w.body ++ tail) := by simp [bytes]
  exact mqttPacketDecodeBuf_eq w.isField w.length_field hdrop

theorem WireFrame.drop_body (w : WireFrame) (tail : List UInt8) :
    (w.bytes ++ tail).drop (1 + w.field.length) = w.body ++ tail := by
  have hdrop : (w.bytes ++ tail).drop 1 = w.field ++ (w.body ++ tail) := by simp [bytes]
  exact drop_of_drop hdrop

/-- The bytes after the length field, as far as the packet and after it. -/
theorem exists_frame {buf : List UInt8} {header : UInt8} {k mylen : ℕ}
    (hhead : buf[0]? = some header)
    (hdecode : mqttPacketDecodeBuf buf 1 = some (k, mylen)) (hk : k ≤ 4)
    (hlen : 1 + k + mylen ≤ buf.length) :
    ∃ (frame : WireFrame) (tail : List UInt8), buf = frame.bytes ++ tail ∧
      frame.header = header ∧ frame.field.length = k ∧ frame.body.length = mylen := by
  obtain ⟨field, rest, hdrop, hfield, rfl⟩ := decodeBuf_field hdecode hk
  obtain ⟨hlt, hget⟩ := List.getElem?_eq_some_iff.mp hhead
  have hbuf : buf = header :: (field ++ rest) := by
    rw [← hdrop, ← hget, ← List.drop_eq_getElem_cons hlt, List.drop_zero]
  have hroom : mylen ≤ rest.length := by
    rw [hbuf, List.length_cons, List.length_append] at hlen
    omega
  have hbody : (rest.take mylen).length = mylen := by
    rw [List.length_take, Nat.min_eq_left hroom]
  refine ⟨⟨header, field, rest.take mylen, hbody.symm ▸ hfield, hk⟩, rest.drop mylen, ?_, rfl, rfl,
    hbody⟩
  rw [WireFrame.bytes, List.cons_append, List.append_assoc, List.take_append_drop]
  exact hbuf

theorem WireFrame.length_bytes (w : WireFrame) :
    w.bytes.length = 1 + w.field.length + w.body.length := by
  simp [bytes]
  omega

theorem WireFrame.head_bytes (w : WireFrame) (tail : List UInt8) :
    (w.bytes ++ tail)[0]? = some w.header := rfl

end MqttEmbedded
