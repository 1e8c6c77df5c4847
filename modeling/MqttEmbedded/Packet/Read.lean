import MqttEmbedded.Packet.Decode

/-!
# The blocking packet reader

`MQTTPacket_read` over any transport function. The reader's memory is the
receive buffer, and a store or a request that would reach past its end is a
fault of the model, so a run without faults stays inside the buffer.
-/

namespace MqttEmbedded

open Region Hoare

/-- A transport function: asked for `count` bytes, it answers and moves on. -/
abbrev Getfn (σ : Type) := (count : ℕ) → σ → Delivery count × σ

/-- The receive buffer, with the state of whatever the transport reads from. -/
@[ext] structure Reader (σ : Type) where
  buf : List UInt8
  source : σ

variable {σ : Type} (getfn : Getfn σ)

/-- `(*getfn)(buf + position, count)`. -/
def getInto (position count : ℕ) : Prog (Reader σ) ℤ := fun r =>
  if position + count ≤ r.buf.length then
    let answer := getfn count r.source
    .ok answer.1.rc ⟨overwrite r.buf position answer.1.data, answer.2⟩
  else .error .undefined r

/-- `(*getfn)(&c, 1)`, into a local of the caller. -/
def getChar : Prog (Reader σ) (Delivery 1) := fun r =>
  let answer := getfn 1 r.source
  .ok answer.1 ⟨r.buf, answer.2⟩

/-- `MQTTPacket_encode(buf + position, length)`, with the number of bytes written. -/
def encodeAt (buf : List UInt8) (position length : ℕ) : Option (ℕ × List UInt8) :=
  if h : position ≤ buf.length then
    (mqttPacketEncode length ⟨buf, position, h⟩).map fun ptr => (ptr.position - position, ptr.cells)
  else none

def encodeInto (position length : ℕ) : Prog (Reader σ) ℕ := fun r =>
  match encodeAt r.buf position length with
  | some (n, buf) => .ok n ⟨buf, r.source⟩
  | none => .error .undefined r

/-- `rem_len && ((*getfn)(buf + len, rem_len) != rem_len)`, negated. -/
def getBody (len remLen : ℕ) : Prog (Reader σ) Bool := do
  if remLen = 0 then pure true
  else
    let rc ← getInto getfn len remLen
    pure (rc = remLen)

def mqttPacketRead : Prog (Reader σ) ℤ := do
  -- 1. read the header byte. This has the packet type in it
  let rc ← getInto getfn 0 1
  if rc ≠ 1 then pure (-1)
  else
    -- 2. read the remaining length. This is variable in itself
    let decoded ← mqttPacketDecode (getChar getfn)
    let remLen := decoded.2
    -- put the original remaining length back into the buffer
    let n ← encodeInto 1 remLen
    let len := 1 + n
    let r ← get
    if r.buf.length < remLen + len then pure (-1)
    else
      -- 3. read the rest of the buffer
      let complete ← getBody getfn len remLen
      let r ← get
      if complete then pure (MQTTHeader.type (r.buf.headD 0)) else pure (-1)

theorem encodeAt_eq {buf : List UInt8} {position n : ℕ} (hn : n < 2 ^ 31)
    (h : position + (Leb128.encode n).length ≤ buf.length) :
    encodeAt buf position n =
      some ((Leb128.encode n).length, overwrite buf position (Leb128.encode n)) := by
  have hp : position ≤ buf.length := by omega
  have hput : (⟨buf, position, hp⟩ : Ptr).put (Leb128.encode n) = some ⟨overwrite buf position
      (Leb128.encode n), position + (Leb128.encode n).length, by
        rwa [length_overwrite h]⟩ := by
    rw [Cursor.put_eq_some_iff]
    exact ⟨h, rfl, rfl⟩
  unfold encodeAt
  rw [dif_pos hp, mqttPacketEncode_eq hn, hput]
  simp

theorem encodeAt_eq_none {buf : List UInt8} {position n : ℕ} (hn : n < 2 ^ 31)
    (h : ¬ position + (Leb128.encode n).length ≤ buf.length) : encodeAt buf position n = none := by
  unfold encodeAt
  split_ifs with hp
  · rw [mqttPacketEncode_eq hn, Option.map_eq_none_iff, ← Option.not_isSome_iff_eq_none,
      Cursor.put_isSome_iff]
    exact h
  · rfl

theorem wp_getInto {position count : ℕ} {Q : ℤ → Reader σ → Prop} {E : Fault → Reader σ → Prop}
    {r : Reader σ} (h : position + count ≤ r.buf.length)
    (hQ : ∀ (d : Delivery count) (source : σ), Q d.rc ⟨overwrite r.buf position d.data, source⟩) :
    wp (getInto getfn position count) Q E r := by
  have hok : getInto getfn position count r = .ok (getfn count r.source).1.rc
      ⟨overwrite r.buf position (getfn count r.source).1.data, (getfn count r.source).2⟩ := by
    simp only [getInto, if_pos h]
  rw [wp_ok hok]
  exact hQ _ _

theorem wp_encodeInto {position n : ℕ} {Q : ℕ → Reader σ → Prop} {E : Fault → Reader σ → Prop}
    {r : Reader σ} (hn : n < 2 ^ 31) (h : position + (Leb128.encode n).length ≤ r.buf.length)
    (hQ : Q (Leb128.encode n).length ⟨overwrite r.buf position (Leb128.encode n), r.source⟩) :
    wp (encodeInto position n) Q E r := by
  have hok : encodeInto position n r = .ok (Leb128.encode n).length
      ⟨overwrite r.buf position (Leb128.encode n), r.source⟩ := by
    simp only [encodeInto, encodeAt_eq hn h]
  rw [wp_ok hok]
  exact hQ

/-- From a buffer of at least five bytes, nothing outside it is stored to or
asked for, whatever the transport answers. -/
theorem mqttPacketRead_inBounds {r : Reader σ} (h : 5 ≤ r.buf.length) :
    wp (mqttPacketRead getfn) (fun _ t => t.buf.length = r.buf.length) (fun _ _ => False) r := by
  unfold mqttPacketRead
  rw [wp_bind]
  apply wp_getInto getfn (by omega)
  intro d source
  have hd : (overwrite r.buf 0 d.data).length = r.buf.length :=
    length_overwrite (by have := d.fits; omega)
  simp only [wp_ite, wp_pure, wp_bind]
  refine ⟨fun _ => hd, fun _ => ?_⟩
  have hchar : ∀ t : Reader σ, t.buf.length = r.buf.length →
      wp (getChar getfn) (fun _ t => t.buf.length = r.buf.length)
        (fun _ _ => False) t := fun t ht => ht
  apply wp_imp (mqttPacketDecode_bound hchar hd)
  rintro ⟨len, remLen⟩ t ⟨hrem, ht⟩
  have hfield : (Leb128.encode remLen).length ≤ 4 := by
    apply Leb128.encode_length_le
    unfold maxRemainingLength at hrem
    norm_num
    omega
  have hsmall : remLen < 2 ^ 31 := hrem.trans_lt (by unfold maxRemainingLength; norm_num)
  apply wp_encodeInto hsmall (by omega)
  have hu : (overwrite t.buf 1 (Leb128.encode remLen)).length = r.buf.length :=
    (length_overwrite (by omega)).trans ht
  simp only [wp_get]
  refine ⟨fun _ => hu, fun hroom => ?_⟩
  unfold getBody
  simp only [wp_ite, wp_pure, wp_bind]
  refine ⟨fun _ => ⟨fun _ => hu, fun _ => hu⟩, fun _ => ?_⟩
  apply wp_getInto getfn (by dsimp only; omega)
  intro d source
  have hv : (overwrite (overwrite t.buf 1 (Leb128.encode remLen))
      (1 + (Leb128.encode remLen).length) d.data).length = r.buf.length :=
    (length_overwrite (by have := d.fits; omega)).trans hu
  exact ⟨fun _ => hv, fun _ => hv⟩

/-- A transport that delivers exactly the bytes asked for while it has them. -/
structure Source (σ : Type) where
  getfn : Getfn σ
  pending : σ → List UInt8
  delivers : ∀ count s, count ≤ (pending s).length →
    (getfn count s).1.rc = count ∧ (getfn count s).1.data = (pending s).take count ∧
      pending (getfn count s).2 = (pending s).drop count

namespace Source

variable (src : Source σ)

theorem getInto_append {r : Reader σ} {position : ℕ} {bytes rest : List UInt8}
    (hp : src.pending r.source = bytes ++ rest) (h : position + bytes.length ≤ r.buf.length) :
    wp (getInto src.getfn position bytes.length)
      (fun rc t => rc = bytes.length ∧ t.buf = overwrite r.buf position bytes ∧
        src.pending t.source = rest) (fun _ _ => False) r := by
  obtain ⟨hrc, hdata, hrest⟩ := src.delivers bytes.length r.source (by simp [hp])
  rw [hp, List.take_left] at hdata
  rw [hp, List.drop_left] at hrest
  rw [wp_ok (by simp only [getInto, if_pos h]; rfl)]
  exact ⟨hrc, by rw [hdata], hrest⟩

theorem getBody_append {r : Reader σ} {len : ℕ} {body rest : List UInt8}
    (hp : src.pending r.source = body ++ rest) (h : len + body.length ≤ r.buf.length) :
    wp (getBody src.getfn len body.length)
      (fun complete t => complete = true ∧ t.buf = overwrite r.buf len body ∧
        src.pending t.source = rest) (fun _ _ => False) r := by
  unfold getBody
  simp only [wp_ite, wp_pure, wp_bind]
  refine ⟨fun hzero => ?_, fun _ => ?_⟩
  · obtain rfl : body = [] := List.length_eq_zero_iff.mp hzero
    exact ⟨trivial, (overwrite_nil _ _).symm, hp⟩
  · apply wp_imp (src.getInto_append hp h)
    rintro rc t ⟨rfl, hbuf, hrest⟩
    exact ⟨by simp, hbuf, hrest⟩

theorem feeds : Feeds (getChar src.getfn) (fun r : Reader σ => src.pending r.source)
    (fun _ => False) (fun r t => t.buf = r.buf) where
  stays := fun _ h => h.elim
  takes := by
    intro r b rest hp
    obtain ⟨hrc, hdata, hrest⟩ := src.delivers 1 r.source (by simp [hp])
    simp only [hp] at hdata hrest
    exact .inr ⟨hrc, hdata, hrest, rfl⟩

end Source

theorem overwrite_frame {buf field body : List UInt8} {header : UInt8}
    (h : 1 + field.length + body.length ≤ buf.length) :
    overwrite (overwrite (overwrite buf 0 [header]) 1 field) (1 + field.length) body =
      overwrite buf 0 (header :: (field ++ body)) := by
  have h1 : overwrite (overwrite buf 0 [header]) (0 + [header].length) field =
      overwrite buf 0 ([header] ++ field) := overwrite_append (by simp; omega)
  have h2 : overwrite (overwrite buf 0 ([header] ++ field)) (0 + ([header] ++ field).length) body =
      overwrite buf 0 ([header] ++ field ++ body) := overwrite_append (by simp; omega)
  simp only [List.length_singleton, Nat.zero_add, List.length_append] at h1 h2
  rw [h1, h2]
  simp

theorem headD_of_take {cells bytes : List UInt8} {first : UInt8} {n : ℕ}
    (h : cells.take n = first :: bytes) : cells.headD 0 = first := by
  cases cells with
  | nil => simp at h
  | cons x xs =>
    cases n with
    | zero => simp at h
    | succ n => simpa using (List.cons.inj h).1

/-- The reader takes one whole packet off the stream: it gives the packet's
type, leaves its header, shortest length and body in front of the buffer, and
stops at the next packet. The length field on the wire need not be shortest. -/
theorem mqttPacketRead_packet (src : Source σ) {r : Reader σ} {header : UInt8}
    {field body rest : List UInt8} (hfield : Leb128.Field field body.length)
    (hfour : field.length ≤ 4) (hp : src.pending r.source = header :: (field ++ (body ++ rest)))
    (hroom : (frameBytes header body).length ≤ r.buf.length) :
    wp (mqttPacketRead src.getfn)
      (fun rc t => rc = MQTTHeader.type header ∧
        t.buf = overwrite r.buf 0 (frameBytes header body) ∧ src.pending t.source = rest)
      (fun _ _ => False) r := by
  have hsmall : body.length < 2 ^ 31 :=
    hfield.value_lt.trans_le ((Nat.pow_le_pow_right (by norm_num) hfour).trans (by norm_num))
  have hsize : 1 + (Leb128.encode body.length).length + body.length ≤ r.buf.length := by
    simp only [frameBytes, List.length_cons, List.length_append] at hroom
    omega
  have hl1 : (overwrite r.buf 0 [header]).length = r.buf.length :=
    length_overwrite (by simp; omega)
  have hl2 : (overwrite (overwrite r.buf 0 [header]) 1 (Leb128.encode body.length)).length =
      r.buf.length := (length_overwrite (by omega)).trans hl1
  have hall : overwrite (overwrite (overwrite r.buf 0 [header]) 1 (Leb128.encode body.length))
      (1 + (Leb128.encode body.length).length) body = overwrite r.buf 0 (frameBytes header body) :=
    overwrite_frame hsize
  unfold mqttPacketRead
  rw [wp_bind]
  have hfirst : src.pending r.source = [header] ++ (field ++ (body ++ rest)) := hp
  apply wp_imp (src.getInto_append hfirst (by simp; omega))
  rintro rc t ⟨rfl, htbuf, htp⟩
  simp only [List.length_singleton, Nat.cast_one, ne_eq, not_true_eq_false, if_false, wp_bind]
  apply wp_imp (mqttPacketDecode_field src.feeds hfield hfour htp)
  rintro r' u (hlost | ⟨rfl, hup, hubuf⟩)
  · exact hlost.elim
  rw [htbuf] at hubuf
  apply wp_encodeInto hsmall (by rw [hubuf]; omega)
  have hfits : ¬ r.buf.length < body.length + (1 + (Leb128.encode body.length).length) := by
    omega
  simp only [wp_get, hubuf, hl2, hfits, if_false, wp_bind]
  apply wp_imp (src.getBody_append (r := ⟨overwrite (overwrite r.buf 0 [header]) 1
    (Leb128.encode body.length), u.source⟩) hup (by dsimp only; omega))
  rintro complete v ⟨rfl, hvbuf, hvp⟩
  rw [hall] at hvbuf
  simp [hvbuf, hvp, frameBytes, overwrite_zero]

end MqttEmbedded
