import MqttEmbedded.Packet.Read

/-!
# A stream that is cut

The transport delivers what it is asked for up to some point of the stream, and from there on
it always falls short. `MQTTPacket_read` hears of that from the two calls that it makes
itself; what the length decoder has met it does not ask.
-/

namespace MqttEmbedded

open Region Hoare

variable {σ : Type}

/-- A transport with the bytes that arrive before the cut. After the cut no call gives what it
is asked for. -/
structure CutSource (σ : Type) where
  getfn : Getfn σ
  pending : σ → List UInt8
  delivers : ∀ count s, count ≤ (pending s).length →
    (getfn count s).1.rc = count ∧ (getfn count s).1.data = (pending s).take count ∧
      pending (getfn count s).2 = (pending s).drop count
  short : ∀ count s, (pending s).length < count →
    (getfn count s).1.rc < count ∧ pending (getfn count s).2 = []

namespace CutSource

variable (src : CutSource σ)

/-- Whole packets are read from it as from a transport that is not cut. -/
def source : Source σ := ⟨src.getfn, src.pending, src.delivers⟩

variable {r : Reader σ}

theorem getInto_short {position count : ℕ} (hroom : position + count ≤ r.buf.length)
    (hp : (src.pending r.source).length < count) :
    wp (getInto src.getfn position count) (fun rc _ => rc < count) (fun _ _ => False) r := by
  obtain ⟨hrc, -⟩ := src.short count r.source hp
  have hok : getInto src.getfn position count r = .ok (src.getfn count r.source).1.rc
      ⟨overwrite r.buf position (src.getfn count r.source).1.data,
        (src.getfn count r.source).2⟩ := by
    simp only [getInto, if_pos hroom]
  rw [wp_ok hok]
  exact hrc

/-- The decoder stops after the bytes that it may read, or at the cut. -/
theorem decodeLoop_begun {begun : List UInt8} {n : ℕ} (hbegun : Leb128.Begun begun n) :
    ∀ {room len value multiplier : ℕ} {r : Reader σ} {rest : List UInt8},
    begun.length ≤ room → begun.length = room ∨ rest = [] →
    src.pending r.source = begun ++ rest →
    wp (decodeLoop (getChar src.getfn) room len value multiplier)
      (fun decoded t => decoded.2 = value + n * multiplier ∧ src.pending t.source = rest ∧
        t.buf = r.buf) (fun _ _ => False) r := by
  induction hbegun with
  | nil =>
    intro room len value multiplier r rest _ hend hp
    have hvalue : value = value + 0 * multiplier := by omega
    cases room with
    | zero => exact ⟨hvalue, hp, rfl⟩
    | succ room =>
      have hrest : rest = [] := by
        obtain hzero | hrest := hend
        · cases hzero
        · exact hrest
      subst hrest
      have hnone : (src.pending r.source).length < 1 := by
        rw [hp]
        exact Nat.one_pos
      obtain ⟨hrc, hafter⟩ := src.short 1 r.source hnone
      have hne : (src.getfn 1 r.source).1.rc ≠ 1 := by
        have hlt : (src.getfn 1 r.source).1.rc < 1 := hrc
        omega
      have hok : getChar src.getfn r = .ok (src.getfn 1 r.source).1
          ⟨r.buf, (src.getfn 1 r.source).2⟩ := rfl
      rw [decodeLoop, wp_bind, wp_ok hok, if_pos hne]
      exact ⟨hvalue, hafter, rfl⟩
  | @more b bs n hb _ ih =>
    intro room len value multiplier r rest hle hend hp
    obtain ⟨room, rfl⟩ : ∃ k, room = k + 1 := ⟨room - 1, by simp at hle; omega⟩
    have hflag : b &&& 128 ≠ 0 := (Leb128.and_128_ne_zero_iff b).mpr hb
    have hone : 1 ≤ (src.pending r.source).length := by
      rw [hp, List.cons_append, List.length_cons]
      omega
    obtain ⟨hrc, hdata, hafter⟩ := src.delivers 1 r.source hone
    rw [hp] at hdata hafter
    have hrc : (src.getfn 1 r.source).1.rc = 1 := hrc
    have hdata : (src.getfn 1 r.source).1.data = [b] := hdata
    have hok : getChar src.getfn r = .ok (src.getfn 1 r.source).1
        ⟨r.buf, (src.getfn 1 r.source).2⟩ := rfl
    rw [decodeLoop, wp_bind, wp_ok hok, if_neg (not_not.mpr hrc), hdata, List.headD_cons,
      if_pos hflag]
    have hend' : bs.length = room ∨ rest = [] := hend.imp_left Nat.succ.inj
    apply wp_imp (ih (Nat.succ_le_succ_iff.mp hle) hend' hafter)
    intro decoded t h
    obtain ⟨hvalue, hrest, hbuf⟩ := h
    refine ⟨?_, hrest, hbuf⟩
    rw [hvalue, Leb128.toNat_and_127]
    ring

/-- The body is read whole, or the cut is before its end. -/
theorem getBody_cut {len n : ℕ} (hroom : len + n ≤ r.buf.length) :
    wp (getBody src.getfn len n) (fun complete t =>
      if n ≤ (src.pending r.source).length then
        complete = true ∧ t.buf = overwrite r.buf len ((src.pending r.source).take n) ∧
          src.pending t.source = (src.pending r.source).drop n
      else complete = false) (fun _ _ => False) r := by
  by_cases hrest : n ≤ (src.pending r.source).length
  · have htake : ((src.pending r.source).take n).length = n := List.length_take_of_le hrest
    have hsplit : src.source.pending r.source =
        (src.pending r.source).take n ++ (src.pending r.source).drop n :=
      (List.take_append_drop n _).symm
    have hbody := src.source.getBody_append hsplit (htake.symm ▸ hroom)
    rw [htake] at hbody
    simp only [if_pos hrest]
    exact hbody
  · have hne : n ≠ 0 := by omega
    simp only [if_neg hrest]
    rw [getBody, if_neg hne, wp_bind]
    apply wp_imp (src.getInto_short hroom (by omega))
    intro rc v hrc
    rw [wp_pure]
    exact decide_eq_false hrc.ne

/-- What the reader does with the value that the decoder gives it, however it was come by. -/
theorem mqttPacketRead_decoded {header : UInt8} {xs rest : List UInt8} {n : ℕ}
    (hp : src.pending r.source = header :: xs) (hbuf : 5 ≤ r.buf.length)
    (hmax : n ≤ maxRemainingLength)
    (hdecode : ∀ r' : Reader σ, src.pending r'.source = xs →
      wp (mqttPacketDecode (getChar src.getfn)) (fun decoded t => decoded.2 = n ∧
        src.pending t.source = rest ∧ t.buf = r'.buf) (fun _ _ => False) r') :
    wp (mqttPacketRead src.getfn) (fun rc t =>
      if n ≤ rest.length ∧ 1 + (Leb128.encode n).length + n ≤ r.buf.length then
        rc = MQTTHeader.type header ∧ src.pending t.source = rest.drop n ∧
          t.buf = overwrite r.buf 0 (frameBytes header (rest.take n))
      else rc = -1) (fun _ _ => False) r := by
  have hfield : (Leb128.encode n).length ≤ 4 := by
    apply Leb128.encode_length_le
    unfold maxRemainingLength at hmax
    norm_num
    omega
  have hfirst : src.source.pending r.source = [header] ++ xs := hp
  have hl1 : (overwrite r.buf 0 [header]).length = r.buf.length :=
    length_overwrite (by simp; omega)
  have hl2 : (overwrite (overwrite r.buf 0 [header]) 1 (Leb128.encode n)).length =
      r.buf.length := (length_overwrite (by omega)).trans hl1
  unfold mqttPacketRead
  rw [wp_bind]
  apply wp_imp (src.source.getInto_append hfirst (by simp; omega))
  intro rc t h
  obtain ⟨rfl, htbuf, htp⟩ := h
  simp only [List.length_singleton, Nat.cast_one, ne_eq, not_true_eq_false, if_false, wp_bind]
  apply wp_imp (hdecode t htp)
  intro decoded u h
  obtain ⟨hvalue, rfl, hubuf⟩ := h
  rw [htbuf] at hubuf
  rw [hvalue]
  apply wp_encodeInto (lt_of_le_maxRemainingLength hmax) (by rw [hubuf]; omega)
  simp only [wp_get, hubuf, hl2, wp_ite, wp_bind, wp_pure]
  refine ⟨fun hlong => ?_, fun hfits => ?_⟩
  · rw [if_neg (by omega)]
    trivial
  have hbody := src.getBody_cut (r := ⟨overwrite (overwrite r.buf 0 [header]) 1
    (Leb128.encode n), u.source⟩) (show 1 + (Leb128.encode n).length + n ≤ _ by rw [hl2]; omega)
  apply wp_imp hbody
  intro complete v h
  dsimp only at h
  by_cases hrest : n ≤ (src.pending u.source).length
  · rw [if_pos hrest] at h
    obtain ⟨rfl, hvbuf, hvp⟩ := h
    have htake : ((src.pending u.source).take n).length = n := List.length_take_of_le hrest
    have hframe : v.buf =
        overwrite r.buf 0 (frameBytes header ((src.pending u.source).take n)) := by
      rw [hvbuf, overwrite_frame (by omega), frameBytes, htake]
    refine ⟨fun _ => ?_, fun hfalse => absurd rfl hfalse⟩
    rw [if_pos ⟨hrest, by omega⟩, hframe]
    refine ⟨?_, hvp, rfl⟩
    rw [overwrite_zero, frameBytes]
    rfl
  · rw [if_neg hrest] at h
    refine ⟨fun hcomplete => absurd (h.symm.trans hcomplete) Bool.false_ne_true, fun _ => ?_⟩
    rw [if_neg (fun h => hrest h.1)]
    trivial

end CutSource

/-- The number that the decoder gives for the length field, whether it has seen the end of the
field, and what is left of the stream. -/
inductive LengthRead : List UInt8 → Bool → ℕ → List UInt8 → Prop
  | complete {field : List UInt8} {n : ℕ} (rest : List UInt8) (h : Leb128.Field field n)
      (hle : field.length ≤ maxNoOfRemainingLengthBytes) : LengthRead (field ++ rest) true n rest
  | broken {begun : List UInt8} {n : ℕ} (rest : List UInt8) (h : Leb128.Begun begun n)
      (hle : begun.length ≤ maxNoOfRemainingLengthBytes)
      (hend : begun.length = maxNoOfRemainingLengthBytes ∨ rest = []) :
      LengthRead (begun ++ rest) false n rest

namespace LengthRead

variable {xs rest rest' : List UInt8} {whole whole' : Bool} {n n' : ℕ}

theorem exists_of (xs : List UInt8) : ∃ whole n rest, LengthRead xs whole n rest := by
  obtain ⟨field, n, rest, rfl, hfield, hle⟩ | ⟨begun, n, rest, rfl, hbegun, hle, hend⟩ :=
    Leb128.field_or_begun maxNoOfRemainingLengthBytes xs
  · exact ⟨_, _, _, .complete rest hfield hle⟩
  · exact ⟨_, _, _, .broken rest hbegun hle hend⟩

theorem not_field {begun field : List UInt8} (hbegun : Leb128.Begun begun n)
    (hend : begun.length = maxNoOfRemainingLengthBytes ∨ rest = [])
    (hfield : Leb128.Field field n') (hle : field.length ≤ maxNoOfRemainingLengthBytes) :
    field ++ rest' ≠ begun ++ rest := by
  intro h
  have hlt := hbegun.length_lt hfield h
  obtain hfour | rfl := hend
  · omega
  · have hlen := congrArg List.length h
    rw [List.append_nil, List.length_append] at hlen
    omega

theorem unique (h : LengthRead xs whole n rest) (h' : LengthRead xs whole' n' rest') :
    whole = whole' ∧ n = n' ∧ rest = rest' := by
  generalize hxs : xs = ys at h'
  cases h with
  | complete rest hfield hle =>
    cases h' with
    | complete rest' hfield' hle' =>
      obtain ⟨-, hn, hrest⟩ := hfield.unique hfield' hxs
      exact ⟨rfl, hn, hrest⟩
    | broken rest' hbegun' hle' hend' => exact absurd hxs (not_field hbegun' hend' hfield hle)
  | broken rest hbegun hle hend =>
    cases h' with
    | complete rest' hfield' hle' => exact absurd hxs.symm (not_field hbegun hend hfield' hle')
    | @broken begun' _ _ hbegun' hle' hend' =>
      rename_i begun
      have hlen : begun.length = begun'.length := by
        have htotal := congrArg List.length hxs
        rw [List.length_append, List.length_append] at htotal
        obtain hfour | rfl := hend
        · obtain hfour' | rfl := hend'
          · omega
          · rw [List.length_nil] at htotal
            omega
        · rw [List.length_nil] at htotal
          obtain hfour' | rfl := hend'
          · omega
          · rw [List.length_nil] at htotal
            omega
      obtain ⟨rfl, hrest⟩ := List.append_inj hxs hlen
      exact ⟨rfl, hbegun.unique hbegun', hrest⟩

theorem le_max (h : LengthRead xs whole n rest) : n ≤ maxRemainingLength := by
  have hlt : n < 128 ^ maxNoOfRemainingLengthBytes := by
    cases h with
    | complete rest hfield hle =>
      exact hfield.value_lt.trans_le (Nat.pow_le_pow_right (by norm_num) hle)
    | broken rest hbegun hle hend =>
      exact hbegun.value_lt.trans_le (Nat.pow_le_pow_right (by norm_num) hle)
  norm_num [maxNoOfRemainingLengthBytes] at hlt
  unfold maxRemainingLength
  omega

theorem decode (src : CutSource σ) (h : LengthRead xs whole n rest) (r : Reader σ)
    (hp : src.pending r.source = xs) :
    wp (mqttPacketDecode (getChar src.getfn)) (fun decoded t => decoded.2 = n ∧
      src.pending t.source = rest ∧ t.buf = r.buf) (fun _ _ => False) r := by
  cases h with
  | complete rest hfield hle =>
    have : IsTrans (Reader σ) fun r t => t.buf = r.buf := ⟨fun _ _ _ h h' => h'.trans h⟩
    apply wp_imp (mqttPacketDecode_field src.source.feeds hfield hle hp)
    intro decoded t h
    obtain ⟨rfl, hrest, hbuf⟩ := h.resolve_left id
    exact ⟨rfl, hrest, hbuf⟩
  | broken rest hbegun hle hend =>
    apply wp_imp (src.decodeLoop_begun hbegun hle hend hp)
    intro decoded t h
    obtain ⟨hvalue, hrest, hbuf⟩ := h
    refine ⟨?_, hrest, hbuf⟩
    rw [hvalue, Nat.zero_add, Nat.mul_one]

end LengthRead

/-- A packet is reported when it has been taken off the stream and is in the buffer, and
otherwise an error. -/
def ReportsPackets (src : CutSource σ) (r : Reader σ) : Prop :=
  ∃ rc t, mqttPacketRead src.getfn r = .ok rc t ∧
    (rc = -1 ∨ 1 ≤ rc ∧ ∃ w : WireFrame,
      src.pending r.source = w.bytes ++ src.pending t.source ∧ t.buf = overwrite r.buf 0 w.stored)

/-- When the stream and the buffer have room for what the decoder makes of the length field,
the field has come to its end, and the type of the packet is not 0. -/
def Unmistakable (size : ℕ) (stream : List UInt8) : Prop :=
  ∀ header xs whole n rest, stream = header :: xs → LengthRead xs whole n rest →
    n ≤ rest.length → 1 + (Leb128.encode n).length + n ≤ size →
    whole = true ∧ MQTTHeader.type header ≠ 0

theorem mqttPacketRead_nothing (src : CutSource σ) {r : Reader σ} (hbuf : 5 ≤ r.buf.length)
    (hp : src.pending r.source = []) :
    wp (mqttPacketRead src.getfn) (fun rc _ => rc = -1) (fun _ _ => False) r := by
  have hshort : (src.pending r.source).length < 1 := by
    rw [hp]
    exact Nat.one_pos
  unfold mqttPacketRead
  rw [wp_bind]
  apply wp_imp (src.getInto_short (by omega) hshort)
  intro rc t hrc
  have hne : rc ≠ 1 := by
    have hlt : rc < 1 := hrc
    omega
  rw [if_pos hne]
  rfl

theorem unmistakable_cons {size : ℕ} {header : UInt8} {xs rest : List UInt8} {whole : Bool} {n : ℕ}
    (h : LengthRead xs whole n rest) : Unmistakable size (header :: xs) ↔
      (n ≤ rest.length ∧ 1 + (Leb128.encode n).length + n ≤ size →
        whole = true ∧ MQTTHeader.type header ≠ 0) := by
  constructor
  · exact fun hall hfits => hall header xs whole n rest rfl h hfits.1 hfits.2
  · intro hone header' xs' whole' n' rest' heq h' hle hroom
    obtain ⟨rfl, rfl⟩ := List.cons.inj heq
    obtain ⟨rfl, rfl, rfl⟩ := h.unique h'
    exact hone ⟨hle, hroom⟩

/-- A packet is reported only when it has come, if and only if the stream is not to be
mistaken for one. -/
theorem mqttPacketRead_reportsPackets (src : CutSource σ) (r : Reader σ)
    (hbuf : 5 ≤ r.buf.length) :
    ReportsPackets src r ↔ Unmistakable r.buf.length (src.pending r.source) := by
  unfold ReportsPackets
  cases hp : src.pending r.source with
  | nil =>
    obtain ⟨rc, t, hrun, hrc⟩ := wp_total (mqttPacketRead_nothing src hbuf hp)
    refine iff_of_true ⟨rc, t, hrun, .inl hrc⟩ ?_
    intro header xs whole n rest heq
    cases heq
  | cons header xs =>
    obtain ⟨whole, n, rest, hlength⟩ := LengthRead.exists_of xs
    obtain ⟨rc, t, hrun, hread⟩ := wp_total (src.mqttPacketRead_decoded hp hbuf hlength.le_max
      (hlength.decode src))
    rw [unmistakable_cons hlength]
    by_cases hfits : n ≤ rest.length ∧ 1 + (Leb128.encode n).length + n ≤ r.buf.length
    · rw [if_pos hfits] at hread
      obtain ⟨hrc, hafter, hstored⟩ := hread
      constructor
      · intro h _
        obtain ⟨rc', t', hrun', hor⟩ := h
        rw [hrun] at hrun'
        obtain ⟨rfl, rfl⟩ := EStateM.Result.ok.inj hrun'
        obtain ⟨hpos, w, hstream, -⟩ := hor.resolve_left (by omega)
        refine ⟨?_, by omega⟩
        cases hlength with
        | complete => rfl
        | broken rest hbegun hle hend =>
          rw [WireFrame.bytes, List.cons_append, List.append_assoc] at hstream
          obtain ⟨-, htail⟩ := List.cons.inj hstream
          exact absurd htail.symm (LengthRead.not_field hbegun hend w.isField w.length_field)
      · intro h
        obtain ⟨rfl, htype⟩ := h hfits
        cases hlength with
        | @complete field _ _ hfield hle =>
          have htake : (rest.take n).length = n := List.length_take_of_le hfits.1
          refine ⟨rc, t, hrun, .inr ⟨by omega, ⟨header, field, rest.take n, ?_, hle⟩, ?_, ?_⟩⟩
          · rwa [htake]
          · rw [hafter]
            simp [WireFrame.bytes]
          · exact hstored
    · rw [if_neg hfits] at hread
      exact iff_of_true ⟨rc, t, hrun, .inl hread⟩ fun h => absurd h hfits

/-- These bytes, and then the end of the stream. -/
def listSource : CutSource (List UInt8) where
  getfn := fun count bytes =>
    if count ≤ bytes.length then
      (.arrived (bytes.take count) (List.length_take_le _ _), bytes.drop count)
    else (.failed 0 Delivery.none_nonpos, [])
  pending := fun bytes => bytes
  delivers := by
    intro count bytes hle
    rw [if_pos hle]
    refine ⟨?_, rfl, rfl⟩
    exact congrArg Nat.cast (List.length_take_of_le hle)
  short := by
    intro count bytes hlt
    rw [if_neg (not_le.mpr hlt)]
    refine ⟨?_, rfl⟩
    exact Int.natCast_pos.mpr (Nat.zero_lt_of_lt hlt)

/-- A PUBACK comes whole and is reported, and what comes after it is left; one that is cut
inside its identifier is not reported. -/
theorem mqttPacketRead_reportsPackets_puback :
    ReportsPackets listSource ⟨List.replicate 8 0, [0x40, 0x02, 0x00, 0x07, 0xD0, 0x00]⟩ ∧
      ReportsPackets listSource ⟨List.replicate 8 0, [0x40, 0x02, 0x00]⟩ ∧
      mqttPacketRead listSource.getfn
          ⟨List.replicate 8 0, [0x40, 0x02, 0x00, 0x07, 0xD0, 0x00]⟩ =
        .ok 4 ⟨[0x40, 0x02, 0x00, 0x07, 0, 0, 0, 0], [0xD0, 0x00]⟩ ∧
      mqttPacketRead listSource.getfn ⟨List.replicate 8 0, [0x40, 0x02, 0x00]⟩ =
        .ok (-1) ⟨[0x40, 0x02, 0, 0, 0, 0, 0, 0], []⟩ := by
  have hfield : Leb128.Field [0x02] 2 := .last (by decide)
  refine ⟨?_, ?_, rfl, rfl⟩
  · refine (mqttPacketRead_reportsPackets listSource
      ⟨List.replicate 8 0, [0x40, 0x02, 0x00, 0x07, 0xD0, 0x00]⟩ (by decide)).mpr ?_
    have hlength : LengthRead [0x02, 0x00, 0x07, 0xD0, 0x00] true 2 [0x00, 0x07, 0xD0, 0x00] :=
      .complete [0x00, 0x07, 0xD0, 0x00] hfield (by decide)
    exact (unmistakable_cons hlength).mpr fun _ => ⟨rfl, by decide⟩
  · refine (mqttPacketRead_reportsPackets listSource
      ⟨List.replicate 8 0, [0x40, 0x02, 0x00]⟩ (by decide)).mpr ?_
    have hlength : LengthRead [0x02, 0x00] true 2 [0x00] := .complete [0x00] hfield (by decide)
    exact (unmistakable_cons hlength).mpr fun _ => ⟨rfl, by decide⟩

/-- A stream that is cut after the header of a PUBLISH, one whose length field does not end
within four bytes, and a packet of type 0. -/
theorem mqttPacketRead_not_reportsPackets :
    ¬ ReportsPackets listSource ⟨List.replicate 5 0, [0x30]⟩ ∧
      ¬ ReportsPackets listSource ⟨List.replicate 5 0, [0x30, 0x80, 0x80, 0x80, 0x80]⟩ ∧
      ¬ ReportsPackets listSource ⟨List.replicate 5 0, [0x00, 0x00]⟩ := by
  refine ⟨?_, ?_, ?_⟩
  · intro h
    obtain ⟨rc, t, hrun, hor⟩ := h
    have hcall : mqttPacketRead listSource.getfn ⟨List.replicate 5 0, [0x30]⟩ =
        .ok 3 ⟨[0x30, 0, 0, 0, 0], []⟩ := rfl
    obtain ⟨rfl, rfl⟩ := EStateM.Result.ok.inj (hcall.symm.trans hrun)
    obtain ⟨-, w, hstream, -⟩ := hor.resolve_left (by decide)
    rw [WireFrame.bytes, List.cons_append, List.append_assoc] at hstream
    exact LengthRead.not_field .nil (.inr rfl) w.isField w.length_field
      (List.cons.inj hstream).2.symm
  · intro h
    obtain ⟨rc, t, hrun, hor⟩ := h
    have hbegun : Leb128.Begun [0x80, 0x80, 0x80, 0x80] 0 :=
      .more (by decide) (.more (by decide) (.more (by decide) (.more (by decide) .nil)))
    have hlength : LengthRead [0x80, 0x80, 0x80, 0x80] false 0 [] :=
      .broken [] hbegun (by decide) (.inl rfl)
    obtain ⟨rc', t', hcall, hread⟩ := wp_total (listSource.mqttPacketRead_decoded
      (r := ⟨List.replicate 5 0, [0x30, 0x80, 0x80, 0x80, 0x80]⟩) rfl (by decide) hlength.le_max
      (hlength.decode listSource))
    rw [if_pos (by decide)] at hread
    obtain ⟨rfl, rfl⟩ := EStateM.Result.ok.inj (hcall.symm.trans hrun)
    have hne : rc' ≠ -1 := by
      rw [hread.1]
      decide
    obtain ⟨-, w, hstream, -⟩ := hor.resolve_left hne
    rw [WireFrame.bytes, List.cons_append, List.append_assoc] at hstream
    exact LengthRead.not_field hbegun (.inl rfl) w.isField w.length_field
      (List.cons.inj hstream).2.symm
  · intro h
    obtain ⟨rc, t, hrun, hor⟩ := h
    have hcall : mqttPacketRead listSource.getfn ⟨List.replicate 5 0, [0x00, 0x00]⟩ =
        .ok 0 ⟨[0, 0, 0, 0, 0], []⟩ := rfl
    obtain ⟨rfl, rfl⟩ := EStateM.Result.ok.inj (hcall.symm.trans hrun)
    obtain ⟨hpos, -⟩ := hor.resolve_left (by decide)
    exact absurd hpos (by decide)

end MqttEmbedded
