import MqttEmbedded.Packet.ReadNonblocking
import MqttEmbedded.Packet.Stream
import MqttEmbedded.Lib.Transducer

/-!
# Independence of the chunks

What the non-blocking reader shows depends on the bytes of the stream alone.
The packet machine takes one byte at a time and knows nothing of calls; every
call of the reader is shown to be a run of the machine on the bytes the call
consumed. Two runs over the same stream are then two cuts of one machine run.
-/

namespace MqttEmbedded

open Region Hoare

inductive Progress where
  | header
  | length (first : UInt8) (count value : ℕ)
  | body (first : UInt8) (size : ℕ) (got : List UInt8)

/-- A value returned, with the packet where there is one. -/
abbrev Shown := ℤ × List UInt8

/-- A whole packet; type 0 cannot be told from "call again" and shows nothing. -/
def complete (first : UInt8) (body : List UInt8) : Progress × Option Shown :=
  (.header, if MQTTHeader.type first = 0 then none
    else some (MQTTHeader.type first, frameBytes first body))

def rejected : Progress × Option Shown := (.header, some (-1, []))

/-- The length field has ended with this value. -/
def opened (buflen : ℕ) (first : UInt8) (value : ℕ) : Progress × Option Shown :=
  if buflen < value + (1 + (Leb128.encode value).length) then rejected
  else if value = 0 then complete first []
  else (.body first value [], none)

def packetStep (buflen : ℕ) : Progress → UInt8 → Progress × Option Shown
  | .header, b => (.length b 0 0, none)
  | .length first count value, b =>
    let value := value + (b &&& 127).toNat * 128 ^ count
    if b &&& 128 ≠ 0 then
      if count + 1 < maxNoOfRemainingLengthBytes then (.length first (count + 1) value, none)
      else rejected
    else opened buflen first value
  | .body first size got, b =>
    let got := got ++ [b]
    if got.length < size then (.body first size got, none) else complete first got

def packetMachine (buflen : ℕ) : Transducer Progress UInt8 Shown := ⟨packetStep buflen⟩

section Machine

variable {buflen : ℕ} {first : UInt8}

section LengthByte

variable (buflen first) (count value : ℕ) {b : UInt8}

theorem step_more (hflag : b &&& 128 ≠ 0) (hcount : count < 3) :
    (packetMachine buflen).step (.length first count value) b =
      (.length first (count + 1) (value + (b &&& 127).toNat * 128 ^ count), none) := by
  have hlt : count + 1 < maxNoOfRemainingLengthBytes := by
    unfold maxNoOfRemainingLengthBytes
    omega
  simp only [packetMachine, packetStep, if_pos hflag, if_pos hlt]

theorem step_overlong (hflag : b &&& 128 ≠ 0) (hcount : count = 3) :
    (packetMachine buflen).step (.length first count value) b = rejected := by
  have hge : ¬ count + 1 < maxNoOfRemainingLengthBytes := by
    unfold maxNoOfRemainingLengthBytes
    omega
  simp only [packetMachine, packetStep, if_pos hflag, if_neg hge]

theorem step_last (hflag : b &&& 128 = 0) :
    (packetMachine buflen).step (.length first count value) b =
      opened buflen first (value + (b &&& 127).toNat * 128 ^ count) := by
  simp only [packetMachine, packetStep]
  rw [if_neg (not_not.mpr hflag)]

end LengthByte

theorem leads_body {size : ℕ} {data : List UInt8} : ∀ {got : List UInt8},
    got.length + data.length < size → (packetMachine buflen).Leads (.body first size got) data
      (.body first size (got ++ data)) none := by
  induction data with
  | nil =>
    intro got _
    simpa using Transducer.Leads.nil
  | cons b data ih =>
    intro got h
    rw [List.length_cons] at h
    have hstep : (packetMachine buflen).step (.body first size got) b =
        (.body first size (got ++ [b]), none) := by
      simp only [packetMachine, packetStep, List.length_append, List.length_singleton]
      rw [if_pos (by omega)]
    have hlater : (packetMachine buflen).Leads (.body first size (got ++ [b])) data
        (.body first size (got ++ [b] ++ data)) none := ih (by simp; omega)
    rw [List.append_assoc] at hlater
    exact .cons hstep hlater

theorem leads_complete {size : ℕ} {data got : List UInt8} (hdata : data ≠ [])
    (h : got.length + data.length = size) : (packetMachine buflen).Leads (.body first size got) data
      .header (complete first (got ++ data)).2 := by
  obtain ⟨init, b, rfl⟩ := (List.eq_nil_or_concat' data).resolve_left hdata
  rw [List.length_append, List.length_singleton] at h
  have hstep : (packetMachine buflen).step (.body first size (got ++ init)) b =
      complete first (got ++ (init ++ [b])) := by
    simp only [packetMachine, packetStep, List.length_append, List.length_singleton,
      List.append_assoc]
    rw [if_neg (by omega)]
  exact (leads_body (by omega)).append (.single hstep)

/-- The machine decodes a length field of at most four bytes. -/
theorem leads_opened (buflen : ℕ) (first : UInt8) {field : List UInt8} {n : ℕ}
    (hfield : Leb128.Field field n) :
    ∀ (count value : ℕ), count + field.length ≤ 4 →
    (packetMachine buflen).Leads (.length first count value) field
      (opened buflen first (value + n * 128 ^ count)).1
      (opened buflen first (value + n * 128 ^ count)).2 := by
  induction hfield with
  | @last b hb =>
    intro count value _
    have hmask : (b &&& 127).toNat = b.toNat := by
      rw [Leb128.toNat_and_127, Nat.mod_eq_of_lt hb]
    have hflag : b &&& 128 = 0 := by
      by_contra h
      have := (Leb128.and_128_ne_zero_iff b).mp h
      omega
    apply Transducer.Leads.single
    rw [step_last _ _ _ _ hflag, hmask]
  | @more b bs n hb hbs ih =>
    intro count value hlen
    rw [List.length_cons] at hlen
    have hpos := hbs.length_pos
    have hflag : b &&& 128 ≠ 0 := (Leb128.and_128_ne_zero_iff b).mpr hb
    have hvalue : value + (b &&& 127).toNat * 128 ^ count + n * 128 ^ (count + 1) =
        value + (b.toNat % 128 + 128 * n) * 128 ^ count := by
      rw [Leb128.toNat_and_127]
      ring
    have hlater := ih (count + 1) (value + (b &&& 127).toNat * 128 ^ count) (by omega)
    rw [hvalue] at hlater
    exact .cons (step_more _ _ _ _ hflag (by omega)) hlater

/-- The machine shows a frame that fits at its last byte. -/
theorem leads_frame {f : Frame} (hfits : f.size ≤ buflen) :
    (packetMachine buflen).Leads .header f.bytes .header (complete f.header f.body).2 := by
  have hsize := f.size_eq
  have hopened : opened buflen f.header f.body.length = if f.body.length = 0 then
      complete f.header [] else (.body f.header f.body.length [], none) := by
    unfold opened
    rw [if_neg (by omega)]
  have hfield := leads_opened buflen f.header (Leb128.encode_field f.body.length) 0 0
    (by simpa using f.field_length_le)
  simp only [pow_zero, mul_one, Nat.zero_add, hopened] at hfield
  have hheader : (packetMachine buflen).step .header f.header = (.length f.header 0 0, none) := rfl
  apply Transducer.Leads.cons hheader
  by_cases hbody : f.body = []
  · simpa [hbody, complete] using hfield
  · rw [if_neg (by simpa using hbody)] at hfield
    exact hfield.append (leads_complete hbody (by simp : ([] : List UInt8).length + _ = _))

end Machine

/-- A transport that delivers its stream in pieces of any size. -/
structure Chunks (σ : Type) where
  getfn : GetfnNb σ
  pending : σ → List UInt8
  delivers : ∀ count s, (getfn count s).1.rc = (getfn count s).1.data.length ∧
    pending s = (getfn count s).1.data ++ pending (getfn count s).2

/-- The reader is where the machine is. -/
def At (buflen : ℕ) {σ : Type} : Progress → ReaderNb σ → Prop
  | .header, r => r.buf.length = buflen ∧ r.trp.state = 0
  | .length first count value, r => r.buf.length = buflen ∧ r.trp.state = 1 ∧
    r.buf.take 1 = [first] ∧ r.trp.len = count ∧ count < 4 ∧ value < 128 ^ count ∧
    (0 < count → r.trp.remLen = value ∧ r.trp.multiplier = 128 ^ count)
  | .body first size got, r => r.buf.length = buflen ∧ r.trp.state = 2 ∧
    got.length < size ∧ r.trp.remLen = size - got.length ∧
    r.trp.len = 1 + (Leb128.encode size).length + got.length ∧
    1 + (Leb128.encode size).length + size ≤ buflen ∧
    r.buf.take r.trp.len = first :: (Leb128.encode size ++ got)

/-- What a call shows: nothing when it asks to be called again. -/
def emitted {σ : Type} (rc : ℤ) (r : ReaderNb σ) : Option Shown :=
  if rc = 0 then none else some (rc, if 0 < rc then r.buf.take r.trp.len else [])

theorem emitted_exitWithType {σ : Type} {r : ReaderNb σ} {first : UInt8} {body : List UInt8}
    (h : r.buf.take r.trp.len = frameBytes first body) :
    emitted (MQTTHeader.type (r.buf.headD 0) : ℤ) { r with trp := { r.trp with state := 0 } } =
      (complete first body).2 := by
  rw [headD_of_take h]
  unfold emitted complete
  by_cases htype : MQTTHeader.type first = 0
  · simp [htype]
  · simp [htype, Nat.pos_of_ne_zero htype, h]

/-- The caller leaves the buffer alone while a packet is unfinished. -/
def Caller.Patient (caller : Caller) : Prop :=
  ∀ k trp buf, trp.state ≠ 0 → caller.reuse k trp buf = buf

theorem Caller.Patient.at_reuse {caller : Caller} (h : caller.Patient) {σ : Type} {buflen : ℕ}
    {q : Progress} {r : ReaderNb σ} (k : ℕ) (hat : At buflen q r) :
    At buflen q { r with buf := caller.reuse k r.trp r.buf } := by
  cases q with
  | header => exact ⟨(caller.length_reuse _ _ _).trans hat.1, hat.2⟩
  | length first count value =>
    have hsame := h k r.trp r.buf (by simp [hat.2.1])
    simpa only [hsame] using hat
  | body first size got =>
    have hsame := h k r.trp r.buf (by simp [hat.2.1])
    simpa only [hsame] using hat

namespace Chunks

variable {σ : Type} (src : Chunks σ) {buflen : ℕ}

/-- The call took the bytes the machine took from `q` and shows what it shows. -/
def Answers (buflen : ℕ) (q : Progress) (stream : List UInt8) (rc : ℤ) (t : ReaderNb σ) : Prop :=
  ∃ xs q', stream = xs ++ src.pending t.source ∧
    (packetMachine buflen).Leads q xs q' (emitted rc t) ∧ At buflen q' t

variable {src}

theorem Answers.after {q q' : Progress} {xs stream : List UInt8} {rc : ℤ} {t : ReaderNb σ}
    (hlead : (packetMachine buflen).Leads q xs q' none)
    (h : src.Answers buflen q' stream rc t) : src.Answers buflen q (xs ++ stream) rc t := by
  obtain ⟨ys, q'', rfl, hys, hat⟩ := h
  exact ⟨xs ++ ys, q'', by rw [List.append_assoc], hlead.append hys, hat⟩

variable (src)

theorem readnbBody_answers {first : UInt8} {size : ℕ} {got : List UInt8} {r : ReaderNb σ}
    (hat : At buflen (.body first size got) r) :
    wp (readnbBody src.getfn) (src.Answers buflen (.body first size got) (src.pending r.source))
      (fun _ _ => False) r := by
  obtain ⟨hbuf, hstate, hgot, hrem, hlen, hroom, hfront⟩ := hat
  unfold readnbBody
  simp only [wp_bind, wp_get, wp_ite, wp_exitWithType]
  refine ⟨fun _ => ?_, fun h => by omega⟩
  rw [wp_getIntoNb src.getfn (by omega)]
  obtain ⟨hrc, hpending⟩ := src.delivers r.trp.remLen r.source
  have hfits := (src.getfn r.trp.remLen r.source).1.fits
  generalize (src.getfn r.trp.remLen r.source).1 = d at *
  generalize (src.getfn r.trp.remLen r.source).2 = source at *
  have hbuf' : (overwrite r.buf r.trp.len d.data).length = buflen :=
    (length_overwrite (by omega)).trans hbuf
  have hfront' : (overwrite r.buf r.trp.len d.data).take (r.trp.len + d.data.length) =
      first :: (Leb128.encode size ++ (got ++ d.data)) := by
    rw [take_overwrite (by omega), hfront]
    simp
  simp only [wp_exitNb, wp_pure, wp_updateTrp]
  refine ⟨fun h => by omega, fun _ => ⟨fun h => ?_, fun h => ⟨fun hmore => ?_, fun hdone => ?_⟩⟩⟩
  · have hdata : d.data = [] := List.length_eq_zero_iff.mp (by omega)
    refine ⟨[], _, by simp [hpending, hdata], .nil, hbuf', hstate, hgot, hrem, hlen, hroom, ?_⟩
    simpa [hdata] using hfront
  · have hshort : got.length + d.data.length < size := by omega
    refine ⟨d.data, _, hpending, leads_body hshort, hbuf', hstate, by simpa using hshort, ?_, ?_,
      hroom, ?_⟩
    · dsimp only
      rw [List.length_append]
      omega
    · dsimp only
      rw [List.length_append]
      omega
    · simpa [hrc] using hfront'
  · have hall : got.length + d.data.length = size := by omega
    have hdata : d.data ≠ [] := by
      intro hnil
      simp [hnil] at hrc
      exact h hrc
    refine ⟨d.data, .header, hpending, ?_, hbuf', rfl⟩
    have hframe : (overwrite r.buf r.trp.len d.data).take (r.trp.len + d.rc.toNat) =
        frameBytes first (got ++ d.data) := by simpa [hrc, frameBytes, hall] using hfront'
    have hpacket := emitted_exitWithType (r := ⟨overwrite r.buf r.trp.len d.data, { r.trp with
      remLen := r.trp.remLen - d.rc.toNat, len := r.trp.len + d.rc.toNat }, source⟩) hframe
    rw [hpacket]
    exact leads_complete hdata hall

/-- Where the length field stands when the decoder stops: it was too long, it is
to be continued, or it has ended. -/
structure Decoded (buflen : ℕ) (first : UInt8) (q : Progress) (xs : List UInt8) (rc : ℤ)
    (t : ReaderNb σ) : Prop where
  overlong : rc = -1 → (packetMachine buflen).Leads q xs rejected.1 rejected.2
  unfinished : rc = 0 → Digits t.trp ∧ t.trp.len < 4 ∧
    (packetMachine buflen).Leads q xs (.length first t.trp.len t.trp.remLen) none
  ended : rc ≠ -1 → rc ≠ 0 → t.trp.remLen < 128 ^ 4 ∧ (packetMachine buflen).Leads q xs
    (opened buflen first t.trp.remLen).1 (opened buflen first t.trp.remLen).2

theorem Decoded.after {first : UInt8} {q q' : Progress} {xs ys : List UInt8} {rc : ℤ}
    {t : ReaderNb σ} (hlead : (packetMachine buflen).Leads q xs q' none)
    (h : Decoded buflen first q' ys rc t) : Decoded buflen first q (xs ++ ys) rc t := by
  obtain ⟨hover, hmore, hend⟩ := h
  refine ⟨fun hrc => hlead.append (hover hrc), fun hrc => ?_, fun herr hrc => ?_⟩
  · obtain ⟨hdigits, hfour, hys⟩ := hmore hrc
    exact ⟨hdigits, hfour, hlead.append hys⟩
  · obtain ⟨hsmall, hys⟩ := hend herr hrc
    exact ⟨hsmall, hlead.append hys⟩

theorem decodenbLoop_decoded (first : UInt8) : ∀ (room : ℕ) {r : ReaderNb σ}, Digits r.trp →
    r.trp.len + (room + 1) = 4 → wp (decodenbLoop src.getfn (room + 1))
      (fun rc t => t.buf = r.buf ∧ t.trp.state = r.trp.state ∧
        ∃ xs, src.pending r.source = xs ++ src.pending t.source ∧
          Decoded buflen first (.length first r.trp.len r.trp.remLen) xs rc t)
      (fun _ _ => False) r
  | room, r, hdigits, hroom => by
    obtain ⟨hrc, hpending⟩ := src.delivers 1 r.source
    have hfits := (src.getfn 1 r.source).1.fits
    rw [decodenbLoop, wp_bind, wp_getCharNb]
    generalize (src.getfn 1 r.source).1 = d at *
    generalize (src.getfn 1 r.source).2 = source at *
    have hnext := hdigits.next (by omega) (d.data.headD 0)
    simp only [wp_ite, wp_pure, wp_bind, wp_updateTrp, wp_get]
    refine ⟨fun h => by omega, fun _ => ⟨fun h => ?_, fun h => ?_⟩⟩
    · have hdata : d.data = [] := List.length_eq_zero_iff.mp (by omega)
      rw [hdata, List.nil_append] at hpending
      refine ⟨trivial, trivial, [], hpending, by simp, fun _ => ?_, by simp⟩
      exact ⟨hdigits, by dsimp only; omega, .nil⟩
    · obtain ⟨c, hdata⟩ : ∃ c, d.data = [c] := List.length_eq_one_iff.mp (by omega)
      simp only [hdata, List.headD_cons] at hnext hpending ⊢
      have hmul := hdigits.2.1
      refine ⟨fun hflag => ?_, fun hflag => ?_⟩
      · cases room with
        | zero =>
          have hover := step_overlong buflen first r.trp.len r.trp.remLen hflag (by omega)
          exact ⟨rfl, rfl, [c], hpending, fun _ => .single hover,
            fun hrc => by simp [mqttpacketReadError] at hrc, fun hrc => absurd rfl hrc⟩
        | succ room =>
          have hmore := step_more buflen first r.trp.len r.trp.remLen hflag (by omega)
          rw [← hmul] at hmore
          apply wp_imp (decodenbLoop_decoded first room hnext (by dsimp only; omega))
          rintro rc t ⟨hbuf, hstate, xs, hxs, hdecoded⟩
          exact ⟨hbuf, hstate, c :: xs, by simp [hpending, hxs], hdecoded.after (.single hmore)⟩
      · have hlast := step_last buflen first r.trp.len r.trp.remLen (not_not.mp hflag)
        rw [← hmul] at hlast
        have hsmall := hnext.remLen_le
        refine ⟨trivial, trivial, [c], hpending, fun hrc => by omega, fun hrc => by omega,
          fun _ _ => ⟨?_, .single hlast⟩⟩
        · unfold maxRemainingLength at hsmall
          dsimp only at hsmall ⊢
          omega

theorem mqttPacketDecodenb_decoded {first : UInt8} {count value : ℕ} {r : ReaderNb σ}
    (hat : At buflen (.length first count value) r) :
    wp (mqttPacketDecodenb src.getfn) (fun rc t => t.buf = r.buf ∧ t.trp.state = 1 ∧
      ∃ xs, src.pending r.source = xs ++ src.pending t.source ∧
        Decoded buflen first (.length first count value) xs rc t) (fun _ _ => False) r := by
  obtain ⟨-, hstate, -, rfl, hcount, hvalue, htrp⟩ := hat
  have hdigits : Digits (initOnFirstCall r.trp) := by
    apply Digits.init
    rcases Nat.eq_zero_or_pos r.trp.len with hzero | hpos
    · exact .inl hzero
    · obtain ⟨hrem, hmul⟩ := htrp hpos
      exact .inr ⟨hcount.le, hmul, hrem ▸ hvalue⟩
  have hinit : (initOnFirstCall r.trp).remLen = value := by
    unfold initOnFirstCall
    split_ifs with hzero
    · rw [hzero] at hvalue
      dsimp only
      omega
    · exact (htrp (Nat.pos_of_ne_zero hzero)).1
  have hcalls : maxNoOfRemainingLengthBytes - r.trp.len = (3 - r.trp.len) + 1 := by
    unfold maxNoOfRemainingLengthBytes
    omega
  unfold mqttPacketDecodenb
  simp only [wp_bind, wp_updateTrp, wp_get, len_initOnFirstCall, hcalls]
  apply wp_imp (src.decodenbLoop_decoded (r := { r with trp := initOnFirstCall r.trp }) first _
    hdigits (by simp; omega))
  rintro rc t ⟨hbuf, ht, hdecoded⟩
  simp only [len_initOnFirstCall, hinit, state_initOnFirstCall] at ht hdecoded
  exact ⟨hbuf, ht.trans hstate, hdecoded⟩

theorem readnbLength_answers (hfive : 5 ≤ buflen) {first : UInt8} {count value : ℕ}
    {r : ReaderNb σ} (hat : At buflen (.length first count value) r) :
    wp (readnbLength src.getfn)
      (src.Answers buflen (.length first count value) (src.pending r.source))
      (fun _ _ => False) r := by
  have ⟨hbuf, _, hfirst, _⟩ := hat
  unfold readnbLength
  rw [wp_bind]
  apply wp_imp (src.mqttPacketDecodenb_decoded hat)
  rintro frc t ⟨htbuf, htstate, xs, hpending, hdecoded⟩
  simp only [wp_ite, wp_bind, wp_exitNb, wp_pure, wp_get]
  have htlen : t.buf.length = buflen := by rw [htbuf, hbuf]
  refine ⟨fun hrc => ?_, fun herr => ⟨fun hrc => ?_, fun hzero => ?_⟩⟩
  · exact ⟨xs, .header, hpending, hdecoded.overlong hrc, htlen, rfl⟩
  · obtain ⟨⟨-, hmul, hrem⟩, hfour, hlead⟩ := hdecoded.unfinished hrc
    exact ⟨xs, _, hpending, hlead, htlen, htstate, htbuf ▸ hfirst, rfl, hfour, hrem,
      fun _ => ⟨rfl, hmul⟩⟩
  · obtain ⟨hsmall, hlead⟩ := hdecoded.ended herr hzero
    have hfield : (Leb128.encode t.trp.remLen).length ≤ 4 := Leb128.encode_length_le hsmall
    have hlen : (overwrite t.buf 1 (Leb128.encode t.trp.remLen)).length = buflen :=
      (length_overwrite (by omega)).trans htlen
    have hfront : (overwrite t.buf 1 (Leb128.encode t.trp.remLen)).take
        (1 + (Leb128.encode t.trp.remLen).length) = first :: Leb128.encode t.trp.remLen := by
      rw [take_overwrite (by omega), htbuf, hfirst]
      rfl
    rw [wp_encodeIntoNb (by omega) (by omega)]
    simp only [wp_updateTrp, hlen]
    refine ⟨fun hbig => ?_, fun hroom => ?_⟩
    · rw [opened, if_pos hbig] at hlead
      exact ⟨xs, .header, hpending, hlead, hlen, rfl⟩
    · rw [opened, if_neg hroom] at hlead
      by_cases hempty : t.trp.remLen = 0
      · rw [if_pos hempty] at hlead
        simp only [readnbBody, wp_bind, wp_get, hempty, ne_eq, not_true_eq_false, if_false,
          wp_exitWithType]
        rw [hempty] at hfront hlen
        have hframe : (overwrite t.buf 1 (Leb128.encode 0)).take (1 + (Leb128.encode 0).length) =
            frameBytes first [] := by simpa [frameBytes] using hfront
        have hpacket := emitted_exitWithType (r := ⟨overwrite t.buf 1 (Leb128.encode 0),
          { t.trp with len := 1 + (Leb128.encode 0).length }, t.source⟩) hframe
        exact ⟨xs, .header, hpending, hpacket ▸ hlead, hlen, rfl⟩
      · rw [if_neg hempty] at hlead
        rw [hpending]
        have hat' : At buflen (.body first t.trp.remLen [])
            (⟨overwrite t.buf 1 (Leb128.encode t.trp.remLen), { t.trp with
              len := 1 + (Leb128.encode t.trp.remLen).length
              state := t.trp.state + 1 }, t.source⟩ : ReaderNb σ) :=
          ⟨hlen, by simp [htstate], Nat.pos_of_ne_zero hempty, by simp, by simp, by omega,
            by simpa using hfront⟩
        apply wp_imp (src.readnbBody_answers hat')
        intro rc u hu
        exact Answers.after hlead hu

theorem readnbHeader_answers (hfive : 5 ≤ buflen) {r : ReaderNb σ} (hat : At buflen .header r) :
    wp (readnbHeader src.getfn) (src.Answers buflen .header (src.pending r.source))
      (fun _ _ => False) r := by
  obtain ⟨hbuf, hstate⟩ := hat
  unfold readnbHeader
  rw [wp_bind, wp_getIntoNb src.getfn (by omega)]
  obtain ⟨hrc, hpending⟩ := src.delivers 1 r.source
  have hfits := (src.getfn 1 r.source).1.fits
  generalize (src.getfn 1 r.source).1 = d at *
  generalize (src.getfn 1 r.source).2 = source at *
  simp only [wp_ite, wp_bind, wp_exitNb, wp_pure, wp_updateTrp]
  refine ⟨fun h => by omega, fun _ => ⟨fun h => ?_, fun h => ?_⟩⟩
  · have hdata : d.data = [] := List.length_eq_zero_iff.mp (by omega)
    exact ⟨[], .header, by simpa [hdata] using hpending, .nil, by simpa [hdata] using hbuf, hstate⟩
  · obtain ⟨b, hdata⟩ : ∃ b, d.data = [b] := List.length_eq_one_iff.mp (by omega)
    have hlen : (overwrite r.buf 0 [b]).length = buflen :=
      (length_overwrite (by simp; omega)).trans hbuf
    rw [hdata] at hpending ⊢
    rw [hpending]
    have hat' : At buflen (.length b 0 0) (⟨overwrite r.buf 0 [b], { r.trp with
        len := 0, state := r.trp.state + 1 }, source⟩ : ReaderNb σ) :=
      ⟨hlen, by simp [hstate], by simp [overwrite_zero], rfl, by norm_num, by norm_num, by simp⟩
    have hheader : (packetMachine buflen).step .header b = (.length b 0 0, none) := rfl
    apply wp_imp (src.readnbLength_answers hfive hat')
    intro rc t ht
    exact Answers.after (.single hheader) ht

/-- One call is one run of the machine on what the call consumed. -/
theorem mqttPacketReadnb_answers (hfive : 5 ≤ buflen) {q : Progress} {r : ReaderNb σ}
    (hat : At buflen q r) :
    wp (mqttPacketReadnb src.getfn) (src.Answers buflen q (src.pending r.source))
      (fun _ _ => False) r := by
  unfold mqttPacketReadnb
  simp only [wp_bind, wp_get]
  cases q with
  | header =>
    have hstate := hat.2
    simp only [hstate]
    exact src.readnbHeader_answers hfive hat
  | length first count value =>
    have hstate := hat.2.1
    simp only [hstate]
    exact src.readnbLength_answers hfive hat
  | body first size got =>
    have hstate := hat.2.1
    simp only [hstate]
    exact src.readnbBody_answers hat

/-- A result that is not "call again", with the packet and the position in a
stream of `total` bytes. -/
def observe (total : ℕ) (entry : ℤ × ReaderNb σ) : Option (ℕ × Shown) :=
  (emitted entry.1 entry.2).map fun shown =>
    (total - (src.pending entry.2.source).length, shown)

def observed (total : ℕ) (log : List (ℤ × ReaderNb σ)) : List (ℕ × Shown) :=
  log.filterMap (src.observe total)

/-- A run of calls shows what the machine shows on the bytes the run consumed. -/
theorem mqttPacketReadnbs_outputs (hfive : 5 ≤ buflen) {caller : Caller} (hpatient : caller.Patient)
    (total : ℕ) : ∀ (count k : ℕ) {q : Progress} {r : ReaderNb σ}, At buflen q r →
    (src.pending r.source).length ≤ total →
    wp (mqttPacketReadnbs src.getfn caller k count)
      (fun log t => ∃ xs, src.pending r.source = xs ++ src.pending t.source ∧
        src.observed total log =
          (packetMachine buflen).outputs (total - (src.pending r.source).length) q xs)
      (fun _ _ => False) r
  | 0, k, q, r, hat, _ => ⟨[], rfl, rfl⟩
  | count + 1, k, q, r, hat, htotal => by
    rw [mqttPacketReadnbs]
    simp only [wp_bind, wp_modify, wp_get, wp_pure]
    apply wp_imp (src.mqttPacketReadnb_answers hfive (hpatient.at_reuse k hat))
    rintro rc t ⟨xs, q', hxs, hlead, ht⟩
    dsimp only at hxs
    have hlen := congrArg List.length hxs
    rw [List.length_append] at hlen
    apply wp_imp (mqttPacketReadnbs_outputs hfive hpatient total count (k + 1) ht (by omega))
    rintro later u ⟨ys, hys, hlater⟩
    refine ⟨xs ++ ys, by rw [hxs, hys, List.append_assoc], ?_⟩
    have hposition : total - (src.pending r.source).length + xs.length =
        total - (src.pending t.source).length := by omega
    rw [Transducer.outputs_append, hlead.outputs_eq, hlead.final_eq, hposition, ← hlater]
    simp only [observed, List.filterMap_cons, observe]
    cases emitted rc t <;> rfl

/-- The state a reader starts a stream in. -/
structure Fresh (buflen : ℕ) (stream : List UInt8) (r : ReaderNb σ) : Prop where
  length_buf : r.buf.length = buflen
  state : r.trp.state = 0
  pending : src.pending r.source = stream

/-- The transport has been asked for one byte or more. -/
def Asked (s t : σ) : Prop := ∃ count, 0 < count ∧ t = (src.getfn count s).2

/-- However it is asked again and again, in the end the whole stream has been delivered. -/
def Delivers (s : σ) : Prop :=
  ∀ states : ℕ → σ, states 0 = s → (∀ k, src.Asked (states k) (states (k + 1))) →
    ∃ k, src.pending (states k) = []

/-- There cannot be an endless chain of requests with bytes pending at each. -/
theorem Delivers.acc {src : Chunks σ} {s : σ} (h : src.Delivers s) :
    Acc (fun t s => src.pending s ≠ [] ∧ src.Asked s t) s := by
  rw [acc_iff_isEmpty_descending_chain]
  constructor
  rintro ⟨states, hstart, hchain⟩
  obtain ⟨k, hk⟩ := h states hstart fun k => (hchain k).2
  exact (hchain k).1 hk

theorem pending_of_asked {src : Chunks σ} {s t : σ} (h : Relation.ReflTransGen src.Asked s t)
    (hdone : src.pending s = []) : src.pending t = [] := by
  induction h with
  | refl => exact hdone
  | @tail t u _ hask ih =>
    obtain ⟨count, -, rfl⟩ := hask
    have hsplit := (src.delivers count t).2
    rw [ih] at hsplit
    exact (List.append_eq_nil_iff.mp hsplit.symm).2

/-- How far the source of a reader has moved. -/
abbrev Onward (r t : ReaderNb σ) : Prop := Relation.ReflTransGen src.Asked r.source t.source

instance : Std.Refl src.Onward := ⟨fun _ => .refl⟩

instance : IsTrans (ReaderNb σ) src.Onward := ⟨fun _ _ _ h h' => h.trans h'⟩

theorem asked {count : ℕ} (hpos : 0 < count) (s : σ) :
    Relation.TransGen src.Asked s (src.getfn count s).2 := .single ⟨count, hpos, rfl⟩

theorem updateTrp_onward (f : MQTTTransport → MQTTTransport) :
    Moves src.Onward (updateTrp f) := fun _ => .refl

theorem exitNb_onward (rc : ℤ) : Moves src.Onward (exitNb rc : Prog (ReaderNb σ) ℤ) :=
  fun _ => .refl

theorem exitWithType_onward : Moves src.Onward (exitWithType : Prog (ReaderNb σ) ℤ) :=
  fun _ => .refl

theorem encodeIntoNb_onward (position length : ℕ) :
    Moves src.Onward (encodeIntoNb position length : Prog (ReaderNb σ) ℕ) := by
  intro r
  unfold wp encodeIntoNb
  cases encodeAt r.buf position length with
  | none => exact .refl
  | some encoded => exact .refl

theorem getIntoNb_bind_asked {α : Type} {position count : ℕ} {r : ReaderNb σ}
    {f : DeliveryNb count → Prog (ReaderNb σ) α} (hpos : 0 < count)
    (hf : ∀ d, Moves src.Onward (f d)) :
    wp (getIntoNb src.getfn position count >>= f)
      (fun _ t => Relation.TransGen src.Asked r.source t.source) (fun _ _ => True) r := by
  rw [wp_bind]
  unfold wp getIntoNb
  split_ifs
  · exact wp_mono (hf _ _) (fun _ _ h => (src.asked hpos r.source).trans_left h)
      fun _ _ _ => trivial
  · trivial

theorem getCharNb_bind_asked {α : Type} {r : ReaderNb σ}
    {f : DeliveryNb 1 → Prog (ReaderNb σ) α} (hf : ∀ d, Moves src.Onward (f d)) :
    wp (getCharNb src.getfn >>= f)
      (fun _ t => Relation.TransGen src.Asked r.source t.source) (fun _ _ => True) r := by
  rw [wp_bind, wp_getCharNb]
  exact wp_mono (hf _ _) (fun _ _ h => (src.asked Nat.one_pos r.source).trans_left h)
    fun _ _ _ => trivial

theorem readnbBody_onward : Moves src.Onward (readnbBody src.getfn) := by
  have hget (position count : ℕ) (hpos : 0 < count) :
      Moves src.Onward (getIntoNb src.getfn position count) := by
    intro r
    unfold wp getIntoNb
    split_ifs
    · exact (src.asked hpos r.source).to_reflTransGen
    · exact .refl
  refine .bind .get fun r => ?_
  by_cases hrem : r.trp.remLen ≠ 0
  · rw [if_pos hrem]
    refine .bind (hget _ _ (Nat.pos_of_ne_zero hrem)) fun d => ?_
    refine .ite (src.exitNb_onward _) (.ite (.pure _) ?_)
    refine .bind (src.updateTrp_onward _) fun _ => .bind .get fun r => ?_
    exact .ite (.pure _) src.exitWithType_onward
  · rw [if_neg hrem]
    exact src.exitWithType_onward

theorem decodenbLoop_onward (room : ℕ) : Moves src.Onward (decodenbLoop src.getfn room) := by
  induction room with
  | zero => exact .pure _
  | succ room ih =>
    have hget : Moves src.Onward (getCharNb src.getfn) :=
      fun r => (src.asked Nat.one_pos r.source).to_reflTransGen
    refine .bind hget fun d => .ite (.pure _) (.ite (.pure _) ?_)
    refine .bind (src.updateTrp_onward _) fun _ => .ite ih ?_
    exact .bind .get fun r => .pure _

theorem readnbLength_rest_onward (frc : ℤ) : Moves src.Onward (do
    if frc = mqttpacketReadError then exitNb (-1)
    else if frc = 0 then pure 0
    else
      let r ← get
      let n ← encodeIntoNb 1 r.trp.remLen
      updateTrp fun trp => { trp with len := 1 + n }
      let r ← get
      if r.buf.length < r.trp.remLen + r.trp.len then exitNb (-1)
      else
        updateTrp fun trp => { trp with state := trp.state + 1 }
        readnbBody src.getfn) := by
  refine .ite (src.exitNb_onward _) (.ite (.pure _) ?_)
  refine .bind .get fun r => .bind (src.encodeIntoNb_onward _ _) fun n => ?_
  refine .bind (src.updateTrp_onward _) fun _ => .bind .get fun r => ?_
  refine .ite (src.exitNb_onward _) ?_
  exact .bind (src.updateTrp_onward _) fun _ => src.readnbBody_onward

theorem readnbLength_onward : Moves src.Onward (readnbLength src.getfn) := by
  refine .bind ?_ src.readnbLength_rest_onward
  exact .bind (src.updateTrp_onward _) fun _ => .bind .get fun r => src.decodenbLoop_onward _

/-- While the field goes on a byte of it is asked for. -/
theorem mqttPacketDecodenb_asked {r : ReaderNb σ} (hlen : r.trp.len < 4) :
    wp (mqttPacketDecodenb src.getfn) (fun _ t => Relation.TransGen src.Asked r.source t.source)
      (fun _ _ => True) r := by
  have hcalls : maxNoOfRemainingLengthBytes - r.trp.len = (3 - r.trp.len) + 1 := by
    unfold maxNoOfRemainingLengthBytes
    omega
  unfold mqttPacketDecodenb
  rw [wp_bind, wp_updateTrp, wp_bind, wp_get, len_initOnFirstCall, hcalls, decodenbLoop]
  refine src.getCharNb_bind_asked (r := { r with trp := initOnFirstCall r.trp }) fun d => ?_
  refine .ite (.pure _) (.ite (.pure _) ?_)
  refine .bind (src.updateTrp_onward _) fun _ => .ite (src.decodenbLoop_onward _) ?_
  exact .bind .get fun r => .pure _

theorem readnbLength_asked {r : ReaderNb σ} (hlen : r.trp.len < 4) :
    wp (readnbLength src.getfn) (fun _ t => Relation.TransGen src.Asked r.source t.source)
      (fun _ _ => True) r := by
  unfold readnbLength
  rw [wp_bind]
  apply wp_mono (src.mqttPacketDecodenb_asked hlen) _ fun _ _ _ => trivial
  intro frc t ht
  apply wp_mono (src.readnbLength_rest_onward frc t) _ fun _ _ _ => trivial
  intro rc u hu
  exact ht.trans_left hu

theorem readnbHeader_asked (r : ReaderNb σ) :
    wp (readnbHeader src.getfn) (fun _ t => Relation.TransGen src.Asked r.source t.source)
      (fun _ _ => True) r := by
  refine src.getIntoNb_bind_asked Nat.one_pos fun d => ?_
  refine .ite (src.exitNb_onward _) (.ite (.pure _) ?_)
  exact .bind (src.updateTrp_onward _) fun _ => src.readnbLength_onward

theorem readnbBody_asked {r : ReaderNb σ} (hrem : r.trp.remLen ≠ 0) :
    wp (readnbBody src.getfn) (fun _ t => Relation.TransGen src.Asked r.source t.source)
      (fun _ _ => True) r := by
  unfold readnbBody
  rw [wp_bind, wp_get, if_pos hrem]
  refine src.getIntoNb_bind_asked (Nat.pos_of_ne_zero hrem) fun d => ?_
  refine .ite (src.exitNb_onward _) (.ite (.pure _) ?_)
  refine .bind (src.updateTrp_onward _) fun _ => .bind .get fun r => ?_
  exact .ite (.pure _) src.exitWithType_onward

/-- Every call asks the transport for a byte. -/
theorem mqttPacketReadnb_asked {q : Progress} {r : ReaderNb σ} (hat : At buflen q r) :
    wp (mqttPacketReadnb src.getfn) (fun _ t => Relation.TransGen src.Asked r.source t.source)
      (fun _ _ => True) r := by
  unfold mqttPacketReadnb
  rw [wp_bind, wp_get]
  cases q with
  | header =>
    rw [hat.2]
    exact src.readnbHeader_asked r
  | length first count value =>
    obtain ⟨-, hstate, -, hlen, hcount, -⟩ := hat
    rw [hstate]
    exact src.readnbLength_asked (hlen ▸ hcount)
  | body first size got =>
    obtain ⟨-, hstate, hgot, hrem, -⟩ := hat
    rw [hstate]
    exact src.readnbBody_asked (by omega)

theorem mqttPacketReadnbs_exhausted (hfive : 5 ≤ buflen) {caller : Caller}
    (hpatient : caller.Patient) (count k : ℕ) {q : Progress} {r : ReaderNb σ}
    (hat : At buflen q r) (hdone : src.pending r.source = []) :
    wp (mqttPacketReadnbs src.getfn caller k count) (fun _ t => src.pending t.source = [])
      (fun _ _ => False) r := by
  apply wp_imp (src.mqttPacketReadnbs_outputs hfive hpatient 0 count k hat (by simp [hdone]))
  rintro log t ⟨xs, hxs, -⟩
  rw [hdone] at hxs
  exact (List.append_eq_nil_iff.mp hxs.symm).2

/-- Where the transport delivers, enough calls take the whole stream. The
induction is on the requests that still find a byte. -/
theorem mqttPacketReadnbs_drains (hfive : 5 ≤ buflen) {caller : Caller}
    (hpatient : caller.Patient) {s : σ} (hdelivers : src.Delivers s) :
    ∀ (k : ℕ) {q : Progress} {r : ReaderNb σ}, At buflen q r → r.source = s →
      ∃ least, ∀ count ≥ least, wp (mqttPacketReadnbs src.getfn caller k count)
        (fun _ t => src.pending t.source = []) (fun _ _ => False) r := by
  suffices hlater : ∀ t, Relation.ReflTransGen src.Asked s t → ∀ (k : ℕ) {q : Progress}
      {r : ReaderNb σ}, At buflen q r → r.source = t →
      ∃ least, ∀ count ≥ least, wp (mqttPacketReadnbs src.getfn caller k count)
        (fun _ t => src.pending t.source = []) (fun _ _ => False) r from hlater s .refl
  have hacc := hdelivers.acc
  clear hdelivers
  induction hacc with
  | intro s _ ih =>
    intro t hst k q r hat hsource
    by_cases hdone : src.pending s = []
    · have hnone : src.pending r.source = [] := hsource ▸ pending_of_asked hst hdone
      exact ⟨0, fun count _ => src.mqttPacketReadnbs_exhausted hfive hpatient count k hat hnone⟩
    · rcases Relation.ReflTransGen.cases_head hst with rfl | ⟨s', hask, hrest⟩
      · have hturn := hpatient.at_reuse k hat
        obtain ⟨rc, u, hcall, ⟨-, q', -, -, hu⟩, hmoved⟩ := wp_total (wp_mono (wp_and
          (src.mqttPacketReadnb_answers hfive hturn) (src.mqttPacketReadnb_asked hturn))
          (fun _ _ h => h) fun _ _ h => h.1)
        rw [hsource] at hmoved
        obtain ⟨s', hask, hrest⟩ := Relation.TransGen.head'_iff.mp hmoved
        obtain ⟨least, hleast⟩ := ih s' ⟨hdone, hask⟩ u.source hrest (k + 1) hu rfl
        refine ⟨least + 1, fun count hcount => ?_⟩
        obtain ⟨count, rfl⟩ := Nat.exists_eq_add_of_le' (Nat.le_of_add_left_le hcount)
        rw [mqttPacketReadnbs]
        simp only [wp_bind, wp_modify, wp_get, wp_pure]
        rw [wp_ok hcall]
        exact hleast count (by omega)
      · exact ih s' ⟨hdone, hask⟩ t hrest k hat hsource

/-- Enough calls take the whole stream and show what the machine shows on it. -/
theorem mqttPacketReadnbs_machine (hfive : 5 ≤ buflen) {caller : Caller}
    (hpatient : caller.Patient) {stream : List UInt8} {r : ReaderNb σ}
    (hfresh : src.Fresh buflen stream r) (hdelivers : src.Delivers r.source) :
    ∃ least, ∀ count ≥ least, ∃ log t,
      mqttPacketReadnbs src.getfn caller 0 count r = .ok log t ∧ src.pending t.source = [] ∧
      src.observed stream.length log = (packetMachine buflen).outputs 0 .header stream := by
  have hat : At buflen .header r := ⟨hfresh.length_buf, hfresh.state⟩
  obtain ⟨least, hleast⟩ := src.mqttPacketReadnbs_drains hfive hpatient hdelivers 0 hat rfl
  refine ⟨least, fun count hcount => ?_⟩
  have hout := src.mqttPacketReadnbs_outputs hfive hpatient stream.length count 0 hat
    (by rw [hfresh.pending])
  obtain ⟨log, t, hrun, ⟨xs, hxs, hlog⟩, hdone⟩ := wp_total (wp_mono
    (wp_and hout (hleast count hcount)) (fun _ _ h => h) fun _ _ h => h.1)
  rw [hfresh.pending] at hxs hlog
  rw [Nat.sub_self] at hlog
  rw [hdone, List.append_nil] at hxs
  exact ⟨log, t, hrun, hdone, hxs ▸ hlog⟩

end Chunks

/-- The machine shows the frames of a stream, each at its last byte. -/
theorem outputs_frames {buflen : ℕ} {frames : List Frame} (hfits : ∀ f ∈ frames, f.size ≤ buflen)
    (htype : ∀ f ∈ frames, f.type ≠ 0) :
    (packetMachine buflen).outputs 0 .header (frames.flatMap Frame.bytes) =
      frames.mapIdx fun k f =>
        (((frames.take (k + 1)).flatMap Frame.bytes).length, ((f.type : ℤ), f.bytes)) := by
  have hleads : ∀ f ∈ frames, (packetMachine buflen).Leads .header f.bytes .header
      (some ((f.type : ℤ), f.bytes)) := by
    intro f hf
    have hne : ¬ MQTTHeader.type f.header = 0 := htype f hf
    have hlead := leads_frame (hfits f hf)
    rw [complete, if_neg hne] at hlead
    exact hlead
  simpa using Transducer.outputs_flatMap _ hleads 0

/-- What a call of the blocking reader shows when it has read `f`. -/
def Source.observe {σ : Type} (src : Source σ) (total : ℕ) (f : Frame) (entry : ℤ × Reader σ) :
    ℕ × Shown :=
  (total - (src.pending entry.2.source).length, (entry.1, entry.2.buf.take f.size))

theorem mqttPacketReads_observe {σ : Type} (src : Source σ) {buflen : ℕ} {frames : List Frame}
    (hfits : ∀ f ∈ frames, f.size ≤ buflen) {r : Reader σ} (hbuf : r.buf.length = buflen)
    (hpending : src.pending r.source = frames.flatMap Frame.bytes) :
    ∃ log t, mqttPacketReads src.getfn frames.length r = .ok log t ∧
      List.zipWith (src.observe (frames.flatMap Frame.bytes).length) frames log =
        frames.mapIdx fun k f =>
          (((frames.take (k + 1)).flatMap Frame.bytes).length, ((f.type : ℤ), f.bytes)) := by
  rw [← List.append_nil (frames.flatMap Frame.bytes)] at hpending
  obtain ⟨log, t, hrun, heach, hrest, -⟩ := wp_total (mqttPacketReads_frames src frames hpending
    (by simpa [hbuf] using hfits))
  have hlen := heach.length_eq
  refine ⟨log, t, hrun, List.ext_getElem (by simp [hlen]) fun k hk _ => ?_⟩
  simp only [List.length_zipWith, ← hlen, Nat.min_self] at hk
  obtain ⟨hrc, htake⟩ := heach.get hk (by omega)
  simp only [List.get_eq_getElem] at hrc htake
  have hsplit := congrArg List.length (congrArg (List.flatMap Frame.bytes)
    (List.take_append_drop (k + 1) frames))
  rw [List.flatMap_append, List.length_append] at hsplit
  simp only [List.getElem_zipWith, List.getElem_mapIdx, Source.observe, hrc, htake,
    hrest k (by omega), List.append_nil, Prod.mk.injEq, and_true]
  omega

/-- Two ways of cutting one stream into deliveries show the same results, packets
and positions, once enough calls have been made for the transports to deliver it;
on a stream of frames these are the packets that the blocking reader returns. -/
theorem mqttPacketReadnbs_chunking {σ₁ σ₂ σ : Type} (src₁ : Chunks σ₁) (src₂ : Chunks σ₂)
    {caller₁ caller₂ : Caller} (hpatient₁ : caller₁.Patient) (hpatient₂ : caller₂.Patient)
    {stream : List UInt8} {buflen : ℕ} (hfive : 5 ≤ buflen) {r₁ : ReaderNb σ₁} {r₂ : ReaderNb σ₂}
    (hfresh₁ : src₁.Fresh buflen stream r₁) (hfresh₂ : src₂.Fresh buflen stream r₂)
    (hdelivers₁ : src₁.Delivers r₁.source) (hdelivers₂ : src₂.Delivers r₂.source) :
    ∃ least₁ least₂, ∀ n₁ ≥ least₁, ∀ n₂ ≥ least₂, ∃ log₁ t₁ log₂ t₂,
      mqttPacketReadnbs src₁.getfn caller₁ 0 n₁ r₁ = .ok log₁ t₁ ∧
      mqttPacketReadnbs src₂.getfn caller₂ 0 n₂ r₂ = .ok log₂ t₂ ∧
      src₁.pending t₁.source = [] ∧ src₂.pending t₂.source = [] ∧
      src₁.observed stream.length log₁ = src₂.observed stream.length log₂ ∧
      ∀ frames, stream = frames.flatMap Frame.bytes → (∀ f ∈ frames, f.size ≤ buflen) →
        (∀ f ∈ frames, f.type ≠ 0) →
        ∀ (src : Source σ) (r : Reader σ), r.buf.length = buflen → src.pending r.source = stream →
          ∃ log t, mqttPacketReads src.getfn frames.length r = .ok log t ∧
            src₁.observed stream.length log₁ =
              List.zipWith (src.observe stream.length) frames log := by
  obtain ⟨least₁, hleast₁⟩ := src₁.mqttPacketReadnbs_machine hfive hpatient₁ hfresh₁ hdelivers₁
  obtain ⟨least₂, hleast₂⟩ := src₂.mqttPacketReadnbs_machine hfive hpatient₂ hfresh₂ hdelivers₂
  refine ⟨least₁, least₂, fun n₁ hn₁ n₂ hn₂ => ?_⟩
  obtain ⟨log₁, t₁, hrun₁, hdone₁, hout₁⟩ := hleast₁ n₁ hn₁
  obtain ⟨log₂, t₂, hrun₂, hdone₂, hout₂⟩ := hleast₂ n₂ hn₂
  refine ⟨log₁, t₁, log₂, t₂, hrun₁, hrun₂, hdone₁, hdone₂, hout₁.trans hout₂.symm, ?_⟩
  intro frames hstream hfits htype src r hbuf hpending
  obtain ⟨log, t, hrun, hobserve⟩ :=
    mqttPacketReads_observe src hfits hbuf (hpending.trans hstream)
  refine ⟨log, t, hrun, ?_⟩
  rw [hout₁, hstream, outputs_frames hfits htype, hobserve]

/-- The `k`-th delivery brings at most `schedule k` bytes. -/
def scheduled (schedule : ℕ → ℕ) : Chunks (ℕ × List UInt8) where
  getfn count s := (⟨.arrived (s.2.take (min (schedule s.1) count)) (by simp), by
    simp only [Delivery.arrived]
    omega⟩, (s.1 + 1, s.2.drop (min (schedule s.1) count)))
  pending := Prod.snd
  delivers := fun _ _ => ⟨rfl, (List.take_append_drop _ _).symm⟩

/-- A schedule that never stays at zero delivers. The induction is on the bytes
still to come, a round on the deliveries up to the next that brings one. -/
theorem scheduled_delivers {schedule : ℕ → ℕ} (hoften : ∀ k, ∃ j, 0 < schedule (k + j))
    (s : ℕ × List UInt8) : (scheduled schedule).Delivers s := by
  have hround : ∀ (n : ℕ) (states : ℕ → ℕ × List UInt8), (states 0).2.length ≤ n →
      (∀ k, (scheduled schedule).Asked (states k) (states (k + 1))) → ∃ k, (states k).2 = [] := by
    intro n
    induction n with
    | zero =>
      intro states hlen _
      exact ⟨0, List.length_eq_zero_iff.mp (Nat.le_zero.mp hlen)⟩
    | succ n ih =>
      intro states hlen hasked
      have hindex (k : ℕ) : (states k).1 = (states 0).1 + k := by
        induction k with
        | zero => rfl
        | succ k ihk =>
          obtain ⟨count, -, hnext⟩ := hasked k
          rw [hnext, ← Nat.add_assoc, ← ihk]
          rfl
      have hshorter : Antitone fun k => (states k).2.length := by
        refine antitone_nat_of_succ_le fun k => ?_
        obtain ⟨count, -, hnext⟩ := hasked k
        rw [hnext]
        exact (List.drop_sublist _ _).length_le
      obtain ⟨j, hj⟩ := hoften (states 0).1
      by_cases hempty : (states j).2 = []
      · exact ⟨j, hempty⟩
      · obtain ⟨count, hpos, hnext⟩ := hasked j
        have hfew : (states (j + 1)).2.length < (states j).2.length := by
          have hsome := List.length_pos_iff.mpr hempty
          rw [hnext]
          simp only [scheduled, hindex j, List.length_drop]
          omega
        have hbefore : (states j).2.length ≤ (states 0).2.length := hshorter (Nat.zero_le j)
        obtain ⟨k, hk⟩ := ih (fun k => states (j + 1 + k)) (by rw [Nat.add_zero]; omega)
          fun k => hasked (j + 1 + k)
        exact ⟨j + 1 + k, hk⟩
  intro states _ hasked
  exact hround _ states le_rfl hasked

/-- A caller that never touches the buffer. -/
def Caller.idle : Caller := ⟨fun _ _ buf => buf, fun _ _ _ => rfl⟩

/-- A SUBACK and a PINGRESP. -/
def subackPingresp : List Frame := [⟨0x90, [0, 7, 1], by decide⟩, ⟨0xD0, [], by decide⟩]

theorem mqttPacketReadnbs_bytewise :
    ∃ least₁ least₂, ∀ n₁ ≥ least₁, ∀ n₂ ≥ least₂, ∃ log₁ t₁ log₂ t₂,
      mqttPacketReadnbs (scheduled fun _ => 1).getfn Caller.idle 0 n₁
        ⟨List.replicate 8 0, ⟨0, 0, 0, 0⟩, 0, [0x90, 3, 0, 7, 1, 0xD0, 0]⟩ = .ok log₁ t₁ ∧
      mqttPacketReadnbs (scheduled fun k => k % 3).getfn Caller.idle 0 n₂
        ⟨List.replicate 8 0, ⟨0, 0, 0, 0⟩, 0, [0x90, 3, 0, 7, 1, 0xD0, 0]⟩ = .ok log₂ t₂ ∧
      (scheduled fun _ => 1).observed 7 log₁ =
        [(5, 9, [0x90, 3, 0, 7, 1]), (7, 13, [0xD0, 0])] ∧
      (scheduled fun k => k % 3).observed 7 log₂ =
        [(5, 9, [0x90, 3, 0, 7, 1]), (7, 13, [0xD0, 0])] := by
  have hpatient : Caller.idle.Patient := fun _ _ _ _ => rfl
  have hfresh (schedule : ℕ → ℕ) : (scheduled schedule).Fresh 8 [0x90, 3, 0, 7, 1, 0xD0, 0]
    ⟨List.replicate 8 0, ⟨0, 0, 0, 0⟩, 0, [0x90, 3, 0, 7, 1, 0xD0, 0]⟩ := ⟨rfl, rfl, rfl⟩
  have honce (k : ℕ) : ∃ j, 0 < (fun _ => 1 : ℕ → ℕ) (k + j) := ⟨0, Nat.one_pos⟩
  have hthird (k : ℕ) : ∃ j, 0 < (fun k => k % 3 : ℕ → ℕ) (k + j) := ⟨2 * k + 1, by
    dsimp only
    omega⟩
  obtain ⟨least₁, least₂, hleast⟩ := mqttPacketReadnbs_chunking (scheduled fun _ => 1)
    (scheduled fun k => k % 3) hpatient hpatient (by decide) (hfresh fun _ => 1)
    (hfresh fun k => k % 3) (scheduled_delivers honce _) (scheduled_delivers hthird _)
  refine ⟨least₁, least₂, fun n₁ hn₁ n₂ hn₂ => ?_⟩
  obtain ⟨log₁, t₁, log₂, t₂, hrun₁, hrun₂, -, -, hsame, hframes⟩ := hleast n₁ hn₁ n₂ hn₂
  obtain ⟨log, t, hrun, hshown⟩ := hframes subackPingresp (by decide) (by decide) (by decide)
    exactSource ⟨List.replicate 8 0, [0x90, 3, 0, 7, 1, 0xD0, 0]⟩ rfl rfl
  have hread : List.zipWith (exactSource.observe 7) subackPingresp log =
      [(5, 9, [0x90, 3, 0, 7, 1]), (7, 13, [0xD0, 0])] := by
    refine wp_result (E := fun _ _ => False) (Q := fun log _ => List.zipWith (exactSource.observe 7)
      subackPingresp log = [(5, 9, [0x90, 3, 0, 7, 1]), (7, 13, [0xD0, 0])]) ?_ hrun
    decide +kernel
  have hfirst := hshown.trans hread
  exact ⟨log₁, t₁, log₂, t₂, hrun₁, hrun₂, hfirst, hsame.symm.trans hfirst⟩

end MqttEmbedded
