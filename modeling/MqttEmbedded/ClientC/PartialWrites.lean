import MqttEmbedded.ClientC.Operations
import MqttEmbedded.Lib.Lockstep

/-!
# A packet written in parts

In every round `sendPacket` of the C client asks for the whole `length`, from where the last
write has stopped. A write that accepts a part of the packet is therefore followed by one
that offers bytes from behind it. Nothing is wrong as long as no write follows: the writes
before the last one have accepted nothing.
-/

namespace MqttEmbedded

open Hoare

variable {ω τ H α : Type}

/-- A call of `mqttwrite`: what can be read from the pointer on, the count that is asked for
and what is returned. -/
structure Write where
  buffer : List UInt8
  count : ℕ
  rc : ℤ

/-- The bytes that the transport has accepted. -/
def accepted (writes : List Write) : List UInt8 :=
  writes.flatMap fun w => w.buffer.take w.rc.toNat

theorem accepted_nil : accepted [] = [] := rfl

theorem accepted_cons (w : Write) (ws : List Write) :
    accepted (w :: ws) = w.buffer.take w.rc.toNat ++ accepted ws := rfl

/-- No byte is offered from index `length` of `buf` on. -/
def Write.Inside (buf : List UInt8) (length : ℕ) (w : Write) : Prop :=
  buf.length - w.buffer.length + w.count ≤ length

/-- Ask the world and leave the record alone. -/
def besideRecord (f : ω → α × ω) (s : ω × List Write) : α × (ω × List Write) :=
  ((f s.1).1, (f s.1).2, s.2)

/-- The same platform, with a record of the writes. -/
def Platform.recording (p : Platform ω τ H) : Platform (ω × List Write) τ H where
  mqttread := fun len timeout => besideRecord (p.mqttread len timeout)
  mqttwrite := fun buffer len timeout s =>
    ((p.mqttwrite buffer len timeout s.1).1, (p.mqttwrite buffer len timeout s.1).2,
      s.2 ++ [⟨buffer, len, (p.mqttwrite buffer len timeout s.1).1⟩])
  timerInit := besideRecord p.timerInit
  timerIsExpired := fun timer => besideRecord (p.timerIsExpired timer)
  timerCountdownMS := fun timer ms => besideRecord (p.timerCountdownMS timer ms)
  timerCountdown := fun timer seconds => besideRecord (p.timerCountdown timer seconds)
  timerLeftMS := fun timer => besideRecord (p.timerLeftMS timer)
  invoke := fun fp md s => (p.invoke fp md s.1, s.2)

namespace ClientC

variable {p : Platform ω τ H} {length fuel : ℕ} {timer : τ}

/-- The client at the beginning of a record. -/
def unrecorded (s : Client ω τ H) : Client (ω × List Write) τ H :=
  ⟨s.client, s.own, (s.world, [])⟩

/-- The writes of a call of `sendPacket`, in their order. -/
def writes (p : Platform ω τ H) (fuel length : ℕ) (timer : τ) (s : Client ω τ H) : List Write :=
  match sendPacket p.recording fuel length timer (unrecorded s) with
  | .ok _ t => t.world.2
  | .error _ t => t.world.2

/-- A client with its record. -/
def Recorded (s : Client ω τ H) (t : Client (ω × List Write) τ H) : Prop :=
  t.client = s.client ∧ t.world.1 = s.world

theorem ask_recorded {f : ω → α × ω} {g : ω × List Write → α × (ω × List Write)}
    (h : ∀ s, (g s).1 = (f s.1).1 ∧ (g s).2.1 = (f s.1).2) :
    Lockstep (Recorded (H := H) (τ := τ)) (fun _ => Recorded) Recorded (ask f) (ask g) := by
  intro s t hs
  obtain ⟨hclient, hworld⟩ := hs
  obtain ⟨hvalue, hnext⟩ := h t.world
  rw [hworld] at hvalue hnext
  unfold ask
  rw [hvalue]
  exact .ok ⟨hclient, hnext⟩

theorem getClient_recorded :
    Lockstep (Recorded (H := H) (τ := τ) (ω := ω)) (fun _ => Recorded) Recorded
      (getClient : Prog _ (MQTTClient τ H)) getClient := by
  intro s t hs
  unfold getClient
  rw [hs.1]
  exact .ok hs

theorem modifyClient_recorded (f : MQTTClient τ H → MQTTClient τ H) :
    Lockstep (Recorded (ω := ω)) (fun _ => Recorded) Recorded (modifyClient f)
      (modifyClient f) := by
  intro s t hs
  exact .ok ⟨congrArg f hs.1, hs.2⟩

theorem sendLoop_recorded : ∀ fuel sent : ℕ,
    Lockstep (Recorded (H := H)) (fun _ => Recorded) Recorded (sendLoop p length timer fuel sent)
      (sendLoop p.recording length timer fuel sent)
  | 0, _ => fun _ _ hs => .error hs
  | fuel + 1, sent => by
    refine .ite (fun _ => ?_) fun _ => .pure fun _ _ hs => hs
    refine .bind (ask_recorded fun _ => ⟨rfl, rfl⟩) fun expired => ?_
    refine .ite (fun _ => .pure fun _ _ hs => hs) fun _ => ?_
    refine .bind (ask_recorded fun _ => ⟨rfl, rfl⟩) fun left => ?_
    refine .bind getClient_recorded fun c => ?_
    refine .bind (ask_recorded fun _ => ⟨rfl, rfl⟩) fun rc => ?_
    exact .ite (fun _ => .pure fun _ _ hs => hs) fun _ => sendLoop_recorded fuel _

theorem sendPacket_recorded :
    Lockstep (Recorded (H := H)) (fun _ => Recorded) Recorded (sendPacket p fuel length timer)
      (sendPacket p.recording fuel length timer) := by
  refine .bind (sendLoop_recorded fuel 0) fun sent => ?_
  refine .ite (fun _ => ?_) fun _ => .pure fun _ _ hs => hs
  refine .bind getClient_recorded fun c => ?_
  refine .bind (ask_recorded fun _ => ⟨rfl, rfl⟩) fun lastSent => ?_
  exact .bind (modifyClient_recorded _) fun _ => .pure fun _ _ hs => hs

/-- From one value of `sent` on, the writes and the value of `sent` after them. -/
inductive Rounds (buf : List UInt8) (length : ℕ) : ℕ → List Write → ℕ → Prop
  | stop (sent : ℕ) : Rounds buf length sent [] sent
  | failed {sent : ℕ} {rc : ℤ} (hsent : sent < length) (hrc : rc < 0) :
      Rounds buf length sent [⟨buf.drop sent, length, rc⟩] sent
  | round {sent n last : ℕ} {ws : List Write} (hsent : sent < length) (hn : n ≤ length)
      (rest : Rounds buf length (sent + n) ws last) :
      Rounds buf length sent (⟨buf.drop sent, length, n⟩ :: ws) last

theorem sendLoop_succ {ω : Type} (p : Platform ω τ H) (fuel sent : ℕ) (s : Client ω τ H) :
    sendLoop p length timer (fuel + 1) sent s =
      if sent < length then
        let expired := p.timerIsExpired timer s.world
        let left := p.timerLeftMS timer expired.2
        let rc := p.mqttwrite (s.client.buf.drop sent) length left.1 left.2
        if expired.1 then .ok sent { s with world := expired.2 }
        else if rc.1 < 0 then .ok sent { s with world := rc.2 }
        else sendLoop p length timer fuel (sent + rc.1.toNat) { s with world := rc.2 }
      else .ok sent s := by
  rw [sendLoop]
  split_ifs with hsent
  · by_cases hexpired : (p.timerIsExpired timer s.world).1 = true
    · simp only [bind, EStateM.bind, ask, if_pos hexpired]
      rfl
    · simp only [bind, EStateM.bind, ask, getClient, if_neg hexpired]
      split_ifs
      · rfl
      · rfl
  · rfl

/-- The loop ends after some rounds, or has used up its fuel in them and would go on from
there. -/
theorem sendLoop_rounds
    (hrc : ∀ buffer count timeout w, (p.mqttwrite buffer count timeout w).1 ≤ count) :
    ∀ (fuel sent : ℕ) (s : Client (ω × List Write) τ H), ∃ ws last w,
      Rounds s.client.buf length sent ws last ∧
      (sendLoop p.recording length timer fuel sent s =
          .ok last { s with world := (w, s.world.2 ++ ws) } ∨
        sendLoop p.recording length timer fuel sent s =
            .error .outOfFuel { s with world := (w, s.world.2 ++ ws) } ∧
          sendLoop p.recording length timer (fuel + 1) sent s =
            sendLoop p.recording length timer 1 last { s with world := (w, s.world.2 ++ ws) })
  | 0, sent, s => by
    refine ⟨[], sent, s.world.1, .stop sent, .inr ?_⟩
    rw [List.append_nil]
    exact ⟨rfl, rfl⟩
  | fuel + 1, sent, s => by
    obtain ⟨client, own, w, log⟩ := s
    by_cases hsent : sent < length
    · generalize hexpired : p.timerIsExpired timer w = expired
      generalize hleft : p.timerLeftMS timer expired.2 = left
      generalize hresult : p.mqttwrite (client.buf.drop sent) length left.1 left.2 = result
      have hround (k : ℕ) : sendLoop p.recording length timer (k + 1) sent ⟨client, own, w, log⟩ =
          if expired.1 then .ok sent ⟨client, own, expired.2, log⟩
          else if result.1 < 0 then .ok sent ⟨client, own, result.2,
            log ++ [⟨client.buf.drop sent, length, result.1⟩]⟩
          else sendLoop p.recording length timer k (sent + result.1.toNat)
            ⟨client, own, result.2, log ++ [⟨client.buf.drop sent, length, result.1⟩]⟩ := by
        rw [sendLoop_succ, if_pos hsent, ← hresult, ← hleft, ← hexpired]
        rfl
      rw [hround (fuel + 1), hround fuel]
      by_cases hover : expired.1 = true
      · refine ⟨[], sent, expired.2, .stop sent, .inl ?_⟩
        rw [if_pos hover, List.append_nil]
      rw [if_neg hover, if_neg hover]
      by_cases hneg : result.1 < 0
      · refine ⟨_, sent, result.2, .failed hsent hneg, .inl ?_⟩
        rw [if_pos hneg]
      rw [if_neg hneg, if_neg hneg]
      obtain ⟨n, hn⟩ := Int.eq_ofNat_of_zero_le (not_lt.mp hneg)
      have hle : n ≤ length := by
        have := hrc (client.buf.drop sent) length left.1 left.2
        rw [hresult, hn] at this
        omega
      rw [hn, Int.toNat_natCast]
      obtain ⟨ws, last, w', hrounds, hends⟩ := sendLoop_rounds hrc fuel (sent + n)
        ⟨client, own, result.2, log ++ [⟨client.buf.drop sent, length, n⟩]⟩
      simp only [List.append_assoc, List.singleton_append] at hends
      exact ⟨_, last, w', .round hsent hle hrounds, hends⟩
    · refine ⟨[], sent, w, .stop sent, .inl ?_⟩
      rw [sendLoop_succ, if_neg hsent, List.append_nil]

theorem sendPacket_of_ok {s t : Client (ω × List Write) τ H} {last : ℕ}
    (h : sendLoop p.recording length timer fuel 0 s = .ok last t) :
    ∃ t', sendPacket p.recording fuel length timer s =
        .ok (if last = length then success else failure) t' ∧ t'.world.2 = t.world.2 := by
  unfold sendPacket
  simp only [bind, EStateM.bind, h]
  split_ifs
  · exact ⟨_, rfl, rfl⟩
  · exact ⟨_, rfl, rfl⟩

theorem sendPacket_of_error {s t : Client (ω × List Write) τ H} {e : Fault}
    (h : sendLoop p.recording length timer fuel 0 s = .error e t) :
    sendPacket p.recording fuel length timer s = .error e t := by
  unfold sendPacket
  simp only [bind, EStateM.bind, h]

variable (length timer) in
/-- What the rounds make of a call: its result, or what it would come to with more fuel. -/
theorem writes_rounds
    (hrc : ∀ buffer count timeout w, (p.mqttwrite buffer count timeout w).1 ≤ count)
    (fuel : ℕ) (s : Client ω τ H) :
    ∃ last, Rounds s.client.buf length 0 (writes p fuel length timer s) last ∧
      ((∃ t, sendPacket p fuel length timer s =
          .ok (if last = length then success else failure) t) ∨
        (∃ t, sendPacket p fuel length timer s = .error .outOfFuel t) ∧
          (last = length → ∃ t, sendPacket p (fuel + 1) length timer s = .ok success t)) := by
  have hs : Recorded s (unrecorded s) := ⟨rfl, rfl⟩
  obtain ⟨ws, last, w, hrounds, hends⟩ :
      ∃ ws last w, Rounds s.client.buf length 0 ws last ∧ _ :=
    sendLoop_rounds hrc fuel 0 (unrecorded s)
  obtain hloop | ⟨hloop, hmore⟩ := hends
  · obtain ⟨t, hcall, hrecord⟩ := sendPacket_of_ok hloop
    obtain ⟨t', hcall', -⟩ := sendPacket_recorded.value_left hs hcall
    have hwrites : writes p fuel length timer s = ws := by
      rw [writes, hcall]
      exact hrecord
    rw [hwrites]
    exact ⟨last, hrounds, .inl ⟨t', hcall'⟩⟩
  · have hcall := sendPacket_of_error hloop
    obtain ⟨t', hcall', -⟩ := sendPacket_recorded.fault_left hs hcall
    have hwrites : writes p fuel length timer s = ws := by
      rw [writes, hcall]
      rfl
    rw [hwrites]
    refine ⟨last, hrounds, .inr ⟨⟨t', hcall'⟩, fun hlast => ?_⟩⟩
    have hdone (t : Client (ω × List Write) τ H) :
        sendLoop p.recording length timer 1 last t = .ok last t := by
      rw [sendLoop_succ, if_neg (by omega)]
    obtain ⟨t, hcall, -⟩ := sendPacket_of_ok (hmore.trans (hdone _))
    rw [if_pos hlast] at hcall
    obtain ⟨t'', hcall'', -⟩ := sendPacket_recorded.value_left hs hcall
    exact ⟨t'', hcall''⟩

section

variable {buf : List UInt8} {ws : List Write} {sent last : ℕ}

/-- A write from behind the start offers what is behind the packet. -/
theorem Rounds.nil_of_inside (h : Rounds buf length sent ws last) (hbuf : length ≤ buf.length)
    (hpos : 0 < sent) (hinside : ∀ w ∈ ws, w.Inside buf length) : ws = [] := by
  cases h with
  | stop => rfl
  | failed hsent hneg =>
    have hhead := hinside _ List.mem_cons_self
    simp only [Write.Inside, List.length_drop] at hhead
    omega
  | round hsent hn rest =>
    have hhead := hinside _ List.mem_cons_self
    simp only [Write.Inside, List.length_drop] at hhead
    omega

/-- The writes before the last one have accepted nothing. -/
def OnlyLastAccepts (ws : List Write) : Prop := ∀ w ∈ ws.dropLast, w.rc = 0

theorem Rounds.onlyLast (h : Rounds buf length sent ws last) (hbuf : length ≤ buf.length)
    (hzero : sent = 0) (hinside : ∀ w ∈ ws, w.Inside buf length) : OnlyLastAccepts ws := by
  induction h with
  | stop => exact fun w hw => by cases hw
  | failed => exact fun w hw => by cases hw
  | @round sent n last ws hsent hn rest ih =>
    have htail : ∀ w ∈ ws, w.Inside buf length := fun w hw => hinside w (List.mem_cons_of_mem _ hw)
    by_cases hn : n = 0
    · intro w hw
      cases ws with
      | nil => cases hw
      | cons next ws =>
        obtain rfl | hmem := List.mem_cons.mp hw
        · exact congrArg Nat.cast hn
        · exact ih (by omega) htail w hmem
    · obtain rfl := rest.nil_of_inside hbuf (by omega) htail
      exact fun w hw => by cases hw

/-- Then every write offers the packet, and what has been accepted is its beginning. -/
theorem Rounds.accepted_eq (h : Rounds buf length sent ws last) (hzero : sent = 0)
    (hlast : OnlyLastAccepts ws) : last ≤ length ∧ (∀ w ∈ ws, w.Inside buf length) ∧
      accepted ws = buf.take last ∧ ∀ pre, pre <+: ws → accepted pre <+: buf.take length := by
  induction h with
  | stop sent =>
    subst hzero
    refine ⟨Nat.zero_le _, fun w hw => ?_, rfl, fun pre hpre => ?_⟩
    · cases hw
    · rw [List.prefix_nil.mp hpre]
      exact List.nil_prefix
  | @failed sent rc hsent hneg =>
    subst hzero
    have hnone : rc.toNat = 0 := by omega
    refine ⟨Nat.zero_le _, fun w hw => ?_, ?_, fun pre hpre => ?_⟩
    · obtain rfl := List.mem_singleton.mp hw
      simp [Write.Inside]
    · simp [accepted_cons, hnone, accepted_nil]
    · obtain rfl | ⟨pre, rfl, hnil⟩ := List.prefix_cons_iff.mp hpre
      · exact List.nil_prefix
      · rw [List.prefix_nil.mp hnil, accepted_cons]
        simp [hnone, accepted_nil]
  | @round sent n last ws hsent hn rest ih =>
    subst hzero
    have hhead : (⟨buf.drop 0, length, n⟩ : Write).Inside buf length := by simp [Write.Inside]
    cases ws with
    | nil =>
      cases rest
      rw [Nat.zero_add]
      refine ⟨hn, fun w hw => ?_, ?_, fun pre hpre => ?_⟩
      · obtain rfl := List.mem_singleton.mp hw
        exact hhead
      · simp [accepted_cons, accepted_nil]
      · obtain rfl | ⟨pre, rfl, hnil⟩ := List.prefix_cons_iff.mp hpre
        · exact List.nil_prefix
        · rw [List.prefix_nil.mp hnil, accepted_cons]
          simpa [accepted_nil] using List.take_prefix_take_left hn
    | cons next ws =>
      have hn : n = 0 := by
        have hrc := hlast _ List.mem_cons_self
        exact Int.natCast_eq_zero.mp hrc
      subst hn
      obtain ⟨hle, hinside, haccepted, halways⟩ := ih rfl fun w hw =>
        hlast w (List.mem_cons_of_mem _ hw)
      refine ⟨hle, fun w hw => ?_, ?_, fun pre hpre => ?_⟩
      · obtain rfl | hmem := List.mem_cons.mp hw
        · exact hhead
        · exact hinside w hmem
      · rw [accepted_cons, haccepted]
        rfl
      · obtain rfl | ⟨pre, rfl, htail⟩ := List.prefix_cons_iff.mp hpre
        · exact List.nil_prefix
        · exact halways pre htail

end

/-- What is wanted of a call: where its writes are, what has been accepted at any moment, and
when it succeeds. -/
structure SendsExactly (p : Platform ω τ H) (fuel length : ℕ) (timer : τ) (s : Client ω τ H) :
    Prop where
  inside : ∀ w ∈ writes p fuel length timer s, w.Inside s.client.buf length
  always : ∀ pre, pre <+: writes p fuel length timer s →
    accepted pre <+: s.client.buf.take length
  result : ∀ rc t, sendPacket p fuel length timer s = .ok rc t →
    (rc = success ↔ accepted (writes p fuel length timer s) = s.client.buf.take length)
  returns : ∀ t, sendPacket p fuel length timer s = .error .outOfFuel t →
    accepted (writes p fuel length timer s) = s.client.buf.take length →
    ∃ t', sendPacket p (fuel + 1) length timer s = .ok success t'

/-- Whatever the transport answers and whenever the timer expires, the packet is what is sent
if and only if no write has accepted anything and been followed by another one. -/
theorem sendPacket_sendsExactly (p : Platform ω τ H)
    (hrc : ∀ buffer count timeout w, (p.mqttwrite buffer count timeout w).1 ≤ count)
    (fuel length : ℕ) (timer : τ) (s : Client ω τ H) (hbuf : length ≤ s.client.buf.length) :
    SendsExactly p fuel length timer s ↔ OnlyLastAccepts (writes p fuel length timer s) := by
  obtain ⟨last, hrounds, hends⟩ := writes_rounds length timer hrc fuel s
  constructor
  · exact fun h => hrounds.onlyLast hbuf rfl h.inside
  · intro hlast
    obtain ⟨hle, hinside, haccepted, halways⟩ := hrounds.accepted_eq rfl hlast
    have hall : accepted (writes p fuel length timer s) = s.client.buf.take length ↔
        last = length := by
      rw [haccepted]
      constructor
      · intro heq
        have hlen := congrArg List.length heq
        rw [List.length_take, List.length_take] at hlen
        omega
      · rintro rfl
        rfl
    refine ⟨hinside, halways, ?_, ?_⟩
    · intro rc t hok
      obtain ⟨t', hcall⟩ | ⟨⟨t', hcall⟩, -⟩ := hends
      · rw [hok] at hcall
        obtain ⟨rfl, -⟩ := EStateM.Result.ok.inj hcall
        rw [hall]
        split_ifs with hsent
        · exact iff_of_true rfl hsent
        · exact iff_of_false (by decide) hsent
      · rw [hok] at hcall
        cases hcall
    · intro t herror hfull
      obtain ⟨t', hcall⟩ | ⟨-, hmore⟩ := hends
      · rw [herror] at hcall
        cases hcall
      · exact hmore (hall.mp hfull)

/-- A transport that accepts these numbers of bytes, write after write, if it is offered as
many. -/
def partsPlatform : Platform (List ℕ) Unit Unit where
  mqttread := fun _ _ parts => (.failed (-1) Delivery.error_nonpos, parts)
  mqttwrite := fun _ len _ parts => (min (parts.headD 0) len, parts.tail)
  timerInit := fun parts => ((), parts)
  timerIsExpired := fun _ parts => (false, parts)
  timerCountdownMS := fun _ _ parts => ((), parts)
  timerCountdown := fun _ _ parts => ((), parts)
  timerLeftMS := fun _ parts => (1000, parts)
  invoke := fun _ _ parts => parts

theorem partsPlatform_accepts (buffer : List UInt8) (count : ℕ) (timeout : ℤ) (parts : List ℕ) :
    (partsPlatform.mqttwrite buffer count timeout parts).1 ≤ count :=
  min_le_right _ _

/-- A client with eight bytes in its buffer. -/
def sender (parts : List ℕ) : Client (List ℕ) Unit Unit where
  client := {
    nextPacketid := 1
    commandTimeoutMs := 1000
    buf := [1, 2, 3, 4, 5, 6, 7, 8]
    readbuf := []
    keepAliveInterval := 0
    pingOutstanding := false
    isconnected := true
    cleansession := true
    messageHandlers := []
    defaultMessageHandler := none
    lastSent := ()
    lastReceived := () }
  own := ()
  world := parts

/-- Nothing in the first write and four bytes in the second one. -/
theorem sendPacket_sendsExactly_whole :
    SendsExactly partsPlatform 3 4 () (sender [0, 4]) := by
  refine (sendPacket_sendsExactly partsPlatform partsPlatform_accepts 3 4 () (sender [0, 4])
    (by decide)).mpr ?_
  have hwrites : writes partsPlatform 3 4 () (sender [0, 4]) =
      [⟨[1, 2, 3, 4, 5, 6, 7, 8], 4, 0⟩, ⟨[1, 2, 3, 4, 5, 6, 7, 8], 4, 4⟩] := rfl
  rw [hwrites]
  intro w hw
  rw [List.mem_singleton.mp (show w ∈ [_] from hw)]

/-- Two bytes in the first write and four in the second one: the bytes 5 and 6 are sent, and
the call fails. -/
theorem sendPacket_not_sendsExactly :
    ¬ SendsExactly partsPlatform 3 4 () (sender [2, 4]) := by
  intro h
  have hwrites : writes partsPlatform 3 4 () (sender [2, 4]) =
      [⟨[1, 2, 3, 4, 5, 6, 7, 8], 4, 2⟩, ⟨[3, 4, 5, 6, 7, 8], 4, 4⟩] := rfl
  have hinside := h.inside
  rw [hwrites] at hinside
  have hsecond : Write.Inside [1, 2, 3, 4, 5, 6, 7, 8] 4 ⟨[3, 4, 5, 6, 7, 8], 4, 4⟩ :=
    hinside _ (List.mem_cons_of_mem _ List.mem_cons_self)
  exact absurd hsecond (by unfold Write.Inside; decide)

end ClientC
end MqttEmbedded
