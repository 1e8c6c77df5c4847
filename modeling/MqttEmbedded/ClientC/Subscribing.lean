import MqttEmbedded.Packet.SubackCodec
import MqttEmbedded.ClientC.Outcomes

/-!
# What a subscription reports

The first SUBACK that is read ends the wait, and its code decides what `MQTTSubscribe`
reports. A refusal is compared with 0x80, but the code has come through a `char` that is
signed, so that no code is taken for a refusal: the handler is set and success returned.
-/

namespace MqttEmbedded

open Region Hoare

/-- A SUBACK with this identifier and these codes is in the receive buffer. -/
def Receipt.Answers (r : Receipt) (id : UInt16) (codes : List UInt8) : Prop :=
  r.packetType = MsgType.suback.code ∧ ∃ (w : WireFrame) (tail : List UInt8),
    r.readbuf = w.bytes ++ tail ∧ w.type = MsgType.suback.code ∧
      w.body = intBytes id.toNat ++ codes

theorem Receipt.Answers.decode {r : Receipt} {id : UInt16} {codes : List UInt8}
    (h : r.Answers id codes) : mqttDeserializeSuback r.readbuf 1 1 =
      if codes.length ≤ 1 then some (1, some id.toNat, codes.map signedChar) else none := by
  obtain ⟨-, w, tail, hbuf, htype, hbody⟩ := h
  rw [hbuf]
  exact mqttDeserializeSuback_frame 1 htype hbody tail

theorem signedChar_injective : Function.Injective signedChar := by
  intro code code' h
  have hlt := code.toNat_lt
  have hlt' := code'.toNat_lt
  unfold signedChar at h
  apply UInt8.toNat_inj.mp
  split_ifs at h <;> omega

theorem signedChar_ne_refusal (code : UInt8) : signedChar code ≠ 0x80 := by
  have hlt := code.toNat_lt
  unfold signedChar
  split_ifs <;> omega

section

variable {H : Type} {slots : List (MessageHandler H)} {topicFilter : CString} {fp : H} {i : ℕ}

/-- A slot is free or holds the filter already. -/
def RoomFor (slots : List (MessageHandler H)) (topicFilter : CString) : Prop :=
  ∃ slot ∈ slots, slot.topicFilter = some topicFilter ∨ slot.topicFilter = none

/-- The slot of the filter holds the handler. -/
def MapsTo (slots : List (MessageHandler H)) (topicFilter : CString) (fp : H) : Prop :=
  (slots.find? fun slot => slot.topicFilter = some topicFilter).bind MessageHandler.fp = some fp

instance [DecidableEq H] (slots : List (MessageHandler H)) (topicFilter : CString) (fp : H) :
    Decidable (MapsTo slots topicFilter fp) := inferInstanceAs (Decidable (_ = _))

theorem mapsTo_set (hi : i < slots.length)
    (hbefore : ∀ (j : ℕ) (hj : j < i), slots[j].topicFilter ≠ some topicFilter) :
    MapsTo (slots.set i ⟨some topicFilter, some fp⟩) topicFilter fp := by
  have hfind : (slots.set i ⟨some topicFilter, some fp⟩).find?
      (fun slot => slot.topicFilter = some topicFilter) = some ⟨some topicFilter, some fp⟩ := by
    rw [List.find?_eq_some_iff_getElem]
    refine ⟨by simp, i, by simpa using hi, by simp, fun j hj => ?_⟩
    have hne : i ≠ j := by omega
    rw [List.getElem_set_ne hne]
    simpa using hbefore j hj
  rw [MapsTo, hfind]
  rfl

theorem setMessageHandler_room (h : RoomFor slots topicFilter) (fp : H) :
    ∃ slots', setMessageHandler slots topicFilter (some fp) = (success, slots') ∧
      MapsTo slots' topicFilter fp := by
  unfold setMessageHandler
  cases hfind : slots.findIdx? fun slot => slot.topicFilter = some topicFilter with
  | some i =>
    obtain ⟨hi, -, hbefore⟩ := List.findIdx?_eq_some_iff_getElem.mp hfind
    exact ⟨_, rfl, mapsTo_set hi fun j hj => by simpa using hbefore j hj⟩
  | none =>
    have hnone := List.findIdx?_eq_none_iff.mp hfind
    cases hfree : slots.findIdx? fun slot => slot.topicFilter.isNone with
    | some i =>
      obtain ⟨hi, -, -⟩ := List.findIdx?_eq_some_iff_getElem.mp hfree
      refine ⟨_, rfl, mapsTo_set hi fun j hj => ?_⟩
      simpa using hnone slots[j] (List.getElem_mem _)
    | none =>
      obtain ⟨slot, hslot, hfilter | hfilter⟩ := h
      · simpa [hfilter] using hnone slot hslot
      · simpa [hfilter] using List.findIdx?_eq_none_iff.mp hfree slot hslot

theorem setMessageHandler_full (h : ¬ RoomFor slots topicFilter) (fp : H) :
    setMessageHandler slots topicFilter (some fp) = (failure, slots) := by
  have hknown : (slots.findIdx? fun slot => slot.topicFilter = some topicFilter) = none := by
    rw [List.findIdx?_eq_none_iff]
    exact fun slot hslot => decide_eq_false fun hfilter => h ⟨slot, hslot, .inl hfilter⟩
  have hfree : (slots.findIdx? fun slot => slot.topicFilter.isNone) = none := by
    rw [List.findIdx?_eq_none_iff]
    intro slot hslot
    rw [Option.isNone_eq_false_iff, Option.isSome_iff_ne_none]
    exact fun hfilter => h ⟨slot, hslot, .inr hfilter⟩
  simp only [setMessageHandler, hknown, hfree]

end

namespace ClientC

variable {ω τ H : Type} {p : Platform ω τ H} {fuel : ℕ} {timer : τ} {s t u : Client ω τ H}
  {r : Receipt} {rc : ℤ} {receipts : List Receipt} {packetType : MsgType}

/-- The session once the timer has been looked at. -/
def afterTimer (p : Platform ω τ H) (timer : τ) (s : Client ω τ H) : Client ω τ H :=
  { s with world := (p.timerIsExpired timer s.world).2 }

/-- A round of `waitfor`: the time is not up, and `cycle` reads `r` and returns `rc`. -/
structure Round (p : Platform ω τ H) (fuel : ℕ) (timer : τ) (s : Client ω τ H) (r : Receipt)
    (rc : ℤ) (t : Client ω τ H) : Prop where
  timely : (p.timerIsExpired timer s.world).1 = false
  read : ∃ u, readPacket p timer (afterTimer p timer s) = .ok r.packetType u ∧
    u.client.readbuf = r.readbuf
  cycle : cycle p fuel timer (afterTimer p timer s) = .ok rc t

/-- The rounds up to the one that ends the wait before the time is up. -/
inductive Wait (p : Platform ω τ H) (fuel : ℕ) (timer : τ) (packetType : MsgType) :
    Client ω τ H → List Receipt → ℤ → Client ω τ H → Prop
  | ends {s t : Client ω τ H} {r : Receipt} {rc : ℤ} :
      Round p fuel timer s r rc t → (rc = packetType.code ∨ rc < 0) →
      Wait p fuel timer packetType s [r] rc t
  | goesOn {s t u : Client ω τ H} {r : Receipt} {rc rc' : ℤ} {receipts : List Receipt} :
      Round p fuel timer s r rc t → rc ≠ packetType.code → 0 ≤ rc →
      Wait p fuel timer packetType t receipts rc' u →
      Wait p fuel timer packetType s (r :: receipts) rc' u

theorem Round.worked (h : Round p fuel timer s r rc t) : Worked s t rc r := by
  obtain ⟨u, hread, hbuf⟩ := h.read
  obtain ⟨-, hbuf', hresult⟩ := wp_result (cycle_of_read hread) h.cycle
  have hsame : SameSession s (afterTimer p timer s) := ⟨rfl, rfl, rfl⟩
  refine ⟨hbuf'.trans hbuf, ?_⟩
  obtain ⟨hrc, hcase, hsame'⟩ | ⟨hrc, hclosed⟩ := hresult
  · exact .inl ⟨hrc, hcase, hsame.trans hsame'⟩
  · exact .inr ⟨hrc, hclosed.after hsame⟩

/-- With a round for each packet the loop comes to the same end. -/
theorem Wait.loop_eq (h : Wait p fuel timer packetType s receipts rc t) :
    ∀ {rounds : ℕ} {rc₀ : ℤ}, receipts.length ≤ rounds →
      (variant p fuel).waitforLoop p packetType timer rounds rc₀ s = .ok rc t := by
  have hround {s t : Client ω τ H} {r : Receipt} {rc rc₀ : ℤ} (rounds : ℕ)
      (hr : Round p fuel timer s r rc t) :
      (variant p fuel).waitforLoop p packetType timer (rounds + 1) rc₀ s =
        (if rc ≠ packetType.code ∧ 0 ≤ rc then
          (variant p fuel).waitforLoop p packetType timer rounds rc else pure rc) t := by
    have hexpired : ask (p.timerIsExpired timer) s = .ok false (afterTimer p timer s) :=
      congrArg (fun expired => EStateM.Result.ok expired (afterTimer p timer s)) hr.timely
    have hcycle : (variant p fuel).cycle timer (afterTimer p timer s) = .ok rc t := hr.cycle
    rw [Variant.waitforLoop, bind_of_ok hexpired, if_neg Bool.false_ne_true, bind_of_ok hcycle]
  induction h with
  | ends hr hdone =>
    intro rounds rc₀ hle
    obtain ⟨rounds, rfl⟩ : ∃ k, rounds = k + 1 := ⟨rounds - 1, by simp at hle; omega⟩
    rw [hround rounds hr, if_neg (by omega)]
    rfl
  | goesOn hr hne hle' _ ih =>
    intro rounds rc₀ hle
    rw [List.length_cons] at hle
    obtain ⟨rounds, rfl⟩ : ∃ k, rounds = k + 1 := ⟨rounds - 1, by omega⟩
    rw [hround rounds hr, if_pos ⟨hne, hle'⟩]
    exact ih (by omega)

theorem Wait.waitfor_eq (h : Wait p fuel timer packetType s receipts rc t)
    (hle : receipts.length ≤ fuel) : waitfor p fuel packetType timer s = .ok rc t :=
  h.loop_eq hle

theorem Wait.waited (h : Wait p fuel timer packetType s receipts rc t) :
    (rc < 0 ∧ Closed s t) ∨ rc = packetType.code ∧ Continued s t receipts ∧
      ∃ last, EndsWith packetType receipts last t.client.readbuf := by
  induction h with
  | @ends s t r rc hr hdone =>
    have hcode : (0 : ℤ) < packetType.code := by exact_mod_cast packetType.code_pos
    obtain hgot | hneg := hdone
    · obtain ⟨htype, hcontinued⟩ := hr.worked.continued (by omega)
      refine .inr ⟨hgot, hcontinued, r, ⟨[], rfl, fun _ h => by cases h⟩, ?_, hr.worked.readbuf⟩
      rw [← htype, hgot]
    · exact .inl ⟨hneg, hr.worked.closed hneg⟩
  | goesOn hr hne hle _ ih =>
    obtain ⟨htype, hcontinued⟩ := hr.worked.continued hle
    obtain ⟨hneg, hclosed⟩ | ⟨hgot, hcontinued', last, hends⟩ := ih
    · exact .inl ⟨hneg, hcontinued.closed hclosed⟩
    · obtain ⟨⟨before, rfl, hbefore⟩, htype', hbuf⟩ := hends
      refine .inr ⟨hgot, hcontinued.trans hcontinued', last, ⟨_ :: before, rfl, ?_⟩, htype', hbuf⟩
      exact List.forall_mem_cons.mpr ⟨htype ▸ hne, hbefore⟩

section

variable (p) (fuel) (topicFilter : CString) (qos : ℕ)

/-- The part of `subscribeExchange` before the wait; the timer, if the request has been sent. -/
def subscribeRequest : Prog (Client ω τ H) (Option τ) := do
  let c ← getClient
  if c.isconnected then
    let timer ← newTimer p c.commandTimeoutMs
    let id ← getNextPacketId
    let len ← serialize fun buf =>
      mqttSerializeSubscribe buf 0 id [MQTTString.ofCString topicFilter] [qos]
    if len ≤ 0 then pure none
    else
      let rc ← sendPacket p fuel len.toNat timer
      pure (if rc = success then some timer else none)
  else pure none

end

section

variable {topicFilter : CString} {qos : ℕ} {messageHandler : Option H} {data : ℤ}

theorem subscribeExchange_eq
    (h : subscribeRequest p fuel topicFilter qos s = .ok (some timer) t) :
    subscribeExchange p fuel topicFilter qos messageHandler data s =
      awaitSuback p fuel topicFilter messageHandler timer data t := by
  obtain ⟨c, u, hclient, h⟩ := bind_eq_ok.mp h
  rw [subscribeExchange, bind_of_ok hclient]
  by_cases hopen : c.isconnected = true
  · rw [if_pos hopen] at h ⊢
    obtain ⟨timer', u₁, htimer, h⟩ := bind_eq_ok.mp h
    obtain ⟨id, u₂, hid, h⟩ := bind_eq_ok.mp h
    obtain ⟨len, u₃, hlen, h⟩ := bind_eq_ok.mp h
    rw [bind_of_ok htimer, bind_of_ok hid, bind_of_ok hlen]
    by_cases hshort : len ≤ 0
    · rw [if_pos hshort] at h
      cases h
    · rw [if_neg hshort] at h ⊢
      obtain ⟨rc, u₄, hsend, h⟩ := bind_eq_ok.mp h
      rw [bind_of_ok hsend]
      by_cases hrc : rc = success
      · rw [if_pos hrc] at h
        cases h
        rw [if_neg (not_not.mpr hrc)]
      · rw [if_neg hrc] at h
        cases h
  · rw [if_neg hopen] at h
    cases h

theorem awaitSuback_failed (h : waitfor p fuel .suback timer s = .ok rc t)
    (hne : rc ≠ MsgType.suback.code) :
    awaitSuback p fuel topicFilter messageHandler timer data s = .ok (failure, data) t := by
  rw [awaitSuback, bind_of_ok h, if_neg hne]
  rfl

/-- The session with this table of handlers. -/
def withHandlers (s : Client ω τ H) (slots : List (MessageHandler H)) : Client ω τ H :=
  { s with client := { s.client with messageHandlers := slots } }

theorem awaitSuback_got {packetid : Option ℕ} {granted : ℤ}
    (h : waitfor p fuel .suback timer s = .ok MsgType.suback.code t)
    (hdecode : mqttDeserializeSuback t.client.readbuf 1 1 = some (1, packetid, [granted]))
    (hgranted : granted ≠ 0x80) :
    awaitSuback p fuel topicFilter messageHandler timer data s =
      .ok ((setMessageHandler t.client.messageHandlers topicFilter messageHandler).1, granted)
        (withHandlers t
          (setMessageHandler t.client.messageHandlers topicFilter messageHandler).2) := by
  rw [awaitSuback, bind_of_ok h, if_pos rfl]
  have hclient : (getClient : Prog (Client ω τ H) _) t = .ok t.client t := rfl
  rw [bind_of_ok hclient, hdecode]
  have hresult : (ofOption (some ((1 : ℤ), packetid, [granted])) : Prog (Client ω τ H) _) t =
      .ok (1, packetid, [granted]) t := rfl
  rw [bind_of_ok hresult]
  have hbranch : (1 : ℤ) = 1 ∧ [granted].headD 0 ≠ 0x80 := ⟨rfl, hgranted⟩
  exact congrFun (if_pos hbranch) t

theorem awaitSuback_overflow
    (h : waitfor p fuel .suback timer s = .ok MsgType.suback.code t)
    (hdecode : mqttDeserializeSuback t.client.readbuf 1 1 = none) :
    awaitSuback p fuel topicFilter messageHandler timer data s = .error .undefined t := by
  rw [awaitSuback, bind_of_ok h, if_pos rfl]
  have hclient : (getClient : Prog (Client ω τ H) _) t = .ok t.client t := rfl
  rw [bind_of_ok hclient, hdecode]
  rfl

theorem closeOnFailure_failure (s : Client ω τ H) :
    ∃ t, (closeOnFailure failure : Prog (Client ω τ H) PUnit) s = .ok ⟨⟩ t ∧
      t.client.isconnected = false := by
  have hclose : wp (closeOnFailure failure : Prog (Client ω τ H) PUnit)
      (fun _ t => t.client.isconnected = false) (fun _ _ => False) s := by
    unfold closeOnFailure mqttCloseSession mqttCleanSession
    simp only [if_true, wp_bind, wp_modifyClient, wp_getClient, wp_ite, wp_pure]
    exact ⟨fun _ => trivial, fun _ => trivial⟩
  obtain ⟨_, t, hrun, hclosed⟩ := wp_total hclose
  exact ⟨t, hrun, hclosed⟩

theorem subscribeRequest_same :
    wp (subscribeRequest p fuel topicFilter qos)
      (fun sent t => SameSession s t ∧ (sent.isSome → s.client.isconnected = true))
      (fun _ _ => True) s := by
  have hsame : Moves SameSession (subscribeRequest p fuel topicFilter qos) := by
    have hnumber : Moves SameSession (getNextPacketId : Prog (Client ω τ H) UInt16) :=
      fun _ => ⟨rfl, rfl, rfl⟩
    refine .bind getClient_moves fun c => .ite ?_ (.pure none)
    refine .bind (newTimer_moves (same_gentle p).toDiscreet c.commandTimeoutMs) fun timer => ?_
    refine .bind hnumber fun id => ?_
    refine .bind (serialize_moves (fun _ _ => ⟨rfl, rfl, rfl⟩) _) fun len => ?_
    exact .ite (.pure none) (.bind (sendPacket_same len.toNat timer) fun rc => .pure _)
  have hopen : wp (subscribeRequest p fuel topicFilter qos)
      (fun sent _ => sent.isSome → s.client.isconnected = true) (fun _ _ => True) s := by
    unfold subscribeRequest
    rw [wp_bind, wp_getClient, wp_ite]
    refine ⟨fun hopen => ?_, fun _ h => by cases h⟩
    apply wp_mono (wp_true _)
    · exact fun _ _ _ _ => hopen
    · exact fun _ _ _ => trivial
  apply wp_mono (wp_and (hsame s) hopen)
  · exact fun _ _ h => h
  · exact fun _ _ _ => trivial

/-- The call returns `rc` in `t`, and `granted` is made of what `data->grantedQoS` was. -/
def Returns (p : Platform ω τ H) (fuel : ℕ) (s : Client ω τ H) (topicFilter : CString) (qos : ℕ)
    (fp : H) (rc : ℤ) (granted : ℤ → ℤ) (t : Client ω τ H) : Prop :=
  ∀ data, mqttSubscribeWithResults p fuel topicFilter qos (some fp) data s =
    .ok (rc, granted data) t

variable {fp : H} {granted : ℤ → ℤ}

theorem returns_success
    (h : ∀ data, subscribeExchange p fuel topicFilter qos (some fp) data s =
      .ok (success, granted data) t) : Returns p fuel s topicFilter qos fp success granted t := by
  intro data
  rw [mqttSubscribeWithResults, bind_of_ok (h data)]
  rfl

theorem returns_failure
    (h : ∀ data, subscribeExchange p fuel topicFilter qos (some fp) data s =
      .ok (failure, granted data) u) :
    ∃ t, Returns p fuel s topicFilter qos fp failure granted t ∧ t.client.isconnected = false := by
  obtain ⟨t, hclose, hclosed⟩ := closeOnFailure_failure u
  refine ⟨t, fun data => ?_, hclosed⟩
  rw [mqttSubscribeWithResults, bind_of_ok (h data), bind_of_ok hclose]
  rfl

theorem Returns.mqttSubscribe_eq (h : Returns p fuel s topicFilter qos fp rc granted t) :
    mqttSubscribe p fuel topicFilter qos (some fp) s = .ok rc t := by
  rw [mqttSubscribe, bind_of_ok (h 0)]
  rfl

theorem Returns.unique {rc' : ℤ} {granted' : ℤ → ℤ} {t' : Client ω τ H}
    (h : Returns p fuel s topicFilter qos fp rc granted t)
    (h' : Returns p fuel s topicFilter qos fp rc' granted' t') :
    rc = rc' ∧ granted = granted' ∧ t = t' := by
  have hall (data : ℤ) : rc = rc' ∧ granted data = granted' data ∧ t = t' := by
    have heq := (h data).symm.trans (h' data)
    injection heq with hresult ht
    obtain ⟨hrc, hgranted⟩ := Prod.mk.inj hresult
    exact ⟨hrc, hgranted, ht⟩
  exact ⟨(hall 0).1, funext fun data => (hall data).2.1, (hall 0).2.2⟩

end

/-- For this code of the answer the result is what the broker has decided, the filter has its
handler if and only if it was granted, and `data->grantedQoS` is the code. -/
def Decided (s t : Client ω τ H) (topicFilter : CString) (fp : H) (code : UInt8) (rc : ℤ)
    (granted : ℤ → ℤ) : Prop :=
  (rc = success ↔ code.toNat ≤ 2 ∧ t.client.isconnected = true ∧
    RoomFor s.client.messageHandlers topicFilter) ∧
  (rc = success → MapsTo t.client.messageHandlers topicFilter fp ∧
    ∀ data, granted data = code.toNat) ∧
  (code = 0x80 → t.client.messageHandlers = s.client.messageHandlers ∧
    ∀ data, granted data = 0x80)

/-- The call returns, and reports what the broker has decided. -/
def ReportsDecision (p : Platform ω τ H) (fuel : ℕ) (s : Client ω τ H) (topicFilter : CString)
    (qos : ℕ) (fp : H) (code : UInt8) : Prop :=
  ∃ rc granted t, Returns p fuel s topicFilter qos fp rc granted t ∧
    mqttSubscribe p fuel topicFilter qos (some fp) s = .ok rc t ∧
    Decided s t topicFilter fp code rc granted

/-- The request is sent, and a SUBACK is read before the time is up; the packets in their order
are those that are read and `later`, and among them is the answer, with this one code. -/
structure AnsweredInTime (p : Platform ω τ H) (fuel : ℕ) (s : Client ω τ H)
    (topicFilter : CString) (qos : ℕ) (code : UInt8) (receipts later : List Receipt) (rc : ℤ)
    (u : Client ω τ H) : Prop where
  waits : ∃ timer t, subscribeRequest p fuel topicFilter qos s = .ok (some timer) t ∧
    Wait p fuel timer .suback t receipts rc u
  rounds : receipts.length ≤ fuel
  read : ∃ r ∈ receipts, r.packetType = MsgType.suback.code
  wellFormed : ∀ r ∈ receipts, r.packetType = MsgType.suback.code →
    ∃ id codes, codes ≠ [] ∧ r.Answers id codes
  answered : ∃ r ∈ receipts ++ later, r.Answers (nextId s.client) [code]

/-- The answer is no refusal; and if the wait has not failed, the SUBACK has one code and, where
the table has room for the filter, that is the answer's and grants it, and all that has been
read has a case in `cycle`. -/
def DecisionTold (u : Client ω τ H) (topicFilter : CString) (code : UInt8)
    (receipts : List Receipt) (rc : ℤ) : Prop :=
  code ≠ 0x80 ∧ (rc = MsgType.suback.code → ∃ r ∈ receipts, ∃ id code', r.Answers id [code'] ∧
    (RoomFor u.client.messageHandlers topicFilter →
      code.toNat ≤ 2 ∧ code' = code ∧ ∀ r ∈ receipts, HasCase r.packetType))

section

variable {topicFilter : CString} {qos : ℕ} {fp : H} {code : UInt8} {later : List Receipt}
  {granted : ℤ → ℤ}

theorem Returns.reportsDecision_iff (h : Returns p fuel s topicFilter qos fp rc granted t) :
    ReportsDecision p fuel s topicFilter qos fp code ↔
      Decided s t topicFilter fp code rc granted := by
  constructor
  · intro hreports
    obtain ⟨rc', granted', t', h', -, hdecided⟩ := hreports
    obtain ⟨rfl, rfl, rfl⟩ := h.unique h'
    exact hdecided
  · exact fun hdecided => ⟨rc, granted, t, h, h.mqttSubscribe_eq, hdecided⟩

/-- A call that fails has decided so unless the broker has refused. -/
theorem decided_failure (hclosed : t.client.isconnected = false)
    (hgranted : ∃ data, granted data ≠ 0x80) :
    Decided s t topicFilter fp code failure granted ↔ code ≠ 0x80 := by
  constructor
  · intro hdecided hcode
    obtain ⟨data, hne⟩ := hgranted
    exact hne ((hdecided.2.2 hcode).2 data)
  · intro hcode
    refine ⟨⟨fun h => absurd h failure_ne_success, fun h => ?_⟩,
      fun h => absurd h failure_ne_success, fun h => absurd h hcode⟩
    rw [hclosed] at h
    exact absurd h.2.1 Bool.false_ne_true

/-- A call that succeeds has decided so if the code it has read is that of the answer. -/
theorem decided_success {code' : UInt8}
    (hmaps : MapsTo t.client.messageHandlers topicFilter fp) :
    Decided s t topicFilter fp code success (fun _ => signedChar code') ↔
      code.toNat ≤ 2 ∧ code' = code ∧ t.client.isconnected = true ∧
        RoomFor s.client.messageHandlers topicFilter := by
  constructor
  · intro hdecided
    obtain ⟨hle, hopen, hroom⟩ := hdecided.1.mp rfl
    have hgranted := (signedChar_eq_natCast (show code.toNat < 128 by omega)).mp
      ((hdecided.2.1 rfl).2 0)
    rw [UInt8.ofNat_toNat] at hgranted
    exact ⟨hle, hgranted, hopen, hroom⟩
  · intro htold
    obtain ⟨hle, rfl, hopen, hroom⟩ := htold
    refine ⟨iff_of_true rfl ⟨hle, hopen, hroom⟩, fun _ => ⟨hmaps, fun _ => ?_⟩, fun hcode => ?_⟩
    · exact (signedChar_eq_iff code').mpr (by omega)
    · rw [hcode] at hle
      exact absurd hle (by decide)

theorem decisionTold_got {last : Receipt} {id : UInt16} {code' : UInt8}
    (hends : EndsWith .suback receipts last u.client.readbuf) (h : last.Answers id [code']) :
    DecisionTold u topicFilter code receipts MsgType.suback.code ↔
      code ≠ 0x80 ∧ (RoomFor u.client.messageHandlers topicFilter →
        code.toNat ≤ 2 ∧ code' = code ∧ ∀ r ∈ receipts, HasCase r.packetType) := by
  constructor
  · intro htold
    obtain ⟨hcode, hgot⟩ := htold
    obtain ⟨r, hr, id', code'', h', hroom⟩ := hgot rfl
    obtain rfl := hends.eq_last hr h'.1
    have hsame := h'.decode.symm.trans h.decode
    simp only [List.length_singleton, le_refl, if_true, List.map_cons, List.map_nil,
      Option.some.injEq, Prod.mk.injEq, List.cons.injEq, and_true, true_and] at hsame
    obtain rfl := signedChar_injective hsame.2
    exact ⟨hcode, hroom⟩
  · exact fun htold => ⟨htold.1, fun _ => ⟨last, hends.last_mem, id, code', h, htold.2⟩⟩

theorem reportsDecision_got {id : UInt16} {code' : UInt8} {last : Receipt}
    (hrequest : subscribeRequest p fuel topicFilter qos s = .ok (some timer) t)
    (hrun : waitfor p fuel .suback timer t = .ok MsgType.suback.code u)
    (hcontinued : Continued t u receipts)
    (hends : EndsWith .suback receipts last u.client.readbuf)
    (hanswers : last.Answers id [code']) (fp : H) :
    ReportsDecision p fuel s topicFilter qos fp code ↔
      DecisionTold u topicFilter code receipts MsgType.suback.code := by
  obtain ⟨hsame, hopen⟩ := wp_result subscribeRequest_same hrequest
  have hdecode := hanswers.decode
  rw [← hends.readbuf_eq, if_pos (by simp)] at hdecode
  have hexchange (data : ℤ) : subscribeExchange p fuel topicFilter qos (some fp) data s = _ :=
    (subscribeExchange_eq hrequest).trans
      (awaitSuback_got hrun hdecode (signedChar_ne_refusal code'))
  have hiff := hcontinued.isconnected_iff (hsame.isconnected.trans (hopen rfl))
  rw [decisionTold_got hends hanswers]
  by_cases hroom : RoomFor u.client.messageHandlers topicFilter
  · obtain ⟨slots, hset, hmaps⟩ := setMessageHandler_room hroom fp
    rw [hset] at hexchange
    have hdecided : Decided s (withHandlers u slots) topicFilter fp code success
        (fun _ => signedChar code') ↔ _ := decided_success hmaps
    rw [(returns_success hexchange).reportsDecision_iff, hdecided]
    constructor
    · intro h
      obtain ⟨hle, hcode, hopen', -⟩ := h
      refine ⟨fun hrefused => ?_, fun _ => ⟨hle, hcode, hiff.mp hopen'⟩⟩
      rw [hrefused] at hle
      exact absurd hle (by decide)
    · intro htold
      obtain ⟨hle, hcode, hall⟩ := htold.2 hroom
      refine ⟨hle, hcode, hiff.mpr hall, ?_⟩
      rw [← hsame.messageHandlers, ← (hcontinued.sameSession hall).messageHandlers]
      exact hroom
  · rw [setMessageHandler_full hroom] at hexchange
    obtain ⟨v, hreturns, hclosed⟩ := returns_failure hexchange
    rw [hreturns.reportsDecision_iff, decided_failure hclosed ⟨0, signedChar_ne_refusal code'⟩]
    exact ⟨fun hcode => ⟨hcode, fun h => absurd h hroom⟩, fun h => h.1⟩

/-- The wait has ended with a SUBACK that has more codes than fit: the call has no result. -/
theorem not_reportsDecision_overflow
    (hrequest : subscribeRequest p fuel topicFilter qos s = .ok (some timer) t)
    (hrun : waitfor p fuel .suback timer t = .ok MsgType.suback.code u)
    (hdecode : mqttDeserializeSuback u.client.readbuf 1 1 = none) (fp : H) :
    ¬ ReportsDecision p fuel s topicFilter qos fp code := by
  intro hreports
  obtain ⟨rc, granted, v, hreturns, -⟩ := hreports
  obtain ⟨result, w, hexchange, -⟩ := bind_eq_ok.mp (hreturns 0)
  rw [subscribeExchange_eq hrequest, awaitSuback_overflow hrun hdecode] at hexchange
  cases hexchange

/-- Whatever else arrives, the call reports what the broker has decided if and only if that is
no refusal and it has been told. -/
theorem mqttSubscribe_reportsDecision
    (h : AnsweredInTime p fuel s topicFilter qos code receipts later rc u) (fp : H) :
    ReportsDecision p fuel s topicFilter qos fp code ↔
      DecisionTold u topicFilter code receipts rc := by
  obtain ⟨timer, t, hrequest, hwait⟩ := h.waits
  have hrun := hwait.waitfor_eq h.rounds
  have hcode : (0 : ℤ) < MsgType.suback.code := by decide
  obtain ⟨hneg, -⟩ | ⟨rfl, hcontinued, last, hends⟩ := hwait.waited
  · have hne : rc ≠ MsgType.suback.code := by omega
    have hexchange (data : ℤ) : subscribeExchange p fuel topicFilter qos (some fp) data s =
        .ok (failure, id data) u :=
      (subscribeExchange_eq hrequest).trans (awaitSuback_failed hrun hne)
    obtain ⟨v, hreturns, hclosed⟩ := returns_failure hexchange
    rw [hreturns.reportsDecision_iff, decided_failure hclosed ⟨0, by decide⟩]
    exact ⟨fun hcode => ⟨hcode, fun h => absurd h hne⟩, fun h => h.1⟩
  · obtain ⟨id, codes, hsome, hanswers⟩ := h.wellFormed last hends.last_mem hends.packetType_eq
    have hpos := List.length_pos_iff.mpr hsome
    by_cases hone : codes.length = 1
    · obtain ⟨code', rfl⟩ := List.length_eq_one_iff.mp hone
      exact reportsDecision_got hrequest hrun hcontinued hends hanswers fp
    · have hdecode := hanswers.decode
      rw [← hends.readbuf_eq, if_neg (by omega)] at hdecode
      refine iff_of_false (not_reportsDecision_overflow hrequest hrun hdecode fp) fun htold => ?_
      obtain ⟨r, hr, id', code', h', -⟩ := htold.2 rfl
      obtain rfl := hends.eq_last hr h'.1
      rw [hends.readbuf_eq, h'.decode] at hdecode
      cases hdecode

variable (timer) in
theorem answeredInTime_one (hfuel : 1 ≤ fuel) (hr : r.Answers (nextId s.client) [code])
    (hread : ∃ result u, (do
        let sent ← subscribeRequest p fuel topicFilter qos
        let expired ← ask (p.timerIsExpired timer)
        let packetType ← readPacket p timer
        pure (sent, expired, packetType)) s = .ok result u ∧
      result = (some timer, false, r.packetType) ∧ u.client.readbuf = r.readbuf)
    (hcycle : ∃ (result : ℤ) (u : Client ω τ H), (do
        let _ ← subscribeRequest p fuel topicFilter qos
        let _ ← ask (p.timerIsExpired timer)
        cycle p fuel timer) s = .ok result u ∧ result = MsgType.suback.code) :
    ∃ u, AnsweredInTime p fuel s topicFilter qos code [r] [] MsgType.suback.code u := by
  obtain ⟨result, v, hrun, rfl, hbuf⟩ := hread
  obtain ⟨rc, u, hrun', rfl⟩ := hcycle
  obtain ⟨sent, t, hrequest, hrun⟩ := bind_eq_ok.mp hrun
  obtain ⟨expired, t₁, hexpired, hrun⟩ := bind_eq_ok.mp hrun
  obtain ⟨packetType, t₂, hpacket, hrun⟩ := bind_eq_ok.mp hrun
  cases hrun
  rw [bind_of_ok hrequest, bind_of_ok hexpired] at hrun'
  obtain ⟨htimely, rfl⟩ : (p.timerIsExpired timer t.world).1 = false ∧
      afterTimer p timer t = t₁ := by
    injection hexpired with htimely hstate
    exact ⟨htimely, hstate⟩
  refine ⟨u, ⟨timer, t, hrequest, .ends ⟨htimely, ⟨v, hpacket, hbuf⟩, hrun'⟩ (.inl rfl)⟩, hfuel,
    ⟨r, List.mem_singleton_self r, hr.1⟩, ?_, ⟨r, List.mem_cons_self, hr⟩⟩
  intro r' hr' _
  obtain rfl := List.mem_singleton.mp hr'
  exact ⟨_, _, List.cons_ne_nil _ _, hr⟩

end

/-- A client without subscriptions that has room for one, and a SUBACK with this code. -/
def newSubscriber (code : UInt8) : Client (List UInt8) Unit Unit :=
  { inboxClient true [0x90, 3, 0, 2, code] with
    client := { (inboxClient true []).client with messageHandlers := [⟨none, none⟩] } }

def subackReceipt (code : UInt8) : Receipt := ⟨9, [0x90, 3, 0, 2, code] ++ List.replicate 11 0⟩

theorem answers_subackReceipt (code : UInt8) : (subackReceipt code).Answers 2 [code] :=
  ⟨rfl, frameOf 0x90 [0, 2, code] (show 3 ≤ maxRemainingLength by decide), List.replicate 11 0,
    rfl, show MQTTHeader.type 0x90 = 9 by decide, rfl⟩

/-- A subscription is granted, and reported as such. -/
theorem mqttSubscribe_reportsDecision_granted :
    ReportsDecision inboxPlatform 8 (newSubscriber 1) ⟨[97], unterminated_a⟩ 1 () 1 := by
  obtain ⟨u, h⟩ : ∃ u, AnsweredInTime inboxPlatform 8 (newSubscriber 1) ⟨[97], unterminated_a⟩ 1 1
      [subackReceipt 1] [] MsgType.suback.code u :=
    answeredInTime_one () (by decide) (answers_subackReceipt 1) (by decide +kernel)
      (by decide +kernel)
  rw [mqttSubscribe_reportsDecision h ()]
  refine ⟨by decide, fun _ => ⟨_, List.mem_singleton_self _, 2, 1, answers_subackReceipt 1,
    fun _ => ⟨by decide, rfl, ?_⟩⟩⟩
  intro r hr
  obtain rfl := List.mem_singleton.mp hr
  decide

/-- A subscription is refused; the call returns success, and the filter has its handler. -/
theorem mqttSubscribe_not_reportsDecision :
    (∃ u, AnsweredInTime inboxPlatform 8 (newSubscriber 0x80) ⟨[97], unterminated_a⟩ 1 0x80
      [subackReceipt 0x80] [] MsgType.suback.code u) ∧
    (∃ result t, mqttSubscribeWithResults inboxPlatform 8 ⟨[97], unterminated_a⟩ 1 (some ()) 0
      (newSubscriber 0x80) = .ok result t ∧ result = (success, -128) ∧
        MapsTo t.client.messageHandlers ⟨[97], unterminated_a⟩ ()) ∧
    ¬ ReportsDecision inboxPlatform 8 (newSubscriber 0x80) ⟨[97], unterminated_a⟩ 1 () 0x80 := by
  obtain ⟨result, t, hrun, rfl, hmaps⟩ : ∃ result t, mqttSubscribeWithResults inboxPlatform 8
      ⟨[97], unterminated_a⟩ 1 (some ()) 0 (newSubscriber 0x80) = .ok result t ∧
        result = (success, -128) ∧ MapsTo t.client.messageHandlers ⟨[97], unterminated_a⟩ () := by
    decide +kernel
  refine ⟨?_, ⟨_, t, hrun, rfl, hmaps⟩, fun hreports => ?_⟩
  · exact answeredInTime_one () (by decide) (answers_subackReceipt 0x80) (by decide +kernel)
      (by decide +kernel)
  · obtain ⟨rc, granted, u, hreturns, -, hdecided⟩ := hreports
    have hgranted := (hdecided.2.2 rfl).2 0
    have hresult := (hreturns 0).symm.trans hrun
    injection hresult with hresult
    rw [(Prod.mk.inj hresult).2] at hgranted
    exact absurd hgranted (by decide)

end ClientC

end MqttEmbedded
