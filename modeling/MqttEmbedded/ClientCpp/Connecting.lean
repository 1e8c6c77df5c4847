import MqttEmbedded.ClientCpp.Cycles

/-!
# Connecting

`connect` sends a CONNECT, waits for the CONNACK, and then looks for a message in
flight, which it sends again whatever the CONNACK has said. A client that is not
connected keeps the message in flight while it waits.
-/

namespace MqttEmbedded.ClientCpp

open Region Hoare Log

variable {ω τ H : Type} {p : Platform ω τ H} {fuel : ℕ} {timer : τ} {s t u : Client ω τ H}
  {rc : ℤ} {log : List Occurrence} {o : Occurrence} {id : UInt16}

/-- What has been written into the history from one state to the other. -/
def written (s t : Client ω τ H) : List Occurrence :=
  t.own.history.take (t.own.history.length - s.own.history.length)

theorem written_eq (h : t.own.history = log ++ s.own.history) : written s t = log := by
  unfold written
  rw [h]
  exact List.take_left' (by simp)

namespace Occurrence

/-- The return code of a CONNACK that has come in, if the packet has one. -/
def connackRc : Occurrence → Option (Option UInt8)
  | .received packetType readbuf =>
    if packetType = MsgType.connack.code then
      (mqttDeserializeConnack readbuf).bind fun result =>
        if result.1 = 1 then some (result.2.map ConnackFields.connackRc) else none
    else none
  | _ => none

/-- A CONNACK with return code 0 has come in. -/
def Accepts (o : Occurrence) : Prop := o.connackRc = some (some 0)

/-- A CONNACK that is too short for a return code has come in. -/
def Truncated (o : Occurrence) : Prop := o.connackRc = some none

instance (o : Occurrence) : Decidable o.Accepts := inferInstanceAs (Decidable (_ = _))

instance (o : Occurrence) : Decidable o.Truncated := inferInstanceAs (Decidable (_ = _))

end Occurrence

/-- `connect` takes what is in the buffer for a CONNACK with return code 0. -/
def TakenForAccepted (readbuf : List UInt8) : Prop :=
  ∃ fields, mqttDeserializeConnack readbuf = some (1, fields) ∧
    (fields.getD ⟨0, 0⟩).connackRc = 0

theorem TakenForAccepted.accepts_or_truncated {readbuf : List UInt8}
    (h : TakenForAccepted readbuf) :
    (Occurrence.received MsgType.connack.code readbuf).Accepts ∨
      (Occurrence.received MsgType.connack.code readbuf).Truncated := by
  obtain ⟨fields, hresult, hzero⟩ := h
  have hconnack : (Occurrence.received MsgType.connack.code readbuf).connackRc =
      some (fields.map ConnackFields.connackRc) := by
    simp [Occurrence.connackRc, hresult]
  unfold Occurrence.Accepts Occurrence.Truncated
  rw [hconnack]
  cases fields with
  | none => exact .inr rfl
  | some fields => exact .inl (congrArg (some ∘ some) hzero)

theorem awaitConnack_answered (timer : τ) :
    wp (awaitConnack p fuel timer)
      (fun rc t => Did s t ∧ (rc = success → Waited .connack s MsgType.connack.code t ∧
        TakenForAccepted t.client.readbuf)) (fun _ t => Did s t) s := by
  unfold awaitConnack
  rw [wp_bind]
  apply wp_mono (waitfor_waited .connack timer)
  · intro rc t hwaited
    rw [wp_ite, wp_bind, wp_getClient, wp_bind, wp_pure]
    refine ⟨fun hrc => wp_ofOption_iff.mpr ⟨fun result hresult => ?_, fun _ => hwaited.did⟩,
      fun _ => ⟨hwaited.did, fun h => absurd h (by decide)⟩⟩
    rw [wp_pure]
    refine ⟨hwaited.did, fun hsuccess => ?_⟩
    rw [hrc] at hwaited
    split_ifs at hsuccess with hone
    · refine ⟨hwaited, result.2, ?_, ?_⟩
      · rw [hresult, ← hone]
      · rw [← UInt8.toNat_inj]
        exact Int.ofNat.inj hsuccess
    · exact absurd hsuccess (by decide)
  · exact fun _ _ h => h

theorem publishPacket_closes {len qos : ℕ} :
    wp (publishPacket p fuel len timer qos)
      (fun rc t => rc = success ∨ t.client.isconnected = false) (fun _ _ => True) s := by
  have hclosed (s : Client ω τ H) : (closed s).client.isconnected = false := by
    unfold closed
    split_ifs
    · rfl
    · rfl
  unfold publishPacket
  rw [wp_bind]
  apply wp_mono (wp_true _)
  · intro rc t _
    rw [wp_ite, wp_bind, wp_closeSession, wp_pure, wp_bind]
    refine ⟨fun _ => .inr (hclosed t), fun _ => ?_⟩
    apply wp_mono (wp_true _)
    · intro rc' u _
      unfold closeUnlessSuccess
      rw [wp_bind, wp_ite, wp_closeSession, wp_pure, wp_pure, wp_pure]
      exact ⟨fun _ => .inr (hclosed u), fun h => .inl (not_not.mp h)⟩
    · exact fun _ _ _ => trivial
  · exact fun _ _ _ => trivial

theorem resend_closes {len qos : ℕ} : wp (resend p fuel len timer qos)
    (fun rc t => rc = success ∨ t.client.isconnected = false) (fun _ _ => True) s := by
  unfold resend
  rw [wp_bind, wp_getClient, wp_bind, wp_note]
  exact publishPacket_closes

/-- How `resume` ends; there is no result when it ends with a fault. -/
inductive Resumed (s : Client ω τ H) (rc : ℤ) : Option ℤ → Client ω τ H → Prop
  | nothing : s.own.inflightMsgid = 0 → Resumed s rc (some rc) (noted s .resuming)
  | resent {t : Client ω τ H} {result : Option ℤ} : s.own.inflightMsgid ≠ 0 →
      Steps (noted s .resuming) t →
      (∀ rc', result = some rc' → rc' = success ∨ t.client.isconnected = false) →
      Resumed s rc result t

theorem resend_resumed {rc : ℤ} {len qos : ℕ} {earlier : List Occurrence}
    (hs : s.own.inflightMsgid ≠ 0) (hsteps : Steps (noted s .resuming) t)
    (hhistory : t.own.history = .resuming :: earlier) (hinflight : 0 < t.own.inflightMsgid)
    (h : t.client.buf.take len = t.own.pubbuf.take t.own.inflightLen ∨
      t.own.pubrel = true ∧ t.client.buf.take len = ackBytes .pubrel t.own.inflightMsgid) :
    wp (resend p fuel len timer qos) (fun rc' u => Resumed s rc (some rc') u)
      (fun _ u => Resumed s rc none u) t := by
  apply wp_mono (wp_and (resend_steps hsteps hhistory hinflight h) resend_closes)
  · intro rc' u h
    obtain ⟨hsteps, hrc⟩ := h
    refine .resent hs hsteps fun rc'' hrc' => ?_
    rw [← Option.some.inj hrc']
    exact hrc
  · intro _ u h
    obtain ⟨hsteps, _⟩ := h
    exact .resent hs hsteps fun _ h => nomatch h

theorem resume_resumed (hs : s.client.isconnected = false) (rc : ℤ) :
    wp (resume p fuel timer rc) (fun rc' t => Resumed s rc (some rc') t)
      (fun _ t => Resumed s rc none t) s := by
  unfold resume
  rw [wp_bind, wp_note, wp_bind, wp_getOwn, wp_ite]
  constructor
  · rintro ⟨hpos, -, hpubrel⟩
    have hinflight : s.own.inflightMsgid ≠ 0 := UInt16.pos_iff_ne_zero.mp hpos
    rw [wp_bind]
    apply wp_serializeAck
    · intro _
      rw [wp_ite, wp_pure]
      exact ⟨fun _ => .resent hinflight .refl fun _ _ => .inr hs, fun h => absurd (by decide) h⟩
    · intro _
      rw [wp_ite]
      refine ⟨fun h => absurd h (by decide), fun _ => ?_⟩
      have htake := take_overwrite_zero s.client.buf (ackBytes .pubrel s.own.inflightMsgid)
      rw [length_ackBytes] at htake
      have hbuf : Steps (noted s .resuming) { noted s .resuming with client := { s.client with
          buf := overwrite s.client.buf 0 (ackBytes .pubrel s.own.inflightMsgid) } } :=
        Same.steps ⟨rfl, rfl, id, rfl⟩
      exact resend_resumed hinflight hbuf rfl hpos (.inr ⟨hpubrel, htake⟩)
  · intro _
    rw [wp_ite, wp_bind, wp_modifyClient, wp_pure]
    constructor
    · intro hpos
      have hbuf : Steps (noted s .resuming) { noted s .resuming with
          client := { s.client with buf := s.own.pubbuf } } :=
        Same.steps ⟨rfl, rfl, id, rfl⟩
      exact resend_resumed (UInt16.pos_iff_ne_zero.mp hpos) hbuf rfl hpos (.inl rfl)
    · intro hzero
      exact .nothing (not_not.mp fun h => hzero (UInt16.pos_iff_ne_zero.mpr h))

/-- The CONNECT has been sent, or not, with this result. -/
structure Requested (s : Client ω τ H) (rc : ℤ) (t : Client ω τ H) : Prop where
  isconnected : t.client.isconnected = false
  own : ∃ packet pingSent, typeOf packet = MsgType.connect.code ∧
    t.own = { s.own with pingSent := pingSent, history := .sent packet rc :: s.own.history }

/-- The CONNACK has been waited for, and has led to this `rc`. -/
structure Answered (s : Client ω τ H) (rc : ℤ) (t : Client ω τ H) : Prop where
  did : Did s t
  accepted : rc = success → Waited .connack s MsgType.connack.code t ∧
    TakenForAccepted t.client.readbuf

/-- How `connect` ends; there is no result when it ends with a fault. -/
inductive Connects (s : Client ω τ H) : Option ℤ → Client ω τ H → Prop
  | unasked {t : Client ω τ H} {result : Option ℤ} : result ≠ some success →
      t.own.history = s.own.history → t.client.isconnected = s.client.isconnected →
      Connects s result t
  | unsent {t : Client ω τ H} {rc : ℤ} : rc ≠ success → Requested s rc t → Connects s (some rc) t
  | unanswered {t u : Client ω τ H} : Requested s success t → Did t u → Connects s none u
  | resumed {t u v w : Client ω τ H} {rc : ℤ} {result : Option ℤ} : Requested s success t →
      Answered t rc u → Resumed u rc result v → w.own = v.own →
      (∀ rc', result = some rc' → w.client.isconnected = true → rc' = success) →
      Connects s result w

theorem Requested.same {v : Client ω τ H} (h : Requested s rc t) (hsame : Same t v) :
    Requested s rc v := by
  obtain ⟨packet, pingSent, htype, hown⟩ := h.own
  refine ⟨hsame.isconnected.trans h.isconnected, packet, v.own.pingSent, htype, ?_⟩
  rw [hsame.own, hown]

theorem requested_connects (hrequested : Requested s success t) :
    wp (do
      recordReceived p
      let rc ← awaitConnack p fuel timer
      resume p fuel timer rc)
      (fun rc u => Connects s (some rc) u ∧ (u.client.isconnected = true → rc = success))
      (fun _ u => Connects s none u) t := by
  rw [wp_bind]
  apply wp_mono (recordReceived_same t)
  · intro _ u hsame
    have hrequested := hrequested.same hsame
    rw [wp_bind]
    apply wp_mono (awaitConnack_answered timer)
    · rintro rc v ⟨hdid, haccepted⟩
      have hkeeps := hdid.keeps (.inl hrequested.isconnected)
      have hoffline := hkeeps.isconnected hrequested.isconnected
      have hanswered : Answered u rc v := ⟨hdid, haccepted⟩
      apply wp_mono (resume_resumed hoffline rc)
      · intro rc' w hresumed
        have hopen : ∀ rc'', some rc' = some rc'' →
            w.client.isconnected = true → rc'' = success := by
          rintro _ ⟨⟩ hopen
          cases hresumed with
          | nothing _ =>
            exact absurd (hoffline.symm.trans hopen) Bool.false_ne_true
          | resent _ _ hclosed =>
            rcases hclosed rc' rfl with hrc | hclosed
            · exact hrc
            · exact absurd (hclosed.symm.trans hopen) Bool.false_ne_true
        exact ⟨.resumed hrequested hanswered hresumed rfl hopen, hopen rc' rfl⟩
      · intro _ w hresumed
        exact .resumed hrequested hanswered hresumed rfl fun _ h => nomatch h
    · exact fun _ v hdid => .unanswered hrequested hdid
  · exact fun _ u hsame => .unanswered (hrequested.same hsame) .refl

theorem connectExchange_connects (options : ConnectData) :
    wp (connectExchange p fuel options)
      (fun rc t => Connects s (some rc) t ∧
        (s.client.isconnected = false → t.client.isconnected = true → rc = success))
      (fun _ t => Connects s none t) s := by
  unfold connectExchange
  rw [wp_bind, wp_getClient, wp_bind]
  apply wp_mono (newTimer_moves (Same.outward p).toDiscreet _ s)
  · intro timer t hst
    rw [wp_ite, wp_pure, wp_bind, wp_modifyClient, wp_bind]
    constructor
    · intro hopen
      exact ⟨.unasked (by decide) hst.history hst.isconnected,
        fun h => absurd (h.symm.trans hopen) Bool.false_ne_true⟩
    · intro hclosed
      have hs : s.client.isconnected = false := Bool.eq_false_iff.mpr hclosed
      apply wp_mono (serialize_beginsWith (mqttSerializeConnect_beginsWith options))
      · rintro len u ⟨htu, hpacket⟩
        have hsu : u.own = { s.own with pingSent := u.own.pingSent } := by rw [htu.own, hst.own]
        have hu : u.client.isconnected = s.client.isconnected :=
          htu.isconnected.trans hst.isconnected
        rw [wp_ite, wp_pure, wp_bind]
        constructor
        · intro _
          refine ⟨.unasked (by decide) (by rw [hsu]) hu, fun _ hopen => ?_⟩
          exact absurd (hs.symm.trans (hu.symm.trans hopen)) Bool.false_ne_true
        · intro hlen
          obtain ⟨bytes, hbytes, -⟩ := hpacket (by omega)
          apply wp_mono (sendPacket_sent len.toNat timer)
          · rintro rc _ ⟨v, huv, rfl⟩
            have hrequested :
                Requested s rc (noted v (.sent (u.client.buf.take len.toNat) rc)) := by
              refine ⟨huv.isconnected.trans (hu.trans hs), u.client.buf.take len.toNat,
                v.own.pingSent, ?_, ?_⟩
              · rw [hbytes]
                exact MQTTHeader.type_ofBits_code .connect 0 0 0
              · rw [noted, huv.own, hsu]
            rw [wp_ite, wp_pure]
            constructor
            · intro hfailed
              exact ⟨.unsent hfailed hrequested, fun _ hopen =>
                absurd (hrequested.isconnected.symm.trans hopen) Bool.false_ne_true⟩
            · intro hsuccess
              obtain rfl : rc = success := not_not.mp hsuccess
              apply wp_imp (requested_connects hrequested)
              exact fun _ _ h => ⟨h.1, fun _ => h.2⟩
          · intro _ v huv
            exact .unasked (by simp) (by rw [huv.own, hsu]) (huv.isconnected.trans hu)
      · intro _ u htu
        exact .unasked (by simp) (by rw [htu.own, hst.own]) (htu.isconnected.trans hst.isconnected)
  · exact fun _ _ hst => .unasked (by simp) hst.history hst.isconnected

/-- `connect` opens the session when it returns success and not otherwise. -/
theorem connect_connects (options : ConnectData) :
    wp (connect p fuel options)
      (fun rc t => Connects s (some rc) t ∧
        (s.client.isconnected = false → t.client.isconnected = true → rc = success))
      (fun _ t => Connects s none t) s := by
  unfold connect
  rw [wp_bind]
  apply wp_imp (connectExchange_connects options)
  rintro rc t ⟨hconnects, hopen⟩
  rw [wp_ite, wp_bind, wp_modifyClient, wp_pure, wp_pure]
  refine ⟨?_, fun _ => ⟨hconnects, hopen⟩⟩
  rintro rfl
  refine ⟨?_, fun _ _ => rfl⟩
  cases hconnects with
  | unasked hne _ _ => exact absurd rfl hne
  | unsent hne _ => exact absurd rfl hne
  | resumed hrequested hanswered hresumed hown _ =>
    refine .resumed hrequested hanswered hresumed hown fun rc' hrc' _ => ?_
    exact (Option.some.inj hrc').symm

namespace Occurrence

def SendsMessage : Occurrence → Prop
  | .sent packet _ =>
    typeOf packet = MsgType.publish.code ∨ typeOf packet = MsgType.pubrel.code
  | _ => False

def IsPubrec : Occurrence → Prop
  | .received packetType _ => packetType = MsgType.pubrec.code
  | _ => False

instance : DecidablePred SendsMessage
  | .sent .. => inferInstanceAs (Decidable (_ ∨ _))
  | .received .. | .delivered .. | .released _ | .keptAlive .. | .publishing .. | .awaiting _
  | .awaited | .resuming | .resending _ => inferInstanceAs (Decidable False)

instance : DecidablePred IsPubrec
  | .received .. => inferInstanceAs (Decidable (_ = _))
  | .sent .. | .delivered .. | .released _ | .keptAlive .. | .publishing .. | .awaiting _
  | .awaited | .resuming | .resending _ => inferInstanceAs (Decidable False)

end Occurrence

/-- The broker has accepted before anything of this kind. -/
def AfterAccepted (Q : Occurrence → Prop) (log : List Occurrence) : Prop :=
  Throughout (fun o earlier => Q o → ∃ a ∈ earlier, a.Accepts) log

instance (Q : Occurrence → Prop) [DecidablePred Q] (log : List Occurrence) :
    Decidable (AfterAccepted Q log) :=
  inferInstanceAs (Decidable (Throughout _ log))

/-- The broker has accepted before a message is found in flight, and before it sends
a PUBREC. -/
def AcceptedFirst (s : Client ω τ H) (log : List Occurrence) : Prop :=
  (s.own.inflightMsgid ≠ 0 → AfterAccepted (· = .resuming) log) ∧
    AfterAccepted Occurrence.IsPubrec log

instance (s : Client ω τ H) (log : List Occurrence) : Decidable (AcceptedFirst s log) :=
  inferInstanceAs (Decidable (_ ∧ _))

/-- The CONNECT and what comes in until the message in flight is looked for. -/
structure Opening (log : List Occurrence) : Prop where
  split : ∃ routine packet rc, log = routine ++ [.sent packet rc] ∧
    typeOf packet = MsgType.connect.code ∧ ∀ o ∈ routine, o.Routine

/-- A PUBLISH or a PUBREL that is sent meanwhile answers a PUBREC that has just come in. -/
theorem Opening.message_inv {history earlier : List Occurrence} {packet : List UInt8}
    (h : Opening log) (hlawful : Lawful (log ++ history))
    (hsuffix : .sent packet rc :: earlier <:+ log)
    (hmessage : typeOf packet = MsgType.publish.code ∨ typeOf packet = MsgType.pubrel.code) :
    ∃ o before id, earlier = o :: before ∧ o.Acknowledges .pubrec id ∧
      packet = ackBytes .pubrel id := by
  obtain ⟨routine, packet', rc', rfl, htype, hroutine⟩ := h.split
  have hfollows : (Occurrence.sent packet rc).Follows (earlier ++ history) :=
    hlawful.entry (suffix_append hsuffix history)
  have hsending : Sending (earlier ++ history) packet := hfollows
  cases earlier with
  | nil =>
    -- this is the CONNECT
    obtain ⟨later, hlater⟩ := hsuffix
    obtain ⟨-, heq⟩ := List.append_inj' hlater rfl
    have hpacket : packet = packet' := (Occurrence.sent.inj (List.cons.inj heq).1).1
    rw [hpacket, htype] at hmessage
    exact absurd hmessage (by decide)
  | cons o before =>
    rcases hsending.message_inv hmessage with hannounced | ⟨o', before', id, heq, hack, hpacket⟩
    · have hbefore : o :: before <:+ routine ++ [.sent packet' rc'] :=
        (List.suffix_cons _ _).trans hsuffix
      have ho : o.Routine := by
        rcases List.mem_append.mp (hbefore.mem List.mem_cons_self) with hmem | hmem
        · exact hroutine o hmem
        · rw [List.mem_singleton.mp hmem]
          trivial
      obtain ⟨before', ⟨id, qos, heq⟩ | heq⟩ := hannounced
      · rw [(List.cons.inj heq).1] at ho
        exact ho.elim
      · rw [(List.cons.inj heq).1] at ho
        exact ho.elim
    · exact ⟨o, before, id, rfl, (List.cons.inj heq).1 ▸ hack, hpacket⟩

theorem Opening.afterAccepted {history : List Occurrence} (h : Opening log)
    (hlawful : Lawful (log ++ history)) (hpubrec : AfterAccepted Occurrence.IsPubrec log) :
    AfterAccepted Occurrence.SendsMessage log := by
  refine throughout_iff.mpr fun o earlier hsuffix hsends => ?_
  cases o with
  | sent packet rc =>
    obtain ⟨o, before, id, rfl, hack, -⟩ := h.message_inv hlawful hsuffix hsends
    have hpubrec' : o.IsPubrec := by
      obtain ⟨readbuf, rfl, -⟩ := hack
      rfl
    obtain ⟨a, ha, haccepts⟩ := hpubrec.entry ((List.suffix_cons _ _).trans hsuffix) hpubrec'
    exact ⟨a, List.mem_cons_of_mem o ha, haccepts⟩
  | received | delivered | released | keptAlive | publishing | awaiting | awaited | resuming
  | resending => exact hsends.elim

/-- The log of a call of `connect`. -/
inductive ConnectLog (s : Client ω τ H) (result : Option ℤ) (t : Client ω τ H) :
    List Occurrence → Prop
  | silent : result ≠ some success → ConnectLog s result t []
  | opening {log : List Occurrence} : result ≠ some success → Opening log →
      ConnectLog s result t log
  | resumed {log later : List Occurrence} : Opening log → s.own.inflightMsgid ≠ 0 →
      ConnectLog s result t (later ++ .resuming :: log)
  | answered {log : List Occurrence} : Opening log → s.own.inflightMsgid = 0 →
      (result = some success → ∃ o ∈ log, o.Accepts ∨ o.Truncated) →
      ConnectLog s result t (.resuming :: log)

theorem Requested.opening {routine : List Occurrence} (h : Requested s rc t)
    (hhistory : u.own.history = routine ++ t.own.history) (hroutine : ∀ o ∈ routine, o.Routine) :
    ∃ packet, u.own.history = (routine ++ [.sent packet rc]) ++ s.own.history ∧
      Opening (routine ++ [.sent packet rc]) := by
  obtain ⟨packet, pingSent, htype, hown⟩ := h.own
  refine ⟨packet, ?_, routine, packet, rc, rfl, htype, hroutine⟩
  rw [hhistory, hown, List.append_assoc, List.singleton_append]

theorem Requested.inflightMsgid (h : Requested s rc t) (hdid : Did t u) :
    u.own.inflightMsgid = s.own.inflightMsgid := by
  obtain ⟨packet, pingSent, -, hown⟩ := h.own
  rw [(hdid.keeps (.inl h.isconnected)).inflightMsgid, hown]

/-- A CONNACK that `connect` takes for one that accepts has come in while it has waited. -/
theorem Answered.accepted_mem {packet : List UInt8} (h : Answered t rc u) (hrc : rc = success)
    (hlog : u.own.history = log ++ t.own.history) :
    ∃ o ∈ log ++ [.sent packet success], o.Accepts ∨ o.Truncated := by
  obtain ⟨hwaited, htaken⟩ := h.accepted hrc
  obtain ⟨log', hlog', hmem⟩ := hwaited.received rfl
  have heq : log' = log := List.append_cancel_right (hlog'.symm.trans hlog)
  rw [heq] at hmem
  exact ⟨_, List.mem_append_left _ hmem, htaken.accepts_or_truncated⟩

theorem Connects.connectLog {result : Option ℤ} (h : Connects s result t) :
    ∃ log, t.own.history = log ++ s.own.history ∧ ConnectLog s result t log := by
  cases h with
  | unasked hresult hhistory _ => exact ⟨[], hhistory, .silent hresult⟩
  | unsent hrc hrequested =>
    obtain ⟨packet, hhistory, hopening⟩ := hrequested.opening (List.nil_append _).symm
      fun _ h => absurd h List.not_mem_nil
    exact ⟨_, hhistory, .opening (fun h => hrc (Option.some.inj h)) hopening⟩
  | unanswered hrequested hdid =>
    obtain ⟨routine, hlog, hroutine⟩ := hdid.routine
    obtain ⟨packet, hhistory, hopening⟩ := hrequested.opening hlog hroutine
    exact ⟨_, hhistory, .opening (fun h => nomatch h) hopening⟩
  | resumed hrequested hanswered hresumed hown _ =>
    obtain ⟨routine, hlog, hroutine⟩ := hanswered.did.routine
    obtain ⟨packet, hhistory, hopening⟩ := hrequested.opening hlog hroutine
    have hsame := hrequested.inflightMsgid hanswered.did
    rw [hown]
    cases hresumed with
    | nothing hzero =>
      refine ⟨.resuming :: (routine ++ [.sent packet success]),
        congrArg (Occurrence.resuming :: ·) hhistory,
        .answered hopening (hsame ▸ hzero) fun hrc => ?_⟩
      exact hanswered.accepted_mem (Option.some.inj hrc) hlog
    | resent hinflight hsteps _ =>
      obtain ⟨later, hlater⟩ := hsteps.suffix
      refine ⟨later ++ .resuming :: (routine ++ [.sent packet success]), ?_,
        .resumed hopening (hsame ▸ hinflight)⟩
      have hresuming : (noted _ .resuming).own.history = .resuming :: _ :=
        congrArg (Occurrence.resuming :: ·) hhistory
      rw [← hlater, hresuming, List.append_assoc later, List.cons_append]

theorem afterAccepted_append {Q : Occurrence → Prop} {later : List Occurrence}
    (h : AfterAccepted Q log) (haccepted : ∃ a ∈ log, a.Accepts) (ho : ¬ Q o) :
    AfterAccepted Q (later ++ o :: log) := by
  refine throughout_iff.mpr fun o' earlier hsuffix hQ => ?_
  have hlog : o :: log <:+ later ++ o :: log := List.suffix_append _ _
  rcases List.suffix_or_suffix_of_suffix hsuffix hlog with hbelow | habove
  · rcases List.suffix_cons_iff.mp hbelow with heq | hbelow
    · rw [(List.cons.inj heq).1] at hQ
      exact absurd hQ ho
    · exact h.entry hbelow hQ
  · obtain ⟨a, ha, haccepts⟩ := haccepted
    rcases List.suffix_cons_iff.mp habove with heq | habove
    · rw [← (List.cons.inj heq).1] at hQ
      exact absurd hQ ho
    · exact ⟨a, habove.mem (List.mem_cons_of_mem o ha), haccepts⟩

theorem ConnectLog.accepted {result : Option ℤ} {history : List Occurrence}
    (h : ConnectLog s result t log) (hlawful : Lawful (log ++ history))
    (hwhole : ∀ o ∈ log, ¬ o.Truncated) (hfirst : AcceptedFirst s log) :
    (result = some success → ∃ o ∈ log, o.Accepts) ∧
      AfterAccepted Occurrence.SendsMessage log := by
  cases h with
  | silent hresult => exact ⟨fun h => absurd h hresult, trivial⟩
  | opening hresult hopening =>
    exact ⟨fun h => absurd h hresult, hopening.afterAccepted hlawful hfirst.2⟩
  | @resumed log later hopening hinflight =>
    have hlog : log <:+ later ++ .resuming :: log :=
      (List.suffix_cons _ _).trans (List.suffix_append _ _)
    have hbase := hopening.afterAccepted (hlawful.suffix (suffix_append hlog _))
      (hfirst.2.suffix hlog)
    obtain ⟨a, ha, haccepts⟩ := (hfirst.1 hinflight).entry (List.suffix_append later _) rfl
    exact ⟨fun _ => ⟨a, hlog.mem ha, haccepts⟩,
      afterAccepted_append hbase ⟨a, ha, haccepts⟩ fun h => h⟩
  | @answered log hopening hzero haccepted =>
    have hlog : log <:+ .resuming :: log := List.suffix_cons _ _
    have hbase := hopening.afterAccepted (hlawful.suffix (suffix_append hlog _))
      (hfirst.2.suffix hlog)
    refine ⟨fun hrc => ?_, fun h => h.elim, hbase⟩
    obtain ⟨o, ho, haccepts⟩ := haccepted hrc
    exact ⟨o, hlog.mem ho, haccepts.resolve_right (hwhole o (hlog.mem ho))⟩

/-- Whatever has happened before and whatever comes in: if the broker accepts before a
message is found in flight and before it sends a PUBREC, then the client is connected
only after the broker has accepted, and sends no PUBLISH or PUBREL before. -/
theorem connect_accepted {fuel' : ℕ} {old : Client ω τ H} {commandTimeoutMs : ℕ}
    {calls : List (Call H)} {options : ConnectData} {result : Option ℤ}
    (hreach : Run p fuel' calls (construct old commandTimeoutMs) s)
    (hends : Ends (connect p fuel options) s result t)
    (hwhole : ∀ o ∈ written s t, ¬ o.Truncated) (hfirst : AcceptedFirst s (written s t)) :
    (result = some success → ∃ o ∈ written s t, o.Accepts) ∧
    (∀ rc, result = some rc → s.client.isconnected = false → t.client.isconnected = true →
      rc = success) ∧
    AfterAccepted Occurrence.SendsMessage (written s t) := by
  have haccount : Account s := hreach.post (runCalls_account p fuel' old commandTimeoutMs calls)
  have hsteps : Steps s t := hends.post (Q := fun _ t => Steps s t) (connect_steps options s)
  have hconnects : Connects s result t ∧ ∀ rc, result = some rc → s.client.isconnected = false →
      t.client.isconnected = true → rc = success := by
    refine hends.post (Q := fun result t => Connects s result t ∧ ∀ rc, result = some rc →
      s.client.isconnected = false → t.client.isconnected = true → rc = success) ?_
    apply wp_mono (connect_connects options)
    · rintro rc t ⟨hconnects, hopen⟩
      refine ⟨hconnects, fun rc' hrc' => ?_⟩
      rw [← Option.some.inj hrc']
      exact hopen
    · exact fun _ t hconnects => ⟨hconnects, fun _ h => nomatch h⟩
  obtain ⟨log, hlog, hconnect⟩ := hconnects.1.connectLog
  have hlawful : Lawful (log ++ s.own.history) := hlog ▸ (haccount.steps hsteps).lawful
  rw [written_eq hlog] at hwhole hfirst ⊢
  obtain ⟨haccepts, hafter⟩ := hconnect.accepted hlawful hwhole hfirst
  exact ⟨haccepts, hconnects.2, hafter⟩

/-- No PUBLISH is sent, and a PUBREL only in answer to a PUBREC that has come in. -/
def SendsOnlyAnswers (log : List Occurrence) : Prop :=
  ∀ packet rc earlier, .sent packet rc :: earlier <:+ log →
    typeOf packet = MsgType.publish.code ∨ typeOf packet = MsgType.pubrel.code →
    ∃ o ∈ earlier, ∃ id, o.Acknowledges .pubrec id ∧ packet = ackBytes .pubrel id

theorem Opening.sendsOnlyAnswers {history : List Occurrence} (h : Opening log)
    (hlawful : Lawful (log ++ history)) : SendsOnlyAnswers (.resuming :: log) := by
  intro packet rc earlier hsuffix hmessage
  rcases List.suffix_cons_iff.mp hsuffix with heq | hsuffix
  · exact nomatch (List.cons.inj heq).1
  · obtain ⟨o, before, id, rfl, hack, hpacket⟩ := h.message_inv hlawful hsuffix hmessage
    exact ⟨o, List.mem_cons_self, id, hack, hpacket⟩

theorem Requested.account (h : Requested s rc t) (hs : Account s) : Account t := by
  obtain ⟨packet, pingSent, htype, hown⟩ := h.own
  have hnoted : Account (noted s (.sent packet rc)) :=
    hs.noted trivial (.request (by simp) htype)
  refine hnoted.ping ?_
  rw [hown, noted]

/-- What the broker releases while the CONNACK is waited for. -/
theorem Requested.released (h : Requested s success t) (hs : Account s)
    (hanswered : Answered t success u) (hlog : u.own.history = log ++ t.own.history)
    (hid : id ∈ held s.own.incomingQoS2messages) (hack : ∃ o ∈ log, o.Acknowledges .pubrel id) :
    .released id ∈ log := by
  obtain ⟨packet, pingSent, -, hown⟩ := h.own
  have hheld : id ∈ held t.own.incomingQoS2messages := by rwa [hown]
  obtain ⟨hwaited, -⟩ := hanswered.accepted rfl
  obtain ⟨log', hlog', hreleased⟩ := hwaited.released (h.account hs) hheld (Int.natCast_nonneg _)
  obtain rfl : log' = log := List.append_cancel_right (hlog'.symm.trans hlog)
  exact hreleased hack

/-- A call of `connect` with whatever options. -/
def Call.IsConnect : Call H → Prop
  | connect _ => True
  | publish .. | publishWithoutId .. | publishMessage .. | subscribe .. | unsubscribe _ | yield _
  | disconnect | setMessageHandler .. | setDefaultMessageHandler _ => False

instance : DecidablePred (Call.IsConnect : Call H → Prop)
  | .connect _ => .isTrue trivial
  | .publish .. | .publishWithoutId .. | .publishMessage .. | .subscribe .. | .unsubscribe _
  | .yield _ | .disconnect | .setMessageHandler .. | .setDefaultMessageHandler _ =>
    .isFalse fun h => h

theorem Connects.clean (h : Connects s (some success) t) (hs : Account s) (ht : Account t)
    (hinflight : s.own.inflightMsgid = 0)
    (hreleased : ∀ id ∈ held s.own.incomingQoS2messages,
      ∃ o ∈ written s t, o.Acknowledges .pubrel id) :
    SendsOnlyAnswers (written s t) ∧ t.own.inflightMsgid = 0 ∧
      ∀ id ∈ held s.own.incomingQoS2messages, .released id ∈ written s t := by
  cases h with
  | unasked hne _ _ => exact absurd rfl hne
  | unsent hne _ => exact absurd rfl hne
  | resumed hrequested hanswered hresumed hown _ =>
    have hsame := hrequested.inflightMsgid hanswered.did
    cases hresumed with
    | resent hne _ _ => exact absurd (hsame.trans hinflight) hne
    | nothing hzero =>
      obtain ⟨routine, hroutine, hall⟩ := hanswered.did.routine
      obtain ⟨packet, hhistory, hopening⟩ := hrequested.opening hroutine hall
      have hlog : t.own.history = .resuming :: (routine ++ [.sent packet success]) ++
          s.own.history := by
        rw [hown, noted, hhistory]
        rfl
      have hlawful := ht.lawful
      rw [hlog] at hlawful
      rw [written_eq hlog] at hreleased ⊢
      refine ⟨hopening.sendsOnlyAnswers (hlawful.suffix (List.suffix_cons _ _)), ?_, ?_⟩
      · rw [hown]
        exact hzero
      · intro id hid
        obtain ⟨o, ho, hack⟩ := hreleased id hid
        have hmem : .released id ∈ routine := by
          refine hrequested.released hs hanswered hroutine hid ⟨o, ?_, hack⟩
          obtain ⟨readbuf, rfl, -⟩ := hack
          simpa using ho
        exact List.mem_cons_of_mem _ (List.mem_append_left _ hmem)

/-- In every run, a call of `connect` that returns success leaves nothing of an earlier
session, if it has found no message in flight and the broker has released what was
outstanding. Whether the new session is to be a clean one makes no difference. -/
theorem runCalls_cleanStart {old : Client ω τ H} {commandTimeoutMs : ℕ} {calls : List (Call H)}
    {entries : List (Entry ω τ H)} {e : Entry ω τ H}
    (hrun : runCalls p fuel calls (construct old commandTimeoutMs) = .ok entries t)
    (he : e ∈ entries) (hcall : e.call.IsConnect) (hrc : e.rc = success)
    (hinflight : e.before.own.inflightMsgid = 0)
    (hreleased : ∀ id ∈ held e.before.own.incomingQoS2messages,
      ∃ o ∈ written e.before e.after, o.Acknowledges .pubrel id) :
    SendsOnlyAnswers (written e.before e.after) ∧ e.after.own.inflightMsgid = 0 ∧
      ∀ id ∈ held e.before.own.incomingQoS2messages,
        .released id ∈ written e.before e.after := by
  obtain ⟨calls', entries', hbefore, hperform⟩ := runCalls_entry hrun he
  obtain ⟨options, hconnect⟩ : ∃ options, e.call = .connect options := by
    cases hkind : e.call with
    | connect options => exact ⟨options, rfl⟩
    | publish | publishWithoutId | publishMessage | subscribe | unsubscribe | yield | disconnect
    | setMessageHandler | setDefaultMessageHandler =>
      rw [hkind] at hcall
      exact hcall.elim
  rw [hconnect, hrc] at hperform
  have haccount := wp_result (runCalls_account p fuel old commandTimeoutMs calls') hbefore
  have hsteps := wp_result (connect_steps _ e.before) hperform
  have hconnects := wp_result (connect_connects _) hperform
  exact hconnects.1.clean haccount (haccount.steps hsteps) hinflight hreleased

def persistent : ConnectData := { connectDataInitializer with cleansession := 0 }

def interruptedPublish : List (Call Unit) :=
  [.connect (some persistent), .publish ⟨[97], unterminated_a⟩ [1] 1 0 1 false]

/-- The connection on which the publish is interrupted, and the next one. -/
def interruptedClient (next : List UInt8) : Client (List (List UInt8)) Unit Unit :=
  construct (beforehand [[0x20, 2, 0, 0], next]) 1000

/-- The broker refuses the connection, and acknowledges the PUBLISH that comes all the
same: `connect` returns success. -/
theorem connect_not_accepted : ∃ entries s t,
    runCalls connectionsPlatform 16 interruptedPublish
      (interruptedClient [0x20, 2, 0, 5, 0x40, 2, 0, 1]) = .ok entries s ∧
    connect connectionsPlatform 16 persistent s = .ok success t ∧
    (∀ o ∈ written s t, ¬ o.Truncated) ∧ (∀ o ∈ written s t, ¬ o.Accepts) ∧
      ¬ AfterAccepted Occurrence.SendsMessage (written s t) := by
  obtain ⟨entries, s, hrun, hconnect⟩ : ∃ entries s,
      runCalls connectionsPlatform 16 interruptedPublish
        (interruptedClient [0x20, 2, 0, 5, 0x40, 2, 0, 1]) = .ok entries s ∧
      wp (connect connectionsPlatform 16 persistent) (fun rc t => rc = success ∧
        (∀ o ∈ written s t, ¬ o.Truncated) ∧
        (∀ o ∈ written s t, ¬ o.Accepts) ∧
        ¬ AfterAccepted Occurrence.SendsMessage (written s t)) (fun _ _ => False) s :=
    wp_total (by decide +kernel)
  obtain ⟨rc, t, hrun', rfl, hall⟩ := wp_total hconnect
  exact ⟨entries, s, t, hrun, hrun', hall⟩

/-- The broker accepts, and the message is sent again. -/
theorem connect_accepted_resent : ∃ entries s t,
    runCalls connectionsPlatform 16 interruptedPublish
      (interruptedClient [0x20, 2, 0, 0, 0x40, 2, 0, 1]) = .ok entries s ∧
    connect connectionsPlatform 16 persistent s = .ok success t ∧
    ∃ o ∈ written s t, o.Accepts := by
  obtain ⟨entries, s, hrun, hconnect⟩ : ∃ entries s,
      runCalls connectionsPlatform 16 interruptedPublish
        (interruptedClient [0x20, 2, 0, 0, 0x40, 2, 0, 1]) = .ok entries s ∧
      wp (connect connectionsPlatform 16 persistent) (fun rc t => rc = success ∧
        (∀ o ∈ written s t, ¬ o.Truncated) ∧
        AcceptedFirst s (written s t)) (fun _ _ => False) s :=
    wp_total (by decide +kernel)
  obtain ⟨rc, t, hrun', rfl, hwhole, hfirst⟩ := wp_total hconnect
  have haccepted := connect_accepted (Run.done hrun) (.value hrun') hwhole hfirst
  exact ⟨entries, s, t, hrun, hrun', haccepted.1 rfl⟩

/-- The identifier of an acknowledgement of this type that has come in. -/
def Occurrence.acknowledged (packetType : MsgType) : Occurrence → Option UInt16
  | .received packetType' readbuf =>
    if packetType' = packetType.code then acknowledgedId readbuf else none
  | _ => none

theorem Occurrence.acknowledges_of_acknowledged {packetType : MsgType} (o : Occurrence)
    (h : o.acknowledged packetType = some id) : o.Acknowledges packetType id := by
  cases o with
  | received packetType' readbuf =>
    unfold acknowledged at h
    dsimp only at h
    split_ifs at h with htype
    exact ⟨readbuf, by rw [htype], h⟩
  | sent | delivered | released | keptAlive | publishing | awaiting | awaited | resuming
  | resending => exact nomatch h

/-- A PUBLISH at QoS 2 with identifier 5, and no PUBACK. -/
def leftover : List UInt8 := [0x20, 2, 0, 0, 0x34, 5, 0, 1, 97, 0, 5]

/-- The old PUBLISH is sent on the new connection, and 5 stays outstanding. -/
theorem runCalls_not_cleanStart : ∃ entries t,
    runCalls connectionsPlatform 16 (interruptedPublish ++ [.connect none])
      (construct (beforehand [leftover, [0x20, 2, 0, 0, 0x40, 2, 0, 1]]) 1000) = .ok entries t ∧
    ∃ e ∈ entries, e.call.IsConnect ∧ e.after.client.cleansession = true ∧ e.rc = success ∧
      ¬ SendsOnlyAnswers (written e.before e.after) ∧
      5 ∈ held e.before.own.incomingQoS2messages ∧ .released 5 ∉ written e.before e.after := by
  obtain ⟨entries, t, hrun, e, he, hcall, hclean, hrc, hsent, hheld, hreleased⟩ : ∃ entries t,
      runCalls connectionsPlatform 16 (interruptedPublish ++ [.connect none])
        (construct (beforehand [leftover, [0x20, 2, 0, 0, 0x40, 2, 0, 1]]) 1000) = .ok entries t ∧
      ∃ e ∈ entries, e.call.IsConnect ∧ e.after.client.cleansession = true ∧ e.rc = success ∧
        ((written e.before e.after).drop 4).head? =
          some (.sent [0x32, 6, 0, 1, 97, 0, 1, 1] success) ∧
        5 ∈ held e.before.own.incomingQoS2messages ∧ .released 5 ∉ written e.before e.after :=
    wp_total (by decide +kernel)
  refine ⟨entries, t, hrun, e, he, hcall, hclean, hrc, fun h => ?_, hheld, hreleased⟩
  have hmessage : typeOf [0x32, 6, 0, 1, 97, 0, 1, 1] = MsgType.publish.code := by decide
  obtain ⟨o, -, id, -, hpacket⟩ := h _ _ _ (suffix_of_drop hsent) (.inl hmessage)
  have htype := congrArg typeOf hpacket
  rw [hmessage, typeOf_ackBytes] at htype
  exact absurd (MsgType.code_injective htype) (by decide)

/-- The broker releases 5 before it accepts. -/
theorem runCalls_cleanStart_released : ∃ entries t,
    runCalls connectionsPlatform 16 [.connect (some persistent), .yield 1000, .connect none]
      (construct (beforehand [leftover, [0x62, 2, 0, 5, 0x20, 2, 0, 0]]) 1000) = .ok entries t ∧
    ∃ e ∈ entries, 5 ∈ held e.before.own.incomingQoS2messages ∧
      .released 5 ∈ written e.before e.after := by
  obtain ⟨entries, t, hrun, e, he, hcall, hrc, hinflight, hheld, hack⟩ : ∃ entries t,
      runCalls connectionsPlatform 16 [.connect (some persistent), .yield 1000, .connect none]
        (construct (beforehand [leftover, [0x62, 2, 0, 5, 0x20, 2, 0, 0]]) 1000) = .ok entries t ∧
      ∃ e ∈ entries, e.call.IsConnect ∧ e.rc = success ∧ e.before.own.inflightMsgid = 0 ∧
        held e.before.own.incomingQoS2messages = [5] ∧
        ∃ o ∈ written e.before e.after, o.acknowledged .pubrel = some 5 :=
    wp_total (by decide +kernel)
  obtain ⟨o, ho, hack⟩ := hack
  have hreleased : ∀ id ∈ held e.before.own.incomingQoS2messages,
      ∃ o ∈ written e.before e.after, o.Acknowledges .pubrel id := by
    intro id hid
    rw [hheld] at hid
    rw [List.mem_singleton.mp hid]
    exact ⟨o, ho, o.acknowledges_of_acknowledged hack⟩
  have hclean := runCalls_cleanStart hrun he hcall hrc hinflight hreleased
  have hmem : 5 ∈ held e.before.own.incomingQoS2messages := by
    rw [hheld]
    exact List.mem_singleton.mpr rfl
  exact ⟨entries, t, hrun, e, he, hmem, hclean.2.2 5 hmem⟩

end MqttEmbedded.ClientCpp
