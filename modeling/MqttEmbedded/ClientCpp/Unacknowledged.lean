import MqttEmbedded.ClientCpp.Connecting

/-!
# Messages that are not acknowledged

A message at QoS 1 or 2 is unacknowledged from its publishing until the PUBACK or the
PUBCOMP with its identifier comes in, whatever the client is doing at that moment. The
client has the message in flight for it, and learns of an acknowledgement only if it is
waiting for one.
-/

namespace MqttEmbedded.ClientCpp

open Region Hoare Log

variable {ω τ H : Type} {p : Platform ω τ H} {fuel : ℕ} {timer : τ} {s t u : Client ω τ H}
  {history earlier log : List Occurrence} {o : Occurrence} {packet : List UInt8} {rc : ℤ}

structure Message where
  id : UInt16
  qos : ℕ
  packet : List UInt8
  deriving DecidableEq

/-- The acknowledgement that completes a message at QoS 1 or 2. -/
def Message.ack (m : Message) : MsgType := if m.qos = 1 then .puback else .pubcomp

namespace Occurrence

/-- The acknowledgement of the message has come in. -/
def Completes (m : Message) (o : Occurrence) : Prop := o.acknowledged m.ack = some m.id

instance (m : Message) : DecidablePred (Completes m) := fun _ => inferInstanceAs (Decidable (_ = _))

/-- A new message takes the place of the one before. -/
def next (flight : Option Message) : Occurrence → Option Message
  | .publishing id qos packet => if qos = 1 ∨ qos = 2 then some ⟨id, qos, packet⟩ else flight
  | .received packetType readbuf =>
    flight.filter fun m => ¬ (Occurrence.received packetType readbuf).Completes m
  | .delivered .. | .sent .. | .released _ | .keptAlive .. | .awaiting _ | .awaited | .resuming
  | .resending _ => flight

end Occurrence

/-- The latest message at QoS 1 or 2, if its acknowledgement has not come in. -/
def unacknowledged (history : List Occurrence) : Option Message :=
  history.foldr (fun o flight => o.next flight) none

/-- What `publish` is waiting for. -/
def waitingFor : List Occurrence → Option MsgType
  | [] => none
  | .awaiting packetType :: _ => some packetType
  | .awaited :: _ => none
  | .received .. :: earlier | .delivered .. :: earlier | .sent .. :: earlier
  | .released _ :: earlier | .keptAlive .. :: earlier | .publishing .. :: earlier
  | .resuming :: earlier | .resending _ :: earlier => waitingFor earlier

/-- The latest packet that has come in is the acknowledgement of the message in flight. -/
def justCompleted : List Occurrence → Bool
  | [] => false
  | .received packetType readbuf :: earlier =>
    (unacknowledged earlier).any fun m => (Occurrence.received packetType readbuf).Completes m
  | .awaiting _ :: earlier | .awaited :: earlier | .delivered .. :: earlier
  | .sent .. :: earlier | .released _ :: earlier | .keptAlive .. :: earlier
  | .publishing .. :: earlier | .resuming :: earlier | .resending _ :: earlier =>
    justCompleted earlier

/-- A message at QoS 0 is published with identifier 0 and while every message is
acknowledged; an acknowledgement comes in while the client waits for it, and the check of
the keepalive does not fail on it. -/
def Occurrence.Orderly (earlier : List Occurrence) : Occurrence → Prop
  | .publishing id qos _ => (qos = 1 ∨ qos = 2) ∨ (id = 0 ∧ unacknowledged earlier = none)
  | .received packetType readbuf => ∀ m ∈ unacknowledged earlier,
      (Occurrence.received packetType readbuf).Completes m → waitingFor earlier = some m.ack
  | .keptAlive rc _ => rc = success ∨ justCompleted earlier = false
  | .delivered .. | .sent .. | .released _ | .awaiting _ | .awaited | .resuming
  | .resending _ => True

instance Occurrence.decidableOrderly (earlier : List Occurrence) :
    ∀ o : Occurrence, Decidable (o.Orderly earlier)
  | .publishing id qos _ =>
    inferInstanceAs (Decidable ((qos = 1 ∨ qos = 2) ∨ (id = 0 ∧ unacknowledged earlier = none)))
  | .received packetType readbuf =>
    have (m : Message) : Decidable ((Occurrence.received packetType readbuf).Completes m →
        waitingFor earlier = some m.ack) := inferInstance
    Option.decidableForallMem (unacknowledged earlier)
  | .keptAlive rc _ => inferInstanceAs (Decidable (rc = success ∨ justCompleted earlier = false))
  | .delivered .. | .sent .. | .released _ | .awaiting _ | .awaited | .resuming
  | .resending _ => .isTrue trivial

def Orderly (history : List Occurrence) : Prop :=
  Throughout (fun o earlier => o.Orderly earlier) history

instance (history : List Occurrence) : Decidable (Orderly history) :=
  inferInstanceAs (Decidable (Throughout _ history))

/-- Whatever is sent again is the message that is unacknowledged, at QoS 1 or 2. -/
def ResendsUnacknowledged (history : List Occurrence) : Prop :=
  ∀ packet earlier, .resending packet :: earlier <:+ history →
    ∃ m, unacknowledged earlier = some m ∧ (m.qos = 1 ∨ m.qos = 2) ∧ m.packet = packet

theorem filter_of_forall {flight : Option Message} {q : Message → Bool}
    (h : ∀ m ∈ flight, q m = true) : flight.filter q = flight := by
  cases flight with
  | none => rfl
  | some m => exact Option.filter_some_pos (h m rfl)

theorem filter_congr {flight : Option Message} {q q' : Message → Bool}
    (h : ∀ m ∈ flight, q m = q' m) : flight.filter q = flight.filter q' := by
  cases flight with
  | none => rfl
  | some m => rw [Option.filter_some, Option.filter_some, h m rfl]

theorem unacknowledged_cons (o : Occurrence) (earlier : List Occurrence) :
    unacknowledged (o :: earlier) = o.next (unacknowledged earlier) := rfl

theorem qos_of_unacknowledged {m : Message} (h : unacknowledged history = some m) :
    m.qos = 1 ∨ m.qos = 2 := by
  induction history with
  | nil => exact absurd h (Option.some_ne_none m).symm
  | cons o earlier ih =>
    rw [unacknowledged_cons] at h
    cases o with
    | publishing id qos packet =>
      rw [Occurrence.next] at h
      split_ifs at h with hqos
      · rw [← Option.some.inj h]
        exact hqos
      · exact ih h
    | received => exact ih (Option.filter_eq_some_iff.mp h).1
    | delivered | sent | released | keptAlive | awaiting | awaited | resuming | resending =>
      exact ih h

/-- Only what comes in completes a message. -/
theorem Occurrence.next_working (ho : o.Working) (flight : Option Message) :
    o.next flight = flight := by
  cases o with
  | delivered | sent | released | keptAlive => rfl
  | received | publishing | awaiting | awaited | resuming | resending => exact ho.elim

theorem unacknowledged_working (h : ∀ o ∈ log, o.Working) :
    unacknowledged (log ++ history) = unacknowledged history :=
  reading_append (fun _ earlier ho => Occurrence.next_working ho (unacknowledged earlier)) h

theorem justCompleted_working (h : ∀ o ∈ log, o.Working) :
    justCompleted (log ++ history) = justCompleted history := by
  refine reading_append (fun o _ ho => ?_) h
  cases o with
  | delivered | sent | released | keptAlive => rfl
  | received | publishing | awaiting | awaited | resuming | resending => exact ho.elim

theorem waitingFor_routine (h : ∀ o ∈ log, o.Routine) :
    waitingFor (log ++ history) = waitingFor history := by
  refine reading_append (fun o _ ho => ?_) h
  cases o with
  | received | delivered | sent | released | keptAlive => rfl
  | publishing | awaiting | awaited | resuming | resending => exact ho.elim

/-- While the client does not wait, nothing is acknowledged. -/
theorem unacknowledged_routine (h : ∀ o ∈ log, o.Routine) (hidle : waitingFor history = none)
    (horderly : Orderly (log ++ history)) :
    unacknowledged (log ++ history) = unacknowledged history := by
  induction log with
  | nil => rfl
  | cons o log ih =>
    obtain ⟨ho, hlog⟩ := List.forall_mem_cons.mp h
    obtain ⟨hfirst, hlater⟩ : o.Orderly (log ++ history) ∧ Orderly (log ++ history) := horderly
    have hrest := ih hlog hlater
    rw [List.cons_append, unacknowledged_cons, hrest]
    cases o with
    | received packetType readbuf =>
      refine filter_of_forall fun m hm => decide_eq_true fun hcompletes => ?_
      have hwaiting := hfirst m (hrest ▸ hm) hcompletes
      rw [waitingFor_routine hlog, hidle] at hwaiting
      exact absurd hwaiting (Option.some_ne_none _).symm
    | delivered | sent | released | keptAlive => rfl
    | publishing | awaiting | awaited | resuming | resending => exact ho.elim

/-- The message that the client has in flight. -/
def Extras.flight (own : Extras τ) : Option Message :=
  if own.inflightMsgid = 0 then none
  else some ⟨own.inflightMsgid, own.inflightQoS, own.pubbuf.take own.inflightLen⟩

theorem id_of_flight {own : Extras τ} {m : Message} (h : own.flight = some m) :
    m.id = own.inflightMsgid := by
  unfold Extras.flight at h
  split_ifs at h
  rw [← Option.some.inj h]

/-- The client has in flight the message that is unacknowledged, but for an acknowledgement
of `acked` that it has received and not looked at. -/
structure Accurate (awaited : Option MsgType) (acked : Option UInt16) (s : Client ω τ H) :
    Prop where
  lasting : Lasting s
  clean : s.client.cleansession = true → s.own.inflightMsgid = 0
  pubrel : s.own.pubrel = false
  nextPacketid : s.client.nextPacketid ≤ maxPacketId
  waiting : waitingFor s.own.history = awaited
  flight : unacknowledged s.own.history = s.own.flight.filter fun m => acked ≠ some m.id

/-- The same as long as all has been orderly. -/
def Settled (awaited : Option MsgType) (acked : Option UInt16) (s : Client ω τ H) : Prop :=
  Orderly s.own.history → Accurate awaited acked s

theorem filter_none (flight : Option Message) :
    (flight.filter fun m => (none : Option UInt16) ≠ some m.id) = flight :=
  filter_of_forall fun m _ => decide_eq_true (Option.some_ne_none m.id).symm

namespace Accurate

variable {awaited awaited' : Option MsgType} {acked acked' : Option UInt16}

theorem flight_eq (h : Accurate awaited none s) : unacknowledged s.own.history = s.own.flight := by
  rw [h.flight, filter_none]

theorem keeps (h : Accurate awaited acked s) (hkeeps : Keeps s t)
    (hwaiting : waitingFor t.own.history = awaited')
    (hflight : unacknowledged t.own.history = s.own.flight.filter fun m => acked' ≠ some m.id) :
    Accurate awaited' acked' t where
  lasting := hkeeps.lasting h.lasting
  clean := by
    rw [hkeeps.cleansession, hkeeps.inflightMsgid]
    exact h.clean
  pubrel := by
    rw [hkeeps.own]
    exact h.pubrel
  nextPacketid := hkeeps.nextPacketid h.nextPacketid
  waiting := hwaiting
  flight := by
    rw [hflight, hkeeps.own]
    rfl

/-- What is done without waiting for an acknowledgement. -/
theorem routine (h : Accurate none none s) (hkeeps : Keeps s t)
    (hhistory : t.own.history = log ++ s.own.history) (hlog : ∀ o ∈ log, o.Routine)
    (horderly : Orderly t.own.history) : Accurate none none t := by
  rw [hhistory] at horderly
  refine h.keeps hkeeps ?_ ?_
  · rw [hhistory, waitingFor_routine hlog, h.waiting]
  · rw [hhistory, unacknowledged_routine hlog h.waiting horderly, h.flight]

theorem did (h : Accurate none none s) (hdid : Did s t) (horderly : Orderly t.own.history) :
    Accurate none none t := by
  obtain ⟨log, hhistory, hlog⟩ := hdid.routine
  exact h.routine (hdid.keeps h.lasting) hhistory hlog horderly

theorem closed (h : Accurate none none s) (horderly : Orderly (ClientCpp.closed s).own.history) :
    Accurate none none (ClientCpp.closed s) := by
  by_cases hclean : s.client.cleansession = true
  · have hnone : s.own.flight = none := if_pos (h.clean hclean)
    have hreleased : ∀ o ∈ (held s.own.incomingQoS2messages).map Occurrence.released,
        o.Routine := by
      intro o ho
      obtain ⟨id, -, rfl⟩ := List.mem_map.mp ho
      trivial
    unfold ClientCpp.closed at horderly ⊢
    rw [if_pos hclean] at horderly ⊢
    refine ⟨.inl rfl, fun _ => rfl, rfl, h.nextPacketid, ?_, ?_⟩
    · rw [waitingFor_routine hreleased, h.waiting]
    · rw [unacknowledged_routine hreleased h.waiting horderly, h.flight, hnone]
      rfl
  · have hfalse : s.client.cleansession = false := Bool.eq_false_iff.mpr hclean
    have hhistory : (ClientCpp.closed s).own.history = [] ++ s.own.history := by
      unfold ClientCpp.closed
      rw [if_neg hclean]
      rfl
    exact h.routine (closed_keeps hfalse) hhistory (by simp) horderly

end Accurate

theorem plain_ack (m : Message) : Plain m.ack.code := by
  unfold Message.ack
  split_ifs
  · exact ⟨.puback, by simp, rfl⟩
  · exact ⟨.pubcomp, by simp, rfl⟩

theorem Occurrence.completes_received {packetType : ℤ} {readbuf : List UInt8} {m : Message} :
    Completes m (.received packetType readbuf) ↔
      packetType = m.ack.code ∧ acknowledgedId readbuf = some m.id := by
  change (if packetType = m.ack.code then acknowledgedId readbuf else none) = some m.id ↔ _
  split_ifs with htype
  · exact ⟨fun h => ⟨htype, h⟩, fun h => h.2⟩
  · exact ⟨False.elim, fun h => absurd h.1 htype⟩

theorem Cycled.completes {packetType : ℤ} {m : Message} (h : Cycled s packetType log rc t)
    (hflight : unacknowledged s.own.history = some m)
    (hcompletes : (Occurrence.received packetType t.client.readbuf).Completes m)
    (horderly : Orderly t.own.history) : rc = m.ack.code := by
  have htype := (Occurrence.completes_received.mp hcompletes).1
  have hplain : Plain packetType := htype ▸ plain_ack m
  rcases h.plain hplain with hrc | ⟨rc', pinged, hfailed, hmem⟩
  · exact hrc.trans htype
  · obtain ⟨later, before, rfl⟩ := List.append_of_mem hmem
    have hworking : ∀ o ∈ before, o.Working := fun o ho => h.working o (by simp [ho])
    have hsuffix : .keptAlive rc' pinged ::
        (before ++ .received packetType t.client.readbuf :: s.own.history) <:+ t.own.history := by
      rw [h.history, List.append_assoc]
      exact List.suffix_append _ _
    have hkept : (Occurrence.keptAlive rc' pinged).Orderly
        (before ++ .received packetType t.client.readbuf :: s.own.history) :=
      horderly.entry hsuffix
    have hjust := hkept.resolve_left hfailed
    rw [justCompleted_working hworking, justCompleted, hflight] at hjust
    simp [hcompletes] at hjust

theorem Cycled.unacknowledged {packetType : ℤ} (h : Cycled s packetType log rc t) :
    unacknowledged t.own.history = (Occurrence.received packetType t.client.readbuf).next
      (unacknowledged s.own.history) := by
  rw [h.history, unacknowledged_working h.working, unacknowledged_cons]

/-- A cycle that does not return the type leaves the message unacknowledged. -/
theorem Cycled.still_unacknowledged {packetType : ℤ} {awaited : MsgType}
    (h : Cycled s packetType log rc t)
    (hack : ∀ m ∈ ClientCpp.unacknowledged s.own.history, m.ack = awaited)
    (hrc : rc ≠ awaited.code) (horderly : Orderly t.own.history) :
    ClientCpp.unacknowledged t.own.history = ClientCpp.unacknowledged s.own.history := by
  rw [h.unacknowledged]
  refine filter_of_forall fun m hm => decide_eq_true fun hcompletes => ?_
  rw [h.completes hm hcompletes horderly, hack m hm] at hrc
  exact hrc rfl

theorem Waited.unacknowledged {awaited : MsgType} (h : Waited awaited s rc t)
    (hack : ∀ m ∈ ClientCpp.unacknowledged s.own.history, m.ack = awaited)
    (horderly : Orderly t.own.history) :
    ClientCpp.unacknowledged t.own.history = if rc = awaited.code
      then (ClientCpp.unacknowledged s.own.history).filter fun m =>
        acknowledgedId t.client.readbuf ≠ some m.id
      else ClientCpp.unacknowledged s.own.history := by
  induction h with
  | expired hsame hne => rw [if_neg hne, hsame.history]
  | @last s t rc packetType log hcycled _ =>
    split_ifs with hrc
    · have htype := hcycled.result.resolve_right fun h => code_ne_failure awaited (h.symm.trans hrc)
      rw [hcycled.unacknowledged]
      refine filter_congr fun m hm => decide_eq_decide.mpr (not_congr ?_)
      rw [Occurrence.completes_received, ← htype, hrc, hack m hm]
      exact and_iff_right rfl
    · exact hcycled.still_unacknowledged hack hrc horderly
  | more hcycled hne _ hwaited ih =>
    have hearlier := horderly.suffix hwaited.did.steps.suffix
    have hsame := hcycled.still_unacknowledged hack hne hearlier
    rw [ih (hsame ▸ hack) horderly, hsame]

theorem flight_cleared (s : Client ω τ H) (id : UInt16) :
    (cleared s id).own.flight = s.own.flight.filter fun m => some id ≠ some m.id := by
  unfold cleared
  by_cases hid : s.own.inflightMsgid = id
  · rw [if_pos hid, Extras.flight, if_pos rfl, Extras.flight]
    split_ifs
    · rfl
    · simp [hid, Option.filter_some]
  · rw [if_neg hid]
    refine (filter_of_forall fun m hm => ?_).symm
    have hne : some id ≠ some m.id := fun heq =>
      hid ((id_of_flight hm).symm.trans (Option.some.inj heq).symm)
    exact decide_eq_true hne

theorem cleared_settled {id : UInt16} (h : Settled none (some id) s) :
    Settled none none (cleared s id) := by
  have hhistory : (cleared s id).own.history = s.own.history := by
    unfold cleared
    split_ifs
    · rfl
    · rfl
  intro horderly
  rw [hhistory] at horderly
  have haccurate := h horderly
  refine ⟨haccurate.lasting, fun hclean => ?_, ?_, haccurate.nextPacketid, ?_, ?_⟩
  · have hzero := haccurate.clean hclean
    unfold cleared
    split_ifs
    · rfl
    · exact hzero
  · have hpubrel := haccurate.pubrel
    unfold cleared
    split_ifs
    · exact hpubrel
    · exact hpubrel
  · rw [hhistory, haccurate.waiting]
  · rw [hhistory, haccurate.flight, filter_none, flight_cleared]

/-- What `publish` makes of the acknowledgement that it has received. -/
theorem takeAck_settled (h : Settled none (acknowledgedId s.client.readbuf) s) :
    wp takeAck (fun _ t => Settled none none t) (fun _ _ => True) s := by
  unfold takeAck
  rw [wp_bind, wp_getClient, wp_bind]
  refine wp_ofOption fun result hresult => ?_
  rw [wp_ite, wp_pure, wp_bind]
  obtain ⟨rc, fields⟩ := result
  constructor
  · intro hrc
    have hnone : acknowledgedId s.client.readbuf = none := by
      simp [acknowledgedId, hresult, show rc ≠ 1 from hrc]
    rwa [hnone] at h
  · intro hrc
    refine wp_ofOption fun packetid hpacketid => ?_
    have hsome : acknowledgedId s.client.readbuf = some (UInt16.ofNat packetid) := by
      obtain rfl : rc = 1 := not_not.mp hrc
      have hpacketid : fields.packetid = some packetid := hpacketid
      simp [acknowledgedId, hresult, hpacketid]
    rw [hsome] at h
    exact cleared_settled h

theorem awaitAck_settled {packetType : MsgType} (h : Settled none none s)
    (hack : Orderly s.own.history → ∀ m ∈ unacknowledged s.own.history, m.ack = packetType) :
    wp (awaitAck p fuel packetType timer) (fun _ t => Settled none none t) (fun _ _ => True) s := by
  unfold awaitAck
  rw [wp_bind, wp_note, wp_bind]
  apply wp_mono (waitfor_waited packetType timer)
  · intro rc t hwaited
    rw [wp_bind, wp_note]
    have hsettled : Settled none (if rc = packetType.code then acknowledgedId t.client.readbuf
        else none) (noted t .awaited) := by
      intro horderly
      have horderly' : Orderly t.own.history := horderly.suffix (List.suffix_cons _ _)
      have hfirst : Orderly (noted s (.awaiting packetType)).own.history :=
        horderly'.suffix hwaited.did.steps.suffix
      have hearlier : Orderly s.own.history := hfirst.suffix (List.suffix_cons _ _)
      have haccurate := h hearlier
      have hkeeps : Keeps s (noted s (.awaiting packetType)) := ⟨id, rfl, id, rfl⟩
      have hkeeps' : Keeps (noted s (.awaiting packetType)) t :=
        hwaited.did.keeps (hkeeps.lasting haccurate.lasting)
      have hkeeps'' : Keeps t (noted t .awaited) := ⟨id, rfl, id, rfl⟩
      refine haccurate.keeps ((hkeeps.trans hkeeps').trans hkeeps'') rfl ?_
      have hunacknowledged := hwaited.unacknowledged (hack hearlier) horderly'
      have hflight : unacknowledged (noted s (.awaiting packetType)).own.history = s.own.flight :=
        haccurate.flight_eq
      rw [hflight] at hunacknowledged
      refine hunacknowledged.trans ?_
      split_ifs
      · rfl
      · exact (filter_none _).symm
    rw [wp_ite, wp_pure]
    constructor
    · intro hrc
      rw [if_pos hrc] at hsettled
      exact takeAck_settled hsettled
    · intro hrc
      rw [if_neg hrc] at hsettled
      exact hsettled
  · exact fun _ _ _ => trivial

namespace Settled

theorem routine (h : Settled none none s) (hkeeps : Keeps s t)
    (hhistory : t.own.history = log ++ s.own.history) (hlog : ∀ o ∈ log, o.Routine) :
    Settled none none t := by
  intro horderly
  have hearlier : Orderly s.own.history := by
    rw [hhistory] at horderly
    exact horderly.suffix (List.suffix_append _ _)
  exact (h hearlier).routine hkeeps hhistory hlog horderly

theorem same (h : Settled none none s) (hsame : Same s t) : Settled none none t := by
  have hhistory : t.own.history = [] ++ s.own.history := hsame.history
  exact h.routine hsame.keeps hhistory (by simp)

theorem did (h : Settled none none s) (hdid : Did s t) : Settled none none t :=
  fun horderly => (h (horderly.suffix hdid.steps.suffix)).did hdid horderly

theorem sent (h : Settled none none s) (packet : List UInt8) (rc : ℤ) :
    Settled none none (noted s (.sent packet rc)) := by
  have hhistory : (noted s (.sent packet rc)).own.history = [.sent packet rc] ++ s.own.history :=
    rfl
  refine h.routine ⟨id, rfl, id, rfl⟩ hhistory fun o ho => ?_
  rw [List.mem_singleton.mp ho]
  trivial

theorem closed (h : Settled none none s) : Settled none none (ClientCpp.closed s) :=
  fun horderly => (h (horderly.suffix (Step.closed.suffix))).closed horderly

end Settled

theorem awaitPublished_settled {qos : ℕ} (h : Settled none none s)
    (hqos : Orderly s.own.history → ∀ m ∈ unacknowledged s.own.history, m.qos = qos) :
    wp (awaitPublished p fuel qos timer) (fun _ t => Settled none none t) (fun _ _ => True) s := by
  unfold awaitPublished
  rw [wp_ite, wp_ite, wp_pure]
  refine ⟨fun hone => ?_, fun hone => ⟨fun _ => ?_, fun _ => h⟩⟩
  · refine awaitAck_settled h fun horderly m hm => ?_
    rw [Message.ack, hqos horderly m hm, if_pos hone]
  · refine awaitAck_settled h fun horderly m hm => ?_
    rw [Message.ack, hqos horderly m hm, if_neg hone]

theorem publishPacket_settled {len qos : ℕ} (h : Settled none none s)
    (hqos : Orderly s.own.history → ∀ m ∈ unacknowledged s.own.history, m.qos = qos) :
    wp (publishPacket p fuel len timer qos) (fun _ t => Settled none none t) (fun _ _ => True)
      s := by
  unfold publishPacket
  rw [wp_bind]
  apply wp_mono (sendPacket_sent len timer)
  · intro rc t hsent
    obtain ⟨u, hsame, rfl⟩ := hsent
    have hsettled := (h.same hsame).sent (s.client.buf.take len) rc
    rw [wp_ite, wp_bind, wp_closeSession, wp_pure, wp_bind]
    refine ⟨fun _ => hsettled.closed, fun _ => ?_⟩
    have hqos' : Orderly (noted u (.sent (s.client.buf.take len) rc)).own.history →
        ∀ m ∈ unacknowledged (noted u (.sent (s.client.buf.take len) rc)).own.history,
          m.qos = qos := by
      intro horderly
      have hearlier : Orderly u.own.history := horderly.suffix (List.suffix_cons _ _)
      rw [hsame.history] at hearlier
      have hnoted : unacknowledged (noted u (.sent (s.client.buf.take len) rc)).own.history =
          unacknowledged u.own.history := rfl
      rw [hnoted, hsame.history]
      exact hqos hearlier
    apply wp_imp (awaitPublished_settled hsettled hqos')
    intro rc' v hsettled'
    unfold closeUnlessSuccess
    rw [wp_bind, wp_ite, wp_closeSession, wp_pure, wp_pure, wp_pure]
    exact ⟨fun _ => hsettled'.closed, fun _ => hsettled'⟩
  · exact fun _ _ _ => trivial

theorem publishId_counts (id : UInt16) (qos : ℕ) :
    wp (publishId id qos) (fun id' t => Same s t ∧ (s.client.nextPacketid ≤ maxPacketId →
      qos = 1 ∨ qos = 2 → id' ≠ 0)) (fun _ _ => False) s := by
  unfold publishId
  rw [wp_ite, wp_pure]
  constructor
  · intro _
    apply wp_imp getNext_counts
    exact fun _ _ h => ⟨h.1, fun hle _ => h.2 hle⟩
  · exact fun hqos => ⟨.refl s, fun _ h => absurd h hqos⟩

theorem stored_settled {id : UInt16} {qos : ℕ} (h : Settled none none s)
    (hopen : s.client.isconnected = true)
    (hid : Orderly s.own.history → qos = 1 ∨ qos = 2 → id ≠ 0) :
    Settled none none (stored s packet id qos) := by
  intro horderly
  rw [stored_history] at horderly
  obtain ⟨hfirst, hearlier⟩ :
      (Occurrence.publishing id qos packet).Orderly s.own.history ∧ Orderly s.own.history :=
    horderly
  have haccurate := h hearlier
  have hclean : s.client.cleansession = false := by
    rcases haccurate.lasting with hnot | hclean
    · rw [hnot] at hopen
      exact absurd hopen Bool.false_ne_true
    · exact hclean
  have hunclean : ¬ s.client.cleansession = true := Bool.eq_false_iff.mp hclean
  have hflight : (stored s packet id qos).own.flight =
      if id = 0 then none else some (⟨id, qos, packet⟩ : Message) := by
    rw [stored, if_neg hunclean]
    change (if id = 0 then none
      else some (⟨id, qos, (overwrite s.own.pubbuf 0 packet).take packet.length⟩ : Message)) = _
    rw [take_overwrite_zero]
  refine ⟨.inr ?_, ?_, ?_, ?_, ?_, ?_⟩
  · rw [stored_client]
    exact hclean
  · rw [stored_client]
    exact fun h => absurd h hunclean
  · rw [stored, if_neg hunclean]
    rfl
  · rw [stored_client]
    exact haccurate.nextPacketid
  · rw [stored_history]
    exact haccurate.waiting
  · rw [stored_history, filter_none, hflight, unacknowledged_cons, Occurrence.next]
    by_cases hqos : qos = 1 ∨ qos = 2
    · rw [if_pos hqos, if_neg (hid hearlier hqos)]
    · obtain ⟨hzero, hnone⟩ := hfirst.resolve_left hqos
      rw [if_neg hqos, hnone, if_pos hzero]

theorem stored_qos {id : UInt16} {qos : ℕ} (s : Client ω τ H)
    (horderly : Orderly (stored s packet id qos).own.history) :
    ∀ m ∈ unacknowledged (stored s packet id qos).own.history, m.qos = qos := by
  rw [stored_history] at horderly ⊢
  have hfirst : (Occurrence.publishing id qos packet).Orderly s.own.history := horderly.1
  intro m hm
  rw [unacknowledged_cons, Occurrence.next] at hm
  split_ifs at hm with hqos
  · rw [← Option.some.inj hm]
  · rw [(hfirst.resolve_left hqos).2] at hm
    exact absurd hm (Option.some_ne_none m).symm

/-- Nothing has been sent again, and the session is of the same kind. -/
structure Afresh (s t : Client ω τ H) : Prop where
  cleansession : t.client.cleansession = s.client.cleansession
  history : ∃ log, t.own.history = log ++ s.own.history ∧ ∀ packet, .resending packet ∉ log

namespace Afresh

theorem silent (hclean : t.client.cleansession = s.client.cleansession)
    (hhistory : t.own.history = s.own.history) : Afresh s t :=
  ⟨hclean, [], hhistory, fun _ => List.not_mem_nil⟩

theorem trans (h : Afresh s t) (h' : Afresh t u) : Afresh s u := by
  obtain ⟨log, hlog, hnone⟩ := h.history
  obtain ⟨log', hlog', hnone'⟩ := h'.history
  refine ⟨h'.cleansession.trans h.cleansession, log' ++ log, ?_, fun packet hmem => ?_⟩
  · rw [hlog', hlog, List.append_assoc]
  · rcases List.mem_append.mp hmem with hmem | hmem
    · exact hnone' packet hmem
    · exact hnone packet hmem

instance : Std.Refl (Afresh : Client ω τ H → _ → Prop) := ⟨fun _ => silent rfl rfl⟩

instance : IsTrans (Client ω τ H) Afresh := ⟨fun _ _ _ => trans⟩

end Afresh

theorem Same.afresh (h : Same s t) : Afresh s t := .silent h.cleansession h.history

theorem closed_afresh (s : Client ω τ H) : Afresh s (closed s) := by
  unfold closed
  split_ifs
  · refine ⟨rfl, _, rfl, fun packet hmem => ?_⟩
    obtain ⟨id, -, heq⟩ := List.mem_map.mp hmem
    exact Occurrence.noConfusion heq
  · exact .silent rfl rfl

theorem Did.cleansession (h : Did s t) : t.client.cleansession = s.client.cleansession := by
  induction h with
  | refl => rfl
  | tail _ hdeed ih =>
    cases hdeed with
    | still hsame => exact hsame.cleansession.trans ih
    | closed _ => exact (closed_afresh _).cleansession.trans ih
    | received | delivered | taken | freed | sent | keptAlive => exact ih

theorem Did.afresh (h : Did s t) : Afresh s t := by
  obtain ⟨log, hlog, hroutine⟩ := h.routine
  exact ⟨h.cleansession, log, hlog, fun _ hmem => (hroutine _ hmem).elim⟩

theorem note_afresh (ho : ∀ packet, o ≠ .resending packet) :
    Moves Afresh (note o : Prog (Client ω τ H) PUnit) :=
  fun _ => ⟨rfl, [o], rfl, fun packet hmem => ho packet (List.mem_singleton.mp hmem).symm⟩

theorem closeSession_afresh : Moves Afresh (closeSession : Prog (Client ω τ H) PUnit) :=
  fun s => wp_closeSession.mpr (closed_afresh s)

theorem waitfor_afresh (packetType : MsgType) (timer : τ) :
    Moves Afresh (waitfor p fuel packetType timer : Prog (Client ω τ H) ℤ) :=
  (waitfor_did packetType timer).mono fun _ _ => Did.afresh

theorem takeAck_afresh : Moves Afresh (takeAck : Prog (Client ω τ H) ℤ) := by
  have hclear (id : UInt16) : Moves Afresh (clearInflight id : Prog (Client ω τ H) PUnit) := by
    intro s
    refine .silent rfl ?_
    change (if s.own.inflightMsgid = id then { s.own with inflightMsgid := 0 }
      else s.own).history = _
    split_ifs
    · rfl
    · rfl
  refine .bind getClient_moves fun c => .bind (ofOption_moves _) fun result => .ite (.pure _) ?_
  refine .bind (ofOption_moves _) fun mypacketid => ?_
  exact .bind (hclear _) fun _ => .pure success

theorem awaitAck_afresh (packetType : MsgType) (timer : τ) :
    Moves Afresh (awaitAck p fuel packetType timer : Prog (Client ω τ H) ℤ) := by
  refine .bind (note_afresh fun _ => Occurrence.noConfusion) fun _ => ?_
  refine .bind (waitfor_afresh packetType timer) fun rc => ?_
  refine .bind (note_afresh fun _ => Occurrence.noConfusion) fun _ => ?_
  exact .ite takeAck_afresh (.pure failure)

theorem publishPacket_afresh (len : ℕ) (timer : τ) (qos : ℕ) :
    Moves Afresh (publishPacket p fuel len timer qos : Prog (Client ω τ H) ℤ) := by
  have hsend : Moves Afresh (sendPacket p fuel len timer : Prog (Client ω τ H) ℤ) := by
    intro s
    apply wp_mono (sendPacket_sent len timer)
    · intro rc t hsent
      obtain ⟨u, hsame, rfl⟩ := hsent
      exact IsTrans.trans s u _ hsame.afresh (note_afresh (fun _ => Occurrence.noConfusion) u)
    · exact fun _ _ hsame => hsame.afresh
  have hawait : Moves Afresh (awaitPublished p fuel qos timer : Prog (Client ω τ H) ℤ) :=
    .ite (awaitAck_afresh _ _) (.ite (awaitAck_afresh _ _) (.pure _))
  have hclose (rc : ℤ) : Moves Afresh (closeUnlessSuccess rc : Prog (Client ω τ H) PUnit) :=
    .ite closeSession_afresh (.pure _)
  refine .bind hsend fun rc => .ite ?_ ?_
  · exact .bind closeSession_afresh fun _ => .pure rc
  · exact .bind hawait fun rc => .bind (hclose rc) fun _ => .pure rc

/-- Whatever has been sent again was unacknowledged, as long as all has been orderly. -/
def Resent (s : Client ω τ H) : Prop :=
  Orderly s.own.history → ResendsUnacknowledged s.own.history

theorem Resent.afresh (h : Resent s) (hafresh : Afresh s t) : Resent t := by
  obtain ⟨log, hlog, hnone⟩ := hafresh.history
  intro horderly packet earlier hsuffix
  rw [hlog] at horderly hsuffix
  exact h (horderly.suffix (List.suffix_append _ _)) packet earlier
    (suffix_of_not_mem hsuffix (hnone packet))

/-- What holds before and after every call. -/
structure Fine (s : Client ω τ H) : Prop where
  settled : Settled none none s
  resent : Resent s

theorem did_fine {α : Type} {x : Prog (Client ω τ H) α} (hx : Moves Did x) :
    Preserves Fine Resent x := by
  refine .of_moves hx (fun s t h hdid => ?_) fun _ h => h.resent
  exact ⟨h.settled.did hdid, h.resent.afresh hdid.afresh⟩

theorem same_fine {α : Type} {x : Prog (Client ω τ H) α} (hx : Moves Same x) :
    Preserves Fine Resent x :=
  did_fine (hx.mono fun _ _ => Same.did)

theorem Fine.closed (h : Fine s) : Fine (closed s) :=
  ⟨h.settled.closed, h.resent.afresh (closed_afresh s)⟩

theorem Fine.sent (h : Fine s) (packet : List UInt8) (rc : ℤ) :
    Fine (noted s (.sent packet rc)) :=
  ⟨h.settled.sent packet rc, h.resent.afresh (note_afresh (fun _ => Occurrence.noConfusion) s)⟩

theorem Fine.same (h : Fine s) (hsame : Same s t) : Fine t :=
  ⟨h.settled.same hsame, h.resent.afresh hsame.afresh⟩

theorem disconnect_fine : Preserves Fine Resent (disconnect p fuel : Prog (Client ω τ H) ℤ) := by
  have hsend (len : ℕ) (timer : τ) :
      Preserves Fine Resent (sendPacket p fuel len timer : Prog (Client ω τ H) ℤ) := by
    intro s h
    apply wp_mono (sendPacket_sent len timer)
    · intro rc t hsent
      obtain ⟨u, hsame, rfl⟩ := hsent
      exact (h.same hsame).sent _ rc
    · exact fun _ _ hsame => (h.same hsame).resent
  have hclose : Preserves Fine Resent (closeSession : Prog (Client ω τ H) PUnit) :=
    fun s h => wp_closeSession.mpr h.closed
  have hdisconnect (timer : τ) :
      Preserves Fine Resent (sendDisconnect p fuel timer : Prog (Client ω τ H) ℤ) := by
    refine .bind (same_fine (serialize_moves (fun _ _ => ⟨rfl, rfl, id, rfl⟩) _)) fun len => ?_
    exact .ite (hsend len.toNat timer) (.pure failure)
  refine .bind (same_fine getClient_moves) fun c => ?_
  refine .bind (same_fine (newTimer_moves (Same.outward p).toDiscreet _)) fun timer => ?_
  exact .bind (hdisconnect timer) fun rc => .bind hclose fun _ => .pure rc

theorem publishPacket_fine {len qos : ℕ} (h : Fine s)
    (hqos : Orderly s.own.history → ∀ m ∈ unacknowledged s.own.history, m.qos = qos) :
    wp (publishPacket p fuel len timer qos)
      (fun _ t => Fine t ∧ t.client.cleansession = s.client.cleansession)
      (fun _ t => Resent t) s := by
  apply wp_mono (wp_and (publishPacket_afresh len timer qos s)
    (publishPacket_settled h.settled hqos))
  · intro _ t hboth
    exact ⟨⟨hboth.2, h.resent.afresh hboth.1⟩, hboth.1.cleansession⟩
  · exact fun _ t hboth => h.resent.afresh hboth.1

theorem publish_fine (topicName : CString) (payload : List UInt8) (payloadlen : ℕ) (id : UInt16)
    (qos : ℕ) (retained : Bool) :
    Preserves Fine Resent (publish p fuel topicName payload payloadlen id qos retained :
      Prog (Client ω τ H) (ℤ × UInt16)) := by
  intro s h
  unfold publish
  rw [wp_bind, wp_getClient, wp_bind]
  apply wp_mono (newTimer_moves (Same.outward p).toDiscreet _ s)
  · intro timer t hst
    have ht := h.same hst
    rw [wp_ite, wp_bind, wp_pure]
    refine ⟨fun hopen => ?_, fun _ => ht⟩
    apply wp_mono (publishId_counts id qos)
    · intro id' u hcounts
      obtain ⟨htu, hid⟩ := hcounts
      rw [wp_bind]
      apply wp_mono (serialize_beginsWith (mqttSerializePublish_beginsWith _ _ _ _ _ _ _))
      · intro len v hserialized
        obtain ⟨huv, hpacket⟩ := hserialized
        have hv := (ht.same htu).same huv
        rw [wp_ite, wp_pure]
        refine ⟨fun _ => hv, fun hlen => ?_⟩
        obtain ⟨bytes, hbytes, hlength⟩ := hpacket (by omega)
        have hopen' : v.client.isconnected = true := by
          rw [huv.isconnected, htu.isconnected, hst.isconnected]
          exact hopen
        have hid' : Orderly v.own.history → qos = 1 ∨ qos = 2 → id' ≠ 0 := by
          intro horderly
          rw [huv.history, htu.history] at horderly
          exact hid (ht.settled horderly).nextPacketid
        rw [wp_bind, wp_storePublish (by rw [hbytes, hlength]), wp_bind]
        have hstored : Fine (stored v (v.client.buf.take len.toNat) id' qos) := by
          refine ⟨stored_settled hv.settled hopen' hid', hv.resent.afresh ?_⟩
          refine ⟨by rw [stored_client], [.publishing id' qos _], stored_history _ _ _ _,
            fun packet hmem => ?_⟩
          exact Occurrence.noConfusion (List.mem_singleton.mp hmem)
        apply wp_mono (publishPacket_fine hstored (stored_qos v))
        · exact fun _ _ hdone => hdone.1
        · exact fun _ _ hdone => hdone
      · exact fun _ v huv => ((ht.same htu).same huv).resent
    · exact fun _ _ hfalse => hfalse.elim
  · exact fun _ t hst => (h.same hst).resent

/-- What `connect` sends again is the message that is unacknowledged. -/
theorem resend_fine {len qos : ℕ} (h : Fine s) (hflight : Orderly s.own.history →
      ∃ m, unacknowledged s.own.history = some m ∧ m.packet = s.client.buf.take len ∧
        m.qos = qos) :
    wp (resend p fuel len timer qos)
      (fun _ t => Fine t ∧ t.client.cleansession = s.client.cleansession)
      (fun _ t => Resent t) s := by
  unfold resend
  rw [wp_bind, wp_getClient, wp_bind, wp_note]
  have hresending : Fine (noted s (.resending (s.client.buf.take len))) := by
    constructor
    · intro horderly
      have haccurate := h.settled (horderly.suffix (List.suffix_cons _ _))
      exact haccurate.keeps ⟨id, rfl, id, rfl⟩ haccurate.waiting haccurate.flight
    · intro horderly packet earlier hsuffix
      have hearlier : Orderly s.own.history := horderly.suffix (List.suffix_cons _ _)
      rcases List.suffix_cons_iff.mp hsuffix with heq | hsuffix
      · obtain ⟨hpacket, rfl⟩ := List.cons.inj heq
        obtain ⟨m, hm, hsame, -⟩ := hflight hearlier
        have hqos := qos_of_unacknowledged hm
        exact ⟨m, hm, hqos, hsame.trans (Occurrence.resending.inj hpacket).symm⟩
      · exact h.resent hearlier packet earlier hsuffix
  refine publishPacket_fine hresending fun horderly m hm => ?_
  obtain ⟨m', hm', -, hqos⟩ := hflight (horderly.suffix (List.suffix_cons _ _))
  rw [← Option.some.inj (hm'.symm.trans hm)]
  exact hqos

theorem resume_fine (h : Fine s) (rc : ℤ) :
    wp (resume p fuel timer rc)
      (fun _ t => Fine t ∧ t.client.cleansession = s.client.cleansession)
      (fun _ t => Resent t) s := by
  have hresuming : Fine (noted s .resuming) := by
    refine ⟨fun horderly => ?_, h.resent.afresh (note_afresh (fun _ => Occurrence.noConfusion) s)⟩
    have haccurate := h.settled (horderly.suffix (List.suffix_cons _ _))
    exact haccurate.keeps ⟨id, rfl, id, rfl⟩ haccurate.waiting haccurate.flight
  unfold resume
  rw [wp_bind, wp_note, wp_bind, wp_getOwn, wp_ite]
  constructor
  · -- the flag is never set
    rintro ⟨-, -, hpubrel⟩
    have hnot : ¬ Orderly (noted s .resuming).own.history := by
      intro horderly
      have hfalse := (hresuming.settled horderly).pubrel
      rw [hpubrel] at hfalse
      exact absurd hfalse.symm Bool.false_ne_true
    rw [wp_bind]
    apply wp_serializeAck
    · intro _
      rw [wp_ite, wp_pure]
      exact ⟨fun _ => ⟨hresuming, rfl⟩, fun h => absurd (by decide) h⟩
    · intro _
      rw [wp_ite]
      refine ⟨fun h => absurd h (by decide), fun _ => ?_⟩
      exact resend_fine (hresuming.same ⟨rfl, rfl, id, rfl⟩) fun horderly => absurd horderly hnot
  · intro _
    rw [wp_ite, wp_bind, wp_modifyClient, wp_pure]
    refine ⟨fun hpos => ?_, fun _ => ⟨hresuming, rfl⟩⟩
    refine resend_fine (hresuming.same ⟨rfl, rfl, id, rfl⟩) fun horderly => ?_
    have hflight := (hresuming.settled horderly).flight_eq
    rw [Extras.flight, if_neg (UInt16.pos_iff_ne_zero.mp hpos)] at hflight
    exact ⟨_, hflight, rfl, rfl⟩

theorem Fine.connecting (h : Fine s) (keepAliveInterval : ℕ) :
    Fine { s with client := { s.client with
      keepAliveInterval := keepAliveInterval
      cleansession := false } } := by
  refine ⟨fun horderly => ?_, h.resent⟩
  have haccurate := h.settled horderly
  exact ⟨.inr rfl, fun h => absurd h Bool.false_ne_true, haccurate.pubrel, haccurate.nextPacketid,
    haccurate.waiting, haccurate.flight⟩

theorem answered_fine (h : Fine s) :
    wp (do
      recordReceived p
      let rc ← awaitConnack p fuel timer
      resume p fuel timer rc)
      (fun _ t => Fine t ∧ t.client.cleansession = s.client.cleansession)
      (fun _ t => Resent t) s := by
  rw [wp_bind]
  apply wp_mono (recordReceived_same s)
  · intro _ t hst
    have ht := h.same hst
    rw [wp_bind]
    apply wp_mono (awaitConnack_answered timer)
    · intro rc u hanswered
      have hdid := hanswered.1
      have hu : Fine u := ⟨ht.settled.did hdid, ht.resent.afresh hdid.afresh⟩
      apply wp_imp (resume_fine hu rc)
      exact fun _ v hdone => ⟨hdone.1, hdone.2.trans (hdid.cleansession.trans hst.cleansession)⟩
    · exact fun _ u hdid => ht.resent.afresh hdid.afresh
  · exact fun _ t hst => (h.same hst).resent

theorem connectExchange_fine {options : ConnectData} (hoptions : options.cleansession = 0)
    (h : Fine s) :
    wp (connectExchange p fuel options)
      (fun rc t => Fine t ∧ (rc = success → t.client.cleansession = false))
      (fun _ t => Resent t) s := by
  unfold connectExchange
  rw [wp_bind, wp_getClient, wp_bind]
  apply wp_mono (newTimer_moves (Same.outward p).toDiscreet _ s)
  · intro timer t hst
    have ht := h.same hst
    rw [wp_ite, wp_pure, wp_bind, wp_modifyClient, wp_bind]
    refine ⟨fun _ => ⟨ht, fun h => absurd h (by decide)⟩, fun _ => ?_⟩
    rw [hoptions]
    apply wp_mono (serialize_moves (R := Same) (fun _ _ => ⟨rfl, rfl, id, rfl⟩) _ _)
    · intro len u htu
      have hu := (ht.connecting options.keepAliveInterval.toNat).same htu
      rw [wp_ite, wp_pure, wp_bind]
      refine ⟨fun _ => ⟨hu, fun h => absurd h (by decide)⟩, fun _ => ?_⟩
      apply wp_mono (sendPacket_sent len.toNat timer)
      · intro rc v hsent
        obtain ⟨v, huv, rfl⟩ := hsent
        have hv := (hu.same huv).sent (u.client.buf.take len.toNat) rc
        rw [wp_ite, wp_pure]
        refine ⟨fun hne => ⟨hv, fun h => absurd h hne⟩, fun _ => ?_⟩
        apply wp_imp (answered_fine hv)
        intro rc' w hdone
        refine ⟨hdone.1, fun _ => hdone.2.trans ?_⟩
        exact huv.cleansession.trans htu.cleansession
      · exact fun _ v huv => (hu.same huv).resent
    · exact fun _ u htu => ((ht.connecting options.keepAliveInterval.toNat).same htu).resent
  · exact fun _ t hst => (h.same hst).resent

theorem connect_fine {options : ConnectData} (hoptions : options.cleansession = 0) :
    Preserves Fine Resent (connect p fuel options : Prog (Client ω τ H) ℤ) := by
  intro s h
  unfold connect
  rw [wp_bind]
  apply wp_imp (connectExchange_fine hoptions h)
  intro rc t hdone
  obtain ⟨ht, hclean⟩ := hdone
  rw [wp_ite, wp_bind, wp_modifyClient, wp_pure, wp_pure]
  refine ⟨fun hrc => ⟨fun horderly => ?_, ht.resent⟩, fun _ => ht⟩
  have haccurate := ht.settled horderly
  exact ⟨.inr (hclean hrc), haccurate.clean, haccurate.pubrel, haccurate.nextPacketid,
    haccurate.waiting, haccurate.flight⟩

namespace Call

/-- A publish, a connect that does not ask for a clean session, a yield or a disconnect. -/
def Persistent : Call H → Prop
  | connect options => ∃ given ∈ options, given.cleansession = 0
  | publish .. | publishWithoutId .. | publishMessage .. | yield _ | disconnect => True
  | subscribe .. | unsubscribe _ | setMessageHandler .. | setDefaultMessageHandler _ => False

end Call

theorem perform_fine {call : Call H} (hcall : call.Persistent) :
    Preserves Fine Resent (perform p fuel call : Prog (Client ω τ H) ℤ) := by
  cases call with
  | connect options =>
    obtain ⟨given, rfl, hgiven⟩ := hcall
    exact connect_fine hgiven
  | publish => exact .bind (publish_fine _ _ _ _ _ _) fun _ => .pure _
  | publishWithoutId => exact .bind (publish_fine _ _ _ _ _ _) fun _ => .pure _
  | publishMessage => exact .bind (publish_fine _ _ _ _ _ _) fun _ => .pure _
  | yield timeoutMs => exact did_fine (yield_did timeoutMs)
  | disconnect => exact disconnect_fine
  | subscribe | unsubscribe | setMessageHandler | setDefaultMessageHandler => exact hcall.elim

theorem runCalls_fine {calls : List (Call H)} (hcalls : ∀ call ∈ calls, call.Persistent) :
    Preserves Fine Resent (runCalls p fuel calls : Prog (Client ω τ H) (List (Entry ω τ H))) := by
  induction calls with
  | nil => exact .pure _
  | cons call calls ih =>
    obtain ⟨hcall, hcalls⟩ := List.forall_mem_cons.mp hcalls
    refine .bind .get fun before => .bind (perform_fine hcall) fun rc => ?_
    exact .bind .get fun after => .bind (ih hcalls) fun later => .pure _

theorem Fine.construct (old : Client ω τ H) (commandTimeoutMs : ℕ) :
    Fine (ClientCpp.construct old commandTimeoutMs) := by
  constructor
  · exact fun _ => ⟨.inl rfl, fun _ => rfl, rfl, Nat.zero_le _, rfl, rfl⟩
  · intro _ packet earlier hsuffix
    exact absurd (List.suffix_nil.mp hsuffix) (List.cons_ne_nil _ _)

theorem flight_isSome (own : Extras τ) : own.flight.isSome ↔ own.inflightMsgid ≠ 0 := by
  unfold Extras.flight
  split_ifs with hzero
  · simp [hzero]
  · simp [hzero]

/-- In every orderly run `connect` sends again what is unacknowledged only, and after
every call the client has a message in flight if and only if one is unacknowledged. -/
theorem runCalls_resendsUnacknowledged {old : Client ω τ H} {commandTimeoutMs : ℕ}
    {calls : List (Call H)} (hcalls : ∀ call ∈ calls, call.Persistent)
    (hrun : Run p fuel calls (construct old commandTimeoutMs) t)
    (horderly : Orderly t.own.history) :
    ResendsUnacknowledged t.own.history ∧
    ∀ entries, runCalls p fuel calls (construct old commandTimeoutMs) = .ok entries t →
      (t.own.inflightMsgid ≠ 0 ↔ (unacknowledged t.own.history).isSome) := by
  have hpreserves : Preserves Fine Resent (runCalls p fuel calls) := runCalls_fine hcalls
  have hfine := hpreserves _ (Fine.construct old commandTimeoutMs)
  constructor
  · have hresent : Resent t := hrun.post (wp_imp hfine fun _ _ h => h.resent)
    exact hresent horderly
  · intro entries hdone
    have hsettled := (wp_result hfine hdone).settled horderly
    rw [hsettled.flight_eq, flight_isSome]

/-- A message at QoS 0 is published with an identifier, and sent again. -/
theorem runCalls_not_resendsUnacknowledged : ∃ entries t,
    runCalls connectionsPlatform 16 [.connect (some persistent),
      .publish ⟨[97], unterminated_a⟩ [1] 1 5 0 false, .disconnect, .connect (some persistent)]
      (construct (beforehand [[0x20, 2, 0, 0], [0x20, 2, 0, 0]]) 1000) = .ok entries t ∧
    ¬ ResendsUnacknowledged t.own.history := by
  obtain ⟨entries, t, hrun, hresending, hnone⟩ : ∃ entries t,
      runCalls connectionsPlatform 16 [.connect (some persistent),
        .publish ⟨[97], unterminated_a⟩ [1] 1 5 0 false, .disconnect, .connect (some persistent)]
        (construct (beforehand [[0x20, 2, 0, 0], [0x20, 2, 0, 0]]) 1000) = .ok entries t ∧
      (t.own.history.drop 1).head? = some (.resending [0x30, 4, 0, 1, 97, 1]) ∧
      unacknowledged (t.own.history.drop 1).tail = none :=
    wp_total (by decide +kernel)
  have hnot : ¬ ResendsUnacknowledged t.own.history := by
    intro hresends
    obtain ⟨m, hm, -⟩ := hresends _ _ (suffix_of_drop hresending)
    rw [hnone] at hm
    exact Option.some_ne_none m hm.symm
  exact ⟨entries, t, hrun, hnot⟩

/-- A message at QoS 1 is sent again and acknowledged. -/
theorem runCalls_resendsUnacknowledged_again : ∃ entries t,
    runCalls connectionsPlatform 16 (interruptedPublish ++ [.connect (some persistent)])
      (interruptedClient [0x20, 2, 0, 0, 0x40, 2, 0, 1]) = .ok entries t ∧
    ResendsUnacknowledged t.own.history ∧
    (t.own.inflightMsgid ≠ 0 ↔ (unacknowledged t.own.history).isSome) := by
  obtain ⟨entries, t, hrun, horderly⟩ : ∃ entries t,
      runCalls connectionsPlatform 16 (interruptedPublish ++ [.connect (some persistent)])
        (interruptedClient [0x20, 2, 0, 0, 0x40, 2, 0, 1]) = .ok entries t ∧
      Orderly t.own.history :=
    wp_total (by decide +kernel)
  have hcalls : ∀ call ∈ interruptedPublish ++ [.connect (some persistent)], call.Persistent := by
    simp [interruptedPublish, Call.Persistent, persistent]
  have hresends := runCalls_resendsUnacknowledged hcalls (Run.done hrun) horderly
  exact ⟨entries, t, hrun, hresends.1, hresends.2 entries hrun⟩

end MqttEmbedded.ClientCpp
