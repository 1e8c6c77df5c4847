import MqttEmbedded.Client.Course
import MqttEmbedded.ClientC.Requests

/-!
# When a session is closed

`cycle` closes the session for every result but success, and its callers take
only a negative result for a failure. What a call says of the session when it
returns follows from the packets that have been read.
-/

namespace MqttEmbedded.ClientC

open Region Hoare

variable {ω τ H : Type} {p : Platform ω τ H} {fuel : ℕ} {timer : τ} {s t u : Client ω τ H}

/-- The session is closed and, if it was a clean one, forgotten. -/
structure TornDown (s t : Client ω τ H) : Prop where
  isconnected : t.client.isconnected = false
  cleansession : t.client.cleansession = s.client.cleansession
  forgotten : s.client.cleansession = true →
    ∀ slot ∈ t.client.messageHandlers, slot.topicFilter = none

theorem TornDown.after (h : SameSession s t) (h' : TornDown t u) : TornDown s u :=
  ⟨h'.isconnected, h'.cleansession.trans h.cleansession, fun hclean =>
    h'.forgotten (h.cleansession.trans hclean)⟩

theorem TornDown.before (h : TornDown s t) (h' : SameSession t u) : TornDown s u :=
  ⟨h'.isconnected.trans h.isconnected, h'.cleansession.trans h.cleansession, by
    rw [h'.messageHandlers]
    exact h.forgotten⟩

/-- What had been open has been torn down. -/
def Closed (s t : Client ω τ H) : Prop :=
  (s.client.isconnected = true → TornDown s t) ∧ (s.client.isconnected = false → SameSession s t)

namespace Closed

theorem isconnected (h : Closed s t) : t.client.isconnected = false := by
  cases hopen : s.client.isconnected with
  | true => exact (h.1 hopen).isconnected
  | false => exact (h.2 hopen).isconnected.trans hopen

theorem after (h : SameSession s t) (h' : Closed t u) : Closed s u :=
  ⟨fun hopen => (h'.1 (h.isconnected.trans hopen)).after h,
    fun hopen => h.trans (h'.2 (h.isconnected.trans hopen))⟩

theorem before (h : Closed s t) (h' : SameSession t u) : Closed s u :=
  ⟨fun hopen => (h.1 hopen).before h', fun hopen => (h.2 hopen).trans h'⟩

theorem trans (h : Closed s t) (h' : Closed t u) : Closed s u :=
  h.before (h'.2 h.isconnected)

end Closed

theorem mqttCloseSession_tornDown :
    wp (mqttCloseSession : Prog (Client ω τ H) PUnit) (fun _ t => TornDown s t) (fun _ _ => True)
      s := by
  unfold mqttCloseSession mqttCleanSession
  simp only [wp_bind, wp_modifyClient, wp_getClient, wp_ite, wp_pure]
  refine ⟨fun _ => ⟨rfl, rfl, fun _ slot hslot => ?_⟩, fun h => ⟨rfl, rfl, fun h' => absurd h' h⟩⟩
  obtain ⟨_, -, rfl⟩ := List.mem_map.mp hslot
  rfl

theorem sendPacket_same (length : ℕ) (timer : τ) :
    Moves SameSession (sendPacket p fuel length timer : Prog (Client ω τ H) ℤ) :=
  sendPacket_moves fuel (gentle_sends (same_gentle p)) length timer

theorem handlePacket_same (packetType : ℤ) :
    Moves SameSession ((variant p fuel).handlePacket packetType timer) := by
  have hstays : ({ variant p fuel with closeSession := pure ⟨⟩ } : Variant Unit ω τ H).Stays
      SameSession :=
    { buf := fun _ _ => ⟨rfl, rfl, rfl⟩
      pingresp := fun _ => ⟨rfl, rfl, rfl⟩
      sendPacket := sendPacket_same
      deliver := deliver_moves (same_gentle p).toOutward
      deliverUnread := deliverUnread_moves (same_gentle p).toOutward
      answered := fun _ _ => .pure _
      keepalive := keepalive_moves fuel (gentle_sends (same_gentle p))
      closeSession := .pure _ }
  exact hstays.handlePacket packetType timer

theorem sendPacket_result (length : ℕ) (timer : τ) :
    wp (sendPacket p fuel length timer) (fun rc _ => rc = success ∨ rc = failure)
      (fun _ _ => True) s := by
  unfold sendPacket
  rw [wp_bind]
  apply wp_mono (wp_true _)
  · intro sent t _
    rw [wp_ite, wp_pure]
    exact ⟨fun _ => .inl rfl, fun _ => .inr rfl⟩
  · exact fun _ _ _ => trivial

theorem variant_sendsOrFails : (variant p fuel).SendsOrFails :=
  fun length timer _ => sendPacket_result length timer

theorem checkKeepalive_same (outcome : Outcome) :
    wp ((variant p fuel).checkKeepalive outcome)
      (fun rc t => SameSession s t ∧ Still p s t ∧ (rc = outcome.rc ∨ rc = failure))
      (fun _ _ => True) s := by
  unfold Variant.checkKeepalive
  rw [wp_ite, wp_pure, wp_bind]
  refine ⟨fun _ => ⟨.refl s, Std.Refl.refl s, .inl rfl⟩, fun _ => ?_⟩
  apply wp_mono (wp_and (keepalive_moves fuel (gentle_sends (same_gentle p)) s)
    (keepalive_moves fuel (gentle_sends (still_quiet p).gentle) s))
  · rintro rc t ⟨hsame, hstill⟩
    refine ⟨hsame, hstill, ?_⟩
    split_ifs
    · exact .inr rfl
    · exact .inl rfl
  · exact fun _ _ _ => trivial

/-- What `cycle` makes of what it has read: it returns the type and the session goes on,
or it tears the session down, for a failure or for a type it has no case for. -/
structure Worked (s t : Client ω τ H) (rc : ℤ) (receipt : Receipt) : Prop where
  readbuf : t.client.readbuf = receipt.readbuf
  result : (rc = receipt.packetType ∧ HasCase rc ∧ SameSession s t) ∨
    ((rc = failure ∨ (rc = receipt.packetType ∧ ¬ HasCase rc)) ∧ Closed s t)

theorem closeIfConnected_torn :
    wp ((variant p fuel).closeIfConnected) (fun _ t => Closed s t) (fun _ _ => True) s := by
  unfold Variant.closeIfConnected
  rw [wp_bind, wp_getClient, wp_ite, wp_pure]
  refine ⟨fun h => ?_, fun h => ⟨fun h' => absurd h' h, fun _ => .refl s⟩⟩
  apply wp_imp mqttCloseSession_tornDown
  exact fun _ t ht => ⟨fun _ => ht, fun h' => by simp [h'] at h⟩

theorem handlePacket_result (packetType : ℤ) :
    wp ((variant p fuel).handlePacket packetType timer)
      (fun outcome t => SameSession s t ∧
        (outcome.rc = success ∧ HasCase packetType ∨ outcome = ⟨failure, true⟩ ∨
          outcome = ⟨packetType, true⟩ ∧ ¬ HasCase packetType))
      (fun _ _ => True) s := by
  by_cases hcase : HasCase packetType
  · apply wp_mono (wp_and (handlePacket_same packetType s)
      (Variant.handlePacket_known variant_sendsOrFails hcase))
    · rintro outcome t ⟨hsame, hrc | hfailed⟩
      · exact ⟨hsame, .inl ⟨hrc, hcase⟩⟩
      · exact ⟨hsame, .inr (.inl hfailed)⟩
    · exact fun _ _ _ => trivial
  · rw [Variant.handlePacket_unknown hcase, wp_pure]
    exact ⟨.refl s, .inr (.inr ⟨rfl, hcase⟩)⟩

theorem afterRead_worked (packetType : ℤ) :
    wp (do
        let outcome ← (variant p fuel).handlePacket packetType timer
        let rc ← (variant p fuel).checkKeepalive outcome
        if rc = success then pure packetType
        else
          (variant p fuel).closeIfConnected
          pure rc)
      (fun rc t => (rc = packetType ∧ HasCase rc ∧ SameSession s t) ∨
        ((rc = failure ∨ (rc = packetType ∧ ¬ HasCase rc)) ∧ Closed s t))
      (fun _ _ => True) s := by
  rw [wp_bind]
  apply wp_imp (handlePacket_result packetType)
  rintro outcome t ⟨hsame, houtcome⟩
  rw [wp_bind]
  apply wp_imp (checkKeepalive_same outcome)
  rintro rc u ⟨hsame', -, hrc⟩
  have hboth := hsame.trans hsame'
  rw [wp_ite, wp_pure, wp_bind]
  constructor
  · rintro rfl
    refine .inl ⟨rfl, ?_, hboth⟩
    rcases houtcome with ⟨-, hcase⟩ | rfl | ⟨rfl, hcase⟩
    · exact hcase
    · exact absurd (hrc.elim Eq.symm Eq.symm) failure_ne_success
    · exact .inl (hrc.resolve_right failure_ne_success.symm).symm
  · intro hne
    apply wp_imp closeIfConnected_torn
    intro _ v hclosed
    refine .inr ⟨?_, hclosed.after hboth⟩
    rcases houtcome with ⟨hsuccess, -⟩ | rfl | ⟨rfl, hcase⟩
    · exact .inl (hrc.resolve_left fun hrc => hne (hrc.trans hsuccess))
    · exact .inl (hrc.elim id id)
    · exact hrc.symm.imp_right fun hrc => ⟨hrc, hrc ▸ hcase⟩

theorem cycle_of_read {packetType : ℤ} (hread : readPacket p timer s = .ok packetType u) :
    wp (cycle p fuel timer)
      (fun rc t => Still p u t ∧ Worked s t rc ⟨packetType, u.client.readbuf⟩)
      (fun _ _ => True) s := by
  have hsame : SameSession s u :=
    (wp_ok hread).mp (readPacketWith_moves (same_inward p) tooLong 0 timer s)
  have hread' : (variant p fuel).readPacket timer s = .ok packetType u := hread
  unfold cycle Variant.cycle
  rw [wp_bind, wp_ok hread']
  apply wp_mono (wp_and ((variant_stays fuel (still_quiet p)).afterRead packetType timer u)
    (afterRead_worked packetType))
  · rintro rc t ⟨hstill, hworked⟩
    refine ⟨hstill, hstill.readbuf, ?_⟩
    rcases hworked with ⟨rfl, hcase, hsame'⟩ | ⟨hrc, hclosed⟩
    · exact .inl ⟨rfl, hcase, hsame.trans hsame'⟩
    · exact .inr ⟨hrc, hclosed.after hsame⟩
  · exact fun _ _ _ => trivial

theorem cycle_worked :
    wp (cycle p fuel timer)
      (fun rc t => ∃ receipt, Course p (readPacket p) s [receipt] t ∧ Worked s t rc receipt)
      (fun _ _ => True) s := by
  cases hread : readPacket p timer s with
  | ok packetType u =>
    apply wp_imp (cycle_of_read hread)
    rintro rc t ⟨hstill, hworked⟩
    exact ⟨_, (Course.read hread).then_still hstill, hworked⟩
  | error e u =>
    unfold cycle Variant.cycle
    rw [wp_bind]
    exact (wp_error hread).mpr trivial

/-- `cycle` has been called with these receipts and has not failed. -/
def Continued (s t : Client ω τ H) (receipts : List Receipt) : Prop :=
  (SameSession s t ∧ ∀ r ∈ receipts, HasCase r.packetType) ∨
    (Closed s t ∧ ∃ r ∈ receipts, ¬ HasCase r.packetType)

namespace Continued

variable {receipts receipts' : List Receipt}

theorem trans (h : Continued s t receipts) (h' : Continued t u receipts') :
    Continued s u (receipts ++ receipts') := by
  rcases h with ⟨hsame, hall⟩ | ⟨hclosed, r, hr, hcase⟩
  · rcases h' with ⟨hsame', hall'⟩ | ⟨hclosed', r, hr, hcase⟩
    · exact .inl ⟨hsame.trans hsame', List.forall_mem_append.mpr ⟨hall, hall'⟩⟩
    · exact .inr ⟨hclosed'.after hsame, r, List.mem_append_right _ hr, hcase⟩
  · rcases h' with ⟨hsame', -⟩ | ⟨hclosed', -⟩
    · exact .inr ⟨hclosed.before hsame', r, List.mem_append_left _ hr, hcase⟩
    · exact .inr ⟨hclosed.trans hclosed', r, List.mem_append_left _ hr, hcase⟩

theorem same (h : SameSession s t) : Continued s t [] :=
  .inl ⟨h, fun _ h => by cases h⟩

theorem closed (h : Continued s t receipts) (h' : Closed t u) : Closed s u := by
  rcases h with ⟨hsame, -⟩ | ⟨hclosed, -⟩
  · exact h'.after hsame
  · exact hclosed.trans h'

/-- The session is open as long as there is a case for what comes in. -/
theorem isconnected_iff (h : Continued s t receipts) (hopen : s.client.isconnected = true) :
    t.client.isconnected = true ↔ ∀ r ∈ receipts, HasCase r.packetType := by
  rcases h with ⟨hsame, hall⟩ | ⟨hclosed, r, hr, hcase⟩
  · exact ⟨fun _ => hall, fun _ => hsame.isconnected.trans hopen⟩
  · rw [hclosed.isconnected]
    exact ⟨fun h => absurd h Bool.false_ne_true, fun h => absurd (h r hr) hcase⟩

/-- While there is a case for what comes in, the session stays as it was. -/
theorem sameSession (h : Continued s t receipts) (hall : ∀ r ∈ receipts, HasCase r.packetType) :
    SameSession s t := by
  obtain ⟨hsame, -⟩ | ⟨-, r, hr, hcase⟩ := h
  · exact hsame
  · exact absurd (hall r hr) hcase

end Continued

theorem Worked.continued {rc : ℤ} {r : Receipt} (h : Worked s t rc r) (hrc : 0 ≤ rc) :
    rc = r.packetType ∧ Continued s t [r] := by
  rcases h.result with ⟨rfl, hcase, hsame⟩ | ⟨hfailed | ⟨rfl, hcase⟩, hclosed⟩
  · exact ⟨rfl, .inl ⟨hsame, by simpa using hcase⟩⟩
  · rw [hfailed] at hrc
    exact absurd hrc (by decide)
  · exact ⟨rfl, .inr ⟨hclosed, r, List.mem_singleton_self r, hcase⟩⟩

theorem Worked.closed {rc : ℤ} {r : Receipt} (h : Worked s t rc r) (hrc : rc < 0) :
    Closed s t := by
  rcases h.result with ⟨-, hcase, -⟩ | ⟨-, hclosed⟩
  · exact absurd hcase.nonneg hrc.not_ge
  · exact hclosed

/-- The last of the receipts is the only one of this type, and its packet is in the
receive buffer. -/
structure EndsWith (packetType : MsgType) (receipts : List Receipt) (last : Receipt)
    (readbuf : List UInt8) : Prop where
  last_eq : ∃ before, receipts = before ++ [last] ∧
    ∀ r ∈ before, r.packetType ≠ packetType.code
  packetType_eq : last.packetType = packetType.code
  readbuf_eq : readbuf = last.readbuf

theorem EndsWith.eq_last {packetType : MsgType} {receipts : List Receipt} {last r : Receipt}
    {readbuf : List UInt8} (h : EndsWith packetType receipts last readbuf) (hr : r ∈ receipts)
    (htype : r.packetType = packetType.code) : r = last := by
  obtain ⟨⟨before, rfl, hbefore⟩, -, -⟩ := h
  rcases List.mem_append.mp hr with hr | hr
  · exact absurd htype (hbefore r hr)
  · exact List.mem_singleton.mp hr

theorem EndsWith.last_mem {packetType : MsgType} {receipts : List Receipt} {last : Receipt}
    {readbuf : List UInt8} (h : EndsWith packetType receipts last readbuf) : last ∈ receipts := by
  obtain ⟨⟨before, rfl, -⟩, -, -⟩ := h
  simp

/-- How a wait ends. -/
inductive Waited (packetType : MsgType) (s t : Client ω τ H) (receipts : List Receipt) :
    ℤ → Prop
  | failed {rc : ℤ} : rc < 0 → Closed s t → Waited packetType s t receipts rc
  | expired {rc : ℤ} : rc ≠ packetType.code → Continued s t receipts →
      Waited packetType s t receipts rc
  | got {last} : Continued s t receipts → EndsWith packetType receipts last t.client.readbuf →
      Waited packetType s t receipts packetType.code

theorem waitforLoop_waited (packetType : MsgType) : ∀ {rounds : ℕ} {rc : ℤ} {s : Client ω τ H},
    rc ≠ packetType.code →
    wp ((variant p fuel).waitforLoop p packetType timer rounds rc)
      (fun rc t => ∃ receipts, Course p (readPacket p) s receipts t ∧
        Waited packetType s t receipts rc)
      (fun _ _ => True) s
  | 0, _, _, _ => trivial
  | rounds + 1, rc, s, hrc => by
    rw [Variant.waitforLoop, wp_bind, wp_ask, wp_ite, wp_pure, wp_bind]
    have hasked : SameSession s { s with world := (p.timerIsExpired timer s.world).2 } :=
      ⟨rfl, rfl, rfl⟩
    have hstill := (still_quiet p).timerIsExpired timer s
    refine ⟨fun _ => ⟨[], .still hstill, .expired hrc (.same hasked)⟩, fun _ => ?_⟩
    apply wp_imp cycle_worked
    rintro rc' t ⟨r, hcourse, hworked⟩
    have hcourse' := hcourse.after_still hstill
    rw [wp_ite, wp_pure]
    rcases lt_or_ge rc' 0 with hneg | hle
    · have hclosed := (hworked.closed hneg).after hasked
      exact ⟨fun h => absurd h.2 hneg.not_ge, fun _ => ⟨[r], hcourse', .failed hneg hclosed⟩⟩
    · obtain ⟨rfl, hcontinued⟩ := hworked.continued hle
      have hfirst : Continued s t [r] := (Continued.same hasked).trans hcontinued
      constructor
      · rintro ⟨hne, -⟩
        apply wp_imp (waitforLoop_waited packetType hne)
        rintro rc'' u ⟨receipts, hlater, hwaited⟩
        refine ⟨[r] ++ receipts, hcourse'.trans hlater, ?_⟩
        cases hwaited with
        | failed hneg h =>
          exact .failed hneg (hfirst.closed h)
        | expired hne' h => exact .expired hne' (hfirst.trans h)
        | got h hends =>
          obtain ⟨⟨before, rfl, hbefore⟩, htype, hbuf⟩ := hends
          refine .got (hfirst.trans h) ⟨⟨r :: before, rfl, ?_⟩, htype, hbuf⟩
          exact List.forall_mem_cons.mpr ⟨hne, hbefore⟩
      · intro hdone
        have hgot : r.packetType = packetType.code := by
          by_contra hne
          exact hdone ⟨hne, hle⟩
        refine ⟨[r], hcourse', ?_⟩
        rw [hgot]
        exact .got hfirst ⟨⟨[], rfl, fun _ h => by cases h⟩, hgot, hworked.readbuf⟩

theorem waitfor_waited (packetType : MsgType) :
    wp (waitfor p fuel packetType timer)
      (fun rc t => ∃ receipts, Course p (readPacket p) s receipts t ∧
        Waited packetType s t receipts rc)
      (fun _ _ => True) s := by
  refine waitforLoop_waited packetType ?_
  have hcode : (0 : ℤ) < packetType.code := by exact_mod_cast packetType.code_pos
  unfold failure
  omega

theorem yieldLoop_continued : ∀ {rounds : ℕ} {s : Client ω τ H},
    wp (yieldLoop p fuel timer rounds)
      (fun rc t => ∃ receipts, Course p (readPacket p) s receipts t ∧
        ((rc = success ∧ Continued s t receipts) ∨ (rc = failure ∧ Closed s t)))
      (fun _ _ => True) s
  | 0, _ => trivial
  | rounds + 1, s => by
    rw [yieldLoop, wp_bind]
    apply wp_imp cycle_worked
    rintro rc t ⟨r, hcourse, hworked⟩
    rw [wp_ite, wp_pure, wp_bind, wp_ask, wp_ite, wp_pure]
    refine ⟨fun hneg => ⟨[r], hcourse, .inr ⟨rfl, hworked.closed hneg⟩⟩, fun hle => ?_⟩
    obtain ⟨-, hcontinued⟩ := hworked.continued (not_lt.mp hle)
    have hasked : SameSession t { t with world := (p.timerIsExpired timer t.world).2 } :=
      ⟨rfl, rfl, rfl⟩
    have hfirst := hcontinued.trans (.same hasked)
    have hcourse' := hcourse.then_still ((still_quiet p).timerIsExpired timer t)
    rw [List.append_nil] at hfirst
    refine ⟨fun _ => ⟨[r], hcourse', .inl ⟨rfl, hfirst⟩⟩, fun _ => ?_⟩
    apply wp_imp yieldLoop_continued
    rintro rc' u ⟨receipts, hlater, ⟨rfl, h⟩ | ⟨rfl, h⟩⟩
    · exact ⟨_, hcourse'.trans hlater, .inl ⟨rfl, hfirst.trans h⟩⟩
    · exact ⟨_, hcourse'.trans hlater, .inr ⟨rfl, hfirst.closed h⟩⟩

end MqttEmbedded.ClientC
