import MqttEmbedded.Lib.Log
import MqttEmbedded.ClientCpp.Steps

/-!
# The account that the history gives

What is written into the history follows what is there already: a message is
delivered while its identifier is not outstanding, an identifier is released while
it is, and a packet is sent for a reason. The array of identifiers holds those that
are outstanding.
-/

namespace MqttEmbedded.ClientCpp

open Region Hoare Log

variable {ω τ H : Type} {p : Platform ω τ H} {fuel : ℕ} {s t u : Client ω τ H}
  {history earlier : List Occurrence} {o : Occurrence} {id : UInt16} {packet : List UInt8}

/-- The type of a packet is in its first byte. -/
def typeOf (packet : List UInt8) : ℕ := MQTTHeader.type (packet.headD 0)

theorem typeOf_ackBytes (packettype : MsgType) (id : UInt16) :
    typeOf (ackBytes packettype id) = packettype.code := by
  have hheader : typeOf (ackBytes packettype id) =
      MQTTHeader.type (ackHeader packettype.code 0) := rfl
  rw [hheader, ackHeader]
  exact MQTTHeader.type_ofBits_code _ _ _ _

theorem ackBytes_injective {packettype packettype' : MsgType} {id id' : UInt16}
    (h : ackBytes packettype id = ackBytes packettype' id') :
    packettype = packettype' ∧ id = id' := by
  have htype := congrArg typeOf h
  rw [typeOf_ackBytes, typeOf_ackBytes] at htype
  refine ⟨MsgType.code_injective htype, ?_⟩
  unfold ackBytes frameBytes at h
  have hbytes : intBytes id.toNat = intBytes id'.toNat :=
    List.append_inj_right' (List.cons.inj h).2 rfl
  simp only [intBytes, List.cons.injEq, and_true] at hbytes
  have hhigh := congrArg UInt8.toNat hbytes.1
  have hlow := congrArg UInt8.toNat hbytes.2
  simp only [UInt8.toNat_ofNat'] at hhigh hlow
  have hid := id.toNat_lt
  have hid' := id'.toNat_lt
  rw [← UInt16.toNat_inj]
  omega

/-- The identifier with which a QoS 2 message is delivered. -/
def Occurrence.taken : Occurrence → Option UInt16
  | .delivered 2 id => id
  | _ => none

/-- The identifiers that have been delivered and not been released since. -/
def outstanding : List Occurrence → List UInt16
  | [] => []
  | .released id :: earlier => (outstanding earlier).erase id
  | o :: earlier => o.taken.toList ++ outstanding earlier

/-- How often a QoS 2 message with this identifier has been delivered. -/
def deliveries (id : UInt16) (history : List Occurrence) : ℕ :=
  history.count (.delivered 2 (some id))

def releases (id : UInt16) (history : List Occurrence) : ℕ := history.count (.released id)

/-- Why a packet is sent. -/
inductive Sending (earlier : List Occurrence) : List UInt8 → Prop
  | request {packet : List UInt8} {type : MsgType} :
      type ∈ [MsgType.connect, .subscribe, .unsubscribe, .disconnect, .pingreq] →
      typeOf packet = type.code → Sending earlier packet
  | puback (id : UInt16) : Sending earlier (ackBytes .puback id)
  | pubrec {id : UInt16} : (∃ o ∈ earlier, o.Brings id) →
      (id ≠ 0 → id ∈ outstanding earlier ∨
        maxIncomingQoS2Messages ≤ (outstanding earlier).length ∧
        ∃ o before, earlier = o :: before ∧ o.Brings id) → Sending earlier (ackBytes .pubrec id)
  | pubrel {id : UInt16} {o : Occurrence} {before : List Occurrence} : earlier = o :: before →
      o.Acknowledges .pubrec id → Sending earlier (ackBytes .pubrel id)
  | pubcomp (id : UInt16) : Sending earlier (ackBytes .pubcomp id)
  | announced {packet : List UInt8} : Announced earlier packet → Sending earlier packet

/-- What may be written after what. -/
def Occurrence.Follows (o : Occurrence) (earlier : List Occurrence) : Prop :=
  match o with
  | .delivered qos id => qos = 2 → ∃ id', id = some id' ∧ id' ≠ 0 ∧ id' ∉ outstanding earlier
  | .released id => id ∈ outstanding earlier
  | .sent packet _ => Sending earlier packet
  | .publishing _ _ packet => typeOf packet = MsgType.publish.code
  | .resending packet =>
    typeOf packet = MsgType.publish.code ∧ ∃ before, earlier = .resuming :: before
  | .received .. | .keptAlive .. | .awaiting _ | .awaited | .resuming => True

/-- Everything in the history follows what was there before. -/
def Lawful (history : List Occurrence) : Prop := Throughout Occurrence.Follows history

/-- Neither a delivery at QoS 2 nor a release. -/
def Occurrence.Aside : Occurrence → Prop
  | .delivered qos _ => qos ≠ 2
  | .released _ => False
  | .received .. | .sent .. | .publishing .. | .resending _ | .keptAlive .. | .awaiting _
  | .awaited | .resuming => True

theorem outstanding_aside (h : o.Aside) (earlier : List Occurrence) :
    outstanding (o :: earlier) = outstanding earlier := by
  cases o with
  | delivered qos id =>
    change qos ≠ 2 at h
    have htaken : (Occurrence.delivered qos id).taken = none := by
      unfold Occurrence.taken
      split
      · rename_i heq
        simp only [Occurrence.delivered.injEq] at heq
        exact absurd heq.1 h
      · rfl
    rw [outstanding, htaken]
    · rfl
    · exact fun _ => Occurrence.noConfusion
  | released id => exact h.elim
  | received | sent | publishing | resending | keptAlive | awaiting | awaited | resuming => rfl

theorem outstanding_taken (id : UInt16) (earlier : List Occurrence) :
    outstanding (.delivered 2 (some id) :: earlier) = id :: outstanding earlier := rfl

theorem Lawful.nodup (h : Lawful history) : (outstanding history).Nodup := by
  induction history with
  | nil => exact List.nodup_nil
  | cons o earlier ih =>
    obtain ⟨hfollows, h⟩ := h
    by_cases haside : o.Aside
    · rw [outstanding_aside haside]
      exact ih h
    · cases o with
      | delivered qos id =>
        obtain rfl : qos = 2 := not_not.mp haside
        obtain ⟨id, rfl, -, hid⟩ := hfollows rfl
        exact List.nodup_cons.mpr ⟨hid, ih h⟩
      | released id => exact (ih h).erase id
      | received | sent | publishing | resending | keptAlive | awaiting | awaited | resuming =>
        exact absurd trivial haside

/-- What has been delivered is outstanding or has been released. -/
theorem Lawful.deliveries_eq (h : Lawful history) (id : UInt16) :
    deliveries id history = releases id history + (outstanding history).count id := by
  unfold deliveries releases
  induction history with
  | nil => rfl
  | cons o earlier ih =>
    obtain ⟨hfollows, h⟩ := h
    have ih := ih h
    by_cases haside : o.Aside
    · have hdelivered : o ≠ .delivered 2 (some id) := by
        rintro rfl
        exact haside rfl
      have hreleased : o ≠ .released id := by
        rintro rfl
        exact haside
      rw [outstanding_aside haside, List.count_cons_of_ne hdelivered,
        List.count_cons_of_ne hreleased, ih]
    · cases o with
      | delivered qos id' =>
        obtain rfl : qos = 2 := not_not.mp haside
        obtain ⟨id', rfl, -, -⟩ := hfollows rfl
        have hreleased : Occurrence.delivered 2 (some id') ≠ .released id := Occurrence.noConfusion
        rw [outstanding_taken, List.count_cons_of_ne hreleased, List.count_cons, List.count_cons,
          ih]
        simp only [beq_iff_eq, Occurrence.delivered.injEq, Option.some.injEq, true_and]
        omega
      | released id' =>
        have hmem : id' ∈ outstanding earlier := hfollows
        have hdelivered : Occurrence.released id' ≠ .delivered 2 (some id) := Occurrence.noConfusion
        rw [outstanding, List.count_cons_of_ne hdelivered, List.count_cons, ih]
        simp only [beq_iff_eq, Occurrence.released.injEq]
        by_cases hid : id' = id
        · subst hid
          have hpos := List.count_pos_iff.mpr hmem
          rw [List.count_erase_self, if_pos rfl]
          omega
        · rw [List.count_erase_of_ne (Ne.symm hid), if_neg hid, Nat.add_zero]
      | received | sent | publishing | resending | keptAlive | awaiting | awaited | resuming =>
        exact absurd trivial haside

/-- What is outstanding is so until it is released. -/
theorem outstanding_append (h : id ∈ outstanding history) :
    ∀ log : List Occurrence, .released id ∈ log ∨ id ∈ outstanding (log ++ history)
  | [] => .inr h
  | o :: log => by
    rcases outstanding_append h log with hmem | hmem
    · exact .inl (List.mem_cons_of_mem o hmem)
    · by_cases haside : o.Aside
      · rw [List.cons_append, outstanding_aside haside]
        exact .inr hmem
      · cases o with
        | delivered qos id' =>
          obtain rfl : qos = 2 := not_not.mp haside
          exact .inr (List.mem_append_right _ hmem)
        | released id' =>
          by_cases hid : id = id'
          · exact .inl (hid ▸ List.mem_cons_self)
          · exact .inr ((List.mem_erase_of_ne hid).mpr hmem)
        | received | sent | publishing | resending | keptAlive | awaiting | awaited | resuming =>
          exact absurd trivial haside

/-- What agrees with the history. -/
structure Account (s : Client ω τ H) : Prop where
  slots : s.own.incomingQoS2messages.length = maxIncomingQoS2Messages
  held : (outstanding s.own.history).Perm (held s.own.incomingQoS2messages)
  /-- What is kept for sending on reconnect is a PUBLISH. -/
  inflight : s.own.inflightMsgid ≠ 0 →
    typeOf (s.own.pubbuf.take s.own.inflightLen) = MsgType.publish.code
  /-- Nothing sets `pubrel`. -/
  pubrel : s.own.pubrel = false
  lawful : Lawful s.own.history

namespace Account

theorem construct (old : Client ω τ H) (commandTimeoutMs : ℕ) :
    Account (construct old commandTimeoutMs) where
  slots := List.length_replicate
  held := by
    have hnone : ClientCpp.held (List.replicate maxIncomingQoS2Messages 0) = [] := by decide
    change List.Perm [] (ClientCpp.held (List.replicate maxIncomingQoS2Messages 0))
    rw [hnone]
  inflight := fun h => absurd rfl h
  pubrel := rfl
  lawful := trivial

theorem mem_outstanding (h : Account s) (hid : id ≠ 0)
    (hmem : id ∈ s.own.incomingQoS2messages) : id ∈ outstanding s.own.history := by
  rw [h.held.mem_iff, held_eq]
  exact VacantSlots.mem_occupied.mpr ⟨hmem, hid⟩

theorem not_mem_outstanding (h : Account s) (hmem : id ∉ s.own.incomingQoS2messages) :
    id ∉ outstanding s.own.history := by
  rw [h.held.mem_iff, held_eq]
  exact fun hheld => hmem (VacantSlots.mem_occupied.mp hheld).1

theorem outstanding_full (h : Account s) (hfull : 0 ∉ s.own.incomingQoS2messages) :
    maxIncomingQoS2Messages ≤ (outstanding s.own.history).length := by
  rw [h.held.length_eq, held_eq, ← h.slots]
  by_contra hlt
  exact hfull (VacantSlots.length_occupied_lt.mp (not_le.mp hlt))

theorem ping (h : Account s) (hown : t.own = { s.own with pingSent := t.own.pingSent }) :
    Account t := by
  constructor
  · rw [hown]
    exact h.slots
  · rw [hown]
    exact h.held
  · rw [hown]
    exact h.inflight
  · rw [hown]
    exact h.pubrel
  · rw [hown]
    exact h.lawful

theorem noted (h : Account s) (haside : o.Aside) (hfollows : o.Follows s.own.history) :
    Account (noted s o) where
  slots := h.slots
  held := by
    change (outstanding (o :: s.own.history)).Perm _
    rw [outstanding_aside haside]
    exact h.held
  inflight := h.inflight
  pubrel := h.pubrel
  lawful := ⟨hfollows, h.lawful⟩

theorem taken (h : Account s) {slots : List UInt16}
    (hfree : isQoS2msgidFree s.own.incomingQoS2messages id = true)
    (huse : useQoS2msgid s.own.incomingQoS2messages id = some slots) :
    Account (ClientCpp.noted { s with own := { s.own with incomingQoS2messages := slots } }
      (.delivered 2 (some id))) := by
  rw [isQoS2msgidFree_iff] at hfree
  rw [useQoS2msgid_eq] at huse
  have hid : id ≠ 0 := by
    rintro rfl
    rw [VacantSlots.claim_eq_none.mpr hfree] at huse
    cases huse
  constructor
  · exact (VacantSlots.length_of_claim huse).trans h.slots
  · change (id :: outstanding s.own.history).Perm (ClientCpp.held slots)
    rw [held_eq]
    exact (h.held.cons id).trans (VacantSlots.occupied_of_claim hid huse).symm
  · exact h.inflight
  · exact h.pubrel
  · exact ⟨fun _ => ⟨id, rfl, hid, h.not_mem_outstanding hfree⟩, h.lawful⟩

theorem freed (h : Account s) (id : UInt16) : Account (freed s id) := by
  constructor
  · change (freeQoS2msgid _ id).length = _
    rw [freeQoS2msgid_eq, VacantSlots.length_vacate]
    exact h.slots
  · have hheld : ClientCpp.held (freeQoS2msgid s.own.incomingQoS2messages id) =
        (ClientCpp.held s.own.incomingQoS2messages).erase id := by
      rw [freeQoS2msgid_eq, held_eq, VacantSlots.occupied_vacate]
    dsimp only [ClientCpp.freed]
    rw [hheld]
    split_ifs with hmem
    · exact h.held.erase id
    · rw [List.erase_of_not_mem hmem]
      exact h.held
  · exact h.inflight
  · exact h.pubrel
  · dsimp only [ClientCpp.freed]
    split_ifs with hmem
    · exact ⟨h.held.mem_iff.mpr hmem, h.lawful⟩
    · exact h.lawful

end Account

/-- To release what is outstanding is lawful, and it is outstanding no more. -/
theorem lawful_released {ids : List UInt16} (kept : List UInt16) (h : Lawful history)
    (hperm : (outstanding history).Perm (kept ++ ids)) :
    (outstanding (ids.map .released ++ history)).Perm kept ∧
      Lawful (ids.map .released ++ history) := by
  induction ids generalizing kept with
  | nil =>
    rw [List.append_nil] at hperm
    exact ⟨hperm, h⟩
  | cons id ids ih =>
    have hsplit : kept ++ id :: ids = (kept ++ [id]) ++ ids := by simp
    rw [hsplit] at hperm
    obtain ⟨hrest, hlawful⟩ := ih _ hperm
    have hlast : (kept ++ [id]).Perm (id :: kept) := List.perm_append_singleton id kept
    have hmem : id ∈ outstanding (ids.map .released ++ history) := by
      rw [hrest.mem_iff]
      simp
    refine ⟨?_, hmem, hlawful⟩
    change ((outstanding (ids.map .released ++ history)).erase id).Perm kept
    have herase := (hrest.trans hlast).erase id
    rwa [List.erase_cons_head] at herase

namespace Account

theorem closed (h : Account s) : Account (closed s) := by
  unfold ClientCpp.closed
  split_ifs
  · obtain ⟨hheld, hlawful⟩ := lawful_released [] h.lawful h.held
    have hnone : ClientCpp.held (s.own.incomingQoS2messages.map fun _ => 0) = [] := by
      simp [ClientCpp.held]
    refine ⟨?_, ?_, fun hid => absurd rfl hid, rfl, hlawful⟩
    · rw [List.length_map]
      exact h.slots
    · dsimp only
      rw [hnone]
      exact hheld
  · exact ⟨h.slots, h.held, h.inflight, h.pubrel, h.lawful⟩

theorem sending (h : Account s)
    (hreply : Reply s.own.incomingQoS2messages s.own.history packet) :
    Sending s.own.history packet := by
  cases hreply with
  | puback id => exact .puback id
  | pubrec hbrings hheld =>
    refine .pubrec hbrings fun hid => hheld.imp (h.mem_outstanding hid) ?_
    exact fun ⟨hfull, hlatest⟩ => ⟨h.outstanding_full hfull, hlatest⟩
  | pubrel heq hacknowledges => exact .pubrel heq hacknowledges
  | pubcomp id => exact .pubcomp id
  | pingreq bytes => exact .request (by simp) (MQTTHeader.type_ofBits_code .pingreq 0 0 0)

theorem deed (h : Account s) (hdeed : Deed s t) : Account t := by
  cases hdeed with
  | still hsame => exact h.ping hsame.own
  | received packetType readbuf => exact h.noted trivial trivial
  | delivered id hqos => exact h.noted hqos fun hqos' => absurd hqos' hqos
  | taken hfree huse => exact h.taken hfree huse
  | freed id => exact h.freed id
  | sent rc hreply => exact h.noted trivial (h.sending hreply)
  | keptAlive rc pinged => exact h.noted trivial trivial
  | closed _ => exact h.closed

theorem stored {header : UInt8} {bytes : List UInt8} (h : Account s) (id : UInt16) (qos : ℕ)
    (htype : MQTTHeader.type header = MsgType.publish.code) :
    Account (stored s (header :: bytes) id qos) := by
  unfold ClientCpp.stored
  split_ifs
  · exact h.noted trivial htype
  · have hkept : Account { s with own := { s.own with
        pubbuf := overwrite s.own.pubbuf 0 (header :: bytes)
        inflightMsgid := id
        inflightLen := (header :: bytes).length
        inflightQoS := qos
        pubrel := false } } := by
      refine ⟨h.slots, h.held, fun _ => ?_, rfl, h.lawful⟩
      dsimp only
      rw [take_overwrite_zero]
      exact htype
    exact hkept.noted trivial htype

theorem cleared (h : Account s) (id : UInt16) : Account (cleared s id) := by
  unfold ClientCpp.cleared
  split_ifs
  · exact ⟨h.slots, h.held, fun hid => absurd rfl hid, h.pubrel, h.lawful⟩
  · exact h

theorem step (h : Account s) (hstep : Step s t) : Account t := by
  cases hstep with
  | deed hdeed => exact h.deed hdeed
  | requested bytes rc hmem htype =>
    exact h.noted trivial (.request (List.mem_append_left [MsgType.pingreq] hmem) htype)
  | stored bytes id qos htype => exact h.stored id qos htype
  | resuming => exact h.noted trivial trivial
  | resending heq hinflight hpacket =>
    refine h.noted trivial ⟨?_, _, heq⟩
    rcases hpacket with rfl | ⟨hpubrel, -⟩
    · exact h.inflight hinflight
    · rw [h.pubrel] at hpubrel
      exact absurd hpubrel Bool.false_ne_true
  | transmitted rc hannounced => exact h.noted trivial (.announced hannounced)
  | awaiting packetType => exact h.noted trivial trivial
  | awaited => exact h.noted trivial trivial
  | cleared id => exact h.cleared id
  | closed => exact h.closed
  | connecting keepAliveInterval cleansession _ =>
    exact ⟨h.slots, h.held, h.inflight, h.pubrel, h.lawful⟩
  | connected => exact ⟨h.slots, h.held, h.inflight, h.pubrel, h.lawful⟩

theorem steps (h : Account s) (hsteps : Steps s t) : Account t := by
  induction hsteps with
  | refl => exact h
  | tail _ hstep ih => exact ih.step hstep

end Account

/-- What is announced is a PUBLISH. -/
theorem Lawful.announced (h : Lawful history) (hannounced : Announced history packet) :
    typeOf packet = MsgType.publish.code := by
  obtain ⟨earlier, ⟨id, qos, rfl⟩ | rfl⟩ := hannounced
  · exact h.1
  · exact h.1.1

/-- A PUBLISH or a PUBREL that is sent has been announced, or answers a PUBREC. -/
theorem Sending.message_inv (h : Sending earlier packet)
    (htype : typeOf packet = MsgType.publish.code ∨ typeOf packet = MsgType.pubrel.code) :
    Announced earlier packet ∨ ∃ o before id, earlier = o :: before ∧
      o.Acknowledges .pubrec id ∧ packet = ackBytes .pubrel id := by
  have hnot {type : MsgType} (hne : type ≠ .publish ∧ type ≠ .pubrel)
      (hcode : typeOf packet = type.code) : False := by
    rw [hcode] at htype
    rcases htype with heq | heq
    · exact hne.1 (MsgType.code_injective heq)
    · exact hne.2 (MsgType.code_injective heq)
  cases h with
  | request hmem hcode =>
    refine (hnot ⟨?_, ?_⟩ hcode).elim
    · rintro rfl
      exact absurd hmem (by decide)
    · rintro rfl
      exact absurd hmem (by decide)
  | puback id => exact (hnot (by decide) (typeOf_ackBytes .puback id)).elim
  | pubrec _ _ => exact (hnot (by decide) (typeOf_ackBytes .pubrec _)).elim
  | pubrel heq hacknowledges => exact .inr ⟨_, _, _, heq, hacknowledges, rfl⟩
  | pubcomp id => exact (hnot (by decide) (typeOf_ackBytes .pubcomp id)).elim
  | announced hannounced => exact .inl hannounced

/-- In every run the history is lawful and the array agrees with it. -/
theorem runCalls_account (p : Platform ω τ H) (fuel : ℕ) (old : Client ω τ H)
    (commandTimeoutMs : ℕ) (calls : List (Call H)) :
    wp (runCalls p fuel calls) (fun _ t => Account t) (fun _ t => Account t)
      (construct old commandTimeoutMs) := by
  have h := Account.construct old commandTimeoutMs
  apply wp_mono (runCalls_steps p fuel calls _)
  · exact fun _ _ hsteps => h.steps hsteps
  · exact fun _ _ hsteps => h.steps hsteps

/-- Networks on which the bytes of a list arrive, one list after the other: the connection
breaks down after the last byte of each. No timer expires. -/
def connectionsPlatform : Platform (List (List UInt8)) Unit Unit where
  mqttread := fun len _ connections => match connections with
    | [] => (.failed (-1) Delivery.error_nonpos, [])
    | [] :: later => (.failed (-1) Delivery.error_nonpos, later)
    | bytes :: later =>
      (.arrived (bytes.take len) (List.length_take_le _ _), bytes.drop len :: later)
  mqttwrite := fun _ len _ connections => (len, connections)
  timerInit := fun connections => ((), connections)
  timerIsExpired := fun _ connections => (false, connections)
  timerCountdownMS := fun _ _ connections => ((), connections)
  timerCountdown := fun _ _ connections => ((), connections)
  timerLeftMS := fun _ connections => (1000, connections)
  invoke := fun _ _ connections => connections

/-- The memory that a client is constructed in, and the connections it will have. -/
def beforehand (connections : List (List UInt8)) : Client (List (List UInt8)) Unit Unit where
  client :=
    { nextPacketid := 0
      commandTimeoutMs := 0
      buf := List.replicate 24 0
      readbuf := List.replicate 16 0
      keepAliveInterval := 0
      pingOutstanding := false
      isconnected := false
      cleansession := false
      messageHandlers := []
      defaultMessageHandler := none
      lastSent := ()
      lastReceived := () }
  own :=
    { pubbuf := List.replicate 24 0
      inflightLen := 0
      inflightMsgid := 0
      inflightQoS := 0
      pubrel := false
      incomingQoS2messages := []
      pingSent := ()
      history := [] }
  world := connections

end MqttEmbedded.ClientCpp
