import MqttEmbedded.ClientCpp.Accounts

/-!
# Incoming messages at quality of service 2

No message is delivered twice before its identifier is released: the array of
identifiers sees to that. It has room for ten. A message that comes when it is full
is acknowledged like any other and is not delivered.
-/

namespace MqttEmbedded.ClientCpp

open Region Hoare Log

variable {ω τ H : Type} {s t : Client ω τ H} {history earlier : List Occurrence}
  {o : Occurrence} {id : UInt16} {packet : List UInt8}

/-- The identifiers in the array are distinct, and none has been delivered more than
once more than it has been released. -/
structure AtMostOnce (s : Client ω τ H) : Prop where
  distinct : (held s.own.incomingQoS2messages).Nodup
  once : ∀ id, deliveries id s.own.history ≤ releases id s.own.history + 1

theorem Account.atMostOnce (h : Account s) : AtMostOnce s where
  distinct := h.held.nodup_iff.mp h.lawful.nodup
  once := by
    intro id
    have heq := h.lawful.deliveries_eq id
    have hcount := List.nodup_iff_count_le_one.mp h.lawful.nodup id
    omega

/-- The client has gone from one state to the other by steps, and `I` holds after each. -/
def Through (I : Client ω τ H → Prop) : Client ω τ H → Client ω τ H → Prop :=
  Relation.ReflTransGen fun s t => Step s t ∧ I t

theorem Account.through {I : Client ω τ H → Prop} (hI : ∀ s, Account s → I s) (h : Account s)
    (hsteps : Steps s t) : Through I s t := by
  induction hsteps with
  | refl => exact .refl
  | tail hsteps hstep ih =>
    have hafter := (h.steps hsteps).step hstep
    exact ih.tail ⟨hstep, hI _ hafter⟩

/-- In every state of every run the identifiers in the array are distinct, and a message
has been delivered at most once more often than its identifier has been released. -/
theorem runCalls_atMostOnce (p : Platform ω τ H) (fuel : ℕ) (old : Client ω τ H)
    (commandTimeoutMs : ℕ) (calls : List (Call H)) :
    AtMostOnce (construct old commandTimeoutMs) ∧
      wp (runCalls p fuel calls)
        (fun _ t => Through AtMostOnce (construct old commandTimeoutMs) t)
        (fun _ t => Through AtMostOnce (construct old commandTimeoutMs) t)
        (construct old commandTimeoutMs) := by
  have h := Account.construct old commandTimeoutMs
  refine ⟨h.atMostOnce, ?_⟩
  apply wp_mono (runCalls_steps p fuel calls _)
  · intro _ t hsteps
    exact h.through (fun _ => Account.atMostOnce) hsteps
  · intro _ t hsteps
    exact h.through (fun _ => Account.atMostOnce) hsteps

/-- The identifier of the QoS 2 PUBLISH that has come in. -/
def Occurrence.brought : Occurrence → Option UInt16
  | .received packetType readbuf =>
    if packetType = MsgType.publish.code then publishedId readbuf else none
  | _ => none

theorem Occurrence.Brings.brought (h : o.Brings id) : o.brought = some id := by
  obtain ⟨readbuf, rfl, hid⟩ := h
  exact hid

/-- No identifier that comes in is 0. -/
def NonZeroIds (history : List Occurrence) : Prop := ∀ o ∈ history, o.brought ≠ some 0

instance (history : List Occurrence) : Decidable (NonZeroIds history) :=
  inferInstanceAs (Decidable (∀ o ∈ history, _))

/-- Every QoS 2 PUBLISH that comes in has its identifier outstanding, or there are fewer
than ten others outstanding. -/
def Room (history : List Occurrence) : Prop :=
  Throughout (fun o earlier => ∀ id ∈ o.brought, id ∈ outstanding earlier ∨
    (outstanding earlier).length < maxIncomingQoS2Messages) history

instance (history : List Occurrence) : Decidable (Room history) :=
  have (o : Occurrence) (earlier : List Occurrence) : Decidable (∀ id ∈ o.brought,
      id ∈ outstanding earlier ∨ (outstanding earlier).length < maxIncomingQoS2Messages) :=
    Option.decidableForallMem o.brought
  inferInstanceAs (Decidable (Throughout _ history))

/-- A message that has been acknowledged with PUBREC has been delivered, and its
identifier has not been released since. -/
def AcknowledgedDelivered (history : List Occurrence) : Prop :=
  ∀ id rc earlier, .sent (ackBytes .pubrec id) rc :: earlier <:+ history →
    id ∈ outstanding earlier

/-- A PUBREC answers a PUBLISH that has come in. -/
theorem Sending.pubrec_inv (hlawful : Lawful history)
    (h : Sending history (ackBytes .pubrec id)) : (∃ o ∈ history, o.Brings id) ∧
      (id ≠ 0 → id ∈ outstanding history ∨
        maxIncomingQoS2Messages ≤ (outstanding history).length ∧
        ∃ o before, history = o :: before ∧ o.Brings id) := by
  generalize hpacket : ackBytes .pubrec id = packet at h
  cases h with
  | request hmem htype =>
    rw [← hpacket, typeOf_ackBytes] at htype
    rw [← MsgType.code_injective htype] at hmem
    exact absurd hmem (by decide)
  | puback id' => exact absurd (ackBytes_injective hpacket).1 (by decide)
  | pubrec hbrings hheld =>
    rw [(ackBytes_injective hpacket).2]
    exact ⟨hbrings, hheld⟩
  | pubrel _ _ => exact absurd (ackBytes_injective hpacket).1 (by decide)
  | pubcomp id' => exact absurd (ackBytes_injective hpacket).1 (by decide)
  | announced hannounced =>
    have htype := hlawful.announced hannounced
    rw [← hpacket, typeOf_ackBytes] at htype
    exact absurd (MsgType.code_injective htype) (by decide)

theorem Lawful.acknowledgedDelivered (h : Lawful history) (hids : NonZeroIds history)
    (hroom : Room history) : AcknowledgedDelivered history := by
  intro id rc earlier hsuffix
  have hsending : Sending earlier (ackBytes .pubrec id) := h.entry hsuffix
  have hearlier : earlier <:+ history := (List.suffix_cons _ _).trans hsuffix
  obtain ⟨⟨o, ho, hbrings⟩, hheld⟩ := hsending.pubrec_inv (h.suffix hearlier)
  have hid : id ≠ 0 := by
    rintro rfl
    exact hids o (hearlier.mem ho) hbrings.brought
  rcases hheld hid with hmem | ⟨hfull, o', before, rfl, hbrings'⟩
  · exact hmem
  · -- nothing was delivered for this PUBLISH: its identifier was there already
    have haside : o'.Aside := by
      obtain ⟨readbuf, rfl, -⟩ := hbrings'
      trivial
    rw [outstanding_aside haside] at hfull ⊢
    rcases (hroom.suffix hearlier).1 id hbrings'.brought with hmem | hlt
    · exact hmem
    · exact absurd hlt (not_lt.mpr hfull)

/-- While there is room for the messages that come in, every message that is acknowledged
has been delivered. -/
theorem runCalls_acknowledgedDelivered {p : Platform ω τ H} {fuel : ℕ} {old : Client ω τ H}
    {commandTimeoutMs : ℕ} {calls : List (Call H)}
    (hrun : Run p fuel calls (construct old commandTimeoutMs) t)
    (hids : NonZeroIds t.own.history) (hroom : Room t.own.history) :
    AcknowledgedDelivered t.own.history := by
  have haccount : Account t := hrun.post (runCalls_account p fuel old commandTimeoutMs calls)
  exact haccount.lawful.acknowledgedDelivered hids hroom

/-- A PUBLISH at QoS 2 with no payload, under the topic "a". -/
def publishQoS2 (id : UInt8) : List UInt8 := [0x34, 5, 0, 1, 97, 0, id]

/-- After a CONNACK eleven messages come in, and none is released. -/
def elevenMessages : List UInt8 :=
  [0x20, 2, 0, 0] ++ [1, 2, 3, 4, 5, 6, 7, 8, 9, 10, 11].flatMap publishQoS2

theorem not_acknowledgedDelivered {n : ℕ} {rc : ℤ}
    (hsent : (history.drop n).head? = some (.sent (ackBytes .pubrec id) rc))
    (hlost : id ∉ outstanding (history.drop n).tail) : ¬ AcknowledgedDelivered history :=
  fun h => hlost (h id rc _ (suffix_of_drop hsent))

/-- The eleventh message is acknowledged and not delivered. -/
theorem runCalls_not_acknowledgedDelivered : ∃ entries t,
    runCalls connectionsPlatform 16 [.connect none, .yield 1000]
      (construct (beforehand [elevenMessages]) 1000) = .ok entries t ∧
      NonZeroIds t.own.history ∧ ¬ AcknowledgedDelivered t.own.history := by
  obtain ⟨entries, t, hrun, hids, hsent, hlost⟩ : ∃ entries t,
      runCalls connectionsPlatform 16 [.connect none, .yield 1000]
        (construct (beforehand [elevenMessages]) 1000) = .ok entries t ∧
        NonZeroIds t.own.history ∧
        (t.own.history.drop 12).head? = some (.sent (ackBytes .pubrec 11) success) ∧
        11 ∉ outstanding (t.own.history.drop 12).tail :=
    wp_total (by decide +kernel)
  have hnot : ¬ AcknowledgedDelivered t.own.history := not_acknowledgedDelivered hsent hlost
  exact ⟨entries, t, hrun, hids, hnot⟩

/-- Ten messages come in, the first is released, and an eleventh comes in. -/
def tenMessages : List UInt8 :=
  [0x20, 2, 0, 0] ++ [1, 2, 3, 4, 5, 6, 7, 8, 9, 10].flatMap publishQoS2 ++ [0x62, 2, 0, 1] ++
    publishQoS2 11

theorem runCalls_acknowledgedDelivered_tenMessages : ∃ entries t,
    runCalls connectionsPlatform 16 [.connect none, .yield 1000]
      (construct (beforehand [tenMessages]) 1000) = .ok entries t ∧
    AcknowledgedDelivered t.own.history := by
  obtain ⟨entries, t, hrun, hids, hroom⟩ : ∃ entries t,
      runCalls connectionsPlatform 16 [.connect none, .yield 1000]
        (construct (beforehand [tenMessages]) 1000) = .ok entries t ∧
        NonZeroIds t.own.history ∧ Room t.own.history :=
    wp_total (by decide +kernel)
  exact ⟨entries, t, hrun, runCalls_acknowledgedDelivered (Run.done hrun) hids hroom⟩

end MqttEmbedded.ClientCpp
