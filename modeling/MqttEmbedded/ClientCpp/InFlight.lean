import MqttEmbedded.ClientCpp.Connecting

/-!
# The message in flight

A message at quality of service 2 is published, recorded by the broker with PUBREC,
and released with PUBREL; after that its PUBLISH is not to be sent again. The client
has a flag for a message that it has released, and never sets it.
-/

namespace MqttEmbedded.ClientCpp

open Region Hoare Log

variable {ω τ H : Type} {p : Platform ω τ H} {fuel : ℕ} {s t : Client ω τ H}
  {history earlier : List Occurrence} {o : Occurrence} {id : UInt16} {packet : List UInt8}

/-- How far the latest message has got, if it is one at QoS 2. -/
inductive Phase where
  | idle
  | published (id : UInt16)
  | recorded (id : UInt16)
  | released (id : UInt16)
  deriving DecidableEq

namespace Phase

def id? : Phase → Option UInt16
  | idle => none
  | published id | recorded id | released id => some id

/-- A PUBLISH begins a phase, a PUBREC, a PUBREL that has been sent, and the PUBCOMP. -/
def next (phase : Phase) : Occurrence → Phase
  | .publishing id qos _ => if qos = 2 then published id else idle
  | .received packetType readbuf =>
    if packetType = MsgType.pubcomp.code ∧ (acknowledgedId readbuf).isSome ∧
      acknowledgedId readbuf = phase.id? then idle
    else match phase with
      | published id =>
        if packetType = MsgType.pubrec.code ∧ acknowledgedId readbuf = some id then recorded id
        else phase
      | idle | recorded _ | released _ => phase
  | .sent packet rc => match phase with
    | recorded id => if packet = ackBytes .pubrel id ∧ rc = success then released id else phase
    | idle | published _ | released _ => phase
  | .delivered .. | .released _ | .keptAlive .. | .awaiting _ | .awaited | .resuming
  | .resending _ => phase

end Phase

def phase : List Occurrence → Phase
  | [] => .idle
  | o :: earlier => (phase earlier).next o

/-- `connect` does not find in flight a message that has been released and is not complete. -/
def NeverResumedReleased (history : List Occurrence) : Prop :=
  ∀ o earlier id, o :: .resuming :: earlier <:+ history → phase earlier ≠ .released id

/-- A message that has been released is not published again; instead `connect` sends
the PUBREL. -/
structure ReleasedOnce (history : List Occurrence) : Prop where
  published : ∀ packet rc earlier id, .sent packet rc :: earlier <:+ history →
    phase earlier = .released id → typeOf packet ≠ MsgType.publish.code
  resumed : ∀ o earlier id, o :: .resuming :: earlier <:+ history →
    phase earlier = .released id → o = .resending (ackBytes .pubrel id)

theorem Lawful.not_published (h : Lawful history) (hresumed : NeverResumedReleased history)
    {rc : ℤ} (hsuffix : .sent packet rc :: earlier <:+ history)
    (hphase : phase earlier = .released id) : typeOf packet ≠ MsgType.publish.code := by
  intro htype
  have hsending : Sending earlier packet := h.entry hsuffix
  have hearlier : earlier <:+ history := (List.suffix_cons _ _).trans hsuffix
  rcases hsending.message_inv (.inl htype) with hannounced | ⟨_, _, id', -, -, rfl⟩
  · obtain ⟨before, ⟨id', qos, rfl⟩ | rfl⟩ := hannounced
    · change (phase before).next (.publishing id' qos packet) = .released id at hphase
      rw [Phase.next] at hphase
      split_ifs at hphase
    · have hfollows : (Occurrence.resending packet).Follows before := h.entry hearlier
      obtain ⟨-, before, rfl⟩ := hfollows
      exact hresumed _ before id hearlier hphase
  · rw [typeOf_ackBytes] at htype
    exact absurd (MsgType.code_injective htype) (by decide)

theorem Lawful.releasedOnce_iff (h : Lawful history) :
    ReleasedOnce history ↔ NeverResumedReleased history := by
  constructor
  · intro honce o earlier id hsuffix hphase
    -- what is sent again is a PUBLISH, never the PUBREL
    have hresending := honce.resumed o earlier id hsuffix hphase
    rw [hresending] at hsuffix
    have hfollows : (Occurrence.resending (ackBytes .pubrel id)).Follows (.resuming :: earlier) :=
      h.entry hsuffix
    have htype := hfollows.1
    rw [typeOf_ackBytes] at htype
    exact absurd (MsgType.code_injective htype) (by decide)
  · intro hresumed
    constructor
    · exact fun packet rc earlier id hsuffix hphase => h.not_published hresumed hsuffix hphase
    · exact fun o earlier id hsuffix hphase => absurd hphase (hresumed o earlier id hsuffix)

/-- In every run a message that has been released is not published again, if and only if
`connect` never finds one in flight. -/
theorem runCalls_releasedOnce {old : Client ω τ H} {commandTimeoutMs : ℕ} {calls : List (Call H)}
    (hrun : Run p fuel calls (construct old commandTimeoutMs) t) :
    ReleasedOnce t.own.history ↔ NeverResumedReleased t.own.history := by
  have haccount : Account t := hrun.post (runCalls_account p fuel old commandTimeoutMs calls)
  exact haccount.lawful.releasedOnce_iff

/-- A client that is to keep its session publishes at QoS 2, and connects again when the
connection has broken down. -/
def publishAndReconnect : List (Call Unit) :=
  [.connect (some persistent), .publish ⟨[97], unterminated_a⟩ [1] 1 0 2 false,
    .connect (some persistent)]

/-- The connection breaks down after the PUBREL: the PUBLISH is sent again. -/
theorem runCalls_not_releasedOnce : ∃ entries t,
    runCalls connectionsPlatform 16 publishAndReconnect
      (construct (beforehand [[0x20, 2, 0, 0, 0x50, 2, 0, 1], [0x20, 2, 0, 0, 0x70, 2, 0, 1]])
        1000) = .ok entries t ∧
    (∀ e ∈ entries, e.after.client.cleansession = false) ∧ ¬ ReleasedOnce t.own.history := by
  obtain ⟨entries, t, hrun, hclean, hsent, hphase⟩ : ∃ entries t,
      runCalls connectionsPlatform 16 publishAndReconnect
        (construct (beforehand [[0x20, 2, 0, 0, 0x50, 2, 0, 1], [0x20, 2, 0, 0, 0x70, 2, 0, 1]])
          1000) = .ok entries t ∧
      (∀ e ∈ entries, e.after.client.cleansession = false) ∧
      (t.own.history.drop 4).head? = some (.sent [0x34, 6, 0, 1, 97, 0, 1, 1] success) ∧
      phase (t.own.history.drop 4).tail = .released 1 :=
    wp_total (by decide +kernel)
  have hnot : ¬ ReleasedOnce t.own.history := fun h =>
    h.published _ _ _ 1 (suffix_of_drop hsent) hphase (by decide)
  exact ⟨entries, t, hrun, hclean, hnot⟩

/-- The client publishes and connects again as before; then it yields until the connection
breaks down once more, and connects a third time. -/
def publishAndReconnectTwice : List (Call Unit) :=
  publishAndReconnect ++ [.yield 1000, .connect (some persistent)]

/-- The first connection breaks down before the PUBREC, and the PUBLISH is sent again; the second
one when the PUBCOMP has come in, and nothing is sent again. -/
theorem runCalls_releasedOnce_complete : ∃ entries t,
    runCalls connectionsPlatform 16 publishAndReconnectTwice
      (construct (beforehand [[0x20, 2, 0, 0], [0x20, 2, 0, 0, 0x50, 2, 0, 1, 0x70, 2, 0, 1],
        [0x20, 2, 0, 0]]) 1000) = .ok entries t ∧
    entries.map (·.rc) = [success, failure, success, failure, success] ∧
    .resending [0x34, 6, 0, 1, 97, 0, 1, 1] ∈ t.own.history ∧
    .sent (ackBytes .pubrel 1) success ∈ t.own.history ∧ ReleasedOnce t.own.history := by
  obtain ⟨entries, t, hrun, hrcs, hagain, hreleased, hfound⟩ : ∃ entries t,
      runCalls connectionsPlatform 16 publishAndReconnectTwice
        (construct (beforehand [[0x20, 2, 0, 0], [0x20, 2, 0, 0, 0x50, 2, 0, 1, 0x70, 2, 0, 1],
          [0x20, 2, 0, 0]]) 1000) = .ok entries t ∧
      entries.map (·.rc) = [success, failure, success, failure, success] ∧
      .resending [0x34, 6, 0, 1, 97, 0, 1, 1] ∈ t.own.history ∧
      .sent (ackBytes .pubrel 1) success ∈ t.own.history ∧
      Throughout (fun o earlier => o = .resuming → phase earlier = .idle ∨
        phase earlier = .published 1) t.own.history :=
    wp_total (by decide +kernel)
  have hresumed : NeverResumedReleased t.own.history := by
    intro o earlier id hsuffix hphase
    have hentry : Occurrence.resuming = .resuming → phase earlier = .idle ∨
        phase earlier = .published 1 := hfound.entry ((List.suffix_cons _ _).trans hsuffix)
    rw [hphase] at hentry
    rcases hentry rfl with hidle | hpublished
    · cases hidle
    · cases hpublished
  exact ⟨entries, t, hrun, hrcs, hagain, hreleased,
    (runCalls_releasedOnce (Run.done hrun)).mpr hresumed⟩

end MqttEmbedded.ClientCpp
