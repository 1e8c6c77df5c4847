import MqttEmbedded.Client.Broker

/-!
# One request at a time

What a client that does its duties and asks for one thing at a time can have
outstanding at a conforming broker: the answer to its request, or the PUBCOMP for
the PUBREL with which it has answered the PUBREC. Every acknowledgement it
receives is therefore the one that its last request has asked for.
-/

namespace MqttEmbedded

/-- How far it is with its request, which is `whole`, or with none: `asks` is still to
be asked for, `owes` is the acknowledgement that the packet received last is owed,
`sent` and `acks` are the requests sent and the answers received, `out` is
outstanding. -/
inductive Dialogue (whole : List (List UInt8)) : (asks : List (List UInt8)) →
    (owes : Option (List UInt8)) → (sent : List (List UInt8)) → (acks out : List Ack) → Prop
  | silent {asks owes} : requests asks = whole → asks.length ≤ 1 → owes.bind answerTo = none →
      Dialogue whole asks owes [] [] []
  | asked {bytes a owes} : whole = [bytes] → answerTo bytes = some a →
      owes.bind answerTo = none → Dialogue whole [] owes [bytes] [] [a]
  | answered {bytes a owes} : whole = [bytes] → answerTo bytes = some a → (∀ id, a ≠ .pubrec id) →
      owes.bind answerTo = none → Dialogue whole [] owes [bytes] [a] []
  | releasing {bytes id} : whole = [bytes] → answerTo bytes = some (.pubrec id) →
      Dialogue whole [] (some (ackBytes .pubrel id)) [bytes] [.pubrec id] []
  | released {bytes id owes} : whole = [bytes] → answerTo bytes = some (.pubrec id) →
      owes.bind answerTo = none →
      Dialogue whole [] owes [bytes, ackBytes .pubrel id] [.pubrec id] [.pubcomp id]
  | completed {bytes id owes} : whole = [bytes] → answerTo bytes = some (.pubrec id) →
      owes.bind answerTo = none →
      Dialogue whole [] owes [bytes, ackBytes .pubrel id] [.pubrec id, .pubcomp id] []

variable {H : Type} {whole asks : List (List UInt8)} {owes : Option (List UInt8)}
  {sent : List (List UInt8)} {acks out : List Ack}

namespace Dialogue

theorem length_out_le (h : Dialogue whole asks owes sent acks out) : out.length ≤ 1 := by
  cases h <;> simp

/-- Every answer there is has been asked for, once. -/
theorem balance (h : Dialogue whole asks owes sent acks out) :
    sent.filterMap answerTo = acks ++ out := by
  cases h with
  | silent => rfl
  | asked _ ha | answered _ ha | releasing _ ha => simp [ha]
  | released _ ha | completed _ ha => simp [ha, answerTo_pubrel]

end Dialogue

/-- Of what a packet may be owed, the PUBREL for a PUBREC asks for an answer. -/
theorem Inbound.answerTo_reply (packet : Inbound) :
    (packet.reply.map fun reply => ackBytes reply.1 reply.2).bind answerTo =
      match packet.ack with
      | some (.pubrec id) => some (.pubcomp id)
      | _ => none := by
  cases packet with
  | publish dup qos retained topic id payload =>
    simp only [reply, ack]
    split_ifs
    · exact answerTo_ackBytes .puback id (by decide)
    · exact answerTo_ackBytes .pubrec id (by decide)
    · rfl
  | pubrec id => exact answerTo_pubrel id
  | pubrel id => exact answerTo_ackBytes .pubcomp id (by decide)
  | connack _ _ | puback _ | pubcomp _ | suback _ _ | unsuback _ | pingresp => rfl

theorem Inbound.eq_pubrec {packet : Inbound} {id : UInt16} (h : packet.ack = some (.pubrec id)) :
    packet = .pubrec id := by
  cases packet <;> cases h
  rfl

namespace Dialogue

/-- What the broker does meanwhile is not seen. -/
theorem server {out' : List Ack} (h : Dialogue whole asks owes sent acks out)
    (hperm : out'.Perm out) : Dialogue whole asks owes sent acks out' := by
  have hle := h.length_out_le
  have hsame : out' = out := by
    match out, hle with
    | [], _ => exact hperm.eq_nil
    | [a], _ => exact List.perm_singleton.mp hperm
  rwa [hsame]

theorem received {out' : List Ack} {packet : Inbound} (h : Dialogue whole asks none sent acks out)
    (hout : out = packet.ack.toList ++ out') :
    Dialogue whole asks (packet.reply.map fun reply => ackBytes reply.1 reply.2) sent
      (acks ++ packet.ack.toList) out' := by
  have hreply := packet.answerTo_reply
  cases hack : packet.ack with
  | none =>
    rw [hack] at hout hreply
    cases (show out = out' from hout)
    rw [Option.toList_none, List.append_nil]
    cases h with
    | silent hwhole hasks => exact .silent hwhole hasks hreply
    | asked hwhole ha => exact .asked hwhole ha hreply
    | answered hwhole ha hne => exact .answered hwhole ha hne hreply
    | released hwhole ha => exact .released hwhole ha hreply
    | completed hwhole ha => exact .completed hwhole ha hreply
  | some a =>
    rw [hack] at hout hreply
    cases h with
    | silent | answered | completed => simp at hout
    | asked hwhole ha =>
      obtain ⟨rfl, rfl⟩ := List.cons_eq_cons.mp hout.symm
      by_cases hpubrec : ∃ id, packet = .pubrec id
      · obtain ⟨id, rfl⟩ := hpubrec
        cases hack
        exact .releasing hwhole ha
      · have hne : ∀ id, a ≠ .pubrec id := by
          rintro id rfl
          exact hpubrec ⟨id, packet.eq_pubrec hack⟩
        refine .answered hwhole ha hne (hreply.trans ?_)
        cases a with
        | pubrec id => exact absurd rfl (hne id)
        | connack | puback _ | pubcomp _ | suback _ | unsuback _ => rfl
    | released hwhole ha =>
      obtain ⟨rfl, rfl⟩ := List.cons_eq_cons.mp hout
      exact .completed hwhole ha hreply

theorem replied {bytes : List UInt8} (h : Dialogue whole asks (some bytes) sent acks out) :
    Dialogue whole asks none (sent ++ requests [bytes]) acks (out ++ (answerTo bytes).toList) := by
  have hsilent (hnone : answerTo bytes = none) : sent ++ requests [bytes] = sent ∧
      out ++ (answerTo bytes).toList = out := by
    rw [requests_none hnone, hnone]
    simp
  cases h with
  | releasing hwhole ha =>
    rw [requests_some (answerTo_pubrel _), answerTo_pubrel]
    exact .released hwhole ha rfl
  | silent hwhole hasks howes =>
    rw [(hsilent howes).1, (hsilent howes).2]
    exact .silent hwhole hasks rfl
  | asked hwhole ha howes =>
    rw [(hsilent howes).1, (hsilent howes).2]
    exact .asked hwhole ha rfl
  | answered hwhole ha hne howes =>
    rw [(hsilent howes).1, (hsilent howes).2]
    exact .answered hwhole ha hne rfl
  | released hwhole ha howes =>
    rw [(hsilent howes).1, (hsilent howes).2]
    exact .released hwhole ha rfl
  | completed hwhole ha howes =>
    rw [(hsilent howes).1, (hsilent howes).2]
    exact .completed hwhole ha rfl

theorem requested {bytes : List UInt8} (h : Dialogue whole (bytes :: asks) none sent acks out) :
    Dialogue whole asks none (sent ++ requests [bytes]) acks (out ++ (answerTo bytes).toList) := by
  cases h with
  | silent hwhole hasks =>
    obtain rfl : asks = [] := List.length_eq_zero_iff.mp (by simpa using hasks)
    cases ha : answerTo bytes with
    | none =>
      rw [requests_none ha] at hwhole ⊢
      exact .silent hwhole (by simp) rfl
    | some a =>
      rw [requests_some ha] at hwhole ⊢
      exact .asked hwhole.symm ha rfl

theorem concluded (h : Dialogue whole [] none sent acks out)
    (hlast : ∀ bytes a, whole = [bytes] → answerTo bytes = some a →
      ∃ b, acks.getLast? = some b ∧ b.type = a.final) :
    out = [] ∧ ∀ bytes a, whole = [bytes] → answerTo bytes = some a →
      (sent = [bytes] ∧ acks = [a]) ∧ (∀ id, a ≠ .pubrec id) ∨
      ∃ id, a = .pubrec id ∧ sent = [bytes, ackBytes .pubrel id] ∧
        acks = [.pubrec id, .pubcomp id] := by
  cases h with
  | silent hwhole => exact ⟨rfl, fun bytes a hbytes => by simp [← hwhole, requests] at hbytes⟩
  | asked hwhole ha =>
    obtain ⟨b, hb, -⟩ := hlast _ _ hwhole ha
    cases hb
  | answered hwhole ha hne =>
    refine ⟨rfl, fun bytes a hbytes ha' => .inl ?_⟩
    cases hwhole.symm.trans hbytes
    cases ha.symm.trans ha'
    exact ⟨⟨rfl, rfl⟩, hne⟩
  | released hwhole ha =>
    obtain ⟨b, hb, htype⟩ := hlast _ _ hwhole ha
    cases hb
    cases htype
  | @completed _ id _ hwhole ha =>
    refine ⟨rfl, fun bytes a hbytes ha' => .inr ⟨id, ?_⟩⟩
    cases hwhole.symm.trans hbytes
    cases ha.symm.trans ha'
    exact ⟨rfl, rfl, rfl⟩

end Dialogue

/-- A client that does its duties and asks for one thing at a time is in such a dialogue
with every conforming broker. -/
theorem Works.dialogue {handlers : List UInt8 → List H} {d d' : Duty H}
    {evs : List (Event H BrokerStep)} (h : Works handlers d evs asks d') :
    ∀ {sent : List (List UInt8)} {acks : List Ack}
      {net net' : Protocol.Net (List UInt8) WirePacket Ack},
    mqtt.run net (networkSteps evs) = some net' →
    Dialogue whole asks d.answer sent acks (mqtt.outstanding net) →
    Dialogue whole [] d'.answer (sent ++ requests (sentPackets evs)) (acks ++ receivedAcks evs)
      (mqtt.outstanding net') := by
  induction h with
  | done =>
    intro sent acks net net' hrun hd
    cases hrun
    simpa [requests, receivedAcks] using hd
  | note h ih =>
    intro sent acks net net' hrun hd
    obtain ⟨mid, hstep, hrest⟩ := Protocol.run_cons_eq_some.mp hrun
    exact ih hrest (hd.server (Protocol.outstanding_server hstep (BrokerStep.byServer_step _)))
  | @received w d' evs asks h ih =>
    intro sent acks net net' hrun hd
    obtain ⟨mid, hstep, hrest⟩ := Protocol.run_cons_eq_some.mp hrun
    have hnext := ih hrest (hd.received (Protocol.outstanding_deliver hstep))
    rwa [List.append_assoc, ← receivedAcks_cons] at hnext
  | called h ih =>
    intro sent acks net net' hrun hd
    exact ih hrun hd
  | @answered bytes d' evs asks h ih =>
    intro sent acks net net' hrun hd
    obtain ⟨mid, hstep, hrest⟩ := Protocol.run_cons_eq_some.mp hrun
    have hreplied := hd.replied
    rw [← outstanding_sent hstep] at hreplied
    have hnext := ih hrest hreplied
    rwa [List.append_assoc, ← requests_cons] at hnext
  | @pinged d' evs asks h ih =>
    intro sent acks net net' hrun hd
    obtain ⟨mid, hstep, hrest⟩ := Protocol.run_cons_eq_some.mp hrun
    have hpost := outstanding_sent hstep
    rw [answerTo_pingBytes, Option.toList_none, List.append_nil] at hpost
    rw [← hpost] at hd
    have hnext := ih hrest hd
    rwa [sentPackets_cons_sent, requests_cons, requests_none answerTo_pingBytes]
  | @asked bytes d' evs asks h ih =>
    intro sent acks net net' hrun hd
    obtain ⟨mid, hstep, hrest⟩ := Protocol.run_cons_eq_some.mp hrun
    have hrequested := hd.requested
    rw [← outstanding_sent hstep] at hrequested
    have hnext := ih hrest hrequested
    rwa [List.append_assoc, ← requests_cons] at hnext

end MqttEmbedded
