import MqttEmbedded.ClientC.Requests

/-!
# The history of a client

An application makes one call after the other and replaces the connection when a
call does not succeed. The history keeps for each call the client it started
with, what was seen on the network meanwhile, and what it returned.
-/

namespace MqttEmbedded.ClientC

open Hoare

variable {ν τ H β : Type}

structure Entry (τ H β : Type) where
  client : MQTTClient τ H
  call : Call H
  events : List (Event H β)
  reply : Reply

namespace Entry

/-- What the trace of the run has of the call, and of the new connection after it. -/
def trace (e : Entry τ H β) : List (Event H β) :=
  e.events ++ if e.reply.rc = success then [] else [.renewed]

/-- How a call has been performed, in terms of what was seen of it. -/
structure Conducted (e : Entry τ H β) (id : UInt16) (asks : List (List UInt8)) (d : Duty H) :
    Prop where
  works : Works (handlersFor e.client) .idle e.events asks d
  settled : (∀ w, Event.received w ∈ e.events →
    w.frame.stored.length ≤ e.client.readbuf.length) → d.calls = []
  sends : asks <+: (e.call.packet id).toList
  complete : e.reply.rc = success → d = .idle ∧ asks = (e.call.packet id).toList ∧
    ∀ packetType ∈ e.call.awaited, LastReceived e.events packetType.code
  numbered : ∀ topicName message, e.call = .publish topicName message → 0 < message.qos →
    e.reply.rc = success → e.reply.id = some id

end Entry

section

variable (env : PacketEnv ν τ H β)

def renewOnFailure (rc : ℤ) : Prog (Client (PacketWorld ν H β) τ H) PUnit :=
  if rc = success then pure ⟨⟩ else modify fun s => { s with world := s.world.renew env }

def runCalls (fuel : ℕ) :
    List (Call H) → Prog (Client (PacketWorld ν H β) τ H) (List (Entry τ H β))
  | [] => pure []
  | call :: calls => do
    let before ← get
    let reply ← perform env.platform fuel call
    let after ← get
    renewOnFailure env reply.rc
    let later ← runCalls fuel calls
    let events := after.world.trace.drop before.world.trace.length
    pure (⟨before.client, call, events, reply⟩ :: later)

end

variable {env : PacketEnv ν τ H β} {s t : Client (PacketWorld ν H β) τ H}

theorem Performed.conducted {call : Call H} {reply : Reply} {id : UInt16}
    {asks : List (List UInt8)} {evs : List (Event H β)}
    (h : Performed call reply s t id asks evs) :
    ∃ d, (⟨s.client, call, evs, reply⟩ : Entry τ H β).Conducted id asks d := by
  obtain ⟨⟨⟨d, hdid⟩, hsettled⟩, hsends, hcomplete, hnumbered⟩ := h
  by_cases hrc : reply.rc = success
  · obtain ⟨hdid', -, hlast⟩ := hsettled hrc
    exact ⟨.idle, hdid'.works, fun _ => rfl, hsends, fun _ => ⟨rfl, hcomplete hrc, hlast⟩,
      hnumbered⟩
  · exact ⟨d, hdid.works, fun hfits => (hdid.settled hfits).1, hsends, fun h => absurd h hrc,
      hnumbered⟩

/-- The trace of a run is that of its calls, one after the other. -/
theorem runCalls_conduct (fuel : ℕ) : ∀ {calls : List (Call H)}
    {s : Client (PacketWorld ν H β) τ H}, (∀ call ∈ calls, call.Legal) → s.world.reading = [] →
    wp (runCalls env fuel calls)
      (fun entries t => t.world.trace = s.world.trace ++ entries.flatMap Entry.trace ∧
        ∀ e ∈ entries, e.call ∈ calls ∧ ∃ id asks d, e.Conducted id asks d)
      (fun _ _ => True) s
  | [], s, _, _ => ⟨by simp, by simp⟩
  | call :: calls, s, hlegal, hreading => by
    rw [runCalls]
    simp only [wp_bind, wp_get, wp_pure]
    apply wp_imp (perform_conduct fuel (hlegal call List.mem_cons_self) hreading)
    rintro reply t ⟨id, asks, evs, hperformed⟩
    have htrace : t.world.trace = s.world.trace ++ evs := hperformed.ends.did.choose_spec.trace
    have hevents : t.world.trace.drop s.world.trace.length = evs := by
      rw [htrace, List.drop_left]
    obtain ⟨d, hconducted⟩ := hperformed.conducted
    have hrenewed : wp (renewOnFailure env reply.rc)
        (fun _ u => u.world.reading = [] ∧ u.world.trace = s.world.trace ++
          (⟨s.client, call, evs, reply⟩ : Entry τ H β).trace) (fun _ _ => True) t := by
      unfold renewOnFailure Entry.trace
      rw [wp_ite, wp_pure, wp_modify]
      refine ⟨fun h => ⟨(hperformed.ends.settled h).2.1, ?_⟩, fun h => ⟨rfl, ?_⟩⟩
      · rw [if_pos h, List.append_nil, htrace]
      · change t.world.trace ++ [.renewed] = _
        rw [if_neg h, htrace, List.append_assoc]
    apply wp_imp hrenewed
    rintro _ u ⟨hreading', htrace'⟩
    have hlegal' : ∀ c ∈ calls, _ := fun c hc => hlegal c (List.mem_cons_of_mem _ hc)
    apply wp_imp (runCalls_conduct fuel hlegal' hreading')
    rintro later v ⟨htrace'', hlater⟩
    rw [hevents]
    refine ⟨?_, ?_⟩
    · rw [htrace'', htrace', List.flatMap_cons, List.append_assoc]
    · rintro e (_ | ⟨_, he⟩)
      · exact ⟨List.mem_cons_self, id, asks, d, hconducted⟩
      · obtain ⟨hmem, hrest⟩ := hlater e he
        exact ⟨List.mem_cons_of_mem _ hmem, hrest⟩

end MqttEmbedded.ClientC
