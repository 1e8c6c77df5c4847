import MqttEmbedded.ClientC.Agreement
import MqttEmbedded.ClientCpp.InboundTraffic
import MqttEmbedded.Linux.Packets

/-!
# The clients and a peer that sends whole packets

On the sockets of Linux any calls end as in a network of whole packets, so what holds in every
such network holds there.
-/

namespace MqttEmbedded.Linux

open Hoare

variable {ν σ H β χ : Type} {size : ℕ} {peer : PacketPeer ν H β}

theorem alike_onState {α : Type} {rest : List UInt8} (f : ν → α × ν) :
    AnswersAlike (Carries (H := H) (β := β) size rest)
      (fun i => ((f i.state).1, { i with state := (f i.state).2 }))
      (fun w => ((f w.state.state).1,
        { w with state := { w.state with state := (f w.state.state).2 } })) := by
  rintro ⟨pending, state⟩ w ⟨hreading, hpending, rfl, hfits⟩
  exact ⟨rfl, hreading, hpending, rfl, hfits⟩

theorem carries_invoke {rest : List UInt8} (fp : H) (md : MessageData) (i : Incoming ν)
    (w : PacketWorld (Queue ν β) H β) (h : Carries size rest i w) :
    Carries size rest (peer.stream.call fp md i)
      { w with
        trace := w.trace ++ [.called fp md.content]
        state := { w.state with state := peer.invoke fp md w.state.state } } :=
  ⟨h.reading, h.pending, congrArg (peer.invoke fp md) h.state, h.fits⟩

theorem alike_send (fits : peer.Fits size) (base : Platform (Queue ν β) Timeval H)
    {rest : List UInt8} (buffer : List UInt8) (len : ℕ) (timeoutMs : ℤ) :
    AnswersAlike (Carries size rest)
      (peer.stream.send (buffer.take len) len (sndTimeout timeoutMs))
      (PacketWorld.mqttwrite (peer.env base) buffer len timeoutMs) := by
  rintro ⟨pending, state⟩ w ⟨hreading, hpending, rfl, hfits⟩
  refine ⟨rfl, hreading, ?_, rfl, fun parcel hparcel => ?_⟩
  · change pending ++ _ = rest ++ (w.state.parcels ++ _).flatMap Parcel.bytes
    change pending = _ at hpending
    rw [List.flatMap_append, hpending, List.append_assoc]
    rfl
  · rcases List.mem_append.mp hparcel with h | h
    · exact hfits parcel h
    · exact fits.offer _ _ _ parcel h

theorem serves_platform (fits : peer.Fits size) :
    peer.Serves peer.timers peer.stream.platform size where
  alike := fun _ =>
    { mqttwrite := alike_send fits peer.timers
      timerInit := alike_onState timerInit
      timerIsExpired := fun timer => alike_onState (timerIsExpired peer.gettimeofday timer)
      timerCountdownMS := fun _ ms => alike_onState (timerCountdownMS peer.gettimeofday ms)
      timerCountdown := fun _ seconds => alike_onState (timerCountdown peer.gettimeofday seconds)
      timerLeftMS := fun timer => alike_onState (timerLeftMS peer.gettimeofday timer)
      invoke := carries_invoke }
  mqttread := fun _ _ =>
    ⟨fun f => f.instead 0 Delivery.none_nonpos, rfl, fun _ => rfl⟩

theorem serves_platformCpp (fits : peer.Fits size) (stale : Timeval) :
    peer.Serves (peer.timersCpp stale) (peer.stream.platformCpp stale) size where
  alike := fun _ =>
    { mqttwrite := alike_send fits (peer.timersCpp stale)
      timerInit := alike_onState fun state => (stale, state)
      timerIsExpired := fun timer => alike_onState (Countdown.expired peer.gettimeofday timer)
      timerCountdownMS := fun _ ms => alike_onState (Countdown.countdownMs peer.gettimeofday ms)
      timerCountdown := fun _ seconds =>
        alike_onState (Countdown.countdown peer.gettimeofday seconds)
      timerLeftMS := fun timer => alike_onState (Countdown.leftMs peer.gettimeofday timer)
      invoke := carries_invoke }
  mqttread := fun _ _ => ⟨Filled.delivery, rfl, fun _ => rfl⟩

def promptPeer : PacketPeer ℕ Unit BrokerStep where
  gettimeofday := fun now => (⟨(now / 1000000 : ℕ), (now % 1000000 : ℕ)⟩, now + 1)
  pause := fun timeout now => (.again, [], [], now + timeout.micros.toNat)
  offer := fun bytes _ now =>
    match answerTo bytes with
    | none => (.taken, [], [], now)
    | some a =>
      let w := WirePacket.ofInbound (ClientC.answerPacket a) (ClientC.answerPacket_wellFormed a)
      (.taken, [], [⟨[.took bytes, .answered w], w⟩], now)
  invoke := fun _ _ now => now
  renew := id

/-- A PUBLISH of quality 0 for the topic "a", with 40 bytes of payload. -/
def oneParcel : Parcel BrokerStep :=
  ⟨[], .ofInbound (.publish false 0 false [97] 0 (List.replicate 40 7))
    ⟨by decide, by decide, by decide⟩⟩

/-- The C client, with these packets on their way. -/
def promptSession (parcels : List (Parcel BrokerStep)) :
    ClientC.Client (Incoming ℕ × Unit) Timeval Unit :=
  ⟨silentClient, (), ⟨parcels.flatMap Parcel.bytes, 0⟩, ()⟩

def promptSessionCpp (parcels : List (Parcel BrokerStep)) :
    ClientCpp.Client (Incoming ℕ × Unit) Timeval Unit :=
  ⟨silentClient, silentExtras, ⟨parcels.flatMap Parcel.bytes, 0⟩, ()⟩

theorem promptPeer_fits : promptPeer.Fits silentClient.readbuf.length where
  pause := fun _ _ _ h => absurd h List.not_mem_nil
  offer := by
    intro bytes timeout now parcel hparcel
    simp only [promptPeer] at hparcel
    cases ha : answerTo bytes with
    | none =>
      rw [ha] at hparcel
      exact absurd hparcel List.not_mem_nil
    | some a =>
      rw [ha] at hparcel
      obtain rfl := List.mem_singleton.mp hparcel
      cases a <;> exact Nat.le_of_ble_eq_true rfl

theorem oneParcel_fits :
    ∀ parcel ∈ [oneParcel], parcel.packet.frame.stored.length ≤ silentClient.readbuf.length := by
  decide

theorem twelve_covers : ∀ pos, silentClient.readbuf.length ≤ covers twelve 9 pos := by
  decide

def oneByOne (pos : Unit) : ℕ × Unit := (0, pos)

/-- Between two packets, with these on their way. -/
def inPackets (parcels : List (Parcel β)) (s : Session χ (Incoming ν × σ) Timeval H) :
    Session χ (PacketWorld (Queue ν β) H β) Timeval H :=
  ⟨s.client, s.own, .fresh ⟨parcels, s.world.1.state⟩⟩

/-- The runs have come to the same client, in the same place between two packets. -/
abbrev InStep (size : ℕ) (t : Session χ (Incoming ν × σ) Timeval H)
    (t' : Session χ (PacketWorld (Queue ν β) H β) Timeval H) : Prop :=
  Together (fun w => Carries size [] w.1) size t t'

section Runs

variable {parcels : List (Parcel β)}

/-- With the bytes cut and without, and packet by packet, the runs end in the same client. -/
theorem endAlike_packets {α : Type} {s : Session χ (Incoming ν × σ) Timeval H}
    {x : Prog (Session χ (Incoming ν × σ) Timeval H) α}
    {y : Prog (Session χ (Incoming ν) Timeval H) α}
    {z : Prog (Session χ (PacketWorld (Queue ν β) H β) Timeval H) α}
    (hpending : s.world.1.pending = parcels.flatMap Parcel.bytes)
    (hfits : ∀ parcel ∈ parcels, parcel.packet.frame.stored.length ≤ s.client.readbuf.length)
    (h : Parallel (fun w i => i = w.1) s.client.readbuf.length x y)
    (h' : Parallel (Carries s.client.readbuf.length []) s.client.readbuf.length y z) :
    EndAlike (fun _ => InStep s.client.readbuf.length) (InStep s.client.readbuf.length)
      (x s) (z (inPackets parcels s)) := by
  have htogether : Together (Carries s.client.readbuf.length []) s.client.readbuf.length
      (uncut s) (inPackets parcels s) := ⟨rfl, rfl, ⟨rfl, hpending, rfl, hfits⟩, rfl⟩
  apply ((Parallel.endAlike_uncut h).trans (h' _ _ htogether)).imp
  · rintro a t t'' ⟨_, rfl, ht⟩
    exact ⟨ht.client, ht.own, ht.world, ht.size⟩
  · rintro t t'' ⟨_, rfl, ht⟩
    exact ⟨ht.client, ht.own, ht.world, ht.size⟩

/-- Any calls of the C client end as in the network of packets. -/
theorem performCalls_inPackets (cut : σ → ℕ × σ) (fuel : ℕ) (calls : List (ClientC.Call H))
    {s : ClientC.Client (Incoming ν × σ) Timeval H} (fits : peer.Fits s.client.readbuf.length)
    (hpending : s.world.1.pending = parcels.flatMap Parcel.bytes)
    (hfits : ∀ parcel ∈ parcels, parcel.packet.frame.stored.length ≤ s.client.readbuf.length) :
    EndAlike (fun _ => InStep s.client.readbuf.length) (InStep s.client.readbuf.length)
      (ClientC.performCalls (linuxPlatform (peer.stream.os cut)) fuel calls s)
      (ClientC.performCalls (peer.env peer.timers).platform fuel calls (inPackets parcels s)) := by
  have hserves := serves_platform fits
  have huncut := performCalls_uncut peer.stream cut fuel s.client.readbuf.length calls
  apply endAlike_packets hpending hfits huncut
  apply ClientC.performCalls_parallel (hserves.alike [])
  exact fun _ => readPacketWith_packets hserves fits fun _ => ClientC.tooLong_stored

theorem performCalls_inPackets_prompt :
    EndAlike (fun _ => InStep silentClient.readbuf.length)
      (InStep silentClient.readbuf.length)
      (ClientC.performCalls (linuxPlatform (promptPeer.stream.os oneByOne)) 12 [.yield 50]
        (promptSession [oneParcel]))
      (ClientC.performCalls (promptPeer.env promptPeer.timers).platform 12 [.yield 50]
        (inPackets [oneParcel] (promptSession [oneParcel]))) :=
  performCalls_inPackets oneByOne 12 [.yield 50] (s := promptSession [oneParcel]) promptPeer_fits
    rfl oneParcel_fits

/-- So do those of the C++ client, while the pieces are not too short for it. -/
theorem performCalls_inLongPackets (cut : σ → ℕ × σ) (stale : Timeval) (fuel : ℕ)
    (calls : List (ClientCpp.Call H)) {s : ClientCpp.Client (Incoming ν × σ) Timeval H}
    (fits : peer.Fits s.client.readbuf.length)
    (hpieces : ∀ pos, s.client.readbuf.length ≤ covers cut 9 pos)
    (hpending : s.world.1.pending = parcels.flatMap Parcel.bytes)
    (hfits : ∀ parcel ∈ parcels, parcel.packet.frame.stored.length ≤ s.client.readbuf.length) :
    EndAlike (fun _ => InStep s.client.readbuf.length) (InStep s.client.readbuf.length)
      (ClientCpp.performCalls (linuxPlatformCpp (peer.stream.os cut) stale) fuel calls s)
      (ClientCpp.performCalls (peer.env (peer.timersCpp stale)).platform fuel calls
        (inPackets parcels s)) := by
  have hserves := serves_platformCpp fits stale
  have huncut := performCallsCpp_uncut peer.stream cut stale fuel calls hpieces
  apply endAlike_packets hpending hfits huncut
  apply ClientCpp.performCalls_parallel (hserves.alike [])
  exact fun _ => readPacketWith_packets hserves fits fun _ => ClientCpp.tooLong_stored

theorem promptSessionCpp_twelve : ∃ rcs t,
    ClientCpp.performCalls (linuxPlatformCpp (promptPeer.stream.os twelve) ⟨0, 0⟩) 20 [.yield 50]
        (promptSessionCpp [oneParcel]) = .ok rcs t ∧
      rcs = [success] ∧ ClientCpp.Occurrence.delivered 0 none ∈ t.own.history :=
  wp_total (by decide +kernel)

theorem performCalls_inLongPackets_twelve : ∃ rcs t t',
    ClientCpp.performCalls (linuxPlatformCpp (promptPeer.stream.os twelve) ⟨0, 0⟩) 20 [.yield 50]
        (promptSessionCpp [oneParcel]) = .ok rcs t ∧
      ClientCpp.performCalls (promptPeer.env (promptPeer.timersCpp ⟨0, 0⟩)).platform 20 [.yield 50]
        (inPackets [oneParcel] (promptSessionCpp [oneParcel])) = .ok rcs t' ∧
      InStep silentClient.readbuf.length t t' ∧
      rcs = [success] ∧ ClientCpp.Occurrence.delivered 0 none ∈ t.own.history := by
  obtain ⟨rcs, t, hrun, hrcs, hdelivered⟩ := promptSessionCpp_twelve
  obtain ⟨t', hwhole, hstep⟩ := (performCalls_inLongPackets twelve ⟨0, 0⟩ 20 [.yield 50]
    (s := promptSessionCpp [oneParcel]) promptPeer_fits twelve_covers rfl oneParcel_fits).value hrun
  exact ⟨rcs, t, t', hrun, hwhole, hstep, hrcs, hdelivered⟩

end Runs

/-- A new connection: what was on its way is gone. -/
def PacketPeer.reconnect (peer : PacketPeer ν H β) (i : Incoming ν) : Incoming ν :=
  ⟨[], peer.renew i.state⟩

/-- An application that replaces the connection when a call fails learns what it would learn in
the network of packets. -/
theorem converse_inPackets (cut : σ → ℕ × σ) (fuel : ℕ) (calls : List (ClientC.Call H))
    {parcels : List (Parcel β)} {s : ClientC.Client (Incoming ν × σ) Timeval H}
    (fits : peer.Fits s.client.readbuf.length)
    (hpending : s.world.1.pending = parcels.flatMap Parcel.bytes)
    (hfits : ∀ parcel ∈ parcels, parcel.packet.frame.stored.length ≤ s.client.readbuf.length) :
    EndAlike (fun _ => InStep s.client.readbuf.length) (InStep s.client.readbuf.length)
      (ClientC.converse (linuxPlatform (peer.stream.os cut)) (fun w => (peer.reconnect w.1, w.2))
        fuel calls s)
      (ClientC.converse (peer.env peer.timers).platform
        (PacketWorld.renew (peer.env peer.timers)) fuel calls (inPackets parcels s)) := by
  apply endAlike_packets hpending hfits
    (y := ClientC.converse peer.stream.platform peer.reconnect fuel calls)
  · apply ClientC.converse_parallel (linuxPlatform_alike peer.stream cut)
    · rintro w _ rfl
      rfl
    · exact readPacketWith_parallel (linuxPlatform_readAlike peer.stream cut)
        (linuxPlatform_alike peer.stream cut) ClientC.tooLong 0
  · apply ClientC.converse_parallel ((serves_platform fits).alike [])
    · rintro i w h
      exact ⟨rfl, rfl, congrArg peer.renew h.state, fun _ hnone => absurd hnone List.not_mem_nil⟩
    · exact fun _ =>
        readPacketWith_packets (serves_platform fits) fits fun _ => ClientC.tooLong_stored

theorem converse_eq_map (env : PacketEnv ν Timeval H β) (fuel : ℕ)
    (calls : List (ClientC.Call H)) :
    ClientC.converse env.platform (PacketWorld.renew env) fuel calls =
      (fun entries => entries.map ClientC.Entry.reply) <$> ClientC.runCalls env fuel calls := by
  induction calls with
  | nil => rfl
  | cons call calls ih =>
    funext s
    have hrenew (rc : ℤ) : ClientC.renewUnlessSuccess (H := H) (τ := Timeval)
        (PacketWorld.renew env) rc = ClientC.renewOnFailure env rc := rfl
    have hget (t : ClientC.Client (PacketWorld ν H β) Timeval H) :
        (get : Prog (ClientC.Client (PacketWorld ν H β) Timeval H) _) t = .ok t t := rfl
    simp only [ClientC.converse, ClientC.runCalls, ih, hrenew]
    simp only [Bind.bind, EStateM.bind, Functor.map, EStateM.map, hget]
    cases ClientC.perform env.platform fuel call s with
    | error e t => rfl
    | ok reply t =>
      dsimp only
      cases ClientC.renewOnFailure env reply.rc t with
      | error e u => rfl
      | ok a u =>
        dsimp only
        cases ClientC.runCalls env fuel calls u with
        | error e v => rfl
        | ok entries v => rfl

/-- However the bytes are cut: if the peer has been a conforming broker, what a publish that
succeeds says about it is so, and no acknowledgement is taken for that of another request. -/
theorem converse_agreed {peer : PacketPeer ν H BrokerStep} (cut : σ → ℕ × σ) (fuel : ℕ)
    {calls : List (ClientC.Call H)} {parcels : List (Parcel BrokerStep)}
    {s t : ClientC.Client (Incoming ν × σ) Timeval H} {replies : List ClientC.Reply}
    (hlegal : ∀ call ∈ calls, call.Legal) (fits : peer.Fits s.client.readbuf.length)
    (hpending : s.world.1.pending = parcels.flatMap Parcel.bytes)
    (hfits : ∀ parcel ∈ parcels, parcel.packet.frame.stored.length ≤ s.client.readbuf.length)
    (hrun : ClientC.converse (linuxPlatform (peer.stream.os cut))
      (fun w => (peer.reconnect w.1, w.2)) fuel calls s = .ok replies t) :
    ∃ entries u, ClientC.runCalls (peer.env peer.timers) fuel calls (inPackets parcels s) =
        .ok entries u ∧ entries.map ClientC.Entry.reply = replies ∧ u.client = t.client ∧
      u.world.state.state = t.world.1.state ∧
      (Conforms u.world.trace → ∀ e ∈ entries, e.Agreed) := by
  have hends := converse_inPackets cut fuel calls fits hpending hfits
  rw [hrun, converse_eq_map] at hends
  cases hruns : ClientC.runCalls (peer.env peer.timers) fuel calls (inPackets parcels s) with
  | error e u =>
    simp only [Functor.map, EStateM.map, hruns] at hends
    cases hends
  | ok entries u =>
    simp only [Functor.map, EStateM.map, hruns] at hends
    obtain ⟨hwhole, hentries⟩ := wp_result (ClientC.runCalls_conduct fuel hlegal rfl) hruns
    change u.world.trace = [] ++ _ at hwhole
    generalize hreplies : entries.map ClientC.Entry.reply = replies' at hends
    cases hends with
    | ok htogether =>
      refine ⟨entries, u, rfl, hreplies, htogether.client, htogether.world.state.symm,
        fun hbroker => ?_⟩
      rw [Conforms, hwhole, List.nil_append] at hbroker
      obtain ⟨net, hnet⟩ := Option.isSome_iff_exists.mp hbroker
      refine ClientC.agreed_of_run (fun e he => ?_) rfl hnet
      obtain ⟨hcall, hconducted⟩ := hentries e he
      exact ⟨hlegal _ hcall, hconducted⟩

/-- Publish at quality 1, then at quality 2. -/
def promptCalls : List (ClientC.Call Unit) := [ClientC.publishByte 1, ClientC.publishByte 2]

theorem promptCalls_legal : ∀ call ∈ promptCalls, call.Legal := by
  intro call hcall
  rcases List.mem_pair.mp hcall with rfl | rfl
  · exact ⟨by decide, by decide, by decide, by decide⟩
  · exact ⟨by decide, by decide, by decide, by decide⟩

theorem promptPeer_conforms : ∃ entries u,
    ClientC.runCalls (promptPeer.env promptPeer.timers) 12 promptCalls
      (inPackets [] (promptSession [])) = .ok entries u ∧ Conforms u.world.trace :=
  wp_total (by decide +kernel)

theorem promptPeer_replies : ∃ replies t,
    ClientC.converse (linuxPlatform (promptPeer.stream.os oneByOne))
        (fun w => (promptPeer.reconnect w.1, w.2)) 12 promptCalls (promptSession []) =
          .ok replies t ∧
      replies = [⟨success, some 2⟩, ⟨success, some 3⟩] :=
  wp_total (by decide +kernel)

theorem converse_agreed_prompt :
    ∃ entries u, ClientC.runCalls (promptPeer.env promptPeer.timers) 12 promptCalls
        (inPackets [] (promptSession [])) = .ok entries u ∧
      entries.map ClientC.Entry.reply = [⟨success, some 2⟩, ⟨success, some 3⟩] ∧
      ∀ e ∈ entries, e.Agreed := by
  obtain ⟨replies, t, hrun, hreplies⟩ := promptPeer_replies
  obtain ⟨entries, u, hruns, hmap, -, -, hagreed⟩ :=
    converse_agreed oneByOne 12 promptCalls_legal promptPeer_fits rfl
      (fun _ hnone => absurd hnone List.not_mem_nil) hrun
  obtain ⟨entries', u', hruns', hbroker⟩ := promptPeer_conforms
  obtain ⟨rfl, rfl⟩ := EStateM.Result.ok.inj (hruns.symm.trans hruns')
  exact ⟨entries, u, hruns, hmap.trans hreplies, hagreed hbroker⟩

end MqttEmbedded.Linux
