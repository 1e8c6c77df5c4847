import MqttEmbedded.ClientC.TwoPlatforms
import MqttEmbedded.ClientCpp.TwoPlatforms
import MqttEmbedded.ClientCpp.Termination
import MqttEmbedded.Linux.Segments

/-!
# The clients on Linux

Both clients on the platform code of the repository. On a system whose clock moves on any
calls return, and how the network cuts the bytes makes no difference, to the C++ client only
while the pieces are not too short.
-/

namespace MqttEmbedded.Linux

open Hoare

variable {ω ν σ H α : Type}

/-- Pieces of 12 bytes. -/
def twelve (pos : Unit) : ℕ × Unit := (11, pos)

theorem silentPeer_ticks : (silentPeer.os twelve).Ticks (fun w => w.1.state) 1 where
  tells :=
    { takes := fun w => Nat.lt_succ_self w.1.state
      normal := by
        intro w
        change 0 ≤ ((w.1.state % 1000000 : ℕ) : ℤ) ∧ ((w.1.state % 1000000 : ℕ) : ℤ) < 1000000
        omega
      after := by
        intro w
        change ((w.1.state / 1 : ℕ) : ℤ) ≤
          1000000 * ((w.1.state / 1000000 : ℕ) : ℤ) + ((w.1.state % 1000000 : ℕ) : ℤ)
        omega
      before := by
        intro w
        change 1000000 * ((w.1.state / 1000000 : ℕ) : ℤ) + ((w.1.state % 1000000 : ℕ) : ℤ) ≤
          (((w.1.state + 1) / 1 : ℕ) : ℤ)
        omega }
  recv := by
    intro len timeout w
    change w.1.state ≤ (silentPeer.recv twelve len timeout w).2.1.state
    unfold Peer.recv
    split_ifs
    · exact Nat.le_add_right _ _
    · exact le_rfl
  write := fun _ _ _ _ => le_rfl
  invoke := fun _ _ _ => le_rfl

/-- A PUBLISH of quality 0 for the topic "a" is on its way, with 40 bytes of payload. -/
def onePublish : Incoming ℕ := ⟨[0x30, 43, 0, 1, 97] ++ List.replicate 40 7, 0⟩

def silentClient : MQTTClient Timeval Unit where
  nextPacketid := 1
  commandTimeoutMs := 30
  buf := List.replicate 100 0
  readbuf := List.replicate 100 0
  keepAliveInterval := 60
  pingOutstanding := false
  isconnected := true
  cleansession := true
  messageHandlers := []
  defaultMessageHandler := some ()
  lastSent := ⟨60, 0⟩
  lastReceived := ⟨60, 0⟩

/-- The C client on this system. -/
def silentSession : ClientC.Client (Incoming ℕ × Unit) Timeval Unit :=
  ⟨silentClient, (), onePublish, ()⟩

def silentExtras : ClientCpp.Extras Timeval where
  pubbuf := List.replicate 100 0
  inflightLen := 0
  inflightMsgid := 0
  inflightQoS := 0
  pubrel := false
  incomingQoS2messages := List.replicate ClientCpp.maxIncomingQoS2Messages 0
  pingSent := ⟨0, 0⟩
  history := []

/-- The C++ client on this system. -/
def silentSessionCpp : ClientCpp.Client (Incoming ℕ × Unit) Timeval Unit :=
  ⟨silentClient, silentExtras, onePublish, ()⟩

section Returns

variable {os : Os ω H} {clock : ω → ℕ} {rate : ℕ}

/-- Whatever the network and the peer do, the calls of the C client return. -/
theorem performCalls_returns_onLinux (ticks : os.Ticks clock rate) (hrate : 0 < rate)
    (calls : List (ClientC.Call H)) (s : ClientC.Client ω Timeval H) :
    ∃ result, (∀ t, result ≠ .error .outOfFuel t) ∧
      ∀ fuel, (∀ ms ∈ ClientC.longestWaits s.client calls, 1000 * rate * ms < fuel) →
        ClientC.performCalls (linuxPlatform os) fuel calls s = result := by
  have hticking := linuxPlatform_ticking ticks hrate
  apply Approximates.settles fun h => ClientC.performCalls_approximates h calls
  · exact exists_fuel (1000 * rate) (ClientC.longestWaits s.client calls)
  · intro fuel hfuel
    exact ClientC.performCalls_finishes_longest hticking hfuel s ⟨Nat.zero_le _, le_rfl⟩

/-- Waiting for packets and then disconnecting. -/
theorem performCalls_returns_onLinux_silent :
    ∃ result, (∀ t, result ≠ .error .outOfFuel t) ∧
      ∀ fuel, (∀ ms ∈ ClientC.longestWaits silentSession.client [.yield 50, .disconnect],
          1000 * 1 * ms < fuel) →
        ClientC.performCalls (linuxPlatform (silentPeer.os twelve)) fuel
          [.yield 50, .disconnect] silentSession = result :=
  performCalls_returns_onLinux silentPeer_ticks Nat.one_pos _ _

/-- So do those of the C++ client. -/
theorem runCalls_returns_onLinux (ticks : os.Ticks clock rate) (hrate : 0 < rate)
    (stale : Timeval) (calls : List (ClientCpp.Call H)) (s : ClientCpp.Client ω Timeval H) :
    ∃ result, (∀ t, result ≠ .error .outOfFuel t) ∧
      ∀ fuel, (∀ ms ∈ ClientCpp.longestWaits s.client calls, 1000 * rate * ms < fuel) →
        ClientCpp.runCalls (linuxPlatformCpp os stale) fuel calls s = result := by
  have hticking := linuxPlatformCpp_ticking ticks hrate stale
  apply Approximates.settles fun h => ClientCpp.runCalls_approximates h calls
  · exact exists_fuel (1000 * rate) (ClientCpp.longestWaits s.client calls)
  · intro fuel hfuel
    exact ClientCpp.runCalls_finishes_longest hticking hfuel s ⟨Nat.zero_le _, le_rfl⟩

/-- Connecting and then waiting for packets. -/
theorem runCalls_returns_onLinux_silent :
    ∃ result, (∀ t, result ≠ .error .outOfFuel t) ∧
      ∀ fuel, (∀ ms ∈ ClientCpp.longestWaits silentSessionCpp.client [.connect none, .yield 50],
          1000 * 1 * ms < fuel) →
        ClientCpp.runCalls (linuxPlatformCpp (silentPeer.os twelve) ⟨0, 0⟩) fuel
          [.connect none, .yield 50] silentSessionCpp = result :=
  runCalls_returns_onLinux silentPeer_ticks Nat.one_pos _ _ _

end Returns

theorem linuxPlatform_alike (peer : Peer ν H) (cut : σ → ℕ × σ) :
    (linuxPlatform (peer.os cut)).Alike peer.platform fun w i => i = w.1 where
  mqttwrite := by rintro _ _ _ w _ rfl; exact ⟨rfl, rfl⟩
  timerInit := by rintro w _ rfl; exact ⟨rfl, rfl⟩
  timerIsExpired := by rintro _ w _ rfl; exact ⟨rfl, rfl⟩
  timerCountdownMS := by rintro _ _ w _ rfl; exact ⟨rfl, rfl⟩
  timerCountdown := by rintro _ _ w _ rfl; exact ⟨rfl, rfl⟩
  timerLeftMS := by rintro _ w _ rfl; exact ⟨rfl, rfl⟩
  invoke := by rintro _ _ w _ rfl; rfl

theorem linuxPlatform_readAlike {size : ℕ} (peer : Peer ν H) (cut : σ → ℕ × σ) :
    (linuxPlatform (peer.os cut)).ReadAlike peer.platform (fun w i => i = w.1) size := by
  rintro len timeoutMs - w _ rfl
  obtain ⟨hanswer, hworld⟩ : (linuxRead (peer.os cut) len timeoutMs w).1 = _ ∧ _ :=
    linuxRead_fill timeoutMs w
  exact ⟨hanswer.symm, hworld.symm⟩

theorem linuxPlatformCpp_alike (peer : Peer ν H) (cut : σ → ℕ × σ) (stale : Timeval) :
    (linuxPlatformCpp (peer.os cut) stale).Alike (peer.platformCpp stale) fun w i => i = w.1 where
  mqttwrite := by rintro _ _ _ w _ rfl; exact ⟨rfl, rfl⟩
  timerInit := by rintro w _ rfl; exact ⟨rfl, rfl⟩
  timerIsExpired := by rintro _ w _ rfl; exact ⟨rfl, rfl⟩
  timerCountdownMS := by rintro _ _ w _ rfl; exact ⟨rfl, rfl⟩
  timerCountdown := by rintro _ _ w _ rfl; exact ⟨rfl, rfl⟩
  timerLeftMS := by rintro _ w _ rfl; exact ⟨rfl, rfl⟩
  invoke := by rintro _ _ w _ rfl; rfl

/-- Forget how the bytes are cut. -/
def uncut {χ : Type} (s : Session χ (Incoming ν × σ) Timeval H) :
    Session χ (Incoming ν) Timeval H :=
  ⟨s.client, s.own, s.world.1⟩

theorem Together.eq_uncut {χ : Type} {size : ℕ} {s : Session χ (Incoming ν × σ) Timeval H}
    {t : Session χ (Incoming ν) Timeval H} (h : Together (fun w i => i = w.1) size s t) :
    t = uncut s := by
  obtain ⟨client, own, world⟩ := t
  obtain ⟨rfl, rfl, rfl, -⟩ := h
  rfl

/-- Programs that run in parallel with and without pieces end so. -/
theorem Parallel.endAlike_uncut {χ : Type} {s : Session χ (Incoming ν × σ) Timeval H}
    {x : Prog (Session χ (Incoming ν × σ) Timeval H) α}
    {y : Prog (Session χ (Incoming ν) Timeval H) α}
    (h : Parallel (fun w i => i = w.1) s.client.readbuf.length x y) :
    EndAlike (fun _ t t' => t' = uncut t) (fun t t' => t' = uncut t) (x s) (y (uncut s)) :=
  (h s (uncut s) ⟨rfl, rfl, rfl, rfl⟩).imp (fun _ _ _ => Together.eq_uncut)
    fun _ _ => Together.eq_uncut

theorem performCalls_uncut (peer : Peer ν H) (cut : σ → ℕ × σ) (fuel size : ℕ)
    (calls : List (ClientC.Call H)) :
    Parallel (fun w i => i = w.1) size
      (ClientC.performCalls (linuxPlatform (peer.os cut)) fuel calls)
      (ClientC.performCalls peer.platform fuel calls) :=
  ClientC.performCalls_parallel (linuxPlatform_alike peer cut)
    (readPacketWith_parallel (linuxPlatform_readAlike peer cut) (linuxPlatform_alike peer cut)
      ClientC.tooLong 0) fuel calls

theorem performCallsCpp_uncut (peer : Peer ν H) (cut : σ → ℕ × σ) (stale : Timeval)
    (fuel : ℕ) {size : ℕ} (calls : List (ClientCpp.Call H))
    (hpieces : ∀ pos, size ≤ covers cut 9 pos) :
    Parallel (fun w i => i = w.1) size
      (ClientCpp.performCalls (linuxPlatformCpp (peer.os cut) stale) fuel calls)
      (ClientCpp.performCalls (peer.platformCpp stale) fuel calls) := by
  have hreads : (linuxPlatformCpp (peer.os cut) stale).ReadAlike (peer.platformCpp stale)
      (fun w i => i = w.1) size := by
    rintro len timeoutMs hlen w _ rfl
    obtain ⟨hanswer, hworld⟩ : (IPStack.read (peer.os cut) len timeoutMs w).1 = _ ∧ _ :=
      ipStackRead_fill hpieces hlen stale timeoutMs w
    exact ⟨hanswer.symm, hworld.symm⟩
  exact ClientCpp.performCalls_parallel (linuxPlatformCpp_alike peer cut stale)
    (readPacketWith_parallel hreads (linuxPlatformCpp_alike peer cut stale) ClientCpp.tooLong 1)
    fuel calls

/-- However the network cuts the bytes that come in: any calls of the C client end as if every
read brought what it asks for in one piece. -/
theorem performCalls_inPieces (peer : Peer ν H) (cut : σ → ℕ × σ) (fuel : ℕ)
    (calls : List (ClientC.Call H)) (s : ClientC.Client (Incoming ν × σ) Timeval H) :
    EndAlike (fun _ t t' => t' = uncut t) (fun t t' => t' = uncut t)
      (ClientC.performCalls (linuxPlatform (peer.os cut)) fuel calls s)
      (ClientC.performCalls peer.platform fuel calls (uncut s)) :=
  Parallel.endAlike_uncut (performCalls_uncut peer cut fuel _ calls)

/-- So do the calls of the C++ client, if nine pieces in a row are always enough for its
receive buffer. -/
theorem performCalls_inLongPieces (peer : Peer ν H) (cut : σ → ℕ × σ) (stale : Timeval) (fuel : ℕ)
    (calls : List (ClientCpp.Call H)) (s : ClientCpp.Client (Incoming ν × σ) Timeval H)
    (hpieces : ∀ pos, s.client.readbuf.length ≤ covers cut 9 pos) :
    EndAlike (fun _ t t' => t' = uncut t) (fun t t' => t' = uncut t)
      (ClientCpp.performCalls (linuxPlatformCpp (peer.os cut) stale) fuel calls s)
      (ClientCpp.performCalls (peer.platformCpp stale) fuel calls (uncut s)) :=
  Parallel.endAlike_uncut (performCallsCpp_uncut peer cut stale fuel calls hpieces)

theorem silentSessionCpp_twelve : ∃ rcs t,
    ClientCpp.performCalls (linuxPlatformCpp (silentPeer.os twelve) ⟨0, 0⟩) 20 [.yield 50]
        silentSessionCpp = .ok rcs t ∧
      rcs = [success] ∧ ClientCpp.Occurrence.delivered 0 none ∈ t.own.history :=
  wp_total (by decide +kernel)

theorem performCalls_inLongPieces_twelve : ∃ rcs t,
    ClientCpp.performCalls (linuxPlatformCpp (silentPeer.os twelve) ⟨0, 0⟩) 20 [.yield 50]
        silentSessionCpp = .ok rcs t ∧
      ClientCpp.performCalls (silentPeer.platformCpp ⟨0, 0⟩) 20 [.yield 50]
        (uncut silentSessionCpp) = .ok rcs (uncut t) ∧
      rcs = [success] ∧ ClientCpp.Occurrence.delivered 0 none ∈ t.own.history := by
  obtain ⟨rcs, t, hrun, hrcs, hdelivered⟩ := silentSessionCpp_twelve
  have hcovers : ∀ pos, silentSessionCpp.client.readbuf.length ≤ covers twelve 9 pos := by decide
  obtain ⟨_, hwhole, rfl⟩ := (performCalls_inLongPieces silentPeer twelve ⟨0, 0⟩ 20 [.yield 50]
    silentSessionCpp hcovers).value hrun
  exact ⟨rcs, t, hrun, hwhole, hrcs, hdelivered⟩

end MqttEmbedded.Linux
