import MqttEmbedded.Linux.Sockets

/-!
# The network cuts the bytes as it likes

A connection carries bytes, and `recv` returns them in pieces that nobody has promised. The
platform on which a read brings what is asked for in one piece stands for what the clients
rely on. The loop of `linux_read` makes up for any pieces; that of `IPStack::read` does while
nine pieces in a row are as long as the receive buffer.
-/

namespace MqttEmbedded.Linux

variable {ν σ H : Type}

/-- What `recv` meets when there are no more bytes. -/
inductive Pause where
  | again
  | closed
  | failed

/-- The bytes that come before the next pause, and the rest of the system. -/
structure Incoming (ν : Type) where
  pending : List UInt8
  state : ν

/-- The peer and the system clock: when the bytes pause and which come then, what becomes of
what is written, and which bytes come for it. -/
structure Peer (ν H : Type) where
  gettimeofday : ν → Timeval × ν
  pause : (timeout : Timeval) → ν → Pause × List UInt8 × ν
  write : (bytes : List UInt8) → (len : ℕ) → (timeout : Timeval) → ν → ℤ × List UInt8 × ν
  invoke : H → MessageData → ν → ν

namespace Peer

variable (peer : Peer ν H)

def time (i : Incoming ν) : Timeval × Incoming ν :=
  ((peer.gettimeofday i.state).1, { i with state := (peer.gettimeofday i.state).2 })

def send (bytes : List UInt8) (len : ℕ) (timeout : Timeval) (i : Incoming ν) :
    ℤ × Incoming ν :=
  let answer := peer.write bytes len timeout i.state
  (answer.1, ⟨i.pending ++ answer.2.1, answer.2.2⟩)

def call (fp : H) (md : MessageData) (i : Incoming ν) : Incoming ν :=
  { i with state := peer.invoke fp md i.state }

/-- Fill the rest in one piece, or up to the next pause. -/
def fill {len : ℕ} (closed : Filled len → Delivery len) (timeout : Timeval) (f : Filled len)
    (i : Incoming ν) : Delivery len × Incoming ν :=
  if h : i.pending.length < f.room then
    let all := f.add i.pending h.le
    match peer.pause timeout i.state with
    | (.again, more, state) => (all.delivery, ⟨more, state⟩)
    | (.closed, more, state) => (closed all, ⟨more, state⟩)
    | (.failed, more, state) => (all.instead (-1) Delivery.error_nonpos, ⟨more, state⟩)
  else
    ((f.add (i.pending.take f.room) (by simp)).delivery,
      { i with pending := i.pending.drop f.room })

/-- What the C client relies on. -/
def platform : Platform (Incoming ν) Timeval H where
  mqttread := fun len timeoutMs => peer.fill (fun f => f.instead 0 Delivery.none_nonpos)
    (rcvTimeout timeoutMs) (.empty len)
  mqttwrite := fun buffer len timeoutMs => peer.send (buffer.take len) len (sndTimeout timeoutMs)
  timerInit := timerInit
  timerIsExpired := timerIsExpired peer.time
  timerCountdownMS := fun _ => timerCountdownMS peer.time
  timerCountdown := fun _ => timerCountdown peer.time
  timerLeftMS := timerLeftMS peer.time
  invoke := peer.call

/-- What the C++ client relies on. -/
def platformCpp (stale : Timeval) : Platform (Incoming ν) Timeval H where
  mqttread := fun len timeoutMs => peer.fill Filled.delivery (rcvTimeout timeoutMs) (.empty len)
  mqttwrite := fun buffer len timeoutMs => peer.send (buffer.take len) len (sndTimeout timeoutMs)
  timerInit := fun i => (stale, i)
  timerIsExpired := Countdown.expired peer.time
  timerCountdownMS := fun _ => Countdown.countdownMs peer.time
  timerCountdown := fun _ => Countdown.countdown peer.time
  timerLeftMS := Countdown.leftMs peer.time
  invoke := peer.call

/-- The next piece has one byte more than `cut` says, unless there is no room for it or fewer
bytes are pending. -/
def recv (cut : σ → ℕ × σ) (len : ℕ) (timeout : Timeval) (w : Incoming ν × σ) :
    Received len × (Incoming ν × σ) :=
  if w.1.pending = [] then
    match peer.pause timeout w.1.state with
    | (.again, more, state) => (.again, ⟨more, state⟩, w.2)
    | (.closed, more, state) => (.bytes [] (Nat.zero_le _), ⟨more, state⟩, w.2)
    | (.failed, more, state) => (.failed, ⟨more, state⟩, w.2)
  else
    (.bytes (w.1.pending.take (min len ((cut w.2).1 + 1))) (by simp),
      { w.1 with pending := w.1.pending.drop (min len ((cut w.2).1 + 1)) }, (cut w.2).2)

/-- The system calls when the bytes are cut so. -/
def os (cut : σ → ℕ × σ) : Os (Incoming ν × σ) H where
  gettimeofday := fun w => ((peer.time w.1).1, (peer.time w.1).2, w.2)
  recv := peer.recv cut
  write := fun bytes len timeout w =>
    ((peer.send bytes len timeout w.1).1, (peer.send bytes len timeout w.1).2, w.2)
  invoke := fun fp md w => (peer.call fp md w.1, w.2)

end Peer

/-- The bytes that so many pieces in a row can bring. -/
def covers (cut : σ → ℕ × σ) : ℕ → σ → ℕ
  | 0, _ => 0
  | calls + 1, pos => (cut pos).1 + 1 + covers cut calls (cut pos).2

theorem le_covers (cut : σ → ℕ × σ) (calls : ℕ) (pos : σ) : calls ≤ covers cut calls pos := by
  induction calls generalizing pos with
  | zero => exact le_rfl
  | succ calls ih =>
    have hrest := ih (cut pos).2
    rw [covers]
    omega

theorem covers_succ_le (cut : σ → ℕ × σ) (calls : ℕ) (pos : σ) :
    covers cut calls pos ≤ covers cut (calls + 1) pos := by
  induction calls generalizing pos with
  | zero => exact Nat.zero_le _
  | succ calls ih =>
    rw [covers, covers]
    exact Nat.add_le_add_left (ih (cut pos).2) _

section Loop

variable {peer : Peer ν H} {cut : σ → ℕ × σ} {len : ℕ} {closed : Filled len → Delivery len}
  {timeout : Timeval} {f : Filled len} {i : Incoming ν} {pos : σ}

theorem fill_piece {count : ℕ} (hcount : count ≤ f.room)
    (hfits : (i.pending.take count).length ≤ f.room) :
    peer.fill closed timeout (f.add (i.pending.take count) hfits)
      { i with pending := i.pending.drop count } = peer.fill closed timeout f i := by
  have hroom := f.room_add _ hfits
  rw [List.length_take] at hroom
  unfold Peer.fill
  by_cases hshort : i.pending.length < f.room
  · have hshort' : (i.pending.drop count).length < (f.add (i.pending.take count) hfits).room := by
      rw [hroom, List.length_drop]
      omega
    have hall : (f.add (i.pending.take count) hfits).add (i.pending.drop count) hshort'.le =
        f.add i.pending hshort.le := by
      simp [Filled.add]
    simp only [dif_pos hshort, dif_pos hshort', hall]
  · have hshort' : ¬ (i.pending.drop count).length <
        (f.add (i.pending.take count) hfits).room := by
      rw [hroom, List.length_drop]
      omega
    have hroom' : (f.add (i.pending.take count) hfits).room = f.room - count := by omega
    have hadd : count + (f.room - count) = f.room := by omega
    have hdata : i.pending.take count ++ (i.pending.drop count).take (f.room - count) =
        i.pending.take f.room := by
      rw [← List.take_add, hadd]
    have hall (h : ((i.pending.drop count).take
        (f.add (i.pending.take count) hfits).room).length ≤ _) :
        (f.add (i.pending.take count) hfits).add ((i.pending.drop count).take
          (f.add (i.pending.take count) hfits).room) h =
        f.add (i.pending.take f.room) (by simp) := by
      apply Filled.ext
      change (f.data ++ i.pending.take count) ++ _ = f.data ++ _
      rw [hroom', List.append_assoc, hdata]
    rw [dif_neg hshort, dif_neg hshort', hall]
    simp only [hroom', List.drop_drop, hadd]

theorem fill_full (hroom : f.room = 0) : peer.fill closed timeout f i = (f.delivery, i) := by
  have hnot : ¬ i.pending.length < f.room := by omega
  have hall (h : (i.pending.take f.room).length ≤ f.room) :
      f.add (i.pending.take f.room) h = f := by
    apply Filled.ext
    change f.data ++ _ = f.data
    rw [hroom, List.take_zero, List.append_nil]
  unfold Peer.fill
  rw [dif_neg hnot, hall, hroom, List.drop_zero]

/-- The loop fills the rest as if there were no pieces, when its calls are enough for them. -/
theorem recvLoop_fill {calls : ℕ}
    (hall : f.room ≤ i.pending.length → f.room ≤ covers cut calls pos)
    (hpause : i.pending.length < f.room →
      ∃ calls', calls = calls' + 1 ∧ i.pending.length ≤ covers cut calls' pos) :
    (recvLoop (peer.os cut) closed timeout calls f (i, pos)).1 =
        (peer.fill closed timeout f i).1 ∧
      (recvLoop (peer.os cut) closed timeout calls f (i, pos)).2.1 =
        (peer.fill closed timeout f i).2 := by
  induction calls generalizing f i pos with
  | zero =>
    have hroom : f.room = 0 := by
      by_contra hne
      by_cases hshort : i.pending.length < f.room
      · obtain ⟨calls', h, -⟩ := hpause hshort
        exact absurd h (Nat.succ_ne_zero calls').symm
      · have := hall (by omega)
        rw [covers] at this
        omega
    rw [fill_full hroom]
    exact ⟨rfl, rfl⟩
  | succ calls ih =>
    have hlen := f.length_lt_iff
    rw [recvLoop]
    by_cases hroom : 0 < f.room
    · rw [if_pos (hlen.mpr hroom)]
      by_cases hnone : i.pending = []
      · have hpaused : i.pending.length < f.room := by simpa [hnone] using hroom
        have hadd (h : i.pending.length ≤ f.room) : f.add i.pending h = f := by
          apply Filled.ext
          change f.data ++ _ = f.data
          rw [hnone, List.append_nil]
        unfold Peer.fill
        rw [dif_pos hpaused]
        simp only [Peer.os, Peer.recv, if_pos hnone, hadd]
        generalize peer.pause timeout i.state = answer
        obtain ⟨pause, more, state⟩ := answer
        cases pause with
        | again => exact ⟨rfl, rfl⟩
        | closed => exact ⟨rfl, rfl⟩
        | failed => exact ⟨rfl, rfl⟩
      · have hpos : 0 < i.pending.length := List.length_pos_of_ne_nil hnone
        have hfits : (i.pending.take (min f.room ((cut pos).1 + 1))).length ≤ f.room := by simp
        have hsome : i.pending.take (min f.room ((cut pos).1 + 1)) ≠ [] := by
          rw [← List.length_pos_iff, List.length_take]
          omega
        have hroom' := f.room_add _ hfits
        rw [List.length_take] at hroom'
        simp only [Peer.os, Peer.recv, if_neg hnone, if_neg hsome]
        rw [← fill_piece (Nat.min_le_left _ _) hfits]
        apply ih
        · intro hle
          simp only [List.length_drop] at hle
          have hcovered := hall (by omega)
          rw [covers] at hcovered
          omega
        · intro hlt
          simp only [List.length_drop] at hlt ⊢
          obtain ⟨calls', hcalls, hcovered⟩ := hpause (by omega)
          obtain rfl : calls = calls' := Nat.succ.inj hcalls
          -- no byte could come without a further call
          cases calls with
          | zero =>
            rw [covers] at hcovered
            omega
          | succ calls =>
            rw [covers] at hcovered
            exact ⟨calls, rfl, by omega⟩
    · rw [if_neg (hlen.not.mpr hroom), fill_full (by omega)]
      exact ⟨rfl, rfl⟩

theorem linuxRead_fill (timeoutMs : ℤ) (w : Incoming ν × σ) :
    (linuxRead (peer.os cut) len timeoutMs w).1 = (peer.platform.mqttread len timeoutMs w.1).1 ∧
      (linuxRead (peer.os cut) len timeoutMs w).2.1 =
        (peer.platform.mqttread len timeoutMs w.1).2 := by
  apply recvLoop_fill
  · exact fun _ => le_covers cut len w.2
  · intro hlt
    change _ < len at hlt
    obtain ⟨calls, rfl⟩ : ∃ calls, len = calls + 1 := ⟨len - 1, by omega⟩
    exact ⟨calls, rfl, (Nat.le_of_lt_succ hlt).trans (le_covers cut calls w.2)⟩

theorem ipStackRead_fill {size : ℕ} (hpieces : ∀ pos, size ≤ covers cut 9 pos)
    (hlen : len ≤ max size 1) (stale : Timeval) (timeoutMs : ℤ) (w : Incoming ν × σ) :
    (IPStack.read (peer.os cut) len timeoutMs w).1 =
        ((peer.platformCpp stale).mqttread len timeoutMs w.1).1 ∧
      (IPStack.read (peer.os cut) len timeoutMs w).2.1 =
        ((peer.platformCpp stale).mqttread len timeoutMs w.1).2 := by
  have hcovered : len ≤ covers cut 9 w.2 :=
    hlen.trans (max_le (hpieces w.2) ((le_covers cut 9 w.2).trans' (by norm_num)))
  apply recvLoop_fill
  · exact fun _ => hcovered.trans (covers_succ_le cut 9 w.2)
  · exact fun hlt => ⟨9, rfl, hlt.le.trans hcovered⟩

theorem recvLoop_pending {calls : ℕ} (hpending : f.room ≤ i.pending.length) :
    (recvLoop (peer.os cut) closed timeout calls f (i, pos)).1.rc =
      f.data.length + min f.room (covers cut calls pos) := by
  induction calls generalizing f i pos with
  | zero => simp [recvLoop, covers, Filled.delivery, Delivery.arrived]
  | succ calls ih =>
    have hlen := f.length_lt_iff
    rw [recvLoop]
    by_cases hroom : 0 < f.room
    · have hnone : i.pending ≠ [] := by
        rw [← List.length_pos_iff]
        omega
      have hfits : (i.pending.take (min f.room ((cut pos).1 + 1))).length ≤ f.room := by simp
      have hsome : i.pending.take (min f.room ((cut pos).1 + 1)) ≠ [] := by
        rw [← List.length_pos_iff, List.length_take]
        omega
      have hroom' := f.room_add _ hfits
      rw [List.length_take] at hroom'
      simp only [if_pos (hlen.mpr hroom), Peer.os, Peer.recv, if_neg hnone, if_neg hsome]
      have hdata : (f.add _ hfits).data.length =
          f.data.length + min (min f.room ((cut pos).1 + 1)) i.pending.length := by
        simp [Filled.add]
      refine (ih (by simp only [List.length_drop]; omega)).trans ?_
      rw [covers, hroom', hdata]
      omega
    · rw [if_neg (hlen.not.mpr hroom)]
      have hzero : f.room = 0 := by omega
      simp [hzero, Filled.delivery, Delivery.arrived]

/-- All the bytes are there: `IPStack::read` brings them all exactly when ten pieces do. -/
theorem ipStackRead_complete_iff {timeoutMs : ℤ} (h : len ≤ i.pending.length) :
    (IPStack.read (peer.os cut) len timeoutMs (i, pos)).1.rc = len ↔
      len ≤ covers cut IPStack.maxTries pos := by
  have hrc : (IPStack.read (peer.os cut) len timeoutMs (i, pos)).1.rc =
      (0 : ℕ) + min len (covers cut IPStack.maxTries pos) := recvLoop_pending h
  rw [hrc]
  omega

end Loop

/-- A peer that sends nothing more; a pause takes as long as the timeout says. -/
def silentPeer : Peer ℕ Unit where
  gettimeofday := fun now => (⟨(now / 1000000 : ℕ), (now % 1000000 : ℕ)⟩, now + 1)
  pause := fun timeout now => (.again, [], now + timeout.micros.toNat)
  write := fun _ len _ now => (len, [], now)
  invoke := fun _ _ now => now

/-- Eleven bytes that come one by one are one too many. -/
theorem ipStackRead_complete_iff_eleven :
    (IPStack.read (silentPeer.os fun pos : Unit => (0, pos)) 11 1000
      (⟨List.replicate 11 7, 0⟩, ())).1.rc ≠ 11 :=
  fun h => absurd ((ipStackRead_complete_iff (by decide)).mp h) (by decide)

end MqttEmbedded.Linux
