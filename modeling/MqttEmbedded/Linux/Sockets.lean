import MqttEmbedded.Linux.Timers

/-!
# The sockets on Linux

`linux_read` and `linux_write` of `MQTTLinux.c`, and `read` and `write` of the `IPStack` in
`linux.cpp`, on what the system calls answer. Both read in a loop over `recv`; they part where
the peer has closed the connection, and one of them gives up after ten calls.
-/

namespace MqttEmbedded.Linux

/-- The answer of `recv` to a request for `len` bytes; no byte means that the peer has closed
the connection, and the errors are told by `errno`. -/
inductive Received (len : ℕ) where
  | bytes (data : List UInt8) (fits : data.length ≤ len)
  /-- `EAGAIN` or `EWOULDBLOCK`: nothing has come within the timeout. -/
  | again
  | failed

/-- The system calls, on a connected socket, and the handlers of the application. -/
structure Os (ω H : Type) where
  gettimeofday : ω → Timeval × ω
  recv : (len : ℕ) → (timeout : Timeval) → ω → Received len × ω
  /-- `bytes` is what can be read of the `len` bytes. -/
  write : (bytes : List UInt8) → (len : ℕ) → (timeout : Timeval) → ω → ℤ × ω
  invoke : H → MessageData → ω → ω

/-- What has been stored of `len` bytes. -/
@[ext] structure Filled (len : ℕ) where
  data : List UInt8
  fits : data.length ≤ len

namespace Filled

variable {len : ℕ}

def empty (len : ℕ) : Filled len := ⟨[], Nat.zero_le len⟩

/-- How many more there is room for. -/
def room (f : Filled len) : ℕ := len - f.data.length

theorem length_lt_iff (f : Filled len) : f.data.length < len ↔ 0 < f.room := by
  unfold room
  omega

def add (f : Filled len) (data : List UInt8) (h : data.length ≤ f.room) : Filled len where
  data := f.data ++ data
  fits := by
    have := f.fits
    unfold room at h
    rw [List.length_append]
    omega

theorem room_add (f : Filled len) (data : List UInt8) (h : data.length ≤ f.room) :
    (f.add data h).room = f.room - data.length := by
  simp only [room, add, List.length_append]
  omega

/-- The number of bytes is returned. -/
def delivery (f : Filled len) : Delivery len := .arrived f.data f.fits

/-- Something else is returned, and the bytes stay stored. -/
def instead (f : Filled len) (rc : ℤ) (h : rc ≤ 0) : Delivery len :=
  ⟨rc, f.data, f.fits, fun hpos => absurd hpos h.not_gt⟩

end Filled

/-- The timeout that `SO_RCVTIMEO` is set to. -/
def rcvTimeout (timeoutMs : ℤ) : Timeval :=
  if (ofMs timeoutMs).tvSec < 0 ∨ (ofMs timeoutMs).tvSec = 0 ∧ (ofMs timeoutMs).tvUsec ≤ 0 then
    ⟨0, 100⟩
  else ofMs timeoutMs

section

variable {ω H : Type} (os : Os ω H)

/-- The loop over `recv`, by the calls that it may still make; `closed` is what is returned
when the peer has closed the connection. -/
def recvLoop {len : ℕ} (closed : Filled len → Delivery len) (timeout : Timeval) :
    ℕ → Filled len → ω → Delivery len × ω
  | 0, f, w => (f.delivery, w)
  | calls + 1, f, w =>
    if f.data.length < len then
      match os.recv f.room timeout w with
      | (.bytes data h, w) =>
        if data = [] then (closed f, w) else recvLoop closed timeout calls (f.add data h) w
      | (.again, w) => (f.delivery, w)
      | (.failed, w) => (f.instead (-1) Delivery.error_nonpos, w)
    else (f.delivery, w)

/-- Every call brings a byte or is the last, so there are no more than `len`. -/
def linuxRead (len : ℕ) (timeoutMs : ℤ) : ω → Delivery len × ω :=
  recvLoop os (fun f => f.instead 0 Delivery.none_nonpos) (rcvTimeout timeoutMs) len (.empty len)

def IPStack.maxTries : ℕ := 10

def IPStack.read (len : ℕ) (timeoutMs : ℤ) : ω → Delivery len × ω :=
  recvLoop os Filled.delivery (rcvTimeout timeoutMs) maxTries (.empty len)

/-- `tv.tv_usec = timeout_ms * 1000`, an `int`; the seconds are left at 0. -/
def sndTimeout (timeoutMs : ℤ) : Timeval := ⟨0, toInt (timeoutMs * 1000)⟩

def linuxWrite (buffer : List UInt8) (len : ℕ) (timeoutMs : ℤ) : ω → ℤ × ω :=
  os.write (buffer.take len) len (sndTimeout timeoutMs)

def IPStack.write (buffer : List UInt8) (len : ℕ) (timeoutMs : ℤ) : ω → ℤ × ω :=
  os.write (buffer.take len) len (sndTimeout timeoutMs)

/-- What the C client runs on. -/
def linuxPlatform : Platform ω Timeval H where
  mqttread := linuxRead os
  mqttwrite := linuxWrite os
  timerInit := timerInit
  timerIsExpired := timerIsExpired os.gettimeofday
  timerCountdownMS := fun _ => timerCountdownMS os.gettimeofday
  timerCountdown := fun _ => timerCountdown os.gettimeofday
  timerLeftMS := timerLeftMS os.gettimeofday
  invoke := os.invoke

/-- What the C++ client runs on; the constructor of a `Countdown` leaves in it what is there. -/
def linuxPlatformCpp (stale : Timeval) : Platform ω Timeval H where
  mqttread := IPStack.read os
  mqttwrite := IPStack.write os
  timerInit := fun w => (stale, w)
  timerIsExpired := Countdown.expired os.gettimeofday
  timerCountdownMS := fun _ => Countdown.countdownMs os.gettimeofday
  timerCountdown := fun _ => Countdown.countdown os.gettimeofday
  timerLeftMS := Countdown.leftMs os.gettimeofday
  invoke := os.invoke

end

/-- The clock moves on while it is asked, and nothing else turns it back. -/
structure Os.Ticks {ω H : Type} (os : Os ω H) (clock : ω → ℕ) (rate : ℕ) : Prop where
  tells : Tells os.gettimeofday clock rate
  recv : ∀ len timeout w, clock w ≤ clock (os.recv len timeout w).2
  write : ∀ bytes len timeout w, clock w ≤ clock (os.write bytes len timeout w).2
  invoke : ∀ fp md w, clock w ≤ clock (os.invoke fp md w)

section Ticks

variable {ω H : Type} {os : Os ω H} {clock : ω → ℕ} {rate : ℕ} (ticks : os.Ticks clock rate)
include ticks

theorem recvLoop_clock {len : ℕ} (closed : Filled len → Delivery len) (timeout : Timeval)
    (calls : ℕ) (f : Filled len) (w : ω) :
    clock w ≤ clock (recvLoop os closed timeout calls f w).2 := by
  induction calls generalizing f w with
  | zero => exact le_rfl
  | succ calls ih =>
    have hrecv := ticks.recv f.room timeout w
    rw [recvLoop]
    split_ifs
    · generalize os.recv f.room timeout w = answer at hrecv
      obtain ⟨received, w'⟩ := answer
      cases received with
      | bytes data h =>
        dsimp only
        split_ifs
        · exact hrecv
        · exact hrecv.trans (ih _ _)
      | again => exact hrecv
      | failed => exact hrecv
    · exact le_rfl

theorem linuxPlatform_ticking (hrate : 0 < rate) :
    Ticking (linuxPlatform os) clock (deadline rate) (1000 * rate) where
  mqttread := fun _ _ w => recvLoop_clock ticks _ _ _ _ w
  mqttwrite := fun _ _ _ w => ticks.write _ _ _ w
  timerInit := fun _ => le_rfl
  timerIsExpired := fun _ w => ticks.tells.takes w
  timerCountdownMS := fun _ _ w => (ticks.tells.takes w).le
  timerCountdown := fun _ _ w => (ticks.tells.takes w).le
  timerLeftMS := fun _ w => (ticks.tells.takes w).le
  invoke := ticks.invoke
  unexpired := fun _ _ => timerIsExpired_unexpired ticks.tells hrate
  deadlineMS := by
    intro _ ms w
    apply countdownFor_deadline ticks.tells (short_ofMs _)
    have hle := Nat.mod_le ms (2 ^ 32)
    rw [micros_ofMs]
    omega

theorem linuxPlatformCpp_ticking (hrate : 0 < rate) (stale : Timeval) :
    Ticking (linuxPlatformCpp os stale) clock (deadline rate) (1000 * rate) where
  mqttread := fun _ _ w => recvLoop_clock ticks _ _ _ _ w
  mqttwrite := fun _ _ _ w => ticks.write _ _ _ w
  timerInit := fun _ => le_rfl
  timerIsExpired := fun _ w => ticks.tells.takes w
  timerCountdownMS := fun _ _ w => (ticks.tells.takes w).le
  timerCountdown := fun _ _ w => (ticks.tells.takes w).le
  timerLeftMS := fun _ w => (ticks.tells.takes w).le
  invoke := ticks.invoke
  unexpired := fun _ _ => timerIsExpired_unexpired ticks.tells hrate
  deadlineMS := by
    intro _ ms w
    apply countdownFor_deadline ticks.tells (short_ofMs _)
    have hle : toInt ms ≤ ms := toInt_le ms
    rw [micros_ofMs]
    omega

end Ticks

end MqttEmbedded.Linux
