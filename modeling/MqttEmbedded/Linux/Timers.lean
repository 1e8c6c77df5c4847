import MqttEmbedded.Client.Termination

/-!
# The timers on Linux

`Timer` of `MQTTLinux.c` and `Countdown` of `linux.cpp`: the end of an interval on the clock
that `gettimeofday` tells. Their arithmetic is that of `timeradd` and `timersub` in
`<sys/time.h>`, on seconds and microseconds; here it is brought down to microseconds.
-/

namespace MqttEmbedded.Linux

/-- `struct timeval`. A `time_t` does not overflow. -/
structure Timeval where
  tvSec : ℤ
  tvUsec : ℤ
  deriving DecidableEq

def timeradd (a b : Timeval) : Timeval :=
  if 1000000 ≤ a.tvUsec + b.tvUsec then
    ⟨a.tvSec + b.tvSec + 1, a.tvUsec + b.tvUsec - 1000000⟩
  else ⟨a.tvSec + b.tvSec, a.tvUsec + b.tvUsec⟩

def timersub (a b : Timeval) : Timeval :=
  if a.tvUsec - b.tvUsec < 0 then
    ⟨a.tvSec - b.tvSec - 1, a.tvUsec - b.tvUsec + 1000000⟩
  else ⟨a.tvSec - b.tvSec, a.tvUsec - b.tvUsec⟩

namespace Timeval

def micros (t : Timeval) : ℤ := 1000000 * t.tvSec + t.tvUsec

/-- The microseconds are less than a second, forwards or backwards. -/
def Short (t : Timeval) : Prop := -1000000 < t.tvUsec ∧ t.tvUsec < 1000000

instance (t : Timeval) : Decidable t.Short := inferInstanceAs (Decidable (_ ∧ _))

/-- What `gettimeofday` tells. -/
def Normal (t : Timeval) : Prop := 0 ≤ t.tvUsec ∧ t.tvUsec < 1000000

theorem Normal.short {t : Timeval} (h : t.Normal) : t.Short := ⟨by have := h.1; omega, h.2⟩

end Timeval

open Timeval

@[simp] theorem micros_timeradd (a b : Timeval) :
    (timeradd a b).micros = a.micros + b.micros := by
  unfold timeradd micros
  split_ifs <;> dsimp only <;> omega

@[simp] theorem micros_timersub (a b : Timeval) :
    (timersub a b).micros = a.micros - b.micros := by
  unfold timersub micros
  split_ifs <;> dsimp only <;> omega

theorem short_timeradd {a b : Timeval} (ha : a.Normal) (hb : b.Short) : (timeradd a b).Short := by
  obtain ⟨hb, hb'⟩ := hb
  obtain ⟨ha, ha'⟩ := ha
  unfold timeradd Short
  split_ifs <;> dsimp only <;> omega

/-- `res.tv_sec < 0 || (res.tv_sec == 0 && res.tv_usec <= 0)` for what is left of the interval. -/
def passed (endTime now : Timeval) : Bool :=
  (timersub endTime now).tvSec < 0 ∨
    (timersub endTime now).tvSec = 0 ∧ (timersub endTime now).tvUsec ≤ 0

/-- The interval has passed when its end is no longer ahead. -/
theorem passed_iff {endTime now : Timeval} (hend : endTime.Short) (hnow : now.Normal) :
    passed endTime now = true ↔ endTime.micros ≤ now.micros := by
  obtain ⟨hend, hend'⟩ := hend
  obtain ⟨hnow, hnow'⟩ := hnow
  unfold passed timersub micros
  rw [decide_eq_true_eq]
  split_ifs <;> dsimp only <;> omega

/-- A `long` that is returned as an `int`. -/
def toInt (n : ℤ) : ℤ := n.bmod (2 ^ 32)

theorem toInt_le (n : ℕ) : toInt n ≤ n := by
  rw [toInt, Int.bmod_eq_emod]
  split_ifs <;> omega

/-- `(res.tv_sec < 0) ? 0 : res.tv_sec * 1000 + res.tv_usec / 1000`. -/
def leftMs (endTime now : Timeval) : ℤ :=
  if (timersub endTime now).tvSec < 0 then 0
  else toInt ((timersub endTime now).tvSec * 1000 + (timersub endTime now).tvUsec.tdiv 1000)

/-- An `int` of milliseconds, as both files split it up. -/
def ofMs (ms : ℤ) : Timeval := ⟨ms.tdiv 1000, ms.tmod 1000 * 1000⟩

def ofSeconds (seconds : ℤ) : Timeval := ⟨seconds, 0⟩

theorem micros_ofMs (ms : ℤ) : (ofMs ms).micros = 1000 * ms := by
  have hsplit := Int.tmod_add_mul_tdiv ms 1000
  unfold ofMs micros
  dsimp only
  omega

theorem short_ofMs (ms : ℤ) : (ofMs ms).Short := by
  have hupper := Int.tmod_lt_of_pos ms (show (0 : ℤ) < 1000 by norm_num)
  have hlower := Int.lt_tmod_of_pos ms (show (0 : ℤ) < 1000 by norm_num)
  unfold ofMs Short
  dsimp only
  omega

section Functions

variable {ω : Type} (gettimeofday : ω → Timeval × ω)

/-- `timeradd(&now, &interval, &end_time)`. -/
def countdownFor (interval : Timeval) (w : ω) : Timeval × ω :=
  (timeradd (gettimeofday w).1 interval, (gettimeofday w).2)

def timerInit (w : ω) : Timeval × ω := (⟨0, 0⟩, w)

def timerIsExpired (timer : Timeval) (w : ω) : Bool × ω :=
  (passed timer (gettimeofday w).1, (gettimeofday w).2)

/-- `timeout` is an `unsigned int`. -/
def timerCountdownMS (timeout : ℕ) (w : ω) : Timeval × ω :=
  countdownFor gettimeofday (ofMs (timeout % 2 ^ 32 : ℕ)) w

def timerCountdown (timeout : ℕ) (w : ω) : Timeval × ω :=
  countdownFor gettimeofday (ofSeconds (timeout % 2 ^ 32 : ℕ)) w

def timerLeftMS (timer : Timeval) (w : ω) : ℤ × ω :=
  (leftMs timer (gettimeofday w).1, (gettimeofday w).2)

/-- The class `Countdown` takes an `int` where `Timer` takes an `unsigned int`. -/
def Countdown.expired (timer : Timeval) (w : ω) : Bool × ω := timerIsExpired gettimeofday timer w

def Countdown.countdownMs (ms : ℕ) (w : ω) : Timeval × ω :=
  countdownFor gettimeofday (ofMs (toInt ms)) w

def Countdown.countdown (seconds : ℕ) (w : ω) : Timeval × ω :=
  countdownFor gettimeofday (ofSeconds (toInt seconds)) w

def Countdown.leftMs (timer : Timeval) (w : ω) : ℤ × ω := timerLeftMS gettimeofday timer w

end Functions

/-- `gettimeofday` tells the microseconds of a clock that has `rate` ticks in each, and to ask
it takes a tick at least. -/
structure Tells {ω : Type} (gettimeofday : ω → Timeval × ω) (clock : ω → ℕ) (rate : ℕ) : Prop where
  takes : ∀ w, clock w < clock (gettimeofday w).2
  normal : ∀ w, (gettimeofday w).1.Normal
  after : ∀ w, (clock w / rate : ℕ) ≤ (gettimeofday w).1.micros
  before : ∀ w, (gettimeofday w).1.micros ≤ (clock (gettimeofday w).2 / rate : ℕ)

/-- The tick before which a timer is not known to be expired. The microseconds of a timer that
has not been set may be anything. -/
def deadline (rate : ℕ) (timer : Timeval) : ℕ :=
  rate * (if timer.Short then timer.micros else 1000000 * (timer.tvSec + 1)).toNat

section Clock

variable {ω : Type} {gettimeofday : ω → Timeval × ω} {clock : ω → ℕ} {rate : ℕ}
  (tells : Tells gettimeofday clock rate)

theorem lt_of_not_passed {timer now : Timeval} (hnow : now.Normal)
    (h : passed timer now = false) :
    now.micros < if timer.Short then timer.micros else 1000000 * (timer.tvSec + 1) := by
  split_ifs with hshort
  · exact not_le.mp fun hle => Bool.false_ne_true (h.symm.trans ((passed_iff hshort hnow).mpr hle))
  · obtain ⟨-, hnow⟩ := hnow
    unfold passed timersub at h
    rw [decide_eq_false_iff_not, not_or] at h
    unfold micros
    split_ifs at h <;> dsimp only at h <;> omega

include tells

theorem timerIsExpired_unexpired (hrate : 0 < rate) {timer : Timeval} {w : ω}
    (h : (timerIsExpired gettimeofday timer w).1 = false) : clock w < deadline rate timer := by
  have hlt := lt_of_not_passed (tells.normal w) h
  have hafter := tells.after w
  have hticks : clock w / rate <
      (if timer.Short then timer.micros else 1000000 * (timer.tvSec + 1)).toNat := by omega
  exact (Nat.lt_mul_div_succ _ hrate).trans_le (Nat.mul_le_mul_left rate hticks)

theorem countdownFor_deadline {interval : Timeval} (hshort : interval.Short) {ms : ℕ}
    (hle : interval.micros ≤ 1000 * ms) (w : ω) :
    deadline rate (countdownFor gettimeofday interval w).1 ≤
      clock (countdownFor gettimeofday interval w).2 + 1000 * rate * ms := by
  have hbefore := tells.before w
  have hend : (timeradd (gettimeofday w).1 interval).Short :=
    short_timeradd (tells.normal w) hshort
  have htoNat : (timeradd (gettimeofday w).1 interval).micros.toNat ≤
      clock (gettimeofday w).2 / rate + 1000 * ms := by
    rw [micros_timeradd]
    generalize clock (gettimeofday w).2 / rate = now at hbefore ⊢
    omega
  unfold deadline countdownFor
  dsimp only
  rw [if_pos hend]
  calc rate * (timeradd (gettimeofday w).1 interval).micros.toNat
      ≤ rate * (clock (gettimeofday w).2 / rate + 1000 * ms) := Nat.mul_le_mul_left _ htoNat
    _ = rate * (clock (gettimeofday w).2 / rate) + 1000 * rate * ms := by ring
    _ ≤ clock (gettimeofday w).2 + 1000 * rate * ms :=
      Nat.add_le_add_right (Nat.mul_div_le _ _) _

end Clock

end MqttEmbedded.Linux
