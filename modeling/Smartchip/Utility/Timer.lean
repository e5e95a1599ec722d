import Mathlib.Algebra.Group.Nat.Defs

/-!
# Timers

`nic/utility/wf_timer.h`: a timer of 32 bits over a clock of ticks that does not end.
-/

namespace Smartchip.Utility

/-- The ticks of a second; ten seconds are far from half the range of a timer. -/
structure Clock where
  hz : Nat
  pos : 0 < hz
  small : hz ≤ 1000

def hundredHertz : Clock := ⟨100, by decide, by decide⟩

/-- The fraction of a tick counts as one. -/
def Clock.msecsToTimestamp (clock : Clock) (msecs : Nat) : UInt32 :=
  UInt32.ofNat ((msecs * clock.hz + 999) / 1000)

structure WfTimer where
  start : UInt32
  expire : UInt32
  interval : UInt32

def wfTimerSet (now : Nat) (interval : UInt32) : WfTimer :=
  ⟨UInt32.ofNat now, UInt32.ofNat now + interval, interval⟩

def wfTimerReset (timer : WfTimer) : WfTimer :=
  ⟨timer.expire, timer.expire + timer.interval, timer.interval⟩

/-- The difference is negative as a number with a sign. -/
def wfTimerExpired (timer : WfTimer) (now : Nat) : Bool :=
  0x80000000 ≤ timer.expire - UInt32.ofNat now

theorem toNat_msecsToTimestamp (clock : Clock) {seconds : Nat} (few : seconds ≤ 10) :
    (clock.msecsToTimestamp (seconds * 1000)).toNat = seconds * clock.hz := by
  have bound := clock.small
  have product : seconds * clock.hz ≤ 10 * 1000 := Nat.mul_le_mul few bound
  have whole : (seconds * 1000 * clock.hz + 999) / 1000 = seconds * clock.hz := by
    rw [show seconds * 1000 * clock.hz = 1000 * (seconds * clock.hz) by
      rw [Nat.mul_right_comm, Nat.mul_comm]]
    omega
  simp only [Clock.msecsToTimestamp, whole, UInt32.toNat_ofNat']
  omega

/-- A timer that has expired was set more than its interval ago. -/
theorem elapsed_of_expired {start now : Nat} {interval : UInt32} (short : interval.toNat < 2 ^ 31)
    (ordered : start ≤ now) (expired : wfTimerExpired (wfTimerSet start interval) now = true) :
    start + interval.toNat < now := by
  simp only [wfTimerExpired, wfTimerSet, decide_eq_true_eq, UInt32.le_iff_toNat_le,
    UInt32.toNat_sub, UInt32.toNat_add, UInt32.toNat_ofNat'] at expired
  simp at expired
  omega

/-! ## All calls -/

/-- `wf_os_api_msecs_to_timestamp` and `wf_os_api_timestamp_to_msecs` of a port. -/
structure OsTimer where
  msecsToTimestamp : UInt32 → UInt32
  timestampToMsecs : UInt32 → UInt32

def wfTimerRestart (timer : WfTimer) (now : Nat) : WfTimer :=
  ⟨UInt32.ofNat now, UInt32.ofNat now + timer.interval, timer.interval⟩

def wfTimerMod (timer : WfTimer) (interval : UInt32) : WfTimer :=
  ⟨timer.start, timer.start + interval, interval⟩

def wfTimerRemaining (timer : WfTimer) (now : Nat) : Int :=
  (timer.expire - UInt32.ofNat now).toBitVec.toInt

def wfTimerElapsed (os : OsTimer) (timer : WfTimer) (now : Nat) : UInt32 :=
  os.timestampToMsecs (UInt32.ofNat now - timer.start)

/-- A call on a timer, with the true time where it reads the clock. -/
inductive TimerCall where
  | set (now : Nat) (intvMs : UInt32)
  | reset
  | restart (now : Nat)
  | mod (intvMs : UInt32)

def TimerCall.run (os : OsTimer) (timer : WfTimer) : TimerCall → WfTimer
  | .set now intvMs => wfTimerSet now (os.msecsToTimestamp intvMs)
  | .reset => wfTimerReset timer
  | .restart now => wfTimerRestart timer now
  | .mod intvMs => wfTimerMod timer (os.msecsToTimestamp intvMs)

/-- The period of a timer in true time. -/
structure Period where
  start : Nat
  interval : Nat

def Period.expiry (period : Period) : Nat := period.start + period.interval

def TimerCall.period (os : OsTimer) (period : Period) : TimerCall → Period
  | .set now intvMs => ⟨now, (os.msecsToTimestamp intvMs).toNat⟩
  | .reset => ⟨period.expiry, period.interval⟩
  | .restart now => ⟨now, period.interval⟩
  | .mod intvMs => ⟨period.start, (os.msecsToTimestamp intvMs).toNat⟩

/-- A timer after a first `wf_timer_set` and more calls. -/
def timerAfter (os : OsTimer) (now : Nat) (intvMs : UInt32) (calls : List TimerCall) : WfTimer :=
  calls.foldl (TimerCall.run os) (wfTimerSet now (os.msecsToTimestamp intvMs))

def periodAfter (os : OsTimer) (now : Nat) (intvMs : UInt32) (calls : List TimerCall) : Period :=
  calls.foldl (TimerCall.period os) ⟨now, (os.msecsToTimestamp intvMs).toNat⟩

/-- The interval that a call gives is less than half the range. -/
def TimerCall.Short (os : OsTimer) : TimerCall → Prop
  | .set _ intvMs => (os.msecsToTimestamp intvMs).toNat < 2 ^ 31
  | .mod intvMs => (os.msecsToTimestamp intvMs).toNat < 2 ^ 31
  | .reset => True
  | .restart _ => True

/-- The timer keeps 32 bits of its period. -/
structure WfTimer.Keeps (timer : WfTimer) (period : Period) : Prop where
  start : timer.start = UInt32.ofNat period.start
  expire : timer.expire = UInt32.ofNat period.expiry
  interval : timer.interval = UInt32.ofNat period.interval

section Runs

variable {os : OsTimer} {timer : WfTimer} {period : Period} {now : Nat}

/-- One call: the timer keeps what the call makes of the period. -/
theorem WfTimer.Keeps.call (keeps : timer.Keeps period) (call : TimerCall) :
    (call.run os timer).Keeps (call.period os period) := by
  cases call with
  | set now intvMs =>
      constructor <;>
        simp [TimerCall.run, TimerCall.period, wfTimerSet, Period.expiry, UInt32.ofNat_add]
  | reset =>
      constructor <;>
        simp [TimerCall.run, TimerCall.period, wfTimerReset, keeps.expire, keeps.interval,
          Period.expiry, UInt32.ofNat_add]
  | restart now =>
      constructor <;>
        simp [TimerCall.run, TimerCall.period, wfTimerRestart, keeps.interval, Period.expiry,
          UInt32.ofNat_add]
  | mod intvMs =>
      constructor <;>
        simp [TimerCall.run, TimerCall.period, wfTimerMod, keeps.start, Period.expiry,
          UInt32.ofNat_add]

theorem WfTimer.Keeps.calls (keeps : timer.Keeps period) (calls : List TimerCall) :
    (calls.foldl (TimerCall.run os) timer).Keeps (calls.foldl (TimerCall.period os) period) := by
  induction calls generalizing timer period with
  | nil => exact keeps
  | cons call calls ih => exact ih (keeps.call call)

theorem timerAfter_keeps (os : OsTimer) (now : Nat) (intvMs : UInt32) (calls : List TimerCall) :
    (timerAfter os now intvMs calls).Keeps (periodAfter os now intvMs calls) := by
  apply WfTimer.Keeps.calls
  constructor <;> simp [wfTimerSet, Period.expiry, UInt32.ofNat_add]

/-- Short intervals are all that calls put into a period. -/
theorem short_calls {calls : List TimerCall} (short : ∀ call ∈ calls, call.Short os)
    (first : period.interval < 2 ^ 31) :
    (calls.foldl (TimerCall.period os) period).interval < 2 ^ 31 := by
  induction calls generalizing period with
  | nil => exact first
  | cons call calls ih =>
      apply ih
      · intro later among
        exact short later (List.mem_cons_of_mem call among)
      · have given := short call List.mem_cons_self
        cases call with
        | set now intvMs => exact given
        | reset => exact first
        | restart now => exact first
        | mod intvMs => exact given

/-- The signed difference of 32 bits is the true one where that is less than half the range. -/
theorem WfTimer.Keeps.remaining (keeps : timer.Keeps period)
    (before : period.expiry < now + 2 ^ 31) (after : now < period.expiry + 2 ^ 31) :
    wfTimerRemaining timer now = (period.expiry : Int) - now := by
  simp only [wfTimerRemaining, keeps.expire, BitVec.toInt_eq_toNat_cond, UInt32.toNat_toBitVec,
    UInt32.toNat_sub, UInt32.toNat_ofNat']
  split <;> omega

theorem wfTimerExpired_iff (timer : WfTimer) (now : Nat) :
    wfTimerExpired timer now = true ↔ wfTimerRemaining timer now < 0 := by
  simp only [wfTimerExpired, wfTimerRemaining, decide_eq_true_eq, UInt32.le_iff_toNat_le,
    BitVec.toInt_eq_toNat_cond, UInt32.toNat_toBitVec]
  have bound := (timer.expire - UInt32.ofNat now).toNat_lt
  have half : (0x80000000 : UInt32).toNat = 2 ^ 31 := rfl
  split <;> omega

/-- The ticks since the start of a period that has begun. -/
theorem WfTimer.Keeps.elapsed (keeps : timer.Keeps period) (begun : period.start ≤ now)
    (near : now - period.start < 2 ^ 32) :
    (UInt32.ofNat now - timer.start).toNat = now - period.start := by
  simp only [keeps.start, UInt32.toNat_sub, UInt32.toNat_ofNat']
  omega

end Runs

/-- The expiry after some more resets. -/
theorem period_resets (os : OsTimer) (period : Period) (k : Nat) :
    (List.replicate k TimerCall.reset).foldl (TimerCall.period os) period =
      ⟨period.start + k * period.interval, period.interval⟩ := by
  induction k generalizing period with
  | zero => simp
  | succ k ih =>
      simp only [List.replicate_succ, List.foldl_cons, ih, TimerCall.period, Period.expiry,
        Period.mk.injEq, and_true]
      rw [Nat.add_mul]
      omega

/-- Readings of a timer after any calls, in true time. The time since the start is read right
where the period has begun. -/
theorem timer_readings (os : OsTimer) (first : Nat) (intvMs : UInt32) (calls : List TimerCall)
    (shortFirst : (os.msecsToTimestamp intvMs).toNat < 2 ^ 31)
    (short : ∀ call ∈ calls, call.Short os) :
    let timer := timerAfter os first intvMs calls
    let period := periodAfter os first intvMs calls
    (∀ now, period.expiry < now + 2 ^ 31 → now < period.expiry + 2 ^ 31 →
      (wfTimerExpired timer now = true ↔ period.expiry < now) ∧
        wfTimerRemaining timer now = (period.expiry : Int) - now ∧
        (period.start ≤ now → ∃ ticks : UInt32, ticks.toNat = now - period.start ∧
          wfTimerElapsed os timer now = os.timestampToMsecs ticks)) ∧
      ∀ k, (periodAfter os first intvMs (calls ++ List.replicate k .reset)).expiry =
          period.expiry + k * period.interval ∧
        (timerAfter os first intvMs (calls ++ List.replicate k .reset)).expire =
          UInt32.ofNat (period.expiry + k * period.interval) := by
  intro timer period
  have keeps : timer.Keeps period := timerAfter_keeps os first intvMs calls
  have interval : period.interval < 2 ^ 31 := short_calls short shortFirst
  constructor
  · intro now before after
    have remaining := keeps.remaining before after
    refine ⟨?_, remaining, ?_⟩
    · rw [wfTimerExpired_iff, remaining]
      omega
    · intro begun
      have near : now - period.start < 2 ^ 32 := by
        simp only [Period.expiry] at after
        omega
      exact ⟨_, keeps.elapsed begun near, rfl⟩
  · intro k
    have more := timerAfter_keeps os first intvMs (calls ++ List.replicate k .reset)
    have moved : (periodAfter os first intvMs (calls ++ List.replicate k .reset)).expiry =
        period.expiry + k * period.interval := by
      rw [periodAfter, List.foldl_append, period_resets]
      simp only [Period.expiry, period, periodAfter]
      omega
    exact ⟨moved, moved ▸ more.expire⟩

/-- A port with one tick a millisecond. -/
def kiloHertz : OsTimer := ⟨id, id⟩

/-- A timer that is reset before it has expired, and read at once. -/
theorem elapsed_before_start :
    ((wfTimerElapsed kiloHertz (timerAfter kiloHertz 0 10 [.reset]) 0).toNat : Int) ≠
      0 - (periodAfter kiloHertz 0 10 [.reset]).start := by
  decide

theorem timer_readings_twice :
    let timer := timerAfter kiloHertz (2 ^ 32 - 5) 10 [.reset]
    let period := periodAfter kiloHertz (2 ^ 32 - 5) 10 [.reset]
    (∀ now, period.expiry < now + 2 ^ 31 → now < period.expiry + 2 ^ 31 →
      (wfTimerExpired timer now = true ↔ period.expiry < now) ∧
        wfTimerRemaining timer now = (period.expiry : Int) - now ∧
        (period.start ≤ now → ∃ ticks : UInt32, ticks.toNat = now - period.start ∧
          wfTimerElapsed kiloHertz timer now = kiloHertz.timestampToMsecs ticks)) ∧
      ∀ k, (periodAfter kiloHertz (2 ^ 32 - 5) 10 ([.reset] ++ List.replicate k .reset)).expiry =
          period.expiry + k * period.interval ∧
        (timerAfter kiloHertz (2 ^ 32 - 5) 10 ([.reset] ++ List.replicate k .reset)).expire =
          UInt32.ofNat (period.expiry + k * period.interval) :=
  timer_readings kiloHertz (2 ^ 32 - 5) 10 [.reset] (by decide) (by
    intro call among
    rw [List.mem_singleton.mp among]
    trivial)

end Smartchip.Utility
