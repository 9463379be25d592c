import Kron.Core.Schedule
import Kron.Lib.Saturating

/-
  Timers, retry policies and the events of the append-only
  log.

  Key definitions include:
    * `Kron.BackoffStrategy.delaySeconds`
    * `Kron.RetryPolicy.nextRetryAt`
    * `Kron.TimerSpec`
    * `Kron.TimerState`
    * `Kron.Event`
    * `Kron.LogEntry`

  Key theorems include:
    * `Kron.BackoffStrategy.delaySeconds_eq_formula`
-/

------------------------------------------------------------
-- Retry Policies
------------------------------------------------------------

namespace Kron

/- Largest `u64`. -/
def u64Max : Nat :=
  18446744073709551615

/- How long to wait before a retry. -/
inductive BackoffStrategy where
| fixed (seconds : UInt64)
| exponential (baseSeconds maxSeconds : UInt64)
| linear (baseSeconds stepSeconds maxSeconds : UInt64)
deriving DecidableEq, Repr

namespace BackoffStrategy

/- The result of a saturating `u64` operation. -/
private def saturate
    (n : Nat) : Nat :=
  min n u64Max

/-
  The delay before a retry; `attempt` counts from one. The
  linear case subtracts without saturation.
-/
def delaySeconds
    (strategy : BackoffStrategy)
    (attempt : UInt32) : UInt64 :=
  match strategy with
  | .fixed seconds => seconds
  | .exponential baseSeconds maxSeconds =>
      let exp := saturate (2 ^ (attempt.toNat - 1))
      let delay := saturate (baseSeconds.toNat * exp)
      UInt64.ofNat (min delay maxSeconds.toNat)
  | .linear baseSeconds stepSeconds maxSeconds =>
      let step :=
        saturate (stepSeconds.toNat * (attempt - 1).toNat)
      let delay := saturate (baseSeconds.toNat + step)
      UInt64.ofNat (min delay maxSeconds.toNat)

end BackoffStrategy

structure RetryPolicy where
  maxAttempts : UInt32
  backoff : BackoffStrategy
deriving DecidableEq, Repr

namespace RetryPolicy

/- Three attempts with exponential backoff. -/
def default : RetryPolicy where
  maxAttempts := 3
  backoff := .exponential 30 3600

/- One attempt only. -/
def noRetry : RetryPolicy where
  maxAttempts := 1
  backoff := .fixed 0

/-
  The time of the next attempt, or `none` inside when the
  run is dead. The outer `none` is a panic in date
  arithmetic.
-/
def nextRetryAt
    (policy : RetryPolicy)
    (from_ : DateTime)
    (attempt : UInt32) : Option (Option DateTime) :=
  if policy.maxAttempts ≤ attempt then
    some none
  else
    (addSeconds from_
      (policy.backoff.delaySeconds attempt)).map some

end RetryPolicy

end Kron

------------------------------------------------------------
-- Backoff Over The Natural Numbers
------------------------------------------------------------

namespace Kron

namespace BackoffStrategy

/- The delay without bounds on the numbers. -/
def formula : BackoffStrategy → Nat → Nat
| .fixed seconds, _ => seconds.toNat
| .exponential baseSeconds maxSeconds, attempt =>
    min maxSeconds.toNat
      (baseSeconds.toNat * 2 ^ (attempt - 1))
| .linear baseSeconds stepSeconds maxSeconds, attempt =>
    min maxSeconds.toNat
      (baseSeconds.toNat + stepSeconds.toNat * (attempt - 1))

/- The cap of a delay, where there is one. -/
def maxSeconds? : BackoffStrategy → Option UInt64
| .fixed _ => none
| .exponential _ maxSeconds => some maxSeconds
| .linear _ _ maxSeconds => some maxSeconds

variable {strategy : BackoffStrategy}
variable {attempt : UInt32}

private theorem toNat_le_u64Max
    (n : UInt64) :
    n.toNat ≤ u64Max := by
  have hLt := n.toNat_lt
  unfold u64Max
  omega

private theorem toNat_ofNat_min
    (n : Nat)
    (cap : UInt64) :
    (UInt64.ofNat (min n cap.toNat)).toNat =
      min n cap.toNat := by
  apply UInt64.toNat_ofNat_of_lt
  exact (min_le_right n cap.toNat).trans_lt cap.toNat_lt

/- Saturation never changes the capped delay. -/
theorem toNat_delaySeconds
    (strategy : BackoffStrategy)
    (hFirst : 1 ≤ attempt) :
    (strategy.delaySeconds attempt).toNat =
      strategy.formula attempt.toNat := by
  cases strategy with
  | fixed seconds => rfl
  | exponential baseSeconds maxSeconds =>
      have hCap := toNat_le_u64Max maxSeconds
      calc
        _ = min (saturate (baseSeconds.toNat *
              saturate (2 ^ (attempt.toNat - 1))))
              maxSeconds.toNat :=
          toNat_ofNat_min _ maxSeconds
        _ = min (baseSeconds.toNat *
              saturate (2 ^ (attempt.toNat - 1)))
              maxSeconds.toNat :=
          Saturating.min_min hCap
        _ = min (baseSeconds.toNat *
              2 ^ (attempt.toNat - 1)) maxSeconds.toNat :=
          Saturating.min_mul_min hCap
        _ = _ := min_comm _ _
  | linear baseSeconds stepSeconds maxSeconds =>
      have hCap := toNat_le_u64Max maxSeconds
      have hAttempt :
          (attempt - 1).toNat = attempt.toNat - 1 :=
        UInt32.toNat_sub_of_le attempt 1 hFirst
      calc
        _ = min (saturate (baseSeconds.toNat +
              saturate (stepSeconds.toNat *
                (attempt - 1).toNat))) maxSeconds.toNat :=
          toNat_ofNat_min _ maxSeconds
        _ = min (baseSeconds.toNat +
              saturate (stepSeconds.toNat *
                (attempt - 1).toNat)) maxSeconds.toNat :=
          Saturating.min_min hCap
        _ = min (baseSeconds.toNat +
              stepSeconds.toNat * (attempt - 1).toNat)
              maxSeconds.toNat :=
          Saturating.min_add_min hCap
        _ = min (baseSeconds.toNat +
              stepSeconds.toNat * (attempt.toNat - 1))
              maxSeconds.toNat := by
          rw [hAttempt]
        _ = _ := min_comm _ _

theorem formula_mono
    {k l : Nat}
    (hLe : k ≤ l) :
    strategy.formula k ≤ strategy.formula l := by
  have hSub : k - 1 ≤ l - 1 := Nat.sub_le_sub_right hLe 1
  cases strategy with
  | fixed seconds => exact Nat.le_refl _
  | exponential baseSeconds maxSeconds =>
      have hPow : 2 ^ (k - 1) ≤ 2 ^ (l - 1) :=
        Nat.pow_le_pow_right (by decide) hSub
      exact
        min_le_min_left _ (Nat.mul_le_mul_left _ hPow)
  | linear baseSeconds stepSeconds maxSeconds =>
      exact
        min_le_min_left _
          (Nat.add_le_add_left
            (Nat.mul_le_mul_left _ hSub) _)

theorem formula_le_max
    {cap : UInt64}
    (hCap : strategy.maxSeconds? = some cap)
    (k : Nat) :
    strategy.formula k ≤ cap.toNat := by
  cases strategy with
  | fixed seconds => cases hCap
  | exponential baseSeconds maxSeconds =>
      cases hCap
      exact min_le_left _ _
  | linear baseSeconds stepSeconds maxSeconds =>
      cases hCap
      exact min_le_left _ _

/-
  From the first attempt on, the delay is its formula, so it
  does not decrease and stays below its cap.
-/
theorem delaySeconds_eq_formula
    (strategy : BackoffStrategy)
    (attempt : UInt32)
    (hFirst : 1 ≤ attempt) :
    (strategy.delaySeconds attempt).toNat =
        strategy.formula attempt.toNat ∧
      (∀ later,
        attempt ≤ later →
          strategy.delaySeconds attempt ≤
            strategy.delaySeconds later) ∧
      (∀ cap,
        strategy.maxSeconds? = some cap →
          strategy.delaySeconds attempt ≤ cap) := by
  have hDelay := toNat_delaySeconds strategy hFirst
  refine ⟨hDelay, ?_, ?_⟩
  · intro later hLe
    have hLater : 1 ≤ later := UInt32.le_trans hFirst hLe
    rw [UInt64.le_iff_toNat_le, hDelay,
      toNat_delaySeconds strategy hLater]
    exact formula_mono (UInt32.le_iff_toNat_le.mp hLe)
  · intro cap hCap
    rw [UInt64.le_iff_toNat_le, hDelay]
    exact formula_le_max hCap attempt.toNat

/- A power far out of range stays at its cap. -/
theorem delaySeconds_eq_formula_exponential :
    ((BackoffStrategy.exponential 0 7).delaySeconds
          4294967295).toNat =
        (BackoffStrategy.exponential 0 7).formula
          (4294967295 : UInt32).toNat ∧
      (∀ later : UInt32,
        4294967295 ≤ later →
          (BackoffStrategy.exponential 0 7).delaySeconds
              4294967295 ≤
            (BackoffStrategy.exponential 0 7).delaySeconds
              later) ∧
      (∀ cap,
        (BackoffStrategy.exponential 0 7).maxSeconds? =
            some cap →
          (BackoffStrategy.exponential 0 7).delaySeconds
            4294967295 ≤ cap) :=
  delaySeconds_eq_formula _ _ (by decide)

end BackoffStrategy

end Kron

------------------------------------------------------------
-- Timers
------------------------------------------------------------

namespace Kron

abbrev TimerId :=
  String

abbrev RunId :=
  String

/- What to do when a timer is due while it is running. -/
inductive OverlapPolicy where
| delay
| skip
| allow
deriving DecidableEq, Repr

structure TimerSpec where
  id : TimerId
  schedule : Schedule
  retry : RetryPolicy
  timezone : String
  createdAt : DateTime
  overlap : OverlapPolicy
deriving DecidableEq, Repr

/- The instant of a number of seconds. -/
def second
    (n : Int) : DateTime :=
  n * nanosPerSecond

/- A timer that fires every minute and is not retried. -/
def everyMinute
    (id : TimerId) : TimerSpec where
  id := id
  schedule := .every 60
  retry := RetryPolicy.noRetry
  timezone := "UTC"
  createdAt := 0
  overlap := .delay

/- The lifecycle state derived from the log. -/
inductive TimerState where
| scheduled
| running
| retrying
| dead
| orphaned
| paused
| cancelled
deriving DecidableEq, Repr

end Kron

------------------------------------------------------------
-- Events
------------------------------------------------------------

namespace Kron

/- Every state change of the embedded engine. -/
inductive Event where
| timerCreated (spec : TimerSpec)
| timerUpdated (spec : TimerSpec)
| timerPaused (timerId : TimerId) (at_ : DateTime)
| timerResumed (timerId : TimerId) (at_ : DateTime)
| timerCancelled (timerId : TimerId) (at_ : DateTime)
| runDue (timerId : TimerId) (runId : RunId)
    (scheduledAt : DateTime)
| runStarted (timerId : TimerId) (runId : RunId)
    (startedAt : DateTime) (attempt : UInt32)
| runSkippedOverlap (timerId : TimerId) (runId : RunId)
    (scheduledAt skippedAt : DateTime)
| runSucceeded (timerId : TimerId) (runId : RunId)
    (finishedAt : DateTime) (durationMs : UInt64)
| runFailed (timerId : TimerId) (runId : RunId)
    (finishedAt : DateTime) (error : String)
    (attempt : UInt32)
| runRetrying (timerId : TimerId) (runId : RunId)
    (attempt : UInt32) (nextRetryAt : DateTime)
| runDead (timerId : TimerId) (runId : RunId)
    (at_ : DateTime)
deriving DecidableEq, Repr

/- One line of the append-only log. -/
structure LogEntry where
  v : UInt8
  ts : DateTime
  event : Event
deriving DecidableEq, Repr

deriving instance Countable for Schedule
deriving instance Countable for BackoffStrategy
deriving instance Countable for RetryPolicy
deriving instance Countable for OverlapPolicy
deriving instance Countable for TimerSpec
deriving instance Countable for TimerState
deriving instance Countable for Event
deriving instance Countable for LogEntry

namespace LogEntry

/- Wrap an event with the clock reading `ts`. -/
def new
    (event : Event)
    (ts : DateTime) : LogEntry where
  v := 1
  ts := ts
  event := event

end LogEntry

end Kron
