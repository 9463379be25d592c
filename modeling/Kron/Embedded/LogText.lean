import Kron.Embedded.Snapshot
import Kron.Lib.JsonText

/-
  The JSON text of a log entry.

  The derived serializers write a record as an object of its
  fields, in their order, and a variant as the object of its
  fields after a tag. Times are written in RFC 3339 form.

  Key definitions include:
    * `Kron.rfc3339`
    * `Kron.TimerSpec.toText`
    * `Kron.Event.toText`
    * `Kron.LogEntry.toText`
    * `Kron.logCodec`
    * `Kron.noSnapshots`

  Key theorems include:
    * `Kron.LogEntry.newline_notMem_toText`
-/

------------------------------------------------------------
-- Times
------------------------------------------------------------

namespace Kron

/- A number in at least `width` decimal digits. -/
def padded
    (width n : Nat) : String :=
  String.ofList ((Nat.repr n).toList.leftpad width '0')

/- Year, month and day of a number of days since 1970. -/
def civil
    (days : Int) : Int × Nat × Nat :=
  -- Years start in March, in eras of 400 years.
  let z := days + 719468
  let era := z / 146097
  let doe := (z % 146097).toNat
  let yoe :=
    (doe - doe / 1460 + doe / 36524 - doe / 146096) / 365
  let doy := doe - (365 * yoe + yoe / 4 - yoe / 100)
  let mp := (5 * doy + 2) / 153
  let day := doy - (153 * mp + 2) / 5 + 1
  let month := if mp < 10 then mp + 3 else mp - 9
  let year := era * 400 + yoe
  (if month ≤ 2 then year + 1 else year, month, day)

/- Years outside of four digits carry a sign. -/
def yearText
    (year : Int) : String :=
  if 0 ≤ year ∧ year ≤ 9999 then
    padded 4 year.toNat
  else if 0 ≤ year then
    "+" ++ padded 4 year.natAbs
  else
    "-" ++ padded 4 year.natAbs

/- As many digits as a multiple of three needs. -/
def fractionText
    (nanos : Nat) : String :=
  if nanos = 0 then
    ""
  else if nanos % 1000000 = 0 then
    "." ++ padded 3 (nanos / 1000000)
  else if nanos % 1000 = 0 then
    "." ++ padded 6 (nanos / 1000)
  else
    "." ++ padded 9 nanos

/- An instant in UTC. -/
def rfc3339
    (t : DateTime) : String :=
  let secs := t / nanosPerSecond
  let nanos := (t % nanosPerSecond).toNat
  let date := civil (secs / 86400)
  let sec := (secs % 86400).toNat
  yearText date.1 ++ "-" ++ padded 2 date.2.1 ++ "-" ++
    padded 2 date.2.2 ++ "T" ++ padded 2 (sec / 3600) ++
    ":" ++ padded 2 (sec / 60 % 60) ++ ":" ++
    padded 2 (sec % 60) ++ fractionText nanos ++ "Z"

-- The last day of February in a leap year.
example :
    rfc3339 (second 951782400 + 500000000) =
      "2000-02-29T00:00:00.500Z" := by
  decide +kernel

end Kron

------------------------------------------------------------
-- Records
------------------------------------------------------------

namespace Kron

open JsonText

def dateText
    (t : DateTime) : String :=
  quote (rfc3339 t)

def Schedule.toText : Schedule → String
| .cron expr =>
    object [("kind", quote "cron"), ("expr", quote expr)]
| .every seconds =>
    object
      [("kind", quote "every"),
        ("seconds", Nat.repr seconds.toNat)]
| .at_ instant =>
    object [("kind", quote "at"), ("at", dateText instant)]
| .after seconds registeredAt =>
    object
      [("kind", quote "after"),
        ("seconds", Nat.repr seconds.toNat),
        ("registered_at", dateText registeredAt)]

def BackoffStrategy.toText : BackoffStrategy → String
| .fixed seconds =>
    object
      [("kind", quote "fixed"),
        ("seconds", Nat.repr seconds.toNat)]
| .exponential baseSeconds maxSeconds =>
    object
      [("kind", quote "exponential"),
        ("base_seconds", Nat.repr baseSeconds.toNat),
        ("max_seconds", Nat.repr maxSeconds.toNat)]
| .linear baseSeconds stepSeconds maxSeconds =>
    object
      [("kind", quote "linear"),
        ("base_seconds", Nat.repr baseSeconds.toNat),
        ("step_seconds", Nat.repr stepSeconds.toNat),
        ("max_seconds", Nat.repr maxSeconds.toNat)]

def RetryPolicy.toText
    (policy : RetryPolicy) : String :=
  object
    [("max_attempts", Nat.repr policy.maxAttempts.toNat),
      ("backoff", policy.backoff.toText)]

def OverlapPolicy.toText : OverlapPolicy → String
| .delay => quote "delay"
| .skip => quote "skip"
| .allow => quote "allow"

def TimerSpec.toText
    (spec : TimerSpec) : String :=
  object
    [("id", quote spec.id),
      ("schedule", spec.schedule.toText),
      ("retry", spec.retry.toText),
      ("timezone", quote spec.timezone),
      ("created_at", dateText spec.createdAt),
      ("overlap", spec.overlap.toText)]

end Kron

------------------------------------------------------------
-- Events
------------------------------------------------------------

namespace Kron

open JsonText

/- The tag of an event, then its fields. -/
def Event.members : Event → List (String × String)
| .timerCreated spec =>
    [("type", quote "TIMER_CREATED"),
      ("spec", spec.toText)]
| .timerUpdated spec =>
    [("type", quote "TIMER_UPDATED"),
      ("spec", spec.toText)]
| .timerPaused timerId at_ =>
    [("type", quote "TIMER_PAUSED"),
      ("timer_id", quote timerId), ("at", dateText at_)]
| .timerResumed timerId at_ =>
    [("type", quote "TIMER_RESUMED"),
      ("timer_id", quote timerId), ("at", dateText at_)]
| .timerCancelled timerId at_ =>
    [("type", quote "TIMER_CANCELLED"),
      ("timer_id", quote timerId), ("at", dateText at_)]
| .runDue timerId runId scheduledAt =>
    [("type", quote "RUN_DUE"), ("timer_id", quote timerId),
      ("run_id", quote runId),
      ("scheduled_at", dateText scheduledAt)]
| .runStarted timerId runId startedAt attempt =>
    [("type", quote "RUN_STARTED"),
      ("timer_id", quote timerId), ("run_id", quote runId),
      ("started_at", dateText startedAt),
      ("attempt", Nat.repr attempt.toNat)]
| .runSkippedOverlap timerId runId scheduledAt skippedAt =>
    [("type", quote "RUN_SKIPPED_OVERLAP"),
      ("timer_id", quote timerId), ("run_id", quote runId),
      ("scheduled_at", dateText scheduledAt),
      ("skipped_at", dateText skippedAt)]
| .runSucceeded timerId runId finishedAt durationMs =>
    [("type", quote "RUN_SUCCEEDED"),
      ("timer_id", quote timerId), ("run_id", quote runId),
      ("finished_at", dateText finishedAt),
      ("duration_ms", Nat.repr durationMs.toNat)]
| .runFailed timerId runId finishedAt error attempt =>
    [("type", quote "RUN_FAILED"),
      ("timer_id", quote timerId), ("run_id", quote runId),
      ("finished_at", dateText finishedAt),
      ("error", quote error),
      ("attempt", Nat.repr attempt.toNat)]
| .runRetrying timerId runId attempt nextRetryAt =>
    [("type", quote "RUN_RETRYING"),
      ("timer_id", quote timerId), ("run_id", quote runId),
      ("attempt", Nat.repr attempt.toNat),
      ("next_retry_at", dateText nextRetryAt)]
| .runDead timerId runId at_ =>
    [("type", quote "RUN_DEAD"),
      ("timer_id", quote timerId), ("run_id", quote runId),
      ("at", dateText at_)]

def LogEntry.toText
    (entry : LogEntry) : String :=
  object
    [("v", Nat.repr entry.v.toNat),
      ("ts", dateText entry.ts),
      ("event", object entry.event.members)]

end Kron

------------------------------------------------------------
-- Entries Are Lines
------------------------------------------------------------

namespace Kron

open JsonText

@[simp] theorem newline_notMem_dateText
    (t : DateTime) :
    '\n' ∉ (dateText t).toList :=
  newline_notMem_quote _

@[simp] theorem Schedule.newline_notMem_toText
    (schedule : Schedule) :
    '\n' ∉ schedule.toText.toList := by
  cases schedule <;>
  apply newline_notMem_object <;>
  simp

@[simp] theorem BackoffStrategy.newline_notMem_toText
    (strategy : BackoffStrategy) :
    '\n' ∉ strategy.toText.toList := by
  cases strategy <;>
  apply newline_notMem_object <;>
  simp

@[simp] theorem RetryPolicy.newline_notMem_toText
    (policy : RetryPolicy) :
    '\n' ∉ policy.toText.toList := by
  apply newline_notMem_object
  simp

@[simp] theorem OverlapPolicy.newline_notMem_toText
    (policy : OverlapPolicy) :
    '\n' ∉ policy.toText.toList := by
  cases policy <;>
  exact newline_notMem_quote _

@[simp] theorem TimerSpec.newline_notMem_toText
    (spec : TimerSpec) :
    '\n' ∉ spec.toText.toList := by
  apply newline_notMem_object
  simp

theorem Event.newline_notMem_members
    (event : Event) :
    ∀ m ∈ event.members, '\n' ∉ m.2.toList := by
  cases event <;>
  simp [Event.members]

/- An entry is written on one line. -/
theorem LogEntry.newline_notMem_toText
    (entry : LogEntry) :
    '\n' ∉ entry.toText.toList := by
  apply newline_notMem_object
  simp [newline_notMem_object
    entry.event.newline_notMem_members]

end Kron

------------------------------------------------------------
-- The Codecs Of An Engine's Files
------------------------------------------------------------

namespace Kron

open Classical in
/- Entries as they are written; they read back as such. -/
noncomputable def logCodec : JsonCodec LogEntry where
  toText := LogEntry.toText
  toTextPretty := LogEntry.toText
  fromText s :=
    if h : ∃ entry : LogEntry, entry.toText = Text.trim s then
      .ok h.choose
    else
      .error { message := "expected value", isEof := false }

/- No snapshot is written here. -/
noncomputable def noSnapshots : JsonCodec Snapshot :=
  tableCodec []

end Kron
