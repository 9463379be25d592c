import Kron.Core.Timer

/-
  The state of the embedded engine, derived by replaying
  the events of the append-only log.

  Key definitions include:
    * `Kron.EngineState`
    * `Kron.EngineState.apply`
    * `Kron.EngineState.replay`
    * `Kron.EngineState.registerFunction`
    * `Kron.EngineState.markFunctionMissing`

  Key theorems include:
    * `Kron.EngineState.replay_append`
    * `Kron.EngineState.replay_fnNames`
    * `Kron.EngineState.replay_specs_of_untouched`
    * `Kron.EngineState.mem_specs_replay`
-/

------------------------------------------------------------
-- Engine State
------------------------------------------------------------

namespace Kron

structure LastRunInfo where
  runId : RunId
  finishedAt : DateTime
  durationMs : Option UInt64
  status : String
deriving DecidableEq, Repr

/- A retry that waits: its run, its time and its attempt. -/
abbrev PendingRetry :=
  RunId × DateTime × UInt32

structure EngineState where
  specs : BTreeMap TimerId TimerSpec
  states : BTreeMap TimerId TimerState
  fnNames : BTreeMap TimerId String
  lastRuns : BTreeMap TimerId LastRunInfo
  nextRuns : BTreeMap TimerId DateTime
  retries7d : BTreeMap TimerId UInt32
  pendingRetries : BTreeMap TimerId PendingRetry
deriving DecidableEq

namespace EngineState

/- The state before any event. -/
def new : EngineState where
  specs := ∅
  states := ∅
  fnNames := ∅
  lastRuns := ∅
  nextRuns := ∅
  retries7d := ∅
  pendingRetries := ∅

/- Set the lifecycle state of a timer. -/
def setState
    (s : EngineState)
    (id : TimerId)
    (state : TimerState) : EngineState :=
  { s with states := s.states.insert id state }

/- Record the most recent run of a timer. -/
def setLastRun
    (s : EngineState)
    (id : TimerId)
    (info : LastRunInfo) : EngineState :=
  { s with lastRuns := s.lastRuns.insert id info }

/- Forget the waiting retry of a timer. -/
def clearRetry
    (s : EngineState)
    (id : TimerId) : EngineState :=
  { s with pendingRetries := s.pendingRetries.erase id }

/- Count one more retry of a timer. -/
def countRetry
    (s : EngineState)
    (id : TimerId) : EngineState :=
  { s with
    retries7d :=
      s.retries7d.insert id (s.retries7d.getD id 0 + 1) }

/- The state-transition function. -/
def apply
    (s : EngineState)
    (event : Event) : EngineState :=
  match event with
  | .timerCreated spec =>
      { s.setState spec.id .orphaned with
        specs := s.specs.insert spec.id spec }
  | .timerUpdated spec =>
      { s with specs := s.specs.insert spec.id spec }
  | .timerPaused timerId _ =>
      s.setState timerId .paused
  | .timerResumed timerId _ =>
      -- scheduled again only if a function is registered
      s.setState timerId
        (if timerId ∈ s.fnNames then
          .scheduled
        else
          .orphaned)
  | .timerCancelled timerId _ =>
      s.setState timerId .cancelled
  | .runDue timerId _ _ =>
      s.setState timerId .running
  | .runStarted timerId _ _ _ =>
      s.setState timerId .running
  | .runSkippedOverlap timerId runId _ skippedAt =>
      s.setLastRun timerId
        { runId := runId
          finishedAt := skippedAt
          durationMs := none
          status := "SKIPPED_OVERLAP" }
  | .runSucceeded timerId runId finishedAt durationMs =>
      ((s.setState timerId .scheduled).setLastRun timerId
        { runId := runId
          finishedAt := finishedAt
          durationMs := some durationMs
          status := "OK" }).clearRetry timerId
  | .runFailed timerId runId finishedAt error _ =>
      s.setLastRun timerId
        { runId := runId
          finishedAt := finishedAt
          durationMs := none
          status := "FAILED: " ++ error }
  | .runRetrying timerId runId attempt nextRetryAt =>
      let s := s.setState timerId .retrying
      { s with
        pendingRetries :=
          s.pendingRetries.insert timerId
            (runId, nextRetryAt, attempt) }.countRetry
        timerId
  | .runDead timerId runId at_ =>
      ((s.setState timerId .dead).setLastRun timerId
        { runId := runId
          finishedAt := at_
          durationMs := none
          status := "DEAD" }).clearRetry timerId

/- Replay log entries in order. -/
def replay
    (s : EngineState)
    (entries : List LogEntry) : EngineState :=
  entries.foldl (fun s entry => s.apply entry.event) s

/- Bind a host function to a timer. -/
def registerFunction
    (s : EngineState)
    (timerId : TimerId)
    (functionName : String) : EngineState :=
  let current := s.states.getD timerId .orphaned
  let s :=
    { s with fnNames := s.fnNames.insert timerId functionName }
  if current = .orphaned then
    s.setState timerId .scheduled
  else
    s

/- Forget the host function of a timer. -/
def markFunctionMissing
    (s : EngineState)
    (timerId : TimerId) : EngineState :=
  let current := s.states.getD timerId .orphaned
  let s := { s with fnNames := s.fnNames.erase timerId }
  if current = .scheduled ∨ current = .retrying ∨
      current = .running then
    s.setState timerId .orphaned
  else
    s

end EngineState

end Kron

------------------------------------------------------------
-- Replay
------------------------------------------------------------

namespace Kron

namespace EngineState

@[simp] theorem replay_nil
    (s : EngineState) :
    s.replay [] = s := rfl

@[simp] theorem replay_cons
    (s : EngineState)
    (entry : LogEntry)
    (entries : List LogEntry) :
    s.replay (entry :: entries) =
      (s.apply entry.event).replay entries := rfl

/- Replay of a concatenation replays its parts in turn. -/
theorem replay_append
    (s : EngineState)
    (xs ys : List LogEntry) :
    s.replay (xs ++ ys) = (s.replay xs).replay ys := by
  simp [replay]

/- Events do not bind functions. -/
@[simp] theorem apply_fnNames
    (s : EngineState)
    (event : Event) :
    (s.apply event).fnNames = s.fnNames := by
  cases event <;> rfl

@[simp] theorem replay_fnNames
    (s : EngineState)
    (entries : List LogEntry) :
    (s.replay entries).fnNames = s.fnNames := by
  induction entries generalizing s with
  | nil => rfl
  | cons entry entries ih => simp [ih]

/- Events do not compute next runs. -/
@[simp] theorem apply_nextRuns
    (s : EngineState)
    (event : Event) :
    (s.apply event).nextRuns = s.nextRuns := by
  cases event <;> rfl

@[simp] theorem replay_nextRuns
    (s : EngineState)
    (entries : List LogEntry) :
    (s.replay entries).nextRuns = s.nextRuns := by
  induction entries generalizing s with
  | nil => rfl
  | cons entry entries ih => simp [ih]

end EngineState

namespace Event

/- The spec an event stores, if any. -/
def spec? : Event → Option TimerSpec
| .timerCreated spec => some spec
| .timerUpdated spec => some spec
| _ => none

end Event

namespace EngineState

/- Only events that carry a spec change the specs. -/
theorem apply_specs
    (s : EngineState)
    (event : Event) :
    (s.apply event).specs =
      match event.spec? with
      | none => s.specs
      | some spec => s.specs.insert spec.id spec := by
  cases event <;> rfl

/- Events about other timers keep the spec of a timer. -/
theorem replay_specs_of_untouched
    (s : EngineState)
    (id : TimerId)
    (entries : List LogEntry)
    (hOther :
      ∀ entry ∈ entries, ∀ spec,
        entry.event.spec? = some spec → spec.id ≠ id) :
    (s.replay entries).specs[id]? = s.specs[id]? := by
  induction entries generalizing s with
  | nil => rfl
  | cons entry entries ih =>
      have hRest :
          ∀ e ∈ entries, ∀ spec,
            e.event.spec? = some spec → spec.id ≠ id := by
        intro e he
        exact hOther e (List.mem_cons_of_mem _ he)
      rw [replay_cons, ih _ hRest, apply_specs]
      cases hSpec : entry.event.spec? with
      | none => rfl
      | some spec =>
          have hNe :=
            hOther entry List.mem_cons_self spec hSpec
          exact BTreeMap.get_insert_ne _ _ hNe

/- Specs are never removed. -/
theorem mem_specs_replay
    {s : EngineState}
    {id : TimerId}
    (hMem : id ∈ s.specs)
    (entries : List LogEntry) :
    id ∈ (s.replay entries).specs := by
  induction entries generalizing s with
  | nil => exact hMem
  | cons entry entries ih =>
      apply ih
      rw [apply_specs]
      cases entry.event.spec? with
      | none => exact hMem
      | some spec => simp [hMem]

end EngineState

end Kron
