import Kron.Core.Timer
import Kron.Lib.Machine

/-
  The replicated state machine of server mode.

  A committed Raft log is a list of commands. Applying a
  command computes the next run of a recurring timer, which
  may panic in date arithmetic; a panic is `none`.

  Key definitions include:
    * `Kron.RaftCommand`
    * `Kron.HistoryEntry`
    * `Kron.PersistedStateMachine`
    * `Kron.applyKronCommand`
    * `Kron.applyLog`
    * `Kron.RunEffect`
    * `Kron.runEffect`

  Key theorems include:
    * `Kron.PersistedStateMachine.rescheduleTimer_eq_some`
    * `Kron.applyKronCommand_activeRuns`
    * `Kron.activeRun_cases`
-/

------------------------------------------------------------
-- Specs, Runs And Commands
------------------------------------------------------------

namespace Kron

/- The text of a JSON value that nothing here looks into. -/
abbrev JsonValue :=
  String

inductive TimerTarget where
| embeddedFn (name : String)
| workerTask (task : String) (payload : JsonValue)
| httpTarget (url : String)
deriving DecidableEq, Repr

structure DistributedTimerSpec where
  id : TimerId
  tenantId : Option String
  schedule : Schedule
  retry : RetryPolicy
  timezone : String
  target : TimerTarget
  createdAt : DateTime
deriving DecidableEq, Repr

/- A run offered to a worker. -/
structure WorkerRun where
  timer : String
  tenantId : Option String
  runId : RunId
  task : String
  payload : JsonValue
  attempt : UInt32
  fencingToken : UInt64
  idempotencyKey : String
deriving DecidableEq, Repr

structure NodeInfo where
  nodeId : String
  httpAddr : String
  raftAddr : String
deriving DecidableEq, Repr

/- The commands of the replicated log. -/
inductive RaftCommand where
| createTimer (spec : DistributedTimerSpec)
    (nextRunAt : Option DateTime)
| updateTimer (spec : DistributedTimerSpec)
    (nextRunAt : Option DateTime)
| cancelTimer (timerId : TimerId)
| pauseTimer (timerId : TimerId)
| resumeTimer (timerId : TimerId)
    (nextRunAt : Option DateTime)
| claimRun (timerId : TimerId) (runId : RunId)
    (workerId : String) (fencingToken : UInt64)
    (attempt : UInt32) (leaseDeadline : DateTime)
| completeRun (runId : RunId) (workerId : String)
    (fencingToken : UInt64) (completedAt : DateTime)
| failRun (runId : RunId) (workerId : String)
    (fencingToken : UInt64) (error : String)
    (failedAt : DateTime)
| expireRunLease (runId : RunId)
    (replacement : Option WorkerRun) (expiredAt : DateTime)
| heartbeatWorker (workerId : String)
    (leaseUntil : DateTime)
| registerWorker (workerId : String)
    (tasks : List String) (leaseUntil : DateTime)
| unregisterWorker (workerId : String)
| addNode (node : NodeInfo)
| removeNode (nodeId : String)
deriving DecidableEq, Repr

end Kron

------------------------------------------------------------
-- The Persisted State
------------------------------------------------------------

namespace Kron

/- The position of an entry of the Raft log. -/
structure LogId where
  term : UInt64
  nodeId : UInt64
  index : UInt64
deriving DecidableEq, Repr

/- Voter configurations and the addresses of the nodes. -/
structure Membership where
  configs : List (List UInt64)
  nodes : BTreeMap UInt64 String
deriving DecidableEq

structure StoredMembership where
  logId : Option LogId
  membership : Membership
deriving DecidableEq

structure PersistedTimer where
  spec : DistributedTimerSpec
  state : TimerState
  fencingToken : UInt64
deriving DecidableEq, Repr

structure PersistedActiveRun where
  timerId : TimerId
  runId : RunId
  workerId : String
  fencingToken : UInt64
  attempt : UInt32
  leaseDeadline : DateTime
deriving DecidableEq, Repr

structure PersistedWorker where
  tasks : List String
  leaseUntil : DateTime
deriving DecidableEq, Repr

/- What the history says about a claim or the end of one. -/
structure RunRecord where
  timer : TimerId
  tenantId : Option String
  runId : RunId
  workerId : String
  fencingToken : UInt64
deriving DecidableEq, Repr

/- The objects pushed to the history, by their `type`. -/
inductive HistoryEntry where
| timerCreated (timer : TimerId)
    (tenantId : Option String)
| runClaimed (run : RunRecord)
| runSucceeded (run : RunRecord)
| runFailed (run : RunRecord) (error : String)
| runLeaseExpired (run : RunRecord)
| workerRegistered (workerId : String)
deriving DecidableEq, Repr

namespace HistoryEntry

/- The field `type`. -/
def type : HistoryEntry → String
| .timerCreated _ _ => "TIMER_CREATED"
| .runClaimed _ => "RUN_CLAIMED"
| .runSucceeded _ => "RUN_SUCCEEDED"
| .runFailed _ _ => "RUN_FAILED"
| .runLeaseExpired _ => "RUN_LEASE_EXPIRED"
| .workerRegistered _ => "WORKER_REGISTERED"

/- The field `timer`. -/
def timer? : HistoryEntry → Option TimerId
| .timerCreated timer _ => some timer
| .runClaimed run => some run.timer
| .runSucceeded run => some run.timer
| .runFailed run _ => some run.timer
| .runLeaseExpired run => some run.timer
| .workerRegistered _ => none

/- The field `tenant_id`, where it is a string. -/
def tenantId? : HistoryEntry → Option String
| .timerCreated _ tenantId => tenantId
| .runClaimed run => run.tenantId
| .runSucceeded run => run.tenantId
| .runFailed run _ => run.tenantId
| .runLeaseExpired run => run.tenantId
| .workerRegistered _ => none

end HistoryEntry

structure PersistedStateMachine where
  lastAppliedLogId : Option LogId
  lastMembership : StoredMembership
  timers : BTreeMap TimerId PersistedTimer
  nextRuns : BTreeMap TimerId DateTime
  pending : List WorkerRun
  activeRuns : BTreeMap RunId PersistedActiveRun
  workers : BTreeMap String PersistedWorker
  nodes : BTreeMap String NodeInfo
  history : List HistoryEntry
deriving DecidableEq

namespace PersistedStateMachine

/- The state machine before any command. -/
def default : PersistedStateMachine where
  lastAppliedLogId := none
  lastMembership :=
    { logId := none, membership := ⟨[], ∅⟩ }
  timers := ∅
  nextRuns := ∅
  pending := []
  activeRuns := ∅
  workers := ∅
  nodes := ∅
  history := []

end PersistedStateMachine

end Kron

------------------------------------------------------------
-- Applying A Command
------------------------------------------------------------

namespace Kron

namespace PersistedStateMachine

variable (state : PersistedStateMachine)

/- The tenant of a stored timer. -/
def timerTenant
    (timerId : TimerId) : Option String :=
  (state.timers[timerId]?).bind
    fun timer => timer.spec.tenantId

/- Set the lifecycle state of a stored timer. -/
def setState
    (timerId : TimerId)
    (timerState : TimerState) : PersistedStateMachine :=
  { state with
    timers := state.timers.modify? timerId
      fun timer => { timer with state := timerState } }

/- Set the state and the fencing token of a stored timer. -/
def setToken
    (timerId : TimerId)
    (timerState : TimerState)
    (fencingToken : UInt64) : PersistedStateMachine :=
  { state with
    timers := state.timers.modify? timerId
      fun timer =>
        { timer with
          state := timerState
          fencingToken := fencingToken } }

/- Store or clear the next run of a timer. -/
def setNextRun
    (timerId : TimerId)
    (nextRunAt : Option DateTime) :
    PersistedStateMachine :=
  match nextRunAt with
  | some next =>
      { state with
        nextRuns := state.nextRuns.insert timerId next }
  | none =>
      { state with
        nextRuns := state.nextRuns.erase timerId }

def pushHistory
    (entry : HistoryEntry) : PersistedStateMachine :=
  { state with history := state.history ++ [entry] }

/- The history record of a run, under the current tenant. -/
def runRecord
    (active : PersistedActiveRun) : RunRecord where
  timer := active.timerId
  tenantId := state.timerTenant active.timerId
  runId := active.runId
  workerId := active.workerId
  fencingToken := active.fencingToken

def removeActive
    (runId : RunId) : PersistedStateMachine :=
  { state with activeRuns := state.activeRuns.erase runId }

/- Whether some active run belongs to the timer. -/
def hasActive
    (timerId : TimerId) : Bool :=
  state.activeRuns.vals.any fun run => run.timerId == timerId

/- Remove the first pending run with the given id. -/
def takePending
    (runId : RunId) : PersistedStateMachine :=
  { state with
    pending :=
      state.pending.eraseP fun run => run.runId == runId }

/-
  The next run after a completion: none for one-shot timers
  and where the schedule gives none.
-/
def rescheduleTimer
    (cal : Calendar)
    (timerId : TimerId)
    (after : DateTime) : Option PersistedStateMachine :=
  match state.timers[timerId]? with
  | none => some state
  | some timer =>
      if timer.spec.schedule.isOneShot then
        some (state.setNextRun timerId none)
      else
        match timer.spec.schedule.nextRunAfter cal after
            timer.spec.timezone with
        | none => none
        | some (.ok next) =>
            some (state.setNextRun timerId next)
        | some (.error _) =>
            some (state.setNextRun timerId none)

/- Store a timer and its next run. -/
def putTimer
    (spec : DistributedTimerSpec)
    (nextRunAt : Option DateTime) :
    PersistedStateMachine :=
  let state :=
    { state with
      timers := state.timers.insert spec.id
        { spec := spec
          state := .scheduled
          fencingToken := 0 } }
  let state := state.setNextRun spec.id nextRunAt
  state.pushHistory
    (.timerCreated spec.id (state.timerTenant spec.id))

/- Give a run to the worker that claims it. -/
def startActive
    (active : PersistedActiveRun) : PersistedStateMachine :=
  let state := state.setToken active.timerId .running
    active.fencingToken
  let state := state.takePending active.runId
  let state :=
    { state with
      activeRuns :=
        state.activeRuns.insert active.runId active }
  state.pushHistory (.runClaimed (state.runRecord active))

/- A claim is ignored while its timer has an active run. -/
def claimRun
    (active : PersistedActiveRun) : PersistedStateMachine :=
  if state.hasActive active.timerId then
    state
  else
    state.startActive active

/- The active run, when the worker and token are its own. -/
def ownedRun
    (runId : RunId)
    (workerId : String)
    (fencingToken : UInt64) :
    Option PersistedActiveRun :=
  (state.activeRuns[runId]?).filter fun active =>
    active.workerId == workerId &&
      active.fencingToken == fencingToken

/- End a run that its worker completed. -/
def completeActive
    (cal : Calendar)
    (runId : RunId)
    (workerId : String)
    (active : PersistedActiveRun)
    (completedAt : DateTime) :
    Option PersistedStateMachine := do
  let state := state.removeActive runId
  let state := state.setState active.timerId .scheduled
  let state ← state.rescheduleTimer cal active.timerId
    completedAt
  return state.pushHistory (.runSucceeded
    { state.runRecord active with
      runId := runId
      workerId := workerId })

/- End a run that its worker failed. -/
def failActive
    (runId : RunId)
    (workerId : String)
    (active : PersistedActiveRun)
    (error : String) : PersistedStateMachine :=
  let state := state.removeActive runId
  let state := state.setState active.timerId .dead
  state.pushHistory (.runFailed
    { state.runRecord active with
      runId := runId
      workerId := workerId }
    error)

/- End a run whose lease has run out. -/
def expireActive
    (runId : RunId)
    (active : PersistedActiveRun)
    (replacement : Option WorkerRun) :
    PersistedStateMachine :=
  let state := state.removeActive runId
  let state := state.pushHistory
    (.runLeaseExpired (state.runRecord active))
  match replacement with
  | none => state.setState active.timerId .dead
  | some run =>
      let state := state.setToken run.timer .retrying
        run.fencingToken
      { state with pending := state.pending ++ [run] }

end PersistedStateMachine

/- Apply a committed command. -/
def applyKronCommand
    (cal : Calendar)
    (state : PersistedStateMachine)
    (command : RaftCommand) :
    Option PersistedStateMachine :=
  match command with
  | .createTimer spec nextRunAt =>
      some (state.putTimer spec nextRunAt)
  | .updateTimer spec nextRunAt =>
      some (state.putTimer spec nextRunAt)
  | .cancelTimer timerId =>
      some ((state.setState timerId .cancelled).setNextRun
        timerId none)
  | .pauseTimer timerId =>
      some ((state.setState timerId .paused).setNextRun
        timerId none)
  | .resumeTimer timerId nextRunAt =>
      some ((state.setState timerId .scheduled).setNextRun
        timerId nextRunAt)
  | .claimRun timerId runId workerId fencingToken attempt
      leaseDeadline =>
      some (state.claimRun
        { timerId := timerId
          runId := runId
          workerId := workerId
          fencingToken := fencingToken
          attempt := attempt
          leaseDeadline := leaseDeadline })
  | .completeRun runId workerId fencingToken completedAt =>
      match state.ownedRun runId workerId fencingToken with
      | none => some state
      | some active =>
          state.completeActive cal runId workerId active
            completedAt
  | .failRun runId workerId fencingToken error _ =>
      match state.ownedRun runId workerId fencingToken with
      | none => some state
      | some active =>
          some (state.failActive runId workerId active
            error)
  | .expireRunLease runId replacement _ =>
      match state.activeRuns[runId]? with
      | none => some state
      | some active =>
          some (state.expireActive runId active replacement)
  | .heartbeatWorker workerId leaseUntil =>
      some { state with
        workers := state.workers.modify? workerId
          fun worker =>
            { worker with leaseUntil := leaseUntil } }
  | .registerWorker workerId tasks leaseUntil =>
      let state :=
        { state with
          workers := state.workers.insert workerId
            { tasks := tasks, leaseUntil := leaseUntil } }
      some (state.pushHistory (.workerRegistered workerId))
  | .unregisterWorker workerId =>
      some { state with
        workers := state.workers.erase workerId }
  | .addNode node =>
      some { state with
        nodes := state.nodes.insert node.nodeId node }
  | .removeNode nodeId =>
      some { state with
        nodes := state.nodes.erase nodeId }

/- Apply a committed log in order. -/
def applyLog
    (cal : Calendar) :
    PersistedStateMachine → List RaftCommand →
      Option PersistedStateMachine :=
  Machine.run (applyKronCommand cal)

end Kron

------------------------------------------------------------
-- Frames
------------------------------------------------------------

namespace Kron

/- The next run that a completion stores for a timer. -/
def PersistedTimer.rescheduledAt
    (cal : Calendar)
    (timer : PersistedTimer)
    (after : DateTime) : Option DateTime :=
  if timer.spec.schedule.isOneShot then
    none
  else
    match timer.spec.schedule.nextRunAfter cal after
        timer.spec.timezone with
    | some (.ok next) => next
    | _ => none

namespace PersistedStateMachine

variable (state : PersistedStateMachine)

@[simp] theorem setState_activeRuns
    (timerId : TimerId)
    (timerState : TimerState) :
    (state.setState timerId timerState).activeRuns =
      state.activeRuns := rfl

@[simp] theorem setState_nextRuns
    (timerId : TimerId)
    (timerState : TimerState) :
    (state.setState timerId timerState).nextRuns =
      state.nextRuns := rfl

@[simp] theorem setState_history
    (timerId : TimerId)
    (timerState : TimerState) :
    (state.setState timerId timerState).history =
      state.history := rfl

@[simp] theorem setToken_activeRuns
    (timerId : TimerId)
    (timerState : TimerState)
    (token : UInt64) :
    (state.setToken timerId timerState token).activeRuns =
      state.activeRuns := rfl

@[simp] theorem setToken_nextRuns
    (timerId : TimerId)
    (timerState : TimerState)
    (token : UInt64) :
    (state.setToken timerId timerState token).nextRuns =
      state.nextRuns := rfl

@[simp] theorem setToken_history
    (timerId : TimerId)
    (timerState : TimerState)
    (token : UInt64) :
    (state.setToken timerId timerState token).history =
      state.history := rfl

@[simp] theorem setNextRun_activeRuns
    (timerId : TimerId)
    (nextRunAt : Option DateTime) :
    (state.setNextRun timerId nextRunAt).activeRuns =
      state.activeRuns := by
  cases nextRunAt <;> rfl

@[simp] theorem setNextRun_timers
    (timerId : TimerId)
    (nextRunAt : Option DateTime) :
    (state.setNextRun timerId nextRunAt).timers =
      state.timers := by
  cases nextRunAt <;> rfl

@[simp] theorem setNextRun_history
    (timerId : TimerId)
    (nextRunAt : Option DateTime) :
    (state.setNextRun timerId nextRunAt).history =
      state.history := by
  cases nextRunAt <;> rfl

/- Lookup of a next run after an update. -/
theorem get_setNextRun
    (timerId t : TimerId)
    (nextRunAt : Option DateTime) :
    (state.setNextRun timerId nextRunAt).nextRuns[t]? =
      if timerId = t then nextRunAt
      else state.nextRuns[t]? := by
  cases nextRunAt with
  | none => exact BTreeMap.get_erase _ _ _
  | some next => exact BTreeMap.get_insert _ _ _ _

@[simp] theorem pushHistory_activeRuns
    (entry : HistoryEntry) :
    (state.pushHistory entry).activeRuns =
      state.activeRuns := rfl

@[simp] theorem pushHistory_timers
    (entry : HistoryEntry) :
    (state.pushHistory entry).timers = state.timers := rfl

@[simp] theorem pushHistory_nextRuns
    (entry : HistoryEntry) :
    (state.pushHistory entry).nextRuns =
      state.nextRuns := rfl

@[simp] theorem pushHistory_history
    (entry : HistoryEntry) :
    (state.pushHistory entry).history =
      state.history ++ [entry] := rfl

@[simp] theorem removeActive_activeRuns
    (runId : RunId) :
    (state.removeActive runId).activeRuns =
      state.activeRuns.erase runId := rfl

@[simp] theorem removeActive_timers
    (runId : RunId) :
    (state.removeActive runId).timers = state.timers := rfl

@[simp] theorem removeActive_nextRuns
    (runId : RunId) :
    (state.removeActive runId).nextRuns =
      state.nextRuns := rfl

@[simp] theorem removeActive_history
    (runId : RunId) :
    (state.removeActive runId).history =
      state.history := rfl

/- Lookup of a timer after its state is set. -/
theorem get_setState
    (timerId t : TimerId)
    (timerState : TimerState) :
    (state.setState timerId timerState).timers[t]? =
      if timerId = t then
        (state.timers[t]?).map fun timer =>
          { timer with state := timerState }
      else state.timers[t]? :=
  BTreeMap.get_modify? _ _ _ _

/- Lookup of a timer after its token is set. -/
theorem get_setToken
    (timerId t : TimerId)
    (timerState : TimerState)
    (token : UInt64) :
    (state.setToken timerId timerState token).timers[t]? =
      if timerId = t then
        (state.timers[t]?).map fun timer =>
          { timer with
            state := timerState
            fencingToken := token }
      else state.timers[t]? :=
  BTreeMap.get_modify? _ _ _ _

/- The tenant of a timer depends on the timers only. -/
theorem timerTenant_congr
    {state state' : PersistedStateMachine}
    {timerId : TimerId}
    (hSame :
      (state'.timers[timerId]?).map PersistedTimer.spec =
        (state.timers[timerId]?).map PersistedTimer.spec) :
    state'.timerTenant timerId =
      state.timerTenant timerId := by
  have hBind :
      ∀ s : PersistedStateMachine,
        s.timerTenant timerId =
          ((s.timers[timerId]?).map PersistedTimer.spec).bind
            DistributedTimerSpec.tenantId := by
    intro s
    unfold timerTenant
    cases s.timers[timerId]? <;> rfl
  rw [hBind, hBind, hSame]

@[simp] theorem timerTenant_setState
    (timerId t : TimerId)
    (timerState : TimerState) :
    (state.setState timerId timerState).timerTenant t =
      state.timerTenant t := by
  apply timerTenant_congr
  rw [get_setState]
  by_cases hEq : timerId = t
  · simp [hEq, Function.comp_def]
  · simp [hEq]

@[simp] theorem timerTenant_setToken
    (timerId t : TimerId)
    (timerState : TimerState)
    (token : UInt64) :
    (state.setToken timerId timerState token).timerTenant t =
      state.timerTenant t := by
  apply timerTenant_congr
  rw [get_setToken]
  by_cases hEq : timerId = t
  · simp [hEq, Function.comp_def]
  · simp [hEq]

@[simp] theorem timerTenant_setNextRun
    (timerId t : TimerId)
    (nextRunAt : Option DateTime) :
    (state.setNextRun timerId nextRunAt).timerTenant t =
      state.timerTenant t := by
  simp [timerTenant]

@[simp] theorem timerTenant_removeActive
    (runId : RunId)
    (t : TimerId) :
    (state.removeActive runId).timerTenant t =
      state.timerTenant t := rfl

/- An active run of a timer is listed by some run id. -/
theorem hasActive_iff
    (timerId : TimerId) :
    state.hasActive timerId = true ↔
      ∃ (runId : RunId) (active : PersistedActiveRun),
        state.activeRuns[runId]? = some active ∧
          active.timerId = timerId := by
  unfold hasActive
  rw [List.any_eq_true]
  constructor
  · rintro ⟨active, hMem, hTimer⟩
    rcases (BTreeMap.mem_vals_iff _ _).mp hMem with
      ⟨runId, hGet⟩
    exact ⟨runId, active, hGet, by simpa using hTimer⟩
  · rintro ⟨runId, active, hGet, hTimer⟩
    refine ⟨active, ?_, by simpa using hTimer⟩
    exact (BTreeMap.mem_vals_iff _ _).mpr ⟨runId, hGet⟩

/- An owned run is active under its worker and token. -/
theorem ownedRun_eq_some
    {runId : RunId}
    {workerId : String}
    {fencingToken : UInt64}
    {active : PersistedActiveRun}
    (hOwned :
      state.ownedRun runId workerId fencingToken =
        some active) :
    state.activeRuns[runId]? = some active ∧
      active.workerId = workerId ∧
        active.fencingToken = fencingToken := by
  unfold ownedRun at hOwned
  rw [Option.filter_eq_some_iff] at hOwned
  simpa using hOwned

/-
  A reschedule sets the next run of a stored timer and leaves
  the state alone otherwise.
-/
theorem rescheduleTimer_eq_some
    {cal : Calendar}
    {timerId : TimerId}
    {after : DateTime}
    {state' : PersistedStateMachine}
    (hSome :
      state.rescheduleTimer cal timerId after =
        some state') :
    (state.timers[timerId]? = none ∧ state' = state) ∨
      ∃ timer,
        state.timers[timerId]? = some timer ∧
          state' = state.setNextRun timerId
            (timer.rescheduledAt cal after) := by
  unfold rescheduleTimer at hSome
  cases hTimer : state.timers[timerId]? with
  | none =>
      rw [hTimer] at hSome
      exact .inl ⟨rfl, (Option.some.inj hSome).symm⟩
  | some timer =>
      rw [hTimer] at hSome
      refine .inr ⟨timer, rfl, ?_⟩
      unfold PersistedTimer.rescheduledAt
      by_cases hShot : timer.spec.schedule.isOneShot
      · simp only [hShot, if_true] at hSome ⊢
        exact (Option.some.inj hSome).symm
      · simp only [hShot] at hSome ⊢
        cases hNext :
            timer.spec.schedule.nextRunAfter cal after
              timer.spec.timezone with
        | none => simp [hNext] at hSome
        | some result =>
            cases result with
            | error e =>
                simp only [hNext] at hSome
                exact (Option.some.inj hSome).symm
            | ok next =>
                simp only [hNext] at hSome
                exact (Option.some.inj hSome).symm

/-
  A completion removes the run, sets its timer scheduled,
  moves the next run and records the success.
-/
theorem completeActive_eq_some
    {cal : Calendar}
    {runId : RunId}
    {workerId : String}
    {active : PersistedActiveRun}
    {completedAt : DateTime}
    {state' : PersistedStateMachine}
    (hSome :
      state.completeActive cal runId workerId active
        completedAt = some state') :
    ∃ next,
      ((state.removeActive runId).setState active.timerId
        .scheduled).rescheduleTimer cal active.timerId
          completedAt = some next ∧
        state' = next.pushHistory (.runSucceeded
          { state.runRecord active with
            runId := runId
            workerId := workerId }) := by
  unfold completeActive at hSome
  simp only [Option.bind_eq_bind,
    Option.bind_eq_some_iff] at hSome
  rcases hSome with ⟨next, hNext, hEq⟩
  refine ⟨next, hNext, ?_⟩
  have hTenant :
      next.timerTenant active.timerId =
        state.timerTenant active.timerId := by
    rcases rescheduleTimer_eq_some _ hNext with
      ⟨_, rfl⟩ | ⟨_, _, rfl⟩
    · simp
    · simp
  rw [← Option.some.inj hEq]
  simp only [runRecord, hTenant]

theorem completeActive_activeRuns
    {cal : Calendar}
    {runId : RunId}
    {workerId : String}
    {active : PersistedActiveRun}
    {completedAt : DateTime}
    {state' : PersistedStateMachine}
    (hSome :
      state.completeActive cal runId workerId active
        completedAt = some state') :
    state'.activeRuns = state.activeRuns.erase runId := by
  rcases state.completeActive_eq_some hSome with
    ⟨next, hNext, rfl⟩
  rcases rescheduleTimer_eq_some _ hNext with
    ⟨_, rfl⟩ | ⟨_, _, rfl⟩
  · rfl
  · simp

theorem completeActive_history
    {cal : Calendar}
    {runId : RunId}
    {workerId : String}
    {active : PersistedActiveRun}
    {completedAt : DateTime}
    {state' : PersistedStateMachine}
    (hSome :
      state.completeActive cal runId workerId active
        completedAt = some state') :
    state'.history =
      state.history ++
        [.runSucceeded
          { state.runRecord active with
            runId := runId
            workerId := workerId }] := by
  rcases state.completeActive_eq_some hSome with
    ⟨next, hNext, rfl⟩
  rcases rescheduleTimer_eq_some _ hNext with
    ⟨_, rfl⟩ | ⟨_, _, rfl⟩
  · rfl
  · simp

@[simp] theorem startActive_activeRuns
    (active : PersistedActiveRun) :
    (state.startActive active).activeRuns =
      state.activeRuns.insert active.runId active := rfl

@[simp] theorem startActive_history
    (active : PersistedActiveRun) :
    (state.startActive active).history =
      state.history ++
        [.runClaimed (state.runRecord active)] := by
  have hTenant :=
    state.timerTenant_setToken active.timerId active.timerId
      .running active.fencingToken
  unfold startActive runRecord
  simp only [pushHistory_history, takePending,
    setToken_history]
  unfold timerTenant at hTenant ⊢
  rw [hTenant]

@[simp] theorem failActive_activeRuns
    (runId : RunId)
    (workerId : String)
    (active : PersistedActiveRun)
    (error : String) :
    (state.failActive runId workerId active
      error).activeRuns = state.activeRuns.erase runId := rfl

@[simp] theorem failActive_history
    (runId : RunId)
    (workerId : String)
    (active : PersistedActiveRun)
    (error : String) :
    (state.failActive runId workerId active error).history =
      state.history ++
        [.runFailed
          { state.runRecord active with
            runId := runId
            workerId := workerId }
          error] := by
  simp [failActive, runRecord]

@[simp] theorem expireActive_activeRuns
    (runId : RunId)
    (active : PersistedActiveRun)
    (replacement : Option WorkerRun) :
    (state.expireActive runId active
      replacement).activeRuns =
        state.activeRuns.erase runId := by
  cases replacement <;> rfl

@[simp] theorem expireActive_history
    (runId : RunId)
    (active : PersistedActiveRun)
    (replacement : Option WorkerRun) :
    (state.expireActive runId active replacement).history =
      state.history ++
        [.runLeaseExpired (state.runRecord active)] := by
  cases replacement <;> rfl

@[simp] theorem putTimer_history
    (spec : DistributedTimerSpec)
    (nextRunAt : Option DateTime) :
    (state.putTimer spec nextRunAt).history =
      state.history ++
        [.timerCreated spec.id spec.tenantId] := by
  simp [putTimer, timerTenant]

@[simp] theorem putTimer_activeRuns
    (spec : DistributedTimerSpec)
    (nextRunAt : Option DateTime) :
    (state.putTimer spec nextRunAt).activeRuns =
      state.activeRuns := by
  simp [putTimer]

end PersistedStateMachine

end Kron

------------------------------------------------------------
-- Lookups Of One Timer
------------------------------------------------------------

namespace Kron

namespace PersistedStateMachine

variable (state : PersistedStateMachine)

/- A new timer has its spec and the token zero. -/
theorem get_putTimer
    (spec : DistributedTimerSpec)
    (nextRunAt : Option DateTime)
    (t : TimerId) :
    (state.putTimer spec nextRunAt).timers[t]? =
      if spec.id = t then
        some
          { spec := spec
            state := .scheduled
            fencingToken := 0 }
      else state.timers[t]? := by
  simp only [putTimer, pushHistory_timers,
    setNextRun_timers]
  exact BTreeMap.get_insert _ _ _ _

theorem nextRuns_putTimer
    (spec : DistributedTimerSpec)
    (nextRunAt : Option DateTime)
    (t : TimerId) :
    (state.putTimer spec nextRunAt).nextRuns[t]? =
      if spec.id = t then nextRunAt
      else state.nextRuns[t]? := by
  simp only [putTimer, pushHistory_nextRuns]
  exact get_setNextRun _ _ _ _

/- A started run sets its timer running under its token. -/
theorem get_startActive
    (active : PersistedActiveRun)
    (t : TimerId) :
    (state.startActive active).timers[t]? =
      if active.timerId = t then
        (state.timers[t]?).map fun timer =>
          { timer with
            state := .running
            fencingToken := active.fencingToken }
      else state.timers[t]? :=
  state.get_setToken active.timerId t .running
    active.fencingToken

@[simp] theorem startActive_nextRuns
    (active : PersistedActiveRun) :
    (state.startActive active).nextRuns =
      state.nextRuns := rfl

/- A failed run sets its timer dead. -/
theorem get_failActive
    (runId : RunId)
    (workerId : String)
    (active : PersistedActiveRun)
    (error : String)
    (t : TimerId) :
    (state.failActive runId workerId active
        error).timers[t]? =
      if active.timerId = t then
        (state.timers[t]?).map fun timer =>
          { timer with state := .dead }
      else state.timers[t]? :=
  state.get_setState active.timerId t .dead

@[simp] theorem failActive_nextRuns
    (runId : RunId)
    (workerId : String)
    (active : PersistedActiveRun)
    (error : String) :
    (state.failActive runId workerId active
      error).nextRuns = state.nextRuns := rfl

/- An expired run sets a timer retrying, or its own dead. -/
theorem get_expireActive
    (runId : RunId)
    (active : PersistedActiveRun)
    (replacement : Option WorkerRun)
    (t : TimerId) :
    (state.expireActive runId active
        replacement).timers[t]? =
      match replacement with
      | none =>
          if active.timerId = t then
            (state.timers[t]?).map fun timer =>
              { timer with state := .dead }
          else state.timers[t]?
      | some run =>
          if run.timer = t then
            (state.timers[t]?).map fun timer =>
              { timer with
                state := .retrying
                fencingToken := run.fencingToken }
          else state.timers[t]? := by
  cases replacement with
  | none => exact state.get_setState active.timerId t .dead
  | some run =>
      exact state.get_setToken run.timer t .retrying
        run.fencingToken

@[simp] theorem expireActive_nextRuns
    (runId : RunId)
    (active : PersistedActiveRun)
    (replacement : Option WorkerRun) :
    (state.expireActive runId active
      replacement).nextRuns = state.nextRuns := by
  cases replacement <;> rfl

/- A completed run sets its timer scheduled. -/
theorem get_completeActive
    {cal : Calendar}
    {runId : RunId}
    {workerId : String}
    {active : PersistedActiveRun}
    {completedAt : DateTime}
    {state' : PersistedStateMachine}
    (hSome :
      state.completeActive cal runId workerId active
        completedAt = some state')
    (t : TimerId) :
    state'.timers[t]? =
      if active.timerId = t then
        (state.timers[t]?).map fun timer =>
          { timer with state := .scheduled }
      else state.timers[t]? := by
  have hSet :=
    (state.removeActive runId).get_setState active.timerId t
      .scheduled
  rcases state.completeActive_eq_some hSome with
    ⟨next, hNext, rfl⟩
  rcases rescheduleTimer_eq_some _ hNext with
    ⟨_, rfl⟩ | ⟨_, _, rfl⟩
  · simpa using hSet
  · simpa using hSet

/- A completed run moves the next run of its timer only. -/
theorem nextRuns_completeActive
    {cal : Calendar}
    {runId : RunId}
    {workerId : String}
    {active : PersistedActiveRun}
    {completedAt : DateTime}
    {state' : PersistedStateMachine}
    (hSome :
      state.completeActive cal runId workerId active
        completedAt = some state')
    (t : TimerId) :
    state'.nextRuns[t]? =
      match state.timers[t]? with
      | none => state.nextRuns[t]?
      | some timer =>
          if active.timerId = t then
            timer.rescheduledAt cal completedAt
          else
            state.nextRuns[t]? := by
  rcases state.completeActive_eq_some hSome with
    ⟨next, hNext, rfl⟩
  rcases rescheduleTimer_eq_some _ hNext with
    ⟨hNone, rfl⟩ | ⟨timer, hStored, rfl⟩
  · rw [get_setState, if_pos rfl, removeActive_timers,
      Option.map_eq_none_iff] at hNone
    by_cases hTimer : active.timerId = t
    · subst hTimer
      simp [hNone]
    · cases state.timers[t]? <;> simp [hTimer]
  · rw [get_setState, if_pos rfl, removeActive_timers,
      Option.map_eq_some_iff] at hStored
    rcases hStored with ⟨stored, hGet, rfl⟩
    rw [pushHistory_nextRuns, get_setNextRun]
    by_cases hTimer : active.timerId = t
    · subst hTimer
      simp [hGet, PersistedTimer.rescheduledAt]
    · cases state.timers[t]? <;> simp [hTimer]

end PersistedStateMachine

end Kron

------------------------------------------------------------
-- Inversion
------------------------------------------------------------

namespace Kron

variable {cal : Calendar}
variable {state state' : PersistedStateMachine}

/- A claim starts a run of an idle timer or is ignored. -/
theorem applyKronCommand_claimRun
    {timerId : TimerId}
    {runId : RunId}
    {workerId : String}
    {token : UInt64}
    {attempt : UInt32}
    {deadline : DateTime}
    (hApply :
      applyKronCommand cal state
        (.claimRun timerId runId workerId token attempt
          deadline) = some state') :
    (state.hasActive timerId = true ∧ state' = state) ∨
      (state.hasActive timerId = false ∧
        state' = state.startActive
          { timerId := timerId
            runId := runId
            workerId := workerId
            fencingToken := token
            attempt := attempt
            leaseDeadline := deadline }) := by
  cases hApply
  unfold PersistedStateMachine.claimRun
  cases hActive : state.hasActive timerId with
  | true => exact .inl ⟨rfl, by simp⟩
  | false => exact .inr ⟨rfl, by simp⟩

/- A completion ends an owned run or is ignored. -/
theorem applyKronCommand_completeRun
    {runId : RunId}
    {workerId : String}
    {token : UInt64}
    {completedAt : DateTime}
    (hApply :
      applyKronCommand cal state
        (.completeRun runId workerId token completedAt) =
          some state') :
    (state.ownedRun runId workerId token = none ∧
        state' = state) ∨
      ∃ active,
        state.ownedRun runId workerId token = some active ∧
          state.completeActive cal runId workerId active
            completedAt = some state' := by
  unfold applyKronCommand at hApply
  cases hOwned : state.ownedRun runId workerId token with
  | none =>
      simp only [hOwned] at hApply
      exact .inl ⟨rfl, (Option.some.inj hApply).symm⟩
  | some active =>
      simp only [hOwned] at hApply
      exact .inr ⟨active, rfl, hApply⟩

/- A failure ends an owned run or is ignored. -/
theorem applyKronCommand_failRun
    {runId : RunId}
    {workerId : String}
    {token : UInt64}
    {error : String}
    {failedAt : DateTime}
    (hApply :
      applyKronCommand cal state
        (.failRun runId workerId token error failedAt) =
          some state') :
    (state.ownedRun runId workerId token = none ∧
        state' = state) ∨
      ∃ active,
        state.ownedRun runId workerId token = some active ∧
          state' = state.failActive runId workerId active
            error := by
  unfold applyKronCommand at hApply
  cases hOwned : state.ownedRun runId workerId token with
  | none =>
      simp only [hOwned] at hApply
      exact .inl ⟨rfl, (Option.some.inj hApply).symm⟩
  | some active =>
      simp only [hOwned] at hApply
      exact .inr
        ⟨active, rfl, (Option.some.inj hApply).symm⟩

/- An expiry ends an active run or is ignored. -/
theorem applyKronCommand_expireRunLease
    {runId : RunId}
    {replacement : Option WorkerRun}
    {expiredAt : DateTime}
    (hApply :
      applyKronCommand cal state
        (.expireRunLease runId replacement expiredAt) =
          some state') :
    (state.activeRuns[runId]? = none ∧ state' = state) ∨
      ∃ active,
        state.activeRuns[runId]? = some active ∧
          state' = state.expireActive runId active
            replacement := by
  unfold applyKronCommand at hApply
  cases hGet : state.activeRuns[runId]? with
  | none =>
      simp only [hGet] at hApply
      exact .inl ⟨rfl, (Option.some.inj hApply).symm⟩
  | some active =>
      simp only [hGet] at hApply
      exact .inr
        ⟨active, rfl, (Option.some.inj hApply).symm⟩

end Kron

------------------------------------------------------------
-- Runs Taken And Ended
------------------------------------------------------------

namespace Kron

/- What a command does to the active runs. -/
inductive RunEffect where
| keep
| claimed (active : PersistedActiveRun)
| ended (runId : RunId) (active : PersistedActiveRun)
deriving DecidableEq, Repr

namespace RunEffect

/- The active runs after the effect. -/
def activeRuns
    (effect : RunEffect)
    (runs : BTreeMap RunId PersistedActiveRun) :
    BTreeMap RunId PersistedActiveRun :=
  match effect with
  | .keep => runs
  | .claimed active => runs.insert active.runId active
  | .ended runId _ => runs.erase runId

end RunEffect

/- The end of the run a command names, if it is active. -/
def endOf
    (runId : RunId) :
    Option PersistedActiveRun → RunEffect
| none => .keep
| some active => .ended runId active

/- What a command does to the active runs of a state. -/
def runEffect
    (state : PersistedStateMachine) :
    RaftCommand → RunEffect
| .claimRun timerId runId workerId fencingToken attempt
    leaseDeadline =>
    if state.hasActive timerId then
      .keep
    else
      .claimed
        { timerId := timerId
          runId := runId
          workerId := workerId
          fencingToken := fencingToken
          attempt := attempt
          leaseDeadline := leaseDeadline }
| .completeRun runId workerId fencingToken _ =>
    endOf runId (state.ownedRun runId workerId fencingToken)
| .failRun runId workerId fencingToken _ _ =>
    endOf runId (state.ownedRun runId workerId fencingToken)
| .expireRunLease runId _ _ =>
    endOf runId state.activeRuns[runId]?
| _ => .keep

/- An ended run was active under the id that ended it. -/
theorem endOf_eq_ended
    {runId runId' : RunId}
    {found : Option PersistedActiveRun}
    {active : PersistedActiveRun}
    (hEnd : endOf runId found = .ended runId' active) :
    runId = runId' ∧ found = some active := by
  cases found with
  | none => cases hEnd
  | some active' =>
      cases hEnd
      exact ⟨rfl, rfl⟩

theorem endOf_ne_claimed
    {runId : RunId}
    {found : Option PersistedActiveRun}
    {active : PersistedActiveRun} :
    endOf runId found ≠ .claimed active := by
  cases found <;> simp [endOf]

/- Only a claim of an idle timer takes a run. -/
theorem runEffect_eq_claimed
    {state : PersistedStateMachine}
    {command : RaftCommand}
    {active : PersistedActiveRun}
    (hEffect : runEffect state command = .claimed active) :
    command =
        .claimRun active.timerId active.runId
          active.workerId active.fencingToken active.attempt
          active.leaseDeadline ∧
      state.hasActive active.timerId = false := by
  cases command with
  | claimRun timerId runId workerId token attempt deadline =>
      unfold runEffect at hEffect
      cases hActive : state.hasActive timerId with
      | true => simp [hActive] at hEffect
      | false =>
          simp only [hActive] at hEffect
          cases hEffect
          exact ⟨rfl, hActive⟩
  | completeRun => exact absurd hEffect endOf_ne_claimed
  | failRun => exact absurd hEffect endOf_ne_claimed
  | expireRunLease => exact absurd hEffect endOf_ne_claimed
  | _ => cases hEffect

/- Only an active run ends. -/
theorem runEffect_eq_ended
    {state : PersistedStateMachine}
    {command : RaftCommand}
    {runId : RunId}
    {active : PersistedActiveRun}
    (hEffect :
      runEffect state command = .ended runId active) :
    state.activeRuns[runId]? = some active := by
  cases command with
  | claimRun timerId =>
      unfold runEffect at hEffect
      by_cases hActive : state.hasActive timerId <;>
        simp [hActive] at hEffect
  | completeRun =>
      rcases endOf_eq_ended hEffect with ⟨rfl, hOwned⟩
      exact (state.ownedRun_eq_some hOwned).1
  | failRun =>
      rcases endOf_eq_ended hEffect with ⟨rfl, hOwned⟩
      exact (state.ownedRun_eq_some hOwned).1
  | expireRunLease =>
      rcases endOf_eq_ended hEffect with ⟨rfl, hGet⟩
      exact hGet
  | _ => cases hEffect

/- The active runs change as the effect says. -/
theorem applyKronCommand_activeRuns
    {cal : Calendar}
    {state state' : PersistedStateMachine}
    {command : RaftCommand}
    (hApply :
      applyKronCommand cal state command = some state') :
    state'.activeRuns =
      (runEffect state command).activeRuns
        state.activeRuns := by
  cases command with
  | claimRun =>
      rcases applyKronCommand_claimRun hApply with
        ⟨hActive, rfl⟩ | ⟨hActive, rfl⟩
      · simp [runEffect, hActive, RunEffect.activeRuns]
      · simp [runEffect, hActive, RunEffect.activeRuns]
  | completeRun =>
      rcases applyKronCommand_completeRun hApply with
        ⟨hOwned, rfl⟩ | ⟨active, hOwned, hComplete⟩
      · simp [runEffect, hOwned, endOf,
          RunEffect.activeRuns]
      · rw [state.completeActive_activeRuns hComplete]
        simp [runEffect, hOwned, endOf,
          RunEffect.activeRuns]
  | failRun =>
      rcases applyKronCommand_failRun hApply with
        ⟨hOwned, rfl⟩ | ⟨active, hOwned, rfl⟩
      · simp [runEffect, hOwned, endOf,
          RunEffect.activeRuns]
      · simp [runEffect, hOwned, endOf,
          RunEffect.activeRuns]
  | expireRunLease =>
      rcases applyKronCommand_expireRunLease hApply with
        ⟨hGet, rfl⟩ | ⟨active, hGet, rfl⟩
      · simp [runEffect, hGet, endOf, RunEffect.activeRuns]
      · simp [runEffect, hGet, endOf, RunEffect.activeRuns]
  | createTimer spec nextRunAt =>
      cases hApply
      simp [runEffect, RunEffect.activeRuns]
  | updateTimer spec nextRunAt =>
      cases hApply
      simp [runEffect, RunEffect.activeRuns]
  | resumeTimer timerId nextRunAt =>
      cases hApply
      simp [runEffect, RunEffect.activeRuns]
  | _ =>
      cases hApply
      rfl

/- An active run was active before, or a claim took it. -/
theorem activeRun_cases
    {cal : Calendar}
    {state state' : PersistedStateMachine}
    {command : RaftCommand}
    {runId : RunId}
    {active : PersistedActiveRun}
    (hApply :
      applyKronCommand cal state command = some state')
    (hGet : state'.activeRuns[runId]? = some active) :
    state.activeRuns[runId]? = some active ∨
      active.runId = runId ∧
        command =
          .claimRun active.timerId active.runId
            active.workerId active.fencingToken
            active.attempt active.leaseDeadline := by
  rw [applyKronCommand_activeRuns hApply] at hGet
  cases hEffect : runEffect state command with
  | keep =>
      rw [hEffect] at hGet
      exact Or.inl hGet
  | ended gone active₀ =>
      rw [hEffect, RunEffect.activeRuns,
        BTreeMap.get_erase] at hGet
      split at hGet
      · cases hGet
      · exact Or.inl hGet
  | claimed taken =>
      rw [hEffect, RunEffect.activeRuns,
        BTreeMap.get_insert] at hGet
      split at hGet
      · rename_i hKey
        cases hGet
        exact Or.inr ⟨hKey, (runEffect_eq_claimed hEffect).1⟩
      · exact Or.inl hGet

end Kron
