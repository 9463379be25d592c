import Kron.Server.Cluster

/-
  The state of the quorum server: its timers, its queue, the
  runs that workers hold, and its own list of peers.

  Applying a command computes next runs, which may panic in
  date arithmetic, and sets leases against a monotonic clock,
  which may panic too; a panic is `none`. The wall-clock time
  of a history entry is left out.

  Key definitions include:
    * `Kron.Alpha.Instant`
    * `Kron.Alpha.ClusterState`
    * `Kron.Alpha.applyCreateTimer`
    * `Kron.Alpha.rescheduleTimer`
    * `Kron.Alpha.applyCommand`
    * `Kron.Alpha.summaryFor`
    * `Kron.Alpha.validateActiveRun`

  Key theorems include:
    * `Kron.Alpha.validateActiveRun_eq_ok`
    * `Kron.Alpha.applyCreateTimer_eq_ok`
    * `Kron.Alpha.rescheduleTimer_eq_some`
-/

------------------------------------------------------------
-- The Monotonic Clock
------------------------------------------------------------

namespace Kron

namespace Alpha

/- Nanoseconds on the monotonic clock. -/
abbrev Instant :=
  Nat

/-
  `instant + Duration::from_secs(seconds)`, which panics when
  the seconds leave the range of `i64`.
-/
def addInstant
    (instant : Instant)
    (seconds : UInt64) : Option Instant :=
  if instant / 1000000000 + seconds.toNat < 2 ^ 63 then
    some (instant + seconds.toNat * 1000000000)
  else
    none

/- How long a worker and its run are leased, in seconds. -/
def leaseSeconds : UInt64 :=
  30

/- What the clocks show when a section runs. -/
structure Readings where
  now : DateTime
  instant : Instant
deriving DecidableEq, Repr

end Alpha

end Kron

------------------------------------------------------------
-- The State
------------------------------------------------------------

namespace Kron

namespace Alpha

structure ClusterConfig where
  nodeId : String
  httpAddr : String
  raftAddr : String
  leaderId : String
  peers : List NodeInfo
deriving DecidableEq, Repr

structure WorkerInfo where
  tasks : List String
  leaseUntil : Instant
deriving DecidableEq, Repr

/- A run that a worker holds. -/
abbrev ActiveRun :=
  PersistedActiveRun

/-
  The objects pushed to the history, by their `type`. Only
  an end of a run that is read back from the log names the
  worker.
-/
inductive HistoryEntry where
| timerCreated (timer : TimerId)
| runClaimed (timer : TimerId) (runId : RunId)
    (workerId : String) (fencingToken : UInt64)
| runSucceeded (timer : TimerId) (runId : RunId)
    (workerId : Option String) (fencingToken : UInt64)
| runFailed (timer : TimerId) (runId : RunId)
    (workerId : Option String) (error : String)
    (fencingToken : UInt64)
| runLeaseExpired (timer : TimerId) (runId : RunId)
    (workerId : String) (fencingToken : UInt64)
| runDead (timer : TimerId) (runId : RunId)
| workerRegistered (workerId : String)
| workerLost (workerId : String)
deriving DecidableEq, Repr

namespace HistoryEntry

/- The field `type`. -/
def type : HistoryEntry → String
| .timerCreated _ => "TIMER_CREATED"
| .runClaimed _ _ _ _ => "RUN_CLAIMED"
| .runSucceeded _ _ _ _ => "RUN_SUCCEEDED"
| .runFailed _ _ _ _ _ => "RUN_FAILED"
| .runLeaseExpired _ _ _ _ => "RUN_LEASE_EXPIRED"
| .runDead _ _ => "RUN_DEAD"
| .workerRegistered _ => "WORKER_REGISTERED"
| .workerLost _ => "WORKER_LOST"

/- The field `timer`. -/
def timer? : HistoryEntry → Option TimerId
| .timerCreated timer => some timer
| .runClaimed timer _ _ _ => some timer
| .runSucceeded timer _ _ _ => some timer
| .runFailed timer _ _ _ _ => some timer
| .runLeaseExpired timer _ _ _ => some timer
| .runDead timer _ => some timer
| .workerRegistered _ => none
| .workerLost _ => none

end HistoryEntry

structure ClusterState where
  config : ClusterConfig
  timers : BTreeMap TimerId DistributedTimerSpec
  states : BTreeMap TimerId TimerState
  nextRuns : BTreeMap TimerId DateTime
  history : List HistoryEntry
  workers : BTreeMap String WorkerInfo
  pending : List WorkerRun
  activeRuns : BTreeMap RunId ActiveRun
  fencing : BTreeMap TimerId UInt64
  leader : Bool
  shuttingDown : Bool
deriving DecidableEq

namespace ClusterState

def new
    (config : ClusterConfig) : ClusterState where
  config := config
  timers := ∅
  states := ∅
  nextRuns := ∅
  history := []
  workers := ∅
  pending := []
  activeRuns := ∅
  fencing := ∅
  leader := config.leaderId == config.nodeId
  shuttingDown := false

variable (state : ClusterState)

/- Set the lifecycle state of a timer, known or not. -/
def setState
    (timerId : TimerId)
    (timerState : TimerState) : ClusterState :=
  { state with
    states := state.states.insert timerId timerState }

def clearNextRun
    (timerId : TimerId) : ClusterState :=
  { state with nextRuns := state.nextRuns.erase timerId }

def setNextRun
    (timerId : TimerId)
    (next : DateTime) : ClusterState :=
  { state with
    nextRuns := state.nextRuns.insert timerId next }

def pushHistory
    (entry : HistoryEntry) : ClusterState :=
  { state with history := state.history ++ [entry] }

def removeActive
    (runId : RunId) : ClusterState :=
  { state with activeRuns := state.activeRuns.erase runId }

/- Whether some active run belongs to the timer. -/
def hasActive
    (timerId : TimerId) : Bool :=
  state.activeRuns.vals.any fun run => run.timerId == timerId

/- The token that was last given out for a timer. -/
def token
    (timerId : TimerId) : UInt64 :=
  (state.fencing[timerId]?).getD 0

def setToken
    (timerId : TimerId)
    (fencingToken : UInt64) : ClusterState :=
  { state with
    fencing := state.fencing.insert timerId fencingToken }

/- Store a worker with its lease. -/
def putWorker
    (workerId : String)
    (worker : WorkerInfo) : ClusterState :=
  { state with
    workers := state.workers.insert workerId worker }

/- Give a run to a worker. -/
def startActive
    (active : ActiveRun) : ClusterState :=
  let state :=
    { state with
      activeRuns :=
        state.activeRuns.insert active.runId active }
  let state := state.setState active.timerId .running
  state.pushHistory
    (.runClaimed active.timerId active.runId active.workerId
      active.fencingToken)

/- Whether a caller's worker and token are those of a run. -/
def owns
    (runId : RunId)
    (workerId : String)
    (fencingToken : UInt64) : Option ActiveRun :=
  (state.activeRuns[runId]?).filter fun active =>
    active.workerId == workerId &&
      active.fencingToken == fencingToken

end ClusterState

end Alpha

end Kron

------------------------------------------------------------
-- Applying A Command
------------------------------------------------------------

namespace Kron

namespace Alpha

open ClusterState

variable (cal : Calendar)

/-
  Store a timer. An old next run stays where the schedule
  gives none.
-/
def applyCreateTimer
    (state : ClusterState)
    (spec : DistributedTimerSpec)
    (now : DateTime) :
    Option (Except KronError ClusterState) :=
  (spec.schedule.nextRunAfter cal now spec.timezone).map
    fun
    | .error e => .error e
    | .ok next =>
        let state :=
          { state with
            timers := state.timers.insert spec.id spec }
        let state := state.setState spec.id .scheduled
        let state :=
          match next with
          | some next => state.setNextRun spec.id next
          | none => state
        .ok (state.pushHistory (.timerCreated spec.id))

/- The next run of a timer after an instant, if any. -/
def rescheduleTimer
    (state : ClusterState)
    (timerId : TimerId)
    (now : DateTime) : Option ClusterState :=
  match state.timers[timerId]? with
  | none => some state
  | some spec =>
      (spec.schedule.nextRunAfter cal now spec.timezone).map
        fun
        | .ok (some next) => state.setNextRun timerId next
        | _ => state.clearNextRun timerId

/- Apply one command of the log, or of a request. -/
def applyCommand
    (state : ClusterState)
    (command : RaftCommand)
    (clock : Readings) :
    Option (Except KronError ClusterState) :=
  match command with
  | .createTimer spec _ =>
      applyCreateTimer cal state spec clock.now
  | .updateTimer spec _ =>
      applyCreateTimer cal state spec clock.now
  | .cancelTimer timerId =>
      some (.ok
        ((state.setState timerId .cancelled).clearNextRun
          timerId))
  | .pauseTimer timerId =>
      some (.ok
        ((state.setState timerId .paused).clearNextRun
          timerId))
  | .resumeTimer timerId _ =>
      (rescheduleTimer cal (state.setState timerId .scheduled)
        timerId clock.now).map .ok
  | .claimRun timerId runId workerId fencingToken attempt
      leaseDeadline =>
      if state.hasActive timerId then
        some (.ok state)
      else
        some (.ok
          ((state.startActive
            { timerId := timerId
              runId := runId
              workerId := workerId
              fencingToken := fencingToken
              attempt := attempt
              leaseDeadline := leaseDeadline }).setToken
            timerId fencingToken))
  | .completeRun runId workerId fencingToken _ =>
      match state.owns runId workerId fencingToken with
      | none => some (.ok state)
      | some active =>
          let state := state.removeActive runId
          let state := state.setState active.timerId
            .scheduled
          let state := state.pushHistory
            (.runSucceeded active.timerId runId
              (some workerId) active.fencingToken)
          (rescheduleTimer cal state active.timerId
            clock.now).map .ok
  | .failRun runId workerId fencingToken error _ =>
      match state.owns runId workerId fencingToken with
      | none => some (.ok state)
      | some active =>
          let state := state.removeActive runId
          let state := state.setState active.timerId .dead
          some (.ok (state.pushHistory
            (.runFailed active.timerId runId (some workerId)
              error active.fencingToken)))
  | .expireRunLease _ _ _ => some (.ok state)
  | .heartbeatWorker workerId _ =>
      match state.workers[workerId]? with
      | none => some (.ok state)
      | some worker =>
          (addInstant clock.instant leaseSeconds).map
            fun leaseUntil =>
              .ok (state.putWorker workerId
                { worker with leaseUntil := leaseUntil })
  | .registerWorker workerId tasks _ =>
      (addInstant clock.instant leaseSeconds).map
        fun leaseUntil =>
          .ok ((state.putWorker workerId
            { tasks := tasks
              leaseUntil := leaseUntil }).pushHistory
            (.workerRegistered workerId))
  | .unregisterWorker workerId =>
      some (.ok
        { state with workers := state.workers.erase workerId })
  | .addNode node =>
      if node.nodeId = state.config.nodeId ∨
          state.config.peers.any
            (fun peer => peer.nodeId == node.nodeId) then
        some (.ok state)
      else
        some (.ok
          { state with
            config :=
              { state.config with
                peers := state.config.peers ++ [node] } })
  | .removeNode nodeId =>
      some (.ok
        { state with
          config :=
            { state.config with
              peers := state.config.peers.filter
                fun peer => peer.nodeId != nodeId } })

end Alpha

end Kron

------------------------------------------------------------
-- Reading The State
------------------------------------------------------------

namespace Kron

namespace Alpha

/- The type of the last history entry about a timer. -/
def ClusterState.lastStatus
    (state : ClusterState)
    (id : TimerId) : Option String :=
  (state.history.reverse.find? fun entry =>
    entry.timer? == some id).map HistoryEntry.type

def summaryFor
    (state : ClusterState)
    (id : TimerId) : Option DistributedSummary :=
  (state.timers[id]?).map fun spec =>
    { id := id
      tenantId := spec.tenantId
      state := (state.states[id]?).getD .scheduled
      target := spec.target
      nextRunAt := state.nextRuns[id]?
      lastStatus := state.lastStatus id
      fencingToken := state.token id }

/- The active run that a caller may end. -/
def validateActiveRun
    (state : ClusterState)
    (runId : RunId)
    (workerId : String)
    (fencingToken : UInt64) : Except KronError ActiveRun :=
  match state.activeRuns[runId]? with
  | none => .error (.ipcUnavailable "run not active")
  | some active =>
      if active.workerId ≠ workerId then
        .error (.ipcUnavailable "worker is not run owner")
      else if active.fencingToken ≠ fencingToken then
        .error (.ipcUnavailable "stale fencing token")
      else
        .ok active

/- The check accepts exactly the holder of the run. -/
theorem validateActiveRun_eq_ok
    {state : ClusterState}
    {runId : RunId}
    {workerId : String}
    {fencingToken : UInt64}
    {active : ActiveRun} :
    validateActiveRun state runId workerId fencingToken =
        .ok active ↔
      state.owns runId workerId fencingToken =
        some active := by
  unfold validateActiveRun ClusterState.owns
  cases state.activeRuns[runId]? with
  | none => simp
  | some run =>
      by_cases hWorker : run.workerId = workerId
      · by_cases hToken : run.fencingToken = fencingToken
        · simp [hWorker, hToken, Option.filter]
        · simp [hWorker, hToken, Option.filter]
      · simp [hWorker, Option.filter]

end Alpha

end Kron

------------------------------------------------------------
-- What A Command Changes
------------------------------------------------------------

namespace Kron

namespace Alpha

variable {cal : Calendar}
variable {state state' : ClusterState}

/- What storing a timer does, where it succeeds. -/
theorem applyCreateTimer_eq_ok
    {spec : DistributedTimerSpec}
    {now : DateTime}
    (hApply :
      applyCreateTimer cal state spec now =
        some (.ok state')) :
    state' =
      { state with
        timers := state.timers.insert spec.id spec
        states := state.states.insert spec.id .scheduled
        nextRuns := state'.nextRuns
        history :=
          state.history ++ [.timerCreated spec.id] } := by
  unfold applyCreateTimer at hApply
  rcases Option.map_eq_some_iff.mp hApply with
    ⟨result, _, hEq⟩
  cases result with
  | error e => cases hEq
  | ok next =>
      cases next with
      | none =>
          cases hEq
          rfl
      | some next =>
          cases hEq
          rfl

/- Computing a next run changes only the next runs. -/
theorem rescheduleTimer_eq_some
    {timerId : TimerId}
    {now : DateTime}
    (hApply :
      rescheduleTimer cal state timerId now =
        some state') :
    state' = { state with nextRuns := state'.nextRuns } := by
  unfold rescheduleTimer at hApply
  cases hGet : state.timers[timerId]? with
  | none =>
      rw [hGet] at hApply
      cases hApply
      rfl
  | some spec =>
      rw [hGet] at hApply
      rcases Option.map_eq_some_iff.mp hApply with
        ⟨result, _, hEq⟩
      rcases result with e | next
      · cases hEq
        rfl
      · cases next with
        | none =>
            cases hEq
            rfl
        | some next =>
            cases hEq
            rfl

end Alpha

end Kron
