import Kron.Lib.Replicated
import Kron.Server.Ownership

/-
  The server: API calls over the replicated state machine.

  A call reads the applied state of its node and writes
  commands. The write commits at any later time, after any
  number of other commands, or never; a leader that reads an
  old state is a call whose write commits late. A call that
  fails or panics writes nothing.

  Key definitions include:
    * `Kron.PersistedStateMachine.appState`
    * `Kron.tenantMatches`
    * `Kron.createTimer`
    * `Kron.tryClaim`
    * `Kron.validateActiveRun`
    * `Kron.expireActiveLeases`
    * `Kron.Call`
    * `Kron.proposals`
    * `Kron.Cluster`
    * `Kron.Proposes`
    * `Kron.accepted`

  Key theorems include:
    * `Kron.tryClaim_eq_some`
    * `Kron.proposes_of_mem`
-/

------------------------------------------------------------
-- Reading The Applied State
------------------------------------------------------------

namespace Kron

structure DistributedSummary where
  id : String
  tenantId : Option String
  state : TimerState
  target : TimerTarget
  nextRunAt : Option DateTime
  lastStatus : Option String
  fencingToken : UInt64
deriving DecidableEq, Repr

/- What a node shows of its state machine. -/
structure RaftAppState where
  specs : BTreeMap TimerId DistributedTimerSpec
  timers : BTreeMap TimerId DistributedSummary
  history : List HistoryEntry
  pending : List WorkerRun
  activeRuns : BTreeMap RunId PersistedActiveRun
  nodes : BTreeMap String NodeInfo

namespace PersistedStateMachine

/- The type of the last history entry that names a timer. -/
def lastStatus
    (state : PersistedStateMachine)
    (id : TimerId) : Option String :=
  (state.history.reverse.find? fun entry =>
    entry.timer? == some id).map HistoryEntry.type

def summary
    (state : PersistedStateMachine)
    (id : TimerId)
    (timer : PersistedTimer) : DistributedSummary where
  id := id
  tenantId := timer.spec.tenantId
  state := timer.state
  target := timer.spec.target
  nextRunAt := state.nextRuns[id]?
  lastStatus := state.lastStatus id
  fencingToken := timer.fencingToken

def appState
    (state : PersistedStateMachine) : RaftAppState where
  specs := state.timers.map fun _ timer => timer.spec
  timers := state.timers.map fun id timer =>
    state.summary id timer
  history := state.history
  pending := state.pending
  activeRuns := state.activeRuns
  nodes := state.nodes

end PersistedStateMachine

/- Whether a token may see a resource. -/
def tenantMatches
    (requestTenant resourceTenant : Option String) : Bool :=
  match requestTenant with
  | none => true
  | some tenant =>
      tenant == "*" || resourceTenant == some tenant

end Kron

------------------------------------------------------------
-- Views
------------------------------------------------------------

namespace Kron

namespace RaftAppState

variable (app : RaftAppState)

def list : List DistributedSummary :=
  app.timers.vals

def listForTenant
    (tenantId : Option String) : List DistributedSummary :=
  app.list.filter fun summary =>
    tenantMatches tenantId summary.tenantId

def status
    (name : String) : Option DistributedSummary :=
  app.timers[name]?

def statusForTenant
    (name : String)
    (tenantId : Option String) :
    Option DistributedSummary :=
  (app.status name).filter fun summary =>
    tenantMatches tenantId summary.tenantId

def historyOf
    (name : String) : List HistoryEntry :=
  app.history.filter fun entry =>
    entry.timer? == some name

def historyForTenant
    (name : String)
    (tenantId : Option String) : List HistoryEntry :=
  (app.historyOf name).filter fun entry =>
    tenantMatches tenantId entry.tenantId?

end RaftAppState

end Kron

------------------------------------------------------------
-- Requests
------------------------------------------------------------

namespace Kron

structure CreateTimerRequest where
  name : String
  tenantId : Option String
  cron : Option String
  every : Option String
  after : Option String
  at_ : Option String
  timezone : Option String
  maxAttempts : Option UInt32
  task : String
  payload : Option JsonValue
deriving DecidableEq, Repr

structure WorkerRegisterRequest where
  workerId : String
  tasks : List String
  leaseSeconds : Option UInt64
deriving DecidableEq, Repr

structure WorkerPollRequest where
  workerId : String
  tasks : List String
deriving DecidableEq, Repr

structure RunCompleteRequest where
  workerId : String
  fencingToken : UInt64
deriving DecidableEq, Repr

structure RunFailRequest where
  workerId : String
  fencingToken : UInt64
  error : String
deriving DecidableEq, Repr

/- The one schedule that a request selects. -/
def parseRequestSchedule
    (cal : Calendar)
    (request : CreateTimerRequest)
    (now : DateTime) : Except KronError Schedule :=
  match request.cron, request.every, request.after,
      request.at_ with
  | some expr, none, none, none => .ok (.cron expr)
  | none, some every, none, none =>
      (parseDurationStr every).map .every
  | none, none, some after, none =>
      (parseDurationStr after).map fun seconds =>
        .after seconds now
  | none, none, none, some at_ =>
      match cal.parseFromRfc3339 at_ with
      | .ok time => .ok (.at_ time)
      | .error e =>
          .error (.invalidCron
            ("invalid at datetime: " ++ e))
  | _, _, _, _ =>
      .error (.invalidCron
        "expected exactly one of cron, every, after, at")

end Kron

------------------------------------------------------------
-- Calls That Write
------------------------------------------------------------

namespace Kron

/- The tenant of a new timer: the token's, if it has one. -/
def requestTenant
    (requested tokenTenant : Option String) :
    Except KronError (Option String) :=
  match tokenTenant with
  | none => .ok requested
  | some tenant =>
      if requested.any fun name => name != tenant then
        .error (.ipcUnavailable
          "token tenant does not match requested tenant")
      else
        .ok (some tenant)

/-
  The command of a creation. The outer `none` is a panic in
  date arithmetic. `registeredAt` and `createdAt` are the two
  clock readings.
-/
def createTimer
    (cal : Calendar)
    (request : CreateTimerRequest)
    (tenantId : Option String)
    (registeredAt createdAt : DateTime) :
    Option (Except KronError RaftCommand) :=
  match requestTenant request.tenantId tenantId with
  | .error e => some (.error e)
  | .ok tenant =>
      match parseRequestSchedule cal request registeredAt with
      | .error e => some (.error e)
      | .ok schedule =>
          let spec : DistributedTimerSpec :=
            { id := request.name
              tenantId := tenant
              schedule := schedule
              retry :=
                { RetryPolicy.default with
                  maxAttempts :=
                    request.maxAttempts.getD 3 }
              timezone := request.timezone.getD "UTC"
              target := .workerTask request.task
                (request.payload.getD "null")
              createdAt := createdAt }
          (schedule.nextRunAfter cal createdAt
            spec.timezone).map fun
            | .error e => .error e
            | .ok nextRunAt =>
                .ok (.createTimer spec nextRunAt)

/- Registration; the lease may panic in date arithmetic. -/
def registerWorker
    (request : WorkerRegisterRequest)
    (now : DateTime)
    (workerLeaseSeconds : UInt64) : Option RaftCommand :=
  (addSeconds now
    (request.leaseSeconds.getD workerLeaseSeconds)).map
      fun leaseUntil =>
        .registerWorker request.workerId request.tasks
          leaseUntil

def heartbeatWorker
    (workerId : String)
    (now : DateTime)
    (workerLeaseSeconds : UInt64) : Option RaftCommand :=
  (addSeconds now workerLeaseSeconds).map
    fun leaseUntil => .heartbeatWorker workerId leaseUntil

/- The run a poll picks, with the summary it read. -/
structure Pick where
  workerId : String
  run : WorkerRun
  summary : DistributedSummary
  occurrence : DateTime
deriving DecidableEq, Repr

/- The run a timer offers to a poll. -/
def offer
    (cal : Calendar)
    (app : RaftAppState)
    (request : WorkerPollRequest)
    (tenantId : Option String)
    (now : DateTime)
    (runId : RunId)
    (summary : DistributedSummary) : Option Pick :=
  if !tenantMatches tenantId summary.tenantId then
    none
  else if app.activeRuns.vals.any
      fun run => run.timerId == summary.id then
    none
  else
    match summary.nextRunAt, summary.target with
    | some next, .workerTask task payload =>
        if now < next then
          none
        else if request.tasks.any
            fun candidate => candidate == task then
          some
            { workerId := request.workerId
              run :=
                { timer := summary.id
                  tenantId := summary.tenantId
                  runId := runId
                  task := task
                  payload := payload
                  attempt := 1
                  fencingToken := summary.fencingToken + 1
                  idempotencyKey :=
                    summary.id ++ ":" ++
                      cal.toRfc3339 next }
              summary := summary
              occurrence := next }
        else
          none
    | _, _ => none

/-
  What a poll picks: the first timer, by id, that offers a
  run. `runId` is the id that `RunId::new` draws.
-/
def tryClaim
    (cal : Calendar)
    (app : RaftAppState)
    (request : WorkerPollRequest)
    (tenantId : Option String)
    (now : DateTime)
    (runId : RunId) : Option Pick :=
  app.timers.vals.findSome?
    (offer cal app request tenantId now runId)

/- The claim a poll writes; the lease may panic. -/
def claimCommand
    (pick : Pick)
    (now : DateTime)
    (workerLeaseSeconds : UInt64) : Option RaftCommand :=
  (addSeconds now workerLeaseSeconds).map
    fun leaseDeadline =>
      .claimRun pick.run.timer pick.run.runId pick.workerId
        pick.run.fencingToken pick.run.attempt leaseDeadline

/- After its claim a poll returns the run if it owns it. -/
def stillOwner
    (app : RaftAppState)
    (pick : Pick) : Bool :=
  (app.activeRuns[pick.run.runId]?).any fun active =>
    active.workerId == pick.workerId &&
      active.fencingToken == pick.run.fencingToken

/- Whether the caller may end the run. -/
def validateActiveRun
    (app : RaftAppState)
    (runId : RunId)
    (workerId : String)
    (fencingToken : UInt64)
    (tenantId : Option String) : Except KronError Unit :=
  match app.activeRuns[runId]? with
  | none => .error (.ipcUnavailable "run not active")
  | some active =>
      if active.workerId ≠ workerId then
        .error (.ipcUnavailable "worker is not run owner")
      else if active.fencingToken ≠ fencingToken then
        .error (.ipcUnavailable "stale fencing token")
      else if !tenantMatches tenantId
          ((app.specs[active.timerId]?).bind
            DistributedTimerSpec.tenantId) then
        .error (.ipcUnavailable
          "token tenant does not match run tenant")
      else
        .ok ()

/- The retry of a run whose lease has run out, if any. -/
def replacementRun
    (app : RaftAppState)
    (active : PersistedActiveRun) : Option WorkerRun :=
  match app.specs[active.timerId]? with
  | none => none
  | some spec =>
      if spec.retry.maxAttempts ≤ active.attempt then
        none
      else
        match spec.target with
        | .workerTask task payload =>
            some
              { timer := active.timerId
                tenantId := spec.tenantId
                runId := active.runId
                task := task
                payload := payload
                attempt := active.attempt + 1
                fencingToken :=
                  match app.timers[active.timerId]? with
                  | some summary => summary.fencingToken + 1
                  | none => active.fencingToken + 1
                idempotencyKey :=
                  active.timerId ++ ":lease-expired:" ++
                    active.runId }
        | _ => none

/- The expiries a scan of the active runs writes. -/
def expireActiveLeases
    (app : RaftAppState)
    (now : DateTime) : List RaftCommand :=
  (app.activeRuns.vals.filter fun active =>
    active.leaseDeadline ≤ now).map fun active =>
      .expireRunLease active.runId
        (replacementRun app active) now

end Kron

------------------------------------------------------------
-- The Cluster
------------------------------------------------------------

namespace Kron

/-
  One read of the applied state by an API call or by the
  lease task, with its clock readings and the lease setting
  of its node. A poll first writes a heartbeat and then
  repeats `pollWorker`, one label a round.
-/
inductive Call where
| createTimer (request : CreateTimerRequest)
    (tenantId : Option String)
    (registeredAt createdAt : DateTime)
| registerWorker (request : WorkerRegisterRequest)
    (now : DateTime) (workerLeaseSeconds : UInt64)
| heartbeatWorker (workerId : String)
    (now : DateTime) (workerLeaseSeconds : UInt64)
| pollWorker (request : WorkerPollRequest)
    (tenantId : Option String) (now : DateTime)
    (runId : RunId) (claimedAt : DateTime)
    (workerLeaseSeconds : UInt64)
| recheckOwner (pick : Pick)
| completeRun (runId : RunId)
    (request : RunCompleteRequest)
    (tenantId : Option String) (now : DateTime)
| failRun (runId : RunId) (request : RunFailRequest)
    (tenantId : Option String) (now : DateTime)
| expireActiveLeases (now : DateTime)
deriving DecidableEq, Repr

/- A command in flight, and the pick of a claim. -/
structure Proposal where
  command : RaftCommand
  pick : Option Pick
deriving DecidableEq, Repr

/- A command that no poll picked. -/
def Proposal.plain
    (command : RaftCommand) : Proposal where
  command := command
  pick := none

/- The commands a call writes from the state it reads. -/
def proposals
    (cal : Calendar)
    (state : PersistedStateMachine) :
    Call → List Proposal
| .createTimer request tenantId registeredAt createdAt =>
    match createTimer cal request tenantId registeredAt
        createdAt with
    | some (.ok command) => [.plain command]
    | _ => []
| .registerWorker request now workerLeaseSeconds =>
    (registerWorker request now
      workerLeaseSeconds).toList.map .plain
| .heartbeatWorker workerId now workerLeaseSeconds =>
    (heartbeatWorker workerId now
      workerLeaseSeconds).toList.map .plain
| .pollWorker request tenantId now runId claimedAt
    workerLeaseSeconds =>
    match tryClaim cal state.appState request tenantId now
        runId with
    | none => []
    | some pick =>
        (claimCommand pick claimedAt
          workerLeaseSeconds).toList.map fun command =>
            { command := command, pick := some pick }
-- the second read of a poll decides only what it returns
| .recheckOwner _ => []
| .completeRun runId request tenantId now =>
    match validateActiveRun state.appState runId
        request.workerId request.fencingToken tenantId with
    | .error _ => []
    | .ok _ =>
        [.plain (.completeRun runId request.workerId
          request.fencingToken now)]
| .failRun runId request tenantId now =>
    match validateActiveRun state.appState runId
        request.workerId request.fencingToken tenantId with
    | .error _ => []
    | .ok _ =>
        [.plain (.failRun runId request.workerId
          request.fencingToken request.error now)]
| .expireActiveLeases now =>
    (expireActiveLeases state.appState now).map .plain

/- Committing a proposal applies its command. -/
def applyProposal
    (cal : Calendar)
    (state : PersistedStateMachine)
    (p : Proposal) : Option PersistedStateMachine :=
  applyKronCommand cal state p.command

abbrev Cluster :=
  Replicated.System PersistedStateMachine Proposal

abbrev ClusterLabel :=
  Replicated.Label Call

/- One step of the cluster. -/
abbrev Cluster.step
    (cal : Calendar) :
    Cluster → ClusterLabel → Option Cluster :=
  Replicated.step (proposals cal) (applyProposal cal)

/- A run of the cluster. -/
abbrev Cluster.run
    (cal : Calendar) :
    Cluster → List ClusterLabel → Option Cluster :=
  Machine.run (Cluster.step cal)

end Kron

------------------------------------------------------------
-- What Calls Propose
------------------------------------------------------------

namespace Kron

/- What a poll knows of the timer it picked. -/
structure Picked
    (state : PersistedStateMachine)
    (tenantId : Option String)
    (runId : RunId)
    (pick : Pick)
    (timer : PersistedTimer) : Prop where
  stored : state.timers[pick.run.timer]? = some timer
  summary : pick.summary = state.summary pick.run.timer timer
  next :
    state.nextRuns[pick.run.timer]? = some pick.occurrence
  tenant : tenantMatches tenantId timer.spec.tenantId = true
  idle : state.hasActive pick.run.timer = false
  token : pick.run.fencingToken = timer.fencingToken + 1
  attempt : pick.run.attempt = 1
  runId : pick.run.runId = runId

/- An offered run is a run of the timer that offers it. -/
private theorem offer_eq_some
    {cal : Calendar}
    {state : PersistedStateMachine}
    {request : WorkerPollRequest}
    {tenantId : Option String}
    {now : DateTime}
    {runId : RunId}
    {id : TimerId}
    {timer : PersistedTimer}
    {pick : Pick}
    (hTimer : state.timers[id]? = some timer)
    (hOffer :
      offer cal state.appState request tenantId now runId
        (state.summary id timer) = some pick) :
    Picked state tenantId runId pick timer := by
  unfold offer at hOffer
  split at hOffer
  · cases hOffer
  · rename_i hTenant
    change ¬(!tenantMatches tenantId timer.spec.tenantId) =
      true at hTenant
    split at hOffer
    · cases hOffer
    · rename_i hActive
      split at hOffer
      · rename_i next task payload hNext hTarget
        split at hOffer
        · cases hOffer
        · split at hOffer
          · cases hOffer
            exact
              { stored := hTimer
                summary := rfl
                next := hNext
                tenant := by simpa using hTenant
                idle := Bool.eq_false_iff.mpr hActive
                token := rfl
                attempt := rfl
                runId := rfl }
          · cases hOffer
      · cases hOffer

/- A poll picks a due run of an idle timer it may see. -/
theorem tryClaim_eq_some
    {cal : Calendar}
    {state : PersistedStateMachine}
    {request : WorkerPollRequest}
    {tenantId : Option String}
    {now : DateTime}
    {runId : RunId}
    {pick : Pick}
    (hClaim :
      tryClaim cal state.appState request tenantId now runId =
        some pick) :
    ∃ timer, Picked state tenantId runId pick timer := by
  unfold tryClaim at hClaim
  rcases List.exists_of_findSome?_eq_some hClaim with
    ⟨summary, hMem, hOffer⟩
  rcases (BTreeMap.mem_vals_iff _ _).mp hMem with
    ⟨id, hGet⟩
  unfold PersistedStateMachine.appState at hGet
  rw [Std.ExtTreeMap.getElem?_map,
    Option.map_eq_some_iff] at hGet
  rcases hGet with ⟨timer, hTimer, rfl⟩
  exact ⟨timer, offer_eq_some hTimer hOffer⟩

/- The caller owns the run and may see its timer. -/
structure Validated
    (state : PersistedStateMachine)
    (runId : RunId)
    (workerId : String)
    (fencingToken : UInt64)
    (tenantId : Option String)
    (active : PersistedActiveRun) : Prop where
  found : state.activeRuns[runId]? = some active
  worker : active.workerId = workerId
  token : active.fencingToken = fencingToken
  tenant :
    tenantMatches tenantId
      (state.timerTenant active.timerId) = true

private theorem appState_specs_tenant
    (state : PersistedStateMachine)
    (timerId : TimerId) :
    (state.appState.specs[timerId]?).bind
        DistributedTimerSpec.tenantId =
      state.timerTenant timerId := by
  unfold PersistedStateMachine.appState
    PersistedStateMachine.timerTenant
  rw [Std.ExtTreeMap.getElem?_map]
  cases state.timers[timerId]? <;> rfl

theorem validateActiveRun_eq_ok
    {state : PersistedStateMachine}
    {runId : RunId}
    {workerId : String}
    {fencingToken : UInt64}
    {tenantId : Option String}
    {u : Unit}
    (hOk :
      validateActiveRun state.appState runId workerId
        fencingToken tenantId = .ok u) :
    ∃ active,
      Validated state runId workerId fencingToken tenantId
        active := by
  unfold validateActiveRun at hOk
  split at hOk
  · cases hOk
  · rename_i active hActive
    split at hOk
    · cases hOk
    · rename_i hWorker
      split at hOk
      · cases hOk
      · rename_i hToken
        split at hOk
        · cases hOk
        · rename_i hTenant
          rw [appState_specs_tenant] at hTenant
          exact
            ⟨active,
              { found := hActive
                worker := not_not.mp hWorker
                token := not_not.mp hToken
                tenant := by simpa using hTenant }⟩

/- A creation stores the name under the token's tenant. -/
private theorem createTimer_eq_ok
    {cal : Calendar}
    {request : CreateTimerRequest}
    {tenantId : Option String}
    {registeredAt createdAt : DateTime}
    {command : RaftCommand}
    (hOk :
      createTimer cal request tenantId registeredAt
        createdAt = some (.ok command)) :
    ∃ spec nextRunAt,
      command = .createTimer spec nextRunAt ∧
        spec.id = request.name ∧
          requestTenant request.tenantId tenantId =
            .ok spec.tenantId := by
  unfold createTimer at hOk
  cases hTenant :
      requestTenant request.tenantId tenantId with
  | error e => simp [hTenant] at hOk
  | ok tenant =>
      simp only [hTenant] at hOk
      cases hSchedule :
          parseRequestSchedule cal request
            registeredAt with
      | error e => simp [hSchedule] at hOk
      | ok schedule =>
          simp only [hSchedule,
            Option.map_eq_some_iff] at hOk
          rcases hOk with ⟨next, _, hNext⟩
          cases next with
          | error e => cases hNext
          | ok nextRunAt =>
              cases hNext
              exact ⟨_, nextRunAt, rfl, rfl, rfl⟩

/- What each proposal owes to the state its call read. -/
inductive Proposes
    (cal : Calendar)
    (state : PersistedStateMachine) :
    Call → Proposal → Prop
| create
    {request : CreateTimerRequest}
    {tenantId : Option String}
    {registeredAt createdAt : DateTime}
    {spec : DistributedTimerSpec}
    {nextRunAt : Option DateTime}
    (hId : spec.id = request.name)
    (hTenant :
      requestTenant request.tenantId tenantId =
        .ok spec.tenantId) :
    Proposes cal state
      (.createTimer request tenantId registeredAt createdAt)
      (.plain (.createTimer spec nextRunAt))
| register
    {request : WorkerRegisterRequest}
    {now leaseUntil : DateTime}
    {lease : UInt64} :
    Proposes cal state
      (.registerWorker request now lease)
      (.plain (.registerWorker request.workerId
        request.tasks leaseUntil))
| heartbeat
    {workerId : String}
    {now leaseUntil : DateTime}
    {lease : UInt64} :
    Proposes cal state
      (.heartbeatWorker workerId now lease)
      (.plain (.heartbeatWorker workerId leaseUntil))
| claim
    {request : WorkerPollRequest}
    {tenantId : Option String}
    {now claimedAt deadline : DateTime}
    {runId : RunId}
    {lease : UInt64}
    {pick : Pick}
    {timer : PersistedTimer}
    (hPicked : Picked state tenantId runId pick timer) :
    Proposes cal state
      (.pollWorker request tenantId now runId claimedAt
        lease)
      { command :=
          .claimRun pick.run.timer pick.run.runId
            pick.workerId pick.run.fencingToken
            pick.run.attempt deadline
        pick := some pick }
| complete
    {runId : RunId}
    {request : RunCompleteRequest}
    {tenantId : Option String}
    {now : DateTime}
    {active : PersistedActiveRun}
    (hValid :
      Validated state runId request.workerId
        request.fencingToken tenantId active) :
    Proposes cal state
      (.completeRun runId request tenantId now)
      (.plain (.completeRun runId request.workerId
        request.fencingToken now))
| fail
    {runId : RunId}
    {request : RunFailRequest}
    {tenantId : Option String}
    {now : DateTime}
    {active : PersistedActiveRun}
    (hValid :
      Validated state runId request.workerId
        request.fencingToken tenantId active) :
    Proposes cal state
      (.failRun runId request tenantId now)
      (.plain (.failRun runId request.workerId
        request.fencingToken request.error now))
| expire
    {now : DateTime}
    {runId : RunId}
    {active : PersistedActiveRun}
    (hActive : state.activeRuns[runId]? = some active)
    (hDue : active.leaseDeadline ≤ now) :
    Proposes cal state
      (.expireActiveLeases now)
      (.plain (.expireRunLease active.runId
        (replacementRun state.appState active) now))

/- Calls propose nothing else. -/
theorem proposes_of_mem
    {cal : Calendar}
    {state : PersistedStateMachine}
    {call : Call}
    {p : Proposal}
    (hMem : p ∈ proposals cal state call) :
    Proposes cal state call p := by
  cases call with
  | createTimer request tenantId registeredAt createdAt =>
      simp only [proposals] at hMem
      split at hMem
      · rename_i command hOk
        rw [List.mem_singleton] at hMem
        subst hMem
        rcases createTimer_eq_ok hOk with
          ⟨spec, nextRunAt, rfl, hId, hTenant⟩
        exact .create hId hTenant
      · simp at hMem
  | registerWorker request now lease =>
      simp only [proposals, registerWorker, List.mem_map,
        Option.mem_toList, Option.map_eq_some_iff] at hMem
      rcases hMem with ⟨command, ⟨until_, _, rfl⟩, rfl⟩
      exact .register
  | heartbeatWorker workerId now lease =>
      simp only [proposals, heartbeatWorker, List.mem_map,
        Option.mem_toList, Option.map_eq_some_iff] at hMem
      rcases hMem with ⟨command, ⟨until_, _, rfl⟩, rfl⟩
      exact .heartbeat
  | pollWorker request tenantId now runId claimedAt lease =>
      simp only [proposals] at hMem
      cases hClaim :
          tryClaim cal state.appState request tenantId now
            runId with
      | none => simp [hClaim] at hMem
      | some pick =>
          simp only [hClaim, claimCommand, List.mem_map,
            Option.mem_toList, Option.map_eq_some_iff]
            at hMem
          rcases hMem with ⟨command, ⟨due, _, rfl⟩, rfl⟩
          rcases tryClaim_eq_some hClaim with ⟨timer, hPick⟩
          exact .claim hPick
  | recheckOwner pick =>
      simp [proposals] at hMem
  | completeRun runId request tenantId now =>
      simp only [proposals] at hMem
      cases hOk :
          validateActiveRun state.appState runId
            request.workerId request.fencingToken
              tenantId with
      | error e => simp [hOk] at hMem
      | ok u =>
          simp only [hOk, List.mem_singleton] at hMem
          subst hMem
          rcases validateActiveRun_eq_ok hOk with
            ⟨active, hValid⟩
          exact .complete hValid
  | failRun runId request tenantId now =>
      simp only [proposals] at hMem
      cases hOk :
          validateActiveRun state.appState runId
            request.workerId request.fencingToken
              tenantId with
      | error e => simp [hOk] at hMem
      | ok u =>
          simp only [hOk, List.mem_singleton] at hMem
          subst hMem
          rcases validateActiveRun_eq_ok hOk with
            ⟨active, hValid⟩
          exact .fail hValid
  | expireActiveLeases now =>
      simp only [proposals, expireActiveLeases, List.mem_map,
        List.mem_filter] at hMem
      rcases hMem with
        ⟨command, ⟨active, ⟨hVal, hDue⟩, rfl⟩, rfl⟩
      rcases (BTreeMap.mem_vals_iff _ _).mp hVal with
        ⟨runId, hGet⟩
      exact .expire hGet (by simpa using hDue)

end Kron

------------------------------------------------------------
-- Accepted Claims
------------------------------------------------------------

namespace Kron

/- The run that a committed proposal took, if it took one. -/
def accepted
    (commit : PersistedStateMachine × Proposal) :
    Option PersistedActiveRun :=
  match runEffect commit.1 commit.2.command with
  | .claimed active => some active
  | _ => none

theorem accepted_eq_some
    {state : PersistedStateMachine}
    {p : Proposal}
    {active : PersistedActiveRun}
    (hAccepted : accepted (state, p) = some active) :
    runEffect state p.command = .claimed active := by
  unfold accepted at hAccepted
  cases hEffect : runEffect state p.command with
  | keep => simp [hEffect] at hAccepted
  | ended runId a => simp [hEffect] at hAccepted
  | claimed a =>
      simp only [hEffect, Option.some.injEq] at hAccepted
      rw [hAccepted]

/- The spec of the timer that a command creates. -/
def RaftCommand.createdSpec? :
    RaftCommand → Option DistributedTimerSpec
| .createTimer spec _ => some spec
| _ => none

/- The timer that a command creates. -/
def RaftCommand.created? : RaftCommand → Option TimerId
| .createTimer spec _ => some spec.id
| _ => none

/- The commands that the server writes. -/
def RaftCommand.issued : RaftCommand → Bool
| .createTimer _ _ => true
| .registerWorker _ _ _ => true
| .heartbeatWorker _ _ => true
| .claimRun _ _ _ _ _ _ => true
| .completeRun _ _ _ _ => true
| .failRun _ _ _ _ _ => true
| .expireRunLease _ _ _ => true
| _ => false

theorem Proposes.issued
    {cal : Calendar}
    {state : PersistedStateMachine}
    {call : Call}
    {p : Proposal}
    (hProposes : Proposes cal state call p) :
    p.command.issued = true := by
  cases hProposes <;> rfl

/- A claim in flight is the claim of a stored timer. -/
def ClaimsStored
    (state : PersistedStateMachine)
    (p : Proposal) : Prop :=
  ∀ claim ∈ p.command.claim?,
    (state.timers[claim.2]?).isSome

theorem Proposes.claimsStored
    {cal : Calendar}
    {state : PersistedStateMachine}
    {call : Call}
    {p : Proposal}
    (hProposes : Proposes cal state call p) :
    ClaimsStored state p := by
  intro claim hClaim
  cases hProposes with
  | claim hPicked =>
      cases hClaim
      simp [hPicked.stored]
  | _ => cases hClaim

end Kron

------------------------------------------------------------
-- Sample Calls
------------------------------------------------------------

namespace Kron

/- Create a timer that runs every second. -/
def createAt
    (name : String)
    (tenantId : Option String)
    (maxAttempts : UInt32)
    (second : Int) : Call :=
  .createTimer
    { name := name
      tenantId := none
      cron := none
      every := some "1s"
      after := none
      at_ := none
      timezone := none
      maxAttempts := some maxAttempts
      task := "task"
      payload := none }
    tenantId (second * nanosPerSecond)
    (second * nanosPerSecond)

/- Poll for the task of the sample timers. -/
def pollAt
    (workerId : String)
    (tenantId : Option String)
    (runId : RunId)
    (second : Int) : Call :=
  .pollWorker { workerId := workerId, tasks := ["task"] }
    tenantId (second * nanosPerSecond) runId
    (second * nanosPerSecond) 30

/- Report the success of a run. -/
def completeAt
    (workerId : String)
    (tenantId : Option String)
    (runId : RunId)
    (token : UInt64)
    (second : Int) : Call :=
  .completeRun runId
    { workerId := workerId, fencingToken := token }
    tenantId (second * nanosPerSecond)

/- Report the failure of a run. -/
def failAt
    (workerId : String)
    (tenantId : Option String)
    (runId : RunId)
    (token : UInt64)
    (second : Int) : Call :=
  .failRun runId
    { workerId := workerId
      fencingToken := token
      error := "failed" }
    tenantId (second * nanosPerSecond)

/- Calls whose writes commit at once. -/
def atOnce
    (calls : List Call) : List ClusterLabel :=
  calls.flatMap fun call => [.call call, .commit 0]

end Kron
