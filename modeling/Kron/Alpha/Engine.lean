import Kron.Alpha.State
import Kron.Embedded.Engine

/-
  One node of the quorum server: the state behind its lock
  and the command log `kron.raft.aof`.

  A section runs under the lock, or appends to the log
  without it: a call that creates a timer, registers a
  worker or changes the peers appends first and takes the
  lock later, so that other sections come between. A section
  that panics under the lock poisons it. The orders of hash
  maps, the ids drawn, the clocks and the outcomes of appends
  come with the label. The file `kron.cluster.json` and the
  lock file are left out, and nothing reads the former.

  Key definitions include:
    * `Kron.Alpha.CommandEntry`
    * `Kron.Alpha.Node`
    * `Kron.Alpha.replayCommands`
    * `Kron.Alpha.Node.openWithLeader`
    * `Kron.Alpha.Submission`
    * `Kron.Alpha.Node.claimPendingFor`
    * `Kron.Alpha.Node.completeRun`
    * `Kron.Alpha.ClusterState.enqueueDueRuns`
    * `Kron.Alpha.ClusterState.expireWorkers`
    * `Kron.Alpha.Node.step`

  Key theorems include:
    * `Kron.Alpha.Node.submit_cases`
    * `Kron.Alpha.Node.claimPendingFor_cases`
    * `Kron.Alpha.Node.completeRun_cases`
    * `Kron.Alpha.Node.failRun_cases`
    * `Kron.Alpha.Node.step_cases`
-/

------------------------------------------------------------
-- Nodes
------------------------------------------------------------

namespace Kron

namespace Alpha

/- One line of the command log. -/
structure CommandEntry where
  v : UInt8
  ts : DateTime
  command : RaftCommand
deriving DecidableEq, Repr

/- The arguments of `open_with_leader`. -/
structure OpenArgs where
  nodeId : String
  httpAddr : String
  raftAddr : String
  leaderId : Option String
deriving DecidableEq, Repr

/- A node without a leader id leads itself. -/
def OpenArgs.config
    (args : OpenArgs) : ClusterConfig where
  nodeId := args.nodeId
  httpAddr := args.httpAddr
  raftAddr := args.raftAddr
  leaderId := args.leaderId.getD args.nodeId
  peers := []

/-
  A call that appends a command and applies it in a later
  section, with its clock readings. A posted command comes
  from `POST /v1/raft/apply`.
-/
inductive Submission where
| create (request : CreateTimerRequest)
    (registeredAt createdAt : DateTime)
| register (request : WorkerRegisterRequest)
    (now : DateTime)
| join (node : NodeInfo)
| leave (nodeId : String)
| posted (command : RaftCommand)
deriving DecidableEq, Repr

/- A run that a worker was given. -/
structure Handout where
  workerId : String
  run : WorkerRun
deriving DecidableEq, Repr

/-
  A node: the state under its lock, the file of the log, the
  calls that have appended and not applied yet, and whether
  the lock is poisoned. `logged` and `handouts` record what
  was handed to the log and to workers; no section reads
  them.
-/
structure Node where
  state : ClusterState
  aof : Bytes
  unapplied : List (Submission × RaftCommand)
  poisoned : Bool
  logged : List CommandEntry
  handouts : List Handout

end Alpha

end Kron

------------------------------------------------------------
-- The Command Log
------------------------------------------------------------

namespace Kron

namespace Alpha

open Text

variable (cal : Calendar)
variable (codec : JsonCodec CommandEntry)

/- The bytes of one entry with its newline. -/
def encodeEntry
    (entry : CommandEntry) : Bytes :=
  utf8 (codec.toText entry ++ "\n")

/- The entry that an append writes. -/
def entryOf
    (command : RaftCommand)
    (io : AppendIo) : CommandEntry where
  v := 1
  ts := io.ts
  command := command

/- The bytes that an append writes. -/
def appended
    (command : RaftCommand)
    (io : AppendIo) : Bytes :=
  let line := encodeEntry codec (entryOf command io)
  match io.failure with
  | none => line
  | some failure => line.take failure.written

/- The node after an append, which may have failed. -/
def Node.log
    (node : Node)
    (command : RaftCommand)
    (io : AppendIo) : Node :=
  { node with
    aof := node.aof ++ appended codec command io
    logged := node.logged ++ [entryOf command io] }

/- Append a command to the log. -/
def Node.appendCommand
    (node : Node)
    (command : RaftCommand)
    (io : AppendIo) : Node × Except KronError Unit :=
  (node.log codec command io,
    match io.failure with
    | none => .ok ()
    | some failure => .error (.logIo failure.message))

/-
  Apply the lines of the log from line `n` on. Every line
  must parse and apply; `clock n` is read for line `n`.
-/
def replayLines
    (clock : Nat → Readings) :
    Nat → List Bytes → ClusterState →
      Option (Except KronError ClusterState)
| _, [], state => some (.ok state)
| n, line :: rest, state =>
    match fromUtf8 line with
    | none =>
        some (.error
          (.logIo "stream did not contain valid UTF-8"))
    | some text =>
        if trim text = "" then
          replayLines clock (n + 1) rest state
        else
          match codec.fromText text with
          | .error e => some (.error (.logSerde e))
          | .ok entry =>
              match applyCommand cal state entry.command
                  (clock n) with
              | none => none
              | some (.error e) => some (.error e)
              | some (.ok state) =>
                  replayLines clock (n + 1) rest state

/- Apply the whole log. -/
def replayCommands
    (clock : Nat → Readings)
    (file : Bytes)
    (state : ClusterState) :
    Option (Except KronError ClusterState) :=
  replayLines cal codec clock 0 (bufLines file) state

/- Open a data directory; a missing log is created. -/
def openWithLeader
    (args : OpenArgs)
    (clock : Nat → Readings)
    (file : Option Bytes) :
    Option (Except KronError (ClusterState × Bytes)) :=
  (replayCommands cal codec clock (file.getD [])
    (ClusterState.new args.config)).map fun result =>
      result.map fun state => (state, file.getD [])

end Alpha

end Kron

------------------------------------------------------------
-- Calls That Append First
------------------------------------------------------------

namespace Kron

namespace Alpha

variable (cal : Calendar)

namespace Submission

/- Whether the call begins with `ensure_leader`. -/
def needsLeader : Submission → Bool
| .posted _ => false
| _ => true

/- Whether the call is replicated before it appends. -/
def isReplicated : Submission → Bool
| .create _ _ _ => true
| .register _ _ => true
| .join _ => true
| .leave _ => false
| .posted _ => false

/-
  The command of a call. The outer `none` is a panic in date
  arithmetic, before any lock is taken.
-/
def command : Submission → Option (Except KronError RaftCommand)
| .create request registeredAt createdAt =>
    createTimer cal request none registeredAt createdAt
| .register request now =>
    (registerWorker request now leaseSeconds).map .ok
| .join node => some (.ok (.addNode node))
| .leave nodeId => some (.ok (.removeNode nodeId))
| .posted command => some (.ok command)

end Submission

/-
  What a call does under the lock. A registration of its own
  takes the lease of the request.
-/
def applySubmission
    (state : ClusterState)
    (call : Submission)
    (command : RaftCommand)
    (clock : Readings) :
    Option (Except KronError ClusterState) :=
  match call with
  | .register request _ =>
      (addInstant clock.instant
        (request.leaseSeconds.getD leaseSeconds)).map
          fun leaseUntil =>
            .ok ((state.putWorker request.workerId
              { tasks := request.tasks
                leaseUntil := leaseUntil }).pushHistory
              (.workerRegistered request.workerId))
  | _ => applyCommand cal state command clock

end Alpha

end Kron

------------------------------------------------------------
-- The Scheduler
------------------------------------------------------------

namespace Kron

namespace Alpha

variable (cal : Calendar)

namespace ClusterState

variable (state : ClusterState)

/- The timers whose next run has come, in key order. -/
def dueTimers
    (now : DateTime) : List TimerId :=
  (state.nextRuns.toList.filter fun next =>
    next.2 ≤ now).map Prod.fst

/- Whether a run of the timer is queued or held. -/
def isBusy
    (id : TimerId) : Bool :=
  state.pending.any (fun run => run.timer == id) ||
    state.hasActive id

/- Queue a run under the next token of its timer. -/
def queueRun
    (run : WorkerRun) : ClusterState :=
  let state := state.setToken run.timer run.fencingToken
  { state with pending := state.pending ++ [run] }

/-
  Offer the run of one due timer, unless one is queued or
  held. A due timer has a next run.
-/
def enqueueRun
    (id : TimerId)
    (runId : RunId) : ClusterState :=
  if state.isBusy id then
    state
  else
    match state.timers[id]? with
    | none => state
    | some spec =>
        match spec.target with
        | .workerTask task payload =>
            (state.queueRun
              { timer := id
                tenantId := spec.tenantId
                runId := runId
                task := task
                payload := payload
                attempt := 1
                fencingToken := state.token id + 1
                idempotencyKey :=
                  id ++ ":" ++
                    ((state.nextRuns[id]?).map
                      cal.toRfc3339).getD "" }).setState
              id .scheduled
        | _ => state

/-
  Offer the due runs. `order` lists the due timers in the
  order of the hash map, each with the run id it draws.
-/
def enqueueDueRuns
    (now : DateTime)
    (order : List (TimerId × RunId)) :
    Option ClusterState :=
  if state.leader then
    if (order.map Prod.fst).Perm (state.dueTimers now) then
      some (order.foldl
        (fun state due =>
          state.enqueueRun cal due.1 due.2) state)
    else
      none
  else
    some state

/- The workers whose lease has run out, in key order. -/
def lostWorkers
    (instant : Instant) : List String :=
  (state.workers.toList.filter fun worker =>
    worker.2.leaseUntil < instant).map Prod.fst

def loseWorker
    (workerId : String) : ClusterState :=
  let state :=
    { state with workers := state.workers.erase workerId }
  state.pushHistory (.workerLost workerId)

/- Whether a run has lost its lease or its worker. -/
def isExpired
    (now : DateTime)
    (active : ActiveRun) : Bool :=
  active.leaseDeadline ≤ now ||
    !state.workers.contains active.workerId

/- The runs without a lease or a worker, in key order. -/
def expiredRuns
    (now : DateTime) : List RunId :=
  (state.activeRuns.toList.filter fun run =>
    state.isExpired now run.2).map Prod.fst

/- The retry of a run, under the next token of its timer. -/
def retryRun
    (active : ActiveRun)
    (spec : DistributedTimerSpec)
    (task : String)
    (payload : JsonValue) : WorkerRun where
  timer := active.timerId
  tenantId := spec.tenantId
  runId := active.runId
  task := task
  payload := payload
  attempt := active.attempt + 1
  fencingToken := state.token active.timerId + 1
  idempotencyKey :=
    active.timerId ++ ":" ++
      ((state.nextRuns[active.timerId]?).map
        cal.toRfc3339).getD "lease-expired"

/-
  End a run that has expired. Nothing is logged. A run whose
  timer is unknown, or has no task, is forgotten.
-/
def expireRun
    (runId : RunId) : ClusterState :=
  match state.activeRuns[runId]? with
  | none => state
  | some active =>
      let state := state.removeActive runId
      match state.timers[active.timerId]? with
      | none => state
      | some spec =>
          let state := state.pushHistory
            (.runLeaseExpired active.timerId active.runId
              active.workerId active.fencingToken)
          if spec.retry.maxAttempts ≤ active.attempt then
            (state.setState active.timerId .dead).pushHistory
              (.runDead active.timerId active.runId)
          else
            match spec.target with
            | .workerTask task payload =>
                (state.queueRun
                  (state.retryRun cal active spec task
                    payload)).setState active.timerId
                  .retrying
            | _ => state

/-
  Drop the workers without a lease, then end the runs without
  a lease or a worker, both in the order of the hash maps.
-/
def expireWorkers
    (clock : Readings)
    (lost : List String)
    (expired : List RunId) : Option ClusterState :=
  if lost.Perm (state.lostWorkers clock.instant) then
    let state := lost.foldl loseWorker state
    if expired.Perm (state.expiredRuns clock.now) then
      some (expired.foldl (expireRun cal) state)
    else
      none
  else
    none

end ClusterState

end Alpha

end Kron

------------------------------------------------------------
-- Runs And Workers
------------------------------------------------------------

namespace Kron

namespace Alpha

variable (cal : Calendar)
variable (codec : JsonCodec CommandEntry)

/- The error of a call that only the leader serves. -/
def notLeader
    (state : ClusterState) : KronError :=
  .ipcUnavailable
    ("not_leader: leader is " ++ state.config.leaderId)

def ensureLeader
    (state : ClusterState) : Except KronError Unit :=
  if state.leader then
    .ok ()
  else
    .error (notLeader state)

/-
  Whether a worker takes a run: its task is among those of
  the request and of the worker, if it is registered.
-/
def takes
    (state : ClusterState)
    (workerId : String)
    (tasks : List String)
    (run : WorkerRun) : Bool :=
  tasks.contains run.task &&
    (((state.workers[workerId]?).map
      WorkerInfo.tasks).getD tasks).contains run.task

/- The run that a claim gives to its worker. -/
def claimOf
    (run : WorkerRun)
    (workerId : String)
    (leaseDeadline : DateTime) : ActiveRun where
  timerId := run.timer
  runId := run.runId
  workerId := workerId
  fencingToken := run.fencingToken
  attempt := run.attempt
  leaseDeadline := leaseDeadline

/- The command that logs a claim. -/
def claimCommandOf
    (active : ActiveRun) : RaftCommand :=
  .claimRun active.timerId active.runId active.workerId
    active.fencingToken active.attempt active.leaseDeadline

namespace Node

variable (node : Node)

/- A panic under the lock poisons it. -/
def poison : Node :=
  { node with poisoned := true }

/-
  Keep the state that a section leaves, with the outcome of
  its call, or poison the lock. An error leaves the state.
-/
def settle
    (result : Option (Except KronError ClusterState)) :
    Node × Option (Except KronError Unit) :=
  match result with
  | none => (node.poison, none)
  | some (.error e) => (node, some (.error e))
  | some (.ok state) =>
      ({ node with state := state }, some (.ok ()))

/- Renew the lease of a worker that is registered. -/
def heartbeatWorker
    (workerId : String)
    (instant : Instant) :
    Node × Option (Except KronError Unit) :=
  match ensureLeader node.state with
  | .error e => (node, some (.error e))
  | .ok () =>
      match node.state.workers[workerId]? with
      | none => (node, some (.ok ()))
      | some worker =>
          node.settle
            ((addInstant instant leaseSeconds).map
              fun leaseUntil =>
                .ok (node.state.putWorker workerId
                  { worker with leaseUntil := leaseUntil }))

/-
  Give the first run that a worker takes to it. The claim is
  logged with one reading of the clock, and held until the
  lease of a later one.
-/
def claimPendingFor
    (workerId : String)
    (tasks : List String)
    (io : AppendIo)
    (now later : DateTime) :
    Node × Option (Except KronError (Option WorkerRun)) :=
  let takes := takes node.state workerId tasks
  match node.state.pending.find? takes with
  | none => (node, some (.ok none))
  | some run =>
      match addSeconds now leaseSeconds with
      | none => (node.poison, none)
      | some logged =>
          match node.appendCommand codec
              (claimCommandOf (claimOf run workerId logged))
              io with
          | (node, .error e) => (node, some (.error e))
          | (node, .ok ()) =>
              match addSeconds later leaseSeconds with
              | none => (node.poison, none)
              | some held =>
                  let state := node.state
                  let state :=
                    { state with
                      pending := state.pending.eraseP takes }
                  ({ node with
                      state := state.startActive
                        (claimOf run workerId held)
                      handouts :=
                        node.handouts ++
                          [⟨workerId, run⟩] },
                    some (.ok (some run)))

/- End a run that its worker completed. -/
def completeRun
    (runId : RunId)
    (request : RunCompleteRequest)
    (io : AppendIo)
    (completedAt now : DateTime) :
    Node × Option (Except KronError Unit) :=
  match ensureLeader node.state with
  | .error e => (node, some (.error e))
  | .ok () =>
      match validateActiveRun node.state runId
          request.workerId request.fencingToken with
      | .error e => (node, some (.error e))
      | .ok active =>
          match node.appendCommand codec
              (.completeRun runId request.workerId
                request.fencingToken completedAt) io with
          | (node, .error e) => (node, some (.error e))
          | (node, .ok ()) =>
              let state := node.state.removeActive runId
              let state := state.setState active.timerId
                .scheduled
              let state := state.pushHistory
                (.runSucceeded active.timerId runId none
                  active.fencingToken)
              node.settle
                ((rescheduleTimer cal state active.timerId
                  now).map .ok)

/- End a run that its worker failed. -/
def failRun
    (runId : RunId)
    (request : RunFailRequest)
    (io : AppendIo)
    (failedAt : DateTime) :
    Node × Option (Except KronError Unit) :=
  match ensureLeader node.state with
  | .error e => (node, some (.error e))
  | .ok () =>
      match validateActiveRun node.state runId
          request.workerId request.fencingToken with
      | .error e => (node, some (.error e))
      | .ok active =>
          match node.appendCommand codec
              (.failRun runId request.workerId
                request.fencingToken request.error failedAt)
              io with
          | (node, .error e) => (node, some (.error e))
          | (node, .ok ()) =>
              let state := node.state.removeActive runId
              let state := state.setState active.timerId
                .dead
              ({ node with
                  state := state.pushHistory
                    (.runFailed active.timerId runId none
                      request.error active.fencingToken) },
                some (.ok ()))

end Node

end Alpha

end Kron

------------------------------------------------------------
-- Sections
------------------------------------------------------------

namespace Kron

namespace Alpha

/- One section, with what its environment decides. -/
inductive Section where
| submit (call : Submission) (io : AppendIo)
| apply (index : Nat) (clock : Readings)
| heartbeat (workerId : String) (instant : Instant)
| claim (workerId : String) (tasks : List String)
    (io : AppendIo) (now later : DateTime)
| complete (runId : RunId) (request : RunCompleteRequest)
    (io : AppendIo) (completedAt now : DateTime)
| fail (runId : RunId) (request : RunFailRequest)
    (io : AppendIo) (failedAt : DateTime)
| enqueue (now : DateTime)
    (order : List (TimerId × RunId))
| expire (clock : Readings) (lost : List String)
    (expired : List RunId)
| shutdown
| reopen (args : OpenArgs) (clock : Nat → Readings)

namespace Node

variable (cal : Calendar)
variable (codec : JsonCodec CommandEntry)
variable (node : Node)

/- The section of a call that appends before it applies. -/
def submit
    (call : Submission)
    (io : AppendIo) : Node :=
  if call.needsLeader && !node.state.leader then
    node
  else
    match call.command cal with
    | some (.ok command) =>
        match node.appendCommand codec command io with
        | (node, .error _) => node
        | (node, .ok ()) =>
            { node with
              unapplied :=
                node.unapplied ++ [(call, command)] }
    | _ => node

/- The later section of such a call. -/
def applyNext
    (index : Nat)
    (clock : Readings) : Option Node :=
  match node.unapplied[index]? with
  | none => none
  | some (call, command) =>
      some
        ({ node with
            unapplied :=
              node.unapplied.eraseIdx index }.settle
          (applySubmission cal node.state call command
            clock)).1

/- The node after its process is started again. -/
def reopen
    (args : OpenArgs)
    (clock : Nat → Readings) : Option Node :=
  match openWithLeader cal codec args clock
      (some node.aof) with
  | some (.ok (state, aof)) =>
      some
        { node with
          state := state
          aof := aof
          unapplied := []
          poisoned := false }
  | _ => none

/-
  The sections that take the lock. A worker's poll is a
  heartbeat and any number of claims by the leader.
-/
def lockedStep : Section → Option Node
| .apply index clock => node.applyNext cal index clock
| .heartbeat workerId instant =>
    some (node.heartbeatWorker workerId instant).1
| .claim workerId tasks io now later =>
    if node.state.leader then
      some
        (node.claimPendingFor codec workerId tasks io now
          later).1
    else
      some node
| .complete runId request io completedAt now =>
    some
      (node.completeRun cal codec runId request io
        completedAt now).1
| .fail runId request io failedAt =>
    some
      (node.failRun codec runId request io failedAt).1
| .enqueue now order =>
    (node.state.enqueueDueRuns cal now order).map
      fun state => { node with state := state }
| .expire clock lost expired =>
    (node.state.expireWorkers cal clock lost expired).map
      fun state => { node with state := state }
| .shutdown =>
    some
      { node with
        state := { node.state with shuttingDown := true } }
| _ => none

/-
  One step. A call may append while the lock is poisoned; a
  section that takes the lock panics then and does nothing.
-/
def step
    (label : Section) : Option Node :=
  match label with
  | .submit call io => some (node.submit cal codec call io)
  | .reopen args clock => node.reopen cal codec args clock
  | label =>
      if node.poisoned then
        some node
      else
        node.lockedStep cal codec label

/- A node started on an empty directory. -/
def fresh
    (args : OpenArgs) : Node where
  state := ClusterState.new args.config
  aof := []
  unapplied := []
  poisoned := false
  logged := []
  handouts := []

end Node

end Alpha

end Kron

------------------------------------------------------------
-- What A Call Does
------------------------------------------------------------

namespace Kron

namespace Alpha

namespace Node

variable (cal : Calendar)
variable (codec : JsonCodec CommandEntry)
variable (node : Node)

/- A call that appends before it applies. -/
inductive SubmitCase
    (call : Submission)
    (io : AppendIo) : Node → Prop where
| refused : SubmitCase call io node
| failed (command : RaftCommand) (failure : AppendFailure)
    (hCommand : call.command cal = some (.ok command))
    (hFailure : io.failure = some failure) :
    SubmitCase call io (node.log codec command io)
| appended (command : RaftCommand)
    (hCommand : call.command cal = some (.ok command))
    (hFailure : io.failure = none) :
    SubmitCase call io
      { node.log codec command io with
        unapplied := node.unapplied ++ [(call, command)] }

theorem submit_cases
    (call : Submission)
    (io : AppendIo) :
    node.SubmitCase cal codec call io
      (node.submit cal codec call io) := by
  unfold submit appendCommand
  split
  · exact .refused
  · split
    · rename_i command hCommand
      cases hFailure : io.failure with
      | some failure =>
          exact .failed command failure hCommand hFailure
      | none => exact .appended command hCommand hFailure
    · exact .refused

/- The state after a worker is given a run. -/
def claimed
    (workerId : String)
    (tasks : List String)
    (run : WorkerRun)
    (held : DateTime) : ClusterState :=
  { node.state with
    pending :=
      node.state.pending.eraseP
        (takes node.state workerId tasks) }.startActive
    (claimOf run workerId held)

/- A worker's claim. -/
inductive ClaimCase
    (workerId : String)
    (tasks : List String)
    (io : AppendIo)
    (now later : DateTime) : Node → Prop where
| idle : ClaimCase workerId tasks io now later node
| panicked :
    ClaimCase workerId tasks io now later node.poison
| failed (run : WorkerRun) (logged : DateTime)
    (failure : AppendFailure)
    (hFind :
      node.state.pending.find?
        (takes node.state workerId tasks) = some run)
    (hFailure : io.failure = some failure) :
    ClaimCase workerId tasks io now later
      (node.log codec
        (claimCommandOf (claimOf run workerId logged)) io)
| lost (run : WorkerRun) (logged : DateTime)
    (hFind :
      node.state.pending.find?
        (takes node.state workerId tasks) = some run)
    (hFailure : io.failure = none)
    (hLater : addSeconds later leaseSeconds = none) :
    ClaimCase workerId tasks io now later
      (node.log codec
        (claimCommandOf
          (claimOf run workerId logged)) io).poison
| gave (run : WorkerRun) (logged held : DateTime)
    (hFind :
      node.state.pending.find?
        (takes node.state workerId tasks) = some run)
    (hFailure : io.failure = none) :
    ClaimCase workerId tasks io now later
      { node.log codec
          (claimCommandOf (claimOf run workerId logged))
          io with
        state := node.claimed workerId tasks run held
        handouts := node.handouts ++ [⟨workerId, run⟩] }

theorem claimPendingFor_cases
    (workerId : String)
    (tasks : List String)
    (io : AppendIo)
    (now later : DateTime) :
    node.ClaimCase codec workerId tasks io now later
      (node.claimPendingFor codec workerId tasks io now
        later).1 := by
  unfold claimPendingFor appendCommand
  simp only
  split
  · exact .idle
  · rename_i run hFind
    cases addSeconds now leaseSeconds with
    | none => exact .panicked
    | some logged =>
        cases hFailure : io.failure with
        | some failure =>
            exact .failed run logged failure hFind hFailure
        | none =>
            cases hLater : addSeconds later leaseSeconds with
            | none =>
                exact .lost run logged hFind hFailure hLater
            | some held =>
                exact .gave run logged held hFind hFailure

/- The state of a run that its worker completed. -/
def completed
    (runId : RunId)
    (active : ActiveRun) : ClusterState :=
  ((node.state.removeActive runId).setState active.timerId
    .scheduled).pushHistory
    (.runSucceeded active.timerId runId none
      active.fencingToken)

/- The end of a run that its worker completed. -/
inductive CompleteCase
    (runId : RunId)
    (request : RunCompleteRequest)
    (io : AppendIo)
    (completedAt now : DateTime) : Node → Prop where
| refused :
    CompleteCase runId request io completedAt now node
| failed (active : ActiveRun) (failure : AppendFailure)
    (hOwns :
      node.state.owns runId request.workerId
        request.fencingToken = some active)
    (hFailure : io.failure = some failure) :
    CompleteCase runId request io completedAt now
      (node.log codec
        (.completeRun runId request.workerId
          request.fencingToken completedAt) io)
| ended (active : ActiveRun)
    (hOwns :
      node.state.owns runId request.workerId
        request.fencingToken = some active)
    (hFailure : io.failure = none) :
    CompleteCase runId request io completedAt now
      ((node.log codec
        (.completeRun runId request.workerId
          request.fencingToken completedAt) io).settle
        ((rescheduleTimer cal (node.completed runId active)
          active.timerId now).map .ok)).1

theorem completeRun_cases
    (runId : RunId)
    (request : RunCompleteRequest)
    (io : AppendIo)
    (completedAt now : DateTime) :
    node.CompleteCase cal codec runId request io completedAt
      now
      (node.completeRun cal codec runId request io
        completedAt now).1 := by
  unfold completeRun appendCommand
  split
  · exact .refused
  · split
    · exact .refused
    · rename_i active hActive
      rw [validateActiveRun_eq_ok] at hActive
      cases hFailure : io.failure with
      | some failure =>
          exact .failed active failure hActive hFailure
      | none => exact .ended active hActive hFailure

/- The end of a run that its worker failed. -/
inductive FailCase
    (runId : RunId)
    (request : RunFailRequest)
    (io : AppendIo)
    (failedAt : DateTime) : Node → Prop where
| refused : FailCase runId request io failedAt node
| failed (active : ActiveRun) (failure : AppendFailure)
    (hOwns :
      node.state.owns runId request.workerId
        request.fencingToken = some active)
    (hFailure : io.failure = some failure) :
    FailCase runId request io failedAt
      (node.log codec
        (.failRun runId request.workerId
          request.fencingToken request.error failedAt) io)
| ended (active : ActiveRun)
    (hOwns :
      node.state.owns runId request.workerId
        request.fencingToken = some active)
    (hFailure : io.failure = none) :
    FailCase runId request io failedAt
      { node.log codec
          (.failRun runId request.workerId
            request.fencingToken request.error failedAt)
          io with
        state :=
          ((node.state.removeActive runId).setState
            active.timerId .dead).pushHistory
            (.runFailed active.timerId runId none
              request.error active.fencingToken) }

theorem failRun_cases
    (runId : RunId)
    (request : RunFailRequest)
    (io : AppendIo)
    (failedAt : DateTime) :
    node.FailCase codec runId request io failedAt
      (node.failRun codec runId request io failedAt).1 := by
  unfold failRun appendCommand
  split
  · exact .refused
  · split
    · exact .refused
    · rename_i active hActive
      rw [validateActiveRun_eq_ok] at hActive
      cases hFailure : io.failure with
      | some failure =>
          exact .failed active failure hActive hFailure
      | none => exact .ended active hActive hFailure

/- A heartbeat keeps the node or settles a new lease. -/
inductive HeartbeatCase
    (workerId : String)
    (instant : Instant) : Node → Prop where
| ignored : HeartbeatCase workerId instant node
| renewed (worker : WorkerInfo) :
    HeartbeatCase workerId instant
      (node.settle
        ((addInstant instant leaseSeconds).map
          fun leaseUntil =>
            .ok (node.state.putWorker workerId
              { worker with leaseUntil := leaseUntil }))).1

theorem heartbeatWorker_cases
    (workerId : String)
    (instant : Instant) :
    node.HeartbeatCase workerId instant
      (node.heartbeatWorker workerId instant).1 := by
  unfold heartbeatWorker
  split
  · exact .ignored
  · split
    · exact .ignored
    · rename_i worker _
      exact .renewed worker

/- What settling keeps. -/
theorem settle_eq
    (result : Option (Except KronError ClusterState)) :
    (node.settle result).1.aof = node.aof ∧
      (node.settle result).1.unapplied = node.unapplied ∧
      (node.settle result).1.logged = node.logged ∧
      (node.settle result).1.handouts = node.handouts := by
  unfold settle
  split
  · exact ⟨rfl, rfl, rfl, rfl⟩
  · exact ⟨rfl, rfl, rfl, rfl⟩
  · exact ⟨rfl, rfl, rfl, rfl⟩

variable {cal : Calendar}
variable {codec : JsonCodec CommandEntry}
variable {node node' : Node}

theorem HeartbeatCase.unapplied
    {workerId : String}
    {instant : Instant}
    (hCase : node.HeartbeatCase workerId instant node') :
    node'.unapplied = node.unapplied := by
  cases hCase with
  | ignored => rfl
  | renewed worker => exact (settle_eq _ _).2.1

theorem ClaimCase.unapplied
    {workerId : String}
    {tasks : List String}
    {io : AppendIo}
    {now later : DateTime}
    (hCase :
      node.ClaimCase codec workerId tasks io now later
        node') :
    node'.unapplied = node.unapplied := by
  cases hCase with
  | idle => rfl
  | panicked => rfl
  | failed run logged failure => rfl
  | lost run logged => rfl
  | gave run logged held => rfl

theorem CompleteCase.unapplied
    {runId : RunId}
    {request : RunCompleteRequest}
    {io : AppendIo}
    {completedAt now : DateTime}
    (hCase :
      node.CompleteCase cal codec runId request io
        completedAt now node') :
    node'.unapplied = node.unapplied := by
  cases hCase with
  | refused => rfl
  | failed active failure => rfl
  | ended active hOwns hFailure => exact (settle_eq _ _).2.1

theorem FailCase.unapplied
    {runId : RunId}
    {request : RunFailRequest}
    {io : AppendIo}
    {failedAt : DateTime}
    (hCase :
      node.FailCase codec runId request io failedAt node') :
    node'.unapplied = node.unapplied := by
  cases hCase with
  | refused => rfl
  | failed active failure => rfl
  | ended active hOwns hFailure => rfl

/-
  A step is a call that appends, a restart, nothing behind a
  poisoned lock, or a section under the lock.
-/
theorem step_cases
    {label : Section}
    (hStep : node.step cal codec label = some node') :
    (∃ call io,
        label = .submit call io ∧
          node' = node.submit cal codec call io) ∨
      (∃ args clock,
        label = .reopen args clock ∧
          node.reopen cal codec args clock = some node') ∨
      (node.poisoned = true ∧ node' = node) ∨
      (node.poisoned = false ∧
        node.lockedStep cal codec label = some node') := by
  cases label with
  | submit call io =>
      left
      exact ⟨call, io, rfl, (Option.some.inj hStep).symm⟩
  | reopen args clock =>
      right
      left
      exact ⟨args, clock, rfl, hStep⟩
  | _ =>
      right
      right
      simp only [step] at hStep
      split at hStep
      · rename_i hPoisoned
        exact
          Or.inl ⟨hPoisoned, (Option.some.inj hStep).symm⟩
      · rename_i hPoisoned
        exact Or.inr ⟨by simpa using hPoisoned, hStep⟩

end Node

end Alpha

end Kron
