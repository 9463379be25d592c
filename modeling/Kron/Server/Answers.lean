import Kron.Core.Errors
import Kron.Lib.Cursor
import Kron.Server.Audit
import Kron.Server.Redirects

/-
  Answers of the HTTP interface.

  `authed` authenticates a request, runs its handler, writes
  the audit entry and builds the response. The error of a
  handler is turned into text; what follows the first brace
  of the text is parsed again, and decides the status.

  Key definitions include:
    * `Kron.Json`
    * `Kron.HandlerError`
    * `Kron.handle`
    * `Kron.authed`
    * `Kron.answer`
-/

------------------------------------------------------------
-- JSON Values
------------------------------------------------------------

namespace Kron

inductive Json where
| null
| bool (value : Bool)
| number (text : String)
| string (value : String)
| array (items : List Json)
| object (fields : List (String × Json))

namespace Json

/- `Value::get` with a key. -/
def get : Json → String → Option Json
| .object fields, key => fields.lookup key
| _, _ => none

/- `Value::as_str`. -/
def asStr : Json → Option String
| .string value => some value
| _ => none

end Json

/- Parsing and printing of JSON values. -/
structure JsonFormat where
  parse : String → Option Json
  print : Json → String

/- The JSON of `not_leader_response`. -/
def NotLeaderResponse.toJson
    (response : NotLeaderResponse) : Json :=
  .object
    [("error", .string response.error),
      ("leader_id",
        match response.leaderId with
        | none => .null
        | some id => .number (toString id)),
      ("leader_http",
        match response.leaderHttp with
        | none => .null
        | some addr => .string addr)]

end Kron

------------------------------------------------------------
-- Handlers
------------------------------------------------------------

namespace Kron

open Cursor

/-
  The error of a handler, with where it comes from: from its
  leadership check, or from anything else.
-/
inductive HandlerError where
| leadership (response : NotLeaderResponse)
| failed (error : KronError)

/- The error that the handler returns. -/
def HandlerError.toKronError
    (format : JsonFormat) : HandlerError → KronError
| .leadership response =>
    .ipcUnavailable (format.print response.toJson)
| .failed error => error

structure JoinRequest where
  nodeId : String
  httpAddr : String
  raftAddr : String
deriving DecidableEq, Repr

structure LeaveRequest where
  nodeId : String
deriving DecidableEq, Repr

/- The routes, with what their handlers take. -/
inductive Request where
| createTimer (request : CreateTimerRequest)
| listTimers
| statusTimer (name : String)
| historyTimer (name : String)
| registerWorker (request : WorkerRegisterRequest)
| heartbeatWorker (workerId : String)
| pollWorker (request : WorkerPollRequest)
| succeedRun (runId : RunId) (request : RunCompleteRequest)
| failRun (runId : RunId) (request : RunFailRequest)
| clusterStatus
| joinCluster (request : JoinRequest)
| leaveCluster (request : LeaveRequest)
| shutdownRuntime
| raftAppendEntries
| raftVote
| raftInstallSnapshot

/- The role that a route requires. -/
def Request.requiredRole : Request → AuthRole
| .createTimer _ => .operator
| .listTimers => .reader
| .statusTimer _ => .reader
| .historyTimer _ => .reader
| .registerWorker _ => .worker
| .heartbeatWorker _ => .worker
| .pollWorker _ => .worker
| .succeedRun _ _ => .worker
| .failRun _ _ => .worker
| .clusterStatus => .reader
| .joinCluster _ => .admin
| .leaveCluster _ => .admin
| .shutdownRuntime => .admin
| .raftAppendEntries => .raft
| .raftVote => .raft
| .raftInstallSnapshot => .raft

/- The action of a route in the audit log. -/
def Request.action : Request → String
| .createTimer _ => "timer.create"
| .listTimers => "timer.list"
| .statusTimer _ => "timer.status"
| .historyTimer _ => "timer.history"
| .registerWorker _ => "worker.register"
| .heartbeatWorker _ => "worker.heartbeat"
| .pollWorker _ => "worker.poll"
| .succeedRun _ _ => "run.succeed"
| .failRun _ _ => "run.fail"
| .clusterStatus => "cluster.status"
| .joinCluster _ => "cluster.join"
| .leaveCluster _ => "cluster.leave"
| .shutdownRuntime => "runtime.shutdown"
| .raftAppendEntries => "raft.append_entries"
| .raftVote => "raft.vote"
| .raftInstallSnapshot => "raft.install_snapshot"

/- One call of `ensure_linearizable`, and what is known then. -/
structure LeaderCheck where
  linearizable : Bool
  currentLeader : Option UInt64
  app : PersistedStateMachine

/- One round of the loop of a poll. -/
structure PollRound where
  app : RaftAppState
  now : DateTime
  runId : RunId
  claimedAt : DateTime
  write : Except String Unit
  after : RaftAppState

/-
  What a handler meets on its way: leadership checks, calls
  of Raft in their order with the texts of their errors, what
  it reads of the state and the clock, whether a new timer
  can be read back, and the JSON of its result.
-/
structure HandlerIo where
  firstCheck : LeaderCheck
  secondCheck : LeaderCheck
  raft : Nat → Except String Unit
  app : RaftAppState
  now : DateTime
  createdAt : DateTime
  applied : Bool
  rounds : List PollRound
  result : Json

/- What a server knows of itself. -/
structure ServerInfo where
  nodeId : UInt64
  httpAddr : String
  workerLeaseSeconds : UInt64

variable (cal : Calendar)
variable (server : ServerInfo)
variable (io : HandlerIo)

/- `ensure_leader`. -/
def ensureLeader
    (check : LeaderCheck) : Checked HandlerError Unit :=
  if check.linearizable then
    pure ()
  else
    throw
      (.leadership
        (notLeaderResponse check.currentLeader server.nodeId
          server.httpAddr check.app))

/- An error that does not come from the leadership check. -/
def orFail
    {α : Type} :
    Except KronError α → Checked HandlerError α
| .ok a => pure a
| .error e => throw (.failed e)

/- A call of Raft, as `write_command` makes it. -/
def raftCall
    (result : Except String Unit) :
    Checked HandlerError Unit :=
  orFail (result.mapError .ipcUnavailable)

/- A panic where date arithmetic gives nothing. -/
def orPanic
    {α : Type} : Option α → Checked HandlerError α
| some a => pure a
| none => panicked

def createTimerHandler
    (auth : AuthContext)
    (request : CreateTimerRequest) :
    Checked HandlerError Json := do
  ensureLeader server io.firstCheck
  let created ←
    orPanic
      (createTimer cal request auth.tenantId io.now
        io.createdAt)
  let _command ← orFail created
  raftCall (io.raft 0)
  if io.applied then
    return io.result
  throw
    (.failed (.ipcUnavailable "timer was not applied"))

def registerWorkerHandler
    (request : WorkerRegisterRequest) :
    Checked HandlerError Json := do
  ensureLeader server io.firstCheck
  let _command ←
    orPanic
      (registerWorker request io.now
        server.workerLeaseSeconds)
  raftCall (io.raft 0)
  return io.result

/- A heartbeat with its leadership check. -/
def heartbeatWorkerHandler
    (check : LeaderCheck)
    (workerId : String) :
    Checked HandlerError Json := do
  ensureLeader server check
  let _command ←
    orPanic
      (heartbeatWorker workerId io.now
        server.workerLeaseSeconds)
  raftCall (io.raft 0)
  return io.result

/- One round: `none` where it claims nothing. -/
def pollRound
    (auth : AuthContext)
    (request : WorkerPollRequest)
    (round : PollRound) :
    Checked HandlerError (Option WorkerRun) := do
  match tryClaim cal round.app request auth.tenantId
      round.now round.runId with
  | none => return none
  | some pick =>
      let _command ←
        orPanic
          (claimCommand pick round.claimedAt
            server.workerLeaseSeconds)
      raftCall round.write
      if stillOwner round.after pick then
        return some pick.run
      return none

/- Rounds until one claims a run or the time is over. -/
def pollRounds
    (auth : AuthContext)
    (request : WorkerPollRequest) :
    List PollRound → Checked HandlerError Json
| [] => pure io.result
| round :: rounds => do
    match ← pollRound cal server auth request round with
    | some _ => return io.result
    | none => pollRounds auth request rounds

def pollWorkerHandler
    (auth : AuthContext)
    (request : WorkerPollRequest) :
    Checked HandlerError Json := do
  ensureLeader server io.firstCheck
  let _ ←
    heartbeatWorkerHandler server io io.secondCheck
      request.workerId
  pollRounds cal server io auth request io.rounds

/- `complete_run` and `fail_run`. -/
def endRunHandler
    (auth : AuthContext)
    (runId : RunId)
    (workerId : String)
    (fencingToken : UInt64) :
    Checked HandlerError Json := do
  ensureLeader server io.firstCheck
  orFail
    (validateActiveRun io.app runId workerId fencingToken
      auth.tenantId)
  raftCall (io.raft 0)
  return io.result

/- `add_learner`, two nodes and `change_membership`. -/
def joinHandler : Checked HandlerError Json := do
  ensureLeader server io.firstCheck
  raftCall (io.raft 0)
  raftCall (io.raft 1)
  raftCall (io.raft 2)
  raftCall (io.raft 3)
  return io.result

/- `change_membership`. -/
def leaveHandler : Checked HandlerError Json := do
  ensureLeader server io.firstCheck
  raftCall (io.raft 0)
  return io.result

/- The internal routes of Raft. -/
def raftHandler : Checked HandlerError Json := do
  raftCall (io.raft 0)
  return io.result

/- The handler of a route. -/
def handle
    (auth : AuthContext) :
    Request → Checked HandlerError Json
| .createTimer request =>
    createTimerHandler cal server io auth request
| .listTimers => pure io.result
| .statusTimer _ => pure io.result
| .historyTimer _ => pure io.result
| .registerWorker request =>
    registerWorkerHandler server io request
| .heartbeatWorker workerId =>
    heartbeatWorkerHandler server io io.firstCheck workerId
| .pollWorker request =>
    pollWorkerHandler cal server io auth request
| .succeedRun runId request =>
    endRunHandler server io auth runId request.workerId
      request.fencingToken
| .failRun runId request =>
    endRunHandler server io auth runId request.workerId
      request.fencingToken
| .clusterStatus => pure io.result
| .joinCluster _ => joinHandler server io
| .leaveCluster _ => leaveHandler server io
| .shutdownRuntime => pure io.result
| .raftAppendEntries => raftHandler io
| .raftVote => raftHandler io
| .raftInstallSnapshot => raftHandler io

end Kron

------------------------------------------------------------
-- Building The Response
------------------------------------------------------------

namespace Kron

open Cursor

structure Response where
  status : UInt16
  body : Json

/- What the audit of a response gives. -/
abbrev AuditWriter :=
  Option AuthContext → String → String → UInt16 →
    Option String → Except KronError Unit

def AuthRole.allows
    (role required : AuthRole) : Bool :=
  role == .admin || role == required ||
    (role == .operator && required == .reader)

def auditError
    (err : KronError) : Response where
  status := 500
  body :=
    .object
      [("error", .string "audit_write_failed"),
        ("message", .string err.toText)]

/- A response that is sent once it has been audited. -/
def audited
    (written : Except KronError Unit)
    (response : Response) : Response :=
  match written with
  | .error err => auditError err
  | .ok () => response

/- The text from its first brace on. -/
def fromBrace
    (text : String) : Option String :=
  match text.toList.dropWhile (· != '\x7b') with
  | [] => none
  | rest => some (String.ofList rest)

/- The body of an error: what its text holds, or its text. -/
def errorValue
    (format : JsonFormat)
    (text : String) : Json :=
  match (fromBrace text).bind format.parse with
  | some value => value
  | none => .object [("error", .string text)]

/- The `error` of a body, where it is a string. -/
def Json.errorName
    (value : Json) : Option String :=
  (value.get "error").bind Json.asStr

/- The response to the error of a handler. -/
def errorResponse
    (format : JsonFormat)
    (text : String) : Response :=
  let value := errorValue format text
  { status :=
      if value.errorName = some "not_leader" then
        409
      else
        400
    body := value }

/-
  `authed`, with the result of `authenticate`. It is `none`
  where the handler panics.
-/
def authed
    (format : JsonFormat)
    (auth : Except String AuthContext)
    (audit : AuditWriter)
    (requiredRole : AuthRole)
    (action : String)
    (handler : AuthContext → Checked HandlerError Json) :
    Option Response :=
  match auth with
  | .error reason =>
      some
        (audited
          (audit none action "unauthorized" 401
            (some reason))
          { status := 401
            body :=
              .object [("error", .string "unauthorized")] })
  | .ok ctx =>
      if ctx.role.allows requiredRole then
        match (handler ctx).run with
        | none => none
        | some (.ok value) =>
            some
              (audited (audit (some ctx) action "ok" 200 none)
                { status := 200
                  body := value })
        | some (.error err) =>
            let response :=
              errorResponse format
                (err.toKronError format).toText
            some
              (audited
                (audit (some ctx) action "error"
                  response.status response.body.errorName)
                response)
      else
        some
          (audited
            (audit (some ctx) action "forbidden" 403
              (some requiredRole.asStr))
            { status := 403
              body :=
                .object
                  [("error", .string "forbidden"),
                    ("required_role",
                      .string requiredRole.asStr)] })

/- The answer to a request. -/
def answer
    (format : JsonFormat)
    (cal : Calendar)
    (server : ServerInfo)
    (io : HandlerIo)
    (auth : Except String AuthContext)
    (audit : AuditWriter)
    (request : Request) : Option Response :=
  authed format auth audit request.requiredRole
    request.action fun ctx => handle cal server io ctx request

end Kron
