import Kron.Embedded.Snapshot
import Kron.Lib.Machine

/-
  The embedded engine: registration, the dispatch loop and
  the tasks that run timers.

  All threads share `Inner` behind one lock, so the engine
  is a machine whose steps are the sections under the lock,
  in any order. Clock readings, drawn run ids, the results
  of callbacks and the outcome of each append to the log
  come with the step. A panic inside a section poisons the
  lock; no section runs after it, and the step has no
  successor.

  Key definitions include:
    * `Kron.ScheduledTimer`
    * `Kron.Inner`
    * `Kron.openEngine`
    * `Kron.scheduleWithOverlap`
    * `Kron.runTimerStart`
    * `Kron.runTimerFinish`
    * `Kron.Engine`
    * `Kron.Engine.step`
-/

------------------------------------------------------------
-- The Heap Of Scheduled Timers
------------------------------------------------------------

namespace Kron

/- An entry of the heap. -/
structure ScheduledTimer where
  timerId : TimerId
  nextRunAt : DateTime
  runId : Option RunId
  attempt : UInt32
deriving DecidableEq, Repr

/-
  The entries of the heap; the order of the list carries no
  meaning.
-/
abbrev TimerHeap :=
  List ScheduledTimer

namespace TimerHeap

def push
    (heap : TimerHeap)
    (entry : ScheduledTimer) : TimerHeap :=
  entry :: heap

/- The due entries, and the heap without them. -/
def popDue
    (heap : TimerHeap)
    (now : DateTime) : List ScheduledTimer × TimerHeap :=
  heap.partition fun entry => entry.nextRunAt ≤ now

/- Remove all entries of a timer. -/
def removeTimer
    (heap : TimerHeap)
    (id : TimerId) : TimerHeap :=
  heap.filter fun entry => entry.timerId ≠ id

end TimerHeap

end Kron

------------------------------------------------------------
-- Shared State
------------------------------------------------------------

namespace Kron

structure RuntimeState where
  started : Bool
  stopped : Bool
  shuttingDown : Bool
  activeRuns : Nat
deriving DecidableEq, Repr

namespace RuntimeState

def new : RuntimeState where
  started := false
  stopped := false
  shuttingDown := false
  activeRuns := 0

end RuntimeState

/-
  What the threads share. The log is the file `kron.aof` of
  the data directory; a registered callable is known by its
  name. `logged` records every event handed to the log; no
  section reads it.
-/
structure Inner where
  state : EngineState
  heap : TimerHeap
  dir : DataDir
  registry : BTreeMap TimerId String
  runtime : RuntimeState
  logged : List Event

/- An append that failed after it wrote some bytes. -/
structure AppendFailure where
  written : Nat
  message : String
deriving DecidableEq, Repr

/- The clock reading and the outcome of one append. -/
structure AppendIo where
  ts : DateTime
  failure : Option AppendFailure
deriving DecidableEq, Repr

namespace Inner

variable (codec : JsonCodec LogEntry)

/- The bytes that an append writes. -/
def appended
    (event : Event)
    (io : AppendIo) : Bytes :=
  let line :=
    AppendOnlyLog.encodeLine codec
      (LogEntry.new event io.ts)
  match io.failure with
  | none => line
  | some failure => line.take failure.written

/- Append to the log. -/
def append
    (inner : Inner)
    (event : Event)
    (io : AppendIo) : Inner × Except KronError Unit :=
  ({ inner with
      dir :=
        inner.dir.insert aofName
          (aofBytes inner.dir ++ appended codec event io)
      logged := inner.logged ++ [event] },
    match io.failure with
    | none => .ok ()
    | some failure => .error (.logIo failure.message))

/- Append and apply; a failed append stops the engine. -/
def appendApplyOrStop
    (inner : Inner)
    (event : Event)
    (io : AppendIo) : Inner × Except KronError Unit :=
  match inner.append codec event io with
  | (inner, .error e) =>
      ({ inner with
          runtime :=
            { inner.runtime with
              shuttingDown := true
              stopped := true } }, .error e)
  | (inner, .ok ()) =>
      ({ inner with state := inner.state.apply event },
        .ok ())

/- One run less; the counter saturates. -/
def finishRun
    (inner : Inner) : Inner :=
  { inner with
    runtime :=
      { inner.runtime with
        activeRuns := inner.runtime.activeRuns - 1 } }

/- Remove the next run of a timer. -/
def clearNextRun
    (inner : Inner)
    (id : TimerId) : Inner :=
  { inner with
    state :=
      { inner.state with
        nextRuns := inner.state.nextRuns.erase id } }

/- Put the next run of a timer into the heap. -/
def pushNextRun
    (inner : Inner)
    (id : TimerId)
    (next : DateTime) : Inner :=
  { inner with
    state :=
      { inner.state with
        nextRuns := inner.state.nextRuns.insert id next }
    heap :=
      inner.heap.push
        { timerId := id
          nextRunAt := next
          runId := none
          attempt := 1 } }

/-
  Compute the next run of a timer after an instant. `none`
  is a panic in date arithmetic.
-/
def rescheduleFrom
    (cal : Calendar)
    (inner : Inner)
    (spec : TimerSpec)
    (from_ : DateTime) : Option Inner :=
  if inner.runtime.shuttingDown ∨ inner.runtime.stopped then
    some inner
  else
    match spec.schedule.nextRunAfter cal from_
        spec.timezone with
    | none => none
    | some (.ok (some next)) =>
        some (inner.pushNextRun spec.id next)
    | some _ => some (inner.clearNextRun spec.id)

end Inner

end Kron

------------------------------------------------------------
-- Opening And Registration
------------------------------------------------------------

namespace Kron

variable (cal : Calendar)
variable (codec : JsonCodec LogEntry)
variable (snaps : JsonCodec Snapshot)

/-
  The engine opened on a recovered state: every timer is
  orphaned until its function is registered again.
-/
def Inner.opened
    (dir : DataDir)
    (state : EngineState) : Inner where
  state :=
    { state with
      nextRuns := ∅
      states :=
        state.specs.keys.foldl
          (fun states id => states.insert id .orphaned)
          state.states }
  heap := []
  dir := dir.insert aofName (aofBytes dir)
  registry := ∅
  runtime := RuntimeState.new
  logged := []

/-
  `Engine::open`. The lock file of the directory is left
  out.
-/
def openEngine
    (dataDir : String)
    (dir : DataDir) : Except KronError Inner :=
  match loadState codec snaps dataDir dir with
  | .error e => .error e
  | .ok state => .ok (Inner.opened dir state)

/-
  A call of `schedule_with_overlap`: its arguments, with the
  callable known by its name, the clock readings for
  `created_at` and for the next run, and the append.
-/
structure ScheduleCall where
  id : TimerId
  schedule : Schedule
  fnName : String
  retry : Option RetryPolicy
  timezone : Option String
  overlap : Option OverlapPolicy
  createdAt : DateTime
  now : DateTime
  io : AppendIo

namespace ScheduleCall

/- The spec that a call asks for. -/
def spec
    (call : ScheduleCall)
    (state : EngineState) : TimerSpec where
  id := call.id
  schedule := call.schedule
  retry := call.retry.getD RetryPolicy.default
  timezone := call.timezone.getD "UTC"
  createdAt :=
    (state.specs[call.id]?.map TimerSpec.createdAt).getD
      call.createdAt
  overlap :=
    (call.overlap.or
      (state.specs[call.id]?.map TimerSpec.overlap)).getD
      .delay

end ScheduleCall

namespace Inner

/- Log and store a spec that is new or changed. -/
def storeSpec
    (inner : Inner)
    (spec : TimerSpec)
    (io : AppendIo) : Inner × Except KronError Unit :=
  match inner.state.specs[spec.id]? with
  | none =>
      match inner.append codec (.timerCreated spec) io with
      | (inner, .error e) => (inner, .error e)
      | (inner, .ok ()) =>
          ({ inner with
              state :=
                inner.state.apply (.timerCreated spec) },
            .ok ())
  | some old =>
      if old = spec then
        (inner, .ok ())
      else
        match inner.append codec (.timerUpdated spec) io with
        | (inner, .error e) => (inner, .error e)
        | (inner, .ok ()) =>
            (({ inner with
                state :=
                  inner.state.apply (.timerUpdated spec)
                heap :=
                  inner.heap.removeTimer
                    spec.id }).clearNextRun spec.id, .ok ())

/- Register the callable of a timer. -/
def register
    (inner : Inner)
    (id : TimerId)
    (fnName : String) : Inner :=
  { inner with
    registry := inner.registry.insert id fnName
    state := inner.state.registerFunction id fnName }

/-
  Schedule the next run of a timer without one. An error of
  `next_run_after` is ignored; `none` is a panic.
-/
def scheduleNext
    (inner : Inner)
    (id : TimerId)
    (now : DateTime) : Option Inner :=
  if id ∈ inner.state.nextRuns then
    some inner
  else
    match inner.state.specs[id]? with
    | none => none
    | some spec =>
        match spec.schedule.nextRunAfter cal now
            spec.timezone with
        | none => none
        | some (.ok (some next)) =>
            some (inner.pushNextRun id next)
        | some _ => some inner

end Inner

/- `Engine::schedule_with_overlap`; `none` is a panic. -/
def scheduleWithOverlap
    (inner : Inner)
    (call : ScheduleCall) :
    Option (Inner × Except KronError Unit) :=
  if inner.runtime.shuttingDown ∨ inner.runtime.stopped then
    some (inner, .error .alreadyStopped)
  else
    match inner.storeSpec codec (call.spec inner.state)
        call.io with
    | (inner, .error e) => some (inner, .error e)
    | (inner, .ok ()) =>
        ((inner.register call.id call.fnName).scheduleNext
          cal call.id call.now).map fun inner =>
            (inner, .ok ())

end Kron

------------------------------------------------------------
-- Running Timers
------------------------------------------------------------

namespace Kron

variable (cal : Calendar)
variable (codec : JsonCodec LogEntry)

/-
  A run between its two sections, with the attempt of the
  entry it was started from.
-/
structure Execution where
  timerId : TimerId
  runId : RunId
  attempt : UInt32
  spec : TimerSpec
  startedAt : DateTime
  missingFunction : Bool
deriving DecidableEq, Repr

/-
  The choices of the first section of `run_timer`: a run id
  from `RunId::new`, the clock and up to two appends.
-/
structure StartIo where
  freshId : RunId
  now : DateTime
  first : AppendIo
  second : AppendIo

/-
  The choices of the last section of `run_timer`: the result
  of the callback, the clock and up to two appends.
-/
structure FinishIo where
  result : Except String Unit
  now : DateTime
  first : AppendIo
  second : AppendIo

/- The branch of a due run that is skipped. -/
def skipRun
    (inner : Inner)
    (scheduled : ScheduledTimer)
    (spec : TimerSpec)
    (io : StartIo) : Option Inner :=
  let event : Event :=
    .runSkippedOverlap scheduled.timerId
      (scheduled.runId.getD io.freshId)
      scheduled.nextRunAt io.now
  match inner.appendApplyOrStop codec event io.first with
  | (inner, .error _) => some inner.finishRun
  | (inner, .ok ()) =>
      (inner.rescheduleFrom cal spec
        scheduled.nextRunAt).map Inner.finishRun

/- The branch of a due run that is started. -/
def startRun
    (inner : Inner)
    (scheduled : ScheduledTimer)
    (spec : TimerSpec)
    (io : StartIo) : Option (Inner × Option Execution) :=
  let runId := scheduled.runId.getD io.freshId
  let due : Event :=
    .runDue scheduled.timerId runId scheduled.nextRunAt
  let started : Event :=
    .runStarted scheduled.timerId runId io.now
      scheduled.attempt
  match inner.appendApplyOrStop codec due io.first with
  | (inner, .error _) => some (inner.finishRun, none)
  | (inner, .ok ()) =>
      match inner.appendApplyOrStop codec started
          io.second with
      | (inner, .error _) => some (inner.finishRun, none)
      | (inner, .ok ()) =>
          let execution : Execution :=
            { timerId := scheduled.timerId
              runId := runId
              attempt := scheduled.attempt
              spec := spec
              startedAt := io.now
              missingFunction :=
                scheduled.timerId ∉ inner.registry }
          if spec.overlap = .delay then
            some (inner, some execution)
          else
            (inner.rescheduleFrom cal spec
              scheduled.nextRunAt).map fun inner =>
                (inner, some execution)

/- The first section of `run_timer`; `none` is a panic. -/
def runTimerStart
    (inner : Inner)
    (scheduled : ScheduledTimer)
    (io : StartIo) : Option (Inner × Option Execution) :=
  let inner := inner.clearNextRun scheduled.timerId
  match inner.state.specs[scheduled.timerId]? with
  | none => some (inner.finishRun, none)
  | some spec =>
      if spec.overlap = .skip ∧
          inner.state.states[scheduled.timerId]? =
            some .running then
        (skipRun cal codec inner scheduled spec io).map
          fun inner => (inner, none)
      else
        startRun cal codec inner scheduled spec io

/- Milliseconds between two instants, at least zero. -/
def durationMs
    (startedAt now : DateTime) : UInt64 :=
  UInt64.ofNat ((now - startedAt).tdiv 1000000).toNat

/- The outcome of a run that succeeded. -/
def finishSucceeded
    (inner : Inner)
    (run : Execution)
    (io : FinishIo) : Option Inner :=
  let event : Event :=
    .runSucceeded run.spec.id run.runId io.now
      (durationMs run.startedAt io.now)
  match inner.appendApplyOrStop codec event io.first with
  | (inner, .error _) => some inner
  | (inner, .ok ()) =>
      if run.spec.overlap = .delay then
        inner.rescheduleFrom cal run.spec io.now
      else
        some inner

/- Other policies keep no second entry beside a retry. -/
def dropNextRun
    (inner : Inner)
    (spec : TimerSpec) : Inner :=
  if spec.overlap = .delay then
    inner
  else
    ({ inner with
        heap :=
          inner.heap.removeTimer spec.id }).clearNextRun
      spec.id

/- A failed run that is tried again at `retryAt`. -/
def finishRetrying
    (inner : Inner)
    (run : Execution)
    (attempt : UInt32)
    (retryAt : DateTime)
    (io : FinishIo) : Inner :=
  let event : Event :=
    .runRetrying run.spec.id run.runId (attempt + 1) retryAt
  match (dropNextRun inner run.spec).appendApplyOrStop codec
      event io.second with
  | (inner, .error _) => inner
  | (inner, .ok ()) =>
      if inner.runtime.shuttingDown ∨
          inner.runtime.stopped then
        inner
      else
        { inner with
          heap :=
            inner.heap.push
              { timerId := run.spec.id
                nextRunAt := retryAt
                runId := some run.runId
                attempt := attempt + 1 } }

/- A failed run that is not tried again. -/
def finishDead
    (inner : Inner)
    (run : Execution)
    (io : FinishIo) : Option Inner :=
  let event : Event := .runDead run.spec.id run.runId io.now
  match inner.appendApplyOrStop codec event io.second with
  | (inner, .error _) => some inner
  | (inner, .ok ()) =>
      if run.spec.overlap = .delay ∧
          run.spec.schedule.isOneShot = false then
        inner.rescheduleFrom cal run.spec io.now
      else
        some inner

/- The outcome of a run that failed. -/
def finishFailed
    (inner : Inner)
    (run : Execution)
    (error : String)
    (io : FinishIo) : Option Inner :=
  -- the attempt is read from the waiting retry, if any
  let attempt :=
    (inner.state.pendingRetries[run.spec.id]?.map
      fun retry => retry.2.2).getD 1
  let event : Event :=
    .runFailed run.spec.id run.runId io.now error attempt
  match inner.appendApplyOrStop codec event io.first with
  | (inner, .error _) => some inner
  | (inner, .ok ()) =>
      match run.spec.retry.nextRetryAt io.now attempt with
      | none => none
      | some (some retryAt) =>
          some
            (finishRetrying codec inner run attempt retryAt
              io)
      | some none => finishDead cal codec inner run io

/- The outcome of a run whose callable is not registered. -/
def finishMissing
    (inner : Inner)
    (run : Execution) : Inner :=
  let inner := dropNextRun inner run.spec
  { inner with
    state := inner.state.markFunctionMissing run.spec.id }

/- The last section of `run_timer`; `none` is a panic. -/
def runTimerFinish
    (inner : Inner)
    (run : Execution)
    (io : FinishIo) : Option Inner :=
  if run.missingFunction then
    some (finishMissing inner run).finishRun
  else
    match io.result with
    | .ok () =>
        (finishSucceeded cal codec inner run io).map
          Inner.finishRun
    | .error error =>
        (finishFailed cal codec inner run error io).map
          Inner.finishRun

end Kron

------------------------------------------------------------
-- The Engine As A Machine
------------------------------------------------------------

namespace Kron

open FileSystem

/- Where the dispatch loop is. -/
inductive DispatchLoop where
| idle
| running (due : List ScheduledTimer)
| exited
deriving DecidableEq

/-
  The shared state, the dispatch loop with the entries it
  has popped, the tasks that were spawned and have not begun
  or are between their two sections, and the calls of
  `shutdown` that wait or have seen the engine idle.
-/
structure Engine where
  inner : Inner
  loop : DispatchLoop
  spawned : List ScheduledTimer
  executing : List Execution
  waiting : Nat
  seenIdle : Nat

/-
  One section under the lock, or the end of the process and
  the next `Engine::open` on the directory it left.
-/
inductive Section where
| schedule (call : ScheduleCall)
| start
| dispatch (now : DateTime)
| spawn (i : Nat)
| runStart (i : Nat) (io : StartIo)
| runFinish (i : Nat) (io : FinishIo)
| compact (now later : DateTime)
| reopen (dataDir : String) (dir : DataDir)
| shutdownBegin
| shutdownCheck
| shutdownTimeout
| shutdownEnd

namespace Engine

/- An engine that was opened and not yet used. -/
def ofInner
    (inner : Inner) : Engine where
  inner := inner
  loop := .idle
  spawned := []
  executing := []
  waiting := 0
  seenIdle := 0

/- `Engine::start`. -/
def start
    (engine : Engine) : Engine :=
  if engine.inner.runtime.stopped ∨
      engine.inner.runtime.started then
    engine
  else
    { engine with
      inner :=
        { engine.inner with
          runtime :=
            { engine.inner.runtime with started := true } }
      loop := .running [] }

/- The top of the dispatch loop: pop what is due. -/
def dispatch
    (engine : Engine)
    (now : DateTime) : Option Engine :=
  match engine.loop with
  | .running [] =>
      if engine.inner.runtime.shuttingDown then
        some { engine with loop := .exited }
      else
        let popped := engine.inner.heap.popDue now
        some
          { engine with
            inner := { engine.inner with heap := popped.2 }
            loop := .running popped.1 }
  | _ => none

/-
  Spawn one of the earliest popped entries. Entries with the
  same time leave the heap in no fixed order. A shutdown
  drops what is left.
-/
def spawn
    (engine : Engine)
    (i : Nat) : Option Engine :=
  match engine.loop with
  | .running due =>
      match due[i]? with
      | none => none
      | some scheduled =>
          if engine.inner.runtime.shuttingDown then
            some { engine with loop := .running [] }
          else if ∀ entry ∈ due,
              scheduled.nextRunAt ≤ entry.nextRunAt then
            some
              { engine with
                inner :=
                  { engine.inner with
                    runtime :=
                      { engine.inner.runtime with
                        activeRuns :=
                          engine.inner.runtime.activeRuns +
                            1 } }
                loop := .running (due.eraseIdx i)
                spawned := scheduled :: engine.spawned }
          else
            none
  | _ => none

/- The first section of `Engine::shutdown`. -/
def shutdownBegin
    (engine : Engine) : Engine :=
  if engine.inner.runtime.stopped then
    engine
  else if engine.inner.runtime.started then
    { engine with
      inner :=
        { engine.inner with
          runtime :=
            { engine.inner.runtime with
              shuttingDown := true } }
      waiting := engine.waiting + 1 }
  else
    { engine with
      inner :=
        { engine.inner with
          runtime :=
            { engine.inner.runtime with stopped := true } } }

/- The last section of `Engine::shutdown`. -/
def shutdownEnd
    (engine : Engine) : Engine :=
  { engine with
    inner :=
      { engine.inner with
        runtime :=
          { engine.inner.runtime with stopped := true } }
    seenIdle := engine.seenIdle - 1 }

variable (cal : Calendar)
variable (codec : JsonCodec LogEntry)
variable (snaps : JsonCodec Snapshot)

/- One section of one thread. -/
def step
    (engine : Engine) : Section → Option Engine
| .schedule call =>
    (scheduleWithOverlap cal codec engine.inner call).map
      fun result => { engine with inner := result.1 }
| .start => some engine.start
| .dispatch now => engine.dispatch now
| .spawn i => engine.spawn i
| .runStart i io =>
    match engine.spawned[i]? with
    | none => none
    | some scheduled =>
        (runTimerStart cal codec engine.inner scheduled
          io).map fun result =>
            { engine with
              inner := result.1
              spawned := engine.spawned.eraseIdx i
              executing :=
                result.2.toList ++ engine.executing }
| .runFinish i io =>
    match engine.executing[i]? with
    | none => none
    | some run =>
        (runTimerFinish cal codec engine.inner run io).map
          fun inner =>
            { engine with
              inner := inner
              executing := engine.executing.eraseIdx i }
| .compact now later =>
    some
      { engine with
        inner :=
          { engine.inner with
            dir :=
              runAll engine.inner.dir
                (Kron.compact snaps engine.inner.dir
                  engine.inner.state now later) } }
| .reopen dataDir dir =>
    match openEngine codec snaps dataDir dir with
    | .error _ => none
    | .ok inner =>
        some
          (ofInner
            { inner with logged := engine.inner.logged })
| .shutdownBegin => some engine.shutdownBegin
| .shutdownCheck =>
    if 0 < engine.waiting ∧
        engine.inner.runtime.activeRuns = 0 then
      some
        { engine with
          waiting := engine.waiting - 1
          seenIdle := engine.seenIdle + 1 }
    else
      none
| .shutdownTimeout =>
    if 0 < engine.waiting then
      some { engine with waiting := engine.waiting - 1 }
    else
      none
| .shutdownEnd =>
    if 0 < engine.seenIdle then
      some engine.shutdownEnd
    else
      none

/- Sections one after the other. -/
def run
    (engine : Engine)
    (sections : List Section) : Option Engine :=
  Machine.run (step cal codec snaps) engine sections

end Engine

end Kron

------------------------------------------------------------
-- Sections At Given Seconds
------------------------------------------------------------

namespace Kron

/- An append that succeeds. -/
def appendAt
    (n : Int) : AppendIo where
  ts := second n
  failure := none

/- Register a spec. -/
def callAt
    (spec : TimerSpec)
    (n : Int) : ScheduleCall where
  id := spec.id
  schedule := spec.schedule
  fnName := "sync"
  retry := some spec.retry
  timezone := some spec.timezone
  overlap := some spec.overlap
  createdAt := second n
  now := second n
  io := appendAt n

/- Start a run with a given id. -/
def startAt
    (runId : RunId)
    (n : Int) : StartIo where
  freshId := runId
  now := second n
  first := appendAt n
  second := appendAt n

/- Finish a run with a given result. -/
def finishAt
    (result : Except String Unit)
    (n : Int) : FinishIo where
  result := result
  now := second n
  first := appendAt n
  second := appendAt n

/- The engine of an empty directory. -/
def emptyEngine : Engine :=
  Engine.ofInner (Inner.opened ∅ EngineState.new)

theorem openEngine_empty
    (codec : JsonCodec LogEntry)
    (snaps : JsonCodec Snapshot)
    (dataDir : String) :
    openEngine codec snaps dataDir ∅ =
      .ok (Inner.opened ∅ EngineState.new) := by
  have hLoad :
      loadState codec snaps dataDir ∅ =
        .ok EngineState.new := rfl
  unfold openEngine
  rw [hLoad]

end Kron
