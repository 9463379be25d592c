import Kron.Embedded.Engine

/-
  What the sections of the engine do.

  Each section is one of a few outcomes, and each outcome is
  a sequence of small operations on the shared state, so
  that invariants need not look into the sections again.

  Key definitions include:
    * `Kron.Inner.logApply`
    * `Kron.Inner.logFail`
    * `Kron.Rescheduled`
    * `Kron.ScheduleOutcome`
    * `Kron.StartOutcome`
    * `Kron.FinishOutcome`

  Key theorems include:
    * `Kron.scheduleOutcome_of_eq_some`
    * `Kron.startOutcome_of_eq_some`
    * `Kron.finishOutcome_of_eq_some`
    * `Kron.scheduleWithOverlap_of_known`
-/

------------------------------------------------------------
-- Appends
------------------------------------------------------------

namespace Kron

namespace Inner

variable (codec : JsonCodec LogEntry)

/- An event was handed to the log. -/
def logOnly
    (inner : Inner)
    (event : Event)
    (io : AppendIo) : Inner :=
  (inner.append codec event io).1

/- An event was logged and applied. -/
def logApply
    (inner : Inner)
    (event : Event)
    (io : AppendIo) : Inner :=
  { inner.logOnly codec event io with
    state := inner.state.apply event }

/- An event could not be logged, and the engine stopped. -/
def logFail
    (inner : Inner)
    (event : Event)
    (io : AppendIo) : Inner :=
  { inner.logOnly codec event io with
    runtime :=
      { inner.runtime with
        shuttingDown := true
        stopped := true } }

theorem append_cases
    (inner : Inner)
    (event : Event)
    (io : AppendIo) :
    (io.failure = none ∧
        inner.append codec event io =
          (inner.logOnly codec event io, .ok ())) ∨
      ∃ failure,
        io.failure = some failure ∧
          inner.append codec event io =
            (inner.logOnly codec event io,
              .error (.logIo failure.message)) := by
  cases hFailure : io.failure with
  | none =>
      left
      refine ⟨rfl, ?_⟩
      unfold logOnly append
      rw [hFailure]
  | some failure =>
      right
      refine ⟨failure, rfl, ?_⟩
      unfold logOnly append
      rw [hFailure]

theorem appendApplyOrStop_cases
    (inner : Inner)
    (event : Event)
    (io : AppendIo) :
    (io.failure = none ∧
        inner.appendApplyOrStop codec event io =
          (inner.logApply codec event io, .ok ())) ∨
      ∃ failure,
        io.failure = some failure ∧
          inner.appendApplyOrStop codec event io =
            (inner.logFail codec event io,
              .error (.logIo failure.message)) := by
  unfold appendApplyOrStop
  rcases inner.append_cases codec event io with
    ⟨hNone, hAppend⟩ | ⟨failure, hSome, hAppend⟩
  · rw [hAppend]
    exact Or.inl ⟨hNone, rfl⟩
  · rw [hAppend]
    exact Or.inr ⟨failure, hSome, rfl⟩

end Inner

end Kron

------------------------------------------------------------
-- Registration
------------------------------------------------------------

namespace Kron

namespace Inner

/- An update removes the entries of the old spec. -/
def dropEntries
    (inner : Inner)
    (id : TimerId) : Inner :=
  ({ inner with
      heap := inner.heap.removeTimer id }).clearNextRun id

end Inner

/- How the spec of a call is stored. -/
inductive StoreOutcome
    (codec : JsonCodec LogEntry)
    (inner : Inner)
    (spec : TimerSpec)
    (io : AppendIo) : Inner → Prop where
| known
    (hSpec : inner.state.specs[spec.id]? = some spec) :
    StoreOutcome codec inner spec io inner
| created
    (hSpec : inner.state.specs[spec.id]? = none)
    (hIo : io.failure = none) :
    StoreOutcome codec inner spec io
      (inner.logApply codec (.timerCreated spec) io)
| updated
    (old : TimerSpec)
    (hSpec : inner.state.specs[spec.id]? = some old)
    (hNe : old ≠ spec)
    (hIo : io.failure = none) :
    StoreOutcome codec inner spec io
      ((inner.logApply codec (.timerUpdated spec)
        io).dropEntries spec.id)

/- How the next run of a registered timer is found. -/
inductive NextOutcome
    (cal : Calendar)
    (inner : Inner)
    (id : TimerId)
    (now : DateTime) : Inner → Prop where
| waiting
    (hNext : id ∈ inner.state.nextRuns) :
    NextOutcome cal inner id now inner
| pushed
    (spec : TimerSpec)
    (next : DateTime)
    (hNext : id ∉ inner.state.nextRuns)
    (hSpec : inner.state.specs[id]? = some spec)
    (hAfter :
      spec.schedule.nextRunAfter cal now spec.timezone =
        some (.ok (some next))) :
    NextOutcome cal inner id now (inner.pushNextRun id next)
| none
    (spec : TimerSpec)
    (result : Except KronError (Option DateTime))
    (hNext : id ∉ inner.state.nextRuns)
    (hSpec : inner.state.specs[id]? = some spec)
    (hAfter :
      spec.schedule.nextRunAfter cal now spec.timezone =
        some result)
    (hNone : ∀ next, result ≠ .ok (some next)) :
    NextOutcome cal inner id now inner

/- A call is refused, fails to log its spec, or succeeds. -/
inductive ScheduleOutcome
    (cal : Calendar)
    (codec : JsonCodec LogEntry)
    (inner : Inner)
    (call : ScheduleCall) :
    Inner → Except KronError Unit → Prop where
| stopped
    (hStopped :
      inner.runtime.shuttingDown ∨ inner.runtime.stopped) :
    ScheduleOutcome cal codec inner call inner
      (.error .alreadyStopped)
| notCreated
    (failure : AppendFailure)
    (hSpec : inner.state.specs[call.id]? = none)
    (hIo : call.io.failure = some failure) :
    ScheduleOutcome cal codec inner call
      (inner.logOnly codec
        (.timerCreated (call.spec inner.state)) call.io)
      (.error (.logIo failure.message))
| notUpdated
    (failure : AppendFailure)
    (hIo : call.io.failure = some failure) :
    ScheduleOutcome cal codec inner call
      (inner.logOnly codec
        (.timerUpdated (call.spec inner.state)) call.io)
      (.error (.logIo failure.message))
| scheduled
    (stored inner' : Inner)
    (hRuns :
      ¬ (inner.runtime.shuttingDown ∨
          inner.runtime.stopped))
    (hStore :
      StoreOutcome codec inner (call.spec inner.state)
        call.io stored)
    (hNext :
      NextOutcome cal (stored.register call.id call.fnName)
        call.id call.now inner') :
    ScheduleOutcome cal codec inner call inner' (.ok ())

variable {cal : Calendar}
variable {codec : JsonCodec LogEntry}

theorem nextOutcome_of_eq_some
    {inner inner' : Inner}
    {id : TimerId}
    {now : DateTime}
    (hNext : inner.scheduleNext cal id now = some inner') :
    NextOutcome cal inner id now inner' := by
  unfold Inner.scheduleNext at hNext
  by_cases hMem : id ∈ inner.state.nextRuns
  · rw [if_pos hMem] at hNext
    rw [← Option.some.inj hNext]
    exact .waiting hMem
  · rw [if_neg hMem] at hNext
    cases hSpec : inner.state.specs[id]? with
    | none => simp [hSpec] at hNext
    | some spec =>
        simp only [hSpec] at hNext
        split at hNext
        · cases hNext
        · rename_i next hAfter
          rw [← Option.some.inj hNext]
          exact .pushed spec next hMem hSpec hAfter
        · rename_i result hNotSome hAfter
          rw [← Option.some.inj hNext]
          exact
            .none spec result hMem hSpec hAfter hNotSome

/- A call that returns has one of the outcomes. -/
theorem scheduleOutcome_of_eq_some
    {inner inner' : Inner}
    {call : ScheduleCall}
    {result : Except KronError Unit}
    (hCall :
      scheduleWithOverlap cal codec inner call =
        some (inner', result)) :
    ScheduleOutcome cal codec inner call inner' result := by
  unfold scheduleWithOverlap at hCall
  by_cases hStopped :
      inner.runtime.shuttingDown ∨ inner.runtime.stopped
  · rw [if_pos hStopped] at hCall
    cases hCall
    exact .stopped hStopped
  · rw [if_neg hStopped] at hCall
    have hDone :
        ∀ stored,
          StoreOutcome codec inner (call.spec inner.state)
              call.io stored →
            ((stored.register call.id
                call.fnName).scheduleNext cal call.id
                  call.now).map
                (fun inner => (inner, .ok ())) =
              some (inner', result) →
            ScheduleOutcome cal codec inner call inner'
              result := by
      intro stored hStore hMap
      rcases Option.map_eq_some_iff.mp hMap with
        ⟨next, hNext, hEq⟩
      cases hEq
      exact
        .scheduled stored inner' hStopped hStore
          (nextOutcome_of_eq_some hNext)
    unfold Inner.storeSpec at hCall
    cases hSpec : inner.state.specs[call.id]? with
    | none =>
        have hSpec' :
            inner.state.specs[
              (call.spec inner.state).id]? = none := hSpec
        simp only [hSpec'] at hCall
        rcases inner.append_cases codec
            (.timerCreated (call.spec inner.state))
            call.io with
          ⟨hNone, hAppend⟩ | ⟨failure, hSome, hAppend⟩
        · simp only [hAppend] at hCall
          exact hDone _ (.created hSpec' hNone) hCall
        · simp only [hAppend] at hCall
          cases hCall
          exact .notCreated failure hSpec hSome
    | some old =>
        have hSpec' :
            inner.state.specs[
              (call.spec inner.state).id]? = some old :=
          hSpec
        simp only [hSpec'] at hCall
        by_cases hSame : old = call.spec inner.state
        · simp only [hSame, if_true] at hCall
          rw [hSame] at hSpec'
          exact hDone _ (.known hSpec') hCall
        · simp only [hSame, if_false] at hCall
          rcases inner.append_cases codec
              (.timerUpdated (call.spec inner.state))
              call.io with
            ⟨hNone, hAppend⟩ | ⟨failure, hSome, hAppend⟩
          · simp only [hAppend] at hCall
            exact
              hDone _ (.updated old hSpec' hSame hNone) hCall
          · simp only [hAppend] at hCall
            cases hCall
            exact .notUpdated failure hSome

end Kron

------------------------------------------------------------
-- A Known Timer
------------------------------------------------------------

namespace Kron

@[simp] theorem Inner.register_specs
    (inner : Inner)
    (id : TimerId)
    (fnName : String) :
    (inner.register id fnName).state.specs =
      inner.state.specs := by
  simp only [Inner.register, EngineState.registerFunction]
  split <;> rfl

@[simp] theorem Inner.register_nextRuns
    (inner : Inner)
    (id : TimerId)
    (fnName : String) :
    (inner.register id fnName).state.nextRuns =
      inner.state.nextRuns := by
  simp only [Inner.register, EngineState.registerFunction]
  split <;> rfl

/-
  Registering a known spec of a timer without a next run
  pushes a first attempt.
-/
theorem scheduleWithOverlap_of_known
    {cal : Calendar}
    {codec : JsonCodec LogEntry}
    {inner : Inner}
    {call : ScheduleCall}
    {next : DateTime}
    (hRuns :
      ¬ (inner.runtime.shuttingDown ∨
          inner.runtime.stopped))
    (hSpec :
      inner.state.specs[call.id]? =
        some (call.spec inner.state))
    (hNone : call.id ∉ inner.state.nextRuns)
    (hAfter :
      (call.spec inner.state).schedule.nextRunAfter cal
          call.now (call.spec inner.state).timezone =
        some (.ok (some next))) :
    scheduleWithOverlap cal codec inner call =
      some
        ((inner.register call.id call.fnName).pushNextRun
          call.id next, .ok ()) := by
  have hStore :
      inner.storeSpec codec (call.spec inner.state)
          call.io = (inner, .ok ()) := by
    unfold Inner.storeSpec
    have hId : (call.spec inner.state).id = call.id := rfl
    rw [hId, hSpec]
    simp
  unfold scheduleWithOverlap
  rw [if_neg hRuns, hStore]
  simp only [Inner.scheduleNext, Inner.register_nextRuns,
    if_neg hNone, Inner.register_specs, hSpec, hAfter,
    Option.map_some]

end Kron

------------------------------------------------------------
-- Starting A Run
------------------------------------------------------------

namespace Kron

/- How the next run of a timer is computed after a run. -/
inductive Rescheduled
    (cal : Calendar)
    (inner : Inner)
    (spec : TimerSpec)
    (from_ : DateTime) : Inner → Prop where
| stopped
    (hStopped :
      inner.runtime.shuttingDown ∨ inner.runtime.stopped) :
    Rescheduled cal inner spec from_ inner
| pushed
    (next : DateTime)
    (hRuns :
      ¬ (inner.runtime.shuttingDown ∨
          inner.runtime.stopped))
    (hAfter :
      spec.schedule.nextRunAfter cal from_ spec.timezone =
        some (.ok (some next))) :
    Rescheduled cal inner spec from_
      (inner.pushNextRun spec.id next)
| cleared
    (result : Except KronError (Option DateTime))
    (hRuns :
      ¬ (inner.runtime.shuttingDown ∨
          inner.runtime.stopped))
    (hAfter :
      spec.schedule.nextRunAfter cal from_ spec.timezone =
        some result)
    (hNone : ∀ next, result ≠ .ok (some next)) :
    Rescheduled cal inner spec from_
      (inner.clearNextRun spec.id)

theorem rescheduled_of_eq_some
    {cal : Calendar}
    {inner inner' : Inner}
    {spec : TimerSpec}
    {from_ : DateTime}
    (hNext :
      inner.rescheduleFrom cal spec from_ = some inner') :
    Rescheduled cal inner spec from_ inner' := by
  unfold Inner.rescheduleFrom at hNext
  by_cases hStopped :
      inner.runtime.shuttingDown ∨ inner.runtime.stopped
  · rw [if_pos hStopped] at hNext
    cases hNext
    exact .stopped hStopped
  · rw [if_neg hStopped] at hNext
    split at hNext
    · cases hNext
    · rename_i next hAfter
      cases hNext
      exact .pushed next hStopped hAfter
    · rename_i result hNotSome hAfter
      cases hNext
      exact .cleared result hStopped hAfter hNotSome

namespace ScheduledTimer

/- The run id of an entry; a first attempt draws one. -/
def runIdOr
    (scheduled : ScheduledTimer)
    (freshId : RunId) : RunId :=
  scheduled.runId.getD freshId

/- The event that a run is skipped. -/
def skippedEvent
    (scheduled : ScheduledTimer)
    (io : StartIo) : Event :=
  .runSkippedOverlap scheduled.timerId
    (scheduled.runIdOr io.freshId) scheduled.nextRunAt
    io.now

/- The event that a run is due. -/
def dueEvent
    (scheduled : ScheduledTimer)
    (io : StartIo) : Event :=
  .runDue scheduled.timerId
    (scheduled.runIdOr io.freshId) scheduled.nextRunAt

/- The event that a run is started. -/
def startedEvent
    (scheduled : ScheduledTimer)
    (io : StartIo) : Event :=
  .runStarted scheduled.timerId
    (scheduled.runIdOr io.freshId) io.now
    scheduled.attempt

/- The run that is started from an entry. -/
def execution
    (scheduled : ScheduledTimer)
    (spec : TimerSpec)
    (missing : Bool)
    (io : StartIo) : Execution where
  timerId := scheduled.timerId
  runId := scheduled.runIdOr io.freshId
  attempt := scheduled.attempt
  spec := spec
  startedAt := io.now
  missingFunction := missing

end ScheduledTimer

/-
  What the first section of a run does, from the state
  `inner` in which the next run is already removed.
-/
inductive StartOutcome
    (cal : Calendar)
    (codec : JsonCodec LogEntry)
    (inner : Inner)
    (scheduled : ScheduledTimer)
    (io : StartIo) :
    Inner → Option Execution → Prop where
| noSpec
    (hSpec :
      inner.state.specs[scheduled.timerId]? = none) :
    StartOutcome cal codec inner scheduled io
      inner.finishRun none
| notSkipped
    (spec : TimerSpec)
    (hSpec :
      inner.state.specs[scheduled.timerId]? = some spec)
    (hIo : io.first.failure ≠ none) :
    StartOutcome cal codec inner scheduled io
      (inner.logFail codec (scheduled.skippedEvent io)
        io.first).finishRun none
| skipped
    (spec : TimerSpec)
    (inner' : Inner)
    (hSpec :
      inner.state.specs[scheduled.timerId]? = some spec)
    (hOverlap : spec.overlap = .skip)
    (hRunning :
      inner.state.states[scheduled.timerId]? =
        some .running)
    (hNext :
      Rescheduled cal
        (inner.logApply codec (scheduled.skippedEvent io)
          io.first)
        spec scheduled.nextRunAt inner') :
    StartOutcome cal codec inner scheduled io
      inner'.finishRun none
| notDue
    (spec : TimerSpec)
    (hSpec :
      inner.state.specs[scheduled.timerId]? = some spec)
    (hIo : io.first.failure ≠ none) :
    StartOutcome cal codec inner scheduled io
      (inner.logFail codec (scheduled.dueEvent io)
        io.first).finishRun none
| notStarted
    (spec : TimerSpec)
    (hSpec :
      inner.state.specs[scheduled.timerId]? = some spec)
    (hIo : io.second.failure ≠ none) :
    StartOutcome cal codec inner scheduled io
      ((inner.logApply codec (scheduled.dueEvent io)
        io.first).logFail codec (scheduled.startedEvent io)
        io.second).finishRun none
| delayed
    (spec : TimerSpec)
    (missing : Bool)
    (hSpec :
      inner.state.specs[scheduled.timerId]? = some spec)
    (hOverlap : spec.overlap = .delay)
    (hMissing :
      missing = true ↔
        scheduled.timerId ∉ inner.registry) :
    StartOutcome cal codec inner scheduled io
      ((inner.logApply codec (scheduled.dueEvent io)
        io.first).logApply codec (scheduled.startedEvent io)
        io.second)
      (some (scheduled.execution spec missing io))
| started
    (spec : TimerSpec)
    (missing : Bool)
    (inner' : Inner)
    (hSpec :
      inner.state.specs[scheduled.timerId]? = some spec)
    (hOverlap : spec.overlap ≠ .delay)
    (hIdle :
      spec.overlap = .skip →
        inner.state.states[scheduled.timerId]? ≠
          some .running)
    (hMissing :
      missing = true ↔
        scheduled.timerId ∉ inner.registry)
    (hNext :
      Rescheduled cal
        ((inner.logApply codec (scheduled.dueEvent io)
          io.first).logApply codec
          (scheduled.startedEvent io) io.second)
        spec scheduled.nextRunAt inner') :
    StartOutcome cal codec inner scheduled io inner'
      (some (scheduled.execution spec missing io))

variable {cal : Calendar}
variable {codec : JsonCodec LogEntry}

theorem skipRun_eq
    (inner : Inner)
    (scheduled : ScheduledTimer)
    (spec : TimerSpec)
    (io : StartIo) :
    skipRun cal codec inner scheduled spec io =
      match inner.appendApplyOrStop codec
          (scheduled.skippedEvent io) io.first with
      | (inner, .error _) => some inner.finishRun
      | (inner, .ok ()) =>
          (inner.rescheduleFrom cal spec
            scheduled.nextRunAt).map Inner.finishRun :=
  rfl

theorem skipOutcome_of_eq_some
    {inner inner' : Inner}
    {scheduled : ScheduledTimer}
    {spec : TimerSpec}
    {io : StartIo}
    (hSpec :
      inner.state.specs[scheduled.timerId]? = some spec)
    (hOverlap : spec.overlap = .skip)
    (hRunning :
      inner.state.states[scheduled.timerId]? =
        some .running)
    (hSkip :
      skipRun cal codec inner scheduled spec io =
        some inner') :
    StartOutcome cal codec inner scheduled io inner'
      none := by
  rw [skipRun_eq] at hSkip
  rcases inner.appendApplyOrStop_cases codec
      (scheduled.skippedEvent io) io.first with
    ⟨_, hAppend⟩ | ⟨_, hSome, hAppend⟩
  · rw [hAppend] at hSkip
    rcases Option.map_eq_some_iff.mp hSkip with
      ⟨next, hNext, hEq⟩
    rw [← hEq]
    exact
      .skipped spec next hSpec hOverlap hRunning
        (rescheduled_of_eq_some hNext)
  · rw [hAppend] at hSkip
    rw [← Option.some.inj hSkip]
    exact .notSkipped spec hSpec (by simp [hSome])

theorem startRun_eq
    (inner : Inner)
    (scheduled : ScheduledTimer)
    (spec : TimerSpec)
    (io : StartIo) :
    startRun cal codec inner scheduled spec io =
      match inner.appendApplyOrStop codec
          (scheduled.dueEvent io) io.first with
      | (inner, .error _) => some (inner.finishRun, none)
      | (inner, .ok ()) =>
          match inner.appendApplyOrStop codec
              (scheduled.startedEvent io) io.second with
          | (inner, .error _) =>
              some (inner.finishRun, none)
          | (inner, .ok ()) =>
              if spec.overlap = .delay then
                some (inner,
                  some
                    (scheduled.execution spec
                      (decide
                        (scheduled.timerId ∉
                          inner.registry)) io))
              else
                (inner.rescheduleFrom cal spec
                  scheduled.nextRunAt).map fun next =>
                    (next,
                      some
                        (scheduled.execution spec
                          (decide
                            (scheduled.timerId ∉
                              inner.registry)) io)) :=
  rfl

theorem runOutcome_of_eq_some
    {inner inner' : Inner}
    {scheduled : ScheduledTimer}
    {spec : TimerSpec}
    {io : StartIo}
    {run : Option Execution}
    (hSpec :
      inner.state.specs[scheduled.timerId]? = some spec)
    (hIdle :
      spec.overlap = .skip →
        inner.state.states[scheduled.timerId]? ≠
          some .running)
    (hStart :
      startRun cal codec inner scheduled spec io =
        some (inner', run)) :
    StartOutcome cal codec inner scheduled io inner'
      run := by
  rw [startRun_eq] at hStart
  rcases inner.appendApplyOrStop_cases codec
      (scheduled.dueEvent io) io.first with
    ⟨_, hAppend⟩ | ⟨_, hSome, hAppend⟩
  · simp only [hAppend] at hStart
    rcases (inner.logApply codec (scheduled.dueEvent io)
        io.first).appendApplyOrStop_cases codec
        (scheduled.startedEvent io) io.second with
      ⟨_, hAppend'⟩ | ⟨_, hSome, hAppend'⟩
    · simp only [hAppend'] at hStart
      by_cases hDelay : spec.overlap = .delay
      · rw [if_pos hDelay] at hStart
        cases hStart
        exact
          .delayed spec _ hSpec hDelay decide_eq_true_iff
      · rw [if_neg hDelay] at hStart
        rcases Option.map_eq_some_iff.mp hStart with
          ⟨next, hNext, hEq⟩
        cases hEq
        exact
          .started spec _ inner' hSpec hDelay hIdle
            decide_eq_true_iff
            (rescheduled_of_eq_some hNext)
    · simp only [hAppend'] at hStart
      cases hStart
      exact .notStarted spec hSpec (by simp [hSome])
  · simp only [hAppend] at hStart
    cases hStart
    exact .notDue spec hSpec (by simp [hSome])

/- The first section of a run has one of the outcomes. -/
theorem startOutcome_of_eq_some
    {inner inner' : Inner}
    {scheduled : ScheduledTimer}
    {io : StartIo}
    {run : Option Execution}
    (hStart :
      runTimerStart cal codec inner scheduled io =
        some (inner', run)) :
    StartOutcome cal codec
      (inner.clearNextRun scheduled.timerId) scheduled io
      inner' run := by
  unfold runTimerStart at hStart
  simp only at hStart
  cases hSpec :
      (inner.clearNextRun scheduled.timerId).state.specs[
        scheduled.timerId]? with
  | none =>
      simp only [hSpec] at hStart
      cases hStart
      exact .noSpec hSpec
  | some spec =>
      simp only [hSpec] at hStart
      split at hStart
      · rename_i hSkipped
        rcases Option.map_eq_some_iff.mp hStart with
          ⟨next, hNext, hEq⟩
        cases hEq
        exact
          skipOutcome_of_eq_some hSpec hSkipped.1
            hSkipped.2 hNext
      · rename_i hNotSkipped
        apply runOutcome_of_eq_some hSpec _ hStart
        intro hOverlap hRunning
        exact hNotSkipped ⟨hOverlap, hRunning⟩

end Kron

------------------------------------------------------------
-- Finishing A Run
------------------------------------------------------------

namespace Kron

namespace Execution

/- The event that a run succeeded. -/
def succeededEvent
    (run : Execution)
    (io : FinishIo) : Event :=
  .runSucceeded run.spec.id run.runId io.now
    (durationMs run.startedAt io.now)

/- The event that a run failed. -/
def failedEvent
    (run : Execution)
    (attempt : UInt32)
    (error : String)
    (io : FinishIo) : Event :=
  .runFailed run.spec.id run.runId io.now error attempt

/- The event that a run is tried again. -/
def retryingEvent
    (run : Execution)
    (attempt : UInt32)
    (retryAt : DateTime) : Event :=
  .runRetrying run.spec.id run.runId (attempt + 1) retryAt

/- The event that a run is given up. -/
def deadEvent
    (run : Execution)
    (io : FinishIo) : Event :=
  .runDead run.spec.id run.runId io.now

/- The entry of a retry. -/
def retryEntry
    (run : Execution)
    (attempt : UInt32)
    (retryAt : DateTime) : ScheduledTimer where
  timerId := run.spec.id
  nextRunAt := retryAt
  runId := some run.runId
  attempt := attempt + 1

end Execution

namespace Inner

/- The attempt that the failure path reads. -/
def readAttempt
    (inner : Inner)
    (id : TimerId) : UInt32 :=
  (inner.state.pendingRetries[id]?.map
    fun retry => retry.2.2).getD 1

/- Put an entry into the heap. -/
def pushEntry
    (inner : Inner)
    (entry : ScheduledTimer) : Inner :=
  { inner with heap := inner.heap.push entry }

end Inner

/- What the last section of a run does. -/
inductive FinishOutcome
    (cal : Calendar)
    (codec : JsonCodec LogEntry)
    (inner : Inner)
    (run : Execution)
    (io : FinishIo) : Inner → Prop where
| missing
    (hMissing : run.missingFunction = true) :
    FinishOutcome cal codec inner run io
      (finishMissing inner run).finishRun
| notSucceeded
    (hIo : io.first.failure ≠ none) :
    FinishOutcome cal codec inner run io
      (inner.logFail codec (run.succeededEvent io)
        io.first).finishRun
| delayed
    (inner' : Inner)
    (hOverlap : run.spec.overlap = .delay)
    (hNext :
      Rescheduled cal
        (inner.logApply codec (run.succeededEvent io)
          io.first)
        run.spec io.now inner') :
    FinishOutcome cal codec inner run io inner'.finishRun
| succeeded
    (hOverlap : run.spec.overlap ≠ .delay) :
    FinishOutcome cal codec inner run io
      (inner.logApply codec (run.succeededEvent io)
        io.first).finishRun
| notFailed
    (error : String)
    (hResult : io.result = .error error)
    (hIo : io.first.failure ≠ none) :
    FinishOutcome cal codec inner run io
      (inner.logFail codec
        (run.failedEvent (inner.readAttempt run.spec.id)
          error io) io.first).finishRun
| notRetrying
    (error : String)
    (retryAt : DateTime)
    (hResult : io.result = .error error)
    (hRetry :
      run.spec.retry.nextRetryAt io.now
          (inner.readAttempt run.spec.id) =
        some (some retryAt))
    (hIo : io.second.failure ≠ none) :
    FinishOutcome cal codec inner run io
      ((dropNextRun
        (inner.logApply codec
          (run.failedEvent (inner.readAttempt run.spec.id)
            error io) io.first) run.spec).logFail codec
        (run.retryingEvent (inner.readAttempt run.spec.id)
          retryAt) io.second).finishRun
| retryStopped
    (error : String)
    (retryAt : DateTime)
    (hResult : io.result = .error error)
    (hRetry :
      run.spec.retry.nextRetryAt io.now
          (inner.readAttempt run.spec.id) =
        some (some retryAt))
    (hStopped :
      inner.runtime.shuttingDown ∨ inner.runtime.stopped) :
    FinishOutcome cal codec inner run io
      ((dropNextRun
        (inner.logApply codec
          (run.failedEvent (inner.readAttempt run.spec.id)
            error io) io.first) run.spec).logApply codec
        (run.retryingEvent (inner.readAttempt run.spec.id)
          retryAt) io.second).finishRun
| retrying
    (error : String)
    (retryAt : DateTime)
    (hResult : io.result = .error error)
    (hRetry :
      run.spec.retry.nextRetryAt io.now
          (inner.readAttempt run.spec.id) =
        some (some retryAt))
    (hRuns :
      ¬ (inner.runtime.shuttingDown ∨
          inner.runtime.stopped)) :
    FinishOutcome cal codec inner run io
      (((dropNextRun
        (inner.logApply codec
          (run.failedEvent (inner.readAttempt run.spec.id)
            error io) io.first) run.spec).logApply codec
        (run.retryingEvent (inner.readAttempt run.spec.id)
          retryAt) io.second).pushEntry
        (run.retryEntry (inner.readAttempt run.spec.id)
          retryAt)).finishRun
| notDead
    (error : String)
    (hResult : io.result = .error error)
    (hRetry :
      run.spec.retry.nextRetryAt io.now
          (inner.readAttempt run.spec.id) = some none)
    (hIo : io.second.failure ≠ none) :
    FinishOutcome cal codec inner run io
      ((inner.logApply codec
        (run.failedEvent (inner.readAttempt run.spec.id)
          error io) io.first).logFail codec
        (run.deadEvent io) io.second).finishRun
| deadDelayed
    (error : String)
    (inner' : Inner)
    (hResult : io.result = .error error)
    (hRetry :
      run.spec.retry.nextRetryAt io.now
          (inner.readAttempt run.spec.id) = some none)
    (hOverlap : run.spec.overlap = .delay)
    (hRecurring : run.spec.schedule.isOneShot = false)
    (hNext :
      Rescheduled cal
        ((inner.logApply codec
          (run.failedEvent (inner.readAttempt run.spec.id)
            error io) io.first).logApply codec
          (run.deadEvent io) io.second)
        run.spec io.now inner') :
    FinishOutcome cal codec inner run io inner'.finishRun
| dead
    (error : String)
    (hResult : io.result = .error error)
    (hRetry :
      run.spec.retry.nextRetryAt io.now
          (inner.readAttempt run.spec.id) = some none)
    (hOther :
      ¬ (run.spec.overlap = .delay ∧
          run.spec.schedule.isOneShot = false)) :
    FinishOutcome cal codec inner run io
      ((inner.logApply codec
        (run.failedEvent (inner.readAttempt run.spec.id)
          error io) io.first).logApply codec
        (run.deadEvent io) io.second).finishRun

variable {cal : Calendar}
variable {codec : JsonCodec LogEntry}

theorem finishSucceeded_eq
    (inner : Inner)
    (run : Execution)
    (io : FinishIo) :
    finishSucceeded cal codec inner run io =
      match inner.appendApplyOrStop codec
          (run.succeededEvent io) io.first with
      | (inner, .error _) => some inner
      | (inner, .ok ()) =>
          if run.spec.overlap = .delay then
            inner.rescheduleFrom cal run.spec io.now
          else
            some inner :=
  rfl

theorem succeededOutcome_of_eq_some
    {inner inner' : Inner}
    {run : Execution}
    {io : FinishIo}
    (hFinish :
      finishSucceeded cal codec inner run io =
        some inner') :
    FinishOutcome cal codec inner run io
      inner'.finishRun := by
  rw [finishSucceeded_eq] at hFinish
  rcases inner.appendApplyOrStop_cases codec
      (run.succeededEvent io) io.first with
    ⟨_, hAppend⟩ | ⟨_, hSome, hAppend⟩
  · simp only [hAppend] at hFinish
    by_cases hDelay : run.spec.overlap = .delay
    · rw [if_pos hDelay] at hFinish
      exact
        .delayed inner' hDelay
          (rescheduled_of_eq_some hFinish)
    · rw [if_neg hDelay] at hFinish
      cases hFinish
      exact .succeeded hDelay
  · simp only [hAppend] at hFinish
    cases hFinish
    exact .notSucceeded (by simp [hSome])

theorem finishDead_eq
    (inner : Inner)
    (run : Execution)
    (io : FinishIo) :
    finishDead cal codec inner run io =
      match inner.appendApplyOrStop codec
          (run.deadEvent io) io.second with
      | (inner, .error _) => some inner
      | (inner, .ok ()) =>
          if run.spec.overlap = .delay ∧
              run.spec.schedule.isOneShot = false then
            inner.rescheduleFrom cal run.spec io.now
          else
            some inner :=
  rfl

theorem deadOutcome_of_eq_some
    {inner inner' : Inner}
    {run : Execution}
    {error : String}
    {io : FinishIo}
    (hResult : io.result = .error error)
    (hRetry :
      run.spec.retry.nextRetryAt io.now
          (inner.readAttempt run.spec.id) = some none)
    (hFinish :
      finishDead cal codec
          (inner.logApply codec
            (run.failedEvent
              (inner.readAttempt run.spec.id) error io)
            io.first) run io =
        some inner') :
    FinishOutcome cal codec inner run io
      inner'.finishRun := by
  rw [finishDead_eq] at hFinish
  rcases (inner.logApply codec
      (run.failedEvent (inner.readAttempt run.spec.id)
        error io) io.first).appendApplyOrStop_cases codec
      (run.deadEvent io) io.second with
    ⟨_, hAppend⟩ | ⟨_, hSome, hAppend⟩
  · simp only [hAppend] at hFinish
    by_cases hRecurring :
        run.spec.overlap = .delay ∧
          run.spec.schedule.isOneShot = false
    · rw [if_pos hRecurring] at hFinish
      exact
        .deadDelayed error inner' hResult hRetry
          hRecurring.1 hRecurring.2 (rescheduled_of_eq_some hFinish)
    · rw [if_neg hRecurring] at hFinish
      cases hFinish
      exact .dead error hResult hRetry hRecurring
  · simp only [hAppend] at hFinish
    cases hFinish
    exact
      .notDead error hResult hRetry (by simp [hSome])

theorem finishRetrying_eq
    (inner : Inner)
    (run : Execution)
    (attempt : UInt32)
    (retryAt : DateTime)
    (io : FinishIo) :
    finishRetrying codec inner run attempt retryAt io =
      match (dropNextRun inner
          run.spec).appendApplyOrStop codec
          (run.retryingEvent attempt retryAt)
          io.second with
      | (inner, .error _) => inner
      | (inner, .ok ()) =>
          if inner.runtime.shuttingDown ∨
              inner.runtime.stopped then
            inner
          else
            inner.pushEntry
              (run.retryEntry attempt retryAt) :=
  rfl

theorem retryingOutcome
    {inner : Inner}
    {run : Execution}
    {error : String}
    {retryAt : DateTime}
    {io : FinishIo}
    (hResult : io.result = .error error)
    (hRetry :
      run.spec.retry.nextRetryAt io.now
          (inner.readAttempt run.spec.id) =
        some (some retryAt)) :
    FinishOutcome cal codec inner run io
      (finishRetrying codec
        (inner.logApply codec
          (run.failedEvent (inner.readAttempt run.spec.id)
            error io) io.first)
        run (inner.readAttempt run.spec.id) retryAt
        io).finishRun := by
  have hRuntime :
      ∀ inner : Inner,
        (dropNextRun inner run.spec).runtime =
          inner.runtime := by
    intro inner
    unfold dropNextRun
    split <;> rfl
  rw [finishRetrying_eq]
  rcases (dropNextRun
      (inner.logApply codec
        (run.failedEvent (inner.readAttempt run.spec.id)
          error io) io.first)
      run.spec).appendApplyOrStop_cases codec
      (run.retryingEvent (inner.readAttempt run.spec.id)
        retryAt) io.second with
    ⟨_, hAppend⟩ | ⟨_, hSome, hAppend⟩
  · simp only [hAppend]
    by_cases hStopped :
        inner.runtime.shuttingDown ∨ inner.runtime.stopped
    · rw [if_pos]
      · exact
          .retryStopped error retryAt hResult hRetry
            hStopped
      · simpa [Inner.logApply, Inner.logOnly, Inner.append,
          hRuntime] using hStopped
    · rw [if_neg]
      · exact
          .retrying error retryAt hResult hRetry hStopped
      · simpa [Inner.logApply, Inner.logOnly, Inner.append,
          hRuntime] using hStopped
  · simp only [hAppend]
    exact
      .notRetrying error retryAt hResult hRetry
        (by simp [hSome])

theorem finishFailed_eq
    (inner : Inner)
    (run : Execution)
    (error : String)
    (io : FinishIo) :
    finishFailed cal codec inner run error io =
      match inner.appendApplyOrStop codec
          (run.failedEvent
            (inner.readAttempt run.spec.id) error io)
          io.first with
      | (inner', .error _) => some inner'
      | (inner', .ok ()) =>
          match run.spec.retry.nextRetryAt io.now
              (inner.readAttempt run.spec.id) with
          | none => none
          | some (some retryAt) =>
              some
                (finishRetrying codec inner' run
                  (inner.readAttempt run.spec.id)
                  retryAt io)
          | some none =>
              finishDead cal codec inner' run io :=
  rfl

theorem failedOutcome_of_eq_some
    {inner inner' : Inner}
    {run : Execution}
    {error : String}
    {io : FinishIo}
    (hResult : io.result = .error error)
    (hFinish :
      finishFailed cal codec inner run error io =
        some inner') :
    FinishOutcome cal codec inner run io
      inner'.finishRun := by
  rw [finishFailed_eq] at hFinish
  rcases inner.appendApplyOrStop_cases codec
      (run.failedEvent (inner.readAttempt run.spec.id)
        error io) io.first with
    ⟨_, hAppend⟩ | ⟨_, hSome, hAppend⟩
  · simp only [hAppend] at hFinish
    cases hRetry :
        run.spec.retry.nextRetryAt io.now
          (inner.readAttempt run.spec.id) with
    | none => simp [hRetry] at hFinish
    | some next =>
        cases next with
        | none =>
            simp only [hRetry] at hFinish
            exact
              deadOutcome_of_eq_some hResult hRetry hFinish
        | some retryAt =>
            simp only [hRetry] at hFinish
            cases hFinish
            exact retryingOutcome hResult hRetry
  · simp only [hAppend] at hFinish
    cases hFinish
    exact .notFailed error hResult (by simp [hSome])

/- The last section of a run has one of the outcomes. -/
theorem finishOutcome_of_eq_some
    {inner inner' : Inner}
    {run : Execution}
    {io : FinishIo}
    (hFinish :
      runTimerFinish cal codec inner run io =
        some inner') :
    FinishOutcome cal codec inner run io inner' := by
  unfold runTimerFinish at hFinish
  by_cases hMissing : run.missingFunction = true
  · rw [if_pos hMissing] at hFinish
    cases hFinish
    exact .missing hMissing
  · rw [if_neg hMissing] at hFinish
    cases hResult : io.result with
    | ok _ =>
        simp only [hResult] at hFinish
        rcases Option.map_eq_some_iff.mp hFinish with
          ⟨next, hNext, hEq⟩
        rw [← hEq]
        exact succeededOutcome_of_eq_some hNext
    | error error =>
        simp only [hResult] at hFinish
        rcases Option.map_eq_some_iff.mp hFinish with
          ⟨next, hNext, hEq⟩
        rw [← hEq]
        exact failedOutcome_of_eq_some hResult hNext

end Kron

------------------------------------------------------------
-- The Runtime After A Section
------------------------------------------------------------

namespace Kron

/- A run ended, and the engine may have stopped. -/
structure RuntimeState.Ended
    (r r' : RuntimeState) : Prop where
  started : r'.started = r.started
  activeRuns : r'.activeRuns = r.activeRuns - 1
  shuttingDown : r.shuttingDown → r'.shuttingDown
  stopped : r.stopped → r'.stopped
  halts : r'.stopped → r.stopped ∨ r'.shuttingDown

variable {cal : Calendar}
variable {codec : JsonCodec LogEntry}
variable {inner inner' : Inner}

@[simp] theorem Inner.logOnly_runtime
    (inner : Inner)
    (event : Event)
    (io : AppendIo) :
    (inner.logOnly codec event io).runtime =
      inner.runtime := rfl

@[simp] theorem Inner.logApply_runtime
    (inner : Inner)
    (event : Event)
    (io : AppendIo) :
    (inner.logApply codec event io).runtime =
      inner.runtime := rfl

@[simp] theorem Inner.dropNextRun_runtime
    (inner : Inner)
    (spec : TimerSpec) :
    (dropNextRun inner spec).runtime = inner.runtime := by
  unfold dropNextRun
  split <;> rfl

theorem Rescheduled.runtime
    {spec : TimerSpec}
    {from_ : DateTime}
    (hNext : Rescheduled cal inner spec from_ inner') :
    inner'.runtime = inner.runtime := by
  cases hNext with
  | stopped _ => rfl
  | pushed _ _ _ => rfl
  | cleared _ _ _ _ => rfl

/- The end of a run that logged what it had to. -/
theorem Inner.finishRun_ended
    {r : RuntimeState}
    (inner : Inner)
    (hRuntime : inner.runtime = r) :
    r.Ended inner.finishRun.runtime := by
  subst hRuntime
  exact ⟨rfl, rfl, id, id, Or.inl⟩

/- The end of a run that failed to log. -/
theorem Inner.logFail_finishRun_ended
    {r : RuntimeState}
    (inner : Inner)
    (event : Event)
    (io : AppendIo)
    (hRuntime : inner.runtime = r) :
    r.Ended
      (inner.logFail codec event io).finishRun.runtime := by
  subst hRuntime
  exact
    ⟨rfl, rfl, fun _ => rfl, fun _ => rfl,
      fun _ => Or.inr rfl⟩

theorem StoreOutcome.runtime
    {spec : TimerSpec}
    {io : AppendIo}
    (hStore : StoreOutcome codec inner spec io inner') :
    inner'.runtime = inner.runtime := by
  cases hStore with
  | known _ => rfl
  | created _ _ => rfl
  | updated _ _ _ _ => rfl

theorem NextOutcome.runtime
    {id : TimerId}
    {now : DateTime}
    (hNext : NextOutcome cal inner id now inner') :
    inner'.runtime = inner.runtime := by
  cases hNext with
  | waiting _ => rfl
  | pushed _ _ _ _ _ => rfl
  | none _ _ _ _ _ _ => rfl

/- Registration does not touch the runtime. -/
theorem ScheduleOutcome.runtime
    {call : ScheduleCall}
    {result : Except KronError Unit}
    (hOutcome :
      ScheduleOutcome cal codec inner call inner' result) :
    inner'.runtime = inner.runtime := by
  cases hOutcome with
  | stopped _ => rfl
  | notCreated _ _ _ => rfl
  | notUpdated _ _ => rfl
  | scheduled stored _ _ hStore hNext =>
      exact hNext.runtime.trans hStore.runtime

/- A due run starts, or it ends at once. -/
theorem StartOutcome.runtime
    {entry : ScheduledTimer}
    {io : StartIo}
    {run : Option Execution}
    (hOutcome :
      StartOutcome cal codec inner entry io inner' run) :
    match run with
    | none => inner.runtime.Ended inner'.runtime
    | some _ => inner'.runtime = inner.runtime := by
  cases hOutcome with
  | noSpec _ => exact Inner.finishRun_ended _ rfl
  | notSkipped _ _ _ =>
      exact Inner.logFail_finishRun_ended _ _ _ rfl
  | skipped _ _ _ _ _ hNext =>
      exact Inner.finishRun_ended _ hNext.runtime
  | notDue _ _ _ =>
      exact Inner.logFail_finishRun_ended _ _ _ rfl
  | notStarted _ _ _ =>
      exact Inner.logFail_finishRun_ended _ _ _ rfl
  | delayed _ _ _ _ _ => rfl
  | started _ _ _ _ _ _ _ hNext => exact hNext.runtime

theorem FinishOutcome.runtime
    {run : Execution}
    {io : FinishIo}
    (hOutcome :
      FinishOutcome cal codec inner run io inner') :
    inner.runtime.Ended inner'.runtime := by
  cases hOutcome with
  | missing _ =>
      apply Inner.finishRun_ended
      unfold finishMissing
      simp
  | notSucceeded _ =>
      exact Inner.logFail_finishRun_ended _ _ _ rfl
  | delayed _ _ hNext =>
      exact Inner.finishRun_ended _ hNext.runtime
  | succeeded _ => exact Inner.finishRun_ended _ rfl
  | notFailed _ _ _ =>
      exact Inner.logFail_finishRun_ended _ _ _ rfl
  | notRetrying _ _ _ _ _ =>
      exact Inner.logFail_finishRun_ended _ _ _ (by simp)
  | retryStopped _ _ _ _ _ =>
      exact Inner.finishRun_ended _ (by simp)
  | retrying _ _ _ _ _ =>
      exact
        Inner.finishRun_ended _ (by simp [Inner.pushEntry])
  | notDead _ _ _ _ =>
      exact Inner.logFail_finishRun_ended _ _ _ rfl
  | deadDelayed _ _ _ _ _ _ hNext =>
      exact Inner.finishRun_ended _ hNext.runtime
  | dead _ _ _ _ => exact Inner.finishRun_ended _ rfl

end Kron
