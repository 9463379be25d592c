import Kron.Embedded.TimerView

/-
  The life of one timer.

  Each section of the engine is, seen from one timer, one
  step of a small machine: the timer is registered, its
  entries are popped and spawned, its runs start and
  finish, or nothing happens to it. Invariants of single
  timers are proved on this machine.

  Key definitions include:
    * `Kron.TimerLabel`
    * `Kron.Engine.label`
    * `Kron.LabelOf`
    * `Kron.TimerStep`
    * `Kron.TimerView.WellFormed`

  Key theorems include:
    * `Kron.timerStep_of_step`
    * `Kron.view_invariant`
    * `Kron.opened_invariant`
-/

------------------------------------------------------------
-- Labels
------------------------------------------------------------

namespace Kron

/- What a section is about, seen from one timer. -/
inductive TimerLabel where
| other
| schedule (call : ScheduleCall)
| dispatch (now : DateTime)
| spawn
| start (entry : ScheduledTimer) (io : StartIo)
| finish (run : Execution) (io : FinishIo)
| reopen

namespace Engine

/- The label of a section for a timer. -/
def label
    (T : TimerId)
    (engine : Engine) : Section → TimerLabel
| .schedule call =>
    if call.id = T then .schedule call else .other
| .dispatch now => .dispatch now
| .spawn _ => .spawn
| .runStart i io =>
    match engine.spawned[i]? with
    | none => .other
    | some entry =>
        if entry.timerId = T then .start entry io else .other
| .runFinish i io =>
    match engine.executing[i]? with
    | none => .other
    | some run =>
        if run.timerId = T then .finish run io else .other
| .reopen _ _ => .reopen
| _ => .other

end Engine

/- What the label of a section tells of the section. -/
inductive LabelOf
    (T : TimerId)
    (engine : Engine) : Section → TimerLabel → Prop
| other
    {sec : Section} :
    LabelOf T engine sec .other
| schedule
    {call : ScheduleCall} :
    LabelOf T engine (.schedule call) (.schedule call)
| dispatch
    {now : DateTime} :
    LabelOf T engine (.dispatch now) (.dispatch now)
| spawn
    {i : Nat} :
    LabelOf T engine (.spawn i) .spawn
| start
    {i : Nat}
    {io : StartIo}
    {entry : ScheduledTimer}
    (hGet : engine.spawned[i]? = some entry)
    (hId : entry.timerId = T) :
    LabelOf T engine (.runStart i io) (.start entry io)
| finish
    {i : Nat}
    {io : FinishIo}
    {run : Execution}
    (hGet : engine.executing[i]? = some run)
    (hId : run.timerId = T) :
    LabelOf T engine (.runFinish i io) (.finish run io)
| reopen
    {dataDir : String}
    {dir : DataDir} :
    LabelOf T engine (.reopen dataDir dir) .reopen

theorem Engine.labelOf
    (T : TimerId)
    (engine : Engine)
    (sec : Section) :
    LabelOf T engine sec (engine.label T sec) := by
  cases sec with
  | schedule call =>
      simp only [Engine.label]
      split
      · exact .schedule
      · exact .other
  | dispatch now => exact .dispatch
  | spawn i => exact .spawn
  | runStart i io =>
      simp only [Engine.label]
      split
      · exact .other
      · rename_i entry hGet
        split
        · rename_i hId
          exact .start hGet hId
        · exact .other
  | runFinish i io =>
      simp only [Engine.label]
      split
      · exact .other
      · rename_i run hGet
        split
        · rename_i hId
          exact .finish hGet hId
        · exact .other
  | reopen dataDir dir => exact .reopen
  | _ => exact .other

/- Opening is a section of its own. -/
theorem label_ne_reopen
    {T : TimerId}
    {engine : Engine}
    {sec : Section}
    (hSec :
      ∀ dataDir dir, sec ≠ .reopen dataDir dir) :
    engine.label T sec ≠ .reopen := by
  intro hLabel
  have hOf := engine.labelOf T sec
  rw [hLabel] at hOf
  cases hOf with
  | reopen => exact hSec _ _ rfl

namespace ScheduleCall

/- The spec that a call asks for, given the stored one. -/
def specFrom
    (call : ScheduleCall)
    (old : Option TimerSpec) : TimerSpec where
  id := call.id
  schedule := call.schedule
  retry := call.retry.getD RetryPolicy.default
  timezone := call.timezone.getD "UTC"
  createdAt :=
    (old.map TimerSpec.createdAt).getD call.createdAt
  overlap :=
    (call.overlap.or (old.map TimerSpec.overlap)).getD
      .delay

@[simp] theorem specFrom_id
    (call : ScheduleCall)
    (old : Option TimerSpec) :
    (call.specFrom old).id = call.id := rfl

end ScheduleCall

namespace TimerView

/- Nothing was registered or scheduled yet. -/
structure Fresh
    (v : TimerView) : Prop where
  registered : ¬ v.registered
  next : v.next = none
  heap : v.heap = 0
  due : v.due = 0
  spawned : v.spawned = 0
  executing : v.executing = 0

/- The attempt that the failure path reads. -/
def readAttempt
    (v : TimerView) : UInt32 :=
  (v.pending.map fun retry => retry.2.2).getD 1

/- Other policies keep no second entry beside a retry. -/
def dropNext
    (v : TimerView)
    (spec : TimerSpec) : TimerView :=
  if spec.overlap = .delay then v else v.dropEntries

end TimerView

end Kron

------------------------------------------------------------
-- Steps Of One Timer
------------------------------------------------------------

namespace Kron

open TimerView

variable (cal : Calendar)
variable (T : TimerId)

/- How the spec of a call is stored. -/
inductive StoreView
    (spec : TimerSpec)
    (io : AppendIo) :
    TimerView → TimerView → Prop where
| known
    (v : TimerView)
    (hSpec : v.spec = some spec) :
    StoreView spec io v v
| created
    (v : TimerView)
    (hSpec : v.spec = none)
    (hIo : io.failure = none) :
    StoreView spec io v (v.create spec)
| updated
    (v : TimerView)
    (old : TimerSpec)
    (hSpec : v.spec = some old)
    (hNe : old ≠ spec)
    (hIo : io.failure = none) :
    StoreView spec io v (v.update spec)

/- How the next run of a registered timer is found. -/
inductive NextView
    (spec : TimerSpec)
    (now : DateTime) : TimerView → TimerView → Prop where
| waiting
    (v : TimerView)
    (hNext : v.next ≠ none) :
    NextView spec now v v
| pushed
    (v : TimerView)
    (next : DateTime)
    (hNext : v.next = none)
    (hAfter :
      spec.schedule.nextRunAfter cal now spec.timezone =
        some (.ok (some next))) :
    NextView spec now v (v.push T next)
| none
    (v : TimerView)
    (result : Except KronError (Option DateTime))
    (hNext : v.next = none)
    (hAfter :
      spec.schedule.nextRunAfter cal now spec.timezone =
        some result)
    (hNone : ∀ next, result ≠ .ok (some next)) :
    NextView spec now v v

/- How the next run is computed after a run. -/
inductive RescheduledView
    (spec : TimerSpec)
    (from_ : DateTime) : TimerView → TimerView → Prop where
| stopped
    (v : TimerView)
    (hStopped : v.Halted) :
    RescheduledView spec from_ v v
| pushed
    (v : TimerView)
    (next : DateTime)
    (hRuns : ¬ v.Halted)
    (hAfter :
      spec.schedule.nextRunAfter cal from_ spec.timezone =
        some (.ok (some next))) :
    RescheduledView spec from_ v (v.push T next)
| cleared
    (v : TimerView)
    (result : Except KronError (Option DateTime))
    (hRuns : ¬ v.Halted)
    (hAfter :
      spec.schedule.nextRunAfter cal from_ spec.timezone =
        some result)
    (hNone : ∀ next, result ≠ .ok (some next)) :
    RescheduledView spec from_ v v.clearNext

/- What the first section of a run does. -/
inductive StartView
    (spec : TimerSpec)
    (entry : ScheduledTimer)
    (io : StartIo) : TimerView → TimerView → Prop where
| notSkipped
    (v : TimerView)
    (hIo : io.first.failure ≠ none) :
    StartView spec entry io v
      (v.fail (entry.skippedEvent io))
| skipped
    (v v' : TimerView)
    (hOverlap : spec.overlap = .skip)
    (hRunning : v.state = some .running)
    (hNext :
      RescheduledView cal T spec entry.nextRunAt
        (v.log (entry.skippedEvent io)) v') :
    StartView spec entry io v v'
| notDue
    (v : TimerView)
    (hIo : io.first.failure ≠ none) :
    StartView spec entry io v (v.fail (entry.dueEvent io))
| notStarted
    (v : TimerView)
    (hIo : io.second.failure ≠ none) :
    StartView spec entry io v
      ((v.log (entry.dueEvent io)).fail
        (entry.startedEvent io))
| delayed
    (v : TimerView)
    (hOverlap : spec.overlap = .delay) :
    StartView spec entry io v
      { (v.log (entry.dueEvent io)).log
          (entry.startedEvent io) with
        executing :=
          entry.execution spec false io ::ₘ v.executing }
| started
    (v v' : TimerView)
    (hOverlap : spec.overlap ≠ .delay)
    (hIdle :
      spec.overlap = .skip → v.state ≠ some .running)
    (hNext :
      RescheduledView cal T spec entry.nextRunAt
        ((v.log (entry.dueEvent io)).log
          (entry.startedEvent io)) v') :
    StartView spec entry io v
      { v' with
        executing :=
          entry.execution spec false io ::ₘ v'.executing }

/- What the last section of a run does. -/
inductive FinishView
    (run : Execution)
    (io : FinishIo) : TimerView → TimerView → Prop where
| notSucceeded
    (v : TimerView)
    (hIo : io.first.failure ≠ none) :
    FinishView run io v (v.fail (run.succeededEvent io))
| delayed
    (v v' : TimerView)
    (hOverlap : run.spec.overlap = .delay)
    (hNext :
      RescheduledView cal T run.spec io.now
        (v.log (run.succeededEvent io)) v') :
    FinishView run io v v'
| succeeded
    (v : TimerView)
    (hOverlap : run.spec.overlap ≠ .delay) :
    FinishView run io v (v.log (run.succeededEvent io))
| notFailed
    (v : TimerView)
    (error : String)
    (hResult : io.result = .error error)
    (hIo : io.first.failure ≠ none) :
    FinishView run io v
      (v.fail (run.failedEvent v.readAttempt error io))
| notRetrying
    (v : TimerView)
    (error : String)
    (retryAt : DateTime)
    (hResult : io.result = .error error)
    (hRetry :
      run.spec.retry.nextRetryAt io.now v.readAttempt =
        some (some retryAt))
    (hIo : io.second.failure ≠ none) :
    FinishView run io v
      (((v.log
        (run.failedEvent v.readAttempt error io)).dropNext
        run.spec).fail
        (run.retryingEvent v.readAttempt retryAt))
| retryStopped
    (v : TimerView)
    (error : String)
    (retryAt : DateTime)
    (hResult : io.result = .error error)
    (hRetry :
      run.spec.retry.nextRetryAt io.now v.readAttempt =
        some (some retryAt))
    (hStopped : v.Halted) :
    FinishView run io v
      (((v.log
        (run.failedEvent v.readAttempt error io)).dropNext
        run.spec).log
        (run.retryingEvent v.readAttempt retryAt))
| retrying
    (v : TimerView)
    (error : String)
    (retryAt : DateTime)
    (hResult : io.result = .error error)
    (hRetry :
      run.spec.retry.nextRetryAt io.now v.readAttempt =
        some (some retryAt))
    (hRuns : ¬ v.Halted) :
    FinishView run io v
      ((((v.log
        (run.failedEvent v.readAttempt error io)).dropNext
        run.spec).log
        (run.retryingEvent v.readAttempt
          retryAt)).pushEntry
        (run.retryEntry v.readAttempt retryAt))
| notDead
    (v : TimerView)
    (error : String)
    (hResult : io.result = .error error)
    (hRetry :
      run.spec.retry.nextRetryAt io.now v.readAttempt =
        some none)
    (hIo : io.second.failure ≠ none) :
    FinishView run io v
      ((v.log
        (run.failedEvent v.readAttempt error io)).fail
        (run.deadEvent io))
| deadDelayed
    (v v' : TimerView)
    (error : String)
    (hResult : io.result = .error error)
    (hRetry :
      run.spec.retry.nextRetryAt io.now v.readAttempt =
        some none)
    (hOverlap : run.spec.overlap = .delay)
    (hRecurring : run.spec.schedule.isOneShot = false)
    (hNext :
      RescheduledView cal T run.spec io.now
        ((v.log
          (run.failedEvent v.readAttempt error io)).log
          (run.deadEvent io)) v') :
    FinishView run io v v'
| dead
    (v : TimerView)
    (error : String)
    (hResult : io.result = .error error)
    (hRetry :
      run.spec.retry.nextRetryAt io.now v.readAttempt =
        some none)
    (hOther :
      ¬ (run.spec.overlap = .delay ∧
          run.spec.schedule.isOneShot = false)) :
    FinishView run io v
      ((v.log
        (run.failedEvent v.readAttempt error io)).log
        (run.deadEvent io))

/- One step in the life of a timer. -/
inductive TimerStep :
    TimerLabel → TimerView → TimerView → Prop where
| other
    (label : TimerLabel)
    (v : TimerView)
    (down stopped : Bool)
    (hLabel : label ≠ .reopen)
    (hDown : v.shuttingDown → down)
    (hStopped : v.stopped → stopped) :
    TimerStep label v
      { v with
        shuttingDown := down
        stopped := stopped }
| schedule
    (call : ScheduleCall)
    (v stored v' : TimerView)
    (hId : call.id = T)
    (hRuns : ¬ v.Halted)
    (hStore :
      StoreView (call.specFrom v.spec) call.io v stored)
    (hNext :
      NextView cal T (call.specFrom v.spec) call.now
        stored.register v') :
    TimerStep (.schedule call) v v'
| dispatch
    (now : DateTime)
    (v : TimerView)
    (popped kept : Multiset ScheduledTimer)
    (hDown : v.shuttingDown = false)
    (hDue : v.due = 0)
    (hHeap : v.heap = popped + kept)
    (hPopped : ∀ entry ∈ popped, entry.nextRunAt ≤ now)
    (hKept : ∀ entry ∈ kept, now < entry.nextRunAt) :
    TimerStep (.dispatch now) v
      { v with
        heap := kept
        due := popped }
| spawn
    (v : TimerView)
    (entry : ScheduledTimer)
    (rest : Multiset ScheduledTimer)
    (hDown : v.shuttingDown = false)
    (hDue : v.due = entry ::ₘ rest) :
    TimerStep .spawn v
      { v with
        due := rest
        spawned := entry ::ₘ v.spawned }
| dropDue
    (v : TimerView)
    (hDown : v.shuttingDown = true) :
    TimerStep .spawn v { v with due := 0 }
| start
    (entry : ScheduledTimer)
    (io : StartIo)
    (spec : TimerSpec)
    (rest : Multiset ScheduledTimer)
    (v v' : TimerView)
    (hId : entry.timerId = T)
    (hSpawned : v.spawned = entry ::ₘ rest)
    (hSpec : v.spec = some spec)
    (hStart :
      StartView cal T spec entry io
        { v with
          next := none
          spawned := rest } v') :
    TimerStep (.start entry io) v v'
| finish
    (run : Execution)
    (io : FinishIo)
    (rest : Multiset Execution)
    (v v' : TimerView)
    (hId : run.spec.id = T)
    (hExecuting : v.executing = run ::ₘ rest)
    (hFinish :
      FinishView cal T run io
        { v with executing := rest } v') :
    TimerStep (.finish run io) v v'
| reopen
    (v v' : TimerView)
    (hFresh : v'.Fresh)
    (hLogged : v'.logged = v.logged) :
    TimerStep .reopen v v'

end Kron

------------------------------------------------------------
-- Well-Formed Views
------------------------------------------------------------

namespace Kron

/-
  A registered timer has a stored spec under its own id, a
  timer that is not registered has no entries and no runs,
  and every run knows its callable and its own spec.
-/
structure TimerView.WellFormed
    (T : TimerId)
    (v : TimerView) : Prop where
  spec :
    v.registered → ∃ spec, v.spec = some spec ∧ spec.id = T
  next : v.next ≠ none → v.registered
  entries :
    ∀ entry ∈ v.heap + v.due + v.spawned, v.registered
  runs :
    ∀ run ∈ v.executing,
      v.registered ∧ run.spec.id = T ∧
        run.missingFunction = false

/-
  All views of an engine are well formed, and its loop does
  not run before it is started.
-/
structure Engine.WellFormed
    (engine : Engine) : Prop where
  views : ∀ T, (engine.view T).WellFormed T
  idle :
    engine.inner.runtime.started = false →
      engine.loop = .idle

namespace Engine.WellFormed

variable {engine : Engine}

/- The spec that a spawned entry finds. -/
theorem spec_of_spawned
    (hWell : engine.WellFormed)
    {entry : ScheduledTimer}
    (hMem : entry ∈ engine.spawned) :
    entry.timerId ∈ engine.inner.registry ∧
      ∃ spec,
        engine.inner.state.specs[entry.timerId]? =
            some spec ∧
          spec.id = entry.timerId := by
  have hRegistered :
      (engine.view entry.timerId).registered := by
    apply (hWell.views entry.timerId).entries entry
    apply Multiset.mem_add.mpr
    exact Or.inr (mem_entriesOf.mpr ⟨hMem, rfl⟩)
  exact
    ⟨hRegistered,
      (hWell.views entry.timerId).spec hRegistered⟩

theorem run_of_executing
    (hWell : engine.WellFormed)
    {run : Execution}
    (hMem : run ∈ engine.executing) :
    run.spec.id = run.timerId ∧
      run.missingFunction = false :=
  ((hWell.views run.timerId).runs run
    (mem_runsOf.mpr ⟨hMem, rfl⟩)).2

end Engine.WellFormed

end Kron

------------------------------------------------------------
-- Outcomes As Steps Of A Timer
------------------------------------------------------------

namespace Kron

variable {cal : Calendar}
variable {codec : JsonCodec LogEntry}
variable {T : TimerId}
variable {inner inner' : Inner}
variable (due spawned : List ScheduledTimer)
variable (executing : List Execution)

theorem viewOf_cons_executing_self
    {run : Execution}
    (hId : run.timerId = T) :
    viewOf T inner due spawned (run :: executing) =
      { viewOf T inner due spawned executing with
        executing :=
          run ::ₘ
            (viewOf T inner due spawned
              executing).executing } := by
  simp [viewOf, runsOf_cons_self _ hId]

theorem viewOf_cons_executing_other
    {run : Execution}
    (hNe : run.timerId ≠ T) :
    viewOf T inner due spawned (run :: executing) =
      viewOf T inner due spawned executing := by
  simp [viewOf, runsOf_cons_other _ hNe]

theorem rescheduledView_of_rescheduled
    {spec : TimerSpec}
    {from_ : DateTime}
    (hNext : Rescheduled cal inner spec from_ inner')
    (hId : spec.id = T) :
    RescheduledView cal T spec from_
      (viewOf T inner due spawned executing)
      (viewOf T inner' due spawned executing) := by
  cases hNext with
  | stopped hStopped => exact .stopped _ hStopped
  | pushed next hRuns hAfter =>
      rw [hId, viewOf_pushNextRun_self]
      exact .pushed _ next hRuns hAfter
  | cleared result hRuns hAfter hNone =>
      rw [hId, viewOf_clearNextRun_self]
      exact .cleared _ result hRuns hAfter hNone

theorem viewOf_of_rescheduled_other
    {spec : TimerSpec}
    {from_ : DateTime}
    (hNext : Rescheduled cal inner spec from_ inner')
    (hNe : spec.id ≠ T) :
    viewOf T inner' due spawned executing =
      viewOf T inner due spawned executing := by
  cases hNext with
  | stopped _ => rfl
  | pushed next _ _ =>
      exact viewOf_pushNextRun_other _ _ _ _ next hNe
  | cleared _ _ _ _ =>
      exact viewOf_clearNextRun_other _ _ _ _ hNe

theorem ScheduledTimer.run?_skippedEvent
    (entry : ScheduledTimer)
    (io : StartIo) :
    (entry.skippedEvent io).run? =
      some (entry.timerId, entry.runIdOr io.freshId) := rfl

theorem ScheduledTimer.run?_dueEvent
    (entry : ScheduledTimer)
    (io : StartIo) :
    (entry.dueEvent io).run? =
      some (entry.timerId, entry.runIdOr io.freshId) := rfl

theorem ScheduledTimer.run?_startedEvent
    (entry : ScheduledTimer)
    (io : StartIo) :
    (entry.startedEvent io).run? =
      some (entry.timerId, entry.runIdOr io.freshId) := rfl

theorem startView_of_startOutcome
    {entry : ScheduledTimer}
    {io : StartIo}
    {run : Option Execution}
    {spec : TimerSpec}
    (hOutcome :
      StartOutcome cal codec inner entry io inner' run)
    (hId : entry.timerId = T)
    (hRegistered : T ∈ inner.registry)
    (hStored : inner.state.specs[T]? = some spec)
    (hSpecId : spec.id = T) :
    StartView cal T spec entry io
      (viewOf T inner due spawned executing)
      (viewOf T inner' due spawned
        (run.toList ++ executing)) := by
  subst hId
  have hSkipped := entry.run?_skippedEvent io
  have hDue := entry.run?_dueEvent io
  have hStarted := entry.run?_startedEvent io
  have hRunId :
      (entry.execution spec false io).timerId =
        entry.timerId := rfl
  cases hOutcome with
  | noSpec hSpec =>
      rw [hStored] at hSpec
      cases hSpec
  | notSkipped _ _ hIo =>
      rw [viewOf_finishRun,
        viewOf_logFail_self _ _ _ _ _ hSkipped]
      exact .notSkipped _ hIo
  | skipped spec' next hSpec hOverlap hRunning hNext =>
      rw [hStored] at hSpec
      cases hSpec
      rw [viewOf_finishRun]
      apply StartView.skipped _ _ hOverlap hRunning
      rw [← viewOf_logApply_self inner due spawned
        executing io.first hSkipped]
      exact
        rescheduledView_of_rescheduled due spawned executing
          hNext hSpecId
  | notDue _ _ hIo =>
      rw [viewOf_finishRun,
        viewOf_logFail_self _ _ _ _ _ hDue]
      exact .notDue _ hIo
  | notStarted _ _ hIo =>
      rw [viewOf_finishRun,
        viewOf_logFail_self _ _ _ _ _ hStarted,
        viewOf_logApply_self _ _ _ _ _ hDue]
      exact .notStarted _ hIo
  | delayed spec' missing hSpec hOverlap hMissing =>
      rw [hStored] at hSpec
      cases hSpec
      have hFound : missing = false := by
        simpa [hRegistered] using hMissing
      subst hFound
      rw [Option.toList_some, List.singleton_append,
        viewOf_cons_executing_self _ _ _ hRunId,
        viewOf_logApply_self _ _ _ _ _ hStarted,
        viewOf_logApply_self _ _ _ _ _ hDue]
      exact .delayed _ hOverlap
  | started spec' missing _ hSpec hOverlap hIdle hMissing
      hNext =>
      rw [hStored] at hSpec
      cases hSpec
      have hFound : missing = false := by
        simpa [hRegistered] using hMissing
      subst hFound
      rw [Option.toList_some, List.singleton_append,
        viewOf_cons_executing_self _ _ _ hRunId]
      apply StartView.started _ _ hOverlap hIdle
      rw [← viewOf_logApply_self inner due spawned
          executing io.first hDue,
        ← viewOf_logApply_self _ due spawned executing
          io.second hStarted]
      exact
        rescheduledView_of_rescheduled due spawned executing
          hNext hSpecId

/- The start of a run of another timer. -/
theorem viewOf_of_startOutcome_other
    {entry : ScheduledTimer}
    {io : StartIo}
    {run : Option Execution}
    {spec : TimerSpec}
    (hOutcome :
      StartOutcome cal codec inner entry io inner' run)
    (hNe : entry.timerId ≠ T)
    (hStored :
      inner.state.specs[entry.timerId]? = some spec)
    (hSpecId : spec.id = entry.timerId) :
    viewOf T inner' due spawned (run.toList ++ executing) =
        viewOf T inner due spawned executing ∨
      viewOf T inner' due spawned
          (run.toList ++ executing) =
        (viewOf T inner due spawned executing).halt := by
  have hSkipped := entry.run?_skippedEvent io
  have hDue := entry.run?_dueEvent io
  have hStarted := entry.run?_startedEvent io
  have hRunNe :
      ∀ spec missing,
        (entry.execution spec missing io).timerId ≠ T :=
    fun _ _ => hNe
  have hSpecNe : spec.id ≠ T := by
    rw [hSpecId]
    exact hNe
  cases hOutcome with
  | noSpec _ => exact Or.inl rfl
  | notSkipped _ _ _ =>
      right
      rw [viewOf_finishRun, Option.toList_none,
        List.nil_append,
        viewOf_logFail_other _ _ _ _ _ hSkipped hNe]
  | skipped spec' next hSpec _ _ hNext =>
      rw [hStored] at hSpec
      cases hSpec
      left
      rw [viewOf_finishRun, Option.toList_none,
        List.nil_append,
        viewOf_of_rescheduled_other _ _ _ hNext hSpecNe]
      exact viewOf_logApply_other _ _ _ _ _ hSkipped hNe
  | notDue _ _ _ =>
      right
      rw [viewOf_finishRun, Option.toList_none,
        List.nil_append,
        viewOf_logFail_other _ _ _ _ _ hDue hNe]
  | notStarted _ _ _ =>
      right
      rw [viewOf_finishRun, Option.toList_none,
        List.nil_append,
        viewOf_logFail_other _ _ _ _ _ hStarted hNe,
        viewOf_logApply_other _ _ _ _ _ hDue hNe]
  | delayed spec' missing _ _ _ =>
      left
      rw [Option.toList_some, List.singleton_append,
        viewOf_cons_executing_other _ _ _ (hRunNe _ _),
        viewOf_logApply_other _ _ _ _ _ hStarted hNe,
        viewOf_logApply_other _ _ _ _ _ hDue hNe]
  | started spec' missing _ hSpec _ _ _ hNext =>
      rw [hStored] at hSpec
      cases hSpec
      left
      rw [Option.toList_some, List.singleton_append,
        viewOf_cons_executing_other _ _ _ (hRunNe _ _),
        viewOf_of_rescheduled_other _ _ _ hNext hSpecNe,
        viewOf_logApply_other _ _ _ _ _ hStarted hNe,
        viewOf_logApply_other _ _ _ _ _ hDue hNe]

theorem viewOf_dropNextRun_self
    {spec : TimerSpec}
    (hId : spec.id = T) :
    viewOf T (dropNextRun inner spec) due spawned
        executing =
      (viewOf T inner due spawned executing).dropNext
        spec := by
  unfold dropNextRun TimerView.dropNext
  split
  · rfl
  · rw [hId]
    exact viewOf_dropEntries_self _ _ _ _

theorem viewOf_dropNextRun_other
    {spec : TimerSpec}
    (hNe : spec.id ≠ T) :
    viewOf T (dropNextRun inner spec) due spawned
        executing =
      viewOf T inner due spawned executing := by
  unfold dropNextRun
  split
  · rfl
  · exact viewOf_dropEntries_other _ _ _ _ hNe

theorem readAttempt_viewOf :
    (viewOf T inner due spawned executing).readAttempt =
      inner.readAttempt T := rfl

theorem finishView_of_finishOutcome
    {run : Execution}
    {io : FinishIo}
    (hOutcome :
      FinishOutcome cal codec inner run io inner')
    (hId : run.spec.id = T)
    (hKnown : run.missingFunction = false) :
    FinishView cal T run io
      (viewOf T inner due spawned executing)
      (viewOf T inner' due spawned executing) := by
  have hSucceeded :
      (run.succeededEvent io).run? = some (T, run.runId) := by
    rw [← hId]
    rfl
  have hFailed :
      ∀ attempt error,
        (run.failedEvent attempt error io).run? =
          some (T, run.runId) := by
    intro attempt error
    rw [← hId]
    rfl
  have hRetrying :
      ∀ attempt retryAt,
        (run.retryingEvent attempt retryAt).run? =
          some (T, run.runId) := by
    intro attempt retryAt
    rw [← hId]
    rfl
  have hDead :
      (run.deadEvent io).run? = some (T, run.runId) := by
    rw [← hId]
    rfl
  cases hOutcome with
  | missing hMissing =>
      rw [hKnown] at hMissing
      cases hMissing
  | notSucceeded hIo =>
      rw [viewOf_finishRun,
        viewOf_logFail_self _ _ _ _ _ hSucceeded]
      exact .notSucceeded _ hIo
  | delayed next hOverlap hNext =>
      rw [viewOf_finishRun]
      apply FinishView.delayed _ _ hOverlap
      rw [← viewOf_logApply_self inner due spawned
        executing io.first hSucceeded]
      exact
        rescheduledView_of_rescheduled due spawned executing
          hNext hId
  | succeeded hOverlap =>
      rw [viewOf_finishRun,
        viewOf_logApply_self _ _ _ _ _ hSucceeded]
      exact .succeeded _ hOverlap
  | notFailed error hResult hIo =>
      rw [viewOf_finishRun,
        viewOf_logFail_self _ _ _ _ _ (hFailed _ _), hId]
      exact .notFailed _ error hResult hIo
  | notRetrying error retryAt hResult hRetry hIo =>
      rw [viewOf_finishRun,
        viewOf_logFail_self _ _ _ _ _ (hRetrying _ _),
        viewOf_dropNextRun_self _ _ _ hId,
        viewOf_logApply_self _ _ _ _ _ (hFailed _ _)]
      rw [hId] at hRetry ⊢
      exact .notRetrying _ error retryAt hResult hRetry hIo
  | retryStopped error retryAt hResult hRetry hStopped =>
      rw [viewOf_finishRun,
        viewOf_logApply_self _ _ _ _ _ (hRetrying _ _),
        viewOf_dropNextRun_self _ _ _ hId,
        viewOf_logApply_self _ _ _ _ _ (hFailed _ _)]
      rw [hId] at hRetry ⊢
      exact
        .retryStopped _ error retryAt hResult hRetry hStopped
  | retrying error retryAt hResult hRetry hRuns =>
      have hEntryId :
          ∀ attempt,
            (run.retryEntry attempt retryAt).timerId = T :=
        fun _ => hId
      rw [viewOf_finishRun,
        viewOf_pushEntry_self _ _ _ _ (hEntryId _),
        viewOf_logApply_self _ _ _ _ _ (hRetrying _ _),
        viewOf_dropNextRun_self _ _ _ hId,
        viewOf_logApply_self _ _ _ _ _ (hFailed _ _)]
      rw [hId] at hRetry ⊢
      exact .retrying _ error retryAt hResult hRetry hRuns
  | notDead error hResult hRetry hIo =>
      rw [viewOf_finishRun,
        viewOf_logFail_self _ _ _ _ _ hDead,
        viewOf_logApply_self _ _ _ _ _ (hFailed _ _)]
      rw [hId] at hRetry ⊢
      exact .notDead _ error hResult hRetry hIo
  | deadDelayed error next hResult hRetry hOverlap
      hRecurring hNext =>
      rw [viewOf_finishRun]
      rw [hId] at hRetry hNext
      apply FinishView.deadDelayed _ _ error hResult hRetry
        hOverlap hRecurring
      rw [readAttempt_viewOf,
        ← viewOf_logApply_self inner due spawned executing
          io.first (hFailed _ _),
        ← viewOf_logApply_self _ due spawned executing
          io.second hDead]
      exact
        rescheduledView_of_rescheduled due spawned executing
          hNext hId
  | dead error hResult hRetry hOther =>
      rw [viewOf_finishRun,
        viewOf_logApply_self _ _ _ _ _ hDead,
        viewOf_logApply_self _ _ _ _ _ (hFailed _ _)]
      rw [hId] at hRetry ⊢
      exact .dead _ error hResult hRetry hOther

/- The end of a run of another timer. -/
theorem viewOf_of_finishOutcome_other
    {run : Execution}
    {io : FinishIo}
    (hOutcome :
      FinishOutcome cal codec inner run io inner')
    (hNe : run.spec.id ≠ T)
    (hKnown : run.missingFunction = false) :
    viewOf T inner' due spawned executing =
        viewOf T inner due spawned executing ∨
      viewOf T inner' due spawned executing =
        (viewOf T inner due spawned executing).halt := by
  have hSucceeded :
      (run.succeededEvent io).run? =
        some (run.spec.id, run.runId) := rfl
  have hFailed :
      ∀ attempt error,
        (run.failedEvent attempt error io).run? =
          some (run.spec.id, run.runId) :=
    fun _ _ => rfl
  have hRetrying :
      ∀ attempt retryAt,
        (run.retryingEvent attempt retryAt).run? =
          some (run.spec.id, run.runId) :=
    fun _ _ => rfl
  have hDead :
      (run.deadEvent io).run? =
        some (run.spec.id, run.runId) := rfl
  cases hOutcome with
  | missing hMissing =>
      rw [hKnown] at hMissing
      cases hMissing
  | notSucceeded hIo =>
      right
      rw [viewOf_finishRun,
        viewOf_logFail_other _ _ _ _ _ hSucceeded hNe]
  | delayed next _ hNext =>
      left
      rw [viewOf_finishRun,
        viewOf_of_rescheduled_other _ _ _ hNext hNe]
      exact viewOf_logApply_other _ _ _ _ _ hSucceeded hNe
  | succeeded _ =>
      left
      exact viewOf_logApply_other _ _ _ _ _ hSucceeded hNe
  | notFailed error _ _ =>
      right
      rw [viewOf_finishRun,
        viewOf_logFail_other _ _ _ _ _ (hFailed _ _) hNe]
  | notRetrying error retryAt _ _ _ =>
      right
      rw [viewOf_finishRun,
        viewOf_logFail_other _ _ _ _ _ (hRetrying _ _) hNe,
        viewOf_dropNextRun_other _ _ _ hNe,
        viewOf_logApply_other _ _ _ _ _ (hFailed _ _) hNe]
  | retryStopped error retryAt _ _ _ =>
      left
      rw [viewOf_finishRun,
        viewOf_logApply_other _ _ _ _ _ (hRetrying _ _) hNe,
        viewOf_dropNextRun_other _ _ _ hNe,
        viewOf_logApply_other _ _ _ _ _ (hFailed _ _) hNe]
  | retrying error retryAt _ _ _ =>
      have hEntryNe :
          ∀ attempt,
            (run.retryEntry attempt retryAt).timerId ≠ T :=
        fun _ => hNe
      left
      rw [viewOf_finishRun,
        viewOf_pushEntry_other _ _ _ _ (hEntryNe _),
        viewOf_logApply_other _ _ _ _ _ (hRetrying _ _) hNe,
        viewOf_dropNextRun_other _ _ _ hNe,
        viewOf_logApply_other _ _ _ _ _ (hFailed _ _) hNe]
  | notDead error _ _ _ =>
      right
      rw [viewOf_finishRun,
        viewOf_logFail_other _ _ _ _ _ hDead hNe,
        viewOf_logApply_other _ _ _ _ _ (hFailed _ _) hNe]
  | deadDelayed error next _ _ _ _ hNext =>
      left
      rw [viewOf_finishRun,
        viewOf_of_rescheduled_other _ _ _ hNext hNe,
        viewOf_logApply_other _ _ _ _ _ hDead hNe,
        viewOf_logApply_other _ _ _ _ _ (hFailed _ _) hNe]
  | dead error _ _ _ =>
      left
      rw [viewOf_finishRun,
        viewOf_logApply_other _ _ _ _ _ hDead hNe,
        viewOf_logApply_other _ _ _ _ _ (hFailed _ _) hNe]

end Kron

------------------------------------------------------------
-- Sections As Steps Of A Timer
------------------------------------------------------------

namespace Kron

variable {cal : Calendar}
variable {codec : JsonCodec LogEntry}
variable {snaps : JsonCodec Snapshot}
variable {T : TimerId}

namespace TimerStep

/- Nothing happens to the timer. -/
theorem stutter
    {label : TimerLabel}
    (hLabel : label ≠ .reopen)
    (v : TimerView) :
    TimerStep cal T label v v :=
  .other label v v.shuttingDown v.stopped hLabel id id

/- Another timer failed to log. -/
theorem halted
    {label : TimerLabel}
    (hLabel : label ≠ .reopen)
    (v : TimerView) :
    TimerStep cal T label v v.halt :=
  .other label v true true hLabel (fun _ => rfl)
    (fun _ => rfl)

end TimerStep

theorem specs_of_storeOutcome
    {inner stored : Inner}
    {spec : TimerSpec}
    {io : AppendIo}
    (hStore : StoreOutcome codec inner spec io stored) :
    stored.state.specs[spec.id]? = some spec := by
  cases hStore with
  | known hSpec => exact hSpec
  | created _ _ =>
      simp [Inner.logApply, EngineState.apply]
  | updated _ _ _ _ =>
      simp [Inner.dropEntries, Inner.clearNextRun,
        Inner.logApply, EngineState.apply]

theorem storeView_of_storeOutcome
    {inner stored : Inner}
    {spec : TimerSpec}
    {io : AppendIo}
    (due spawned : List ScheduledTimer)
    (executing : List Execution)
    (hStore : StoreOutcome codec inner spec io stored)
    (hId : spec.id = T) :
    StoreView spec io
      (viewOf T inner due spawned executing)
      (viewOf T stored due spawned executing) := by
  cases hStore with
  | known hSpec =>
      rw [hId] at hSpec
      exact .known _ hSpec
  | created hSpec hIo =>
      rw [hId] at hSpec
      rw [viewOf_created_self _ _ _ _ _ hId]
      exact .created _ hSpec hIo
  | updated old hSpec hNe hIo =>
      rw [viewOf_updated_self _ _ _ _ _ hId]
      rw [hId] at hSpec
      exact .updated _ old hSpec hNe hIo

theorem viewOf_of_storeOutcome_other
    {inner stored : Inner}
    {spec : TimerSpec}
    {io : AppendIo}
    (due spawned : List ScheduledTimer)
    (executing : List Execution)
    (hStore : StoreOutcome codec inner spec io stored)
    (hNe : spec.id ≠ T) :
    viewOf T stored due spawned executing =
      viewOf T inner due spawned executing := by
  cases hStore with
  | known _ => rfl
  | created _ _ => exact viewOf_created_other _ _ _ _ _ hNe
  | updated _ _ _ _ =>
      exact viewOf_updated_other _ _ _ _ _ hNe

theorem nextView_of_nextOutcome
    {inner inner' : Inner}
    {spec : TimerSpec}
    {now : DateTime}
    (due spawned : List ScheduledTimer)
    (executing : List Execution)
    (hNext : NextOutcome cal inner T now inner')
    (hStored : inner.state.specs[T]? = some spec) :
    NextView cal T spec now
      (viewOf T inner due spawned executing)
      (viewOf T inner' due spawned executing) := by
  cases hNext with
  | waiting hMem =>
      apply NextView.waiting
      simpa [viewOf] using hMem
  | pushed spec' next hNone hSpec hAfter =>
      rw [hStored] at hSpec
      cases hSpec
      rw [viewOf_pushNextRun_self]
      apply NextView.pushed _ next _ hAfter
      simpa [viewOf] using hNone
  | none spec' result hMem hSpec hAfter hNone =>
      rw [hStored] at hSpec
      cases hSpec
      apply NextView.none _ result _ hAfter hNone
      simpa [viewOf] using hMem

theorem viewOf_of_nextOutcome_other
    {inner inner' : Inner}
    {id : TimerId}
    {now : DateTime}
    (due spawned : List ScheduledTimer)
    (executing : List Execution)
    (hNext : NextOutcome cal inner id now inner')
    (hNe : id ≠ T) :
    viewOf T inner' due spawned executing =
      viewOf T inner due spawned executing := by
  cases hNext with
  | waiting _ => rfl
  | pushed _ next _ _ _ =>
      exact viewOf_pushNextRun_other _ _ _ _ next hNe
  | none _ _ _ _ _ _ => rfl

theorem timerStep_of_schedule
    {inner inner' : Inner}
    {call : ScheduleCall}
    {result : Except KronError Unit}
    (due spawned : List ScheduledTimer)
    (executing : List Execution)
    (hCall :
      scheduleWithOverlap cal codec inner call =
        some (inner', result)) :
    TimerStep cal T
      (if call.id = T then .schedule call else .other)
      (viewOf T inner due spawned executing)
      (viewOf T inner' due spawned executing) := by
  have hLabel :
      (if call.id = T then TimerLabel.schedule call
        else .other) ≠ .reopen := by
    split <;> simp
  cases scheduleOutcome_of_eq_some hCall with
  | stopped _ => exact .stutter hLabel _
  | notCreated _ _ _ =>
      rw [viewOf_logOnly _ _ _ _ _ rfl]
      exact .stutter hLabel _
  | notUpdated _ _ =>
      rw [viewOf_logOnly _ _ _ _ _ rfl]
      exact .stutter hLabel _
  | scheduled stored _ hRuns hStore hNext =>
      by_cases hId : call.id = T
      · subst hId
        have hStored :
            (stored.register call.id
                call.fnName).state.specs[call.id]? =
              some (call.spec inner.state) := by
          rw [Inner.register_specs]
          exact specs_of_storeOutcome hStore
        rw [if_pos rfl]
        apply TimerStep.schedule call
          (viewOf call.id inner due spawned executing)
          (viewOf call.id stored due spawned executing) _
          rfl hRuns
          (storeView_of_storeOutcome _ _ _ hStore rfl)
        rw [← viewOf_register_self _ _ _ _ call.fnName]
        exact nextView_of_nextOutcome _ _ _ hNext hStored
      · rw [if_neg hId,
          viewOf_of_nextOutcome_other _ _ _ hNext hId,
          viewOf_register_other _ _ _ _ _ hId,
          viewOf_of_storeOutcome_other _ _ _ hStore hId]
        exact .stutter (by simp) _

theorem timerStep_of_dispatch
    {engine engine' : Engine}
    {now : DateTime}
    (hDispatch : engine.dispatch now = some engine') :
    TimerStep cal T (.dispatch now) (engine.view T)
      (engine'.view T) := by
  unfold Engine.dispatch at hDispatch
  split at hDispatch
  · rename_i hLoop
    split at hDispatch
    · cases hDispatch
      have hView :
          Engine.view T { engine with loop := .exited } =
            engine.view T := by
        simp only [Engine.view, hLoop, DispatchLoop.due]
      rw [hView]
      exact .stutter (by simp) _
    · rename_i hDown
      cases hDispatch
      refine
        TimerStep.dispatch now (engine.view T)
          (entriesOf T (engine.inner.heap.popDue now).1)
          (entriesOf T (engine.inner.heap.popDue now).2)
          (Bool.eq_false_of_not_eq_true hDown) ?_
          (entriesOf_popDue _ _) ?_ ?_
      · simp [Engine.view, viewOf, hLoop, DispatchLoop.due]
      · intro entry hMem
        have hPopped := (mem_entriesOf.mp hMem).1
        simp only [TimerHeap.popDue,
          List.partition_eq_filter_filter,
          List.mem_filter] at hPopped
        simpa using hPopped.2
      · intro entry hMem
        have hKept := (mem_entriesOf.mp hMem).1
        simp only [TimerHeap.popDue,
          List.partition_eq_filter_filter,
          List.mem_filter] at hKept
        simpa using hKept.2
  · cases hDispatch

theorem timerStep_of_spawn
    {engine engine' : Engine}
    {i : Nat}
    (hSpawn : engine.spawn i = some engine') :
    TimerStep cal T .spawn (engine.view T)
      (engine'.view T) := by
  unfold Engine.spawn at hSpawn
  split at hSpawn
  · rename_i due hLoop
    split at hSpawn
    · cases hSpawn
    · rename_i scheduled hGet
      split at hSpawn
      · rename_i hDown
        cases hSpawn
        exact .dropDue (engine.view T) hDown
      · rename_i hDown
        split at hSpawn
        · cases hSpawn
          have hDue := entriesOf_eraseIdx (T := T) hGet
          have hView :
              (engine.view T).due = entriesOf T due := by
            simp only [Engine.view, viewOf, hLoop,
              DispatchLoop.due]
          by_cases hId : scheduled.timerId = T
          · rw [entriesOf_cons_self _ hId, ← hView] at hDue
            have hStep :
                TimerStep cal T .spawn (engine.view T) _ :=
              .spawn (engine.view T) scheduled _
                (Bool.eq_false_of_not_eq_true hDown) hDue
            have hSpawned :=
              entriesOf_cons_self engine.spawned hId
            simpa [Engine.view, viewOf, DispatchLoop.due,
              hSpawned] using hStep
          · rw [entriesOf_cons_other _ hId, ← hView] at hDue
            have hStep :
                TimerStep cal T .spawn (engine.view T)
                  (engine.view T) :=
              .stutter (by simp) _
            have hSpawned :=
              entriesOf_cons_other engine.spawned hId
            simpa [Engine.view, viewOf, DispatchLoop.due,
              hSpawned, hLoop, ← hDue, hView] using hStep
        · cases hSpawn
  · cases hSpawn

theorem timerStep_of_runStart
    {engine engine' : Engine}
    {i : Nat}
    {io : StartIo}
    (hWell : engine.WellFormed)
    (hStep :
      engine.step cal codec snaps (.runStart i io) =
        some engine') :
    TimerStep cal T (engine.label T (.runStart i io))
      (engine.view T) (engine'.view T) := by
  simp only [Engine.step] at hStep
  simp only [Engine.label]
  cases hGet : engine.spawned[i]? with
  | none => simp [hGet] at hStep
  | some entry =>
      simp only [hGet] at hStep
      rcases Option.map_eq_some_iff.mp hStep with
        ⟨⟨inner', run⟩, hStart, hEq⟩
      rcases hWell.spec_of_spawned
          (List.mem_of_getElem? hGet) with
        ⟨hRegistered, spec, hSpec, hSpecId⟩
      have hOutcome := startOutcome_of_eq_some hStart
      have hSpawned := entriesOf_eraseIdx (T := T) hGet
      rw [← hEq]
      by_cases hId : entry.timerId = T
      · rw [entriesOf_cons_self _ hId] at hSpawned
        simp only [if_pos hId]
        rw [hId] at hRegistered hSpec hSpecId hOutcome
        refine
          TimerStep.start entry io spec _ _ _ hId hSpawned
            hSpec ?_
        have hView :=
          startView_of_startOutcome engine.loop.due
            (engine.spawned.eraseIdx i) engine.executing
            hOutcome hId hRegistered hSpec hSpecId
        rw [viewOf_clearNextRun_self] at hView
        exact hView
      · rw [entriesOf_cons_other _ hId] at hSpawned
        simp only [if_neg hId]
        have hView :
            viewOf T
                (engine.inner.clearNextRun entry.timerId)
                engine.loop.due (engine.spawned.eraseIdx i)
                engine.executing =
              engine.view T := by
          rw [viewOf_clearNextRun_other _ _ _ _ hId]
          simp only [Engine.view, viewOf, hSpawned]
        rcases viewOf_of_startOutcome_other engine.loop.due
            (engine.spawned.eraseIdx i) engine.executing
            hOutcome hId hSpec hSpecId with
          hSame | hHalted
        · rw [hView] at hSame
          have hAfter :
              Engine.view T
                  { engine with
                    inner := inner'
                    spawned := engine.spawned.eraseIdx i
                    executing :=
                      run.toList ++ engine.executing } =
                engine.view T := hSame
          rw [hAfter]
          exact .stutter (by simp) _
        · rw [hView] at hHalted
          have hAfter :
              Engine.view T
                  { engine with
                    inner := inner'
                    spawned := engine.spawned.eraseIdx i
                    executing :=
                      run.toList ++ engine.executing } =
                (engine.view T).halt := hHalted
          rw [hAfter]
          exact .halted (by simp) _

theorem timerStep_of_runFinish
    {engine engine' : Engine}
    {i : Nat}
    {io : FinishIo}
    (hWell : engine.WellFormed)
    (hStep :
      engine.step cal codec snaps (.runFinish i io) =
        some engine') :
    TimerStep cal T (engine.label T (.runFinish i io))
      (engine.view T) (engine'.view T) := by
  simp only [Engine.step] at hStep
  simp only [Engine.label]
  cases hGet : engine.executing[i]? with
  | none => simp [hGet] at hStep
  | some run =>
      simp only [hGet] at hStep
      rcases Option.map_eq_some_iff.mp hStep with
        ⟨inner', hFinish, hEq⟩
      rcases hWell.run_of_executing
          (List.mem_of_getElem? hGet) with
        ⟨hSpecId, hKnown⟩
      have hOutcome := finishOutcome_of_eq_some hFinish
      have hExecuting := runsOf_eraseIdx (T := T) hGet
      rw [← hEq]
      by_cases hId : run.timerId = T
      · rw [runsOf_cons_self _ hId] at hExecuting
        simp only [if_pos hId]
        rw [hId] at hSpecId
        exact
          TimerStep.finish run io _ _ _ hSpecId hExecuting
            (finishView_of_finishOutcome engine.loop.due
              engine.spawned (engine.executing.eraseIdx i)
              hOutcome hSpecId hKnown)
      · rw [runsOf_cons_other _ hId] at hExecuting
        simp only [if_neg hId]
        rw [← hSpecId] at hId
        have hView :
            viewOf T engine.inner engine.loop.due
                engine.spawned
                (engine.executing.eraseIdx i) =
              engine.view T := by
          simp only [Engine.view, viewOf, hExecuting]
        rcases viewOf_of_finishOutcome_other engine.loop.due
            engine.spawned (engine.executing.eraseIdx i)
            hOutcome hId hKnown with
          hSame | hHalted
        · rw [hView] at hSame
          have hAfter :
              Engine.view T
                  { engine with
                    inner := inner'
                    executing :=
                      engine.executing.eraseIdx i } =
                engine.view T := hSame
          rw [hAfter]
          exact .stutter (by simp) _
        · rw [hView] at hHalted
          have hAfter :
              Engine.view T
                  { engine with
                    inner := inner'
                    executing :=
                      engine.executing.eraseIdx i } =
                (engine.view T).halt := hHalted
          rw [hAfter]
          exact .halted (by simp) _

/- An opened engine has registered nothing. -/
theorem fresh_of_openEngine
    {dataDir : String}
    {dir : DataDir}
    {inner : Inner}
    (hOpen : openEngine codec snaps dataDir dir = .ok inner)
    (logged : List Event) :
    ((Engine.ofInner { inner with logged := logged }).view
      T).Fresh := by
  unfold openEngine at hOpen
  cases hLoad : loadState codec snaps dataDir dir with
  | error e => simp [hLoad] at hOpen
  | ok state =>
      simp only [hLoad, Except.ok.injEq] at hOpen
      subst hOpen
      refine ⟨?_, ?_, rfl, rfl, rfl, rfl⟩
      · exact Std.ExtTreeMap.not_mem_empty
      · exact Std.ExtTreeMap.getElem?_empty

theorem timerStep_of_reopen
    {engine engine' : Engine}
    {dataDir : String}
    {dir : DataDir}
    (hStep :
      engine.step cal codec snaps (.reopen dataDir dir) =
        some engine') :
    TimerStep cal T .reopen (engine.view T)
      (engine'.view T) := by
  simp only [Engine.step] at hStep
  cases hOpen : openEngine codec snaps dataDir dir with
  | error e => simp [hOpen] at hStep
  | ok inner =>
      simp only [hOpen] at hStep
      cases hStep
      exact .reopen _ _ (fresh_of_openEngine hOpen _) rfl

/-
  Each section of the engine is one step in the life of
  each timer.
-/
theorem timerStep_of_step
    {engine engine' : Engine}
    {sec : Section}
    (T : TimerId)
    (hWell : engine.WellFormed)
    (hStep :
      engine.step cal codec snaps sec = some engine') :
    TimerStep cal T (engine.label T sec) (engine.view T)
      (engine'.view T) := by
  cases sec with
  | schedule call =>
      rcases Option.map_eq_some_iff.mp hStep with
        ⟨⟨inner', result⟩, hCall, hEq⟩
      rw [← hEq]
      exact timerStep_of_schedule _ _ _ hCall
  | start =>
      cases hStep
      have hView :
          engine.start.view T = engine.view T := by
        unfold Engine.start
        split
        · rfl
        · rename_i hFresh
          have hNotStarted :
              engine.inner.runtime.started = false := by
            simp only [not_or] at hFresh
            simpa using hFresh.2
          simp only [Engine.view, viewOf,
            hWell.idle hNotStarted]
          rfl
      rw [hView]
      exact .stutter (by simp [Engine.label]) _
  | dispatch now => exact timerStep_of_dispatch hStep
  | spawn i => exact timerStep_of_spawn hStep
  | runStart i io => exact timerStep_of_runStart hWell hStep
  | runFinish i io =>
      exact timerStep_of_runFinish hWell hStep
  | compact now later =>
      cases hStep
      exact .stutter (by simp [Engine.label]) _
  | reopen dataDir dir => exact timerStep_of_reopen hStep
  | shutdownBegin =>
      cases hStep
      unfold Engine.shutdownBegin
      split
      · exact .stutter (by simp [Engine.label]) _
      · split
        · exact
            .other _ (engine.view T) true
              engine.inner.runtime.stopped
              (by simp [Engine.label]) (fun _ => rfl) id
        · exact
            .other _ (engine.view T)
              engine.inner.runtime.shuttingDown true
              (by simp [Engine.label]) id (fun _ => rfl)
  | shutdownCheck =>
      simp only [Engine.step] at hStep
      split at hStep
      · cases hStep
        exact .stutter (by simp [Engine.label]) _
      · cases hStep
  | shutdownTimeout =>
      simp only [Engine.step] at hStep
      split at hStep
      · cases hStep
        exact .stutter (by simp [Engine.label]) _
      · cases hStep
  | shutdownEnd =>
      simp only [Engine.step] at hStep
      split at hStep
      · cases hStep
        exact
          .other _ (engine.view T)
            engine.inner.runtime.shuttingDown true
            (by simp [Engine.label]) id (fun _ => rfl)
      · cases hStep

end Kron

------------------------------------------------------------
-- Invariants Of One Timer
------------------------------------------------------------

namespace Kron

open TimerView

variable {cal : Calendar}
variable {T : TimerId}
variable {spec : TimerSpec}
variable {v v' : TimerView}

/- Rescheduling changes the heap and the next run only. -/
theorem RescheduledView.frame
    {from_ : DateTime}
    (hNext : RescheduledView cal T spec from_ v v') :
    v' = { v with heap := v'.heap, next := v'.next } := by
  cases hNext with
  | stopped _ => rfl
  | pushed _ _ _ => rfl
  | cleared _ _ _ _ => rfl

/- Starting a run keeps the spec and other entries. -/
theorem StartView.frame
    {entry : ScheduledTimer}
    {io : StartIo}
    (hStart : StartView cal T spec entry io v v') :
    v'.spec = v.spec ∧ v'.registered = v.registered ∧
      v'.due = v.due ∧ v'.spawned = v.spawned ∧
      (v'.executing = v.executing ∨
        v'.executing =
          entry.execution spec false io ::ₘ
            v.executing) := by
  cases hStart with
  | notSkipped _ =>
      exact ⟨rfl, rfl, rfl, rfl, Or.inl rfl⟩
  | skipped _ _ _ hNext =>
      rw [hNext.frame]
      exact ⟨rfl, rfl, rfl, rfl, Or.inl rfl⟩
  | notDue _ =>
      exact ⟨rfl, rfl, rfl, rfl, Or.inl rfl⟩
  | notStarted _ =>
      exact ⟨rfl, rfl, rfl, rfl, Or.inl rfl⟩
  | delayed _ =>
      exact ⟨rfl, rfl, rfl, rfl, Or.inr rfl⟩
  | started _ _ _ hNext =>
      rw [hNext.frame]
      exact ⟨rfl, rfl, rfl, rfl, Or.inr rfl⟩

theorem dropNext_eq
    (v : TimerView)
    (spec : TimerSpec) :
    ∃ heap next,
      v.dropNext spec =
        { v with heap := heap, next := next } := by
  unfold TimerView.dropNext
  split
  · exact ⟨v.heap, v.next, rfl⟩
  · exact ⟨0, none, rfl⟩

/- Finishing a run keeps the spec and other tasks. -/
theorem FinishView.frame
    {run : Execution}
    {io : FinishIo}
    (hFinish : FinishView cal T run io v v') :
    v'.spec = v.spec ∧ v'.registered = v.registered ∧
      v'.due = v.due ∧ v'.spawned = v.spawned ∧
      v'.executing = v.executing := by
  cases hFinish with
  | notSucceeded _ => exact ⟨rfl, rfl, rfl, rfl, rfl⟩
  | delayed _ _ hNext =>
      rw [hNext.frame]
      exact ⟨rfl, rfl, rfl, rfl, rfl⟩
  | succeeded _ => exact ⟨rfl, rfl, rfl, rfl, rfl⟩
  | notFailed error _ _ => exact ⟨rfl, rfl, rfl, rfl, rfl⟩
  | notRetrying error retryAt _ _ _ =>
      rcases dropNext_eq
          (v.log (run.failedEvent v.readAttempt error io))
          run.spec with
        ⟨heap, next, hDrop⟩
      rw [hDrop]
      exact ⟨rfl, rfl, rfl, rfl, rfl⟩
  | retryStopped error retryAt _ _ _ =>
      rcases dropNext_eq
          (v.log (run.failedEvent v.readAttempt error io))
          run.spec with
        ⟨heap, next, hDrop⟩
      rw [hDrop]
      exact ⟨rfl, rfl, rfl, rfl, rfl⟩
  | retrying error retryAt _ _ _ =>
      rcases dropNext_eq
          (v.log (run.failedEvent v.readAttempt error io))
          run.spec with
        ⟨heap, next, hDrop⟩
      rw [hDrop]
      exact ⟨rfl, rfl, rfl, rfl, rfl⟩
  | notDead error _ _ _ => exact ⟨rfl, rfl, rfl, rfl, rfl⟩
  | deadDelayed _ error _ _ _ _ hNext =>
      rw [hNext.frame]
      exact ⟨rfl, rfl, rfl, rfl, rfl⟩
  | dead error _ _ _ => exact ⟨rfl, rfl, rfl, rfl, rfl⟩

/- A call stores its spec and registers the timer. -/
theorem schedule_frame
    {io : AppendIo}
    {now : DateTime}
    {stored : TimerView}
    (hStore : StoreView spec io v stored)
    (hNext : NextView cal T spec now stored.register v') :
    v'.spec = some spec ∧ v'.registered = True ∧
      v'.due = v.due ∧ v'.spawned = v.spawned ∧
      v'.executing = v.executing ∧
      v'.logged = v.logged := by
  cases hStore with
  | known hSpec =>
      cases hNext <;>
        exact ⟨hSpec, rfl, rfl, rfl, rfl, rfl⟩
  | created _ _ =>
      cases hNext <;> exact ⟨rfl, rfl, rfl, rfl, rfl, rfl⟩
  | updated _ _ _ _ =>
      cases hNext <;> exact ⟨rfl, rfl, rfl, rfl, rfl, rfl⟩

/- A fresh view is well formed. -/
theorem TimerView.Fresh.wellFormed
    (hFresh : v.Fresh) :
    v.WellFormed T where
  spec := fun h => (hFresh.registered h).elim
  next := fun h => (h hFresh.next).elim
  entries := by
    intro entry hMem
    rw [hFresh.heap, hFresh.due, hFresh.spawned] at hMem
    simp at hMem
  runs := by
    intro run hMem
    rw [hFresh.executing] at hMem
    simp at hMem

namespace TimerView.WellFormed

/- A registered timer with its own spec and runs. -/
theorem of_registered
    (hRegistered : v.registered)
    (hSpec : v.spec = some spec)
    (hSpecId : spec.id = T)
    (hRuns :
      ∀ run ∈ v.executing,
        run.spec.id = T ∧ run.missingFunction = false) :
    v.WellFormed T where
  spec := fun _ => ⟨spec, hSpec, hSpecId⟩
  next := fun _ => hRegistered
  entries := fun _ _ => hRegistered
  runs := fun run hMem => ⟨hRegistered, hRuns run hMem⟩

/- Every step keeps a view well formed. -/
theorem step
    {label : TimerLabel}
    (hWell : v.WellFormed T)
    (hStep : TimerStep cal T label v v') :
    v'.WellFormed T := by
  cases hStep with
  | other _ _ _ _ _ _ _ =>
      exact ⟨hWell.spec, hWell.next, hWell.entries, hWell.runs⟩
  | schedule call _ stored _ hId _ hStore hNext =>
      rcases schedule_frame hStore hNext with
        ⟨hSpec, hRegistered, _, _, hExecuting, _⟩
      apply of_registered (by rw [hRegistered]; trivial)
        hSpec hId
      intro run hMem
      rw [hExecuting] at hMem
      exact (hWell.runs run hMem).2
  | dispatch now _ popped kept _ hDue hHeap _ _ =>
      refine ⟨hWell.spec, hWell.next, ?_, hWell.runs⟩
      intro entry hMem
      apply hWell.entries entry
      rw [hDue, hHeap]
      simp only [Multiset.mem_add, Multiset.notMem_zero,
        or_false] at hMem ⊢
      tauto
  | spawn _ entry rest _ hDue =>
      refine ⟨hWell.spec, hWell.next, ?_, hWell.runs⟩
      intro other hMem
      apply hWell.entries other
      rw [hDue]
      simp only [Multiset.mem_add, Multiset.mem_cons]
        at hMem ⊢
      tauto
  | dropDue _ _ =>
      refine ⟨hWell.spec, hWell.next, ?_, hWell.runs⟩
      intro other hMem
      apply hWell.entries other
      simp only [Multiset.mem_add, Multiset.notMem_zero,
        or_false] at hMem ⊢
      tauto
  | start entry io spec rest _ _ hId hSpawned hSpec
      hStart =>
      have hRegistered : v.registered := by
        apply hWell.entries entry
        rw [hSpawned]
        simp
      rcases hWell.spec hRegistered with
        ⟨spec', hSpec', hSpecId⟩
      have hSame : spec' = spec := by
        rw [hSpec] at hSpec'
        exact (Option.some.inj hSpec').symm
      subst hSame
      rcases hStart.frame with
        ⟨hSpecEq, hRegEq, _, _, hExecuting⟩
      apply of_registered (by rw [hRegEq]; exact hRegistered)
        (hSpecEq.trans hSpec) hSpecId
      intro run hMem
      rcases hExecuting with hSameRuns | hNew
      · rw [hSameRuns] at hMem
        exact (hWell.runs run hMem).2
      · rw [hNew] at hMem
        rcases Multiset.mem_cons.mp hMem with hEq | hOld
        · rw [hEq]
          exact ⟨hSpecId, rfl⟩
        · exact (hWell.runs run hOld).2
  | finish run io rest _ _ hId hExecuting hFinish =>
      have hRun : run ∈ v.executing := by
        rw [hExecuting]
        simp
      have hRegistered := (hWell.runs run hRun).1
      rcases hWell.spec hRegistered with
        ⟨spec, hSpec, hSpecId⟩
      rcases hFinish.frame with
        ⟨hSpecEq, hRegEq, _, _, hExecutingEq⟩
      apply of_registered (by rw [hRegEq]; exact hRegistered)
        (hSpecEq.trans hSpec) hSpecId
      intro other hMem
      rw [hExecutingEq] at hMem
      apply (hWell.runs other _).2
      rw [hExecuting]
      exact Multiset.mem_cons_of_mem hMem
  | reopen _ _ hFresh _ => exact hFresh.wellFormed

end TimerView.WellFormed

/- A timer stays registered until the engine is opened. -/
theorem TimerStep.registered
    {label : TimerLabel}
    (hStep : TimerStep cal T label v v')
    (hLabel : label ≠ .reopen)
    (hRegistered : v.registered) :
    v'.registered := by
  cases hStep with
  | other _ _ _ _ _ _ _ => exact hRegistered
  | schedule _ _ _ _ _ _ hStore hNext =>
      rw [(schedule_frame hStore hNext).2.1]
      trivial
  | dispatch _ _ _ _ _ _ _ _ _ => exact hRegistered
  | spawn _ _ _ _ _ => exact hRegistered
  | dropDue _ _ => exact hRegistered
  | start _ _ _ _ _ _ _ _ _ hStart =>
      rw [hStart.frame.2.1]
      exact hRegistered
  | finish _ _ _ _ _ _ _ hFinish =>
      rw [hFinish.frame.2.1]
      exact hRegistered
  | reopen _ _ _ _ => exact (hLabel rfl).elim

end Kron

------------------------------------------------------------
-- Invariants Of Runs
------------------------------------------------------------

namespace Kron

variable {cal : Calendar}
variable {codec : JsonCodec LogEntry}
variable {snaps : JsonCodec Snapshot}

/- An opened engine has logged nothing. -/
theorem logged_of_openEngine
    {dataDir : String}
    {dir : DataDir}
    {inner : Inner}
    (hOpen :
      openEngine codec snaps dataDir dir = .ok inner) :
    inner.logged = [] := by
  unfold openEngine at hOpen
  cases hLoad : loadState codec snaps dataDir dir with
  | error e => simp [hLoad] at hOpen
  | ok state =>
      simp only [hLoad, Except.ok.injEq] at hOpen
      rw [← hOpen]
      rfl

/- An opened engine is well formed. -/
theorem wellFormed_of_openEngine
    {dataDir : String}
    {dir : DataDir}
    {inner : Inner}
    (hOpen : openEngine codec snaps dataDir dir = .ok inner)
    (logged : List Event) :
    (Engine.ofInner
      { inner with logged := logged }).WellFormed where
  views := fun T =>
    (fresh_of_openEngine (T := T) hOpen logged).wellFormed
  idle := fun _ => rfl

/- Sections keep an engine well formed. -/
theorem Engine.WellFormed.step
    {engine engine' : Engine}
    {sec : Section}
    (hWell : engine.WellFormed)
    (hStep :
      engine.step cal codec snaps sec = some engine') :
    engine'.WellFormed := by
  refine
    ⟨fun T =>
      (hWell.views T).step (timerStep_of_step T hWell hStep),
      ?_⟩
  cases sec with
  | schedule call =>
      rcases Option.map_eq_some_iff.mp hStep with
        ⟨⟨inner', result⟩, hCall, hEq⟩
      rw [← hEq]
      have hRuntime :=
        (scheduleOutcome_of_eq_some hCall).runtime
      intro hStarted
      apply hWell.idle
      rw [← hRuntime]
      exact hStarted
  | start =>
      cases hStep
      unfold Engine.start
      split
      · exact hWell.idle
      · intro hNot
        cases hNot
  | dispatch now =>
      simp only [Engine.step, Engine.dispatch] at hStep
      split at hStep
      · rename_i hLoop
        have hStarted :
            engine.inner.runtime.started ≠ false := by
          intro hNot
          rw [hWell.idle hNot] at hLoop
          cases hLoop
        split at hStep
        · cases hStep
          intro hNot
          exact (hStarted hNot).elim
        · cases hStep
          intro hNot
          exact (hStarted hNot).elim
      · cases hStep
  | spawn i =>
      simp only [Engine.step, Engine.spawn] at hStep
      split at hStep
      · rename_i hLoop
        have hStarted :
            engine.inner.runtime.started ≠ false := by
          intro hNot
          rw [hWell.idle hNot] at hLoop
          cases hLoop
        split at hStep
        · cases hStep
        · split at hStep
          · cases hStep
            intro hNot
            exact (hStarted hNot).elim
          · split at hStep
            · cases hStep
              intro hNot
              exact (hStarted hNot).elim
            · cases hStep
      · cases hStep
  | runStart i io =>
      simp only [Engine.step] at hStep
      split at hStep
      · cases hStep
      · rcases Option.map_eq_some_iff.mp hStep with
          ⟨⟨inner', run⟩, hStart, hEq⟩
        rw [← hEq]
        have hRuntime :=
          (startOutcome_of_eq_some hStart).runtime
        intro hNot
        apply hWell.idle
        cases run with
        | none => exact hRuntime.started.symm.trans hNot
        | some run =>
            have hSame :
                inner'.runtime = engine.inner.runtime :=
              hRuntime
            rw [← hSame]
            exact hNot
  | runFinish i io =>
      simp only [Engine.step] at hStep
      split at hStep
      · cases hStep
      · rcases Option.map_eq_some_iff.mp hStep with
          ⟨inner', hFinish, hEq⟩
        rw [← hEq]
        have hRuntime :=
          (finishOutcome_of_eq_some hFinish).runtime
        intro hNot
        apply hWell.idle
        exact hRuntime.started.symm.trans hNot
  | compact now later =>
      cases hStep
      exact hWell.idle
  | reopen dataDir dir =>
      simp only [Engine.step] at hStep
      split at hStep
      · cases hStep
      · cases hStep
        intro _
        rfl
  | shutdownBegin =>
      cases hStep
      unfold Engine.shutdownBegin
      split
      · exact hWell.idle
      · split
        · exact hWell.idle
        · exact hWell.idle
  | shutdownCheck =>
      simp only [Engine.step] at hStep
      split at hStep
      · cases hStep
        exact hWell.idle
      · cases hStep
  | shutdownTimeout =>
      simp only [Engine.step] at hStep
      split at hStep
      · cases hStep
        exact hWell.idle
      · cases hStep
  | shutdownEnd =>
      simp only [Engine.step] at hStep
      split at hStep
      · cases hStep
        exact hWell.idle
      · cases hStep

namespace Engine

/- Every section of a run meets a condition on a timer. -/
def EachStep
    (cal : Calendar)
    (codec : JsonCodec LogEntry)
    (snaps : JsonCodec Snapshot)
    (T : TimerId)
    (Cond : TimerView → TimerLabel → Prop)
    (engine : Engine)
    (sections : List Section) : Prop :=
  Machine.Meets (step cal codec snaps)
    (fun e sec => Cond (e.view T) (e.label T sec)) engine
    sections

/- A run keeps an engine well formed. -/
theorem WellFormed.run
    {engine engine' : Engine}
    {sections : List Section}
    (hWell : engine.WellFormed)
    (hRun :
      engine.run cal codec snaps sections =
        some engine') :
    engine'.WellFormed := by
  have hMeets :
      Machine.Meets (Engine.step cal codec snaps)
        (fun _ _ => True) engine sections :=
    Machine.meets_of_forall _ _ fun _ _ _ => trivial
  refine
    Machine.run_invariant WellFormed ?_ hWell hMeets hRun
  intro e sec e' hInv _ hTake
  exact hInv.step hTake

/- Two conditions are met together. -/
theorem EachStep.and
    {T : TimerId}
    {Cond Cond' : TimerView → TimerLabel → Prop}
    {engine : Engine}
    {sections : List Section}
    (hMeets :
      engine.EachStep cal codec snaps T Cond sections)
    (hMeets' :
      engine.EachStep cal codec snaps T Cond' sections) :
    engine.EachStep cal codec snaps T
      (fun v label => Cond v label ∧ Cond' v label)
      sections :=
  Machine.Meets.and hMeets hMeets'

/- Only registrations of the timer are labelled as such. -/
theorem label_eq_schedule
    {T : TimerId}
    {engine : Engine}
    {sec : Section}
    {call : ScheduleCall}
    (hLabel : engine.label T sec = .schedule call) :
    sec = .schedule call ∧ call.id = T := by
  cases sec with
  | schedule call' =>
      simp only [label] at hLabel
      split at hLabel
      · rename_i hId
        cases hLabel
        exact ⟨rfl, hId⟩
      · cases hLabel
  | runStart i io =>
      simp only [label] at hLabel
      split at hLabel
      · cases hLabel
      · split at hLabel <;> cases hLabel
  | runFinish i io =>
      simp only [label] at hLabel
      split at hLabel
      · cases hLabel
      · split at hLabel <;> cases hLabel
  | _ => cases hLabel

end Engine

/-
  An invariant of the steps of a timer holds in every
  engine that a run reaches.
-/
theorem view_invariant
    {Cond : TimerView → TimerLabel → Prop}
    (T : TimerId)
    (Inv : TimerView → Prop)
    (hStep :
      ∀ v label v', v.WellFormed T → Inv v →
        Cond v label → TimerStep cal T label v v' → Inv v')
    {engine engine' : Engine}
    {sections : List Section}
    (hWell : engine.WellFormed)
    (hInv : Inv (engine.view T))
    (hMeets :
      engine.EachStep cal codec snaps T Cond sections)
    (hRun :
      engine.run cal codec snaps sections =
        some engine') :
    Inv (engine'.view T) := by
  have hBoth :
      engine'.WellFormed ∧ Inv (engine'.view T) := by
    refine
      Machine.run_invariant
        (fun e => e.WellFormed ∧ Inv (e.view T)) ?_
        ⟨hWell, hInv⟩ hMeets hRun
    rintro e sec e' ⟨hWell, hInv⟩ hCond hTake
    exact
      ⟨hWell.step hTake,
        hStep _ _ _ (hWell.views T) hInv hCond
          (timerStep_of_step T hWell hTake)⟩
  exact hBoth.2

/- The same from an engine that was just opened. -/
theorem opened_invariant
    {Cond : TimerView → TimerLabel → Prop}
    (T : TimerId)
    (Inv : TimerView → Prop)
    (hFresh : ∀ v, v.Fresh → v.logged = [] → Inv v)
    (hStep :
      ∀ v label v', v.WellFormed T → Inv v →
        Cond v label → TimerStep cal T label v v' → Inv v')
    {dataDir : String}
    {dir : DataDir}
    {inner : Inner}
    (hOpen : openEngine codec snaps dataDir dir = .ok inner)
    {engine : Engine}
    {sections : List Section}
    (hMeets :
      (Engine.ofInner inner).EachStep cal codec snaps T Cond
        sections)
    (hRun :
      (Engine.ofInner inner).run cal codec snaps sections =
        some engine) :
    Inv (engine.view T) := by
  have hWell : (Engine.ofInner inner).WellFormed :=
    wellFormed_of_openEngine hOpen inner.logged
  have hStart : ((Engine.ofInner inner).view T).Fresh :=
    fresh_of_openEngine hOpen inner.logged
  apply view_invariant T Inv hStep hWell _ hMeets hRun
  apply hFresh _ hStart
  simp [Engine.view, viewOf, Engine.ofInner,
    logged_of_openEngine hOpen]

end Kron

------------------------------------------------------------
-- Timers Whose Specs Have A Property
------------------------------------------------------------

namespace Kron

variable {cal : Calendar}
variable {T : TimerId}
variable {P : TimerSpec → Prop}
variable {v v' : TimerView}

/- Every spec that the timer is given has a property. -/
def AsksFor
    (P : TimerSpec → Prop) :
    TimerView → TimerLabel → Prop
| v, .schedule call => P (call.specFrom v.spec)
| _, _ => True

/- Whether a run asks for a property is seen in its calls. -/
theorem eachStep_asksFor
    {codec : JsonCodec LogEntry}
    {snaps : JsonCodec Snapshot}
    {engine : Engine}
    {sections : List Section}
    (hCalls :
      ∀ call, .schedule call ∈ sections → call.id = T →
        ∀ old, P (call.specFrom old)) :
    engine.EachStep cal codec snaps T (AsksFor P)
      sections := by
  apply Machine.meets_of_forall
  intro sec hMem e
  cases hLabel : e.label T sec with
  | schedule call =>
      rcases Engine.label_eq_schedule hLabel with
        ⟨rfl, hId⟩
      exact hCalls call hMem hId _
  | _ => trivial

/- The spec of a registered timer and of its runs. -/
structure TimerView.Given
    (P : TimerSpec → Prop)
    (v : TimerView) : Prop where
  spec :
    v.registered → ∀ spec, v.spec = some spec → P spec
  runs : ∀ run ∈ v.executing, P run.spec

theorem TimerView.Fresh.given
    (hFresh : v.Fresh) :
    v.Given P where
  spec := fun h => (hFresh.registered h).elim
  runs := by
    intro run hMem
    rw [hFresh.executing] at hMem
    simp at hMem

/- Calls that ask for the property keep it. -/
theorem TimerView.Given.step
    {label : TimerLabel}
    (hWell : v.WellFormed T)
    (hGiven : v.Given P)
    (hAsks : AsksFor P v label)
    (hStep : TimerStep cal T label v v') :
    v'.Given P := by
  cases hStep with
  | other _ _ _ _ _ _ _ => exact ⟨hGiven.spec, hGiven.runs⟩
  | schedule call _ stored _ _ _ hStore hNext =>
      rcases schedule_frame hStore hNext with
        ⟨hSpec, _, _, _, hExecuting, _⟩
      constructor
      · intro _ spec hEq
        rw [hSpec] at hEq
        cases hEq
        exact hAsks
      · rw [hExecuting]
        exact hGiven.runs
  | dispatch _ _ _ _ _ _ _ _ _ =>
      exact ⟨hGiven.spec, hGiven.runs⟩
  | spawn _ _ _ _ _ => exact ⟨hGiven.spec, hGiven.runs⟩
  | dropDue _ _ => exact ⟨hGiven.spec, hGiven.runs⟩
  | start entry io spec rest _ _ _ hSpawned hSpec hStart =>
      rcases hStart.frame with
        ⟨hSpecEq, hRegEq, _, _, hExecuting⟩
      have hRegistered : v.registered := by
        apply hWell.entries entry
        rw [hSpawned]
        simp
      constructor
      · rw [hSpecEq, hRegEq]
        exact hGiven.spec
      · intro run hMem
        rcases hExecuting with hSame | hNew
        · rw [hSame] at hMem
          exact hGiven.runs run hMem
        · rw [hNew] at hMem
          rcases Multiset.mem_cons.mp hMem with hEq | hOld
          · rw [hEq]
            exact hGiven.spec hRegistered spec hSpec
          · exact hGiven.runs run hOld
  | finish run io rest _ _ _ hExecuting hFinish =>
      rcases hFinish.frame with
        ⟨hSpecEq, hRegEq, _, _, hExecutingEq⟩
      constructor
      · rw [hSpecEq, hRegEq]
        exact hGiven.spec
      · intro other hMem
        rw [hExecutingEq] at hMem
        apply hGiven.runs
        rw [hExecuting]
        exact Multiset.mem_cons_of_mem hMem
  | reopen _ _ hFresh _ => exact hFresh.given

end Kron
