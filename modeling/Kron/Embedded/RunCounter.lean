import Kron.Embedded.Shutdown

/-
  The counter of active runs.

  The dispatch loop counts an entry before it spawns its
  task, and every exit of the task calls `finish_run`. The
  counter therefore is the number of dispatched entries
  whose task has not ended, and it is never zero where
  `finish_run` subtracts.

  Key definitions include:
    * `Kron.Engine.unfinished`
    * `Kron.Inner.FinishesOnce`
    * `Kron.EndsOnce`

  Key theorems include:
    * `Kron.StartOutcome.finishesOnce`
    * `Kron.FinishOutcome.finishesOnce`
    * `Kron.run_counter_exact`
-/

------------------------------------------------------------
-- Exits Of A Run
------------------------------------------------------------

namespace Kron

/-
  The dispatched entries whose task has not called
  `finish_run`: it has not begun, or it waits for the
  callback.
-/
def Engine.unfinished
    (engine : Engine) : Nat :=
  engine.spawned.length + engine.executing.length

/-
  A section that ends a run: its body leaves the counter
  alone, and `finish_run` is called once, at the end.
-/
def Inner.FinishesOnce
    (inner inner' : Inner) : Prop :=
  ∃ body : Inner,
    body.runtime.activeRuns = inner.runtime.activeRuns ∧
      inner' = body.finishRun

/-
  A task that ends calls `finish_run` once, where the
  subtraction is exact; one that goes on does not call it.
-/
def EndsOnce
    (cal : Calendar)
    (codec : JsonCodec LogEntry)
    (engine : Engine) : Section → Prop
| .runStart i io =>
    ∀ scheduled, engine.spawned[i]? = some scheduled →
      (∀ inner',
        runTimerStart cal codec engine.inner scheduled io =
            some (inner', none) →
          engine.inner.FinishesOnce inner' ∧
            0 < engine.inner.runtime.activeRuns) ∧
      ∀ inner' run,
        runTimerStart cal codec engine.inner scheduled io =
            some (inner', some run) →
          inner'.runtime.activeRuns =
            engine.inner.runtime.activeRuns
| .runFinish i io =>
    ∀ run, engine.executing[i]? = some run →
      ∀ inner',
        runTimerFinish cal codec engine.inner run io =
            some inner' →
          engine.inner.FinishesOnce inner' ∧
            0 < engine.inner.runtime.activeRuns
| _ => True

variable {cal : Calendar}
variable {codec : JsonCodec LogEntry}
variable {inner inner' : Inner}

/- `finish_run` after a body with an unchanged runtime. -/
theorem Inner.finishesOnce_finishRun
    (body : Inner)
    (hRuntime : body.runtime = inner.runtime) :
    inner.FinishesOnce body.finishRun :=
  ⟨body, congrArg RuntimeState.activeRuns hRuntime, rfl⟩

/- `finish_run` after an append that stopped the engine. -/
theorem Inner.finishesOnce_logFail
    (body : Inner)
    (event : Event)
    (io : AppendIo)
    (hRuntime : body.runtime = inner.runtime) :
    inner.FinishesOnce
      (body.logFail codec event io).finishRun := by
  have hActive :
      body.runtime.activeRuns = inner.runtime.activeRuns :=
    congrArg RuntimeState.activeRuns hRuntime
  exact ⟨body.logFail codec event io, hActive, rfl⟩

/- Every early exit of the first section. -/
theorem StartOutcome.finishesOnce
    {entry : ScheduledTimer}
    {io : StartIo}
    (hOutcome :
      StartOutcome cal codec inner entry io inner' none) :
    inner.FinishesOnce inner' := by
  cases hOutcome with
  | noSpec _ => exact Inner.finishesOnce_finishRun _ rfl
  | notSkipped _ _ _ =>
      exact Inner.finishesOnce_logFail _ _ _ rfl
  | skipped _ _ _ _ _ hNext =>
      exact Inner.finishesOnce_finishRun _ hNext.runtime
  | notDue _ _ _ =>
      exact Inner.finishesOnce_logFail _ _ _ rfl
  | notStarted _ _ _ =>
      exact Inner.finishesOnce_logFail _ _ _ rfl

/- Every exit of the last section. -/
theorem FinishOutcome.finishesOnce
    {run : Execution}
    {io : FinishIo}
    (hOutcome :
      FinishOutcome cal codec inner run io inner') :
    inner.FinishesOnce inner' := by
  cases hOutcome with
  | missing _ =>
      apply Inner.finishesOnce_finishRun
      unfold finishMissing
      simp
  | notSucceeded _ =>
      exact Inner.finishesOnce_logFail _ _ _ rfl
  | delayed _ _ hNext =>
      exact Inner.finishesOnce_finishRun _ hNext.runtime
  | succeeded _ => exact Inner.finishesOnce_finishRun _ rfl
  | notFailed _ _ _ =>
      exact Inner.finishesOnce_logFail _ _ _ rfl
  | notRetrying _ _ _ _ _ =>
      exact Inner.finishesOnce_logFail _ _ _ (by simp)
  | retryStopped _ _ _ _ _ =>
      exact Inner.finishesOnce_finishRun _ (by simp)
  | retrying _ _ _ _ _ =>
      exact
        Inner.finishesOnce_finishRun _
          (by simp [Inner.pushEntry])
  | notDead _ _ _ _ =>
      exact Inner.finishesOnce_logFail _ _ _ rfl
  | deadDelayed _ _ _ _ _ _ hNext =>
      exact Inner.finishesOnce_finishRun _ hNext.runtime
  | dead _ _ _ _ =>
      exact Inner.finishesOnce_finishRun _ rfl

end Kron

------------------------------------------------------------
-- The Counter Over Runs
------------------------------------------------------------

namespace Kron

variable {cal : Calendar}
variable {codec : JsonCodec LogEntry}
variable {snaps : JsonCodec Snapshot}

/- A counted task keeps the counter above zero. -/
theorem endsOnce_of_counted
    {engine : Engine}
    (hCounted : engine.tasks.Counted)
    (sec : Section) :
    EndsOnce cal codec engine sec := by
  have hActive :
      engine.inner.runtime.activeRuns =
        engine.spawned.length + engine.executing.length :=
    hCounted.active
  cases sec with
  | runStart i io =>
      intro scheduled hGet
      have hLength := length_eraseIdx_succ hGet
      constructor
      · intro inner' hStart
        have hOutcome := startOutcome_of_eq_some hStart
        exact ⟨hOutcome.finishesOnce, by omega⟩
      · intro inner' run hStart
        have hRuntime :
            inner'.runtime = engine.inner.runtime :=
          (startOutcome_of_eq_some hStart).runtime
        rw [hRuntime]
  | runFinish i io =>
      intro run hGet inner' hFinish
      have hLength := length_eraseIdx_succ hGet
      have hOutcome := finishOutcome_of_eq_some hFinish
      exact ⟨hOutcome.finishesOnce, by omega⟩
  | _ => trivial

/-
  In every state of every run the counter is the number of
  unfinished runs, and every run ends in one exact call of
  `finish_run`.
-/
theorem run_counter_exact
    (cal : Calendar)
    (codec : JsonCodec LogEntry)
    (snaps : JsonCodec Snapshot)
    (dataDir : String)
    (dir : DataDir)
    (inner : Inner)
    (hOpen : openEngine codec snaps dataDir dir = .ok inner)
    (sections : List Section) :
    (∀ engine,
      (Engine.ofInner inner).run cal codec snaps sections =
          some engine →
        engine.inner.runtime.activeRuns =
          engine.unfinished) ∧
      Machine.Meets (Engine.step cal codec snaps)
        (EndsOnce cal codec) (Engine.ofInner inner)
        sections := by
  have hAlways :
      Machine.Meets (Engine.step cal codec snaps)
        (fun _ _ => True) (Engine.ofInner inner) sections :=
    Machine.meets_of_forall _ _ fun _ _ _ => trivial
  have hFirst :
      (Engine.ofInner inner).tasks.Counted :=
    counted_ofInner hOpen inner.logged
  have hKept :
      ∀ e s e', e.tasks.Counted → True →
        Engine.step cal codec snaps e s = some e' →
          e'.tasks.Counted :=
    fun _ _ _ hInv _ hTake => counted_step hInv hTake
  constructor
  · intro engine hRun
    exact
      (Machine.run_invariant
        (fun e : Engine => e.tasks.Counted)
        hKept hFirst hAlways hRun).active
  · exact
      Machine.Meets.of_invariant
        (fun e : Engine => e.tasks.Counted) hKept
        (fun _ s hInv _ => endsOnce_of_counted hInv s)
        hFirst hAlways

/- One run executes, and the counter is one. -/
theorem run_counter_exact_runExecutes :
    ∃ engine,
      emptyEngine.run utcCalendar logCodec noSnapshots
          runExecutes = some engine ∧
        engine.inner.runtime.activeRuns = 1 ∧
        engine.unfinished = 1 ∧
        Machine.Meets
          (Engine.step utcCalendar logCodec noSnapshots)
          (EndsOnce utcCalendar logCodec) emptyEngine
          (runExecutes ++
            [.runFinish 0 (finishAt (.ok ()) 61)]) := by
  -- The run does not depend on the texts.
  generalize logCodec = codec
  generalize noSnapshots = snaps
  have hEval :
      (emptyEngine.run utcCalendar codec snaps
        runExecutes).map
          (fun e => e.inner.runtime.activeRuns) =
        some 1 := by
    cbv
  rcases Option.map_eq_some_iff.mp hEval with
    ⟨engine, hRun, hActive⟩
  have hExact :=
    (run_counter_exact utcCalendar codec snaps "/data" ∅ _
      (openEngine_empty codec snaps "/data")
      runExecutes).1 engine hRun
  refine
    ⟨engine, hRun, hActive, hExact.symm.trans hActive, ?_⟩
  exact
    (run_counter_exact utcCalendar codec snaps "/data" ∅ _
      (openEngine_empty codec snaps "/data") _).2

end Kron
