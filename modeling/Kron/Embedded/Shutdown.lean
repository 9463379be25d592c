import Kron.Embedded.LogText
import Kron.Embedded.Sections

/-
  Shutting down.

  A shutdown waits until no run is active, and the dispatch
  loop spawns nothing once a shutdown has begun. Only the
  numbers of tasks matter for this, so the engine is seen
  as its runtime flags and counts of tasks. A failed append
  stops the engine as well, and a shutdown that finds it
  stopped does not wait.

  Key definitions include:
    * `Kron.Tasks`
    * `Kron.TaskStep`
    * `Kron.Engine.ReturnsOk`
    * `Kron.FindsIdle`

  Key theorems include:
    * `Kron.taskStep_of_step`
    * `Kron.Tasks.Counted.step`
    * `Kron.Tasks.Quiet.step`
    * `Kron.shutdown_is_quiet`
-/

------------------------------------------------------------
-- Counts Of Tasks
------------------------------------------------------------

namespace Kron

/-
  The runtime of an engine, whether its loop was begun, and
  how many tasks there are of each kind.
-/
structure Tasks where
  runtime : RuntimeState
  looping : Prop
  spawned : Nat
  executing : Nat
  waiting : Nat
  seenIdle : Nat

namespace Engine

def tasks
    (engine : Engine) : Tasks where
  runtime := engine.inner.runtime
  looping := engine.loop ≠ .idle
  spawned := engine.spawned.length
  executing := engine.executing.length
  waiting := engine.waiting
  seenIdle := engine.seenIdle

end Engine

/- What a section other than a restart does to the tasks. -/
inductive TaskStep : Tasks → Tasks → Prop where
| other
    (t : Tasks) :
    TaskStep t t
| start
    (t : Tasks)
    (hRuns : t.runtime.stopped = false) :
    TaskStep t
      { t with
        runtime := { t.runtime with started := true }
        looping := True }
| spawn
    (t : Tasks)
    (hLoop : t.looping)
    (hDown : t.runtime.shuttingDown = false) :
    TaskStep t
      { t with
        runtime :=
          { t.runtime with
            activeRuns := t.runtime.activeRuns + 1 }
        spawned := t.spawned + 1 }
| run
    (t : Tasks)
    (n : Nat)
    (hSpawned : t.spawned = n + 1) :
    TaskStep t
      { t with
        spawned := n
        executing := t.executing + 1 }
| leave
    (t : Tasks)
    (n : Nat)
    (runtime : RuntimeState)
    (hSpawned : t.spawned = n + 1)
    (hEnded : t.runtime.Ended runtime) :
    TaskStep t
      { t with
        runtime := runtime
        spawned := n }
| finish
    (t : Tasks)
    (n : Nat)
    (runtime : RuntimeState)
    (hExecuting : t.executing = n + 1)
    (hEnded : t.runtime.Ended runtime) :
    TaskStep t
      { t with
        runtime := runtime
        executing := n }
| begin
    (t : Tasks)
    (hStarted : t.runtime.started = true) :
    TaskStep t
      { t with
        runtime := { t.runtime with shuttingDown := true }
        waiting := t.waiting + 1 }
| never
    (t : Tasks)
    (hStarted : t.runtime.started = false) :
    TaskStep t
      { t with
        runtime := { t.runtime with stopped := true } }
| check
    (t : Tasks)
    (hWaiting : 0 < t.waiting)
    (hIdle : t.runtime.activeRuns = 0) :
    TaskStep t
      { t with
        waiting := t.waiting - 1
        seenIdle := t.seenIdle + 1 }
| timeout
    (t : Tasks) :
    TaskStep t { t with waiting := t.waiting - 1 }
| close
    (t : Tasks)
    (hSeen : 0 < t.seenIdle) :
    TaskStep t
      { t with
        runtime := { t.runtime with stopped := true }
        seenIdle := t.seenIdle - 1 }

variable {cal : Calendar}
variable {codec : JsonCodec LogEntry}
variable {snaps : JsonCodec Snapshot}
variable {engine engine' : Engine}

theorem length_eraseIdx_succ
    {α : Type}
    {xs : List α}
    {i : Nat}
    {x : α}
    (hGet : xs[i]? = some x) :
    xs.length = (xs.eraseIdx i).length + 1 := by
  have hLt : i < xs.length :=
    (List.getElem?_eq_some_iff.mp hGet).1
  rw [List.length_eraseIdx_of_lt hLt]
  omega

theorem taskStep_of_spawn
    {i : Nat}
    (hSpawn : engine.spawn i = some engine') :
    TaskStep engine.tasks engine'.tasks := by
  unfold Engine.spawn at hSpawn
  split at hSpawn
  · rename_i due hLoop
    split at hSpawn
    · cases hSpawn
    · split at hSpawn
      · cases hSpawn
        have hSame :
            Engine.tasks { engine with loop := .running [] } =
              engine.tasks := by
          simp [Engine.tasks, hLoop]
        rw [hSame]
        exact .other _
      · rename_i hDown
        split at hSpawn
        · cases hSpawn
          have hStep :=
            TaskStep.spawn engine.tasks
              (by simp [Engine.tasks, hLoop])
              (Bool.eq_false_of_not_eq_true hDown)
          simpa [Engine.tasks, hLoop] using hStep
        · cases hSpawn
  · cases hSpawn

theorem taskStep_of_runStart
    {i : Nat}
    {io : StartIo}
    (hStep :
      engine.step cal codec snaps (.runStart i io) =
        some engine') :
    TaskStep engine.tasks engine'.tasks := by
  simp only [Engine.step] at hStep
  cases hGet : engine.spawned[i]? with
  | none => simp [hGet] at hStep
  | some entry =>
      simp only [hGet] at hStep
      rcases Option.map_eq_some_iff.mp hStep with
        ⟨⟨inner', run⟩, hStart, hEq⟩
      rw [← hEq]
      have hRuntime :=
        (startOutcome_of_eq_some hStart).runtime
      have hLength := length_eraseIdx_succ hGet
      cases run with
      | none => exact .leave engine.tasks _ _ hLength hRuntime
      | some run =>
          have hSame :
              inner'.runtime = engine.inner.runtime :=
            hRuntime
          have hRun :=
            TaskStep.run engine.tasks
              (engine.spawned.eraseIdx i).length hLength
          simpa [Engine.tasks, hSame] using hRun

theorem taskStep_of_runFinish
    {i : Nat}
    {io : FinishIo}
    (hStep :
      engine.step cal codec snaps (.runFinish i io) =
        some engine') :
    TaskStep engine.tasks engine'.tasks := by
  simp only [Engine.step] at hStep
  cases hGet : engine.executing[i]? with
  | none => simp [hGet] at hStep
  | some run =>
      simp only [hGet] at hStep
      rcases Option.map_eq_some_iff.mp hStep with
        ⟨inner', hFinish, hEq⟩
      rw [← hEq]
      exact
        .finish engine.tasks _ _ (length_eraseIdx_succ hGet)
          (finishOutcome_of_eq_some hFinish).runtime

/- Each section other than a restart is a step of tasks. -/
theorem taskStep_of_step
    {sec : Section}
    (hLive : ∀ dataDir dir, sec ≠ .reopen dataDir dir)
    (hStep :
      engine.step cal codec snaps sec = some engine') :
    TaskStep engine.tasks engine'.tasks := by
  cases sec with
  | schedule call =>
      rcases Option.map_eq_some_iff.mp hStep with
        ⟨⟨inner', result⟩, hCall, hEq⟩
      rw [← hEq]
      have hSame :
          Engine.tasks { engine with inner := inner' } =
            engine.tasks := by
        simp only [Engine.tasks,
          (scheduleOutcome_of_eq_some hCall).runtime]
      rw [hSame]
      exact .other _
  | start =>
      cases hStep
      unfold Engine.start
      split
      · exact .other _
      · rename_i hFresh
        have hRuns :
            engine.inner.runtime.stopped = false := by
          simp only [not_or] at hFresh
          simpa using hFresh.1
        have hStart := TaskStep.start engine.tasks hRuns
        simpa [Engine.tasks] using hStart
  | dispatch now =>
      simp only [Engine.step, Engine.dispatch] at hStep
      split at hStep
      · rename_i hLoop
        have hSame :
            ∀ loop, loop ≠ .idle →
              ∀ inner : Inner,
                inner.runtime = engine.inner.runtime →
                  TaskStep engine.tasks
                    (Engine.tasks
                      { engine with
                        inner := inner
                        loop := loop }) := by
          intro loop hNe inner hRuntime
          have hOther := TaskStep.other engine.tasks
          simpa [Engine.tasks, hLoop, hNe, hRuntime]
            using hOther
        split at hStep
        · cases hStep
          exact hSame _ (by simp) _ rfl
        · cases hStep
          exact hSame _ (by simp) _ rfl
      · cases hStep
  | spawn i => exact taskStep_of_spawn hStep
  | runStart i io => exact taskStep_of_runStart hStep
  | runFinish i io => exact taskStep_of_runFinish hStep
  | compact now later =>
      cases hStep
      exact .other _
  | reopen dataDir dir => exact (hLive dataDir dir rfl).elim
  | shutdownBegin =>
      cases hStep
      unfold Engine.shutdownBegin
      split
      · exact .other _
      · split
        · rename_i hStarted
          exact .begin engine.tasks hStarted
        · rename_i hStarted
          exact
            .never engine.tasks
              (Bool.eq_false_of_not_eq_true hStarted)
  | shutdownCheck =>
      simp only [Engine.step] at hStep
      split at hStep
      · rename_i hCheck
        cases hStep
        exact .check engine.tasks hCheck.1 hCheck.2
      · cases hStep
  | shutdownTimeout =>
      simp only [Engine.step] at hStep
      split at hStep
      · cases hStep
        exact .timeout engine.tasks
      · cases hStep
  | shutdownEnd =>
      simp only [Engine.step] at hStep
      split at hStep
      · rename_i hSeen
        cases hStep
        exact .close engine.tasks hSeen
      · cases hStep

end Kron

------------------------------------------------------------
-- What The Counts Say
------------------------------------------------------------

namespace Kron

namespace Tasks

/-
  Active runs are the tasks that were spawned or execute; a
  loop that was not begun has no tasks; an engine is stopped
  while shutting down or before it is started; a shutdown
  that waits has begun, and one that has seen the engine
  idle still finds it so.
-/
structure Counted
    (t : Tasks) : Prop where
  active : t.runtime.activeRuns = t.spawned + t.executing
  looping : t.looping → t.runtime.started = true
  idle : t.runtime.started = false → t.runtime.activeRuns = 0
  stopped :
    t.runtime.stopped = true →
      t.runtime.shuttingDown = true ∨
        t.runtime.started = false
  waiting : 0 < t.waiting → t.runtime.shuttingDown = true
  seenIdle :
    0 < t.seenIdle →
      t.runtime.shuttingDown = true ∧
        t.runtime.activeRuns = 0

/-
  No task is left, and none can be spawned: the engine is
  shutting down, or it was stopped before it was started.
-/
structure Quiet
    (t : Tasks) : Prop where
  spawned : t.spawned = 0
  executing : t.executing = 0
  ends :
    t.runtime.shuttingDown = true ∨
      t.runtime.stopped = true ∧ ¬ t.looping

variable {t t' : Tasks}

/- One task less, and one active run less. -/
theorem Counted.ended
    {runtime : RuntimeState}
    {spawned executing : Nat}
    (hCounted : t.Counted)
    (hEnded : t.runtime.Ended runtime)
    (hLess :
      t.spawned + t.executing = spawned + executing + 1) :
    Counted
      { t with
        runtime := runtime
        spawned := spawned
        executing := executing } := by
  have hActive := hCounted.active
  have hRuns := hEnded.activeRuns
  refine ⟨?_, ?_, ?_, ?_, ?_, ?_⟩
  · simp only
    omega
  · intro hLoop
    exact hEnded.started.trans (hCounted.looping hLoop)
  · intro hNot
    have hNone :=
      hCounted.idle (hEnded.started.symm.trans hNot)
    omega
  · intro hStopped
    rcases hEnded.halts hStopped with hOld | hDown
    · exact
        (hCounted.stopped hOld).imp hEnded.shuttingDown
          hEnded.started.trans
    · exact Or.inl hDown
  · intro hWaiting
    exact hEnded.shuttingDown (hCounted.waiting hWaiting)
  · intro hSeen
    have hBoth := hCounted.seenIdle hSeen
    exact ⟨hEnded.shuttingDown hBoth.1, by omega⟩

theorem Counted.step
    (hCounted : t.Counted)
    (hStep : TaskStep t t') :
    t'.Counted := by
  have hActive := hCounted.active
  cases hStep with
  | other => exact hCounted
  | start hRuns =>
      refine
        ⟨hActive, fun _ => rfl, Bool.noConfusion, ?_,
          hCounted.waiting, hCounted.seenIdle⟩
      intro hStopped
      rw [hRuns] at hStopped
      cases hStopped
  | spawn hLoop hDown =>
      have hStarted := hCounted.looping hLoop
      refine
        ⟨?_, hCounted.looping, ?_, hCounted.stopped,
          hCounted.waiting, ?_⟩
      · simp only
        omega
      · intro hNot
        rw [hStarted] at hNot
        cases hNot
      · intro hSeen
        have hDown' := (hCounted.seenIdle hSeen).1
        rw [hDown] at hDown'
        cases hDown'
  | run n hSpawned =>
      refine
        ⟨?_, hCounted.looping, hCounted.idle,
          hCounted.stopped, hCounted.waiting,
          hCounted.seenIdle⟩
      simp only
      omega
  | leave n runtime hSpawned hEnded =>
      exact hCounted.ended hEnded (by omega)
  | finish n runtime hExecuting hEnded =>
      exact hCounted.ended hEnded (by omega)
  | begin hStarted =>
      exact
        ⟨hActive, hCounted.looping, hCounted.idle,
          fun _ => Or.inl rfl, fun _ => rfl,
          fun h => ⟨rfl, (hCounted.seenIdle h).2⟩⟩
  | never hStarted =>
      exact
        ⟨hActive, hCounted.looping, hCounted.idle,
          fun _ => Or.inr hStarted, hCounted.waiting,
          hCounted.seenIdle⟩
  | check hWaiting hIdle =>
      have hDown := hCounted.waiting hWaiting
      exact
        ⟨hActive, hCounted.looping, hCounted.idle,
          hCounted.stopped, fun _ => hDown,
          fun _ => ⟨hDown, hIdle⟩⟩
  | timeout =>
      refine
        ⟨hActive, hCounted.looping, hCounted.idle,
          hCounted.stopped, ?_, hCounted.seenIdle⟩
      intro hWaiting
      apply hCounted.waiting
      simp only at hWaiting
      omega
  | close hSeen =>
      have hBoth := hCounted.seenIdle hSeen
      exact
        ⟨hActive, hCounted.looping, hCounted.idle,
          fun _ => Or.inl hBoth.1, hCounted.waiting,
          fun _ => hBoth⟩

/- A quiet engine stays quiet. -/
theorem Quiet.step
    (hQuiet : t.Quiet)
    (hStep : TaskStep t t') :
    t'.Quiet := by
  cases hStep with
  | other => exact hQuiet
  | start hRuns =>
      refine ⟨hQuiet.spawned, hQuiet.executing, ?_⟩
      rcases hQuiet.ends with hDown | ⟨hStopped, _⟩
      · exact Or.inl hDown
      · rw [hRuns] at hStopped
        cases hStopped
  | spawn hLoop hDown =>
      rcases hQuiet.ends with hDown' | ⟨_, hNot⟩
      · rw [hDown] at hDown'
        cases hDown'
      · exact (hNot hLoop).elim
  | run n hSpawned =>
      rw [hQuiet.spawned] at hSpawned
      cases hSpawned
  | leave n _ hSpawned _ =>
      rw [hQuiet.spawned] at hSpawned
      cases hSpawned
  | finish n _ hExecuting _ =>
      rw [hQuiet.executing] at hExecuting
      cases hExecuting
  | begin _ =>
      exact ⟨hQuiet.spawned, hQuiet.executing, Or.inl rfl⟩
  | never _ =>
      exact
        ⟨hQuiet.spawned, hQuiet.executing,
          hQuiet.ends.imp id fun h => ⟨rfl, h.2⟩⟩
  | check _ _ =>
      exact ⟨hQuiet.spawned, hQuiet.executing, hQuiet.ends⟩
  | timeout =>
      exact ⟨hQuiet.spawned, hQuiet.executing, hQuiet.ends⟩
  | close _ =>
      exact
        ⟨hQuiet.spawned, hQuiet.executing,
          hQuiet.ends.imp id fun h => ⟨rfl, h.2⟩⟩

end Tasks

end Kron

------------------------------------------------------------
-- Shutdown Means Quiet
------------------------------------------------------------

namespace Kron

variable {cal : Calendar}
variable {codec : JsonCodec LogEntry}
variable {snaps : JsonCodec Snapshot}

/- The section is the last one of a shutdown that is `Ok`. -/
def Engine.ReturnsOk
    (engine : Engine) : Section → Prop
| .shutdownBegin =>
    engine.inner.runtime.stopped = true ∨
      engine.inner.runtime.started = false
| .shutdownEnd => True
| _ => False

/-
  A call of shutdown that finds the engine stopped finds no
  active run.
-/
def FindsIdle
    (engine : Engine) : Section → Prop
| .shutdownBegin =>
    engine.inner.runtime.stopped = true →
      engine.inner.runtime.activeRuns = 0
| _ => True

theorem counted_ofInner
    {dataDir : String}
    {dir : DataDir}
    {inner : Inner}
    (hOpen : openEngine codec snaps dataDir dir = .ok inner)
    (logged : List Event) :
    (Engine.ofInner
      { inner with logged := logged }).tasks.Counted := by
  unfold openEngine at hOpen
  cases hLoad : loadState codec snaps dataDir dir with
  | error e => simp [hLoad] at hOpen
  | ok state =>
      simp only [hLoad, Except.ok.injEq] at hOpen
      subst hOpen
      refine ⟨rfl, ?_, ?_, ?_, ?_, ?_⟩
      · intro hLoop
        exact (hLoop rfl).elim
      · intro _
        rfl
      · intro hStopped
        cases hStopped
      · intro hWaiting
        cases hWaiting
      · intro hSeen
        cases hSeen

theorem counted_step
    {engine engine' : Engine}
    {sec : Section}
    (hCounted : engine.tasks.Counted)
    (hStep :
      engine.step cal codec snaps sec = some engine') :
    engine'.tasks.Counted := by
  by_cases hLive : ∀ dataDir dir, sec ≠ .reopen dataDir dir
  · exact hCounted.step (taskStep_of_step hLive hStep)
  · push Not at hLive
    rcases hLive with ⟨dataDir, dir, hSec⟩
    subst hSec
    simp only [Engine.step] at hStep
    cases hOpen : openEngine codec snaps dataDir dir with
    | error e => simp [hOpen] at hStep
    | ok inner =>
        simp only [hOpen] at hStep
        cases hStep
        exact counted_ofInner hOpen _

/- The state in which a shutdown returns `Ok` is quiet. -/
theorem quiet_of_returnsOk
    {engine engine' : Engine}
    {sec : Section}
    (hCounted : engine.tasks.Counted)
    (hIdle : FindsIdle engine sec)
    (hOk : engine.ReturnsOk sec)
    (hStep :
      engine.step cal codec snaps sec = some engine') :
    engine'.tasks.Quiet := by
  have hActive :
      engine.inner.runtime.activeRuns =
        engine.spawned.length + engine.executing.length :=
    hCounted.active
  have hNone :
      engine.inner.runtime.activeRuns = 0 →
        engine.spawned.length = 0 ∧
          engine.executing.length = 0 := by
    intro hZero
    omega
  have hNotLooping :
      engine.inner.runtime.started = false →
        ¬ engine.tasks.looping := by
    intro hNot hLoop
    have hStarted : engine.inner.runtime.started = true :=
      hCounted.looping hLoop
    rw [hStarted] at hNot
    cases hNot
  cases sec with
  | shutdownBegin =>
      cases hStep
      unfold Engine.shutdownBegin
      split
      · rename_i hStopped
        rcases hNone (hIdle hStopped) with
          ⟨hSpawned, hExecuting⟩
        refine ⟨hSpawned, hExecuting, ?_⟩
        rcases hCounted.stopped hStopped with hDown | hNot
        · exact Or.inl hDown
        · exact Or.inr ⟨hStopped, hNotLooping hNot⟩
      · rename_i hRuns
        have hNot : engine.inner.runtime.started = false :=
          hOk.resolve_left hRuns
        rw [if_neg (by simp [hNot])]
        rcases hNone (hCounted.idle hNot) with
          ⟨hSpawned, hExecuting⟩
        exact
          ⟨hSpawned, hExecuting,
            Or.inr ⟨rfl, hNotLooping hNot⟩⟩
  | shutdownEnd =>
      simp only [Engine.step] at hStep
      split at hStep
      · rename_i hSeen
        cases hStep
        have hBoth := hCounted.seenIdle hSeen
        rcases hNone hBoth.2 with ⟨hSpawned, hExecuting⟩
        exact ⟨hSpawned, hExecuting, Or.inl hBoth.1⟩
      · cases hStep
  | _ => cases hOk

theorem quiet_run
    {engine engine' : Engine}
    {sections : List Section}
    (hQuiet : engine.tasks.Quiet)
    (hLive :
      ∀ dataDir dir, .reopen dataDir dir ∉ sections)
    (hRun :
      engine.run cal codec snaps sections =
        some engine') :
    engine'.tasks.Quiet := by
  have hMeets :
      Machine.Meets (Engine.step cal codec snaps)
        (fun _ sec =>
          ∀ dataDir dir, sec ≠ .reopen dataDir dir)
        engine sections := by
    apply Machine.meets_of_forall
    intro sec hMem _ dataDir dir hSec
    rw [hSec] at hMem
    exact hLive dataDir dir hMem
  refine
    Machine.run_invariant (fun e => e.tasks.Quiet) ?_ hQuiet
      hMeets hRun
  intro e sec e' hInv hSec hTake
  exact hInv.step (taskStep_of_step hSec hTake)

/-
  In a run in which each shutdown that finds the engine
  stopped finds it idle, no callback executes when a
  shutdown returns `Ok`, nor at any time after.
-/
theorem shutdown_is_quiet
    (cal : Calendar)
    (codec : JsonCodec LogEntry)
    (snaps : JsonCodec Snapshot)
    (dataDir : String)
    (dir : DataDir)
    (inner : Inner)
    (hOpen : openEngine codec snaps dataDir dir = .ok inner)
    (before after : List Section)
    (sec : Section)
    (hIdle :
      Machine.Meets (Engine.step cal codec snaps) FindsIdle
        (Engine.ofInner inner) (before ++ sec :: after))
    (mid : Engine)
    (hBefore :
      (Engine.ofInner inner).run cal codec snaps before =
        some mid)
    (hOk : mid.ReturnsOk sec)
    (hLive : ∀ dataDir dir, .reopen dataDir dir ∉ after)
    (engine : Engine)
    (hRun :
      (Engine.ofInner inner).run cal codec snaps
          (before ++ sec :: after) =
        some engine) :
    engine.executing = [] := by
  have hAlways :
      Machine.Meets (Engine.step cal codec snaps)
        (fun _ _ => True) (Engine.ofInner inner) before :=
    Machine.meets_of_forall _ _ fun _ _ _ => trivial
  have hCounted : mid.tasks.Counted := by
    refine
      Machine.run_invariant (fun e => e.tasks.Counted) ?_
        (counted_ofInner hOpen inner.logged) hAlways hBefore
    intro e s e' hInv _ hTake
    exact counted_step hInv hTake
  have hFinds : FindsIdle mid sec :=
    hIdle.at_append hBefore
  unfold Engine.run at hRun hBefore
  rw [Machine.run_append, hBefore, Option.bind_some] at hRun
  rcases Machine.run_cons_eq_some hRun with
    ⟨next, hTake, hRest⟩
  have hQuiet :=
    quiet_of_returnsOk hCounted hFinds hOk hTake
  have hEnd := quiet_run hQuiet hLive hRest
  exact List.eq_nil_of_length_eq_zero hEnd.executing

/- A run executes. -/
def runExecutes : List Section :=
  [.schedule (callAt (everyMinute "a") 0),
    .start,
    .dispatch (second 60),
    .spawn 0,
    .runStart 0 (startAt "run_1" 60)]

/- A shutdown waits for it. -/
def waitsForRun : List Section :=
  runExecutes ++
    [.shutdownBegin,
      .runFinish 0 (finishAt (.ok ()) 61),
      .shutdownCheck]

theorem findsIdle_waitsForRun
    (codec : JsonCodec LogEntry)
    (snaps : JsonCodec Snapshot) :
    Machine.Meets (Engine.step utcCalendar codec snaps)
      FindsIdle emptyEngine
      (waitsForRun ++ [.shutdownEnd]) := by
  have hEval :
      (emptyEngine.run utcCalendar codec snaps
        runExecutes).map
          (fun e => e.inner.runtime.stopped) =
        some false := by
    cbv
  rcases Option.map_eq_some_iff.mp hEval with
    ⟨mid, hRun, hRuns⟩
  unfold waitsForRun
  rw [List.append_assoc, List.cons_append,
    List.cons_append, List.cons_append, List.nil_append]
  apply Machine.Meets.append
  · apply Machine.meets_of_forall
    intro sec hMem e
    simp only [runExecutes, List.mem_cons,
      List.not_mem_nil, or_false] at hMem
    rcases hMem with rfl | rfl | rfl | rfl | rfl <;> trivial
  · intro t hTake
    unfold Engine.run at hRun
    rw [hRun] at hTake
    cases hTake
    refine ⟨?_, ?_⟩
    · intro hStopped
      rw [hRuns] at hStopped
      cases hStopped
    · intro e _
      apply Machine.meets_of_forall
      intro sec hMem e
      simp only [List.mem_cons, List.not_mem_nil,
        or_false] at hMem
      rcases hMem with rfl | rfl | rfl <;> trivial

/- After it has returned nothing executes. -/
theorem shutdown_is_quiet_waitsForRun :
    ∃ engine,
      emptyEngine.run utcCalendar logCodec noSnapshots
          (waitsForRun ++ [.shutdownEnd]) =
          some engine ∧
        engine.executing = [] := by
  -- The run does not depend on the texts.
  generalize logCodec = codec
  generalize noSnapshots = snaps
  have hEval :
      (emptyEngine.run utcCalendar codec snaps
        (waitsForRun ++ [.shutdownEnd])).isSome = true := by
    cbv
  have hMid :
      (emptyEngine.run utcCalendar codec snaps
        waitsForRun).isSome = true := by
    cbv
  rcases Option.isSome_iff_exists.mp hEval with
    ⟨engine, hRun⟩
  rcases Option.isSome_iff_exists.mp hMid with
    ⟨mid, hBefore⟩
  refine ⟨engine, hRun, ?_⟩
  exact
    shutdown_is_quiet utcCalendar codec snaps "/data" ∅ _
      (openEngine_empty codec snaps "/data") waitsForRun []
      .shutdownEnd (findsIdle_waitsForRun codec snaps) mid
      hBefore trivial (by simp) engine hRun

/-
  Two timers execute when the outcome of the second run
  cannot be logged.
-/
def stoppedByAppend : List Section :=
  [.schedule (callAt (everyMinute "a") 0),
    .schedule (callAt (everyMinute "b") 0),
    .start,
    .dispatch (second 60),
    .spawn 0,
    .spawn 0,
    .runStart 0 (startAt "run_1" 60),
    .runStart 0 (startAt "run_2" 60),
    .runFinish 0
      { finishAt (.ok ()) 61 with
        first :=
          { ts := second 61
            failure :=
              some
                { written := 0
                  message := "no space left on device" } } }]

/- The next shutdown returns `Ok` while a run executes. -/
theorem shutdown_not_quiet_stoppedByAppend :
    ∃ mid engine,
      emptyEngine.run utcCalendar logCodec noSnapshots
          stoppedByAppend = some mid ∧
        mid.ReturnsOk .shutdownBegin ∧
        mid.step utcCalendar logCodec noSnapshots
            .shutdownBegin = some engine ∧
        engine.executing.map Execution.runId =
          ["run_1"] := by
  -- The run does not depend on the texts.
  generalize logCodec = codec
  generalize noSnapshots = snaps
  have hEval :
      (emptyEngine.run utcCalendar codec snaps
        stoppedByAppend).map
          (fun e =>
            (e.inner.runtime.stopped,
              e.executing.map Execution.runId)) =
        some (true, ["run_1"]) := by
    cbv
  rcases Option.map_eq_some_iff.mp hEval with
    ⟨mid, hRun, hEnd⟩
  rw [Prod.mk.injEq] at hEnd
  have hBegin : mid.shutdownBegin = mid := by
    unfold Engine.shutdownBegin
    rw [if_pos hEnd.1]
  refine ⟨mid, mid, hRun, Or.inl hEnd.1, ?_, hEnd.2⟩
  simp only [Engine.step, hBegin]

end Kron
