import Kron.Embedded.LogText
import Kron.Embedded.TimerSteps

/-
  Recurring timers do not stop.

  The next occurrence is pushed at the start of a run or at
  its end, depending on the policy the run was started
  with. In between there is always an entry of the timer, or
  a delayed run that will push one.

  Key definitions include:
    * `Kron.Recurs`
    * `Kron.TimerView.Alive`
    * `Kron.Engine.HasFuture`

  Key theorems include:
    * `Kron.alive_step`
    * `Kron.recurring_never_stops`
-/

------------------------------------------------------------
-- A Timer With A Future
------------------------------------------------------------

namespace Kron

open TimerView

/-
  A recurring schedule whose next run is always found. Date
  arithmetic may still panic.
-/
def Recurs
    (cal : Calendar)
    (spec : TimerSpec) : Prop :=
  spec.schedule.isOneShot = false ∧
    ∀ from_ result,
      spec.schedule.nextRunAfter cal from_ spec.timezone =
          some result →
        ∃ next, result = .ok (some next)

/- An entry waits, or a delayed run will push one. -/
def TimerView.HasFuture
    (v : TimerView) : Prop :=
  v.heap ≠ 0 ∨ v.due ≠ 0 ∨ v.spawned ≠ 0 ∨
    ∃ run ∈ v.executing, run.spec.overlap = .delay

/- A registered timer has a future while the engine runs. -/
def TimerView.Alive
    (v : TimerView) : Prop :=
  ¬ v.Halted → v.registered → v.HasFuture

variable {cal : Calendar}
variable {T : TimerId}
variable {v v' : TimerView}

/- Rescheduling a recurring timer pushes its next run. -/
theorem RescheduledView.hasFuture
    {spec : TimerSpec}
    {from_ : DateTime}
    (hRecurs : Recurs cal spec)
    (hNext : RescheduledView cal T spec from_ v v')
    (hRuns : ¬ v'.Halted) :
    v'.HasFuture := by
  cases hNext with
  | stopped hStopped => exact (hRuns hStopped).elim
  | pushed next _ _ =>
      exact Or.inl (Multiset.cons_ne_zero)
  | cleared result _ hAfter hNone =>
      rcases hRecurs.2 _ _ hAfter with ⟨next, hSome⟩
      exact (hNone next hSome).elim

theorem StartView.alive
    {spec : TimerSpec}
    {entry : ScheduledTimer}
    {io : StartIo}
    (hRecurs : Recurs cal spec)
    (hStart : StartView cal T spec entry io v v') :
    v'.Alive := by
  intro hRuns _
  cases hStart with
  | notSkipped _ => exact (hRuns (Or.inl rfl)).elim
  | skipped _ _ _ hNext => exact hNext.hasFuture hRecurs hRuns
  | notDue _ => exact (hRuns (Or.inl rfl)).elim
  | notStarted _ => exact (hRuns (Or.inl rfl)).elim
  | delayed hOverlap =>
      exact
        Or.inr (Or.inr (Or.inr
          ⟨entry.execution spec false io,
            Multiset.mem_cons_self _ _, hOverlap⟩))
  | started w _ _ hNext =>
      rcases hNext.hasFuture hRecurs hRuns with
        hHeap | hDue | hSpawned | ⟨run, hMem, hDelay⟩
      · exact Or.inl hHeap
      · exact Or.inr (Or.inl hDue)
      · exact Or.inr (Or.inr (Or.inl hSpawned))
      · exact
          Or.inr (Or.inr (Or.inr
            ⟨run, Multiset.mem_cons_of_mem hMem, hDelay⟩))

/- A run that is not delayed leaves the future to others. -/
theorem hasFuture_of_finished
    {run : Execution}
    {rest : Multiset Execution}
    (hFuture : v.HasFuture)
    (hExecuting : v.executing = run ::ₘ rest)
    (hOverlap : run.spec.overlap ≠ .delay) :
    TimerView.HasFuture { v with executing := rest } := by
  rcases hFuture with
    hHeap | hDue | hSpawned | ⟨other, hMem, hDelay⟩
  · exact Or.inl hHeap
  · exact Or.inr (Or.inl hDue)
  · exact Or.inr (Or.inr (Or.inl hSpawned))
  · rw [hExecuting, Multiset.mem_cons] at hMem
    rcases hMem with hEq | hRest
    · rw [hEq] at hDelay
      exact (hOverlap hDelay).elim
    · exact Or.inr (Or.inr (Or.inr ⟨other, hRest, hDelay⟩))

theorem FinishView.alive
    {run : Execution}
    {io : FinishIo}
    {rest : Multiset Execution}
    (hRecurs : Recurs cal run.spec)
    (hAlive : v.Alive)
    (hExecuting : v.executing = run ::ₘ rest)
    (hFinish :
      FinishView cal T run io { v with executing := rest }
        v') :
    v'.Alive := by
  intro hRuns hRegistered
  cases hFinish with
  | notSucceeded _ => exact (hRuns (Or.inl rfl)).elim
  | delayed _ _ hNext => exact hNext.hasFuture hRecurs hRuns
  | succeeded hOverlap =>
      have hFuture :=
        hasFuture_of_finished (hAlive hRuns hRegistered)
          hExecuting hOverlap
      exact hFuture
  | notFailed _ _ _ => exact (hRuns (Or.inl rfl)).elim
  | notRetrying _ _ _ _ _ => exact (hRuns (Or.inl rfl)).elim
  | retryStopped error retryAt _ _ hStopped =>
      apply (hRuns _).elim
      unfold dropNext
      split <;> exact hStopped
  | retrying _ _ _ _ _ =>
      exact Or.inl (Multiset.cons_ne_zero)
  | notDead _ _ _ _ => exact (hRuns (Or.inl rfl)).elim
  | deadDelayed _ _ _ _ _ _ hNext =>
      exact hNext.hasFuture hRecurs hRuns
  | dead _ _ _ hOther =>
      have hOverlap : run.spec.overlap ≠ .delay := by
        intro hDelay
        exact hOther ⟨hDelay, hRecurs.1⟩
      have hFuture :=
        hasFuture_of_finished (hAlive hRuns hRegistered)
          hExecuting hOverlap
      exact hFuture

/- Registration pushes a next run if there is none. -/
theorem alive_of_schedule
    {spec : TimerSpec}
    {io : AppendIo}
    {now : DateTime}
    {stored : TimerView}
    (hRecurs : Recurs cal spec)
    (hWell : v.WellFormed T)
    (hAlive : v.Alive)
    (hRuns : ¬ v.Halted)
    (hStore : StoreView spec io v stored)
    (hNext : NextView cal T spec now stored.register v') :
    v'.HasFuture := by
  cases hNext with
  | waiting hWaits =>
      cases hStore with
      | known _ => exact hAlive hRuns (hWell.next hWaits)
      | created hSpec _ =>
          rcases hWell.spec (hWell.next hWaits) with
            ⟨_, hSome, _⟩
          rw [hSpec] at hSome
          cases hSome
      | updated _ _ _ _ => exact (hWaits rfl).elim
  | pushed next _ _ => exact Or.inl (Multiset.cons_ne_zero)
  | none result _ hAfter hNone =>
      rcases hRecurs.2 _ _ hAfter with ⟨next, hSome⟩
      exact (hNone next hSome).elim

/- Every step leaves a recurring timer a future. -/
theorem alive_step
    {label : TimerLabel}
    (hWell : v.WellFormed T)
    (hGiven : v.Given (Recurs cal))
    (hAsks : AsksFor (Recurs cal) v label)
    (hAlive : v.Alive)
    (hStep : TimerStep cal T label v v') :
    v'.Alive := by
  cases hStep with
  | other _ _ down stopped _ hDown hStopped =>
      intro hRuns
      apply hAlive
      intro hHalted
      exact hRuns (hHalted.imp hDown hStopped)
  | schedule call _ stored _ _ hRuns hStore hNext =>
      intro _ _
      exact
        alive_of_schedule hAsks hWell hAlive hRuns hStore
          hNext
  | dispatch _ _ popped kept _ hDue hHeap _ _ =>
      intro hRuns hRegistered
      rcases hAlive hRuns hRegistered with
        hSome | hSome | hSpawned | hDelayed
      · rw [hHeap] at hSome
        by_cases hPopped : popped = 0
        · rw [hPopped, zero_add] at hSome
          exact Or.inl hSome
        · exact Or.inr (Or.inl hPopped)
      · exact (hSome hDue).elim
      · exact Or.inr (Or.inr (Or.inl hSpawned))
      · exact Or.inr (Or.inr (Or.inr hDelayed))
  | spawn _ entry rest _ _ =>
      intro _ _
      exact Or.inr (Or.inr (Or.inl Multiset.cons_ne_zero))
  | dropDue _ hDown =>
      intro hRuns
      exact (hRuns (Or.inl hDown)).elim
  | start entry io spec rest _ _ _ hSpawned hSpec hStart =>
      have hRegistered : v.registered := by
        apply hWell.entries entry
        rw [hSpawned]
        simp
      exact
        hStart.alive (hGiven.spec hRegistered spec hSpec)
  | finish run io rest _ _ _ hExecuting hFinish =>
      exact
        hFinish.alive
          (hGiven.runs run (by rw [hExecuting]; simp))
          hAlive hExecuting
  | reopen _ _ hFresh _ =>
      intro _ hRegistered
      exact (hFresh.registered hRegistered).elim

end Kron

------------------------------------------------------------
-- Recurring Timers Never Stop
------------------------------------------------------------

namespace Kron

variable {cal : Calendar}
variable {codec : JsonCodec LogEntry}
variable {snaps : JsonCodec Snapshot}

/-
  The heap holds an entry of the timer, or one was popped
  and the task of its run has not finished.
-/
def Engine.HasFuture
    (engine : Engine)
    (T : TimerId) : Prop :=
  (∃ entry ∈ engine.inner.heap, entry.timerId = T) ∨
    (∃ entry ∈ engine.loop.due ++ engine.spawned,
      entry.timerId = T) ∨
    ∃ run ∈ engine.executing, run.timerId = T

theorem exists_of_entriesOf_ne_zero
    {T : TimerId}
    {entries : List ScheduledTimer}
    (hNe : entriesOf T entries ≠ 0) :
    ∃ entry ∈ entries, entry.timerId = T := by
  rcases Multiset.exists_mem_of_ne_zero hNe with
    ⟨entry, hMem⟩
  exact ⟨entry, mem_entriesOf.mp hMem⟩

theorem Engine.hasFuture_of_view
    {engine : Engine}
    {T : TimerId}
    (hFuture : (engine.view T).HasFuture) :
    engine.HasFuture T := by
  rcases hFuture with
    hHeap | hDue | hSpawned | ⟨run, hMem, _⟩
  · exact Or.inl (exists_of_entriesOf_ne_zero hHeap)
  · rcases exists_of_entriesOf_ne_zero hDue with
      ⟨entry, hMem, hId⟩
    exact
      Or.inr (Or.inl
        ⟨entry, List.mem_append_left _ hMem, hId⟩)
  · rcases exists_of_entriesOf_ne_zero hSpawned with
      ⟨entry, hMem, hId⟩
    exact
      Or.inr (Or.inl
        ⟨entry, List.mem_append_right _ hMem, hId⟩)
  · exact Or.inr (Or.inr ⟨run, mem_runsOf.mp hMem⟩)

/- A call that returns `Ok` registers its timer. -/
theorem mem_registry_of_schedule
    {inner inner' : Inner}
    {call : ScheduleCall}
    (hCall :
      scheduleWithOverlap cal codec inner call =
        some (inner', .ok ())) :
    call.id ∈ inner'.registry := by
  cases scheduleOutcome_of_eq_some hCall with
  | scheduled stored _ _ _ hNext =>
      have hRegistered :
          call.id ∈
            (stored.register call.id
              call.fnName).registry := by
        simp [Inner.register]
      cases hNext with
      | waiting _ => exact hRegistered
      | pushed _ _ _ _ _ => exact hRegistered
      | none _ _ _ _ _ _ => exact hRegistered

/- The timer stays registered while the process lives. -/
theorem mem_registry_of_run
    {engine engine' : Engine}
    {sections : List Section}
    {T : TimerId}
    (hWell : engine.WellFormed)
    (hRegistered : T ∈ engine.inner.registry)
    (hLive :
      ∀ dataDir dir, .reopen dataDir dir ∉ sections)
    (hRun :
      engine.run cal codec snaps sections =
        some engine') :
    T ∈ engine'.inner.registry := by
  have hMeets :
      engine.EachStep cal codec snaps T
        (fun _ label => label ≠ .reopen) sections := by
    apply Machine.meets_of_forall
    intro sec hMem e
    apply label_ne_reopen
    intro dataDir dir hEq
    rw [hEq] at hMem
    exact hLive dataDir dir hMem
  exact
    view_invariant T TimerView.registered
      (fun _ _ _ _ hInv hLabel hStep =>
        hStep.registered hLabel hInv)
      hWell hRegistered hMeets hRun

/- A fixed interval recurs in every known timezone. -/
theorem recurs_every
    {cal : Calendar}
    {spec : TimerSpec}
    {seconds : UInt64}
    (hSchedule : spec.schedule = .every seconds)
    (hZone : cal.knowsTimezone spec.timezone = true) :
    Recurs cal spec := by
  unfold Recurs
  rw [hSchedule]
  refine ⟨rfl, ?_⟩
  intro from_ result hAfter
  simp only [Schedule.nextRunAfter, if_pos hZone] at hAfter
  rcases Option.map_eq_some_iff.mp hAfter with
    ⟨next, _, hEq⟩
  exact ⟨next, hEq.symm⟩

/- The only run of the timer fails and is not retried. -/
def deadOnce : List Section :=
  [.start,
    .dispatch (second 60),
    .spawn 0,
    .runStart 0 (startAt "run_1" 60),
    .runFinish 0 (finishAt (.error "boom") 61)]

end Kron
