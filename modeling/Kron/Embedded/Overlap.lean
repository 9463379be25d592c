import Kron.Embedded.LogText
import Kron.Embedded.TimerSteps

/-
  Overlap policies: how many runs of a timer execute at the
  same time.

  Skip looks at the state of the timer before it starts a
  run, and the state is running while a run executes. Delay
  has no such check: it relies on there being one entry or
  one run of the timer at a time, and a registration in the
  middle of a run adds a second entry.

  Key definitions include:
    * `Kron.AddsEntry`
    * `Kron.AddsAlone`

  Key theorems include:
    * `Kron.delay_never_overlaps`
    * `Kron.skip_never_overlaps`
-/

------------------------------------------------------------
-- Delay
------------------------------------------------------------

namespace Kron

open TimerView

/- A call that puts a first attempt into the heap. -/
structure AddsEntry
    (cal : Calendar)
    (v : TimerView)
    (call : ScheduleCall) : Prop where
  runs : ¬ v.Halted
  next :
    v.spec = some (call.specFrom v.spec) → v.next = none
  stored :
    v.spec ≠ some (call.specFrom v.spec) →
      call.io.failure = none
  after :
    ∃ next,
      (call.specFrom v.spec).schedule.nextRunAfter cal
          call.now (call.specFrom v.spec).timezone =
        some (.ok (some next))

/-
  A call that adds an entry finds no entry of the timer on
  its way and no run of it, and none in the heap unless the
  call changes the spec.
-/
def AddsAlone
    (cal : Calendar) : TimerView → TimerLabel → Prop
| v, .schedule call =>
    AddsEntry cal v call →
      v.due = 0 ∧ v.spawned = 0 ∧ v.executing = 0 ∧
        (v.spec = some (call.specFrom v.spec) → v.heap = 0)
| _, _ => True

/- The entries and the runs of a timer. -/
def TimerView.size
    (v : TimerView) : Nat :=
  v.heap.card + v.due.card + v.spawned.card +
    v.executing.card

variable {cal : Calendar}
variable {T : TimerId}
variable {v v' : TimerView}

theorem RescheduledView.size_le
    {spec : TimerSpec}
    {from_ : DateTime}
    (hNext : RescheduledView cal T spec from_ v v') :
    v'.size ≤ v.size + 1 := by
  cases hNext with
  | stopped _ => exact Nat.le_succ _
  | pushed _ _ _ =>
      simp only [TimerView.size, push, Multiset.card_cons]
      omega
  | cleared _ _ _ _ => exact Nat.le_succ _

/- A delayed run takes the place of its entry. -/
theorem StartView.size_le
    {spec : TimerSpec}
    {entry : ScheduledTimer}
    {io : StartIo}
    (hOverlap : spec.overlap = .delay)
    (hStart : StartView cal T spec entry io v v') :
    v'.size ≤ v.size + 1 := by
  cases hStart with
  | notSkipped _ => exact Nat.le_succ _
  | skipped _ hSkip _ _ =>
      rw [hOverlap] at hSkip
      cases hSkip
  | notDue _ => exact Nat.le_succ _
  | notStarted _ => exact Nat.le_succ _
  | delayed _ =>
      simp only [TimerView.size, log, record,
        Multiset.card_cons]
      omega
  | started _ hOther _ _ => exact (hOther hOverlap).elim

/- The next entry takes the place of the run. -/
theorem FinishView.size_le
    {run : Execution}
    {io : FinishIo}
    (hOverlap : run.spec.overlap = .delay)
    (hFinish : FinishView cal T run io v v') :
    v'.size ≤ v.size + 1 := by
  cases hFinish with
  | notSucceeded _ => exact Nat.le_succ _
  | delayed _ _ hNext => exact hNext.size_le
  | succeeded hOther => exact (hOther hOverlap).elim
  | notFailed _ _ _ => exact Nat.le_succ _
  | notRetrying _ _ _ _ _ =>
      simp only [dropNext, if_pos hOverlap]
      exact Nat.le_succ _
  | retryStopped _ _ _ _ _ =>
      simp only [dropNext, if_pos hOverlap]
      exact Nat.le_succ _
  | retrying _ _ _ _ _ =>
      simp only [dropNext, if_pos hOverlap, TimerView.size,
        pushEntry, log, record, Multiset.card_cons]
      omega
  | notDead _ _ _ _ => exact Nat.le_succ _
  | deadDelayed _ _ _ _ _ _ hNext => exact hNext.size_le
  | dead _ _ _ _ => exact Nat.le_succ _

/- A call that adds its entry alone leaves one entry. -/
theorem size_of_schedule
    {call : ScheduleCall}
    {stored : TimerView}
    (hWell : v.WellFormed T)
    (hSize : v.size ≤ 1)
    (hAlone : AddsAlone cal v (.schedule call))
    (hRuns : ¬ v.Halted)
    (hStore :
      StoreView (call.specFrom v.spec) call.io v stored)
    (hNext :
      NextView cal T (call.specFrom v.spec) call.now
        stored.register v') :
    v'.size ≤ 1 := by
  have hStored : stored.register.size ≤ v.size := by
    cases hStore with
    | known _ => exact Nat.le_refl _
    | created _ _ => exact Nat.le_refl _
    | updated _ _ _ _ =>
        simp only [TimerView.size, register, update,
          Multiset.card_zero]
        omega
  cases hNext with
  | waiting _ => exact hStored.trans hSize
  | none _ _ _ _ => exact hStored.trans hSize
  | pushed next hNone hAfter =>
      have hAdds : AddsEntry cal v call := by
        refine ⟨hRuns, ?_, ?_, next, hAfter⟩
        · intro hKnown
          cases hStore with
          | known _ => exact hNone
          | created hSpec _ =>
              rw [hSpec] at hKnown
              cases hKnown
          | updated _ hSpec hNe _ =>
              rw [hSpec] at hKnown hNe
              exact (hNe (Option.some.inj hKnown)).elim
        · intro hChanged
          cases hStore with
          | known hSpec => exact (hChanged hSpec).elim
          | created _ hIo => exact hIo
          | updated _ _ _ hIo => exact hIo
      rcases hAlone hAdds with
        ⟨hDue, hSpawned, hExecuting, hHeap⟩
      have hEmpty : stored.heap = 0 := by
        cases hStore with
        | known hSpec => exact hHeap hSpec
        | created hSpec _ =>
            have hUnregistered : ¬ v.registered := by
              intro hRegistered
              rcases hWell.spec hRegistered with
                ⟨_, hSome, _⟩
              rw [hSpec] at hSome
              cases hSome
            apply Multiset.eq_zero_of_forall_notMem
            intro entry hMem
            apply hUnregistered
            apply hWell.entries entry
            rw [Multiset.mem_add, Multiset.mem_add]
            exact Or.inl (Or.inl hMem)
        | updated _ _ _ _ => rfl
      have hDue' : stored.due = 0 := by
        cases hStore <;> exact hDue
      have hSpawned' : stored.spawned = 0 := by
        cases hStore <;> exact hSpawned
      have hExecuting' : stored.executing = 0 := by
        cases hStore <;> exact hExecuting
      simp [TimerView.size, push, register, hEmpty, hDue',
        hSpawned', hExecuting']

/- One entry or one run of the timer at a time. -/
theorem size_step
    {label : TimerLabel}
    (hWell : v.WellFormed T)
    (hGiven : v.Given fun spec => spec.overlap = .delay)
    (hSize : v.size ≤ 1)
    (hAlone : AddsAlone cal v label)
    (hStep : TimerStep cal T label v v') :
    v'.size ≤ 1 := by
  cases hStep with
  | other _ _ _ _ _ _ _ => exact hSize
  | schedule call _ stored _ _ hRuns hStore hNext =>
      exact
        size_of_schedule hWell hSize hAlone hRuns hStore
          hNext
  | dispatch _ _ popped kept _ hDue hHeap _ _ =>
      simp only [TimerView.size, hDue, hHeap,
        Multiset.card_add, Multiset.card_zero] at hSize ⊢
      omega
  | spawn _ entry rest _ hDue =>
      simp only [TimerView.size, hDue,
        Multiset.card_cons] at hSize ⊢
      omega
  | dropDue _ _ =>
      simp only [TimerView.size,
        Multiset.card_zero] at hSize ⊢
      omega
  | start entry io spec rest _ _ _ hSpawned hSpec hStart =>
      have hRegistered : v.registered := by
        apply hWell.entries entry
        rw [hSpawned]
        simp
      have hLe :=
        hStart.size_le
          (hGiven.spec hRegistered spec hSpec)
      simp only [TimerView.size, hSpawned,
        Multiset.card_cons] at hSize hLe ⊢
      omega
  | finish run io rest _ _ _ hExecuting hFinish =>
      have hLe :=
        hFinish.size_le
          (hGiven.runs run (by rw [hExecuting]; simp))
      simp only [TimerView.size, hExecuting,
        Multiset.card_cons] at hSize hLe ⊢
      omega
  | reopen _ _ hFresh _ =>
      simp [TimerView.size, hFresh.heap, hFresh.due,
        hFresh.spawned, hFresh.executing]

end Kron

------------------------------------------------------------
-- Runs Under Delay
------------------------------------------------------------

namespace Kron

open TimerView

/- The runs of a timer between their two sections. -/
def Engine.runsOf
    (engine : Engine)
    (T : TimerId) : List Execution :=
  engine.executing.filter fun run => run.timerId = T

/-
  In a run in which each call that adds an entry adds it
  alone, a delayed timer executes at most one run at a time.
-/
theorem delay_never_overlaps
    (cal : Calendar)
    (codec : JsonCodec LogEntry)
    (snaps : JsonCodec Snapshot)
    (dataDir : String)
    (dir : DataDir)
    (inner : Inner)
    (hOpen : openEngine codec snaps dataDir dir = .ok inner)
    (T : TimerId)
    (sections : List Section)
    (hDelay :
      (Engine.ofInner inner).EachStep cal codec snaps T
        (AsksFor fun spec => spec.overlap = .delay)
        sections)
    (hAlone :
      (Engine.ofInner inner).EachStep cal codec snaps T
        (AddsAlone cal) sections)
    (engine : Engine)
    (hRun :
      (Engine.ofInner inner).run cal codec snaps sections =
        some engine) :
    (engine.runsOf T).length ≤ 1 := by
  have hInv :
      (engine.view T).Given
          (fun spec => spec.overlap = .delay) ∧
        (engine.view T).size ≤ 1 := by
    refine
      opened_invariant T
        (fun v =>
          v.Given (fun spec => spec.overlap = .delay) ∧
            v.size ≤ 1) ?_ ?_ hOpen (hDelay.and hAlone) hRun
    · intro v hFresh _
      refine ⟨hFresh.given, ?_⟩
      simp [TimerView.size, hFresh.heap, hFresh.due,
        hFresh.spawned, hFresh.executing]
    · rintro v label v' hWell ⟨hGiven, hSize⟩
        ⟨hAsks, hAdds⟩ hStep
      exact
        ⟨hGiven.step hWell hAsks hStep,
          size_step hWell hGiven hSize hAdds hStep⟩
  have hCard :
      (engine.view T).executing.card =
        (engine.runsOf T).length := rfl
  have hSize := hInv.2
  unfold TimerView.size at hSize
  omega

/- A timer runs once after it was registered. -/
def registeredOnce : List Section :=
  [.schedule (callAt (everyMinute "a") 0),
    .start,
    .dispatch (second 60),
    .spawn 0,
    .runStart 0 (startAt "run_1" 60)]

theorem addsAlone_registeredOnce
    (codec : JsonCodec LogEntry)
    (snaps : JsonCodec Snapshot) :
    emptyEngine.EachStep utcCalendar codec snaps "a"
      (AddsAlone utcCalendar) registeredOnce := by
  refine ⟨?_, ?_⟩
  · intro _
    exact ⟨rfl, rfl, rfl, fun _ => rfl⟩
  · intro engine _
    apply Machine.meets_of_forall
    intro sec hMem e
    cases hLabel : e.label "a" sec with
    | schedule call =>
        rw [(Engine.label_eq_schedule hLabel).1] at hMem
        simp at hMem
    | _ => trivial

/- Registered once, the timer executes its only run. -/
theorem delay_never_overlaps_registeredOnce :
    ∃ engine,
      emptyEngine.run utcCalendar logCodec noSnapshots
          registeredOnce = some engine ∧
        (engine.runsOf "a").map Execution.runId =
          ["run_1"] ∧
        (engine.runsOf "a").length ≤ 1 := by
  -- The run does not depend on the texts.
  generalize logCodec = codec
  generalize noSnapshots = snaps
  have hEval :
      (emptyEngine.run utcCalendar codec snaps
        registeredOnce).map
          (fun e => (e.runsOf "a").map Execution.runId) =
        some ["run_1"] := by
    cbv
  rcases Option.map_eq_some_iff.mp hEval with
    ⟨engine, hRun, hRuns⟩
  refine ⟨engine, hRun, hRuns, ?_⟩
  apply delay_never_overlaps utcCalendar codec snaps "/data"
    ∅ _ (openEngine_empty codec snaps "/data") "a"
    registeredOnce _ (addsAlone_registeredOnce codec snaps)
    engine hRun
  apply eachStep_asksFor
  intro call hMem _ old
  simp only [registeredOnce, List.mem_cons, List.not_mem_nil,
    or_false, Section.schedule.injEq, reduceCtorEq] at hMem
  rw [hMem]
  rfl

/-
  The timer is registered again, with the same spec, while
  its first run executes.
-/
def registeredTwice : List Section :=
  registeredOnce ++
    [.schedule (callAt (everyMinute "a") 61),
      .dispatch (second 121),
      .spawn 0,
      .runStart 0 (startAt "run_2" 121)]

/- Two runs of the delayed timer execute together. -/
theorem delay_overlaps_registeredTwice :
    emptyEngine.EachStep utcCalendar logCodec noSnapshots
        "a" (AsksFor fun spec => spec.overlap = .delay)
        registeredTwice ∧
      ∃ engine,
        emptyEngine.run utcCalendar logCodec noSnapshots
            registeredTwice = some engine ∧
          (engine.runsOf "a").map Execution.runId =
            ["run_2", "run_1"] := by
  -- The run does not depend on the texts.
  generalize logCodec = codec
  generalize noSnapshots = snaps
  have hEval :
      (emptyEngine.run utcCalendar codec snaps
        registeredTwice).map
          (fun e => (e.runsOf "a").map Execution.runId) =
        some ["run_2", "run_1"] := by
    cbv
  rcases Option.map_eq_some_iff.mp hEval with
    ⟨engine, hRun, hRuns⟩
  refine ⟨?_, engine, hRun, hRuns⟩
  apply eachStep_asksFor
  intro call hMem _ old
  simp only [registeredTwice, registeredOnce,
    List.cons_append, List.nil_append, List.mem_cons,
    List.not_mem_nil, or_false, false_or,
    Section.schedule.injEq, reduceCtorEq] at hMem
  rcases hMem with hEq | hEq
  · rw [hEq]
    rfl
  · rw [hEq]
    rfl

end Kron

------------------------------------------------------------
-- Skip
------------------------------------------------------------

namespace Kron

open TimerView

/- One run at a time, and the timer is running meanwhile. -/
structure TimerView.RunsAlone
    (v : TimerView) : Prop where
  card : v.executing.card ≤ 1
  running : v.executing ≠ 0 → v.state = some .running

variable {cal : Calendar}
variable {T : TimerId}
variable {v v' : TimerView}

theorem TimerView.RunsAlone.of_idle
    (hIdle : v.executing = 0) :
    v.RunsAlone where
  card := by simp [hIdle]
  running := fun h => (h hIdle).elim

/- A call does not move a timer out of running. -/
theorem runsAlone_of_schedule
    {spec : TimerSpec}
    {io : AppendIo}
    {now : DateTime}
    {stored : TimerView}
    (hWell : v.WellFormed T)
    (hAlone : v.RunsAlone)
    (hStore : StoreView spec io v stored)
    (hNext : NextView cal T spec now stored.register v') :
    v'.RunsAlone := by
  rcases schedule_frame hStore hNext with
    ⟨_, _, _, _, hExecuting, _⟩
  by_cases hIdle : v.executing = 0
  · exact .of_idle (hExecuting.trans hIdle)
  · have hRunning := hAlone.running hIdle
    have hState : stored.state = some .running := by
      cases hStore with
      | known _ => exact hRunning
      | created hSpec _ =>
          rcases Multiset.exists_mem_of_ne_zero hIdle with
            ⟨run, hMem⟩
          rcases hWell.spec (hWell.runs run hMem).1 with
            ⟨_, hSome, _⟩
          rw [hSpec] at hSome
          cases hSome
      | updated _ _ _ _ => exact hRunning
    have hState' : v'.state = some .running := by
      cases hNext <;>
        simp [push, register, hState]
    exact ⟨by rw [hExecuting]; exact hAlone.card,
      fun _ => hState'⟩

/- Skip starts a run only when none executes. -/
theorem runsAlone_step
    {label : TimerLabel}
    (hWell : v.WellFormed T)
    (hGiven : v.Given fun spec => spec.overlap = .skip)
    (hAlone : v.RunsAlone)
    (hStep : TimerStep cal T label v v') :
    v'.RunsAlone := by
  cases hStep with
  | other _ _ _ _ _ _ _ =>
      exact ⟨hAlone.card, hAlone.running⟩
  | schedule call _ stored _ _ _ hStore hNext =>
      exact runsAlone_of_schedule hWell hAlone hStore hNext
  | dispatch _ _ _ _ _ _ _ _ _ =>
      exact ⟨hAlone.card, hAlone.running⟩
  | spawn _ _ _ _ _ => exact ⟨hAlone.card, hAlone.running⟩
  | dropDue _ _ => exact ⟨hAlone.card, hAlone.running⟩
  | start entry io spec rest _ _ _ hSpawned hSpec hStart =>
      have hRegistered : v.registered := by
        apply hWell.entries entry
        rw [hSpawned]
        simp
      have hOverlap := hGiven.spec hRegistered spec hSpec
      cases hStart with
      | notSkipped _ => exact ⟨hAlone.card, hAlone.running⟩
      | skipped _ _ hRunning hNext =>
          rw [hNext.frame]
          exact ⟨hAlone.card, fun _ => hRunning⟩
      | notDue _ => exact ⟨hAlone.card, hAlone.running⟩
      | notStarted _ => exact ⟨hAlone.card, fun _ => rfl⟩
      | delayed hDelay =>
          rw [hOverlap] at hDelay
          cases hDelay
      | started _ _ hIdle hNext =>
          -- a run that executes would have set the state
          have hNone : v.executing = 0 := by
            by_contra hSome
            exact hIdle hOverlap (hAlone.running hSome)
          rw [hNext.frame]
          constructor
          · simp [log, record, hNone]
          · intro _
            rfl
  | finish run io rest _ _ _ hExecuting hFinish =>
      rcases hFinish.frame with ⟨_, _, _, _, hRest⟩
      have hCard := hAlone.card
      rw [hExecuting, Multiset.card_cons] at hCard
      have hNone : rest = 0 := by
        apply Multiset.card_eq_zero.mp
        omega
      exact .of_idle (hRest.trans hNone)
  | reopen _ _ hFresh _ => exact .of_idle hFresh.executing

/-
  A timer that skips executes at most one run at a time,
  whatever the interleaving and whichever appends fail.
-/
theorem skip_never_overlaps
    (cal : Calendar)
    (codec : JsonCodec LogEntry)
    (snaps : JsonCodec Snapshot)
    (dataDir : String)
    (dir : DataDir)
    (inner : Inner)
    (hOpen : openEngine codec snaps dataDir dir = .ok inner)
    (T : TimerId)
    (sections : List Section)
    (hSkip :
      (Engine.ofInner inner).EachStep cal codec snaps T
        (AsksFor fun spec => spec.overlap = .skip) sections)
    (engine : Engine)
    (hRun :
      (Engine.ofInner inner).run cal codec snaps sections =
        some engine) :
    (engine.runsOf T).length ≤ 1 := by
  have hInv :
      (engine.view T).Given
          (fun spec => spec.overlap = .skip) ∧
        (engine.view T).RunsAlone := by
    refine
      opened_invariant T
        (fun v =>
          v.Given (fun spec => spec.overlap = .skip) ∧
            v.RunsAlone) ?_ ?_ hOpen hSkip hRun
    · intro v hFresh _
      exact ⟨hFresh.given, .of_idle hFresh.executing⟩
    · rintro v label v' hWell ⟨hGiven, hAlone⟩ hAsks hStep
      exact
        ⟨hGiven.step hWell hAsks hStep,
          runsAlone_step hWell hGiven hAlone hStep⟩
  exact hInv.2.card

/- A timer that skips a run while one executes. -/
def skippedOnce : List Section :=
  [.schedule
      (callAt { everyMinute "a" with overlap := .skip } 0),
    .start,
    .dispatch (second 60),
    .spawn 0,
    .runStart 0 (startAt "run_1" 60),
    .dispatch (second 120),
    .spawn 0,
    .runStart 0 (startAt "run_2" 120)]

/- Both runs are due, and one executes. -/
theorem skip_never_overlaps_skippedOnce :
    ∃ engine,
      emptyEngine.run utcCalendar logCodec noSnapshots
          skippedOnce = some engine ∧
        (engine.runsOf "a").map Execution.runId =
          ["run_1"] ∧
        (engine.runsOf "a").length ≤ 1 := by
  -- The run does not depend on the texts.
  generalize logCodec = codec
  generalize noSnapshots = snaps
  have hEval :
      (emptyEngine.run utcCalendar codec snaps
        skippedOnce).map
          (fun e => (e.runsOf "a").map Execution.runId) =
        some ["run_1"] := by
    cbv
  rcases Option.map_eq_some_iff.mp hEval with
    ⟨engine, hRun, hRuns⟩
  refine ⟨engine, hRun, hRuns, ?_⟩
  apply skip_never_overlaps utcCalendar codec snaps "/data"
    ∅ _ (openEngine_empty codec snaps "/data") "a"
    skippedOnce _ engine hRun
  apply eachStep_asksFor
  intro call hMem _ old
  simp only [skippedOnce, List.mem_cons, List.not_mem_nil,
    or_false, Section.schedule.injEq, reduceCtorEq] at hMem
  rw [hMem]
  rfl

end Kron
