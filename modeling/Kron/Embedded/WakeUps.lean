import Kron.Embedded.RunCounter

/-
  Waiting for the last run.

  `Engine::shutdown` checks the counter under the lock, then
  creates a future of `idle_notify`, then parks on it. A run
  task calls `finish_run` under the lock and notifies after
  it, and the dispatch loop notifies when it exits and finds
  the counter zero. `notify_waiters` wakes the futures that
  exist, and leaves nothing for those created later. So the
  last notification is lost when it falls between the check
  and the creation of the future.

  Key definitions include:
    * `Kron.Waiter`
    * `Kron.WakeState`
    * `Kron.WakeState.step`
    * `Kron.WakeState.Missed`
    * `Kron.LastCallHeard`

  Key theorems include:
    * `Kron.WakeState.Heard.step`
    * `Kron.last_run_not_missed`
    * `Kron.missed_of_unheard`
-/

------------------------------------------------------------
-- Waiters
------------------------------------------------------------

namespace Kron

/-
  Where a call of `shutdown` is in its loop: before the
  check, after a check that found a run, with a future that
  was not polled, parked on it, or woken. The last one has
  found the engine idle.
-/
inductive Waiter where
| checking
| seen
| listening
| parked
| woken
| done
deriving DecidableEq, Repr

/- `notify_waiters` reaches the futures that exist. -/
def Waiter.wake : Waiter → Waiter
| .listening => .woken
| .parked => .woken
| waiter => waiter

/-
  The engine, its calls of `shutdown`, and how many run tasks
  have called `finish_run` and not yet `notify_waiters`.
-/
structure WakeState where
  engine : Engine
  waiters : List Waiter
  unnotified : Nat

/- A section, or a step outside of the lock. -/
inductive WakeLabel where
| engine (sec : Section)
| notify
| begin
| check (i : Nat)
| create (i : Nat)
| poll (i : Nat)
| timeout (i : Nat)
| finish (i : Nat)

/- The sections of `shutdown` have labels of their own. -/
def Section.isShutdown : Section → Bool
| .shutdownBegin => true
| .shutdownCheck => true
| .shutdownTimeout => true
| .shutdownEnd => true
| _ => false

/- The dispatch loop exits and notifies. -/
def Engine.NotifiesIdle
    (engine : Engine) : Section → Prop
| .dispatch _ =>
    engine.loop = .running [] ∧
      engine.inner.runtime.shuttingDown = true ∧
      engine.inner.runtime.activeRuns = 0
| _ => False

instance
    (engine : Engine)
    (sec : Section) :
    Decidable (engine.NotifiesIdle sec) := by
  cases sec <;>
  unfold Engine.NotifiesIdle <;>
  infer_instance

namespace WakeState

/- An engine that was opened and not yet used. -/
def ofInner
    (inner : Inner) : WakeState where
  engine := Engine.ofInner inner
  waiters := []
  unnotified := 0

/- One waiter moves on. -/
def setWaiter
    (s : WakeState)
    (i : Nat)
    (waiter : Waiter) : WakeState :=
  { s with waiters := s.waiters.set i waiter }

/- `notify_waiters`. -/
def notifyWaiters
    (s : WakeState) : WakeState :=
  { s with waiters := s.waiters.map Waiter.wake }

variable (cal : Calendar)
variable (codec : JsonCodec LogEntry)
variable (snaps : JsonCodec Snapshot)

/- A section; the tasks that end in it are to notify. -/
def sectionStep
    (s : WakeState)
    (sec : Section) : Option WakeState :=
  (s.engine.step cal codec snaps sec).map fun engine =>
    let s' : WakeState :=
      { s with
        engine := engine
        unnotified :=
          s.unnotified +
            (s.engine.unfinished - engine.unfinished) }
    if s.engine.NotifiesIdle sec then
      s'.notifyWaiters
    else
      s'

/- One step of one thread. -/
def step
    (s : WakeState) : WakeLabel → Option WakeState
| .engine (.reopen dataDir dir) =>
    (s.engine.step cal codec snaps
      (.reopen dataDir dir)).map fun engine =>
        { engine := engine, waiters := [], unnotified := 0 }
| .engine sec =>
    if sec.isShutdown then
      none
    else
      s.sectionStep cal codec snaps sec
| .notify =>
    if 0 < s.unnotified then
      some
        { s.notifyWaiters with
          unnotified := s.unnotified - 1 }
    else
      none
| .begin =>
    let engine := s.engine.shutdownBegin
    some
      { s with
        engine := engine
        waiters :=
          if s.engine.waiting < engine.waiting then
            s.waiters ++ [.checking]
          else
            s.waiters }
| .check i =>
    if s.waiters[i]? = some .checking then
      if s.engine.inner.runtime.activeRuns = 0 then
        (s.engine.step cal codec snaps .shutdownCheck).map
          fun engine =>
            { s with engine := engine }.setWaiter i .done
      else
        some (s.setWaiter i .seen)
    else
      none
| .create i =>
    if s.waiters[i]? = some .seen then
      some (s.setWaiter i .listening)
    else
      none
| .poll i =>
    match s.waiters[i]? with
    | some .listening => some (s.setWaiter i .parked)
    | some .woken => some (s.setWaiter i .checking)
    | _ => none
| .timeout i =>
    if s.waiters[i]? = some .parked then
      (s.engine.step cal codec snaps .shutdownTimeout).map
        fun engine =>
          { s with
            engine := engine
            waiters := s.waiters.eraseIdx i }
    else
      none
| .finish i =>
    if s.waiters[i]? = some .done then
      (s.engine.step cal codec snaps .shutdownEnd).map
        fun engine =>
          { s with
            engine := engine
            waiters := s.waiters.eraseIdx i }
    else
      none

end WakeState

end Kron

------------------------------------------------------------
-- Lost Notifications
------------------------------------------------------------

namespace Kron

/-
  Nothing will notify any more: no run is active, every task
  is past its notification, and the loop has exited.
-/
structure WakeState.Silent
    (s : WakeState) : Prop where
  active : s.engine.inner.runtime.activeRuns = 0
  notified : s.unnotified = 0
  exited : s.engine.loop = .exited

/- A waiter is parked and nothing will wake it. -/
def WakeState.Missed
    (s : WakeState) : Prop :=
  .parked ∈ s.waiters ∧ s.Silent

/-
  The last notification does not fall between the check of a
  waiter and the creation of its future. It comes from the
  last task, after the loop has exited, or from the loop,
  after the last task.
-/
def LastCallHeard
    (s : WakeState) : WakeLabel → Prop
| .notify =>
    s.engine.inner.runtime.activeRuns = 0 →
      s.unnotified = 1 →
      s.engine.loop = .exited →
        .seen ∉ s.waiters
| .engine sec =>
    s.engine.NotifiesIdle sec →
      s.unnotified = 0 →
        .seen ∉ s.waiters
| _ => True

/-
  The counter is exact, and where nothing will notify no
  waiter is on its way to the park.
-/
structure WakeState.Heard
    (s : WakeState) : Prop where
  counted : s.engine.tasks.Counted
  heard :
    s.Silent →
      ∀ waiter ∈ s.waiters,
        waiter ≠ .seen ∧ waiter ≠ .listening ∧
          waiter ≠ .parked

namespace WakeState

variable {cal : Calendar}
variable {codec : JsonCodec LogEntry}
variable {snaps : JsonCodec Snapshot}
variable {s s' : WakeState}

/- A notification leaves only waiters that have just seen. -/
theorem wake_quiet
    {waiter : Waiter}
    (hMem : waiter ∈ s.notifyWaiters.waiters) :
    waiter ≠ .listening ∧ waiter ≠ .parked ∧
      (waiter = .seen → .seen ∈ s.waiters) := by
  rcases List.mem_map.mp hMem with ⟨old, hOld, hEq⟩
  cases old with
  | seen =>
      rw [← hEq]
      exact ⟨nofun, nofun, fun _ => hOld⟩
  | _ =>
      rw [← hEq]
      exact ⟨nofun, nofun, nofun⟩

/- The loop exits only in a dispatch. -/
theorem loop_exited_of_step
    {engine engine' : Engine}
    {sec : Section}
    (hStep :
      engine.step cal codec snaps sec = some engine')
    (hExited : engine'.loop = .exited) :
    engine.loop = .exited ∨
      ∃ now,
        sec = .dispatch now ∧
          engine.loop = .running [] ∧
          engine.inner.runtime.shuttingDown = true := by
  cases sec with
  | schedule call =>
      rcases Option.map_eq_some_iff.mp hStep with
        ⟨_, _, rfl⟩
      exact Or.inl hExited
  | start =>
      cases hStep
      unfold Engine.start at hExited
      split at hExited
      · exact Or.inl hExited
      · cases hExited
  | dispatch now =>
      simp only [Engine.step, Engine.dispatch] at hStep
      split at hStep
      · rename_i hLoop
        split at hStep
        · rename_i hDown
          cases hStep
          exact Or.inr ⟨now, rfl, hLoop, hDown⟩
        · cases hStep
          cases hExited
      · cases hStep
  | spawn i =>
      simp only [Engine.step, Engine.spawn] at hStep
      split at hStep
      · split at hStep
        · cases hStep
        · split at hStep
          · cases hStep
            cases hExited
          · split at hStep
            · cases hStep
              cases hExited
            · cases hStep
      · cases hStep
  | runStart i io =>
      simp only [Engine.step] at hStep
      split at hStep
      · cases hStep
      · rcases Option.map_eq_some_iff.mp hStep with
          ⟨_, _, rfl⟩
        exact Or.inl hExited
  | runFinish i io =>
      simp only [Engine.step] at hStep
      split at hStep
      · cases hStep
      · rcases Option.map_eq_some_iff.mp hStep with
          ⟨_, _, rfl⟩
        exact Or.inl hExited
  | compact now later =>
      cases hStep
      exact Or.inl hExited
  | reopen dataDir dir =>
      simp only [Engine.step] at hStep
      split at hStep
      · cases hStep
      · cases hStep
        cases hExited
  | shutdownBegin =>
      cases hStep
      unfold Engine.shutdownBegin at hExited
      split at hExited
      · exact Or.inl hExited
      · split at hExited <;> exact Or.inl hExited
  | shutdownCheck =>
      simp only [Engine.step] at hStep
      split at hStep
      · cases hStep
        exact Or.inl hExited
      · cases hStep
  | shutdownTimeout =>
      simp only [Engine.step] at hStep
      split at hStep
      · cases hStep
        exact Or.inl hExited
      · cases hStep
  | shutdownEnd =>
      simp only [Engine.step] at hStep
      split at hStep
      · cases hStep
        exact Or.inl hExited
      · cases hStep

/- New waiters, and those that are done, are harmless. -/
theorem Heard.of_harmless
    (hHeard : s.Heard)
    (hCounted : s'.engine.tasks.Counted)
    (hSilent : s'.Silent → s.Silent)
    (hWaiters :
      ∀ waiter ∈ s'.waiters,
        waiter ∈ s.waiters ∨ waiter = .checking ∨
          waiter = .done) :
    s'.Heard := by
  refine ⟨hCounted, ?_⟩
  intro hQuiet waiter hMem
  rcases hWaiters waiter hMem with hOld | rfl | rfl
  · exact hHeard.heard (hSilent hQuiet) waiter hOld
  · exact ⟨nofun, nofun, nofun⟩
  · exact ⟨nofun, nofun, nofun⟩

/- A section under the lock. -/
theorem Heard.sectionStep
    {sec : Section}
    (hHeard : s.Heard)
    (hCall : LastCallHeard s (.engine sec))
    (hStep :
      s.sectionStep cal codec snaps sec = some s') :
    s'.Heard := by
  rcases Option.map_eq_some_iff.mp hStep with
    ⟨engine, hTake, hEq⟩
  have hCounted := counted_step hHeard.counted hTake
  have hBefore :
      s.engine.inner.runtime.activeRuns =
        s.engine.unfinished :=
    hHeard.counted.active
  have hAfter :
      engine.inner.runtime.activeRuns =
        engine.unfinished :=
    hCounted.active
  by_cases hNotifies : s.engine.NotifiesIdle sec
  · simp only [if_pos hNotifies] at hEq
    subst hEq
    refine ⟨hCounted, ?_⟩
    intro hQuiet waiter hMem
    rcases wake_quiet hMem with ⟨hListen, hPark, hSeen⟩
    refine ⟨?_, hListen, hPark⟩
    intro hEq
    have hNotified : s.unnotified = 0 := by
      have hSum :
          s.unnotified +
              (s.engine.unfinished - engine.unfinished) =
            0 :=
        hQuiet.notified
      omega
    exact hCall hNotifies hNotified (hSeen hEq)
  · simp only [if_neg hNotifies] at hEq
    subst hEq
    apply hHeard.of_harmless hCounted
    · intro hQuiet
      have hActive :
          engine.inner.runtime.activeRuns = 0 :=
        hQuiet.active
      have hSum :
          s.unnotified +
              (s.engine.unfinished - engine.unfinished) =
            0 :=
        hQuiet.notified
      have hZero :
          s.engine.inner.runtime.activeRuns = 0 := by
        omega
      refine ⟨hZero, by omega, ?_⟩
      rcases loop_exited_of_step hTake hQuiet.exited with
        hExited | ⟨now, rfl, hLoop, hDown⟩
      · exact hExited
      · exact (hNotifies ⟨hLoop, hDown, hZero⟩).elim
    · exact fun _ hMem => Or.inl hMem

/- A section of `shutdown` leaves the runs and the loop. -/
theorem shutdown_keeps
    {engine engine' : Engine}
    {sec : Section}
    (hShutdown : sec.isShutdown = true)
    (hStep :
      engine.step cal codec snaps sec = some engine') :
    engine'.inner.runtime.activeRuns =
        engine.inner.runtime.activeRuns ∧
      engine'.loop = engine.loop := by
  cases sec with
  | shutdownBegin =>
      cases hStep
      unfold Engine.shutdownBegin
      split
      · exact ⟨rfl, rfl⟩
      · split <;> exact ⟨rfl, rfl⟩
  | shutdownCheck =>
      simp only [Engine.step] at hStep
      split at hStep
      · cases hStep
        exact ⟨rfl, rfl⟩
      · cases hStep
  | shutdownTimeout =>
      simp only [Engine.step] at hStep
      split at hStep
      · cases hStep
        exact ⟨rfl, rfl⟩
      · cases hStep
  | shutdownEnd =>
      simp only [Engine.step] at hStep
      split at hStep
      · cases hStep
        exact ⟨rfl, rfl⟩
      · cases hStep
  | _ => cases hShutdown

/- A section of `shutdown` with harmless waiters. -/
theorem Heard.shutdown
    {engine : Engine}
    {sec : Section}
    {waiters : List Waiter}
    (hHeard : s.Heard)
    (hShutdown : sec.isShutdown = true)
    (hTake :
      s.engine.step cal codec snaps sec = some engine)
    (hWaiters :
      ∀ waiter ∈ waiters,
        waiter ∈ s.waiters ∨ waiter = .checking ∨
          waiter = .done) :
    WakeState.Heard
      { s with engine := engine, waiters := waiters } := by
  rcases shutdown_keeps hShutdown hTake with
    ⟨hRuns, hLoop⟩
  apply hHeard.of_harmless
    (counted_step hHeard.counted hTake)
  · intro hQuiet
    exact
      ⟨hRuns.symm.trans hQuiet.active, hQuiet.notified,
        hLoop.symm.trans hQuiet.exited⟩
  · exact hWaiters

/- A waiter that moves on does not silence the engine. -/
theorem silent_of_setWaiter
    {i : Nat}
    {waiter : Waiter}
    (hQuiet : (s.setWaiter i waiter).Silent) :
    s.Silent :=
  ⟨hQuiet.active, hQuiet.notified, hQuiet.exited⟩

/- A waiter on its way to the park finds no silence. -/
theorem Heard.setWaiter
    {i : Nat}
    {waiter next : Waiter}
    (hHeard : s.Heard)
    (hGet : s.waiters[i]? = some waiter)
    (hWay : waiter = .seen ∨ waiter = .listening) :
    (s.setWaiter i next).Heard := by
  refine ⟨hHeard.counted, ?_⟩
  intro hQuiet
  have hNot :=
    hHeard.heard (silent_of_setWaiter hQuiet) waiter
      (List.mem_of_getElem? hGet)
  rcases hWay with rfl | rfl
  · exact (hNot.1 rfl).elim
  · exact (hNot.2.1 rfl).elim

/- Every step whose notification is heard. -/
theorem Heard.step
    {label : WakeLabel}
    (hHeard : s.Heard)
    (hCall : LastCallHeard s label)
    (hStep : s.step cal codec snaps label = some s') :
    s'.Heard := by
  cases label with
  | engine sec =>
      cases sec with
      | reopen dataDir dir =>
          rcases Option.map_eq_some_iff.mp hStep with
            ⟨engine, hTake, rfl⟩
          exact
            ⟨counted_step hHeard.counted hTake, fun _ => nofun⟩
      | shutdownBegin => cases hStep
      | shutdownCheck => cases hStep
      | shutdownTimeout => cases hStep
      | shutdownEnd => cases hStep
      | _ =>
          exact
            @Heard.sectionStep cal codec snaps s s' _ hHeard
              hCall hStep
  | notify =>
      simp only [WakeState.step] at hStep
      split at hStep
      · cases hStep
        refine ⟨hHeard.counted, ?_⟩
        intro hQuiet waiter hMem
        rcases wake_quiet hMem with ⟨hListen, hPark, hSeen⟩
        refine ⟨?_, hListen, hPark⟩
        intro hEq
        have hLast : s.unnotified - 1 = 0 := hQuiet.notified
        exact
          hCall hQuiet.active (by omega) hQuiet.exited
            (hSeen hEq)
      · cases hStep
  | begin =>
      cases hStep
      have hTake :
          s.engine.step cal codec snaps .shutdownBegin =
            some s.engine.shutdownBegin := rfl
      apply hHeard.shutdown rfl hTake
      intro waiter hMem
      split at hMem
      · rcases List.mem_append.mp hMem with hOld | hNew
        · exact Or.inl hOld
        · exact Or.inr (Or.inl (List.mem_singleton.mp hNew))
      · exact Or.inl hMem
  | check i =>
      simp only [WakeState.step] at hStep
      split at hStep
      · split at hStep
        · rcases Option.map_eq_some_iff.mp hStep with
            ⟨engine, hTake, rfl⟩
          apply hHeard.shutdown rfl hTake
          intro waiter hMem
          exact (List.mem_or_eq_of_mem_set hMem).imp id Or.inr
        · rename_i hActive
          cases hStep
          refine ⟨hHeard.counted, ?_⟩
          intro hQuiet
          exact (hActive hQuiet.active).elim
      · cases hStep
  | create i =>
      simp only [WakeState.step] at hStep
      split at hStep
      · rename_i hGet
        cases hStep
        exact hHeard.setWaiter hGet (Or.inl rfl)
      · cases hStep
  | poll i =>
      simp only [WakeState.step] at hStep
      split at hStep
      · rename_i hGet
        cases hStep
        exact hHeard.setWaiter hGet (Or.inr rfl)
      · cases hStep
        have hCounted :
            (s.setWaiter i .checking).engine.tasks.Counted :=
          hHeard.counted
        apply hHeard.of_harmless hCounted
          silent_of_setWaiter
        intro waiter hMem
        exact (List.mem_or_eq_of_mem_set hMem).imp id Or.inl
      · cases hStep
  | timeout i =>
      simp only [WakeState.step] at hStep
      split at hStep
      · rcases Option.map_eq_some_iff.mp hStep with
          ⟨engine, hTake, rfl⟩
        apply hHeard.shutdown rfl hTake
        intro waiter hMem
        exact Or.inl (List.mem_of_mem_eraseIdx hMem)
      · cases hStep
  | finish i =>
      simp only [WakeState.step] at hStep
      split at hStep
      · rcases Option.map_eq_some_iff.mp hStep with
          ⟨engine, hTake, rfl⟩
        apply hHeard.shutdown rfl hTake
        intro waiter hMem
        exact Or.inl (List.mem_of_mem_eraseIdx hMem)
      · cases hStep

end WakeState

end Kron

------------------------------------------------------------
-- The Last Run
------------------------------------------------------------

namespace Kron

open WakeState

variable {cal : Calendar}
variable {codec : JsonCodec LogEntry}
variable {snaps : JsonCodec Snapshot}
variable {s s' : WakeState}

/-
  In a run in which no last notification falls between the
  check of a waiter and the creation of its future, no
  waiter is parked once nothing will notify any more.
-/
theorem last_run_not_missed
    (cal : Calendar)
    (codec : JsonCodec LogEntry)
    (snaps : JsonCodec Snapshot)
    (dataDir : String)
    (dir : DataDir)
    (inner : Inner)
    (hOpen : openEngine codec snaps dataDir dir = .ok inner)
    (labels : List WakeLabel)
    (hHeard :
      Machine.Meets (WakeState.step cal codec snaps)
        LastCallHeard (WakeState.ofInner inner) labels)
    (s : WakeState)
    (hRun :
      Machine.run (WakeState.step cal codec snaps)
          (WakeState.ofInner inner) labels =
        some s) :
    ¬ s.Missed := by
  have hFirst : (WakeState.ofInner inner).Heard :=
    ⟨counted_ofInner hOpen inner.logged, fun _ => nofun⟩
  have hLast : s.Heard :=
    Machine.run_invariant WakeState.Heard
      (fun _ _ _ hInv hCall hTake => hInv.step hCall hTake)
      hFirst hHeard hRun
  rintro ⟨hParked, hQuiet⟩
  exact (hLast.heard hQuiet .parked hParked).2.2 rfl

/-
  A run executes, and a shutdown sees it. It ends after the
  loop has exited.
-/
def shutdownSeesRun : List WakeLabel :=
  runExecutes.map .engine ++
    [.begin,
      .check 0,
      .engine (.dispatch (second 60)),
      .engine (.runFinish 0 (finishAt (.ok ()) 61))]

/- The shutdown parks first, and then is woken. -/
def shutdownIsWoken : List WakeLabel :=
  runExecutes.map .engine ++
    [.begin,
      .check 0,
      .create 0,
      .poll 0,
      .engine (.dispatch (second 60)),
      .engine (.runFinish 0 (finishAt (.ok ()) 61)),
      .notify]

/- A section or a notification that nobody can miss. -/
def noneSeen
    (s : WakeState) : WakeLabel → Bool
| .engine _ => !s.waiters.contains .seen
| .notify => !s.waiters.contains .seen
| _ => true

theorem lastCallHeard_of_noneSeen
    {label : WakeLabel}
    (hNone : noneSeen s label = true) :
    LastCallHeard s label := by
  cases label with
  | engine sec =>
      intro _ _
      simpa [noneSeen] using hNone
  | notify =>
      intro _ _ _
      simpa [noneSeen] using hNone
  | _ => trivial

/- A shutdown that has parked is woken by the last run. -/
theorem last_run_not_missed_shutdownIsWoken :
    ∃ s,
      Machine.run
          (WakeState.step utcCalendar logCodec noSnapshots)
          (WakeState.ofInner emptyEngine.inner)
          shutdownIsWoken = some s ∧
        s.Silent ∧
        s.waiters = [.woken] ∧
        ¬ s.Missed := by
  -- The run does not depend on the texts.
  generalize logCodec = codec
  generalize noSnapshots = snaps
  have hEval :
      (Machine.run
          (fun s label =>
            if noneSeen s label then
              WakeState.step utcCalendar codec snaps s label
            else
              none)
          (WakeState.ofInner emptyEngine.inner)
          shutdownIsWoken).isSome = true := by
    cbv
  rcases Option.isSome_iff_exists.mp hEval with ⟨t, hTake⟩
  have hHeard :
      Machine.Meets
        (WakeState.step utcCalendar codec snaps)
        LastCallHeard (WakeState.ofInner emptyEngine.inner)
        shutdownIsWoken := by
    refine
      (Machine.meets_of_checked hTake).of_invariant
        (fun _ => True) (fun _ _ _ _ _ _ => trivial) ?_
        trivial
    exact fun _ _ _ => lastCallHeard_of_noneSeen
  have hLast :
      (Machine.run (WakeState.step utcCalendar codec snaps)
          (WakeState.ofInner emptyEngine.inner)
          shutdownIsWoken).map
          (fun s =>
            (s.engine.inner.runtime.activeRuns,
              s.unnotified, s.engine.loop, s.waiters)) =
        some (0, 0, .exited, [.woken]) := by
    cbv
  rcases Option.map_eq_some_iff.mp hLast with
    ⟨s, hRun, hEq⟩
  simp only [Prod.mk.injEq] at hEq
  rcases hEq with ⟨hActive, hNotified, hExited, hWoken⟩
  refine
    ⟨s, hRun, ⟨hActive, hNotified, hExited⟩, hWoken, ?_⟩
  exact
    last_run_not_missed utcCalendar codec snaps "/data" ∅ _
      (openEngine_empty codec snaps "/data") _ hHeard s hRun

/- A waiter that has just seen a run parks in silence. -/
theorem parks_in_silence
    (hQuiet : s.Silent)
    (hSeen : .seen ∈ s.waiters) :
    ∃ i t,
      Machine.run (WakeState.step cal codec snaps) s
          [.create i, .poll i] = some t ∧
        t.Missed := by
  rcases List.mem_iff_getElem?.mp hSeen with ⟨i, hGet⟩
  have hLt : i < s.waiters.length :=
    (List.getElem?_eq_some_iff.mp hGet).1
  have hListens :
      (s.setWaiter i .listening).waiters[i]? =
        some .listening :=
    List.getElem?_set_self hLt
  have hParks :
      ((s.setWaiter i .listening).setWaiter i
          .parked).waiters[i]? = some .parked := by
    apply List.getElem?_set_self
    exact (List.length_set).symm ▸ hLt
  have hCreate :
      s.step cal codec snaps (.create i) =
        some (s.setWaiter i .listening) := by
    simp only [WakeState.step, hGet, if_true]
  have hPoll :
      (s.setWaiter i .listening).step cal codec snaps
          (.poll i) =
        some
          ((s.setWaiter i .listening).setWaiter i
            .parked) := by
    simp only [WakeState.step, hListens]
  refine ⟨i, _, ?_, List.mem_of_getElem? hParks, ?_⟩
  · simp only [Machine.run, hCreate, hPoll]
  · exact ⟨hQuiet.active, hQuiet.notified, hQuiet.exited⟩

/- A notification passes by those that have just seen. -/
theorem seen_of_notifyWaiters
    (hSeen : .seen ∈ s.waiters) :
    .seen ∈ s.notifyWaiters.waiters :=
  List.mem_map.mpr ⟨.seen, hSeen, rfl⟩

/-
  Where a last notification is not heard, the waiter goes on
  to park in silence.
-/
theorem missed_of_unheard
    {label : WakeLabel}
    (hUnheard : ¬ LastCallHeard s label)
    (hStep : s.step cal codec snaps label = some s') :
    ∃ i t,
      Machine.run (WakeState.step cal codec snaps) s'
          [.create i, .poll i] = some t ∧
        t.Missed := by
  cases label with
  | notify =>
      simp only [LastCallHeard, Classical.not_imp,
        not_not] at hUnheard
      rcases hUnheard with ⟨hActive, hOne, hExited, hSeen⟩
      simp only [WakeState.step, hOne] at hStep
      cases hStep
      apply parks_in_silence
      · exact ⟨hActive, rfl, hExited⟩
      · exact seen_of_notifyWaiters hSeen
  | engine sec =>
      simp only [LastCallHeard, Classical.not_imp,
        not_not] at hUnheard
      rcases hUnheard with ⟨hNotifies, hNotified, hSeen⟩
      cases sec with
      | dispatch now =>
          have hExits :
              s.engine.step cal codec snaps
                  (.dispatch now) =
                some { s.engine with loop := .exited } := by
            simp only [Engine.step, Engine.dispatch,
              hNotifies.1, hNotifies.2.1, if_true]
          have hSection :
              s.sectionStep cal codec snaps
                  (.dispatch now) = some s' :=
            hStep
          simp only [WakeState.sectionStep, hExits,
            Option.map_some, if_pos hNotifies] at hSection
          cases hSection
          apply parks_in_silence
          · refine ⟨hNotifies.2.2, ?_, rfl⟩
            -- The tasks are those of before.
            have hSame :
                s.unnotified +
                    (s.engine.unfinished -
                      s.engine.unfinished) = 0 := by
              omega
            exact hSame
          · exact
              List.mem_map.mpr ⟨.seen, hSeen, rfl⟩
      | _ => exact hNotifies.elim
  | _ => exact (hUnheard trivial).elim

/-
  The last run notifies between the check and the creation
  of the future, and the shutdown parks on an idle engine.
-/
theorem last_run_missed :
    ∃ s,
      Machine.run
          (WakeState.step utcCalendar logCodec noSnapshots)
          (WakeState.ofInner emptyEngine.inner)
          (shutdownSeesRun ++
            [.notify, .create 0, .poll 0]) =
        some s ∧
        s.Missed ∧
        s.engine.unfinished = 0 := by
  -- The run does not depend on the texts.
  generalize logCodec = codec
  generalize noSnapshots = snaps
  have hEval :
      (Machine.run (WakeState.step utcCalendar codec snaps)
          (WakeState.ofInner emptyEngine.inner)
          (shutdownSeesRun ++
            [.notify, .create 0, .poll 0])).map
          (fun s =>
            (s.engine.inner.runtime.activeRuns,
              s.unnotified, s.engine.loop, s.waiters,
              s.engine.unfinished)) =
        some (0, 0, .exited, [.parked], 0) := by
    cbv
  rcases Option.map_eq_some_iff.mp hEval with
    ⟨s, hRun, hEq⟩
  simp only [Prod.mk.injEq] at hEq
  rcases hEq with
    ⟨hActive, hNotified, hExited, hParked, hNone⟩
  refine
    ⟨s, hRun, ⟨?_, ⟨hActive, hNotified, hExited⟩⟩, hNone⟩
  rw [hParked]
  exact List.mem_singleton_self _

end Kron
