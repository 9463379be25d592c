import Kron.Embedded.LogText
import Kron.Embedded.TimerSteps

/-
  Waiting retries.

  A retry is logged and put into the heap in one section.
  It then moves from the heap to the dispatch loop, to a
  task, and is started. Two places discard it: the failure
  of another run of the timer clears the heap, unless the
  policy is delay, and a retry that is due while the timer
  runs is skipped, if the policy is skip.

  Key definitions include:
    * `Kron.KeptIn`
    * `Kron.KeepsSpec`
    * `Kron.SparesRetries`

  Key theorems include:
    * `Kron.retriesKept_step`
    * `Kron.no_retry_dropped`
    * `Kron.sparesRetries_of_delay`
-/

------------------------------------------------------------
-- Retries In The Log
------------------------------------------------------------

namespace Kron

/- The heap entry of a retry. -/
def retryEntryOf
    (T : TimerId)
    (runId : RunId)
    (attempt : UInt32)
    (nextRetryAt : DateTime) : ScheduledTimer where
  timerId := T
  nextRunAt := nextRetryAt
  runId := some runId
  attempt := attempt

/-
  Every retry in the log is among the entries, or a later
  event starts it.
-/
def KeptIn
    (T : TimerId)
    (logged : List Event)
    (entries : Multiset ScheduledTimer) : Prop :=
  ∀ before runId attempt nextRetryAt after,
    logged =
        before ++
          .runRetrying T runId attempt nextRetryAt ::
            after →
      retryEntryOf T runId attempt nextRetryAt ∈ entries ∨
        ∃ startedAt,
          .runStarted T runId startedAt attempt ∈ after

variable {T : TimerId}
variable {logged : List Event}
variable {entries entries' : Multiset ScheduledTimer}

/- A list that ends in `x` is split before its end or there. -/
theorem append_singleton_eq_append_cons
    {α : Type}
    {xs before after : List α}
    {x y : α}
    (hEq : xs ++ [x] = before ++ y :: after) :
    (∃ after', after = after' ++ [x] ∧
        xs = before ++ y :: after') ∨
      (x = y ∧ after = [] ∧ xs = before) := by
  cases hLast : after.getLast? with
  | none =>
      have hNil : after = [] :=
        List.getLast?_eq_none_iff.mp hLast
      rw [hNil] at hEq
      rcases List.append_inj' hEq rfl with ⟨hInit, hEnd⟩
      exact
        Or.inr ⟨(List.cons.inj hEnd).1, hNil, hInit⟩
  | some z =>
      rcases List.getLast?_eq_some_iff.mp hLast with
        ⟨after', hAfter⟩
      rw [hAfter, ← List.cons_append, ← List.append_assoc]
        at hEq
      rcases List.append_inj' hEq rfl with ⟨hInit, hEnd⟩
      rw [← (List.cons.inj hEnd).1] at hAfter
      exact Or.inl ⟨after', hAfter, hInit⟩

/- Retries are kept when their entries are. -/
theorem KeptIn.mono
    (hKept : KeptIn T logged entries)
    (hEntries :
      ∀ entry ∈ entries, entry.runId ≠ none →
        entry ∈ entries') :
    KeptIn T logged entries' := by
  intro before runId attempt nextRetryAt after hEq
  rcases hKept before runId attempt nextRetryAt after hEq
    with hMem | hStarted
  · exact Or.inl (hEntries _ hMem (by simp [retryEntryOf]))
  · exact Or.inr hStarted

/- An event that is not a retry is logged. -/
theorem KeptIn.log
    {event : Event}
    (hKept : KeptIn T logged entries)
    (hEvent :
      ∀ runId attempt nextRetryAt,
        event ≠ .runRetrying T runId attempt nextRetryAt) :
    KeptIn T (logged ++ [event]) entries := by
  intro before runId attempt nextRetryAt after hEq
  rcases append_singleton_eq_append_cons hEq with
    ⟨after', hAfter, hOld⟩ | ⟨hNew, _, _⟩
  · rcases hKept before runId attempt nextRetryAt after'
        hOld with
      hMem | ⟨startedAt, hStarted⟩
    · exact Or.inl hMem
    · right
      refine ⟨startedAt, ?_⟩
      rw [hAfter]
      exact List.mem_append_left _ hStarted
  · exact (hEvent _ _ _ hNew).elim

/- An entry is started. -/
theorem KeptIn.start
    {entry : ScheduledTimer}
    {runId : RunId}
    {startedAt : DateTime}
    (hKept : KeptIn T logged (entry ::ₘ entries))
    (hRunId : ∀ r, entry.runId = some r → r = runId) :
    KeptIn T
      (logged ++
        [.runStarted T runId startedAt entry.attempt])
      entries := by
  intro before r attempt nextRetryAt after hEq
  rcases append_singleton_eq_append_cons hEq with
    ⟨after', hAfter, hOld⟩ | ⟨hNew, _, _⟩
  · rcases hKept before r attempt nextRetryAt after' hOld
      with hMem | ⟨startedAt', hStarted⟩
    · rcases Multiset.mem_cons.mp hMem with hEntry | hRest
      · right
        refine ⟨startedAt, ?_⟩
        rw [hAfter]
        have hRun : r = runId := by
          apply hRunId
          rw [← hEntry]
          rfl
        have hAttempt : attempt = entry.attempt := by
          rw [← hEntry]
          rfl
        rw [hRun, hAttempt]
        simp
      · exact Or.inl hRest
    · right
      refine ⟨startedAt', ?_⟩
      rw [hAfter]
      exact List.mem_append_left _ hStarted
  · cases hNew

/- A retry is logged and put among the entries. -/
theorem KeptIn.retry
    {runId : RunId}
    {attempt : UInt32}
    {nextRetryAt : DateTime}
    (hKept : KeptIn T logged entries) :
    KeptIn T
      (logged ++
        [.runRetrying T runId attempt nextRetryAt])
      (retryEntryOf T runId attempt nextRetryAt ::ₘ
        entries) := by
  intro before r a at_ after hEq
  rcases append_singleton_eq_append_cons hEq with
    ⟨after', hAfter, hOld⟩ | ⟨hNew, _, _⟩
  · rcases hKept before r a at_ after' hOld with
      hMem | ⟨startedAt, hStarted⟩
    · exact Or.inl (Multiset.mem_cons_of_mem hMem)
    · right
      refine ⟨startedAt, ?_⟩
      rw [hAfter]
      exact List.mem_append_left _ hStarted
  · left
    cases hNew
    exact Multiset.mem_cons_self _ _

end Kron

------------------------------------------------------------
-- Steps That Keep Retries
------------------------------------------------------------

namespace Kron

open TimerView

/- The spec of the timer is not updated. -/
def KeepsSpec : TimerView → TimerLabel → Prop
| v, .schedule call =>
    ∀ spec, v.spec = some spec →
      call.specFrom v.spec = spec
| _, _ => True

/-
  A retry that is started under skip finds the timer not
  running, and a run that is not delayed and fails with a
  retry finds no other retry in the heap.
-/
def SparesRetries : TimerView → TimerLabel → Prop
| v, .start entry _ =>
    entry.runId ≠ none →
      ∀ spec, v.spec = some spec → spec.overlap = .skip →
        v.state ≠ some .running
| v, .finish run io =>
    run.spec.overlap ≠ .delay →
      (∃ error, io.result = .error error) →
      (∃ retryAt,
        run.spec.retry.nextRetryAt io.now v.readAttempt =
          some (some retryAt)) →
      ∀ entry ∈ v.heap, entry.runId = none
| _, _ => True

/- Retries are kept while the engine runs. -/
def TimerView.Kept
    (T : TimerId)
    (v : TimerView) : Prop :=
  ¬ v.Halted → KeptIn T v.logged v.entries

variable {cal : Calendar}
variable {T : TimerId}
variable {v v' : TimerView}

/- Rescheduling only adds an entry. -/
theorem RescheduledView.kept
    {spec : TimerSpec}
    {from_ : DateTime}
    (hKept : v.Kept T)
    (hNext : RescheduledView cal T spec from_ v v') :
    v'.Kept T := by
  cases hNext with
  | stopped _ => exact hKept
  | pushed next _ _ =>
      intro hRuns
      apply (hKept hRuns).mono
      intro entry hMem _
      simp only [entries, push, Multiset.cons_add]
      exact Multiset.mem_cons_of_mem hMem
  | cleared _ _ _ _ => exact hKept

/- Logging what is not a retry. -/
theorem TimerView.Kept.log
    {event : Event}
    (hKept : v.Kept T)
    (hEvent :
      ∀ runId attempt nextRetryAt,
        event ≠ .runRetrying T runId attempt nextRetryAt) :
    (v.log event).Kept T := by
  intro hRuns
  exact (hKept hRuns).log hEvent

theorem kept_of_halted
    (hHalted : v.Halted) :
    v.Kept T := by
  intro hRuns
  exact (hRuns hHalted).elim

theorem StartView.kept
    {spec : TimerSpec}
    {entry : ScheduledTimer}
    {io : StartIo}
    {rest : Multiset ScheduledTimer}
    (hId : entry.timerId = T)
    (hKept : v.Kept T)
    (hSpawned : v.spawned = entry ::ₘ rest)
    (hSpec : v.spec = some spec)
    (hSpares : SparesRetries v (.start entry io))
    (hStart :
      StartView cal T spec entry io
        { v with next := none, spawned := rest } v') :
    v'.Kept T := by
  have hEntries :
      v.entries = entry ::ₘ (v.heap + v.due + rest) := by
    unfold TimerView.entries
    rw [hSpawned, Multiset.add_cons]
  -- the two events of a start, and the entry that is gone
  have hRun :
      ¬ v.Halted →
        KeptIn T
          ((v.logged ++ [entry.dueEvent io]) ++
            [entry.startedEvent io])
          (v.heap + v.due + rest) := by
    intro hRuns
    have hDue :
        KeptIn T (v.logged ++ [entry.dueEvent io])
          (entry ::ₘ (v.heap + v.due + rest)) := by
      rw [← hEntries]
      apply (hKept hRuns).log
      intro _ _ _ hEq
      cases hEq
    have hStarted :
        entry.startedEvent io =
          .runStarted T (entry.runIdOr io.freshId) io.now
            entry.attempt := by
      rw [← hId]
      rfl
    rw [hStarted]
    apply hDue.start
    intro r hSome
    unfold ScheduledTimer.runIdOr
    rw [hSome]
    rfl
  cases hStart with
  | notSkipped _ => exact kept_of_halted (Or.inl rfl)
  | skipped _ hOverlap hRunning hNext =>
      refine RescheduledView.kept ?_ hNext
      apply TimerView.Kept.log
      · intro hRuns
        apply (hKept hRuns).mono
        intro other hMem hRetry
        rw [hEntries] at hMem
        rcases Multiset.mem_cons.mp hMem with hEq | hRest
        · rw [hEq] at hRetry
          exact
            (hSpares hRetry spec hSpec hOverlap
              hRunning).elim
        · exact hRest
      · intro _ _ _ hEq
        cases hEq
  | notDue _ => exact kept_of_halted (Or.inl rfl)
  | notStarted _ => exact kept_of_halted (Or.inl rfl)
  | delayed _ =>
      intro hRuns
      exact hRun hRuns
  | started w _ _ hNext =>
      have hWithout : w.Kept T := by
        refine RescheduledView.kept ?_ hNext
        intro hRuns
        exact hRun hRuns
      exact hWithout

/- Clearing the heap when no retry waits in it. -/
theorem TimerView.Kept.dropNext
    {spec : TimerSpec}
    (hKept : v.Kept T)
    (hSpares :
      spec.overlap ≠ .delay →
        ∀ entry ∈ v.heap, entry.runId = none) :
    (v.dropNext spec).Kept T := by
  unfold TimerView.dropNext
  split
  · exact hKept
  · rename_i hOverlap
    intro hRuns
    apply (hKept hRuns).mono
    intro entry hMem hRetry
    unfold TimerView.entries at hMem ⊢
    simp only [dropEntries, zero_add]
    rw [add_assoc, Multiset.mem_add] at hMem
    rcases hMem with hHeap | hRest
    · exact (hRetry (hSpares hOverlap entry hHeap)).elim
    · exact hRest

theorem FinishView.kept
    {run : Execution}
    {io : FinishIo}
    {rest : Multiset Execution}
    (hId : run.spec.id = T)
    (hKept : v.Kept T)
    (hSpares : SparesRetries v (.finish run io))
    (hFinish :
      FinishView cal T run io { v with executing := rest }
        v') :
    v'.Kept T := by
  have hBase :
      TimerView.Kept T { v with executing := rest } := hKept
  have hLog :
      ∀ (w : TimerView) (event : Event), w.Kept T →
        (∀ runId attempt nextRetryAt,
          event ≠
            .runRetrying T runId attempt nextRetryAt) →
          (w.log event).Kept T :=
    fun _ _ hw hEvent => hw.log hEvent
  cases hFinish with
  | notSucceeded _ => exact kept_of_halted (Or.inl rfl)
  | delayed _ _ hNext =>
      refine RescheduledView.kept ?_ hNext
      exact hLog _ _ hBase (fun _ _ _ h => by cases h)
  | succeeded _ =>
      exact hLog _ _ hBase (fun _ _ _ h => by cases h)
  | notFailed _ _ _ => exact kept_of_halted (Or.inl rfl)
  | notRetrying _ _ _ _ _ =>
      exact kept_of_halted (Or.inl rfl)
  | retryStopped _ _ _ _ hStopped =>
      apply kept_of_halted
      unfold dropNext
      split <;> exact hStopped
  | retrying error retryAt hResult hRetry hRuns =>
      let attempt :=
        TimerView.readAttempt { v with executing := rest }
      have hFailed :
          (TimerView.log { v with executing := rest }
            (run.failedEvent attempt error io)).Kept T :=
        hLog _ _ hBase (fun _ _ _ h => by cases h)
      have hDropped :
          ((TimerView.log { v with executing := rest }
            (run.failedEvent attempt error io)).dropNext
            run.spec).Kept T :=
        hFailed.dropNext fun hOverlap =>
          hSpares hOverlap ⟨error, hResult⟩
            ⟨retryAt, hRetry⟩
      have hEvent :
          run.retryingEvent attempt retryAt =
            .runRetrying T run.runId (attempt + 1)
              retryAt := by
        rw [← hId]
        rfl
      have hEntry :
          run.retryEntry attempt retryAt =
            retryEntryOf T run.runId (attempt + 1)
              retryAt := by
        rw [← hId]
        rfl
      intro hRuns'
      rw [hEvent, hEntry]
      simp only [entries, pushEntry, Multiset.cons_add]
      exact (hDropped hRuns').retry
  | notDead _ _ _ _ => exact kept_of_halted (Or.inl rfl)
  | deadDelayed _ error _ _ _ _ hNext =>
      refine RescheduledView.kept ?_ hNext
      apply hLog
      · exact hLog _ _ hBase (fun _ _ _ h => by cases h)
      · intro _ _ _ h
        cases h
  | dead error _ _ _ =>
      apply hLog
      · exact hLog _ _ hBase (fun _ _ _ h => by cases h)
      · intro _ _ _ h
        cases h

/- Entries change their place only. -/
theorem TimerView.Kept.of_entries
    (hKept : v.Kept T)
    (hHalted : v.Halted → v'.Halted)
    (hLogged : v'.logged = v.logged)
    (hEntries : v'.entries = v.entries) :
    v'.Kept T := by
  intro hRuns
  rw [hLogged, hEntries]
  exact hKept fun h => hRuns (hHalted h)

/-
  A step that does not open the engine keeps the retries,
  if it does not update the spec and spares them.
-/
theorem retriesKept_step
    {label : TimerLabel}
    (hLabel : label ≠ .reopen)
    (hKeeps : KeepsSpec v label)
    (hSpares : SparesRetries v label)
    (hKept : v.Kept T)
    (hStep : TimerStep cal T label v v') :
    v'.Kept T := by
  cases hStep with
  | other _ _ down stopped _ hDown hStopped =>
      refine hKept.of_entries ?_ rfl rfl
      rintro (h | h)
      · exact Or.inl (hDown h)
      · exact Or.inr (hStopped h)
  | schedule call _ stored _ _ _ hStore hNext =>
      have hStored : stored.register.Kept T := by
        cases hStore with
        | known _ => exact hKept
        | created _ _ => exact hKept
        | updated old hSpec hNe _ =>
            exact (hNe (hKeeps old hSpec).symm).elim
      cases hNext with
      | waiting _ => exact hStored
      | none _ _ _ _ => exact hStored
      | pushed next _ _ =>
          intro hRuns
          apply (hStored hRuns).mono
          intro entry hMem _
          simp only [entries, push, Multiset.cons_add]
          exact Multiset.mem_cons_of_mem hMem
  | dispatch now _ popped kept _ hDue hHeap _ _ =>
      refine hKept.of_entries id rfl ?_
      unfold TimerView.entries
      rw [hDue, hHeap, add_zero, add_comm kept popped]
  | spawn _ entry rest _ hDue =>
      refine hKept.of_entries id rfl ?_
      unfold TimerView.entries
      rw [hDue, Multiset.add_cons, Multiset.add_cons,
        Multiset.cons_add]
  | dropDue _ hDown => exact kept_of_halted (Or.inl hDown)
  | start entry io spec rest _ _ hId hSpawned hSpec
      hStart =>
      exact
        StartView.kept hId hKept hSpawned hSpec hSpares
          hStart
  | finish run io rest _ _ hId _ hFinish =>
      exact FinishView.kept hId hKept hSpares hFinish
  | reopen _ _ _ _ => exact (hLabel rfl).elim

end Kron

------------------------------------------------------------
-- No Retry Is Dropped
------------------------------------------------------------

namespace Kron

/-
  A retry that was logged waits in the heap, or was popped
  and waits for its task, or was started, as long as the
  engine neither shuts down nor stops.
-/
theorem no_retry_dropped
    (cal : Calendar)
    (codec : JsonCodec LogEntry)
    (snaps : JsonCodec Snapshot)
    (dataDir : String)
    (dir : DataDir)
    (inner : Inner)
    (hOpen : openEngine codec snaps dataDir dir = .ok inner)
    (T : TimerId)
    (sections : List Section)
    (hOnce :
      ∀ dataDir' dir',
        .reopen dataDir' dir' ∉ sections)
    (hKeeps :
      (Engine.ofInner inner).EachStep cal codec snaps T
        KeepsSpec sections)
    (hSpares :
      (Engine.ofInner inner).EachStep cal codec snaps T
        SparesRetries sections)
    (engine : Engine)
    (hRun :
      (Engine.ofInner inner).run cal codec snaps sections =
        some engine)
    (hDown : engine.inner.runtime.shuttingDown = false)
    (hStopped : engine.inner.runtime.stopped = false)
    (before after : List Event)
    (runId : RunId)
    (attempt : UInt32)
    (nextRetryAt : DateTime)
    (hLogged :
      engine.inner.logged =
        before ++
          .runRetrying T runId attempt nextRetryAt ::
            after) :
    retryEntryOf T runId attempt nextRetryAt ∈
        engine.inner.heap ∨
      retryEntryOf T runId attempt nextRetryAt ∈
        engine.loop.due ++ engine.spawned ∨
      ∃ startedAt,
        .runStarted T runId startedAt attempt ∈ after := by
  have hNever :
      (Engine.ofInner inner).EachStep cal codec snaps T
        (fun _ label => label ≠ .reopen) sections := by
    apply Machine.meets_of_forall
    intro sec hMem e
    apply label_ne_reopen
    intro dataDir' dir' hEq
    rw [hEq] at hMem
    exact hOnce dataDir' dir' hMem
  have hKept : (engine.view T).Kept T := by
    refine
      opened_invariant T (TimerView.Kept T) ?_ ?_ hOpen
        (hNever.and (hKeeps.and hSpares)) hRun
    · intro v _ hNothing _ before r a at_ after hEq
      rw [hNothing] at hEq
      simp at hEq
    · rintro v label v' _ hInv ⟨hLabel, hKeep, hSpare⟩
        hStep
      exact retriesKept_step hLabel hKeep hSpare hInv hStep
  have hRuns : ¬ (engine.view T).Halted := by
    rintro (h | h)
    · simp [Engine.view, viewOf, hDown] at h
    · simp [Engine.view, viewOf, hStopped] at h
  have hSplit :
      (engine.view T).logged =
        before.filter (fun e => e.IsRunOf T) ++
          .runRetrying T runId attempt nextRetryAt ::
            after.filter (fun e => e.IsRunOf T) := by
    simp [Engine.view, viewOf, hLogged, Event.IsRunOf,
      Event.run?]
  rcases hKept hRuns _ _ _ _ _ hSplit with
    hMem | ⟨startedAt, hStarted⟩
  · simp only [TimerView.entries, Engine.view, viewOf,
      Multiset.mem_add, mem_entriesOf] at hMem
    rcases hMem with (hHeap | hDue) | hSpawned
    · exact Or.inl hHeap.1
    · exact
        Or.inr (Or.inl (List.mem_append_left _ hDue.1))
    · exact
        Or.inr
          (Or.inl (List.mem_append_right _ hSpawned.1))
  · exact
      Or.inr
        (Or.inr ⟨startedAt, List.mem_of_mem_filter hStarted⟩)

/- A start is labelled with an entry that was spawned. -/
theorem mem_spawned_of_label
    {T : TimerId}
    {engine : Engine}
    {sec : Section}
    {entry : ScheduledTimer}
    {io : StartIo}
    (hLabel : engine.label T sec = .start entry io) :
    entry ∈ (engine.view T).spawned := by
  have hOf := engine.labelOf T sec
  rw [hLabel] at hOf
  cases hOf with
  | start hGet hId =>
      exact
        mem_entriesOf.mpr ⟨List.mem_of_getElem? hGet, hId⟩

/- A finish is labelled with a run that executes. -/
theorem mem_executing_of_label
    {T : TimerId}
    {engine : Engine}
    {sec : Section}
    {run : Execution}
    {io : FinishIo}
    (hLabel : engine.label T sec = .finish run io) :
    run ∈ (engine.view T).executing := by
  have hOf := engine.labelOf T sec
  rw [hLabel] at hOf
  cases hOf with
  | finish hGet hId =>
      exact mem_runsOf.mpr ⟨List.mem_of_getElem? hGet, hId⟩

/- A timer that delays spares its retries. -/
theorem sparesRetries_of_delay
    {cal : Calendar}
    {codec : JsonCodec LogEntry}
    {snaps : JsonCodec Snapshot}
    {T : TimerId}
    {engine : Engine}
    {sections : List Section}
    (hWell : engine.WellFormed)
    (hGiven :
      (engine.view T).Given fun spec =>
        spec.overlap = .delay)
    (hDelay :
      engine.EachStep cal codec snaps T
        (AsksFor fun spec => spec.overlap = .delay)
        sections) :
    engine.EachStep cal codec snaps T SparesRetries
      sections := by
  refine
    Machine.Meets.of_invariant
      (fun e =>
        e.WellFormed ∧
          (e.view T).Given fun spec =>
            spec.overlap = .delay)
      ?_ ?_ ⟨hWell, hGiven⟩ hDelay
  · rintro e sec e' ⟨hWell, hGiven⟩ hAsks hTake
    exact
      ⟨hWell.step hTake,
        hGiven.step (hWell.views T) hAsks
          (timerStep_of_step T hWell hTake)⟩
  · rintro e sec ⟨hWell, hGiven⟩ _
    cases hLabel : e.label T sec with
    | start entry io =>
        intro _ spec hSpec hSkip
        have hRegistered : (e.view T).registered := by
          apply (hWell.views T).entries entry
          apply Multiset.mem_add.mpr
          exact Or.inr (mem_spawned_of_label hLabel)
        rw [hGiven.spec hRegistered spec hSpec] at hSkip
        cases hSkip
    | finish run io =>
        intro hOverlap
        have hMem := mem_executing_of_label hLabel
        exact (hOverlap (hGiven.runs run hMem)).elim
    | _ => trivial

/- A timer without a spec has none to update. -/
theorem keepsSpec_of_new
    {v : TimerView}
    {label : TimerLabel}
    (hNew : v.spec = none) :
    KeepsSpec v label := by
  cases label with
  | schedule call =>
      intro spec hSpec
      rw [hNew] at hSpec
      cases hSpec
  | _ => trivial

/- A timer that is registered once keeps its spec. -/
theorem keepsSpec_of_once
    {cal : Calendar}
    {codec : JsonCodec LogEntry}
    {snaps : JsonCodec Snapshot}
    {T : TimerId}
    {engine : Engine}
    {call : ScheduleCall}
    {sections : List Section}
    (hNew : (engine.view T).spec = none)
    (hOnce : ∀ call', .schedule call' ∉ sections) :
    engine.EachStep cal codec snaps T KeepsSpec
      (.schedule call :: sections) := by
  refine ⟨?_, fun e _ => ?_⟩
  · exact keepsSpec_of_new hNew
  · apply Machine.meets_of_forall
    intro sec hMem e'
    cases hLabel : e'.label T sec with
    | schedule call' =>
        rcases Engine.label_eq_schedule hLabel with ⟨rfl, _⟩
        exact (hOnce call' hMem).elim
    | _ => trivial

/- A timer whose runs are tried again after five seconds. -/
def retriedTwice
    (overlap : OverlapPolicy) : TimerSpec :=
  { everyMinute "a" with
    retry :=
      { maxAttempts := 3
        backoff := .fixed 5 }
    overlap := overlap }

/- A run fails while its timer delays. -/
def retryWaits : List Section :=
  [.schedule (callAt (retriedTwice .delay) 0),
    .start,
    .dispatch (second 60),
    .spawn 0,
    .runStart 0 (startAt "run_1" 60),
    .runFinish 0 (finishAt (.error "boom") 61)]

/- Two runs of one timer fail one after the other. -/
def retryDropped : List Section :=
  [.schedule (callAt (retriedTwice .allow) 0),
    .start,
    .dispatch (second 60),
    .spawn 0,
    .runStart 0 (startAt "run_1" 60),
    .dispatch (second 120),
    .spawn 0,
    .runStart 0 (startAt "run_2" 120),
    .runFinish 1 (finishAt (.error "boom") 121),
    .runFinish 0 (finishAt (.error "boom") 122)]

/- The retry waits in the heap. -/
theorem no_retry_dropped_retryWaits :
    ∃ engine,
      emptyEngine.run utcCalendar logCodec noSnapshots
          retryWaits = some engine ∧
        .runRetrying "a" "run_1" 2 (second 66) ∈
          engine.inner.logged ∧
        retryEntryOf "a" "run_1" 2 (second 66) ∈
          engine.inner.heap := by
  -- The run does not depend on the texts.
  generalize logCodec = codec
  generalize noSnapshots = snaps
  have hEval :
      (emptyEngine.run utcCalendar codec snaps
        retryWaits).map
          (fun e =>
            (e.inner.logged.drop 4, e.loop.due ++ e.spawned,
              e.inner.runtime.shuttingDown,
              e.inner.runtime.stopped)) =
        some
          ([.runRetrying "a" "run_1" 2 (second 66)], [],
            false, false) := by
    cbv
  rcases Option.map_eq_some_iff.mp hEval with
    ⟨engine, hRun, hEnd⟩
  simp only [Prod.mk.injEq] at hEnd
  rcases hEnd with ⟨hLast, hTasks, hDown, hStopped⟩
  have hLogged :
      engine.inner.logged =
        engine.inner.logged.take 4 ++
          [.runRetrying "a" "run_1" 2 (second 66)] := by
    rw [← hLast]
    exact (List.take_append_drop 4 _).symm
  refine ⟨engine, hRun, by rw [hLogged]; simp, ?_⟩
  have hWell : emptyEngine.WellFormed :=
    wellFormed_of_openEngine
      (openEngine_empty codec snaps "/data") _
  have hFresh : (emptyEngine.view "a").Fresh :=
    fresh_of_openEngine
      (openEngine_empty codec snaps "/data") _
  have hDelay :
      emptyEngine.EachStep utcCalendar codec snaps "a"
        (AsksFor fun spec => spec.overlap = .delay)
        retryWaits := by
    apply eachStep_asksFor
    intro call hMem _ old
    simp only [retryWaits, List.mem_cons, List.not_mem_nil,
      or_false, Section.schedule.injEq, reduceCtorEq]
      at hMem
    rw [hMem]
    rfl
  rcases no_retry_dropped utcCalendar codec snaps "/data" ∅
      _ (openEngine_empty codec snaps "/data") "a"
      retryWaits (by simp [retryWaits])
      (keepsSpec_of_once rfl (by simp))
      (sparesRetries_of_delay hWell hFresh.given hDelay)
      engine hRun hDown hStopped _ _ _ _ _ hLogged with
    hHeap | hTask | ⟨_, hStarted⟩
  · exact hHeap
  · rw [hTasks] at hTask
    cases hTask
  · cases hStarted

/-
  The second failure clears the heap, and with it the retry
  of the first one.
-/
theorem retryDropped_drops_retry :
    ∃ engine,
      emptyEngine.run utcCalendar logCodec noSnapshots
          retryDropped = some engine ∧
        emptyEngine.EachStep utcCalendar logCodec
          noSnapshots "a" KeepsSpec retryDropped ∧
        engine.inner.runtime.shuttingDown = false ∧
        engine.inner.runtime.stopped = false ∧
        .runRetrying "a" "run_1" 2 (second 126) ∈
          engine.inner.logged ∧
        retryEntryOf "a" "run_1" 2 (second 126) ∉
          engine.inner.heap ∧
        engine.loop.due ++ engine.spawned = [] ∧
        ∀ startedAt,
          .runStarted "a" "run_1" startedAt 2 ∉
            engine.inner.logged := by
  -- The run does not depend on the texts.
  generalize logCodec = codec
  generalize noSnapshots = snaps
  have hEval :
      (emptyEngine.run utcCalendar codec snaps
        retryDropped).map
          (fun e =>
            (e.inner.logged, e.inner.heap,
              e.loop.due ++ e.spawned,
              e.inner.runtime.shuttingDown,
              e.inner.runtime.stopped)) =
        some
          ([.timerCreated (retriedTwice .allow),
              .runDue "a" "run_1" (second 60),
              .runStarted "a" "run_1" (second 60) 1,
              .runDue "a" "run_2" (second 120),
              .runStarted "a" "run_2" (second 120) 1,
              .runFailed "a" "run_1" (second 121) "boom" 1,
              .runRetrying "a" "run_1" 2 (second 126),
              .runFailed "a" "run_2" (second 122) "boom" 2,
              .runRetrying "a" "run_2" 3 (second 127)],
            [retryEntryOf "a" "run_2" 3 (second 127)], [],
            false, false) := by
    cbv
  rcases Option.map_eq_some_iff.mp hEval with
    ⟨engine, hRun, hEnd⟩
  simp only [Prod.mk.injEq] at hEnd
  rcases hEnd with
    ⟨hLogged, hHeap, hTasks, hDown, hStopped⟩
  refine
    ⟨engine, hRun, keepsSpec_of_once rfl (by simp), hDown,
      hStopped, ?_, ?_, hTasks, ?_⟩
  · rw [hLogged]
    simp
  · rw [hHeap]
    decide
  · rw [hLogged]
    intro startedAt
    simp

end Kron
