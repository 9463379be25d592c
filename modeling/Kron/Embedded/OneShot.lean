import Kron.Embedded.LogText
import Kron.Embedded.TimerSteps

/-
  One-shot timers fire once.

  That a timer has fired is recorded nowhere: every place
  that computes a next run compares the fixed time with the
  clock or with the time of an entry. Before that time
  nothing is popped; from that time on no first attempt is
  pushed any more, so the one that was pushed, in whichever
  process, is the only one that can start a run.

  Key definitions include:
    * `Kron.FiresAt`
    * `Kron.Section.now?`
    * `Kron.TimerView.Waiting`
    * `Kron.TimerView.Fired`

  Key theorems include:
    * `Kron.waiting_step`
    * `Kron.fired_step`
    * `Kron.one_shot_fires_once`
-/

------------------------------------------------------------
-- Schedules And Delays
------------------------------------------------------------

namespace Kron

/-
  A spec that fires at one fixed time, with retry delays
  that fit the cast to `i64`.
-/
structure FiresAt
    (t : DateTime)
    (spec : TimerSpec) : Prop where
  schedule : spec.schedule = .at_ t
  delays :
    ∀ attempt,
      (spec.retry.backoff.delaySeconds attempt).toNat <
        2 ^ 63

/- A retry waits for a time that is not negative. -/
theorem le_nextRetryAt
    {spec : TimerSpec}
    {t now retryAt : DateTime}
    {attempt : UInt32}
    (hFires : FiresAt t spec)
    (hRetry :
      spec.retry.nextRetryAt now attempt =
        some (some retryAt)) :
    now ≤ retryAt := by
  unfold RetryPolicy.nextRetryAt at hRetry
  split at hRetry
  · cases hRetry
  · rcases Option.map_eq_some_iff.mp hRetry with
      ⟨sum, hAdd, hEq⟩
    cases hEq
    unfold addSeconds at hAdd
    rcases Option.bind_eq_some_iff.mp hAdd with
      ⟨d, hDuration, hSum⟩
    have hSeconds := asI64_nonneg (hFires.delays attempt)
    unfold durationSeconds at hDuration
    split at hDuration
    · cases hDuration
      unfold addDuration at hSum
      split at hSum
      · cases hSum
        have hNonneg :
            0 ≤ asI64
                (spec.retry.backoff.delaySeconds attempt) *
              nanosPerSecond := by
          apply Int.mul_nonneg hSeconds
          decide
        exact Int.le_add_of_nonneg_right hNonneg
      · cases hSum
    · cases hDuration

end Kron

------------------------------------------------------------
-- Runs That Were Started
------------------------------------------------------------

namespace Kron

open TimerView

/- The run that an event starts. -/
def Event.startedRun? : Event → Option RunId
| .runStarted _ runId _ _ => some runId
| _ => none

namespace TimerView

/- The entries that are first attempts. -/
def firsts
    (v : TimerView) : Multiset ScheduledTimer :=
  v.entries.filter fun entry => entry.runId = none

/- The runs that were started. -/
def started
    (v : TimerView) : List RunId :=
  v.logged.filterMap Event.startedRun?

/- Before its time the timer waits, with one entry at most. -/
structure Waiting
    (T : TimerId)
    (t : DateTime)
    (v : TimerView) : Prop where
  due : v.due = 0
  spawned : v.spawned = 0
  executing : v.executing = 0
  started : v.started = []
  heap : ∀ entry ∈ v.heap, entry = firstEntry T t
  card : v.heap.card ≤ 1
  next : v.heap ≠ 0 → v.next ≠ none

/-
  From its time on there is one first attempt, or all runs
  and all retries are of one run.
-/
structure Fired
    (t : DateTime)
    (v : TimerView) : Prop where
  entries :
    ∀ entry ∈ v.entries,
      t ≤ entry.nextRunAt ∧
        ∀ runId, entry.runId = some runId →
          runId ∈ v.started
  runs : ∀ run ∈ v.executing, run.runId ∈ v.started
  card : v.firsts.card ≤ 1
  unstarted : v.firsts ≠ 0 → v.started = []
  same :
    ∀ runId ∈ v.started, ∀ runId' ∈ v.started,
      runId = runId'

end TimerView

variable {cal : Calendar}
variable {T : TimerId}
variable {t : DateTime}
variable {v v' : TimerView}

theorem TimerView.Fresh.entries
    (hFresh : v.Fresh) :
    v.entries = 0 := by
  simp [TimerView.entries, hFresh.heap, hFresh.due,
    hFresh.spawned]

/- With fewer entries and runs, and no run started. -/
theorem TimerView.Fired.mono
    (hFired : v.Fired t)
    (hEntries : v'.entries ≤ v.entries)
    (hRuns : v'.executing ⊆ v.executing)
    (hStarted : v'.started = v.started) :
    v'.Fired t where
  entries := by
    intro entry hMem
    rw [hStarted]
    exact
      hFired.entries entry (Multiset.mem_of_le hEntries hMem)
  runs := by
    intro run hMem
    rw [hStarted]
    exact hFired.runs run (hRuns hMem)
  card :=
    (Multiset.card_le_card
      (Multiset.filter_le_filter _ hEntries)).trans
      hFired.card
  unstarted := by
    intro hNe
    rw [hStarted]
    apply hFired.unstarted
    intro hNone
    apply hNe
    have hLe : v'.firsts ≤ v.firsts :=
      Multiset.filter_le_filter _ hEntries
    rw [hNone] at hLe
    exact Multiset.le_zero.mp hLe
  same := by
    rw [hStarted]
    exact hFired.same

/- A timer that waits may be taken for one that fires. -/
theorem TimerView.Waiting.fired
    (hWaiting : v.Waiting T t) :
    v.Fired t := by
  have hEntries : v.entries = v.heap := by
    simp [TimerView.entries, hWaiting.due, hWaiting.spawned]
  constructor
  · intro entry hMem
    rw [hEntries] at hMem
    rw [hWaiting.heap entry hMem]
    refine ⟨le_refl t, ?_⟩
    intro runId hSome
    cases hSome
  · rw [hWaiting.executing]
    simp
  · unfold TimerView.firsts
    rw [hEntries]
    exact
      (Multiset.card_le_card (Multiset.filter_le _ _)).trans
        hWaiting.card
  · intro _
    exact hWaiting.started
  · rw [hWaiting.started]
    simp

theorem firsts_cons_first
    {entry : ScheduledTimer}
    (hEntries : v.entries = entry ::ₘ v'.entries)
    (hFirst : entry.runId = none) :
    v.firsts = entry ::ₘ v'.firsts := by
  unfold TimerView.firsts
  rw [hEntries]
  exact
    Multiset.filter_cons_of_pos
      (p := fun e => ScheduledTimer.runId e = none) _ hFirst

theorem firsts_cons_retry
    {entry : ScheduledTimer}
    {runId : RunId}
    (hEntries : v.entries = entry ::ₘ v'.entries)
    (hRetry : entry.runId = some runId) :
    v.firsts = v'.firsts := by
  unfold TimerView.firsts
  rw [hEntries, Multiset.filter_cons_of_neg]
  simp [hRetry]

/- An entry is started and leaves the entries. -/
theorem TimerView.Fired.start
    (hFired : v.Fired t)
    {entry : ScheduledTimer}
    {runId : RunId}
    (hEntries : v.entries = entry ::ₘ v'.entries)
    (hRunId : ∀ r, entry.runId = some r → r = runId)
    (hStarted : v'.started = v.started ++ [runId])
    (hRuns :
      ∀ run ∈ v'.executing,
        run ∈ v.executing ∨ run.runId = runId) :
    v'.Fired t := by
  have hEntry :=
    hFired.entries entry (by rw [hEntries]; simp)
  have hFirsts : v'.firsts = 0 := by
    cases hSome : entry.runId with
    | none =>
        have hCard := hFired.card
        rw [firsts_cons_first hEntries hSome,
          Multiset.card_cons] at hCard
        apply Multiset.card_eq_zero.mp
        omega
    | some r =>
        -- a retry follows a start, so no first attempt is left
        have hMem := hEntry.2 r hSome
        have hNone : v.firsts = 0 := by
          by_contra hNe
          rw [hFired.unstarted hNe] at hMem
          cases hMem
        rw [← firsts_cons_retry hEntries hSome]
        exact hNone
  have hOne : ∀ r ∈ v.started, r = runId := by
    intro r hMem
    cases hSome : entry.runId with
    | none =>
        have hNe : v.firsts ≠ 0 := by
          rw [firsts_cons_first hEntries hSome]
          exact Multiset.cons_ne_zero
        rw [hFired.unstarted hNe] at hMem
        cases hMem
    | some r' =>
        rw [hFired.same r hMem r' (hEntry.2 r' hSome)]
        exact hRunId r' hSome
  have hAll : ∀ r ∈ v'.started, r = runId := by
    intro r hMem
    rw [hStarted, List.mem_append, List.mem_singleton]
      at hMem
    rcases hMem with hOld | hNew
    · exact hOne r hOld
    · exact hNew
  constructor
  · intro other hMem
    have hOther :=
      hFired.entries other
        (by rw [hEntries]; exact Multiset.mem_cons_of_mem hMem)
    refine ⟨hOther.1, ?_⟩
    intro r hSome
    rw [hStarted]
    exact List.mem_append_left _ (hOther.2 r hSome)
  · intro run hMem
    rw [hStarted]
    rcases hRuns run hMem with hOld | hNew
    · exact List.mem_append_left _ (hFired.runs run hOld)
    · rw [hNew]
      simp
  · simp [hFirsts]
  · intro hNe
    exact (hNe hFirsts).elim
  · intro r hMem r' hMem'
    rw [hAll r hMem, hAll r' hMem']

/- A retry of a run that was started. -/
theorem TimerView.Fired.pushRetry
    (hFired : v.Fired t)
    {entry : ScheduledTimer}
    {runId : RunId}
    (hRunId : entry.runId = some runId)
    (hMem : runId ∈ v.started)
    (hTime : t ≤ entry.nextRunAt) :
    (v.pushEntry entry).Fired t := by
  have hEntries :
      (v.pushEntry entry).entries = entry ::ₘ v.entries := by
    simp only [TimerView.entries, TimerView.pushEntry,
      Multiset.cons_add]
  have hFirsts : (v.pushEntry entry).firsts = v.firsts :=
    firsts_cons_retry hEntries hRunId
  constructor
  · intro other hOther
    rw [hEntries, Multiset.mem_cons] at hOther
    rcases hOther with hEq | hOld
    · rw [hEq]
      refine ⟨hTime, ?_⟩
      intro r hSome
      rw [hRunId] at hSome
      cases hSome
      exact hMem
    · exact hFired.entries other hOld
  · exact hFired.runs
  · rw [hFirsts]
    exact hFired.card
  · rw [hFirsts]
    exact hFired.unstarted
  · exact hFired.same

end Kron

------------------------------------------------------------
-- Steps Of A One-Shot Timer
------------------------------------------------------------

namespace Kron

open TimerView

/- The clock reading that a step decides with. -/
def TimerLabel.now? : TimerLabel → Option DateTime
| .schedule call => some call.now
| .dispatch now => some now
| .start _ io => some io.now
| .finish _ io => some io.now
| _ => none

variable {cal : Calendar}
variable {T : TimerId}
variable {t : DateTime}
variable {v v' : TimerView}

/- From its time on the timer is not rescheduled. -/
theorem RescheduledView.eq_of_passed
    {spec : TimerSpec}
    {from_ : DateTime}
    (hFires : FiresAt t spec)
    (hPassed : t ≤ from_)
    (hNext : RescheduledView cal T spec from_ v v') :
    v' = { v with next := v'.next } := by
  cases hNext with
  | stopped _ => rfl
  | pushed next _ hAfter =>
      rw [hFires.schedule] at hAfter
      have hLt := (Schedule.nextRunAfter_at hAfter).2
      exact (not_lt_of_ge hPassed hLt).elim
  | cleared _ _ _ _ => rfl

/- Before its time nothing of the timer is popped. -/
theorem waiting_step
    {label : TimerLabel}
    (hAsks : AsksFor (FiresAt t) v label)
    (hNow : ∀ now, label.now? = some now → now < t)
    (hWaiting : v.Waiting T t)
    (hStep : TimerStep cal T label v v') :
    v'.Waiting T t := by
  cases hStep with
  | other _ _ _ _ _ _ _ =>
      exact
        ⟨hWaiting.due, hWaiting.spawned, hWaiting.executing,
          hWaiting.started, hWaiting.heap, hWaiting.card,
          hWaiting.next⟩
  | schedule call _ stored _ _ _ hStore hNext =>
      have hStored : stored.register.Waiting T t := by
        cases hStore with
        | known _ =>
            exact
              ⟨hWaiting.due, hWaiting.spawned,
                hWaiting.executing, hWaiting.started,
                hWaiting.heap, hWaiting.card,
                hWaiting.next⟩
        | created _ _ =>
            exact
              ⟨hWaiting.due, hWaiting.spawned,
                hWaiting.executing, hWaiting.started,
                hWaiting.heap, hWaiting.card,
                hWaiting.next⟩
        | updated _ _ _ _ =>
            exact
              ⟨hWaiting.due, hWaiting.spawned,
                hWaiting.executing, hWaiting.started,
                by simp [register, update],
                by simp [register, update],
                fun h => (h rfl).elim⟩
      cases hNext with
      | waiting _ => exact hStored
      | none _ _ _ _ => exact hStored
      | pushed next hNone hAfter =>
          have hHeap : stored.register.heap = 0 := by
            by_contra hNe
            exact hStored.next hNe hNone
          rw [hAsks.schedule] at hAfter
          have hTime := (Schedule.nextRunAfter_at hAfter).1
          rw [hTime]
          constructor
          · exact hStored.due
          · exact hStored.spawned
          · exact hStored.executing
          · exact hStored.started
          · intro entry hMem
            simp only [push, hHeap] at hMem
            simpa using hMem
          · simp [push, hHeap]
          · intro _ hEq
            cases hEq
  | dispatch now _ popped kept _ _ hHeap hPopped _ =>
      have hNone : popped = 0 := by
        apply Multiset.eq_zero_of_forall_notMem
        intro entry hMem
        have hTime := hPopped entry hMem
        have hMem' : entry ∈ v.heap := by
          rw [hHeap]
          exact Multiset.mem_add.mpr (Or.inl hMem)
        rw [hWaiting.heap entry hMem'] at hTime
        exact not_lt_of_ge hTime (hNow now rfl)
      rw [hNone, zero_add] at hHeap
      have hCard := hWaiting.card
      have hNext := hWaiting.next
      have hAll := hWaiting.heap
      rw [hHeap] at hCard hNext hAll
      exact
        ⟨hNone, hWaiting.spawned, hWaiting.executing,
          hWaiting.started, hAll, hCard, hNext⟩
  | spawn _ entry rest _ hDue =>
      rw [hWaiting.due] at hDue
      exact (Multiset.zero_ne_cons hDue).elim
  | dropDue _ _ =>
      exact
        ⟨rfl, hWaiting.spawned, hWaiting.executing,
          hWaiting.started, hWaiting.heap, hWaiting.card,
          hWaiting.next⟩
  | start _ _ _ _ _ _ _ hSpawned _ _ =>
      rw [hWaiting.spawned] at hSpawned
      exact (Multiset.zero_ne_cons hSpawned).elim
  | finish _ _ _ _ _ _ hExecuting _ =>
      rw [hWaiting.executing] at hExecuting
      exact (Multiset.zero_ne_cons hExecuting).elim
  | reopen _ _ hFresh hLogged =>
      refine
        ⟨hFresh.due, hFresh.spawned, hFresh.executing, ?_,
          ?_, ?_, ?_⟩
      · unfold TimerView.started
        rw [hLogged]
        exact hWaiting.started
      · simp [hFresh.heap]
      · simp [hFresh.heap]
      · intro h
        exact (h hFresh.heap).elim

/- What an event adds to the runs that were started. -/
theorem started_record
    (v : TimerView)
    (event : Event) :
    (v.record event).started =
      v.started ++ event.startedRun?.toList := by
  unfold TimerView.started TimerView.record
  rw [List.filterMap_append]
  cases hRun : event.startedRun? with
  | none => simp [hRun]
  | some runId => simp [hRun]

theorem started_record_of_none
    (v : TimerView)
    {event : Event}
    (hNone : event.startedRun? = none) :
    (v.record event).started = v.started := by
  rw [started_record, hNone]
  simp

theorem runId_eq_runIdOr
    {entry : ScheduledTimer}
    {runId freshId : RunId}
    (hSome : entry.runId = some runId) :
    runId = entry.runIdOr freshId := by
  unfold ScheduledTimer.runIdOr
  rw [hSome]
  rfl

/- A due entry is skipped, fails to log or is started. -/
theorem StartView.fired
    {spec : TimerSpec}
    {entry : ScheduledTimer}
    {io : StartIo}
    {rest : Multiset ScheduledTimer}
    (hFires : FiresAt t spec)
    (hFired : v.Fired t)
    (hSpawned : v.spawned = entry ::ₘ rest)
    (hStart :
      StartView cal T spec entry io
        { v with next := none, spawned := rest } v') :
    v'.Fired t := by
  have hEntries :
      v.entries = entry ::ₘ (v.heap + v.due + rest) := by
    unfold TimerView.entries
    rw [hSpawned, Multiset.add_cons]
  have hLe : v.heap + v.due + rest ≤ v.entries := by
    rw [hEntries]
    exact Multiset.le_cons_self _ _
  have hPassed : t ≤ entry.nextRunAt := by
    apply (hFired.entries entry _).1
    rw [hEntries]
    simp
  have hDue :
      ∀ w : TimerView,
        ((w.log (entry.dueEvent io)).record
            (entry.startedEvent io)).started =
          w.started ++ [entry.runIdOr io.freshId] := by
    intro w
    rw [started_record]
    have hNone :
        (w.log (entry.dueEvent io)).started = w.started :=
      started_record_of_none w rfl
    rw [hNone]
    rfl
  cases hStart with
  | notSkipped _ =>
      exact
        hFired.mono hLe (fun _ h => h)
          (started_record_of_none v rfl)
  | skipped _ _ _ hNext =>
      rw [hNext.eq_of_passed hFires hPassed]
      exact
        hFired.mono hLe (fun _ h => h)
          (started_record_of_none v rfl)
  | notDue _ =>
      exact
        hFired.mono hLe (fun _ h => h)
          (started_record_of_none v rfl)
  | notStarted _ =>
      exact
        hFired.start hEntries
          (fun _ hSome => runId_eq_runIdOr hSome) (hDue v)
          (fun _ hMem => Or.inl hMem)
  | delayed _ =>
      refine
        hFired.start hEntries
          (fun _ hSome => runId_eq_runIdOr hSome) (hDue v)
          ?_
      intro run hMem
      rcases Multiset.mem_cons.mp hMem with hEq | hOld
      · right
        rw [hEq]
        rfl
      · exact Or.inl hOld
  | started w _ _ hNext =>
      rw [hNext.eq_of_passed hFires hPassed]
      refine
        hFired.start hEntries
          (fun _ hSome => runId_eq_runIdOr hSome) (hDue v)
          ?_
      intro run hMem
      rcases Multiset.mem_cons.mp hMem with hEq | hOld
      · right
        rw [hEq]
        rfl
      · exact Or.inl hOld

theorem started_dropNext
    (v : TimerView)
    (spec : TimerSpec) :
    (v.dropNext spec).started = v.started := by
  unfold TimerView.dropNext
  split <;> rfl

/- Dropping entries keeps everything else. -/
theorem TimerView.Fired.dropNext
    (hFired : v.Fired t)
    (spec : TimerSpec) :
    (v.dropNext spec).Fired t := by
  unfold TimerView.dropNext
  split
  · exact hFired
  · refine hFired.mono ?_ (fun _ h => h) rfl
    unfold TimerView.entries TimerView.dropEntries
    simp only [zero_add]
    rw [add_assoc]
    exact Multiset.le_add_left _ _

/- A run of the timer ends, and may be retried. -/
theorem FinishView.fired
    {run : Execution}
    {io : FinishIo}
    {rest : Multiset Execution}
    (hFires : FiresAt t run.spec)
    (hNow : t ≤ io.now)
    (hFired : v.Fired t)
    (hExecuting : v.executing = run ::ₘ rest)
    (hFinish :
      FinishView cal T run io { v with executing := rest }
        v') :
    v'.Fired t := by
  have hRun : run.runId ∈ v.started := by
    apply hFired.runs
    rw [hExecuting]
    simp
  have hBase :
      TimerView.Fired t { v with executing := rest } := by
    refine hFired.mono (le_refl _) ?_ rfl
    rw [hExecuting]
    exact Multiset.subset_cons _ _
  have hLog :
      ∀ w event, w.Fired t →
        Event.startedRun? event = none →
          (TimerView.log w event).Fired t := by
    intro w event hw hNone
    exact
      hw.mono (le_refl _) (fun _ h => h)
        (started_record_of_none w hNone)
  have hFail :
      ∀ w event, w.Fired t →
        Event.startedRun? event = none →
          (TimerView.fail w event).Fired t := by
    intro w event hw hNone
    exact
      hw.mono (le_refl _) (fun _ h => h)
        (started_record_of_none w hNone)
  cases hFinish with
  | notSucceeded _ => exact hFail _ _ hBase rfl
  | delayed _ _ hNext =>
      rw [hNext.eq_of_passed hFires hNow]
      exact
        (hLog _ _ hBase rfl).mono (le_refl _)
          (fun _ h => h) rfl
  | succeeded _ => exact hLog _ _ hBase rfl
  | notFailed _ _ _ => exact hFail _ _ hBase rfl
  | notRetrying _ _ _ _ _ =>
      exact
        hFail _ _
          ((hLog _ _ hBase rfl).dropNext run.spec) rfl
  | retryStopped _ _ _ _ _ =>
      exact
        hLog _ _
          ((hLog _ _ hBase rfl).dropNext run.spec) rfl
  | retrying error retryAt _ hRetry _ =>
      have hStarted :
          ∀ (w : TimerView) (attempt : UInt32),
            (((w.log
              (run.failedEvent attempt error io)).dropNext
              run.spec).log
              (run.retryingEvent attempt retryAt)).started =
              w.started := by
        intro w attempt
        calc
          _ = ((w.log
                (run.failedEvent attempt error
                  io)).dropNext run.spec).started :=
              started_record_of_none _ rfl
          _ = (w.log
                (run.failedEvent attempt error io)).started :=
              started_dropNext _ _
          _ = w.started := started_record_of_none _ rfl
      refine
        TimerView.Fired.pushRetry
          (hLog _ _
            ((hLog _ _ hBase rfl).dropNext run.spec) rfl)
          rfl ?_
          (hNow.trans (le_nextRetryAt hFires hRetry))
      rw [hStarted]
      exact hRun
  | notDead _ _ _ _ =>
      exact hFail _ _ (hLog _ _ hBase rfl) rfl
  | deadDelayed _ _ _ _ _ _ hNext =>
      rw [hNext.eq_of_passed hFires hNow]
      exact
        (hLog _ _ (hLog _ _ hBase rfl) rfl).mono (le_refl _)
          (fun _ h => h) rfl
  | dead _ _ _ _ =>
      exact hLog _ _ (hLog _ _ hBase rfl) rfl

/- From its time on the timer gets no first attempt. -/
theorem fired_step
    {label : TimerLabel}
    (hWell : v.WellFormed T)
    (hGiven : v.Given (FiresAt t))
    (hAsks : AsksFor (FiresAt t) v label)
    (hNow : ∀ now, label.now? = some now → t ≤ now)
    (hFired : v.Fired t)
    (hStep : TimerStep cal T label v v') :
    v'.Fired t := by
  cases hStep with
  | other _ _ _ _ _ _ _ =>
      exact hFired.mono (le_refl _) (fun _ h => h) rfl
  | schedule call _ stored _ _ _ hStore hNext =>
      have hStored : stored.register.Fired t := by
        cases hStore with
        | known _ =>
            exact hFired.mono (le_refl _) (fun _ h => h) rfl
        | created _ _ =>
            exact hFired.mono (le_refl _) (fun _ h => h) rfl
        | updated _ _ _ _ =>
            refine hFired.mono ?_ (fun _ h => h) rfl
            unfold TimerView.entries register update
            simp only [zero_add]
            rw [add_assoc]
            exact Multiset.le_add_left _ _
      cases hNext with
      | waiting _ => exact hStored
      | none _ _ _ _ => exact hStored
      | pushed next _ hAfter =>
          rw [hAsks.schedule] at hAfter
          have hLt := (Schedule.nextRunAfter_at hAfter).2
          exact
            (not_lt_of_ge (hNow call.now rfl) hLt).elim
  | dispatch now _ popped kept _ hDue hHeap _ _ =>
      refine hFired.mono ?_ (fun _ h => h) rfl
      unfold TimerView.entries
      rw [hDue, hHeap, add_zero, add_comm kept popped]
  | spawn _ entry rest _ hDue =>
      refine hFired.mono ?_ (fun _ h => h) rfl
      unfold TimerView.entries
      rw [hDue, Multiset.add_cons, Multiset.add_cons,
        Multiset.cons_add]
  | dropDue _ _ =>
      refine hFired.mono ?_ (fun _ h => h) rfl
      unfold TimerView.entries
      simp only [add_zero]
      exact
        add_le_add_left (Multiset.le_add_right _ _) _
  | start entry io spec rest _ _ _ hSpawned hSpec hStart =>
      have hRegistered : v.registered := by
        apply hWell.entries entry
        rw [hSpawned]
        simp
      exact
        hStart.fired (hGiven.spec hRegistered spec hSpec)
          hFired hSpawned
  | finish run io rest _ _ _ hExecuting hFinish =>
      exact
        hFinish.fired
          (hGiven.runs run (by rw [hExecuting]; simp))
          (hNow io.now rfl) hFired hExecuting
  | reopen _ _ hFresh hLogged =>
      refine hFired.mono ?_ ?_ ?_
      · rw [hFresh.entries]
        exact Multiset.zero_le _
      · rw [hFresh.executing]
        exact Multiset.zero_subset _
      · unfold TimerView.started
        rw [hLogged]

end Kron

------------------------------------------------------------
-- One-Shot Timers Fire Once
------------------------------------------------------------

namespace Kron

open TimerView

/- The clock reading that a section decides with. -/
def Section.now? : Section → Option DateTime
| .schedule call => some call.now
| .dispatch now => some now
| .runStart _ io => some io.now
| .runFinish _ io => some io.now
| _ => none

/- The reading of a label is the one of its section. -/
theorem now?_of_label
    {T : TimerId}
    {engine : Engine}
    {sec : Section}
    {now : DateTime}
    (hNow : (engine.label T sec).now? = some now) :
    sec.now? = some now := by
  have hOf := engine.labelOf T sec
  generalize engine.label T sec = label at hNow hOf
  cases hOf with
  | schedule => exact hNow
  | dispatch => exact hNow
  | start _ _ => exact hNow
  | finish _ _ => exact hNow
  | _ => cases hNow

/-
  The timer waits, or its time has passed at every reading
  that is still to come.
-/
structure FiresOnce
    (T : TimerId)
    (t : DateTime)
    (engine : Engine)
    (rest : List Section) : Prop where
  wellFormed : engine.WellFormed
  given : (engine.view T).Given (FiresAt t)
  clock : (rest.filterMap Section.now?).Pairwise (· ≤ ·)
  phase :
    (engine.view T).Waiting T t ∨
      (engine.view T).Fired t ∧
        ∀ now ∈ rest.filterMap Section.now?, t ≤ now

theorem firesOnce_step
    {cal : Calendar}
    {codec : JsonCodec LogEntry}
    {snaps : JsonCodec Snapshot}
    {T : TimerId}
    {t : DateTime}
    {engine engine' : Engine}
    {sec : Section}
    {rest : List Section}
    (hInv : FiresOnce T t engine (sec :: rest))
    (hAsks :
      AsksFor (FiresAt t) (engine.view T)
        (engine.label T sec))
    (hStep :
      engine.step cal codec snaps sec = some engine') :
    FiresOnce T t engine' rest := by
  have hTimer := timerStep_of_step T hInv.wellFormed hStep
  have hClock := hInv.clock
  refine
    ⟨hInv.wellFormed.step hStep,
      hInv.given.step (hInv.wellFormed.views T) hAsks hTimer,
      ?_, ?_⟩
  · cases hNow : sec.now? with
    | none => simpa [hNow] using hClock
    | some now =>
        simp only [List.filterMap_cons, hNow] at hClock
        exact (List.pairwise_cons.mp hClock).2
  · have hPassed :
        (engine.view T).Fired t →
          (∀ now ∈ (sec :: rest).filterMap Section.now?,
            t ≤ now) →
          (engine'.view T).Fired t ∧
            ∀ now ∈ rest.filterMap Section.now?,
              t ≤ now := by
      intro hFired hAll
      refine
        ⟨fired_step (hInv.wellFormed.views T) hInv.given
          hAsks ?_ hFired hTimer, ?_⟩
      · intro now hNow
        apply hAll
        exact
          List.mem_filterMap.mpr
            ⟨sec, List.mem_cons_self, now?_of_label hNow⟩
      · intro now hMem
        apply hAll
        rcases List.mem_filterMap.mp hMem with
          ⟨other, hOther, hNow⟩
        exact
          List.mem_filterMap.mpr
            ⟨other, List.mem_cons_of_mem _ hOther, hNow⟩
    rcases hInv.phase with hWaiting | ⟨hFired, hAll⟩
    · -- the first reading decides whether the time has come
      by_cases hEarly :
          ∀ now, sec.now? = some now → now < t
      · left
        refine waiting_step hAsks ?_ hWaiting hTimer
        intro now hNow
        exact hEarly now (now?_of_label hNow)
      · right
        push Not at hEarly
        rcases hEarly with ⟨now, hNow, hLe⟩
        apply hPassed hWaiting.fired
        simp only [List.filterMap_cons, hNow] at hClock ⊢
        intro later hMem
        rcases List.mem_cons.mp hMem with hEq | hLater
        · rw [hEq]
          exact hLe
        · exact
            hLe.trans
              ((List.pairwise_cons.mp hClock).1 later hLater)
    · exact Or.inr (hPassed hFired hAll)

/-
  A timer that is given one fixed time only starts at most
  one run, over any number of restarts, if the clock never
  goes back.
-/
theorem one_shot_fires_once
    (cal : Calendar)
    (codec : JsonCodec LogEntry)
    (snaps : JsonCodec Snapshot)
    (dataDir : String)
    (dir : DataDir)
    (inner : Inner)
    (hOpen : openEngine codec snaps dataDir dir = .ok inner)
    (T : TimerId)
    (t : DateTime)
    (sections : List Section)
    (hFires :
      (Engine.ofInner inner).EachStep cal codec snaps T
        (AsksFor (FiresAt t)) sections)
    (hClock :
      (sections.filterMap Section.now?).Pairwise (· ≤ ·))
    (engine : Engine)
    (hRun :
      (Engine.ofInner inner).run cal codec snaps sections =
        some engine)
    (runId runId' : RunId)
    (startedAt startedAt' : DateTime)
    (attempt attempt' : UInt32)
    (hStarted :
      .runStarted T runId startedAt attempt ∈
        engine.inner.logged)
    (hStarted' :
      .runStarted T runId' startedAt' attempt' ∈
        engine.inner.logged) :
    runId = runId' := by
  have hFresh :
      ((Engine.ofInner inner).view T).Fresh :=
    fresh_of_openEngine hOpen inner.logged
  have hNothing :
      ((Engine.ofInner inner).view T).started = [] := by
    simp [TimerView.started, Engine.view, viewOf,
      Engine.ofInner, logged_of_openEngine hOpen]
  have hInit :
      FiresOnce T t (Engine.ofInner inner) sections := by
    refine
      ⟨wellFormed_of_openEngine hOpen inner.logged,
        hFresh.given, hClock, Or.inl ?_⟩
    refine
      ⟨hFresh.due, hFresh.spawned, hFresh.executing,
        hNothing, ?_, ?_, ?_⟩
    · simp [hFresh.heap]
    · simp [hFresh.heap]
    · intro hNe
      exact (hNe hFresh.heap).elim
  have hEnd :=
    Machine.run_invariant_rest (FiresOnce T t)
      (fun _ _ _ _ hInv hAsks hTake =>
        firesOnce_step hInv hAsks hTake)
      hInit hFires hRun
  have hFired : (engine.view T).Fired t := by
    rcases hEnd.phase with hWaiting | ⟨hFired, _⟩
    · exact hWaiting.fired
    · exact hFired
  have hMem :
      ∀ r at_ a,
        .runStarted T r at_ a ∈ engine.inner.logged →
          r ∈ (engine.view T).started := by
    intro r at_ a hLogged
    apply List.mem_filterMap.mpr
    refine ⟨.runStarted T r at_ a, ?_, rfl⟩
    apply List.mem_filter.mpr
    exact ⟨hLogged, by simp [Event.IsRunOf, Event.run?]⟩
  exact
    hFired.same runId (hMem _ _ _ hStarted) runId'
      (hMem _ _ _ hStarted')

/- A timer that fires once, a minute after it was created. -/
def oneShot : TimerSpec :=
  { everyMinute "a" with
    schedule := .at_ (second 60)
    retry :=
      { maxAttempts := 2
        backoff := .fixed 5 } }

/-
  The run fails, is retried, and the timer is registered
  again afterwards.
-/
def firedOnce : List Section :=
  [.schedule (callAt oneShot 0),
    .start,
    .dispatch (second 60),
    .spawn 0,
    .runStart 0 (startAt "run_1" 60),
    .runFinish 0 (finishAt (.error "boom") 61),
    .dispatch (second 66),
    .spawn 0,
    .runStart 0 (startAt "run_2" 66),
    .runFinish 0 (finishAt (.ok ()) 67),
    .schedule (callAt oneShot 68)]

theorem firesAt_oneShot
    (n : Int)
    (old : Option TimerSpec) :
    FiresAt (second 60) ((callAt oneShot n).specFrom old) := by
  refine ⟨rfl, ?_⟩
  intro attempt
  show (5 : UInt64).toNat < 2 ^ 63
  decide

/- The retry starts the same run again. -/
theorem one_shot_fires_once_firedOnce :
    ∃ engine,
      emptyEngine.run utcCalendar logCodec noSnapshots
          firedOnce = some engine ∧
        .runStarted "a" "run_1" (second 60) 1 ∈
          engine.inner.logged ∧
        .runStarted "a" "run_1" (second 66) 2 ∈
          engine.inner.logged ∧
        ∀ runId startedAt attempt,
          .runStarted "a" runId startedAt attempt ∈
              engine.inner.logged →
            runId = "run_1" := by
  -- The run does not depend on the texts.
  generalize logCodec = codec
  generalize noSnapshots = snaps
  have hEval :
      (emptyEngine.run utcCalendar codec snaps
        firedOnce).map
          (fun e =>
            e.inner.logged.filter fun event =>
              event.startedRun?.isSome) =
        some
          [.runStarted "a" "run_1" (second 60) 1,
            .runStarted "a" "run_1" (second 66) 2] := by
    cbv
  rcases Option.map_eq_some_iff.mp hEval with
    ⟨engine, hRun, hStarted⟩
  have hFirst :
      .runStarted "a" "run_1" (second 60) 1 ∈
        engine.inner.logged := by
    apply List.mem_of_mem_filter
    rw [hStarted]
    simp
  have hSecond :
      .runStarted "a" "run_1" (second 66) 2 ∈
        engine.inner.logged := by
    apply List.mem_of_mem_filter
    rw [hStarted]
    simp
  refine ⟨engine, hRun, hFirst, hSecond, ?_⟩
  intro runId startedAt attempt hLogged
  apply one_shot_fires_once utcCalendar codec snaps "/data"
    ∅ _ (openEngine_empty codec snaps "/data") "a"
    (second 60) firedOnce _ (by decide +kernel) engine hRun
    runId "run_1" startedAt (second 60) attempt 1 hLogged
    hFirst
  apply eachStep_asksFor
  intro call hMem _ old
  simp only [firedOnce, List.mem_cons, List.not_mem_nil,
    or_false, false_or, Section.schedule.injEq,
    reduceCtorEq] at hMem
  rcases hMem with hEq | hEq
  · rw [hEq]
    exact firesAt_oneShot 0 old
  · rw [hEq]
    exact firesAt_oneShot 68 old

end Kron
