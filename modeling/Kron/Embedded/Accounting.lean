import Kron.Embedded.Retries

/-
  The attempts of a run in the log.

  The failure path reads the attempt from the retry that is
  stored for the timer. While that retry, if there is one,
  is the one of the run that fails, the numbers in the log
  are those of the run: its starts count from one, and each
  failure closes the last start.

  Key definitions include:
    * `Kron.startedAttempts`
    * `Kron.EventOk`
    * `Kron.AccountedFor`
    * `Kron.OwnRetry`
    * `Kron.TimerView.Accounted`

  Key theorems include:
    * `Kron.attempts_eq_range`
    * `Kron.accounted_step`
    * `Kron.attempts_accounted`
-/

------------------------------------------------------------
-- Attempts In The Log
------------------------------------------------------------

namespace Kron

/- The attempt of a run that an event starts. -/
def Event.startedAttempt?
    (T : TimerId)
    (runId : RunId) : Event → Option UInt32
| .runStarted timerId runId' _ attempt =>
    if timerId = T ∧ runId' = runId then
      some attempt
    else
      none
| _ => none

/- The attempts of a run that were started, in order. -/
def startedAttempts
    (T : TimerId)
    (runId : RunId)
    (logged : List Event) : List UInt32 :=
  logged.filterMap (Event.startedAttempt? T runId)

/-
  What an event may say about attempts, after the events
  before it: a start carries the next number, a failure the
  number of the last start, a retry follows a failure and
  carries its number plus one, and a run is given up only
  when its last start was the last one that is allowed.
-/
def EventOk
    (T : TimerId)
    (maxAttempts : UInt32)
    (before : List Event) : Event → Prop
| .runStarted _ runId _ attempt =>
    attempt.toNat =
      (startedAttempts T runId before).length + 1
| .runFailed _ runId _ _ attempt =>
    (startedAttempts T runId before).getLast? =
      some attempt
| .runRetrying _ runId attempt _ =>
    ∃ finishedAt error last,
      before.getLast? =
          some
            (.runFailed T runId finishedAt error last) ∧
        attempt.toNat = last.toNat + 1
| .runDead _ runId _ =>
    ∃ last,
      (startedAttempts T runId before).getLast? =
          some last ∧
        maxAttempts ≤ last
| _ => True

/- Every event of a log says the right attempt. -/
def AccountedFor
    (T : TimerId)
    (maxAttempts : UInt32)
    (logged : List Event) : Prop :=
  ∀ before event after,
    logged = before ++ event :: after →
      EventOk T maxAttempts before event

variable {T : TimerId}
variable {maxAttempts : UInt32}
variable {runId : RunId}
variable {logged : List Event}
variable {event : Event}

theorem AccountedFor.nil :
    AccountedFor T maxAttempts [] := by
  intro before event after hEq
  simp at hEq

/- One event more. -/
theorem AccountedFor.snoc
    (hLog : AccountedFor T maxAttempts logged)
    (hEvent : EventOk T maxAttempts logged event) :
    AccountedFor T maxAttempts (logged ++ [event]) := by
  intro before event' after hEq
  rcases List.eq_nil_or_concat after with
    hNil | ⟨after', last, hAfter⟩
  · rw [hNil] at hEq
    rcases List.append_inj' hEq rfl with ⟨hInit, hEnd⟩
    rw [← hInit, ← (List.cons.inj hEnd).1]
    exact hEvent
  · rw [hAfter, List.concat_eq_append, ← List.cons_append,
      ← List.append_assoc] at hEq
    exact
      hLog before event' after'
        (List.append_inj' hEq rfl).1

/- One event less. -/
theorem AccountedFor.init
    (hLog :
      AccountedFor T maxAttempts (logged ++ [event])) :
    AccountedFor T maxAttempts logged := by
  intro before event' after hEq
  apply hLog before event' (after ++ [event])
  rw [hEq, List.append_assoc, List.cons_append]

theorem startedAttempts_snoc :
    startedAttempts T runId (logged ++ [event]) =
      startedAttempts T runId logged ++
        (event.startedAttempt? T runId).toList := by
  unfold startedAttempts
  rw [List.filterMap_append]
  cases hAttempt : event.startedAttempt? T runId with
  | none => simp [hAttempt]
  | some attempt => simp [hAttempt]

/- An event that starts nothing adds no attempt. -/
theorem startedAttempts_snoc_of_none
    (hNone : event.startedAttempt? T runId = none) :
    startedAttempts T runId (logged ++ [event]) =
      startedAttempts T runId logged := by
  rw [startedAttempts_snoc, hNone]
  simp

/- The starts of a run are numbered 1, 2, 3, … -/
theorem attempts_eq_range
    (hLog : AccountedFor T maxAttempts logged) :
    (startedAttempts T runId logged).map UInt32.toNat =
      List.range' 1
        (startedAttempts T runId logged).length := by
  induction logged using List.reverseRecOn with
  | nil => rfl
  | append_singleton logged event ih =>
      have hInit := ih hLog.init
      have hEvent :
          EventOk T maxAttempts logged event :=
        hLog logged event [] rfl
      rw [startedAttempts_snoc]
      cases event with
      | runStarted timerId runId' startedAt attempt =>
          by_cases hRun : timerId = T ∧ runId' = runId
          · have hAttempt :
                attempt.toNat =
                  (startedAttempts T runId
                    logged).length + 1 := by
              rw [← hRun.2]
              exact hEvent
            simp only [Event.startedAttempt?, hRun,
              and_self, if_true, Option.toList_some,
              List.map_append, List.map_cons, List.map_nil,
              List.length_append, List.length_cons,
              List.length_nil, hInit, hAttempt]
            rw [List.range'_1_concat, Nat.add_comm]
          · simpa [Event.startedAttempt?, hRun] using hInit
      | _ => simpa [Event.startedAttempt?] using hInit

/- The last attempt is the number of starts. -/
theorem last_eq_length
    {last : UInt32}
    (hLog : AccountedFor T maxAttempts logged)
    (hLast :
      (startedAttempts T runId logged).getLast? =
        some last) :
    last.toNat =
      (startedAttempts T runId logged).length := by
  rcases List.getLast?_eq_some_iff.mp hLast with
    ⟨init, hInit⟩
  have hRange :
      (startedAttempts T runId logged).map UInt32.toNat =
        List.range' 1
          (startedAttempts T runId logged).length :=
    attempts_eq_range hLog
  rw [hInit] at hRange ⊢
  simp only [List.map_append, List.map_cons, List.map_nil,
    List.length_append, List.length_cons, List.length_nil]
    at hRange ⊢
  rw [List.range'_1_concat] at hRange
  have hEnd := (List.append_inj' hRange rfl).2
  have hEq := (List.cons.inj hEnd).1
  omega

end Kron

------------------------------------------------------------
-- Runs And Retries Of A Timer
------------------------------------------------------------

namespace Kron

open TimerView

/-
  A first attempt draws an id that no event of the timer is
  about, as `RunId::new` promises.
-/
def DrawsFresh : TimerView → TimerLabel → Prop
| v, .start entry io =>
    entry.runId = none →
      ∀ event ∈ v.logged,
        event.run?.map Prod.snd ≠ some io.freshId
| _, _ => True

/-
  When a run fails, no retry is stored for the timer if this
  is its first attempt, and its own retry otherwise.
-/
def OwnRetry : TimerView → TimerLabel → Prop
| v, .finish run io =>
    (∃ error, io.result = .error error) →
      if run.attempt = 1 then
        v.pending = none
      else
        v.pending.map Prod.fst = some run.runId
| _, _ => True

namespace TimerView

/- The runs that execute or wait for a retry. -/
def ids
    (v : TimerView) : Multiset RunId :=
  v.entries.filterMap ScheduledTimer.runId +
    v.executing.map Execution.runId

/- A stored retry of the run carries the attempt. -/
def Stores
    (v : TimerView)
    (runId : RunId)
    (attempt : UInt32) : Prop :=
  ∀ retry, v.pending = some retry → retry.1 = runId →
    retry.2.2 = attempt

/-
  The log is right so far, each run waits or executes at
  most once, and carries the attempt that comes next or was
  started last.
-/
structure Accounted
    (T : TimerId)
    (maxAttempts : UInt32)
    (v : TimerView) : Prop where
  log : AccountedFor T maxAttempts v.logged
  nodup : v.ids.Nodup
  firsts :
    ∀ entry ∈ v.entries, entry.runId = none →
      entry.attempt = 1
  retries :
    ∀ entry ∈ v.entries, ∀ runId,
      entry.runId = some runId →
        v.Stores runId entry.attempt ∧
          ∃ last,
            (startedAttempts T runId v.logged).getLast? =
                some last ∧
              entry.attempt.toNat = last.toNat + 1
  runs :
    ∀ run ∈ v.executing,
      (run.attempt ≠ 1 → v.Stores run.runId run.attempt) ∧
        (startedAttempts T run.runId v.logged).getLast? =
          some run.attempt

end TimerView

variable {cal : Calendar}
variable {T : TimerId}
variable {maxAttempts : UInt32}
variable {v v' : TimerView}

theorem mem_ids_of_entry
    {entry : ScheduledTimer}
    {runId : RunId}
    (hMem : entry ∈ v.entries)
    (hRetry : entry.runId = some runId) :
    runId ∈ v.ids :=
  Multiset.mem_add.mpr
    (Or.inl
      ((Multiset.mem_filterMap _ _).mpr
        ⟨entry, hMem, hRetry⟩))

theorem mem_ids_of_run
    {run : Execution}
    (hMem : run ∈ v.executing) :
    run.runId ∈ v.ids :=
  Multiset.mem_add.mpr
    (Or.inr (Multiset.mem_map_of_mem _ hMem))

/- A run that waits or executes was started. -/
theorem TimerView.Accounted.started_of_mem
    {runId : RunId}
    (hAcc : v.Accounted T maxAttempts)
    (hMem : runId ∈ v.ids) :
    startedAttempts T runId v.logged ≠ [] := by
  intro hNil
  rcases Multiset.mem_add.mp hMem with hEntry | hRun
  · rcases (Multiset.mem_filterMap _ _).mp hEntry with
      ⟨entry, hMem, hRunId⟩
    rcases (hAcc.retries entry hMem runId hRunId).2 with
      ⟨last, hLast, _⟩
    rw [hNil] at hLast
    cases hLast
  · rcases Multiset.mem_map.mp hRun with ⟨run, hMem, hEq⟩
    have hLast := (hAcc.runs run hMem).2
    rw [hEq, hNil] at hLast
    cases hLast

/- A run that no event is about was not started. -/
theorem startedAttempts_eq_nil
    {runId : RunId}
    {logged : List Event}
    (hNever :
      ∀ event ∈ logged,
        event.run?.map Prod.snd ≠ some runId) :
    startedAttempts T runId logged = [] := by
  apply List.filterMap_eq_nil_iff.mpr
  intro event hMem
  have hNe := hNever event hMem
  cases event with
  | runStarted timerId runId' startedAt attempt =>
      have hOther : ¬ (timerId = T ∧ runId' = runId) := by
        rintro ⟨_, rfl⟩
        exact hNe rfl
      simp [Event.startedAttempt?, hOther]
  | _ => rfl

/- Fewer retries and runs, and any first attempts. -/
theorem TimerView.Accounted.mono
    (hAcc : v.Accounted T maxAttempts)
    (hLogged : v'.logged = v.logged)
    (hPending : v'.pending = v.pending)
    (hEntries :
      ∀ entry ∈ v'.entries,
        entry ∈ v.entries ∨
          entry.runId = none ∧ entry.attempt = 1)
    (hRuns : v'.executing ⊆ v.executing)
    (hIds : v'.ids ≤ v.ids) :
    v'.Accounted T maxAttempts where
  log := by
    rw [hLogged]
    exact hAcc.log
  nodup := Multiset.nodup_of_le hIds hAcc.nodup
  firsts := by
    intro entry hMem hFirst
    rcases hEntries entry hMem with hOld | hNew
    · exact hAcc.firsts entry hOld hFirst
    · exact hNew.2
  retries := by
    intro entry hMem runId hRetry
    rcases hEntries entry hMem with hOld | hNew
    · unfold Stores
      rw [hLogged, hPending]
      exact hAcc.retries entry hOld runId hRetry
    · rw [hNew.1] at hRetry
      cases hRetry
  runs := by
    intro run hMem
    unfold Stores
    rw [hLogged, hPending]
    exact hAcc.runs run (hRuns hMem)

theorem ids_le
    (hEntries : v'.entries ≤ v.entries)
    (hRuns : v'.executing = v.executing) :
    v'.ids ≤ v.ids := by
  unfold TimerView.ids
  rw [hRuns]
  apply add_le_add_left
  exact Multiset.filterMap_le_filterMap _ hEntries

/- Entries are moved or removed. -/
theorem TimerView.Accounted.fewer
    (hAcc : v.Accounted T maxAttempts)
    (hLogged : v'.logged = v.logged)
    (hPending : v'.pending = v.pending)
    (hEntries : v'.entries ≤ v.entries)
    (hRuns : v'.executing = v.executing) :
    v'.Accounted T maxAttempts := by
  refine
    hAcc.mono hLogged hPending ?_ ?_
      (ids_le hEntries hRuns)
  · intro entry hMem
    exact Or.inl (Multiset.mem_of_le hEntries hMem)
  · rw [hRuns]
    exact fun _ h => h

/- An event that starts nothing is recorded. -/
theorem TimerView.Accounted.record
    {event : Event}
    (hAcc : v.Accounted T maxAttempts)
    (hNone :
      ∀ runId, event.startedAttempt? T runId = none)
    (hEvent : EventOk T maxAttempts v.logged event) :
    (v.record event).Accounted T maxAttempts where
  log := hAcc.log.snoc hEvent
  nodup := hAcc.nodup
  firsts := hAcc.firsts
  retries := by
    intro entry hMem runId hRetry
    have hSame :
        startedAttempts T runId (v.logged ++ [event]) =
          startedAttempts T runId v.logged :=
      startedAttempts_snoc_of_none (hNone runId)
    simp only [TimerView.record, hSame]
    exact hAcc.retries entry hMem runId hRetry
  runs := by
    intro run hMem
    have hSame :
        startedAttempts T run.runId (v.logged ++ [event]) =
          startedAttempts T run.runId v.logged :=
      startedAttempts_snoc_of_none (hNone run.runId)
    simp only [TimerView.record, hSame]
    exact hAcc.runs run hMem

/- The stored retry is kept, removed or of no waiting run. -/
theorem TimerView.Accounted.setPending
    {state : Option TimerState}
    {pending : Option PendingRetry}
    (hAcc : v.Accounted T maxAttempts)
    (hPending :
      ∀ retry, pending = some retry →
        v.pending = some retry ∨ retry.1 ∉ v.ids) :
    TimerView.Accounted T maxAttempts
      { v with
        state := state
        pending := pending } where
  log := hAcc.log
  nodup := hAcc.nodup
  firsts := hAcc.firsts
  retries := by
    intro entry hMem runId hRetry
    rcases hAcc.retries entry hMem runId hRetry with
      ⟨hStores, hLast⟩
    refine ⟨?_, hLast⟩
    intro retry hSome hOwn
    rcases hPending retry hSome with hOld | hOther
    · exact hStores retry hOld hOwn
    · rw [hOwn] at hOther
      exact (hOther (mem_ids_of_entry hMem hRetry)).elim
  runs := by
    intro run hMem
    rcases hAcc.runs run hMem with ⟨hStores, hLast⟩
    refine ⟨?_, hLast⟩
    intro hLater retry hSome hOwn
    rcases hPending retry hSome with hOld | hOther
    · exact hStores hLater retry hOld hOwn
    · rw [hOwn] at hOther
      exact (hOther (mem_ids_of_run hMem)).elim

/- The next attempt of a run that does not wait is started. -/
theorem TimerView.Accounted.recordStarted
    {runId : RunId}
    {startedAt : DateTime}
    {attempt : UInt32}
    (hAcc : v.Accounted T maxAttempts)
    (hOut : runId ∉ v.ids)
    (hNext :
      attempt.toNat =
        (startedAttempts T runId v.logged).length + 1) :
    (v.record
      (.runStarted T runId startedAt attempt)).Accounted T
      maxAttempts := by
  have hSame :
      ∀ other ∈ v.ids,
        startedAttempts T other
            (v.logged ++
              [.runStarted T runId startedAt attempt]) =
          startedAttempts T other v.logged := by
    intro other hMem
    apply startedAttempts_snoc_of_none
    have hNe : runId ≠ other := by
      intro hEq
      rw [hEq] at hOut
      exact hOut hMem
    simp [Event.startedAttempt?, hNe]
  refine
    ⟨hAcc.log.snoc hNext, hAcc.nodup, hAcc.firsts, ?_, ?_⟩
  · intro entry hMem other hRetry
    have hId : other ∈ v.ids :=
      mem_ids_of_entry hMem hRetry
    simp only [TimerView.record, hSame other hId]
    exact hAcc.retries entry hMem other hRetry
  · intro run hMem
    have hId : run.runId ∈ v.ids := mem_ids_of_run hMem
    simp only [TimerView.record, hSame run.runId hId]
    exact hAcc.runs run hMem

/- A run that was started last executes. -/
theorem TimerView.Accounted.execute
    {run : Execution}
    (hAcc : v.Accounted T maxAttempts)
    (hOut : run.runId ∉ v.ids)
    (hStores :
      run.attempt ≠ 1 → v.Stores run.runId run.attempt)
    (hLast :
      (startedAttempts T run.runId v.logged).getLast? =
        some run.attempt) :
    TimerView.Accounted T maxAttempts
      { v with executing := run ::ₘ v.executing } where
  log := hAcc.log
  nodup := by
    have hIds :
        TimerView.ids
            { v with executing := run ::ₘ v.executing } =
          run.runId ::ₘ v.ids := by
      unfold TimerView.ids TimerView.entries
      rw [Multiset.map_cons, Multiset.add_cons]
    rw [hIds]
    exact Multiset.nodup_cons.mpr ⟨hOut, hAcc.nodup⟩
  firsts := hAcc.firsts
  retries := hAcc.retries
  runs := by
    intro other hMem
    rcases Multiset.mem_cons.mp hMem with hEq | hOld
    · rw [hEq]
      exact ⟨hStores, hLast⟩
    · exact hAcc.runs other hOld

/- The retry of a run that does not wait is pushed. -/
theorem TimerView.Accounted.pushRetry
    {entry : ScheduledTimer}
    {runId : RunId}
    {last : UInt32}
    (hAcc : v.Accounted T maxAttempts)
    (hRetry : entry.runId = some runId)
    (hOut : runId ∉ v.ids)
    (hStores : v.Stores runId entry.attempt)
    (hLast :
      (startedAttempts T runId v.logged).getLast? =
        some last)
    (hNext : entry.attempt.toNat = last.toNat + 1) :
    (v.pushEntry entry).Accounted T maxAttempts := by
  have hEntries :
      (v.pushEntry entry).entries = entry ::ₘ v.entries := by
    simp only [TimerView.entries, TimerView.pushEntry,
      Multiset.cons_add]
  refine ⟨hAcc.log, ?_, ?_, ?_, hAcc.runs⟩
  · have hIds :
        (v.pushEntry entry).ids = runId ::ₘ v.ids := by
      unfold TimerView.ids
      rw [hEntries, Multiset.filterMap_cons_some _ _ _ hRetry,
        Multiset.cons_add]
      rfl
    rw [hIds]
    exact Multiset.nodup_cons.mpr ⟨hOut, hAcc.nodup⟩
  · intro other hMem hFirst
    rw [hEntries] at hMem
    rcases Multiset.mem_cons.mp hMem with hEq | hOld
    · rw [hEq, hRetry] at hFirst
      cases hFirst
    · exact hAcc.firsts other hOld hFirst
  · intro other hMem runId' hSome
    rw [hEntries] at hMem
    rcases Multiset.mem_cons.mp hMem with hEq | hOld
    · rw [hEq] at hSome ⊢
      rw [hRetry] at hSome
      cases hSome
      exact ⟨hStores, last, hLast, hNext⟩
    · exact hAcc.retries other hOld runId' hSome

/- What an entry says about its run when a task takes it. -/
structure Taken
    (T : TimerId)
    (v : TimerView)
    (runId : RunId)
    (attempt : UInt32) : Prop where
  out : runId ∉ v.ids
  next :
    attempt.toNat =
      (startedAttempts T runId v.logged).length + 1
  stores : attempt ≠ 1 → v.Stores runId attempt

/- A task takes an entry. -/
theorem TimerView.Accounted.take
    {entry : ScheduledTimer}
    {io : StartIo}
    {rest : Multiset ScheduledTimer}
    (hAcc : v.Accounted T maxAttempts)
    (hFresh : DrawsFresh v (.start entry io))
    (hSpawned : v.spawned = entry ::ₘ rest) :
    TimerView.Accounted T maxAttempts
        { v with
          next := none
          spawned := rest } ∧
      Taken T
        { v with
          next := none
          spawned := rest }
        (entry.runIdOr io.freshId) entry.attempt := by
  have hEntries :
      v.entries = entry ::ₘ (v.heap + v.due + rest) := by
    unfold TimerView.entries
    rw [hSpawned, Multiset.add_cons]
  have hMem : entry ∈ v.entries := by
    rw [hEntries]
    simp
  have hIds :
      v.ids =
        (entry ::ₘ (v.heap + v.due + rest)).filterMap
            ScheduledTimer.runId +
          v.executing.map Execution.runId := by
    unfold TimerView.ids
    rw [hEntries]
  have hLe :
      TimerView.ids
          { v with
            next := none
            spawned := rest } ≤ v.ids := by
    rw [hIds]
    apply add_le_add_left
    exact
      Multiset.filterMap_le_filterMap _
        (Multiset.le_cons_self _ _)
  refine ⟨hAcc.mono rfl rfl ?_ (fun _ h => h) hLe, ?_⟩
  · intro other hOther
    left
    rw [hEntries]
    exact Multiset.mem_cons_of_mem hOther
  · cases hSome : entry.runId with
    | none =>
        have hRunId :
            entry.runIdOr io.freshId = io.freshId := by
          unfold ScheduledTimer.runIdOr
          rw [hSome]
          rfl
        have hNil :
            startedAttempts T io.freshId v.logged = [] :=
          startedAttempts_eq_nil (hFresh hSome)
        have hFirst := hAcc.firsts entry hMem hSome
        rw [hRunId]
        refine ⟨?_, ?_, fun hLater => (hLater hFirst).elim⟩
        · intro hWaits
          exact
            hAcc.started_of_mem
              (Multiset.mem_of_le hLe hWaits) hNil
        · rw [hFirst, hNil]
          rfl
    | some runId =>
        have hRunId :
            entry.runIdOr io.freshId = runId := by
          unfold ScheduledTimer.runIdOr
          rw [hSome]
          rfl
        rcases hAcc.retries entry hMem runId hSome with
          ⟨hStores, last, hLast, hNext⟩
        rw [hRunId]
        refine ⟨?_, ?_, fun _ => hStores⟩
        · have hNodup := hAcc.nodup
          rw [hIds, Multiset.filterMap_cons_some _ _ _ hSome,
            Multiset.cons_add] at hNodup
          exact (Multiset.nodup_cons.mp hNodup).1
        · rw [hNext, last_eq_length hAcc.log hLast]

/- A task ends its run. -/
theorem TimerView.Accounted.release
    {run : Execution}
    {rest : Multiset Execution}
    (hAcc : v.Accounted T maxAttempts)
    (hExecuting : v.executing = run ::ₘ rest) :
    TimerView.Accounted T maxAttempts
        { v with executing := rest } ∧
      run.runId ∉
        TimerView.ids { v with executing := rest } := by
  have hIds :
      v.ids =
        run.runId ::ₘ
          TimerView.ids { v with executing := rest } := by
    unfold TimerView.ids TimerView.entries
    rw [hExecuting, Multiset.map_cons, Multiset.add_cons]
  have hNodup := hAcc.nodup
  rw [hIds] at hNodup
  refine
    ⟨hAcc.mono rfl rfl (fun _ h => Or.inl h) ?_ ?_,
      (Multiset.nodup_cons.mp hNodup).1⟩
  · rw [hExecuting]
    exact Multiset.subset_cons _ _
  · rw [hIds]
    exact Multiset.le_cons_self _ _

end Kron

------------------------------------------------------------
-- Steps
------------------------------------------------------------

namespace Kron

open TimerView

variable {cal : Calendar}
variable {T : TimerId}
variable {maxAttempts : UInt32}
variable {v v' : TimerView}

/- An event is logged that starts and stores nothing. -/
theorem TimerView.Accounted.logQuiet
    {event : Event}
    (hAcc : v.Accounted T maxAttempts)
    (hNone :
      ∀ runId, event.startedAttempt? T runId = none)
    (hEvent : EventOk T maxAttempts v.logged event)
    (hPending :
      event.pendingAfter v.pending = v.pending ∨
        event.pendingAfter v.pending = none) :
    (v.log event).Accounted T maxAttempts := by
  apply (hAcc.record hNone hEvent).setPending
  intro retry hSome
  left
  rcases hPending with hKeep | hClear
  · rw [hKeep] at hSome
    exact hSome
  · rw [hClear] at hSome
    cases hSome

/- An event that starts nothing cannot be logged. -/
theorem TimerView.Accounted.fail
    {event : Event}
    (hAcc : v.Accounted T maxAttempts)
    (hNone :
      ∀ runId, event.startedAttempt? T runId = none)
    (hEvent : EventOk T maxAttempts v.logged event) :
    (v.fail event).Accounted T maxAttempts :=
  (hAcc.record hNone hEvent).mono rfl rfl
    (fun _ h => Or.inl h) (fun _ h => h) (le_refl _)

/- A first attempt is put into the heap. -/
theorem ids_push
    (v : TimerView)
    (T : TimerId)
    (next : DateTime) :
    (v.push T next).ids = v.ids := by
  have hEntries :
      (v.push T next).entries =
        firstEntry T next ::ₘ v.entries := by
    simp only [TimerView.entries, TimerView.push,
      Multiset.cons_add]
  unfold TimerView.ids
  rw [hEntries, Multiset.filterMap_cons_none _ _ rfl]
  rfl

theorem TimerView.Accounted.push
    (hAcc : v.Accounted T maxAttempts)
    (next : DateTime) :
    (v.push T next).Accounted T maxAttempts := by
  have hEntries :
      (v.push T next).entries =
        firstEntry T next ::ₘ v.entries := by
    simp only [TimerView.entries, TimerView.push,
      Multiset.cons_add]
  refine hAcc.mono rfl rfl ?_ (fun _ h => h) ?_
  · intro entry hMem
    rw [hEntries] at hMem
    rcases Multiset.mem_cons.mp hMem with hEq | hOld
    · right
      rw [hEq]
      exact ⟨rfl, rfl⟩
    · exact Or.inl hOld
  · exact le_of_eq (ids_push v T next)

/- Rescheduling starts and stores nothing. -/
theorem RescheduledView.ids
    {spec : TimerSpec}
    {from_ : DateTime}
    (hNext : RescheduledView cal T spec from_ v v') :
    v'.ids = v.ids := by
  cases hNext with
  | stopped _ => rfl
  | pushed next _ _ => exact ids_push v T next
  | cleared _ _ _ _ => rfl

theorem RescheduledView.accounted
    {spec : TimerSpec}
    {from_ : DateTime}
    (hAcc : v.Accounted T maxAttempts)
    (hNext : RescheduledView cal T spec from_ v v') :
    v'.Accounted T maxAttempts := by
  cases hNext with
  | stopped _ => exact hAcc
  | pushed next _ _ => exact hAcc.push next
  | cleared _ _ _ _ =>
      exact
        hAcc.mono rfl rfl (fun _ h => Or.inl h)
          (fun _ h => h) (le_refl _)

/- A due entry is skipped, fails to log or is started. -/
theorem StartView.accounted
    {spec : TimerSpec}
    {entry : ScheduledTimer}
    {io : StartIo}
    (hId : entry.timerId = T)
    (hAcc : v.Accounted T maxAttempts)
    (hTaken :
      Taken T v (entry.runIdOr io.freshId) entry.attempt)
    (hStart : StartView cal T spec entry io v v') :
    v'.Accounted T maxAttempts := by
  have hDue :
      (v.log (entry.dueEvent io)).Accounted T maxAttempts :=
    hAcc.logQuiet (fun _ => rfl) trivial (Or.inl rfl)
  have hEvent :
      entry.startedEvent io =
        .runStarted T (entry.runIdOr io.freshId) io.now
          entry.attempt := by
    rw [← hId]
    rfl
  have hNext :
      entry.attempt.toNat =
        (startedAttempts T (entry.runIdOr io.freshId)
          (v.log (entry.dueEvent io)).logged).length +
          1 := by
    rw [hTaken.next]
    have hSame :
        startedAttempts T (entry.runIdOr io.freshId)
            (v.logged ++ [entry.dueEvent io]) =
          startedAttempts T (entry.runIdOr io.freshId)
            v.logged :=
      startedAttempts_snoc_of_none rfl
    exact (congrArg (List.length · + 1) hSame).symm
  have hStarted :
      ((v.log (entry.dueEvent io)).record
        (entry.startedEvent io)).Accounted T
        maxAttempts := by
    rw [hEvent]
    exact hDue.recordStarted hTaken.out hNext
  have hLast :
      (startedAttempts T (entry.runIdOr io.freshId)
        ((v.log (entry.dueEvent io)).record
          (entry.startedEvent io)).logged).getLast? =
        some entry.attempt := by
    simp only [TimerView.record]
    rw [startedAttempts_snoc, hEvent]
    simp [Event.startedAttempt?]
  cases hStart with
  | notSkipped _ => exact hAcc.fail (fun _ => rfl) trivial
  | skipped _ _ _ hNext =>
      refine RescheduledView.accounted ?_ hNext
      exact
        hAcc.logQuiet (fun _ => rfl) trivial (Or.inl rfl)
  | notDue _ => exact hAcc.fail (fun _ => rfl) trivial
  | notStarted _ =>
      exact
        hStarted.mono rfl rfl (fun _ h => Or.inl h)
          (fun _ h => h) (le_refl _)
  | delayed _ =>
      exact
        (hStarted.mono rfl rfl (fun _ h => Or.inl h)
          (fun _ h => h) (le_refl _)).execute hTaken.out
          hTaken.stores hLast
  | started w _ _ hNext =>
      have hLogged :
          ((v.log (entry.dueEvent io)).log
            (entry.startedEvent io)).Accounted T
            maxAttempts :=
        hStarted.mono rfl rfl (fun _ h => Or.inl h)
          (fun _ h => h) (le_refl _)
      apply (hNext.accounted hLogged).execute
      · rw [hNext.ids]
        exact hTaken.out
      · unfold TimerView.Stores
        rw [hNext.frame]
        exact hTaken.stores
      · rw [hNext.frame]
        exact hLast

/- Clearing the heap only removes retries. -/
theorem TimerView.Accounted.dropNext
    (hAcc : v.Accounted T maxAttempts)
    (spec : TimerSpec) :
    (v.dropNext spec).Accounted T maxAttempts ∧
      (v.dropNext spec).ids ≤ v.ids := by
  unfold TimerView.dropNext
  split
  · exact ⟨hAcc, le_refl _⟩
  · have hEntries : v.dropEntries.entries ≤ v.entries := by
      unfold TimerView.entries TimerView.dropEntries
      simp only [zero_add]
      rw [add_assoc]
      exact Multiset.le_add_left _ _
    exact
      ⟨hAcc.fewer rfl rfl hEntries rfl,
        ids_le hEntries rfl⟩

/- The attempt that is read is the one of the run. -/
theorem readAttempt_eq
    {run : Execution}
    {io : FinishIo}
    {error : String}
    (hAcc : v.Accounted T maxAttempts)
    (hMem : run ∈ v.executing)
    (hOwn : OwnRetry v (.finish run io))
    (hResult : io.result = .error error) :
    v.readAttempt = run.attempt := by
  have hPending := hOwn ⟨error, hResult⟩
  unfold TimerView.readAttempt
  by_cases hFirst : run.attempt = 1
  · rw [if_pos hFirst] at hPending
    rw [hPending, hFirst]
    rfl
  · rw [if_neg hFirst] at hPending
    rcases Option.map_eq_some_iff.mp hPending with
      ⟨retry, hSome, hRun⟩
    have hStores := (hAcc.runs run hMem).1 hFirst
    rw [hSome]
    exact hStores retry hSome hRun

/- No retry has a number that does not fit. -/
theorem toNat_succ_of_retry
    {policy : RetryPolicy}
    {now retryAt : DateTime}
    {attempt : UInt32}
    (hRetry :
      policy.nextRetryAt now attempt =
        some (some retryAt)) :
    (attempt + 1).toNat = attempt.toNat + 1 := by
  unfold RetryPolicy.nextRetryAt at hRetry
  split at hRetry
  · cases hRetry
  · rename_i hLess
    have hLt : attempt.toNat < policy.maxAttempts.toNat :=
      UInt32.lt_iff_toNat_lt.mp (UInt32.not_le.mp hLess)
    have hMax := policy.maxAttempts.toNat_lt
    rw [UInt32.toNat_add]
    have hOne : (1 : UInt32).toNat = 1 := rfl
    rw [hOne]
    omega

theorem maxAttempts_le_of_dead
    {policy : RetryPolicy}
    {now : DateTime}
    {attempt : UInt32}
    (hRetry :
      policy.nextRetryAt now attempt = some none) :
    policy.maxAttempts ≤ attempt := by
  unfold RetryPolicy.nextRetryAt at hRetry
  split at hRetry
  · assumption
  · rcases Option.map_eq_some_iff.mp hRetry with ⟨_, _, hEq⟩
    cases hEq

/- A run that just failed, and waits for nothing yet. -/
structure JustFailed
    (T : TimerId)
    (run : Execution)
    (v : TimerView) : Prop where
  out : run.runId ∉ v.ids
  last :
    (startedAttempts T run.runId v.logged).getLast? =
      some run.attempt
  failed :
    ∃ finishedAt error,
      v.logged.getLast? =
        some
          (.runFailed T run.runId finishedAt error
            run.attempt)

/- The failure of a run is logged. -/
theorem TimerView.Accounted.logFailed
    {run : Execution}
    {io : FinishIo}
    {error : String}
    (hId : run.spec.id = T)
    (hAcc : v.Accounted T maxAttempts)
    (hOut : run.runId ∉ v.ids)
    (hLast :
      (startedAttempts T run.runId v.logged).getLast? =
        some run.attempt) :
    (v.log
        (run.failedEvent run.attempt error io)).Accounted T
        maxAttempts ∧
      JustFailed T run
        (v.log (run.failedEvent run.attempt error io)) := by
  refine
    ⟨hAcc.logQuiet (fun _ => rfl) hLast (Or.inl rfl), hOut,
      ?_, io.now, error, ?_⟩
  · have hSame :
        startedAttempts T run.runId
            (v.logged ++
              [run.failedEvent run.attempt error io]) =
          startedAttempts T run.runId v.logged :=
      startedAttempts_snoc_of_none rfl
    exact (congrArg List.getLast? hSame).trans hLast
  · rw [← hId]
    exact List.getLast?_concat

/- The retry of a run that failed is logged. -/
theorem TimerView.Accounted.logRetrying
    {run : Execution}
    {now retryAt : DateTime}
    (hAcc : v.Accounted T maxAttempts)
    (hFailed : JustFailed T run v)
    (hRetry :
      run.spec.retry.nextRetryAt now run.attempt =
        some (some retryAt)) :
    (v.record
        (run.retryingEvent run.attempt retryAt)).Accounted T
        maxAttempts ∧
      (v.log
        (run.retryingEvent run.attempt retryAt)).Accounted T
        maxAttempts := by
  rcases hFailed.failed with ⟨finishedAt, error, hEnd⟩
  have hRecorded :
      (v.record
        (run.retryingEvent run.attempt retryAt)).Accounted T
        maxAttempts :=
    hAcc.record (fun _ => rfl)
      ⟨finishedAt, error, run.attempt, hEnd,
        toNat_succ_of_retry hRetry⟩
  refine ⟨hRecorded, hRecorded.setPending ?_⟩
  intro retry hSome
  right
  cases hSome
  exact hFailed.out

/- The retry of a run that failed is put into the heap. -/
theorem TimerView.Accounted.pushRetrying
    {run : Execution}
    {now retryAt : DateTime}
    (hAcc : v.Accounted T maxAttempts)
    (hFailed : JustFailed T run v)
    (hRetry :
      run.spec.retry.nextRetryAt now run.attempt =
        some (some retryAt)) :
    ((v.log
      (run.retryingEvent run.attempt retryAt)).pushEntry
      (run.retryEntry run.attempt retryAt)).Accounted T
      maxAttempts := by
  refine
    (hAcc.logRetrying hFailed hRetry).2.pushRetry rfl
      hFailed.out ?_ ?_ (toNat_succ_of_retry hRetry)
  · intro retry hSome _
    cases hSome
    rfl
  · have hSame :
        startedAttempts T run.runId
            (v.logged ++
              [run.retryingEvent run.attempt retryAt]) =
          startedAttempts T run.runId v.logged :=
      startedAttempts_snoc_of_none rfl
    exact
      (congrArg List.getLast? hSame).trans hFailed.last

/- Clearing the heap keeps what is known of the run. -/
theorem JustFailed.dropNext
    {run : Execution}
    (hAcc : v.Accounted T maxAttempts)
    (hFailed : JustFailed T run v)
    (spec : TimerSpec) :
    JustFailed T run (v.dropNext spec) := by
  have hLogged : (v.dropNext spec).logged = v.logged := by
    unfold TimerView.dropNext
    split <;> rfl
  refine ⟨?_, ?_, ?_⟩
  · intro hMem
    exact
      hFailed.out
        (Multiset.mem_of_le (hAcc.dropNext spec).2 hMem)
  · rw [hLogged]
    exact hFailed.last
  · rw [hLogged]
    exact hFailed.failed

/- A run of the timer ends, and may be retried. -/
theorem FinishView.accounted
    {run : Execution}
    {io : FinishIo}
    {rest : Multiset Execution}
    (hId : run.spec.id = T)
    (hMax : run.spec.retry.maxAttempts = maxAttempts)
    (hAcc : v.Accounted T maxAttempts)
    (hExecuting : v.executing = run ::ₘ rest)
    (hOwn : OwnRetry v (.finish run io))
    (hFinish :
      FinishView cal T run io { v with executing := rest }
        v') :
    v'.Accounted T maxAttempts := by
  have hMem : run ∈ v.executing := by
    rw [hExecuting]
    simp
  rcases hAcc.release hExecuting with ⟨hBase, hOut⟩
  have hLast := (hAcc.runs run hMem).2
  have hRead :
      ∀ error, io.result = .error error →
        TimerView.readAttempt
            { v with executing := rest } =
          run.attempt := by
    intro error hResult
    have hEq : v.readAttempt = run.attempt :=
      readAttempt_eq hAcc hMem hOwn hResult
    exact hEq
  have hFailed :
      ∀ error,
        (TimerView.log { v with executing := rest }
            (run.failedEvent run.attempt error
              io)).Accounted T maxAttempts ∧
          JustFailed T run
            (TimerView.log { v with executing := rest }
              (run.failedEvent run.attempt error io)) :=
    fun _ => hBase.logFailed hId hOut hLast
  have hDead :
      ∀ error, io.result = .error error →
        run.spec.retry.nextRetryAt io.now
            (TimerView.readAttempt
              { v with executing := rest }) =
          some none →
        EventOk T maxAttempts
          (TimerView.log { v with executing := rest }
            (run.failedEvent run.attempt error
              io)).logged (run.deadEvent io) := by
    intro error hResult hNone
    refine ⟨run.attempt, (hFailed error).2.last, ?_⟩
    rw [hRead error hResult] at hNone
    rw [← hMax]
    exact maxAttempts_le_of_dead hNone
  cases hFinish with
  | notSucceeded _ => exact hBase.fail (fun _ => rfl) trivial
  | delayed _ _ hNext =>
      refine RescheduledView.accounted ?_ hNext
      exact
        hBase.logQuiet (fun _ => rfl) trivial (Or.inr rfl)
  | succeeded _ =>
      exact
        hBase.logQuiet (fun _ => rfl) trivial (Or.inr rfl)
  | notFailed error hResult _ =>
      rw [hRead error hResult]
      exact hBase.fail (fun _ => rfl) hLast
  | notRetrying error retryAt hResult hRetry _ =>
      rw [hRead error hResult] at hRetry ⊢
      rcases hFailed error with ⟨hLogged, hJust⟩
      have hDropped := (hLogged.dropNext run.spec).1
      have hRecorded :=
        (hDropped.logRetrying
          (hJust.dropNext hLogged run.spec) hRetry).1
      exact
        hRecorded.mono rfl rfl (fun _ h => Or.inl h)
          (fun _ h => h) (le_refl _)
  | retryStopped error retryAt hResult hRetry _ =>
      rw [hRead error hResult] at hRetry ⊢
      rcases hFailed error with ⟨hLogged, hJust⟩
      have hDropped := (hLogged.dropNext run.spec).1
      exact
        (hDropped.logRetrying
          (hJust.dropNext hLogged run.spec) hRetry).2
  | retrying error retryAt hResult hRetry _ =>
      rw [hRead error hResult] at hRetry ⊢
      rcases hFailed error with ⟨hLogged, hJust⟩
      have hDropped := (hLogged.dropNext run.spec).1
      exact
        hDropped.pushRetrying
          (hJust.dropNext hLogged run.spec) hRetry
  | notDead error hResult hRetry _ =>
      have hEvent := hDead error hResult hRetry
      rw [hRead error hResult]
      exact (hFailed error).1.fail (fun _ => rfl) hEvent
  | deadDelayed _ error hResult hRetry _ _ hNext =>
      have hEvent := hDead error hResult hRetry
      rw [hRead error hResult] at hNext
      refine RescheduledView.accounted ?_ hNext
      exact
        (hFailed error).1.logQuiet (fun _ => rfl) hEvent
          (Or.inr rfl)
  | dead error hResult hRetry _ =>
      have hEvent := hDead error hResult hRetry
      rw [hRead error hResult]
      exact
        (hFailed error).1.logQuiet (fun _ => rfl) hEvent
          (Or.inr rfl)

/- After a start only the log counts. -/
theorem TimerView.Fresh.accounted
    (hFresh : v.Fresh)
    (hLog : AccountedFor T maxAttempts v.logged) :
    v.Accounted T maxAttempts := by
  have hEntries : v.entries = 0 := by
    unfold TimerView.entries
    rw [hFresh.heap, hFresh.due, hFresh.spawned]
    rfl
  refine ⟨hLog, ?_, ?_, ?_, ?_⟩
  · unfold TimerView.ids
    rw [hEntries, hFresh.executing]
    exact Multiset.nodup_zero
  · simp [hEntries]
  · simp [hEntries]
  · simp [hFresh.executing]

/- Every step keeps the attempts right. -/
theorem accounted_step
    {label : TimerLabel}
    (hGiven :
      v.Given fun spec =>
        spec.retry.maxAttempts = maxAttempts)
    (hFresh : DrawsFresh v label)
    (hOwn : OwnRetry v label)
    (hAcc : v.Accounted T maxAttempts)
    (hStep : TimerStep cal T label v v') :
    v'.Accounted T maxAttempts := by
  cases hStep with
  | other _ _ _ _ _ _ _ =>
      exact
        hAcc.mono rfl rfl (fun _ h => Or.inl h)
          (fun _ h => h) (le_refl _)
  | schedule call _ stored _ _ _ hStore hNext =>
      have hStored :
          stored.register.Accounted T maxAttempts := by
        cases hStore with
        | known _ =>
            exact
              hAcc.mono rfl rfl (fun _ h => Or.inl h)
                (fun _ h => h) (le_refl _)
        | created _ _ =>
            exact
              hAcc.mono rfl rfl (fun _ h => Or.inl h)
                (fun _ h => h) (le_refl _)
        | updated _ _ _ _ =>
            refine hAcc.fewer rfl rfl ?_ rfl
            unfold TimerView.entries register update
            simp only [zero_add]
            rw [add_assoc]
            exact Multiset.le_add_left _ _
      cases hNext with
      | waiting _ => exact hStored
      | none _ _ _ _ => exact hStored
      | pushed next _ _ => exact hStored.push next
  | dispatch now _ popped kept _ hDue hHeap _ _ =>
      refine hAcc.fewer rfl rfl ?_ rfl
      unfold TimerView.entries
      rw [hDue, hHeap, add_zero, add_comm kept popped]
  | spawn _ entry rest _ hDue =>
      refine hAcc.fewer rfl rfl ?_ rfl
      unfold TimerView.entries
      rw [hDue, Multiset.add_cons, Multiset.add_cons,
        Multiset.cons_add]
  | dropDue _ _ =>
      refine hAcc.fewer rfl rfl ?_ rfl
      unfold TimerView.entries
      simp only [add_zero]
      exact add_le_add_left (Multiset.le_add_right _ _) _
  | start entry io spec rest _ _ hId hSpawned _ hStart =>
      rcases hAcc.take hFresh hSpawned with
        ⟨hTaken, hRun⟩
      exact StartView.accounted hId hTaken hRun hStart
  | finish run io rest _ _ hId hExecuting hFinish =>
      have hMax :=
        hGiven.runs run (by rw [hExecuting]; simp)
      exact
        FinishView.accounted hId hMax hAcc hExecuting hOwn
          hFinish
  | reopen _ _ hFresh hLogged =>
      apply hFresh.accounted
      rw [hLogged]
      exact hAcc.log

end Kron

------------------------------------------------------------
-- Attempt Accounting
------------------------------------------------------------

namespace Kron

/- The events about runs of a timer. -/
def Engine.runLog
    (engine : Engine)
    (T : TimerId) : List Event :=
  engine.inner.logged.filter fun event => event.IsRunOf T

/-
  In a run whose failures find no retry or their own, the
  log counts the attempts of every run of the timer.
-/
theorem attempts_accounted
    (cal : Calendar)
    (codec : JsonCodec LogEntry)
    (snaps : JsonCodec Snapshot)
    (dataDir : String)
    (dir : DataDir)
    (inner : Inner)
    (hOpen : openEngine codec snaps dataDir dir = .ok inner)
    (T : TimerId)
    (maxAttempts : UInt32)
    (sections : List Section)
    (hMax :
      (Engine.ofInner inner).EachStep cal codec snaps T
        (AsksFor fun spec =>
          spec.retry.maxAttempts = maxAttempts) sections)
    (hDraws :
      (Engine.ofInner inner).EachStep cal codec snaps T
        DrawsFresh sections)
    (hOwn :
      (Engine.ofInner inner).EachStep cal codec snaps T
        OwnRetry sections)
    (engine : Engine)
    (hRun :
      (Engine.ofInner inner).run cal codec snaps sections =
        some engine) :
    AccountedFor T maxAttempts (engine.runLog T) ∧
      ∀ runId,
        (startedAttempts T runId
          (engine.runLog T)).map UInt32.toNat =
          List.range' 1
            (startedAttempts T runId
              (engine.runLog T)).length := by
  have hInv :
      (engine.view T).Given
          (fun spec =>
            spec.retry.maxAttempts = maxAttempts) ∧
        (engine.view T).Accounted T maxAttempts := by
    refine
      opened_invariant T
        (fun v =>
          v.Given
              (fun spec =>
                spec.retry.maxAttempts = maxAttempts) ∧
            v.Accounted T maxAttempts) ?_ ?_ hOpen
        (hMax.and (hDraws.and hOwn)) hRun
    · intro v hFresh hNothing
      refine ⟨hFresh.given, hFresh.accounted ?_⟩
      rw [hNothing]
      exact .nil
    · rintro v label v' hWell ⟨hGiven, hAcc⟩
        ⟨hAsks, hFresh, hMine⟩ hStep
      exact
        ⟨hGiven.step hWell hAsks hStep,
          accounted_step hGiven hFresh hMine hAcc hStep⟩
  have hLog : AccountedFor T maxAttempts (engine.runLog T) :=
    hInv.2.log
  exact ⟨hLog, fun _ => attempts_eq_range hLog⟩

instance decidableIsError
    (result : Except String Unit) :
    Decidable (∃ error, result = .error error) :=
  match result with
  | .error error => isTrue ⟨error, rfl⟩
  | .ok _ => isFalse fun ⟨_, h⟩ => by cases h

instance
    (v : TimerView)
    (label : TimerLabel) :
    Decidable (DrawsFresh v label) :=
  match label with
  | .start entry io =>
      inferInstanceAs
        (Decidable
          (entry.runId = none →
            ∀ event ∈ v.logged,
              event.run?.map Prod.snd ≠ some io.freshId))
  | .other => isTrue trivial
  | .schedule _ => isTrue trivial
  | .dispatch _ => isTrue trivial
  | .spawn => isTrue trivial
  | .finish _ _ => isTrue trivial
  | .reopen => isTrue trivial

instance
    (v : TimerView)
    (label : TimerLabel) :
    Decidable (OwnRetry v label) :=
  match label with
  | .finish run io =>
      inferInstanceAs
        (Decidable
          ((∃ error, io.result = .error error) →
            if run.attempt = 1 then
              v.pending = none
            else
              v.pending.map Prod.fst = some run.runId))
  | .other => isTrue trivial
  | .schedule _ => isTrue trivial
  | .dispatch _ => isTrue trivial
  | .spawn => isTrue trivial
  | .start _ _ => isTrue trivial
  | .reopen => isTrue trivial

/- A run fails three times and is given up. -/
def triedThrice : List Section :=
  retryWaits ++
    [.dispatch (second 66),
      .spawn 0,
      .runStart 0 (startAt "run_2" 66),
      .runFinish 0 (finishAt (.error "boom") 67),
      .dispatch (second 72),
      .spawn 0,
      .runStart 0 (startAt "run_3" 72),
      .runFinish 0 (finishAt (.error "boom") 73)]

/- Whether a section draws a fresh id and reads its retry. -/
def drawsAndOwns
    (T : TimerId)
    (engine : Engine)
    (sec : Section) : Bool :=
  DrawsFresh (engine.view T) (engine.label T sec) &&
    OwnRetry (engine.view T) (engine.label T sec)

/- All three starts and failures carry their number. -/
theorem attempts_accounted_triedThrice :
    ∃ engine,
      emptyEngine.run utcCalendar logCodec noSnapshots
          triedThrice = some engine ∧
        startedAttempts "a" "run_1" (engine.runLog "a") =
          [1, 2, 3] ∧
        .runDead "a" "run_1" (second 73) ∈
          engine.runLog "a" ∧
        AccountedFor "a" 3 (engine.runLog "a") := by
  -- The run does not depend on the texts.
  generalize logCodec = codec
  generalize noSnapshots = snaps
  have hEval :
      (emptyEngine.run utcCalendar codec snaps
        triedThrice).map
          (fun e =>
            (startedAttempts "a" "run_1" (e.runLog "a"),
              (e.runLog "a").getLast?)) =
        some
          ([1, 2, 3],
            some (.runDead "a" "run_1" (second 73))) := by
    cbv
  have hChecked :
      (Machine.run
        (fun e sec =>
          if drawsAndOwns "a" e sec then
            Engine.step utcCalendar codec snaps e sec
          else
            none) emptyEngine triedThrice).isSome =
        true := by
    cbv
  rcases Option.map_eq_some_iff.mp hEval with
    ⟨engine, hRun, hEnd⟩
  simp only [Prod.mk.injEq] at hEnd
  rcases Option.isSome_iff_exists.mp hChecked with
    ⟨_, hCheckedRun⟩
  have hMeets := Machine.meets_of_checked hCheckedRun
  have hDraws :
      emptyEngine.EachStep utcCalendar codec snaps "a"
        DrawsFresh triedThrice := by
    refine
      hMeets.of_invariant (fun _ => True)
        (fun _ _ _ _ _ _ => trivial) ?_ trivial
    intro e sec _ hCheck
    exact
      of_decide_eq_true (Bool.and_eq_true_iff.mp hCheck).1
  have hOwn :
      emptyEngine.EachStep utcCalendar codec snaps "a"
        OwnRetry triedThrice := by
    refine
      hMeets.of_invariant (fun _ => True)
        (fun _ _ _ _ _ _ => trivial) ?_ trivial
    intro e sec _ hCheck
    exact
      of_decide_eq_true (Bool.and_eq_true_iff.mp hCheck).2
  have hMax :
      emptyEngine.EachStep utcCalendar codec snaps "a"
        (AsksFor fun spec => spec.retry.maxAttempts = 3)
        triedThrice := by
    apply eachStep_asksFor
    intro call hMem _ old
    simp only [triedThrice, retryWaits, List.cons_append,
      List.nil_append, List.mem_cons, List.not_mem_nil,
      or_false, Section.schedule.injEq, reduceCtorEq]
      at hMem
    rw [hMem]
    rfl
  refine
    ⟨engine, hRun, hEnd.1, List.mem_of_getLast? hEnd.2, ?_⟩
  exact
    (attempts_accounted utcCalendar codec snaps "/data" ∅ _
      (openEngine_empty codec snaps "/data") "a" 3
      triedThrice hMax hDraws hOwn engine hRun).1

/-
  The second of two runs that fail reads the attempt of the
  retry of the first one.
-/
theorem retryDropped_miscounts :
    emptyEngine.EachStep utcCalendar logCodec noSnapshots
        "a" KeepsSpec retryDropped ∧
      ∃ engine,
        emptyEngine.run utcCalendar logCodec noSnapshots
            retryDropped = some engine ∧
          startedAttempts "a" "run_2" (engine.runLog "a") =
            [1] ∧
          .runFailed "a" "run_2" (second 122) "boom" 2 ∈
            engine.runLog "a" ∧
          ¬ AccountedFor "a" 3 (engine.runLog "a") := by
  -- The run does not depend on the texts.
  generalize logCodec = codec
  generalize noSnapshots = snaps
  have hEval :
      (emptyEngine.run utcCalendar codec snaps
        retryDropped).map (fun e => e.runLog "a") =
        some
          ([.runDue "a" "run_1" (second 60),
              .runStarted "a" "run_1" (second 60) 1,
              .runDue "a" "run_2" (second 120),
              .runStarted "a" "run_2" (second 120) 1,
              .runFailed "a" "run_1" (second 121) "boom" 1,
              .runRetrying "a" "run_1" 2 (second 126)] ++
            .runFailed "a" "run_2" (second 122) "boom" 2 ::
              [.runRetrying "a" "run_2" 3 (second 127)]) := by
    cbv
  rcases Option.map_eq_some_iff.mp hEval with
    ⟨engine, hRun, hLog⟩
  refine
    ⟨keepsSpec_of_once rfl (by simp), engine, hRun, ?_, ?_,
      ?_⟩
  · rw [hLog]
    rfl
  · rw [hLog]
    simp
  · intro hAcc
    have hEvent := hAcc _ _ _ hLog
    have hEq : some (1 : UInt32) = some 2 := hEvent
    exact absurd hEq (by decide)

end Kron
