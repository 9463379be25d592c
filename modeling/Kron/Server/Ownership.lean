import Kron.Lib.Lease
import Kron.Server.StateMachine

/-
  Single ownership of timers under every command log.

  The history entries that name a timer form the ledger of
  an exclusive lease on it, held by its active run.

  Key definitions include:
    * `Kron.leaseEvents`
    * `Kron.UniqueTimers`
    * `Kron.SingleOwner`

  Key theorems include:
    * `Kron.applyKronCommand_leaseEvents`
    * `Kron.singleOwner_step`
    * `Kron.applyLog_alternates`
-/

------------------------------------------------------------
-- Ledgers Of Timers
------------------------------------------------------------

namespace Kron

/- What the end of a claim must repeat. -/
structure RunKey where
  runId : RunId
  workerId : String
  fencingToken : UInt64
deriving DecidableEq, Repr

def RunRecord.key
    (run : RunRecord) : RunKey where
  runId := run.runId
  workerId := run.workerId
  fencingToken := run.fencingToken

def PersistedActiveRun.key
    (active : PersistedActiveRun) : RunKey where
  runId := active.runId
  workerId := active.workerId
  fencingToken := active.fencingToken

/- What a history entry says of the lease on its timer. -/
def HistoryEntry.leaseEvent? :
    HistoryEntry → Option (TimerId × Lease.Event RunKey)
| .runClaimed run => some (run.timer, .claim run.key)
| .runSucceeded run => some (run.timer, .finish run.key)
| .runFailed run _ => some (run.timer, .finish run.key)
| .runLeaseExpired run => some (run.timer, .finish run.key)
| .timerCreated _ _ => none
| .workerRegistered _ => none

/- The part of an event that concerns a timer. -/
def eventOf
    (t : TimerId) :
    Option (TimerId × Lease.Event RunKey) →
      Option (Lease.Event RunKey)
| some (timer, event) =>
    if timer = t then some event else none
| none => none

/- The claims and ends of claims that name a timer. -/
def leaseEvents
    (t : TimerId)
    (history : List HistoryEntry) :
    List (Lease.Event RunKey) :=
  history.filterMap fun entry => eventOf t entry.leaseEvent?

/- What an effect adds to the ledger of its timer. -/
def RunEffect.leaseEvent? :
    RunEffect → Option (TimerId × Lease.Event RunKey)
| .keep => none
| .claimed active =>
    some (active.timerId, .claim active.key)
| .ended _ active =>
    some (active.timerId, .finish active.key)

@[simp] theorem leaseEvents_append
    (t : TimerId)
    (xs ys : List HistoryEntry) :
    leaseEvents t (xs ++ ys) =
      leaseEvents t xs ++ leaseEvents t ys :=
  List.filterMap_append

@[simp] theorem leaseEvents_singleton
    (t : TimerId)
    (entry : HistoryEntry) :
    leaseEvents t [entry] =
      (eventOf t entry.leaseEvent?).toList := by
  unfold leaseEvents
  cases hEvent : eventOf t entry.leaseEvent? with
  | none => simp [hEvent]
  | some event => simp [hEvent]

/- Each active run is listed under its own id. -/
def ActiveKeys
    (state : PersistedStateMachine) : Prop :=
  ∀ (runId : RunId) (active : PersistedActiveRun),
    state.activeRuns[runId]? = some active →
      active.runId = runId

/- Each command adds what its effect says to the ledger. -/
theorem applyKronCommand_leaseEvents
    {cal : Calendar}
    {state state' : PersistedStateMachine}
    {command : RaftCommand}
    (hKeys : ActiveKeys state)
    (hApply :
      applyKronCommand cal state command = some state')
    (t : TimerId) :
    leaseEvents t state'.history =
      leaseEvents t state.history ++
        (eventOf t
          (runEffect state command).leaseEvent?).toList := by
  have hQuiet :
      leaseEvents t state.history =
        leaseEvents t state.history ++
          (eventOf t RunEffect.keep.leaseEvent?).toList :=
    (List.append_nil _).symm
  cases command with
  | claimRun =>
      rcases applyKronCommand_claimRun hApply with
        ⟨hActive, rfl⟩ | ⟨hActive, rfl⟩
      · simpa [runEffect, hActive] using hQuiet
      · simp only [runEffect, hActive,
          PersistedStateMachine.startActive_history,
          leaseEvents_append, leaseEvents_singleton]
        rfl
  | completeRun =>
      rcases applyKronCommand_completeRun hApply with
        ⟨hOwned, rfl⟩ | ⟨active, hOwned, hComplete⟩
      · simpa [runEffect, hOwned, endOf] using hQuiet
      · rcases state.ownedRun_eq_some hOwned with
          ⟨hGet, rfl, _⟩
        have hKey := hKeys _ _ hGet
        subst hKey
        simp only [runEffect, hOwned, endOf,
          state.completeActive_history hComplete,
          leaseEvents_append, leaseEvents_singleton]
        rfl
  | failRun =>
      rcases applyKronCommand_failRun hApply with
        ⟨hOwned, rfl⟩ | ⟨active, hOwned, rfl⟩
      · simpa [runEffect, hOwned, endOf] using hQuiet
      · rcases state.ownedRun_eq_some hOwned with
          ⟨hGet, rfl, _⟩
        have hKey := hKeys _ _ hGet
        subst hKey
        simp only [runEffect, hOwned, endOf,
          PersistedStateMachine.failActive_history,
          leaseEvents_append, leaseEvents_singleton]
        rfl
  | expireRunLease =>
      rcases applyKronCommand_expireRunLease hApply with
        ⟨hGet, rfl⟩ | ⟨active, hGet, rfl⟩
      · simpa [runEffect, hGet, endOf] using hQuiet
      · simp only [runEffect, hGet, endOf,
          PersistedStateMachine.expireActive_history,
          leaseEvents_append, leaseEvents_singleton]
        rfl
  | createTimer spec nextRunAt =>
      cases hApply
      simp [runEffect, RunEffect.leaseEvent?, eventOf,
        HistoryEntry.leaseEvent?]
  | updateTimer spec nextRunAt =>
      cases hApply
      simp [runEffect, RunEffect.leaseEvent?, eventOf,
        HistoryEntry.leaseEvent?]
  | registerWorker =>
      cases hApply
      simp [runEffect, RunEffect.leaseEvent?, eventOf,
        HistoryEntry.leaseEvent?]
  | resumeTimer =>
      cases hApply
      simpa [runEffect] using hQuiet
  | _ =>
      cases hApply
      exact hQuiet

end Kron

------------------------------------------------------------
-- One Active Run A Timer
------------------------------------------------------------

namespace Kron

/- No timer has two active runs. -/
structure SingleOwner
    (state : PersistedStateMachine) : Prop where
  keys : ActiveKeys state
  single :
    ∀ (runId runId' : RunId)
      (active active' : PersistedActiveRun),
      state.activeRuns[runId]? = some active →
        state.activeRuns[runId']? = some active' →
          active.timerId = active'.timerId →
            runId = runId'

theorem singleOwner_default :
    SingleOwner .default where
  keys := by
    intro runId active hGet
    simp [PersistedStateMachine.default] at hGet
  single := by
    intro runId runId' active active' hGet
    simp [PersistedStateMachine.default] at hGet

/- A timer without active runs lists none. -/
theorem not_active_of_idle
    {state : PersistedStateMachine}
    {t : TimerId}
    (hIdle : state.hasActive t = false)
    {runId : RunId}
    {active : PersistedActiveRun}
    (hGet : state.activeRuns[runId]? = some active) :
    active.timerId ≠ t := by
  intro hTimer
  have hActive := (state.hasActive_iff t).mpr
    ⟨runId, active, hGet, hTimer⟩
  rw [hIdle] at hActive
  cases hActive

/- Any command keeps ownership single. -/
theorem singleOwner_step
    {cal : Calendar}
    {state state' : PersistedStateMachine}
    {command : RaftCommand}
    (hOwner : SingleOwner state)
    (hApply :
      applyKronCommand cal state command = some state') :
    SingleOwner state' := by
  have hRuns := applyKronCommand_activeRuns hApply
  cases hEffect : runEffect state command with
  | keep =>
      rw [hEffect] at hRuns
      constructor
      · intro runId active hGet
        rw [hRuns] at hGet
        exact hOwner.keys runId active hGet
      · intro runId runId' active active' hGet hGet'
        rw [hRuns] at hGet hGet'
        exact hOwner.single _ _ _ _ hGet hGet'
  | ended gone active₀ =>
      rw [hEffect] at hRuns
      have hSub :
          ∀ (r : RunId) (a : PersistedActiveRun),
            state'.activeRuns[r]? = some a →
              state.activeRuns[r]? = some a := by
        intro r a hGet
        rw [hRuns, RunEffect.activeRuns,
          BTreeMap.get_erase] at hGet
        by_cases hEq : gone = r
        · simp [hEq] at hGet
        · simpa [hEq] using hGet
      constructor
      · intro runId active hGet
        exact hOwner.keys _ _ (hSub _ _ hGet)
      · intro runId runId' active active' hGet hGet'
        exact hOwner.single _ _ _ _ (hSub _ _ hGet)
          (hSub _ _ hGet')
  | claimed taken =>
      rw [hEffect] at hRuns
      rcases runEffect_eq_claimed hEffect with ⟨_, hIdle⟩
      have hSub :
          ∀ (r : RunId) (a : PersistedActiveRun),
            state'.activeRuns[r]? = some a →
              (r = taken.runId ∧ a = taken) ∨
                state.activeRuns[r]? = some a := by
        intro r a hGet
        rw [hRuns, RunEffect.activeRuns,
          BTreeMap.get_insert] at hGet
        by_cases hEq : taken.runId = r
        · rw [if_pos hEq] at hGet
          exact .inl
            ⟨hEq.symm, (Option.some.inj hGet).symm⟩
        · rw [if_neg hEq] at hGet
          exact .inr hGet
      constructor
      · intro runId active hGet
        rcases hSub _ _ hGet with ⟨rfl, rfl⟩ | hOld
        · rfl
        · exact hOwner.keys _ _ hOld
      · intro runId runId' active active' hGet hGet' hTimer
        rcases hSub _ _ hGet with ⟨rfl, rfl⟩ | hOld
        · rcases hSub _ _ hGet' with ⟨rfl, rfl⟩ | hOld'
          · rfl
          · exact absurd hTimer.symm
              (not_active_of_idle hIdle hOld')
        · rcases hSub _ _ hGet' with ⟨rfl, rfl⟩ | hOld'
          · exact absurd hTimer
              (not_active_of_idle hIdle hOld)
          · exact hOwner.single _ _ _ _ hOld hOld' hTimer

/- Ownership is single after any log. -/
theorem singleOwner_applyLog
    {cal : Calendar}
    {log : List RaftCommand}
    {state state' : PersistedStateMachine}
    (hOwner : SingleOwner state)
    (hApply : applyLog cal state log = some state') :
    SingleOwner state' :=
  Machine.run_invariant SingleOwner
    (fun _ _ _ hInv _ hStep => singleOwner_step hInv hStep)
    hOwner
    (Machine.meets_of_forall (fun _ _ => True) _
      fun _ _ _ => trivial)
    hApply

end Kron

------------------------------------------------------------
-- The Lease On A Timer
------------------------------------------------------------

namespace Kron

/- The run and the timer a claim names. -/
def RaftCommand.claim? :
    RaftCommand → Option (RunId × TimerId)
| .claimRun timerId runId _ _ _ _ => some (runId, timerId)
| _ => none

/- No run id is claimed for two different timers. -/
def UniqueTimers
    (log : List RaftCommand) : Prop :=
  ∀ p ∈ log.filterMap RaftCommand.claim?,
    ∀ q ∈ log.filterMap RaftCommand.claim?,
      p.1 = q.1 → p.2 = q.2

instance
    (log : List RaftCommand) :
    Decidable (UniqueTimers log) :=
  inferInstanceAs (Decidable (∀ p ∈ _, ∀ q ∈ _, _))

/- The timer has an active run under the given key. -/
def HeldBy
    (state : PersistedStateMachine)
    (t : TimerId)
    (key : RunKey) : Prop :=
  ∃ (runId : RunId) (active : PersistedActiveRun),
    state.activeRuns[runId]? = some active ∧
      active.timerId = t ∧ active.key = key

/-
  Active runs come from claims of the log, and the ledger of
  each timer is legal and leaves its active run as holder.
-/
structure Ledgers
    (log : List RaftCommand)
    (state : PersistedStateMachine) : Prop where
  owner : SingleOwner state
  claimed :
    ∀ (runId : RunId) (active : PersistedActiveRun),
      state.activeRuns[runId]? = some active →
        (runId, active.timerId) ∈
          log.filterMap RaftCommand.claim?
  held :
    ∀ t, ∃ holder,
      Lease.Holds (leaseEvents t state.history) holder ∧
        ∀ key, holder = some key ↔ HeldBy state t key

theorem ledgers_default
    (log : List RaftCommand) :
    Ledgers log .default where
  owner := singleOwner_default
  claimed := by
    intro runId active hGet
    simp [PersistedStateMachine.default] at hGet
  held := by
    intro t
    refine ⟨none, Lease.holds_nil, ?_⟩
    intro key
    simp [HeldBy, PersistedStateMachine.default]

/- A command that keeps the active runs keeps the ledgers. -/
private theorem ledgers_keep
    {cal : Calendar}
    {log : List RaftCommand}
    {state state' : PersistedStateMachine}
    {command : RaftCommand}
    (hLedgers : Ledgers log state)
    (hApply :
      applyKronCommand cal state command = some state')
    (hEffect : runEffect state command = .keep) :
    Ledgers log state' := by
  have hRuns := applyKronCommand_activeRuns hApply
  rw [hEffect] at hRuns
  refine ⟨singleOwner_step hLedgers.owner hApply, ?_, ?_⟩
  · intro runId active hGet
    rw [hRuns] at hGet
    exact hLedgers.claimed runId active hGet
  · intro t
    rcases hLedgers.held t with ⟨holder, hHolds, hKeys⟩
    refine ⟨holder, ?_, ?_⟩
    · rw [applyKronCommand_leaseEvents hLedgers.owner.keys
        hApply, hEffect]
      simpa [RunEffect.leaseEvent?, eventOf] using hHolds
    · intro key
      rw [hKeys]
      unfold HeldBy
      rw [hRuns]
      rfl

/- A claim takes the lease on its idle timer. -/
private theorem ledgers_claimed
    {cal : Calendar}
    {log : List RaftCommand}
    {state state' : PersistedStateMachine}
    {command : RaftCommand}
    {taken : PersistedActiveRun}
    (hUnique : UniqueTimers log)
    (hMem : command ∈ log)
    (hLedgers : Ledgers log state)
    (hApply :
      applyKronCommand cal state command = some state')
    (hEffect : runEffect state command = .claimed taken) :
    Ledgers log state' := by
  have hRuns := applyKronCommand_activeRuns hApply
  rw [hEffect] at hRuns
  rcases runEffect_eq_claimed hEffect with ⟨rfl, hIdle⟩
  have hClaim :
      (taken.runId, taken.timerId) ∈
        log.filterMap RaftCommand.claim? :=
    List.mem_filterMap.mpr ⟨_, hMem, rfl⟩
  -- an active run of this id would be of the same timer
  have hFresh : state.activeRuns[taken.runId]? = none := by
    cases hGet : state.activeRuns[taken.runId]? with
    | none => rfl
    | some active =>
        have hOld := hLedgers.claimed _ _ hGet
        have hSame := hUnique _ hOld _ hClaim rfl
        exact absurd hSame (not_active_of_idle hIdle hGet)
  have hGet' :
      ∀ r : RunId,
        state'.activeRuns[r]? =
          if taken.runId = r then some taken
          else state.activeRuns[r]? := by
    intro r
    rw [hRuns]
    exact BTreeMap.get_insert _ _ _ _
  refine ⟨singleOwner_step hLedgers.owner hApply, ?_, ?_⟩
  · intro runId active hGet
    rw [hGet'] at hGet
    by_cases hEq : taken.runId = runId
    · rw [if_pos hEq] at hGet
      cases hGet
      exact hEq ▸ hClaim
    · rw [if_neg hEq] at hGet
      exact hLedgers.claimed runId active hGet
  · intro t
    rcases hLedgers.held t with ⟨holder, hHolds, hKeys⟩
    rw [applyKronCommand_leaseEvents hLedgers.owner.keys
      hApply, hEffect]
    by_cases hTimer : taken.timerId = t
    · -- the timer was idle, so its lease was free
      have hFree : holder = none := by
        cases hHolder : holder with
        | none => rfl
        | some key =>
            rcases (hKeys key).mp hHolder with
              ⟨r, a, hGet, hOf, _⟩
            exact absurd (hOf.trans hTimer.symm)
              (not_active_of_idle hIdle hGet)
      subst hFree
      refine ⟨some taken.key, ?_, ?_⟩
      · simpa [RunEffect.leaseEvent?, eventOf, hTimer]
          using Lease.holds_claim taken.key hHolds
      · intro key
        constructor
        · intro hKey
          exact ⟨taken.runId, taken, by simp [hGet'],
            hTimer, Option.some.inj hKey⟩
        · rintro ⟨r, a, hGet, hOf, rfl⟩
          rw [hGet'] at hGet
          by_cases hEq : taken.runId = r
          · rw [if_pos hEq] at hGet
            rw [Option.some.inj hGet]
          · rw [if_neg hEq] at hGet
            exact absurd (hOf.trans hTimer.symm)
              (not_active_of_idle hIdle hGet)
    · refine ⟨holder, ?_, ?_⟩
      · simpa [RunEffect.leaseEvent?, eventOf, hTimer]
          using hHolds
      · intro key
        rw [hKeys]
        constructor
        · rintro ⟨r, a, hGet, hOf, hKey⟩
          refine ⟨r, a, ?_, hOf, hKey⟩
          have hNe : taken.runId ≠ r := by
            intro hEq
            rw [← hEq, hFresh] at hGet
            cases hGet
          rw [hGet', if_neg hNe]
          exact hGet
        · rintro ⟨r, a, hGet, hOf, hKey⟩
          rw [hGet'] at hGet
          by_cases hEq : taken.runId = r
          · rw [if_pos hEq] at hGet
            cases hGet
            exact absurd hOf hTimer
          · rw [if_neg hEq] at hGet
            exact ⟨r, a, hGet, hOf, hKey⟩

/- The end of a run gives the lease on its timer back. -/
private theorem ledgers_ended
    {cal : Calendar}
    {log : List RaftCommand}
    {state state' : PersistedStateMachine}
    {command : RaftCommand}
    {gone : RunId}
    {active₀ : PersistedActiveRun}
    (hLedgers : Ledgers log state)
    (hApply :
      applyKronCommand cal state command = some state')
    (hEffect :
      runEffect state command = .ended gone active₀) :
    Ledgers log state' := by
  have hRuns := applyKronCommand_activeRuns hApply
  rw [hEffect] at hRuns
  have hGone := runEffect_eq_ended hEffect
  have hGet' :
      ∀ (r : RunId) (a : PersistedActiveRun),
        state'.activeRuns[r]? = some a ↔
          gone ≠ r ∧ state.activeRuns[r]? = some a := by
    intro r a
    rw [hRuns, RunEffect.activeRuns, BTreeMap.get_erase]
    by_cases hEq : gone = r <;> simp [hEq]
  refine ⟨singleOwner_step hLedgers.owner hApply, ?_, ?_⟩
  · intro runId active hGet
    exact hLedgers.claimed _ _ ((hGet' _ _).mp hGet).2
  · intro t
    rcases hLedgers.held t with ⟨holder, hHolds, hKeys⟩
    rw [applyKronCommand_leaseEvents hLedgers.owner.keys
      hApply, hEffect]
    by_cases hTimer : active₀.timerId = t
    · have hHeld : holder = some active₀.key :=
        (hKeys _).mpr ⟨gone, active₀, hGone, hTimer, rfl⟩
      subst hHeld
      refine ⟨none, ?_, ?_⟩
      · simpa [RunEffect.leaseEvent?, eventOf, hTimer]
          using Lease.holds_finish hHolds
      · intro key
        constructor
        · intro hKey
          cases hKey
        · rintro ⟨r, a, hGet, hOf, _⟩
          rcases (hGet' r a).mp hGet with ⟨hNe, hOld⟩
          exact absurd
            (hLedgers.owner.single _ _ _ _ hGone hOld
              (hTimer.trans hOf.symm)) hNe
    · refine ⟨holder, ?_, ?_⟩
      · simpa [RunEffect.leaseEvent?, eventOf, hTimer]
          using hHolds
      · intro key
        rw [hKeys]
        constructor
        · rintro ⟨r, a, hGet, hOf, hKey⟩
          refine ⟨r, a, (hGet' r a).mpr ⟨?_, hGet⟩, hOf,
            hKey⟩
          intro hEq
          rw [← hEq, hGone] at hGet
          cases hGet
          exact hTimer hOf
        · rintro ⟨r, a, hGet, hOf, hKey⟩
          exact ⟨r, a, ((hGet' r a).mp hGet).2, hOf, hKey⟩

/- Any command of the log keeps the ledgers. -/
theorem ledgers_step
    {cal : Calendar}
    {log : List RaftCommand}
    {state state' : PersistedStateMachine}
    {command : RaftCommand}
    (hUnique : UniqueTimers log)
    (hMem : command ∈ log)
    (hLedgers : Ledgers log state)
    (hApply :
      applyKronCommand cal state command = some state') :
    Ledgers log state' := by
  cases hEffect : runEffect state command with
  | keep => exact ledgers_keep hLedgers hApply hEffect
  | claimed taken =>
      exact ledgers_claimed hUnique hMem hLedgers hApply
        hEffect
  | ended gone active =>
      exact ledgers_ended hLedgers hApply hEffect

/- Any part of the log keeps the ledgers. -/
theorem ledgers_applyLog
    {cal : Calendar}
    {log commands : List RaftCommand}
    {state state' : PersistedStateMachine}
    (hUnique : UniqueTimers log)
    (hMem : ∀ command ∈ commands, command ∈ log)
    (hLedgers : Ledgers log state)
    (hApply : applyLog cal state commands = some state') :
    Ledgers log state' := by
  unfold applyLog at hApply
  induction commands generalizing state with
  | nil =>
      cases hApply
      exact hLedgers
  | cons command commands ih =>
      rcases Machine.run_cons_eq_some hApply with
        ⟨next, hStep, hRest⟩
      apply ih
      · intro c hc
        exact hMem c (List.mem_cons_of_mem _ hc)
      · exact ledgers_step hUnique
          (hMem command List.mem_cons_self) hLedgers hStep
      · exact hRest

/-
  After every prefix of a log in which no run id is claimed
  for two timers, active runs are listed under their own id,
  one a timer, and the history of a timer alternates claims
  and ends of the same run, the last one a claim exactly when
  the timer has an active run.
-/
theorem applyLog_alternates
    (cal : Calendar)
    (before after : List RaftCommand)
    (hUnique : UniqueTimers (before ++ after))
    (state : PersistedStateMachine)
    (hApply : applyLog cal .default before = some state) :
    SingleOwner state ∧
      ∀ t,
        Lease.Alternates (leaseEvents t state.history) ∧
          ((∃ key, (leaseEvents t state.history).getLast? =
              some (.claim key)) ↔
            ∃ active ∈ state.activeRuns.vals,
              active.timerId = t) := by
  have hLedgers :=
    ledgers_applyLog hUnique
      (fun _ hc => List.mem_append_left _ hc)
      (ledgers_default _) hApply
  refine ⟨hLedgers.owner, ?_⟩
  intro t
  rcases hLedgers.held t with ⟨holder, hHolds, hKeys⟩
  refine ⟨Lease.alternates_of_holds hHolds, ?_⟩
  constructor
  · rintro ⟨key, hLast⟩
    have hHolder :=
      (Lease.getLast?_claim_iff_of_holds hHolds key).mp hLast
    rcases (hKeys key).mp hHolder with
      ⟨r, a, hGet, hTimer, _⟩
    exact ⟨a, (BTreeMap.mem_vals_iff _ _).mpr ⟨r, hGet⟩,
      hTimer⟩
  · rintro ⟨a, hActive, hTimer⟩
    rcases (BTreeMap.mem_vals_iff _ _).mp hActive with
      ⟨r, hGet⟩
    refine ⟨a.key, ?_⟩
    exact
      (Lease.getLast?_claim_iff_of_holds hHolds a.key).mpr
        ((hKeys a.key).mpr ⟨r, a, hGet, hTimer, rfl⟩)

/- A claim, its completion, a late failure and a claim. -/
def sampleLog : List RaftCommand :=
  [.claimRun "t" "r1" "w1" 1 1 30,
    .completeRun "r1" "w1" 1 10,
    .failRun "r1" "w1" 1 "late" 11,
    .claimRun "t" "r2" "w2" 2 1 60]

theorem applyLog_alternates_sampleLog :
    ∃ state,
      applyLog utcCalendar .default sampleLog = some state ∧
        (leaseEvents "t" state.history).length = 3 ∧
          Lease.Alternates
            (leaseEvents "t" state.history) := by
  refine ⟨_, rfl, by decide, ?_⟩
  exact
    ((applyLog_alternates utcCalendar sampleLog []
      (by decide) _ rfl).2 "t").1

end Kron
