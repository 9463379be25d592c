import Kron.Server.RunIds

/-
  Attempts at one occurrence of a timer.

  A poll does not look at the state of a timer nor at the
  queue of retries, and a failed or expired run leaves the
  next run as it is.

  Key definitions include:
    * `Kron.TimerChange`
    * `Kron.claims`
    * `Kron.retries`
    * `Kron.AttemptCall`
    * `Kron.AttemptStep`

  Key theorems include:
    * `Kron.timerChange_of_apply`
    * `Kron.claims_le_maxAttempts`
    * `Kron.claims_of_failed`
-/

------------------------------------------------------------
-- Changes Of One Timer
------------------------------------------------------------

namespace Kron

/- The lifecycle state of a stored timer. -/
def stateOf
    (t : TimerId)
    (state : PersistedStateMachine) : Option TimerState :=
  (state.timers[t]?).map PersistedTimer.state

/- The occurrence of a timer that a commit retries. -/
def retriedOccurrence
    (t : TimerId)
    (commit : PersistedStateMachine × Proposal) :
    Option DateTime :=
  match commit.2.command with
  | .expireRunLease runId (some _) _ =>
      match commit.1.activeRuns[runId]? with
      | some active =>
          if active.timerId = t then
            commit.1.nextRuns[t]?
          else
            none
      | none => none
  | _ => none

/- All that a commit can do to one timer. -/
inductive TimerChange
    (cal : Calendar)
    (t : TimerId)
    (state : PersistedStateMachine)
    (p : Proposal)
    (state' : PersistedStateMachine) : Prop
| quiet
    (hState : stateOf t state' = stateOf t state)
    (hNext : state'.nextRuns[t]? = state.nextRuns[t]?)
    (hActive : state'.hasActive t = state.hasActive t)
    (hClaim : acceptedOccurrence t (state, p) = none)
    (hRetry : retriedOccurrence t (state, p) = none)
| created
    (hCreated : p.command.created? = some t)
    (hState : stateOf t state' = some .scheduled)
    (hActive : state'.hasActive t = state.hasActive t)
    (hClaim : acceptedOccurrence t (state, p) = none)
    (hRetry : retriedOccurrence t (state, p) = none)
| claimed
    (pick : Pick)
    (hPick : p.pick = some pick)
    (hClaim :
      acceptedOccurrence t (state, p) =
        some pick.occurrence)
    (hState :
      stateOf t state' =
        (stateOf t state).map fun _ => .running)
    (hNext : state'.nextRuns[t]? = state.nextRuns[t]?)
    (hIdle : state.hasActive t = false)
    (hActive : state'.hasActive t = true)
    (hRetry : retriedOccurrence t (state, p) = none)
| completed
    (runId : RunId)
    (completedAt : DateTime)
    (hDone :
      completion t state p.command =
        some (runId, completedAt))
    (hState :
      stateOf t state' =
        (stateOf t state).map fun _ => .scheduled)
    (hNext :
      ∀ timer, state.timers[t]? = some timer →
        state'.nextRuns[t]? =
          timer.rescheduledAt cal completedAt)
    (hActive : state.hasActive t = true)
    (hIdle : state'.hasActive t = false)
    (hClaim : acceptedOccurrence t (state, p) = none)
    (hRetry : retriedOccurrence t (state, p) = none)
| killed
    (hState :
      stateOf t state' =
        (stateOf t state).map fun _ => .dead)
    (hNext : state'.nextRuns[t]? = state.nextRuns[t]?)
    (hActive : state.hasActive t = true)
    (hIdle : state'.hasActive t = false)
    (hClaim : acceptedOccurrence t (state, p) = none)
    (hRetry : retriedOccurrence t (state, p) = none)
| retried
    (hState :
      stateOf t state' =
        (stateOf t state).map fun _ => .retrying)
    (hNext : state'.nextRuns[t]? = state.nextRuns[t]?)
    (hActive : state.hasActive t = true)
    (hIdle : state'.hasActive t = false)
    (hClaim : acceptedOccurrence t (state, p) = none)
    (hRetry :
      retriedOccurrence t (state, p) = state.nextRuns[t]?)

section Change

variable {cal : Calendar}
variable {t : TimerId}
variable {state state' : PersistedStateMachine}
variable {proposed : List Proposal}
variable {p : Proposal}

/- A commit that takes and ends no run keeps who is active. -/
private theorem hasActive_of_keep
    (hApply :
      applyKronCommand cal state p.command = some state')
    (hEffect : runEffect state p.command = .keep) :
    state'.hasActive t = state.hasActive t := by
  have hRuns := applyKronCommand_activeRuns hApply
  rw [hEffect] at hRuns
  unfold PersistedStateMachine.hasActive
  rw [hRuns]
  rfl

/- A commit about runs of other timers keeps who is active. -/
private theorem hasActive_of_other
    (hIds : RunIdsOk state proposed)
    (hTraced : Traced proposed p)
    (hApply :
      applyKronCommand cal state p.command = some state')
    (hClaimed :
      ∀ active, runEffect state p.command = .claimed active →
        active.timerId ≠ t)
    (hEnded :
      ∀ runId active,
        runEffect state p.command = .ended runId active →
          active.timerId ≠ t) :
    state'.hasActive t = state.hasActive t := by
  cases hActive : state.hasActive t with
  | true =>
      exact active_step hIds hTraced hApply hActive hEnded
  | false => exact idle_step hApply hActive hClaimed

private theorem acceptedOccurrence_of_not_claimed
    (hNot :
      ∀ active, runEffect state p.command = .claimed active →
        active.timerId ≠ t) :
    acceptedOccurrence t (state, p) = none := by
  cases hOccurrence : acceptedOccurrence t (state, p) with
  | none => rfl
  | some n =>
      rcases acceptedOccurrence_eq_some hOccurrence with
        ⟨active, _, hEffect, hTimer, _⟩
      exact absurd hTimer (hNot active hEffect)

/- A commit that touches neither runs nor timers. -/
private theorem timerChange_quiet
    (hApply :
      applyKronCommand cal state p.command = some state')
    (hEffect : runEffect state p.command = .keep)
    (hRetry : retriedOccurrence t (state, p) = none)
    (hTimer : state'.timers[t]? = state.timers[t]?)
    (hNext : state'.nextRuns[t]? = state.nextRuns[t]?) :
    TimerChange cal t state p state' := by
  refine .quiet ?_ hNext (hasActive_of_keep hApply hEffect)
    ?_ hRetry
  · unfold stateOf
    rw [hTimer]
  · apply acceptedOccurrence_of_not_claimed
    intro active hClaimed
    rw [hEffect] at hClaimed
    cases hClaimed

private theorem timerChange_create
    {spec : DistributedTimerSpec}
    {next : Option DateTime}
    (hCommand : p.command = .createTimer spec next)
    (hApply :
      applyKronCommand cal state p.command = some state') :
    TimerChange cal t state p state' := by
  have hEffect : runEffect state p.command = .keep := by
    rw [hCommand]
    rfl
  have hRetry : retriedOccurrence t (state, p) = none := by
    simp [retriedOccurrence, hCommand]
  have hState' : state' = state.putTimer spec next := by
    rw [hCommand] at hApply
    exact (Option.some.inj hApply).symm
  by_cases hId : spec.id = t
  · refine .created ?_ ?_ (hasActive_of_keep hApply hEffect)
      ?_ hRetry
    · rw [hCommand, ← hId]
      rfl
    · unfold stateOf
      rw [hState', state.get_putTimer, if_pos hId]
      rfl
    · apply acceptedOccurrence_of_not_claimed
      intro active hClaimed
      rw [hEffect] at hClaimed
      cases hClaimed
  · apply timerChange_quiet hApply hEffect hRetry
    · rw [hState', state.get_putTimer, if_neg hId]
    · rw [hState', state.nextRuns_putTimer, if_neg hId]

private theorem timerChange_claim
    {timerId : TimerId}
    {runId : RunId}
    {workerId : String}
    {token : UInt64}
    {attempt : UInt32}
    {deadline : DateTime}
    (hIds : RunIdsOk state proposed)
    (hTraced : Traced proposed p)
    (hPicked : ClaimsPicked p)
    (hCommand :
      p.command =
        .claimRun timerId runId workerId token attempt
          deadline)
    (hApply :
      applyKronCommand cal state p.command = some state') :
    TimerChange cal t state p state' := by
  have hRetry : retriedOccurrence t (state, p) = none := by
    simp [retriedOccurrence, hCommand]
  have hApply' := hApply
  rw [hCommand] at hApply'
  rcases applyKronCommand_claimRun hApply' with
    ⟨hActive, hEq⟩ | ⟨hIdle, hEq⟩
  · apply timerChange_quiet hApply _ hRetry
    · rw [hEq]
    · rw [hEq]
    · simp [hCommand, runEffect, hActive]
  · have hEffect :
        runEffect state p.command =
          .claimed
            { timerId := timerId
              runId := runId
              workerId := workerId
              fencingToken := token
              attempt := attempt
              leaseDeadline := deadline } := by
      simp [hCommand, runEffect, hIdle]
    by_cases hTimer : timerId = t
    · have hSome :=
        hPicked (runId, timerId)
          (by simp [hCommand, RaftCommand.claim?])
      rcases Option.isSome_iff_exists.mp hSome with
        ⟨pick, hPick⟩
      refine .claimed pick hPick ?_ ?_ ?_ ?_ ?_ hRetry
      · simp [acceptedOccurrence, accepted, hEffect, hPick,
          hTimer]
      · unfold stateOf
        rw [hEq, state.get_startActive, if_pos hTimer]
        cases state.timers[t]? <;> rfl
      · rw [hEq]
        rfl
      · rw [← hTimer]
        exact hIdle
      · rw [hEq]
        exact (PersistedStateMachine.hasActive_iff _ t).mpr
          ⟨runId, _, Std.ExtTreeMap.getElem?_insert_self,
            hTimer⟩
    · have hOther :
          ∀ active,
            runEffect state p.command = .claimed active →
              active.timerId ≠ t := by
        intro active hClaimed
        rw [hEffect] at hClaimed
        cases hClaimed
        exact hTimer
      refine .quiet ?_ ?_ ?_
        (acceptedOccurrence_of_not_claimed hOther) hRetry
      · unfold stateOf
        rw [hEq, state.get_startActive, if_neg hTimer]
      · rw [hEq]
        rfl
      · apply hasActive_of_other hIds hTraced hApply hOther
        intro r active hEnded
        rw [hEffect] at hEnded
        cases hEnded

/- The end of a run of another timer is quiet. -/
private theorem timerChange_ended_other
    {runId : RunId}
    {active : PersistedActiveRun}
    (hIds : RunIdsOk state proposed)
    (hTraced : Traced proposed p)
    (hApply :
      applyKronCommand cal state p.command = some state')
    (hEffect : runEffect state p.command = .ended runId active)
    (hTimer : active.timerId ≠ t)
    (hRetry : retriedOccurrence t (state, p) = none)
    (hTimers : state'.timers[t]? = state.timers[t]?)
    (hNext : state'.nextRuns[t]? = state.nextRuns[t]?) :
    TimerChange cal t state p state' := by
  have hNot :
      ∀ taken,
        runEffect state p.command = .claimed taken →
          taken.timerId ≠ t := by
    intro taken hClaimed
    rw [hEffect] at hClaimed
    cases hClaimed
  refine .quiet ?_ hNext ?_
    (acceptedOccurrence_of_not_claimed hNot) hRetry
  · unfold stateOf
    rw [hTimers]
  · apply hasActive_of_other hIds hTraced hApply hNot
    intro r a hEnded
    rw [hEffect] at hEnded
    cases hEnded
    exact hTimer

/- A commit that ends a run accepts no claim. -/
private theorem acceptedOccurrence_of_ended
    {runId : RunId}
    {active : PersistedActiveRun}
    (hEffect :
      runEffect state p.command = .ended runId active) :
    acceptedOccurrence t (state, p) = none := by
  apply acceptedOccurrence_of_not_claimed
  intro taken hClaimed
  rw [hEffect] at hClaimed
  cases hClaimed

private theorem timerChange_complete
    {runId : RunId}
    {workerId : String}
    {token : UInt64}
    {completedAt : DateTime}
    (hIds : RunIdsOk state proposed)
    (hTraced : Traced proposed p)
    (hIssued : p.command.issued = true)
    (hCommand :
      p.command =
        .completeRun runId workerId token completedAt)
    (hApply :
      applyKronCommand cal state p.command = some state') :
    TimerChange cal t state p state' := by
  have hRetry : retriedOccurrence t (state, p) = none := by
    simp [retriedOccurrence, hCommand]
  have hApply' := hApply
  rw [hCommand] at hApply'
  rcases applyKronCommand_completeRun hApply' with
    ⟨hOwned, hEq⟩ | ⟨active, hOwned, hComplete⟩
  · apply timerChange_quiet hApply _ hRetry
    · rw [hEq]
    · rw [hEq]
    · simp [hCommand, runEffect, hOwned, endOf]
  · have hEffect :
        runEffect state p.command = .ended runId active := by
      simp [hCommand, runEffect, hOwned, endOf]
    have hTimers := state.get_completeActive hComplete t
    have hKept : p.command.created? ≠ some t := by
      simp [hCommand, RaftCommand.created?]
    by_cases hTimer : active.timerId = t
    · have hDone :
          completion t state p.command =
            some (runId, completedAt) := by
        simp [completion, hCommand, hOwned, hTimer]
      refine .completed runId completedAt hDone ?_ ?_
        (active_of_ended hEffect hTimer)
        (idle_of_ended hApply hIds.owner hEffect hTimer)
        (acceptedOccurrence_of_ended hEffect) hRetry
      · unfold stateOf
        rw [hTimers, if_pos hTimer]
        cases state.timers[t]? <;> rfl
      · rcases nextRuns_step hApply hIssued hKept with
          ⟨hNone, _⟩ | ⟨r, at_, hDone', hNext⟩
        · rw [hNone] at hDone
          cases hDone
        · rw [hDone] at hDone'
          cases hDone'
          exact hNext
    · apply timerChange_ended_other hIds hTraced hApply
        hEffect hTimer hRetry
      · rw [hTimers, if_neg hTimer]
      · rcases nextRuns_step hApply hIssued hKept with
          ⟨_, hSame⟩ | ⟨r, at_, hDone, _⟩
        · exact hSame
        · simp [completion, hCommand, hOwned,
            hTimer] at hDone

private theorem timerChange_fail
    {runId : RunId}
    {workerId : String}
    {token : UInt64}
    {error : String}
    {failedAt : DateTime}
    (hIds : RunIdsOk state proposed)
    (hTraced : Traced proposed p)
    (hCommand :
      p.command =
        .failRun runId workerId token error failedAt)
    (hApply :
      applyKronCommand cal state p.command = some state') :
    TimerChange cal t state p state' := by
  have hRetry : retriedOccurrence t (state, p) = none := by
    simp [retriedOccurrence, hCommand]
  have hApply' := hApply
  rw [hCommand] at hApply'
  rcases applyKronCommand_failRun hApply' with
    ⟨hOwned, hEq⟩ | ⟨active, hOwned, hEq⟩
  · apply timerChange_quiet hApply _ hRetry
    · rw [hEq]
    · rw [hEq]
    · simp [hCommand, runEffect, hOwned, endOf]
  · have hEffect :
        runEffect state p.command = .ended runId active := by
      simp [hCommand, runEffect, hOwned, endOf]
    by_cases hTimer : active.timerId = t
    · refine .killed ?_ ?_ (active_of_ended hEffect hTimer)
        (idle_of_ended hApply hIds.owner hEffect hTimer)
        (acceptedOccurrence_of_ended hEffect) hRetry
      · unfold stateOf
        rw [hEq, state.get_failActive, if_pos hTimer]
        cases state.timers[t]? <;> rfl
      · rw [hEq]
        rfl
    · apply timerChange_ended_other hIds hTraced hApply
        hEffect hTimer hRetry
      · rw [hEq, state.get_failActive, if_neg hTimer]
      · rw [hEq]
        rfl

private theorem timerChange_expire
    {runId : RunId}
    {replacement : Option WorkerRun}
    {expiredAt : DateTime}
    (hIds : RunIdsOk state proposed)
    (hTraced : Traced proposed p)
    (hCommand :
      p.command =
        .expireRunLease runId replacement expiredAt)
    (hApply :
      applyKronCommand cal state p.command = some state') :
    TimerChange cal t state p state' := by
  have hApply' := hApply
  rw [hCommand] at hApply'
  rcases applyKronCommand_expireRunLease hApply' with
    ⟨hGet, hEq⟩ | ⟨active, hGet, hEq⟩
  · apply timerChange_quiet hApply
    · simp [hCommand, runEffect, hGet, endOf]
    · cases replacement <;>
        simp [retriedOccurrence, hCommand, hGet]
    · rw [hEq]
    · rw [hEq]
  · have hEffect :
        runEffect state p.command = .ended runId active := by
      simp [hCommand, runEffect, hGet, endOf]
    have hNext : state'.nextRuns[t]? = state.nextRuns[t]? := by
      rw [hEq, state.expireActive_nextRuns]
    have hTimers := state.get_expireActive runId active
      replacement t
    rw [← hEq] at hTimers
    cases replacement with
    | none =>
        have hRetry :
            retriedOccurrence t (state, p) = none := by
          simp [retriedOccurrence, hCommand]
        by_cases hTimer : active.timerId = t
        · refine .killed ?_ hNext
            (active_of_ended hEffect hTimer)
            (idle_of_ended hApply hIds.owner hEffect hTimer)
            (acceptedOccurrence_of_ended hEffect) hRetry
          unfold stateOf
          simp only [hTimers, if_pos hTimer]
          cases state.timers[t]? <;> rfl
        · apply timerChange_ended_other hIds hTraced hApply
            hEffect hTimer hRetry _ hNext
          simp only [hTimers, if_neg hTimer]
    | some run =>
        have hOwn :=
          replacement_timer hIds hTraced hCommand hGet
        by_cases hTimer : active.timerId = t
        · refine .retried ?_ hNext
            (active_of_ended hEffect hTimer)
            (idle_of_ended hApply hIds.owner hEffect hTimer)
            (acceptedOccurrence_of_ended hEffect) ?_
          · unfold stateOf
            simp only [hTimers, if_pos (hOwn.trans hTimer)]
            cases state.timers[t]? <;> rfl
          · simp [retriedOccurrence, hCommand, hGet, hTimer]
        · apply timerChange_ended_other hIds hTraced hApply
            hEffect hTimer _ _ hNext
          · simp [retriedOccurrence, hCommand, hGet, hTimer]
          · have hNe : run.timer ≠ t := by
              rw [hOwn]
              exact hTimer
            simp only [hTimers, if_neg hNe]

/- Every commit of the server is one of these changes. -/
theorem timerChange_of_apply
    (hIds : RunIdsOk state proposed)
    (hTraced : Traced proposed p)
    (hPicked : ClaimsPicked p)
    (hIssued : p.command.issued = true)
    (hApply :
      applyKronCommand cal state p.command = some state') :
    TimerChange cal t state p state' := by
  cases hCommand : p.command with
  | createTimer =>
      exact timerChange_create hCommand hApply
  | claimRun =>
      exact timerChange_claim hIds hTraced hPicked hCommand
        hApply
  | completeRun =>
      exact timerChange_complete hIds hTraced hIssued
        hCommand hApply
  | failRun =>
      exact timerChange_fail hIds hTraced hCommand hApply
  | expireRunLease =>
      exact timerChange_expire hIds hTraced hCommand hApply
  | heartbeatWorker =>
      have hApply' := hApply
      rw [hCommand] at hApply'
      cases hApply'
      exact timerChange_quiet hApply
        (by simp [hCommand, runEffect])
        (by simp [retriedOccurrence, hCommand]) rfl rfl
  | registerWorker =>
      have hApply' := hApply
      rw [hCommand] at hApply'
      cases hApply'
      exact timerChange_quiet hApply
        (by simp [hCommand, runEffect])
        (by simp [retriedOccurrence, hCommand]) rfl rfl
  | _ =>
      rw [hCommand] at hIssued
      cases hIssued

end Change

end Kron

------------------------------------------------------------
-- Counting Attempts
------------------------------------------------------------

namespace Kron

/- The accepted claims of an occurrence of a timer. -/
def claims
    (t : TimerId)
    (n : DateTime)
    (trace : List (PersistedStateMachine × Proposal)) :
    Nat :=
  (trace.filterMap (acceptedOccurrence t)).count n

/- The expired leases of an occurrence that are retried. -/
def retries
    (t : TimerId)
    (n : DateTime)
    (trace : List (PersistedStateMachine × Proposal)) :
    Nat :=
  (trace.filterMap (retriedOccurrence t)).count n

/- A claim of the timer in flight was not picked dead. -/
def AlivePick
    (t : TimerId)
    (p : Proposal) : Prop :=
  ∀ claim ∈ p.command.claim?, claim.2 = t →
    ∀ pick ∈ p.pick, pick.summary.state ≠ .dead

instance
    (t : TimerId)
    (p : Proposal) :
    Decidable (AlivePick t p) :=
  inferInstanceAs (Decidable (∀ _ ∈ _, _ → ∀ _ ∈ _, _))

/- Run ids are fresh, and no poll picks the timer dead. -/
def AttemptCall
    (cal : Calendar)
    (t : TimerId)
    (s : Cluster)
    (call : Call) : Prop :=
  FreshDraw cal s call ∧
    ∀ p ∈ proposals cal s.state call, AlivePick t p

instance
    (cal : Calendar)
    (t : TimerId)
    (s : Cluster)
    (call : Call) :
    Decidable (AttemptCall cal t s call) :=
  inferInstanceAs (Decidable (_ ∧ ∀ _ ∈ _, _))

/-
  The timer is created once, with `m` attempts. An accepted
  claim of it finds the state and the next run that its poll
  read. A completion moves the next run forward. Of one
  occurrence fewer than `m` leases expire.
-/
structure AttemptStep
    (cal : Calendar)
    (t : TimerId)
    (m : UInt32)
    (s : Cluster)
    (p : Proposal) : Prop where
  created :
    ∀ spec ∈ p.command.createdSpec?, spec.id = t →
      s.state.timers[t]? = none ∧
        spec.retry.maxAttempts = m
  current : CurrentClaim t s.state p
  unchanged :
    ∀ _n ∈ acceptedOccurrence t (s.state, p),
      ∀ pick ∈ p.pick,
        stateOf t s.state = some pick.summary.state
  advances : Advances cal t s.state p
  retried :
    ∀ n ∈ retriedOccurrence t (s.state, p),
      retries t n s.trace + 1 < m.toNat

instance
    (cal : Calendar)
    (t : TimerId)
    (m : UInt32)
    (s : Cluster)
    (p : Proposal) :
    Decidable (AttemptStep cal t m s p) :=
  decidable_of_iff
    ((∀ spec ∈ p.command.createdSpec?, spec.id = t →
        s.state.timers[t]? = none ∧
          spec.retry.maxAttempts = m) ∧
      CurrentClaim t s.state p ∧
        (∀ _n ∈ acceptedOccurrence t (s.state, p),
          ∀ pick ∈ p.pick,
            stateOf t s.state = some pick.summary.state) ∧
          Advances cal t s.state p ∧
            ∀ n ∈ retriedOccurrence t (s.state, p),
              retries t n s.trace + 1 < m.toNat)
    ⟨fun h =>
        ⟨h.1, h.2.1, h.2.2.1, h.2.2.2.1, h.2.2.2.2⟩,
      fun h =>
        ⟨h.created, h.current, h.unchanged, h.advances,
          h.retried⟩⟩

/- The attempts at each occurrence and the slot left. -/
private structure CountsOk
    (t : TimerId)
    (m : UInt32)
    (state : PersistedStateMachine)
    (trace : List (PersistedStateMachine × Proposal)) :
    Prop where
  absent :
    stateOf t state = none →
      state.hasActive t = false ∧ ∀ n, claims t n trace = 0
  past :
    ∀ n, 0 < claims t n trace → NextAbove t state (n ≤ ·)
  count :
    ∀ n, claims t n trace ≤ 1 + retries t n trace
  slot :
    ∀ n, state.nextRuns[t]? = some n →
      state.hasActive t = false →
        stateOf t state ≠ some .dead →
          claims t n trace ≤ retries t n trace
  limit : ∀ n, retries t n trace + 1 ≤ m.toNat

/- A dead timer is idle, stays dead and is not claimed. -/
private structure DeadOk
    (t : TimerId)
    (state : PersistedStateMachine)
    (trace : List (PersistedStateMachine × Proposal)) :
    Prop where
  idle :
    stateOf t state = some .dead → state.hasActive t = false
  dead :
    ∀ commit ∈ trace, stateOf t commit.1 = some .dead →
      stateOf t state = some .dead
  never :
    ∀ commit ∈ trace, stateOf t commit.1 = some .dead →
      acceptedOccurrence t commit = none
  order :
    ∀ earlier later, [earlier, later].Sublist trace →
      stateOf t earlier.1 = some .dead →
        acceptedOccurrence t later = none

/- Counting what a function selects of an extended list. -/
private theorem count_filterMap_concat
    {α : Type}
    (f : α → Option DateTime)
    (n : DateTime)
    (xs : List α)
    (x : α) :
    ((xs ++ [x]).filterMap f).count n =
      (xs.filterMap f).count n +
        if f x = some n then 1 else 0 := by
  rw [List.filterMap_append, List.count_append]
  congr 1
  cases hf : f x with
  | none => simp [hf]
  | some k =>
      by_cases hEq : k = n
      · simp [hf, hEq]
      · simp [hf, hEq]

private theorem claims_concat
    (t : TimerId)
    (n : DateTime)
    (trace : List (PersistedStateMachine × Proposal))
    (commit : PersistedStateMachine × Proposal) :
    claims t n (trace ++ [commit]) =
      claims t n trace +
        if acceptedOccurrence t commit = some n then 1
        else 0 :=
  count_filterMap_concat _ _ _ _

private theorem retries_concat
    (t : TimerId)
    (n : DateTime)
    (trace : List (PersistedStateMachine × Proposal))
    (commit : PersistedStateMachine × Proposal) :
    retries t n (trace ++ [commit]) =
      retries t n trace +
        if retriedOccurrence t commit = some n then 1
        else 0 :=
  count_filterMap_concat _ _ _ _

section Commit

variable {cal : Calendar}
variable {t : TimerId}
variable {m : UInt32}
variable {s : Cluster}
variable {p : Proposal}
variable {state' : PersistedStateMachine}

/- A stored timer is the only one that is active. -/
private theorem CountsOk.stored
    (hCounts : CountsOk t m s.state s.trace)
    (hActive : s.state.hasActive t = true) :
    ∃ timer, s.state.timers[t]? = some timer := by
  cases hGet : s.state.timers[t]? with
  | some timer => exact ⟨timer, rfl⟩
  | none =>
      have hIdle :=
        (hCounts.absent (by simp [stateOf, hGet])).1
      rw [hActive] at hIdle
      cases hIdle

/- Below an active timer's next run lies what was claimed. -/
private theorem CountsOk.next_of_active
    (hCounts : CountsOk t m s.state s.trace)
    (hActive : s.state.hasActive t = true)
    {n : DateTime}
    (hClaims : 0 < claims t n s.trace) :
    ∃ next, s.state.nextRuns[t]? = some next ∧ n ≤ next := by
  rcases hCounts.past n hClaims with hNext | ⟨_, hIdle⟩
  · exact hNext
  · rw [hActive] at hIdle
    cases hIdle

/- Without claims and retries the counts stay. -/
private theorem counts_same
    (hClaim : acceptedOccurrence t (s.state, p) = none)
    (hRetry : retriedOccurrence t (s.state, p) = none)
    (n : DateTime) :
    claims t n (s.trace ++ [(s.state, p)]) =
        claims t n s.trace ∧
      retries t n (s.trace ++ [(s.state, p)]) =
        retries t n s.trace := by
  rw [claims_concat, retries_concat, hClaim, hRetry]
  simp

private theorem countsOk_quiet
    (hCounts : CountsOk t m s.state s.trace)
    (hState : stateOf t state' = stateOf t s.state)
    (hNext : state'.nextRuns[t]? = s.state.nextRuns[t]?)
    (hActive : state'.hasActive t = s.state.hasActive t)
    (hClaim : acceptedOccurrence t (s.state, p) = none)
    (hRetry : retriedOccurrence t (s.state, p) = none) :
    CountsOk t m state' (s.trace ++ [(s.state, p)]) := by
  have hSame := counts_same hClaim hRetry
  refine ⟨?_, ?_, ?_, ?_, ?_⟩
  · intro hNone
    rw [hState] at hNone
    rw [hActive]
    refine ⟨(hCounts.absent hNone).1, ?_⟩
    intro n
    rw [(hSame n).1]
    exact (hCounts.absent hNone).2 n
  · intro n hPos
    rw [(hSame n).1] at hPos
    unfold NextAbove
    rw [hNext, hActive]
    exact hCounts.past n hPos
  · intro n
    rw [(hSame n).1, (hSame n).2]
    exact hCounts.count n
  · intro n
    rw [(hSame n).1, (hSame n).2, hNext, hActive, hState]
    exact hCounts.slot n
  · intro n
    rw [(hSame n).2]
    exact hCounts.limit n

private theorem countsOk_created
    (hCounts : CountsOk t m s.state s.trace)
    (hAbsent : stateOf t s.state = none)
    (hState : stateOf t state' = some .scheduled)
    (hClaim : acceptedOccurrence t (s.state, p) = none)
    (hRetry : retriedOccurrence t (s.state, p) = none) :
    CountsOk t m state' (s.trace ++ [(s.state, p)]) := by
  have hSame := counts_same hClaim hRetry
  have hZero :
      ∀ n, claims t n (s.trace ++ [(s.state, p)]) = 0 := by
    intro n
    rw [(hSame n).1]
    exact (hCounts.absent hAbsent).2 n
  refine ⟨?_, ?_, ?_, ?_, ?_⟩
  · intro hNone
    rw [hState] at hNone
    cases hNone
  · intro n hPos
    rw [hZero n] at hPos
    omega
  · intro n
    rw [hZero n]
    omega
  · intro n _ _ _
    rw [hZero n]
    omega
  · intro n
    rw [(hSame n).2]
    exact hCounts.limit n

private theorem countsOk_claimed
    {n₀ : DateTime}
    (hCounts : CountsOk t m s.state s.trace)
    (hAlive :
      ∃ live, stateOf t s.state = some live ∧ live ≠ .dead)
    (hCurrent : s.state.nextRuns[t]? = some n₀)
    (hClaim : acceptedOccurrence t (s.state, p) = some n₀)
    (hState :
      stateOf t state' =
        (stateOf t s.state).map fun _ => .running)
    (hNext : state'.nextRuns[t]? = s.state.nextRuns[t]?)
    (hIdle : s.state.hasActive t = false)
    (hActive : state'.hasActive t = true)
    (hRetry : retriedOccurrence t (s.state, p) = none) :
    CountsOk t m state' (s.trace ++ [(s.state, p)]) := by
  rcases hAlive with ⟨live, hLive, hNotDead⟩
  have hSlot :=
    hCounts.slot n₀ hCurrent hIdle (by simp [hLive, hNotDead])
  have hRetries :
      ∀ n, retries t n (s.trace ++ [(s.state, p)]) =
        retries t n s.trace := by
    intro n
    rw [retries_concat, hRetry]
    simp
  have hClaims :
      ∀ n, claims t n (s.trace ++ [(s.state, p)]) =
        claims t n s.trace + if n₀ = n then 1 else 0 := by
    intro n
    rw [claims_concat, hClaim]
    simp
  refine ⟨?_, ?_, ?_, ?_, ?_⟩
  · intro hNone
    rw [hState, hLive] at hNone
    cases hNone
  · intro n hPos
    left
    refine ⟨n₀, hNext.trans hCurrent, ?_⟩
    rw [hClaims n] at hPos
    by_cases hEq : n₀ = n
    · exact hEq.ge
    · rw [if_neg hEq] at hPos
      rcases hCounts.past n hPos with
        ⟨next, hSome, hLe⟩ | ⟨hNone, _⟩
      · rw [hCurrent] at hSome
        cases hSome
        exact hLe
      · rw [hCurrent] at hNone
        cases hNone
  · intro n
    rw [hRetries n, hClaims n]
    by_cases hEq : n₀ = n
    · subst hEq
      rw [if_pos rfl]
      omega
    · rw [if_neg hEq]
      exact hCounts.count n
  · intro n _ hIdle'
    rw [hActive] at hIdle'
    cases hIdle'
  · intro n
    rw [hRetries n]
    exact hCounts.limit n

private theorem countsOk_completed
    {runId : RunId}
    {at_ : DateTime}
    (hCounts : CountsOk t m s.state s.trace)
    (hAdvances : Advances cal t s.state p)
    (hDone :
      completion t s.state p.command = some (runId, at_))
    (hState :
      stateOf t state' =
        (stateOf t s.state).map fun _ => .scheduled)
    (hNext :
      ∀ timer, s.state.timers[t]? = some timer →
        state'.nextRuns[t]? = timer.rescheduledAt cal at_)
    (hActive : s.state.hasActive t = true)
    (hIdle : state'.hasActive t = false)
    (hClaim : acceptedOccurrence t (s.state, p) = none)
    (hRetry : retriedOccurrence t (s.state, p) = none) :
    CountsOk t m state' (s.trace ++ [(s.state, p)]) := by
  have hSame := counts_same hClaim hRetry
  rcases hCounts.stored hActive with ⟨timer, hGet⟩
  -- a new next run lies above everything that was claimed
  have hAbove :
      ∀ n next, 0 < claims t n s.trace →
        state'.nextRuns[t]? = some next → n < next := by
    intro n next hPos hSome
    rcases hCounts.next_of_active hActive hPos with
      ⟨current, hCurrent, hLe⟩
    rw [hNext timer hGet] at hSome
    exact lt_of_le_of_lt hLe
      (hAdvances _ hDone timer hGet next hSome current
        hCurrent)
  refine ⟨?_, ?_, ?_, ?_, ?_⟩
  · intro hNone
    rw [hState] at hNone
    simp [stateOf, hGet] at hNone
  · intro n hPos
    rw [(hSame n).1] at hPos
    cases hSome : state'.nextRuns[t]? with
    | none => exact .inr ⟨hSome, hIdle⟩
    | some next =>
        exact .inl
          ⟨next, hSome, (hAbove n next hPos hSome).le⟩
  · intro n
    rw [(hSame n).1, (hSame n).2]
    exact hCounts.count n
  · intro n hSome _ _
    rw [(hSame n).1]
    have hZero : claims t n s.trace = 0 := by
      by_contra hNe
      exact lt_irrefl n
        (hAbove n n (Nat.pos_of_ne_zero hNe) hSome)
    omega
  · intro n
    rw [(hSame n).2]
    exact hCounts.limit n

/- A run that ends otherwise leaves the next run. -/
private theorem nextAbove_of_idle
    (hCounts : CountsOk t m s.state s.trace)
    (hNext : state'.nextRuns[t]? = s.state.nextRuns[t]?)
    (hActive : s.state.hasActive t = true)
    {n : DateTime}
    (hPos : 0 < claims t n s.trace) :
    NextAbove t state' (n ≤ ·) := by
  rcases hCounts.next_of_active hActive hPos with
    ⟨next, hSome, hLe⟩
  exact .inl ⟨next, hNext.trans hSome, hLe⟩

private theorem countsOk_killed
    (hCounts : CountsOk t m s.state s.trace)
    (hState :
      stateOf t state' =
        (stateOf t s.state).map fun _ => .dead)
    (hNext : state'.nextRuns[t]? = s.state.nextRuns[t]?)
    (hActive : s.state.hasActive t = true)
    (hClaim : acceptedOccurrence t (s.state, p) = none)
    (hRetry : retriedOccurrence t (s.state, p) = none) :
    CountsOk t m state' (s.trace ++ [(s.state, p)]) := by
  have hSame := counts_same hClaim hRetry
  rcases hCounts.stored hActive with ⟨timer, hGet⟩
  have hDead : stateOf t state' = some .dead := by
    rw [hState]
    simp [stateOf, hGet]
  refine ⟨?_, ?_, ?_, ?_, ?_⟩
  · intro hNone
    rw [hDead] at hNone
    cases hNone
  · intro n hPos
    rw [(hSame n).1] at hPos
    exact nextAbove_of_idle hCounts hNext hActive hPos
  · intro n
    rw [(hSame n).1, (hSame n).2]
    exact hCounts.count n
  · intro n _ _ hNotDead
    exact absurd hDead hNotDead
  · intro n
    rw [(hSame n).2]
    exact hCounts.limit n

private theorem countsOk_retried
    (hCounts : CountsOk t m s.state s.trace)
    (hLimit :
      ∀ n ∈ retriedOccurrence t (s.state, p),
        retries t n s.trace + 1 < m.toNat)
    (hState :
      stateOf t state' =
        (stateOf t s.state).map fun _ => .retrying)
    (hNext : state'.nextRuns[t]? = s.state.nextRuns[t]?)
    (hActive : s.state.hasActive t = true)
    (hClaim : acceptedOccurrence t (s.state, p) = none)
    (hRetry :
      retriedOccurrence t (s.state, p) =
        s.state.nextRuns[t]?) :
    CountsOk t m state' (s.trace ++ [(s.state, p)]) := by
  rcases hCounts.stored hActive with ⟨timer, hGet⟩
  have hClaims :
      ∀ n, claims t n (s.trace ++ [(s.state, p)]) =
        claims t n s.trace := by
    intro n
    rw [claims_concat, hClaim]
    simp
  refine ⟨?_, ?_, ?_, ?_, ?_⟩
  · intro hNone
    rw [hState] at hNone
    simp [stateOf, hGet] at hNone
  · intro n hPos
    rw [hClaims n] at hPos
    exact nextAbove_of_idle hCounts hNext hActive hPos
  · intro n
    have hCount := hCounts.count n
    rw [hClaims n, retries_concat]
    omega
  · intro n hSome _ _
    have hCount := hCounts.count n
    rw [hNext] at hSome
    rw [hClaims n, retries_concat, hRetry, if_pos hSome]
    omega
  · intro n
    have hOld := hCounts.limit n
    rw [retries_concat]
    by_cases hEq :
        retriedOccurrence t (s.state, p) = some n
    · have hNew := hLimit n hEq
      rw [if_pos hEq]
      omega
    · rw [if_neg hEq]
      omega

/- An accepted claim of the timer finds it alive. -/
private theorem alive_of_claimed
    {n : DateTime}
    (hAlive : AlivePick t p)
    (hStep : AttemptStep cal t m s p)
    (hClaim : acceptedOccurrence t (s.state, p) = some n) :
    ∃ live, stateOf t s.state = some live ∧ live ≠ .dead := by
  rcases acceptedOccurrence_eq_some hClaim with
    ⟨active, pick, hEffect, hTimer, hPick, _⟩
  have hCommand := (runEffect_eq_claimed hEffect).1
  refine ⟨pick.summary.state,
    hStep.unchanged n hClaim pick hPick, ?_⟩
  exact hAlive (active.runId, active.timerId)
    (by simp [hCommand, RaftCommand.claim?]) hTimer pick
    hPick

/- A created timer was not stored. -/
private theorem absent_of_created
    (hStep : AttemptStep cal t m s p)
    (hCreated : p.command.created? = some t) :
    stateOf t s.state = none := by
  cases hCommand : p.command with
  | createTimer spec next =>
      rw [hCommand] at hCreated
      have hAbsent :=
        (hStep.created spec
          (by simp [hCommand, RaftCommand.createdSpec?])
          (Option.some.inj hCreated)).1
      simp [stateOf, hAbsent]
  | _ =>
      rw [hCommand] at hCreated
      cases hCreated

private theorem countsOk_commit
    (hCounts : CountsOk t m s.state s.trace)
    (hAlive : AlivePick t p)
    (hStep : AttemptStep cal t m s p)
    (hChange : TimerChange cal t s.state p state') :
    CountsOk t m state' (s.trace ++ [(s.state, p)]) := by
  cases hChange with
  | quiet hState hNext hActive hClaim hRetry =>
      exact countsOk_quiet hCounts hState hNext hActive
        hClaim hRetry
  | created hCreated hState hActive hClaim hRetry =>
      exact countsOk_created hCounts
        (absent_of_created hStep hCreated) hState hClaim
        hRetry
  | claimed pick _ hClaim hState hNext hIdle hActive hRetry =>
      exact countsOk_claimed hCounts
        (alive_of_claimed hAlive hStep hClaim)
        (hStep.current _ hClaim) hClaim hState hNext hIdle
        hActive hRetry
  | completed runId at_ hDone hState hNext hActive hIdle
      hClaim hRetry =>
      exact countsOk_completed hCounts hStep.advances hDone
        hState hNext hActive hIdle hClaim hRetry
  | killed hState hNext hActive hIdle hClaim hRetry =>
      exact countsOk_killed hCounts hState hNext hActive
        hClaim hRetry
  | retried hState hNext hActive hIdle hClaim hRetry =>
      exact countsOk_retried hCounts hStep.retried hState
        hNext hActive hClaim hRetry

/- A dead timer accepts no claim and stays dead. -/
private theorem dead_commit
    (hDead : DeadOk t s.state s.trace)
    (hAlive : AlivePick t p)
    (hStep : AttemptStep cal t m s p)
    (hChange : TimerChange cal t s.state p state')
    (hNow : stateOf t s.state = some .dead) :
    acceptedOccurrence t (s.state, p) = none ∧
      stateOf t state' = some .dead := by
  have hIdle := hDead.idle hNow
  cases hChange with
  | quiet hState hNext hActive hClaim hRetry =>
      exact ⟨hClaim, hState.trans hNow⟩
  | created hCreated =>
      rw [absent_of_created hStep hCreated] at hNow
      cases hNow
  | claimed pick _ hClaim =>
      rcases alive_of_claimed hAlive hStep hClaim with
        ⟨live, hLive, hNotDead⟩
      rw [hLive] at hNow
      exact absurd (Option.some.inj hNow) hNotDead
  | completed _ _ _ _ _ hActive =>
      rw [hIdle] at hActive
      cases hActive
  | killed _ _ hActive =>
      rw [hIdle] at hActive
      cases hActive
  | retried _ _ hActive =>
      rw [hIdle] at hActive
      cases hActive

/- A timer that becomes dead is idle. -/
private theorem idle_commit
    (hDead : DeadOk t s.state s.trace)
    (hChange : TimerChange cal t s.state p state')
    (hNow : stateOf t state' = some .dead) :
    state'.hasActive t = false := by
  cases hChange with
  | quiet hState hNext hActive =>
      rw [hActive]
      exact hDead.idle (hState.symm.trans hNow)
  | created hCreated hState =>
      rw [hState] at hNow
      cases hNow
  | claimed pick _ _ hState =>
      rw [hState] at hNow
      cases hOld : stateOf t s.state <;> simp [hOld] at hNow
  | completed _ _ _ _ _ _ hIdle => exact hIdle
  | killed _ _ _ hIdle => exact hIdle
  | retried _ _ _ hIdle => exact hIdle

private theorem deadOk_commit
    (hDead : DeadOk t s.state s.trace)
    (hAlive : AlivePick t p)
    (hStep : AttemptStep cal t m s p)
    (hChange : TimerChange cal t s.state p state') :
    DeadOk t state' (s.trace ++ [(s.state, p)]) := by
  have hKeep := dead_commit hDead hAlive hStep hChange
  refine ⟨idle_commit hDead hChange, ?_, ?_, ?_⟩
  · intro commit hMem hThen
    apply (hKeep _).2
    rcases List.mem_append.mp hMem with hOld | hNew
    · exact hDead.dead commit hOld hThen
    · rw [List.mem_singleton.mp hNew] at hThen
      exact hThen
  · intro commit hMem hThen
    rcases List.mem_append.mp hMem with hOld | hNew
    · exact hDead.never commit hOld hThen
    · rw [List.mem_singleton.mp hNew] at hThen ⊢
      exact (hKeep hThen).1
  · intro earlier later hSub hThen
    rcases Replicated.sublist_concat [earlier]
      hSub with hOld | ⟨rfl, hEarlier⟩
    · exact hDead.order earlier later hOld hThen
    · have hMem := List.singleton_sublist.mp hEarlier
      exact (hKeep (hDead.dead earlier hMem hThen)).1

end Commit

/- A lease expires once and the second claim completes. -/
def retriedOnce : List ClusterLabel :=
  atOnce
    [createAt "t" none 2 0, pollAt "w1" none "r1" 2,
      .expireActiveLeases (40 * nanosPerSecond),
      pollAt "w2" none "r2" 41,
      completeAt "w2" none "r2" 3 42]

/- A timer with one attempt whose run fails. -/
def failedOnce : List ClusterLabel :=
  atOnce
    [createAt "t" none 1 0, pollAt "w1" none "r1" 2,
      failAt "w1" none "r1" 1 3, pollAt "w2" none "r2" 4]

end Kron
