import Kron.Server.RunIds

/-
  The queue of retries.

  An expired lease puts a replacement into the queue, and the
  claim of a replacement takes it out. A poll builds its run
  from the summary of a timer, under a new run id and as the
  first attempt, and never looks at the queue: no claim takes
  a replacement out. The queue is in order only as long as no
  timer is claimed after one of its leases expired.

  Key definitions include:
    * `Kron.pendingAfter`
    * `Kron.PersistedStateMachine.queueOf`
    * `Kron.QueueOk`
    * `Kron.ClaimsQueued`
    * `Kron.QueueConsumed`
    * `Kron.EmptyQueue`

  Key theorems include:
    * `Kron.applyKronCommand_pending`
    * `Kron.queueOk_commit`
    * `Kron.firstAttempts_of_run`
    * `Kron.queueConsumed_iff`
-/

------------------------------------------------------------
-- Pending Runs
------------------------------------------------------------

namespace Kron

/- The queue after a command. -/
def pendingAfter
    (state : PersistedStateMachine)
    (command : RaftCommand) : List WorkerRun :=
  match runEffect state command, command with
  | .claimed active, _ =>
      state.pending.eraseP fun run =>
        run.runId == active.runId
  | .ended _ _, .expireRunLease _ (some run) _ =>
      state.pending ++ [run]
  | _, _ => state.pending

namespace PersistedStateMachine

variable (state : PersistedStateMachine)

@[simp] theorem setNextRun_pending
    (timerId : TimerId)
    (nextRunAt : Option DateTime) :
    (state.setNextRun timerId nextRunAt).pending =
      state.pending := by
  cases nextRunAt <;> rfl

@[simp] theorem putTimer_pending
    (spec : DistributedTimerSpec)
    (nextRunAt : Option DateTime) :
    (state.putTimer spec nextRunAt).pending =
      state.pending :=
  setNextRun_pending _ spec.id nextRunAt

theorem completeActive_pending
    {cal : Calendar}
    {runId : RunId}
    {workerId : String}
    {active : PersistedActiveRun}
    {completedAt : DateTime}
    {state' : PersistedStateMachine}
    (hSome :
      state.completeActive cal runId workerId active
        completedAt = some state') :
    state'.pending = state.pending := by
  rcases state.completeActive_eq_some hSome with
    ⟨next, hNext, rfl⟩
  rcases rescheduleTimer_eq_some _ hNext with
    ⟨_, rfl⟩ | ⟨_, _, rfl⟩
  · rfl
  · exact setNextRun_pending _ _ _

end PersistedStateMachine

/- Only claims and expiries change the queue. -/
theorem applyKronCommand_pending
    {cal : Calendar}
    {state state' : PersistedStateMachine}
    {command : RaftCommand}
    (hApply :
      applyKronCommand cal state command = some state') :
    state'.pending = pendingAfter state command := by
  cases command with
  | createTimer spec next =>
      cases hApply
      exact state.putTimer_pending spec next
  | updateTimer spec next =>
      cases hApply
      exact state.putTimer_pending spec next
  | resumeTimer timerId next =>
      cases hApply
      exact
        PersistedStateMachine.setNextRun_pending _ timerId
          next
  | claimRun timerId runId workerId token attempt deadline =>
      rcases applyKronCommand_claimRun hApply with
        ⟨hActive, rfl⟩ | ⟨hActive, rfl⟩
      · simp [pendingAfter, runEffect, hActive]
      · simp only [pendingAfter, runEffect, hActive]
        rfl
  | completeRun runId workerId token completedAt =>
      rcases applyKronCommand_completeRun hApply with
        ⟨hOwned, rfl⟩ | ⟨active, hOwned, hComplete⟩
      · simp [pendingAfter, runEffect, hOwned, endOf]
      · rw [state.completeActive_pending hComplete]
        simp [pendingAfter, runEffect, hOwned, endOf]
  | failRun runId workerId token error failedAt =>
      rcases applyKronCommand_failRun hApply with
        ⟨hOwned, rfl⟩ | ⟨active, hOwned, rfl⟩
      · simp [pendingAfter, runEffect, hOwned, endOf]
      · simp only [pendingAfter, runEffect, hOwned, endOf]
        rfl
  | expireRunLease runId replacement expiredAt =>
      rcases applyKronCommand_expireRunLease hApply with
        ⟨hGet, rfl⟩ | ⟨active, hGet, rfl⟩
      · simp [pendingAfter, runEffect, hGet, endOf]
      · cases replacement with
        | none =>
            simp only [pendingAfter, runEffect, hGet, endOf]
            rfl
        | some run =>
            simp only [pendingAfter, runEffect, hGet, endOf]
            rfl
  | _ =>
      cases hApply
      rfl

end Kron

------------------------------------------------------------
-- A Queue In Order
------------------------------------------------------------

namespace Kron

/- The queued runs of a timer, the oldest first. -/
def PersistedStateMachine.queueOf
    (state : PersistedStateMachine)
    (t : TimerId) : List WorkerRun :=
  state.pending.filter fun run => run.timer == t

/- One queued run a timer, and none while it has a run. -/
structure QueueOk
    (state : PersistedStateMachine) : Prop where
  one : ∀ t, (state.queueOf t).length ≤ 1
  idle :
    ∀ t, state.hasActive t = true → state.queueOf t = []

/- An accepted claim of a timer takes its queued run. -/
def ClaimsQueued
    (commit : PersistedStateMachine × Proposal) : Prop :=
  ∀ active, accepted commit = some active →
    ∀ run ∈ commit.1.queueOf active.timerId,
      active.runId = run.runId ∧
        active.attempt = run.attempt ∧
          run.fencingToken ≤ active.fencingToken

/- The queue is in order and consumed all along a run. -/
def QueueConsumed
    (cal : Calendar)
    (labels : List ClusterLabel) : Prop :=
  ∀ before, before <+: labels →
    ∀ c, Cluster.run cal (.init .default) before = some c →
      QueueOk c.state ∧
        ∀ commit ∈ c.trace, ClaimsQueued commit

/- A claim commits only if its timer has no queued run. -/
def EmptyQueue
    (s : Cluster)
    (p : Proposal) : Prop :=
  ∀ claim ∈ p.command.claim?, s.state.queueOf claim.2 = []

instance
    (s : Cluster)
    (p : Proposal) :
    Decidable (EmptyQueue s p) :=
  inferInstanceAs (Decidable (∀ _ ∈ _, _))

variable {cal : Calendar}
variable {state state' : PersistedStateMachine}
variable {proposed : List Proposal}
variable {p : Proposal}

/- An expiry with a replacement adds it to the queue. -/
structure Requeues
    (state : PersistedStateMachine)
    (command : RaftCommand)
    (active : PersistedActiveRun)
    (run : WorkerRun) : Prop where
  effect :
    ∃ runId expiredAt,
      command = .expireRunLease runId (some run) expiredAt ∧
        runEffect state command = .ended runId active
  pending : pendingAfter state command = state.pending ++ [run]

/- A command shortens the queue or adds a replacement. -/
theorem pendingAfter_cases
    (state : PersistedStateMachine)
    (command : RaftCommand) :
    (pendingAfter state command).Sublist state.pending ∨
      ∃ active run, Requeues state command active run := by
  unfold pendingAfter
  split
  · exact .inl List.eraseP_sublist
  · rename_i runId active gone run expiredAt hEffect
    have hSame : gone = runId :=
      (endOf_eq_ended hEffect).1
    subst hSame
    refine .inr ⟨active, run, ⟨gone, expiredAt, rfl, hEffect⟩, ?_⟩
    simp only [pendingAfter, hEffect]
  · exact .inl (List.Sublist.refl _)

/- A queue in order stays so when claims find it empty. -/
theorem queueOk_commit
    (hIds : RunIdsOk state proposed)
    (hTraced : Traced proposed p)
    (hApply :
      applyKronCommand cal state p.command = some state')
    (hEmpty :
      ∀ claim ∈ p.command.claim?, state.queueOf claim.2 = [])
    (hOk : QueueOk state) :
    QueueOk state' := by
  have hPending := applyKronCommand_pending hApply
  rcases pendingAfter_cases state p.command with
    hShort | ⟨active, run, hRequeues⟩
  · -- nothing is added, and claims come with empty queues
    have hSub :
        ∀ t,
          (state'.queueOf t).Sublist (state.queueOf t) := by
      intro t
      unfold PersistedStateMachine.queueOf
      rw [hPending]
      exact hShort.filter _
    constructor
    · intro t
      exact (hSub t).length_le.trans (hOk.one t)
    · intro t hActive
      have hBefore : state.queueOf t = [] := by
        cases hWas : state.hasActive t with
        | true => exact hOk.idle t hWas
        | false =>
            by_contra hQueued
            have hIdle :=
              idle_step hApply hWas (by
                rintro taken hEffect rfl
                have hCommand :=
                  (runEffect_eq_claimed hEffect).1
                exact
                  hQueued
                    (hEmpty (taken.runId, taken.timerId)
                      (by simp [hCommand,
                        RaftCommand.claim?])))
            rw [hIdle] at hActive
            cases hActive
      exact List.sublist_nil.mp (hBefore ▸ hSub t)
  · -- the timer of the expired run had no queued run
    rcases hRequeues.effect with
      ⟨runId, expiredAt, hCommand, hEffect⟩
    have hTimer : run.timer = active.timerId :=
      replacement_timer hIds hTraced hCommand
        (runEffect_eq_ended hEffect)
    have hQueue :
        ∀ t,
          state'.queueOf t =
            if run.timer = t then state.queueOf t ++ [run]
            else state.queueOf t := by
      intro t
      unfold PersistedStateMachine.queueOf
      rw [hPending, hRequeues.pending, List.filter_append]
      by_cases hEq : run.timer = t <;> simp [hEq]
    constructor
    · intro t
      rw [hQueue]
      split
      · rename_i hEq
        rw [hOk.idle t
          (active_of_ended hEffect (hTimer.symm.trans hEq))]
        exact Nat.le_refl 1
      · exact hOk.one t
    · intro t hActive
      have hOther : run.timer ≠ t := by
        intro hEq
        have hIdle :=
          idle_of_ended hApply hIds.owner hEffect
            (hTimer.symm.trans hEq)
        rw [hIdle] at hActive
        cases hActive
      rw [hQueue, if_neg hOther]
      apply hOk.idle
      by_contra hWas
      have hIdle :=
        idle_step hApply (Bool.eq_false_iff.mpr hWas) (by
          intro taken hClaimed
          rw [hEffect] at hClaimed
          cases hClaimed)
      rw [hIdle] at hActive
      cases hActive

end Kron

------------------------------------------------------------
-- Attempts In The Queue
------------------------------------------------------------

namespace Kron

/- Active runs are first attempts, queued runs second ones. -/
structure FirstAttempts
    (state : PersistedStateMachine) : Prop where
  active :
    ∀ (runId : RunId) (active : PersistedActiveRun),
      state.activeRuns[runId]? = some active →
        active.attempt = 1
  queued : ∀ run ∈ state.pending, run.attempt = 2

/- Claims in flight are first attempts, retries second. -/
structure ProposesFirst
    (command : RaftCommand) : Prop where
  claim :
    ∀ timerId runId workerId token attempt deadline,
      command =
          .claimRun timerId runId workerId token attempt
            deadline →
        attempt = 1
  retry :
    ∀ runId run expiredAt,
      command = .expireRunLease runId (some run) expiredAt →
        run.attempt = 2

variable {cal : Calendar}
variable {state state' : PersistedStateMachine}

/- A poll always claims a first attempt. -/
theorem proposesFirst_of_mem
    {call : Call}
    {p : Proposal}
    (hFirst : FirstAttempts state)
    (hMem : p ∈ proposals cal state call) :
    ProposesFirst p.command := by
  cases proposes_of_mem hMem with
  | claim hPicked =>
      constructor
      · intro _ _ _ _ _ _ hEq
        cases hEq
        exact hPicked.attempt
      · intro _ _ _ hEq
        cases hEq
  | expire hActive hDue =>
      constructor
      · intro _ _ _ _ _ _ hEq
        cases hEq
      · intro runId run expiredAt hEq
        rename_i active
        have hRun :
            replacementRun state.appState active =
              some run := by
          injection hEq with _ hRun
        rw [(replacementRun_eq_some hRun).2.2,
          hFirst.active _ _ hActive]
        rfl
  | _ =>
      constructor
      · intro _ _ _ _ _ _ hEq
        cases hEq
      · intro _ _ _ hEq
        cases hEq

theorem firstAttempts_commit
    {command : RaftCommand}
    (hProposes : ProposesFirst command)
    (hFirst : FirstAttempts state)
    (hApply :
      applyKronCommand cal state command = some state') :
    FirstAttempts state' := by
  constructor
  · intro runId active hGet
    rcases activeRun_cases hApply hGet with
      hBefore | ⟨_, hCommand⟩
    · exact hFirst.active runId active hBefore
    · exact hProposes.claim _ _ _ _ _ _ hCommand
  · intro run hMem
    rw [applyKronCommand_pending hApply] at hMem
    rcases pendingAfter_cases state command with
      hShort | ⟨active, added, hRequeues⟩
    · exact hFirst.queued run (hShort.subset hMem)
    · rw [hRequeues.pending, List.mem_append,
        List.mem_singleton] at hMem
      rcases hMem with hOld | rfl
      · exact hFirst.queued run hOld
      · rcases hRequeues.effect with
          ⟨runId, expiredAt, hCommand, _⟩
        exact hProposes.retry runId run expiredAt hCommand

/- No claim is ever the claim of a queued run. -/
theorem firstAttempts_of_run
    {labels : List ClusterLabel}
    {c : Cluster}
    (hRun :
      Cluster.run cal (.init .default) labels = some c) :
    FirstAttempts c.state ∧
      ∀ p ∈ c.inflight, ProposesFirst p.command := by
  refine
    Replicated.run_rule
      (fun state _ _ => FirstAttempts state)
      (fun _ _ p => ProposesFirst p.command)
      (fun _ _ hFirst _ => hFirst) ?_ ?_ ?_ ?_ ?_
      (Machine.meets_of_forall
        (Replicated.Steps (fun _ _ => True) (fun _ _ => True))
        _ ?_) hRun
  · intro s call hFirst _ p hp
    rcases hp with hNew | hOld
    · exact proposesFirst_of_mem hFirst hNew
    · exact hOld
  · intro s p state hFirst hPend _ hApply
    exact firstAttempts_commit hPend hFirst hApply
  · intro s p q state _ _ _ _ hq
    exact hq
  · constructor
    · intro runId active hGet
      simp [Replicated.System.init,
        PersistedStateMachine.default] at hGet
    · intro run hMem
      cases hMem
  · intro p hp
    cases hp
  · intro label _ s
    cases label with
    | call call => trivial
    | commit i =>
        intro _ _
        trivial
    | drop i => trivial

end Kron

------------------------------------------------------------
-- Every Run
------------------------------------------------------------

namespace Kron

variable {cal : Calendar}

/- No claim commits for a timer with a queued run. -/
def ClaimsUnqueued :
    Cluster → ClusterLabel → Prop :=
  Replicated.Steps (fun _ _ => True) EmptyQueue

instance
    (s : Cluster)
    (label : ClusterLabel) :
    Decidable (ClaimsUnqueued s label) :=
  inferInstanceAs (Decidable (Replicated.Steps _ _ s label))

/- The two conditions on one step. -/
theorem steps_of_drawsOnce
    {s : Cluster}
    {label : ClusterLabel}
    (hDraws : DrawsOnce cal s label)
    (hClaims : ClaimsUnqueued s label) :
    Replicated.Steps (FreshDraw cal) EmptyQueue s label := by
  cases label with
  | call call => exact hDraws
  | commit i => exact hClaims
  | drop i => trivial

theorem queueOk_default :
    QueueOk .default where
  one := by
    intro t
    exact Nat.zero_le 1
  idle := by
    intro t _
    rfl

/- Claims of timers without queued runs keep the order. -/
theorem queueOk_of_run
    {labels : List ClusterLabel}
    {c : Cluster}
    (hMeets :
      Machine.Meets (Cluster.step cal)
        (Replicated.Steps (FreshDraw cal) EmptyQueue)
        (.init .default) labels)
    (hRun :
      Cluster.run cal (.init .default) labels = some c) :
    QueueOk c.state ∧
      ∀ commit ∈ c.trace, ClaimsQueued commit := by
  have hRule :=
    Replicated.run_rule
      (fun state proposed trace =>
        RunIdsOk state proposed ∧
          QueueOk state ∧
            ∀ commit ∈ trace, ClaimsQueued commit)
      (fun _ proposed p => Traced proposed p)
      (by
        rintro s call ⟨hIds, hRest⟩ hFresh
        exact ⟨runIdsOk_call hIds hFresh, hRest⟩)
      (by
        rintro s call ⟨hIds, _⟩ _ p hp
        rcases hp with hNew | hOld
        · exact traced_of_proposes hIds hNew
        · exact traced_append hOld)
      (by
        rintro s p state ⟨hIds, hOk, hClaims⟩ hTraced hEmpty
          hApply
        refine ⟨runIdsOk_commit hIds hTraced hApply,
          queueOk_commit hIds hTraced hApply hEmpty hOk, ?_⟩
        intro commit hMem
        rw [List.mem_append, List.mem_singleton] at hMem
        rcases hMem with hOld | rfl
        · exact hClaims commit hOld
        · -- the queue of a claimed timer is empty
          intro active hAccepted run hQueued
          have hCommand :=
            (runEffect_eq_claimed
              (accepted_eq_some hAccepted)).1
          rw [hEmpty (active.runId, active.timerId)
            (by simp [hCommand, RaftCommand.claim?])]
            at hQueued
          cases hQueued)
      (fun _ _ _ _ _ _ _ _ hq => hq)
      (s := .init .default)
      ⟨⟨singleOwner_default,
          by simp [Replicated.System.init, drawn],
          by simp [Replicated.System.init,
            PersistedStateMachine.default]⟩,
        queueOk_default,
        by simp [Replicated.System.init]⟩
      (by simp [Replicated.System.init])
      hMeets hRun
  exact hRule.1.2

/- Applying a claim does not panic. -/
theorem exists_applyKronCommand_claim
    (cal : Calendar)
    (state : PersistedStateMachine)
    {command : RaftCommand}
    {claim : RunId × TimerId}
    (hClaim : command.claim? = some claim) :
    ∃ state', applyKronCommand cal state command =
      some state' := by
  cases command with
  | claimRun => exact ⟨_, rfl⟩
  | _ => cases hClaim

/- The claim of a timer with a queued run takes another. -/
theorem not_claimsQueued
    {state : PersistedStateMachine}
    {p : Proposal}
    {claim : RunId × TimerId}
    (hFirst : FirstAttempts state)
    (hProposes : ProposesFirst p.command)
    (hOk : QueueOk state)
    (hClaim : p.command.claim? = some claim)
    (hQueued : state.queueOf claim.2 ≠ []) :
    ¬ ClaimsQueued (state, p) := by
  intro hClaims
  rcases List.exists_mem_of_ne_nil _ hQueued with
    ⟨run, hMem⟩
  have hIdle : state.hasActive claim.2 = false := by
    rw [Bool.eq_false_iff]
    intro hActive
    exact hQueued (hOk.idle _ hActive)
  cases hCommand : p.command with
  | claimRun timerId runId workerId token attempt deadline =>
      rw [hCommand] at hClaim
      cases hClaim
      have hAttempt : attempt = 1 :=
        hProposes.claim _ _ _ _ _ _ hCommand
      have hSame :=
        (hClaims
          { timerId := timerId
            runId := runId
            workerId := workerId
            fencingToken := token
            attempt := attempt
            leaseDeadline := deadline }
          (by simp [accepted, hCommand, runEffect, hIdle])
          run hMem).2.1
      have hSecond : run.attempt = 2 :=
        hFirst.queued run (List.mem_filter.mp hMem).1
      rw [hSecond] at hSame
      rw [show attempt = 2 from hSame] at hAttempt
      exact absurd hAttempt (by decide)
  | _ =>
      rw [hCommand] at hClaim
      cases hClaim

/-
  Where run ids are not repeated, the queue is consumed along
  a run exactly when no claim commits for a timer that has a
  queued run.
-/
theorem queueConsumed_iff
    (cal : Calendar)
    (labels : List ClusterLabel)
    (hDraws :
      Machine.Meets (Cluster.step cal) (DrawsOnce cal)
        (.init .default) labels) :
    QueueConsumed cal labels ↔
      Machine.Meets (Cluster.step cal) ClaimsUnqueued
        (.init .default) labels := by
  constructor
  · intro hConsumed
    apply Machine.meets_of_prefixes
    intro before label hPrefix c hRun
    cases label with
    | call call => trivial
    | drop i => trivial
    | commit i =>
        intro p hGet claim hClaim
        by_contra hQueued
        have hBefore : before <+: labels :=
          (List.prefix_append _ _).trans hPrefix
        have hOk := (hConsumed before hBefore c hRun).1
        rcases firstAttempts_of_run hRun with
          ⟨hFirst, hInflight⟩
        have hProposes :=
          hInflight p (List.mem_of_getElem? hGet)
        -- a claim is always applied
        rcases
          exists_applyKronCommand_claim cal c.state hClaim
          with ⟨state', hApply⟩
        have hAfter :
            Cluster.run cal (.init .default)
                (before ++ [.commit i]) =
              some (c.commit i p state') := by
          rw [Cluster.run, Machine.run_append, hRun]
          simp [Machine.run, Cluster.step,
            Replicated.step, hGet, applyProposal, hApply]
        have hClaims :=
          (hConsumed _ hPrefix _ hAfter).2 (c.state, p)
            (by simp [Replicated.System.commit])
        exact
          not_claimsQueued hFirst hProposes hOk hClaim
            hQueued hClaims
  · intro hClaims before hPrefix c hRun
    have hBoth :
        Machine.Meets (Cluster.step cal)
          (Replicated.Steps (FreshDraw cal) EmptyQueue)
          (.init .default) labels :=
      Machine.Meets.of_invariant (fun _ => True)
        (fun _ _ _ _ _ _ => trivial)
        (fun _ _ _ hCond =>
          steps_of_drawsOnce hCond.1 hCond.2)
        trivial (hDraws.and hClaims)
    exact queueOk_of_run (hBoth.of_initial hPrefix) hRun

/- A lease expires and its timer is left alone. -/
def expiredOnce : List ClusterLabel :=
  atOnce
    [createAt "t" none 3 0, pollAt "w1" none "r1" 2,
      .expireActiveLeases (40 * nanosPerSecond)]

theorem queueConsumed_expiredOnce :
    (Cluster.run utcCalendar (.init .default)
        expiredOnce).map
        (fun c => (c.state.queueOf "t").length) = some 1 ∧
      QueueConsumed utcCalendar expiredOnce := by
  refine ⟨by decide +kernel, ?_⟩
  apply
    (queueConsumed_iff utcCalendar expiredOnce
      (by decide +kernel)).mpr
  decide +kernel

/- Two leases of a timer expire, one after the other. -/
def expiredTwice : List ClusterLabel :=
  atOnce
    [createAt "t" none 3 0, pollAt "w1" none "r1" 2,
      .expireActiveLeases (40 * nanosPerSecond),
      pollAt "w2" none "r2" 41,
      .expireActiveLeases (80 * nanosPerSecond),
      pollAt "w3" none "r3" 81]

/-
  The claims that follow take new runs; the queue grows and
  stays while the timer has a run.
-/
theorem queue_of_expiredTwice :
    ∃ c,
      Cluster.run utcCalendar (.init .default)
          expiredTwice = some c ∧
        (c.state.queueOf "t").map WorkerRun.runId =
            ["r1", "r2"] ∧
          c.state.hasActive "t" = true ∧
            ¬ QueueConsumed utcCalendar expiredTwice := by
  have hView :
      (Cluster.run utcCalendar (.init .default)
          expiredTwice).map
          (fun c =>
            ((c.state.queueOf "t").map WorkerRun.runId,
              c.state.hasActive "t")) =
        some (["r1", "r2"], true) := by
    decide +kernel
  rcases Option.map_eq_some_iff.mp hView with
    ⟨c, hRun, hEq⟩
  have hQueue := congrArg Prod.fst hEq
  have hActive := congrArg Prod.snd hEq
  refine ⟨c, hRun, hQueue, hActive, ?_⟩
  intro hConsumed
  have hOk :=
    (hConsumed _ (List.prefix_refl _) c hRun).1
  have hEmpty := hOk.idle "t" hActive
  simp [hEmpty] at hQueue

end Kron
