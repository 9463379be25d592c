import Kron.Server.Tokens

/-
  Occurrences of a timer: the next runs that polls pick.

  A poll picks the stored next run of an idle timer. Only the
  completion of a run moves the next run on.

  Key definitions include:
    * `Kron.acceptedOccurrence`
    * `Kron.completion`
    * `Kron.CurrentClaim`
    * `Kron.Advances`

  Key theorems include:
    * `Kron.nextRuns_step`
    * `Kron.no_claim_after_completion`
    * `Kron.claim_after_completion`
-/

------------------------------------------------------------
-- One Timer
------------------------------------------------------------

namespace Kron

variable {cal : Calendar}
variable {state state' : PersistedStateMachine}
variable {command : RaftCommand}
variable {t : TimerId}

/- The occurrence that an accepted claim of a timer took. -/
def acceptedOccurrence
    (t : TimerId)
    (commit : PersistedStateMachine × Proposal) :
    Option DateTime :=
  match accepted commit, commit.2.pick with
  | some active, some pick =>
      if active.timerId = t then
        some pick.occurrence
      else
        none
  | _, _ => none

/- The run of a timer that a command completes, and when. -/
def completion
    (t : TimerId)
    (state : PersistedStateMachine) :
    RaftCommand → Option (RunId × DateTime)
| .completeRun runId workerId fencingToken completedAt =>
    ((state.ownedRun runId workerId fencingToken).filter
      fun active => active.timerId == t).map
        fun _ => (runId, completedAt)
| _ => none

/- A completion ends an active run of its timer. -/
theorem completion_eq_some
    {runId : RunId}
    {completedAt : DateTime}
    (hDone :
      completion t state command =
        some (runId, completedAt)) :
    ∃ active,
      runEffect state command = .ended runId active ∧
        active.timerId = t := by
  cases command with
  | completeRun runId' workerId token at_ =>
      simp only [completion, Option.map_eq_some_iff,
        Option.filter_eq_some_iff] at hDone
      rcases hDone with ⟨active, ⟨hOwned, hTimer⟩, hEq⟩
      cases hEq
      refine ⟨active, ?_, by simpa using hTimer⟩
      simp [runEffect, hOwned, endOf]
  | _ => cases hDone

/-
  The next run of a timer that is not created anew changes by
  the completion of one of its runs only.
-/
theorem nextRuns_step
    (hApply :
      applyKronCommand cal state command = some state')
    (hIssued : command.issued = true)
    (hKept : command.created? ≠ some t) :
    (completion t state command = none ∧
        state'.nextRuns[t]? = state.nextRuns[t]?) ∨
      ∃ runId completedAt,
        completion t state command =
            some (runId, completedAt) ∧
          ∀ timer, state.timers[t]? = some timer →
            state'.nextRuns[t]? =
              timer.rescheduledAt cal completedAt := by
  cases command with
  | createTimer spec next =>
      cases hApply
      left
      refine ⟨rfl, ?_⟩
      have hNe : spec.id ≠ t := by
        intro hEq
        exact hKept (by simp [RaftCommand.created?, hEq])
      rw [state.nextRuns_putTimer, if_neg hNe]
  | claimRun =>
      left
      refine ⟨rfl, ?_⟩
      rcases applyKronCommand_claimRun hApply with
        ⟨_, rfl⟩ | ⟨_, rfl⟩ <;> rfl
  | completeRun runId workerId token completedAt =>
      rcases applyKronCommand_completeRun hApply with
        ⟨hOwned, rfl⟩ | ⟨active, hOwned, hComplete⟩
      · left
        exact ⟨by simp [completion, hOwned], rfl⟩
      · have hNext := state.nextRuns_completeActive
          hComplete t
        by_cases hTimer : active.timerId = t
        · right
          refine ⟨runId, completedAt, ?_, ?_⟩
          · simp [completion, hOwned, hTimer]
          · intro timer hStored
            rw [hNext, hStored]
            simp [hTimer]
        · left
          refine ⟨?_, ?_⟩
          · simp [completion, hOwned, hTimer]
          · rw [hNext]
            cases state.timers[t]? <;> simp [hTimer]
  | failRun =>
      left
      refine ⟨rfl, ?_⟩
      rcases applyKronCommand_failRun hApply with
        ⟨_, rfl⟩ | ⟨active, _, rfl⟩ <;> rfl
  | expireRunLease =>
      left
      refine ⟨rfl, ?_⟩
      rcases applyKronCommand_expireRunLease hApply with
        ⟨_, rfl⟩ | ⟨active, _, rfl⟩
      · rfl
      · simp
  | heartbeatWorker =>
      cases hApply
      exact .inl ⟨rfl, rfl⟩
  | registerWorker =>
      cases hApply
      exact .inl ⟨rfl, rfl⟩
  | _ => cases hIssued

/- An idle timer stays idle unless a claim of it is taken. -/
theorem idle_step
    (hApply :
      applyKronCommand cal state command = some state')
    (hIdle : state.hasActive t = false)
    (hNot :
      ∀ active, runEffect state command = .claimed active →
        active.timerId ≠ t) :
    state'.hasActive t = false := by
  have hRuns := applyKronCommand_activeRuns hApply
  rw [Bool.eq_false_iff]
  intro hActive
  rcases (state'.hasActive_iff t).mp hActive with
    ⟨runId, active, hGet, hTimer⟩
  rw [hRuns] at hGet
  cases hEffect : runEffect state command with
  | keep =>
      rw [hEffect] at hGet
      exact not_active_of_idle hIdle hGet hTimer
  | ended gone active₀ =>
      rw [hEffect, RunEffect.activeRuns,
        BTreeMap.get_erase] at hGet
      by_cases hEq : gone = runId
      · simp [hEq] at hGet
      · rw [if_neg hEq] at hGet
        exact not_active_of_idle hIdle hGet hTimer
  | claimed taken =>
      rw [hEffect, RunEffect.activeRuns,
        BTreeMap.get_insert] at hGet
      by_cases hEq : taken.runId = runId
      · rw [if_pos hEq] at hGet
        have hSame : taken = active := Option.some.inj hGet
        subst hSame
        exact hNot taken hEffect hTimer
      · rw [if_neg hEq] at hGet
        exact not_active_of_idle hIdle hGet hTimer

/- A timer whose run ends is idle. -/
theorem idle_of_ended
    {runId : RunId}
    {active : PersistedActiveRun}
    (hApply :
      applyKronCommand cal state command = some state')
    (hOwner : SingleOwner state)
    (hEffect : runEffect state command = .ended runId active)
    (hTimer : active.timerId = t) :
    state'.hasActive t = false := by
  have hRuns := applyKronCommand_activeRuns hApply
  have hGone := runEffect_eq_ended hEffect
  rw [Bool.eq_false_iff]
  intro hActive
  rcases (state'.hasActive_iff t).mp hActive with
    ⟨other, active', hGet, hTimer'⟩
  rw [hRuns, hEffect, RunEffect.activeRuns,
    BTreeMap.get_erase] at hGet
  by_cases hEq : runId = other
  · simp [hEq] at hGet
  · rw [if_neg hEq] at hGet
    exact hEq (hOwner.single _ _ _ _ hGone hGet
      (hTimer.trans hTimer'.symm))

/- A timer whose run ends was active. -/
theorem active_of_ended
    {runId : RunId}
    {active : PersistedActiveRun}
    (hEffect : runEffect state command = .ended runId active)
    (hTimer : active.timerId = t) :
    state.hasActive t = true :=
  (state.hasActive_iff t).mpr
    ⟨runId, active, runEffect_eq_ended hEffect, hTimer⟩

end Kron

------------------------------------------------------------
-- Completed Occurrences
------------------------------------------------------------

namespace Kron

/- An accepted claim of the timer took its next run. -/
def CurrentClaim
    (t : TimerId)
    (state : PersistedStateMachine)
    (p : Proposal) : Prop :=
  ∀ occurrence ∈ acceptedOccurrence t (state, p),
    state.nextRuns[t]? = some occurrence

instance
    (t : TimerId)
    (state : PersistedStateMachine)
    (p : Proposal) :
    Decidable (CurrentClaim t state p) :=
  inferInstanceAs (Decidable (∀ _ ∈ _, _))

/- A completion of the timer moves its next run forward. -/
def Advances
    (cal : Calendar)
    (t : TimerId)
    (state : PersistedStateMachine)
    (p : Proposal) : Prop :=
  ∀ done ∈ completion t state p.command,
    ∀ timer ∈ state.timers[t]?,
      ∀ next ∈ timer.rescheduledAt cal done.2,
        ∀ current ∈ state.nextRuns[t]?, current < next

instance
    (cal : Calendar)
    (t : TimerId)
    (state : PersistedStateMachine)
    (p : Proposal) :
    Decidable (Advances cal t state p) :=
  inferInstanceAs
    (Decidable (∀ _ ∈ _, ∀ _ ∈ _, ∀ _ ∈ _, ∀ _ ∈ _, _))

/-
  The timer is not created, accepted claims of it take its
  next run, and completions move the next run forward.
-/
def OccurrenceStep
    (cal : Calendar)
    (t : TimerId)
    (s : Cluster)
    (p : Proposal) : Prop :=
  p.command.created? ≠ some t ∧
    CurrentClaim t s.state p ∧ Advances cal t s.state p

instance
    (cal : Calendar)
    (t : TimerId)
    (s : Cluster)
    (p : Proposal) :
    Decidable (OccurrenceStep cal t s p) :=
  inferInstanceAs (Decidable (_ ∧ _ ∧ _))

/- The next run is at least the bound, or there is none. -/
def NextAbove
    (t : TimerId)
    (state : PersistedStateMachine)
    (bound : DateTime → Prop) : Prop :=
  (∃ next, state.nextRuns[t]? = some next ∧ bound next) ∨
    (state.nextRuns[t]? = none ∧ state.hasActive t = false)

/-
  Accepted occurrences are at most the next run, completed
  ones are below it, and none is accepted after it completes.
-/
private structure OccurrencesOk
    (t : TimerId)
    (state : PersistedStateMachine)
    (trace : List (PersistedStateMachine × Proposal)) :
    Prop where
  owner : SingleOwner state
  stored :
    ∀ commit ∈ trace,
      (acceptedOccurrence t commit).isSome →
        (state.timers[t]?).isSome
  taken :
    ∀ commit ∈ trace, ∀ n,
      acceptedOccurrence t commit = some n →
        NextAbove t state (n ≤ ·)
  done :
    ∀ claim finish, [claim, finish].Sublist trace →
      ∀ n, acceptedOccurrence t claim = some n →
        (completion t finish.1 finish.2.command).isSome →
          NextAbove t state (n < ·)
  never :
    ∀ claim finish later,
      [claim, finish, later].Sublist trace →
        ∀ n, acceptedOccurrence t claim = some n →
          (completion t finish.1 finish.2.command).isSome →
            acceptedOccurrence t later ≠ some n

/- An accepted occurrence belongs to an accepted claim. -/
theorem acceptedOccurrence_eq_some
    {t : TimerId}
    {state : PersistedStateMachine}
    {p : Proposal}
    {n : DateTime}
    (hOccurrence :
      acceptedOccurrence t (state, p) = some n) :
    ∃ active pick,
      runEffect state p.command = .claimed active ∧
        active.timerId = t ∧ p.pick = some pick ∧
          pick.occurrence = n := by
  unfold acceptedOccurrence at hOccurrence
  cases hAccepted : accepted (state, p) with
  | none => simp [hAccepted] at hOccurrence
  | some active =>
      cases hPick : p.pick with
      | none => simp [hAccepted, hPick] at hOccurrence
      | some pick =>
          simp only [hAccepted, hPick] at hOccurrence
          by_cases hTimer : active.timerId = t
          · rw [if_pos hTimer] at hOccurrence
            exact ⟨active, pick,
              accepted_eq_some hAccepted, hTimer, rfl,
              Option.some.inj hOccurrence⟩
          · rw [if_neg hTimer] at hOccurrence
            cases hOccurrence

/- Claims in flight carry their pick. -/
def ClaimsPicked
    (p : Proposal) : Prop :=
  ∀ claim ∈ p.command.claim?, p.pick.isSome

theorem Proposes.claimsPicked
    {cal : Calendar}
    {state : PersistedStateMachine}
    {call : Call}
    {p : Proposal}
    (hProposes : Proposes cal state call p) :
    ClaimsPicked p := by
  intro claim hClaim
  cases hProposes with
  | claim hPicked => rfl
  | _ => cases hClaim

/- A picked claim of the timer takes an occurrence. -/
theorem acceptedOccurrence_of_claimed
    {t : TimerId}
    {state : PersistedStateMachine}
    {p : Proposal}
    {active : PersistedActiveRun}
    (hPicked : ClaimsPicked p)
    (hEffect : runEffect state p.command = .claimed active)
    (hTimer : active.timerId = t) :
    ∃ n, acceptedOccurrence t (state, p) = some n := by
  have hCommand := (runEffect_eq_claimed hEffect).1
  have hSome :=
    hPicked (active.runId, active.timerId)
      (by simp [hCommand, RaftCommand.claim?])
  rcases Option.isSome_iff_exists.mp hSome with ⟨pick, hPick⟩
  refine ⟨pick.occurrence, ?_⟩
  simp [acceptedOccurrence, accepted, hEffect, hPick, hTimer]

section Step

variable {cal : Calendar}
variable {t : TimerId}
variable {s : Cluster}
variable {p : Proposal}
variable {state' : PersistedStateMachine}

/- A completion moves the next run above its bound. -/
private theorem nextAbove_of_ended
    {bound bound' : DateTime → Prop}
    {runId : RunId}
    {at_ : DateTime}
    (hOwner : SingleOwner s.state)
    (hStored : (s.state.timers[t]?).isSome)
    (hApply :
      applyKronCommand cal s.state p.command = some state')
    (hDone :
      completion t s.state p.command = some (runId, at_))
    (hNext :
      ∀ timer, s.state.timers[t]? = some timer →
        state'.nextRuns[t]? = timer.rescheduledAt cal at_)
    (hAdvances : Advances cal t s.state p)
    (hUp : ∀ x y, bound x → x < y → bound' y)
    (hAbove : NextAbove t s.state bound) :
    NextAbove t state' bound' := by
  rcases completion_eq_some hDone with
    ⟨active, hEffect, hTimer⟩
  rcases Option.isSome_iff_exists.mp hStored with
    ⟨timer, hGet⟩
  rcases hAbove with ⟨next, hEq, hBound⟩ | ⟨_, hIdle⟩
  · cases hNew : timer.rescheduledAt cal at_ with
    | none =>
        refine .inr ⟨(hNext timer hGet).trans hNew, ?_⟩
        exact idle_of_ended hApply hOwner hEffect hTimer
    | some next' =>
        have hLt :=
          hAdvances _ hDone timer hGet next' hNew next hEq
        exact .inl
          ⟨next', (hNext timer hGet).trans hNew,
            hUp next next' hBound hLt⟩
  · rw [active_of_ended hEffect hTimer] at hIdle
    cases hIdle

/- The next run stays above a bound that grows with it. -/
private theorem nextAbove_step
    {bound : DateTime → Prop}
    (hOwner : SingleOwner s.state)
    (hStored : (s.state.timers[t]?).isSome)
    (hIssued : p.command.issued = true)
    (hPicked : ClaimsPicked p)
    (hStep : OccurrenceStep cal t s p)
    (hApply :
      applyKronCommand cal s.state p.command = some state')
    (hUp : ∀ x y, bound x → x < y → bound y)
    (hAbove : NextAbove t s.state bound) :
    NextAbove t state' bound := by
  rcases hStep with ⟨hKept, hCurrent, hAdvances⟩
  rcases nextRuns_step hApply hIssued hKept with
    ⟨_, hSame⟩ | ⟨runId, at_, hDone, hNext⟩
  · rcases hAbove with ⟨next, hEq, hBound⟩ | ⟨hNone, hIdle⟩
    · exact .inl ⟨next, hSame.trans hEq, hBound⟩
    · refine .inr ⟨hSame.trans hNone, ?_⟩
      apply idle_step hApply hIdle
      intro active hEffect hTimer
      rcases acceptedOccurrence_of_claimed hPicked hEffect
        hTimer with ⟨n, hOccurrence⟩
      have hEq := hCurrent n hOccurrence
      rw [hNone] at hEq
      cases hEq
  · exact
      nextAbove_of_ended hOwner hStored hApply hDone hNext
        hAdvances hUp hAbove

/- A completion moves the next run above what was taken. -/
private theorem nextAbove_of_completion
    {n : DateTime}
    (hOwner : SingleOwner s.state)
    (hStored : (s.state.timers[t]?).isSome)
    (hIssued : p.command.issued = true)
    (hStep : OccurrenceStep cal t s p)
    (hApply :
      applyKronCommand cal s.state p.command = some state')
    (hSome : (completion t s.state p.command).isSome)
    (hAbove : NextAbove t s.state (n ≤ ·)) :
    NextAbove t state' (n < ·) := by
  rcases hStep with ⟨hKept, _, hAdvances⟩
  rcases nextRuns_step hApply hIssued hKept with
    ⟨hNone, _⟩ | ⟨runId, at_, hDone, hNext⟩
  · rw [hNone] at hSome
    cases hSome
  · exact
      nextAbove_of_ended hOwner hStored hApply hDone hNext
        hAdvances (fun _ _ => lt_of_le_of_lt) hAbove

/- An accepted claim leaves the next run it took. -/
private theorem nextRuns_of_accepted
    {n : DateTime}
    (hIssued : p.command.issued = true)
    (hStep : OccurrenceStep cal t s p)
    (hApply :
      applyKronCommand cal s.state p.command = some state')
    (hOccurrence :
      acceptedOccurrence t (s.state, p) = some n) :
    state'.nextRuns[t]? = some n := by
  rcases hStep with ⟨hKept, hCurrent, _⟩
  rcases acceptedOccurrence_eq_some hOccurrence with
    ⟨active, pick, hEffect, _⟩
  rcases nextRuns_step hApply hIssued hKept with
    ⟨_, hSame⟩ | ⟨runId, at_, hDone, _⟩
  · exact hSame.trans (hCurrent n hOccurrence)
  · rcases completion_eq_some hDone with ⟨_, hEnded, _⟩
    rw [hEffect] at hEnded
    cases hEnded

/- One commit keeps the order of the occurrences. -/
private theorem occurrencesOk_commit
    (hOk : OccurrencesOk t s.state s.trace)
    (hIssued : p.command.issued = true)
    (hClaims : ClaimsStored s.state p)
    (hPicked : ClaimsPicked p)
    (hStep : OccurrenceStep cal t s p)
    (hApply :
      applyKronCommand cal s.state p.command =
        some state') :
    OccurrencesOk t state' (s.trace ++ [(s.state, p)]) := by
  have hNewStored :
      (acceptedOccurrence t (s.state, p)).isSome →
        (s.state.timers[t]?).isSome := by
    intro hSome
    rcases Option.isSome_iff_exists.mp hSome with
      ⟨n, hOccurrence⟩
    rcases acceptedOccurrence_eq_some hOccurrence with
      ⟨active, _, hEffect, rfl, _⟩
    have hCommand := (runEffect_eq_claimed hEffect).1
    exact hClaims (active.runId, active.timerId)
      (by simp [hCommand, RaftCommand.claim?])
  have hKeep :
      ∀ (bound : DateTime → Prop),
        (∀ x y, bound x → x < y → bound y) →
          (s.state.timers[t]?).isSome →
            NextAbove t s.state bound →
              NextAbove t state' bound := by
    intro bound hUp hStored
    exact nextAbove_step hOk.owner hStored hIssued hPicked
      hStep hApply hUp
  refine ⟨singleOwner_step hOk.owner hApply, ?_, ?_, ?_, ?_⟩
  · intro commit hMem hSome
    apply timers_isSome_step hApply hIssued
    rcases List.mem_append.mp hMem with hOld | hNew
    · exact hOk.stored commit hOld hSome
    · rw [List.mem_singleton.mp hNew] at hSome
      exact hNewStored hSome
  · intro commit hMem n hOccurrence
    rcases List.mem_append.mp hMem with hOld | hNew
    · apply hKeep
      · intro x y hx hxy
        exact hx.trans hxy.le
      · exact hOk.stored commit hOld (by simp [hOccurrence])
      · exact hOk.taken commit hOld n hOccurrence
    · rw [List.mem_singleton.mp hNew] at hOccurrence
      exact .inl
        ⟨n, nextRuns_of_accepted hIssued hStep hApply
          hOccurrence, le_refl n⟩
  · intro claim finish hSub n hOccurrence hSome
    rcases Replicated.sublist_concat [claim]
      hSub with hOld | ⟨rfl, hClaim⟩
    · have hMem : claim ∈ s.trace :=
        hOld.subset List.mem_cons_self
      apply hKeep
      · intro x y hx hxy
        exact hx.trans hxy
      · exact hOk.stored claim hMem (by simp [hOccurrence])
      · exact hOk.done claim finish hOld n hOccurrence hSome
    · have hMem : claim ∈ s.trace :=
        List.singleton_sublist.mp hClaim
      exact nextAbove_of_completion hOk.owner
        (hOk.stored claim hMem (by simp [hOccurrence]))
        hIssued hStep hApply hSome
        (hOk.taken claim hMem n hOccurrence)
  · intro claim finish later hSub n hOccurrence hSome
    rcases Replicated.sublist_concat [claim, finish]
      hSub with hOld | ⟨rfl, hPair⟩
    · exact hOk.never claim finish later hOld n hOccurrence
        hSome
    · intro hLater
      have hNext := hStep.2.1 n hLater
      rcases hOk.done claim finish hPair n hOccurrence
        hSome with ⟨next, hEq, hLt⟩ | ⟨hNone, _⟩
      · rw [hEq] at hNext
        cases hNext
        exact lt_irrefl _ hLt
      · rw [hNone] at hNext
        cases hNext

end Step

/-
  From any state that a command log reaches, in every run in
  which the timer is not created, an accepted claim of it
  takes the next run it was picked for and a completion moves
  the next run forward: after a completed claim of an
  occurrence no claim of the same occurrence is accepted.
-/
theorem no_claim_after_completion
    (cal : Calendar)
    (t : TimerId)
    (log : List RaftCommand)
    (start : PersistedStateMachine)
    (hStart : applyLog cal .default log = some start)
    (labels : List ClusterLabel)
    (c : Cluster)
    (hMeets :
      Machine.Meets (Cluster.step cal)
        (Replicated.Steps (fun _ _ => True)
          (OccurrenceStep cal t))
        (.init start) labels)
    (hRun : Cluster.run cal (.init start) labels = some c)
    (claim finish later :
      PersistedStateMachine × Proposal)
    (hOrder : [claim, finish, later].Sublist c.trace)
    (n : DateTime)
    (hClaim : acceptedOccurrence t claim = some n)
    (hFinish :
      (completion t finish.1 finish.2.command).map
          Prod.fst =
        (accepted claim).map PersistedActiveRun.runId) :
    acceptedOccurrence t later ≠ some n := by
  have hSome :
      (completion t finish.1 finish.2.command).isSome := by
    rcases acceptedOccurrence_eq_some hClaim with
      ⟨active, pick, hEffect, _⟩
    have hAccepted : accepted claim = some active := by
      simp [accepted, hEffect]
    rw [hAccepted, Option.map_some,
      Option.map_eq_some_iff] at hFinish
    rcases hFinish with ⟨done, hDone, _⟩
    simp [hDone]
  have hRule :=
    Replicated.run_rule
      (fun state _ trace => OccurrencesOk t state trace)
      (fun state _ p =>
        p.command.issued = true ∧ ClaimsStored state p ∧
          ClaimsPicked p)
      (fun _ _ hGood _ => hGood)
      (by
        rintro s call _ _ p (hMem | hOld)
        · have hProposes := proposes_of_mem hMem
          exact ⟨hProposes.issued, hProposes.claimsStored,
            hProposes.claimsPicked⟩
        · exact hOld)
      (by
        rintro s p state hGood ⟨hIssued, hStored, hPicked⟩
          hStep hApply
        exact occurrencesOk_commit hGood hIssued hStored
          hPicked hStep hApply)
      (by
        rintro s p q state _ ⟨hIssued, _⟩ _ hApply
          ⟨hIssued', hStored', hPicked'⟩
        refine ⟨hIssued', ?_, hPicked'⟩
        intro claim hClaim
        exact timers_isSome_step hApply hIssued
          (hStored' claim hClaim))
      ⟨singleOwner_applyLog singleOwner_default hStart,
        by simp [Replicated.System.init],
        by simp [Replicated.System.init],
        by simp [Replicated.System.init],
        by simp [Replicated.System.init]⟩
      (by simp [Replicated.System.init])
      hMeets hRun
  exact hRule.1.never claim finish later hOrder n hClaim hSome

/- A stored timer that runs every second from the first. -/
def sampleTimer
    (maxAttempts : UInt32) : RaftCommand :=
  .createTimer
    { id := "t"
      tenantId := none
      schedule := .every 1
      retry :=
        { RetryPolicy.default with
          maxAttempts := maxAttempts }
      timezone := "UTC"
      target := .workerTask "task" "null"
      createdAt := 0 }
    (some nanosPerSecond)

/- The state after the sample timer is created. -/
def sampleStart : PersistedStateMachine :=
  match sampleTimer 3 with
  | .createTimer spec next =>
      PersistedStateMachine.default.putTimer spec next
  | _ => .default

/- What a commit claims or completes of the sample timer. -/
def sampleView
    (commit : PersistedStateMachine × Proposal) :
    Option DateTime × Option RunId × Option RunId :=
  (acceptedOccurrence "t" commit,
    (completion "t" commit.1 commit.2.command).map Prod.fst,
    (accepted commit).map PersistedActiveRun.runId)

/- Two polls, the second after the first run completes. -/
def inTurn : List ClusterLabel :=
  atOnce
    [pollAt "w1" none "r1" 2, completeAt "w1" none "r1" 1 3,
      pollAt "w2" none "r2" 5]

theorem no_claim_after_completion_inTurn :
    ∃ c claim finish later,
      applyLog utcCalendar .default [sampleTimer 3] =
          some sampleStart ∧
        Cluster.run utcCalendar (.init sampleStart)
            inTurn = some c ∧
          c.trace = [claim, finish, later] ∧
            acceptedOccurrence "t" claim =
                some nanosPerSecond ∧
              acceptedOccurrence "t" later ≠
                some nanosPerSecond := by
  have hView :
      (Cluster.run utcCalendar (.init sampleStart)
          inTurn).map (fun c => c.trace.map sampleView) =
        some
          [(some nanosPerSecond, none, some "r1"),
            (none, some "r1", none),
            (some (4 * nanosPerSecond), none,
              some "r2")] := by
    decide +kernel
  rcases Option.map_eq_some_iff.mp hView with
    ⟨c, hRun, hTrace⟩
  simp only [List.map_eq_cons_iff,
    List.map_eq_nil_iff] at hTrace
  rcases hTrace with
    ⟨claim, _, hEq₁, hClaim, finish, _, rfl, hFinish,
      later, _, rfl, hLater, rfl⟩
  refine ⟨c, claim, finish, later, rfl, hRun, hEq₁,
    congrArg Prod.fst hClaim, ?_⟩
  apply no_claim_after_completion utcCalendar "t"
    [sampleTimer 3] sampleStart rfl inTurn c
    (by decide +kernel) hRun claim finish later
    (by rw [hEq₁]) nanosPerSecond (congrArg Prod.fst hClaim)
  have hDone := congrArg (fun v => v.2.1) hFinish
  have hTaken := congrArg (fun v => v.2.2) hClaim
  exact hDone.trans hTaken.symm

/- Two polls pick the same run; the second commits late. -/
def lateClaim : List ClusterLabel :=
  [.call (pollAt "w1" none "r1" 2),
    .call (pollAt "w2" none "r2" 2), .commit 0,
    .call (completeAt "w1" none "r1" 1 3), .commit 1,
    .commit 0]

/- A late claim takes an occurrence that has completed. -/
theorem claim_after_completion :
    ∃ c claim finish later,
      applyLog utcCalendar .default [sampleTimer 3] =
          some sampleStart ∧
        Cluster.run utcCalendar (.init sampleStart)
            lateClaim = some c ∧
          c.trace = [claim, finish, later] ∧
            acceptedOccurrence "t" claim =
                some nanosPerSecond ∧
              (completion "t" finish.1
                  finish.2.command).map Prod.fst =
                (accepted claim).map
                  PersistedActiveRun.runId ∧
                acceptedOccurrence "t" later =
                  some nanosPerSecond := by
  have hView :
      (Cluster.run utcCalendar (.init sampleStart)
          lateClaim).map (fun c => c.trace.map sampleView) =
        some
          [(some nanosPerSecond, none, some "r1"),
            (none, some "r1", none),
            (some nanosPerSecond, none,
              some "r2")] := by
    decide +kernel
  rcases Option.map_eq_some_iff.mp hView with
    ⟨c, hRun, hTrace⟩
  simp only [List.map_eq_cons_iff,
    List.map_eq_nil_iff] at hTrace
  rcases hTrace with
    ⟨claim, _, hEq₁, hClaim, finish, _, rfl, hFinish,
      later, _, rfl, hLater, rfl⟩
  refine ⟨c, claim, finish, later, rfl, hRun, hEq₁,
    congrArg Prod.fst hClaim, ?_,
    congrArg Prod.fst hLater⟩
  have hDone := congrArg (fun v => v.2.1) hFinish
  have hTaken := congrArg (fun v => v.2.2) hClaim
  exact hDone.trans hTaken.symm

end Kron
