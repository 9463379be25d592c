import Kron.Server.Occurrences

/-
  Run ids that are drawn once.

  When `RunId::new` never repeats an id, a run id belongs to
  the one timer it was drawn for: an accepted claim never
  replaces another run, and the expiry of a run retries the
  timer of that run.

  Key definitions include:
    * `Kron.drawn`
    * `Kron.FreshDraw`
    * `Kron.DrawsOnce`
    * `Kron.RunIdsOk`
    * `Kron.Traced`

  Key theorems include:
    * `Kron.proposals_claim_eq`
    * `Kron.runIdsOk_call`
    * `Kron.runIdsOk_commit`
    * `Kron.not_active_of_claimed`
    * `Kron.replacement_timer`
-/

------------------------------------------------------------
-- Drawn Ids
------------------------------------------------------------

namespace Kron

/- The run ids that were drawn, with their timers. -/
def drawn
    (proposed : List Proposal) : List (RunId × TimerId) :=
  proposed.filterMap fun p => p.command.claim?

/- A call draws only ids that were not drawn before. -/
def FreshDraw
    (cal : Calendar)
    (s : Cluster)
    (call : Call) : Prop :=
  ∀ claim ∈ drawn (proposals cal s.state call),
    ∀ old ∈ drawn s.proposed, old.1 ≠ claim.1

instance
    (cal : Calendar)
    (s : Cluster)
    (call : Call) :
    Decidable (FreshDraw cal s call) :=
  inferInstanceAs (Decidable (∀ _ ∈ _, ∀ _ ∈ _, _))

/- No call draws a run id that was drawn before. -/
def DrawsOnce
    (cal : Calendar) :
    Cluster → ClusterLabel → Prop :=
  Replicated.Steps (FreshDraw cal) fun _ _ => True

instance
    (cal : Calendar)
    (s : Cluster)
    (label : ClusterLabel) :
    Decidable (DrawsOnce cal s label) :=
  inferInstanceAs (Decidable (Replicated.Steps _ _ s label))

/- The run that a command retries, with its timer. -/
def RaftCommand.retry? :
    RaftCommand → Option (RunId × TimerId)
| .expireRunLease runId (some run) _ =>
    some (runId, run.timer)
| _ => none

/- Claims and retries in flight are of drawn runs. -/
structure Traced
    (proposed : List Proposal)
    (p : Proposal) : Prop where
  claim :
    ∀ claim ∈ p.command.claim?, claim ∈ drawn proposed
  retry :
    ∀ retry ∈ p.command.retry?, retry ∈ drawn proposed

/- Each run id has one timer, that of its active run. -/
structure RunIdsOk
    (state : PersistedStateMachine)
    (proposed : List Proposal) : Prop where
  owner : SingleOwner state
  unique :
    ∀ x ∈ drawn proposed, ∀ y ∈ drawn proposed,
      x.1 = y.1 → x.2 = y.2
  active :
    ∀ (runId : RunId) (active : PersistedActiveRun),
      state.activeRuns[runId]? = some active →
        (runId, active.timerId) ∈ drawn proposed

theorem drawn_append
    (xs ys : List Proposal) :
    drawn (xs ++ ys) = drawn xs ++ drawn ys :=
  List.filterMap_append

/- A call proposes at most one claim. -/
theorem proposals_claim_eq
    {cal : Calendar}
    {state : PersistedStateMachine}
    {call : Call}
    {p q : Proposal}
    {x : RunId × TimerId}
    (hp : p ∈ proposals cal state call)
    (hq : q ∈ proposals cal state call)
    (hClaim : p.command.claim? = some x) :
    p = q := by
  -- only a poll claims, and its proposals are one at most
  cases call with
  | pollWorker request tenantId now runId at_ lease =>
      simp only [proposals] at hp hq
      cases hPick :
          tryClaim cal state.appState request tenantId
            now runId with
      | none => simp [hPick] at hp
      | some pick =>
          cases hCommand : claimCommand pick at_ lease with
          | none => simp [hPick, hCommand] at hp
          | some command =>
              simp only [hPick, hCommand,
                Option.toList_some, List.map_cons,
                List.map_nil, List.mem_singleton] at hp hq
              rw [hp, hq]
  | _ =>
      cases proposes_of_mem hp <;> cases hClaim

/- A call draws at most one id. -/
private theorem drawn_proposals
    {cal : Calendar}
    {state : PersistedStateMachine}
    {call : Call}
    {x y : RunId × TimerId}
    (hx : x ∈ drawn (proposals cal state call))
    (hy : y ∈ drawn (proposals cal state call)) :
    x = y := by
  rcases List.mem_filterMap.mp hx with ⟨p, hp, hClaim⟩
  rcases List.mem_filterMap.mp hy with ⟨q, hq, hClaim'⟩
  have hSame : p = q := proposals_claim_eq hp hq hClaim
  subst hSame
  rw [hClaim] at hClaim'
  exact Option.some.inj hClaim'

/- Fresh draws keep each run id with one timer. -/
theorem runIdsOk_call
    {cal : Calendar}
    {s : Cluster}
    {call : Call}
    (hIds : RunIdsOk s.state s.proposed)
    (hFresh : FreshDraw cal s call) :
    RunIdsOk s.state
      (s.proposed ++ proposals cal s.state call) := by
  refine ⟨hIds.owner, ?_, ?_⟩
  · intro x hx y hy hEq
    rw [drawn_append, List.mem_append] at hx hy
    rcases hx with hx | hx
    · rcases hy with hy | hy
      · exact hIds.unique x hx y hy hEq
      · exact absurd hEq (hFresh y hy x hx)
    · rcases hy with hy | hy
      · exact absurd hEq.symm (hFresh x hx y hy)
      · rw [drawn_proposals hx hy]
  · intro runId active hGet
    rw [drawn_append]
    exact List.mem_append_left _
      (hIds.active runId active hGet)

/- A replacement retries the run it replaces. -/
theorem replacementRun_eq_some
    {app : RaftAppState}
    {active : PersistedActiveRun}
    {run : WorkerRun}
    (hRun : replacementRun app active = some run) :
    run.timer = active.timerId ∧ run.runId = active.runId ∧
      run.attempt = active.attempt + 1 := by
  unfold replacementRun at hRun
  split at hRun
  · cases hRun
  · split at hRun
    · cases hRun
    · split at hRun
      · cases hRun
        exact ⟨rfl, rfl, rfl⟩
      · cases hRun

/- What a call proposes is about drawn runs. -/
theorem traced_of_proposes
    {cal : Calendar}
    {s : Cluster}
    {call : Call}
    {p : Proposal}
    (hIds : RunIdsOk s.state s.proposed)
    (hMem : p ∈ proposals cal s.state call) :
    Traced (s.proposed ++ proposals cal s.state call) p := by
  constructor
  · intro claim hClaim
    rw [drawn_append]
    exact List.mem_append_right _
      (List.mem_filterMap.mpr ⟨p, hMem, hClaim⟩)
  · intro retry hRetry
    rw [drawn_append]
    apply List.mem_append_left
    cases proposes_of_mem hMem with
    | expire hActive hDue =>
        rename_i runId active
        have hKey := hIds.owner.keys runId active hActive
        cases hRun :
            replacementRun s.state.appState active with
        | none =>
            rw [hRun] at hRetry
            cases hRetry
        | some run =>
            rw [hRun] at hRetry
            cases hRetry
            rw [(replacementRun_eq_some hRun).1, hKey]
            exact hIds.active runId active hActive
    | _ => cases hRetry

/- More proposals keep what was traced. -/
theorem traced_append
    {proposed more : List Proposal}
    {p : Proposal}
    (hTraced : Traced proposed p) :
    Traced (proposed ++ more) p := by
  constructor
  · intro claim hClaim
    rw [drawn_append]
    exact List.mem_append_left _ (hTraced.claim claim hClaim)
  · intro retry hRetry
    rw [drawn_append]
    exact List.mem_append_left _ (hTraced.retry retry hRetry)

/- A commit keeps each run id with one timer. -/
theorem runIdsOk_commit
    {cal : Calendar}
    {state state' : PersistedStateMachine}
    {proposed : List Proposal}
    {p : Proposal}
    (hIds : RunIdsOk state proposed)
    (hTraced : Traced proposed p)
    (hApply :
      applyKronCommand cal state p.command = some state') :
    RunIdsOk state' proposed := by
  refine ⟨singleOwner_step hIds.owner hApply, hIds.unique,
    ?_⟩
  intro runId active hGet
  rcases activeRun_cases hApply hGet with
    hBefore | ⟨hKey, hCommand⟩
  · exact hIds.active runId active hBefore
  · subst hKey
    exact
      hTraced.claim _
        (by simp [hCommand, RaftCommand.claim?])

/- An accepted claim replaces no active run. -/
theorem not_active_of_claimed
    {state : PersistedStateMachine}
    {proposed : List Proposal}
    {p : Proposal}
    {taken : PersistedActiveRun}
    (hIds : RunIdsOk state proposed)
    (hTraced : Traced proposed p)
    (hEffect : runEffect state p.command = .claimed taken) :
    state.activeRuns[taken.runId]? = none := by
  rcases runEffect_eq_claimed hEffect with
    ⟨hCommand, hIdle⟩
  cases hGet : state.activeRuns[taken.runId]? with
  | none => rfl
  | some active =>
      have hClaim :
          (taken.runId, taken.timerId) ∈ drawn proposed :=
        hTraced.claim _
          (by simp [hCommand, RaftCommand.claim?])
      have hSame :=
        hIds.unique _ (hIds.active _ _ hGet) _ hClaim rfl
      exact absurd hSame (not_active_of_idle hIdle hGet)

/- The expiry of a run retries its own timer. -/
theorem replacement_timer
    {state : PersistedStateMachine}
    {proposed : List Proposal}
    {p : Proposal}
    {runId : RunId}
    {run : WorkerRun}
    {expiredAt : DateTime}
    {active : PersistedActiveRun}
    (hIds : RunIdsOk state proposed)
    (hTraced : Traced proposed p)
    (hCommand :
      p.command =
        .expireRunLease runId (some run) expiredAt)
    (hGet : state.activeRuns[runId]? = some active) :
    run.timer = active.timerId := by
  have hRetry :
      (runId, run.timer) ∈ drawn proposed :=
    hTraced.retry _ (by simp [hCommand, RaftCommand.retry?])
  exact hIds.unique _ hRetry _ (hIds.active _ _ hGet) rfl

/- A timer stays active unless one of its runs ends. -/
theorem active_step
    {cal : Calendar}
    {state state' : PersistedStateMachine}
    {proposed : List Proposal}
    {p : Proposal}
    {t : TimerId}
    (hIds : RunIdsOk state proposed)
    (hTraced : Traced proposed p)
    (hApply :
      applyKronCommand cal state p.command = some state')
    (hActive : state.hasActive t = true)
    (hNot :
      ∀ runId active,
        runEffect state p.command = .ended runId active →
          active.timerId ≠ t) :
    state'.hasActive t = true := by
  rcases (state.hasActive_iff t).mp hActive with
    ⟨runId, active, hGet, hTimer⟩
  apply (state'.hasActive_iff t).mpr
  refine ⟨runId, active, ?_, hTimer⟩
  rw [applyKronCommand_activeRuns hApply]
  cases hEffect : runEffect state p.command with
  | keep => exact hGet
  | ended gone active₀ =>
      have hGone := runEffect_eq_ended hEffect
      have hNe : gone ≠ runId := by
        rintro rfl
        rw [hGone] at hGet
        have hSame : active₀ = active := Option.some.inj hGet
        exact hNot gone active₀ hEffect (hSame ▸ hTimer)
      rw [RunEffect.activeRuns, BTreeMap.get_erase,
        if_neg hNe]
      exact hGet
  | claimed taken =>
      have hFree :=
        not_active_of_claimed hIds hTraced hEffect
      have hNe : taken.runId ≠ runId := by
        rintro rfl
        rw [hFree] at hGet
        cases hGet
      rw [RunEffect.activeRuns, BTreeMap.get_insert,
        if_neg hNe]
      exact hGet

end Kron
