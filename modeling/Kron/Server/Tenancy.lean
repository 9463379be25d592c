import Kron.Server.Cluster

/-
  What one tenant's calls do to another tenant's views.

  Timers live in one name space. A creation stores its timer
  under the caller's tenant whoever owned the name before;
  every other call of a tenant concerns its own timers only.

  Key definitions include:
    * `Kron.touched`
    * `Kron.ScopedTo`
    * `Kron.SameViews`
    * `Kron.Confined`

  Key theorems include:
    * `Kron.applyKronCommand_touched`
    * `Kron.sameViews_of_kept`
    * `Kron.sameViews_iff_names_apart`
    * `Kron.views_of_taken_name`
-/

------------------------------------------------------------
-- The Timer A Command Concerns
------------------------------------------------------------

namespace Kron

/- The timer that a command of a tenant changes. -/
def touched
    (state : PersistedStateMachine) :
    RaftCommand → Option TimerId
| .createTimer spec _ => some spec.id
| .claimRun timerId _ _ _ _ _ =>
    if state.hasActive timerId then none else some timerId
| .completeRun runId workerId fencingToken _ =>
    (state.ownedRun runId workerId fencingToken).map
      PersistedActiveRun.timerId
| .failRun runId workerId fencingToken _ _ =>
    (state.ownedRun runId workerId fencingToken).map
      PersistedActiveRun.timerId
| _ => none

/- The commands that calls of tenants write. -/
def RaftCommand.tenantCommand : RaftCommand → Bool
| .expireRunLease _ _ _ => false
| command => command.issued

/-
  What a command leaves behind: the entries it adds name the
  timer it touches, under that timer's tenant, and every
  other timer stays as it was.
-/
structure Touch
    (state : PersistedStateMachine)
    (command : RaftCommand)
    (state' : PersistedStateMachine)
    (entries : List HistoryEntry) : Prop where
  history : state'.history = state.history ++ entries
  names :
    ∀ entry ∈ entries, ∀ t, entry.timer? = some t →
      touched state command = some t ∧
        entry.tenantId? = state'.timerTenant t
  timers :
    ∀ t, touched state command ≠ some t →
      state'.timers[t]? = state.timers[t]?
  nextRuns :
    ∀ t, touched state command ≠ some t →
      state'.nextRuns[t]? = state.nextRuns[t]?
  tenant :
    ∀ t, command.created? ≠ some t →
      state'.timerTenant t = state.timerTenant t
  created :
    ∀ spec ∈ command.createdSpec?,
      state'.timerTenant spec.id = spec.tenantId

section Touch

variable {cal : Calendar}
variable {state state' : PersistedStateMachine}

/- A command that changes nothing touches nothing. -/
private theorem touch_none
    {command : RaftCommand}
    (hCreated : command.createdSpec? = none) :
    Touch state command state [] where
  history := (List.append_nil _).symm
  names := by
    intro entry hMem
    cases hMem
  timers := fun _ _ => rfl
  nextRuns := fun _ _ => rfl
  tenant := fun _ _ => rfl
  created := by
    intro spec hSpec
    rw [hCreated] at hSpec
    cases hSpec

private theorem touch_create
    (spec : DistributedTimerSpec)
    (next : Option DateTime) :
    Touch state (.createTimer spec next)
      (state.putTimer spec next)
      [.timerCreated spec.id spec.tenantId] := by
  have hTenant :
      (state.putTimer spec next).timerTenant spec.id =
        spec.tenantId := by
    unfold PersistedStateMachine.timerTenant
    rw [state.get_putTimer, if_pos rfl]
    rfl
  refine ⟨state.putTimer_history spec next, ?_, ?_, ?_, ?_,
    ?_⟩
  · intro entry hMem t hName
    rw [List.mem_singleton.mp hMem] at hName ⊢
    cases hName
    exact ⟨rfl, hTenant.symm⟩
  · intro t hNe
    have hId : spec.id ≠ t := fun hEq => hNe (by
      rw [← hEq]
      rfl)
    rw [state.get_putTimer, if_neg hId]
  · intro t hNe
    have hId : spec.id ≠ t := fun hEq => hNe (by
      rw [← hEq]
      rfl)
    rw [state.nextRuns_putTimer, if_neg hId]
  · intro t hNe
    have hId : spec.id ≠ t := fun hEq => hNe (by
      rw [← hEq]
      rfl)
    unfold PersistedStateMachine.timerTenant
    rw [state.get_putTimer, if_neg hId]
  · intro spec' hSpec
    cases hSpec
    exact hTenant

/-
  A command about a run: it adds one record of the run and
  keeps the spec of its timer.
-/
private theorem touch_run
    {command : RaftCommand}
    (active : PersistedActiveRun)
    {entry : HistoryEntry}
    (hCreated : command.createdSpec? = none)
    (hTouched :
      touched state command = some active.timerId)
    (hName : entry.timer? = some active.timerId)
    (hTag :
      entry.tenantId? = state.timerTenant active.timerId)
    (hHistory : state'.history = state.history ++ [entry])
    (hTimers :
      ∀ t, active.timerId ≠ t →
        state'.timers[t]? = state.timers[t]?)
    (hNext :
      ∀ t, active.timerId ≠ t →
        state'.nextRuns[t]? = state.nextRuns[t]?)
    (hSpec :
      (state'.timers[active.timerId]?).map
          PersistedTimer.spec =
        (state.timers[active.timerId]?).map
          PersistedTimer.spec) :
    Touch state command state' [entry] := by
  have hTenant :
      ∀ t, state'.timerTenant t = state.timerTenant t := by
    intro t
    apply PersistedStateMachine.timerTenant_congr
    by_cases hEq : active.timerId = t
    · exact hEq ▸ hSpec
    · rw [hTimers t hEq]
  refine ⟨hHistory, ?_, ?_, ?_, fun t _ => hTenant t, ?_⟩
  · intro e hMem t he
    rw [List.mem_singleton.mp hMem] at he ⊢
    rw [hName] at he
    cases he
    exact ⟨hTouched, hTag.trans (hTenant _).symm⟩
  · intro t hNe
    exact hTimers t fun hEq =>
      hNe (by rw [hTouched, hEq])
  · intro t hNe
    exact hNext t fun hEq => hNe (by rw [hTouched, hEq])
  · intro spec hSpec
    rw [hCreated] at hSpec
    cases hSpec

/- Each command of a tenant touches one timer at most. -/
theorem applyKronCommand_touched
    {command : RaftCommand}
    (hTenant : command.tenantCommand = true)
    (hApply :
      applyKronCommand cal state command = some state') :
    ∃ entries, Touch state command state' entries := by
  cases command with
  | createTimer spec next =>
      cases hApply
      exact ⟨_, touch_create spec next⟩
  | claimRun timerId runId workerId token attempt deadline =>
      rcases applyKronCommand_claimRun hApply with
        ⟨_, rfl⟩ | ⟨hIdle, rfl⟩
      · exact ⟨[], touch_none rfl⟩
      · refine ⟨_, touch_run _ rfl ?_ rfl rfl
          (state.startActive_history _) ?_ ?_ ?_⟩
        · simp [touched, hIdle]
        · intro t hNe
          rw [state.get_startActive, if_neg hNe]
        · intro t _
          rfl
        · rw [state.get_startActive, if_pos rfl]
          cases state.timers[timerId]? <;> rfl
  | completeRun runId workerId token completedAt =>
      rcases applyKronCommand_completeRun hApply with
        ⟨_, rfl⟩ | ⟨active, hOwned, hComplete⟩
      · exact ⟨[], touch_none rfl⟩
      · refine ⟨_, touch_run active rfl ?_ rfl rfl
          (state.completeActive_history hComplete) ?_ ?_ ?_⟩
        · simp [touched, hOwned]
        · intro t hNe
          rw [state.get_completeActive hComplete, if_neg hNe]
        · intro t hNe
          rw [state.nextRuns_completeActive hComplete]
          cases state.timers[t]? <;> simp [hNe]
        · rw [state.get_completeActive hComplete, if_pos rfl]
          cases state.timers[active.timerId]? <;> rfl
  | failRun runId workerId token error failedAt =>
      rcases applyKronCommand_failRun hApply with
        ⟨_, rfl⟩ | ⟨active, hOwned, rfl⟩
      · exact ⟨[], touch_none rfl⟩
      · refine ⟨_, touch_run active rfl ?_ rfl rfl
          (state.failActive_history _ _ _ _) ?_ ?_ ?_⟩
        · simp [touched, hOwned]
        · intro t hNe
          rw [state.get_failActive, if_neg hNe]
        · intro t _
          rfl
        · rw [state.get_failActive, if_pos rfl]
          cases state.timers[active.timerId]? <;> rfl
  | heartbeatWorker workerId leaseUntil =>
      cases hApply
      refine ⟨[], ⟨(List.append_nil _).symm, ?_, ?_, ?_, ?_,
        ?_⟩⟩
      · intro entry hMem
        cases hMem
      · exact fun _ _ => rfl
      · exact fun _ _ => rfl
      · exact fun _ _ => rfl
      · intro spec hSpec
        cases hSpec
  | registerWorker workerId tasks leaseUntil =>
      cases hApply
      refine ⟨[.workerRegistered workerId],
        ⟨rfl, ?_, ?_, ?_, ?_, ?_⟩⟩
      · intro entry hMem t hName
        rw [List.mem_singleton.mp hMem] at hName
        cases hName
      · exact fun _ _ => rfl
      · exact fun _ _ => rfl
      · exact fun _ _ => rfl
      · intro spec hSpec
        cases hSpec
  | _ => cases hTenant

end Touch

end Kron

------------------------------------------------------------
-- Calls Of One Tenant
------------------------------------------------------------

namespace Kron

/- A call made under a token of the tenant. -/
def ScopedTo
    (b : String) :
    Call → Prop
| .createTimer _ tenantId _ _ => tenantId = some b
| .registerWorker _ _ _ => True
| .heartbeatWorker _ _ _ => True
| .pollWorker _ tenantId _ _ _ _ => tenantId = some b
| .recheckOwner _ => True
| .completeRun _ _ tenantId _ => tenantId = some b
| .failRun _ _ tenantId _ => tenantId = some b
| .expireActiveLeases _ => False

/- The run that a command ends for a worker. -/
def RaftCommand.finished? : RaftCommand → Option RunId
| .completeRun runId _ _ _ => some runId
| .failRun runId _ _ _ _ => some runId
| _ => none

/- A proposal that concerns timers of the tenant only. -/
structure Confined
    (b : String)
    (state : PersistedStateMachine)
    (p : Proposal) : Prop where
  command : p.command.tenantCommand = true
  create :
    ∀ spec ∈ p.command.createdSpec?,
      spec.tenantId = some b
  claim :
    ∀ claim ∈ p.command.claim?,
      state.timerTenant claim.2 = some b
  finish :
    ∀ runId ∈ p.command.finished?,
      ∀ active : PersistedActiveRun,
        state.activeRuns[runId]? = some active →
          state.timerTenant active.timerId = some b

/- A scoped token sees its own tenant only. -/
theorem tenantMatches_some
    {tenant : String}
    (hNotAll : tenant ≠ "*")
    (resource : Option String) :
    tenantMatches (some tenant) resource = true ↔
      resource = some tenant := by
  simp [tenantMatches, hNotAll]

private theorem forall_mem_none
    {α : Type}
    {P : α → Prop}
    {o : Option α}
    (hNone : o = none) :
    ∀ a ∈ o, P a := by
  simp [hNone]

/- Calls under a token of the tenant are confined to it. -/
theorem confined_of_proposes
    {cal : Calendar}
    {state : PersistedStateMachine}
    {b : String}
    (hNotAll : b ≠ "*")
    {call : Call}
    {p : Proposal}
    (hScoped : ScopedTo b call)
    (hProposes : Proposes cal state call p) :
    Confined b state p := by
  cases hProposes with
  | create hId hTenant =>
      cases hScoped
      refine ⟨rfl, ?_, forall_mem_none rfl,
        forall_mem_none rfl⟩
      intro spec hSpec
      cases hSpec
      simp only [requestTenant] at hTenant
      split at hTenant
      · cases hTenant
      · exact (Except.ok.inj hTenant).symm
  | register =>
      exact ⟨rfl, forall_mem_none rfl,
        forall_mem_none rfl, forall_mem_none rfl⟩
  | heartbeat =>
      exact ⟨rfl, forall_mem_none rfl,
        forall_mem_none rfl, forall_mem_none rfl⟩
  | claim hPicked =>
      cases hScoped
      refine ⟨rfl, forall_mem_none rfl, ?_,
        forall_mem_none rfl⟩
      intro claim hClaim
      cases hClaim
      unfold PersistedStateMachine.timerTenant
      rw [hPicked.stored]
      exact (tenantMatches_some hNotAll _).mp hPicked.tenant
  | complete hValid =>
      cases hScoped
      refine ⟨rfl, forall_mem_none rfl,
        forall_mem_none rfl, ?_⟩
      intro runId hRun active hGet
      cases hRun
      rw [hValid.found] at hGet
      cases hGet
      exact (tenantMatches_some hNotAll _).mp hValid.tenant
  | fail hValid =>
      cases hScoped
      refine ⟨rfl, forall_mem_none rfl,
        forall_mem_none rfl, ?_⟩
      intro runId hRun active hGet
      cases hRun
      rw [hValid.found] at hGet
      cases hGet
      exact (tenantMatches_some hNotAll _).mp hValid.tenant
  | expire => exact hScoped.elim

section Confined

variable {cal : Calendar}
variable {state state' : PersistedStateMachine}
variable {b : String}
variable {p : Proposal}
variable {entries : List HistoryEntry}

/- A confined creation stores a timer of the tenant. -/
theorem created_of_confined
    (hConfined : Confined b state p)
    (hTouch : Touch state p.command state' entries)
    {t : TimerId}
    (hCreated : p.command.created? = some t) :
    state'.timerTenant t = some b := by
  cases hCommand : p.command with
  | createTimer spec next =>
      have hSpec : spec ∈ p.command.createdSpec? := by
        rw [hCommand]
        rfl
      rw [hCommand] at hCreated
      cases hCreated
      rw [hTouch.created spec hSpec]
      exact hConfined.create spec hSpec
  | _ =>
      rw [hCommand] at hCreated
      cases hCreated

/- Timers of the tenant stay with the tenant. -/
theorem timerTenant_of_confined
    (hConfined : Confined b state p)
    (hTouch : Touch state p.command state' entries)
    {t : TimerId}
    (hTenant : state.timerTenant t = some b) :
    state'.timerTenant t = some b := by
  by_cases hCreated : p.command.created? = some t
  · exact created_of_confined hConfined hTouch hCreated
  · rw [hTouch.tenant t hCreated]
    exact hTenant

/- A confined proposal touches a timer of the tenant. -/
theorem touched_of_confined
    (hConfined : Confined b state p)
    (hTouch : Touch state p.command state' entries)
    {t : TimerId}
    (hTouched : touched state p.command = some t) :
    p.command.created? = some t ∧
        state'.timerTenant t = some b ∨
      state.timerTenant t = some b := by
  cases hCommand : p.command with
  | createTimer spec next =>
      have hSpec : spec ∈ p.command.createdSpec? := by
        rw [hCommand]
        rfl
      rw [hCommand] at hTouched
      cases hTouched
      left
      refine ⟨rfl, ?_⟩
      rw [hTouch.created spec hSpec]
      exact hConfined.create spec hSpec
  | claimRun timerId runId =>
      right
      rw [hCommand] at hTouched
      simp only [touched] at hTouched
      split at hTouched
      · cases hTouched
      · have hEq : timerId = t := Option.some.inj hTouched
        subst hEq
        exact hConfined.claim (runId, timerId)
          (by simp [hCommand, RaftCommand.claim?])
  | completeRun runId workerId token =>
      right
      rw [hCommand] at hTouched
      rcases Option.map_eq_some_iff.mp hTouched with
        ⟨active, hOwned, rfl⟩
      exact hConfined.finish runId
        (by simp [hCommand, RaftCommand.finished?]) active
        (state.ownedRun_eq_some hOwned).1
  | failRun runId workerId token =>
      right
      rw [hCommand] at hTouched
      rcases Option.map_eq_some_iff.mp hTouched with
        ⟨active, hOwned, rfl⟩
      exact hConfined.finish runId
        (by simp [hCommand, RaftCommand.finished?]) active
        (state.ownedRun_eq_some hOwned).1
  | _ =>
      rw [hCommand] at hTouched
      cases hTouched

/- Commits of the tenant keep the others confined. -/
theorem confined_step
    {q : Proposal}
    (hConfined : Confined b state p)
    (hTouch : Touch state p.command state' entries)
    (hApply :
      applyKronCommand cal state p.command = some state')
    (hOther : Confined b state q) :
    Confined b state' q := by
  refine ⟨hOther.command, hOther.create, ?_, ?_⟩
  · intro claim hClaim
    exact timerTenant_of_confined hConfined hTouch
      (hOther.claim claim hClaim)
  · intro runId hRun active hGet
    apply timerTenant_of_confined hConfined hTouch
    rcases activeRun_cases hApply hGet with
      hBefore | ⟨_, hCommand⟩
    · exact hOther.finish runId hRun active hBefore
    · exact
        hConfined.claim (active.runId, active.timerId)
          (by simp [hCommand, RaftCommand.claim?])

end Confined

end Kron

------------------------------------------------------------
-- Views Of Another Tenant
------------------------------------------------------------

namespace Kron

/- Two states look the same to a tenant. -/
def SameViews
    (a : String)
    (state state' : PersistedStateMachine) : Prop :=
  state'.appState.listForTenant (some a) =
      state.appState.listForTenant (some a) ∧
    ∀ name,
      state'.appState.statusForTenant name (some a) =
          state.appState.statusForTenant name (some a) ∧
        state'.appState.historyForTenant name (some a) =
          state.appState.historyForTenant name (some a)

/- What is kept of the timers and entries of a tenant. -/
structure Kept
    (a : String)
    (start state : PersistedStateMachine) : Prop where
  timers :
    ∀ t, start.timerTenant t = some a →
      state.timers[t]? = start.timers[t]?
  nextRuns :
    ∀ t, start.timerTenant t = some a →
      state.nextRuns[t]? = start.nextRuns[t]?
  named :
    ∀ t, start.timerTenant t = some a →
      state.appState.historyOf t = start.appState.historyOf t
  owned :
    ∀ t, state.timerTenant t = some a →
      start.timerTenant t = some a
  tagged :
    ∀ name,
      state.appState.historyForTenant name (some a) =
        start.appState.historyForTenant name (some a)

/- The last status of a timer is read off its own history. -/
theorem lastStatus_eq
    (state : PersistedStateMachine)
    (id : TimerId) :
    state.lastStatus id =
      ((state.appState.historyOf id).reverse.head?).map
        HistoryEntry.type := by
  unfold PersistedStateMachine.lastStatus
    RaftAppState.historyOf
  rw [← List.head?_filter, List.filter_reverse]
  rfl

/- The status a tenant sees is that of a timer it owns. -/
theorem statusForTenant_eq
    {a : String}
    (hNotAll : a ≠ "*")
    (state : PersistedStateMachine)
    (name : String) :
    state.appState.statusForTenant name (some a) =
      if state.timerTenant name = some a then
        (state.timers[name]?).map (state.summary name)
      else
        none := by
  have hGet :
      state.appState.status name =
        (state.timers[name]?).map (state.summary name) := by
    unfold RaftAppState.status PersistedStateMachine.appState
    exact Std.ExtTreeMap.getElem?_map
  unfold RaftAppState.statusForTenant
  rw [hGet]
  unfold PersistedStateMachine.timerTenant
  cases state.timers[name]? with
  | none => simp
  | some timer =>
      have hMatch :=
        tenantMatches_some hNotAll timer.spec.tenantId
      have hTenant :
          (state.summary name timer).tenantId =
            timer.spec.tenantId := rfl
      by_cases hOwn : timer.spec.tenantId = some a
      · have hYes := hMatch.mpr hOwn
        rw [hOwn] at hYes
        simp [hTenant, hOwn, hYes, Option.filter]
      · have hNot :
            tenantMatches (some a) timer.spec.tenantId =
              false :=
          Bool.eq_false_iff.mpr fun h => hOwn (hMatch.mp h)
        simp [hTenant, hOwn, hNot, Option.filter]

/- The list a tenant sees consists of what it sees by name. -/
theorem listForTenant_congr
    {a : String}
    {app app' : RaftAppState}
    (hStatus :
      ∀ name,
        app'.statusForTenant name (some a) =
          app.statusForTenant name (some a)) :
    app'.listForTenant (some a) =
      app.listForTenant (some a) := by
  have hList :
      ∀ app : RaftAppState,
        app.listForTenant (some a) =
          (app.timers.filter fun _ summary =>
            tenantMatches (some a)
              summary.tenantId).toList.map Prod.snd := by
    intro app
    unfold RaftAppState.listForTenant RaftAppState.list
      BTreeMap.vals
    rw [Std.ExtTreeMap.toList_filter, List.filter_map]
    rfl
  rw [hList, hList]
  congr 2
  apply BTreeMap.ext_get
  intro name
  rw [Std.ExtTreeMap.getElem?_filter',
    Std.ExtTreeMap.getElem?_filter']
  exact hStatus name

/- What is kept looks the same. -/
theorem sameViews_of_kept
    {a : String}
    (hNotAll : a ≠ "*")
    {start state : PersistedStateMachine}
    (hKept : Kept a start state) :
    SameViews a start state := by
  have hStatus :
      ∀ name,
        state.appState.statusForTenant name (some a) =
          start.appState.statusForTenant name (some a) := by
    intro name
    rw [statusForTenant_eq hNotAll,
      statusForTenant_eq hNotAll]
    by_cases hOwn : start.timerTenant name = some a
    · have hSummary :
          state.summary name = start.summary name := by
        funext timer
        unfold PersistedStateMachine.summary
        rw [lastStatus_eq, lastStatus_eq,
          hKept.named name hOwn, hKept.nextRuns name hOwn]
      have hOwn' : state.timerTenant name = some a := by
        rw [← hOwn]
        exact PersistedStateMachine.timerTenant_congr
          (by rw [hKept.timers name hOwn])
      rw [if_pos hOwn, if_pos hOwn',
        hKept.timers name hOwn, hSummary]
    · have hOwn' : state.timerTenant name ≠ some a :=
        fun h => hOwn (hKept.owned name h)
      rw [if_neg hOwn, if_neg hOwn']
  refine ⟨listForTenant_congr hStatus, ?_⟩
  intro name
  exact ⟨hStatus name, hKept.tagged name⟩

theorem kept_refl
    (a : String)
    (start : PersistedStateMachine) :
    Kept a start start where
  timers := fun _ _ => rfl
  nextRuns := fun _ _ => rfl
  named := fun _ _ => rfl
  owned := fun _ h => h
  tagged := fun _ => rfl

section Step

variable {start state state' : PersistedStateMachine}
variable {a b : String}
variable {p : Proposal}
variable {entries : List HistoryEntry}

/- A tenant's own timers are not touched by another. -/
private theorem not_touched
    (hApart : a ≠ b)
    (hKept : Kept a start state)
    (hConfined : Confined b state p)
    (hTouch : Touch state p.command state' entries)
    (hNames :
      ∀ id ∈ p.command.created?,
        start.timerTenant id ≠ some a)
    {t : TimerId}
    (hOwn : start.timerTenant t = some a) :
    touched state p.command ≠ some t := by
  intro hTouched
  have hStill : state.timerTenant t = some a := by
    rw [← hOwn]
    exact PersistedStateMachine.timerTenant_congr
      (by rw [hKept.timers t hOwn])
  rcases touched_of_confined hConfined hTouch hTouched with
    ⟨hCreated, _⟩ | hTenant
  · exact hNames t hCreated hOwn
  · rw [hStill] at hTenant
    exact hApart (Option.some.inj hTenant)

/- A tenant's views survive the commit of another. -/
theorem kept_step
    (hApart : a ≠ b)
    (hNotAll : a ≠ "*")
    (hKept : Kept a start state)
    (hConfined : Confined b state p)
    (hTouch : Touch state p.command state' entries)
    (hNames :
      ∀ id ∈ p.command.created?,
        start.timerTenant id ≠ some a) :
    Kept a start state' := by
  have hNot :
      ∀ t, start.timerTenant t = some a →
        touched state p.command ≠ some t :=
    fun t hOwn =>
      not_touched hApart hKept hConfined hTouch hNames hOwn
  -- new entries name timers that are now the other tenant's
  have hOther :
      ∀ t, touched state p.command = some t →
        state'.timerTenant t = some b := by
    intro t hTouched
    rcases touched_of_confined hConfined hTouch hTouched with
      ⟨_, hNew⟩ | hOld
    · exact hNew
    · exact timerTenant_of_confined hConfined hTouch hOld
  refine ⟨?_, ?_, ?_, ?_, ?_⟩
  · intro t hOwn
    rw [hTouch.timers t (hNot t hOwn)]
    exact hKept.timers t hOwn
  · intro t hOwn
    rw [hTouch.nextRuns t (hNot t hOwn)]
    exact hKept.nextRuns t hOwn
  · intro t hOwn
    have hNone :
        entries.filter
            (fun entry => entry.timer? == some t) = [] := by
      rw [List.filter_eq_nil_iff]
      intro entry hMem hName
      exact hNot t hOwn
        (hTouch.names entry hMem t (by simpa using hName)).1
    rw [← hKept.named t hOwn]
    unfold RaftAppState.historyOf
      PersistedStateMachine.appState
    rw [hTouch.history, List.filter_append, hNone,
      List.append_nil]
  · intro t hOwn
    by_cases hCreated : p.command.created? = some t
    · have hTouched : touched state p.command = some t := by
        cases hCommand : p.command with
        | createTimer spec next =>
            rw [hCommand] at hCreated
            exact hCreated
        | _ =>
            rw [hCommand] at hCreated
            cases hCreated
      rw [hOther t hTouched] at hOwn
      exact absurd (Option.some.inj hOwn).symm hApart
    · rw [hTouch.tenant t hCreated] at hOwn
      exact hKept.owned t hOwn
  · intro name
    have hNone :
        (entries.filter
            fun entry => entry.timer? == some name).filter
            (fun entry =>
              tenantMatches (some a) entry.tenantId?) =
          [] := by
      rw [List.filter_eq_nil_iff]
      intro entry hMem hSeen
      rw [List.mem_filter] at hMem
      rcases hTouch.names entry hMem.1 name
        (by simpa using hMem.2) with ⟨hTouched, hTag⟩
      rw [tenantMatches_some hNotAll, hTag,
        hOther name hTouched] at hSeen
      exact hApart (Option.some.inj hSeen).symm
    rw [← hKept.tagged name]
    unfold RaftAppState.historyForTenant
      RaftAppState.historyOf PersistedStateMachine.appState
    rw [hTouch.history, List.filter_append,
      List.filter_append, hNone, List.append_nil]

end Step

/- No committed creation names a timer of the tenant. -/
def NamesApart
    (a : String)
    (start : PersistedStateMachine)
    (trace : List (PersistedStateMachine × Proposal)) :
    Prop :=
  ∀ commit ∈ trace, ∀ id ∈ commit.2.command.created?,
    start.timerTenant id ≠ some a

instance
    (a : String)
    (start : PersistedStateMachine)
    (trace : List (PersistedStateMachine × Proposal)) :
    Decidable (NamesApart a start trace) :=
  inferInstanceAs (Decidable (∀ _ ∈ _, ∀ _ ∈ _, _))

/- Created timers are one tenant's, the rest is kept. -/
private structure ViewsOk
    (a b : String)
    (start state : PersistedStateMachine)
    (trace : List (PersistedStateMachine × Proposal)) :
    Prop where
  taken :
    ∀ commit ∈ trace, ∀ id ∈ commit.2.command.created?,
      state.timerTenant id = some b
  kept : NamesApart a start trace → Kept a start state

/-
  From any state, whatever calls are made under tokens of one
  tenant and however their writes commit, the views of another
  tenant are the same exactly when no committed creation names
  one of its timers.
-/
theorem sameViews_iff_names_apart
    (cal : Calendar)
    (a b : String)
    (hApart : a ≠ b)
    (hNotAll : a ≠ "*" ∧ b ≠ "*")
    (start : PersistedStateMachine)
    (labels : List ClusterLabel)
    (hScoped :
      ∀ call, .call call ∈ labels → ScopedTo b call)
    (c : Cluster)
    (hRun : Cluster.run cal (.init start) labels = some c) :
    SameViews a start c.state ↔
      NamesApart a start c.trace := by
  have hMeets :
      Machine.Meets (Cluster.step cal)
        (Replicated.Steps (fun _ call => ScopedTo b call)
          (fun _ _ => True))
        (.init start) labels := by
    apply Machine.meets_of_forall _ _
    intro label hMem s
    cases label with
    | call call => exact hScoped call hMem
    | commit i => exact fun _ _ => trivial
    | drop i => trivial
  have hRule :=
    Replicated.run_rule
      (fun state _ trace => ViewsOk a b start state trace)
      (fun state _ p => Confined b state p)
      (fun _ _ hGood _ => hGood)
      (by
        rintro s call _ hCall p (hMem | hOld)
        · exact confined_of_proposes hNotAll.2 hCall
            (proposes_of_mem hMem)
        · exact hOld)
      (by
        rintro s p state ⟨hTaken, hKept⟩ hConfined _ hApply
        rcases applyKronCommand_touched hConfined.command
          hApply with ⟨entries, hTouch⟩
        refine ⟨?_, ?_⟩
        · intro commit hMem id hId
          rcases List.mem_append.mp hMem with hOld | hNew
          · exact timerTenant_of_confined hConfined hTouch
              (hTaken commit hOld id hId)
          · rw [List.mem_singleton.mp hNew] at hId
            exact created_of_confined hConfined hTouch hId
        · intro hNames
          apply kept_step hApart hNotAll.1 _ hConfined hTouch
          · exact hNames (s.state, p)
              (List.mem_append_right _ List.mem_cons_self)
          · apply hKept
            intro commit hMem
            exact hNames commit
              (List.mem_append_left _ hMem))
      (by
        rintro s p q state _ hConfined _ hApply hOther
        rcases applyKronCommand_touched hConfined.command
          hApply with ⟨entries, hTouch⟩
        exact confined_step hConfined hTouch hApply hOther)
      ⟨by simp [Replicated.System.init],
        fun _ => kept_refl a start⟩
      (by simp [Replicated.System.init])
      hMeets hRun
  rcases hRule with ⟨⟨hTaken, hKept⟩, _⟩
  constructor
  · -- a name taken over is the other tenant's to the end
    intro hSame commit hMem id hId hOwn
    have hStatus := (hSame.2 id).1
    rw [statusForTenant_eq hNotAll.1,
      statusForTenant_eq hNotAll.1, if_pos hOwn,
      hTaken commit hMem id hId] at hStatus
    have hNe : (some b : Option String) ≠ some a :=
      fun h => hApart (Option.some.inj h).symm
    rw [if_neg hNe] at hStatus
    unfold PersistedStateMachine.timerTenant at hOwn
    cases hGet : start.timers[id]? with
    | none => simp [hGet] at hOwn
    | some timer => simp [hGet] at hStatus
  · intro hNames
    exact sameViews_of_kept hNotAll.1 (hKept hNames)

/- The creation of a timer of tenant `a`. -/
def ownedSpec : DistributedTimerSpec where
  id := "x"
  tenantId := some "a"
  schedule := .every 1
  retry := .default
  timezone := "UTC"
  target := .workerTask "task" "null"
  createdAt := 0

/- The state in which tenant `a` owns the timer `x`. -/
def ownedStart : PersistedStateMachine :=
  PersistedStateMachine.default.putTimer ownedSpec
    (some nanosPerSecond)

/- Tenant `b` creates and runs a timer of its own. -/
def ownTimer : List ClusterLabel :=
  atOnce
    [createAt "y" (some "b") 3 0,
      pollAt "w" (some "b") "r" 2,
      completeAt "w" (some "b") "r" 1 3]

theorem sameViews_ownTimer :
    ∃ c,
      Cluster.run utcCalendar (.init ownedStart) ownTimer =
          some c ∧
        c.trace.length = 3 ∧
          SameViews "a" ownedStart c.state := by
  have hApart :
      (Cluster.run utcCalendar (.init ownedStart)
          ownTimer).map
          (fun c =>
            (c.trace.length,
              decide (NamesApart "a" ownedStart c.trace))) =
        some (3, true) := by
    decide +kernel
  rcases Option.map_eq_some_iff.mp hApart with
    ⟨c, hRun, hEq⟩
  refine ⟨c, hRun, congrArg Prod.fst hEq, ?_⟩
  have hScoped :
      ∀ call, .call call ∈ ownTimer → ScopedTo "b" call := by
    intro call hMem
    simp only [ownTimer, atOnce, List.flatMap_cons,
      List.flatMap_nil, List.cons_append, List.nil_append,
      List.append_nil, List.mem_cons, List.not_mem_nil,
      Replicated.Label.call.injEq, reduceCtorEq,
      false_or, or_false] at hMem
    rcases hMem with rfl | rfl | rfl <;> rfl
  exact
    (sameViews_iff_names_apart utcCalendar "a" "b"
      (by decide) (by decide) ownedStart ownTimer hScoped c
      hRun).mpr
        (of_decide_eq_true (congrArg Prod.snd hEq))

/- Tenant `b` creates a timer under the name `x`. -/
def takenName : List ClusterLabel :=
  atOnce [createAt "x" (some "b") 3 0]

/- The creation takes the timer away from tenant `a`. -/
theorem views_of_taken_name :
    applyLog utcCalendar .default
        [.createTimer ownedSpec (some nanosPerSecond)] =
        some ownedStart ∧
      ∃ c,
        Cluster.run utcCalendar (.init ownedStart)
            takenName = some c ∧
          ¬ SameViews "a" ownedStart c.state := by
  refine ⟨rfl, ?_⟩
  have hGone :
      (Cluster.run utcCalendar (.init ownedStart)
          takenName).map
          (fun c =>
            c.state.appState.statusForTenant "x"
              (some "a")) =
        some none := by
    decide +kernel
  rcases Option.map_eq_some_iff.mp hGone with
    ⟨c, hRun, hStatus⟩
  refine ⟨c, hRun, ?_⟩
  intro hSame
  have hEq := (hSame.2 "x").1
  rw [hStatus] at hEq
  have hSeen :
      (ownedStart.appState.statusForTenant "x"
        (some "a")).isSome = true := by
    decide +kernel
  rw [← hEq] at hSeen
  cases hSeen

end Kron
