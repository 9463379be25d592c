import Kron.Server.Tenancy

/-
  What a tenant reads depends on its own data only.

  A summary shows the type of the newest history entry of a
  timer, whoever it is tagged with. Every command tags the
  entries it adds with the owner of the timer, and a timer
  changes its owner only together with a new entry, so that
  the newest entry is tagged with the current owner.

  Key definitions include:
    * `Kron.PersistedStateMachine.restrictTo`
    * `Kron.NewestTagged`
    * `Kron.Tags`

  Key theorems include:
    * `Kron.applyKronCommand_tags`
    * `Kron.newestTagged_of_run`
    * `Kron.sameViews_restrictTo`
    * `Kron.sameViews_of_applyLog`
-/

------------------------------------------------------------
-- The Newest Entry Of A Timer
------------------------------------------------------------

namespace Kron

/- Whether an entry is about a timer. -/
def HistoryEntry.isOf
    (t : TimerId)
    (entry : HistoryEntry) : Bool :=
  entry.timer? == some t

/- The newest entry of every stored timer names its owner. -/
def NewestTagged
    (state : PersistedStateMachine) : Prop :=
  ∀ (t : TimerId) (timer : PersistedTimer),
    state.timers[t]? = some timer →
      ∃ entry,
        (state.history.filter (HistoryEntry.isOf t)).getLast? =
            some entry ∧
          entry.tenantId? = timer.spec.tenantId

/-
  What a command adds to the history: entries under the owner
  of their timer, and one for each timer with a new spec.
-/
structure Tags
    (state state' : PersistedStateMachine)
    (entries : List HistoryEntry) : Prop where
  history : state'.history = state.history ++ entries
  owners :
    ∀ entry ∈ entries, ∀ t, entry.timer? = some t →
      entry.tenantId? = state'.timerTenant t
  specs :
    ∀ t,
      (∃ entry ∈ entries, entry.timer? = some t) ∨
        (state'.timers[t]?).map PersistedTimer.spec =
          (state.timers[t]?).map PersistedTimer.spec

variable {cal : Calendar}
variable {state state' : PersistedStateMachine}

/- A command that adds nothing keeps all specs. -/
theorem tags_nil
    (hHistory : state'.history = state.history)
    (hSpecs :
      ∀ t : TimerId,
        (state'.timers[t]?).map PersistedTimer.spec =
          (state.timers[t]?).map PersistedTimer.spec) :
    Tags state state' [] where
  history := by rw [hHistory, List.append_nil]
  owners := by
    intro entry hMem
    cases hMem
  specs := fun t => .inr (hSpecs t)

/- A command that adds one entry about a run. -/
theorem tags_run
    {timerId : TimerId}
    {entry : HistoryEntry}
    (hHistory : state'.history = state.history ++ [entry])
    (hName : entry.timer? = some timerId)
    (hOwner : entry.tenantId? = state.timerTenant timerId)
    (hSpecs :
      ∀ t : TimerId,
        (state'.timers[t]?).map PersistedTimer.spec =
          (state.timers[t]?).map PersistedTimer.spec) :
    Tags state state' [entry] where
  history := hHistory
  owners := by
    intro e hMem t hTimer
    rw [List.mem_singleton.mp hMem] at hTimer ⊢
    rw [hName] at hTimer
    cases hTimer
    rw [hOwner,
      PersistedStateMachine.timerTenant_congr
        (hSpecs timerId)]
  specs := fun t => .inr (hSpecs t)

theorem tags_putTimer
    (spec : DistributedTimerSpec)
    (next : Option DateTime) :
    Tags state (state.putTimer spec next)
      [.timerCreated spec.id spec.tenantId] where
  history := state.putTimer_history spec next
  owners := by
    intro entry hMem t hTimer
    rw [List.mem_singleton.mp hMem] at hTimer ⊢
    cases hTimer
    unfold PersistedStateMachine.timerTenant
    rw [state.get_putTimer, if_pos rfl]
    rfl
  specs := by
    intro t
    by_cases hId : spec.id = t
    · exact .inl ⟨_, List.mem_cons_self, by rw [← hId]; rfl⟩
    · right
      rw [state.get_putTimer, if_neg hId]

/- Setting the state of a timer keeps its spec. -/
theorem spec_setState
    (state : PersistedStateMachine)
    (timerId t : TimerId)
    (timerState : TimerState) :
    ((state.setState timerId timerState).timers[t]?).map
        PersistedTimer.spec =
      (state.timers[t]?).map PersistedTimer.spec := by
  rw [state.get_setState]
  split
  · rw [Option.map_map]
    rfl
  · rfl

theorem spec_setToken
    (state : PersistedStateMachine)
    (timerId t : TimerId)
    (timerState : TimerState)
    (token : UInt64) :
    ((state.setToken timerId timerState
        token).timers[t]?).map PersistedTimer.spec =
      (state.timers[t]?).map PersistedTimer.spec := by
  rw [state.get_setToken]
  split
  · rw [Option.map_map]
    rfl
  · rfl

/- Every command tags what it adds. -/
theorem applyKronCommand_tags
    {command : RaftCommand}
    (hApply :
      applyKronCommand cal state command = some state') :
    ∃ entries, Tags state state' entries := by
  cases command with
  | createTimer spec next =>
      cases hApply
      exact ⟨_, tags_putTimer spec next⟩
  | updateTimer spec next =>
      cases hApply
      exact ⟨_, tags_putTimer spec next⟩
  | cancelTimer timerId =>
      cases hApply
      exact
        ⟨[], tags_nil rfl
          fun t => spec_setState state timerId t .cancelled⟩
  | pauseTimer timerId =>
      cases hApply
      exact
        ⟨[], tags_nil rfl
          fun t => spec_setState state timerId t .paused⟩
  | resumeTimer timerId next =>
      cases hApply
      refine ⟨[], tags_nil (by simp) fun t => ?_⟩
      rw [PersistedStateMachine.setNextRun_timers]
      exact spec_setState state timerId t .scheduled
  | claimRun timerId runId workerId token attempt deadline =>
      rcases applyKronCommand_claimRun hApply with
        ⟨_, rfl⟩ | ⟨_, rfl⟩
      · exact ⟨[], tags_nil rfl fun _ => rfl⟩
      · refine
          ⟨_, tags_run (state.startActive_history _) rfl rfl
            fun t => ?_⟩
        exact spec_setToken state timerId t .running token
  | completeRun runId workerId token completedAt =>
      rcases applyKronCommand_completeRun hApply with
        ⟨_, rfl⟩ | ⟨active, _, hComplete⟩
      · exact ⟨[], tags_nil rfl fun _ => rfl⟩
      · refine
          ⟨_, tags_run
            (state.completeActive_history hComplete) rfl rfl
            fun t => ?_⟩
        rw [state.get_completeActive hComplete]
        split
        · rw [Option.map_map]
          rfl
        · rfl
  | failRun runId workerId token error failedAt =>
      rcases applyKronCommand_failRun hApply with
        ⟨_, rfl⟩ | ⟨active, _, rfl⟩
      · exact ⟨[], tags_nil rfl fun _ => rfl⟩
      · refine
          ⟨_, tags_run (state.failActive_history _ _ _ _)
            rfl rfl fun t => ?_⟩
        exact spec_setState state active.timerId t .dead
  | expireRunLease runId replacement expiredAt =>
      rcases applyKronCommand_expireRunLease hApply with
        ⟨_, rfl⟩ | ⟨active, _, rfl⟩
      · exact ⟨[], tags_nil rfl fun _ => rfl⟩
      · refine
          ⟨_, tags_run (state.expireActive_history _ _ _)
            rfl rfl fun t => ?_⟩
        cases replacement with
        | none =>
            exact spec_setState state active.timerId t .dead
        | some run =>
            exact
              spec_setToken state run.timer t .retrying
                run.fencingToken
  | registerWorker workerId tasks leaseUntil =>
      cases hApply
      refine ⟨[.workerRegistered workerId], rfl, ?_, ?_⟩
      · intro entry hMem t hTimer
        rw [List.mem_singleton.mp hMem] at hTimer
        cases hTimer
      · exact fun _ => .inr rfl
  | heartbeatWorker workerId leaseUntil =>
      cases hApply
      exact ⟨[], tags_nil rfl fun _ => rfl⟩
  | unregisterWorker workerId =>
      cases hApply
      exact ⟨[], tags_nil rfl fun _ => rfl⟩
  | addNode node =>
      cases hApply
      exact ⟨[], tags_nil rfl fun _ => rfl⟩
  | removeNode nodeId =>
      cases hApply
      exact ⟨[], tags_nil rfl fun _ => rfl⟩

/- The invariant is kept by what a command adds. -/
theorem newestTagged_of_tags
    {entries : List HistoryEntry}
    (hTags : Tags state state' entries)
    (hNewest : NewestTagged state) :
    NewestTagged state' := by
  intro t timer hGet
  rw [hTags.history, List.filter_append]
  by_cases hEntry : ∃ entry ∈ entries, entry.timer? = some t
  · -- the newest entry is one that was added
    have hNe :
        entries.filter (HistoryEntry.isOf t) ≠ [] := by
      rcases hEntry with ⟨entry, hMem, hName⟩
      apply List.ne_nil_of_mem (a := entry)
      rw [List.mem_filter]
      exact ⟨hMem, by simp [HistoryEntry.isOf, hName]⟩
    refine
      ⟨(entries.filter (HistoryEntry.isOf t)).getLast hNe,
        ?_, ?_⟩
    · rw [List.getLast?_append_of_ne_nil _ hNe,
        List.getLast?_eq_some_getLast hNe]
    · have hLast := List.getLast_mem hNe
      rw [List.mem_filter] at hLast
      have hName :
          ((entries.filter (HistoryEntry.isOf t)).getLast
            hNe).timer? = some t := by
        simpa [HistoryEntry.isOf] using hLast.2
      rw [hTags.owners _ hLast.1 t hName]
      unfold PersistedStateMachine.timerTenant
      rw [hGet]
      rfl
  · -- the timer and its entries are as before
    have hNil :
        entries.filter (HistoryEntry.isOf t) = [] := by
      rw [List.filter_eq_nil_iff]
      intro entry hMem hIs
      exact
        hEntry
          ⟨entry, hMem, by simpa [HistoryEntry.isOf] using hIs⟩
    rcases hTags.specs t with hName | hSpec
    · exact (hEntry hName).elim
    · rw [hGet] at hSpec
      rcases Option.map_eq_some_iff.mp hSpec.symm with
        ⟨before, hBefore, hSame⟩
      rcases hNewest t before hBefore with
        ⟨entry, hLast, hOwner⟩
      refine ⟨entry, ?_, ?_⟩
      · rw [hNil, List.append_nil]
        exact hLast
      · rw [hOwner, hSame]

theorem newestTagged_default :
    NewestTagged .default := by
  intro t timer hGet
  simp [PersistedStateMachine.default] at hGet

theorem newestTagged_of_run
    {log : List RaftCommand}
    (hRun : applyLog cal .default log = some state) :
    NewestTagged state :=
  Machine.run_invariant NewestTagged
    (fun _ _ _ hInv _ hStep => by
      rcases applyKronCommand_tags hStep with
        ⟨entries, hTags⟩
      exact newestTagged_of_tags hTags hInv)
    newestTagged_default
    (Machine.meets_of_forall (fun _ _ => True) _
      (fun _ _ _ => trivial)) hRun

end Kron

------------------------------------------------------------
-- The Data Of One Tenant
------------------------------------------------------------

namespace Kron

/-
  The state without the timers of other owners and without
  the history entries with other tags.
-/
def PersistedStateMachine.restrictTo
    (a : String)
    (state : PersistedStateMachine) :
    PersistedStateMachine :=
  { state with
    timers :=
      state.timers.filter fun _ timer =>
        timer.spec.tenantId == some a
    history :=
      state.history.filter fun entry =>
        entry.tenantId? == some a }

variable {cal : Calendar}
variable {state : PersistedStateMachine}

/- A filter that keeps the last element keeps it last. -/
theorem getLast?_filter_of_last
    {α : Type}
    {p : α → Bool}
    {xs : List α}
    {x : α}
    (hLast : xs.getLast? = some x)
    (hp : p x = true) :
    (xs.filter p).getLast? = some x := by
  rcases List.getLast?_eq_some_iff.mp hLast with
    ⟨front, rfl⟩
  rw [List.filter_append, List.filter_cons_of_pos hp,
    List.filter_nil, List.getLast?_concat]

/- The newest entry of an owned timer is not deleted. -/
theorem lastStatus_restrictTo
    {a : String}
    {t : TimerId}
    {timer : PersistedTimer}
    (hNewest : NewestTagged state)
    (hGet : state.timers[t]? = some timer)
    (hOwn : timer.spec.tenantId = some a) :
    (state.restrictTo a).lastStatus t =
      state.lastStatus t := by
  rcases hNewest t timer hGet with ⟨entry, hLast, hOwner⟩
  have hKeep : (entry.tenantId? == some a) = true := by
    rw [hOwner, hOwn]
    simp
  have hLast' :
      ((state.history.filter
          (HistoryEntry.isOf t)).filter
          fun entry => entry.tenantId? == some a).getLast? =
        some entry :=
    getLast?_filter_of_last hLast hKeep
  have hEntries :
      (state.restrictTo a).history.filter
          (HistoryEntry.isOf t) =
        (state.history.filter
          (HistoryEntry.isOf t)).filter
          fun entry => entry.tenantId? == some a := by
    unfold PersistedStateMachine.restrictTo
    rw [List.filter_filter, List.filter_filter]
    simp only [Bool.and_comm]
  have hStatus :
      ∀ s : PersistedStateMachine,
        s.lastStatus t =
          ((s.history.filter
            (HistoryEntry.isOf t)).getLast?).map
            HistoryEntry.type := by
    intro s
    rw [lastStatus_eq, List.head?_reverse]
    rfl
  rw [hStatus, hStatus, hEntries, hLast', hLast]

/- Nothing that a tenant reads is deleted. -/
theorem sameViews_restrictTo
    {a : String}
    (hNotAll : a ≠ "*")
    (hNewest : NewestTagged state) :
    SameViews a state (state.restrictTo a) := by
  have hStatus :
      ∀ name,
        (state.restrictTo a).appState.statusForTenant name
            (some a) =
          state.appState.statusForTenant name (some a) := by
    intro name
    rw [statusForTenant_eq hNotAll,
      statusForTenant_eq hNotAll]
    have hTimers :
        (state.restrictTo a).timers[name]? =
          (state.timers[name]?).filter fun timer =>
            timer.spec.tenantId == some a :=
      Std.ExtTreeMap.getElem?_filter'
    unfold PersistedStateMachine.timerTenant
    rw [hTimers]
    cases hGet : state.timers[name]? with
    | none => simp
    | some timer =>
        by_cases hOwn : timer.spec.tenantId = some a
        · have hSummary :
              (state.restrictTo a).summary name timer =
                state.summary name timer := by
            unfold PersistedStateMachine.summary
            rw [lastStatus_restrictTo hNewest hGet hOwn]
            rfl
          simp [Option.filter, hOwn, hSummary]
        · simp [Option.filter, hOwn]
  refine ⟨listForTenant_congr hStatus, ?_⟩
  intro name
  refine ⟨hStatus name, ?_⟩
  have hMatch :
      ∀ entry : HistoryEntry,
        tenantMatches (some a) entry.tenantId? =
          (entry.tenantId? == some a) := by
    intro entry
    rw [Bool.eq_iff_iff, tenantMatches_some hNotAll]
    simp
  unfold RaftAppState.historyForTenant
    RaftAppState.historyOf
    PersistedStateMachine.appState
    PersistedStateMachine.restrictTo
  simp only [List.filter_filter, hMatch]
  apply List.filter_congr
  intro entry _
  cases entry.tenantId? == some a <;> simp

/-
  In every state that a log leads to, what a tenant reads is
  what it reads when the data of all others are deleted.
-/
theorem sameViews_of_applyLog
    (cal : Calendar)
    (log : List RaftCommand)
    (state : PersistedStateMachine)
    (hRun : applyLog cal .default log = some state)
    (a : String)
    (hNotAll : a ≠ "*") :
    SameViews a state (state.restrictTo a) :=
  sameViews_restrictTo hNotAll (newestTagged_of_run hRun)

/- A name that one tenant takes over from another. -/
def takenOver : List RaftCommand :=
  [.createTimer
      { ownedSpec with tenantId := some "b" } none,
    .createTimer
      { ownedSpec with tenantId := some "a" } none]

theorem sameViews_takenOver :
    ∃ state,
      applyLog utcCalendar .default takenOver =
          some state ∧
        SameViews "a" state (state.restrictTo "a") := by
  have hRun :
      applyLog utcCalendar .default takenOver =
        some
          ((PersistedStateMachine.default.putTimer
            { ownedSpec with tenantId := some "b" }
            none).putTimer
            { ownedSpec with tenantId := some "a" } none) :=
    rfl
  exact
    ⟨_, hRun,
      sameViews_of_applyLog utcCalendar takenOver _ hRun
        "a" (by decide)⟩

end Kron
