import Kron.Lib.Components
import Kron.Server.Isolation
import Kron.Server.RetryQueue

/-
  Timers that do not touch each other.

  Runs, queued runs and history entries are kept in common
  collections and looked up by run id. Where a run id belongs
  to one timer, a command moves what is kept of its own timer
  as a machine for that timer alone would, and nothing else.
  The state machine then splits into its timers, and logs
  that keep the order of each timer's commands agree on every
  timer.

  Key definitions include:
    * `Kron.TimerRecord`
    * `Kron.TimerRecord.step`
    * `Kron.PersistedStateMachine.recordOf`
    * `Kron.timerOf`
    * `Kron.RunIdsApart`

  Key theorems include:
    * `Kron.recordOf_own`
    * `Kron.recordOf_other`
    * `Kron.splits_into_timers`
    * `Kron.applyLog_independent`
-/

------------------------------------------------------------
-- The Machine Of One Timer
------------------------------------------------------------

namespace Kron

/- All that the state machine keeps of one timer. -/
structure TimerRecord where
  timer : Option PersistedTimer
  next : Option DateTime
  active : BTreeMap RunId PersistedActiveRun
  pending : List WorkerRun
  history : List HistoryEntry
deriving DecidableEq

/- Whether rescheduling the timer panics. -/
def PersistedTimer.reschedulePanics
    (cal : Calendar)
    (timer : PersistedTimer)
    (after : DateTime) : Bool :=
  !timer.spec.schedule.isOneShot &&
    (timer.spec.schedule.nextRunAfter cal after
      timer.spec.timezone).isNone

namespace TimerRecord

variable (record : TimerRecord)

def tenant : Option String :=
  record.timer.bind fun timer => timer.spec.tenantId

def setState
    (timerState : TimerState) : TimerRecord :=
  { record with
    timer := record.timer.map fun timer =>
      { timer with state := timerState } }

def setToken
    (timerState : TimerState)
    (fencingToken : UInt64) : TimerRecord :=
  { record with
    timer := record.timer.map fun timer =>
      { timer with
        state := timerState
        fencingToken := fencingToken } }

def setNext
    (nextRunAt : Option DateTime) : TimerRecord :=
  { record with next := nextRunAt }

def pushHistory
    (entry : HistoryEntry) : TimerRecord :=
  { record with history := record.history ++ [entry] }

def removeActive
    (runId : RunId) : TimerRecord :=
  { record with active := record.active.erase runId }

def runRecord
    (active : PersistedActiveRun) : RunRecord where
  timer := active.timerId
  tenantId := record.tenant
  runId := active.runId
  workerId := active.workerId
  fencingToken := active.fencingToken

def putTimer
    (spec : DistributedTimerSpec)
    (nextRunAt : Option DateTime) : TimerRecord :=
  { record with
    timer :=
      some
        { spec := spec
          state := .scheduled
          fencingToken := 0 }
    next := nextRunAt
    history :=
      record.history ++
        [.timerCreated spec.id spec.tenantId] }

def startActive
    (active : PersistedActiveRun) : TimerRecord :=
  { record.setToken .running active.fencingToken with
    active := record.active.insert active.runId active
    pending :=
      record.pending.eraseP fun run =>
        run.runId == active.runId
    history :=
      record.history ++
        [.runClaimed (record.runRecord active)] }

def claimRun
    (active : PersistedActiveRun) : TimerRecord :=
  if record.active.vals.isEmpty then
    record.startActive active
  else
    record

def ownedRun
    (runId : RunId)
    (workerId : String)
    (fencingToken : UInt64) :
    Option PersistedActiveRun :=
  (record.active[runId]?).filter fun active =>
    active.workerId == workerId &&
      active.fencingToken == fencingToken

def completeActive
    (cal : Calendar)
    (runId : RunId)
    (workerId : String)
    (active : PersistedActiveRun)
    (completedAt : DateTime) : Option TimerRecord :=
  if record.timer.any fun timer =>
      timer.reschedulePanics cal completedAt then
    none
  else
    some
      ((((record.removeActive runId).setState
        .scheduled).setNext
          (match record.timer with
          | none => record.next
          | some timer =>
              timer.rescheduledAt cal completedAt)).pushHistory
        (.runSucceeded
          { record.runRecord active with
            runId := runId
            workerId := workerId }))

def failActive
    (runId : RunId)
    (workerId : String)
    (active : PersistedActiveRun)
    (error : String) : TimerRecord :=
  ((record.removeActive runId).setState .dead).pushHistory
    (.runFailed
      { record.runRecord active with
        runId := runId
        workerId := workerId }
      error)

def expireActive
    (runId : RunId)
    (active : PersistedActiveRun)
    (replacement : Option WorkerRun) : TimerRecord :=
  let ended :=
    (record.removeActive runId).pushHistory
      (.runLeaseExpired (record.runRecord active))
  match replacement with
  | none => ended.setState .dead
  | some run =>
      { ended.setToken .retrying run.fencingToken with
        pending := ended.pending ++ [run] }

/- What a command does to the timer it is about. -/
def step
    (cal : Calendar)
    (record : TimerRecord) :
    RaftCommand → Option TimerRecord
| .createTimer spec nextRunAt =>
    some (record.putTimer spec nextRunAt)
| .updateTimer spec nextRunAt =>
    some (record.putTimer spec nextRunAt)
| .cancelTimer _ =>
    some ((record.setState .cancelled).setNext none)
| .pauseTimer _ =>
    some ((record.setState .paused).setNext none)
| .resumeTimer _ nextRunAt =>
    some ((record.setState .scheduled).setNext nextRunAt)
| .claimRun timerId runId workerId fencingToken attempt
    leaseDeadline =>
    some
      (record.claimRun
        { timerId := timerId
          runId := runId
          workerId := workerId
          fencingToken := fencingToken
          attempt := attempt
          leaseDeadline := leaseDeadline })
| .completeRun runId workerId fencingToken completedAt =>
    match record.ownedRun runId workerId fencingToken with
    | none => some record
    | some active =>
        record.completeActive cal runId workerId active
          completedAt
| .failRun runId workerId fencingToken error _ =>
    match record.ownedRun runId workerId fencingToken with
    | none => some record
    | some active =>
        some (record.failActive runId workerId active error)
| .expireRunLease runId replacement _ =>
    match record.active[runId]? with
    | none => some record
    | some active =>
        some (record.expireActive runId active replacement)
| _ => some record

end TimerRecord

/- What the state machine keeps of a timer. -/
def PersistedStateMachine.recordOf
    (t : TimerId)
    (state : PersistedStateMachine) : TimerRecord where
  timer := state.timers[t]?
  next := state.nextRuns[t]?
  active := state.activeRuns.select fun active =>
    active.timerId == t
  pending := state.queueOf t
  history := state.history.filter (HistoryEntry.isOf t)

end Kron

------------------------------------------------------------
-- Timers Of Commands
------------------------------------------------------------

namespace Kron

/- The timer that a run id is claimed for in a log. -/
def claimedFor
    (log : List RaftCommand)
    (runId : RunId) : Option TimerId :=
  (log.filterMap RaftCommand.claim?).lookup runId

/-
  The timer that a command is about. The end of a run is
  about the timer that owns the id of the run.
-/
def timerOf
    (owner : RunId → Option TimerId) :
    RaftCommand → Option TimerId
| .createTimer spec _ => some spec.id
| .updateTimer spec _ => some spec.id
| .cancelTimer timerId => some timerId
| .pauseTimer timerId => some timerId
| .resumeTimer timerId _ => some timerId
| .claimRun timerId _ _ _ _ _ => some timerId
| .completeRun runId _ _ _ => owner runId
| .failRun runId _ _ _ _ => owner runId
| .expireRunLease runId _ _ => owner runId
| _ => none

/- The run ids that a command uses, with their timers. -/
def RaftCommand.runIds :
    RaftCommand → List (RunId × TimerId)
| .claimRun timerId runId _ _ _ _ => [(runId, timerId)]
| .expireRunLease _ (some run) _ => [(run.runId, run.timer)]
| _ => []

/- No run id is used for two timers. -/
def RunIdsApart
    (log : List RaftCommand) : Prop :=
  ∀ x ∈ log.flatMap RaftCommand.runIds,
    ∀ y ∈ log.flatMap RaftCommand.runIds,
      x.1 = y.1 → x.2 = y.2

/- Every replacement names the timer of its run. -/
def RetriesNamed
    (log : List RaftCommand) : Prop :=
  ∀ command ∈ log, ∀ retry ∈ command.retry?,
    ∀ t ∈ claimedFor log retry.1, retry.2 = t

instance
    (log : List RaftCommand) :
    Decidable (RunIdsApart log) :=
  inferInstanceAs (Decidable (∀ _ ∈ _, ∀ _ ∈ _, _))

instance
    (log : List RaftCommand) :
    Decidable (RetriesNamed log) :=
  inferInstanceAs
    (Decidable (∀ _ ∈ _, ∀ _ ∈ _, ∀ _ ∈ _, _))

end Kron

------------------------------------------------------------
-- Ids That Belong To One Timer
------------------------------------------------------------

namespace Kron

/- Active and queued runs are under ids of their timer. -/
structure IdsOwned
    (owner : RunId → Option TimerId)
    (state : PersistedStateMachine) : Prop where
  active :
    ∀ (runId : RunId) (active : PersistedActiveRun),
      state.activeRuns[runId]? = some active →
        owner runId = some active.timerId
  pending :
    ∀ run ∈ state.pending, ∀ t,
      owner run.runId = some t → run.timer = t

/- A command uses ids for the timer that owns them. -/
structure UsesOwned
    (owner : RunId → Option TimerId)
    (command : RaftCommand) : Prop where
  claim :
    ∀ claim, command.claim? = some claim →
      owner claim.1 = some claim.2
  retry :
    ∀ retry, command.retry? = some retry →
      ∀ t, owner retry.1 = some t → retry.2 = t
  queued :
    ∀ runId run expiredAt,
      command = .expireRunLease runId (some run) expiredAt →
        ∀ t, owner run.runId = some t → run.timer = t

variable {cal : Calendar}
variable {owner : RunId → Option TimerId}
variable {state state' : PersistedStateMachine}
variable {command : RaftCommand}

theorem idsOwned_default :
    IdsOwned owner .default where
  active := by
    intro runId active hGet
    simp [PersistedStateMachine.default] at hGet
  pending := by
    intro run hMem
    cases hMem

/- Commands that use owned ids keep all ids owned. -/
theorem idsOwned_step
    (hOwned : IdsOwned owner state)
    (hUses : UsesOwned owner command)
    (hApply :
      applyKronCommand cal state command = some state') :
    IdsOwned owner state' := by
  constructor
  · intro runId active hGet
    rcases activeRun_cases hApply hGet with
      hBefore | ⟨hKey, hCommand⟩
    · exact hOwned.active runId active hBefore
    · subst hKey
      exact
        hUses.claim (active.runId, active.timerId)
          (by rw [hCommand]; rfl)
  · intro run hMem
    rw [applyKronCommand_pending hApply] at hMem
    rcases pendingAfter_cases state command with
      hShort | ⟨active, added, hRequeues⟩
    · exact hOwned.pending run (hShort.subset hMem)
    · rw [hRequeues.pending, List.mem_append,
        List.mem_singleton] at hMem
      rcases hMem with hOld | rfl
      · exact hOwned.pending run hOld
      · rcases hRequeues.effect with
          ⟨runId, expiredAt, hCommand, _⟩
        exact hUses.queued runId run expiredAt hCommand

end Kron

------------------------------------------------------------
-- Records Of Other Timers
------------------------------------------------------------

namespace Kron

variable {cal : Calendar}
variable {owner : RunId → Option TimerId}
variable {state state' : PersistedStateMachine}
variable {t : TimerId}

/- Records are equal when their parts are. -/
theorem recordOf_eq
    {record : TimerRecord}
    (hTimer : state.timers[t]? = record.timer)
    (hNext : state.nextRuns[t]? = record.next)
    (hActive :
      state.activeRuns.select
          (fun active => active.timerId == t) =
        record.active)
    (hPending : state.queueOf t = record.pending)
    (hHistory :
      state.history.filter (HistoryEntry.isOf t) =
        record.history) :
    state.recordOf t = record := by
  unfold PersistedStateMachine.recordOf
  rw [hTimer, hNext, hActive, hPending, hHistory]

/- A run of another timer is not in the record. -/
theorem not_selected
    {runId : RunId}
    (hOwned : IdsOwned owner state)
    (hOther : owner runId ≠ some t) :
    ∀ active, state.activeRuns[runId]? = some active →
      (active.timerId == t) = false := by
  intro active hGet
  have hOwner := hOwned.active runId active hGet
  rw [beq_eq_false_iff_ne]
  rintro rfl
  exact hOther hOwner

/- Taking out a queued run of another timer. -/
theorem queueOf_eraseP_other
    {runId : RunId}
    (hOther :
      ∀ run ∈ state.pending, run.runId = runId →
        run.timer ≠ t) :
    (state.pending.eraseP fun run =>
        run.runId == runId).filter
        (fun run => run.timer == t) =
      state.queueOf t := by
  unfold PersistedStateMachine.queueOf
  generalize state.pending = runs at hOther ⊢
  induction runs with
  | nil => rfl
  | cons run runs ih =>
      have hTail :=
        ih fun run' hMem =>
          hOther run' (List.mem_cons_of_mem _ hMem)
      by_cases hId : run.runId = runId
      · have hTimer :=
          hOther run List.mem_cons_self hId
        simp [hId, hTimer]
      · rw [List.eraseP_cons_of_neg (by simpa using hId),
          List.filter_cons, List.filter_cons, hTail]

/- Taking out a queued run of the timer. -/
theorem queueOf_eraseP_own
    {runId : RunId}
    (hOwn :
      ∀ run ∈ state.pending, run.runId = runId →
        run.timer = t) :
    (state.pending.eraseP fun run =>
        run.runId == runId).filter
        (fun run => run.timer == t) =
      (state.queueOf t).eraseP fun run =>
        run.runId == runId := by
  unfold PersistedStateMachine.queueOf
  generalize state.pending = runs at hOwn ⊢
  induction runs with
  | nil => rfl
  | cons run runs ih =>
      have hTail :=
        ih fun run' hMem =>
          hOwn run' (List.mem_cons_of_mem _ hMem)
      by_cases hId : run.runId = runId
      · have hTimer :=
          hOwn run List.mem_cons_self hId
        simp [hId, hTimer]
      · rw [List.eraseP_cons_of_neg (by simpa using hId)]
        by_cases hTimer : run.timer = t
        · rw [List.filter_cons_of_pos (by simpa using hTimer),
            List.filter_cons_of_pos (by simpa using hTimer),
            List.eraseP_cons_of_neg (by simpa using hId),
            hTail]
        · rw [List.filter_cons_of_neg (by simpa using hTimer),
            List.filter_cons_of_neg (by simpa using hTimer),
            hTail]

/- An entry about another timer is not in the record. -/
theorem history_other
    {entry : HistoryEntry}
    (hHistory : state'.history = state.history ++ [entry])
    (hOther : entry.timer? ≠ some t) :
    state'.history.filter (HistoryEntry.isOf t) =
      state.history.filter (HistoryEntry.isOf t) := by
  rw [hHistory, List.filter_append,
    List.filter_cons_of_neg (by
      simpa [HistoryEntry.isOf] using hOther)]
  exact List.append_nil _

theorem history_own
    {entry : HistoryEntry}
    (hHistory : state'.history = state.history ++ [entry])
    (hOwn : entry.timer? = some t) :
    state'.history.filter (HistoryEntry.isOf t) =
      state.history.filter (HistoryEntry.isOf t) ++
        [entry] := by
  rw [hHistory, List.filter_append,
    List.filter_cons_of_pos (by
      simp [HistoryEntry.isOf, hOwn])]
  rfl

theorem recordOf_putTimer_other
    {spec : DistributedTimerSpec}
    (next : Option DateTime)
    (hOther : spec.id ≠ t) :
    (state.putTimer spec next).recordOf t =
      state.recordOf t := by
  apply recordOf_eq
  · rw [state.get_putTimer, if_neg hOther]
    rfl
  · rw [state.nextRuns_putTimer, if_neg hOther]
    rfl
  · rw [state.putTimer_activeRuns]
    rfl
  · unfold PersistedStateMachine.queueOf
    rw [state.putTimer_pending]
    rfl
  · apply history_other (state.putTimer_history spec next)
    simpa [HistoryEntry.timer?] using hOther

/- Switching another timer. -/
theorem recordOf_switch_other
    {timerId : TimerId}
    (timerState : TimerState)
    (next : Option DateTime)
    (hOther : timerId ≠ t) :
    ((state.setState timerId timerState).setNextRun timerId
        next).recordOf t =
      state.recordOf t := by
  apply recordOf_eq
  · rw [PersistedStateMachine.setNextRun_timers,
      state.get_setState, if_neg hOther]
    rfl
  · rw [PersistedStateMachine.get_setNextRun,
      if_neg hOther]
    rfl
  · rw [PersistedStateMachine.setNextRun_activeRuns]
    rfl
  · unfold PersistedStateMachine.queueOf
    rw [PersistedStateMachine.setNextRun_pending]
    rfl
  · rw [PersistedStateMachine.setNextRun_history]
    rfl

theorem recordOf_startActive_other
    {active : PersistedActiveRun}
    (hOwned : IdsOwned owner state)
    (hOwner : owner active.runId = some active.timerId)
    (hOther : active.timerId ≠ t) :
    (state.startActive active).recordOf t =
      state.recordOf t := by
  have hNot : owner active.runId ≠ some t := by
    rw [hOwner]
    simpa using hOther
  apply recordOf_eq
  · rw [state.get_startActive, if_neg hOther]
    rfl
  · rfl
  · rw [state.startActive_activeRuns]
    exact
      BTreeMap.select_insert_of_neg (by simpa using hOther)
        (not_selected hOwned hNot)
  · apply queueOf_eraseP_other
    intro run hMem hId hTimer
    have hRun :=
      hOwned.pending run hMem active.timerId
        (by rw [hId, hOwner])
    exact hOther (hRun.symm.trans hTimer)
  · apply history_other (state.startActive_history active)
    simpa [HistoryEntry.timer?,
      PersistedStateMachine.runRecord] using hOther

theorem recordOf_completeActive_other
    {runId : RunId}
    {workerId : String}
    {active : PersistedActiveRun}
    {completedAt : DateTime}
    (hComplete :
      state.completeActive cal runId workerId active
        completedAt = some state')
    (hGet : state.activeRuns[runId]? = some active)
    (hOther : active.timerId ≠ t) :
    state'.recordOf t = state.recordOf t := by
  apply recordOf_eq
  · rw [state.get_completeActive hComplete, if_neg hOther]
    rfl
  · rw [state.nextRuns_completeActive hComplete]
    cases state.timers[t]? with
    | none => rfl
    | some timer => exact if_neg hOther
  · rw [state.completeActive_activeRuns hComplete]
    apply BTreeMap.select_erase_of_neg
    intro found hFound
    rw [hGet] at hFound
    cases hFound
    simpa using hOther
  · unfold PersistedStateMachine.queueOf
    rw [state.completeActive_pending hComplete]
    rfl
  · apply
      history_other (state.completeActive_history hComplete)
    simpa [HistoryEntry.timer?,
      PersistedStateMachine.runRecord] using hOther

theorem recordOf_failActive_other
    {runId : RunId}
    {active : PersistedActiveRun}
    (workerId : String)
    (error : String)
    (hGet : state.activeRuns[runId]? = some active)
    (hOther : active.timerId ≠ t) :
    (state.failActive runId workerId active
        error).recordOf t =
      state.recordOf t := by
  apply recordOf_eq
  · rw [state.get_failActive, if_neg hOther]
    rfl
  · rfl
  · rw [state.failActive_activeRuns]
    apply BTreeMap.select_erase_of_neg
    intro found hFound
    rw [hGet] at hFound
    cases hFound
    simpa using hOther
  · rfl
  · apply history_other (state.failActive_history _ _ _ _)
    simpa [HistoryEntry.timer?,
      PersistedStateMachine.runRecord] using hOther

theorem recordOf_expireActive_other
    {runId : RunId}
    {active : PersistedActiveRun}
    {replacement : Option WorkerRun}
    (hGet : state.activeRuns[runId]? = some active)
    (hNamed :
      ∀ run, replacement = some run →
        run.timer = active.timerId)
    (hOther : active.timerId ≠ t) :
    (state.expireActive runId active
        replacement).recordOf t =
      state.recordOf t := by
  apply recordOf_eq
  · rw [state.get_expireActive]
    cases replacement with
    | none => exact if_neg hOther
    | some run =>
        exact if_neg (hNamed run rfl ▸ hOther)
  · rw [state.expireActive_nextRuns]
    rfl
  · rw [state.expireActive_activeRuns]
    apply BTreeMap.select_erase_of_neg
    intro found hFound
    rw [hGet] at hFound
    cases hFound
    simpa using hOther
  · cases replacement with
    | none => rfl
    | some run =>
        have hRun : run.timer ≠ t := hNamed run rfl ▸ hOther
        change
          (state.pending ++ [run]).filter
              (fun run => run.timer == t) = state.queueOf t
        rw [List.filter_append,
          List.filter_cons_of_neg (by simpa using hRun)]
        exact List.append_nil _
  · apply history_other (state.expireActive_history _ _ _)
    simpa [HistoryEntry.timer?,
      PersistedStateMachine.runRecord] using hOther

/- An owned run belongs to the owner of its id. -/
theorem owner_of_ownedRun
    {runId : RunId}
    {workerId : String}
    {token : UInt64}
    {active : PersistedActiveRun}
    (hOwned : IdsOwned owner state)
    (hRun :
      state.ownedRun runId workerId token = some active) :
    state.activeRuns[runId]? = some active ∧
      owner runId = some active.timerId := by
  have hGet := (state.ownedRun_eq_some hRun).1
  exact ⟨hGet, hOwned.active runId active hGet⟩

/- A command leaves the records of other timers alone. -/
theorem recordOf_other
    {command : RaftCommand}
    (hOwned : IdsOwned owner state)
    (hUses : UsesOwned owner command)
    (hOther : timerOf owner command ≠ some t)
    (hApply :
      applyKronCommand cal state command = some state') :
    state'.recordOf t = state.recordOf t := by
  cases command with
  | createTimer spec next =>
      cases hApply
      exact
        recordOf_putTimer_other next
          fun hEq => hOther (congrArg some hEq)
  | updateTimer spec next =>
      cases hApply
      exact
        recordOf_putTimer_other next
          fun hEq => hOther (congrArg some hEq)
  | cancelTimer timerId =>
      cases hApply
      exact
        recordOf_switch_other .cancelled none
          fun hEq => hOther (congrArg some hEq)
  | pauseTimer timerId =>
      cases hApply
      exact
        recordOf_switch_other .paused none
          fun hEq => hOther (congrArg some hEq)
  | resumeTimer timerId next =>
      cases hApply
      exact
        recordOf_switch_other .scheduled next
          fun hEq => hOther (congrArg some hEq)
  | claimRun timerId runId workerId token attempt deadline =>
      rcases applyKronCommand_claimRun hApply with
        ⟨_, rfl⟩ | ⟨_, rfl⟩
      · rfl
      · exact
          recordOf_startActive_other hOwned
            (hUses.claim (runId, timerId) rfl)
            fun hEq => hOther (congrArg some hEq)
  | completeRun runId workerId token completedAt =>
      rcases applyKronCommand_completeRun hApply with
        ⟨_, rfl⟩ | ⟨active, hRun, hComplete⟩
      · rfl
      · rcases owner_of_ownedRun hOwned hRun with
          ⟨hGet, hOwner⟩
        exact
          recordOf_completeActive_other hComplete hGet
            fun hEq =>
              hOther (hOwner.trans (congrArg some hEq))
  | failRun runId workerId token error failedAt =>
      rcases applyKronCommand_failRun hApply with
        ⟨_, rfl⟩ | ⟨active, hRun, rfl⟩
      · rfl
      · rcases owner_of_ownedRun hOwned hRun with
          ⟨hGet, hOwner⟩
        exact
          recordOf_failActive_other workerId error hGet
            fun hEq =>
              hOther (hOwner.trans (congrArg some hEq))
  | expireRunLease runId replacement expiredAt =>
      rcases applyKronCommand_expireRunLease hApply with
        ⟨_, rfl⟩ | ⟨active, hGet, rfl⟩
      · rfl
      · have hOwner := hOwned.active runId active hGet
        apply recordOf_expireActive_other hGet
        · rintro run rfl
          exact
            hUses.retry (runId, run.timer) rfl
              active.timerId hOwner
        · exact
            fun hEq =>
              hOther (hOwner.trans (congrArg some hEq))
  | registerWorker workerId tasks leaseUntil =>
      cases hApply
      apply recordOf_eq
      · rfl
      · rfl
      · rfl
      · rfl
      · exact history_other rfl nofun
  | _ =>
      cases hApply
      rfl

end Kron

------------------------------------------------------------
-- The Record Of A Command's Timer
------------------------------------------------------------

namespace Kron

variable {cal : Calendar}
variable {owner : RunId → Option TimerId}
variable {state state' : PersistedStateMachine}
variable {t : TimerId}

theorem recordOf_putTimer_own
    (spec : DistributedTimerSpec)
    (next : Option DateTime) :
    (state.putTimer spec next).recordOf spec.id =
      (state.recordOf spec.id).putTimer spec next := by
  apply recordOf_eq
  · rw [state.get_putTimer, if_pos rfl]
    rfl
  · rw [state.nextRuns_putTimer, if_pos rfl]
    rfl
  · rw [state.putTimer_activeRuns]
    rfl
  · unfold PersistedStateMachine.queueOf
    rw [state.putTimer_pending]
    rfl
  · exact
      history_own (state.putTimer_history spec next) rfl

theorem recordOf_switch_own
    (t : TimerId)
    (timerState : TimerState)
    (next : Option DateTime) :
    ((state.setState t timerState).setNextRun t
        next).recordOf t =
      ((state.recordOf t).setState timerState).setNext
        next := by
  apply recordOf_eq
  · rw [PersistedStateMachine.setNextRun_timers,
      state.get_setState, if_pos rfl]
    rfl
  · rw [PersistedStateMachine.get_setNextRun, if_pos rfl]
    rfl
  · rw [PersistedStateMachine.setNextRun_activeRuns]
    rfl
  · unfold PersistedStateMachine.queueOf
    rw [PersistedStateMachine.setNextRun_pending]
    rfl
  · rw [PersistedStateMachine.setNextRun_history]
    rfl

theorem recordOf_startActive_own
    {active : PersistedActiveRun}
    (hOwned : IdsOwned owner state)
    (hOwner : owner active.runId = some active.timerId) :
    (state.startActive active).recordOf active.timerId =
      (state.recordOf active.timerId).startActive
        active := by
  apply recordOf_eq
  · rw [state.get_startActive, if_pos rfl]
    rfl
  · rfl
  · rw [state.startActive_activeRuns]
    exact
      BTreeMap.select_insert_of_pos _ _
        (beq_self_eq_true _)
  · apply queueOf_eraseP_own
    intro run hMem hId
    exact
      hOwned.pending run hMem active.timerId
        (by rw [hId, hOwner])
  · exact history_own (state.startActive_history active) rfl

/- A timer is active when its record lists a run. -/
theorem recordOf_isEmpty
    (state : PersistedStateMachine)
    (t : TimerId) :
    (state.recordOf t).active.vals.isEmpty =
      !state.hasActive t := by
  rw [Bool.eq_iff_iff, Bool.not_eq_true',
    List.isEmpty_iff]
  constructor
  · intro hNil
    rw [Bool.eq_false_iff]
    intro hActive
    rcases (state.hasActive_iff t).mp hActive with
      ⟨runId, active, hGet, hTimer⟩
    have hMem :
        active ∈ (state.recordOf t).active.vals := by
      rw [BTreeMap.mem_vals_iff]
      refine ⟨runId, ?_⟩
      change (BTreeMap.select _ _)[runId]? = _
      rw [BTreeMap.get_select, hGet]
      simp [Option.filter, hTimer]
    rw [hNil] at hMem
    cases hMem
  · intro hIdle
    rw [List.eq_nil_iff_forall_not_mem]
    intro active hMem
    rcases (BTreeMap.mem_vals_iff _ _).mp hMem with
      ⟨runId, hGet⟩
    change (BTreeMap.select _ _)[runId]? = _ at hGet
    rw [BTreeMap.get_select,
      Option.filter_eq_some_iff] at hGet
    exact
      not_active_of_idle hIdle hGet.1
        (by simpa using hGet.2)

theorem recordOf_claimRun_own
    (active : PersistedActiveRun)
    (hOwned : IdsOwned owner state)
    (hOwner : owner active.runId = some active.timerId) :
    (state.claimRun active).recordOf active.timerId =
      (state.recordOf active.timerId).claimRun active := by
  unfold PersistedStateMachine.claimRun TimerRecord.claimRun
  rw [recordOf_isEmpty]
  cases state.hasActive active.timerId with
  | true => rfl
  | false => exact recordOf_startActive_own hOwned hOwner

/- The owner of an id finds the run under it. -/
theorem recordOf_active
    {runId : RunId}
    (hOwned : IdsOwned owner state)
    (hOwner : owner runId = some t) :
    (state.recordOf t).active[runId]? =
      state.activeRuns[runId]? := by
  apply BTreeMap.get_select_of_pos
  intro active hGet
  have hTimer := hOwned.active runId active hGet
  rw [hOwner] at hTimer
  simpa using (Option.some.inj hTimer).symm

theorem recordOf_ownedRun
    {runId : RunId}
    (workerId : String)
    (token : UInt64)
    (hOwned : IdsOwned owner state)
    (hOwner : owner runId = some t) :
    (state.recordOf t).ownedRun runId workerId token =
      state.ownedRun runId workerId token := by
  unfold TimerRecord.ownedRun PersistedStateMachine.ownedRun
  rw [recordOf_active hOwned hOwner]

theorem recordOf_failActive_own
    (runId : RunId)
    (workerId : String)
    (active : PersistedActiveRun)
    (error : String) :
    (state.failActive runId workerId active
        error).recordOf active.timerId =
      (state.recordOf active.timerId).failActive runId
        workerId active error := by
  apply recordOf_eq
  · rw [state.get_failActive, if_pos rfl]
    rfl
  · rfl
  · rw [state.failActive_activeRuns]
    exact BTreeMap.select_erase _ _ _
  · rfl
  · exact
      history_own (state.failActive_history _ _ _ _) rfl

theorem recordOf_expireActive_own
    (runId : RunId)
    (active : PersistedActiveRun)
    {replacement : Option WorkerRun}
    (hNamed :
      ∀ run, replacement = some run →
        run.timer = active.timerId) :
    (state.expireActive runId active
        replacement).recordOf active.timerId =
      (state.recordOf active.timerId).expireActive runId
        active replacement := by
  cases replacement with
  | none =>
      apply recordOf_eq
      · rw [state.get_expireActive]
        exact if_pos rfl
      · rfl
      · rw [state.expireActive_activeRuns]
        exact BTreeMap.select_erase _ _ _
      · rfl
      · exact
          history_own (state.expireActive_history _ _ _) rfl
  | some run =>
      have hRun := hNamed run rfl
      apply recordOf_eq
      · rw [state.get_expireActive]
        exact if_pos hRun
      · rfl
      · rw [state.expireActive_activeRuns]
        exact BTreeMap.select_erase _ _ _
      · change
          (state.pending ++ [run]).filter
              (fun run => run.timer == active.timerId) =
            state.queueOf active.timerId ++ [run]
        rw [List.filter_append,
          List.filter_cons_of_pos (by simpa using hRun)]
        rfl
      · exact
          history_own (state.expireActive_history _ _ _) rfl

/- Rescheduling panics in the date arithmetic of a timer. -/
theorem rescheduleTimer_eq_none_iff
    (cal : Calendar)
    (state : PersistedStateMachine)
    (t : TimerId)
    (after : DateTime) :
    state.rescheduleTimer cal t after = none ↔
      (state.timers[t]?).any
        (fun timer => timer.reschedulePanics cal after) =
          true := by
  unfold PersistedStateMachine.rescheduleTimer
    PersistedTimer.reschedulePanics
  cases state.timers[t]? with
  | none => simp
  | some timer =>
      cases hShot : timer.spec.schedule.isOneShot with
      | true => simp [hShot]
      | false =>
          cases hNext :
              timer.spec.schedule.nextRunAfter cal after
                timer.spec.timezone with
          | none => simp [hShot, hNext]
          | some result =>
              cases result <;> simp [hShot, hNext]

/- A completion panics when rescheduling its timer does. -/
theorem completeActive_eq_none_iff
    (cal : Calendar)
    (state : PersistedStateMachine)
    (runId : RunId)
    (workerId : String)
    (active : PersistedActiveRun)
    (completedAt : DateTime) :
    state.completeActive cal runId workerId active
        completedAt = none ↔
      (state.recordOf active.timerId).timer.any
        (fun timer =>
          timer.reschedulePanics cal completedAt) =
        true := by
  have hReschedule :
      state.completeActive cal runId workerId active
          completedAt = none ↔
        ((state.removeActive runId).setState active.timerId
          .scheduled).rescheduleTimer cal active.timerId
            completedAt = none := by
    unfold PersistedStateMachine.completeActive
    dsimp only
    cases
        ((state.removeActive runId).setState active.timerId
          .scheduled).rescheduleTimer cal active.timerId
            completedAt with
    | none => simp
    | some next => simp
  rw [hReschedule, rescheduleTimer_eq_none_iff,
    PersistedStateMachine.get_setState, if_pos rfl,
    PersistedStateMachine.removeActive_timers]
  change _ ↔ (state.timers[active.timerId]?).any _ = true
  cases state.timers[active.timerId]? with
  | none => rfl
  | some timer => rfl

theorem recordOf_completeActive_own
    (runId : RunId)
    (workerId : String)
    (active : PersistedActiveRun)
    (completedAt : DateTime) :
    (state.completeActive cal runId workerId active
        completedAt).map
        (PersistedStateMachine.recordOf active.timerId) =
      (state.recordOf active.timerId).completeActive cal
        runId workerId active completedAt := by
  have hPanic :=
    completeActive_eq_none_iff cal state runId workerId
      active completedAt
  unfold TimerRecord.completeActive
  cases hComplete :
      state.completeActive cal runId workerId active
        completedAt with
  | none =>
      rw [if_pos (hPanic.mp hComplete)]
      rfl
  | some state' =>
      rw [if_neg (by
        intro hPanics
        rw [hPanic.mpr hPanics] at hComplete
        cases hComplete)]
      rw [Option.map_some, Option.some.injEq]
      apply recordOf_eq
      · rw [state.get_completeActive hComplete, if_pos rfl]
        rfl
      · rw [state.nextRuns_completeActive hComplete]
        simp only [if_true]
        rfl
      · rw [state.completeActive_activeRuns hComplete]
        exact BTreeMap.select_erase _ _ _
      · unfold PersistedStateMachine.queueOf
        rw [state.completeActive_pending hComplete]
        rfl
      · exact
          history_own
            (state.completeActive_history hComplete) rfl

/- A command moves its timer as a machine of its own. -/
theorem recordOf_own
    {command : RaftCommand}
    (cal : Calendar)
    (hOwned : IdsOwned owner state)
    (hUses : UsesOwned owner command)
    (hTimer : timerOf owner command = some t) :
    (applyKronCommand cal state command).map
        (PersistedStateMachine.recordOf t) =
      (state.recordOf t).step cal command := by
  cases command with
  | createTimer spec next =>
      cases hTimer
      exact congrArg some (recordOf_putTimer_own spec next)
  | updateTimer spec next =>
      cases hTimer
      exact congrArg some (recordOf_putTimer_own spec next)
  | cancelTimer timerId =>
      cases hTimer
      exact
        congrArg some
          (recordOf_switch_own t .cancelled none)
  | pauseTimer timerId =>
      cases hTimer
      exact
        congrArg some
          (recordOf_switch_own t .paused none)
  | resumeTimer timerId next =>
      cases hTimer
      exact
        congrArg some
          (recordOf_switch_own t .scheduled next)
  | claimRun timerId runId workerId token attempt deadline =>
      cases hTimer
      have hOwner := hUses.claim (runId, t) rfl
      exact
        congrArg some
          (recordOf_claimRun_own
            { timerId := t
              runId := runId
              workerId := workerId
              fencingToken := token
              attempt := attempt
              leaseDeadline := deadline }
            hOwned hOwner)
  | completeRun runId workerId token completedAt =>
      unfold applyKronCommand TimerRecord.step
      simp only [recordOf_ownedRun workerId token hOwned
        hTimer]
      cases hRun :
          state.ownedRun runId workerId token with
      | none => rfl
      | some active =>
          rcases owner_of_ownedRun hOwned hRun with
            ⟨_, hOwner⟩
          cases hTimer.symm.trans hOwner
          exact
            recordOf_completeActive_own runId workerId
              active completedAt
  | failRun runId workerId token error failedAt =>
      unfold applyKronCommand TimerRecord.step
      simp only [recordOf_ownedRun workerId token hOwned
        hTimer]
      cases hRun :
          state.ownedRun runId workerId token with
      | none => rfl
      | some active =>
          rcases owner_of_ownedRun hOwned hRun with
            ⟨_, hOwner⟩
          cases hTimer.symm.trans hOwner
          exact
            congrArg some
              (recordOf_failActive_own runId workerId
                active error)
  | expireRunLease runId replacement expiredAt =>
      unfold applyKronCommand TimerRecord.step
      simp only [recordOf_active hOwned hTimer]
      cases hGet : state.activeRuns[runId]? with
      | none => rfl
      | some active =>
          have hOwner := hOwned.active runId active hGet
          cases hTimer.symm.trans hOwner
          refine
            congrArg some
              (recordOf_expireActive_own runId active ?_)
          rintro run rfl
          exact
            hUses.retry (runId, run.timer) rfl
              active.timerId hOwner
  | _ => cases hTimer

end Kron

------------------------------------------------------------
-- Two Logs
------------------------------------------------------------

namespace Kron

/- The state machine splits into its timers. -/
theorem splits_into_timers
    (cal : Calendar)
    (owner : RunId → Option TimerId) :
    Components.Splits (applyKronCommand cal)
      (timerOf owner) PersistedStateMachine.recordOf
      (fun _ => TimerRecord.step cal) (IdsOwned owner)
      (UsesOwned owner) where
  keeps := fun _ _ _ => idsOwned_step
  own := fun _ _ _ hOwned hUses hTimer =>
    recordOf_own cal hOwned hUses hTimer
  other := fun _ _ _ _ hOwned hUses hOther hApply =>
    recordOf_other hOwned hUses hOther hApply
  free := by
    intro state command hOwned hUses hNone
    cases command with
    | completeRun runId workerId token completedAt =>
        -- a run without an owner is never active
        have hIdle :
            state.ownedRun runId workerId token = none := by
          cases hRun :
              state.ownedRun runId workerId token with
          | none => rfl
          | some active =>
              rcases owner_of_ownedRun hOwned hRun with
                ⟨_, hOwner⟩
              cases hNone.symm.trans hOwner
        unfold applyKronCommand
        simp [hIdle]
    | failRun runId workerId token error failedAt =>
        unfold applyKronCommand
        dsimp only
        split <;> rfl
    | expireRunLease runId replacement expiredAt =>
        unfold applyKronCommand
        dsimp only
        split <;> rfl
    | _ => rfl

/- A claim of a log uses its run id. -/
theorem mem_runIds_of_claim
    {log : List RaftCommand}
    {claim : RunId × TimerId}
    (hMem : claim ∈ log.filterMap RaftCommand.claim?) :
    claim ∈ log.flatMap RaftCommand.runIds := by
  rcases List.mem_filterMap.mp hMem with
    ⟨command, hCommand, hClaim⟩
  refine List.mem_flatMap.mpr ⟨command, hCommand, ?_⟩
  cases command with
  | claimRun =>
      cases hClaim
      exact List.mem_singleton_self _
  | _ => cases hClaim

/- The owner of a run id is the timer it is claimed for. -/
theorem claimedFor_eq_some_iff
    {log : List RaftCommand}
    (hApart : RunIdsApart log)
    (runId : RunId)
    (t : TimerId) :
    claimedFor log runId = some t ↔
      (runId, t) ∈ log.filterMap RaftCommand.claim? := by
  unfold claimedFor
  constructor
  · intro hLookup
    rcases List.lookup_eq_some_iff.mp hLookup with
      ⟨before, after, hSplit, _⟩
    rw [hSplit]
    simp
  · intro hMem
    cases hLookup :
        (log.filterMap RaftCommand.claim?).lookup runId with
    | none =>
        have hAbsent :=
          List.lookup_eq_none_iff.mp hLookup _ hMem
        simp at hAbsent
    | some t' =>
        rcases List.lookup_eq_some_iff.mp hLookup with
          ⟨before, after, hSplit, _⟩
        have hMem' :
            (runId, t') ∈
              log.filterMap RaftCommand.claim? := by
          rw [hSplit]
          simp
        have hSame : t' = t :=
          hApart _ (mem_runIds_of_claim hMem') _
            (mem_runIds_of_claim hMem) rfl
        rw [hSame]

/- Logs with the same commands give ids the same owners. -/
theorem claimedFor_perm
    {log log' : List RaftCommand}
    (hPerm : log.Perm log')
    (hApart : RunIdsApart log) :
    claimedFor log' = claimedFor log := by
  have hApart' : RunIdsApart log' := by
    have hSame := hPerm.flatMap_right RaftCommand.runIds
    intro x hx y hy
    exact
      hApart x (hSame.mem_iff.mpr hx) y
        (hSame.mem_iff.mpr hy)
  funext runId
  apply Option.ext
  intro t
  rw [claimedFor_eq_some_iff hApart',
    claimedFor_eq_some_iff hApart]
  exact
    (hPerm.filterMap RaftCommand.claim?).mem_iff.symm

/- The commands of a log use ids for their owners. -/
theorem usesOwned_of_mem
    {log : List RaftCommand}
    {command : RaftCommand}
    (hApart : RunIdsApart log)
    (hNamed : RetriesNamed log)
    (hMem : command ∈ log) :
    UsesOwned (claimedFor log) command where
  claim := by
    intro claim hClaim
    exact
      (claimedFor_eq_some_iff hApart _ _).mpr
        (List.mem_filterMap.mpr ⟨command, hMem, hClaim⟩)
  retry := by
    intro retry hRetry t hOwner
    exact hNamed command hMem retry hRetry t hOwner
  queued := by
    rintro runId run expiredAt rfl t hOwner
    have hClaim :=
      (claimedFor_eq_some_iff hApart _ _).mp hOwner
    exact
      hApart (run.runId, run.timer)
        (List.mem_flatMap.mpr
          ⟨_, hMem, List.mem_singleton_self _⟩)
        _ (mem_runIds_of_claim hClaim) rfl

/-
  Two logs of the same commands that keep the order of each
  timer's commands, with run ids that belong to one timer,
  leave the same record of every timer, or both panic.
-/
theorem applyLog_independent
    (cal : Calendar)
    (log log' : List RaftCommand)
    (hPerm : log.Perm log')
    (hApart : RunIdsApart log)
    (hNamed : RetriesNamed log)
    (hOrder :
      ∀ t,
        Components.addressed (timerOf (claimedFor log)) t
            log =
          Components.addressed (timerOf (claimedFor log')) t
            log')
    (t : TimerId) :
    (applyLog cal .default log).map
        (PersistedStateMachine.recordOf t) =
      (applyLog cal .default log').map
        (PersistedStateMachine.recordOf t) := by
  rw [claimedFor_perm hPerm hApart] at hOrder
  apply
    Components.run_map_view_eq
      (splits_into_timers cal (claimedFor log))
      idsOwned_default
  · intro command hMem
    exact usesOwned_of_mem hApart hNamed hMem
  · intro command hMem
    exact
      usesOwned_of_mem hApart hNamed
        (hPerm.mem_iff.mpr hMem)
  · exact hOrder

/- The retry of a run of the timer `y`. -/
def retryOfY : WorkerRun where
  timer := "y"
  tenantId := some "a"
  runId := "r2"
  task := "task"
  payload := "null"
  attempt := 2
  fencingToken := 2
  idempotencyKey := "y:lease-expired:r2"

/- A run of `x` that completes and one of `y` that expires. -/
def oneAfterOther : List RaftCommand :=
  [.createTimer ownedSpec none,
    .claimRun "x" "r1" "w" 1 1 30,
    .completeRun "r1" "w" 1 3,
    .createTimer { ownedSpec with id := "y" } none,
    .claimRun "y" "r2" "w" 1 1 30,
    .expireRunLease "r2" (some retryOfY) 40]

/- The same commands in turns. -/
def inTurns : List RaftCommand :=
  [.createTimer { ownedSpec with id := "y" } none,
    .createTimer ownedSpec none,
    .claimRun "y" "r2" "w" 1 1 30,
    .claimRun "x" "r1" "w" 1 1 30,
    .expireRunLease "r2" (some retryOfY) 40,
    .completeRun "r1" "w" 1 3]

theorem independent_inTurns :
    (applyLog utcCalendar .default oneAfterOther).map
        (fun state =>
          ((state.recordOf "x").history.length,
            (state.recordOf "y").pending.length)) =
      some (3, 1) ∧
      ∀ t,
        (applyLog utcCalendar .default oneAfterOther).map
            (PersistedStateMachine.recordOf t) =
          (applyLog utcCalendar .default inTurns).map
            (PersistedStateMachine.recordOf t) := by
  refine ⟨by decide +kernel, ?_⟩
  apply
    applyLog_independent utcCalendar oneAfterOther inTurns
      (by decide) (by decide) (by decide)
  intro t
  by_cases hx : t = "x"
  · subst hx
    decide
  · by_cases hy : t = "y"
    · subst hy
      decide
    · -- no command is about any other timer
      have hNames :
          ∀ log ∈ [oneAfterOther, inTurns],
            ∀ command ∈ log,
              timerOf (claimedFor log) command = some "x" ∨
                timerOf (claimedFor log) command =
                  some "y" := by
        decide
      have hNil :
          ∀ log ∈ [oneAfterOther, inTurns],
            Components.addressed (timerOf (claimedFor log))
              t log = [] := by
        intro log hLog
        apply List.filter_eq_nil_iff.mpr
        intro command hMem
        rcases hNames log hLog command hMem with
          hName | hName
        · simpa [hName] using Ne.symm hx
        · simpa [hName] using Ne.symm hy
      rw [hNil oneAfterOther (by simp),
        hNil inTurns (by simp)]

end Kron
