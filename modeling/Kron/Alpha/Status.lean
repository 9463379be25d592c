import Kron.Alpha.Restart

/-
  What the status of a timer shows.

  The lifecycle state of a timer and the run that a worker
  holds are kept apart. Where a run id is drawn for one timer
  only, no claim is posted and every append succeeds, a timer
  with a task is shown as running only while one worker can
  end a run of it, with the token that is shown, however
  often leases run out and the node is started again.

  Key definitions include:
    * `Kron.RaftCommand.namedBy`
    * `Kron.Alpha.Section.drawsFor`
    * `Kron.Alpha.Section.appends`
    * `Kron.Alpha.Shown`
    * `Kron.Alpha.Honest`

  Key theorems include:
    * `Kron.Alpha.shown_applyCommand`
    * `Kron.Alpha.honest_of_step`
    * `Kron.Alpha.running_is_held`
-/

------------------------------------------------------------
-- Timers That Are Shown As Running
------------------------------------------------------------

namespace Kron

/- Whether a claim is of the timer that its run id is for. -/
def RaftCommand.namedBy
    (timerOf : RunId → TimerId) : RaftCommand → Bool
| .claimRun timerId runId _ _ _ _ => timerOf runId == timerId
| _ => true

theorem RaftCommand.namedBy_of_isClaim
    {command : RaftCommand}
    (hOther : command.isClaim = false)
    (timerOf : RunId → TimerId) :
    command.namedBy timerOf = true := by
  cases command with
  | claimRun => cases hOther
  | _ => rfl

namespace Alpha

/-
  Every run is of the timer that its id is for, and a timer
  with a task is running only while a run of it is held.
-/
structure Shown
    (timerOf : RunId → TimerId)
    (state : ClusterState) : Prop where
  queued :
    ∀ run ∈ state.pending, timerOf run.runId = run.timer
  named :
    ∀ (runId : RunId) (active : ActiveRun),
      state.activeRuns[runId]? = some active →
        active.runId = runId ∧
          timerOf runId = active.timerId
  running :
    ∀ id spec task payload,
      state.timers[id]? = some spec →
        spec.target = .workerTask task payload →
          state.states[id]? = some .running →
            ∃ (runId : RunId) (active : ActiveRun),
              state.activeRuns[runId]? = some active ∧
                active.timerId = id

namespace Shown

variable {timerOf : RunId → TimerId}
variable {state state' : ClusterState}

theorem new
    (config : ClusterConfig) :
    Shown timerOf (ClusterState.new config) := by
  refine ⟨?_, ?_, ?_⟩
  · intro run hMem
    cases hMem
  · intro runId active hGet
    simp [ClusterState.new] at hGet
  · intro id spec task payload hSpec
    simp [ClusterState.new] at hSpec

/- Only four fields of a state matter here. -/
theorem of_eq
    (hShown : Shown timerOf state)
    (hPending : state'.pending = state.pending)
    (hActive : state'.activeRuns = state.activeRuns)
    (hTimers : state'.timers = state.timers)
    (hStates : state'.states = state.states) :
    Shown timerOf state' where
  queued := by
    rw [hPending]
    exact hShown.queued
  named := by
    rw [hActive]
    exact hShown.named
  running := by
    rw [hActive, hTimers, hStates]
    exact hShown.running

theorem setState
    (hShown : Shown timerOf state)
    (timerId : TimerId)
    (timerState : TimerState)
    (hOther : timerState ≠ .running) :
    Shown timerOf (state.setState timerId timerState) where
  queued := hShown.queued
  named := hShown.named
  running := by
    intro id spec task payload hSpec hTarget hRunning
    unfold ClusterState.setState at hRunning
    rw [BTreeMap.get_insert] at hRunning
    split at hRunning
    · exact absurd (Option.some.inj hRunning) hOther
    · exact
        hShown.running id spec task payload hSpec hTarget
          hRunning

/- A timer that is stored is shown as scheduled. -/
theorem stored
    (hShown : Shown timerOf state)
    (spec : DistributedTimerSpec)
    (hPending : state'.pending = state.pending)
    (hActive : state'.activeRuns = state.activeRuns)
    (hTimers :
      state'.timers = state.timers.insert spec.id spec)
    (hStates :
      state'.states =
        state.states.insert spec.id .scheduled) :
    Shown timerOf state' where
  queued := by
    rw [hPending]
    exact hShown.queued
  named := by
    rw [hActive]
    exact hShown.named
  running := by
    intro id other task payload hSpec hTarget hRunning
    rw [hTimers, BTreeMap.get_insert] at hSpec
    rw [hStates, BTreeMap.get_insert] at hRunning
    rw [hActive]
    split at hRunning
    · cases hRunning
    · rename_i hNe
      rw [if_neg hNe] at hSpec
      exact
        hShown.running id other task payload hSpec hTarget
          hRunning

theorem queueRun
    (hShown : Shown timerOf state)
    (run : WorkerRun)
    (hNamed : timerOf run.runId = run.timer) :
    Shown timerOf (state.queueRun run) where
  queued := by
    intro other hMem
    rcases List.mem_append.mp hMem with hOld | hNew
    · exact hShown.queued other hOld
    · rw [List.mem_singleton] at hNew
      subst hNew
      exact hNamed
  named := hShown.named
  running := hShown.running

/- A claim takes no run of another timer away. -/
theorem startActive
    (hShown : Shown timerOf state)
    (active : ActiveRun)
    (hNamed : timerOf active.runId = active.timerId) :
    Shown timerOf (state.startActive active) := by
  have hGet :
      ∀ runId : RunId,
        (state.startActive active).activeRuns[runId]? =
          if active.runId = runId then some active
          else state.activeRuns[runId]? :=
    fun runId => BTreeMap.get_insert _ _ _ _
  refine ⟨hShown.queued, ?_, ?_⟩
  · intro runId other hOther
    rw [hGet] at hOther
    split at hOther
    · rename_i hEq
      cases hOther
      refine ⟨hEq, ?_⟩
      rw [← hEq]
      exact hNamed
    · exact hShown.named runId other hOther
  · intro id spec task payload hSpec hTarget hRunning
    by_cases hEq : active.timerId = id
    · exact ⟨active.runId, active, by simp [hGet], hEq⟩
    · have hStates :
          (state.startActive active).states[id]? =
            state.states[id]? := by
        show (state.states.insert active.timerId _)[id]? = _
        rw [BTreeMap.get_insert, if_neg hEq]
      rw [hStates] at hRunning
      rcases hShown.running id spec task payload hSpec
          hTarget hRunning with ⟨runId, other, hOther, rfl⟩
      refine ⟨runId, other, ?_, rfl⟩
      rw [hGet, if_neg, hOther]
      -- the run that starts has an id of its own timer
      rintro rfl
      exact
        hEq
          (hNamed.symm.trans (hShown.named _ other hOther).2)

/- A run ends, and its timer is shown as something else. -/
theorem release
    (hShown : Shown timerOf state)
    {runId : RunId}
    {active : ActiveRun}
    (hGet : state.activeRuns[runId]? = some active)
    (hPending : state'.pending = state.pending)
    (hActive :
      state'.activeRuns = state.activeRuns.erase runId)
    (hTimers : state'.timers = state.timers)
    (hStates :
      ∀ id, id ≠ active.timerId →
        state'.states[id]? = state.states[id]?)
    (hEnded :
      ∀ spec task payload,
        state.timers[active.timerId]? = some spec →
          spec.target = .workerTask task payload →
            state'.states[active.timerId]? ≠
              some .running) :
    Shown timerOf state' := by
  refine ⟨?_, ?_, ?_⟩
  · rw [hPending]
    exact hShown.queued
  · intro other run hOther
    rw [hActive, BTreeMap.get_erase] at hOther
    split at hOther
    · cases hOther
    · exact hShown.named other run hOther
  · intro id spec task payload hSpec hTarget hRunning
    rw [hTimers] at hSpec
    by_cases hEq : id = active.timerId
    · subst hEq
      exact
        absurd hRunning (hEnded spec task payload hSpec hTarget)
    · rw [hStates id hEq] at hRunning
      rcases hShown.running id spec task payload hSpec
          hTarget hRunning with ⟨other, run, hOther, rfl⟩
      refine ⟨other, run, ?_, rfl⟩
      rw [hActive, BTreeMap.get_erase, if_neg, hOther]
      rintro rfl
      rw [hGet] at hOther
      cases hOther
      exact hEq rfl

/- A run ends with a new lifecycle state of its timer. -/
theorem finish
    (hShown : Shown timerOf state)
    {runId : RunId}
    {active : ActiveRun}
    (hGet : state.activeRuns[runId]? = some active)
    (timerState : TimerState)
    (hOther : timerState ≠ .running) :
    Shown timerOf
      ((state.removeActive runId).setState active.timerId
        timerState) := by
  have hStates :
      ∀ id : TimerId,
        ((state.removeActive runId).setState active.timerId
            timerState).states[id]? =
          if active.timerId = id then some timerState
          else state.states[id]? :=
    fun id => BTreeMap.get_insert _ _ _ _
  refine hShown.release hGet rfl rfl rfl ?_ ?_
  · intro id hNe
    rw [hStates, if_neg (Ne.symm hNe)]
  · intro spec task payload _ _ hRunning
    rw [hStates, if_pos rfl] at hRunning
    exact hOther (Option.some.inj hRunning)

end Shown

end Alpha

end Kron

------------------------------------------------------------
-- Commands And The Scheduler
------------------------------------------------------------

namespace Kron

namespace Alpha

variable {cal : Calendar}
variable {codec : JsonCodec CommandEntry}
variable {timerOf : RunId → TimerId}
variable {state state' : ClusterState}

theorem shown_rescheduleTimer
    {timerId : TimerId}
    {now : DateTime}
    (hShown : Shown timerOf state)
    (hApply :
      rescheduleTimer cal state timerId now =
        some state') :
    Shown timerOf state' := by
  rw [rescheduleTimer_eq_some hApply]
  exact hShown.of_eq rfl rfl rfl rfl

theorem get_of_owns
    {runId : RunId}
    {workerId : String}
    {fencingToken : UInt64}
    {active : ActiveRun}
    (hOwns :
      state.owns runId workerId fencingToken = some active) :
    state.activeRuns[runId]? = some active :=
  (Option.filter_eq_some_iff.mp hOwns).1

/- Every command of the log keeps what is shown true. -/
theorem shown_applyCommand
    {command : RaftCommand}
    {clock : Readings}
    (hShown : Shown timerOf state)
    (hNamed : command.namedBy timerOf = true)
    (hApply :
      applyCommand cal state command clock =
        some (.ok state')) :
    Shown timerOf state' := by
  cases command with
  | createTimer spec nextRunAt =>
      rw [applyCreateTimer_eq_ok hApply]
      exact hShown.stored spec rfl rfl rfl rfl
  | updateTimer spec nextRunAt =>
      rw [applyCreateTimer_eq_ok hApply]
      exact hShown.stored spec rfl rfl rfl rfl
  | cancelTimer timerId =>
      cases hApply
      have hSet :=
        hShown.setState timerId .cancelled (by decide)
      exact hSet.of_eq rfl rfl rfl rfl
  | pauseTimer timerId =>
      cases hApply
      have hSet :=
        hShown.setState timerId .paused (by decide)
      exact hSet.of_eq rfl rfl rfl rfl
  | resumeTimer timerId nextRunAt =>
      rcases Option.map_eq_some_iff.mp hApply with
        ⟨next, hNext, hEq⟩
      cases hEq
      exact
        shown_rescheduleTimer
          (hShown.setState timerId .scheduled (by decide))
          hNext
  | claimRun timerId runId workerId fencingToken attempt
      leaseDeadline =>
      simp only [applyCommand] at hApply
      split at hApply
      · cases hApply
        exact hShown
      · cases hApply
        have hStart :=
          hShown.startActive
            { timerId := timerId
              runId := runId
              workerId := workerId
              fencingToken := fencingToken
              attempt := attempt
              leaseDeadline := leaseDeadline }
            (beq_iff_eq.mp hNamed)
        exact hStart.of_eq rfl rfl rfl rfl
  | completeRun runId workerId fencingToken completedAt =>
      simp only [applyCommand] at hApply
      split at hApply
      · cases hApply
        exact hShown
      · rename_i active hOwns
        rcases Option.map_eq_some_iff.mp hApply with
          ⟨next, hNext, hEq⟩
        cases hEq
        have hFinish :=
          hShown.finish (get_of_owns hOwns) .scheduled
            (by decide)
        refine shown_rescheduleTimer ?_ hNext
        exact hFinish.of_eq rfl rfl rfl rfl
  | failRun runId workerId fencingToken error failedAt =>
      simp only [applyCommand] at hApply
      split at hApply
      · cases hApply
        exact hShown
      · rename_i active hOwns
        cases hApply
        have hFinish :=
          hShown.finish (get_of_owns hOwns) .dead (by decide)
        exact hFinish.of_eq rfl rfl rfl rfl
  | expireRunLease runId replacement expiredAt =>
      cases hApply
      exact hShown
  | heartbeatWorker workerId leaseUntil =>
      simp only [applyCommand] at hApply
      split at hApply
      · cases hApply
        exact hShown
      · rcases Option.map_eq_some_iff.mp hApply with
          ⟨next, _, hEq⟩
        cases hEq
        exact hShown.of_eq rfl rfl rfl rfl
  | registerWorker workerId tasks leaseUntil =>
      rcases Option.map_eq_some_iff.mp hApply with
        ⟨next, _, hEq⟩
      cases hEq
      exact hShown.of_eq rfl rfl rfl rfl
  | unregisterWorker workerId =>
      cases hApply
      exact hShown.of_eq rfl rfl rfl rfl
  | addNode node =>
      simp only [applyCommand] at hApply
      split at hApply
      · cases hApply
        exact hShown
      · cases hApply
        exact hShown.of_eq rfl rfl rfl rfl
  | removeNode nodeId =>
      cases hApply
      exact hShown.of_eq rfl rfl rfl rfl

theorem shown_replayEntries
    {clock : Nat → Readings}
    {n : Nat}
    {entries : List CommandEntry}
    (hShown : Shown timerOf state)
    (hNamed :
      ∀ entry ∈ entries,
        entry.command.namedBy timerOf = true)
    (hReplay :
      replayEntries cal clock n entries state =
        some (.ok state')) :
    Shown timerOf state' := by
  induction entries generalizing n state with
  | nil =>
      cases hReplay
      exact hShown
  | cons entry entries ih =>
      simp only [replayEntries] at hReplay
      split at hReplay
      · cases hReplay
      · cases hReplay
      · rename_i next hApply
        have hHead := hNamed entry List.mem_cons_self
        exact
          ih (shown_applyCommand hShown hHead hApply)
            (fun later hMem =>
              hNamed later (List.mem_cons_of_mem _ hMem))
            hReplay

/- A call that claims nothing keeps what is shown true. -/
theorem shown_applySubmission
    {call : Submission}
    {command : RaftCommand}
    {clock : Readings}
    (hShown : Shown timerOf state)
    (hClaim : command.isClaim = false)
    (hApply :
      applySubmission cal state call command clock =
        some (.ok state')) :
    Shown timerOf state' := by
  have hNamed :=
    RaftCommand.namedBy_of_isClaim hClaim timerOf
  cases call with
  | register request now =>
      rcases Option.map_eq_some_iff.mp hApply with
        ⟨leaseUntil, _, hEq⟩
      cases hEq
      exact hShown.of_eq rfl rfl rfl rfl
  | create request registeredAt createdAt =>
      exact shown_applyCommand hShown hNamed hApply
  | join node =>
      exact shown_applyCommand hShown hNamed hApply
  | leave nodeId =>
      exact shown_applyCommand hShown hNamed hApply
  | posted posted =>
      exact shown_applyCommand hShown hNamed hApply

theorem shown_enqueueRun
    (hShown : Shown timerOf state)
    {id : TimerId}
    {runId : RunId}
    (hDrawn : timerOf runId = id) :
    Shown timerOf (state.enqueueRun cal id runId) := by
  unfold ClusterState.enqueueRun
  split
  · exact hShown
  · split
    · exact hShown
    · split
      · exact
          (hShown.queueRun _ hDrawn).setState id .scheduled
            (by decide)
      · exact hShown

theorem shown_enqueueDueRuns
    {now : DateTime}
    {order : List (TimerId × RunId)}
    (hShown : Shown timerOf state)
    (hDrawn : ∀ due ∈ order, timerOf due.2 = due.1)
    (hEnqueue :
      state.enqueueDueRuns cal now order = some state') :
    Shown timerOf state' := by
  have hFold :
      ∀ (dues : List (TimerId × RunId))
        (current : ClusterState),
        (∀ due ∈ dues, timerOf due.2 = due.1) →
          Shown timerOf current →
            Shown timerOf
              (dues.foldl
                (fun state due =>
                  state.enqueueRun cal due.1 due.2)
                current) := by
    intro dues
    induction dues with
    | nil => exact fun _ _ h => h
    | cons due dues ih =>
        intro current hDues hCurrent
        apply ih
        · exact fun later hMem =>
            hDues later (List.mem_cons_of_mem _ hMem)
        · exact
            shown_enqueueRun hCurrent
              (hDues due List.mem_cons_self)
  unfold ClusterState.enqueueDueRuns at hEnqueue
  split at hEnqueue
  · split at hEnqueue
    · cases hEnqueue
      exact hFold order state hDrawn hShown
    · cases hEnqueue
  · cases hEnqueue
    exact hShown

/- A run that expires is queued again, dead, or forgotten. -/
theorem shown_expireRun
    (hShown : Shown timerOf state)
    (runId : RunId) :
    Shown timerOf (state.expireRun cal runId) := by
  unfold ClusterState.expireRun
  split
  · exact hShown
  · rename_i active hGet
    have hNamed := hShown.named runId active hGet
    simp only
    split
    · rename_i hUnknown
      refine
        hShown.release hGet rfl rfl rfl (fun _ _ => rfl) ?_
      intro spec task payload hSpec
      have hNone :
          state.timers[active.timerId]? = none := hUnknown
      rw [hNone] at hSpec
      cases hSpec
    · rename_i spec hSpec
      split
      · have hFinish := hShown.finish hGet .dead (by decide)
        exact hFinish.of_eq rfl rfl rfl rfl
      · split
        · rename_i task payload hTarget
          have hFinish :=
            hShown.finish hGet .retrying (by decide)
          have hRun :
              timerOf active.runId = active.timerId := by
            rw [hNamed.1]
            exact hNamed.2
          have hQueued :=
            hFinish.queueRun
              (((state.removeActive runId).pushHistory
                (.runLeaseExpired active.timerId active.runId
                  active.workerId
                  active.fencingToken)).retryRun cal active
                spec task payload)
              hRun
          exact hQueued.of_eq rfl rfl rfl rfl
        · rename_i hTarget
          refine
            hShown.release hGet rfl rfl rfl
              (fun _ _ => rfl) ?_
          intro other task payload hOther hTask
          have hSame :
              state.timers[active.timerId]? = some spec :=
            hSpec
          rw [hSame] at hOther
          cases hOther
          exact absurd hTask (hTarget task payload)

theorem shown_foldl_loseWorker
    (hShown : Shown timerOf state)
    (lost : List String) :
    Shown timerOf
      (lost.foldl ClusterState.loseWorker state) := by
  induction lost generalizing state with
  | nil => exact hShown
  | cons workerId lost ih =>
      exact ih (hShown.of_eq rfl rfl rfl rfl)

theorem shown_foldl_expireRun
    (hShown : Shown timerOf state)
    (expired : List RunId) :
    Shown timerOf
      (expired.foldl (ClusterState.expireRun cal) state) := by
  induction expired generalizing state with
  | nil => exact hShown
  | cons runId expired ih =>
      exact ih (shown_expireRun hShown runId)

theorem shown_expireWorkers
    {clock : Readings}
    {lost : List String}
    {expired : List RunId}
    (hShown : Shown timerOf state)
    (hExpire :
      state.expireWorkers cal clock lost expired =
        some state') :
    Shown timerOf state' := by
  unfold ClusterState.expireWorkers at hExpire
  split at hExpire
  · simp only at hExpire
    split at hExpire
    · cases hExpire
      exact
        shown_foldl_expireRun
          (shown_foldl_loseWorker hShown lost) expired
    · cases hExpire
  · cases hExpire

end Alpha

end Kron

------------------------------------------------------------
-- Sections And Restarts
------------------------------------------------------------

namespace Kron

namespace Alpha

open WorkQueue

namespace Section

/- Whether the run ids that it draws are for their timers. -/
def drawsFor
    (timerOf : RunId → TimerId) : Section → Bool
| .enqueue _ order =>
    order.all fun due => timerOf due.2 == due.1
| _ => true

/- Whether what it appends is written. -/
def appends : Section → Bool
| .submit _ io => io.failure.isNone
| .claim _ _ io _ _ => io.failure.isNone
| .complete _ _ io _ _ => io.failure.isNone
| .fail _ _ io _ => io.failure.isNone
| _ => true

end Section

variable {cal : Calendar}
variable {codec : JsonCodec CommandEntry}
variable {timerOf : RunId → TimerId}
variable {node node' : Node}

/- The file holds what was logged, claims of named runs. -/
structure Lines
    (codec : JsonCodec CommandEntry)
    (timerOf : RunId → TimerId)
    (node : Node) : Prop where
  aof : node.aof = node.logged.flatMap (encodeEntry codec)
  named :
    ∀ entry ∈ node.logged,
      entry.command.namedBy timerOf = true

theorem Lines.of_eq
    (hLines : Lines codec timerOf node)
    (hAof : node'.aof = node.aof)
    (hLogged : node'.logged = node.logged) :
    Lines codec timerOf node' where
  aof := by rw [hAof, hLogged, hLines.aof]
  named := by
    rw [hLogged]
    exact hLines.named

theorem Lines.log
    {io : AppendIo}
    (hLines : Lines codec timerOf node)
    (command : RaftCommand)
    (hNamed : command.namedBy timerOf = true)
    (hFailure : io.failure = none) :
    Lines codec timerOf (node.log codec command io) where
  aof := aof_log hLines.aof hFailure
  named := by
    intro entry hMem
    rcases List.mem_append.mp hMem with hOld | hNew
    · exact hLines.named entry hOld
    · rw [List.mem_singleton] at hNew
      subst hNew
      exact hNamed

theorem Lines.settle
    (hLines : Lines codec timerOf node)
    (result : Option (Except KronError ClusterState)) :
    Lines codec timerOf (node.settle result).1 :=
  hLines.of_eq (Node.settle_eq node result).1
    (Node.settle_eq node result).2.2.1

theorem shown_settle
    (node : Node)
    {result : Option (Except KronError ClusterState)}
    (hShown : Shown timerOf node.state)
    (hResult :
      ∀ state, result = some (.ok state) →
        Shown timerOf state) :
    Shown timerOf (node.settle result).1.state := by
  unfold Node.settle
  split
  · exact hShown
  · exact hShown
  · exact hResult _ rfl

/- A worker is given a run that waits. -/
theorem shown_claimed
    {workerId : String}
    {tasks : List String}
    {run : WorkerRun}
    (hShown : Shown timerOf node.state)
    (hFind :
      node.state.pending.find?
        (takes node.state workerId tasks) = some run)
    (held : DateTime) :
    Shown timerOf
      (node.claimed workerId tasks run held) := by
  have hRest :
      Shown timerOf
        { node.state with
          pending :=
            node.state.pending.eraseP
              (takes node.state workerId tasks) } :=
    { queued := fun other hMem =>
        hShown.queued other (List.mem_of_mem_eraseP hMem)
      named := hShown.named
      running := hShown.running }
  exact
    hRest.startActive (claimOf run workerId held)
      (hShown.queued run (List.mem_of_find?_eq_some hFind))

/- A section under the lock logs and shows what is so. -/
theorem lines_and_shown_of_lockedStep
    {label : Section}
    (hNoClaims : NoClaims node)
    (hAppends : label.appends = true)
    (hDraws : label.drawsFor timerOf = true)
    (hLines : Lines codec timerOf node)
    (hShown : Shown timerOf node.state)
    (hStep :
      node.lockedStep cal codec label = some node') :
    Lines codec timerOf node' ∧
      Shown timerOf node'.state := by
  cases label with
  | submit call io => cases hStep
  | reopen args clock => cases hStep
  | apply index clock =>
      simp only [Node.lockedStep, Node.applyNext] at hStep
      split at hStep
      · cases hStep
      · rename_i call command hGet
        cases hStep
        have hClaim :=
          hNoClaims (call, command) (List.mem_of_getElem? hGet)
        have hTaken :
            Lines codec timerOf
              { node with
                unapplied := node.unapplied.eraseIdx index } :=
          hLines.of_eq rfl rfl
        refine ⟨hTaken.settle _, shown_settle _ hShown ?_⟩
        intro state hState
        exact shown_applySubmission hShown hClaim hState
  | heartbeat workerId instant =>
      have hCase := node.heartbeatWorker_cases workerId instant
      rw [Option.some.inj hStep] at hCase
      cases hCase with
      | ignored => exact ⟨hLines, hShown⟩
      | renewed worker =>
          refine ⟨hLines.settle _, shown_settle _ hShown ?_⟩
          intro state hState
          rcases Option.map_eq_some_iff.mp hState with
            ⟨leaseUntil, _, hEq⟩
          cases hEq
          exact hShown.of_eq rfl rfl rfl rfl
  | claim workerId tasks io now later =>
      have hFailure : io.failure = none :=
        Option.isNone_iff_eq_none.mp hAppends
      simp only [Node.lockedStep] at hStep
      split at hStep
      · have hCase :=
          node.claimPendingFor_cases codec workerId tasks io
            now later
        rw [Option.some.inj hStep] at hCase
        have hLog :
            ∀ run logged,
              node.state.pending.find?
                  (takes node.state workerId tasks) =
                some run →
              Lines codec timerOf
                (node.log codec
                  (claimCommandOf
                    (claimOf run workerId logged)) io) := by
          intro run logged hFind
          refine hLines.log _ (beq_iff_eq.mpr ?_) hFailure
          exact
            hShown.queued run
              (List.mem_of_find?_eq_some hFind)
        cases hCase with
        | idle => exact ⟨hLines, hShown⟩
        | panicked => exact ⟨hLines.of_eq rfl rfl, hShown⟩
        | failed run logged failure hFind =>
            exact ⟨hLog run logged hFind, hShown⟩
        | lost run logged hFind =>
            exact
              ⟨(hLog run logged hFind).of_eq rfl rfl, hShown⟩
        | gave run logged held hFind =>
            exact
              ⟨(hLog run logged hFind).of_eq rfl rfl,
                shown_claimed hShown hFind held⟩
      · cases hStep
        exact ⟨hLines, hShown⟩
  | complete runId request io completedAt now =>
      have hFailure : io.failure = none :=
        Option.isNone_iff_eq_none.mp hAppends
      have hCase :=
        node.completeRun_cases cal codec runId request io
          completedAt now
      rw [Option.some.inj hStep] at hCase
      cases hCase with
      | refused => exact ⟨hLines, hShown⟩
      | failed active failure =>
          exact ⟨hLines.log _ rfl hFailure, hShown⟩
      | ended active hOwns =>
          refine
            ⟨(hLines.log _ rfl hFailure).settle _,
              shown_settle _ hShown ?_⟩
          intro state hState
          rcases Option.map_eq_some_iff.mp hState with
            ⟨next, hNext, hEq⟩
          cases hEq
          have hFinish :=
            hShown.finish (get_of_owns hOwns) .scheduled
              (by decide)
          refine shown_rescheduleTimer ?_ hNext
          exact hFinish.of_eq rfl rfl rfl rfl
  | fail runId request io failedAt =>
      have hFailure : io.failure = none :=
        Option.isNone_iff_eq_none.mp hAppends
      have hCase :=
        node.failRun_cases codec runId request io failedAt
      rw [Option.some.inj hStep] at hCase
      cases hCase with
      | refused => exact ⟨hLines, hShown⟩
      | failed active failure =>
          exact ⟨hLines.log _ rfl hFailure, hShown⟩
      | ended active hOwns =>
          have hLog :=
            hLines.log
              (.failRun runId request.workerId
                request.fencingToken request.error failedAt)
              rfl hFailure
          have hFinish :=
            hShown.finish (get_of_owns hOwns) .dead
              (by decide)
          exact
            ⟨hLog.of_eq rfl rfl,
              hFinish.of_eq rfl rfl rfl rfl⟩
  | enqueue now order =>
      rcases Option.map_eq_some_iff.mp hStep with
        ⟨state, hEnqueue, rfl⟩
      have hDrawn :
          ∀ due ∈ order, timerOf due.2 = due.1 := by
        intro due hMem
        exact
          beq_iff_eq.mp (List.all_eq_true.mp hDraws due hMem)
      exact
        ⟨hLines.of_eq rfl rfl,
          shown_enqueueDueRuns hShown hDrawn hEnqueue⟩
  | expire clock lost expired =>
      rcases Option.map_eq_some_iff.mp hStep with
        ⟨state, hExpire, rfl⟩
      exact
        ⟨hLines.of_eq rfl rfl,
          shown_expireWorkers hShown hExpire⟩
  | shutdown =>
      cases hStep
      exact
        ⟨hLines.of_eq rfl rfl,
          hShown.of_eq rfl rfl rfl rfl⟩

/-
  A node whose log and state are those of named runs, with
  one run for a timer, under the last token of the timer.
-/
structure Honest
    (codec : JsonCodec CommandEntry)
    (timerOf : RunId → TimerId)
    (node : Node) : Prop where
  lines : Lines codec timerOf node
  shown : Shown timerOf node.state
  noClaims : NoClaims node
  exclusive : Exclusive node.state.queue
  current : Current node.state.queue

theorem honest_fresh
    (args : OpenArgs) :
    Honest codec timerOf (Node.fresh args) where
  lines := ⟨rfl, fun _ hMem => by cases hMem⟩
  shown := Shown.new args.config
  noClaims := noClaims_of_nil rfl
  exclusive := (restored_new args.config).exclusive
  current := (restored_new args.config).current

theorem current_of_runEffect
    (hExclusive : Exclusive node.state.queue)
    (hCurrent : Current node.state.queue)
    (hEffect : RunEffect node node') :
    Current node'.state.queue := by
  cases hEffect with
  | quiet hHandouts hSteps =>
      exact current_steps hExclusive hCurrent hSteps
  | gave handout hHandouts hStep =>
      exact current_step hExclusive hCurrent hStep

/- A restart reads back a log of named runs. -/
theorem honest_of_reopen
    {args : OpenArgs}
    {clock : Nat → Readings}
    (hWrites : ∀ entry, codec.WritesLine entry)
    (hHonest : Honest codec timerOf node)
    (hReopen :
      node.reopen cal codec args clock = some node') :
    Honest codec timerOf node' := by
  rcases restored_of_reopen hReopen with
    ⟨hRestored, hNone⟩
  unfold Node.reopen at hReopen
  split at hReopen
  · rename_i state aof hOpen
    cases hReopen
    rw [hHonest.lines.aof,
      openWithLeader_entries args clock
        (fun entry _ => hWrites entry)] at hOpen
    rcases Option.map_eq_some_iff.mp hOpen with
      ⟨result, hReplay, hEq⟩
    cases result with
    | error e => cases hEq
    | ok opened =>
        cases hEq
        exact
          { lines := ⟨rfl, hHonest.lines.named⟩
            shown :=
              shown_replayEntries (Shown.new args.config)
                hHonest.lines.named hReplay
            noClaims := noClaims_of_nil hNone
            exclusive := hRestored.exclusive
            current := hRestored.current }
  · cases hReopen

theorem lines_of_submitCase
    {call : Submission}
    {io : AppendIo}
    (hPosts : Section.postsClaim (.submit call io) = false)
    (hFailure : io.failure = none)
    (hLines : Lines codec timerOf node)
    (hCase : node.SubmitCase cal codec call io node') :
    Lines codec timerOf node' ∧ node'.state = node.state := by
  have hNamed :
      ∀ command, call.command cal = some (.ok command) →
        command.namedBy timerOf = true := by
    intro command hCommand
    apply RaftCommand.namedBy_of_isClaim
    rcases posted_or_other hCommand with rfl | hOther
    · exact hPosts
    · exact RaftCommand.isClaim_eq_false hOther
  cases hCase with
  | refused => exact ⟨hLines, rfl⟩
  | failed command failure hCommand =>
      exact
        ⟨hLines.log _ (hNamed command hCommand) hFailure, rfl⟩
  | appended command hCommand =>
      have hLog :=
        hLines.log _ (hNamed command hCommand) hFailure
      exact ⟨hLog.of_eq rfl rfl, rfl⟩

/- One step of a node, with its restarts. -/
theorem honest_of_step
    {label : Section}
    (hWrites : ∀ entry, codec.WritesLine entry)
    (hPosts : label.postsClaim = false)
    (hAppends : label.appends = true)
    (hDraws : label.drawsFor timerOf = true)
    (hHonest : Honest codec timerOf node)
    (hStep : node.step cal codec label = some node') :
    Honest codec timerOf node' := by
  rcases Node.step_cases hStep with
    ⟨call, io, rfl, rfl⟩ | ⟨args, clock, rfl, hReopen⟩ |
      ⟨_, rfl⟩ | ⟨_, hLocked⟩
  · have hFailure : io.failure = none :=
      Option.isNone_iff_eq_none.mp hAppends
    have hCase := node.submit_cases cal codec call io
    rcases lines_of_submitCase hPosts hFailure hHonest.lines
        hCase with ⟨hLines, hState⟩
    refine ⟨hLines, ?_, ?_, ?_, ?_⟩
    · rw [hState]
      exact hHonest.shown
    · exact
        noClaims_of_submitCase hPosts hHonest.noClaims hCase
    · rw [hState]
      exact hHonest.exclusive
    · rw [hState]
      exact hHonest.current
  · exact honest_of_reopen hWrites hHonest hReopen
  · exact hHonest
  · rcases lines_and_shown_of_lockedStep hHonest.noClaims
        hAppends hDraws hHonest.lines hHonest.shown
        hLocked with ⟨hLines, hShown⟩
    rcases runEffect_of_lockedStep hHonest.noClaims
        hLocked with ⟨hEffect, hNext⟩
    exact
      { lines := hLines
        shown := hShown
        noClaims := hNext
        exclusive :=
          exclusive_of_runEffect hHonest.exclusive hEffect
        current :=
          current_of_runEffect hHonest.exclusive
            hHonest.current hEffect }

end Alpha

end Kron

------------------------------------------------------------
-- Main Result
------------------------------------------------------------

namespace Kron

namespace Alpha

variable {timerOf : RunId → TimerId}
variable {state : ClusterState}

/- What `status` shows is read from three fields. -/
theorem summaryFor_eq_some
    {id : TimerId}
    {summary : DistributedSummary}
    (hSummary : summaryFor state id = some summary) :
    ∃ spec,
      state.timers[id]? = some spec ∧
        summary.target = spec.target ∧
        summary.state =
          (state.states[id]?).getD .scheduled ∧
        summary.fencingToken = state.token id := by
  rcases Option.map_eq_some_iff.mp hSummary with
    ⟨spec, hSpec, rfl⟩
  exact ⟨spec, hSpec, rfl, rfl, rfl⟩

theorem token_of_held
    (hCurrent : WorkQueue.Current state.queue)
    {runId : RunId}
    {active : ActiveRun}
    (hGet : state.activeRuns[runId]? = some active) :
    active.fencingToken = state.token active.timerId := by
  have hToken :=
    hCurrent.held runId (heldTicket active)
      (queue_held_eq_some.mpr ⟨active, hGet, rfl⟩)
  exact UInt64.toNat_inj.mp hToken

/-
  Where a run id is drawn for one timer only, no claim is
  posted and every append succeeds: while `status` shows a
  timer with a task as running, there is one run of it that
  can be ended, by one worker, with the token shown.
-/
theorem running_is_held
    (cal : Calendar)
    (codec : JsonCodec CommandEntry)
    (hWrites : ∀ entry, codec.WritesLine entry)
    (timerOf : RunId → TimerId)
    (args : OpenArgs)
    (labels : List Section)
    (node : Node)
    (hPosts : ∀ label ∈ labels, label.postsClaim = false)
    (hAppends : ∀ label ∈ labels, label.appends = true)
    (hDraws :
      ∀ label ∈ labels, label.drawsFor timerOf = true)
    (hRun :
      Machine.run (Node.step cal codec) (Node.fresh args)
        labels = some node)
    (id : TimerId)
    (summary : DistributedSummary)
    (task : String)
    (payload : JsonValue)
    (hSummary : summaryFor node.state id = some summary)
    (hTarget : summary.target = .workerTask task payload)
    (hRunning : summary.state = .running) :
    ∃ runId workerId,
      (∃ active,
        node.state.owns runId workerId
            summary.fencingToken = some active ∧
          active.timerId = id) ∧
        ∀ runId' workerId' fencingToken active,
          node.state.owns runId' workerId' fencingToken =
              some active →
            active.timerId = id →
              runId' = runId ∧ workerId' = workerId ∧
                fencingToken = summary.fencingToken := by
  have hMeets :
      Machine.Meets (Node.step cal codec)
        (fun _ label =>
          label.postsClaim = false ∧ label.appends = true ∧
            label.drawsFor timerOf = true)
        (Node.fresh args) labels :=
    Machine.meets_of_forall _ _ fun label hMem _ =>
      ⟨hPosts label hMem, hAppends label hMem,
        hDraws label hMem⟩
  have hHonest : Honest codec timerOf node := by
    refine
      Machine.run_invariant (Honest codec timerOf) ?_
        (honest_fresh args) hMeets hRun
    rintro node label node' hHonest
      ⟨hPost, hAppend, hDraw⟩ hStep
    exact
      honest_of_step hWrites hPost hAppend hDraw hHonest hStep
  rcases summaryFor_eq_some hSummary with
    ⟨spec, hSpec, hSpecTarget, hState, hToken⟩
  rw [hSpecTarget] at hTarget
  rw [hRunning] at hState
  have hStates : node.state.states[id]? = some .running := by
    cases hGet : node.state.states[id]? with
    | none =>
        rw [hGet] at hState
        cases hState
    | some shown =>
        rw [hGet, Option.getD_some] at hState
        rw [hState]
  rcases hHonest.shown.running id spec task payload hSpec
      hTarget hStates with ⟨runId, active, hGet, rfl⟩
  have hActive := token_of_held hHonest.current hGet
  refine ⟨runId, active.workerId, ⟨active, ?_, rfl⟩, ?_⟩
  · unfold ClusterState.owns
    rw [hGet, hToken, ← hActive]
    simp [Option.filter]
  · intro runId' workerId' fencingToken other hOwns hTimer
    rcases Option.filter_eq_some_iff.mp hOwns with
      ⟨hOther, hOwner⟩
    rw [Bool.and_eq_true, beq_iff_eq, beq_iff_eq] at hOwner
    have hSame : runId' = runId :=
      hHonest.exclusive.held runId' runId (heldTicket other)
        (heldTicket active)
        (queue_held_eq_some.mpr ⟨other, hOther, rfl⟩)
        (queue_held_eq_some.mpr ⟨active, hGet, rfl⟩) hTimer
    subst hSame
    rw [hGet] at hOther
    cases hOther
    exact
      ⟨rfl, hOwner.1.symm,
        hOwner.2.symm.trans (hActive.trans hToken.symm)⟩

/- The retry of a run is shown with the token of `w2`. -/
theorem running_is_held_late :
    ∃ node summary runId workerId,
      Machine.run (Node.step utcCalendar emailCodec)
          (Node.fresh soloArgs) lateRun = some node ∧
        summaryFor node.state "email" = some summary ∧
        summary.fencingToken = 2 ∧
        (∃ active,
          node.state.owns runId workerId
              summary.fencingToken = some active ∧
            active.timerId = "email") ∧
          ∀ runId' workerId' fencingToken active,
            node.state.owns runId' workerId' fencingToken =
                some active →
              active.timerId = "email" →
                runId' = runId ∧ workerId' = workerId ∧
                  fencingToken = summary.fencingToken := by
  rcases exists_of_isSome (Node.fresh soloArgs) lateRun
      (by decide +kernel) with ⟨node, hRun⟩
  have hFields :
      ((Machine.run (Node.step utcCalendar emailCodec)
          (Node.fresh soloArgs) lateRun).bind fun node =>
        (summaryFor node.state "email").map fun summary =>
          (summary.state, summary.target,
            summary.fencingToken)) =
        some (.running, .workerTask "digest" "null", 2) := by
    decide +kernel
  rw [hRun, Option.bind_some] at hFields
  rcases Option.map_eq_some_iff.mp hFields with
    ⟨summary, hSummary, hShown⟩
  have hRunning := congrArg Prod.fst hShown
  have hTarget := congrArg (fun shown => shown.2.1) hShown
  have hToken := congrArg (fun shown => shown.2.2) hShown
  rcases running_is_held utcCalendar emailCodec
      emailCodec_writesLine (fun _ => "email") soloArgs
      lateRun node (by decide) (by decide) (by decide) hRun
      "email" summary "digest" "null" hSummary hTarget
      hRunning with ⟨runId, workerId, hHolds⟩
  exact
    ⟨node, summary, runId, workerId, hRun, hSummary, hToken,
      hHolds⟩

end Alpha

end Kron
