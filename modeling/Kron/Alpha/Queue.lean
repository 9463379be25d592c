import Kron.Lib.WorkQueue
import Kron.Alpha.Engine
import Kron.Alpha.Ledger

/-
  The runs of a node as a work queue: a timer is a resource,
  and a run is a ticket with the token of its timer.

  Key definitions include:
    * `Kron.Alpha.ClusterState.queue`
    * `Kron.Alpha.QueueEffect`
    * `Kron.Alpha.nextToken`
    * `Kron.Alpha.RunEffect`

  Key theorems include:
    * `Kron.Alpha.queue_applyCommand`
    * `Kron.Alpha.restored_of_openWithLeader`
    * `Kron.Alpha.steps_enqueueDueRuns`
    * `Kron.Alpha.steps_expireWorkers`
    * `Kron.Alpha.runEffect_of_claimCase`
-/

------------------------------------------------------------
-- The Queue Of A State
------------------------------------------------------------

namespace Kron

namespace Alpha

open WorkQueue

def ticketOf
    (run : WorkerRun) : Ticket TimerId RunId where
  resource := run.timer
  id := run.runId
  token := run.fencingToken.toNat

def heldTicket
    (active : ActiveRun) : Ticket TimerId RunId where
  resource := active.timerId
  id := active.runId
  token := active.fencingToken.toNat

/- What waits and what is held, with the last tokens. -/
def ClusterState.queue
    (state : ClusterState) : Queue TimerId RunId where
  queued := state.pending.map ticketOf
  held := fun runId =>
    (state.activeRuns[runId]?).map heldTicket
  token := fun timerId => (state.token timerId).toNat

variable {state state' : ClusterState}

theorem queue_held_eq_some
    {runId : RunId}
    {t : Ticket TimerId RunId} :
    state.queue.held runId = some t ↔
      ∃ active,
        state.activeRuns[runId]? = some active ∧
          heldTicket active = t :=
  Option.map_eq_some_iff

/- No active run belongs to the timer. -/
theorem hasActive_eq_false_iff
    (timerId : TimerId) :
    state.hasActive timerId = false ↔
      state.queue.NotHeld timerId := by
  unfold ClusterState.hasActive
  rw [List.any_eq_false]
  constructor
  · intro hNone runId t hHeld
    rcases queue_held_eq_some.mp hHeld with
      ⟨active, hGet, rfl⟩
    have hNot :=
      hNone active
        ((BTreeMap.mem_vals_iff _ _).mpr ⟨runId, hGet⟩)
    simpa [heldTicket] using hNot
  · intro hNot active hMem
    rcases (BTreeMap.mem_vals_iff _ _).mp hMem with
      ⟨runId, hGet⟩
    have hNe :=
      hNot runId (heldTicket active)
        (queue_held_eq_some.mpr ⟨active, hGet, rfl⟩)
    simpa [heldTicket] using hNe

/- A timer that is not busy has no ticket. -/
theorem isBusy_eq_false_iff
    (timerId : TimerId) :
    state.isBusy timerId = false ↔
      state.queue.NotQueued timerId ∧
        state.queue.NotHeld timerId := by
  unfold ClusterState.isBusy
  rw [Bool.or_eq_false_iff, hasActive_eq_false_iff,
    List.any_eq_false]
  apply and_congr_left
  intro _
  unfold Queue.NotQueued ClusterState.queue
  simp only [List.mem_map, forall_exists_index, and_imp,
    forall_apply_eq_imp_iff₂, ticketOf, beq_iff_eq, ne_eq]

theorem queue_removeActive
    (state : ClusterState)
    (runId : RunId) :
    (state.removeActive runId).queue =
      state.queue.release runId := by
  have hHeld :
      (state.removeActive runId).queue.held =
        (state.queue.release runId).held := by
    funext i
    simp only [ClusterState.queue, ClusterState.removeActive,
      Queue.release, BTreeMap.get_erase, Function.update]
    by_cases hEq : i = runId
    · simp [hEq]
    · simp [hEq, Ne.symm hEq]
  exact Queue.ext rfl hHeld rfl

theorem toNat_token_setToken
    (state : ClusterState)
    (timerId : TimerId)
    (fencingToken : UInt64) :
    (fun r => ((state.setToken timerId fencingToken).token
        r).toNat) =
      Function.update
        (fun r => (state.token r).toNat) timerId
        fencingToken.toNat := by
  funext r
  unfold ClusterState.setToken ClusterState.token
  rw [BTreeMap.get_insert, Function.update_apply]
  by_cases hEq : r = timerId
  · simp [hEq]
  · simp [hEq, Ne.symm hEq]

/- Queueing a run queues its ticket. -/
theorem queue_queueRun
    (state : ClusterState)
    (run : WorkerRun) :
    (state.queueRun run).queue =
      state.queue.enqueue (ticketOf run) := by
  have hToken :=
    toNat_token_setToken state run.timer run.fencingToken
  have hQueued :
      (state.pending ++ [run]).map ticketOf =
        state.pending.map ticketOf ++ [ticketOf run] := by
    simp
  exact Queue.ext hQueued rfl hToken

theorem held_startActive
    (state : ClusterState)
    (active : ActiveRun) :
    (state.startActive active).queue.held =
      Function.update state.queue.held active.runId
        (some (heldTicket active)) := by
  funext i
  simp only [ClusterState.queue, ClusterState.startActive,
    ClusterState.setState, ClusterState.pushHistory,
    BTreeMap.get_insert, Function.update_apply]
  by_cases hEq : i = active.runId
  · simp [hEq]
  · simp [hEq, Ne.symm hEq]

end Alpha

end Kron

------------------------------------------------------------
-- Commands As Changes Of The Queue
------------------------------------------------------------

namespace Kron

namespace Alpha

open WorkQueue

variable {cal : Calendar}
variable {state state' : ClusterState}

/- The queue of a ledger, with the runs that wait. -/
def Ledger.queue
    (ledger : Ledger)
    (pending : List WorkerRun) : Queue TimerId RunId where
  queued := pending.map ticketOf
  held := fun runId =>
    (ledger.holders[runId]?).map heldTicket
  token := fun timerId =>
    ((ledger.tokens[timerId]?).getD 0).toNat

/- The queue of a state reads its ledger. -/
theorem queue_ledger
    (state : ClusterState) :
    state.queue = state.ledger.queue state.pending := by
  refine Queue.ext rfl ?_ rfl
  funext runId
  show _ = (state.ledger.holders[runId]?).map heldTicket
  rw [get_holders, Option.map_map]
  rfl

/- What a command may do to the queue. -/
inductive QueueEffect
    (command : RaftCommand)
    (q q' : Queue TimerId RunId) : Prop where
| same (hEq : q' = q)
| ended (runId : RunId)
    (hRun : command.isRunCommand = true)
    (hEq : q' = q.release runId)
| restored (t : Ticket TimerId RunId)
    (hClaim : command.isClaim = true)
    (hNotHeld : q.NotHeld t.resource)
    (hEq : q' = q.restore t)

theorem queue_release
    (ledger : Ledger)
    (pending : List WorkerRun)
    (runId : RunId) :
    (ledger.release runId).queue pending =
      (ledger.queue pending).release runId := by
  refine Queue.ext rfl ?_ rfl
  funext i
  simp only [Ledger.queue, Ledger.release, Queue.release,
    BTreeMap.get_erase, Function.update_apply]
  by_cases hEq : i = runId
  · simp [hEq]
  · simp [hEq, Ne.symm hEq]

theorem queue_grant
    (ledger : Ledger)
    (pending : List WorkerRun)
    (active : ActiveRun) :
    (ledger.grant active).queue pending =
      (ledger.queue pending).restore (heldTicket active) := by
  refine Queue.ext rfl ?_ ?_
  · funext i
    simp only [Ledger.queue, Ledger.grant, Queue.restore,
      BTreeMap.get_insert, Function.update_apply]
    by_cases hEq : i = active.runId
    · simp [hEq, withoutDeadline, heldTicket]
    · simp [hEq, Ne.symm hEq, heldTicket]
  · funext r
    simp only [Ledger.queue, Ledger.grant, Queue.restore,
      BTreeMap.get_insert, Function.update_apply, heldTicket]
    by_cases hEq : r = active.timerId
    · simp [hEq]
    · simp [hEq, Ne.symm hEq]

theorem notHeld_of_hasActive
    {ledger : Ledger}
    (pending : List WorkerRun)
    {timerId : TimerId}
    (hActive : ledger.hasActive timerId = false) :
    (ledger.queue pending).NotHeld timerId := by
  intro runId t hHeld
  rcases Option.map_eq_some_iff.mp hHeld with
    ⟨active, hGet, rfl⟩
  have hNot :=
    List.any_eq_false.mp hActive active
      ((BTreeMap.mem_vals_iff _ _).mpr ⟨runId, hGet⟩)
  simpa [heldTicket] using hNot

/- Every command keeps, ends or restores one run. -/
theorem queueEffect_apply
    (ledger : Ledger)
    (pending : List WorkerRun)
    (command : RaftCommand) :
    QueueEffect command (ledger.queue pending)
      ((ledger.apply command).queue pending) := by
  have hFinish :
      ∀ runId workerId fencingToken,
        command.isRunCommand = true →
          QueueEffect command (ledger.queue pending)
            ((ledger.finish runId workerId
              fencingToken).queue pending) := by
    intro runId workerId fencingToken hRun
    unfold Ledger.finish
    split
    · exact
        .ended runId hRun (queue_release ledger pending runId)
    · exact .same rfl
  cases command with
  | claimRun timerId runId workerId fencingToken attempt
      leaseDeadline =>
      simp only [Ledger.apply]
      split
      · exact .same rfl
      · rename_i hActive
        rw [Bool.not_eq_true] at hActive
        exact
          .restored _ rfl
            (notHeld_of_hasActive pending hActive)
            (queue_grant ledger pending _)
  | completeRun runId workerId fencingToken completedAt =>
      exact hFinish runId workerId fencingToken rfl
  | failRun runId workerId fencingToken error failedAt =>
      exact hFinish runId workerId fencingToken rfl
  | _ => exact .same rfl

theorem queue_rescheduleTimer
    {timerId : TimerId}
    {now : DateTime}
    (hApply :
      rescheduleTimer cal state timerId now =
        some state') :
    state'.queue = state.queue := by
  rcases ledger_rescheduleTimer hApply with
    ⟨hPending, hLedger⟩
  rw [queue_ledger state, queue_ledger state', hPending,
    hLedger]

theorem queue_setState
    (timerId : TimerId)
    (timerState : TimerState) :
    (state.setState timerId timerState).queue =
      state.queue := rfl

theorem queue_pushHistory
    (entry : HistoryEntry) :
    (state.pushHistory entry).queue = state.queue := rfl

theorem queue_applyCommand
    {command : RaftCommand}
    {clock : Readings}
    (hApply :
      applyCommand cal state command clock =
        some (.ok state')) :
    QueueEffect command state.queue state'.queue := by
  rcases ledger_applyCommand hApply with
    ⟨hPending, hLedger⟩
  rw [queue_ledger state, queue_ledger state', hPending,
    hLedger]
  exact queueEffect_apply _ _ _

/- Applying commands keeps a restored queue restored. -/
theorem restored_applyCommand
    {command : RaftCommand}
    {clock : Readings}
    (hRestored : Restored state.queue)
    (hApply :
      applyCommand cal state command clock =
        some (.ok state')) :
    Restored state'.queue := by
  cases queue_applyCommand hApply with
  | same hEq =>
      rw [hEq]
      exact hRestored
  | ended runId hRun hEq =>
      rw [hEq]
      exact hRestored.release runId
  | restored t hClaim hNotHeld hEq =>
      rw [hEq]
      exact hRestored.restore hNotHeld

theorem restored_new
    (config : ClusterConfig) :
    Restored (ClusterState.new config).queue := by
  have hEq :
      (ClusterState.new config).queue = Queue.empty := by
    refine Queue.ext rfl ?_ ?_
    · funext runId
      simp [ClusterState.queue, ClusterState.new, Queue.empty]
    · funext timerId
      simp [ClusterState.queue, ClusterState.new,
        Queue.empty, ClusterState.token]
  rw [hEq]
  exact restored_empty

theorem restored_replayLines
    {codec : JsonCodec CommandEntry}
    {clock : Nat → Readings}
    {n : Nat}
    {lines : List Bytes}
    (hRestored : Restored state.queue)
    (hReplay :
      replayLines cal codec clock n lines state =
        some (.ok state')) :
    Restored state'.queue := by
  induction lines generalizing n state with
  | nil =>
      cases hReplay
      exact hRestored
  | cons line rest ih =>
      simp only [replayLines] at hReplay
      split at hReplay
      · cases hReplay
      · split at hReplay
        · exact ih hRestored hReplay
        · split at hReplay
          · cases hReplay
          · split at hReplay
            · cases hReplay
            · cases hReplay
            · rename_i hApply
              exact
                ih (restored_applyCommand hRestored hApply)
                  hReplay

/- Whatever a log holds, opening restores one run a timer. -/
theorem restored_of_openWithLeader
    {codec : JsonCodec CommandEntry}
    {args : OpenArgs}
    {clock : Nat → Readings}
    {file : Option Bytes}
    {opened : ClusterState × Bytes}
    (hOpen :
      openWithLeader cal codec args clock file =
        some (.ok opened)) :
    Restored opened.1.queue := by
  rcases Option.map_eq_some_iff.mp hOpen with
    ⟨result, hReplay, hEq⟩
  cases result with
  | error e => cases hEq
  | ok state =>
      cases hEq
      exact
        restored_replayLines (restored_new args.config)
          hReplay

end Alpha

end Kron

------------------------------------------------------------
-- The Scheduler As Changes Of The Queue
------------------------------------------------------------

namespace Kron

namespace Alpha

open WorkQueue

/- The token after a token, as a `u64`. -/
def nextToken
    (k : Nat) : Nat :=
  (k + 1) % 2 ^ 64

variable {cal : Calendar}
variable {state state' : ClusterState}
variable {q : Queue TimerId RunId}

theorem steps_enqueueRun
    (hSteps : Steps nextToken q state.queue)
    (id : TimerId)
    (runId : RunId) :
    Steps nextToken q
      (state.enqueueRun cal id runId).queue := by
  unfold ClusterState.enqueueRun
  split
  · exact hSteps
  · rename_i hBusy
    rw [Bool.not_eq_true, isBusy_eq_false_iff] at hBusy
    split
    · exact hSteps
    · split
      · rw [queue_setState, queue_queueRun]
        apply hSteps.tail
        exact
          .offer _ hBusy.1 hBusy.2 (UInt64.toNat_add _ _)
      · exact hSteps

theorem steps_enqueueDueRuns
    {now : DateTime}
    {order : List (TimerId × RunId)}
    (hEnqueue :
      state.enqueueDueRuns cal now order = some state') :
    Steps nextToken state.queue state'.queue := by
  have hFold :
      ∀ (dues : List (TimerId × RunId))
        (current : ClusterState),
        Steps nextToken state.queue current.queue →
          Steps nextToken state.queue
            (dues.foldl
              (fun state due =>
                state.enqueueRun cal due.1 due.2)
              current).queue := by
    intro dues
    induction dues with
    | nil => exact fun _ h => h
    | cons due dues ih =>
        intro current hCurrent
        exact ih _ (steps_enqueueRun hCurrent due.1 due.2)
  unfold ClusterState.enqueueDueRuns at hEnqueue
  split at hEnqueue
  · split at hEnqueue
    · cases hEnqueue
      exact hFold order state .refl
    · cases hEnqueue
  · cases hEnqueue
    exact .refl

/- An expiry forgets a run or queues its retry. -/
theorem steps_expireRun
    (hSteps : Steps nextToken q state.queue)
    (runId : RunId) :
    Steps nextToken q (state.expireRun cal runId).queue := by
  unfold ClusterState.expireRun
  split
  · exact hSteps
  · rename_i active hGet
    have hRemoved := hSteps.tail (.finish runId)
    rw [← queue_removeActive] at hRemoved
    simp only
    split
    · exact hRemoved
    · split
      · exact hRemoved
      · split
        · rw [queue_setState, queue_queueRun,
            queue_pushHistory, queue_removeActive]
          apply hSteps.tail
          exact
            .retry _ (heldTicket active) runId
              (queue_held_eq_some.mpr ⟨active, hGet, rfl⟩)
              rfl (UInt64.toNat_add _ _)
        · exact hRemoved

theorem queue_foldl_loseWorker
    (lost : List String)
    (state : ClusterState) :
    (lost.foldl ClusterState.loseWorker state).queue =
      state.queue := by
  induction lost generalizing state with
  | nil => rfl
  | cons workerId lost ih =>
      rw [List.foldl_cons, ih]
      rfl

theorem steps_expireWorkers
    {clock : Readings}
    {lost : List String}
    {expired : List RunId}
    (hExpire :
      state.expireWorkers cal clock lost expired =
        some state') :
    Steps nextToken state.queue state'.queue := by
  have hFold :
      ∀ (runIds : List RunId) (current : ClusterState),
        Steps nextToken state.queue current.queue →
          Steps nextToken state.queue
            (runIds.foldl (ClusterState.expireRun cal)
              current).queue := by
    intro runIds
    induction runIds with
    | nil => exact fun _ h => h
    | cons runId runIds ih =>
        intro current hCurrent
        exact ih _ (steps_expireRun hCurrent runId)
  unfold ClusterState.expireWorkers at hExpire
  split at hExpire
  · simp only at hExpire
    split at hExpire
    · cases hExpire
      apply hFold
      rw [queue_foldl_loseWorker]
      exact .refl
    · cases hExpire
  · cases hExpire

end Alpha

end Kron

------------------------------------------------------------
-- Sections As Changes Of The Queue
------------------------------------------------------------

namespace Kron

namespace Alpha

open WorkQueue

variable {cal : Calendar}
variable {codec : JsonCodec CommandEntry}
variable {node node' : Node}

def Handout.ticket
    (handout : Handout) : Ticket TimerId RunId :=
  ticketOf handout.run

/- What a section does to the runs. -/
inductive RunEffect
    (node node' : Node) : Prop where
| quiet
    (hHandouts : node'.handouts = node.handouts)
    (hSteps :
      Steps nextToken node.state.queue node'.state.queue)
| gave (handout : Handout)
    (hHandouts :
      node'.handouts = node.handouts ++ [handout])
    (hStep :
      Step nextToken node.state.queue [handout.ticket]
        node'.state.queue)

theorem RunEffect.same
    (hHandouts : node'.handouts = node.handouts)
    (hQueue : node'.state.queue = node.state.queue) :
    RunEffect node node' := by
  refine .quiet hHandouts ?_
  rw [hQueue]
  exact .refl

theorem RunEffect.finish
    (runId : RunId)
    (hHandouts : node'.handouts = node.handouts)
    (hQueue :
      node'.state.queue = node.state.queue.release runId) :
    RunEffect node node' := by
  refine .quiet hHandouts ?_
  rw [hQueue]
  exact Relation.ReflTransGen.single (.finish runId)

/- A settled section does what its new state does. -/
theorem runEffect_settle
    {appended : Node}
    {result : Option (Except KronError ClusterState)}
    (hHandouts : appended.handouts = node.handouts)
    (hState : appended.state = node.state)
    (hResult :
      ∀ state, result = some (.ok state) →
        Steps nextToken node.state.queue state.queue) :
    RunEffect node (appended.settle result).1 := by
  unfold Node.settle
  split
  · exact .same hHandouts (congrArg _ hState)
  · exact .same hHandouts (congrArg _ hState)
  · exact .quiet hHandouts (hResult _ rfl)

/- The first run that a worker takes leaves the queue. -/
theorem pending_eq_of_find?
    {runs : List WorkerRun}
    {p : WorkerRun → Bool}
    {run : WorkerRun}
    (hFind : runs.find? p = some run) :
    ∃ before after,
      runs = before ++ run :: after ∧
        runs.eraseP p = before ++ after := by
  rcases List.find?_eq_some_iff_append.mp hFind with
    ⟨hTakes, before, after, hSplit, hBefore⟩
  refine ⟨before, after, hSplit, ?_⟩
  have hNone : ∀ b ∈ before, ¬ p b = true := by
    intro b hMem
    simpa using hBefore b hMem
  rw [hSplit, List.eraseP_append_right _ hNone,
    List.eraseP_cons_of_pos hTakes]

theorem step_claimed
    {workerId : String}
    {tasks : List String}
    {run : WorkerRun}
    (hFind :
      node.state.pending.find?
        (takes node.state workerId tasks) = some run)
    (held : DateTime) :
    Step nextToken node.state.queue [ticketOf run]
      (node.claimed workerId tasks run held).queue := by
  rcases pending_eq_of_find? hFind with
    ⟨before, after, hSplit, hRest⟩
  have hQueued :
      node.state.queue.queued =
        before.map ticketOf ++
          ticketOf run :: after.map ticketOf := by
    show node.state.pending.map ticketOf = _
    rw [hSplit, List.map_append, List.map_cons]
  have hGive :
      (node.claimed workerId tasks run held).queue =
        node.state.queue.give
          (before.map ticketOf ++ after.map ticketOf)
          (ticketOf run) := by
    refine Queue.ext ?_ (held_startActive _ _) rfl
    show (node.state.pending.eraseP _).map ticketOf = _
    rw [hRest, List.map_append]
    rfl
  rw [hGive]
  exact .give _ _ _ hQueued

/- Only a posted command is about runs. -/
theorem posted_or_other
    {call : Submission}
    {command : RaftCommand}
    (hCommand : call.command cal = some (.ok command)) :
    call = .posted command ∨ command.isRunCommand = false := by
  cases call with
  | create request registeredAt createdAt =>
      right
      simp only [Submission.command, createTimer] at hCommand
      split at hCommand
      · cases hCommand
      · split at hCommand
        · cases hCommand
        · rcases Option.map_eq_some_iff.mp hCommand with
            ⟨result, _, hEq⟩
          cases result with
          | error e => cases hEq
          | ok next =>
              cases hEq
              rfl
  | register request now =>
      right
      simp only [Submission.command, registerWorker,
        Option.map_map] at hCommand
      rcases Option.map_eq_some_iff.mp hCommand with
        ⟨leaseUntil, _, hEq⟩
      cases hEq
      rfl
  | join node =>
      cases hCommand
      exact Or.inr rfl
  | leave nodeId =>
      cases hCommand
      exact Or.inr rfl
  | posted command =>
      cases hCommand
      exact Or.inl rfl

/- What applies a command that claims nothing. -/
theorem steps_applySubmission
    {state state' : ClusterState}
    {call : Submission}
    {command : RaftCommand}
    {clock : Readings}
    (hClaim : command.isClaim = false)
    (hApply :
      applySubmission cal state call command clock =
        some (.ok state')) :
    Steps nextToken state.queue state'.queue := by
  have hCommand :
      applyCommand cal state command clock =
          some (.ok state') →
        Steps nextToken state.queue state'.queue := by
    intro hOk
    cases queue_applyCommand hOk with
    | same hEq =>
        rw [hEq]
        exact .refl
    | ended runId hRun hEq =>
        rw [hEq]
        exact Relation.ReflTransGen.single (.finish runId)
    | restored t hRestores =>
        rw [hClaim] at hRestores
        cases hRestores
  cases call with
  | register request now =>
      rcases Option.map_eq_some_iff.mp hApply with
        ⟨leaseUntil, _, hEq⟩
      cases hEq
      exact .refl
  | create request registeredAt createdAt =>
      exact hCommand hApply
  | join node => exact hCommand hApply
  | leave nodeId => exact hCommand hApply
  | posted posted => exact hCommand hApply

theorem runEffect_of_claimCase
    {workerId : String}
    {tasks : List String}
    {io : AppendIo}
    {now later : DateTime}
    (hCase :
      node.ClaimCase codec workerId tasks io now later
        node') :
    RunEffect node node' := by
  cases hCase with
  | idle => exact .same rfl rfl
  | panicked => exact .same rfl rfl
  | failed run logged failure => exact .same rfl rfl
  | lost run logged => exact .same rfl rfl
  | gave run logged held hFind hFailure =>
      exact
        .gave ⟨workerId, run⟩ rfl (step_claimed hFind held)

theorem queue_completed
    {state : ClusterState}
    {runId : RunId}
    {active : ActiveRun}
    {now : DateTime}
    (hApply :
      rescheduleTimer cal (node.completed runId active)
        active.timerId now = some state) :
    state.queue = node.state.queue.release runId := by
  rw [queue_rescheduleTimer hApply]
  exact queue_removeActive node.state runId

theorem runEffect_of_completeCase
    {runId : RunId}
    {request : RunCompleteRequest}
    {io : AppendIo}
    {completedAt now : DateTime}
    (hCase :
      node.CompleteCase cal codec runId request io
        completedAt now node') :
    RunEffect node node' := by
  cases hCase with
  | refused => exact .same rfl rfl
  | failed active failure => exact .same rfl rfl
  | ended active hOwns hFailure =>
      refine runEffect_settle rfl rfl ?_
      intro state hState
      rcases Option.map_eq_some_iff.mp hState with
        ⟨next, hNext, hEq⟩
      cases hEq
      rw [queue_completed hNext]
      exact Relation.ReflTransGen.single (.finish runId)

theorem runEffect_of_failCase
    {runId : RunId}
    {request : RunFailRequest}
    {io : AppendIo}
    {failedAt : DateTime}
    (hCase :
      node.FailCase codec runId request io failedAt node') :
    RunEffect node node' := by
  cases hCase with
  | refused => exact .same rfl rfl
  | failed active failure => exact .same rfl rfl
  | ended active hOwns hFailure =>
      exact
        .finish runId rfl (queue_removeActive node.state runId)

theorem runEffect_of_heartbeatCase
    {workerId : String}
    {instant : Instant}
    (hCase : node.HeartbeatCase workerId instant node') :
    RunEffect node node' := by
  cases hCase with
  | ignored => exact .same rfl rfl
  | renewed worker =>
      refine runEffect_settle rfl rfl ?_
      intro state hState
      rcases Option.map_eq_some_iff.mp hState with
        ⟨leaseUntil, _, hEq⟩
      cases hEq
      exact .refl

theorem runEffect_of_submitCase
    {call : Submission}
    {io : AppendIo}
    (hCase : node.SubmitCase cal codec call io node') :
    RunEffect node node' := by
  cases hCase with
  | refused => exact .same rfl rfl
  | failed command failure => exact .same rfl rfl
  | appended command => exact .same rfl rfl

end Alpha

end Kron
