import Kron.Alpha.State

/-
  What a command log says of runs.

  A ledger keeps who holds which run, without the deadline
  of the lease, and the last token of each timer. A command
  changes the ledger of a state as the log says, whatever
  the rest of the state and the clocks.

  Key definitions include:
    * `Kron.RaftCommand.isClaim`
    * `Kron.RaftCommand.isRunCommand`
    * `Kron.Alpha.Ledger`
    * `Kron.Alpha.Ledger.apply`
    * `Kron.Alpha.ClusterState.ledger`

  Key theorems include:
    * `Kron.Alpha.owns_ledger`
    * `Kron.Alpha.ledger_applyCommand`
-/

------------------------------------------------------------
-- The Ledger Of A Log
------------------------------------------------------------

namespace Kron

namespace RaftCommand

/- Whether a command claims a run. -/
def isClaim : RaftCommand → Bool
| .claimRun _ _ _ _ _ _ => true
| _ => false

/- Whether a command claims or ends a run. -/
def isRunCommand : RaftCommand → Bool
| .claimRun _ _ _ _ _ _ => true
| .completeRun _ _ _ _ => true
| .failRun _ _ _ _ _ => true
| _ => false

theorem isClaim_eq_false
    {command : RaftCommand}
    (hOther : command.isRunCommand = false) :
    command.isClaim = false := by
  cases command with
  | claimRun => cases hOther
  | _ => rfl

end RaftCommand

namespace Alpha

/-
  What a log says of runs: who holds which, without the
  deadline of the lease, and the last token of each timer.
-/
@[ext]
structure Ledger where
  holders : BTreeMap RunId ActiveRun
  tokens : BTreeMap TimerId UInt64

/- A run without the deadline of its lease. -/
def withoutDeadline
    (active : ActiveRun) : ActiveRun :=
  { active with leaseDeadline := 0 }

namespace Ledger

def empty : Ledger where
  holders := ∅
  tokens := ∅

variable (ledger : Ledger)

def hasActive
    (timerId : TimerId) : Bool :=
  ledger.holders.vals.any fun run => run.timerId == timerId

def owns
    (runId : RunId)
    (workerId : String)
    (fencingToken : UInt64) : Option ActiveRun :=
  (ledger.holders[runId]?).filter fun active =>
    active.workerId == workerId &&
      active.fencingToken == fencingToken

/- The holder of a run, with its token. -/
def grant
    (active : ActiveRun) : Ledger where
  holders :=
    ledger.holders.insert active.runId
      (withoutDeadline active)
  tokens :=
    ledger.tokens.insert active.timerId active.fencingToken

def release
    (runId : RunId) : Ledger :=
  { ledger with holders := ledger.holders.erase runId }

/- Release a run that its holder ends. -/
def finish
    (runId : RunId)
    (workerId : String)
    (fencingToken : UInt64) : Ledger :=
  if (ledger.owns runId workerId fencingToken).isSome then
    ledger.release runId
  else
    ledger

/- What a command of the log says of runs. -/
def apply : RaftCommand → Ledger
| .claimRun timerId runId workerId fencingToken attempt
    leaseDeadline =>
    if ledger.hasActive timerId then
      ledger
    else
      ledger.grant
        { timerId := timerId
          runId := runId
          workerId := workerId
          fencingToken := fencingToken
          attempt := attempt
          leaseDeadline := leaseDeadline }
| .completeRun runId workerId fencingToken _ =>
    ledger.finish runId workerId fencingToken
| .failRun runId workerId fencingToken _ _ =>
    ledger.finish runId workerId fencingToken
| _ => ledger

theorem apply_of_not_isRunCommand
    {command : RaftCommand}
    (hOther : command.isRunCommand = false) :
    ledger.apply command = ledger := by
  cases command with
  | claimRun => cases hOther
  | completeRun => cases hOther
  | failRun => cases hOther
  | _ => rfl

end Ledger

def ClusterState.ledger
    (state : ClusterState) : Ledger where
  holders :=
    state.activeRuns.map fun _ active =>
      withoutDeadline active
  tokens := state.fencing

variable {cal : Calendar}
variable {state state' : ClusterState}

theorem get_holders
    (state : ClusterState)
    (runId : RunId) :
    state.ledger.holders[runId]? =
      (state.activeRuns[runId]?).map withoutDeadline :=
  Std.ExtTreeMap.getElem?_map

theorem hasActive_ledger
    (state : ClusterState)
    (timerId : TimerId) :
    state.ledger.hasActive timerId =
      state.hasActive timerId := by
  rw [Bool.eq_iff_iff]
  unfold Ledger.hasActive ClusterState.hasActive
  simp only [List.any_eq_true, BTreeMap.mem_vals_iff,
    get_holders, Option.map_eq_some_iff, beq_iff_eq]
  constructor
  · rintro ⟨_, ⟨runId, active, hGet, rfl⟩, hTimer⟩
    exact ⟨active, ⟨runId, hGet⟩, hTimer⟩
  · rintro ⟨active, ⟨runId, hGet⟩, hTimer⟩
    exact ⟨_, ⟨runId, active, hGet, rfl⟩, hTimer⟩

theorem owns_ledger
    (state : ClusterState)
    (runId : RunId)
    (workerId : String)
    (fencingToken : UInt64) :
    state.ledger.owns runId workerId fencingToken =
      (state.owns runId workerId fencingToken).map
        withoutDeadline := by
  unfold Ledger.owns ClusterState.owns
  rw [get_holders]
  cases state.activeRuns[runId]? with
  | none => rfl
  | some active =>
      simp only [Option.map_some, Option.filter,
        withoutDeadline]
      split
      · rfl
      · rfl

theorem ledger_removeActive
    (state : ClusterState)
    (runId : RunId) :
    (state.removeActive runId).ledger =
      state.ledger.release runId := by
  have hHolders :
      (state.removeActive runId).ledger.holders =
        (state.ledger.release runId).holders := by
    apply BTreeMap.ext_get
    intro i
    unfold Ledger.release
    rw [BTreeMap.get_erase, get_holders, get_holders]
    unfold ClusterState.removeActive
    rw [BTreeMap.get_erase]
    split
    · rfl
    · rfl
  exact Ledger.ext hHolders rfl

/- A claim grants a run in the ledger. -/
theorem ledger_startActive
    (state : ClusterState)
    (active : ActiveRun) :
    (state.startActive active).ledger.holders =
      state.ledger.holders.insert active.runId
        (withoutDeadline active) := by
  apply BTreeMap.ext_get
  intro i
  rw [BTreeMap.get_insert, get_holders, get_holders]
  unfold ClusterState.startActive ClusterState.setState
    ClusterState.pushHistory
  rw [BTreeMap.get_insert]
  split
  · rfl
  · rfl

theorem ledger_rescheduleTimer
    {timerId : TimerId}
    {now : DateTime}
    (hApply :
      rescheduleTimer cal state timerId now =
        some state') :
    state'.pending = state.pending ∧
      state'.ledger = state.ledger := by
  rw [rescheduleTimer_eq_some hApply]
  exact ⟨rfl, rfl⟩

/- A command leaves the queue, and does to runs what it says. -/
theorem ledger_applyCommand
    {command : RaftCommand}
    {clock : Readings}
    (hApply :
      applyCommand cal state command clock =
        some (.ok state')) :
    state'.pending = state.pending ∧
      state'.ledger = state.ledger.apply command := by
  cases command with
  | createTimer spec nextRunAt =>
      rw [applyCreateTimer_eq_ok hApply]
      exact ⟨rfl, rfl⟩
  | updateTimer spec nextRunAt =>
      rw [applyCreateTimer_eq_ok hApply]
      exact ⟨rfl, rfl⟩
  | cancelTimer timerId =>
      cases hApply
      exact ⟨rfl, rfl⟩
  | pauseTimer timerId =>
      cases hApply
      exact ⟨rfl, rfl⟩
  | resumeTimer timerId nextRunAt =>
      rcases Option.map_eq_some_iff.mp hApply with
        ⟨next, hNext, hEq⟩
      cases hEq
      rcases ledger_rescheduleTimer hNext with
        ⟨hPending, hLedger⟩
      exact ⟨hPending, hLedger⟩
  | claimRun timerId runId workerId fencingToken attempt
      leaseDeadline =>
      simp only [applyCommand] at hApply
      simp only [Ledger.apply, hasActive_ledger]
      split at hApply
      · rename_i hActive
        cases hApply
        rw [if_pos hActive]
        exact ⟨rfl, rfl⟩
      · rename_i hActive
        cases hApply
        rw [if_neg hActive]
        exact
          ⟨rfl, Ledger.ext (ledger_startActive state _) rfl⟩
  | completeRun runId workerId fencingToken completedAt =>
      simp only [applyCommand] at hApply
      simp only [Ledger.apply, Ledger.finish, owns_ledger,
        Option.isSome_map]
      split at hApply
      · rename_i hOwns
        cases hApply
        rw [hOwns, if_neg (by simp)]
        exact ⟨rfl, rfl⟩
      · rename_i active hOwns
        rcases Option.map_eq_some_iff.mp hApply with
          ⟨next, hNext, hEq⟩
        cases hEq
        rw [hOwns, if_pos (by simp),
          ← ledger_removeActive]
        exact ledger_rescheduleTimer hNext
  | failRun runId workerId fencingToken error failedAt =>
      simp only [applyCommand] at hApply
      simp only [Ledger.apply, Ledger.finish, owns_ledger,
        Option.isSome_map]
      split at hApply
      · rename_i hOwns
        cases hApply
        rw [hOwns, if_neg (by simp)]
        exact ⟨rfl, rfl⟩
      · rename_i active hOwns
        cases hApply
        rw [hOwns, if_pos (by simp),
          ← ledger_removeActive]
        exact ⟨rfl, rfl⟩
  | expireRunLease runId replacement expiredAt =>
      cases hApply
      exact ⟨rfl, rfl⟩
  | heartbeatWorker workerId leaseUntil =>
      simp only [applyCommand] at hApply
      split at hApply
      · cases hApply
        exact ⟨rfl, rfl⟩
      · rcases Option.map_eq_some_iff.mp hApply with
          ⟨next, _, hEq⟩
        cases hEq
        exact ⟨rfl, rfl⟩
  | registerWorker workerId tasks leaseUntil =>
      rcases Option.map_eq_some_iff.mp hApply with
        ⟨next, _, hEq⟩
      cases hEq
      exact ⟨rfl, rfl⟩
  | unregisterWorker workerId =>
      cases hApply
      exact ⟨rfl, rfl⟩
  | addNode node =>
      simp only [applyCommand] at hApply
      split at hApply
      · cases hApply
        exact ⟨rfl, rfl⟩
      · cases hApply
        exact ⟨rfl, rfl⟩
  | removeNode nodeId =>
      cases hApply
      exact ⟨rfl, rfl⟩

end Alpha

end Kron
