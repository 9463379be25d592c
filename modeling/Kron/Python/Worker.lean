import Kron.Server.Cluster

/-
  Workers in Python, and the cluster that they work for.

  A worker registers, polls, calls the function of the task
  that it is given and reports how the call ended. It may
  give up at any point, and the cluster goes on meanwhile.
  Where nobody else reports the end of a run and no run id is
  drawn twice, the history of the cluster says the truth
  about the calls, and no run is called twice.

  The texts of requests and responses are left out, and so
  are redirects: a request reaches the leader, or the worker
  gives up.

  Key definitions include:
    * `Kron.PyWorker`
    * `Kron.TaskCall`
    * `Kron.Fleet`
    * `Kron.Fleet.step`
    * `Kron.Fleet.Backed`
    * `Kron.Fleet.Told`
    * `Kron.Fleet.Honest`

  Key theorems include:
    * `Kron.Fleet.told_apply`
    * `Kron.Fleet.honest_step`
    * `Kron.Fleet.history_tells_of_calls`
-/

------------------------------------------------------------
-- Workers
------------------------------------------------------------

namespace Kron

/-
  How far `run_once` has come. A poll is answered in rounds;
  a round that has claimed a run checks that it owns it.
-/
inductive WorkerPhase where
| idle
| registered
| polling (request : WorkerPollRequest)
| claiming (request : WorkerPollRequest) (pick : Pick)
| holding (run : WorkerRun)
| finished (run : WorkerRun) (failure : Option String)

/- A worker, with the names of the tasks it has functions for. -/
structure PyWorker where
  workerId : String
  tasks : List String
  phase : WorkerPhase

/- A call of a task function, and the exception it raised. -/
structure TaskCall where
  workerId : String
  run : WorkerRun
  failure : Option String

/- A call was made of the run of a record, by its worker. -/
def TaskCall.IsOf
    (call : TaskCall)
    (record : RunRecord) : Prop :=
  call.workerId = record.workerId ∧
    call.run.timer = record.timer ∧
      call.run.runId = record.runId ∧
        call.run.fencingToken = record.fencingToken

/- The cluster, its workers, and the calls that were made. -/
structure Fleet where
  cluster : Cluster
  workers : Nat → PyWorker
  calls : List TaskCall

/-
  A step of the cluster, or of worker `w`. The number of
  seconds is the lease of the node that takes the request.
-/
inductive FleetLabel where
| cluster (label : ClusterLabel)
| task (w : Nat) (name : String)
| register (w : Nat) (now : DateTime) (lease : UInt64)
| poll (w : Nat)
| round (w : Nat) (tenantId : Option String)
    (now : DateTime) (runId : RunId)
    (claimedAt : DateTime) (lease : UInt64)
| recheck (w : Nat)
| execute (w : Nat) (failure : Option String)
| report (w : Nat) (tenantId : Option String)
    (now : DateTime)
| giveUp (w : Nat)

namespace Fleet

variable (cal : Calendar)
variable (fleet : Fleet)

/- Workers without tasks, and a cluster without timers. -/
def new
    (workerIds : Nat → String) : Fleet where
  cluster := Replicated.System.init .default
  workers := fun w =>
    { workerId := workerIds w
      tasks := []
      phase := .idle }
  calls := []

def setWorker
    (w : Nat)
    (worker : PyWorker) : Fleet :=
  { fleet with
    workers := Function.update fleet.workers w worker }

def setPhase
    (w : Nat)
    (phase : WorkerPhase) : Fleet :=
  fleet.setWorker w { fleet.workers w with phase := phase }

/- One worker is replaced, and the others stay. -/
theorem setWorker_cases
    (w : Nat)
    (worker : PyWorker)
    (v : Nat) :
    v = w ∧ (fleet.setWorker w worker).workers v = worker ∨
      v ≠ w ∧
        (fleet.setWorker w worker).workers v =
          fleet.workers v := by
  by_cases hEq : v = w
  · subst hEq
    exact .inl ⟨rfl, Function.update_self _ _ _⟩
  · exact .inr ⟨hEq, Function.update_of_ne hEq _ _⟩

/- A request reaches the leader. -/
def submit
    (call : Call) : Fleet :=
  { fleet with
    cluster :=
      fleet.cluster.propose
        (proposals cal fleet.cluster.state call) }

/- `http_request_cached` on the end of a run. -/
def reportOf
    (workerId : String)
    (run : WorkerRun)
    (failure : Option String)
    (tenantId : Option String)
    (now : DateTime) : Call :=
  match failure with
  | none =>
      .completeRun run.runId
        { workerId := workerId
          fencingToken := run.fencingToken }
        tenantId now
  | some error =>
      .failRun run.runId
        { workerId := workerId
          fencingToken := run.fencingToken
          error := error }
        tenantId now

/-
  One step. A round is taken by the server while the worker
  waits; a worker that gives up leaves its request behind,
  and further rounds of it are calls of the cluster.
-/
def step : FleetLabel → Option Fleet
| .cluster label =>
    (Cluster.step cal fleet.cluster label).map
      fun cluster => { fleet with cluster := cluster }
| .task w name =>
    let worker := fleet.workers w
    some
      (fleet.setWorker w
        { worker with tasks := worker.tasks ++ [name] })
| .register w now lease =>
    let worker := fleet.workers w
    match worker.phase with
    | .idle =>
        some
          ((fleet.submit cal
            (.registerWorker
              { workerId := worker.workerId
                tasks := worker.tasks
                leaseSeconds := some 30 }
              now lease)).setPhase w .registered)
    | _ => none
| .poll w =>
    let worker := fleet.workers w
    match worker.phase with
    | .registered =>
        some
          (fleet.setPhase w
            (.polling
              { workerId := worker.workerId
                tasks := worker.tasks }))
    | _ => none
| .round w tenantId now runId claimedAt lease =>
    match (fleet.workers w).phase with
    | .polling request =>
        let asked :=
          fleet.submit cal
            (.pollWorker request tenantId now runId claimedAt
              lease)
        match tryClaim cal fleet.cluster.state.appState
            request tenantId now runId with
        | none => some asked
        | some pick =>
            match claimCommand pick claimedAt lease with
            | none => some (asked.setPhase w .idle)
            | some _ =>
                some
                  (asked.setPhase w
                    (.claiming request pick))
    | _ => none
| .recheck w =>
    match (fleet.workers w).phase with
    | .claiming request pick =>
        if stillOwner fleet.cluster.state.appState pick then
          some (fleet.setPhase w (.holding pick.run))
        else
          some (fleet.setPhase w (.polling request))
    | _ => none
| .execute w failure =>
    let worker := fleet.workers w
    match worker.phase with
    | .holding run =>
        if worker.tasks.contains run.task then
          some
            { fleet.setPhase w (.finished run failure) with
              calls :=
                fleet.calls ++
                  [⟨worker.workerId, run, failure⟩] }
        else
          some (fleet.setPhase w .idle)
    | _ => none
| .report w tenantId now =>
    let worker := fleet.workers w
    match worker.phase with
    | .finished run failure =>
        some
          ((fleet.submit cal
            (reportOf worker.workerId run failure tenantId
              now)).setPhase w .idle)
    | _ => none
| .giveUp w => some (fleet.setPhase w .idle)

end Fleet

end Kron

------------------------------------------------------------
-- What Calls Of The Cluster Draw And Report
------------------------------------------------------------

namespace Kron

namespace Call

/- The run id that a call draws. -/
def draws : Call → List RunId
| .pollWorker _ _ _ runId _ _ => [runId]
| _ => []

/- Whether a call reports the end of a run. -/
def reportsEnd : Call → Bool
| .completeRun _ _ _ _ => true
| .failRun _ _ _ _ => true
| _ => false

end Call

namespace FleetLabel

def draws : FleetLabel → List RunId
| .cluster (.call call) => call.draws
| .round _ _ _ runId _ _ => [runId]
| _ => []

/- Whether only workers report the ends of runs. -/
def isLoyal : FleetLabel → Bool
| .cluster (.call call) => !call.reportsEnd
| _ => true

end FleetLabel

/- The picks among some proposals. -/
def picksOf
    (ps : List Proposal) : List Pick :=
  ps.filterMap Proposal.pick

theorem picksOf_plain
    (commands : List RaftCommand) :
    picksOf (commands.map Proposal.plain) = [] := by
  unfold picksOf
  rw [List.filterMap_map, List.filterMap_eq_nil_iff]
  intro command _
  rfl

variable {cal : Calendar}
variable {state : PersistedStateMachine}

/- A call picks one run at most, under the id it draws. -/
theorem picksOf_proposals
    (call : Call) :
    ((picksOf (proposals cal state call)).map
      fun pick => pick.run.runId).Sublist call.draws := by
  cases call with
  | pollWorker request tenantId now runId claimedAt lease =>
      simp only [proposals, Call.draws]
      cases hClaim :
          tryClaim cal state.appState request tenantId now
            runId with
      | none => simp [picksOf]
      | some pick =>
          rcases tryClaim_eq_some hClaim with ⟨timer, hPicked⟩
          simp only
          cases claimCommand pick claimedAt lease with
          | none => simp [picksOf]
          | some command => simp [picksOf, hPicked.runId]
  | createTimer request tenantId registeredAt createdAt =>
      simp only [proposals]
      split
      · simp [picksOf, Proposal.plain]
      · simp [picksOf]
  | registerWorker request now lease =>
      simp only [proposals]
      rw [picksOf_plain]
      exact List.nil_sublist _
  | heartbeatWorker workerId now lease =>
      simp only [proposals]
      rw [picksOf_plain]
      exact List.nil_sublist _
  | recheckOwner pick => simp [proposals, picksOf]
  | completeRun runId request tenantId now =>
      simp only [proposals]
      split
      · simp [picksOf]
      · simp [picksOf, Proposal.plain]
  | failRun runId request tenantId now =>
      simp only [proposals]
      split
      · simp [picksOf]
      · simp [picksOf, Proposal.plain]
  | expireActiveLeases now =>
      simp only [proposals]
      rw [picksOf_plain]
      exact List.nil_sublist _

end Kron

------------------------------------------------------------
-- What The Cluster Knows
------------------------------------------------------------

namespace Kron

namespace Fleet

/- A call of a run ended as a report says. -/
def Reported
    (calls : List TaskCall)
    (runId : RunId)
    (workerId : String)
    (fencingToken : UInt64)
    (failure : Option String) : Prop :=
  ∃ call ∈ calls,
    call.workerId = workerId ∧ call.run.runId = runId ∧
      call.run.fencingToken = fencingToken ∧
        call.failure = failure

/- What stands behind a command in flight. -/
def Backed
    (picks : List Pick)
    (calls : List TaskCall) : RaftCommand → Prop
| .claimRun timerId runId _ _ _ _ =>
    ∃ pick ∈ picks,
      pick.run.timer = timerId ∧ pick.run.runId = runId
| .completeRun runId workerId fencingToken _ =>
    Reported calls runId workerId fencingToken none
| .failRun runId workerId fencingToken error _ =>
    Reported calls runId workerId fencingToken (some error)
| _ => True

/-
  Active runs were picked, and the ends of runs in the
  history are those of calls.
-/
structure Told
    (picks : List Pick)
    (calls : List TaskCall)
    (state : PersistedStateMachine) : Prop where
  active :
    ∀ (runId : RunId) (active : PersistedActiveRun),
      state.activeRuns[runId]? = some active →
        ∃ pick ∈ picks,
          pick.run.timer = active.timerId ∧
            pick.run.runId = runId
  succeeded :
    ∀ record,
      .runSucceeded record ∈ state.history →
        ∃ call ∈ calls,
          call.IsOf record ∧ call.failure = none
  failed :
    ∀ record error,
      .runFailed record error ∈ state.history →
        ∃ call ∈ calls,
          call.IsOf record ∧ call.failure = some error

theorem told_default :
    Told [] [] PersistedStateMachine.default := by
  refine ⟨?_, ?_, ?_⟩
  · intro runId active hGet
    simp [PersistedStateMachine.default] at hGet
  · intro record hMem
    cases hMem
  · intro record error hMem
    cases hMem

variable {picks picks' : List Pick}
variable {calls calls' : List TaskCall}

theorem Backed.mono
    {command : RaftCommand}
    (hBacked : Backed picks calls command)
    (hPicks : picks ⊆ picks')
    (hCalls : calls ⊆ calls') :
    Backed picks' calls' command := by
  cases command with
  | claimRun =>
      rcases hBacked with ⟨pick, hMem, hOf⟩
      exact ⟨pick, hPicks hMem, hOf⟩
  | completeRun =>
      rcases hBacked with ⟨call, hMem, hOf⟩
      exact ⟨call, hCalls hMem, hOf⟩
  | failRun =>
      rcases hBacked with ⟨call, hMem, hOf⟩
      exact ⟨call, hCalls hMem, hOf⟩
  | _ => trivial

theorem Told.mono
    {state : PersistedStateMachine}
    (hTold : Told picks calls state)
    (hPicks : picks ⊆ picks')
    (hCalls : calls ⊆ calls') :
    Told picks' calls' state where
  active := by
    intro runId active hGet
    rcases hTold.active runId active hGet with
      ⟨pick, hMem, hOf⟩
    exact ⟨pick, hPicks hMem, hOf⟩
  succeeded := by
    intro record hMem
    rcases hTold.succeeded record hMem with
      ⟨call, hCall, hOf⟩
    exact ⟨call, hCalls hCall, hOf⟩
  failed := by
    intro record error hMem
    rcases hTold.failed record error hMem with
      ⟨call, hCall, hOf⟩
    exact ⟨call, hCalls hCall, hOf⟩

/- A pick is known by the id of its run. -/
theorem eq_of_runId_eq
    (hFresh : (picks.map fun pick => pick.run.runId).Nodup)
    {pick pick' : Pick}
    (hMem : pick ∈ picks)
    (hMem' : pick' ∈ picks)
    (hEq : pick.run.runId = pick'.run.runId) :
    pick = pick' :=
  List.inj_on_of_nodup_map hFresh hMem hMem' hEq

/- A run that is ended was called by its worker. -/
theorem isOf_ended
    {state : PersistedStateMachine}
    {runId : RunId}
    {workerId : String}
    {fencingToken : UInt64}
    {failure : Option String}
    {active : PersistedActiveRun}
    (hFresh : (picks.map fun pick => pick.run.runId).Nodup)
    (hCalls :
      ∀ call ∈ calls, ∃ pick ∈ picks, pick.run = call.run)
    (hTold : Told picks calls state)
    (hReported :
      Reported calls runId workerId fencingToken failure)
    (hOwned :
      state.ownedRun runId workerId fencingToken =
        some active) :
    ∃ call ∈ calls,
      call.IsOf
          { state.runRecord active with
            runId := runId
            workerId := workerId } ∧
        call.failure = failure := by
  rcases state.ownedRun_eq_some hOwned with
    ⟨hGet, _, hToken⟩
  rcases hTold.active runId active hGet with
    ⟨pick, hPick, hTimer, hId⟩
  rcases hReported with
    ⟨call, hCall, hWorker, hRun, hCallToken, hFailure⟩
  rcases hCalls call hCall with ⟨pick', hPick', hEq⟩
  have hSame : pick = pick' := by
    apply eq_of_runId_eq hFresh hPick hPick'
    rw [hId, hEq, hRun]
  refine ⟨call, hCall, ⟨hWorker, ?_, hRun, ?_⟩, hFailure⟩
  · rw [← hEq, ← hSame]
    exact hTimer
  · rw [hCallToken, ← hToken]
    rfl

/- History that tells of no end of a run. -/
theorem Told.pushed
    {state state' : PersistedStateMachine}
    {entry : HistoryEntry}
    (hTold : Told picks calls state)
    (hHistory :
      state'.history = state.history ++ [entry])
    (hActive :
      ∀ (runId : RunId) (active : PersistedActiveRun),
        state'.activeRuns[runId]? = some active →
          ∃ pick ∈ picks,
            pick.run.timer = active.timerId ∧
              pick.run.runId = runId)
    (hSucceeded :
      ∀ record,
        entry = .runSucceeded record →
          ∃ call ∈ calls,
            call.IsOf record ∧ call.failure = none)
    (hFailed :
      ∀ record error,
        entry = .runFailed record error →
          ∃ call ∈ calls,
            call.IsOf record ∧
              call.failure = some error) :
    Told picks calls state' where
  active := hActive
  succeeded := by
    intro record hMem
    rw [hHistory] at hMem
    rcases List.mem_append.mp hMem with hOld | hNew
    · exact hTold.succeeded record hOld
    · exact
        hSucceeded record (List.mem_singleton.mp hNew).symm
  failed := by
    intro record error hMem
    rw [hHistory] at hMem
    rcases List.mem_append.mp hMem with hOld | hNew
    · exact hTold.failed record error hOld
    · exact
        hFailed record error (List.mem_singleton.mp hNew).symm

/- A committed command adds what it is backed by. -/
theorem told_apply
    {cal : Calendar}
    {state state' : PersistedStateMachine}
    {command : RaftCommand}
    (hFresh : (picks.map fun pick => pick.run.runId).Nodup)
    (hCalls :
      ∀ call ∈ calls, ∃ pick ∈ picks, pick.run = call.run)
    (hTold : Told picks calls state)
    (hBacked : Backed picks calls command)
    (hApply :
      applyKronCommand cal state command = some state') :
    Told picks calls state' := by
  have hActive :
      ∀ (runId : RunId) (active : PersistedActiveRun),
        state'.activeRuns[runId]? = some active →
          ∃ pick ∈ picks,
            pick.run.timer = active.timerId ∧
              pick.run.runId = runId := by
    intro runId active hGet
    rcases activeRun_cases hApply hGet with
      hOld | ⟨hKey, rfl⟩
    · exact hTold.active runId active hOld
    · rcases hBacked with ⟨pick, hMem, hTimer, hId⟩
      exact ⟨pick, hMem, hTimer, hId.trans hKey⟩
  have hQuiet :
      state'.history = state.history →
        Told picks calls state' := by
    intro hHistory
    refine ⟨hActive, ?_, ?_⟩
    · rw [hHistory]
      exact hTold.succeeded
    · rw [hHistory]
      exact hTold.failed
  cases command with
  | createTimer spec nextRunAt =>
      cases hApply
      exact
        hTold.pushed (state.putTimer_history spec nextRunAt)
          hActive (fun _ h => by cases h)
          (fun _ _ h => by cases h)
  | updateTimer spec nextRunAt =>
      cases hApply
      exact
        hTold.pushed (state.putTimer_history spec nextRunAt)
          hActive (fun _ h => by cases h)
          (fun _ _ h => by cases h)
  | claimRun =>
      rcases applyKronCommand_claimRun hApply with
        ⟨_, rfl⟩ | ⟨_, rfl⟩
      · exact hTold
      · exact
          hTold.pushed (state.startActive_history _) hActive
            (fun _ h => by cases h) (fun _ _ h => by cases h)
  | completeRun runId workerId fencingToken completedAt =>
      rcases applyKronCommand_completeRun hApply with
        ⟨_, rfl⟩ | ⟨active, hOwned, hComplete⟩
      · exact hTold
      · apply
          hTold.pushed
            (state.completeActive_history hComplete) hActive
        · intro record hEq
          cases hEq
          exact
            isOf_ended hFresh hCalls hTold hBacked hOwned
        · exact fun _ _ h => by cases h
  | failRun runId workerId fencingToken error failedAt =>
      rcases applyKronCommand_failRun hApply with
        ⟨_, rfl⟩ | ⟨active, hOwned, rfl⟩
      · exact hTold
      · apply
          hTold.pushed
            (state.failActive_history runId workerId active
              error) hActive
        · exact fun _ h => by cases h
        · intro record error' hEq
          cases hEq
          exact
            isOf_ended hFresh hCalls hTold hBacked hOwned
  | expireRunLease =>
      rcases applyKronCommand_expireRunLease hApply with
        ⟨_, rfl⟩ | ⟨active, _, rfl⟩
      · exact hTold
      · exact
          hTold.pushed (state.expireActive_history _ _ _)
            hActive (fun _ h => by cases h)
            (fun _ _ h => by cases h)
  | registerWorker =>
      cases hApply
      exact
        hTold.pushed rfl hActive (fun _ h => by cases h)
          (fun _ _ h => by cases h)
  | cancelTimer timerId =>
      cases hApply
      exact hQuiet (by simp)
  | pauseTimer timerId =>
      cases hApply
      exact hQuiet (by simp)
  | resumeTimer timerId nextRunAt =>
      cases hApply
      exact hQuiet (by simp)
  | _ =>
      cases hApply
      exact hQuiet rfl

end Fleet

end Kron

------------------------------------------------------------
-- The Invariant
------------------------------------------------------------

namespace Kron

/- The run that a worker may yet call. -/
def WorkerPhase.run? : WorkerPhase → Option WorkerRun
| .claiming _ pick => some pick.run
| .holding run => some run
| _ => none

/- A call that reports an end reports that of a call. -/
def Call.IsBacked
    (calls : List TaskCall) : Call → Prop
| .completeRun runId request _ _ =>
    Fleet.Reported calls runId request.workerId
      request.fencingToken none
| .failRun runId request _ _ =>
    Fleet.Reported calls runId request.workerId
      request.fencingToken (some request.error)
| _ => True

theorem Call.isBacked_of_not_reportsEnd
    {call : Call}
    (calls : List TaskCall)
    (hSilent : call.reportsEnd = false) :
    call.IsBacked calls := by
  cases call with
  | completeRun => cases hSilent
  | failRun => cases hSilent
  | _ => trivial

namespace Fleet

/- What polls picked from the cluster. -/
def picks
    (fleet : Fleet) : List Pick :=
  picksOf fleet.cluster.proposed

/- The run ids of these picks. -/
def pickedIds
    (fleet : Fleet) : List RunId :=
  fleet.picks.map fun pick => pick.run.runId

/-
  What holds of a fleet while the run ids in `rest` are still
  to be drawn. A run is held by one worker at a time, and not
  after its call.
-/
structure Honest
    (fleet : Fleet)
    (rest : List RunId) : Prop where
  fresh : (fleet.pickedIds ++ rest).Nodup
  backed :
    ∀ p ∈ fleet.cluster.inflight,
      Backed fleet.picks fleet.calls p.command
  told : Told fleet.picks fleet.calls fleet.cluster.state
  called :
    ∀ call ∈ fleet.calls,
      ∃ pick ∈ fleet.picks, pick.run = call.run
  once : (fleet.calls.map fun call => call.run.runId).Nodup
  held :
    ∀ w run,
      (fleet.workers w).phase.run? = some run →
        (∃ pick ∈ fleet.picks, pick.run = run) ∧
          ∀ call ∈ fleet.calls, call.run.runId ≠ run.runId
  alone :
    ∀ v w run run',
      (fleet.workers v).phase.run? = some run →
        (fleet.workers w).phase.run? = some run' →
          run.runId = run'.runId → v = w
  finished :
    ∀ w run failure,
      (fleet.workers w).phase = .finished run failure →
        ⟨(fleet.workers w).workerId, run, failure⟩ ∈
          fleet.calls

theorem honest_new
    (workerIds : Nat → String)
    {rest : List RunId}
    (hFresh : rest.Nodup) :
    Honest (new workerIds) rest where
  fresh := hFresh
  backed := by
    intro p hMem
    cases hMem
  told := told_default
  called := by
    intro call hMem
    cases hMem
  once := List.nodup_nil
  held := by
    intro w run hRun
    cases hRun
  alone := by
    intro v w run run' hRun
    cases hRun
  finished := by
    intro w run failure hPhase
    cases hPhase

variable {fleet : Fleet}
variable {rest : List RunId}

/- An id that is still to be drawn belongs to no pick. -/
theorem Honest.notMem_of_draw
    {runId : RunId}
    (hHonest : Honest fleet (runId :: rest)) :
    runId ∉ fleet.pickedIds := by
  intro hMem
  exact
    List.disjoint_of_nodup_append hHonest.fresh hMem
      List.mem_cons_self

theorem mem_pickedIds
    {run : WorkerRun}
    (hPicked : ∃ pick ∈ fleet.picks, pick.run = run) :
    run.runId ∈ fleet.pickedIds := by
  rcases hPicked with ⟨pick, hMem, rfl⟩
  exact List.mem_map_of_mem hMem

/- Workers that hold no more than they did. -/
theorem Honest.setWorker
    (hHonest : Honest fleet rest)
    (w : Nat)
    (worker : PyWorker)
    (hRun :
      ∀ run,
        worker.phase.run? = some run →
          (fleet.workers w).phase.run? = some run)
    (hFinished :
      ∀ run failure,
        worker.phase = .finished run failure →
          ⟨worker.workerId, run, failure⟩ ∈ fleet.calls) :
    Honest (fleet.setWorker w worker) rest := by
  have hHeld :
      ∀ v run,
        ((fleet.setWorker w worker).workers v).phase.run? =
            some run →
          (fleet.workers v).phase.run? = some run := by
    intro v run hSome
    rcases fleet.setWorker_cases w worker v with
      ⟨rfl, hEq⟩ | ⟨_, hEq⟩
    · rw [hEq] at hSome
      exact hRun run hSome
    · rw [hEq] at hSome
      exact hSome
  exact
    { fresh := hHonest.fresh
      backed := hHonest.backed
      told := hHonest.told
      called := hHonest.called
      once := hHonest.once
      held := fun v run hSome =>
        hHonest.held v run (hHeld v run hSome)
      alone := fun v v' run run' hSome hSome' =>
        hHonest.alone v v' run run' (hHeld v run hSome)
          (hHeld v' run' hSome')
      finished := by
        intro v run failure hPhase
        rcases fleet.setWorker_cases w worker v with
          ⟨rfl, hEq⟩ | ⟨_, hEq⟩
        · rw [hEq] at hPhase ⊢
          exact hFinished run failure hPhase
        · rw [hEq] at hPhase ⊢
          exact hHonest.finished v run failure hPhase }

/- A worker that lets its run go. -/
theorem Honest.letGo
    (hHonest : Honest fleet rest)
    (w : Nat)
    {phase : WorkerPhase}
    (hNone : phase.run? = none)
    (hEnds : ∀ run failure, phase ≠ .finished run failure) :
    Honest (fleet.setPhase w phase) rest := by
  apply hHonest.setWorker
  · intro run hRun
    rw [hNone] at hRun
    cases hRun
  · intro run failure hPhase
    exact absurd hPhase (hEnds run failure)

/- The cluster after a commit or a drop. -/
theorem Honest.setCluster
    (hHonest : Honest fleet rest)
    {cluster : Cluster}
    (hProposed : cluster.proposed = fleet.cluster.proposed)
    (hInflight : cluster.inflight ⊆ fleet.cluster.inflight)
    (hTold :
      Told fleet.picks fleet.calls cluster.state) :
    Honest { fleet with cluster := cluster } rest := by
  have hPicks :
      picks { fleet with cluster := cluster } =
        fleet.picks := by
    unfold picks
    rw [hProposed]
  exact
    { fresh := by
        unfold pickedIds
        rw [hPicks]
        exact hHonest.fresh
      backed := by
        intro p hMem
        rw [hPicks]
        exact hHonest.backed p (hInflight hMem)
      told := by
        rw [hPicks]
        exact hTold
      called := by
        rw [hPicks]
        exact hHonest.called
      once := hHonest.once
      held := by
        rw [hPicks]
        exact hHonest.held
      alone := hHonest.alone
      finished := hHonest.finished }

variable {cal : Calendar}

/- Proposals are backed when their call is. -/
theorem backed_of_mem
    {state : PersistedStateMachine}
    {call : Call}
    {p : Proposal}
    {picks : List Pick}
    {calls : List TaskCall}
    (hMem : p ∈ proposals cal state call)
    (hPicks : picksOf (proposals cal state call) ⊆ picks)
    (hBacked : call.IsBacked calls) :
    Backed picks calls p.command := by
  cases proposes_of_mem hMem with
  | claim hPicked =>
      rename_i pick timer
      refine ⟨pick, hPicks ?_, rfl, rfl⟩
      exact List.mem_filterMap.mpr ⟨_, hMem, rfl⟩
  | complete hValid => exact hBacked
  | fail hValid => exact hBacked
  | _ => trivial

theorem picks_submit
    (call : Call) :
    (fleet.submit cal call).picks =
      fleet.picks ++
        picksOf (proposals cal fleet.cluster.state call) :=
  List.filterMap_append

/- A request draws the first of the ids to come. -/
theorem Honest.submit
    (cal : Calendar)
    (call : Call)
    (hHonest : Honest fleet (call.draws ++ rest))
    (hBacked : call.IsBacked fleet.calls) :
    Honest (fleet.submit cal call) rest := by
  have hMore :
      fleet.picks ⊆ (fleet.submit cal call).picks := by
    rw [picks_submit]
    exact List.subset_append_left _ _
  have hPicked :
      ∀ run,
        (∃ pick ∈ fleet.picks, pick.run = run) →
          ∃ pick ∈ (fleet.submit cal call).picks,
            pick.run = run := by
    rintro run ⟨pick, hMem, hEq⟩
    exact ⟨pick, hMore hMem, hEq⟩
  exact
    { fresh := by
        have hDrawn :
            ((picksOf
                (proposals cal fleet.cluster.state
                  call)).map
              fun pick => pick.run.runId).Sublist
              call.draws :=
          picksOf_proposals call
        unfold pickedIds
        rw [picks_submit, List.map_append,
          List.append_assoc]
        exact
          hHonest.fresh.sublist
            ((hDrawn.append_right rest).append_left
              fleet.pickedIds)
      backed := by
        intro p hMem
        rcases List.mem_append.mp hMem with hOld | hNew
        · exact
            (hHonest.backed p hOld).mono hMore
              (List.Subset.refl _)
        · apply backed_of_mem hNew _ hBacked
          rw [picks_submit]
          exact List.subset_append_right _ _
      told := hHonest.told.mono hMore (List.Subset.refl _)
      called := fun taskCall hMem =>
        hPicked taskCall.run (hHonest.called taskCall hMem)
      once := hHonest.once
      held := fun w run hRun =>
        ⟨hPicked run (hHonest.held w run hRun).1,
          (hHonest.held w run hRun).2⟩
      alone := hHonest.alone
      finished := hHonest.finished }

/- A worker takes a run that nobody has seen. -/
theorem Honest.claim
    (hHonest : Honest fleet rest)
    (w : Nat)
    (request : WorkerPollRequest)
    {pick : Pick}
    (hMem : pick ∈ fleet.picks)
    (hCalls :
      ∀ call ∈ fleet.calls,
        call.run.runId ≠ pick.run.runId)
    (hOthers :
      ∀ v run,
        (fleet.workers v).phase.run? = some run →
          run.runId ≠ pick.run.runId) :
    Honest (fleet.setPhase w (.claiming request pick))
      rest := by
  have hCases :
      ∀ v run,
        ((fleet.setPhase w
            (.claiming request pick)).workers
              v).phase.run? = some run →
          v = w ∧ run = pick.run ∨
            v ≠ w ∧
              (fleet.workers v).phase.run? =
                some run := by
    intro v run hRun
    rcases fleet.setWorker_cases w _ v with
      ⟨hSame, hEq⟩ | ⟨hNe, hEq⟩
    · rw [setPhase, hEq] at hRun
      exact .inl ⟨hSame, (Option.some.inj hRun).symm⟩
    · rw [setPhase, hEq] at hRun
      exact .inr ⟨hNe, hRun⟩
  exact
    { fresh := hHonest.fresh
      backed := hHonest.backed
      told := hHonest.told
      called := hHonest.called
      once := hHonest.once
      held := by
        intro v run hRun
        rcases hCases v run hRun with ⟨_, rfl⟩ | ⟨_, hOld⟩
        · exact ⟨⟨pick, hMem, rfl⟩, hCalls⟩
        · exact hHonest.held v run hOld
      alone := by
        intro v v' run run' hRun hRun' hSame
        rcases hCases v run hRun with
          ⟨hEq, rfl⟩ | ⟨_, hOld⟩
        · rcases hCases v' run' hRun' with
            ⟨hEq', _⟩ | ⟨_, hOld'⟩
          · rw [hEq, hEq']
          · exact absurd hSame.symm (hOthers v' run' hOld')
        · rcases hCases v' run' hRun' with
            ⟨_, rfl⟩ | ⟨_, hOld'⟩
          · exact absurd hSame (hOthers v run hOld)
          · exact hHonest.alone v v' run run' hOld hOld' hSame
      finished := by
        intro v run failure hPhase
        rcases fleet.setWorker_cases w _ v with
          ⟨_, hEq⟩ | ⟨_, hEq⟩
        · rw [setPhase, hEq] at hPhase
          cases hPhase
        · rw [setPhase, hEq] at hPhase ⊢
          exact hHonest.finished v run failure hPhase }

/- The call of a held run ends the holding of it. -/
theorem Honest.execute
    (hHonest : Honest fleet rest)
    {w : Nat}
    {run : WorkerRun}
    (failure : Option String)
    (hPhase : (fleet.workers w).phase = .holding run) :
    Honest
      { fleet.setPhase w (.finished run failure) with
        calls :=
          fleet.calls ++
            [⟨(fleet.workers w).workerId, run, failure⟩] }
      rest := by
  have hRun : (fleet.workers w).phase.run? = some run := by
    rw [hPhase]
    rfl
  rcases hHonest.held w run hRun with ⟨hPicked, hUncalled⟩
  have hMore :
      fleet.calls ⊆
        fleet.calls ++
          [⟨(fleet.workers w).workerId, run, failure⟩] :=
    List.subset_append_left _ _
  have hWorkers :=
    fleet.setWorker_cases w
      { fleet.workers w with phase := .finished run failure }
  have hHeld :
      ∀ v run',
        ((fleet.setPhase w (.finished run failure)).workers
              v).phase.run? = some run' →
          v ≠ w ∧
            (fleet.workers v).phase.run? = some run' := by
    intro v run' hRun'
    rcases hWorkers v with ⟨_, hEq⟩ | ⟨hNe, hEq⟩
    · rw [setPhase, hEq] at hRun'
      cases hRun'
    · rw [setPhase, hEq] at hRun'
      exact ⟨hNe, hRun'⟩
  exact
    { fresh := hHonest.fresh
      backed := fun p hMem =>
        (hHonest.backed p hMem).mono (List.Subset.refl _)
          hMore
      told := hHonest.told.mono (List.Subset.refl _) hMore
      called := by
        intro call hMem
        rcases List.mem_append.mp hMem with hOld | hNew
        · exact hHonest.called call hOld
        · cases List.mem_singleton.mp hNew
          exact hPicked
      once := by
        rw [List.map_append]
        refine
          hHonest.once.append (List.nodup_singleton _) ?_
        intro runId hOld hNew
        rcases List.mem_map.mp hOld with ⟨call, hCall, rfl⟩
        exact
          hUncalled call hCall (List.mem_singleton.mp hNew)
      held := by
        intro v run' hRun'
        rcases hHeld v run' hRun' with ⟨hNe, hOld⟩
        refine ⟨(hHonest.held v run' hOld).1, ?_⟩
        intro call hMem
        rcases List.mem_append.mp hMem with hBefore | hNew
        · exact (hHonest.held v run' hOld).2 call hBefore
        · cases List.mem_singleton.mp hNew
          intro hSame
          exact
            hNe (hHonest.alone v w run' run hOld hRun
              hSame.symm)
      alone := by
        intro v v' run' run'' hRun' hRun''
        exact
          hHonest.alone v v' run' run'' (hHeld v run' hRun').2
            (hHeld v' run'' hRun'').2
      finished := by
        intro v run' failure' hEnded
        rcases hWorkers v with ⟨rfl, hEq⟩ | ⟨_, hEq⟩
        · simp only [setPhase, hEq] at hEnded ⊢
          cases hEnded
          exact List.mem_append_right _ List.mem_cons_self
        · simp only [setPhase, hEq] at hEnded ⊢
          exact hMore (hHonest.finished v _ _ hEnded) }

end Fleet

end Kron

------------------------------------------------------------
-- What The History Says
------------------------------------------------------------

namespace Kron

namespace Fleet

variable {cal : Calendar}
variable {fleet : Fleet}
variable {rest : List RunId}

theorem draws_reportOf
    (workerId : String)
    (run : WorkerRun)
    (failure : Option String)
    (tenantId : Option String)
    (now : DateTime) :
    (reportOf workerId run failure tenantId now).draws =
      [] := by
  cases failure <;> rfl

theorem isBacked_reportOf
    {calls : List TaskCall}
    {workerId : String}
    {run : WorkerRun}
    {failure : Option String}
    (tenantId : Option String)
    (now : DateTime)
    (hMem : ⟨workerId, run, failure⟩ ∈ calls) :
    (reportOf workerId run failure tenantId now).IsBacked
      calls := by
  cases failure with
  | none => exact ⟨_, hMem, rfl, rfl, rfl, rfl⟩
  | some error => exact ⟨_, hMem, rfl, rfl, rfl, rfl⟩

theorem honest_cluster
    {label : ClusterLabel}
    {cluster : Cluster}
    (hHonest :
      Honest fleet
        ((FleetLabel.cluster label).draws ++ rest))
    (hLoyal : (FleetLabel.cluster label).isLoyal = true)
    (hStep :
      Cluster.step cal fleet.cluster label =
        some cluster) :
    Honest { fleet with cluster := cluster } rest := by
  cases label with
  | call call =>
      cases hStep
      apply Honest.submit cal call hHonest
      apply call.isBacked_of_not_reportsEnd
      simpa [FleetLabel.isLoyal] using hLoyal
  | commit i =>
      have hHonest : Honest fleet rest := hHonest
      rcases Replicated.step_commit hStep with
        ⟨p, state, hGet, hApply, rfl⟩
      apply hHonest.setCluster
      · rfl
      · exact List.eraseIdx_subset
      · exact
          told_apply
            (List.Nodup.of_append_left hHonest.fresh)
            hHonest.called hHonest.told
            (hHonest.backed p (List.mem_of_getElem? hGet))
            hApply
  | drop i =>
      have hHonest : Honest fleet rest := hHonest
      rw [Replicated.step_drop hStep]
      exact
        hHonest.setCluster rfl List.eraseIdx_subset
          hHonest.told

/- A round that claims gives out a run of its own. -/
theorem honest_round
    {w : Nat}
    {tenantId : Option String}
    {now claimedAt : DateTime}
    {runId : RunId}
    {lease : UInt64}
    {fleet' : Fleet}
    (hHonest : Honest fleet (runId :: rest))
    (hStep :
      fleet.step cal
          (.round w tenantId now runId claimedAt lease) =
        some fleet') :
    Honest fleet' rest := by
  simp only [step] at hStep
  split at hStep
  · rename_i request hPhase
    have hAsked :=
      Honest.submit cal
        (.pollWorker request tenantId now runId claimedAt
          lease)
        hHonest trivial
    split at hStep
    · cases hStep
      exact hAsked
    · rename_i pick hClaim
      split at hStep
      · cases hStep
        exact
          hAsked.letGo w rfl (by intro _ _ hEnd; cases hEnd)
      · rename_i command hCommand
        cases hStep
        rcases tryClaim_eq_some hClaim with ⟨timer, hPicked⟩
        have hFresh : pick.run.runId ∉ fleet.pickedIds := by
          rw [hPicked.runId]
          exact hHonest.notMem_of_draw
        apply hAsked.claim w request
        · rw [picks_submit]
          apply List.mem_append_right
          simp [picksOf, proposals, hClaim, hCommand]
        · intro call hMem hSame
          apply hFresh
          rw [← hSame]
          exact mem_pickedIds (hHonest.called call hMem)
        · intro v run hRun hSame
          apply hFresh
          rw [← hSame]
          exact mem_pickedIds (hHonest.held v run hRun).1
  · cases hStep

theorem honest_step
    {fleet' : Fleet}
    {label : FleetLabel}
    (hHonest : Honest fleet (label.draws ++ rest))
    (hLoyal : label.isLoyal = true)
    (hStep : fleet.step cal label = some fleet') :
    Honest fleet' rest := by
  cases label with
  | cluster label =>
      rcases Option.map_eq_some_iff.mp hStep with
        ⟨cluster, hCluster, rfl⟩
      exact honest_cluster hHonest hLoyal hCluster
  | round => exact honest_round hHonest hStep
  | task w name =>
      cases hStep
      exact
        Honest.setWorker hHonest w _ (fun _ hRun => hRun)
          (hHonest.finished w)
  | register w now lease =>
      simp only [step] at hStep
      split at hStep
      · cases hStep
        exact
          (Honest.submit cal (.registerWorker _ now lease)
            hHonest trivial).letGo w rfl
              (by intro _ _ hEnd; cases hEnd)
      · cases hStep
  | poll w =>
      simp only [step] at hStep
      split at hStep
      · cases hStep
        exact
          Honest.letGo hHonest w rfl
            (by intro _ _ hEnd; cases hEnd)
      · cases hStep
  | recheck w =>
      simp only [step] at hStep
      split at hStep
      · rename_i request pick hPhase
        split at hStep
        · cases hStep
          apply Honest.setWorker hHonest
          · intro run hRun
            rw [hPhase]
            exact hRun
          · intro _ _ hEnd
            cases hEnd
        · cases hStep
          exact
            Honest.letGo hHonest w rfl
              (by intro _ _ hEnd; cases hEnd)
      · cases hStep
  | execute w failure =>
      simp only [step] at hStep
      split at hStep
      · rename_i run hPhase
        split at hStep
        · cases hStep
          exact Honest.execute hHonest failure hPhase
        · cases hStep
          exact
            Honest.letGo hHonest w rfl
              (by intro _ _ hEnd; cases hEnd)
      · cases hStep
  | report w tenantId now =>
      simp only [step] at hStep
      split at hStep
      · rename_i run failure hPhase
        cases hStep
        have hMem := hHonest.finished w run failure hPhase
        apply Honest.letGo _ w rfl
        · intro _ _ hEnd
          cases hEnd
        · apply Honest.submit
          · rw [draws_reportOf]
            exact hHonest
          · exact isBacked_reportOf tenantId now hMem
      · cases hStep
  | giveUp w =>
      cases hStep
      exact
        Honest.letGo hHonest w rfl
          (by intro _ _ hEnd; cases hEnd)

/-
  Where no run id is drawn twice and only workers report how
  runs end, no run is called twice, and each end of a run in
  the history is that of a call by the worker it names, with
  the error that the call raised.
-/
theorem history_tells_of_calls
    (cal : Calendar)
    (workerIds : Nat → String)
    (labels : List FleetLabel)
    (fleet : Fleet)
    (hLoyal : ∀ label ∈ labels, label.isLoyal = true)
    (hDraws : (labels.flatMap FleetLabel.draws).Nodup)
    (hRun :
      Machine.run (Fleet.step cal) (Fleet.new workerIds)
        labels = some fleet) :
    (fleet.calls.map fun call => call.run.runId).Nodup ∧
      (∀ record,
        .runSucceeded record ∈ fleet.cluster.state.history →
          ∃ call ∈ fleet.calls,
            call.IsOf record ∧ call.failure = none) ∧
      ∀ record error,
        .runFailed record error ∈
            fleet.cluster.state.history →
          ∃ call ∈ fleet.calls,
            call.IsOf record ∧
              call.failure = some error := by
  have hHonest : Honest fleet [] := by
    apply
      Machine.run_invariant_rest
        (fun fleet (labels : List FleetLabel) =>
          Honest fleet (labels.flatMap FleetLabel.draws))
        _ (honest_new workerIds hDraws)
        (Machine.meets_of_forall
          (fun _ (label : FleetLabel) =>
            label.isLoyal = true)
          (new workerIds) fun label hMem _ =>
            hLoyal label hMem)
        hRun
    intro fleet label labels fleet' hInv hOn hStep
    rw [List.flatMap_cons] at hInv
    exact honest_step hInv hOn hStep
  exact
    ⟨hHonest.once, hHonest.told.succeeded,
      hHonest.told.failed⟩

/- A worker whose only call raises an exception. -/
def failingCall : List FleetLabel :=
  [.cluster (.call (createAt "t" none 3 0)),
    .cluster (.commit 0), .task 0 "task",
    .register 0 0 30, .cluster (.commit 0), .poll 0,
    .round 0 none (2 * nanosPerSecond) "r1"
      (2 * nanosPerSecond) 30,
    .cluster (.commit 0), .recheck 0,
    .execute 0 (some "boom"),
    .report 0 none (3 * nanosPerSecond),
    .cluster (.commit 0)]

def failingRecord : RunRecord where
  timer := "t"
  tenantId := none
  runId := "r1"
  workerId := "w"
  fencingToken := 1

theorem history_tells_of_calls_failing :
    ∃ fleet,
      Machine.run (Fleet.step utcCalendar)
          (Fleet.new fun _ => "w") failingCall =
        some fleet ∧
      .runFailed failingRecord "boom" ∈
        fleet.cluster.state.history ∧
      ∃ call ∈ fleet.calls,
        call.IsOf failingRecord ∧
          call.failure = some "boom" := by
  have hFailed :
      (Machine.run (Fleet.step utcCalendar)
          (Fleet.new fun _ => "w") failingCall).map
          (fun fleet =>
            decide
              (.runFailed failingRecord "boom" ∈
                fleet.cluster.state.history)) =
        some true := by
    decide +kernel
  rcases Option.map_eq_some_iff.mp hFailed with
    ⟨fleet, hRun, hMem⟩
  have hMem := of_decide_eq_true hMem
  refine ⟨fleet, hRun, hMem, ?_⟩
  exact
    (history_tells_of_calls utcCalendar (fun _ => "w")
      failingCall fleet (by decide +kernel)
      (by decide +kernel) hRun).2.2 failingRecord "boom" hMem

end Fleet

end Kron
