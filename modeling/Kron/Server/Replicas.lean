import Kron.Server.RaftCrash

/-
  Replicas of the state machine.

  Replicas apply committed entries in batches of their own,
  install snapshots of one another, stop between any two file
  operations and open their directories again. The state
  machine of a replica is always the committed entries up to
  its last applied one, applied in order.

  Key definitions include:
    * `Kron.Replica`
    * `Kron.ReplicaSet`
    * `Kron.replicaStep`
    * `Kron.Delivers`
    * `Kron.FoldOf`

  Key theorems include:
    * `Kron.applyEntries_lastApplied`
    * `Kron.foldOf_apply`
    * `Kron.inv_replicaStep`
    * `Kron.replicas_agree`
-/

------------------------------------------------------------
-- Replicas And Their Steps
------------------------------------------------------------

namespace Kron

open FileSystem

/- A replica that runs, or one whose process has stopped. -/
inductive Replica where
| up (store : PersistedRaftStore) (dir : StoreDir)
| down (dir : StoreDir)

/- The replicas and the snapshots taken so far. -/
structure ReplicaSet (ι : Type) where
  replicas : ι → Replica
  snapshots : List (SnapshotMeta × Bytes)

/-
  A call that completes, a process that stops inside a call
  or between calls, an opening, one that is cut short, and a
  snapshot that is taken.
-/
inductive ReplicaLabel (ι : Type) where
| call (i : ι) (call : StoreCall) (order : List String)
| crash (i : ι) (call : StoreCall) (order : List String)
    (k : Nat)
| stop (i : ι)
| reopen (i : ι)
| crashOpen (i : ι) (k : Nat)
| snapshot (i : ι)

variable {ι : Type} [DecidableEq ι]

def ReplicaSet.set
    (s : ReplicaSet ι)
    (i : ι)
    (replica : Replica) : ReplicaSet ι :=
  { s with
    replicas := Function.update s.replicas i replica }

/- Replicas that have never been opened. -/
def ReplicaSet.init : ReplicaSet ι where
  replicas := fun _ => .down ∅
  snapshots := []

/- The directory of a replica that stops inside a call. -/
def crashedDir
    (cal : Calendar)
    (codecs : StoreCodecs)
    (store : PersistedRaftStore)
    (dir : StoreDir)
    (call : StoreCall)
    (order : List String)
    (k : Nat) : StoreDir :=
  match call.update cal codecs store with
  | some (.ok store') =>
      crash dir (persistOps codecs order store') k
  | _ => dir

/- One step of one replica. -/
def replicaStep
    (cal : Calendar)
    (codecs : StoreCodecs)
    (dataDir : String)
    (s : ReplicaSet ι) :
    ReplicaLabel ι → Option (ReplicaSet ι)
| .call i call order =>
    match s.replicas i with
    | .down _ => none
    | .up store dir =>
        (storeStep cal codecs (store, dir)
          (call, order)).map fun after =>
            s.set i (.up after.1 after.2)
| .crash i call order k =>
    match s.replicas i with
    | .down _ => none
    | .up store dir =>
        if order.Perm (segmentPaths dir) then
          some
            (s.set i
              (.down
                (crashedDir cal codecs store dir call order
                  k)))
        else
          none
| .stop i =>
    match s.replicas i with
    | .down _ => none
    | .up _ dir => some (s.set i (.down dir))
| .reopen i =>
    match s.replicas i with
    | .up _ _ => none
    | .down dir =>
        let dir' := runAll dir (openOps codecs dir)
        match openStore codecs dataDir dir with
        | .ok store => some (s.set i (.up store dir'))
        | .error _ => some (s.set i (.down dir'))
| .crashOpen i k =>
    match s.replicas i with
    | .up _ _ => none
    | .down dir =>
        some
          (s.set i
            (.down
              (FileSystem.crash dir (openOps codecs dir)
                k)))
| .snapshot i =>
    match s.replicas i with
    | .down _ => none
    | .up store _ =>
        some
          { s with
            snapshots :=
              s.snapshots ++
                [getCurrentSnapshot codecs store] }

/- The position of the last of the first `n` entries. -/
def appliedAt
    (committed : List KronEntry)
    (n : Nat) : Option LogId :=
  ((committed.take n).getLast?).map KronEntry.logId

/-
  Entries are delivered in order from the one after the last
  applied one; snapshots are those of other replicas.
-/
def Delivered
    (committed : List KronEntry)
    (s : ReplicaSet ι)
    (store : PersistedRaftStore) :
    StoreCall → Prop
| .apply entries =>
    ∃ n ≤ committed.length,
      store.stateMachine.lastAppliedLogId =
          appliedAt committed n ∧
        entries <+: committed.drop n
| .installSnapshot info snapshot =>
    (info, snapshot) ∈ s.snapshots
| _ => True

/- What every step of a run is assumed to respect. -/
def Delivers
    (committed : List KronEntry)
    (s : ReplicaSet ι) :
    ReplicaLabel ι → Prop
| .call i call _ =>
    ∀ store dir, s.replicas i = .up store dir →
      Delivered committed s store call
| .crash i call _ _ =>
    ∀ store dir, s.replicas i = .up store dir →
      Delivered committed s store call
| _ => True

/- The first `n` committed entries give this state. -/
def FoldOf
    (cal : Calendar)
    (committed : List KronEntry)
    (n : Nat)
    (state : PersistedStateMachine) : Prop :=
  applyEntries cal .default (committed.take n) = some state

end Kron

------------------------------------------------------------
-- The Last Applied Entry
------------------------------------------------------------

namespace Kron

variable {cal : Calendar}

namespace PersistedStateMachine

theorem setNextRun_lastApplied
    (state : PersistedStateMachine)
    (timerId : TimerId)
    (nextRunAt : Option DateTime) :
    (state.setNextRun timerId
        nextRunAt).lastAppliedLogId =
      state.lastAppliedLogId := by
  cases nextRunAt <;> rfl

theorem putTimer_lastApplied
    (state : PersistedStateMachine)
    (spec : DistributedTimerSpec)
    (nextRunAt : Option DateTime) :
    (state.putTimer spec nextRunAt).lastAppliedLogId =
      state.lastAppliedLogId := by
  cases nextRunAt <;> rfl

theorem completeActive_lastApplied
    (state : PersistedStateMachine)
    {runId : RunId}
    {workerId : String}
    {active : PersistedActiveRun}
    {completedAt : DateTime}
    {state' : PersistedStateMachine}
    (hSome :
      state.completeActive cal runId workerId active
        completedAt = some state') :
    state'.lastAppliedLogId = state.lastAppliedLogId := by
  rcases state.completeActive_eq_some hSome with
    ⟨next, hNext, rfl⟩
  rcases rescheduleTimer_eq_some _ hNext with
    ⟨_, rfl⟩ | ⟨_, _, rfl⟩
  · rfl
  · exact setNextRun_lastApplied _ _ _

theorem claimRun_lastApplied
    (state : PersistedStateMachine)
    (active : PersistedActiveRun) :
    (state.claimRun active).lastAppliedLogId =
      state.lastAppliedLogId := by
  unfold claimRun
  split
  · rfl
  · rfl

theorem expireActive_lastApplied
    (state : PersistedStateMachine)
    (runId : RunId)
    (active : PersistedActiveRun)
    (replacement : Option WorkerRun) :
    (state.expireActive runId active
        replacement).lastAppliedLogId =
      state.lastAppliedLogId := by
  cases replacement <;> rfl

end PersistedStateMachine

/- A command does not move the last applied position. -/
theorem applyKronCommand_lastApplied
    {state state' : PersistedStateMachine}
    {command : RaftCommand}
    (hApply :
      applyKronCommand cal state command = some state') :
    state'.lastAppliedLogId = state.lastAppliedLogId := by
  cases command with
  | createTimer spec nextRunAt =>
      cases hApply
      exact state.putTimer_lastApplied spec nextRunAt
  | updateTimer spec nextRunAt =>
      cases hApply
      exact state.putTimer_lastApplied spec nextRunAt
  | cancelTimer timerId =>
      cases hApply
      rfl
  | pauseTimer timerId =>
      cases hApply
      rfl
  | resumeTimer timerId nextRunAt =>
      cases hApply
      exact
        (state.setState timerId
          .scheduled).setNextRun_lastApplied timerId
          nextRunAt
  | claimRun timerId runId workerId token attempt deadline =>
      cases hApply
      exact state.claimRun_lastApplied _
  | completeRun runId workerId token completedAt =>
      simp only [applyKronCommand] at hApply
      split at hApply
      · cases hApply
        rfl
      · exact state.completeActive_lastApplied hApply
  | failRun runId workerId token error failedAt =>
      simp only [applyKronCommand] at hApply
      split at hApply
      · cases hApply
        rfl
      · cases hApply
        rfl
  | expireRunLease runId replacement expiredAt =>
      simp only [applyKronCommand] at hApply
      split at hApply
      · cases hApply
        rfl
      · cases hApply
        exact state.expireActive_lastApplied _ _ _
  | heartbeatWorker workerId leaseUntil =>
      cases hApply
      rfl
  | registerWorker workerId tasks leaseUntil =>
      cases hApply
      rfl
  | unregisterWorker workerId =>
      cases hApply
      rfl
  | addNode node =>
      cases hApply
      rfl
  | removeNode nodeId =>
      cases hApply
      rfl

/- Applying an entry records its position. -/
theorem applyEntry_lastApplied
    {state state' : PersistedStateMachine}
    {entry : KronEntry}
    (hApply : applyEntry cal state entry = some state') :
    state'.lastAppliedLogId = some entry.logId := by
  simp only [applyEntry] at hApply
  split at hApply
  · cases hApply
    rfl
  · exact applyKronCommand_lastApplied hApply
  · cases hApply
    rfl

/- The last applied position is that of the last entry. -/
theorem applyEntries_lastApplied
    {state state' : PersistedStateMachine}
    {entries : List KronEntry}
    (hApply :
      applyEntries cal state entries = some state') :
    state'.lastAppliedLogId =
      (entries.getLast?.map KronEntry.logId).or
        state.lastAppliedLogId := by
  induction entries generalizing state with
  | nil =>
      cases hApply
      rfl
  | cons entry entries ih =>
      rcases Machine.run_cons_eq_some hApply with
        ⟨next, hNext, hRest⟩
      rw [ih hRest, applyEntry_lastApplied hNext]
      cases entries with
      | nil => rfl
      | cons e es =>
          rw [List.getLast?_cons_cons,
            List.getLast?_eq_some_getLast
              (List.cons_ne_nil e es)]
          rfl

end Kron

------------------------------------------------------------
-- Folds Of The Committed Entries
------------------------------------------------------------

namespace Kron

variable {cal : Calendar}
variable {committed : List KronEntry}

theorem foldOf_lastApplied
    {n : Nat}
    {state : PersistedStateMachine}
    (hFold : FoldOf cal committed n state) :
    state.lastAppliedLogId = appliedAt committed n := by
  rw [applyEntries_lastApplied hFold]
  simp [appliedAt, PersistedStateMachine.default]

/- Distinct positions number the committed entries. -/
theorem appliedAt_inj
    (hDistinct : (committed.map KronEntry.logId).Nodup)
    {m n : Nat}
    (hm : m ≤ committed.length)
    (hn : n ≤ committed.length)
    (hEq : appliedAt committed m = appliedAt committed n) :
    m = n := by
  have hAt :
      ∀ k, k ≤ committed.length →
        appliedAt committed k =
          if k = 0 then none
          else (committed.map KronEntry.logId)[k - 1]? := by
    intro k hk
    unfold appliedAt
    rw [List.getLast?_eq_getElem?, List.length_take,
      Nat.min_eq_left hk]
    cases k with
    | zero => simp
    | succ k => simp
  rw [hAt m hm, hAt n hn] at hEq
  have hSome :
      ∀ k, k ≤ committed.length → k ≠ 0 →
        (committed.map KronEntry.logId)[k - 1]? ≠ none := by
    intro k hk hPos
    simp
    omega
  by_cases hm0 : m = 0
  · by_cases hn0 : n = 0
    · omega
    · rw [if_pos hm0, if_neg hn0] at hEq
      exact (hSome n hn hn0 hEq.symm).elim
  · by_cases hn0 : n = 0
    · rw [if_neg hm0, if_pos hn0] at hEq
      exact (hSome m hm hm0 hEq).elim
    · rw [if_neg hm0, if_neg hn0] at hEq
      have hLt :
          m - 1 < (committed.map KronEntry.logId).length := by
        rw [List.length_map]
        omega
      have hIndex :=
        (List.getElem?_inj hLt hDistinct).mp hEq
      omega

/- A batch of the next entries leads to a later fold. -/
theorem foldOf_apply
    {n : Nat}
    {state state' : PersistedStateMachine}
    {entries : List KronEntry}
    (hFold : FoldOf cal committed n state)
    (hLe : n ≤ committed.length)
    (hNext : entries <+: committed.drop n)
    (hApply :
      applyEntries cal state entries = some state') :
    n + entries.length ≤ committed.length ∧
      FoldOf cal committed (n + entries.length) state' := by
  have hLength := hNext.length_le
  rw [List.length_drop] at hLength
  refine ⟨by omega, ?_⟩
  have hTake :
      committed.take (n + entries.length) =
        committed.take n ++ entries := by
    rw [List.take_add, List.prefix_iff_eq_take.mp hNext]
    simp
  unfold FoldOf applyEntries at hFold ⊢
  rw [hTake, Machine.run_append, hFold]
  exact hApply

end Kron

------------------------------------------------------------
-- Agreement
------------------------------------------------------------

namespace Kron

open Text
open FileSystem

variable {ι : Type} [DecidableEq ι]
variable {cal : Calendar}
variable {codecs : StoreCodecs}
variable {dataDir : String}
variable {committed : List KronEntry}

/- The state is a fold of some first committed entries. -/
def IsFold
    (cal : Calendar)
    (committed : List KronEntry)
    (state : PersistedStateMachine) : Prop :=
  ∃ n ≤ committed.length, FoldOf cal committed n state

/- What a directory gives back as its state is a fold. -/
def DirFolds
    (cal : Calendar)
    (codecs : StoreCodecs)
    (committed : List KronEntry)
    (dir : StoreDir) : Prop :=
  ∀ state, readState codecs dir = .ok state →
    IsFold cal committed state

/- The invariant of one replica. -/
def Replica.Folds
    (cal : Calendar)
    (codecs : StoreCodecs)
    (committed : List KronEntry) :
    Replica → Prop
| .up store dir =>
    IsFold cal committed store.stateMachine ∧
      DirFolds cal codecs committed dir ∧
      KeyedByIndex store.logs
| .down dir => DirFolds cal codecs committed dir

/- A snapshot in transit is the state of a fold. -/
def SnapshotFolds
    (cal : Calendar)
    (codecs : StoreCodecs)
    (committed : List KronEntry)
    (snapshot : SnapshotMeta × Bytes) : Prop :=
  ∃ state,
    IsFold cal committed state ∧
      snapshot.1.lastLogId = state.lastAppliedLogId ∧
      snapshot.1.lastMembership = state.lastMembership ∧
      snapshot.2 = utf8 (codecs.stateMachine.toText state)

structure ReplicaSet.Inv
    (cal : Calendar)
    (codecs : StoreCodecs)
    (committed : List KronEntry)
    (s : ReplicaSet ι) : Prop where
  replicas :
    ∀ i, (s.replicas i).Folds cal codecs committed
  snapshots :
    ∀ snapshot ∈ s.snapshots,
      SnapshotFolds cal codecs committed snapshot

theorem isFold_default :
    IsFold cal committed .default :=
  ⟨0, Nat.zero_le _, rfl⟩

omit [DecidableEq ι] in
/- A delivered call keeps the state a fold. -/
theorem isFold_update
    (hLossless : codecs.Lossless)
    (hDistinct : (committed.map KronEntry.logId).Nodup)
    {s : ReplicaSet ι}
    (hInv : s.Inv cal codecs committed)
    {store store' : PersistedRaftStore}
    {call : StoreCall}
    (hFold : IsFold cal committed store.stateMachine)
    (hDelivered : Delivered committed s store call)
    (hUpdate :
      call.update cal codecs store = some (.ok store')) :
    IsFold cal committed store'.stateMachine := by
  cases call with
  | saveVote vote =>
      cases hUpdate
      exact hFold
  | saveCommitted position =>
      cases hUpdate
      exact hFold
  | append entries =>
      cases hUpdate
      exact hFold
  | truncate logId =>
      cases hUpdate
      exact hFold
  | purge logId =>
      cases hUpdate
      exact hFold
  | apply entries =>
      rcases Option.map_eq_some_iff.mp hUpdate with
        ⟨state, hApply, hStore⟩
      cases hStore
      rcases hFold with ⟨n, hLe, hFold⟩
      rcases hDelivered with ⟨m, hLe', hLast, hNext⟩
      have hSame : m = n := by
        apply appliedAt_inj hDistinct hLe' hLe
        rw [← hLast, foldOf_lastApplied hFold]
      rw [hSame] at hNext
      rcases foldOf_apply hFold hLe hNext hApply with
        ⟨hLe'', hFold'⟩
      exact ⟨_, hLe'', hFold'⟩
  | installSnapshot info snapshot =>
      rcases hInv.snapshots _ hDelivered with
        ⟨state, hState, hLast, hMembership, hBytes⟩
      simp only at hLast hMembership hBytes
      have hRead :
          codecs.stateMachine.fromReader snapshot =
            .ok state := by
        rw [hBytes, JsonCodec.fromReader_utf8]
        exact hLossless.stateMachine state
      simp only [StoreCall.update, hRead] at hUpdate
      cases hUpdate
      rw [hLast, hMembership]
      exact hState

/- A crash leaves the old state or the new one. -/
theorem dirFolds_crash
    (hLossless : codecs.Lossless)
    {dir : StoreDir}
    {order : List String}
    {store' : PersistedRaftStore}
    (hDir : DirFolds cal codecs committed dir)
    (hFold : IsFold cal committed store'.stateMachine)
    (hOrder : order.Perm (segmentPaths dir))
    (hKeyed : KeyedByIndex store'.logs)
    (k : Nat) :
    DirFolds cal codecs committed
      (crash dir (persistOps codecs order store') k) := by
  intro state hRead
  rcases readState_crash hLossless hOrder hKeyed k with
    hOld | hNew
  · rw [hOld] at hRead
    exact hDir state hRead
  · rw [hNew] at hRead
    cases hRead
    exact hFold

/- Opening does not write the state. -/
theorem dirFolds_openOps
    {dir : StoreDir}
    (hDir : DirFolds cal codecs committed dir)
    (k : Nat) :
    DirFolds cal codecs committed
      (crash dir (openOps codecs dir) k) := by
  have hSpares :
      Spares StoreFile.state.path (openOps codecs dir) := by
    unfold openOps
    split
    · intro op hOp
      cases hOp
    · split
      · exact spares_other _ (by decide)
      · intro op hOp
        cases hOp
  have hGet :
      (crash dir (openOps codecs dir)
          k)[StoreFile.state.path]? =
        dir[StoreFile.state.path]? := by
    apply runAll_get_of_untouched
    intro op hOp
    exact hSpares op (List.mem_of_mem_take hOp)
  intro state hRead
  rw [readState_congr codecs hGet] at hRead
  exact hDir state hRead

theorem crash_length
    (dir : StoreDir)
    (ops : List (Op String Bytes)) :
    crash dir ops ops.length = runAll dir ops := by
  unfold crash
  rw [List.take_length]

theorem inv_set
    {s : ReplicaSet ι}
    (hInv : s.Inv cal codecs committed)
    (i : ι)
    {replica : Replica}
    (hReplica : replica.Folds cal codecs committed) :
    (s.set i replica).Inv cal codecs committed := by
  refine ⟨?_, hInv.snapshots⟩
  intro j
  unfold ReplicaSet.set
  by_cases hEq : j = i
  · subst hEq
    simpa using hReplica
  · simpa [Function.update, hEq] using hInv.replicas j

omit [DecidableEq ι] in
/- A completed call keeps the invariant of its replica. -/
theorem folds_storeStep
    (hLossless : codecs.Lossless)
    (hDistinct : (committed.map KronEntry.logId).Nodup)
    {s : ReplicaSet ι}
    (hInv : s.Inv cal codecs committed)
    {store : PersistedRaftStore}
    {dir : StoreDir}
    {call : StoreCall}
    {order : List String}
    {after : PersistedRaftStore × StoreDir}
    (hUp :
      (Replica.up store dir).Folds cal codecs committed)
    (hDelivered : Delivered committed s store call)
    (hStep :
      storeStep cal codecs (store, dir) (call, order) =
        some after) :
    (Replica.up after.1 after.2).Folds cal codecs
      committed := by
  rcases storeStep_cases hStep with
    ⟨_, _, rfl⟩ | ⟨store', hUpdate, _, hOrder, rfl⟩
  · exact hUp
  · rcases hUp with ⟨hFold, hDir, hKeyed⟩
    have hFold' :=
      isFold_update hLossless hDistinct hInv hFold
        hDelivered hUpdate
    have hKeyed' := keyedByIndex_update hKeyed hUpdate
    have hDir' :=
      dirFolds_crash hLossless hDir hFold' hOrder hKeyed'
        (persistOps codecs order store').length
    rw [crash_length] at hDir'
    exact ⟨hFold', hDir', hKeyed'⟩

omit [DecidableEq ι] in
/- A process that stops inside a call leaves a fold. -/
theorem dirFolds_crashedDir
    (hLossless : codecs.Lossless)
    (hDistinct : (committed.map KronEntry.logId).Nodup)
    {s : ReplicaSet ι}
    (hInv : s.Inv cal codecs committed)
    {store : PersistedRaftStore}
    {dir : StoreDir}
    {call : StoreCall}
    {order : List String}
    (hUp :
      (Replica.up store dir).Folds cal codecs committed)
    (hDelivered : Delivered committed s store call)
    (hOrder : order.Perm (segmentPaths dir))
    (k : Nat) :
    DirFolds cal codecs committed
      (crashedDir cal codecs store dir call order k) := by
  rcases hUp with ⟨hFold, hDir, hKeyed⟩
  unfold crashedDir
  split
  · rename_i store' hUpdate
    exact
      dirFolds_crash hLossless hDir
        (isFold_update hLossless hDistinct hInv hFold
          hDelivered hUpdate)
        hOrder (keyedByIndex_update hKeyed hUpdate) k
  · exact hDir

/- What is opened is a fold. -/
theorem folds_openStore
    {dir : StoreDir}
    {store : PersistedRaftStore}
    (hDir : DirFolds cal codecs committed dir)
    (hOpen : openStore codecs dataDir dir = .ok store) :
    (Replica.up store
        (runAll dir (openOps codecs dir))).Folds cal codecs
      committed := by
  rcases (openStore_eq_ok_iff store).mp hOpen with
    ⟨manifest, hOpens⟩
  have hDir' :=
    dirFolds_openOps hDir (openOps codecs dir).length
  rw [crash_length] at hDir'
  exact ⟨hDir _ hOpens.state, hDir', hOpens.keyed⟩

/- Every step keeps the invariant. -/
theorem inv_replicaStep
    (hLossless : codecs.Lossless)
    (hDistinct : (committed.map KronEntry.logId).Nodup)
    {s s' : ReplicaSet ι}
    {label : ReplicaLabel ι}
    (hInv : s.Inv cal codecs committed)
    (hDelivers : Delivers committed s label)
    (hStep :
      replicaStep cal codecs dataDir s label = some s') :
    s'.Inv cal codecs committed := by
  cases label with
  | call i call order =>
      simp only [replicaStep] at hStep
      split at hStep
      · cases hStep
      · rename_i store dir hReplica
        rcases Option.map_eq_some_iff.mp hStep with
          ⟨after, hCall, rfl⟩
        have hUp := hInv.replicas i
        rw [hReplica] at hUp
        exact
          inv_set hInv i
            (folds_storeStep hLossless hDistinct hInv hUp
              (hDelivers store dir hReplica) hCall)
  | crash i call order k =>
      simp only [replicaStep] at hStep
      split at hStep
      · cases hStep
      · rename_i store dir hReplica
        split at hStep
        · rename_i hOrder
          cases hStep
          have hUp := hInv.replicas i
          rw [hReplica] at hUp
          exact
            inv_set hInv i
              (dirFolds_crashedDir hLossless hDistinct hInv
                hUp (hDelivers store dir hReplica) hOrder k)
        · cases hStep
  | stop i =>
      simp only [replicaStep] at hStep
      split at hStep
      · cases hStep
      · rename_i store dir hReplica
        cases hStep
        have hUp := hInv.replicas i
        rw [hReplica] at hUp
        exact inv_set hInv i hUp.2.1
  | reopen i =>
      simp only [replicaStep] at hStep
      split at hStep
      · cases hStep
      · rename_i dir hReplica
        have hDown := hInv.replicas i
        rw [hReplica] at hDown
        split at hStep
        · rename_i store hOpen
          cases hStep
          exact inv_set hInv i (folds_openStore hDown hOpen)
        · cases hStep
          have hDir :=
            dirFolds_openOps hDown
              (openOps codecs dir).length
          rw [crash_length] at hDir
          exact inv_set hInv i hDir
  | crashOpen i k =>
      simp only [replicaStep] at hStep
      split at hStep
      · cases hStep
      · rename_i dir hReplica
        cases hStep
        have hDown := hInv.replicas i
        rw [hReplica] at hDown
        exact inv_set hInv i (dirFolds_openOps hDown k)
  | snapshot i =>
      simp only [replicaStep] at hStep
      split at hStep
      · cases hStep
      · rename_i store dir hReplica
        cases hStep
        refine ⟨hInv.replicas, ?_⟩
        intro snapshot hMem
        rcases List.mem_append.mp hMem with hOld | hNew
        · exact hInv.snapshots snapshot hOld
        · have hUp := hInv.replicas i
          rw [hReplica] at hUp
          rw [List.mem_singleton.mp hNew]
          exact
            ⟨store.stateMachine, hUp.1, rfl, rfl, rfl⟩

omit [DecidableEq ι] in
theorem inv_init
    (cal : Calendar)
    (codecs : StoreCodecs)
    (committed : List KronEntry) :
    (ReplicaSet.init : ReplicaSet ι).Inv cal codecs
      committed := by
  constructor
  · intro i state hRead
    simp only [readState,
      Std.ExtTreeMap.getElem?_empty, if_true] at hRead
    cases hRead
    exact isFold_default
  · intro snapshot hMem
    cases hMem

/-
  In every run the state machine of a running replica is the
  fold of the committed entries up to its last applied one,
  and replicas with the same last applied entry are equal.
-/
theorem replicas_agree
    (cal : Calendar)
    (codecs : StoreCodecs)
    (hLossless : codecs.Lossless)
    (dataDir : String)
    (committed : List KronEntry)
    (hDistinct : (committed.map KronEntry.logId).Nodup)
    (labels : List (ReplicaLabel ι))
    (s : ReplicaSet ι)
    (hMeets :
      Machine.Meets (replicaStep cal codecs dataDir)
        (Delivers committed) .init labels)
    (hRun :
      Machine.run (replicaStep cal codecs dataDir) .init
        labels = some s) :
    (∀ i store dir, s.replicas i = .up store dir →
        (∃ n ≤ committed.length,
          store.stateMachine.lastAppliedLogId =
            appliedAt committed n) ∧
        ∀ n ≤ committed.length,
          store.stateMachine.lastAppliedLogId =
              appliedAt committed n →
            applyEntries cal .default (committed.take n) =
              some store.stateMachine) ∧
      ∀ i j store store' dir dir',
        s.replicas i = .up store dir →
        s.replicas j = .up store' dir' →
        store.stateMachine.lastAppliedLogId =
            store'.stateMachine.lastAppliedLogId →
          store.stateMachine = store'.stateMachine := by
  have hInv : s.Inv cal codecs committed :=
    Machine.run_invariant
      (fun s : ReplicaSet ι => s.Inv cal codecs committed)
      (fun _ _ _ hInv hDelivers hStep =>
        inv_replicaStep hLossless hDistinct hInv hDelivers
          hStep)
      (inv_init cal codecs committed) hMeets hRun
  have hFolds :
      ∀ i store dir, s.replicas i = .up store dir →
        IsFold cal committed store.stateMachine := by
    intro i store dir hReplica
    have hUp := hInv.replicas i
    rw [hReplica] at hUp
    exact hUp.1
  have hFold :
      ∀ i store dir, s.replicas i = .up store dir →
        ∀ n ≤ committed.length,
          store.stateMachine.lastAppliedLogId =
              appliedAt committed n →
            FoldOf cal committed n store.stateMachine := by
    intro i store dir hReplica n hLe hLast
    rcases hFolds i store dir hReplica with
      ⟨m, hLe', hFold⟩
    have hSame : m = n := by
      apply appliedAt_inj hDistinct hLe' hLe
      rw [← hLast, foldOf_lastApplied hFold]
    rw [← hSame]
    exact hFold
  refine ⟨?_, ?_⟩
  · intro i store dir hReplica
    rcases hFolds i store dir hReplica with
      ⟨n, hLe, hFold'⟩
    exact
      ⟨⟨n, hLe, foldOf_lastApplied hFold'⟩,
        hFold i store dir hReplica⟩
  · intro i j store store' dir dir' hi hj hLast
    rcases hFolds i store dir hi with ⟨n, hLe, hFold'⟩
    have hOther :=
      hFold j store' dir' hj n hLe
        (by rw [← hLast, foldOf_lastApplied hFold'])
    unfold FoldOf at hFold' hOther
    rw [hFold'] at hOther
    exact Option.some.inj hOther

end Kron

------------------------------------------------------------
-- Two Replicas And A Snapshot
------------------------------------------------------------

namespace Kron

open FileSystem

/- A new store that has applied the first entry. -/
def appliedStore : PersistedRaftStore :=
  { PersistedRaftStore.default with
    stateMachine := firstApplied }

noncomputable def appliedDir : StoreDir :=
  runAll freshDir
    (persistOps blankCodecs (segmentPaths freshDir)
      appliedStore)

theorem fits_appliedStore :
    appliedStore.Fits blankCodecs := by
  intro e hMem
  have hNone : appliedStore.logs.vals = [] :=
    (vals_eq_nil_iff _).mpr rfl
  rw [hNone] at hMem
  cases hMem

/- The snapshot of the first replica. -/
noncomputable def firstSnapshot : SnapshotMeta × Bytes :=
  getCurrentSnapshot blankCodecs appliedStore

/-
  The first replica applies the entry and takes a snapshot,
  which the second one installs.
-/
noncomputable def snapshotRun : List (ReplicaLabel Bool) :=
  [.reopen false,
    .call false (.apply [blankEntry 1])
      (segmentPaths freshDir),
    .snapshot false,
    .reopen true,
    .call true
      (.installSnapshot firstSnapshot.1 firstSnapshot.2)
      (segmentPaths freshDir)]

/- A call that gets through, where its update does. -/
theorem storeStep_of_update
    {cal : Calendar}
    {codecs : StoreCodecs}
    {store store' : PersistedRaftStore}
    {dir : StoreDir}
    {call : StoreCall}
    {order : List String}
    (hUpdate :
      call.update cal codecs store = some (.ok store'))
    (hFits : store'.Fits codecs)
    (hOrder : order.Perm (segmentPaths dir)) :
    storeStep cal codecs (store, dir) (call, order) =
      some
        (store', runAll dir (persistOps codecs order store')) := by
  simp only [storeStep, hUpdate]
  rw [if_pos ⟨hFits, hOrder⟩]

/- Installing the snapshot of a store takes its state over. -/
theorem update_currentSnapshot
    (cal : Calendar)
    {codecs : StoreCodecs}
    (hLossless : codecs.Lossless)
    (store source : PersistedRaftStore) :
    (StoreCall.installSnapshot
          (getCurrentSnapshot codecs source).1
          (getCurrentSnapshot codecs source).2).update cal
        codecs store =
      some
        (.ok
          { store with
            stateMachine := source.stateMachine }) := by
  have hRead :
      codecs.stateMachine.fromReader
          (getCurrentSnapshot codecs source).2 =
        .ok source.stateMachine := by
    unfold getCurrentSnapshot
    rw [JsonCodec.fromReader_utf8]
    exact hLossless.stateMachine source.stateMachine
  simp only [StoreCall.update, hRead]
  rfl

theorem storeStep_apply :
    storeStep utcCalendar blankCodecs (.default, freshDir)
        (.apply [blankEntry 1], segmentPaths freshDir) =
      some (appliedStore, appliedDir) := by
  have hUpdate :
      (StoreCall.apply [blankEntry 1]).update utcCalendar
          blankCodecs .default =
        some (.ok appliedStore) := rfl
  exact
    storeStep_of_update hUpdate fits_appliedStore
      (List.Perm.refl _)

theorem storeStep_install :
    storeStep utcCalendar blankCodecs (.default, freshDir)
        (.installSnapshot firstSnapshot.1 firstSnapshot.2,
          segmentPaths freshDir) =
      some (appliedStore, appliedDir) := by
  have hUpdate :
      (StoreCall.installSnapshot firstSnapshot.1
          firstSnapshot.2).update utcCalendar blankCodecs
          .default =
        some (.ok appliedStore) :=
    update_currentSnapshot utcCalendar blankCodecs_lossless
      .default appliedStore
  exact
    storeStep_of_update hUpdate fits_appliedStore
      (List.Perm.refl _)

theorem replicaStep_call
    {ι : Type} [DecidableEq ι]
    {cal : Calendar}
    {codecs : StoreCodecs}
    {dataDir : String}
    {s : ReplicaSet ι}
    {i : ι}
    {store store' : PersistedRaftStore}
    {dir dir' : StoreDir}
    {call : StoreCall}
    {order : List String}
    (hUp : s.replicas i = .up store dir)
    (hStep :
      storeStep cal codecs (store, dir) (call, order) =
        some (store', dir')) :
    replicaStep cal codecs dataDir s
        (.call i call order) =
      some (s.set i (.up store' dir')) := by
  simp only [replicaStep, hUp, hStep]
  rfl

theorem replicaStep_reopen
    {ι : Type} [DecidableEq ι]
    {s : ReplicaSet ι}
    {i : ι}
    (hDown : s.replicas i = .down ∅) :
    replicaStep utcCalendar blankCodecs "/data" s
        (.reopen i) =
      some (s.set i (.up .default freshDir)) := by
  have hOpen := openStore_empty blankCodecs "/data"
  simp only [replicaStep, hDown, hOpen]
  rfl

/- The replicas after each step of the run. -/
noncomputable def openedFirst : ReplicaSet Bool :=
  ReplicaSet.init.set false (.up .default freshDir)

noncomputable def appliedFirst : ReplicaSet Bool :=
  openedFirst.set false (.up appliedStore appliedDir)

noncomputable def takenFirst : ReplicaSet Bool :=
  { appliedFirst with snapshots := [firstSnapshot] }

noncomputable def openedSecond : ReplicaSet Bool :=
  takenFirst.set true (.up .default freshDir)

noncomputable def installedSecond : ReplicaSet Bool :=
  openedSecond.set true (.up appliedStore appliedDir)

theorem snapshotRun_steps :
    replicaStep utcCalendar blankCodecs "/data" .init
          (.reopen false) = some openedFirst ∧
      replicaStep utcCalendar blankCodecs "/data"
          openedFirst
          (.call false (.apply [blankEntry 1])
            (segmentPaths freshDir)) = some appliedFirst ∧
      replicaStep utcCalendar blankCodecs "/data"
          appliedFirst (.snapshot false) =
        some takenFirst ∧
      replicaStep utcCalendar blankCodecs "/data"
          takenFirst (.reopen true) = some openedSecond ∧
      replicaStep utcCalendar blankCodecs "/data"
          openedSecond
          (.call true
            (.installSnapshot firstSnapshot.1
              firstSnapshot.2) (segmentPaths freshDir)) =
        some installedSecond :=
  ⟨replicaStep_reopen rfl,
    replicaStep_call rfl storeStep_apply, rfl,
    replicaStep_reopen rfl,
    replicaStep_call rfl storeStep_install⟩

theorem snapshotRun_run :
    Machine.run
        (replicaStep utcCalendar blankCodecs "/data")
        .init snapshotRun = some installedSecond := by
  rcases snapshotRun_steps with ⟨h₁, h₂, h₃, h₄, h₅⟩
  unfold snapshotRun
  rw [Machine.run_cons_of_step h₁,
    Machine.run_cons_of_step h₂,
    Machine.run_cons_of_step h₃,
    Machine.run_cons_of_step h₄,
    Machine.run_cons_of_step h₅, Machine.run_nil]

theorem snapshotRun_meets :
    Machine.Meets
      (replicaStep utcCalendar blankCodecs "/data")
      (Delivers [blankEntry 1]) .init snapshotRun := by
  rcases snapshotRun_steps with ⟨h₁, h₂, h₃, h₄, _⟩
  refine ⟨trivial, ?_⟩
  intro s hs
  cases h₁.symm.trans hs
  refine ⟨?_, ?_⟩
  · intro store dir hUp
    cases hUp
    exact ⟨0, Nat.zero_le _, rfl, List.prefix_rfl⟩
  intro s hs
  cases h₂.symm.trans hs
  refine ⟨trivial, ?_⟩
  intro s hs
  cases h₃.symm.trans hs
  refine ⟨trivial, ?_⟩
  intro s hs
  cases h₄.symm.trans hs
  refine ⟨?_, fun _ _ => trivial⟩
  intro store dir hUp
  have hTaken :
      openedSecond.snapshots = [firstSnapshot] := rfl
  simp only [Delivered]
  rw [hTaken, Prod.mk.eta]
  exact List.mem_singleton_self firstSnapshot

/- Both replicas hold the state after the first entry. -/
theorem replicas_agree_snapshotRun :
    Machine.run
          (replicaStep utcCalendar blankCodecs "/data")
          .init snapshotRun = some installedSecond ∧
      installedSecond.replicas false =
        .up appliedStore appliedDir ∧
      installedSecond.replicas true =
        .up appliedStore appliedDir ∧
      applyEntries utcCalendar .default
          ([blankEntry 1].take 1) =
        some appliedStore.stateMachine := by
  have hAgree :=
    replicas_agree utcCalendar blankCodecs
      blankCodecs_lossless "/data" [blankEntry 1]
      (List.nodup_singleton _) snapshotRun installedSecond
      snapshotRun_meets snapshotRun_run
  exact
    ⟨snapshotRun_run, rfl, rfl,
      (hAgree.1 true appliedStore appliedDir rfl).2 1
        (by simp) rfl⟩

end Kron
