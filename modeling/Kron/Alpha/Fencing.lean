import Kron.Alpha.Queue
import Kron.Server.RaftStore

/-
  A timer has one run at a time, and the tokens of its runs
  grow.

  A claim may reach a node as a posted command, past its own
  queue. Where none is posted, a timer has at most one run
  that is queued or held, in every run of the node, whatever
  its log held when it was opened. While one process runs,
  the tokens given out for a timer grow, and who may end a
  run holds the largest one.

  Key definitions include:
    * `Kron.Alpha.Section.postsClaim`
    * `Kron.Alpha.Section.isReopen`
    * `Kron.Alpha.Node.started`

  Key theorems include:
    * `Kron.Alpha.runEffect_of_step`
    * `Kron.Alpha.one_run_for_each_timer`
    * `Kron.Alpha.holder_has_largest_token`
-/

------------------------------------------------------------
-- One Section
------------------------------------------------------------

namespace Kron

namespace Alpha

open WorkQueue

namespace Section

/- Whether the section posts a claim. -/
def postsClaim : Section → Bool
| .submit (.posted command) _ => command.isClaim
| _ => false

def isReopen : Section → Bool
| .reopen _ _ => true
| _ => false

end Section

variable {cal : Calendar}
variable {codec : JsonCodec CommandEntry}
variable {node node' : Node}

/- No call that has appended is going to claim a run. -/
def NoClaims
    (node : Node) : Prop :=
  ∀ call ∈ node.unapplied, call.2.isClaim = false

theorem noClaims_of_nil
    (hNil : node.unapplied = []) :
    NoClaims node := by
  intro entry hMem
  rw [hNil] at hMem
  cases hMem

theorem noClaims_of_submitCase
    {call : Submission}
    {io : AppendIo}
    (hLabel :
      Section.postsClaim (.submit call io) = false)
    (hNoClaims : NoClaims node)
    (hCase : node.SubmitCase cal codec call io node') :
    NoClaims node' := by
  cases hCase with
  | refused => exact hNoClaims
  | failed command failure => exact hNoClaims
  | appended command hCommand hFailure =>
      intro entry hMem
      rcases List.mem_append.mp hMem with hOld | hNew
      · exact hNoClaims entry hOld
      · rw [List.mem_singleton] at hNew
        subst hNew
        rcases posted_or_other hCommand with rfl | hOther
        · exact hLabel
        · exact RaftCommand.isClaim_eq_false hOther

theorem noClaims_of_eq
    (hNoClaims : NoClaims node)
    (hEq : node'.unapplied = node.unapplied) :
    NoClaims node' := by
  unfold NoClaims
  rw [hEq]
  exact hNoClaims

/- Sections change the runs as a work queue changes. -/
theorem runEffect_of_lockedStep
    {label : Section}
    (hNoClaims : NoClaims node)
    (hStep :
      node.lockedStep cal codec label = some node') :
    RunEffect node node' ∧ NoClaims node' := by
  cases label with
  | submit call io => cases hStep
  | reopen args clock => cases hStep
  | apply index clock =>
      simp only [Node.lockedStep, Node.applyNext] at hStep
      split at hStep
      · cases hStep
      · rename_i call command hGet
        cases hStep
        constructor
        · refine runEffect_settle rfl rfl ?_
          intro state hState
          have hClaim :=
            hNoClaims (call, command)
              (List.mem_of_getElem? hGet)
          exact steps_applySubmission hClaim hState
        · intro entry hMem
          rw [(Node.settle_eq _ _).2.1] at hMem
          exact
            hNoClaims entry (List.mem_of_mem_eraseIdx hMem)
  | heartbeat workerId instant =>
      have hCase := node.heartbeatWorker_cases workerId instant
      rw [Option.some.inj hStep] at hCase
      exact
        ⟨runEffect_of_heartbeatCase hCase,
          noClaims_of_eq hNoClaims hCase.unapplied⟩
  | claim workerId tasks io now later =>
      simp only [Node.lockedStep] at hStep
      split at hStep
      · have hCase :=
          node.claimPendingFor_cases codec workerId tasks io
            now later
        rw [Option.some.inj hStep] at hCase
        exact
          ⟨runEffect_of_claimCase hCase,
            noClaims_of_eq hNoClaims hCase.unapplied⟩
      · cases hStep
        exact ⟨.same rfl rfl, hNoClaims⟩
  | complete runId request io completedAt now =>
      have hCase :=
        node.completeRun_cases cal codec runId request io
          completedAt now
      rw [Option.some.inj hStep] at hCase
      exact
        ⟨runEffect_of_completeCase hCase,
          noClaims_of_eq hNoClaims hCase.unapplied⟩
  | fail runId request io failedAt =>
      have hCase :=
        node.failRun_cases codec runId request io failedAt
      rw [Option.some.inj hStep] at hCase
      exact
        ⟨runEffect_of_failCase hCase,
          noClaims_of_eq hNoClaims hCase.unapplied⟩
  | enqueue now order =>
      rcases Option.map_eq_some_iff.mp hStep with
        ⟨state, hEnqueue, rfl⟩
      exact
        ⟨.quiet rfl (steps_enqueueDueRuns hEnqueue), hNoClaims⟩
  | expire clock lost expired =>
      rcases Option.map_eq_some_iff.mp hStep with
        ⟨state, hExpire, rfl⟩
      exact
        ⟨.quiet rfl (steps_expireWorkers hExpire), hNoClaims⟩
  | shutdown =>
      cases hStep
      exact ⟨.same rfl rfl, hNoClaims⟩

/-
  One section of a process: the runs change as a work queue,
  and no claim waits to be applied.
-/
theorem runEffect_of_step
    {label : Section}
    (hPosts : label.postsClaim = false)
    (hReopen : label.isReopen = false)
    (hNoClaims : NoClaims node)
    (hStep : node.step cal codec label = some node') :
    RunEffect node node' ∧ NoClaims node' := by
  rcases Node.step_cases hStep with
    ⟨call, io, rfl, rfl⟩ | ⟨args, clock, rfl, _⟩ |
      ⟨_, rfl⟩ | ⟨_, hLocked⟩
  · have hCase := node.submit_cases cal codec call io
    exact
      ⟨runEffect_of_submitCase hCase,
        noClaims_of_submitCase hPosts hNoClaims hCase⟩
  · cases hReopen
  · exact ⟨.same rfl rfl, hNoClaims⟩
  · exact runEffect_of_lockedStep hNoClaims hLocked

end Alpha

end Kron

------------------------------------------------------------
-- A Run Of One Timer
------------------------------------------------------------

namespace Kron

namespace Alpha

open Text

deriving instance Countable for CommandEntry

def soloArgs : OpenArgs where
  nodeId := "n1"
  httpAddr := "127.0.0.1:7474"
  raftAddr := "127.0.0.1:7475"
  leaderId := none

/- A clock that stands still. -/
def stillClock
    (now : DateTime) : Nat → Readings :=
  fun _ => ⟨now, 0⟩

/- An append that succeeds. -/
def appendAt
    (ts : DateTime) : AppendIo where
  ts := ts
  failure := none

/- A request for a timer that is due every second. -/
def emailRequest : CreateTimerRequest where
  name := "email"
  tenantId := none
  cron := none
  every := some "1s"
  after := none
  at_ := none
  timezone := none
  maxAttempts := some 2
  task := "digest"
  payload := none

/- A timer is created and its first run claimed by `w1`. -/
def emailRun : List Section :=
  [.submit (.create emailRequest 0 0) (appendAt 0),
    .apply 0 ⟨0, 0⟩,
    .submit (.register ⟨"w1", ["digest"], none⟩ 0)
      (appendAt 0),
    .apply 0 ⟨0, 0⟩,
    .enqueue (second 1) [("email", "run_1")],
    .claim "w1" ["digest"] (appendAt (second 1)) (second 1)
      (second 1)]

/- The lease of `w1` runs out, and `w2` claims the retry. -/
def lateRun : List Section :=
  emailRun ++
    [.expire ⟨second 31, 0⟩ [] ["run_1"],
      .claim "w2" ["digest"] (appendAt (second 31))
        (second 31) (second 31)]

/- The entries that the run logs. -/
def emailEntries : List CommandEntry :=
  [{ v := 1
     ts := 0
     command := .createTimer
      { id := "email"
        tenantId := none
        schedule := .every 1
        retry := { RetryPolicy.default with maxAttempts := 2 }
        timezone := "UTC"
        target := .workerTask "digest" "null"
        createdAt := 0 }
      (some (second 1)) },
    { v := 1
      ts := 0
      command := .registerWorker "w1" ["digest"]
        (second 30) },
    { v := 1
      ts := second 1
      command := .claimRun "email" "run_1" "w1" 1 1
        (second 31) },
    { v := 1
      ts := second 31
      command := .claimRun "email" "run_1" "w2" 2 2
        (second 61) }]

/- The members of a line of the log. -/
def commandMembers
    (ts command : String) : String :=
  "\"v\":1,\"ts\":\"1970-01-01T00:00:" ++ ts ++
    "Z\",\"command\":\x7b" ++ command ++ "\x7d"

def claimMembers
    (worker token deadline : String) : String :=
  "\"type\":\"CLAIM_RUN\",\"timer_id\":\"email\"," ++
    "\"run_id\":\"run_1\",\"worker_id\":\"" ++ worker ++
    "\",\"fencing_token\":" ++ token ++
    ",\"attempt\":" ++ token ++
    ",\"lease_deadline\":\"1970-01-01T00:" ++ deadline ++
    "Z\""

def emailTexts : List String :=
  [commandMembers "00"
      ("\"type\":\"CREATE_TIMER\",\"spec\":\x7b" ++
        "\"id\":\"email\",\"tenant_id\":null," ++
        "\"schedule\":\x7b\"kind\":\"every\"," ++
        "\"seconds\":1\x7d,\"retry\":\x7b" ++
        "\"max_attempts\":2,\"backoff\":\x7b" ++
        "\"kind\":\"exponential\"," ++
        "\"base_seconds\":30,\"max_seconds\":3600" ++
        "\x7d\x7d,\"timezone\":\"UTC\"," ++
        "\"target\":\x7b\"kind\":\"worker_task\"," ++
        "\"task\":\"digest\",\"payload\":null\x7d," ++
        "\"created_at\":\"1970-01-01T00:00:00Z\"\x7d," ++
        "\"next_run_at\":\"1970-01-01T00:00:01Z\""),
    commandMembers "00"
      ("\"type\":\"REGISTER_WORKER\"," ++
        "\"worker_id\":\"w1\",\"tasks\":[\"digest\"]," ++
        "\"lease_until\":\"1970-01-01T00:00:30Z\""),
    commandMembers "01" (claimMembers "w1" "1" "00:31"),
    commandMembers "31" (claimMembers "w2" "2" "01:01")]

def emailRows : List (CommandEntry × String) :=
  emailEntries.zip emailTexts

theorem emailRows_bytes :
    (∀ bs ∈ objectBytes emailRows,
        35 ∉ bs ∧ newline ∉ bs) ∧
      (objectBytes emailRows).Pairwise SuffixFree := by
  simp only [objectBytes, emailRows, emailEntries,
    emailTexts, List.zip_cons_cons, List.zip_nil_right,
    List.map_cons, List.map_nil, List.forall_mem_cons,
    List.pairwise_cons]
  unfold braces commandMembers claimMembers
  simp only [utf8_append]
  decide +kernel

theorem emailRows_ok :
    TableOk (objectTable emailRows) :=
  tableOk_of_bytes
    (fun bs hbs => (emailRows_bytes.1 bs hbs).1)
    emailRows_bytes.2

/- A codec that writes the entries of the run as the real one. -/
noncomputable def emailCodec : JsonCodec CommandEntry :=
  tableCodec (objectTable emailRows)

theorem emailCodec_writesLine
    (entry : CommandEntry) :
    emailCodec.WritesLine entry := by
  apply tableCodec_writesLine emailRows_ok
  intro row hRow
  rcases List.mem_map.mp hRow with ⟨r, hr, rfl⟩
  exact
    (emailRows_bytes.1 _ (List.mem_map.mpr ⟨r, hr, rfl⟩)).2

/- The run of one timer, from a node in any state. -/
theorem exists_of_isSome
    (node : Node)
    (labels : List Section)
    (hSome :
      (Machine.run (Node.step utcCalendar emailCodec) node
        labels).isSome = true) :
    ∃ node',
      Machine.run (Node.step utcCalendar emailCodec) node
        labels = some node' :=
  Option.isSome_iff_exists.mp hSome

end Alpha

end Kron

------------------------------------------------------------
-- One Run For Each Timer
------------------------------------------------------------

namespace Kron

namespace Alpha

open WorkQueue

variable {cal : Calendar}
variable {codec : JsonCodec CommandEntry}
variable {node node' : Node}

theorem exclusive_of_runEffect
    (hExclusive : Exclusive node.state.queue)
    (hEffect : RunEffect node node') :
    Exclusive node'.state.queue := by
  cases hEffect with
  | quiet hHandouts hSteps =>
      exact exclusive_steps hExclusive hSteps
  | gave handout hHandouts hStep =>
      exact exclusive_step hExclusive hStep

/- What a restart leaves. -/
theorem restored_of_reopen
    {args : OpenArgs}
    {clock : Nat → Readings}
    (hReopen :
      node.reopen cal codec args clock = some node') :
    Restored node'.state.queue ∧ node'.unapplied = [] := by
  unfold Node.reopen at hReopen
  split at hReopen
  · rename_i state aof hOpen
    cases hReopen
    exact ⟨restored_of_openWithLeader hOpen, rfl⟩
  · cases hReopen

theorem exclusive_of_step
    {label : Section}
    (hPosts : label.postsClaim = false)
    (hInv : Exclusive node.state.queue ∧ NoClaims node)
    (hStep : node.step cal codec label = some node') :
    Exclusive node'.state.queue ∧ NoClaims node' := by
  cases hReopen : label.isReopen with
  | false =>
      rcases runEffect_of_step hPosts hReopen hInv.2 hStep with
        ⟨hEffect, hNoClaims⟩
      exact
        ⟨exclusive_of_runEffect hInv.1 hEffect, hNoClaims⟩
  | true =>
      cases label with
      | reopen args clock =>
          rcases restored_of_reopen hStep with
            ⟨hRestored, hNone⟩
          exact
            ⟨hRestored.exclusive, noClaims_of_nil hNone⟩
      | _ => cases hReopen

/-
  Whatever the log held at first, and however often the node
  is started again, a timer has at most one run that waits
  or is held, where no claim is posted to the node.
-/
theorem one_run_for_each_timer
    (cal : Calendar)
    (codec : JsonCodec CommandEntry)
    (args : OpenArgs)
    (file : Bytes)
    (labels : List Section)
    (node : Node)
    (hPosts : ∀ label ∈ labels, label.postsClaim = false)
    (hRun :
      Machine.run (Node.step cal codec)
        { Node.fresh args with aof := file } labels =
          some node) :
    (node.state.pending.map WorkerRun.timer).Nodup ∧
      (∀ (runId runId' : RunId) (run run' : ActiveRun),
        node.state.activeRuns[runId]? = some run →
          node.state.activeRuns[runId']? = some run' →
            run.timerId = run'.timerId → runId = runId') ∧
      (∀ run ∈ node.state.pending,
        ∀ active ∈ node.state.activeRuns.vals,
          active.timerId ≠ run.timer) := by
  have hMeets :
      Machine.Meets (Node.step cal codec)
        (fun _ label => label.postsClaim = false)
        { Node.fresh args with aof := file } labels :=
    Machine.meets_of_forall _ _ fun label hMem _ =>
      hPosts label hMem
  have hStart :
      Exclusive (Node.fresh args).state.queue ∧
        NoClaims { Node.fresh args with aof := file } :=
    ⟨(restored_new args.config).exclusive, noClaims_of_nil rfl⟩
  have hInv :
      Exclusive node.state.queue ∧ NoClaims node := by
    refine
      Machine.run_invariant
        (fun node =>
          Exclusive node.state.queue ∧ NoClaims node)
        ?_ hStart hMeets hRun
    intro node label node' hInv hPosts hStep
    exact exclusive_of_step hPosts hInv hStep
  refine ⟨?_, ?_, ?_⟩
  · have hQueued := hInv.1.queued
    unfold ClusterState.queue at hQueued
    rwa [List.map_map] at hQueued
  · intro runId runId' run run' hGet hGet' hEq
    exact
      hInv.1.held runId runId' (heldTicket run)
        (heldTicket run')
        (queue_held_eq_some.mpr ⟨run, hGet, rfl⟩)
        (queue_held_eq_some.mpr ⟨run', hGet', rfl⟩) hEq
  · intro run hMem active hHeld
    rcases (BTreeMap.mem_vals_iff _ _).mp hHeld with
      ⟨runId, hGet⟩
    exact
      hInv.1.apart (ticketOf run)
        (List.mem_map_of_mem hMem) runId (heldTicket active)
        (queue_held_eq_some.mpr ⟨active, hGet, rfl⟩)

/- The retry of a run whose lease ran out is its only run. -/
theorem one_run_for_each_timer_late :
    ∃ node,
      Machine.run (Node.step utcCalendar emailCodec)
          { Node.fresh soloArgs with aof := [] }
          (.reopen soloArgs (stillClock 0) :: lateRun) =
        some node ∧
      (node.state.pending.map WorkerRun.timer).Nodup ∧
        (∀ (runId runId' : RunId) (run run' : ActiveRun),
          node.state.activeRuns[runId]? = some run →
            node.state.activeRuns[runId']? = some run' →
              run.timerId = run'.timerId → runId = runId') ∧
        (∀ run ∈ node.state.pending,
          ∀ active ∈ node.state.activeRuns.vals,
            active.timerId ≠ run.timer) := by
  rcases exists_of_isSome
      { Node.fresh soloArgs with aof := [] }
      (.reopen soloArgs (stillClock 0) :: lateRun)
      (by decide +kernel) with ⟨node, hRun⟩
  exact
    ⟨node, hRun,
      one_run_for_each_timer _ _ soloArgs [] _ node
        (by decide) hRun⟩

end Alpha

end Kron

------------------------------------------------------------
-- Tokens In One Process
------------------------------------------------------------

namespace Kron

namespace Alpha

open WorkQueue

variable {cal : Calendar}
variable {codec : JsonCodec CommandEntry}
variable {node node' : Node}

/- A node whose directory has just been opened. -/
def Node.started
    (opened : ClusterState × Bytes) : Node where
  state := opened.1
  aof := opened.2
  unapplied := []
  poisoned := false
  logged := []
  handouts := []

theorem nextToken_le
    (k : Nat) :
    nextToken k ≤ k + 1 :=
  Nat.mod_le _ _

theorem lt_nextToken
    {k : Nat}
    (hRange : k + 1 < 2 ^ 64) :
    k < nextToken k := by
  unfold nextToken
  rw [Nat.mod_eq_of_lt hRange]
  exact Nat.lt_succ_self k

def Node.tickets
    (node : Node) : List (Ticket TimerId RunId) :=
  node.handouts.map Handout.ticket

/-
  A queue whose tokens grow, and stay in range for `left`
  more steps.
-/
structure Growing
    (given : List (Ticket TimerId RunId))
    (q : Queue TimerId RunId)
    (left : Nat) : Prop where
  exclusive : Exclusive q
  fenced : Fenced given q
  range : ∀ r, q.token r + left < 2 ^ 64

namespace Growing

variable {given : List (Ticket TimerId RunId)}
variable {q q' : Queue TimerId RunId}
variable {left : Nat}

theorem bound
    (hGrowing : Growing given q (left + 1))
    (r : TimerId) :
    q.token r ≤ 2 ^ 64 - 2 - left := by
  have hRange := hGrowing.range r
  omega

theorem grows
    (hGrowing : Growing given q (left + 1))
    {k : Nat}
    (hLe : k ≤ 2 ^ 64 - 2 - left) :
    k < nextToken k := by
  have hRange := hGrowing.range ""
  apply lt_nextToken
  omega

/- A step that does nothing uses up a step. -/
theorem idle
    (hGrowing : Growing given q (left + 1)) :
    Growing given q left where
  exclusive := hGrowing.exclusive
  fenced := hGrowing.fenced
  range := fun r => by
    have hRange := hGrowing.range r
    omega

theorem steps
    (hGrowing : Growing given q (left + 1))
    (hSteps : Steps nextToken q q') :
    Growing given q' left where
  exclusive := exclusive_steps hGrowing.exclusive hSteps
  fenced :=
    fenced_steps nextToken_le (fun _ => hGrowing.grows)
      hGrowing.exclusive (within_of_le hGrowing.bound)
      hGrowing.fenced hSteps
  range := fun r => by
    have hToken :=
      (within_steps nextToken_le hGrowing.exclusive
        (within_of_le hGrowing.bound) hSteps r).1
    have hLeft := hGrowing.range r
    omega

/- Giving out a ticket makes no new token. -/
theorem give
    {t : Ticket TimerId RunId}
    (hGrowing : Growing given q (left + 1))
    (hStep : Step nextToken q [t] q') :
    Growing (given ++ [t]) q' left where
  exclusive := exclusive_step hGrowing.exclusive hStep
  fenced :=
    fenced_step
      (fun r _ => hGrowing.grows (hGrowing.bound r))
      hGrowing.exclusive hGrowing.fenced hStep
  range := fun r => by
    have hRange := hGrowing.range r
    cases hStep with
    | give before after t hQueued =>
        have hToken :
            (q.give (before ++ after) t).token r =
              q.token r := rfl
        omega

end Growing

theorem growing_of_runEffect
    {left : Nat}
    (hGrowing :
      Growing node.tickets node.state.queue (left + 1))
    (hEffect : RunEffect node node') :
    Growing node'.tickets node'.state.queue left := by
  cases hEffect with
  | quiet hHandouts hSteps =>
      have hTickets : node'.tickets = node.tickets := by
        unfold Node.tickets
        rw [hHandouts]
      rw [hTickets]
      exact hGrowing.steps hSteps
  | gave handout hHandouts hStep =>
      have hTickets :
          node'.tickets =
            node.tickets ++ [handout.ticket] := by
        unfold Node.tickets
        rw [hHandouts, List.map_append]
        rfl
      rw [hTickets]
      exact hGrowing.give hStep

/-
  While one process runs, workers receive growing tokens for
  a timer, even after leases have expired; and whoever may
  end a run of it holds the largest token given out.
-/
theorem holder_has_largest_token
    (cal : Calendar)
    (codec : JsonCodec CommandEntry)
    (args : OpenArgs)
    (clock : Nat → Readings)
    (file : Option Bytes)
    (opened : ClusterState × Bytes)
    (labels : List Section)
    (node : Node)
    (hOpen :
      openWithLeader cal codec args clock file =
        some (.ok opened))
    (hPosts :
      ∀ label ∈ labels,
        label.postsClaim = false ∧ label.isReopen = false)
    (hRange :
      ∀ timerId,
        (opened.1.token timerId).toNat + labels.length <
          2 ^ 64)
    (hRun :
      Machine.run (Node.step cal codec) (Node.started opened)
        labels = some node) :
    (node.handouts.Pairwise fun handout later =>
      handout.run.timer = later.run.timer →
        handout.run.fencingToken <
          later.run.fencingToken) ∧
      (∀ runId workerId fencingToken active,
        node.state.owns runId workerId fencingToken =
            some active →
          ∀ handout ∈ node.handouts,
            handout.run.timer = active.timerId →
              handout.run.fencingToken ≤ fencingToken) := by
  have hMeets :
      Machine.Meets (Node.step cal codec)
        (fun _ label =>
          label.postsClaim = false ∧ label.isReopen = false)
        (Node.started opened) labels :=
    Machine.meets_of_forall _ _ fun label hMem _ =>
      hPosts label hMem
  have hRestored := restored_of_openWithLeader hOpen
  have hStart :
      NoClaims (Node.started opened) ∧
        Growing (Node.started opened).tickets
          (Node.started opened).state.queue labels.length :=
    ⟨noClaims_of_nil rfl, hRestored.exclusive,
      hRestored.fenced, hRange⟩
  have hInv :
      NoClaims node ∧
        Growing node.tickets node.state.queue 0 := by
    refine
      Machine.run_invariant_rest
        (fun node labels =>
          NoClaims node ∧
            Growing node.tickets node.state.queue
              labels.length)
        ?_ hStart hMeets hRun
    rintro node label labels node' ⟨hNoClaims, hGrowing⟩
      ⟨hPosts, hReopen⟩ hStep
    rcases runEffect_of_step hPosts hReopen hNoClaims
        hStep with ⟨hEffect, hNext⟩
    exact ⟨hNext, growing_of_runEffect hGrowing hEffect⟩
  have hFenced := hInv.2.fenced
  constructor
  · have hPairwise := hFenced.increasing
    unfold Increasing Node.tickets at hPairwise
    rw [List.pairwise_map] at hPairwise
    refine hPairwise.imp ?_
    intro handout later hLess hEq
    exact UInt64.lt_iff_toNat_lt.mpr (hLess hEq)
  · intro runId workerId fencingToken active hOwns handout
      hMem hEq
    rcases Option.filter_eq_some_iff.mp hOwns with
      ⟨hGet, hOwner⟩
    rw [Bool.and_eq_true, beq_iff_eq, beq_iff_eq] at hOwner
    have hHeld :=
      hFenced.held runId (heldTicket active)
        (queue_held_eq_some.mpr ⟨active, hGet, rfl⟩)
    have hTop :=
      hFenced.top handout.ticket (List.mem_map_of_mem hMem)
    have hLast := hFenced.bound handout.run.timer
    rw [UInt64.le_iff_toNat_le, ← hOwner.2]
    calc
      handout.run.fencingToken.toNat ≤
          lastToken node.tickets handout.run.timer := hTop
      _ ≤ node.state.queue.token handout.run.timer := hLast
      _ = node.state.queue.token active.timerId := by
        rw [hEq]
      _ = active.fencingToken.toNat := hHeld.symm

/- The retry of a run carries the token after its own. -/
theorem holder_has_largest_token_late :
    ∃ opened node,
      openWithLeader utcCalendar emailCodec soloArgs
          (stillClock 0) none = some (.ok opened) ∧
        Machine.run (Node.step utcCalendar emailCodec)
            (Node.started opened) lateRun = some node ∧
        (node.handouts.Pairwise fun handout later =>
          handout.run.timer = later.run.timer →
            handout.run.fencingToken <
              later.run.fencingToken) ∧
        (∀ runId workerId fencingToken active,
          node.state.owns runId workerId fencingToken =
              some active →
            ∀ handout ∈ node.handouts,
              handout.run.timer = active.timerId →
                handout.run.fencingToken ≤
                  fencingToken) := by
  have hOpen :
      openWithLeader utcCalendar emailCodec soloArgs
          (stillClock 0) none =
        some (.ok (ClusterState.new soloArgs.config, [])) :=
    rfl
  rcases exists_of_isSome
      (Node.started (ClusterState.new soloArgs.config, []))
      lateRun (by decide +kernel) with ⟨node, hRun⟩
  refine ⟨_, node, hOpen, hRun, ?_⟩
  refine
    holder_has_largest_token _ _ soloArgs (stillClock 0) none
      _ _ node hOpen (by decide) ?_ hRun
  intro timerId
  have hToken :
      (ClusterState.new soloArgs.config).token timerId = 0 := by
    simp [ClusterState.new, ClusterState.token]
  rw [hToken]
  decide

end Alpha

end Kron
