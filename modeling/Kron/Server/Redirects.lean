import Kron.Lib.Machine
import Kron.Server.Cluster

/-
  Redirects to the leader.

  A join records two nodes in the replicated table: the
  leader that handles it, and the node that joins. A leave
  changes the membership of Raft and leaves the table as it
  is. The table is keyed by name; a server that is not the
  leader looks for the first name that gives the number of
  the leader.

  Key definitions include:
    * `Kron.parseNodeId`
    * `Kron.notLeaderResponse`
    * `Kron.NodeEvent`
    * `Kron.RedirectState.step`
    * `Kron.RedirectsRight`
    * `Kron.FirstIsLatest`

  Key theorems include:
    * `Kron.RedirectState.Recorded.run`
    * `Kron.leaderHttp_eq_some_iff`
    * `Kron.redirects_right_iff`
-/

------------------------------------------------------------
-- Numbers And Answers
------------------------------------------------------------

namespace Kron

open Text

/-
  The number of a node: the digits of its name, or a hash of
  it where they are no `u64`.
-/
def parseNodeId
    (value : String) : UInt64 :=
  let digits :=
    String.ofList (value.toList.filter Char.isDigit)
  (parseU64 digits).getD
    ((utf8 value).foldl
      (fun hash byte =>
        (hash ^^^ byte.toUInt64) * 1099511628211)
      1469598103934665603)

/- The answer of a server that is not the leader. -/
structure NotLeaderResponse where
  error : String
  leaderId : Option UInt64
  leaderHttp : Option String
deriving DecidableEq, Repr

def notLeaderResponse
    (currentLeader : Option UInt64)
    (nodeId : UInt64)
    (httpAddr : String)
    (app : PersistedStateMachine) : NotLeaderResponse where
  error := "not_leader"
  leaderId := currentLeader
  leaderHttp :=
    match currentLeader with
    | none => none
    | some id =>
        if id = nodeId then
          some httpAddr
        else
          (app.nodes.vals.find? fun node =>
              parseNodeId node.nodeId == id).map
            NodeInfo.httpAddr

end Kron

------------------------------------------------------------
-- Joins And Leaves
------------------------------------------------------------

namespace Kron

/-
  What leaders handle, in the order of the log. A join
  announces its leader before it records the node.
-/
inductive NodeEvent where
| announce (leader : NodeInfo)
| join (node : NodeInfo)
| leave (name : String)
deriving DecidableEq, Repr

/- The command that is written; a leave writes none. -/
def NodeEvent.command : NodeEvent → Option RaftCommand
| .announce leader => some (.addNode leader)
| .join node => some (.addNode node)
| .leave _ => none

/-
  The events that a server has not applied, oldest first,
  those that it has, newest first, and its state.
-/
structure RedirectState where
  unapplied : List NodeEvent
  applied : List NodeEvent
  app : PersistedStateMachine

inductive RedirectLabel where
| handle (event : NodeEvent)
| apply

namespace RedirectState

/- A cluster before its first join. -/
def initial : RedirectState where
  unapplied := []
  applied := []
  app := .default

/- All events that were handled, newest first. -/
def handled
    (s : RedirectState) : List NodeEvent :=
  s.unapplied.reverse ++ s.applied

/- A leader handles an event, or the server applies one. -/
def step
    (cal : Calendar)
    (s : RedirectState) :
    RedirectLabel → Option RedirectState
| .handle event =>
    some { s with unapplied := s.unapplied ++ [event] }
| .apply =>
    match s.unapplied with
    | [] => none
    | event :: rest =>
        let s' : RedirectState :=
          { s with
            unapplied := rest
            applied := event :: s.applied }
        match event.command with
        | none => some s'
        | some command =>
            (applyKronCommand cal s.app command).map
              fun app => { s' with app := app }

end RedirectState

/- The last node that was recorded under a name. -/
def lastRecord :
    List NodeEvent → String → Option NodeInfo
| [], _ => none
| .announce node :: events, name =>
    if node.nodeId = name then
      some node
    else
      lastRecord events name
| .join node :: events, name =>
    if node.nodeId = name then
      some node
    else
      lastRecord events name
| .leave _ :: events, name => lastRecord events name

/- The most recent join that gives a number. -/
def lastJoin :
    List NodeEvent → UInt64 → Option NodeInfo
| [], _ => none
| .join node :: events, id =>
    if parseNodeId node.nodeId = id then
      some node
    else
      lastJoin events id
| _ :: events, id => lastJoin events id

/- The number has left after its most recent join. -/
def hasLeft :
    List NodeEvent → UInt64 → Bool
| [], _ => false
| .join node :: events, id =>
    if parseNodeId node.nodeId = id then
      false
    else
      hasLeft events id
| .leave name :: events, id =>
    if parseNodeId name = id then
      true
    else
      hasLeft events id
| .announce _ :: events, id => hasLeft events id

/-
  The address that is reported for a leader is that of its
  most recent join, and none where it has left.
-/
structure RedirectsRight
    (handled : List NodeEvent)
    (leader : UInt64)
    (leaderHttp : Option String) : Prop where
  latest :
    ∀ node,
      lastJoin handled leader = some node →
        hasLeft handled leader = false →
          leaderHttp = some node.httpAddr
  absent :
    hasLeft handled leader = true → leaderHttp = none

/-
  The first name, in byte order, of those recorded that give
  the number.
-/
structure FirstNamed
    (applied : List NodeEvent)
    (leader : UInt64)
    (name : String) : Prop where
  recorded : ∃ node, lastRecord applied name = some node
  number : parseNodeId name = leader
  first :
    ∀ other node,
      lastRecord applied other = some node →
        parseNodeId other = leader →
          (compare name other).isLE = true

/-
  The first name that gives the number of a leader was last
  recorded with the address of its most recent join, by what
  the server has applied; one that has left was never
  recorded.
-/
structure FirstIsLatest
    (handled applied : List NodeEvent)
    (leader : UInt64) : Prop where
  latest :
    ∀ node,
      lastJoin handled leader = some node →
        hasLeft handled leader = false →
          ∃ name recorded,
            FirstNamed applied leader name ∧
              lastRecord applied name = some recorded ∧
              recorded.httpAddr = node.httpAddr
  absent :
    hasLeft handled leader = true →
      ∀ name,
        parseNodeId name = leader →
          lastRecord applied name = none

end Kron

------------------------------------------------------------
-- The Table
------------------------------------------------------------

namespace Kron

variable {cal : Calendar}
variable {s s' : RedirectState}
variable {events : List NodeEvent}

/- A record is kept under the name of its node. -/
theorem lastRecord_nodeId
    {name : String}
    {node : NodeInfo}
    (hRecord : lastRecord events name = some node) :
    node.nodeId = name := by
  induction events with
  | nil => cases hRecord
  | cons event events ih =>
      cases event with
      | announce leader =>
          simp only [lastRecord] at hRecord
          split at hRecord
          · rename_i hName
            cases hRecord
            exact hName
          · exact ih hRecord
      | join joined =>
          simp only [lastRecord] at hRecord
          split at hRecord
          · rename_i hName
            cases hRecord
            exact hName
          · exact ih hRecord
      | leave _ => exact ih hRecord

/- The table has what was last recorded under each name. -/
def RedirectState.Recorded
    (s : RedirectState) : Prop :=
  ∀ name, s.app.nodes[name]? = lastRecord s.applied name

/- A recorded node replaces the one of its name. -/
theorem get_addNode
    {app app' : PersistedStateMachine}
    {node : NodeInfo}
    (hApply :
      applyKronCommand cal app (.addNode node) =
        some app')
    (name : String) :
    app'.nodes[name]? =
      if node.nodeId = name then
        some node
      else
        app.nodes[name]? := by
  cases hApply
  exact BTreeMap.get_insert app.nodes node.nodeId name node

namespace RedirectState

theorem Recorded.step
    {label : RedirectLabel}
    (hRecorded : s.Recorded)
    (hStep : s.step cal label = some s') :
    s'.Recorded := by
  cases label with
  | handle event =>
      cases hStep
      exact hRecorded
  | apply =>
      simp only [RedirectState.step] at hStep
      split at hStep
      · cases hStep
      · rename_i event rest hRest
        cases event with
        | announce leader =>
            rcases Option.map_eq_some_iff.mp hStep with
              ⟨app, hApply, rfl⟩
            intro name
            rw [get_addNode hApply, hRecorded name]
            rfl
        | join node =>
            rcases Option.map_eq_some_iff.mp hStep with
              ⟨app, hApply, rfl⟩
            intro name
            rw [get_addNode hApply, hRecorded name]
            rfl
        | leave name =>
            cases hStep
            exact hRecorded

/- So it is after every run. -/
theorem Recorded.run
    {labels : List RedirectLabel}
    (hRun :
      Machine.run (RedirectState.step cal) initial labels =
        some s) :
    s.Recorded := by
  have hAlways :
      Machine.Meets (RedirectState.step cal)
        (fun _ _ => True) initial labels :=
    Machine.meets_of_forall _ _ fun _ _ _ => trivial
  refine
    Machine.run_invariant RedirectState.Recorded ?_ ?_
      hAlways hRun
  · exact fun _ _ _ hInv _ hStep => hInv.step hStep
  · intro name
    exact Std.ExtTreeMap.getElem?_empty

end RedirectState

/- The address that is found is that of the first name. -/
theorem leaderHttp_eq_some_iff
    (hRecorded : s.Recorded)
    {nodeId leader : UInt64}
    (hOther : leader ≠ nodeId)
    {httpAddr addr : String} :
    (notLeaderResponse (some leader) nodeId httpAddr
        s.app).leaderHttp = some addr ↔
      ∃ name recorded,
        FirstNamed s.applied leader name ∧
          lastRecord s.applied name = some recorded ∧
          recorded.httpAddr = addr := by
  simp only [notLeaderResponse, if_neg hOther]
  rw [Option.map_eq_some_iff]
  simp only [BTreeMap.find?_vals_eq_some_iff, beq_iff_eq]
  constructor
  · rintro ⟨node, ⟨name, hGet, hNumber, hFirst⟩, hAddr⟩
    rw [hRecorded name] at hGet
    refine
      ⟨name, node, ⟨⟨node, hGet⟩, ?_, ?_⟩, hGet, hAddr⟩
    · rw [← lastRecord_nodeId hGet]
      exact hNumber
    · intro other node' hRecord hSame
      apply hFirst other node'
      · rw [hRecorded other]
        exact hRecord
      · rw [lastRecord_nodeId hRecord]
        exact hSame
  · rintro ⟨name, node, hNamed, hRecord, hAddr⟩
    refine ⟨node, ⟨name, ?_, ?_, ?_⟩, hAddr⟩
    · rw [hRecorded name]
      exact hRecord
    · rw [lastRecord_nodeId hRecord]
      exact hNamed.number
    · intro other node' hGet hSame
      rw [hRecorded other] at hGet
      rw [lastRecord_nodeId hGet] at hSame
      exact hNamed.first other node' hGet hSame

/- Nothing is found where no name gives the number. -/
theorem leaderHttp_eq_none_iff
    (hRecorded : s.Recorded)
    {nodeId leader : UInt64}
    (hOther : leader ≠ nodeId)
    {httpAddr : String} :
    (notLeaderResponse (some leader) nodeId httpAddr
        s.app).leaderHttp = none ↔
      ∀ name,
        parseNodeId name = leader →
          lastRecord s.applied name = none := by
  simp only [notLeaderResponse, if_neg hOther,
    Option.map_eq_none_iff]
  rw [List.find?_eq_none]
  constructor
  · intro hNone name hNumber
    cases hRecord : lastRecord s.applied name with
    | none => rfl
    | some node =>
        have hMem : node ∈ s.app.nodes.vals := by
          rw [BTreeMap.mem_vals_iff]
          exact ⟨name, by rw [hRecorded name, hRecord]⟩
        have hNot := hNone node hMem
        rw [lastRecord_nodeId hRecord, beq_iff_eq] at hNot
        exact (hNot hNumber).elim
  · intro hAbsent node hMem hSame
    rcases (BTreeMap.mem_vals_iff _ _).mp hMem with
      ⟨name, hGet⟩
    rw [hRecorded name] at hGet
    rw [beq_iff_eq, lastRecord_nodeId hGet] at hSame
    rw [hAbsent name hSame] at hGet
    cases hGet

/-
  In every state of every run, the answer of a server about
  another leader is right if and only if the first name for
  it is its latest, and it has not left.
-/
theorem redirects_right_iff
    (cal : Calendar)
    (labels : List RedirectLabel)
    (s : RedirectState)
    (hRun :
      Machine.run (RedirectState.step cal)
          RedirectState.initial labels =
        some s)
    (nodeId leader : UInt64)
    (httpAddr : String)
    (hOther : leader ≠ nodeId) :
    RedirectsRight s.handled leader
        (notLeaderResponse (some leader) nodeId httpAddr
          s.app).leaderHttp ↔
      FirstIsLatest s.handled s.applied leader := by
  have hRecorded := RedirectState.Recorded.run hRun
  have hSome :=
    @leaderHttp_eq_some_iff s hRecorded nodeId leader hOther
      httpAddr
  have hNone :=
    @leaderHttp_eq_none_iff s hRecorded nodeId leader hOther
      httpAddr
  constructor
  · intro hRight
    refine ⟨?_, ?_⟩
    · intro node hJoin hStays
      exact hSome.mp (hRight.latest node hJoin hStays)
    · exact fun hLeft => hNone.mp (hRight.absent hLeft)
  · intro hCond
    refine ⟨?_, ?_⟩
    · intro node hJoin hStays
      exact hSome.mpr (hCond.latest node hJoin hStays)
    · exact fun hLeft => hNone.mpr (hCond.absent hLeft)

end Kron

------------------------------------------------------------
-- Three Servers
------------------------------------------------------------

namespace Kron

/- A node on the loopback address. -/
def nodeAt
    (name port : String) : NodeInfo where
  nodeId := name
  httpAddr := "127.0.0.1:" ++ port
  raftAddr := "127.0.0.1:" ++ port ++ "1"

/- `n1` leads, and `n2` joins. -/
def secondJoins : List RedirectLabel :=
  [.handle (.announce (nodeAt "n1" "7001")),
    .handle (.join (nodeAt "n2" "7002")),
    .apply,
    .apply]

/- `n2` leaves, and another server joins with its number. -/
def secondReplaced : List RedirectLabel :=
  secondJoins ++
    [.handle (.leave "n2"),
      .handle (.announce (nodeAt "n1" "7001")),
      .handle (.join (nodeAt "node2" "7003")),
      .apply,
      .apply,
      .apply]

/- The third server redirects to the second. -/
theorem redirects_right_iff_secondJoins :
    ∃ s,
      Machine.run (RedirectState.step utcCalendar)
          RedirectState.initial secondJoins = some s ∧
        RedirectsRight s.handled 2
          (notLeaderResponse (some 2) 3 "127.0.0.1:7009"
            s.app).leaderHttp := by
  refine ⟨_, rfl, ?_⟩
  rw [redirects_right_iff utcCalendar secondJoins _ rfl 3 2
    "127.0.0.1:7009" (by decide)]
  refine ⟨?_, ?_⟩
  · intro node hJoin _
    refine
      ⟨"n2", nodeAt "n2" "7002",
        ⟨⟨_, rfl⟩, by decide +kernel, ?_⟩, rfl, ?_⟩
    · intro other node' hRecord hSame
      have hOther : other = "n1" ∨ other = "n2" := by
        have hName := lastRecord_nodeId hRecord
        revert hRecord
        simp only [lastRecord]
        split
        · rename_i hSecond
          exact fun _ => Or.inr hSecond.symm
        · split
          · rename_i hFirst
            exact fun _ => Or.inl hFirst.symm
          · exact nofun
      rcases hOther with rfl | rfl
      · revert hSame
        decide +kernel
      · decide +kernel
    · cases hJoin
      rfl
  · intro hLeft
    exact absurd hLeft (by decide +kernel)

/-
  The third server redirects to the one that has left, and
  not to the one that has joined.
-/
theorem redirects_to_departed :
    ∃ s,
      Machine.run (RedirectState.step utcCalendar)
          RedirectState.initial secondReplaced = some s ∧
        s.unapplied = [] ∧
        (notLeaderResponse (some 2) 3 "127.0.0.1:7009"
            s.app).leaderHttp = some "127.0.0.1:7002" ∧
        lastJoin s.handled 2 =
          some (nodeAt "node2" "7003") ∧
        ¬ RedirectsRight s.handled 2
            (notLeaderResponse (some 2) 3 "127.0.0.1:7009"
              s.app).leaderHttp := by
  refine ⟨_, rfl, rfl, ?_, ?_, ?_⟩
  · decide +kernel
  · decide +kernel
  · intro hRight
    have hLatest :=
      hRight.latest (nodeAt "node2" "7003")
        (by decide +kernel) (by decide +kernel)
    revert hLatest
    decide +kernel

end Kron
